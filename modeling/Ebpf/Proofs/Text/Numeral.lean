import Mathlib.Data.List.Forall2
import Mathlib.Data.Nat.Digits.Defs
import Mathlib.Tactic.IntervalCases
import Ebpf.Proofs.Text.Blank
import Ebpf.Text.Number
import Ebpf.Text.Numeral

/-! # Numerals and their values

A machine word is read from a text exactly if the text without the white space around it is a
numeral for the word: a marker of the base, at most one plus sign, and digits. So a word that is
written in decimal or in hexadecimal is read back.
-/

namespace Ebpf

namespace Numeral

def IsDigit (base : Nat) (c : Char) (d : Nat) : Prop :=
  d < base ∧ (c = d.digitChar ∨ c = d.digitChar.toUpper)

/-- The characters are digits, the most significant one first, and together they have this value.
The first ones may be zeros. -/
def AreDigits (base : Nat) (cs : List Char) (n : Nat) : Prop :=
  ∃ ds, cs ≠ [] ∧ List.Forall₂ (IsDigit base) cs ds ∧ n = Nat.ofDigits base ds.reverse

/-- What stands in front of a numeral of the base. -/
inductive Marks : List Char → Nat → Prop
  | decimal : Marks [] 10
  | hexadecimal (x : Char) (h : x = 'x' ∨ x = 'X') : Marks ['0', x] 16

def Signs (sign : List Char) : Prop := sign = [] ∨ sign = ['+']

/-- The characters are a numeral for the number. -/
inductive Denotes : List Char → Nat → Prop
  | intro {marker sign cs : List Char} {base n : Nat} (hmarker : Marks marker base)
      (hsign : Signs sign) (hdigits : AreDigits base cs n) : Denotes (marker ++ (sign ++ cs)) n

variable {base : Nat} {c : Char} {cs marker sign : List Char} {d n value : Nat}

/-! ### Digits -/

theorem ofNat_eq_digitChar {k : Nat} (h : 48 ≤ k ∧ k ≤ 57) :
    Char.ofNat k = (k - 48).digitChar := by
  obtain ⟨hlow, hhigh⟩ := h
  interval_cases k <;> rfl

theorem ofNat_eq_digitChar_lower {k : Nat} (h : 97 ≤ k ∧ k ≤ 102) :
    Char.ofNat k = (k - 97 + 10).digitChar := by
  obtain ⟨hlow, hhigh⟩ := h
  interval_cases k <;> rfl

theorem ofNat_eq_digitChar_upper {k : Nat} (h : 65 ≤ k ∧ k ≤ 70) :
    Char.ofNat k = (k - 65 + 10).digitChar.toUpper := by
  obtain ⟨hlow, hhigh⟩ := h
  interval_cases k <;> rfl

theorem isDigit_of_digit? (h : digit? base c = some d) : IsDigit base c d := by
  obtain ⟨hvalue, hd⟩ := Option.filter_eq_some_iff.mp h
  refine ⟨by simpa using hd, ?_⟩
  rw [← c.ofNat_toNat]
  split at hvalue
  · rename_i hc
    cases hvalue
    exact Or.inl (ofNat_eq_digitChar hc)
  split at hvalue
  · rename_i hc
    cases hvalue
    exact Or.inl (ofNat_eq_digitChar_lower hc)
  split at hvalue
  · rename_i hc
    cases hvalue
    exact Or.inr (ofNat_eq_digitChar_upper hc)
  · cases hvalue

theorem digit?_eq_filter (hb : base ≤ 16) (c : Char) :
    digit? base c = (digit? 16 c).filter (· < base) := by
  have hcheck : (fun d => decide (d < base)) = fun d => decide (d < 16) && decide (d < base) := by
    funext d
    rw [← Bool.decide_and, decide_eq_decide]
    omega
  unfold digit?
  rw [Option.filter_filter, ← hcheck]

theorem digit?_digitChar (h : d < 16) :
    digit? 16 d.digitChar = some d ∧ digit? 16 d.digitChar.toUpper = some d := by
  interval_cases d <;> exact ⟨rfl, rfl⟩

theorem digit?_eq_some_iff (hb : base ≤ 16) : digit? base c = some d ↔ IsDigit base c d := by
  refine ⟨isDigit_of_digit?, ?_⟩
  rintro ⟨hd, hc⟩
  obtain ⟨hlower, hupper⟩ := digit?_digitChar (Nat.lt_of_lt_of_le hd hb)
  have hsixteen : digit? 16 c = some d := by
    rcases hc with rfl | rfl
    · exact hlower
    · exact hupper
  rw [digit?_eq_filter hb, hsixteen, Option.filter_some, if_pos (decide_eq_true hd)]

theorem IsDigit.ne (hb : base ≤ 16) (h : IsDigit base c d) :
    Text.isBlank c = false ∧ c ≠ '+' ∧ c ≠ 'x' ∧ c ≠ 'X' := by
  obtain ⟨hd, hc⟩ := h
  have hd : d < 16 := Nat.lt_of_lt_of_le hd hb
  rcases hc with rfl | rfl <;> interval_cases d <;> decide

theorem appendDigits_cons_eq_ok_iff (hb : base ≤ 16) :
    appendDigits base value (c :: cs) = .ok n ↔ ∃ d, IsDigit base c d ∧
      value * base + d < UInt64.size ∧ appendDigits base (value * base + d) cs = .ok n := by
  simp only [← digit?_eq_some_iff hb]
  rw [appendDigits]
  cases digit? base c with
  | none => simp
  | some d =>
    dsimp only
    split
    · rename_i hlt
      simp [hlt]
    · rename_i hge
      simp [hge]

/-- A number that grows digit by digit is a machine word all the time if it is one in the end. -/
theorem appendDigits_eq_ok_iff (hb : base ≤ 16) (hpos : 0 < base) (hvalue : value < UInt64.size) :
    appendDigits base value cs = .ok n ↔ ∃ ds, List.Forall₂ (IsDigit base) cs ds ∧
      n = Nat.ofDigits base ds.reverse + base ^ ds.length * value ∧ n < UInt64.size := by
  have hgrow (ds : List Nat) (d value : Nat) :
      Nat.ofDigits base (d :: ds).reverse + base ^ (d :: ds).length * value =
        Nat.ofDigits base ds.reverse + base ^ ds.length * (value * base + d) := by
    rw [Nat.ofDigits_reverse_cons, List.length_cons, Nat.pow_succ, Nat.mul_add, Nat.mul_assoc,
      Nat.mul_comm base value]
    omega
  induction cs generalizing value with
  | nil =>
    rw [appendDigits, Except.ok.injEq]
    constructor
    · rintro rfl
      exact ⟨[], .nil, by simp, hvalue⟩
    · rintro ⟨ds, hds, rfl, -⟩
      cases hds
      simp
  | cons c cs ih =>
    rw [appendDigits_cons_eq_ok_iff hb]
    constructor
    · rintro ⟨d, hd, hlt, h⟩
      obtain ⟨ds, hds, hn, hsize⟩ := (ih hlt).mp h
      exact ⟨d :: ds, .cons hd hds, hn.trans (hgrow ds d value).symm, hsize⟩
    · rintro ⟨_, hds, hn, hsize⟩
      cases hds with
      | @cons _ d _ ds hd hds =>
        rw [hgrow] at hn
        have hle : value * base + d ≤ base ^ ds.length * (value * base + d) :=
          Nat.le_mul_of_pos_left _ (Nat.pow_pos hpos)
        have hlt : value * base + d < UInt64.size := by omega
        exact ⟨d, hd, hlt, (ih hlt).mpr ⟨ds, hds, hn, hsize⟩⟩

theorem appendDigits_zero_eq_ok_iff (hb : base ≤ 16) (hpos : 0 < base) (hcs : cs ≠ []) :
    appendDigits base 0 cs = .ok n ↔ AreDigits base cs n ∧ n < UInt64.size := by
  rw [appendDigits_eq_ok_iff hb hpos (by decide)]
  constructor
  · rintro ⟨ds, hds, rfl, hsize⟩
    exact ⟨⟨ds, hcs, hds, rfl⟩, hsize⟩
  · rintro ⟨⟨ds, -, hds, rfl⟩, hsize⟩
    exact ⟨ds, hds, rfl, hsize⟩

theorem AreDigits.ne_nil (h : AreDigits base cs n) : cs ≠ [] := by
  obtain ⟨ds, hcs, -⟩ := h
  exact hcs

theorem AreDigits.isDigit (h : AreDigits base cs n) : ∀ c ∈ cs, ∃ d, IsDigit base c d := by
  obtain ⟨ds, -, hds, -⟩ := h
  induction hds with
  | nil => nofun
  | cons hd _ ih => exact List.forall_mem_cons.mpr ⟨⟨_, hd⟩, ih⟩

/-! ### Signs and markers -/

theorem magnitude_of_plus (base : Nat) (hcs : cs ≠ []) :
    magnitude base ('+' :: cs) = appendDigits base 0 cs := by
  cases cs with
  | nil => exact absurd rfl hcs
  | cons c cs => rfl

theorem magnitude_of_ne_plus (base : Nat) (hc : c ≠ '+') :
    magnitude base (c :: cs) = appendDigits base 0 (c :: cs) := by
  unfold magnitude
  split
  · rename_i h
    cases h
  · rename_i h
    cases h
    exact absurd rfl hc
  · rename_i h
    cases h
    exact absurd rfl hc
  · rfl

theorem magnitude_eq_ok_iff (hb : base ≤ 16) (hpos : 0 < base) : magnitude base cs = .ok n ↔
    (∃ sign body, cs = sign ++ body ∧ Signs sign ∧ AreDigits base body n) ∧ n < UInt64.size := by
  constructor
  · intro h
    cases cs with
    | nil => cases h
    | cons c cs =>
      by_cases hc : c = '+'
      · subst hc
        by_cases hcs : cs = []
        · subst hcs
          cases h
        · rw [magnitude_of_plus base hcs, appendDigits_zero_eq_ok_iff hb hpos hcs] at h
          exact ⟨⟨['+'], cs, rfl, Or.inr rfl, h.1⟩, h.2⟩
      · have hcs : c :: cs ≠ [] := List.cons_ne_nil c cs
        rw [magnitude_of_ne_plus base hc, appendDigits_zero_eq_ok_iff hb hpos hcs] at h
        exact ⟨⟨[], c :: cs, rfl, Or.inl rfl, h.1⟩, h.2⟩
  · rintro ⟨⟨sign, body, rfl, hsign, hbody⟩, hn⟩
    have happend := (appendDigits_zero_eq_ok_iff hb hpos hbody.ne_nil).mpr ⟨hbody, hn⟩
    rcases hsign with rfl | rfl
    · cases body with
      | nil => exact absurd rfl hbody.ne_nil
      | cons c body =>
        obtain ⟨d, hd⟩ := hbody.isDigit c (List.mem_cons_self ..)
        rwa [List.nil_append, magnitude_of_ne_plus base (hd.ne hb).2.1]
    · rwa [List.singleton_append, magnitude_of_plus base hbody.ne_nil]

theorem Marks.bounds (h : Marks marker base) : base ≤ 16 ∧ 1 < base := by
  cases h with
  | decimal => decide
  | hexadecimal x hx => decide

theorem exists_marks (cs : List Char) : ∃ marker base rest, cs = marker ++ rest ∧
    Marks marker base ∧ ofChars cs = magnitude base rest := by
  unfold ofChars
  split
  · exact ⟨['0', 'x'], 16, _, rfl, .hexadecimal 'x' (Or.inl rfl), rfl⟩
  · exact ⟨['0', 'X'], 16, _, rfl, .hexadecimal 'X' (Or.inr rfl), rfl⟩
  · exact ⟨[], 10, _, rfl, .decimal, rfl⟩

/-- Behind a marker there is no second one. -/
theorem ofChars_of_marks (h : Marks marker base) (hcs : ∀ c ∈ cs, c ≠ 'x' ∧ c ≠ 'X') :
    ofChars (marker ++ cs) = magnitude base cs := by
  cases h with
  | decimal =>
    rw [List.nil_append]
    unfold ofChars
    split
    · exact absurd rfl (hcs 'x' (by simp)).1
    · exact absurd rfl (hcs 'X' (by simp)).2
    · rfl
  | hexadecimal x hx =>
    rcases hx with rfl | rfl
    · rfl
    · rfl

/-- What stands behind a marker is neither white space nor taken for a part of the marker. -/
theorem ne_of_mem_append (hb : base ≤ 16) (hsign : Signs sign) (hcs : AreDigits base cs n) :
    ∀ c ∈ sign ++ cs, Text.isBlank c = false ∧ c ≠ 'x' ∧ c ≠ 'X' := by
  rw [List.forall_mem_append]
  constructor
  · rcases hsign with rfl | rfl
    · nofun
    · simp [Text.isBlank]
  · intro c hc
    obtain ⟨d, hd⟩ := hcs.isDigit c hc
    obtain ⟨hblank, -, hx⟩ := hd.ne hb
    exact ⟨hblank, hx⟩

theorem ofChars_eq_ok_iff : ofChars cs = .ok n ↔ Denotes cs n ∧ n < UInt64.size := by
  constructor
  · intro h
    obtain ⟨marker, base, rest, rfl, hmarker, heq⟩ := exists_marks cs
    obtain ⟨hb, hone⟩ := hmarker.bounds
    rw [heq, magnitude_eq_ok_iff hb (Nat.zero_lt_of_lt hone)] at h
    obtain ⟨⟨sign, body, rfl, hsign, hbody⟩, hn⟩ := h
    exact ⟨.intro hmarker hsign hbody, hn⟩
  · rintro ⟨⟨hmarker, hsign, hbody⟩, hn⟩
    obtain ⟨hb, hone⟩ := hmarker.bounds
    have hletters := ne_of_mem_append hb hsign hbody
    rw [ofChars_of_marks hmarker fun c hc => (hletters c hc).2,
      magnitude_eq_ok_iff hb (Nat.zero_lt_of_lt hone)]
    exact ⟨⟨_, _, rfl, hsign, hbody⟩, hn⟩

theorem Denotes.isBlank (h : Denotes cs n) : ∀ c ∈ cs, Text.isBlank c = false := by
  obtain ⟨hmarker, hsign, hbody⟩ := h
  have hrest := ne_of_mem_append hmarker.bounds.1 hsign hbody
  rw [List.forall_mem_append]
  refine ⟨?_, fun c hc => (hrest c hc).1⟩
  cases hmarker with
  | decimal => nofun
  | hexadecimal x hx => rcases hx with rfl | rfl <;> simp [Text.isBlank]

theorem Denotes.trims (h : Denotes cs n) {before after : List Char}
    (hbefore : ∀ c ∈ before, Text.isBlank c = true) (hafter : ∀ c ∈ after, Text.isBlank c = true) :
    Text.Trims (before ++ cs ++ after) cs where
  around := ⟨before, after, rfl, hbefore, hafter⟩
  head c hc := h.isBlank c (List.mem_of_head? hc)
  last c hc := h.isBlank c (List.mem_of_getLast? hc)

/-! ### Written words -/

theorem areDigits_toDigits (hbase : 1 < base) (n : Nat) :
    AreDigits base (Nat.toDigits base n) n := by
  induction n using Nat.strongRecOn with
  | ind n ih =>
    rw [Nat.toDigits_eq_if hbase]
    split
    · rename_i hlt
      exact ⟨[n], nofun, .cons ⟨hlt, Or.inl rfl⟩ .nil, by simp⟩
    · rename_i hge
      obtain ⟨ds, hne, hds, hn⟩ := ih (n / base) (Nat.div_lt_self (by omega) hbase)
      have hlast : IsDigit base (n % base).digitChar (n % base) :=
        ⟨Nat.mod_lt _ (by omega), Or.inl rfl⟩
      refine ⟨ds ++ [n % base], by simp, List.rel_append hds (.cons hlast .nil), ?_⟩
      rw [List.reverse_append, List.reverse_singleton, List.singleton_append, Nat.ofDigits_cons,
        ← hn, Nat.mod_add_div]

theorem denotes_toString (n : Nat) : Denotes (toString n).toList n := by
  have hdigits : AreDigits 10 (Nat.toDigits 10 n) n := areDigits_toDigits (by decide) n
  rw [Nat.toString_eq_repr, Nat.toList_repr]
  exact .intro .decimal (Or.inl rfl) hdigits

theorem denotes_hex (n : Nat) : Denotes (Text.hex n).toList n := by
  have hdigits : AreDigits 16 (Nat.toDigits 16 n) n := areDigits_toDigits (by decide) n
  have hhex : (Text.hex n).toList = ['0', 'x'] ++ ([] ++ Nat.toDigits 16 n) := by
    simp [Text.hex, Text.digits]
  rw [hhex]
  exact .intro (.hexadecimal 'x' (Or.inl rfl)) (Or.inl rfl) hdigits

end Numeral

open Numeral

variable {text : String} {t : List Char} {v : UInt64}

theorem parseWord_eq_ok_iff (h : Text.Trims text.toList t) :
    parseWord text = .ok v ↔ Denotes t v.toNat := by
  have hiff : Denotes t v.toNat ↔ ofChars t = .ok v.toNat := by
    rw [ofChars_eq_ok_iff]
    exact (and_iff_left v.toNat_lt).symm
  rw [hiff, parseWord, h.trim_eq]
  cases hn : ofChars t with
  | error cause => simp
  | ok n =>
    have hsize := (ofChars_eq_ok_iff.mp hn).2
    simp only [Except.ok.injEq]
    constructor
    · rintro rfl
      exact (UInt64.toNat_ofNat_of_lt' hsize).symm
    · rintro rfl
      exact UInt64.ofNat_toNat

theorem parseWord_eq_error_iff (h : Text.Trims text.toList t) :
    (∃ cause, parseWord text = .error ⟨String.ofList t, cause⟩) ↔
      ∀ v : UInt64, ¬ Denotes t v.toNat := by
  constructor
  · rintro ⟨cause, he⟩ v hv
    cases he.symm.trans ((parseWord_eq_ok_iff h).mpr hv)
  · intro hnone
    cases hn : ofChars t with
    | error cause =>
      refine ⟨cause, ?_⟩
      rw [parseWord, h.trim_eq, hn]
    | ok n =>
      obtain ⟨hdenotes, hsize⟩ := ofChars_eq_ok_iff.mp hn
      exact absurd hdenotes (UInt64.toNat_ofNat_of_lt' hsize ▸ hnone (UInt64.ofNat n))

theorem parseWord_append {n : String} (hn : Denotes n.toList v.toNat) {before after : String}
    (hbefore : ∀ c ∈ before.toList, Text.isBlank c = true)
    (hafter : ∀ c ∈ after.toList, Text.isBlank c = true) :
    parseWord (before ++ n ++ after) = .ok v := by
  have htrims := hn.trims hbefore hafter
  rw [← String.toList_append, ← String.toList_append] at htrims
  exact (parseWord_eq_ok_iff htrims).mpr hn

/-- A machine word is read from a text exactly if the text without the white space around it is a
numeral for it, and any other text is refused. A word that is written in decimal or in hexadecimal
is read back, whatever white space is put around it. -/
theorem parseWord_exact :
    (∀ text : String, ∃! t, Text.Trims text.toList t) ∧
    (∀ (text : String) (t : List Char), Text.Trims text.toList t →
      (∀ v : UInt64, parseWord text = .ok v ↔ Denotes t v.toNat) ∧
      ((∃ cause, parseWord text = .error ⟨String.ofList t, cause⟩) ↔
        ∀ v : UInt64, ¬ Denotes t v.toNat)) ∧
    ∀ (v : UInt64) (before after : String), (∀ c ∈ before.toList, Text.isBlank c = true) →
      (∀ c ∈ after.toList, Text.isBlank c = true) →
      parseWord (before ++ toString v.toNat ++ after) = .ok v ∧
      parseWord (before ++ Text.hex v.toNat ++ after) = .ok v := by
  refine ⟨fun text => ?_, fun text t h => ?_, fun v before after hbefore hafter => ?_⟩
  · exact ⟨_, Text.trims_trim text.toList, fun t h => h.trim_eq.symm⟩
  · exact ⟨fun v => parseWord_eq_ok_iff h, parseWord_eq_error_iff h⟩
  · exact ⟨parseWord_append (denotes_toString _) hbefore hafter,
      parseWord_append (denotes_hex _) hbefore hafter⟩

theorem parseWord_exact_plus :
    parseWord "\u00a00x+00fF\n" = .ok 0xff ∧
    (∃ cause, parseWord " +0x5" = .error ⟨"+0x5", cause⟩) ∧
    parseWord "\t18446744073709551615 " = .ok 0xffffffffffffffff ∧
    parseWord "\u30000xffffffffffffffff" = .ok 0xffffffffffffffff := by
  obtain ⟨-, hread, hwritten⟩ := parseWord_exact
  refine ⟨?_, ?_, ?_, ?_⟩
  · have htrims : Text.Trims "\u00a00x+00fF\n".toList "0x+00fF".toList :=
      ⟨⟨['\u00a0'], ['\n'], rfl, by simp [Text.isBlank], by simp [Text.isBlank]⟩,
        by simp [Text.isBlank], by simp [Text.isBlank]⟩
    have hdigits : AreDigits 16 ['0', '0', 'f', 'F'] 0xff :=
      ⟨[0, 0, 15, 15], nofun, by unfold IsDigit; decide, rfl⟩
    exact ((hread _ _ htrims).1 0xff).mpr
      (.intro (.hexadecimal 'x' (Or.inl rfl)) (Or.inr rfl) hdigits)
  · have htrims : Text.Trims " +0x5".toList "+0x5".toList :=
      ⟨⟨[' '], [], rfl, by simp [Text.isBlank], nofun⟩, by simp [Text.isBlank],
        by simp [Text.isBlank]⟩
    refine (hread _ _ htrims).2.mpr fun v hv => ?_
    generalize ht : "+0x5".toList = t at hv
    obtain ⟨hmarker, hsign, hdigits⟩ := hv
    cases hmarker with
    | decimal =>
      have hletters := ne_of_mem_append (by decide) hsign hdigits
      rw [List.nil_append] at ht
      rw [← ht] at hletters
      exact (hletters 'x' (by decide)).2.1 rfl
    | hexadecimal x hx => cases ht
  · refine (hwritten 0xffffffffffffffff "\t" " " ?_ ?_).1 <;> simp [Text.isBlank]
  · refine (hwritten 0xffffffffffffffff "\u3000" "" ?_ ?_).2 <;> simp [Text.isBlank]

end Ebpf
