import Ebpf.Container.Reader
import Ebpf.Proofs.Bytes
import Ebpf.Proofs.Failure

/-! # What the readers accept

Each reader accepts the written forms of the values that keep the limits of the format, and nothing
else: it takes the written form of its result from the front of the input and leaves what follows.
-/

namespace Ebpf.Container

open Bytes

/-- The limits of the format. -/
structure Layout.Fits (l : Layout) : Prop where
  functions_le : l.functions.length ≤ maxFunctions
  functionName_le : ∀ f ∈ l.functions, f.name.utf8ByteSize ≤ maxNameLength
  slots_le : ∀ f ∈ l.functions, f.code.size ≤ maxSlots
  imports_le : l.imports.length ≤ maxImports
  importName_le : ∀ i ∈ l.imports, (i.2.name.getD "").utf8ByteSize ≤ maxNameLength

/-- No declaration has the empty name, which stands for no name in a container. -/
def Layout.Canonical (l : Layout) : Prop := ∀ i ∈ l.imports, i.2.name ≠ some ""

instance (l : Layout) : Decidable l.Canonical :=
  inferInstanceAs (Decidable (∀ i ∈ l.imports, i.2.name ≠ some ""))

theorem splitBytes_eq_some_iff {n : Nat} {input taken rest : List UInt8} :
    splitBytes n input = some (taken, rest) ↔ taken.length = n ∧ input = taken ++ rest := by
  fun_induction splitBytes n input generalizing taken rest with
  | case1 input =>
    constructor
    · rintro ⟨⟩
      exact ⟨rfl, rfl⟩
    · rintro ⟨hn, rfl⟩
      rw [List.length_eq_zero_iff.mp hn]
      rfl
  | case2 n =>
    constructor
    · intro h; cases h
    · rintro ⟨hn, h⟩
      rw [(List.append_eq_nil_iff.mp h.symm).1] at hn
      cases hn
  | case3 n b input ih =>
    simp only [Option.map_eq_some_iff, Prod.exists, ih, Prod.mk.injEq]
    constructor
    · rintro ⟨taken, rest, ⟨rfl, rfl⟩, rfl, rfl⟩
      exact ⟨rfl, rfl⟩
    · rintro ⟨hn, h⟩
      cases taken with
      | nil => cases hn
      | cons c taken =>
        cases h
        exact ⟨taken, rest, ⟨Nat.succ.inj hn, rfl⟩, rfl, rfl⟩

namespace Reader

variable {α β : Type} {input rest : List UInt8}

theorem bind_eq_ok_iff {x : Reader α} {f : α → Reader β} {b : β} :
    (x >>= f).run input = .ok (b, rest) ↔
      ∃ a mid, x.run input = .ok (a, mid) ∧ (f a).run mid = .ok (b, rest) := by
  rw [StateT.run_bind, Ebpf.bind_eq_ok_iff, Prod.exists]

theorem pure_eq_ok_iff {a b : α} :
    (pure a : Reader α).run input = .ok (b, rest) ↔ a = b ∧ input = rest := by
  rw [StateT.run_pure]
  constructor
  · rintro ⟨⟩
    exact ⟨rfl, rfl⟩
  · rintro ⟨rfl, rfl⟩
    rfl

theorem throw_eq_ok_iff {e : Error} {b : α} :
    (throw e : Reader α).run input = .ok (b, rest) ↔ False := by
  constructor
  · intro h; cases h
  · exact False.elim

theorem guard_eq_ok_iff {c : Prop} [Decidable c] {e : Error} {k : Unit → Reader α} {b : α} :
    (if c then throw e >>= k else k ()).run input = .ok (b, rest) ↔
      ¬ c ∧ (k ()).run input = .ok (b, rest) := by
  by_cases hc : c
  · rw [if_pos hc, bind_eq_ok_iff]
    simp only [throw_eq_ok_iff, false_and, exists_false, hc, not_true_eq_false]
  · rw [if_neg hc]
    simp only [hc, not_false_eq_true, true_and]

/-- The reader accepts exactly the written forms of the values in `good`. -/
def Reads (x : Reader α) (good : α → Prop) (written : α → List UInt8) : Prop :=
  ∀ input a rest, x.run input = .ok (a, rest) ↔ good a ∧ input = written a ++ rest

variable {x : Reader α} {good : α → Prop} {written : α → List UInt8}

theorem Reads.bind_iff (h : Reads x good written) {f : α → Reader β} {b : β} :
    (x >>= f).run input = .ok (b, rest) ↔
      ∃ a mid, (good a ∧ input = written a ++ mid) ∧ (f a).run mid = .ok (b, rest) := by
  rw [bind_eq_ok_iff]
  simp only [h _ _ _]

/-- A value that is read through another one, from which it can be had back. -/
theorem Reads.through (h : Reads x good written) {f : α → β} {g : β → α}
    (hgood : ∀ b, good (g b)) (hfg : ∀ b, f (g b) = b) (hgf : ∀ a, good a → g (f a) = a) :
    Reads (x >>= fun a => pure (f a)) (fun _ => True) (written ∘ g) := by
  intro input b rest
  rw [h.bind_iff]
  simp only [pure_eq_ok_iff, true_and]
  constructor
  · rintro ⟨a, mid, ⟨ha, rfl⟩, rfl, rfl⟩
    rw [Function.comp_apply, hgf a ha]
  · rintro rfl
    exact ⟨g b, rest, ⟨hgood b, rfl⟩, hfg b, rfl⟩

theorem times_reads (h : Reads x good written) (n : Nat) :
    Reads (times n x) (fun l => l.length = n ∧ ∀ a ∈ l, good a) (List.flatMap written) := by
  induction n with
  | zero =>
    intro input l rest
    rw [times, pure_eq_ok_iff]
    constructor
    · rintro ⟨rfl, rfl⟩
      exact ⟨⟨rfl, fun _ ha => nomatch ha⟩, rfl⟩
    · rintro ⟨⟨hl, -⟩, rfl⟩
      rw [List.length_eq_zero_iff.mp hl]
      exact ⟨rfl, rfl⟩
  | succ n ih =>
    intro input l rest
    rw [times, h.bind_iff]
    simp only [ih.bind_iff, pure_eq_ok_iff]
    constructor
    · rintro ⟨a, mid, ⟨ha, rfl⟩, l, last, ⟨⟨rfl, hl⟩, rfl⟩, rfl, rfl⟩
      refine ⟨⟨rfl, List.forall_mem_cons.mpr ⟨ha, hl⟩⟩, ?_⟩
      rw [List.flatMap_cons, List.append_assoc]
    · rintro ⟨⟨hn, hgood⟩, rfl⟩
      cases l with
      | nil => cases hn
      | cons a l =>
        obtain ⟨ha, hl⟩ := List.forall_mem_cons.mp hgood
        refine ⟨a, _, ⟨ha, ?_⟩, l, rest, ⟨⟨Nat.succ.inj hn, hl⟩, rfl⟩, rfl, rfl⟩
        rw [List.flatMap_cons, List.append_assoc]

theorem bytes_reads (n : Nat) : Reads (bytes n) (fun l => l.length = n) id := by
  intro input l rest
  rw [id, ← splitBytes_eq_some_iff, StateT.run]
  unfold bytes
  cases splitBytes n input with
  | some r => rw [Except.ok.injEq, Option.some.injEq]
  | none =>
    constructor
    · intro h; cases h
    · intro h; cases h

theorem number_reads (n : Nat) : Reads (number n) (· < bound n) (ofNat n) := by
  intro input v rest
  rw [number, (bytes_reads n).bind_iff]
  simp only [pure_eq_ok_iff]
  constructor
  · rintro ⟨l, mid, ⟨hl, rfl⟩, hv, rfl⟩
    obtain ⟨hlt, rfl⟩ := (toNat_eq_iff hl).mp hv
    exact ⟨hlt, rfl⟩
  · rintro ⟨hv, rfl⟩
    exact ⟨ofNat n v, rest, ⟨length_ofNat n v, rfl⟩, toNat_ofNat hv, rfl⟩

theorem byte_reads : Reads byte (fun _ => True) (fun b => [b]) := by
  have hbyte : (fun b : UInt8 => [b]) = ofNat 1 ∘ UInt8.toNat :=
    funext fun _ => by rw [Function.comp_apply, ofNat, UInt8.ofNat_toNat]; rfl
  rw [hbyte]
  exact (number_reads 1).through UInt8.toNat_lt (fun _ => UInt8.ofNat_toNat)
    fun _ h => UInt8.toNat_ofNat_of_lt' h

theorem word_reads : Reads word (fun _ => True) ofWord :=
  (number_reads 8).through UInt64.toNat_lt (fun _ => UInt64.ofNat_toNat)
    fun _ h => UInt64.toNat_ofNat_of_lt' h

theorem name_reads : Reads name (·.utf8ByteSize ≤ maxNameLength) nameBytes := by
  intro input text rest
  rw [name, (number_reads 2).bind_iff]
  simp only [guard_eq_ok_iff, (bytes_reads _).bind_iff, Nat.not_lt, nameBytes, length_ofString]
  constructor
  · rintro ⟨length, mid, ⟨-, rfl⟩, hle, taken, last, ⟨rfl, rfl⟩, h⟩
    split at h
    · rename_i other hother
      obtain ⟨rfl, rfl⟩ := pure_eq_ok_iff.mp h
      obtain rfl := toString?_eq_some_iff.mp hother
      rw [length_ofString] at hle ⊢
      exact ⟨hle, (List.append_assoc _ _ _).symm⟩
    · exact (throw_eq_ok_iff.mp h).elim
  · rintro ⟨hle, rfl⟩
    have hlt : text.utf8ByteSize < bound 2 := Nat.lt_of_le_of_lt hle (by decide)
    refine ⟨_, ofString text ++ rest, ⟨hlt, List.append_assoc _ _ _⟩, hle, ofString text, rest,
      ⟨length_ofString text, rfl⟩, ?_⟩
    rw [toString?_eq_some_iff.mpr rfl]
    exact pure_eq_ok_iff.mpr ⟨rfl, rfl⟩

theorem ofArity_eq_ok_iff {arity : Nat} {returns : Bool} {s : Signature} :
    Signature.ofArity arity returns = .ok s ↔ s.arity = arity ∧ s.returns = returns := by
  unfold Signature.ofArity Signature.ofArity?
  constructor
  · intro h
    split at h
    · rename_i t ht
      split at ht
      · cases ht; cases h; exact ⟨rfl, rfl⟩
      · cases ht
    · cases h
  · rintro ⟨rfl, rfl⟩
    rw [dif_pos s.arity_le]

theorem ofNat_toNat_beq_one {flag : UInt8} (h : ¬ 1 < flag) :
    UInt8.ofNat (flag == 1).toNat = flag := by
  have hle : flag.toNat ≤ 1 := UInt8.le_iff_toNat_le.mp (UInt8.not_lt.mp h)
  rcases Nat.le_one_iff_eq_zero_or_eq_one.mp hle with h0 | h1
  · obtain rfl : flag = 0 := UInt8.toNat_inj.mp h0
    rfl
  · obtain rfl : flag = 1 := UInt8.toNat_inj.mp h1
    rfl

theorem signature_reads : Reads signature (fun _ => True) signatureBytes := by
  intro input s rest
  rw [signature, byte_reads.bind_iff]
  simp only [byte_reads.bind_iff, guard_eq_ok_iff, true_and]
  constructor
  · rintro ⟨arity, _, rfl, flag, mid, rfl, hflag, h⟩
    split at h
    · rename_i t ht
      obtain ⟨rfl, rfl⟩ := pure_eq_ok_iff.mp h
      obtain ⟨harity, hreturns⟩ := ofArity_eq_ok_iff.mp ht
      rw [signatureBytes, Signature.returnArity, harity, hreturns, UInt8.ofNat_toNat,
        ofNat_toNat_beq_one hflag]
      rfl
    · exact (throw_eq_ok_iff.mp h).elim
  · rintro rfl
    have harity : s.arity < 256 := Nat.lt_of_le_of_lt s.arity_le (by decide)
    have hflag : ¬ 1 < UInt8.ofNat s.returnArity ∧
        (UInt8.ofNat s.returnArity == 1) = s.returns := by
      rw [Signature.returnArity]
      cases s.returns <;> decide
    refine ⟨_, _, rfl, _, rest, rfl, hflag.1, ?_⟩
    rw [ofArity_eq_ok_iff.mpr ⟨(UInt8.toNat_ofNat_of_lt' harity).symm, hflag.2.symm⟩]
    exact pure_eq_ok_iff.mpr ⟨rfl, rfl⟩

theorem function_reads : Reads function
    (fun f => f.name.utf8ByteSize ≤ maxNameLength ∧ f.code.size ≤ maxSlots) functionBytes := by
  intro input f rest
  rw [function, name_reads.bind_iff]
  simp only [signature_reads.bind_iff, (number_reads 4).bind_iff, guard_eq_ok_iff, Nat.not_lt,
    (times_reads word_reads _).bind_iff, pure_eq_ok_iff]
  constructor
  · rintro ⟨name, _, ⟨hname, rfl⟩, signature, _, ⟨-, rfl⟩, slots, _, ⟨-, rfl⟩, hslots, words, mid,
      ⟨⟨rfl, -⟩, rfl⟩, rfl, rfl⟩
    refine ⟨⟨hname, hslots⟩, ?_⟩
    simp only [functionBytes, List.append_assoc]
    rfl
  · rintro ⟨⟨hname, hslots⟩, rfl⟩
    have hlt : f.code.size < bound 4 := Nat.lt_of_le_of_lt hslots (by decide)
    simp only [functionBytes, List.append_assoc]
    exact ⟨f.name, _, ⟨hname, rfl⟩, f.signature, _, ⟨trivial, rfl⟩, f.code.size, _, ⟨hlt, rfl⟩,
      hslots, f.code.toList, rest, ⟨⟨Array.length_toList, fun _ _ => trivial⟩, rfl⟩, rfl, rfl⟩

theorem unlessEmpty_eq_iff {text : String} {name : Option String} :
    (if text.isEmpty then none else some text) = name ↔
      name.getD "" = text ∧ name ≠ some "" := by
  simp only [String.isEmpty_iff]
  by_cases h : text = ""
  · rw [if_pos h, h]
    constructor
    · rintro rfl
      exact ⟨rfl, nofun⟩
    · rintro ⟨hget, hne⟩
      cases name with
      | none => rfl
      | some other => exact absurd (congrArg some hget) hne
  · rw [if_neg h]
    constructor
    · rintro rfl
      exact ⟨rfl, mt Option.some.inj h⟩
    · rintro ⟨hget, -⟩
      cases name with
      | none => exact absurd hget.symm h
      | some other => exact congrArg some hget.symm

theorem declaration_reads : Reads declaration
    (fun i => (i.2.name.getD "").utf8ByteSize ≤ maxNameLength ∧ i.2.name ≠ some "")
    importBytes := by
  rintro input ⟨id, d⟩ rest
  rw [declaration, (number_reads 4).bind_iff]
  simp only [signature_reads.bind_iff, name_reads.bind_iff, pure_eq_ok_iff, importBytes,
    List.append_assoc]
  constructor
  · rintro ⟨n, _, ⟨hn, rfl⟩, signature, _, ⟨-, rfl⟩, text, mid, ⟨htext, rfl⟩, hi, rfl⟩
    obtain ⟨rfl, rfl⟩ := Prod.mk.inj hi
    obtain ⟨hget, hempty⟩ := unlessEmpty_eq_iff.mp rfl
    rw [hget, UInt32.toNat_ofNat_of_lt' hn]
    exact ⟨⟨htext, hempty⟩, rfl⟩
  · rintro ⟨⟨hname, hempty⟩, rfl⟩
    refine ⟨id.toNat, _, ⟨id.toNat_lt, rfl⟩, d.signature, _, ⟨trivial, rfl⟩, d.name.getD "", rest,
      ⟨hname, rfl⟩, ?_, rfl⟩
    rw [unlessEmpty_eq_iff.mpr ⟨rfl, hempty⟩, UInt32.ofNat_toNat]

/-- The layouts that are read are those that keep the limits, with the empty name for no name. -/
theorem layout_reads : Reads layout (fun l => l.Fits ∧ l.Canonical) Layout.bytes := by
  intro input l rest
  rw [layout, (bytes_reads 4).bind_iff]
  simp only [guard_eq_ok_iff, (number_reads 2).bind_iff, (times_reads function_reads _).bind_iff,
    (times_reads declaration_reads _).bind_iff, pure_eq_ok_iff, Nat.not_lt, Decidable.not_not,
    Layout.bytes, List.append_assoc, id]
  constructor
  · rintro ⟨_, _, ⟨-, rfl⟩, rfl, _, _, ⟨-, rfl⟩, hfs, functions, _, ⟨⟨rfl, hf⟩, rfl⟩, _, _,
      ⟨-, rfl⟩, his, imports, _, ⟨⟨rfl, hi⟩, rfl⟩, rfl, rfl⟩
    exact ⟨⟨⟨hfs, fun f h => (hf f h).1, fun f h => (hf f h).2, his, fun i h => (hi i h).1⟩,
      fun i h => (hi i h).2⟩, rfl⟩
  · rintro ⟨⟨hl, hempty⟩, rfl⟩
    have hfs : l.functions.length < bound 2 := Nat.lt_of_le_of_lt hl.functions_le (by decide)
    have his : l.imports.length < bound 2 := Nat.lt_of_le_of_lt hl.imports_le (by decide)
    exact ⟨magic, _, ⟨rfl, rfl⟩, rfl, l.functions.length, _, ⟨hfs, rfl⟩, hl.functions_le,
      l.functions, _, ⟨⟨rfl, fun f h => ⟨hl.functionName_le f h, hl.slots_le f h⟩⟩, rfl⟩,
      l.imports.length, _, ⟨his, rfl⟩, hl.imports_le,
      l.imports, rest, ⟨⟨rfl, fun i h => ⟨hl.importName_le i h, hempty i h⟩⟩, rfl⟩, rfl, rfl⟩

end Reader

end Ebpf.Container
