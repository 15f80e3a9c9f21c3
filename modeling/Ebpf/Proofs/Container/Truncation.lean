import Ebpf.Proofs.Container.Grammar

/-! # Containers that are cut off

A reader that succeeds needs every byte that it takes and none behind them: it takes the same bytes
whatever follows, and wherever they are cut off it finds that data is missing. This is kept when
readers follow each other, so it holds of a whole container.
-/

namespace Ebpf.Container

variable {α β : Type}

namespace Reader

/-- The reader comes to `a` with the bytes `taken` and leaves what follows. Where they are cut off,
it fails for want of data. -/
structure Takes (x : Reader α) (a : α) (taken : List UInt8) : Prop where
  leaves : ∀ rest, x.run (taken ++ rest) = .ok (a, rest)
  lacks : ∀ cut more, cut ++ more = taken → more ≠ [] → x.run cut = .error .endOfData

/-- Whatever the reader comes to, it comes to by bytes at the front of its input. -/
def Delimited (x : Reader α) : Prop :=
  ∀ input a rest, x.run input = .ok (a, rest) → ∃ taken, input = taken ++ rest ∧ x.Takes a taken

variable {x : Reader α} {f : α → Reader β} {a : α} {b : β} {taken behind : List UInt8}

theorem takes_pure (a : α) : Takes (pure a) a [] where
  leaves _ := rfl
  lacks _ _ h hmore := absurd (List.append_eq_nil_iff.mp h).2 hmore

theorem Takes.bind (hx : x.Takes a taken) (hf : (f a).Takes b behind) :
    (x >>= f).Takes b (taken ++ behind) where
  leaves rest := by
    rw [StateT.run_bind, List.append_assoc, hx.leaves]
    exact hf.leaves rest
  lacks cut more h hmore := by
    rw [StateT.run_bind]
    -- The cut is in the bytes of the second reader, at their front included, or in front of them.
    rcases List.append_eq_append_iff.mp h with ⟨missing, rfl, rfl⟩ | ⟨begun, rfl, rfl⟩
    · by_cases hnil : missing = []
      · subst hnil
        rw [List.append_nil] at hx
        have hcut := hx.leaves []
        rw [List.append_nil] at hcut
        rw [hcut]
        exact hf.lacks [] _ rfl hmore
      · rw [hx.lacks _ _ rfl hnil]
        rfl
    · rw [hx.leaves]
      exact hf.lacks _ _ rfl hmore

theorem delimited_pure (a : α) : Delimited (pure a) := by
  intro input b rest h
  obtain ⟨rfl, rfl⟩ := pure_eq_ok_iff.mp h
  exact ⟨[], rfl, takes_pure a⟩

theorem delimited_throw (e : Error) : Delimited (throw e : Reader α) :=
  fun _ _ _ h => (throw_eq_ok_iff.mp h).elim

theorem Delimited.bind (hx : Delimited x) (hf : ∀ a, Delimited (f a)) : Delimited (x >>= f) := by
  intro input b rest h
  obtain ⟨a, mid, ha, hb⟩ := bind_eq_ok_iff.mp h
  obtain ⟨taken, rfl, hx⟩ := hx _ _ _ ha
  obtain ⟨behind, rfl, hf⟩ := hf a _ _ _ hb
  exact ⟨taken ++ behind, (List.append_assoc ..).symm, hx.bind hf⟩

theorem Delimited.guard {c : Prop} [Decidable c] {e : Error} {k : Unit → Reader α}
    (hk : Delimited (k ())) : Delimited (if c then throw e >>= k else k ()) := by
  split
  · exact (delimited_throw e).bind fun _ => hk
  · exact hk

theorem delimited_bytes (n : Nat) : Delimited (bytes n) := by
  intro input taken rest h
  obtain ⟨hlen, hinput⟩ := (bytes_reads n _ _ _).mp h
  refine ⟨taken, hinput, fun rest => (bytes_reads n _ _ _).mpr ⟨hlen, rfl⟩, ?_⟩
  rintro cut more rfl hmore
  have hshort : splitBytes n cut = none := by
    apply Option.eq_none_iff_forall_ne_some.mpr
    rintro ⟨front, rest⟩ hsplit
    obtain ⟨hn, rfl⟩ := splitBytes_eq_some_iff.mp hsplit
    have hpos := List.length_pos_iff.mpr hmore
    simp only [List.length_append] at hlen
    omega
  rw [StateT.run, bytes, hshort]

theorem delimited_number (n : Nat) : Delimited (number n) :=
  (delimited_bytes n).bind fun _ => delimited_pure _

theorem delimited_byte : Delimited byte := (delimited_number 1).bind fun _ => delimited_pure _

theorem delimited_word : Delimited word := (delimited_number 8).bind fun _ => delimited_pure _

theorem Delimited.times (hx : Delimited x) (n : Nat) : Delimited (times n x) := by
  induction n with
  | zero => exact delimited_pure []
  | succ n ih => exact hx.bind fun _ => ih.bind fun _ => delimited_pure _

theorem delimited_name : Delimited name := by
  refine (delimited_number 2).bind fun _ => .guard ((delimited_bytes _).bind fun _ => ?_)
  split
  · exact delimited_pure _
  · exact delimited_throw _

theorem delimited_signature : Delimited signature := by
  refine delimited_byte.bind fun _ => delimited_byte.bind fun _ => .guard ?_
  split
  · exact delimited_pure _
  · exact delimited_throw _

theorem delimited_function : Delimited function := by
  refine delimited_name.bind fun _ => delimited_signature.bind fun _ => ?_
  refine (delimited_number 4).bind fun slots => .guard ?_
  exact (delimited_word.times slots).bind fun _ => delimited_pure _

theorem delimited_declaration : Delimited declaration :=
  (delimited_number 4).bind fun _ => delimited_signature.bind fun _ =>
    delimited_name.bind fun _ => delimited_pure _

theorem delimited_layout : Delimited layout := by
  refine (delimited_bytes 4).bind fun _ => .guard ?_
  refine (delimited_number 2).bind fun functions => .guard ?_
  refine (delimited_function.times functions).bind fun _ => ?_
  refine (delimited_number 2).bind fun imports => .guard ?_
  exact (delimited_declaration.times imports).bind fun _ => delimited_pure _

def program : Reader Program := do
  let layout ← layout
  match Program.build layout.functions layout.imports with
  | .ok program => return program
  | .error e => throw (.program e)

theorem delimited_program : Delimited program := by
  refine delimited_layout.bind fun _ => ?_
  split
  · exact delimited_pure _
  · exact delimited_throw _

end Reader

variable {c : List UInt8} {p : Program}

theorem read_eq_run (input : List UInt8) : read input = Reader.program.run input := by
  rw [read, Reader.program, StateT.run_bind]
  cases Reader.layout.run input with
  | error e => rfl
  | ok r =>
    obtain ⟨l, rest⟩ := r
    dsimp only [Bind.bind, Except.bind]
    cases Program.build l.functions l.imports <;> rfl

/-- A container that is read to its end is read in the same way in front of other bytes, and no
strict prefix of it is read: data is missing. -/
theorem read_delimited (h : read c = .ok (p, [])) :
    (∀ rest, read (c ++ rest) = .ok (p, rest)) ∧
      ∀ cut, cut <+: c → cut ≠ c → read cut = .error .endOfData := by
  simp only [read_eq_run] at h ⊢
  obtain ⟨taken, hc, htaken⟩ := Reader.delimited_program _ _ _ h
  obtain rfl : c = taken := hc.trans (List.append_nil taken)
  refine ⟨htaken.leaves, ?_⟩
  rintro cut ⟨more, hmore⟩ hne
  apply htaken.lacks cut more hmore
  rintro rfl
  exact hne ((List.append_nil cut).symm.trans hmore)

def named : Layout where
  functions := [⟨"main", .constant, #[0x95]⟩]
  imports := [(200, ⟨some "sum", .full⟩)]

theorem read_delimited_named : ∃ p, read named.bytes = .ok (p, []) ∧
    read (named.bytes ++ [1, 2]) = .ok (p, [1, 2]) ∧
    read named.bytes.dropLast = .error .endOfData := by
  obtain ⟨p, hp⟩ : ∃ p, Program.build named.functions named.imports = .ok p := ⟨_, rfl⟩
  have hread : read named.bytes = .ok (p, []) :=
    read_eq_ok_iff.mpr ⟨named, ⟨by constructor <;> decide, by decide⟩, by simp, hp⟩
  have hpos : 0 < named.bytes.length := List.length_pos_iff.mpr (List.cons_ne_nil _ _)
  obtain ⟨hrest, hcut⟩ := read_delimited hread
  refine ⟨p, hread, hrest [1, 2], hcut _ named.bytes.dropLast_prefix ?_⟩
  intro heq
  have hlength := congrArg List.length heq
  rw [List.length_dropLast] at hlength
  omega

end Ebpf.Container
