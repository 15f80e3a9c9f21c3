import Ebpf.Program
import Ebpf.Proofs.Failure
import Ebpf.Proofs.IdMap

/-! # Putting programs together

A list of functions and a list of declarations make a program exactly if no function is too long and
no identifier is declared under two signatures. The program then has these functions, and of each
identifier the first declaration.
-/

namespace Ebpf.Program

open IdMap

/-- No identifier is declared under two signatures. -/
def Compatible (declarations : List (UInt32 × Declaration)) : Prop :=
  ∀ i ∈ declarations, ∀ j ∈ declarations, i.1 = j.1 → i.2.signature = j.2.signature

variable {imports result : IdMap Declaration} {declarations : List (UInt32 × Declaration)}

def Agrees (imports : IdMap Declaration) (i : UInt32 × Declaration) : Prop :=
  ∀ d, imports.get? i.1 = some d → d.signature = i.2.signature

theorem declare_eq_ok_of_agrees {i : UInt32 × Declaration} (h : Agrees imports i) :
    ∃ next, declare imports i = .ok next ∧
      ∀ id, next.get? id = (imports.get? id).or (if i.1 = id then some i.2 else none) := by
  unfold declare
  cases hget : imports.get? i.1 with
  | none =>
    refine ⟨_, rfl, fun id => ?_⟩
    rw [get?_insert]
    by_cases hid : i.1 = id
    · rw [← hid, hget, if_pos rfl]
      rfl
    · rw [if_neg (Ne.symm hid), if_neg hid, Option.or_none]
  | some first =>
    refine ⟨imports, if_pos (h first hget), fun id => ?_⟩
    by_cases hid : i.1 = id
    · rw [← hid, hget]
      rfl
    · rw [if_neg hid, Option.or_none]

theorem agrees_of_declare_eq_ok {i : UInt32 × Declaration} (h : declare imports i = .ok result) :
    Agrees imports i := by
  intro d hd
  unfold declare at h
  rw [hd] at h
  by_cases hs : d.signature = i.2.signature
  · exact hs
  · cases h.symm.trans (if_neg hs)

theorem or_first?_cons (i : UInt32 × Declaration) (id : UInt32) :
    (imports.get? id).or (first? (i :: declarations) id)
      = ((imports.get? id).or (if i.1 = id then some i.2 else none)).or
          (first? declarations id) := by
  rw [first?_cons, Option.or_assoc]
  split <;> rfl

theorem agrees_iff {i : UInt32 × Declaration} : Agrees imports i ↔
    ∀ d, (imports.get? i.1).or (first? (i :: declarations) i.1) = some d →
      d.signature = i.2.signature := by
  rw [first?_cons, if_pos rfl]
  unfold Agrees
  cases imports.get? i.1 with
  | none => simp
  | some first => simp

/-- Declarations are taken in if each agrees with the first of its identifier, the ones that were
there before included. -/
theorem foldlM_declare_eq_ok_iff : declarations.foldlM declare imports = .ok result ↔
    (∀ i ∈ declarations, ∀ d, (imports.get? i.1).or (first? declarations i.1) = some d →
      d.signature = i.2.signature) ∧
    ∀ id, result.get? id = (imports.get? id).or (first? declarations id) := by
  induction declarations generalizing imports with
  | nil =>
    rw [List.foldlM_nil]
    constructor
    · rintro ⟨⟩
      exact ⟨nofun, fun id => (Option.or_none).symm⟩
    · rintro ⟨-, h⟩
      exact congrArg Except.ok (ext_get? fun id => ((h id).trans Option.or_none).symm)
  | cons i declarations ih =>
    rw [List.foldlM_cons, bind_eq_ok_iff, List.forall_mem_cons, ← agrees_iff]
    simp only [ih, or_first?_cons]
    constructor
    · rintro ⟨next, hnext, h⟩
      have hi := agrees_of_declare_eq_ok hnext
      obtain ⟨other, hother, hget⟩ := declare_eq_ok_of_agrees hi
      obtain rfl : other = next := Except.ok.inj (hother.symm.trans hnext)
      simp only [hget] at h
      exact ⟨⟨hi, h.1⟩, h.2⟩
    · rintro ⟨⟨hi, hrest⟩, hresult⟩
      obtain ⟨next, hnext, hget⟩ := declare_eq_ok_of_agrees hi
      refine ⟨next, hnext, ?_⟩
      simp only [hget]
      exact ⟨hrest, hresult⟩

theorem compatible_iff : Compatible declarations ↔
    ∀ i ∈ declarations, ∀ d, first? declarations i.1 = some d → d.signature = i.2.signature := by
  constructor
  · intro h i hi d hd
    exact h _ (mem_of_first? hd) i hi rfl
  · intro h i hi j hj hij
    obtain ⟨d, hd⟩ := exists_first? hi
    exact (h i hi d hd).symm.trans (h j hj d (hij ▸ hd))

theorem foldlM_declare_empty_eq_ok_iff : declarations.foldlM declare .empty = .ok result ↔
    Compatible declarations ∧ ∀ id, result.get? id = first? declarations id := by
  rw [foldlM_declare_eq_ok_iff, compatible_iff]
  rfl

theorem build_eq_ok_iff {functions : List Function} {p : Program} :
    build functions declarations = .ok p ↔
      (∀ f ∈ functions, f.code.size ≤ maxSlots) ∧ Compatible declarations ∧
      p.functions = functions ∧ ∀ id, p.imports.get? id = first? declarations id := by
  unfold build
  split
  · rename_i f hf
    have hlarge : maxSlots < f.code.size := by simpa using List.find?_some hf
    constructor
    · intro h; cases h
    · rintro ⟨h, -⟩
      exact absurd (h f (List.mem_of_find?_eq_some hf)) (Nat.not_le.mpr hlarge)
  · rename_i hnone
    have hsize : ∀ f ∈ functions, f.code.size ≤ maxSlots :=
      fun f hf => by simpa using List.find?_eq_none.mp hnone f hf
    constructor
    · intro h
      split at h
      · rename_i imports himports
        obtain ⟨hc, hget⟩ := foldlM_declare_empty_eq_ok_iff.mp himports
        cases h
        exact ⟨hsize, hc, rfl, hget⟩
      · cases h
    · rintro ⟨-, hc, rfl, hget⟩
      rw [foldlM_declare_empty_eq_ok_iff.mpr ⟨hc, hget⟩]

theorem mem_of_build_eq_ok {functions : List Function} {p : Program}
    (h : build functions declarations = .ok p) {i : UInt32 × Declaration}
    (hi : i ∈ p.imports.toList) : i ∈ declarations := by
  obtain ⟨-, -, -, himports⟩ := build_eq_ok_iff.mp h
  exact mem_of_first? ((himports i.1).symm.trans (get?_eq_some_iff.mpr hi))

end Ebpf.Program
