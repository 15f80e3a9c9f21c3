import Ebpf.Proofs.Locality
import Ebpf.Proofs.Outline
import Ebpf.Proofs.Program

/-! # The order of declarations

A program cannot be put together because of the first function that is too long, or else because of
the first declaration that contradicts an earlier one. Else it keeps the first declaration of each
identifier. So the order of the declarations decides under which names they are kept and which
conflict is reported, and nothing else.
-/

namespace Ebpf.Program

open IdMap

/-- No function in front of `f` is too long, and `f` is. -/
def FirstTooLong (functions : List Function) (f : Function) : Prop :=
  ∃ before after, functions = before ++ f :: after ∧
    (∀ g ∈ before, g.code.size ≤ maxSlots) ∧ maxSlots < f.code.size

/-- The declarations in front of `i` do not contradict each other, and `i` contradicts one of
them. -/
def FirstConflict (declarations : List (UInt32 × Declaration)) (i : UInt32 × Declaration) : Prop :=
  ∃ before after, declarations = before ++ i :: after ∧ Compatible before ∧
    ∃ d ∈ before, d.1 = i.1 ∧ d.2.signature ≠ i.2.signature

/-- The entries list each declared identifier once, in ascending order, with its first
declaration. -/
structure Lists (entries declarations : List (UInt32 × Declaration)) : Prop where
  ascending : (entries.map Prod.fst).Pairwise (· < ·)
  mem_ids : ∀ id, id ∈ entries.map Prod.fst ↔ id ∈ declarations.map Prod.fst
  first : ∀ i ∈ entries, ∃ before after, declarations = before ++ i :: after ∧
    ∀ d ∈ before, d.1 ≠ i.1

/-- What becomes of functions and declarations. -/
inductive Builds (functions : List Function) (declarations : List (UInt32 × Declaration)) :
    Except ProgramError Program → Prop
  | codeTooLarge {f : Function} (h : FirstTooLong functions f) :
      Builds functions declarations (.error (.codeTooLarge f.name f.code.size))
  | conflictingImport {i : UInt32 × Declaration} (hsize : ∀ f ∈ functions, f.code.size ≤ maxSlots)
      (h : FirstConflict declarations i) :
      Builds functions declarations (.error (.conflictingImport i.1))
  | built {p : Program} (hsize : ∀ f ∈ functions, f.code.size ≤ maxSlots)
      (hc : Compatible declarations) (hf : p.functions = functions)
      (hi : Lists p.imports.toList declarations) : Builds functions declarations (.ok p)

/-- Two outcomes of one kind. Conflicts may be about different identifiers, and programs may differ
in the names of their declarations. -/
inductive Alike : Except ProgramError Program → Except ProgramError Program → Prop
  | codeTooLarge (name : String) (slots : Nat) :
      Alike (.error (.codeTooLarge name slots)) (.error (.codeTooLarge name slots))
  | conflictingImport (id id' : UInt32) :
      Alike (.error (.conflictingImport id)) (.error (.conflictingImport id'))
  | built {p q : Program} (hf : p.functions = q.functions)
      (hids : p.imports.toList.map Prod.fst = q.imports.toList.map Prod.fst)
      (hdeclared : ∀ id, p.declaredSignature id = q.declaredSignature id) : Alike (.ok p) (.ok q)

variable {functions : List Function} {declarations declarations' : List (UInt32 × Declaration)}
  {imports : IdMap Declaration} {f g : Function} {i j : UInt32 × Declaration} {e : ProgramError}
  {p q : Program} {result result' : Except ProgramError Program}

/-! ### The first failure -/

theorem firstTooLong_iff : FirstTooLong functions f ↔
    functions.find? (fun f => decide (maxSlots < f.code.size)) = some f := by
  rw [List.find?_eq_some_iff_append, decide_eq_true_eq, FirstTooLong]
  constructor
  · rintro ⟨before, after, rfl, hbefore, hf⟩
    exact ⟨hf, before, after, rfl, fun g hg => by simpa using hbefore g hg⟩
  · rintro ⟨hf, before, after, rfl, hbefore⟩
    exact ⟨before, after, rfl, fun g hg => by simpa using hbefore g hg, hf⟩

theorem FirstTooLong.unique (hf : FirstTooLong functions f) (hg : FirstTooLong functions g) :
    f = g :=
  Option.some.inj ((firstTooLong_iff.mp hf).symm.trans (firstTooLong_iff.mp hg))

theorem FirstTooLong.not_size_le (h : FirstTooLong functions f) :
    ¬ ∀ g ∈ functions, g.code.size ≤ maxSlots := by
  obtain ⟨before, after, rfl, -, hf⟩ := h
  exact fun hall => Nat.not_le.mpr hf (hall f List.mem_append_cons_self)

theorem exists_firstTooLong (h : f ∈ functions) (hf : maxSlots < f.code.size) :
    ∃ g, FirstTooLong functions g := by
  cases hfind : functions.find? (fun f => decide (maxSlots < f.code.size)) with
  | some g => exact ⟨g, firstTooLong_iff.mpr hfind⟩
  | none => exact absurd (decide_eq_true hf) (List.find?_eq_none.mp hfind f h)

theorem FirstConflict.not_compatible (h : FirstConflict declarations i) :
    ¬ Compatible declarations := by
  obtain ⟨before, after, rfl, -, d, hd, hid, hne⟩ := h
  exact fun hc => hne (hc d (List.mem_append_left _ hd) i List.mem_append_cons_self hid)

theorem declare_eq_error_iff : declare imports i = .error e ↔
    e = .conflictingImport i.1 ∧
      ∃ d, imports.get? i.1 = some d ∧ d.signature ≠ i.2.signature := by
  unfold declare
  cases hget : imports.get? i.1 with
  | none =>
    constructor
    · intro h; cases h
    · rintro ⟨-, d, hd, -⟩; cases hd
  | some first =>
    dsimp only
    split
    · rename_i heq
      constructor
      · intro h; cases h
      · rintro ⟨-, d, hd, hne⟩
        cases hd
        exact absurd heq hne
    · rename_i hne
      constructor
      · rintro ⟨⟩
        exact ⟨rfl, first, rfl, hne⟩
      · rintro ⟨rfl, -⟩
        rfl

theorem exists_firstConflict_of_foldlM (h : declarations.foldlM declare .empty = .error e) :
    ∃ i, FirstConflict declarations i ∧ e = .conflictingImport i.1 := by
  obtain ⟨before, i, after, imports, rfl, hbefore, hi⟩ := foldlM_eq_error_iff.mp h
  obtain ⟨hc, hget⟩ := foldlM_declare_empty_eq_ok_iff.mp hbefore
  obtain ⟨rfl, d, hd, hne⟩ := declare_eq_error_iff.mp hi
  rw [hget] at hd
  exact ⟨i, ⟨before, after, rfl, hc, (i.1, d), mem_of_first? hd, rfl, hne⟩, rfl⟩

theorem exists_foldlM_declare (h : Compatible declarations) :
    ∃ imports, declarations.foldlM declare .empty = .ok imports := by
  cases hfold : declarations.foldlM declare .empty with
  | ok imports => exact ⟨imports, rfl⟩
  | error e =>
    obtain ⟨i, hi, -⟩ := exists_firstConflict_of_foldlM hfold
    exact absurd h hi.not_compatible

/-- Declarations are only compared with the first of their identifier. As long as there is no
conflict, this is any earlier one. -/
theorem foldlM_of_firstConflict (h : FirstConflict declarations i) :
    declarations.foldlM declare .empty = .error (.conflictingImport i.1) := by
  obtain ⟨before, after, rfl, hc, d, hd, hid, hne⟩ := h
  obtain ⟨imports, himports⟩ := exists_foldlM_declare hc
  obtain ⟨-, hget⟩ := foldlM_declare_empty_eq_ok_iff.mp himports
  obtain ⟨first, hfirst⟩ := exists_first? hd
  have hsame : first.signature = d.2.signature := hc _ (mem_of_first? hfirst) d hd rfl
  refine foldlM_eq_error_iff.mpr ⟨before, i, after, imports, rfl, himports, ?_⟩
  refine declare_eq_error_iff.mpr ⟨rfl, first, ?_, hsame ▸ hne⟩
  rw [hget, ← hid, hfirst]

theorem FirstConflict.id_unique (hi : FirstConflict declarations i)
    (hj : FirstConflict declarations j) : i.1 = j.1 := by
  have h := (foldlM_of_firstConflict hi).symm.trans (foldlM_of_firstConflict hj)
  exact ProgramError.conflictingImport.inj (Except.error.inj h)

theorem exists_firstConflict (h : ¬ Compatible declarations) :
    ∃ i, FirstConflict declarations i := by
  cases hfold : declarations.foldlM declare .empty with
  | ok imports => exact absurd (foldlM_declare_empty_eq_ok_iff.mp hfold).1 h
  | error e =>
    obtain ⟨i, hi, -⟩ := exists_firstConflict_of_foldlM hfold
    exact ⟨i, hi⟩

/-! ### The outcome -/

theorem lists_iff : Lists imports.toList declarations ↔
    ∀ id, imports.get? id = first? declarations id := by
  constructor
  · intro h id
    cases hfirst : first? declarations id with
    | none =>
      have hid : id ∉ imports.toList.map Prod.fst := by
        rw [h.mem_ids, ← isSome_first?_iff, hfirst]
        exact Bool.false_ne_true
      rwa [mem_map_fst_iff, Bool.not_eq_true, Option.isSome_eq_false_iff,
        Option.isNone_iff_eq_none] at hid
    | some d =>
      have hid : id ∈ imports.toList.map Prod.fst := by
        rw [h.mem_ids, ← isSome_first?_iff, hfirst]
        rfl
      obtain ⟨i, hi, rfl⟩ := List.mem_map.mp hid
      have hi' := first?_eq_some_iff_append.mpr (h.first i hi)
      rw [get?_eq_some_iff.mpr hi, ← hfirst, hi']
  · intro h
    refine ⟨imports.ascending, fun id => ?_, fun i hi => ?_⟩
    · rw [mem_map_fst_iff, h, isSome_first?_iff]
    · exact first?_eq_some_iff_append.mp ((h i.1).symm.trans (get?_eq_some_iff.mpr hi))

theorem builds_build (functions : List Function) (declarations : List (UInt32 × Declaration)) :
    Builds functions declarations (build functions declarations) := by
  unfold build
  split
  · rename_i f hf
    exact .codeTooLarge (firstTooLong_iff.mpr hf)
  · rename_i hnone
    have hsize : ∀ f ∈ functions, f.code.size ≤ maxSlots :=
      fun f hf => by simpa using List.find?_eq_none.mp hnone f hf
    split
    · rename_i imports himports
      obtain ⟨hc, hget⟩ := foldlM_declare_empty_eq_ok_iff.mp himports
      exact .built hsize hc rfl (lists_iff.mpr hget)
    · rename_i e he
      obtain ⟨i, hi, rfl⟩ := exists_firstConflict_of_foldlM he
      exact .conflictingImport hsize hi

theorem Builds.unique (h : Builds functions declarations result)
    (h' : Builds functions declarations result') : result = result' := by
  cases h with
  | codeTooLarge hf =>
    cases h' with
    | codeTooLarge hg => rw [hf.unique hg]
    | conflictingImport hsize _ | built hsize _ _ _ => exact absurd hsize hf.not_size_le
  | conflictingImport hsize hi =>
    cases h' with
    | codeTooLarge hg => exact absurd hsize hg.not_size_le
    | conflictingImport _ hj => rw [hi.id_unique hj]
    | built _ hc _ _ => exact absurd hc hi.not_compatible
  | @built p hsize hc hf hp =>
    cases h' with
    | codeTooLarge hg => exact absurd hsize hg.not_size_le
    | conflictingImport _ hj => exact absurd hc hj.not_compatible
    | @built q _ _ hg hq =>
      have hp := build_eq_ok_iff.mpr ⟨hsize, hc, hf, lists_iff.mp hp⟩
      have hq := build_eq_ok_iff.mpr ⟨hsize, hc, hg, lists_iff.mp hq⟩
      exact hp.symm.trans hq

theorem build_eq_iff : build functions declarations = result ↔
    Builds functions declarations result := by
  constructor
  · rintro rfl
    exact builds_build functions declarations
  · exact (builds_build functions declarations).unique

theorem exists_codeTooLarge_iff :
    (∃ name slots, build functions declarations = .error (.codeTooLarge name slots)) ↔
      ∃ f ∈ functions, maxSlots < f.code.size := by
  constructor
  · rintro ⟨name, slots, h⟩
    cases build_eq_iff.mp h with
    | @codeTooLarge f hfirst =>
      obtain ⟨before, after, rfl, -, hf⟩ := hfirst
      exact ⟨f, List.mem_append_cons_self, hf⟩
  · rintro ⟨f, hmem, hf⟩
    obtain ⟨g, hg⟩ := exists_firstTooLong hmem hf
    exact ⟨g.name, g.code.size, build_eq_iff.mpr (.codeTooLarge hg)⟩

theorem exists_conflictingImport_iff :
    (∃ id, build functions declarations = .error (.conflictingImport id)) ↔
      (∀ f ∈ functions, f.code.size ≤ maxSlots) ∧ ¬ Compatible declarations := by
  constructor
  · rintro ⟨id, h⟩
    cases build_eq_iff.mp h with
    | conflictingImport hsize hi => exact ⟨hsize, hi.not_compatible⟩
  · rintro ⟨hsize, h⟩
    obtain ⟨i, hi⟩ := exists_firstConflict h
    exact ⟨i.1, build_eq_iff.mpr (.conflictingImport hsize hi)⟩

theorem exists_build (hsize : ∀ f ∈ functions, f.code.size ≤ maxSlots)
    (hc : Compatible declarations) : ∃ p, build functions declarations = .ok p := by
  cases h : build functions declarations with
  | ok p => exact ⟨p, rfl⟩
  | error e =>
    cases build_eq_iff.mp h with
    | codeTooLarge hf => exact absurd hsize hf.not_size_le
    | conflictingImport _ hi => exact absurd hc hi.not_compatible

/-! ### Permutations -/

theorem compatible_of_perm (h : declarations.Perm declarations') (hc : Compatible declarations) :
    Compatible declarations' :=
  fun i hi j hj => hc i (h.mem_iff.mpr hi) j (h.mem_iff.mpr hj)

theorem isSome_first?_of_perm (h : declarations.Perm declarations') (id : UInt32) :
    (first? declarations id).isSome = (first? declarations' id).isSome := by
  rw [Bool.eq_iff_iff, isSome_first?_iff, isSome_first?_iff]
  exact (h.map Prod.fst).mem_iff

/-- Which declaration is the first depends on the order, but its signature does not. -/
theorem map_first?_of_perm (h : declarations.Perm declarations') (hc : Compatible declarations)
    (id : UInt32) : (first? declarations id).map Declaration.signature
      = (first? declarations' id).map Declaration.signature := by
  have hsome := isSome_first?_of_perm h id
  cases hd : first? declarations id with
  | none =>
    rw [hd, eq_comm, Option.isSome_none, Option.isSome_eq_false_iff,
      Option.isNone_iff_eq_none] at hsome
    rw [hsome]
  | some d =>
    rw [hd, eq_comm, Option.isSome_some, Option.isSome_iff_exists] at hsome
    obtain ⟨d', hd'⟩ := hsome
    have hmem' := h.mem_iff.mpr (mem_of_first? hd')
    rw [hd', Option.map_some, Option.map_some, hc _ (mem_of_first? hd) _ hmem' rfl]

theorem declaredSignature_eq (p : Program) (id : UInt32) : p.declaredSignature id =
    ((p.imports.map Declaration.signature).get? id).or
      ((WellKnown.byId? id).map (·.signature)) := by
  rw [declaredSignature, get?_map]
  cases p.imports.get? id <;> rfl

theorem alike_of_perm (h : declarations.Perm declarations') :
    Alike (build functions declarations) (build functions declarations') := by
  by_cases hsize : ∀ f ∈ functions, f.code.size ≤ maxSlots
  · by_cases hc : Compatible declarations
    · obtain ⟨p, hp⟩ := exists_build hsize hc
      obtain ⟨q, hq⟩ := exists_build hsize (compatible_of_perm h hc)
      obtain ⟨-, -, hpf, hpi⟩ := build_eq_ok_iff.mp hp
      obtain ⟨-, -, hqf, hqi⟩ := build_eq_ok_iff.mp hq
      have himports :
          p.imports.map Declaration.signature = q.imports.map Declaration.signature := by
        apply ext_get?
        intro id
        rw [get?_map, get?_map, hpi, hqi, map_first?_of_perm h hc]
      rw [hp, hq]
      refine .built (hpf.trans hqf.symm) ?_ fun id => ?_
      · rw [← map_fst_map Declaration.signature, himports, map_fst_map]
      · rw [declaredSignature_eq, declaredSignature_eq, himports]
    · obtain ⟨id, hid⟩ := exists_conflictingImport_iff.mpr ⟨hsize, hc⟩
      have hc' : ¬ Compatible declarations' := mt (compatible_of_perm h.symm) hc
      obtain ⟨id', hid'⟩ := exists_conflictingImport_iff.mpr ⟨hsize, hc'⟩
      rw [hid, hid']
      exact .conflictingImport id id'
  · simp only [not_forall, Nat.not_le, exists_prop] at hsize
    obtain ⟨f, hmem, hf⟩ := hsize
    obtain ⟨g, hg⟩ := exists_firstTooLong hmem hf
    rw [build_eq_iff.mpr (.codeTooLarge hg), build_eq_iff.mpr (.codeTooLarge hg)]
    exact .codeTooLarge g.name g.code.size

theorem Alike.invoke_eq (h : Alike (.ok p) (.ok q)) (args : List UInt64) (table : HelperTable)
    (settings : Settings) : link p table = link q table ∧
      invoke p args table settings = invoke q args table settings := by
  cases h with
  | built hf hids hdeclared =>
    constructor
    · exact link_eq_of_outline ⟨by rw [hf], hdeclared⟩ (.refl table)
    · cases hhead : q.functions.head? with
      | none =>
        rw [invoke, invoke, Invocation.bind_new, Invocation.bind_new,
          Invocation.entryFor_of_head?_none hhead,
          Invocation.entryFor_of_head?_none (hf ▸ hhead)]
      | some entry =>
        exact invoke_eq_of_agreeOn (Invocation.entry_of_head? hhead)
          (Invocation.entry_of_head? (hf ▸ hhead)) rfl rfl
          ⟨fun id _ => hdeclared id, fun _ _ => rfl⟩ args settings

/-- The outcome of putting functions and declarations together, and that it stays the same under a
permutation of the declarations, but for the names and the conflict that is reported. Linking and
invoking make no difference between the programs. -/
theorem build_exact (functions : List Function) (declarations : List (UInt32 × Declaration)) :
    (∀ result, build functions declarations = result ↔ Builds functions declarations result) ∧
    ((∃ name slots, build functions declarations = .error (.codeTooLarge name slots)) ↔
      ∃ f ∈ functions, maxSlots < f.code.size) ∧
    ((∃ id, build functions declarations = .error (.conflictingImport id)) ↔
      (∀ f ∈ functions, f.code.size ≤ maxSlots) ∧ ∃ i ∈ declarations, ∃ j ∈ declarations,
        i.1 = j.1 ∧ i.2.signature ≠ j.2.signature) ∧
    (∀ declarations', declarations.Perm declarations' →
      Alike (build functions declarations) (build functions declarations')) ∧
    ∀ declarations' p q, declarations.Perm declarations' → build functions declarations = .ok p →
      build functions declarations' = .ok q → ∀ args table settings,
        link p table = link q table ∧
          invoke p args table settings = invoke q args table settings := by
  refine ⟨fun result => build_eq_iff, exists_codeTooLarge_iff, ?_, fun _ => alike_of_perm, ?_⟩
  · rw [exists_conflictingImport_iff]
    simp only [Compatible, not_forall, exists_prop]
  · intro declarations' p q h hp hq args table settings
    have halike := @alike_of_perm functions _ _ h
    rw [hp, hq] at halike
    exact halike.invoke_eq args table settings

def twiceNamed : List (UInt32 × Declaration) :=
  [(200, ⟨some "a", .full⟩), (7, ⟨none, .constant⟩), (200, ⟨some "b", .full⟩)]

theorem build_exact_twiceNamed : ∃ p q,
    build [] twiceNamed = .ok p ∧ build [] twiceNamed.reverse = .ok q ∧
      p.imports.toList = [(7, ⟨none, .constant⟩), (200, ⟨some "a", .full⟩)] ∧
      q.imports.toList = [(7, ⟨none, .constant⟩), (200, ⟨some "b", .full⟩)] ∧
      Alike (.ok p) (.ok q) := by
  obtain ⟨-, -, -, hperm, -⟩ := build_exact [] twiceNamed
  exact ⟨_, _, rfl, rfl, rfl, rfl, hperm _ (List.reverse_perm twiceNamed).symm⟩

end Ebpf.Program
