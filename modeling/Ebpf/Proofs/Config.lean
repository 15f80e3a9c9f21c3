import Mathlib.Data.List.Induction
import Ebpf.Config
import Ebpf.Proofs.HelperTable

/-! # Configured helper tables

A configuration describes a table if each of its bindings names a routine of the catalog and an
identifier other than 0. Of the bindings of an identifier the last one counts, and it comes before
the default. So bindings of different identifiers may change places. If some binding cannot be made,
the first of these is the one that is reported.
-/

namespace Ebpf

namespace Routine

variable (readings : Readings)

theorem nodup_names : ((catalog readings).map (·.name)).Nodup := by
  have hnames : (catalog readings).map (·.name) = ["get_prandom_u32", "ktime_get_ns",
    "get_smp_processor_id", "pack_args", "increment", "trace_value"] := rfl
  rw [hnames]
  decide

variable {readings} {name : String} {helper : Helper}

/-- No two routines of the catalog share a name, so it does not matter which is found first. -/
theorem named?_eq_some_iff : named? readings name = some helper ↔
    ∃ r ∈ catalog readings, r.name = name ∧ r.toHelper = helper := by
  rw [named?, Option.map_eq_some_iff]
  constructor
  · rintro ⟨r, hr, rfl⟩
    exact ⟨r, List.mem_of_find?_eq_some hr, by simpa using List.find?_some hr, rfl⟩
  · rintro ⟨r, hr, rfl, rfl⟩
    refine ⟨r, ?_, rfl⟩
    cases hfind : (catalog readings).find? (·.name == r.name) with
    | none => exact absurd (List.find?_eq_none.mp hfind r hr) (by simp)
    | some other =>
      have hname : other.name = r.name := by simpa using List.find?_some hfind
      have hmem := List.mem_of_find?_eq_some hfind
      rw [List.inj_on_of_nodup_map (nodup_names readings) hmem hr hname]

theorem named?_eq_none_iff :
    named? readings name = none ↔ ∀ r ∈ catalog readings, r.name ≠ name := by
  simp [named?]

theorem exists_named?_iff :
    (∃ helper, named? readings name = some helper) ↔ ∃ r ∈ catalog readings, r.name = name := by
  constructor
  · rintro ⟨helper, h⟩
    obtain ⟨r, hr, hname, -⟩ := named?_eq_some_iff.mp h
    exact ⟨r, hr, hname⟩
  · rintro ⟨r, hr, hname⟩
    exact ⟨r.toHelper, named?_eq_some_iff.mpr ⟨r, hr, hname, rfl⟩⟩

end Routine

namespace Binding

variable (readings : Readings)

/-- The binding can be made, in any table. -/
structure Good (b : Binding) : Prop where
  routine : ∃ r ∈ Routine.catalog readings, r.name = b.routine
  id_ne : b.id ≠ 0

instance (b : Binding) : Decidable (b.Good readings) :=
  decidable_of_iff ((∃ r ∈ Routine.catalog readings, r.name = b.routine) ∧ b.id ≠ 0)
    ⟨fun h => ⟨h.1, h.2⟩, fun h => ⟨h.routine, h.id_ne⟩⟩

/-- The binding cannot be made, in any table. That its routine is unknown comes before that its
identifier is reserved. -/
inductive Fails (b : Binding) : RegistryError → Prop
  | unknownRoutine (h : ∀ r ∈ Routine.catalog readings, r.name ≠ b.routine) :
      Fails b (.unknownRoutine b.routine)
  | reserved (h : ∃ r ∈ Routine.catalog readings, r.name = b.routine) (hid : b.id = 0) :
      Fails b (.reserved 0)

def edit (b : Binding) : HelperTable.Edit := .registerRoutine b.id b.routine

variable {readings} {b : Binding} {cause : RegistryError}

theorem good_or_fails (b : Binding) : b.Good readings ∨ ∃ cause, b.Fails readings cause := by
  by_cases hr : ∃ r ∈ Routine.catalog readings, r.name = b.routine
  · by_cases hid : b.id = 0
    · exact Or.inr ⟨_, .reserved hr hid⟩
    · exact Or.inl ⟨hr, hid⟩
  · exact Or.inr ⟨_, .unknownRoutine fun r hmem hname => hr ⟨r, hmem, hname⟩⟩

theorem Good.error? (h : b.Good readings) : b.edit.error? readings = none := by
  obtain ⟨helper, hhelper⟩ := Routine.exists_named?_iff.mpr h.routine
  rw [edit, HelperTable.Edit.error?_registerRoutine hhelper]
  exact if_neg h.id_ne

theorem Fails.error? (h : b.Fails readings cause) : b.edit.error? readings = some cause := by
  cases h with
  | unknownRoutine h => exact if_pos (Routine.named?_eq_none_iff.mpr h)
  | reserved h hid =>
    obtain ⟨helper, hhelper⟩ := Routine.exists_named?_iff.mpr h
    rw [edit, HelperTable.Edit.error?_registerRoutine hhelper, hid]
    rfl

theorem Good.binding? (h : b.Good readings) (id : UInt32) : b.edit.binding? readings id =
    if b.id = id then some (Routine.named? readings b.routine) else none := by
  unfold HelperTable.Edit.binding?
  rw [h.error?]
  simp only [edit, Option.isSome_none, Bool.false_eq_true, if_false, eq_comm]

end Binding

namespace Config

variable (readings : Readings)

/-- The configuration binds `id` to this helper: by the last of its bindings of `id`, or by default
if it has none. -/
inductive Binds (c : Config) (id : UInt32) : Helper → Prop
  | binding {b : Binding} {r : Routine} (h : (c.bindings.filter (·.id = id)).getLast? = some b)
      (hr : r ∈ Routine.catalog readings) (hname : r.name = b.routine) : Binds c id r.toHelper
  | default {r : Routine} (h : ∀ b ∈ c.bindings, b.id ≠ id) (hdefaults : c.defaults = true)
      (hr : r ∈ Routine.catalog readings) (hid : r.wellKnown = some id) : Binds c id r.toHelper

/-- The error is the one of the first binding that cannot be made. -/
def FirstFailing (bindings : List Binding) (e : BindingError) : Prop :=
  ∃ before b after, bindings = before ++ b :: after ∧ (∀ d ∈ before, d.Good readings) ∧
    b.Fails readings e.cause ∧ e.id = b.id

variable {readings} {c : Config} {t : HelperTable} {bindings : List Binding} {b : Binding}
  {e : BindingError} {id : UInt32} {helper : Helper}

/-! ### Making the bindings -/

theorem bindAll_cons (t : HelperTable) (b : Binding) (bindings : List Binding) :
    bindAll readings t (b :: bindings) = match b.edit.error? readings with
      | none => bindAll readings (t.after readings b.edit) bindings
      | some cause => .error ⟨b.id, cause⟩ := by
  have hregister : t.registerRoutine readings b.id b.routine = t.edit readings b.edit := rfl
  rw [bindAll, List.foldlM_cons, hregister]
  cases he : b.edit.error? readings with
  | none => rw [HelperTable.edit_eq_ok he]; rfl
  | some cause => rw [HelperTable.edit_eq_error he]; rfl

theorem bindAll_of_good (h : ∀ b ∈ bindings, b.Good readings) : bindAll readings t bindings =
    .ok (t.afterAll readings (bindings.map Binding.edit)) := by
  induction bindings generalizing t with
  | nil => rfl
  | cons b bindings ih =>
    obtain ⟨hb, h⟩ := List.forall_mem_cons.mp h
    rw [bindAll_cons, hb.error?]
    exact ih h

theorem bindAll_of_firstFailing (h : FirstFailing readings bindings e) :
    bindAll readings t bindings = .error e := by
  obtain ⟨before, b, after, rfl, hbefore, hb, hid⟩ := h
  induction before generalizing t with
  | nil =>
    rw [List.nil_append, bindAll_cons, hb.error?, ← hid]
  | cons d before ih =>
    obtain ⟨hd, hbefore⟩ := List.forall_mem_cons.mp hbefore
    rw [List.cons_append, bindAll_cons, hd.error?]
    exact ih hbefore

theorem good_or_firstFailing (bindings : List Binding) :
    (∀ b ∈ bindings, b.Good readings) ∨ ∃ e, FirstFailing readings bindings e := by
  induction bindings with
  | nil => exact Or.inl nofun
  | cons b bindings ih =>
    rcases b.good_or_fails with hb | ⟨cause, hb⟩
    · rcases ih with h | ⟨e, before, d, after, rfl, hbefore, hd⟩
      · exact Or.inl (List.forall_mem_cons.mpr ⟨hb, h⟩)
      · exact Or.inr ⟨e, b :: before, d, after, rfl, List.forall_mem_cons.mpr ⟨hb, hbefore⟩, hd⟩
    · exact Or.inr ⟨⟨b.id, cause⟩, [], b, bindings, rfl, nofun, hb, rfl⟩

/-! ### The table that is made -/

theorem get?_afterAll_edits (h : ∀ b ∈ bindings, b.Good readings) :
    (t.afterAll readings (bindings.map Binding.edit)).get? id =
      ((bindings.filter (·.id = id)).getLast?.map fun b =>
        Routine.named? readings b.routine).getD (t.get? id) := by
  induction bindings using List.reverseRecOn with
  | nil => rfl
  | append_singleton bindings b ih =>
    obtain ⟨h, hb⟩ := List.forall_mem_append.mp h
    have hb := hb b (List.mem_singleton_self b)
    rw [List.map_append, HelperTable.afterAll_append]
    change (HelperTable.after readings _ b.edit).get? id = _
    rw [HelperTable.get?_after, hb.binding?, ih h, List.filter_append]
    by_cases hid : b.id = id <;> simp [hid]

theorem get?_defaults : (if c.defaults then HelperTable.withDefaults readings else .empty).get? id =
    some helper ↔ c.defaults = true ∧
      ∃ r ∈ Routine.catalog readings, r.wellKnown = some id ∧ r.toHelper = helper := by
  cases c.defaults with
  | false => simp
  | true =>
    rw [if_pos rfl, HelperTable.withDefaults, HelperTable.get?_bootstrap, IdMap.get?_empty,
      Option.or_none, Routine.wellKnown?_eq_some_iff]
    simp

theorem binds_iff : c.Binds readings id helper ↔
    (∃ b, (c.bindings.filter (·.id = id)).getLast? = some b ∧
      Routine.named? readings b.routine = some helper) ∨
    (c.bindings.filter (·.id = id)).getLast? = none ∧ c.defaults = true ∧
      ∃ r ∈ Routine.catalog readings, r.wellKnown = some id ∧ r.toHelper = helper := by
  have hnone : (c.bindings.filter (·.id = id)).getLast? = none ↔ ∀ b ∈ c.bindings, b.id ≠ id := by
    simp
  rw [hnone]
  constructor
  · rintro (⟨h, hr, hname⟩ | ⟨h, hdefaults, hr, hid⟩)
    · exact Or.inl ⟨_, h, Routine.named?_eq_some_iff.mpr ⟨_, hr, hname, rfl⟩⟩
    · exact Or.inr ⟨h, hdefaults, _, hr, hid, rfl⟩
  · rintro (⟨b, h, hnamed⟩ | ⟨h, hdefaults, r, hr, hid, rfl⟩)
    · obtain ⟨r, hr, hname, rfl⟩ := Routine.named?_eq_some_iff.mp hnamed
      exact .binding h hr hname
    · exact .default h hdefaults hr hid

theorem helperTable_of_good (h : ∀ b ∈ c.bindings, b.Good readings) :
    ∃ t, c.helperTable readings = .ok t ∧
      ∀ id helper, t.get? id = some helper ↔ c.Binds readings id helper := by
  refine ⟨_, bindAll_of_good h, fun id helper => ?_⟩
  rw [get?_afterAll_edits h, binds_iff]
  cases hlast : (c.bindings.filter (·.id = id)).getLast? with
  | none => simp [get?_defaults]
  | some b => simp

theorem helperTable_of_firstFailing (h : FirstFailing readings c.bindings e) :
    c.helperTable readings = .error e :=
  bindAll_of_firstFailing h

theorem helperTable_eq_ok_iff : c.helperTable readings = .ok t ↔
    (∀ b ∈ c.bindings, b.Good readings) ∧
      ∀ id helper, t.get? id = some helper ↔ c.Binds readings id helper := by
  constructor
  · intro ht
    rcases good_or_firstFailing c.bindings with h | ⟨e, h⟩
    · obtain ⟨u, hu, hbinds⟩ := helperTable_of_good h
      cases ht.symm.trans hu
      exact ⟨h, hbinds⟩
    · cases ht.symm.trans (helperTable_of_firstFailing h)
  · rintro ⟨h, ht⟩
    obtain ⟨u, hu, hbinds⟩ := helperTable_of_good h
    have heq : t = u := IdMap.ext_get? fun id => Option.ext fun helper => by
      rw [ht, hbinds]
    rw [hu, heq]

theorem helperTable_eq_error_iff :
    c.helperTable readings = .error e ↔ FirstFailing readings c.bindings e := by
  constructor
  · intro he
    rcases good_or_firstFailing c.bindings with h | ⟨other, h⟩
    · obtain ⟨t, ht, -⟩ := helperTable_of_good h
      cases he.symm.trans ht
    · cases he.symm.trans (helperTable_of_firstFailing h)
      exact h
  · exact helperTable_of_firstFailing

/-! ### The order of the bindings -/

/-- For each identifier the bindings are the same ones in the same order. -/
def SameByIdentifier (bindings bindings' : List Binding) : Prop :=
  ∀ id, bindings.filter (·.id = id) = bindings'.filter (·.id = id)

theorem SameByIdentifier.mem_iff {bindings' : List Binding}
    (h : SameByIdentifier bindings bindings') (b : Binding) : b ∈ bindings ↔ b ∈ bindings' := by
  have hmem (l : List Binding) : b ∈ l ↔ b ∈ l.filter (·.id = b.id) := by simp
  rw [hmem, h b.id, ← hmem]

theorem sameByIdentifier_swap {d : Binding} (before after : List Binding) (h : b.id ≠ d.id) :
    SameByIdentifier (before ++ b :: d :: after) (before ++ d :: b :: after) := by
  intro id
  simp only [List.filter_append, List.filter_cons, decide_eq_true_eq]
  by_cases hb : b.id = id
  · have hd : ¬ d.id = id := fun hd => h (hb.trans hd.symm)
    simp only [hb, hd, if_true, if_false]
  · simp only [hb, if_false]

theorem SameByIdentifier.helperTable {c' : Config} (hdefaults : c.defaults = c'.defaults)
    (h : SameByIdentifier c.bindings c'.bindings) :
    c.helperTable readings = .ok t ↔ c'.helperTable readings = .ok t := by
  have hbinds (id : UInt32) (helper : Helper) :
      c.Binds readings id helper ↔ c'.Binds readings id helper := by
    rw [binds_iff, binds_iff, h id, hdefaults]
  simp only [helperTable_eq_ok_iff, hbinds, h.mem_iff]

/-- A table that a configuration describes binds what its last bindings and, where it has none, the
defaults say, and nothing else. There is such a table exactly if each binding can be made, and else
the first binding that cannot be made is reported. The order of bindings makes no difference to the
table but among bindings of one identifier. -/
theorem helperTable_exact (readings : Readings) (c : Config) :
    ((∃ t, c.helperTable readings = .ok t) ↔ ∀ b ∈ c.bindings, b.Good readings) ∧
    (∀ t, c.helperTable readings = .ok t ↔ (∀ b ∈ c.bindings, b.Good readings) ∧
      ∀ id helper, t.get? id = some helper ↔ c.Binds readings id helper) ∧
    (∀ e, c.helperTable readings = .error e ↔ FirstFailing readings c.bindings e) ∧
    ∀ c' : Config, c.defaults = c'.defaults → SameByIdentifier c.bindings c'.bindings →
      ∀ t, c.helperTable readings = .ok t ↔ c'.helperTable readings = .ok t := by
  refine ⟨⟨?_, ?_⟩, fun t => helperTable_eq_ok_iff, fun e => helperTable_eq_error_iff, ?_⟩
  · rintro ⟨t, ht⟩
    exact (helperTable_eq_ok_iff.mp ht).1
  · intro h
    obtain ⟨t, ht, -⟩ := helperTable_of_good h
    exact ⟨t, ht⟩
  · intro c' hdefaults h t
    exact h.helperTable hdefaults

/-- Binds the well-known identifier 7 twice, and 200 in between. -/
def rebinding : Config where
  bindings := [⟨7, "increment"⟩, ⟨200, "pack_args"⟩, ⟨7, "trace_value"⟩]

def rearranged : Config where
  bindings := [⟨200, "pack_args"⟩, ⟨7, "increment"⟩, ⟨7, "trace_value"⟩]

theorem helperTable_exact_rebinding : ∃ t,
    rebinding.helperTable ⟨0, 0⟩ = .ok t ∧ rearranged.helperTable ⟨0, 0⟩ = .ok t ∧
    t.get? 7 = Routine.named? ⟨0, 0⟩ "trace_value" ∧
    t.get? 5 = Routine.named? ⟨0, 0⟩ "ktime_get_ns" ∧ t.get? 6 = none := by
  obtain ⟨hexists, hok, -, horder⟩ := helperTable_exact ⟨0, 0⟩ rebinding
  obtain ⟨t, ht⟩ := hexists.mpr (by decide)
  obtain ⟨-, hget⟩ := (hok t).mp ht
  have hsame : SameByIdentifier rebinding.bindings rearranged.bindings :=
    sameByIdentifier_swap [] [⟨7, "trace_value"⟩] (by decide)
  refine ⟨t, ht, (horder rearranged rfl hsame t).mp ht, ?_, ?_, ?_⟩
  · exact (hget 7 _).mpr (binds_iff.mpr (Or.inl ⟨⟨7, "trace_value"⟩, rfl, rfl⟩))
  · have hdefault := (Routine.wellKnown?_eq_some_iff ⟨0, 0⟩).mp
      (show Routine.wellKnown? ⟨0, 0⟩ 5 = some _ from rfl)
    exact (hget 5 _).mpr (binds_iff.mpr (Or.inr ⟨rfl, rfl, hdefault⟩))
  · rw [Option.eq_none_iff_forall_ne_some]
    intro helper h
    rcases binds_iff.mp ((hget 6 helper).mp h) with ⟨b, hb, -⟩ | ⟨-, -, r, hr, hid, -⟩
    · cases hb
    · have hnone : Routine.wellKnown? ⟨0, 0⟩ 6 = none := rfl
      exact (Routine.wellKnown?_eq_none_iff ⟨0, 0⟩).mp hnone r hr hid

end Config

end Ebpf
