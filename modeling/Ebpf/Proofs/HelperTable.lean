import Ebpf.Proofs.IdMap
import Ebpf.Proofs.Machine.Dispatch

/-! # Histories of helper tables

A helper table is what a history of changes has made of it. Each identifier is bound as the last
change that concerns it has left it, and no change that succeeds binds identifier 0. So the linker
and the machine refuse each call of identifier 0.
-/

namespace Ebpf

namespace Routine

variable (readings : Readings)

def wellKnown? (id : UInt32) : Option Helper := IdMap.first? (wellKnownHelpers readings) id

theorem nodup_wellKnownHelpers : ((wellKnownHelpers readings).map Prod.fst).Nodup := by
  have hids : (wellKnownHelpers readings).map Prod.fst = [7, 5, 8] := rfl
  rw [hids]
  decide

theorem wellKnown?_eq_some_iff {id : UInt32} {helper : Helper} :
    wellKnown? readings id = some helper ↔
      ∃ r ∈ catalog readings, r.wellKnown = some id ∧ r.toHelper = helper := by
  rw [wellKnown?, IdMap.first?_eq_some_iff (nodup_wellKnownHelpers readings), wellKnownHelpers,
    List.mem_filterMap]
  constructor
  · rintro ⟨r, hr, hmap⟩
    obtain ⟨key, hkey, heq⟩ := Option.map_eq_some_iff.mp hmap
    cases heq
    exact ⟨r, hr, hkey, rfl⟩
  · rintro ⟨r, hr, hkey, rfl⟩
    exact ⟨r, hr, by rw [hkey]; rfl⟩

theorem wellKnown?_eq_none_iff {id : UInt32} :
    wellKnown? readings id = none ↔ ∀ r ∈ catalog readings, r.wellKnown ≠ some id := by
  rw [Option.eq_none_iff_forall_ne_some]
  constructor
  · intro h r hr hkey
    exact h r.toHelper ((wellKnown?_eq_some_iff readings).mpr ⟨r, hr, hkey, rfl⟩)
  · intro h helper hhelper
    obtain ⟨r, hr, hkey, -⟩ := (wellKnown?_eq_some_iff readings).mp hhelper
    exact h r hr hkey

end Routine

namespace HelperTable

variable (readings : Readings)

namespace Edit

/-- Why the change fails. This does not depend on the table. -/
def error? : Edit → Option RegistryError
  | bootstrap | remove _ => none
  | register id _ => if id = reservedId then some (.reserved id) else none
  | registerRoutine id routine =>
    if Routine.named? readings routine = none then some (.unknownRoutine routine)
    else if id = reservedId then some (.reserved id) else none

def id? : Edit → Option UInt32
  | bootstrap => none
  | register id _ | registerRoutine id _ | remove id => some id

/-- What the change leaves `id` bound to, if it concerns `id`. A change that fails concerns no
identifier. -/
def binding? (e : Edit) (id : UInt32) : Option (Option Helper) :=
  if (e.error? readings).isSome then none
  else match e with
    | bootstrap => (Routine.wellKnown? readings id).map some
    | register key helper => if id = key then some (some helper) else none
    | registerRoutine key routine =>
      if id = key then some (Routine.named? readings routine) else none
    | remove key => if id = key then some none else none

end Edit

def after (t : HelperTable) (e : Edit) : HelperTable := (t.edit readings e).2

def afterAll (t : HelperTable) (es : List Edit) : HelperTable := es.foldl (after readings) t

/-- What the last change that concerns `id` leaves it bound to. -/
def lastBinding? (history : List Edit) (id : UInt32) : Option Helper :=
  (history.reverse.findSome? (·.binding? readings id)).join

inductive Origin where
  | new
  | withDefaults

namespace Origin

def table : Origin → HelperTable
  | new => .empty
  | withDefaults => HelperTable.withDefaults readings

def edits : Origin → List Edit
  | new => []
  | withDefaults => [.bootstrap]

end Origin

/-- The table is what the history of changes has made of an empty one, and goes on in this way. -/
structure Follows (history : List Edit) (t : HelperTable) : Prop where
  get?_reservedId : t.get? reservedId = none
  get? : ∀ id, t.get? id = lastBinding? readings history id
  ok : ∀ e, e.error? readings = none → t.edit readings e =
    (.ok (e.id?.bind (lastBinding? readings history)), t.after readings e)
  error : ∀ e err, e.error? readings = some err →
    t.edit readings e = (.error err, t) ∧ t.after readings e = t
  bootstrap : ∀ id helper, (t.after readings .bootstrap).get? id = some helper ↔
    (∃ r ∈ Routine.catalog readings, r.wellKnown = some id ∧ r.toHelper = helper) ∨
    (∀ r ∈ Routine.catalog readings, r.wellKnown ≠ some id) ∧ t.get? id = some helper
  ascending : (t.toList.map Prod.fst).Pairwise (· < ·)
  mem_toList : ∀ id helper, (id, helper) ∈ t.toList ↔
    lastBinding? readings history id = some helper
  size : ∀ ids : List UInt32, ids.Nodup →
    (∀ id, id ∈ ids ↔ (lastBinding? readings history id).isSome) → t.size = ids.length
  link : ∀ (program : Program) (entry : Function) (site : CallSite), program.entry = .ok entry →
    site ∈ entry.callSites → site.id = reservedId → ∃ cause, Ebpf.link program t = .error cause
  link_site : ∀ (program : Program) (site : CallSite), site.pseudo = false →
    site.id = reservedId → site.link program t = .error (.unknownHelper reservedId)
  run : ∀ (m : Machine) (s₀ s : State) (i : Instruction), m.table = t → m.Executes s₀ s →
    m.instruction? s = some i → i.IsCall → i.src = 0 → i.helperId = reservedId →
    m.run s₀ = (.error (.unknownHelper reservedId), s.fetched)

/-! ### One change -/

variable {readings} {t : HelperTable} {e : Edit} {err : RegistryError} {id : UInt32}

theorem get?_bootstrap : (t.bootstrap readings).get? id =
    (Routine.wellKnown? readings id).or (t.get? id) :=
  IdMap.get?_foldl_insert (Routine.nodup_wellKnownHelpers readings) t id

theorem after_bootstrap : t.after readings .bootstrap = t.bootstrap readings := rfl

/-! A routine of the catalog is registered as its helper is. -/

section

variable {key : UInt32} {routine : String} {helper : Helper}

theorem edit_registerRoutine (h : Routine.named? readings routine = some helper) :
    t.edit readings (.registerRoutine key routine) = t.edit readings (.register key helper) := by
  rw [edit, edit, registerRoutine, h]

theorem Edit.error?_registerRoutine (h : Routine.named? readings routine = some helper) :
    (Edit.registerRoutine key routine).error? readings =
      (Edit.register key helper).error? readings :=
  if_neg (by simp [h])

theorem Edit.binding?_registerRoutine (h : Routine.named? readings routine = some helper) :
    (Edit.registerRoutine key routine).binding? readings id =
      (Edit.register key helper).binding? readings id := by
  unfold binding?
  rw [error?_registerRoutine h]
  dsimp only
  rw [h]

end

theorem Edit.binding?_of_error (h : e.error? readings = some err) :
    e.binding? readings id = none := if_pos (by rw [h]; rfl)

/-- A change fails as `error?` says, or it answers with the helper that it replaces and changes the
bindings as `binding?` says. -/
theorem edit_cases (t : HelperTable) (e : Edit) :
    (∃ err, e.error? readings = some err ∧ t.edit readings e = (.error err, t)) ∨
    ∃ next : HelperTable, e.error? readings = none ∧
      t.edit readings e = (.ok (e.id?.bind t.get?), next) ∧
      ∀ id, next.get? id = (e.binding? readings id).getD (t.get? id) := by
  have register (key : UInt32) (helper : Helper) :
      (∃ err, (Edit.register key helper).error? readings = some err ∧
        t.edit readings (.register key helper) = (.error err, t)) ∨
      ∃ next : HelperTable, (Edit.register key helper).error? readings = none ∧
        t.edit readings (.register key helper) = (.ok (t.get? key), next) ∧
        ∀ id, next.get? id =
          ((Edit.register key helper).binding? readings id).getD (t.get? id) := by
    by_cases hkey : key = reservedId
    · exact Or.inl ⟨_, if_pos hkey, if_pos hkey⟩
    · have herr : (Edit.register key helper).error? readings = none := if_neg hkey
      refine Or.inr ⟨_, herr, if_neg hkey, fun id => ?_⟩
      rw [IdMap.get?_insert, Edit.binding?, herr]
      change _ = (if id = key then some (some helper) else none).getD (t.get? id)
      split <;> rfl
  cases e with
  | bootstrap =>
    refine Or.inr ⟨_, rfl, rfl, fun id => ?_⟩
    rw [get?_bootstrap]
    change _ = ((Routine.wellKnown? readings id).map some).getD (t.get? id)
    cases Routine.wellKnown? readings id <;> rfl
  | register key helper => exact register key helper
  | registerRoutine key routine =>
    cases hr : Routine.named? readings routine with
    | none =>
      refine Or.inl ⟨.unknownRoutine routine, if_pos hr, ?_⟩
      rw [edit, registerRoutine, hr]
    | some helper =>
      rw [edit_registerRoutine hr, Edit.error?_registerRoutine hr]
      simp only [Edit.binding?_registerRoutine hr]
      exact register key helper
  | remove key =>
    refine Or.inr ⟨_, rfl, rfl, fun id => ?_⟩
    change (t.erase key).get? id = (if id = key then some none else none).getD (t.get? id)
    rw [IdMap.get?_erase]
    split <;> rfl

theorem edit_eq_error (h : e.error? readings = some err) :
    t.edit readings e = (.error err, t) := by
  rcases edit_cases t e with ⟨other, he, hedit⟩ | ⟨next, he, -⟩
  · rw [he] at h
    cases h
    exact hedit
  · rw [he] at h
    cases h

theorem edit_eq_ok (h : e.error? readings = none) :
    t.edit readings e = (.ok (e.id?.bind t.get?), t.after readings e) := by
  rcases edit_cases t e with ⟨other, he, -⟩ | ⟨next, -, hedit, -⟩
  · rw [he] at h
    cases h
  · rw [after, hedit]

theorem after_eq_self (h : e.error? readings = some err) : t.after readings e = t := by
  rw [after, edit_eq_error h]

theorem get?_after : (t.after readings e).get? id =
    (e.binding? readings id).getD (t.get? id) := by
  rcases edit_cases t e with ⟨err, he, hedit⟩ | ⟨next, -, hedit, hnext⟩
  · rw [after, hedit, Edit.binding?_of_error he]
    rfl
  · rw [after, hedit]
    exact hnext id

/-! ### Histories -/

theorem afterAll_cons (es : List Edit) :
    t.afterAll readings (e :: es) = (t.after readings e).afterAll readings es := rfl

theorem afterAll_append (es fs : List Edit) :
    t.afterAll readings (es ++ fs) = (t.afterAll readings es).afterAll readings fs :=
  List.foldl_append

theorem get?_afterAll (es : List Edit) : (t.afterAll readings es).get? id =
    (es.reverse.findSome? (·.binding? readings id)).getD (t.get? id) := by
  induction es generalizing t with
  | nil => rfl
  | cons e es ih =>
    rw [afterAll_cons, ih, get?_after, List.reverse_cons, List.findSome?_append]
    cases es.reverse.findSome? (·.binding? readings id) with
    | none => simp
    | some b => rfl

theorem afterAll_edits (origin : Origin) (es : List Edit) :
    (origin.table readings).afterAll readings es =
      HelperTable.afterAll readings .empty (origin.edits ++ es) := by
  cases origin <;> rfl

theorem get?_eq_lastBinding? (history : List Edit) :
    (HelperTable.afterAll readings .empty history).get? id = lastBinding? readings history id := by
  rw [get?_afterAll, IdMap.get?_empty, lastBinding?]
  cases history.reverse.findSome? (·.binding? readings id) with
  | none => rfl
  | some b => cases b <;> rfl

theorem binding?_reservedId (helper : Helper) :
    e.binding? readings reservedId ≠ some (some helper) := by
  have register (key : UInt32) (other : Helper) :
      (Edit.register key other).binding? readings reservedId ≠ some (some helper) := by
    by_cases hkey : key = reservedId
    · have herr : (Edit.register key other).error? readings = some (.reserved key) := if_pos hkey
      rw [Edit.binding?_of_error herr]
      nofun
    · unfold Edit.binding?
      simp [Ne.symm hkey]
  cases e with
  | bootstrap => nofun
  | register key other => exact register key other
  | registerRoutine key routine =>
    cases hr : Routine.named? readings routine with
    | none =>
      have herr : (Edit.registerRoutine key routine).error? readings =
          some (.unknownRoutine routine) := if_pos hr
      rw [Edit.binding?_of_error herr]
      nofun
    | some other =>
      rw [Edit.binding?_registerRoutine hr]
      exact register key other
  | remove key =>
    unfold Edit.binding?
    simp [Edit.error?]

theorem lastBinding?_reservedId (history : List Edit) :
    lastBinding? readings history reservedId = none := by
  rw [lastBinding?]
  cases hf : history.reverse.findSome? (·.binding? readings reservedId) with
  | none => rfl
  | some b =>
    cases b with
    | none => rfl
    | some helper =>
      obtain ⟨e, -, he⟩ := List.exists_of_findSome?_eq_some hf
      exact absurd he (binding?_reservedId helper)

/-! ### Changes made together -/

variable {es : List Edit} {answers : List (Option Helper)}

theorem editAll_cons_of_ok (h : e.error? readings = none) : t.editAll readings (e :: es) =
    (((t.after readings e).editAll readings es).1.map (e.id?.bind t.get? :: ·),
      ((t.after readings e).editAll readings es).2) := by
  rw [editAll, edit_eq_ok h]

theorem editAll_eq_ok (h : ∀ e ∈ es, e.error? readings = none) :
    ∃ answers, t.editAll readings es = (.ok answers, t.afterAll readings es) := by
  induction es generalizing t with
  | nil => exact ⟨[], rfl⟩
  | cons e es ih =>
    obtain ⟨he, hes⟩ := List.forall_mem_cons.mp h
    obtain ⟨answers, hanswers⟩ := @ih (t.after readings e) hes
    rw [editAll_cons_of_ok he, hanswers]
    exact ⟨_, rfl⟩

/-- The changes in front of the one that fails have been made. -/
theorem editAll_eq_error (h : ∀ d ∈ es, d.error? readings = none)
    (he : e.error? readings = some err) (rest : List Edit) :
    t.editAll readings (es ++ e :: rest) = (.error err, t.afterAll readings es) := by
  induction es generalizing t with
  | nil =>
    rw [List.nil_append, editAll, edit_eq_error he]
    rfl
  | cons d es ih =>
    obtain ⟨hd, hes⟩ := List.forall_mem_cons.mp h
    rw [List.cons_append, editAll_cons_of_ok hd, ih hes]
    rfl

theorem succeed_or_fail (readings : Readings) (es : List Edit) :
    (∀ e ∈ es, e.error? readings = none) ∨
    ∃ made e rest err, es = made ++ e :: rest ∧ (∀ d ∈ made, d.error? readings = none) ∧
      e.error? readings = some err := by
  induction es with
  | nil => exact Or.inl nofun
  | cons e es ih =>
    cases he : e.error? readings with
    | some err => exact Or.inr ⟨[], e, es, err, rfl, nofun, he⟩
    | none =>
      rcases ih with h | ⟨made, d, rest, err, rfl, hmade, hd⟩
      · exact Or.inl (List.forall_mem_cons.mpr ⟨he, h⟩)
      · exact Or.inr ⟨e :: made, d, rest, err, rfl, List.forall_mem_cons.mpr ⟨he, hmade⟩, hd⟩

theorem succeeds_of_editAll (h : (t.editAll readings es).1 = .ok answers) :
    ∀ e ∈ es, e.error? readings = none := by
  rcases succeed_or_fail readings es with hall | ⟨made, e, rest, err, rfl, hmade, he⟩
  · exact hall
  · rw [editAll_eq_error hmade he] at h
    cases h

theorem error?_of_edit {e : Edit} (h : (t.edit readings e).1 = .error err) :
    e.error? readings = some err := by
  cases he : e.error? readings with
  | none =>
    rw [edit_eq_ok he] at h
    cases h
  | some other =>
    rw [edit_eq_error he] at h
    cases h
    rfl

theorem editAll_of_made {next : HelperTable} (hmade : t.editAll readings es = (.ok answers, next))
    (he : (next.edit readings e).1 = .error err) (rest : List Edit) :
    t.editAll readings (es ++ e :: rest) = (.error err, next) := by
  have hall := succeeds_of_editAll (congrArg Prod.fst hmade)
  obtain ⟨_, hok⟩ := @editAll_eq_ok readings t es hall
  cases hmade.symm.trans hok
  exact editAll_eq_error hall (error?_of_edit he) rest

/-! ### Calls of an identifier that is not bound -/

theorem link_site_of_get? {program : Program} {site : CallSite} (h : t.get? site.id = none)
    (hsite : site.pseudo = false) : site.link program t = .error (.unknownHelper site.id) := by
  rw [CallSite.link, hsite, h]
  rfl

theorem link_of_get? {program : Program} {entry : Function} {site : CallSite}
    (he : program.entry = .ok entry) (hmem : site ∈ entry.callSites) (h : t.get? site.id = none) :
    ∃ cause, Ebpf.link program t = .error cause := by
  cases hl : Ebpf.link program t with
  | error cause => exact ⟨cause, rfl⟩
  | ok report =>
    obtain ⟨other, ho, hsites⟩ := link_eq_ok hl
    cases he.symm.trans ho
    obtain ⟨call, hcall⟩ := hsites site hmem
    cases hp : site.pseudo with
    | false =>
      rw [link_site_of_get? h hp] at hcall
      cases hcall
    | true =>
      rw [CallSite.link, hp] at hcall
      cases hcall

theorem run_of_get? {m : Machine} {s₀ s : State} {i : Instruction} (hs : m.Executes s₀ s)
    (hi : m.instruction? s = some i) (hc : i.IsCall) (hsrc : i.src = 0)
    (h : m.table.get? i.helperId = none) :
    m.run s₀ = (.error (.unknownHelper i.helperId), s.fetched) := by
  apply Machine.run_of_trap hs
  apply Machine.step_of_error hi
  rw [Machine.effect_of_isCall_eq_error_iff hc, Machine.called_of_src_eq_zero hsrc,
    Machine.callee, h]

/-- Every table that changes make of a new one or of the one with the defaults is what they say. -/
theorem follows_afterAll (readings : Readings) (origin : Origin) (es : List Edit) :
    Follows readings (origin.edits ++ es) ((origin.table readings).afterAll readings es) := by
  rw [afterAll_edits]
  generalize origin.edits ++ es = history
  have hget (id : UInt32) := @get?_eq_lastBinding? readings id history
  have hreserved : (HelperTable.afterAll readings .empty history).get? reservedId = none := by
    rw [hget, lastBinding?_reservedId]
  exact {
    get?_reservedId := hreserved
    get? := hget
    ok := fun e he => by rw [edit_eq_ok he, ← funext hget]
    error := fun e err he => ⟨edit_eq_error he, after_eq_self he⟩
    bootstrap := fun id helper => by
      rw [after_bootstrap, get?_bootstrap, Option.or_eq_some_iff, Routine.wellKnown?_eq_some_iff,
        Routine.wellKnown?_eq_none_iff]
    ascending := IdMap.ascending _
    mem_toList := fun id helper => by rw [← hget, IdMap.get?_eq_some_iff]
    size := fun ids hn h => IdMap.size_eq_length hn fun id => by rw [h id, hget]
    link := fun program entry site he hmem hsite => link_of_get? he hmem (hsite ▸ hreserved)
    link_site := fun program site hp hsite => by
      rw [link_site_of_get? (hsite ▸ hreserved) hp, hsite]
    run := fun m s₀ s i ht hs hi hc hsrc hid => by
      rw [run_of_get? hs hi hc hsrc (by rw [ht, hid, hreserved]), hid] }

/-- A call of identifier 0 in a machine with the defaults, on which a host has tried to bind 0. -/
def callReserved : Machine := .ofCode #[Assembly.call 0, Assembly.exit] .empty
  ((Origin.withDefaults.table ⟨0, 0⟩).afterAll ⟨0, 0⟩
    [.register 0 ⟨"zero", .constant, fun _ => .ok 0⟩])

theorem follows_afterAll_callReserved :
    (∃ cause, Ebpf.link callReserved.program callReserved.table = .error cause) ∧
    callReserved.run (.initial .blank) =
      (.error (.unknownHelper 0), (State.initial .blank).fetched) := by
  have h := follows_afterAll ⟨0, 0⟩ .withDefaults [.register 0 ⟨"zero", .constant, fun _ => .ok 0⟩]
  have hcall : Instruction.IsCall (.decode (Assembly.call 0)) := by
    unfold Instruction.IsCall
    decide
  constructor
  · exact h.link callReserved.program callReserved.entry ⟨0, 0, false⟩ rfl (by decide) rfl
  · exact h.run callReserved _ _ _ rfl ⟨.refl, by decide⟩ rfl hcall rfl rfl

end HelperTable

end Ebpf
