import Ebpf.Invocation
import Ebpf.SharedTable
import Ebpf.Proofs.HelperTable

/-! # Histories of shared tables

A host takes snapshots of a shared table, updates it and invokes programs against the snapshots. The
current table is what the updates that succeed have made of the first one; an update that fails
half-way leaves no trace in it. A snapshot stays what the current table was when it was taken.
-/

namespace Ebpf.SharedTable

open HelperTable (Edit)

/-- What a failing change has made of its copy of the table is lost. -/
theorem update_of_error {ε α : Type} {s : SharedTable} {e : ε} {left : HelperTable}
    {change : HelperTable → Except ε α × HelperTable} (h : change s.snapshot = (.error e, left)) :
    s.update change = (.error e, s) := by
  rw [update, show change s.current = _ from h]

theorem update_of_ok {ε α : Type} {s : SharedTable} {result : α} {next : HelperTable}
    {change : HelperTable → Except ε α × HelperTable} (h : change s.snapshot = (.ok result, next)) :
    s.update change = (.ok result, ⟨next⟩) := by
  rw [update, show change s.current = _ from h]

variable (readings : Readings)

/-- What a host does with a shared table. -/
inductive Operation where
  | snapshot
  /-- Makes changes up to the first that fails. -/
  | update (edits : List Edit)
  /-- Invokes a program against the snapshot of this number, counted from 0. -/
  | invoke (number : Nat) (program : Program) (args : List UInt64) (settings : Settings)

inductive Answer where
  | taken
  | updated (result : Except RegistryError (List (Option Helper)))
  /-- There is no outcome if there is no such snapshot. -/
  | invoked (outcome : Option (Except Trap (Option UInt64)))

namespace Operation

def isSnapshot : Operation → Bool
  | snapshot => true
  | _ => false

/-- The changes of the operation, if all of them succeed. -/
def committed : Operation → List Edit
  | update edits => if ∀ e ∈ edits, e.error? readings = none then edits else []
  | _ => []

end Operation

/-- The changes of the updates in which each change succeeds. -/
def committed (ops : List Operation) : List Edit := ops.flatMap (·.committed readings)

/-- A shared table with the snapshots that have been taken of it, in order. -/
structure Session where
  shared : SharedTable
  snapshots : List HelperTable

namespace Session

def new (t : HelperTable) : Session := ⟨⟨t⟩, []⟩

def perform (s : Session) : Operation → Answer × Session
  | .snapshot => (.taken, { s with snapshots := s.snapshots ++ [s.shared.snapshot] })
  | .update edits =>
    let (result, shared) := s.shared.update (·.editAll readings edits)
    (.updated result, { s with shared })
  | .invoke number program args settings =>
    (.invoked (s.snapshots[number]?.map (Ebpf.invoke program args · settings)), s)

def performAll (s : Session) (ops : List Operation) : Session :=
  ops.foldl (fun s op => (s.perform readings op).2) s

/-- What a session that began with table `t` shows after these operations. -/
structure Atomic (t : HelperTable) (ops : List Operation) (s : Session) : Prop where
  current : ∃ answers, t.editAll readings (committed readings ops) =
    (.ok answers, s.shared.snapshot)
  update_ok : ∀ edits answers next,
    s.shared.snapshot.editAll readings edits = (.ok answers, next) →
    (∀ e ∈ edits, e.error? readings = none) ∧
      s.perform readings (.update edits) = (.updated (.ok answers), { s with shared := ⟨next⟩ })
  update_error : ∀ made e rest answers next err,
    s.shared.snapshot.editAll readings made = (.ok answers, next) →
    (next.edit readings e).1 = .error err → e.error? readings = some err ∧
      s.shared.snapshot.editAll readings (made ++ e :: rest) = (.error err, next) ∧
      s.perform readings (.update (made ++ e :: rest)) = (.updated (.error err), s)
  invoke : ∀ before later, ops = before ++ .snapshot :: later →
    ∃ answers taken, t.editAll readings (committed readings before) = (.ok answers, taken) ∧
      ∀ program args settings,
        s.perform readings (.invoke (before.countP (·.isSnapshot)) program args settings)
          = (.invoked (some (Ebpf.invoke program args taken settings)), s)

/-! ### One operation -/

variable {readings} {s : Session} {t : HelperTable} {op : Operation} {edits : List Edit}

variable {answers : List (Option Helper)} {left : HelperTable} {err : RegistryError}

theorem perform_update_ok (h : s.shared.snapshot.editAll readings edits = (.ok answers, left)) :
    s.perform readings (.update edits) = (.updated (.ok answers), { s with shared := ⟨left⟩ }) := by
  rw [perform, update_of_ok h]

theorem perform_update_error (h : s.shared.snapshot.editAll readings edits = (.error err, left)) :
    s.perform readings (.update edits) = (.updated (.error err), s) := by
  rw [perform, update_of_error h]

theorem snapshot_perform : (s.perform readings op).2.shared.snapshot =
    s.shared.snapshot.afterAll readings (op.committed readings) := by
  cases op with
  | snapshot => rfl
  | invoke number program args settings => rfl
  | update edits =>
    rw [Operation.committed]
    rcases HelperTable.succeed_or_fail readings edits with h | ⟨made, e, rest, err, rfl, hmade, he⟩
    · obtain ⟨answers, hok⟩ := HelperTable.editAll_eq_ok h
      rw [if_pos h, perform_update_ok hok]
      rfl
    · have hall : ¬ ∀ d ∈ made ++ e :: rest, d.error? readings = none := fun hall => by
        cases he.symm.trans (hall e (by simp))
      rw [if_neg hall, perform_update_error (HelperTable.editAll_eq_error hmade he rest)]
      rfl

theorem snapshots_perform : (s.perform readings op).2.snapshots =
    s.snapshots ++ if op.isSnapshot then [s.shared.snapshot] else [] := by
  cases op with
  | snapshot => rfl
  | update edits => exact (List.append_nil _).symm
  | invoke number program args settings => exact (List.append_nil _).symm

/-! ### Sequences of operations -/

variable {ops : List Operation}

theorem performAll_cons : s.performAll readings (op :: ops) =
    (s.perform readings op).2.performAll readings ops := rfl

theorem performAll_append (before later : List Operation) :
    s.performAll readings (before ++ later) =
      (s.performAll readings before).performAll readings later :=
  List.foldl_append

theorem snapshot_performAll : (s.performAll readings ops).shared.snapshot =
    s.shared.snapshot.afterAll readings (committed readings ops) := by
  induction ops generalizing s with
  | nil => rfl
  | cons op ops ih =>
    rw [performAll_cons, ih, snapshot_perform, committed, committed, List.flatMap_cons,
      HelperTable.afterAll_append]

theorem snapshots_performAll : ∃ later, (s.performAll readings ops).snapshots =
    s.snapshots ++ later ∧ later.length = ops.countP (·.isSnapshot) := by
  induction ops generalizing s with
  | nil => exact ⟨[], (List.append_nil _).symm, rfl⟩
  | cons op ops ih =>
    obtain ⟨later, hlater, hlength⟩ := @ih (s.perform readings op).2
    refine ⟨(if op.isSnapshot then [s.shared.snapshot] else []) ++ later, ?_, ?_⟩
    · rw [performAll_cons, hlater, snapshots_perform, List.append_assoc]
    · rw [List.length_append, hlength, List.countP_cons, Nat.add_comm]
      split <;> rfl

theorem error?_of_mem_committed {e : Edit} (h : e ∈ committed readings ops) :
    e.error? readings = none := by
  obtain ⟨op, -, he⟩ := List.mem_flatMap.mp h
  cases op with
  | snapshot => cases he
  | invoke number program args settings => cases he
  | update edits =>
    rw [Operation.committed] at he
    split at he
    · rename_i hall
      exact hall e he
    · cases he

/-- The current table comes about by the committed changes, all of which succeed. -/
theorem editAll_committed (t : HelperTable) (ops : List Operation) : ∃ answers,
    t.editAll readings (committed readings ops) =
      (.ok answers, ((new t).performAll readings ops).shared.snapshot) := by
  obtain ⟨answers, h⟩ :=
    @HelperTable.editAll_eq_ok readings t _ fun e he => error?_of_mem_committed he
  refine ⟨answers, ?_⟩
  rw [h, snapshot_performAll]
  rfl

theorem snapshots_of_split (before later : List Operation) :
    ((new t).performAll readings (before ++ .snapshot :: later)).snapshots[
      before.countP (·.isSnapshot)]? =
      some ((new t).performAll readings before).shared.snapshot := by
  obtain ⟨earlier, hearlier, hlength⟩ := @snapshots_performAll readings (new t) before
  rw [performAll_append, performAll_cons]
  obtain ⟨rest, hrest, -⟩ := @snapshots_performAll readings
    (((new t).performAll readings before).perform readings .snapshot).2 later
  rw [hrest, snapshots_perform, hearlier, ← hlength]
  simp [new, Operation.isSnapshot]

/-- An update takes effect as a whole or not at all, and a snapshot stays as it was taken. -/
theorem atomic_performAll (readings : Readings) (t : HelperTable) (ops : List Operation) :
    Atomic readings t ops ((new t).performAll readings ops) where
  current := editAll_committed t ops
  update_ok edits answers next h :=
    ⟨HelperTable.succeeds_of_editAll (congrArg Prod.fst h), perform_update_ok h⟩
  update_error made e rest answers next err hmade he := by
    have hleft := HelperTable.editAll_of_made hmade he rest
    exact ⟨HelperTable.error?_of_edit he, hleft, perform_update_error hleft⟩
  invoke before later h := by
    obtain ⟨answers, hbefore⟩ := @editAll_committed readings t before
    refine ⟨answers, _, hbefore, fun program args settings => ?_⟩
    rw [perform, h, snapshots_of_split]
    rfl

/-- Changes of which the second names no routine of the catalog. -/
def halfDone : List Edit := [.registerRoutine 300 "increment", .registerRoutine 301 "missing"]

/-- The update that succeeds binds 7. The one that fails binds 300, in its copy. -/
theorem atomic_performAll_halfDone : ∃ s left helper,
    s = (new .empty).performAll ⟨0, 0⟩
      [.update [.registerRoutine 7 "increment"], .update halfDone] ∧
    Routine.named? ⟨0, 0⟩ "increment" = some helper ∧
    s.shared.snapshot.get? 7 = some helper ∧ s.shared.snapshot.get? 300 = none ∧
    s.shared.snapshot.editAll ⟨0, 0⟩ halfDone = (.error (.unknownRoutine "missing"), left) ∧
    left.get? 7 = some helper ∧ left.get? 300 = some helper ∧
    s.perform ⟨0, 0⟩ (.update halfDone) = (.updated (.error (.unknownRoutine "missing")), s) := by
  have h := atomic_performAll ⟨0, 0⟩ .empty
    [.update [.registerRoutine 7 "increment"], .update halfDone]
  generalize (new .empty).performAll ⟨0, 0⟩ _ = s at h
  obtain ⟨answers, hcurrent⟩ := h.current
  have hget (id : UInt32) : s.shared.snapshot.get? id =
      (HelperTable.editAll ⟨0, 0⟩ .empty [.registerRoutine 7 "increment"]).2.get? id :=
    congrArg (fun r => r.2.get? id) hcurrent.symm
  obtain ⟨-, hleft, hupdate⟩ := h.update_error [.registerRoutine 300 "increment"]
    (.registerRoutine 301 "missing") [] _ _ (.unknownRoutine "missing") rfl rfl
  refine ⟨s, _, _, rfl, rfl, hget 7, hget 300, hleft, ?_, ?_, hupdate⟩
  · rw [IdMap.get?_insert]
    exact hget 7
  · rw [IdMap.get?_insert]
    rfl

end Session

end Ebpf.SharedTable

