import Ebpf.Invocation
import Ebpf.Proofs.Failure

/-! # First states

A machine starts at the front of the entry point of its program. Binding arguments writes
registers and nothing else.
-/

namespace Ebpf

theorem Machine.start_eq_ok_iff {program : Program} {table : HelperTable} {settings : Settings}
    {m : Machine} {s : State} : Machine.start program table settings = .ok (m, s) ↔
    ∃ entry memory, program.entry = .ok entry ∧
      Memory.withContext settings.context = .ok memory ∧
      m = { program, table, entry, budget := settings.budget } ∧ s = .initial memory := by
  unfold Machine.start
  rw [bind_eq_ok_iff]
  constructor
  · rintro ⟨entry, he, h⟩
    split at h
    · rename_i memory hmem
      cases h
      exact ⟨entry, memory, he, hmem, rfl, rfl⟩
    · cases h
  · rintro ⟨entry, memory, he, hmem, rfl, rfl⟩
    exact ⟨entry, he, by rw [hmem]; rfl⟩

theorem Machine.fields_of_start {program : Program} {table : HelperTable} {settings : Settings}
    {m : Machine} {s : State} (h : Machine.start program table settings = .ok (m, s)) :
    program.entry = .ok m.entry ∧ m.program = program ∧ m.table = table ∧
      m.budget = settings.budget := by
  obtain ⟨entry, memory, he, -, rfl, -⟩ := start_eq_ok_iff.mp h
  exact ⟨he, rfl, rfl, rfl⟩

theorem Program.size_le_of_entry {program : Program} {entry : Function}
    (h : program.entry = .ok entry) : entry.code.size ≤ maxSlots := by
  unfold Program.entry at h
  split at h
  · rename_i hhead
    cases h
    exact program.size_le _ (List.mem_of_head? hhead)
  · cases h

theorem Memory.context_of_withContext {context : Array UInt8} {memory : Memory}
    (h : withContext context = .ok memory) : memory.context = context := by
  unfold withContext at h
  split at h
  · cases h; rfl
  · cases h

theorem Memory.size_blank : (Array.replicate stackSize (0 : UInt8)).size = stackSize :=
  Array.size_replicate

def Memory.blank : Memory where
  context := #[]
  stack := .replicate stackSize 0
  context_le := Nat.zero_le _
  stack_size := size_blank

theorem one_le_maxArguments : 1 ≤ maxArguments := by decide

theorem two_le_maxArguments : 2 ≤ maxArguments := by decide

/-- The machine that runs a program of one function, which has this code, with default settings. -/
def Machine.ofCode (code : Array UInt64) (imports : IdMap Declaration) (table : HelperTable)
    (h : code.size ≤ maxSlots := by decide) : Machine where
  program := ⟨[⟨"main", .constant, code⟩], imports, fun _ hf => List.mem_singleton.mp hf ▸ h⟩
  table
  entry := ⟨"main", .constant, code⟩
  budget := defaultBudget

theorem Machine.start_ofCode {code : Array UInt64} {imports : IdMap Declaration}
    {table : HelperTable} {h : code.size ≤ maxSlots} :
    Machine.start (ofCode code imports table h).program table {}
      = .ok (ofCode code imports table h, .initial .blank) := rfl

theorem State.setArgument_eq_ok {s t : State} {index : Nat} {value : UInt64}
    (h : s.setArgument index value = .ok t) :
    t.memory = s.memory ∧ t.pc = s.pc ∧ t.steps = s.steps := by
  unfold setArgument at h
  split at h
  · cases h; exact ⟨rfl, rfl, rfl⟩
  · cases h

theorem Invocation.bindArguments_eq_ok {s t : State} {args : List UInt64}
    (h : bindArguments s args = .ok t) :
    t.memory = s.memory ∧ t.pc = s.pc ∧ t.steps = s.steps := by
  unfold bindArguments at h
  generalize args.zipIdx = indexed at h
  induction indexed generalizing s with
  | nil => cases h; exact ⟨rfl, rfl, rfl⟩
  | cons arg rest ih =>
    obtain ⟨v, hv, h⟩ := bind_eq_ok_iff.mp h
    obtain ⟨hm, hp, hs⟩ := State.setArgument_eq_ok hv
    obtain ⟨hm', hp', hs'⟩ := ih h
    exact ⟨hm'.trans hm, hp'.trans hp, hs'.trans hs⟩

end Ebpf
