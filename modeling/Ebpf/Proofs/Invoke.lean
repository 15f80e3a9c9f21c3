import Ebpf.Instruction.Assembly
import Ebpf.Proofs.Invocation
import Ebpf.Proofs.Machine.Registers
import Ebpf.Proofs.Machine.Run

/-! # Invoking a program

An invocation is refused for want of an entry point, of arguments, of room for the context or of
helpers, in this order, and then it calls no helper. Else its outcome is the one of a run from a
state that the arguments the entry point takes and the context decide. So further arguments are
not seen.
-/

namespace Ebpf

open Assembly

variable {program : Program} {table : HelperTable} {settings : Settings} {entry : Function}
  {args : List UInt64}

namespace Invocation

/-- The state in which an entry point that takes `arity` arguments is entered. -/
def enter (arity : Nat) (args : List UInt64) (settings : Settings) : Except Trap State := do
  let memory ← (Memory.withContext settings.context).mapError .fault
  (bindArguments (.initial memory) (args.take arity)).mapError .fault

/-- The helper calls that `invoke` makes, in order. -/
def helperCalls (program : Program) (args : List UInt64) (table : HelperTable)
    (settings : Settings) : List HelperCall :=
  ((new program table settings).interpreted [.bind args, .run]).flatMap fun p =>
    p.1.helperCalls p.2

/-- What an entry point that takes `arity` arguments finds: its arguments in the registers from R1
on, the address of the stack's end in R10, and zeros in the other registers and on the stack. -/
structure Entered (arity : Nat) (args : List UInt64) (context : Array UInt8) (s : State) :
    Prop where
  argument : ∀ k < arity, s.regs.get? (.ofNat (k + 1)) = args[k]?
  zero : ∀ reg : UInt8, reg < framePointer → reg = 0 ∨ arity < reg.toNat →
    s.regs.get? reg = some 0
  frame : s.regs.get? framePointer = some stackTop
  context : s.memory.context = context
  stack : s.memory.stack = .replicate stackSize 0
  pc : s.pc = 0
  steps : s.steps = 0

/-- The outcome of an invocation and its helper calls. -/
inductive Answers (program : Program) (table : HelperTable) (settings : Settings)
    (args : List UInt64) : Except Trap (Option UInt64) → List HelperCall → Prop
  | noEntryPoint (h : program.functions = []) :
      Answers program table settings args (.error .noEntryPoint) []
  | arityMismatch {entry : Function} (h : program.functions.head? = some entry)
      (hlen : args.length < entry.signature.arity) :
      Answers program table settings args
        (.error (.arityMismatch entry.signature.arity args.length)) []
  | contextTooLarge {entry : Function} (h : program.functions.head? = some entry)
      (hlen : entry.signature.arity ≤ args.length) (hctx : maxContext < settings.context.size) :
      Answers program table settings args
        (.error (.fault (.contextTooLarge settings.context.size))) []
  | unlinked {entry : Function} {cause : Trap} (h : program.functions.head? = some entry)
      (hlen : entry.signature.arity ≤ args.length) (hctx : settings.context.size ≤ maxContext)
      (hlink : link program table = .error cause) :
      Answers program table settings args (.error cause) []
  | interpreted {entry : Function} {report : LinkReport} {m : Machine} {s : State}
      (h : program.functions.head? = some entry)
      (hlen : entry.signature.arity ≤ args.length) (hctx : settings.context.size ≤ maxContext)
      (hlink : link program table = .ok report)
      (hm : m = { program, table, entry, budget := settings.budget })
      (hs : Entered entry.signature.arity args settings.context s) :
      Answers program table settings args
        ((m.run s).1.map fun r0 => if entry.signature.returns then some r0 else none)
        (m.helperCalls s)

/-! ### The first state -/

/-- Binding writes the arguments that are left to the registers that follow. -/
theorem exists_foldlM_setArgument (args : List UInt64) {n : Nat} (s : State)
    (h : n + args.length ≤ maxArguments) :
    ∃ t, (args.zipIdx n).foldlM (fun s arg => s.setArgument arg.2 arg.1) s = Except.ok t ∧
      (∀ k < args.length, t.regs.get? (.ofNat (n + k + 1)) = args[k]?) ∧
      ∀ reg : UInt8, reg.toNat ≤ n ∨ n + args.length < reg.toNat →
        t.regs.get? reg = s.regs.get? reg := by
  induction args generalizing n s with
  | nil => exact ⟨s, rfl, nofun, fun _ _ => rfl⟩
  | cons v rest ih =>
    rw [List.length_cons] at h
    have hn : n < maxArguments := by omega
    obtain ⟨hreg, -⟩ := Registers.argument_lt hn (Nat.lt_succ_self n)
    have hlt : UInt8.ofNat (n + 1) < framePointer := by
      rw [UInt8.lt_iff_toNat_lt, hreg]
      exact Nat.lt_of_le_of_lt hn (by decide)
    have hrest : n + 1 + rest.length ≤ maxArguments := by omega
    obtain ⟨t, ht, hargs, hkept⟩ := ih { s with regs := s.regs.set (.ofNat (n + 1)) v } hrest
    refine ⟨t, ?_, ?_, ?_⟩
    · rw [List.zipIdx_cons, List.foldlM_cons, State.setArgument, if_pos hn]
      exact ht
    · intro k hk
      cases k with
      | zero =>
        rw [hkept _ (Or.inl (Nat.le_of_eq hreg)), Registers.get?_set_self _ hlt]
        rfl
      | succ k =>
        rw [List.getElem?_cons_succ, ← hargs k (Nat.lt_of_succ_lt_succ hk), Nat.add_right_comm n 1]
        rfl
    · intro reg hout
      rw [List.length_cons] at hout
      rw [hkept reg (by omega), Registers.get?_set_of_ne]
      rintro rfl
      omega

theorem withContext_of_le {context : Array UInt8} (h : context.size ≤ maxContext) :
    ∃ memory, Memory.withContext context = .ok memory ∧ memory.context = context ∧
      memory.stack = .replicate stackSize 0 := by
  rw [Memory.withContext, dif_pos h]
  exact ⟨_, rfl, rfl, rfl⟩

theorem enter_of_contextTooLarge {arity : Nat} (h : maxContext < settings.context.size) :
    enter arity args settings = .error (.fault (.contextTooLarge settings.context.size)) := by
  rw [enter, Memory.withContext, dif_neg (Nat.not_le.mpr h)]
  rfl

theorem exists_enter {arity : Nat} (ha : arity ≤ maxArguments) (hlen : arity ≤ args.length)
    (hctx : settings.context.size ≤ maxContext) : ∃ s, enter arity args settings = .ok s ∧
      Entered arity args settings.context s := by
  obtain ⟨memory, hmem, hcontext, hstack⟩ := withContext_of_le hctx
  have htake : (args.take arity).length = arity := List.length_take_of_le hlen
  obtain ⟨s, hs, hargs, hkept⟩ := exists_foldlM_setArgument (args.take arity) (n := 0)
    (.initial memory) (by rw [htake, Nat.zero_add]; exact ha)
  have hbind : bindArguments (.initial memory) (args.take arity) = .ok s := hs
  obtain ⟨hm, hpc, hsteps⟩ := bindArguments_eq_ok hbind
  rw [htake, Nat.zero_add] at hkept
  rw [htake] at hargs
  refine ⟨s, by rw [enter, hmem]; exact congrArg (Except.mapError _) hbind, ?_⟩
  refine { argument := ?_, zero := ?_, frame := ?_, context := ?_, stack := ?_, pc := hpc
           steps := hsteps }
  · intro k hk
    rw [← Nat.zero_add k, hargs k hk, List.getElem?_take_of_lt hk, Nat.zero_add]
  · intro reg hreg hfree
    rw [hkept reg]
    · exact Registers.get?_initial_of_lt stackTop hreg
    · rcases hfree with rfl | hfree
      · exact Or.inl (Nat.le_refl 0)
      · exact Or.inr hfree
  · rw [hkept _ (Or.inr (Nat.lt_of_le_of_lt ha (by decide)))]
    exact Registers.get?_initial_framePointer stackTop
  · rw [hm]; exact hcontext
  · rw [hm]; exact hstack

theorem Entered.unique {arity : Nat} {context : Array UInt8} {s t : State}
    (hs : Entered arity args context s) (ht : Entered arity args context t) : s = t := by
  have hregs : s.regs = t.regs := by
    apply Registers.ext_get?
    intro reg
    by_cases hlt : reg < framePointer
    · by_cases hfree : reg = 0 ∨ arity < reg.toNat
      · rw [hs.zero reg hlt hfree, ht.zero reg hlt hfree]
      · obtain ⟨hne, hle⟩ := not_or.mp hfree
        have hpos : reg.toNat ≠ 0 := fun h => hne (UInt8.toNat_inj.mp h)
        have hk : UInt8.ofNat (reg.toNat - 1 + 1) = reg := by
          rw [Nat.sub_one_add_one hpos, UInt8.ofNat_toNat]
        have hargs := hs.argument (reg.toNat - 1) (by omega)
        rw [← ht.argument (reg.toNat - 1) (by omega), hk] at hargs
        exact hargs
    · by_cases heq : reg = framePointer
      · rw [heq, hs.frame, ht.frame]
      · have hne : reg.toNat ≠ 10 := fun h => heq (UInt8.toNat_inj.mp h)
        have hge : 10 ≤ reg.toNat := Nat.not_lt.mp fun h => hlt (UInt8.lt_iff_toNat_lt.mpr h)
        have hout : registerCount ≤ reg.toNat := Nat.lt_of_le_of_ne hge hne.symm
        rw [s.regs.get?_eq_none hout, t.regs.get?_eq_none hout]
  have hmemory : s.memory = t.memory := by
    rw [Memory.mk.injEq]
    exact ⟨hs.context.trans ht.context.symm, hs.stack.trans ht.stack.symm⟩
  rw [State.mk.injEq]
  exact ⟨hregs, hmemory, hs.pc.trans ht.pc.symm, hs.steps.trans ht.steps.symm⟩

/-! ### Binding and running -/

theorem entryFor_of_entry (h : program.entry = .ok entry) :
    entryFor program args =
      if args.length < entry.signature.arity then
        .error (.arityMismatch entry.signature.arity args.length)
      else .ok entry := by
  unfold entryFor
  rw [h]
  by_cases hlen : args.length < entry.signature.arity
  · rw [if_pos hlen]
    exact if_pos hlen
  · rw [if_neg hlen]
    exact if_neg hlen

theorem entryFor_of_head?_none (h : program.functions.head? = none) :
    entryFor program args = .error .noEntryPoint := by
  rw [entryFor, Program.entry, h]
  rfl

theorem load_of_entry (h : program.entry = .ok entry) :
    load program table settings entry args =
      (enter entry.signature.arity args settings).map fun s =>
        ({ program, table, entry, budget := settings.budget }, s) := by
  unfold load Machine.start enter
  rw [h]
  cases Memory.withContext settings.context with
  | error fault => rfl
  | ok memory =>
    dsimp only [Bind.bind, Except.bind, pure, Except.pure, Except.mapError]
    cases bindArguments (.initial memory) (args.take entry.signature.arity) <;> rfl

theorem bind_new (program : Program) (table : HelperTable) (settings : Settings)
    (args : List UInt64) : (new program table settings).bind args =
      match entryFor program args with
      | .error cause => (.error cause, { new program table settings with status := .trapped cause })
      | .ok entry =>
        match load program table settings entry args with
        | .error cause => (.error cause,
            { new program table settings with settings := none, status := .trapped cause })
        | .ok prepared => (.ok (), { new program table settings with
            settings := none, prepared := some prepared, status := .argsBound }) := by
  unfold bind prepare
  rw [if_pos (show (new program table settings).status = .ready from rfl)]
  dsimp only [new]
  cases entryFor program args with
  | error cause => rfl
  | ok entry =>
    dsimp only [Option.getD_some]
    cases load program table settings entry args <;> rfl

section Prepared

variable {inv : Invocation} {m : Machine} {s : State}

theorem run_of_prepared (hs : inv.status = .argsBound) (hp : inv.prepared = some (m, s)) :
    inv.run.1 = link inv.program inv.table >>= fun _ =>
      (m.run s).1.map fun r0 => if m.entry.signature.returns then some r0 else none := by
  unfold run launch
  rw [hs]
  dsimp only
  cases link inv.program inv.table with
  | error cause => rfl
  | ok report =>
    rw [hp]
    dsimp only [conclude]
    cases (m.run s).1 <;> rfl

theorem launched_of_prepared (hs : inv.status = .argsBound) (hp : inv.prepared = some (m, s)) :
    inv.launched = match link inv.program inv.table with
      | .ok _ => [(m, s)]
      | .error _ => [] := by
  rw [launched, if_pos hs, launch]
  cases link inv.program inv.table with
  | error cause => rfl
  | ok report =>
    rw [hp]
    rfl

end Prepared

theorem bind_new_of_entry (h : program.entry = .ok entry) :
    (new program table settings).bind args =
      if args.length < entry.signature.arity then
        (.error (.arityMismatch entry.signature.arity args.length),
          { new program table settings with
            status := .trapped (.arityMismatch entry.signature.arity args.length) })
      else match enter entry.signature.arity args settings with
        | .error cause => (.error cause,
            { new program table settings with settings := none, status := .trapped cause })
        | .ok s => (.ok (), { new program table settings with
            settings := none
            prepared := some ({ program, table, entry, budget := settings.budget }, s)
            status := .argsBound }) := by
  rw [bind_new, entryFor_of_entry h]
  by_cases hlen : args.length < entry.signature.arity
  · rw [if_pos hlen, if_pos hlen]
  · rw [if_neg hlen, if_neg hlen]
    dsimp only
    rw [load_of_entry h]
    cases enter entry.signature.arity args settings <;> rfl

theorem helperCalls_eq (program : Program) (args : List UInt64) (table : HelperTable)
    (settings : Settings) : helperCalls program args table settings =
      ((new program table settings).bind args).2.launched.flatMap fun p =>
        p.1.helperCalls p.2 := by
  rw [helperCalls, interpreted, interpreted, interpreted, List.append_nil]
  rfl

theorem helperCalls_of_entry (h : program.entry = .ok entry) :
    helperCalls program args table settings =
      if args.length < entry.signature.arity then []
      else match enter entry.signature.arity args settings, link program table with
        | .ok s, .ok _ =>
          Machine.helperCalls { program, table, entry, budget := settings.budget } s
        | _, _ => [] := by
  rw [helperCalls_eq, bind_new_of_entry h]
  by_cases hlen : args.length < entry.signature.arity
  · rw [if_pos hlen, if_pos hlen]
    rfl
  · rw [if_neg hlen, if_neg hlen]
    cases enter entry.signature.arity args settings with
    | error cause => rfl
    | ok s =>
      dsimp only
      rw [launched_of_prepared rfl rfl]
      dsimp only [new]
      cases link program table with
      | error cause => rfl
      | ok report => exact List.flatMap_singleton ..

end Invocation

theorem invoke_of_entry (h : program.entry = .ok entry) : invoke program args table settings =
    if args.length < entry.signature.arity then
      .error (.arityMismatch entry.signature.arity args.length)
    else do
      let s ← Invocation.enter entry.signature.arity args settings
      let _ ← link program table
      let r0 ← (Machine.run { program, table, entry, budget := settings.budget } s).1
      return if entry.signature.returns then some r0 else none := by
  rw [invoke, Invocation.bind_new_of_entry h]
  by_cases hlen : args.length < entry.signature.arity
  · rw [if_pos hlen, if_pos hlen]
  · rw [if_neg hlen, if_neg hlen]
    cases Invocation.enter entry.signature.arity args settings with
    | error cause => rfl
    | ok s =>
      dsimp only
      rw [Invocation.run_of_prepared rfl rfl]
      rfl

namespace Invocation

/-! ### The answers -/

variable {outcome : Except Trap (Option UInt64)} {calls : List HelperCall}

theorem entry_of_head? (h : program.functions.head? = some entry) : program.entry = .ok entry := by
  rw [Program.entry, h]

theorem invoke_of_le (h : program.functions.head? = some entry)
    (hlen : entry.signature.arity ≤ args.length) : invoke program args table settings = do
      let s ← enter entry.signature.arity args settings
      let _ ← link program table
      let r0 ← (Machine.run { program, table, entry, budget := settings.budget } s).1
      return if entry.signature.returns then some r0 else none := by
  rw [invoke_of_entry (entry_of_head? h), if_neg (Nat.not_lt.mpr hlen)]

theorem helperCalls_of_le (h : program.functions.head? = some entry)
    (hlen : entry.signature.arity ≤ args.length) : helperCalls program args table settings =
      match enter entry.signature.arity args settings, link program table with
      | .ok s, .ok _ => Machine.helperCalls { program, table, entry, budget := settings.budget } s
      | _, _ => [] := by
  rw [helperCalls_of_entry (entry_of_head? h), if_neg (Nat.not_lt.mpr hlen)]

theorem exists_answers (program : Program) (table : HelperTable) (settings : Settings)
    (args : List UInt64) : ∃ outcome calls, Answers program table settings args outcome calls := by
  cases h : program.functions.head? with
  | none => exact ⟨_, _, .noEntryPoint (List.head?_eq_none_iff.mp h)⟩
  | some entry =>
    by_cases hlen : args.length < entry.signature.arity
    · exact ⟨_, _, .arityMismatch h hlen⟩
    have hlen := Nat.not_lt.mp hlen
    by_cases hctx : maxContext < settings.context.size
    · exact ⟨_, _, .contextTooLarge h hlen hctx⟩
    have hctx := Nat.not_lt.mp hctx
    cases hlink : link program table with
    | error cause => exact ⟨_, _, .unlinked h hlen hctx hlink⟩
    | ok report =>
      obtain ⟨s, -, hs⟩ := exists_enter entry.signature.arity_le hlen hctx
      exact ⟨_, _, .interpreted h hlen hctx hlink rfl hs⟩

theorem Answers.eq (h : Answers program table settings args outcome calls) :
    outcome = invoke program args table settings ∧
      calls = helperCalls program args table settings := by
  cases h with
  | noEntryPoint h =>
    rw [invoke, helperCalls_eq, bind_new, entryFor_of_head?_none (List.head?_eq_none_iff.mpr h)]
    exact ⟨rfl, rfl⟩
  | arityMismatch h hlen =>
    have he := entry_of_head? h
    rw [invoke_of_entry he, helperCalls_of_entry he, if_pos hlen, if_pos hlen]
    exact ⟨rfl, rfl⟩
  | contextTooLarge h hlen hctx =>
    rw [invoke_of_le h hlen, helperCalls_of_le h hlen, enter_of_contextTooLarge hctx]
    exact ⟨rfl, rfl⟩
  | @unlinked entry cause h hlen hctx hlink =>
    obtain ⟨s, hs, -⟩ := exists_enter entry.signature.arity_le hlen hctx
    rw [invoke_of_le h hlen, helperCalls_of_le h hlen, hs, hlink]
    exact ⟨rfl, rfl⟩
  | @interpreted entry report m s h hlen hctx hlink hm hs =>
    obtain ⟨t, ht, hentered⟩ := exists_enter entry.signature.arity_le hlen hctx
    obtain rfl := hs.unique hentered
    rw [invoke_of_le h hlen, helperCalls_of_le h hlen, ht, hlink, hm]
    exact ⟨rfl, rfl⟩

theorem answers_iff : Answers program table settings args outcome calls ↔
    outcome = invoke program args table settings ∧
      calls = helperCalls program args table settings := by
  constructor
  · exact Answers.eq
  · rintro ⟨rfl, rfl⟩
    obtain ⟨outcome, calls, h⟩ := exists_answers program table settings args
    obtain ⟨rfl, rfl⟩ := h.eq
    exact h

theorem invoke_eq_of_take_eq {args' : List UInt64}
    (h : ∀ entry, program.functions.head? = some entry → entry.signature.arity ≤ args.length ∧
      entry.signature.arity ≤ args'.length ∧
      args'.take entry.signature.arity = args.take entry.signature.arity) :
    invoke program args' table settings = invoke program args table settings := by
  cases hf : program.functions.head? with
  | none =>
    rw [invoke, invoke, bind_new, bind_new, entryFor_of_head?_none hf, entryFor_of_head?_none hf]
  | some entry =>
    obtain ⟨hlen, hlen', htake⟩ := h entry hf
    rw [invoke_of_le hf hlen, invoke_of_le hf hlen', enter, htake]
    rfl

/-- An invocation answers in one way, which depends on the arguments that the entry point takes. -/
theorem answers_exact (program : Program) (table : HelperTable) (settings : Settings)
    (args : List UInt64) :
    (∀ outcome calls, Answers program table settings args outcome calls ↔
      outcome = invoke program args table settings ∧
        calls = helperCalls program args table settings) ∧
    ∀ args' : List UInt64,
      (∀ entry, program.functions.head? = some entry → entry.signature.arity ≤ args.length ∧
        entry.signature.arity ≤ args'.length ∧
        args'.take entry.signature.arity = args.take entry.signature.arity) →
      invoke program args' table settings = invoke program args table settings :=
  ⟨fun _ _ => answers_iff, fun _ => invoke_eq_of_take_eq⟩

/-- An entry point with one argument that returns the second argument register. -/
def secondArgument : Program where
  functions := [⟨"main", ⟨1, true, one_le_maxArguments⟩, #[mov64Reg 0 2, exit]⟩]
  imports := .empty
  size_le := by decide

theorem answers_exact_secondArgument :
    (∃ calls, Answers secondArgument .empty {} [5, 6] (.ok (some 0)) calls) ∧
    invoke secondArgument [5, 6] .empty {} = invoke secondArgument [5] .empty {} := by
  obtain ⟨hanswers, -⟩ := answers_exact secondArgument .empty {} [5, 6]
  obtain ⟨-, hsurplus⟩ := answers_exact secondArgument .empty {} [5]
  refine ⟨⟨_, (hanswers _ _).mpr ⟨rfl, rfl⟩⟩, hsurplus _ ?_⟩
  rintro entry ⟨⟩
  exact ⟨by decide, by decide, rfl⟩

end Invocation

end Ebpf
