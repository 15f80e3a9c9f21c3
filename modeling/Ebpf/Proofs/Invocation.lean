import Ebpf.Instruction.Assembly
import Ebpf.Proofs.Machine.Start

/-! # Sequences of calls on an invocation

A host may bind and run in any order and as often as it likes. The first bind decides: it prepares a
machine or ends the invocation, the first run after it ends the invocation in any case, and what
comes then changes nothing. So a program is interpreted at most once, and the outcome is the one of
`invoke` with the arguments that were bound first.
-/

namespace Ebpf

def Status.outcome? : Status → Option (Except Trap (Option UInt64))
  | returned value => some (.ok value)
  | trapped cause => some (.error cause)
  | _ => none

namespace Invocation

inductive Call where
  | bind (args : List UInt64)
  | run
  deriving DecidableEq

def Call.arguments? : Call → Option (List UInt64)
  | bind args => some args
  | run => none

def call (inv : Invocation) : Call → Invocation
  | .bind args => (inv.bind args).2
  | .run => inv.run.2

def calls (inv : Invocation) (cs : List Call) : Invocation := cs.foldl call inv

/-- The machine that a run launches, with the state it starts from, if it comes to that. -/
def launched (inv : Invocation) : List (Machine × State) :=
  if inv.status = .argsBound then inv.launch.1.toOption.toList else []

/-- The machines that a sequence of calls interprets. -/
def interpreted (inv : Invocation) : List Call → List (Machine × State)
  | [] => []
  | c :: cs => (if c = .run then inv.launched else []) ++ (inv.call c).interpreted cs

variable {program : Program} {table : HelperTable} {settings : Settings}
variable {inv next : Invocation} {args : List UInt64} {cause : Trap}
variable {outcome : Except Trap (Option UInt64)}

theorem launched_of_status_ne (h : inv.status ≠ .argsBound) : inv.launched = [] := if_neg h

theorem length_launched_le (inv : Invocation) : inv.launched.length ≤ 1 := by
  unfold launched
  split
  · exact Option.length_toList_le
  · exact Nat.zero_le 1

theorem bind_of_status_ne (h : inv.status ≠ .ready) :
    inv.bind args = (.error (inv.refuse "bind"), inv) := if_neg h

theorem bind_eq_ok (h : inv.bind args = (.ok (), next)) :
    next.status = .argsBound ∧ ∃ prepared, next.prepared = some prepared := by
  unfold bind at h
  split at h
  · split at h
    · rename_i prepared left _
      cases h
      exact ⟨rfl, prepared, rfl⟩
    · cases h
  · cases h

theorem bind_eq_error (hr : inv.status = .ready) (h : inv.bind args = (.error cause, next)) :
    next.status = .trapped cause := by
  unfold bind at h
  rw [if_pos hr] at h
  split at h
  · cases h
  · cases h
    rfl

theorem run_of_ready (h : inv.status = .ready) : inv.run = (.error (inv.refuse "run"), inv) := by
  unfold run
  rw [h]

theorem run_of_outcome? (h : inv.status.outcome? = some outcome) : inv.run = (outcome, inv) := by
  unfold run
  cases hs : inv.status with
  | returned value => rw [hs] at h; cases h; rfl
  | trapped cause => rw [hs] at h; cases h; rfl
  | _ => rw [hs] at h; cases h

theorem conclude_outcome? (machine : Machine) (s : State) :
    (inv.conclude machine s).2.status.outcome? = some (inv.conclude machine s).1 := by
  unfold conclude
  split <;> rfl

theorem launch_eq_error {prepared : Machine × State} (hp : inv.prepared = some prepared)
    (h : inv.launch = (.error cause, next)) : next.status = .trapped cause := by
  unfold launch at h
  split at h
  · cases h
    rfl
  · rw [hp] at h
    cases h

theorem run_of_argsBound {prepared : Machine × State} (hs : inv.status = .argsBound)
    (hp : inv.prepared = some prepared) : inv.run.2.status.outcome? = some inv.run.1 := by
  unfold run
  rw [hs]
  dsimp only
  split
  · exact conclude_outcome? _ _
  · rename_i cause next h
    rw [launch_eq_error hp h]
    rfl

theorem call_of_outcome? (h : inv.status.outcome? = some outcome) (c : Call) :
    inv.call c = inv := by
  cases c with
  | bind args =>
    have hne : inv.status ≠ .ready := fun hr => by rw [hr] at h; cases h
    rw [call, bind_of_status_ne hne]
  | run => rw [call, run_of_outcome? h]

theorem calls_of_outcome? (h : inv.status.outcome? = some outcome) (cs : List Call) :
    inv.calls cs = inv := by
  induction cs with
  | nil => rfl
  | cons c cs ih => rw [calls, List.foldl_cons, call_of_outcome? h]; exact ih

theorem interpreted_of_outcome? (h : inv.status.outcome? = some outcome) (cs : List Call) :
    inv.interpreted cs = [] := by
  induction cs with
  | nil => rfl
  | cons c cs ih =>
    have hne : inv.status ≠ .argsBound := fun hs => by rw [hs] at h; cases h
    rw [interpreted, launched_of_status_ne hne, ite_self, call_of_outcome? h, ih]
    rfl

/-- What calls can have made of a new invocation, by the arguments of the first bind among them. -/
inductive Stage (program : Program) (table : HelperTable) (settings : Settings) :
    Option (List UInt64) → Invocation → Prop
  | ready : Stage program table settings none (new program table settings)
  | bound {args : List UInt64} {inv : Invocation}
      (h : (new program table settings).bind args = (.ok (), inv)) :
      Stage program table settings (some args) inv
  | ended {args : List UInt64} {inv : Invocation}
      (h : inv.status.outcome? = some (invoke program args table settings)) :
      Stage program table settings (some args) inv

variable {first : Option (List UInt64)}

theorem Stage.call (h : Stage program table settings first inv) (c : Call) :
    Stage program table settings (first.or c.arguments?) (inv.call c) := by
  cases h with
  | ready =>
    cases c with
    | bind args =>
      rcases hb : (new program table settings).bind args with ⟨⟨cause⟩ | ⟨⟨⟩⟩, next⟩
      · have hi : invoke program args table settings = .error cause := by
          rw [invoke, hb]
        have hs := bind_eq_error rfl hb
        refine .ended ?_
        rw [Invocation.call, hb, hs, hi]
        rfl
      · refine .bound ?_
        rw [hb, Invocation.call, hb]
    | run =>
      rw [Invocation.call, run_of_ready rfl]
      exact .ready
  | @bound args inv h =>
    obtain ⟨hs, prepared, hp⟩ := bind_eq_ok h
    cases c with
    | bind other =>
      rw [Invocation.call, bind_of_status_ne (by rw [hs]; exact nofun)]
      exact .bound h
    | run =>
      refine .ended ?_
      rw [Invocation.call, run_of_argsBound hs hp, invoke, h]
  | ended h =>
    rw [call_of_outcome? h]
    exact .ended h

theorem Stage.calls (h : Stage program table settings first inv) (cs : List Call) :
    Stage program table settings (first.or (cs.findSome? Call.arguments?)) (inv.calls cs) := by
  induction cs generalizing first inv with
  | nil => rwa [List.findSome?_nil, Option.or_none]
  | cons c cs ih =>
    have hfirst : (c :: cs).findSome? Call.arguments?
        = c.arguments?.or (cs.findSome? Call.arguments?) := by
      rw [List.findSome?_cons]
      cases c.arguments? <;> rfl
    rw [hfirst, ← Option.or_assoc]
    exact ih (h.call c)

theorem Stage.status_ne (h : Stage program table settings first inv) : inv.status ≠ .running := by
  intro hs
  cases h with
  | ready => cases hs
  | bound h => cases hs.symm.trans (bind_eq_ok h).1
  | ended h => rw [hs] at h; cases h

theorem Stage.eq_new (h : Stage program table settings first inv) (hs : inv.status = .ready) :
    inv = new program table settings := by
  cases h with
  | ready => rfl
  | bound h => cases hs.symm.trans (bind_eq_ok h).1
  | ended h => rw [hs] at h; cases h

theorem Stage.prepared (h : Stage program table settings first inv) (hs : inv.status = .argsBound) :
    ∃ prepared, inv.prepared = some prepared := by
  cases h with
  | ready => cases hs
  | bound h => exact (bind_eq_ok h).2
  | ended h => rw [hs] at h; cases h

theorem Stage.outcome_eq (h : Stage program table settings first inv)
    (ho : inv.status.outcome? = some outcome) :
    ∃ args, first = some args ∧ outcome = invoke program args table settings := by
  cases h with
  | ready => cases ho
  | bound h => rw [(bind_eq_ok h).1] at ho; cases ho
  | @ended args _ h => exact ⟨args, rfl, Option.some.inj (ho.symm.trans h)⟩

theorem Stage.length_interpreted_le (h : Stage program table settings first inv)
    (cs : List Call) : (inv.interpreted cs).length ≤ 1 := by
  induction cs generalizing first inv with
  | nil => exact Nat.zero_le 1
  | cons c cs ih =>
    rw [interpreted]
    by_cases hlog : (if c = .run then inv.launched else []) = []
    · rw [hlog]
      exact ih (h.call c)
    · -- The call is a run that ends the invocation, so no later call interprets anything.
      obtain rfl : c = .run := Decidable.not_not.mp fun hc => hlog (if_neg hc)
      have hs : inv.status = .argsBound := Decidable.not_not.mp fun hne =>
        hlog (launched_of_status_ne hne)
      obtain ⟨prepared, hp⟩ := h.prepared hs
      rw [Invocation.call, interpreted_of_outcome? (run_of_argsBound hs hp), List.append_nil]
      exact length_launched_le inv

/-- The laws of an invocation that has answered a sequence of calls. -/
structure Lawful (program : Program) (table : HelperTable) (settings : Settings)
    (cs : List Call) (inv : Invocation) : Prop where
  status_ne : inv.status ≠ .running
  eq_new : inv.status = .ready → inv = new program table settings
  prepared : inv.status = .argsBound → ∃ prepared, inv.prepared = some prepared
  run_ready : inv.status = .ready →
    inv.run = (.error (.fault (.invalidTransition "cannot run in state Ready")), inv)
  bind_later : ∀ args, inv.status ≠ .ready →
    inv.bind args = (.error (.fault (.invalidTransition
      s!"cannot bind in state {inv.status.inspect}")), inv)
  calls_ended : ∀ outcome, inv.status.outcome? = some outcome →
    ∀ more, inv.calls more = inv ∧ (inv.calls more).run.1 = outcome
  outcome_eq : ∀ outcome, inv.status.outcome? = some outcome →
    ∃ args, cs.findSome? Call.arguments? = some args ∧
      outcome = invoke program args table settings
  interpreted_le : ((new program table settings).interpreted cs).length ≤ 1

/-- A new invocation keeps the laws under every sequence of calls. -/
theorem lawful_of_calls (program : Program) (table : HelperTable) (settings : Settings)
    (cs : List Call) :
    Lawful program table settings cs ((new program table settings).calls cs) := by
  have hnew : Stage program table settings none (new program table settings) := .ready
  have hstage := hnew.calls cs
  rw [Option.none_or] at hstage
  exact {
    status_ne := hstage.status_ne
    eq_new := hstage.eq_new
    prepared := hstage.prepared
    run_ready := fun hs => (run_of_ready hs).trans (by rw [refuse, hs]; rfl)
    bind_later := fun args hs => bind_of_status_ne hs
    calls_ended := fun outcome ho more => by
      rw [calls_of_outcome? ho, run_of_outcome? ho]
      exact ⟨rfl, rfl⟩
    outcome_eq := fun outcome ho => hstage.outcome_eq ho
    interpreted_le := hnew.length_interpreted_le cs }

def exiting : Program := (Machine.ofCode #[Assembly.exit] .empty .empty).program

theorem lawful_exiting :
    ((new exiting .empty {}).calls [.run, .bind [], .bind [1], .run, .run]).status
      = .returned (some 0) ∧
    invoke exiting [] .empty {} = .ok (some 0) := by
  have hlaws := lawful_of_calls exiting .empty {} [.run, .bind [], .bind [1], .run, .run]
  have hs : ((new exiting .empty {}).calls [.run, .bind [], .bind [1], .run, .run]).status
      = .returned (some 0) := rfl
  obtain ⟨args, hargs, ho⟩ := hlaws.outcome_eq (.ok (some 0)) (by rw [hs]; rfl)
  cases hargs
  exact ⟨hs, ho.symm⟩

end Invocation

end Ebpf
