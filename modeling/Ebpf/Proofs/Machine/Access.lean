import Ebpf.Proofs.Machine.Registers
import Ebpf.Proofs.Machine.Step

/-! # The places an instruction uses

An instruction reads the places that its query asks for, and then writes or jumps. A place that does
not exist ends the query with the fault that names it, and a write or a jump to such a place is
refused in the same way, so no place out of range is ever used.
-/

namespace Ebpf

def Region.base : Region → Nat
  | context => contextBase
  | stack => stackBase

def Memory.bytes (m : Memory) : Region → Array UInt8
  | .context => m.context
  | .stack => m.stack

namespace Place

def InRange (m : Machine) (s : State) : Place → Prop
  | register reg => reg.toNat < registerCount
  | slot pc => pc < m.code.size
  | bytes addr len => ∃ region start,
      addr.toNat = region.base + start ∧ start + len ≤ (s.memory.bytes region).size
  | packet offset len => offset.toNat + len ≤ s.memory.context.size

/-- The fault of the instruction at `pc` if it reads the place and there is no such place. -/
def fault (pc : Nat) : Place → Fault
  | register reg => .invalidRegister reg pc
  | slot pc => .pcOutOfRange pc
  | bytes addr len => .outOfBounds addr len
  | packet offset len => .outOfBounds (UInt64.ofNat contextBase + offset) len

end Place

/-- What an instruction does with a place. -/
inductive Access where
  | read (place : Place)
  | write (reg : UInt8)
  | store (addr : UInt64) (len : Nat)
  | target (pc : Int)

namespace Access

/-- The place exists and may be used in this way. -/
def InRange (m : Machine) (s : State) : Access → Prop
  | read place => place.InRange m s
  | write reg => reg < framePointer
  | store addr len => (Place.bytes addr len).InRange m s
  | target pc => 0 ≤ pc ∧ pc ≤ m.code.size

def fault (pc : Nat) : Access → Fault
  | read place => place.fault pc
  | write reg => .invalidRegister reg pc
  | store addr len => .outOfBounds addr len
  | target pc => .pcOutOfRange pc.toNat

end Access

theorem Memory.locate?_eq_some {m : Memory} {addr : UInt64} {len start : Nat} {region : Region}
    (h : m.locate? addr len = some (region, start)) :
    addr.toNat = region.base + start ∧ start + len ≤ (m.bytes region).size := by
  unfold locate? at h
  dsimp only at h
  split at h
  · cases h
    simp only [Region.base, bytes]
    omega
  · split at h
    · cases h
      simp only [Region.base, bytes, m.stack_size]
      omega
    · cases h

theorem Memory.exists_locate?_iff {m : Memory} {addr : UInt64} {len : Nat} :
    (∃ found, m.locate? addr len = some found) ↔ ∃ region start,
      addr.toNat = region.base + start ∧ start + len ≤ (m.bytes region).size := by
  constructor
  · rintro ⟨⟨region, start⟩, h⟩
    exact ⟨region, start, locate?_eq_some h⟩
  · rintro ⟨region, start, ha, hle⟩
    unfold locate?
    dsimp only
    cases region with
    | context =>
      simp only [Region.base, bytes] at ha hle
      exact ⟨_, if_pos (by omega)⟩
    | stack =>
      simp only [Region.base, bytes, m.stack_size] at ha hle
      split
      · exact ⟨_, rfl⟩
      · exact ⟨_, if_pos (by omega)⟩

theorem Memory.size_context_write (m : Memory) (region : Region) (start len : Nat)
    (value : UInt64) : (m.write region start len value).context.size = m.context.size := by
  cases region with
  | context => exact size_writeLittle ..
  | stack => rfl

theorem Place.locate?_of_not_inRange {m : Machine} {s : State} {addr : UInt64} {len : Nat}
    (h : ¬ (bytes addr len).InRange m s) : s.memory.locate? addr len = none :=
  Option.eq_none_iff_forall_ne_some.mpr fun found hf =>
    h (Memory.exists_locate?_iff.mp ⟨found, hf⟩)

namespace Query

variable {α : Type} {answer : Place → Except Fault UInt64}

/-- The places that a query asks for, in order, up to the first that gives no answer. -/
def trace (answer : Place → Except Fault UInt64) : Query α → List Place
  | done _ | fail _ => []
  | ask place next =>
    place :: match answer place with
      | .ok value => (next value).trace answer
      | .error _ => []

/-- What stands anywhere else makes no difference to a query. -/
theorem eval_eq_of_trace {answer' : Place → Except Fault UInt64} {q : Query α}
    (h : ∀ place ∈ q.trace answer, answer' place = answer place) :
    q.eval answer' = q.eval answer := by
  induction q with
  | done a => rfl
  | fail cause => rfl
  | ask place next ih =>
    rw [trace] at h
    obtain ⟨hplace, hnext⟩ := List.forall_mem_cons.mp h
    rw [eval, eval, hplace]
    cases hv : answer place with
    | ok value =>
      rw [hv] at hnext
      exact ih value hnext
    | error f => rfl

/-- A query stops with the fault of the first place that gives no answer. -/
theorem eval_of_mem_trace {q : Query α} {place : Place} {f : Fault} (ha : place ∈ q.trace answer)
    (hf : answer place = .error f) : q.eval answer = .error (.fault f) := by
  induction q with
  | done | fail => cases ha
  | ask other next ih =>
    rw [trace] at ha
    rw [eval]
    rcases List.mem_cons.mp ha with rfl | ha
    · rw [hf]
    · cases hv : answer other with
      | ok value =>
        rw [hv] at ha
        exact ih value ha
      | error g =>
        rw [hv] at ha
        cases ha

end Query

/-- The places that an effect writes or jumps to, given the counter behind the fetch. -/
def Effect.accesses (pc : Nat) : Effect → List Access
  | .keep | .exit _ => []
  | .write reg _ | .writeWide reg _ => [.write reg]
  | .store addr len _ => [.store addr len]
  | .jump off => [.target (pc + off.toInt)]
  | .call _ helper _ => if helper.signature.returns then [.write 0] else []

namespace Machine

variable {m : Machine} {s : State} {i : Instruction}

def accesses (m : Machine) (s : State) : List Access :=
  .read (.slot s.pc) :: match m.instruction? s with
    | none => []
    | some i => ((m.query i s.pc).trace (m.answer s.pc s)).map .read ++
      match m.effect i s.pc s with
      | .ok e => e.accesses (s.pc + 1)
      | .error _ => []

theorem mem_accesses_of_trace {place : Place} (h : m.instruction? s = some i)
    (hp : place ∈ (m.query i s.pc).trace (m.answer s.pc s)) : .read place ∈ m.accesses s := by
  rw [accesses, h]
  exact List.mem_cons_of_mem _ (List.mem_append_left _ (List.mem_map_of_mem hp))

theorem answer_of_not_inRange {place : Place} (h : ¬ place.InRange m s) (pc : Nat) :
    m.answer pc s place = .error (place.fault pc) := by
  cases place with
  | register reg =>
    have hnone : s.regs.get? reg = none := Vector.getElem?_eq_none (Nat.le_of_not_lt h)
    rw [answer, Registers.read, hnone]
    rfl
  | slot slot =>
    have hnone : m.code[slot]? = none := Array.getElem?_eq_none (Nat.le_of_not_lt h)
    rw [answer, hnone]
    rfl
  | bytes addr len =>
    rw [answer, Memory.load, Place.locate?_of_not_inRange h]
    rfl
  | packet offset len => exact if_neg h

theorem commit_of_not_inRange {e : Effect} {a : Access} (ha : a ∈ e.accesses (s.pc + 1))
    (h : ¬ a.InRange m s) : ∃ u, m.commit s.fetched s.pc e = .trap (.fault (a.fault s.pc)) u := by
  cases e with
  | keep | exit value => cases ha
  | write reg value | writeWide reg value =>
    cases List.mem_singleton.mp ha
    exact ⟨_, if_neg h⟩
  | store addr len value =>
    cases List.mem_singleton.mp ha
    have hnone : s.fetched.memory.locate? addr len = none :=
      Place.locate?_of_not_inRange (m := m) h
    exact ⟨_, by rw [commit, hnone]; rfl⟩
  | jump off =>
    cases List.mem_singleton.mp ha
    refine ⟨_, if_pos ?_⟩
    simp only [Access.InRange] at h
    simp only [State.fetched]
    omega
  | call id helper args =>
    -- R0 can always be written.
    rw [Effect.accesses] at ha
    split at ha
    · cases List.mem_singleton.mp ha
      exact absurd (by decide : (0 : UInt8) < framePointer) h
    · cases ha

theorem step_of_not_inRange {a : Access} (ha : a ∈ m.accesses s) (h : ¬ a.InRange m s) :
    ∃ u, m.step s = .trap (.fault (a.fault s.pc)) u := by
  cases hi : m.instruction? s with
  | none =>
    rw [accesses, hi] at ha
    cases List.mem_singleton.mp ha
    exact ⟨_, step_of_none hi⟩
  | some i =>
    rw [accesses, hi] at ha
    rcases List.mem_cons.mp ha with rfl | ha
    · exact absurd (pc_lt_of_instruction? hi) h
    · rcases List.mem_append.mp ha with ha | ha
      · obtain ⟨place, hplace, rfl⟩ := List.mem_map.mp ha
        exact ⟨_, step_of_error hi (Query.eval_of_mem_trace hplace (answer_of_not_inRange h s.pc))⟩
      · cases he : m.effect i s.pc s with
        | error cause => rw [he] at ha; cases ha
        | ok e =>
          rw [he] at ha
          rw [step_of_ok hi he]
          exact commit_of_not_inRange ha h

end Machine

end Ebpf
