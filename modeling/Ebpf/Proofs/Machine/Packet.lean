import Ebpf.Proofs.Machine.Arithmetic
import Ebpf.Proofs.Machine.Budget
import Ebpf.Proofs.Machine.Load

/-! # Packet loads

A packet load reads the context from the highest byte on, at an offset that the instruction names.
An ordinary load finds the same bytes at the address behind the start of the context, and a change
of byte order makes the two values equal. Where the packet load is refused, the ordinary load is
refused in the same way, unless its bytes lie in the stack.
-/

namespace Ebpf

open Assembly

def InStack (addr : UInt64) (len : Nat) : Prop :=
  stackBase ≤ addr.toNat ∧ addr.toNat + len ≤ stackBase + stackSize

namespace Memory

variable {m : Memory} {offset addr v : UInt64} {len : Nat}

/-- How a packet load at an offset compares with an ordinary load at an address. -/
structure PacketLoad (m : Memory) (offset addr : UInt64) (len : Nat) : Prop where
  ok_iff : (∃ v, m.loadPacket offset len = .ok v) ↔ offset.toNat + len ≤ m.context.size
  reversed : ∀ v, m.loadPacket offset len = .ok v →
    ∃ w, m.load addr len = .ok w ∧ Reversed len v w
  error : ∀ f, m.loadPacket offset len = .error f →
    f = .outOfBounds addr len ∧ (m.load addr len = .error f ↔ ¬ InStack addr len)

theorem packetAddress_eq (ha : addr.toNat = (contextBase + offset.toNat) % 2 ^ 64) :
    UInt64.ofNat contextBase + offset = addr := by
  apply UInt64.toNat_inj.mp
  rw [UInt64.toNat_add, ha]
  rfl

theorem load_of_packet (ha : addr.toNat = (contextBase + offset.toNat) % 2 ^ 64)
    (h : offset.toNat + len ≤ m.context.size) :
    m.load addr len = .ok (readLittle m.context offset.toNat len) := by
  have hcontext := m.context_le
  have hat : addr.toNat = contextBase + offset.toNat := by
    simp only [contextBase, maxContext] at *
    omega
  have hf : m.locate? addr len = some (.context, offset.toNat) := by
    unfold locate?
    dsimp only
    rw [if_pos (by omega), hat, Nat.add_sub_cancel_left]
  exact load_of_locate? hf

theorem load_eq_error_iff :
    m.load addr len = .error (.outOfBounds addr len) ↔ m.locate? addr len = none := by
  cases hf : m.locate? addr len with
  | none => simp only [load, hf]
  | some found => simp only [load_of_locate? hf, reduceCtorEq]

/-- An address that wraps around lies below the context. -/
theorem locate?_eq_none_iff_not_inStack (ha : addr.toNat = (contextBase + offset.toNat) % 2 ^ 64)
    (h : ¬ offset.toNat + len ≤ m.context.size) :
    m.locate? addr len = none ↔ ¬ InStack addr len := by
  have hlt := offset.toNat_lt
  unfold locate? InStack
  dsimp only
  rw [if_neg (by simp only [contextBase] at *; omega)]
  split
  · rename_i hs
    simp only [reduceCtorEq, hs, and_self, not_true_eq_false]
  · rename_i hs
    exact iff_of_true rfl hs

theorem loadPacket_eq_error (ha : addr.toNat = (contextBase + offset.toNat) % 2 ^ 64)
    (h : ¬ offset.toNat + len ≤ m.context.size) :
    m.loadPacket offset len = .error (.outOfBounds addr len) := by
  rw [loadPacket, if_neg h, packetAddress_eq ha]

theorem packetLoad (ha : addr.toNat = (contextBase + offset.toNat) % 2 ^ 64) (hlen : len ≤ 8) :
    m.PacketLoad offset addr len := by
  by_cases h : offset.toNat + len ≤ m.context.size
  · have hpacket : m.loadPacket offset len = .ok (readBig m.context offset.toNat len 0) := if_pos h
    refine ⟨⟨fun _ => h, fun _ => ⟨_, hpacket⟩⟩, ?_, ?_⟩
    · intro v hv
      cases hpacket.symm.trans hv
      exact ⟨_, load_of_packet ha h, reversed_read m.context offset.toNat hlen⟩
    · intro f hf
      cases hpacket.symm.trans hf
  · have hpacket := loadPacket_eq_error ha h
    refine ⟨⟨?_, fun hle => absurd hle h⟩, ?_, ?_⟩
    · rintro ⟨v, hv⟩
      cases hpacket.symm.trans hv
    · intro v hv
      cases hpacket.symm.trans hv
    · intro f hf
      cases hpacket.symm.trans hf
      exact ⟨rfl, load_eq_error_iff.trans (locate?_eq_none_iff_not_inStack ha h)⟩

end Memory

namespace Instruction

variable {i : Instruction} {regs : Registers} {offset a : UInt64} {size : AccessSize} {reg : UInt8}
  {s : State} {pc : Nat}

/-- The instruction is a packet load, which reads from this offset into the context. -/
def PacketOffset (i : Instruction) (regs : Registers) (offset : UInt64) : Prop :=
  i.cls = .ld ∧
    (i.mode? = some .absolute ∧ offset.toNat = wrap 64 i.imm.toInt ∨
      i.mode? = some .indirect ∧ ∃ base, regs.get? i.src = some base ∧
        offset.toNat = wrap 64 (base.toNat + i.imm.toInt))

/-- The instruction changes the byte order of a register at the width of a load. -/
structure Swaps (i : Instruction) (size : AccessSize) (reg : UInt8) : Prop where
  cls : i.cls = .alu
  operation : i.operation = 0xd0
  big : i.usesSource = true
  wide : size ≠ .byte
  bits : i.imm.toInt = 8 * size.bytes
  dst : i.dst = reg

theorem isWide_of_mode {mode : AccessMode} (h : i.mode? = some mode) (hne : mode ≠ .immediate) :
    i.isWide = false := by
  by_contra hw
  have hop : i.opcode = opLddw := eq_of_beq ((Bool.not_eq_false _).mp hw)
  rw [mode?, modeBits, hop] at h
  cases h
  exact hne rfl

theorem PacketOffset.eval_offsetQuery {m : Machine} (h : i.PacketOffset s.regs offset) (pc : Nat) :
    (i.offsetQuery pc).eval (m.answer pc s) = .ok offset := by
  unfold offsetQuery
  obtain ⟨-, ⟨hmode, ho⟩ | ⟨hmode, base, hbase, ho⟩⟩ := h
  · obtain rfl : i.immediate = offset := UInt64.toNat_inj.mp (by rw [toNat_immediate, ho])
    rw [hmode]
    rfl
  · obtain rfl : base + i.immediate = offset := by
      apply UInt64.toNat_inj.mp
      rw [ho, ← Int32.toInt_toInt64]
      exact toNat_add_toUInt64 base i.imm.toInt64
    rw [hmode]
    exact Query.eval_fetch_bind_of_ok (Machine.answer_of_get? hbase)

theorem PacketOffset.isWide (h : i.PacketOffset regs offset) : i.isWide = false := by
  obtain ⟨-, ⟨hmode, -⟩ | ⟨hmode, -⟩⟩ := h
  · exact isWide_of_mode hmode nofun
  · exact isWide_of_mode hmode nofun

theorem changeByteOrder_of_bits {bits : Int32} (hs : size ≠ .byte)
    (hbits : bits.toInt = 8 * size.bytes) (a : UInt64) :
    changeByteOrder a bits true = some (reverseBytes size.bytes a 0) := by
  cases size with
  | byte => exact absurd rfl hs
  | half =>
    obtain rfl : bits = 16 := Int32.toInt_inj.mp hbits
    rfl
  | word =>
    obtain rfl : bits = 32 := Int32.toInt_inj.mp hbits
    rfl
  | double =>
    obtain rfl : bits = 64 := Int32.toInt_inj.mp hbits
    rfl

end Instruction

namespace Machine

variable {m : Machine} {s : State} {i j k : Instruction} {offset addr v w : UInt64}
  {size : AccessSize} {reg : UInt8}

theorem effect_of_packetOffset (h : i.PacketOffset s.regs offset) (pc : Nat) : m.effect i pc s =
    ((s.memory.loadPacket offset i.size.bytes).map (.write 0)).mapError .fault := by
  have hquery : m.query i pc = i.packetQuery pc := by
    simp only [query, h.1, h.isWide, Bool.false_eq_true, if_false]
  rw [effect, hquery, Instruction.packetQuery, Query.eval_bind, h.eval_offsetQuery]
  exact Query.eval_fetch_map _

theorem step_of_packetOffset (hi : m.instruction? s = some i) (h : i.PacketOffset s.regs offset)
    (hv : s.memory.loadPacket offset i.size.bytes = .ok v) :
    m.step s = .next { s.fetched with regs := s.regs.set 0 v } := by
  have he := effect_of_packetOffset (m := m) h s.pc
  rw [hv] at he
  exact step_of_ok hi he

theorem step_of_packetOffset_error {f : Fault} (hi : m.instruction? s = some i)
    (h : i.PacketOffset s.regs offset) (hf : s.memory.loadPacket offset i.size.bytes = .error f) :
    m.step s = .trap (.fault f) s.fetched := by
  have he := effect_of_packetOffset (m := m) h s.pc
  rw [hf] at he
  exact step_of_error hi he

theorem effect_of_swaps (h : k.Swaps size reg) (ha : s.regs.get? reg = some w) (pc : Nat) :
    m.effect k pc s = .ok (.write reg (reverseBytes size.bytes w 0)) := by
  obtain rfl := h.dst
  have hop : k.aluOperation? = some .byteOrder := by
    rw [Instruction.aluOperation?, h.operation]
    rfl
  rw [effect_of_alu (Or.inl h.cls), Instruction.aluQuery,
    Query.eval_fetch_bind_of_ok (answer_of_get? ha), hop]
  dsimp only
  rw [if_pos h.cls, h.big, Instruction.changeByteOrder_of_bits h.wide h.bits]
  rfl

theorem step_of_swaps (hi : m.instruction? s = some k) (h : k.Swaps size reg)
    (ha : s.regs.get? reg = some w) (hreg : reg < framePointer) : m.step s =
      .next { s.fetched with regs := s.regs.set reg (reverseBytes size.bytes w 0) } := by
  rw [step_of_ok hi (effect_of_swaps h ha s.pc)]
  exact if_pos hreg

end Machine

/-- Every load at the address, with the matching change of byte order behind it, leaves the word `v`
in its register. -/
def Memory.YieldsSwapped (memory : Memory) (size : AccessSize) (addr v : UInt64) : Prop :=
  ∀ (m : Machine) (s : State) (j k : Instruction), s.memory = memory →
    m.instruction? s = some j → j.Loads s.regs size addr →
    m.code[s.pc + 1]?.map .decode = some k → k.Swaps size j.dst →
    ∃ t, m.after 2 s = some t ∧ t.regs.get? j.dst = some v

theorem Memory.yieldsSwapped_of_load {memory : Memory} {size : AccessSize} {addr w : UInt64}
    (h : memory.load addr size.bytes = .ok w) :
    memory.YieldsSwapped size addr (reverseBytes size.bytes w 0) := by
  rintro m s j k rfl hj hloads hk hswaps
  have hfirst := Machine.step_of_loads hj hloads h
  have hloaded : (s.regs.set j.dst w).get? j.dst = some w :=
    s.regs.get?_set_self hloads.dst
  generalize hu : ({ s.fetched with regs := s.regs.set j.dst w } : State) = u at hfirst
  have hsecond : m.step u = .next { u.fetched with
      regs := u.regs.set j.dst (reverseBytes size.bytes w 0) } := by
    subst hu
    exact Machine.step_of_swaps hk hswaps hloaded hloads.dst
  have hafter : m.after 2 s = some { u.fetched with
      regs := u.regs.set j.dst (reverseBytes size.bytes w 0) } := by
    simp only [Machine.after, hfirst, hsecond]
  exact ⟨_, hafter, u.regs.get?_set_self hloads.dst⟩

namespace Machine

/-- A packet load succeeds exactly if its bytes lie in the context. An ordinary load of the same
bytes succeeds too, and the two values have each other's bytes in reverse order; as instructions
they agree once the byte order of the second is changed. Otherwise the packet load is out of bounds
at the address of its bytes, and so is the ordinary load unless it finds them in the stack. -/
theorem packet_load_exact (memory : Memory) (offset addr : UInt64)
    (ha : addr.toNat = (contextBase + offset.toNat) % 2 ^ 64) :
    (∀ len ≤ 8, memory.PacketLoad offset addr len) ∧
    ∀ (m : Machine) (s : State) (i : Instruction), s.memory = memory →
      m.instruction? s = some i → i.PacketOffset s.regs offset →
      (offset.toNat + i.size.bytes ≤ memory.context.size →
        ∃ v, memory.loadPacket offset i.size.bytes = .ok v ∧
          m.step s = .next { s.fetched with regs := s.regs.set 0 v } ∧
          memory.YieldsSwapped i.size addr v) ∧
      (¬ offset.toNat + i.size.bytes ≤ memory.context.size →
        m.step s = .trap (.fault (.outOfBounds addr i.size.bytes)) s.fetched) := by
  refine ⟨fun len hlen => Memory.packetLoad ha hlen, ?_⟩
  rintro m s i rfl hi hp
  constructor
  · intro hle
    have hpacket : s.memory.loadPacket offset i.size.bytes = .ok _ := if_pos hle
    refine ⟨_, hpacket, step_of_packetOffset hi hp hpacket, ?_⟩
    rw [← reverseBytes_readLittle _ _ i.size.bytes_le]
    exact Memory.yieldsSwapped_of_load (Memory.load_of_packet ha hle)
  · intro hgt
    exact step_of_packetOffset_error hi hp (Memory.loadPacket_eq_error ha hgt)

/-- A packet load of two bytes from behind R1, an ordinary load of the same bytes from R3 with the
change of byte order, and a packet load that begins in the context and ends behind it. -/
def swapping : Machine := ofCode
  #[ldind AccessSize.half.bits 1 (-1), ldx AccessSize.half.bits 2 3 1, endian 2 16 true,
    ldabs AccessSize.word.bits 2]
  .empty .empty

def swappingState (pc : Nat) : State where
  regs := ((Registers.initial stackTop).set 1 2).set 3 (.ofNat contextBase)
  memory := { Memory.blank with context := #[0x12, 0x34, 0x56, 0x78], context_le := by decide }
  pc
  steps := 0

theorem packet_load_exact_swapping :
    swapping.step (swappingState 0) = .next { (swappingState 0).fetched with
      regs := (swappingState 0).regs.set 0 0x3456 } ∧
    (∃ t, swapping.after 2 (swappingState 1) = some t ∧ t.regs.get? 2 = some 0x3456) ∧
    swapping.step (swappingState 3) =
      .trap (.fault (.outOfBounds 0x10000002 4)) (swappingState 3).fetched := by
  have hcontext (pc : Nat) : (swappingState pc).memory = (swappingState 0).memory := rfl
  obtain ⟨-, h⟩ := packet_load_exact (swappingState 0).memory 1 0x10000001 rfl
  obtain ⟨hin, -⟩ := h swapping (swappingState 0) _ rfl rfl
    ⟨rfl, Or.inr ⟨rfl, 2, rfl, rfl⟩⟩
  obtain ⟨v, hv, hstep, hyields⟩ := hin (by decide)
  obtain rfl : v = 0x3456 := Except.ok.inj (hv.symm.trans rfl)
  refine ⟨hstep, ?_, ?_⟩
  · exact hyields swapping (swappingState 1) _ _ (hcontext 1) rfl
      ⟨rfl, rfl, rfl, ⟨_, rfl, rfl⟩, by decide⟩ rfl ⟨rfl, rfl, rfl, nofun, rfl, rfl⟩
  · obtain ⟨-, h⟩ := packet_load_exact (swappingState 0).memory 2 0x10000002 rfl
    obtain ⟨-, hout⟩ := h swapping (swappingState 3) _ (hcontext 3) rfl ⟨rfl, Or.inl ⟨rfl, rfl⟩⟩
    exact hout (by decide)

end Machine

end Ebpf
