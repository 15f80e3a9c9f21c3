import Ebpf.Proofs.Arithmetic
import Ebpf.Proofs.Codec

/-! # The fields of a word

Each word has exactly one list of fields, and each list of fields whose register numbers have four
bits is that of exactly one word. So decoding loses no bit, and no field that is encoded, negative
or not, reaches into another one.
-/

namespace Ebpf.Instruction

/-- The fields are the digits of the word from its low end: the opcode two hexadecimal digits, the
register numbers one each, the offset four and the immediate eight, the last two in two's
complement. -/
structure FieldsOf (i : Instruction) (word : UInt64) : Prop where
  dst : i.dst.toNat < 16
  src : i.src.toNat < 16
  toNat : word.toNat = i.opcode.toNat + 2 ^ 8 * i.dst.toNat + 2 ^ 12 * i.src.toNat +
    2 ^ 16 * wrap 16 i.off.toInt + 2 ^ 32 * wrap 32 i.imm.toInt

variable {i j : Instruction} {w w' : UInt64}

theorem wrap_off (i : Instruction) : wrap 16 i.off.toInt = i.off.toUInt16.toNat :=
  wrap_toInt i.off.toBitVec

theorem wrap_imm (i : Instruction) : wrap 32 i.imm.toInt = i.imm.toUInt32.toNat :=
  wrap_toInt i.imm.toBitVec

theorem and_fifteen (r : UInt8) : r &&& 0x0f = r % 16 := by
  apply UInt8.toNat_inj.mp
  rw [toNat_and_fifteen, UInt8.toNat_mod]
  rfl

theorem fieldsOf_decode (w : UInt64) : (decode w).FieldsOf w := by
  have hlt := w.toNat_lt
  have hdst := toNat_dst_decode w
  have hsrc := toNat_src_decode w
  refine ⟨by omega, by omega, ?_⟩
  rw [wrap_off, wrap_imm, toNat_opcode_decode, hdst, hsrc, toNat_off_decode, toNat_imm_decode]
  omega

theorem FieldsOf.unique (hi : i.FieldsOf w) (hj : j.FieldsOf w) : i = j := by
  have hw := hi.toNat.symm.trans hj.toNat
  have hopi := i.opcode.toNat_lt
  have hopj := j.opcode.toNat_lt
  have hoffi := i.off.toUInt16.toNat_lt
  have hoffj := j.off.toUInt16.toNat_lt
  have hdsti := hi.dst
  have hdstj := hj.dst
  have hsrci := hi.src
  have hsrcj := hj.src
  rw [wrap_off, wrap_imm, wrap_off, wrap_imm] at hw
  have hop : i.opcode.toNat = j.opcode.toNat := by omega
  have hdst : i.dst.toNat = j.dst.toNat := by omega
  have hsrc : i.src.toNat = j.src.toNat := by omega
  have hoff : i.off.toUInt16.toNat = j.off.toUInt16.toNat := by omega
  have himm : i.imm.toUInt32.toNat = j.imm.toUInt32.toNat := by omega
  rw [Instruction.mk.injEq]
  exact ⟨UInt8.toNat_inj.mp hop, UInt8.toNat_inj.mp hdst, UInt8.toNat_inj.mp hsrc,
    toInt16_inj hoff, toInt32_inj himm⟩

theorem decode_eq_iff : decode w = i ↔ i.FieldsOf w := by
  constructor
  · rintro rfl
    exact fieldsOf_decode w
  · exact (fieldsOf_decode w).unique

theorem FieldsOf.word_unique (h : i.FieldsOf w) (h' : i.FieldsOf w') : w = w' :=
  UInt64.toNat_inj.mp (h.toNat.trans h'.toNat.symm)

theorem decode_word (opcode dst src : UInt8) (off : Int16) (imm : Int32) :
    decode (Assembly.word opcode dst src off imm) = ⟨opcode, dst % 16, src % 16, off, imm⟩ := by
  rw [Assembly.word, decode_encode, and_fifteen, and_fifteen]

theorem fieldsOf_encode (hdst : i.dst.toNat < 16) (hsrc : i.src.toNat < 16) :
    i.FieldsOf (encode i) := by
  refine ⟨hdst, hsrc, ?_⟩
  rw [toNat_encode, Nat.mod_eq_of_lt hdst, Nat.mod_eq_of_lt hsrc, wrap_off, wrap_imm]

theorem encode_decode (w : UInt64) : encode (decode w) = w := by
  have h := fieldsOf_decode w
  exact (fieldsOf_encode h.dst h.src).word_unique h

theorem decode_injective : Function.Injective decode :=
  Function.LeftInverse.injective encode_decode

theorem decode_call (id : UInt32) : decode (Assembly.call id) = ⟨opCall, 0, 0, 0, id.toInt32⟩ :=
  decode_word opCall 0 0 0 id.toInt32

/-- Decoding finds the fields of a word, and encoding puts the word together again. Fields that are
encoded come back with their signs, register numbers without the bits above the fourth. Words with
the same fields are the same word, and a call gives back its identifier, whatever its top bit is. -/
theorem codec_exact :
    (∀ (w : UInt64) (i : Instruction), decode w = i ↔ i.FieldsOf w) ∧
    (∀ w : UInt64, encode (decode w) = w) ∧
    (∀ (opcode dst src : UInt8) (off : Int16) (imm : Int32),
      decode (Assembly.word opcode dst src off imm) = ⟨opcode, dst % 16, src % 16, off, imm⟩) ∧
    (∀ w w' : UInt64, w = w' ↔ decode w = decode w') ∧
    ∀ id : UInt32, (decode (Assembly.call id)).isHelperCall = true ∧
      (decode (Assembly.call id)).helperId = id := by
  refine ⟨fun w i => decode_eq_iff, encode_decode, decode_word, ?_, fun id => ?_⟩
  · intro w w'
    exact decode_injective.eq_iff.symm
  · rw [decode_call]
    exact ⟨rfl, UInt32.toUInt32_toInt32 id⟩

/-- Neither a negative offset nor a register number above 15 changes another field. -/
example : decode (Assembly.word 0xbf 0x16 1 (-2) 0x12345678) = ⟨0xbf, 6, 1, -2, 0x12345678⟩ := by
  decide

end Ebpf.Instruction
