import Ebpf.Container.Flat
import Ebpf.Instruction.Assembly
import Ebpf.Invocation
import Ebpf.Proofs.Container.RoundTrip

/-! # Flat binaries

A flat binary is read exactly if it holds whole words and no more of them than a function may have.
The program that is read is the one that the container of its only function holds, so it makes no
difference in which of the two forms the function is kept.
-/

namespace Ebpf

variable {bytes : List UInt8} {words : List UInt64} {signature : Signature} {f : Function}
  {p : Program}

namespace Bytes

theorem length_ofWord (word : UInt64) : (ofWord word).length = 8 := length_ofNat 8 _

theorem toNat_ofWord (word : UInt64) : toNat (ofWord word) = word.toNat :=
  toNat_ofNat word.toNat_lt

theorem ofWord_ofNat {chunk : List UInt8} (h : chunk.length = 8) :
    ofWord (.ofNat (toNat chunk)) = chunk := by
  have hlt : toNat chunk < bound chunk.length := toNat_lt chunk
  rw [h] at hlt
  rw [ofWord, UInt64.toNat_ofNat_of_lt' hlt, ← h, ofNat_toNat]

theorem ofWords_cons (word : UInt64) (words : List UInt64) :
    ofWords (word :: words) = ofWord word ++ ofWords words := List.flatMap_cons

theorem length_ofWords (words : List UInt64) : (ofWords words).length = 8 * words.length := by
  induction words with
  | nil => rfl
  | cons word words ih =>
    rw [ofWords_cons, List.length_append, length_ofWord, ih, List.length_cons, Nat.mul_succ,
      Nat.add_comm]

theorem exists_ofWords (h : bytes.length % 8 = 0) : ∃ words, bytes = ofWords words := by
  obtain ⟨n, hn⟩ : ∃ n, bytes.length = 8 * n := Nat.dvd_of_mod_eq_zero h
  clear h
  induction n generalizing bytes with
  | zero => exact ⟨[], List.length_eq_zero_iff.mp hn⟩
  | succ n ih =>
    have htake : (bytes.take 8).length = 8 := List.length_take_of_le (by omega)
    have hdrop : (bytes.drop 8).length = 8 * n := by
      rw [List.length_drop]
      omega
    obtain ⟨words, hrest⟩ := ih hdrop
    refine ⟨.ofNat (toNat (bytes.take 8)) :: words, ?_⟩
    rw [ofWords_cons, ofWord_ofNat htake, ← hrest, List.take_append_drop]

end Bytes

namespace Container

open Bytes

theorem wordsOf_append {chunk : List UInt8} (h : chunk.length = 8) (rest : List UInt8) :
    wordsOf (chunk ++ rest) = .ofNat (toNat chunk) :: wordsOf rest := by
  match chunk, h with
  | [_, _, _, _, _, _, _, _], _ => rfl

theorem wordsOf_ofWords (words : List UInt64) : wordsOf (ofWords words) = words := by
  induction words with
  | nil => rfl
  | cons word words ih =>
    rw [ofWords_cons, wordsOf_append (length_ofWord word), toNat_ofWord, UInt64.ofNat_toNat, ih]

theorem single_eq_ok_iff : Program.single f = .ok p ↔
    f.code.size ≤ maxSlots ∧ p.functions = [f] ∧ p.imports = .empty := by
  rw [Program.single, Program.build_eq_ok_iff]
  constructor
  · rintro ⟨hsize, -, hf, hi⟩
    exact ⟨hsize f List.mem_cons_self, hf, IdMap.ext_get? hi⟩
  · rintro ⟨hsize, hf, hi⟩
    refine ⟨fun g hg => List.mem_singleton.mp hg ▸ hsize, nofun, hf, fun id => ?_⟩
    rw [hi]
    rfl

theorem readFlat_eq_ok_iff : readFlat bytes signature = .ok p ↔
    bytes.length % 8 = 0 ∧ bytes.length / 8 ≤ maxSlots ∧
      Program.single ⟨flatEntryName, signature, (wordsOf bytes).toArray⟩ = .ok p := by
  unfold readFlat
  simp only [guard_eq_ok_iff, ne_eq, Decidable.not_not, Nat.not_lt]
  refine and_congr_right fun _ => and_congr_right fun _ => ?_
  split
  · rename_i q hq
    rw [hq]
    constructor <;> rintro ⟨⟩ <;> rfl
  · rename_i e he
    rw [he]
    constructor <;> rintro ⟨⟩

theorem readFlat_eq_ok_iff_words : readFlat bytes signature = .ok p ↔
    ∃ words, bytes = ofWords words ∧
      Program.single ⟨flatEntryName, signature, words.toArray⟩ = .ok p := by
  rw [readFlat_eq_ok_iff]
  constructor
  · rintro ⟨hmod, -, hp⟩
    obtain ⟨words, rfl⟩ := exists_ofWords hmod
    rw [wordsOf_ofWords] at hp
    exact ⟨words, rfl, hp⟩
  · rintro ⟨words, rfl, hp⟩
    have hsize : words.length ≤ maxSlots := (single_eq_ok_iff.mp hp).1
    rw [wordsOf_ofWords, length_ofWords, Nat.mul_mod_right, Nat.mul_div_cancel_left _ (by decide)]
    exact ⟨rfl, hsize, hp⟩

theorem exists_readFlat_iff : (∃ p, readFlat bytes signature = .ok p) ↔
    bytes.length % 8 = 0 ∧ bytes.length ≤ 8 * maxSlots := by
  constructor
  · rintro ⟨p, hp⟩
    obtain ⟨hmod, hslots, -⟩ := readFlat_eq_ok_iff.mp hp
    exact ⟨hmod, by omega⟩
  · rintro ⟨hmod, hle⟩
    obtain ⟨words, rfl⟩ := exists_ofWords hmod
    rw [length_ofWords] at hle
    have hsize : words.length ≤ maxSlots := Nat.le_of_mul_le_mul_left hle (by decide)
    obtain ⟨p, hp⟩ : ∃ p, Program.single ⟨flatEntryName, signature, words.toArray⟩ = .ok p :=
      ⟨⟨_, .empty, fun f hf => List.mem_singleton.mp hf ▸ hsize⟩,
        single_eq_ok_iff.mpr ⟨hsize, rfl, rfl⟩⟩
    exact ⟨p, readFlat_eq_ok_iff_words.mpr ⟨words, rfl, hp⟩⟩

theorem readFlat_eq_error_iff {e : Error} : readFlat bytes signature = .error e ↔
    (bytes.length % 8 ≠ 0 ∧ e = .partialWord bytes.length) ∨
    (bytes.length % 8 = 0 ∧ maxSlots < bytes.length / 8 ∧
      e = .flatTooLarge (bytes.length / 8)) := by
  by_cases hmod : bytes.length % 8 = 0
  · by_cases hslots : maxSlots < bytes.length / 8
    · have hread : readFlat bytes signature = .error (.flatTooLarge (bytes.length / 8)) := by
        unfold readFlat
        rw [if_neg (not_not.mpr hmod)]
        dsimp only
        rw [if_pos hslots]
        rfl
      simp [hread, hmod, hslots, eq_comm (a := e)]
    · obtain ⟨p, hp⟩ : ∃ p, readFlat bytes signature = .ok p :=
        exists_readFlat_iff.mpr ⟨hmod, by omega⟩
      simp [hp, hmod, hslots]
  · have hread : readFlat bytes signature = .error (.partialWord bytes.length) := by
      unfold readFlat
      rw [if_pos hmod]
      rfl
    simp [hread, hmod, eq_comm (a := e)]

theorem write_of_single (h : Program.single f = .ok p)
    (hname : f.name.utf8ByteSize ≤ maxNameLength) :
    write p = .ok (layoutOf p).bytes ∧ read (layoutOf p).bytes = .ok (p, []) := by
  obtain ⟨-, hf, hi⟩ := single_eq_ok_iff.mp h
  have hnone : ∀ i, i ∉ p.imports.toList := by
    intro i
    rw [hi]
    exact List.not_mem_nil
  have hfits : (layoutOf p).Fits := {
    functions_le := by
      rw [layoutOf, hf, List.length_singleton]
      decide
    functionName_le := fun g hg => by
      rw [layoutOf, hf] at hg
      exact List.mem_singleton.mp hg ▸ hname
    slots_le := p.size_le
    imports_le := by
      rw [layoutOf, hi]
      exact Nat.zero_le _
    importName_le := fun i hmem => absurd hmem (hnone i) }
  have hwrite : write p = .ok (layoutOf p).bytes := write_eq_ok_iff.mpr ⟨hfits, rfl⟩
  have hstored : p.stored = p := stored_eq_self_iff.mpr fun i hmem => absurd hmem (hnone i)
  have hread : read ((layoutOf p).bytes ++ []) = .ok (p.stored, []) := read_of_write hwrite
  rw [List.append_nil, hstored] at hread
  exact ⟨hwrite, hread⟩

/-- A flat binary is read if it is whole words and not too many of them. The program is the one that
is read from the container of its function, and so has the same invocations. -/
theorem readFlat_exact (signature : Signature) :
    (∀ bytes, (∃ p, readFlat bytes signature = .ok p) ↔
      bytes.length % 8 = 0 ∧ bytes.length ≤ 8 * maxSlots) ∧
    (∀ bytes p, readFlat bytes signature = .ok p → ∃ words, bytes = ofWords words ∧
      p.functions = [⟨"entry", signature, words.toArray⟩] ∧ p.imports = .empty) ∧
    ∀ words : List UInt64, words.length ≤ maxSlots → ∃ p output,
      Program.single ⟨"entry", signature, words.toArray⟩ = .ok p ∧ write p = .ok output ∧
      readFlat (ofWords words) signature = .ok p ∧ read output = .ok (p, []) ∧
      ∀ flat boxed rest, readFlat (ofWords words) signature = .ok flat →
        read output = .ok (boxed, rest) → ∀ args table settings,
          invoke flat args table settings = invoke boxed args table settings := by
  refine ⟨fun bytes => exists_readFlat_iff, fun bytes p h => ?_, fun words hlen => ?_⟩
  · obtain ⟨words, rfl, hp⟩ := readFlat_eq_ok_iff_words.mp h
    obtain ⟨-, hf, hi⟩ := single_eq_ok_iff.mp hp
    exact ⟨words, rfl, hf, hi⟩
  · have hbytes : (ofWords words).length % 8 = 0 ∧ (ofWords words).length ≤ 8 * maxSlots := by
      rw [length_ofWords, Nat.mul_mod_right]
      exact ⟨rfl, Nat.mul_le_mul_left 8 hlen⟩
    obtain ⟨p, hflat⟩ := exists_readFlat_iff.mpr hbytes
    have hp : Program.single ⟨flatEntryName, signature, words.toArray⟩ = .ok p := by
      have h := (readFlat_eq_ok_iff.mp hflat).2.2
      rwa [wordsOf_ofWords] at h
    have hname : flatEntryName.utf8ByteSize ≤ maxNameLength := by decide
    obtain ⟨hwrite, hread⟩ := write_of_single hp hname
    refine ⟨p, _, hp, hwrite, hflat, hread, ?_⟩
    intro flat boxed rest hf hb args table settings
    cases hflat.symm.trans hf
    cases hread.symm.trans hb
    rfl

def nine : List UInt64 := [Assembly.mov64Imm 0 9, Assembly.exit]

theorem readFlat_exact_nine : ∃ p output,
    readFlat (ofWords nine) .constant = .ok p ∧ write p = .ok output ∧
      read output = .ok (p, []) ∧ p.functions = [⟨"entry", .constant, nine.toArray⟩] := by
  obtain ⟨-, hflat, hboth⟩ := readFlat_exact .constant
  obtain ⟨p, output, -, hwrite, hread, hload, -⟩ := hboth nine (by decide)
  obtain ⟨words, hwords, hf, -⟩ := hflat _ _ hread
  have hnine : words = nine := by
    rw [← wordsOf_ofWords words, ← hwords, wordsOf_ofWords]
  exact ⟨p, output, hread, hwrite, hload, hnine ▸ hf⟩

end Container

end Ebpf
