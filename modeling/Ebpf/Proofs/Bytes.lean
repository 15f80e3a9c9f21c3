import Ebpf.Bytes

/-! # Numbers and text as bytes

A number below the bound of its width and the bytes of that width determine each other, and so do
a text and its UTF-8 bytes.
-/

namespace Ebpf.Bytes

/-- The numbers below this bound fit into `len` bytes. -/
def bound : Nat → Nat
  | 0 => 1
  | len + 1 => 256 * bound len

@[simp] theorem length_ofNat (len n : Nat) : (ofNat len n).length = len := by
  induction len generalizing n with
  | zero => rfl
  | succ len ih => rw [ofNat, List.length_cons, ih]

theorem toNat_lt (bytes : List UInt8) : toNat bytes < bound bytes.length := by
  induction bytes with
  | nil => exact Nat.one_pos
  | cons b bytes ih =>
    have hb := b.toNat_lt
    rw [toNat, List.length_cons, bound]
    omega

theorem toNat_ofNat {len n : Nat} (h : n < bound len) : toNat (ofNat len n) = n := by
  induction len generalizing n with
  | zero =>
    rw [Nat.lt_one_iff.mp h]
    rfl
  | succ len ih =>
    rw [bound] at h
    have hlow : (UInt8.ofNat n).toNat = n % 256 := UInt8.toNat_ofNat
    rw [ofNat, toNat, ih (Nat.div_lt_of_lt_mul (by omega)), hlow]
    omega

theorem ofNat_toNat (bytes : List UInt8) : ofNat bytes.length (toNat bytes) = bytes := by
  induction bytes with
  | nil => rfl
  | cons b bytes ih =>
    have hb := b.toNat_lt
    have hquot : (b.toNat + 256 * toNat bytes) / 256 = toNat bytes := by omega
    have hlow : UInt8.ofNat (b.toNat + 256 * toNat bytes) = b := by
      apply UInt8.toNat_inj.mp
      rw [UInt8.toNat_ofNat']
      omega
    rw [List.length_cons, toNat, ofNat, hquot, hlow, ih]

theorem toNat_eq_iff {len n : Nat} {bytes : List UInt8} (h : bytes.length = len) :
    toNat bytes = n ↔ n < bound len ∧ bytes = ofNat len n := by
  constructor
  · rintro rfl
    rw [← h]
    exact ⟨toNat_lt bytes, (ofNat_toNat bytes).symm⟩
  · rintro ⟨hn, rfl⟩
    exact toNat_ofNat hn

theorem toList_loop_eq (a : ByteArray) (i : Nat) (taken : List UInt8) :
    ByteArray.toList.loop a i taken = taken.reverse ++ a.data.toList.drop i := by
  fun_induction ByteArray.toList.loop a i taken with
  | case1 i taken h ih =>
    have hi : i < a.data.size := h
    have hdrop : a.data.toList.drop i = a.get! i :: a.data.toList.drop (i + 1) := by
      rw [List.drop_eq_getElem_cons hi, Array.getElem_toList]
      exact congrArg (· :: _) (getElem!_pos a.data i hi).symm
    rw [ih, hdrop, List.reverse_cons, List.append_assoc, List.singleton_append]
  | case2 i taken h =>
    have hi : a.data.toList.length ≤ i := Nat.le_of_not_lt h
    rw [List.drop_eq_nil_of_le hi, List.append_nil]

theorem ofString_eq (text : String) : ofString text = text.toByteArray.data.toList := by
  rw [ofString, ByteArray.toList, toList_loop_eq]
  rfl

theorem length_ofString (text : String) : (ofString text).length = text.utf8ByteSize := by
  rw [ofString_eq]
  rfl

theorem toByteArray_ofString (text : String) :
    (ofString text).toByteArray = text.toByteArray := by
  apply ByteArray.ext
  rw [List.data_toByteArray, ofString_eq, Array.toArray_toList]

theorem toString?_eq_some_iff {bytes : List UInt8} {text : String} :
    toString? bytes = some text ↔ bytes = ofString text := by
  unfold toString? String.fromUTF8?
  constructor
  · intro h
    split at h
    · cases h
      rw [ofString_eq]
      exact List.toList_data_toByteArray.symm
    · cases h
  · rintro rfl
    rw [toByteArray_ofString, dif_pos text.isValidUTF8]
    rfl

end Ebpf.Bytes
