import Mac802154.Library.Bits
import Mac802154.Library.Checked

namespace Mac802154

open Library

-- A masked field of bits stays inside the byte that its offset addresses, and
-- the value written to it has no bit outside the mask.
def FieldFits (bitmask offset value : UInt8) : Prop :=
  (∀ j < 8, bitmask.toBitVec.getLsbD j → offset.toNat % 8 + j < 8) ∧
    ∀ j < 8, value.toBitVec.getLsbD j → bitmask.toBitVec.getLsbD j

instance (bitmask offset value : UInt8) : Decidable (FieldFits bitmask offset value) :=
  inferInstanceAs (Decidable (_ ∧ _))

-- The helpers of EmbeddedUtilities/BitManipulation.h, whose source is another
-- package. The laws are what this library relies on: a helper sets, clears or
-- reads exactly the bits it addresses, and copyBytes copies bytes. A pointer
-- into an array is the array together with a start position.
class BitManipulation where
  setBitOnArray : {n : Nat} → Vector UInt8 n → (offset : UInt8) → Vector UInt8 n
  clearBitOnArray : {n : Nat} → Vector UInt8 n → (offset : UInt8) → Vector UInt8 n
  bitIsSetOnArray : {n : Nat} → Vector UInt8 n → (offset : UInt8) → Bool
  setByteOnArray : {n : Nat} → Vector UInt8 n → (bitmask offset value : UInt8) → Vector UInt8 n
  getByteOnArray : {n : Nat} → Vector UInt8 n → (bitmask offset : UInt8) → UInt8
  copyBytes : {m n : Nat} → (source : Vector UInt8 m) → (destination : Vector UInt8 n) →
    (start : Nat) → (count : UInt8) → Vector UInt8 n
  bitAt_setBitOnArray : ∀ {n : Nat} (array : Vector UInt8 n) (offset : UInt8),
    offset.toNat < 8 * n → ∀ k < 8 * n,
      bitAt (setBitOnArray array offset) k = if k = offset.toNat then true else bitAt array k
  bitAt_clearBitOnArray : ∀ {n : Nat} (array : Vector UInt8 n) (offset : UInt8),
    offset.toNat < 8 * n → ∀ k < 8 * n,
      bitAt (clearBitOnArray array offset) k = if k = offset.toNat then false else bitAt array k
  bitIsSetOnArray_eq : ∀ {n : Nat} (array : Vector UInt8 n) (offset : UInt8),
    offset.toNat < 8 * n → bitIsSetOnArray array offset = bitAt array offset.toNat
  bitAt_setByteOnArray : ∀ {n : Nat} (array : Vector UInt8 n) (bitmask offset value : UInt8),
    offset.toNat < 8 * n → FieldFits bitmask offset value → ∀ k < 8 * n,
      bitAt (setByteOnArray array bitmask offset value) k =
        if offset.toNat ≤ k ∧ bitmask.toBitVec.getLsbD (k - offset.toNat) then
          value.toBitVec.getLsbD (k - offset.toNat)
        else bitAt array k
  getLsbD_getByteOnArray : ∀ {n : Nat} (array : Vector UInt8 n) (bitmask offset : UInt8),
    offset.toNat < 8 * n → FieldFits bitmask offset 0 → ∀ j < 8,
      (getByteOnArray array bitmask offset).toBitVec.getLsbD j =
        (bitmask.toBitVec.getLsbD j && bitAt array (offset.toNat + j))
  getElem_copyBytes : ∀ {m n : Nat} (source : Vector UInt8 m) (destination : Vector UInt8 n)
    (start : Nat) (count : UInt8) (hm : count.toNat ≤ m) (_ : start + count.toNat ≤ n)
    (i : Nat) (hi : i < n),
      (copyBytes source destination start count)[i] =
        if h : start ≤ i ∧ i < start + count.toNat then source.get ⟨i - start, by omega⟩
        else destination[i]

namespace BitManipulation

variable {n : Nat}

theorem getLsbD_one (j : Nat) : (1 : UInt8).toBitVec.getLsbD j = decide (j = 0) := by
  simp

section Laws

variable [BitManipulation]

theorem setByteOnArray_eq (array : Vector UInt8 n) (bitmask offset value : UInt8) (i shift : Nat)
    (hoffset : offset.toNat = 8 * i + shift) (hi : i < n) (hshift : shift < 8)
    (hfits : FieldFits bitmask offset value) :
    setByteOnArray array bitmask offset value =
      array.set i (insertBits array[i] bitmask shift value) := by
  have hmod : offset.toNat % 8 = shift := by omega
  apply eq_set_insertBits
  · intro j hj hm
    simpa [hmod] using hfits.1 j hj hm
  · exact hfits.2
  · intro k hk
    rw [bitAt_setByteOnArray array bitmask offset value (by omega) hfits k hk, hoffset]

theorem getByteOnArray_eq (array : Vector UInt8 n) (bitmask offset : UInt8) (i shift : Nat)
    (hoffset : offset.toNat = 8 * i + shift) (hi : i < n) (hshift : shift < 8)
    (hfits : FieldFits bitmask offset 0) :
    getByteOnArray array bitmask offset = extractBits array[i] bitmask shift := by
  apply UInt8.toBitVec_inj.mp
  apply BitVec.eq_of_getLsbD_eq
  intro j hj
  rw [getLsbD_getByteOnArray array bitmask offset (by omega) hfits j hj, hoffset]
  cases hm : bitmask.toBitVec.getLsbD j with
  | false => simp [extractBits, hm]
  | true =>
      have hin := hfits.1 j hj hm
      rw [Nat.add_assoc, bitAt_of_lt array i (shift + j) hi (by omega)]
      simp [extractBits, hm]

theorem setBitOnArray_eq (array : Vector UInt8 n) (offset : UInt8) (i shift : Nat)
    (hoffset : offset.toNat = 8 * i + shift) (hi : i < n) (hshift : shift < 8) :
    setBitOnArray array offset = array.set i (insertBits array[i] 1 shift 1) := by
  apply eq_set_insertBits
  · intro j hj hm
    rw [getLsbD_one, decide_eq_true_iff] at hm
    omega
  · exact fun j hj hm => hm
  · intro k hk
    rw [bitAt_setBitOnArray array offset (by omega) k hk, getLsbD_one, hoffset]
    by_cases he : k = 8 * i + shift
    · simp [he]
    · rw [if_neg he, if_neg (by rw [decide_eq_true_iff]; omega)]

theorem clearBitOnArray_eq (array : Vector UInt8 n) (offset : UInt8) (i shift : Nat)
    (hoffset : offset.toNat = 8 * i + shift) (hi : i < n) (hshift : shift < 8) :
    clearBitOnArray array offset = array.set i (insertBits array[i] 1 shift 0) := by
  apply eq_set_insertBits
  · intro j hj hm
    rw [getLsbD_one, decide_eq_true_iff] at hm
    omega
  · intro j hj hm
    simp at hm
  · intro k hk
    rw [bitAt_clearBitOnArray array offset (by omega) k hk, getLsbD_one, hoffset]
    by_cases he : k = 8 * i + shift
    · simp [he]
    · rw [if_neg he, if_neg (by rw [decide_eq_true_iff]; omega)]

theorem bitIsSetOnArray_getElem (array : Vector UInt8 n) (offset : UInt8) (i shift : Nat)
    (hoffset : offset.toNat = 8 * i + shift) (hi : i < n) (hshift : shift < 8) :
    bitIsSetOnArray array offset = array[i].toBitVec.getLsbD shift := by
  rw [bitIsSetOnArray_eq array offset (by omega), hoffset, bitAt_of_lt array i shift hi hshift]

theorem toList_copyBytes {m : Nat} (source : Vector UInt8 m) (destination : Vector UInt8 n)
    (start : Nat) (count : UInt8) (hm : count.toNat = m) (hn : start + m ≤ n) :
    (copyBytes source destination start count).toList =
      splice destination.toList start source.toList := by
  apply List.ext_getElem?
  intro i
  have hsource : source.toList.length = m := by simp
  have hdestination : destination.toList.length = n := by simp
  by_cases hi : i < n
  · rw [List.getElem?_eq_getElem (by simpa using hi), Vector.getElem_toList,
      getElem_copyBytes source destination start count (by omega) (by omega) i hi]
    by_cases hin : start ≤ i ∧ i < start + count.toNat
    · rw [dif_pos hin, getElem?_splice_of_mem _ _ _ _ (by omega) hin.1 (by omega),
        List.getElem?_eq_getElem (by omega), Vector.getElem_toList]
      rfl
    · rw [dif_neg hin]
      have hkeep : (splice destination.toList start source.toList)[i]? = destination.toList[i]? := by
        by_cases hlo : i < start
        · exact getElem?_splice_of_lt _ _ _ _ (by omega) hlo
        · exact getElem?_splice_of_ge _ _ _ _ (by omega) (by omega)
      rw [hkeep, List.getElem?_eq_getElem (by omega), Vector.getElem_toList]
  · have hlen : (splice destination.toList start source.toList).length = n := by
      rw [length_splice _ _ _ (by omega), hdestination]
    rw [List.getElem?_eq_none (by simpa using hi), List.getElem?_eq_none (by omega)]

end Laws

section Reference

-- Functions that satisfy the laws, so that the class can be evaluated.
def rewriteField (array : Vector UInt8 n) (bitmask offset value : UInt8) : Vector UInt8 n :=
  if h : offset.toNat / 8 < n then
    array.set (offset.toNat / 8) (insertBits array[offset.toNat / 8] bitmask (offset.toNat % 8) value)
  else array

def readField (array : Vector UInt8 n) (bitmask offset : UInt8) : UInt8 :=
  if h : offset.toNat / 8 < n then extractBits array[offset.toNat / 8] bitmask (offset.toNat % 8)
  else 0

def copyField {m : Nat} (source : Vector UInt8 m) (destination : Vector UInt8 n) (start : Nat)
    (count : UInt8) : Vector UInt8 n :=
  Vector.ofFn fun i : Fin n =>
    if h : (start ≤ i ∧ i < start + count.toNat) ∧ i - start < m then source.get ⟨i - start, h.2⟩
    else destination.get i

theorem bitAt_rewriteField (array : Vector UInt8 n) (bitmask offset value : UInt8)
    (hoffset : offset.toNat < 8 * n) (hfits : FieldFits bitmask offset value) (k : Nat)
    (hk : k < 8 * n) :
    bitAt (rewriteField array bitmask offset value) k =
      if offset.toNat ≤ k ∧ bitmask.toBitVec.getLsbD (k - offset.toNat) then
        value.toBitVec.getLsbD (k - offset.toNat)
      else bitAt array k := by
  have hdiv : offset.toNat / 8 < n := by omega
  have hsplit : 8 * (offset.toNat / 8) + offset.toNat % 8 = offset.toNat := by omega
  rw [rewriteField, dif_pos hdiv,
    bitAt_set_insertBits array bitmask value _ _ hdiv hfits.1 hfits.2 k hk, hsplit]

theorem fieldFits_one (offset value : UInt8)
    (hvalue : ∀ j < 8, value.toBitVec.getLsbD j → j = 0) : FieldFits 1 offset value := by
  refine ⟨fun j hj hm => ?_, fun j hj hv => ?_⟩
  · rw [getLsbD_one, decide_eq_true_iff] at hm
    omega
  · rw [getLsbD_one, decide_eq_true_iff]
    exact hvalue j hj hv

theorem bitAt_rewriteField_one (array : Vector UInt8 n) (offset value : UInt8)
    (hvalue : ∀ j < 8, value.toBitVec.getLsbD j → j = 0) (hoffset : offset.toNat < 8 * n)
    (k : Nat) (hk : k < 8 * n) :
    bitAt (rewriteField array 1 offset value) k =
      if k = offset.toNat then value.toBitVec.getLsbD 0 else bitAt array k := by
  rw [bitAt_rewriteField array 1 offset value hoffset (fieldFits_one offset value hvalue) k hk,
    getLsbD_one]
  by_cases he : k = offset.toNat
  · simp [he]
  · rw [if_neg (by rw [decide_eq_true_iff]; omega), if_neg he]

theorem getLsbD_readField (array : Vector UInt8 n) (bitmask offset : UInt8)
    (hoffset : offset.toNat < 8 * n) (hfits : FieldFits bitmask offset 0) (j : Nat) (hj : j < 8) :
    (readField array bitmask offset).toBitVec.getLsbD j =
      (bitmask.toBitVec.getLsbD j && bitAt array (offset.toNat + j)) := by
  have hdiv : offset.toNat / 8 < n := by omega
  rw [readField, dif_pos hdiv]
  cases hm : bitmask.toBitVec.getLsbD j with
  | false => simp [extractBits, hm]
  | true =>
      have hin := hfits.1 j hj hm
      have hsplit : offset.toNat + j = 8 * (offset.toNat / 8) + (offset.toNat % 8 + j) := by omega
      rw [hsplit, bitAt_of_lt array _ _ hdiv hin]
      simp [extractBits, hm]

@[reducible] def reference : BitManipulation where
  setBitOnArray array offset := rewriteField array 1 offset 1
  clearBitOnArray array offset := rewriteField array 1 offset 0
  bitIsSetOnArray array offset := bitAt array offset.toNat
  setByteOnArray := rewriteField
  getByteOnArray := readField
  copyBytes := copyField
  bitAt_setBitOnArray array offset h :=
    bitAt_rewriteField_one array offset 1 (by simp) h
  bitAt_clearBitOnArray array offset h :=
    bitAt_rewriteField_one array offset 0 (by simp) h
  bitIsSetOnArray_eq _ _ _ := rfl
  bitAt_setByteOnArray := bitAt_rewriteField
  getLsbD_getByteOnArray := getLsbD_readField
  getElem_copyBytes source destination start count hm hn i hi := by
    by_cases h : start ≤ i ∧ i < start + count.toNat
    · have hin : i - start < _ := Nat.lt_of_lt_of_le (by omega : i - start < count.toNat) hm
      simp [copyField, h, hin]
    · simp [copyField, h, Vector.get]

end Reference

end BitManipulation

end Mac802154
