import Mathlib.Data.List.Basic

namespace Mac802154.Library

variable {n : Nat}

-- Bits are numbered from the least significant one of the first byte on.
def bitAt (array : Vector UInt8 n) (k : Nat) : Bool :=
  (array[k / 8]?.getD 0).toBitVec.getLsbD (k % 8)

-- `value` written over the bits of `byte` that `mask`, shifted to its place, selects.
def insertBits (byte mask : UInt8) (shift : Nat) (value : UInt8) : UInt8 :=
  ⟨byte.toBitVec &&& ~~~(mask.toBitVec <<< shift) ||| value.toBitVec <<< shift⟩

def extractBits (byte mask : UInt8) (shift : Nat) : UInt8 :=
  ⟨byte.toBitVec >>> shift &&& mask.toBitVec⟩

theorem bitAt_of_lt (array : Vector UInt8 n) (i j : Nat) (hi : i < n) (hj : j < 8) :
    bitAt array (8 * i + j) = array[i].toBitVec.getLsbD j := by
  have hdiv : (8 * i + j) / 8 = i := by omega
  have hmod : (8 * i + j) % 8 = j := by omega
  simp [bitAt, hdiv, hmod, hi]

theorem eq_of_bitAt_eq (first second : Vector UInt8 n)
    (h : ∀ k < 8 * n, bitAt first k = bitAt second k) : first = second := by
  apply Vector.ext
  intro i hi
  apply UInt8.toBitVec_inj.mp
  apply BitVec.eq_of_getLsbD_eq
  intro j hj
  rw [← bitAt_of_lt first i j hi hj, ← bitAt_of_lt second i j hi hj]
  exact h _ (by omega)

-- A fact about every byte is a fact about 256 numbers, which can be computed.
theorem forall_byte {P : UInt8 → Prop} (h : ∀ k < 256, P (UInt8.ofNat k)) (byte : UInt8) :
    P byte := by
  have := h byte.toNat byte.toNat_lt
  rwa [UInt8.ofNat_toNat] at this

theorem or_and (x y z : UInt8) : (x ||| y) &&& z = x &&& z ||| y &&& z := by
  apply UInt8.toBitVec_inj.mp
  apply BitVec.eq_of_getLsbD_eq
  intro j hj
  simp [Bool.and_or_distrib_right]

theorem getLsbD_insertBits (byte mask value : UInt8) (shift j : Nat) (hj : j < 8) :
    (insertBits byte mask shift value).toBitVec.getLsbD j =
      if shift ≤ j then
        byte.toBitVec.getLsbD j && !mask.toBitVec.getLsbD (j - shift) ||
          value.toBitVec.getLsbD (j - shift)
      else byte.toBitVec.getLsbD j := by
  by_cases hs : shift ≤ j
  · have hlt : ¬j < shift := by omega
    have hsub : j - shift < 8 := by omega
    simp [insertBits, hj, hs, hlt, hsub]
  · simp [insertBits, hj, hs, Nat.lt_of_not_le hs]

-- What is read beside the bits that were written is what stood there before.
theorem extractBits_insertBits (byte mask value selected : UInt8) (shift start : Nat)
    (h : ∀ j < 8, selected.toBitVec.getLsbD j → shift ≤ start + j →
      mask.toBitVec.getLsbD (start + j - shift) = false ∧
        value.toBitVec.getLsbD (start + j - shift) = false) :
    extractBits (insertBits byte mask shift value) selected start =
      extractBits byte selected start := by
  apply UInt8.toBitVec_inj.mp
  apply BitVec.eq_of_getLsbD_eq
  intro j hj
  simp only [extractBits, BitVec.getLsbD_and, BitVec.getLsbD_ushiftRight]
  cases hs : selected.toBitVec.getLsbD j with
  | false => simp
  | true =>
      by_cases hbyte : start + j < 8
      · rw [getLsbD_insertBits _ _ _ _ _ hbyte]
        by_cases hshift : shift ≤ start + j
        · obtain ⟨hmask, hvalue⟩ := h j hj hs hshift
          simp [hshift, hmask, hvalue]
        · rw [if_neg hshift]
      · rw [BitVec.getLsbD_of_ge _ _ (by omega), BitVec.getLsbD_of_ge _ _ (by omega)]

-- The field must not cross into the next byte.
theorem bitAt_set_insertBits (array : Vector UInt8 n) (mask value : UInt8) (i shift : Nat)
    (hi : i < n) (hmask : ∀ j < 8, mask.toBitVec.getLsbD j → shift + j < 8)
    (hvalue : ∀ j < 8, value.toBitVec.getLsbD j → mask.toBitVec.getLsbD j)
    (k : Nat) (hk : k < 8 * n) :
    bitAt (array.set i (insertBits array[i] mask shift value)) k =
      if 8 * i + shift ≤ k ∧ mask.toBitVec.getLsbD (k - (8 * i + shift)) then
        value.toBitVec.getLsbD (k - (8 * i + shift))
      else bitAt array k := by
  obtain ⟨i', j, hj, rfl⟩ : ∃ i' j, j < 8 ∧ k = 8 * i' + j := ⟨k / 8, k % 8, by omega, by omega⟩
  have hi' : i' < n := by omega
  rw [bitAt_of_lt _ i' j hi' hj, bitAt_of_lt array i' j hi' hj]
  by_cases he : i = i'
  · subst he
    rw [Vector.getElem_set_self, getLsbD_insertBits _ _ _ _ _ hj]
    by_cases hs : shift ≤ j
    · have hsub : 8 * i + j - (8 * i + shift) = j - shift := by omega
      simp only [hsub, hs, Nat.add_le_add_iff_left, true_and, ite_true]
      cases hm : mask.toBitVec.getLsbD (j - shift) with
      | true => simp
      | false =>
          have hv : value.toBitVec.getLsbD (j - shift) = false := by
            by_contra hv
            simpa [hm] using hvalue (j - shift) (by omega) (by simpa using hv)
          simp [hv]
    · simp [hs]
  · rw [Vector.getElem_set_ne _ _ he]
    rw [if_neg]
    rintro ⟨hle, hm⟩
    have hlt : 8 * i' + j - (8 * i + shift) < 8 := by
      by_contra hge
      rw [BitVec.getLsbD_of_ge _ _ (by omega)] at hm
      exact Bool.false_ne_true hm
    have := hmask _ hlt hm
    omega

-- An array whose bits differ from another's only in one masked field is that
-- other array with one byte rewritten.
theorem eq_set_insertBits (array changed : Vector UInt8 n) (mask value : UInt8) (i shift : Nat)
    (hi : i < n) (hmask : ∀ j < 8, mask.toBitVec.getLsbD j → shift + j < 8)
    (hvalue : ∀ j < 8, value.toBitVec.getLsbD j → mask.toBitVec.getLsbD j)
    (h : ∀ k < 8 * n, bitAt changed k =
      if 8 * i + shift ≤ k ∧ mask.toBitVec.getLsbD (k - (8 * i + shift)) then
        value.toBitVec.getLsbD (k - (8 * i + shift))
      else bitAt array k) :
    changed = array.set i (insertBits array[i] mask shift value) := by
  apply eq_of_bitAt_eq
  intro k hk
  rw [h k hk, bitAt_set_insertBits array mask value i shift hi hmask hvalue k hk]

end Mac802154.Library
