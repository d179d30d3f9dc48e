import Mac802154.FrameHeader802154

namespace Mac802154

open Library

variable {n : Nat}

private theorem toList_set_eq_splice (data : Vector UInt8 n) (i : Nat) (value : UInt8) (hi : i < n) :
    (data.set i value).toList = splice data.toList i [value] := by
  rw [Vector.toList_set, set_eq_splice _ _ _ (by simpa using hi)]

private theorem slice_splice_of_ge (xs : List UInt8) (start count i : Nat) (value : UInt8)
    (hi : start + count ≤ i) (hx : i < xs.length) :
    slice (splice xs i [value]) start count = slice xs start count := by
  apply List.ext_getElem?
  intro j
  by_cases hj : j < count
  · simp only [slice, List.getElem?_take_of_lt hj, List.getElem?_drop]
    exact getElem?_splice_of_lt _ _ _ _ (by omega) (by omega)
  · simp [slice, List.getElem?_take_eq_none (Nat.le_of_not_lt hj)]

private theorem slice_splice_of_lt (xs : List UInt8) (start count i : Nat) (value : UInt8)
    (hi : i < start) (hx : i < xs.length) :
    slice (splice xs i [value]) start count = slice xs start count := by
  apply List.ext_getElem?
  intro j
  by_cases hj : j < count
  · simp only [slice, List.getElem?_take_of_lt hj, List.getElem?_drop]
    exact getElem?_splice_of_ge _ _ _ _ (by omega) (by simp; omega)
  · simp [slice, List.getElem?_take_eq_none (Nat.le_of_not_lt hj)]

-- The induction is on the number of elements still to be moved. Copying from
-- the last one down, every store lands behind the elements that remain.
private theorem moveRightLoop_toList (distance : UInt8) (count fuel start : Nat) (index : Int8)
    (data : Vector UInt8 n) (hcount : count ≤ 128) (hindex : index.toInt = count - 1)
    (hfuel : count < fuel) (hn : 0 < count → start + distance.toNat + count ≤ n) :
    ∃ moved, moveRightLoop distance fuel index (start + (count - 1)) data = .ok moved ∧
      moved.toList = splice data.toList (start + distance.toNat) (slice data.toList start count) := by
  induction count generalizing fuel index data with
  | zero =>
      obtain ⟨fuel, rfl⟩ := Nat.exists_eq_succ_of_ne_zero (Nat.ne_of_gt hfuel)
      refine ⟨data, ?_, by simp [slice]⟩
      rw [moveRightLoop, if_neg (by omega)]
  | succ count ih =>
      obtain ⟨fuel, rfl⟩ := Nat.exists_eq_succ_of_ne_zero (Nat.ne_of_gt (Nat.zero_lt_of_lt hfuel))
      have hend := hn (Nat.succ_pos count)
      have hlen : data.toList.length = n := by simp
      have hsource : (start : Int) + ((count + 1 : Nat) - 1) = (start + count : Nat) := by omega
      have htarget : ((start + count : Nat) : Int) + distance.toNat =
          (start + distance.toNat + count : Nat) := by omega
      have hnext : (index - 1).toInt = (count : Int) - 1 := by
        rw [Int8.toInt_sub, hindex, Int8.toInt_one, Int.bmod_eq_of_le] <;> omega
      obtain ⟨moved, hm, hl⟩ := ih fuel (index - 1)
        (data.set (start + distance.toNat + count) data[start + count]) (by omega) hnext (by omega)
        (fun _ => by omega)
      refine ⟨moved, ?_, ?_⟩
      · rw [moveRightLoop, if_pos (by omega), hsource, load_ofNat _ _ (by omega), ok_bind, htarget,
          store_ofNat _ _ _ (by omega), ok_bind, ← hm]
        congr 1
        omega
      · have hslice : (slice data.toList start count).length = count :=
          length_slice _ _ _ (by omega)
        have hadjacent := splice_splice_left data.toList (slice data.toList start count)
          [data[start + count]] (start + distance.toNat) (by
            simp only [hslice, List.length_singleton]; omega)
        rw [hslice] at hadjacent
        rw [hl, toList_set_eq_splice _ _ _ (by omega),
          slice_splice_of_ge _ _ _ _ _ (by omega) (by omega), hadjacent,
          slice_succ_right _ _ _ (by omega)]
        simp

-- Copying from the first one up, every store lands before the elements that remain.
private theorem moveLeftLoop_toList (number_of_elements : UInt8) (distance : Int8) (back count fuel
    start : Nat) (index : Int8) (data : Vector UInt8 n) (hdistance : distance.toInt = -back)
    (hnumber : number_of_elements.toNat ≤ 127)
    (hindex : index.toInt = (number_of_elements.toNat : Int) - count)
    (hle : count ≤ number_of_elements.toNat)
    (hfuel : count < fuel) (hn : 0 < count → back ≤ start ∧ start + count ≤ n) :
    ∃ moved, moveLeftLoop number_of_elements distance fuel index start data = .ok moved ∧
      moved.toList = splice data.toList (start - back) (slice data.toList start count) := by
  induction count generalizing fuel start index data with
  | zero =>
      obtain ⟨fuel, rfl⟩ := Nat.exists_eq_succ_of_ne_zero (Nat.ne_of_gt hfuel)
      refine ⟨data, ?_, by simp [slice]⟩
      rw [moveLeftLoop, if_neg (by omega)]
  | succ count ih =>
      obtain ⟨fuel, rfl⟩ := Nat.exists_eq_succ_of_ne_zero (Nat.ne_of_gt (Nat.zero_lt_of_lt hfuel))
      obtain ⟨hback, hend⟩ := hn (Nat.succ_pos count)
      have hlen : data.toList.length = n := by simp
      have htarget : (start : Int) + distance.toInt = (start - back : Nat) := by omega
      have hnext : (index + 1).toInt = (number_of_elements.toNat : Int) - count := by
        rw [Int8.toInt_add, hindex, Int8.toInt_one, Int.bmod_eq_of_le] <;> omega
      obtain ⟨moved, hm, hl⟩ := ih fuel (start + 1) (index + 1)
        (data.set (start - back) data[start]) hnext (by omega) (by omega)
        (fun _ => ⟨by omega, by omega⟩)
      refine ⟨moved, ?_, ?_⟩
      · rw [moveLeftLoop, if_pos (by omega), load_ofNat _ _ (by omega), ok_bind, htarget,
          store_ofNat _ _ _ (by omega), ok_bind, ← hm]
        congr 1
      · have hadjacent := splice_splice_right data.toList [data[start]]
          (slice data.toList (start + 1) count) (start - back) (by
            rw [length_slice _ _ _ (by omega), List.length_singleton]; omega)
        have hnear : start + 1 - back = start - back + [data[start]].length := by
          simp only [List.length_singleton]; omega
        rw [hl, toList_set_eq_splice _ _ _ (by omega), hnear]
        rw [slice_splice_of_lt _ _ _ _ _ (by omega) (by omega), hadjacent,
          slice_succ_left _ _ _ (by omega)]
        simp

-- Within an array the two moves are memmove, whether or not the ranges overlap.
theorem moveRight_toList (data : Vector UInt8 n) (start : Nat) (count distance : UInt8)
    (hcount : count.toNat ≤ 128) (hn : 0 < count.toNat → start + distance.toNat + count.toNat ≤ n) :
    ∃ moved, moveRight data start count distance = .ok moved ∧
      moved.toList =
        splice data.toList (start + distance.toNat) (slice data.toList start count.toNat) := by
  apply moveRightLoop_toList _ _ _ _ _ _ hcount _ (by omega) hn
  rw [Int8.toInt_ofInt, Int.bmod_eq_of_le] <;> simp <;> omega

theorem moveLeft_toList (data : Vector UInt8 n) (start back : Nat) (count : UInt8) (distance : Int8)
    (hdistance : distance.toInt = -back) (hcount : count.toNat ≤ 127)
    (hn : 0 < count.toNat → back ≤ start ∧ start + count.toNat ≤ n) :
    ∃ moved, moveLeft data start count distance = .ok moved ∧
      moved.toList = splice data.toList (start - back) (slice data.toList start count.toNat) := by
  by_cases hz : count.toNat = 0
  · refine ⟨data, ?_, by simp [slice, hz]⟩
    rw [moveLeft, moveLeftLoop, if_neg (by simp [hz])]
  · apply moveLeftLoop_toList _ _ _ _ _ _ _ _ hdistance hcount (by simp) (by omega) _ hn
    have := hn (by omega)
    omega

-- Element by element: the range that is copied to holds what the other range
-- held before, and the rest of the array is as it was.
theorem moves_are_memmove (data : Vector UInt8 n) (start : Nat) (count : UInt8)
    (hcount : count.toNat ≤ 127) :
    (∀ distance : UInt8,
      (∀ i < count.toNat, start + i < n ∧ start + distance.toNat + i < n) →
      ∃ moved, moveRight data start count distance = .ok moved ∧ ∀ k, moved[k]? =
        if start + distance.toNat ≤ k ∧ k < start + distance.toNat + count.toNat then
          data[k - distance.toNat]? else data[k]?) ∧
    ∀ (distance : Int8) (back : Nat), distance.toInt = -back →
      (∀ i < count.toNat, start + i < n ∧ back ≤ start + i) →
      ∃ moved, moveLeft data start count distance = .ok moved ∧ ∀ k, moved[k]? =
        if start ≤ k + back ∧ k + back < start + count.toNat then data[k + back]? else data[k]? := by
  have hlen : data.toList.length = n := by simp
  constructor
  · intro distance hin
    have hend (hpos : 0 < count.toNat) : start + distance.toNat + count.toNat ≤ n := by
      have := hin (count.toNat - 1) (by omega)
      omega
    obtain ⟨moved, hmoved, hl⟩ := moveRight_toList data start count distance (by omega) hend
    refine ⟨moved, hmoved, fun k => ?_⟩
    rw [← Vector.getElem?_toList, hl, getElem?_splice_slice _ _ _ _ _ fun hpos => by
      have := hend hpos
      omega]
    by_cases hk : start + distance.toNat ≤ k ∧ k < start + distance.toNat + count.toNat
    · rw [if_pos hk, if_pos hk, Vector.getElem?_toList,
        show start + (k - (start + distance.toNat)) = k - distance.toNat by omega]
    · rw [if_neg hk, if_neg hk, Vector.getElem?_toList]
  · intro distance back hdistance hin
    have hend (hpos : 0 < count.toNat) : back ≤ start ∧ start + count.toNat ≤ n := by
      have hfirst := hin 0 hpos
      have hlast := hin (count.toNat - 1) (by omega)
      omega
    obtain ⟨moved, hmoved, hl⟩ := moveLeft_toList data start back count distance hdistance hcount hend
    refine ⟨moved, hmoved, fun k => ?_⟩
    rw [← Vector.getElem?_toList, hl, getElem?_splice_slice _ _ _ _ _ fun hpos => by
      have := hend hpos
      omega]
    by_cases hk : start ≤ k + back ∧ k + back < start + count.toNat
    · obtain ⟨hback, -⟩ := hend (by omega)
      rw [if_pos (by omega), if_pos hk, Vector.getElem?_toList,
        show start + (k - (start - back)) = k + back by omega]
    · have houtside : ¬(start - back ≤ k ∧ k < start - back + count.toNat) := by
        by_cases hpos : 0 < count.toNat
        · have := hend hpos
          omega
        · omega
      rw [if_neg hk, if_neg houtside, Vector.getElem?_toList]

-- Three elements, two places to the right and two to the left, with an overlap.
theorem moves_are_memmove_overlapping :
    (∃ moved, moveRight #v[1, 2, 3, 4, 5, 6] 1 3 2 = .ok moved ∧ moved[3]? = some 2 ∧
      moved[5]? = some 4 ∧ moved[2]? = some 3) ∧
    ∃ moved, moveLeft #v[1, 2, 3, 4, 5, 6] 2 3 (-2) = .ok moved ∧ moved[0]? = some 3 ∧
      moved[2]? = some 5 ∧ moved[3]? = some 4 := by
  obtain ⟨moved, hmoved, hat⟩ :=
    (moves_are_memmove #v[1, 2, 3, 4, 5, 6] 1 3 (by decide)).1 2 (by decide)
  obtain ⟨moved', hmoved', hat'⟩ :=
    (moves_are_memmove #v[1, 2, 3, 4, 5, 6] 2 3 (by decide)).2 (-2) 2 (by decide) (by decide)
  exact ⟨⟨moved, hmoved, hat 3, hat 5, hat 2⟩, moved', hmoved', hat' 0, hat' 2, hat' 3⟩

-- The first store of a move to the right is the one furthest out.
theorem moveRight_outOfBounds (data : Vector UInt8 n) (start : Nat) (count distance : UInt8)
    (hpos : 0 < count.toNat) (hcount : count.toNat ≤ 128) (hsource : start + count.toNat ≤ n)
    (htarget : n < start + distance.toNat + count.toNat) :
    moveRight data start count distance =
      .error (.outOfBounds (start + distance.toNat + count.toNat - 1 : Nat)) := by
  have hindex : (Int8.ofInt ((count.toNat : Int) - 1)).toInt = (count.toNat : Int) - 1 := by
    rw [Int8.toInt_ofInt, Int.bmod_eq_of_le] <;> simp <;> omega
  have hlast : (start : Int) + (count.toNat - 1) = (start + count.toNat - 1 : Nat) := by omega
  have hout : ((start + count.toNat - 1 : Nat) : Int) + distance.toNat =
      (start + distance.toNat + count.toNat - 1 : Nat) := by omega
  rw [moveRight, moveRightLoop, if_pos (by omega), hlast, load_ofNat _ _ (by omega), ok_bind, hout,
    store_outOfBounds _ _ _ (by omega), error_bind]

end Mac802154
