import Mathlib.Data.List.Basic

namespace Mac802154.Library

variable {α : Type*}

-- Overwrite the elements of `xs` from position `i` on with `ys`.
def splice (xs : List α) (i : Nat) (ys : List α) : List α :=
  xs.take i ++ ys ++ xs.drop (i + ys.length)

-- The `n` elements of `xs` from position `i` on.
def slice (xs : List α) (i n : Nat) : List α :=
  (xs.drop i).take n

-- Copy the `n` elements from position `i` on one position up. The element at
-- position `i` stays as it was.
def shiftRight (xs : List α) (i n : Nat) : List α :=
  splice xs (i + 1) (slice xs i n)

@[simp] theorem length_splice (xs ys : List α) (i : Nat) (h : i + ys.length ≤ xs.length) :
    (splice xs i ys).length = xs.length := by
  simp only [splice, List.length_append, List.length_take, List.length_drop]
  omega

@[simp] theorem splice_nil (xs : List α) (i : Nat) : splice xs i [] = xs := by
  simp [splice]

@[simp] theorem splice_cons_succ (x : α) (xs ys : List α) (i : Nat) :
    splice (x :: xs) (i + 1) ys = x :: splice xs i ys := by
  simp [splice, Nat.add_right_comm i 1]

theorem splice_append (before after ys : List α) :
    splice (before ++ after) before.length ys = before ++ (ys ++ after.drop ys.length) := by
  simp [splice]

theorem splice_replace (before old after ys : List α) (h : old.length = ys.length) :
    splice (before ++ (old ++ after)) before.length ys = before ++ (ys ++ after) := by
  rw [splice_append, ← h, List.drop_append_of_le_length (Nat.le_refl _), List.drop_length,
    List.nil_append]

theorem splice_append_right (before after ys : List α) (i : Nat) :
    splice (before ++ after) (before.length + i) ys = before ++ splice after i ys := by
  have htake : before.take (before.length + i) = before :=
    List.take_of_length_le (Nat.le_add_right _ _)
  have hdrop : before.drop (before.length + (i + ys.length)) = [] :=
    List.drop_eq_nil_of_le (Nat.le_add_right _ _)
  simp [splice, List.take_append, List.drop_append, Nat.add_assoc, htake, hdrop]

theorem drop_splice (xs ys : List α) (i : Nat) (h : i ≤ xs.length) :
    (splice xs i ys).drop i = ys ++ xs.drop (i + ys.length) := by
  have hlen : (xs.take i).length = i := by simp only [List.length_take]; omega
  rw [splice, List.append_assoc, List.drop_append_of_le_length (by omega), List.drop_eq_nil_of_le
    (by omega), List.nil_append]

theorem set_eq_splice (xs : List α) (i : Nat) (x : α) (h : i < xs.length) :
    xs.set i x = splice xs i [x] := by
  rw [List.set_eq_take_append_cons_drop, if_pos h]
  simp [splice]

theorem getElem?_splice_of_lt (xs ys : List α) (i j : Nat) (hi : i ≤ xs.length) (hj : j < i) :
    (splice xs i ys)[j]? = xs[j]? := by
  have hlen : j < (xs.take i).length := by simp only [List.length_take]; omega
  rw [splice, List.append_assoc, List.getElem?_append_left hlen, List.getElem?_take_of_lt hj]

theorem getElem?_splice_of_ge (xs ys : List α) (i j : Nat) (hi : i ≤ xs.length)
    (hj : i + ys.length ≤ j) : (splice xs i ys)[j]? = xs[j]? := by
  have hlen : (xs.take i ++ ys).length = i + ys.length := by
    simp only [List.length_append, List.length_take]; omega
  rw [splice, List.getElem?_append_right (by omega), hlen, List.getElem?_drop]
  congr 1
  omega

theorem getElem?_splice_of_mem (xs ys : List α) (i j : Nat) (hi : i ≤ xs.length)
    (hlo : i ≤ j) (hhi : j < i + ys.length) : (splice xs i ys)[j]? = ys[j - i]? := by
  have hlen : (xs.take i).length = i := by simp only [List.length_take]; omega
  rw [splice, List.append_assoc, List.getElem?_append_right (by omega), hlen,
    List.getElem?_append_left (by omega)]

-- Two neighbouring overwrites are one.
theorem splice_splice_left (xs ys zs : List α) (i : Nat)
    (h : i + ys.length + zs.length ≤ xs.length) :
    splice (splice xs (i + ys.length) zs) i ys = splice xs i (ys ++ zs) := by
  have htake : (xs.take (i + ys.length) ++ zs).length = i + ys.length + zs.length := by
    simp only [List.length_append, List.length_take]; omega
  have hfirst : (splice xs (i + ys.length) zs).take i = xs.take i := by
    rw [splice, List.append_assoc, List.take_append_of_le_length (by
      simp only [List.length_take]; omega), List.take_take, Nat.min_eq_left (by omega)]
  have hrest : (splice xs (i + ys.length) zs).drop (i + ys.length) =
      zs ++ xs.drop (i + ys.length + zs.length) := by
    rw [splice, List.append_assoc, List.drop_append_of_le_length (by
      simp only [List.length_take]; omega)]
    simp
  rw [splice, hfirst, hrest]
  simp [splice, Nat.add_assoc]

theorem splice_splice_right (xs ys zs : List α) (i : Nat)
    (h : i + ys.length + zs.length ≤ xs.length) :
    splice (splice xs i ys) (i + ys.length) zs = splice xs i (ys ++ zs) := by
  have hlen : (xs.take i ++ ys).length = i + ys.length := by
    simp only [List.length_append, List.length_take]; omega
  have hfirst : (splice xs i ys).take (i + ys.length) = xs.take i ++ ys := by
    rw [splice, List.take_append_of_le_length (by omega), List.take_of_length_le (by omega)]
  have hrest : (splice xs i ys).drop (i + ys.length + zs.length) =
      xs.drop (i + ys.length + zs.length) := by
    rw [splice, List.drop_append, List.drop_eq_nil_of_le (by omega), List.nil_append, hlen,
      List.drop_drop]
    congr 1
    omega
  rw [splice, hfirst, hrest]
  simp [splice, Nat.add_assoc]

@[simp] theorem slice_cons_succ (x : α) (xs : List α) (i n : Nat) :
    slice (x :: xs) (i + 1) n = slice xs i n := rfl

theorem slice_append (before ys after : List α) :
    slice (before ++ (ys ++ after)) before.length ys.length = ys := by
  simp [slice]

theorem slice_add (xs : List α) (i m n : Nat) :
    slice xs i (m + n) = slice xs i m ++ slice xs (i + m) n := by
  rw [slice, slice, slice, List.take_add, List.drop_drop]

theorem prefix_iff_slice (xs ys : List α) : ys <+: xs ↔ slice xs 0 ys.length = ys := by
  rw [List.prefix_iff_eq_take, slice, List.drop_zero, eq_comm]

theorem length_slice (xs : List α) (i n : Nat) (h : i + n ≤ xs.length) :
    (slice xs i n).length = n := by
  simp only [slice, List.length_take, List.length_drop]
  omega

theorem slice_succ_right (xs : List α) (i n : Nat) (h : i + n < xs.length) :
    slice xs i (n + 1) = slice xs i n ++ [xs[i + n]] := by
  have hn : n < (xs.drop i).length := by simp only [List.length_drop]; omega
  rw [slice, slice, ← List.take_concat_get hn]
  simp

theorem slice_succ_left (xs : List α) (i n : Nat) (h : i < xs.length) :
    slice xs i (n + 1) = xs[i] :: slice xs (i + 1) n := by
  rw [slice, slice, List.drop_eq_getElem_cons h, List.take_succ_cons]

theorem getElem?_slice (xs : List α) (i n j : Nat) (h : j < n) : (slice xs i n)[j]? = xs[i + j]? := by
  rw [slice, List.getElem?_take_of_lt h, List.getElem?_drop]

theorem length_shiftRight (xs : List α) (i n : Nat) (h : i + 1 + n ≤ xs.length) :
    (shiftRight xs i n).length = xs.length := by
  have hlen : (slice xs i n).length = n := length_slice xs i n (by omega)
  rw [shiftRight, length_splice _ _ _ (by omega)]

-- The elements from `start` on are copied to `target`, overlap or not.
theorem getElem?_splice_slice (xs : List α) (start target n k : Nat)
    (h : 0 < n → start + n ≤ xs.length ∧ target + n ≤ xs.length) :
    (splice xs target (slice xs start n))[k]? =
      if target ≤ k ∧ k < target + n then xs[start + (k - target)]? else xs[k]? := by
  by_cases hn : n = 0
  · subst hn
    simp only [slice, List.take_zero, splice_nil]
    rw [if_neg (by omega)]
  obtain ⟨hstart, htarget⟩ := h (Nat.pos_of_ne_zero hn)
  have hlen : (slice xs start n).length = n := length_slice xs start n hstart
  by_cases hk : target ≤ k ∧ k < target + n
  · rw [if_pos hk, getElem?_splice_of_mem _ _ _ _ (by omega) hk.1 (by omega), slice,
      List.getElem?_take_of_lt (by omega), List.getElem?_drop]
  · rw [if_neg hk]
    by_cases hlo : k < target
    · exact getElem?_splice_of_lt _ _ _ _ (by omega) hlo
    · exact getElem?_splice_of_ge _ _ _ _ (by omega) (by omega)

theorem getElem?_shiftRight (xs : List α) (i n j : Nat) (h : i + 1 + n ≤ xs.length) :
    (shiftRight xs i n)[j]? = if i < j ∧ j < i + 1 + n then xs[j - 1]? else xs[j]? := by
  rw [shiftRight, getElem?_splice_slice xs i (i + 1) n j fun _ => ⟨by omega, h⟩]
  by_cases hj : i < j ∧ j < i + 1 + n
  · rw [if_pos (by omega), if_pos hj, show i + (j - (i + 1)) = j - 1 by omega]
  · rw [if_neg hj, if_neg (by omega)]

theorem cons_prefix_iff_getElem? {x : α} {xs ys : List α} (hy : ys[0]? = some x) :
    x :: xs <+: ys ↔ ∀ j, 1 ≤ j → j < 1 + xs.length → ys[j]? = xs[j - 1]? := by
  cases ys with
  | nil => simp at hy
  | cons y ys =>
      simp only [List.getElem?_cons_zero, Option.some.injEq] at hy
      subst hy
      rw [List.cons_prefix_cons, List.prefix_iff_getElem?]
      constructor
      · rintro ⟨-, h⟩ j hlo hhi
        obtain ⟨j, rfl⟩ := Nat.exists_eq_add_of_le' hlo
        simp only [List.getElem?_cons_succ, Nat.add_sub_cancel]
        rw [h j (by omega), List.getElem?_eq_getElem]
      · intro h
        refine ⟨rfl, fun j hj => ?_⟩
        have := h (j + 1) (by omega) (by omega)
        simpa [List.getElem?_eq_getElem hj] using this

-- All elements are equal.
def Constant (xs : List α) : Prop :=
  ∀ x ∈ xs, xs[0]? = some x

theorem constant_iff_getElem? (xs : List α) :
    Constant xs ↔ ∀ i < xs.length, xs[i]? = xs[0]? := by
  constructor
  · intro h i hi
    rw [h xs[i] (List.getElem_mem hi), List.getElem?_eq_getElem hi]
  · intro h x hx
    obtain ⟨i, hi, rfl⟩ := List.getElem_of_mem hx
    rw [← h i hi, List.getElem?_eq_getElem hi]

theorem constant_iff_neighbours (xs : List α) :
    Constant xs ↔ ∀ i, i + 1 < xs.length → xs[i + 1]? = xs[i]? := by
  rw [constant_iff_getElem?]
  constructor
  · intro h i hi
    rw [h (i + 1) hi, h i (by omega)]
  · intro h i
    induction i with
    | zero => exact fun _ => rfl
    | succ i ih => exact fun hi => (h i hi).trans (ih (by omega))

-- A range holds the same one place further only if it is constant.
theorem slice_succ_eq_iff (xs : List α) (i n : Nat) (h : i + 1 + n ≤ xs.length) :
    slice xs (i + 1) n = slice xs i n ↔ Constant (slice xs i (n + 1)) := by
  have hlen := length_slice xs i (n + 1) (by omega)
  rw [constant_iff_neighbours, hlen]
  constructor
  · intro heq j hj
    have hj' := congrArg (·[j]?) heq
    simp only [getElem?_slice xs _ n j (by omega)] at hj'
    rw [getElem?_slice _ _ _ _ hj, getElem?_slice _ _ _ _ (by omega), ← hj']
    congr 1
    omega
  · intro hequal
    apply List.ext_getElem?
    intro j
    by_cases hj : j < n
    · have hnext := hequal j (by omega)
      rw [getElem?_slice _ _ _ _ (by omega), getElem?_slice _ _ _ _ (by omega)] at hnext
      rw [getElem?_slice _ _ _ _ hj, getElem?_slice _ _ _ _ hj, ← hnext]
      congr 1
      omega
    · rw [List.getElem?_eq_none (by rw [length_slice _ _ _ (by omega)]; omega),
        List.getElem?_eq_none (by rw [length_slice _ _ _ (by omega)]; omega)]

end Mac802154.Library
