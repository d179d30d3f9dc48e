import Mac802154.Library.Splice

namespace Mac802154.Library

-- A byte memory, and its part from `start` on.
abbrev Memory := Nat → UInt8

namespace Memory

def contents (memory : Memory) (start n : Nat) : List UInt8 :=
  (List.range' start n).map memory

-- A memory that begins with these bytes.
def StartsWith (memory : Memory) (bytes : List UInt8) : Prop :=
  memory.contents 0 bytes.length = bytes

def overwrite (memory : Memory) (start : Nat) (bytes : List UInt8) : Memory :=
  fun i => if start ≤ i ∧ i < start + bytes.length then bytes.getD (i - start) 0 else memory i

@[simp] theorem length_contents (memory : Memory) (start n : Nat) :
    (memory.contents start n).length = n := by
  simp [contents]

theorem contents_succ (memory : Memory) (start n : Nat) :
    memory.contents start (n + 1) = memory start :: memory.contents (start + 1) n := by
  simp [contents, List.range'_succ]

theorem contents_append (memory : Memory) (start m n : Nat) :
    memory.contents start (m + n) = memory.contents start m ++ memory.contents (start + m) n := by
  simp [contents, ← List.range'_append_1]

theorem slice_contents (memory : Memory) (start n i k : Nat) (h : i + k ≤ n) :
    slice (memory.contents start n) i k = memory.contents (start + i) k := by
  have hslice := slice_append (memory.contents start i) (memory.contents (start + i) k)
    (memory.contents (start + i + k) (n - (i + k)))
  rwa [← contents_append, ← contents_append, length_contents, length_contents,
    show i + (k + (n - (i + k))) = n by omega] at hslice

theorem contents_eq_of_getD (memory : Memory) (start : Nat) (bytes : List UInt8)
    (h : ∀ i < bytes.length, memory (start + i) = bytes.getD i 0) :
    memory.contents start bytes.length = bytes := by
  apply List.ext_getElem (by simp)
  intro i hi hi'
  simp [contents, h i hi', hi']

theorem contents_congr {first second : Memory} {start n : Nat}
    (h : ∀ i, start ≤ i → i < start + n → first i = second i) :
    first.contents start n = second.contents start n := by
  apply List.map_congr_left
  intro i hi
  rw [List.mem_range'_1] at hi
  exact h i hi.1 hi.2

-- The same bytes at two places.
theorem contents_shift {first second : Memory} {start start' n : Nat}
    (h : ∀ i < n, first (start + i) = second (start' + i)) :
    first.contents start n = second.contents start' n := by
  apply List.ext_getElem (by simp)
  intro i hi hi'
  simp only [contents, List.getElem_map, List.getElem_range', Nat.one_mul]
  exact h i (by simpa using hi)

theorem overwrite_of_mem (memory : Memory) (start : Nat) (bytes : List UInt8) (i : Nat)
    (hlo : start ≤ i) (hhi : i < start + bytes.length) :
    memory.overwrite start bytes i = bytes.getD (i - start) 0 :=
  if_pos ⟨hlo, hhi⟩

theorem overwrite_of_not_mem (memory : Memory) (start : Nat) (bytes : List UInt8) (i : Nat)
    (h : i < start ∨ start + bytes.length ≤ i) : memory.overwrite start bytes i = memory i :=
  if_neg (by omega)

@[simp] theorem overwrite_nil (memory : Memory) (start : Nat) : memory.overwrite start [] = memory := by
  funext i
  exact overwrite_of_not_mem _ _ _ _ (by simp; omega)

-- A burst is the overwrite of its first byte and then of the others.
theorem overwrite_cons (memory : Memory) (start : Nat) (byte : UInt8) (bytes : List UInt8) :
    memory.overwrite start (byte :: bytes) =
      (memory.overwrite start [byte]).overwrite (start + 1) bytes := by
  funext i
  by_cases hin : start ≤ i ∧ i < start + (byte :: bytes).length
  · rw [overwrite_of_mem _ _ _ _ hin.1 hin.2]
    rw [List.length_cons] at hin
    by_cases he : i = start
    · subst he
      rw [overwrite_of_not_mem _ _ _ _ (by omega), overwrite_of_mem _ _ _ _ (Nat.le_refl i) (by simp)]
      simp
    · rw [overwrite_of_mem _ _ _ _ (by omega) (by omega), show i - start = i - (start + 1) + 1 by omega]
      simp
  · rw [List.length_cons] at hin
    rw [overwrite_of_not_mem _ _ _ _ (by simp only [List.length_cons]; omega),
      overwrite_of_not_mem _ _ _ _ (by omega), overwrite_of_not_mem _ _ _ _ (by simp; omega)]

theorem contents_overwrite (memory : Memory) (start : Nat) (bytes : List UInt8) :
    (memory.overwrite start bytes).contents start bytes.length = bytes := by
  apply List.ext_getElem (by simp)
  intro i hi hi'
  simp only [contents, List.getElem_map, List.getElem_range', Nat.one_mul]
  rw [overwrite_of_mem _ _ _ _ (by omega) (by omega), Nat.add_sub_cancel_left]
  simp [hi']

theorem contents_overwrite_of_disjoint (memory : Memory) (start n at' : Nat) (bytes : List UInt8)
    (h : start + n ≤ at' ∨ at' + bytes.length ≤ start) :
    (memory.overwrite at' bytes).contents start n = memory.contents start n :=
  contents_congr fun i hlo hhi => overwrite_of_not_mem _ _ _ _ (by omega)

-- A copy of a part of another memory.
theorem overwrite_contents_of_lt (memory other : Memory) (start from' n i : Nat) (hi : i < n) :
    memory.overwrite start (other.contents from' n) (start + i) = other (from' + i) := by
  rw [overwrite_of_mem _ _ _ _ (Nat.le_add_right start i) (by rw [length_contents]; omega),
    Nat.add_sub_cancel_left, contents, List.getD_eq_getElem?_getD, List.getElem?_map,
    List.getElem?_range' hi]
  simp

end Memory

end Mac802154.Library
