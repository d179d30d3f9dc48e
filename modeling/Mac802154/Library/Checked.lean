import Mathlib.Data.List.Induction
import Mac802154.Library.Splice

namespace Mac802154.Library

-- Why a computation has no result: it touched an element that the array does
-- not have, or a bounded loop ran out of fuel.
inductive Fault where
  | outOfBounds (index : Int)
  | outOfFuel
deriving DecidableEq, Repr

abbrev Checked := Except Fault

variable {α : Type*} {n : Nat}

-- Positions are integers because pointer arithmetic may leave the array on
-- either side; only an access there is a fault.
def load (data : Vector α n) (index : Int) : Checked α :=
  if h : 0 ≤ index ∧ index < n then .ok (data.get ⟨index.toNat, by omega⟩)
  else .error (.outOfBounds index)

def store (data : Vector α n) (index : Int) (value : α) : Checked (Vector α n) :=
  if h : 0 ≤ index ∧ index < n then .ok (data.set index.toNat value (by omega))
  else .error (.outOfBounds index)

theorem load_ofNat (data : Vector α n) (index : Nat) (h : index < n) :
    load data index = .ok data[index] := by
  simp [load, h, Vector.get]

theorem store_ofNat (data : Vector α n) (index : Nat) (value : α) (h : index < n) :
    store data index value = .ok (data.set index value) := by
  simp [store, h]

theorem store_outOfBounds (data : Vector α n) (index : Int) (value : α)
    (h : ¬(0 ≤ index ∧ index < n)) : store data index value = .error (.outOfBounds index) := by
  rw [store, dif_neg h]

@[simp] theorem ok_bind {β γ : Type} (x : β) (f : β → Checked γ) :
    ((Except.ok x : Checked β) >>= f) = f x := rfl

@[simp] theorem error_bind {β γ : Type} (fault : Fault) (f : β → Checked γ) :
    ((Except.error fault : Checked β) >>= f) = .error fault := rfl

theorem bind_eq_ok {β γ : Type} {x : Checked β} {f : β → Checked γ} {y : γ} :
    (x >>= f) = .ok y ↔ ∃ z, x = .ok z ∧ f z = .ok y := by
  cases x with
  | ok z => simp
  | error fault => simp

-- A run of partial operations from a start state.
def runAll {σ : Type} {ω : Type*} (step : ω → σ → Checked σ) : List ω → σ → Checked σ
  | [], s => .ok s
  | op :: ops, s => step op s >>= runAll step ops

theorem runAll_append {σ : Type} {ω : Type*} (step : ω → σ → Checked σ) (first second : List ω) (s : σ) :
    runAll step (first ++ second) s = (runAll step first s >>= runAll step second) := by
  induction first generalizing s with
  | nil => rfl
  | cons op ops ih =>
      simp only [List.cons_append, runAll]
      cases step op s with
      | ok next => exact ih next
      | error fault => rfl

-- What one operation preserves together with the abstract state it tracks, a
-- whole run preserves, and no operation of the run faults.
theorem runAll_invariant {σ : Type} {ω γ : Type*} (step : ω → σ → Checked σ) (track : γ → ω → γ)
    (holds : γ → σ → Prop)
    (hstep : ∀ g s op, holds g s → ∃ next, step op s = .ok next ∧ holds (track g op) next)
    (ops : List ω) (g : γ) (s : σ) (h : holds g s) :
    ∃ last, runAll step ops s = .ok last ∧ holds (ops.foldl track g) last := by
  induction ops generalizing g s with
  | nil => exact ⟨s, rfl, h⟩
  | cons op ops ih =>
      obtain ⟨next, he, hn⟩ := hstep g s op h
      obtain ⟨last, hl, hi⟩ := ih (track g op) next hn
      exact ⟨last, by rw [runAll, he, ok_bind, hl], hi⟩

-- A run has a result exactly if each of its operations is allowed in the state it finds.
theorem runAll_ok_iff {σ : Type} {ω : Type*} (step : ω → σ → Checked σ) (allowed : ω → σ → Prop)
    (hstep : ∀ op s, (∃ next, step op s = .ok next) ↔ allowed op s) (ops : List ω) (s : σ) :
    (∃ last, runAll step ops s = .ok last) ↔
      ∀ before op after, ops = before ++ op :: after →
        ∀ mid, runAll step before s = .ok mid → allowed op mid := by
  induction ops generalizing s with
  | nil =>
      refine ⟨fun _ before op after he => ?_, fun _ => ⟨s, rfl⟩⟩
      exact absurd he.symm (by simp)
  | cons op ops ih =>
      constructor
      · rintro ⟨last, hlast⟩ before op' after he mid hmid
        obtain ⟨next, hnext, hrest⟩ := bind_eq_ok.mp hlast
        cases before with
        | nil =>
            obtain ⟨rfl, -⟩ := List.cons_eq_cons.mp he
            cases hmid
            exact (hstep op s).mp ⟨next, hnext⟩
        | cons first before =>
            obtain ⟨rfl, htail⟩ := List.cons_eq_cons.mp he
            rw [runAll, hnext, ok_bind] at hmid
            exact (ih next).mp ⟨last, hrest⟩ before op' after htail mid hmid
      · intro hall
        obtain ⟨next, hnext⟩ := (hstep op s).mpr (hall [] op ops rfl s rfl)
        obtain ⟨last, hlast⟩ := (ih next).mpr (fun before op' after he mid hmid =>
          hall (op :: before) op' after (by rw [he]; rfl) mid (by rw [runAll, hnext, ok_bind, hmid]))
        exact ⟨last, by rw [runAll, hnext, ok_bind, hlast]⟩

-- What is to be observed after every operation of a run, and the invariant that
-- carries it, hold along the run exactly if each operation is allowed where it
-- is made.
theorem runAll_observed_iff {σ : Type} {ω γ : Type*} (step : ω → σ → Checked σ) (track : γ → ω → γ)
    (invariant observed : γ → σ → Prop) (allowed : γ → ω → σ → Prop)
    (hobserved : ∀ g s, invariant g s → observed g s)
    (hkeep : ∀ g s op, invariant g s → allowed g op s →
      ∃ next, step op s = .ok next ∧ invariant (track g op) next)
    (hneeded : ∀ g s op next, invariant g s → step op s = .ok next → observed (track g op) next →
      allowed g op s)
    (ops : List ω) (g : γ) (s : σ) (h : invariant g s) :
    (∀ first rest, ops = first ++ rest →
      ∃ last, runAll step first s = .ok last ∧ observed (first.foldl track g) last) ↔
      ∀ before op after, ops = before ++ op :: after →
        ∀ mid, runAll step before s = .ok mid → allowed (before.foldl track g) op mid := by
  have hsnoc {first : List ω} {op : ω} {mid next : σ} (hmid : runAll step first s = .ok mid)
      (hnext : step op mid = .ok next) : runAll step (first ++ [op]) s = .ok next := by
    rw [runAll_append, hmid, ok_bind, runAll, hnext, ok_bind, runAll]
  -- the invariant is carried from one operation of the run to the next
  have hcarry (hall : ∀ before op after, ops = before ++ op :: after →
      ∀ mid, runAll step before s = .ok mid → invariant (before.foldl track g) mid →
        allowed (before.foldl track g) op mid) (first : List ω) :
      ∀ rest, ops = first ++ rest →
        ∃ last, runAll step first s = .ok last ∧ invariant (first.foldl track g) last := by
    induction first using List.reverseRecOn with
    | nil => exact fun _ _ => ⟨s, rfl, h⟩
    | append_singleton first op ih =>
        intro rest he
        rw [List.append_assoc] at he
        obtain ⟨mid, hmid, hi⟩ := ih _ he
        obtain ⟨next, hnext, hi'⟩ := hkeep _ mid op hi (hall first op rest he mid hmid hi)
        exact ⟨next, hsnoc hmid hnext, by rw [List.foldl_append]; exact hi'⟩
  constructor
  · intro hall
    have hstep : ∀ before op after, ops = before ++ op :: after →
        ∀ mid, runAll step before s = .ok mid → invariant (before.foldl track g) mid →
          allowed (before.foldl track g) op mid := by
      intro before op after he mid hmid hi
      obtain ⟨next, hnext, ho⟩ := hall (before ++ [op]) after (by rw [he, List.append_assoc]; rfl)
      rw [runAll_append, hmid, ok_bind] at hnext
      obtain ⟨next', hnext', hend⟩ := bind_eq_ok.mp hnext
      cases hend
      rw [List.foldl_append] at ho
      exact hneeded _ mid op next hi hnext' ho
    intro before op after he mid hmid
    obtain ⟨mid', hmid', hi⟩ := hcarry hstep before (op :: after) he
    rw [hmid] at hmid'
    cases hmid'
    exact hstep before op after he mid hmid hi
  · intro hall first rest he
    obtain ⟨last, hlast, hi⟩ := hcarry (fun before op after he mid hmid _ =>
      hall before op after he mid hmid) first rest he
    exact ⟨last, hlast, hobserved _ _ hi⟩

end Mac802154.Library
