import Mathlib.Data.List.Basic

namespace Mac802154.Library

variable {σ γ : Type*}

-- An iterator is moved first; only where it could be moved it has an item.
inductive Drains (move : σ → Bool × σ) (current : σ → γ) : σ → List γ → σ → Prop where
  | done {s rest : σ} (h : move s = (false, rest)) : Drains move current s [] rest
  | item {s next rest : σ} {items : List γ} (h : move s = (true, next))
      (tail : Drains move current next items rest) : Drains move current s (current next :: items) rest

namespace Drains

variable {move : σ → Bool × σ} {current : σ → γ}

-- With every successful move something gets less.
theorem exists_of_measure (measure : σ → Nat)
    (hless : ∀ s next, move s = (true, next) → measure next < measure s) (s : σ) :
    ∃ items rest, Drains move current s items rest := by
  induction hm : measure s using Nat.strongRecOn generalizing s with
  | ind m ih =>
      rcases hmove : move s with ⟨moved, next⟩
      cases moved with
      | false => exact ⟨[], next, .done hmove⟩
      | true =>
          obtain ⟨items, rest, h⟩ := ih (measure next) (hm ▸ hless s next hmove) next rfl
          exact ⟨current next :: items, rest, .item hmove h⟩

-- What every move preserves holds of each item that is met.
theorem forall_items (invariant : σ → Prop) (holds : γ → Prop)
    (hmove : ∀ s next, invariant s → move s = (true, next) → invariant next)
    (hitem : ∀ s, invariant s → holds (current s)) {s rest : σ} {items : List γ}
    (h : Drains move current s items rest) (hs : invariant s) : ∀ item ∈ items, holds item := by
  induction h with
  | done h => simp
  | item h tail ih =>
      have hnext := hmove _ _ hs h
      exact List.forall_mem_cons.mpr ⟨hitem _ hnext, ih hnext⟩

theorem eq_nil_iff {s rest : σ} {items : List γ} (h : Drains move current s items rest) :
    items = [] ↔ (move s).1 = false := by
  cases h with
  | done h => simp [h]
  | item h tail => simp [h]

end Drains

end Mac802154.Library
