import Mac802154.Library.Program

namespace Mac802154.Library

variable {ω : Type} {ρ : ω → Type} {ε σ : Type} {α β γ : Type}

namespace Program

@[simp] theorem bind_eq (p : Program ω ρ α) (f : α → Program ω ρ β) : (p >>= f) = p.bind f := rfl

theorem bind_assoc (p : Program ω ρ α) (f : α → Program ω ρ β) (g : β → Program ω ρ γ) :
    (p.bind f).bind g = p.bind fun a => (f a).bind g := by
  induction p with
  | ret a => rfl
  | perform op next ih => simp only [bind, ih]
  | repeatUntil body b next _ ih => simp only [bind, ih]
  | fault why => rfl

theorem bind_ret (p : Program ω ρ α) : p.bind ret = p := by
  induction p with
  | ret a => rfl
  | perform op next ih => simp only [bind, ih]
  | repeatUntil body b next _ ih => simp only [bind, ih]
  | fault why => rfl

theorem unroll_bind (body : β → Program ω ρ (β × Bool)) (b : β) (next : β → Program ω ρ α)
    (f : α → Program ω ρ γ) :
    (unroll body b next).bind f = unroll body b fun b' => (next b').bind f := by
  unfold unroll
  rw [bind_assoc]
  congr 1
  funext ⟨b', done⟩
  cases done <;> rfl

theorem isRunning_bind (p : Program ω ρ α) (f : α → Program ω ρ β) (h : p.isRunning) :
    (p.bind f).isRunning := by
  cases p with
  | perform op next => rfl
  | repeatUntil body b next => rfl
  | ret a => cases h
  | fault why => cases h

namespace Tame

variable {loops : Bool}

theorem bind {p : Program ω ρ α} {f : α → Program ω ρ β} (hp : Tame loops p)
    (hf : ∀ a, Tame loops (f a)) : Tame loops (p.bind f) := by
  induction hp with
  | ret a => exact hf a
  | perform _ ih => exact .perform fun r => ih r hf
  | repeatUntil hloops hbody _ _ ih => exact .repeatUntil hloops hbody fun b => ih b hf

theorem foldlM {f : β → γ → Program ω ρ β} (h : ∀ b c, Tame loops (f b c)) (cs : List γ) (b : β) :
    Tame loops (cs.foldlM f b) := by
  induction cs generalizing b with
  | nil => exact .ret b
  | cons c cs ih => exact (h b c).bind ih

end Tame

end Program

namespace Machine

variable {M : Machine ω ρ ε σ} {I P : σ → Prop}

@[simp] theorem run_ret (a : α) (s : σ) (ms : List (Move ε)) :
    M.run (.ret a) s ms = (.ret a, s) := by
  induction ms with
  | nil => rfl
  | cons m ms ih => cases m <;> exact ih

@[simp] theorem run_fault (why : Fault) (s : σ) (ms : List (Move ε)) :
    M.run (.fault why : Program ω ρ α) s ms = (.fault why, s) := by
  induction ms with
  | nil => rfl
  | cons m ms ih => cases m <;> exact ih

theorem run_append (p : Program ω ρ α) (s : σ) (first second : List (Move ε)) :
    M.run p s (first ++ second) = M.run (M.run p s first).1 (M.run p s first).2 second := by
  induction first generalizing p s with
  | nil => rfl
  | cons m first ih => exact ih _ _

-- While the first part runs, the second part only waits behind it.
theorem move_bind (p : Program ω ρ α) (f : α → Program ω ρ β) (s : σ) (m : Move ε)
    (h : p.isRunning) :
    M.move m (p.bind f, s) = ((M.move m (p, s)).1.bind f, (M.move m (p, s)).2) := by
  cases m with
  | event e =>
      simp only [move, h, Program.isRunning_bind p f h, Bool.true_and]
      split <;> rfl
  | act =>
      cases p with
      | perform op next => rfl
      | repeatUntil body b next =>
          simp only [move, Program.bind]
          rw [Program.unroll_bind]
      | ret a => cases h
      | fault why => cases h

-- A run of a sequence is a run of its first part, or that part has returned
-- and the remaining moves run the second.
theorem run_bind (p : Program ω ρ α) (f : α → Program ω ρ β) (s : σ) (ms : List (Move ε)) :
    ((∀ a, (M.run p s ms).1 ≠ .ret a) ∧
      M.run (p.bind f) s ms = ((M.run p s ms).1.bind f, (M.run p s ms).2)) ∨
    ∃ first second a s', ms = first ++ second ∧ M.run p s first = (.ret a, s') ∧
      M.run (p.bind f) s ms = M.run (f a) s' second := by
  induction ms generalizing p s with
  | nil =>
      cases p with
      | ret a => exact .inr ⟨[], [], a, s, rfl, rfl, rfl⟩
      | perform op next => exact .inl ⟨by simp [run], rfl⟩
      | repeatUntil body b next => exact .inl ⟨by simp [run], rfl⟩
      | fault why => exact .inl ⟨by simp [run], rfl⟩
  | cons m ms ih =>
      by_cases hp : p.isRunning
      · have hrun : M.run (p.bind f) s (m :: ms) =
            M.run ((M.move m (p, s)).1.bind f) (M.move m (p, s)).2 ms := by
          rw [run, move_bind p f s m hp]
        rcases ih (M.move m (p, s)).1 (M.move m (p, s)).2 with ⟨hne, he⟩ | ⟨first, second, a, s', hm, hr, he⟩
        · exact .inl ⟨hne, by rw [hrun, he]; rfl⟩
        · exact .inr ⟨m :: first, second, a, s', by rw [hm]; rfl, hr, by rw [hrun, he]⟩
      · cases p with
        | ret a => exact .inr ⟨[], m :: ms, a, s, rfl, rfl, rfl⟩
        | fault why => exact .inl ⟨by simp, by simp [Program.bind]⟩
        | perform op next => exact absurd rfl hp
        | repeatUntil body b next => exact absurd rfl hp

theorem meets_invariant {Q : α → σ → Prop} {c : Program ω ρ α × σ} (h : Meets I Q c) : I c.2 := by
  obtain ⟨p, s⟩ := c
  cases p with
  | ret a => exact h.1
  | perform op next => exact h
  | repeatUntil body b next => exact h
  | fault why => exact h.elim

theorem meets_mono {Q Q' : α → σ → Prop} {c : Program ω ρ α × σ} (h : Meets I Q c)
    (hQ : ∀ a s, Q a s → Q' a s) : Meets I Q' c := by
  obtain ⟨p, s⟩ := c
  cases p with
  | ret a => exact ⟨h.1, hQ a s h.2⟩
  | perform op next => exact h
  | repeatUntil body b next => exact h
  | fault why => exact h

theorem meets_bind {Q : α → σ → Prop} {R : β → σ → Prop} {c : Program ω ρ α × σ} (h : Meets I Q c)
    (hne : ∀ a, c.1 ≠ .ret a) (f : α → Program ω ρ β) : Meets I R (c.1.bind f, c.2) := by
  obtain ⟨p, s⟩ := c
  cases p with
  | ret a => exact absurd rfl (hne a)
  | perform op next => exact h
  | repeatUntil body b next => exact h
  | fault why => exact h

-- Nothing but events changes the state before a program's first step.
theorem run_cons (p : Program ω ρ α) (s : σ) (m : Move ε) (ms : List (Move ε)) :
    M.run p s (m :: ms) = M.run (M.move m (p, s)).1 (M.move m (p, s)).2 ms := rfl

namespace Triple

variable {Q : α → σ → Prop} {R : β → σ → Prop}

theorem invariant {p : Program ω ρ α} (h : M.Triple I P p Q) (s : σ) (hs : P s)
    (ms : List (Move ε)) : I (M.run p s ms).2 :=
  meets_invariant (h s hs ms)

theorem ret {a : α} (hI : ∀ s, P s → I s) (hQ : ∀ s, P s → Q a s) :
    M.Triple I P (.ret a) Q := by
  intro s hs ms
  rw [run_ret]
  exact ⟨hI s hs, hQ s hs⟩

theorem consequence {p : Program ω ρ α} {P' : σ → Prop} {Q' : α → σ → Prop}
    (h : M.Triple I P p Q) (hP : ∀ s, P' s → P s) (hQ : ∀ a s, Q a s → Q' a s) :
    M.Triple I P' p Q' :=
  fun s hs ms => meets_mono (h s (hP s hs) ms) hQ

-- Less may be asked of a run on its way.
theorem weaken {I' : σ → Prop} {p : Program ω ρ α} (h : M.Triple I P p Q)
    (hI : ∀ s, I s → I' s) : M.Triple I' P p Q := by
  intro s hs ms
  have hm := h s hs ms
  generalize M.run p s ms = c at hm
  obtain ⟨q, t⟩ := c
  cases q with
  | ret a => exact ⟨hI t hm.1, hm.2⟩
  | perform op next => exact hI t hm
  | repeatUntil body b next => exact hI t hm
  | fault why => exact hm.elim

theorem perform {op : ω} {next : ρ op → Program ω ρ α} {P' : ρ op → σ → Prop}
    (hI : ∀ s, P s → I s) (hstable : M.Stable P)
    (hop : ∀ s, P s → P' (M.perform op s).1 (M.perform op s).2)
    (hnext : ∀ r, M.Triple I (P' r) (next r) Q) : M.Triple I P (.perform op next) Q := by
  intro s hs ms
  induction ms generalizing s with
  | nil => exact hI s hs
  | cons m ms ih =>
      rw [run_cons]
      cases m with
      | act => exact hnext _ _ (hop s hs) ms
      | event e =>
          by_cases hi : M.interruptible s
          · simp only [move, Program.isRunning, hi, Bool.and_self, ite_true]
            exact ih _ (hstable s e hs hi)
          · simp only [move, hi, Bool.and_false]
            exact ih s hs

theorem bind {p : Program ω ρ α} {f : α → Program ω ρ β} (hp : M.Triple I P p Q)
    (hf : ∀ a, M.Triple I (Q a) (f a) R) : M.Triple I P (p.bind f) R := by
  intro s hs ms
  rcases run_bind p f s ms with ⟨hne, he⟩ | ⟨first, second, a, s', -, hr, he⟩
  · rw [he]
    exact meets_bind (hp s hs ms) hne f
  · rw [he]
    have hm := hp s hs first
    rw [hr] at hm
    exact hf a s' hm.2 second

-- A fact about no state can be taken out of the precondition.
theorem lift {φ : Prop} {p : Program ω ρ α} (h : φ → M.Triple I P p Q) :
    M.Triple I (fun s => P s ∧ φ) p Q :=
  fun s hs => h hs.2 s hs.1

theorem map {p : Program ω ρ α} (h : M.Triple I P p Q) (f : α → β)
    (hR : ∀ a s, Q a s → R (f a) s) : M.Triple I P (p.bind fun a => .ret (f a)) R := by
  intro s hs ms
  rcases run_bind p (fun a => .ret (f a)) s ms with ⟨hne, he⟩ | ⟨first, second, a, s', -, hr, he⟩
  · rw [he]
    exact meets_bind (h s hs ms) hne _
  · have hm := h s hs first
    rw [hr] at hm
    rw [he, run_ret]
    exact ⟨hm.1, hR a s' hm.2⟩

-- The induction is on the number of moves: each round of the loop uses some up,
-- and `J` is what holds whenever a round begins.
theorem repeatUntil {body : β → Program ω ρ (β × Bool)} {next : β → Program ω ρ α}
    {J R : β → σ → Prop} (hI : ∀ b s, J b s → I s) (hstable : ∀ b, M.Stable (J b))
    (hbody : ∀ b, M.Triple I (J b) (body b) fun r s => if r.2 then R r.1 s else J r.1 s)
    (hnext : ∀ b, M.Triple I (R b) (next b) Q) (b : β) :
    M.Triple I (J b) (.repeatUntil body b next) Q := by
  have hrounds (n : Nat) : ∀ (ms : List (Move ε)) (b : β) (s : σ), ms.length ≤ n → J b s →
      Meets I Q (M.run (.repeatUntil body b next) s ms) := by
    induction n with
    | zero =>
        intro ms b s hn hs
        obtain rfl := List.length_eq_zero_iff.mp (Nat.le_zero.mp hn)
        exact hI b s hs
    | succ n ih =>
        intro ms b s hn hs
        cases ms with
        | nil => exact hI b s hs
        | cons m ms =>
            have hms : ms.length ≤ n := Nat.le_of_succ_le_succ hn
            rw [run_cons]
            cases m with
            | event e =>
                by_cases hi : M.interruptible s
                · simp only [move, Program.isRunning, hi, Bool.and_self, ite_true]
                  exact ih ms b _ hms (hstable b s e hs hi)
                · simp only [move, hi, Bool.and_false]
                  exact ih ms b s hms hs
            | act =>
                change Meets I Q (M.run (.unroll body b next) s ms)
                rcases run_bind (body b)
                  (fun r => if r.2 then next r.1 else .repeatUntil body r.1 next) s ms with
                  ⟨hne, he⟩ | ⟨first, second, ⟨b', done⟩, s', hsplit, hr, he⟩
                · rw [Program.unroll, he]
                  exact meets_bind (hbody b s hs ms) hne _
                · rw [Program.unroll, he]
                  have hm := hbody b s hs first
                  rw [hr] at hm
                  have hlen : second.length ≤ n := by
                    rw [hsplit, List.length_append] at hms
                    omega
                  cases done with
                  | true => exact hnext b' s' hm.2 second
                  | false => exact ih second b' s' hlen hm.2
  exact fun s hs ms => hrounds ms.length ms b s (Nat.le_refl _) hs

end Triple

namespace Returns

variable {s s' s'' : σ} {ops ops' : List ω}

theorem bind {p : Program ω ρ α} {f : α → Program ω ρ β} {a : α} {b : β}
    (hp : M.Returns p s ops a s') (hf : M.Returns (f a) s' ops' b s'') :
    M.Returns (p.bind f) s (ops ++ ops') b s'' := by
  induction hp with
  | ret a s => exact hf
  | perform _ ih => exact .perform (ih hf)
  | repeatUntil _ ih =>
      have := ih hf
      rw [Program.unroll_bind] at this
      exact .repeatUntil this

theorem of_tame {p : Program ω ρ α} (hp : p.Tame false) (s : σ) :
    ∃ ops a s', M.Returns p s ops a s' := by
  induction hp generalizing s with
  | ret a => exact ⟨[], a, s, .ret a s⟩
  | @perform α op next _ ih =>
      obtain ⟨ops, a, s', h⟩ := ih (M.perform op s).1 (M.perform op s).2
      exact ⟨op :: ops, a, s', .perform h⟩
  | repeatUntil hloops => cases hloops

-- The undisturbed run is the run whose moves are all the program's own, and
-- what follows the program starts from where it ends.
theorem run_bind {p : Program ω ρ α} {a : α} (h : M.Returns p s ops a s') :
    ∃ n, ∀ (f : α → Program ω ρ β) (ms : List (Move ε)),
      M.run (p.bind f) s (List.replicate n .act ++ ms) = M.run (f a) s' ms := by
  induction h with
  | ret a s => exact ⟨0, fun f ms => rfl⟩
  | perform _ ih =>
      obtain ⟨n, hn⟩ := ih
      exact ⟨n + 1, hn⟩
  | repeatUntil _ ih =>
      obtain ⟨n, hn⟩ := ih
      refine ⟨n + 1, fun f ms => ?_⟩
      rw [← hn f ms, Program.unroll_bind]
      rfl

-- Nothing happens by itself in an undisturbed run.
theorem of_perform_eq {ε' : Type} {N : Machine ω ρ ε' σ} (he : N.perform = M.perform)
    {p : Program ω ρ α} {a : α} (h : M.Returns p s ops a s') : N.Returns p s ops a s' := by
  induction h with
  | ret a s => exact .ret a s
  | perform _ ih =>
      rw [← he] at ih
      exact .perform ih
  | repeatUntil _ ih => exact .repeatUntil ih

theorem exists_run {p : Program ω ρ α} {a : α} (h : M.Returns p s ops a s') {f : α → Program ω ρ β}
    (hf : ∃ ms, P (M.run (f a) s' ms).2) : ∃ ms, P (M.run (p.bind f) s ms).2 := by
  obtain ⟨n, hn⟩ := h.run_bind
  obtain ⟨ms, hms⟩ := hf
  refine ⟨List.replicate n .act ++ ms, ?_⟩
  rwa [hn f ms]

-- A program without loops gets to what follows it, from wherever it starts.
theorem exists_run_of_tame {p : Program ω ρ α} (hp : p.Tame false) {f : α → Program ω ρ β}
    (hf : ∀ a s, ∃ ms, P (M.run (f a) s ms).2) (s : σ) : ∃ ms, P (M.run (p.bind f) s ms).2 := by
  obtain ⟨ops, a, s', h⟩ := of_tame (M := M) hp s
  exact h.exists_run (hf a s')

theorem run_eq {p : Program ω ρ α} {a : α} (h : M.Returns p s ops a s') :
    ∃ ms, M.run p s ms = (.ret a, s') := by
  obtain ⟨n, hn⟩ := h.run_bind (β := α)
  have hrun := hn .ret []
  rw [Program.bind_ret, List.append_nil, run_ret] at hrun
  exact ⟨_, hrun⟩

-- What holds of a result in every run holds of it in this one.
theorem of_triple {p : Program ω ρ α} {a : α} {Q : α → σ → Prop} (h : M.Returns p s ops a s')
    (ht : M.Triple I P p Q) (hs : P s) : Q a s' := by
  obtain ⟨ms, hrun⟩ := h.run_eq
  have hm := ht s hs ms
  rw [hrun] at hm
  exact hm.2

end Returns

namespace Atomic

variable {s s' : σ} {ops : List ω}

theorem returns {p : Program ω ρ α} {a : α} (h : M.Atomic I p s ops a s') :
    M.Returns p s ops a s' := by
  induction h with
  | ret a s _ => exact .ret a s
  | perform _ _ _ ih => exact .perform ih

theorem bind {p : Program ω ρ α} {f : α → Program ω ρ β} {a : α} {b : β} {s'' : σ} {ops' : List ω}
    (hp : M.Atomic I p s ops a s') (hf : M.Atomic I (f a) s' ops' b s'') :
    M.Atomic I (p.bind f) s (ops ++ ops') b s'' := by
  induction hp with
  | ret a s _ => exact hf
  | perform hi hI _ ih => exact .perform hi hI (ih hf)

theorem finish {p : Program ω ρ α} {a : α} (h : M.Atomic I p s ops a s') : I s' := by
  induction h with
  | ret a s hI => exact hI
  | perform _ _ _ ih => exact ih

theorem meets {p : Program ω ρ α} {a : α} (h : M.Atomic I p s ops a s') (ms : List (Move ε)) :
    Meets I (fun b t => b = a ∧ t = s') (M.run p s ms) := by
  induction ms generalizing p s ops with
  | nil =>
      cases h with
      | ret _ _ hI => exact ⟨hI, rfl, rfl⟩
      | perform _ hI _ => exact hI
  | cons m ms ih =>
      rw [run_cons]
      cases h with
      | ret _ _ hI =>
          cases m <;> simp [move, Program.isRunning, Meets, hI]
      | perform hi hI hnext =>
          cases m with
          | act => exact ih hnext
          | event e =>
              simp only [move, hi, Bool.and_false]
              exact ih (.perform hi hI hnext)

end Atomic

-- One operation opens what is then a program without interruption.
theorem Triple.transaction {op : ω} {next : ρ op → Program ω ρ α} {Q : α → σ → Prop}
    (hI : ∀ s, P s → I s) (hstable : M.Stable P)
    (h : ∀ s, P s → ∃ ops a s', M.Atomic I (next (M.perform op s).1) (M.perform op s).2 ops a s' ∧
      Q a s') : M.Triple I P (.perform op next) Q := by
  intro s hs ms
  induction ms generalizing s with
  | nil => exact hI s hs
  | cons m ms ih =>
      rw [run_cons]
      cases m with
      | act =>
          obtain ⟨ops, a, s', hatomic, hq⟩ := h s hs
          refine meets_mono (hatomic.meets ms) ?_
          rintro b t ⟨rfl, rfl⟩
          exact hq
      | event e =>
          by_cases hi : M.interruptible s
          · simp only [move, Program.isRunning, hi, Bool.and_self, ite_true]
            exact ih _ (hstable s e hs hi)
          · simp only [move, hi, Bool.and_false]
            exact ih s hs

end Machine

end Mac802154.Library
