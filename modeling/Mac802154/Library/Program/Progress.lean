import Mac802154.Library.Program.Session

namespace Mac802154.Library

variable {ω : Type} {ρ : ω → Type} {ε σ : Type} {α β : Type}

-- The steps of the program among the moves.
def acts : List (Move ε) → Nat
  | [] => 0
  | .act :: ms => acts ms + 1
  | .event _ :: ms => acts ms

theorem acts_append (first second : List (Move ε)) :
    acts (first ++ second) = acts first + acts second := by
  induction first with
  | nil => exact (Nat.zero_add _).symm
  | cons m first ih =>
      cases m with
      | act =>
          rw [List.cons_append, acts, acts, ih]
          omega
      | event e => exact ih

theorem acts_replicate (n : Nat) : acts (List.replicate n (.act : Move ε)) = n := by
  induction n with
  | zero => rfl
  | succ n ih => exact congrArg (· + 1) ih

theorem exists_acts_eq {n : Nat} {ms : List (Move ε)} (h : n ≤ acts ms) :
    ∃ first second, ms = first ++ second ∧ acts first = n := by
  induction ms generalizing n with
  | nil => exact ⟨[], [], rfl, (Nat.le_zero.mp h).symm⟩
  | cons m ms ih =>
      cases m with
      | act =>
          cases n with
          | zero => exact ⟨[], _, rfl, rfl⟩
          | succ n =>
              obtain ⟨first, second, rfl, hn⟩ := ih (Nat.le_of_succ_le_succ h)
              exact ⟨.act :: first, second, rfl, congrArg (· + 1) hn⟩
      | event e =>
          obtain ⟨first, second, rfl, hn⟩ := ih h
          exact ⟨.event e :: first, second, rfl, hn⟩

namespace Program

theorem isRunning_of_bind {p : Program ω ρ α} {f : α → Program ω ρ β} (hne : ∀ a, p ≠ .ret a)
    (h : (p.bind f).isRunning) : p.isRunning := by
  cases p with
  | ret a => exact absurd rfl (hne a)
  | perform op next => rfl
  | repeatUntil body b next => rfl
  | fault why => cases h

-- A program without loops that performs at most `n` operations and then returns.
inductive Bounded : {α : Type} → Nat → Program ω ρ α → Prop where
  | ret {α : Type} {n : Nat} (a : α) : Bounded n (.ret a)
  | perform {α : Type} {n : Nat} {op : ω} {next : ρ op → Program ω ρ α}
      (h : ∀ r, Bounded n (next r)) : Bounded (n + 1) (.perform op next)

namespace Bounded

theorem mono {m n : Nat} {p : Program ω ρ α} (h : Bounded m p) (hmn : m ≤ n) : Bounded n p := by
  induction h generalizing n with
  | ret a => exact .ret a
  | perform _ ih =>
      obtain ⟨n, rfl⟩ := Nat.exists_eq_add_of_le' (Nat.le_trans (Nat.le_add_left 1 _) hmn)
      exact .perform fun r => ih r (Nat.le_of_succ_le_succ hmn)

theorem bind {m n : Nat} {p : Program ω ρ α} {f : α → Program ω ρ β} (hp : Bounded m p)
    (hf : ∀ a, Bounded n (f a)) : Bounded (m + n) (p.bind f) := by
  induction hp with
  | ret a => exact (hf a).mono (Nat.le_add_left n _)
  | perform _ ih =>
      rw [Nat.add_right_comm]
      exact .perform fun r => ih r

theorem map {n : Nat} {p : Program ω ρ α} (hp : Bounded n p) (f : α → β) :
    Bounded n (p.bind fun a => .ret (f a)) :=
  hp.bind (n := 0) fun a => .ret (f a)

theorem foldlM {n : Nat} {γ : Type} {f : β → γ → Program ω ρ β} (h : ∀ b c, Bounded n (f b c))
    (cs : List γ) (b : β) : Bounded (cs.length * n) (cs.foldlM f b) := by
  induction cs generalizing b with
  | nil => exact .ret b
  | cons c cs ih =>
      rw [List.length_cons, Nat.succ_mul, Nat.add_comm]
      exact (h b c).bind ih

end Bounded

end Program

namespace Machine

variable {M : Machine ω ρ ε σ} {P F : σ → Prop} {Q : α → σ → Prop} {n : Nat}

theorem Triple.of_bounded {I : σ → Prop} {p : Program ω ρ α} (h : p.Bounded n) (hI : ∀ s, I s) :
    M.Triple I P p fun _ _ => True := by
  rintro s - ms
  induction ms generalizing n p s with
  | nil =>
      cases h with
      | ret a => exact ⟨hI s, trivial⟩
      | perform h => exact hI s
  | cons m ms ih =>
      rw [run_cons]
      cases m with
      | act =>
          cases h with
          | ret a => exact ih (.ret (n := n) a) s
          | perform h => exact ih (h _) _
      | event e =>
          simp only [move]
          split
          · exact ih h _
          · exact ih h _

-- Whatever happens in between, after `n` steps of its own it has returned.
def Within (M : Machine ω ρ ε σ) (n : Nat) (Q : α → σ → Prop) (c : Program ω ρ α × σ) : Prop :=
  ∀ ms, n ≤ acts ms → ∃ a s, M.run c.1 c.2 ms = (.ret a, s) ∧ Q a s

namespace Within

theorem ret {a : α} {s : σ} (h : Q a s) : M.Within n Q (.ret a, s) :=
  fun ms _ => ⟨a, s, run_ret a s ms, h⟩

theorem mono {m : Nat} {Q' : α → σ → Prop} {c : Program ω ρ α × σ} (h : M.Within n Q c)
    (hnm : n ≤ m) (hQ : ∀ a s, Q a s → Q' a s) : M.Within m Q' c := by
  intro ms hms
  obtain ⟨a, s, hrun, hq⟩ := h ms (Nat.le_trans hnm hms)
  exact ⟨a, s, hrun, hQ a s hq⟩

theorem of_bounded {p : Program ω ρ α} (h : p.Bounded n) (s : σ) :
    M.Within n (fun _ _ => True) (p, s) := by
  intro ms hms
  induction ms generalizing n p s with
  | nil =>
      cases h with
      | ret a => exact ⟨a, s, rfl, trivial⟩
      | perform h => cases hms
  | cons m ms ih =>
      rw [run_cons]
      cases m with
      | act =>
          cases h with
          | ret a => exact ih (.ret a) s (Nat.zero_le _)
          | perform h => exact ih (h _) _ (Nat.le_of_succ_le_succ hms)
      | event e =>
          simp only [move]
          split
          · exact ih h _ hms
          · exact ih h _ hms

-- The induction of all the rules below: events cannot take away what holds
-- before a program's first step.
theorem of_act {p : Program ω ρ α} (hp : p.isRunning) (hstable : M.Stable P)
    (hact : ∀ s, P s → M.Within n Q (M.move .act (p, s))) (s : σ) (hs : P s) :
    M.Within (n + 1) Q (p, s) := by
  intro ms hms
  induction ms generalizing s with
  | nil => cases hms
  | cons m ms ih =>
      cases m with
      | act => exact hact s hs ms (Nat.le_of_succ_le_succ hms)
      | event e =>
          by_cases hi : M.interruptible s
          · have := ih (M.occur e s) (hstable s e hs hi) hms
            simpa only [run_cons, move, hp, hi, Bool.and_self, ite_true] using this
          · have := ih s hs hms
            simpa only [run_cons, move, hi, Bool.and_false, Bool.false_eq_true, ite_false] using this

theorem bind {m : Nat} {p : Program ω ρ α} {f : α → Program ω ρ β} {R : β → σ → Prop} {s : σ}
    (hp : M.Within n Q (p, s)) (hf : ∀ a t, Q a t → M.Within m R (f a, t)) :
    M.Within (n + m) R (p.bind f, s) := by
  intro ms hms
  obtain ⟨first, second, rfl, hn⟩ := exists_acts_eq (Nat.le_trans (Nat.le_add_right n m) hms)
  rw [acts_append, hn] at hms
  obtain ⟨a, t, hrun, hq⟩ := hp first (Nat.le_of_eq hn.symm)
  rw [run_append]
  rcases run_bind p f s first with ⟨hne, -⟩ | ⟨before, behind, a', t', hsplit, hfirst, he⟩
  · exact absurd (congrArg Prod.fst hrun) (hne a)
  · rw [hsplit, run_append, hfirst, run_ret] at hrun
    cases hrun
    rw [he, ← run_append]
    exact hf _ _ hq (behind ++ second) (by rw [acts_append]; omega)

end Within

theorem Atomic.within {I : σ → Prop} {p : Program ω ρ α} {s s' : σ} {ops : List ω} {a : α}
    (h : M.Atomic I p s ops a s') : M.Within ops.length (fun b t => b = a ∧ t = s') (p, s) := by
  intro ms hms
  induction ms generalizing p s ops with
  | nil =>
      cases h with
      | ret _ _ _ => exact ⟨_, _, rfl, rfl, rfl⟩
      | perform _ _ _ => cases hms
  | cons m ms ih =>
      rw [run_cons]
      cases h with
      | ret _ _ hI =>
          cases m <;> exact ih (.ret _ _ hI) (Nat.zero_le _)
      | perform hi hI hnext =>
          cases m with
          | act => exact ih hnext (Nat.le_of_succ_le_succ hms)
          | event e =>
              simp only [move, hi, Bool.and_false]
              exact ih (.perform hi hI hnext) hms

-- It cannot be interrupted before it has returned.
theorem Atomic.busy {I : σ → Prop} {p : Program ω ρ α} {s s' : σ} {ops : List ω} {a : α}
    (h : M.Atomic I p s ops a s') (ms : List (Move ε)) (hrunning : (M.run p s ms).1.isRunning) :
    M.interruptible (M.run p s ms).2 = false := by
  induction ms generalizing p s ops with
  | nil =>
      cases h with
      | ret _ _ _ => cases hrunning
      | perform hi _ _ => exact hi
  | cons m ms ih =>
      rw [run_cons] at hrunning ⊢
      cases h with
      | ret _ _ hI =>
          cases m <;> exact ih (.ret _ _ hI) hrunning
      | perform hi hI hnext =>
          cases m with
          | act => exact ih hnext hrunning
          | event e =>
              simp only [move, hi, Bool.and_false] at hrunning ⊢
              exact ih (.perform hi hI hnext) hrunning

-- Where a run stands and may be interrupted, `F` makes it return within `n` steps.
def Soon (M : Machine ω ρ ε σ) (n : Nat) (F : σ → Prop) (Q : α → σ → Prop)
    (c : Program ω ρ α × σ) : Prop :=
  c.1.isRunning → M.interruptible c.2 → F c.2 → M.Within n Q c

-- From when `F` holds, at the start or wherever a run stands, the program returns
-- within `n` steps.
structure Responds (M : Machine ω ρ ε σ) (n : Nat) (F P : σ → Prop) (p : Program ω ρ α)
    (Q : α → σ → Prop) : Prop where
  start : ∀ s, P s → F s → M.Within n Q (p, s)
  running : ∀ s, P s → ∀ ms, M.Soon n F Q (M.run p s ms)

namespace Responds

variable {I : σ → Prop}

theorem bind {m : Nat} {p : Program ω ρ α} {f : α → Program ω ρ β} {R : β → σ → Prop}
    (hp : M.Responds n F P p fun a s => Q a s ∧ F s) (htriple : M.Triple I P p Q)
    (hf : ∀ a, M.Responds m F (Q a) (f a) R) : M.Responds (n + m) F P (p.bind f) R where
  start s hs hF := (hp.start s hs hF).bind fun a t hq => (hf a).start t hq.1 hq.2
  running s hs ms hrunning hi hF := by
    rcases run_bind p f s ms with ⟨hne, he⟩ | ⟨first, second, a, s', -, hrun, he⟩
    · rw [he] at hrunning hi hF ⊢
      have hbefore := hp.running s hs ms (Program.isRunning_of_bind hne hrunning) hi hF
      exact hbefore.bind fun a t hq => (hf a).start t hq.1 hq.2
    · rw [he] at hrunning hi hF ⊢
      have hq := htriple s hs first
      rw [hrun] at hq
      exact ((hf a).running s' hq.2 second hrunning hi hF).mono (Nat.le_add_left m n) fun _ _ h => h

theorem map {p : Program ω ρ α} {R : β → σ → Prop} (hp : M.Responds n F P p Q) (f : α → β)
    (hR : ∀ a s, Q a s → R (f a) s) : M.Responds n F P (p.bind fun a => .ret (f a)) R where
  start s hs hF := (hp.start s hs hF).bind (m := 0) fun a t hq => .ret (hR a t hq)
  running s hs ms := by
    rcases run_bind p (fun a => .ret (f a)) s ms with ⟨hne, he⟩ | ⟨first, second, a, s', -, -, he⟩
    · rw [he]
      intro hrunning hi hF
      have hbefore := hp.running s hs ms (Program.isRunning_of_bind hne hrunning) hi hF
      exact hbefore.bind (m := 0) fun a t hq => .ret (hR a t hq)
    · rw [he, run_ret]
      exact fun hrunning => by cases hrunning

-- One operation opens a program without interruption, and `F` decides how it ends.
theorem transaction {op : ω} {next : ρ op → Program ω ρ α} (hstable : M.Stable P)
    (hstableF : M.Stable F)
    (h : ∀ s, P s → ∃ ops a s', M.Atomic I (next (M.perform op s).1) (M.perform op s).2 ops a s' ∧
      ops.length ≤ n ∧ (F s → Q a s')) : M.Responds (n + 1) F P (.perform op next) Q := by
  have hstart (s : σ) (hs : P s) (hF : F s) : M.Within (n + 1) Q (.perform op next, s) := by
    refine Within.of_act rfl (P := fun s => P s ∧ F s)
      (fun s e hs hi => ⟨hstable s e hs.1 hi, hstableF s e hs.2 hi⟩) (fun s hs => ?_) s ⟨hs, hF⟩
    obtain ⟨ops, a, s', hatomic, hlength, hq⟩ := h s hs.1
    refine hatomic.within.mono hlength ?_
    rintro b t ⟨rfl, rfl⟩
    exact hq hs.2
  refine ⟨hstart, fun s hs ms => ?_⟩
  induction ms generalizing s with
  | nil => exact fun _ _ hF => hstart s hs hF
  | cons m ms ih =>
      rw [run_cons]
      cases m with
      | act =>
          obtain ⟨ops, a, s', hatomic, -, -⟩ := h s hs
          intro hrunning hi
          have hbusy := hatomic.busy ms hrunning
          exact absurd (hbusy.symm.trans hi) Bool.false_ne_true
      | event e =>
          by_cases hi : M.interruptible s
          · simp only [move, Program.isRunning, hi, Bool.and_self, ite_true]
            exact ih _ (hstable s e hs hi)
          · simp only [move, hi, Bool.and_false, Bool.false_eq_true, ite_false]
            exact ih s hs

-- A loop that `F` ends in the round that is under way.
theorem repeatUntil {body : β → Program ω ρ (β × Bool)} {f : β → α} {J R : β → σ → Prop}
    (hstable : ∀ b, M.Stable (J b)) (hstableF : M.Stable F)
    (htriple : ∀ b, M.Triple I (J b) (body b) fun r s => if r.2 then R r.1 s else J r.1 s)
    (hbody : ∀ b, M.Responds n F (J b) (body b) fun r s => r.2 = true ∧ R r.1 s)
    (hnext : ∀ b s, R b s → Q (f b) s) (b : β) :
    M.Responds (n + 1) F (J b) (.repeatUntil body b fun b => .ret (f b)) Q := by
  have hlast (r : β × Bool) (t : σ) (hr : r.2 = true ∧ R r.1 t) :
      M.Within 0 Q (if r.2 then .ret (f r.1) else .repeatUntil body r.1 fun b => .ret (f b), t) := by
    rw [if_pos hr.1]
    exact Within.ret (hnext _ _ hr.2)
  have hstart (b : β) (s : σ) (hs : J b s) (hF : F s) :
      M.Within (n + 1) Q (.repeatUntil body b fun b => .ret (f b), s) := by
    refine Within.of_act rfl (P := fun s => J b s ∧ F s)
      (fun s e hs hi => ⟨hstable b s e hs.1 hi, hstableF s e hs.2 hi⟩) (fun s hs => ?_) s ⟨hs, hF⟩
    exact ((hbody b).start s hs.1 hs.2).bind hlast
  -- Each round of the loop uses up some of the moves.
  have hrounds (k : Nat) : ∀ (ms : List (Move ε)) (b : β) (s : σ), ms.length ≤ k → J b s →
      M.Soon (n + 1) F Q (M.run (.repeatUntil body b fun b => .ret (f b)) s ms) := by
    induction k with
    | zero =>
        intro ms b s hk hs
        obtain rfl := List.length_eq_zero_iff.mp (Nat.le_zero.mp hk)
        exact fun _ _ hF => hstart b s hs hF
    | succ k ih =>
        intro ms b s hk hs
        cases ms with
        | nil => exact fun _ _ hF => hstart b s hs hF
        | cons m ms =>
            have hms : ms.length ≤ k := Nat.le_of_succ_le_succ hk
            rw [run_cons]
            cases m with
            | event e =>
                by_cases hi : M.interruptible s
                · simp only [move, Program.isRunning, hi, Bool.and_self, ite_true]
                  exact ih ms b _ hms (hstable b s e hs hi)
                · simp only [move, hi, Bool.and_false, Bool.false_eq_true, ite_false]
                  exact ih ms b s hms hs
            | act =>
                change M.Soon (n + 1) F Q (M.run (.unroll body b fun b => .ret (f b)) s ms)
                rcases run_bind (body b) (fun r => if r.2 then .ret (f r.1)
                  else .repeatUntil body r.1 fun b => .ret (f b)) s ms with
                  ⟨hne, he⟩ | ⟨first, second, ⟨b', done⟩, s', hsplit, hrun, he⟩
                · rw [Program.unroll, he]
                  intro hrunning hi hF
                  have hwithin := (hbody b).running s hs ms
                    (Program.isRunning_of_bind hne hrunning) hi hF
                  exact (hwithin.bind hlast).mono (Nat.le_succ n) fun _ _ h => h
                · rw [Program.unroll, he]
                  have hm := htriple b s hs first
                  rw [hrun] at hm
                  have hlength : second.length ≤ k := by
                    rw [hsplit, List.length_append] at hms
                    omega
                  cases done with
                  | true =>
                      simp only [ite_true, run_ret]
                      exact fun hrunning => by cases hrunning
                  | false => exact ih second b' s' hlength hm.2
  exact ⟨hstart b, fun s hs ms => hrounds ms.length ms b s (Nat.le_refl _) hs⟩

end Responds

end Machine

namespace Session

variable {S C A : Type} {M : Machine ω ρ ε σ} {component : Component ω ρ σ S C A}
  {I : C → S → σ → Prop} {Inv : S → σ → Prop}

def acts : List (SessionMove C ε) → Nat
  | [] => 0
  | .act :: moves => acts moves + 1
  | _ :: moves => acts moves

-- A running call stands where a run of its own has brought it.
def Traced (M : Machine ω ρ ε σ) (component : Component ω ρ σ S C A) (Inv : S → σ → Prop)
    (session : Session ω ρ σ S C A) : Prop :=
  ∀ c p, session.running = some (c, p) → ∃ start ms, Inv session.state start ∧
    M.run (component.call c session.state) start ms = (p, session.world)

theorem settle_traced {state : S} {c : C} {p : Program ω ρ (S × A)} {start world : σ}
    (ms : List (Move ε)) (hstart : Inv state start)
    (hrun : M.run (component.call c state) start ms = (p, world)) :
    Traced M component Inv (settle component state c (p, world)) := by
  intro c' p' hrunning
  cases p with
  | ret r => cases hrunning
  | perform op next =>
      cases hrunning
      exact ⟨start, ms, hstart, hrun⟩
  | repeatUntil body b next =>
      cases hrunning
      exact ⟨start, ms, hstart, hrun⟩
  | fault why =>
      cases hrunning
      exact ⟨start, ms, hstart, hrun⟩

-- In a session whose calls bring the invariant back.
theorem move_traced {session : Session ω ρ σ S C A} (h : Rests M component I Inv session)
    (ht : Traced M component Inv session) (m : SessionMove C ε) :
    Traced M component Inv (move M component session m) := by
  obtain ⟨state, world, running⟩ := session
  cases m with
  | call c =>
      cases running with
      | none => exact settle_traced [] h rfl
      | some cp => exact ht
  | act =>
      cases running with
      | none => exact ht
      | some cp =>
          obtain ⟨start, ms, hstart, hrun⟩ := ht cp.1 cp.2 rfl
          refine settle_traced (ms ++ [.act]) hstart ?_
          rw [Machine.run_append, hrun]
          rfl
  | event e =>
      by_cases hi : M.interruptible world
      · simp only [move, hi, ite_true]
        intro c p hrunning
        obtain ⟨start, ms, hstart, hrun⟩ := ht c p hrunning
        obtain rfl : running = some (c, p) := hrunning
        refine ⟨start, ms ++ [.event e], hstart, ?_⟩
        rw [Machine.run_append, hrun]
        change M.move (.event e) (p, world) = _
        simp only [Machine.move, h.1, hi, Bool.and_self, ite_true]
      · simp only [move, hi]
        exact ht

theorem run_traced (hstable : ∀ state, M.Stable (Inv state))
    (htriple : ∀ c state, M.Triple (I c state) (Inv state) (component.call c state)
      fun r world => Inv r.1 (component.answered c r.2 world))
    {session : Session ω ρ σ S C A} (h : Rests M component I Inv session)
    (ht : Traced M component Inv session) (moves : List (SessionMove C ε)) :
    Traced M component Inv (run M component session moves) := by
  induction moves generalizing session with
  | nil => exact ht
  | cons m moves ih => exact ih (move_rests hstable htriple h m) (move_traced h ht m)

theorem settle_of_running {p : Program ω ρ (S × A)} (hp : p.isRunning) (state : S) (c : C)
    (world : σ) : settle component state c (p, world) = ⟨state, world, some (c, p)⟩ := by
  cases p with
  | ret r => cases hp
  | fault why => cases hp
  | perform op next => rfl
  | repeatUntil body b next => rfl

variable (component) in
-- A call that returns within `n` steps of its own has returned by the time that
-- the session has made them.
theorem settle_within {n : Nat} {Q : S × A → σ → Prop} {c : C} {p : Program ω ρ (S × A)}
    (state : S) (world : σ) (h : M.Within n Q (p, world)) (moves : List (SessionMove C ε))
    (hn : n ≤ acts moves) :
    ∃ first second r last, moves = first ++ second ∧ acts first ≤ n ∧ Q r last ∧
      run M component (settle component state c (p, world)) first =
        ⟨r.1, component.answered c r.2 last, none⟩ := by
  have hreplicate := Nat.le_of_eq (@acts_replicate ε n).symm
  induction moves generalizing n p world with
  | nil =>
      obtain ⟨r, last, hrun, hq⟩ := h [] hn
      obtain ⟨rfl, rfl⟩ := Prod.mk.inj hrun
      exact ⟨[], [], r, _, rfl, Nat.zero_le n, hq, rfl⟩
  | cons m moves ih =>
      by_cases hp : p.isRunning
      · rw [settle_of_running hp]
        cases m with
        | call c' =>
            obtain ⟨first, second, r, last, rfl, hle, hq, hrun⟩ := ih world h hn hreplicate
            rw [settle_of_running hp] at hrun
            exact ⟨.call c' :: first, second, r, last, rfl, hle, hq, hrun⟩
        | event e =>
            by_cases hi : M.interruptible world
            · have hnext : M.Within n Q (p, M.occur e world) := by
                intro ms hms
                have := h (.event e :: ms) hms
                simpa only [Machine.run_cons, Machine.move, hp, hi, Bool.and_self, ite_true] using this
              obtain ⟨first, second, r, last, rfl, hle, hq, hrun⟩ := ih _ hnext hn hreplicate
              rw [settle_of_running hp] at hrun
              refine ⟨.event e :: first, second, r, last, rfl, hle, hq, ?_⟩
              rw [← hrun]
              simp only [run, List.foldl_cons, move, hi, ite_true]
            · obtain ⟨first, second, r, last, rfl, hle, hq, hrun⟩ := ih world h hn hreplicate
              rw [settle_of_running hp] at hrun
              refine ⟨.event e :: first, second, r, last, rfl, hle, hq, ?_⟩
              rw [← hrun]
              simp only [run, List.foldl_cons, move, hi, Bool.false_eq_true, ite_false]
        | act =>
            cases n with
            | zero =>
                obtain ⟨r, last, hrun, -⟩ := h [] (Nat.le_refl 0)
                rw [show p = .ret r from congrArg Prod.fst hrun] at hp
                cases hp
            | succ n =>
                have hnext : M.Within n Q (M.move .act (p, world)) :=
                  fun ms hms => h (.act :: ms) (Nat.succ_le_succ hms)
                obtain ⟨first, second, r, last, rfl, hle, hq, hrun⟩ := ih _ hnext
                  (Nat.le_of_succ_le_succ hn) (Nat.le_of_eq (acts_replicate n).symm)
                exact ⟨.act :: first, second, r, last, rfl, Nat.succ_le_succ hle, hq, hrun⟩
      · obtain ⟨r, last, hrun, hq⟩ := h _ hreplicate
        cases p with
        | ret a =>
            rw [Machine.run_ret] at hrun
            obtain ⟨he, rfl⟩ := Prod.mk.inj hrun
            cases he
            exact ⟨[], m :: moves, _, world, rfl, Nat.zero_le n, hq, rfl⟩
        | fault why =>
            rw [Machine.run_fault] at hrun
            cases hrun
        | perform op next => exact absurd rfl hp
        | repeatUntil body b next => exact absurd rfl hp

end Session

end Mac802154.Library
