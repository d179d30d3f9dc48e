import Mac802154.Library.Program.Rules

namespace Mac802154.Library

variable {ω : Type} {ρ : ω → Type} {ε σ S C A : Type}

-- A component with a state of its own: how it runs a call, and what the record
-- of the world keeps of the answer.
structure Component (ω : Type) (ρ : ω → Type) (σ S C A : Type) where
  call : C → S → Program ω ρ (S × A)
  answered : C → A → σ → σ

inductive SessionMove (C ε : Type) where
  | call (c : C)
  | act
  | event (e : ε)

-- One caller uses the component; while a call runs there is no other.
structure Session (ω : Type) (ρ : ω → Type) (σ S C A : Type) where
  state : S
  world : σ
  running : Option (C × Program ω ρ (S × A))

namespace Session

variable (M : Machine ω ρ ε σ) (component : Component ω ρ σ S C A)

-- A call that has returned is over at once.
def settle (state : S) (c : C) : Program ω ρ (S × A) × σ → Session ω ρ σ S C A
  | (.ret (next, a), world) => ⟨next, component.answered c a world, none⟩
  | (p, world) => ⟨state, world, some (c, p)⟩

def move (session : Session ω ρ σ S C A) : SessionMove C ε → Session ω ρ σ S C A
  | .call c =>
      match session.running with
      | none => settle component session.state c (component.call c session.state, session.world)
      | some _ => session
  | .act =>
      match session.running with
      | none => session
      | some (c, p) => settle component session.state c (M.move .act (p, session.world))
  | .event e =>
      if M.interruptible session.world then { session with world := M.occur e session.world }
      else session

def run (session : Session ω ρ σ S C A) (moves : List (SessionMove C ε)) : Session ω ρ σ S C A :=
  moves.foldl (move M component) session

variable {M component} {I : σ → Prop} {Inv : S → σ → Prop} {state : S} {world : σ} {c : C}

-- What is left of a running call leads to the invariant; until then `I` holds.
def Leads (M : Machine ω ρ ε σ) (component : Component ω ρ σ S C A) (I : σ → Prop)
    (Inv : S → σ → Prop) (c : C) (p : Program ω ρ (S × A)) (world : σ) : Prop :=
  p.isRunning ∧ ∀ ms, Machine.Meets I
    (fun r world => Inv r.1 (component.answered c r.2 world)) (M.run p world ms)

theorem Leads.event {p : Program ω ρ (S × A)} (h : Leads M component I Inv c p world)
    {e : ε} (hi : M.interruptible world) : Leads M component I Inv c p (M.occur e world) := by
  refine ⟨h.1, fun ms => ?_⟩
  have := h.2 (.event e :: ms)
  rw [Machine.run_cons] at this
  simpa only [Machine.move, h.1, hi, Bool.and_self, ite_true] using this

theorem settle_cases (state : S) {p : Program ω ρ (S × A)}
    (h : ∀ ms, Machine.Meets I (fun r world => Inv r.1 (component.answered c r.2 world))
      (M.run p world ms)) :
    (∃ next last, settle component state c (p, world) = ⟨next, last, none⟩ ∧ Inv next last) ∨
      settle component state c (p, world) = ⟨state, world, some (c, p)⟩ ∧
        Leads M component I Inv c p world := by
  cases p with
  | ret r => exact .inl ⟨r.1, _, rfl, (h []).2⟩
  | fault why => exact (h []).elim
  | perform op next => exact .inr ⟨rfl, rfl, h⟩
  | repeatUntil body b next => exact .inr ⟨rfl, rfl, h⟩

-- The invariant holds, and what is left of a running call leads to it again.
def Sound (M : Machine ω ρ ε σ) (component : Component ω ρ σ S C A) (Inv : S → σ → Prop)
    (session : Session ω ρ σ S C A) : Prop :=
  Inv session.state session.world ∧ ∀ c p, session.running = some (c, p) →
    Leads M component (Inv session.state) Inv c p session.world

theorem settle_sound {p : Program ω ρ (S × A)}
    (h : ∀ ms, Machine.Meets (Inv state)
      (fun r world => Inv r.1 (component.answered c r.2 world)) (M.run p world ms)) :
    Sound M component Inv (settle component state c (p, world)) := by
  rcases settle_cases state h with ⟨next, last, he, hinv⟩ | ⟨he, hleads⟩
  · rw [he]
    exact ⟨hinv, fun c p hp => by cases hp⟩
  · rw [he]
    refine ⟨Machine.meets_invariant (h []), fun c p hp => ?_⟩
    cases hp
    exact hleads

def Underway (M : Machine ω ρ ε σ) (component : Component ω ρ σ S C A) (I : σ → Prop)
    (Inv : S → σ → Prop) (c : C) (session : Session ω ρ σ S C A) : Prop :=
  ∃ p, session.running = some (c, p) ∧ Leads M component I Inv c p session.world

theorem settle_underway {p : Program ω ρ (S × A)}
    (h : ∀ ms, Machine.Meets I (fun r world => Inv r.1 (component.answered c r.2 world))
      (M.run p world ms)) :
    Sound M component Inv (settle component state c (p, world)) ∨
      Underway M component I Inv c (settle component state c (p, world)) := by
  rcases settle_cases state h with ⟨next, last, he, hinv⟩ | ⟨he, hleads⟩
  · rw [he]
    exact .inl ⟨hinv, fun c p hp => by cases hp⟩
  · rw [he]
    exact .inr ⟨p, rfl, hleads⟩

-- The first call is still running, or the invariant has been established.
theorem move_underway {session : Session ω ρ σ S C A} (h : Underway M component I Inv c session)
    (m : SessionMove C ε) : Sound M component Inv (move M component session m) ∨
      Underway M component I Inv c (move M component session m) := by
  obtain ⟨state, world, running⟩ := session
  obtain ⟨p, hp, hleads⟩ := h
  obtain rfl : running = some (c, p) := hp
  cases m with
  | call c' => exact .inr ⟨p, rfl, hleads⟩
  | act => exact settle_underway fun ms => hleads.2 (.act :: ms)
  | event e =>
      by_cases hi : M.interruptible world
      · simp only [move, hi, ite_true]
        exact .inr ⟨p, rfl, hleads.event hi⟩
      · simp only [move, hi]
        exact .inr ⟨p, rfl, hleads⟩

variable {allowed : C → Prop} (hevent : ∀ state, M.Stable (Inv state))
  (hcall : ∀ c state, allowed c → M.Triple (Inv state) (Inv state) (component.call c state)
    fun r world => Inv r.1 (component.answered c r.2 world))

include hevent hcall

theorem move_sound {session : Session ω ρ σ S C A} (h : Sound M component Inv session)
    (m : SessionMove C ε) (hm : ∀ c, m = .call c → allowed c) :
    Sound M component Inv (move M component session m) := by
  obtain ⟨state, world, running⟩ := session
  cases m with
  | call c =>
      cases running with
      | none => exact settle_sound (hcall c state (hm c rfl) world h.1)
      | some cp => exact h
  | act =>
      cases running with
      | none => exact h
      | some cp => exact settle_sound fun ms => (h.2 cp.1 cp.2 rfl).2 (.act :: ms)
  | event e =>
      by_cases hi : M.interruptible world
      · simp only [move, hi, ite_true]
        exact ⟨hevent state world e h.1 hi, fun c p hp => (h.2 c p hp).event hi⟩
      · simp only [move, hi]
        exact h

-- What every call preserves, from its start to its end and against any event,
-- a whole session preserves.
theorem run_sound {session : Session ω ρ σ S C A} (h : Sound M component Inv session)
    (moves : List (SessionMove C ε)) (hmoves : ∀ c, .call c ∈ moves → allowed c) :
    Sound M component Inv (run M component session moves) := by
  induction moves generalizing session with
  | nil => exact h
  | cons m moves ih =>
      have hnext := move_sound hevent hcall h m fun c hc =>
        hmoves c (by rw [hc]; exact List.mem_cons_self)
      exact ih hnext fun c hc => hmoves c (List.mem_cons_of_mem m hc)

theorem run_invariant (h : Inv state world) (moves : List (SessionMove C ε))
    (hmoves : ∀ c, .call c ∈ moves → allowed c) :
    Inv (run M component ⟨state, world, none⟩ moves).state
      (run M component ⟨state, world, none⟩ moves).world :=
  (run_sound hevent hcall ⟨h, fun c p hp => by cases hp⟩ moves hmoves).1

-- What the first call establishes, the session keeps up from then on; as long
-- as the first call runs there is only `I`.
theorem run_established {P : σ → Prop}
    (hfirst : M.Triple I P (component.call c state) fun r world =>
      Inv r.1 (component.answered c r.2 world)) (h : P world)
    (moves : List (SessionMove C ε)) (hmoves : ∀ c, .call c ∈ moves → allowed c) :
    Inv (run M component ⟨state, world, none⟩ (.call c :: moves)).state
        (run M component ⟨state, world, none⟩ (.call c :: moves)).world ∨
      I (run M component ⟨state, world, none⟩ (.call c :: moves)).world := by
  have hrun (session : Session ω ρ σ S C A)
      (hs : Sound M component Inv session ∨ Underway M component I Inv c session) :
      Sound M component Inv (run M component session moves) ∨
        Underway M component I Inv c (run M component session moves) := by
    induction moves generalizing session with
    | nil => exact hs
    | cons m moves ih =>
        rcases hs with hs | hs
        · exact .inl (run_sound hevent hcall hs (m :: moves) hmoves)
        · exact ih (fun c hc => hmoves c (List.mem_cons_of_mem m hc)) _
            (move_underway hs m)
  rcases hrun _ (settle_underway (hfirst world h)) with hs | ⟨p, -, hleads⟩
  · exact .inl hs.1
  · exact .inr (Machine.meets_invariant (hleads.2 []))

omit hevent hcall

section Rests

variable {I : C → S → σ → Prop}

-- The invariant holds between the calls, and what is left of a running call
-- leads to it again; until then there is only what holds while that call runs.
def Rests (M : Machine ω ρ ε σ) (component : Component ω ρ σ S C A) (I : C → S → σ → Prop)
    (Inv : S → σ → Prop) (session : Session ω ρ σ S C A) : Prop :=
  match session.running with
  | none => Inv session.state session.world
  | some (c, p) => Leads M component (I c session.state) Inv c p session.world

theorem settle_rests {p : Program ω ρ (S × A)}
    (h : ∀ ms, Machine.Meets (I c state)
      (fun r world => Inv r.1 (component.answered c r.2 world)) (M.run p world ms)) :
    Rests M component I Inv (settle component state c (p, world)) := by
  rcases settle_cases state h with ⟨next, last, he, hinv⟩ | ⟨he, hleads⟩
  · rw [he]
    exact hinv
  · rw [he]
    exact hleads

theorem Rests.anytime {J : S → σ → Prop} {session : Session ω ρ σ S C A}
    (h : Rests M component I Inv session) (hInv : ∀ state world, Inv state world → J state world)
    (hI : ∀ c state world, I c state world → J state world) : J session.state session.world := by
  obtain ⟨state, world, running⟩ := session
  cases running with
  | none => exact hInv state world h
  | some cp => exact hI cp.1 state world (Machine.meets_invariant (h.2 []))

theorem Rests.idle {session : Session ω ρ σ S C A} (h : Rests M component I Inv session)
    (hidle : session.running = none) : Inv session.state session.world := by
  unfold Rests at h
  rwa [hidle] at h

theorem Rests.leads {session : Session ω ρ σ S C A} (h : Rests M component I Inv session)
    {p : Program ω ρ (S × A)} (hrunning : session.running = some (c, p)) :
    Leads M component (I c session.state) Inv c p session.world := by
  unfold Rests at h
  rwa [hrunning] at h

theorem Rests.running {session : Session ω ρ σ S C A} (h : Rests M component I Inv session)
    {p : Program ω ρ (S × A)} (hrunning : session.running = some (c, p)) :
    I c session.state session.world :=
  Machine.meets_invariant ((h.leads hrunning).2 [])

variable (hstable : ∀ state, M.Stable (Inv state))
  (htriple : ∀ c state, M.Triple (I c state) (Inv state) (component.call c state)
    fun r world => Inv r.1 (component.answered c r.2 world))

include hstable htriple

theorem move_rests {session : Session ω ρ σ S C A} (h : Rests M component I Inv session)
    (m : SessionMove C ε) : Rests M component I Inv (move M component session m) := by
  obtain ⟨state, world, running⟩ := session
  cases m with
  | call c =>
      cases running with
      | none => exact settle_rests (htriple c state world h)
      | some cp => exact h
  | act =>
      cases running with
      | none => exact h
      | some cp => exact settle_rests fun ms => h.2 (.act :: ms)
  | event e =>
      by_cases hi : M.interruptible world
      · simp only [move, hi, ite_true]
        cases running with
        | none => exact hstable state world e h hi
        | some cp => exact Leads.event h hi
      · simp only [move, hi]
        exact h

-- What every call brings back, whatever it does meanwhile, holds between the
-- calls of a whole session.
theorem run_rests {session : Session ω ρ σ S C A} (h : Rests M component I Inv session)
    (moves : List (SessionMove C ε)) :
    Rests M component I Inv (run M component session moves) := by
  induction moves generalizing session with
  | nil => exact h
  | cons m moves ih => exact ih (move_rests hstable htriple h m)

end Rests

section World

variable {P : σ → Prop}

private theorem settle_world (hanswered : ∀ c a world, P world → P (component.answered c a world))
    (state : S) (c : C) (next : Program ω ρ (S × A) × σ) (h : P next.2) :
    P (settle component state c next).world := by
  obtain ⟨p, world⟩ := next
  cases p with
  | ret r => exact hanswered c r.2 world h
  | perform op next => exact h
  | repeatUntil body b next => exact h
  | fault why => exact h

private theorem act_world (hperform : ∀ op world, P world → P (M.perform op world).2)
    (p : Program ω ρ (S × A)) (world : σ) (h : P world) : P (M.move .act (p, world)).2 := by
  cases p with
  | perform op next => exact hperform op world h
  | repeatUntil body b next => exact h
  | ret r => exact h
  | fault why => exact h

variable (hperform : ∀ op world, P world → P (M.perform op world).2)
  (hanswered : ∀ c a world, P world → P (component.answered c a world))

include hperform hanswered

theorem move_world {session : Session ω ρ σ S C A} (h : P session.world) (m : SessionMove C ε)
    (hevent : ∀ e, m = .event e → ∀ world, P world → P (M.occur e world)) :
    P (move M component session m).world := by
  obtain ⟨state, world, running⟩ := session
  cases m with
  | call c =>
      cases running with
      | none => exact settle_world hanswered state c (component.call c state, world) h
      | some cp => exact h
  | act =>
      cases running with
      | none => exact h
      | some cp => exact settle_world hanswered state cp.1 _ (act_world hperform cp.2 world h)
  | event e =>
      simp only [move]
      split
      · exact hevent e rfl world h
      · exact h

-- What the single operations, the answers and those events that happen leave
-- alone holds all along, whatever the calls are.
theorem run_world {session : Session ω ρ σ S C A} (h : P session.world)
    (moves : List (SessionMove C ε))
    (hevent : ∀ e, .event e ∈ moves → ∀ world, P world → P (M.occur e world)) :
    P (run M component session moves).world := by
  induction moves generalizing session with
  | nil => exact h
  | cons m moves ih =>
      have hnext := move_world hperform hanswered h m fun e he =>
        hevent e (by rw [he]; exact List.mem_cons_self)
      exact ih hnext fun e he => hevent e (List.mem_cons_of_mem m he)

end World

-- A call that returns when nothing disturbs it comes to its end.
theorem run_returns {p : Program ω ρ (S × A)} {ops : List ω} {r : S × A} {last : σ}
    (h : M.Returns p world ops r last) : ∃ n,
    run M component (settle component state c (p, world)) (List.replicate n .act) =
      ⟨r.1, component.answered c r.2 last, none⟩ := by
  induction h with
  | ret r world => exact ⟨0, rfl⟩
  | perform _ ih =>
      obtain ⟨n, hn⟩ := ih
      exact ⟨n + 1, hn⟩
  | repeatUntil _ ih =>
      obtain ⟨n, hn⟩ := ih
      exact ⟨n + 1, hn⟩

end Session

end Mac802154.Library
