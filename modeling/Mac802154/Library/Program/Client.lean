import Mac802154.Library.Program.Session

namespace Mac802154.Library

variable {ω : Type} {ρ : ω → Type} {ε σ S C A α β : Type}

-- A caller of a component is a program whose operations are its calls.
abbrev Client (C A : Type) := Program C fun _ => A

namespace Client

def ask (c : C) : Client C A A :=
  Program.call c

-- How a client goes on after a call, once this has returned.
def resume : Client C A α → Program ω ρ (S × A) → Client C A α
  | .perform _ next, .ret (_, a) => next a
  | client, _ => client

-- A client talks to whoever answers it. What has been said, latest first, is
-- all that the answers and the client depend on.
def conversation (answer : List (C × A) → C → A) :
    Machine C (fun _ => A) Empty (List (C × A)) where
  perform c said := (answer said c, (c, answer said c) :: said)
  interruptible _ := false
  occur e _ := e.elim

-- Every call was allowed by what had been said before it.
def Guarded (G : List (C × A) → C → Prop) : List (C × A) → Prop
  | [] => True
  | (c, _) :: past => G past c ∧ Guarded G past

theorem Guarded.of_append {G : List (C × A) → C → Prop} {later past : List (C × A)} {c : C} {a : A}
    (h : Guarded G (later ++ (c, a) :: past)) : G past c := by
  induction later with
  | nil => exact h.1
  | cons entry later ih => exact ih h.2

-- A client that starts with what `P` says of the conversation makes only calls
-- that are allowed, whatever the answers are, and ends with `Q`.
def Conducts (G : List (C × A) → C → Prop) (P : List (C × A) → Prop) (client : Client C A α)
    (Q : α → List (C × A) → Prop) : Prop :=
  ∀ answer, (conversation answer).Triple (Guarded G) (fun said => Guarded G said ∧ P said) client
    fun a said => Guarded G said ∧ Q a said

namespace Conducts

variable {G : List (C × A) → C → Prop} {P : List (C × A) → Prop} {Q : α → List (C × A) → Prop}
  {R : β → List (C × A) → Prop}

theorem ret {a : α} (hQ : ∀ said, P said → Q a said) : Conducts G P (.ret a) Q :=
  fun _ => .ret (fun _ hs => hs.1) fun said hs => ⟨hs.1, hQ said hs.2⟩

theorem ask {c : C} {Q : A → List (C × A) → Prop} (hG : ∀ said, P said → G said c)
    (hQ : ∀ a said, P said → Q a ((c, a) :: said)) : Conducts G P (.ask c) Q :=
  fun answer =>
    have hret (a : A) : (conversation answer).Triple (Guarded G)
        (fun said => Guarded G said ∧ Q a said) (.ret a) fun a said => Guarded G said ∧ Q a said :=
      .ret (fun _ hs => hs.1) fun _ hs => hs
    .perform (fun _ hs => hs.1) (fun _ e => e.elim)
      (fun said hs => ⟨⟨hG said hs.2, hs.1⟩, hQ _ said hs.2⟩) hret

theorem bind {p : Client C A α} {f : α → Client C A β} (hp : Conducts G P p Q)
    (hf : ∀ a, Conducts G (Q a) (f a) R) : Conducts G P (p.bind f) R :=
  fun answer => (hp answer).bind fun a => hf a answer

-- The next call is on record in front of what has been said before.
theorem bind_ask {c : C} {next : A → Client C A α} (hG : ∀ said, P said → G said c)
    (hnext : ∀ a, Conducts G (fun said => ∃ past, said = (c, a) :: past ∧ P past) (next a) Q) :
    Conducts G P ((Client.ask c).bind next) Q := by
  have hask : Conducts G P (Client.ask c) fun a said => ∃ past, said = (c, a) :: past ∧ P past :=
    .ask hG fun a said hs => ⟨said, rfl, hs⟩
  exact hask.bind hnext

theorem consequence {p : Client C A α} {P' : List (C × A) → Prop} {Q' : α → List (C × A) → Prop}
    (h : Conducts G P p Q) (hP : ∀ said, P' said → P said) (hQ : ∀ a said, Q a said → Q' a said) :
    Conducts G P' p Q' :=
  fun answer => (h answer).consequence (fun said hs => ⟨hs.1, hP said hs.2⟩)
    fun a said hs => ⟨hs.1, hQ a said hs.2⟩

theorem repeatUntil {body : β → Client C A (β × Bool)} {next : β → Client C A α}
    {J R : β → List (C × A) → Prop}
    (hbody : ∀ b, Conducts G (J b) (body b) fun r said => if r.2 then R r.1 said else J r.1 said)
    (hnext : ∀ b, Conducts G (R b) (next b) Q) (b : β) :
    Conducts G (J b) (.repeatUntil body b next) Q := by
  intro answer
  refine .repeatUntil (J := fun b said => Guarded G said ∧ J b said)
    (R := fun b said => Guarded G said ∧ R b said) (fun _ _ hs => hs.1) (fun _ _ e => e.elim)
    (fun b => ((hbody b) answer).consequence (fun _ hs => hs) fun r said hs => ?_)
    (fun b => hnext b answer) b
  obtain ⟨b', done⟩ := r
  cases done <;> exact hs

end Conducts

-- These answers are the ones that were given.
def Explains (answer : List (C × A) → C → A) : List (C × A) → Prop
  | [] => True
  | (c, a) :: past => answer past c = a ∧ Explains answer past

def recorded [Inhabited A] (said past : List (C × A)) (_ : C) : A :=
  (said.reverse[past.length]?).elim default Prod.snd

theorem explains_recorded [Inhabited A] (said : List (C × A)) : Explains (recorded said) said := by
  have hsuffix (later past : List (C × A)) : Explains (recorded (later ++ past)) past := by
    induction past generalizing later with
    | nil => trivial
    | cons entry past ih =>
        refine ⟨?_, ?_⟩
        · have hentry : (later ++ entry :: past).reverse[past.length]? = some entry := by simp
          rw [recorded, hentry]
          rfl
        · have := ih (later ++ [entry])
          rwa [List.append_assoc] at this
  exact hsuffix [] said

end Client

-- A client and the session that its calls make up. While a call runs, the
-- client stands before it.
structure Driven (ω : Type) (ρ : ω → Type) (σ S C A α : Type) where
  session : Session ω ρ σ S C A
  client : Client C A α

namespace Driven

variable (M : Machine ω ρ ε σ) (component : Component ω ρ σ S C A)

def settle (driven : Driven ω ρ σ S C A α) (c : C) (outcome : Program ω ρ (S × A) × σ) :
    Driven ω ρ σ S C A α :=
  ⟨Session.settle component driven.session.state c outcome, driven.client.resume outcome.1⟩

def move (driven : Driven ω ρ σ S C A α) : Move ε → Driven ω ρ σ S C A α
  | .event e => { driven with session := driven.session.move M component (.event e) }
  | .act =>
      match driven.session.running, driven.client with
      | some (c, p), _ => driven.settle component c (M.move .act (p, driven.session.world))
      | none, .perform c _ =>
          driven.settle component c (component.call c driven.session.state, driven.session.world)
      | none, .repeatUntil body b next => { driven with client := .unroll body b next }
      | none, _ => driven

def run (driven : Driven ω ρ σ S C A α) (ms : List (Move ε)) : Driven ω ρ σ S C A α :=
  ms.foldl (move M component) driven

variable {M component}

-- Whatever the client is, it only uses the component, and it makes nothing
-- happen by itself.
theorem move_session (driven : Driven ω ρ σ S C A α) (m : Move ε) :
    ∃ moves, (move M component driven m).session = Session.run M component driven.session moves ∧
      ∀ e, .event e ∈ moves → m = .event e := by
  obtain ⟨⟨state, world, running⟩, client⟩ := driven
  cases m with
  | event e =>
      refine ⟨[.event e], rfl, fun e' he => ?_⟩
      rw [SessionMove.event.inj (List.mem_singleton.mp he)]
  | act =>
      cases running with
      | some cp => exact ⟨[.act], rfl, fun e he => by simp at he⟩
      | none =>
          cases client with
          | perform c next => exact ⟨[.call c], rfl, fun e he => by simp at he⟩
          | _ => exact ⟨[], rfl, fun e he => by cases he⟩

theorem run_session (driven : Driven ω ρ σ S C A α) (ms : List (Move ε)) :
    ∃ moves, (run M component driven ms).session = Session.run M component driven.session moves ∧
      ∀ e, .event e ∈ moves → .event e ∈ ms := by
  induction ms generalizing driven with
  | nil => exact ⟨[], rfl, fun e he => by cases he⟩
  | cons m ms ih =>
      obtain ⟨first, hfirst, hevents⟩ : ∃ moves, (move M component driven m).session =
          Session.run M component driven.session moves ∧ ∀ e, .event e ∈ moves → m = .event e :=
        move_session driven m
      obtain ⟨rest, hrest, hevents'⟩ := ih (move M component driven m)
      refine ⟨first ++ rest, hrest.trans ?_, fun e he => ?_⟩
      · rw [hfirst]
        exact List.foldl_append.symm
      · rcases List.mem_append.mp he with he | he
        · rw [hevents e he]
          exact List.mem_cons_self
        · exact List.mem_cons_of_mem _ (hevents' e he)

end Driven

-- The record of the world that the answers make up.
structure Records (M : Machine ω ρ ε σ) (component : Component ω ρ σ S C A)
    (record : σ → List (C × A)) : Prop where
  perform : ∀ op s, record (M.perform op s).2 = record s
  occur : ∀ e s, record (M.occur e s) = record s
  answered : ∀ c a s, record (component.answered c a s) = (c, a) :: record s

namespace Driven

open Client

-- The client is where the conversation on record has brought it.
structure Converses (answer : List (C × A) → C → A) (start : Client C A α)
    (record : σ → List (C × A)) (driven : Driven ω ρ σ S C A α) : Prop where
  reached : ∃ n, (conversation answer).run start [] (List.replicate n .act) =
    (driven.client, record driven.session.world)
  waits : ∀ c p, driven.session.running = some (c, p) → ∃ next, driven.client = .perform c next

variable {M : Machine ω ρ ε σ} {component : Component ω ρ σ S C A} {record : σ → List (C × A)}
  {answer : List (C × A) → C → A} {start : Client C A α}

private theorem reached_act {n : Nat} {client : Client C A α} {said : List (C × A)}
    (h : (conversation answer).run start [] (List.replicate n .act) = (client, said)) :
    (conversation answer).run start [] (List.replicate (n + 1) .act) =
      (conversation answer).move .act (client, said) := by
  rw [List.replicate_succ', Machine.run_append, h]
  rfl

section Run

variable (hrecords : Records M component record)

include hrecords

private theorem settle_converses {state : S} {world : σ} {running : Option (C × Program ω ρ (S × A))}
    {c : C} {next : A → Client C A α} {p : Program ω ρ (S × A)} {last : σ}
    (hlast : record last = record world)
    (hreached : ∃ n, (conversation answer).run start [] (List.replicate n .act) =
      (.perform c next, record world))
    (hexplains : Explains answer (record
      (settle component ⟨⟨state, world, running⟩, .perform c next⟩ c (p, last)).session.world)) :
    Converses answer start record
      (settle component ⟨⟨state, world, running⟩, .perform c next⟩ c (p, last)) := by
  obtain ⟨n, hn⟩ := hreached
  have hstands : Converses answer start record
      ⟨⟨state, last, some (c, p)⟩, .perform c next⟩ := by
    refine ⟨⟨n, by rw [hlast]; exact hn⟩, fun c' p' he => ?_⟩
    cases he
    exact ⟨next, rfl⟩
  cases p with
  | ret r =>
      have hworld := hrecords.answered c r.2 last
      obtain ⟨ha, -⟩ : answer (record last) c = r.2 ∧ _ := by
        change Explains answer (record (component.answered c r.2 last)) at hexplains
        rwa [hworld] at hexplains
      refine ⟨⟨n + 1, (reached_act hn).trans ?_⟩, fun c' p' he => by cases he⟩
      change _ = (next r.2, record (component.answered c r.2 last))
      rw [hworld, ← ha, hlast]
      rfl
  | perform op next' => exact hstands
  | repeatUntil body b next' => exact hstands
  | fault why => exact hstands

private theorem record_act (p : Program ω ρ (S × A)) (world : σ) :
    record (M.move .act (p, world)).2 = record world := by
  cases p with
  | perform op next => exact hrecords.perform op world
  | _ => rfl

private theorem move_converses (driven : Driven ω ρ σ S C A α) (m : Move ε)
    (h : Explains answer (record driven.session.world) → Converses answer start record driven)
    (hexplains : Explains answer (record (move M component driven m).session.world)) :
    Converses answer start record (move M component driven m) := by
  obtain ⟨⟨state, world, running⟩, client⟩ := driven
  cases m with
  | event e =>
      have hworld : record (Session.move M component ⟨state, world, running⟩ (.event e)).world =
          record world := by
        simp only [Session.move]
        split
        · exact hrecords.occur e world
        · rfl
      have hrunning : (Session.move M component ⟨state, world, running⟩ (.event e)).running =
          running := by
        simp only [Session.move]
        split <;> rfl
      obtain ⟨hreached, hwaits⟩ := h (hworld ▸ hexplains)
      exact ⟨hworld.symm ▸ hreached, fun c p he => hwaits c p (hrunning.symm.trans he)⟩
  | act =>
      -- Up to the answer of the call that returns, the record is the old one.
      have hsettle (c : C) (p : Program ω ρ (S × A)) (last : σ) (hlast : record last = record world)
          (hexplains : Explains answer (record
            (settle component ⟨⟨state, world, running⟩, client⟩ c (p, last)).session.world)) :
          Explains answer (record world) := by
        cases p with
        | ret r =>
            have := hrecords.answered c r.2 last
            change Explains answer (record (component.answered c r.2 last)) at hexplains
            rw [this, hlast] at hexplains
            exact hexplains.2
        | _ => exact hlast ▸ hexplains
      cases running with
      | some cp =>
          obtain ⟨c, p⟩ := cp
          have hlast := record_act hrecords p world
          obtain ⟨hreached, hwaits⟩ := h (hsettle c _ _ hlast hexplains)
          obtain ⟨next, rfl⟩ : ∃ next, client = .perform c next := hwaits c p rfl
          exact settle_converses hrecords hlast hreached hexplains
      | none =>
          cases client with
          | perform c next =>
              exact settle_converses hrecords rfl (h (hsettle c _ _ rfl hexplains)).reached hexplains
          | repeatUntil body b next =>
              obtain ⟨⟨n, hn⟩, -⟩ := h hexplains
              exact ⟨⟨n + 1, reached_act hn⟩, fun c p he => by cases he⟩
          | ret a => exact h hexplains
          | fault why => exact h hexplains

theorem run_converses (driven : Driven ω ρ σ S C A α) (ms : List (Move ε))
    (h : Explains answer (record driven.session.world) → Converses answer start record driven)
    (hexplains : Explains answer (record (run M component driven ms).session.world)) :
    Converses answer start record (run M component driven ms) := by
  induction ms generalizing driven with
  | nil => exact h hexplains
  | cons m ms ih => exact ih _ (move_converses hrecords driven m h) hexplains

-- What holds of the conversations of a client holds of the record of its
-- session, and the call that still runs is one that was allowed.
theorem run_conducts [Inhabited A] {G : List (C × A) → C → Prop} {Q : α → List (C × A) → Prop}
    (hclient : Conducts G (· = []) start Q) (state : S) (world : σ) (hworld : record world = [])
    (ms : List (Move ε)) :
    let driven := run M component ⟨⟨state, world, none⟩, start⟩ ms
    Guarded G (record driven.session.world) ∧
      (∀ c p, driven.session.running = some (c, p) → G (record driven.session.world) c) ∧
      (driven.client.isRunning ∨
        ∃ a, driven.client = .ret a ∧ Q a (record driven.session.world)) := by
  intro driven
  have hstart (answer : List (C × A) → C → A) :
      Converses answer start record
        (⟨⟨state, world, none⟩, start⟩ : Driven ω ρ σ S C A α) :=
    ⟨⟨0, by rw [hworld]; rfl⟩, fun c p he => by cases he⟩
  obtain ⟨⟨n, hn⟩, hwaits⟩ : Converses (recorded (record driven.session.world)) start record driven :=
    run_converses hrecords _ ms (fun _ => hstart _) (explains_recorded _)
  have htriple := hclient (recorded (record driven.session.world))
  have hmeets := htriple [] ⟨trivial, rfl⟩ (List.replicate n .act)
  rw [hn] at hmeets
  refine ⟨Machine.meets_invariant hmeets, fun c p hrunning => ?_, ?_⟩
  · obtain ⟨next, hnext⟩ := hwaits c p hrunning
    rw [hnext] at hn
    have hstep := htriple.invariant [] ⟨trivial, rfl⟩ (List.replicate (n + 1) .act)
    rw [reached_act hn] at hstep
    exact hstep.1
  · generalize driven.client = client at hmeets
    cases client with
    | ret a => exact .inr ⟨a, rfl, hmeets.2.2⟩
    | fault why => exact hmeets.elim
    | perform c next => exact .inl rfl
    | repeatUntil body b next => exact .inl rfl

end Run

end Driven

end Mac802154.Library
