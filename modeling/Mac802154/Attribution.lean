import Mac802154.Fetching
import Mac802154.Transmissions

namespace Mac802154

open Library

-- The calls that have returned, latest first, with their answers.
def said : List Happening → List (Call × Answer)
  | [] => []
  | .returned c answer :: history => (c, answer) :: said history
  | _ :: history => said history

-- What has happened since the latest answer.
def transmitting : List Happening → Bool
  | [] => false
  | .transmission _ :: _ => true
  | .returned _ _ :: _ => false
  | _ :: history => transmitting history

def resetting : List Happening → Bool
  | [] => false
  | .softwareReset :: _ => true
  | .returned _ _ :: _ => false
  | _ :: history => resetting history

-- Only a configure resets the chip. Only a sendBlocking transmits, it does so
-- once, and it returns from a read of the interrupt status.
def Attributed : List Happening → Prop
  | [] => True
  | .transmission _ :: history =>
      transmitting history = false ∧ resetting history = false ∧ Attributed history
  | .returned .configure _ :: history => transmitting history = false ∧ Attributed history
  | .returned .sendBlocking _ :: history => transmitting history = true ∧
      resetting history = false ∧ (∃ before, history = .statusRead :: before) ∧ Attributed history
  | .returned _ _ :: history =>
      transmitting history = false ∧ resetting history = false ∧ Attributed history
  | _ :: history => Attributed history

-- A record of nothing but answers, which is all that the caller's side is read from.
def replay (entries : List (Call × Answer)) : List Happening :=
  entries.map fun entry => .returned entry.1 entry.2

theorem callerOf_said (config : Mac802154Config) (history : List Happening) :
    callerOf config history = callerOf config (replay (said history)) := by
  induction history with
  | nil => rfl
  | cons happening history ih =>
      cases happening with
      | returned c answer =>
          cases c with
          | configure => simp only [callerOf, said, replay, List.map_cons, ih]
          | setter call => simp only [callerOf, said, replay, List.map_cons, ih]
          | overwriteConfig other => simp only [callerOf, said, replay, List.map_cons, ih]
          | _ => exact ih
      | _ => exact ih

-- The latest answer, and what has happened before and since.
theorem of_said_cons {history : List Happening} {c : Call} {answer : Answer}
    {rest : List (Call × Answer)} (h : said history = (c, answer) :: rest) :
    ∃ later earlier, history = later ++ .returned c answer :: earlier ∧ said later = [] ∧
      said earlier = rest := by
  induction history with
  | nil => cases h
  | cons happening history ih =>
      cases happening with
      | returned c' answer' =>
          cases h
          exact ⟨[], history, rfl, rfl, rfl⟩
      | _ =>
          obtain ⟨later, earlier, rfl, hlater, hearlier⟩ := ih h
          exact ⟨_ :: later, earlier, rfl, hlater, hearlier⟩

theorem said_append (later earlier : List Happening) :
    said (later ++ earlier) = said later ++ said earlier := by
  induction later with
  | nil => rfl
  | cons happening later ih =>
      cases happening with
      | returned c answer => exact congrArg (_ :: ·) ih
      | _ => exact ih

theorem of_said_append {history : List Happening} {front rest : List (Call × Answer)}
    (h : said history = front ++ rest) :
    ∃ later earlier, history = later ++ earlier ∧ said later = front ∧ said earlier = rest := by
  induction front generalizing history with
  | nil => exact ⟨[], history, rfl, rfl, h⟩
  | cons entry front ih =>
      obtain ⟨first, behind, rfl, hfirst, hbehind⟩ := of_said_cons h
      obtain ⟨later, earlier, rfl, hlater, hearlier⟩ := ih hbehind
      refine ⟨first ++ .returned entry.1 entry.2 :: later, earlier, by simp, ?_, hearlier⟩
      rw [said_append, hfirst, said, hlater]
      rfl

theorem of_said_append_cons {history : List Happening} {front rest : List (Call × Answer)}
    {c : Call} {answer : Answer} (h : said history = front ++ (c, answer) :: rest) :
    ∃ later earlier, history = later ++ .returned c answer :: earlier ∧ said later = front ∧
      said earlier = rest := by
  obtain ⟨later, behind, rfl, hlater, hbehind⟩ := of_said_append h
  obtain ⟨between, earlier, rfl, hbetween, hearlier⟩ := of_said_cons hbehind
  refine ⟨later ++ between, earlier, (List.append_assoc _ _ _).symm, ?_, hearlier⟩
  rw [said_append, hlater, hbetween, List.append_nil]

theorem returned_of_mem_said {history : List Happening} {c : Call} {answer : Answer}
    (h : (c, answer) ∈ said history) : .returned c answer ∈ history := by
  induction history with
  | nil => cases h
  | cons happening history ih =>
      cases happening with
      | returned c' answer' =>
          rcases List.mem_cons.mp h with he | h
          · cases he
            exact List.mem_cons_self
          · exact List.mem_cons_of_mem _ (ih h)
      | _ => exact List.mem_cons_of_mem _ (ih h)

-- The arrival that has set the interrupt status.
theorem exists_of_arrivedSinceRead {history : List Happening}
    (h : arrivedSinceRead history = true) : ∃ newer frame older,
      history = newer ++ .arrival frame :: older ∧ .statusRead ∉ newer ∧ .softwareReset ∉ newer := by
  induction history with
  | nil => cases h
  | cons happening history ih =>
      have hcons (hread : happening ≠ .statusRead) (hreset : happening ≠ .softwareReset)
          (h : arrivedSinceRead history = true) : ∃ newer frame older,
            happening :: history = newer ++ .arrival frame :: older ∧ .statusRead ∉ newer ∧
              .softwareReset ∉ newer := by
        obtain ⟨newer, frame, older, rfl, hnewer, hnewer'⟩ := ih h
        exact ⟨happening :: newer, frame, older, rfl,
          fun hm => (List.mem_cons.mp hm).elim (fun he => hread he.symm) hnewer,
          fun hm => (List.mem_cons.mp hm).elim (fun he => hreset he.symm) hnewer'⟩
      cases happening with
      | arrival frame => exact ⟨[], frame, history, rfl, List.not_mem_nil, List.not_mem_nil⟩
      | statusRead => cases h
      | softwareReset => cases h
      | _ => exact hcons (fun he => by cases he) (fun he => by cases he) h

namespace Attributed

theorem suffix {later earlier : List Happening} (h : Attributed (later ++ earlier)) :
    Attributed earlier := by
  induction later with
  | nil => exact h
  | cons happening later ih =>
      apply ih
      cases happening with
      | transmission long => exact h.2.2
      | returned c answer =>
          cases c with
          | configure => exact h.2
          | sendBlocking => exact h.2.2.2
          | _ => exact h.2.2
      | _ => exact h

-- Whoever has called nothing but other functions has transmitted nothing.
theorem not_transmission {front older : List Happening} (h : Attributed (front ++ older))
    (hquiet : transmitting (front ++ older) = false)
    (hsaid : ∀ entry ∈ said front, entry.1 ≠ .sendBlocking) :
    (∀ long, .transmission long ∉ front) ∧ transmitting older = false := by
  induction front with
  | nil => exact ⟨fun long => List.not_mem_nil, hquiet⟩
  | cons happening front ih =>
      have hcons (hne : ∀ long, happening ≠ .transmission long) (h : Attributed (front ++ older))
          (hquiet : transmitting (front ++ older) = false)
          (hsaid : ∀ entry ∈ said front, entry.1 ≠ .sendBlocking) :
          (∀ long, .transmission long ∉ happening :: front) ∧ transmitting older = false := by
        obtain ⟨hfront, holder⟩ := ih h hquiet hsaid
        refine ⟨fun long hm => ?_, holder⟩
        rcases List.mem_cons.mp hm with he | hm
        · exact hne long he.symm
        · exact hfront long hm
      cases happening with
      | transmission long => cases hquiet
      | returned c answer =>
          have hrest (entry : Call × Answer) (he : entry ∈ said front) : entry.1 ≠ .sendBlocking :=
            hsaid entry (List.mem_cons_of_mem _ he)
          cases c with
          | configure => exact hcons (fun _ he => by cases he) h.2 h.1 hrest
          | sendBlocking => exact absurd rfl (hsaid _ List.mem_cons_self)
          | _ => exact hcons (fun _ he => by cases he) h.2.2 h.1 hrest
      | _ => exact hcons (fun _ he => by cases he) h hquiet hsaid

theorem not_softwareReset {front older : List Happening} (h : Attributed (front ++ older))
    (hquiet : resetting (front ++ older) = false)
    (hsaid : ∀ entry ∈ said front, entry.1 ≠ .configure) : .softwareReset ∉ front := by
  induction front with
  | nil => exact List.not_mem_nil
  | cons happening front ih =>
      have hcons (hne : happening ≠ .softwareReset) (h : Attributed (front ++ older))
          (hquiet : resetting (front ++ older) = false)
          (hsaid : ∀ entry ∈ said front, entry.1 ≠ .configure) :
          .softwareReset ∉ happening :: front := by
        intro hm
        rcases List.mem_cons.mp hm with he | hm
        · exact hne he.symm
        · exact ih h hquiet hsaid hm
      cases happening with
      | softwareReset => cases hquiet
      | transmission long => exact hcons (fun he => by cases he) h.2.2 h.2.1 hsaid
      | returned c answer =>
          have hrest (entry : Call × Answer) (he : entry ∈ said front) : entry.1 ≠ .configure :=
            hsaid entry (List.mem_cons_of_mem _ he)
          cases c with
          | configure => exact absurd rfl (hsaid _ List.mem_cons_self)
          | sendBlocking => exact hcons (fun he => by cases he) h.2.2.2 h.2.1 hrest
          | _ => exact hcons (fun he => by cases he) h.2.2 h.2.1 hrest
      | _ => exact hcons (fun he => by cases he) h hquiet hsaid

-- A transmission is always older than the read that its sendBlocking returns from.
theorem not_transmission_since_read {front older : List Happening}
    (h : Attributed (front ++ older)) (hquiet : transmitting (front ++ older) = false)
    (hread : .statusRead ∉ front) (long : Memory) : .transmission long ∉ front := by
  induction front with
  | nil => exact List.not_mem_nil
  | cons happening front ih =>
      have hrest : .statusRead ∉ front := fun hm => hread (List.mem_cons_of_mem _ hm)
      have hcons (hne : happening ≠ .transmission long) (h : Attributed (front ++ older))
          (hquiet : transmitting (front ++ older) = false) :
          .transmission long ∉ happening :: front := by
        intro hm
        rcases List.mem_cons.mp hm with he | hm
        · exact hne he.symm
        · exact ih h hquiet hrest hm
      cases happening with
      | transmission other => cases hquiet
      | returned c answer =>
          cases c with
          | configure => exact hcons (fun he => by cases he) h.2 h.1
          | sendBlocking =>
              obtain ⟨-, -, ⟨before, he⟩, -⟩ := h
              cases front with
              | nil => simp
              | cons first front =>
                  cases he
                  exact absurd List.mem_cons_self hrest
          | _ => exact hcons (fun he => by cases he) h.2.2 h.1
      | _ => exact hcons (fun he => by cases he) h hquiet

-- The call that a transmission belongs to: it has returned since, or runs still.
theorem sendBlocking_of_transmission {later past : List Happening} {long : Memory}
    (h : Attributed (later ++ .transmission long :: past)) :
    (transmitting (later ++ .transmission long :: past) = true ∧
      said (later ++ .transmission long :: past) = said past) ∨
    ∃ after answer,
      said (later ++ .transmission long :: past) = after ++ (.sendBlocking, answer) :: said past := by
  induction later with
  | nil => exact .inl ⟨rfl, rfl⟩
  | cons happening later ih =>
      have hreturned (c : Call) (answer : Answer) (h : Attributed (later ++ .transmission long :: past))
          (hquiet : transmitting (later ++ .transmission long :: past) = false) :
          ∃ after answer', (c, answer) :: said (later ++ .transmission long :: past) =
            after ++ (.sendBlocking, answer') :: said past := by
        rcases ih h with ⟨ht, -⟩ | ⟨after, answer', he⟩
        · cases ht.symm.trans hquiet
        · exact ⟨(c, answer) :: after, answer', by rw [he]; rfl⟩
      cases happening with
      | transmission other =>
          rcases ih h.2.2 with ⟨ht, -⟩ | hafter
          · cases ht.symm.trans h.1
          · exact .inr hafter
      | returned c answer =>
          cases c with
          | sendBlocking =>
              rcases ih h.2.2.2 with ⟨-, hsaid⟩ | ⟨after, answer', he⟩
              · exact .inr ⟨[], answer, congrArg (_ :: ·) hsaid⟩
              · exact .inr ⟨_ :: after, answer', congrArg (_ :: ·) he⟩
          | configure => exact .inr (hreturned _ answer h.2 h.1)
          | _ => exact .inr (hreturned _ answer h.2.2 h.1)
      | _ => exact ih h

end Attributed

namespace Chip

-- Between the calls, and while a call runs.
structure Quiet (chip : Chip) : Prop where
  attributed : Attributed chip.history
  silent : transmitting chip.history = false
  kept : resetting chip.history = false

structure Busy (c : Call) (chip : Chip) : Prop where
  attributed : Attributed chip.history
  transmits : transmitting chip.history = true → c = .sendBlocking
  resets : resetting chip.history = true → c = .configure

-- A configure that may have reset the chip, and a sendBlocking that has
-- transmitted.
structure Reset (chip : Chip) : Prop where
  attributed : Attributed chip.history
  silent : transmitting chip.history = false

structure OnAir (chip : Chip) : Prop where
  attributed : Attributed chip.history
  transmits : transmitting chip.history = true
  kept : resetting chip.history = false

theorem Quiet.busy {chip : Chip} (h : chip.Quiet) (c : Call) : chip.Busy c :=
  ⟨h.attributed, fun ht => (by cases h.silent.symm.trans ht),
    fun hr => (by cases h.kept.symm.trans hr)⟩

-- Events are nobody's.
theorem quiet_occur {chip : Chip} (h : chip.Quiet) (e : ChipEvent) : (Chip.occur e chip).Quiet := by
  cases e with
  | arrival frame =>
      simp only [Chip.occur]
      split
      · exact ⟨h.attributed, h.silent, h.kept⟩
      · exact h
  | transmissionFinished => exact ⟨h.attributed, h.silent, h.kept⟩

theorem reset_occur {chip : Chip} (h : chip.Reset) (e : ChipEvent) : (Chip.occur e chip).Reset := by
  cases e with
  | arrival frame =>
      simp only [Chip.occur]
      split
      · exact ⟨h.attributed, h.silent⟩
      · exact h
  | transmissionFinished => exact ⟨h.attributed, h.silent⟩

theorem onAir_occur {chip : Chip} (h : chip.OnAir) (e : ChipEvent) : (Chip.occur e chip).OnAir := by
  cases e with
  | arrival frame =>
      simp only [Chip.occur]
      split
      · exact ⟨h.attributed, h.transmits, h.kept⟩
      · exact h
  | transmissionFinished => exact ⟨h.attributed, h.transmits, h.kept⟩

theorem Quiet.read_status {chip : Chip} (h : chip.Quiet) (softwareReset : Chip → Memories) :
    ((device softwareReset).read mrf_register_interrupt_status.toUInt16 chip).2.Quiet :=
  ⟨h.attributed, h.silent, h.kept⟩

theorem Quiet.returned {chip : Chip} (h : chip.Quiet) {c : Call} (hc : c ≠ .sendBlocking)
    (answer : Answer) : (chip.log (.returned c answer)).Quiet := by
  refine ⟨?_, rfl, rfl⟩
  cases c with
  | configure => exact ⟨h.silent, h.attributed⟩
  | sendBlocking => exact absurd rfl hc
  | _ => exact ⟨h.silent, h.kept, h.attributed⟩

end Chip

namespace System

variable [BitManipulation] {softwareReset : Chip → Memories}

theorem quiet_served : Served softwareReset fun _ chip => chip.Quiet where
  io _ _ _ hs := hs
  event _ _ e hs := Chip.quiet_occur hs e
  promiscuousMode _ _ _ hs := ⟨hs.attributed, hs.silent, hs.kept⟩
  readStatus _ _ hs := hs.read_status softwareReset
  polled _ _ hs := (hs.read_status softwareReset).returned (fun h => by cases h) _
  sized _ _ hs := hs.returned (fun h => by cases h) _
  fetched _ _ _ _ hs := hs.returned (fun h => by cases h) _
  finished _ _ c hc hs := by
    refine hs.returned (fun h => ?_) _
    rcases hc with rfl | rfl <;> cases h
  setter _ _ _ _ _ hs := hs.returned (fun h => by cases h) _
  overwritten _ _ _ hs := hs.returned (fun h => by cases h) _

private theorem configure_quiet (system : System) :
    (Chip.machine softwareReset).Triple (OnDevice (Chip.Busy .configure)) (OnDevice Chip.Quiet)
      (component.call .configure system)
      fun r bus => OnDevice Chip.Quiet (component.answered .configure r.2 bus) := by
  have hperforms : Performs (Chip.device softwareReset) Chip.occur _ (configureWrites system.config) _ :=
    system.impl.reconfigure_performs system.config
  have h := hperforms (Chip.Busy .configure) (fun _ => Chip.Reset)
    (fun _ _ hs => ⟨hs.attributed, fun ht => (by cases hs.silent.symm.trans ht), fun _ => rfl⟩)
    (fun _ _ e hs => Chip.reset_occur hs e) (fun _ write chip hw hs => ?_) []
  · refine (h.consequence (fun bus hs => (⟨hs.attributed, hs.silent⟩ : bus.device.Reset))
      fun _ _ hq => hq).map _ ?_
    rintro impl bus ⟨hs, -⟩
    exact ⟨⟨hs.silent, hs.attributed⟩, rfl, rfl⟩
  · rcases Chip.write_cases softwareReset write chip with ⟨-, he⟩ | ⟨-, he⟩ | ⟨-, htrigger, -⟩
    · rw [he]
      exact ⟨hs.attributed, hs.silent⟩
    · rw [he]
      exact ⟨hs.attributed, hs.silent⟩
    · exact absurd htrigger (configureWrites_address _ hw).2

-- It returns from the read that has just been noted.
private theorem sendBlocking_quiet (system : System) :
    (Chip.machine softwareReset).Triple (OnDevice (Chip.Busy .sendBlocking)) (OnDevice Chip.Quiet)
      (component.call .sendBlocking system)
      fun r bus => OnDevice Chip.Quiet (component.answered .sendBlocking r.2 bus) := by
  have hbusy (chip : Chip) (h : chip.OnAir) : chip.Busy .sendBlocking :=
    ⟨h.attributed, fun _ => rfl, fun hr => (by cases h.kept.symm.trans hr)⟩
  refine (system.impl.sendBlocking_stores (P := Chip.Quiet) (Q := Chip.OnAir)
    (R := fun chip => chip.OnAir ∧ ∃ before, chip.history = .statusRead :: before)
    (fun _ hs => hs.busy _) hbusy (fun chip hs => hbusy chip hs.1)
    (fun _ e hs => Chip.quiet_occur hs e) (fun _ e hs => Chip.onAir_occur hs e)
    (fun _ _ hs => ⟨hs.attributed, hs.silent, hs.kept⟩)
    (fun _ hs _ => ⟨⟨hs.silent, hs.kept, hs.attributed⟩, rfl, hs.kept⟩) (fun chip hs => ?_)).map _ ?_
  · have hread : Chip.OnAir
        (Chip.log { chip with memories := Chip.setStatus chip.memories 0 } .statusRead) :=
      ⟨hs.attributed, hs.transmits, hs.kept⟩
    split
    · exact ⟨hread, _, rfl⟩
    · exact hread
  · rintro _ bus ⟨⟨hs, hread⟩, -⟩
    exact ⟨⟨hs.transmits, hs.kept, hread, hs.attributed⟩, rfl, rfl⟩

theorem run_quiet (system : System) (memories : Memories)
    (moves : List (SessionMove Call ChipEvent)) :
    Session.Rests (Chip.machine softwareReset) component (fun c _ => OnDevice (Chip.Busy c))
      (fun _ => OnDevice Chip.Quiet) (run softwareReset system memories moves) :=
  quiet_served.run (I := fun c _ => Chip.Busy c) (fun c _ _ hs => hs.busy c) configure_quiet
    sendBlocking_quiet system memories ⟨trivial, rfl, rfl⟩ moves

theorem run_attributed (system : System) (memories : Memories)
    (moves : List (SessionMove Call ChipEvent)) :
    Attributed (run softwareReset system memories moves).world.device.history :=
  (run_quiet system memories moves).anytime
    (J := fun _ bus => Attributed bus.device.history) (fun _ _ hs => hs.attributed)
    fun _ _ _ hs => hs.attributed

end System

end Mac802154
