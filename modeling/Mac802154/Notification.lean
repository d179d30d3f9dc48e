import Mac802154.Mac802154MRFImpl.Theorems
import Mac802154.MRF24J40.Theorems
import Mac802154.System.Theorems

namespace Mac802154

open Library

-- A frame has arrived, and the interrupt status has not been read since.
def arrivedSinceRead : List Happening → Bool
  | [] => false
  | .arrival _ :: _ => true
  | .statusRead :: _ => false
  | .softwareReset :: _ => false
  | _ :: history => arrivedSinceRead history

-- A frame has arrived since the last answer of newPacketAvailable, or since
-- the reset that begins a configure.
def arrivedSincePoll : List Happening → Bool
  | [] => false
  | .arrival _ :: _ => true
  | .returned .newPacketAvailable _ :: _ => false
  | .softwareReset :: _ => false
  | _ :: history => arrivedSincePoll history

-- Every answer of newPacketAvailable comes straight from a read of the
-- interrupt status, and every configure has begun with a reset.
def Recorded : List Happening → Prop
  | [] => True
  | .returned .newPacketAvailable answer :: history =>
      (∃ before, history = .statusRead :: before ∧
        (.softwareReset ∈ before → answer = .flag (arrivedSinceRead before))) ∧ Recorded history
  | .returned .configure _ :: history => .softwareReset ∈ history ∧ Recorded history
  | _ :: history => Recorded history

theorem Recorded.suffix {later earlier : List Happening} (h : Recorded (later ++ earlier)) :
    Recorded earlier := by
  induction later with
  | nil => exact h
  | cons happening later ih =>
      apply ih
      cases happening with
      | returned c answer =>
          cases c with
          | newPacketAvailable => exact h.2
          | configure => exact h.2
          | _ => exact h
      | _ => exact h

theorem Recorded.softwareReset {history : List Happening} (h : Recorded history) {answer : Answer}
    (hc : .returned .configure answer ∈ history) : .softwareReset ∈ history := by
  obtain ⟨later, earlier, rfl⟩ := List.append_of_mem hc
  exact List.mem_append_right _ (List.mem_cons_of_mem _ (Recorded.suffix h).1)

-- A poll reads the status, so what has arrived since a read has arrived since
-- the last poll too.
theorem arrivedSincePoll_of_arrivedSinceRead {history : List Happening} (h : Recorded history)
    (ha : arrivedSinceRead history = true) : arrivedSincePoll history = true := by
  induction history with
  | nil => cases ha
  | cons happening history ih =>
      cases happening with
      | arrival frame => rfl
      | statusRead => cases ha
      | softwareReset => cases ha
      | transmissionFinished => exact ih h ha
      | transmission long => exact ih h ha
      | returned c answer =>
          cases c with
          | newPacketAvailable =>
              obtain ⟨⟨before, rfl, -⟩, -⟩ := h
              cases ha
          | configure => exact ih h.2 ha
          | _ => exact ih h ha

namespace Chip

def receiveInterrupt (chip : Chip) : Bool :=
  chip.memories.short mrf_register_interrupt_status.toNat >>> 3 &&& 1 != 0

-- The interrupt flag of the chip is what the record says about arrivals.
structure Notifies (chip : Chip) : Prop where
  flag : .softwareReset ∈ chip.history →
    chip.receiveInterrupt = arrivedSinceRead chip.history
  recorded : Recorded chip.history

private theorem receiveBit : ∀ status : UInt8,
    ((status ||| (1 : UInt8) <<< 3) >>> 3 &&& 1 != 0) = true ∧
      ((status ||| 1) >>> 3 &&& 1 != 0) = (status >>> 3 &&& 1 != 0) :=
  forall_byte (by decide +kernel)

theorem status_setStatus (memories : Memories) (status : UInt8) :
    (setStatus memories status).short mrf_register_interrupt_status.toNat = status := by
  have := Memory.overwrite_of_mem memories.short mrf_register_interrupt_status.toNat [status] _
    (Nat.le_refl _) (by simp)
  rwa [Nat.sub_self] at this

theorem Notifies.occur {chip : Chip} (h : chip.Notifies) (e : ChipEvent) :
    (Chip.occur e chip).Notifies := by
  cases e with
  | arrival frame =>
      simp only [Chip.occur]
      split
      · refine ⟨fun _ => ?_, h.recorded⟩
        have hstatus := status_setStatus chip.memories
          (chip.memories.short mrf_register_interrupt_status.toNat ||| (1 : UInt8) <<< 3)
        exact (congrArg (fun status : UInt8 => status >>> 3 &&& 1 != 0) hstatus).trans (receiveBit _).1
      · exact h
  | transmissionFinished =>
      refine ⟨fun hr => ?_, h.recorded⟩
      have hflag := h.flag ((List.mem_cons.mp hr).resolve_left fun he => by cases he)
      have hstatus := status_setStatus chip.memories
        (chip.memories.short mrf_register_interrupt_status.toNat ||| 1)
      exact (congrArg (fun status : UInt8 => status >>> 3 &&& 1 != 0) hstatus).trans
        ((receiveBit _).2.trans hflag)

-- Neither the flag nor what the record says about arrivals changes.
theorem Notifies.of_eq {chip next : Chip} (h : chip.Notifies)
    (hflag : next.receiveInterrupt = chip.receiveInterrupt)
    (hhistory : next.history = chip.history ∨
      ∃ long, next.history = .transmission long :: chip.history) : next.Notifies := by
  rcases hhistory with he | ⟨long, he⟩
  · refine ⟨fun hr => ?_, he ▸ h.recorded⟩
    rw [he] at hr ⊢
    rw [hflag, h.flag hr]
  · refine ⟨fun hr => ?_, he ▸ h.recorded⟩
    rw [he] at hr ⊢
    rw [hflag, h.flag ((List.mem_cons.mp hr).resolve_left fun he => by cases he)]
    rfl

theorem softwareReset_occur (e : ChipEvent) (chip : Chip)
    (h : .softwareReset ∈ chip.history) : .softwareReset ∈ (Chip.occur e chip).history := by
  cases e with
  | arrival frame =>
      simp only [Chip.occur]
      split
      · exact List.mem_cons_of_mem _ h
      · exact h
  | transmissionFinished => exact List.mem_cons_of_mem _ h

theorem softwareReset_write (softwareReset : Chip → Memories) (write : RegisterWrite) (chip : Chip)
    (h : .softwareReset ∈ chip.history ∨ isReset write) :
    .softwareReset ∈ ((device softwareReset).write write.1 write.2 chip).history := by
  rcases write_cases softwareReset write chip with ⟨-, he⟩ | ⟨hr, he⟩ | ⟨hr, -, he⟩
  · rw [he]
    exact List.mem_cons_self
  · rw [he]
    exact h.resolve_right (by simp [hr])
  · rw [he]
    exact List.mem_cons_of_mem _ (h.resolve_right (by simp [hr]))

section Device

variable {softwareReset : Chip → Memories}
  (hreset : ∀ chip,
    (softwareReset chip).short mrf_register_interrupt_status.toNat >>> 3 &&& 1 = 0)

include hreset in
theorem Notifies.write {chip : Chip} (h : chip.Notifies) (write : RegisterWrite)
    (hne : write.1 ≠ mrf_register_interrupt_status.toUInt16) :
    ((device softwareReset).write write.1 write.2 chip).Notifies := by
  have hregister (hr : isReset write = false) :
      ((device softwareReset).write write.1 write.2 chip).receiveInterrupt = chip.receiveInterrupt := by
    have hw := register_write softwareReset write chip hr mrf_register_interrupt_status.toUInt16
    rw [if_neg (Ne.symm hne)] at hw
    exact congrArg (fun status : UInt8 => status >>> 3 &&& 1 != 0) hw
  rcases write_cases softwareReset write chip with ⟨-, he⟩ | ⟨hr, he⟩ | ⟨hr, -, he⟩
  · rw [he]
    refine ⟨fun _ => ?_, h.recorded⟩
    change ((softwareReset chip).short mrf_register_interrupt_status.toNat >>> 3 &&& 1 != 0) = false
    rw [hreset chip]
    rfl
  · exact h.of_eq (hregister hr) (.inl (by rw [he]))
  · exact h.of_eq (hregister hr) (.inr ⟨chip.memories.long, by rw [he]; rfl⟩)

theorem Notifies.writeLongs {chip : Chip} (h : chip.Notifies) (address : Nat) (bytes : List UInt8) :
    ((device softwareReset).writeLongs address bytes chip).Notifies := by
  rw [writeLongs_eq]
  exact h.of_eq rfl (.inl rfl)

theorem Notifies.read_status {chip : Chip} (h : chip.Notifies) :
    ((device softwareReset).read mrf_register_interrupt_status.toUInt16 chip).2.Notifies := by
  refine ⟨fun _ => ?_, h.recorded⟩
  have hstatus := status_setStatus chip.memories 0
  exact congrArg (fun status : UInt8 => status >>> 3 &&& 1 != 0) hstatus

end Device

theorem Notifies.returned {chip : Chip} (h : chip.Notifies) {c : Call}
    (hpoll : c ≠ .newPacketAvailable) (hconfigure : c ≠ .configure) (answer : Answer) :
    (chip.log (.returned c answer)).Notifies := by
  cases c with
  | newPacketAvailable => exact absurd rfl hpoll
  | configure => exact absurd rfl hconfigure
  | _ => exact ⟨fun hr => h.flag ((List.mem_cons.mp hr).resolve_left fun he => by cases he),
      h.recorded⟩

end Chip

namespace System

variable [BitManipulation] {softwareReset : Chip → Memories}

section Calls

variable (hreset : ∀ chip,
  (softwareReset chip).short mrf_register_interrupt_status.toNat >>> 3 &&& 1 = 0)

include hreset

-- The answer of a poll is the flag as it was, and the flag was what the record says.
theorem notifies_kept : Kept softwareReset fun _ chip => chip.Notifies where
  io _ _ _ hs := hs
  event _ _ e hs := hs.occur e
  write _ _ write hw hs := by
    refine hs.write hreset write ?_
    rcases hw with hw | hw
    · rw [hw]
      decide
    · rw [hw]
      decide
  writeLongs _ _ address bytes _ hs := hs.writeLongs address bytes
  readStatus _ _ hs := hs.read_status
  polled _ chip hs := by
    have hread : ((Chip.device softwareReset).read mrf_register_interrupt_status.toUInt16 chip).2.Notifies :=
      hs.read_status
    refine ⟨fun hr => hread.flag ((List.mem_cons.mp hr).resolve_left fun he => by cases he),
      ⟨chip.history, rfl, fun hr => ?_⟩, hread.recorded⟩
    exact congrArg Answer.flag (hs.flag hr)
  sized _ _ hs := hs.returned (fun h => by cases h) (fun h => by cases h) _
  fetched _ _ _ _ hs := hs.returned (fun h => by cases h) (fun h => by cases h) _
  finished _ _ c hc hs := by
    refine hs.returned (fun h => ?_) (fun h => ?_) .nothing
    · rcases hc with rfl | rfl | rfl <;> cases h
    · rcases hc with rfl | rfl | rfl <;> cases h
  setter _ _ _ _ _ hs := hs.returned (fun h => by cases h) (fun h => by cases h) .nothing
  overwritten _ _ _ hs := hs.returned (fun h => by cases h) (fun h => by cases h) .nothing

-- The reset is on record when the configure returns.
private theorem configure_notifies (system : System) :
    (Chip.machine softwareReset).Triple (OnDevice Chip.Notifies) (OnDevice Chip.Notifies)
      (component.call .configure system)
      fun r bus => OnDevice Chip.Notifies (component.answered .configure r.2 bus) := by
  have hperforms : Performs (Chip.device softwareReset) Chip.occur _ (configureWrites system.config) _ :=
    system.impl.reconfigure_performs system.config
  have hwrite (before : List RegisterWrite) (write : RegisterWrite) (chip : Chip)
      (hw : write ∈ configureWrites system.config)
      (hs : chip.Notifies ∧ ((∃ w ∈ before, isReset w) → .softwareReset ∈ chip.history)) :
      ((Chip.device softwareReset).write write.1 write.2 chip).Notifies ∧
        ((∃ w ∈ before ++ [write], isReset w) → .softwareReset ∈
          ((Chip.device softwareReset).write write.1 write.2 chip).history) := by
    refine ⟨hs.1.write hreset write (configureWrites_address _ hw).1, ?_⟩
    rintro ⟨w, hmem, hr⟩
    refine Chip.softwareReset_write softwareReset write chip ?_
    rcases List.mem_append.mp hmem with hb | hb
    · exact .inl (hs.2 ⟨w, hb, hr⟩)
    · rw [List.mem_singleton.mp hb] at hr
      exact .inr hr
  have h := hperforms Chip.Notifies
    (fun before chip => chip.Notifies ∧ ((∃ w ∈ before, isReset w) → .softwareReset ∈ chip.history))
    (fun _ _ hs => hs.1) (fun _ chip e hs => ⟨hs.1.occur e, fun hb =>
      Chip.softwareReset_occur e chip (hs.2 hb)⟩) hwrite []
  refine (h.consequence (fun bus hs => ⟨hs, fun ⟨w, hw, _⟩ => by cases hw⟩) fun _ _ hq => hq).map _ ?_
  rintro impl bus ⟨⟨hs, hr⟩, -⟩
  refine ⟨fun hmem => hs.flag ((List.mem_cons.mp hmem).resolve_left fun he => by cases he),
    hr ⟨_, List.mem_cons_self, rfl⟩, hs.recorded⟩

theorem run_notifies (system : System) (memories : Memories)
    (moves : List (SessionMove Call ChipEvent)) :
    (run softwareReset system memories moves).world.device.Notifies :=
  (notifies_kept hreset).run (configure_notifies hreset) system memories
    ⟨fun hr => absurd hr List.not_mem_nil, trivial⟩ moves

-- In every run, an answer of newPacketAvailable after a configure is right
-- exactly if no other read of the interrupt status came between it and the
-- frames that arrived since the last answer.
theorem newPacketAvailable_notifies_iff (system : System) (memories : Memories)
    (moves : List (SessionMove Call ChipEvent)) (later earlier : List Happening)
    (answer configured : Answer)
    (hanswer : (run softwareReset system memories moves).world.device.history =
      later ++ .returned .newPacketAvailable answer :: earlier)
    (hconfigured : .returned .configure configured ∈ earlier) :
    ∃ before, earlier = .statusRead :: before ∧
      (answer = .flag (arrivedSincePoll before) ↔
        (arrivedSincePoll before = true → arrivedSinceRead before = true)) := by
  have hrecorded := (run_notifies hreset system memories moves).recorded
  rw [hanswer] at hrecorded
  obtain ⟨⟨before, rfl, hflag⟩, hrest⟩ := Recorded.suffix hrecorded
  have hreset' : .softwareReset ∈ before := by
    have := Recorded.softwareReset hrest hconfigured
    exact (List.mem_cons.mp this).resolve_left fun he => by cases he
  have hsince : arrivedSinceRead before = true → arrivedSincePoll before = true :=
    arrivedSincePoll_of_arrivedSinceRead hrest
  refine ⟨before, rfl, ?_⟩
  rw [hflag hreset', Answer.flag.injEq]
  constructor
  · intro he hp
    rw [he, hp]
  · intro himp
    by_cases hp : arrivedSincePoll before = true
    · rw [himp hp, hp]
    · by_cases hr : arrivedSinceRead before = true
      · exact absurd (hsince hr) hp
      · rw [(Bool.not_eq_true _).mp hp, (Bool.not_eq_true _).mp hr]

end Calls

section Runs

omit [BitManipulation]

-- What a run that can be computed shows of its record.
def latestFlag : List Happening → Option Bool
  | .returned .newPacketAvailable (.flag value) :: _ => some value
  | _ => none

theorem eq_cons_of_latestFlag {history : List Happening} {value : Bool}
    (h : latestFlag history = some value) :
    history = [] ++ .returned .newPacketAvailable (.flag value) :: history.tail := by
  unfold latestFlag at h
  split at h
  · cases h
    rfl
  · cases h

-- A session of a fresh driver after one configure, on a chip that a reset clears.
def exampleRun (config : Mac802154Config) (moves : List (SessionMove Call ChipEvent)) :
    List Happening :=
  (@run BitManipulation.reference (fun _ => ⟨fun _ => 0, fun _ => 0⟩) ⟨Mrf.zeroed, config⟩
    ⟨fun _ => 0, fun _ => 0⟩
    (.call .configure :: List.replicate 121 .act ++ moves)).world.device.history

theorem newPacketAvailable_notifies_iff_arrival :
    ∃ before, (exampleRun ⟨#v[0xAA, 0xAA], #v[8, 7, 6, 5, 4, 3, 2, 1], #v[0xCC, 0xDD], 12⟩
        (.event (.arrival (Vector.replicate _ 7)) :: .call .newPacketAvailable ::
          List.replicate 4 .act)).tail = .statusRead :: before ∧
      (Answer.flag true = .flag (arrivedSincePoll before) ↔
        (arrivedSincePoll before = true → arrivedSinceRead before = true)) :=
  @newPacketAvailable_notifies_iff BitManipulation.reference _ (fun _ => rfl) _ _ _ [] _ _ .nothing
    (eq_cons_of_latestFlag (by decide +kernel)) (configured_of_any (by decide +kernel))

-- A frame that arrives while sendBlocking waits for the end of its transmission
-- is not notified.
theorem newPacketAvailable_misses_arrival :
    ¬∀ (moves : List (SessionMove Call ChipEvent)) (later earlier : List Happening) (answer : Answer),
      exampleRun ⟨#v[0xAA, 0xAA], #v[8, 7, 6, 5, 4, 3, 2, 1], #v[0xCC, 0xDD], 12⟩ moves =
        later ++ .returned .newPacketAvailable answer :: earlier →
      .returned .configure .nothing ∈ earlier → answer = .flag (arrivedSincePoll earlier) := by
  intro h
  have hpoll := h (.call (.setter (.setPayload (fun _ => 0x41) 1)) :: .call .sendBlocking ::
      List.replicate 12 .act ++ .event (.arrival (Vector.replicate _ 7)) ::
      .event .transmissionFinished :: List.replicate 5 .act ++
      .call .newPacketAvailable :: List.replicate 4 .act) [] _ (.flag false)
    (eq_cons_of_latestFlag (by decide +kernel)) (configured_of_any (by decide +kernel))
  rw [Answer.flag.injEq] at hpoll
  revert hpoll
  decide +kernel

end Runs

end System

end Mac802154
