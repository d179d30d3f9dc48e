import Mac802154.Fetching
import Mac802154.Mac802154MRFImpl.Sending

namespace Mac802154

open Library

-- The transmissions that have been triggered and have not finished yet; a reset
-- ends them all.
def outstanding : List Happening → Nat
  | [] => 0
  | .transmission _ :: history => outstanding history + 1
  | .transmissionFinished :: history => outstanding history - 1
  | .softwareReset :: _ => 0
  | _ :: history => outstanding history

-- The chip reports the end of a transmission only if there is one.
def causal : List Happening → Bool
  | [] => true
  | .transmissionFinished :: history => decide (0 < outstanding history) && causal history
  | _ :: history => causal history

theorem causal_finished {history : List Happening}
    (h : causal (.transmissionFinished :: history)) : 0 < outstanding history ∧ causal history := by
  rwa [causal, Bool.and_eq_true, decide_eq_true_eq] at h

-- Since the first reset, nothing is transmitted while a transmission is under
-- way, and none is under way when sendBlocking returns.
def Awaited : List Happening → Prop
  | [] => True
  | .transmission _ :: history =>
      (.softwareReset ∈ history → outstanding history = 0) ∧ Awaited history
  | .returned .sendBlocking _ :: history =>
      (.softwareReset ∈ history → outstanding history = 0) ∧ Awaited history
  | _ :: history => Awaited history

namespace Chip

def sendInterrupt (chip : Chip) : Bool :=
  chip.memories.short mrf_register_interrupt_status.toNat &&& 1 != 0

private theorem sendBit : ∀ status : UInt8,
    ((status ||| (1 : UInt8) <<< 3) &&& 1 != 0) = (status &&& 1 != 0) ∧
      ((status ||| 1) &&& 1 != 0) = true :=
  forall_byte (by decide +kernel)

theorem sendInterrupt_setStatus (chip : Chip) (memories : Memories) (status : UInt8)
    (h : chip.memories.short = (setStatus memories status).short) :
    chip.sendInterrupt = (status &&& 1 != 0) := by
  rw [sendInterrupt, h, status_setStatus]

theorem sendInterrupt_finished (chip : Chip) :
    (Chip.occur .transmissionFinished chip).sendInterrupt = true :=
  (sendInterrupt_setStatus _ _ _ rfl).trans (sendBit _).2

-- No event clears it.
theorem sendInterrupt_occur {chip : Chip} (h : chip.sendInterrupt = true) (e : ChipEvent) :
    (Chip.occur e chip).sendInterrupt = true := by
  cases e with
  | arrival frame =>
      simp only [Chip.occur]
      split
      · exact (sendInterrupt_setStatus _ _ _ rfl).trans ((sendBit _).1.trans h)
      · exact h
  | transmissionFinished => exact sendInterrupt_finished chip

-- Nothing is on the air, and no end of a transmission waits to be read.
def Idle (chip : Chip) : Prop :=
  outstanding chip.history = 0 ∧ chip.sendInterrupt = false

-- One transmission is on the air, or its end waits to be read.
def InFlight (chip : Chip) : Prop :=
  outstanding chip.history = 1 ∧ chip.sendInterrupt = false ∨
    outstanding chip.history = 0 ∧ chip.sendInterrupt = true

-- Since the first reset of a chip that is causal, this is how it is now.
def Since (Now : Chip → Prop) (chip : Chip) : Prop :=
  causal chip.history → Awaited chip.history ∧ (.softwareReset ∈ chip.history → Now chip)

variable {Now Now' : Chip → Prop}

-- Something that has to do with transmissions neither on record nor in the chip.
theorem Since.of_eq {chip next : Chip} (h : chip.Since Now)
    (hcausal : causal next.history → causal chip.history)
    (hawaited : Awaited chip.history → Awaited next.history)
    (hreset : .softwareReset ∈ next.history → .softwareReset ∈ chip.history)
    (hnow : Now chip → Now' next) : next.Since Now' :=
  fun hc => ⟨hawaited (h (hcausal hc)).1, fun hr => hnow ((h (hcausal hc)).2 (hreset hr))⟩

theorem not_softwareReset {happening : Happening} {history : List Happening}
    (hne : happening ≠ .softwareReset) (h : .softwareReset ∈ happening :: history) :
    .softwareReset ∈ history :=
  (List.mem_cons.mp h).resolve_left fun he => hne he.symm

theorem Idle.occur {chip : Chip} (h : chip.Since Idle) (e : ChipEvent) :
    (Chip.occur e chip).Since Idle := by
  cases e with
  | arrival frame =>
      simp only [Chip.occur]
      split
      · refine h.of_eq id id (not_softwareReset fun he => by cases he) fun hidle => ⟨hidle.1, ?_⟩
        rw [sendInterrupt_setStatus _ _ _ rfl, (sendBit _).1]
        exact hidle.2
      · exact h
  | transmissionFinished =>
      intro hc
      obtain ⟨hpos, hc⟩ := causal_finished hc
      refine ⟨(h hc).1, fun hr => ?_⟩
      have hidle := (h hc).2 (not_softwareReset (fun he => by cases he) hr)
      exact absurd hidle.1 (Nat.pos_iff_ne_zero.mp hpos)

theorem InFlight.occur {chip : Chip} (h : chip.Since InFlight) (e : ChipEvent) :
    (Chip.occur e chip).Since InFlight := by
  cases e with
  | arrival frame =>
      simp only [Chip.occur]
      split
      · refine h.of_eq id id (not_softwareReset fun he => by cases he) fun hflight => ?_
        unfold InFlight
        rw [sendInterrupt_setStatus _ _ _ rfl, (sendBit _).1]
        exact hflight
      · exact h
  | transmissionFinished =>
      intro hc
      obtain ⟨hpos, hc⟩ := causal_finished hc
      refine ⟨(h hc).1, fun hr => ?_⟩
      have hflight := (h hc).2 (not_softwareReset (fun he => by cases he) hr)
      rcases hflight with ⟨hone, -⟩ | ⟨hzero, -⟩
      · refine .inr ⟨?_, ?_⟩
        · change outstanding chip.history - 1 = 0
          rw [hone]
        · exact sendInterrupt_finished chip
      · exact absurd hzero (Nat.pos_iff_ne_zero.mp hpos)

section Device

variable {softwareReset : Chip → Memories}

theorem Since.read_status {chip : Chip} (h : chip.Since Now)
    (hnow : Now chip → outstanding chip.history = 0) :
    Since Idle (Chip.log { chip with memories := setStatus chip.memories 0 } .statusRead) := by
  refine h.of_eq id id (not_softwareReset fun he => by cases he) fun hn => ⟨hnow hn, ?_⟩
  exact sendInterrupt_setStatus _ _ 0 rfl

-- A write to another register, or one that resets the chip.
theorem Idle.write (hreset : ∀ chip,
      (softwareReset chip).short mrf_register_interrupt_status.toNat &&& 1 = 0)
    {chip : Chip} (h : chip.Since Idle) (write : RegisterWrite)
    (hstatus : write.1 ≠ mrf_register_interrupt_status.toUInt16)
    (htrigger : write.1 ≠ mrf_register_tx_normal_fifo_control.toUInt16) :
    ((device softwareReset).write write.1 write.2 chip).Since Idle := by
  rcases write_cases softwareReset write chip with ⟨-, he⟩ | ⟨hr, he⟩ | ⟨-, ht, -⟩
  · rw [he]
    refine fun hc => ⟨(h hc).1, fun _ => ⟨rfl, ?_⟩⟩
    change ((softwareReset chip).short mrf_register_interrupt_status.toNat &&& 1 != 0) = false
    rw [hreset chip]
    rfl
  · have hw := register_write softwareReset write chip hr mrf_register_interrupt_status.toUInt16
    rw [if_neg (Ne.symm hstatus)] at hw
    rw [he] at hw ⊢
    refine h.of_eq id id id fun hidle => ⟨hidle.1, ?_⟩
    exact (congrArg (fun status : UInt8 => status &&& 1 != 0) hw).trans hidle.2
  · exact absurd ht htrigger

-- The trigger puts one transmission on the air.
theorem Idle.trigger {chip : Chip} (h : chip.Since Idle) :
    ((device softwareReset).write mrf_register_tx_normal_fifo_control.toUInt16 1 chip).Since
      InFlight := by
  rw [write_trigger]
  intro hc
  obtain ⟨hawaited, hidle⟩ := h hc
  refine ⟨⟨fun hr => (hidle hr).1, hawaited⟩, fun hr => .inl ⟨?_, ?_⟩⟩
  · have hzero := (hidle (not_softwareReset (fun he => by cases he) hr)).1
    exact congrArg (· + 1) hzero
  · exact (hidle (not_softwareReset (fun he => by cases he) hr)).2

-- A read of the interrupt status has found bit 0 set, or it changes nothing.
theorem InFlight.read_status {chip : Chip} (h : chip.Since InFlight) :
    if chip.memories.short mrf_register_interrupt_status.toNat &&& 1 != 0 then
      Since Idle (Chip.log { chip with memories := setStatus chip.memories 0 } .statusRead)
    else Since InFlight (Chip.log { chip with memories := setStatus chip.memories 0 } .statusRead) := by
  split
  · rename_i hbit
    refine h.read_status fun hflight => ?_
    rcases hflight with ⟨-, hflag⟩ | ⟨hzero, -⟩
    · rw [sendInterrupt, hbit] at hflag
      cases hflag
    · exact hzero
  · rename_i hbit
    refine h.of_eq id id (not_softwareReset fun he => by cases he) fun hflight => ?_
    rcases hflight with ⟨hone, -⟩ | ⟨-, hflag⟩
    · exact .inl ⟨hone, sendInterrupt_setStatus _ _ 0 rfl⟩
    · exact absurd hflag hbit

end Device

theorem Idle.returned {chip : Chip} (h : chip.Since Idle) (c : Call) (answer : Answer) :
    (chip.log (.returned c answer)).Since Idle := by
  have hreset : .softwareReset ∈ (chip.log (.returned c answer)).history →
      .softwareReset ∈ chip.history := not_softwareReset fun he => by cases he
  cases c with
  | sendBlocking =>
      exact fun hc => ⟨⟨fun hr => ((h hc).2 hr).1, (h hc).1⟩, fun hr => (h hc).2 (hreset hr)⟩
  | _ => exact h.of_eq id id hreset id

end Chip

namespace System

variable [BitManipulation] {softwareReset : Chip → Memories}

theorem idle_served : Served softwareReset fun _ chip => chip.Since Chip.Idle where
  io _ _ _ hs := hs
  event _ _ e hs := Chip.Idle.occur hs e
  promiscuousMode _ chip value hs := by
    refine hs.of_eq id id id fun hidle => ?_
    exact hidle
  readStatus _ _ hs := hs.read_status And.left
  polled _ _ hs := Chip.Idle.returned (hs.read_status And.left) _ _
  sized _ _ hs := Chip.Idle.returned hs _ _
  fetched _ _ _ _ hs := Chip.Idle.returned hs _ _
  finished _ _ _ _ hs := Chip.Idle.returned hs _ _
  setter _ _ _ _ _ hs := Chip.Idle.returned hs _ _
  overwritten _ _ _ hs := Chip.Idle.returned hs _ _

section Calls

variable (hreset : ∀ chip,
  (softwareReset chip).short mrf_register_interrupt_status.toNat &&& 1 = 0)

-- What holds while a call runs.
def Orderly (chip : Chip) : Prop :=
  causal chip.history → Awaited chip.history

include hreset in
private theorem configure_idle (system : System) :
    (Chip.machine softwareReset).Triple (OnDevice Orderly) (OnDevice (Chip.Since Chip.Idle))
      (component.call .configure system)
      fun r bus => OnDevice (Chip.Since Chip.Idle) (component.answered .configure r.2 bus) := by
  have hperforms : Performs (Chip.device softwareReset) Chip.occur _ (configureWrites system.config) _ :=
    system.impl.reconfigure_performs system.config
  have h := hperforms Orderly (fun _ chip => chip.Since Chip.Idle) (fun _ _ hs hc => (hs hc).1)
    (fun _ _ e hs => Chip.Idle.occur hs e) (fun _ write _ hw hs =>
      Chip.Idle.write hreset hs write (configureWrites_address _ hw).1
        (configureWrites_address _ hw).2) []
  refine h.map _ ?_
  rintro impl bus ⟨hs, -⟩
  exact Chip.Idle.returned hs _ _

private theorem sendBlocking_idle (system : System) :
    (Chip.machine softwareReset).Triple (OnDevice Orderly) (OnDevice (Chip.Since Chip.Idle))
      (component.call .sendBlocking system)
      fun r bus => OnDevice (Chip.Since Chip.Idle) (component.answered .sendBlocking r.2 bus) := by
  refine (system.impl.sendBlocking_stores (P := Chip.Since Chip.Idle) (Q := Chip.Since Chip.InFlight)
    (R := Chip.Since Chip.Idle) (fun _ hs hc => (hs hc).1) (fun _ hs hc => (hs hc).1)
    (fun _ hs hc => (hs hc).1) (fun _ e hs => Chip.Idle.occur hs e)
    (fun _ e hs => Chip.InFlight.occur hs e) (fun _ _ hs => hs)
    (fun _ hs _ => Chip.Idle.trigger hs) (fun _ hs => Chip.InFlight.read_status hs)).map _ ?_
  rintro _ bus ⟨hs, -⟩
  exact Chip.Idle.returned hs _ _

include hreset in
-- In every session with a chip that reports the end of a transmission only when
-- there is one, and whose reset clears that report: from the first configure on
-- there is never more than one transmission on the air, and whenever sendBlocking
-- returns, its transmission has finished.
theorem transmissions_awaited (system : System) (memories : Memories)
    (moves : List (SessionMove Call ChipEvent))
    (hcausal : causal (run softwareReset system memories moves).world.device.history) :
    Awaited (run softwareReset system memories moves).world.device.history ∧
      ((run softwareReset system memories moves).running = none →
        .softwareReset ∈ (run softwareReset system memories moves).world.device.history →
        outstanding (run softwareReset system memories moves).world.device.history = 0) := by
  have hrests := idle_served.run (I := fun _ _ => Orderly) (fun _ _ _ hs hc => (hs hc).1) (configure_idle hreset)
    sendBlocking_idle system memories (fun _ => ⟨trivial, fun hr => by cases hr⟩) moves
  refine ⟨hrests.anytime (J := fun _ => OnDevice Orderly) (fun _ _ hs hc => (hs hc).1) (fun _ _ _ hs => hs) hcausal, fun hidle => ?_⟩
  exact fun hr => ((hrests.idle hidle hcausal).2 hr).1

end Calls

omit [BitManipulation] in
-- One byte is sent, and its transmission takes a few rounds of waiting.
def oneByteSent : Session PeripheralOp PeripheralOp.Response (Bus Chip) System Call Answer :=
  @run BitManipulation.reference (fun _ => ⟨fun _ => 0, fun _ => 0⟩)
    ⟨Mrf.zeroed, { Mrf.zeroed.config with channel := 12 }⟩
    ⟨fun _ => 0, fun _ => 0⟩
    (.call .configure :: List.replicate 121 .act ++
      .call (.setter (.setPayload (fun _ => 0x41) 1)) :: .call .sendBlocking ::
      List.replicate 32 .act ++ .event .transmissionFinished :: List.replicate 5 .act)

omit [BitManipulation] in
theorem transmissions_awaited_one : Awaited oneByteSent.world.device.history ∧
    (.softwareReset ∈ oneByteSent.world.device.history →
      outstanding oneByteSent.world.device.history = 0) := by
  have hcausal : causal oneByteSent.world.device.history := by decide +kernel
  have hidle : oneByteSent.running = none := Option.isNone_iff_eq_none.mp (by decide +kernel)
  unfold oneByteSent at hcausal hidle ⊢
  exact And.imp_right (fun hfinished => hfinished hidle)
    (@transmissions_awaited BitManipulation.reference _ (fun _ => rfl) _ _ _ hcausal)

end System

end Mac802154
