import Mac802154.TransmitImage
import Mac802154.System.Theorems
import Mathlib.Data.List.Forall2

namespace Mac802154

open Library FrameHeader802154

def SetterCall.setsPayload : SetterCall → Bool
  | setPayload _ _ => true
  | _ => false

-- What the driver's pointer to the payload is after a call.
def SetterCall.pointer (current : BytePointer) : SetterCall → BytePointer
  | setPayload payload _ => payload
  | _ => current

-- The payload that these calls have set last, and the calls before that.
def SetsLast (calls before : List SetterCall) (payload : BytePointer) (n : Nat) : Prop :=
  ∃ after, calls = before ++ .setPayload payload n :: after ∧
    ∀ call ∈ after, call.setsPayload = false

def selectedHeaderSize (config : Mac802154Config) (calls : List SetterCall) : Nat :=
  (selectedFields config calls).toBytes.length

namespace Message

-- The message that a caller puts together after it has configured the driver;
-- until it sets a payload the pointer is what it was before.
def composed (config : Mac802154Config) (calls : List SetterCall) (prior : BytePointer) : Message :=
  (calls.map (SetterCall.stateSetter config)).foldl update (configured config prior)

theorem composed_append (config : Mac802154Config) (calls : List SetterCall) (prior : BytePointer)
    (call : SetterCall) : composed config (calls ++ [call]) prior =
      (composed config calls prior).update (call.stateSetter config) := by
  simp only [composed, List.map_append, List.map_cons, List.map_nil, List.foldl_append,
    List.foldl_cons, List.foldl_nil]

theorem fields_composed (config : Mac802154Config) (calls : List SetterCall) (prior : BytePointer) :
    (composed config calls prior).fields = selectedFields config calls :=
  fields_foldl config calls [] (configured config prior) rfl

theorem foldl_update_of_not_setsPayload (config : Mac802154Config) {calls : List SetterCall}
    (h : ∀ call ∈ calls, call.setsPayload = false) (message : Message) :
    (calls.map (SetterCall.stateSetter config)).foldl update message = { message with
      fields := ((calls.map (SetterCall.stateSetter config)).foldl update message).fields } := by
  induction calls generalizing message with
  | nil => rfl
  | cons call calls ih =>
      have hrest := ih (fun call hcall => h call (List.mem_cons_of_mem _ hcall))
        (message.update (call.stateSetter config))
      have hcall := h call List.mem_cons_self
      rw [List.map_cons, List.foldl_cons, hrest]
      cases call with
      | setPayload payload n => cases hcall
      | _ => rfl

theorem composed_of_setsLast {config : Mac802154Config} {calls before : List SetterCall}
    {payload : BytePointer} {n : Nat} (h : SetsLast calls before payload n) (prior : BytePointer) :
    composed config calls prior = ⟨selectedFields config calls, payload, UInt8.ofNat n,
      selectedHeaderSize config before⟩ := by
  rw [← fields_composed config calls prior, selectedHeaderSize, ← fields_composed config before prior]
  obtain ⟨after, rfl, hafter⟩ := h
  have hsplit : composed config (before ++ .setPayload payload n :: after) prior =
      (after.map (SetterCall.stateSetter config)).foldl update
        ((composed config before prior).update (.setPayload payload (UInt8.ofNat n))) := by
    rw [composed, List.map_append, List.foldl_append]
    rfl
  rw [hsplit, foldl_update_of_not_setsPayload config hafter]
  rfl

theorem composed_of_not_setsPayload {config : Mac802154Config} {calls : List SetterCall}
    (h : ∀ call ∈ calls, call.setsPayload = false) (prior : BytePointer) :
    composed config calls prior = ⟨selectedFields config calls, prior, 0, 9⟩ := by
  rw [← fields_composed config calls prior, composed, foldl_update_of_not_setsPayload config h]
  rfl

end Message

-- What the record tells of the caller: its own Mac802154Config, and the one that
-- it has configured the driver with, together with the setters since.
structure Caller where
  config : Mac802154Config
  configured : Option (Mac802154Config × List SetterCall)

def callerOf (config : Mac802154Config) : List Happening → Caller
  | [] => ⟨config, none⟩
  | .returned .configure _ :: history =>
      let caller := callerOf config history
      { caller with configured := some (caller.config, []) }
  | .returned (.setter call) _ :: history =>
      let caller := callerOf config history
      { caller with configured := caller.configured.map fun used => (used.1, used.2 ++ [call]) }
  | .returned (.overwriteConfig other) _ :: history =>
      { callerOf config history with config := other }
  | _ :: history => callerOf config history

-- The pointer that the driver has been left with, at first `initial`.
def pointerOf (initial : BytePointer) : List Happening → BytePointer
  | [] => initial
  | .returned (.setter call) _ :: history => call.pointer (pointerOf initial history)
  | _ :: history => pointerOf initial history

-- What the chip is given to send for a caller that has configured the driver so
-- and called these setters since, when the driver's pointer is `pointer`: the
-- frame of its message, if it has set a payload and the header has the same size
-- as it had then. Otherwise the length of the frame counts the header of that
-- time, or of the beginning, and decides how many bytes are sent as the payload.
structure FrameOf (config : Mac802154Config) (calls : List SetterCall) (pointer : BytePointer)
    (long : Memory) : Prop where
  whole : ∀ before payload n, SetsLast calls before payload n → n < 256 →
    selectedHeaderSize config before = selectedHeaderSize config calls →
    long.StartsWith (image (selectedFields config calls) payload n)
  resized : ∀ before payload n, SetsLast calls before payload n →
    let frame_length := UInt8.ofNat (selectedHeaderSize config before + n)
    long.StartsWith (frameBytes (selectedFields config calls) frame_length
      (payload.bytes (frame_length - UInt8.ofNat (selectedHeaderSize config calls))))
  unset : (∀ call ∈ calls, call.setsPayload = false) →
    long.StartsWith (frameBytes (selectedFields config calls) 9
      (pointer.bytes (9 - UInt8.ofNat (selectedHeaderSize config calls))))

theorem FrameOf.of_sentBytes {config : Mac802154Config} {calls : List SetterCall}
    {prior pointer : BytePointer} {long : Memory}
    (h : long.StartsWith (Message.composed config calls prior).sentBytes)
    (hpointer : (Message.composed config calls prior).payload = pointer) :
    FrameOf config calls pointer long where
  whole before payload n hlast hn hsize := by
    rw [Message.composed_of_setsLast hlast, Message.sentBytes_of_kept hsize, Message.image,
      UInt8.toNat_ofNat_of_lt' hn] at h
    exact h
  resized before payload n hlast := by
    rw [Message.composed_of_setsLast hlast, Message.sentBytes, Message.frameLength,
      ← UInt8.ofNat_add, Nat.add_comm] at h
    exact h
  unset hnone := by
    rw [Message.composed_of_not_setsPayload hnone] at h hpointer
    subst hpointer
    exact h

-- A transmission is of what its caller had put together by then, if it had
-- configured the driver.
def Carries (start : System) (past : List Happening) (long : Memory) : Prop :=
  ∀ used calls, (callerOf start.config past).configured = some (used, calls) →
    FrameOf used calls (pointerOf start.impl.state.payload past) long

def Faithful (start : System) : List Happening → Prop
  | [] => True
  | .transmission long :: history => Carries start history long ∧ Faithful start history
  | _ :: history => Faithful start history

-- The transmissions, oldest first, and the records of before the returns of
-- sendBlocking.
def sent : List Happening → List Memory
  | [] => []
  | .transmission long :: history => sent history ++ [long]
  | _ :: history => sent history

def asked : List Happening → List (List Happening)
  | [] => []
  | .returned .sendBlocking _ :: history => asked history ++ [history]
  | _ :: history => asked history

-- Each call that has returned has sent its own message, and there is nothing
-- else on the air but what is pending.
def Delivered (start : System) (pending : List Memory) (history : List Happening) : Prop :=
  ∃ done, sent history = done ++ pending ∧ List.Forall₂ (Carries start) (asked history) done

namespace System

variable (start : System)

-- The driver holds the message that the record tells of.
structure Composes (pending : List Memory) (system : System) (chip : Chip) : Prop where
  faithful : Faithful start chip.history
  delivered : Delivered start pending chip.history
  caller : (callerOf start.config chip.history).config = system.config
  pointer : system.impl.state.payload = pointerOf start.impl.state.payload chip.history
  holds : ∀ used calls, (callerOf start.config chip.history).configured = some (used, calls) →
    system.impl.config = used ∧ ∃ prior,
      system.impl.state.Holds (Message.composed used calls prior)

-- While a sendBlocking runs there may be one transmission more than calls that
-- have returned.
def Sends (c : Call) (chip : Chip) : Prop :=
  Faithful start chip.history ∧ ∃ pending, pending.length ≤ 1 ∧
    (pending ≠ [] → c = .sendBlocking) ∧ Delivered start pending chip.history

-- The message has been sent.
def HasSent (system : System) (chip : Chip) : Prop :=
  ∃ long, Carries start chip.history long ∧ Composes start [long] system chip

variable {start} {pending : List Memory} {system : System}

theorem Composes.sends {chip : Chip} (h : Composes start [] system chip) (c : Call) :
    Sends start c chip :=
  ⟨h.faithful, [], Nat.zero_le 1, fun hne => absurd rfl hne, h.delivered⟩

theorem HasSent.sends {chip : Chip} (h : HasSent start system chip) :
    Sends start .sendBlocking chip := by
  obtain ⟨long, -, hs⟩ := h
  exact ⟨hs.faithful, [long], Nat.le_refl 1, fun _ => rfl, hs.delivered⟩

-- Nothing has happened that the caller or the TX FIFO has to do with.
theorem Composes.of_eq {pending' : List Memory} {chip next : Chip}
    (h : Composes start pending system chip)
    (hcaller : callerOf start.config next.history = callerOf start.config chip.history)
    (hpointer : pointerOf start.impl.state.payload next.history =
      pointerOf start.impl.state.payload chip.history)
    (hfaithful : Faithful start next.history) (hdelivered : Delivered start pending' next.history) :
    Composes start pending' system next :=
  ⟨hfaithful, hdelivered, hcaller ▸ h.caller, hpointer ▸ h.pointer, hcaller ▸ h.holds⟩

theorem Composes.occur {chip : Chip} (h : Composes start pending system chip) (e : ChipEvent) :
    Composes start pending system (Chip.occur e chip) := by
  cases e with
  | arrival frame =>
      simp only [Chip.occur]
      split
      · exact h.of_eq rfl rfl h.faithful h.delivered
      · exact h
  | transmissionFinished => exact h.of_eq rfl rfl h.faithful h.delivered

theorem HasSent.occur {chip : Chip} (h : HasSent start system chip) (e : ChipEvent) :
    HasSent start system (Chip.occur e chip) := by
  obtain ⟨long, hcarries, hs⟩ := h
  refine ⟨long, ?_, hs.occur e⟩
  cases e with
  | arrival frame =>
      simp only [Chip.occur]
      split <;> exact hcarries
  | transmissionFinished => exact hcarries

theorem HasSent.read_status {chip : Chip} (h : HasSent start system chip) : HasSent start system
    (Chip.log { chip with memories := Chip.setStatus chip.memories 0 } .statusRead) := by
  obtain ⟨long, hcarries, hs⟩ := h
  exact ⟨long, hcarries, hs.of_eq rfl rfl hs.faithful hs.delivered⟩

-- When the call returns, its message is no longer pending.
theorem HasSent.returned {chip : Chip} (h : HasSent start system chip) (io : MrfIo) :
    Composes start [] { system with impl := { system.impl with io } }
      (chip.log (.returned .sendBlocking .nothing)) := by
  obtain ⟨long, hcarries, hs⟩ := h
  obtain ⟨done, hsent, hdone⟩ := hs.delivered
  refine ⟨hs.faithful, ⟨done ++ [long], ?_, ?_⟩, hs.caller, hs.pointer, hs.holds⟩
  · rw [List.append_nil]
    exact hsent
  · exact List.rel_append hdone (.cons hcarries .nil)

variable [BitManipulation] {softwareReset : Chip → Memories}

private theorem payload_of_field {mrf next : MrfState} {setter : FieldSetter}
    (h : (StateSetter.field setter).apply mrf = .ok next) : next.payload = mrf.payload := by
  cases setter with
  | enableAcknowledgementRequest =>
      cases h
      rfl
  | _ =>
      obtain ⟨frame_header, -, hend⟩ := bind_eq_ok.mp h
      cases hend
      rfl

private theorem payload_of_setter {impl : Mrf} {call : SetterCall} {state : MrfState}
    (h : call.apply impl = .ret { impl with state }) :
    state.payload = call.pointer impl.state.payload := by
  have hstate := Mrf.state_of_setter h
  cases call with
  | setPayload payload payload_length =>
      cases hstate
      rfl
  | _ => exact payload_of_field hstate

theorem Composes.setter {chip : Chip} (h : Composes start [] system chip)
    {call : SetterCall} {state : MrfState}
    (hstate : SetterCall.apply system.impl call = .ret { system.impl with state }) :
    Composes start [] { system with impl := { system.impl with state } }
      (chip.log (.returned (.setter call) .nothing)) := by
  refine ⟨h.faithful, h.delivered, h.caller, ?_, fun used calls hused => ?_⟩
  · change state.payload = call.pointer (pointerOf start.impl.state.payload chip.history)
    rw [← h.pointer]
    exact payload_of_setter hstate
  · obtain ⟨⟨used', calls'⟩, hbefore, he⟩ := Option.map_eq_some_iff.mp hused
    cases he
    obtain ⟨hconfig, prior, hholds⟩ := h.holds used' calls' hbefore
    obtain ⟨next, hnext, hlast⟩ := Mrf.setter_returns hholds call
    rw [hstate] at hnext
    cases hnext
    rw [hconfig] at hlast
    refine ⟨hconfig, prior, ?_⟩
    rw [Message.composed_append]
    exact hlast

theorem composes_served : Served softwareReset (Composes start []) where
  io _ _ _ hs := ⟨hs.faithful, hs.delivered, hs.caller, hs.pointer, hs.holds⟩
  event _ _ e hs := hs.occur e
  promiscuousMode _ _ _ hs := hs.of_eq rfl rfl hs.faithful hs.delivered
  readStatus _ _ hs := hs.of_eq rfl rfl hs.faithful hs.delivered
  polled _ _ hs := hs.of_eq rfl rfl hs.faithful hs.delivered
  sized _ _ hs := hs.of_eq rfl rfl hs.faithful hs.delivered
  fetched _ _ _ _ hs := hs.of_eq rfl rfl hs.faithful hs.delivered
  finished _ _ c hc hs := by
    rcases hc with rfl | rfl
    · exact hs.of_eq rfl rfl hs.faithful hs.delivered
    · exact hs.of_eq rfl rfl hs.faithful hs.delivered
  setter _ _ _ _ hstate hs := hs.setter hstate
  overwritten _ _ _ hs := ⟨hs.faithful, hs.delivered, rfl, hs.pointer, hs.holds⟩

-- While a configure runs, the message of before is nobody's any more.
private theorem configure_composes (system : System) :
    (Chip.machine softwareReset).Triple (OnDevice (Sends start .configure))
      (OnDevice (Composes start [] system)) (component.call .configure system)
      fun r bus => OnDevice (Composes start [] r.1) (component.answered .configure r.2 bus) := by
  have hperforms : Performs (Chip.device softwareReset) Chip.occur _ (configureWrites system.config) _ :=
    system.impl.reconfigure_performs system.config
  have h := hperforms (Sends start .configure)
    (fun _ chip => Faithful start chip.history ∧ Delivered start [] chip.history ∧
      (callerOf start.config chip.history).config = system.config ∧
      system.impl.state.payload = pointerOf start.impl.state.payload chip.history)
    (fun _ _ hs => ⟨hs.1, [], Nat.zero_le 1, fun hne => absurd rfl hne, hs.2.1⟩) (fun _ chip e hs => ?_)
    (fun _ write chip hw hs => ?_) []
  · refine (h.consequence (fun bus hs => ⟨hs.faithful, hs.delivered, hs.caller, hs.pointer⟩)
      fun _ _ hq => hq).map _ ?_
    rintro impl bus ⟨⟨hfaithful, hdelivered, hcaller, hpointer⟩, hconfig, hholds⟩
    refine ⟨hfaithful, hdelivered, hcaller, hholds.payload.trans hpointer, fun used calls hused => ?_⟩
    obtain ⟨rfl, rfl⟩ := Prod.mk.inj (Option.some.inj hused)
    exact ⟨hconfig.trans hcaller.symm, _, hcaller ▸ hholds⟩
  · cases e with
    | arrival frame =>
        simp only [Chip.occur]
        split <;> exact hs
    | transmissionFinished => exact hs
  · rcases Chip.write_cases softwareReset write chip with ⟨-, he⟩ | ⟨-, he⟩ | ⟨-, htrigger, -⟩
    · rw [he]
      exact hs
    · rw [he]
      exact hs
    · exact absurd htrigger (configureWrites_address _ hw).2

private theorem sendBlocking_composes (system : System) :
    (Chip.machine softwareReset).Triple (OnDevice (Sends start .sendBlocking))
      (OnDevice (Composes start [] system)) (component.call .sendBlocking system)
      fun r bus => OnDevice (Composes start [] r.1) (component.answered .sendBlocking r.2 bus) := by
  refine (system.impl.sendBlocking_stores (P := Composes start [] system)
    (Q := HasSent start system) (R := HasSent start system)
    (fun _ hs => hs.sends .sendBlocking) (fun _ hs => hs.sends) (fun _ hs => hs.sends)
    (fun _ e hs => hs.occur e) (fun _ e hs => hs.occur e)
    (fun _ _ hs => hs.of_eq rfl rfl hs.faithful hs.delivered) (fun chip hs hstores => ?_)
    (fun chip hs => by split <;> exact hs.read_status)).map _ ?_
  · have hcarries : Carries start chip.history chip.memories.long := by
      intro used calls hused
      obtain ⟨-, prior, hholds⟩ := hs.holds used calls hused
      rw [hholds.sentBytes_eq] at hstores
      exact .of_sentBytes hstores (hholds.payload.symm.trans hs.pointer)
    obtain ⟨done, hsent, hdone⟩ := hs.delivered
    refine ⟨chip.memories.long, hcarries, hs.of_eq rfl rfl ⟨hcarries, hs.faithful⟩ ⟨done, ?_, hdone⟩⟩
    rw [List.append_nil] at hsent
    rw [← hsent]
    rfl
  · rintro _ bus ⟨hs, io, rfl⟩
    exact hs.returned io

theorem run_composes (system : System) (memories : Memories)
    (moves : List (SessionMove Call ChipEvent)) :
    Session.Rests (Chip.machine softwareReset) component (fun c _ => OnDevice (Sends system c))
      (fun state => OnDevice (Composes system [] state))
      (run softwareReset system memories moves) :=
  composes_served.run (I := fun c _ => Sends system c)
    (fun c _ _ hs => hs.sends c) configure_composes
    sendBlocking_composes system memories
    ⟨trivial, ⟨[], rfl, .nil⟩, rfl, rfl, fun _ _ h => by cases h⟩ moves

theorem run_faithful (system : System) (memories : Memories)
    (moves : List (SessionMove Call ChipEvent)) :
    Faithful system (run softwareReset system memories moves).world.device.history :=
  (run_composes system memories moves).anytime (J := fun _ bus =>
    Faithful system bus.device.history) (fun _ _ hs => hs.faithful) fun _ _ _ hs => hs.1

-- Seen from the air, the driver is a caller's message and nothing else: in every
-- session, each sendBlocking sends once, what it sends is what the caller has put
-- together since its last configure, and no other call sends anything.
theorem transmissions_refine_calls (system : System) (memories : Memories)
    (moves : List (SessionMove Call ChipEvent)) :
    let session := run softwareReset system memories moves
    let history := session.world.device.history
    Faithful system history ∧ ∃ done pending, sent history = done ++ pending ∧
      List.Forall₂ (Carries system) (asked history) done ∧ pending.length ≤ 1 ∧
      (pending ≠ [] → ∃ p, session.running = some (.sendBlocking, p)) := by
  intro session history
  refine ⟨run_faithful system memories moves, ?_⟩
  have hrests := @run_composes _ softwareReset system memories moves
  cases hrunning : session.running with
  | none =>
      obtain ⟨done, hsent, hdone⟩ := Composes.delivered (hrests.idle hrunning)
      exact ⟨done, [], hsent, hdone, Nat.zero_le 1, fun hne => absurd rfl hne⟩
  | some cp =>
      obtain ⟨c, p⟩ := cp
      obtain ⟨-, pending, hpending, hone, done, hsent, hdone⟩ := hrests.running hrunning
      refine ⟨done, pending, hsent, hdone, hpending, fun hne => ⟨p, ?_⟩⟩
      rw [hone hne]

end System

end Mac802154
