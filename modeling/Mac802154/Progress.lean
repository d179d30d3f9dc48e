import Mac802154.Completion
import Mac802154.Library.Program.Progress

namespace Mac802154

open Library

section Transactions

variable {σ ε : Type} {device : Device σ} {occur : ε → σ → σ} {I P F : σ → Prop}

-- A transaction takes four steps, and what `F` makes of it is known before.
theorem Transacts.responds {α : Type} {p : Driver α} {Q : α → σ → Prop}
    (hstable : ∀ s e, P s → P (occur e s)) (hstableF : ∀ s e, F s → F (occur e s))
    (h : ∀ s, P s → ∃ a s', Transacts device occur I p s a s' ∧ (F s → Q a s')) :
    (device.machine occur).Responds 4 (OnDevice F) (OnDevice P) p fun a => OnDevice (Q a) := by
  by_cases hp : ∃ s, P s
  · obtain ⟨s, hs⟩ := hp
    obtain ⟨-, -, ⟨next, -, rfl, -⟩, -⟩ := h s hs
    refine Machine.Responds.transaction (n := 3) (I := OnDevice I) (OnDevice.stable hstable) (OnDevice.stable hstableF) ?_
    rintro ⟨phase, s⟩ hs
    obtain ⟨a, s', ⟨next', ops, hnext, ht, hatomic⟩, hq⟩ := h s hs
    cases hnext
    refine ⟨ops, a, _, hatomic, ?_, hq⟩
    cases ht with
    | write => exact Nat.le_refl 3
    | read => exact Nat.le_refl 3
  · exact ⟨fun bus hbus => absurd ⟨bus.device, hbus⟩ hp, fun bus hbus => absurd ⟨bus.device, hbus⟩ hp⟩

end Transactions

namespace MrfIo

variable (mrf : MrfIo)

theorem writeBlockingWithCommand_bounded (payload : BytePointer) (size : UInt8) :
    (mrf.writeBlockingWithCommand payload size).Bounded 4 :=
  .perform fun _ => .perform fun _ => .perform fun _ => .perform fun _ => .ret _

theorem readBlockingWithCommand_bounded (size : UInt8) :
    (mrf.readBlockingWithCommand size).Bounded 4 :=
  .perform fun _ => .perform fun _ => .perform fun _ => .perform fun _ => .ret _

theorem setControlRegister_bounded (address : UInt16) (value : UInt8) :
    (mrf.setControlRegister address value).Bounded 4 :=
  (writeBlockingWithCommand_bounded _ _ _).map _

theorem readControlRegister_bounded (address : UInt16) :
    (mrf.readControlRegister address).Bounded 4 :=
  (readBlockingWithCommand_bounded _ _).map _

theorem readBlockingFromLongAddress_bounded (register_address : UInt16) (length : UInt8) :
    (mrf.readBlockingFromLongAddress register_address length).Bounded 4 :=
  (readBlockingWithCommand_bounded _ _).map _

-- Each byte takes a transaction of its own.
theorem writeBlockingToShortAddress_bounded (payload : BytePointer) (size address : UInt8) :
    (mrf.writeBlockingToShortAddress payload size address).Bounded (size.toNat * 4) := by
  have hbytes := Program.Bounded.foldlM (f := writeShortByte payload address) (fun mrf i =>
    (writeBlockingWithCommand_bounded (mrf.setWriteShortCommand (address + UInt8.ofNat i)) _ _).map
      fun _ => mrf.setWriteShortCommand (address + UInt8.ofNat i)) (List.range size.toNat) mrf
  rwa [List.length_range] at hbytes

end MrfIo

-- The end of a transmission waits to be read.
def Interrupting (bus : Bus Chip) : Prop :=
  bus.device.sendInterrupt = true

theorem interrupting_stable (softwareReset : Chip → Memories) :
    (Chip.machine softwareReset).Stable Interrupting :=
  fun _ e h _ => Chip.sendInterrupt_occur h e

namespace Mrf

theorem onIo_bounded (impl : Mrf) {n : Nat} {p : MrfIo → Driver MrfIo}
    (h : ∀ io, (p io).Bounded n) : (impl.onIo p).Bounded n :=
  (h impl.io).map _

private theorem setControlRegister_bounded (impl : Mrf) (address : UInt16) (value : UInt8) :
    (impl.onIo fun io => io.setControlRegister address value).Bounded 4 :=
  impl.onIo_bounded fun io => io.setControlRegister_bounded address value

private theorem writeShortAddress_bounded (impl : Mrf) (payload : BytePointer) (size address : UInt8) :
    (impl.onIo fun io => io.writeBlockingToShortAddress payload size address).Bounded
      (size.toNat * 4) :=
  impl.onIo_bounded fun io => io.writeBlockingToShortAddress_bounded payload size address

theorem setChannel_bounded (impl : Mrf) (channel_number : UInt8) :
    (impl.setChannel channel_number).Bounded 13 := by
  refine (setControlRegister_bounded _ _ _).bind (n := 9) fun _ => ?_
  refine (setControlRegister_bounded _ _ _).bind (n := 5) fun _ => ?_
  exact (setControlRegister_bounded _ _ _).bind (n := 1) fun _ => .perform fun _ => .ret _

variable [BitManipulation]

private theorem onState_bounded (impl : Mrf) (setter : StateSetter) :
    (impl.onState setter.apply).Bounded 0 := by
  obtain ⟨state, hstate⟩ := stateSetter_ok impl.state setter
  rw [onState, hstate]
  exact .ret _

-- Thirty transactions, and one delay.
theorem reconfigure_bounded (impl : Mrf) (config : Mac802154Config) :
    (impl.reconfigure config).Bounded 121 := by
  have hstate (impl : Mrf) : Program.Bounded 0 (do
      let impl ← impl.onState fun state => state.setPanId config.pan_id
      let impl ← impl.onState fun state => state.setShortSourceAddress config.short_source_address
      impl.onState fun state => state.setExtendedDestinationAddress coordinators_address) := by
    refine (onState_bounded _ (.field (.setPanId config.pan_id))).bind (n := 0) fun _ => ?_
    refine (onState_bounded _ (.field (.setShortSourceAddress config.short_source_address))).bind
      (n := 0) fun _ => ?_
    exact onState_bounded _ (.field (.setExtendedDestinationAddress coordinators_address))
  have hinit (io : MrfIo) : (setInitializationValuesFromDatasheet io).Bounded 48 :=
    Program.Bounded.foldlM (fun io value => io.setControlRegister_bounded value.1 value.2)
      initializationValues io
  refine (setControlRegister_bounded _ _ _).bind (n := 117) fun _ => ?_
  refine (onIo_bounded _ hinit).bind (n := 69) fun _ => ?_
  refine (setControlRegister_bounded _ _ _).bind (n := 65) fun _ => ?_
  refine (setChannel_bounded _ _).bind (n := 52) fun _ => ?_
  refine (setControlRegister_bounded _ _ _).bind (n := 48) fun _ => ?_
  refine (writeShortAddress_bounded _ _ 2 _).bind (n := 40) fun _ => ?_
  refine (writeShortAddress_bounded _ _ 8 _).bind (n := 8) fun _ => ?_
  exact (writeShortAddress_bounded _ _ 2 _).bind (n := 0) fun _ => hstate _

omit [BitManipulation]

private theorem transaction_responds (softwareReset : Chip → Memories) {α : Type} {p : Driver α}
    {Q : α → Chip → Prop} (h : ∀ chip, ∃ a next, Transacts (Chip.device softwareReset) Chip.occur
      (fun _ => True) p chip a next ∧ (chip.sendInterrupt = true → Q a next)) :
    (Chip.machine softwareReset).Responds 4 Interrupting (fun _ => True) p
      fun a bus => Q a bus.device := by
  have hresponds : ((Chip.device softwareReset).machine Chip.occur).Responds 4
      (OnDevice fun chip => chip.sendInterrupt = true) (OnDevice fun _ => True) p
      fun a => OnDevice (Q a) :=
    Transacts.responds (I := fun _ => True) (fun _ _ _ => trivial)
      (fun _ e h => Chip.sendInterrupt_occur h e) fun chip _ => h chip
  exact hresponds

private theorem writeField_responds (impl : Mrf) (softwareReset : Chip → Memories) (field : MrfField)
    (haddress : field.address.toNat < 1024) :
    (Chip.machine softwareReset).Responds 4 Interrupting (fun _ => True)
      (impl.onIo fun io => io.writeBlockingToLongAddress field.data field.length field.address)
      fun _ bus => True ∧ Interrupting bus := by
  refine transaction_responds softwareReset (Q := fun _ chip => True ∧ chip.sendInterrupt = true)
    fun chip => ?_
  have hwrite := MrfIo.writeBlockingToLongAddress_transacts (Chip.device softwareReset) Chip.occur
    (I := fun _ => True) (s := chip) impl.io field.data field.length field.address haddress trivial
    trivial
  refine ⟨_, _, hwrite.map fun io => ({ impl with io } : Mrf), fun h => ⟨trivial, ?_⟩⟩
  rw [Chip.writeLongs_eq]
  exact h

private theorem writeField_bounded (impl : Mrf) (field : MrfField) :
    (impl.onIo fun io => io.writeBlockingToLongAddress field.data field.length field.address).Bounded 4 :=
  impl.onIo_bounded fun io => (io.setWriteLongCommand field.address).writeBlockingWithCommand_bounded
    _ _ |>.map _

-- Once bit 0 of the interrupt status is set, sendBlocking is through with its
-- three transactions and one round of its loop.
theorem sendBlocking_responds (impl : Mrf) (softwareReset : Chip → Memories) :
    (Chip.machine softwareReset).Responds 17 Interrupting (fun _ => True) impl.sendBlocking
      fun _ _ => True := by
  refine (writeField_responds impl softwareReset impl.state.getFullHeaderField
    (Nat.succ_pos 1023)).bind (m := 13) (I := fun _ => True)
    (.of_bounded (writeField_bounded _ _) fun _ => trivial) fun next => ?_
  refine (writeField_responds next softwareReset next.state.getPayloadField
    (getPayloadField_address_lt next.state)).bind (m := 9) (I := fun _ => True)
    (.of_bounded (writeField_bounded _ _) fun _ => trivial) fun next => ?_
  refine Machine.Responds.bind (m := 5) (n := 4) (I := fun _ => True)
    (transaction_responds softwareReset (Q := fun _ chip => True ∧ chip.sendInterrupt = true)
      fun chip => ?_)
    (.of_bounded (setControlRegister_bounded _ _ _) fun _ => trivial) fun next => ?_
  · obtain ⟨io, hset⟩ := MrfIo.setControlRegister_transacts (Chip.device softwareReset) Chip.occur
      (I := fun _ => True) (s := chip) next.io mrf_register_tx_normal_fifo_control.toUInt16 1
      (by decide) trivial trivial
    rw [Chip.write_trigger] at hset
    exact ⟨_, _, hset.map fun io => ({ next with io } : Mrf), fun h => ⟨trivial, h⟩⟩
  · refine Machine.Responds.repeatUntil (n := 4) (I := fun _ => True) (J := fun _ _ => True)
      (R := fun _ _ => True) (Q := fun _ _ => True) (fun _ _ _ _ _ => trivial)
      (interrupting_stable softwareReset) (fun io => ?_) (fun io => ?_) (fun _ _ _ => trivial) next.io
    · have hbounded := (io.readControlRegister_bounded mrf_register_interrupt_status.toUInt16).map
        fun r => (r.1, r.2 &&& 1 != 0)
      refine (Machine.Triple.of_bounded hbounded fun _ => trivial).consequence (fun _ h => h)
        fun r bus _ => ?_
      split <;> trivial
    · refine transaction_responds softwareReset (Q := fun (r : MrfIo × Bool) _ => r.2 = true ∧ True)
        fun chip => ?_
      obtain ⟨io', hpoll⟩ := MrfIo.readControlRegister_transacts (Chip.device softwareReset) Chip.occur
        (I := fun _ => True) (s := chip) io mrf_register_interrupt_status.toUInt16 (by decide) trivial
        trivial
      exact ⟨_, _, hpoll.map fun r => (r.1, r.2 &&& 1 != 0), fun h => ⟨h, trivial⟩⟩

end Mrf

-- The steps that a call takes; for sendBlocking, those that it takes once the
-- end of its transmission is reported.
def Call.steps : Call → Nat
  | .configure => 121
  | .setter _ => 0
  | .sendBlocking => 17
  | .overwriteConfig _ => 0
  | _ => 4

namespace System

variable [BitManipulation]

theorem call_bounded (c : Call) (system : System) (hc : c ≠ .sendBlocking) :
    (component.call c system).Bounded c.steps := by
  cases c with
  | sendBlocking => exact absurd rfl hc
  | configure => exact (system.impl.reconfigure_bounded system.config).map _
  | setter call =>
      obtain ⟨state, hstate⟩ := system.impl.setter_returns_always call
      have hcall : component.call (.setter call) system =
          .ret ({ system with impl := { system.impl with state } }, .nothing) := by
        simp only [component, System.call, procedure, hstate]
        rfl
      rw [hcall]
      exact .ret _
  | enablePromiscuousMode =>
      exact (system.impl.onIo_bounded fun io => io.setControlRegister_bounded _ _).map _
  | disablePromiscuousMode =>
      exact (system.impl.onIo_bounded fun io => io.setControlRegister_bounded _ _).map _
  | newPacketAvailable => exact ((system.impl.io.readControlRegister_bounded _).map _).map _
  | getReceivedPacketSize =>
      exact ((system.impl.io.readBlockingFromLongAddress_bounded _ _).map _).map _
  | fetchPacketBlocking buffer size =>
      exact ((system.impl.io.readBlockingFromLongAddress_bounded _ _).map _).map _
  | overwriteConfig config => exact .ret _

variable (softwareReset : Chip → Memories)

-- No call faults, wherever it stands.
theorem call_triple (c : Call) (system : System) :
    (Chip.machine softwareReset).Triple (fun _ => True) (fun _ => True) (component.call c system)
      fun _ _ => True := by
  have hkept : Kept softwareReset fun _ _ => True := by constructor <;> intros <;> trivial
  by_cases hc : c = .configure
  · exact .of_bounded (call_bounded c system (by rw [hc]; exact fun h => by cases h)) fun _ => trivial
  · exact hkept.call c system hc

theorem run_rests_true (system : System) (memories : Memories)
    (moves : List (SessionMove Call ChipEvent)) :
    Session.Rests (Chip.machine softwareReset) component (fun _ _ _ => True) (fun _ _ => True)
        (run softwareReset system memories moves) ∧
      Session.Traced (Chip.machine softwareReset) component (fun _ _ => True)
        (run softwareReset system memories moves) := by
  have hstart : Session.Rests (Chip.machine softwareReset) component (fun _ _ _ => True)
      (fun _ _ => True) ⟨system, ⟨.deselected, ⟨memories, []⟩⟩, none⟩ := trivial
  exact ⟨Session.run_rests (fun _ _ _ _ _ => trivial) (call_triple softwareReset) hstart moves,
    Session.run_traced (fun _ _ _ _ _ => trivial) (call_triple softwareReset) hstart
      (fun _ _ h => by cases h) moves⟩

-- At some point of these moves, after at most `n` of the driver's steps, the call
-- has just returned.
def ReturnsWithin (system : System) (memories : Memories)
    (moves rest : List (SessionMove Call ChipEvent)) (c : Call) (n : Nat) : Prop :=
  ∃ first second answer, rest = first ++ second ∧ Session.acts first ≤ n ∧
    (run softwareReset system memories (moves ++ first)).running = none ∧
    (run softwareReset system memories (moves ++ first)).world.device.history.head? =
      some (.returned c answer)

variable {softwareReset}

private theorem returns_within {system : System} {memories : Memories}
    {moves rest : List (SessionMove Call ChipEvent)} {c : Call} {n : Nat} (state : System)
    {p : Driver (System × Answer)} {world : Bus Chip}
    (hsession : run softwareReset system memories moves =
      Session.settle component state c (p, world))
    (h : (Chip.machine softwareReset).Within n (fun _ _ => True) (p, world))
    (hn : n ≤ Session.acts rest) : ReturnsWithin softwareReset system memories moves rest c n := by
  obtain ⟨first, second, r, last, rfl, hle, -, hrun⟩ :=
    Session.settle_within component state world h rest hn
  have hlast : run softwareReset system memories (moves ++ first) =
      ⟨r.1, component.answered c r.2 last, none⟩ := by
    rw [← hrun, ← hsession]
    exact List.foldl_append
  refine ⟨first, second, r.2, rfl, hle, ?_, ?_⟩
  · rw [hlast]
  · rw [hlast]
    rfl

-- A call that has not returned can always go on. Every call but sendBlocking
-- returns within a fixed number of its own steps, whatever happens meanwhile;
-- sendBlocking does so from when the chip reports, between two transactions, the
-- end of a transmission, however long that takes.
theorem calls_return (system : System) (memories : Memories)
    (moves rest : List (SessionMove Call ChipEvent)) :
    let session := run softwareReset system memories moves
    (∀ c p, session.running = some (c, p) → p.isRunning) ∧
    (∀ c, c ≠ .sendBlocking → session.running = none → c.steps ≤ Session.acts rest →
      ReturnsWithin softwareReset system memories (moves ++ [.call c]) rest c c.steps) ∧
    (∀ p, session.running = some (.sendBlocking, p) → session.world.phase = .deselected →
      Call.sendBlocking.steps ≤ Session.acts rest →
      ReturnsWithin softwareReset system memories (moves ++ [.event .transmissionFinished]) rest
        .sendBlocking Call.sendBlocking.steps) := by
  intro session
  have hnext (m : SessionMove Call ChipEvent) : run softwareReset system memories (moves ++ [m]) =
      Session.move (Chip.machine softwareReset) component session m :=
    List.foldl_append
  obtain ⟨hrests, htraced⟩ : Session.Rests (Chip.machine softwareReset) component _ _ session ∧
    Session.Traced (Chip.machine softwareReset) component _ session :=
    run_rests_true softwareReset system memories moves
  clear_value session
  refine ⟨fun c p hrunning => (hrests.leads hrunning).1, fun c hc hidle hsteps => ?_, fun p hrunning hphase hsteps => ?_⟩
  · refine returns_within session.state ((hnext (.call c)).trans ?_)
      (.of_bounded (call_bounded c session.state hc) session.world) hsteps
    simp only [Session.move, hidle]
  · obtain ⟨start, ms, -, hrun⟩ := htraced _ p hrunning
    have hp : p.isRunning := (hrests.leads hrunning).1
    have hi : (Chip.machine softwareReset).interruptible session.world = true :=
      decide_eq_true hphase
    have hmove : Session.move (Chip.machine softwareReset) component session
        (.event .transmissionFinished) = Session.settle component session.state .sendBlocking
          (p, (Chip.machine softwareReset).occur .transmissionFinished session.world) := by
      rw [Session.settle_of_running hp]
      simp only [Session.move, hi, ite_true, hrunning]
    have hrun' : (Chip.machine softwareReset).run (component.call .sendBlocking session.state) start
        (ms ++ [.event .transmissionFinished]) =
          (p, (Chip.machine softwareReset).occur .transmissionFinished session.world) := by
      rw [Machine.run_append, hrun]
      simp only [Machine.run, Machine.move, hp, hi, Bool.and_self, ite_true]
    have hresponds : (Chip.machine softwareReset).Responds 17 Interrupting (fun _ => True)
        (component.call .sendBlocking session.state) fun _ _ => True :=
      (session.state.impl.sendBlocking_responds softwareReset).map _ fun _ _ h => h
    have hsoon := hresponds.running start trivial (ms ++ [.event .transmissionFinished])
    rw [hrun'] at hsoon
    exact returns_within session.state ((hnext _).trans hmove)
      (hsoon hp hi (Chip.sendInterrupt_finished session.world.device)) hsteps

section Runs

omit [BitManipulation]

def sendBlockingRuns : Option (Call × Driver (System × Answer)) → Bool
  | some (.sendBlocking, _) => true
  | _ => false

theorem eq_of_sendBlockingRuns {running : Option (Call × Driver (System × Answer))}
    (h : sendBlockingRuns running = true) : ∃ p, running = some (.sendBlocking, p) := by
  unfold sendBlockingRuns at h
  split at h
  · exact ⟨_, rfl⟩
  · cases h

-- One byte is being sent, and the end of its transmission has not come yet.
def oneByteMoves : List (SessionMove Call ChipEvent) :=
  .call .configure :: List.replicate 121 .act ++
    .call (.setter (.setPayload (fun _ => 0x41) 1)) :: .call .sendBlocking :: List.replicate 32 .act

def oneByteSystem : System :=
  ⟨Mrf.zeroed, { Mrf.zeroed.config with channel := 12 }⟩

def oneByteUnderway : Session PeripheralOp PeripheralOp.Response (Bus Chip) System Call Answer :=
  @run BitManipulation.reference (fun _ => ⟨fun _ => 0, fun _ => 0⟩)
    oneByteSystem ⟨fun _ => 0, fun _ => 0⟩ oneByteMoves

theorem calls_return_one : @ReturnsWithin BitManipulation.reference
    (fun _ => ⟨fun _ => 0, fun _ => 0⟩) oneByteSystem ⟨fun _ => 0, fun _ => 0⟩
    (oneByteMoves ++ [.event .transmissionFinished])
    (List.replicate 17 .act) .sendBlocking 17 := by
  have hruns : sendBlockingRuns oneByteUnderway.running = true := by decide +kernel
  have hphase : oneByteUnderway.world.phase = .deselected := by decide +kernel
  obtain ⟨p, hp⟩ := eq_of_sendBlockingRuns hruns
  unfold oneByteUnderway at hp hphase
  obtain ⟨-, -, hreturns⟩ := @calls_return BitManipulation.reference
    (fun _ => ⟨fun _ => 0, fun _ => 0⟩) oneByteSystem ⟨fun _ => 0, fun _ => 0⟩ oneByteMoves
    (List.replicate 17 .act)
  exact hreturns p hp hphase (by decide)

end Runs

end System

end Mac802154
