import Mac802154.Mac802154MRFImpl
import Mac802154.FrameHeader802154.Bounds
import Mac802154.MRFState.Theorems
import Mac802154.MrfIo.RegisterWrites

namespace Mac802154

open Library FrameHeader802154

-- The registers that configuring sets, in this order.
def configureWrites (config : Mac802154Config) : List RegisterWrite :=
  [(mrf_register_software_reset.toUInt16, mrf_value_full_software_reset)] ++
    (initializationValues ++
      ([(mrf_register_interrupt_control.toUInt16, ~~~((1 : UInt8) <<< 3))] ++
        ([(mrf_register_rf_control0, MRF_getRegisterValueForChannelNumber config.channel),
            (mrf_register_rf_mode_control.toUInt16, mrf_value_rf_state_machine_reset_state),
            (mrf_register_rf_mode_control.toUInt16, mrf_value_rf_state_machine_operating_state)] ++
          ([(mrf_register_rf_control3, mrf_value_transmitter_power_0dB)] ++
            ((List.range 2).map (fun i => (UInt16.ofNat (3 + i),
                config.short_source_address.toList.getD i 0)) ++
              ((List.range 8).map (fun i => (UInt16.ofNat (5 + i),
                  config.extended_source_address.toList.getD i 0)) ++
                (List.range 2).map fun i => (UInt16.ofNat (1 + i),
                  config.pan_id.toList.getD i 0)))))))

-- Whatever the configuration is, these two registers are not among them.
theorem configureWrites_address (config : Mac802154Config) {write : RegisterWrite}
    (h : write ∈ configureWrites config) :
    write.1 ≠ mrf_register_interrupt_status.toUInt16 ∧
      write.1 ≠ mrf_register_tx_normal_fifo_control.toUInt16 := by
  have hstatus : mrf_register_interrupt_status.toUInt16 ∉ (configureWrites config).map Prod.fst :=
    of_decide_eq_true rfl
  have htrigger : mrf_register_tx_normal_fifo_control.toUInt16 ∉
      (configureWrites config).map Prod.fst := of_decide_eq_true rfl
  have hmem : write.1 ∈ (configureWrites config).map Prod.fst := List.mem_map_of_mem h
  exact ⟨fun he => hstatus (he ▸ hmem), fun he => htrigger (he ▸ hmem)⟩

theorem configureWrites_lt (config : Mac802154Config) {write : RegisterWrite}
    (h : write ∈ configureWrites config) : write.1.toNat < mrf_rx_fifo_start.toNat := by
  have hall : ((configureWrites config).map Prod.fst).all
      (fun address => address.toNat < mrf_rx_fifo_start.toNat) = true := rfl
  exact of_decide_eq_true (List.all_eq_true.mp hall write.1 (List.mem_map_of_mem h))

-- The message after a configure: an extended destination of zeroes, and no payload.
def Message.configured (config : Mac802154Config) (payload : BytePointer) : Message :=
  [.field (.setPanId config.pan_id), .field (.setShortSourceAddress config.short_source_address),
    .field (.setExtendedDestinationAddress coordinators_address)].foldl Message.update
      (Message.initial payload)

-- What a call that sets up a message does to the driver's state.
def SetterCall.stateSetter (config : Mac802154Config) : SetterCall → StateSetter
  | setShortDestinationAddress address => .field (.setShortDestinationAddress address)
  | setExtendedDestinationAddress address => .field (.setExtendedDestinationAddress address)
  | useShortSourceAddress => .field (.setShortSourceAddress config.short_source_address)
  | useExtendedSourceAddress => .field (.setExtendedSourceAddress config.extended_source_address)
  | setPayload payload payload_length => .setPayload payload (UInt8.ofNat payload_length)

-- The addresses that a caller has chosen: the last ones, and before the first
-- what configuring leaves.
def SetterCall.destination (current : Address) : SetterCall → Address
  | setShortDestinationAddress address => .short address
  | setExtendedDestinationAddress address => .extended address
  | _ => current

def SetterCall.source (config : Mac802154Config) (current : Address) : SetterCall → Address
  | useShortSourceAddress => .short config.short_source_address
  | useExtendedSourceAddress => .extended config.extended_source_address
  | _ => current

def selectedDestination (calls : List SetterCall) : Address :=
  calls.foldl SetterCall.destination (.extended coordinators_address)

def selectedSource (config : Mac802154Config) (calls : List SetterCall) : Address :=
  calls.foldl (SetterCall.source config) (.short config.short_source_address)

def selectedFields (config : Mac802154Config) (calls : List SetterCall) : HeaderFields where
  acknowledgementRequest := false
  sequenceNumber := some 0
  panId := config.pan_id
  destination := selectedDestination calls
  source := selectedSource config calls

theorem Message.fields_update (config : Mac802154Config) (message : Message) (call : SetterCall) :
    (message.update (call.stateSetter config)).fields = { message.fields with
      destination := call.destination message.fields.destination
      source := call.source config message.fields.source } := by
  cases call <;> rfl

theorem selectedFields_append (config : Mac802154Config) (calls : List SetterCall)
    (message : Message) (h : message.fields = selectedFields config calls) (call : SetterCall) :
    (message.update (call.stateSetter config)).fields = selectedFields config (calls ++ [call]) := by
  rw [Message.fields_update, h]
  simp only [selectedFields, selectedDestination, selectedSource, List.foldl_append,
    List.foldl_cons, List.foldl_nil]

namespace Mrf

variable {σ ε : Type} {device : Device σ} {occur : ε → σ → σ}

section Configure

theorem onIo_performs (impl : Mrf) {p : MrfIo → Driver MrfIo} {writes : List RegisterWrite}
    (h : Performs device occur (p impl.io) writes fun _ => True) :
    Performs device occur (impl.onIo p) writes fun next => ∃ io, next = { impl with io } :=
  h.bind_nil fun io _ => .ret ⟨io, rfl⟩

theorem onState_performs (impl : Mrf) {f : MrfState → Checked MrfState} {state : MrfState}
    (h : f impl.state = .ok state) :
    Performs device occur (impl.onState f) [] fun next => next = { impl with state } := by
  rw [onState, h]
  exact .ret rfl

private theorem setControlRegister_performs (impl : Mrf) (address : UInt16) (value : UInt8)
    (haddress : address.toNat < 1024) :
    Performs device occur (impl.onIo fun io => io.setControlRegister address value)
      [(address, value)] fun next => ∃ io, next = { impl with io } :=
  impl.onIo_performs (.setControlRegister impl.io address value haddress)

theorem reset_performs (impl : Mrf) :
    Performs device occur impl.reset
      [(mrf_register_software_reset.toUInt16, mrf_value_full_software_reset)]
      fun next => ∃ io, next = { impl with io } :=
  impl.setControlRegister_performs _ _ (by decide)

theorem enableRXInterrupt_performs (impl : Mrf) :
    Performs device occur impl.enableRXInterrupt
      [(mrf_register_interrupt_control.toUInt16, ~~~((1 : UInt8) <<< 3))]
      fun next => ∃ io, next = { impl with io } :=
  impl.setControlRegister_performs _ _ (by decide)

theorem setUpTransmitterPower_performs (impl : Mrf) :
    Performs device occur impl.setUpTransmitterPower
      [(mrf_register_rf_control3, mrf_value_transmitter_power_0dB)]
      fun next => ∃ io, next = { impl with io } :=
  impl.setControlRegister_performs _ _ (by decide)

theorem setInitializationValuesFromDatasheet_performs (impl : Mrf) :
    Performs device occur (impl.onIo setInitializationValuesFromDatasheet) initializationValues
      fun next => ∃ io, next = { impl with io } := by
  have hall : initializationValues.all (fun value => value.1.toNat < 1024) = true := rfl
  have haddress (value : RegisterWrite) (hv : value ∈ initializationValues) : value.1.toNat < 1024 :=
    of_decide_eq_true (List.all_eq_true.mp hall value hv)
  have hvalue (value : RegisterWrite) (hv : value ∈ initializationValues) (io : MrfIo) :
      Performs device occur (io.setControlRegister value.1 value.2) [value] fun _ => True :=
    .setControlRegister io value.1 value.2 (haddress value hv)
  have h := Performs.foldlM initializationValues hvalue impl.io
  rw [List.flatMap_singleton'] at h
  exact impl.onIo_performs h

theorem resetInternalRFStateMachine_performs (impl : Mrf) :
    Performs device occur impl.resetInternalRFStateMachine
      [(mrf_register_rf_mode_control.toUInt16, mrf_value_rf_state_machine_reset_state),
        (mrf_register_rf_mode_control.toUInt16, mrf_value_rf_state_machine_operating_state)]
      fun next => ∃ io, next = { impl with io } := by
  refine (impl.setControlRegister_performs mrf_register_rf_mode_control.toUInt16 _
    (by decide)).bind_cons ?_
  rintro _ ⟨io, rfl⟩
  refine (setControlRegister_performs _ mrf_register_rf_mode_control.toUInt16 _
    (by decide)).bind_nil ?_
  rintro _ ⟨io', rfl⟩
  exact .delay _ ⟨io', rfl⟩

theorem setChannel_performs (impl : Mrf) (channel_number : UInt8) :
    Performs device occur (impl.setChannel channel_number)
      [(mrf_register_rf_control0, MRF_getRegisterValueForChannelNumber channel_number),
        (mrf_register_rf_mode_control.toUInt16, mrf_value_rf_state_machine_reset_state),
        (mrf_register_rf_mode_control.toUInt16, mrf_value_rf_state_machine_operating_state)]
      fun next => ∃ io, next = { impl with io } := by
  refine (impl.setControlRegister_performs mrf_register_rf_control0 _ (by decide)).bind_cons ?_
  rintro _ ⟨io, rfl⟩
  exact resetInternalRFStateMachine_performs _

theorem setShortSourceAddress_performs (impl : Mrf) (address : Vector UInt8 2) :
    Performs device occur (impl.setShortSourceAddress address)
      ((List.range 2).map fun i => (UInt16.ofNat (3 + i), address.toList.getD i 0))
      fun next => ∃ io, next = { impl with io } :=
  impl.onIo_performs (.writeBlockingToShortAddress _ _ 2 mrf_register_short_address_low_byte
    (by decide))

theorem setExtendedSourceAddress_performs (impl : Mrf) (address : Vector UInt8 8) :
    Performs device occur (impl.setExtendedSourceAddress address)
      ((List.range 8).map fun i => (UInt16.ofNat (5 + i), address.toList.getD i 0))
      fun next => ∃ io, next = { impl with io } :=
  impl.onIo_performs (.writeBlockingToShortAddress _ _ 8 mrf_register_extended_address0 (by decide))

theorem setPanId_performs (impl : Mrf) (pan_id : Vector UInt8 2) :
    Performs device occur (impl.setPanId pan_id)
      ((List.range 2).map fun i => (UInt16.ofNat (1 + i), pan_id.toList.getD i 0))
      fun next => ∃ io, next = { impl with io } :=
  impl.onIo_performs (.writeBlockingToShortAddress _ _ 2 mrf_register_pan_id_low_byte (by decide))

variable [BitManipulation]

-- The state setters after MrfState_init.
theorem configured_holds (state : MrfState) (config : Mac802154Config) :
    ∃ first second last, state.init.setPanId config.pan_id = .ok first ∧
      first.setShortSourceAddress config.short_source_address = .ok second ∧
      second.setExtendedDestinationAddress coordinators_address = .ok last ∧
      last.Holds (Message.configured config state.payload) := by
  obtain ⟨first, hfirst, h₁⟩ := MrfState.field_holds (MrfState.init_holds state)
    (.setPanId config.pan_id)
  obtain ⟨second, hsecond, h₂⟩ := MrfState.field_holds h₁
    (.setShortSourceAddress config.short_source_address)
  obtain ⟨last, hlast, h₃⟩ := MrfState.field_holds h₂
    (.setExtendedDestinationAddress coordinators_address)
  exact ⟨first, second, last, hfirst, hsecond, hlast, h₃⟩

-- Configuring sets the registers from the configuration and leaves a header of
-- its own, whatever was there before.
theorem reconfigure_performs (impl : Mrf) (config : Mac802154Config) :
    Performs device occur (impl.reconfigure config) (configureWrites config) fun next =>
      next.config = config ∧ next.state.Holds (Message.configured config impl.state.payload) := by
  obtain ⟨first, second, last, hfirst, hsecond, hlast, hholds⟩ := configured_holds impl.state config
  refine (reset_performs { impl with config }).bind ?_
  rintro _ ⟨io, rfl⟩
  refine (setInitializationValuesFromDatasheet_performs _).bind ?_
  rintro _ ⟨io, rfl⟩
  refine (enableRXInterrupt_performs _).bind ?_
  rintro _ ⟨io, rfl⟩
  refine (setChannel_performs _ config.channel).bind ?_
  rintro _ ⟨io, rfl⟩
  refine (setUpTransmitterPower_performs _).bind ?_
  rintro _ ⟨io, rfl⟩
  refine (setShortSourceAddress_performs _ config.short_source_address).bind ?_
  rintro _ ⟨io, rfl⟩
  refine (setExtendedSourceAddress_performs _ config.extended_source_address).bind ?_
  rintro _ ⟨io, rfl⟩
  refine (setPanId_performs _ config.pan_id).bind_nil ?_
  rintro _ ⟨io, rfl⟩
  refine Performs.bind_nil (onState_performs _ hfirst) ?_
  rintro _ rfl
  refine Performs.bind_nil (onState_performs _ hsecond) ?_
  rintro _ rfl
  refine (onState_performs _ hlast).mono ?_
  rintro _ rfl
  exact ⟨rfl, hholds⟩

end Configure

section Setters

variable [BitManipulation]

private theorem setter_apply (impl : Mrf) (call : SetterCall) :
    call.apply impl = impl.onState (call.stateSetter impl.config).apply := by
  cases call <;> rfl

theorem setter_returns {impl : Mrf} {message : Message} (h : impl.state.Holds message)
    (call : SetterCall) : ∃ state, call.apply impl = .ret { impl with state } ∧
      state.Holds (message.update (call.stateSetter impl.config)) := by
  obtain ⟨state, hstate, hnext⟩ := MrfState.setter_holds h (call.stateSetter impl.config)
  refine ⟨state, ?_, hnext⟩
  rw [setter_apply, onState, hstate]
  rfl

theorem setters_return {impl : Mrf} {message : Message} (h : impl.state.Holds message)
    (calls : List SetterCall) :
    ∃ state, calls.foldlM SetterCall.apply impl = .ret { impl with state } ∧
      state.Holds ((calls.map (SetterCall.stateSetter impl.config)).foldl Message.update message) := by
  induction calls generalizing impl message with
  | nil => exact ⟨impl.state, rfl, h⟩
  | cons call calls ih =>
      obtain ⟨state, hstate, hnext⟩ := setter_returns h call
      have hnext : ({ impl with state } : Mrf).state.Holds _ := hnext
      obtain ⟨last, hlast, hholds⟩ := ih hnext
      refine ⟨last, ?_, hholds⟩
      rw [List.foldlM_cons, hstate]
      exact hlast

-- Whatever the bytes of the header are, no setter leaves it.
theorem stateSetter_ok (state : MrfState) (setter : StateSetter) :
    ∃ next, setter.apply state = .ok next := by
  cases setter with
  | setPayload payload payload_length => exact ⟨_, rfl⟩
  | field setter =>
      obtain ⟨header, hheader⟩ := setter_ok state.header.frame_header setter
      cases setter with
      | enableAcknowledgementRequest => exact ⟨_, rfl⟩
      | setPanId pan_id => exact ⟨_, bind_eq_ok.mpr ⟨header, hheader, rfl⟩⟩
      | setShortSourceAddress address => exact ⟨_, bind_eq_ok.mpr ⟨header, hheader, rfl⟩⟩
      | setExtendedSourceAddress address => exact ⟨_, bind_eq_ok.mpr ⟨header, hheader, rfl⟩⟩
      | setShortDestinationAddress address => exact ⟨_, bind_eq_ok.mpr ⟨header, hheader, rfl⟩⟩
      | setExtendedDestinationAddress address => exact ⟨_, bind_eq_ok.mpr ⟨header, hheader, rfl⟩⟩

theorem state_of_setter {impl : Mrf} {call : SetterCall} {state : MrfState}
    (h : call.apply impl = .ret { impl with state }) :
    (call.stateSetter impl.config).apply impl.state = .ok state := by
  obtain ⟨next, hnext⟩ := stateSetter_ok impl.state (call.stateSetter impl.config)
  rw [setter_apply, onState, hnext] at h
  cases h
  exact hnext

theorem setter_returns_always (impl : Mrf) (call : SetterCall) :
    ∃ state, call.apply impl = .ret { impl with state } := by
  obtain ⟨state, hstate⟩ := stateSetter_ok impl.state (call.stateSetter impl.config)
  refine ⟨state, ?_⟩
  rw [setter_apply, onState, hstate]
  rfl

end Setters

section Tame

variable {loops : Bool}

theorem onIo_tame (impl : Mrf) {p : MrfIo → Driver MrfIo} (h : ∀ io, (p io).Tame loops) :
    (impl.onIo p).Tame loops :=
  (h impl.io).bind fun _ => .ret _

private theorem setControlRegister_tame (impl : Mrf) (address : UInt16) (value : UInt8) :
    (impl.onIo fun io => io.setControlRegister address value).Tame loops :=
  impl.onIo_tame fun io => io.setControlRegister_tame address value

private theorem writeShortAddress_tame (impl : Mrf) (payload : BytePointer) (size address : UInt8) :
    (impl.onIo fun io => io.writeBlockingToShortAddress payload size address).Tame loops :=
  impl.onIo_tame fun io => io.writeBlockingToShortAddress_tame payload size address

theorem setChannel_tame (impl : Mrf) (channel_number : UInt8) :
    (impl.setChannel channel_number).Tame loops :=
  (setControlRegister_tame impl _ _).bind fun _ => (setControlRegister_tame _ _ _).bind fun _ =>
    (setControlRegister_tame _ _ _).bind fun _ => .perform fun _ => .ret _

variable [BitManipulation]

private theorem onState_tame (impl : Mrf) (setter : StateSetter) :
    (impl.onState setter.apply).Tame loops := by
  obtain ⟨state, hstate⟩ := stateSetter_ok impl.state setter
  rw [onState, hstate]
  exact .ret _

theorem setter_tame (impl : Mrf) (call : SetterCall) : (call.apply impl).Tame loops := by
  rw [setter_apply]
  exact onState_tame impl _

-- Configuring always comes to its end, and never faults.
theorem reconfigure_tame (impl : Mrf) (config : Mac802154Config) :
    (impl.reconfigure config).Tame loops := by
  refine (setControlRegister_tame _ _ _).bind fun _ => ?_
  refine (onIo_tame _ fun io => Program.Tame.foldlM (fun io value => io.setControlRegister_tame _ _)
    initializationValues io).bind fun _ => ?_
  refine (setControlRegister_tame _ _ _).bind fun _ => (setChannel_tame _ _).bind fun _ => ?_
  refine (setControlRegister_tame _ _ _).bind fun _ => (writeShortAddress_tame _ _ _ _).bind fun _ => ?_
  refine (writeShortAddress_tame _ _ _ _).bind fun _ => (writeShortAddress_tame _ _ _ _).bind fun _ => ?_
  refine (onState_tame _ (.field (.setPanId config.pan_id))).bind fun _ => ?_
  refine (onState_tame _ (.field (.setShortSourceAddress config.short_source_address))).bind fun _ => ?_
  exact onState_tame _ (.field (.setExtendedDestinationAddress coordinators_address))

end Tame

section Calls

variable (device occur) {I : σ → Prop}

theorem onIo_triple (impl : Mrf) {p : MrfIo → Driver MrfIo} {P Q : σ → Prop}
    (h : (device.machine occur).Triple (OnDevice I) (OnDevice P) (p impl.io) fun _ => OnDevice Q) :
    (device.machine occur).Triple (OnDevice I) (OnDevice P) (impl.onIo p)
      fun next => OnDevice fun s => Q s ∧ ∃ io, next = { impl with io } :=
  h.map (fun io => ({ impl with io } : Mrf)) fun io _ hq => ⟨hq, io, rfl⟩

theorem onIo_transacts (impl : Mrf) {p : MrfIo → Driver MrfIo} {s s' : σ}
    (h : ∃ io, Transacts device occur I (p impl.io) s io s') :
    ∃ io, Transacts device occur I (impl.onIo p) s { impl with io } s' := by
  obtain ⟨io, hio⟩ := h
  exact ⟨io, hio.map fun io => ({ impl with io } : Mrf)⟩

theorem newMessageAvailable_transacts (impl : Mrf) {s : σ} (hI : I s)
    (hI' : I (device.read mrf_register_interrupt_status.toUInt16 s).2) :
    ∃ io, Transacts device occur I impl.newMessageAvailable s
      ({ impl with io },
        (device.read mrf_register_interrupt_status.toUInt16 s).1 >>> 3 &&& 1 != 0)
      (device.read mrf_register_interrupt_status.toUInt16 s).2 := by
  obtain ⟨io, hread⟩ := MrfIo.readControlRegister_transacts device occur impl.io
    mrf_register_interrupt_status.toUInt16 (by decide) hI hI'
  exact ⟨io, hread.map fun r => (({ impl with io := r.1 } : Mrf), r.2 >>> 3 &&& 1 != 0)⟩

theorem getReceivedMessageSize_transacts (impl : Mrf) {s : σ} (hI : I s)
    (hI' : I (device.readLongs mrf_rx_fifo_start.toNat 1 s).2) :
    ∃ io, Transacts device occur I impl.getReceivedMessageSize s
      ({ impl with io },
        (device.readLongs mrf_rx_fifo_start.toNat 1 s).1.headD 0 + frame_length_field_size)
      (device.readLongs mrf_rx_fifo_start.toNat 1 s).2 := by
  have hread := MrfIo.readBlockingFromLongAddress_transacts device occur impl.io mrf_rx_fifo_start 1
    (by decide) hI hI'
  exact ⟨_, hread.map fun r => (({ impl with io := r.1 } : Mrf), r.2.headD 0 + frame_length_field_size)⟩

theorem fetchMessageBlocking_transacts (impl : Mrf) (buffer : BytePointer) (size : UInt8) {s : σ}
    (hI : I s) (hI' : I (device.readLongs mrf_rx_fifo_start.toNat size.toNat s).2) :
    ∃ io, Transacts device occur I (impl.fetchMessageBlocking buffer size) s
      ({ impl with io },
        Memory.overwrite buffer 0 (device.readLongs mrf_rx_fifo_start.toNat size.toNat s).1)
      (device.readLongs mrf_rx_fifo_start.toNat size.toNat s).2 := by
  have hread := MrfIo.readBlockingFromLongAddress_transacts device occur impl.io mrf_rx_fifo_start
    size (by decide) hI hI'
  exact ⟨_, hread.map fun r => (({ impl with io := r.1 } : Mrf), Memory.overwrite buffer 0 r.2)⟩

-- Both modes are one write to the receive control register.
theorem promiscuousMode_transacts (impl : Mrf) (value : UInt8) {s : σ} (hI : I s)
    (hI' : I (device.write mrf_register_receive_mac_control.toUInt16 value s)) :
    ∃ io, Transacts device occur I
      (impl.onIo fun io => io.setControlRegister mrf_register_receive_mac_control.toUInt16 value) s
      { impl with io } (device.write mrf_register_receive_mac_control.toUInt16 value s) :=
  impl.onIo_transacts device occur
    (MrfIo.setControlRegister_transacts device occur impl.io _ value (by decide) hI hI')

private theorem writeField_triple (impl : Mrf) (field : MrfField)
    (haddress : field.address.toNat < 1024) {P Q : σ → Prop} (hI : ∀ s, P s → I s)
    (hI' : ∀ s, Q s → I s) (hstable : ∀ s e, P s → P (occur e s))
    (hwrite : ∀ s, P s → Q (device.writeLongs field.address.toNat field.bytes s)) :
    (device.machine occur).Triple (OnDevice I) (OnDevice P)
      (impl.onIo fun io => io.writeBlockingToLongAddress field.data field.length field.address)
      fun next => OnDevice fun s => Q s ∧ ∃ io, next = { impl with io } := by
  refine onIo_triple device occur impl (Transacts.triple hI hstable fun s hs => ?_)
  have hq := hwrite s hs
  exact ⟨_, _, MrfIo.writeBlockingToLongAddress_transacts device occur impl.io field.data field.length
    field.address haddress (hI s hs) (hI' _ hq), hq⟩

theorem getPayloadField_address_lt (state : MrfState) :
    state.getPayloadField.address.toNat < 1024 := by
  have := state.getFullHeaderLength.toNat_lt
  change state.getFullHeaderLength.toUInt16.toNat < 1024
  rw [UInt8.toNat_toUInt16]
  omega

-- `P i` is what holds once the header, the payload and the trigger are
-- written; `R` is what a read of the interrupt status leaves that finds bit 0
-- set, and any other read keeps the last.
theorem sendBlocking_waits (impl : Mrf) {P : Nat → σ → Prop} {R : σ → Prop}
    (hI : ∀ i s, P i s → I s) (hI' : ∀ s, R s → I s)
    (hstable : ∀ i s e, P i s → P i (occur e s))
    (hheader : ∀ s, P 0 s → P 1 (device.writeLongs 0 impl.state.getFullHeaderField.bytes s))
    (hpayload : ∀ s, P 1 s → P 2
      (device.writeLongs impl.state.getFullHeaderLength.toNat impl.state.getPayloadField.bytes s))
    (htrigger : ∀ s, P 2 s →
      P 3 (device.write mrf_register_tx_normal_fifo_control.toUInt16 1 s))
    (hpoll : ∀ s, P 3 s →
      if (device.read mrf_register_interrupt_status.toUInt16 s).1 &&& 1 != 0 then
        R (device.read mrf_register_interrupt_status.toUInt16 s).2
      else P 3 (device.read mrf_register_interrupt_status.toUInt16 s).2) :
    (device.machine occur).Triple (OnDevice I) (OnDevice (P 0)) impl.sendBlocking
      fun next => OnDevice fun s => R s ∧ ∃ io, next = { impl with io } := by
  refine Machine.Triple.bind (writeField_triple device occur impl impl.state.getFullHeaderField
    (Nat.succ_pos 1023) (hI 0) (hI 1) (hstable 0) hheader) fun next => .lift ?_
  rintro ⟨io, rfl⟩
  refine Machine.Triple.bind (writeField_triple device occur _ impl.state.getPayloadField
    (getPayloadField_address_lt impl.state) (hI 1) (hI 2) (hstable 1) fun s hs => ?_)
    fun next => .lift ?_
  · have := hpayload s hs
    rwa [← UInt8.toNat_toUInt16] at this
  rintro ⟨io, rfl⟩
  refine Machine.Triple.bind (onIo_triple device occur _ (Transacts.triple (Q := fun _ => P 3)
    (hI 2) (hstable 2) fun s hs => ?_)) fun next => .lift ?_
  · have hnext := htrigger s hs
    obtain ⟨io, hset⟩ := MrfIo.setControlRegister_transacts device occur io
      mrf_register_tx_normal_fifo_control.toUInt16 1 (by decide) (hI 2 s hs) (hI 3 _ hnext)
    exact ⟨io, _, hset, hnext⟩
  rintro ⟨io, rfl⟩
  refine Machine.Triple.repeatUntil (J := fun _ => OnDevice (P 3)) (R := fun _ => OnDevice R)
    (fun _ bus hbus => hI 3 bus.device hbus) (fun _ => OnDevice.stable (hstable 3))
    (fun io => ?_) (fun io => ?_) io
  · refine (Transacts.triple (Q := fun (r : MrfIo × Bool) s => if r.2 then R s else P 3 s)
      (hI 3) (hstable 3) fun s hs => ?_).consequence (fun _ hbus => hbus) fun r bus hbus => ?_
    · have hnext := hpoll s hs
      have hnextI : I (device.read mrf_register_interrupt_status.toUInt16 s).2 := by
        split at hnext
        · exact hI' _ hnext
        · exact hI 3 _ hnext
      obtain ⟨io', hread⟩ := MrfIo.readControlRegister_transacts device occur io
        mrf_register_interrupt_status.toUInt16 (by decide) (hI 3 s hs) hnextI
      exact ⟨_, _, hread.map fun r => (r.1, r.2 &&& 1 != 0), hnext⟩
    · obtain ⟨io', done⟩ := r
      cases done <;> exact hbus
  · exact .ret (fun bus hbus => hI' bus.device hbus) fun bus hbus => ⟨hbus, io, rfl⟩

-- The same where it does not matter what the status says.
theorem sendBlocking_triple (impl : Mrf) {P : Nat → σ → Prop} (hI : ∀ i s, P i s → I s)
    (hstable : ∀ i s e, P i s → P i (occur e s))
    (hheader : ∀ s, P 0 s → P 1 (device.writeLongs 0 impl.state.getFullHeaderField.bytes s))
    (hpayload : ∀ s, P 1 s → P 2
      (device.writeLongs impl.state.getFullHeaderLength.toNat impl.state.getPayloadField.bytes s))
    (htrigger : ∀ s, P 2 s →
      P 3 (device.write mrf_register_tx_normal_fifo_control.toUInt16 1 s))
    (hpoll : ∀ s, P 3 s → P 3 (device.read mrf_register_interrupt_status.toUInt16 s).2) :
    (device.machine occur).Triple (OnDevice I) (OnDevice (P 0)) impl.sendBlocking
      fun next => OnDevice fun s => P 3 s ∧ ∃ io, next = { impl with io } :=
  sendBlocking_waits device occur impl hI (hI 3) hstable hheader hpayload htrigger
    fun s hs => by split <;> exact hpoll s hs

-- Whatever the device does, the trigger is written.
theorem sendBlocking_exists_run (impl : Mrf) {P : σ → Prop}
    (htrigger : ∀ s, P (device.write mrf_register_tx_normal_fifo_control.toUInt16 1 s))
    (bus : Bus σ) : ∃ ms, OnDevice P ((device.machine occur).run impl.sendBlocking bus ms).2 := by
  refine Machine.Returns.exists_run_of_tame (impl.onIo_tame fun io =>
    io.writeBlockingToLongAddress_tame _ _ _) (fun impl bus => ?_) bus
  refine Machine.Returns.exists_run_of_tame (impl.onIo_tame fun io =>
    io.writeBlockingToLongAddress_tame _ _ _) (fun impl bus => ?_) bus
  obtain ⟨phase, s⟩ := bus
  obtain ⟨io, hset⟩ : ∃ io, Transacts device occur (fun _ => True)
      (impl.io.setControlRegister mrf_register_tx_normal_fifo_control.toUInt16 1) s io _ :=
    MrfIo.setControlRegister_transacts device occur impl.io _ 1 (by decide) trivial trivial
  obtain ⟨ops, -, hreturns⟩ := (hset.map fun io => ({ impl with io } : Mrf)).returns phase
  exact hreturns.exists_run ⟨[], htrigger s⟩

end Calls

end Mrf

end Mac802154
