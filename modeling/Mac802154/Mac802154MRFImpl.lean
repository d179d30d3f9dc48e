import Mac802154.Interface
import Mac802154.MRFInternalConstants
import Mac802154.Library.Memory
import Mac802154.MRFState
import Mac802154.MrfIo

namespace Mac802154

open Library FrameHeader802154

structure Mrf where
  io : MrfIo
  state : MrfState
  config : Mac802154Config

-- (uint8_t) ((1 << mrf_fifo_enable) | ...) and the like are computed in int.
def initializationValues : List (UInt16 × UInt8) :=
  [(mrf_register_power_amplifier_control2.toUInt16,
      UInt8.ofNat (1 <<< mrf_fifo_enable.toNat |||
        mrf_value_recommended_transmitter_on_time_before_beginning_a_packet.toNat)),
    (mrf_register_tx_stabilization.toUInt16, mrf_value_recommended_interframe_spacing),
    (mrf_register_rf_control0, mrf_value_recommended_rf_optimize_control0),
    (mrf_register_rf_control1, mrf_value_recommended_rf_optimize_control1),
    (mrf_register_rf_control2, mrf_value_phase_locked_loop_enabled),
    (mrf_register_rf_control6,
      mrf_value_enable_tx_filter ||| mrf_value_20MHz_clock_recovery_less_than_1ms),
    (mrf_register_rf_control7, mrf_value_use_internal_100kHz_oscillator),
    (mrf_register_rf_control8, mrf_value_recommended_rf_control8),
    (mrf_register_sleep_clock_control1,
      mrf_value_disable_deprecated_clkout_sleep_clock_feature |||
        mrf_value_minimum_sleep_clock_divisor_for_internal_oscillator),
    (mrf_register_base_band2.toUInt16, mrf_value_clear_channel_assessment_energy_detection_only),
    (mrf_register_energy_detection_threshold_for_clear_channel_assessment.toUInt16,
      mrf_value_recommended_energy_detection_threshold),
    (mrf_register_base_band6.toUInt16, mrf_value_append_rssi_value_to_rxfifo)]

-- One call of MrfIo_setControlRegister after the other.
def setInitializationValuesFromDatasheet (io : MrfIo) : Driver MrfIo :=
  initializationValues.foldlM (fun io value => io.setControlRegister value.1 value.2) io

-- The local array of reconfigure.
def coordinators_address : Vector UInt8 8 :=
  #v[0, 0, 0, 0, 0, 0, 0, 0]

namespace Mrf

-- The driver's memory before anything is written to it.
def zeroed : Mrf where
  io := ⟨Vector.replicate 2 0, 0⟩
  state := ⟨0, ⟨0, 0, ⟨Vector.replicate MAXIMUM_HEADER_SIZE 0⟩⟩, fun _ => 0⟩
  config := ⟨Vector.replicate 2 0, Vector.replicate 8 0, Vector.replicate 2 0, 0⟩

-- A call that is given &impl->io.
def onIo (impl : Mrf) (p : MrfIo → Driver MrfIo) : Driver Mrf := do
  let io ← p impl.io
  return { impl with io }

def onState (impl : Mrf) (f : MrfState → Checked MrfState) : Driver Mrf := do
  let state ← Program.ofChecked (f impl.state)
  return { impl with state }

def setShortSourceAddress (impl : Mrf) (address : Vector UInt8 2) : Driver Mrf :=
  impl.onIo fun io => io.writeBlockingToShortAddress (fun i => address.toList.getD i 0) 2
    mrf_register_short_address_low_byte

def setExtendedSourceAddress (impl : Mrf) (address : Vector UInt8 8) : Driver Mrf :=
  impl.onIo fun io => io.writeBlockingToShortAddress (fun i => address.toList.getD i 0) 8
    mrf_register_extended_address0

def setPanId (impl : Mrf) (pan_id : Vector UInt8 2) : Driver Mrf :=
  impl.onIo fun io => io.writeBlockingToShortAddress (fun i => pan_id.toList.getD i 0) 2
    mrf_register_pan_id_low_byte

-- Clearing a bit in the register enables the corresponding interrupt.
def enableRXInterrupt (impl : Mrf) : Driver Mrf :=
  impl.onIo fun io => io.setControlRegister mrf_register_interrupt_control.toUInt16
    (~~~((1 : UInt8) <<< 3))

def reset (impl : Mrf) : Driver Mrf :=
  impl.onIo fun io => io.setControlRegister mrf_register_software_reset.toUInt16
    mrf_value_full_software_reset

def resetInternalRFStateMachine (impl : Mrf) : Driver Mrf := do
  let impl ← impl.onIo fun io => io.setControlRegister mrf_register_rf_mode_control.toUInt16
    mrf_value_rf_state_machine_reset_state
  let impl ← impl.onIo fun io => io.setControlRegister mrf_register_rf_mode_control.toUInt16
    mrf_value_rf_state_machine_operating_state
  Program.perform
    (.delay_microseconds mrf_value_delay_interval_after_state_machine_reset.toUInt16) fun _ =>
    .ret impl

def setChannel (impl : Mrf) (channel_number : UInt8) : Driver Mrf := do
  let impl ← impl.onIo fun io => io.setControlRegister mrf_register_rf_control0
    (MRF_getRegisterValueForChannelNumber channel_number)
  impl.resetInternalRFStateMachine

def setUpTransmitterPower (impl : Mrf) : Driver Mrf :=
  impl.onIo fun io => io.setControlRegister mrf_register_rf_control3 mrf_value_transmitter_power_0dB

variable [BitManipulation]

def reconfigure (impl : Mrf) (config : Mac802154Config) : Driver Mrf := do
  let impl := { impl with config }
  let impl ← impl.reset
  let impl ← impl.onIo setInitializationValuesFromDatasheet
  let impl ← impl.enableRXInterrupt
  let impl ← impl.setChannel config.channel
  let impl ← impl.setUpTransmitterPower
  let impl ← impl.setShortSourceAddress config.short_source_address
  let impl ← impl.setExtendedSourceAddress config.extended_source_address
  let impl ← impl.setPanId config.pan_id
  let impl := { impl with state := impl.state.init }
  let impl ← impl.onState fun state => state.setPanId config.pan_id
  let impl ← impl.onState fun state => state.setShortSourceAddress config.short_source_address
  impl.onState fun state => state.setExtendedDestinationAddress coordinators_address

def setShortDestinationAddress (impl : Mrf) (address : Vector UInt8 2) : Driver Mrf :=
  impl.onState fun state => state.setShortDestinationAddress address

def setExtendedDestinationAddress (impl : Mrf) (address : Vector UInt8 8) : Driver Mrf :=
  impl.onState fun state => state.setExtendedDestinationAddress address

def useShortSourceAddress (impl : Mrf) : Driver Mrf :=
  impl.onState fun state => state.setShortSourceAddress impl.config.short_source_address

def useExtendedSourceAddress (impl : Mrf) : Driver Mrf :=
  impl.onState fun state => state.setExtendedSourceAddress impl.config.extended_source_address

omit [BitManipulation]

-- The length comes as a size_t and is cut down to a uint8_t.
def setPayload (impl : Mrf) (payload : BytePointer) (payload_length : Nat) : Driver Mrf :=
  impl.onState fun state => .ok (state.setPayload payload (UInt8.ofNat payload_length))

-- The loop ends once bit 0 of the interrupt status was read as set.
def triggerSend (impl : Mrf) : Driver Mrf := do
  let impl ← impl.onIo fun io => io.setControlRegister mrf_register_tx_normal_fifo_control.toUInt16 1
  Program.repeatUntil
    (fun io => do
      let (io, status) ← MrfIo.readControlRegister io mrf_register_interrupt_status.toUInt16
      return (io, status &&& 1 != 0))
    impl.io fun io => .ret { impl with io }

def sendBlocking (impl : Mrf) : Driver Mrf := do
  let current_field := impl.state.getFullHeaderField
  let impl ← impl.onIo fun io => io.writeBlockingToLongAddress current_field.data
    current_field.length current_field.address
  let current_field := impl.state.getPayloadField
  let impl ← impl.onIo fun io => io.writeBlockingToLongAddress current_field.data
    current_field.length current_field.address
  impl.triggerSend

def getReceivedMessageSize (impl : Mrf) : Driver (Mrf × UInt8) := do
  let (io, size) ← impl.io.readBlockingFromLongAddress mrf_rx_fifo_start 1
  return ({ impl with io }, size.headD 0 + frame_length_field_size)

def newMessageAvailable (impl : Mrf) : Driver (Mrf × Bool) := do
  let (io, status_register_value) ←
    impl.io.readControlRegister mrf_register_interrupt_status.toUInt16
  return ({ impl with io }, status_register_value >>> 3 &&& 1 != 0)

-- The bytes that are read replace the front of the buffer.
def fetchMessageBlocking (impl : Mrf) (buffer : BytePointer) (size : UInt8) :
    Driver (Mrf × BytePointer) := do
  let (io, bytes) ← impl.io.readBlockingFromLongAddress mrf_rx_fifo_start size
  return ({ impl with io }, Memory.overwrite buffer 0 bytes)

def enablePromiscuousMode (impl : Mrf) : Driver Mrf :=
  impl.onIo fun io => io.setControlRegister mrf_register_receive_mac_control.toUInt16 1

def disablePromiscuousMode (impl : Mrf) : Driver Mrf :=
  impl.onIo fun io => io.setControlRegister mrf_register_receive_mac_control.toUInt16 0

end Mrf

def SetterCall.apply [BitManipulation] (impl : Mrf) : SetterCall → Driver Mrf
  | setShortDestinationAddress address => impl.setShortDestinationAddress address
  | setExtendedDestinationAddress address => impl.setExtendedDestinationAddress address
  | useShortSourceAddress => impl.useShortSourceAddress
  | useExtendedSourceAddress => impl.useExtendedSourceAddress
  | setPayload payload payload_length => impl.setPayload payload payload_length

-- The accessors of a received packet. A result that points into the packet is
-- its distance from the start.
section Packet

-- (FrameHeader802154 *) (packet + distance)
def headerAt (packet : BytePointer) (distance : UInt8) : FrameHeader802154 :=
  ⟨Vector.ofFn fun i => packet (distance.toNat + i)⟩

variable [BitManipulation] (packet : BytePointer)

def getPacketPayload : Nat :=
  frame_length_field_size.toNat + (headerAt packet frame_length_field_size).getHeaderSize.toNat

def getPacketPayloadSize : UInt8 :=
  let packet_size := packet 0
  let header_size := (headerAt packet 1).getHeaderSize
  packet_size - header_size - frame_check_sequence_size

def packetAddressIsShort : Bool :=
  (headerAt packet 1).getSourceAddressSize = 2

def packetAddressIsLong : Bool :=
  (headerAt packet 1).getSourceAddressSize = 8

def getPacketSourceAddressSize : UInt8 :=
  (headerAt packet 1).getSourceAddressSize

def getPacketExtendedSourceAddress : Nat :=
  1 + (headerAt packet 1).getSourceAddressPtr

def getPacketShortSourceAddress : Nat :=
  1 + (headerAt packet 1).getSourceAddressPtr

end Packet

end Mac802154
