import Mac802154.Interface
import Mac802154.MRFInternalConstants
import Mac802154.MrfIo.Memories

namespace Mac802154

open Library

-- What the record of a run keeps. A transmission is kept with the long memory
-- as it is when the transmission is triggered.
inductive Happening where
  | softwareReset
  | arrival (frame : Vector UInt8 mrf_rx_fifo_length)
  | transmissionFinished
  | statusRead
  | transmission (long : Memory)
  | returned (call : Call) (answer : Answer)

-- The chip and the record of what has happened, newest first. The driver sees
-- the memories only.
structure Chip where
  memories : Memories
  history : List Happening

inductive ChipEvent where
  | arrival (frame : Vector UInt8 mrf_rx_fifo_length)
  | transmissionFinished

namespace Chip

def log (chip : Chip) (happening : Happening) : Chip :=
  { chip with history := happening :: chip.history }

def register (chip : Chip) (address : UInt16) : UInt8 :=
  chip.memories.register address

def setStatus (memories : Memories) (status : UInt8) : Memories :=
  { memories with short := memories.short.overwrite mrf_register_interrupt_status.toNat [status] }

-- A frame is received into the RX FIFO, unless reception is switched off.
def occur : ChipEvent → Chip → Chip
  | .arrival frame, chip =>
      let status := chip.memories.short mrf_register_interrupt_status.toNat
      if chip.memories.short mrf_register_base_band1.toNat &&& mrf_value_rx_decode_inversion = 0 then
        let memories := setStatus chip.memories (status ||| (1 : UInt8) <<< 3)
        let long := memories.long.overwrite mrf_rx_fifo_start.toNat frame.toList
        Chip.log { chip with memories := { memories with long } } (.arrival frame)
      else chip
  | .transmissionFinished, chip =>
      let status := chip.memories.short mrf_register_interrupt_status.toNat
      let memories := setStatus chip.memories (status ||| 1)
      Chip.log { chip with memories } .transmissionFinished

section Device

-- What a software reset leaves in the memories.
variable (softwareReset : Chip → Memories)

-- Two memories, but for three registers: the interrupt status is cleared by
-- reading it, a full reset replaces everything, and bit 0 of the FIFO control
-- triggers a transmission.
def device : Device Chip where
  readShort address chip :=
    let (value, memories) := Memories.device.readShort address chip.memories
    if address = mrf_register_interrupt_status.toNat then
      (value, Chip.log { chip with memories := setStatus memories 0 } .statusRead)
    else (value, { chip with memories })
  writeShort address value chip :=
    let written := { chip with memories := Memories.device.writeShort address value chip.memories }
    if address = mrf_register_software_reset.toNat ∧ value = mrf_value_full_software_reset then
      Chip.log { chip with memories := softwareReset chip } .softwareReset
    else if address = mrf_register_tx_normal_fifo_control.toNat ∧ value &&& 1 = 1 then
      written.log (.transmission chip.memories.long)
    else written
  readLong address chip :=
    let (value, memories) := Memories.device.readLong address chip.memories
    (value, { chip with memories })
  writeLong address value chip :=
    { chip with memories := Memories.device.writeLong address value chip.memories }

def machine : Machine PeripheralOp PeripheralOp.Response ChipEvent (Bus Chip) :=
  (device softwareReset).machine occur

end Device

end Chip

end Mac802154
