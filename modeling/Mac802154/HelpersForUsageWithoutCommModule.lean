import Mac802154.MRFInternalConstants
import Mac802154.MrfIo

namespace Mac802154.HelpersForUsageWithoutCommModule

open Library

-- The MRF_ functions that encode commands are repeated word for word in the
-- helpers, so they are not defined again here.
def readByteFromShortAddress (address : UInt8) : Driver UInt8 :=
  .perform .selectPeripheral fun _ =>
    .perform (.writeBlocking [MRF_readShortCommand address]) fun _ =>
      .perform (.readBlocking 1) fun value =>
        .perform .deselectPeripheral fun _ => .ret (value.headD 0)

def writeByteToShortAddress (address byte : UInt8) : Driver Unit :=
  .perform .selectPeripheral fun _ =>
    .perform (.writeBlocking [MRF_writeShortCommand address]) fun _ =>
      .perform (.writeBlocking [byte]) fun _ =>
        .perform .deselectPeripheral fun _ => .ret ()

-- The loop counts the length down and moves address and data on.
def writeBytesToShortAddress : (length : Nat) → (address : UInt8) → (data : BytePointer) →
    Driver Unit
  | 0, _, _ => .ret ()
  | length + 1, address, data => do
      writeByteToShortAddress address (data 0)
      writeBytesToShortAddress length (address + 1) fun i => data (i + 1)

def writeByteWiseToShortAddress (address : UInt8) (data : BytePointer) (length : UInt8) :
    Driver Unit :=
  writeBytesToShortAddress length.toNat address data

def readByteFromLongAddress (address : UInt16) : Driver UInt8 :=
  .perform .selectPeripheral fun _ =>
    .perform (.writeBlocking
      [MRF_readLongCommandFirstByte address, MRF_readLongCommandSecondByte address]) fun _ =>
      .perform (.readBlocking 1) fun byte =>
        .perform .deselectPeripheral fun _ => .ret (byte.headD 0)

def writeByteToLongAddress (address : UInt16) (value : UInt8) : Driver Unit :=
  .perform .selectPeripheral fun _ =>
    .perform (.writeBlocking
      [MRF_writeLongCommandFirstByte address, MRF_writeLongCommandSecondByte address]) fun _ =>
      .perform (.writeBlocking [value]) fun _ =>
        .perform .deselectPeripheral fun _ => .ret ()

def setShortRegister (address value : UInt8) : Driver Unit :=
  writeByteToShortAddress address value

def setLongRegister (address : UInt16) (value : UInt8) : Driver Unit :=
  writeByteToLongAddress address value

def setRegister (address : UInt16) (value : UInt8) : Driver Unit :=
  if address > 0x3F then setLongRegister address value else setShortRegister address.toUInt8 value

-- What is read goes to the debug output only.
def printRegister (address : UInt16) : Driver Unit := do
  let _ ← if address > 0x3F then readByteFromLongAddress address
    else readByteFromShortAddress address.toUInt8
  return ()

-- The value in the second column is cut down to a uint8_t when it is written.
def register_value_pairs : List (UInt16 × UInt16) :=
  [(0x2A, 0x07), (0x18, 0x98), (0x2E, 0x95), (0x200, 0x03), (0x201, 0x01), (0x202, 0x80),
    (0x206, 0x90), (0x207, 0x80), (0x208, 0x10), (0x220, 0x21), (0x3A, 0x80), (0x3F, 0x60),
    (0x3E, 0x40), (mrf_register_interrupt_control.toUInt16, 0xF6), (0x200, 0x13), (0x36, 0x04),
    (0x36, 0x00)]

-- _delay_ms (1) is a delay of 1000 microseconds.
def initMrf : Driver Unit := do
  Program.perform (.delay_microseconds 1000) fun _ => .ret ()
  register_value_pairs.foldlM (fun _ pair => setRegister pair.1 pair.2.toUInt8) ()
  register_value_pairs.foldlM (fun _ pair => printRegister pair.1) ()
  setRegister mrf_register_interrupt_control.toUInt16 0xF6
  let pan_id : BytePointer := fun i => [0x34, 0x12].getD i 0
  let short_source_address : BytePointer := fun i => [0xBB, 0xBB].getD i 0
  let extended_source_address : BytePointer := fun i =>
    [0x08, 0x07, 0x06, 0x05, 0x04, 0x03, 0x02, 0x01].getD i 0
  writeByteWiseToShortAddress mrf_register_pan_id_low_byte pan_id 2
  writeByteWiseToShortAddress mrf_register_short_address_low_byte short_source_address 2
  writeByteWiseToShortAddress mrf_register_extended_address0 extended_source_address 8

end Mac802154.HelpersForUsageWithoutCommModule
