import Mac802154.PeripheralInterface

namespace Mac802154

open Library

def MRF_readLongCommand (address : UInt16) : UInt16 :=
  (1 : UInt16) <<< 15 ||| address <<< 5

def MRF_readLongCommandFirstByte (address : UInt16) : UInt8 :=
  (MRF_readLongCommand address >>> 8).toUInt8

def MRF_readLongCommandSecondByte (address : UInt16) : UInt8 :=
  (MRF_readLongCommand address).toUInt8

def MRF_readShortCommand (address : UInt8) : UInt8 :=
  address <<< 1

def MRF_writeLongCommand (address : UInt16) : UInt16 :=
  MRF_readLongCommand address ||| (1 : UInt16) <<< 4

def MRF_writeShortCommand (address : UInt8) : UInt8 :=
  (address <<< 1 &&& ~~~((1 : UInt8) <<< 7)) ||| 1

def MRF_writeLongCommandFirstByte (address : UInt16) : UInt8 :=
  (MRF_writeLongCommand address >>> 8).toUInt8

def MRF_writeLongCommandSecondByte (address : UInt16) : UInt8 :=
  (MRF_writeLongCommand address).toUInt8

def MRF_getRegisterValueForChannelNumber (channel_number : UInt8) : UInt8 :=
  (channel_number - 11) <<< 4 ||| 0x03

def isLongAddress (address : UInt16) : Bool :=
  let last_short_control_register_address : UInt16 := 0x3F
  address > last_short_control_register_address

structure MrfIo where
  command : Vector UInt8 2
  command_size : UInt8
deriving DecidableEq, Repr

namespace MrfIo

def setWriteLongCommand (mrf : MrfIo) (address : UInt16) : MrfIo :=
  { mrf with
    command := (mrf.command.set 0 (MRF_writeLongCommandFirstByte address) Nat.zero_lt_two).set 1
      (MRF_writeLongCommandSecondByte address) Nat.one_lt_two
    command_size := 2 }

def setWriteShortCommand (mrf : MrfIo) (address : UInt8) : MrfIo :=
  { mrf with
    command := mrf.command.set 0 (MRF_writeShortCommand address) Nat.zero_lt_two
    command_size := 1 }

def setReadLongCommand (mrf : MrfIo) (address : UInt16) : MrfIo :=
  { mrf with
    command := (mrf.command.set 0 (MRF_readLongCommandFirstByte address) Nat.zero_lt_two).set 1
      (MRF_readLongCommandSecondByte address) Nat.one_lt_two
    command_size := 2 }

def setReadShortCommand (mrf : MrfIo) (address : UInt8) : MrfIo :=
  { mrf with
    command := mrf.command.set 0 (MRF_readShortCommand address) Nat.zero_lt_two
    command_size := 1 }

def commandBytes (mrf : MrfIo) : List UInt8 :=
  mrf.command.toList.take mrf.command_size.toNat

def writeBlockingWithCommand (mrf : MrfIo) (payload : BytePointer) (size : UInt8) : Driver Unit :=
  .perform .selectPeripheral fun _ =>
    .perform (.writeBlocking mrf.commandBytes) fun _ =>
      .perform (.writeBlocking (payload.bytes size)) fun _ =>
        .perform .deselectPeripheral fun _ => .ret ()

def readBlockingWithCommand (mrf : MrfIo) (size : UInt8) : Driver (List UInt8) :=
  .perform .selectPeripheral fun _ =>
    .perform (.writeBlocking mrf.commandBytes) fun _ =>
      .perform (.readBlocking size) fun payload =>
        .perform .deselectPeripheral fun _ => .ret payload

def writeBlockingToLongAddress (mrf : MrfIo) (payload : BytePointer) (size : UInt8)
    (address : UInt16) : Driver MrfIo := do
  let mrf := mrf.setWriteLongCommand address
  mrf.writeBlockingWithCommand payload size
  return mrf

-- One round of the loop below. The counter is a uint8_t that stays below `size`.
def writeShortByte (payload : BytePointer) (address : UInt8) (mrf : MrfIo) (i : Nat) :
    Driver MrfIo := do
  let mrf := mrf.setWriteShortCommand (address + UInt8.ofNat i)
  mrf.writeBlockingWithCommand (fun j => payload (i + j)) 1
  return mrf

def writeBlockingToShortAddress (mrf : MrfIo) (payload : BytePointer) (size address : UInt8) :
    Driver MrfIo :=
  (List.range size.toNat).foldlM (writeShortByte payload address) mrf

def setControlRegister (mrf : MrfIo) (address : UInt16) (value : UInt8) : Driver MrfIo := do
  let mrf := if isLongAddress address then mrf.setWriteLongCommand address
    else mrf.setWriteShortCommand address.toUInt8
  mrf.writeBlockingWithCommand (fun _ => value) 1
  return mrf

def readControlRegister (mrf : MrfIo) (address : UInt16) : Driver (MrfIo × UInt8) := do
  let mrf := if isLongAddress address then mrf.setReadLongCommand address
    else mrf.setReadShortCommand address.toUInt8
  let value ← mrf.readBlockingWithCommand 1
  return (mrf, value.headD 0)

-- The bytes read stand for the buffer that they fill.
def readBlockingFromLongAddress (mrf : MrfIo) (register_address : UInt16) (length : UInt8) :
    Driver (MrfIo × List UInt8) := do
  let mrf := mrf.setReadLongCommand register_address
  let buffer ← mrf.readBlockingWithCommand length
  return (mrf, buffer)

end MrfIo

end Mac802154
