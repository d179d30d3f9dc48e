import Mac802154.Library.Program

namespace Mac802154

open Library

-- A pointer to bytes of the caller is what a reader finds from there on.
abbrev BytePointer := Nat → UInt8

-- The bytes that a call with this pointer and size hands on.
def BytePointer.bytes (data : BytePointer) (size : UInt8) : List UInt8 :=
  (List.range size.toNat).map data

-- What the driver calls outside of its own code: the functions of
-- PeripheralInterface for the one device it uses, and its delay function.
inductive PeripheralOp where
  | selectPeripheral
  | writeBlocking (bytes : List UInt8)
  | readBlocking (size : UInt8)
  | deselectPeripheral
  | delay_microseconds (amount : UInt16)
deriving DecidableEq, Repr

namespace PeripheralOp

def Response : PeripheralOp → Type
  | readBlocking _ => List UInt8
  | _ => Unit

-- From select to deselect: the bytes of a command, then data one way.
inductive Transaction : List PeripheralOp → Prop where
  | write (command payload : List UInt8) :
      Transaction [selectPeripheral, writeBlocking command, writeBlocking payload, deselectPeripheral]
  | read (command : List UInt8) (size : UInt8) :
      Transaction [selectPeripheral, writeBlocking command, readBlocking size, deselectPeripheral]

inductive Transactions : List PeripheralOp → Prop where
  | nil : Transactions []
  | append {first rest : List PeripheralOp} (h : Transaction first) (hrest : Transactions rest) :
      Transactions (first ++ rest)

theorem Transactions.of_transaction {ops : List PeripheralOp} (h : Transaction ops) :
    Transactions ops := by
  have := Transactions.append h .nil
  rwa [List.append_nil] at this

theorem Transactions.trans {first second : List PeripheralOp} (h : Transactions first)
    (h' : Transactions second) : Transactions (first ++ second) := by
  induction h with
  | nil => exact h'
  | append ht _ ih =>
      rw [List.append_assoc]
      exact .append ht ih

end PeripheralOp

abbrev Driver := Program PeripheralOp PeripheralOp.Response

-- The two address spaces of the chip, byte by byte.
structure Device (σ : Type) where
  readShort : (address : Nat) → σ → UInt8 × σ
  writeShort : (address : Nat) → (value : UInt8) → σ → σ
  readLong : (address : Nat) → σ → UInt8 × σ
  writeLong : (address : Nat) → (value : UInt8) → σ → σ

-- How far the chip has got with a transaction. After the one byte of a short
-- command nothing more happens until it is deselected.
inductive Phase where
  | deselected
  | command
  | longCommand (first : UInt8)
  | shortRead (address : Nat)
  | shortWrite (address : Nat)
  | longRead (address : Nat)
  | longWrite (address : Nat)
  | finished
deriving DecidableEq, Repr

structure Bus (σ : Type) where
  phase : Phase
  device : σ

namespace Device

variable {σ ε : Type} (device : Device σ)

-- Bits 6..1 of a short command are its address and bit 0 says write; in a long
-- command, of two bytes, these are bits 14..5 and bit 4.
def receiveByte (bus : Bus σ) (byte : UInt8) : Bus σ :=
  match bus.phase with
  | .command =>
      if byte < 0x80 then
        let address := ((byte >>> 1) &&& 0x3F).toNat
        { bus with phase := if byte &&& 1 = 1 then .shortWrite address else .shortRead address }
      else { bus with phase := .longCommand byte }
  | .longCommand first =>
      let word : UInt16 := first.toUInt16 <<< 8 ||| byte.toUInt16
      let address := ((word >>> 5) &&& 0x3FF).toNat
      { bus with phase := if word &&& 0x10 = 0x10 then .longWrite address else .longRead address }
  | .shortWrite address => ⟨.finished, device.writeShort address byte bus.device⟩
  | .longWrite address => ⟨.longWrite (address + 1), device.writeLong address byte bus.device⟩
  | _ => bus

def transmitByte (bus : Bus σ) : UInt8 × Bus σ :=
  match bus.phase with
  | .shortRead address =>
      let (value, next) := device.readShort address bus.device
      (value, ⟨.finished, next⟩)
  | .longRead address =>
      let (value, next) := device.readLong address bus.device
      (value, ⟨.longRead (address + 1), next⟩)
  | _ => (0, bus)

def transmitBytes : Nat → Bus σ → List UInt8 × Bus σ
  | 0, bus => ([], bus)
  | n + 1, bus =>
      let (byte, next) := device.transmitByte bus
      let (bytes, last) := transmitBytes n next
      (byte :: bytes, last)

def perform : (op : PeripheralOp) → Bus σ → op.Response × Bus σ
  | .selectPeripheral, bus => ((), { bus with phase := .command })
  | .writeBlocking bytes, bus => ((), bytes.foldl device.receiveByte bus)
  | .readBlocking size, bus => device.transmitBytes size.toNat bus
  | .deselectPeripheral, bus => ((), { bus with phase := .deselected })
  | .delay_microseconds _, bus => ((), bus)

-- What happens to the chip by itself happens between transactions.
def machine (occur : ε → σ → σ) : Machine PeripheralOp PeripheralOp.Response ε (Bus σ) where
  perform := device.perform
  interruptible bus := bus.phase = .deselected
  occur e bus := { bus with device := occur e bus.device }

-- Bursts, as a whole.
def readLongs : (address n : Nat) → σ → List UInt8 × σ
  | _, 0, s => ([], s)
  | address, n + 1, s =>
      let (value, next) := device.readLong address s
      let (values, last) := readLongs (address + 1) n next
      (value :: values, last)

def writeLongs : (address : Nat) → List UInt8 → σ → σ
  | _, [], s => s
  | address, value :: values, s => writeLongs (address + 1) values (device.writeLong address value s)

def writeShorts : (address : Nat) → List UInt8 → σ → σ
  | _, [], s => s
  | address, value :: values, s => writeShorts (address + 1) values (device.writeShort address value s)

end Device

end Mac802154
