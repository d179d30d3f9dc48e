import Mac802154.Library.Memory
import Mac802154.MrfIo.Theorems

namespace Mac802154

open Library

-- The chip as nothing but two byte memories.
structure Memories where
  short : Memory
  long : Memory

namespace Memories

def device : Device Memories where
  readShort address s := (s.short address, s)
  writeShort address value s := { s with short := s.short.overwrite address [value] }
  readLong address s := (s.long address, s)
  writeLong address value s := { s with long := s.long.overwrite address [value] }

def register (s : Memories) (address : UInt16) : UInt8 :=
  if isLongAddress address then s.long address.toNat else s.short address.toNat

-- This chip does nothing by itself.
def machine : Machine PeripheralOp PeripheralOp.Response Empty (Bus Memories) :=
  device.machine fun e _ => e.elim

theorem writeLongs_eq (address : Nat) (bytes : List UInt8) (s : Memories) :
    device.writeLongs address bytes s = { s with long := s.long.overwrite address bytes } := by
  induction bytes generalizing address s with
  | nil => simp [Device.writeLongs]
  | cons byte bytes ih =>
      rw [Device.writeLongs, ih, Memory.overwrite_cons]
      rfl

theorem writeShorts_eq (address : Nat) (bytes : List UInt8) (s : Memories) :
    device.writeShorts address bytes s = { s with short := s.short.overwrite address bytes } := by
  induction bytes generalizing address s with
  | nil => simp [Device.writeShorts]
  | cons byte bytes ih =>
      rw [Device.writeShorts, ih, Memory.overwrite_cons]
      rfl

theorem readLongs_eq (address n : Nat) (s : Memories) :
    device.readLongs address n s = (s.long.contents address n, s) := by
  induction n generalizing address with
  | zero => rfl
  | succ n ih =>
      have hfirst : device.readLong address s = (s.long address, s) := rfl
      simp only [Device.readLongs, hfirst, ih, Memory.contents_succ]

theorem register_write (address : UInt16) (value : UInt8) (s : Memories) (other : UInt16) :
    (device.write address value s).register other =
      if other = address then value else s.register other := by
  by_cases he : other = address
  · have hself (memory : Memory) : memory.overwrite address.toNat [value] address.toNat = value := by
      rw [Memory.overwrite_of_mem _ _ _ _ (Nat.le_refl _) (by simp)]
      simp
    rw [he, if_pos rfl, register, Device.write]
    split <;> exact hself _
  · have hne : other.toNat ≠ address.toNat := fun h => he (UInt16.toNat_inj.mp h)
    have hkeep (memory : Memory) :
        memory.overwrite address.toNat [value] other.toNat = memory other.toNat :=
      Memory.overwrite_of_not_mem _ _ _ _ (by simp only [List.length_singleton]; omega)
    rw [if_neg he, register, register, Device.write]
    split <;> split <;> first | rfl | exact hkeep _

end Memories

inductive IoOperation where
  | writeBlockingToLongAddress (payload : BytePointer) (size : UInt8) (address : UInt16)
  | writeBlockingToShortAddress (payload : BytePointer) (size address : UInt8)
  | setControlRegister (register_address : UInt16) (value : UInt8)
  | readControlRegister (register_address : UInt16)
  | readBlockingFromLongAddress (register_address : UInt16) (size : UInt8)

namespace IoOperation

def InRange : IoOperation → Prop
  | writeBlockingToLongAddress _ size address =>
      address.toNat < 0x400 ∧ address.toNat + size.toNat ≤ 0x400
  | writeBlockingToShortAddress _ size address => address.toNat + size.toNat ≤ 0x40
  | setControlRegister register_address _ => register_address.toNat < 0x400
  | readControlRegister register_address => register_address.toNat < 0x400
  | readBlockingFromLongAddress register_address size =>
      register_address.toNat < 0x400 ∧ register_address.toNat + size.toNat ≤ 0x400

instance : (operation : IoOperation) → Decidable operation.InRange
  | writeBlockingToLongAddress _ _ _ => inferInstanceAs (Decidable (_ ∧ _))
  | writeBlockingToShortAddress _ _ _ => inferInstanceAs (Decidable (_ ≤ _))
  | setControlRegister _ _ => inferInstanceAs (Decidable (_ < _))
  | readControlRegister _ => inferInstanceAs (Decidable (_ < _))
  | readBlockingFromLongAddress _ _ => inferInstanceAs (Decidable (_ ∧ _))

-- The bytes that an operation gives back, beside the state of the driver.
def apply (operation : IoOperation) (mrf : MrfIo) : Driver (MrfIo × List UInt8) :=
  match operation with
  | writeBlockingToLongAddress payload size address => do
      return (← mrf.writeBlockingToLongAddress payload size address, [])
  | writeBlockingToShortAddress payload size address => do
      return (← mrf.writeBlockingToShortAddress payload size address, [])
  | setControlRegister register_address value => do
      return (← mrf.setControlRegister register_address value, [])
  | readControlRegister register_address => do
      let (mrf, value) ← mrf.readControlRegister register_address
      return (mrf, [value])
  | readBlockingFromLongAddress register_address size =>
      mrf.readBlockingFromLongAddress register_address size

-- What the operation is for, on the two memories.
def effect (s : Memories) : IoOperation → List UInt8 × Memories
  | writeBlockingToLongAddress payload size address =>
      ([], { s with long := s.long.overwrite address.toNat (payload.bytes size) })
  | writeBlockingToShortAddress payload size address =>
      ([], { s with short := s.short.overwrite address.toNat (payload.bytes size) })
  | setControlRegister register_address value =>
      ([], if isLongAddress register_address then
          { s with long := s.long.overwrite register_address.toNat [value] }
        else { s with short := s.short.overwrite register_address.toNat [value] })
  | readControlRegister register_address => ([s.register register_address], s)
  | readBlockingFromLongAddress register_address size =>
      (s.long.contents register_address.toNat size.toNat, s)

-- The operation leaves this register alone.
def Spares (register_address : UInt16) : IoOperation → Prop
  | writeBlockingToLongAddress _ size address =>
      isLongAddress register_address → register_address.toNat < address.toNat ∨
        address.toNat + size.toNat ≤ register_address.toNat
  | writeBlockingToShortAddress _ size address =>
      ¬isLongAddress register_address → register_address.toNat < address.toNat ∨
        address.toNat + size.toNat ≤ register_address.toNat
  | setControlRegister address _ => address ≠ register_address
  | _ => True

def applyAll : List IoOperation → MrfIo → Driver (MrfIo × List (List UInt8))
  | [], mrf => return (mrf, [])
  | operation :: operations, mrf => do
      let (mrf, answer) ← operation.apply mrf
      let (mrf, answers) ← applyAll operations mrf
      return (mrf, answer :: answers)

def effects : List IoOperation → Memories → List (List UInt8) × Memories
  | [], s => ([], s)
  | operation :: operations, s =>
      let (answer, s) := operation.effect s
      let (answers, s) := effects operations s
      (answer :: answers, s)

variable {ε : Type} (occur : ε → Memories → Memories)

theorem apply_returns (operation : IoOperation) (h : operation.InRange) (mrf : MrfIo) (s : Memories) :
    ∃ ops mrf', PeripheralOp.Transactions ops ∧ (Memories.device.machine occur).Returns
      (operation.apply mrf) ⟨.deselected, s⟩ ops (mrf', (operation.effect s).1)
      ⟨.deselected, (operation.effect s).2⟩ := by
  have hpair {p : Driver MrfIo} {ops mrf' s'} (hr : (Memories.device.machine occur).Returns p
      ⟨.deselected, s⟩ ops mrf' ⟨.deselected, s'⟩) :
      (Memories.device.machine occur).Returns (p.bind fun mrf => .ret (mrf, ([] : List UInt8)))
        ⟨.deselected, s⟩ ops (mrf', []) ⟨.deselected, s'⟩ := by
    have := hr.bind (f := fun mrf => .ret (mrf, ([] : List UInt8))) (.ret (mrf', []) _)
    rwa [List.append_nil] at this
  cases operation with
  | writeBlockingToLongAddress payload size address =>
      obtain ⟨ops, ht, hr⟩ := (MrfIo.writeBlockingToLongAddress_transacts Memories.device
        occur (I := fun _ => True) mrf payload size address h.1 trivial trivial).returns .deselected
      rw [Memories.writeLongs_eq] at hr
      exact ⟨ops, _, .of_transaction ht, hpair hr⟩
  | writeBlockingToShortAddress payload size address =>
      obtain ⟨ops, mrf', ht, hr⟩ := MrfIo.writeBlockingToShortAddress_returns Memories.device
        occur mrf payload size address h s
      rw [Memories.writeShorts_eq] at hr
      exact ⟨ops, mrf', ht, hpair hr⟩
  | setControlRegister register_address value =>
      obtain ⟨mrf', hset⟩ := MrfIo.setControlRegister_transacts Memories.device occur
        (I := fun _ => True) (s := s) mrf register_address value h trivial trivial
      obtain ⟨ops, ht, hr⟩ := hset.returns .deselected
      exact ⟨ops, mrf', .of_transaction ht, hpair hr⟩
  | readControlRegister register_address =>
      obtain ⟨mrf', hread⟩ := MrfIo.readControlRegister_transacts Memories.device occur
        (I := fun _ => True) (s := s) mrf register_address h trivial trivial
      have hvalue : Memories.device.read register_address s = (s.register register_address, s) := by
        unfold Device.read Memories.register
        split <;> rfl
      rw [hvalue] at hread
      obtain ⟨ops, ht, hr⟩ := (hread.map fun r => (r.1, [r.2])).returns .deselected
      exact ⟨ops, mrf', .of_transaction ht, hr⟩
  | readBlockingFromLongAddress register_address size =>
      obtain ⟨ops, ht, hr⟩ := (MrfIo.readBlockingFromLongAddress_transacts Memories.device
        occur (I := fun _ => True) (s := s) mrf register_address size h.1 trivial trivial).returns .deselected
      rw [Memories.readLongs_eq] at hr
      exact ⟨ops, _, .of_transaction ht, hr⟩

theorem applyAll_returns (operations : List IoOperation) (h : ∀ operation ∈ operations, operation.InRange)
    (mrf : MrfIo) (s : Memories) :
    ∃ ops mrf', PeripheralOp.Transactions ops ∧ (Memories.device.machine occur).Returns
      (applyAll operations mrf) ⟨.deselected, s⟩ ops (mrf', (effects operations s).1)
      ⟨.deselected, (effects operations s).2⟩ := by
  induction operations generalizing mrf s with
  | nil => exact ⟨[], mrf, .nil, .ret _ _⟩
  | cons operation operations ih =>
      obtain ⟨ops, mrf', ht, hr⟩ := apply_returns occur operation
        (h operation List.mem_cons_self) mrf s
      obtain ⟨ops', mrf'', ht', hr'⟩ := ih (fun o ho => h o (List.mem_cons_of_mem _ ho)) mrf'
        (operation.effect s).2
      have hrest := hr'.bind (f := fun r => Program.ret (r.1, (operation.effect s).1 :: r.2))
        (.ret _ _)
      rw [List.append_nil] at hrest
      exact ⟨ops ++ ops', mrf'', ht.trans ht', hr.bind hrest⟩

theorem register_effect_of_spares (operation : IoOperation) (register_address : UInt16)
    (h : operation.Spares register_address) (s : Memories) :
    (operation.effect s).2.register register_address = s.register register_address := by
  cases operation with
  | writeBlockingToLongAddress payload size address =>
      unfold Memories.register effect
      split
      · rename_i hlong
        exact Memory.overwrite_of_not_mem _ _ _ _ (by
          have := h hlong
          simp only [BytePointer.bytes, List.length_map, List.length_range]
          omega)
      · rfl
  | writeBlockingToShortAddress payload size address =>
      unfold Memories.register effect
      split
      · rfl
      · rename_i hshort
        exact Memory.overwrite_of_not_mem _ _ _ _ (by
          have := h hshort
          simp only [BytePointer.bytes, List.length_map, List.length_range]
          omega)
  | setControlRegister address value =>
      have hwrite := Memories.register_write address value s register_address
      rwa [if_neg (Ne.symm h)] at hwrite
  | readControlRegister address => rfl
  | readBlockingFromLongAddress address size => rfl

theorem effects_append (first second : List IoOperation) (s : Memories) :
    effects (first ++ second) s =
      ((effects first s).1 ++ (effects second (effects first s).2).1,
        (effects second (effects first s).2).2) := by
  induction first generalizing s with
  | nil => rfl
  | cons operation first ih => simp only [List.cons_append, effects, ih]

theorem register_effects_of_spares (operations : List IoOperation) (register_address : UInt16)
    (h : ∀ operation ∈ operations, operation.Spares register_address) (s : Memories) :
    (effects operations s).2.register register_address = s.register register_address := by
  induction operations generalizing s with
  | nil => rfl
  | cons operation operations ih =>
      have hrest := ih (fun o ho => h o (List.mem_cons_of_mem _ ho)) (operation.effect s).2
      rw [register_effect_of_spares operation register_address (h operation List.mem_cons_self)] at hrest
      exact hrest

theorem register_setControlRegister (register_address : UInt16) (value : UInt8) (s : Memories) :
    ((setControlRegister register_address value).effect s).2.register register_address = value := by
  have hwrite := Memories.register_write register_address value s register_address
  rwa [if_pos rfl] at hwrite

-- Any sequence of operations acts on the chip as it acts on two byte memories,
-- over whole transactions only, and a register reads as it was last written.
theorem io_refines_memories (mrf : MrfIo) (s : Memories) (operations : List IoOperation)
    (hrange : ∀ operation ∈ operations, operation.InRange) :
    (∃ ops mrf', PeripheralOp.Transactions ops ∧ Memories.machine.Returns
      (applyAll operations mrf) ⟨.deselected, s⟩ ops (mrf', (effects operations s).1)
      ⟨.deselected, (effects operations s).2⟩) ∧
    ∀ before register_address value between,
      operations = before ++ setControlRegister register_address value ::
        (between ++ [readControlRegister register_address]) →
      (∀ operation ∈ between, operation.Spares register_address) →
      (effects operations s).1.getLast? = some [value] := by
  refine ⟨applyAll_returns _ operations hrange mrf s, ?_⟩
  rintro before register_address value between rfl hspares
  have hvalue := register_effects_of_spares between register_address hspares
    ((setControlRegister register_address value).effect (effects before s).2).2
  rw [register_setControlRegister] at hvalue
  rw [effects_append, ← List.cons_append, effects_append]
  simp only [effects, effect, List.getLast?_append, List.getLast?_singleton]
  exact congrArg (fun byte => some [byte]) hvalue

theorem io_refines_memories_write_read :
    ∃ ops mrf' s', PeripheralOp.Transactions ops ∧ Memories.machine.Returns
      (applyAll [setControlRegister 0x36 4, writeBlockingToLongAddress (fun _ => 7) 2 0,
        readBlockingFromLongAddress 0 3, readControlRegister 0x36] ⟨#v[0xFF, 0xFF], 0xFF⟩)
      ⟨.deselected, ⟨fun _ => 0, fun _ => 0⟩⟩ ops (mrf', [[], [], [7, 7, 0], [4]])
      ⟨.deselected, s'⟩ := by
  obtain ⟨⟨ops, mrf', ht, hr⟩, -⟩ := io_refines_memories ⟨#v[0xFF, 0xFF], 0xFF⟩
    ⟨fun _ => 0, fun _ => 0⟩ [setControlRegister 0x36 4, writeBlockingToLongAddress (fun _ => 7) 2 0,
      readBlockingFromLongAddress 0 3, readControlRegister 0x36] (by decide)
  exact ⟨ops, mrf', _, ht, hr⟩

end IoOperation

end Mac802154
