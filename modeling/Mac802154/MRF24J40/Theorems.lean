import Mac802154.MRF24J40
import Mac802154.MrfIo.RegisterWrites

namespace Mac802154

open Library

-- The driver writes all registers but these two kinds itself: the chip changes
-- the interrupt status and the RX FIFO.
def Volatile (address : UInt16) : Prop :=
  address = mrf_register_interrupt_status.toUInt16 ∨
    mrf_rx_fifo_start.toNat ≤ address.toNat ∧
      address.toNat < mrf_rx_fifo_start.toNat + mrf_rx_fifo_length

instance (address : UInt16) : Decidable (Volatile address) :=
  inferInstanceAs (Decidable (_ ∨ _))

def isReset (write : RegisterWrite) : Bool :=
  write.1 == mrf_register_software_reset.toUInt16 && write.2 == mrf_value_full_software_reset

namespace Chip

theorem short_occur (e : ChipEvent) (chip : Chip) (i : Nat)
    (h : i ≠ mrf_register_interrupt_status.toNat) :
    (occur e chip).memories.short i = chip.memories.short i := by
  have hkeep (memory : Memory) (byte : UInt8) :
      memory.overwrite mrf_register_interrupt_status.toNat [byte] i = memory i :=
    Memory.overwrite_of_not_mem _ _ _ _ (by simp only [List.length_singleton]; omega)
  cases e with
  | arrival frame =>
      simp only [occur]
      split
      · exact hkeep _ _
      · rfl
  | transmissionFinished => exact hkeep _ _

theorem long_occur (e : ChipEvent) (chip : Chip) (i : Nat)
    (h : i < mrf_rx_fifo_start.toNat ∨ mrf_rx_fifo_start.toNat + mrf_rx_fifo_length ≤ i) :
    (occur e chip).memories.long i = chip.memories.long i := by
  cases e with
  | arrival frame =>
      simp only [occur]
      split
      · exact Memory.overwrite_of_not_mem _ _ _ _ (by rwa [Vector.length_toList])
      · rfl
  | transmissionFinished => rfl

theorem register_occur (e : ChipEvent) (chip : Chip) (address : UInt16) (h : ¬Volatile address) :
    (occur e chip).register address = chip.register address := by
  unfold Volatile at h
  unfold register Memories.register
  split
  · exact long_occur e chip address.toNat (by omega)
  · refine short_occur e chip address.toNat fun he => h (.inl ?_)
    rwa [← UInt16.toNat_inj, UInt8.toNat_toUInt16]

section Device

variable (softwareReset : Chip → Memories)

theorem writeLongs_eq (address : Nat) (bytes : List UInt8) (chip : Chip) :
    (device softwareReset).writeLongs address bytes chip =
      { chip with memories :=
        { chip.memories with long := chip.memories.long.overwrite address bytes } } := by
  induction bytes generalizing address chip with
  | nil => simp [Device.writeLongs]
  | cons byte bytes ih =>
      rw [Device.writeLongs, ih, Memory.overwrite_cons]
      rfl

theorem readLongs_eq (address n : Nat) (chip : Chip) :
    (device softwareReset).readLongs address n chip = (chip.memories.long.contents address n, chip) := by
  induction n generalizing address with
  | zero => rfl
  | succ n ih =>
      have hfirst : (device softwareReset).readLong address chip =
          (chip.memories.long address, chip) := rfl
      simp only [Device.readLongs, hfirst, ih, Memory.contents_succ]

theorem read_status (chip : Chip) :
    (device softwareReset).read mrf_register_interrupt_status.toUInt16 chip =
      (chip.memories.short mrf_register_interrupt_status.toNat,
        Chip.log { chip with memories := setStatus chip.memories 0 } .statusRead) := rfl

theorem read_eq (address : UInt16) (chip : Chip)
    (h : address ≠ mrf_register_interrupt_status.toUInt16) :
    ((device softwareReset).read address chip).2 = chip := by
  have hnat : address.toNat ≠ mrf_register_interrupt_status.toNat := fun he =>
    h (by rwa [← UInt16.toNat_inj, UInt8.toNat_toUInt16])
  unfold Device.read
  split
  · rfl
  · simp only [device, if_neg hnat]
    rfl

theorem write_trigger (chip : Chip) :
    (device softwareReset).write mrf_register_tx_normal_fifo_control.toUInt16 1 chip =
      Chip.log { chip with memories :=
          Memories.device.write mrf_register_tx_normal_fifo_control.toUInt16 1 chip.memories }
        (.transmission chip.memories.long) := rfl

-- Everything that a write can do: a reset, setting its register, or setting it
-- and triggering a transmission.
theorem write_cases (write : RegisterWrite) (chip : Chip) :
    (isReset write = true ∧ (device softwareReset).write write.1 write.2 chip =
      Chip.log { chip with memories := softwareReset chip } .softwareReset) ∨
    (isReset write = false ∧ (device softwareReset).write write.1 write.2 chip =
      { chip with memories := Memories.device.write write.1 write.2 chip.memories }) ∨
    (isReset write = false ∧ write.1 = mrf_register_tx_normal_fifo_control.toUInt16 ∧
      (device softwareReset).write write.1 write.2 chip =
        Chip.log { chip with memories := Memories.device.write write.1 write.2 chip.memories }
          (.transmission chip.memories.long)) := by
  obtain ⟨address, value⟩ := write
  have haddress (register : UInt8) (he : address.toNat = register.toNat) :
      address = register.toUInt16 := by
    rwa [← UInt16.toNat_inj, UInt8.toNat_toUInt16]
  by_cases hr : isReset (address, value) = true
  · have he := hr
    simp only [isReset, Bool.and_eq_true, beq_iff_eq] at he
    obtain ⟨rfl, rfl⟩ := he
    exact .inl ⟨hr, rfl⟩
  · have hr : isReset (address, value) = false := by simpa using hr
    simp only [Device.write]
    split
    · exact .inr (.inl ⟨hr, rfl⟩)
    · simp only [device]
      split
      · rename_i hreset
        obtain ⟨ha, rfl⟩ := hreset
        obtain rfl := haddress _ ha
        cases hr
      · split
        · rename_i htrigger
          exact .inr (.inr ⟨hr, haddress _ htrigger.1, rfl⟩)
        · exact .inr (.inl ⟨hr, rfl⟩)

theorem register_write (write : RegisterWrite) (chip : Chip) (h : isReset write = false)
    (other : UInt16) :
    ((device softwareReset).write write.1 write.2 chip).register other =
      if other = write.1 then write.2 else chip.register other := by
  have hset := Memories.register_write write.1 write.2 chip.memories other
  rcases write_cases softwareReset write chip with ⟨hr, -⟩ | ⟨-, he⟩ | ⟨-, -, he⟩
  · rw [h] at hr
    cases hr
  · rw [he]
    exact hset
  · rw [he]
    exact hset

-- After a reset is out of the way, a register holds what was last written to it,
-- or what it held before.
theorem register_writeAll (writes : List RegisterWrite)
    (h : ∀ write ∈ writes, isReset write = false) (chip : Chip) (address : UInt16) :
    ((device softwareReset).writeAll writes chip).register address =
      (writtenLast isReset writes address).getD (chip.register address) := by
  induction writes using List.reverseRecOn with
  | nil => rfl
  | append_singleton writes write ih =>
      have hwrite := h write (List.mem_append_right _ List.mem_cons_self)
      have hbefore := ih fun w hw => h w (List.mem_append_left _ hw)
      rw [Device.writeAll, List.foldl_append, List.foldl_cons, List.foldl_nil,
        register_write softwareReset write _ hwrite, writtenLast_append, hwrite]
      by_cases he : address = write.1
      · simp only [he, ite_true, Bool.false_eq_true, ite_false, Option.getD_some]
      · simp only [he, Bool.false_eq_true, ite_false]
        exact hbefore

end Device

-- The registers hold what was last written to them.
def Shows (writes : List RegisterWrite) (chip : Chip) : Prop :=
  ∀ address value, ¬Volatile address → writtenLast isReset writes address = some value →
    chip.register address = value

theorem Shows.occur {writes : List RegisterWrite} {chip : Chip} (h : chip.Shows writes)
    (e : ChipEvent) : (Chip.occur e chip).Shows writes := by
  intro address value hv hw
  rw [register_occur e chip address hv]
  exact h address value hv hw

theorem Shows.write (softwareReset : Chip → Memories) {writes : List RegisterWrite} {chip : Chip}
    (h : chip.Shows writes) (write : RegisterWrite) :
    ((device softwareReset).write write.1 write.2 chip).Shows (writes ++ [write]) := by
  intro address value hv hw
  rw [writtenLast_append] at hw
  by_cases hr : isReset write
  · rw [if_pos hr] at hw
    cases hw
  · rw [if_neg hr] at hw
    rw [register_write softwareReset write chip (by simpa using hr)]
    by_cases he : address = write.1
    · rw [if_pos he] at hw ⊢
      exact Option.some.inj hw
    · rw [if_neg he] at hw ⊢
      exact h address value hv hw

end Chip

end Mac802154
