import Mac802154.HelpersForUsageWithoutCommModule
import Mac802154.MRF24J40.Theorems
import Mac802154.Mac802154MRFImpl.Theorems

namespace Mac802154

open Library

namespace HelpersForUsageWithoutCommModule

-- The helpers perform the same transactions as the driver, which only keeps
-- the command in its own memory besides.
theorem setRegister_eq (io : MrfIo) (address : UInt16) (value : UInt8) :
    setRegister address value = (io.setControlRegister address value).bind fun _ => .ret () := by
  unfold setRegister MrfIo.setControlRegister
  by_cases h : address > 0x3F
  · have hlong : isLongAddress address = true := decide_eq_true h
    simp only [if_pos h, hlong, ite_true]
    rw [setLongRegister, writeByteToLongAddress, ← io.commandBytes_setWriteLongCommand]
    rfl
  · have hshort : isLongAddress address = false := decide_eq_false h
    simp only [if_neg h, hshort]
    rw [setShortRegister, writeByteToShortAddress, ← io.commandBytes_setWriteShortCommand]
    rfl

theorem printRegister_eq (io : MrfIo) (address : UInt16) :
    printRegister address = (io.readControlRegister address).bind fun _ => .ret () := by
  unfold printRegister MrfIo.readControlRegister
  by_cases h : address > 0x3F
  · have hlong : isLongAddress address = true := decide_eq_true h
    simp only [if_pos h, hlong, ite_true]
    rw [readByteFromLongAddress, ← io.commandBytes_setReadLongCommand]
    rfl
  · have hshort : isLongAddress address = false := decide_eq_false h
    simp only [if_neg h, hshort]
    rw [readByteFromShortAddress, ← io.commandBytes_setReadShortCommand]
    rfl

section Writes

-- What the loop over consecutive addresses writes.
def byteWrites : (length : Nat) → (address : UInt8) → (data : BytePointer) → List RegisterWrite
  | 0, _, _ => []
  | length + 1, address, data =>
      (address.toUInt16, data 0) :: byteWrites length (address + 1) fun i => data (i + 1)

def tableWrites : List RegisterWrite :=
  register_value_pairs.map fun pair => (pair.1, pair.2.toUInt8)

def initMrfWrites : List RegisterWrite :=
  tableWrites ++ ((mrf_register_interrupt_control.toUInt16, 0xF6) ::
    (byteWrites 2 mrf_register_pan_id_low_byte (fun i => [0x34, 0x12].getD i 0) ++
      (byteWrites 2 mrf_register_short_address_low_byte (fun i => [0xBB, 0xBB].getD i 0) ++
        byteWrites 8 mrf_register_extended_address0
          fun i => [0x08, 0x07, 0x06, 0x05, 0x04, 0x03, 0x02, 0x01].getD i 0)))

variable {σ ε : Type} {device : Device σ} {occur : ε → σ → σ}

theorem setRegister_performs (address : UInt16) (value : UInt8) (haddress : address.toNat < 1024) :
    Performs device occur (setRegister address value) [(address, value)] fun _ => True := by
  rw [setRegister_eq ⟨Vector.replicate 2 0, 0⟩]
  exact (Performs.setControlRegister _ address value haddress).bind_nil fun _ _ => .ret trivial

theorem printRegister_performs (address : UInt16) (haddress : address.toNat < 1024)
    (hread : ∀ s, (device.read address s).2 = s) :
    Performs device occur (printRegister address) [] fun _ => True := by
  rw [printRegister_eq ⟨Vector.replicate 2 0, 0⟩]
  exact (Performs.readControlRegister _ address haddress hread).bind_nil fun _ _ => .ret trivial

theorem writeByteToShortAddress_performs (address byte : UInt8) (h : address.toNat < 64) :
    Performs device occur (writeByteToShortAddress address byte) [(address.toUInt16, byte)]
      fun _ => True := by
  have hlast : (0x3F : UInt16).toNat = 63 := rfl
  have hshort : ¬address.toUInt16 > 0x3F := by
    simp only [gt_iff_lt, UInt16.lt_iff_toNat_lt, UInt8.toNat_toUInt16]
    omega
  have heq : writeByteToShortAddress address byte = setRegister address.toUInt16 byte := by
    rw [setRegister, if_neg hshort, setShortRegister, UInt8.toUInt8_toUInt16]
  rw [heq]
  exact setRegister_performs _ byte (by rw [UInt8.toNat_toUInt16]; omega)

theorem writeBytesToShortAddress_performs (length : Nat) (address : UInt8) (data : BytePointer)
    (haddress : address.toNat + length ≤ 64) :
    Performs device occur (writeBytesToShortAddress length address data)
      (byteWrites length address data) fun _ => True := by
  induction length generalizing address data with
  | zero => exact .ret trivial
  | succ length ih =>
      have hnext : (address + 1).toNat = address.toNat + 1 := by
        rw [UInt8.toNat_add, UInt8.toNat_one]
        omega
      exact (writeByteToShortAddress_performs address (data 0) (by omega)).bind_cons fun _ _ =>
        ih (address + 1) _ (by omega)

-- The registers whose values are printed may be read without any effect.
theorem initMrf_performs
    (hread : ∀ pair ∈ register_value_pairs, ∀ s, (device.read pair.1 s).2 = s) :
    Performs device occur initMrf initMrfWrites fun _ => True := by
  have hall : register_value_pairs.all (fun pair => pair.1.toNat < 1024) = true := rfl
  have haddress (pair : UInt16 × UInt16) (hp : pair ∈ register_value_pairs) : pair.1.toNat < 1024 :=
    of_decide_eq_true (List.all_eq_true.mp hall pair hp)
  have hset (pair : UInt16 × UInt16) (hp : pair ∈ register_value_pairs) (_ : Unit) :
      Performs device occur (setRegister pair.1 pair.2.toUInt8) [(pair.1, pair.2.toUInt8)]
        fun _ => True :=
    setRegister_performs _ _ (haddress pair hp)
  have hprint (pair : UInt16 × UInt16) (hp : pair ∈ register_value_pairs) (_ : Unit) :
      Performs device occur (printRegister pair.1) [] fun _ => True :=
    printRegister_performs _ (haddress pair hp) (hread pair hp)
  have htable := Performs.foldlM register_value_pairs hset ()
  have hshow := Performs.foldlM register_value_pairs hprint ()
  have hdelay : Performs device occur (Program.perform (.delay_microseconds 1000) fun _ => .ret ()) []
      fun _ => True := .delay 1000 trivial
  rw [← List.map_eq_flatMap] at htable
  rw [List.flatMap_eq_nil_iff.mpr fun _ _ => rfl] at hshow
  refine hdelay.bind fun _ _ => htable.bind fun _ _ => ?_
  refine hshow.bind fun _ _ => (setRegister_performs _ _ (by decide)).bind fun _ _ => ?_
  refine (writeBytesToShortAddress_performs 2 _ _ (by decide)).bind fun _ _ => ?_
  refine (writeBytesToShortAddress_performs 2 _ _ (by decide)).bind fun _ _ => ?_
  exact writeBytesToShortAddress_performs 8 _ _ (by decide)

end Writes

section Tame

variable {loops : Bool}

theorem setRegister_tame (address : UInt16) (value : UInt8) :
    (setRegister address value).Tame loops := by
  rw [setRegister_eq ⟨Vector.replicate 2 0, 0⟩]
  exact (MrfIo.setControlRegister_tame _ address value).bind fun _ => .ret ()

theorem printRegister_tame (address : UInt16) : (printRegister address).Tame loops := by
  rw [printRegister_eq ⟨Vector.replicate 2 0, 0⟩]
  exact (MrfIo.readControlRegister_tame _ address).bind fun _ => .ret ()

theorem writeBytesToShortAddress_tame (length : Nat) (address : UInt8) (data : BytePointer) :
    (writeBytesToShortAddress length address data).Tame loops := by
  induction length generalizing address data with
  | zero => exact .ret ()
  | succ length ih =>
      have hbyte : (writeByteToShortAddress address (data 0)).Tame loops :=
        .perform fun _ => .perform fun _ => .perform fun _ => .perform fun _ => .ret ()
      exact hbyte.bind fun _ => ih (address + 1) _

theorem initMrf_tame : initMrf.Tame loops := by
  have hset : (register_value_pairs.foldlM (fun _ pair => setRegister pair.1 pair.2.toUInt8) ()).Tame
      loops := Program.Tame.foldlM (fun _ _ => setRegister_tame _ _) _ ()
  have hprint : (register_value_pairs.foldlM (fun _ pair => printRegister pair.1) ()).Tame loops :=
    Program.Tame.foldlM (fun _ _ => printRegister_tame _) _ ()
  refine (Program.Tame.perform fun _ => .ret ()).bind fun _ => hset.bind fun _ => ?_
  refine hprint.bind fun _ => (setRegister_tame _ _).bind fun _ => ?_
  refine (writeBytesToShortAddress_tame 2 _ _).bind fun _ => ?_
  refine (writeBytesToShortAddress_tame 2 _ _).bind fun _ => ?_
  exact writeBytesToShortAddress_tame 8 _ _

end Tame

end HelpersForUsageWithoutCommModule

open HelpersForUsageWithoutCommModule

variable (softwareReset : Chip → Memories)

-- Both sequences begin with the reset, and the rest of their writes decides.
private theorem register_writeAll_reset (writes : List RegisterWrite)
    (h : mrf_register_software_reset.toUInt16 ∉ writes.map Prod.fst) (chip : Chip)
    (address : UInt16) :
    ((Chip.device softwareReset).writeAll
        ((mrf_register_software_reset.toUInt16, mrf_value_full_software_reset) :: writes)
        chip).register address =
      (writtenLast isReset writes address).getD
        ((softwareReset chip).register address) := by
  have hreset (write : RegisterWrite) (hw : write ∈ writes) : isReset write = false := by
    have hne : write.1 ≠ mrf_register_software_reset.toUInt16 := fun he =>
      h (he ▸ List.mem_map_of_mem hw)
    rw [isReset, beq_false_of_ne hne, Bool.false_and]
  exact Chip.register_writeAll softwareReset writes hreset _ address

theorem reconfigure_registers [BitManipulation] (impl : Mrf) (config : Mac802154Config)
    (chip : Chip) : ∃ ops next bus, (Chip.machine softwareReset).Returns (impl.reconfigure config)
      ⟨.deselected, chip⟩ ops next bus ∧ ∀ address, bus.device.register address =
        (writtenLast isReset (configureWrites config).tail address).getD
          ((softwareReset chip).register address) := by
  have hreturns : ∃ ops next last, (Chip.machine softwareReset).Returns (impl.reconfigure config)
      ⟨.deselected, chip⟩ ops next last ∧
        last.device = (Chip.device softwareReset).writeAll (configureWrites config) chip ∧ _ :=
    (impl.reconfigure_performs config).returns (impl.reconfigure_tame config) _
  obtain ⟨ops, next, bus, hr, hbus, -⟩ := hreturns
  refine ⟨ops, next, bus, hr, fun address => ?_⟩
  rw [hbus]
  exact register_writeAll_reset softwareReset _ (of_decide_eq_true rfl) chip address

theorem initMrf_registers (chip : Chip) :
    ∃ ops bus, (Chip.machine softwareReset).Returns initMrf ⟨.deselected, chip⟩ ops () bus ∧
      ∀ address, bus.device.register address =
        (writtenLast isReset initMrfWrites.tail address).getD
          ((softwareReset chip).register address) := by
  have hstatus : mrf_register_interrupt_status.toUInt16 ∉ register_value_pairs.map Prod.fst :=
    of_decide_eq_true rfl
  have hread (pair : UInt16 × UInt16) (hp : pair ∈ register_value_pairs) (chip : Chip) :
      ((Chip.device softwareReset).read pair.1 chip).2 = chip :=
    Chip.read_eq softwareReset pair.1 chip fun he => hstatus (he ▸ List.mem_map_of_mem hp)
  have hreturns : ∃ ops a last, (Chip.machine softwareReset).Returns initMrf ⟨.deselected, chip⟩
      ops a last ∧ last.device = (Chip.device softwareReset).writeAll initMrfWrites chip ∧ True :=
    (initMrf_performs hread).returns initMrf_tame _
  obtain ⟨ops, _, bus, hr, hbus, -⟩ := hreturns
  refine ⟨ops, bus, hr, fun address => ?_⟩
  rw [hbus]
  exact register_writeAll_reset softwareReset _ (of_decide_eq_true rfl) chip address

-- The driver's writes to the registers that the identity does not name.
def settingWrites (channel : UInt8) : List RegisterWrite :=
  initializationValues ++
    [(mrf_register_interrupt_control.toUInt16, ~~~((1 : UInt8) <<< 3)),
      (mrf_register_rf_control0, MRF_getRegisterValueForChannelNumber channel),
      (mrf_register_rf_mode_control.toUInt16, mrf_value_rf_state_machine_reset_state),
      (mrf_register_rf_mode_control.toUInt16, mrf_value_rf_state_machine_operating_state),
      (mrf_register_rf_control3, mrf_value_transmitter_power_0dB)]

theorem writtenLast_configure (config : Mac802154Config) (pair : UInt16 × UInt16)
    (hp : pair ∈ register_value_pairs) :
    writtenLast isReset (configureWrites config).tail pair.1 =
      writtenLast isReset (settingWrites config.channel) pair.1 := by
  obtain ⟨identity, hidentity, hfirst⟩ : ∃ identity : List RegisterWrite,
      (configureWrites config).tail = settingWrites config.channel ++ identity ∧
        identity.map Prod.fst = ((List.range 2).map fun i => UInt16.ofNat (3 + i)) ++
          (((List.range 8).map fun i => UInt16.ofNat (5 + i)) ++
            (List.range 2).map fun i => UInt16.ofNat (1 + i)) :=
    ⟨_, rfl, rfl⟩
  have hall : (identity.map Prod.fst).all (fun address =>
      address != mrf_register_software_reset.toUInt16 &&
        register_value_pairs.all fun pair => pair.1 != address) = true := by
    rw [hfirst]
    decide
  rw [hidentity]
  refine writtenLast_append_of_not_mem isReset _ identity pair.1 fun write hw => ?_
  have hwrite := List.all_eq_true.mp hall write.1 (List.mem_map_of_mem hw)
  rw [Bool.and_eq_true, List.all_eq_true] at hwrite
  refine ⟨?_, bne_iff_ne.mp (hwrite.2 pair hp)⟩
  rw [isReset, beq_false_of_ne (bne_iff_ne.mp hwrite.1), Bool.false_and]

-- The rest of the writes, at the registers of the table.
theorem writtenLast_table (pair : UInt16 × UInt16) (hp : pair ∈ register_value_pairs)
    (hcontrol : pair.1 ≠ mrf_register_interrupt_control.toUInt16)
    (hamplifier : pair.1 ≠ mrf_register_power_amplifier_control2.toUInt16) :
    writtenLast isReset (settingWrites 12) pair.1 =
      writtenLast isReset initMrfWrites.tail pair.1 := by
  have hall : register_value_pairs.all (fun pair =>
      pair.1 == mrf_register_interrupt_control.toUInt16 ||
        (pair.1 == mrf_register_power_amplifier_control2.toUInt16 ||
          writtenLast isReset (settingWrites 12) pair.1 ==
            writtenLast isReset initMrfWrites.tail pair.1)) = true := by
    decide
  have hpair := List.all_eq_true.mp hall pair hp
  rw [beq_false_of_ne hcontrol, beq_false_of_ne hamplifier, Bool.false_or, Bool.false_or] at hpair
  exact eq_of_beq hpair

theorem writtenLast_amplifier :
    writtenLast isReset (settingWrites 12)
        mrf_register_power_amplifier_control2.toUInt16 = some 0x18 ∧
      writtenLast isReset initMrfWrites.tail
        mrf_register_power_amplifier_control2.toUInt16 = some 0x98 :=
  ⟨by decide, by decide⟩

-- The bit that enables the FIFO is shifted out of the byte, so that it is
-- missing in the one register.
private theorem written_eq_iff (config : Mac802154Config) (hchannel : config.channel = 12)
    (pair : UInt16 × UInt16) (hp : pair ∈ register_value_pairs)
    (hcontrol : pair.1 ≠ mrf_register_interrupt_control.toUInt16) (before : UInt8) :
    (writtenLast isReset (configureWrites config).tail pair.1).getD before =
        (writtenLast isReset initMrfWrites.tail pair.1).getD before ↔
      pair.1 ≠ mrf_register_power_amplifier_control2.toUInt16 := by
  rw [writtenLast_configure config pair hp, hchannel]
  by_cases hamplifier : pair.1 = mrf_register_power_amplifier_control2.toUInt16
  · obtain ⟨hdriver, htable⟩ := writtenLast_amplifier
    rw [hamplifier, hdriver, htable, Option.getD_some, Option.getD_some]
    exact ⟨fun h => absurd h (by decide), fun h => absurd rfl h⟩
  · rw [writtenLast_table pair hp hcontrol hamplifier]
    exact ⟨fun _ => hamplifier, fun _ => rfl⟩

-- Whatever the chip held before, the two sequences leave the same in every
-- register of the table but that one, so they never agree as a whole.
theorem initialization_agrees_iff [BitManipulation] (impl : Mrf) (config : Mac802154Config)
    (hchannel : config.channel = 12) (chip : Chip) :
    ∃ ops next bus ops' bus',
      (Chip.machine softwareReset).Returns (impl.reconfigure config) ⟨.deselected, chip⟩
        ops next bus ∧
      (Chip.machine softwareReset).Returns initMrf ⟨.deselected, chip⟩ ops' () bus' ∧
      (∀ pair ∈ register_value_pairs, pair.1 ≠ mrf_register_interrupt_control.toUInt16 →
        (bus.device.register pair.1 = bus'.device.register pair.1 ↔
          pair.1 ≠ mrf_register_power_amplifier_control2.toUInt16)) ∧
      ¬∀ pair ∈ register_value_pairs, pair.1 ≠ mrf_register_interrupt_control.toUInt16 →
        bus.device.register pair.1 = bus'.device.register pair.1 := by
  obtain ⟨ops, next, bus, hr, hregister⟩ := reconfigure_registers softwareReset impl config chip
  obtain ⟨ops', bus', hr', hregister'⟩ := initMrf_registers softwareReset chip
  have hiff (pair : UInt16 × UInt16) (hp : pair ∈ register_value_pairs)
      (hcontrol : pair.1 ≠ mrf_register_interrupt_control.toUInt16) :
      bus.device.register pair.1 = bus'.device.register pair.1 ↔
        pair.1 ≠ mrf_register_power_amplifier_control2.toUInt16 := by
    rw [hregister, hregister']
    exact written_eq_iff config hchannel pair hp hcontrol _
  refine ⟨ops, next, bus, ops', bus', hr, hr', hiff, fun hall => ?_⟩
  have hmem : (mrf_register_power_amplifier_control2.toUInt16, 0x98) ∈ register_value_pairs :=
    of_decide_eq_true rfl
  have hcontrol : mrf_register_power_amplifier_control2.toUInt16 ≠
      mrf_register_interrupt_control.toUInt16 := of_decide_eq_true rfl
  exact (hiff _ hmem hcontrol).mp (hall _ hmem hcontrol) rfl

theorem initialization_agrees_rf_control6 :
    ∃ ops next bus ops' bus',
      (Chip.machine fun _ => ⟨fun _ => 0, fun _ => 0⟩).Returns
        (@Mrf.reconfigure BitManipulation.reference Mrf.zeroed
          ⟨#v[0xAA, 0xAA], #v[8, 7, 6, 5, 4, 3, 2, 1], #v[0xCC, 0xDD], 12⟩)
        ⟨.deselected, ⟨⟨fun _ => 0xFF, fun _ => 0xFF⟩, []⟩⟩ ops next bus ∧
      (Chip.machine fun _ => ⟨fun _ => 0, fun _ => 0⟩).Returns initMrf
        ⟨.deselected, ⟨⟨fun _ => 0xFF, fun _ => 0xFF⟩, []⟩⟩ ops' () bus' ∧
      bus.device.register mrf_register_rf_control6 = bus'.device.register mrf_register_rf_control6 := by
  obtain ⟨ops, next, bus, ops', bus', hr, hr', hiff, -⟩ := @initialization_agrees_iff
    (fun _ => ⟨fun _ => 0, fun _ => 0⟩) BitManipulation.reference Mrf.zeroed
    ⟨#v[0xAA, 0xAA], #v[8, 7, 6, 5, 4, 3, 2, 1], #v[0xCC, 0xDD], 12⟩ rfl
    ⟨⟨fun _ => 0xFF, fun _ => 0xFF⟩, []⟩
  have hmem : (mrf_register_rf_control6, 0x90) ∈ register_value_pairs := of_decide_eq_true rfl
  exact ⟨ops, next, bus, ops', bus', hr, hr', (hiff _ hmem (of_decide_eq_true rfl)).mpr
    (of_decide_eq_true rfl)⟩

-- After both, the register differs by its topmost bit.
theorem initialization_differs :
    ∃ ops next bus ops' bus',
      (Chip.machine fun _ => ⟨fun _ => 0, fun _ => 0⟩).Returns
        (@Mrf.reconfigure BitManipulation.reference Mrf.zeroed
          ⟨#v[0xAA, 0xAA], #v[8, 7, 6, 5, 4, 3, 2, 1], #v[0xCC, 0xDD], 12⟩)
        ⟨.deselected, ⟨⟨fun _ => 0xFF, fun _ => 0xFF⟩, []⟩⟩ ops next bus ∧
      (Chip.machine fun _ => ⟨fun _ => 0, fun _ => 0⟩).Returns initMrf
        ⟨.deselected, ⟨⟨fun _ => 0xFF, fun _ => 0xFF⟩, []⟩⟩ ops' () bus' ∧
      ¬∀ pair ∈ register_value_pairs, pair.1 ≠ mrf_register_interrupt_control.toUInt16 →
        bus.device.register pair.1 = bus'.device.register pair.1 := by
  obtain ⟨ops, next, bus, hr, hregister⟩ := @reconfigure_registers
    (fun _ => ⟨fun _ => 0, fun _ => 0⟩) BitManipulation.reference Mrf.zeroed
    ⟨#v[0xAA, 0xAA], #v[8, 7, 6, 5, 4, 3, 2, 1], #v[0xCC, 0xDD], 12⟩
    ⟨⟨fun _ => 0xFF, fun _ => 0xFF⟩, []⟩
  obtain ⟨ops', bus', hr', hregister'⟩ := initMrf_registers (fun _ => ⟨fun _ => 0, fun _ => 0⟩)
    ⟨⟨fun _ => 0xFF, fun _ => 0xFF⟩, []⟩
  refine ⟨ops, next, bus, ops', bus', hr, hr', fun hall => ?_⟩
  have hmem : (mrf_register_power_amplifier_control2.toUInt16, 0x98) ∈ register_value_pairs :=
    of_decide_eq_true rfl
  have h := hall _ hmem (of_decide_eq_true rfl)
  rw [hregister, hregister'] at h
  exact (written_eq_iff _ rfl _ hmem (of_decide_eq_true rfl) _).mp h rfl

end Mac802154
