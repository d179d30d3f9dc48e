import Mac802154.FrameHeader802154.SequenceNumber

namespace Mac802154

open Library FrameHeader802154

-- Every public operation that changes a header.
inductive HeaderOperation where
  | field (setter : FieldSetter)
  | setSequenceNumber (number : UInt8)
  | enableSequenceNumberSuppression
  | disableSequenceNumberSuppression

namespace HeaderOperation

def apply [BitManipulation] (operation : HeaderOperation) (self : FrameHeader802154) :
    Checked FrameHeader802154 :=
  match operation with
  | field setter => setter.apply self
  | setSequenceNumber number => self.setSequenceNumber number
  | enableSequenceNumberSuppression => .ok self.enableSequenceNumberSuppression
  | disableSequenceNumberSuppression => .ok self.disableSequenceNumberSuppression

end HeaderOperation

namespace FrameHeader802154

variable [BitManipulation]

theorem getHeaderSize_le (self : FrameHeader802154) :
    self.getHeaderSize.toNat ≤ MAXIMUM_HEADER_SIZE := by
  have hq := getSequenceNumberSize_le self
  have hs := getAddressSize_le self.getSourceAddressingMode
  have hd := getAddressSize_le self.getDestinationAddressingMode
  have hp := getPanIdSize_eq self
  rw [toNat_getHeaderSize, getSourceAddressSize, getDestinationAddressSize]
  unfold MAXIMUM_HEADER_SIZE
  split at hp <;> omega

-- Only both addresses extended behind a sequence number fill the array, and
-- two extended addresses count as a present pan id.
theorem getHeaderSize_eq_maximum_iff (self : FrameHeader802154) :
    self.getHeaderSize.toNat = MAXIMUM_HEADER_SIZE ↔ self.getSequenceNumberSize.toNat = 1 ∧
      self.getDestinationAddressSize.toNat = 8 ∧ self.getSourceAddressSize.toNat = 8 := by
  have hq := getSequenceNumberSize_le self
  have hp := getPanIdSize_eq self
  have hsize := toNat_getHeaderSize self
  unfold MAXIMUM_HEADER_SIZE
  rw [getSourceAddressSize, getDestinationAddressSize] at *
  rcases toNat_getAddressSize self.getSourceAddressingMode with ⟨hs, hsm⟩ | ⟨hs, hsm⟩ | ⟨hs, hsm⟩ <;>
    rcases toNat_getAddressSize self.getDestinationAddressingMode with
      ⟨hd, hdm⟩ | ⟨hd, hdm⟩ | ⟨hd, hdm⟩
  case inl.inl =>
    have hpresent : self.panIdIsPresent = true := by
      rw [panIdIsPresent, hsm, hdm]
      rfl
    rw [hpresent] at hp
    simp only [ite_true] at hp
    omega
  all_goals
    split at hp <;> omega

theorem copyBytes_ok (self : FrameHeader802154) {m : Nat} (source : Vector UInt8 m)
    (destination : Nat) (count : UInt8) (hin : destination + count.toNat ≤ MAXIMUM_HEADER_SIZE) :
    ∃ next, self.copyBytes source destination count = .ok next :=
  ⟨_, if_pos hin⟩

theorem getDestinationAddressOffset_le (self : FrameHeader802154) :
    self.getDestinationAddressOffset.toNat ≤ 5 := by
  have := getSequenceNumberSize_le self
  rw [toNat_getDestinationAddressOffset]
  omega

theorem getSourceAddressOffset_le (self : FrameHeader802154) :
    self.getSourceAddressOffset.toNat ≤ 13 := by
  have := getSequenceNumberSize_le self
  have := getAddressSize_le self.getDestinationAddressingMode
  rw [toNat_getSourceAddressOffset, getDestinationAddressSize]
  omega

-- From here on nothing is known about the bytes of the header.
theorem setPanId_ok (self : FrameHeader802154) (pan_id : Vector UInt8 2) :
    ∃ next, self.setPanId pan_id = .ok next := by
  obtain ⟨first, second, rest, hl⟩ := exists_toList self
  obtain ⟨next, hnext, -⟩ := setPanId_toList hl pan_id
  exact ⟨next, hnext⟩

theorem setShortSourceAddress_ok (self : FrameHeader802154) (address : Vector UInt8 2) :
    ∃ next, self.setShortSourceAddress address = .ok next := by
  have hoffset := getSourceAddressOffset_le self
  obtain ⟨copied, hcopied⟩ := copyBytes_ok self address self.getSourceAddressOffset.toNat 2
    (by unfold MAXIMUM_HEADER_SIZE; simp; omega)
  exact ⟨_, by rw [setShortSourceAddress, hcopied]; rfl⟩

theorem setExtendedSourceAddress_ok (self : FrameHeader802154) (address : Vector UInt8 8) :
    ∃ next, self.setExtendedSourceAddress address = .ok next := by
  have hoffset := getSourceAddressOffset_le self
  obtain ⟨copied, hcopied⟩ := copyBytes_ok self address self.getSourceAddressOffset.toNat 8
    (by unfold MAXIMUM_HEADER_SIZE; simp; omega)
  exact ⟨_, by rw [setExtendedSourceAddress, hcopied]; rfl⟩

-- A source address moves away from a short destination and towards an extended one.
theorem moveSourceAddress_ok (self : FrameHeader802154) :
    (self.getDestinationAddressingMode = ADDRESSING_MODE_SHORT_ADDRESS →
      ∃ moved, self.moveSourceAddress
        (sizeDifference ADDRESSING_MODE_EXTENDED_ADDRESS ADDRESSING_MODE_SHORT_ADDRESS) = .ok moved) ∧
    (self.getDestinationAddressingMode = ADDRESSING_MODE_EXTENDED_ADDRESS →
      ∃ moved, self.moveSourceAddress
        (sizeDifference ADDRESSING_MODE_SHORT_ADDRESS ADDRESSING_MODE_EXTENDED_ADDRESS) =
          .ok moved) := by
  obtain ⟨first, second, rest, hl⟩ := exists_toList self
  have hq := getSequenceNumberSize_le self
  have hs : self.getSourceAddressSize.toNat ≤ 8 := getAddressSize_le _
  have hoffset := toNat_getSourceAddressOffset self
  have hsix : (sizeDifference ADDRESSING_MODE_EXTENDED_ADDRESS
    ADDRESSING_MODE_SHORT_ADDRESS).toUInt8.toNat = 6 := rfl
  constructor
  · intro hmode
    have hd : self.getDestinationAddressSize.toNat = 2 := by
      rw [getDestinationAddressSize, hmode]
      rfl
    obtain ⟨moved, hmoved, -⟩ := moveSourceAddress_right hl
      (sizeDifference ADDRESSING_MODE_EXTENDED_ADDRESS ADDRESSING_MODE_SHORT_ADDRESS)
      (self.getSourceAddressOffset.toNat - 2) (by decide) (by omega)
      (fun _ => by unfold MAXIMUM_HEADER_SIZE; omega)
    exact ⟨moved, hmoved⟩
  · intro hmode
    have hd : self.getDestinationAddressSize.toNat = 8 := by
      rw [getDestinationAddressSize, hmode]
      rfl
    obtain ⟨moved, hmoved, -⟩ := moveSourceAddress_left hl
      (sizeDifference ADDRESSING_MODE_SHORT_ADDRESS ADDRESSING_MODE_EXTENDED_ADDRESS) 6
      (self.getSourceAddressOffset.toNat - 2) rfl (by omega) (by omega)
      (fun _ => by unfold MAXIMUM_HEADER_SIZE; omega)
    exact ⟨moved, hmoved⟩

theorem setExtendedDestinationAddress_ok (self : FrameHeader802154) (address : Vector UInt8 8) :
    ∃ next, self.setExtendedDestinationAddress address = .ok next := by
  have hmoved : ∃ moved, (if self.getDestinationAddressingMode = ADDRESSING_MODE_SHORT_ADDRESS then
      self.moveSourceAddress
        (sizeDifference ADDRESSING_MODE_EXTENDED_ADDRESS ADDRESSING_MODE_SHORT_ADDRESS)
      else .ok self) = .ok moved := by
    split
    · exact (moveSourceAddress_ok self).1 (by assumption)
    · exact ⟨self, rfl⟩
  obtain ⟨moved, hmoved⟩ := hmoved
  have hoffset := getDestinationAddressOffset_le self
  obtain ⟨copied, hcopied⟩ := copyBytes_ok
    (if moved.getSourceAddressingMode = ADDRESSING_MODE_EXTENDED_ADDRESS then
      moved.disablePanIdCompression else moved)
    address self.getDestinationAddressOffset.toNat 8 (by unfold MAXIMUM_HEADER_SIZE; simp; omega)
  refine ⟨copied.setDestinationAddressingMode ADDRESSING_MODE_EXTENDED_ADDRESS, ?_⟩
  rw [setExtendedDestinationAddress, hmoved, ok_bind]
  dsimp only
  rw [hcopied]
  rfl

theorem setShortDestinationAddress_ok (self : FrameHeader802154) (address : Vector UInt8 2) :
    ∃ next, self.setShortDestinationAddress address = .ok next := by
  have hmoved : ∃ moved,
      (if self.getDestinationAddressingMode = ADDRESSING_MODE_EXTENDED_ADDRESS then
        self.moveSourceAddress
          (sizeDifference ADDRESSING_MODE_SHORT_ADDRESS ADDRESSING_MODE_EXTENDED_ADDRESS)
      else .ok self) = .ok moved := by
    split
    · exact (moveSourceAddress_ok self).2 (by assumption)
    · exact ⟨self, rfl⟩
  obtain ⟨moved, hmoved⟩ := hmoved
  have hoffset := getDestinationAddressOffset_le moved
  obtain ⟨copied, hcopied⟩ := copyBytes_ok moved.enablePanIdCompression address
    moved.getDestinationAddressOffset.toNat 2 (by unfold MAXIMUM_HEADER_SIZE; simp; omega)
  refine ⟨copied.setDestinationAddressingMode ADDRESSING_MODE_SHORT_ADDRESS, ?_⟩
  rw [setShortDestinationAddress, hmoved, ok_bind]
  dsimp only
  rw [hcopied]
  rfl

theorem setter_ok (self : FrameHeader802154) (setter : FieldSetter) :
    ∃ next, setter.apply self = .ok next := by
  cases setter with
  | setPanId pan_id => exact setPanId_ok self pan_id
  | setShortSourceAddress address => exact setShortSourceAddress_ok self address
  | setExtendedSourceAddress address => exact setExtendedSourceAddress_ok self address
  | setShortDestinationAddress address => exact setShortDestinationAddress_ok self address
  | setExtendedDestinationAddress address => exact setExtendedDestinationAddress_ok self address
  | enableAcknowledgementRequest => exact ⟨_, rfl⟩

theorem setSequenceNumber_ok_iff (self : FrameHeader802154) (number : UInt8) :
    (∃ next, self.setSequenceNumber number = .ok next) ↔
      self.getHeaderSize.toNat ≠ MAXIMUM_HEADER_SIZE := by
  rw [Ne, getHeaderSize_eq_maximum_iff]
  constructor
  · rintro ⟨next, hnext⟩ ⟨hq, hd, hs⟩
    rw [setSequenceNumber_outOfBounds hq hd hs number] at hnext
    cases hnext
  · intro hroom
    obtain ⟨first, second, rest, hl⟩ := exists_toList self
    obtain ⟨next, hnext, -⟩ := setSequenceNumber_toList hl number (fun hpos => by
      have hq := getSequenceNumberSize_le self
      have hoffset := toNat_getSourceAddressOffset self
      rw [getSourceAddressSize, getDestinationAddressSize] at *
      unfold MAXIMUM_HEADER_SIZE
      rcases toNat_getAddressSize self.getSourceAddressingMode with ⟨hs, -⟩ | ⟨hs, -⟩ | ⟨hs, -⟩ <;>
        rcases toNat_getAddressSize self.getDestinationAddressingMode with
          ⟨hd, -⟩ | ⟨hd, -⟩ | ⟨hd, -⟩ <;>
        omega)
    exact ⟨next, hnext⟩

theorem operation_ok_iff (self : FrameHeader802154) (operation : HeaderOperation) :
    (∃ next, operation.apply self = .ok next) ↔
      ∀ number, operation = .setSequenceNumber number →
        self.getHeaderSize.toNat ≠ MAXIMUM_HEADER_SIZE := by
  cases operation with
  | field setter => simpa [HeaderOperation.apply] using setter_ok self setter
  | setSequenceNumber number =>
      simpa [HeaderOperation.apply] using setSequenceNumber_ok_iff self number
  | enableSequenceNumberSuppression => simp [HeaderOperation.apply]
  | disableSequenceNumberSuppression => simp [HeaderOperation.apply]

-- A run stays inside the array exactly if no sequence number is set in a
-- header that is full, and a header that is reached is never too long.
theorem operations_stay_inside_iff (prior : FrameHeader802154)
    (operations : List HeaderOperation) :
    (∃ last, runAll HeaderOperation.apply operations prior.init = .ok last ∧
      last.getHeaderSize.toNat ≤ MAXIMUM_HEADER_SIZE) ↔
      ∀ before number after, operations = before ++ .setSequenceNumber number :: after →
        ∀ header, runAll HeaderOperation.apply before prior.init = .ok header →
          header.getHeaderSize.toNat ≠ MAXIMUM_HEADER_SIZE := by
  have hiff := runAll_ok_iff HeaderOperation.apply
    (fun operation self => ∀ number, operation = .setSequenceNumber number →
      self.getHeaderSize.toNat ≠ MAXIMUM_HEADER_SIZE)
    (fun operation self => operation_ok_iff self operation) operations prior.init
  constructor
  · rintro ⟨last, hlast, -⟩ before number after he header hheader
    exact hiff.mp ⟨last, hlast⟩ before _ after he header hheader number rfl
  · intro hroom
    obtain ⟨last, hlast⟩ := hiff.mpr (fun before operation after he header hheader number hset =>
      hroom before number after (by rw [he, hset]) header hheader)
    exact ⟨last, hlast, getHeaderSize_le last⟩

omit [BitManipulation] in
theorem setSequenceNumber_overruns_full_header :
    runAll (@HeaderOperation.apply BitManipulation.reference)
      [.field (.setExtendedDestinationAddress (Vector.replicate 8 0xFF)),
        .field (.setExtendedSourceAddress (Vector.replicate 8 0xFF)), .setSequenceNumber 0xFF]
      (@init BitManipulation.reference ⟨Vector.replicate 21 0⟩) = .error (.outOfBounds 21) := by
  decide +kernel

end FrameHeader802154

end Mac802154
