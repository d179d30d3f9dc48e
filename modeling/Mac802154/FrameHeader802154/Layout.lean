import Mac802154.FrameHeader802154.Moves

namespace Mac802154.FrameHeader802154

open Library BitManipulation

-- Every lemma here speaks of a header as its two control bytes and the bytes
-- behind them; positions in the header are therefore two more than in `rest`.
variable {self : FrameHeader802154} {first second : UInt8} {rest : List UInt8}

theorem exists_toList (self : FrameHeader802154) :
    ∃ first second rest, self.data.toList = first :: second :: rest := by
  have hlen : self.data.toList.length = MAXIMUM_HEADER_SIZE := by simp
  match h : self.data.toList with
  | [] | [_] => simp [h, MAXIMUM_HEADER_SIZE] at hlen
  | first :: second :: rest => exact ⟨first, second, rest, rfl⟩

theorem length_rest (hl : self.data.toList = first :: second :: rest) : rest.length = 19 := by
  have hlen : self.data.toList.length = MAXIMUM_HEADER_SIZE := by simp
  simp only [hl, List.length_cons, MAXIMUM_HEADER_SIZE] at hlen
  omega

theorem getElem_zero (hl : self.data.toList = first :: second :: rest) : self.data[0] = first := by
  rw [← Vector.getElem_toList (by simp [MAXIMUM_HEADER_SIZE])]
  simp [hl]

theorem getElem_one (hl : self.data.toList = first :: second :: rest) : self.data[1] = second := by
  rw [← Vector.getElem_toList (by simp [MAXIMUM_HEADER_SIZE])]
  simp [hl]

section Control

variable [BitManipulation]

theorem getSourceAddressingMode_eq (hl : self.data.toList = first :: second :: rest) :
    self.getSourceAddressingMode = extractBits second 0b11 6 := by
  rw [getSourceAddressingMode, getByteOnArray_eq _ _ _ 1 6 rfl (by decide) (by decide) (by decide),
    getElem_one hl]
  rfl

theorem getDestinationAddressingMode_eq (hl : self.data.toList = first :: second :: rest) :
    self.getDestinationAddressingMode = extractBits second 0b11 2 := by
  rw [getDestinationAddressingMode,
    getByteOnArray_eq _ _ _ 1 2 rfl (by decide) (by decide) (by decide), getElem_one hl]
  rfl

theorem sequenceNumberIsPresent_eq (hl : self.data.toList = first :: second :: rest) :
    self.sequenceNumberIsPresent = !second.toBitVec.getLsbD 0 := by
  rw [sequenceNumberIsPresent, bitIsSetOnArray_getElem _ _ 1 0 rfl (by decide) (by decide),
    getElem_one hl]

theorem panIdCompressionIsEnabled_eq (hl : self.data.toList = first :: second :: rest) :
    self.panIdCompressionIsEnabled = first.toBitVec.getLsbD 6 := by
  rw [panIdCompressionIsEnabled, bitIsSetOnArray_getElem _ _ 0 6 rfl (by decide) (by decide),
    getElem_zero hl]

theorem toList_setSourceAddressingMode (hl : self.data.toList = first :: second :: rest)
    (mode : UInt8) (hmode : FieldFits source_addressing_mode_bitmask source_addressing_mode_offset mode) :
    (self.setSourceAddressingMode mode).data.toList =
      first :: insertBits second 0b11 6 mode :: rest := by
  rw [setSourceAddressingMode, setByteOnArray_eq _ _ _ _ 1 6 rfl (by decide) (by decide) hmode,
    getElem_one hl, Vector.toList_set, hl]
  rfl

theorem toList_setDestinationAddressingMode (hl : self.data.toList = first :: second :: rest)
    (mode : UInt8)
    (hmode : FieldFits destination_addressing_mode_bitmask destination_addressing_mode_offset mode) :
    (self.setDestinationAddressingMode mode).data.toList =
      first :: insertBits second 0b11 2 mode :: rest := by
  rw [setDestinationAddressingMode, setByteOnArray_eq _ _ _ _ 1 2 rfl (by decide) (by decide) hmode,
    getElem_one hl, Vector.toList_set, hl]
  rfl

theorem toList_enablePanIdCompression (hl : self.data.toList = first :: second :: rest) :
    self.enablePanIdCompression.data.toList = insertBits first 1 6 1 :: second :: rest := by
  rw [enablePanIdCompression, setBitOnArray_eq _ _ 0 6 rfl (by decide) (by decide),
    getElem_zero hl, Vector.toList_set, hl]
  rfl

theorem toList_disablePanIdCompression (hl : self.data.toList = first :: second :: rest) :
    self.disablePanIdCompression.data.toList = insertBits first 1 6 0 :: second :: rest := by
  rw [disablePanIdCompression, clearBitOnArray_eq _ _ 0 6 rfl (by decide) (by decide),
    getElem_zero hl, Vector.toList_set, hl]
  rfl

theorem toList_enableSequenceNumberSuppression (hl : self.data.toList = first :: second :: rest) :
    self.enableSequenceNumberSuppression.data.toList = first :: insertBits second 1 0 1 :: rest := by
  rw [enableSequenceNumberSuppression, setBitOnArray_eq _ _ 1 0 rfl (by decide) (by decide),
    getElem_one hl, Vector.toList_set, hl]
  rfl

theorem toList_disableSequenceNumberSuppression (hl : self.data.toList = first :: second :: rest) :
    self.disableSequenceNumberSuppression.data.toList = first :: insertBits second 1 0 0 :: rest := by
  rw [disableSequenceNumberSuppression, clearBitOnArray_eq _ _ 1 0 rfl (by decide) (by decide),
    getElem_one hl, Vector.toList_set, hl]
  rfl

theorem toList_enableAcknowledgementRequest (hl : self.data.toList = first :: second :: rest) :
    self.enableAcknowledgementRequest.data.toList = insertBits first 1 5 1 :: second :: rest := by
  rw [enableAcknowledgementRequest, setBitOnArray_eq _ _ 0 5 rfl (by decide) (by decide),
    getElem_zero hl, Vector.toList_set, hl]
  rfl

theorem toList_setFrameType (hl : self.data.toList = first :: second :: rest)
    (frame_type : UInt8) (htype : FieldFits frame_type_bitmask 0 frame_type) :
    (self.setFrameType frame_type).data.toList =
      insertBits first 0b111 0 frame_type :: second :: rest := by
  rw [setFrameType, setByteOnArray_eq _ _ _ _ 0 0 rfl (by decide) (by decide) htype,
    getElem_zero hl, Vector.toList_set, hl]
  rfl

theorem toList_setFrameVersion (hl : self.data.toList = first :: second :: rest)
    (version : UInt8) (hversion : FieldFits frame_version_bitmask frame_version_offset version) :
    (self.setFrameVersion version).data.toList =
      first :: insertBits second 0b11 4 version :: rest := by
  rw [setFrameVersion, setByteOnArray_eq _ _ _ _ 1 4 rfl (by decide) (by decide) hversion,
    getElem_one hl, Vector.toList_set, hl]
  rfl

theorem toList_init (self : FrameHeader802154) :
    self.init.data.toList = 0x41 :: 0xA8 :: List.replicate 19 0 := by
  have hz : (⟨self.data.map fun _ => 0⟩ : FrameHeader802154).data.toList =
      0 :: 0 :: List.replicate 19 0 := by
    rw [Vector.toList_map, List.map_const']
    simp [List.replicate_succ, MAXIMUM_HEADER_SIZE]
  have hc := toList_enablePanIdCompression hz
  have hd := toList_setDestinationAddressingMode hc ADDRESSING_MODE_SHORT_ADDRESS (by decide)
  have hs := toList_setSourceAddressingMode hd ADDRESSING_MODE_SHORT_ADDRESS (by decide)
  have ht := toList_setFrameType hs FRAME_TYPE_DATA (by decide)
  exact toList_setFrameVersion ht FRAME_VERSION_2015 (by decide)

theorem getSequenceNumberSize_le (self : FrameHeader802154) :
    self.getSequenceNumberSize.toNat ≤ 1 := by
  unfold getSequenceNumberSize
  split <;> decide

theorem getPanIdSize_eq (self : FrameHeader802154) :
    self.getPanIdSize.toNat = if self.panIdIsPresent then 2 else 0 := by
  unfold getPanIdSize
  split <;> rfl

omit [BitManipulation] in
theorem toNat_getAddressSize (mode : UInt8) :
    (getAddressSize mode).toNat = 8 ∧ mode = ADDRESSING_MODE_EXTENDED_ADDRESS ∨
      (getAddressSize mode).toNat = 2 ∧ mode = ADDRESSING_MODE_SHORT_ADDRESS ∨
      (getAddressSize mode).toNat = 0 ∧ mode ≠ ADDRESSING_MODE_EXTENDED_ADDRESS ∧
        mode ≠ ADDRESSING_MODE_SHORT_ADDRESS := by
  unfold getAddressSize
  split
  · exact .inl ⟨rfl, by assumption⟩
  · split
    · exact .inr (.inl ⟨rfl, by assumption⟩)
    · exact .inr (.inr ⟨rfl, by assumption, by assumption⟩)

omit [BitManipulation] in
theorem getAddressSize_le (mode : UInt8) : (getAddressSize mode).toNat ≤ 8 := by
  rcases toNat_getAddressSize mode with h | h | h <;> omega

theorem toNat_getPanIdOffset (self : FrameHeader802154) :
    self.getPanIdOffset.toNat = 2 + self.getSequenceNumberSize.toNat := by
  have := getSequenceNumberSize_le self
  simp only [getPanIdOffset, control_field_size, UInt8.toNat_add, UInt8.reduceToNat]
  omega

theorem toNat_getDestinationAddressOffset (self : FrameHeader802154) :
    self.getDestinationAddressOffset.toNat = 4 + self.getSequenceNumberSize.toNat := by
  have := getSequenceNumberSize_le self
  simp only [getDestinationAddressOffset, pan_id_size, UInt8.toNat_add, UInt8.reduceToNat,
    toNat_getPanIdOffset]
  omega

theorem toNat_getSourceAddressOffset (self : FrameHeader802154) :
    self.getSourceAddressOffset.toNat =
      4 + self.getSequenceNumberSize.toNat + self.getDestinationAddressSize.toNat := by
  have := getSequenceNumberSize_le self
  have := getAddressSize_le self.getDestinationAddressingMode
  simp only [getSourceAddressOffset, UInt8.toNat_add, toNat_getDestinationAddressOffset,
    getDestinationAddressSize]
  omega

theorem toNat_getHeaderSize (self : FrameHeader802154) :
    self.getHeaderSize.toNat = 2 + self.getSequenceNumberSize.toNat + self.getPanIdSize.toNat +
      self.getSourceAddressSize.toNat + self.getDestinationAddressSize.toNat := by
  have hs := getAddressSize_le self.getSourceAddressingMode
  have hd := getAddressSize_le self.getDestinationAddressingMode
  have hp := getPanIdSize_eq self
  have hbase : (if self.sequenceNumberIsPresent then (2 : UInt8) + 1 else 2).toNat =
      2 + self.getSequenceNumberSize.toNat := by
    unfold getSequenceNumberSize
    split <;> rfl
  have hq := getSequenceNumberSize_le self
  simp only [getHeaderSize, UInt8.toNat_add, hbase, getSourceAddressSize, getDestinationAddressSize]
  split at hp <;> omega

-- By their sizes the fields follow one another from the control bytes to the
-- end of the header.
structure Tiles (header : FrameHeader802154) : Prop where
  panId : 2 + header.getSequenceNumberSize.toNat = header.getPanIdOffset.toNat
  destination : header.getPanIdOffset.toNat + header.getPanIdSize.toNat =
    header.getDestinationAddressOffset.toNat
  source : header.getDestinationAddressOffset.toNat + header.getDestinationAddressSize.toNat =
    header.getSourceAddressOffset.toNat
  size : header.getSourceAddressOffset.toNat + header.getSourceAddressSize.toNat =
    header.getHeaderSize.toNat

-- The offsets leave room for a pan id even where the size has none.
theorem tiles_iff (self : FrameHeader802154) : self.Tiles ↔ self.panIdIsPresent := by
  have hpanId := toNat_getPanIdOffset self
  have hdestination := toNat_getDestinationAddressOffset self
  have hsource := toNat_getSourceAddressOffset self
  have hsize := toNat_getHeaderSize self
  have hpresent := getPanIdSize_eq self
  constructor
  · intro h
    have hend := h.size
    by_cases hp : self.panIdIsPresent
    · exact hp
    · rw [if_neg hp] at hpresent
      omega
  · intro hp
    rw [if_pos hp] at hpresent
    exact ⟨by omega, by omega, by omega, by omega⟩

end Control

section Stores

variable [BitManipulation]

theorem copyBytes_toList (hl : self.data.toList = first :: second :: rest) {m : Nat}
    (source : Vector UInt8 m) (position : Nat) (count : UInt8) (hcount : count.toNat = m)
    (hin : position + 2 + m ≤ MAXIMUM_HEADER_SIZE) :
    ∃ next, self.copyBytes source (position + 2) count = .ok next ∧
      next.data.toList = first :: second :: splice rest position source.toList := by
  refine ⟨_, if_pos (by omega), ?_⟩
  rw [toList_copyBytes _ _ _ _ hcount hin, hl]
  simp

omit [BitManipulation] in
theorem store_toList (hl : self.data.toList = first :: second :: rest) (position : Nat)
    (value : UInt8) (hin : position + 2 < MAXIMUM_HEADER_SIZE) :
    ∃ next, self.store (position + 2 : Nat) value = .ok next ∧
      next.data.toList = first :: second :: splice rest position [value] := by
  have hlen := length_rest hl
  refine ⟨⟨self.data.set (position + 2) value⟩, ?_, ?_⟩
  · rw [store, store_ofNat _ _ _ hin]
    rfl
  · rw [Vector.toList_set, hl, List.set_cons_succ, List.set_cons_succ,
      set_eq_splice _ _ _ (by unfold MAXIMUM_HEADER_SIZE at hin; omega)]

-- The second byte finds the offset unchanged, because the control bytes are.
theorem setPanId_toList (hl : self.data.toList = first :: second :: rest)
    (pan_id : Vector UInt8 2) :
    ∃ next, self.setPanId pan_id = .ok next ∧
      next.data.toList =
        first :: second :: splice rest self.getSequenceNumberSize.toNat pan_id.toList := by
  have hseq := getSequenceNumberSize_le self
  have hlen := length_rest hl
  have hpair : pan_id.toList = [pan_id[0]] ++ [pan_id[1]] := by
    apply List.ext_getElem (by simp)
    intro i hi hi'
    simp only [Vector.length_toList] at hi
    match i, hi with
    | 0, _ => simp
    | 1, _ => simp
  obtain ⟨low, hlow, hl₁⟩ := store_toList hl self.getSequenceNumberSize.toNat pan_id[0]
    (by unfold MAXIMUM_HEADER_SIZE; omega)
  obtain ⟨next, hnext, hl₂⟩ := store_toList hl₁ (self.getSequenceNumberSize.toNat + 1) pan_id[1]
    (by unfold MAXIMUM_HEADER_SIZE; omega)
  have hsize : low.getSequenceNumberSize = self.getSequenceNumberSize := by
    rw [getSequenceNumberSize, getSequenceNumberSize, sequenceNumberIsPresent_eq hl₁,
      sequenceNumberIsPresent_eq hl]
  refine ⟨next, ?_, ?_⟩
  · rw [setPanId, toNat_getPanIdOffset, Nat.add_comm, hlow, ok_bind, toNat_getPanIdOffset, hsize,
      ← hnext]
    congr 1
    omega
  · rw [hl₂, hpair, ← splice_splice_right _ [pan_id[0]] _ _ (by simp; omega), List.length_singleton]

-- Both moves of the source address, by the number of bytes it travels.
theorem moveSourceAddress_right (hl : self.data.toList = first :: second :: rest)
    (distance : Int8) (position : Nat) (hdistance : 0 < distance)
    (hposition : position + 2 = self.getSourceAddressOffset.toNat)
    (hin : 0 < self.getSourceAddressSize.toNat →
      position + 2 + distance.toUInt8.toNat + self.getSourceAddressSize.toNat ≤
        MAXIMUM_HEADER_SIZE) :
    ∃ next, self.moveSourceAddress distance = .ok next ∧
      next.data.toList = first :: second :: splice rest (position + distance.toUInt8.toNat)
        (slice rest position self.getSourceAddressSize.toNat) := by
  have hsize := getAddressSize_le self.getSourceAddressingMode
  obtain ⟨moved, hm, ht⟩ := moveRight_toList self.data (position + 2) self.getSourceAddressSize
    distance.toUInt8 (by unfold getSourceAddressSize; omega) hin
  refine ⟨⟨moved⟩, ?_, ?_⟩
  · rw [moveSourceAddress, if_pos hdistance, ← hposition, ← getSourceAddressSize, hm]
    rfl
  · have hshift : position + 2 + distance.toUInt8.toNat =
        position + distance.toUInt8.toNat + 1 + 1 := by omega
    rw [ht, hl, hshift]
    simp

theorem moveSourceAddress_left (hl : self.data.toList = first :: second :: rest)
    (distance : Int8) (back position : Nat) (hdistance : distance.toInt = -back)
    (hback : back ≤ position) (hposition : position + 2 = self.getSourceAddressOffset.toNat)
    (hin : 0 < self.getSourceAddressSize.toNat →
      position + 2 + self.getSourceAddressSize.toNat ≤ MAXIMUM_HEADER_SIZE) :
    ∃ next, self.moveSourceAddress distance = .ok next ∧
      next.data.toList = first :: second :: splice rest (position - back)
        (slice rest position self.getSourceAddressSize.toNat) := by
  have hsize := getAddressSize_le self.getSourceAddressingMode
  have hneg : ¬0 < distance := by
    rw [Int8.lt_iff_toInt_lt, hdistance, Int8.toInt_zero]
    omega
  obtain ⟨moved, hm, ht⟩ := moveLeft_toList self.data (position + 2) back self.getSourceAddressSize
    distance hdistance (by unfold getSourceAddressSize; omega) (fun h => ⟨by omega, hin h⟩)
  refine ⟨⟨moved⟩, ?_, ?_⟩
  · rw [moveSourceAddress, if_neg hneg, ← hposition, ← getSourceAddressSize, hm]
    rfl
  · have hshift : position + 2 - back = position - back + 1 + 1 := by omega
    rw [ht, hl, hshift]
    simp

omit [BitManipulation] in
-- The moves that make room for a sequence number are all by one byte.
private theorem moveRight_one (hl : self.data.toList = first :: second :: rest) (position : Nat)
    (count : UInt8) (hin : position + 3 + count.toNat ≤ MAXIMUM_HEADER_SIZE) :
    ∃ moved, moveRight self.data (position + 2 : Nat) count (1 : Int8).toUInt8 = .ok moved ∧
      moved.toList = first :: second :: shiftRight rest position count.toNat := by
  have hone : (1 : Int8).toUInt8.toNat = 1 := rfl
  obtain ⟨moved, hmoved, hl'⟩ := moveRight_toList self.data (position + 2) count
    (1 : Int8).toUInt8 (by unfold MAXIMUM_HEADER_SIZE at hin; omega) (fun _ => by omega)
  refine ⟨moved, hmoved, ?_⟩
  rw [hl', hl, hone, show position + 2 + 1 = position + 1 + 1 + 1 by omega]
  simp [shiftRight]

private theorem moveSourceAddress_one (hl : self.data.toList = first :: second :: rest)
    (hin : 0 < self.getSourceAddressSize.toNat → self.getSourceAddressOffset.toNat + 1 +
      self.getSourceAddressSize.toNat ≤ MAXIMUM_HEADER_SIZE) :
    ∃ next, self.moveSourceAddress 1 = .ok next ∧
      next.data.toList = first :: second :: shiftRight rest
        (self.getSourceAddressOffset.toNat - 2) self.getSourceAddressSize.toNat := by
  have hone : (1 : Int8).toUInt8.toNat = 1 := rfl
  have hoffset := toNat_getSourceAddressOffset self
  obtain ⟨next, hnext, hl'⟩ := moveSourceAddress_right hl 1 (self.getSourceAddressOffset.toNat - 2)
    (by decide) (by omega) (fun h => by
      have := hin h
      omega)
  exact ⟨next, hnext, hl'⟩

-- The pointer to the destination address is taken before the source address
-- moves, and eight bytes are moved whatever the size of the address is.
theorem setSequenceNumber_toList (hl : self.data.toList = first :: second :: rest) (number : UInt8)
    (hin : 0 < self.getSourceAddressSize.toNat → self.getSourceAddressOffset.toNat + 1 +
      self.getSourceAddressSize.toNat ≤ MAXIMUM_HEADER_SIZE) :
    ∃ next, self.setSequenceNumber number = .ok next ∧
      next.data.toList = first :: insertBits second 1 0 0 ::
        splice (shiftRight (shiftRight (shiftRight rest (self.getSourceAddressOffset.toNat - 2)
          self.getSourceAddressSize.toNat) (self.getDestinationAddressOffset.toNat - 2) 8)
          (self.getPanIdOffset.toNat - 2) 2) 0 [number] := by
  have hq := getSequenceNumberSize_le self
  have hd := toNat_getDestinationAddressOffset self
  have hp := toNat_getPanIdOffset self
  obtain ⟨source, hsource, hl₁⟩ := moveSourceAddress_one hl hin
  obtain ⟨destination, hdestination, hl₂⟩ := moveRight_one hl₁
    (self.getDestinationAddressOffset.toNat - 2) 8 (by
      unfold MAXIMUM_HEADER_SIZE
      simp only [UInt8.reduceToNat]
      omega)
  have hl₂ : (⟨destination⟩ : FrameHeader802154).data.toList = _ := hl₂
  obtain ⟨panId, hpanId, hl₃⟩ := moveRight_one hl₂
    (self.getPanIdOffset.toNat - 2) 2 (by
      unfold MAXIMUM_HEADER_SIZE
      simp only [UInt8.reduceToNat]
      omega)
  have hl₃ : (⟨panId⟩ : FrameHeader802154).data.toList = _ := hl₃
  have hl₄ := toList_disableSequenceNumberSuppression hl₃
  obtain ⟨next, hnext, hl₅⟩ := store_toList hl₄ 0 number (by decide)
  refine ⟨next, ?_, hl₅⟩
  rw [show self.getDestinationAddressOffset.toNat - 2 + 2 = self.getDestinationAddressOffset.toNat
    by omega] at hdestination
  rw [show self.getPanIdOffset.toNat - 2 + 2 = self.getPanIdOffset.toNat by omega] at hpanId
  have hmovedDestination : self.moveDestinationAddress 1 = .ok ⟨destination⟩ := by
    rw [moveDestinationAddress, hsource, ok_bind, hdestination]
    rfl
  have hmoved : self.movePanId 1 = .ok ⟨panId⟩ := by
    rw [movePanId, hmovedDestination, ok_bind, hpanId]
    rfl
  rw [setSequenceNumber, hmoved, ok_bind, ← hnext]
  rfl

end Stores

end Mac802154.FrameHeader802154
