import Mac802154.FrameHeader802154.Fields

namespace Mac802154

open Library FrameHeader802154

namespace HeaderFields

-- The control bytes depend on the kinds of the fields only, so each of these
-- facts is a check of the finitely many kinds.
theorem extractBits_source (fields : HeaderFields) :
    extractBits fields.secondControlByte 0b11 6 = fields.source.mode := by
  unfold secondControlByte Address.mode
  cases fields.sequenceNumber.isNone <;> cases fields.destination.isExtended <;>
    cases fields.source.isExtended <;> decide

theorem extractBits_destination (fields : HeaderFields) :
    extractBits fields.secondControlByte 0b11 2 = fields.destination.mode := by
  unfold secondControlByte Address.mode
  cases fields.sequenceNumber.isNone <;> cases fields.destination.isExtended <;>
    cases fields.source.isExtended <;> decide

theorem getLsbD_suppression (fields : HeaderFields) :
    fields.secondControlByte.toBitVec.getLsbD 0 = fields.sequenceNumber.isNone := by
  unfold secondControlByte Address.mode
  cases fields.sequenceNumber.isNone <;> cases fields.destination.isExtended <;>
    cases fields.source.isExtended <;> decide

theorem getLsbD_compression (fields : HeaderFields) :
    fields.firstControlByte.toBitVec.getLsbD 6 =
      !(fields.destination.isExtended && fields.source.isExtended) := by
  unfold firstControlByte
  cases fields.acknowledgementRequest <;> cases fields.destination.isExtended <;>
    cases fields.source.isExtended <;> decide

theorem getLsbD_acknowledgement (fields : HeaderFields) :
    fields.firstControlByte.toBitVec.getLsbD 5 = fields.acknowledgementRequest := by
  unfold firstControlByte
  cases fields.acknowledgementRequest <;> cases fields.destination.isExtended <;>
    cases fields.source.isExtended <;> decide

theorem secondControlByte_source (fields : HeaderFields) (address : Address) :
    insertBits fields.secondControlByte 0b11 6 address.mode =
      { fields with source := address }.secondControlByte := by
  unfold secondControlByte Address.mode
  cases fields.sequenceNumber.isNone <;> cases fields.destination.isExtended <;>
    cases fields.source.isExtended <;> cases address.isExtended <;> decide

theorem secondControlByte_destination (fields : HeaderFields) (address : Address) :
    insertBits fields.secondControlByte 0b11 2 address.mode =
      { fields with destination := address }.secondControlByte := by
  unfold secondControlByte Address.mode
  cases fields.sequenceNumber.isNone <;> cases fields.destination.isExtended <;>
    cases fields.source.isExtended <;> cases address.isExtended <;> decide

theorem secondControlByte_sequenceNumber (fields : HeaderFields) (sequence : Option UInt8) :
    insertBits fields.secondControlByte 1 0 (if sequence.isNone then 1 else 0) =
      { fields with sequenceNumber := sequence }.secondControlByte := by
  unfold secondControlByte Address.mode
  cases fields.sequenceNumber.isNone <;> cases fields.destination.isExtended <;>
    cases fields.source.isExtended <;> cases sequence.isNone <;> decide

theorem firstControlByte_short (fields : HeaderFields)
    (h : (fields.destination.isExtended && fields.source.isExtended) = false) (old : HeaderFields)
    (hack : fields.acknowledgementRequest = old.acknowledgementRequest) :
    insertBits old.firstControlByte 1 6 1 = fields.firstControlByte := by
  unfold firstControlByte
  rw [h, hack]
  cases old.acknowledgementRequest <;> cases old.destination.isExtended <;>
    cases old.source.isExtended <;> decide

private theorem firstControlByte_extended : ∀ ack other this : Bool,
    (if other then
      insertBits (0x01 + (if ack then 0x20 else 0) + if other && this then 0 else 0x40) 1 6 0
    else 0x01 + (if ack then 0x20 else 0) + if other && this then 0 else 0x40) =
      0x01 + (if ack then 0x20 else 0) + if other then 0 else 0x40 := by
  decide

theorem firstControlByte_source_extended (fields : HeaderFields) (address : Vector UInt8 8) :
    (if fields.destination.isExtended then insertBits fields.firstControlByte 1 6 0
      else fields.firstControlByte) =
      { fields with source := .extended address }.firstControlByte := by
  unfold firstControlByte
  rw [firstControlByte_extended]
  simp

theorem firstControlByte_destination_extended (fields : HeaderFields) (address : Vector UInt8 8) :
    (if fields.source.isExtended then insertBits fields.firstControlByte 1 6 0
      else fields.firstControlByte) =
      { fields with destination := .extended address }.firstControlByte := by
  unfold firstControlByte
  rw [Bool.and_comm, firstControlByte_extended]
  simp

theorem firstControlByte_acknowledgement (fields : HeaderFields) :
    insertBits fields.firstControlByte 1 5 1 =
      { fields with acknowledgementRequest := true }.firstControlByte := by
  simp only [firstControlByte]
  cases fields.acknowledgementRequest <;> cases fields.destination.isExtended <;>
    cases fields.source.isExtended <;> decide

-- The control bytes say how the bytes behind them are to be read.
theorem toBytes_inj {fields other : HeaderFields} (h : fields.toBytes = other.toBytes) :
    fields = other := by
  obtain ⟨hfirst, htail⟩ := List.cons.inj h
  obtain ⟨hsecond, hbody⟩ := List.cons.inj htail
  have hsource : fields.source.isExtended = other.source.isExtended := by
    have hmode := congrArg (extractBits · 0b11 6) hsecond
    simp only [extractBits_source] at hmode
    rw [Bool.eq_iff_iff, ← Address.mode_eq_extended_iff, ← Address.mode_eq_extended_iff, hmode]
  have hdestination : fields.destination.isExtended = other.destination.isExtended := by
    have hmode := congrArg (extractBits · 0b11 2) hsecond
    simp only [extractBits_destination] at hmode
    rw [Bool.eq_iff_iff, ← Address.mode_eq_extended_iff, ← Address.mode_eq_extended_iff, hmode]
  have hsequence : fields.sequenceNumber.isNone = other.sequenceNumber.isNone := by
    have hbit := congrArg (fun byte : UInt8 => byte.toBitVec.getLsbD 0) hsecond
    simpa only [getLsbD_suppression] using hbit
  have hacknowledgement : fields.acknowledgementRequest = other.acknowledgementRequest := by
    have hbit := congrArg (fun byte : UInt8 => byte.toBitVec.getLsbD 5) hfirst
    simpa only [getLsbD_acknowledgement] using hbit
  simp only [body, beforeSource, beforeDestination, List.append_assoc] at hbody
  obtain ⟨hnumber, hbody⟩ := List.append_inj hbody (by
    cases hs : fields.sequenceNumber <;> cases hs' : other.sequenceNumber <;>
      simp [hs, hs'] at hsequence ⊢)
  have hnumber : fields.sequenceNumber = other.sequenceNumber := by
    cases hs : fields.sequenceNumber <;> cases hs' : other.sequenceNumber <;>
      simp [hs, hs'] at hnumber ⊢
    exact hnumber
  obtain ⟨hpanId, hbody⟩ := List.append_inj hbody (by simp)
  obtain ⟨hdestinationBytes, hsourceBytes⟩ := List.append_inj hbody (by
    rw [Address.length_toList, Address.length_toList, Address.mode, Address.mode, hdestination])
  cases fields
  cases other
  simp only [HeaderFields.mk.injEq]
  exact ⟨hacknowledgement, hnumber, Vector.toList_inj.mp hpanId,
    Address.toList_inj hdestination hdestinationBytes, Address.toList_inj hsource hsourceBytes⟩

end HeaderFields

namespace FrameHeader802154

variable [BitManipulation] {self : FrameHeader802154} {fields : HeaderFields}

section Accessors

omit [BitManipulation] in
private theorem control (h : self.Represents fields) :
    ∃ rest, self.data.toList = fields.firstControlByte :: fields.secondControlByte :: rest := by
  obtain ⟨behind, hl⟩ := h
  exact ⟨fields.body ++ behind, hl.symm⟩

theorem Represents.getSourceAddressingMode (h : self.Represents fields) :
    self.getSourceAddressingMode = fields.source.mode := by
  obtain ⟨rest, hl⟩ := control h
  rw [getSourceAddressingMode_eq hl, fields.extractBits_source]

theorem Represents.getDestinationAddressingMode (h : self.Represents fields) :
    self.getDestinationAddressingMode = fields.destination.mode := by
  obtain ⟨rest, hl⟩ := control h
  rw [getDestinationAddressingMode_eq hl, fields.extractBits_destination]

theorem Represents.sequenceNumberIsPresent (h : self.Represents fields) :
    self.sequenceNumberIsPresent = fields.sequenceNumber.isSome := by
  obtain ⟨rest, hl⟩ := control h
  rw [sequenceNumberIsPresent_eq hl, fields.getLsbD_suppression]
  cases fields.sequenceNumber <;> rfl

-- Compression is switched off exactly when both addresses are extended, and
-- then it is the addresses that make the pan id present.
theorem Represents.panIdIsPresent (h : self.Represents fields) : self.panIdIsPresent = true := by
  obtain ⟨rest, hl⟩ := control h
  rw [FrameHeader802154.panIdIsPresent, h.getSourceAddressingMode, h.getDestinationAddressingMode,
    panIdCompressionIsEnabled_eq hl, fields.getLsbD_compression]
  simp only [Address.mode_eq_extended_iff, Bool.decide_eq_true]
  cases fields.source.isExtended <;> cases fields.destination.isExtended <;> rfl

theorem Represents.getSequenceNumberSize (h : self.Represents fields) :
    self.getSequenceNumberSize.toNat = fields.sequenceNumber.toList.length := by
  rw [FrameHeader802154.getSequenceNumberSize, h.sequenceNumberIsPresent]
  cases fields.sequenceNumber <;> rfl

theorem Represents.getDestinationAddressSize (h : self.Represents fields) :
    self.getDestinationAddressSize.toNat = fields.destination.toList.length := by
  rw [FrameHeader802154.getDestinationAddressSize, h.getDestinationAddressingMode,
    Address.length_toList]

theorem Represents.getSourceAddressSize (h : self.Represents fields) :
    self.getSourceAddressSize.toNat = fields.source.toList.length := by
  rw [FrameHeader802154.getSourceAddressSize, h.getSourceAddressingMode, Address.length_toList]

theorem Represents.getPanIdOffset (h : self.Represents fields) :
    self.getPanIdOffset.toNat = fields.sequenceNumber.toList.length + 2 := by
  rw [toNat_getPanIdOffset, h.getSequenceNumberSize, Nat.add_comm]

theorem Represents.getDestinationAddressOffset (h : self.Represents fields) :
    self.getDestinationAddressOffset.toNat = fields.beforeDestination.length + 2 := by
  rw [toNat_getDestinationAddressOffset, h.getSequenceNumberSize, fields.length_beforeDestination]
  omega

theorem Represents.getSourceAddressOffset (h : self.Represents fields) :
    self.getSourceAddressOffset.toNat = fields.beforeSource.length + 2 := by
  rw [toNat_getSourceAddressOffset, h.getSequenceNumberSize, h.getDestinationAddressSize,
    fields.length_beforeSource]
  omega

theorem Represents.getHeaderSize (h : self.Represents fields) :
    self.getHeaderSize.toNat = fields.toBytes.length := by
  rw [toNat_getHeaderSize, getPanIdSize_eq, h.panIdIsPresent, h.getSequenceNumberSize,
    h.getSourceAddressSize, h.getDestinationAddressSize, fields.length_toBytes]
  simp only [ite_true]
  omega

theorem Represents.take_getHeaderSize (h : self.Represents fields) :
    self.data.toList.take self.getHeaderSize.toNat = fields.toBytes := by
  rw [h.getHeaderSize]
  exact (List.prefix_iff_eq_take.mp h).symm

theorem Represents.slice_panId (h : self.Represents fields) :
    slice self.data.toList self.getPanIdOffset.toNat 2 = fields.panId.toList := by
  obtain ⟨behind, hl⟩ := (represents_iff self fields).mp h
  have hslice := slice_append fields.sequenceNumber.toList fields.panId.toList
    (fields.destination.toList ++ (fields.source.toList ++ behind))
  rw [Vector.length_toList] at hslice
  rw [hl, h.getPanIdOffset, slice_cons_succ, slice_cons_succ, HeaderFields.beforeSource,
    HeaderFields.beforeDestination, List.append_assoc, List.append_assoc]
  exact hslice

theorem Represents.slice_source (h : self.Represents fields) :
    slice self.data.toList self.getSourceAddressPtr self.getSourceAddressSize.toNat =
      fields.source.toList := by
  obtain ⟨behind, hl⟩ := (represents_iff self fields).mp h
  rw [hl, getSourceAddressPtr, h.getSourceAddressOffset, h.getSourceAddressSize, slice_cons_succ,
    slice_cons_succ]
  exact slice_append fields.beforeSource fields.source.toList behind

end Accessors

section Setters

theorem setPanId_represents (h : self.Represents fields) (pan_id : Vector UInt8 2) :
    ∃ next, self.setPanId pan_id = .ok next ∧ next.Represents { fields with panId := pan_id } := by
  obtain ⟨behind, hl⟩ := (represents_iff self fields).mp h
  obtain ⟨next, hnext, hl'⟩ := setPanId_toList hl pan_id
  refine ⟨next, hnext, (represents_iff _ _).mpr ⟨behind, ?_⟩⟩
  have hreplace := splice_replace fields.sequenceNumber.toList fields.panId.toList
    (fields.destination.toList ++ (fields.source.toList ++ behind)) pan_id.toList (by simp)
  simp only [HeaderFields.beforeSource, HeaderFields.beforeDestination, List.append_assoc] at hl' ⊢
  rw [hl', h.getSequenceNumberSize, hreplace]
  rfl

theorem enableAcknowledgementRequest_represents (h : self.Represents fields) :
    self.enableAcknowledgementRequest.Represents { fields with acknowledgementRequest := true } := by
  obtain ⟨behind, hl⟩ := (represents_iff self fields).mp h
  refine (represents_iff _ _).mpr ⟨behind, ?_⟩
  rw [toList_enableAcknowledgementRequest hl, fields.firstControlByte_acknowledgement]
  rfl

-- The source address is the last field: a longer one grows over free bytes.
private theorem copySourceAddress (h : self.Represents fields) {m : Nat} (address : Vector UInt8 m)
    (count : UInt8) (hcount : count.toNat = m) (hm : m ≤ 8) :
    ∃ copied behind, self.copyBytes address self.getSourceAddressOffset.toNat count = .ok copied ∧
      copied.data.toList = fields.firstControlByte :: fields.secondControlByte ::
        (fields.beforeSource ++ (address.toList ++ behind)) := by
  obtain ⟨behind, hl⟩ := (represents_iff self fields).mp h
  have hq := fields.length_sequenceNumber_le
  have hd := fields.destination.length_toList_le
  have hin : fields.beforeSource.length + 2 + m ≤ MAXIMUM_HEADER_SIZE := by
    rw [fields.length_beforeSource]
    unfold MAXIMUM_HEADER_SIZE
    omega
  obtain ⟨copied, hcopied, hl'⟩ := copyBytes_toList hl address _ count hcount hin
  refine ⟨copied, (fields.source.toList ++ behind).drop m, ?_, ?_⟩
  · rw [h.getSourceAddressOffset, hcopied]
  · rw [hl', splice_append, Vector.length_toList]

theorem setShortSourceAddress_represents (h : self.Represents fields) (address : Vector UInt8 2) :
    ∃ next, self.setShortSourceAddress address = .ok next ∧
      next.Represents { fields with source := .short address } := by
  obtain ⟨copied, behind, hcopied, hl⟩ := copySourceAddress h address 2 rfl (by decide)
  have hl := toList_enablePanIdCompression hl
  have hl := toList_setSourceAddressingMode hl ADDRESSING_MODE_SHORT_ADDRESS (by decide)
  refine ⟨copied.enablePanIdCompression.setSourceAddressingMode ADDRESSING_MODE_SHORT_ADDRESS, ?_,
    (represents_iff _ _).mpr ⟨behind, ?_⟩⟩
  · rw [setShortSourceAddress, hcopied]
    rfl
  · have hfirst := HeaderFields.firstControlByte_short { fields with source := .short address }
      (by simp) fields rfl
    have hsecond := fields.secondControlByte_source (.short address)
    rw [hl, hfirst]
    exact congrArg (_ :: · :: _) hsecond

theorem setExtendedSourceAddress_represents (h : self.Represents fields)
    (address : Vector UInt8 8) :
    ∃ next, self.setExtendedSourceAddress address = .ok next ∧
      next.Represents { fields with source := .extended address } := by
  obtain ⟨copied, behind, hcopied, hl⟩ := copySourceAddress h address 8 rfl (by decide)
  have hmode : copied.getDestinationAddressingMode = fields.destination.mode := by
    rw [getDestinationAddressingMode_eq hl, fields.extractBits_destination]
  have hfirst := fields.firstControlByte_source_extended address
  have hsecond := fields.secondControlByte_source (.extended address)
  have hstep : self.setExtendedSourceAddress address = .ok
      ((if fields.destination.isExtended then copied.disablePanIdCompression else copied)
        |>.setSourceAddressingMode ADDRESSING_MODE_EXTENDED_ADDRESS) := by
    rw [setExtendedSourceAddress, hcopied, ok_bind, hmode]
    simp only [Address.mode_eq_extended_iff]
    rfl
  refine ⟨_, hstep, (represents_iff _ _).mpr ⟨behind, ?_⟩⟩
  by_cases hd : fields.destination.isExtended
  · have hl := toList_disablePanIdCompression hl
    have hl := toList_setSourceAddressingMode hl ADDRESSING_MODE_EXTENDED_ADDRESS (by decide)
    rw [if_pos hd] at hfirst ⊢
    rw [hl, hfirst]
    exact congrArg (_ :: · :: _) hsecond
  · have hl := toList_setSourceAddressingMode hl ADDRESSING_MODE_EXTENDED_ADDRESS (by decide)
    rw [if_neg hd] at hfirst ⊢
    rw [hl, hfirst]
    exact congrArg (_ :: · :: _) hsecond

-- After the source address has moved, the bytes behind the place of the new
-- destination address are the source address again.
private theorem moveSourceAddress_apart (h : self.Represents fields) (address : Vector UInt8 2)
    (hd : fields.destination = .short address) :
    ∃ moved after behind, self.moveSourceAddress
        (sizeDifference ADDRESSING_MODE_EXTENDED_ADDRESS ADDRESSING_MODE_SHORT_ADDRESS) = .ok moved ∧
      moved.data.toList = fields.firstControlByte :: fields.secondControlByte ::
        (fields.beforeDestination ++ after) ∧
      after.drop 8 = fields.source.toList ++ behind := by
  obtain ⟨behind, hl⟩ := (represents_iff self fields).mp h
  have hq := fields.length_sequenceNumber_le
  have hs := fields.source.length_toList_le
  have hbefore := fields.length_beforeSource
  have hshort : fields.destination.toList = address.toList := by rw [hd]; rfl
  have htwo : fields.destination.toList.length = 2 := by rw [hshort, Vector.length_toList]
  have hrest := length_rest hl
  have hroom : 6 ≤ (fields.source.toList ++ behind).length := by
    rw [List.length_append] at hrest
    omega
  obtain ⟨moved, hmoved, hl'⟩ := moveSourceAddress_right hl
    (sizeDifference ADDRESSING_MODE_EXTENDED_ADDRESS ADDRESSING_MODE_SHORT_ADDRESS)
    fields.beforeSource.length (by decide) h.getSourceAddressOffset.symm (fun _ => by
      rw [h.getSourceAddressSize]
      have : (sizeDifference ADDRESSING_MODE_EXTENDED_ADDRESS
        ADDRESSING_MODE_SHORT_ADDRESS).toUInt8.toNat = 6 := rfl
      unfold MAXIMUM_HEADER_SIZE
      omega)
  rw [h.getSourceAddressSize, slice_append, splice_append_right] at hl'
  refine ⟨moved, fields.destination.toList ++
      splice (fields.source.toList ++ behind) 6 fields.source.toList,
    (fields.source.toList ++ behind).drop (6 + fields.source.toList.length), hmoved, ?_, ?_⟩
  · rw [hl', HeaderFields.beforeSource, List.append_assoc]
    rfl
  · rw [List.drop_append, List.drop_eq_nil_of_le (by omega), htwo, List.nil_append,
      drop_splice _ _ _ hroom]

private theorem moveSourceAddress_together (h : self.Represents fields) (address : Vector UInt8 8)
    (hd : fields.destination = .extended address) :
    ∃ moved after behind, self.moveSourceAddress
        (sizeDifference ADDRESSING_MODE_SHORT_ADDRESS ADDRESSING_MODE_EXTENDED_ADDRESS) = .ok moved ∧
      moved.data.toList = fields.firstControlByte :: fields.secondControlByte ::
        (fields.beforeDestination ++ after) ∧
      after.drop 2 = fields.source.toList ++ behind := by
  obtain ⟨behind, hl⟩ := (represents_iff self fields).mp h
  have hq := fields.length_sequenceNumber_le
  have hs := fields.source.length_toList_le
  have hbefore := fields.length_beforeSource
  have hdestination := fields.length_beforeDestination
  have hextended : fields.destination.toList = address.toList := by rw [hd]; rfl
  have height : fields.destination.toList.length = 8 := by rw [hextended, Vector.length_toList]
  obtain ⟨moved, hmoved, hl'⟩ := moveSourceAddress_left hl
    (sizeDifference ADDRESSING_MODE_SHORT_ADDRESS ADDRESSING_MODE_EXTENDED_ADDRESS) 6
    fields.beforeSource.length rfl (by omega) h.getSourceAddressOffset.symm (fun _ => by
      rw [h.getSourceAddressSize]
      unfold MAXIMUM_HEADER_SIZE
      omega)
  have hposition : fields.beforeSource.length - 6 = fields.beforeDestination.length + 2 := by omega
  rw [h.getSourceAddressSize, slice_append, hposition, HeaderFields.beforeSource,
    List.append_assoc, splice_append_right] at hl'
  refine ⟨moved, _, (fields.destination.toList ++ (fields.source.toList ++ behind)).drop
    (2 + fields.source.toList.length), hmoved, hl', ?_⟩
  rw [drop_splice _ _ _ (by rw [List.length_append]; omega)]

omit [BitManipulation] in
-- Without a move the source address already stands behind the destination address.
private theorem destination_stays (h : self.Represents fields) {n : Nat}
    (hn : fields.destination.toList.length = n) :
    ∃ after behind, self.data.toList = fields.firstControlByte :: fields.secondControlByte ::
        (fields.beforeDestination ++ after) ∧
      after.drop n = fields.source.toList ++ behind := by
  obtain ⟨behind, hl⟩ := (represents_iff self fields).mp h
  refine ⟨fields.destination.toList ++ (fields.source.toList ++ behind), behind, ?_, ?_⟩
  · rw [hl, HeaderFields.beforeSource, List.append_assoc]
  · rw [← hn, List.drop_left]

private theorem copyDestinationAddress {before after : List UInt8} {first second : UInt8}
    (hl : self.data.toList = first :: second :: (before ++ after)) (hbefore : before.length ≤ 3)
    {m : Nat} (address : Vector UInt8 m) (count : UInt8) (hcount : count.toNat = m) (hm : m ≤ 8) :
    ∃ copied, self.copyBytes address (before.length + 2) count = .ok copied ∧
      copied.data.toList = first :: second :: (before ++ (address.toList ++ after.drop m)) := by
  obtain ⟨copied, hcopied, hl'⟩ := copyBytes_toList hl address before.length count hcount (by
    unfold MAXIMUM_HEADER_SIZE
    omega)
  refine ⟨copied, hcopied, ?_⟩
  rw [hl', splice_append, Vector.length_toList]

theorem setExtendedDestinationAddress_represents (h : self.Represents fields)
    (address : Vector UInt8 8) :
    ∃ next, self.setExtendedDestinationAddress address = .ok next ∧
      next.Represents { fields with destination := .extended address } := by
  have hmoved : ∃ moved after behind,
      (if self.getDestinationAddressingMode = ADDRESSING_MODE_SHORT_ADDRESS then
        self.moveSourceAddress
          (sizeDifference ADDRESSING_MODE_EXTENDED_ADDRESS ADDRESSING_MODE_SHORT_ADDRESS)
      else .ok self) = .ok moved ∧
      moved.data.toList = fields.firstControlByte :: fields.secondControlByte ::
        (fields.beforeDestination ++ after) ∧
      after.drop 8 = fields.source.toList ++ behind := by
    simp only [h.getDestinationAddressingMode, Address.mode_eq_short_iff]
    cases hd : fields.destination with
    | short old =>
        rw [if_pos (by rfl)]
        exact moveSourceAddress_apart h old hd
    | extended old =>
        rw [if_neg (by simp)]
        have hlength : fields.destination.toList.length = 8 := by
          rw [hd]
          exact old.length_toList
        obtain ⟨after, behind, hl, hafter⟩ := destination_stays h hlength
        exact ⟨self, after, behind, rfl, hl, hafter⟩
  obtain ⟨moved, after, behind, hmoved, hl, hafter⟩ := hmoved
  have hmode : moved.getSourceAddressingMode = fields.source.mode := by
    rw [getSourceAddressingMode_eq hl, fields.extractBits_source]
  have hbefore : fields.beforeDestination.length ≤ 3 := by
    rw [fields.length_beforeDestination]
    have := fields.length_sequenceNumber_le
    omega
  have hfirst := fields.firstControlByte_destination_extended address
  have hsecond := fields.secondControlByte_destination (.extended address)
  -- the flag is changed before the address is copied
  have hflag : (if fields.source.isExtended then moved.disablePanIdCompression else moved).data.toList =
      { fields with destination := .extended address }.firstControlByte ::
        fields.secondControlByte :: (fields.beforeDestination ++ after) := by
    by_cases hs : fields.source.isExtended
    · rw [if_pos hs] at hfirst ⊢
      rw [toList_disablePanIdCompression hl, hfirst]
    · rw [if_neg hs] at hfirst ⊢
      rw [hl, hfirst]
  obtain ⟨copied, hcopied, hl'⟩ := copyDestinationAddress hflag hbefore address 8 rfl (by decide)
  have hl' := toList_setDestinationAddressingMode hl' ADDRESSING_MODE_EXTENDED_ADDRESS (by decide)
  refine ⟨copied.setDestinationAddressingMode ADDRESSING_MODE_EXTENDED_ADDRESS, ?_,
    (represents_iff _ _).mpr ⟨behind, ?_⟩⟩
  · rw [setExtendedDestinationAddress, hmoved, ok_bind, hmode]
    simp only [Address.mode_eq_extended_iff]
    rw [h.getDestinationAddressOffset, hcopied]
    rfl
  · rw [hl', hafter, ← List.append_assoc]
    exact congrArg (_ :: · :: _) hsecond

theorem setShortDestinationAddress_represents (h : self.Represents fields)
    (address : Vector UInt8 2) :
    ∃ next, self.setShortDestinationAddress address = .ok next ∧
      next.Represents { fields with destination := .short address } := by
  have hmoved : ∃ moved after behind,
      (if self.getDestinationAddressingMode = ADDRESSING_MODE_EXTENDED_ADDRESS then
        self.moveSourceAddress
          (sizeDifference ADDRESSING_MODE_SHORT_ADDRESS ADDRESSING_MODE_EXTENDED_ADDRESS)
      else .ok self) = .ok moved ∧
      moved.data.toList = fields.firstControlByte :: fields.secondControlByte ::
        (fields.beforeDestination ++ after) ∧
      after.drop 2 = fields.source.toList ++ behind := by
    simp only [h.getDestinationAddressingMode, Address.mode_eq_extended_iff]
    cases hd : fields.destination with
    | extended old =>
        rw [if_pos (by rfl)]
        exact moveSourceAddress_together h old hd
    | short old =>
        rw [if_neg (by simp)]
        have hlength : fields.destination.toList.length = 2 := by
          rw [hd]
          exact old.length_toList
        obtain ⟨after, behind, hl, hafter⟩ := destination_stays h hlength
        exact ⟨self, after, behind, rfl, hl, hafter⟩
  obtain ⟨moved, after, behind, hmoved, hl, hafter⟩ := hmoved
  have hbefore : fields.beforeDestination.length ≤ 3 := by
    rw [fields.length_beforeDestination]
    have := fields.length_sequenceNumber_le
    omega
  -- the offset is read again, from the same suppression bit
  have hoffset : moved.getDestinationAddressOffset.toNat = fields.beforeDestination.length + 2 := by
    rw [← h.getDestinationAddressOffset, toNat_getDestinationAddressOffset,
      toNat_getDestinationAddressOffset, h.getSequenceNumberSize, getSequenceNumberSize,
      sequenceNumberIsPresent_eq hl, fields.getLsbD_suppression]
    cases fields.sequenceNumber <;> rfl
  have hfirst := HeaderFields.firstControlByte_short { fields with destination := .short address }
    (by simp) fields rfl
  have hsecond := fields.secondControlByte_destination (.short address)
  have hl := toList_enablePanIdCompression hl
  obtain ⟨copied, hcopied, hl'⟩ := copyDestinationAddress hl hbefore address 2 rfl (by decide)
  have hl' := toList_setDestinationAddressingMode hl' ADDRESSING_MODE_SHORT_ADDRESS (by decide)
  refine ⟨copied.setDestinationAddressingMode ADDRESSING_MODE_SHORT_ADDRESS, ?_,
    (represents_iff _ _).mpr ⟨behind, ?_⟩⟩
  · rw [setShortDestinationAddress, hmoved, ok_bind, hoffset]
    change (moved.enablePanIdCompression.copyBytes address (fields.beforeDestination.length + 2) 2 >>=
      fun copied => pure (copied.setDestinationAddressingMode ADDRESSING_MODE_SHORT_ADDRESS)) = _
    rw [hcopied]
    rfl
  · rw [hl', hfirst, hafter, ← List.append_assoc]
    exact congrArg (_ :: · :: _) hsecond

theorem setter_represents (h : self.Represents fields) (setter : FieldSetter) :
    ∃ next, setter.apply self = .ok next ∧ next.Represents (FieldSetter.update fields setter) := by
  cases setter with
  | setPanId pan_id => exact setPanId_represents h pan_id
  | setShortSourceAddress address => exact setShortSourceAddress_represents h address
  | setExtendedSourceAddress address => exact setExtendedSourceAddress_represents h address
  | setShortDestinationAddress address => exact setShortDestinationAddress_represents h address
  | setExtendedDestinationAddress address => exact setExtendedDestinationAddress_represents h address
  | enableAcknowledgementRequest =>
      exact ⟨_, rfl, enableAcknowledgementRequest_represents h⟩

theorem init_represents (self : FrameHeader802154) :
    self.init.Represents (HeaderFields.initial (some 0)) := by
  refine (represents_iff _ _).mpr ⟨List.replicate 12 0, ?_⟩
  rw [toList_init]
  rfl

theorem enableSequenceNumberSuppression_represents (self : FrameHeader802154) :
    self.init.enableSequenceNumberSuppression.Represents (HeaderFields.initial none) := by
  refine (represents_iff _ _).mpr ⟨List.replicate 13 0, ?_⟩
  rw [toList_enableSequenceNumberSuppression (toList_init self)]
  rfl

theorem setters_represent (h : self.Represents fields) (setters : List FieldSetter) :
    ∃ last, runAll FieldSetter.apply setters self = .ok last ∧
      last.Represents (setters.foldl FieldSetter.update fields) :=
  runAll_invariant FieldSetter.apply FieldSetter.update
    (fun fields self => self.Represents fields) (fun _ _ setter h => setter_represents h setter)
    setters fields self h

-- Whatever the setters did to the array, its first bytes spell out the fields
-- as they were last set.
theorem setters_refine_fields (prior : FrameHeader802154) (suppressed : Bool)
    (setters : List FieldSetter) :
    ∃ last, runAll FieldSetter.apply setters
        (if suppressed then prior.init.enableSequenceNumberSuppression else prior.init) = .ok last ∧
      last.getHeaderSize.toNat = (HeaderFields.afterSetters suppressed setters).toBytes.length ∧
      last.data.toList.take last.getHeaderSize.toNat =
        (HeaderFields.afterSetters suppressed setters).toBytes := by
  have hinit : (if suppressed then prior.init.enableSequenceNumberSuppression
      else prior.init).Represents (HeaderFields.initial (if suppressed then none else some 0)) := by
    cases suppressed with
    | false => exact init_represents prior
    | true => exact enableSequenceNumberSuppression_represents prior
  obtain ⟨last, hlast, h⟩ := setters_represent hinit setters
  exact ⟨last, hlast, h.getHeaderSize, h.take_getHeaderSize⟩

end Setters

end FrameHeader802154

end Mac802154
