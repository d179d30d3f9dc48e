import Mac802154.FrameHeader802154.Suppression

namespace Mac802154

open Library FrameHeader802154

-- The addresses that one more byte before them leaves whole: behind a short
-- destination address, the first six bytes of the source address are moved twice.
def HeaderFields.Insertable (fields : HeaderFields) : Prop :=
  fields.destination.isExtended ∨ Constant (fields.source.toList.take 6)

namespace FrameHeader802154

private theorem getElem?_insertion {xs : List UInt8} {d s : Nat} (number : UInt8)
    (hlen : xs.length = 19) (hd : d ≤ 8) (hs : s ≤ 8) (j : Nat) (hlo : 1 ≤ j)
    (hhi : j < 3 + d + s) :
    (splice (shiftRight (shiftRight (shiftRight xs (2 + d) s) 2 8) 0 2) 0 [number])[j]? =
      if 4 + d ≤ j ∧ j ≤ 10 then xs[j - 2]? else xs[j - 1]? := by
  have hlen₁ : (shiftRight xs (2 + d) s).length = 19 := by
    rw [length_shiftRight _ _ _ (by omega), hlen]
  have hlen₂ : (shiftRight (shiftRight xs (2 + d) s) 2 8).length = 19 := by
    rw [length_shiftRight _ _ _ (by omega), hlen₁]
  rw [getElem?_splice_of_ge _ _ _ _ (by omega) (by simpa using hlo),
    getElem?_shiftRight _ _ _ _ (by omega)]
  by_cases hpan : 0 < j ∧ j < 0 + 1 + 2
  · rw [if_pos hpan, getElem?_shiftRight _ _ _ _ (by omega), if_neg (by omega),
      getElem?_shiftRight _ _ _ _ (by omega), if_neg (by omega), if_neg (by omega)]
  · rw [if_neg hpan, getElem?_shiftRight _ _ _ _ (by omega)]
    by_cases hdestination : 2 < j ∧ j < 2 + 1 + 8
    · rw [if_pos hdestination, getElem?_shiftRight _ _ _ _ (by omega)]
      -- of the eight bytes, those behind the destination address have moved before
      by_cases hsource : 2 + d < j - 1 ∧ j - 1 < 2 + d + 1 + s
      · rw [if_pos hsource, if_pos (by omega), Nat.sub_sub]
      · rw [if_neg hsource, if_neg (by omega)]
    · rw [if_neg hdestination, getElem?_shiftRight _ _ _ _ (by omega), if_pos (by omega),
        if_neg (by omega)]

-- Only a short destination address is shorter than what is moved for it.
private theorem insertion_iff {fields : HeaderFields} {behind : List UInt8} (number : UInt8)
    (hlen : (fields.shifted ++ behind).length = 19) :
    number :: fields.shifted <+: splice (shiftRight (shiftRight (shiftRight
        (fields.shifted ++ behind) (2 + fields.destination.toList.length)
          fields.source.toList.length) 2 8) 0 2) 0 [number] ↔ fields.Insertable := by
  have hd := fields.destination.length_toList_le
  have hs := fields.source.length_toList_le
  have hshifted := fields.length_shifted
  have hzero : (splice (shiftRight (shiftRight (shiftRight (fields.shifted ++ behind)
      (2 + fields.destination.toList.length) fields.source.toList.length) 2 8) 0 2) 0
        [number])[0]? = some number := by
    rw [getElem?_splice_of_mem _ _ _ _ (Nat.zero_le _) (Nat.le_refl 0) (by simp)]
    rfl
  have hsource (i : Nat) : fields.shifted[2 + fields.destination.toList.length + i]? =
      fields.source.toList[i]? := by
    rw [HeaderFields.shifted, ← List.append_assoc, List.getElem?_append_right (by simp)]
    congr 1
    simp
  rw [cons_prefix_iff_getElem? hzero, HeaderFields.Insertable]
  cases hdestination : fields.destination with
  | extended address =>
      simp only [hdestination, Address.length_toList_extended] at hd hshifted ⊢
      refine ⟨fun _ => .inl rfl, fun _ j hlo hhi => ?_⟩
      rw [getElem?_insertion number hlen hd hs j hlo (by omega), if_neg (by omega),
        List.getElem?_append_left (by omega)]
  | short address =>
      simp only [hdestination, Address.length_toList_short, Address.isExtended_short,
        Bool.false_eq_true, false_or] at hd hshifted hsource ⊢
      rw [constant_iff_neighbours, List.length_take]
      constructor
      · intro h i hi
        have hj := h (6 + i) (by omega) (by omega)
        rw [getElem?_insertion number hlen hd hs _ (by omega) (by omega), if_pos (by omega),
          List.getElem?_append_left (by omega), show 6 + i - 2 = 2 + 2 + i by omega,
          show 6 + i - 1 = 2 + 2 + (i + 1) by omega, hsource, hsource] at hj
        rw [List.getElem?_take_of_lt (by omega), List.getElem?_take_of_lt (by omega), hj]
      · intro h j hlo hhi
        rw [getElem?_insertion number hlen hd hs j hlo (by omega)]
        by_cases htwice : 4 + 2 ≤ j ∧ j ≤ 10
        · have hi := h (j - 6) (by omega)
          rw [List.getElem?_take_of_lt (by omega), List.getElem?_take_of_lt (by omega), ← hsource,
            ← hsource] at hi
          rw [if_pos htwice, List.getElem?_append_left (by omega),
            show j - 2 = 2 + 2 + (j - 6) by omega, ← hi]
          congr 1
          omega
        · rw [if_neg htwice, List.getElem?_append_left (by omega)]

section Control

variable {self : FrameHeader802154} {first second : UInt8} {rest : List UInt8}

theorem bitAt_first (hl : self.data.toList = first :: second :: rest) (k : Nat) (hk : k < 8) :
    bitAt self.data k = first.toBitVec.getLsbD k := by
  have hbit := bitAt_of_lt self.data 0 k (by decide) hk
  rwa [Nat.mul_zero, Nat.zero_add, getElem_zero hl] at hbit

theorem bitAt_second (hl : self.data.toList = first :: second :: rest) (k : Nat) (hk : k < 8) :
    bitAt self.data (8 + k) = second.toBitVec.getLsbD k := by
  have hbit := bitAt_of_lt self.data 1 k (by decide) hk
  rwa [Nat.mul_one, getElem_one hl] at hbit

end Control

variable [BitManipulation]

-- The header `next` is `header` with a sequence number behind its control bytes.
structure Inserts (header next : FrameHeader802154) (number : UInt8) : Prop where
  suppression : bitAt next.data sequence_number_suppression_offset.toNat = false
  control : ∀ k < 16, k ≠ sequence_number_suppression_offset.toNat →
    bitAt next.data k = bitAt header.data k
  size : next.getHeaderSize.toNat = header.getHeaderSize.toNat + 1
  bytes : next.data.toList.take next.getHeaderSize.toNat = next.data.toList.take 2 ++
    number :: slice header.data.toList 2 (header.getHeaderSize.toNat - 2)

theorem setSequenceNumber_inserts {self : FrameHeader802154} {fields : HeaderFields}
    (h : self.Represents fields) (hnone : fields.sequenceNumber = none) (number : UInt8) :
    ∃ next, self.setSequenceNumber number = .ok next ∧
      (Inserts self next number ↔ fields.Insertable) := by
  obtain ⟨behind, hl⟩ := h.layout
  rw [hnone] at hl
  have hl : self.data.toList = fields.firstControlByte :: fields.secondControlByte ::
      (fields.shifted ++ behind) := hl
  have hlen := length_rest hl
  have hd := h.getDestinationAddressSize
  have hs := h.getSourceAddressSize
  have hd' := fields.destination.length_toList_le
  have hs' := fields.source.length_toList_le
  have hq : self.getSequenceNumberSize.toNat = 0 := by rw [h.getSequenceNumberSize, hnone]; rfl
  have hsourceOffset := toNat_getSourceAddressOffset self
  have hdestinationOffset := toNat_getDestinationAddressOffset self
  have hpanIdOffset := toNat_getPanIdOffset self
  obtain ⟨next, hnext, hl'⟩ := setSequenceNumber_toList hl number
    (fun _ => by unfold MAXIMUM_HEADER_SIZE; omega)
  rw [show self.getSourceAddressOffset.toNat - 2 = 2 + fields.destination.toList.length by omega,
    show self.getDestinationAddressOffset.toNat - 2 = 2 by omega,
    show self.getPanIdOffset.toNat - 2 = 0 by omega, hs] at hl'
  obtain ⟨hpanId, hdestination, hsource⟩ := sizes_of_suppression hl hl' (.inl rfl)
  have hsequence : next.getSequenceNumberSize.toNat = 1 :=
    getSequenceNumberSize_of_suppression hl'
  have hsize : next.getHeaderSize.toNat = self.getHeaderSize.toNat + 1 := by
    rw [toNat_getHeaderSize, toNat_getHeaderSize, hpanId, hdestination, hsource]
    omega
  have hold : self.getHeaderSize.toNat = fields.shifted.length + 2 := by
    rw [h.getHeaderSize, fields.length_toBytes, hnone, fields.length_shifted]
    simp only [Option.toList_none, List.length_nil]
    omega
  have hsuppression : bitAt next.data 8 = false := by
    rw [show 8 = 8 + 0 from rfl, bitAt_second hl' 0 (by decide),
      getLsbD_insertBits _ _ _ _ _ (by decide)]
    simp
  have hcontrol (k : Nat) (hk : k < 16) (hne : k ≠ 8) : bitAt next.data k = bitAt self.data k := by
    by_cases hfirst : k < 8
    · rw [bitAt_first hl' k hfirst, bitAt_first hl k hfirst]
    · have hbit : k - 8 ≠ 0 := by omega
      rw [show k = 8 + (k - 8) by omega, bitAt_second hl' _ (by omega), bitAt_second hl _ (by omega),
        getLsbD_insertBits _ _ _ _ _ (by omega)]
      simp [hbit]
  refine ⟨next, hnext, ?_⟩
  rw [← insertion_iff number hlen, List.prefix_iff_eq_take, List.length_cons]
  have hslice : slice self.data.toList 2 (self.getHeaderSize.toNat - 2) = fields.shifted := by
    rw [hl, hold, slice_cons_succ, slice_cons_succ, Nat.add_sub_cancel]
    exact (prefix_iff_slice _ _).mp (List.prefix_append _ _)
  constructor
  · intro hi
    have hbytes := hi.bytes
    rw [hslice, hsize, hold, hl'] at hbytes
    simpa using hbytes.symm
  · intro hbytes
    refine ⟨hsuppression, hcontrol, hsize, ?_⟩
    rw [hslice, hsize, hold, hl']
    simpa using hbytes.symm

omit [BitManipulation] in
theorem sequenceNumber_foldl (setters : List FieldSetter) (fields : HeaderFields) :
    (setters.foldl FieldSetter.update fields).sequenceNumber = fields.sequenceNumber := by
  induction setters generalizing fields with
  | nil => rfl
  | cons setter setters ih =>
      rw [List.foldl_cons, ih]
      cases setter <;> rfl

-- A sequence number is inserted into a header without one exactly if the
-- destination address is extended or the first six bytes of the source address
-- are all the same.
theorem setSequenceNumber_inserts_iff (prior : FrameHeader802154) (setters : List FieldSetter)
    (number : UInt8) :
    ∃ header next, runAll FieldSetter.apply setters prior.init.enableSequenceNumberSuppression =
        .ok header ∧ header.setSequenceNumber number = .ok next ∧
      (Inserts header next number ↔ (HeaderFields.afterSetters true setters).Insertable) := by
  obtain ⟨header, hheader, h⟩ :=
    setters_represent (enableSequenceNumberSuppression_represents prior) setters
  have hnone : (HeaderFields.afterSetters true setters).sequenceNumber = none :=
    sequenceNumber_foldl setters _
  obtain ⟨next, hnext, hiff⟩ := setSequenceNumber_inserts h hnone number
  exact ⟨header, next, hheader, hnext, hiff⟩

omit [BitManipulation] in
-- Two short addresses, and two different bytes in that of the source.
theorem setSequenceNumber_repeats_source : ¬∀ (setters : List FieldSetter) (number : UInt8),
    ∃ header next, runAll (@FieldSetter.apply BitManipulation.reference) setters
        (@enableSequenceNumberSuppression BitManipulation.reference
          (@init BitManipulation.reference ⟨Vector.replicate 21 0⟩)) = .ok header ∧
      @setSequenceNumber BitManipulation.reference header number = .ok next ∧
      @Inserts BitManipulation.reference header next number := by
  intro h
  obtain ⟨header, next, hheader, hnext, hinserts⟩ := h [.setShortSourceAddress #v[1, 2]] 5
  have hrun : runAll (@FieldSetter.apply BitManipulation.reference)
      [.setShortSourceAddress #v[1, 2]]
      (@enableSequenceNumberSuppression BitManipulation.reference
        (@init BitManipulation.reference ⟨Vector.replicate 21 0⟩)) =
      .ok ⟨#v[0x41, 0xA9, 0, 0, 0, 0, 1, 2, 0, 0, 0, 0, 0, 0, 0, 0, 0, 0, 0, 0, 0]⟩ := by
    decide +kernel
  rw [hrun] at hheader
  cases hheader
  have hset : @setSequenceNumber BitManipulation.reference
      ⟨#v[0x41, 0xA9, 0, 0, 0, 0, 1, 2, 0, 0, 0, 0, 0, 0, 0, 0, 0, 0, 0, 0, 0]⟩ 5 =
      .ok ⟨#v[0x41, 0xA8, 5, 0, 0, 0, 0, 1, 1, 2, 0, 0, 0, 0, 0, 0, 0, 0, 0, 0, 0]⟩ := by
    decide +kernel
  rw [hset] at hnext
  cases hnext
  have hbytes := @Inserts.bytes BitManipulation.reference _ _ _ hinserts
  revert hbytes
  decide +kernel

end FrameHeader802154

end Mac802154
