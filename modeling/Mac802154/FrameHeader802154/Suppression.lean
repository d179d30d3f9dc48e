import Mac802154.FrameHeader802154.SequenceNumber

namespace Mac802154

open Library FrameHeader802154

namespace FrameHeader802154

variable [BitManipulation]

-- What the accessors find in a header.
structure Reads (header : FrameHeader802154) (fields : HeaderFields) (suppressed : Bool) : Prop where
  panId : slice header.data.toList header.getPanIdPtr header.getPanIdSize.toNat = fields.panId.toList
  destination : slice header.data.toList header.getDestinationAddressPtr
    header.getDestinationAddressSize.toNat = fields.destination.toList
  source : slice header.data.toList header.getSourceAddressPtr
    header.getSourceAddressSize.toNat = fields.source.toList
  size : header.getHeaderSize.toNat = (if suppressed then 0 else 1) + 4 +
    fields.destination.toList.length + fields.source.toList.length

-- The fields can be read at the same places with and without a sequence number.
def Interchangeable (self : FrameHeader802154) : Prop :=
  Constant (slice self.data.toList 2
    (3 + self.getDestinationAddressSize.toNat + self.getSourceAddressSize.toNat))

end FrameHeader802154

-- The setters of a header whose sequence number comes and goes.
inductive SuppressionSetter where
  | field (setter : FieldSetter)
  | enableSequenceNumberSuppression
  | disableSequenceNumberSuppression

namespace SuppressionSetter

variable [BitManipulation]

def apply (setter : SuppressionSetter) (self : FrameHeader802154) : Checked FrameHeader802154 :=
  match setter with
  | field setter => setter.apply self
  | enableSequenceNumberSuppression => .ok self.enableSequenceNumberSuppression
  | disableSequenceNumberSuppression => .ok self.disableSequenceNumberSuppression

omit [BitManipulation] in
-- The fields as last set, and whether the sequence number is suppressed.
def update (last : HeaderFields × Bool) : SuppressionSetter → HeaderFields × Bool
  | field setter => (setter.update last.1, last.2)
  | enableSequenceNumberSuppression => (last.1, true)
  | disableSequenceNumberSuppression => (last.1, false)

-- Nothing is moved when the suppression bit changes.
def Allowed (setter : SuppressionSetter) (self : FrameHeader802154) : Prop :=
  match setter with
  | field _ => True
  | enableSequenceNumberSuppression => self.sequenceNumberIsPresent = true → self.Interchangeable
  | disableSequenceNumberSuppression => self.sequenceNumberIsPresent = false → self.Interchangeable

end SuppressionSetter

namespace FrameHeader802154

section Sizes

variable [BitManipulation] {self next : FrameHeader802154} {first second value : UInt8}
  {rest rest' : List UInt8}

-- The suppression bit decides on the size of the sequence number only.
theorem sizes_of_suppression (hl : self.data.toList = first :: second :: rest)
    (hl' : next.data.toList = first :: insertBits second 1 0 value :: rest')
    (hvalue : value = 0 ∨ value = 1) :
    next.getPanIdSize = self.getPanIdSize ∧
      next.getDestinationAddressSize = self.getDestinationAddressSize ∧
      next.getSourceAddressSize = self.getSourceAddressSize := by
  have hsource : extractBits (insertBits second 1 0 value) 0b11 6 = extractBits second 0b11 6 := by
    apply extractBits_insertBits
    rcases hvalue with rfl | rfl <;> decide
  have hdestination : extractBits (insertBits second 1 0 value) 0b11 2 = extractBits second 0b11 2 := by
    apply extractBits_insertBits
    rcases hvalue with rfl | rfl <;> decide
  have hsourceMode : next.getSourceAddressingMode = self.getSourceAddressingMode := by
    rw [getSourceAddressingMode_eq hl', getSourceAddressingMode_eq hl, hsource]
  have hdestinationMode : next.getDestinationAddressingMode = self.getDestinationAddressingMode := by
    rw [getDestinationAddressingMode_eq hl', getDestinationAddressingMode_eq hl, hdestination]
  refine ⟨?_, ?_, ?_⟩
  · rw [getPanIdSize, getPanIdSize, panIdIsPresent, panIdIsPresent, hsourceMode, hdestinationMode,
      panIdCompressionIsEnabled_eq hl', panIdCompressionIsEnabled_eq hl]
  · rw [getDestinationAddressSize, getDestinationAddressSize, hdestinationMode]
  · rw [getSourceAddressSize, getSourceAddressSize, hsourceMode]

theorem getSequenceNumberSize_of_suppression
    (hl : self.data.toList = first :: insertBits second 1 0 value :: rest) :
    self.getSequenceNumberSize.toNat = if value.toBitVec.getLsbD 0 then 0 else 1 := by
  rw [getSequenceNumberSize, sequenceNumberIsPresent_eq hl,
    getLsbD_insertBits _ _ _ _ _ (by decide)]
  cases value.toBitVec.getLsbD 0 <;> simp

end Sizes

section Reading

variable [BitManipulation] {self next : FrameHeader802154} {fields : HeaderFields}
  {first second : UInt8} {rest : List UInt8} {suppressed : Bool}

-- The fields are read as one range behind the sequence number.
theorem reads_iff (hl : self.data.toList = first :: second :: rest)
    (hpanId : self.getPanIdSize.toNat = 2)
    (hdestination : self.getDestinationAddressSize.toNat = fields.destination.toList.length)
    (hsource : self.getSourceAddressSize.toNat = fields.source.toList.length)
    (hsequence : self.getSequenceNumberSize.toNat = if suppressed then 0 else 1) :
    self.Reads fields suppressed ↔
      slice rest self.getSequenceNumberSize.toNat fields.shifted.length = fields.shifted := by
  have hlen := length_rest hl
  have hd := fields.destination.length_toList_le
  have hs := fields.source.length_toList_le
  have hq := getSequenceNumberSize_le self
  have hsize := toNat_getHeaderSize self
  have hpanIdPtr : self.getPanIdPtr = self.getSequenceNumberSize.toNat + 1 + 1 := by
    rw [getPanIdPtr, toNat_getPanIdOffset]
    omega
  have hdestinationPtr : self.getDestinationAddressPtr =
      self.getSequenceNumberSize.toNat + 2 + 1 + 1 := by
    rw [getDestinationAddressPtr, toNat_getDestinationAddressOffset]
    omega
  have hsourcePtr : self.getSourceAddressPtr =
      self.getSequenceNumberSize.toNat + 2 + fields.destination.toList.length + 1 + 1 := by
    rw [getSourceAddressPtr, toNat_getSourceAddressOffset]
    omega
  have hsplit : slice rest self.getSequenceNumberSize.toNat fields.shifted.length =
      slice rest self.getSequenceNumberSize.toNat 2 ++
        (slice rest (self.getSequenceNumberSize.toNat + 2) fields.destination.toList.length ++
          slice rest (self.getSequenceNumberSize.toNat + 2 + fields.destination.toList.length)
            fields.source.toList.length) := by
    rw [fields.length_shifted, Nat.add_assoc, slice_add, slice_add]
  rw [hsplit, HeaderFields.shifted]
  constructor
  · intro h
    have hp := h.panId
    have hd := h.destination
    have hs := h.source
    rw [hl, hpanIdPtr, hpanId, slice_cons_succ, slice_cons_succ] at hp
    rw [hl, hdestinationPtr, hdestination, slice_cons_succ, slice_cons_succ] at hd
    rw [hl, hsourcePtr, hsource, slice_cons_succ, slice_cons_succ] at hs
    rw [hp, hd, hs]
  · intro h
    obtain ⟨hp, htail⟩ := List.append_inj h (by
      rw [length_slice _ _ _ (by omega), Vector.length_toList])
    obtain ⟨hd, hs⟩ := List.append_inj htail (length_slice _ _ _ (by omega))
    refine ⟨?_, ?_, ?_, by omega⟩
    · rw [hl, hpanIdPtr, hpanId, slice_cons_succ, slice_cons_succ, hp]
    · rw [hl, hdestinationPtr, hdestination, slice_cons_succ, slice_cons_succ, hd]
    · rw [hl, hsourcePtr, hsource, slice_cons_succ, slice_cons_succ, hs]

omit [BitManipulation] in
-- The header holds the fields last set, behind some sequence number or none.
def Holds (self : FrameHeader802154) (last : HeaderFields × Bool) : Prop :=
  ∃ number : Option UInt8, number.isNone = last.2 ∧
    self.Represents { last.1 with sequenceNumber := number }

omit [BitManipulation] in
theorem Represents.exists_rest {number : Option UInt8}
    (h : self.Represents { fields with sequenceNumber := number }) :
    ∃ rest, self.data.toList = fields.firstControlByte ::
        { fields with sequenceNumber := number }.secondControlByte :: rest ∧
      slice rest number.toList.length fields.shifted.length = fields.shifted := by
  obtain ⟨behind, hl⟩ := h.layout
  exact ⟨_, hl, slice_append number.toList fields.shifted behind⟩

theorem Represents.reads {number : Option UInt8}
    (h : self.Represents { fields with sequenceNumber := number }) :
    self.Reads fields number.isNone := by
  obtain ⟨rest, hl, hread⟩ := h.exists_rest
  have hsize := h.getSequenceNumberSize
  have hsequence : self.getSequenceNumberSize.toNat = if number.isNone then 0 else 1 := by
    rw [hsize]
    cases number <;> rfl
  have hreads : self.Reads fields number.isNone ↔ _ :=
    reads_iff hl (by rw [getPanIdSize_eq, h.panIdIsPresent, if_pos rfl])
      h.getDestinationAddressSize h.getSourceAddressSize hsequence
  rw [hreads, hsize]
  exact hread

omit [BitManipulation] in
-- The other way round, what is read of a header with the right control bytes
-- is what it holds.
theorem holds_of_slice (hl : self.data.toList = fields.firstControlByte :: second :: rest)
    (hsecond : ∀ number : Option UInt8, number.isNone = suppressed →
      second = { fields with sequenceNumber := number }.secondControlByte)
    (h : slice rest (if suppressed then 0 else 1) fields.shifted.length = fields.shifted) :
    self.Holds (fields, suppressed) := by
  cases suppressed with
  | true =>
      refine ⟨none, rfl, ?_⟩
      rw [Represents, hl, HeaderFields.toBytes, HeaderFields.body_eq, hsecond none rfl]
      exact List.cons_prefix_cons.mpr ⟨rfl, List.cons_prefix_cons.mpr
        ⟨rfl, (prefix_iff_slice _ _).mpr h⟩⟩
  | false =>
      have hlen := length_rest hl
      obtain ⟨number, rest, rfl⟩ := List.exists_cons_of_length_pos (by omega : 0 < rest.length)
      refine ⟨some number, rfl, ?_⟩
      rw [Represents, hl, HeaderFields.toBytes, HeaderFields.body_eq, hsecond (some number) rfl]
      exact List.cons_prefix_cons.mpr ⟨rfl, List.cons_prefix_cons.mpr ⟨rfl,
        List.cons_prefix_cons.mpr ⟨rfl, (prefix_iff_slice _ _).mpr h⟩⟩⟩

-- A call that changes the suppression bit of a header that holds its fields.
theorem suppression_reads_iff {number : Option UInt8}
    (h : self.Represents { fields with sequenceNumber := number })
    (hchange : number.isNone = !suppressed)
    (hnext : ∀ {first second rest}, self.data.toList = first :: second :: rest →
      next.data.toList = first :: insertBits second 1 0 (if suppressed then 1 else 0) :: rest) :
    (next.Reads fields suppressed ↔ self.Interchangeable) ∧
      (self.Interchangeable → next.Holds (fields, suppressed)) := by
  obtain ⟨rest, hl, hread⟩ := h.exists_rest
  have hl' := hnext hl
  have hvalue : (if suppressed then (1 : UInt8) else 0) = 0 ∨
      (if suppressed then (1 : UInt8) else 0) = 1 := by cases suppressed <;> simp
  obtain ⟨hpanId, hdestination, hsource⟩ := sizes_of_suppression hl hl' hvalue
  have hsequence : next.getSequenceNumberSize.toNat = if suppressed then 0 else 1 := by
    rw [getSequenceNumberSize_of_suppression hl']
    cases suppressed <;> rfl
  have hreads : next.Reads fields suppressed ↔ _ :=
    reads_iff hl' (by rw [hpanId, getPanIdSize_eq, h.panIdIsPresent, if_pos rfl])
      (by rw [hdestination]; exact h.getDestinationAddressSize)
      (by rw [hsource]; exact h.getSourceAddressSize) hsequence
  have hlen := length_rest hl
  have hinterchangeable : self.Interchangeable ↔
      Constant (slice rest 0 (fields.shifted.length + 1)) := by
    rw [Interchangeable, hl, slice_cons_succ, slice_cons_succ, h.getDestinationAddressSize,
      h.getSourceAddressSize, fields.length_shifted,
      show 2 + fields.destination.toList.length + fields.source.toList.length + 1 =
        3 + fields.destination.toList.length + fields.source.toList.length by omega]
  have hshifted := fields.length_shifted
  have hd := fields.destination.length_toList_le
  have hs := fields.source.length_toList_le
  have hconstant := slice_succ_eq_iff rest 0 fields.shifted.length (by omega)
  -- one of the two places is where the fields stand already
  have hplaces : slice rest (if suppressed then 0 else 1) fields.shifted.length = fields.shifted ↔
      self.Interchangeable := by
    rw [hinterchangeable, ← hconstant]
    cases number with
    | none =>
        have hsuppressed : suppressed = false := by simpa using hchange
        subst hsuppressed
        rw [if_neg (by simp), Nat.zero_add]
        exact Eq.congr_right hread.symm
    | some number =>
        have hsuppressed : suppressed = true := by simpa using hchange
        subst hsuppressed
        rw [if_pos rfl, Nat.zero_add, eq_comm]
        exact Eq.congr_left hread.symm
  refine ⟨by rw [hreads, hsequence, hplaces], fun hi => holds_of_slice hl' ?_ (hplaces.mpr hi)⟩
  intro number' hnumber'
  rw [← hnumber']
  exact HeaderFields.secondControlByte_sequenceNumber _ number'

-- A call that leaves the suppression bit as it is changes nothing.
theorem suppression_holds {number : Option UInt8}
    (h : self.Represents { fields with sequenceNumber := number })
    (hnext : ∀ {first second rest}, self.data.toList = first :: second :: rest →
      next.data.toList = first :: insertBits second 1 0 (if suppressed then 1 else 0) :: rest)
    (hallowed : (number.isNone = !suppressed) → self.Interchangeable) :
    next.Holds (fields, suppressed) := by
  by_cases hchange : number.isNone = !suppressed
  · exact (suppression_reads_iff h hchange hnext).2 (hallowed hchange)
  · have hsame : number.isNone = suppressed := by simpa using hchange
    obtain ⟨rest, hl, -⟩ := h.exists_rest
    have hsecond := HeaderFields.secondControlByte_sequenceNumber
      { fields with sequenceNumber := number } number
    rw [hsame] at hsecond
    refine ⟨number, hsame, ?_⟩
    rw [Represents, hnext hl, hsecond, ← hl]
    exact h

end Reading

section Runs

variable [BitManipulation]

omit [BitManipulation] in
theorem update_sequenceNumber (fields : HeaderFields) (number : Option UInt8)
    (setter : FieldSetter) :
    FieldSetter.update { fields with sequenceNumber := number } setter =
      { FieldSetter.update fields setter with sequenceNumber := number } := by
  cases setter <;> rfl

theorem Holds.step {self : FrameHeader802154} {last : HeaderFields × Bool}
    (h : self.Holds last) (setter : SuppressionSetter) (hallowed : setter.Allowed self) :
    ∃ next, setter.apply self = .ok next ∧ next.Holds (SuppressionSetter.update last setter) := by
  obtain ⟨number, hnumber, h⟩ := h
  have hpresent : self.sequenceNumberIsPresent = number.isSome := h.sequenceNumberIsPresent
  cases setter with
  | field setter =>
      obtain ⟨next, hnext, hr⟩ := setter_represents h setter
      rw [update_sequenceNumber] at hr
      exact ⟨next, hnext, number, hnumber, hr⟩
  | enableSequenceNumberSuppression =>
      refine ⟨_, rfl, suppression_holds h toList_enableSequenceNumberSuppression fun hchange => ?_⟩
      apply hallowed
      cases number <;> simp_all
  | disableSequenceNumberSuppression =>
      refine ⟨_, rfl, suppression_holds h toList_disableSequenceNumberSuppression fun hchange => ?_⟩
      apply hallowed
      cases number <;> simp_all

theorem Holds.allowed {self next : FrameHeader802154} {last : HeaderFields × Bool}
    (h : self.Holds last) (setter : SuppressionSetter) (hnext : setter.apply self = .ok next)
    (hreads : next.Reads (SuppressionSetter.update last setter).1
      (SuppressionSetter.update last setter).2) : setter.Allowed self := by
  obtain ⟨number, hnumber, h⟩ := h
  have hpresent : self.sequenceNumberIsPresent = number.isSome := h.sequenceNumberIsPresent
  cases setter with
  | field setter => trivial
  | enableSequenceNumberSuppression =>
      cases hnext
      intro hset
      have hchange : number.isNone = !true := by cases number <;> simp_all
      exact (suppression_reads_iff h hchange toList_enableSequenceNumberSuppression).1.mp hreads
  | disableSequenceNumberSuppression =>
      cases hnext
      intro hset
      have hchange : number.isNone = !false := by cases number <;> simp_all
      exact (suppression_reads_iff h hchange toList_disableSequenceNumberSuppression).1.mp hreads

-- Along a run the accessors find the fields last set exactly if the
-- suppression bit changes only where the bytes behind it are all equal.
theorem suppression_keeps_iff (prior : FrameHeader802154) (setters : List SuppressionSetter) :
    (∀ first rest, setters = first ++ rest →
      ∃ last, runAll SuppressionSetter.apply first prior.init = .ok last ∧
        last.Reads
          (first.foldl SuppressionSetter.update (HeaderFields.initial (some 0), false)).1
          (first.foldl SuppressionSetter.update (HeaderFields.initial (some 0), false)).2) ↔
      ∀ before setter after, setters = before ++ setter :: after →
        ∀ mid, runAll SuppressionSetter.apply before prior.init = .ok mid → setter.Allowed mid := by
  refine runAll_observed_iff SuppressionSetter.apply SuppressionSetter.update
    (fun last self => self.Holds last) (fun last self => self.Reads last.1 last.2)
    (fun _ setter self => setter.Allowed self) ?_ ?_ ?_ setters _ prior.init ?_
  · intro last self h
    obtain ⟨number, hnumber, h⟩ := h
    rw [← hnumber]
    exact h.reads
  · exact fun last self setter h hallowed => h.step setter hallowed
  · exact fun last self setter next h hnext hreads => h.allowed setter hnext hreads
  · exact ⟨some 0, rfl, init_represents prior⟩

omit [BitManipulation] in
-- A pan id, and then no sequence number any more.
theorem suppression_loses_panId : ¬∀ setters : List SuppressionSetter,
    ∃ last, runAll (@SuppressionSetter.apply BitManipulation.reference) setters
        (@init BitManipulation.reference ⟨Vector.replicate 21 0⟩) = .ok last ∧
      @Reads BitManipulation.reference last
        (setters.foldl SuppressionSetter.update (HeaderFields.initial (some 0), false)).1
        (setters.foldl SuppressionSetter.update (HeaderFields.initial (some 0), false)).2 := by
  intro h
  obtain ⟨last, hlast, hreads⟩ :=
    h [.field (.setPanId #v[1, 2]), .enableSequenceNumberSuppression]
  have hrun : runAll (@SuppressionSetter.apply BitManipulation.reference)
      [.field (.setPanId #v[1, 2]), .enableSequenceNumberSuppression]
      (@init BitManipulation.reference ⟨Vector.replicate 21 0⟩) =
      .ok ⟨#v[0x41, 0xA9, 0, 1, 2, 0, 0, 0, 0, 0, 0, 0, 0, 0, 0, 0, 0, 0, 0, 0, 0]⟩ := by
    decide +kernel
  rw [hrun] at hlast
  cases hlast
  have hpanId := @Reads.panId BitManipulation.reference _ _ _ hreads
  revert hpanId
  decide +kernel

end Runs

end FrameHeader802154

end Mac802154
