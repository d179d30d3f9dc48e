import Mac802154.FrameHeader802154.Theorems

namespace Mac802154

open Library FrameHeader802154

namespace HeaderFields

-- What setSequenceNumber moves.
def shifted (fields : HeaderFields) : List UInt8 :=
  fields.panId.toList ++ (fields.destination.toList ++ fields.source.toList)

-- The fields that a shift by one byte leaves as they are: all their bytes are
-- equal, and the byte behind them is still in the array.
def Uniform (fields : HeaderFields) : Prop :=
  ¬(fields.destination.isExtended ∧ fields.source.isExtended) ∧
    ∀ byte ∈ fields.shifted, fields.shifted[0]? = some byte

instance (fields : HeaderFields) : Decidable fields.Uniform :=
  inferInstanceAs (Decidable (_ ∧ _))

theorem body_eq (fields : HeaderFields) :
    fields.body = fields.sequenceNumber.toList ++ fields.shifted := by
  simp only [body, beforeSource, beforeDestination, shifted, List.append_assoc]

theorem length_shifted (fields : HeaderFields) :
    fields.shifted.length = 2 + fields.destination.toList.length + fields.source.toList.length := by
  simp only [shifted, List.length_append, Vector.length_toList]
  omega

end HeaderFields

-- The setters of a header that has a sequence number.
inductive HeaderSetter where
  | field (setter : FieldSetter)
  | setSequenceNumber (number : UInt8)

namespace HeaderSetter

def apply [BitManipulation] (setter : HeaderSetter) (self : FrameHeader802154) :
    Checked FrameHeader802154 :=
  match setter with
  | field setter => setter.apply self
  | setSequenceNumber number => self.setSequenceNumber number

def update (fields : HeaderFields) : HeaderSetter → HeaderFields
  | field setter => setter.update fields
  | setSequenceNumber number => { fields with sequenceNumber := some number }

theorem isSome_update {fields : HeaderFields} (h : fields.sequenceNumber.isSome)
    (setter : HeaderSetter) : (update fields setter).sequenceNumber.isSome := by
  cases setter with
  | field setter => cases setter <;> exact h
  | setSequenceNumber number => rfl

-- Every number is set while the other fields are uniform.
def Orderly : HeaderFields → List HeaderSetter → Prop
  | _, [] => True
  | fields, field setter :: setters => Orderly (setter.update fields) setters
  | fields, setSequenceNumber number :: setters =>
      fields.Uniform ∧ Orderly { fields with sequenceNumber := some number } setters

end HeaderSetter

namespace FrameHeader802154

theorem Represents.layout {self : FrameHeader802154} {fields : HeaderFields}
    (h : self.Represents fields) : ∃ behind, self.data.toList =
      fields.firstControlByte :: fields.secondControlByte ::
        (fields.sequenceNumber.toList ++ (fields.shifted ++ behind)) := by
  obtain ⟨behind, hl⟩ := h
  refine ⟨behind, ?_⟩
  rw [← hl, HeaderFields.toBytes, HeaderFields.body_eq, List.cons_append, List.cons_append,
    List.append_assoc]

-- What a reader of the header sees.
def HoldsFields [BitManipulation] (self : FrameHeader802154) (fields : HeaderFields) : Prop :=
  self.data.toList.take self.getHeaderSize.toNat = fields.toBytes

-- Every byte of the fields is, after the moves, a byte that stood before it.
private theorem getElem?_shifts {xs : List UInt8} {d s : Nat} (number : UInt8)
    (hlen : xs.length = 19) (hd : d ≤ 8) (hs : 4 + d + s ≤ 19) (j : Nat) (hlo : 1 ≤ j)
    (hhi : j < 3 + d + s) :
    ∃ k, (splice (shiftRight (shiftRight (shiftRight xs (3 + d) s) 3 8) 1 2) 0 [number])[j]? =
      xs[k]? ∧ 1 ≤ k ∧ k ≤ j ∧ (1 < j → k < j) := by
  have hlen₁ : (shiftRight xs (3 + d) s).length = 19 := by
    rw [length_shiftRight _ _ _ (by omega), hlen]
  have hlen₂ : (shiftRight (shiftRight xs (3 + d) s) 3 8).length = 19 := by
    rw [length_shiftRight _ _ _ (by omega), hlen₁]
  rw [getElem?_splice_of_ge _ _ _ _ (by omega) (by simpa using hlo),
    getElem?_shiftRight _ _ _ _ (by omega)]
  -- the pan id moves last: its bytes are still in place when it does
  by_cases hpan : 1 < j ∧ j < 1 + 1 + 2
  · rw [if_pos hpan, getElem?_shiftRight _ _ _ _ (by omega), if_neg (by omega),
      getElem?_shiftRight _ _ _ _ (by omega), if_neg (by omega)]
    exact ⟨j - 1, rfl, by omega, by omega, by omega⟩
  · rw [if_neg hpan, getElem?_shiftRight _ _ _ _ (by omega)]
    by_cases hdestination : 3 < j ∧ j < 3 + 1 + 8
    · rw [if_pos hdestination, getElem?_shiftRight _ _ _ _ (by omega)]
      split
      · exact ⟨j - 1 - 1, rfl, by omega, by omega, by omega⟩
      · exact ⟨j - 1, rfl, by omega, by omega, by omega⟩
    · rw [if_neg hdestination, getElem?_shiftRight _ _ _ _ (by omega)]
      split
      · exact ⟨j - 1, rfl, by omega, by omega, by omega⟩
      · exact ⟨j, rfl, by omega, by omega, by omega⟩

private theorem shifts_keep_iff {xs : List UInt8} {d s : Nat} (number : UInt8)
    (hlen : xs.length = 19) (hd : d ≤ 8) (hs : 4 + d + s ≤ 19) :
    (∀ j, 1 ≤ j → j < 3 + d + s →
      (splice (shiftRight (shiftRight (shiftRight xs (3 + d) s) 3 8) 1 2) 0 [number])[j]? = xs[j]?) ↔
      ∀ j, 1 ≤ j → j < 3 + d + s → xs[j]? = xs[1]? := by
  constructor
  · -- strong induction: the byte a kept one equals is equal to the first already
    intro hkeep j
    induction j using Nat.strongRecOn with
    | ind j ih =>
        intro hlo hhi
        by_cases hone : j = 1
        · rw [hone]
        · obtain ⟨k, hk, hk1, hkj, hlt⟩ := getElem?_shifts number hlen hd hs j hlo hhi
          rw [← hkeep j hlo hhi, hk]
          exact ih k (hlt (by omega)) hk1 (by omega)
  · intro hequal j hlo hhi
    obtain ⟨k, hk, hk1, hkj, -⟩ := getElem?_shifts number hlen hd hs j hlo hhi
    rw [hk, hequal k hk1 (by omega), hequal j hlo hhi]

-- The bytes behind the sequence number are still there after the moves exactly
-- if they are all equal.
private theorem shifts_hold_iff {ys behind : List UInt8} {old : UInt8} {d s : Nat} (number : UInt8)
    (hlen : (old :: (ys ++ behind)).length = 19) (hd : d ≤ 8) (hs : 4 + d + s ≤ 19)
    (hlength : ys.length = 2 + d + s) :
    number :: ys <+: splice (shiftRight (shiftRight (shiftRight (old :: (ys ++ behind)) (3 + d) s) 3 8)
        1 2) 0 [number] ↔ ∀ byte ∈ ys, ys[0]? = some byte := by
  have hfield (j : Nat) (hlo : 1 ≤ j) (hhi : j < 1 + ys.length) :
      (old :: (ys ++ behind))[j]? = ys[j - 1]? := by
    rw [List.getElem?_cons, if_neg (by omega), List.getElem?_append_left (by omega)]
  have hzero : (splice (shiftRight (shiftRight (shiftRight (old :: (ys ++ behind)) (3 + d) s) 3 8)
      1 2) 0 [number])[0]? = some number := by
    rw [getElem?_splice_of_mem _ _ _ _ (Nat.zero_le _) (Nat.le_refl 0) (by simp)]
    rfl
  have hkeep := shifts_keep_iff number hlen hd hs
  rw [cons_prefix_iff_getElem? hzero]
  constructor
  · intro hkept byte hbyte
    obtain ⟨i, hi, rfl⟩ := List.getElem_of_mem hbyte
    have hequal := hkeep.mp (fun j hlo hhi => by
      rw [hkept j hlo (by omega), hfield j hlo (by omega)]) (i + 1) (by omega) (by omega)
    rw [hfield (i + 1) (by omega) (by omega), hfield 1 (by omega) (by omega), Nat.sub_self,
      Nat.add_sub_cancel, List.getElem?_eq_getElem hi] at hequal
    exact hequal.symm
  · intro huniform
    have hfirst (j : Nat) (hlo : 1 ≤ j) (hhi : j < 1 + ys.length) :
        (old :: (ys ++ behind))[j]? = ys[0]? := by
      rw [hfield j hlo hhi, List.getElem?_eq_getElem (by omega)]
      exact (huniform _ (List.getElem_mem _)).symm
    intro j hlo hhi
    rw [← hfield j hlo hhi]
    refine hkeep.mpr (fun i hi hi' => ?_) j hlo (by omega)
    rw [hfirst i hi (by omega), hfirst 1 (by omega) (by omega)]

variable [BitManipulation] {self : FrameHeader802154} {fields : HeaderFields}

-- With both addresses extended the header fills the array, and the first byte
-- moved would be written behind it.
theorem setSequenceNumber_outOfBounds (hq : self.getSequenceNumberSize.toNat = 1)
    (hd : self.getDestinationAddressSize.toNat = 8) (hs : self.getSourceAddressSize.toNat = 8)
    (number : UInt8) : self.setSequenceNumber number = .error (.outOfBounds MAXIMUM_HEADER_SIZE) := by
  have hoffset := toNat_getSourceAddressOffset self
  have hone : (1 : Int8).toUInt8.toNat = 1 := rfl
  have hout := moveRight_outOfBounds self.data self.getSourceAddressOffset.toNat
    self.getSourceAddressSize (1 : Int8).toUInt8 (by omega) (by omega)
    (by unfold MAXIMUM_HEADER_SIZE; omega) (by unfold MAXIMUM_HEADER_SIZE; omega)
  have hindex : self.getSourceAddressOffset.toNat + (1 : Int8).toUInt8.toNat +
      self.getSourceAddressSize.toNat - 1 = MAXIMUM_HEADER_SIZE := by
    unfold MAXIMUM_HEADER_SIZE
    omega
  rw [hindex] at hout
  have hmove : self.moveSourceAddress 1 = .error (.outOfBounds MAXIMUM_HEADER_SIZE) := by
    rw [moveSourceAddress, if_pos (by decide), ← getSourceAddressSize, hout, error_bind]
  rw [setSequenceNumber, movePanId, moveDestinationAddress, hmove]
  rfl

theorem setSequenceNumber_represents_iff (h : self.Represents fields)
    (hpresent : fields.sequenceNumber.isSome) (number : UInt8) :
    (∃ next, self.setSequenceNumber number = .ok next ∧
      next.Represents { fields with sequenceNumber := some number }) ↔ fields.Uniform := by
  obtain ⟨old, hold⟩ := Option.isSome_iff_exists.mp hpresent
  have hq : self.getSequenceNumberSize.toNat = 1 := by rw [h.getSequenceNumberSize, hold]; rfl
  have hd := h.getDestinationAddressSize
  have hs := h.getSourceAddressSize
  by_cases hboth : fields.destination.isExtended ∧ fields.source.isExtended
  · have hfault := setSequenceNumber_outOfBounds hq
      (by rw [hd, Address.length_toList, (Address.mode_eq_extended_iff _).mpr hboth.1]; rfl)
      (by rw [hs, Address.length_toList, (Address.mode_eq_extended_iff _).mpr hboth.2]; rfl) number
    constructor
    · rintro ⟨next, hnext, -⟩
      rw [hfault] at hnext
      cases hnext
    · exact fun huniform => absurd hboth huniform.1
  · obtain ⟨behind, hl⟩ := h.layout
    rw [hold] at hl
    have hl : self.data.toList = fields.firstControlByte :: fields.secondControlByte ::
        (old :: (fields.shifted ++ behind)) := hl
    have hlen := length_rest hl
    have hshifted := fields.length_shifted
    have hfit : 4 + fields.destination.toList.length + fields.source.toList.length ≤ 19 := by
      cases hde : fields.destination with
      | short address =>
          have := fields.source.length_toList_le
          rw [Address.length_toList_short]
          omega
      | extended address =>
          cases hse : fields.source with
          | short address => simp
          | extended address => simp [hde, hse] at hboth
    have hsourceOffset := toNat_getSourceAddressOffset self
    have hdestinationOffset := toNat_getDestinationAddressOffset self
    have hpanIdOffset := toNat_getPanIdOffset self
    obtain ⟨next, hnext, hl'⟩ := setSequenceNumber_toList hl number
      (fun _ => by unfold MAXIMUM_HEADER_SIZE; omega)
    rw [show self.getSourceAddressOffset.toNat - 2 = 3 + fields.destination.toList.length by omega,
      show self.getDestinationAddressOffset.toNat - 2 = 3 by omega,
      show self.getPanIdOffset.toNat - 2 = 1 by omega, hs] at hl'
    have hunique : (∃ next, self.setSequenceNumber number = .ok next ∧
        next.Represents { fields with sequenceNumber := some number }) ↔
        next.Represents { fields with sequenceNumber := some number } := by
      rw [hnext]
      constructor
      · rintro ⟨_, ⟨⟩, hr⟩
        exact hr
      · exact fun hr => ⟨next, rfl, hr⟩
    have hsecond := fields.secondControlByte_sequenceNumber (some number)
    have hbytes : { fields with sequenceNumber := some number }.toBytes =
        fields.firstControlByte :: insertBits fields.secondControlByte 1 0 0 ::
          (number :: fields.shifted) := by
      rw [HeaderFields.toBytes, HeaderFields.body_eq, ← hsecond]
      rfl
    rw [hunique, Represents, hbytes, hl', List.cons_prefix_cons, List.cons_prefix_cons,
      shifts_hold_iff number hlen fields.destination.length_toList_le hfit hshifted]
    constructor
    · rintro ⟨-, -, hequal⟩
      exact ⟨hboth, hequal⟩
    · rintro ⟨-, hequal⟩
      exact ⟨rfl, rfl, hequal⟩

theorem holdsFields_iff (self : FrameHeader802154) (fields : HeaderFields) :
    self.HoldsFields fields ↔ self.Represents fields := by
  constructor
  · intro h
    rw [Represents, ← h]
    exact List.take_prefix _ _
  · exact Represents.take_getHeaderSize

-- The induction is on the setters still to come; a header that holds its
-- fields goes on holding them exactly if the next setter lets it.
theorem setters_hold_iff (h : self.Represents fields) (hpresent : fields.sequenceNumber.isSome)
    (setters : List HeaderSetter) :
    (∀ first rest, setters = first ++ rest → ∃ last, runAll HeaderSetter.apply first self = .ok last ∧
      last.HoldsFields (first.foldl HeaderSetter.update fields)) ↔
      HeaderSetter.Orderly fields setters := by
  induction setters generalizing self fields with
  | nil =>
      refine ⟨fun _ => trivial, fun _ first rest he => ?_⟩
      obtain ⟨rfl, rfl⟩ := List.append_eq_nil_iff.mp he.symm
      exact ⟨self, rfl, (holdsFields_iff _ _).mpr h⟩
  | cons setter setters ih =>
      have hstep {next} (hnext : setter.apply self = .ok next)
          (hr : next.Represents (HeaderSetter.update fields setter)) :
          (∀ first rest, setter :: setters = first ++ rest →
            ∃ last, runAll HeaderSetter.apply first self = .ok last ∧
              last.HoldsFields (first.foldl HeaderSetter.update fields)) ↔
            HeaderSetter.Orderly (HeaderSetter.update fields setter) setters := by
        rw [← ih hr (HeaderSetter.isSome_update hpresent setter)]
        constructor
        · intro hall first rest he
          obtain ⟨last, hlast, hf⟩ := hall (setter :: first) rest (by rw [he]; rfl)
          rw [runAll, hnext, ok_bind] at hlast
          exact ⟨last, hlast, hf⟩
        · intro hall first rest he
          cases first with
          | nil => exact ⟨self, rfl, (holdsFields_iff _ _).mpr h⟩
          | cons setter' first =>
              obtain ⟨rfl, htail⟩ := List.cons_eq_cons.mp he
              obtain ⟨last, hlast, hf⟩ := hall first rest htail
              exact ⟨last, by rw [runAll, hnext, ok_bind, hlast], hf⟩
      cases setter with
      | field setter =>
          obtain ⟨next, hnext, hr⟩ := setter_represents h setter
          exact hstep hnext hr
      | setSequenceNumber number =>
          have huniform := setSequenceNumber_represents_iff h hpresent number
          constructor
          · intro hall
            obtain ⟨next, hnext, hf⟩ := hall [.setSequenceNumber number] setters rfl
            have hr := (holdsFields_iff _ _).mp hf
            have hnext : self.setSequenceNumber number = .ok next := by
              obtain ⟨last, hlast, hend⟩ := bind_eq_ok.mp hnext
              cases hend
              exact hlast
            exact ⟨huniform.mp ⟨next, hnext, hr⟩, (hstep hnext hr).mp hall⟩
          · rintro ⟨hu, ho⟩
            obtain ⟨next, hnext, hr⟩ := huniform.mpr hu
            exact (hstep hnext hr).mpr ho

-- Along a run the header holds its fields after every call exactly if each
-- sequence number is set while the other fields are uniform, and of two such
-- runs only the values last set count, not the order of the calls.
theorem setters_commute_iff (prior : FrameHeader802154) :
    (∀ setters : List HeaderSetter,
      (∀ first rest, setters = first ++ rest →
        ∃ last, runAll HeaderSetter.apply first prior.init = .ok last ∧
          last.HoldsFields (first.foldl HeaderSetter.update (HeaderFields.initial (some 0)))) ↔
        HeaderSetter.Orderly (HeaderFields.initial (some 0)) setters) ∧
    ∀ one other : List HeaderSetter, HeaderSetter.Orderly (HeaderFields.initial (some 0)) one →
      HeaderSetter.Orderly (HeaderFields.initial (some 0)) other →
      one.foldl HeaderSetter.update (HeaderFields.initial (some 0)) =
        other.foldl HeaderSetter.update (HeaderFields.initial (some 0)) →
      ∃ last last', runAll HeaderSetter.apply one prior.init = .ok last ∧
        runAll HeaderSetter.apply other prior.init = .ok last' ∧
        last.data.toList.take last.getHeaderSize.toNat =
          last'.data.toList.take last'.getHeaderSize.toNat := by
  have hiff := setters_hold_iff (init_represents prior) rfl
  refine ⟨hiff, fun one other hone hother hsame => ?_⟩
  obtain ⟨last, hlast, hf⟩ := (hiff one).mpr hone one [] (by simp)
  obtain ⟨last', hlast', hf'⟩ := (hiff other).mpr hother other [] (by simp)
  exact ⟨last, last', hlast, hlast', by rw [hf, hf', hsame]⟩

omit [BitManipulation] in
-- A pan id of two different bytes, set before the sequence number.
theorem setSequenceNumber_shifts_panId :
    ¬∀ one other : List HeaderSetter,
      one.foldl HeaderSetter.update (HeaderFields.initial (some 0)) =
        other.foldl HeaderSetter.update (HeaderFields.initial (some 0)) →
      ∃ last last',
        runAll (@HeaderSetter.apply BitManipulation.reference) one
          (@init BitManipulation.reference ⟨Vector.replicate 21 0⟩) = .ok last ∧
        runAll (@HeaderSetter.apply BitManipulation.reference) other
          (@init BitManipulation.reference ⟨Vector.replicate 21 0⟩) = .ok last' ∧
        last.data.toList.take (@getHeaderSize BitManipulation.reference last).toNat =
          last'.data.toList.take (@getHeaderSize BitManipulation.reference last').toNat := by
  intro h
  obtain ⟨last, last', hlast, hlast', hsame⟩ :=
    h [.field (.setPanId #v[1, 2]), .setSequenceNumber 5]
      [.setSequenceNumber 5, .field (.setPanId #v[1, 2])] rfl
  have hshifted : runAll (@HeaderSetter.apply BitManipulation.reference)
      [.field (.setPanId #v[1, 2]), .setSequenceNumber 5]
      (@init BitManipulation.reference ⟨Vector.replicate 21 0⟩) =
      .ok ⟨#v[0x41, 0xA8, 5, 1, 1, 2, 0, 0, 0, 0, 0, 0, 0, 0, 0, 0, 0, 0, 0, 0, 0]⟩ := by
    decide +kernel
  have hkept : runAll (@HeaderSetter.apply BitManipulation.reference)
      [.setSequenceNumber 5, .field (.setPanId #v[1, 2])]
      (@init BitManipulation.reference ⟨Vector.replicate 21 0⟩) =
      .ok ⟨#v[0x41, 0xA8, 5, 1, 2, 0, 0, 0, 0, 0, 0, 0, 0, 0, 0, 0, 0, 0, 0, 0, 0]⟩ := by
    decide +kernel
  rw [hshifted] at hlast
  rw [hkept] at hlast'
  cases hlast
  cases hlast'
  revert hsame
  decide +kernel

end FrameHeader802154

end Mac802154
