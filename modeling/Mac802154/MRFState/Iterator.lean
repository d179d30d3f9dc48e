import Mac802154.MRFState.Theorems
import Mac802154.Library.Iterator

namespace Mac802154

open Library FrameHeader802154

-- The calls that lead to a state: its setters, and moves of its iterator.
inductive StateCall where
  | set (setter : StateSetter)
  | moveIteratorToNextField

namespace StateCall

def apply [BitManipulation] (call : StateCall) (self : MrfState) : Checked MrfState :=
  match call with
  | set setter => setter.apply self
  | moveIteratorToNextField => .ok self.moveIteratorToNextField.2

def update (message : Message) : StateCall → Message
  | set setter => message.update setter
  | moveIteratorToNextField => message

theorem foldl_headerSizeAtPayload_le {message : Message}
    (h : message.headerSizeAtPayload ≤ MAXIMUM_HEADER_SIZE) (calls : List StateCall) :
    (calls.foldl update message).headerSizeAtPayload ≤ MAXIMUM_HEADER_SIZE := by
  induction calls generalizing message with
  | nil => exact h
  | cons call calls ih =>
      cases call with
      | set setter => exact ih (Message.update_headerSizeAtPayload_le h setter)
      | moveIteratorToNextField => exact ih h

end StateCall

namespace StateSetter

def setsPayload : StateSetter → Bool
  | field _ => false
  | setPayload _ _ => true

theorem exists_fields {setters : List StateSetter} (h : setters.any setsPayload = false) :
    ∃ fieldSetters : List FieldSetter, setters = fieldSetters.map .field := by
  induction setters with
  | nil => exact ⟨[], rfl⟩
  | cons setter setters ih =>
      rw [List.any_cons, Bool.or_eq_false_iff] at h
      obtain ⟨fieldSetters, rfl⟩ := ih h.2
      cases setter with
      | field setter => exact ⟨setter :: fieldSetters, rfl⟩
      | setPayload payload payload_length => exact absurd h.1 (by simp [setsPayload])

end StateSetter

namespace MrfField

-- The byte that a field has for an address of the chip.
def byteAt (field : MrfField) (address : Nat) : Option UInt8 :=
  if field.address.toNat ≤ address ∧ address < field.address.toNat + field.length.toNat then
    some (field.data (address - field.address.toNat))
  else none

theorem getElem?_bytes (field : MrfField) (i : Nat) (hi : i < field.length.toNat) :
    field.bytes[i]? = some (field.data i) := by
  simp [bytes, BytePointer.bytes, hi]

theorem byteAt_of_address_zero (field : MrfField) (h : field.address = 0) (address : Nat) :
    field.byteAt address = field.bytes[address]? := by
  have hzero : field.address.toNat = 0 := by rw [h]; rfl
  rw [byteAt, hzero]
  by_cases ha : address < field.length.toNat
  · rw [if_pos ⟨Nat.zero_le _, by omega⟩, field.getElem?_bytes address ha, Nat.sub_zero]
  · rw [if_neg (by omega), List.getElem?_eq_none (by rw [field.length_bytes]; omega)]

end MrfField

-- The fields have every byte of the image that is not the same as before.
def Covers (fields : List MrfField) (before after : Message) : Prop :=
  ∀ address byte, after.image[address]? = some byte → before.image[address]? ≠ some byte →
    ∃ field ∈ fields, field.byteAt address = some byte

namespace Message

theorem frameLength_eq_iff (message : Message)
    (hsize : message.headerSizeAtPayload ≤ MAXIMUM_HEADER_SIZE) :
    message.frameLength = UInt8.ofNat (message.headerSize + message.payload_length.toNat) ↔
      message.headerSize = message.headerSizeAtPayload := by
  rw [frameLength, UInt8.ofNat_add, UInt8.ofNat_toNat,
    ← MrfState.ofNat_headerSize_inj message.headerSize_le hsize]
  constructor
  · intro he
    grind
  · intro he
    rw [he, UInt8.add_comm]

-- Nothing but the fields has changed: then one image is the start of the other
-- only if they are the same.
theorem image_prefix_iff (message : Message) (changed : HeaderFields) :
    Message.image { message with fields := changed } <+: message.image ↔
      changed = message.fields := by
  constructor
  · intro hprefix
    obtain ⟨hlength, htail⟩ := List.cons_prefix_cons.mp hprefix
    obtain ⟨-, htail⟩ := List.cons_prefix_cons.mp htail
    have hsize : changed.toBytes.length = message.fields.toBytes.length :=
      (MrfState.ofNat_headerSize_inj changed.length_toBytes_le message.headerSize_le).mp hlength
    apply HeaderFields.toBytes_inj
    exact (List.prefix_of_prefix_length_le ((List.prefix_append _ _).trans htail)
      (List.prefix_append _ _) (Nat.le_of_eq hsize)).eq_of_length hsize
  · intro hsame
    subst hsame
    exact List.prefix_refl _

end Message

namespace MrfState

section Flags

def pending (state : UInt8) : Nat :=
  (if state &&& MRF_STATE_FRAME_LENGTH_CHANGED ≠ 0 then 1 else 0) +
    if state &&& MRF_STATE_PAYLOAD_CHANGED ≠ 0 then 1 else 0

theorem moveIteratorToNextField_eq_false_iff (mrf : MrfState) :
    mrf.moveIteratorToNextField.1 = false ↔ pending mrf.state = 0 := by
  unfold moveIteratorToNextField pending
  by_cases hlength : mrf.state &&& MRF_STATE_FRAME_LENGTH_CHANGED ≠ 0
  · simp [hlength]
  · by_cases hpayload : mrf.state &&& MRF_STATE_PAYLOAD_CHANGED ≠ 0 <;> simp [hlength, hpayload]

theorem moveIteratorToNextField_eq_false {mrf next : MrfState}
    (h : mrf.moveIteratorToNextField = (false, next)) : next = mrf := by
  unfold moveIteratorToNextField at h
  split at h
  · exact absurd (Prod.mk.inj h).1.symm Bool.false_ne_true
  · split at h
    · exact absurd (Prod.mk.inj h).1.symm Bool.false_ne_true
    · exact (Prod.mk.inj h).2.symm

-- A move lowers one flag and touches nothing else.
theorem moveIteratorToNextField_eq_true {mrf next : MrfState}
    (h : mrf.moveIteratorToNextField = (true, next)) :
    pending next.state < pending mrf.state ∧ next.header = mrf.header ∧
      next.payload = mrf.payload := by
  unfold moveIteratorToNextField at h
  by_cases hlength : mrf.state &&& MRF_STATE_FRAME_LENGTH_CHANGED ≠ 0
  · rw [if_pos hlength] at h
    obtain ⟨-, rfl⟩ := Prod.mk.inj h
    refine ⟨?_, rfl, rfl⟩
    have hlow : mrf.state &&& ~~~MRF_STATE_FRAME_LENGTH_CHANGED &&& MRF_STATE_FRAME_LENGTH_CHANGED = 0 := by
      rw [UInt8.and_assoc]
      exact UInt8.and_zero
    have hkept : mrf.state &&& ~~~MRF_STATE_FRAME_LENGTH_CHANGED &&& MRF_STATE_PAYLOAD_CHANGED =
        mrf.state &&& MRF_STATE_PAYLOAD_CHANGED := by
      rw [UInt8.and_assoc]
      rfl
    simp only [pending, hlow, hkept, if_pos hlength]
    simp
  · rw [if_neg hlength] at h
    by_cases hpayload : mrf.state &&& MRF_STATE_PAYLOAD_CHANGED ≠ 0
    · rw [if_pos hpayload] at h
      obtain ⟨-, rfl⟩ := Prod.mk.inj h
      refine ⟨?_, rfl, rfl⟩
      have hlow : mrf.state &&& ~~~MRF_STATE_PAYLOAD_CHANGED &&& MRF_STATE_PAYLOAD_CHANGED = 0 := by
        rw [UInt8.and_assoc]
        exact UInt8.and_zero
      have hkept : mrf.state &&& ~~~MRF_STATE_PAYLOAD_CHANGED &&& MRF_STATE_FRAME_LENGTH_CHANGED =
          mrf.state &&& MRF_STATE_FRAME_LENGTH_CHANGED := by
        rw [UInt8.and_assoc]
        rfl
      simp only [pending, hlow, hkept, if_neg hlength, if_pos hpayload]
      simp
    · rw [if_neg hpayload] at h
      exact absurd (Prod.mk.inj h).1 Bool.false_ne_true

variable [BitManipulation]

-- A setter of a field leaves the two flags of the iterator as they are.
theorem pending_field {mrf next : MrfState} (setter : FieldSetter)
    (h : (StateSetter.field setter).apply mrf = .ok next) :
    pending next.state = pending mrf.state := by
  cases setter with
  | setShortDestinationAddress address =>
      obtain ⟨frame_header, -, hend⟩ := bind_eq_ok.mp h
      cases hend
      have hlength : (MRF_STATE_DESTINATION_ADDRESS_CHANGED &&& MRF_STATE_FRAME_LENGTH_CHANGED) = 0 :=
        rfl
      have hpayload : (MRF_STATE_DESTINATION_ADDRESS_CHANGED &&& MRF_STATE_PAYLOAD_CHANGED) = 0 := rfl
      simp only [pending, withFrameHeader, or_and, hlength, hpayload, UInt8.or_zero]
  | enableAcknowledgementRequest =>
      cases h
      rfl
  | _ =>
      obtain ⟨frame_header, -, hend⟩ := bind_eq_ok.mp h
      cases hend
      rfl

omit [BitManipulation] in
theorem pending_setPayload (mrf : MrfState) (payload : BytePointer) (payload_length : UInt8) :
    pending (mrf.setPayload payload payload_length).state ≠ 0 := by
  have hflag : (mrf.state ||| (MRF_STATE_FRAME_LENGTH_CHANGED ||| MRF_STATE_PAYLOAD_CHANGED)) &&&
      MRF_STATE_FRAME_LENGTH_CHANGED ≠ 0 := by
    rw [or_and, ne_eq, UInt8.or_eq_zero_iff]
    exact fun h => absurd h.2 (by decide)
  rw [pending, setPayload, if_pos hflag]
  omega

theorem pending_setters {mrf last : MrfState} (setters : List StateSetter)
    (h : runAll StateSetter.apply setters mrf = .ok last) :
    pending last.state = 0 ↔ pending mrf.state = 0 ∧ setters.any StateSetter.setsPayload = false := by
  induction setters generalizing mrf with
  | nil =>
      cases h
      simp
  | cons setter setters ih =>
      obtain ⟨next, hnext, hrest⟩ := bind_eq_ok.mp h
      rw [ih hrest, List.any_cons]
      cases setter with
      | field setter =>
          rw [pending_field setter hnext]
          rfl
      | setPayload payload payload_length =>
          cases hnext
          have hpending := pending_setPayload mrf payload payload_length
          simp [hpending, StateSetter.setsPayload]

end Flags

section Cover

theorem getCurrentField_eq {mrf last : MrfState} (h : mrf.header = last.header) :
    mrf.getCurrentField = last.getFullHeaderField := by
  cases mrf
  cases last
  cases h
  rfl

variable {before after : Message} {fields : List MrfField}

theorem covers_nil_iff : Covers [] before after ↔ after.image <+: before.image := by
  rw [List.prefix_iff_getElem?]
  constructor
  · intro h i hi
    by_contra hne
    obtain ⟨field, hmem, -⟩ := h i after.image[i] (List.getElem?_eq_getElem hi) hne
    exact List.not_mem_nil hmem
  · intro h address byte hafter hbefore
    obtain ⟨hlt, hbyte⟩ := List.getElem?_eq_some_iff.mp hafter
    exact absurd (by rw [h address hlt, hbyte]) hbefore

theorem Holds.byteAt_header {mrf : MrfState} (h : mrf.Holds after) (address : Nat) :
    mrf.getFullHeaderField.byteAt address =
      (UInt8.ofNat after.headerSize :: after.frameLength :: after.fields.toBytes)[address]? := by
  rw [MrfField.byteAt_of_address_zero _ rfl, h.getFullHeaderField_bytes, h.frame_header_length_eq,
    h.frame_length]
  rfl

-- The header is yielded as a whole, with the length of the frame as the driver
-- has it, and of the payload nothing.
theorem Holds.covers_iff {mrf : MrfState} (h : mrf.Holds after)
    (hsize : after.headerSizeAtPayload ≤ MAXIMUM_HEADER_SIZE) (hne : fields ≠ [])
    (hall : ∀ field ∈ fields, field = mrf.getFullHeaderField) :
    Covers fields before after ↔
      (after.headerSize = after.headerSizeAtPayload ∨
        UInt8.ofNat (after.headerSize + after.payload_length.toNat) =
          UInt8.ofNat (before.headerSize + before.payload_length.toNat)) ∧
      ∀ i < after.payload_length.toNat,
        before.image[after.headerSize + 2 + i]? = some (after.payload i) := by
  have hone : after.image[1]? =
      some (UInt8.ofNat (after.headerSize + after.payload_length.toNat)) := rfl
  have hone' : before.image[1]? =
      some (UInt8.ofNat (before.headerSize + before.payload_length.toNat)) := rfl
  have hpayload (i : Nat) (hi : i < after.payload_length.toNat) :
      after.image[after.headerSize + 2 + i]? = some (after.payload i) :=
    getElem?_image_payload after.fields after.payload hi
  obtain ⟨first, hfirst⟩ := List.exists_mem_of_ne_nil fields hne
  constructor
  · intro hcovers
    refine ⟨or_iff_not_imp_left.mpr fun hresized => ?_, fun i hi => ?_⟩
    · by_contra hchanged
      obtain ⟨field, hmem, hbyte⟩ := hcovers 1 _ hone fun he =>
        hchanged (Option.some.inj (he.symm.trans hone'))
      rw [hall field hmem, h.byteAt_header] at hbyte
      exact hresized ((after.frameLength_eq_iff hsize).mp (Option.some.inj hbyte))
    · by_contra hchanged
      obtain ⟨field, hmem, hbyte⟩ := hcovers _ _ (hpayload i hi) hchanged
      rw [hall field hmem, h.byteAt_header] at hbyte
      obtain ⟨hlt, -⟩ := List.getElem?_eq_some_iff.mp hbyte
      change after.headerSize + 2 + i < after.headerSize + 1 + 1 at hlt
      omega
  · rintro ⟨hlength, hkept⟩ address byte hafter hbefore
    have hyield (hbyte : mrf.getFullHeaderField.byteAt address = some byte) :
        ∃ field ∈ fields, field.byteAt address = some byte :=
      ⟨first, hfirst, by rw [hall first hfirst, hbyte]⟩
    match address with
    | 0 => exact hyield ((h.byteAt_header 0).trans hafter)
    | 1 =>
        rcases hlength with hsame | hsame
        · refine hyield ((h.byteAt_header 1).trans ?_)
          rw [← hafter, hone]
          exact congrArg some ((after.frameLength_eq_iff hsize).mpr hsame)
        · exact absurd (hone'.trans (hsame ▸ hone.symm.trans hafter)) hbefore
    | k + 2 =>
        by_cases hk : k < after.fields.toBytes.length
        · refine hyield ((h.byteAt_header (k + 2)).trans ?_)
          rw [← hafter]
          exact (List.getElem?_append_left hk).symm
        · obtain ⟨hlt, -⟩ := List.getElem?_eq_some_iff.mp hafter
          rw [Message.image, length_image] at hlt
          have hi : k - after.headerSize < after.payload_length.toNat := by
            unfold Message.headerSize
            omega
          have hsplit : k + 2 = after.headerSize + 2 + (k - after.headerSize) := by
            unfold Message.headerSize
            omega
          rw [hsplit, hpayload _ hi] at hafter
          rw [hsplit, hkept _ hi] at hbefore
          exact absurd hafter hbefore

end Cover

section Calls

variable [BitManipulation]

theorem calls_hold (prior : MrfState) (calls : List StateCall) :
    ∃ mrf, runAll StateCall.apply calls prior.init = .ok mrf ∧
      mrf.Holds (calls.foldl StateCall.update (Message.initial prior.payload)) := by
  refine runAll_invariant StateCall.apply StateCall.update (fun message mrf => mrf.Holds message)
    (fun message mrf call h => ?_) calls _ prior.init (init_holds prior)
  cases call with
  | set setter => exact setter_holds h setter
  | moveIteratorToNextField =>
      refine ⟨_, rfl, ?_⟩
      rcases hmove : mrf.moveIteratorToNextField with ⟨moved, next⟩
      cases moved with
      | false =>
          rw [moveIteratorToNextField_eq_false hmove]
          exact h
      | true =>
          obtain ⟨-, hheader, hpayload⟩ := moveIteratorToNextField_eq_true hmove
          exact ⟨by rw [hheader]; exact h.represents, by rw [hheader]; exact h.frame_header_length,
            by rw [hheader]; exact h.frame_length, by rw [hpayload]; exact h.payload⟩

-- The iterator of a state that has been drained yields, after any setters, all
-- that they changed of the image exactly if either no payload was set and the
-- header is as before, or one was, its bytes are in the image already, and the
-- length of the frame is right or as before.
theorem iterator_covers_iff (prior mrf : MrfState) (calls : List StateCall)
    (hreached : runAll StateCall.apply calls prior.init = .ok mrf)
    (hdrained : mrf.moveIteratorToNextField.1 = false) (setters : List StateSetter) :
    let before := calls.foldl StateCall.update (Message.initial prior.payload)
    let after := setters.foldl Message.update before
    ∃ last, runAll StateSetter.apply setters mrf = .ok last ∧
      (∃ fields rest, Drains moveIteratorToNextField getCurrentField last fields rest) ∧
      ∀ fields rest, Drains moveIteratorToNextField getCurrentField last fields rest →
        (Covers fields before after ↔
          if setters.any StateSetter.setsPayload then
            (after.headerSize = after.headerSizeAtPayload ∨
              UInt8.ofNat (after.headerSize + after.payload_length.toNat) =
                UInt8.ofNat (before.headerSize + before.payload_length.toNat)) ∧
            ∀ i < after.payload_length.toNat,
              before.image[after.headerSize + 2 + i]? = some (after.payload i)
          else after.fields = before.fields) := by
  intro before after
  obtain ⟨reached, hcalls, h⟩ := calls_hold prior calls
  rw [hreached] at hcalls
  cases hcalls
  obtain ⟨last, hlast, h'⟩ := setters_hold h setters
  refine ⟨last, hlast, Drains.exists_of_measure (fun mrf => pending mrf.state)
    (fun mrf next hmove => (moveIteratorToNextField_eq_true hmove).1) last,
    fun fields rest hdrains => ?_⟩
  have hitems : fields = [] ↔ setters.any StateSetter.setsPayload = false := by
    rw [hdrains.eq_nil_iff, moveIteratorToNextField_eq_false_iff, pending_setters setters hlast,
      ← moveIteratorToNextField_eq_false_iff]
    simp [hdrained]
  by_cases hpayload : setters.any StateSetter.setsPayload = true
  · rw [if_pos hpayload]
    have hinitial : (Message.initial prior.payload).headerSizeAtPayload ≤ MAXIMUM_HEADER_SIZE :=
      (Message.initial prior.payload).headerSize_le
    have hsize : after.headerSizeAtPayload ≤ MAXIMUM_HEADER_SIZE :=
      Message.foldl_headerSizeAtPayload_le
        (StateCall.foldl_headerSizeAtPayload_le hinitial calls) setters
    apply Holds.covers_iff h' hsize
    · intro hnil
      rw [hitems.mp hnil] at hpayload
      exact Bool.false_ne_true hpayload
    · exact hdrains.forall_items (fun mrf => mrf.header = last.header)
        (fun field => field = last.getFullHeaderField)
        (fun mrf next hmrf hmove => by rw [(moveIteratorToNextField_eq_true hmove).2.1, hmrf])
        (fun mrf hmrf => getCurrentField_eq hmrf) rfl
  · rw [if_neg hpayload]
    have hnone : setters.any StateSetter.setsPayload = false := by simpa using hpayload
    have hfields : ∃ changed, after = { before with fields := changed } := by
      obtain ⟨fieldSetters, rfl⟩ := StateSetter.exists_fields hnone
      exact ⟨_, before.foldl_update_field fieldSetters⟩
    obtain ⟨changed, hchanged⟩ := hfields
    rw [hitems.mpr hnone, covers_nil_iff, hchanged]
    exact before.image_prefix_iff changed

omit [BitManipulation] in
-- A new destination address raises no flag that the iterator looks at.
theorem iterator_covers_iff_destination :
    let initial := @init BitManipulation.reference
      ⟨0, ⟨0, 0, ⟨Vector.replicate 21 0⟩⟩, fun _ => 0⟩
    let before := Message.initial fun _ => 0
    ∃ last, runAll (@StateSetter.apply BitManipulation.reference)
        [.field (.setShortDestinationAddress #v[1, 2])] initial = .ok last ∧
      ∀ fields rest, Drains moveIteratorToNextField getCurrentField last fields rest →
        ¬Covers fields before (before.update (.field (.setShortDestinationAddress #v[1, 2]))) := by
  intro initial before
  obtain ⟨last, hlast, -, hiff⟩ := @iterator_covers_iff
    BitManipulation.reference ⟨0, ⟨0, 0, ⟨Vector.replicate 21 0⟩⟩, fun _ => 0⟩ initial [] rfl (by decide +kernel)
    [.field (.setShortDestinationAddress #v[1, 2])]
  refine ⟨last, hlast, fun fields rest hdrains hcovers => ?_⟩
  have hsame := (hiff fields rest hdrains).mp hcovers
  rw [if_neg (by simp [StateSetter.setsPayload])] at hsame
  exact absurd hsame (by decide)

omit [BitManipulation] in
-- A payload raises two flags, and the header is yielded for both of them.
theorem iterator_misses_payload : ¬∀ (calls : List StateCall) (setters : List StateSetter)
    (mrf last : MrfState) (fields : List MrfField) (rest : MrfState),
    runAll (@StateCall.apply BitManipulation.reference) calls (@init BitManipulation.reference
      ⟨0, ⟨0, 0, ⟨Vector.replicate 21 0⟩⟩, fun _ => 0⟩) = .ok mrf →
    mrf.moveIteratorToNextField.1 = false →
    runAll (@StateSetter.apply BitManipulation.reference) setters mrf = .ok last →
    Drains moveIteratorToNextField getCurrentField last fields rest →
    let before := calls.foldl StateCall.update (Message.initial fun _ => 0)
    Covers fields before (setters.foldl Message.update before) := by
  intro h
  have hcovers := h [] [.setPayload (fun _ => 7) 1] _ _ _ _ rfl rfl rfl
    (.item rfl (.item rfl (.done rfl)))
  have hbyte := hcovers 11 7 (by decide +kernel) (by decide +kernel)
  revert hbyte
  decide +kernel

end Calls

end MrfState

end Mac802154
