import Mac802154.MRFState
import Mac802154.FrameHeader802154.Theorems

namespace Mac802154

open Library FrameHeader802154

-- The bytes of a frame as they stand in the TX FIFO: the length of the header,
-- the length of the frame, the header, and what is sent as its payload.
def frameBytes (fields : HeaderFields) (frame_length : UInt8) (payload : List UInt8) : List UInt8 :=
  UInt8.ofNat fields.toBytes.length :: frame_length :: (fields.toBytes ++ payload)

-- The frame of a message with `n` bytes of payload.
def image (fields : HeaderFields) (payload : BytePointer) (n : Nat) : List UInt8 :=
  frameBytes fields (UInt8.ofNat (fields.toBytes.length + n)) ((List.range n).map payload)

theorem length_frameBytes (fields : HeaderFields) (frame_length : UInt8) (payload : List UInt8) :
    (frameBytes fields frame_length payload).length =
      2 + fields.toBytes.length + payload.length := by
  simp only [frameBytes, List.length_cons, List.length_append]
  omega

theorem length_image (fields : HeaderFields) (payload : BytePointer) (n : Nat) :
    (image fields payload n).length = 2 + fields.toBytes.length + n := by
  rw [image, length_frameBytes, List.length_map, List.length_range]

theorem getElem?_image_payload (fields : HeaderFields) (payload : BytePointer) {n i : Nat}
    (hi : i < n) : (image fields payload n)[fields.toBytes.length + 2 + i]? = some (payload i) := by
  rw [image, frameBytes, show fields.toBytes.length + 2 + i = fields.toBytes.length + i + 1 + 1 by omega,
    List.getElem?_cons_succ, List.getElem?_cons_succ, List.getElem?_append_right (Nat.le_add_right _ i),
    Nat.add_sub_cancel_left, List.getElem?_map, List.getElem?_range hi, Option.map_some]

-- The message a caller has put together, and the size that its header had when
-- the payload was last set.
structure Message where
  fields : HeaderFields
  payload : BytePointer
  payload_length : UInt8
  headerSizeAtPayload : Nat

-- The setters of a state; a field setter stands for the one of the same name.
inductive StateSetter where
  | field (setter : FieldSetter)
  | setPayload (payload : BytePointer) (payload_length : UInt8)

namespace Message

def initial (payload : BytePointer) : Message where
  fields := HeaderFields.initial (some 0)
  payload := payload
  payload_length := 0
  headerSizeAtPayload := (HeaderFields.initial (some 0)).toBytes.length

def headerSize (message : Message) : Nat :=
  message.fields.toBytes.length

-- What the caller wants to have sent.
def image (message : Message) : List UInt8 :=
  Mac802154.image message.fields message.payload message.payload_length.toNat

-- What the driver sends: the length of the frame still counts the header as it
-- was when the payload was set, and the payload is what this leaves for it.
def frameLength (message : Message) : UInt8 :=
  message.payload_length + UInt8.ofNat message.headerSizeAtPayload

def sentBytes (message : Message) : List UInt8 :=
  frameBytes message.fields message.frameLength
    (message.payload.bytes (message.frameLength - UInt8.ofNat message.headerSize))

theorem sentBytes_of_kept {message : Message}
    (hkept : message.headerSizeAtPayload = message.headerSize) :
    message.sentBytes = message.image := by
  have hlength : message.frameLength =
      UInt8.ofNat (message.headerSize + message.payload_length.toNat) := by
    rw [frameLength, hkept, UInt8.ofNat_add, UInt8.ofNat_toNat, UInt8.add_comm]
  have hpayload : message.frameLength - UInt8.ofNat message.headerSize = message.payload_length := by
    rw [frameLength, hkept, UInt8.add_sub_cancel]
  rw [sentBytes, hpayload, hlength]
  rfl

def update (message : Message) : StateSetter → Message
  | .field setter => { message with fields := setter.update message.fields }
  | .setPayload payload payload_length =>
      { message with payload, payload_length, headerSizeAtPayload := message.headerSize }

theorem headerSize_le (message : Message) : message.headerSize ≤ MAXIMUM_HEADER_SIZE :=
  message.fields.length_toBytes_le

theorem foldl_update_field (message : Message) (setters : List FieldSetter) :
    (setters.map StateSetter.field).foldl update message =
      { message with fields := setters.foldl FieldSetter.update message.fields } := by
  induction setters generalizing message with
  | nil => rfl
  | cons setter setters ih => exact ih _

theorem update_headerSizeAtPayload_le {message : Message}
    (h : message.headerSizeAtPayload ≤ MAXIMUM_HEADER_SIZE) (setter : StateSetter) :
    (message.update setter).headerSizeAtPayload ≤ MAXIMUM_HEADER_SIZE := by
  cases setter with
  | field setter => exact h
  | setPayload payload payload_length => exact message.headerSize_le

theorem foldl_headerSizeAtPayload_le {message : Message}
    (h : message.headerSizeAtPayload ≤ MAXIMUM_HEADER_SIZE) (setters : List StateSetter) :
    (setters.foldl update message).headerSizeAtPayload ≤ MAXIMUM_HEADER_SIZE := by
  induction setters generalizing message with
  | nil => exact h
  | cons setter setters ih => exact ih (update_headerSizeAtPayload_le h setter)

theorem headerSizeAtPayload_le (prior : BytePointer) (setters : List StateSetter) :
    (setters.foldl update (initial prior)).headerSizeAtPayload ≤ MAXIMUM_HEADER_SIZE :=
  foldl_headerSizeAtPayload_le (headerSize_le (initial prior)) setters

end Message

namespace StateSetter

def apply [BitManipulation] (setter : StateSetter) (self : MrfState) : Checked MrfState :=
  match setter with
  | field (.setPanId pan_id) => self.setPanId pan_id
  | field (.setShortSourceAddress address) => self.setShortSourceAddress address
  | field (.setExtendedSourceAddress address) => self.setExtendedSourceAddress address
  | field (.setShortDestinationAddress address) => self.setShortDestinationAddress address
  | field (.setExtendedDestinationAddress address) => self.setExtendedDestinationAddress address
  | field .enableAcknowledgementRequest => .ok self.enableAcknowledgement
  | setPayload payload payload_length => .ok (self.setPayload payload payload_length)

end StateSetter

namespace MrfField

def bytes (field : MrfField) : List UInt8 :=
  field.data.bytes field.length

theorem length_bytes (field : MrfField) : field.bytes.length = field.length.toNat := by
  simp [bytes, BytePointer.bytes]

theorem length_bytes_lt (field : MrfField) : field.bytes.length < 256 := by
  rw [length_bytes]
  exact field.length.toNat_lt

end MrfField

namespace MrfState

-- The cached header length follows the header; the cached frame length still
-- counts the header as it was when the payload was set.
structure Holds (mrf : MrfState) (message : Message) : Prop where
  represents : mrf.header.frame_header.Represents message.fields
  frame_header_length : mrf.header.frame_header_length.toNat = message.headerSize
  frame_length : mrf.header.frame_length =
    message.payload_length + UInt8.ofNat message.headerSizeAtPayload
  payload : mrf.payload = message.payload

-- The two writes of sendBlocking, an address and the bytes from there on.
def transmitted (mrf : MrfState) : List (UInt16 × List UInt8) :=
  [mrf.getFullHeaderField, mrf.getPayloadField].map fun field => (field.address, field.bytes)

variable [BitManipulation] {mrf : MrfState} {message : Message}

theorem init_holds (mrf : MrfState) : mrf.init.Holds (Message.initial mrf.payload) := by
  have h := init_represents mrf.header.frame_header
  have hsize : mrf.header.frame_header.init.getHeaderSize = 9 := by
    rw [← UInt8.toNat_inj, h.getHeaderSize]
    rfl
  exact ⟨h, h.getHeaderSize, hsize, rfl⟩

-- A setter of an address also renews the cached header length.
private theorem withFrameHeader_holds (h : mrf.Holds message) {setter : FieldSetter}
    {frame_header : FrameHeader802154} (hr : frame_header.Represents (setter.update message.fields)) :
    (mrf.withFrameHeader frame_header).Holds (message.update (.field setter)) :=
  ⟨hr, hr.getHeaderSize, h.frame_length, h.payload⟩

theorem field_holds (h : mrf.Holds message) (setter : FieldSetter) :
    ∃ next, (StateSetter.field setter).apply mrf = .ok next ∧
      next.Holds (message.update (.field setter)) := by
  obtain ⟨frame_header, hnext, hr⟩ := setter_represents h.represents setter
  have haddress := withFrameHeader_holds h hr
  cases setter with
  | setShortSourceAddress address =>
      refine ⟨mrf.withFrameHeader frame_header, ?_, haddress⟩
      change (mrf.header.frame_header.setShortSourceAddress address >>= _) = _
      rw [show mrf.header.frame_header.setShortSourceAddress address = .ok frame_header from hnext]
      rfl
  | setExtendedSourceAddress address =>
      refine ⟨mrf.withFrameHeader frame_header, ?_, haddress⟩
      change (mrf.header.frame_header.setExtendedSourceAddress address >>= _) = _
      rw [show mrf.header.frame_header.setExtendedSourceAddress address = .ok frame_header from hnext]
      rfl
  | setShortDestinationAddress address =>
      refine ⟨{ mrf.withFrameHeader frame_header with
        state := mrf.state ||| MRF_STATE_DESTINATION_ADDRESS_CHANGED }, ?_,
        haddress.represents, haddress.frame_header_length, haddress.frame_length, haddress.payload⟩
      change (mrf.header.frame_header.setShortDestinationAddress address >>= _) = _
      rw [show mrf.header.frame_header.setShortDestinationAddress address = .ok frame_header
        from hnext]
      rfl
  | setExtendedDestinationAddress address =>
      refine ⟨mrf.withFrameHeader frame_header, ?_, haddress⟩
      change (mrf.header.frame_header.setExtendedDestinationAddress address >>= _) = _
      rw [show mrf.header.frame_header.setExtendedDestinationAddress address = .ok frame_header
        from hnext]
      rfl
  | setPanId pan_id =>
      refine ⟨{ mrf with header := { mrf.header with frame_header } }, ?_,
        hr, ?_, h.frame_length, h.payload⟩
      · change (mrf.header.frame_header.setPanId pan_id >>= _) = _
        rw [show mrf.header.frame_header.setPanId pan_id = .ok frame_header from hnext]
        rfl
      · rw [h.frame_header_length, Message.headerSize, Message.headerSize,
          HeaderFields.length_toBytes, HeaderFields.length_toBytes]
        rfl
  | enableAcknowledgementRequest =>
      refine ⟨mrf.enableAcknowledgement, rfl,
        enableAcknowledgementRequest_represents h.represents, ?_, h.frame_length, h.payload⟩
      rw [show mrf.enableAcknowledgement.header.frame_header_length =
        mrf.header.frame_header_length from rfl, h.frame_header_length, Message.headerSize,
        Message.headerSize, HeaderFields.length_toBytes, HeaderFields.length_toBytes]
      rfl

omit [BitManipulation] in
theorem setPayload_holds (h : mrf.Holds message) (payload : BytePointer) (payload_length : UInt8) :
    (mrf.setPayload payload payload_length).Holds
      (message.update (.setPayload payload payload_length)) := by
  refine ⟨h.represents, h.frame_header_length, ?_, rfl⟩
  change payload_length + mrf.header.frame_header_length =
    payload_length + UInt8.ofNat message.headerSize
  rw [← h.frame_header_length, UInt8.ofNat_toNat]

theorem setter_holds (h : mrf.Holds message) (setter : StateSetter) :
    ∃ next, setter.apply mrf = .ok next ∧ next.Holds (message.update setter) := by
  cases setter with
  | field setter => exact field_holds h setter
  | setPayload payload payload_length =>
      exact ⟨_, rfl, setPayload_holds h payload payload_length⟩

theorem setters_hold (h : mrf.Holds message) (setters : List StateSetter) :
    ∃ last, runAll StateSetter.apply setters mrf = .ok last ∧
      last.Holds (setters.foldl Message.update message) :=
  runAll_invariant StateSetter.apply Message.update (fun message mrf => mrf.Holds message)
    (fun _ _ setter h => setter_holds h setter) setters message mrf h

section Lengths

omit [BitManipulation]

theorem Holds.frame_header_length_eq (h : mrf.Holds message) :
    mrf.header.frame_header_length = UInt8.ofNat message.headerSize := by
  rw [← h.frame_header_length, UInt8.ofNat_toNat]

theorem ofNat_headerSize_inj {m n : Nat} (hm : m ≤ MAXIMUM_HEADER_SIZE)
    (hn : n ≤ MAXIMUM_HEADER_SIZE) : UInt8.ofNat m = UInt8.ofNat n ↔ m = n := by
  unfold MAXIMUM_HEADER_SIZE at hm hn
  rw [← UInt8.toNat_inj, UInt8.toNat_ofNat_of_lt' (by unfold UInt8.size; omega),
    UInt8.toNat_ofNat_of_lt' (by unfold UInt8.size; omega)]

-- The payload length is the difference of the two cached lengths, in bytes.
theorem Holds.getPayloadLength_eq_iff (h : mrf.Holds message)
    (hsize : message.headerSizeAtPayload ≤ MAXIMUM_HEADER_SIZE) :
    mrf.getPayloadLength = message.payload_length ↔
      message.headerSize = message.headerSizeAtPayload := by
  rw [MrfState.getPayloadLength, h.frame_length, h.frame_header_length_eq,
    ← ofNat_headerSize_inj message.headerSize_le hsize]
  constructor
  · intro he
    grind
  · intro he
    rw [he]
    grind

theorem Holds.frame_length_eq_iff (h : mrf.Holds message)
    (hsize : message.headerSizeAtPayload ≤ MAXIMUM_HEADER_SIZE)
    (hfit : message.headerSize + message.payload_length.toNat ≤ 255) :
    mrf.header.frame_length.toNat =
        mrf.header.frame_header_length.toNat + message.payload_length.toNat ↔
      message.headerSize = message.headerSizeAtPayload := by
  have hm := message.headerSize_le
  unfold MAXIMUM_HEADER_SIZE at hm hsize
  rw [h.frame_header_length, h.frame_length, UInt8.toNat_add,
    UInt8.toNat_ofNat_of_lt' (by unfold UInt8.size; omega)]
  omega

theorem Holds.getFullHeaderLength (h : mrf.Holds message) :
    mrf.getFullHeaderLength.toNat = message.headerSize + 2 := by
  have hm := message.headerSize_le
  unfold MAXIMUM_HEADER_SIZE at hm
  have htwo : (2 : UInt8).toNat = 2 := rfl
  rw [MrfState.getFullHeaderLength, UInt8.toNat_add, h.frame_header_length, htwo]
  omega

private theorem map_range_getD (bytes : List UInt8) (n : Nat) (h : n ≤ bytes.length) :
    (List.range n).map (fun i => bytes.getD i 0) = bytes.take n := by
  apply List.ext_getElem
  · simp [h]
  · intro i hi hi'
    simp at hi
    simp [show i < bytes.length by omega]

-- What is sent of the header: its two lengths and the bytes of the fields.
theorem Holds.getFullHeaderField_bytes (h : mrf.Holds message) :
    mrf.getFullHeaderField.bytes = mrf.header.frame_header_length :: mrf.header.frame_length ::
      message.fields.toBytes := by
  have hm := message.headerSize_le
  have hlen : mrf.header.toBytes.length = 23 := by
    simp [MrfHeader.toBytes, MAXIMUM_HEADER_SIZE]
  have hbytes : mrf.getFullHeaderField.bytes = mrf.header.toBytes.take (message.headerSize + 2) := by
    rw [← h.getFullHeaderLength]
    refine map_range_getD mrf.header.toBytes mrf.getFullHeaderLength.toNat ?_
    rw [h.getFullHeaderLength, hlen]
    unfold MAXIMUM_HEADER_SIZE at hm
    omega
  rw [hbytes, MrfHeader.toBytes, List.take_succ_cons, List.take_succ_cons]
  exact congrArg (_ :: _ :: ·) (List.prefix_iff_eq_take.mp h.represents).symm

-- The two fields, one behind the other.
theorem Holds.sentBytes_eq (h : mrf.Holds message) :
    mrf.getFullHeaderField.bytes ++ mrf.getPayloadField.bytes = message.sentBytes := by
  have hpayload : mrf.getPayloadField.bytes =
      message.payload.bytes (message.frameLength - UInt8.ofNat message.headerSize) := by
    change mrf.payload.bytes (mrf.header.frame_length - mrf.header.frame_header_length) = _
    rw [h.payload, h.frame_length, h.frame_header_length_eq]
    rfl
  rw [h.getFullHeaderField_bytes, hpayload, h.frame_header_length_eq, h.frame_length]
  rfl

theorem Holds.transmitted_eq (h : mrf.Holds message) : mrf.transmitted =
    [(0, message.sentBytes.take (message.headerSize + 2)),
      (UInt16.ofNat (message.headerSize + 2), message.sentBytes.drop (message.headerSize + 2))] := by
  have hlength : mrf.getFullHeaderField.bytes.length = message.headerSize + 2 :=
    mrf.getFullHeaderField.length_bytes.trans h.getFullHeaderLength
  have haddress : mrf.getFullHeaderLength.toUInt16 = UInt16.ofNat (message.headerSize + 2) := by
    rw [← h.getFullHeaderLength, UInt16.ofNat_uInt8ToNat]
  rw [← h.sentBytes_eq, List.take_left' hlength, List.drop_left' hlength, ← haddress]
  rfl

-- Of two states with the same message, only the size that the header had when
-- the payload was set can make a difference to what is sent.
theorem Holds.transmitted_eq_iff {other : MrfState} {message' : Message} (h : mrf.Holds message)
    (h' : other.Holds message') (hfields : message'.fields = message.fields)
    (hpayload : message'.payload = message.payload)
    (hlength : message'.payload_length = message.payload_length)
    (hsize : message.headerSizeAtPayload ≤ MAXIMUM_HEADER_SIZE)
    (hsize' : message'.headerSizeAtPayload ≤ MAXIMUM_HEADER_SIZE) :
    mrf.transmitted = other.transmitted ↔
      message.headerSizeAtPayload = message'.headerSizeAtPayload := by
  have hheader : message'.headerSize = message.headerSize := by
    rw [Message.headerSize, Message.headerSize, hfields]
  have hframe : message.frameLength = message'.frameLength ↔
      message.headerSizeAtPayload = message'.headerSizeAtPayload := by
    rw [Message.frameLength, Message.frameLength, hlength, ← ofNat_headerSize_inj hsize hsize']
    constructor
    · intro he
      grind
    · intro he
      rw [he]
  rw [← hframe, h.transmitted_eq, h'.transmitted_eq, hheader]
  constructor
  · intro he
    have hbytes := (Prod.mk.inj (List.cons.inj he).1).2
    have hsecond := congrArg (fun bytes : List UInt8 => bytes[1]?) hbytes
    simp only [List.getElem?_take_of_lt (show 1 < message.headerSize + 2 by omega)] at hsecond
    exact Option.some.inj hsecond
  · intro he
    rw [Message.sentBytes, Message.sentBytes, he, hfields, hpayload, hheader]

end Lengths

-- The cached lengths are right exactly if the header has, at the end, the size
-- that it had when the payload was set. A payload set before some of the
-- addresses is sent as one set after them under the same condition.
theorem payload_length_kept_iff (prior : MrfState) :
    (∀ setters : List StateSetter,
      let message := setters.foldl Message.update (Message.initial prior.payload)
      ∃ last, runAll StateSetter.apply setters prior.init = .ok last ∧
        (last.getPayloadLength = message.payload_length ↔
          message.headerSize = message.headerSizeAtPayload) ∧
        (message.headerSize + message.payload_length.toNat ≤ 255 →
          (last.header.frame_length.toNat =
              last.header.frame_header_length.toNat + message.payload_length.toNat ↔
            message.headerSize = message.headerSizeAtPayload))) ∧
    ∀ (before : List StateSetter) (setters : List FieldSetter) (payload : BytePointer)
      (payload_length : UInt8),
      let fields := (before.foldl Message.update (Message.initial prior.payload)).fields
      ∃ early late,
        runAll StateSetter.apply
          (before ++ .setPayload payload payload_length :: setters.map .field) prior.init =
            .ok early ∧
        runAll StateSetter.apply
          (before ++ setters.map .field ++ [.setPayload payload payload_length]) prior.init =
            .ok late ∧
        (early.transmitted = late.transmitted ↔
          fields.toBytes.length = (setters.foldl FieldSetter.update fields).toBytes.length) := by
  have hinit := init_holds prior
  constructor
  · intro setters message
    have hsize := Message.headerSizeAtPayload_le prior.payload setters
    obtain ⟨last, hlast, h⟩ := setters_hold hinit setters
    exact ⟨last, hlast, h.getPayloadLength_eq_iff hsize, h.frame_length_eq_iff hsize⟩
  · intro before setters payload payload_length fields
    obtain ⟨early, hearly, h⟩ := setters_hold hinit
      (before ++ .setPayload payload payload_length :: setters.map .field)
    obtain ⟨late, hlate, h'⟩ := setters_hold hinit
      (before ++ setters.map .field ++ [.setPayload payload payload_length])
    refine ⟨early, late, hearly, hlate, ?_⟩
    simp only [List.foldl_append, List.foldl_cons, List.foldl_nil, Message.update,
      Message.foldl_update_field] at h h'
    exact h.transmitted_eq_iff h' rfl rfl rfl (Message.headerSize_le _) (Message.headerSize_le _)

omit [BitManipulation] in
-- The setters of Mac802154_configure, without any payload.
theorem payload_length_after_configure :
    ¬∀ setters : List StateSetter,
      let message := setters.foldl Message.update (Message.initial fun _ => 0)
      message.headerSize + message.payload_length.toNat ≤ 255 →
        (runAll (@StateSetter.apply BitManipulation.reference) setters
          (@init BitManipulation.reference
            ⟨0, ⟨0, 0, ⟨Vector.replicate 21 0⟩⟩, fun _ => 0⟩)).map getPayloadLength =
          .ok message.payload_length := by
  intro h
  have hlength := h [.field (.setPanId #v[0xCC, 0xDD]), .field (.setShortSourceAddress #v[0xAA, 0xAA]),
    .field (.setExtendedDestinationAddress (Vector.replicate 8 0))] (by decide)
  revert hlength
  decide +kernel

end MrfState

end Mac802154
