import Mac802154.FrameHeader802154.Layout

namespace Mac802154

open Library FrameHeader802154

-- What a MAC header is for, independently of where its bytes lie.
inductive Address where
  | short (bytes : Vector UInt8 2)
  | extended (bytes : Vector UInt8 8)
deriving DecidableEq, Repr

namespace Address

def toList : Address → List UInt8
  | short bytes => bytes.toList
  | extended bytes => bytes.toList

def isExtended : Address → Bool
  | short _ => false
  | extended _ => true

@[simp] theorem isExtended_short (bytes : Vector UInt8 2) : (short bytes).isExtended = false := rfl

@[simp] theorem isExtended_extended (bytes : Vector UInt8 8) :
    (extended bytes).isExtended = true := rfl

def mode (address : Address) : UInt8 :=
  if address.isExtended then ADDRESSING_MODE_EXTENDED_ADDRESS else ADDRESSING_MODE_SHORT_ADDRESS

theorem length_toList (address : Address) :
    address.toList.length = (getAddressSize address.mode).toNat := by
  cases address with
  | short bytes => simp [toList, mode, isExtended]; rfl
  | extended bytes => simp [toList, mode, isExtended]; rfl

@[simp] theorem length_toList_short (bytes : Vector UInt8 2) : (short bytes).toList.length = 2 := by
  simp [toList]

@[simp] theorem length_toList_extended (bytes : Vector UInt8 8) :
    (extended bytes).toList.length = 8 := by
  simp [toList]

theorem length_toList_le (address : Address) : address.toList.length ≤ 8 := by
  rw [length_toList]
  exact getAddressSize_le _

theorem toList_inj {address other : Address} (hkind : address.isExtended = other.isExtended)
    (h : address.toList = other.toList) : address = other := by
  cases address <;> cases other <;> simp_all [toList, isExtended, Vector.toList_inj]

theorem mode_eq_extended_iff (address : Address) :
    address.mode = ADDRESSING_MODE_EXTENDED_ADDRESS ↔ address.isExtended := by
  unfold mode
  cases address.isExtended <;> decide

theorem mode_eq_short_iff (address : Address) :
    address.mode = ADDRESSING_MODE_SHORT_ADDRESS ↔ address.isExtended = false := by
  unfold mode
  cases address.isExtended <;> decide

end Address

-- A suppressed sequence number is `none`.
structure HeaderFields where
  acknowledgementRequest : Bool
  sequenceNumber : Option UInt8
  panId : Vector UInt8 2
  destination : Address
  source : Address
deriving DecidableEq, Repr

namespace HeaderFields

def initial (sequenceNumber : Option UInt8) : HeaderFields where
  acknowledgementRequest := false
  sequenceNumber := sequenceNumber
  panId := #v[0, 0]
  destination := .short #v[0, 0]
  source := .short #v[0, 0]

-- A data frame; the pan id is compressed unless both addresses are extended.
def firstControlByte (fields : HeaderFields) : UInt8 :=
  0x01 + (if fields.acknowledgementRequest then 0x20 else 0) +
    if fields.destination.isExtended && fields.source.isExtended then 0 else 0x40

-- Frame version 2015.
def secondControlByte (fields : HeaderFields) : UInt8 :=
  0x20 + (if fields.sequenceNumber.isNone then 1 else 0) + 4 * fields.destination.mode +
    64 * fields.source.mode

def beforeDestination (fields : HeaderFields) : List UInt8 :=
  fields.sequenceNumber.toList ++ fields.panId.toList

def beforeSource (fields : HeaderFields) : List UInt8 :=
  fields.beforeDestination ++ fields.destination.toList

def body (fields : HeaderFields) : List UInt8 :=
  fields.beforeSource ++ fields.source.toList

def toBytes (fields : HeaderFields) : List UInt8 :=
  fields.firstControlByte :: fields.secondControlByte :: fields.body

theorem length_sequenceNumber_le (fields : HeaderFields) :
    fields.sequenceNumber.toList.length ≤ 1 := by
  cases fields.sequenceNumber <;> simp

theorem length_beforeDestination (fields : HeaderFields) :
    fields.beforeDestination.length = fields.sequenceNumber.toList.length + 2 := by
  rw [beforeDestination, List.length_append, Vector.length_toList]

theorem length_beforeSource (fields : HeaderFields) :
    fields.beforeSource.length =
      fields.sequenceNumber.toList.length + 2 + fields.destination.toList.length := by
  rw [beforeSource, List.length_append, length_beforeDestination]

theorem length_toBytes (fields : HeaderFields) :
    fields.toBytes.length = 4 + fields.sequenceNumber.toList.length +
      fields.destination.toList.length + fields.source.toList.length := by
  simp only [toBytes, body, List.length_cons, List.length_append, length_beforeSource]
  omega

theorem length_toBytes_le (fields : HeaderFields) :
    fields.toBytes.length ≤ MAXIMUM_HEADER_SIZE := by
  have hd := fields.destination.length_toList_le
  have hs := fields.source.length_toList_le
  have hq := fields.length_sequenceNumber_le
  rw [length_toBytes]
  unfold MAXIMUM_HEADER_SIZE
  omega

end HeaderFields

-- The setters that keep the sequence number where it is.
inductive FieldSetter where
  | setPanId (pan_id : Vector UInt8 2)
  | setShortSourceAddress (address : Vector UInt8 2)
  | setExtendedSourceAddress (address : Vector UInt8 8)
  | setShortDestinationAddress (address : Vector UInt8 2)
  | setExtendedDestinationAddress (address : Vector UInt8 8)
  | enableAcknowledgementRequest

namespace FieldSetter

def apply [BitManipulation] (setter : FieldSetter) (self : FrameHeader802154) :
    Checked FrameHeader802154 :=
  match setter with
  | setPanId pan_id => self.setPanId pan_id
  | setShortSourceAddress address => self.setShortSourceAddress address
  | setExtendedSourceAddress address => self.setExtendedSourceAddress address
  | setShortDestinationAddress address => self.setShortDestinationAddress address
  | setExtendedDestinationAddress address => self.setExtendedDestinationAddress address
  | enableAcknowledgementRequest => .ok self.enableAcknowledgementRequest

def update (fields : HeaderFields) : FieldSetter → HeaderFields
  | setPanId pan_id => { fields with panId := pan_id }
  | setShortSourceAddress address => { fields with source := .short address }
  | setExtendedSourceAddress address => { fields with source := .extended address }
  | setShortDestinationAddress address => { fields with destination := .short address }
  | setExtendedDestinationAddress address => { fields with destination := .extended address }
  | enableAcknowledgementRequest => { fields with acknowledgementRequest := true }

end FieldSetter

def HeaderFields.afterSetters (suppressed : Bool) (setters : List FieldSetter) : HeaderFields :=
  setters.foldl FieldSetter.update (HeaderFields.initial (if suppressed then none else some 0))

namespace FrameHeader802154

-- The header's bytes stand at the front of the array; what lies behind them is free.
def Represents (self : FrameHeader802154) (fields : HeaderFields) : Prop :=
  fields.toBytes <+: self.data.toList

theorem represents_iff (self : FrameHeader802154) (fields : HeaderFields) :
    self.Represents fields ↔ ∃ behind, self.data.toList =
      fields.firstControlByte :: fields.secondControlByte ::
        (fields.beforeSource ++ (fields.source.toList ++ behind)) := by
  simp only [Represents, List.IsPrefix, HeaderFields.toBytes, HeaderFields.body, List.cons_append,
    List.append_assoc, eq_comm]

end FrameHeader802154

end Mac802154
