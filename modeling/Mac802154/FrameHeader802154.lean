import Mac802154.BitManipulation

namespace Mac802154

open Library BitManipulation

abbrev MAXIMUM_HEADER_SIZE : Nat := 21

structure FrameHeader802154 where
  data : Vector UInt8 MAXIMUM_HEADER_SIZE
deriving DecidableEq, Repr

def FRAME_TYPE_DATA : UInt8 := 1
def ADDRESSING_MODE_SHORT_ADDRESS : UInt8 := 0b10
def ADDRESSING_MODE_EXTENDED_ADDRESS : UInt8 := 0b11
def FRAME_VERSION_2015 : UInt8 := 0b10

-- A loop counter is an int8_t, a count a uint8_t, and a pointer is its distance
-- from the start of the array. The fuel is one more than the number of steps
-- that can stay inside the array.
def moveLeftLoop {n : Nat} (number_of_elements : UInt8) (distance : Int8) :
    Nat → Int8 → Int → Vector UInt8 n → Checked (Vector UInt8 n)
  | 0, _, _, _ => .error .outOfFuel
  | fuel + 1, index, source, data =>
      if index.toInt < number_of_elements.toNat then do
        let value ← load data source
        let data ← store data (source + distance.toInt) value
        moveLeftLoop number_of_elements distance fuel (index + 1) (source + 1) data
      else .ok data

def moveLeft {n : Nat} (data : Vector UInt8 n) (source : Int) (number_of_elements : UInt8)
    (distance : Int8) : Checked (Vector UInt8 n) :=
  moveLeftLoop number_of_elements distance (n + 1) 0 source data

-- The counter starts at most at 127, so 129 tests reach the one that fails.
def moveRightLoop {n : Nat} (distance : UInt8) :
    Nat → Int8 → Int → Vector UInt8 n → Checked (Vector UInt8 n)
  | 0, _, _, _ => .error .outOfFuel
  | fuel + 1, index, source, data =>
      if 0 ≤ index.toInt then do
        let value ← load data source
        let data ← store data (source + distance.toNat) value
        moveRightLoop distance fuel (index - 1) (source - 1) data
      else .ok data

def moveRight {n : Nat} (data : Vector UInt8 n) (source : Int) (number_of_elements distance : UInt8) :
    Checked (Vector UInt8 n) :=
  moveRightLoop distance 129 (Int8.ofInt (number_of_elements.toNat - 1))
    (source + (number_of_elements.toNat - 1)) data

namespace FrameHeader802154

-- first byte
def frame_type_bitmask : UInt8 := 0b111
def acknowledgement_request_offset : UInt8 := 5
def pan_id_compression_offset : UInt8 := 6

-- second byte
def sequence_number_suppression_offset : UInt8 := 8
def destination_addressing_mode_bitmask : UInt8 := 0b11
def destination_addressing_mode_offset : UInt8 := 10
def frame_version_offset : UInt8 := 12
def frame_version_bitmask : UInt8 := 0b11
def source_addressing_mode_bitmask : UInt8 := 0b11
def source_addressing_mode_offset : UInt8 := 14

def control_field_size : UInt8 := 2
def pan_id_size : UInt8 := 2

def getAddressSize (addressing_mode : UInt8) : UInt8 :=
  if addressing_mode = ADDRESSING_MODE_EXTENDED_ADDRESS then 8
  else if addressing_mode = ADDRESSING_MODE_SHORT_ADDRESS then 2
  else 0

variable [BitManipulation]

def getSourceAddressingMode (self : FrameHeader802154) : UInt8 :=
  getByteOnArray self.data source_addressing_mode_bitmask source_addressing_mode_offset

def getDestinationAddressingMode (self : FrameHeader802154) : UInt8 :=
  getByteOnArray self.data destination_addressing_mode_bitmask destination_addressing_mode_offset

def setSourceAddressingMode (self : FrameHeader802154) (mode : UInt8) : FrameHeader802154 :=
  ⟨setByteOnArray self.data source_addressing_mode_bitmask source_addressing_mode_offset mode⟩

def setDestinationAddressingMode (self : FrameHeader802154) (mode : UInt8) : FrameHeader802154 :=
  ⟨setByteOnArray self.data destination_addressing_mode_bitmask
    destination_addressing_mode_offset mode⟩

def setFrameType (self : FrameHeader802154) (frame_type : UInt8) : FrameHeader802154 :=
  ⟨setByteOnArray self.data frame_type_bitmask 0 frame_type⟩

def setFrameVersion (self : FrameHeader802154) (version : UInt8) : FrameHeader802154 :=
  ⟨setByteOnArray self.data frame_version_bitmask frame_version_offset version⟩

def enablePanIdCompression (self : FrameHeader802154) : FrameHeader802154 :=
  ⟨setBitOnArray self.data pan_id_compression_offset⟩

def disablePanIdCompression (self : FrameHeader802154) : FrameHeader802154 :=
  ⟨clearBitOnArray self.data pan_id_compression_offset⟩

def panIdCompressionIsEnabled (self : FrameHeader802154) : Bool :=
  bitIsSetOnArray self.data pan_id_compression_offset

def enableSequenceNumberSuppression (self : FrameHeader802154) : FrameHeader802154 :=
  ⟨setBitOnArray self.data sequence_number_suppression_offset⟩

def disableSequenceNumberSuppression (self : FrameHeader802154) : FrameHeader802154 :=
  ⟨clearBitOnArray self.data sequence_number_suppression_offset⟩

def sequenceNumberIsPresent (self : FrameHeader802154) : Bool :=
  !bitIsSetOnArray self.data sequence_number_suppression_offset

def enableAcknowledgementRequest (self : FrameHeader802154) : FrameHeader802154 :=
  ⟨setBitOnArray self.data acknowledgement_request_offset⟩

def panIdIsPresent (self : FrameHeader802154) : Bool :=
  (self.getSourceAddressingMode = ADDRESSING_MODE_EXTENDED_ADDRESS &&
    self.getDestinationAddressingMode = ADDRESSING_MODE_EXTENDED_ADDRESS) ||
    self.panIdCompressionIsEnabled

def getSequenceNumberSize (self : FrameHeader802154) : UInt8 :=
  if self.sequenceNumberIsPresent then 1 else 0

def getPanIdSize (self : FrameHeader802154) : UInt8 :=
  if self.panIdIsPresent then 2 else 0

def getSourceAddressSize (self : FrameHeader802154) : UInt8 :=
  getAddressSize self.getSourceAddressingMode

def getDestinationAddressSize (self : FrameHeader802154) : UInt8 :=
  getAddressSize self.getDestinationAddressingMode

def getHeaderSize (self : FrameHeader802154) : UInt8 :=
  let base_size : UInt8 := 2
  let base_size := if self.sequenceNumberIsPresent then base_size + 1 else base_size
  let base_size := base_size + self.getPanIdSize
  let base_size := base_size + getAddressSize self.getSourceAddressingMode
  base_size + getAddressSize self.getDestinationAddressingMode

def getPanIdOffset (self : FrameHeader802154) : UInt8 :=
  control_field_size + self.getSequenceNumberSize

def getDestinationAddressOffset (self : FrameHeader802154) : UInt8 :=
  self.getPanIdOffset + pan_id_size

def getSourceAddressOffset (self : FrameHeader802154) : UInt8 :=
  self.getDestinationAddressOffset + self.getDestinationAddressSize

-- A pointer into the header is its distance from `data`.
def getPanIdPtr (self : FrameHeader802154) : Nat := self.getPanIdOffset.toNat

def getDestinationAddressPtr (self : FrameHeader802154) : Nat :=
  self.getDestinationAddressOffset.toNat

def getSourceAddressPtr (self : FrameHeader802154) : Nat := self.getSourceAddressOffset.toNat

def init (self : FrameHeader802154) : FrameHeader802154 :=
  let self : FrameHeader802154 := ⟨self.data.map fun _ => 0⟩
  let self := self.enablePanIdCompression
  let self := self.setDestinationAddressingMode ADDRESSING_MODE_SHORT_ADDRESS
  let self := self.setSourceAddressingMode ADDRESSING_MODE_SHORT_ADDRESS
  let self := self.setFrameType FRAME_TYPE_DATA
  self.setFrameVersion FRAME_VERSION_2015

omit [BitManipulation] in
-- An assignment to data[index].
def store (self : FrameHeader802154) (index : Int) (value : UInt8) : Checked FrameHeader802154 := do
  let data ← Library.store self.data index value
  return ⟨data⟩

-- BitManipulation_copyBytes(source, self->data + destination, count).
def copyBytes {m : Nat} (self : FrameHeader802154) (source : Vector UInt8 m) (destination : Nat)
    (count : UInt8) : Checked FrameHeader802154 :=
  if destination + count.toNat ≤ MAXIMUM_HEADER_SIZE then
    .ok ⟨BitManipulation.copyBytes source self.data destination count⟩
  else .error (.outOfBounds (max destination MAXIMUM_HEADER_SIZE))

def setPanId (self : FrameHeader802154) (pan_id : Vector UInt8 2) : Checked FrameHeader802154 := do
  let self ← self.store self.getPanIdOffset.toNat pan_id[0]
  self.store (self.getPanIdOffset.toNat + 1) pan_id[1]

def moveSourceAddress (self : FrameHeader802154) (distance : Int8) : Checked FrameHeader802154 := do
  let source_address_ptr := self.getSourceAddressOffset.toNat
  let size := getAddressSize self.getSourceAddressingMode
  if 0 < distance then
    return ⟨← moveRight self.data source_address_ptr size distance.toUInt8⟩
  else
    return ⟨← moveLeft self.data source_address_ptr size distance⟩

def moveDestinationAddress (self : FrameHeader802154) (distance : Int8) :
    Checked FrameHeader802154 := do
  let address_ptr := self.getDestinationAddressOffset.toNat
  let self ← self.moveSourceAddress distance
  return ⟨← moveRight self.data address_ptr 8 distance.toUInt8⟩

def movePanId (self : FrameHeader802154) (distance : Int8) : Checked FrameHeader802154 := do
  let pan_id_ptr := self.getPanIdOffset.toNat
  let self ← self.moveDestinationAddress distance
  return ⟨← moveRight self.data pan_id_ptr 2 distance.toUInt8⟩

def setSequenceNumber (self : FrameHeader802154) (number : UInt8) : Checked FrameHeader802154 := do
  let self ← self.movePanId 1
  let self := self.disableSequenceNumberSuppression
  self.store 2 number

def setExtendedSourceAddress (self : FrameHeader802154) (address : Vector UInt8 8) :
    Checked FrameHeader802154 := do
  let source_address := self.getSourceAddressOffset.toNat
  let self ← self.copyBytes address source_address 8
  let self :=
    if self.getDestinationAddressingMode = ADDRESSING_MODE_EXTENDED_ADDRESS then
      self.disablePanIdCompression
    else self
  return self.setSourceAddressingMode ADDRESSING_MODE_EXTENDED_ADDRESS

def setShortSourceAddress (self : FrameHeader802154) (address : Vector UInt8 2) :
    Checked FrameHeader802154 := do
  let source_address := self.getSourceAddressOffset.toNat
  let self ← self.copyBytes address source_address 2
  let self := self.enablePanIdCompression
  return self.setSourceAddressingMode ADDRESSING_MODE_SHORT_ADDRESS

-- The difference of two address sizes, passed as an int8_t.
def sizeDifference (to_mode from_mode : UInt8) : Int8 :=
  Int8.ofInt ((getAddressSize to_mode).toNat - (getAddressSize from_mode).toNat)

def setExtendedDestinationAddress (self : FrameHeader802154) (address : Vector UInt8 8) :
    Checked FrameHeader802154 := do
  let destination_address_ptr := self.getDestinationAddressOffset.toNat
  let self ←
    (if self.getDestinationAddressingMode = ADDRESSING_MODE_SHORT_ADDRESS then
      self.moveSourceAddress
        (sizeDifference ADDRESSING_MODE_EXTENDED_ADDRESS ADDRESSING_MODE_SHORT_ADDRESS)
    else .ok self)
  let self :=
    if self.getSourceAddressingMode = ADDRESSING_MODE_EXTENDED_ADDRESS then
      self.disablePanIdCompression
    else self
  let self ← self.copyBytes address destination_address_ptr 8
  return self.setDestinationAddressingMode ADDRESSING_MODE_EXTENDED_ADDRESS

def setShortDestinationAddress (self : FrameHeader802154) (address : Vector UInt8 2) :
    Checked FrameHeader802154 := do
  let self ←
    (if self.getDestinationAddressingMode = ADDRESSING_MODE_EXTENDED_ADDRESS then
      self.moveSourceAddress
        (sizeDifference ADDRESSING_MODE_SHORT_ADDRESS ADDRESSING_MODE_EXTENDED_ADDRESS)
    else .ok self)
  let destination_address_ptr := self.getDestinationAddressOffset.toNat
  let self := self.enablePanIdCompression
  let self ← self.copyBytes address destination_address_ptr 2
  return self.setDestinationAddressingMode ADDRESSING_MODE_SHORT_ADDRESS

end FrameHeader802154

end Mac802154
