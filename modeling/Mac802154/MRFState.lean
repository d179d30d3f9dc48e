import Mac802154.FrameHeader802154.Fields
import Mac802154.PeripheralInterface

namespace Mac802154

open Library FrameHeader802154

def MRF_STATE_FRAME_LENGTH_CHANGED : UInt8 := (1 : UInt8) <<< 1
def MRF_STATE_DESTINATION_ADDRESS_CHANGED : UInt8 := (1 : UInt8) <<< 4
def MRF_STATE_PAYLOAD_CHANGED : UInt8 := (1 : UInt8) <<< 6

structure MrfHeader where
  frame_header_length : UInt8
  frame_length : UInt8
  frame_header : FrameHeader802154

structure MrfState where
  state : UInt8
  header : MrfHeader
  payload : BytePointer

structure MrfField where
  address : UInt16
  data : BytePointer
  length : UInt8

namespace MrfHeader

def toBytes (self : MrfHeader) : List UInt8 :=
  self.frame_header_length :: self.frame_length :: self.frame_header.data.toList

end MrfHeader

namespace MrfState

variable [BitManipulation]

-- What every setter of an address does once the frame header has changed.
def withFrameHeader (mrf : MrfState) (frame_header : FrameHeader802154) : MrfState :=
  { mrf with header :=
    { mrf.header with frame_header, frame_header_length := frame_header.getHeaderSize } }

def init (mrf : MrfState) : MrfState :=
  let frame_header := mrf.header.frame_header.init
  let frame_header_length := frame_header.getHeaderSize
  { mrf with
    header := { frame_header, frame_header_length, frame_length := frame_header_length }
    state := 0 }

def setShortDestinationAddress (mrf : MrfState) (address : Vector UInt8 2) : Checked MrfState := do
  let mrf := mrf.withFrameHeader (← mrf.header.frame_header.setShortDestinationAddress address)
  return { mrf with state := mrf.state ||| MRF_STATE_DESTINATION_ADDRESS_CHANGED }

def setExtendedDestinationAddress (mrf : MrfState) (address : Vector UInt8 8) :
    Checked MrfState := do
  return mrf.withFrameHeader (← mrf.header.frame_header.setExtendedDestinationAddress address)

def setShortSourceAddress (mrf : MrfState) (address : Vector UInt8 2) : Checked MrfState := do
  return mrf.withFrameHeader (← mrf.header.frame_header.setShortSourceAddress address)

def setExtendedSourceAddress (mrf : MrfState) (address : Vector UInt8 8) : Checked MrfState := do
  return mrf.withFrameHeader (← mrf.header.frame_header.setExtendedSourceAddress address)

omit [BitManipulation] in
def setPayload (mrf : MrfState) (payload : BytePointer) (payload_length : UInt8) : MrfState :=
  { mrf with
    header := { mrf.header with frame_length := payload_length + mrf.header.frame_header_length }
    payload
    state := mrf.state ||| (MRF_STATE_FRAME_LENGTH_CHANGED ||| MRF_STATE_PAYLOAD_CHANGED) }

omit [BitManipulation] in
def getPayloadLength (mrf : MrfState) : UInt8 :=
  mrf.header.frame_length - mrf.header.frame_header_length

-- The pan id and the acknowledgement request leave the cached length as it is.
def setPanId (mrf : MrfState) (pan_id : Vector UInt8 2) : Checked MrfState := do
  let frame_header ← mrf.header.frame_header.setPanId pan_id
  return { mrf with header := { mrf.header with frame_header } }

omit [BitManipulation] in
def getFullHeaderLength (mrf : MrfState) : UInt8 :=
  mrf.header.frame_header_length + 2

omit [BitManipulation] in
-- No field reaches behind the structure.
def getFullHeaderData (mrf : MrfState) : BytePointer :=
  fun i => mrf.header.toBytes.getD i 0

omit [BitManipulation] in
def getPayload (mrf : MrfState) : BytePointer :=
  mrf.payload

omit [BitManipulation] in
def moveIteratorToNextField (mrf : MrfState) : Bool × MrfState :=
  if mrf.state &&& MRF_STATE_FRAME_LENGTH_CHANGED ≠ 0 then
    (true, { mrf with state := mrf.state &&& ~~~MRF_STATE_FRAME_LENGTH_CHANGED })
  else if mrf.state &&& MRF_STATE_PAYLOAD_CHANGED ≠ 0 then
    (true, { mrf with state := mrf.state &&& ~~~MRF_STATE_PAYLOAD_CHANGED })
  else (false, mrf)

omit [BitManipulation] in
-- Whatever the iterator has moved to, the field is the full header.
def getCurrentField (mrf : MrfState) : MrfField where
  length := mrf.getFullHeaderLength
  data := fun i => mrf.header.toBytes.getD i 0
  address := 0

omit [BitManipulation] in
def getFullHeaderField (mrf : MrfState) : MrfField where
  address := 0
  data := mrf.getFullHeaderData
  length := mrf.getFullHeaderLength

omit [BitManipulation] in
def getPayloadField (mrf : MrfState) : MrfField where
  data := mrf.getPayload
  length := mrf.getPayloadLength
  address := mrf.getFullHeaderLength.toUInt16

def enableAcknowledgement (mrf : MrfState) : MrfState :=
  { mrf with header :=
    { mrf.header with frame_header := mrf.header.frame_header.enableAcknowledgementRequest } }

end MrfState

end Mac802154
