import Mac802154.PeripheralInterface

namespace Mac802154

structure Mac802154Config where
  short_source_address : Vector UInt8 2
  extended_source_address : Vector UInt8 8
  pan_id : Vector UInt8 2
  channel : UInt8
deriving DecidableEq, Repr

-- The calls that set up a message.
inductive SetterCall where
  | setShortDestinationAddress (address : Vector UInt8 2)
  | setExtendedDestinationAddress (address : Vector UInt8 8)
  | useShortSourceAddress
  | useExtendedSourceAddress
  | setPayload (payload : BytePointer) (payload_length : Nat)

-- What the caller of the driver can do: the public functions that touch the
-- chip or the driver's state, and writing to its own Mac802154Config.
inductive Call where
  | configure
  | setter (call : SetterCall)
  | sendBlocking
  | newPacketAvailable
  | getReceivedPacketSize
  | fetchPacketBlocking (buffer : BytePointer) (size : UInt8)
  | enablePromiscuousMode
  | disablePromiscuousMode
  | overwriteConfig (config : Mac802154Config)

-- What it gets back. A packet is the buffer once it is filled.
inductive Answer where
  | nothing
  | size (value : UInt8)
  | flag (value : Bool)
  | packet (buffer : BytePointer)

end Mac802154
