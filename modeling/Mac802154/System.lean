import Mac802154.Library.Program.Session
import Mac802154.Mac802154MRFImpl
import Mac802154.MRF24J40

namespace Mac802154

open Library

-- The driver together with the Mac802154Config that its caller owns.
structure System where
  impl : Mrf
  config : Mac802154Config

variable [BitManipulation]

namespace System

omit [BitManipulation] in
-- A call without a result.
def procedure (system : System) (p : Driver Mrf) : Driver (System × Answer) := do
  let impl ← p
  return ({ system with impl }, .nothing)

def call : Call → System → Driver (System × Answer)
  | .configure, system => system.procedure (system.impl.reconfigure system.config)
  | .setter call, system => system.procedure (call.apply system.impl)
  | .sendBlocking, system => system.procedure system.impl.sendBlocking
  | .enablePromiscuousMode, system => system.procedure system.impl.enablePromiscuousMode
  | .disablePromiscuousMode, system => system.procedure system.impl.disablePromiscuousMode
  | .newPacketAvailable, system => do
      let (impl, new_message) ← system.impl.newMessageAvailable
      return ({ system with impl }, .flag new_message)
  | .getReceivedPacketSize, system => do
      let (impl, size) ← system.impl.getReceivedMessageSize
      return ({ system with impl }, .size size)
  | .fetchPacketBlocking buffer size, system => do
      let (impl, buffer) ← system.impl.fetchMessageBlocking buffer size
      return ({ system with impl }, .packet buffer)
  | .overwriteConfig config, system => return ({ system with config }, .nothing)

def component : Component PeripheralOp PeripheralOp.Response (Bus Chip) System Call Answer where
  call := call
  answered c answer bus := { bus with device := bus.device.log (.returned c answer) }

-- A session of one caller with the driver and a chip that has no record yet.
def run (softwareReset : Chip → Memories) (system : System) (memories : Memories)
    (moves : List (SessionMove Call ChipEvent)) :
    Session PeripheralOp PeripheralOp.Response (Bus Chip) System Call Answer :=
  Session.run (Chip.machine softwareReset) component
    ⟨system, ⟨.deselected, ⟨memories, []⟩⟩, none⟩ moves

end System

end Mac802154
