import Mac802154.Library.Checked
import Mac802154.BitManipulation
import Mac802154.FrameHeader802154
import Mac802154.FrameHeader802154.Moves
import Mac802154.FrameHeader802154.Layout
import Mac802154.FrameHeader802154.Fields
import Mac802154.FrameHeader802154.Theorems
import Mac802154.FrameHeader802154.SequenceNumber
import Mac802154.FrameHeader802154.Bounds
import Mac802154.MRFState
import Mac802154.MRFState.Theorems
import Mac802154.Library.Program
import Mac802154.Library.Program.Rules
import Mac802154.Library.Program.Session
import Mac802154.MrfIo
import Mac802154.MrfIo.Theorems
import Mac802154.Library.Memory
import Mac802154.MrfIo.Memories
import Mac802154.MRFInternalConstants
import Mac802154.Interface
import Mac802154.MRF24J40
import Mac802154.Mac802154MRFImpl
import Mac802154.System
import Mac802154.MrfIo.RegisterWrites
import Mac802154.Mac802154MRFImpl.Theorems
import Mac802154.MRF24J40.Theorems
import Mac802154.Identity
import Mac802154.Notification
import Mac802154.TransmitImage
import Mac802154.Reception
import Mac802154.RoundTrip
import Mac802154.FrameHeader802154.Suppression
import Mac802154.FrameHeader802154.Insertion
import Mac802154.Library.Iterator
import Mac802154.MRFState.Iterator
import Mac802154.HelpersForUsageWithoutCommModule
import Mac802154.Initialization
import Mac802154.TransmitFifo
import Mac802154.System.Theorems
import Mac802154.Fetching
import Mac802154.Mac802154MRFImpl.Sending
import Mac802154.Transmissions
import Mac802154.Library.Network
import Mac802154.Network
import Mac802154.Completion
import Mac802154.Library.Program.Progress
import Mac802154.Progress
import Mac802154.Library.Program.Client
import Mac802154.Attribution
import Mac802154.Client
import Mac802154.IntegrationTests.Replies
import Mac802154.IntegrationTests.EchoMessageBlocking
