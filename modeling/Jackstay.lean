import Jackstay.Library.WorkLists
import Jackstay.Library.OrderedMap
import Jackstay.Library.Transition
import Jackstay.Library.LengthPrefix
import Jackstay.Library.MachineInt
import Jackstay.Library.BTreeMap
import Jackstay.Library.Traces
import Jackstay.Library.Seqlock
import Jackstay.Library.Tally
import Jackstay.Acquisition.AdmissionBook
import Jackstay.Acquisition.Accounting
import Jackstay.Acquisition.BookRuns
import Jackstay.Acquisition.Arena.Layout
import Jackstay.Acquisition.Arena.Incarnation
import Jackstay.Acquisition.Arena.Step
import Jackstay.Acquisition.Arena.Producer
import Jackstay.Acquisition.Arena.Moves
import Jackstay.Acquisition.Arena.Transitions
import Jackstay.Acquisition.Arena.Claims
import Jackstay.Acquisition.Arena.Ledger
import Jackstay.Acquisition.Arena.Runs
import Jackstay.Acquisition.Arena.Cleanup
import Jackstay.Acquisition.Arena.Publication
import Jackstay.Acquisition.Arena.Uses
import Jackstay.Acquisition.Arena.Threads
import Jackstay.Acquisition.Arena.Delivery
import Jackstay.Acquisition.Arena.Borrows
import Jackstay.Acquisition.Arena.Lifetime
import Jackstay.Acquisition.Arena.Monotone
import Jackstay.Acquisition.Arena.Tracking
import Jackstay.Acquisition.Arena.Exclusivity
import Jackstay.Acquisition.Arena.Leases
import Jackstay.Acquisition.Arena.Stopping
import Jackstay.Acquisition.Arena.Offers
import Jackstay.Acquisition.Arena.Refusals
import Jackstay.Acquisition.Arena.Closure
import Jackstay.Acquisition.Arena.Replacement
import Jackstay.Acquisition.Arena.Notification
import Jackstay.Acquisition.Arena.Sizes
import Jackstay.Acquisition.Arena.InPlace
import Jackstay.Acquisition.Arena.SlotChoice
import Jackstay.Acquisition.Arena.Placement
import Jackstay.Acquisition.Arena.Retention
import Jackstay.Acquisition.Arena.Conformance
import Jackstay.Acquisition.Arena.Faults
import Jackstay.Acquisition.Arena.Acquirable
import Jackstay.Input.Model
import Jackstay.Input.Session
import Jackstay.Input.Effects
import Jackstay.Input.Trace
import Jackstay.Input.Sound
import Jackstay.Input.Bounds
import Jackstay.Input.Held
import Jackstay.Input.Mailbox
import Jackstay.Input.Settlement
import Jackstay.Input.Closing
import Jackstay.Input.Ending
import Jackstay.Input.Succession
import Jackstay.Input.Gate
import Jackstay.Input.Order
import Jackstay.Input.Coherence
import Jackstay.Input.Server
import Jackstay.Input.Charge
import Jackstay.Input.Wire
import Jackstay.Video.ControlPage
import Jackstay.Video.PageReads
import Jackstay.Video.NativeTrack
import Jackstay.Video.Staging
import Jackstay.Video.Window
import Jackstay.Video.Accounts
import Jackstay.Audio.Ring
import Jackstay.Audio.Writing
import Jackstay.Audio.Playback
import Jackstay.Audio.Doorbell
import Jackstay.Audio.Recording
import Jackstay.Audio.Announcement
import Jackstay.Audio.Handover
import Jackstay.Audio.Ownership
import Jackstay.Audio.Geometry
import Jackstay.Handshake.Tracks
import Jackstay.Handshake.Attachment
import Jackstay.Handshake.Listing
import Jackstay.Handshake.Convergence
import Jackstay.Handshake.Transfers
import Jackstay.Handshake.Streams
import Jackstay.Handshake.Hosting
import Jackstay.Handshake.Agreement
import Jackstay.Native.LeaseBook
import Jackstay.Native.Synthetic
import Jackstay.Native.Attach
import Jackstay.Native.Isolation
import Jackstay.Native.ArenaProducer
import Jackstay.Native.Numbering
import Jackstay.Framing.Framed
import Jackstay.Framing.Transport
import Jackstay.Affordances.Json
import Jackstay.Affordances.Snapshot
import Jackstay.Affordances.Normal
import Jackstay.Affordances.Channel
import Jackstay.Affordances.Conforming
import Jackstay.Affordances.Backlog
import Jackstay.Affordances.Gating
import Jackstay.Native.LeaseHistory
import Jackstay.Acquisition.Arena.Extents
import Jackstay.Native.FenceNotifier
import Jackstay.Input.CEvent
import Jackstay.Acquisition.Arena.Resizing
import Jackstay.Toolkit.Pump
import Jackstay.Acquisition.Arena.SlotTasks
import Jackstay.Acquisition.Arena.MappingOwners
import Jackstay.Native.ControlEvents
import Jackstay.Native.Announcing
import Jackstay.Input.Client
import Jackstay.Input.Epochs
import Jackstay.Input.Told
import Jackstay.Input.Link
import Jackstay.Input.Answers
import Jackstay.Acquisition.Arena.Waking
import Jackstay.Acquisition.Arena.Collection
import Jackstay.Acquisition.Arena.Quarantine
