import RecoveryManager.Lib.Program
import RecoveryManager.Lib.Transition
import RecoveryManager.Lib.Ladder
import RecoveryManager.Types
import RecoveryManager.Journal
import RecoveryManager.Instance
import RecoveryManager.JournalApi
import RecoveryManager.UnitParser
import RecoveryManager.Reload
import RecoveryManager.Timers
import RecoveryManager.Dispatcher
import RecoveryManager.Executor
import RecoveryManager.Messages
import RecoveryManager.MainLoop
import RecoveryManager.Statements
import RecoveryManager.Units
import RecoveryManager.Frames
import RecoveryManager.Rungs
import RecoveryManager.UnitSource
import RecoveryManager.Levels
import RecoveryManager.Consistency
import RecoveryManager.Reloading
import RecoveryManager.Interruption
import RecoveryManager.Crash
import RecoveryManager.Recovery
import RecoveryManager.Boot
import RecoveryManager.Escalation
import RecoveryManager.Relaxation
import RecoveryManager.Waiting
import RecoveryManager.Contexts
import RecoveryManager.Traffic
import RecoveryManager.Lookup
import RecoveryManager.Order
import RecoveryManager.Lib.Keyed
import RecoveryManager.Malformed
import RecoveryManager.Isolation
import RecoveryManager.Lib.ByteStream
import RecoveryManager.Wire
import RecoveryManager.Framing
import RecoveryManager.Shutdown
import RecoveryManager.Monitor
import RecoveryManager.Detection
import RecoveryManager.Friends
import RecoveryManager.Lib.Mixing
import RecoveryManager.Versions
import RecoveryManager.Edges
import RecoveryManager.Unreliable
import RecoveryManager.Waits
import RecoveryManager.Atomicity
import RecoveryManager.Capacity
import RecoveryManager.Names
import RecoveryManager.Reception
import RecoveryManager.Templates
import RecoveryManager.Shell
import RecoveryManager.SqlTexts
import RecoveryManager.Quotes
import RecoveryManager.Peers
import RecoveryManager.Answers
import RecoveryManager.Network
import RecoveryManager.Shapes
import RecoveryManager.Handling
import RecoveryManager.Delegation
import RecoveryManager.Broadcast
import RecoveryManager.Copies
import RecoveryManager.Propagation
import RecoveryManager.Failures
import RecoveryManager.Lib.Budget
import RecoveryManager.Lib.Recording
import RecoveryManager.Lib.RefCount
import RecoveryManager.Lib.Ownership
import RecoveryManager.Profile
import RecoveryManager.Lifetimes
import RecoveryManager.Quiescence
import RecoveryManager.Connections
import RecoveryManager.Stabilisation
import RecoveryManager.Restarts
import RecoveryManager.Echoes
import RecoveryManager.Startup
import RecoveryManager.StreamNetwork
import RecoveryManager.Notices
import RecoveryManager.FriendTimers
