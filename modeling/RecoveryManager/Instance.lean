import Mathlib.Logic.Function.Basic
import RecoveryManager.Journal
import RecoveryManager.Lib.Program

/-!
# An instance of the daemon

The state of one process (`Instance`), the operations its functions perform on it (`Op`) and what each operation does
(`Instance.machine`).  The functions of the source are programs over these operations.

* Event objects live in a store and are passed around by reference, so an event that sits in the executor queue is the
  object the dispatcher is still holding.
* A journal statement or a send may fail; a statement that fails changes nothing.
* What an instance sends waits in `toManager` (replica to primary) or `toClient` (primary to the replica behind a
  socket) until the other side reads it.
* `trace` lists, in order, what the instance did.

`ident` and `Cause` are bookkeeping: a cause names the event object that an event or a message stems from, across
instances.  No function of the source reads them.
-/

namespace RecoveryManager

open Fallible

/-! ### Events and messages -/

/-- An event object in the store of an instance. -/
abbrev EventRef := Nat

/-- The event something stems from: the instance it first appeared on, and the object there. -/
structure Cause where
  instance_ : Nat
  event : EventRef
  deriving DecidableEq, Repr

inductive DispatcherEventType where
  | unknown
  | informProcessCrash
  | informServiceFailed
  | serviceCrashed
  | serviceRestarted
  | remoteContextRestart
  | remotePlatformRestart
  | remoteFactoryReset
  deriving DecidableEq, Repr

/-- The dispatcher event; `none` is a null name. -/
structure RmgDEvent where
  type : DispatcherEventType
  serviceName : Option String
  processName : Option String
  contextName : Option String
  cause : Cause
  deriving DecidableEq, Repr

inductive ExecutorEventType where
  | friendProcessCrash
  | friendServiceFailed
  | serviceRestart
  | serviceResetPublicData
  | serviceResetPrivateData
  | serviceDisable
  | contextRestart
  | platformRestart
  | factoryReset
  deriving DecidableEq, Repr

inductive RmgMessageType where
  | unknown
  | requestContextRestart
  | requestPlatformRestart
  | requestFactoryReset
  | actionResponse
  | replicaDescriptor
  | informProcessCrash
  | informClientServiceFailed
  | informPrimaryServiceFailed
  | instanceStatus
  deriving DecidableEq, Repr

/-- A message as the receiver decodes it. -/
structure RmgMessage where
  type : RmgMessageType
  processName : Option String
  serviceName : Option String
  contextName : Option String
  cause : Cause
  deriving DecidableEq, Repr

/-! ### Timers -/

structure RmgRelaxTimer where
  serviceName : String
  rvector : Int
  timeout : Int
  deriving DecidableEq, Repr

structure RmgFriendTimer where
  serviceName : String
  action : RmgFriendActionType
  argument : Int
  deriving DecidableEq, Repr

inductive TimerData where
  | relax (timer : RmgRelaxTimer)
  | friend (timer : RmgFriendTimer)
  deriving DecidableEq, Repr

/-- A timeout source of the main loop. -/
structure GSource where
  id : Nat
  deadline : Nat
  data : TimerData
  deriving DecidableEq, Repr

/-! ### State -/

structure RmgClient where
  sockfd : Nat
  contextName : Option String
  deriving DecidableEq, Repr

/-- The option values the executor reads. -/
structure RmgOptions where
  publicDataResetCmd : String
  privateDataResetCmd : String
  platformRestartCmd : String
  factoryResetCmd : String
  deriving DecidableEq, Repr

/-- What an instance does, as seen from outside or in its log. -/
inductive Output where
  | statement (q : Sql)
  | received (msg : RmgMessage) (event : EventRef)
  | crashDetected (service : Option String) (cause : Cause)
  | noRecoveryUnit (service : Option String) (cause : Cause)
  | actionRequired (action : RmgActionType) (service : Option String) (rvector : Int) (cause : Cause)
  | pushed (type : ExecutorEventType) (event : RmgDEvent)
  | clientSent (sockfd : Nat) (msg : RmgMessage)
  | managerSent (msg : RmgMessage)
  | timeoutAdded (source : GSource)
  | timeoutExpired (source : GSource)
  | containerReboot (context : Option String) (cause : Cause)
  | platformRestart (service : Option String) (cause : Cause)
  | factoryReset (service : Option String) (cause : Cause)
  | restartUnit (service : Option String)
  | friendAction (timer : RmgFriendTimer)
  | spawned (commandLine : List Char)
  | meditation (service : Option String)
  deriving DecidableEq, Repr

structure Instance where
  ident : Nat
  runMode : RmgRunMode
  hostName : String
  options : RmgOptions
  journal : Journal
  heap : EventRef → RmgDEvent
  allocated : EventRef
  dispatcherQueue : List EventRef
  executorQueue : List (ExecutorEventType × EventRef)
  clients : List RmgClient
  toClient : Nat → List RmgMessage
  toManager : List RmgMessage
  sources : List GSource
  nextSource : Nat
  now : Nat
  running : Bool
  trace : List Output

/-! ### Operations -/

inductive Op where
  | sql (q : Sql)
  | load (event : EventRef)
  | newEvent (event : RmgDEvent) (cause : Option Cause)
  | setContextName (event : EventRef) (name : Option String)
  | pushDispatcher (event : EventRef)
  | pushExecutor (type : ExecutorEventType) (event : EventRef)
  | timeoutAddSeconds (seconds : Nat) (data : TimerData)
  | getRunMode
  | getHostName
  | getOptions
  | getManagerProxy
  | getClients
  | setClientName (sockfd : Nat) (name : Option String)
  | clientSend (sockfd : Nat) (msg : RmgMessage)
  | managerSend (msg : RmgMessage)
  | emit (o : Output)

def Op.Res : Op → Type
  | .sql q => Option q.Rows
  | .load _ => RmgDEvent
  | .newEvent .. => EventRef
  | .timeoutAddSeconds .. => Nat
  | .getRunMode => RmgRunMode
  | .getHostName => String
  | .getOptions => RmgOptions
  | .getManagerProxy => Bool
  | .getClients => List RmgClient
  | .clientSend .. | .managerSend _ => RmgStatus
  | .setContextName .. | .pushDispatcher _ | .pushExecutor .. | .setClientName .. | .emit _ => PUnit

/-- A function of the daemon. -/
abbrev Proc := Prog Op Op.Res

namespace Instance

def emit (w : Instance) (o : Output) : Instance := { w with trace := w.trace ++ [o] }

/-- The tables after a statement that took effect. -/
def commit (w : Instance) (q : Sql) (j : Journal) : Instance :=
  if q.isSelect then w else { w with journal := j, trace := w.trace ++ [.statement q] }

def alloc (w : Instance) (event : RmgDEvent) (cause : Option Cause) : Instance :=
  { w with
    heap := Function.update w.heap w.allocated { event with cause := cause.getD ⟨w.ident, w.allocated⟩ }
    allocated := w.allocated + 1 }

def setContextName (w : Instance) (event : EventRef) (name : Option String) : Instance :=
  { w with heap := Function.update w.heap event { w.heap event with contextName := name } }

def pushDispatcher (w : Instance) (event : EventRef) : Instance :=
  { w with dispatcherQueue := w.dispatcherQueue ++ [event] }

def pushExecutor (w : Instance) (type : ExecutorEventType) (event : EventRef) : Instance :=
  { w with
    executorQueue := w.executorQueue ++ [(type, event)]
    trace := w.trace ++ [.pushed type (w.heap event)] }

def addTimeout (w : Instance) (seconds : Nat) (data : TimerData) : Instance :=
  let source : GSource := ⟨w.nextSource, w.now + seconds, data⟩
  { w with
    sources := w.sources ++ [source]
    nextSource := w.nextSource + 1
    trace := w.trace ++ [.timeoutAdded source] }

def setClientName (w : Instance) (sockfd : Nat) (name : Option String) : Instance :=
  { w with clients := w.clients.map fun c => if c.sockfd = sockfd then { c with contextName := name } else c }

def clientSend (w : Instance) (sockfd : Nat) (msg : RmgMessage) : Instance :=
  { w with
    toClient := Function.update w.toClient sockfd (w.toClient sockfd ++ [msg])
    trace := w.trace ++ [.clientSent sockfd msg] }

def managerSend (w : Instance) (msg : RmgMessage) : Instance :=
  { w with
    toManager := w.toManager ++ [msg]
    trace := w.trace ++ [.managerSent msg] }

/-- What an operation does; `ok` is the environment's word on whether a statement or a send goes through, and whether
the proxy of the service manager is there. -/
def apply : (op : Op) → (ok : Bool) → Instance → op.Res × Instance
  | .sql q, ok, w =>
    match ok, q.effect w.journal with
    | true, some j => (some (q.rows w.journal), w.commit q j)
    | _, _ => (none, w)
  | .load event, _, w => (w.heap event, w)
  | .newEvent event cause, _, w => (w.allocated, w.alloc event cause)
  | .setContextName event name, _, w => (⟨⟩, w.setContextName event name)
  | .pushDispatcher event, _, w => (⟨⟩, w.pushDispatcher event)
  | .pushExecutor type event, _, w => (⟨⟩, w.pushExecutor type event)
  | .timeoutAddSeconds seconds data, _, w => (w.nextSource, w.addTimeout seconds data)
  | .getRunMode, _, w => (w.runMode, w)
  | .getHostName, _, w => (w.hostName, w)
  | .getOptions, _, w => (w.options, w)
  | .getManagerProxy, ok, w => (ok, w)
  | .getClients, _, w => (w.clients, w)
  | .setClientName sockfd name, _, w => (⟨⟩, w.setClientName sockfd name)
  | .clientSend sockfd msg, ok, w => if ok then (.ok, w.clientSend sockfd msg) else (.error, w)
  | .managerSend msg, ok, w => if ok then (.ok, w.managerSend msg) else (.error, w)
  | .emit o, _, w => (⟨⟩, w.emit o)

def machine : Machine Op Op.Res Bool Instance := ⟨apply⟩

/-- A function run with every statement and every send going through. -/
def run {α : Type} (w : Instance) (p : Proc α) : Option α × Instance := Fallible.run machine true p w

/-- A callback that does not return takes the process down with it. -/
def ended : Outcome PUnit → Instance → Instance
  | .done _, w => w
  | _, w => { w with running := false }

/-- The instance after a callback in which every statement and every send goes through. -/
def after (w : Instance) (p : Proc PUnit) : Instance := ended (outcomeOf (w.run p).1) (w.run p).2

/-! ### Symbolic execution -/

variable {α β : Type} {w w' : Instance}

@[simp] theorem run_pure (a : α) : w.run (pure a) = (some a, w) := rfl

@[simp] theorem run_abort : w.run (.abort : Proc α) = (none, w) := rfl

theorem run_bind {p : Proc α} {f : α → Proc β} {a : α} (h : w.run p = (some a, w')) :
    w.run (p >>= f) = w'.run (f a) :=
  run_bind_of_eq machine true h

theorem run_bind_none {p : Proc α} {f : α → Proc β} (h : w.run p = (none, w')) :
    w.run (p >>= f) = (none, w') := by
  unfold run at h ⊢
  rw [Fallible.run_bind, h]

theorem run_bind_congr {p q : Proc α} (f : α → Proc β) (h : w.run p = w.run q) :
    w.run (p >>= f) = w.run (q >>= f) := by
  unfold run at h ⊢
  rw [Fallible.run_bind, Fallible.run_bind, h]

theorem after_congr {p q : Proc PUnit} (h : w.run p = w.run q) : w.after p = w.after q := by
  unfold after
  rw [h]

theorem after_of_run {p : Proc PUnit} (h : w.run p = (some ⟨⟩, w')) : w.after p = w' := by
  rw [after, h]
  rfl

end Instance

end RecoveryManager
