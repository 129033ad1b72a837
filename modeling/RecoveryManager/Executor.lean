import RecoveryManager.Dispatcher

/-!
# The executor

`rmg-executor.c`: what is done with an event taken from the executor queue.  Actions on the own services go to the
service manager; restarts and factory resets are carried out by the primary and requested from it by a replica, after
which the daemon enters meditation.
-/

namespace RecoveryManager

open Fallible Fallible.Prog

/-! ### Command lines -/

/-- `g_strsplit (string, delimiter, max_tokens)`: at most `max` pieces; the last one is the unsplit rest.  `piece` is
the part of the current piece read so far. -/
def splitFrom (delimiter : List Char) : (piece string : List Char) → (skip max : Nat) → List (List Char)
  | piece, [], _, _ => [piece]
  | piece, _ :: rest, skip + 1, max => splitFrom delimiter piece rest skip max
  | piece, c :: rest, 0, max =>
    if 1 < max ∧ delimiter.isPrefixOf (c :: rest) then
      piece :: splitFrom delimiter [] rest (delimiter.length - 1) (max - 1)
    else splitFrom delimiter (piece ++ [c]) rest 0 max

def gStrsplit (string delimiter : List Char) (max : Nat) : List (List Char) :=
  if string = [] then [] else splitFrom delimiter [] string 0 max

/-- `g_strjoinv`; a null separator is the empty one. -/
def gStrjoinv (separator : Option String) (pieces : List (List Char)) : List Char :=
  List.intercalate ((separator.map String.toList).getD []) pieces

/-- `${path}` and `${service_name}` are replaced, at most twice each. -/
def resetCommand (resetCmd : String) (path serviceName : Option String) : List Char :=
  let withPath := gStrjoinv path (gStrsplit resetCmd.toList "$\x7bpath\x7d".toList 3)
  gStrjoinv serviceName (gStrsplit withPath "$\x7bservice_name\x7d".toList 3)

def shellCommand (cmd : List Char) : List Char := "sh -c \"".toList ++ cmd ++ ['"']

/-! ### Services -/

/-- `rmg_friendtimer_trigger` for each service that has the failed one as a friend; the delay is cast to `guint`. -/
def foreachServiceFriend (friend : RmgFriendResponseEntry) : Proc PUnit :=
  rmgFriendtimerTrigger friend.serviceName friend.action friend.argument (guint friend.delay)

def doProcessFriendCrashEvent (event : EventRef) (friendType : RmgFriendType) : Proc PUnit := do
  let e ← load event
  let targetName := if friendType = .process then e.processName else e.serviceName
  let (services, error) ← rmgJournalGetServicesForFriend targetName e.contextName friendType
  if error then pure ⟨⟩ else List.forM services foreachServiceFriend

def doProcessServiceRestartEvent (event : EventRef) : Proc PUnit := do
  let e ← load event
  output (.restartUnit e.serviceName)

/-- The reset of the data of a service: the command is run on the path, then the service is restarted. -/
def resetData (getPath : Option String → Proc (Option String × Bool)) (resetCmd : RmgOptions → String)
    (event : EventRef) : Proc PUnit := do
  let e ← load event
  let (resetPath, error) ← getPath e.serviceName
  if error then pure ⟨⟩
  else
    let options ← Prog.call .getOptions .ret
    output (.spawned (shellCommand (resetCommand (resetCmd options) resetPath e.serviceName)))
    doProcessServiceRestartEvent event

def doProcessServiceResetPublicDataEvent : EventRef → Proc PUnit :=
  resetData rmgJournalGetPublicDataPath RmgOptions.publicDataResetCmd

def doProcessServiceResetPrivateDataEvent : EventRef → Proc PUnit :=
  resetData rmgJournalGetPrivateDataPath RmgOptions.privateDataResetCmd

/-- The service remains disabled in this lifecycle: it is not restarted. -/
def doProcessServiceDisableEvent (_event : EventRef) : Proc PUnit := pure ⟨⟩

/-! ### Contexts and the platform -/

def enterMeditation (event : EventRef) : Proc PUnit := do
  let e ← load event
  output (.meditation e.serviceName)

/-- A replica asks the primary, in the name of its own context. -/
def requestPrimary (type : RmgMessageType) (event : EventRef) : Proc RmgStatus := do
  let e ← load event
  let msg ← rmgMessageSetServiceName (rmgMessageNew type e.cause) e.serviceName
  let hostName : String ← Prog.call .getHostName .ret
  let msg ← rmgMessageSetContextName msg (some hostName)
  rmgManagerSend msg

def doProcessPlatformRestartEventPrimary (event : EventRef) : Proc PUnit := do
  let e ← load event
  let options ← Prog.call .getOptions .ret
  output (.platformRestart e.serviceName e.cause)
  output (.spawned (shellCommand options.platformRestartCmd.toList))

/-- A container without a recovery unit of its own is rebooted all the same. -/
def doProcessContextRestartEventPrimary (event : EventRef) : Proc PUnit := do
  let e ← load event
  let (_, error) ← rmgJournalGetHash (e.contextName.map (· ++ ".service"))
  if error then pure ⟨⟩ else output (.containerReboot e.contextName e.cause)

def doProcessContextRestartEventReplica (event : EventRef) : Proc PUnit := do
  match ← requestPrimary .requestContextRestart event with
  | .ok => enterMeditation event
  | .error => pure ⟨⟩

/-- On the primary an event without a context means the primary's own. -/
def contextRestartOnPrimary (event : EventRef) : Proc PUnit := do
  let e ← load event
  match e.contextName with
  | none => doProcessPlatformRestartEventPrimary event
  | some _ => doProcessContextRestartEventPrimary event

def doProcessContextRestartEvent (event : EventRef) : Proc PUnit :=
  onRunMode (contextRestartOnPrimary event) (doProcessContextRestartEventReplica event)

def doProcessPlatformRestartEventReplica (event : EventRef) : Proc PUnit := do
  let _ ← requestPrimary .requestPlatformRestart event

def doProcessPlatformRestartEvent (event : EventRef) : Proc PUnit := do
  onRunMode (doProcessPlatformRestartEventPrimary event) (doProcessPlatformRestartEventReplica event)
  enterMeditation event

def doProcessFactoryResetEventPrimary (event : EventRef) : Proc PUnit := do
  let e ← load event
  let options ← Prog.call .getOptions .ret
  output (.factoryReset e.serviceName e.cause)
  output (.spawned (shellCommand options.factoryResetCmd.toList))

def doProcessFactoryResetEventReplica (event : EventRef) : Proc PUnit := do
  let _ ← requestPrimary .requestFactoryReset event

def doProcessFactoryResetEvent (event : EventRef) : Proc PUnit := do
  onRunMode (doProcessFactoryResetEventPrimary event) (doProcessFactoryResetEventReplica event)
  enterMeditation event

/-! ### Taking an event from the queue -/

def executorSourceCallback (type : ExecutorEventType) (event : EventRef) : Proc PUnit :=
  match type with
  | .friendProcessCrash => doProcessFriendCrashEvent event .process
  | .friendServiceFailed => doProcessFriendCrashEvent event .service
  | .serviceRestart => doProcessServiceRestartEvent event
  | .serviceResetPublicData => doProcessServiceResetPublicDataEvent event
  | .serviceResetPrivateData => doProcessServiceResetPrivateDataEvent event
  | .serviceDisable => doProcessServiceDisableEvent event
  | .contextRestart => doProcessContextRestartEvent event
  | .platformRestart => doProcessPlatformRestartEvent event
  | .factoryReset => doProcessFactoryResetEvent event

end RecoveryManager
