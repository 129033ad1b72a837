import RecoveryManager.Timers

/-!
# The dispatcher

`rmg-dispatcher.c`: what is done with an event taken from the dispatcher queue.  A crash of a service increments its
rvector, selects the action of the new level and performs its arm of the switch; then the other instances are informed.
Executor events are queued with a reference to the event, which the dispatcher goes on writing to.
-/

namespace RecoveryManager

open Fallible Fallible.Prog

def load (event : EventRef) : Proc RmgDEvent := .call (.load event) .ret

def output (o : Output) : Proc PUnit := .call (.emit o) .ret

/-- A test of `g_run_mode`. -/
def onRunMode {α : Type} (primary replica : Proc α) : Proc α := do
  match ← Prog.call .getRunMode .ret with
  | .primary => primary
  | .replica => replica

/-- A call for each client of the primary's server. -/
def foreachClient (callback : RmgClient → Proc PUnit) : Proc PUnit := do
  let clients ← Prog.call .getClients .ret
  List.forM clients callback

/-! ### Messages (`rmg-message.c`) -/

def rmgMessageNew (type : RmgMessageType) (cause : Cause) : RmgMessage := ⟨type, none, none, none, cause⟩

def rmgMessageSetProcessName (msg : RmgMessage) (processName : Option String) : Proc RmgMessage := do
  let processName ← gAssertName processName
  pure { msg with processName := some processName }

def rmgMessageSetServiceName (msg : RmgMessage) (serviceName : Option String) : Proc RmgMessage := do
  let serviceName ← gAssertName serviceName
  pure { msg with serviceName := some serviceName }

def rmgMessageSetContextName (msg : RmgMessage) (contextName : Option String) : Proc RmgMessage := do
  let contextName ← gAssertName contextName
  pure { msg with contextName := some contextName }

def rmgClientSend (client : RmgClient) (msg : RmgMessage) : Proc RmgStatus := .call (.clientSend client.sockfd msg) .ret

def rmgManagerSend (msg : RmgMessage) : Proc RmgStatus := .call (.managerSend msg) .ret

/-! ### Failures of other instances -/

def rmgExecutorPushEvent (type : ExecutorEventType) (event : EventRef) : Proc PUnit :=
  .call (.pushExecutor type event) .ret

def foreachClientNotifyProcessCrash (event : EventRef) (client : RmgClient) : Proc PUnit := do
  let e ← load event
  let msg ← rmgMessageSetProcessName (rmgMessageNew .informProcessCrash e.cause) e.processName
  let msg ← rmgMessageSetContextName msg e.contextName
  let _ ← rmgClientSend client msg

/-- Only the primary hears of process crashes; it passes them on to every replica. -/
def doFriendProcessCrashEvent (event : EventRef) : Proc PUnit := do
  onRunMode (foreachClient (foreachClientNotifyProcessCrash event)) (pure ⟨⟩)
  rmgExecutorPushEvent .friendProcessCrash event

/-- A replica is informed only if it is not the event originator. -/
def foreachClientNotifyServiceFailed (event : EventRef) (client : RmgClient) : Proc PUnit := do
  let e ← load event
  if client.contextName ≠ e.contextName then
    let msg ← rmgMessageSetServiceName (rmgMessageNew .informClientServiceFailed e.cause) e.serviceName
    let msg ← rmgMessageSetContextName msg e.contextName
    let _ ← rmgClientSend client msg
  else pure ⟨⟩

def informPrimaryServiceFailed (event : EventRef) : Proc PUnit := do
  let e ← load event
  let msg ← rmgMessageSetServiceName (rmgMessageNew .informPrimaryServiceFailed e.cause) e.serviceName
  let msg ← rmgMessageSetContextName msg e.contextName
  let _ ← rmgManagerSend msg

/-- The failure of a service, whether of this instance or learnt from another. -/
def doFriendServiceFailedEvent (event : EventRef) : Proc PUnit := do
  onRunMode (foreachClient (foreachClientNotifyServiceFailed event)) (informPrimaryServiceFailed event)
  let hostName : String ← Prog.call .getHostName .ret
  let e ← load event
  if some hostName ≠ e.contextName then rmgExecutorPushEvent .friendServiceFailed event else pure ⟨⟩

/-! ### Crashes of the own services -/

def doRelaxtimerStart (event : EventRef) : Proc PUnit := do
  let e ← load event
  let _ ← rmgRelaxtimerTrigger e.serviceName

/-- The rvector goes back to zero; a failure is only logged. -/
def resetRvector (event : EventRef) : Proc PUnit := do
  let e ← load event
  let _ ← rmgJournalSetRvector e.serviceName 0

def resetRvectorIf (actionResetAfter : Bool) (event : EventRef) : Proc PUnit :=
  if actionResetAfter then resetRvector event else pure ⟨⟩

/-- The arms of the actions on the service itself: a reset-marked action resets, another one relaxes. -/
def pushThenRelax (type : ExecutorEventType) (event : EventRef) (actionResetAfter : Bool) : Proc PUnit := do
  rmgExecutorPushEvent type event
  if actionResetAfter then resetRvector event else doRelaxtimerStart event

/-- The arms of the restarts: a reset-marked action resets first, and no timer is started. -/
def resetThenPush (type : ExecutorEventType) (event : EventRef) (actionResetAfter : Bool) : Proc PUnit := do
  resetRvectorIf actionResetAfter event
  rmgExecutorPushEvent type event

/-- The switch over the action type.  `guruMeditation` has no arm of its own and goes the way of an invalid action. -/
def performAction (actionType : RmgActionType) (actionResetAfter : Bool) (event : EventRef) : Proc PUnit :=
  match actionType with
  | .serviceIgnore => resetRvector event
  | .serviceReset => pushThenRelax .serviceRestart event actionResetAfter
  | .publicDataReset => pushThenRelax .serviceResetPublicData event actionResetAfter
  | .privateDataReset => pushThenRelax .serviceResetPrivateData event actionResetAfter
  | .serviceDisable => pushThenRelax .serviceDisable event actionResetAfter
  | .contextReset => resetThenPush .contextRestart event actionResetAfter
  | .platformRestart => resetThenPush .platformRestart event actionResetAfter
  | .factoryReset => rmgExecutorPushEvent .factoryReset event
  | .invalid | .guruMeditation => pure ⟨⟩

def reportAction (actionType : RmgActionType) (rvector : Int) (e : RmgDEvent) : Proc PUnit :=
  if actionType ≠ .invalid then output (.actionRequired actionType e.serviceName rvector e.cause) else pure ⟨⟩

/-- The last lines of the handler: the own context is written into the event, and the others are informed. -/
def informServiceFailed (event : EventRef) : Proc PUnit := do
  let hostName : String ← Prog.call .getHostName .ret
  Prog.call (.setContextName event (some hostName)) .ret
  doFriendServiceFailedEvent event

/-- The handler from the selection of the action on. -/
def escalate (event : EventRef) (rvector : Int) : Proc PUnit := do
  let e ← load event
  let (actionType, error) ← rmgJournalGetServiceAction e.serviceName
  if error then pure ⟨⟩
  else
    let (actionResetAfter, _) ← rmgJournalGetServiceActionResetAfter e.serviceName
    reportAction actionType rvector e
    performAction actionType actionResetAfter event
    informServiceFailed event

def doProcessServiceCrashEvent (event : EventRef) : Proc PUnit := do
  let e ← load event
  let (serviceHash, error) ← rmgJournalGetHash e.serviceName
  if error then pure ⟨⟩
  else if serviceHash = 0 then output (.noRecoveryUnit e.serviceName e.cause)
  else
    let (rvector, error) ← rmgJournalGetRvector e.serviceName
    if error then pure ⟨⟩
    else
      match ← rmgJournalSetRvector e.serviceName (rvector + 1) with
      | .error => pure ⟨⟩
      | .ok => escalate event (rvector + 1)

/-! ### Taking an event from the queue -/

def dispatcherSourceCallback (event : EventRef) : Proc PUnit := do
  let e ← load event
  match e.type with
  | .informProcessCrash => doFriendProcessCrashEvent event
  | .informServiceFailed => doFriendServiceFailedEvent event
  | .serviceCrashed =>
    output (.crashDetected e.serviceName e.cause)
    doProcessServiceCrashEvent event
  | .remoteContextRestart => rmgExecutorPushEvent .contextRestart event
  | .remotePlatformRestart => rmgExecutorPushEvent .platformRestart event
  | .remoteFactoryReset => rmgExecutorPushEvent .factoryReset event
  | .serviceRestarted | .unknown => pure ⟨⟩

end RecoveryManager
