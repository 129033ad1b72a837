import RecoveryManager.Dispatcher

/-!
# Messages from the other instances

The two `process_message` functions: `rmg-client.c` on the primary, for a message from the replica behind a socket,
and `rmg-manager.c` on a replica, for a message from the primary.  A message becomes a dispatcher event.
-/

namespace RecoveryManager

open Fallible Fallible.Prog

def rmgDispatcherPushServiceEvent (event : EventRef) : Proc PUnit := .call (.pushDispatcher event) .ret

/-- The arms that turn a message about a service into an event. -/
def pushServiceEvent (type : DispatcherEventType) (msg : RmgMessage) : Proc PUnit := do
  let event ← Prog.call (.newEvent ⟨type, msg.serviceName, none, msg.contextName, msg.cause⟩ (some msg.cause)) .ret
  output (.received msg event)
  rmgDispatcherPushServiceEvent event

/-- The arm that turns a message about a process into an event. -/
def pushProcessEvent (type : DispatcherEventType) (msg : RmgMessage) : Proc PUnit := do
  let event ← Prog.call (.newEvent ⟨type, none, msg.processName, msg.contextName, msg.cause⟩ (some msg.cause)) .ret
  output (.received msg event)
  rmgDispatcherPushServiceEvent event

/-- `process_message` of `rmg-client.c`.  A platform restart request becomes a context restart event. -/
def clientProcessMessage (sockfd : Nat) (msg : RmgMessage) : Proc PUnit :=
  match msg.type with
  | .replicaDescriptor => Prog.call (.setClientName sockfd msg.contextName) .ret
  | .requestContextRestart => pushServiceEvent .remoteContextRestart msg
  | .requestPlatformRestart => pushServiceEvent .remoteContextRestart msg
  | .requestFactoryReset => pushServiceEvent .remoteFactoryReset msg
  | .informPrimaryServiceFailed => pushServiceEvent .informServiceFailed msg
  | _ => pure ⟨⟩

/-- `process_message` of `rmg-manager.c`. -/
def managerProcessMessage (msg : RmgMessage) : Proc PUnit :=
  match msg.type with
  | .informProcessCrash => pushProcessEvent .informProcessCrash msg
  | .informClientServiceFailed => pushServiceEvent .informServiceFailed msg
  | _ => pure ⟨⟩

end RecoveryManager
