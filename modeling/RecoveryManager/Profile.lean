import RecoveryManager.Boot
import RecoveryManager.Lib.Budget

/-!
# What is done with an event

`dispatching event reach mode` lists the operations the dispatcher may perform while it works on `event`: it looks at
the event and at the tables, sets rvectors, queues the event for the executor, reports, and informs the other instances.
Among these operations is at most one that starts a timer, and it is a relax timer.  A primary sends only to clients
its server has listed, a replica only to the primary.

`carryingOut event mode` does so for the executor and the events that stand for an action: it looks at the event and at
the tables, acts on the system, and asks the primary on a replica.
-/

namespace RecoveryManager

open Fallible Fallible.Prog

/-- What the dispatcher reports about a crash. -/
def Output.isReport : Output → Bool
  | .crashDetected .. | .noRecoveryUnit .. | .actionRequired .. => true
  | _ => false

def Output.isDetection : Output → Bool
  | .crashDetected .. => true
  | _ => false

/-- Statements that read, or set an rvector. -/
def Sql.KeepsUnits (q : Sql) : Prop := q.isSelect ∨ ∃ s v, q = .updateRvector s v

/-- The sockets of the clients are in `reach`. -/
def Reached (reach : Nat → Prop) (clients : List RmgClient) : Prop := ∀ c ∈ clients, reach c.sockfd

/-- The executor events that end with a restart of the service. -/
def ExecutorEventType.restarts : ExecutorEventType → Bool
  | .serviceRestart | .serviceResetPublicData | .serviceResetPrivateData => true
  | _ => false

/-- The work of the dispatcher; the server lists only clients whose sockets are in `reach`.  A timer costs `timer`, what
leads to a restart `restart`, and the report of a crash `detection`. -/
def dispatching (event : EventRef) (reach : Nat → Prop) (mode : RmgRunMode) (timer restart detection : Nat) :
    Budget Op Op.Res where
  allowed
    | .sql q => q.KeepsUnits
    | .load event' | .setContextName event' _ => event' = event
    | .pushExecutor _ event' => event' = event
    | .timeoutAddSeconds _ data => ∃ t, data = .relax t
    | .clientSend sockfd _ => mode = .primary ∧ reach sockfd
    | .managerSend _ => mode = .replica
    | .emit o => o.isReport
    | .getRunMode | .getHostName | .getClients => True
    | .newEvent .. | .pushDispatcher _ | .getOptions | .getManagerProxy | .setClientName .. => False
  promised
    | .getRunMode, runMode => runMode = mode
    | .getClients, clients => Reached reach clients
    | _, _ => True
  cost
    | .timeoutAddSeconds .. => timer
    | .pushExecutor type _ => if type.restarts then restart else 0
    | .emit o => if o.isDetection then detection else 0
    | _ => 0

section within
variable {event : EventRef} {reach : Nat → Prop} {mode : RmgRunMode} {timer restart detection : Nat}

private theorem within_sql {q : Sql} (h : q.KeepsUnits) :
    (sqliteExec q).Within (dispatching event reach mode timer restart detection) 0 :=
  ⟨h, Nat.le_refl 0, fun _ _ => trivial⟩

private theorem within_name (name : Option String) :
    (gAssertName name).Within (dispatching event reach mode timer restart detection) 0 := by
  cases name <;> trivial

private theorem within_load : (load event).Within (dispatching event reach mode timer restart detection) 0 :=
  ⟨rfl, Nat.le_refl 0, fun _ _ => trivial⟩

private theorem within_output {o : Output} (h : o.isReport) :
    (output o).Within (dispatching event reach mode timer restart detection) (if o.isDetection then detection else 0) :=
  ⟨h, Nat.le_refl _, fun _ _ => trivial⟩

private theorem within_service {α : Type} (service : Option String) (response : α) (column : ServiceRow → α) :
    (getServiceColumn service response column).Within (dispatching event reach mode timer restart detection) 0 :=
  (within_name service).free_bind fun _ => (within_sql (.inl rfl)).free_bind fun r => by cases r <;> exact within_pure _

private theorem within_action {α : Type} (service : Option String) (response : α) (column : ActionRow → α) :
    (getActionColumn service response column).Within (dispatching event reach mode timer restart detection) 0 :=
  (within_name service).free_bind fun _ => (within_service _ _ _).free_bind fun _ =>
    (within_sql (.inl rfl)).free_bind fun r => by cases r <;> exact within_pure _

private theorem within_setRvector (service : Option String) (v : Int) :
    (rmgJournalSetRvector service v).Within (dispatching event reach mode timer restart detection) 0 :=
  (within_name service).free_bind fun s => (within_sql (.inr ⟨s, v, rfl⟩)).free_bind fun r => by
    cases r <;> exact within_pure _

private theorem within_relax (service : Option String) :
    (rmgRelaxtimerTrigger service).Within (dispatching event reach mode timer restart detection) timer := by
  refine (within_name service).free_bind fun name => (within_service _ _ _).free_bind fun r => ?_
  dsimp only
  split
  · exact within_pure _
  · refine (within_service _ _ _).free_bind fun r' => ?_
    split
    · exact within_pure _
    · exact ⟨⟨_, rfl⟩, Nat.le_refl timer, fun _ _ => within_pure _⟩

/-! ### The other instances -/

private theorem within_process (msg : RmgMessage) (name : Option String) :
    (rmgMessageSetProcessName msg name).Within (dispatching event reach mode timer restart detection) 0 :=
  (within_name name).free_bind fun _ => within_pure _

private theorem within_serviceName (msg : RmgMessage) (name : Option String) :
    (rmgMessageSetServiceName msg name).Within (dispatching event reach mode timer restart detection) 0 :=
  (within_name name).free_bind fun _ => within_pure _

private theorem within_context (msg : RmgMessage) (name : Option String) :
    (rmgMessageSetContextName msg name).Within (dispatching event reach mode timer restart detection) 0 :=
  (within_name name).free_bind fun _ => within_pure _

private theorem within_onRunMode {primary replica : Proc PUnit}
    (hp : mode = .primary → primary.Within (dispatching event reach mode timer restart detection) 0)
    (hr : mode = .replica → replica.Within (dispatching event reach mode timer restart detection) 0) :
    (onRunMode primary replica).Within (dispatching event reach mode timer restart detection) 0 := by
  refine ⟨trivial, Nat.le_refl 0, fun r (hmode : r = mode) => ?_⟩
  cases r with
  | primary => exact hp hmode.symm
  | replica => exact hr hmode.symm

/-- A client the server has listed may be sent to. -/
private theorem within_foreachClient {callback : RmgClient → Proc PUnit}
    (h : ∀ c, reach c.sockfd → (callback c).Within (dispatching event reach mode timer restart detection) 0) :
    (foreachClient callback).Within (dispatching event reach mode timer restart detection) 0 := by
  refine ⟨trivial, Nat.le_refl 0, fun clients hclients => ?_⟩
  have hclients : Reached reach clients := hclients
  have hloop := Within.forM fun c hc => h c (hclients c hc)
  rwa [Nat.mul_zero] at hloop

private theorem within_notifyProcessCrash (hm : mode = .primary) (client : RmgClient) (h : reach client.sockfd) :
    (foreachClientNotifyProcessCrash event client).Within (dispatching event reach mode timer restart detection) 0 :=
  within_load.free_bind fun _ => (within_process _ _).free_bind fun _ => (within_context _ _).free_bind fun _ =>
    ⟨⟨hm, h⟩, Nat.le_refl 0, fun _ _ => within_pure _⟩

private theorem within_notifyServiceFailed (hm : mode = .primary) (client : RmgClient) (h : reach client.sockfd) :
    (foreachClientNotifyServiceFailed event client).Within
      (dispatching event reach mode timer restart detection) 0 := by
  refine within_load.free_bind fun e => ?_
  show Within _ 0 (if _ then _ else _)
  split
  · exact (within_serviceName _ _).free_bind fun _ => (within_context _ _).free_bind fun _ =>
      ⟨⟨hm, h⟩, Nat.le_refl 0, fun _ _ => within_pure _⟩
  · exact within_pure _

private theorem within_informPrimary (hm : mode = .replica) :
    (informPrimaryServiceFailed event).Within (dispatching event reach mode timer restart detection) 0 :=
  within_load.free_bind fun _ => (within_serviceName _ _).free_bind fun _ => (within_context _ _).free_bind fun _ =>
    ⟨hm, Nat.le_refl 0, fun _ _ => within_pure _⟩

theorem within_push {type : ExecutorEventType} (h : type.restarts = false) :
    (rmgExecutorPushEvent type event).Within (dispatching event reach mode timer restart detection) 0 := by
  refine ⟨rfl, Nat.le_of_eq ?_, fun _ _ => within_pure _⟩
  show (if type.restarts then restart else 0) = 0
  rw [h]
  rfl

private theorem within_push_restart (type : ExecutorEventType) :
    (rmgExecutorPushEvent type event).Within (dispatching event reach mode timer restart detection) restart := by
  refine ⟨rfl, ?_, fun _ _ => within_pure _⟩
  show (if type.restarts then restart else 0) ≤ restart
  split
  · exact Nat.le_refl _
  · exact Nat.zero_le _

theorem within_doFriendProcessCrashEvent :
    (doFriendProcessCrashEvent event).Within (dispatching event reach mode timer restart detection) 0 :=
  (within_onRunMode (fun hm => within_foreachClient (within_notifyProcessCrash hm)) fun _ =>
    within_pure _).free_bind fun _ => within_push rfl

theorem within_doFriendServiceFailedEvent :
    (doFriendServiceFailedEvent event).Within (dispatching event reach mode timer restart detection) 0 := by
  refine (within_onRunMode (fun hm => within_foreachClient (within_notifyServiceFailed hm))
    within_informPrimary).free_bind fun _ => ?_
  refine ⟨trivial, Nat.le_refl 0, fun hostName _ => within_load.free_bind fun e => ?_⟩
  show Within _ 0 (if _ then _ else _)
  split
  · exact within_push rfl
  · exact within_pure _

private theorem within_informServiceFailed :
    (informServiceFailed event).Within (dispatching event reach mode timer restart detection) 0 :=
  ⟨trivial, Nat.le_refl 0, fun _ _ => ⟨rfl, Nat.le_refl 0, fun _ _ => within_doFriendServiceFailedEvent⟩⟩

/-! ### Crashes of the own services -/

private theorem within_resetRvector :
    (resetRvector event).Within (dispatching event reach mode timer restart detection) 0 :=
  within_load.free_bind fun _ => (within_setRvector _ _).free_bind fun _ => within_pure _

private theorem within_pushThenRelax (type : ExecutorEventType) (reset : Bool) :
    (pushThenRelax type event reset).Within (dispatching event reach mode timer restart detection)
      (restart + timer) := by
  refine (within_push_restart type).bind fun _ => ?_
  cases reset with
  | true => exact within_resetRvector.mono (Nat.zero_le _)
  | false => exact within_load.free_bind fun _ => (within_relax _).bind fun _ => within_pure (n := 0) _

private theorem within_resetThenPush {type : ExecutorEventType} (h : type.restarts = false) (reset : Bool) :
    (resetThenPush type event reset).Within (dispatching event reach mode timer restart detection) 0 := by
  refine Within.free_bind ?_ fun _ => within_push h
  cases reset with
  | true => exact within_resetRvector
  | false => exact within_pure _

private theorem within_performAction (type : RmgActionType) (reset : Bool) :
    (performAction type reset event).Within (dispatching event reach mode timer restart detection)
      (restart + timer) := by
  cases type with
  | serviceIgnore => exact within_resetRvector.mono (Nat.zero_le _)
  | serviceReset | publicDataReset | privateDataReset | serviceDisable => exact within_pushThenRelax _ reset
  | contextReset | platformRestart => exact (within_resetThenPush rfl reset).mono (Nat.zero_le _)
  | factoryReset => exact (within_push rfl).mono (Nat.zero_le _)
  | invalid | guruMeditation => exact within_pure _

private theorem within_escalate (rvector : Int) :
    (escalate event rvector).Within (dispatching event reach mode timer restart detection) (restart + timer) := by
  refine within_load.free_bind fun d => (within_action _ _ _).free_bind fun r => ?_
  dsimp only
  split
  · exact within_pure _
  · refine (within_action _ _ _).free_bind fun r' => Within.free_bind ?_ fun _ =>
      (within_performAction _ _).bind fun _ => within_informServiceFailed
    unfold reportAction
    split
    · exact within_output rfl
    · exact within_pure _

theorem within_doProcessServiceCrashEvent :
    (doProcessServiceCrashEvent event).Within (dispatching event reach mode timer restart detection)
      (restart + timer) := by
  refine within_load.free_bind fun d => (within_service _ _ _).free_bind fun r => ?_
  dsimp only
  split
  · exact within_pure _
  split
  · exact (within_output rfl).mono (Nat.zero_le _)
  refine (within_service _ _ _).free_bind fun r => ?_
  split
  · exact within_pure _
  refine (within_setRvector _ _).free_bind fun st => ?_
  cases st with
  | ok => exact within_escalate _
  | error => exact within_pure _

/-- The work on an event reports at most one crash, leads to at most one restart and starts at most one timer. -/
theorem within_dispatcherSourceCallback (event : EventRef) (reach : Nat → Prop) (mode : RmgRunMode)
    (timer restart detection : Nat) :
    (dispatcherSourceCallback event).Within (dispatching event reach mode timer restart detection)
      (detection + (restart + timer)) := by
  refine within_load.free_bind fun e => ?_
  cases e.type with
  | informProcessCrash => exact within_doFriendProcessCrashEvent.mono (Nat.zero_le _)
  | informServiceFailed => exact within_doFriendServiceFailedEvent.mono (Nat.zero_le _)
  | serviceCrashed => exact (within_output rfl).bind fun _ => within_doProcessServiceCrashEvent
  | remoteContextRestart | remotePlatformRestart | remoteFactoryReset =>
    exact (within_push rfl).mono (Nat.zero_le _)
  | serviceRestarted | unknown => exact within_pure _

end within

/-! ### The executor -/

/-- The work of the executor on an event that stands for an action; `known` is what is known of the event.  A restart
costs `restart`, and is that of the service of the event. -/
def carryingOut (event : EventRef) (known : RmgDEvent → Prop) (mode : RmgRunMode) (restart : Nat) :
    Budget Op Op.Res where
  allowed
    | .sql q => q.isSelect
    | .load event' => event' = event
    | .managerSend _ => mode = .replica
    | .emit o => o.isEffect ∧ ∀ service, o = .restartUnit service → ∃ d, known d ∧ service = d.serviceName
    | .getRunMode | .getHostName | .getOptions => True
    | _ => False
  promised
    | .getRunMode, runMode => runMode = mode
    | .load _, d => known d
    | _, _ => True
  cost
    | .emit (.restartUnit _) => restart
    | _ => 0

section within
variable {event : EventRef} {known : RmgDEvent → Prop} {mode : RmgRunMode} {restart n : Nat}

/-- Reading the event is free, and what is read is known. -/
private theorem carriesOut_load {k : RmgDEvent → Proc PUnit}
    (h : ∀ d, known d → (k d).Within (carryingOut event known mode restart) n) :
    (load event >>= k).Within (carryingOut event known mode restart) n :=
  ⟨rfl, Nat.zero_le n, h⟩

private theorem carriesOut_output {o : Output} (h : o.isEffect) (hr : ∀ service, o ≠ .restartUnit service) :
    (output o).Within (carryingOut event known mode restart) 0 := by
  refine ⟨⟨h, fun service ho => (hr service ho).elim⟩, ?_, fun _ _ => trivial⟩
  cases o with
  | restartUnit service => exact (hr service rfl).elim
  | _ => exact Nat.le_refl 0

private theorem carriesOut_name (name : Option String) :
    (gAssertName name).Within (carryingOut event known mode restart) 0 := by
  cases name <;> trivial

private theorem carriesOut_service {α : Type} (service : Option String) (response : α) (column : ServiceRow → α) :
    (getServiceColumn service response column).Within (carryingOut event known mode restart) 0 :=
  (carriesOut_name service).free_bind fun _ => Within.free_bind ⟨rfl, Nat.le_refl 0, fun _ _ => trivial⟩ fun r => by
    cases r <;> exact within_pure _

private theorem carriesOut_options {k : RmgOptions → Proc PUnit}
    (h : ∀ options, (k options).Within (carryingOut event known mode restart) n) :
    (Prog.call .getOptions k : Proc PUnit).Within (carryingOut event known mode restart) n :=
  ⟨trivial, Nat.zero_le n, fun options _ => h options⟩

private theorem carriesOut_restart :
    (doProcessServiceRestartEvent event).Within (carryingOut event known mode restart) restart :=
  carriesOut_load fun d hd => ⟨⟨rfl, fun _ ho => ⟨d, hd, by cases ho; rfl⟩⟩, Nat.le_refl restart, fun _ _ => trivial⟩

private theorem carriesOut_resetData {getPath : Option String → Proc (Option String × Bool)}
    (h : ∀ s, (getPath s).Within (carryingOut event known mode restart) 0) (resetCmd : RmgOptions → String) :
    (resetData getPath resetCmd event).Within (carryingOut event known mode restart) restart := by
  refine carriesOut_load fun d _ => (h _).free_bind fun r => ?_
  dsimp only
  split
  · exact within_pure _
  · exact carriesOut_options fun _ => (carriesOut_output rfl (by simp)).free_bind fun _ => carriesOut_restart

private theorem carriesOut_meditation : (enterMeditation event).Within (carryingOut event known mode restart) 0 :=
  carriesOut_load fun _ _ => carriesOut_output rfl (by simp)

private theorem carriesOut_request (hm : mode = .replica) (type : RmgMessageType) :
    (requestPrimary type event).Within (carryingOut event known mode restart) 0 := by
  have hservice : ∀ msg name,
      (rmgMessageSetServiceName msg name).Within (carryingOut event known mode restart) 0 := fun _ name =>
    (carriesOut_name name).free_bind fun _ => within_pure _
  have hcontext : ∀ msg name,
      (rmgMessageSetContextName msg name).Within (carryingOut event known mode restart) 0 := fun _ name =>
    (carriesOut_name name).free_bind fun _ => within_pure _
  exact ⟨rfl, Nat.le_refl 0, fun _ _ => (hservice _ _).free_bind fun _ => ⟨trivial, Nat.le_refl 0, fun _ _ =>
    (hcontext _ _).free_bind fun _ => ⟨hm, Nat.le_refl 0, fun _ _ => within_pure _⟩⟩⟩

private theorem carriesOut_platform :
    (doProcessPlatformRestartEventPrimary event).Within (carryingOut event known mode restart) 0 :=
  carriesOut_load fun _ _ => carriesOut_options fun _ =>
    (carriesOut_output rfl (by simp)).free_bind fun _ => carriesOut_output rfl (by simp)

private theorem carriesOut_factory :
    (doProcessFactoryResetEventPrimary event).Within (carryingOut event known mode restart) 0 :=
  carriesOut_load fun _ _ => carriesOut_options fun _ =>
    (carriesOut_output rfl (by simp)).free_bind fun _ => carriesOut_output rfl (by simp)

private theorem carriesOut_context :
    (contextRestartOnPrimary event).Within (carryingOut event known mode restart) 0 := by
  refine carriesOut_load fun e _ => ?_
  cases e.contextName with
  | none => exact carriesOut_platform
  | some c =>
    refine carriesOut_load fun _ _ => (carriesOut_service _ _ _).free_bind fun r => ?_
    dsimp only
    split
    · exact within_pure _
    · exact carriesOut_output rfl (by simp)

private theorem carriesOut_context_replica (hm : mode = .replica) :
    (doProcessContextRestartEventReplica event).Within (carryingOut event known mode restart) 0 := by
  refine (carriesOut_request hm _).free_bind fun st => ?_
  cases st with
  | ok => exact carriesOut_meditation
  | error => exact within_pure _

private theorem carriesOut_onRunMode {primary replica : Proc PUnit}
    (hp : primary.Within (carryingOut event known mode restart) 0)
    (hr : mode = .replica → replica.Within (carryingOut event known mode restart) 0) :
    (onRunMode primary replica).Within (carryingOut event known mode restart) 0 := by
  refine ⟨trivial, Nat.le_refl 0, fun r (hmode : r = mode) => ?_⟩
  cases r with
  | primary => exact hp
  | replica => exact hr hmode.symm

/-- All executor events but those about friends are carried out at once, and an event restarts at most one service. -/
theorem within_executorSourceCallback {type : ExecutorEventType} (h : type.isRecovery) (event : EventRef)
    (known : RmgDEvent → Prop) (mode : RmgRunMode) (restart : Nat) :
    (executorSourceCallback type event).Within (carryingOut event known mode restart)
      (if type.restarts then restart else 0) := by
  have hrequest : ∀ t, mode = .replica →
      (do let _ ← requestPrimary t event : Proc PUnit).Within (carryingOut event known mode restart) 0 := fun t hm =>
    (carriesOut_request hm t).free_bind fun _ => within_pure _
  cases type with
  | friendProcessCrash | friendServiceFailed => cases h
  | serviceRestart => exact carriesOut_restart
  | serviceResetPublicData => exact carriesOut_resetData (fun s => carriesOut_service s _ _) _
  | serviceResetPrivateData => exact carriesOut_resetData (fun s => carriesOut_service s _ _) _
  | serviceDisable => exact within_pure _
  | contextRestart => exact carriesOut_onRunMode carriesOut_context carriesOut_context_replica
  | platformRestart =>
    exact (carriesOut_onRunMode carriesOut_platform (hrequest _)).free_bind fun _ => carriesOut_meditation
  | factoryReset =>
    exact (carriesOut_onRunMode carriesOut_factory (hrequest _)).free_bind fun _ => carriesOut_meditation

end within

/-! ### Friends, timers and the boot -/

/-- The operations of the work on the friends of what failed, of the timers and of the boot: they read no event but
those of `held`. -/
def Op.Attending (held : List EventRef) : Op → Prop
  | .load event => event ∈ held
  | .sql _ | .timeoutAddSeconds .. | .getHostName | .getManagerProxy => True
  | .emit o => ∃ t, o = .friendAction t
  | _ => False

section calls
variable {held : List EventRef}

private theorem calls_sql {q : Sql} : (sqliteExec q).Calls (Op.Attending held) := ⟨trivial, fun _ => trivial⟩

private theorem calls_service {α : Type} (service : Option String) (response : α) (column : ServiceRow → α) :
    (getServiceColumn service response column).Calls (Op.Attending held) :=
  (calls_gAssertName service).bind fun _ => calls_sql.bind fun r => by cases r <;> trivial

private theorem calls_relax (service : Option String) : (rmgRelaxtimerTrigger service).Calls (Op.Attending held) := by
  refine (calls_gAssertName service).bind fun name => (calls_service _ _ _).bind fun r => ?_
  dsimp only
  split
  · trivial
  · refine (calls_service _ _ _).bind fun r' => ?_
    split
    · trivial
    · exact ⟨trivial, fun _ => trivial⟩

theorem calls_friend_attending (event : EventRef) (type : RmgFriendType) :
    (doProcessFriendCrashEvent event type).Calls (Op.Attending [event]) := by
  refine Calls.bind ⟨List.mem_singleton_self event, fun _ => trivial⟩ fun e => Calls.bind ?_ fun r => ?_
  · refine (calls_gAssertName _).bind fun _ => (calls_gAssertName _).bind fun _ => calls_sql.bind fun r => ?_
    cases r <;> trivial
  · dsimp only
    split
    · trivial
    · exact .forM fun _ _ => ⟨trivial, fun _ => trivial⟩

theorem calls_timer_attending (data : TimerData) : (timerCallback data).Calls (Op.Attending []) := by
  cases data with
  | friend t =>
    obtain ⟨service, action, argument⟩ := t
    cases action with
    | unknown | invalid => exact ⟨trivial, fun _ => trivial⟩
    | start | stop | restart | signal =>
      refine ⟨trivial, fun proxy => ?_⟩
      cases proxy with
      | false => trivial
      | true => exact ⟨⟨_, rfl⟩, fun _ => trivial⟩
  | relax t =>
    refine (calls_service _ _ _).bind fun r => ?_
    dsimp only
    split
    · trivial
    · split
      · exact Calls.bind ((calls_gAssertName _).bind fun _ => calls_sql.bind fun r => by cases r <;> trivial) fun _ =>
          trivial
      · trivial

theorem calls_boot_attending (glib : GLib) (gdir : Option (List UnitFile)) :
    (boot glib gdir).Calls (Op.Attending []) := by
  refine Calls.bind ((calls_rmgJournalReloadUnits glib gdir).mono fun op h => ?_) fun _ =>
    Calls.bind ?_ fun _ => trivial
  · cases op with
    | sql | getHostName => trivial
    | _ => exact h.elim
  · refine calls_sql.bind fun r => ?_
    cases r with
    | none => trivial
    | some rows => exact Calls.bind (.forM fun r _ => (calls_relax _).bind fun _ => trivial) fun _ => trivial

end calls

end RecoveryManager
