import RecoveryManager.MainLoop
import RecoveryManager.Statements

/-!
# What leaves the escalation of services alone

An operation is quiet when it writes no table, starts no relax timer, queues no recovery event and reports nothing
about a crash (`Op.Quiet`).  Every callback but the crash handler, a relax timer, a remote request and the boot
performs only quiet operations (`calls_` lemmas).

`Instance.recovery s` is what there is to see of the escalation of `s`.  Operations that do not concern `s` leave it as
it is (`recovery_of_calls`).
-/

namespace RecoveryManager

open Fallible Fallible.Prog

/-! ### Kinds of operations -/

/-- The executor events that carry out a recovery action. -/
def ExecutorEventType.isRecovery : ExecutorEventType → Bool
  | .friendProcessCrash | .friendServiceFailed => false
  | _ => true

/-- The service whose escalation an entry of the trace is about. -/
def Output.subject : Output → Option String
  | .statement q => q.target
  | .crashDetected service _ => service
  | .noRecoveryUnit service _ => service
  | .actionRequired _ service _ _ => service
  | .pushed type e => if type.isRecovery ∧ e.type = .serviceCrashed then e.serviceName else none
  | .timeoutAdded ⟨_, _, .relax t⟩ => some t.serviceName
  | .timeoutExpired ⟨_, _, .relax t⟩ => some t.serviceName
  | _ => none

/-- What an instance does to the system it runs on. -/
def Output.isEffect : Output → Bool
  | .containerReboot .. | .platformRestart .. | .factoryReset .. | .restartUnit _ | .friendAction _ | .spawned _
  | .meditation _ => true
  | _ => false

/-- The outputs of callbacks that are not about escalation. -/
def Output.quiet (o : Output) : Bool :=
  match o with
  | .received .. => true
  | _ => o.isEffect

def Op.Quiet : Op → Prop
  | .sql q => q.isSelect
  | .pushExecutor type _ => type.isRecovery = false
  | .timeoutAddSeconds _ (.relax _) => False
  | .emit o => o.quiet
  | _ => True

/-- Operations that write no table. -/
def Op.NoWrite : Op → Prop
  | .sql q => q.isSelect
  | _ => True

/-- Operations that keep away from events, queues and the other instances. -/
def Op.Aside : Op → Prop
  | .sql _ | .load _ | .timeoutAddSeconds .. | .getRunMode | .getHostName | .getOptions | .getManagerProxy
  | .getClients => True
  | .emit o => o.isEffect
  | _ => False

/-- The operations by which other instances are informed, and the executor is by an event of its own. -/
def Op.Informs (type : ExecutorEventType) (event : EventRef) : Op → Prop
  | .load _ | .getRunMode | .getHostName | .getClients | .clientSend .. | .managerSend _ => True
  | .pushExecutor type' event' => type' = type ∧ event' = event
  | _ => False

/-- The operations of the executor that concern no other instance. -/
def Op.Acts (op : Op) : Prop := op.Quiet ∧ op.Aside

/-- The operations of the executor. -/
def Op.Executes (op : Op) : Prop := op.Acts ∨ ∃ msg, op = .managerSend msg

/-- The operations by which a relax timer is started. -/
def Op.Relaxes (op : Op) : Prop := op.NoWrite ∧ op.Aside

namespace Op

variable {op : Op}

theorem Quiet.noWrite (h : op.Quiet) : op.NoWrite := by
  cases op with
  | sql q => exact h
  | _ => trivial

theorem Informs.quiet {type : ExecutorEventType} {event : EventRef} (h : op.Informs type event)
    (ht : type.isRecovery = false) : op.Quiet := by
  cases op with
  | pushExecutor type' event' =>
    obtain ⟨rfl, -⟩ := h
    exact ht
  | sql q => exact h.elim
  | timeoutAddSeconds seconds data => exact h.elim
  | emit o => exact h.elim
  | _ => trivial

theorem Executes.quiet (h : op.Executes) : op.Quiet := by
  rcases h with h | ⟨msg, rfl⟩
  · exact h.1
  · trivial

theorem Acts.executes (h : op.Acts) : op.Executes := .inl h

theorem Acts.relaxes (h : op.Acts) : op.Relaxes := ⟨h.1.noWrite, h.2⟩

end Op

section calls

theorem calls_gAssertName {K : Op → Prop} (name : Option String) : (gAssertName name).Calls K := by
  cases name <;> trivial

theorem calls_sqliteExec {q : Sql} (h : q.isSelect) : (sqliteExec q).Calls Op.Acts := ⟨⟨h, trivial⟩, fun _ => trivial⟩

theorem calls_load (event : EventRef) : (load event).Calls Op.Acts := ⟨⟨trivial, trivial⟩, fun _ => trivial⟩

private theorem calls_output {o : Output} (h : o.isEffect) : (output o).Calls Op.Acts := by
  refine ⟨⟨?_, h⟩, fun _ => trivial⟩
  show o.quiet = true
  unfold Output.quiet
  split
  · rfl
  · exact h

theorem calls_getServiceColumn {α : Type} (service : Option String) (response : α) (column : ServiceRow → α) :
    (getServiceColumn service response column).Calls Op.Acts :=
  (calls_gAssertName service).bind fun _ => (calls_sqliteExec rfl).bind fun r => by cases r <;> trivial

theorem calls_getActionColumn {α : Type} (service : Option String) (response : α) (column : ActionRow → α) :
    (getActionColumn service response column).Calls Op.Acts :=
  (calls_gAssertName service).bind fun _ => (calls_getServiceColumn _ _ _).bind fun _ =>
    (calls_sqliteExec rfl).bind fun r => by cases r <;> trivial

private theorem calls_setProcessName {K : Op → Prop} (msg : RmgMessage) (name : Option String) :
    (rmgMessageSetProcessName msg name).Calls K :=
  (calls_gAssertName name).bind fun _ => calls_pure _

private theorem calls_setServiceName {K : Op → Prop} (msg : RmgMessage) (name : Option String) :
    (rmgMessageSetServiceName msg name).Calls K :=
  (calls_gAssertName name).bind fun _ => calls_pure _

private theorem calls_setContextName {K : Op → Prop} (msg : RmgMessage) (name : Option String) :
    (rmgMessageSetContextName msg name).Calls K :=
  (calls_gAssertName name).bind fun _ => calls_pure _

/-! ### The dispatcher -/

section dispatcher
variable {type : ExecutorEventType} {event : EventRef}

private theorem calls_foreachClient {callback : RmgClient → Proc PUnit}
    (h : ∀ c, (callback c).Calls (Op.Informs type event)) : (foreachClient callback).Calls (Op.Informs type event) :=
  ⟨trivial, fun _ => .forM fun c _ => h c⟩

private theorem calls_notifyProcessCrash (client : RmgClient) :
    (foreachClientNotifyProcessCrash event client).Calls (Op.Informs type event) :=
  ⟨trivial, fun _ => (calls_setProcessName _ _).bind fun _ => (calls_setContextName _ _).bind fun _ =>
    ⟨trivial, fun _ => trivial⟩⟩

theorem calls_doFriendProcessCrashEvent (event : EventRef) :
    (doFriendProcessCrashEvent event).Calls (Op.Informs .friendProcessCrash event) := by
  refine Calls.bind ⟨trivial, fun runMode => ?_⟩ fun _ => ⟨⟨rfl, rfl⟩, fun _ => trivial⟩
  cases runMode with
  | primary => exact calls_foreachClient calls_notifyProcessCrash
  | replica => trivial

private theorem calls_notifyServiceFailed (client : RmgClient) :
    (foreachClientNotifyServiceFailed event client).Calls (Op.Informs type event) := by
  refine ⟨trivial, fun e => ?_⟩
  show Calls _ (if _ then _ else _)
  split
  · exact (calls_setServiceName _ _).bind fun _ => (calls_setContextName _ _).bind fun _ => ⟨trivial, fun _ => trivial⟩
  · trivial

private theorem calls_informPrimary : (informPrimaryServiceFailed event).Calls (Op.Informs type event) :=
  ⟨trivial, fun _ => (calls_setServiceName _ _).bind fun _ => (calls_setContextName _ _).bind fun _ =>
    ⟨trivial, fun _ => trivial⟩⟩

theorem calls_doFriendServiceFailedEvent (event : EventRef) :
    (doFriendServiceFailedEvent event).Calls (Op.Informs .friendServiceFailed event) := by
  refine Calls.bind ⟨trivial, fun runMode => ?_⟩ fun _ => ⟨trivial, fun hostName => ⟨trivial, fun e => ?_⟩⟩
  · cases runMode with
    | primary => exact calls_foreachClient calls_notifyServiceFailed
    | replica => exact calls_informPrimary
  · show Calls _ (if _ then _ else _)
    split
    · exact ⟨⟨rfl, rfl⟩, fun _ => trivial⟩
    · trivial

theorem calls_informServiceFailed (event : EventRef) : (informServiceFailed event).Calls Op.Quiet :=
  ⟨trivial, fun _ => ⟨trivial, fun _ => (calls_doFriendServiceFailedEvent event).mono fun _ h => h.quiet rfl⟩⟩

end dispatcher

/-! ### The executor -/

theorem calls_friendtimerCallback (ftimer : RmgFriendTimer) : (friendtimerCallback ftimer).Calls Op.Acts := by
  obtain ⟨service, action, argument⟩ := ftimer
  cases action with
  | unknown | invalid => exact ⟨⟨trivial, trivial⟩, fun _ => trivial⟩
  | start | stop | restart | signal =>
    refine ⟨⟨trivial, trivial⟩, fun proxy => ?_⟩
    cases proxy with
    | false => trivial
    | true => exact calls_output rfl

theorem calls_doProcessFriendCrashEvent (event : EventRef) (type : RmgFriendType) :
    (doProcessFriendCrashEvent event type).Calls Op.Acts := by
  refine (calls_load event).bind fun e => Calls.bind ?_ fun r => ?_
  · refine (calls_gAssertName _).bind fun _ => (calls_gAssertName _).bind fun _ =>
      (calls_sqliteExec rfl).bind fun r => ?_
    cases r <;> trivial
  · dsimp only
    split
    · trivial
    · exact .forM fun _ _ => ⟨⟨trivial, trivial⟩, fun _ => trivial⟩

theorem calls_doProcessServiceRestartEvent (event : EventRef) :
    (doProcessServiceRestartEvent event).Calls Op.Acts :=
  (calls_load event).bind fun _ => calls_output rfl

theorem calls_resetData {getPath : Option String → Proc (Option String × Bool)}
    (h : ∀ s, (getPath s).Calls Op.Acts) (resetCmd : RmgOptions → String) (event : EventRef) :
    (resetData getPath resetCmd event).Calls Op.Acts := by
  refine (calls_load event).bind fun e => (h _).bind fun r => ?_
  dsimp only
  split
  · trivial
  · exact ⟨⟨trivial, trivial⟩, fun _ => (calls_output rfl).bind fun _ => calls_doProcessServiceRestartEvent event⟩

theorem calls_enterMeditation (event : EventRef) : (enterMeditation event).Calls Op.Acts :=
  (calls_load event).bind fun _ => calls_output rfl

private theorem calls_requestPrimary (type : RmgMessageType) (event : EventRef) :
    (requestPrimary type event).Calls Op.Executes :=
  ((calls_load event).mono fun _ => Op.Acts.executes).bind fun _ => (calls_setServiceName _ _).bind fun _ =>
    ⟨.inl ⟨trivial, trivial⟩, fun _ => (calls_setContextName _ _).bind fun _ => ⟨.inr ⟨_, rfl⟩, fun _ => trivial⟩⟩

theorem calls_doProcessPlatformRestartEventPrimary (event : EventRef) :
    (doProcessPlatformRestartEventPrimary event).Calls Op.Acts :=
  (calls_load event).bind fun _ => ⟨⟨trivial, trivial⟩, fun _ => (calls_output rfl).bind fun _ => calls_output rfl⟩

theorem calls_contextRestartOnPrimary (event : EventRef) :
    (contextRestartOnPrimary event).Calls Op.Acts := by
  refine (calls_load event).bind fun e => ?_
  cases e.contextName with
  | none => exact calls_doProcessPlatformRestartEventPrimary event
  | some c =>
    refine (calls_load event).bind fun _ => (calls_getServiceColumn _ _ _).bind fun r => ?_
    dsimp only
    split
    · trivial
    · exact calls_output rfl

private theorem calls_contextRestartReplica (event : EventRef) :
    (doProcessContextRestartEventReplica event).Calls Op.Executes := by
  refine (calls_requestPrimary _ event).bind fun st => ?_
  cases st with
  | ok => exact (calls_enterMeditation event).mono fun _ => Op.Acts.executes
  | error => trivial

theorem calls_doProcessFactoryResetEventPrimary (event : EventRef) :
    (doProcessFactoryResetEventPrimary event).Calls Op.Acts :=
  (calls_load event).bind fun _ => ⟨⟨trivial, trivial⟩, fun _ => (calls_output rfl).bind fun _ => calls_output rfl⟩

private theorem calls_onRunMode {primary replica : Proc PUnit} (hp : primary.Calls Op.Acts)
    (hr : replica.Calls Op.Executes) : (onRunMode primary replica).Calls Op.Executes := by
  refine ⟨.inl ⟨trivial, trivial⟩, fun r => ?_⟩
  cases r with
  | primary => exact hp.mono fun _ => Op.Acts.executes
  | replica => exact hr

/-- The events of the executor that a replica forwards. -/
def ExecutorEventType.isRequest : ExecutorEventType → Bool
  | .contextRestart | .platformRestart | .factoryReset => true
  | _ => false

/-- All other events are handled without the other instances. -/
theorem calls_executorSourceCallback_of_not_isRequest {type : ExecutorEventType} (h : type.isRequest = false)
    (event : EventRef) : (executorSourceCallback type event).Calls Op.Acts := by
  cases type with
  | friendProcessCrash => exact calls_doProcessFriendCrashEvent event _
  | friendServiceFailed => exact calls_doProcessFriendCrashEvent event _
  | serviceRestart => exact calls_doProcessServiceRestartEvent event
  | serviceResetPublicData => exact calls_resetData (fun s => calls_getServiceColumn s _ _) _ event
  | serviceResetPrivateData => exact calls_resetData (fun s => calls_getServiceColumn s _ _) _ event
  | serviceDisable => trivial
  | contextRestart | platformRestart | factoryReset => cases h

theorem calls_executorSourceCallback (type : ExecutorEventType) (event : EventRef) :
    (executorSourceCallback type event).Calls Op.Executes := by
  cases h : type.isRequest with
  | false => exact (calls_executorSourceCallback_of_not_isRequest h event).mono fun _ => Op.Acts.executes
  | true =>
    have hrequest : ∀ t, (do let _ ← requestPrimary t event : Proc PUnit).Calls Op.Executes := fun t =>
      (calls_requestPrimary t event).bind fun _ => calls_pure _
    have hmeditate := (calls_enterMeditation event).mono fun _ => Op.Acts.executes
    cases type with
    | contextRestart => exact calls_onRunMode (calls_contextRestartOnPrimary event) (calls_contextRestartReplica event)
    | platformRestart =>
      exact (calls_onRunMode (calls_doProcessPlatformRestartEventPrimary event) (hrequest _)).bind fun _ => hmeditate
    | factoryReset =>
      exact (calls_onRunMode (calls_doProcessFactoryResetEventPrimary event) (hrequest _)).bind fun _ => hmeditate
    | _ => cases h

/-! ### Timers -/

theorem calls_rmgRelaxtimerTrigger (service : Option String) : (rmgRelaxtimerTrigger service).Calls Op.Relaxes := by
  have hget : ∀ {α : Type} (response : α) (column : ServiceRow → α),
      (getServiceColumn service response column).Calls Op.Relaxes := fun response column =>
    (calls_getServiceColumn service response column).mono fun _ => Op.Acts.relaxes
  refine (calls_gAssertName service).bind fun name => (hget _ _).bind fun r => ?_
  dsimp only
  split
  · trivial
  · refine (hget _ _).bind fun r' => ?_
    split
    · trivial
    · exact ⟨⟨trivial, trivial⟩, fun _ => trivial⟩

theorem calls_monitorStartRelaxTimers : monitorStartRelaxTimers.Calls Op.Relaxes := by
  have hadd : ∀ s, (monitorAddRelaxTimer s).Calls Op.Relaxes := fun s =>
    (calls_rmgRelaxtimerTrigger (some s)).bind fun _ => calls_pure _
  refine Calls.bind (((calls_sqliteExec rfl).mono fun _ => Op.Acts.relaxes).bind fun r => ?_) fun _ => calls_pure _
  cases r with
  | none => exact calls_pure _
  | some rows => exact Calls.bind (.forM fun r _ => hadd r.name) fun _ => calls_pure _

theorem calls_rmgJournalSetRvector (service : Option String) (v : Int) :
    (rmgJournalSetRvector service v).Calls Op.Aside :=
  (calls_gAssertName service).bind fun _ => Calls.bind ⟨trivial, fun _ => trivial⟩ fun r => by cases r <;> trivial

theorem calls_timerCallback (data : TimerData) : (timerCallback data).Calls Op.Aside := by
  cases data with
  | friend t => exact (calls_friendtimerCallback t).mono fun _ h => h.2
  | relax t =>
    refine Calls.bind ((calls_getServiceColumn _ _ _).mono fun _ h => h.2) fun r => ?_
    dsimp only
    split
    · trivial
    · split
      · exact (calls_rmgJournalSetRvector _ _).bind fun _ => trivial
      · trivial

/-! ### Events and messages -/

theorem calls_pushMonitored (type : DispatcherEventType) (service : String) :
    (pushMonitored type service).Calls Op.Quiet :=
  ⟨trivial, fun _ => ⟨trivial, fun _ => trivial⟩⟩

theorem calls_pushNewCrash (process context : String) : (pushNewCrash process context).Calls Op.Quiet :=
  ⟨trivial, fun _ => ⟨trivial, fun _ => trivial⟩⟩

private theorem calls_pushServiceEvent (type : DispatcherEventType) (msg : RmgMessage) :
    (pushServiceEvent type msg).Calls Op.Quiet :=
  ⟨trivial, fun _ => ⟨rfl, fun _ => ⟨trivial, fun _ => trivial⟩⟩⟩

private theorem calls_pushProcessEvent (type : DispatcherEventType) (msg : RmgMessage) :
    (pushProcessEvent type msg).Calls Op.Quiet :=
  ⟨trivial, fun _ => ⟨rfl, fun _ => ⟨trivial, fun _ => trivial⟩⟩⟩

theorem calls_clientProcessMessage (sockfd : Nat) (msg : RmgMessage) :
    (clientProcessMessage sockfd msg).Calls Op.Quiet := by
  unfold clientProcessMessage
  split <;> first | exact calls_pushServiceEvent _ msg | exact ⟨trivial, fun _ => trivial⟩ | trivial

theorem calls_managerProcessMessage (msg : RmgMessage) : (managerProcessMessage msg).Calls Op.Quiet := by
  unfold managerProcessMessage
  split <;> first | exact calls_pushProcessEvent _ msg | exact calls_pushServiceEvent _ msg | trivial

end calls

/-! ### What quiet operations keep -/

/-- Operations that do not concern the escalation of one service. -/
def Op.QuietFor (s : String) : Op → Prop
  | .sql q => q.target ≠ some s
  | .pushExecutor type _ => type.isRecovery = false
  | .timeoutAddSeconds _ (.relax t) => t.serviceName ≠ s
  | .emit o => o.subject ≠ some s
  | _ => True

theorem Op.Quiet.quietFor {op : Op} (h : op.Quiet) (s : String) : op.QuietFor s := by
  cases op with
  | sql q =>
    have h : q.isSelect := h
    cases q <;> simp_all [Op.QuietFor, Sql.target, Sql.isSelect]
  | pushExecutor type event => exact h
  | timeoutAddSeconds seconds data =>
    cases data with
    | relax t => exact h.elim
    | friend t => trivial
  | emit o =>
    have h : o.quiet := h
    cases o <;> simp_all [Op.QuietFor, Output.subject, Output.quiet, Output.isEffect]
  | _ => trivial

/-- What there is to see of the escalation of one service: its rows, its pending relax timers, and what happened. -/
structure Recovery where
  view : View
  timers : List GSource
  history : List Output

def GSource.relaxes (s : String) (source : GSource) : Bool :=
  match source.data with
  | .relax t => t.serviceName = s
  | .friend _ => false

namespace Instance

def history (w : Instance) (s : String) : List Output := w.trace.filter (·.subject = some s)

def recovery (w : Instance) (s : String) : Recovery :=
  ⟨w.journal.view s, w.sources.filter (·.relaxes s), w.history s⟩

variable {w : Instance} {op : Op} {e : Bool} {s : String}

/-- What an instance is. -/
structure Identity where
  ident : Nat
  runMode : RmgRunMode
  hostName : String

def identity (w : Instance) : Identity := ⟨w.ident, w.runMode, w.hostName⟩

theorem apply_identity (op : Op) (e : Bool) (w : Instance) : (apply op e w).2.identity = w.identity := by
  cases op with
  | sql q =>
    rcases apply_sql w q e with h | ⟨j, -, h⟩
    · rw [h]
    · rw [h, commit]
      split <;> rfl
  | clientSend _ _ => cases e <;> rfl
  | managerSend _ => cases e <;> rfl
  | _ => rfl

theorem apply_hostName (op : Op) (e : Bool) (w : Instance) : (apply op e w).2.hostName = w.hostName :=
  congrArg Identity.hostName (apply_identity op e w)

/-- No callback changes it. -/
theorem FaultyStep.identity {glib : GLib} {l : Label} {w' : Instance} (h : FaultyStep glib w l w') :
    w'.identity = w.identity := by
  refine h.invariant (I := fun w' => w'.identity = w.identity) (fun w₀ p hc => ⟨?_, ?_⟩) fun _ h => h
  · cases hc <;> rfl
  · exact .of_calls (fun op e w _ _ hw => (apply_identity op e w).trans hw) (calls_true p)

/-- No callback renames the host. -/
theorem triple_hostName {α : Type} {A : Op → Bool → Prop} (hostName : String) (p : Proc α) :
    Triple machine A (fun w => w.hostName = hostName) p (fun _ w => w.hostName = hostName)
      (fun w => w.hostName = hostName) := by
  refine .of_calls (fun op e w _ _ hw => ?_) (calls_true p)
  exact (apply_hostName op e w).trans hw

theorem apply_noWrite_journal (h : op.NoWrite) : (apply op e w).2.journal = w.journal := by
  cases op with
  | sql q =>
    rcases apply_sql w q e with h' | ⟨j, -, h'⟩
    · rw [h']
    · rw [h', commit_of_isSelect h]
  | clientSend _ _ => cases e <;> rfl
  | managerSend _ => cases e <;> rfl
  | _ => rfl

/-- An entry of the trace that is not about the service does not show. -/
private theorem history_append {o : Output} (h : o.subject ≠ some s) (l : List Output) :
    (l ++ [o]).filter (·.subject = some s) = l.filter (·.subject = some s) := by
  simp [h]

theorem recovery_commit {q : Sql} {j : Journal} (hj : q.effect w.journal = some j) (hs : q.target ≠ some s) :
    (w.commit q j).recovery s = w.recovery s := by
  by_cases hq : q.isSelect
  · rw [commit_of_isSelect hq]
  · have hw := wrote_commit (by simpa using hq) hj
    have hv : (w.commit q j).journal.view s = w.journal.view s := by
      rw [hw.view, replay_of_ne (by simpa using hs)]
    have hh : (w.commit q j).history s = w.history s := by
      rw [history, hw.trace]
      exact history_append (o := .statement q) hs _
    have hsrc : (w.commit q j).sources = w.sources := by rw [hw.eq]
    rw [recovery, recovery, hv, hh, hsrc]

theorem apply_quietFor_recovery (h : op.QuietFor s) : (apply op e w).2.recovery s = w.recovery s := by
  have hemit : ∀ o : Output, o.subject ≠ some s → ∀ w' : Instance, w'.journal = w.journal → w'.sources = w.sources →
      w'.trace = w.trace ++ [o] → w'.recovery s = w.recovery s := by
    intro o ho w' hj hs ht
    rw [recovery, recovery, hj, hs, history, ht, history_append ho]
    rfl
  cases op with
  | sql q =>
    rcases apply_sql w q e with h' | ⟨j, hj, h'⟩
    · rw [h']
    · rw [h']
      exact recovery_commit hj h
  | pushExecutor type event =>
    have h : type.isRecovery = false := h
    exact hemit (.pushed type (w.heap event)) (by simp [Output.subject, h]) _ rfl rfl rfl
  | timeoutAddSeconds seconds data =>
    have ho : (Output.timeoutAdded ⟨w.nextSource, w.now + seconds, data⟩).subject ≠ some s := by
      cases data with
      | relax t => exact fun e => h (Option.some.inj e)
      | friend t => simp [Output.subject]
    have hf : GSource.relaxes s ⟨w.nextSource, w.now + seconds, data⟩ = false := by
      cases data with
      | relax t => exact decide_eq_false h
      | friend t => rfl
    have hh : (w.addTimeout seconds data).history s = w.history s := history_append ho _
    have hl : (w.addTimeout seconds data).sources.filter (·.relaxes s) = w.sources.filter (·.relaxes s) := by
      simp [addTimeout, hf]
    show (w.addTimeout seconds data).recovery s = _
    rw [recovery, recovery, hh, hl]
    rfl
  | clientSend sockfd msg =>
    cases e with
    | false => rfl
    | true => exact hemit (.clientSent sockfd msg) (by simp [Output.subject]) _ rfl rfl rfl
  | managerSend msg =>
    cases e with
    | false => rfl
    | true => exact hemit (.managerSent msg) (by simp [Output.subject]) _ rfl rfl rfl
  | emit o => exact hemit o h _ rfl rfl rfl
  | _ => rfl

/-- A callback of operations that do not concern a service leaves its escalation alone, however it ends. -/
theorem recovery_of_calls {p : Proc PUnit} (hp : p.Calls (Op.QuietFor s)) (w : Instance) :
    (w.after p).recovery s = w.recovery s := by
  have ht : Triple machine (fun _ _ => True) (fun w' => w'.recovery s = w.recovery s) p
      (fun _ w' => w'.recovery s = w.recovery s) (fun w' => w'.recovery s = w.recovery s) := by
    refine .of_calls (fun op e w' hq _ hw => ?_) hp
    exact (apply_quietFor_recovery hq).trans hw
  obtain ⟨hd, ha⟩ := ht.run (e := true) (fun _ => trivial) rfl
  unfold after
  rcases h : (w.run p).1 with _ | ⟨⟩
  · exact ha h
  · exact hd _ h

theorem recovery_of_quiet {p : Proc PUnit} (hp : p.Calls Op.Quiet) (w : Instance) :
    (w.after p).recovery s = w.recovery s :=
  recovery_of_calls (hp.mono fun _ h => h.quietFor s) w

end Instance

end RecoveryManager
