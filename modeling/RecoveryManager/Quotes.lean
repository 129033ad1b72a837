import RecoveryManager.Frames
import RecoveryManager.Lib.Budget
import RecoveryManager.SqlTexts
import RecoveryManager.UnitSource

/-!
# Names without quotes

SQLite reads the texts of a statement as the statement exactly if no name in it has a quote (`Sql.meant_iff_plain`).
Names come from the service manager, the crash handler, the other instances and the unit files.  In a run in which none
of these has a quote (`PlainRuns`), every statement is read as it is meant, whatever fails (`FaultyStep.plain`).
-/

namespace RecoveryManager

open Fallible Fallible.Prog

/-! ### The texts of a statement -/

/-- The statements of `rmg-journal.c` that are this one; they differ in the column that is read. -/
def Sql.statements : Sql → List Statement
  | .insertService r => [.addService r.hash r.name r.privdata r.publdata r.chkstart r.timeout]
  | .insertAction r => [.addAction r.hash r.service r.type r.tlmin r.tlmax r.reset]
  | .insertFriend r => [.addFriend r.hash r.service r.friend r.context r.type r.action r.argument r.delay]
  | .deleteServices name => [.removeService name]
  | .deleteActions service => [.removeActions service]
  | .deleteFriends service => [.removeFriends service]
  | .updateRvector name rvector => [.setRvector name rvector]
  | .selectServices name =>
    [.getHash name, .getRvector name, .getRelaxingTimeout name, .getPrivateDataPath name, .getPublicDataPath name]
  | .selectActions service level => [.getServiceAction service level, .getServiceActionResetAfter service level]
  | .selectFriends friend context type => [.getServicesForFriend friend context type]
  | .selectRelaxing => [.callForeachRelaxing]

theorem Sql.names_statements {q : Sql} {st : Statement} (h : st ∈ q.statements) : st.names = q.names := by
  cases q <;> simp only [Sql.statements, List.mem_cons, List.not_mem_nil, or_false] at h
  case selectServices => rcases h with rfl | rfl | rfl | rfl | rfl <;> rfl
  case selectActions => rcases h with rfl | rfl <;> rfl
  all_goals
    subst h
    rfl

/-- All texts of the statement are read as it is meant exactly if its names have no quotes. -/
theorem Sql.meant_iff_plain (q : Sql) :
    (∀ st ∈ q.statements, readStatements st.sql = some [st.shape]) ↔ q.Plain := by
  constructor
  · intro h
    obtain ⟨st, hst⟩ : ∃ st, st ∈ q.statements := by
      cases q <;> exact ⟨_, List.mem_cons_self⟩
    have hnames := unquoted_of_meant (h st hst)
    rwa [Sql.names_statements hst] at hnames
  · intro h st hst
    refine meant_of_unquoted ?_
    rw [Sql.names_statements hst]
    exact h

/-! ### Names from outside -/

/-- A name that is null or has no quote. -/
def QuoteFreeName (name : Option String) : Prop := ∀ s ∈ name, Unquoted s

instance : DecidablePred QuoteFreeName := fun name => inferInstanceAs (Decidable (∀ s ∈ name, Unquoted s))

theorem quoteFreeName_none : QuoteFreeName none := by
  rintro s ⟨⟩

theorem quoteFreeName_some {s : String} (h : Unquoted s) : QuoteFreeName (some s) := by
  rintro s' ⟨⟩
  exact h

structure RmgDEvent.QuoteFree (e : RmgDEvent) : Prop where
  service : QuoteFreeName e.serviceName
  process : QuoteFreeName e.processName
  context : QuoteFreeName e.contextName

structure RmgMessage.QuoteFree (msg : RmgMessage) : Prop where
  service : QuoteFreeName msg.serviceName
  process : QuoteFreeName msg.processName
  context : QuoteFreeName msg.contextName

/-- A friend timer prints no statement. -/
def TimerData.QuoteFree : TimerData → Prop
  | .relax t => Unquoted t.serviceName
  | .friend _ => True

/-- The names that come with a step have no quotes. -/
def Label.QuoteFree (glib : GLib) (hostName : String) : Label → Prop
  | .crash service | .restarted service => Unquoted service
  | .newCrash process context => Unquoted process ∧ Unquoted context
  | .fromReplica _ msg | .fromPrimary msg => msg.QuoteFree
  | .restart gdir => ∀ files ∈ gdir, ∀ f ∈ files, UnquotedFile glib hostName f
  | .dispatch | .execute | .expire _ | .tick => True

instance (msg : RmgMessage) : Decidable msg.QuoteFree :=
  decidable_of_iff (QuoteFreeName msg.serviceName ∧ QuoteFreeName msg.processName ∧ QuoteFreeName msg.contextName)
    ⟨fun ⟨h₁, h₂, h₃⟩ => ⟨h₁, h₂, h₃⟩, fun ⟨h₁, h₂, h₃⟩ => ⟨h₁, h₂, h₃⟩⟩

instance (glib : GLib) (hostName : String) (l : Label) : Decidable (l.QuoteFree glib hostName) :=
  match l with
  | .crash service | .restarted service => inferInstanceAs (Decidable (Unquoted service))
  | .newCrash process context => inferInstanceAs (Decidable (Unquoted process ∧ Unquoted context))
  | .fromReplica _ msg | .fromPrimary msg => inferInstanceAs (Decidable msg.QuoteFree)
  | .restart gdir => inferInstanceAs (Decidable (∀ files ∈ gdir, ∀ f ∈ files, UnquotedFile glib hostName f))
  | .dispatch | .execute | .expire _ | .tick => .isTrue trivial

/-- No name that may get into a statement has a quote. -/
structure Instance.QuoteFree (w : Instance) : Prop where
  hostName : Unquoted w.hostName
  heap : ∀ event, (w.heap event).QuoteFree
  services : ∀ r ∈ w.journal.services, Unquoted r.name
  sources : ∀ s ∈ w.sources, s.data.QuoteFree

/-! ### What the callbacks print -/

/-- The host name is `hostName`, and no name has a quote. -/
def plainly (hostName : String) : Budget Op Op.Res where
  allowed
    | .sql q => q.Plain
    | .newEvent e _ => e.QuoteFree
    | .setContextName _ name => QuoteFreeName name
    | .timeoutAddSeconds _ data => data.QuoteFree
    | _ => True
  promised
    | .load _, e => RmgDEvent.QuoteFree e
    | .getHostName, name => name = hostName
    | .sql .selectRelaxing, some rows => List.Forall (fun r : ServiceRow => Unquoted r.name) rows
    | _, _ => True
  cost _ := 0

section within
variable {hostName : String} {event : EventRef} {service : Option String}

private theorem plain_of_name {q : Sql} {name : String} (hq : q.names = [name]) (h : Unquoted name) : q.Plain := by
  intro s hs
  rw [hq] at hs
  exact List.mem_singleton.1 hs ▸ h

private theorem plainly_statement {q : Sql} (h : q.Plain) : (sqliteExec q).Within (plainly hostName) 0 :=
  ⟨h, Nat.le_refl 0, fun _ _ => within_pure _⟩

private theorem plainly_output (o : Output) : (output o).Within (plainly hostName) 0 :=
  ⟨trivial, Nat.le_refl 0, fun _ _ => within_pure _⟩

private theorem plainly_each {ι : Type} {xs : List ι} {body : ι → Proc PUnit}
    (h : ∀ x ∈ xs, (body x).Within (plainly hostName) 0) : (List.forM xs body).Within (plainly hostName) 0 :=
  (Within.forM h).mono (Nat.mul_zero _).le

private theorem plainly_mode {primary replica : Proc PUnit} (hp : primary.Within (plainly hostName) 0)
    (hr : replica.Within (plainly hostName) 0) : (onRunMode primary replica).Within (plainly hostName) 0 := by
  refine ⟨trivial, Nat.le_refl 0, fun mode _ => ?_⟩
  cases mode with
  | primary => exact hp
  | replica => exact hr

/-- What is done with an event. -/
private theorem plainly_event {β : Type} {k : RmgDEvent → Proc β}
    (h : ∀ e : RmgDEvent, e.QuoteFree → (k e).Within (plainly hostName) 0) :
    (load event >>= k).Within (plainly hostName) 0 :=
  ⟨trivial, Nat.le_refl 0, h⟩

/-- What is done with a name. -/
private theorem plainly_assert {β : Type} {k : String → Proc β} (hs : QuoteFreeName service)
    (h : ∀ name, Unquoted name → (k name).Within (plainly hostName) 0) :
    (gAssertName service >>= k).Within (plainly hostName) 0 := by
  cases service with
  | none => exact within_abort
  | some name => exact h name (hs name rfl)

private theorem plainly_column {α : Type} (hs : QuoteFreeName service) (response : α) (column : ServiceRow → α) :
    (getServiceColumn service response column).Within (plainly hostName) 0 :=
  plainly_assert hs fun _ hname => (plainly_statement (plain_of_name rfl hname)).free_bind fun r => by
    cases r <;> exact within_pure _

private theorem plainly_rung {α : Type} (hs : QuoteFreeName service) (response : α) (column : ActionRow → α) :
    (getActionColumn service response column).Within (plainly hostName) 0 :=
  plainly_assert hs fun _ hname => (plainly_column hs _ _).free_bind fun _ =>
    (plainly_statement (plain_of_name rfl hname)).free_bind fun r => by cases r <;> exact within_pure _

private theorem plainly_rvector (hs : QuoteFreeName service) (v : Int) :
    (rmgJournalSetRvector service v).Within (plainly hostName) 0 :=
  plainly_assert hs fun _ hname => (plainly_statement (plain_of_name rfl hname)).free_bind fun r => by
    cases r <;> exact within_pure _

private theorem plainly_trigger (hs : QuoteFreeName service) :
    (rmgRelaxtimerTrigger service).Within (plainly hostName) 0 :=
  plainly_assert hs fun name hname => (plainly_column hs _ _).free_bind fun r => by
    dsimp only
    split
    · exact within_pure _
    · refine (plainly_column hs _ _).free_bind fun r' => ?_
      split
      · exact within_pure _
      · exact ⟨hname, Nat.le_refl 0, fun _ _ => within_pure _⟩

/-- Operations that print nothing. -/
private theorem plainly_of_calls {α : Type} {K : Op → Prop} {p : Proc α} (hp : p.Calls K)
    (h : ∀ op, K op → (plainly hostName).allowed op) : p.Within (plainly hostName) 0 :=
  hp.within fun op hop => ⟨h op hop, rfl⟩

private theorem allowed_of_informs {type : ExecutorEventType} {op : Op} (h : op.Informs type event) :
    (plainly hostName).allowed op := by
  cases op <;> trivial

/-! ### The dispatcher -/

private theorem plainly_reset : (resetRvector event).Within (plainly hostName) 0 :=
  plainly_event fun _ he => (plainly_rvector he.service 0).free_bind fun _ => within_pure _

private theorem plainly_relaxation : (doRelaxtimerStart event).Within (plainly hostName) 0 :=
  plainly_event fun _ he => (plainly_trigger he.service).free_bind fun _ => within_pure _

private theorem plainly_push (type : ExecutorEventType) :
    (rmgExecutorPushEvent type event).Within (plainly hostName) 0 :=
  ⟨trivial, Nat.le_refl 0, fun _ _ => within_pure _⟩

private theorem plainly_perform (actionType : RmgActionType) (resets : Bool) :
    (performAction actionType resets event).Within (plainly hostName) 0 := by
  have hrelax : ∀ type, (pushThenRelax type event resets).Within (plainly hostName) 0 := fun type =>
    (plainly_push type).free_bind fun _ => by
      cases resets with
      | true => exact plainly_reset
      | false => exact plainly_relaxation
  have hreset : ∀ type, (resetThenPush type event resets).Within (plainly hostName) 0 := by
    intro type
    refine Within.free_bind ?_ fun _ => plainly_push type
    cases resets with
    | true => exact plainly_reset
    | false => exact within_pure _
  cases actionType with
  | serviceIgnore => exact plainly_reset
  | serviceReset | publicDataReset | privateDataReset | serviceDisable => exact hrelax _
  | contextReset | platformRestart => exact hreset _
  | factoryReset => exact plainly_push _
  | invalid | guruMeditation => exact within_pure _

private theorem plainly_inform (hh : Unquoted hostName) :
    (informServiceFailed event).Within (plainly hostName) 0 := by
  refine ⟨trivial, Nat.le_refl 0, fun name hname => ⟨?_, Nat.le_refl 0, fun _ _ =>
    plainly_of_calls (calls_doFriendServiceFailedEvent event) fun _ => allowed_of_informs⟩⟩
  rintro s ⟨⟩
  exact hname ▸ hh

private theorem plainly_escalation (hh : Unquoted hostName) (rvector : Int) :
    (escalate event rvector).Within (plainly hostName) 0 := by
  refine plainly_event fun e he => (plainly_rung he.service _ _).free_bind fun r => ?_
  dsimp only
  split
  · exact within_pure _
  · refine (plainly_rung he.service _ _).free_bind fun r' => Within.free_bind ?_ fun _ =>
      (plainly_perform _ _).free_bind fun _ => plainly_inform hh
    unfold reportAction
    split
    · exact plainly_output _
    · exact within_pure _

private theorem plainly_crash (hh : Unquoted hostName) :
    (doProcessServiceCrashEvent event).Within (plainly hostName) 0 := by
  refine plainly_event fun e he => (plainly_column he.service _ _).free_bind fun r => ?_
  dsimp only
  split
  · exact within_pure _
  · split
    · exact plainly_output _
    · refine (plainly_column he.service _ _).free_bind fun r' => ?_
      split
      · exact within_pure _
      · refine (plainly_rvector he.service _).free_bind fun st => ?_
        cases st with
        | error => exact within_pure _
        | ok => exact plainly_escalation hh _

private theorem plainly_dispatcher (hh : Unquoted hostName) (event : EventRef) :
    (dispatcherSourceCallback event).Within (plainly hostName) 0 := by
  refine plainly_event fun e he => ?_
  split
  · exact plainly_of_calls (calls_doFriendProcessCrashEvent event) fun _ => allowed_of_informs
  · exact plainly_of_calls (calls_doFriendServiceFailedEvent event) fun _ => allowed_of_informs
  · exact (plainly_output _).free_bind fun _ => plainly_crash hh
  · exact plainly_push _
  · exact plainly_push _
  · exact plainly_push _
  · exact within_pure _
  · exact within_pure _

/-! ### The executor and the timers -/

private theorem plainly_friends_named (hs : QuoteFreeName service) {context : Option String}
    (hc : QuoteFreeName context) (type : RmgFriendType) :
    (rmgJournalGetServicesForFriend service context type).Within (plainly hostName) 0 := by
  refine plainly_assert hs fun n hn => plainly_assert hc fun c hcontext => (plainly_statement ?_).free_bind fun r => ?_
  · intro s hmem
    rcases List.mem_cons.1 hmem with rfl | hmem
    · exact hn
    · exact List.mem_singleton.1 hmem ▸ hcontext
  · cases r <;> exact within_pure _

private theorem plainly_friend (type : RmgFriendType) :
    (doProcessFriendCrashEvent event type).Within (plainly hostName) 0 := by
  refine plainly_event fun e he => Within.free_bind ?_ fun r => ?_
  · by_cases htype : type = .process
    · rw [if_pos htype]
      exact plainly_friends_named he.process he.context type
    · rw [if_neg htype]
      exact plainly_friends_named he.service he.context type
  · dsimp only
    split
    · exact within_pure _
    · exact plainly_each fun f _ => ⟨trivial, Nat.le_refl 0, fun _ _ => within_pure _⟩

private theorem plainly_restart : (doProcessServiceRestartEvent event).Within (plainly hostName) 0 :=
  plainly_event fun _ _ => plainly_output _

private theorem plainly_data {getPath : Option String → Proc (Option String × Bool)}
    (h : ∀ s, QuoteFreeName s → (getPath s).Within (plainly hostName) 0) (resetCmd : RmgOptions → String) :
    (resetData getPath resetCmd event).Within (plainly hostName) 0 := by
  refine plainly_event fun e he => (h _ he.service).free_bind fun r => ?_
  dsimp only
  split
  · exact within_pure _
  · exact ⟨trivial, Nat.le_refl 0, fun _ _ => (plainly_output _).free_bind fun _ => plainly_restart⟩

private theorem unquoted_append_service {context : String} (h : Unquoted context) :
    Unquoted (context ++ ".service") := by
  unfold Unquoted
  rw [String.toList_append, List.mem_append, not_or]
  exact ⟨h, by decide⟩

private theorem plainly_meditation : (enterMeditation event).Within (plainly hostName) 0 :=
  plainly_event fun _ _ => plainly_output _

private theorem plainly_platform : (doProcessPlatformRestartEventPrimary event).Within (plainly hostName) 0 :=
  plainly_event fun _ _ => ⟨trivial, Nat.le_refl 0, fun _ _ => (plainly_output _).free_bind fun _ => plainly_output _⟩

private theorem plainly_factory : (doProcessFactoryResetEventPrimary event).Within (plainly hostName) 0 :=
  plainly_event fun _ _ => ⟨trivial, Nat.le_refl 0, fun _ _ => (plainly_output _).free_bind fun _ => plainly_output _⟩

private theorem plainly_context : (contextRestartOnPrimary event).Within (plainly hostName) 0 := by
  refine plainly_event fun e _ => ?_
  cases e.contextName with
  | none => exact plainly_platform
  | some context =>
    refine plainly_event fun e he => Within.free_bind (plainly_column ?_ _ _) fun r => ?_
    · intro s hs
      obtain ⟨context, hcontext, rfl⟩ := Option.mem_map.1 hs
      exact unquoted_append_service (he.context context hcontext)
    · dsimp only
      split
      · exact within_pure _
      · exact plainly_output _

private theorem plainly_set {β : Type} (name : Option String) (f : String → β) :
    (gAssertName name >>= fun n => (pure (f n) : Proc β)).Within (plainly hostName) 0 := by
  cases name with
  | none => exact within_abort
  | some name => exact within_pure _

private theorem plainly_request (type : RmgMessageType) :
    (requestPrimary type event).Within (plainly hostName) 0 :=
  plainly_event fun _ _ => (plainly_set _ _).free_bind fun _ => ⟨trivial, Nat.le_refl 0, fun _ _ =>
    (plainly_set _ _).free_bind fun _ => ⟨trivial, Nat.le_refl 0, fun _ _ => within_pure _⟩⟩

private theorem plainly_executor (type : ExecutorEventType) (event : EventRef) :
    (executorSourceCallback type event).Within (plainly hostName) 0 := by
  have hrequest : ∀ t, (do let _ ← requestPrimary t event : Proc PUnit).Within (plainly hostName) 0 := fun t =>
    (plainly_request t).free_bind fun _ => within_pure _
  cases type with
  | friendProcessCrash => exact plainly_friend .process
  | friendServiceFailed => exact plainly_friend .service
  | serviceRestart => exact plainly_restart
  | serviceResetPublicData => exact plainly_data (fun s hs => plainly_column hs _ _) _
  | serviceResetPrivateData => exact plainly_data (fun s hs => plainly_column hs _ _) _
  | serviceDisable => exact within_pure _
  | contextRestart =>
    refine plainly_mode plainly_context ((plainly_request _).free_bind fun st => ?_)
    cases st with
    | ok => exact plainly_meditation
    | error => exact within_pure _
  | platformRestart => exact (plainly_mode plainly_platform (hrequest _)).free_bind fun _ => plainly_meditation
  | factoryReset => exact (plainly_mode plainly_factory (hrequest _)).free_bind fun _ => plainly_meditation

private theorem plainly_timer {data : TimerData} (h : data.QuoteFree) :
    (timerCallback data).Within (plainly hostName) 0 := by
  cases data with
  | friend t =>
    obtain ⟨service, action, argument⟩ := t
    cases action with
    | unknown | invalid => exact ⟨trivial, Nat.le_refl 0, fun _ _ => within_pure _⟩
    | start | stop | restart | signal =>
      refine ⟨trivial, Nat.le_refl 0, fun sdManagerProxy _ => ?_⟩
      cases sdManagerProxy with
      | false => exact within_pure _
      | true => exact plainly_output _
  | relax t =>
    have hs : QuoteFreeName (some t.serviceName) := by
      rintro s ⟨⟩
      exact h
    refine (plainly_column hs _ _).free_bind fun r => ?_
    dsimp only
    split
    · exact within_pure _
    · split
      · exact (plainly_rvector hs _).free_bind fun _ => within_pure _
      · exact within_pure _

/-! ### Messages and boots -/

private theorem plainly_event_push {e : RmgDEvent} {cause : Option Cause} {k : EventRef → Proc PUnit}
    (he : e.QuoteFree) (hk : ∀ event, (k event).Within (plainly hostName) 0) :
    (Prog.call (.newEvent e cause) .ret >>= k : Proc PUnit).Within (plainly hostName) 0 :=
  ⟨he, Nat.le_refl 0, fun event _ => hk event⟩

private theorem plainly_queue (event : EventRef) : (rmgDispatcherPushServiceEvent event).Within (plainly hostName) 0 :=
  ⟨trivial, Nat.le_refl 0, fun _ _ => within_pure _⟩

private theorem plainly_service {msg : RmgMessage} (h : msg.QuoteFree) (type : DispatcherEventType) :
    (pushServiceEvent type msg).Within (plainly hostName) 0 :=
  plainly_event_push ⟨h.service, quoteFreeName_none, h.context⟩ fun event =>
    (plainly_output _).free_bind fun _ => plainly_queue event

private theorem plainly_process {msg : RmgMessage} (h : msg.QuoteFree) (type : DispatcherEventType) :
    (pushProcessEvent type msg).Within (plainly hostName) 0 :=
  plainly_event_push ⟨quoteFreeName_none, h.process, h.context⟩ fun event =>
    (plainly_output _).free_bind fun _ => plainly_queue event

private theorem plainly_client {msg : RmgMessage} (h : msg.QuoteFree) (sockfd : Nat) :
    (clientProcessMessage sockfd msg).Within (plainly hostName) 0 := by
  unfold clientProcessMessage
  split
  · exact ⟨trivial, Nat.le_refl 0, fun _ _ => within_pure _⟩
  · exact plainly_service h _
  · exact plainly_service h _
  · exact plainly_service h _
  · exact plainly_service h _
  · exact within_pure _

private theorem plainly_manager {msg : RmgMessage} (h : msg.QuoteFree) :
    (managerProcessMessage msg).Within (plainly hostName) 0 := by
  unfold managerProcessMessage
  split
  · exact plainly_process h _
  · exact plainly_service h _
  · exact within_pure _

section entry
variable {jentry : RmgJEntry} {origin : UnitText} (h : ∀ s ∈ jentry.strings, Unquoted s)
include h

private theorem quoteFree_strings : QuoteFreeName jentry.name ∧ QuoteFreeName jentry.privateData ∧
    QuoteFreeName jentry.publicData := by
  refine ⟨fun s hs => h s ?_, fun s hs => h s ?_, fun s hs => h s ?_⟩ <;>
    simp [RmgJEntry.strings, Option.mem_def.1 hs]

private theorem plainly_addService : (rmgJournalAddService jentry.hash jentry.name jentry.privateData jentry.publicData
    jentry.checkStart jentry.timeout origin).Within (plainly hostName) 0 := by
  obtain ⟨hname, hprivate, hpublic⟩ := quoteFree_strings h
  refine plainly_assert hname fun n hn => plainly_assert hprivate fun p hp => plainly_assert hpublic fun p' hp' =>
    (plainly_statement ?_).free_bind fun r => ?_
  · intro s hs
    simp only [Sql.names, List.mem_cons, List.not_mem_nil, or_false] at hs
    rcases hs with rfl | rfl | rfl
    · exact hn
    · exact hp
    · exact hp'
  · cases r <;> exact within_pure _

private theorem plainly_addAction (a : RmgAEntry) : (addActionForService jentry origin a).Within (plainly hostName) 0 :=
  Within.free_bind (plainly_assert (quoteFree_strings h).1 fun n hn =>
    (plainly_statement (plain_of_name rfl hn)).free_bind fun r => by cases r <;> exact within_pure _)
      fun _ => within_pure _

private theorem plainly_addFriend {f : RmgFEntry} (hf : f ∈ jentry.friends) :
    (addFriendForService jentry origin f).Within (plainly hostName) 0 := by
  have hfriend : Unquoted f.friendName ∧ Unquoted f.friendContext := by
    have hmem : ∀ s ∈ [f.friendName, f.friendContext], s ∈ jentry.strings := fun s hs =>
      List.mem_append_right _ (List.mem_flatMap.2 ⟨f, hf, hs⟩)
    exact ⟨h _ (hmem _ (by simp)), h _ (hmem _ (by simp))⟩
  refine Within.free_bind (plainly_assert (quoteFree_strings h).1 fun n hn => ?_) fun _ => within_pure _
  refine (plainly_statement ?_).free_bind fun r => ?_
  · intro s hs
    simp only [Sql.names, List.mem_cons, List.not_mem_nil, or_false] at hs
    rcases hs with rfl | rfl | rfl
    · exact hn
    · exact hfriend.1
    · exact hfriend.2
  · cases r <;> exact within_pure _

private theorem plainly_replace : (replaceService jentry origin).Within (plainly hostName) 0 := by
  have hremove : (rmgJournalRemoveService jentry.name).Within (plainly hostName) 0 :=
    plainly_assert (quoteFree_strings h).1 fun n hn => (plainly_statement (plain_of_name rfl hn)).free_bind fun r => by
      cases r with
      | none => exact within_pure _
      | some _ =>
        refine (plainly_statement (plain_of_name rfl hn)).free_bind fun _ =>
          (plainly_statement (plain_of_name rfl hn)).free_bind fun _ => ?_
        split <;> exact within_pure _
  refine hremove.free_bind fun st => ?_
  cases st with
  | error => exact within_pure _
  | ok =>
    refine (plainly_addService h).free_bind fun st => ?_
    cases st with
    | error => exact within_pure _
    | ok =>
      exact (plainly_each fun a _ => plainly_addAction h a).free_bind fun _ =>
        plainly_each fun f hf => plainly_addFriend h hf

private theorem plainly_ingest : (ingestEntry jentry origin).Within (plainly hostName) 0 := by
  refine (plainly_column (quoteFree_strings h).1 _ _).free_bind fun r => ?_
  dsimp only
  split
  · exact within_pure _
  · exact plainly_replace h

end entry

private theorem plainly_unit {glib : GLib} {f : UnitFile} (h : UnquotedFile glib hostName f) :
    (reloadUnit glib f).Within (plainly hostName) 0 := by
  unfold reloadUnit
  cases hc : f.contents with
  | none => exact within_pure _
  | some contents =>
    have ht : f.text = cString contents := by rw [UnitFile.text, hc, Option.getD_some]
    refine ⟨trivial, Nat.le_refl 0, fun name (hname : name = hostName) => ?_⟩
    subst hname
    dsimp only
    show Within _ 0 (if _ then _ else _)
    split
    · exact within_abort
    · split
      · rename_i hok
        exact plainly_ingest (ht ▸ h (by rw [hc]; rfl) (ht ▸ hok))
      · exact within_pure _

private theorem plainly_boot {glib : GLib} {gdir : Option (List UnitFile)}
    (h : ∀ files ∈ gdir, ∀ f ∈ files, UnquotedFile glib hostName f) : (boot glib gdir).Within (plainly hostName) 0 := by
  refine Within.free_bind ?_ fun _ => Within.free_bind ?_ fun _ => within_pure _
  · cases gdir with
    | none => exact within_pure _
    | some files => exact (plainly_each fun f hf => plainly_unit (h files rfl f hf)).free_bind fun _ => within_pure _
  · refine ⟨fun s hs => absurd hs List.not_mem_nil, Nat.le_refl 0, fun rows hrows => ?_⟩
    cases rows with
    | none => exact within_pure _
    | some rows =>
      refine (plainly_each fun r hr => ?_).free_bind fun _ => within_pure _
      have hname := List.forall_iff_forall_mem.1 hrows r hr
      exact (plainly_trigger (quoteFreeName_some hname)).free_bind fun _ => within_pure _

end within

/-! ### Steps and runs -/

namespace Instance

variable {glib : GLib} {w w₀ w' : Instance} {l : Label} {ls : List Label} {p : Proc PUnit}

private theorem plainly_callback (hc : Callback glib w l w₀ p) (hl : l.QuoteFree glib w.hostName) (hw : w.QuoteFree) :
    p.Within (plainly w.hostName) 0 := by
  cases hc with
  | crash | restarted =>
    exact plainly_event_push ⟨quoteFreeName_some hl, quoteFreeName_none, quoteFreeName_none⟩ plainly_queue
  | newCrash =>
    exact plainly_event_push ⟨quoteFreeName_none, quoteFreeName_some hl.1, quoteFreeName_some hl.2⟩ plainly_queue
  | fromReplica sockfd msg => exact plainly_client hl sockfd
  | fromPrimary msg => exact plainly_manager hl
  | dispatch => exact plainly_dispatcher hw.hostName _
  | execute => exact plainly_executor _ _
  | expire hs => exact plainly_timer (hw.sources _ hs)
  | tick => exact within_pure _
  | restart => exact plainly_boot hl

private theorem quoteFree_effect {q : Sql} {j j' : Journal} (hq : q.Plain) (h : q.effect j = some j')
    (hj : ∀ r ∈ j.services, Unquoted r.name) : ∀ r ∈ j'.services, Unquoted r.name := by
  cases q with
  | insertService row =>
    obtain ⟨-, h⟩ := Option.ite_none_left_eq_some.1 h
    obtain rfl := Option.some.inj h
    intro r hr
    rcases List.mem_append.1 hr with hr | hr
    · exact hj r hr
    · exact hq _ (List.mem_singleton.1 hr ▸ List.mem_cons_self)
  | insertAction row | insertFriend row =>
    obtain ⟨-, h⟩ := Option.ite_none_left_eq_some.1 h
    obtain rfl := Option.some.inj h
    exact hj
  | deleteServices name =>
    obtain rfl := Option.some.inj h
    exact fun r hr => hj r (List.mem_filter.1 hr).1
  | updateRvector name v =>
    obtain rfl := Option.some.inj h
    intro r hr
    obtain ⟨r', hr', rfl⟩ := List.mem_map.1 hr
    split
    · exact hj r' hr'
    · exact hj r' hr'
  | _ =>
    obtain rfl := Option.some.inj h
    exact hj

private theorem quoteFree_commit {q : Sql} {j : Journal} (hj : ∀ r ∈ j.services, Unquoted r.name) (hw : w.QuoteFree) :
    (w.commit q j).QuoteFree := by
  unfold commit
  split
  · exact hw
  · exact ⟨hw.hostName, hw.heap, hj, hw.sources⟩

private theorem promised_select (q : Sql) (hw : w.QuoteFree) :
    (plainly w.hostName).promised (.sql q) (some (q.rows w.journal)) := by
  cases q with
  | selectRelaxing => exact List.forall_iff_forall_mem.2 fun r hr => hw.services r (List.mem_filter.1 hr).1
  | _ => trivial

private theorem quoteFree_apply {op : Op} (ha : (plainly w.hostName).allowed op) (ok : Bool) (hw : w.QuoteFree) :
    (apply op ok w).2.QuoteFree ∧ (plainly w.hostName).promised op (apply op ok w).1 := by
  cases op with
  | sql q =>
    rcases apply_sql w q ok with h | ⟨j, hj, h⟩
    · rw [h]
      exact ⟨hw, by cases q <;> trivial⟩
    · rw [h]
      exact ⟨quoteFree_commit (quoteFree_effect ha hj hw.services) hw, promised_select q hw⟩
  | load event => exact ⟨hw, hw.heap event⟩
  | newEvent e cause =>
    refine ⟨⟨hw.hostName, fun event => ?_, hw.services, hw.sources⟩, trivial⟩
    show (Function.update w.heap w.allocated _ event).QuoteFree
    by_cases he : event = w.allocated
    · rw [he, Function.update_self]
      have ha : e.QuoteFree := ha
      exact ⟨ha.service, ha.process, ha.context⟩
    · rw [Function.update_of_ne he]
      exact hw.heap event
  | setContextName event' name =>
    refine ⟨⟨hw.hostName, fun event => ?_, hw.services, hw.sources⟩, trivial⟩
    show (Function.update w.heap event' _ event).QuoteFree
    by_cases he : event = event'
    · rw [he, Function.update_self]
      exact ⟨(hw.heap event').service, (hw.heap event').process, ha⟩
    · rw [Function.update_of_ne he]
      exact hw.heap event
  | timeoutAddSeconds seconds data =>
    refine ⟨⟨hw.hostName, hw.heap, hw.services, fun s hs => ?_⟩, trivial⟩
    rcases List.mem_append.1 hs with hs | hs
    · exact hw.sources s hs
    · exact List.mem_singleton.1 hs ▸ ha
  | clientSend | managerSend =>
    cases ok with
    | true => exact ⟨⟨hw.hostName, hw.heap, hw.services, hw.sources⟩, trivial⟩
    | false => exact ⟨hw, trivial⟩
  | getHostName => exact ⟨hw, rfl⟩
  | _ => exact ⟨⟨hw.hostName, hw.heap, hw.services, hw.sources⟩, trivial⟩

private theorem quoteFree_start (hc : Callback glib w l w₀ p) (hw : w.QuoteFree) :
    w₀.QuoteFree ∧ w₀.hostName = w.hostName := by
  cases hc with
  | expire => exact ⟨⟨hw.hostName, hw.heap, hw.services, fun s hs => hw.sources s (List.mem_filter.1 hs).1⟩, rfl⟩
  | restart => exact ⟨⟨hw.hostName, hw.heap, hw.services, fun s hs => absurd hs List.not_mem_nil⟩, rfl⟩
  | _ => exact ⟨⟨hw.hostName, hw.heap, hw.services, hw.sources⟩, rfl⟩

/-- Every statement is read as it is meant. -/
def ReadAsMeant : Op → Prop
  | .sql q => ∀ st ∈ q.statements, readStatements st.sql = some [st.shape]
  | _ => True

/-- A step in which every statement is read as it is meant. -/
def PlainStep (glib : GLib) (w : Instance) (l : Label) (w' : Instance) : Prop :=
  ∃ w₀ p o w₁, w.enabled glib l = some (w₀, p) ∧ Exec machine (fun op _ => ReadAsMeant op) p w₀ o w₁ ∧ w' = ended o w₁

/-- If no name has a quote, this is so after the step, and every statement is read as it is meant. -/
theorem plain_exec {A : Op → Bool → Prop} {o : Outcome PUnit} {w₁ : Instance} (hc : Callback glib w l w₀ p)
    (hx : Exec machine A p w₀ o w₁) (hl : l.QuoteFree glib w.hostName) (hw : w.QuoteFree) :
    w₁.QuoteFree ∧ w₁.hostName = w.hostName ∧ Exec machine (fun op e => A op e ∧ ReadAsMeant op) p w₀ o w₁ := by
  have hp := plainly_callback hc hl hw
  have hI : ∀ op e (w' : Instance), (plainly w.hostName).allowed op → A op e →
      (w'.QuoteFree ∧ w'.hostName = w.hostName) →
        ((machine.apply op e w').2.QuoteFree ∧ (machine.apply op e w').2.hostName = w.hostName) ∧
          (plainly w.hostName).promised op (machine.apply op e w').1 := by
    rintro op e w' ha - ⟨hw', hhost⟩
    rw [← hhost] at ha ⊢
    obtain ⟨h, hr⟩ := quoteFree_apply ha e hw'
    exact ⟨⟨h, apply_hostName op e w'⟩, hr⟩
  obtain ⟨hw₁, -⟩ := hx.spends (μ := fun _ => 0)
    (fun op e s ha hA hs => ⟨(hI op e s ha hA hs).1, (hI op e s ha hA hs).2, Nat.zero_le _⟩) hp
    (quoteFree_start hc hw)
  refine ⟨hw₁.1, hw₁.2, (hx.restrict hI hp (quoteFree_start hc hw)).mono fun op e h => ⟨h.1, ?_⟩⟩
  cases op with
  | sql q => exact q.meant_iff_plain.2 h.2
  | _ => trivial

private theorem quoteFree_ended (hw : w.QuoteFree) (o : Outcome PUnit) : (ended o w).QuoteFree := by
  cases o with
  | done => exact hw
  | aborted | killed => exact ⟨hw.hostName, hw.heap, hw.services, hw.sources⟩

theorem FaultyStep.plain (hs : FaultyStep glib w l w') (hl : l.QuoteFree glib w.hostName) (hw : w.QuoteFree) :
    w'.QuoteFree ∧ w'.hostName = w.hostName ∧ PlainStep glib w l w' := by
  obtain ⟨w₀, p, o, w₁, he, hx, rfl⟩ := hs
  obtain ⟨hw₁, hhost, hx⟩ := plain_exec (callback_of_enabled he) hx hl hw
  refine ⟨quoteFree_ended hw₁ o, ?_, w₀, p, o, w₁, he, hx.mono fun _ _ h => h.2, rfl⟩
  cases o <;> exact hhost

/-- Runs of an instance that hears of no name with a quote. -/
structure PlainRuns (glib : GLib) (w₀ : Instance) (ls : List Label) (w : Instance) : Prop where
  start : w₀.QuoteFree
  labels : ∀ l ∈ ls, l.QuoteFree glib w₀.hostName
  runs : FaultyRuns glib w₀ ls w

private theorem quoteFree_runs (h₀ : w₀.QuoteFree) (hl : ∀ l ∈ ls, l.QuoteFree glib w₀.hostName)
    (hr : FaultyRuns glib w₀ ls w) :
    w.QuoteFree ∧ w.hostName = w₀.hostName ∧ Transition.Run (PlainStep glib) w₀ ls w := by
  induction hr with
  | nil => exact ⟨h₀, rfl, .nil⟩
  | @snoc ls t u l _ hs ih =>
    obtain ⟨ht, hhost, hrun⟩ := ih fun l' hl' => hl l' (List.mem_append_left _ hl')
    obtain ⟨hu, hhost', hstep⟩ := hs.plain (hhost ▸ hl l (by simp)) ht
    exact ⟨hu, hhost'.trans hhost, hrun.snoc hstep⟩

theorem PlainRuns.quoteFree (h : PlainRuns glib w₀ ls w) : w.QuoteFree ∧ w.hostName = w₀.hostName :=
  ⟨(quoteFree_runs h.start h.labels h.runs).1, (quoteFree_runs h.start h.labels h.runs).2.1⟩

theorem quoteFree_initial (runMode : RmgRunMode) {hostName : String} (h : Unquoted hostName) :
    (initial runMode hostName).QuoteFree :=
  ⟨h, fun _ => ⟨quoteFreeName_none, quoteFreeName_none, quoteFreeName_none⟩, fun _ h => absurd h List.not_mem_nil,
    fun _ h => absurd h List.not_mem_nil⟩

/-- As long as no name from outside has a quote, SQLite reads every statement as it is meant, whatever fails and however
often the process comes up again. -/
theorem statements_read_as_meant (h : PlainRuns glib w₀ ls w) : Transition.Run (PlainStep glib) w₀ ls w :=
  (quoteFree_runs h.start h.labels h.runs).2.2

end Instance

end RecoveryManager
