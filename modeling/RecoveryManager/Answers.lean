import RecoveryManager.Peers

/-!
# Steps in which statements may fail

`StepUnder A`: a step whose callback runs to its end, with the answers of `A`.  If only sends are sure to go through,
the traffic still moves as it does when nothing fails (`traffic_of_stepUnder`): a statement that fails makes the crash
handler stop before it does anything that others would notice, or not at all.
-/

namespace RecoveryManager

open Fallible Fallible.Prog

namespace Instance

variable {w w' w'' : Instance} {glib : GLib} {l : Label} {event : EventRef} {A : Op → Bool → Prop}

/-- Sends go through; statements may fail. -/
def SendsSucceed : Op → Bool → Prop
  | .clientSend .., ok => ok = true
  | .managerSend _, ok => ok = true
  | _, _ => True

theorem sendsSucceed_true (op : Op) : SendsSucceed op true := by
  cases op <;> trivial

/-- All statements and sends go through. -/
def AllSucceed (_ : Op) (ok : Bool) : Prop := ok = true

theorem allSucceed_true (op : Op) : AllSucceed op true := rfl

theorem AllSucceed.sends {op : Op} {ok : Bool} (h : AllSucceed op ok) : SendsSucceed op ok := by
  rw [show ok = true from h]
  exact sendsSucceed_true op

/-- A step in which the callback is not killed. -/
def StepUnder (A : Op → Bool → Prop) (glib : GLib) (w : Instance) (l : Label) (w' : Instance) : Prop :=
  ∃ w₀ p o w₁, w.enabled glib l = some (w₀, p) ∧ Exec machine A p w₀ o w₁ ∧ o ≠ .killed ∧ w' = ended o w₁

theorem Step.under (h : Step glib w l w') (hA : ∀ op, A op true) : StepUnder A glib w l w' := by
  obtain ⟨⟨w₀, p⟩, he, rfl⟩ := Option.map_eq_some_iff.1 h
  refine ⟨w₀, p, _, _, he, exec_run machine true hA p w₀, ?_, rfl⟩
  cases (Fallible.run machine true p w₀).1 <;> simp [outcomeOf]

/-! ### Callbacks without statements -/

/-- Only a send can fail. -/
def SendsOnly : Op → Prop
  | .sql _ | .getManagerProxy => False
  | _ => True

/-- With sends that go through, only the answers to statements matter. -/
theorem ended_of_exec (hA : ∀ op e, A op e → SendsSucceed op e) {p : Proc PUnit} (hp : p.Calls SendsOnly)
    {o : Outcome PUnit} (h : Exec machine A p w o w') (ho : o ≠ .killed) : ended o w' = w.after p := by
  have hanswer : ∀ op e s, SendsOnly op → A op e → machine.apply op e s = machine.apply op true s := by
    intro op e s hop he
    have hsend := hA op e he
    cases op with
    | sql | getManagerProxy => exact hop.elim
    | clientSend | managerSend => rw [show e = true from hsend]
    | _ => rfl
  obtain ⟨rfl, rfl⟩ := h.eq_run machine true hp hanswer ho
  rfl

private theorem step_of_ended {w₀ w₁ : Instance} {p : Proc PUnit} (he : w.enabled glib l = some (w₀, p))
    {o : Outcome PUnit} (h : ended o w₁ = w₀.after p) : Step glib w l (ended o w₁) := by
  rw [h, Step, step, he]
  rfl

/-- With answers that make everything go through, there is one step for a label. -/
theorem step_of_under (hA : ∀ op e, A op e → e = true) (h : StepUnder A glib w l w') : Step glib w l w' := by
  obtain ⟨w₀, p, o, w₁, he, h, ho, rfl⟩ := h
  obtain ⟨rfl, rfl⟩ := h.eq_run machine true (calls_true p) (fun op e s _ he => by rw [hA op e he]) ho
  rw [Step, step, he]
  rfl

private theorem sendsOnly_of_informs {op : Op} {type : ExecutorEventType} (h : op.Informs type event) :
    SendsOnly op := by
  cases op <;> trivial

/-! ### The crash handler -/

/-- Operations that do not show in the traffic. -/
def Beside : Op → Prop
  | .sql _ | .load _ | .timeoutAddSeconds .. | .getRunMode | .getHostName | .getOptions | .getManagerProxy
  | .getClients => True
  | .emit o => o.asPush = none ∧ o.asSelection = none ∧ o.asRequest = none ∧ o.asSent = none
  | _ => False

/-- The state while `event`, taken from the queue of `w`, is handled; `T` is its traffic. -/
structure During (w : Instance) (event : EventRef) (T : Traffic) (w' : Instance) : Prop where
  worked : Worked event w w'
  traffic : w'.traffic = T
  heap : w'.heap event = w.heap event

variable {T : Traffic}

private theorem During.beside {op : Op} (hop : Beside op) (e : Bool) (h : During w event T w') :
    During w event T (apply op e w').2 := by
  have hkeeps : KeepsStore op := by cases op <;> trivial
  have hstore := sameStore_apply hkeeps e w'
  refine ⟨h.worked.trans (hstore.worked event), ?_, by rw [hstore.heap]; exact h.heap⟩
  rw [← h.traffic]
  cases op with
  | emit o => exact traffic_emit hop.1 hop.2.1 hop.2.2.1 hop.2.2.2 w'
  | sql | load | timeoutAddSeconds | getRunMode | getHostName | getOptions | getManagerProxy | getClients =>
    exact (apply_aside (by trivial)).1
  | _ => exact hop.elim

private theorem triple_during {α : Type} {p : Proc α} (hp : p.Calls Beside) :
    Triple machine A (During w event T) p (fun _ => During w event T) fun _ => True :=
  (Triple.of_calls (fun _ e _ hop _ h => h.beside hop e) hp).weaken (fun _ h => h) (fun _ _ h => h) fun _ _ => trivial

private theorem beside_of_aside {op : Op} (h : op.Aside) : Beside op := by
  cases op with
  | emit o =>
    have ho : o.isEffect := h
    cases o <;> first | exact ⟨rfl, rfl, rfl, rfl⟩ | cases ho
  | _ => trivial

private theorem triple_load_during :
    Triple machine A (During w event T) (load event) (fun e w' => e = w.heap event ∧ During w event T w') fun _ =>
      True :=
  .perform (fun _ _ => trivial) fun _ _ _ h => ⟨h.heap, h⟩

private theorem triple_push_during (type : ExecutorEventType) :
    Triple machine A (During w event T) (rmgExecutorPushEvent type event)
      (fun _ => During w event (T.push type (w.heap event))) fun _ => True := by
  refine .perform (fun _ _ => trivial) fun w' _ _ h => ⟨h.worked.trans (worked_pushExecutor w' type event), ?_, h.heap⟩
  rw [← h.traffic, ← h.heap]
  exact traffic_pushExecutor w' type event

private theorem calls_rmgJournalSetRvector_beside (service : Option String) (v : Int) :
    (rmgJournalSetRvector service v).Calls Beside :=
  (calls_gAssertName _).bind fun _ => Calls.bind ⟨trivial, fun _ => trivial⟩ fun r => by cases r <;> trivial

private theorem calls_resetRvector_beside : (resetRvector event).Calls Beside :=
  Calls.bind ⟨trivial, fun _ => trivial⟩ fun _ => (calls_rmgJournalSetRvector_beside _ _).bind fun _ => trivial

private theorem calls_doRelaxtimerStart : (doRelaxtimerStart event).Calls Beside :=
  Calls.bind ⟨trivial, fun _ => trivial⟩ fun _ =>
    ((calls_rmgRelaxtimerTrigger _).mono fun _ h => beside_of_aside h.2).bind fun _ => trivial

/-- Whatever fails on the way, the action that was selected is handed to the executor. -/
private theorem triple_performAction_during (type : RmgActionType) (reset : Bool) :
    Triple machine A (During w event T) (performAction type reset event)
      (fun _ => During w event (match type.kind with | some kind => T.push kind (w.heap event) | none => T))
      fun _ => True := by
  have hrelax : ∀ kind, Triple machine A (During w event T) (pushThenRelax kind event reset)
      (fun _ => During w event (T.push kind (w.heap event))) fun _ => True := by
    intro kind
    refine (triple_push_during kind).bind fun _ => triple_during ?_
    cases reset
    · exact calls_doRelaxtimerStart
    · exact calls_resetRvector_beside
  have hreset : ∀ kind, Triple machine A (During w event T) (resetThenPush kind event reset)
      (fun _ => During w event (T.push kind (w.heap event))) fun _ => True := by
    intro kind
    refine Triple.bind (triple_during ?_) fun _ => triple_push_during kind
    cases reset
    · trivial
    · exact calls_resetRvector_beside
  cases type with
  | serviceIgnore => exact triple_during calls_resetRvector_beside
  | serviceReset | publicDataReset | privateDataReset | serviceDisable => exact hrelax _
  | contextReset | platformRestart => exact hreset _
  | factoryReset => exact triple_push_during _
  | invalid | guruMeditation => exact .ret fun _ h => h

private theorem triple_reportAction (type : RmgActionType) (v : Int) :
    Triple machine A (During w event T) (reportAction type v (w.heap event))
      (fun _ => During w event (T.select type (w.heap event))) fun _ => True := by
  unfold reportAction Traffic.select
  by_cases ht : type ≠ .invalid
  · rw [if_pos ht, if_pos ht]
    refine .perform (fun _ _ => trivial) fun w' _ _ h => ⟨h.worked.trans ⟨fun _ _ => rfl, rfl, rfl, fun _ h => .inl h,
      rfl, rfl⟩, ?_, h.heap⟩
    rw [← h.traffic]
    show (w'.emit _).traffic = _
    simp [Instance.traffic, emit, Output.asPush, Output.asSelection, Output.asRequest, Output.asSent]
  · rw [if_neg ht, if_neg ht]
    exact .ret fun _ h => h

private theorem calls_informServiceFailed_sendsOnly : (informServiceFailed event).Calls SendsOnly :=
  ⟨trivial, fun _ => ⟨trivial, fun _ => (calls_doFriendServiceFailedEvent event).mono fun _ => sendsOnly_of_informs⟩⟩

private theorem triple_informServiceFailed_during (hA : ∀ op e, A op e → SendsSucceed op e) {s : String}
    (hs : (w.heap event).serviceName = some s) (hq : event ∉ w.dispatcherQueue) :
    Triple machine A (During w event T) (informServiceFailed event)
      (fun _ w' => Worked event w w' ∧
        w'.traffic = T.serviceFailed w.runMode w.hostName { w.heap event with contextName := some w.hostName })
      fun _ => True := by
  intro w₁ o w₂ h hexec
  cases o with
  | aborted | killed => trivial
  | done a =>
    have hafter := ended_of_exec hA calls_informServiceFailed_sendsOnly hexec nofun
    have hid := h.worked.identity
    have hmode : w₁.runMode = w.runMode := congrArg Identity.runMode hid
    have hhost : w₁.hostName = w.hostName := congrArg Identity.hostName hid
    have hq₁ : event ∉ w₁.dispatcherQueue := by
      rw [h.worked.dispatcherQueue]
      exact hq
    obtain ⟨ht, hw⟩ := traffic_setContextName hq₁ (some w₁.hostName)
    have hheap : (w₁.setContextName event (some w₁.hostName)).heap event =
        { w.heap event with contextName := some w.hostName } := by
      rw [← h.heap, ← hhost]
      exact Function.update_self ..
    have hs₁ : ((w₁.setContextName event (some w₁.hostName)).heap event).serviceName = some s := by
      rw [hheap]
      exact hs
    have hcontext : ((w₁.setContextName event (some w₁.hostName)).heap event).contextName = some w.hostName := by
      rw [hheap]
    obtain ⟨w₃, hrun, htraffic, hw₃⟩ := effects_doFriendServiceFailedEvent hs₁ hcontext
    have hend : w₁.after (informServiceFailed event) = w₃ := after_of_run hrun
    rw [hend] at hafter
    obtain rfl : w₂ = w₃ := hafter
    refine ⟨h.worked.trans (hw.trans hw₃), ?_⟩
    rw [htraffic, ht, hheap, h.traffic, show (w₁.setContextName event (some w₁.hostName)).runMode =
      w.runMode from hmode,
      show (w₁.setContextName event (some w₁.hostName)).hostName = w.hostName from hhost]

/-- The crash handler tells the others, or it has stopped before anything shows. -/
private theorem triple_doProcessServiceCrashEvent_during (hA : ∀ op e, A op e → SendsSucceed op e) {s : String}
    (hs : (w.heap event).serviceName = some s) (hq : event ∉ w.dispatcherQueue) :
    Triple machine A (During w event T) (doProcessServiceCrashEvent event)
      (fun _ w' => Worked event w w' ∧
        (w'.traffic = T ∨ ∃ type, w'.traffic = T.crashed w.runMode w.hostName (w.heap event) type))
      fun _ => True := by
  have hstop : ∀ w', During w event T w' → Worked event w w' ∧
      (w'.traffic = T ∨ ∃ type, w'.traffic = T.crashed w.runMode w.hostName (w.heap event) type) :=
    fun _ h => ⟨h.worked, .inl h.traffic⟩
  have hget : ∀ {α : Type} (service : Option String) (response : α) (column : ServiceRow → α),
      (getServiceColumn service response column).Calls Beside := fun _ _ _ =>
    (calls_getServiceColumn _ _ _).mono fun _ h => beside_of_aside h.2
  have haction : ∀ {α : Type} (service : Option String) (response : α) (column : ActionRow → α),
      (getActionColumn service response column).Calls Beside := fun _ _ _ =>
    (calls_getActionColumn _ _ _).mono fun _ h => beside_of_aside h.2
  have hescalate : ∀ v, Triple machine A (During w event T) (escalate event v)
      (fun _ w' => Worked event w w' ∧
        (w'.traffic = T ∨ ∃ type, w'.traffic = T.crashed w.runMode w.hostName (w.heap event) type))
      fun _ => True := by
    intro v
    refine triple_load_during.bind fun e => Triple.of_prop ?_
    rintro rfl
    refine (triple_during (haction _ _ _)).bind fun r => ?_
    dsimp only
    split
    · exact .ret fun w' h => hstop w' h
    · refine (triple_during (haction _ _ _)).bind fun r' => (triple_reportAction r.1 v).bind fun _ =>
        (triple_performAction_during r.1 r'.1).bind fun _ => ?_
      exact (triple_informServiceFailed_during hA hs hq).weaken (fun _ h => h) (fun _ _ h => ⟨h.1, .inr ⟨r.1, h.2⟩⟩)
        fun _ h => h
  refine triple_load_during.bind fun e => Triple.of_prop ?_
  rintro rfl
  refine (triple_during (hget _ _ _)).bind fun r => ?_
  dsimp only
  split
  · exact .ret fun w' h => hstop w' h
  · split
    · refine (triple_during ?_).weaken (fun _ h => h) (fun _ w' h => hstop w' h) fun _ h => h
      exact ⟨⟨rfl, rfl, rfl, rfl⟩, fun _ => trivial⟩
    · refine (triple_during (hget _ _ _)).bind fun r' => ?_
      split
      · exact .ret fun w' h => hstop w' h
      · refine (triple_during (calls_rmgJournalSetRvector_beside _ _)).bind fun st => ?_
        cases st with
        | error => exact .ret fun w' h => hstop w' h
        | ok => exact hescalate _

/-! ### Steps -/

private theorem exec_onRunMode {primary replica : Proc PUnit} {k : PUnit → Proc PUnit} {o : Outcome PUnit}
    (h : Exec machine A (onRunMode primary replica >>= k) w o w') (ho : o ≠ .killed) :
    (w.runMode = .primary → Exec machine A (primary >>= k) w o w') ∧
      (w.runMode = .replica → Exec machine A (replica >>= k) w o w') := by
  change Exec machine A (.call .getRunMode _) w o w' at h
  cases h with
  | kill => exact absurd rfl ho
  | call _ h =>
    cases w
    constructor
    · rintro rfl
      exact h
    · rintro rfl
      exact h

private theorem exec_aside {p : Proc PUnit} (hp : p.Calls Op.Aside) {o : Outcome PUnit} (h : Exec machine A p w o w') :
    (ended o w').traffic = w.traffic ∧ ((ended o w').Linked ↔ w.Linked) := by
  have ht : Triple machine A (fun w' => w'.traffic = w.traffic ∧ (w'.Linked ↔ w.Linked)) p
      (fun _ w' => w'.traffic = w.traffic ∧ (w'.Linked ↔ w.Linked))
      fun w' => w'.traffic = w.traffic ∧ (w'.Linked ↔ w.Linked) :=
    Triple.of_calls (fun _ _ _ hop _ h =>
      ⟨(apply_aside hop).1.trans h.1, (apply_aside hop).2.trans h.2⟩) hp
  have h' := ht w o w' ⟨rfl, Iff.rfl⟩ h
  have hend : ∀ w' : Instance, (w'.traffic = w.traffic ∧ (w'.Linked ↔ w.Linked)) →
      Instance.traffic { w' with running := false } = w.traffic ∧
        (Linked { w' with running := false } ↔ w.Linked) := fun w' h =>
    ⟨h.1, ⟨fun hl => h.2.1 ⟨hl.1, hl.2, hl.3⟩, fun hl => ⟨(h.2.2 hl).1, (h.2.2 hl).2, (h.2.2 hl).3⟩⟩⟩
  cases o with
  | done a => exact h'
  | aborted | killed => exact hend w' h'

/-- A service crash handled, with statements that may fail. -/
private theorem handled_of_crash (hA : ∀ op e, A op e → SendsSucceed op e) (hq : event ∉ w.dispatcherQueue)
    (ht : (w.heap event).type = .serviceCrashed) (hs : (w.heap event).serviceName.isSome) {o : Outcome PUnit}
    (h : Exec machine A (dispatcherSourceCallback event) w o w') (ho : o ≠ .killed) :
    Worked event w w' ∧ ended o w' = w' ∧
      ∃ units, Traffic.Handled w.identity units (w.heap event) w.traffic w'.traffic := by
  have h := exec_load h ho
  rw [ht] at h
  obtain ⟨s, hs⟩ := Option.isSome_iff_exists.1 hs
  have htriple : Triple machine A (During w event w.traffic) (do
      output (.crashDetected (w.heap event).serviceName (w.heap event).cause)
      doProcessServiceCrashEvent event)
      (fun _ w' => Worked event w w' ∧ (w'.traffic = w.traffic ∨
        ∃ type, w'.traffic = w.traffic.crashed w.runMode w.hostName (w.heap event) type)) fun _ => True :=
    Triple.bind (triple_during (calls_perform ⟨rfl, rfl, rfl, rfl⟩)) fun _ =>
      triple_doProcessServiceCrashEvent_during hA hs hq
  have hresult := htriple w o w' ⟨.refl event w, rfl, rfl⟩ h
  cases o with
  | killed => exact absurd rfl ho
  | aborted =>
    have hsafe : Safe machine (fun _ _ => True) (ServiceKnown event) (do
        output (.crashDetected (w.heap event).serviceName (w.heap event).cause)
        doProcessServiceCrashEvent event) fun _ _ => True :=
      Safe.bind (.perform fun _ _ _ hw => hw) fun _ => safe_doProcessServiceCrashEvent
    exact (hsafe w .aborted w' (by rw [ServiceKnown, hs]; rfl) (h.mono fun _ _ _ => trivial)).elim
  | done a =>
    obtain ⟨hworked, htraffic⟩ := hresult
    refine ⟨hworked, rfl, ?_⟩
    rcases htraffic with htraffic | ⟨type, htraffic⟩
    · rw [htraffic]
      exact ⟨fun _ => False, .noUnit ht id⟩
    · rw [htraffic]
      exact ⟨fun _ => True, .crashed type ht trivial⟩

/-- A request to the primary has no statement in it. -/
private theorem calls_requestPrimary_sendsOnly (type : RmgMessageType) (event : EventRef) :
    (requestPrimary type event).Calls SendsOnly := by
  refine Calls.bind ⟨trivial, fun _ => trivial⟩ fun e => ?_
  refine Calls.bind ((calls_gAssertName _).bind fun _ => calls_pure _) fun _ => ?_
  refine Calls.bind ⟨trivial, fun _ => trivial⟩ fun _ => ?_
  exact Calls.bind ((calls_gAssertName _).bind fun _ => calls_pure _) fun _ => ⟨trivial, fun _ => trivial⟩

private theorem calls_enterMeditation_sendsOnly (event : EventRef) : (enterMeditation event).Calls SendsOnly :=
  Calls.bind ⟨trivial, fun _ => trivial⟩ fun _ => ⟨trivial, fun _ => trivial⟩

/-- The primary carries a request out by itself, a replica without a statement. -/
private theorem executorSourceCallback_of_isRequest {type : ExecutorEventType} (h : type.isRequest) (event : EventRef) :
    ∃ (primary replica : Proc PUnit) (k : PUnit → Proc PUnit),
      executorSourceCallback type event = onRunMode primary replica >>= k ∧ (primary >>= k).Calls Op.Acts ∧
        (replica >>= k).Calls SendsOnly := by
  have hrequest : ∀ type, (do let _ ← requestPrimary type event : Proc PUnit).Calls SendsOnly := fun type =>
    (calls_requestPrimary_sendsOnly type event).bind fun _ => calls_pure _
  have hmeditate := calls_enterMeditation_sendsOnly event
  cases type with
  | contextRestart =>
    refine ⟨contextRestartOnPrimary event, doProcessContextRestartEventReplica event, pure, (bind_pure _).symm, ?_, ?_⟩
    · rw [bind_pure]
      exact calls_contextRestartOnPrimary event
    · rw [bind_pure]
      refine (calls_requestPrimary_sendsOnly _ event).bind fun st => ?_
      cases st with
      | ok => exact hmeditate
      | error => trivial
  | platformRestart =>
    exact ⟨_, _, fun _ => enterMeditation event, rfl,
      (calls_doProcessPlatformRestartEventPrimary event).bind fun _ => calls_enterMeditation event,
      (hrequest _).bind fun _ => hmeditate⟩
  | factoryReset =>
    exact ⟨_, _, fun _ => enterMeditation event, rfl,
      (calls_doProcessFactoryResetEventPrimary event).bind fun _ => calls_enterMeditation event,
      (hrequest _).bind fun _ => hmeditate⟩
  | _ => cases h

/-- The executor of an instance, with statements that may fail. -/
private theorem executed_of_exec (hA : ∀ op e, A op e → SendsSucceed op e) {type : ExecutorEventType}
    (hs : w.runMode = .replica → type.requestType.isSome → (w.heap event).serviceName.isSome) {o : Outcome PUnit}
    (h : Exec machine A (executorSourceCallback type event) w o w') (ho : o ≠ .killed) :
    (ended o w').traffic =
        w.traffic.executed w.runMode w.hostName ⟨type, (w.heap event).serviceName, (w.heap event).cause⟩ ∧
      ((ended o w').Linked ↔ w.Linked) := by
  cases hr : type.isRequest with
  | false =>
    have hT : w.traffic.executed w.runMode w.hostName ⟨type, (w.heap event).serviceName, (w.heap event).cause⟩ =
        w.traffic := by
      unfold Traffic.executed
      cases type <;> first | (cases w.runMode <;> rfl) | cases hr
    rw [hT]
    exact exec_aside ((calls_executorSourceCallback_of_not_isRequest hr event).mono fun _ h => h.2) h
  | true =>
    obtain ⟨primary, replica, k, heq, hp, hq⟩ := executorSourceCallback_of_isRequest hr event
    have hmode := exec_onRunMode (heq ▸ h) ho
    cases hm : w.runMode with
    | primary => exact exec_aside (hp.mono fun _ h => h.2) (hmode.1 hm)
    | replica =>
      have hexecute := traffic_execute type hs
      rw [hm] at hexecute
      have hafter : w.after (executorSourceCallback type event) = w.after (replica >>= k) := by
        rw [heq]
        exact after_congr ((run_onRunMode w _ _ _).2 hm)
      rw [ended_of_exec hA hq (hmode.2 hm) ho, ← hafter]
      exact hexecute

private theorem calls_clientProcessMessage_sendsOnly (sockfd : Nat) (msg : RmgMessage) :
    (clientProcessMessage sockfd msg).Calls SendsOnly := by
  have hpush : ∀ type, (pushServiceEvent type msg).Calls SendsOnly := fun _ =>
    ⟨trivial, fun _ => ⟨trivial, fun _ => ⟨trivial, fun _ => trivial⟩⟩⟩
  unfold clientProcessMessage
  split <;> first | exact hpush _ | exact ⟨trivial, fun _ => trivial⟩ | trivial

private theorem calls_managerProcessMessage_sendsOnly (msg : RmgMessage) :
    (managerProcessMessage msg).Calls SendsOnly := by
  unfold managerProcessMessage
  split <;> first | exact ⟨trivial, fun _ => ⟨trivial, fun _ => ⟨trivial, fun _ => trivial⟩⟩⟩ | trivial

/-- All events but crashes are handled without a statement. -/
private theorem ended_of_dispatch (hA : ∀ op e, A op e → SendsSucceed op e)
    (ht : (w.heap event).type ≠ .serviceCrashed) {o : Outcome PUnit}
    (h : Exec machine A (dispatcherSourceCallback event) w o w') (ho : o ≠ .killed) :
    ended o w' = w.after (dispatcherSourceCallback event) := by
  have h := exec_load h ho
  have hrun := run_dispatcherSourceCallback w event
  have hpush : ∀ type, (rmgExecutorPushEvent type event).Calls SendsOnly := fun _ => ⟨trivial, fun _ => trivial⟩
  cases htype : (w.heap event).type with
  | serviceCrashed => exact absurd htype ht
  | informProcessCrash =>
    rw [htype] at h hrun
    rw [after_congr hrun]
    exact ended_of_exec hA ((calls_doFriendProcessCrashEvent event).mono fun _ => sendsOnly_of_informs) h ho
  | informServiceFailed =>
    rw [htype] at h hrun
    rw [after_congr hrun]
    exact ended_of_exec hA ((calls_doFriendServiceFailedEvent event).mono fun _ => sendsOnly_of_informs) h ho
  | remoteContextRestart | remotePlatformRestart | remoteFactoryReset =>
    rw [htype] at h hrun
    rw [after_congr hrun]
    exact ended_of_exec hA (hpush _) h ho
  | serviceRestarted | unknown =>
    rw [htype] at h hrun
    rw [after_congr hrun]
    exact ended_of_exec hA (calls_pure _) h ho

/-- Whatever statements fail, a step is a move of the traffic; if none does, the services with a recovery unit are
those whose crashes are told. -/
theorem traffic_of_stepUnder (hA : ∀ op e, A op e → SendsSucceed op e) (h : StepUnder A glib w l w')
    (hl : ∀ gdir, l ≠ .restart gdir) (hw : w.Linked) (hn : ∀ e ∈ w.traffic.inbox, e.Named)
    (hj : w.runMode = .replica → ∀ job ∈ w.traffic.work, job.type.requestType.isSome → job.serviceName.isSome) :
    (∃ units, ((∀ op e, A op e → e = true) → units = w.HasUnit) ∧
      Traffic.Move w.identity units w.traffic l w'.traffic) ∧ w'.Linked := by
  by_cases hall : ∀ op e, A op e → e = true
  · obtain ⟨hm, hlinked⟩ := traffic_of_step (step_of_under hall h) hl hw hn hj
    exact ⟨⟨_, fun _ => rfl, hm⟩, hlinked⟩
  have hfail : ∀ units {T}, Traffic.Move w.identity units w.traffic l T →
      ∃ units, ((∀ op e, A op e → e = true) → units = w.HasUnit) ∧ Traffic.Move w.identity units w.traffic l T :=
    fun units _ hm => ⟨units, fun h => absurd h hall, hm⟩
  -- every callback but the crash handler ends as it does with all statements going through
  have hstep : Step glib w l w' → (∃ units, ((∀ op e, A op e → e = true) → units = w.HasUnit) ∧
      Traffic.Move w.identity units w.traffic l w'.traffic) ∧ w'.Linked := by
    intro h
    obtain ⟨hm, hlinked⟩ := traffic_of_step h hl hw hn hj
    exact ⟨hfail _ hm, hlinked⟩
  obtain ⟨w₀, p, o, w₁, he, hexec, ho, rfl⟩ := h
  have hpush : ∀ type service, (pushMonitored type service).Calls SendsOnly := fun _ _ =>
    ⟨trivial, fun _ => ⟨trivial, fun _ => trivial⟩⟩
  have hnew : ∀ process context, (pushNewCrash process context).Calls SendsOnly := fun _ _ =>
    ⟨trivial, fun _ => ⟨trivial, fun _ => trivial⟩⟩
  cases callback_of_enabled he with
  | crash | restarted => exact hstep (step_of_ended he (ended_of_exec hA (hpush _ _) hexec ho))
  | newCrash process context =>
    exact hstep (step_of_ended he (ended_of_exec hA (hnew _ _) hexec ho))
  | fromReplica sockfd msg =>
    exact hstep (step_of_ended he (ended_of_exec hA (calls_clientProcessMessage_sendsOnly sockfd msg) hexec ho))
  | fromPrimary msg =>
    exact hstep (step_of_ended he (ended_of_exec hA (calls_managerProcessMessage_sendsOnly msg) hexec ho))
  | @dispatch event queue hq =>
    have hne : event ∉ queue := (List.nodup_cons.1 (hq ▸ hw.nodup)).1
    have hinbox : w.traffic.inbox = w.heap event :: queue.map w.heap := by
      show w.dispatcherQueue.map w.heap = _
      rw [hq, List.map_cons]
    by_cases ht : (w.heap event).type = .serviceCrashed
    · have hnamed : (w.heap event).Named := hn (w.heap event) (by rw [hinbox]; exact List.mem_cons_self)
      -- the handler may find no unit, or stop, where a statement fails
      obtain ⟨hworked, hend, units, hh⟩ :=
        @handled_of_crash { w with dispatcherQueue := queue } w₁ event A hA hne ht (hnamed.crash ht) o hexec ho
      have hlinked : ({ w with dispatcherQueue := queue } : Instance).Linked :=
        ⟨fun event' h => hw.dispatcher event' (by rw [hq]; exact List.mem_cons_of_mem _ h), hw.executor,
          (List.nodup_cons.1 (hq ▸ hw.nodup)).2⟩
      rw [← hend] at hh hworked
      exact ⟨hfail _ (.dispatch hinbox hh),
        hworked.linked hlinked (hw.dispatcher event (by rw [hq]; exact List.mem_cons_self))⟩
    · exact hstep (step_of_ended he (ended_of_dispatch (w := { w with dispatcherQueue := queue }) hA ht hexec ho))
  | @execute type event queue hq =>
    have hwork : w.traffic.work = ⟨type, (w.heap event).serviceName, (w.heap event).cause⟩ ::
        ({ w with executorQueue := queue } : Instance).traffic.work := by
      show w.executorQueue.map _ = _
      rw [hq, List.map_cons]
      rfl
    have hlinked : ({ w with executorQueue := queue } : Instance).Linked :=
      ⟨hw.dispatcher, fun x h => hw.executor x (by rw [hq]; exact List.mem_cons_of_mem _ h), hw.nodup⟩
    have hsome : w.runMode = .replica → type.requestType.isSome → (w.heap event).serviceName.isSome := fun hm h =>
      hj hm _ (by rw [hwork]; exact List.mem_cons_self) h
    obtain ⟨ht, hk⟩ := @executed_of_exec { w with executorQueue := queue } w₁ event A hA type hsome o hexec ho
    rw [ht]
    exact ⟨hfail (fun _ => True) (.execute hwork), hk.2 hlinked⟩
  | @expire source hsource hdeadline =>
    obtain ⟨ht, hk⟩ := exec_aside (calls_timerCallback source.data) hexec
    have ht₀ : ({ w with sources := w.sources.filter (· ≠ source) }.emit (.timeoutExpired source)).traffic =
      w.traffic :=
      traffic_emit rfl rfl rfl rfl _
    rw [ht, ht₀]
    exact ⟨hfail (fun _ => True) (.expire source.id), hk.2 ⟨hw.1, hw.2, hw.3⟩⟩
  | tick => exact hstep (step_of_ended he (ended_of_exec hA (calls_pure _) hexec ho))
  | restart gdir => exact absurd rfl (hl gdir)

end Instance

end RecoveryManager
