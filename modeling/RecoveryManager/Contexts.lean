import RecoveryManager.Boot
import RecoveryManager.UnitSource
import RecoveryManager.Unreliable

/-!
# Context restarts on the primary

On the primary a context restart is the restart of the platform for the own context, and the reboot of a container
otherwise.  The executor decides by the context name of the event when it gets to it.

* The event of a request keeps the name of the replica, so its container is rebooted.
* The event of a crash has no context name when it is queued for the executor, but the dispatcher still holds it and
  then writes the own host name into it.  A context restart for the crash of an own service therefore always ends up as
  the reboot of a container (`contexts_told_apart_iff`).
-/

namespace RecoveryManager

open Fallible Fallible.Prog

private def Output.isReboot : Output → Bool
  | .containerReboot .. => true
  | _ => false

/-- The operations of a callback that works on one event. -/
def Op.Serves (event : EventRef) (allow : ExecutorEventType → Prop) : Op → Prop
  | .newEvent .. | .setContextName .. | .pushDispatcher _ => False
  | .pushExecutor type event' => allow type ∧ event' = event
  | .emit o => ∀ msg event', o ≠ .received msg event'
  | _ => True

namespace Op

variable {op : Op} {event : EventRef} {allow : ExecutorEventType → Prop}

theorem Aside.serves (h : op.Aside) : op.Serves event allow := by
  cases op with
  | emit o =>
    rintro msg event' rfl
    exact absurd h (by simp [Aside, Output.isEffect])
  | newEvent | setContextName | pushDispatcher | pushExecutor => exact h.elim
  | _ => trivial

theorem Aside.serves_none (event : EventRef) (h : op.Aside) : op.Serves event fun _ => False := h.serves

theorem Executes.serves (h : op.Executes) : op.Serves event allow := by
  rcases h with h | ⟨msg, rfl⟩
  · exact h.2.serves
  · trivial

theorem Executes.serves_none (event : EventRef) (h : op.Executes) : op.Serves event fun _ => False := h.serves

theorem Informs.serves {type : ExecutorEventType} (h : op.Informs type event) (ht : allow type) :
    op.Serves event allow := by
  cases op with
  | pushExecutor type' event' =>
    obtain ⟨rfl, rfl⟩ := h
    exact ⟨ht, rfl⟩
  | newEvent | setContextName | pushDispatcher | emit => exact h.elim
  | _ => trivial

end Op

namespace Instance

/-- The executor handles its next event the way the claimed function does, for the own context and for containers. -/
structure TellsContextsApart (w : Instance) : Prop where
  own : ∀ event queue, w.executorQueue = (.contextRestart, event) :: queue → (w.heap event).type = .serviceCrashed →
    SameExec machine Unreliable { w with executorQueue := queue } (executorSourceCallback .contextRestart event)
      (doProcessPlatformRestartEventPrimary event)
  container : ∀ msg c event type queue, .received msg event ∈ w.trace → msg.type = .requestContextRestart →
    msg.contextName = some c → w.executorQueue = (type, event) :: queue →
      type = .contextRestart ∧ (w.heap event).contextName = some c ∧
        SameExec machine Unreliable { w with executorQueue := queue } (executorSourceCallback type event)
          (doProcessContextRestartEventPrimary event)

/-- The step handles the crash of an own service whose next level selects a context restart. -/
def SelectsContextRestart (w : Instance) (l : Label) : Prop :=
  l = .dispatch ∧ ∃ event ∈ w.dispatcherQueue.head?, (w.heap event).type = .serviceCrashed ∧
    ∃ s, (w.heap event).serviceName = some s ∧ w.journal.hashOf s ≠ 0 ∧
      actionAt (w.journal.actionsOf s) (w.journal.rvectorOf s + 1) = .contextReset

/-- The next event of the executor is the context restart for a crash of an own service. -/
def OwnContextRestartNext (w : Instance) : Prop :=
  ∃ event queue, w.executorQueue = (.contextRestart, event) :: queue ∧ (w.heap event).type = .serviceCrashed

/-! ### What the executor does -/

section executor
variable {w : Instance} {event : EventRef}

private theorem sameExec_contextRestart {q : Proc PUnit} {op : Op} {k : op.Res → Proc PUnit}
    (hmode : w.runMode = .primary) (hq : q = .call op k)
    (hc : (match (w.heap event).contextName with
      | none => doProcessPlatformRestartEventPrimary event
      | some _ => doProcessContextRestartEventPrimary event) = q) :
    SameExec machine Unreliable w (executorSourceCallback .contextRestart event) q := by
  have hmode' : ∀ e, Unreliable .getRunMode e → machine.apply .getRunMode e w = (RmgRunMode.primary, w) := by
    intro e _
    show (w.runMode, w) = _
    rw [hmode]
  have hload : SameExec machine Unreliable w (.call (.load event) fun e => match e.contextName with
      | none => doProcessPlatformRestartEventPrimary event
      | some _ => doProcessContextRestartEventPrimary event) (match (w.heap event).contextName with
      | none => doProcessPlatformRestartEventPrimary event
      | some _ => doProcessContextRestartEventPrimary event) :=
    sameExec_look (fun _ _ => rfl) ⟨true, trivial⟩ (hc.trans hq)
  rw [hc] at hload
  exact (sameExec_look hmode' ⟨true, trivial⟩ rfl).trans hload

theorem sameExec_of_contextName_some {c : String} (hmode : w.runMode = .primary)
    (hc : (w.heap event).contextName = some c) :
    SameExec machine Unreliable w (executorSourceCallback .contextRestart event)
      (doProcessContextRestartEventPrimary event) :=
  sameExec_contextRestart hmode rfl (by simp only [hc])

private theorem reboots_of_platformRestart (n : Nat) : Triple machine Unreliable
    (fun w => w.trace.countP Output.isReboot = n) (doProcessPlatformRestartEventPrimary event)
    (fun _ w => w.trace.countP Output.isReboot = n) (fun w => w.trace.countP Output.isReboot = n) := by
  have hemit : ∀ o : Output, o.isReboot = false → ∀ w : Instance, w.trace.countP Output.isReboot = n →
      (w.emit o).trace.countP Output.isReboot = n := by
    intro o ho w hw
    simp [emit, ho, hw]
  refine .call (fun _ h => h) (R := fun _ w => w.trace.countP Output.isReboot = n) (fun _ _ _ h => h) fun e => ?_
  refine .call (fun _ h => h) (R := fun _ w => w.trace.countP Output.isReboot = n) (fun _ _ _ h => h) fun options => ?_
  refine .call (fun _ h => h) (R := fun _ w => w.trace.countP Output.isReboot = n) (fun w _ _ h => hemit _ rfl w h)
    fun _ => ?_
  exact .call (fun _ h => h) (R := fun _ w => w.trace.countP Output.isReboot = n) (fun w _ _ h => hemit _ rfl w h)
    fun _ => .ret fun _ h => h

/-- The reboot of a container is not the restart of the platform. -/
theorem not_sameExec_of_contextName_some {c : String} (hmode : w.runMode = .primary)
    (hc : (w.heap event).contextName = some c) :
    ¬ SameExec machine Unreliable w (executorSourceCallback .contextRestart event)
      (doProcessPlatformRestartEventPrimary event) := by
  intro h
  have hreboot : w.run (doProcessContextRestartEventPrimary event) =
      (some ⟨⟩, w.emit (.containerReboot (some c) (w.heap event).cause)) := by
    have hget := run_rmgJournalGetHash w (c ++ ".service")
    unfold doProcessContextRestartEventPrimary
    rw [run_bind (run_load w event), hc]
    rw [show (some c).map (· ++ ".service") = some (c ++ ".service") from rfl, run_bind hget]
    rfl
  have hx := exec_run (A := Unreliable) machine true (fun _ => trivial) (doProcessContextRestartEventPrimary event) w
  have hp := (h _ _).1 ((sameExec_of_contextName_some hmode hc _ _).2 hx)
  have hn := reboots_of_platformRestart (w.trace.countP Output.isReboot) _ _ _ rfl hp
  unfold run at hreboot
  rw [hreboot] at hn
  have hn : (w.trace ++ [Output.containerReboot (some c) (w.heap event).cause]).countP Output.isReboot = _ := hn
  simp [Output.isReboot] at hn

end executor

/-! ### The events an instance holds -/

/-- The event objects in the queues.  `m` says whether a context restart may stem from an own crash at all, and
`handled` is the event the dispatcher is at work on. -/
structure Held (m : Prop) (handled : Option EventRef) (w : Instance) : Prop where
  dispatcher : ∀ event ∈ w.dispatcherQueue, event < w.allocated
  executor : ∀ x ∈ w.executorQueue, x.2 < w.allocated
  request : ∀ msg event, .received msg event ∈ w.trace → msg.type = .requestContextRestart →
    event < w.allocated ∧ (w.heap event).type = .remoteContextRestart ∧ (w.heap event).contextName = msg.contextName
  remote : ∀ type event, (type, event) ∈ w.executorQueue → (w.heap event).type = .remoteContextRestart →
    type = .contextRestart
  own : ∀ event, (.contextRestart, event) ∈ w.executorQueue → (w.heap event).type = .serviceCrashed →
    m ∧ (handled ≠ some event → (w.heap event).contextName = some w.hostName)

/-- In addition, the event a callback works on. -/
structure Serving (m : Prop) (handled : Option EventRef) (event : EventRef) (e : RmgDEvent) (w : Instance) :
    Prop extends Held m handled w where
  allocated : event < w.allocated
  object : w.heap event = e

/-- The executor events that may be queued for an event of a type. -/
def Allowed (m : Prop) (handled : Option EventRef) (event : EventRef) (t : DispatcherEventType)
    (type : ExecutorEventType) : Prop :=
  (t = .remoteContextRestart → type = .contextRestart) ∧
    (type = .contextRestart → t = .serviceCrashed → m ∧ handled = some event)

section held
variable {m : Prop} {handled : Option EventRef} {w w' : Instance} {event : EventRef} {d : RmgDEvent}

private theorem Held.of_eq (h : Held m handled w) (hd : w'.dispatcherQueue = w.dispatcherQueue)
    (he : w'.executorQueue = w.executorQueue) (hh : w'.heap = w.heap) (ha : w'.allocated = w.allocated)
    (hn : w'.hostName = w.hostName)
    (ht : ∀ msg event, .received msg event ∈ w'.trace → Output.received msg event ∈ w.trace) :
    Held m handled w' where
  dispatcher := by rw [hd, ha]; exact h.dispatcher
  executor := by rw [he, ha]; exact h.executor
  request := by rw [hh, ha]; exact fun msg event hm => h.request msg event (ht msg event hm)
  remote := by rw [he, hh]; exact h.remote
  own := by rw [he, hh, hn]; exact h.own

private theorem Held.of_trace {o : Output} (h : Held m handled w) (hd : w'.dispatcherQueue = w.dispatcherQueue)
    (he : w'.executorQueue = w.executorQueue) (hh : w'.heap = w.heap) (ha : w'.allocated = w.allocated)
    (hn : w'.hostName = w.hostName) (ht : w'.trace = w.trace ++ [o]) (ho : ∀ msg event, o ≠ .received msg event) :
    Held m handled w' := by
  refine h.of_eq hd he hh ha hn fun msg event hm => ?_
  rw [ht] at hm
  rcases List.mem_append.1 hm with hm | hm
  · exact hm
  · exact absurd (List.mem_singleton.1 hm).symm (ho msg event)

private theorem apply_serves {op : Op} {e : Bool} {allow : ExecutorEventType → Prop} (hop : op.Serves event allow) :
    (apply op e w).2.heap = w.heap ∧ (apply op e w).2.allocated = w.allocated := by
  cases op with
  | sql q =>
    rcases apply_sql w q e with h' | ⟨j, -, h'⟩
    · rw [h']
      exact ⟨rfl, rfl⟩
    · rw [h', commit]
      split <;> exact ⟨rfl, rfl⟩
  | clientSend => cases e <;> exact ⟨rfl, rfl⟩
  | managerSend => cases e <;> exact ⟨rfl, rfl⟩
  | newEvent | setContextName | pushDispatcher => exact hop.elim
  | _ => exact ⟨rfl, rfl⟩

/-- An operation that queues nothing. -/
private theorem Held.apply {op : Op} {e : Bool} (h : Held m handled w) (hop : op.Serves event fun _ => False) :
    Held m handled (apply op e w).2 := by
  cases op with
  | sql q =>
    rcases apply_sql w q e with h' | ⟨j, -, h'⟩
    · rw [h']
      exact h
    · rw [h', commit]
      split
      · exact h
      · exact h.of_trace rfl rfl rfl rfl rfl rfl (by simp)
  | timeoutAddSeconds seconds data => exact h.of_trace rfl rfl rfl rfl rfl rfl (by simp)
  | clientSend sockfd msg =>
    cases e with
    | false => exact h
    | true => exact h.of_trace rfl rfl rfl rfl rfl rfl (by simp)
  | managerSend msg =>
    cases e with
    | false => exact h
    | true => exact h.of_trace rfl rfl rfl rfl rfl rfl (by simp)
  | emit o => exact h.of_trace rfl rfl rfl rfl rfl rfl hop
  | pushExecutor => exact hop.1.elim
  | newEvent | setContextName | pushDispatcher => exact hop.elim
  | setClientName sockfd name => exact h.of_eq rfl rfl rfl rfl rfl fun _ _ hm => hm
  | _ => exact h

private theorem Serving.pushExecutor {type : ExecutorEventType} (h : Serving m handled event d w)
    (hallow : Allowed m handled event d.type type) : Serving m handled event d (w.pushExecutor type event) := by
  have hmem : ∀ x, x ∈ (w.pushExecutor type event).executorQueue → x ∈ w.executorQueue ∨ x = (type, event) := by
    intro x hx
    simpa [Instance.pushExecutor] using hx
  constructor
  · constructor
    · exact h.dispatcher
    · intro x hx
      rcases hmem x hx with hx | rfl
      · exact h.executor x hx
      · exact h.allocated
    · intro msg event' hm
      have hm : Output.received msg event' ∈ w.trace := by simpa [Instance.pushExecutor] using hm
      exact h.request msg event' hm
    · intro type' event' hx hr
      rcases hmem _ hx with hx | hx
      · exact h.remote type' event' hx hr
      · obtain ⟨rfl, rfl⟩ := Prod.mk.inj hx
        exact hallow.1 (h.object ▸ hr)
    · intro event' hx hc
      rcases hmem _ hx with hx | hx
      · exact h.own event' hx hc
      · obtain ⟨rfl, rfl⟩ := Prod.mk.inj hx
        obtain ⟨hm, hu⟩ := hallow.2 rfl (h.object ▸ hc)
        exact ⟨hm, fun hne => absurd hu hne⟩
  · exact h.allocated
  · exact h.object

private theorem Serving.apply {op : Op} {e : Bool} (h : Serving m handled event d w)
    (hop : op.Serves event (Allowed m handled event d.type)) :
    Serving m handled event d (apply op e w).2 := by
  by_cases hpush : ∃ type event', op = .pushExecutor type event'
  · obtain ⟨type, event', rfl⟩ := hpush
    obtain ⟨hallow, rfl⟩ := hop
    exact h.pushExecutor hallow
  · have hnone : op.Serves event fun _ => False := by
      cases op with
      | pushExecutor type event' => exact absurd ⟨type, event', rfl⟩ hpush
      | _ => exact hop
    obtain ⟨hheap, halloc⟩ := apply_serves (w := w) (e := e) hop
    exact ⟨h.toHeld.apply hnone, by rw [halloc]; exact h.allocated, by rw [hheap]; exact h.object⟩

private theorem triple_held {α : Type} {p : Proc α} (hp : p.Calls fun op => op.Serves event fun _ => False) :
    Triple machine Unreliable (Held m handled) p (fun _ => Held m handled) (Held m handled) :=
  .of_calls (fun _ _ _ hop _ h => h.apply hop) hp

private theorem triple_serving {α : Type} {p : Proc α}
    (hp : p.Calls (Op.Serves event (Allowed m handled event d.type))) :
    Triple machine Unreliable (Serving m handled event d) p (fun _ => Serving m handled event d)
      (Serving m handled event d) :=
  .of_calls (fun _ _ _ hop _ h => h.apply hop) hp

private theorem held_of_serving (h : Serving m handled event d w) : ∃ u, Held m u w := ⟨handled, h.toHeld⟩

/-! ### The crash handler -/

/-- Before the action is performed: nothing has been queued, and the tables are `j`. -/
private def Counting (m : Prop) (event : EventRef) (d : RmgDEvent) (j : Journal) (w : Instance) : Prop :=
  Serving m none event d w ∧ w.journal = j

private theorem held_of_counting {j : Journal} (h : Counting m event d j w) : ∃ u, Held m u w := held_of_serving h.1

private theorem triple_setRvector {s : String} {v : Int} {j : Journal} :
    Triple machine Unreliable (Counting m event d j) (rmgJournalSetRvector (some s) v)
      (fun st w => Serving m none event d w ∧ (st = .ok → w.journal = j.setRvector s v)) fun w => ∃ u, Held m u w := by
  have hexec : Triple machine Unreliable (Counting m event d j) (sqliteExec (.updateRvector s v))
      (fun r w => Serving m none event d w ∧ (r.isSome → w.journal = j.setRvector s v)) fun w => ∃ u, Held m u w := by
    refine .call (fun _ => held_of_counting) (R := fun r w => Serving m none event d w ∧
      (Option.isSome r → w.journal = j.setRvector s v)) (fun w e _ h => ⟨?_, ?_⟩) fun r => .ret fun _ h => h
    · exact h.1.apply trivial
    · intro hr
      rcases apply_sql w (.updateRvector s v) e with h' | ⟨j', hj, h'⟩
      · have hr : Option.isSome (Instance.apply (.sql (.updateRvector s v)) e w).1 := hr
        rw [h'] at hr
        cases hr
      · show (Instance.apply _ e w).2.journal = _
        rw [h', ← h.2]
        exact (Option.some.inj hj).symm
  show Triple _ _ _ (sqliteExec (.updateRvector s v) >>= _) _ _
  refine Triple.bind hexec fun r => ?_
  cases r with
  | none => exact .ret fun _ h => ⟨h.1, fun hs => by cases hs⟩
  | some _ => exact .ret fun _ h => ⟨h.1, fun _ => h.2 rfl⟩

/-- The host name is written into the event, which closes its handling. -/
private theorem triple_informServiceFailed (hd : d.type = .serviceCrashed) :
    Triple machine Unreliable (Serving m (some event) event d) (informServiceFailed event) (fun _ => Held m none)
      fun w => ∃ u, Held m u w := by
  refine .call (fun _ => held_of_serving) (R := fun r w => Serving m (some event) event d w ∧ r = w.hostName)
    (fun w _ _ h => ⟨h, rfl⟩) fun hostName => ?_
  refine .call (fun _ h => held_of_serving h.1)
    (R := fun _ => Serving m none event { d with contextName := some hostName }) (fun w _ _ h => ?_) fun _ => ?_
  · obtain ⟨h, rfl⟩ := h
    show Serving m none event _ (w.setContextName event (some w.hostName))
    have hsame : ∀ event', event' ≠ event → (w.setContextName event (some w.hostName)).heap event' = w.heap event' :=
      fun event' hne => Function.update_of_ne hne _ _
    have hself : (w.setContextName event (some w.hostName)).heap event = { d with contextName := some w.hostName } := by
      show Function.update w.heap event _ event = _
      rw [Function.update_self, h.object]
    constructor
    · constructor
      · exact h.dispatcher
      · exact h.executor
      -- only the event at hand has been given another context
      · intro msg event' hm ht
        have hr := h.request msg event' hm ht
        have hne : event' ≠ event := by
          rintro rfl
          rw [h.object, hd] at hr
          cases hr.2.1
        rw [hsame event' hne]
        exact hr
      · intro type event' hx hr
        by_cases he : event' = event
        · rw [he, hself, hd] at hr
          cases hr
        · rw [hsame event' he] at hr
          exact h.remote type event' hx hr
      · intro event' hx hc
        by_cases he : event' = event
        · subst he
          refine ⟨(h.own event' hx (by rw [h.object]; exact hd)).1, fun _ => ?_⟩
          rw [hself]
          rfl
        · rw [hsame event' he] at hc ⊢
          obtain ⟨hm, hname⟩ := h.own event' hx hc
          exact ⟨hm, fun _ => hname fun e => he (Option.some.inj e).symm⟩
    · exact h.allocated
    · exact hself
  · have hallow : Allowed m none event { d with contextName := some hostName }.type .friendServiceFailed := by
      show Allowed m none event d.type _
      rw [hd]
      exact ⟨fun e => (nomatch e), fun e => (nomatch e)⟩
    exact (triple_serving ((calls_doFriendServiceFailedEvent event).mono fun _ h => h.serves hallow)).weaken
      (fun _ h => h) (fun _ _ h => h.toHeld) fun _ => held_of_serving

section calls
variable {allow : ExecutorEventType → Prop} {type : ExecutorEventType} (h : allow type)

private theorem calls_resetRvector : (resetRvector event).Calls (Op.Serves event allow) :=
  ((calls_load event).mono fun _ h => h.2.serves).bind fun _ =>
    ((calls_rmgJournalSetRvector _ _).mono fun _ h => h.serves).bind fun _ => trivial

include h

private theorem calls_pushThenRelax (reset : Bool) :
    (pushThenRelax type event reset).Calls (Op.Serves event allow) := by
  refine Calls.bind ⟨⟨h, rfl⟩, fun _ => trivial⟩ fun _ => ?_
  cases reset with
  | true => exact calls_resetRvector
  | false =>
    exact Calls.bind ((calls_load event).mono fun _ h => h.2.serves) fun e =>
      Calls.bind ((calls_rmgRelaxtimerTrigger _).mono fun _ h => h.2.serves) fun _ => trivial

private theorem calls_resetThenPush (reset : Bool) :
    (resetThenPush type event reset).Calls (Op.Serves event allow) := by
  refine Calls.bind ?_ fun _ => ⟨⟨h, rfl⟩, fun _ => trivial⟩
  cases reset with
  | true => exact calls_resetRvector
  | false => trivial

end calls

private theorem calls_performAction (type : RmgActionType) (reset : Bool) :
    (performAction type reset event).Calls
      (Op.Serves event fun t => t = .contextRestart → type = .contextReset) := by
  cases type with
  | serviceIgnore => exact calls_resetRvector
  | serviceReset | publicDataReset | privateDataReset | serviceDisable => exact calls_pushThenRelax (by simp) reset
  | contextReset | platformRestart => exact calls_resetThenPush (by simp) reset
  | factoryReset => exact ⟨⟨by simp, rfl⟩, fun _ => trivial⟩
  | invalid | guruMeditation => trivial

private theorem triple_escalate {s : String} {v : Int} (hd : d.type = .serviceCrashed) (hs : d.serviceName = some s)
    {j : Journal} (hsel : actionAt (j.actionsOf s) (j.rvectorOf s) = .contextReset → m) :
    Triple machine Unreliable (Counting m event d j) (escalate event v) (fun _ => Held m none)
      fun w => ∃ u, Held m u w := by
  refine Triple.bind ((triple_load fun w h => h.1.object).weaken (fun _ h => h) (fun _ _ h => h)
    fun _ => held_of_counting) fun e => Triple.of_prop ?_
  rintro rfl
  rw [hs]
  refine Triple.bind ((triple_getServiceAction s).weaken (fun _ h => h) (fun _ _ h => h)
    fun _ => held_of_counting) fun r => ?_
  obtain ⟨type, err⟩ := r
  cases err with
  | true => exact .ret fun _ h => h.1.1.toHeld
  | false =>
    have hpre : ∀ w : Instance, (Counting m event e j w ∧ (false = false → type =
        actionAt (w.journal.actionsOf s) (w.journal.rvectorOf s))) → (type = .contextReset → m) ∧
          Serving m (some event) event e w := by
      rintro w ⟨⟨h, rfl⟩, ht⟩
      refine ⟨fun hc => hsel ((ht rfl).symm.trans hc), ⟨⟨h.dispatcher, h.executor, h.request, h.remote, ?_⟩,
        h.allocated, h.object⟩⟩
      exact fun event' hx hc => ⟨(h.own event' hx hc).1, fun _ => (h.own event' hx hc).2 (by simp)⟩
    refine Triple.weaken (Triple.of_prop fun hm => ?_) hpre (fun _ _ h => h) fun _ h => h
    have hserve : ∀ {α : Type} {p : Proc α}, p.Calls (Op.Serves event fun t => t = .contextRestart →
        type = .contextReset) → Triple machine Unreliable (Serving m (some event) event e) p
          (fun _ => Serving m (some event) event e) fun w => ∃ u, Held m u w := by
      intro α p hp
      refine (triple_serving (hp.mono fun op hop => ?_)).weaken (fun _ h => h) (fun _ _ h => h)
        fun _ => held_of_serving
      cases op with
      | pushExecutor t event' =>
        refine ⟨⟨fun ht => ?_, fun ht _ => ⟨hm (hop.1 ht), rfl⟩⟩, hop.2⟩
        rw [hd] at ht
        cases ht
      | _ => exact hop
    refine Triple.bind (hserve ((calls_getActionColumn _ _ _).mono fun _ h => h.2.serves)) fun r =>
      Triple.bind (hserve ?_) fun _ => Triple.bind (hserve (calls_performAction type r.1)) fun _ =>
        triple_informServiceFailed hd
    unfold reportAction
    split
    · exact ⟨by simp [Op.Serves], fun _ => trivial⟩
    · trivial

private theorem triple_doProcessServiceCrashEvent {j : Journal} (hd : d.type = .serviceCrashed)
    (hsel : ∀ s, d.serviceName = some s → j.hashOf s ≠ 0 →
      actionAt (j.actionsOf s) (j.rvectorOf s + 1) = .contextReset → m) :
    Triple machine Unreliable (Counting m event d j) (doProcessServiceCrashEvent event) (fun _ => Held m none)
      fun w => ∃ u, Held m u w := by
  refine Triple.bind ((triple_load fun w h => h.1.object).weaken (fun _ h => h) (fun _ _ h => h)
    fun _ => held_of_counting) fun e => Triple.of_prop ?_
  rintro rfl
  cases hs : e.serviceName with
  | none => exact .abort fun _ => held_of_counting
  | some s =>
  refine Triple.bind ((triple_getServiceColumn s _ _).weaken (fun _ h => h) (fun _ _ h => h)
    fun _ => held_of_counting) fun r => ?_
  obtain ⟨hash, err⟩ := r
  cases err with
  | true => exact .ret fun _ h => h.1.1.toHeld
  | false =>
  show Triple _ _ _ (if hash = 0 then _ else _) _ _
  by_cases hh : hash = 0
  · rw [if_pos hh]
    have hcalls : (output (.noRecoveryUnit (some s) e.cause)).Calls
        (Op.Serves event (Allowed m none event e.type)) := ⟨by simp [Op.Serves], fun _ => trivial⟩
    exact (triple_serving hcalls).weaken (fun _ h => h.1.1) (fun _ _ h => h.toHeld) fun _ => held_of_serving
  rw [if_neg hh]
  refine Triple.bind ((triple_getServiceColumn s _ _).weaken (fun _ h => h) (fun _ _ h => h)
    fun _ h => held_of_counting h.1) fun r => ?_
  obtain ⟨v, err⟩ := r
  cases err with
  | true => exact .ret fun _ h => h.1.1.1.toHeld
  | false =>
  have hpre : ∀ w : Instance, ((Counting m event e j w ∧ ((hash, false).2 = false →
    (hash, false).1 = w.journal.hashOf s)) ∧
      ((v, false).2 = false → (v, false).1 = w.journal.rvectorOf s)) →
        (j.hashOf s ≠ 0 ∧ v = j.rvectorOf s) ∧ Counting m event e j w := by
    rintro w ⟨⟨⟨h, rfl⟩, hhash⟩, hv⟩
    exact ⟨⟨fun h0 => hh ((hhash rfl).trans h0), hv rfl⟩, h, rfl⟩
  refine Triple.weaken (Triple.of_prop ?_) hpre (fun _ _ h => h) fun _ h => h
  rintro ⟨hj, rfl⟩
  refine Triple.bind triple_setRvector fun st => ?_
  cases st with
  | error => exact .ret fun _ h => h.1.toHeld
  | ok =>
  refine (triple_escalate (j := j.setRvector s (j.rvectorOf s + 1)) hd hs fun ha => ?_).weaken
    (fun w h => ⟨h.1, h.2 rfl⟩) (fun _ _ h => h) fun _ h => h
  rw [Journal.rvectorOf_setRvector hj] at ha
  exact hsel s hs hj ha

/-! ### New events -/

private theorem Held.alloc (h : Held m none w) (e : RmgDEvent) (cause : Option Cause) :
    Serving m none w.allocated { e with cause := cause.getD ⟨w.ident, w.allocated⟩ } (w.alloc e cause) := by
  have hsame : ∀ event, event < w.allocated → (w.alloc e cause).heap event = w.heap event :=
    fun event hlt => Function.update_of_ne (Nat.ne_of_lt hlt) _ _
  constructor
  · constructor
    · exact fun event hx => Nat.lt_succ_of_lt (h.dispatcher event hx)
    · exact fun x hx => Nat.lt_succ_of_lt (h.executor x hx)
    · intro msg event hm ht
      obtain ⟨hlt, hr⟩ := h.request msg event hm ht
      rw [hsame event hlt]
      exact ⟨Nat.lt_succ_of_lt hlt, hr⟩
    · intro type event hx hr
      rw [hsame event (h.executor _ hx)] at hr
      exact h.remote type event hx hr
    · intro event hx hc
      rw [hsame event (h.executor _ hx)] at hc ⊢
      exact h.own event hx hc
  · exact Nat.lt_succ_self _
  · exact Function.update_self ..

private theorem Serving.pushDispatcher (h : Serving m none event d w) : Held m none (w.pushDispatcher event) := by
  refine ⟨fun event' hx => ?_, h.executor, h.request, h.remote, h.own⟩
  rcases List.mem_append.1 hx with hx | hx
  · exact h.dispatcher event' hx
  · rw [List.mem_singleton.1 hx]
    exact h.allocated

private theorem Serving.received {msg : RmgMessage} (h : Serving m none event d w)
    (hd : msg.type = .requestContextRestart → d.type = .remoteContextRestart ∧ d.contextName = msg.contextName) :
    Serving m none event d (w.emit (.received msg event)) := by
  refine ⟨⟨h.dispatcher, h.executor, fun msg' event' hm ht => ?_, h.remote, h.own⟩, h.allocated, h.object⟩
  rcases List.mem_append.1 hm with hm | hm
  · exact h.request msg' event' hm ht
  · obtain ⟨rfl, rfl⟩ := Output.received.inj (List.mem_singleton.1 hm)
    show event' < w.allocated ∧ (w.heap event').type = _ ∧ (w.heap event').contextName = _
    rw [h.object]
    exact ⟨h.allocated, hd ht⟩

private theorem triple_newEvent {p : EventRef → Proc PUnit} {Q : Instance → Prop} (e : RmgDEvent) (cause : Option Cause)
    (hp : ∀ event d, { d with cause := e.cause } = e →
      Triple machine Unreliable (Serving m none event d) (p event) (fun _ => Q) fun w => ∃ u, Held m u w) :
    Triple machine Unreliable (Held m none) (.call (.newEvent e cause) p) (fun _ => Q) fun w => ∃ u, Held m u w := by
  refine .call (fun _ h => ⟨none, h⟩)
    (R := fun event w => ∃ d : RmgDEvent, { d with cause := e.cause } = e ∧ Serving m none event d w)
    (fun w _ _ h => ⟨{ e with cause := cause.getD ⟨w.ident, w.allocated⟩ }, rfl, h.alloc e cause⟩) fun event =>
    Triple.exists fun d => Triple.of_prop fun hd => hp event d hd

private theorem triple_pushDispatcher : Triple machine Unreliable (Serving m none event d)
    (rmgDispatcherPushServiceEvent event) (fun _ => Held m none) fun w => ∃ u, Held m u w :=
  .call (fun _ => held_of_serving) (R := fun _ => Held m none) (fun _ _ _ h => h.pushDispatcher)
    fun _ => .ret fun _ h => h

private theorem triple_received {e : RmgDEvent} {msg : RmgMessage}
    (he : msg.type = .requestContextRestart → e.type = .remoteContextRestart ∧ e.contextName = msg.contextName) :
    Triple machine Unreliable (Held m none)
      (.call (.newEvent e (some msg.cause)) fun event => do
        output (.received msg event)
        rmgDispatcherPushServiceEvent event)
      (fun _ => Held m none) fun w => ∃ u, Held m u w := by
  refine triple_newEvent e _ fun event d hd => ?_
  have hd' : msg.type = .requestContextRestart → d.type = .remoteContextRestart ∧ d.contextName = msg.contextName := by
    rw [← hd] at he
    exact he
  exact .call (fun _ => held_of_serving) (R := fun _ => Serving m none event d) (fun w _ _ h => h.received hd')
    fun _ => triple_pushDispatcher

/-! ### Callbacks -/

private theorem triple_clientProcessMessage (sockfd : Nat) (msg : RmgMessage) :
    Triple machine Unreliable (Held m none) (clientProcessMessage sockfd msg) (fun _ => Held m none)
      fun w => ∃ u, Held m u w := by
  unfold clientProcessMessage
  split
  · exact .call (fun _ h => ⟨none, h⟩) (R := fun _ => Held m none)
      (fun _ _ _ h => h.of_eq rfl rfl rfl rfl rfl fun _ _ hm => hm) fun _ => .ret fun _ h => h
  · exact triple_received fun _ => ⟨rfl, rfl⟩
  · rename_i ht
    exact triple_received fun h => by rw [ht] at h; cases h
  · rename_i ht
    exact triple_received fun h => by rw [ht] at h; cases h
  · rename_i ht
    exact triple_received fun h => by rw [ht] at h; cases h
  · exact .ret fun _ h => h

private theorem triple_managerProcessMessage (msg : RmgMessage) :
    Triple machine Unreliable (Held m none) (managerProcessMessage msg) (fun _ => Held m none)
      fun w => ∃ u, Held m u w := by
  unfold managerProcessMessage
  split
  · rename_i ht
    exact triple_received fun h => by rw [ht] at h; cases h
  · rename_i ht
    exact triple_received fun h => by rw [ht] at h; cases h
  · exact .ret fun _ h => h

private theorem triple_dispatcherSourceCallback {j : Journal} (hsel : d.type = .serviceCrashed → ∀ s,
      d.serviceName = some s → j.hashOf s ≠ 0 →
        actionAt (j.actionsOf s) (j.rvectorOf s + 1) = .contextReset → m) :
    Triple machine Unreliable (Counting m event d j) (dispatcherSourceCallback event) (fun _ => Held m none)
      fun w => ∃ u, Held m u w := by
  refine Triple.bind ((triple_load fun w h => h.1.object).weaken (fun _ h => h) (fun _ _ h => h)
    fun _ => held_of_counting) fun e => Triple.of_prop ?_
  rintro rfl
  have hserve : ∀ {p : Proc PUnit}, p.Calls (Op.Serves event (Allowed m none event e.type)) →
      Triple machine Unreliable (Counting m event e j) p (fun _ => Held m none) fun w => ∃ u, Held m u w := by
    intro p hp
    exact (triple_serving hp).weaken (fun _ h => h.1) (fun _ _ h => h.toHeld) fun _ => held_of_serving
  have hallow : ∀ type, e.type ≠ .remoteContextRestart → e.type ≠ .serviceCrashed →
      Allowed m none event e.type type := fun type h₁ h₂ => ⟨fun h => absurd h h₁, fun _ h => absurd h h₂⟩
  cases ht : e.type with
  | informProcessCrash =>
    exact hserve ((calls_doFriendProcessCrashEvent event).mono fun _ h =>
      h.serves (hallow _ (by simp [ht]) (by simp [ht])))
  | informServiceFailed =>
    exact hserve ((calls_doFriendServiceFailedEvent event).mono fun _ h =>
      h.serves (hallow _ (by simp [ht]) (by simp [ht])))
  | serviceCrashed =>
    refine .call (fun _ => held_of_counting) (R := fun _ => Counting m event e j) (fun w _ _ h => ⟨?_, h.2⟩) fun _ =>
      triple_doProcessServiceCrashEvent ht (hsel ht)
    have hop : Op.Serves event (fun _ => False) (.emit (.crashDetected e.serviceName e.cause)) := by simp [Op.Serves]
    exact h.1.apply (e := true) hop
  | remoteContextRestart =>
    refine hserve ⟨⟨⟨fun _ => rfl, fun _ h => ?_⟩, rfl⟩, fun _ => trivial⟩
    rw [ht] at h
    cases h
  | remotePlatformRestart => exact hserve ⟨⟨hallow _ (by simp [ht]) (by simp [ht]), rfl⟩, fun _ => trivial⟩
  | remoteFactoryReset => exact hserve ⟨⟨hallow _ (by simp [ht]) (by simp [ht]), rfl⟩, fun _ => trivial⟩
  | serviceRestarted | unknown => exact hserve trivial

end held

/-! ### Runs -/

section runs
variable {glib : GLib} {m : Prop} {w₀ w w' : Instance} {l : Label} {ls : List Label}

/-- Only a process that has ended leaves the handling of an event open. -/
private def HeldBetween (m : Prop) (w : Instance) : Prop := ∃ u, Held m u w ∧ (w.running = true → u = none)

private theorem HeldBetween.none (h : HeldBetween m w) (hr : w.running = true) : Held m none w := by
  obtain ⟨u, h, hu⟩ := h
  rw [hu hr] at h
  exact h

private theorem heldBetween_of_faultyStep (h : FaultyStep glib w l w') (hw : HeldBetween m w)
    (hm : w.SelectsContextRestart l → m) : HeldBetween m w' := by
  have hrun := fun hl => hw.none (h.running hl)
  have hends := h.ends (Q := Held m Option.none) (C := fun w => ∃ u, Held m u w) fun w₀ p hc => ?_
  · rcases hends with hq | ⟨w₁, ⟨u, hc⟩, rfl⟩
    · exact ⟨Option.none, hq, fun _ => rfl⟩
    · exact ⟨u, hc.of_eq rfl rfl rfl rfl rfl fun _ _ hm => hm, fun h => by cases h⟩
  cases hc with
  | crash service => exact ⟨_, hrun (by simp), triple_newEvent _ _ fun event d _ => triple_pushDispatcher⟩
  | restarted service => exact ⟨_, hrun (by simp), triple_newEvent _ _ fun event d _ => triple_pushDispatcher⟩
  | newCrash process context => exact ⟨_, hrun (by simp), triple_newEvent _ _ fun event d _ => triple_pushDispatcher⟩
  | fromReplica sockfd msg => exact ⟨_, hrun (by simp), triple_clientProcessMessage sockfd msg⟩
  | fromPrimary msg => exact ⟨_, hrun (by simp), triple_managerProcessMessage msg⟩
  | @dispatch event queue hq =>
    have hh := hrun (by simp)
    refine ⟨Counting m event (w.heap event) w.journal, ⟨⟨⟨fun event' hx => ?_, hh.executor, hh.request, hh.remote,
      hh.own⟩, hh.dispatcher event (by simp [hq]), rfl⟩, rfl⟩, triple_dispatcherSourceCallback fun ht s hs hj ha => ?_⟩
    · exact hh.dispatcher event' (by rw [hq]; exact List.mem_cons_of_mem _ hx)
    · exact hm ⟨rfl, event, by rw [hq]; rfl, ht, s, hs, hj, ha⟩
  | @execute type event queue hq =>
    have hh := hrun (by simp)
    have hsub : ∀ x ∈ queue, x ∈ w.executorQueue := fun x hx => by rw [hq]; exact List.mem_cons_of_mem _ hx
    have hcalls := (calls_executorSourceCallback type event).mono fun _ h => h.serves_none event
    exact ⟨_, ⟨hh.dispatcher, fun x hx => hh.executor x (hsub x hx), hh.request,
      fun type event hx => hh.remote type event (hsub _ hx), fun event hx => hh.own event (hsub _ hx)⟩,
      (triple_held hcalls).weaken (fun _ h => h) (fun _ _ h => h) fun _ h => ⟨_, h⟩⟩
  | @expire source hsrc hd =>
    have hcalls := (calls_timerCallback source.data).mono fun _ h => h.serves_none 0
    exact ⟨_, (hrun (by simp)).of_trace rfl rfl rfl rfl rfl rfl (by simp),
      (triple_held hcalls).weaken (fun _ h => h) (fun _ _ h => h) fun _ h => ⟨_, h⟩⟩
  | tick => exact ⟨Held m Option.none, (hrun (by simp)).of_eq rfl rfl rfl rfl rfl fun _ _ hm => hm, .ret fun _ h => h⟩
  | restart gdir =>
    obtain ⟨u, hh, -⟩ := hw
    have hcalls := (calls_boot glib gdir).mono fun _ h => h.serves_none 0
    refine ⟨Held m Option.none, ⟨?_, ?_, hh.request, ?_, ?_⟩,
      (triple_held hcalls).weaken (fun _ h => h) (fun _ _ h => h) fun _ h => ⟨_, h⟩⟩
    · exact fun _ hx => absurd hx List.not_mem_nil
    · exact fun _ hx => absurd hx List.not_mem_nil
    · exact fun _ _ hx => absurd hx List.not_mem_nil
    · exact fun _ hx => absurd hx List.not_mem_nil

private theorem heldBetween_of_fresh (h0 : Fresh w₀) : HeldBetween m w₀ := by
  refine ⟨Option.none, ⟨?_, ?_, ?_, ?_, ?_⟩, fun _ => rfl⟩
  · rw [h0.dispatcherQueue]
    exact fun _ hx => absurd hx List.not_mem_nil
  · rw [h0.executorQueue]
    exact fun _ hx => absurd hx List.not_mem_nil
  · rw [h0.trace]
    exact fun _ _ hx => absurd hx List.not_mem_nil
  · rw [h0.executorQueue]
    exact fun _ _ hx => absurd hx List.not_mem_nil
  · rw [h0.executorQueue]
    exact fun _ hx => absurd hx List.not_mem_nil

private theorem runMode_of_faultyRuns (h : FaultyRuns glib w₀ ls w) : w.runMode = w₀.runMode := by
  have hi : w.identity = w₀.identity := h.invariant (I := fun w => w.identity = w₀.identity) rfl
    fun _ _ _ hi hs => hs.identity.trans hi
  exact congrArg Identity.runMode hi

/-- Every request from a replica reboots the container of that name. -/
private theorem Held.container {u : Option EventRef} (h : Held m u w) (hmode : w.runMode = .primary)
    (hown : ∀ event queue, w.executorQueue = (.contextRestart, event) :: queue →
      (w.heap event).type ≠ .serviceCrashed) : w.TellsContextsApart := by
  refine ⟨fun event queue hq ht => absurd ht (hown event queue hq), fun msg c event type queue hm ht hc hq => ?_⟩
  obtain ⟨-, hr, hname⟩ := h.request msg event hm ht
  obtain rfl := h.remote type event (by simp [hq]) hr
  exact ⟨rfl, hname.trans hc, sameExec_of_contextName_some hmode (hname.trans hc)⟩

/-- As long as no own crash selects a context restart, contexts are told apart; and the executor takes the own context
for a container exactly when its next event is such a restart. -/
theorem contexts_told_apart_iff (h0 : Fresh w₀) (hmode : w₀.runMode = .primary) :
    (∀ ls w, Transition.Run (fun w l w' => FaultyStep glib w l w' ∧ ¬ w.SelectsContextRestart l) w₀ ls w →
      w.TellsContextsApart) ∧
    ∀ ls w, FaultyRuns glib w₀ ls w → w.running → (w.TellsContextsApart ↔ ¬ w.OwnContextRestartNext) := by
  constructor
  · intro ls w hr
    have hmode' := (runMode_of_faultyRuns (hr.mono fun _ _ _ h => h.1)).trans hmode
    obtain ⟨u, h, -⟩ : HeldBetween False w := hr.invariant (heldBetween_of_fresh h0) fun _ _ _ hw hs =>
      heldBetween_of_faultyStep hs.1 hw fun hsel => hs.2 hsel
    exact h.container hmode' fun event queue hq ht => (h.own event (by simp [hq]) ht).1
  · intro ls w hr hrun
    have hmode' := (runMode_of_faultyRuns hr).trans hmode
    have hw : HeldBetween True w := hr.invariant (heldBetween_of_fresh h0) fun _ _ _ hw hs =>
      heldBetween_of_faultyStep hs hw fun _ => trivial
    have h := hw.none hrun
    constructor
    · rintro ha ⟨event, queue, hq, ht⟩
      have hname := (h.own event (by simp [hq]) ht).2 (by simp)
      exact not_sameExec_of_contextName_some (w := { w with executorQueue := queue }) hmode' hname
        (ha.own event queue hq ht)
    · exact fun ha => h.container hmode' fun event queue hq ht => ha ⟨event, queue, hq, ht⟩

end runs

/-! ### A request, and a crash that selects a context restart -/

/-- A request of the replica named `c1`, taken from the dispatcher queue. -/
def contextRequest : Option Instance :=
  (initial .primary "host").replayed (.reading [])
    [.fromReplica 3 ⟨.requestContextRestart, none, some "a.service", some "c1", ⟨1, 0⟩⟩, .dispatch]

private theorem contextRequest_isSome : contextRequest.isSome := by decide +kernel

theorem contexts_told_apart_of_request : (contextRequest.get contextRequest_isSome).TellsContextsApart := by
  have hr := (runs_of_replayed (Option.some_get contextRequest_isSome).symm).mono fun _ _ _ => Step.faulty
  have hiff := (contexts_told_apart_iff (fresh_initial .primary "host") rfl).2 _ _ hr (by decide +kernel)
  refine hiff.2 ?_
  rintro ⟨event, queue, hq, ht⟩
  have hq' : (contextRequest.get contextRequest_isSome).executorQueue = [(.contextRestart, 0)] := by decide +kernel
  obtain ⟨h, -⟩ := List.cons.inj (hq'.symm.trans hq)
  obtain ⟨-, rfl⟩ := Prod.mk.inj h
  have ht' : ((contextRequest.get contextRequest_isSome).heap 0).type ≠ .serviceCrashed := by decide +kernel
  exact ht' ht

def contextUnit : List Tag := Tag.unit "a.service" [] [("contextRestart", "1", "false")]

/-- A boot with one unit, and a crash. -/
def contextCrash : Option Instance :=
  (initial .primary "host").replayed (.reading [contextUnit])
    (.restart (directory [contextUnit]) :: crashLabels "a.service" 1)

private theorem contextCrash_isSome : contextCrash.isSome := by decide +kernel

private theorem runs_contextCrash : FaultyRuns (.reading [contextUnit]) (initial .primary "host")
    (.restart (directory [contextUnit]) :: crashLabels "a.service" 1) (contextCrash.get contextCrash_isSome) :=
  (runs_of_replayed (Option.some_get contextCrash_isSome).symm).mono fun _ _ _ => Step.faulty

/-- The restart for the crash of an own service becomes the reboot of a container. -/
theorem own_context_taken_for_container : ¬ ∀ (glib : GLib) (w₀ w : Instance) (ls : List Label), Fresh w₀ →
    w₀.runMode = .primary → FaultyRuns glib w₀ ls w → w.TellsContextsApart := by
  intro h
  have ha := h _ _ _ _ (fresh_initial _ _) rfl runs_contextCrash
  have hq : (contextCrash.get contextCrash_isSome).executorQueue = [(.contextRestart, 0)] := by decide +kernel
  have ht : ((contextCrash.get contextCrash_isSome).heap 0).type = .serviceCrashed := by decide +kernel
  have hc : ((contextCrash.get contextCrash_isSome).heap 0).contextName = some "host" := by decide +kernel
  have hmode : (contextCrash.get contextCrash_isSome).runMode = .primary := by decide +kernel
  generalize contextCrash.get contextCrash_isSome = w at ha hq ht hc hmode
  exact not_sameExec_of_contextName_some (w := { w with executorQueue := [] }) hmode hc (ha.own 0 [] hq ht)

end Instance

end RecoveryManager
