import RecoveryManager.Boot
import RecoveryManager.Lib.Recording
import RecoveryManager.Lib.RefCount
import RecoveryManager.Profile
import RecoveryManager.UnitSource
import RecoveryManager.Unreliable

/-!
# The lifetimes of events

`rmg-devent.c` counts the references to an event object.  The reference made with the object goes to the dispatcher
queue; `post_executor_event` takes another one for the executor; the two source callbacks release theirs at their end.
What a process does with its events since it came up is noted in a `Ledger` next to its state, the counts included.

* No event is touched after it has been freed, and each is freed exactly once, when neither queue holds it any more
  (`events_freed_once`).
* The dispatcher handles the events in the order they were made, the executor what was posted in the order it was
  posted, and an event is posted at most once (`events_handled_in_order`).
-/

namespace RecoveryManager

open Fallible Fallible.Prog

/-! ### The ledger -/

/-- What a process has done with its events. -/
structure Ledger where
  events : RefCount.Store EventRef
  /-- What the dispatcher took from its queue. -/
  handled : List EventRef
  /-- What was posted to the executor. -/
  posted : List (ExecutorEventType × EventRef)
  /-- What the executor took from its queue. -/
  executed : List (ExecutorEventType × EventRef)

namespace Ledger

def empty : Ledger := ⟨.empty, [], [], []⟩

/-- `rmg_devent_new`, `rmg_devent_ref` in `post_executor_event`, and the uses of an event.  A push to the dispatcher
queue hands the reference over. -/
def note (op : Op) (_ : Bool) (w : Instance) (L : Ledger) : Ledger :=
  match op with
  | .newEvent .. => { L with events := L.events.new w.allocated }
  | .load event | .setContextName event _ => { L with events := L.events.use event }
  | .pushExecutor type event => { L with events := L.events.ref event, posted := L.posted ++ [(type, event)] }
  | _ => L

/-- The start of a callback; with the process its memory goes. -/
def opened (L : Ledger) (w : Instance) : Label → Ledger
  | .restart _ => .empty
  | .dispatch => { L with handled := L.handled ++ w.dispatcherQueue.head?.toList }
  | .execute => { L with executed := L.executed ++ w.executorQueue.head?.toList }
  | _ => L

/-- The last lines of the two source callbacks: `rmg_devent_unref`. -/
def closed (L : Ledger) (taken : List EventRef) : Outcome PUnit → Ledger
  | .done _ => { L with events := taken.foldl RefCount.Store.unref L.events }
  | _ => L

end Ledger

namespace Instance

/-- The event a source callback takes from its queue. -/
def taken (w : Instance) : Label → List EventRef
  | .dispatch => w.dispatcherQueue.head?.toList
  | .execute => (w.executorQueue.head?.map Prod.snd).toList
  | _ => []

def accountedMachine : Machine Op Op.Res Bool (Instance × Ledger) := machine.recording Ledger.note

/-- A step with its ledger. -/
def AccountedStep (glib : GLib) (x : Instance × Ledger) (l : Label) (y : Instance × Ledger) : Prop :=
  ∃ w₀ p o y₁, x.1.enabled glib l = some (w₀, p) ∧
    Exec accountedMachine Unreliable p (w₀, x.2.opened x.1 l) o y₁ ∧ y = (ended o y₁.1, y₁.2.closed (x.1.taken l) o)

variable {glib : GLib} {x y : Instance × Ledger} {l : Label}

theorem AccountedStep.faulty (h : AccountedStep glib x l y) : FaultyStep glib x.1 l y.1 := by
  obtain ⟨w₀, p, o, y₁, he, hx, rfl⟩ := h
  exact ⟨w₀, p, o, y₁.1, he, hx.of_recording, rfl⟩

/-- A ledger can be kept of any run. -/
theorem exists_accounted {w w' : Instance} {ls : List Label} (h : FaultyRuns glib w ls w') (L : Ledger) :
    ∃ L', Transition.Run (AccountedStep glib) (w, L) ls (w', L') := by
  induction h with
  | nil => exact ⟨L, .nil⟩
  | @snoc ls t u l _ hstep ih =>
    obtain ⟨L₁, h₁⟩ := ih
    obtain ⟨w₀, p, o, w₁, he, hx, rfl⟩ := hstep
    obtain ⟨L₂, h₂⟩ : ∃ L₂, Exec accountedMachine Unreliable p (w₀, L₁.opened t l) o (w₁, L₂) := hx.recorded _
    exact ⟨_, h₁.snoc ⟨w₀, p, o, (w₁, L₂), he, h₂, rfl⟩⟩

end Instance

/-! ### Operations on the event at hand -/

/-- The operations that read no event but those of `held`, and neither write nor queue one. -/
def Op.Tends (held : List EventRef) : Op → Prop
  | .load event => event ∈ held
  | .newEvent .. | .setContextName .. | .pushDispatcher _ | .pushExecutor .. => False
  | _ => True

theorem Op.Attending.tends {held : List EventRef} {op : Op} (h : op.Attending held) : op.Tends held := by
  cases op with
  | load event => exact h
  | newEvent | setContextName | pushDispatcher | pushExecutor => exact h.elim
  | _ => trivial

section calls
variable {held : List EventRef} {event : EventRef}

private theorem calls_select_tends {q : Sql} : (sqliteExec q).Calls (Op.Tends held) := ⟨trivial, fun _ => trivial⟩

theorem calls_service_tends {α : Type} (service : Option String) (response : α) (column : ServiceRow → α) :
    (getServiceColumn service response column).Calls (Op.Tends held) :=
  (calls_gAssertName service).bind fun _ => calls_select_tends.bind fun r => by cases r <;> trivial

theorem calls_action_tends {α : Type} (service : Option String) (response : α) (column : ActionRow → α) :
    (getActionColumn service response column).Calls (Op.Tends held) :=
  (calls_gAssertName service).bind fun _ => (calls_service_tends _ _ _).bind fun _ =>
    calls_select_tends.bind fun r => by cases r <;> trivial

theorem calls_setRvector_tends (service : Option String) (v : Int) :
    (rmgJournalSetRvector service v).Calls (Op.Tends held) :=
  (calls_gAssertName service).bind fun _ => calls_select_tends.bind fun r => by cases r <;> trivial

private theorem calls_relax_tends (service : Option String) :
    (rmgRelaxtimerTrigger service).Calls (Op.Tends held) := by
  refine (calls_gAssertName service).bind fun name => (calls_service_tends _ _ _).bind fun r => ?_
  dsimp only
  split
  · trivial
  · refine (calls_service_tends _ _ _).bind fun r' => ?_
    split
    · trivial
    · exact ⟨trivial, fun _ => trivial⟩

private theorem calls_onRunMode_tends {primary replica : Proc PUnit} (hp : primary.Calls (Op.Tends held))
    (hr : replica.Calls (Op.Tends held)) : (onRunMode primary replica).Calls (Op.Tends held) := by
  refine ⟨trivial, fun r => ?_⟩
  cases r with
  | primary => exact hp
  | replica => exact hr

theorem calls_load_tends : (load event).Calls (Op.Tends [event]) :=
  ⟨List.mem_singleton_self _, fun _ => trivial⟩

theorem calls_output_tends (o : Output) : (output o).Calls (Op.Tends held) := ⟨trivial, fun _ => trivial⟩

private theorem calls_setProcessName' {K : Op → Prop} (msg : RmgMessage) (name : Option String) :
    (rmgMessageSetProcessName msg name).Calls K :=
  (calls_gAssertName name).bind fun _ => calls_pure _

private theorem calls_setServiceName' {K : Op → Prop} (msg : RmgMessage) (name : Option String) :
    (rmgMessageSetServiceName msg name).Calls K :=
  (calls_gAssertName name).bind fun _ => calls_pure _

private theorem calls_setContextName' {K : Op → Prop} (msg : RmgMessage) (name : Option String) :
    (rmgMessageSetContextName msg name).Calls K :=
  (calls_gAssertName name).bind fun _ => calls_pure _

private theorem calls_clients_tends {callback : RmgClient → Proc PUnit}
    (h : ∀ c, (callback c).Calls (Op.Tends held)) : (foreachClient callback).Calls (Op.Tends held) :=
  ⟨trivial, fun _ => .forM fun c _ => h c⟩

/-! ### The dispatcher -/

theorem calls_informCrash_tends :
    (onRunMode (foreachClient (foreachClientNotifyProcessCrash event)) (pure ⟨⟩)).Calls (Op.Tends [event]) := by
  refine calls_onRunMode_tends (calls_clients_tends fun c => ?_) trivial
  exact calls_load_tends.bind fun _ => (calls_setProcessName' _ _).bind fun _ =>
    (calls_setContextName' _ _).bind fun _ => ⟨trivial, fun _ => trivial⟩

theorem calls_informFailed_tends :
    (onRunMode (foreachClient (foreachClientNotifyServiceFailed event))
      (informPrimaryServiceFailed event)).Calls (Op.Tends [event]) := by
  refine calls_onRunMode_tends (calls_clients_tends fun c => calls_load_tends.bind fun e => ?_) ?_
  · show Calls _ (if _ then _ else _)
    split
    · exact (calls_setServiceName' _ _).bind fun _ => (calls_setContextName' _ _).bind fun _ =>
        ⟨trivial, fun _ => trivial⟩
    · trivial
  · exact calls_load_tends.bind fun _ => (calls_setServiceName' _ _).bind fun _ =>
      (calls_setContextName' _ _).bind fun _ => ⟨trivial, fun _ => trivial⟩

theorem calls_resetRvector_tends : (resetRvector event).Calls (Op.Tends [event]) :=
  calls_load_tends.bind fun _ => (calls_setRvector_tends _ _).bind fun _ => trivial

theorem calls_relaxtimerStart_tends : (doRelaxtimerStart event).Calls (Op.Tends [event]) :=
  calls_load_tends.bind fun _ => (calls_relax_tends _).bind fun _ => trivial

end calls

/-! ### What a callback has in its hands -/

/-- In the middle of a callback: next to the references in the queues it holds those to `held`; `fresh` has been made
and is in no queue yet; what has been posted so far stems, in order, from `cover`. -/
structure Working (held fresh past cover : List EventRef) (x : Instance × Ledger) : Prop where
  holds : x.2.events.Holds (↑held + (↑x.1.dispatcherQueue + ↑(x.1.executorQueue.map Prod.snd)))
  handled : x.2.handled = past
  order : past ++ x.1.dispatcherQueue ++ fresh = x.2.events.made
  executed : x.2.executed ++ x.1.executorQueue = x.2.posted
  once : (x.2.posted.map Prod.snd).Sublist cover
  below : ∀ e ∈ x.2.events.made, e < x.1.allocated

namespace Working

open Instance

variable {held fresh past cover : List EventRef} {x : Instance × Ledger} {event : EventRef}

theorem faultless (h : Working held fresh past cover x) : x.2.events.faults = [] := h.holds.faults

theorem mono {cover' : List EventRef} (h : Working held fresh past cover x) (hc : cover.Sublist cover') :
    Working held fresh past cover' x :=
  ⟨h.holds, h.handled, h.order, h.executed, h.once.trans hc, h.below⟩

theorem use (h : Working held fresh past cover x) (hm : event ∈ held) :
    Working held fresh past cover (x.1, { x.2 with events := x.2.events.use event }) := by
  have hmade := x.2.events.use_made event
  exact ⟨h.holds.use (Multiset.mem_add.2 (.inl (Multiset.mem_coe.2 hm))), h.handled, h.order.trans hmade.symm,
    h.executed, h.once, fun e hx => h.below e (hmade ▸ hx)⟩

theorem keep {w : Instance} (h : Working held fresh past cover x)
    (hd : w.dispatcherQueue = x.1.dispatcherQueue) (he : w.executorQueue = x.1.executorQueue)
    (ha : w.allocated = x.1.allocated) : Working held fresh past cover (w, x.2) := by
  refine ⟨?_, h.handled, ?_, ?_, h.once, fun e hx => ?_⟩
  · rw [hd, he]
    exact h.holds
  · rw [hd]
    exact h.order
  · rw [he]
    exact h.executed
  · rw [ha]
    exact h.below e hx

theorem apply_tends {op : Op} {e : Bool} (hop : op.Tends held) (h : Working held fresh past cover x) :
    Working held fresh past cover (accountedMachine.apply op e x).2 := by
  cases op with
  | sql q =>
    show Working _ _ _ _ ((apply (.sql q) e x.1).2, x.2)
    rcases apply_sql x.1 q e with h' | ⟨j, -, h'⟩
    · rw [h']
      exact h
    · rw [h', commit]
      split
      · exact h
      · exact h.keep rfl rfl rfl
  | load event => exact h.use hop
  | clientSend => cases e <;> exact h.keep rfl rfl rfl
  | managerSend => cases e <;> exact h.keep rfl rfl rfl
  | newEvent | setContextName | pushDispatcher | pushExecutor => exact hop.elim
  | _ => exact h.keep rfl rfl rfl

theorem setContextName (h : Working held fresh past cover x) (hm : event ∈ held) (name : Option String) (e : Bool) :
    Working held fresh past cover (accountedMachine.apply (.setContextName event name) e x).2 :=
  (h.use hm).keep rfl rfl rfl

/-- `post_executor_event`. -/
theorem post (h : Working held fresh past cover x) (hm : event ∈ held) (type : ExecutorEventType) (e : Bool) :
    Working held fresh past (cover ++ [event]) (accountedMachine.apply (.pushExecutor type event) e x).2 := by
  have hmade := x.2.events.ref_made event
  refine ⟨?_, h.handled, h.order.trans hmade.symm, ?_, ?_, fun e hx => h.below e (hmade ▸ hx)⟩
  · have := h.holds.ref (Multiset.mem_add.2 (.inl (Multiset.mem_coe.2 hm)))
    refine cast (congrArg _ (Multiset.ext.2 fun a => ?_)) this
    show _ = Multiset.count a (↑held + (↑x.1.dispatcherQueue +
      ↑((x.1.executorQueue ++ [(type, event)]).map Prod.snd)))
    simp only [List.map_append, List.map_cons, List.map_nil, Multiset.count_add, Multiset.coe_count,
      List.count_append, Multiset.count_cons, List.count_cons, List.count_nil, beq_iff_eq, eq_comm (a := a)]
    omega
  · show x.2.executed ++ (x.1.executorQueue ++ [(type, event)]) = x.2.posted ++ [(type, event)]
    rw [← List.append_assoc, h.executed]
  · show ((x.2.posted ++ [(type, event)]).map Prod.snd).Sublist _
    rw [List.map_append]
    exact h.once.append (.refl [event])

/-- `rmg_devent_new`. -/
theorem make (h : Working held [] past cover x) (event : RmgDEvent) (cause : Option Cause) (e : Bool) :
    Working (x.1.allocated :: held) [x.1.allocated] past cover
      (accountedMachine.apply (.newEvent event cause) e x).2 := by
  have hnew : x.1.allocated ∉ x.2.events.made := fun hm => (h.below _ hm).false
  refine ⟨?_, h.handled, ?_, h.executed, h.once, fun e hx => ?_⟩
  · exact h.holds.new hnew
  · show past ++ x.1.dispatcherQueue ++ [x.1.allocated] = x.2.events.made ++ [x.1.allocated]
    rw [← h.order, List.append_nil]
  · show e < x.1.allocated + 1
    rcases List.mem_append.1 hx with hx | hx
    · exact Nat.lt_succ_of_lt (h.below e hx)
    · rw [List.mem_singleton.1 hx]
      exact Nat.lt_succ_self _

/-- `rmg_dispatcher_push_service_event`. -/
theorem announce (h : Working (event :: held) [event] past cover x) (e : Bool) :
    Working held [] past cover (accountedMachine.apply (.pushDispatcher event) e x).2 := by
  refine ⟨?_, h.handled, ?_, h.executed, h.once, h.below⟩
  · refine cast (congrArg _ (Multiset.ext.2 fun a => ?_)) h.holds
    show _ = Multiset.count a (↑held + (↑(x.1.dispatcherQueue ++ [event]) + ↑(x.1.executorQueue.map Prod.snd)))
    simp only [Multiset.count_add, Multiset.coe_count, List.count_append, List.count_cons, List.count_nil]
    omega
  · show past ++ (x.1.dispatcherQueue ++ [event]) ++ [] = x.2.events.made
    rw [← h.order, List.append_nil, List.append_assoc]

/-- `rmg_devent_unref`. -/
theorem release (h : Working (event :: held) fresh past cover x) :
    Working held fresh past cover (x.1, { x.2 with events := x.2.events.unref event }) := by
  have hmade := x.2.events.unref_made event
  exact ⟨h.holds.unref, h.handled, h.order.trans hmade.symm, h.executed, h.once, fun e hx => h.below e (hmade ▸ hx)⟩

end Working

/-! ### The callbacks -/

namespace Instance

variable {glib : GLib} {held fresh past cover : List EventRef} {event : EventRef}

/-- Nothing has gone wrong with an event so far. -/
def Faultless (x : Instance × Ledger) : Prop := x.2.events.faults = []

private theorem triple_tends {α : Type} {p : Proc α} (hp : p.Calls (Op.Tends held)) :
    Triple accountedMachine Unreliable (Working held fresh past cover) p
      (fun _ => Working held fresh past cover) Faultless :=
  (Triple.of_calls (fun _ _ _ hop _ h => h.apply_tends hop) hp).weaken (fun _ h => h) (fun _ _ h => h)
    fun _ h => h.faultless

private theorem triple_post (type : ExecutorEventType) (hm : event ∈ held) :
    Triple accountedMachine Unreliable (Working held fresh past cover) (rmgExecutorPushEvent type event)
      (fun _ => Working held fresh past (cover ++ [event])) Faultless :=
  .call (R := fun _ => Working held fresh past (cover ++ [event])) (fun _ h => h.faultless)
    (fun _ e _ h => h.post hm type e) fun _ => .ret fun _ h => h

/-- Whether or not it is posted. -/
private theorem covered (x : Instance × Ledger) (h : Working held fresh past cover x) :
    Working held fresh past (cover ++ [event]) x := h.mono (List.sublist_append_left cover [event])

/-- The event has been given the own context. -/
def OwnContext (event : EventRef) (w : Instance) : Prop := (w.heap event).contextName = some w.hostName

private theorem apply_ownContext {op : Op} {e : Bool} {w : Instance} (hop : op.Tends held) (h : w.OwnContext event) :
    (apply op e w).2.OwnContext event := by
  have hheap : (apply op e w).2.heap = w.heap := by
    cases op with
    | sql q =>
      rcases apply_sql w q e with h' | ⟨j, -, h'⟩
      · rw [h']
      · rw [h', commit]
        split <;> rfl
    | clientSend | managerSend => cases e <;> rfl
    | newEvent | setContextName | pushDispatcher | pushExecutor => exact hop.elim
    | _ => rfl
  unfold OwnContext
  rw [hheap, apply_hostName]
  exact h

private theorem triple_tends_own {α : Type} {p : Proc α} (hp : p.Calls (Op.Tends held)) :
    Triple accountedMachine Unreliable (fun x => Working held fresh past cover x ∧ x.1.OwnContext event) p
      (fun _ x => Working held fresh past cover x ∧ x.1.OwnContext event) Faultless := by
  have hown : Triple machine Unreliable (OwnContext event) p (fun _ => OwnContext event) (OwnContext event) :=
    .of_calls (fun _ _ _ hop _ h => apply_ownContext hop h) hp
  exact ((triple_tends hp).and hown.recording).weaken (fun _ h => h) (fun _ _ h => h) fun _ h => h.1

/-! ### The dispatcher -/

private theorem triple_doFriendProcessCrashEvent :
    Triple accountedMachine Unreliable (Working [event] fresh past cover) (doFriendProcessCrashEvent event)
      (fun _ => Working [event] fresh past (cover ++ [event])) Faultless :=
  (triple_tends calls_informCrash_tends).bind fun _ => triple_post _ (by simp)

private theorem triple_doFriendServiceFailedEvent :
    Triple accountedMachine Unreliable (Working [event] fresh past cover) (doFriendServiceFailedEvent event)
      (fun _ => Working [event] fresh past (cover ++ [event])) Faultless := by
  refine (triple_tends calls_informFailed_tends).bind fun _ => ?_
  refine Triple.bind (triple_tends ⟨trivial, fun _ => trivial⟩) fun hostName =>
    (triple_tends calls_load_tends).bind fun e => ?_
  show Triple _ _ _ (if _ then _ else _) _ _
  split
  · exact triple_post _ (by simp)
  · exact .ret covered

/-- An event with the own context is not posted again. -/
private theorem triple_doFriendServiceFailedEvent_own :
    Triple accountedMachine Unreliable (fun x => Working [event] fresh past cover x ∧ x.1.OwnContext event)
      (doFriendServiceFailedEvent event) (fun _ => Working [event] fresh past cover) Faultless := by
  refine (triple_tends_own calls_informFailed_tends).bind fun _ => ?_
  refine .call (R := fun (hostName : String) x => (Working [event] fresh past cover x ∧ x.1.OwnContext event) ∧
    x.1.hostName = hostName) (fun _ h => h.1.faultless) (fun x e _ h => ⟨⟨h.1.apply_tends (by trivial), h.2⟩, rfl⟩)
    fun (hostName : String) => ?_
  have hload : (Op.load event).Tends [event] := List.mem_singleton_self _
  refine .call (R := fun (d : RmgDEvent) x => Working [event] fresh past cover x ∧ d.contextName = some hostName)
    (fun _ h => h.1.1.faultless) (fun x e _ h => ⟨h.1.1.apply_tends hload, ?_⟩)
    fun (d : RmgDEvent) => ?_
  · rw [← h.2]
    exact h.1.2
  · refine .split (d.contextName = some hostName) (Working [event] fresh past cover) (fun _ h => ⟨h.2, h.1⟩)
      fun hd => ?_
    show Triple _ _ _ (if some hostName ≠ d.contextName then _ else _) _ _
    rw [if_neg (by simp [hd])]
    exact .ret fun _ h => h

private theorem triple_informServiceFailed_working :
    Triple accountedMachine Unreliable (Working [event] fresh past cover) (informServiceFailed event)
      (fun _ => Working [event] fresh past cover) Faultless := by
  refine .call (R := fun hostName x => Working [event] fresh past cover x ∧ x.1.hostName = hostName)
    (fun _ h => h.faultless) (fun x e _ h => ⟨h.apply_tends (by trivial), rfl⟩) fun hostName => ?_
  refine .call (R := fun _ x => Working [event] fresh past cover x ∧ x.1.OwnContext event)
    (fun _ h => h.1.faultless) (fun x e _ h => ⟨h.1.setContextName (by simp) _ e, ?_⟩)
    fun _ => triple_doFriendServiceFailedEvent_own
  show (Function.update x.1.heap event { x.1.heap event with contextName := some hostName } event).contextName = _
  rw [Function.update_self, ← h.2]
  rfl

private theorem triple_covered {α : Type} {p : Proc α} (hp : p.Calls (Op.Tends [event])) :
    Triple accountedMachine Unreliable (Working [event] fresh past cover) p
      (fun _ => Working [event] fresh past (cover ++ [event])) Faultless :=
  (triple_tends hp).weaken (fun _ h => h) (fun _ => covered) fun _ h => h

private theorem triple_pushThenRelax (type : ExecutorEventType) (reset : Bool) :
    Triple accountedMachine Unreliable (Working [event] fresh past cover) (pushThenRelax type event reset)
      (fun _ => Working [event] fresh past (cover ++ [event])) Faultless := by
  refine (triple_post type (by simp)).bind fun _ => triple_tends ?_
  cases reset with
  | true => exact calls_resetRvector_tends
  | false => exact calls_relaxtimerStart_tends

private theorem triple_resetThenPush (type : ExecutorEventType) (reset : Bool) :
    Triple accountedMachine Unreliable (Working [event] fresh past cover) (resetThenPush type event reset)
      (fun _ => Working [event] fresh past (cover ++ [event])) Faultless := by
  refine (triple_tends ?_).bind fun _ => triple_post type (by simp)
  cases reset with
  | true => exact calls_resetRvector_tends
  | false => trivial

private theorem triple_performAction_working (type : RmgActionType) (reset : Bool) :
    Triple accountedMachine Unreliable (Working [event] fresh past cover) (performAction type reset event)
      (fun _ => Working [event] fresh past (cover ++ [event])) Faultless := by
  cases type with
  | serviceIgnore => exact triple_covered calls_resetRvector_tends
  | serviceReset | publicDataReset | privateDataReset | serviceDisable => exact triple_pushThenRelax _ reset
  | contextReset | platformRestart => exact triple_resetThenPush _ reset
  | factoryReset => exact triple_post _ (by simp)
  | invalid | guruMeditation => exact .ret covered

private theorem triple_escalate_working (rvector : Int) :
    Triple accountedMachine Unreliable (Working [event] fresh past cover) (escalate event rvector)
      (fun _ => Working [event] fresh past (cover ++ [event])) Faultless := by
  refine (triple_tends calls_load_tends).bind fun e => (triple_tends (calls_action_tends _ _ _)).bind fun r => ?_
  dsimp only
  split
  · exact .ret covered
  · refine (triple_tends (calls_action_tends _ _ _)).bind fun r' => (triple_tends ?_).bind fun _ =>
      (triple_performAction_working _ _).bind fun _ => triple_informServiceFailed_working
    unfold reportAction
    split
    · exact calls_output_tends _
    · trivial

private theorem triple_doProcessServiceCrashEvent_working :
    Triple accountedMachine Unreliable (Working [event] fresh past cover) (doProcessServiceCrashEvent event)
      (fun _ => Working [event] fresh past (cover ++ [event])) Faultless := by
  refine (triple_tends calls_load_tends).bind fun e => (triple_tends (calls_service_tends _ _ _)).bind fun r => ?_
  dsimp only
  split
  · exact .ret covered
  split
  · exact triple_covered (calls_output_tends _)
  refine (triple_tends (calls_service_tends _ _ _)).bind fun r => ?_
  split
  · exact .ret covered
  refine (triple_tends (calls_setRvector_tends _ _)).bind fun st => ?_
  cases st with
  | ok => exact triple_escalate_working _
  | error => exact .ret covered

/-- Whatever the dispatcher does with an event, it posts it at most once, and nothing else. -/
private theorem triple_dispatcherSourceCallback_working :
    Triple accountedMachine Unreliable (Working [event] fresh past cover) (dispatcherSourceCallback event)
      (fun _ => Working [event] fresh past (cover ++ [event])) Faultless := by
  refine (triple_tends calls_load_tends).bind fun e => ?_
  cases e.type with
  | informProcessCrash => exact triple_doFriendProcessCrashEvent
  | informServiceFailed => exact triple_doFriendServiceFailedEvent
  | serviceCrashed =>
    exact (triple_tends (calls_output_tends _)).bind fun _ => triple_doProcessServiceCrashEvent_working
  | remoteContextRestart | remotePlatformRestart | remoteFactoryReset => exact triple_post _ (by simp)
  | serviceRestarted | unknown => exact .ret covered

/-! ### The executor -/

/-- The executor touches no event but the one it was given. -/
private theorem triple_executorSourceCallback (type : ExecutorEventType) :
    Triple accountedMachine Unreliable (Working [event] fresh past cover) (executorSourceCallback type event)
      (fun _ => Working [event] fresh past cover) Faultless := by
  cases h : type.isRecovery with
  | true =>
    intro x o y hx he
    have hcarried := Triple.of_within (M := accountedMachine) (A := Unreliable)
      (I := fun y => Working [event] fresh past cover y ∧ y.1.runMode = x.1.runMode) (fun op e y ha _ hy => ?_)
      (within_executorSourceCallback h event (fun _ => True) x.1.runMode 0) x o y ⟨hx, rfl⟩ he
    · cases o with
      | done a => exact hcarried.1
      | aborted => exact hcarried.1.faultless
      | killed => exact hcarried.1.faultless
    · refine ⟨⟨hy.1.apply_tends ?_, (congrArg Identity.runMode (apply_identity op e y.1)).trans hy.2⟩, ?_⟩
      · cases op with
        | load event' => exact List.mem_singleton.2 ha
        | newEvent | setContextName | pushDispatcher | pushExecutor => exact ha.elim
        | _ => trivial
      · cases op with
        | getRunMode => exact hy.2
        | _ => trivial
  | false =>
    cases type with
    | friendProcessCrash => exact triple_tends ((calls_friend_attending _ _).mono fun _ => Op.Attending.tends)
    | friendServiceFailed => exact triple_tends ((calls_friend_attending _ _).mono fun _ => Op.Attending.tends)
    | _ => cases h

/-! ### New events -/

/-- A new event, an entry in the log perhaps, and the push. -/
private theorem triple_announce (event : RmgDEvent) (cause : Option Cause) {k : EventRef → Proc PUnit}
    (hk : ∀ e, k e = rmgDispatcherPushServiceEvent e ∨
      ∃ o, k e = (output o >>= fun _ => rmgDispatcherPushServiceEvent e)) :
    Triple accountedMachine Unreliable (Working [] [] past cover) (.call (.newEvent event cause) k)
      (fun _ => Working [] [] past cover) Faultless := by
  refine .call (R := fun e => Working [e] [e] past cover) (fun _ h => h.faultless)
    (fun x e _ h => h.make event cause e) fun e => ?_
  have hpush : Triple accountedMachine Unreliable (Working [e] [e] past cover) (rmgDispatcherPushServiceEvent e)
      (fun _ => Working [] [] past cover) Faultless :=
    .call (R := fun _ => Working [] [] past cover) (fun _ h => h.faultless) (fun _ ok _ h => h.announce ok)
      fun _ => .ret fun _ h => h
  rcases hk e with h | ⟨o, h⟩
  · rw [h]
    exact hpush
  · rw [h]
    exact (triple_tends (calls_output_tends o)).bind fun _ => hpush

private theorem triple_pushServiceEvent (type : DispatcherEventType) (msg : RmgMessage) :
    Triple accountedMachine Unreliable (Working [] [] past cover) (pushServiceEvent type msg)
      (fun _ => Working [] [] past cover) Faultless :=
  triple_announce _ _ fun _ => .inr ⟨_, rfl⟩

private theorem triple_clientProcessMessage_working (sockfd : Nat) (msg : RmgMessage) :
    Triple accountedMachine Unreliable (Working [] [] past cover) (clientProcessMessage sockfd msg)
      (fun _ => Working [] [] past cover) Faultless := by
  unfold clientProcessMessage
  split
  · exact triple_tends ⟨trivial, fun _ => trivial⟩
  · exact triple_pushServiceEvent _ msg
  · exact triple_pushServiceEvent _ msg
  · exact triple_pushServiceEvent _ msg
  · exact triple_pushServiceEvent _ msg
  · exact .ret fun _ h => h

private theorem triple_managerProcessMessage_working (msg : RmgMessage) :
    Triple accountedMachine Unreliable (Working [] [] past cover) (managerProcessMessage msg)
      (fun _ => Working [] [] past cover) Faultless := by
  unfold managerProcessMessage
  split
  · exact triple_announce _ _ fun _ => .inr ⟨_, rfl⟩
  · exact triple_pushServiceEvent _ msg
  · exact .ret fun _ h => h

/-! ### Steps and runs -/

/-- Between two callbacks: the queues hold the only references. -/
def Accounts (x : Instance × Ledger) : Prop :=
  Faultless x ∧ (x.1.running → Working [] [] x.2.handled x.2.handled x)

private theorem working_closed {x : Instance × Ledger} (h : Working held [] past cover x) :
    Working [] [] past cover (x.1, { x.2 with events := held.foldl RefCount.Store.unref x.2.events }) := by
  induction held generalizing x with
  | nil => exact h
  | cons e held ih => exact ih h.release

/-- A callback that returns releases what it took; one that does not takes the process with it. -/
private theorem accounts_of_callback {taken : List EventRef} {p : Proc PUnit} {x y : Instance × Ledger}
    {o : Outcome PUnit} {P : Instance × Ledger → Prop}
    (ht : Triple accountedMachine Unreliable P p (fun _ => Working taken [] past past) Faultless)
    (hP : P x) (hx : Exec accountedMachine Unreliable p x o y) : Accounts (ended o y.1, y.2.closed taken o) := by
  have h := ht x o y hP hx
  cases o with
  | done a =>
    have hw := working_closed (show Working taken [] past past y from h)
    have hpast : (y.2.closed taken (.done a)).handled = past := hw.handled
    refine ⟨hw.faultless, fun _ => ?_⟩
    dsimp only
    rw [hpast]
    exact hw
  | aborted => exact ⟨h, fun hr => by cases hr⟩
  | killed => exact ⟨h, fun hr => by cases hr⟩

private theorem working_restarted (w : Instance) (L : Ledger) (gdir : Option (List UnitFile)) :
    Working [] [] [] [] (w.restarted, L.opened w (.restart gdir)) :=
  ⟨RefCount.Store.holds_empty, rfl, rfl, rfl, .refl [], fun _ h => by simp [Ledger.opened, Ledger.empty,
    RefCount.Store.empty] at h⟩

private theorem working_dispatch {x : Instance × Ledger} {queue : List EventRef}
    (h : Working [] [] x.2.handled x.2.handled x) (hq : x.1.dispatcherQueue = event :: queue) :
    Working [event] [] (x.2.handled ++ [event]) x.2.handled
      ({ x.1 with dispatcherQueue := queue }, x.2.opened x.1 .dispatch) := by
  refine ⟨?_, ?_, ?_, h.executed, h.once, h.below⟩
  · refine cast (congrArg _ (Multiset.ext.2 fun a => ?_)) h.holds
    show _ = Multiset.count a (↑[event] + (↑queue + ↑(x.1.executorQueue.map Prod.snd)))
    rw [hq]
    simp only [Multiset.count_add, Multiset.coe_count, List.count_cons, List.count_nil]
    omega
  · show x.2.handled ++ x.1.dispatcherQueue.head?.toList = _
    rw [hq]
    rfl
  · show x.2.handled ++ [event] ++ queue ++ [] = x.2.events.made
    rw [← h.order, hq, List.append_nil, List.append_nil, List.append_assoc]
    rfl

private theorem working_execute {x : Instance × Ledger} {type : ExecutorEventType}
    {queue : List (ExecutorEventType × EventRef)} (h : Working [] [] x.2.handled x.2.handled x)
    (hq : x.1.executorQueue = (type, event) :: queue) :
    Working [event] [] x.2.handled x.2.handled
      ({ x.1 with executorQueue := queue }, x.2.opened x.1 .execute) := by
  refine ⟨?_, rfl, h.order, ?_, h.once, h.below⟩
  · refine cast (congrArg _ (Multiset.ext.2 fun a => ?_)) h.holds
    show _ = Multiset.count a (↑[event] + (↑x.1.dispatcherQueue + ↑(queue.map Prod.snd)))
    rw [hq]
    simp only [List.map_cons, Multiset.count_add, Multiset.coe_count, List.count_cons, List.count_nil]
    omega
  · show x.2.executed ++ x.1.executorQueue.head?.toList ++ queue = x.2.posted
    rw [← h.executed, hq, List.append_assoc]
    rfl

theorem AccountedStep.accounts {x y : Instance × Ledger} {l : Label} (hs : AccountedStep glib x l y)
    (h : Accounts x) : Accounts y := by
  obtain ⟨w₀, p, o, y₁, he, hx, rfl⟩ := hs
  have hrun : (∀ gdir, l ≠ .restart gdir) → Working [] [] x.2.handled x.2.handled x := fun hl =>
    h.2 (running_of_enabled he hl)
  cases callback_of_enabled he with
  | crash service | restarted service =>
    exact accounts_of_callback (triple_announce _ _ fun _ => .inl rfl) (hrun (by simp)) hx
  | newCrash process context =>
    exact accounts_of_callback (triple_announce _ _ fun _ => .inl rfl) (hrun (by simp)) hx
  | fromReplica sockfd msg =>
    exact accounts_of_callback (triple_clientProcessMessage_working sockfd msg) (hrun (by simp)) hx
  | fromPrimary msg => exact accounts_of_callback (triple_managerProcessMessage_working msg) (hrun (by simp)) hx
  | @dispatch event queue hq =>
    have htaken : x.1.taken .dispatch = [event] := by
      show x.1.dispatcherQueue.head?.toList = _
      rw [hq]
      rfl
    rw [htaken]
    exact accounts_of_callback triple_dispatcherSourceCallback_working (working_dispatch (hrun (by simp)) hq) hx
  | @execute type event queue hq =>
    have htaken : x.1.taken .execute = [event] := by
      show (x.1.executorQueue.head?.map Prod.snd).toList = _
      rw [hq]
      rfl
    rw [htaken]
    exact accounts_of_callback (triple_executorSourceCallback type) (working_execute (hrun (by simp)) hq) hx
  | @expire source hm hd =>
    have hw : Working [] [] x.2.handled x.2.handled
        ({ x.1 with sources := x.1.sources.filter (· ≠ source) }.emit (.timeoutExpired source), x.2) :=
      (hrun (by simp)).keep rfl rfl rfl
    exact accounts_of_callback (triple_tends ((calls_timer_attending source.data).mono fun _ => Op.Attending.tends)) hw
      hx
  | tick =>
    have hw : Working [] [] x.2.handled x.2.handled ({ x.1 with now := x.1.now + 1 }, x.2) :=
      (hrun (by simp)).keep rfl rfl rfl
    exact accounts_of_callback (.ret fun _ h => h) hw hx
  | restart gdir =>
    exact accounts_of_callback (triple_tends ((calls_boot_attending glib gdir).mono fun _ => Op.Attending.tends))
      (working_restarted x.1 x.2 gdir) hx

/-- A dispatch leaves at most one more event with the executor. -/
theorem AccountedStep.executorQueue_le {x y : Instance × Ledger} (hs : AccountedStep glib x .dispatch y)
    (h : Accounts x) (hy : y.1.running) : y.1.executorQueue.length ≤ x.1.executorQueue.length + 1 := by
  obtain ⟨w₀, p, o, y₁, he, hx, rfl⟩ := hs
  have hrun := h.2 (running_of_enabled he (by simp))
  cases callback_of_enabled he with
  | @dispatch event queue hq =>
    have hw := working_dispatch hrun hq
    have hstart : Working [event] [] (x.2.handled ++ [event]) (x.2.posted.map Prod.snd)
        ({ x.1 with dispatcherQueue := queue }, x.2.opened x.1 .dispatch) :=
      ⟨hw.holds, hw.handled, hw.order, hw.executed, .refl _, hw.below⟩
    have hexec : Triple accountedMachine Unreliable (fun y => y.2.executed = x.2.executed)
        (dispatcherSourceCallback event) (fun _ y => y.2.executed = x.2.executed) fun _ => True :=
      (Triple.of_calls (I := fun y => y.2.executed = x.2.executed)
        (fun op _ y _ _ hy => by cases op <;> exact hy) (calls_true _)).weaken (fun _ h => h) (fun _ _ h => h)
        fun _ _ => trivial
    have hend := (triple_dispatcherSourceCallback_working.and hexec) _ o y₁ ⟨hstart, rfl⟩ hx
    cases o with
    | done a =>
      obtain ⟨hend, hexec⟩ : Working _ _ _ _ y₁ ∧ y₁.2.executed = x.2.executed := hend
      have hlen := hend.once.length_le
      have h₁ := congrArg List.length hend.executed
      have h₀ := congrArg List.length hrun.executed
      rw [hexec] at h₁
      simp only [List.length_append, List.length_map, List.length_cons, List.length_nil] at hlen h₁ h₀
      show y₁.1.executorQueue.length ≤ _
      omega
    | aborted => cases hy
    | killed => cases hy

theorem accounts_of_run {w₀ w : Instance} {L : Ledger} {ls : List Label} (h₀ : w₀.Fresh)
    (hr : Transition.Run (AccountedStep glib) (w₀, .empty) ls (w, L)) : Accounts (w, L) := by
  refine hr.invariant ⟨rfl, fun _ => ?_⟩ fun _ _ _ h hs => hs.accounts h
  refine ⟨?_, rfl, ?_, ?_, .refl [], fun _ h => by simp [Ledger.empty, RefCount.Store.empty] at h⟩
  · rw [h₀.dispatcherQueue, h₀.executorQueue]
    exact RefCount.Store.holds_empty
  · show [] ++ w₀.dispatcherQueue ++ [] = []
    rw [h₀.dispatcherQueue]
    rfl
  · show [] ++ w₀.executorQueue = []
    rw [h₀.executorQueue]
    rfl

/-- In every run, with any statement or send failing and the process dying at any operation: no event is used,
referenced or released after it has been freed; while the process runs, the references to an event are its places in the
two queues; and an event that was made has been freed, and once, exactly if neither queue holds it. -/
theorem events_freed_once {w₀ w : Instance} {L : Ledger} {ls : List Label} (h₀ : w₀.Fresh)
    (hr : Transition.Run (AccountedStep glib) (w₀, .empty) ls (w, L)) :
    L.events.faults = [] ∧
      (w.running → (∀ e, L.events.count e = w.dispatcherQueue.count e + (w.executorQueue.map Prod.snd).count e) ∧
        L.events.freed.Nodup ∧
        ∀ e ∈ L.events.made, e ∈ L.events.freed ↔ e ∉ w.dispatcherQueue ∧ e ∉ w.executorQueue.map Prod.snd) := by
  obtain ⟨hf, hw⟩ := accounts_of_run h₀ hr
  refine ⟨hf, fun hrun => ⟨fun e => ?_, (hw hrun).holds.freed, fun e he => ?_⟩⟩
  · rw [(hw hrun).holds.count]
    simp
  · rw [(hw hrun).holds.mem_freed_iff he]
    simp

def resettingUnit : List Tag := Tag.unit "a.service" [] [("resetService", "1", "false")]

/-- A boot with one unit, a crash, and the restart of the service. -/
def crashCarriedOut : Option Instance :=
  (initial .primary "host").replayed (.reading [resettingUnit])
    (.restart (directory [resettingUnit]) :: crashLabels "a.service" 1 ++ [.execute])

private theorem crashCarriedOut_isSome : crashCarriedOut.isSome := by decide +kernel

/-- After that no event is left. -/
theorem events_freed_once_after_crash : ∃ L, Transition.Run (AccountedStep (.reading [resettingUnit]))
    (initial .primary "host", .empty) (.restart (directory [resettingUnit]) :: crashLabels "a.service" 1 ++ [.execute])
      (crashCarriedOut.get crashCarriedOut_isSome, L) ∧ L.events.faults = [] ∧ ∀ e, L.events.count e = 0 := by
  obtain ⟨L, hr⟩ := exists_accounted ((runs_of_replayed (Option.some_get crashCarriedOut_isSome).symm).mono
    fun _ _ _ => Step.faulty) .empty
  obtain ⟨hf, h⟩ := events_freed_once (fresh_initial _ _) hr
  have hrun : (crashCarriedOut.get crashCarriedOut_isSome).running := by decide +kernel
  have hd : (crashCarriedOut.get crashCarriedOut_isSome).dispatcherQueue = [] := by decide +kernel
  have he : (crashCarriedOut.get crashCarriedOut_isSome).executorQueue = [] := by decide +kernel
  refine ⟨L, hr, hf, fun e => ?_⟩
  rw [(h hrun).1 e, hd, he]
  rfl

/-- In every run, while the process runs: what the dispatcher has handled and what waits for it are the events in the
order they were made; what the executor has handled and what waits for it is what was posted; and what was posted stems
from the events the dispatcher has handled, in their order and at most once from each. -/
theorem events_handled_in_order {w₀ w : Instance} {L : Ledger} {ls : List Label} (h₀ : w₀.Fresh)
    (hr : Transition.Run (AccountedStep glib) (w₀, .empty) ls (w, L)) (hrun : w.running) :
    L.handled ++ w.dispatcherQueue = L.events.made ∧ L.executed ++ w.executorQueue = L.posted ∧
      (L.posted.map Prod.snd).Sublist L.handled := by
  have hw := (accounts_of_run h₀ hr).2 hrun
  exact ⟨by simpa using hw.order, hw.executed, hw.once⟩

/-- A boot with one unit, and two crashes the executor has not got to. -/
def crashesPosted : Option Instance :=
  (initial .primary "host").replayed (.reading [resettingUnit])
    (.restart (directory [resettingUnit]) :: crashLabels "a.service" 2)

theorem crashesPosted_isSome : crashesPosted.isSome := by decide +kernel

theorem events_handled_in_order_after_crashes : ∃ L, Transition.Run (AccountedStep (.reading [resettingUnit]))
    (initial .primary "host", .empty) (.restart (directory [resettingUnit]) :: crashLabels "a.service" 2)
      (crashesPosted.get crashesPosted_isSome, L) ∧
        L.executed ++ [(.serviceRestart, 0), (.serviceRestart, 1)] = L.posted ∧ L.handled = L.events.made := by
  obtain ⟨L, hr⟩ := exists_accounted ((runs_of_replayed (Option.some_get crashesPosted_isSome).symm).mono
    fun _ _ _ => Step.faulty) .empty
  obtain ⟨hd, he, -⟩ := events_handled_in_order (fresh_initial _ _) hr (by decide +kernel)
  have hqd : (crashesPosted.get crashesPosted_isSome).dispatcherQueue = [] := by decide +kernel
  have hqe : (crashesPosted.get crashesPosted_isSome).executorQueue =
      [(.serviceRestart, 0), (.serviceRestart, 1)] := by decide +kernel
  rw [hqd, List.append_nil] at hd
  rw [hqe] at he
  exact ⟨L, hr, he, hd⟩

end Instance

end RecoveryManager
