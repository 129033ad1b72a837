import RecoveryManager.Answers
import RecoveryManager.Quiescence

/-!
# Crashes elsewhere

Word of a crash elsewhere comes in with a message or from the crash monitor, waits for the dispatcher, is passed on to
the executor, and waits there.  While the process is up, whatever else happens, the executor is told in this order of
all that came in, and of nothing else (`told_of_run`).
-/

namespace RecoveryManager

open Fallible Fallible.Prog

/-- A crash elsewhere, as the executor is told of it. -/
structure FriendNotice where
  kind : RmgFriendType
  name : Option String
  context : Option String
  deriving DecidableEq, Repr

def RmgDEvent.friendNotice (e : RmgDEvent) : ExecutorEventType → Option FriendNotice
  | .friendProcessCrash => some ⟨.process, e.processName, e.contextName⟩
  | .friendServiceFailed => some ⟨.service, e.serviceName, e.contextName⟩
  | _ => none

/-- The notice the dispatcher makes of an event; an instance does not tell itself of its own failures. -/
def RmgDEvent.hearing (e : RmgDEvent) (hostName : String) : Option FriendNotice :=
  match e.type with
  | .informProcessCrash => some ⟨.process, e.processName, e.contextName⟩
  | .informServiceFailed =>
    if some hostName ≠ e.contextName then some ⟨.service, e.serviceName, e.contextName⟩ else none
  | _ => none

/-- The notice that comes in with a label. -/
def Label.heard (hostName : String) : Label → Option FriendNotice
  | .newCrash process context => some ⟨.process, some process, some context⟩
  | .fromReplica _ msg =>
    match msg.type with
    | .informPrimaryServiceFailed =>
      if some hostName ≠ msg.contextName then some ⟨.service, msg.serviceName, msg.contextName⟩ else none
    | _ => none
  | .fromPrimary msg =>
    match msg.type with
    | .informProcessCrash => some ⟨.process, msg.processName, msg.contextName⟩
    | .informClientServiceFailed =>
      if some hostName ≠ msg.contextName then some ⟨.service, msg.serviceName, msg.contextName⟩ else none
    | _ => none
  | _ => none

/-- What is done with a new event: it is pushed, perhaps after an entry in the log. -/
def PushesEvent (k : EventRef → Proc PUnit) : Prop :=
  ∀ e, k e = rmgDispatcherPushServiceEvent e ∨
    ∃ msg, k e = (output (.received msg e) >>= fun _ => rmgDispatcherPushServiceEvent e)

/-- The operations that leave the events and the queues alone. -/
def Op.Still : Op → Prop
  | .newEvent .. | .setContextName .. | .pushDispatcher _ | .pushExecutor .. => False
  | _ => True

theorem Op.Tends.still {held : List EventRef} {op : Op} (h : op.Tends held) : op.Still := by
  cases op with
  | newEvent | setContextName | pushDispatcher | pushExecutor => exact h.elim
  | _ => trivial

theorem Op.Executes.still {op : Op} (h : op.Executes) : op.Still := by
  cases op with
  | newEvent | setContextName | pushDispatcher | pushExecutor =>
    rcases h with h | ⟨_, h⟩
    · exact h.2.elim
    · cases h
  | _ => trivial

namespace Instance

/-- The notice a step takes from the queue, and when. -/
def told (w : Instance) : Label → List (FriendNotice × Nat)
  | .execute => (w.executorQueue.head?.bind fun x => (w.heap x.2).friendNotice x.1).toList.map fun n => (n, w.now)
  | _ => []

/-- The notices that wait for the executor. -/
def unserved (w : Instance) : List FriendNotice :=
  w.executorQueue.filterMap fun x => (w.heap x.2).friendNotice x.1

/-- The notices that wait for the dispatcher. -/
def unheard (w : Instance) : List FriendNotice := w.dispatcherQueue.filterMap fun e => (w.heap e).hearing w.hostName

/-- A step within the life of one process, with the state it is taken in. -/
def NotedStep (A : Op → Bool → Prop) (glib : GLib) (w : Instance) (x : Instance × Label) (w' : Instance) : Prop :=
  x.1 = w ∧ (∀ gdir, x.2 ≠ .restart gdir) ∧ StepUnder A glib w x.2 w'

variable {A : Op → Bool → Prop} {glib : GLib} {b w w' x : Instance} {event : EventRef} {op : Op} {ok : Bool} {l : Label}

/-! ### What waits -/

private theorem filterMap_one {α β : Type} (f : α → Option β) (a : α) : [a].filterMap f = (f a).toList := by
  rw [List.filterMap_cons]
  cases f a <;> rfl

/-- What waits, `hand` being what the dispatcher is about to pass on. -/
structure Awaits (hand waiting : List FriendNotice) (w : Instance) : Prop where
  waiting : w.unserved ++ hand ++ w.unheard = waiting
  dispatching : ∀ e ∈ w.dispatcherQueue, e < w.allocated
  executing : ∀ x ∈ w.executorQueue, x.2 < w.allocated
  /-- What the dispatcher still writes to is not announced. -/
  apart : ∀ x ∈ w.executorQueue, x.1.isRecovery = false → (w.heap x.2).type ≠ .serviceCrashed

private theorem notice_of_isRecovery {type : ExecutorEventType} (h : type.isRecovery) (e : RmgDEvent) :
    e.friendNotice type = none := by
  cases type with
  | friendProcessCrash | friendServiceFailed => cases h
  | _ => rfl

private theorem hearing_of_crash {e : RmgDEvent} (h : e.type = .serviceCrashed) (hostName : String) :
    e.hearing hostName = none := by
  unfold RmgDEvent.hearing
  rw [h]

private theorem apply_of_still (hop : op.Still) :
    (Instance.apply op ok w).2.heap = w.heap ∧ (Instance.apply op ok w).2.allocated = w.allocated ∧
      (Instance.apply op ok w).2.dispatcherQueue = w.dispatcherQueue ∧
        (Instance.apply op ok w).2.executorQueue = w.executorQueue := by
  cases op with
  | sql q =>
    rcases apply_sql w q ok with h | ⟨j, -, h⟩
    · rw [h]
      exact ⟨rfl, rfl, rfl, rfl⟩
    · rw [h, commit]
      split <;> exact ⟨rfl, rfl, rfl, rfl⟩
  | clientSend | managerSend => cases ok <;> exact ⟨rfl, rfl, rfl, rfl⟩
  | newEvent | setContextName | pushDispatcher | pushExecutor => exact hop.elim
  | _ => exact ⟨rfl, rfl, rfl, rfl⟩

namespace Awaits

variable {hand waiting : List FriendNotice}

private theorem keep (h : Awaits hand waiting w) (ha : w.allocated ≤ x.allocated)
    (hd : x.dispatcherQueue = w.dispatcherQueue) (he : x.executorQueue = w.executorQueue)
    (hn : x.hostName = w.hostName) (hheap : ∀ e < w.allocated, x.heap e = w.heap e) : Awaits hand waiting x := by
  have hunserved : x.unserved = w.unserved := by
    unfold unserved
    rw [he]
    exact List.filterMap_congr fun y hy => by rw [hheap y.2 (h.executing y hy)]
  have hunheard : x.unheard = w.unheard := by
    unfold unheard
    rw [hd, hn]
    exact List.filterMap_congr fun e hy => by rw [hheap e (h.dispatching e hy)]
  refine ⟨by rw [hunserved, hunheard]; exact h.waiting, fun e hy => ?_, fun y hy => ?_, fun y hy => ?_⟩
  · rw [hd] at hy
    exact Nat.lt_of_lt_of_le (h.dispatching e hy) ha
  · rw [he] at hy
    exact Nat.lt_of_lt_of_le (h.executing y hy) ha
  · rw [he] at hy
    rw [hheap y.2 (h.executing y hy)]
    exact h.apart y hy

private theorem eq (h : Awaits [] waiting w) : w.unserved ++ w.unheard = waiting := by
  have hwaiting := h.waiting
  rwa [List.append_nil] at hwaiting

private theorem apply (h : Awaits hand waiting w) (hop : op.Still) :
    Awaits hand waiting (Instance.apply op ok w).2 := by
  obtain ⟨hheap, ha, hd, he⟩ := @apply_of_still w op ok hop
  exact h.keep (Nat.le_of_eq ha.symm) hd he (apply_hostName op ok w) fun e _ => by rw [hheap]

/-- The dispatcher writes to a crash, which nobody is told of. -/
private theorem setContextName (h : Awaits hand waiting w) (ht : (w.heap event).type = .serviceCrashed)
    (name : Option String) : Awaits hand waiting (w.setContextName event name) := by
  have hne : ∀ e, e ≠ event → (w.setContextName event name).heap e = w.heap e := fun e he =>
    Function.update_of_ne he ..
  have hself : (w.setContextName event name).heap event = { w.heap event with contextName := name } :=
    Function.update_self ..
  have hunserved : (w.setContextName event name).unserved = w.unserved := by
    refine List.filterMap_congr fun y hy => ?_
    by_cases he : y.2 = event
    · have hr : y.1.isRecovery := by
        by_contra hr
        exact h.apart y hy (by simpa using hr) (he ▸ ht)
      rw [notice_of_isRecovery hr, notice_of_isRecovery hr]
    · rw [hne _ he]
  have hunheard : (w.setContextName event name).unheard = w.unheard := by
    refine List.filterMap_congr fun e _ => ?_
    by_cases he : e = event
    · have ht' : ((w.setContextName event name).heap event).type = .serviceCrashed := by
        rw [hself]
        exact ht
      rw [he, hearing_of_crash ht, hearing_of_crash ht']
    · rw [hne _ he]
      rfl
  refine ⟨by rw [hunserved, hunheard]; exact h.waiting, h.dispatching, h.executing, fun y hy hr => ?_⟩
  by_cases he : y.2 = event
  · exact absurd (he ▸ ht) (h.apart y hy hr)
  · rw [hne _ he]
    exact h.apart y hy hr

/-- An event is posted to the executor, with its notice if it has one. -/
private theorem pushExecutor {type : ExecutorEventType} (h : Awaits ((w.heap event).friendNotice type).toList waiting w)
    (he : event < w.allocated) (ht : type.isRecovery = false → (w.heap event).type ≠ .serviceCrashed) :
    Awaits [] waiting (w.pushExecutor type event) := by
  refine ⟨?_, h.dispatching, fun y hy => ?_, fun y hy => ?_⟩
  · have hunserved : (w.pushExecutor type event).unserved =
        w.unserved ++ ((w.heap event).friendNotice type).toList := by
      show (w.executorQueue ++ [(type, event)]).filterMap _ = _
      rw [List.filterMap_append, filterMap_one]
      rfl
    rw [hunserved, List.append_nil]
    exact h.waiting
  · rcases List.mem_append.1 hy with hy | hy
    · exact h.executing y hy
    · rw [List.mem_singleton.1 hy]
      exact he
  · rcases List.mem_append.1 hy with hy | hy
    · exact h.apart y hy
    · rw [List.mem_singleton.1 hy]
      exact ht

/-- A new event is queued. -/
private theorem pushDispatcher (h : Awaits [] waiting w) (he : event < w.allocated) :
    Awaits [] (waiting ++ ((w.heap event).hearing w.hostName).toList) (w.pushDispatcher event) := by
  refine ⟨?_, fun e hy => ?_, h.executing, h.apart⟩
  · have hunheard : (w.pushDispatcher event).unheard = w.unheard ++ ((w.heap event).hearing w.hostName).toList := by
      show (w.dispatcherQueue ++ [event]).filterMap _ = _
      rw [List.filterMap_append, filterMap_one]
      rfl
    rw [hunheard, ← h.waiting, ← List.append_assoc]
    rfl
  · rcases List.mem_append.1 hy with hy | hy
    · exact h.dispatching e hy
    · rw [List.mem_singleton.1 hy]
      exact he

end Awaits

section dispatcher
variable {hand waiting : List FriendNotice} {d : RmgDEvent} {hostName : String}

/-- The dispatcher works on an event of which `φ` holds. -/
def Passes (event : EventRef) (φ : RmgDEvent → Prop) (hostName : String) (hand waiting : List FriendNotice)
    (w : Instance) : Prop :=
  Awaits hand waiting w ∧ event < w.allocated ∧ φ (w.heap event) ∧ w.hostName = hostName

private theorem triple_passes (held : List EventRef) {φ : RmgDEvent → Prop} {α : Type} {p : Proc α}
    (hp : p.Calls (Op.Tends held)) :
    Triple machine Unreliable (Passes event φ hostName hand waiting) p
      (fun _ => Passes event φ hostName hand waiting) fun _ => True := by
  refine (Triple.of_calls (I := Passes event φ hostName hand waiting) (fun op e x hop _ hx => ?_) hp).weaken
    (fun _ h => h) (fun _ _ h => h) fun _ _ => trivial
  obtain ⟨hheap, ha, -, -⟩ := @apply_of_still x op e hop.still
  refine ⟨hx.1.apply hop.still, Nat.lt_of_lt_of_eq hx.2.1 ha.symm, ?_, (apply_hostName op e x).trans hx.2.2.2⟩
  show φ ((Instance.apply op e x).2.heap event)
  rw [hheap]
  exact hx.2.2.1

/-- The event that is loaded is the one `φ` holds of. -/
private theorem triple_load_passes {φ : RmgDEvent → Prop} {k : RmgDEvent → Proc PUnit} {Q : PUnit → Instance → Prop}
    (hk : ∀ d, φ d → Triple machine Unreliable (Passes event φ hostName hand waiting) (k d) Q fun _ => True) :
    Triple machine Unreliable (Passes event φ hostName hand waiting) (load event >>= k) Q fun _ => True := by
  refine .call (R := fun (d : RmgDEvent) x => φ d ∧ Passes event φ hostName hand waiting x) (fun _ _ => trivial)
    (fun x e _ hx => ⟨hx.2.2.1, hx⟩) fun (d : RmgDEvent) => .of_prop fun hd => hk d hd

private theorem triple_post_passes {type : ExecutorEventType} {φ : RmgDEvent → Prop}
    (ht : ∀ d, φ d → type.isRecovery = false → d.type ≠ .serviceCrashed)
    (hn : ∀ d, φ d → (d.friendNotice type).toList = hand) :
    Triple machine Unreliable (Passes event φ hostName hand waiting) (rmgExecutorPushEvent type event)
      (fun _ => Passes event φ hostName [] waiting) fun _ => True := by
  refine .call (R := fun _ => Passes event φ hostName [] waiting) (fun _ _ => trivial) (fun x e _ hx => ?_) fun _ =>
    .ret fun _ h => h
  obtain ⟨hawaits, hlt, hφ, hname⟩ := hx
  rw [← hn _ hφ] at hawaits
  exact ⟨hawaits.pushExecutor hlt (ht _ hφ), hlt, hφ, hname⟩

private theorem triple_doFriendProcessCrashEvent_passes (ht : d.type = .informProcessCrash) :
    Triple machine Unreliable (Passes event (· = d) hostName (d.hearing hostName).toList waiting)
      (doFriendProcessCrashEvent event) (fun _ => Passes event (· = d) hostName [] waiting) fun _ => True := by
  refine (triple_passes [event] calls_informCrash_tends).bind fun _ =>
    triple_post_passes (fun d' hd _ => ?_) fun d' hd => ?_
  · rw [hd, ht]
    simp
  · rw [hd, RmgDEvent.hearing, ht]
    rfl

private theorem triple_doFriendServiceFailedEvent_passes (ht : d.type = .informServiceFailed) :
    Triple machine Unreliable (Passes event (· = d) hostName (d.hearing hostName).toList waiting)
      (doFriendServiceFailedEvent event) (fun _ => Passes event (· = d) hostName [] waiting) fun _ => True := by
  refine (triple_passes [event] calls_informFailed_tends).bind fun _ => ?_
  refine .call (R := fun (name : String) x => name = hostName ∧
    Passes event (· = d) hostName (d.hearing hostName).toList waiting x) (fun _ _ => trivial)
    (fun x e _ hx => ⟨hx.2.2.2, hx⟩) fun (name : String) => .of_prop fun hname => ?_
  subst hname
  refine triple_load_passes fun d' hd => ?_
  subst hd
  by_cases hc : some name ≠ d'.contextName
  · rw [if_pos hc]
    refine triple_post_passes (fun d₁ hd₁ _ => ?_) fun d₁ hd₁ => ?_
    · rw [hd₁, ht]
      simp
    · rw [hd₁, RmgDEvent.hearing, ht]
      simp [hc, RmgDEvent.friendNotice]
  · rw [if_neg hc]
    have hnone : d'.hearing name = none := by
      rw [RmgDEvent.hearing, ht]
      simp [not_not.1 hc]
    rw [hnone]
    exact .ret fun _ h => h

private theorem triple_doFriendServiceFailedEvent_own_passes :
    Triple machine Unreliable (Passes event (fun d => d.type = .serviceCrashed ∧ d.contextName = some hostName)
      hostName [] waiting) (doFriendServiceFailedEvent event)
      (fun _ => Passes event (·.type = .serviceCrashed) hostName [] waiting) fun _ => True := by
  refine (triple_passes [event] calls_informFailed_tends).bind fun _ => ?_
  refine .call (R := fun (name : String) x => name = hostName ∧ Passes event
    (fun d => d.type = .serviceCrashed ∧ d.contextName = some hostName) hostName [] waiting x) (fun _ _ => trivial)
    (fun x e _ hx => ⟨hx.2.2.2, hx⟩) fun (name : String) => .of_prop fun hname => ?_
  subst hname
  refine triple_load_passes fun d hd => ?_
  rw [if_neg (by simp [hd.2])]
  exact .ret fun _ h => ⟨h.1, h.2.1, h.2.2.1.1, h.2.2.2⟩

private theorem triple_informServiceFailed_passes :
    Triple machine Unreliable (Passes event (·.type = .serviceCrashed) hostName [] waiting) (informServiceFailed event)
      (fun _ => Passes event (·.type = .serviceCrashed) hostName [] waiting) fun _ => True := by
  refine .call (R := fun (name : String) x => name = hostName ∧
    Passes event (·.type = .serviceCrashed) hostName [] waiting x) (fun _ _ => trivial)
    (fun x e _ hx => ⟨hx.2.2.2, hx⟩) fun (name : String) => .of_prop fun hname => ?_
  subst hname
  refine .call (R := fun _ => Passes event (fun d => d.type = .serviceCrashed ∧ d.contextName = some name) name []
    waiting) (fun _ _ => trivial) (fun x e _ hx => ?_) fun _ => triple_doFriendServiceFailedEvent_own_passes
  refine ⟨hx.1.setContextName hx.2.2.1 (some name), hx.2.1, ?_, hx.2.2.2⟩
  show ((Function.update x.heap event _) event).type = _ ∧ ((Function.update x.heap event _) event).contextName = _
  rw [Function.update_self]
  exact ⟨hx.2.2.1, rfl⟩

private theorem triple_post_recovery {type : ExecutorEventType} {φ : RmgDEvent → Prop} (h : type.isRecovery) :
    Triple machine Unreliable (Passes event φ hostName [] waiting) (rmgExecutorPushEvent type event)
      (fun _ => Passes event φ hostName [] waiting) fun _ => True :=
  triple_post_passes (fun _ _ hr => by rw [h] at hr; cases hr) fun d _ => by rw [notice_of_isRecovery h]; rfl

private theorem triple_pushThenRelax_passes {type : ExecutorEventType} {φ : RmgDEvent → Prop} (h : type.isRecovery)
    (reset : Bool) :
    Triple machine Unreliable (Passes event φ hostName [] waiting) (pushThenRelax type event reset)
      (fun _ => Passes event φ hostName [] waiting) fun _ => True := by
  refine (triple_post_recovery h).bind fun _ => ?_
  cases reset with
  | true => exact triple_passes [event] calls_resetRvector_tends
  | false => exact triple_passes [event] calls_relaxtimerStart_tends

private theorem triple_resetThenPush_passes {type : ExecutorEventType} {φ : RmgDEvent → Prop} (h : type.isRecovery)
    (reset : Bool) :
    Triple machine Unreliable (Passes event φ hostName [] waiting) (resetThenPush type event reset)
      (fun _ => Passes event φ hostName [] waiting) fun _ => True := by
  refine Triple.bind ?_ fun _ => triple_post_recovery h
  cases reset with
  | true => exact triple_passes [event] calls_resetRvector_tends
  | false => exact .ret fun _ h => h

private theorem triple_performAction_passes (type : RmgActionType) (reset : Bool) {φ : RmgDEvent → Prop} :
    Triple machine Unreliable (Passes event φ hostName [] waiting) (performAction type reset event)
      (fun _ => Passes event φ hostName [] waiting) fun _ => True := by
  cases type with
  | serviceIgnore => exact triple_passes [event] calls_resetRvector_tends
  | serviceReset | publicDataReset | privateDataReset | serviceDisable => exact triple_pushThenRelax_passes rfl reset
  | contextReset | platformRestart => exact triple_resetThenPush_passes rfl reset
  | factoryReset => exact triple_post_recovery rfl
  | invalid | guruMeditation => exact .ret fun _ h => h

private theorem triple_doProcessServiceCrashEvent_passes :
    Triple machine Unreliable (Passes event (·.type = .serviceCrashed) hostName [] waiting)
      (doProcessServiceCrashEvent event) (fun _ => Passes event (·.type = .serviceCrashed) hostName [] waiting)
      fun _ => True := by
  have hescalate : ∀ rvector, Triple machine Unreliable
      (Passes event (·.type = .serviceCrashed) hostName [] waiting) (escalate event rvector)
      (fun _ => Passes event (·.type = .serviceCrashed) hostName [] waiting) fun _ => True := by
    intro rvector
    refine (triple_passes [event] calls_load_tends).bind fun e => (triple_passes [event]
      (calls_action_tends _ _ _)).bind fun r => ?_
    dsimp only
    split
    · exact .ret fun _ h => h
    · refine (triple_passes [event] (calls_action_tends _ _ _)).bind fun r' =>
        (triple_passes [event] ?_).bind fun _ =>
          (triple_performAction_passes _ _).bind fun _ => triple_informServiceFailed_passes
      unfold reportAction
      split
      · exact calls_output_tends _
      · trivial
  refine (triple_passes [event] calls_load_tends).bind fun e => (triple_passes [event]
    (calls_service_tends _ _ _)).bind fun r => ?_
  dsimp only
  split
  · exact .ret fun _ h => h
  split
  · exact triple_passes [event] (calls_output_tends _)
  refine (triple_passes [event] (calls_service_tends _ _ _)).bind fun r => ?_
  split
  · exact .ret fun _ h => h
  refine (triple_passes [event] (calls_setRvector_tends _ _)).bind fun st => ?_
  cases st with
  | ok => exact hescalate _
  | error => exact .ret fun _ h => h

/-- What the dispatcher has in its hand, it passes on. -/
private theorem triple_dispatch_passes :
    Triple machine Unreliable (Passes event (· = d) hostName (d.hearing hostName).toList waiting)
      (dispatcherSourceCallback event) (fun _ => Awaits [] waiting) fun _ => True := by
  refine triple_load_passes fun e he => ?_
  subst he
  have hawaits : ∀ {p : Proc PUnit} {φ : RmgDEvent → Prop}, Triple machine Unreliable
      (Passes event (· = e) hostName (e.hearing hostName).toList waiting) p
      (fun _ => Passes event φ hostName [] waiting) (fun _ => True) →
      Triple machine Unreliable (Passes event (· = e) hostName (e.hearing hostName).toList waiting) p
        (fun _ => Awaits [] waiting) fun _ => True := fun h =>
    h.weaken (fun _ h => h) (fun _ _ h => h.1) fun _ h => h
  have hnone : e.hearing hostName = none → ∀ {p : Proc PUnit} {φ : RmgDEvent → Prop}, φ e →
      Triple machine Unreliable (Passes event φ hostName [] waiting) p (fun _ => Passes event φ hostName [] waiting)
        (fun _ => True) →
        Triple machine Unreliable (Passes event (· = e) hostName (e.hearing hostName).toList waiting) p
          (fun _ => Awaits [] waiting) fun _ => True := by
    intro hn p φ hφ h
    rw [hn]
    exact h.weaken (fun x hx => ⟨hx.1, hx.2.1, hx.2.2.1 ▸ hφ, hx.2.2.2⟩) (fun _ _ h => h.1) fun _ h => h
  cases ht : e.type with
  | informProcessCrash => exact hawaits (triple_doFriendProcessCrashEvent_passes ht)
  | informServiceFailed => exact hawaits (triple_doFriendServiceFailedEvent_passes ht)
  | serviceCrashed =>
    exact hnone (hearing_of_crash ht _) ht
      ((triple_passes [event] (calls_output_tends _)).bind fun _ => triple_doProcessServiceCrashEvent_passes)
  | remoteContextRestart | remotePlatformRestart | remoteFactoryReset =>
    exact hnone (by rw [RmgDEvent.hearing, ht]) (φ := fun _ => True) trivial (triple_post_recovery rfl)
  | serviceRestarted | unknown =>
    exact hnone (by rw [RmgDEvent.hearing, ht]) (φ := fun _ => True) trivial (.ret fun _ h => h)

end dispatcher

section report
variable {waiting : List FriendNotice} {hostName : String}

/-- With a new event its notice waits. -/
private theorem triple_report_awaits {d : RmgDEvent} {cause : Option Cause} {k : EventRef → Proc PUnit}
    (hk : PushesEvent k) :
    Triple machine Unreliable (fun x => Awaits [] waiting x ∧ x.hostName = hostName) (.call (.newEvent d cause) k)
      (fun _ => Awaits [] (waiting ++ (d.hearing hostName).toList)) fun _ => True := by
  refine .call (R := fun e => Passes e (fun d' => d'.hearing hostName = d.hearing hostName) hostName [] waiting)
    (fun _ _ => trivial) (fun x ok _ h => ?_) fun e => ?_
  · have hne : ∀ e < x.allocated, (x.alloc d cause).heap e = x.heap e := fun e he =>
      Function.update_of_ne (Nat.ne_of_lt he) ..
    refine ⟨h.1.keep (Nat.le_succ _) rfl rfl rfl hne, Nat.lt_succ_self _, ?_, h.2⟩
    show (Function.update x.heap x.allocated _ x.allocated).hearing hostName = _
    rw [Function.update_self]
    rfl
  · have hpush : Triple machine Unreliable
        (Passes e (fun d' => d'.hearing hostName = d.hearing hostName) hostName [] waiting)
        (rmgDispatcherPushServiceEvent e)
        (fun _ => Awaits [] (waiting ++ (d.hearing hostName).toList)) fun _ => True := by
      refine .call (R := fun _ => Awaits [] (waiting ++ (d.hearing hostName).toList)) (fun _ _ => trivial)
        (fun x ok _ h => ?_) fun _ => .ret fun _ h => h
      have hpushed := h.1.pushDispatcher h.2.1
      rw [h.2.2.2, h.2.2.1] at hpushed
      exact hpushed
    rcases hk e with h | ⟨msg, h⟩
    · rw [h]
      exact hpush
    · rw [h]
      exact (triple_passes [] (calls_output_tends _)).bind fun _ => hpush

private theorem triple_still_awaits {p : Proc PUnit} (hp : p.Calls Op.Still) :
    Triple machine Unreliable (Awaits [] waiting) p (fun _ => Awaits [] waiting) fun _ => True :=
  (Triple.of_calls (I := Awaits [] waiting) (fun _ _ _ hop _ h => h.apply hop) hp).weaken (fun _ h => h)
    (fun _ _ h => h) fun _ _ => trivial

private theorem triple_client_awaits (sockfd : Nat) (msg : RmgMessage) :
    Triple machine Unreliable (fun x => Awaits [] waiting x ∧ x.hostName = hostName) (clientProcessMessage sockfd msg)
      (fun _ => Awaits [] (waiting ++ ((Label.fromReplica sockfd msg).heard hostName).toList)) fun _ => True := by
  have hreport : ∀ type, (RmgDEvent.hearing ⟨type, msg.serviceName, none, msg.contextName, msg.cause⟩ hostName) =
      (Label.fromReplica sockfd msg).heard hostName → Triple machine Unreliable
        (fun x => Awaits [] waiting x ∧ x.hostName = hostName) (pushServiceEvent type msg)
        (fun _ => Awaits [] (waiting ++ ((Label.fromReplica sockfd msg).heard hostName).toList)) fun _ => True := by
    intro type h
    rw [← h]
    exact triple_report_awaits fun _ => .inr ⟨msg, rfl⟩
  have hsilent : (Label.fromReplica sockfd msg).heard hostName = none → ∀ {p : Proc PUnit}, p.Calls Op.Still →
      Triple machine Unreliable (fun x => Awaits [] waiting x ∧ x.hostName = hostName) p
        (fun _ => Awaits [] (waiting ++ ((Label.fromReplica sockfd msg).heard hostName).toList)) fun _ => True := by
    intro h p hp
    rw [h, Option.toList_none, List.append_nil]
    exact (triple_still_awaits hp).weaken (fun _ h => h.1) (fun _ _ h => h) fun _ h => h
  unfold clientProcessMessage
  cases hm : msg.type with
  | replicaDescriptor => exact hsilent (by simp [Label.heard, hm]) ⟨trivial, fun _ => trivial⟩
  | requestContextRestart | requestPlatformRestart => exact hreport _ (by simp [Label.heard, hm, RmgDEvent.hearing])
  | requestFactoryReset => exact hreport _ (by simp [Label.heard, hm, RmgDEvent.hearing])
  | informPrimaryServiceFailed => exact hreport _ (by simp [Label.heard, hm, RmgDEvent.hearing])
  | _ => exact hsilent (by simp [Label.heard, hm]) trivial

private theorem triple_manager_awaits (msg : RmgMessage) :
    Triple machine Unreliable (fun x => Awaits [] waiting x ∧ x.hostName = hostName) (managerProcessMessage msg)
      (fun _ => Awaits [] (waiting ++ ((Label.fromPrimary msg).heard hostName).toList)) fun _ => True := by
  have hreport : ∀ {d cause k}, PushesEvent k →
      d.hearing hostName = (Label.fromPrimary msg).heard hostName → Triple machine Unreliable
        (fun x => Awaits [] waiting x ∧ x.hostName = hostName) (.call (.newEvent d cause) k)
        (fun _ => Awaits [] (waiting ++ ((Label.fromPrimary msg).heard hostName).toList)) fun _ => True := by
    intro d cause k hk h
    rw [← h]
    exact triple_report_awaits hk
  unfold managerProcessMessage
  cases hm : msg.type with
  | informProcessCrash => exact hreport (fun _ => .inr ⟨msg, rfl⟩) (by simp [Label.heard, hm, RmgDEvent.hearing])
  | informClientServiceFailed =>
    exact hreport (fun _ => .inr ⟨msg, rfl⟩) (by simp [Label.heard, hm, RmgDEvent.hearing])
  | _ =>
    refine .ret fun x h => ?_
    have hnone : (Label.fromPrimary msg).heard hostName = none := by simp [Label.heard, hm]
    rw [hnone, Option.toList_none, List.append_nil]
    exact h.1

end report

/-- After a step that is no restart, what comes in waits, and what the executor was told has waited. -/
def AwaitsAfter (w : Instance) (l : Label) (x : Instance) : Prop :=
  ∃ waiting, Awaits [] waiting x ∧ ((∀ gdir, l ≠ .restart gdir) →
    w.unserved ++ w.unheard ++ (l.heard w.hostName).toList = (w.told l).map Prod.fst ++ waiting)

private theorem awaits_of_step (hs : FaultyStep glib w l w') (h : w.running → ∃ waiting, Awaits [] waiting w)
    (hrun : w'.running) : AwaitsAfter w l w' := by
  have hcall : ∀ w₀ p, Callback glib w l w₀ p → ∃ P : Instance → Prop, P w₀ ∧
      Triple machine Unreliable P p (fun _ => AwaitsAfter w l) fun _ => True := by
    intro w₀ p hc
    have hw : (∀ gdir, l ≠ .restart gdir) → Awaits [] (w.unserved ++ w.unheard) w := by
      intro hl
      obtain ⟨waiting, hw⟩ := h (hs.running hl)
      rw [hw.eq]
      exact hw
    cases hc with
    | restart gdir =>
      refine ⟨Awaits [] [], ⟨rfl, by simp [Instance.restarted], by simp [Instance.restarted],
        by simp [Instance.restarted]⟩, ?_⟩
      exact (triple_still_awaits ((calls_boot_attending glib gdir).mono fun _ h => h.tends.still)).weaken
        (fun _ h => h) (fun _ x hx => ⟨_, hx, fun hl => (hl gdir rfl).elim⟩) fun _ h => h
    | crash service =>
      refine ⟨_, ⟨hw (by simp), rfl⟩, (triple_report_awaits fun _ => .inl rfl).weaken (fun _ h => h) ?_ fun _ h => h⟩
      exact fun _ x hx => ⟨_, hx, fun _ => rfl⟩
    | restarted service =>
      refine ⟨_, ⟨hw (by simp), rfl⟩, (triple_report_awaits fun _ => .inl rfl).weaken (fun _ h => h) ?_ fun _ h => h⟩
      exact fun _ x hx => ⟨_, hx, fun _ => rfl⟩
    | newCrash process context =>
      refine ⟨_, ⟨hw (by simp), rfl⟩, (triple_report_awaits fun _ => .inl rfl).weaken (fun _ h => h) ?_ fun _ h => h⟩
      exact fun _ x hx => ⟨_, hx, fun _ => rfl⟩
    | fromReplica sockfd msg =>
      refine ⟨_, ⟨hw (by simp), rfl⟩, (triple_client_awaits sockfd msg).weaken (fun _ h => h) ?_ fun _ h => h⟩
      exact fun _ x hx => ⟨_, hx, fun _ => rfl⟩
    | fromPrimary msg =>
      refine ⟨_, ⟨hw (by simp), rfl⟩, (triple_manager_awaits msg).weaken (fun _ h => h) ?_ fun _ h => h⟩
      exact fun _ x hx => ⟨_, hx, fun _ => rfl⟩
    | @dispatch event queue hq =>
      have hstart := hw (by simp)
      have hunheard : w.unheard = ((w.heap event).hearing w.hostName).toList ++
          ({ w with dispatcherQueue := queue } : Instance).unheard := by
        unfold unheard
        rw [hq, List.filterMap_cons]
        cases (w.heap event).hearing w.hostName <;> rfl
      refine ⟨Passes event (· = w.heap event) w.hostName ((w.heap event).hearing w.hostName).toList
        (w.unserved ++ w.unheard), ⟨⟨?_, fun e he => ?_, hstart.executing, hstart.apart⟩, ?_, rfl, rfl⟩,
        triple_dispatch_passes.weaken (fun _ h => h) (fun _ x hx => ⟨_, hx, fun _ => ?_⟩) fun _ h => h⟩
      · rw [hunheard, List.append_assoc]
        rfl
      · exact hstart.dispatching e (hq ▸ List.mem_cons_of_mem _ he)
      · exact hstart.dispatching event (hq ▸ List.mem_cons_self)
      · simp [Label.heard, told]
    | @execute type event queue hq =>
      have hstart := hw (by simp)
      have hunserved : w.unserved = ((w.heap event).friendNotice type).toList ++
          ({ w with executorQueue := queue } : Instance).unserved := by
        unfold unserved
        rw [hq, List.filterMap_cons]
        cases (w.heap event).friendNotice type <;> rfl
      have htold : (w.told .execute).map Prod.fst = ((w.heap event).friendNotice type).toList := by
        unfold told
        rw [hq, List.map_map]
        exact List.map_id _
      refine ⟨Awaits [] (({ w with executorQueue := queue } : Instance).unserved ++ w.unheard),
        ⟨by rw [List.append_nil]; rfl, hstart.dispatching,
          fun x hx => hstart.executing x (hq ▸ List.mem_cons_of_mem _ hx),
          fun x hx => hstart.apart x (hq ▸ List.mem_cons_of_mem _ hx)⟩,
        (triple_still_awaits ((calls_executorSourceCallback type event).mono fun _ => Op.Executes.still)).weaken
          (fun _ h => h) (fun _ x hx => ⟨_, hx, fun _ => ?_⟩) fun _ h => h⟩
      rw [htold, hunserved, List.append_assoc, List.append_assoc]
      simp [Label.heard]
    | @expire source hsource hd =>
      have hstart := hw (by simp)
      refine ⟨Awaits [] (w.unserved ++ w.unheard), hstart.keep (Nat.le_refl _) rfl rfl rfl fun _ _ => rfl,
        (triple_still_awaits ((calls_timer_attending _).mono fun _ h => h.tends.still)).weaken (fun _ h => h)
          (fun _ x hx => ⟨_, hx, fun _ => ?_⟩) fun _ h => h⟩
      simp [Label.heard, told]
    | tick =>
      have hstart := hw (by simp)
      refine ⟨Awaits [] (w.unserved ++ w.unheard), hstart.keep (Nat.le_refl _) rfl rfl rfl fun _ _ => rfl,
        (triple_still_awaits (calls_pure _)).weaken (fun _ h => h) (fun _ x hx => ⟨_, hx, fun _ => ?_⟩) fun _ h => h⟩
      simp [Label.heard, told]
  rcases hs.ends hcall with h' | ⟨w₁, -, rfl⟩
  · exact h'
  · cases hrun

theorem awaits_of_runs {w₀ : Instance} {ls : List Label} (h₀ : w₀.Fresh) (hr : FaultyRuns glib w₀ ls w) :
    w.running → ∃ waiting, Awaits [] waiting w := by
  refine hr.invariant (I := fun w => w.running → ∃ waiting, Awaits [] waiting w) (fun _ => ⟨_, rfl, ?_, ?_, ?_⟩)
    fun _ _ _ h hs hrun => (awaits_of_step hs h hrun).imp fun _ h => h.1
  · rw [h₀.dispatcherQueue]
    exact fun e he => by cases he
  · rw [h₀.executorQueue]
    exact fun x hx => by cases hx
  · rw [h₀.executorQueue]
    exact fun x hx => by cases hx

private theorem NotedStep.faulty {y : Instance × Label} (h : NotedStep A glib w y w') : FaultyStep glib w y.2 w' := by
  obtain ⟨-, -, w₀, p, o, w₁, he, hx, -, rfl⟩ := h
  exact ⟨w₀, p, o, w₁, he, hx.mono fun _ _ _ => trivial, rfl⟩

/-- What waited and what has come in since, the executor has been told or waits. -/
theorem told_of_run {xs : List (Instance × Label)} (hb : b.running → ∃ waiting, Awaits [] waiting b)
    (hr : Transition.Run (NotedStep A glib) b xs w) :
    w.hostName = b.hostName ∧ (w.running → (∃ waiting, Awaits [] waiting w) ∧
      b.unserved ++ b.unheard ++ xs.filterMap (fun x => x.2.heard b.hostName) =
        (xs.flatMap fun x => x.1.told x.2).map Prod.fst ++ (w.unserved ++ w.unheard)) := by
  induction hr with
  | nil =>
    refine ⟨rfl, fun hrun => ⟨hb hrun, ?_⟩⟩
    rw [List.filterMap_nil, List.append_nil]
    rfl
  | @snoc xs t u x _ hs ih =>
    obtain ⟨hname, ih⟩ := ih
    have hfaulty := hs.faulty
    refine ⟨(congrArg Identity.hostName hfaulty.identity).trans hname, fun hrun => ?_⟩
    obtain ⟨rfl, hl, -⟩ := hs
    obtain ⟨hawaits, hbefore⟩ := ih (hfaulty.running hl)
    obtain ⟨waiting, hw, hstep⟩ := awaits_of_step hfaulty (fun _ => hawaits) hrun
    refine ⟨⟨_, hw⟩, ?_⟩
    rw [List.filterMap_append, filterMap_one, ← List.append_assoc, hbefore, List.append_assoc, ← hname, hstep hl,
      hw.eq, List.flatMap_append, List.flatMap_singleton, List.map_append, List.append_assoc]

end Instance

end RecoveryManager
