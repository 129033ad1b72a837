import RecoveryManager.Lifetimes

/-!
# Restarts

What makes the service manager restart a service.  The crashes reported to the process, the crashes the dispatcher has
put in its log and the restarts the executor has asked for are three lists of services.  Each is a sublist of the one
before, together with what still waits in the queue between them (`restarts_stem_from_crashes`): no service is restarted
but for a crash of its own, once at most for each, and in the order of the crashes.
-/

namespace RecoveryManager

open Fallible Fallible.Prog

/-- The service a label reports as crashed. -/
def Label.crashedService : Label → Option (Option String)
  | .crash service => some (some service)
  | _ => none

def Output.crashedService : Output → Option (Option String)
  | .crashDetected service _ => some service
  | _ => none

def Output.restartedService : Output → Option (Option String)
  | .restartUnit service => some service
  | _ => none

def RmgDEvent.crashedService (event : RmgDEvent) : Option (Option String) :=
  if event.type = .serviceCrashed then some event.serviceName else none

namespace Instance

/-- The services the dispatcher has logged as crashed. -/
def crashes (w : Instance) : List (Option String) := w.trace.filterMap Output.crashedService

/-- The services the executor has asked the service manager to restart. -/
def restarts (w : Instance) : List (Option String) := w.trace.filterMap Output.restartedService

/-- The crashes the dispatcher has not got to. -/
def crashesWaiting (w : Instance) : List (Option String) :=
  w.dispatcherQueue.filterMap fun e => (w.heap e).crashedService

/-- The restarts the executor has not got to. -/
def restartsWaiting (w : Instance) : List (Option String) :=
  w.executorQueue.filterMap fun x => if x.1.restarts then some (w.heap x.2).serviceName else none

/-- Restarts go back to crashes, and these to reports. -/
structure Backed (reports : List (Option String)) (w : Instance) : Prop where
  restarts : (w.restarts ++ w.restartsWaiting).Sublist w.crashes
  crashes : (w.crashes ++ w.crashesWaiting).Sublist reports
  dispatching : ∀ e ∈ w.dispatcherQueue, e < w.allocated
  executing : ∀ x ∈ w.executorQueue, x.2 < w.allocated

variable {w x b : Instance} {reports : List (Option String)} {event : EventRef} {op : Op} {ok : Bool}

/-! ### What an event is about -/

/-- The events of `w` are in `x` still about what they were about. -/
structure SameSubjects (w x : Instance) : Prop where
  allocated : w.allocated ≤ x.allocated
  type : ∀ e < w.allocated, (x.heap e).type = (w.heap e).type
  serviceName : ∀ e < w.allocated, (x.heap e).serviceName = (w.heap e).serviceName

namespace SameSubjects

theorem of_eq (hh : x.heap = w.heap) (ha : x.allocated = w.allocated) : w.SameSubjects x :=
  ⟨Nat.le_of_eq ha.symm, fun e _ => by rw [hh], fun e _ => by rw [hh]⟩

theorem trans {y : Instance} (h : w.SameSubjects x) (h' : x.SameSubjects y) : w.SameSubjects y :=
  ⟨Nat.le_trans h.allocated h'.allocated,
    fun e he => (h'.type e (Nat.lt_of_lt_of_le he h.allocated)).trans (h.type e he),
    fun e he => (h'.serviceName e (Nat.lt_of_lt_of_le he h.allocated)).trans (h.serviceName e he)⟩

/-- An operation changes at most the context of an event. -/
theorem apply (op : Op) (ok : Bool) (w : Instance) : w.SameSubjects (apply op ok w).2 := by
  cases op with
  | sql q =>
    rcases apply_sql w q ok with h | ⟨j, -, h⟩
    · rw [h]
      exact of_eq rfl rfl
    · rw [h]
      unfold commit
      split <;> exact of_eq rfl rfl
  | newEvent d cause =>
    have hne : ∀ e < w.allocated, (Instance.apply (.newEvent d cause) ok w).2.heap e = w.heap e := fun e he =>
      Function.update_of_ne (Nat.ne_of_lt he) ..
    exact ⟨Nat.le_succ _, fun e he => by rw [hne e he], fun e he => by rw [hne e he]⟩
  | setContextName event name =>
    have hupdate : ∀ e, (Instance.apply (.setContextName event name) ok w).2.heap e =
        if e = event then { w.heap event with contextName := name } else w.heap e := fun e =>
      Function.update_apply ..
    refine ⟨Nat.le_refl _, fun e _ => ?_, fun e _ => ?_⟩ <;> rw [hupdate] <;> split <;> simp_all
  | clientSend | managerSend => cases ok <;> exact of_eq rfl rfl
  | _ => exact of_eq rfl rfl

theorem crashesWaiting (h : w.SameSubjects x) (hq : x.dispatcherQueue = w.dispatcherQueue)
    (hb : ∀ e ∈ w.dispatcherQueue, e < w.allocated) : x.crashesWaiting = w.crashesWaiting := by
  unfold Instance.crashesWaiting
  rw [hq]
  refine List.filterMap_congr fun e he => ?_
  unfold RmgDEvent.crashedService
  rw [h.type e (hb e he), h.serviceName e (hb e he)]

theorem restartsWaiting (h : w.SameSubjects x) (hq : x.executorQueue = w.executorQueue)
    (hb : ∀ y ∈ w.executorQueue, y.2 < w.allocated) : x.restartsWaiting = w.restartsWaiting := by
  unfold Instance.restartsWaiting
  rw [hq]
  exact List.filterMap_congr fun y hy => by rw [h.serviceName y.2 (hb y hy)]

end SameSubjects

/-! ### Operations -/

namespace Backed

theorem mono {reports' : List (Option String)} (h : w.Backed reports) (hr : reports.Sublist reports') :
    w.Backed reports' :=
  ⟨h.restarts, h.crashes.trans hr, h.dispatching, h.executing⟩

/-- Nothing is queued, nothing reported and no restart asked for. -/
theorem keep (h : w.Backed reports) (hs : w.SameSubjects x) (hd : x.dispatcherQueue = w.dispatcherQueue)
    (he : x.executorQueue = w.executorQueue) (hc : x.crashes = w.crashes) (hr : x.restarts = w.restarts) :
    x.Backed reports := by
  refine ⟨?_, ?_, fun e hx => ?_, fun y hy => ?_⟩
  · rw [hr, hs.restartsWaiting he h.executing, hc]
    exact h.restarts
  · rw [hc, hs.crashesWaiting hd h.dispatching]
    exact h.crashes
  · rw [hd] at hx
    exact Nat.lt_of_lt_of_le (h.dispatching e hx) hs.allocated
  · rw [he] at hy
    exact Nat.lt_of_lt_of_le (h.executing y hy) hs.allocated

end Backed

private theorem crashes_append {o : Output} (h : o.crashedService = none) (l : List Output) :
    (l ++ [o]).filterMap Output.crashedService = l.filterMap Output.crashedService := by
  rw [List.filterMap_append, List.filterMap_cons_none h, List.filterMap_nil, List.append_nil]

private theorem restarts_append {o : Output} (h : o.restartedService = none) (l : List Output) :
    (l ++ [o]).filterMap Output.restartedService = l.filterMap Output.restartedService := by
  rw [List.filterMap_append, List.filterMap_cons_none h, List.filterMap_nil, List.append_nil]

/-- An operation that does not report one leaves the crashes as they are. -/
theorem apply_crashes (h : ∀ o, op = .emit o → o.crashedService = none) : (apply op ok w).2.crashes = w.crashes := by
  cases op with
  | sql q =>
    rcases apply_sql w q ok with h' | ⟨j, -, h'⟩
    · rw [h']
    · rw [h']
      unfold commit
      split
      · rfl
      · exact crashes_append rfl _
  | pushExecutor => exact crashes_append rfl _
  | timeoutAddSeconds => exact crashes_append rfl _
  | clientSend | managerSend =>
    cases ok with
    | true => exact crashes_append rfl _
    | false => rfl
  | emit o => exact crashes_append (h o rfl) _
  | _ => rfl

theorem apply_restarts (h : ∀ o, op = .emit o → o.restartedService = none) :
    (apply op ok w).2.restarts = w.restarts := by
  cases op with
  | sql q =>
    rcases apply_sql w q ok with h' | ⟨j, -, h'⟩
    · rw [h']
    · rw [h']
      unfold commit
      split
      · rfl
      · exact restarts_append rfl _
  | pushExecutor => exact restarts_append rfl _
  | timeoutAddSeconds => exact restarts_append rfl _
  | clientSend | managerSend =>
    cases ok with
    | true => exact restarts_append rfl _
    | false => rfl
  | emit o => exact restarts_append (h o rfl) _
  | _ => rfl

theorem apply_dispatcherQueue (h : ∀ e, op ≠ .pushDispatcher e) :
    (apply op ok w).2.dispatcherQueue = w.dispatcherQueue := by
  cases op with
  | sql q =>
    rcases apply_sql w q ok with h' | ⟨j, -, h'⟩
    · rw [h']
    · rw [h']
      unfold commit
      split <;> rfl
  | pushDispatcher e => exact (h e rfl).elim
  | clientSend | managerSend => cases ok <;> rfl
  | _ => rfl

theorem apply_executorQueue (h : ∀ type e, op ≠ .pushExecutor type e) :
    (apply op ok w).2.executorQueue = w.executorQueue := by
  cases op with
  | sql q =>
    rcases apply_sql w q ok with h' | ⟨j, -, h'⟩
    · rw [h']
    · rw [h']
      unfold commit
      split <;> rfl
  | pushExecutor type e => exact (h type e rfl).elim
  | clientSend | managerSend => cases ok <;> rfl
  | _ => rfl

/-- The operations that queue nothing, report no crash and ask for no restart. -/
def Apart : Op → Prop
  | .pushDispatcher _ | .pushExecutor .. => False
  | .emit o => o.crashedService = none ∧ o.restartedService = none
  | _ => True

theorem Backed.apply (h : w.Backed reports) (op : Op) (ok : Bool) (hop : Apart op) :
    (apply op ok w).2.Backed reports := by
  refine h.keep (.apply op ok w) (apply_dispatcherQueue fun e he => ?_) (apply_executorQueue fun type e he => ?_)
    (apply_crashes fun o ho => ?_) (apply_restarts fun o ho => ?_)
  · rw [he] at hop
    exact hop
  · rw [he] at hop
    exact hop
  · rw [ho] at hop
    exact hop.1
  · rw [ho] at hop
    exact hop.2

private theorem triple_apart {α : Type} {p : Proc α} (hp : p.Calls Apart) :
    Triple machine Unreliable (Backed reports) p (fun _ => Backed reports) (Backed reports) :=
  .of_calls (fun op ok _ hop _ h => h.apply op ok hop) hp

private theorem apart_of_attending {held : List EventRef} (h : op.Attending held) : Apart op := by
  cases op with
  | pushDispatcher | pushExecutor => exact h.elim
  | emit o =>
    obtain ⟨t, rfl⟩ := h
    exact ⟨rfl, rfl⟩
  | _ => trivial

/-! ### New events -/

/-- What waits for the dispatcher is what was reported. -/
theorem Backed.push (h : w.Backed reports) (he : event < w.allocated) :
    (w.pushDispatcher event).Backed (reports ++ (w.heap event).crashedService.toList) := by
  refine ⟨h.restarts, ?_, fun e hx => ?_, h.executing⟩
  · show (w.crashes ++ (w.dispatcherQueue ++ [event]).filterMap fun e => (w.heap e).crashedService).Sublist _
    have hone : [event].filterMap (fun e => (w.heap e).crashedService) = (w.heap event).crashedService.toList := by
      cases hc : (w.heap event).crashedService <;> simp [hc]
    rw [List.filterMap_append, hone, ← List.append_assoc]
    exact h.crashes.append (.refl _)
  · rcases List.mem_append.1 hx with hx | hx
    · exact h.dispatching e hx
    · rw [List.mem_singleton.1 hx]
      exact he

/-- A new event, an entry in the log perhaps, and the push. -/
private theorem triple_report {d : RmgDEvent} {cause : Option Cause} {k : EventRef → Proc PUnit}
    (hk : ∀ e, k e = rmgDispatcherPushServiceEvent e ∨ ∃ msg, k e =
      (output (.received msg e) >>= fun _ => rmgDispatcherPushServiceEvent e)) :
    Triple machine Unreliable (Backed reports) (.call (.newEvent d cause) k)
      (fun _ => Backed (reports ++ d.crashedService.toList)) (Backed (reports ++ d.crashedService.toList)) := by
  have hmono : ∀ w : Instance, w.Backed reports → w.Backed (reports ++ d.crashedService.toList) := fun w h =>
    h.mono (List.sublist_append_left ..)
  let Made : EventRef → Instance → Prop := fun e w =>
    w.Backed reports ∧ e < w.allocated ∧ (w.heap e).crashedService = d.crashedService
  refine .call (R := Made) hmono (fun w ok _ h => ⟨h.apply _ ok trivial, Nat.lt_succ_self _, ?_⟩)
    fun e => ?_
  · show (Function.update w.heap w.allocated _ w.allocated).crashedService = _
    rw [Function.update_self]
    rfl
  · have hpush : Triple machine Unreliable (Made e) (rmgDispatcherPushServiceEvent e)
        (fun _ => Backed (reports ++ d.crashedService.toList))
        (Backed (reports ++ d.crashedService.toList)) := by
      refine .call (fun w h => hmono w h.1) (R := fun _ => Backed (reports ++ d.crashedService.toList))
        (fun w ok _ h => ?_) fun _ => .ret fun _ h => h
      rw [← h.2.2]
      exact h.1.push h.2.1
    rcases hk e with h | ⟨msg, h⟩
    · rw [h]
      exact hpush
    · rw [h]
      refine .call (fun w h => hmono w h.1) (R := fun _ => Made e) (fun w ok _ h => ⟨?_, h.2⟩) fun _ => hpush
      exact h.1.apply (.emit (.received msg e)) ok ⟨rfl, rfl⟩

/-! ### The dispatcher -/

/-- While the dispatcher works on `event`, which began in `b`: what it has queued so far are restarts of the service of
the event. -/
structure Replying (event : EventRef) (b x : Instance) : Prop where
  runMode : x.runMode = b.runMode
  dispatcherQueue : x.dispatcherQueue = b.dispatcherQueue
  subjects : b.SameSubjects x
  restarts : x.restarts = b.restarts
  crashes : b.crashes <+: x.crashes
  posted : ∃ n, x.restartsWaiting = b.restartsWaiting ++ List.replicate n (b.heap event).serviceName
  executing : ∀ y ∈ x.executorQueue, y.2 < x.allocated

/-- Restarts on their way, and crashes at twice the price. -/
def answering (w : Instance) : Nat := w.restartsWaiting.length + 2 * w.crashes.length

namespace Replying

theorem start (he : ∀ y ∈ b.executorQueue, y.2 < b.allocated) : Replying event b b :=
  ⟨rfl, rfl, .of_eq rfl rfl, rfl, List.prefix_rfl, ⟨0, (List.append_nil _).symm⟩, he⟩

/-- What is neither queued for the executor nor put in the log. -/
private theorem keep {y : Instance} (h : Replying event b x) (hm : y.runMode = x.runMode)
    (hd : y.dispatcherQueue = x.dispatcherQueue) (he : y.executorQueue = x.executorQueue) (hs : x.SameSubjects y)
    (hc : y.crashes = x.crashes) (hr : y.restarts = x.restarts) :
    Replying event b y ∧ y.answering = x.answering := by
  have hw : y.restartsWaiting = x.restartsWaiting := hs.restartsWaiting he h.executing
  refine ⟨⟨hm.trans h.runMode, hd.trans h.dispatcherQueue, h.subjects.trans hs, hr.trans h.restarts, hc ▸ h.crashes,
    hw ▸ h.posted, fun z hz => ?_⟩, by unfold answering; rw [hw, hc]⟩
  rw [he] at hz
  exact Nat.lt_of_lt_of_le (h.executing z hz) hs.allocated

private theorem apply (hb : event < b.allocated) (h : Replying event b x)
    (hop : (dispatching event (fun _ => True) b.runMode 0 1 2).allowed op) :
    Replying event b (Instance.apply op ok x).2 ∧ (Instance.apply op ok x).2.answering ≤
      x.answering + (dispatching event (fun _ => True) b.runMode 0 1 2).cost op := by
  have hm : (Instance.apply op ok x).2.runMode = x.runMode := congrArg Identity.runMode (apply_identity op ok x)
  have hs := SameSubjects.apply op ok x
  cases op with
  | pushExecutor type event' =>
    obtain rfl : event' = event := hop
    have hw : (Instance.apply (.pushExecutor type event') ok x).2.restartsWaiting =
        x.restartsWaiting ++ if type.restarts then [(b.heap event').serviceName] else [] := by
      show (x.executorQueue ++ [(type, event')]).filterMap _ = _
      rw [List.filterMap_append]
      refine congrArg _ ?_
      rw [← h.subjects.serviceName event' hb]
      cases hr : type.restarts <;> simp [hr, Instance.apply, pushExecutor]
    obtain ⟨n, hn⟩ := h.posted
    have hc : (Instance.apply (.pushExecutor type event') ok x).2.crashes = x.crashes := crashes_append rfl _
    refine ⟨⟨hm.trans h.runMode, h.dispatcherQueue, h.subjects.trans hs, ?_, hc ▸ h.crashes, ?_, fun y hy => ?_⟩, ?_⟩
    · exact (restarts_append rfl _).trans h.restarts
    · rw [hw, hn]
      cases type.restarts with
      | true => exact ⟨n + 1, by simp [List.replicate_succ']⟩
      | false => exact ⟨n, by simp⟩
    · rcases List.mem_append.1 hy with hy | hy
      · exact h.executing y hy
      · rw [List.mem_singleton.1 hy]
        exact Nat.lt_of_lt_of_le hb h.subjects.allocated
    · show _ ≤ x.answering + if type.restarts then 1 else 0
      unfold answering
      rw [hw, hc]
      cases type.restarts with
      | true =>
        simp only [if_true, List.length_append, List.length_singleton]
        omega
      | false => simp
  | emit o =>
    have hrestarts : o.restartedService = none := by
      cases o with
      | restartUnit => exact absurd hop (by simp [dispatching, Output.isReport])
      | _ => rfl
    cases hc : o.crashedService with
    | none =>
      obtain ⟨hk, ha⟩ := h.keep hm rfl rfl hs (crashes_append hc _) (restarts_append hrestarts _)
      exact ⟨hk, by rw [ha]; exact Nat.le_add_right _ _⟩
    | some service =>
      have hcrashes : (Instance.apply (.emit o) ok x).2.crashes = x.crashes ++ [service] := by
        show (x.trace ++ [o]).filterMap _ = _
        rw [List.filterMap_append, List.filterMap_cons_some hc]
        rfl
      refine ⟨⟨hm.trans h.runMode, h.dispatcherQueue, h.subjects.trans hs,
        (restarts_append hrestarts _).trans h.restarts, hcrashes ▸ h.crashes.trans (List.prefix_append ..), h.posted,
        h.executing⟩, ?_⟩
      have hprice : o.isDetection = true := by
        cases o with
        | crashDetected => rfl
        | _ => cases hc
      show _ ≤ x.answering + if o.isDetection then 2 else 0
      unfold answering
      rw [hprice, hcrashes, List.length_append, show (Instance.apply (.emit o) ok x).2.restartsWaiting =
        x.restartsWaiting from rfl]
      simp only [List.length_singleton, if_true]
      omega
  | pushDispatcher => exact hop.elim
  | _ =>
    obtain ⟨hk, ha⟩ := h.keep hm (apply_dispatcherQueue (by simp)) (apply_executorQueue (by simp)) hs
      (apply_crashes (by simp)) (apply_restarts (by simp))
    exact ⟨hk, by rw [ha]; exact Nat.le_add_right _ _⟩

/-- At the end of what may lead to `k` restarts and reports nothing. -/
private theorem backed {k : Nat} (h : Replying event b x) (ha : x.answering ≤ b.answering + k) (hk : k ≤ 1)
    (hb : b.Backed reports)
    (hroom : k = 1 → (b.restarts ++ b.restartsWaiting ++ [(b.heap event).serviceName]).Sublist b.crashes) :
    x.Backed reports := by
  obtain ⟨n, hn⟩ := h.posted
  have hlen := h.crashes.length_le
  have hprice : b.restartsWaiting.length + n + 2 * x.crashes.length ≤
      b.restartsWaiting.length + 2 * b.crashes.length + k := by
    unfold answering at ha
    rwa [hn, List.length_append, List.length_replicate] at ha
  have hcrashes : x.crashes = b.crashes := (h.crashes.eq_of_length (by omega)).symm
  refine ⟨?_, ?_, fun e he => ?_, h.executing⟩
  · rw [h.restarts, hcrashes, hn]
    rcases Nat.eq_zero_or_pos n with rfl | hpos
    · rw [List.replicate_zero, List.append_nil]
      exact hb.restarts
    · obtain rfl : n = 1 := by omega
      rw [List.replicate_one, ← List.append_assoc]
      exact hroom (by omega)
  · rw [hcrashes, h.subjects.crashesWaiting h.dispatcherQueue hb.dispatching]
    exact hb.crashes
  · rw [h.dispatcherQueue] at he
    exact Nat.lt_of_lt_of_le (hb.dispatching e he) h.subjects.allocated

end Replying

private theorem triple_replying {p : Proc PUnit} {k : Nat} (hk : k ≤ 1)
    (hp : p.Within (dispatching event (fun _ => True) b.runMode 0 1 2) k) (he : event < b.allocated)
    (hb : b.Backed reports)
    (hroom : k = 1 → (b.restarts ++ b.restartsWaiting ++ [(b.heap event).serviceName]).Sublist b.crashes) :
    Triple machine Unreliable (· = b) p (fun _ => Backed reports) (Backed reports) := by
  have hspends := Triple.spends (M := machine) (A := Unreliable) (I := Replying event b) (μ := answering)
    (fun op ok x hop _ hx => ?_) (m := b.answering) hp
  · refine hspends.weaken (fun x hx => ?_) (fun _ x hx => hx.1.backed hx.2 hk hb hroom) fun x hx =>
      hx.1.backed hx.2 hk hb hroom
    rw [hx]
    exact ⟨.start hb.executing, Nat.le_refl _⟩
  · obtain ⟨hk, ha⟩ := hx.apply he hop
    refine ⟨hk, ?_, ha⟩
    cases op with
    | getRunMode => exact hx.runMode
    | getClients => exact fun _ _ => trivial
    | _ => trivial

/-- A crash that is taken from the queue goes into the log, and one restart may follow. -/
private theorem triple_dispatch_backed {queue : List EventRef} (h : w.Backed reports)
    (hq : w.dispatcherQueue = event :: queue) :
    Triple machine Unreliable (· = { w with dispatcherQueue := queue }) (dispatcherSourceCallback event)
      (fun _ => Backed reports) (Backed reports) := by
  have he : event < w.allocated := h.dispatching event (by simp [hq])
  have hwaiting : w.crashesWaiting =
      (w.heap event).crashedService.toList ++ ({ w with dispatcherQueue := queue } : Instance).crashesWaiting := by
    unfold crashesWaiting
    rw [hq, List.filterMap_cons]
    cases (w.heap event).crashedService <;> rfl
  have hrest : ({ w with dispatcherQueue := queue } : Instance).Backed reports := by
    refine ⟨h.restarts, .trans ?_ h.crashes, fun e hx => h.dispatching e (by simp [hq, hx]), h.executing⟩
    rw [hwaiting]
    exact (List.Sublist.refl _).append (List.sublist_append_right ..)
  have hfree : ∀ {p : Proc PUnit}, p.Within (dispatching event (fun _ => True) w.runMode 0 1 2) 0 →
      Triple machine Unreliable (· = { w with dispatcherQueue := queue }) p (fun _ => Backed reports)
        (Backed reports) := fun hp =>
    triple_replying (Nat.zero_le 1) hp he hrest (by simp)
  refine Triple.bind ((triple_load (d := w.heap event) fun x hx => by rw [hx]).weaken (fun _ hx => hx)
    (fun _ _ hx => hx) fun x hx => hx ▸ hrest) fun e => Triple.of_prop fun hd => ?_
  subst hd
  cases ht : (w.heap event).type with
  | informProcessCrash => exact hfree within_doFriendProcessCrashEvent
  | informServiceFailed => exact hfree within_doFriendServiceFailedEvent
  | serviceCrashed =>
    have hc : (w.heap event).crashedService = some (w.heap event).serviceName := if_pos ht
    have hout : ({ w with dispatcherQueue := queue } : Instance).crashes ++ [(w.heap event).serviceName] =
        (({ w with dispatcherQueue := queue } : Instance).emit
          (.crashDetected (w.heap event).serviceName (w.heap event).cause)).crashes := by
      show _ = (w.trace ++ [_]).filterMap _
      rw [List.filterMap_append]
      rfl
    refine .call (fun x hx => hx ▸ hrest) (R := fun _ => (· = ({ w with dispatcherQueue := queue } : Instance).emit
      (.crashDetected (w.heap event).serviceName (w.heap event).cause))) (fun x ok _ hx => by rw [hx]; rfl) fun _ => ?_
    have hrestarts : (({ w with dispatcherQueue := queue } : Instance).emit
        (.crashDetected (w.heap event).serviceName (w.heap event).cause)).restarts = w.restarts := restarts_append rfl _
    have hroom := hrest.restarts.append (List.Sublist.refl [(w.heap event).serviceName])
    rw [hout] at hroom
    refine triple_replying (Nat.le_refl 1) within_doProcessServiceCrashEvent he ⟨?_, ?_, hrest.dispatching,
      hrest.executing⟩ fun _ => ?_
    · rw [hrestarts]
      exact (List.sublist_append_left ..).trans hroom
    · have hcrashes := h.crashes
      rw [hwaiting, hc, ← List.append_assoc] at hcrashes
      rw [← hout]
      exact hcrashes
    · rw [hrestarts]
      exact hroom
  | remoteContextRestart => exact hfree (within_push rfl)
  | remotePlatformRestart => exact hfree (within_push rfl)
  | remoteFactoryReset => exact hfree (within_push rfl)
  | serviceRestarted => exact .ret fun x hx => hx ▸ hrest
  | unknown => exact .ret fun x hx => hx ▸ hrest

/-! ### The executor -/

/-- While the executor works on an event, which began in `b`: all it has asked for are restarts of the service of the
event. -/
structure Executing (event : EventRef) (b x : Instance) : Prop where
  runMode : x.runMode = b.runMode
  heap : x.heap = b.heap
  allocated : x.allocated = b.allocated
  dispatcherQueue : x.dispatcherQueue = b.dispatcherQueue
  executorQueue : x.executorQueue = b.executorQueue
  crashes : x.crashes = b.crashes
  restarts : ∃ n, x.restarts = b.restarts ++ List.replicate n (b.heap event).serviceName

namespace Executing

private theorem apply (h : Executing event b x)
    (hop : (carryingOut event (· = b.heap event) b.runMode 1).allowed op) :
    Executing event b (Instance.apply op ok x).2 ∧ (Instance.apply op ok x).2.restarts.length ≤
      x.restarts.length + (carryingOut event (· = b.heap event) b.runMode 1).cost op := by
  have hm : (Instance.apply op ok x).2.runMode = x.runMode := congrArg Identity.runMode (apply_identity op ok x)
  have hkeep : (Instance.apply op ok x).2.heap = x.heap → (Instance.apply op ok x).2.allocated = x.allocated →
      (∀ e, op ≠ .pushDispatcher e) → (∀ type e, op ≠ .pushExecutor type e) →
      (∀ o, op = .emit o → o.crashedService = none ∧ o.restartedService = none) →
      Executing event b (Instance.apply op ok x).2 ∧ (Instance.apply op ok x).2.restarts.length ≤
        x.restarts.length + (carryingOut event (· = b.heap event) b.runMode 1).cost op := by
    intro hh ha hd he ho
    have hr : (Instance.apply op ok x).2.restarts = x.restarts := apply_restarts fun o h => (ho o h).2
    refine ⟨⟨hm.trans h.runMode, hh.trans h.heap, ha.trans h.allocated,
      (apply_dispatcherQueue hd).trans h.dispatcherQueue, (apply_executorQueue he).trans h.executorQueue,
      (apply_crashes fun o h => (ho o h).1).trans h.crashes, hr ▸ h.restarts⟩, ?_⟩
    rw [hr]
    exact Nat.le_add_right _ _
  cases op with
  | sql q =>
    have hq : (Instance.apply (.sql q) ok x).2 = x := by
      rcases apply_sql x q ok with h' | ⟨j, -, h'⟩
      · rw [h']
      · rw [h']
        exact commit_of_isSelect hop _
    exact hkeep (by rw [hq]) (by rw [hq]) (by simp) (by simp) (by simp)
  | managerSend msg => cases ok <;> exact hkeep rfl rfl (by simp) (by simp) (by simp)
  | load | getRunMode | getHostName | getOptions | getManagerProxy => exact hkeep rfl rfl (by simp) (by simp) (by simp)
  | emit o =>
    cases ho : o.restartedService with
    | none =>
      refine hkeep rfl rfl (by simp) (by simp) fun o' h' => ?_
      cases h'
      refine ⟨?_, ho⟩
      cases o with
      | crashDetected => cases hop.1
      | _ => rfl
    | some service =>
      obtain rfl : o = .restartUnit service := by
        cases o with
        | restartUnit s => exact congrArg Output.restartUnit (Option.some.inj ho)
        | _ => cases ho
      obtain ⟨d, rfl, rfl⟩ := hop.2 service rfl
      have hr : (Instance.apply (.emit (.restartUnit (b.heap event).serviceName)) ok x).2.restarts =
          x.restarts ++ [(b.heap event).serviceName] := by
        show (x.trace ++ [_]).filterMap _ = _
        rw [List.filterMap_append]
        rfl
      obtain ⟨n, hn⟩ := h.restarts
      refine ⟨⟨h.runMode, h.heap, h.allocated, h.dispatcherQueue, h.executorQueue,
        (crashes_append rfl _).trans h.crashes, n + 1, ?_⟩, ?_⟩
      · rw [hr, hn, List.append_assoc, List.replicate_succ']
      · rw [hr, List.length_append]
        exact Nat.le_refl _
  | _ => exact hop.elim

/-- At the end of what may restart the service `k` times. -/
private theorem backed {k : Nat} (h : Executing event b x) (hr : x.restarts.length ≤ b.restarts.length + k)
    (hk : k ≤ 1) (hb : b.Backed reports)
    (hroom : k = 1 → (b.restarts ++ [(b.heap event).serviceName] ++ b.restartsWaiting).Sublist b.crashes) :
    x.Backed reports := by
  have hs : b.SameSubjects x := .of_eq h.heap h.allocated
  obtain ⟨n, hn⟩ := h.restarts
  rw [hn, List.length_append, List.length_replicate] at hr
  refine ⟨?_, ?_, fun e he => ?_, fun y hy => ?_⟩
  · rw [h.crashes, hs.restartsWaiting h.executorQueue hb.executing, hn]
    rcases Nat.eq_zero_or_pos n with rfl | hpos
    · rw [List.replicate_zero, List.append_nil]
      exact hb.restarts
    · obtain rfl : n = 1 := by omega
      exact hroom (by omega)
  · rw [h.crashes, hs.crashesWaiting h.dispatcherQueue hb.dispatching]
    exact hb.crashes
  · rw [h.dispatcherQueue] at he
    exact h.allocated ▸ hb.dispatching e he
  · rw [h.executorQueue] at hy
    exact h.allocated ▸ hb.executing y hy

end Executing

/-- The restart that is taken from the queue is asked for, at most once. -/
private theorem triple_execute_backed {type : ExecutorEventType} {queue : List (ExecutorEventType × EventRef)}
    (h : w.Backed reports) (hq : w.executorQueue = (type, event) :: queue) :
    Triple machine Unreliable (· = { w with executorQueue := queue }) (executorSourceCallback type event)
      (fun _ => Backed reports) (Backed reports) := by
  have hwaiting : w.restartsWaiting = (if type.restarts then [(w.heap event).serviceName] else []) ++
      ({ w with executorQueue := queue } : Instance).restartsWaiting := by
    unfold restartsWaiting
    rw [hq, List.filterMap_cons]
    cases type.restarts <;> rfl
  have hrest : ({ w with executorQueue := queue } : Instance).Backed reports := by
    refine ⟨.trans ?_ h.restarts, h.crashes, h.dispatching, fun y hy => h.executing y (by simp [hq, hy])⟩
    rw [hwaiting]
    exact (List.Sublist.refl _).append (List.sublist_append_right ..)
  have hfriend : ∀ t, Triple machine Unreliable (· = { w with executorQueue := queue })
      (doProcessFriendCrashEvent event t) (fun _ => Backed reports) (Backed reports) := fun t =>
    (triple_apart ((calls_friend_attending event t).mono fun _ => apart_of_attending)).weaken
      (fun x hx => hx ▸ hrest) (fun _ _ hx => hx) fun _ hx => hx
  cases hr : type.isRecovery with
  | false =>
    cases type with
    | friendProcessCrash => exact hfriend _
    | friendServiceFailed => exact hfriend _
    | _ => cases hr
  | true =>
    have hspends := Triple.spends (M := machine) (A := Unreliable)
      (I := Executing event { w with executorQueue := queue }) (μ := fun x => x.restarts.length)
      (fun op ok x hop _ hx => ?_) (m := w.restarts.length)
      (within_executorSourceCallback hr event (· = w.heap event) w.runMode 1)
    · have hone : (if type.restarts then 1 else 0) ≤ 1 := by split <;> simp
      have hend : ∀ x, Executing event { w with executorQueue := queue } x ∧
          x.restarts.length ≤ w.restarts.length + (if type.restarts then 1 else 0) → x.Backed reports := by
        rintro x ⟨hx, hlen⟩
        refine hx.backed hlen hone hrest fun hk => ?_
        have hrestarts := h.restarts
        rw [hwaiting, if_pos (by by_contra hn; simp [hn] at hk), ← List.append_assoc] at hrestarts
        exact hrestarts
      refine hspends.weaken (fun x hx => ?_) (fun _ => hend) hend
      rw [hx]
      exact ⟨⟨rfl, rfl, rfl, rfl, rfl, rfl, 0, (List.append_nil _).symm⟩, Nat.le_refl _⟩
    · obtain ⟨hk, ha⟩ := hx.apply hop
      refine ⟨hk, ?_, ha⟩
      cases op with
      | getRunMode => exact hx.runMode
      | load event' =>
        obtain rfl : event' = event := hop
        show x.heap event' = _
        rw [hx.heap]
      | _ => trivial

/-! ### Steps and runs -/

/-- An event that is no crash. -/
private theorem triple_report_other {d : RmgDEvent} {cause : Option Cause} {k : EventRef → Proc PUnit}
    (hd : d.type ≠ .serviceCrashed) (hk : ∀ e, k e = rmgDispatcherPushServiceEvent e ∨ ∃ msg, k e =
      (output (.received msg e) >>= fun _ => rmgDispatcherPushServiceEvent e)) :
    Triple machine Unreliable (Backed reports) (.call (.newEvent d cause) k) (fun _ => Backed reports)
      (Backed reports) := by
  have h : Triple machine Unreliable (Backed reports) (.call (.newEvent d cause) k)
      (fun _ => Backed (reports ++ d.crashedService.toList)) (Backed (reports ++ d.crashedService.toList)) :=
    triple_report hk
  rwa [show d.crashedService = none from if_neg hd, Option.toList_none, List.append_nil] at h

private theorem triple_client_backed (sockfd : Nat) (msg : RmgMessage) :
    Triple machine Unreliable (Backed reports) (clientProcessMessage sockfd msg) (fun _ => Backed reports)
      (Backed reports) := by
  unfold clientProcessMessage
  split
  · exact triple_apart ⟨trivial, fun _ => trivial⟩
  · exact triple_report_other (by simp) fun _ => .inr ⟨msg, rfl⟩
  · exact triple_report_other (by simp) fun _ => .inr ⟨msg, rfl⟩
  · exact triple_report_other (by simp) fun _ => .inr ⟨msg, rfl⟩
  · exact triple_report_other (by simp) fun _ => .inr ⟨msg, rfl⟩
  · exact .ret fun _ h => h

private theorem triple_manager_backed (msg : RmgMessage) :
    Triple machine Unreliable (Backed reports) (managerProcessMessage msg) (fun _ => Backed reports)
      (Backed reports) := by
  unfold managerProcessMessage
  split
  · exact triple_report_other (by simp) fun _ => .inr ⟨msg, rfl⟩
  · exact triple_report_other (by simp) fun _ => .inr ⟨msg, rfl⟩
  · exact .ret fun _ h => h

/-- With the process go what waited in the queues. -/
private theorem Backed.restarted (h : w.Backed reports) : w.restarted.Backed reports := by
  refine ⟨?_, ?_, by simp [Instance.restarted], by simp [Instance.restarted]⟩
  · show (w.restarts ++ []).Sublist _
    rw [List.append_nil]
    exact (List.sublist_append_left ..).trans h.restarts
  · show (w.crashes ++ []).Sublist _
    rw [List.append_nil]
    exact (List.sublist_append_left ..).trans h.crashes

theorem FaultyStep.backed {glib : GLib} {l : Label} {w' : Instance} (hs : FaultyStep glib w l w')
    (h : w.Backed reports) : w'.Backed (reports ++ l.crashedService.toList) := by
  -- a label that reports no crash leaves the reports as they are
  have hcall : ∀ w₀ p, Callback glib w l w₀ p → ∃ P : Instance → Prop, P w₀ ∧
      Triple machine Unreliable P p (fun _ => Backed (reports ++ l.crashedService.toList))
        (Backed (reports ++ l.crashedService.toList)) := by
    intro w₀ p hc
    have hother : l.crashedService = none → (∃ P : Instance → Prop, P w₀ ∧
        Triple machine Unreliable P p (fun _ => Backed reports) (Backed reports)) → ∃ P : Instance → Prop, P w₀ ∧
          Triple machine Unreliable P p (fun _ => Backed (reports ++ l.crashedService.toList))
            (Backed (reports ++ l.crashedService.toList)) := by
      intro hl hP
      rwa [hl, Option.toList_none, List.append_nil]
    cases hc with
    | crash service => exact ⟨_, h, triple_report (d := ⟨.serviceCrashed, some service, none, none, ⟨0, 0⟩⟩)
        fun _ => .inl rfl⟩
    | restarted service => exact hother rfl ⟨_, h, triple_report_other (by simp) fun _ => .inl rfl⟩
    | newCrash process context => exact hother rfl ⟨_, h, triple_report_other (by simp) fun _ => .inl rfl⟩
    | fromReplica sockfd msg => exact hother rfl ⟨_, h, triple_client_backed sockfd msg⟩
    | fromPrimary msg => exact hother rfl ⟨_, h, triple_manager_backed msg⟩
    | dispatch hq => exact hother rfl ⟨(· = _), rfl, triple_dispatch_backed h hq⟩
    | execute hq => exact hother rfl ⟨(· = _), rfl, triple_execute_backed h hq⟩
    | @expire source _ _ =>
      refine hother rfl ⟨_, ?_, triple_apart ((calls_timer_attending source.data).mono fun _ => apart_of_attending)⟩
      exact h.keep (.of_eq rfl rfl) rfl rfl (crashes_append rfl _) (restarts_append rfl _)
    | tick => exact hother rfl ⟨_, h.keep (.of_eq rfl rfl) rfl rfl rfl rfl, .ret fun _ h => h⟩
    | restart gdir =>
      exact hother rfl ⟨_, h.restarted,
        triple_apart ((calls_boot_attending glib gdir).mono fun _ => apart_of_attending)⟩
  rcases hs.ends hcall with h' | ⟨w₁, h', rfl⟩
  · exact h'
  · exact h'.keep (.of_eq rfl rfl) rfl rfl rfl rfl

theorem backed_of_run {glib : GLib} {w₀ : Instance} {ls : List Label} (h₀ : w₀.Fresh)
    (hr : FaultyRuns glib w₀ ls w) : w.Backed (ls.filterMap Label.crashedService) := by
  induction hr with
  | nil =>
    have hcrashes : w₀.crashes = [] := by rw [crashes, h₀.trace]; rfl
    have hrestarts : w₀.restarts = [] := by rw [restarts, h₀.trace]; rfl
    refine ⟨?_, ?_, by simp [h₀.dispatcherQueue], by simp [h₀.executorQueue]⟩
    · rw [hrestarts, restartsWaiting, h₀.executorQueue]
      exact List.nil_sublist _
    · rw [hcrashes, crashesWaiting, h₀.dispatcherQueue]
      exact List.nil_sublist _
  | @snoc ls t u l _ hs ih =>
    have h := hs.backed ih
    rwa [show (ls ++ [l]).filterMap Label.crashedService =
      ls.filterMap Label.crashedService ++ l.crashedService.toList by
        rw [List.filterMap_append]; cases hc : l.crashedService <;> simp [hc]]

/-- In every run, over restarts too, with any statement or send failing and the process dying at any operation: the
restarts asked for, with those that wait for the executor, are a sublist of the crashes in the log, and these, with the
crashes that wait for the dispatcher, a sublist of the crashes reported. -/
theorem restarts_stem_from_crashes {glib : GLib} {w₀ : Instance} {ls : List Label} (h₀ : w₀.Fresh)
    (hr : FaultyRuns glib w₀ ls w) :
    (w.restarts ++ w.restartsWaiting).Sublist w.crashes ∧
      (w.crashes ++ w.crashesWaiting).Sublist (ls.filterMap Label.crashedService) :=
  ⟨(backed_of_run h₀ hr).restarts, (backed_of_run h₀ hr).crashes⟩

/-- Two crashes of a service, both restarts still waiting. -/
theorem restarts_stem_from_crashes_of_two :
    [some "a.service", some "a.service"].Sublist (crashesPosted.get crashesPosted_isSome).crashes ∧
      (crashesPosted.get crashesPosted_isSome).crashes.Sublist [some "a.service", some "a.service"] := by
  have h := restarts_stem_from_crashes (fresh_initial _ _)
    ((runs_of_replayed (Option.some_get crashesPosted_isSome).symm).mono fun _ _ _ => Step.faulty)
  rwa [show (crashesPosted.get crashesPosted_isSome).restarts = [] by decide +kernel,
    show (crashesPosted.get crashesPosted_isSome).restartsWaiting = [some "a.service", some "a.service"] by
      decide +kernel,
    show (crashesPosted.get crashesPosted_isSome).crashesWaiting = [] by decide +kernel, List.append_nil] at h

end Instance

end RecoveryManager
