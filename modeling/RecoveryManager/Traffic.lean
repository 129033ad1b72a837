import RecoveryManager.Boot

/-!
# What instances exchange

The part of an instance that deals with events and messages (`Traffic`), and what a step makes of it (`Traffic.Move`,
`move_of_step`).  Everything else an instance does leaves its traffic alone.
-/

namespace RecoveryManager

open Fallible Fallible.Prog

/-- An event in the executor queue, as far as a request made for it goes. -/
structure Job where
  type : ExecutorEventType
  serviceName : Option String
  cause : Cause
  deriving DecidableEq, Repr

structure Traffic where
  allocated : EventRef
  inbox : List RmgDEvent
  work : List Job
  clients : List RmgClient
  toClient : Nat → List RmgMessage
  toManager : List RmgMessage
  /-- The executor events pushed so far. -/
  pushed : List (ExecutorEventType × RmgDEvent)
  /-- The actions selected so far. -/
  selected : List (RmgActionType × Option String)
  /-- The messages sent to the primary so far. -/
  requested : List RmgMessage
  /-- The messages sent to clients so far. -/
  sent : List (Nat × RmgMessage)

namespace Output

def asPush : Output → Option (ExecutorEventType × RmgDEvent)
  | .pushed type e => some (type, e)
  | _ => none

def asSelection : Output → Option (RmgActionType × Option String)
  | .actionRequired type service _ _ => some (type, service)
  | _ => none

def asRequest : Output → Option RmgMessage
  | .managerSent msg => some msg
  | _ => none

def asSent : Output → Option (Nat × RmgMessage)
  | .clientSent sockfd msg => some (sockfd, msg)
  | _ => none

end Output

/-- The executor event for a request from a replica. -/
def DispatcherEventType.remoteKind : DispatcherEventType → Option ExecutorEventType
  | .remoteContextRestart => some .contextRestart
  | .remotePlatformRestart => some .platformRestart
  | .remoteFactoryReset => some .factoryReset
  | _ => none

/-- The message by which a replica asks for an executor event. -/
def ExecutorEventType.requestType : ExecutorEventType → Option RmgMessageType
  | .contextRestart => some .requestContextRestart
  | .platformRestart => some .requestPlatformRestart
  | .factoryReset => some .requestFactoryReset
  | _ => none

namespace Traffic

variable (T : Traffic)

def arrive (e : RmgDEvent) : Traffic := { T with allocated := T.allocated + 1, inbox := T.inbox ++ [e] }

def push (type : ExecutorEventType) (e : RmgDEvent) : Traffic :=
  { T with work := T.work ++ [⟨type, e.serviceName, e.cause⟩], pushed := T.pushed ++ [(type, e)] }

/-- A message to every client that meets `p`. -/
def broadcast (msg : RmgMessage) (p : RmgClient → Bool) : Traffic :=
  { T with
    toClient := fun k => T.toClient k ++ (T.clients.filter fun c => c.sockfd = k ∧ p c).map fun _ => msg
    sent := T.sent ++ (T.clients.filter p).map fun c => (c.sockfd, msg) }

def request (msg : RmgMessage) : Traffic :=
  { T with toManager := T.toManager ++ [msg], requested := T.requested ++ [msg] }

def setClientName (sockfd : Nat) (name : Option String) : Traffic :=
  { T with clients := T.clients.map fun c => if c.sockfd = sockfd then { c with contextName := name } else c }

def select (type : RmgActionType) (e : RmgDEvent) : Traffic :=
  if type ≠ .invalid then { T with selected := T.selected ++ [(type, e.serviceName)] } else T

/-! ### Handling an event -/

/-- `do_friend_process_crash_event`. -/
def processCrashed (runMode : RmgRunMode) (e : RmgDEvent) : Traffic :=
  let T₁ : Traffic := match runMode with
    | .primary => T.broadcast ⟨.informProcessCrash, e.processName, none, e.contextName, e.cause⟩ fun _ => true
    | .replica => T
  T₁.push .friendProcessCrash e

/-- `do_friend_service_failed_event`. -/
def serviceFailed (runMode : RmgRunMode) (hostName : String) (e : RmgDEvent) : Traffic :=
  let T₁ : Traffic := match runMode with
    | .primary => T.broadcast ⟨.informClientServiceFailed, none, e.serviceName, e.contextName, e.cause⟩
        (·.contextName ≠ e.contextName)
    | .replica => T.request ⟨.informPrimaryServiceFailed, none, e.serviceName, e.contextName, e.cause⟩
  if some hostName ≠ e.contextName then T₁.push .friendServiceFailed e else T₁

/-- `do_process_service_crash_event` of a service with a recovery unit, when `type` is the action selected. -/
def crashed (runMode : RmgRunMode) (hostName : String) (e : RmgDEvent) (type : RmgActionType) : Traffic :=
  let T₁ := T.select type e
  let T₂ : Traffic := match type.kind with
    | some kind => T₁.push kind e
    | none => T₁
  T₂.serviceFailed runMode hostName { e with contextName := some hostName }

/-- `process_message` of `rmg-client.c`. -/
def fromReplica (sockfd : Nat) (msg : RmgMessage) : Traffic :=
  let service (type : DispatcherEventType) : RmgDEvent := ⟨type, msg.serviceName, none, msg.contextName, msg.cause⟩
  match msg.type with
  | .replicaDescriptor => T.setClientName sockfd msg.contextName
  | .requestContextRestart | .requestPlatformRestart => T.arrive (service .remoteContextRestart)
  | .requestFactoryReset => T.arrive (service .remoteFactoryReset)
  | .informPrimaryServiceFailed => T.arrive (service .informServiceFailed)
  | _ => T

/-- `process_message` of `rmg-manager.c`. -/
def fromPrimary (msg : RmgMessage) : Traffic :=
  match msg.type with
  | .informProcessCrash => T.arrive ⟨.informProcessCrash, none, msg.processName, msg.contextName, msg.cause⟩
  | .informClientServiceFailed => T.arrive ⟨.informServiceFailed, msg.serviceName, none, msg.contextName, msg.cause⟩
  | _ => T

/-- A replica forwards a request; everything else the executor does stays on the instance. -/
def executed (runMode : RmgRunMode) (hostName : String) (job : Job) : Traffic :=
  match runMode, job.type.requestType with
  | .replica, some type => T.request ⟨type, none, job.serviceName, some hostName, job.cause⟩
  | _, _ => T

/-- What the dispatcher makes of an event; `units` are the services with a recovery unit. -/
inductive Handled (c : Instance.Identity) (units : Option String → Prop) (e : RmgDEvent) (T : Traffic) : Traffic → Prop
  | processCrashed : e.type = .informProcessCrash → Handled c units e T (T.processCrashed c.runMode e)
  | serviceFailed : e.type = .informServiceFailed → Handled c units e T (T.serviceFailed c.runMode c.hostName e)
  | noUnit : e.type = .serviceCrashed → ¬ units e.serviceName → Handled c units e T T
  | crashed (type : RmgActionType) : e.type = .serviceCrashed → units e.serviceName →
      Handled c units e T (T.crashed c.runMode c.hostName e type)
  | remote (kind : ExecutorEventType) : e.type.remoteKind = some kind → Handled c units e T (T.push kind e)
  | other : e.type = .serviceRestarted ∨ e.type = .unknown → Handled c units e T T

/-- What a step does to the traffic of an instance. -/
inductive Move (c : Instance.Identity) (units : Option String → Prop) (T : Traffic) : Label → Traffic → Prop
  | crash (service : String) :
      Move c units T (.crash service) (T.arrive ⟨.serviceCrashed, some service, none, none, ⟨c.ident, T.allocated⟩⟩)
  | restarted (service : String) :
      Move c units T (.restarted service) (T.arrive ⟨.serviceRestarted, some service, none, none,
        ⟨c.ident, T.allocated⟩⟩)
  | newCrash (process context : String) :
      Move c units T (.newCrash process context)
        (T.arrive ⟨.informProcessCrash, none, some process, some context, ⟨c.ident, T.allocated⟩⟩)
  | fromReplica (sockfd : Nat) (msg : RmgMessage) : Move c units T (.fromReplica sockfd msg) (T.fromReplica sockfd msg)
  | fromPrimary (msg : RmgMessage) : Move c units T (.fromPrimary msg) (T.fromPrimary msg)
  | dispatch {e : RmgDEvent} {inbox : List RmgDEvent} {T' : Traffic} : T.inbox = e :: inbox →
      Handled c units e { T with inbox := inbox } T' → Move c units T .dispatch T'
  | execute {job : Job} {work : List Job} : T.work = job :: work →
      Move c units T .execute (Traffic.executed { T with work := work } c.runMode c.hostName job)
  | expire (id : Nat) : Move c units T (.expire id) T
  | tick : Move c units T .tick T

end Traffic

/-- An event has the names that are asserted when it is handled. -/
structure RmgDEvent.Named (e : RmgDEvent) : Prop where
  crash : e.type = .serviceCrashed → e.serviceName.isSome
  failed : e.type = .informServiceFailed → e.serviceName.isSome ∧ e.contextName.isSome
  process : e.type = .informProcessCrash → e.processName.isSome ∧ e.contextName.isSome
  remote : e.type.remoteKind.isSome → e.serviceName.isSome

namespace Instance

def traffic (w : Instance) : Traffic where
  allocated := w.allocated
  inbox := w.dispatcherQueue.map w.heap
  work := w.executorQueue.map fun x => ⟨x.1, (w.heap x.2).serviceName, (w.heap x.2).cause⟩
  clients := w.clients
  toClient := w.toClient
  toManager := w.toManager
  pushed := w.trace.filterMap Output.asPush
  selected := w.trace.filterMap Output.asSelection
  requested := w.trace.filterMap Output.asRequest
  sent := w.trace.filterMap Output.asSent

/-- The queues refer to different objects of the store. -/
structure Linked (w : Instance) : Prop where
  dispatcher : ∀ event ∈ w.dispatcherQueue, event < w.allocated
  executor : ∀ x ∈ w.executorQueue, x.2 < w.allocated
  nodup : w.dispatcherQueue.Nodup

variable {w w' : Instance} {glib : GLib} {l : Label}

/-! ### Operations that leave the traffic alone -/

private theorem filterMap_append_none {β : Type} {f : Output → Option β} {o : Output} (h : f o = none)
    (l : List Output) :
    (l ++ [o]).filterMap f = l.filterMap f := by
  simp [h]

/-- An entry of the trace that is no push, no selection and no request does not show. -/
theorem traffic_emit {o : Output} (h₁ : o.asPush = none) (h₂ : o.asSelection = none) (h₃ : o.asRequest = none)
    (h₄ : o.asSent = none) (w : Instance) : (w.emit o).traffic = w.traffic := by
  simp only [traffic, emit, filterMap_append_none h₁, filterMap_append_none h₂, filterMap_append_none h₃,
    filterMap_append_none h₄]

theorem apply_aside {op : Op} {e : Bool} (h : op.Aside) :
    (apply op e w).2.traffic = w.traffic ∧ ((apply op e w).2.Linked ↔ w.Linked) := by
  cases op with
  | sql q =>
    rcases apply_sql w q e with h' | ⟨j, -, h'⟩
    · rw [h']
      exact ⟨rfl, Iff.rfl⟩
    · rw [h', commit]
      split
      · exact ⟨rfl, Iff.rfl⟩
      · exact ⟨traffic_emit (o := .statement q) rfl rfl rfl rfl w, ⟨fun h => ⟨h.1, h.2, h.3⟩, fun h => ⟨h.1, h.2, h.3⟩⟩⟩
  | timeoutAddSeconds seconds data =>
    exact ⟨traffic_emit (o := .timeoutAdded ⟨w.nextSource, w.now + seconds, data⟩) rfl rfl rfl rfl w,
      ⟨fun h => ⟨h.1, h.2, h.3⟩, fun h => ⟨h.1, h.2, h.3⟩⟩⟩
  | emit o =>
    have ho : o.isEffect := h
    refine ⟨traffic_emit ?_ ?_ ?_ ?_ w, ⟨fun h => ⟨h.1, h.2, h.3⟩, fun h => ⟨h.1, h.2, h.3⟩⟩⟩ <;>
      cases o <;> first | rfl | cases ho
  | load | getRunMode | getHostName | getOptions | getManagerProxy | getClients => exact ⟨rfl, Iff.rfl⟩
  | _ => exact h.elim

/-- A callback of such operations leaves the traffic alone, however it ends. -/
theorem traffic_of_calls {p : Proc PUnit} (hp : p.Calls Op.Aside) (w : Instance) :
    (w.after p).traffic = w.traffic ∧ ((w.after p).Linked ↔ w.Linked) := by
  have ht : Triple machine (fun _ _ => True) (fun w' => w'.traffic = w.traffic ∧ (w'.Linked ↔ w.Linked)) p
      (fun _ w' => w'.traffic = w.traffic ∧ (w'.Linked ↔ w.Linked))
      (fun w' => w'.traffic = w.traffic ∧ (w'.Linked ↔ w.Linked)) := by
    refine .of_calls (fun op e w' hop _ hw => ?_) hp
    obtain ⟨ht, hl⟩ := apply_aside (w := w') (e := e) hop
    exact ⟨ht.trans hw.1, hl.trans hw.2⟩
  obtain ⟨hd, ha⟩ := ht.run (e := true) (fun _ => trivial) ⟨rfl, Iff.rfl⟩
  unfold after
  rcases h : (w.run p).1 with _ | ⟨⟩
  · obtain ⟨ht, hl⟩ := ha h
    exact ⟨ht, ⟨fun hx => hl.1 ⟨hx.1, hx.2, hx.3⟩, fun hx => ⟨(hl.2 hx).1, (hl.2 hx).2, (hl.2 hx).3⟩⟩⟩
  · exact hd _ h

/-! ### Operations on queues and channels -/

theorem traffic_pushExecutor (w : Instance) (type : ExecutorEventType) (event : EventRef) :
    (w.pushExecutor type event).traffic = w.traffic.push type (w.heap event) := by
  simp [traffic, Instance.pushExecutor, Traffic.push, Output.asPush, Output.asSelection, Output.asRequest,
    Output.asSent]

theorem traffic_managerSend (w : Instance) (msg : RmgMessage) :
    (w.managerSend msg).traffic = w.traffic.request msg := by
  simp [traffic, Instance.managerSend, Traffic.request, Output.asPush, Output.asSelection, Output.asRequest,
    Output.asSent]

/-- The clients in turn, each that meets `p` being sent the message. -/
def sentTo (w : Instance) (msg : RmgMessage) (p : RmgClient → Bool) (clients : List RmgClient) : Instance :=
  clients.foldl (fun w c => if p c then w.clientSend c.sockfd msg else w) w

section loop
variable {msg : RmgMessage} {p : RmgClient → Bool}

/-- What a loop over clients leaves alone. -/
structure SameStore (w w' : Instance) : Prop where
  heap : w'.heap = w.heap
  allocated : w'.allocated = w.allocated
  dispatcherQueue : w'.dispatcherQueue = w.dispatcherQueue
  executorQueue : w'.executorQueue = w.executorQueue
  identity : w'.identity = w.identity
  running : w'.running = w.running

theorem SameStore.linked (h : SameStore w w') (hw : w.Linked) : w'.Linked := by
  refine ⟨?_, ?_, ?_⟩
  · rw [h.dispatcherQueue, h.allocated]
    exact hw.dispatcher
  · rw [h.executorQueue, h.allocated]
    exact hw.executor
  · rw [h.dispatcherQueue]
    exact hw.nodup

private theorem sameStore_sentTo (w : Instance) (clients : List RmgClient) : SameStore w (w.sentTo msg p clients) := by
  induction clients generalizing w with
  | nil => exact ⟨rfl, rfl, rfl, rfl, rfl, rfl⟩
  | cons c clients ih =>
    unfold sentTo
    rw [List.foldl_cons]
    by_cases hp : p c
    · rw [if_pos hp]
      have h := ih (w.clientSend c.sockfd msg)
      exact ⟨h.heap, h.allocated, h.dispatcherQueue, h.executorQueue, h.identity, h.running⟩
    · rw [if_neg hp]
      exact ih w

private theorem traffic_sentTo (w : Instance) (clients : List RmgClient) :
    (w.sentTo msg p clients).traffic = { w.traffic with
      toClient := fun k => w.toClient k ++ (clients.filter fun c => c.sockfd = k ∧ p c).map fun _ => msg
      sent := w.traffic.sent ++ (clients.filter p).map fun c => (c.sockfd, msg) } := by
  induction clients generalizing w with
  | nil => simp [sentTo, traffic]
  | cons c clients ih =>
    unfold sentTo
    rw [List.foldl_cons]
    by_cases hp : p c
    · rw [if_pos hp]
      refine (ih _).trans ?_
      have ht : (w.clientSend c.sockfd msg).traffic = { w.traffic with
          toClient := Function.update w.toClient c.sockfd (w.toClient c.sockfd ++ [msg])
          sent := w.traffic.sent ++ [(c.sockfd, msg)] } := by
        simp [traffic, Instance.clientSend, Output.asPush, Output.asSelection, Output.asRequest, Output.asSent]
      rw [ht]
      have hsent : w.traffic.sent ++ [(c.sockfd, msg)] ++ (clients.filter p).map (fun c => (c.sockfd, msg)) =
          w.traffic.sent ++ ((c :: clients).filter p).map fun c => (c.sockfd, msg) := by
        rw [List.filter_cons_of_pos hp, List.append_assoc]
        rfl
      refine congrArg₂ (fun f l => ({ w.traffic with toClient := f, sent := l } : Traffic)) (funext fun k => ?_) hsent
      show Function.update w.toClient c.sockfd (w.toClient c.sockfd ++ [msg]) k ++ _ = _
      by_cases hk : c.sockfd = k
      · subst hk
        simp [hp]
      · rw [Function.update_of_ne (Ne.symm hk)]
        simp [hk]
    · rw [if_neg hp]
      refine (ih w).trans ?_
      simp [hp]

/-- A loop over the clients whose callback sends the message or does nothing. -/
private theorem run_foreachClient {callback : RmgClient → Proc PUnit} (w : Instance)
    (h : ∀ w', SameStore w w' → ∀ c, w'.run (callback c) = (some ⟨⟩, if p c then w'.clientSend c.sockfd msg else w')) :
    w.run (foreachClient callback) = (some ⟨⟩, w.sentTo msg p w.clients) := by
  have key : ∀ cs w', SameStore w w' → w'.run (List.forM cs callback) = (some ⟨⟩, w'.sentTo msg p cs) := by
    intro cs
    induction cs with
    | nil => exact fun w' _ => rfl
    | cons c cs ih =>
      intro w' hw
      show w'.run (callback c >>= fun _ => List.forM cs callback) = _
      rw [run_bind (h w' hw c)]
      by_cases hp : p c
      · rw [if_pos hp, ih (w'.clientSend c.sockfd msg)
          ⟨hw.heap, hw.allocated, hw.dispatcherQueue, hw.executorQueue, hw.identity, hw.running⟩]
        simp [sentTo, hp]
      · rw [if_neg hp, ih _ hw]
        simp [sentTo, hp]
  show w.run (List.forM w.clients callback) = _
  exact key _ _ ⟨rfl, rfl, rfl, rfl, rfl, rfl⟩

end loop

/-! ### The dispatcher -/

/-- What the work on one event leaves alone. -/
structure Worked (event : EventRef) (w w' : Instance) : Prop where
  heap : ∀ event', event' ≠ event → w'.heap event' = w.heap event'
  allocated : w'.allocated = w.allocated
  dispatcherQueue : w'.dispatcherQueue = w.dispatcherQueue
  executor : ∀ x ∈ w'.executorQueue, x ∈ w.executorQueue ∨ x.2 = event
  identity : w'.identity = w.identity
  running : w'.running = w.running

section worked
variable {event : EventRef} {w'' : Instance}

theorem Worked.refl (event : EventRef) (w : Instance) : Worked event w w :=
  ⟨fun _ _ => rfl, rfl, rfl, fun _ h => .inl h, rfl, rfl⟩

theorem Worked.trans (h : Worked event w w') (h' : Worked event w' w'') : Worked event w w'' where
  heap event' hne := (h'.heap event' hne).trans (h.heap event' hne)
  allocated := h'.allocated.trans h.allocated
  dispatcherQueue := h'.dispatcherQueue.trans h.dispatcherQueue
  executor _ hx := (h'.executor _ hx).elim (h.executor _) .inr
  identity := h'.identity.trans h.identity
  running := h'.running.trans h.running

theorem Worked.linked (h : Worked event w w') (hw : w.Linked) (he : event < w.allocated) : w'.Linked := by
  refine ⟨?_, fun x hx => ?_, ?_⟩
  · rw [h.dispatcherQueue, h.allocated]
    exact hw.dispatcher
  · rw [h.allocated]
    rcases h.executor x hx with hx | rfl
    · exact hw.executor x hx
    · exact he
  · rw [h.dispatcherQueue]
    exact hw.nodup

theorem SameStore.worked (h : SameStore w w') (event : EventRef) : Worked event w w' :=
  ⟨fun event' _ => congrFun h.heap event', h.allocated, h.dispatcherQueue, fun _ hx => .inl (h.executorQueue ▸ hx),
    h.identity, h.running⟩

theorem worked_pushExecutor (w : Instance) (type : ExecutorEventType) (event : EventRef) :
    Worked event w (w.pushExecutor type event) := by
  refine ⟨fun _ _ => rfl, rfl, rfl, fun x hx => ?_, rfl, rfl⟩
  rcases List.mem_append.1 hx with hx | hx
  · exact .inl hx
  · rw [List.mem_singleton.1 hx]
    exact .inr rfl

/-- A program for one event with its effect on the traffic. -/
def Effects (w : Instance) (event : EventRef) (p : Proc PUnit) (T : Traffic) : Prop :=
  ∃ w', w.run p = (some ⟨⟩, w') ∧ w'.traffic = T ∧ Worked event w w'

private theorem effects_push (w : Instance) (type : ExecutorEventType) (event : EventRef) :
    w.Effects event (rmgExecutorPushEvent type event) (w.traffic.push type (w.heap event)) :=
  ⟨_, rfl, traffic_pushExecutor w type event, worked_pushExecutor w type event⟩

private theorem runMode_of_identity (h : w'.identity = w.identity) : w'.runMode = w.runMode :=
  congrArg Identity.runMode h

private theorem hostName_of_identity (h : w'.identity = w.identity) : w'.hostName = w.hostName :=
  congrArg Identity.hostName h

theorem Effects.after {p q : Proc PUnit} {T : Traffic} (h : w'.Effects event q T) (hp : w.run p = (some ⟨⟩, w'))
    (hw : Worked event w w') : w.Effects event (p >>= fun _ => q) T := by
  obtain ⟨w'', hq, ht, hw'⟩ := h
  exact ⟨w'', (run_bind hp).trans hq, ht, hw.trans hw'⟩

private theorem run_onRunMode_eq (w : Instance) (primary replica : Proc PUnit) :
    w.run (onRunMode primary replica) = w.run (match w.runMode with | .primary => primary | .replica => replica) := rfl

theorem effects_doFriendProcessCrashEvent {process context : String} (hp : (w.heap event).processName = some process)
    (hc : (w.heap event).contextName = some context) :
    w.Effects event (doFriendProcessCrashEvent event) (w.traffic.processCrashed w.runMode (w.heap event)) := by
  have hmode := run_onRunMode_eq w (foreachClient (foreachClientNotifyProcessCrash event)) (pure ⟨⟩)
  cases hm : w.runMode with
  | replica =>
    rw [hm] at hmode
    exact (effects_push w .friendProcessCrash event).after hmode (.refl event w)
  | primary =>
    let msg : RmgMessage := ⟨.informProcessCrash, some process, none, some context, (w.heap event).cause⟩
    have hcb : ∀ w', SameStore w w' → ∀ c, w'.run (foreachClientNotifyProcessCrash event c) =
        (some ⟨⟩, if (fun _ => true : RmgClient → Bool) c then w'.clientSend c.sockfd msg else w') := by
      intro w' hw c
      unfold foreachClientNotifyProcessCrash
      rw [run_bind (run_load w' event), hw.heap, hp, hc]
      rfl
    rw [hm] at hmode
    have hs : SameStore w (w.sentTo msg (fun _ => true) w.clients) := sameStore_sentTo w w.clients
    have heff := (effects_push _ .friendProcessCrash event).after (hmode.trans (run_foreachClient w hcb))
      (hs.worked event)
    rw [traffic_sentTo, hs.heap] at heff
    have hT : w.traffic.processCrashed .primary (w.heap event) =
        (w.traffic.broadcast msg fun _ => true).push .friendProcessCrash (w.heap event) := by
      unfold Traffic.processCrashed
      rw [hp, hc]
    rw [hT]
    exact heff

theorem effects_doFriendServiceFailedEvent {service context : String} (hs : (w.heap event).serviceName = some service)
    (hc : (w.heap event).contextName = some context) :
    w.Effects event (doFriendServiceFailedEvent event)
      (w.traffic.serviceFailed w.runMode w.hostName (w.heap event)) := by
  have hmode := run_onRunMode_eq w (foreachClient (foreachClientNotifyServiceFailed event))
    (informPrimaryServiceFailed event)
  -- the last test, made when the others have been informed
  have hlast : ∀ w', SameStore w w' → w'.Effects event (do
      let hostName : String ← Prog.call .getHostName .ret
      let e ← load event
      if some hostName ≠ e.contextName then rmgExecutorPushEvent .friendServiceFailed event else pure ⟨⟩)
        (if some w.hostName ≠ (w.heap event).contextName then w'.traffic.push .friendServiceFailed (w.heap event)
          else w'.traffic) := by
    intro w' hw
    have hrun : w'.run (do
        let hostName : String ← Prog.call .getHostName .ret
        let e ← load event
        if some hostName ≠ e.contextName then rmgExecutorPushEvent .friendServiceFailed event else pure ⟨⟩) =
          w'.run (if some w.hostName ≠ (w.heap event).contextName then rmgExecutorPushEvent .friendServiceFailed event
            else pure ⟨⟩) := by
      show w'.run (if some w'.hostName ≠ (w'.heap event).contextName then _ else _) = _
      rw [hostName_of_identity hw.identity, hw.heap]
    by_cases hne : some w.hostName ≠ (w.heap event).contextName
    · rw [if_pos hne] at hrun ⊢
      rw [← hw.heap]
      exact ⟨_, hrun, traffic_pushExecutor w' _ event, worked_pushExecutor w' _ event⟩
    · rw [if_neg hne] at hrun ⊢
      exact ⟨w', hrun, rfl, .refl event w'⟩
  cases hm : w.runMode with
  | replica =>
    let msg : RmgMessage := ⟨.informPrimaryServiceFailed, none, some service, some context, (w.heap event).cause⟩
    have hsend : w.run (informPrimaryServiceFailed event) = (some ⟨⟩, w.managerSend msg) := by
      unfold informPrimaryServiceFailed
      rw [run_bind (run_load w event), hs, hc]
      rfl
    have hstore : SameStore w (w.managerSend msg) := ⟨rfl, rfl, rfl, rfl, rfl, rfl⟩
    rw [hm] at hmode
    have heff := (hlast _ hstore).after (hmode.trans hsend) (hstore.worked event)
    rw [traffic_managerSend] at heff
    simp only [Traffic.serviceFailed, hs, hc] at heff ⊢
    exact heff
  | primary =>
    -- every client but the one whose context the failure has
    let msg : RmgMessage := ⟨.informClientServiceFailed, none, some service, some context, (w.heap event).cause⟩
    have hcb : ∀ w', SameStore w w' → ∀ c, w'.run (foreachClientNotifyServiceFailed event c) =
        (some ⟨⟩, if decide (c.contextName ≠ (w.heap event).contextName) then w'.clientSend c.sockfd msg else w') := by
      intro w' hw c
      unfold foreachClientNotifyServiceFailed
      rw [run_bind (run_load w' event), hw.heap]
      by_cases hne : c.contextName ≠ (w.heap event).contextName
      · rw [if_pos hne, if_pos (by simpa using hne), hs, hc]
        rfl
      · rw [if_neg hne, if_neg (by simpa using hne)]
        rfl
    rw [hm] at hmode
    have hstore : SameStore w (w.sentTo msg (fun c => c.contextName ≠ (w.heap event).contextName) w.clients) :=
      sameStore_sentTo w w.clients
    have heff := (hlast _ hstore).after (hmode.trans (run_foreachClient w hcb)) (hstore.worked event)
    rw [traffic_sentTo] at heff
    simp only [Traffic.serviceFailed, Traffic.broadcast, hs, hc] at heff ⊢
    exact heff

theorem traffic_setContextName (h : event ∉ w.dispatcherQueue) (name : Option String) :
    (w.setContextName event name).traffic = w.traffic ∧ Worked event w (w.setContextName event name) := by
  have hne : ∀ event', event' ≠ event → (w.setContextName event name).heap event' = w.heap event' :=
    fun event' hne => Function.update_of_ne hne _ _
  have hself : (w.setContextName event name).heap event = { w.heap event with contextName := name } :=
    Function.update_self ..
  refine ⟨?_, ⟨hne, rfl, rfl, fun x hx => .inl hx, rfl, rfl⟩⟩
  have hinbox : w.dispatcherQueue.map (w.setContextName event name).heap = w.dispatcherQueue.map w.heap := by
    refine List.map_congr_left fun event' hx => hne event' ?_
    rintro rfl
    exact h hx
  have hwork : (w.executorQueue.map fun x => (⟨x.1, ((w.setContextName event name).heap x.2).serviceName,
      ((w.setContextName event name).heap x.2).cause⟩ : Job)) =
        w.executorQueue.map fun x => ⟨x.1, (w.heap x.2).serviceName, (w.heap x.2).cause⟩ := by
    refine List.map_congr_left fun x _ => ?_
    by_cases hx : x.2 = event
    · rw [hx, hself]
    · rw [hne _ hx]
  show Traffic.mk _ (w.dispatcherQueue.map (w.setContextName event name).heap) _ _ _ _ _ _ _ _ = _
  rw [hinbox]
  show Traffic.mk _ _ (w.executorQueue.map fun x => (⟨x.1, ((w.setContextName event name).heap x.2).serviceName,
      ((w.setContextName event name).heap x.2).cause⟩ : Job)) _ _ _ _ _ _ _ = _
  rw [hwork]
  rfl

/-! #### The crash handler -/

private theorem traffic_setRvector (w : Instance) (s : String) (v : Int) : (w.setRvector s v).traffic = w.traffic :=
  traffic_emit (o := .statement (.updateRvector s v)) rfl rfl rfl rfl w

private theorem traffic_triggered (w : Instance) (s : String) : (w.triggered s).traffic = w.traffic := by
  unfold triggered
  split
  · rfl
  · exact traffic_emit (o := .timeoutAdded _) rfl rfl rfl rfl w

private theorem worked_setRvector (w : Instance) (s : String) (v : Int) : Worked event w (w.setRvector s v) :=
  ⟨fun _ _ => rfl, rfl, rfl, fun _ h => .inl h, rfl, rfl⟩

private theorem worked_triggered (w : Instance) (s : String) : Worked event w (w.triggered s) := by
  unfold triggered
  split <;> exact ⟨fun _ _ => rfl, rfl, rfl, fun _ h => .inl h, rfl, rfl⟩

private theorem traffic_reported {s : String} (hs : (w.heap event).serviceName = some s) (type : RmgActionType)
    (v : Int) :
    (w.reported s event type v).traffic = w.traffic.select type (w.heap event) ∧
      Worked event w (w.reported s event type v) := by
  unfold reported Traffic.select
  by_cases ht : type ≠ .invalid
  · rw [if_pos ht, if_pos ht, hs]
    refine ⟨?_, ⟨fun _ _ => rfl, rfl, rfl, fun _ h => .inl h, rfl, rfl⟩⟩
    simp [traffic, emit, Output.asPush, Output.asSelection, Output.asRequest, Output.asSent]
  · rw [if_neg ht, if_neg ht]
    exact ⟨rfl, .refl event w⟩

private theorem traffic_performed (w : Instance) (s : String) (event : EventRef) (type : RmgActionType) (reset : Bool) :
    (w.performed s event type reset).traffic =
      (match type.kind with | some kind => w.traffic.push kind (w.heap event) | none => w.traffic) ∧
      Worked event w (w.performed s event type reset) := by
  have hrelax : ∀ kind, (w.pushedThenRelaxed s event kind reset).traffic = w.traffic.push kind (w.heap event) ∧
      Worked event w (w.pushedThenRelaxed s event kind reset) := by
    intro kind
    rw [← traffic_pushExecutor]
    unfold pushedThenRelaxed
    split
    · exact ⟨traffic_setRvector _ s 0, (worked_pushExecutor w kind event).trans (worked_setRvector _ s 0)⟩
    · exact ⟨traffic_triggered _ s, (worked_pushExecutor w kind event).trans (worked_triggered _ s)⟩
  have hreset : ∀ kind, ((w.resetIf s reset).pushExecutor kind event).traffic = w.traffic.push kind (w.heap event) ∧
      Worked event w ((w.resetIf s reset).pushExecutor kind event) := by
    intro kind
    rw [traffic_pushExecutor]
    unfold resetIf
    split
    · exact ⟨by rw [traffic_setRvector]; rfl, (worked_setRvector w s 0).trans (worked_pushExecutor _ kind event)⟩
    · exact ⟨rfl, worked_pushExecutor w kind event⟩
  cases type with
  | serviceIgnore => exact ⟨traffic_setRvector w s 0, worked_setRvector w s 0⟩
  | serviceReset | publicDataReset | privateDataReset | serviceDisable => exact hrelax _
  | contextReset | platformRestart => exact hreset _
  | factoryReset => exact ⟨traffic_pushExecutor w _ event, worked_pushExecutor w _ event⟩
  | invalid | guruMeditation => exact ⟨rfl, .refl event w⟩

private theorem performed_heap (w : Instance) (s : String) (event : EventRef) (type : RmgActionType) (reset : Bool) :
    (w.performed s event type reset).heap = w.heap := by
  have ht : ∀ w : Instance, (w.triggered s).heap = w.heap := by
    intro w
    unfold triggered
    split <;> rfl
  cases type <;> cases reset <;> first | rfl | exact ht _

/-- The services that have a recovery unit. -/
def HasUnit (w : Instance) (service : Option String) : Prop := ∃ s, service = some s ∧ w.journal.hashOf s ≠ 0

theorem effects_doProcessServiceCrashEvent {s : String} (hs : (w.heap event).serviceName = some s)
    (hq : event ∉ w.dispatcherQueue) (hh : w.journal.hashOf s ≠ 0) :
    ∃ type, w.Effects event (doProcessServiceCrashEvent event)
      (w.traffic.crashed w.runMode w.hostName (w.heap event) type) := by
  let w₁ := w.setRvector s (w.journal.rvectorOf s + 1)
  let w₂ := w₁.reported s event (w₁.selected s).1 (w.journal.rvectorOf s + 1)
  let w₃ := w₂.performed s event (w₁.selected s).1 (w₁.selected s).2
  have h₁ : Worked event w w₁ := worked_setRvector w s _
  obtain ⟨ht₂, h₂⟩ := traffic_reported (w := w₁) hs (w₁.selected s).1 (w.journal.rvectorOf s + 1)
  obtain ⟨ht₃, h₃⟩ := traffic_performed w₂ s event (w₁.selected s).1 (w₁.selected s).2
  have hheap : w₃.heap = w.heap := by
    rw [performed_heap, reported_heap]
    rfl
  have hw : Worked event w w₃ := h₁.trans (h₂.trans h₃)
  have hq₃ : event ∉ w₃.dispatcherQueue := by
    rw [hw.dispatcherQueue]
    exact hq
  obtain ⟨ht₄, h₄⟩ := traffic_setContextName hq₃ (some w₃.hostName)
  have hs₄ : (w₃.setContextName event (some w₃.hostName)).heap event =
      { w.heap event with contextName := some w.hostName } := by
    show Function.update w₃.heap event _ event = _
    rw [Function.update_self, hheap, hostName_of_identity hw.identity]
  have hs₅ : ((w₃.setContextName event (some w₃.hostName)).heap event).serviceName = some s := by
    rw [hs₄]
    exact hs
  have hc₅ : ((w₃.setContextName event (some w₃.hostName)).heap event).contextName = some w.hostName := by
    rw [hs₄]
  obtain ⟨w', hrun, ht, hw'⟩ := effects_doFriendServiceFailedEvent hs₅ hc₅
  refine ⟨(w₁.selected s).1, w', ?_, ?_, hw.trans (h₄.trans hw')⟩
  · rw [run_doProcessServiceCrashEvent hs hh]
    exact hrun
  · have ht₁ : w₁.traffic = w.traffic := traffic_setRvector w s _
    rw [ht₁] at ht₂
    have hh₂ : w₂.heap event = w.heap event := congrFun (reported_heap _ _) event
    rw [ht, ht₄, hs₄, ht₃, ht₂, hh₂]
    rw [show (w₃.setContextName event (some w₃.hostName)).runMode = w.runMode from runMode_of_identity hw.identity,
      show (w₃.setContextName event (some w₃.hostName)).hostName = w.hostName from hostName_of_identity hw.identity]
    rfl

/-- What the dispatcher makes of the event it has taken from the queue. -/
theorem run_dispatcherSourceCallback (w : Instance) (event : EventRef) :
    w.run (dispatcherSourceCallback event) = w.run (match (w.heap event).type with
      | .informProcessCrash => doFriendProcessCrashEvent event
      | .informServiceFailed => doFriendServiceFailedEvent event
      | .serviceCrashed => do
        output (.crashDetected (w.heap event).serviceName (w.heap event).cause)
        doProcessServiceCrashEvent event
      | .remoteContextRestart => rmgExecutorPushEvent .contextRestart event
      | .remotePlatformRestart => rmgExecutorPushEvent .platformRestart event
      | .remoteFactoryReset => rmgExecutorPushEvent .factoryReset event
      | .serviceRestarted | .unknown => pure ⟨⟩) := rfl

theorem handled_of_dispatch (hq : event ∉ w.dispatcherQueue) (hn : (w.heap event).Named) :
    ∃ w', w.run (dispatcherSourceCallback event) = (some ⟨⟩, w') ∧ Worked event w w' ∧
      Traffic.Handled w.identity w.HasUnit (w.heap event) w.traffic w'.traffic := by
  obtain ⟨hcrash, hfailed, hprocess, -⟩ := hn
  rw [run_dispatcherSourceCallback]
  cases ht : (w.heap event).type with
  | informProcessCrash =>
    obtain ⟨hp, hc⟩ := hprocess ht
    obtain ⟨process, hp⟩ := Option.isSome_iff_exists.1 hp
    obtain ⟨context, hc⟩ := Option.isSome_iff_exists.1 hc
    obtain ⟨w', hr, hT, hw⟩ := effects_doFriendProcessCrashEvent hp hc
    exact ⟨w', hr, hw, hT ▸ .processCrashed ht⟩
  | informServiceFailed =>
    obtain ⟨hs, hc⟩ := hfailed ht
    obtain ⟨service, hs⟩ := Option.isSome_iff_exists.1 hs
    obtain ⟨context, hc⟩ := Option.isSome_iff_exists.1 hc
    obtain ⟨w', hr, hT, hw⟩ := effects_doFriendServiceFailedEvent hs hc
    exact ⟨w', hr, hw, hT ▸ .serviceFailed ht⟩
  | serviceCrashed =>
    obtain ⟨s, hs⟩ := Option.isSome_iff_exists.1 (hcrash ht)
    let w₁ := w.emit (.crashDetected (w.heap event).serviceName (w.heap event).cause)
    have hT₁ : w₁.traffic = w.traffic := traffic_emit rfl rfl rfl rfl w
    have hw₁ : Worked event w w₁ := ⟨fun _ _ => rfl, rfl, rfl, fun _ h => .inl h, rfl, rfl⟩
    by_cases hh : w.journal.hashOf s = 0
    · refine ⟨_, run_doProcessServiceCrashEvent_of_zero (w := w₁) hs hh, hw₁.trans
        ⟨fun _ _ => rfl, rfl, rfl, fun _ h => .inl h, rfl, rfl⟩, ?_⟩
      rw [traffic_emit rfl rfl rfl rfl, hT₁]
      refine .noUnit ht ?_
      rintro ⟨s', hs', hh'⟩
      obtain rfl := Option.some.inj (hs.symm.trans hs')
      exact hh' hh
    · obtain ⟨type, w', hr, hT, hw⟩ := effects_doProcessServiceCrashEvent (w := w₁) hs hq hh
      refine ⟨w', hr, hw₁.trans hw, ?_⟩
      rw [hT, hT₁]
      exact .crashed type ht ⟨s, hs, hh⟩
  | remoteContextRestart =>
    obtain ⟨w', hr, hT, hw⟩ := effects_push w .contextRestart event
    exact ⟨w', hr, hw, hT ▸ .remote _ (by rw [ht]; rfl)⟩
  | remotePlatformRestart =>
    obtain ⟨w', hr, hT, hw⟩ := effects_push w .platformRestart event
    exact ⟨w', hr, hw, hT ▸ .remote _ (by rw [ht]; rfl)⟩
  | remoteFactoryReset =>
    obtain ⟨w', hr, hT, hw⟩ := effects_push w .factoryReset event
    exact ⟨w', hr, hw, hT ▸ .remote _ (by rw [ht]; rfl)⟩
  | serviceRestarted => exact ⟨w, rfl, .refl event w, .other (.inl ht)⟩
  | unknown => exact ⟨w, rfl, .refl event w, .other (.inr ht)⟩

end worked

/-! ### New events -/

theorem traffic_arrive (hw : w.Linked) (e : RmgDEvent) (cause : Option Cause) :
    ((w.alloc e cause).pushDispatcher w.allocated).traffic =
      w.traffic.arrive { e with cause := cause.getD ⟨w.ident, w.allocated⟩ } ∧
      ((w.alloc e cause).pushDispatcher w.allocated).Linked := by
  have hsame : ∀ event, event < w.allocated → (w.alloc e cause).heap event = w.heap event :=
    fun event hlt => Function.update_of_ne (Nat.ne_of_lt hlt) _ _
  have hself : (w.alloc e cause).heap w.allocated = { e with cause := cause.getD ⟨w.ident, w.allocated⟩ } :=
    Function.update_self ..
  constructor
  · have hinbox : (w.dispatcherQueue ++ [w.allocated]).map (w.alloc e cause).heap = w.dispatcherQueue.map w.heap ++
        [{ e with cause := cause.getD ⟨w.ident, w.allocated⟩ }] := by
      rw [List.map_append, List.map_singleton, hself]
      congr 1
      exact List.map_congr_left fun event hx => hsame event (hw.dispatcher event hx)
    have hwork : (w.executorQueue.map fun x => (⟨x.1, ((w.alloc e cause).heap x.2).serviceName,
        ((w.alloc e cause).heap x.2).cause⟩ : Job)) =
          w.executorQueue.map fun x => ⟨x.1, (w.heap x.2).serviceName, (w.heap x.2).cause⟩ :=
      List.map_congr_left fun x hx => by rw [hsame x.2 (hw.executor x hx)]
    show Traffic.mk _ ((w.dispatcherQueue ++ [w.allocated]).map (w.alloc e cause).heap)
      (w.executorQueue.map fun x => (⟨x.1, ((w.alloc e cause).heap x.2).serviceName,
        ((w.alloc e cause).heap x.2).cause⟩ : Job)) _ _ _ _ _ _ _ = _
    rw [hinbox, hwork]
    rfl
  · refine ⟨fun event hx => ?_, fun x hx => Nat.lt_succ_of_lt (hw.executor x hx), ?_⟩
    · rcases List.mem_append.1 hx with hx | hx
      · exact Nat.lt_succ_of_lt (hw.dispatcher event hx)
      · rw [List.mem_singleton.1 hx]
        exact Nat.lt_succ_self _
    · refine List.nodup_append.2 ⟨hw.nodup, List.nodup_singleton _, fun a ha b hb => ?_⟩
      rw [List.mem_singleton.1 hb]
      exact Nat.ne_of_lt (hw.dispatcher a ha)

/-- The arms that turn a message into an event. -/
private theorem traffic_received (hw : w.Linked) (e : RmgDEvent) (msg : RmgMessage) :
    (w.after (.call (.newEvent e (some msg.cause)) fun event => do
        output (.received msg event)
        rmgDispatcherPushServiceEvent event)).traffic = w.traffic.arrive { e with cause := msg.cause } ∧
      (w.after (.call (.newEvent e (some msg.cause)) fun event => do
        output (.received msg event)
        rmgDispatcherPushServiceEvent event)).Linked := by
  obtain ⟨ht, hl⟩ := traffic_arrive hw e (some msg.cause)
  rw [← show _ = w.traffic.arrive { e with cause := msg.cause } from ht]
  exact ⟨traffic_emit (o := .received msg w.allocated) rfl rfl rfl rfl
    ((w.alloc e (some msg.cause)).pushDispatcher w.allocated),
    hl.1, hl.2, hl.3⟩

theorem traffic_clientProcessMessage (hw : w.Linked) (sockfd : Nat) (msg : RmgMessage) :
    (w.after (clientProcessMessage sockfd msg)).traffic = w.traffic.fromReplica sockfd msg ∧
      (w.after (clientProcessMessage sockfd msg)).Linked := by
  unfold clientProcessMessage Traffic.fromReplica
  cases msg.type with
  | replicaDescriptor => exact ⟨rfl, hw.1, hw.2, hw.3⟩
  | requestContextRestart => exact traffic_received hw _ msg
  | requestPlatformRestart => exact traffic_received hw _ msg
  | requestFactoryReset => exact traffic_received hw _ msg
  | informPrimaryServiceFailed => exact traffic_received hw _ msg
  | _ => exact ⟨rfl, hw⟩

theorem traffic_managerProcessMessage (hw : w.Linked) (msg : RmgMessage) :
    (w.after (managerProcessMessage msg)).traffic = w.traffic.fromPrimary msg ∧
      (w.after (managerProcessMessage msg)).Linked := by
  unfold managerProcessMessage Traffic.fromPrimary
  cases msg.type with
  | informProcessCrash => exact traffic_received hw _ msg
  | informClientServiceFailed => exact traffic_received hw _ msg
  | _ => exact ⟨rfl, hw⟩

/-! ### The executor -/

section executor
variable {event : EventRef}

private theorem run_requestPrimary {s : String} (hs : (w.heap event).serviceName = some s) (type : RmgMessageType) :
    w.run (requestPrimary type event) =
      (some .ok, w.managerSend ⟨type, none, some s, some w.hostName, (w.heap event).cause⟩) := by
  unfold requestPrimary
  rw [run_bind (run_load w event), hs]
  rfl

private theorem traffic_request {s : String} (hs : (w.heap event).serviceName = some s) {p : Proc PUnit}
    {type : RmgMessageType} (hp : ∃ q : RmgStatus → Proc PUnit, q .ok = enterMeditation event ∧
      w.run p = w.run (requestPrimary type event >>= q)) :
    (w.after p).traffic =
        w.traffic.request ⟨type, none, (w.heap event).serviceName, some w.hostName, (w.heap event).cause⟩ ∧
      ((w.after p).Linked ↔ w.Linked) := by
  obtain ⟨q, hq, hrun⟩ := hp
  rw [run_bind (run_requestPrimary hs type), hq] at hrun
  have hafter : w.after p = (w.managerSend ⟨type, none, some s, some w.hostName, (w.heap event).cause⟩).emit
      (.meditation (w.heap event).serviceName) := after_of_run (hrun.trans rfl)
  rw [hafter]
  refine ⟨(traffic_emit (o := .meditation (w.heap event).serviceName) rfl rfl rfl rfl _).trans ?_,
    ⟨fun h => ⟨h.1, h.2, h.3⟩, fun h => ⟨h.1, h.2, h.3⟩⟩⟩
  rw [traffic_managerSend, hs]

theorem traffic_execute (type : ExecutorEventType)
    (hs : w.runMode = .replica → type.requestType.isSome → (w.heap event).serviceName.isSome) :
    (w.after (executorSourceCallback type event)).traffic =
        w.traffic.executed w.runMode w.hostName ⟨type, (w.heap event).serviceName, (w.heap event).cause⟩ ∧
      ((w.after (executorSourceCallback type event)).Linked ↔ w.Linked) := by
  have hstay : ∀ p : Proc PUnit, p.Calls Op.Acts → (w.after p).traffic = w.traffic ∧ ((w.after p).Linked ↔ w.Linked) :=
    fun p hp => traffic_of_calls (hp.mono fun _ h => h.2) w
  by_cases hr : type.isRequest = false
  · have hT : w.traffic.executed w.runMode w.hostName ⟨type, (w.heap event).serviceName, (w.heap event).cause⟩ =
        w.traffic := by
      unfold Traffic.executed
      cases type <;> first | (cases w.runMode <;> rfl) | cases hr
    rw [hT]
    exact hstay _ (calls_executorSourceCallback_of_not_isRequest hr event)
  have hmode := run_onRunMode_eq w
  cases hm : w.runMode with
  | primary =>
    rw [hm] at hmode
    show (w.after (executorSourceCallback type event)).traffic = w.traffic ∧ _
    -- the primary performs the action itself and meditates
    have hmeditate : ∀ p q : Proc PUnit, p.Calls Op.Acts →
        (w.after (onRunMode p q >>= fun _ => enterMeditation event)).traffic = w.traffic ∧
          ((w.after (onRunMode p q >>= fun _ => enterMeditation event)).Linked ↔ w.Linked) := by
      intro p q hp
      rw [after_congr (run_bind_congr _ (hmode p q))]
      exact hstay _ (hp.bind fun _ => calls_enterMeditation event)
    cases type with
    | contextRestart =>
      have h := after_congr (hmode (contextRestartOnPrimary event) (doProcessContextRestartEventReplica event))
      show (w.after (onRunMode _ _)).traffic = _ ∧ ((w.after (onRunMode _ _)).Linked ↔ _)
      rw [h]
      exact hstay _ (calls_contextRestartOnPrimary event)
    | platformRestart => exact hmeditate _ _ (calls_doProcessPlatformRestartEventPrimary event)
    | factoryReset => exact hmeditate _ _ (calls_doProcessFactoryResetEventPrimary event)
    | _ => exact absurd rfl hr
  | replica =>
    rw [hm] at hmode
    have hsome : type.requestType.isSome → ∃ s, (w.heap event).serviceName = some s :=
      fun h => Option.isSome_iff_exists.1 (hs hm h)
    cases type with
    | contextRestart =>
      obtain ⟨s, hs⟩ := hsome rfl
      refine traffic_request hs ⟨_, ?_, hmode (contextRestartOnPrimary event)
        (doProcessContextRestartEventReplica event)⟩
      rfl
    | platformRestart =>
      obtain ⟨s, hs⟩ := hsome rfl
      refine traffic_request hs ⟨fun _ => enterMeditation event, rfl, ?_⟩
      have hrun := run_bind_congr (fun _ => enterMeditation event)
        (hmode (doProcessPlatformRestartEventPrimary event) (doProcessPlatformRestartEventReplica event))
      exact hrun.trans (congrArg w.run (bind_assoc (requestPrimary .requestPlatformRestart event) _ _))
    | factoryReset =>
      obtain ⟨s, hs⟩ := hsome rfl
      refine traffic_request hs ⟨fun _ => enterMeditation event, rfl, ?_⟩
      have hrun := run_bind_congr (fun _ => enterMeditation event)
        (hmode (doProcessFactoryResetEventPrimary event) (doProcessFactoryResetEventReplica event))
      exact hrun.trans (congrArg w.run (bind_assoc (requestPrimary .requestFactoryReset event) _ _))
    | _ => exact absurd rfl hr

end executor

/-! ### Steps -/

/-- Every step of an instance that stays up, as a move of its traffic. -/
theorem traffic_of_step (h : Step glib w l w') (hl : ∀ gdir, l ≠ .restart gdir) (hw : w.Linked)
    (hn : ∀ e ∈ w.traffic.inbox, e.Named) (hj : w.runMode = .replica → ∀ job ∈ w.traffic.work,
      job.type.requestType.isSome → job.serviceName.isSome) :
    Traffic.Move w.identity w.HasUnit w.traffic l w'.traffic ∧ w'.Linked := by
  obtain ⟨⟨w₀, p⟩, he, rfl⟩ := Option.map_eq_some_iff.1 h
  cases callback_of_enabled he with
  | crash service =>
    obtain ⟨ht, hk⟩ := traffic_arrive hw ⟨.serviceCrashed, some service, none, none, ⟨0, 0⟩⟩ none
    exact ⟨ht ▸ .crash service, hk⟩
  | restarted service =>
    obtain ⟨ht, hk⟩ := traffic_arrive hw ⟨.serviceRestarted, some service, none, none, ⟨0, 0⟩⟩ none
    exact ⟨ht ▸ .restarted service, hk⟩
  | newCrash process context =>
    obtain ⟨ht, hk⟩ := traffic_arrive hw ⟨.informProcessCrash, none, some process, some context, ⟨0, 0⟩⟩ none
    exact ⟨ht ▸ .newCrash process context, hk⟩
  | fromReplica sockfd msg =>
    obtain ⟨ht, hk⟩ := traffic_clientProcessMessage hw sockfd msg
    exact ⟨ht ▸ .fromReplica sockfd msg, hk⟩
  | fromPrimary msg =>
    obtain ⟨ht, hk⟩ := traffic_managerProcessMessage hw msg
    exact ⟨ht ▸ .fromPrimary msg, hk⟩
  | @dispatch event queue hq =>
    -- the event has left the queue before its handler runs
    let w₁ : Instance := { w with dispatcherQueue := queue }
    have hw₁ : w₁.Linked := ⟨fun e he => hw.dispatcher e (by rw [hq]; exact List.mem_cons_of_mem _ he), hw.executor,
      (List.nodup_cons.1 (hq ▸ hw.nodup)).2⟩
    have hne : event ∉ queue := (List.nodup_cons.1 (hq ▸ hw.nodup)).1
    have hinbox : w.traffic.inbox = w.heap event :: queue.map w.heap := by
      show w.dispatcherQueue.map w.heap = _
      rw [hq, List.map_cons]
    have hnamed : (w₁.heap event).Named := hn (w.heap event) (by rw [hinbox]; simp)
    obtain ⟨w', hrun, hwork, hh⟩ := handled_of_dispatch (w := w₁) hne hnamed
    have hafter : w₁.after (dispatcherSourceCallback event) = w' := after_of_run hrun
    show Traffic.Move _ _ _ _ (w₁.after (dispatcherSourceCallback event)).traffic ∧
      (w₁.after (dispatcherSourceCallback event)).Linked
    rw [hafter]
    exact ⟨.dispatch hinbox hh, hwork.linked hw₁ (hw.dispatcher event (by rw [hq]; simp))⟩
  | @execute type event queue hq =>
    let w₁ : Instance := { w with executorQueue := queue }
    have hw₁ : w₁.Linked := ⟨hw.dispatcher, fun x hx => hw.executor x (by rw [hq]; exact List.mem_cons_of_mem _ hx),
      hw.nodup⟩
    have hwork : w.traffic.work = ⟨type, (w.heap event).serviceName, (w.heap event).cause⟩ :: w₁.traffic.work := by
      show w.executorQueue.map _ = _
      rw [hq, List.map_cons]
      rfl
    have hsome : w₁.runMode = .replica → type.requestType.isSome → (w₁.heap event).serviceName.isSome := fun hm h =>
      hj hm _ (by rw [hwork]; exact List.mem_cons_self) h
    obtain ⟨ht, hk⟩ := traffic_execute type hsome
    show Traffic.Move _ _ _ _ (w₁.after (executorSourceCallback type event)).traffic ∧
      (w₁.after (executorSourceCallback type event)).Linked
    rw [ht]
    exact ⟨Traffic.Move.execute hwork, hk.2 hw₁⟩
  | @expire source hsrc hd =>
    -- a timer touches neither the queues nor the connections
    obtain ⟨ht, hk⟩ := traffic_of_calls (calls_timerCallback source.data)
      ({ w with sources := w.sources.filter (· ≠ source) }.emit (.timeoutExpired source))
    show Traffic.Move _ _ _ _ (Instance.after _ (timerCallback source.data)).traffic ∧ Linked (Instance.after _ _)
    have ht₀ : ({ w with sources := w.sources.filter (· ≠ source) }.emit (.timeoutExpired source)).traffic =
      w.traffic :=
      traffic_emit (o := .timeoutExpired source) rfl rfl rfl rfl w
    rw [ht, ht₀]
    exact ⟨.expire source.id, hk.2 ⟨hw.1, hw.2, hw.3⟩⟩
  | tick => exact ⟨.tick, hw.1, hw.2, hw.3⟩
  | restart gdir => exact absurd rfl (hl gdir)

end Instance

end RecoveryManager
