import RecoveryManager.Network

/-!
# What is in transit

`NetTraffic.Move` is what a step does to the traffic of all instances (`move_of_step`).  A `Shape` is a property of
single events, jobs and messages; one that is kept wherever one of them gives rise to another (`Shape.Closed`) is had by
everything in every state reached (`NetTraffic.Has.move`).  The first such property is that all carry the names that are
asserted when they are handled (`Network.Sound`).
-/

namespace RecoveryManager

open Instance

variable {n : Nat}

/-! ### Moves of the network -/

abbrev NetTraffic (n : Nat) := Site n → Traffic

abbrev Members (n : Nat) := Site n → Identity

namespace NetTraffic

/-- What a step does to the traffic of the instances; `units` are the services with a recovery unit on the one that
takes the step. -/
inductive Move (c : Members n) (units : Option String → Prop) (N : NetTraffic n) : NetLabel n → NetTraffic n → Prop
  | own {s : Site n} {l : Label} {T : Traffic} : l.Own s → Traffic.Move (c s) units (N s) l T →
      Move c units N (.own s l) (Function.update N s T)
  | toPrimary {i : Fin n} {msg : RmgMessage} {rest : List RmgMessage} : (N (.replica i)).toManager = msg :: rest →
      Move c units N (.toPrimary i) (Function.update
        (Function.update N (.replica i) { N (.replica i) with toManager := rest }) .primary
        ((N .primary).fromReplica i msg))
  | toReplica {i : Fin n} {msg : RmgMessage} {rest : List RmgMessage} : (N .primary).toClient i = msg :: rest →
      Move c units N (.toReplica i) (Function.update
        (Function.update N .primary { N .primary with toClient := Function.update (N .primary).toClient i rest })
        (.replica i) ((N (.replica i)).fromPrimary msg))
  | connect {i : Fin n} {cause : Cause} : cause.instance_ = (c (.replica i)).ident →
      Move c units N (.connect i) (Function.update N (.replica i)
        ((N (.replica i)).request ⟨.replicaDescriptor, none, none, some (c (.replica i)).hostName, cause⟩))
  | accept {i : Fin n} : (∀ client ∈ (N .primary).clients, client.sockfd ≠ i.val) →
      Move c units N (.accept i) (Function.update N .primary
        { N .primary with clients := (N .primary).clients ++ [⟨i, none⟩] })

end NetTraffic

/-! ### Shapes -/

/-- A property of what an instance holds: of its events, its work, the events it has pushed, and the messages between
it and the primary (`up`) or its clients (`down`). -/
structure Shape where
  event : RmgDEvent → Prop
  job : Job → Prop
  push : ExecutorEventType → RmgDEvent → Prop
  up : RmgMessage → Prop
  down : Nat → RmgMessage → Prop

/-- The event that the primary makes of a message. -/
def RmgMessageType.asRequest : RmgMessageType → Option DispatcherEventType
  | .requestContextRestart | .requestPlatformRestart => some .remoteContextRestart
  | .requestFactoryReset => some .remoteFactoryReset
  | .informPrimaryServiceFailed => some .informServiceFailed
  | _ => none

/-- The message about a service that has failed. -/
def RmgMessage.failure (type : RmgMessageType) (e : RmgDEvent) : RmgMessage :=
  ⟨type, none, e.serviceName, e.contextName, e.cause⟩

/-- The event for a step in which an instance hears of something from outside. -/
def Label.event (c : Identity) (k : EventRef) : Label → Option RmgDEvent
  | .crash service => some ⟨.serviceCrashed, some service, none, none, ⟨c.ident, k⟩⟩
  | .restarted service => some ⟨.serviceRestarted, some service, none, none, ⟨c.ident, k⟩⟩
  | .newCrash process context => some ⟨.informProcessCrash, none, some process, some context, ⟨c.ident, k⟩⟩
  | _ => none

/-- What an instance holds has the shape. -/
structure Traffic.Has (φ : Shape) (T : Traffic) : Prop where
  inbox : ∀ e ∈ T.inbox, φ.event e
  work : ∀ job ∈ T.work, φ.job job
  pushed : ∀ x ∈ T.pushed, φ.push x.1 x.2
  toManager : ∀ msg ∈ T.toManager, φ.up msg
  requested : ∀ msg ∈ T.requested, φ.up msg
  toClient : ∀ k, ∀ msg ∈ T.toClient k, φ.down k msg
  sent : ∀ x ∈ T.sent, φ.down x.1 x.2

/-- `do_friend_service_failed_event` keeps the shape for this event. -/
structure Shape.Tells (φ : Shape) (c : Identity) (e : RmgDEvent) : Prop where
  down : c.runMode = .primary → ∀ k, φ.down k (.failure .informClientServiceFailed e)
  up : c.runMode = .replica → φ.up (.failure .informPrimaryServiceFailed e)
  push : some c.hostName ≠ e.contextName → φ.push .friendServiceFailed e

/-- What an instance does keeps the shape, when the events it handles are in `E`. -/
structure Shape.ClosedFor (φ : Shape) (c : Identity) (E : RmgDEvent → Prop) : Prop where
  job : ∀ type e, φ.push type e → φ.job ⟨type, e.serviceName, e.cause⟩
  processCrash : ∀ e, E e → e.type = .informProcessCrash →
    φ.push .friendProcessCrash e ∧
      (c.runMode = .primary → ∀ k, φ.down k ⟨.informProcessCrash, e.processName, none, e.contextName, e.cause⟩)
  serviceFailed : ∀ e, E e → e.type = .informServiceFailed → φ.Tells c e
  crashed : ∀ e, E e → e.type = .serviceCrashed →
    (∀ type kind, RmgActionType.kind type = some kind → φ.push kind e) ∧
      φ.Tells c { e with contextName := some c.hostName }
  remote : ∀ e, E e → ∀ kind, e.type.remoteKind = some kind → φ.push kind e
  execute : c.runMode = .replica → ∀ job, φ.job job → ∀ type, job.type.requestType = some type →
    φ.up ⟨type, none, job.serviceName, some c.hostName, job.cause⟩

namespace Traffic

variable {T T' : Traffic} {c : Identity} {units : Option String → Prop} {l : Label} {e : RmgDEvent} {φ ψ : Shape}
  {E : RmgDEvent → Prop} {msg : RmgMessage}

namespace Has

theorem mono (h : T.Has φ) (hevent : ∀ e, φ.event e → ψ.event e) (hjob : ∀ job, φ.job job → ψ.job job)
    (hpush : ∀ type e, φ.push type e → ψ.push type e) (hup : ∀ msg, φ.up msg → ψ.up msg)
    (hdown : ∀ k msg, φ.down k msg → ψ.down k msg) : T.Has ψ :=
  ⟨fun e he => hevent e (h.inbox e he), fun job hj => hjob job (h.work job hj),
    fun x hx => hpush x.1 x.2 (h.pushed x hx), fun msg hm => hup msg (h.toManager msg hm),
    fun msg hm => hup msg (h.requested msg hm), fun k msg hm => hdown k msg (h.toClient k msg hm),
    fun x hx => hdown x.1 x.2 (h.sent x hx)⟩

private theorem mem_snoc {α : Type} {p : α → Prop} {l : List α} {a : α} (h : ∀ x ∈ l, p x) (ha : p a) :
    ∀ x ∈ l ++ [a], p x := by
  intro x hx
  rcases List.mem_append.1 hx with hx | hx
  · exact h x hx
  · rw [List.mem_singleton.1 hx]
    exact ha

theorem arrive (h : T.Has φ) (he : φ.event e) : (T.arrive e).Has φ :=
  ⟨mem_snoc h.inbox he, h.work, h.pushed, h.toManager, h.requested, h.toClient, h.sent⟩

theorem push (h : T.Has φ) {type : ExecutorEventType} (hp : φ.push type e)
    (hj : φ.job ⟨type, e.serviceName, e.cause⟩) : (T.push type e).Has φ :=
  ⟨h.inbox, mem_snoc h.work hj, mem_snoc h.pushed hp, h.toManager, h.requested, h.toClient, h.sent⟩

theorem request (h : T.Has φ) (hm : φ.up msg) : (T.request msg).Has φ :=
  ⟨h.inbox, h.work, h.pushed, mem_snoc h.toManager hm, mem_snoc h.requested hm, h.toClient, h.sent⟩

theorem broadcast (h : T.Has φ) (hm : ∀ k, φ.down k msg) (p : RmgClient → Bool) : (T.broadcast msg p).Has φ := by
  refine ⟨h.inbox, h.work, h.pushed, h.toManager, h.requested, fun k msg' hx => ?_, fun x hx => ?_⟩
  · rcases List.mem_append.1 hx with hx | hx
    · exact h.toClient k msg' hx
    · obtain ⟨client, -, rfl⟩ := List.mem_map.1 hx
      exact hm k
  · rcases List.mem_append.1 hx with hx | hx
    · exact h.sent x hx
    · obtain ⟨client, -, rfl⟩ := List.mem_map.1 hx
      exact hm client.sockfd

theorem select (h : T.Has φ) (type : RmgActionType) (e : RmgDEvent) : (T.select type e).Has φ := by
  unfold Traffic.select
  split
  · exact ⟨h.inbox, h.work, h.pushed, h.toManager, h.requested, h.toClient, h.sent⟩
  · exact h

private theorem serviceFailed (h : T.Has φ) (hc : φ.ClosedFor c E) (ht : φ.Tells c e) :
    (T.serviceFailed c.runMode c.hostName e).Has φ := by
  have hpushed : ∀ T : Traffic, T.Has φ →
      Has φ (if some c.hostName ≠ e.contextName then T.push .friendServiceFailed e else T) := by
    intro T hT
    split
    · rename_i hne
      exact hT.push (ht.push hne) (hc.job _ _ (ht.push hne))
    · exact hT
  unfold Traffic.serviceFailed
  cases hm : c.runMode with
  | primary => exact hpushed _ (h.broadcast (ht.down hm) _)
  | replica => exact hpushed _ (h.request (ht.up hm))

theorem handled (h : T.Has φ) (hc : φ.ClosedFor c E) (he : E e) (hh : Handled c units e T T') : T'.Has φ := by
  cases hh with
  | processCrashed ht =>
    obtain ⟨hp, hd⟩ := hc.processCrash e he ht
    unfold Traffic.processCrashed
    cases hm : c.runMode with
    | primary => exact (h.broadcast (hd hm) _).push hp (hc.job _ _ hp)
    | replica => exact h.push hp (hc.job _ _ hp)
  | serviceFailed ht => exact h.serviceFailed hc (hc.serviceFailed e he ht)
  | noUnit | other => exact h
  | crashed type ht _ =>
    obtain ⟨hp, ht⟩ := hc.crashed e he ht
    unfold Traffic.crashed
    cases hk : type.kind with
    | none => exact (h.select type e).serviceFailed hc ht
    | some kind => exact ((h.select type e).push (hp type kind hk) (hc.job _ _ (hp type kind hk))).serviceFailed hc ht
  | remote kind hk => exact h.push (hc.remote e he kind hk) (hc.job _ _ (hc.remote e he kind hk))

/-- A step of an instance that does not read a message. -/
theorem move {s : Site n} (h : T.Has φ) (hc : φ.ClosedFor c E) (hl : l.Own s)
    (hE : l = .dispatch → ∀ e, T.inbox.head? = some e → E e)
    (hborn : ∀ e, l.event c T.allocated = some e → φ.event e) (hm : Move c units T l T') : T'.Has φ := by
  cases hm with
  | crash service => exact h.arrive (hborn _ rfl)
  | restarted service => exact h.arrive (hborn _ rfl)
  | newCrash process context => exact h.arrive (hborn _ rfl)
  | fromReplica | fromPrimary => exact hl.elim
  | @dispatch e inbox T' hq hh =>
    have hinbox : ∀ e' ∈ e :: inbox, φ.event e' := by
      rw [← hq]
      exact h.inbox
    have hrest : Has φ { T with inbox := inbox } :=
      ⟨fun e' hx => hinbox e' (List.mem_cons_of_mem _ hx), h.work, h.pushed, h.toManager, h.requested, h.toClient,
        h.sent⟩
    exact hrest.handled hc (hE rfl e (by rw [hq]; rfl)) hh
  | @execute job work hq =>
    have hwork : ∀ job' ∈ job :: work, φ.job job' := by
      rw [← hq]
      exact h.work
    have hrest : Has φ { T with work := work } :=
      ⟨h.inbox, fun job' hx => hwork job' (List.mem_cons_of_mem _ hx), h.pushed, h.toManager, h.requested, h.toClient,
        h.sent⟩
    unfold executed
    split
    · rename_i type hmode htype
      exact hrest.request (hc.execute hmode job (hwork job List.mem_cons_self) type htype)
    · exact hrest
  | expire | tick => exact h

end Has

/-! ### Messages read -/

theorem fromReplica_eq (T : Traffic) (sockfd : Nat) (msg : RmgMessage) : T.fromReplica sockfd msg =
    match msg.type.asRequest with
    | some type => T.arrive ⟨type, msg.serviceName, none, msg.contextName, msg.cause⟩
    | none => if msg.type = .replicaDescriptor then T.setClientName sockfd msg.contextName else T := by
  unfold fromReplica
  cases msg.type <;> rfl

end Traffic

namespace NetTraffic

variable {N N' : NetTraffic n} {c : Members n} {units : Option String → Prop} {l : NetLabel n} {φ : Site n → Shape}
  {E : Site n → RmgDEvent → Prop}

/-- The instances and the reading of messages keep the shape, when the events handled are in `E`. -/
structure ClosedFor (φ : Site n → Shape) (c : Members n) (E : Site n → RmgDEvent → Prop) : Prop where
  site : ∀ s, (φ s).ClosedFor (c s) (E s)
  toPrimary : ∀ i msg type, (φ (.replica i)).up msg → msg.type.asRequest = some type →
    (φ .primary).event ⟨type, msg.serviceName, none, msg.contextName, msg.cause⟩
  toReplica : ∀ (i : Fin n) msg, (φ .primary).down i msg →
    (msg.type = .informProcessCrash →
      (φ (.replica i)).event ⟨.informProcessCrash, none, msg.processName, msg.contextName, msg.cause⟩) ∧
      (msg.type = .informClientServiceFailed →
        (φ (.replica i)).event ⟨.informServiceFailed, msg.serviceName, none, msg.contextName, msg.cause⟩)

abbrev Closed (φ : Site n → Shape) (c : Members n) : Prop := ClosedFor φ c fun s => (φ s).event

def Has (φ : Site n → Shape) (N : NetTraffic n) : Prop := ∀ s, (N s).Has (φ s)

private theorem has_update {s : Site n} {T : Traffic} (h : N.Has φ) (ht : T.Has (φ s)) :
    Has φ (Function.update N s T) := by
  intro s'
  by_cases hs : s' = s
  · subst hs
    rw [Function.update_self]
    exact ht
  · rw [Function.update_of_ne hs]
    exact h s'

/-- A step keeps the shape, if the event it handles is in `E`, and what the instance hears from outside and the
descriptor it sends have the shape. -/
theorem Has.moveFor (h : N.Has φ) (hc : ClosedFor φ c E) (hm : Move c units N l N')
    (hE : ∀ s, l = .own s .dispatch → ∀ e, (N s).inbox.head? = some e → E s e)
    (hborn : ∀ s l', l = .own s l' → ∀ e, l'.event (c s) (N s).allocated = some e → (φ s).event e)
    (hdescriptor : ∀ i, l = .connect i → ∀ cause, cause.instance_ = (c (.replica i)).ident →
      (φ (.replica i)).up ⟨.replicaDescriptor, none, none, some (c (.replica i)).hostName, cause⟩) : N'.Has φ := by
  cases hm with
  | @own s l T hown hm =>
    exact has_update h ((h s).move (hc.site s) hown (fun hl => hE s (by rw [hl]))
      (hborn s l rfl) hm)
  | @toPrimary i msg rest hq =>
    have hup : ∀ msg' ∈ msg :: rest, (φ (.replica i)).up msg' := by
      rw [← hq]
      exact (h (.replica i)).toManager
    refine has_update (has_update h ?_) ?_
    · exact ⟨(h _).inbox, (h _).work, (h _).pushed, fun msg' hx => hup msg' (List.mem_cons_of_mem _ hx),
        (h _).requested, (h _).toClient, (h _).sent⟩
    -- what the message makes the primary queue
    · rw [Traffic.fromReplica_eq]
      split
      · rename_i type ht
        exact (h .primary).arrive (hc.toPrimary i msg type (hup msg List.mem_cons_self) ht)
      · split
        · exact ⟨(h _).inbox, (h _).work, (h _).pushed, (h _).toManager, (h _).requested, (h _).toClient, (h _).sent⟩
        · exact h .primary
  | @toReplica i msg rest hq =>
    have hdown : ∀ msg' ∈ msg :: rest, (φ .primary).down i msg' := by
      rw [← hq]
      exact (h .primary).toClient i
    obtain ⟨hprocess, hfailed⟩ := hc.toReplica i msg (hdown msg List.mem_cons_self)
    refine has_update (has_update h ?_) ?_
    · refine ⟨(h _).inbox, (h _).work, (h _).pushed, (h _).toManager, (h _).requested, fun k => ?_, (h _).sent⟩
      show ∀ msg' ∈ Function.update (N .primary).toClient i rest k, _
      by_cases hk : k = i
      · subst hk
        rw [Function.update_self]
        exact fun msg' hx => hdown msg' (List.mem_cons_of_mem _ hx)
      · rw [Function.update_of_ne hk]
        exact (h .primary).toClient k
    · unfold Traffic.fromPrimary
      cases ht : msg.type with
      | informProcessCrash => exact (h (.replica i)).arrive (hprocess ht)
      | informClientServiceFailed => exact (h (.replica i)).arrive (hfailed ht)
      | _ => exact h (.replica i)
  | @connect i cause hcause => exact has_update h ((h (.replica i)).request (hdescriptor i rfl cause hcause))
  | accept hnew =>
    exact has_update h ⟨(h _).inbox, (h _).work, (h _).pushed, (h _).toManager, (h _).requested, (h _).toClient,
      (h _).sent⟩

theorem Has.move (h : N.Has φ) (hc : Closed φ c) (hm : Move c units N l N')
    (hborn : ∀ s l', l = .own s l' → ∀ e, l'.event (c s) (N s).allocated = some e → (φ s).event e)
    (hdescriptor : ∀ i, l = .connect i → ∀ cause, cause.instance_ = (c (.replica i)).ident →
      (φ (.replica i)).up ⟨.replicaDescriptor, none, none, some (c (.replica i)).hostName, cause⟩) : N'.Has φ :=
  h.moveFor hc hm (fun s _ e he => (h s).inbox e (List.mem_of_mem_head? he)) hborn hdescriptor

end NetTraffic

/-! ### Names -/

/-- A message has the names that are asserted when it is handled. -/
structure RmgMessage.Named (msg : RmgMessage) : Prop where
  failed : msg.type = .informPrimaryServiceFailed ∨ msg.type = .informClientServiceFailed →
    msg.serviceName.isSome ∧ msg.contextName.isSome
  process : msg.type = .informProcessCrash → msg.processName.isSome ∧ msg.contextName.isSome
  request : msg.type = .requestContextRestart ∨ msg.type = .requestPlatformRestart ∨ msg.type = .requestFactoryReset →
    msg.serviceName.isSome

def Shape.named : Shape where
  event := RmgDEvent.Named
  job job := job.type.requestType.isSome → job.serviceName.isSome
  push type e := type.requestType.isSome → e.serviceName.isSome
  up := RmgMessage.Named
  down _ := RmgMessage.Named

private theorem tells_named {c : Identity} {e : RmgDEvent} (h : e.serviceName.isSome ∧ e.contextName.isSome) :
    Shape.named.Tells c e :=
  ⟨fun _ _ => ⟨fun _ => h, by simp [RmgMessage.failure], by simp [RmgMessage.failure]⟩,
    fun _ => ⟨fun _ => h, by simp [RmgMessage.failure], by simp [RmgMessage.failure]⟩, by
      simp [Shape.named, ExecutorEventType.requestType]⟩

theorem closed_named (c : Members n) : NetTraffic.Closed (fun _ => Shape.named) c where
  site s := {
    job := fun _ _ h => h
    processCrash := fun e he ht => ⟨by simp [Shape.named, ExecutorEventType.requestType],
      fun _ _ => ⟨by simp, fun _ => he.process ht, by simp⟩⟩
    serviceFailed := fun e he ht => tells_named (he.failed ht)
    crashed := fun e he ht => ⟨fun _ _ _ _ => he.crash ht, tells_named ⟨he.crash ht, rfl⟩⟩
    remote := fun e he kind hk _ => he.remote (by rw [hk]; rfl)
    execute := fun _ job hj type ht => by
      have hs : job.serviceName.isSome := hj (by rw [ht]; rfl)
      have hrequest : type ≠ .informPrimaryServiceFailed ∧ type ≠ .informClientServiceFailed ∧
          type ≠ .informProcessCrash := by
        cases hk : job.type <;> rw [hk] at ht <;> cases ht <;> simp
      exact ⟨fun h => absurd h (by simp [hrequest.1, hrequest.2.1]), fun h => absurd h hrequest.2.2, fun _ => hs⟩ }
  toPrimary i msg type hm ht := by
    have hnamed : msg.Named := hm
    cases hk : msg.type <;> rw [hk] at ht <;> cases ht
    case informPrimaryServiceFailed =>
      exact ⟨by simp, fun _ => hnamed.failed (.inl hk), by simp, by simp [DispatcherEventType.remoteKind]⟩
    all_goals exact ⟨by simp, by simp, by simp, fun _ => hnamed.request (by simp [hk])⟩
  toReplica i msg hm :=
    ⟨fun ht => ⟨by simp, by simp, fun _ => hm.process ht, by simp [DispatcherEventType.remoteKind]⟩,
      fun ht => ⟨by simp, fun _ => hm.failed (.inr ht), by simp, by simp [DispatcherEventType.remoteKind]⟩⟩

theorem named_of_event {c : Identity} {k : EventRef} {l : Label} {e : RmgDEvent} (h : l.event c k = some e) :
    e.Named := by
  cases l <;> cases h <;> exact ⟨by simp, by simp, by simp, by simp [DispatcherEventType.remoteKind]⟩

/-! ### Steps of the network -/

namespace Traffic

variable {T T' : Traffic} {c : Identity} {units : Option String → Prop} {l : Label} {e : RmgDEvent}

@[simp] theorem clients_serviceFailed (m : RmgRunMode) (host : String) :
    (T.serviceFailed m host e).clients = T.clients := by
  unfold serviceFailed
  cases m <;> dsimp only <;> split <;> rfl

@[simp] theorem clients_select (type : RmgActionType) : (T.select type e).clients = T.clients := by
  unfold select
  split <;> rfl

theorem clients_of_handled (h : Handled c units e T T') : T'.clients = T.clients := by
  cases h with
  | processCrashed =>
    unfold processCrashed
    cases c.runMode <;> rfl
  | serviceFailed => exact clients_serviceFailed ..
  | noUnit | other | remote => rfl
  | crashed type =>
    unfold crashed
    cases type.kind <;> simp [push]

theorem clients_of_move {s : Site n} (hl : l.Own s) (h : Move c units T l T') : T'.clients = T.clients := by
  cases h with
  | fromReplica | fromPrimary => exact hl.elim
  | dispatch _ h => exact (clients_of_handled h).trans rfl
  | execute =>
    unfold executed
    split <;> rfl
  | _ => rfl

theorem Move.eq_fromReplica {sockfd : Nat} {msg : RmgMessage} (h : Move c units T (.fromReplica sockfd msg) T') :
    T' = T.fromReplica sockfd msg := by
  cases h
  rfl

theorem Move.eq_fromPrimary {msg : RmgMessage} (h : Move c units T (.fromPrimary msg) T') : T' = T.fromPrimary msg := by
  cases h
  rfl

theorem sockets_fromReplica (T : Traffic) (sockfd : Nat) (msg : RmgMessage) :
    (T.fromReplica sockfd msg).clients.map RmgClient.sockfd = T.clients.map RmgClient.sockfd := by
  rw [fromReplica_eq]
  split
  · rfl
  · split
    · show (T.clients.map _).map RmgClient.sockfd = _
      rw [List.map_map]
      refine List.map_congr_left fun client _ => ?_
      show (if client.sockfd = sockfd then _ else client : RmgClient).sockfd = _
      split <;> rfl
    · rfl

end Traffic

namespace Network

variable {net net' : Network n} {A : Op → Bool → Prop} {glib : GLib} {l : NetLabel n}

def traffic (net : Network n) : NetTraffic n := fun s => (net.instances s).traffic

theorem traffic_set (s : Site n) (w : Instance) : (net.set s w).traffic = Function.update net.traffic s w.traffic := by
  funext s'
  show (Function.update net.instances s w s').traffic = _
  by_cases hs : s' = s
  · subst hs
    rw [Function.update_self, Function.update_self]
  · rw [Function.update_of_ne hs, Function.update_of_ne hs]
    rfl

/-- What is kept by every step as long as sends go through. -/
structure Sound (net : Network n) : Prop where
  linked : ∀ s, (net.instances s).Linked
  named : net.traffic.Has fun _ => .named
  runMode : ∀ s, (net.instances s).runMode = s.runMode
  sockets : (net.primary.clients.map RmgClient.sockfd).Nodup

private theorem linked_set {s : Site n} {w : Instance} (h : ∀ s, (net.instances s).Linked) (hw : w.Linked)
    (s' : Site n) :
    ((net.set s w).instances s').Linked := by
  show (Function.update net.instances s w s').Linked
  by_cases hs : s' = s
  · subst hs
    rw [Function.update_self]
    exact hw
  · rw [Function.update_of_ne hs]
    exact h s'

private theorem traffic_of_step {s : Site n} {l : Label} {w : Instance} (hA : ∀ op e, A op e → SendsSucceed op e)
    (hs : net.Sound) (hl : ∀ gdir, l ≠ .restart gdir) (h : StepUnder A glib (net.instances s) l w) :
    (∃ units, ((∀ op e, A op e → e = true) → units = (net.instances s).HasUnit) ∧
      Traffic.Move (net.members s) units (net.traffic s) l w.traffic) ∧ w.Linked :=
  traffic_of_stepUnder hA h hl (hs.linked s) (hs.named s).inbox fun _ => (hs.named s).work

/-- Every step of the network, as a move of its traffic. -/
private theorem move_and_linked_of_step (hA : ∀ op e, A op e → SendsSucceed op e) (h : Step A glib net l net')
    (hs : net.Sound) :
    (∃ units, ((∀ op e, A op e → e = true) → ∀ s l', l = .own s l' → units = (net.instances s).HasUnit) ∧
      NetTraffic.Move net.members units net.traffic l net'.traffic) ∧ ∀ s, (net'.instances s).Linked := by
  cases h with
  | @own s l w hown h hconnects =>
    obtain ⟨⟨units, hunits, hm⟩, hlinked⟩ := traffic_of_step hA hs hown.ne_restart h
    refine ⟨⟨units, fun hall s' l' hl => ?_, ?_⟩, linked_set hs.linked hlinked⟩
    · obtain ⟨rfl, rfl⟩ := NetLabel.own.inj hl
      exact hunits hall
    · rw [traffic_set]
      exact .own hown hm
  | @toPrimary i msg rest w hq haccepted h =>
    obtain ⟨⟨units, -, hm⟩, hlinked⟩ := traffic_of_step hA hs (by simp) h
    refine ⟨⟨units, by simp, ?_⟩, linked_set (linked_set hs.linked ⟨(hs.linked _).1, (hs.linked _).2, (hs.linked _).3⟩)
      hlinked⟩
    rw [traffic_set, afterRead, traffic_set, hm.eq_fromReplica]
    exact .toPrimary hq
  | @toReplica i msg rest w hq h =>
    obtain ⟨⟨units, -, hm⟩, hlinked⟩ := traffic_of_step hA hs (by simp) h
    refine ⟨⟨units, by simp, ?_⟩, linked_set (linked_set hs.linked ⟨(hs.linked _).1, (hs.linked _).2, (hs.linked _).3⟩)
      hlinked⟩
    rw [traffic_set, afterDelivery, traffic_set, hm.eq_fromPrimary]
    exact .toReplica hq
  | @connect i hc =>
    refine ⟨⟨fun _ => True, by simp, ?_⟩,
      linked_set hs.linked ⟨(hs.linked _).1, (hs.linked _).2, (hs.linked _).3⟩⟩
    have htraffic := @traffic_set n net (.replica i) ((net.replica i).managerSend (descriptor (net.replica i)))
    rw [traffic_managerSend] at htraffic
    exact htraffic ▸ @NetTraffic.Move.connect n net.members _ net.traffic i ⟨(net.replica i).ident, _⟩ rfl
  | @accept i hc hnew =>
    refine ⟨⟨fun _ => True, by simp, ?_⟩,
      linked_set hs.linked ⟨(hs.linked _).1, (hs.linked _).2, (hs.linked _).3⟩⟩
    rw [traffic_set]
    exact .accept fun client hclient heq => hnew ⟨client, hclient, heq⟩

private theorem sockets_of_move {N N' : NetTraffic n} {c : Members n} {units : Option String → Prop}
    (h : NetTraffic.Move c units N l N') (hn : ((N .primary).clients.map RmgClient.sockfd).Nodup) :
    ((N' .primary).clients.map RmgClient.sockfd).Nodup := by
  cases h with
  | @own s l T hown hm =>
    cases s with
    | primary =>
      rw [Function.update_self, Traffic.clients_of_move hown hm]
      exact hn
    | replica i => exact hn
  | toPrimary =>
    rw [Function.update_self, Traffic.sockets_fromReplica]
    exact hn
  | toReplica => exact hn
  | connect => exact hn
  | @accept i hnew =>
    rw [Function.update_self]
    show (((N .primary).clients ++ [(⟨i, none⟩ : RmgClient)]).map RmgClient.sockfd).Nodup
    rw [List.map_append]
    refine List.nodup_append.2 ⟨hn, List.nodup_singleton _, fun a ha b hb => ?_⟩
    obtain ⟨client, hclient, rfl⟩ := List.mem_map.1 ha
    rw [List.mem_singleton.1 hb]
    exact hnew client hclient

theorem move_of_step (hA : ∀ op e, A op e → SendsSucceed op e) (h : Step A glib net l net') (hs : net.Sound) :
    (∃ units, ((∀ op e, A op e → e = true) → ∀ s l', l = .own s l' → units = (net.instances s).HasUnit) ∧
      NetTraffic.Move net.members units net.traffic l net'.traffic) ∧ net'.Sound := by
  obtain ⟨⟨units, hunits, hm⟩, hlinked⟩ := move_and_linked_of_step hA h hs
  refine ⟨⟨units, hunits, hm⟩, hlinked, ?_, fun s => ?_, sockets_of_move hm hs.sockets⟩
  · exact hs.named.move (closed_named net.members) hm (fun _ _ _ _ he => named_of_event he)
      fun _ _ _ _ => ⟨by simp, by simp, by simp⟩
  · rw [← hs.runMode s]
    exact congrArg Identity.runMode (congrFun h.members s)

end Network

/-! ### Where runs start -/

/-- Nothing has happened yet. -/
structure Traffic.Idle (T : Traffic) : Prop where
  inbox : T.inbox = []
  work : T.work = []
  toClient : ∀ k, T.toClient k = []
  toManager : T.toManager = []
  pushed : T.pushed = []
  selected : T.selected = []
  requested : T.requested = []
  sent : T.sent = []

theorem Traffic.Idle.has {T : Traffic} (h : T.Idle) (φ : Shape) : T.Has φ :=
  ⟨by simp [h.inbox], by simp [h.work], by simp [h.pushed], by simp [h.toManager], by simp [h.requested],
    by simp [h.toClient], by simp [h.sent]⟩

/-- Idle instances, told apart by their causes; some replicas may be connected already. -/
structure Network.Start (net : Network n) : Prop where
  runMode : ∀ s, (net.instances s).runMode = s.runMode
  idents : Function.Injective fun s => (net.instances s).ident
  idle : ∀ s, (net.traffic s).Idle
  sockets : (net.primary.clients.map RmgClient.sockfd).Nodup

theorem Network.Start.sound {net : Network n} (h : net.Start) : net.Sound where
  linked s := by
    have hd : (net.instances s).dispatcherQueue = [] := List.map_eq_nil_iff.1 (h.idle s).inbox
    have he : (net.instances s).executorQueue = [] := List.map_eq_nil_iff.1 (h.idle s).work
    exact ⟨by simp [hd], by simp [he], by simp [hd]⟩
  named s := (h.idle s).has _
  runMode := h.runMode
  sockets := h.sockets

theorem Instance.idle_initial (m : RmgRunMode) (hostName : String) (journal : Journal) :
    ({ initial m hostName with journal := journal } : Instance).traffic.Idle :=
  ⟨rfl, rfl, fun _ => rfl, rfl, rfl, rfl, rfl, rfl⟩

theorem Network.start_pair {p r : Instance} (hp : p.runMode = .primary) (hr : r.runMode = .replica)
    (hpidle : p.traffic.Idle) (hridle : r.traffic.Idle) : (pair p r).Start where
  runMode s := by cases s <;> assumption
  idents s s' h := by
    cases s with
    | primary =>
      cases s' with
      | primary => rfl
      | replica i => exact absurd h (by simp [pair])
    | replica i =>
      cases s' with
      | primary => exact absurd h (by simp [pair])
      | replica j => rw [Subsingleton.elim i j]
  idle s := by
    cases s with
    | primary => exact ⟨hpidle.1, hpidle.2, hpidle.3, hpidle.4, hpidle.5, hpidle.6, hpidle.7, hpidle.8⟩
    | replica i => exact ⟨hridle.1, hridle.2, hridle.3, hridle.4, hridle.5, hridle.6, hridle.7, hridle.8⟩
  sockets := List.nodup_singleton _

end RecoveryManager
