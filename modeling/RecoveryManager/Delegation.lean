import RecoveryManager.Handling

/-!
# Delegated actions

A replica has its context restarted, the platform restarted or a factory reset done by the primary.  On the way the
kind of the action is encoded anew as an executor event, a message, a dispatcher event and an executor event again.
`Network.Delegated` follows the actions of each replica through these stages, in order.
-/

namespace RecoveryManager

open Instance

variable {n : Nat}

/-- An action that the primary is to carry out for another context. -/
structure Delegation where
  kind : ExecutorEventType
  serviceName : Option String
  contextName : Option String
  deriving DecidableEq, Repr

/-- The executor event of the same kind. -/
def RmgActionType.delegated : RmgActionType → Option ExecutorEventType
  | .contextReset => some .contextRestart
  | .platformRestart => some .platformRestart
  | .factoryReset => some .factoryReset
  | _ => none

def RmgMessage.delegation (msg : RmgMessage) : Option Delegation :=
  match msg.type with
  | .requestContextRestart => some ⟨.contextRestart, msg.serviceName, msg.contextName⟩
  | .requestPlatformRestart => some ⟨.platformRestart, msg.serviceName, msg.contextName⟩
  | .requestFactoryReset => some ⟨.factoryReset, msg.serviceName, msg.contextName⟩
  | _ => none

/-- What a dispatcher event that stems from the instance `ident` will be pushed as. -/
def RmgDEvent.delegation (ident : Nat) (e : RmgDEvent) : Option Delegation :=
  if e.cause.instance_ = ident then e.type.remoteKind.map fun kind => ⟨kind, e.serviceName, e.contextName⟩ else none

namespace Traffic

variable (T : Traffic)

/-- The actions selected by the dispatcher of a replica. -/
def selections (hostName : String) : List Delegation :=
  T.selected.filterMap fun x => x.1.delegated.map fun kind => ⟨kind, x.2, some hostName⟩

/-- Those its executor has not got to. -/
def waiting (hostName : String) : List Delegation :=
  T.work.filterMap fun job => job.type.requestType.map fun _ => ⟨job.type, job.serviceName, some hostName⟩

/-- Those it has forwarded to the primary. -/
def forwarded : List Delegation := T.requested.filterMap RmgMessage.delegation

/-- Those the primary has not read. -/
def unread : List Delegation := T.toManager.filterMap RmgMessage.delegation

/-- Those the primary has read and not dispatched. -/
def received (ident : Nat) : List Delegation := T.inbox.filterMap (RmgDEvent.delegation ident)

/-- The executor events that the primary has pushed for an instance. -/
def delegatedPushes (ident : Nat) : List Delegation :=
  T.pushed.filterMap fun x => if x.2.cause.instance_ = ident ∧ x.2.type.remoteKind.isSome then
    some ⟨x.1, x.2.serviceName, x.2.contextName⟩ else none

end Traffic

/-- Every action that a replica selects is forwarded, and every one forwarded is pushed by the primary, as the same
action and in order, as far as the request has been consumed; the primary pushes nothing else for others. -/
structure Network.Delegated (net : Network n) : Prop where
  forwarded : ∀ i, (net.replica i).traffic.selections (net.replica i).hostName =
    (net.replica i).traffic.forwarded ++ (net.replica i).traffic.waiting (net.replica i).hostName
  executed : ∀ i, (net.replica i).traffic.forwarded = net.primary.traffic.delegatedPushes (net.replica i).ident ++
    net.primary.traffic.received (net.replica i).ident ++ (net.replica i).traffic.unread
  context : ∀ i, ∀ d ∈ (net.replica i).traffic.forwarded, d.contextName = some (net.replica i).hostName
  only : ∀ x ∈ net.primary.traffic.pushed, x.2.type.remoteKind.isSome → ∃ i, x.2.cause.instance_ = (net.replica i).ident

/-- The primary does not read a request to restart the platform. -/
def Network.Spares (net : Network n) : NetLabel n → Prop
  | .toPrimary i => ∀ msg ∈ (net.replica i).toManager.head?, msg.type ≠ .requestPlatformRestart
  | _ => True

instance (net : Network n) (l : NetLabel n) : Decidable (net.Spares l) :=
  match l with
  | .toPrimary i =>
    inferInstanceAs (Decidable (∀ msg ∈ (net.replica i).toManager.head?, msg.type ≠ .requestPlatformRestart))
  | .own .. | .toReplica _ | .connect _ | .accept _ => isTrue trivial

/-! ### Where things stem from -/

namespace Delegation

variable {c : Members n} {N N' : NetTraffic n} {units : Option String → Prop} {l : NetLabel n}

/-- A replica handles its own crashes only, and what it asks for is in its own name. -/
private def shape (c : Members n) : Site n → Shape
  | .primary => {
      event e := e.type.remoteKind.isSome → ∃ i, e.cause.instance_ = (c (.replica i)).ident
      job _ := True
      push _ e := e.type.remoteKind.isSome → ∃ i, e.cause.instance_ = (c (.replica i)).ident
      up _ := True
      down _ _ := True }
  | .replica i => {
      event e := e.type.remoteKind = none ∧ (e.type = .serviceCrashed → e.cause.instance_ = (c (.replica i)).ident)
      job job := job.type.requestType.isSome → job.cause.instance_ = (c (.replica i)).ident
      push type e := type.requestType.isSome → e.cause.instance_ = (c (.replica i)).ident
      up msg := msg.delegation.isSome →
        msg.cause.instance_ = (c (.replica i)).ident ∧ msg.contextName = some (c (.replica i)).hostName
      down _ _ := True }

private theorem closed_shape (hmode : ∀ s, (c s).runMode = s.runMode) : NetTraffic.Closed (shape c) c where
  site s := by
    cases s with
    | primary =>
      have hno : (c .primary).runMode ≠ .replica := by
        rw [hmode]
        simp [Site.runMode]
      have htells : ∀ e : RmgDEvent, e.type.remoteKind = none → (shape c .primary).Tells (c .primary) e :=
        fun e ht => ⟨fun _ _ => trivial, fun h => absurd h hno, fun _ => by simp [shape, ht]⟩
      refine ⟨fun _ _ _ => trivial, fun e he ht => ⟨he, fun _ _ => trivial⟩, fun e he ht => htells e ?_,
        fun e he ht => ⟨fun _ _ _ => he, htells _ ?_⟩, fun e he _ _ => he, fun h => absurd h hno⟩
      · rw [ht]
        rfl
      · show e.type.remoteKind = none
        rw [ht]
        rfl
    | replica i =>
      have hno : (c (.replica i)).runMode ≠ .primary := by
        rw [hmode]
        simp [Site.runMode]
      have htells : ∀ e, (shape c (.replica i)).Tells (c (.replica i)) e := fun e =>
        ⟨fun h => absurd h hno, fun _ => by simp [shape, RmgMessage.delegation, RmgMessage.failure], fun _ => by
          simp [shape, ExecutorEventType.requestType]⟩
      refine ⟨fun _ _ h => h, fun e he ht => ⟨by simp [shape, ExecutorEventType.requestType], fun h => absurd h hno⟩,
        fun e _ _ => htells e, fun e he ht => ⟨fun _ _ _ _ => he.2 ht, htells _⟩, fun e he kind hk => ?_,
        fun _ job hj type ht _ => ⟨hj (by rw [ht]; rfl), rfl⟩⟩
      rw [he.1] at hk
      cases hk
  toPrimary i msg type hm ht := by
    have hmsg : msg.delegation.isSome → msg.cause.instance_ = (c (.replica i)).ident ∧
        msg.contextName = some (c (.replica i)).hostName := hm
    intro hr
    refine ⟨i, (hmsg ?_).1⟩
    unfold RmgMessage.delegation
    cases hk : msg.type <;> rw [hk] at ht <;> cases ht <;> first | rfl | cases hr
  toReplica i msg _ := by simp [shape, DispatcherEventType.remoteKind]

private theorem shape_of_event {s : Site n} {k : EventRef} {l : Label} {e : RmgDEvent} (h : l.event (c s) k = some e) :
    (shape c s).event e := by
  cases s <;> cases l <;> cases h <;> simp [shape, DispatcherEventType.remoteKind]

/-! ### The stages -/

/-- What a message is made of by the primary. -/
private def actual (msg : RmgMessage) : Option Delegation :=
  (msg.type.asRequest.bind DispatcherEventType.remoteKind).map fun kind => ⟨kind, msg.serviceName, msg.contextName⟩

/-- The messages that the primary has read of replica `i`. -/
private structure Ledger (c : Members n) (N : NetTraffic n) (i : Fin n) (read : List RmgMessage) : Prop where
  forwarded : (N (.replica i)).selections (c (.replica i)).hostName =
    (N (.replica i)).forwarded ++ (N (.replica i)).waiting (c (.replica i)).hostName
  requested : (N (.replica i)).requested = read ++ (N (.replica i)).toManager
  executed : (N .primary).delegatedPushes (c (.replica i)).ident ++ (N .primary).received (c (.replica i)).ident =
    read.filterMap actual

section acts
variable {T T' : Traffic} {d : Identity} {l : Label}

/-- What the executor of a replica forwards is what its dispatcher has selected. -/
private theorem forwarded_of_acts (hm : d.runMode = .replica) (hinbox : ∀ e ∈ T.inbox, e.type.remoteKind = none)
    (h : T.Acts d units l T') (hT : T.selections d.hostName = T.forwarded ++ T.waiting d.hostName) :
    T'.selections d.hostName = T'.forwarded ++ T'.waiting d.hostName := by
  unfold Traffic.selections Traffic.forwarded Traffic.waiting at hT ⊢
  have hinform : ∀ e, (RmgMessage.failure .informPrimaryServiceFailed e).delegation = none := fun _ => rfl
  cases h with
  | arrive | rest => exact hT
  | @handle e inbox a _ hq ha =>
    simp only [Traffic.add, List.filterMap_append, hT, List.append_assoc]
    cases ha with
    | processCrashed => simp [Traffic.jobOf, ExecutorEventType.requestType]
    | serviceFailed =>
      by_cases hne : some d.hostName ≠ e.contextName
      · simp [hne, hm, Traffic.failureRequests, hinform, Traffic.jobOf, ExecutorEventType.requestType]
      · simp [hne, hm, Traffic.failureRequests, hinform]
    | noUnit | other => simp
    | crashed type =>
      cases type <;> simp [hm, Traffic.failureRequests, hinform, RmgActionType.kind, RmgActionType.delegated,
        Traffic.jobOf, ExecutorEventType.requestType]
    | remote kind hk =>
      rw [hinbox e (by rw [hq]; exact List.mem_cons_self)] at hk
      cases hk
  | @forward job work type _ hq _ ht =>
    have hrequest : RmgMessage.delegation ⟨type, none, job.serviceName, some d.hostName, job.cause⟩ =
        some ⟨job.type, job.serviceName, some d.hostName⟩ := by
      cases hk : job.type <;> rw [hk] at ht <;> cases ht <;> rfl
    rw [hq] at hT
    simp only [Traffic.request, List.filterMap_append, List.filterMap_cons, List.filterMap_nil, hrequest]
    rw [hT]
    simp [ht]
  | @execute job work _ hq ht =>
    rw [hq] at hT
    rw [hT]
    simp [ht hm]

/-- A replica keeps a record of what it sends. -/
private theorem requested_of_acts (h : T.Acts d units l T') {read : List RmgMessage}
    (hT : T.requested = read ++ T.toManager) : T'.requested = read ++ T'.toManager := by
  cases h with
  | arrive | rest | execute => exact hT
  | handle => simp [Traffic.add, hT]
  | forward => simp [Traffic.request, hT]

/-- What the primary dispatches of the requests, it pushes. -/
private theorem executed_of_acts (k : Nat) (hm : d.runMode = .primary) (h : T.Acts d units l T') :
    T'.delegatedPushes k ++ T'.received k = T.delegatedPushes k ++ T.received k := by
  unfold Traffic.delegatedPushes Traffic.received
  cases h with
  | @arrive e he =>
    have hnone : e.delegation k = none := by
      unfold RmgDEvent.delegation
      cases l <;> cases he <;> simp [DispatcherEventType.remoteKind]
    simp [Traffic.arrive, hnone]
  | @handle e inbox a _ hq ha =>
    have hnone : e.type.remoteKind = none → e.delegation k = none := fun ht => by simp [RmgDEvent.delegation, ht]
    simp only [Traffic.add, List.filterMap_append, hq, List.append_assoc]
    cases ha with
    | processCrashed ht =>
      have hr : e.type.remoteKind = none := by rw [ht]; rfl
      simp [hr, hnone hr]
    | serviceFailed ht =>
      have hr : e.type.remoteKind = none := by rw [ht]; rfl
      by_cases hne : some d.hostName ≠ e.contextName
      · simp [hne, hr, hnone hr]
      · simp [hne, hnone hr]
    | noUnit ht =>
      have hr : e.type.remoteKind = none := by rw [ht]; rfl
      simp [hnone hr]
    | crashed type ht =>
      have hr : e.type.remoteKind = none := by rw [ht]; rfl
      cases type.kind <;> simp [hr, hnone hr]
    | remote kind hk => by_cases hc : e.cause.instance_ = k <;> simp [RmgDEvent.delegation, hc, hk]
    | other ht =>
      have hr : e.type.remoteKind = none := by rcases ht with ht | ht <;> rw [ht] <;> rfl
      simp [hnone hr]
  | forward _ _ hr => simp [hm] at hr
  | execute | rest => rfl

/-- A message read becomes an event of the instance it stems from. -/
private theorem received_fromReplica (k sockfd : Nat) (msg : RmgMessage) :
    (T.fromReplica sockfd msg).received k =
      T.received k ++ (if msg.cause.instance_ = k then actual msg else none).toList := by
  rw [Traffic.fromReplica_eq]
  unfold Traffic.received actual
  cases ht : msg.type.asRequest with
  | none =>
    dsimp only
    split <;> simp [Traffic.setClientName]
  | some type =>
    by_cases hk : msg.cause.instance_ = k
    · cases hr : type.remoteKind <;> simp [Traffic.arrive, RmgDEvent.delegation, hk, hr]
    · simp [Traffic.arrive, RmgDEvent.delegation, hk]

private theorem pushes_fromReplica (k sockfd : Nat) (msg : RmgMessage) :
    (T.fromReplica sockfd msg).delegatedPushes k = T.delegatedPushes k := by
  rw [Traffic.fromReplica_eq]
  split
  · rfl
  · split <;> rfl

end acts

private theorem delegation_isSome_of_actual {msg : RmgMessage} (h : (actual msg).isSome) : msg.delegation.isSome := by
  unfold actual at h
  unfold RmgMessage.delegation
  cases hk : msg.type <;> rw [hk] at h <;> first | rfl | cases h

/-! ### Steps -/

section ledger
variable {i j : Fin n} {T : Traffic} {read : List RmgMessage}

private theorem Ledger.update_replica (h : Ledger c N i read)
    (hT : j = i → T.selections (c (.replica i)).hostName = T.forwarded ++ T.waiting (c (.replica i)).hostName ∧
      T.requested = read ++ T.toManager) : Ledger c (Function.update N (.replica j) T) i read := by
  by_cases hj : j = i
  · subst hj
    obtain ⟨hforwarded, hrequested⟩ := hT rfl
    refine ⟨?_, ?_, h.executed⟩
    · rw [Function.update_self]
      exact hforwarded
    · rw [Function.update_self]
      exact hrequested
  · have hne : Site.replica i ≠ .replica j := fun heq => hj (Site.replica.inj heq).symm
    refine ⟨?_, ?_, h.executed⟩
    · rw [Function.update_of_ne hne]
      exact h.forwarded
    · rw [Function.update_of_ne hne]
      exact h.requested

private theorem Ledger.update_primary (h : Ledger c N i read)
    (hT : T.delegatedPushes (c (.replica i)).ident ++ T.received (c (.replica i)).ident =
      (N .primary).delegatedPushes (c (.replica i)).ident ++ (N .primary).received (c (.replica i)).ident) :
    Ledger c (Function.update N .primary T) i read := by
  refine ⟨h.forwarded, h.requested, ?_⟩
  rw [Function.update_self]
  exact hT.trans h.executed

/-- The primary reads a message of the replica. -/
private theorem Ledger.toPrimary {msg : RmgMessage} {rest : List RmgMessage} (h : Ledger c N i read)
    (hq : (N (.replica i)).toManager = msg :: rest)
    (hcause : (actual msg).isSome → msg.cause.instance_ = (c (.replica i)).ident) :
    Ledger c (Function.update (Function.update N (.replica i) { N (.replica i) with toManager := rest }) .primary
      ((N .primary).fromReplica i msg)) i (read ++ [msg]) := by
  have hactual : (if msg.cause.instance_ = (c (.replica i)).ident then actual msg else none) = actual msg := by
    cases hr : actual msg with
    | none => simp
    | some d => rw [if_pos (hcause (by rw [hr]; rfl))]
  refine ⟨?_, ?_, ?_⟩
  · rw [Function.update_of_ne (by simp), Function.update_self]
    exact h.forwarded
  · rw [Function.update_of_ne (by simp), Function.update_self]
    show (N (.replica i)).requested = read ++ [msg] ++ rest
    rw [h.requested, hq, List.append_assoc]
    rfl
  · rw [Function.update_self, pushes_fromReplica, received_fromReplica, ← List.append_assoc, h.executed, hactual,
      List.filterMap_append]
    cases hr : actual msg <;> simp [hr]

/-- The primary reads a message of another replica. -/
private theorem Ledger.toPrimary_of_ne {msg : RmgMessage} {rest : List RmgMessage} (h : Ledger c N i read) (hj : j ≠ i)
    (hcause : (actual msg).isSome → msg.cause.instance_ ≠ (c (.replica i)).ident) :
    Ledger c (Function.update (Function.update N (.replica j) { N (.replica j) with toManager := rest }) .primary
      ((N .primary).fromReplica j msg)) i read := by
  refine (h.update_replica fun heq => absurd heq hj).update_primary ?_
  have hnone : (if msg.cause.instance_ = (c (.replica i)).ident then actual msg else none) = none := by
    split
    · rename_i heq
      by_contra hr
      exact hcause (Option.isSome_iff_ne_none.2 hr) heq
    · rfl
  rw [pushes_fromReplica, received_fromReplica, hnone]
  simp

/-- A step reads at most the next message. -/
private theorem Ledger.move (hmode : ∀ s, (c s).runMode = s.runMode)
    (hidents : Function.Injective fun s => (c s).ident) (hshape : N.Has (shape c)) (h : Ledger c N i read)
    (hm : NetTraffic.Move c units N l N') :
    ∃ read', Ledger c N' i read' ∧ (read' = read ∧ l ≠ .toPrimary i ∨
      ∃ msg, l = .toPrimary i ∧ (N (.replica i)).toManager.head? = some msg ∧ read' = read ++ [msg]) := by
  cases hm with
  | @own s l T hown hm =>
    have hacts := Traffic.acts_of_move hown hm
    refine ⟨read, ?_, .inl ⟨rfl, by simp⟩⟩
    cases s with
    | primary => exact h.update_primary (executed_of_acts _ (hmode .primary) hacts)
    | replica j =>
      refine h.update_replica ?_
      rintro rfl
      -- a replica holds no request, so what it pushes it has selected
      have hinbox : ∀ e ∈ (N (.replica j)).inbox, e.type.remoteKind = none := fun e he =>
        ((hshape (.replica j)).inbox e he).1
      exact ⟨forwarded_of_acts (hmode (.replica j)) hinbox hacts h.forwarded, requested_of_acts hacts h.requested⟩
  | @toPrimary j msg rest hq =>
    have hcause : (actual msg).isSome → msg.cause.instance_ = (c (.replica j)).ident := fun hr =>
      ((hshape (.replica j)).toManager msg (by rw [hq]; exact List.mem_cons_self) (delegation_isSome_of_actual hr)).1
    by_cases hj : j = i
    · subst hj
      exact ⟨_, h.toPrimary hq hcause, .inr ⟨msg, rfl, by rw [hq]; rfl, rfl⟩⟩
    · refine ⟨read, h.toPrimary_of_ne hj fun hr heq => ?_, .inl ⟨rfl, by simp [hj]⟩⟩
      exact hj (Site.replica.inj (hidents ((hcause hr).symm.trans heq)))
  | @toReplica j msg rest hq =>
    have hfrom : ∀ T : Traffic, (T.fromPrimary msg).selections = T.selections ∧
        (T.fromPrimary msg).forwarded = T.forwarded ∧ (T.fromPrimary msg).waiting = T.waiting ∧
        (T.fromPrimary msg).requested = T.requested ∧ (T.fromPrimary msg).toManager = T.toManager := by
      intro T
      unfold Traffic.fromPrimary
      split <;> exact ⟨rfl, rfl, rfl, rfl, rfl⟩
    refine ⟨read, (h.update_primary ?_).update_replica ?_, .inl ⟨rfl, by simp⟩⟩
    · rfl
    · rintro rfl
      obtain ⟨h₁, h₂, h₃, h₄, h₅⟩ := hfrom (N (.replica j))
      rw [h₁, h₂, h₃, h₄, h₅]
      exact ⟨h.forwarded, h.requested⟩
  | @connect j cause _ =>
    refine ⟨read, h.update_replica ?_, .inl ⟨rfl, by simp⟩⟩
    rintro rfl
    -- a descriptor asks for nothing
    constructor
    · have hforwarded := h.forwarded
      unfold Traffic.forwarded at hforwarded ⊢
      rw [Traffic.request, List.filterMap_append]
      exact hforwarded.trans (by simp [RmgMessage.delegation, Traffic.waiting])
    · simp [Traffic.request, h.requested]
  | accept => exact ⟨read, h.update_primary rfl, .inl ⟨rfl, by simp⟩⟩

end ledger

/-! ### The request that goes wrong -/

private theorem actual_eq_iff (msg : RmgMessage) :
    actual msg = msg.delegation ↔ msg.type ≠ .requestPlatformRestart := by
  unfold actual RmgMessage.delegation
  cases msg.type <;> simp [RmgMessageType.asRequest, DispatcherEventType.remoteKind]

private theorem isSome_actual (msg : RmgMessage) : (actual msg).isSome = msg.delegation.isSome := by
  unfold actual RmgMessage.delegation
  cases msg.type <;> rfl

private theorem filterMap_eq_iff {α β : Type} {f g : α → Option β} (hfg : ∀ a, (f a).isSome = (g a).isSome)
    (l : List α) :
    l.filterMap f = l.filterMap g ↔ ∀ a ∈ l, f a = g a := by
  induction l with
  | nil => simp
  | cons a l ih =>
    have ha := hfg a
    cases hf : f a with
    | none =>
      have hg : g a = none := by
        rw [hf] at ha
        exact Option.isSome_eq_false_iff.1 ha.symm |> Option.isNone_iff_eq_none.1
      simp [hf, hg, ih]
    | some b =>
      rw [hf] at ha
      obtain ⟨b', hg⟩ := Option.isSome_iff_exists.1 ha.symm
      simp [hf, hg, ih]

/-- Everything known of a state reached. -/
private structure Tracked (c : Members n) (net : Network n) (reads : Fin n → List RmgMessage) : Prop where
  members : net.members = c
  sound : net.Sound
  shape : net.traffic.Has (shape c)
  ledger : ∀ i, Ledger c net.traffic i (reads i)

variable {net net' net₀ : Network n} {glib : GLib} {reads : Fin n → List RmgMessage}

private theorem tracked_start (h : net.Start) : Tracked net.members net fun _ => [] := by
  refine ⟨rfl, h.sound, fun s => (h.idle s).has _, fun i => ⟨?_, ?_, ?_⟩⟩
  · simp [Traffic.selections, Traffic.forwarded, Traffic.waiting, (h.idle _).selected, (h.idle _).requested,
      (h.idle _).work]
  · simp [(h.idle _).requested, (h.idle _).toManager]
  · simp [Traffic.delegatedPushes, Traffic.received, (h.idle _).pushed, (h.idle _).inbox]

private theorem Tracked.step (hidents : Function.Injective fun s => (c s).ident) (h : Tracked c net reads)
    (hstep : Network.Step SendsSucceed glib net l net') :
    ∃ reads', Tracked c net' reads' ∧ ∀ i, reads' i = reads i ∧ l ≠ .toPrimary i ∨
      ∃ msg, l = .toPrimary i ∧ (net.replica i).toManager.head? = some msg ∧ reads' i = reads i ++ [msg] := by
  obtain ⟨⟨units, -, hm⟩, hsound⟩ := Network.move_of_step (fun _ _ h => h) hstep h.sound
  rw [h.members] at hm
  have hmode : ∀ s, (c s).runMode = s.runMode := fun s => h.members ▸ h.sound.runMode s
  choose reads' hreads hcases using fun i => (h.ledger i).move hmode hidents h.shape hm
  refine ⟨reads', ⟨hstep.members.trans h.members, hsound, ?_, hreads⟩, hcases⟩
  exact h.shape.move (closed_shape hmode) hm (fun s l' _ e he => shape_of_event he)
    fun i _ cause _ h => by cases h

private theorem Tracked.delegated_iff_spared (h : Tracked net.members net reads) :
    net.Delegated ↔ ∀ i, ∀ msg ∈ reads i, msg.type ≠ .requestPlatformRestart := by
  have hexecuted : ∀ i, ((net.replica i).traffic.forwarded =
      net.primary.traffic.delegatedPushes (net.replica i).ident ++
      net.primary.traffic.received (net.replica i).ident ++ (net.replica i).traffic.unread ↔
        ∀ msg ∈ reads i, msg.type ≠ .requestPlatformRestart) := by
    intro i
    have hforwarded : (net.replica i).traffic.forwarded =
        (reads i).filterMap RmgMessage.delegation ++ (net.replica i).traffic.unread := by
      show (net.replica i).traffic.requested.filterMap _ = _
      rw [show (net.replica i).traffic.requested = _ from (h.ledger i).requested, List.filterMap_append]
      rfl
    rw [hforwarded, show net.primary.traffic.delegatedPushes (net.replica i).ident ++
      net.primary.traffic.received (net.replica i).ident = _ from (h.ledger i).executed, List.append_left_inj, eq_comm,
      filterMap_eq_iff isSome_actual]
    exact forall₂_congr fun msg _ => actual_eq_iff msg
  refine ⟨fun hd i => (hexecuted i).1 (hd.executed i), fun hr => ⟨fun i => (h.ledger i).forwarded,
    fun i => (hexecuted i).2 (hr i), fun i d hd => ?_, fun x hx => (h.shape .primary).pushed x hx⟩⟩
  obtain ⟨msg, hmsg, hd⟩ := List.mem_filterMap.1 hd
  have hcontext := ((h.shape (.replica i)).requested msg hmsg (by rw [hd]; rfl)).2
  unfold RmgMessage.delegation at hd
  cases hk : msg.type <;> rw [hk] at hd <;> cases hd <;> exact hcontext

/-- What has been read shows in what is left of what was sent. -/
private theorem Tracked.reads_eq {reads' : Fin n → List RmgMessage} (h : Tracked c net reads)
    (h' : Tracked c net reads') :
    reads = reads' :=
  funext fun i => List.append_cancel_right ((h.ledger i).requested.symm.trans (h'.ledger i).requested)

/-- No request to restart the platform has been read. -/
private def Spared (reads : Fin n → List RmgMessage) : Prop := ∀ i, ∀ msg ∈ reads i, msg.type ≠ .requestPlatformRestart

private theorem spared_of_run (h₀ : net₀.Start) {ls : List (NetLabel n)}
    (hr : Transition.Run (fun net l net' => Network.Step SendsSucceed glib net l net' ∧ net.Spares l) net₀ ls net) :
    ∃ reads, Tracked net₀.members net reads ∧ Spared reads := by
  refine hr.invariant (I := fun net => ∃ reads, Tracked net₀.members net reads ∧ Spared reads)
    ⟨_, tracked_start h₀, fun i msg hmsg => by cases hmsg⟩ ?_
  rintro net l net' ⟨reads, ht, hs⟩ ⟨hstep, hspares⟩
  obtain ⟨reads', ht', hcases⟩ := ht.step h₀.idents hstep
  refine ⟨reads', ht', fun i msg hmsg => ?_⟩
  rcases hcases i with ⟨heq, -⟩ | ⟨msg', rfl, hhead, heq⟩
  · exact hs i msg (heq ▸ hmsg)
  · rw [heq] at hmsg
    rcases List.mem_append.1 hmsg with hmsg | hmsg
    · exact hs i msg hmsg
    · rw [List.mem_singleton.1 hmsg]
      exact hspares msg' hhead

private theorem run_of_spared (h₀ : net₀.Start) {ls : List (NetLabel n)}
    (hr : Network.Runs SendsSucceed glib net₀ ls net) :
    ∃ reads, Tracked net₀.members net reads ∧ (Spared reads →
      Transition.Run (fun net l net' => Network.Step SendsSucceed glib net l net' ∧ net.Spares l) net₀ ls net) := by
  induction hr with
  | nil => exact ⟨_, tracked_start h₀, fun _ => .nil⟩
  | @snoc ls net net' l _ hstep ih =>
    obtain ⟨reads, ht, hrun⟩ := ih
    obtain ⟨reads', ht', hcases⟩ := ht.step h₀.idents hstep
    refine ⟨reads', ht', fun hs => .snoc (hrun fun i msg hmsg => ?_) ⟨hstep, ?_⟩⟩
    · rcases hcases i with ⟨heq, -⟩ | ⟨msg', -, -, heq⟩
      · exact hs i msg (heq ▸ hmsg)
      · exact hs i msg (by rw [heq]; exact List.mem_append_left _ hmsg)
    · cases l with
      | toPrimary i =>
        intro msg hhead
        rcases hcases i with ⟨-, hne⟩ | ⟨msg', -, hhead', heq⟩
        · exact absurd rfl hne
        · obtain rfl : msg' = msg := Option.some.inj (hhead'.symm.trans hhead)
          exact hs i msg' (by rw [heq]; simp)
      | _ => trivial

end Delegation

open Delegation

section
variable {net net₀ : Network n} {glib : GLib}

/-- Every delegated action is executed as the same action, and in order, as long as the primary reads no request to
restart the platform; one that it reads it takes for a request to restart the context. -/
theorem delegated_iff (h₀ : net₀.Start) {ls : List (NetLabel n)} (hr : Network.Runs SendsSucceed glib net₀ ls net) :
    net.Delegated ↔ Transition.Run (fun net l net' => Network.Step SendsSucceed glib net l net' ∧ net.Spares l)
      net₀ ls net := by
  obtain ⟨reads, ht, hrun⟩ := run_of_spared h₀ hr
  rw [(ht.members ▸ ht : Tracked net.members net reads).delegated_iff_spared]
  refine ⟨hrun, fun h => ?_⟩
  obtain ⟨reads', ht', hs⟩ := spared_of_run h₀ h
  obtain rfl := ht.reads_eq ht'
  exact hs

end

/-! ### A context restart and a platform restart -/

/-- A unit whose only action is the given one. -/
def delegatingUnit (action : String) : List Tag := Tag.unit "a.service" [] [(action, "1", "false")]

/-- A replica that has ingested it, and a primary without units. -/
def delegatingPair (action : String) : Network 1 :=
  .pair (initial .primary "host") { initial .replica "container" with
    journal := (booted (.reading [delegatingUnit action]) (initial .replica "container")
      [delegatingUnit action]).journal }

theorem delegatingPair_start (action : String) : (delegatingPair action).Start :=
  Network.start_pair rfl rfl (idle_initial .primary "host" .empty) (idle_initial .replica "container" _)

/-- The service of the replica crashes, the primary gets to know of it and handles what it has read. -/
def delegatingLabels : List (NetLabel 1) :=
  [.own (.replica 0) (.crash "a.service"), .own (.replica 0) .dispatch, .own (.replica 0) .execute, .toPrimary 0,
    .toPrimary 0, .own .primary .dispatch, .own .primary .dispatch]

/-- The step for a label that does not have a request to restart the platform read. -/
def Network.nextSparing (glib : GLib) (net : Network n) (l : NetLabel n) : Option (Network n) :=
  if net.Spares l then net.next glib l else none

theorem Network.runs_of_nextSparing {net net' : Network n} {glib : GLib} {ls : List (NetLabel n)}
    (h : ls.foldlM (nextSparing glib) net = some net') :
    Transition.Run (fun net l net' => Network.Step SendsSucceed glib net l net' ∧ net.Spares l) net ls net' := by
  refine (Transition.Run.of_foldlM h).mono fun net l net' hstep => ?_
  have hs : (if net.Spares l then net.next glib l else none) = some net' := hstep
  split at hs
  · rename_i hspares
    exact ⟨Network.step_of_next sendsSucceed_true hs, hspares⟩
  · cases hs

/-- A context restart is read, dispatched and pushed as such. -/
theorem delegated_iff_of_context_restart : ∃ net : Network 1, net.Delegated ∧
    net.primary.traffic.delegatedPushes (net.replica 0).ident =
      [⟨.contextRestart, some "a.service", some "container"⟩] := by
  have hsome : (delegatingLabels.foldlM (Network.nextSparing (.reading [delegatingUnit "contextRestart"]))
      (delegatingPair "contextRestart")).any (fun net =>
        net.primary.traffic.delegatedPushes (net.replica 0).ident =
          [⟨.contextRestart, some "a.service", some "container"⟩]) := by
    decide +kernel
  obtain ⟨net, hnet, hpushed⟩ := (Option.any_eq_true _ _).1 hsome
  have hr := Network.runs_of_nextSparing hnet
  exact ⟨net, (delegated_iff (delegatingPair_start _) (hr.mono fun _ _ _ h => h.1)).2 hr, of_decide_eq_true hpushed⟩

/-- The platform restart that the replica asks for is pushed as a restart of its context. -/
theorem platform_restart_restarts_context : ¬ ∀ (n : Nat) (glib : GLib) (net₀ net : Network n) (ls : List (NetLabel n)),
    net₀.Start → Network.Runs SendsSucceed glib net₀ ls net → net.Delegated := by
  intro h
  have hnet : ∃ net, delegatingLabels.foldlM (Network.next (.reading [delegatingUnit "platformRestart"]))
      (delegatingPair "platformRestart") = some net :=
    Option.isSome_iff_exists.1 (by decide +kernel)
  obtain ⟨net, hnet⟩ := hnet
  have hd := (h 1 _ _ net _ (delegatingPair_start _) (Network.runs_of_next sendsSucceed_true hnet)).executed 0
  have hwrong : (delegatingLabels.foldlM (Network.next (.reading [delegatingUnit "platformRestart"]))
      (delegatingPair "platformRestart")).all fun net =>
        (net.replica 0).traffic.forwarded ≠ net.primary.traffic.delegatedPushes (net.replica 0).ident ++
          net.primary.traffic.received (net.replica 0).ident ++ (net.replica 0).traffic.unread := by
    decide +kernel
  rw [hnet] at hwrong
  exact of_decide_eq_true hwrong hd

end RecoveryManager
