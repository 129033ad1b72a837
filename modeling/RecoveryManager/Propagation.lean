import RecoveryManager.Copies
import RecoveryManager.Handling

/-!
# Service failures

A service with a recovery unit that fails on one instance is told to all others.  `NetTraffic.tally` counts the copies
of one failure; a step of the network is a step of the tally (`step_of_move`).  Before the failure is handled there is
nothing but its crash event (`Before`), and handling it makes one copy for each other instance (`spread_of_dispatch`).
-/

namespace RecoveryManager

open Instance

variable {n : Nat}

namespace Traffic

variable (T : Traffic) (cause : Cause)

/-- The executor events pushed for the failure. -/
def failurePushes : Nat := T.pushed.countP fun x => x.1 = .friendServiceFailed ∧ x.2.cause = cause

/-- The dispatcher events that wait. -/
def failuresWaiting : Nat := T.inbox.countP fun e => e.type = .informServiceFailed ∧ e.cause = cause

/-- The messages on their way to a client. -/
def failuresDown (k : Nat) : Nat := (T.toClient k).countP fun msg => msg.cause = cause

/-- The messages about the failure on their way to the primary. -/
def failuresUp : Nat := T.toManager.countP fun msg => msg.type = .informPrimaryServiceFailed ∧ msg.cause = cause

/-- All messages ever sent to a client because of the failure. -/
def messagesTo (k : Nat) : Nat := T.sent.countP fun x => x.1 = k ∧ x.2.cause = cause

/-- All messages ever sent to the primary because of the failure. -/
def messagesFrom : Nat := T.requested.countP fun msg => msg.cause = cause

/-- The requests for the primary that the executor has not got to. -/
def requestsDue : Nat := T.work.countP fun job => job.type.requestType.isSome ∧ job.cause = cause

end Traffic

namespace NetTraffic

/-- The copies of a failure in the network. -/
def tally (N : NetTraffic n) (cause : Cause) : Tally n where
  pushed s := (N s).failurePushes cause
  waiting s := (N s).failuresWaiting cause
  down i := (N .primary).failuresDown cause i
  up i := (N (.replica i)).failuresUp cause
  sent i := (N .primary).messagesTo cause i
  requested i := (N (.replica i)).messagesFrom cause
  jobs i := (N (.replica i)).requestsDue cause

end NetTraffic

namespace Propagation

variable {T T' : Traffic} {d : Identity} {units : Option String → Prop} {l : Label} {e : RmgDEvent} {a : Added}
  {clients : List RmgClient} {cause : Cause}

/-! ### One instance -/

private theorem cause_of_adds (h : Traffic.Adds d units clients e a) : (∀ x ∈ a.pushes, x.2.cause = e.cause) ∧
    (∀ msg ∈ a.requests, msg.cause = e.cause) ∧ ∀ x ∈ a.sends, x.2.cause = e.cause := by
  have hrequests : ∀ (m : RmgRunMode) (e' : RmgDEvent), ∀ msg ∈ Traffic.failureRequests m e', msg.cause = e'.cause := by
    intro m e' msg hmsg
    unfold Traffic.failureRequests at hmsg
    split at hmsg
    · rw [List.mem_singleton.1 hmsg]
      rfl
    · cases hmsg
  have hinformed : ∀ (msg : RmgMessage) (clients : List RmgClient), ∀ x ∈ Traffic.informed msg clients,
      x.2.cause = msg.cause := by
    intro msg clients x hx
    obtain ⟨client, -, rfl⟩ := List.mem_map.1 hx
    rfl
  have hsends : ∀ (m : RmgRunMode) (e' : RmgDEvent), ∀ x ∈ Traffic.failureSends m clients e', x.2.cause = e'.cause := by
    intro m e' x hx
    unfold Traffic.failureSends at hx
    split at hx
    · exact hinformed _ _ x hx
    · cases hx
  cases h with
  | processCrashed =>
    refine ⟨by simp, by simp, fun x hx => ?_⟩
    dsimp only at hx
    split at hx
    · exact hinformed _ _ x hx
    · cases hx
  | serviceFailed =>
    refine ⟨fun x hx => ?_, hrequests _ _, hsends _ _⟩
    dsimp only at hx
    split at hx
    · rw [List.mem_singleton.1 hx]
    · cases hx
  | noUnit | other => exact ⟨by simp, by simp, by simp⟩
  | crashed type => exact ⟨by simp, hrequests _ { e with contextName := some d.hostName },
      hsends _ { e with contextName := some d.hostName }⟩
  | remote => exact ⟨by simp, by simp, by simp⟩

/-- What handling an event adds to the counts. -/
private theorem counts_add (cause : Cause) (T : Traffic) {inbox : List RmgDEvent} (hq : T.inbox = e :: inbox)
    (a : Added) :
    (Traffic.add { T with inbox := inbox } a).failurePushes cause =
        T.failurePushes cause + a.pushes.countP (fun x => x.1 = .friendServiceFailed ∧ x.2.cause = cause) ∧
      T.failuresWaiting cause = (Traffic.add { T with inbox := inbox } a).failuresWaiting cause +
        (if e.type = .informServiceFailed ∧ e.cause = cause then 1 else 0) ∧
      (∀ k, (Traffic.add { T with inbox := inbox } a).failuresDown cause k =
        T.failuresDown cause k + (Traffic.toSocket k a.sends).countP fun msg => msg.cause = cause) ∧
      (Traffic.add { T with inbox := inbox } a).failuresUp cause = T.failuresUp cause +
        a.requests.countP (fun msg => msg.type = .informPrimaryServiceFailed ∧ msg.cause = cause) ∧
      (∀ k, (Traffic.add { T with inbox := inbox } a).messagesTo cause k =
        T.messagesTo cause k + a.sends.countP fun x => x.1 = k ∧ x.2.cause = cause) ∧
      (Traffic.add { T with inbox := inbox } a).messagesFrom cause =
        T.messagesFrom cause + a.requests.countP (fun msg => msg.cause = cause) ∧
      (Traffic.add { T with inbox := inbox } a).requestsDue cause = T.requestsDue cause +
        (a.pushes.map Traffic.jobOf).countP fun job => job.type.requestType.isSome ∧ job.cause = cause := by
  refine ⟨List.countP_append, ?_, fun k => List.countP_append, List.countP_append, fun k => List.countP_append,
    List.countP_append, List.countP_append⟩
  show T.inbox.countP _ = inbox.countP _ + _
  rw [hq, List.countP_cons]
  simp

/-- How many clients behind a socket are told of a failure in a context. -/
def told (clients : List RmgClient) (context : Option String) (k : Nat) : Nat :=
  (clients.filter fun client => client.sockfd = k ∧ client.contextName ≠ context).length

private theorem countP_failureSends (m : RmgRunMode) (clients : List RmgClient) (hc : e.cause = cause) (k : Nat) :
    ((Traffic.toSocket k (Traffic.failureSends m clients e)).countP fun msg => msg.cause = cause) =
        (if m = .primary then told clients e.contextName k else 0) ∧
      ((Traffic.failureSends m clients e).countP fun x => x.1 = k ∧ x.2.cause = cause) =
        if m = .primary then told clients e.contextName k else 0 := by
  unfold Traffic.failureSends
  by_cases hm : m = .primary
  · rw [if_pos hm, if_pos hm, Traffic.toSocket_informed, List.countP_map, List.filter_filter]
    constructor
    · rw [List.countP_eq_length.2 fun client _ => by simp [RmgMessage.failure, hc]]
      simp [told]
    · unfold Traffic.informed told
      rw [List.countP_map, List.countP_filter, List.countP_eq_length_filter]
      simp [RmgMessage.failure, hc]
  · rw [if_neg hm, if_neg hm]
    exact ⟨rfl, rfl⟩

private theorem countP_failureRequests (m : RmgRunMode) (hc : e.cause = cause) :
    ((Traffic.failureRequests m e).countP fun msg => msg.type = .informPrimaryServiceFailed ∧ msg.cause = cause) =
        (if m = .replica then 1 else 0) ∧
      ((Traffic.failureRequests m e).countP fun msg => msg.cause = cause) = if m = .replica then 1 else 0 := by
  unfold Traffic.failureRequests
  by_cases hm : m = .replica <;> simp [hm, RmgMessage.failure, hc]

/-- The counts stay as they are. -/
private structure Quiet (d : Identity) (cause : Cause) (T T' : Traffic) : Prop where
  pushed : T'.failurePushes cause = T.failurePushes cause
  waiting : T'.failuresWaiting cause = T.failuresWaiting cause
  down : ∀ k, T'.failuresDown cause k = T.failuresDown cause k
  up : T'.failuresUp cause = T.failuresUp cause
  sent : ∀ k, T'.messagesTo cause k = T.messagesTo cause k
  requested : T'.messagesFrom cause = T.messagesFrom cause
  jobs : d.runMode = .replica → T'.requestsDue cause = T.requestsDue cause

/-- A request for the failure is sent. -/
private structure Forwarded (cause : Cause) (T T' : Traffic) : Prop where
  pushed : T'.failurePushes cause = T.failurePushes cause
  waiting : T'.failuresWaiting cause = T.failuresWaiting cause
  up : T'.failuresUp cause = T.failuresUp cause
  requested : T'.messagesFrom cause = T.messagesFrom cause + 1
  jobs : T.requestsDue cause = T'.requestsDue cause + 1

/-- A copy of the failure is handled. -/
private structure Handled (d : Identity) (cause : Cause) (context : Option String) (T T' : Traffic) : Prop where
  pushed : T'.failurePushes cause = T.failurePushes cause + if some d.hostName ≠ context then 1 else 0
  waiting : T.failuresWaiting cause = T'.failuresWaiting cause + 1
  down : d.runMode = .primary → ∀ k, T'.failuresDown cause k = T.failuresDown cause k + told T.clients context k
  up : d.runMode = .replica → T'.failuresUp cause = T.failuresUp cause + 1
  sent : d.runMode = .primary → ∀ k, T'.messagesTo cause k = T.messagesTo cause k + told T.clients context k
  requested : d.runMode = .replica → T'.messagesFrom cause = T.messagesFrom cause + 1
  jobs : T'.requestsDue cause = T.requestsDue cause

private theorem quiet_of_adds {inbox : List RmgDEvent} (hq : T.inbox = e :: inbox)
    (h : Traffic.Adds d units T.clients e a) (hc : e.cause ≠ cause) :
    Quiet d cause T (Traffic.add { T with inbox := inbox } a) := by
  obtain ⟨hpushes, hrequests, hsends⟩ := cause_of_adds h
  obtain ⟨hP, hW, hD, hU, hS, hR, hJ⟩ := counts_add cause T hq a
  have hjobs : ∀ job ∈ a.pushes.map Traffic.jobOf, job.cause = e.cause := by
    intro job hjob
    obtain ⟨x, hx, rfl⟩ := List.mem_map.1 hjob
    exact hpushes x hx
  refine ⟨?_, ?_, fun k => ?_, ?_, fun k => ?_, ?_, fun _ => ?_⟩
  · rw [hP, List.countP_eq_zero.2 fun x hx => by simp [hpushes x hx, hc]]
    rfl
  · rw [hW, if_neg (by simp [hc])]
    rfl
  · rw [hD, List.countP_eq_zero.2 fun msg hmsg => ?_]
    · rfl
    · obtain ⟨x, hx, rfl⟩ := List.mem_map.1 hmsg
      simp [hsends x (List.mem_of_mem_filter hx), hc]
  · rw [hU, List.countP_eq_zero.2 fun msg hmsg => by simp [hrequests msg hmsg, hc]]
    rfl
  · rw [hS, List.countP_eq_zero.2 fun x hx => by simp [hsends x hx, hc]]
    rfl
  · rw [hR, List.countP_eq_zero.2 fun msg hmsg => by simp [hrequests msg hmsg, hc]]
    rfl
  · rw [hJ, List.countP_eq_zero.2 fun job hjob => by simp [hjobs job hjob, hc]]
    rfl

private theorem quiet_of_arrive (he : ¬ (e.type = .informServiceFailed ∧ e.cause = cause)) :
    Quiet d cause T (T.arrive e) := by
  refine ⟨rfl, ?_, fun _ => rfl, rfl, fun _ => rfl, rfl, fun _ => rfl⟩
  simp [Traffic.failuresWaiting, Traffic.arrive, he]

/-- What an instance does with the copies of a failure it has. -/
private theorem counts_of_acts (h : T.Acts d units l T')
    (hborn : ∀ e, l.event d T.allocated = some e → e.cause ≠ cause)
    (hinbox : ∀ e ∈ T.inbox, e.cause = cause →
      e.type = .informServiceFailed ∨ d.runMode = .primary ∧ e.type.remoteKind.isSome) :
    Quiet d cause T T' ∨ (d.runMode = .replica ∧ Forwarded cause T T') ∨
      ∃ e, l = .dispatch ∧ T.inbox.head? = some e ∧ e.type = .informServiceFailed ∧ e.cause = cause ∧
        Handled d cause e.contextName T T' := by
  cases h with
  | @arrive e he => exact .inl (quiet_of_arrive fun h => hborn e he h.2)
  | @handle e inbox a hl hq ha =>
    by_cases hc : e.cause = cause
    · rcases hinbox e (by rw [hq]; exact List.mem_cons_self) hc with ht | ⟨hm, ht⟩
      · refine .inr (.inr ⟨e, hl, by rw [hq]; rfl, ht, hc, ?_⟩)
        obtain ⟨hP, hW, hD, hU, hS, hR, hJ⟩ := counts_add cause T hq a
        cases ha with
        | serviceFailed =>
          have hsends := countP_failureSends d.runMode T.clients hc
          obtain ⟨hup, hrequested⟩ := countP_failureRequests d.runMode hc
          refine ⟨?_, by rw [hW, if_pos (show e.type = .informServiceFailed ∧ e.cause = cause from ⟨ht, hc⟩)],
            fun hm k => by rw [hD, (hsends k).1, if_pos hm],
            fun hm => by rw [hU, hup, if_pos hm], fun hm k => by rw [hS, (hsends k).2, if_pos hm],
            fun hm => by rw [hR, hrequested, if_pos hm], ?_⟩
          -- one push, unless the instance is the context of the failure itself
          · rw [hP]
            by_cases hne : some d.hostName ≠ e.contextName <;> simp [hne, hc]
          · rw [hJ]
            by_cases hne : some d.hostName ≠ e.contextName <;>
              simp [hne, Traffic.jobOf, ExecutorEventType.requestType]
        | processCrashed ht' | noUnit ht' | crashed _ ht' => rw [ht'] at ht; cases ht
        | remote kind hk => rw [ht] at hk; cases hk
        | other ht' => rcases ht' with ht' | ht' <;> rw [ht'] at ht <;> cases ht
      · -- a request of the originator, handled by the primary
        refine .inl ?_
        obtain ⟨hP, hW, hD, hU, hS, hR, hJ⟩ := counts_add cause T hq a
        cases ha with
        | remote kind hk =>
          have hkind : kind ≠ .friendServiceFailed := by
            rintro rfl
            cases ht' : e.type <;> rw [ht'] at hk <;> cases hk
          have htype : e.type ≠ .informServiceFailed := by
            intro ht'
            rw [ht'] at hk
            cases hk
          refine ⟨?_, ?_, hD, hU, hS, hR, fun hr => by rw [hm] at hr; cases hr⟩
          · rw [hP]
            simp [hkind]
          · rw [hW, if_neg fun h => htype h.1]
            rfl
        | processCrashed ht' | serviceFailed ht' | noUnit ht' | crashed _ ht' => rw [ht'] at ht; cases ht
        | other ht' => rcases ht' with ht' | ht' <;> rw [ht'] at ht <;> cases ht
    · exact .inl (quiet_of_adds hq ha hc)
  | @forward job work type hl hq hm ht =>
    -- a job of this cause leaves the executor as one request
    by_cases hc : job.cause = cause
    · refine .inr (.inl ⟨hm, rfl, rfl, ?_, ?_, ?_⟩)
      · have htype : type ≠ .informPrimaryServiceFailed := by
          rintro rfl
          cases hk : job.type <;> rw [hk] at ht <;> cases ht
        simp [Traffic.failuresUp, Traffic.request, htype]
      · simp [Traffic.messagesFrom, Traffic.request, hc]
      · simp [Traffic.requestsDue, Traffic.request, hq, ht, hc]
    · refine .inl ⟨rfl, rfl, fun _ => rfl, ?_, fun _ => rfl, ?_, fun _ => ?_⟩
      · simp [Traffic.failuresUp, Traffic.request, hc]
      · simp [Traffic.messagesFrom, Traffic.request, hc]
      · simp [Traffic.requestsDue, Traffic.request, hq, hc]
  | @execute job work hl hq ht =>
    refine .inl ⟨rfl, rfl, fun _ => rfl, rfl, fun _ => rfl, rfl, fun hm => ?_⟩
    simp [Traffic.requestsDue, hq, ht hm]
  | rest => exact .inl ⟨rfl, rfl, fun _ => rfl, rfl, fun _ => rfl, rfl, fun _ => rfl⟩

/-! ### The network -/

variable {c : Members n} {N N' : NetTraffic n} {l : NetLabel n} {o : Site n}

/-- What stems from a failure of `o` once it is handled: copies in the name of `o`, and requests. -/
def spread (c : Members n) (o : Site n) (cause : Cause) (s : Site n) : Shape where
  event e := e.cause = cause →
    e.type = .informServiceFailed ∧ e.contextName = some (c o).hostName ∨ s = .primary ∧ e.type.remoteKind.isSome
  job _ := True
  push _ _ := True
  up msg := msg.cause = cause → msg.type = .informPrimaryServiceFailed ∧ msg.contextName = some (c o).hostName ∨
    (msg.type.asRequest.bind DispatcherEventType.remoteKind).isSome
  down _ msg := msg.cause = cause → msg.type = .informClientServiceFailed ∧ msg.contextName = some (c o).hostName

private theorem map_update {α β : Type} {ι : Type} [DecidableEq ι] (f : α → β) (g : ι → α) (i : ι) (a : α) :
    (fun j => f (Function.update g i a j)) = Function.update (fun j => f (g j)) i (f a) := by
  funext j
  by_cases hj : j = i
  · subst hj
    rw [Function.update_self, Function.update_self]
  · rw [Function.update_of_ne hj, Function.update_of_ne hj]

private theorem map_update_replica {β : Type} (f : Traffic → β) (N : NetTraffic n) (i : Fin n) (T : Traffic) :
    (fun j => f (Function.update N (.replica i) T (.replica j))) =
      Function.update (fun j => f (N (.replica j))) i (f T) := by
  funext j
  by_cases hj : j = i
  · subst hj
    rw [Function.update_self, Function.update_self]
  · rw [Function.update_of_ne (by simpa using hj), Function.update_of_ne hj]

theorem tally_primary (N : NetTraffic n) (T : Traffic) (cause : Cause) :
    NetTraffic.tally (Function.update N .primary T) cause = { N.tally cause with
      pushed := Function.update (N.tally cause).pushed .primary (T.failurePushes cause)
      waiting := Function.update (N.tally cause).waiting .primary (T.failuresWaiting cause)
      down := fun i => T.failuresDown cause i
      sent := fun i => T.messagesTo cause i } :=
  Tally.ext (map_update (Traffic.failurePushes · cause) N _ T) (map_update (Traffic.failuresWaiting · cause) N _ T)
    rfl rfl rfl rfl rfl

theorem tally_replica (N : NetTraffic n) (i : Fin n) (T : Traffic) (cause : Cause) :
    NetTraffic.tally (Function.update N (.replica i) T) cause = { N.tally cause with
      pushed := Function.update (N.tally cause).pushed (.replica i) (T.failurePushes cause)
      waiting := Function.update (N.tally cause).waiting (.replica i) (T.failuresWaiting cause)
      up := Function.update (N.tally cause).up i (T.failuresUp cause)
      requested := Function.update (N.tally cause).requested i (T.messagesFrom cause)
      jobs := Function.update (N.tally cause).jobs i (T.requestsDue cause) } :=
  Tally.ext (map_update (Traffic.failurePushes · cause) N _ T) (map_update (Traffic.failuresWaiting · cause) N _ T)
    rfl (map_update_replica (Traffic.failuresUp · cause) N i T) rfl
    (map_update_replica (Traffic.messagesFrom · cause) N i T) (map_update_replica (Traffic.requestsDue · cause) N i T)

private theorem update_eq_add {ι : Type} [DecidableEq ι] (f : ι → Nat) (i : ι) {a k : Nat} (h : a = f i + k) :
    Function.update f i a = f + Pi.single i k := by
  funext j
  by_cases hj : j = i
  · subst hj
    simp [h]
  · simp [hj]

private theorem eq_update_add {ι : Type} [DecidableEq ι] (f : ι → Nat) (i : ι) {a k : Nat} (h : f i = a + k) :
    f = Function.update f i a + Pi.single i k := by
  funext j
  by_cases hj : j = i
  · subst hj
    simp [h]
  · simp [hj]

private theorem tally_of_quiet_primary (h : Quiet d cause (N .primary) T) :
    NetTraffic.tally (Function.update N .primary T) cause = N.tally cause := by
  rw [tally_primary]
  refine Tally.ext (Function.update_eq_self_iff.2 h.pushed) (Function.update_eq_self_iff.2 h.waiting) ?_ rfl ?_ rfl rfl
  · exact funext fun i => h.down i
  · exact funext fun i => h.sent i

private theorem tally_of_quiet_replica {i : Fin n} (hm : d.runMode = .replica) (h : Quiet d cause (N (.replica i)) T) :
    NetTraffic.tally (Function.update N (.replica i) T) cause = N.tally cause := by
  rw [tally_replica]
  exact Tally.ext (Function.update_eq_self_iff.2 h.pushed) (Function.update_eq_self_iff.2 h.waiting) rfl
    (Function.update_eq_self_iff.2 h.up) rfl (Function.update_eq_self_iff.2 h.requested)
    (Function.update_eq_self_iff.2 (h.jobs hm))

private theorem pushes_eq {s : Site n} (hhosts : Function.Injective fun s => (c s).hostName) :
    (if some (c s).hostName ≠ some (c o).hostName then 1 else 0) = Tally.notOrigin o s := by
  unfold Tally.notOrigin
  by_cases hs : o = s
  · subst hs
    simp
  · rw [if_neg hs, if_pos fun h => hs (hhosts (Option.some.inj h)).symm]

/-- The primary passes a copy on. -/
private theorem step_of_relay (hm : (c .primary).runMode = .primary)
    (hhosts : Function.Injective fun s => (c s).hostName)
    (hclients : ∀ i : Fin n, told (N .primary).clients (some (c o).hostName) i = Tally.notOrigin o (.replica i))
    (h : Handled (c .primary) cause (some (c o).hostName) (N .primary) T) :
    Tally.Step o (N.tally cause) (NetTraffic.tally (Function.update N .primary T) cause) := by
  rw [tally_primary]
  refine .of_relay (eq_update_add (N.tally cause).waiting .primary h.waiting)
    (update_eq_add (N.tally cause).pushed .primary ?_) (funext fun i => ?_) (funext fun i => ?_) rfl rfl rfl
  · rw [h.pushed, pushes_eq hhosts]
    rfl
  · exact (h.down hm i).trans (congrArg (_ + ·) (hclients i))
  · exact (h.sent hm i).trans (congrArg (_ + ·) (hclients i))

/-- A replica handles a copy. -/
private theorem step_of_echo {i : Fin n} (hm : (c (.replica i)).runMode = .replica)
    (hhosts : Function.Injective fun s => (c s).hostName)
    (h : Handled (c (.replica i)) cause (some (c o).hostName) (N (.replica i)) T) :
    Tally.Step o (N.tally cause) (NetTraffic.tally (Function.update N (.replica i) T) cause) := by
  rw [tally_replica]
  refine .of_echo (eq_update_add (N.tally cause).waiting (.replica i) h.waiting)
    (update_eq_add (N.tally cause).pushed (.replica i) ?_) (update_eq_add (N.tally cause).up i (h.up hm))
    (update_eq_add (N.tally cause).requested i (h.requested hm)) rfl rfl (Function.update_eq_self_iff.2 h.jobs)
  rw [h.pushed, pushes_eq hhosts]
  rfl

/-- A replica sends a request for the failure. -/
private theorem step_of_forward {i : Fin n} (h : Forwarded cause (N (.replica i)) T) :
    Tally.Step o (N.tally cause) (NetTraffic.tally (Function.update N (.replica i) T) cause) := by
  rw [tally_replica]
  exact .of_forward (eq_update_add (N.tally cause).jobs i h.jobs)
    (update_eq_add (N.tally cause).requested i h.requested)
    (Function.update_eq_self_iff.2 h.pushed) (Function.update_eq_self_iff.2 h.waiting) rfl
    (Function.update_eq_self_iff.2 h.up) rfl

private theorem counts_fromReplica (T : Traffic) (sockfd : Nat) (msg : RmgMessage) :
    (T.fromReplica sockfd msg).failurePushes cause = T.failurePushes cause ∧
      (∀ k, (T.fromReplica sockfd msg).failuresDown cause k = T.failuresDown cause k) ∧
      (∀ k, (T.fromReplica sockfd msg).messagesTo cause k = T.messagesTo cause k) ∧
      (T.fromReplica sockfd msg).failuresWaiting cause = T.failuresWaiting cause +
        if msg.type = .informPrimaryServiceFailed ∧ msg.cause = cause then 1 else 0 := by
  rw [Traffic.fromReplica_eq]
  cases ht : msg.type.asRequest with
  | none =>
    have hne : msg.type ≠ .informPrimaryServiceFailed := by
      intro h
      rw [h] at ht
      cases ht
    dsimp only
    split <;> exact ⟨rfl, fun _ => rfl, fun _ => rfl, by simp [hne, Traffic.failuresWaiting, Traffic.setClientName]⟩
  | some type =>
    have htype : type = .informServiceFailed ↔ msg.type = .informPrimaryServiceFailed := by
      cases hk : msg.type <;> rw [hk] at ht <;> cases ht <;> simp
    refine ⟨rfl, fun _ => rfl, fun _ => rfl, ?_⟩
    simp [Traffic.failuresWaiting, Traffic.arrive, htype, List.countP_cons]

/-- The primary reads a message. -/
private theorem step_of_read {i : Fin n} {msg : RmgMessage} {rest : List RmgMessage}
    (hq : (N (.replica i)).toManager = msg :: rest) :
    Tally.Step o (N.tally cause) (NetTraffic.tally (Function.update
      (Function.update N (.replica i) { N (.replica i) with toManager := rest }) .primary
      ((N .primary).fromReplica i msg)) cause) := by
  obtain ⟨hP, hD, hS, hW⟩ := @counts_fromReplica cause (N .primary) i msg
  have hup : (N (.replica i)).failuresUp cause = Traffic.failuresUp { N (.replica i) with toManager := rest } cause +
      if msg.type = .informPrimaryServiceFailed ∧ msg.cause = cause then 1 else 0 := by
    unfold Traffic.failuresUp
    rw [hq, List.countP_cons]
    simp
  have hrest : NetTraffic.tally (Function.update N (.replica i) { N (.replica i) with toManager := rest }) cause =
      { N.tally cause with
        up := Function.update (N.tally cause).up i
          (Traffic.failuresUp { N (.replica i) with toManager := rest } cause) } := by
    rw [tally_replica]
    exact Tally.ext (Function.update_eq_self_iff.2 rfl) (Function.update_eq_self_iff.2 rfl) rfl rfl rfl
      (Function.update_eq_self_iff.2 rfl) (Function.update_eq_self_iff.2 rfl)
  rw [tally_primary, hrest]
  by_cases hc : msg.type = .informPrimaryServiceFailed ∧ msg.cause = cause
  · rw [if_pos hc] at hW hup
    exact .of_read (eq_update_add (N.tally cause).up i hup) (update_eq_add (N.tally cause).waiting .primary hW)
      (Function.update_eq_self_iff.2 hP) (funext fun k => hD k) (funext fun k => hS k) rfl rfl
  · rw [if_neg hc] at hW hup
    exact .of_eq (Tally.ext (Function.update_eq_self_iff.2 hP) (Function.update_eq_self_iff.2 hW)
      (funext fun k => hD k) (Function.update_eq_self_iff.2 hup.symm) (funext fun k => hS k) rfl rfl)

/-- A replica reads a message. -/
private theorem step_of_deliver {i : Fin n} {msg : RmgMessage} {rest : List RmgMessage}
    (hmsg : msg.cause = cause → msg.type = .informClientServiceFailed) (hq : (N .primary).toClient i = msg :: rest) :
    Tally.Step o (N.tally cause) (NetTraffic.tally (Function.update
      (Function.update N .primary { N .primary with toClient := Function.update (N .primary).toClient i rest })
      (.replica i) ((N (.replica i)).fromPrimary msg)) cause) := by
  -- the message moves one count from the way down to the queue of the replica
  have hfrom : ((N (.replica i)).fromPrimary msg).failurePushes cause = (N (.replica i)).failurePushes cause ∧
      ((N (.replica i)).fromPrimary msg).failuresUp cause = (N (.replica i)).failuresUp cause ∧
      ((N (.replica i)).fromPrimary msg).messagesFrom cause = (N (.replica i)).messagesFrom cause ∧
      ((N (.replica i)).fromPrimary msg).requestsDue cause = (N (.replica i)).requestsDue cause ∧
      ((N (.replica i)).fromPrimary msg).failuresWaiting cause = (N (.replica i)).failuresWaiting cause +
        if msg.cause = cause then 1 else 0 := by
    unfold Traffic.fromPrimary
    by_cases hc : msg.cause = cause
    · rw [hmsg hc]
      exact ⟨rfl, rfl, rfl, rfl, by simp [Traffic.failuresWaiting, Traffic.arrive, hc]⟩
    · cases msg.type <;>
        exact ⟨rfl, rfl, rfl, rfl, by simp [Traffic.failuresWaiting, Traffic.arrive, hc]⟩
  obtain ⟨hP, hU, hR, hJ, hW⟩ := hfrom
  have hdown : (N .primary).failuresDown cause i =
      rest.countP (fun msg => msg.cause = cause) + if msg.cause = cause then 1 else 0 := by
    unfold Traffic.failuresDown
    rw [hq, List.countP_cons]
    simp
  -- the primary loses the message from its queue to replica i and nothing else
  have hrest : NetTraffic.tally (Function.update N .primary
      { N .primary with toClient := Function.update (N .primary).toClient i rest }) cause =
      { N.tally cause with
        down := Function.update (N.tally cause).down i (rest.countP fun msg => msg.cause = cause) } := by
    rw [tally_primary]
    refine Tally.ext (Function.update_eq_self_iff.2 rfl) (Function.update_eq_self_iff.2 rfl)
      (funext fun k => ?_) rfl rfl
      rfl rfl
    show (Function.update (N .primary).toClient i rest k).countP _ = Function.update (N.tally cause).down i _ k
    by_cases hk : k = i
    · subst hk
      rw [Function.update_self, Function.update_self]
    · have hne : k.val ≠ i.val := fun heq => hk (Fin.ext heq)
      rw [Function.update_of_ne hne, Function.update_of_ne hk]
      rfl
  have hupdate : (Function.update N .primary
      { N .primary with toClient := Function.update (N .primary).toClient i rest }) (.replica i) = N (.replica i) := rfl
  rw [tally_replica, hrest]
  by_cases hc : msg.cause = cause
  · rw [if_pos hc] at hW hdown
    exact .of_deliver (eq_update_add (N.tally cause).down i hdown)
      (update_eq_add (N.tally cause).waiting (.replica i) hW)
      (Function.update_eq_self_iff.2 hP) (Function.update_eq_self_iff.2 hU) rfl (Function.update_eq_self_iff.2 hR)
      (Function.update_eq_self_iff.2 hJ)
  · rw [if_neg hc] at hW hdown
    exact .of_eq (Tally.ext (Function.update_eq_self_iff.2 hP) (Function.update_eq_self_iff.2 hW)
      (Function.update_eq_self_iff.2 hdown.symm) (Function.update_eq_self_iff.2 hU) rfl
        (Function.update_eq_self_iff.2 hR)
      (Function.update_eq_self_iff.2 hJ))

/-- A step of the network is a step of the copies; only the primary's dispatcher takes one from its queue. -/
theorem step_of_move (hmode : ∀ s, (c s).runMode = s.runMode)
    (hhosts : Function.Injective fun s => (c s).hostName) (hshape : N.Has (spread c o cause))
    (hclients : ∀ i : Fin n, told (N .primary).clients (some (c o).hostName) i = Tally.notOrigin o (.replica i))
    (hborn : ∀ s e, l.event c N = some (s, e) → e.cause ≠ cause) (hconnect : ∀ i, l ≠ .connect i ∧ l ≠ .accept i)
    (hm : NetTraffic.Move c units N l N') : Tally.Step o (N.tally cause) (N'.tally cause) ∧
      ((N' .primary).failuresWaiting cause < (N .primary).failuresWaiting cause → l = .own .primary .dispatch ∧
        ∃ e, (N .primary).inbox.head? = some e ∧ e.type = .informServiceFailed ∧ e.cause = cause) := by
  cases hm with
  | @own s l T hown hm =>
    -- a step of one instance: what it does to the counts depends on the run mode
    have hlocal := @counts_of_acts _ _ _ _ _ cause (Traffic.acts_of_move hown hm)
      (fun e he => hborn s e (NetTraffic.event_own he)) (fun e he hc => by
        rcases (hshape s).inbox e he hc with ht | ⟨rfl, ht⟩
        · exact .inl ht.1
        · exact .inr ⟨hmode .primary, ht⟩)
    have hcontext : ∀ e : RmgDEvent, (N s).inbox.head? = some e → e.type = .informServiceFailed → e.cause = cause →
        e.contextName = some (c o).hostName := by
      intro e he ht hc
      rcases (hshape s).inbox e (List.mem_of_mem_head? he) hc with h | ⟨-, h⟩
      · exact h.2
      · rw [ht] at h
        cases h
    cases s with
    | primary =>
      rcases hlocal with h | ⟨hr, -⟩ | ⟨e, rfl, he, ht, hc, h⟩
      · refine ⟨.of_eq (tally_of_quiet_primary h), fun hlt => ?_⟩
        rw [Function.update_self, h.waiting] at hlt
        exact absurd hlt (Nat.lt_irrefl _)
      · rw [hmode] at hr
        cases hr
      · rw [hcontext e he ht hc] at h
        exact ⟨step_of_relay (hmode .primary) hhosts hclients h, fun _ => ⟨rfl, e, he, ht, hc⟩⟩
    | replica i =>
      refine ⟨?_, fun hlt => absurd hlt (Nat.lt_irrefl _)⟩
      rcases hlocal with h | ⟨-, h⟩ | ⟨e, rfl, he, ht, hc, h⟩
      · exact .of_eq (tally_of_quiet_replica (hmode (.replica i)) h)
      · exact step_of_forward h
      · rw [hcontext e he ht hc] at h
        exact step_of_echo (hmode (.replica i)) hhosts h
  | @toPrimary i msg rest hq =>
    refine ⟨step_of_read hq, fun hlt => ?_⟩
    rw [Function.update_self, (@counts_fromReplica cause (N .primary) i msg).2.2.2] at hlt
    omega
  | @toReplica i msg rest hq =>
    have hmsg : msg.cause = cause → msg.type = .informClientServiceFailed := fun hc =>
      ((hshape .primary).toClient i msg (by rw [hq]; exact List.mem_cons_self) hc).1
    exact ⟨step_of_deliver hmsg hq, fun hlt => absurd hlt (Nat.lt_irrefl _)⟩
  | @connect i => exact absurd rfl (hconnect i).1
  | @accept i => exact absurd rfl (hconnect i).2

private theorem remoteKind_of_requestType {kind : ExecutorEventType} {type : RmgMessageType}
    (h : kind.requestType = some type) : (type.asRequest.bind DispatcherEventType.remoteKind).isSome := by
  cases kind <;> cases h <;> rfl

theorem closed_spread (c : Members n) (o : Site n) (cause : Cause) : NetTraffic.Closed (spread c o cause) c where
  site s := by
    have hne : ∀ e : RmgDEvent, (spread c o cause s).event e → e.type ≠ .informServiceFailed →
      e.type.remoteKind = none →
        e.cause ≠ cause := by
      intro e he h₁ h₂ hc
      rcases he hc with h | ⟨-, h⟩
      · exact h₁ h.1
      · rw [h₂] at h
        cases h
    refine ⟨fun _ _ _ => trivial, fun e he ht => ⟨trivial, fun _ _ hc => ?_⟩, fun e he ht => ?_,
      fun e he ht => ⟨fun _ _ _ => trivial, ?_⟩, fun _ _ _ _ => trivial,
      fun _ _ _ _ ht _ => .inr (remoteKind_of_requestType ht)⟩
    · exact absurd hc (hne e he (by simp [ht]) (by rw [ht]; rfl))
    · have hcontext : e.cause = cause → e.contextName = some (c o).hostName := by
        intro hc
        rcases he hc with h | ⟨-, h⟩
        · exact h.2
        · rw [ht] at h
          cases h
      exact ⟨fun _ _ hc => ⟨rfl, hcontext hc⟩, fun _ hc => .inl ⟨rfl, hcontext hc⟩, fun _ => trivial⟩
    · have hc := hne e he (by simp [ht]) (by rw [ht]; rfl)
      exact ⟨fun _ _ h => absurd h hc, fun _ h => absurd h hc, fun _ => trivial⟩
  toPrimary i msg type hm ht hc := by
    rcases hm hc with ⟨htype, hcontext⟩ | hr
    · rw [htype] at ht
      cases ht
      exact .inl ⟨rfl, hcontext⟩
    · rw [ht] at hr
      exact .inr ⟨rfl, hr⟩
  toReplica i msg hm := by
    refine ⟨fun ht hc => ?_, fun ht hc => .inl ⟨rfl, (hm hc).2⟩⟩
    have htype := (hm hc).1
    rw [ht] at htype
    cases htype

/-! ### Before the failure is handled -/

/-- The only thing that stems from `cause` is the crash event of `o`. -/
def onlyCrash (o : Site n) (cause : Cause) (s : Site n) : Shape where
  event e := e.cause = cause → s = o ∧ e.type = .serviceCrashed
  job job := job.cause ≠ cause
  push _ e := e.cause ≠ cause
  up msg := msg.cause ≠ cause
  down _ msg := msg.cause ≠ cause

/-- No crash event of `o` stems from `cause`. -/
def notCrash (o : Site n) (cause : Cause) (s : Site n) : Shape where
  event e := s = o → e.type = .serviceCrashed → e.cause ≠ cause
  job _ := True
  push _ _ := True
  up _ := True
  down _ _ := True

private theorem closed_onlyCrash (c : Members n) (o : Site n) (cause : Cause) :
    NetTraffic.ClosedFor (onlyCrash o cause) c fun _ e => e.cause ≠ cause where
  site _ := {
    job := fun _ _ h => h
    processCrash := fun _ h _ => ⟨h, fun _ _ => h⟩
    serviceFailed := fun _ h _ => ⟨fun _ _ => h, fun _ => h, fun _ => h⟩
    crashed := fun _ h _ => ⟨fun _ _ _ => h, fun _ _ => h, fun _ => h, fun _ => h⟩
    remote := fun _ h _ _ => h
    execute := fun _ _ h _ _ => h }
  toPrimary _ _ _ h _ hc := absurd hc h
  toReplica _ _ h := ⟨fun _ hc => absurd hc h, fun _ hc => absurd hc h⟩

private theorem closed_notCrash (c : Members n) (o : Site n) (cause : Cause) :
    NetTraffic.Closed (notCrash o cause) c where
  site _ := {
    job := fun _ _ _ => trivial
    processCrash := fun _ _ _ => ⟨trivial, fun _ _ => trivial⟩
    serviceFailed := fun _ _ _ => ⟨fun _ _ => trivial, fun _ => trivial, fun _ => trivial⟩
    crashed := fun _ _ _ => ⟨fun _ _ _ => trivial, fun _ _ => trivial, fun _ => trivial, fun _ => trivial⟩
    remote := fun _ _ _ _ => trivial
    execute := fun _ _ _ _ _ => trivial }
  toPrimary i msg type _ ht _ hk := by
    cases htype : msg.type <;> rw [htype] at ht <;> cases ht <;> cases hk
  toReplica _ _ _ := ⟨fun _ _ hk => (by cases hk), fun _ _ hk => (by cases hk)⟩

private theorem notCrash_of_without (h : N.Has fun _ => Shape.without cause) : N.Has (notCrash o cause) := fun s =>
  (h s).mono (fun _ he _ _ => he) (fun _ _ => trivial) (fun _ _ _ => trivial) (fun _ _ => trivial) fun _ _ _ => trivial

/-- `cause` has not come up yet; or its crash event waits; or it is handled, or something else. -/
inductive Before (o : Site n) (cause : Cause) (N : NetTraffic n) : Prop
  | unborn : (N o).allocated ≤ cause.event → N.Has (fun _ => Shape.without cause) → Before o cause N
  | waiting : cause.event < (N o).allocated → N.Has (onlyCrash o cause) →
      (N o).inbox.countP (fun e => e.cause = cause) ≤ 1 → Before o cause N
  | other : cause.event < (N o).allocated → N.Has (notCrash o cause) → Before o cause N

/-- The queue of the dispatcher gets an event at its end or gives one away at its head. -/
private theorem inbox_of_acts {l : Label} (h : T.Acts d units l T') :
    T'.inbox = T.inbox ++ (l.event d T.allocated).toList ∨ l = .dispatch ∧ ∃ e, T.inbox = e :: T'.inbox := by
  cases h with
  | arrive he => exact .inl (by rw [he]; rfl)
  | @handle e _ _ hl hq => exact .inr ⟨hl, e, hq⟩
  | forward hl | execute hl => exact .inl (by rw [hl]; simp [Traffic.request, Label.event])
  | rest hl => exact .inl (by rw [hl]; simp)

/-- How many events stem from `cause`. -/
private def queued (cause : Cause) (T : Traffic) : Nat := T.inbox.countP fun e => e.cause = cause

private theorem queued_arrive (h : e.cause ≠ cause) : queued cause (T.arrive e) = queued cause T := by
  simp [queued, Traffic.arrive, h]

private theorem queued_fromReplica {sockfd : Nat} {msg : RmgMessage} (h : msg.cause ≠ cause) :
    queued cause (T.fromReplica sockfd msg) = queued cause T := by
  rw [Traffic.fromReplica_eq]
  split
  · exact queued_arrive h
  · split <;> rfl

private theorem queued_fromPrimary {msg : RmgMessage} (h : msg.cause ≠ cause) :
    queued cause (T.fromPrimary msg) = queued cause T := by
  unfold Traffic.fromPrimary
  split
  · exact queued_arrive h
  · exact queued_arrive h
  · rfl

private theorem queued_of_move (hshape : N.Has (onlyCrash o cause))
    (hborn : ∀ s e, l.event c N = some (s, e) → e.cause ≠ cause)
    (hm : NetTraffic.Move c units N l N') (s : Site n) : queued cause (N' s) ≤ queued cause (N s) := by
  have hupdate : ∀ {N₁ : NetTraffic n} {s' : Site n} {T : Traffic}, queued cause (N₁ s) ≤ queued cause (N s) →
      queued cause T ≤ queued cause (N s') → queued cause (Function.update N₁ s' T s) ≤ queued cause (N s) := by
    intro N₁ s' T h₁ hT
    by_cases hs : s = s'
    · subst hs
      rw [Function.update_self]
      exact hT
    · rw [Function.update_of_ne hs]
      exact h₁
  have hle := Nat.le_refl (queued cause (N s))
  cases hm with
  | @own s' l T hown hm =>
    refine hupdate hle ?_
    rcases inbox_of_acts (Traffic.acts_of_move hown hm) with h | ⟨-, e, h⟩
    · unfold queued
      rw [h, List.countP_append]
      cases he : l.event (c s') (N s').allocated with
      | none => exact Nat.le_refl _
      | some e => simp [hborn s' e (NetTraffic.event_own he)]
    · unfold queued
      rw [h, List.countP_cons]
      exact Nat.le_add_right _ _
  | @toPrimary i msg rest hq =>
    have hc : msg.cause ≠ cause := (hshape (.replica i)).toManager msg (by rw [hq]; exact List.mem_cons_self)
    exact hupdate (hupdate hle (Nat.le_refl _)) (queued_fromReplica hc).le
  | @toReplica i msg rest hq =>
    have hc : msg.cause ≠ cause := (hshape .primary).toClient i msg (by rw [hq]; exact List.mem_cons_self)
    exact hupdate (hupdate hle (Nat.le_refl _)) (queued_fromPrimary hc).le
  | connect | accept => exact hupdate hle (Nat.le_refl _)

/-- What a step brings in waits at the end of the queue. -/
private theorem queued_of_event {s : Site n} (hcount : queued cause (N s) = 0) (hm : NetTraffic.Move c units N l N')
    (he : l.event c N = some (s, e)) : queued cause (N' s) ≤ 1 := by
  cases hm with
  | @own s' l' T hown hm =>
    obtain ⟨e', he', heq⟩ := Option.map_eq_some_iff.1 he
    obtain ⟨rfl, rfl⟩ := Prod.mk.inj heq
    rw [Function.update_self]
    rcases inbox_of_acts (Traffic.acts_of_move hown hm) with h | ⟨hl, -⟩
    · unfold queued at hcount ⊢
      rw [h, he', List.countP_append, hcount, Nat.zero_add]
      exact List.countP_le_length
    · rw [hl] at he'
      cases he'
  | _ => cases he

/-- The dispatcher takes the only event of `cause`. -/
private theorem notCrash_of_dispatch (hm : Traffic.Move (c o) units (N o) .dispatch T)
    (he : (N o).inbox.head? = some e) (hc : e.cause = cause) (hcount : queued cause (N o) ≤ 1) :
    NetTraffic.Has (notCrash o cause) (Function.update N o T) := by
  intro s
  refine ⟨fun e' he' hs _ => ?_, fun _ _ => trivial, fun _ _ => trivial, fun _ _ => trivial, fun _ _ => trivial,
    fun _ _ _ => trivial, fun _ _ => trivial⟩
  subst hs
  rw [Function.update_self] at he'
  cases hm with
  | @dispatch e₁ inbox T hq hh =>
    obtain ⟨a, -, rfl⟩ := Traffic.eq_add_of_handled hh
    rw [hq] at he
    obtain rfl := Option.some.inj he
    have hnone : inbox.countP (fun e => e.cause = cause) = 0 := by
      unfold queued at hcount
      rw [hq, List.countP_cons_of_pos (by simpa using hc)] at hcount
      omega
    simpa using List.countP_eq_zero.1 hnone e' he'

theorem Before.move (hidents : Function.Injective fun s => (c s).ident) (hcause : cause.instance_ = (c o).ident)
    (hconnect : ∀ i, l ≠ .connect i) (h : Before o cause N) (hm : NetTraffic.Move c units N l N') :
    Before o cause N' := by
  have hle := NetTraffic.allocated_of_move hm o
  have hsite : ∀ s e, l.event c N = some (s, e) → e.cause = cause → s = o ∧ (N o).allocated = cause.event := by
    rintro s e he rfl
    have hc := NetTraffic.cause_of_event he
    obtain rfl : s = o := hidents ((congrArg Cause.instance_ hc).symm.trans hcause)
    exact ⟨rfl, (congrArg Cause.event hc).symm⟩
  have hold : cause.event < (N o).allocated → ∀ s e, l.event c N = some (s, e) → e.cause ≠ cause :=
    fun hlt s e he hc => absurd (hsite s e he hc).2 (Nat.ne_of_gt hlt)
  cases h with
  | unborn hun h =>
    -- the step may be the one that allocates the event: what it is decides which case follows
    by_cases hborn : ∃ s e, l.event c N = some (s, e) ∧ e.cause = cause
    · obtain ⟨s, e, he, hc⟩ := hborn
      obtain ⟨rfl, hallocated⟩ := hsite s e he hc
      have hlt : cause.event < (N' s).allocated := by
        rw [NetTraffic.allocated_of_event hm he, hallocated]
        exact Nat.lt_succ_self _
      have hnew : ∀ s' l', l = .own s' l' → ∀ e', l'.event (c s') (N s').allocated = some e' → s' = s ∧ e' = e := by
        intro s' l' hl e' he'
        rw [hl] at he
        exact Prod.mk.inj (Option.some.inj ((NetTraffic.event_own he').symm.trans he))
      by_cases ht : e.type = .serviceCrashed
      · have honly : N.Has (onlyCrash s cause) := fun s' =>
          (h s').mono (fun _ he hc => absurd hc he) (fun _ h => h) (fun _ _ h => h) (fun _ h => h) fun _ _ h => h
        refine .waiting hlt (honly.moveFor (closed_onlyCrash c s cause) hm
          (fun s' _ e' he' => (h s').inbox e' (List.mem_of_mem_head? he')) (fun s' l' hl e' he' _ => ?_)
          fun i hi => absurd hi (hconnect i)) (queued_of_event ?_ hm he)
        · obtain ⟨rfl, rfl⟩ := hnew s' l' hl e' he'
          exact ⟨rfl, ht⟩
        · exact List.countP_eq_zero.2 fun e' he' => decide_eq_true_iff.not.2 ((h s).inbox e' he')
      · refine .other hlt ((notCrash_of_without h).move (closed_notCrash c s cause) hm
          (fun s' l' hl e' he' _ ht' => ?_) fun i hi => absurd hi (hconnect i))
        obtain ⟨-, rfl⟩ := hnew s' l' hl e' he'
        exact absurd ht' ht
    · have h' : N'.Has fun _ => Shape.without cause := h.move (closed_without cause c) hm
        (fun s l' hl e he heq => hborn ⟨s, e, hl ▸ NetTraffic.event_own he, heq⟩) fun i hi => absurd hi (hconnect i)
      by_cases hun' : (N' o).allocated ≤ cause.event
      · exact .unborn hun' h'
      · exact .other (Nat.lt_of_not_le hun') (notCrash_of_without h')
  | waiting hlt h hcount =>
    -- the crash stays queued until its instance dispatches it
    by_cases hhandled : l = .own o .dispatch ∧ ∃ e, (N o).inbox.head? = some e ∧ e.cause = cause
    · obtain ⟨rfl, e, he, hc⟩ := hhandled
      cases hm with
      | own hown hm =>
        exact .other (Nat.lt_of_lt_of_le hlt hle) (notCrash_of_dispatch hm he hc hcount)
    · refine .waiting (Nat.lt_of_lt_of_le hlt hle) (h.moveFor (closed_onlyCrash c o cause) hm (fun s hl e he hc => ?_)
        (fun s l' hl e he hc => absurd hc (hold hlt s e (hl ▸ NetTraffic.event_own he)))
        fun i hi => absurd hi (hconnect i)) ((queued_of_move h (hold hlt) hm o).trans hcount)
      obtain ⟨rfl, -⟩ := (h s).inbox e (List.mem_of_mem_head? he) hc
      exact hhandled ⟨hl, e, he, hc⟩
  | other hlt h =>
    exact .other (Nat.lt_of_lt_of_le hlt hle) (h.move (closed_notCrash c o cause) hm
      (fun s l' hl e he _ _ => hold hlt s e (hl ▸ NetTraffic.event_own he)) fun i hi => absurd hi (hconnect i))

/-! ### The failure is handled -/

theorem tally_of_onlyCrash (h : N.Has (onlyCrash o cause)) : N.tally cause = ⟨0, 0, 0, 0, 0, 0, 0⟩ := by
  refine Tally.ext (funext fun s => ?_) (funext fun s => ?_) (funext fun i => ?_) (funext fun i => ?_)
    (funext fun i => ?_) (funext fun i => ?_) (funext fun i => ?_)
  · exact List.countP_eq_zero.2 fun x hx => by simpa [onlyCrash] using fun _ => (h s).pushed x hx
  · refine List.countP_eq_zero.2 fun e he => ?_
    have hcrash : e.cause = cause → e.type = .serviceCrashed := fun hc => ((h s).inbox e he hc).2
    simp only [decide_eq_true_eq, not_and]
    intro ht hc
    rw [hcrash hc] at ht
    cases ht
  · exact List.countP_eq_zero.2 fun msg hmsg => by simpa [onlyCrash] using (h .primary).toClient i msg hmsg
  · exact List.countP_eq_zero.2 fun msg hmsg => by simpa [onlyCrash] using fun _ => (h (.replica i)).toManager msg hmsg
  · exact List.countP_eq_zero.2 fun x hx => by simpa [onlyCrash] using fun _ => (h .primary).sent x hx
  · exact List.countP_eq_zero.2 fun msg hmsg => by simpa [onlyCrash] using (h (.replica i)).requested msg hmsg
  · exact List.countP_eq_zero.2 fun job hjob => by simpa [onlyCrash] using fun _ => (h (.replica i)).work job hjob

/-- What the instance adds when it handles its own failure. -/
theorem counts_of_crash {inbox : List RmgDEvent} {a : Added} (hq : T.inbox = e :: inbox)
    (ht : e.type = .serviceCrashed) (hu : units e.serviceName) (ha : Traffic.Adds d units T.clients e a) :
    (Traffic.add { T with inbox := inbox } a).failurePushes e.cause = T.failurePushes e.cause ∧
      (Traffic.add { T with inbox := inbox } a).failuresWaiting e.cause = T.failuresWaiting e.cause ∧
      (∀ k, (Traffic.add { T with inbox := inbox } a).failuresDown e.cause k = T.failuresDown e.cause k +
        if d.runMode = .primary then told T.clients (some d.hostName) k else 0) ∧
      (Traffic.add { T with inbox := inbox } a).failuresUp e.cause = T.failuresUp e.cause +
        (if d.runMode = .replica then 1 else 0) ∧
      (∀ k, (Traffic.add { T with inbox := inbox } a).messagesTo e.cause k = T.messagesTo e.cause k +
        if d.runMode = .primary then told T.clients (some d.hostName) k else 0) ∧
      (Traffic.add { T with inbox := inbox } a).messagesFrom e.cause = T.messagesFrom e.cause +
        (if d.runMode = .replica then 1 else 0) ∧
      (Traffic.add { T with inbox := inbox } a).requestsDue e.cause ≤ T.requestsDue e.cause + 1 := by
  obtain ⟨hP, hW, hD, hU, hS, hR, hJ⟩ := counts_add e.cause T hq a
  cases ha with
  | crashed type =>
    have hsends := @countP_failureSends { e with contextName := some d.hostName } e.cause d.runMode T.clients rfl
    obtain ⟨hup, hrequested⟩ :=
      @countP_failureRequests { e with contextName := some d.hostName } e.cause d.runMode rfl
    refine ⟨?_, ?_, fun k => by rw [hD, (hsends k).1], by rw [hU, hup], fun k => by rw [hS, (hsends k).2],
      by rw [hR, hrequested], ?_⟩
    · have hkind : type.kind ≠ some .friendServiceFailed := by cases type <;> simp [RmgActionType.kind]
      rw [hP]
      cases hk : type.kind with
      | none => rfl
      | some kind =>
        have hne : kind ≠ .friendServiceFailed := fun h => hkind (hk.trans (congrArg some h))
        simp [hne]
    · rw [hW]
      simp [ht]
    · rw [hJ]
      refine Nat.add_le_add_left (List.countP_le_length.trans ?_) _
      cases type.kind <;> simp
  | noUnit _ hu' => exact absurd hu hu'
  | processCrashed ht' | serviceFailed ht' => rw [ht'] at ht; cases ht
  | remote kind hk => rw [ht] at hk; cases hk
  | other ht' => rcases ht' with ht' | ht' <;> rw [ht'] at ht <;> cases ht

private theorem once_of_crash (hmode : ∀ s, (c s).runMode = s.runMode) (h : N.Has (onlyCrash o e.cause))
    (hclients : ∀ i : Fin n, told (N .primary).clients (some (c o).hostName) i = Tally.notOrigin o (.replica i))
    (ht : e.type = .serviceCrashed) (hu : units e.serviceName) {inbox : List RmgDEvent} (hq : (N o).inbox = e :: inbox)
    (ha : Traffic.Adds (c o) units (N o).clients e a) :
    (NetTraffic.tally (Function.update N o (Traffic.add { N o with inbox := inbox } a)) e.cause).Once o := by
  obtain ⟨hP, hW, hD, hU, hS, hR, hJ⟩ := counts_of_crash hq ht hu ha
  have hzero := tally_of_onlyCrash h
  have hpushed : ∀ s, (N s).failurePushes e.cause = 0 := fun s => congrFun (congrArg Tally.pushed hzero) s
  have hwaiting : ∀ s, (N s).failuresWaiting e.cause = 0 := fun s => congrFun (congrArg Tally.waiting hzero) s
  rw [hpushed] at hP
  rw [hwaiting] at hW
  cases o with
  | primary =>
    have hm : (c .primary).runMode = .primary := hmode .primary
    have hdown : ∀ i : Fin n, (N .primary).failuresDown e.cause i = 0 := fun i => congrFun (congrArg Tally.down hzero) i
    have hsent : ∀ i : Fin n, (N .primary).messagesTo e.cause i = 0 := fun i => congrFun (congrArg Tally.sent hzero) i
    rw [tally_primary, hzero, hP, hW]
    refine .inr ⟨by simp [Tally.notOrigin], fun i hi => ⟨?_, ?_, rfl, rfl⟩, fun j hj => by cases hj⟩
    · show Traffic.failuresDown _ _ _ + 0 + 0 = 1
      rw [hD, hdown, if_pos hm, hclients]
      rfl
    · show Traffic.messagesTo _ _ _ = 1
      rw [hS, hsent, if_pos hm, hclients]
      rfl
  | replica j =>
    have hm : (c (.replica j)).runMode = .replica := hmode (.replica j)
    have hup : (N (.replica j)).failuresUp e.cause = 0 := congrFun (congrArg Tally.up hzero) j
    have hrequested : (N (.replica j)).messagesFrom e.cause = 0 := congrFun (congrArg Tally.requested hzero) j
    have hjobs : (N (.replica j)).requestsDue e.cause = 0 := congrFun (congrArg Tally.jobs hzero) j
    rw [hup, if_pos hm] at hU
    rw [hrequested, if_pos hm] at hR
    rw [hjobs] at hJ
    rw [tally_replica, hzero, hP, hW, hU, hR]
    refine .inl ⟨j, rfl, by simp, by simp, rfl, rfl, fun i => ?_, fun i hi => ?_, ?_⟩
    · exact congrFun (Function.update_eq_self_iff.2 rfl) (Site.replica i)
    · simp [Function.update_of_ne hi]
    · simp only [Function.update_self]
      omega

private theorem closedFor_crash (c : Members n) (o : Site n) (ht : e.type = .serviceCrashed) :
    (spread c o e.cause o).ClosedFor (c o) (· = e) where
  job _ _ _ := trivial
  processCrash := by
    rintro _ rfl h
    rw [ht] at h
    cases h
  serviceFailed := by
    rintro _ rfl h
    rw [ht] at h
    cases h
  crashed := by
    rintro _ rfl _
    exact ⟨fun _ _ _ => trivial, fun _ _ _ => ⟨rfl, rfl⟩, fun _ _ => .inl ⟨rfl, rfl⟩, fun _ => trivial⟩
  remote _ _ _ _ := trivial
  execute _ _ _ _ ht _ := .inr (remoteKind_of_requestType ht)

/-- When the failure is handled, one copy for each other instance sets out. -/
theorem spread_of_dispatch (hmode : ∀ s, (c s).runMode = s.runMode)
    (hclients : ∀ i : Fin n, told (N .primary).clients (some (c o).hostName) i = Tally.notOrigin o (.replica i))
    (h : Before o e.cause N) (he : (N o).inbox.head? = some e) (ht : e.type = .serviceCrashed)
    (hu : units e.serviceName)
    (hm : NetTraffic.Move c units N (.own o .dispatch) N') :
    e.cause.event < (N' o).allocated ∧ N'.Has (spread c o e.cause) ∧ (N'.tally e.cause).Once o := by
  have hmem : e ∈ (N o).inbox := List.mem_of_mem_head? he
  cases h with
  | unborn _ h => exact absurd rfl ((h o).inbox e hmem)
  | other _ h => exact absurd rfl ((h o).inbox e hmem rfl ht)
  | waiting hlt h hcount =>
    refine ⟨Nat.lt_of_lt_of_le hlt (NetTraffic.allocated_of_move hm o), ?_⟩
    cases hm with
    | @own _ _ T hown hm =>
      cases hm with
      | @dispatch e' inbox T hq hh =>
        obtain rfl : e' = e := by
          rw [hq] at he
          exact Option.some.inj he
        have hnone : inbox.countP (fun e => e.cause = e'.cause) = 0 := by
          rw [hq, List.countP_cons_of_pos (by simp)] at hcount
          omega
        obtain ⟨a, ha, rfl⟩ := Traffic.eq_add_of_handled hh
        refine ⟨fun s => ?_, once_of_crash hmode h hclients ht hu hq ha⟩
        by_cases hs : s = o
        · subst hs
          rw [Function.update_self]
          have hrest : Traffic.Has (spread c s e'.cause s) { N s with inbox := inbox } :=
            ⟨fun e he hc => absurd hc (by simpa using List.countP_eq_zero.1 hnone e he), fun _ _ => trivial,
              fun _ _ => trivial, fun msg hmsg hc => absurd hc ((h s).toManager msg hmsg),
              fun msg hmsg hc => absurd hc ((h s).requested msg hmsg),
              fun k msg hmsg hc => absurd hc ((h s).toClient k msg hmsg), fun x hx hc => absurd hc ((h s).sent x hx)⟩
          exact hrest.handled (closedFor_crash c s ht) rfl hh
        · rw [Function.update_of_ne hs]
          exact (h s).mono (fun _ he hc => absurd (he hc).1 hs) (fun _ _ => trivial) (fun _ _ _ => trivial)
            (fun _ h hc => absurd hc h) fun _ _ h hc => absurd hc h

end Propagation

end RecoveryManager
