import RecoveryManager.Shapes

/-!
# What is added when an event is handled

Handling an event only adds to what an instance holds: pushes, requests to the primary, messages to clients and
selections (`Added`).  `Adds` lists, for each kind of event, what that is (`eq_add_of_handled`).
-/

namespace RecoveryManager

open Instance

/-- What the work on one event adds. -/
structure Added where
  pushes : List (ExecutorEventType × RmgDEvent)
  requests : List RmgMessage
  sends : List (Nat × RmgMessage)
  selected : List (RmgActionType × Option String)

namespace Traffic

def jobOf (x : ExecutorEventType × RmgDEvent) : Job := ⟨x.1, x.2.serviceName, x.2.cause⟩

/-- The messages for the client behind a socket. -/
def toSocket (k : Nat) (sends : List (Nat × RmgMessage)) : List RmgMessage :=
  (sends.filter fun x => x.1 = k).map Prod.snd

@[simp] theorem toSocket_nil (k : Nat) : toSocket k [] = [] := rfl

variable {T T' : Traffic} {c : Identity} {units : Option String → Prop} {l : Label} {e : RmgDEvent}

def add (T : Traffic) (a : Added) : Traffic :=
  { T with
    work := T.work ++ a.pushes.map jobOf
    toClient := fun k => T.toClient k ++ toSocket k a.sends
    toManager := T.toManager ++ a.requests
    pushed := T.pushed ++ a.pushes
    selected := T.selected ++ a.selected
    requested := T.requested ++ a.requests
    sent := T.sent ++ a.sends }

def informed (msg : RmgMessage) (clients : List RmgClient) : List (Nat × RmgMessage) :=
  clients.map fun client => (client.sockfd, msg)

theorem toSocket_informed (k : Nat) (msg : RmgMessage) (clients : List RmgClient) :
    toSocket k (informed msg clients) = (clients.filter fun client => client.sockfd = k).map fun _ => msg := by
  unfold toSocket informed
  rw [List.filter_map, List.map_map]
  rfl

/-- Of the clients, whose sockets differ, one is behind a given socket. -/
theorem filter_sockfd {clients : List RmgClient} (hn : (clients.map RmgClient.sockfd).Nodup) {client : RmgClient}
    (h : client ∈ clients) : (clients.filter fun client' => client'.sockfd = client.sockfd) = [client] := by
  induction clients with
  | nil => cases h
  | cons c clients ih =>
    obtain ⟨hc, hn⟩ := List.nodup_cons.1 hn
    have hne : ∀ client' ∈ clients, client'.sockfd ≠ c.sockfd := fun client' hx heq =>
      hc (List.mem_map.2 ⟨client', hx, heq⟩)
    rcases List.mem_cons.1 h with rfl | h
    · rw [List.filter_cons_of_pos (by simp), List.filter_eq_nil_iff.2 fun client' hx => by simpa using hne client' hx]
    · rw [List.filter_cons_of_neg (by simpa using (hne client h).symm)]
      exact ih hn h

/-- The messages by which an instance tells the others of a failure. -/
def failureRequests (m : RmgRunMode) (e : RmgDEvent) : List RmgMessage :=
  if m = .replica then [.failure .informPrimaryServiceFailed e] else []

def failureSends (m : RmgRunMode) (clients : List RmgClient) (e : RmgDEvent) : List (Nat × RmgMessage) :=
  if m = .primary then
    informed (.failure .informClientServiceFailed e) (clients.filter (·.contextName ≠ e.contextName))
  else []

/-- What handling an event adds, by its type. -/
inductive Adds (c : Identity) (units : Option String → Prop) (clients : List RmgClient) (e : RmgDEvent) : Added → Prop
  | processCrashed : e.type = .informProcessCrash →
      Adds c units clients e ⟨[(.friendProcessCrash, e)], [],
        if c.runMode = .primary then
          informed ⟨.informProcessCrash, e.processName, none, e.contextName, e.cause⟩ clients
        else [], []⟩
  | serviceFailed : e.type = .informServiceFailed →
      Adds c units clients e ⟨if some c.hostName ≠ e.contextName then [(.friendServiceFailed, e)] else [],
        failureRequests c.runMode e, failureSends c.runMode clients e, []⟩
  | noUnit : e.type = .serviceCrashed → ¬ units e.serviceName → Adds c units clients e ⟨[], [], [], []⟩
  | crashed (type : RmgActionType) : e.type = .serviceCrashed → units e.serviceName →
      Adds c units clients e ⟨type.kind.toList.map (·, e),
        failureRequests c.runMode { e with contextName := some c.hostName },
        failureSends c.runMode clients { e with contextName := some c.hostName },
        if type ≠ .invalid then [(type, e.serviceName)] else []⟩
  | remote (kind : ExecutorEventType) : e.type.remoteKind = some kind → Adds c units clients e ⟨[(kind, e)], [], [], []⟩
  | other : e.type = .serviceRestarted ∨ e.type = .unknown → Adds c units clients e ⟨[], [], [], []⟩

private theorem push_eq_add (T : Traffic) (type : ExecutorEventType) (e : RmgDEvent) :
    T.push type e = T.add ⟨[(type, e)], [], [], []⟩ := by
  simp [push, add, jobOf]

private theorem add_nil (T : Traffic) : T.add ⟨[], [], [], []⟩ = T := by
  simp [add]

private theorem add_add (T : Traffic) (a b : Added) : (T.add a).add b =
    T.add ⟨a.pushes ++ b.pushes, a.requests ++ b.requests, a.sends ++ b.sends, a.selected ++ b.selected⟩ := by
  simp [add, toSocket]

private theorem select_eq_add (T : Traffic) (type : RmgActionType) (e : RmgDEvent) :
    T.select type e = T.add ⟨[], [], [], if type ≠ .invalid then [(type, e.serviceName)] else []⟩ := by
  unfold select
  by_cases h : type ≠ .invalid
  · rw [if_pos h, if_pos h]
    simp [add]
  · rw [if_neg h, if_neg h, add_nil]

private theorem broadcast_eq_add (T : Traffic) (msg : RmgMessage) (p : RmgClient → Bool) :
    T.broadcast msg p = T.add ⟨[], [], informed msg (T.clients.filter p), []⟩ := by
  have hsocket : ∀ k, ((T.clients.filter fun c => c.sockfd = k ∧ p c).map fun _ => msg) =
      toSocket k (informed msg (T.clients.filter p)) := by
    intro k
    rw [toSocket_informed, List.filter_filter]
    simp
  have htoClient := funext fun k => congrArg (T.toClient k ++ ·) (hsocket k)
  simp only [broadcast, add, List.map_nil, List.append_nil, htoClient, informed]

private theorem request_eq_add (T : Traffic) (msg : RmgMessage) : T.request msg = T.add ⟨[], [msg], [], []⟩ := by
  simp [request, add]

private theorem serviceFailed_eq_add (T : Traffic) (m : RmgRunMode) (host : String) (e : RmgDEvent) :
    T.serviceFailed m host e =
      T.add ⟨if some host ≠ e.contextName then [(.friendServiceFailed, e)] else [], failureRequests m e,
        failureSends m T.clients e, []⟩ := by
  have hpushed : ∀ T' : Traffic, T' = T.add ⟨[], failureRequests m e, failureSends m T.clients e, []⟩ →
      (if some host ≠ e.contextName then T'.push .friendServiceFailed e else T') =
        T.add ⟨if some host ≠ e.contextName then [(.friendServiceFailed, e)] else [], failureRequests m e,
          failureSends m T.clients e, []⟩ := by
    rintro T' rfl
    by_cases h : some host ≠ e.contextName
    · rw [if_pos h, if_pos h, push_eq_add, add_add]
      simp
    · rw [if_neg h, if_neg h]
  cases m with
  | primary => exact hpushed _ (broadcast_eq_add T _ _)
  | replica => exact hpushed _ (request_eq_add T _)

theorem eq_add_of_handled (h : Handled c units e T T') : ∃ a, Adds c units T.clients e a ∧ T' = T.add a := by
  cases h with
  | processCrashed ht =>
    refine ⟨_, .processCrashed ht, ?_⟩
    unfold processCrashed
    cases hm : c.runMode with
    | primary =>
      rw [broadcast_eq_add, push_eq_add, add_add]
      simp
    | replica =>
      rw [push_eq_add]
      simp
  | serviceFailed ht => exact ⟨_, .serviceFailed ht, serviceFailed_eq_add ..⟩
  | noUnit ht hu => exact ⟨_, .noUnit ht hu, (add_nil T).symm⟩
  | crashed type ht hu =>
    refine ⟨_, .crashed type ht hu, ?_⟩
    unfold crashed
    cases hk : type.kind with
    | none =>
      rw [select_eq_add, serviceFailed_eq_add, add_add]
      simp [add]
    | some kind =>
      dsimp only
      rw [select_eq_add, push_eq_add, add_add, serviceFailed_eq_add, add_add]
      simp [add]
  | remote kind hk => exact ⟨_, .remote kind hk, push_eq_add ..⟩
  | other ht => exact ⟨_, .other ht, (add_nil T).symm⟩

/-! ### Cases -/

/-- What an instance does on its own, as far as its traffic goes. -/
inductive Acts (c : Identity) (units : Option String → Prop) (T : Traffic) (l : Label) : Traffic → Prop
  | arrive {e : RmgDEvent} : l.event c T.allocated = some e → Acts c units T l (T.arrive e)
  | handle {e : RmgDEvent} {inbox : List RmgDEvent} {a : Added} : l = .dispatch → T.inbox = e :: inbox →
      Adds c units T.clients e a → Acts c units T l (add { T with inbox := inbox } a)
  | forward {job : Job} {work : List Job} {type : RmgMessageType} : l = .execute → T.work = job :: work →
      c.runMode = .replica → job.type.requestType = some type →
      Acts c units T l (request { T with work := work } ⟨type, none, job.serviceName, some c.hostName, job.cause⟩)
  | execute {job : Job} {work : List Job} : l = .execute → T.work = job :: work →
      (c.runMode = .replica → job.type.requestType = none) → Acts c units T l { T with work := work }
  | rest : l.event c T.allocated = none → Acts c units T l T

theorem acts_of_move {n : Nat} {s : Site n} (hl : l.Own s) (h : Move c units T l T') : Acts c units T l T' := by
  cases h with
  | crash | restarted | newCrash => exact .arrive rfl
  | fromReplica | fromPrimary => exact hl.elim
  | @dispatch e inbox T' hq h =>
    obtain ⟨a, ha, rfl⟩ := eq_add_of_handled h
    exact .handle rfl hq ha
  | @execute job work hq =>
    unfold executed
    split
    · rename_i type hm ht
      exact .forward rfl hq hm ht
    · rename_i hnot
      refine .execute rfl hq fun hm => ?_
      cases ht : job.type.requestType with
      | none => rfl
      | some type => exact (hnot type hm ht).elim
  | expire | tick => exact .rest rfl

theorem allocated_of_acts (h : T.Acts c units l T') : T.allocated ≤ T'.allocated ∧
    (∀ e, l.event c T.allocated = some e → T'.allocated = T.allocated + 1) := by
  cases h with
  | arrive => exact ⟨Nat.le_succ _, fun _ _ => rfl⟩
  | handle hl | forward hl | execute hl => exact ⟨Nat.le_refl _, fun e he => by rw [hl] at he; cases he⟩
  | rest hl => exact ⟨Nat.le_refl _, fun e he => by rw [hl] at he; cases he⟩

theorem allocated_fromReplica (T : Traffic) (sockfd : Nat) (msg : RmgMessage) :
    T.allocated ≤ (T.fromReplica sockfd msg).allocated := by
  rw [fromReplica_eq]
  split
  · exact Nat.le_succ _
  · split <;> exact Nat.le_refl _

theorem allocated_fromPrimary (T : Traffic) (msg : RmgMessage) : T.allocated ≤ (T.fromPrimary msg).allocated := by
  unfold fromPrimary
  split <;> first | exact Nat.le_succ _ | exact Nat.le_refl _

end Traffic

/-! ### New causes -/

variable {n : Nat}

/-- The event that a step brings in from outside, and where. -/
def NetLabel.event (c : Members n) (N : NetTraffic n) : NetLabel n → Option (Site n × RmgDEvent)
  | .own s l => (l.event (c s) (N s).allocated).map fun e => (s, e)
  | _ => none

namespace NetTraffic

variable {c : Members n} {units : Option String → Prop} {N N' : NetTraffic n} {l : NetLabel n} {s : Site n}
    {e : RmgDEvent}

theorem event_own {l' : Label} (h : l'.event (c s) (N s).allocated = some e) :
    (NetLabel.own s l').event c N = some (s, e) := by
  rw [NetLabel.event, h]
  rfl

theorem cause_of_event (h : l.event c N = some (s, e)) : e.cause = ⟨(c s).ident, (N s).allocated⟩ := by
  cases l with
  | own s' l' =>
    obtain ⟨e', he, heq⟩ := Option.map_eq_some_iff.1 h
    obtain ⟨rfl, rfl⟩ := Prod.mk.inj heq
    cases l' <;> cases he <;> rfl
  | _ => cases h

theorem allocated_of_move (hm : Move c units N l N') (s : Site n) : (N s).allocated ≤ (N' s).allocated := by
  have hupdate : ∀ {N₁ : NetTraffic n} {s' : Site n} {T : Traffic}, (N s).allocated ≤ (N₁ s).allocated →
      (N s').allocated ≤ T.allocated → (N s).allocated ≤ (Function.update N₁ s' T s).allocated := by
    intro N₁ s' T h₁ hT
    by_cases hs : s = s'
    · subst hs
      rw [Function.update_self]
      exact hT
    · rw [Function.update_of_ne hs]
      exact h₁
  have hle := Nat.le_refl (N s).allocated
  cases hm with
  | own hown hm => exact hupdate hle (Traffic.allocated_of_acts (Traffic.acts_of_move hown hm)).1
  | toPrimary hq => exact hupdate (hupdate hle (Nat.le_refl _)) (Traffic.allocated_fromReplica ..)
  | toReplica hq => exact hupdate (hupdate hle (Nat.le_refl _)) (Traffic.allocated_fromPrimary ..)
  | connect | accept => exact hupdate hle (Nat.le_refl _)

theorem allocated_of_event (hm : Move c units N l N') (h : l.event c N = some (s, e)) :
    (N' s).allocated = (N s).allocated + 1 := by
  cases hm with
  | own hown hm =>
    obtain ⟨e', he, heq⟩ := Option.map_eq_some_iff.1 h
    obtain ⟨rfl, rfl⟩ := Prod.mk.inj heq
    rw [Function.update_self]
    exact (Traffic.allocated_of_acts (Traffic.acts_of_move hown hm)).2 _ he
  | _ => cases h

end NetTraffic

/-- Nothing stems from `cause`. -/
def Shape.without (cause : Cause) : Shape where
  event e := e.cause ≠ cause
  job job := job.cause ≠ cause
  push _ e := e.cause ≠ cause
  up msg := msg.cause ≠ cause
  down _ msg := msg.cause ≠ cause

theorem closed_without (cause : Cause) (c : Members n) : NetTraffic.Closed (fun _ => Shape.without cause) c where
  site _ := {
    job := fun _ _ h => h
    processCrash := fun _ h _ => ⟨h, fun _ _ => h⟩
    serviceFailed := fun _ h _ => ⟨fun _ _ => h, fun _ => h, fun _ => h⟩
    crashed := fun _ h _ => ⟨fun _ _ _ => h, fun _ _ => h, fun _ => h, fun _ => h⟩
    remote := fun _ h _ _ => h
    execute := fun _ _ h _ _ => h }
  toPrimary _ _ _ h _ := h
  toReplica _ _ h := ⟨fun _ => h, fun _ => h⟩

end RecoveryManager
