import RecoveryManager.Handling

/-!
# Process crashes

The crash handler of the primary announces process crashes.  The primary hands each to its executor and passes it on to
the replicas that are connected by then, and they hand it to theirs.  `NetTraffic.heard` is what replica `i` has learnt
or will learn from what has been sent to it; a step of the network adds to it what the primary adds to its own list.
-/

namespace RecoveryManager

open Instance

variable {n : Nat}

/-- A process crash, as it was announced. -/
structure Notice where
  processName : Option String
  contextName : Option String
  cause : Cause
  deriving DecidableEq, Repr

def RmgDEvent.notice (e : RmgDEvent) : Option Notice :=
  if e.type = .informProcessCrash then some ⟨e.processName, e.contextName, e.cause⟩ else none

def RmgMessage.notice (msg : RmgMessage) : Option Notice :=
  if msg.type = .informProcessCrash then some ⟨msg.processName, msg.contextName, msg.cause⟩ else none

namespace Traffic

variable (T : Traffic)

/-- The crashes handed to the executor. -/
def noticed : List Notice :=
  T.pushed.filterMap fun x =>
    if x.1 = .friendProcessCrash then some ⟨x.2.processName, x.2.contextName, x.2.cause⟩ else none

/-- Those in the queue of the dispatcher. -/
def noticesWaiting : List Notice := T.inbox.filterMap RmgDEvent.notice

/-- Those on the way to a client. -/
def noticesFor (k : Nat) : List Notice := (T.toClient k).filterMap RmgMessage.notice

end Traffic

namespace NetTraffic

variable (N : NetTraffic n)

/-- The crashes that the primary has heard of. -/
def announced : List Notice := (N .primary).noticed ++ (N .primary).noticesWaiting

/-- The crashes that a replica has been told of. -/
def heard (i : Fin n) : List Notice :=
  (N (.replica i)).noticed ++ (N (.replica i)).noticesWaiting ++ (N .primary).noticesFor i

def Accepted (i : Fin n) : Prop := ∃ client ∈ (N .primary).clients, client.sockfd = i.val

instance (i : Fin n) : Decidable (N.Accepted i) :=
  inferInstanceAs (Decidable (∃ client ∈ (N .primary).clients, client.sockfd = i.val))

end NetTraffic

/-- The names that a signal of the crash handler carries. -/
def NetLabel.signal : NetLabel n → Option (Option String × Option String)
  | .own _ (.newCrash process context) => some (some process, some context)
  | _ => none

namespace Broadcast

variable {T T' : Traffic} {d : Identity} {units : Option String → Prop} {l : Label} {e : RmgDEvent} {a : Added}
  {clients : List RmgClient}

/-! ### One instance -/

private theorem noticed_of_adds (h : Traffic.Adds d units clients e a) :
    a.pushes.filterMap (fun x => if x.1 = .friendProcessCrash then
      some (⟨x.2.processName, x.2.contextName, x.2.cause⟩ : Notice) else none) = e.notice.toList := by
  unfold RmgDEvent.notice
  cases h with
  | processCrashed ht => simp [ht]
  | serviceFailed ht =>
    by_cases hne : some d.hostName ≠ e.contextName
    · simp [hne, ht]
    · simp [hne, ht]
  | noUnit ht => simp [ht]
  | crashed type ht => cases type <;> simp [RmgActionType.kind, ht]
  | remote kind hk =>
    cases ht : e.type <;> rw [ht] at hk <;> cases hk <;> simp
  | other ht => rcases ht with ht | ht <;> simp [ht]

private theorem notices_of_failureSends (k : Nat) (m : RmgRunMode) (e : RmgDEvent) :
    (Traffic.toSocket k (Traffic.failureSends m clients e)).filterMap RmgMessage.notice = [] := by
  unfold Traffic.failureSends
  split
  · rw [Traffic.toSocket_informed]
    refine List.filterMap_eq_nil_iff.2 fun msg hmsg => ?_
    obtain ⟨client, -, rfl⟩ := List.mem_map.1 hmsg
    rfl
  · rfl

/-- Each client of the primary is told once. -/
private theorem notices_of_adds (hm : d.runMode = .primary) (hn : (clients.map RmgClient.sockfd).Nodup) (k : Nat)
    (h : Traffic.Adds d units clients e a) : (Traffic.toSocket k a.sends).filterMap RmgMessage.notice =
      if ∃ client ∈ clients, client.sockfd = k then e.notice.toList else [] := by
  have hnone : e.type ≠ .informProcessCrash →
    (if ∃ client ∈ clients, client.sockfd = k then e.notice.toList else []) = [] := by
    intro ht
    simp [RmgDEvent.notice, ht]
  cases h with
  | processCrashed ht =>
    rw [if_pos hm, Traffic.toSocket_informed]
    split
    · rename_i hex
      obtain ⟨client, hclient, rfl⟩ := hex
      rw [Traffic.filter_sockfd hn hclient]
      simp [RmgMessage.notice, RmgDEvent.notice, ht]
    · rename_i hex
      rw [List.filter_eq_nil_iff.2 fun client hclient => by simpa using fun heq => hex ⟨client, hclient, heq⟩]
      rfl
  | serviceFailed ht => rw [hnone (by simp [ht]), notices_of_failureSends]
  | noUnit ht => rw [hnone (by simp [ht])]; rfl
  | crashed type ht => rw [hnone (by simp [ht]), notices_of_failureSends]
  | remote kind hk =>
    rw [hnone (by rintro ht; rw [ht] at hk; cases hk)]
    rfl
  | other ht => rw [hnone (by rcases ht with ht | ht <;> simp [ht])]; rfl

/-- A step of an instance of its own: the list only grows by what the crash handler announces. -/
private theorem noticed_of_acts (h : T.Acts d units l T') : ∃ since, T'.noticed = T.noticed ++ since ∧
    T'.noticed ++ T'.noticesWaiting =
      T.noticed ++ T.noticesWaiting ++ ((l.event d T.allocated).bind RmgDEvent.notice).toList ∧
    (d.runMode = .primary → (T.clients.map RmgClient.sockfd).Nodup → ∀ k, T'.noticesFor k =
      T.noticesFor k ++ if ∃ client ∈ T.clients, client.sockfd = k then since else []) := by
  unfold Traffic.noticed Traffic.noticesWaiting Traffic.noticesFor
  cases h with
  | @arrive e he =>
    refine ⟨[], by simp [Traffic.arrive], ?_, fun _ _ k => by simp [Traffic.arrive]⟩
    rw [he]
    cases hn : e.notice <;> simp [Traffic.arrive, hn]
  | @handle e inbox a hl hq ha =>
    refine ⟨e.notice.toList, ?_, ?_, fun hm hn k => ?_⟩
    · simp only [Traffic.add, List.filterMap_append, noticed_of_adds ha]
    · have hevent : l.event d T.allocated = none := by rw [hl]; rfl
      simp only [Traffic.add, List.filterMap_append, noticed_of_adds ha, hq, hevent]
      cases hn : e.notice <;> simp [hn]
    · simp only [Traffic.add, List.filterMap_append, notices_of_adds hm hn k ha]
  | forward hl | execute hl =>
    have hevent : l.event d T.allocated = none := by rw [hl]; rfl
    refine ⟨[], by simp [Traffic.request], ?_, fun _ _ k => by simp [Traffic.request]⟩
    rw [hevent]
    simp [Traffic.request]
  | rest hl =>
    refine ⟨[], by simp, ?_, fun _ _ k => by simp⟩
    rw [hl]
    simp

/-! ### The network -/

variable {c : Members n} {N N' : NetTraffic n} {l : NetLabel n}

/-- The crash that a step announces. -/
private def born (c : Members n) (N : NetTraffic n) (l : NetLabel n) : Option Notice :=
  l.signal.map fun x => ⟨x.1, x.2, ⟨(c .primary).ident, (N .primary).allocated⟩⟩

private theorem notice_of_event {s : Site n} {l : Label} (hl : l.Own s) :
    (l.event (c s) (N s).allocated).bind RmgDEvent.notice = born c N (.own s l) := by
  cases l with
  | newCrash process context =>
    obtain rfl : s = .primary := hl
    rfl
  | _ => rfl

private theorem notices_fromReplica (T : Traffic) (sockfd : Nat) (msg : RmgMessage) :
    (T.fromReplica sockfd msg).noticed = T.noticed ∧ (T.fromReplica sockfd msg).noticesWaiting = T.noticesWaiting ∧
      ∀ k, (T.fromReplica sockfd msg).noticesFor k = T.noticesFor k := by
  rw [Traffic.fromReplica_eq]
  cases ht : msg.type.asRequest with
  | none =>
    dsimp only
    split <;> exact ⟨rfl, rfl, fun _ => rfl⟩
  | some type =>
    have htype : type ≠ .informProcessCrash := by
      cases hk : msg.type <;> rw [hk] at ht <;> cases ht <;> simp
    refine ⟨rfl, ?_, fun _ => rfl⟩
    simp [Traffic.noticesWaiting, Traffic.arrive, RmgDEvent.notice, htype]

private theorem notices_fromPrimary (T : Traffic) (msg : RmgMessage) :
    (T.fromPrimary msg).noticed = T.noticed ∧
      (T.fromPrimary msg).noticesWaiting = T.noticesWaiting ++ msg.notice.toList := by
  unfold Traffic.fromPrimary
  cases ht : msg.type <;> simp [Traffic.noticed, Traffic.noticesWaiting, Traffic.arrive, RmgDEvent.notice,
    RmgMessage.notice, ht]

/-- What a step adds to the list of the primary it adds to the lists of the replicas that are connected. -/
private theorem heard_of_move (hmode : ∀ s, (c s).runMode = s.runMode)
    (hn : ((N .primary).clients.map RmgClient.sockfd).Nodup) (hm : NetTraffic.Move c units N l N') :
    ∃ since, (N' .primary).noticed = (N .primary).noticed ++ since ∧
      N'.announced = N.announced ++ (born c N l).toList ∧
      ∀ i, N'.heard i = N.heard i ++ if N.Accepted i then since else [] := by
  unfold NetTraffic.announced NetTraffic.heard
  cases hm with
  | @own s l T hown hm =>
    -- only the dispatcher of the primary adds to what has been noticed
    obtain ⟨since, hnoticed, hwaiting, hfor⟩ := noticed_of_acts (Traffic.acts_of_move hown hm)
    rw [notice_of_event hown] at hwaiting
    cases s with
    | primary =>
      refine ⟨since, hnoticed, hwaiting, fun i => ?_⟩
      show _ ++ T.noticesFor i = _
      rw [hfor (hmode .primary) hn i, ← List.append_assoc]
      rfl
    | replica j =>
      have hborn : born c N (.own (.replica j) l) = none := by
        cases l <;> first | rfl | cases hown
      refine ⟨[], by simp, by simp [hborn], fun i => ?_⟩
      rw [hborn] at hwaiting
      by_cases hj : j = i
      · subst hj
        rw [Function.update_self, Function.update_of_ne (by simp), hwaiting]
        simp
      · rw [Function.update_of_ne (by simp [Ne.symm hj]), Function.update_of_ne (by simp)]
        simp
  | @toPrimary j msg rest hq =>
    obtain ⟨hnoticed, hwaiting, hfor⟩ := notices_fromReplica (N .primary) j msg
    refine ⟨[], by simp [hnoticed], by simp [hnoticed, hwaiting, born, NetLabel.signal], fun i => ?_⟩
    have hreplica : ∀ T : Traffic, Traffic.noticed { T with toManager := rest } = T.noticed ∧
        Traffic.noticesWaiting { T with toManager := rest } = T.noticesWaiting := fun _ => ⟨rfl, rfl⟩
    rw [Function.update_self, hfor, Function.update_of_ne (by simp)]
    by_cases hj : i = j
    · subst hj
      rw [Function.update_self, (hreplica _).1, (hreplica _).2]
      simp
    · rw [Function.update_of_ne (by simp [hj])]
      simp
  | @toReplica j msg rest hq =>
    obtain ⟨hnoticed, hwaiting⟩ := notices_fromPrimary (N (.replica j)) msg
    refine ⟨[], by simp [Traffic.noticed], by simp [born, NetLabel.signal, Traffic.noticed,
      Traffic.noticesWaiting], fun i => ?_⟩
    by_cases hj : i = j
    · subst hj
      -- the notice changes its place in the list and not its position
      have hhead : (N .primary).noticesFor i = msg.notice.toList ++ rest.filterMap RmgMessage.notice := by
        unfold Traffic.noticesFor
        rw [hq]
        cases hmsg : msg.notice <;> simp [hmsg]
      rw [Function.update_self, Function.update_of_ne (by simp), Function.update_self, hnoticed, hwaiting, hhead]
      simp [Traffic.noticesFor]
    · have hne : i.val ≠ j.val := fun heq => hj (Fin.ext heq)
      rw [Function.update_of_ne (by simp [hj]), Function.update_of_ne (by simp), Function.update_of_ne (by simp),
        Function.update_self]
      simp [Traffic.noticesFor, Function.update_of_ne hne]
  | @connect j cause hcause =>
    -- a descriptor carries no notice
    refine ⟨[], by simp, by simp [born, NetLabel.signal], fun i => ?_⟩
    by_cases hj : i = j
    · subst hj
      rw [Function.update_self, Function.update_of_ne (by simp)]
      simp [Traffic.noticed, Traffic.noticesWaiting, Traffic.request]
    · rw [Function.update_of_ne (by simp [hj]), Function.update_of_ne (by simp)]
      simp
  | @accept j hnew =>
    exact ⟨[], by simp [Traffic.noticed], by simp [born, NetLabel.signal, Traffic.noticed, Traffic.noticesWaiting],
      fun i => by simp [Traffic.noticed, Traffic.noticesWaiting, Traffic.noticesFor]⟩

private theorem accepted_of_move {i : Fin n} (hm : NetTraffic.Move c units N l N') (h : N.Accepted i) :
    N'.Accepted i := by
  have hmem : ∀ {N : NetTraffic n}, N.Accepted i ↔ i.val ∈ (N .primary).clients.map RmgClient.sockfd := fun {N} => by
    simp [NetTraffic.Accepted]
  rw [hmem] at h ⊢
  cases hm with
  | @own s l T hown hm =>
    cases s with
    | primary => rw [Function.update_self, Traffic.clients_of_move hown hm]; exact h
    | replica j => exact h
  | toPrimary => rw [Function.update_self, Traffic.sockets_fromReplica]; exact h
  | toReplica | connect => exact h
  | accept =>
    rw [Function.update_self, List.map_append]
    exact List.mem_append_left _ h

/-! ### What stems from a signal -/

/-- Of what stems from `cause`, all has to do with a process crash, and nothing is sent by a replica. -/
private def onlyNotices (cause : Cause) : Shape where
  event e := e.cause = cause → e.type = .informProcessCrash
  job job := job.cause = cause → job.type = .friendProcessCrash
  push type e := e.cause = cause → type = .friendProcessCrash
  up msg := msg.cause ≠ cause
  down _ msg := msg.cause = cause → msg.type = .informProcessCrash

private theorem closed_onlyNotices (cause : Cause) (c : Members n) :
    NetTraffic.Closed (fun _ => onlyNotices cause) c := by
  have hne : ∀ {e : RmgDEvent}, (onlyNotices cause).event e → e.type ≠ .informProcessCrash → e.cause ≠ cause :=
    fun h ht hc => ht (h hc)
  have htells : ∀ (d : Identity) {e : RmgDEvent}, e.cause ≠ cause → (onlyNotices cause).Tells d e :=
    fun _ _ hc => ⟨fun _ _ h => absurd h hc, fun _ => hc, fun _ h => absurd h hc⟩
  refine ⟨fun s => ⟨fun _ _ h => h, fun e _ _ => ⟨fun _ => rfl, fun _ _ _ => rfl⟩,
    fun e he ht => htells _ (hne he (by simp [ht])), fun e he ht => ?_,
      fun e he kind hk => ?_, fun _ job hj type ht hc => ?_⟩,
    fun i msg type h _ hc => absurd hc h, fun i msg h => ⟨fun _ _ => rfl, fun ht hc => ?_⟩⟩
  · have hc := hne he (by simp [ht])
    exact ⟨fun _ _ _ h => absurd h hc, htells _ hc⟩
  · exact fun h => absurd h (hne he (by rintro ht; rw [ht] at hk; cases hk))
  · rw [hj hc] at ht
    cases ht
  · have hprocess := h hc
    rw [ht] at hprocess
    cases hprocess

/-- No process crash that the primary hears of stems from `cause`. -/
private def noNotice (cause : Cause) : Site n → Shape
  | .primary => {
      event e := e.type = .informProcessCrash → e.cause ≠ cause
      job _ := True
      push type e := type = .friendProcessCrash → e.cause ≠ cause
      up _ := True
      down _ _ := True }
  | .replica _ => ⟨fun _ => True, fun _ => True, fun _ _ => True, fun _ => True, fun _ _ => True⟩

private theorem closed_noNotice (cause : Cause) (c : Members n) : NetTraffic.Closed (noNotice cause) c where
  site s := by
    cases s with
    | primary =>
      have htells : ∀ e, (noNotice cause (.primary : Site n)).Tells (c .primary) e := fun e =>
        ⟨fun _ _ => trivial, fun _ => trivial, by simp [noNotice]⟩
      refine ⟨fun _ _ _ => trivial, fun e he ht => ⟨fun _ => he ht, fun _ _ => trivial⟩, fun e _ _ => htells e,
        fun e _ _ => ⟨fun type kind hk ht => ?_, htells _⟩, fun e _ kind hk ht => ?_, fun _ _ _ _ _ => trivial⟩
      · subst ht
        cases type <;> cases hk
      · subst ht
        cases he : e.type <;> rw [he] at hk <;> cases hk
    | replica i =>
      exact ⟨fun _ _ _ => trivial, fun _ _ _ => ⟨trivial, fun _ _ => trivial⟩,
        fun _ _ _ => ⟨fun _ _ => trivial, fun _ => trivial, fun _ => trivial⟩,
        fun _ _ _ => ⟨fun _ _ _ => trivial, fun _ _ => trivial, fun _ => trivial, fun _ => trivial⟩,
        fun _ _ _ _ => trivial, fun _ _ _ _ _ => trivial⟩
  toPrimary i msg type _ ht := by
    intro hp
    subst hp
    cases hk : msg.type <;> rw [hk] at ht <;> cases ht
  toReplica _ _ _ := ⟨fun _ => trivial, fun _ => trivial⟩

/-- `cause` has not come up yet; or it is that of a process crash; or it is that of something else. -/
private inductive Life (cause : Cause) (N : NetTraffic n) : Prop
  | unborn : (N .primary).allocated ≤ cause.event → N.Has (fun _ => Shape.without cause) → Life cause N
  | notice : cause.event < (N .primary).allocated → N.Has (fun _ => onlyNotices cause) → Life cause N
  | other : cause.event < (N .primary).allocated → N.Has (noNotice cause) → Life cause N

private theorem other_of_without {cause : Cause} (h : N.Has fun _ => Shape.without cause) : N.Has (noNotice cause) := by
  intro s
  cases s with
  | primary =>
    exact (h .primary).mono (fun _ h _ => h) (fun _ _ => trivial) (fun _ _ h _ => h) (fun _ _ => trivial)
      fun _ _ _ => trivial
  | replica i =>
    exact (h (.replica i)).mono (fun _ _ => trivial) (fun _ _ => trivial) (fun _ _ _ => trivial) (fun _ _ => trivial)
      fun _ _ _ => trivial

private theorem Life.move {cause : Cause} (hidents : Function.Injective fun s => (c s).ident)
    (hcause : cause.instance_ = (c .primary).ident) (h : Life cause N) (hm : NetTraffic.Move c units N l N') :
    Life cause N' := by
  have hdescriptor : ∀ i (cause' : Cause), cause'.instance_ = (c (.replica i)).ident → cause' ≠ cause := by
    rintro i cause' h' rfl
    exact absurd (hidents (hcause.symm.trans h')) (by simp)
  have hle := NetTraffic.allocated_of_move hm .primary
  have hold : cause.event < (N .primary).allocated → ∀ s l', l = .own s l' → ∀ e : RmgDEvent,
      l'.event (c s) (N s).allocated = some e → e.cause ≠ cause := by
    rintro hlt s l' rfl e he heq
    have hc := NetTraffic.cause_of_event (NetTraffic.event_own he)
    rw [heq] at hc
    obtain rfl : s = .primary := hidents ((congrArg Cause.instance_ hc).symm.trans hcause)
    exact absurd (congrArg Cause.event hc) (Nat.ne_of_lt hlt)
  cases h with
  | unborn hun h =>
    -- the step may allocate the event of this cause, as a crash of a process or as anything else
    by_cases hborn : ∃ s e, l.event c N = some (s, e) ∧ e.cause = cause
    · obtain ⟨s, e, he, heq⟩ := hborn
      have hc := NetTraffic.cause_of_event he
      rw [heq] at hc
      obtain rfl : s = .primary := hidents ((congrArg Cause.instance_ hc).symm.trans hcause)
      have hlt : cause.event < (N' .primary).allocated := by
        rw [NetTraffic.allocated_of_event hm he, show cause.event = (N .primary).allocated from congrArg Cause.event hc]
        exact Nat.lt_succ_self _
      have hown : ∀ s l', l = .own s l' → ∀ e', l'.event (c s) (N s).allocated = some e' → (s, e') = (.primary, e) := by
        rintro s l' rfl e' he'
        exact Option.some.inj ((NetTraffic.event_own he').symm.trans he)
      by_cases ht : e.type = .informProcessCrash
      · refine .notice hlt (NetTraffic.Has.move ?_ (closed_onlyNotices cause c) hm (fun s l' hl e' he' _ => ?_)
          fun i _ cause' h' => hdescriptor i cause' h')
        · exact fun s => (h s).mono (fun _ h hc => absurd hc h) (fun _ h hc => absurd hc h)
            (fun _ _ h hc => absurd hc h)
            (fun _ h => h) fun _ _ h hc => absurd hc h
        · obtain ⟨-, rfl⟩ := Prod.mk.inj (hown s l' hl e' he')
          exact ht
      · refine .other hlt (NetTraffic.Has.move (other_of_without h) (closed_noNotice cause c) hm
          (fun s l' hl e' he' => ?_)
          fun i _ _ _ => trivial)
        obtain ⟨rfl, rfl⟩ := Prod.mk.inj (hown s l' hl e' he')
        exact fun h => absurd h ht
    · have h' : N'.Has fun _ => Shape.without cause := h.move (closed_without cause c) hm
        (fun s l' hl e he heq => hborn ⟨s, e, hl ▸ NetTraffic.event_own he, heq⟩)
        fun i _ cause' hi => hdescriptor i cause' hi
      by_cases hun' : (N' .primary).allocated ≤ cause.event
      · exact .unborn hun' h'
      · exact .other (Nat.lt_of_not_le hun') (other_of_without h')
  | notice hlt h =>
    exact .notice (Nat.lt_of_lt_of_le hlt hle) (h.move (closed_onlyNotices cause c) hm
      (fun s l' hl e he heq => absurd heq (hold hlt s l' hl e he)) fun i _ cause' hi => hdescriptor i cause' hi)
  | other hlt h =>
    refine .other (Nat.lt_of_lt_of_le hlt hle) (h.move (closed_noNotice cause c) hm (fun s l' hl e he => ?_)
      fun i _ _ _ => trivial)
    -- events of the replicas are not asked about
    cases s with
    | primary => exact fun _ => hold hlt _ l' hl e he
    | replica i => trivial

/-! ### Runs -/

/-- What holds of the lists in every state reached. -/
private structure Listed (c : Members n) (N : NetTraffic n) : Prop where
  bounded : ∀ σ ∈ N.announced, σ.cause.instance_ = (c .primary).ident ∧ σ.cause.event < (N .primary).allocated
  distinct : (N.announced.map Notice.cause).Nodup
  suffix : ∀ i, N.heard i <:+ (N .primary).noticed
  strangers : ∀ i, ¬ N.Accepted i → N.heard i = []
  life : ∀ cause : Cause, cause.instance_ = (c .primary).ident → Life cause N

private theorem Listed.move (hmode : ∀ s, (c s).runMode = s.runMode) (hidents : Function.Injective fun s => (c s).ident)
    (hn : ((N .primary).clients.map RmgClient.sockfd).Nodup) (h : Listed c N) (hm : NetTraffic.Move c units N l N') :
    Listed c N' := by
  obtain ⟨since, hnoticed, hannounced, hheard⟩ := heard_of_move hmode hn hm
  have hle := NetTraffic.allocated_of_move hm .primary
  -- what is announced anew has the next number, which no notice has yet
  have hborn : ∀ σ ∈ born c N l, σ.cause = ⟨(c .primary).ident, (N .primary).allocated⟩ ∧
      (N .primary).allocated < (N' .primary).allocated := by
    intro σ hσ
    obtain ⟨x, hx, rfl⟩ := Option.map_eq_some_iff.1 hσ
    refine ⟨rfl, ?_⟩
    cases l with
    | own s l =>
      cases l with
      | newCrash process context =>
        obtain rfl : s = .primary := by
          cases hm with
          | own hown => exact hown
        rw [NetTraffic.allocated_of_event hm (NetTraffic.event_own rfl)]
        exact Nat.lt_succ_self _
      | _ => cases hx
    | _ => cases hx
  refine ⟨fun σ hσ => ?_, ?_, fun i => ?_, fun i hi => ?_, fun cause hc => (h.life cause hc).move hidents hc hm⟩
  · rw [hannounced] at hσ
    rcases List.mem_append.1 hσ with hσ | hσ
    · exact ⟨(h.bounded σ hσ).1, Nat.lt_of_lt_of_le (h.bounded σ hσ).2 hle⟩
    · obtain ⟨hc, hlt⟩ := hborn σ (Option.mem_toList.1 hσ)
      rw [hc]
      exact ⟨rfl, hlt⟩
  · rw [hannounced, List.map_append]
    refine List.nodup_append.2 ⟨h.distinct, ?_, fun a ha b hb => ?_⟩
    · cases born c N l <;> simp
    · obtain ⟨σ, hσ, rfl⟩ := List.mem_map.1 ha
      obtain ⟨σ', hσ', rfl⟩ := List.mem_map.1 hb
      rw [(hborn σ' (Option.mem_toList.1 hσ')).1]
      intro heq
      exact absurd (congrArg Cause.event heq) (Nat.ne_of_lt (h.bounded σ hσ).2)
  · rw [hheard, hnoticed]
    split
    · obtain ⟨t, ht⟩ := h.suffix i
      exact ⟨t, by rw [← List.append_assoc, ht]⟩
    · rename_i hi
      rw [h.strangers i hi]
      exact List.nil_suffix
  · have hi' : ¬ N.Accepted i := fun h => hi (accepted_of_move hm h)
    rw [hheard, h.strangers i hi', if_neg hi']
    rfl

/-- The names in a list of crashes. -/
def names (σs : List Notice) : List (Option String × Option String) := σs.map fun σ => (σ.processName, σ.contextName)

private theorem names_born (c : Members n) (N : NetTraffic n) (l : NetLabel n) :
    names (born c N l).toList = l.signal.toList := by
  unfold born names
  cases l.signal <;> rfl

variable {net net₁ : Network n} {glib : GLib} {ls : List (NetLabel n)}

private theorem listed_of_runs (hidents : Function.Injective fun s => (net₁.members s).ident) (hs : net₁.Sound)
    (hl : Listed net₁.members net₁.traffic) (hr : Network.Runs SendsSucceed glib net₁ ls net) :
    (net.members = net₁.members ∧ net.Sound ∧ Listed net₁.members net.traffic) ∧
      names net.traffic.announced = names net₁.traffic.announced ++ ls.filterMap NetLabel.signal ∧
      ∃ since, net.primary.traffic.noticed = net₁.primary.traffic.noticed ++ since ∧
        ∀ i, net₁.traffic.Accepted i → net.traffic.Accepted i ∧ net.traffic.heard i = net₁.traffic.heard i ++
          since := by
  induction hr with
  | nil => exact ⟨⟨rfl, hs, hl⟩, by simp, [], by simp, fun i hi => ⟨hi, by simp⟩⟩
  | @snoc ls net net' l _ hstep ih =>
    obtain ⟨⟨hmembers, hsound, hlisted⟩, hnames, since, hnoticed, hheard⟩ := ih
    obtain ⟨⟨units, -, hm⟩, hsound'⟩ := Network.move_of_step (fun _ _ h => h) hstep hsound
    rw [hmembers] at hm
    have hmode : ∀ s, (net₁.members s).runMode = s.runMode := hs.runMode
    obtain ⟨since', hnoticed', hannounced', hheard'⟩ := heard_of_move hmode hsound.sockets hm
    refine ⟨⟨hstep.members.trans hmembers, hsound', hlisted.move hmode hidents hsound.sockets hm⟩, ?_,
      since ++ since', ?_, fun i hi => ?_⟩
    · have happend : names (net.traffic.announced ++ (born net₁.members net.traffic l).toList) =
          names net.traffic.announced ++ names (born net₁.members net.traffic l).toList := List.map_append
      rw [hannounced', happend, hnames, names_born, List.filterMap_append, List.append_assoc]
      cases hsignal : l.signal <;> simp [hsignal]
    · rw [show net'.primary.traffic.noticed = _ from hnoticed', show (net.traffic .primary).noticed = _ from hnoticed,
        List.append_assoc]
    · obtain ⟨hi', hlist⟩ := hheard i hi
      exact ⟨accepted_of_move hm hi', by rw [hheard', hlist, if_pos hi', List.append_assoc]⟩

private theorem listed_start (h : net.Start) : Listed net.members net.traffic := by
  have hannounced : net.traffic.announced = [] := by
    simp [NetTraffic.announced, Traffic.noticed, Traffic.noticesWaiting, (h.idle _).pushed, (h.idle _).inbox]
  have hheard : ∀ i, net.traffic.heard i = [] := fun i => by
    simp [NetTraffic.heard, Traffic.noticed, Traffic.noticesWaiting, Traffic.noticesFor, (h.idle _).pushed,
      (h.idle _).inbox, (h.idle _).toClient]
  refine ⟨by simp [hannounced], by simp [hannounced], fun i => by rw [hheard]; exact List.nil_suffix,
    fun i _ => hheard i, fun cause _ => ?_⟩
  by_cases hle : (net.traffic .primary).allocated ≤ cause.event
  · exact .unborn hle fun s => (h.idle s).has _
  · exact .other (Nat.lt_of_not_le hle) fun s => (h.idle s).has _

/-- No replica has sent anything because of a process crash. -/
private theorem Listed.silent (h : Listed c N) {σ : Notice} (hσ : σ ∈ N.announced) (i : Fin n) :
    ∀ msg ∈ (N (.replica i)).requested, msg.cause ≠ σ.cause := by
  obtain ⟨hinstance, hlt⟩ := h.bounded σ hσ
  cases h.life σ.cause hinstance with
  | unborn hun => exact absurd hlt (Nat.not_lt.2 hun)
  | notice _ hshape => exact fun msg hmsg => (hshape (.replica i)).requested msg hmsg
  | other _ hshape =>
    exfalso
    rcases List.mem_append.1 hσ with hσ | hσ
    · obtain ⟨x, hx, heq⟩ := List.mem_filterMap.1 hσ
      split at heq
      · rename_i ht
        obtain rfl := Option.some.inj heq
        exact (hshape .primary).pushed x hx ht rfl
      · cases heq
    · obtain ⟨e, he, heq⟩ := List.mem_filterMap.1 hσ
      unfold RmgDEvent.notice at heq
      split at heq
      · rename_i ht
        obtain rfl := Option.some.inj heq
        exact (hshape .primary).inbox e he ht rfl
      · cases heq

end Broadcast

/-- The state `net` of a run with these signals that passes through `net₁`, as far as process crashes go.

* What the primary has pushed and what waits in its queue are the signals, in their order.
* What it has pushed since `net₁` each replica connected in `net₁` has been told of, in the same order: the crash is on
  its way to it, in its queue, or pushed.  No replica is told of one twice, and one that is not connected of none.
* No replica has sent a message that stems from a signal. -/
structure Network.Informed (net₁ net : Network n) (signals : List (Option String × Option String)) : Prop where
  primary : Broadcast.names net.traffic.announced = signals
  distinct : (net.traffic.announced.map Notice.cause).Nodup
  replicas : ∃ since, net.primary.traffic.noticed = net₁.primary.traffic.noticed ++ since ∧
    ∀ i, net₁.Accepted i → net.traffic.heard i = net₁.traffic.heard i ++ since
  once : ∀ i, ((net.traffic.heard i).map Notice.cause).Nodup
  strangers : ∀ i, ¬ net.Accepted i → net.traffic.heard i = []
  silent : ∀ σ ∈ net.traffic.announced, ∀ i, ∀ msg ∈ (net.replica i).traffic.requested, msg.cause ≠ σ.cause

section
variable {net₀ net₁ net : Network n} {glib : GLib}

open Broadcast

/-- Process crashes are passed on exactly once, whatever the order of the steps. -/
theorem broadcast_once (h₀ : net₀.Start) {ls₁ ls₂ : List (NetLabel n)}
    (h₁ : Network.Runs SendsSucceed glib net₀ ls₁ net₁)
    (h₂ : Network.Runs SendsSucceed glib net₁ ls₂ net) :
    net₁.Informed net ((ls₁ ++ ls₂).filterMap NetLabel.signal) := by
  obtain ⟨⟨hmembers₁, hsound₁, hlisted₁⟩, hnames₁, -⟩ := listed_of_runs h₀.idents h₀.sound (listed_start h₀) h₁
  have hidents : Function.Injective fun s => (net₁.members s).ident := by
    rw [hmembers₁]
    exact h₀.idents
  rw [← hmembers₁] at hlisted₁
  obtain ⟨⟨hmembers, hsound, hlisted⟩, hnames, since, hnoticed, hheard⟩ := listed_of_runs hidents hsound₁ hlisted₁ h₂
  have hnil : names net₀.traffic.announced = [] := by
    simp [names, NetTraffic.announced, Traffic.noticed, Traffic.noticesWaiting, (h₀.idle _).pushed, (h₀.idle _).inbox]
  refine ⟨?_, hlisted.distinct, ⟨since, hnoticed, fun i hi => (hheard i hi).2⟩, fun i => ?_, hlisted.strangers,
    fun σ hσ i => hlisted.silent hσ i⟩
  · rw [hnames, hnames₁, hnil, List.filterMap_append, List.nil_append]
  · have hsub : (net.traffic.heard i).Sublist net.traffic.announced :=
      (hlisted.suffix i).sublist.trans (List.sublist_append_left _ _)
    exact hlisted.distinct.sublist (hsub.map _)

end

/-- A process crash on the primary, dispatched while the replica is connected, which is told of it once. -/
theorem broadcast_once_of_signal : ∃ net₁ net : Network 1, net₁.Informed net [(some "process", some "host")] ∧
    net₁.Accepted 0 ∧ net₁.primary.traffic.noticed = [] ∧ (net.traffic.heard 0).length = 1 := by
  let net₀ : Network 1 := .pair (initial .primary "host") (initial .replica "container")
  have h₀ : net₀.Start :=
    Network.start_pair rfl rfl (idle_initial .primary "host" .empty) (idle_initial .replica "container" .empty)
  have hrun : ([.own .primary (.newCrash "process" "host")].foldlM (Network.next (.reading [])) net₀).any fun net₁ =>
      (net₁.Accepted 0 ∧ net₁.primary.traffic.noticed = []) ∧
        ([.own .primary .dispatch, .toReplica 0, .own (.replica 0) .dispatch].foldlM (Network.next (.reading []))
          net₁).any fun net => (net.traffic.heard 0).length = 1 := by
    decide +kernel
  obtain ⟨net₁, h₁, hrun⟩ := (Option.any_eq_true _ _).1 hrun
  obtain ⟨⟨haccepted, hnoticed⟩, hrun⟩ := of_decide_eq_true hrun
  obtain ⟨net, h₂, hheard⟩ := (Option.any_eq_true _ _).1 hrun
  exact ⟨net₁, net, broadcast_once h₀ (Network.runs_of_next sendsSucceed_true h₁)
    (Network.runs_of_next sendsSucceed_true h₂), haccepted, hnoticed, of_decide_eq_true hheard⟩

end RecoveryManager
