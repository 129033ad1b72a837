import RecoveryManager.Friends
import RecoveryManager.Isolation
import RecoveryManager.Notices
import RecoveryManager.Quotes

/-!
# What friends are asked to do

Each notice that the executor takes from its queue owes the orders of the rules that the tables hold for it: what
to do with which service, and from when on.  An order waits in a friend timer until it is due, and is then passed to the
service manager, if its proxy is there.  In every run of one process, orders are neither lost nor invented nor carried
out twice (`orders_carried_out_once`).
-/

namespace RecoveryManager

open Fallible Fallible.Prog

/-- What is to be done with a service, and from when on. -/
abbrev FriendOrder := Nat × RmgFriendTimer

/-- The orders of the rules for a notice that is taken from the queue at `x.2`. -/
def Journal.orders (j : Journal) (x : FriendNotice × Nat) : List FriendOrder :=
  (j.friends.filter fun r => some r.friend = x.1.name ∧ some r.context = x.1.context ∧ r.type = x.1.kind.code).map
    fun r => (x.2 + guint r.delay, ⟨r.service, .ofCode r.action, r.argument⟩)

/-- The actions for which there is a bus call. -/
def RmgFriendTimer.acts (timer : RmgFriendTimer) : Bool :=
  match timer.action with
  | .start | .stop | .restart | .signal => true
  | _ => false

def GSource.order (source : GSource) : Option FriendOrder :=
  match source.data with
  | .friend timer => some (source.deadline, timer)
  | .relax _ => none

def Output.expiredOrder : Output → Option FriendOrder
  | .timeoutExpired source => source.order
  | _ => none

def Output.friendTimer : Output → Option RmgFriendTimer
  | .friendAction timer => some timer
  | _ => none

/-- The operations that have to do with no order. -/
def Op.Unowed : Op → Prop
  | .sql q => q.KeepsUnits
  | .timeoutAddSeconds _ data => ∃ t, data = .relax t
  | .emit o => o.expiredOrder = none ∧ o.friendTimer = none
  | _ => True

/-- The operations of the executor on a notice. -/
def Op.LooksUp : Op → Prop
  | .sql q => ∃ friend context type, q = .selectFriends friend context type
  | .load _ | .timeoutAddSeconds .. => True
  | _ => False

namespace Instance

/-- The orders that are not due, or wait for their turn. -/
def pendingOrders (w : Instance) : List FriendOrder := w.sources.filterMap GSource.order

def expiredOrders (w : Instance) : List FriendOrder := w.trace.filterMap Output.expiredOrder

/-- What the service manager has been asked to do with friends. -/
def friendActions (w : Instance) : List RmgFriendTimer := w.trace.filterMap Output.friendTimer

/-- Every statement is read as it is meant, and the lookup of friend rules goes through; any other statement and any
send may fail.  If `proxied`, the manager proxy is there whenever a timer asks for it. -/
def LookupsSucceed (proxied : Prop) : Op → Bool → Prop
  | .sql (.selectFriends n c t), ok => ReadAsMeant (.sql (.selectFriends n c t)) ∧ ok = true
  | .sql q, _ => ReadAsMeant (.sql q)
  | .getManagerProxy, ok => proxied → ok = true
  | _, _ => True

/-- Actions of the expired orders have been asked for, in their order; all of them, if the proxy was there. -/
structure Asked (proxied : Prop) (expired : List FriendOrder) (asked : List RmgFriendTimer) : Prop where
  sublist : asked.Sublist ((expired.map Prod.snd).filter RmgFriendTimer.acts)
  all : proxied → asked = (expired.map Prod.snd).filter RmgFriendTimer.acts

/-- What has been owed since `b` has expired or is pending; what has expired has been asked for. -/
structure Owes (proxied : Prop) (b : Instance) (owed : List FriendOrder) (w : Instance) : Prop where
  friends : w.journal.friends = b.journal.friends
  timed : w.Timed
  orders : ∃ expired, w.expiredOrders = b.expiredOrders ++ expired ∧ (expired ++ w.pendingOrders).Perm owed ∧
    (∃ asked, w.friendActions = b.friendActions ++ asked ∧ Asked proxied expired asked) ∧
      ∀ x ∈ expired, x.1 ≤ w.now

variable {proxied : Prop} {glib : GLib} {b w w' x : Instance} {owed : List FriendOrder} {event : EventRef} {op : Op}
  {ok : Bool}
  {l : Label}

private theorem filterMap_snoc_none {β : Type} {f : Output → Option β} {o : Output} (h : f o = none)
    (l : List Output) : (l ++ [o]).filterMap f = l.filterMap f := by
  rw [List.filterMap_append, List.filterMap_cons_none h, List.filterMap_nil, List.append_nil]

private theorem asked_nil : Asked proxied [] [] := ⟨.slnil, fun _ => rfl⟩

private theorem filter_snoc (expired : List FriendOrder) (x : FriendOrder) :
    ((expired ++ [x]).map Prod.snd).filter RmgFriendTimer.acts =
      (expired.map Prod.snd).filter RmgFriendTimer.acts ++ if x.2.acts then [x.2] else [] := by
  rw [List.map_append, List.filter_append, List.map_singleton, List.filter_singleton]
  cases x.2.acts <;> rfl

/-- An order comes up for which nothing is asked. -/
private theorem Asked.skip {expired : List FriendOrder} {asked : List RmgFriendTimer} {x : FriendOrder}
    (h : Asked proxied expired asked) (hx : x.2.acts → ¬ proxied) : Asked proxied (expired ++ [x]) asked := by
  refine ⟨?_, fun hp => ?_⟩
  · rw [filter_snoc]
    exact h.sublist.trans (List.sublist_append_left _ _)
  · rw [filter_snoc, if_neg fun ha => hx ha hp, List.append_nil]
    exact h.all hp

private theorem Asked.ask {expired : List FriendOrder} {asked : List RmgFriendTimer} {x : FriendOrder}
    (h : Asked proxied expired asked) (hx : x.2.acts) : Asked proxied (expired ++ [x]) (asked ++ [x.2]) := by
  refine ⟨?_, fun hp => ?_⟩
  · rw [filter_snoc, if_pos hx]
    exact h.sublist.append (.refl _)
  · rw [filter_snoc, if_pos hx, h.all hp]

/-! ### Operations that have to do with no order -/

namespace Owes

private theorem keep (h : Owes proxied b owed w) (hf : x.journal.friends = w.journal.friends) (ht : x.Timed)
    (hn : x.now = w.now) (hp : x.pendingOrders = w.pendingOrders) (he : x.expiredOrders = w.expiredOrders)
    (ha : x.friendActions = w.friendActions) : Owes proxied b owed x := by
  obtain ⟨expired, hexpired, hperm, hactions, hdue⟩ := h.orders
  refine ⟨hf.trans h.friends, ht, expired, he.trans hexpired, ?_, ha ▸ hactions, ?_⟩
  · rw [hp]
    exact hperm
  · rw [hn]
    exact hdue

theorem congr {owed' : List FriendOrder} (h : Owes proxied b owed w) (hp : owed.Perm owed') :
    Owes proxied b owed' w := by
  obtain ⟨expired, hexpired, hperm, hactions, hdue⟩ := h.orders
  exact ⟨h.friends, h.timed, expired, hexpired, hperm.trans hp, hactions, hdue⟩

theorem ended (h : Owes proxied b owed w) (o : Outcome PUnit) : Owes proxied b owed (Instance.ended o w) := by
  cases o with
  | done => exact h
  | aborted | killed => exact h.keep rfl ⟨h.timed.nodup, h.timed.lt⟩ rfl rfl rfl rfl

private theorem apply (h : Owes proxied b owed w) (hop : op.Unowed) :
    Owes proxied b owed (Instance.apply op ok w).2 := by
  have hclock := clocked_apply op ok w
  have ht := hclock.timed h.timed
  cases op with
  | sql q =>
    rcases apply_sql w q ok with h' | ⟨j, hj, h'⟩
    · rw [h']
      exact h
    · rw [h'] at ht ⊢
      refine h.keep (commit_friends hop hj) ht ?_ ?_ ?_ ?_ <;> unfold commit <;> split
      any_goals rfl
      · exact filterMap_snoc_none rfl _
      · exact filterMap_snoc_none rfl _
  | timeoutAddSeconds seconds data =>
    obtain ⟨t, rfl⟩ := hop
    refine h.keep rfl ht rfl ?_ (filterMap_snoc_none rfl _) (filterMap_snoc_none rfl _)
    show (w.sources ++ [_]).filterMap GSource.order = _
    rw [List.filterMap_append, List.filterMap_cons_none rfl, List.filterMap_nil, List.append_nil]
    rfl
  | emit o => exact h.keep rfl ht rfl rfl (filterMap_snoc_none hop.1 _) (filterMap_snoc_none hop.2 _)
  | pushExecutor => exact h.keep rfl ht rfl rfl (filterMap_snoc_none rfl _) (filterMap_snoc_none rfl _)
  | clientSend | managerSend =>
    cases ok with
    | true => exact h.keep rfl ht rfl rfl (filterMap_snoc_none rfl _) (filterMap_snoc_none rfl _)
    | false => exact h
  | _ => exact h.keep rfl ht rfl rfl rfl rfl

end Owes

private theorem triple_unowed {A : Op → Bool → Prop} {p : Proc PUnit} (hp : p.Calls Op.Unowed) :
    Triple machine A (Owes proxied b owed) p (fun _ => Owes proxied b owed) (Owes proxied b owed) :=
  .of_calls (fun _ _ _ hop _ h => h.apply hop) hp

/-- The dispatcher starts relax timers only. -/
private theorem triple_dispatch_unowed {A : Op → Bool → Prop} (event : EventRef) (mode : RmgRunMode) :
    Triple machine A (fun x => Owes proxied b owed x ∧ x.runMode = mode) (dispatcherSourceCallback event)
      (fun _ x => Owes proxied b owed x ∧ x.runMode = mode) (fun x => Owes proxied b owed x ∧ x.runMode = mode) := by
  refine .of_within (fun op e x ha _ hx => ?_) (within_dispatcherSourceCallback event (fun _ => True) mode 0 0 0)
  have hmode : (Instance.apply op e x).2.runMode = x.runMode := congrArg Identity.runMode (apply_identity op e x)
  have hop : op.Unowed := by
    cases op with
    | sql q => exact ha
    | timeoutAddSeconds seconds data => exact ha
    | emit o => cases o <;> first | exact ⟨rfl, rfl⟩ | cases ha
    | _ => trivial
  refine ⟨⟨hx.1.apply hop, hmode.trans hx.2⟩, ?_⟩
  cases op with
  | getRunMode => exact hx.2
  | getClients => exact fun _ _ => trivial
  | _ => trivial

/-! ### The executor and what is not about friends -/

section calls

private theorem calls_load_unowed : (load event).Calls Op.Unowed := ⟨trivial, fun _ => trivial⟩

private theorem calls_output_unowed {o : Output} (h : o.expiredOrder = none ∧ o.friendTimer = none) :
    (output o).Calls Op.Unowed := ⟨h, fun _ => trivial⟩

private theorem calls_service_unowed {α : Type} (service : Option String) (response : α) (column : ServiceRow → α) :
    (getServiceColumn service response column).Calls Op.Unowed :=
  (calls_gAssertName service).bind fun _ => Calls.bind ⟨.inl rfl, fun _ => trivial⟩ fun r => by cases r <;> trivial

private theorem calls_onRunMode_unowed {primary replica : Proc PUnit} (hp : primary.Calls Op.Unowed)
    (hr : replica.Calls Op.Unowed) : (onRunMode primary replica).Calls Op.Unowed := by
  refine ⟨trivial, fun r => ?_⟩
  cases r with
  | primary => exact hp
  | replica => exact hr

private theorem calls_restart_unowed : (doProcessServiceRestartEvent event).Calls Op.Unowed :=
  calls_load_unowed.bind fun _ => calls_output_unowed ⟨rfl, rfl⟩

private theorem calls_resetData_unowed {getPath : Option String → Proc (Option String × Bool)}
    (h : ∀ s, (getPath s).Calls Op.Unowed) (resetCmd : RmgOptions → String) :
    (resetData getPath resetCmd event).Calls Op.Unowed := by
  refine calls_load_unowed.bind fun _ => (h _).bind fun r => ?_
  dsimp only
  split
  · trivial
  · exact ⟨trivial, fun _ => (calls_output_unowed ⟨rfl, rfl⟩).bind fun _ => calls_restart_unowed⟩

private theorem calls_meditation_unowed : (enterMeditation event).Calls Op.Unowed :=
  calls_load_unowed.bind fun _ => calls_output_unowed ⟨rfl, rfl⟩

private theorem calls_request_unowed (type : RmgMessageType) : (requestPrimary type event).Calls Op.Unowed :=
  calls_load_unowed.bind fun _ => ((calls_gAssertName _).bind fun _ => calls_pure _).bind fun _ =>
    ⟨trivial, fun _ => ((calls_gAssertName _).bind fun _ => calls_pure _).bind fun _ => ⟨trivial, fun _ => trivial⟩⟩

private theorem calls_platform_unowed : (doProcessPlatformRestartEventPrimary event).Calls Op.Unowed :=
  calls_load_unowed.bind fun _ => ⟨trivial, fun _ => (calls_output_unowed ⟨rfl, rfl⟩).bind fun _ =>
    calls_output_unowed ⟨rfl, rfl⟩⟩

private theorem calls_factory_unowed : (doProcessFactoryResetEventPrimary event).Calls Op.Unowed :=
  calls_load_unowed.bind fun _ => ⟨trivial, fun _ => (calls_output_unowed ⟨rfl, rfl⟩).bind fun _ =>
    calls_output_unowed ⟨rfl, rfl⟩⟩

private theorem calls_context_unowed : (contextRestartOnPrimary event).Calls Op.Unowed := by
  refine calls_load_unowed.bind fun e => ?_
  cases e.contextName with
  | none => exact calls_platform_unowed
  | some context =>
    refine calls_load_unowed.bind fun e => (calls_service_unowed _ _ _).bind fun r => ?_
    dsimp only
    split
    · trivial
    · exact calls_output_unowed ⟨rfl, rfl⟩

private theorem calls_contextReplica_unowed : (doProcessContextRestartEventReplica event).Calls Op.Unowed :=
  (calls_request_unowed _).bind fun st => by
    cases st with
    | ok => exact calls_meditation_unowed
    | error => trivial

private theorem calls_execute_unowed {type : ExecutorEventType} (h : type.isRecovery) :
    (executorSourceCallback type event).Calls Op.Unowed := by
  have hrequest : ∀ t, (do let _ ← requestPrimary t event : Proc PUnit).Calls Op.Unowed := fun t =>
    (calls_request_unowed t).bind fun _ => trivial
  cases type with
  | friendProcessCrash | friendServiceFailed => cases h
  | serviceRestart => exact calls_restart_unowed
  | serviceResetPublicData => exact calls_resetData_unowed (fun s => calls_service_unowed s _ _) _
  | serviceResetPrivateData => exact calls_resetData_unowed (fun s => calls_service_unowed s _ _) _
  | serviceDisable => exact calls_pure _
  | contextRestart => exact calls_onRunMode_unowed calls_context_unowed calls_contextReplica_unowed
  | platformRestart =>
    exact (calls_onRunMode_unowed calls_platform_unowed (hrequest _)).bind fun _ => calls_meditation_unowed
  | factoryReset =>
    exact (calls_onRunMode_unowed calls_factory_unowed (hrequest _)).bind fun _ => calls_meditation_unowed

private theorem calls_relaxtimer_unowed (t : RmgRelaxTimer) : (relaxtimerCallback t).Calls Op.Unowed := by
  refine (calls_service_unowed _ _ _).bind fun r => ?_
  dsimp only
  split
  · trivial
  split
  · refine Calls.bind ((calls_gAssertName _).bind fun _ => Calls.bind ⟨.inr ⟨_, _, rfl⟩, fun _ => trivial⟩ fun r => ?_)
      fun _ => trivial
    cases r <;> trivial
  · trivial

private theorem calls_push_unowed {d : RmgDEvent} {cause : Option Cause} {k : EventRef → Proc PUnit}
    (hk : PushesEvent k) :
    (Prog.call (.newEvent d cause) k : Proc PUnit).Calls Op.Unowed := by
  refine ⟨trivial, fun e => ?_⟩
  rcases hk e with h | ⟨msg, h⟩
  · rw [h]
    exact ⟨trivial, fun _ => trivial⟩
  · rw [h]
    exact (calls_output_unowed ⟨rfl, rfl⟩).bind fun _ => ⟨trivial, fun _ => trivial⟩

private theorem calls_client_unowed (sockfd : Nat) (msg : RmgMessage) :
    (clientProcessMessage sockfd msg).Calls Op.Unowed := by
  unfold clientProcessMessage
  split
  · exact ⟨trivial, fun _ => trivial⟩
  · exact calls_push_unowed fun _ => .inr ⟨msg, rfl⟩
  · exact calls_push_unowed fun _ => .inr ⟨msg, rfl⟩
  · exact calls_push_unowed fun _ => .inr ⟨msg, rfl⟩
  · exact calls_push_unowed fun _ => .inr ⟨msg, rfl⟩
  · trivial

private theorem calls_manager_unowed (msg : RmgMessage) : (managerProcessMessage msg).Calls Op.Unowed := by
  unfold managerProcessMessage
  split
  · exact calls_push_unowed fun _ => .inr ⟨msg, rfl⟩
  · exact calls_push_unowed fun _ => .inr ⟨msg, rfl⟩
  · trivial

end calls

/-! ### Notices -/

private theorem calls_doProcessFriendCrashEvent_looksUp (event : EventRef) (kind : RmgFriendType) :
    (doProcessFriendCrashEvent event kind).Calls Op.LooksUp := by
  refine Calls.bind ⟨trivial, fun _ => trivial⟩ fun e => Calls.bind ?_ fun r => ?_
  · refine (calls_gAssertName _).bind fun _ => (calls_gAssertName _).bind fun _ =>
      Calls.bind ⟨⟨_, _, _, rfl⟩, fun _ => trivial⟩ fun r => ?_
    cases r <;> trivial
  · dsimp only
    split
    · trivial
    · exact .forM fun _ _ => ⟨trivial, fun _ => trivial⟩

/-- With lookups that go through, the work on a notice is determined. -/
private theorem ended_of_friends {kind : RmgFriendType} {o : Outcome PUnit}
    (h : Exec machine (LookupsSucceed proxied) (doProcessFriendCrashEvent event kind) w o w') (ho : o ≠ .killed) :
    w' = (w.run (doProcessFriendCrashEvent event kind)).2 := by
  refine (h.eq_run machine true (calls_doProcessFriendCrashEvent_looksUp event kind) (fun op e s hop he => ?_) ho).2
  cases op with
  | sql q =>
    obtain ⟨friend, context, type, rfl⟩ := hop
    rw [show e = true from he.2]
  | load | timeoutAddSeconds => rfl
  | _ => exact hop.elim

/-- One more friend timer. -/
private theorem Owes.order (h : Owes proxied b owed w) (seconds : Nat) (timer : RmgFriendTimer) :
    Owes proxied b (owed ++ [(w.now + seconds, timer)]) (w.addTimeout seconds (.friend timer)) := by
  obtain ⟨expired, hexpired, hperm, ⟨asked, hactions, hasked⟩, hdue⟩ := h.orders
  have htimed := (clocked_apply (.timeoutAddSeconds seconds (.friend timer)) true w).timed h.timed
  refine ⟨h.friends, htimed, expired, (filterMap_snoc_none rfl _).trans hexpired, ?_,
    ⟨asked, (filterMap_snoc_none rfl _).trans hactions, hasked⟩, hdue⟩
  have hpending : (w.addTimeout seconds (.friend timer)).pendingOrders =
      w.pendingOrders ++ [(w.now + seconds, timer)] := by
    show (w.sources ++ [_]).filterMap GSource.order = _
    rw [List.filterMap_append]
    rfl
  rw [hpending, ← List.append_assoc]
  exact hperm.append_right _

/-- Each rule for the notice starts its timer. -/
private theorem Owes.rules (h : Owes proxied b owed w) (rows : List FriendRow) :
    ∃ w', w.run (List.forM (rows.map FriendRow.response) foreachServiceFriend) = (some ⟨⟩, w') ∧
      Owes proxied b (owed ++ rows.map fun r =>
        (w.now + guint r.delay, ⟨r.service, .ofCode r.action, r.argument⟩)) w' := by
  have hall : ∃ w', w.run (List.forM (rows.map FriendRow.response) foreachServiceFriend) = (some ⟨⟩, w') ∧
      (w'.now = w.now ∧ Owes proxied b (owed ++ (rows.map FriendRow.response).map fun y =>
        (w.now + guint y.delay, ⟨y.serviceName, y.action, y.argument⟩)) w') := by
    refine run_forM machine true (I := fun (ys : List RmgFriendResponseEntry) w' => w'.now = w.now ∧
      Owes proxied b (owed ++ ys.map fun y =>
        (w.now + guint y.delay, ⟨y.serviceName, y.action, y.argument⟩)) w') ?_ ⟨rfl, ?_⟩
    · rintro ys y zs w₁ - ⟨hnow, hy⟩
      refine ⟨_, rfl, hnow, ?_⟩
      rw [List.map_append, ← List.append_assoc, ← hnow]
      rw [← hnow] at hy
      exact hy.order (guint y.delay) ⟨y.serviceName, y.action, y.argument⟩
    · rw [List.map_nil, List.append_nil]
      exact h
  obtain ⟨w', hrun, -, hw'⟩ := hall
  refine ⟨w', hrun, ?_⟩
  rw [List.map_map] at hw'
  exact hw'

private theorem run_lookup_null (w : Instance) {name context : Option String} (kind : RmgFriendType)
    (h : name = none ∨ context = none) : w.run (rmgJournalGetServicesForFriend name context kind) = (none, w) := by
  rcases h with rfl | rfl
  · rfl
  · cases name <;> rfl

/-- What the executor is told, it looks up, and nothing comes of a null name. -/
private theorem Owes.friends_run (h : Owes proxied b owed w) (event : EventRef) (kind : RmgFriendType) :
    Owes proxied b (owed ++ b.journal.orders (⟨kind, if kind = .process then (w.heap event).processName else
      (w.heap event).serviceName, (w.heap event).contextName⟩, w.now))
        (w.run (doProcessFriendCrashEvent event kind)).2 := by
  have hload : w.run (load event) = (some (w.heap event), w) := rfl
  unfold doProcessFriendCrashEvent Journal.orders
  rw [run_bind hload, ← h.friends]
  dsimp only
  generalize (if kind = .process then (w.heap event).processName else (w.heap event).serviceName) = name
  generalize (w.heap event).contextName = context
  cases name with
  | none =>
    rw [run_bind_none (run_lookup_null w kind (.inl rfl))]
    simpa using h
  | some n =>
    cases context with
    | none =>
      rw [run_bind_none (run_lookup_null w kind (.inr rfl))]
      simpa using h
    | some c =>
      rw [run_bind (run_rmgJournalGetServicesForFriend w n c kind)]
      obtain ⟨w', hrun, hw'⟩ := h.rules (w.journal.friends.filter fun r => r.friend = n ∧ r.context = c ∧
        r.type = kind.code)
      dsimp only
      rw [if_neg Bool.false_ne_true, hrun]
      simpa using hw'

/-! ### Steps and runs -/

/-- A friend timer that has expired asks for its action, unless there is nothing to ask for or nobody to ask. -/
private theorem ended_of_friendtimer {timer : RmgFriendTimer} {o : Outcome PUnit}
    (h : Exec machine (LookupsSucceed proxied) (friendtimerCallback timer) w o w') (ho : o ≠ .killed) :
    (timer.acts → ¬ proxied) ∧ w' = w ∨ timer.acts ∧ w' = w.emit (.friendAction timer) := by
  have hsafe : Safe machine (LookupsSucceed proxied) (· = w) (friendtimerCallback timer) fun _ w' =>
      (timer.acts → ¬ proxied) ∧ w' = w ∨ timer.acts ∧ w' = w.emit (.friendAction timer) := by
    refine .call (R := fun sdManagerProxy w' => (proxied → sdManagerProxy = true) ∧ w' = w)
      (fun w' ok hok hw => ⟨hok, hw⟩) fun (sdManagerProxy : Bool) => .of_prop fun hproxy => ?_
    obtain ⟨service, action, argument⟩ := timer
    cases action with
    | unknown | invalid => exact .ret fun w' hw => .inl ⟨fun ha => absurd ha Bool.false_ne_true, hw⟩
    | start | stop | restart | signal =>
      cases sdManagerProxy with
      | false => exact .ret fun w' hw => .inl ⟨fun _ hp => absurd (hproxy hp) Bool.false_ne_true, hw⟩
      | true =>
        refine .perform fun w' _ _ hw => .inr ⟨rfl, ?_⟩
        rw [hw]
        rfl
  have := hsafe w o w' rfl h
  cases o with
  | done => exact this
  | aborted => exact this.elim
  | killed => exact absurd rfl ho

/-- What a source that goes leaves pending. -/
private theorem perm_pendingOrders (ht : w.Timed) {source : GSource} (hs : source ∈ w.sources) :
    w.pendingOrders.Perm (source.order.toList ++ (w.sources.filter (· ≠ source)).filterMap GSource.order) := by
  have herase : w.sources.erase source = w.sources.filter (· ≠ source) :=
    (ht.nodup.of_map.erase_eq_filter source).trans (List.filter_congr fun y _ => Bool.eq_iff_iff.2 (by simp))
  rw [← herase]
  refine ((List.perm_cons_erase hs).filterMap GSource.order).trans (.of_eq ?_)
  rw [List.filterMap_cons]
  cases source.order <;> rfl

/-- A timer that is due is passed on. -/
private theorem Owes.expire (h : Owes proxied b owed w) {source : GSource} (hs : source ∈ w.sources)
    (hd : source.deadline ≤ w.now) {o : Outcome PUnit}
    (hx : Exec machine (LookupsSucceed proxied) (timerCallback source.data)
      (({ w with sources := w.sources.filter (· ≠ source) } : Instance).emit (.timeoutExpired source)) o w')
    (ho : o ≠ .killed) : Owes proxied b owed w' := by
  obtain ⟨expired, hexpired, hperm, ⟨asked, hactions, hasked⟩, hdue⟩ := h.orders
  have hpending := perm_pendingOrders h.timed hs
  have htimed : ({ w with sources := w.sources.filter (· ≠ source) } : Instance).Timed :=
    ⟨(List.filter_sublist.map _).nodup h.timed.nodup, fun y hy => h.timed.lt y (List.mem_filter.1 hy).1⟩
  obtain ⟨id, deadline, data⟩ := source
  cases data with
  | relax timer =>
    have hstart : Owes proxied b owed (({ w with sources := w.sources.filter (· ≠ ⟨id, deadline, .relax timer⟩) } :
        Instance).emit (.timeoutExpired ⟨id, deadline, .relax timer⟩)) :=
      ⟨h.friends, ⟨htimed.nodup, htimed.lt⟩, expired, (filterMap_snoc_none rfl _).trans hexpired,
        (hpending.symm.append_left expired).trans hperm, ⟨asked, (filterMap_snoc_none rfl _).trans hactions, hasked⟩,
        hdue⟩
    have := triple_unowed (A := LookupsSucceed proxied) (calls_relaxtimer_unowed timer) _ _ _ hstart hx
    cases o <;> exact this
  | friend timer =>
    have hexpired' : (w.trace ++ [Output.timeoutExpired ⟨id, deadline, .friend timer⟩]).filterMap Output.expiredOrder =
        b.expiredOrders ++ (expired ++ [(deadline, timer)]) := by
      rw [List.filterMap_append, ← List.append_assoc, ← hexpired]
      rfl
    have hperm' : ((expired ++ [(deadline, timer)]) ++ (w.sources.filter
        (· ≠ ⟨id, deadline, .friend timer⟩)).filterMap GSource.order).Perm owed := by
      rw [List.append_assoc]
      exact (hpending.symm.append_left expired).trans hperm
    have hdue' : ∀ x ∈ expired ++ [(deadline, timer)], x.1 ≤ w.now := fun x hx => by
      rcases List.mem_append.1 hx with hx | hx
      · exact hdue x hx
      · rw [List.mem_singleton.1 hx]
        exact hd
    have hactions' : (w.trace ++ [Output.timeoutExpired ⟨id, deadline, .friend timer⟩]).filterMap Output.friendTimer =
        b.friendActions ++ asked :=
      (filterMap_snoc_none rfl _).trans hactions
    rcases ended_of_friendtimer hx ho with ⟨hskip, rfl⟩ | ⟨hacts, rfl⟩
    · exact ⟨h.friends, ⟨htimed.nodup, htimed.lt⟩, _, hexpired', hperm', ⟨asked, hactions', hasked.skip hskip⟩, hdue'⟩
    · refine ⟨h.friends, ⟨htimed.nodup, htimed.lt⟩, _, (filterMap_snoc_none rfl _).trans hexpired', hperm',
        ⟨asked ++ [timer], ?_, hasked.ask hacts⟩, hdue'⟩
      show (w.trace ++ [Output.timeoutExpired _] ++ [Output.friendAction timer]).filterMap Output.friendTimer = _
      rw [List.filterMap_append, hactions', List.append_assoc]
      rfl

private theorem owes_of_calls {A : Op → Bool → Prop} {p : Proc PUnit} (hp : p.Calls Op.Unowed) {o : Outcome PUnit}
    (hx : Exec machine A p w o w') (h : Owes proxied b owed w) : Owes proxied b owed w' := by
  have := triple_unowed (A := A) hp _ _ _ h hx
  cases o <;> exact this

/-- What a step is told, it adds to what is owed. -/
private theorem Owes.step (h : Owes proxied b owed w) (hl : ∀ gdir, l ≠ .restart gdir)
    (hs : StepUnder (LookupsSucceed proxied) glib w l w') :
    Owes proxied b (owed ++ (w.told l).flatMap b.journal.orders) w' := by
  obtain ⟨w₀, p, o, w₁, he, hx, ho, rfl⟩ := hs
  refine Owes.ended ?_ o
  have hnone : Owes proxied b owed w₁ → w.told l = [] →
      Owes proxied b (owed ++ (w.told l).flatMap b.journal.orders) w₁ := by
    intro hw ht
    rw [ht]
    exact hw.congr (.of_eq (List.append_nil _).symm)
  cases callback_of_enabled he with
  | crash service | restarted service => exact hnone (owes_of_calls (calls_push_unowed fun _ => .inl rfl) hx h) rfl
  | newCrash process context => exact hnone (owes_of_calls (calls_push_unowed fun _ => .inl rfl) hx h) rfl
  | fromReplica sockfd msg => exact hnone (owes_of_calls (calls_client_unowed sockfd msg) hx h) rfl
  | fromPrimary msg => exact hnone (owes_of_calls (calls_manager_unowed msg) hx h) rfl
  | @dispatch event queue hq =>
    have hstart : Owes proxied b owed { w with dispatcherQueue := queue } :=
      h.keep rfl ⟨h.timed.nodup, h.timed.lt⟩ rfl rfl rfl rfl
    have := triple_dispatch_unowed (A := LookupsSucceed proxied) event w.runMode _ _ _ ⟨hstart, rfl⟩ hx
    exact hnone (by cases o <;> exact this.1) rfl
  | @execute type event queue hq =>
    have hstart : Owes proxied b owed { w with executorQueue := queue } :=
      h.keep rfl ⟨h.timed.nodup, h.timed.lt⟩ rfl rfl rfl rfl
    have htold : w.told .execute = ((w.heap event).friendNotice type).toList.map fun n => (n, w.now) := by
      unfold told
      rw [hq]
      rfl
    cases type with
    | friendProcessCrash | friendServiceFailed =>
      rw [ended_of_friends hx ho, htold]
      exact (hstart.friends_run event _).congr (.of_eq (by simp [RmgDEvent.friendNotice]))
    | _ => exact hnone (owes_of_calls (calls_execute_unowed rfl) hx hstart) htold
  | expire hsource hd => exact hnone (h.expire hsource hd hx ho) rfl
  | tick =>
    refine hnone (owes_of_calls (calls_pure _) hx ?_) rfl
    obtain ⟨expired, hexpired, hperm, hactions, hdue⟩ := h.orders
    exact ⟨h.friends, ⟨h.timed.nodup, h.timed.lt⟩, expired, hexpired, hperm, hactions, fun x hx =>
      Nat.le_succ_of_le (hdue x hx)⟩
  | restart gdir => exact (hl gdir rfl).elim

theorem FaultyStep.timed (hs : FaultyStep glib w l w') (h : w.Timed) : w'.Timed := by
  refine hs.invariant (I := Timed) (fun w₀ p hc => ⟨?_, .of_calls (fun op e x _ _ hx =>
    (clocked_apply op e x).timed hx) (calls_true p)⟩) fun x hx => ⟨hx.nodup, hx.lt⟩
  cases hc with
  | expire => exact ⟨(List.filter_sublist.map _).nodup h.nodup, fun y hy => h.lt y (List.mem_filter.1 hy).1⟩
  | restart => exact ⟨List.nodup_nil, fun y hy => by cases hy⟩
  | _ => exact ⟨h.nodup, h.lt⟩

private theorem timed_of_fresh (h : w.Fresh) : w.Timed := by
  constructor
  · rw [h.sources]
    exact List.nodup_nil
  · rw [h.sources]
    exact fun y hy => by cases hy

private theorem owes_of_run {xs : List (Instance × Label)} (hb : b.Timed)
    (hr : Transition.Run (NotedStep (LookupsSucceed proxied) glib) b xs w) :
    Owes proxied b (b.pendingOrders ++ (xs.flatMap fun x => x.1.told x.2).flatMap b.journal.orders) w := by
  induction hr with
  | nil =>
    refine ⟨rfl, hb, [], (List.append_nil _).symm, ?_, ⟨[], (List.append_nil _).symm, asked_nil⟩,
      fun x hx => by cases hx⟩
    rw [List.flatMap_nil, List.flatMap_nil, List.append_nil]
    exact .refl _
  | @snoc xs t u x _ hs ih =>
    obtain ⟨rfl, hl, hs⟩ := hs
    rw [List.flatMap_append, List.flatMap_append, ← List.append_assoc, List.flatMap_singleton]
    exact ih.step hl hs

/-- In every run within the life of one process, in which every statement is read as it is meant, the lookups of friend
rules go through and any other statement and any send may fail: while the process is up, the notices that waited and
those that came in since are, in their order, those that the executor was told and those that still wait; what has
expired and what is pending are just the orders pending before and those that the rules in the tables have for what the
executor was told; none has expired before it was due; and what the service manager was asked to do are orders that
expired, in their order, and all of them if its proxy was there. -/
theorem orders_carried_out_once {w₀ : Instance} {ls : List Label} {xs : List (Instance × Label)} (h₀ : w₀.Fresh)
    (hr₀ : PlainRuns glib w₀ ls b) (hr : Transition.Run (NotedStep (LookupsSucceed proxied) glib) b xs w)
    (hrun : w.running) :
    b.unserved ++ b.unheard ++ xs.filterMap (fun x => x.2.heard b.hostName) =
      (xs.flatMap fun x => x.1.told x.2).map Prod.fst ++ (w.unserved ++ w.unheard) ∧
    ∃ expired asked, w.expiredOrders = b.expiredOrders ++ expired ∧
      (expired ++ w.pendingOrders).Perm
        (b.pendingOrders ++ (xs.flatMap fun x => x.1.told x.2).flatMap b.journal.orders) ∧
      (∀ x ∈ expired, x.1 ≤ w.now) ∧
      w.friendActions = b.friendActions ++ asked ∧
      asked.Sublist ((expired.map Prod.snd).filter RmgFriendTimer.acts) ∧
      (proxied → asked = (expired.map Prod.snd).filter RmgFriendTimer.acts) := by
  refine ⟨((told_of_run (awaits_of_runs h₀ hr₀.runs) hr).2 hrun).2, ?_⟩
  obtain ⟨expired, hexpired, hperm, ⟨asked, hactions, hasked⟩, hdue⟩ :=
    (owes_of_run (hr₀.runs.invariant (timed_of_fresh h₀) fun _ _ _ h hs => hs.timed h) hr).orders
  exact ⟨expired, asked, hexpired, hperm, hdue, hactions, hasked.sublist, hasked.all⟩

private theorem lookupsSucceed {op : Op} (h : ReadAsMeant op) : LookupsSucceed proxied op true := by
  unfold LookupsSucceed
  split
  · exact ⟨h, rfl⟩
  · exact h
  · exact fun _ => rfl
  · trivial

/-- A step in which all goes through. -/
private theorem Step.underPlain (hs : Step glib w l w') (hl : l.QuoteFree glib w.hostName) (hw : w.QuoteFree) :
    StepUnder (LookupsSucceed proxied) glib w l w' := by
  obtain ⟨w₀, p, o, w₁, he, hx, ho, rfl⟩ := hs.under allSucceed_true
  obtain ⟨-, -, hx⟩ := plain_exec (callback_of_enabled he) hx hl hw
  refine ⟨w₀, p, o, w₁, he, hx.mono fun op ok h => ?_, ho, rfl⟩
  rw [show ok = true from h.1]
  exact lookupsSucceed h.2

/-- The states that a replay goes through. -/
private theorem exists_noted {ls : List Label} (hr : Runs glib b ls w) (hb : b.QuoteFree)
    (hq : ∀ l ∈ ls, l.QuoteFree glib b.hostName) (hl : ∀ l ∈ ls, ∀ gdir, l ≠ .restart gdir) :
    ∃ xs, Transition.Run (NotedStep (LookupsSucceed proxied) glib) b xs w ∧ xs.map Prod.snd = ls := by
  induction hr with
  | nil => exact ⟨[], .nil, rfl⟩
  | @snoc ls t u l hr hs ih =>
    have hq' := fun l h => hq l (List.mem_append_left _ h)
    obtain ⟨xs, hxs, hmap⟩ := ih hq' fun l h => hl l (List.mem_append_left _ h)
    have hplain : PlainRuns glib b ls t := ⟨hb, hq', hr.mono fun _ _ _ => Step.faulty⟩
    obtain ⟨ht, hhost⟩ := hplain.quoteFree
    refine ⟨xs ++ [(t, l)], hxs.snoc ⟨rfl, hl l (by simp), hs.underPlain (hhost ▸ hq l (by simp)) ht⟩, ?_⟩
    rw [List.map_append, hmap]
    rfl

/-- A boot with one unit, whose rule is to restart the service ten seconds after the crash of a friend. -/
def befriended : Option Instance :=
  (initial .primary "host").replayed (blanking "dummyprocess1") [.restart (directory [friendUnit "dummyprocess1"])]

theorem befriended_isSome : befriended.isSome := by decide +kernel

/-- The friend crashes, and ten seconds go by. -/
def friendAwaited : List Label :=
  [.newCrash "dummyprocess1" "debian", .dispatch, .execute] ++ List.replicate 10 .tick ++ [.expire 0]

def friendServed : Option Instance :=
  (befriended.get befriended_isSome).replayed (blanking "dummyprocess1") friendAwaited

private theorem friendServed_isSome : friendServed.isSome := by decide +kernel

theorem orders_carried_out_once_of_friend : ∃ xs,
    Transition.Run (NotedStep (LookupsSucceed True) (blanking "dummyprocess1")) (befriended.get befriended_isSome) xs
      (friendServed.get friendServed_isSome) ∧
      (xs.flatMap fun x => x.1.told x.2).map Prod.fst = [⟨.process, some "dummyprocess1", some "debian"⟩] ∧
        List.Perm [(10, ⟨"a.service", .restart, 0⟩)]
          ((xs.flatMap fun x => x.1.told x.2).flatMap (befriended.get befriended_isSome).journal.orders) ∧
            (friendServed.get friendServed_isSome).friendActions = [⟨"a.service", .restart, 0⟩] := by
  have hb : PlainRuns (blanking "dummyprocess1") (initial .primary "host")
      [.restart (directory [friendUnit "dummyprocess1"])] (befriended.get befriended_isSome) :=
    ⟨quoteFree_initial .primary (by decide), by decide +kernel,
      (runs_of_replayed (Option.some_get befriended_isSome).symm).mono fun _ _ _ => Step.faulty⟩
  have hq : ∀ l ∈ friendAwaited,
      l.QuoteFree (blanking "dummyprocess1") (befriended.get befriended_isSome).hostName := by
    rw [hb.quoteFree.2]
    decide +kernel
  obtain ⟨xs, hxs, hlabels⟩ := @exists_noted True _ _ _ _
    (runs_of_replayed (Option.some_get friendServed_isSome).symm) hb.quoteFree.1 hq (by simp [friendAwaited])
  obtain ⟨htold, expired, asked, hexpired, hperm, -, hactions, -, hasked⟩ :=
    orders_carried_out_once (fresh_initial _ _) hb hxs (by decide +kernel)
  have hheard : xs.filterMap (fun x => x.2.heard (befriended.get befriended_isSome).hostName) =
      friendAwaited.filterMap (Label.heard (befriended.get befriended_isSome).hostName) := by
    rw [← hlabels, List.filterMap_map]
    rfl
  -- nothing waited before and nothing waits in the end
  have hwaiting : (befriended.get befriended_isSome).unserved ++ (befriended.get befriended_isSome).unheard = [] ∧
      (friendServed.get friendServed_isSome).unserved ++ (friendServed.get friendServed_isSome).unheard = [] ∧
        friendAwaited.filterMap (Label.heard (befriended.get befriended_isSome).hostName) =
          [⟨.process, some "dummyprocess1", some "debian"⟩] := by
    decide +kernel
  have hpending : (befriended.get befriended_isSome).pendingOrders = [] ∧
      (friendServed.get friendServed_isSome).pendingOrders = [] ∧
        (befriended.get befriended_isSome).expiredOrders = [] ∧
          (friendServed.get friendServed_isSome).expiredOrders = [(10, ⟨"a.service", .restart, 0⟩)] ∧
            (befriended.get befriended_isSome).friendActions = [] := by
    decide +kernel
  rw [hheard, hwaiting.1, hwaiting.2.1, hwaiting.2.2, List.append_nil, List.nil_append] at htold
  rw [hpending.2.2.1, hpending.2.2.2.1, List.nil_append] at hexpired
  rw [← hexpired, hpending.1, hpending.2.1, List.append_nil, List.nil_append] at hperm
  rw [hasked trivial, ← hexpired, hpending.2.2.2.2] at hactions
  exact ⟨xs, hxs, htold.symm, hperm, hactions⟩

end Instance

end RecoveryManager
