import RecoveryManager.Quotes
import RecoveryManager.Reception
import RecoveryManager.Traffic

/-!
# Names of the other instances

A name of no bytes is a null pointer.  It goes from the message into an event and from there, depending on the run mode,
to the setters of messages and to the journal, which assert that it is not null.  `survives_iff` says in which states a
message of another instance can abort this one, as long as no name has a quote (`PeerStep.plain`).
-/

namespace RecoveryManager

open Fallible Fallible.Prog

namespace Wire

open ByteStream

private theorem nameOf_overlay (size : Nat) (got : List Byte) :
    nameOf (overlay (List.replicate size 0) (got.take size)) = none ↔ size = 0 := by
  have hlen : (overlay (List.replicate size 0) (got.take size)).length = size := by
    rw [length_overlay, List.length_replicate]
    rw [List.length_replicate]
    exact List.length_take_le _ _
  unfold nameOf
  split
  · rename_i h
    rw [h] at hlen
    exact iff_of_true rfl hlen.symm
  · rename_i h
    exact iff_of_false nofun fun h0 => h (List.eq_nil_of_length_eq_zero (hlen.trans h0))

/-- The names of a message that has been read are null pointers exactly if their sizes are zero. -/
theorem received_names_eq_none_iff {c c' : Link} {d : RmgMessage} {name : List Byte → String} {cause : Cause}
    (h : Fallible.run Link.machine none rmgMessageRead c = (some (some d), c')) :
    (d.hdr.kind.arguments = [.serviceName, .contextName] →
      ((d.received name cause).serviceName = none ↔ d.hdr.sizeOfArg1 = 0) ∧
        ((d.received name cause).contextName = none ↔ d.hdr.sizeOfArg2 = 0)) ∧
    (d.hdr.kind.arguments = [.processName, .contextName] →
      ((d.received name cause).processName = none ↔ d.hdr.sizeOfArg1 = 0) ∧
        ((d.received name cause).contextName = none ↔ d.hdr.sizeOfArg2 = 0)) := by
  have hzero : ∀ x : BitVec 16, x.toNat = 0 ↔ x = 0 := fun x =>
    ⟨fun h => BitVec.eq_of_toNat_eq h, fun h => by rw [h]; rfl⟩
  have hfilled : ∀ a, d.hdr.kind.arguments = [a, .contextName] → ∃ got,
      d = ({ blank with hdr := d.hdr } : RmgMessage).filled
        [(a, d.hdr.sizeOfArg1.toNat), (.contextName, d.hdr.sizeOfArg2.toNat)] got := by
    intro a hargs
    have hsegments : d.hdr.segments = [(a, d.hdr.sizeOfArg1.toNat), (.contextName, d.hdr.sizeOfArg2.toNat)] := by
      rw [RmgMessageHdr.segments, hargs]
      rfl
    obtain ⟨-, -, ⟨hnone, -⟩ | ⟨-, -, hd, -⟩⟩ := read_inv h
    · rw [hsegments] at hnone
      cases hnone
    · rw [hsegments] at hd
      exact ⟨_, hd⟩
  constructor
  · intro hargs
    obtain ⟨got, hd⟩ := hfilled _ hargs
    constructor
    · rw [← hzero, ← nameOf_overlay d.hdr.sizeOfArg1.toNat got]
      conv_lhs => rw [RmgMessage.received, hd]
      exact Option.map_eq_none_iff
    · rw [← hzero, ← nameOf_overlay d.hdr.sizeOfArg2.toNat (got.drop d.hdr.sizeOfArg1.toNat)]
      conv_lhs => rw [RmgMessage.received, hd]
      exact Option.map_eq_none_iff
  · intro hargs
    obtain ⟨got, hd⟩ := hfilled _ hargs
    constructor
    · rw [← hzero, ← nameOf_overlay d.hdr.sizeOfArg1.toNat got]
      conv_lhs => rw [RmgMessage.received, hd]
      exact Option.map_eq_none_iff
    · rw [← hzero, ← nameOf_overlay d.hdr.sizeOfArg2.toNat (got.drop d.hdr.sizeOfArg1.toNat)]
      conv_lhs => rw [RmgMessage.received, hd]
      exact Option.map_eq_none_iff

end Wire

namespace Instance

variable {w w' w'' : Instance} {glib : GLib} {l : Label} {event : EventRef}

/-- The callback of the label can run into a failing assertion. -/
def Aborts (glib : GLib) (w : Instance) (l : Label) : Prop :=
  ∃ w₀ p w₁, w.enabled glib l = some (w₀, p) ∧ Exec machine (fun _ _ => True) p w₀ .aborted w₁

/-- What `rmg_message_read` accepts. -/
def Accepted (msg : RmgMessage) : Prop :=
  ∃ (name : List ByteStream.Byte → String) (cause : Cause) (c c' : Wire.Link) (d : Wire.RmgMessage),
    Fallible.run Wire.Link.machine none Wire.rmgMessageRead c = (some (some d), c') ∧ msg = d.received name cause

/-- The primary reads from its replicas, and a replica from the primary. -/
def MayRead (w : Instance) : Label → Prop
  | .fromReplica _ msg => w.runMode = .primary ∧ Accepted msg
  | .fromPrimary msg => w.runMode = .replica ∧ Accepted msg
  | _ => True

/-- Of what comes in, no name has a quote. -/
structure MayHappen (glib : GLib) (w : Instance) (l : Label) : Prop where
  quoteFree : l.QuoteFree glib w.hostName
  mayRead : w.MayRead l

/-- A step, after which clients come and go. -/
def PeerStep (glib : GLib) (w : Instance) (l : Label) (w' : Instance) : Prop :=
  MayHappen glib w l ∧ ∃ w₁ clients, FaultyStep glib w l w₁ ∧ w' = { w₁ with clients := clients }

/-- The failure of a service can be told to the other instances: all names are there, or there is nobody to tell. -/
def Tellable (w : Instance) (e : RmgDEvent) : Prop :=
  e.serviceName.isSome ∧ e.contextName.isSome ∨
    w.runMode = .primary ∧ ∀ c ∈ w.clients, c.contextName = e.contextName

/-- The journal can be asked for the friends of what has failed. -/
def Askable (type : ExecutorEventType) (e : RmgDEvent) : Prop :=
  match type with
  | .friendProcessCrash => e.processName.isSome ∧ e.contextName.isSome
  | .friendServiceFailed => e.serviceName.isSome ∧ e.contextName.isSome
  | _ => True

/-- The next events of the two queues have the names they need. -/
structure NamesReady (w : Instance) : Prop where
  dispatcher : ∀ event ∈ w.dispatcherQueue.head?, (w.heap event).type = .informServiceFailed →
    w.Tellable (w.heap event)
  executor : ∀ x ∈ w.executorQueue.head?, Askable x.1 (w.heap x.2)

/-! ### What the queues hold -/

/-- What holds of every event in the dispatcher queue. -/
structure Arrived (runMode : RmgRunMode) (e : RmgDEvent) : Prop where
  crash : e.type = .serviceCrashed → e.serviceName.isSome
  process : e.type = .informProcessCrash → runMode = .primary → e.processName.isSome ∧ e.contextName.isSome
  remote : e.type.remoteKind.isSome → runMode = .primary

/-- What holds of every event in the executor queue: only the primary is asked for an action, and then only for a
restart or a reset of a whole instance. -/
def Handed (runMode : RmgRunMode) (type : ExecutorEventType) (service : Option String) : Prop :=
  type.isRecovery → service.isSome ∨ runMode = .primary ∧ type.isRequest

structure Sound (w : Instance) : Prop where
  dispatcher : ∀ event ∈ w.dispatcherQueue, event < w.allocated ∧ Arrived w.runMode (w.heap event)
  executor : ∀ x ∈ w.executorQueue, x.2 < w.allocated ∧ Handed w.runMode x.1 (w.heap x.2).serviceName

/-- The state while an event is handled. -/
structure Handling (runMode : RmgRunMode) (event : EventRef) (service : Option String) (w : Instance) : Prop where
  sound : w.Sound
  allocated : event < w.allocated
  runMode_eq : w.runMode = runMode
  service_eq : (w.heap event).serviceName = service

/-- What is done while an event is handled. -/
def HandlingOp (runMode : RmgRunMode) (event : EventRef) (service : Option String) : Op → Prop
  | .pushExecutor type event' => event' = event ∧ Handed runMode type service
  | .setContextName event' name => event' = event ∧ name.isSome
  | .newEvent .. | .pushDispatcher _ | .setClientName .. => False
  | _ => True

variable {m : RmgRunMode} {s : Option String}

/-- Operations that leave events and queues alone. -/
def KeepsStore : Op → Prop
  | .newEvent .. | .setContextName .. | .pushDispatcher _ | .pushExecutor .. => False
  | _ => True

theorem sameStore_apply {op : Op} (h : KeepsStore op) (e : Bool) (w : Instance) : SameStore w (apply op e w).2 := by
  cases op with
  | sql q =>
    rcases apply_sql w q e with h' | ⟨j, -, h'⟩
    · rw [h']
      exact ⟨rfl, rfl, rfl, rfl, rfl, rfl⟩
    · rw [h', commit]
      split <;> exact ⟨rfl, rfl, rfl, rfl, rfl, rfl⟩
  | clientSend sockfd msg => cases e <;> exact ⟨rfl, rfl, rfl, rfl, rfl, rfl⟩
  | managerSend msg => cases e <;> exact ⟨rfl, rfl, rfl, rfl, rfl, rfl⟩
  | newEvent | setContextName | pushDispatcher | pushExecutor => exact h.elim
  | load | timeoutAddSeconds | getRunMode | getHostName | getOptions | getManagerProxy | getClients | setClientName
  | emit =>
    exact ⟨rfl, rfl, rfl, rfl, rfl, rfl⟩

private theorem runMode_of_sameStore (h : SameStore w w') : w'.runMode = w.runMode :=
  congrArg Identity.runMode h.identity

theorem Sound.congr (hw : w.Sound) (h : SameStore w w') : w'.Sound := by
  constructor
  · rw [h.dispatcherQueue, h.heap, h.allocated, runMode_of_sameStore h]
    exact hw.dispatcher
  · rw [h.executorQueue, h.heap, h.allocated, runMode_of_sameStore h]
    exact hw.executor

private theorem Handling.congr (hw : w.Handling m event s) (h : SameStore w w') : w'.Handling m event s where
  sound := hw.sound.congr h
  allocated := h.allocated ▸ hw.allocated
  runMode_eq := (runMode_of_sameStore h).trans hw.runMode_eq
  service_eq := by rw [h.heap, hw.service_eq]

/-- Events keep their service; a context is only ever written. -/
private theorem Sound.setContextName (h : w.Sound) {name : Option String} (hname : name.isSome) (event : EventRef) :
    (w.setContextName event name).Sound := by
  have hheap : ∀ event', (w.setContextName event name).heap event' = w.heap event' ∨
      (w.setContextName event name).heap event' = { w.heap event' with contextName := name } := by
    intro event'
    by_cases h : event' = event
    · subst h
      exact .inr (Function.update_self ..)
    · exact .inl (Function.update_of_ne h ..)
  constructor
  · intro event' hmem
    obtain ⟨hlt, ha⟩ := h.dispatcher event' hmem
    refine ⟨hlt, ?_⟩
    rcases hheap event' with e | e
    · rw [e]
      exact ha
    · rw [e]
      exact ⟨ha.crash, fun ht hm => ⟨(ha.process ht hm).1, hname⟩, ha.remote⟩
  · intro x hmem
    obtain ⟨hlt, hx⟩ := h.executor x hmem
    refine ⟨hlt, ?_⟩
    rcases hheap x.2 with e | e
    · rw [e]
      exact hx
    · rw [e]
      exact hx

private theorem Handling.apply {op : Op} {e : Bool} (hop : HandlingOp m event s op) (h : w.Handling m event s) :
    (apply op e w).2.Handling m event s := by
  cases op with
  | pushExecutor type event' =>
    obtain ⟨rfl, hpush⟩ := hop
    refine ⟨⟨h.sound.dispatcher, ?_⟩, h.allocated, h.runMode_eq, h.service_eq⟩
    intro x hmem
    rcases List.mem_append.1 hmem with hmem | hmem
    · exact h.sound.executor x hmem
    · obtain rfl := List.mem_singleton.1 hmem
      refine ⟨h.allocated, ?_⟩
      show Handed w.runMode type (w.heap event').serviceName
      rw [h.runMode_eq, h.service_eq]
      exact hpush
  | setContextName event' name =>
    obtain ⟨rfl, hname⟩ := hop
    refine ⟨h.sound.setContextName hname event', h.allocated, h.runMode_eq, ?_⟩
    rw [← h.service_eq]
    show (Function.update w.heap event' { w.heap event' with contextName := name } event').serviceName = _
    rw [Function.update_self]
  | newEvent | pushDispatcher | setClientName => exact hop.elim
  | sql | clientSend | managerSend | load | getRunMode | getHostName | getOptions | getManagerProxy | getClients
  | timeoutAddSeconds | emit =>
    refine h.congr (sameStore_apply ?_ e w)
    trivial

/-! ### What the callbacks do -/

private theorem handlingOp_of_aside {op : Op} (h : op.Aside) : HandlingOp m event s op := by
  cases op <;> trivial

private theorem handlingOp_of_informs {op : Op} {type : ExecutorEventType} (h : op.Informs type event)
    (ht : type.isRecovery = false) : HandlingOp m event s op := by
  cases op with
  | pushExecutor type' event' =>
    obtain ⟨rfl, rfl⟩ := h
    exact ⟨rfl, fun hr => absurd hr (by rw [ht]; exact Bool.false_ne_true)⟩
  | _ => trivial

private theorem calls_load_handling (event' : EventRef) : (load event').Calls (HandlingOp m event s) :=
  ⟨trivial, fun _ => trivial⟩

private theorem calls_output_handling (o : Output) : (output o).Calls (HandlingOp m event s) :=
    ⟨trivial, fun _ => trivial⟩

private theorem calls_rmgJournalSetRvector_handling (service : Option String) (v : Int) :
    (rmgJournalSetRvector service v).Calls (HandlingOp m event s) :=
  (calls_gAssertName _).bind fun _ => Calls.bind ⟨trivial, fun _ => trivial⟩ fun r => by cases r <;> trivial

private theorem calls_getServiceColumn_handling {α : Type} (service : Option String) (response : α)
    (column : ServiceRow → α) : (getServiceColumn service response column).Calls (HandlingOp m event s) :=
  (calls_getServiceColumn _ _ _).mono fun _ h => handlingOp_of_aside h.2

private theorem calls_getActionColumn_handling {α : Type} (service : Option String) (response : α)
    (column : ActionRow → α) : (getActionColumn service response column).Calls (HandlingOp m event s) :=
  (calls_getActionColumn _ _ _).mono fun _ h => handlingOp_of_aside h.2

private theorem calls_performAction_handling (hs : s.isSome) (type : RmgActionType) (reset : Bool) :
    (performAction type reset event).Calls (HandlingOp m event s) := by
  have hpush : ∀ type, (rmgExecutorPushEvent type event).Calls (HandlingOp m event s) := fun _ =>
    ⟨⟨rfl, fun _ => .inl hs⟩, fun _ => trivial⟩
  have hreset : (resetRvector event).Calls (HandlingOp m event s) :=
    (calls_load_handling event).bind fun _ => (calls_rmgJournalSetRvector_handling _ _).bind fun _ => trivial
  have hrelax : (doRelaxtimerStart event).Calls (HandlingOp m event s) :=
    (calls_load_handling event).bind fun _ =>
      ((calls_rmgRelaxtimerTrigger _).mono fun _ h => handlingOp_of_aside h.2).bind fun _ => trivial
  unfold performAction
  cases type with
  | serviceIgnore => exact hreset
  | serviceReset | publicDataReset | privateDataReset | serviceDisable =>
    refine (hpush _).bind fun _ => ?_
    cases reset
    · exact hrelax
    · exact hreset
  | contextReset | platformRestart =>
    refine Calls.bind ?_ fun _ => hpush _
    cases reset
    · trivial
    · exact hreset
  | factoryReset => exact hpush _
  | invalid | guruMeditation => trivial

private theorem calls_informServiceFailed_handling : (informServiceFailed event).Calls (HandlingOp m event s) :=
  ⟨trivial, fun _ => ⟨⟨rfl, rfl⟩, fun _ =>
    (calls_doFriendServiceFailedEvent event).mono fun _ h => handlingOp_of_informs h rfl⟩⟩

private theorem calls_doProcessServiceCrashEvent (hs : s.isSome) :
    (doProcessServiceCrashEvent event).Calls (HandlingOp m event s) := by
  have hescalate : ∀ v, (escalate event v).Calls (HandlingOp m event s) := by
    intro v
    refine (calls_load_handling event).bind fun e => (calls_getActionColumn_handling _ _ _).bind fun r => ?_
    dsimp only
    split
    · trivial
    · refine (calls_getActionColumn_handling _ _ _).bind fun r' => Calls.bind ?_ fun _ =>
        (calls_performAction_handling hs _ _).bind fun _ => calls_informServiceFailed_handling
      unfold reportAction
      split
      · exact calls_output_handling _
      · trivial
  refine (calls_load_handling event).bind fun e => (calls_getServiceColumn_handling _ _ _).bind fun r => ?_
  dsimp only
  split
  · trivial
  · split
    · exact calls_output_handling _
    · refine (calls_getServiceColumn_handling _ _ _).bind fun r' => ?_
      split
      · trivial
      · refine (calls_rmgJournalSetRvector_handling _ _).bind fun st => ?_
        cases st with
        | error => trivial
        | ok => exact hescalate _

/-- A new event is put into the queue. -/
private theorem triple_arrive {e : RmgDEvent} {cause : Option Cause} {k : EventRef → Proc PUnit} (he : Arrived m e)
    (hk : ∀ event, (k event = .call (.pushDispatcher event) .ret) ∨
      ∃ o, k event = .call (.emit o) fun _ => .call (.pushDispatcher event) .ret) :
    Triple machine (fun _ _ => True) (fun w => w.Sound ∧ w.runMode = m) (.call (.newEvent e cause) k) (fun _ => Sound)
      Sound := by
  have hpush : ∀ event, Triple machine (fun _ _ => True)
      (fun w => w.Sound ∧ event < w.allocated ∧ Arrived w.runMode (w.heap event)) (.call (.pushDispatcher event) .ret)
      (fun _ => Sound) Sound := by
    intro event
    refine .call (R := fun _ => Sound) (fun _ h => h.1) ?_ fun _ => .ret fun _ h => h
    rintro w e - ⟨hw, hlt, ha⟩
    refine ⟨fun event' hmem => ?_, hw.executor⟩
    rcases List.mem_append.1 hmem with hmem | hmem
    · exact hw.dispatcher event' hmem
    · obtain rfl := List.mem_singleton.1 hmem
      exact ⟨hlt, ha⟩
  refine .call (R := fun (event : EventRef) w => w.Sound ∧ event < w.allocated ∧ Arrived w.runMode (w.heap event))
    (fun _ h => h.1) ?_ fun (event : EventRef) => ?_
  · rintro w e' - ⟨hw, hm⟩
    have hheap : ∀ event < w.allocated, (w.alloc e cause).heap event = w.heap event := fun event h =>
      Function.update_of_ne (Nat.ne_of_lt h) ..
    refine ⟨⟨fun event hmem => ?_, fun x hmem => ?_⟩, Nat.lt_succ_self _, ?_⟩
    · obtain ⟨hlt, ha⟩ := hw.dispatcher event hmem
      refine ⟨Nat.lt_succ_of_lt hlt, ?_⟩
      show Arrived w.runMode ((w.alloc e cause).heap event)
      rw [hheap event hlt]
      exact ha
    · obtain ⟨hlt, hx⟩ := hw.executor x hmem
      refine ⟨Nat.lt_succ_of_lt hlt, ?_⟩
      show Handed w.runMode x.1 ((w.alloc e cause).heap x.2).serviceName
      rw [hheap x.2 hlt]
      exact hx
    · show Arrived w.runMode ((w.alloc e cause).heap w.allocated)
      have hnew : (w.alloc e cause).heap w.allocated = { e with cause := cause.getD ⟨w.ident, w.allocated⟩ } :=
        Function.update_self ..
      rw [hm, hnew]
      exact ⟨he.crash, he.process, he.remote⟩
  · rcases hk event with hk | ⟨o, hk⟩
    · rw [hk]
      exact hpush event
    · rw [hk]
      refine .call (R := fun _ w => w.Sound ∧ (event : EventRef) < w.allocated ∧ Arrived w.runMode (w.heap event))
        (fun _ h => h.1) ?_ fun _ => hpush event
      rintro w e' - ⟨hw, hlt, ha⟩
      exact ⟨hw.congr (@sameStore_apply (.emit o) trivial e' w), hlt, ha⟩

/-- What holds of an event that comes in is enough for what its handling puts into the executor queue. -/
private theorem triple_dispatch {e : RmgDEvent} (he : Arrived m e) :
    Triple machine (fun _ _ => True) (fun w => w.heap event = e ∧ w.Handling m event e.serviceName)
      (dispatcherSourceCallback event) (fun _ => Sound) Sound := by
  have key : ∀ {p : Proc PUnit}, p.Calls (HandlingOp m event e.serviceName) →
      Triple machine (fun _ _ => True) (Handling m event e.serviceName) p (fun _ => Sound) Sound := fun hp =>
    (Triple.of_calls (fun op e' w hop _ hw => hw.apply hop) hp).weaken (fun _ h => h) (fun _ _ h => h.sound)
      fun _ h => h.sound
  refine Triple.bind (Q := fun r w => r = e ∧ w.Handling m event e.serviceName)
    (.perform (fun _ h => h.2.sound) ?_) fun r => ?_
  · rintro w e' - ⟨rfl, hw⟩
    exact ⟨rfl, hw⟩
  · refine Triple.of_prop ?_
    rintro rfl
    have hremote : ∀ kind, r.type.remoteKind = some kind → kind.isRequest →
        (rmgExecutorPushEvent kind event).Calls (HandlingOp m event r.serviceName) := fun kind hkind hrequest =>
      ⟨⟨rfl, fun _ => .inr ⟨he.remote (by rw [hkind]; rfl), hrequest⟩⟩, fun _ => trivial⟩
    cases ht : r.type with
    | informProcessCrash =>
      exact key ((calls_doFriendProcessCrashEvent event).mono fun _ h =>
        handlingOp_of_informs h rfl)
    | informServiceFailed =>
      exact key ((calls_doFriendServiceFailedEvent event).mono fun _ h => handlingOp_of_informs h rfl)
    | serviceCrashed =>
      exact key ((calls_output_handling _).bind fun _ => calls_doProcessServiceCrashEvent (he.crash ht))
    | remoteContextRestart => exact key (hremote .contextRestart (by rw [ht]; rfl) rfl)
    | remotePlatformRestart => exact key (hremote .platformRestart (by rw [ht]; rfl) rfl)
    | remoteFactoryReset => exact key (hremote .factoryReset (by rw [ht]; rfl) rfl)
    | serviceRestarted | unknown => exact .ret fun _ h => h.sound

private theorem triple_keepsStore {p : Proc PUnit} (hp : p.Calls KeepsStore) :
    Triple machine (fun _ _ => True) Sound p (fun _ => Sound) Sound :=
  Triple.of_calls (fun _ e w hop _ hw => hw.congr (sameStore_apply hop e w)) hp

private theorem keepsStore_of_aside {op : Op} (h : op.Aside) : KeepsStore op := by
  cases op <;> trivial

private theorem keepsStore_of_executes {op : Op} (h : op.Executes) : KeepsStore op := by
  rcases h with h | ⟨msg, rfl⟩
  · exact keepsStore_of_aside h.2
  · trivial

private theorem triple_clientProcessMessage_sound (sockfd : Nat) (msg : RmgMessage) (hm : m = .primary) :
    Triple machine (fun _ _ => True) (fun w => w.Sound ∧ w.runMode = m) (clientProcessMessage sockfd msg)
      (fun _ => Sound) Sound := by
  have hpush : ∀ type, type ≠ .serviceCrashed → type ≠ .informProcessCrash →
      Triple machine (fun _ _ => True) (fun w => w.Sound ∧ w.runMode = m) (pushServiceEvent type msg)
        (fun _ => Sound) Sound := fun type hc hp =>
    triple_arrive ⟨fun h => absurd h hc, fun h => absurd h hp, fun _ => hm⟩ fun event => .inr ⟨_, rfl⟩
  unfold clientProcessMessage
  cases msg.type with
  | replicaDescriptor =>
    refine (triple_keepsStore ?_).weaken (fun _ h => h.1) (fun _ _ h => h) fun _ h => h
    exact ⟨trivial, fun _ => trivial⟩
  | requestContextRestart | requestPlatformRestart | requestFactoryReset | informPrimaryServiceFailed =>
    exact hpush _ nofun nofun
  | _ => exact .ret fun _ h => h.1

private theorem triple_managerProcessMessage_sound (msg : RmgMessage) (hm : m = .replica) :
    Triple machine (fun _ _ => True) (fun w => w.Sound ∧ w.runMode = m) (managerProcessMessage msg)
      (fun _ => Sound) Sound := by
  unfold managerProcessMessage
  cases msg.type with
  | informProcessCrash =>
    exact triple_arrive ⟨nofun, fun _ hprimary => absurd (hm.symm.trans hprimary) (by decide), nofun⟩ fun event =>
      .inr ⟨_, rfl⟩
  | informClientServiceFailed => exact triple_arrive ⟨nofun, nofun, nofun⟩ fun event => .inr ⟨_, rfl⟩
  | _ => exact .ret fun _ h => h.1

/-- What the queues hold stays as it should be, whatever the other instances send. -/
theorem PeerStep.sound (h : PeerStep glib w l w') (hw : w.Sound) : w'.Sound := by
  obtain ⟨hmay, w₁, clients, hstep, rfl⟩ := h
  have hsound : w₁.Sound := by
    refine (or_iff_left_of_imp ?_).1 (hstep.ends (Q := Sound) (C := Sound) fun w₀ p hc => ?_)
    · rintro ⟨w₂, h, rfl⟩
      exact ⟨h.dispatcher, h.executor⟩
    · cases hc with
      | crash service =>
        exact ⟨_, ⟨hw, rfl⟩, triple_arrive ⟨fun _ => rfl, nofun, nofun⟩ fun event => .inl rfl⟩
      | restarted service =>
        exact ⟨_, ⟨hw, rfl⟩, triple_arrive ⟨nofun, nofun, nofun⟩ fun event => .inl rfl⟩
      | newCrash process context =>
        exact ⟨_, ⟨hw, rfl⟩, triple_arrive ⟨nofun, fun _ _ => ⟨rfl, rfl⟩, nofun⟩ fun event => .inl rfl⟩
      | fromReplica sockfd msg => exact ⟨_, ⟨hw, rfl⟩, triple_clientProcessMessage_sound sockfd msg hmay.mayRead.1⟩
      | fromPrimary msg => exact ⟨_, ⟨hw, rfl⟩, triple_managerProcessMessage_sound msg hmay.mayRead.1⟩
      | @dispatch event queue hq =>
        obtain ⟨hlt, ha⟩ := hw.dispatcher event (by rw [hq]; exact List.mem_cons_self)
        have hrest : ({ w with dispatcherQueue := queue } : Instance).Sound :=
          ⟨fun event' hmem => hw.dispatcher event' (by rw [hq]; exact List.mem_cons_of_mem _ hmem), hw.executor⟩
        exact ⟨_, ⟨rfl, hrest, hlt, rfl, rfl⟩, triple_dispatch ha⟩
      | @execute type event queue hq =>
        refine ⟨_, ⟨hw.dispatcher, fun x hmem => ?_⟩,
          triple_keepsStore ((calls_executorSourceCallback type event).mono fun _ => keepsStore_of_executes)⟩
        exact hw.executor x (by rw [hq]; exact List.mem_cons_of_mem _ hmem)
      | expire hsource hdeadline =>
        exact ⟨_, ⟨hw.dispatcher, hw.executor⟩,
          triple_keepsStore ((calls_timerCallback _).mono fun _ => keepsStore_of_aside)⟩
      | tick => exact ⟨_, ⟨hw.dispatcher, hw.executor⟩, .ret fun _ h => h⟩
      | restart gdir =>
        refine ⟨_, ⟨fun event hmem => absurd hmem List.not_mem_nil, fun x hmem => absurd hmem List.not_mem_nil⟩,
          triple_keepsStore ((calls_boot glib gdir).mono fun _ => keepsStore_of_aside)⟩
  exact ⟨hsound.dispatcher, hsound.executor⟩

/-! ### Callbacks that meet no failing assertion -/

/-- Operations that keep events, clients and the run mode. -/
def Steady : Op → Prop
  | .newEvent .. | .setContextName .. | .setClientName .. => False
  | _ => True

/-- The answers of the operations in a state. -/
def Sees (w : Instance) : (op : Op) → op.Res → Prop
  | .load event, r => r = w.heap event
  | .getRunMode, r => r = w.runMode
  | .getClients, r => r = w.clients
  | _, _ => True

private theorem apply_steady {op : Op} (hop : Steady op) (e : Bool) (w : Instance) :
    Sees w op (apply op e w).1 ∧ (apply op e w).2.heap = w.heap ∧ (apply op e w).2.runMode = w.runMode ∧
      (apply op e w).2.clients = w.clients := by
  cases op with
  | sql q =>
    rcases apply_sql w q e with h' | ⟨j, -, h'⟩
    · rw [h']
      exact ⟨trivial, rfl, rfl, rfl⟩
    · rw [h', commit]
      split <;> exact ⟨trivial, rfl, rfl, rfl⟩
  | clientSend sockfd msg => cases e <;> exact ⟨trivial, rfl, rfl, rfl⟩
  | managerSend msg => cases e <;> exact ⟨trivial, rfl, rfl, rfl⟩
  | load | getRunMode | getClients => exact ⟨rfl, rfl, rfl, rfl⟩
  | newEvent | setContextName | setClientName => exact hop.elim
  | pushDispatcher | pushExecutor | timeoutAddSeconds | getHostName | getOptions | getManagerProxy | emit =>
    exact ⟨trivial, rfl, rfl, rfl⟩

/-- No abort when the answers that the state gives do not lead to one. -/
private theorem not_aborted_of_avoids {p : Proc PUnit} (hp : p.Calls Steady) (ha : p.Avoids (Sees w)) :
    ¬ Exec machine (fun _ _ => True) p w .aborted w' := by
  intro h
  have hsafe : Safe machine (fun _ _ => True)
      (fun w' => w'.heap = w.heap ∧ w'.runMode = w.runMode ∧ w'.clients = w.clients) p
      fun _ w' => w'.heap = w.heap ∧ w'.runMode = w.runMode ∧ w'.clients = w.clients := by
    refine Safe.of_calls (R := Sees w) (fun op e w' hop _ hw => ?_) hp ha
    obtain ⟨hheap, hmode, hclients⟩ := hw
    obtain ⟨hsees, hheap', hmode', hclients'⟩ := apply_steady hop e w'
    refine ⟨?_, hheap'.trans hheap, hmode'.trans hmode, hclients'.trans hclients⟩
    cases op with
    | load event => exact hsees.trans (congrFun hheap event)
    | getRunMode => exact hsees.trans hmode
    | getClients => exact hsees.trans hclients
    | _ => trivial
  exact hsafe w .aborted w' ⟨rfl, rfl, rfl⟩ h

section avoids
variable {α β : Type} {K : (op : Op) → op.Res → Prop}

private theorem avoids_load {k : RmgDEvent → Proc α} (h : (k (w.heap event)).Avoids (Sees w)) :
    (load event >>= k).Avoids (Sees w) := by
  rintro _ rfl
  exact h

private theorem avoids_onRunMode {primary replica : Proc α} (hp : w.runMode = .primary → primary.Avoids (Sees w))
    (hr : w.runMode = .replica → replica.Avoids (Sees w)) : (onRunMode primary replica).Avoids (Sees w) := by
  rintro r hmode
  cases r with
  | primary => exact hp hmode.symm
  | replica => exact hr hmode.symm

private theorem avoids_gAssertName {name : Option String} (h : name.isSome) : (gAssertName name).Avoids K := by
  obtain ⟨n, rfl⟩ := Option.isSome_iff_exists.1 h
  trivial

private theorem avoids_setServiceName {name : Option String} (h : name.isSome) (msg : RmgMessage) :
    (rmgMessageSetServiceName msg name).Avoids K :=
  (avoids_gAssertName h).bind fun _ => avoids_pure _

private theorem avoids_setContextName {name : Option String} (h : name.isSome) (msg : RmgMessage) :
    (rmgMessageSetContextName msg name).Avoids K :=
  (avoids_gAssertName h).bind fun _ => avoids_pure _

private theorem avoids_getServiceColumn {service : Option String} (h : service.isSome) (response : α)
    (column : ServiceRow → α) : (getServiceColumn service response column).Avoids K :=
  (avoids_gAssertName h).bind fun _ => Avoids.bind (fun _ _ => trivial) fun r => by cases r <;> trivial

private theorem avoids_getActionColumn {service : Option String} (h : service.isSome) (response : α)
    (column : ActionRow → α) : (getActionColumn service response column).Avoids K :=
  (avoids_gAssertName h).bind fun _ => (avoids_getServiceColumn h _ _).bind fun _ =>
    Avoids.bind (fun _ _ => trivial) fun r => by cases r <;> trivial

private theorem avoids_rmgJournalSetRvector {service : Option String} (h : service.isSome) (v : Int) :
    (rmgJournalSetRvector service v).Avoids K :=
  (avoids_gAssertName h).bind fun _ => Avoids.bind (fun _ _ => trivial) fun r => by cases r <;> trivial

private theorem avoids_rmgRelaxtimerTrigger {service : Option String} (h : service.isSome) :
    (rmgRelaxtimerTrigger service).Avoids K := by
  refine (avoids_gAssertName h).bind fun _ => (avoids_getServiceColumn h _ _).bind fun r => ?_
  dsimp only
  split
  · trivial
  · refine (avoids_getServiceColumn h _ _).bind fun r' => ?_
    split
    · trivial
    · exact fun _ _ => trivial

private theorem avoids_foreachClient {callback : RmgClient → Proc PUnit}
    (h : ∀ c ∈ w.clients, (callback c).Avoids (Sees w)) : (foreachClient callback).Avoids (Sees w) := by
  rintro _ rfl
  exact Avoids.forM h

private theorem avoids_doFriendServiceFailedEvent (h : w.Tellable (w.heap event)) :
    (doFriendServiceFailedEvent event).Avoids (Sees w) := by
  refine Avoids.bind (avoids_onRunMode ?_ ?_) fun _ => ?_
  · intro _
    refine avoids_foreachClient fun c hc => avoids_load ?_
    split
    · rename_i hne
      obtain ⟨hs, hcontext⟩ : (w.heap event).serviceName.isSome ∧ (w.heap event).contextName.isSome := by
        rcases h with h | h
        · exact h
        · exact absurd (h.2 c hc) hne
      exact (avoids_setServiceName hs _).bind fun _ => (avoids_setContextName hcontext _).bind fun _ =>
        Avoids.bind (fun _ _ => trivial) fun _ => trivial
    · trivial
  · intro hreplica
    obtain ⟨hs, hcontext⟩ : (w.heap event).serviceName.isSome ∧ (w.heap event).contextName.isSome := by
      rcases h with h | h
      · exact h
      · exact absurd (hreplica.symm.trans h.1) (by decide)
    exact avoids_load ((avoids_setServiceName hs _).bind fun _ => (avoids_setContextName hcontext _).bind fun _ =>
      Avoids.bind (fun _ _ => trivial) fun _ => trivial)
  · refine Avoids.bind (fun _ _ => trivial) fun _ => Avoids.bind (fun _ _ => trivial) fun e => ?_
    split
    · exact fun _ _ => trivial
    · trivial

private theorem avoids_doFriendProcessCrashEvent
    (h : w.runMode = .primary → (w.heap event).processName.isSome ∧ (w.heap event).contextName.isSome) :
    (doFriendProcessCrashEvent event).Avoids (Sees w) := by
  refine Avoids.bind (avoids_onRunMode ?_ fun _ => trivial) fun _ => fun _ _ => trivial
  intro hprimary
  obtain ⟨hp, hcontext⟩ := h hprimary
  refine avoids_foreachClient fun c _ => avoids_load ?_
  exact Avoids.bind ((avoids_gAssertName hp).bind fun _ => trivial) fun _ =>
    (avoids_setContextName hcontext _).bind fun _ => Avoids.bind (fun _ _ => trivial) fun _ => trivial

private theorem avoids_resetData {getPath : Option String → Proc (Option String × Bool)}
    (h : (getPath (w.heap event).serviceName).Avoids (Sees w)) (resetCmd : RmgOptions → String) :
    (resetData getPath resetCmd event).Avoids (Sees w) := by
  refine avoids_load (h.bind fun r => ?_)
  dsimp only
  split
  · trivial
  · exact Avoids.bind (fun _ _ => trivial) fun _ => Avoids.bind (fun _ _ => trivial) fun _ =>
      Avoids.bind (fun _ _ => trivial) fun _ => fun _ _ => trivial

private theorem avoids_doProcessFriendCrashEvent {type : RmgFriendType}
    (h : (if type = .process then (w.heap event).processName else (w.heap event).serviceName).isSome)
    (hcontext : (w.heap event).contextName.isSome) : (doProcessFriendCrashEvent event type).Avoids (Sees w) := by
  refine avoids_load (Avoids.bind ?_ fun r => ?_)
  · exact (avoids_gAssertName h).bind fun _ => (avoids_gAssertName hcontext).bind fun _ =>
      Avoids.bind (fun _ _ => trivial) fun r => by cases r <;> trivial
  · dsimp only
    split
    · trivial
    · exact Avoids.forM fun _ _ => fun _ _ => trivial

/-- A request to the primary needs the service it is made for. -/
private theorem avoids_requestPrimary (h : (w.heap event).serviceName.isSome) (type : RmgMessageType) :
    (requestPrimary type event).Avoids (Sees w) :=
  avoids_load ((avoids_setServiceName h _).bind fun _ => Avoids.bind (fun _ _ => trivial) fun _ =>
    (avoids_setContextName rfl _).bind fun _ => fun _ _ => trivial)

private theorem avoids_enterMeditation : (enterMeditation event).Avoids (Sees w) := avoids_load fun _ _ => trivial

private theorem avoids_executorSourceCallback {type : ExecutorEventType} (hask : Askable type (w.heap event))
    (hhanded : Handed w.runMode type (w.heap event).serviceName) :
    (executorSourceCallback type event).Avoids (Sees w) := by
  -- a replica has the service, and the primary only needs it for what is not a request
  have hservice : type.isRecovery → w.runMode = .replica ∨ type.isRequest = false →
      (w.heap event).serviceName.isSome := by
    intro hr h
    rcases hhanded hr with hs | ⟨hprimary, hrequest⟩
    · exact hs
    · rcases h with h | h
      · exact absurd (h.symm.trans hprimary) (by decide)
      · exact absurd hrequest (by rw [h]; exact Bool.false_ne_true)
  have hspawn : ∀ (f : RmgDEvent → Output) (g : RmgOptions → Output), (do
      let e ← load event
      let options : RmgOptions ← Prog.call .getOptions .ret
      output (f e)
      output (g options) : Proc PUnit).Avoids (Sees w) := fun f g =>
    Avoids.bind (fun _ _ => trivial) fun _ => Avoids.bind (fun _ _ => trivial) fun _ =>
      Avoids.bind (fun _ _ => trivial) fun _ => fun _ _ => trivial
  cases type with
  | friendProcessCrash => exact avoids_doProcessFriendCrashEvent hask.1 hask.2
  | friendServiceFailed => exact avoids_doProcessFriendCrashEvent hask.1 hask.2
  | serviceRestart => exact avoids_load fun _ _ => trivial
  | serviceResetPublicData => exact avoids_resetData (avoids_getServiceColumn (hservice rfl (.inr rfl)) _ _) _
  | serviceResetPrivateData => exact avoids_resetData (avoids_getServiceColumn (hservice rfl (.inr rfl)) _ _) _
  | serviceDisable => trivial
  | contextRestart =>
    refine avoids_onRunMode (fun _ => avoids_load ?_) fun hreplica => ?_
    · cases hcontext : (w.heap event).contextName with
      | none => exact hspawn _ _
      | some context =>
        refine avoids_load (Avoids.bind (avoids_getServiceColumn ?_ _ _) fun r => ?_)
        · rw [hcontext]
          rfl
        · dsimp only
          split
          · trivial
          · exact fun _ _ => trivial
    · refine (avoids_requestPrimary (hservice rfl (.inl hreplica)) _).bind fun st => ?_
      cases st with
      | ok => exact avoids_enterMeditation
      | error => trivial
  | platformRestart =>
    refine Avoids.bind (avoids_onRunMode (fun _ => hspawn _ _) fun hreplica => ?_) fun _ => avoids_enterMeditation
    exact (avoids_requestPrimary (hservice rfl (.inl hreplica)) _).bind fun _ => trivial
  | factoryReset =>
    refine Avoids.bind (avoids_onRunMode (fun _ => hspawn _ _) fun hreplica => ?_) fun _ => avoids_enterMeditation
    exact (avoids_requestPrimary (hservice rfl (.inl hreplica)) _).bind fun _ => trivial

end avoids

/-! ### The crash handler -/

/-- The service of the event stays known. -/
def ServiceKnown (event : EventRef) (w : Instance) : Prop := (w.heap event).serviceName.isSome

private theorem ServiceKnown.congr (hw : ServiceKnown event w) (h : SameStore w w') : ServiceKnown event w' := by
  rw [ServiceKnown, h.heap]
  exact hw

/-- The service is known wherever the event is looked at. -/
def SeesService (event : EventRef) : (op : Op) → op.Res → Prop
  | .load event', r => event' = event → RmgDEvent.serviceName r ≠ none
  | _, _ => True

/-- The run mode and the service only matter for what is handed to the executor. -/
private theorem safe_of_avoids {α : Type} {p : Proc α} (hp : p.Calls (HandlingOp .primary event (some "")))
    (ha : p.Avoids (SeesService event)) :
    Safe machine (fun _ _ => True) (ServiceKnown event) p fun _ => ServiceKnown event := by
  refine Safe.of_calls (R := SeesService event) (fun op e w hop _ hw => ?_) hp ha
  cases op with
  | load event' =>
    refine ⟨?_, hw⟩
    rintro rfl
    exact Option.isSome_iff_ne_none.1 hw
  | setContextName event' name =>
    obtain ⟨rfl, -⟩ := hop
    refine ⟨trivial, ?_⟩
    show (Function.update w.heap event' { w.heap event' with contextName := name } event').serviceName.isSome
    rw [Function.update_self]
    exact hw
  | pushExecutor => exact ⟨trivial, hw⟩
  | newEvent | pushDispatcher | setClientName => exact hop.elim
  | sql | clientSend | managerSend | getRunMode | getHostName | getOptions | getManagerProxy | getClients
  | timeoutAddSeconds | emit =>
    refine ⟨trivial, hw.congr (sameStore_apply ?_ e w)⟩
    trivial

private theorem safe_load : Safe machine (fun _ _ => True) (ServiceKnown event) (load event)
    fun e w => e.serviceName.isSome ∧ ServiceKnown event w :=
  Safe.perform fun _ _ _ hw => ⟨hw, hw⟩

/-- The own context is written into the event before the others are told. -/
private theorem safe_informServiceFailed :
    Safe machine (fun _ _ => True) (ServiceKnown event) (informServiceFailed event) fun _ _ => True := by
  refine Safe.bind (Q := fun _ => ServiceKnown event) (.perform fun _ _ _ hw => hw) fun (hostName : String) => ?_
  refine Safe.bind (Q := fun _ w => w.Tellable (w.heap event)) (.perform ?_) fun _ => ?_
  · intro w _ _ hw
    have hself : (w.setContextName event (some hostName)).heap event =
        { w.heap event with contextName := some hostName } := Function.update_self ..
    show Tellable (w.setContextName event (some hostName)) ((w.setContextName event (some hostName)).heap event)
    rw [hself]
    exact .inl ⟨hw, rfl⟩
  · intro w o w' hw h
    cases o with
    | aborted =>
      refine not_aborted_of_avoids ((calls_doFriendServiceFailedEvent event).mono fun op h => ?_)
        (avoids_doFriendServiceFailedEvent hw) h
      cases op <;> trivial
    | _ => trivial

private theorem avoids_performAction (type : RmgActionType) (reset : Bool) :
    (performAction type reset event).Avoids (SeesService event) := by
  have hload : ∀ {k : RmgDEvent → Proc PUnit}, (∀ e, e.serviceName.isSome → (k e).Avoids (SeesService event)) →
      (load event >>= k).Avoids (SeesService event) := fun hk e he =>
    hk e (Option.isSome_iff_ne_none.2 (he rfl))
  have hpush : ∀ type, (rmgExecutorPushEvent type event).Avoids (SeesService event) := fun _ _ _ => trivial
  have hreset : (resetRvector event).Avoids (SeesService event) :=
    hload fun e he => (avoids_rmgJournalSetRvector he 0).bind fun _ => trivial
  have hrelax : (doRelaxtimerStart event).Avoids (SeesService event) :=
    hload fun e he => (avoids_rmgRelaxtimerTrigger he).bind fun _ => trivial
  unfold performAction
  cases type with
  | serviceIgnore => exact hreset
  | serviceReset | publicDataReset | privateDataReset | serviceDisable =>
    refine (hpush _).bind fun _ => ?_
    cases reset
    · exact hrelax
    · exact hreset
  | contextReset | platformRestart =>
    refine Avoids.bind ?_ fun _ => hpush _
    cases reset
    · trivial
    · exact hreset
  | factoryReset => exact hpush _
  | invalid | guruMeditation => trivial

theorem safe_doProcessServiceCrashEvent :
    Safe machine (fun _ _ => True) (ServiceKnown event) (doProcessServiceCrashEvent event) fun _ _ => True := by
  have houtput : ∀ o, Safe machine (fun _ _ => True) (ServiceKnown event) (output o) fun _ =>
    ServiceKnown event := fun o =>
    safe_of_avoids (calls_output_handling o) fun _ _ => trivial
  have hescalate : ∀ v, Safe machine (fun _ _ => True) (ServiceKnown event) (escalate event v) fun _ _ => True := by
    intro v
    refine safe_load.bind fun e => Safe.of_prop fun he => ?_
    refine Safe.bind (safe_of_avoids (calls_getActionColumn_handling _ _ _) (avoids_getActionColumn he _ _)) fun r => ?_
    dsimp only
    split
    · exact .ret fun _ _ => trivial
    · refine Safe.bind (safe_of_avoids (calls_getActionColumn_handling _ _ _)
        (avoids_getActionColumn he _ _)) fun r' => ?_
      refine Safe.bind (Q := fun _ => ServiceKnown event) ?_ fun _ =>
        (safe_of_avoids (calls_performAction_handling rfl _ _) (avoids_performAction _ _)).bind fun _ =>
          safe_informServiceFailed
      unfold reportAction
      split
      · exact houtput _
      · exact .ret fun _ h => h
  refine safe_load.bind fun e => Safe.of_prop fun he => ?_
  refine Safe.bind (safe_of_avoids (calls_getServiceColumn_handling _ _ _) (avoids_getServiceColumn he _ _)) fun r => ?_
  dsimp only
  split
  · exact .ret fun _ _ => trivial
  · split
    · exact (houtput _).weaken (fun _ h => h) fun _ _ _ => trivial
    · refine Safe.bind (safe_of_avoids (calls_getServiceColumn_handling _ _ _) (avoids_getServiceColumn he _ _))
        fun r' => ?_
      split
      · exact .ret fun _ _ => trivial
      · refine Safe.bind (safe_of_avoids (calls_rmgJournalSetRvector_handling _ _) (avoids_rmgJournalSetRvector he _))
          fun st => ?_
        cases st with
        | error => exact .ret fun _ _ => trivial
        | ok => exact hescalate _

/-! ### The steps -/

private theorem not_aborted_of_avoids_always {p : Proc PUnit} (ha : p.Avoids fun _ _ => True) :
    ¬ Exec machine (fun _ _ => True) p w .aborted w' := by
  have hsafe : Safe machine (fun _ _ => True) (fun _ : Instance => True) p fun _ _ => True :=
    Safe.of_calls (fun _ _ _ _ _ _ => ⟨trivial, trivial⟩) (calls_true p) ha
  exact hsafe w .aborted w' trivial

private theorem avoids_timerCallback (data : TimerData) : (timerCallback data).Avoids fun _ _ => True := by
  cases data with
  | relax relaxtimer =>
    refine (avoids_getServiceColumn rfl _ _).bind fun r => ?_
    dsimp only
    split
    · trivial
    · split
      · exact (avoids_rmgJournalSetRvector rfl _).bind fun _ => trivial
      · trivial
  | friend ftimer =>
    obtain ⟨service, action, argument⟩ := ftimer
    cases action with
    | unknown | invalid => exact fun _ _ => trivial
    | start | stop | restart | signal =>
      intro proxy _
      cases proxy with
      | false => trivial
      | true => exact fun _ _ => trivial

private theorem avoids_clientProcessMessage (sockfd : Nat) (msg : RmgMessage) :
    (clientProcessMessage sockfd msg).Avoids fun _ _ => True := by
  unfold clientProcessMessage
  split <;> first | exact fun _ _ _ _ _ _ => trivial | exact fun _ _ => trivial | trivial

private theorem avoids_managerProcessMessage (msg : RmgMessage) :
    (managerProcessMessage msg).Avoids fun _ _ => True := by
  unfold managerProcessMessage
  split <;> first | exact fun _ _ _ _ _ _ => trivial | trivial

/-- What follows a look at an event is done with the event as it is. -/
theorem exec_load {A : Op → Bool → Prop} {k : RmgDEvent → Proc PUnit} {o : Outcome PUnit}
    (h : Exec machine A (load event >>= k) w o w') (ho : o ≠ .killed) :
    Exec machine A (k (w.heap event)) w o w' := by
  change Exec machine A (.call (.load event) k) w o w' at h
  cases h with
  | kill => exact absurd rfl ho
  | call _ h => exact h

private theorem not_aborted_dispatch (ha : Arrived w.runMode (w.heap event))
    (hn : (w.heap event).type = .informServiceFailed → w.Tellable (w.heap event)) :
    ¬ Exec machine (fun _ _ => True) (dispatcherSourceCallback event) w .aborted w' := by
  intro h
  replace h := exec_load h nofun
  have hpush : ∀ type, ¬ Exec machine (fun _ _ => True) (rmgExecutorPushEvent type event) w .aborted w' := fun _ =>
    not_aborted_of_avoids_always fun _ _ => trivial
  have hsteady : ∀ {type} {op : Op}, op.Informs type event → Steady op := by
    rintro type op h
    cases op <;> trivial
  cases ht : (w.heap event).type with
  | informProcessCrash =>
    rw [ht] at h
    exact not_aborted_of_avoids ((calls_doFriendProcessCrashEvent event).mono fun _ => hsteady)
      (avoids_doFriendProcessCrashEvent (ha.process ht)) h
  | informServiceFailed =>
    rw [ht] at h
    exact not_aborted_of_avoids ((calls_doFriendServiceFailedEvent event).mono fun _ => hsteady)
      (avoids_doFriendServiceFailedEvent (hn ht)) h
  | serviceCrashed =>
    have hsafe : Safe machine (fun _ _ => True) (ServiceKnown event) (do
        output (.crashDetected (w.heap event).serviceName (w.heap event).cause)
        doProcessServiceCrashEvent event) fun _ _ => True :=
      Safe.bind (safe_of_avoids (calls_output_handling _) fun _ _ => trivial) fun _ => safe_doProcessServiceCrashEvent
    rw [ht] at h
    exact hsafe w .aborted w' (ha.crash ht) h
  | remoteContextRestart =>
    rw [ht] at h
    exact hpush _ h
  | remotePlatformRestart =>
    rw [ht] at h
    exact hpush _ h
  | remoteFactoryReset =>
    rw [ht] at h
    exact hpush _ h
  | serviceRestarted | unknown =>
    rw [ht] at h
    cases h

theorem run_onRunMode (w : Instance) (primary replica : Proc PUnit) (k : PUnit → Proc PUnit) :
    (w.runMode = .primary → w.run (onRunMode primary replica >>= k) = w.run (primary >>= k)) ∧
      (w.runMode = .replica → w.run (onRunMode primary replica >>= k) = w.run (replica >>= k)) := by
  cases w
  constructor
  · rintro rfl
    rfl
  · rintro rfl
    rfl

/-- Telling stops at the first client that is to be told a failure without a name. -/
private theorem run_doFriendServiceFailedEvent_of_not_tellable (h : ¬ w.Tellable (w.heap event)) :
    w.run (doFriendServiceFailedEvent event) = (none, w) := by
  rw [Tellable, not_or, not_and, not_and] at h
  have hset : ∀ type : RmgMessageType, w.run (do
      let msg ← rmgMessageSetServiceName (rmgMessageNew type (w.heap event).cause) (w.heap event).serviceName
      rmgMessageSetContextName msg (w.heap event).contextName) = (none, w) := by
    intro type
    cases hs : (w.heap event).serviceName with
    | none => rfl
    | some service =>
      cases hcontext : (w.heap event).contextName with
      | none => rfl
      | some context => exact absurd (by rw [hcontext]; rfl) (h.1 (by rw [hs]; rfl))
  have htell : ∀ (type : RmgMessageType) (send : RmgMessage → Proc RmgStatus), w.run (do
      let msg ← rmgMessageSetServiceName (rmgMessageNew type (w.heap event).cause) (w.heap event).serviceName
      let msg ← rmgMessageSetContextName msg (w.heap event).contextName
      let _ ← send msg : Proc PUnit) = (none, w) := by
    intro type send
    have := run_bind_none (f := fun msg => send msg >>= fun _ => (pure ⟨⟩ : Proc PUnit)) (hset type)
    rwa [bind_assoc] at this
  unfold doFriendServiceFailedEvent
  cases hmode : w.runMode with
  | replica =>
    rw [(run_onRunMode w _ _ _).2 hmode]
    exact run_bind_none (htell _ _)
  | primary =>
    rw [(run_onRunMode w _ _ _).1 hmode]
    refine run_bind_none ?_
    have hclients : ∀ clients : List RmgClient, (¬ ∀ c ∈ clients, c.contextName = (w.heap event).contextName) →
        w.run (List.forM clients (foreachClientNotifyServiceFailed event)) = (none, w) := by
      intro clients
      induction clients with
      | nil => exact fun hall => absurd (fun c hc => absurd hc List.not_mem_nil) hall
      | cons c clients ih =>
        intro hall
        show w.run (foreachClientNotifyServiceFailed event c >>= fun _ =>
          List.forM clients (foreachClientNotifyServiceFailed event)) = _
        by_cases hc : c.contextName = (w.heap event).contextName
        · have hskip : w.run (foreachClientNotifyServiceFailed event c) = (some ⟨⟩, w) := by
            show w.run (if c.contextName ≠ (w.heap event).contextName then _ else _) = _
            rw [if_neg (not_not.2 hc)]
            rfl
          rw [run_bind hskip]
          exact ih fun h => hall (List.forall_mem_cons.2 ⟨hc, h⟩)
        · refine run_bind_none ?_
          show w.run (if c.contextName ≠ (w.heap event).contextName then _ else _) = _
          rw [if_pos hc]
          exact htell _ _
    exact hclients w.clients (h.2 hmode)

private theorem run_executor_of_not_askable {type : ExecutorEventType} (h : ¬ Askable type (w.heap event)) :
    w.run (executorSourceCallback type event) = (none, w) := by
  have hask : ∀ (friendType : RmgFriendType) (target : Option String),
      ¬ (target.isSome ∧ (w.heap event).contextName.isSome) →
      w.run (rmgJournalGetServicesForFriend target (w.heap event).contextName friendType) = (none, w) := by
    intro friendType target h
    cases target with
    | none => rfl
    | some target =>
      cases hcontext : (w.heap event).contextName with
      | none => rfl
      | some context => exact absurd ⟨rfl, by rw [hcontext]; rfl⟩ h
  have hload : w.run (load event) = (some (w.heap event), w) := rfl
  cases type with
  | friendProcessCrash => exact (run_bind hload).trans (run_bind_none (hask .process _ h))
  | friendServiceFailed => exact (run_bind hload).trans (run_bind_none (hask .service _ h))
  | _ => exact absurd trivial h

private theorem steady_of_executes {op : Op} (h : op.Executes) : Steady op := by
  rcases h with h | ⟨msg, rfl⟩
  · have h := h.2
    cases op <;> trivial
  · trivial

private theorem not_aborts_of_namesReady (hw : w.Sound) (hn : w.NamesReady) (hl : ∀ gdir, l ≠ .restart gdir) :
    ¬ Aborts glib w l := by
  rintro ⟨w₀, p, w₁, he, h⟩
  have hmonitored : ∀ type service, (pushMonitored type service).Avoids fun _ _ => True := fun _ _ _ _ _ _ => trivial
  have hnewCrash : ∀ process context, (pushNewCrash process context).Avoids fun _ _ => True :=
    fun _ _ _ _ _ _ => trivial
  cases callback_of_enabled he with
  | crash | restarted => exact not_aborted_of_avoids_always (hmonitored _ _) h
  | newCrash => exact not_aborted_of_avoids_always (hnewCrash _ _) h
  | fromReplica sockfd msg => exact not_aborted_of_avoids_always (avoids_clientProcessMessage sockfd msg) h
  | fromPrimary msg => exact not_aborted_of_avoids_always (avoids_managerProcessMessage msg) h
  | @dispatch event queue hq =>
    have ha := (hw.dispatcher event (by rw [hq]; exact List.mem_cons_self)).2
    have hready := hn.dispatcher event (by rw [hq]; rfl)
    exact @not_aborted_dispatch { w with dispatcherQueue := queue } w₁ event ha hready h
  | @execute type event queue hq =>
    have hhanded := (hw.executor _ (by rw [hq]; exact List.mem_cons_self)).2
    have hask := hn.executor _ (by rw [hq]; rfl)
    exact not_aborted_of_avoids ((calls_executorSourceCallback type event).mono fun _ => steady_of_executes)
      (@avoids_executorSourceCallback { w with executorQueue := queue } event type hask hhanded) h
  | expire => exact not_aborted_of_avoids_always (avoids_timerCallback _) h
  | tick => cases h
  | restart gdir => exact hl gdir rfl

private theorem exec_of_run {p : Proc PUnit} (h : w.run p = (none, w')) :
    Exec machine (fun _ _ => True) p w .aborted w' := by
  have hexec := exec_run machine true (A := fun _ _ => True) (fun _ => trivial) p w
  change Exec machine (fun _ _ => True) p w (outcomeOf (w.run p).1) (w.run p).2 at hexec
  rw [h] at hexec
  exact hexec

private theorem eq_cons_of_mem_head? {α : Type} {x : α} {xs : List α} (h : x ∈ xs.head?) : ∃ ys, xs = x :: ys := by
  cases xs with
  | nil => cases h
  | cons y ys => exact ⟨ys, by rw [Option.some.inj h]⟩

/-- No step but a restart can abort the instance. -/
def Survives (glib : GLib) (w : Instance) : Prop :=
  ∀ l, MayHappen glib w l → (∀ gdir, l ≠ .restart gdir) → ¬ Aborts glib w l

/-- Both queues are empty, and no name has a quote. -/
structure Clear (w : Instance) : Prop where
  dispatcherQueue : w.dispatcherQueue = []
  executorQueue : w.executorQueue = []
  quoteFree : w.QuoteFree

/-- Clients that come and go bring no quotes into the statements. -/
theorem PeerStep.plain (h : PeerStep glib w l w') (hw : w.QuoteFree) :
    w'.QuoteFree ∧ ∃ w₁ clients, PlainStep glib w l w₁ ∧ w' = { w₁ with clients := clients } := by
  obtain ⟨hmay, w₁, clients, hstep, rfl⟩ := h
  obtain ⟨hw₁, -, hplain⟩ := hstep.plain hmay.quoteFree hw
  exact ⟨⟨hw₁.hostName, hw₁.heap, hw₁.services, hw₁.sources⟩, w₁, clients, hplain, rfl⟩

/-- In a state that a run leads to, whatever the other instances have sent, no step aborts the instance if and only if
the next events have the names they need. -/
theorem survives_iff {w₀ : Instance} {ls : List Label} (h₀ : w₀.Clear)
    (hr : Transition.Run (PeerStep glib) w₀ ls w) : Survives glib w ↔ (w.running → w.NamesReady) := by
  have hsound : w.Sound := by
    refine hr.invariant ⟨?_, ?_⟩ fun _ _ _ hw h => h.sound hw
    · rw [h₀.dispatcherQueue]
      exact fun _ h => absurd h List.not_mem_nil
    · rw [h₀.executorQueue]
      exact fun _ h => absurd h List.not_mem_nil
  constructor
  · intro h hrunning
    constructor
    · intro event hevent ht
      by_contra hn
      obtain ⟨queue, hq⟩ := eq_cons_of_mem_head? hevent
      refine h .dispatch ⟨trivial, trivial⟩ (by simp) ⟨{ w with dispatcherQueue := queue },
        dispatcherSourceCallback event, { w with dispatcherQueue := queue }, ?_, exec_of_run ?_⟩
      · simp only [enabled, hrunning, ↓reduceIte, hq]
      · rw [run_dispatcherSourceCallback]
        dsimp only
        rw [ht]
        exact run_doFriendServiceFailedEvent_of_not_tellable hn
    · intro x hx
      by_contra hn
      obtain ⟨queue, hq⟩ := eq_cons_of_mem_head? hx
      refine h .execute ⟨trivial, trivial⟩ (by simp) ⟨{ w with executorQueue := queue },
        executorSourceCallback x.1 x.2, { w with executorQueue := queue }, ?_, exec_of_run ?_⟩
      · simp only [enabled, hrunning, ↓reduceIte, hq]
      · exact run_executor_of_not_askable hn
  · intro h l _ hl habort
    have hrunning : w.running := by
      obtain ⟨w₁, p, w₂, henabled, -⟩ := habort
      exact running_of_enabled henabled hl
    exact not_aborts_of_namesReady hsound (h hrunning) hl habort

/-- A run of the instance in which nothing fails and the clients stay. -/
private theorem peerRun {ls : List Label} (hr : Runs glib w ls w')
    (hmay : ∀ l ∈ ls, ∀ u : Instance, u.runMode = w.runMode → u.hostName = w.hostName → MayHappen glib u l) :
    Transition.Run (PeerStep glib) w ls w' := by
  have hkept := hr.strengthen (I := fun u => u.identity = w.identity) rfl fun _ _ _ hi hs =>
    hs.faulty.identity.trans hi
  refine (hkept.restrict (P := fun u l => u.identity = w.identity → MayHappen glib u l) ?_).mono ?_
  · exact fun l hl u hu => hmay l hl u (congrArg Identity.runMode hu) (congrArg Identity.hostName hu)
  · rintro u l v ⟨⟨hu, hs, -⟩, hm⟩
    exact ⟨hm hu, v, v.clients, hs.faulty, rfl⟩

private theorem clear_initial : (initial .replica "host").Clear :=
  ⟨rfl, rfl, quoteFree_initial .replica (by decide)⟩

/-- The failure of the service b, in the context h. -/
private def failureOfB : Wire.Link :=
  ⟨[{ (Wire.rmgMessageNew .informClientServiceFailed 0).hdr with sizeOfArg1 := 1, sizeOfArg2 := 1 }.bytes ++
    [0x62, 0x68]], []⟩

private def failedB : RmgMessage := ⟨.informClientServiceFailed, none, some "b", some "h", ⟨0, 0⟩⟩

private theorem accepted_failedB : Accepted failedB := by
  let hdr : Wire.RmgMessageHdr :=
    { (Wire.rmgMessageNew .informClientServiceFailed 0).hdr with sizeOfArg1 := 1, sizeOfArg2 := 1 }
  let data : Wire.RmgMessageData :=
    { (Wire.rmgMessageNew .unknown 0).data with serviceName := some [0x62], contextName := some [0x68] }
  exact ⟨fun name => if name = [0x62] then "b" else "h", ⟨0, 0⟩, failureOfB, ⟨[], []⟩, ⟨hdr, data⟩, by decide +kernel,
    by decide +kernel⟩

/-- A unit that has the service b as its friend. -/
private def friendOfB : List Tag :=
  Tag.unit "a" [] [] ++ [.opening "friends" []] ++
    Tag.element "friend" [("type", "service"), ("action", "restart"), ("context", "h")] "b" ++ [.closing "friends"]

/-- The primary tells of three failures: the first is handled, the second waits for the executor, and the third for the
dispatcher. -/
private def threeFailures : List Label :=
  [.restart (directory [friendOfB]), .fromPrimary failedB, .dispatch, .execute, .fromPrimary failedB, .dispatch,
    .fromPrimary failedB]

private def toldOfB : Option Instance := (initial .replica "host").replayed (.reading [friendOfB]) threeFailures

private theorem toldOfB_isSome : toldOfB.isSome := by decide +kernel

private theorem mayHappen_threeFailures {l : Label} (hl : l ∈ threeFailures) {u : Instance} (hm : u.runMode = .replica)
    (hh : u.hostName = "host") : MayHappen (.reading [friendOfB]) u l := by
  have hmsg : MayHappen (.reading [friendOfB]) u (.fromPrimary failedB) :=
    ⟨⟨quoteFreeName_some (by decide), quoteFreeName_none, quoteFreeName_some (by decide)⟩, hm, accepted_failedB⟩
  simp only [threeFailures, List.mem_cons, List.not_mem_nil, or_false] at hl
  rcases hl with rfl | rfl | rfl | rfl | rfl | rfl | rfl
  · refine ⟨?_, trivial⟩
    rw [hh]
    rintro files ⟨⟩
    decide +kernel
  · exact hmsg
  · exact ⟨trivial, trivial⟩
  · exact ⟨trivial, trivial⟩
  · exact hmsg
  · exact ⟨trivial, trivial⟩
  · exact hmsg

/-- The first failure has started the timer of the friend, and the others do no harm. -/
theorem survives_iff_of_failures : (toldOfB.get toldOfB_isSome).sources.length = 1 ∧
    Survives (.reading [friendOfB]) (toldOfB.get toldOfB_isSome) := by
  have hrun := peerRun (runs_of_replayed (Option.some_get toldOfB_isSome).symm) fun l hl u hm hh =>
    mayHappen_threeFailures hl hm hh
  have hdispatcher : (toldOfB.get toldOfB_isSome).dispatcherQueue = [2] ∧
      ((toldOfB.get toldOfB_isSome).heap 2).serviceName.isSome ∧
        ((toldOfB.get toldOfB_isSome).heap 2).contextName.isSome := by
    decide +kernel
  have hexecutor : (toldOfB.get toldOfB_isSome).executorQueue = [(.friendServiceFailed, 1)] ∧
      ((toldOfB.get toldOfB_isSome).heap 1).serviceName.isSome ∧
        ((toldOfB.get toldOfB_isSome).heap 1).contextName.isSome := by
    decide +kernel
  have hsources : (toldOfB.get toldOfB_isSome).sources.length = 1 := by decide +kernel
  generalize toldOfB.get toldOfB_isSome = w at hrun hdispatcher hexecutor hsources ⊢
  refine ⟨hsources, (survives_iff clear_initial hrun).2 fun _ => ⟨fun event hevent _ => ?_, fun x hx => ?_⟩⟩
  · rw [hdispatcher.1] at hevent
    obtain rfl := Option.some.inj hevent
    exact .inl hdispatcher.2
  · rw [hexecutor.1] at hx
    obtain rfl := Option.some.inj hx
    exact hexecutor.2

/-- A failed service without a name, in the context h. -/
private def namelessFailure : Wire.Link :=
  ⟨[{ (Wire.rmgMessageNew .informClientServiceFailed 0).hdr with sizeOfArg2 := 1 }.bytes ++ [0x68]], []⟩

private def namelessFailed : RmgMessage := ⟨.informClientServiceFailed, none, none, some "h", ⟨0, 0⟩⟩

private theorem accepted_namelessFailed : Accepted namelessFailed := by
  let hdr : Wire.RmgMessageHdr := { (Wire.rmgMessageNew .informClientServiceFailed 0).hdr with sizeOfArg2 := 1 }
  let data : Wire.RmgMessageData := { (Wire.rmgMessageNew .unknown 0).data with contextName := some [0x68] }
  exact ⟨fun _ => "h", ⟨0, 0⟩, namelessFailure, ⟨[], []⟩, ⟨hdr, data⟩, by decide +kernel, rfl⟩

/-- A replica does not survive the failure of a service that the primary tells it without a name. -/
theorem nameless_failure_aborts : ¬ ∀ (glib : GLib) (w₀ w : Instance) (ls : List Label), w₀.Clear →
    Transition.Run (PeerStep glib) w₀ ls w → Survives glib w := by
  intro h
  have hmay : MayHappen (.reading []) (initial .replica "host") (.fromPrimary namelessFailed) :=
    ⟨⟨quoteFreeName_none, quoteFreeName_none, quoteFreeName_some (by decide)⟩, rfl, accepted_namelessFailed⟩
  have hstep : PeerStep (.reading []) (initial .replica "host") (.fromPrimary namelessFailed)
      ((initial .replica "host").after (managerProcessMessage namelessFailed)) :=
    ⟨hmay, _, [], Step.faulty rfl, rfl⟩
  refine h _ _ _ _ clear_initial (.single hstep) .dispatch ⟨trivial, trivial⟩ ?_ ⟨_, _, _, rfl, exec_of_run rfl⟩
  rintro gdir ⟨⟩

end Instance

end RecoveryManager
