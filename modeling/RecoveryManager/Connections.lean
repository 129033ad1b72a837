import RecoveryManager.Isolation
import RecoveryManager.Lib.Ownership
import RecoveryManager.Lib.Recording
import RecoveryManager.Profile
import RecoveryManager.UnitSource
import RecoveryManager.Unreliable

/-!
# The objects of a primary

A primary has an executor, a dispatcher, a server, two monitors, an entry for each monitored unit and a client for each
connection.  They hold counted references to each other (`Shared.fields`), and so do the sources of the main loop and
the requests that are under way (`Process.hand`).

Replicas connect and go, units appear, entries come up or fail, and in between the loop takes its steps, in any order.
In every such run no object is used, referenced or released after it has been freed, and what has been made is in memory
exactly as long as somebody can still reach it.  The dispatcher, the executor and the server hold each other up: the end
of the application frees none of them.
-/

namespace RecoveryManager

open Fallible Fallible.Prog RefCount

/-! ### The objects -/

inductive Shared where
  | executor
  | dispatcher
  | server
  | monitor
  | crashmonitor
  | mentry (id : Nat)
  | client (sockfd : Nat)
  deriving DecidableEq, Repr

/-- What the release of the last reference releases in turn: `rmg_dispatcher_unref`, `rmg_executor_unref`,
`rmg_server_unref`, `rmg_monitor_unref`, `rmg_crashmonitor_unref`, `rmg_mentry_unref`, `rmg_client_unref`. -/
def Shared.fields (sockets services : List Nat) : Shared → List Shared
  | .dispatcher => [.executor, .server]
  | .executor => [.server]
  | .server => .dispatcher :: sockets.map .client
  | .monitor => .dispatcher :: services.map .mentry
  | .crashmonitor => [.dispatcher]
  | .mentry _ => [.dispatcher]
  | .client _ => [.dispatcher, .server]

/-- A friend timer refers to the executor. -/
def GSource.executor : GSource → List Shared
  | ⟨_, _, .friend _⟩ => [.executor]
  | ⟨_, _, .relax _⟩ => []

/-- The operations that use no client but those of `sockets`. -/
def Op.Reaches (sockets : List Nat) : Op → Prop
  | .setClientName sockfd _ | .clientSend sockfd _ => sockfd ∈ sockets
  | _ => True

/-- A primary and its objects. -/
structure Process where
  inst : Instance
  objects : Store Shared
  /-- What `accept` has returned; the source closes none of these. -/
  opened : List Nat
  /-- The server source is still attached. -/
  accepting : Bool
  /-- How many entries have been made. -/
  entries : Nat
  /-- The entries whose proxy is being built. -/
  pending : List Nat
  /-- `monitor->services`. -/
  services : List Nat

namespace Process

def sockets (s : Process) : List Nat := s.inst.clients.map RmgClient.sockfd

def fields (s : Process) : Shared → List Shared := Shared.fields s.sockets s.services

/-- The references no object holds: those of the application, of the sources and of the requests under way. -/
def hand (s : Process) : List Shared :=
  [.executor, .dispatcher, .monitor, .crashmonitor] ++ s.sockets.map .client ++ s.pending.map .mentry ++
    s.inst.sources.flatMap GSource.executor

def live (s : Process) : List Shared :=
  [.executor, .dispatcher, .server, .monitor, .crashmonitor] ++ s.sockets.map .client ++
    (s.pending ++ s.services).map .mentry

def withClients (s : Process) (clients : List RmgClient) : Process :=
  { s with inst := { s.inst with clients := clients } }

/-! ### The operations -/

/-- `rmg_application_new` on a primary, with `rmg_dispatcher_new`, `run_mode_specific_init`, `rmg_monitor_new` and
`rmg_crashmonitor_new`. -/
def rmgApplicationNew : Store Shared :=
  let c := Store.empty.new .executor
  let c := (c.new .dispatcher).ref .executor
  let c := (c.new .server).ref .dispatcher
  let c := c.ref .server
  let c := (c.new .monitor).ref .dispatcher
  (c.new .crashmonitor).ref .dispatcher

/-- `server_source_callback` with a connection: `rmg_client_new`, `rmg_client_set_server_ref` and
`rmg_server_add_client`. -/
def serverSourceCallback (sockfd : Nat) (c : Store Shared) : Store Shared :=
  let c := (c.use .server).new (.client sockfd)
  let c := (c.ref .dispatcher).ref .server
  c.ref (.client sockfd)

/-- `add_service` of `rmg-monitor.c` for a unit that has no entry: `rmg_mentry_new`, `rmg_mentry_build_proxy_async`. -/
def addService (id : Nat) (c : Store Shared) : Store Shared := ((c.use .monitor).new (.mentry id)).ref .dispatcher

/-- `rmg_application_unref` on a primary; the reference to the executor is not released. -/
def RmgApplicationUnref (s : Process) (c : Store Shared) : Prop :=
  Store.Released s.fields [.dispatcher, .monitor, .crashmonitor] s.objects c

/-- The objects an operation of a callback uses. -/
def note (op : Op) (_ : Bool) (_ : Instance) (c : Store Shared) : Store Shared :=
  match op with
  | .pushDispatcher _ => c.use .dispatcher
  | .pushExecutor .. => c.use .executor
  | .getClients => c.use .server
  | .setClientName sockfd _ | .clientSend sockfd _ => c.use (.client sockfd)
  | .timeoutAddSeconds _ (.friend _) => c.ref .executor
  | _ => c

def objectsMachine : Machine Op Op.Res Bool (Instance × Store Shared) := Instance.machine.recording note

/-- What the source of a timeout refers to. -/
def taken (s : Process) : Label → List Shared
  | .expire id =>
    match s.inst.sources.find? fun source => source.id = id ∧ source.deadline ≤ s.inst.now with
    | none => []
    | some source => source.executor
  | _ => []

/-- `on_properties_changed`, on behalf of an entry. -/
def changes : Label → Bool
  | .crash _ | .restarted _ => true
  | _ => false

/-- The start of a callback, where a change of properties is one of the proxy of `entry`. -/
def begun (s : Process) (entry : Nat) : Label → Process
  | .restart _ =>
    { s with
      inst := s.inst.restarted
      objects := rmgApplicationNew
      opened := []
      accepting := true
      entries := 0
      pending := []
      services := [] }
  | .crash _ | .restarted _ => { s with objects := s.objects.use (.mentry entry) }
  | .newCrash .. => { s with objects := s.objects.use .crashmonitor }
  | .fromReplica sockfd _ => { s with objects := s.objects.use (.client sockfd) }
  | .dispatch => { s with objects := s.objects.use .dispatcher }
  | .execute => { s with objects := s.objects.use .executor }
  | .expire id => { s with objects := (s.taken (.expire id)).foldl Store.use s.objects }
  | _ => s

/-- A callback that returns is followed by the notification of the source: `friendtimer_destroy_notify`. -/
def closes (s : Process) (l : Label) : Outcome PUnit → List Shared
  | .done _ => s.taken l
  | _ => []

inductive Event where
  /-- A callback of the main loop. -/
  | loop (l : Label)
  | accept (sockfd : Nat)
  | acceptFails
  /-- The client behind the socket cannot be read any more. -/
  | disconnect (sockfd : Nat)
  /-- A unit that has no entry yet. -/
  | unitNew
  /-- The proxy of an entry has been built, or has failed. -/
  | proxyReady (id : Nat) (ok : Bool)

/-- One event of a primary.  `accept` returns no descriptor that is still open; the source of a client is attached as
long as the server lists the client, and the proxy of an entry that the monitor lists tells of changes. -/
inductive Step (glib : GLib) : Process → Event → Process → Prop
  | loop {s : Process} {l : Label} {w₀ : Instance} {p : Proc PUnit} {o : Outcome PUnit} {y : Instance × Store Shared}
      {c : Store Shared} {entry : Nat} : (∀ sockfd msg, l = .fromReplica sockfd msg → sockfd ∈ s.sockets) →
      (changes l → entry ∈ s.services) →
      s.inst.enabled glib l = some (w₀, p) →
      Exec objectsMachine Unreliable p (w₀, (s.begun entry l).objects) o y →
      Store.Released (s.begun entry l).fields (s.closes l o) y.2 c →
      Step glib s (.loop l) { s.begun entry l with inst := Instance.ended o y.1, objects := c }
  | accept {s : Process} {sockfd : Nat} : s.inst.running → s.accepting → sockfd ∉ s.opened →
      Step glib s (.accept sockfd)
        { s.withClients (s.inst.clients ++ [⟨sockfd, none⟩]) with
          objects := serverSourceCallback sockfd s.objects
          opened := s.opened ++ [sockfd] }
  | acceptFails {s : Process} : s.inst.running → s.accepting → Step glib s .acceptFails { s with accepting := false }
  | disconnect {s : Process} {sockfd : Nat} {c : Store Shared} : s.inst.running → sockfd ∈ s.sockets →
      -- `client_source_destroy_notify`: the reference of the list in `rmg_server_rem_client`, then that of the source
      Store.Released (s.withClients (s.inst.clients.filter (·.sockfd ≠ sockfd))).fields
        [.client sockfd, .client sockfd] ((s.objects.use (.client sockfd)).use .server) c →
      Step glib s (.disconnect sockfd)
        { s.withClients (s.inst.clients.filter (·.sockfd ≠ sockfd)) with objects := c }
  | unitNew {s : Process} : s.inst.running →
      Step glib s .unitNew
        { s with
          objects := addService s.entries s.objects
          entries := s.entries + 1
          pending := s.pending ++ [s.entries] }
  | ready {s : Process} {id : Nat} : s.inst.running → id ∈ s.pending →
      Step glib s (.proxyReady id true)
        { s with
          objects := (s.objects.use (.mentry id)).use .monitor
          pending := s.pending.erase id
          services := id :: s.services }
  | failed {s : Process} {id : Nat} {c : Store Shared} : s.inst.running → id ∈ s.pending →
      Store.Released s.fields [.mentry id] (s.objects.use (.mentry id)) c →
      Step glib s (.proxyReady id false) { s with objects := c, pending := s.pending.erase id }

/-! ### The rules -/

/-- In the middle of a callback, with `held` in its hands. -/
structure Handling (s : Process) (held : List Shared) (x : Instance × Store Shared) : Prop where
  owns : x.2.Owns s.fields (held ++ ({ s with inst := x.1 } : Process).hand) s.live
  sockets : x.1.clients.map RmgClient.sockfd = s.sockets
  made : x.2.made = s.objects.made
  timed : x.1.Timed
  runMode : x.1.runMode = .primary

variable {glib : GLib} {s s' : Process} {held : List Shared} {x : Instance × Store Shared}

namespace Handling

theorem faults (h : Handling s held x) : x.2.faults = [] := h.owns.holds.faults

theorem use {o : Shared} (h : Handling s held x) (ho : o ∈ s.live) : Handling s held (x.1, x.2.use o) :=
  ⟨h.owns.use ho, h.sockets, (x.2.use_made o).trans h.made, h.timed, h.runMode⟩

private theorem keep {w : Instance} (h : Handling s held x)
    (hw : w.clients.map RmgClient.sockfd = x.1.clients.map RmgClient.sockfd)
    (hs : w.sources.flatMap GSource.executor = x.1.sources.flatMap GSource.executor) (ht : w.Timed)
    (hm : w.runMode = x.1.runMode) : Handling s held (w, x.2) := by
  have hhand : ({ s with inst := w } : Process).hand = ({ s with inst := x.1 } : Process).hand := by
    unfold hand Process.sockets
    dsimp only
    rw [hw, hs]
  refine ⟨?_, hw.trans h.sockets, h.made, ht, hm.trans h.runMode⟩
  rw [hhand]
  exact h.owns

/-- `rmg_friendtimer_trigger`. -/
private theorem arm {w : Instance} {source : GSource} (h : Handling s held x) (hw : w.clients = x.1.clients)
    (hs : w.sources = x.1.sources ++ [source]) (hf : source.executor = [.executor]) (ht : w.Timed)
    (hm : w.runMode = x.1.runMode) : Handling s held (w, x.2.ref .executor) := by
  have hlive : Shared.executor ∈ s.live := by simp [live]
  refine ⟨(h.owns.ref hlive).congr (.append_right _ ?_) (.refl _), ?_, (x.2.ref_made _).trans h.made, ht,
    hm.trans h.runMode⟩
  · have hhand : ({ s with inst := w } : Process).hand = ({ s with inst := x.1 } : Process).hand ++ [.executor] := by
      unfold hand Process.sockets
      dsimp only
      rw [hw, hs, List.flatMap_append, List.flatMap_singleton, hf, ← List.append_assoc]
    rw [hhand, ← List.append_assoc]
    exact (List.perm_append_singleton _ _).symm
  · rw [hw]
    exact h.sockets

/-- No operation that uses a listed client at most goes wrong. -/
theorem apply {op : Op} {e : Bool} (hop : op.Reaches s.sockets) (h : Handling s held x) :
    Handling s held (objectsMachine.apply op e x).2 := by
  have ht := (Instance.clocked_apply op e x.1).timed h.timed
  have hm : (Instance.apply op e x.1).2.runMode = x.1.runMode :=
    congrArg Instance.Identity.runMode (Instance.apply_identity op e x.1)
  have hclient : ∀ sockfd ∈ s.sockets, Shared.client sockfd ∈ s.live := fun sockfd hx => by
    unfold live
    simp [hx]
  cases op with
  | sql q =>
    show Handling s held ((Instance.apply (.sql q) e x.1).2, x.2)
    rcases Instance.apply_sql x.1 q e with h' | ⟨j, -, h'⟩
    · rw [h']
      exact h
    · rw [h'] at ht hm ⊢
      unfold Instance.commit at ht hm ⊢
      split
      · exact h
      · exact h.keep rfl rfl ⟨h.timed.nodup, h.timed.lt⟩ rfl
  | pushDispatcher event => exact (h.use (o := .dispatcher) (by simp [live])).keep rfl rfl ht hm
  | pushExecutor type event => exact (h.use (o := .executor) (by simp [live])).keep rfl rfl ht hm
  | getClients => exact (h.use (o := .server) (by simp [live])).keep rfl rfl ht hm
  | setClientName sockfd name =>
    refine (h.use (hclient sockfd hop)).keep ?_ rfl ht hm
    show (x.1.clients.map _).map RmgClient.sockfd = _
    rw [List.map_map]
    refine List.map_congr_left fun c _ => ?_
    show RmgClient.sockfd (if _ then _ else _) = _
    split <;> rfl
  | clientSend sockfd msg => cases e <;> exact (h.use (hclient sockfd hop)).keep rfl rfl ht hm
  | timeoutAddSeconds seconds data =>
    cases data with
    | friend timer => exact h.arm rfl rfl rfl ht hm
    | relax timer =>
      refine h.keep rfl ?_ ht hm
      show (x.1.sources ++ [_]).flatMap GSource.executor = _
      rw [List.flatMap_append]
      exact List.append_nil _
  | managerSend => cases e <;> exact h.keep rfl rfl ht hm
  | _ => exact h.keep rfl rfl ht hm

/-- The callback is over, and so are its source and what the source refers to. -/
theorem finish {c : Store Shared} (h : Handling s held x) (hr : Store.Released s.fields held x.2 c)
    (hheld : ∀ o ∈ held, o = .executor) :
    Handling { s with inst := x.1, objects := c } [] (x.1, c) ∧ c.made = s.objects.made := by
  obtain ⟨hc, hmade⟩ := h.owns.release_held hr fun o ho => by
    rw [hheld o ho]
    unfold hand
    simp
  have hsockets : ({ s with inst := x.1, objects := c } : Process).sockets = s.sockets := h.sockets
  refine ⟨⟨?_, rfl, rfl, h.timed, h.runMode⟩, hmade.trans h.made⟩
  show c.Owns (Shared.fields _ _) (({ s with inst := x.1, objects := c } : Process).hand) _
  rw [hsockets]
  unfold live
  rw [hsockets]
  exact hc

end Handling

/-! ### The callbacks -/

private theorem triple_reaches {p : Proc PUnit} (hp : p.Calls (Op.Reaches s.sockets)) :
    Triple objectsMachine Unreliable (Handling s held) p (fun _ => Handling s held) (Handling s held) :=
  .of_calls (fun _ _ _ hop _ h => h.apply hop) hp

/-- The dispatcher sends to listed clients only. -/
private theorem triple_dispatch (event : EventRef) :
    Triple objectsMachine Unreliable (Handling s held) (dispatcherSourceCallback event)
      (fun _ => Handling s held) (Handling s held) := by
  refine .of_within (fun op e x ha _ hx => ?_) (within_dispatcherSourceCallback event (· ∈ s.sockets) .primary 0 0 0)
  have hop : op.Reaches s.sockets := by
    cases op with
    | clientSend sockfd msg => exact ha.2
    | setClientName => exact ha.elim
    | _ => trivial
  refine ⟨hx.apply hop, ?_⟩
  cases op with
  | getRunMode => exact hx.runMode
  | getClients =>
    refine fun c hc => ?_
    rw [← hx.sockets]
    exact List.mem_map_of_mem hc
  | _ => trivial

private theorem reaches_of_executes {op : Op} (h : op.Executes) : op.Reaches s.sockets := by
  rcases h with ⟨-, h⟩ | ⟨msg, rfl⟩
  · cases op with
    | setClientName | clientSend => exact h.elim
    | _ => trivial
  · trivial

private theorem reaches_of_aside {op : Op} (h : op.Aside) : op.Reaches s.sockets := by
  cases op with
  | setClientName | clientSend => exact h.elim
  | _ => trivial

private theorem calls_pushServiceEvent_reaches (type : DispatcherEventType) (msg : RmgMessage) :
    (pushServiceEvent type msg).Calls (Op.Reaches s.sockets) :=
  ⟨trivial, fun _ => ⟨trivial, fun _ => ⟨trivial, fun _ => trivial⟩⟩⟩

private theorem calls_clientProcessMessage_reaches {sockfd : Nat} (h : sockfd ∈ s.sockets) (msg : RmgMessage) :
    (clientProcessMessage sockfd msg).Calls (Op.Reaches s.sockets) := by
  unfold clientProcessMessage
  split <;> first | exact calls_pushServiceEvent_reaches _ msg | exact ⟨h, fun _ => trivial⟩ | trivial

private theorem calls_managerProcessMessage_reaches (msg : RmgMessage) :
    (managerProcessMessage msg).Calls (Op.Reaches s.sockets) := by
  unfold managerProcessMessage
  split <;> first | exact calls_pushServiceEvent_reaches _ msg | exact ⟨trivial, fun _ => ⟨trivial, fun _ =>
    ⟨trivial, fun _ => trivial⟩⟩⟩ | trivial

private theorem triple_callback {w w₀ : Instance} {l : Label} {p : Proc PUnit} (hc : Instance.Callback glib w l w₀ p)
    (hl : ∀ sockfd msg, l = .fromReplica sockfd msg → sockfd ∈ s.sockets) :
    Triple objectsMachine Unreliable (Handling s held) p (fun _ => Handling s held) (Handling s held) := by
  cases hc with
  | crash | restarted | newCrash => exact triple_reaches ⟨trivial, fun _ => ⟨trivial, fun _ => trivial⟩⟩
  | fromReplica sockfd msg => exact triple_reaches (calls_clientProcessMessage_reaches (hl _ _ rfl) msg)
  | fromPrimary msg => exact triple_reaches (calls_managerProcessMessage_reaches msg)
  | dispatch => exact triple_dispatch _
  | execute => exact triple_reaches ((calls_executorSourceCallback _ _).mono fun _ => reaches_of_executes)
  | expire => exact triple_reaches ((calls_timerCallback _).mono fun _ => reaches_of_aside)
  | tick => exact .ret fun _ h => h
  | restart gdir => exact triple_reaches ((calls_boot glib gdir).mono fun _ => reaches_of_aside)

/-! ### Steps -/

/-- Between two events. -/
structure Sound (s : Process) : Prop where
  handling : Handling s [] (s.inst, s.objects)
  sockets : ∀ sockfd, .client sockfd ∈ s.objects.made ↔ sockfd ∈ s.opened
  entries : ∀ id, .mentry id ∈ s.objects.made ↔ id < s.entries

private theorem Handling.rebase (h : Handling s held x) : Handling { s with objects := x.2 } held x :=
  ⟨h.owns, h.sockets, rfl, h.timed, h.runMode⟩

private theorem executor_cases (source : GSource) : source.executor = [] ∨ source.executor = [.executor] := by
  obtain ⟨id, deadline, data⟩ := source
  cases data with
  | friend => exact .inr rfl
  | relax => exact .inl rfl

private theorem find_source {w : Instance} {source : GSource} (ht : w.Timed) (hx : source ∈ w.sources)
    (hd : source.deadline ≤ w.now) :
    w.sources.find? (fun x => x.id = source.id ∧ x.deadline ≤ w.now) = some source := by
  refine List.find?_eq_some_iff_append.2 ⟨by simpa using hd, ?_⟩
  obtain ⟨ys, zs, hl⟩ := List.append_of_mem hx
  refine ⟨ys, zs, hl, fun y hy => ?_⟩
  have hnodup := ht.nodup
  rw [hl, List.map_append, List.map_cons, List.nodup_append] at hnodup
  have hne : y.id ≠ source.id := hnodup.2.2 y.id (List.mem_map_of_mem hy) source.id (by simp)
  simp [hne]

/-- The source of a timeout that has expired hands its reference over. -/
private theorem handling_expire {source : GSource} (h : Handling s [] (s.inst, s.objects))
    (hx : source ∈ s.inst.sources) :
    Handling s source.executor (({ s.inst with sources := s.inst.sources.filter (· ≠ source) } : Instance).emit
      (.timeoutExpired source), s.objects) := by
  have hnodup : s.inst.sources.Nodup := h.timed.nodup.of_map
  have hp : (s.inst.sources.flatMap GSource.executor).Perm
      (source.executor ++ (s.inst.sources.filter (· ≠ source)).flatMap GSource.executor) := by
    have herase : s.inst.sources.erase source = s.inst.sources.filter (· ≠ source) :=
      (hnodup.erase_eq_filter source).trans (List.filter_congr fun y _ => Bool.eq_iff_iff.2 (by simp))
    rw [← herase, ← List.flatMap_cons]
    exact (List.perm_cons_erase hx).flatMap_right _
  refine ⟨h.owns.congr (.append_right _ ?_) (.refl _), h.sockets, h.made, ⟨?_, fun y hy => ?_⟩, h.runMode⟩
  · exact (hp.append_left _).trans (List.perm_append_comm_assoc _ _ _)
  · exact (List.filter_sublist.map _).nodup h.timed.nodup
  · exact h.timed.lt y (List.mem_filter.1 hy).1

private theorem owns_rmgApplicationNew : rmgApplicationNew.Owns (Shared.fields [] [])
    [.executor, .dispatcher, .monitor, .crashmonitor] [.executor, .dispatcher, .server, .monitor, .crashmonitor] := by
  refine ⟨⟨fun o => ?_, rfl, by decide, by decide, fun o => ?_, fun o _ => ?_⟩, by decide, fun o => ?_⟩
  · cases o <;> rfl
  · show o ∈ [.executor, .dispatcher, .server, .monitor, .crashmonitor] ↔ _ ∨ o ∈ []
    cases o <;> simp [Shared.fields]
  · show o ∉ []
    exact List.not_mem_nil
  · cases o <;> simp [rmgApplicationNew, Store.new, Store.ref, Store.empty, Function.update]

private theorem sockets_rmgApplicationNew (sockfd : Nat) :
    .client sockfd ∈ rmgApplicationNew.made ↔ sockfd ∈ ([] : List Nat) := by
  simp [rmgApplicationNew, Store.new, Store.ref_made, Store.empty]

private theorem entries_rmgApplicationNew (id : Nat) : .mentry id ∈ rmgApplicationNew.made ↔ id < 0 := by
  simp [rmgApplicationNew, Store.new, Store.ref_made, Store.empty]

private theorem foldl_use_made (os : List Shared) (c : Store Shared) : (os.foldl Store.use c).made = c.made := by
  induction os generalizing c with
  | nil => rfl
  | cons o os ih => exact (ih (c.use o)).trans (c.use_made o)

private theorem Sound.begun {entry : Nat} {l : Label} (h : Sound s) (hlr : ∀ gdir, l ≠ .restart gdir) :
    (∀ sockfd, .client sockfd ∈ (s.begun entry l).objects.made ↔ sockfd ∈ (s.begun entry l).opened) ∧
      ∀ id, .mentry id ∈ (s.begun entry l).objects.made ↔ id < (s.begun entry l).entries := by
  have hmade : (s.begun entry l).objects.made = s.objects.made ∧ (s.begun entry l).opened = s.opened ∧
      (s.begun entry l).entries = s.entries := by
    cases l with
    | restart gdir => exact absurd rfl (hlr gdir)
    | expire id => exact ⟨foldl_use_made _ _, rfl, rfl⟩
    | _ => exact ⟨by simp [Process.begun], rfl, rfl⟩
  rw [hmade.1, hmade.2.1, hmade.2.2]
  exact ⟨h.sockets, h.entries⟩

/-- A callback starts with the reference its source hands over. -/
private theorem handling_begun {entry : Nat} {l : Label} {w₀ : Instance} {p : Proc PUnit} (h : Sound s)
    (hl : ∀ sockfd msg, l = .fromReplica sockfd msg → sockfd ∈ s.sockets) (hentry : changes l → entry ∈ s.services)
    (hlr : ∀ gdir, l ≠ .restart gdir) (hc : Instance.Callback glib s.inst l w₀ p) :
    Handling (s.begun entry l) (s.taken l) (w₀, (s.begun entry l).objects) := by
  have hs := h.handling
  cases hc with
  | crash | restarted =>
    have hm : entry ∈ s.services := hentry rfl
    exact (hs.use (o := .mentry entry) (by simp [live, hm])).rebase
  | newCrash => exact (hs.use (o := .crashmonitor) (by simp [live])).rebase
  | fromPrimary => exact hs
  | tick => exact hs.keep rfl rfl ⟨hs.timed.nodup, hs.timed.lt⟩ rfl
  | fromReplica sockfd msg =>
    have hm := hl sockfd msg rfl
    exact (hs.use (o := .client sockfd) (by simp [live, hm])).rebase
  | @dispatch event queue hq =>
    have hw : Handling s [] ({ s.inst with dispatcherQueue := queue }, s.objects.use .dispatcher) :=
      (hs.use (by simp [live])).keep rfl rfl ⟨hs.timed.nodup, hs.timed.lt⟩ rfl
    exact hw.rebase
  | @execute type event queue hq =>
    have hw : Handling s [] ({ s.inst with executorQueue := queue }, s.objects.use .executor) :=
      (hs.use (by simp [live])).keep rfl rfl ⟨hs.timed.nodup, hs.timed.lt⟩ rfl
    exact hw.rebase
  | @expire source hm hd =>
    have htaken : s.taken (.expire source.id) = source.executor := by
      show (match s.inst.sources.find? _ with | none => [] | some source => source.executor) = _
      rw [find_source hs.timed hm hd]
    have hexp := handling_expire hs hm
    show Handling { s with objects := (s.taken (.expire source.id)).foldl Store.use s.objects } _
      (_, (s.taken (.expire source.id)).foldl Store.use s.objects)
    rw [htaken]
    rcases executor_cases source with he | he
    · rw [he] at hexp ⊢
      exact hexp.rebase
    · rw [he] at hexp ⊢
      exact (hexp.use (o := .executor) (by simp [live])).rebase
  | restart gdir => exact absurd rfl (hlr gdir)

private theorem handling_restarted {entry : Nat} (hm : s.inst.runMode = .primary) (gdir : Option (List UnitFile)) :
    Handling (s.begun entry (.restart gdir)) [] (s.inst.restarted, (s.begun entry (.restart gdir)).objects) :=
  ⟨owns_rmgApplicationNew, rfl, rfl, ⟨.nil, by simp [Instance.restarted]⟩, hm⟩

private theorem taken_executor (s : Process) (l : Label) : ∀ o ∈ s.taken l, o = .executor := by
  intro o ho
  cases l with
  | expire id =>
    have ho : o ∈ (match s.inst.sources.find? _ with | none => [] | some source => source.executor) := ho
    split at ho
    · cases ho
    · rename_i source _
      rcases executor_cases source with he | he
      · rw [he] at ho
        cases ho
      · rw [he] at ho
        exact List.mem_singleton.1 ho
  | _ => cases ho

/-! ### Connections and entries -/

private theorem flatMap_live (s : Process) : s.live.flatMap s.fields =
    [.server, .executor, .server] ++ (.dispatcher :: s.sockets.map .client) ++
      (.dispatcher :: s.services.map .mentry) ++ [.dispatcher] ++ s.sockets.flatMap (fun _ => [.dispatcher, .server]) ++
        (s.pending ++ s.services).map (fun _ => .dispatcher) := by
  unfold live
  rw [List.flatMap_append, List.flatMap_append, List.flatMap_map, List.flatMap_map,
    List.map_eq_flatMap (l := s.pending ++ _)]
  simp only [List.flatMap_cons, List.flatMap_nil, List.append_nil, List.append_assoc]
  rfl

/-- The references before and after a client is there. -/
private theorem perm_of_client {a b : Process} {sockfd : Nat} (hs : b.sockets.Perm (sockfd :: a.sockets))
    (hp : b.pending = a.pending) (hv : b.services = a.services) (hw : b.inst.sources = a.inst.sources) :
    (.client sockfd :: .client sockfd :: a.hand ++ (.client sockfd :: a.live).flatMap a.fields).Perm
      (b.hand ++ b.live.flatMap b.fields) ∧ (.client sockfd :: a.live).Perm b.live := by
  have h₁ := (hs.map Shared.client).count_eq
  have h₂ := (hs.flatMap_right fun _ => [Shared.dispatcher, Shared.server]).count_eq
  refine ⟨List.perm_iff_count.2 fun o => ?_, List.perm_iff_count.2 fun o => ?_⟩
  · have h₁ := h₁ o
    have h₂ := h₂ o
    rw [List.flatMap_cons, flatMap_live, flatMap_live]
    unfold hand
    rw [hp, hv, hw]
    simp only [fields, Shared.fields, List.count_append, List.count_cons, List.count_nil, List.map_cons,
      List.flatMap_cons] at h₁ h₂ ⊢
    omega
  · have h₁ := h₁ o
    unfold live
    rw [hp, hv]
    simp only [List.count_append, List.count_cons, List.count_nil, List.map_cons] at h₁ ⊢
    omega

/-- The references before and after an entry is there. -/
private theorem perm_of_entry {a b : Process} {id : Nat} (hp : b.pending.Perm (id :: a.pending))
    (hs : b.sockets = a.sockets) (hv : b.services = a.services) (hw : b.inst.sources = a.inst.sources) :
    (.mentry id :: a.hand ++ (.mentry id :: a.live).flatMap a.fields).Perm
      (b.hand ++ b.live.flatMap b.fields) ∧ (.mentry id :: a.live).Perm b.live := by
  have h₁ := (hp.map Shared.mentry).count_eq
  have h₂ := (hp.map fun _ => Shared.dispatcher).count_eq
  refine ⟨List.perm_iff_count.2 fun o => ?_, List.perm_iff_count.2 fun o => ?_⟩
  · have h₁ := h₁ o
    have h₂ := h₂ o
    rw [List.flatMap_cons, flatMap_live, flatMap_live]
    unfold hand
    rw [hs, hv, hw]
    simp only [fields, Shared.fields, List.count_append, List.count_cons, List.count_nil, List.map_cons,
      List.map_append] at h₁ h₂ ⊢
    omega
  · have h₁ := h₁ o
    unfold live
    rw [hs, hv]
    simp only [List.count_append, List.count_cons, List.count_nil, List.map_cons, List.map_append] at h₁ ⊢
    omega

/-- While the process runs all is sound, and it never ends with a fault. -/
def Kept (s : Process) : Prop := s.objects.faults = [] ∧ s.inst.runMode = .primary ∧ (s.inst.running → Sound s)

private theorem kept_loop {entry : Nat} {l : Label} {w₀ : Instance} {p : Proc PUnit} {o : Outcome PUnit}
    {y : Instance × Store Shared} {c : Store Shared} (h : Kept s)
    (hl : ∀ sockfd msg, l = .fromReplica sockfd msg → sockfd ∈ s.sockets) (hentry : changes l → entry ∈ s.services)
    (he : s.inst.enabled glib l = some (w₀, p))
    (hx : Exec objectsMachine Unreliable p (w₀, (s.begun entry l).objects) o y)
    (hr : Store.Released (s.begun entry l).fields (s.closes l o) y.2 c) :
    Kept { s.begun entry l with inst := Instance.ended o y.1, objects := c } := by
  obtain ⟨-, hmode, hsound⟩ := h
  have hstart : Handling (s.begun entry l) (s.taken l) (w₀, (s.begun entry l).objects) ∧
      (∀ sockfd, .client sockfd ∈ (s.begun entry l).objects.made ↔ sockfd ∈ (s.begun entry l).opened) ∧
        ∀ id, .mentry id ∈ (s.begun entry l).objects.made ↔ id < (s.begun entry l).entries := by
    by_cases hlr : ∃ gdir, l = .restart gdir
    · obtain ⟨gdir, rfl⟩ := hlr
      cases Instance.callback_of_enabled he
      exact ⟨handling_restarted hmode gdir, sockets_rmgApplicationNew, entries_rmgApplicationNew⟩
    · have hlr : ∀ gdir, l ≠ .restart gdir := fun gdir hg => hlr ⟨gdir, hg⟩
      have h := hsound (Instance.running_of_enabled he hlr)
      exact ⟨handling_begun h hl hentry hlr (Instance.callback_of_enabled he), h.begun hlr⟩
  obtain ⟨hstart, hsockets, hentries⟩ := hstart
  have ht : Triple objectsMachine Unreliable (Handling (s.begun entry l) (s.taken l)) p
      (fun _ => Handling (s.begun entry l) (s.taken l)) (Handling (s.begun entry l) (s.taken l)) :=
    triple_callback (Instance.callback_of_enabled he) fun sockfd msg hm => by
      subst hm
      exact hl sockfd msg rfl
  have hend := ht _ o y hstart hx
  cases o with
  | done a =>
    have hy : Handling (s.begun entry l) (s.taken l) y := hend
    obtain ⟨hfin, hmade⟩ := hy.finish hr (taken_executor s l)
    exact ⟨hfin.faults, hfin.runMode, fun _ => ⟨hfin, fun sockfd => hmade ▸ hsockets sockfd,
      fun id => hmade ▸ hentries id⟩⟩
  | aborted | killed =>
    have hy : Handling (s.begun entry l) (s.taken l) y := hend
    obtain rfl := hr.unique ⟨0, rfl⟩
    exact ⟨hy.faults, hy.runMode, fun hrun => by cases hrun⟩

private theorem Sound.not_made (h : Sound s) : .mentry s.entries ∉ s.objects.made := fun hm =>
  ((h.entries _).1 hm).false

private theorem Sound.nodup (h : Sound s) : s.sockets.Nodup := by
  have hl := h.handling.owns.nodup
  unfold live at hl
  exact ((List.nodup_append.1 (List.nodup_append.1 hl).1).2.1).of_map

private theorem not_mem_executor {o : Shared} (s : Process) (h : o ≠ .executor) :
    o ∉ s.inst.sources.flatMap GSource.executor := by
  intro ho
  obtain ⟨source, -, ho⟩ := List.mem_flatMap.1 ho
  rcases executor_cases source with he | he <;> rw [he] at ho
  · cases ho
  · exact h (List.mem_singleton.1 ho)

private theorem count_timers_of_ne {o : Shared} (s : Process) (h : o ≠ .executor) :
    (s.inst.sources.flatMap GSource.executor).count o = 0 := List.count_eq_zero.2 (not_mem_executor s h)

private theorem count_timers (s : Process) : (s.inst.sources.flatMap GSource.executor).count .executor =
    (s.inst.sources.flatMap GSource.executor).length := by
  refine List.count_eq_length.2 fun o ho => ?_
  by_contra hne
  exact not_mem_executor s (fun he => hne he.symm) ho

private theorem count_map_of_ne {f : Nat → Shared} {o : Shared} (ns : List Nat) (h : ∀ n, f n ≠ o) :
    (ns.map f).count o = 0 := List.count_eq_zero.2 (by simpa using fun n _ => h n)

private theorem count_clients (sockets : List Nat) (o : Shared) :
    (sockets.flatMap fun _ => [Shared.dispatcher, Shared.server]).count o =
      if o = .dispatcher ∨ o = .server then sockets.length else 0 := by
  induction sockets with
  | nil => simp
  | cons sockfd sockets ih =>
    rw [List.flatMap_cons, List.count_append, ih]
    cases o <;> simp [Nat.add_comm]

private theorem client_not_mem {sockfd : Nat} (h : sockfd ∉ s.sockets) :
    .client sockfd ∉ s.hand ++ (.client sockfd :: s.live).flatMap s.fields := by
  rw [List.flatMap_cons, flatMap_live]
  simp [hand, fields, Shared.fields, h, not_mem_executor s (o := .client sockfd)]

private theorem mentry_not_mem {id : Nat} (hp : id ∉ s.pending) (hs : id ∉ s.services) :
    .mentry id ∉ s.hand ++ (.mentry id :: s.live).flatMap s.fields := by
  rw [List.flatMap_cons, flatMap_live]
  simp [hand, fields, Shared.fields, hp, hs, not_mem_executor s (o := .mentry id)]

/-- All but `x` is in hand, or the dispatcher or the monitor has it. -/
private theorem supported_rest {o : Shared} (s : Process) (hd : o ≠ .dispatcher) (hm : o ≠ .monitor) :
    Store.Supported s.fields s.hand fun p => p ∈ o :: s.live ∧ p ≠ o := by
  rintro p ⟨hp, hne⟩
  have hlive : p ∈ s.live := (List.mem_cons.1 hp).resolve_left hne
  by_cases hserver : p ∈ s.fields .dispatcher
  · exact .inr ⟨.dispatcher, ⟨by simp [live], hd.symm⟩, hserver⟩
  by_cases hservices : p ∈ s.fields .monitor
  · exact .inr ⟨.monitor, ⟨by simp [live], hm.symm⟩, hservices⟩
  refine .inl ?_
  cases p <;> simp_all [live, hand, fields, Shared.fields]

private theorem sound_accept {sockfd : Nat} (h : Sound s) (hnew : sockfd ∉ s.opened) :
    Sound
      { s.withClients (s.inst.clients ++ [⟨sockfd, none⟩]) with
        objects := serverSourceCallback sockfd s.objects
        opened := s.opened ++ [sockfd] } := by
  have hs := h.handling
  have hmade : .client sockfd ∉ (s.objects.use .server).made := by
    rw [Store.use_made, h.sockets]
    exact hnew
  have hfields : ∀ p ∈ s.fields (.client sockfd), p ∈ s.live := by
    show ∀ p ∈ [Shared.dispatcher, Shared.server], _
    simp [live]
  have huse : (s.objects.use .server).Owns s.fields s.hand s.live := hs.owns.use (by simp [live])
  have hclient : (serverSourceCallback sockfd s.objects).Owns s.fields
      (.client sockfd :: .client sockfd :: s.hand) (.client sockfd :: s.live) :=
    (huse.make hmade hfields).ref (List.mem_cons_self ..)
  have hperm : (s.withClients (s.inst.clients ++ [⟨sockfd, none⟩])).sockets.Perm (sockfd :: s.sockets) := by
    show ((s.inst.clients ++ [_]).map RmgClient.sockfd).Perm _
    rw [List.map_append]
    exact List.perm_append_singleton _ _
  obtain ⟨hp, hl⟩ := perm_of_client hperm rfl rfl rfl
  have hall : (serverSourceCallback sockfd s.objects).made = s.objects.made ++ [.client sockfd] := by
    simp only [serverSourceCallback, Store.ref_made, Store.new, Store.use_made]
  refine ⟨⟨hclient.congr hp hl, rfl, rfl, ⟨hs.timed.nodup, hs.timed.lt⟩, hs.runMode⟩, fun fd => ?_, fun id => ?_⟩
  · show _ ∈ (serverSourceCallback sockfd s.objects).made ↔ fd ∈ s.opened ++ [sockfd]
    rw [hall, List.mem_append, List.mem_append, h.sockets]
    simp
  · show _ ∈ (serverSourceCallback sockfd s.objects).made ↔ id < s.entries
    rw [hall, List.mem_append, h.entries]
    simp

private theorem sound_disconnect {sockfd : Nat} {c : Store Shared} (h : Sound s) (hm : sockfd ∈ s.sockets)
    (hr : Store.Released (s.withClients (s.inst.clients.filter (·.sockfd ≠ sockfd))).fields
      [.client sockfd, .client sockfd] ((s.objects.use (.client sockfd)).use .server) c) :
    Sound { s.withClients (s.inst.clients.filter (·.sockfd ≠ sockfd)) with objects := c } := by
  have hs := h.handling
  have hsockets : (s.withClients (s.inst.clients.filter (·.sockfd ≠ sockfd))).sockets =
      s.sockets.filter (· ≠ sockfd) := by
    show (s.inst.clients.filter _).map _ = (s.inst.clients.map _).filter _
    rw [List.filter_map]
    rfl
  have hperm : s.sockets.Perm (sockfd :: (s.withClients (s.inst.clients.filter (·.sockfd ≠ sockfd))).sockets) := by
    have herase : s.sockets.erase sockfd = s.sockets.filter (· ≠ sockfd) := by
      rw [h.nodup.erase_eq_filter]
      exact List.filter_congr fun y _ => Bool.eq_iff_iff.2 (by simp)
    rw [hsockets, ← herase]
    exact List.perm_cons_erase hm
  obtain ⟨hp, hl⟩ := perm_of_client hperm rfl rfl rfl
  have howns := ((hs.owns.use (o := .client sockfd) (by simp [live, hm])).use (o := .server) (by simp [live])).congr
    hp.symm hl.symm
  have hnot : sockfd ∉ (s.withClients (s.inst.clients.filter (·.sockfd ≠ sockfd))).sockets := by
    rw [hsockets]
    simp
  obtain ⟨hc, hmade⟩ := Store.Owns.release_last (x := Shared.client sockfd) howns hr (client_not_mem hnot)
    (supported_rest _ (by simp) (by simp))
  rw [List.erase_cons_head] at hc
  have hmade : c.made = s.objects.made := by rw [hmade, Store.use_made, Store.use_made]
  refine ⟨⟨hc, rfl, rfl, ⟨hs.timed.nodup, hs.timed.lt⟩, hs.runMode⟩, fun fd => hmade ▸ h.sockets fd,
    fun id => hmade ▸ h.entries id⟩

private theorem sound_unitNew (h : Sound s) :
    Sound
      { s with
        objects := addService s.entries s.objects
        entries := s.entries + 1
        pending := s.pending ++ [s.entries] } := by
  have hs := h.handling
  have hmade : .mentry s.entries ∉ (s.objects.use .monitor).made := by
    rw [Store.use_made]
    exact h.not_made
  have hfields : ∀ p ∈ s.fields (.mentry s.entries), p ∈ s.live := by
    show ∀ p ∈ [Shared.dispatcher], _
    simp [live]
  have huse : (s.objects.use .monitor).Owns s.fields s.hand s.live := hs.owns.use (by simp [live])
  have hentry : (addService s.entries s.objects).Owns s.fields (.mentry s.entries :: s.hand)
      (.mentry s.entries :: s.live) := huse.make hmade hfields
  obtain ⟨hp, hl⟩ := perm_of_entry (a := s) (b := { s with pending := s.pending ++ [s.entries] })
    (List.perm_append_singleton s.entries _) rfl rfl rfl
  have hall : (addService s.entries s.objects).made = s.objects.made ++ [.mentry s.entries] := by
    simp only [addService, Store.ref_made, Store.new, Store.use_made]
  refine ⟨⟨hentry.congr hp hl, rfl, rfl, hs.timed, hs.runMode⟩, fun fd => ?_, fun id => ?_⟩
  · show _ ∈ (addService s.entries s.objects).made ↔ fd ∈ s.opened
    rw [hall, List.mem_append, h.sockets]
    simp
  · show _ ∈ (addService s.entries s.objects).made ↔ id < s.entries + 1
    rw [hall, List.mem_append, h.entries, Nat.lt_succ_iff_lt_or_eq]
    simp

private theorem sound_ready {id : Nat} (h : Sound s) (hm : id ∈ s.pending) :
    Sound
      { s with
        objects := (s.objects.use (.mentry id)).use .monitor
        pending := s.pending.erase id
        services := id :: s.services } := by
  have hs := h.handling
  have huse : ((s.objects.use (.mentry id)).use .monitor).Owns s.fields s.hand s.live :=
    Store.Owns.use (hs.owns.use (by simp [live, hm])) (by simp [live])
  have hmade : ((s.objects.use (.mentry id)).use .monitor).made = s.objects.made := by
    rw [Store.use_made, Store.use_made]
  have h₁ := ((List.perm_cons_erase hm).map Shared.mentry).count_eq
  have h₂ := ((List.perm_cons_erase hm).map fun _ => Shared.dispatcher).count_eq
  refine ⟨⟨huse.congr (List.perm_iff_count.2 fun o => ?_) (List.perm_iff_count.2 fun o => ?_), rfl, rfl, hs.timed,
    hs.runMode⟩, fun fd => hmade ▸ h.sockets fd, fun id' => hmade ▸ h.entries id'⟩
  · have h₁ := h₁ o
    have h₂ := h₂ o
    show _ = List.count o (_ ++ List.flatMap (Process.fields _) (Process.live _))
    rw [flatMap_live, flatMap_live]
    unfold hand sockets
    simp only [List.count_append, List.count_cons, List.count_nil, List.map_cons, List.map_append] at h₁ h₂ ⊢
    omega
  · have h₁ := h₁ o
    unfold live sockets
    simp only [List.count_append, List.count_cons, List.count_nil, List.map_cons, List.map_append] at h₁ ⊢
    omega

private theorem sound_failed {id : Nat} {c : Store Shared} (h : Sound s) (hm : id ∈ s.pending)
    (hr : Store.Released s.fields [.mentry id] (s.objects.use (.mentry id)) c) :
    Sound { s with objects := c, pending := s.pending.erase id } := by
  have hs := h.handling
  have hnodup : (s.pending ++ s.services).Nodup := by
    have hl := hs.owns.nodup
    unfold live at hl
    exact (List.nodup_append.1 hl).2.1.of_map
  have hpending : id ∉ s.pending.erase id := ((List.nodup_append.1 hnodup).1).not_mem_erase
  have hservices : id ∉ s.services := fun hv => (List.nodup_append.1 hnodup).2.2 id hm id hv rfl
  obtain ⟨hp, hl⟩ := perm_of_entry (a := { s with pending := s.pending.erase id }) (b := s)
    (List.perm_cons_erase hm) rfl rfl rfl
  have howns := (hs.owns.use (o := .mentry id) (by simp [live, hm])).congr hp.symm hl.symm
  obtain ⟨hc, hmade⟩ := Store.Owns.release_last (x := Shared.mentry id) howns hr
    (mentry_not_mem (s := { s with pending := s.pending.erase id }) hpending hservices)
    (supported_rest _ (by simp) (by simp))
  rw [List.erase_cons_head] at hc
  have hmade : c.made = s.objects.made := by rw [hmade, Store.use_made]
  refine ⟨⟨hc, rfl, rfl, hs.timed, hs.runMode⟩, fun fd => hmade ▸ h.sockets fd, fun id' => hmade ▸ h.entries id'⟩

/-! ### Runs -/

theorem Step.kept {e : Event} (hs : Step glib s e s') (h : Kept s) : Kept s' := by
  have hkept : ∀ {s' : Process}, s'.inst.runMode = s.inst.runMode → Sound s' → Kept s' := fun hm hs =>
    ⟨hs.handling.faults, hm.trans h.2.1, fun _ => hs⟩
  cases hs with
  | loop hl hentry he hx hr => exact kept_loop h hl hentry he hx hr
  | accept hrun _ hnew => exact hkept rfl (sound_accept (h.2.2 hrun) hnew)
  | acceptFails hrun =>
    have hsound := h.2.2 hrun
    have hw := hsound.handling
    exact hkept rfl ⟨⟨hw.owns, hw.sockets, hw.made, hw.timed, hw.runMode⟩, hsound.sockets, hsound.entries⟩
  | disconnect hrun hm hr => exact hkept rfl (sound_disconnect (h.2.2 hrun) hm hr)
  | unitNew hrun => exact hkept rfl (sound_unitNew (h.2.2 hrun))
  | ready hrun hm => exact hkept rfl (sound_ready (h.2.2 hrun) hm)
  | failed hrun hm hr => exact hkept rfl (sound_failed (h.2.2 hrun) hm hr)

/-- A primary that has come up. -/
def primary (w : Instance) : Process := ⟨w, rmgApplicationNew, [], true, 0, [], []⟩

private theorem kept_of_run {w : Instance} {es : List Event} (h₀ : w.Fresh) (hc : w.clients = [])
    (hm : w.runMode = .primary) (hr : Transition.Run (Step glib) (primary w) es s) : Kept s := by
  refine hr.invariant ?_ fun _ _ _ h hs => hs.kept h
  have hhandling : Handling (primary w) [] (w, rmgApplicationNew) := by
    refine ⟨?_, rfl, rfl, ⟨?_, ?_⟩, hm⟩
    · unfold hand live fields sockets primary
      rw [hc, h₀.sources]
      exact owns_rmgApplicationNew
    · rw [h₀.sources]
      exact .nil
    · rw [h₀.sources]
      simp
  exact ⟨rfl, hm, fun _ => ⟨hhandling, sockets_rmgApplicationNew, entries_rmgApplicationNew⟩⟩

/-- In every run of a primary, with replicas that connect and go, units that appear and entries whose proxies come up or
fail, and with any statement or send failing: no object is used, referenced or released after it has been freed, and
while the process runs a client or an entry that was made has been freed, and once, exactly if it is neither listed nor
waited for.  The executor is held by its friend timers besides, the dispatcher and the server by each client, the
monitors by the application alone. -/
theorem objects_freed_once {w : Instance} {es : List Event} (h₀ : w.Fresh) (hc : w.clients = [])
    (hm : w.runMode = .primary) (hr : Transition.Run (Step glib) (primary w) es s) :
    s.objects.faults = [] ∧ (s.inst.running →
      s.sockets.Nodup ∧ s.objects.freed.Nodup ∧
      (∀ sockfd, .client sockfd ∈ s.objects.freed ↔ sockfd ∈ s.opened ∧ sockfd ∉ s.sockets) ∧
      (∀ id, .mentry id ∈ s.objects.freed ↔ id < s.entries ∧ id ∉ s.pending ++ s.services) ∧
      (∀ sockfd ∈ s.sockets, s.objects.count (.client sockfd) = 2) ∧
      s.objects.count .executor = 2 + (s.inst.sources.flatMap GSource.executor).length ∧
      s.objects.count .dispatcher = 4 + s.sockets.length + (s.pending ++ s.services).length ∧
      s.objects.count .server = 2 + s.sockets.length ∧
      s.objects.count .monitor = 1 ∧ s.objects.count .crashmonitor = 1) := by
  obtain ⟨hf, -, hsound⟩ := kept_of_run h₀ hc hm hr
  refine ⟨hf, fun hrun => ?_⟩
  have h := hsound hrun
  have howns : s.objects.Owns s.fields s.hand s.live := h.handling.owns
  have hcount : ∀ o, s.objects.count o = (s.hand ++ s.live.flatMap s.fields).count o := fun o => by
    rw [howns.holds.count, Multiset.coe_count]
  refine ⟨h.nodup, howns.holds.freed, fun sockfd => ?_, fun id => ?_, fun sockfd hs => ?_, ?_, ?_, ?_, ?_, ?_⟩
  · rw [howns.mem_freed, h.sockets]
    simp [live]
  · rw [howns.mem_freed, h.entries]
    simp [live]
  · have hone : (s.sockets.map Shared.client).count (.client sockfd) = 1 :=
      List.count_eq_one_of_mem (h.nodup.map fun a b he => by simpa using he) (List.mem_map_of_mem hs)
    rw [hcount, flatMap_live, hand]
    simp [count_map_of_ne, count_timers_of_ne, count_clients, List.count_replicate, hone]
  · rw [hcount, flatMap_live, hand]
    simp [-List.length_flatMap, count_map_of_ne, count_timers, count_clients, List.count_replicate]
    omega
  · rw [hcount, flatMap_live, hand]
    simp [count_map_of_ne, count_timers_of_ne, count_clients]
    omega
  · rw [hcount, flatMap_live, hand]
    simp [count_map_of_ne, count_timers_of_ne, count_clients, List.count_replicate]
    omega
  · rw [hcount, flatMap_live, hand]
    simp [count_map_of_ne, count_timers_of_ne, count_clients, List.count_replicate]
  · rw [hcount, flatMap_live, hand]
    simp [count_map_of_ne, count_timers_of_ne, count_clients, List.count_replicate]

/-- A replica that connects and goes again, and a unit that appears in between. -/
theorem objects_freed_once_after_disconnect : ∃ s, Transition.Run (Step (.reading []))
    (primary (Instance.initial .primary "host")) [.accept 5, .unitNew, .disconnect 5] s ∧
      .client 5 ∈ s.objects.freed ∧ s.objects.count .dispatcher = 5 := by
  have hr : Transition.Run (Step (.reading [])) (primary (Instance.initial .primary "host"))
      ([] ++ [.accept 5] ++ [.unitNew] ++ [.disconnect 5]) _ :=
    ((Transition.Run.nil.snoc (.accept rfl rfl List.not_mem_nil)).snoc (.unitNew rfl)).snoc
      (.disconnect rfl (List.mem_cons_self ..) ⟨4, rfl⟩)
  obtain ⟨-, h⟩ := objects_freed_once (Instance.fresh_initial _ _) rfl rfl hr
  obtain ⟨-, -, hclient, -, -, -, hdispatcher, -⟩ := h rfl
  exact ⟨_, hr, (hclient 5).2 ⟨List.mem_cons_self .., List.not_mem_nil⟩, hdispatcher⟩

/-- What nobody releases at the end. -/
private def heldToTheEnd (s : Process) : List Shared :=
  .executor :: (s.sockets.map .client ++ s.pending.map .mentry ++ s.inst.sources.flatMap GSource.executor)

private def HeldUp (s : Process) : Shared → Prop
  | .dispatcher | .executor | .server => True
  | .client sockfd => sockfd ∈ s.sockets
  | _ => False

private theorem live_of_heldUp {o : Shared} (h : s.HeldUp o) : o ∈ s.live := by
  cases o with
  | dispatcher | executor | server => simp [live]
  | client sockfd => simp [live, show sockfd ∈ s.sockets from h]
  | _ => exact h.elim

/-- The dispatcher and the server hold each other up. -/
private theorem supported_heldUp : Store.Supported s.fields s.heldToTheEnd s.HeldUp := by
  intro o h
  cases o with
  | dispatcher => exact .inr ⟨.server, trivial, List.mem_cons_self ..⟩
  | server => exact .inr ⟨.dispatcher, trivial, by simp [fields, Shared.fields]⟩
  | executor => exact .inl (List.mem_cons_self ..)
  | client sockfd => exact .inl (by simp [heldToTheEnd, show sockfd ∈ s.sockets from h])
  | _ => exact h.elim

/-- From any state of a run `rmg_application_unref` comes to an end, without a fault.  It frees the monitors and the
entries, but not the dispatcher, the executor, the server and the clients, since the dispatcher and the server hold
references to each other.  So `rmg_dispatcher_unref` never gets to unlink the socket. -/
theorem application_unref_keeps_dispatcher {w : Instance} {es : List Event} (h₀ : w.Fresh) (hc : w.clients = [])
    (hm : w.runMode = .primary) (hr : Transition.Run (Step glib) (primary w) es s) (hrun : s.inst.running) :
    (∃ c, s.RmgApplicationUnref c) ∧ ∀ c, s.RmgApplicationUnref c →
      c.faults = [] ∧ .dispatcher ∉ c.freed ∧ .executor ∉ c.freed ∧ .server ∉ c.freed ∧
      (∀ sockfd ∈ s.sockets, .client sockfd ∉ c.freed) ∧
      .monitor ∈ c.freed ∧ .crashmonitor ∈ c.freed ∧ ∀ id ∈ s.services, .mentry id ∈ c.freed := by
  have h := (kept_of_run h₀ hc hm hr).2.2 hrun
  have hp : s.hand.Perm ([.dispatcher, .monitor, .crashmonitor] ++ s.heldToTheEnd) := by
    unfold hand heldToTheEnd
    rw [List.append_assoc, List.append_assoc, ← List.append_assoc (s.sockets.map _)]
    exact List.perm_middle.symm
  have howns : s.objects.Owns s.fields ([.dispatcher, .monitor, .crashmonitor] ++ s.heldToTheEnd) s.live :=
    h.handling.owns.congr (hp.append_right _) (.refl _)
  refine ⟨howns.exists_released, fun c hr => ?_⟩
  obtain ⟨live', hc', hmade, -, hkeep⟩ := howns.release hr
  have hfreed : ∀ o ∈ s.live, o ∈ c.freed ↔ o ∉ live' := fun o ho => by
    rw [hc'.mem_freed, hmade]
    exact and_iff_right (howns.made_of_live ho)
  have hstays : ∀ o, s.HeldUp o → o ∉ c.freed := fun o ho hf =>
    (hfreed o (live_of_heldUp ho)).1 hf (hkeep _ supported_heldUp (fun _ => live_of_heldUp) o ho)
  have hgoes : ∀ o ∈ s.live, o ∉ s.heldToTheEnd → (∀ p ∈ live', o ∉ s.fields p) → o ∈ c.freed := by
    refine fun o hl hn hf => (hfreed o hl).2 fun hm => ?_
    rcases List.mem_append.1 (hc'.mem_of_live hm) with hm | hm
    · exact hn hm
    · obtain ⟨p, hp, hm⟩ := List.mem_flatMap.1 hm
      exact hf p hp hm
  have hmonitor : .monitor ∈ c.freed := by
    refine hgoes _ (by simp [live]) (by simp [heldToTheEnd, not_mem_executor s (o := .monitor)]) fun p _ => ?_
    cases p <;> simp [fields, Shared.fields]
  have hcrashmonitor : .crashmonitor ∈ c.freed := by
    refine hgoes _ (by simp [live]) (by simp [heldToTheEnd, not_mem_executor s (o := .crashmonitor)]) fun p _ => ?_
    cases p <;> simp [fields, Shared.fields]
  refine ⟨hc'.holds.faults, hstays _ trivial, hstays _ trivial, hstays _ trivial,
    fun sockfd hs => hstays (.client sockfd) hs, hmonitor, hcrashmonitor, fun id hid => ?_⟩
  -- an entry is with the monitor, and that has gone
  have hpending : id ∉ s.pending := fun hp => by
    have hl := h.handling.owns.nodup
    unfold live at hl
    exact (List.nodup_append.1 ((List.nodup_append.1 hl).2.1).of_map).2.2 id hp id hid rfl
  have hlive : .monitor ∉ live' := (hfreed _ (by simp [live])).1 hmonitor
  refine hgoes _ (by simp [live, hid]) (by simp [heldToTheEnd, not_mem_executor s (o := .mentry id), hpending])
    fun p hp => ?_
  cases p with
  | monitor => exact absurd hp hlive
  | _ => simp [fields, Shared.fields]

/-- One replica is connected and one unit is monitored. -/
theorem application_unref_keeps_dispatcher_of_one : ∃ s c, Transition.Run (Step (.reading []))
    (primary (Instance.initial .primary "host")) [.accept 5, .unitNew, .proxyReady 0 true] s ∧
      s.RmgApplicationUnref c ∧ .dispatcher ∉ c.freed ∧ .client 5 ∉ c.freed ∧ .mentry 0 ∈ c.freed := by
  have hr : Transition.Run (Step (.reading [])) (primary (Instance.initial .primary "host"))
      ([] ++ [.accept 5] ++ [.unitNew] ++ [.proxyReady 0 true]) _ :=
    ((Transition.Run.nil.snoc (.accept rfl rfl List.not_mem_nil)).snoc (.unitNew rfl)).snoc
      (.ready rfl (List.mem_cons_self ..))
  obtain ⟨⟨c, hc⟩, h⟩ := application_unref_keeps_dispatcher (Instance.fresh_initial _ _) rfl rfl hr rfl
  obtain ⟨-, hdispatcher, -, -, hclient, -, -, hentry⟩ := h c hc
  exact ⟨_, c, hr, hc, hdispatcher, hclient 5 (List.mem_cons_self ..), hentry 0 (List.mem_cons_self ..)⟩

end Process

end RecoveryManager
