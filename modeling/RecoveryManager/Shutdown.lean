import RecoveryManager.Traffic
import RecoveryManager.UnitSource
import RecoveryManager.Wire

/-!
# Shutting down a replica

An instance together with its connection to the primary: a send goes through `rmg_manager_send` on bytes, with what
`select` and the two `writev` calls return left to the environment (`Attempt`).  A replica that has forwarded a request
shuts down.  It does so safely exactly if the connection has accepted the whole request, or the request is for a context
restart and the send is seen to fail (`shuts_down_safely_iff`).
-/

namespace RecoveryManager

open Fallible Fallible.Prog ByteStream

/-! ### Sending -/

/-- The bytes of a C string. -/
def nameBytes (s : String) : List Byte := s.toUTF8.toList.map (·.toBitVec)

/-- The message with its names set. -/
def RmgMessage.encode (msg : RmgMessage) : Wire.RmgMessage :=
  { Wire.rmgMessageNew msg.type 0 with
    data :=
      { (Wire.rmgMessageNew msg.type 0).data with
        processName := msg.processName.map nameBytes
        serviceName := msg.serviceName.map nameBytes
        contextName := msg.contextName.map nameBytes } }

/-- What an attempt to send meets: whether there is a connection, and what `select` and the two `writev` calls
return. -/
structure Attempt where
  connected : Bool
  select : Int
  header : Int
  payload : Int
  deriving DecidableEq, Repr

namespace Attempt

def results (a : Attempt) : Nat → Option Int
  | 0 => some a.select
  | 1 => some a.header
  | _ => some a.payload

variable (a : Attempt) (msg : Wire.RmgMessage)

/-- The connection accepts the whole message. -/
def Whole : Prop :=
  a.connected ∧ 0 < a.select ∧ 20 ≤ a.header.toNat ∧ msg.sized.payload.length ≤ a.payload.toNat

/-- The send is seen to fail. -/
def Fails : Prop :=
  a.connected = false ∨ a.select = -1 ∨
    0 < a.select ∧ (a.header ≤ 0 ∨ msg.sized.hdr.segments ≠ [] ∧ min a.payload msg.sized.payload.length ≤ 0)

instance : Decidable (a.Whole msg) := by unfold Whole; infer_instance

instance : Decidable (a.Fails msg) := by unfold Fails; infer_instance

/-- What a send returns, and the connection afterwards. -/
def send (a : Attempt) (msg : Wire.RmgMessage) (c : Wire.Link) : Option RmgStatus × Wire.Link :=
  runEach Wire.Link.machine a.results (Wire.sendWhenWritable a.connected msg) c

variable {a msg}

private theorem run_writev (bytes : List Byte) {n : Int} {es : Nat → Option Int} (hn : es 0 = some n) (c : Wire.Link)
    (k : Int → Wire.LinkProc RmgStatus) : runEach Wire.Link.machine es (.call (.writev bytes) k) c =
      runEach Wire.Link.machine (fun i => es (i + 1)) (k (min n bytes.length))
        { c with accepted := c.accepted ++ bytes.take n.toNat } := by
  have hmin : bytes.take (min n bytes.length).toNat = bytes.take n.toNat := by
    rcases Int.le_total n bytes.length with h | h
    · rw [Int.min_eq_left h]
    · rw [Int.min_eq_right h, Int.toNat_natCast, List.take_length, List.take_of_length_le (by omega)]
  have happly : Wire.Link.apply (.writev bytes) (es 0) c =
      (min n bytes.length, { c with accepted := c.accepted ++ bytes.take n.toNat }) := by
    rw [hn]
    unfold Wire.Link.apply
    simp only [Option.getD_some]
    rw [hmin]
    rfl
  exact congrArg (fun r : Int × Wire.Link => runEach Wire.Link.machine (fun i => es (i + 1)) (k r.1) r.2) happly

/-- What a write makes of the values that the two `writev` calls return. -/
private theorem write_spec {es : Nat → Option Int} {header payload : Int} (h0 : es 0 = some header)
    (h1 : es 1 = some payload) (c : Wire.Link) : ∃ st taken,
      runEach Wire.Link.machine es (Wire.rmgMessageWrite msg) c =
        (some st, { c with accepted := c.accepted ++ taken }) ∧
      (taken = msg.bytes ↔ 20 ≤ header.toNat ∧ msg.sized.payload.length ≤ payload.toNat) ∧
      (st = .error ↔ header ≤ 0 ∨ msg.sized.hdr.segments ≠ [] ∧ min payload msg.sized.payload.length ≤ 0) := by
  have hH : msg.sized.hdr.bytes.length = 20 := Wire.RmgMessageHdr.length_bytes _
  have hpart : ∀ (n : Nat) (l : List Byte), l.length ≤ msg.sized.payload.length →
      msg.sized.hdr.bytes.take n ++ l = msg.bytes → 20 ≤ n ∧ l = msg.sized.payload := by
    intro n l hl he
    have hlen := congrArg List.length he
    rw [Wire.RmgMessage.bytes, List.length_append, List.length_append, List.length_take, hH] at hlen
    have hn : 20 ≤ n := by omega
    rw [List.take_of_length_le (by omega)] at he
    exact ⟨hn, List.append_cancel_left he⟩
  have hrun : runEach Wire.Link.machine es (Wire.rmgMessageWrite msg) c =
      runEach Wire.Link.machine (fun i => es (i + 1))
        (if min header msg.sized.hdr.bytes.length ≤ 0 then pure .error
          else if msg.sized.hdr.segments = [] then pure .ok
          else Prog.call (.writev msg.sized.payload) fun sz : Int => if sz ≤ 0 then pure .error else pure .ok)
        { c with accepted := c.accepted ++ msg.sized.hdr.bytes.take header.toNat } :=
    run_writev msg.sized.hdr.bytes h0 c _
  by_cases hle : header ≤ 0
  · refine ⟨.error, [], hrun.trans ?_, ⟨fun e => ?_, fun h => by omega⟩, by simp [hle]⟩
    · have hpos : min header (msg.sized.hdr.bytes.length : Int) ≤ 0 := by omega
      rw [if_pos hpos, show header.toNat = 0 by omega, List.take_zero]
      rfl
    · have := congrArg List.length e
      rw [Wire.RmgMessage.bytes, List.length_append, hH, List.length_nil] at this
      omega
  have hneg : ¬ min header (msg.sized.hdr.bytes.length : Int) ≤ 0 := by
    rw [hH]
    omega
  rw [if_neg hneg] at hrun
  by_cases hs : msg.sized.hdr.segments = []
  · have hp : msg.sized.payload = [] := by rw [Wire.RmgMessage.payload, hs, List.flatMap_nil]
    rw [if_pos hs] at hrun
    refine ⟨.ok, msg.sized.hdr.bytes.take header.toNat, hrun, ⟨fun e => ?_, fun h => ?_⟩, by simp [hle, hs]⟩
    · exact ⟨(hpart header.toNat [] (Nat.zero_le _) (by rw [List.append_nil]; exact e)).1,
        by rw [hp]; exact Nat.zero_le _⟩
    · rw [List.take_of_length_le (by omega), Wire.RmgMessage.bytes, hp, List.append_nil]
  rw [if_neg hs] at hrun
  have hrun' := hrun.trans (run_writev msg.sized.payload h1 _ fun sz : Int => if sz ≤ 0 then pure .error else pure .ok)
  have htaken : msg.sized.hdr.bytes.take header.toNat ++ msg.sized.payload.take payload.toNat = msg.bytes ↔
      20 ≤ header.toNat ∧ msg.sized.payload.length ≤ payload.toNat := by
    constructor
    · intro e
      obtain ⟨hn, hp⟩ := hpart _ _ (by rw [List.length_take]; omega) e
      have := congrArg List.length hp
      rw [List.length_take] at this
      exact ⟨hn, by omega⟩
    · rintro ⟨hn, hp⟩
      rw [List.take_of_length_le (by omega), List.take_of_length_le hp, Wire.RmgMessage.bytes]
  rw [List.append_assoc] at hrun'
  by_cases hmin : min payload msg.sized.payload.length ≤ 0
  · rw [if_pos hmin] at hrun'
    exact ⟨.error, _, hrun', htaken, by simp [hs, hmin]⟩
  · rw [if_neg hmin] at hrun'
    exact ⟨.ok, _, hrun', htaken, by simp [hle, hs, hmin]⟩

/-- What a send makes of the attempt. -/
theorem send_spec (a : Attempt) (msg : Wire.RmgMessage) (c : Wire.Link) : ∃ st taken,
    a.send msg c = (some st, { c with accepted := c.accepted ++ taken }) ∧
      (taken = msg.bytes ↔ a.Whole msg) ∧ (st = .error ↔ a.Fails msg) := by
  have hnil : [] ≠ msg.bytes := by
    intro e
    have := congrArg List.length e
    rw [Wire.RmgMessage.bytes, List.length_append, Wire.RmgMessageHdr.length_bytes, List.length_nil] at this
    omega
  unfold send Wire.sendWhenWritable
  by_cases hc : a.connected
  swap
  · refine ⟨.error, [], ?_, ⟨fun e => absurd e hnil, fun h => absurd h.1 hc⟩, by simp [Fails, hc]⟩
    rw [if_neg hc, List.append_nil]
    rfl
  rw [if_pos hc]
  have hselect : runEach Wire.Link.machine a.results (do
      let status : Int ← Prog.call .select .ret
      if status = -1 then pure .error else if 0 < status then Wire.rmgMessageWrite msg else pure .ok) c =
        runEach Wire.Link.machine (fun i => a.results (i + 1))
          (if a.select = -1 then pure .error else if 0 < a.select then Wire.rmgMessageWrite msg else pure .ok) c := rfl
  rw [hselect]
  by_cases hs : a.select = -1
  · refine ⟨.error, [], ?_, ⟨fun e => absurd e hnil, fun h => ?_⟩, by simp [Fails, hs]⟩
    · rw [if_pos hs, List.append_nil]
      rfl
    · have := h.2.1
      omega
  rw [if_neg hs]
  by_cases hw : 0 < a.select
  · rw [if_pos hw]
    obtain ⟨st, taken, hrun, htaken, hst⟩ := @write_spec msg (fun i => a.results (i + 1)) _ _ rfl rfl c
    refine ⟨st, taken, hrun, htaken.trans ⟨fun h => ⟨hc, hw, h⟩, fun h => h.2.2⟩, hst.trans ?_⟩
    simp [Fails, hs, hw, hc]
  · refine ⟨.ok, [], ?_, ⟨fun e => absurd e hnil, fun h => absurd h.2.1 hw⟩, by simp [Fails, hs, hw, hc]⟩
    rw [if_neg hw, List.append_nil]
    rfl

end Attempt

/-! ### An instance and its connection to the primary -/

/-- What the environment answers in a step. -/
structure Conditions where
  /-- Whether statements and sends to replicas go through. -/
  ok : Bool
  attempt : Attempt
  deriving DecidableEq, Repr

namespace Instance

/-- The operations with the connection in place: a send to the primary returns what `rmg_manager_send` returns. -/
def linkedApply : (op : Op) → Conditions → Instance × Wire.Link → op.Res × Instance × Wire.Link
  | .managerSend msg, e, (w, c) =>
    let r := e.attempt.send msg.encode c
    let status := r.1.getD .error
    (status, (apply (.managerSend msg) (status = .ok) w).2, r.2)
  | op, e, (w, c) => ((apply op e.ok w).1, (apply op e.ok w).2, c)

def linkedMachine : Machine Op Op.Res Conditions (Instance × Wire.Link) := ⟨linkedApply⟩

/-- One step of an instance with its connection. -/
def linkedStep (glib : GLib) (x : Instance × Wire.Link) (l : Label × Conditions) : Option (Instance × Wire.Link) :=
  (x.1.enabled glib l.1).map fun (w₀, p) =>
    let r := Fallible.run linkedMachine l.2 p (w₀, x.2)
    (ended (outcomeOf r.1) r.2.1, r.2.2)

def LinkedStep (glib : GLib) (x : Instance × Wire.Link) (l : Label × Conditions) (y : Instance × Wire.Link) : Prop :=
  linkedStep glib x l = some y

/-- The message by which a replica asks for an action on a service. -/
def requestOf (w : Instance) (event : EventRef) (t : RmgMessageType) (s : String) : RmgMessage :=
  ⟨t, none, some s, some w.hostName, (w.heap event).cause⟩

/-- The request that a replica makes for the event the executor takes next. -/
def pendingRequest (w : Instance) : Option RmgMessage :=
  match w.runMode, w.executorQueue with
  | .replica, (type, event) :: _ => type.requestType.bind fun t => (w.heap event).serviceName.map (w.requestOf event t)
  | _, _ => none

/-- The next event of the executor is one that a replica forwards. -/
def Forwards (w : Instance) : Prop :=
  w.runMode = .replica ∧ ∃ type event queue, w.executorQueue = (type, event) :: queue ∧ type.requestType.isSome

/-- A replica that forwards an event meditates only after the connection has accepted the whole request. -/
def ShutsDownSafely (x : Instance × Wire.Link) (l : Label) (y : Instance × Wire.Link) : Prop :=
  l = .execute → x.1.Forwards → (∃ service, .meditation service ∈ y.1.trace.drop x.1.trace.length) →
    ∃ msg, x.1.pendingRequest = some msg ∧ y.2.accepted = x.2.accepted ++ msg.encode.bytes

/-- The attempt to send the request goes well, or the request is for a context restart and the attempt is seen to
fail. -/
def Delivers (x : Instance × Wire.Link) (l : Label × Conditions) : Prop :=
  l.1 = .execute → ∀ msg, x.1.pendingRequest = some msg →
    l.2.attempt.Whole msg.encode ∨ msg.type = .requestContextRestart ∧ l.2.attempt.Fails msg.encode

variable {w : Instance} {c : Wire.Link} {e : Conditions} {event : EventRef}

private theorem run_linked_enterMeditation : Fallible.run linkedMachine e (enterMeditation event) (w, c) =
    (some ⟨⟩, w.emit (.meditation (w.heap event).serviceName), c) := rfl

private theorem run_linked_onRunMode (primary replica : Proc PUnit) (hm : w.runMode = .replica) :
    Fallible.run linkedMachine e (onRunMode primary replica) (w, c) = Fallible.run linkedMachine e replica (w, c) := by
  have hmode : Fallible.run linkedMachine e (Prog.call .getRunMode .ret : Proc RmgRunMode) (w, c) =
      (some .replica, w, c) := by
    rw [← hm]
    rfl
  exact run_bind_of_eq linkedMachine e hmode

/-- The request is sent, and nothing but the send is added to the trace. -/
private theorem run_linked_requestPrimary {s : String} (hs : (w.heap event).serviceName = some s) (t : RmgMessageType) :
    ∃ st taken w' l, Fallible.run linkedMachine e (requestPrimary t event) (w, c) =
        (some st, w', { c with accepted := c.accepted ++ taken }) ∧
      w'.trace = w.trace ++ l ∧ (∀ service, .meditation service ∉ l) ∧
      (taken = (w.requestOf event t s).encode.bytes ↔ e.attempt.Whole (w.requestOf event t s).encode) ∧
      (st = .error ↔ e.attempt.Fails (w.requestOf event t s).encode) := by
  obtain ⟨st, taken, hsend, htaken, hst⟩ := e.attempt.send_spec (w.requestOf event t s).encode c
  have hload : Fallible.run linkedMachine e (load event) (w, c) = (some (w.heap event), w, c) := rfl
  have hrun : Fallible.run linkedMachine e (requestPrimary t event) (w, c) =
      (some ((e.attempt.send (w.requestOf event t s).encode c).1.getD .error),
        (apply (.managerSend (w.requestOf event t s))
          ((e.attempt.send (w.requestOf event t s).encode c).1.getD .error = .ok) w).2,
        (e.attempt.send (w.requestOf event t s).encode c).2) := by
    unfold requestPrimary
    rw [run_bind_of_eq linkedMachine e hload, hs]
    rfl
  rw [hsend] at hrun
  refine ⟨st, taken, _, if st = .ok then [.managerSent (w.requestOf event t s)] else [], hrun, ?_, ?_, htaken, hst⟩
  · cases st
    · exact (List.append_nil _).symm
    · rfl
  · cases st <;> simp

/-- What the executor makes of a request: in every case but that of a failed request for a context restart it
meditates. -/
private theorem run_linked_execute {s : String} {type : ExecutorEventType} {t : RmgMessageType}
    (hm : w.runMode = .replica)
    (hs : (w.heap event).serviceName = some s) (ht : type.requestType = some t) :
    ∃ taken w' l, Fallible.run linkedMachine e (executorSourceCallback type event) (w, c) =
        (some ⟨⟩, w', { c with accepted := c.accepted ++ taken }) ∧
      w'.trace = w.trace ++ l ∧
      ((∃ service, .meditation service ∈ l) ↔
        ¬ (t = .requestContextRestart ∧ e.attempt.Fails (w.requestOf event t s).encode)) ∧
      (taken = (w.requestOf event t s).encode.bytes ↔ e.attempt.Whole (w.requestOf event t s).encode) := by
  obtain ⟨st, taken, w', l, hrun, htrace, hl, htaken, hst⟩ := run_linked_requestPrimary (c := c) (e := e) hs t
  rw [← hst]
  -- what follows the request
  have hmeditate : Fallible.run linkedMachine e (enterMeditation event)
    (w', { c with accepted := c.accepted ++ taken }) =
      (some ⟨⟩, w'.emit (.meditation (w'.heap event).serviceName), { c with accepted := c.accepted ++ taken }) :=
    run_linked_enterMeditation
  have hemit : (w'.emit (.meditation (w'.heap event).serviceName)).trace =
      w.trace ++ (l ++ [.meditation (w'.heap event).serviceName]) := by
    show w'.trace ++ [_] = _
    rw [htrace, List.append_assoc]
  have hmem : ∃ service, Output.meditation service ∈ l ++ [.meditation (w'.heap event).serviceName] :=
    ⟨(w'.heap event).serviceName, by simp⟩
  have hforward : Fallible.run linkedMachine e (do let _ ← requestPrimary t event : Proc PUnit) (w, c) =
      (some ⟨⟩, w', { c with accepted := c.accepted ++ taken }) :=
    (run_bind_of_eq linkedMachine e hrun).trans rfl
  have halways : ∀ p q : Proc PUnit, q = (do let _ ← requestPrimary t event : Proc PUnit) →
      Fallible.run linkedMachine e (onRunMode p q >>= fun _ => enterMeditation event) (w, c) =
        (some ⟨⟩, w'.emit (.meditation (w'.heap event).serviceName), { c with accepted := c.accepted ++ taken }) := by
    rintro p q rfl
    have hp := (run_linked_onRunMode (e := e) (c := c) p _ hm).trans hforward
    exact (run_bind_of_eq linkedMachine e hp).trans hmeditate
  cases type with
  | contextRestart =>
    obtain rfl := Option.some.inj ht
    have hreplica := (run_linked_onRunMode (e := e) (c := c) (contextRestartOnPrimary event)
      (doProcessContextRestartEventReplica event) hm).trans (run_bind_of_eq linkedMachine e hrun)
    cases st with
    | ok => exact ⟨taken, _, _, hreplica.trans hmeditate, hemit, ⟨by simp, fun _ => hmem⟩, htaken⟩
    | error =>
      refine ⟨taken, w', l, hreplica.trans rfl, htrace, ⟨?_, by simp⟩, htaken⟩
      rintro ⟨service, h⟩
      exact absurd h (hl service)
  | platformRestart =>
    obtain rfl := Option.some.inj ht
    exact ⟨taken, _, _, halways _ _ rfl, hemit, ⟨by simp, fun _ => hmem⟩, htaken⟩
  | factoryReset =>
    obtain rfl := Option.some.inj ht
    exact ⟨taken, _, _, halways _ _ rfl, hemit, ⟨by simp, fun _ => hmem⟩, htaken⟩
  | _ => cases ht

/-- A request for an event without a service name is not made, and the process does not get any further. -/
private theorem run_linked_execute_none {type : ExecutorEventType} {t : RmgMessageType} (hm : w.runMode = .replica)
    (hs : (w.heap event).serviceName = none) (ht : type.requestType = some t) :
    Fallible.run linkedMachine e (executorSourceCallback type event) (w, c) = (none, w, c) := by
  have hload : Fallible.run linkedMachine e (load event) (w, c) = (some (w.heap event), w, c) := rfl
  have hrequest : ∀ t, Fallible.run linkedMachine e (requestPrimary t event) (w, c) = (none, w, c) := by
    intro t
    unfold requestPrimary
    rw [run_bind_of_eq linkedMachine e hload, hs]
    rfl
  have hnone : ∀ {α β : Type} {p : Proc α} (f : α → Proc β), Fallible.run linkedMachine e p (w, c) = (none, w, c) →
      Fallible.run linkedMachine e (p >>= f) (w, c) = (none, w, c) := by
    intro α β p f hp
    rw [Fallible.run_bind, hp]
  cases type with
  | contextRestart =>
    exact (run_linked_onRunMode (e := e) (c := c) (contextRestartOnPrimary event)
      (doProcessContextRestartEventReplica event) hm).trans (hnone _ (hrequest _))
  | platformRestart =>
    exact hnone _ ((run_linked_onRunMode (e := e) (c := c) (doProcessPlatformRestartEventPrimary event)
      (doProcessPlatformRestartEventReplica event) hm).trans (hnone _ (hrequest _)))
  | factoryReset =>
    exact hnone _ ((run_linked_onRunMode (e := e) (c := c) (doProcessFactoryResetEventPrimary event)
      (doProcessFactoryResetEventReplica event) hm).trans (hnone _ (hrequest _)))
  | _ => cases ht

/-- Only an event that is forwarded has a request pending. -/
private theorem pendingRequest_of_not_forwards {type : ExecutorEventType} {queue : List (ExecutorEventType × EventRef)}
    (hq : w.executorQueue = (type, event) :: queue) (hf : ¬ w.Forwards) : w.pendingRequest = none := by
  unfold pendingRequest
  cases hm : w.runMode with
  | primary => rfl
  | replica =>
    rw [hq]
    dsimp only
    cases ht : type.requestType with
    | none => rfl
    | some t => exact absurd ⟨hm, type, event, queue, hq, by rw [ht]; rfl⟩ hf

private theorem pendingRequest_of_forwards {type : ExecutorEventType} {queue : List (ExecutorEventType × EventRef)}
    {t : RmgMessageType} (hm : w.runMode = .replica) (hq : w.executorQueue = (type, event) :: queue)
    (ht : type.requestType = some t) : w.pendingRequest = (w.heap event).serviceName.map (w.requestOf event t) := by
  unfold pendingRequest
  rw [hm, hq]
  dsimp only
  rw [ht]
  rfl

/-- With a request pending, a step is safe unless it meditates after the connection has accepted anything but the
request. -/
private theorem shutsDownSafely_iff_taken {msg : RmgMessage} {w' : Instance} {l : List Output} {taken : List Byte}
    (hf : w.Forwards) (hpending : w.pendingRequest = some msg) (htrace : w'.trace = w.trace ++ l) :
    ShutsDownSafely (w, c) .execute (w', { c with accepted := c.accepted ++ taken }) ↔
      ((∃ service, .meditation service ∈ l) → taken = msg.encode.bytes) := by
  have hdrop : w'.trace.drop w.trace.length = l := by
    rw [htrace]
    exact List.drop_left
  constructor
  · rintro h ⟨service, hl⟩
    obtain ⟨msg', hmsg, hacc⟩ := h rfl hf ⟨service, by rw [hdrop]; exact hl⟩
    obtain rfl := Option.some.inj (hpending.symm.trans hmsg)
    exact List.append_cancel_left hacc
  · rintro h - - ⟨service, hl⟩
    rw [hdrop] at hl
    exact ⟨_, hpending, congrArg (c.accepted ++ ·) (h ⟨service, hl⟩)⟩

private theorem delivers_iff {msg : RmgMessage} (hpending : w.pendingRequest = some msg) :
    Delivers (w, c) (.execute, e) ↔
      e.attempt.Whole msg.encode ∨ msg.type = .requestContextRestart ∧ e.attempt.Fails msg.encode := by
  constructor
  · exact fun h => h rfl _ hpending
  · rintro h - msg' hmsg
    obtain rfl := Option.some.inj (hpending.symm.trans hmsg)
    exact h

/-- Step by step. -/
theorem shutsDownSafely_iff {glib : GLib} {x y : Instance × Wire.Link} {l : Label × Conditions}
    (h : LinkedStep glib x l y) : ShutsDownSafely x l.1 y ↔ Delivers x l := by
  obtain ⟨w, c⟩ := x
  obtain ⟨label, e⟩ := l
  obtain ⟨⟨w₀, p⟩, he, rfl⟩ := Option.map_eq_some_iff.1 h
  by_cases hlabel : label = .execute
  swap
  · exact ⟨fun _ h => absurd h hlabel, fun _ h => absurd h hlabel⟩
  subst hlabel
  cases callback_of_enabled he with
  | @execute type event queue hq =>
    by_cases hf : w.Forwards
    swap
    · have hnone : (w, c).1.pendingRequest = none := pendingRequest_of_not_forwards hq hf
      refine ⟨fun _ _ msg hmsg => ?_, fun _ _ h => absurd h hf⟩
      rw [hnone] at hmsg
      cases hmsg
    have hm : w.runMode = .replica := hf.1
    obtain ⟨t, ht⟩ : ∃ t, type.requestType = some t := by
      obtain ⟨-, type', event', queue', hq', ht⟩ := hf
      obtain ⟨h, -⟩ := List.cons.inj (hq.symm.trans hq')
      obtain ⟨rfl, -⟩ := Prod.mk.inj h
      exact Option.isSome_iff_exists.1 ht
    have hpending := pendingRequest_of_forwards hm hq ht
    let w₁ : Instance := { w with executorQueue := queue }
    cases hs : (w.heap event).serviceName with
    | none =>
      -- neither a request nor a shutdown: the process ends at the missing name
      rw [hs] at hpending
      have hrun := run_linked_execute_none (c := c) (e := e) (w := w₁) hm hs ht
      constructor
      · intro _ _ msg hmsg
        rw [show (w, c).1.pendingRequest = none from hpending] at hmsg
        cases hmsg
      · rintro _ _ _ ⟨service, hmed⟩
        dsimp only at hmed
        rw [hrun] at hmed
        have hmed : Output.meditation service ∈ w.trace.drop w.trace.length := hmed
        rw [List.drop_length] at hmed
        exact absurd hmed List.not_mem_nil
    | some s =>
      rw [hs] at hpending
      have hpending : w.pendingRequest = some (w.requestOf event t s) := hpending
      obtain ⟨taken, w', l, hrun, htrace, hmed, htaken⟩ := run_linked_execute (c := c) (e := e) (w := w₁) hm hs ht
      have hrequest : w₁.requestOf event t s = w.requestOf event t s := rfl
      rw [hrequest] at hmed htaken
      dsimp only
      rw [hrun]
      refine (shutsDownSafely_iff_taken hf hpending htrace).trans (Iff.trans ?_ (delivers_iff hpending).symm)
      rw [hmed, htaken]
      show _ ↔ e.attempt.Whole (w.requestOf event t s).encode ∨
        t = .requestContextRestart ∧ e.attempt.Fails (w.requestOf event t s).encode
      tauto

/-- In a run every shutdown is safe exactly if every request is answered, and a send that returns `RMG_STATUS_OK` has
written the whole message exactly if the connection has accepted it or the send is seen to fail. -/
theorem shuts_down_safely_iff (glib : GLib) :
    (∀ (x₀ x : Instance × Wire.Link) (ls : List (Label × Conditions)),
      Transition.Run (fun x l y => LinkedStep glib x l y ∧ ShutsDownSafely x l.1 y) x₀ ls x ↔
        Transition.Run (fun x l y => LinkedStep glib x l y ∧ Delivers x l) x₀ ls x) ∧
    ∀ send ∈ [Wire.rmgManagerSend, Wire.rmgClientSend], ∀ (a : Attempt) (msg : Wire.RmgMessage) (c : Wire.Link),
      ((runEach Wire.Link.machine a.results (send a.connected msg) c).1 = some .ok →
          (runEach Wire.Link.machine a.results (send a.connected msg) c).2.accepted = c.accepted ++ msg.bytes) ↔
        a.Whole msg ∨ a.Fails msg := by
  constructor
  · intro x₀ x ls
    constructor
    · exact fun h => h.mono fun _ _ _ h => ⟨h.1, (shutsDownSafely_iff h.1).1 h.2⟩
    · exact fun h => h.mono fun _ _ _ h => ⟨h.1, (shutsDownSafely_iff h.1).2 h.2⟩
  · intro send hsend a msg c
    have hsame : runEach Wire.Link.machine a.results (send a.connected msg) c = a.send msg c := by
      rcases List.mem_pair.1 hsend with rfl | rfl <;> rfl
    obtain ⟨st, taken, hrun, htaken, hst⟩ := a.send_spec msg c
    rw [hsame, hrun, ← htaken, ← hst]
    dsimp only
    constructor
    · intro h
      cases st with
      | error => exact .inr rfl
      | ok => exact .inl (List.append_cancel_left (h rfl))
    · rintro (h | h) hok
      · rw [h]
      · rw [h] at hok
        cases hok

/-- A service whose first crash asks for a restart of the platform. -/
def restartPlatform : List Tag := Tag.unit "a.service" [("relaxtime", "5")] [("platformRestart", "1", "false")]

/-- A replica whose executor is about to forward a request. -/
def aboutToForward : Option Instance :=
  (initial .replica "guest").replayed (.reading [restartPlatform])
    (.restart (directory [restartPlatform]) :: crashLabels "a.service" 1)

private theorem aboutToForward_isSome : aboutToForward.isSome := by decide +kernel

/-- The connection does not become writable in time. -/
def timedOut : Conditions := ⟨true, true, 0, 0, 0⟩

/-- The replica about to forward, on a connection that has not carried anything. -/
def forwarding : Instance × Wire.Link := (aboutToForward.get aboutToForward_isSome, ⟨[], []⟩)

private theorem forwarded_isSome :
    (linkedStep (.reading [restartPlatform]) forwarding (.execute, timedOut)).isSome := by
  decide +kernel

private theorem not_all_safely {glib : GLib} {x y : Instance × Wire.Link} {l : Label × Conditions}
    (hmode : x.1.runMode = .replica) (hstep : LinkedStep glib x l y) (hwrong : ¬ ShutsDownSafely x l.1 y) :
    ¬ ∀ (glib : GLib) (x₀ x : Instance × Wire.Link) (ls : List (Label × Conditions)),
      x₀.1.runMode = .replica → Transition.Run (LinkedStep glib) x₀ ls x →
        Transition.Run (fun x l y => LinkedStep glib x l y ∧ ShutsDownSafely x l.1 y) x₀ ls x :=
  fun h => hwrong (h glib x y [l] hmode (.single hstep)).of_single.2

/-- After the timeout the replica shuts down without having sent a byte. -/
theorem shutdown_without_request : ¬ ∀ (glib : GLib) (x₀ x : Instance × Wire.Link) (ls : List (Label × Conditions)),
    x₀.1.runMode = .replica → Transition.Run (LinkedStep glib) x₀ ls x →
      Transition.Run (fun x l y => LinkedStep glib x l y ∧ ShutsDownSafely x l.1 y) x₀ ls x := by
  obtain ⟨y, hy⟩ := Option.isSome_iff_exists.1 forwarded_isSome
  have hmode : forwarding.1.runMode = .replica := by decide +kernel
  have hdown : y.2.accepted = [] ∧ .meditation (some "a.service") ∈ y.1.trace.drop forwarding.1.trace.length := by
    have hget := Option.get_of_eq_some forwarded_isSome hy
    subst hget
    exact ⟨by decide +kernel, by decide +kernel⟩
  refine not_all_safely hmode (l := (.execute, timedOut)) hy fun hsafe => ?_
  have hf : forwarding.1.Forwards := ⟨by decide +kernel, .platformRestart, 0, [], by decide +kernel, rfl⟩
  obtain ⟨msg, -, hacc⟩ := hsafe rfl hf ⟨_, hdown.2⟩
  rw [hdown.1] at hacc
  have hlen := congrArg List.length hacc
  rw [List.length_append, Wire.RmgMessage.bytes, List.length_append, Wire.RmgMessageHdr.length_bytes] at hlen
  simp only [List.length_nil] at hlen
  omega

end Instance

end RecoveryManager
