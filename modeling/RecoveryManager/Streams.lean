import RecoveryManager.Reception
import RecoveryManager.Shapes
import RecoveryManager.Shutdown

/-!
# Instances with byte streams

An instance with what it has written to its connections (`Endpoint`): a send goes through `rmg_client_send` or
`rmg_manager_send`, and a message is read by the callback of its source.  As long as what is sent has the names that its
type calls for, and no read comes back short, such an instance does what the instance with messages does
(`Endpoint.Refines.step`, `sourceCallback_of_arrivesIn`).
-/

namespace RecoveryManager

open Fallible Fallible.Prog ByteStream Instance

variable {n : Nat}

/-! ### Messages that are sent -/

/-- The name that a message has for an argument. -/
def RmgMessage.argument (msg : RmgMessage) : Wire.Argument → Option String
  | .processName => msg.processName
  | .serviceName => msg.serviceName
  | .contextName => msg.contextName
  | .actionResponse | .instanceStatus => none

/-- The name goes into a message as it is. -/
def Fits (name : String) : Prop :=
  nameBytes name ≠ [] ∧ (nameBytes name).length ≤ Wire.maxNameLen ∧ 0 ∉ nameBytes name

instance decidableFits (name : String) : Decidable (Fits name) :=
  decidable_of_iff (nameBytes name ≠ [] ∧ (nameBytes name).length ≤ Wire.maxNameLen ∧ (nameBytes name).elem 0 = false)
    (by unfold Fits; simp)

/-- The message has just the names that its type calls for. -/
structure RmgMessage.Proper (msg : RmgMessage) : Prop where
  carries : Wire.CarriesNames msg.type
  names : ∀ a ∈ msg.type.arguments, ∃ name, msg.argument a = some name ∧ Fits name
  others : ∀ a ∉ msg.type.arguments, msg.argument a = none

/-! ### Streams -/

/-- What has been written to a connection and not been read yet, and the causes of the messages in it. -/
structure Stream where
  bytes : List Byte
  causes : List Cause

namespace Stream

/-- A send function, on a connection that accepts everything. -/
def send (x : Stream) (send : Wire.RmgMessage → Wire.LinkProc RmgStatus) (msg : RmgMessage) : RmgStatus × Stream :=
  let r := Fallible.run Wire.Link.machine none (send msg.encode) ⟨[], x.bytes⟩
  (r.1.getD .error, ⟨r.2.accepted, x.causes ++ [msg.cause]⟩)

/-- The stream comes in these pieces, and `rmg_message_read` gets all it asks for. -/
structure ArrivesIn (x : Stream) (pieces : List (List Byte)) : Prop where
  flatten : pieces.flatten = x.bytes
  header : (Wire.taken ⟨pieces, []⟩).1.length = 20
  payload : (Wire.taken ⟨pieces, []⟩).2.length = ((Wire.headerRead ⟨pieces, []⟩).segments.map Prod.snd).sum

/-- The cause of the first message. -/
def cause (x : Stream) : Cause := x.causes.headD ⟨0, 0⟩

/-- What is left when a message has been read. -/
def afterRead (x : Stream) (c : Wire.Link) : Stream := ⟨c.incoming.flatten, x.causes.tail⟩

/-- The messages in the stream. -/
structure Carries (x : Stream) (ms : List RmgMessage) : Prop where
  bytes : x.bytes = ms.flatMap fun msg => msg.encode.bytes
  causes : x.causes = ms.map RmgMessage.cause

end Stream

/-! ### Instances with their streams -/

/-- An instance with what it has written to its connections.  Its own lists of messages are not used. -/
structure Endpoint where
  inst : Instance
  manager : Stream
  client : Nat → Stream

namespace Endpoint

/-- The operations, with bytes for messages. -/
def apply : (op : Op) → (ok : Bool) → Endpoint → op.Res × Endpoint
  | .clientSend sockfd msg, _, x =>
    let r := (x.client sockfd).send (Wire.rmgClientSend true) msg
    (r.1, { x with
      inst := if r.1 = .ok then x.inst.emit (.clientSent sockfd msg) else x.inst
      client := Function.update x.client sockfd r.2 })
  | .managerSend msg, _, x =>
    let r := x.manager.send (Wire.rmgManagerSend true) msg
    (r.1, { x with
      inst := if r.1 = .ok then x.inst.emit (.managerSent msg) else x.inst
      manager := r.2 })
  | op, ok, x => ((Instance.apply op ok x.inst).1, { x with inst := (Instance.apply op ok x.inst).2 })

def machine : Machine Op Op.Res Bool Endpoint := ⟨apply⟩

/-- A step in which the callback is not killed. -/
def StepUnder (A : Op → Bool → Prop) (glib : GLib) (x : Endpoint) (l : Label) (x' : Endpoint) : Prop :=
  ∃ w₀ p o x₁, x.inst.enabled glib l = some (w₀, p) ∧ Exec machine A p { x with inst := w₀ } o x₁ ∧ o ≠ .killed ∧
    x' = { x₁ with inst := ended o x₁.inst }

/-- The instance with the messages that are in its streams. -/
structure Refines (x : Endpoint) (w : Instance) : Prop where
  inst : w = { x.inst with toManager := w.toManager, toClient := w.toClient }
  manager : x.manager.Carries w.toManager
  client : ∀ k, (x.client k).Carries (w.toClient k)

end Endpoint

/-! ### Writing -/

variable {msg : RmgMessage} {ms : List RmgMessage} {x : Stream}

private theorem kind_encode (msg : RmgMessage) : msg.encode.hdr.kind = msg.type := by
  show RmgMessageType.ofCode (BitVec.ofNat 32 msg.type.code).toNat = msg.type
  cases msg.type <;> rfl

private theorem bytes_encode (msg : RmgMessage) {a : Wire.Argument} (ha : a.isName) :
    a.bytes msg.encode.data = ((msg.argument a).map nameBytes).getD [] := by
  cases a <;> first | rfl | cases ha

theorem RmgMessage.Proper.sendable (h : msg.Proper) : msg.encode.Sendable where
  hdr := ⟨msg.type, 0, rfl⟩
  actionResponse := rfl
  instanceStatus := rfl
  names a ha hn := by
    rw [kind_encode] at ha
    obtain ⟨name, hname, hfits⟩ := h.names a ha
    rw [bytes_encode msg hn, hname]
    exact hfits

/-- The message as the setters make it, with terminators behind its names, is written the same. -/
theorem RmgMessage.Proper.bytes_named (h : msg.Proper) :
    (Wire.named msg.type 0 fun a => nameBytes ((msg.argument a).getD "")).bytes = msg.encode.bytes := by
  have hnames : ∀ a ∈ msg.type.arguments, nameBytes ((msg.argument a).getD "") = a.bytes msg.encode.data ∧
      (a.bytes msg.encode.data).length ≤ 128 ∧ 0 ∉ a.bytes msg.encode.data := by
    intro a ha
    obtain ⟨s, hs, -, hlen, hnul⟩ := h.names a ha
    have hbytes : a.bytes msg.encode.data = nameBytes s := by
      rw [bytes_encode msg (h.carries.2 a ha), hs]
      rfl
    rw [hbytes, hs]
    exact ⟨rfl, hlen, hnul⟩
  have hnul : ∀ a ∈ msg.type.arguments, 0 ∉ nameBytes ((msg.argument a).getD "") := by
    intro a ha
    rw [(hnames a ha).1]
    exact (hnames a ha).2.2
  have hpayload : (Wire.named msg.type 0 fun a => nameBytes ((msg.argument a).getD "")).sized.payload =
      msg.encode.sized.payload := by
    rw [Wire.payload_named h.carries hnul, h.sendable.payload, kind_encode]
    congr 1
    refine List.map_congr_left fun a ha => ?_
    have hlen := (hnames a ha).2.1
    rw [(hnames a ha).1, List.take_of_length_le (by omega)]
  have hsize : ∀ a ∈ msg.type.arguments,
      a.size (Wire.named msg.type 0 fun a => nameBytes ((msg.argument a).getD "")).data = a.size msg.encode.data := by
    intro a ha
    have hlen := (hnames a ha).2.1
    have hencode := (h.sendable.size (by rw [kind_encode]; exact ha)).1
    refine BitVec.eq_of_toNat_eq ?_
    rw [Wire.size_named hnul ha (h.carries.2 a ha), hencode, (hnames a ha).1]
    omega
  have hhdr : (Wire.named msg.type 0 fun a => nameBytes ((msg.argument a).getD "")).sized.hdr =
      msg.encode.sized.hdr := by
    rw [Wire.sized_named_hdr]
    unfold Wire.RmgMessage.sized
    rw [kind_encode]
    rcases Wire.arguments_cases msg.type with hargs | ⟨a, hargs⟩ | ⟨a, b, hargs, -⟩
    · exact absurd hargs h.carries.1
    · have ha := hsize a (by rw [hargs]; simp)
      rw [hargs]
      simp only [List.getElem?_cons_zero, List.getElem?_cons_succ, List.getElem?_nil, Option.map_some, Option.map_none,
        Option.getD_some, Option.getD_none]
      rw [ha]
      rfl
    · have ha := hsize a (by rw [hargs]; simp)
      have hb := hsize b (by rw [hargs]; simp)
      rw [hargs]
      simp only [List.getElem?_cons_zero, List.getElem?_cons_succ, Option.map_some, Option.getD_some]
      rw [ha, hb]
      rfl
  unfold Wire.RmgMessage.bytes
  rw [hpayload, hhdr]

theorem Stream.send_of_proper (h : msg.Proper) (x : Stream) : x.send (Wire.sendWhenWritable true) msg =
    (.ok, ⟨x.bytes ++ msg.encode.bytes, x.causes ++ [msg.cause]⟩) := by
  have hrun : Fallible.run Wire.Link.machine none (Wire.sendWhenWritable true msg.encode) ⟨[], x.bytes⟩ =
      (some .ok, ⟨[], x.bytes ++ msg.encode.bytes⟩) :=
    Wire.run_rmgMessageWrite h.sendable.payload_ne_nil ⟨[], x.bytes⟩
  unfold Stream.send
  rw [hrun]
  rfl

theorem Stream.Carries.snoc (hx : x.Carries ms) :
    Stream.Carries ⟨x.bytes ++ msg.encode.bytes, x.causes ++ [msg.cause]⟩ (ms ++ [msg]) where
  bytes := by simp [hx.bytes]
  causes := by simp [hx.causes]

theorem Stream.Carries.unique {y : Stream} (hx : x.Carries ms) (hy : y.Carries ms) : x = y := by
  cases x
  cases y
  rw [Stream.mk.injEq]
  exact ⟨hx.bytes.trans hy.bytes.symm, hx.causes.trans hy.causes.symm⟩

/-! ### Reading -/

namespace Wire

/-- The memory of the name that is read for an argument. -/
def RmgMessageData.memory (data : RmgMessageData) : Argument → Option (List Byte)
  | .processName => data.processName
  | .serviceName => data.serviceName
  | .contextName => data.contextName
  | .actionResponse | .instanceStatus => none

private theorem memory_set_of_ne {a b : Argument} (h : a ≠ b) (data : RmgMessageData) (bs : List Byte) :
    (b.set data bs).memory a = data.memory a := by
  cases a <;> cases b <;> first | rfl | exact absurd rfl h

private theorem memory_filled {a : Argument} {segments : List (Argument × Nat)} (h : ∀ seg ∈ segments, a ≠ seg.1)
    (d : RmgMessage) (got : List Byte) : (d.filled segments got).data.memory a = d.data.memory a := by
  induction segments generalizing d got with
  | nil => rfl
  | cons segment segments ih =>
    show (RmgMessage.filled _ segments _).data.memory a = _
    rw [ih fun seg hm => h seg (List.mem_cons_of_mem _ hm)]
    exact memory_set_of_ne (h segment List.mem_cons_self) _ _

private theorem memory_of_bytes {a : Argument} {data : RmgMessageData} {bs : List Byte} (ha : a.isName)
    (h : a.bytes data = bs) (hne : bs ≠ []) : data.memory a = some bs := by
  have hget : (data.memory a).getD [] = bs := by
    rw [← h]
    cases a <;> first | rfl | cases ha
  cases hm : data.memory a with
  | none =>
    rw [hm] at hget
    exact absurd hget.symm hne
  | some bs' =>
    rw [hm] at hget
    exact congrArg some hget

end Wire

/-- Reads that are not short take the first message of the stream. -/
private theorem taken_of_arrivesIn (h : msg.Proper) {pieces : List (List Byte)} {rest : List Byte}
    (hx : x.ArrivesIn pieces) (hbytes : x.bytes = msg.encode.bytes ++ rest) :
    (readv 20 pieces).1 = msg.encode.sized.hdr.bytes ∧ Wire.headerRead ⟨pieces, []⟩ = msg.encode.sized.hdr ∧
      (readv (msg.encode.sized.hdr.segments.map Prod.snd).sum (readv 20 pieces).2).1 = msg.encode.sized.payload ∧
      (readv (msg.encode.sized.hdr.segments.map Prod.snd).sum (readv 20 pieces).2).2.flatten = rest := by
  have hlen : msg.encode.sized.hdr.bytes.length = 20 := Wire.RmgMessageHdr.length_bytes _
  have hflat : (readv 20 pieces).1 ++ (readv 20 pieces).2.flatten =
      msg.encode.sized.hdr.bytes ++ (msg.encode.sized.payload ++ rest) := by
    rw [flatten_readv, hx.flatten, hbytes, Wire.RmgMessage.bytes, List.append_assoc]
  obtain ⟨hheader, hflat⟩ := List.append_inj hflat (hx.header.trans hlen.symm)
  have hread : Wire.headerRead ⟨pieces, []⟩ = msg.encode.sized.hdr := by
    unfold Wire.headerRead
    dsimp only
    rw [hheader, overlay_of_length_le (by rw [Wire.RmgMessageHdr.length_bytes, hlen]),
      Wire.RmgMessageHdr.ofBytes_bytes]
  have hpayload := hx.payload
  unfold Wire.taken at hpayload
  dsimp only at hpayload
  rw [hread] at hpayload
  rw [← flatten_readv (msg.encode.sized.hdr.segments.map Prod.snd).sum] at hflat
  obtain ⟨hpayload', hrest⟩ := List.append_inj hflat (hpayload.trans h.sendable.sum_segments)
  exact ⟨hheader, hread, hpayload', hrest⟩

/-- A stream that comes field by field. -/
theorem arrivesIn_fields (h : msg.Proper) {rest : List Byte} (hbytes : x.bytes = msg.encode.bytes ++ rest) :
    x.ArrivesIn [msg.encode.sized.hdr.bytes, msg.encode.sized.payload, rest] := by
  have hlen : msg.encode.sized.hdr.bytes.length = 20 := Wire.RmgMessageHdr.length_bytes _
  have hfirst : readv 20 [msg.encode.sized.hdr.bytes, msg.encode.sized.payload, rest] =
      (msg.encode.sized.hdr.bytes, [msg.encode.sized.payload, rest]) := readv_of_length_le (by omega) _
  have hread : Wire.headerRead ⟨[msg.encode.sized.hdr.bytes, msg.encode.sized.payload, rest], []⟩ =
      msg.encode.sized.hdr := by
    unfold Wire.headerRead
    dsimp only
    rw [hfirst, overlay_of_length_le (by rw [Wire.RmgMessageHdr.length_bytes, hlen]),
      Wire.RmgMessageHdr.ofBytes_bytes]
  refine ⟨?_, ?_, ?_⟩
  · rw [hbytes, Wire.RmgMessage.bytes]
    simp
  · unfold Wire.taken
    dsimp only
    rw [hfirst]
    exact hlen
  · unfold Wire.taken
    dsimp only
    rw [hread, hfirst, readv_of_length_le (Nat.le_of_eq h.sendable.sum_segments.symm)]
    exact h.sendable.sum_segments.symm

/-- The message as it stands in memory when it has been read. -/
private def inMemory (msg : RmgMessage) : Wire.RmgMessage :=
  ({ Wire.blank with hdr := msg.encode.sized.hdr } : Wire.RmgMessage).filled msg.encode.sized.hdr.segments
    msg.encode.sized.payload

private theorem segments_ne_nil (h : msg.Proper) : msg.encode.sized.hdr.segments ≠ [] := by
  rw [h.sendable.segments, kind_encode]
  exact fun hnil => h.carries.1 (List.map_eq_nil_iff.1 hnil)

private theorem run_of_taken (h : msg.Proper) {c : Wire.Link}
    (hheader : (readv 20 c.incoming).1 = msg.encode.sized.hdr.bytes)
    (hpayload : (readv (msg.encode.sized.hdr.segments.map Prod.snd).sum (readv 20 c.incoming).2).1 =
      msg.encode.sized.payload) :
    Fallible.run Wire.Link.machine none Wire.rmgMessageRead c = (some (some (inMemory msg)),
      { c with incoming := (readv (msg.encode.sized.hdr.segments.map Prod.snd).sum (readv 20 c.incoming).2).2 }) := by
  have hlen : msg.encode.sized.hdr.bytes.length = 20 := Wire.RmgMessageHdr.length_bytes _
  have hhdr : Wire.RmgMessageHdr.ofBytes (overlay Wire.blank.hdr.bytes msg.encode.sized.hdr.bytes) =
      msg.encode.sized.hdr := by
    rw [overlay_of_length_le (by rw [Wire.RmgMessageHdr.length_bytes, hlen]), Wire.RmgMessageHdr.ofBytes_bytes]
  have hrun := Wire.run_rmgMessageRead c
  dsimp only at hrun
  rw [hheader, hhdr, if_neg (List.ne_nil_of_length_pos (by omega)), if_neg (segments_ne_nil h), hpayload,
    if_neg (h.sendable.payload_ne_nil (segments_ne_nil h))] at hrun
  exact hrun

private theorem content_inMemory (h : msg.Proper) : (inMemory msg).content = msg.encode.sized.content := by
  have hfields : msg.encode.fields = [msg.encode.sized.hdr.bytes, msg.encode.sized.payload] :=
    if_neg (segments_ne_nil h)
  have hlen : msg.encode.sized.hdr.bytes.length = 20 := Wire.RmgMessageHdr.length_bytes _
  have hpayload := h.sendable.payload_ne_nil (segments_ne_nil h)
  -- the message alone, in two pieces
  obtain ⟨d, c', hrun, hcontent, -⟩ := @Wire.read_of_cutAt msg.encode ⟨msg.encode.fields, []⟩ [] h.sendable
    (by
      rw [hfields]
      simp only [List.mem_cons, List.not_mem_nil, or_false, forall_eq_or_imp, forall_eq]
      exact ⟨List.ne_nil_of_length_pos (by omega), hpayload⟩)
    (by rw [List.append_nil]) (by
      rw [List.append_nil]
      exact fun pre hpre => ⟨pre, hpre, rfl⟩)
  have htaken := run_of_taken h (c := ⟨msg.encode.fields, []⟩)
    (by rw [hfields, readv_of_length_le (by omega)])
    (by rw [hfields, readv_of_length_le (by omega), readv_of_length_le (by rw [h.sendable.sum_segments])])
  rw [htaken] at hrun
  obtain ⟨he, -⟩ := Prod.mk.inj hrun
  obtain rfl := Option.some.inj (Option.some.inj he)
  exact hcontent

/-- A message that has been read is the one that was sent. -/
private theorem received_inMemory {name : List Byte → String} (hname : ∀ s, Fits s → name (nameBytes s) = s)
    (h : msg.Proper) : (inMemory msg).received name msg.cause = msg := by
  obtain ⟨hhdr, hargs⟩ := Prod.mk.inj (content_inMemory h)
  have hkind : (inMemory msg).hdr.kind = msg.type := by
    rw [hhdr, (Wire.RmgMessage.sized_hdr _).1, kind_encode]
  rw [hkind, (Wire.RmgMessage.sized_hdr _).1, kind_encode, (Wire.RmgMessage.sized_hdr _).2] at hargs
  have hmemory : ∀ a : Wire.Argument, ((inMemory msg).data.memory a).map name = msg.argument a := by
    intro a
    by_cases ha : a ∈ msg.type.arguments
    · obtain ⟨s, hs, hfits⟩ := h.names a ha
      have hn := h.carries.2 a ha
      have hbytes : a.bytes (inMemory msg).data = nameBytes s := by
        rw [List.map_inj_left.1 hargs a ha, bytes_encode msg hn, hs]
        rfl
      rw [Wire.memory_of_bytes hn hbytes hfits.1, hs, Option.map_some, hname s hfits]
    · have hsegments : ∀ seg ∈ msg.encode.sized.hdr.segments, a ≠ seg.1 := by
        rintro seg hseg rfl
        rw [h.sendable.segments, kind_encode] at hseg
        obtain ⟨b, hb, rfl⟩ := List.mem_map.1 hseg
        exact ha hb
      unfold inMemory
      rw [Wire.memory_filled hsegments, h.others a ha]
      cases a <;> rfl
  obtain ⟨type, processName, serviceName, contextName, cause⟩ := msg
  unfold Wire.RmgMessage.received
  rw [hkind]
  have hp := hmemory .processName
  have hs := hmemory .serviceName
  have hc := hmemory .contextName
  dsimp only [Wire.RmgMessageData.memory, RmgMessage.argument] at hp hs hc
  rw [hp, hs, hc]

/-- The callback of a source, when no read is short, does with the first message what the instance does with it. -/
theorem sourceCallback_of_arrivesIn {name : List Byte → String} (hname : ∀ s, Fits s → name (nameBytes s) = s)
    (hx : x.Carries (msg :: ms)) (h : msg.Proper) {pieces : List (List Byte)} (hpieces : x.ArrivesIn pieces)
    (r : Wire.Receiver) (w : Instance) :
    ∃ c, r.sourceCallback name x.cause ⟨pieces, []⟩ w = (true, c, w.after (r.processMessage msg)) ∧
      (x.afterRead c).Carries ms := by
  have hbytes := hx.bytes
  rw [List.flatMap_cons] at hbytes
  obtain ⟨hheader, -, hpayload, hrest⟩ := taken_of_arrivesIn h hpieces hbytes
  have hcause : x.cause = msg.cause := by
    unfold Stream.cause
    rw [hx.causes]
    rfl
  obtain ⟨c, hrun, hc⟩ : ∃ c, Fallible.run Wire.Link.machine none Wire.rmgMessageRead ⟨pieces, []⟩ =
      (some (some (inMemory msg)), c) ∧ c.incoming.flatten = ms.flatMap fun msg => msg.encode.bytes :=
    ⟨_, run_of_taken h (c := ⟨pieces, []⟩) hheader hpayload, hrest⟩
  refine ⟨c, ?_, hc, ?_⟩
  · unfold Wire.Receiver.sourceCallback
    rw [hrun, hcause]
    dsimp only
    rw [received_inMemory hname h]
  · show x.causes.tail = _
    rw [hx.causes]
    rfl

/-! ### A step of an instance -/

namespace Endpoint

variable {A : Op → Bool → Prop} {glib : GLib} {l : Label} {x x' : Endpoint} {w w' : Instance}

/-- A message is not as it should be. -/
def Misfit (w : Instance) : Prop :=
  ∃ msg, (msg ∈ w.toManager ∨ ∃ k, msg ∈ w.toClient k) ∧ ¬ msg.Proper

/-- The operation is a send. -/
def Sends : Op → Prop
  | .clientSend .. | .managerSend _ => True
  | _ => False

/-- Operations that send nothing do not look at what has been sent. -/
private theorem apply_with {op : Op} (hop : ¬ Sends op) (ok : Bool) (w : Instance) (ms : List RmgMessage)
    (cs : Nat → List RmgMessage) : Instance.apply op ok { w with toManager := ms, toClient := cs } =
      ((Instance.apply op ok w).1, { (Instance.apply op ok w).2 with toManager := ms, toClient := cs }) := by
  cases op with
  | clientSend | managerSend => exact absurd trivial hop
  | sql q =>
    cases ok with
    | false => rfl
    | true =>
      simp only [Instance.apply]
      cases q.effect w.journal with
      | none => rfl
      | some j =>
        simp only [Instance.commit]
        split <;> rfl
  | _ => rfl

private theorem apply_of_not_sends {op : Op} (hop : ¬ Sends op) (ok : Bool) (x : Endpoint) : Endpoint.apply op ok x =
    ((Instance.apply op ok x.inst).1, { x with inst := (Instance.apply op ok x.inst).2 }) := by
  cases op with
  | clientSend | managerSend => exact absurd trivial hop
  | _ => rfl

private theorem misfit_apply (op : Op) (ok : Bool) (h : Misfit w) : Misfit (Instance.apply op ok w).2 := by
  obtain ⟨msg, hm, hp⟩ := h
  refine ⟨msg, ?_, hp⟩
  by_cases hop : Sends op
  · cases op with
    | clientSend k msg' =>
      cases ok with
      | false => exact hm
      | true =>
        refine hm.imp_right fun ⟨k', hk⟩ => ⟨k', ?_⟩
        show msg ∈ Function.update w.toClient k (w.toClient k ++ [msg']) k'
        by_cases hkk : k' = k
        · subst hkk
          rw [Function.update_self]
          exact List.mem_append_left _ hk
        · rw [Function.update_of_ne hkk]
          exact hk
    | managerSend msg' =>
      cases ok with
      | false => exact hm
      | true => exact hm.imp_left fun hm => List.mem_append_left _ hm
    | _ => exact hop.elim
  · have hw := apply_with hop ok w w.toManager w.toClient
    rw [show ({ w with toManager := w.toManager, toClient := w.toClient } : Instance) = w from rfl] at hw
    rw [hw]
    exact hm

theorem Refines.clientSend (h : x.Refines w) {msg : RmgMessage} (hp : msg.Proper) (k : Nat) :
    (Endpoint.apply (.clientSend k msg) true x).1 = .ok ∧
      (Endpoint.apply (.clientSend k msg) true x).2.Refines (w.clientSend k msg) := by
  have hsend : (x.client k).send (Wire.rmgClientSend true) msg = _ := Stream.send_of_proper hp (x.client k)
  simp only [Endpoint.apply]
  rw [hsend]
  refine ⟨rfl, ?_, h.manager, fun k' => ?_⟩
  · rw [h.inst]
    rfl
  · show (Function.update x.client k _ k').Carries (Function.update w.toClient k (w.toClient k ++ [msg]) k')
    by_cases hk : k' = k
    · subst hk
      rw [Function.update_self, Function.update_self]
      exact (h.client k').snoc
    · rw [Function.update_of_ne hk, Function.update_of_ne hk]
      exact h.client k'

theorem Refines.managerSend (h : x.Refines w) {msg : RmgMessage} (hp : msg.Proper) :
    (Endpoint.apply (.managerSend msg) true x).1 = .ok ∧
      (Endpoint.apply (.managerSend msg) true x).2.Refines (w.managerSend msg) := by
  have hsend : x.manager.send (Wire.rmgManagerSend true) msg = _ := Stream.send_of_proper hp x.manager
  simp only [Endpoint.apply]
  rw [hsend]
  refine ⟨rfl, ?_, h.manager.snoc, h.client⟩
  rw [h.inst]
  rfl

/-- An operation does the same with streams, or sends something that should not be sent. -/
private theorem Refines.apply (h : x.Refines w) {op : Op} {ok : Bool} (hA : SendsSucceed op ok) :
    (Instance.apply op ok w).1 = (Endpoint.apply op ok x).1 ∧
        (Endpoint.apply op ok x).2.Refines (Instance.apply op ok w).2 ∨
      Misfit (Instance.apply op ok w).2 := by
  by_cases hop : Sends op
  swap
  · left
    have hw := apply_with hop ok x.inst w.toManager w.toClient
    rw [← h.inst] at hw
    rw [hw, apply_of_not_sends hop]
    exact ⟨rfl, rfl, h.manager, h.client⟩
  cases op with
  | clientSend k msg =>
    obtain rfl : ok = true := hA
    by_cases hp : msg.Proper
    · exact .inl ⟨(h.clientSend hp k).1.symm, (h.clientSend hp k).2⟩
    · refine .inr ⟨msg, .inr ⟨k, ?_⟩, hp⟩
      show msg ∈ Function.update w.toClient k (w.toClient k ++ [msg]) k
      simp
  | managerSend msg =>
    obtain rfl : ok = true := hA
    by_cases hp : msg.Proper
    · exact .inl ⟨(h.managerSend hp).1.symm, (h.managerSend hp).2⟩
    · exact .inr ⟨msg, .inl (List.mem_append_right _ (List.mem_singleton.2 rfl)), hp⟩
  | _ => exact hop.elim

/-- What a label calls does not depend on what has been sent. -/
private theorem enabled_with {w₀ : Instance} {p : Proc PUnit} {s : Site n} (hl : l.Own s)
    (he : w.enabled glib l = some (w₀, p)) (ms : List RmgMessage) (cs : Nat → List RmgMessage) :
    Instance.enabled glib { w with toManager := ms, toClient := cs } l =
      some ({ w₀ with toManager := ms, toClient := cs }, p) := by
  have hr : w.running := running_of_enabled he hl.ne_restart
  unfold Instance.enabled at he ⊢
  cases l with
  | fromReplica | fromPrimary | restart => exact hl.elim
  | dispatch | execute =>
    dsimp only at he ⊢
    rw [if_pos hr] at he ⊢
    split at he
    · cases he
    · obtain ⟨rfl, rfl⟩ := Prod.mk.inj (Option.some.inj he)
      rfl
  | expire id =>
    dsimp only at he ⊢
    rw [if_pos hr] at he ⊢
    split at he
    · cases he
    · rename_i source heq
      obtain ⟨rfl, rfl⟩ := Prod.mk.inj (Option.some.inj he)
      rw [heq]
      rfl
  | _ =>
    dsimp only at he ⊢
    rw [if_pos hr] at he ⊢
    obtain ⟨rfl, rfl⟩ := Prod.mk.inj (Option.some.inj he)
    rfl

/-- A step with streams is one with messages, unless something is sent that should not be. -/
theorem Refines.step {s : Site n} (hA : ∀ op e, A op e → SendsSucceed op e) (hA' : ∀ op, A op true)
    (h : x.Refines w) (hl : l.Own s) (hs : x.StepUnder A glib l x') :
    ∃ w', Instance.StepUnder A glib w l w' ∧ (x'.Refines w' ∨ Misfit w') := by
  obtain ⟨w₀, p, o, x₁, he, hx, ho, rfl⟩ := hs
  have he' := enabled_with hl he w.toManager w.toClient
  rw [← h.inst] at he'
  have h₀ : Refines { x with inst := w₀ } { w₀ with toManager := w.toManager, toClient := w.toClient } :=
    ⟨rfl, h.manager, h.client⟩
  obtain ⟨o', w₁, hx', ho', hend⟩ := Exec.follow (M := Endpoint.machine) (N := Instance.machine) (A := A) (B := A)
    (R := Refines) (D := Misfit) ⟨true, hA'⟩ (fun op e s t he ht => ⟨e, he, ht.apply (hA op e he)⟩)
    (fun op e t _ => misfit_apply op e) hx ho h₀
  refine ⟨ended o' w₁, ⟨_, p, o', w₁, he', hx', ho', rfl⟩, ?_⟩
  rcases hend with ⟨rfl, hend⟩ | ⟨msg, hm, hp⟩
  · left
    cases o' with
    | done a => exact hend
    | aborted | killed =>
      refine ⟨?_, hend.manager, hend.client⟩
      show { w₁ with running := false } = _
      rw [hend.inst]
      rfl
  · right
    cases o' <;> exact ⟨msg, hm, hp⟩

private theorem sent_of_enabled {w₀ : Instance} {p : Proc PUnit} {s : Site n} (hl : l.Own s)
    (he : w.enabled glib l = some (w₀, p)) : w₀.toManager = w.toManager ∧ w₀.toClient = w.toClient := by
  cases callback_of_enabled he with
  | fromReplica | fromPrimary | restart => exact hl.elim
  | _ => exact ⟨rfl, rfl⟩

/-- A step with messages is one with streams, unless something is sent that should not be. -/
theorem Refines.step_back {s : Site n} (hA : ∀ op e, A op e → SendsSucceed op e) (h : x.Refines w)
    (hl : l.Own s) (hs : Instance.StepUnder A glib w l w') :
    (∃ x', x.StepUnder A glib l x' ∧ x'.Refines w') ∨ Misfit w' := by
  obtain ⟨w₀, p, o, w₁, he, hx, ho, rfl⟩ := hs
  have he' := enabled_with hl he x.inst.toManager x.inst.toClient
  rw [h.inst] at he'
  obtain ⟨hm, hc⟩ := sent_of_enabled hl he
  have h₀ : Refines { x with inst := { w₀ with toManager := x.inst.toManager, toClient := x.inst.toClient } } w₀ :=
    ⟨rfl, hm ▸ h.manager, hc ▸ h.client⟩
  rcases Exec.follow_of (M := Instance.machine) (N := Endpoint.machine) (A := A) (B := A) (R := fun w x => x.Refines w)
    (D := Misfit) (fun op e t s he ht => (ht.apply (hA op e he)).imp_left fun ⟨hres, h⟩ => ⟨e, he, hres.symm, h⟩)
    (fun op e t _ => misfit_apply op e) hx h₀ with ⟨x₁, hx', hend⟩ | ⟨msg, hm, hp⟩
  · refine .inl ⟨_, ⟨_, p, o, x₁, he', hx', ho, rfl⟩, ?_⟩
    cases o with
    | done a => exact hend
    | aborted | killed =>
      refine ⟨?_, hend.manager, hend.client⟩
      show { w₁ with running := false } = _
      rw [hend.inst]
      rfl
  · right
    cases o <;> exact ⟨msg, hm, hp⟩

/-- Nothing that has been sent to the primary is taken back. -/
theorem toManager_prefix {s : Site n} (hl : l.Own s) (h : Instance.StepUnder A glib w l w') :
    w.toManager <+: w'.toManager := by
  obtain ⟨w₀, p, o, w₁, he, hx, -, rfl⟩ := h
  have hw₀ : w₀.toManager = w.toManager := (sent_of_enabled hl he).1
  have hkeep := Triple.of_calls (M := Instance.machine) (A := A) (I := fun v => w.toManager <+: v.toManager)
    (fun op e v _ _ hv => ?_) (calls_true p) w₀ o w₁ (hw₀ ▸ List.prefix_rfl) hx
  · cases o <;> exact hkeep
  · by_cases hop : Sends op
    · cases op with
      | clientSend k msg => cases e <;> exact hv
      | managerSend msg =>
        cases e
        · exact hv
        · exact hv.trans (List.prefix_append _ _)
      | _ => exact hop.elim
    · have hv' := apply_with hop e v v.toManager v.toClient
      rw [show ({ v with toManager := v.toManager, toClient := v.toClient } : Instance) = v from rfl] at hv'
      show _ <+: (Instance.apply op e v).2.toManager
      rw [hv']
      exact hv

/-! ### Messages that are read -/

private theorem after_with {p : Proc PUnit} (hp : p.Calls fun op => ¬ Sends op) (w : Instance) (ms : List RmgMessage)
    (cs : Nat → List RmgMessage) : Instance.after { w with toManager := ms, toClient := cs } p =
      { w.after p with toManager := ms, toClient := cs } := by
  have hrun : ∀ w : Instance, Instance.run { w with toManager := ms, toClient := cs } p =
      ((w.run p).1, { (w.run p).2 with toManager := ms, toClient := cs }) := by
    induction p with
    | ret a => exact fun w => rfl
    | abort => exact fun w => rfl
    | call op k ih =>
      intro w
      show Fallible.run Instance.machine true (k (Instance.apply op true _).1) (Instance.apply op true _).2 = _
      rw [apply_with hp.1]
      exact ih _ (hp.2 _) _
  unfold Instance.after
  rw [hrun]
  cases outcomeOf (w.run p).1 <;> rfl

theorem calls_processMessage (r : Wire.Receiver) (msg : RmgMessage) :
    (r.processMessage msg).Calls fun op => ¬ Sends op ∧ SendsOnly op := by
  have hservice : ∀ type, (pushServiceEvent type msg).Calls fun op => ¬ Sends op ∧ SendsOnly op :=
    fun _ => ⟨⟨id, trivial⟩, fun _ => ⟨⟨id, trivial⟩, fun _ => ⟨⟨id, trivial⟩, fun _ => trivial⟩⟩⟩
  have hprocess : ∀ type, (pushProcessEvent type msg).Calls fun op => ¬ Sends op ∧ SendsOnly op :=
    fun _ => ⟨⟨id, trivial⟩, fun _ => ⟨⟨id, trivial⟩, fun _ => ⟨⟨id, trivial⟩, fun _ => trivial⟩⟩⟩
  cases r with
  | client sockfd =>
    show (clientProcessMessage sockfd msg).Calls _
    unfold clientProcessMessage
    split
    · exact ⟨⟨id, trivial⟩, fun _ => trivial⟩
    all_goals first | exact hservice _ | trivial
  | manager =>
    show (managerProcessMessage msg).Calls _
    unfold managerProcessMessage
    split
    · exact hprocess _
    · exact hservice _
    · trivial

/-- A message of the replica has been read. -/
theorem Refines.read (h : x.Refines w) {manager : Stream} {ms : List RmgMessage} (hm : manager.Carries ms) :
    Refines { x with manager := manager } { w with toManager := ms } := by
  refine ⟨?_, hm, h.client⟩
  rw [h.inst]

/-- A message of the primary has been read. -/
theorem Refines.delivered (h : x.Refines w) (k : Nat) {client : Stream} {ms : List RmgMessage}
    (hm : client.Carries ms) : Refines { x with client := Function.update x.client k client }
      { w with toClient := Function.update w.toClient k ms } := by
  refine ⟨?_, h.manager, fun k' => ?_⟩
  · rw [h.inst]
  · show (Function.update x.client k client k').Carries (Function.update w.toClient k ms k')
    by_cases hk : k' = k
    · subst hk
      rw [Function.update_self, Function.update_self]
      exact hm
    · rw [Function.update_of_ne hk, Function.update_of_ne hk]
      exact h.client k'

/-- The server has a new client. -/
theorem Refines.accept (h : x.Refines w) (client : RmgClient) :
    Refines { x with inst := { x.inst with clients := x.inst.clients ++ [client] } }
      { w with clients := w.clients ++ [client] } := by
  refine ⟨?_, h.manager, h.client⟩
  rw [h.inst]

theorem Refines.processMessage (h : x.Refines w) (r : Wire.Receiver) (msg : RmgMessage) :
    Refines { x with inst := x.inst.after (r.processMessage msg) } (w.after (r.processMessage msg)) := by
  have hw := after_with ((calls_processMessage r msg).mono fun _ h => h.1) x.inst w.toManager w.toClient
  rw [← h.inst] at hw
  rw [hw]
  exact ⟨rfl, h.manager, h.client⟩

end Endpoint

end RecoveryManager
