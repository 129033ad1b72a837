import RecoveryManager.Capacity
import RecoveryManager.Messages
import RecoveryManager.Names
import RecoveryManager.UnitSource

/-!
# What is received

The callbacks of the two sources that read messages, from the bytes that have come in to the event that is pushed.  A
message that is not valid is warned about and then treated like any other, so anything may become an event; nothing but
what `rmg_message_write` emits does exactly if every message that is acted on is well formed (`genuine_only_iff`).
-/

namespace RecoveryManager

open Fallible Fallible.Prog ByteStream

/-- The message as `process_message` sees it; `name` is how the memory of a name reads as a string. -/
def Wire.RmgMessage.received (msg : Wire.RmgMessage) (name : List Byte → String) (cause : Cause) :
    RecoveryManager.RmgMessage where
  type := msg.hdr.kind
  processName := msg.data.processName.map name
  serviceName := msg.data.serviceName.map name
  contextName := msg.data.contextName.map name
  cause := cause

namespace Wire

/-- The end of a connection that reads from it: the primary's, for the client behind `sockfd`, or a replica's. -/
inductive Receiver where
  | client (sockfd : Nat)
  | manager
  deriving DecidableEq, Repr

def Receiver.processMessage : Receiver → RecoveryManager.RmgMessage → Proc PUnit
  | .client sockfd, msg => clientProcessMessage sockfd msg
  | .manager, msg => managerProcessMessage msg

/-- `client_source_callback` and `manager_source_callback`.  The source is removed when the first component is false. -/
def Receiver.sourceCallback (r : Receiver) (name : List Byte → String) (cause : Cause) (c : Link) (w : Instance) :
    Bool × Link × Instance :=
  match Fallible.run Link.machine none rmgMessageRead c with
  | (some (some msg), c') => (true, c', w.after (r.processMessage (msg.received name cause)))
  | (_, c') => (false, c', w)

/-- What one call of `rmg_message_read` takes from a connection, for the header and for the payload. -/
def taken (c : Link) : List Byte × List Byte :=
  ((readv 20 c.incoming).1, (readv ((headerRead c).segments.map Prod.snd).sum (readv 20 c.incoming).2).1)

/-- The bytes that `rmg_message_write` emits for a message of this type with names. -/
def Emitted (type : RmgMessageType) (bytes : List Byte) : Prop :=
  ∃ session names, (∀ a ∈ type.arguments, 0 ∉ names a) ∧ bytes = (named type session names).bytes

/-- An event was pushed, or the name of a client has changed. -/
def Affected (w w' : Instance) : Prop := w'.dispatcherQueue ≠ w.dispatcherQueue ∨ w'.clients ≠ w.clients

/-- The receiver does something about the message. -/
def Receiver.ActsOn (r : Receiver) (msg : RecoveryManager.RmgMessage) (w : Instance) : Prop :=
  match r, msg.type with
  | .client sockfd, .replicaDescriptor => ∃ x ∈ w.clients, x.sockfd = sockfd ∧ x.contextName ≠ msg.contextName
  | .client _, .requestContextRestart | .client _, .requestPlatformRestart | .client _, .requestFactoryReset
  | .client _, .informPrimaryServiceFailed => True
  | .manager, .informProcessCrash | .manager, .informClientServiceFailed => True
  | _, _ => False

/-- The message in `c` is as it should be. -/
structure WellFormed (c : Link) : Prop where
  header : (taken c).1.length = 20
  hsh : (headerRead c).hsh = startHash
  version : (headerRead c).version = protocolVersion
  sizes : ∀ x ∈ (headerRead c).segments, x.2 ≤ maxNameLen + 1
  unused : ((headerRead c).segments.length < 2 → (headerRead c).sizeOfArg2 = 0) ∧ (headerRead c).sizeOfArg3 = 0 ∧
    (headerRead c).sizeOfArg4 = 0
  payload : (taken c).2.length = ((headerRead c).segments.map Prod.snd).sum
  names : 0 ∉ (taken c).2

/-- Only what `rmg_message_write` emits affects the receiver, and no message with a foreign header or with names that
are too long does. -/
structure GenuineOnly (r : Receiver) (name : List Byte → String) (cause : Cause) (c : Link) (w : Instance) : Prop where
  emitted : Affected w (r.sourceCallback name cause c w).2.2 →
    Emitted (headerRead c).kind ((taken c).1 ++ (taken c).2)
  header : (headerRead c).hsh ≠ startHash ∨ (headerRead c).version ≠ protocolVersion ∨
    (∃ x ∈ (headerRead c).segments, x.1.isName ∧ maxNameLen + 1 < x.2) → ¬ Affected w
    (r.sourceCallback name cause c w).2.2

/-! ### The receivers -/

private theorem affected_push (w : Instance) (type : DispatcherEventType) (msg : RecoveryManager.RmgMessage) :
    Affected w (w.after (pushServiceEvent type msg)) ∧ Affected w (w.after (pushProcessEvent type msg)) := by
  have hne : ∀ e, w.dispatcherQueue ++ [e] ≠ w.dispatcherQueue := by
    intro e h
    have := congrArg List.length h
    rw [List.length_append, List.length_singleton] at this
    omega
  exact ⟨.inl (hne _), .inl (hne _)⟩

private theorem affected_setClientName (w : Instance) (sockfd : Nat) (name : Option String) :
    Affected w (w.setClientName sockfd name) ↔ ∃ x ∈ w.clients, x.sockfd = sockfd ∧ x.contextName ≠ name := by
  have hclients : Affected w (w.setClientName sockfd name) ↔ (w.setClientName sockfd name).clients ≠ w.clients :=
    or_iff_right fun h => h rfl
  have hid : (w.setClientName sockfd name).clients = w.clients ↔
      ∀ x ∈ w.clients, (if x.sockfd = sockfd then { x with contextName := name } else x) = x := by
    show w.clients.map (fun c => if c.sockfd = sockfd then { c with contextName := name } else c) = w.clients ↔ _
    conv_lhs => rhs; rw [← List.map_id w.clients]
    exact List.map_inj_left
  rw [hclients, ne_eq, hid]
  constructor
  · intro h
    obtain ⟨x, hx, hne⟩ := not_forall₂.1 h
    split at hne
    · rename_i hs
      exact ⟨x, hx, hs, fun hn => hne (by rw [← hn])⟩
    · exact absurd rfl hne
  · rintro ⟨x, hx, hs, hne⟩ h
    have hx' := h x hx
    rw [if_pos hs] at hx'
    exact hne (congrArg RmgClient.contextName hx').symm

theorem affected_processMessage_iff (r : Receiver) (msg : RecoveryManager.RmgMessage) (w : Instance) :
    Affected w (w.after (r.processMessage msg)) ↔ r.ActsOn msg w := by
  have hnot : ¬ Affected w w := fun h => h.elim (fun h => h rfl) fun h => h rfl
  have hpush := fun type => affected_push w type msg
  unfold Receiver.ActsOn
  cases r with
  | client sockfd =>
    show Affected w (w.after (clientProcessMessage sockfd msg)) ↔ _
    unfold clientProcessMessage
    cases msg.type with
    | replicaDescriptor => exact affected_setClientName w sockfd msg.contextName
    | requestContextRestart | requestPlatformRestart | requestFactoryReset | informPrimaryServiceFailed =>
      exact iff_of_true (hpush _).1 trivial
    | unknown | actionResponse | informProcessCrash | informClientServiceFailed | instanceStatus =>
      exact iff_of_false hnot id
  | manager =>
    show Affected w (w.after (managerProcessMessage msg)) ↔ _
    unfold managerProcessMessage
    cases msg.type with
    | informProcessCrash => exact iff_of_true (hpush _).2 trivial
    | informClientServiceFailed => exact iff_of_true (hpush _).1 trivial
    | unknown | actionResponse | replicaDescriptor | requestContextRestart | requestPlatformRestart
    | requestFactoryReset | informPrimaryServiceFailed | instanceStatus => exact iff_of_false hnot id

/-- Only messages with names are acted on. -/
theorem carriesNames_of_actsOn {r : Receiver} {msg : RecoveryManager.RmgMessage} {w : Instance} (h : r.ActsOn msg w) :
    CarriesNames msg.type := by
  unfold Receiver.ActsOn at h
  generalize msg.type = type at h ⊢
  cases r <;> cases type <;> first | exact h.elim | exact ⟨by decide, by decide⟩

/-! ### The bytes of a message -/

section read
variable {c c' : Link} {d : RmgMessage}

theorem hdr_eq_headerRead (h : Fallible.run Link.machine none rmgMessageRead c = (some (some d), c')) :
    d.hdr = headerRead c := by
  obtain ⟨-, hbytes, -⟩ := read_inv h
  rw [← RmgMessageHdr.ofBytes_bytes d.hdr, hbytes]
  rfl

/-- The message is read just so from the bytes that were taken. -/
theorem run_taken (h : Fallible.run Link.machine none rmgMessageRead c = (some (some d), c'))
    (hs : d.hdr.segments ≠ []) :
    Fallible.run Link.machine none rmgMessageRead ⟨[(taken c).1, (taken c).2], []⟩ = (some (some d), ⟨[], []⟩) := by
  have hhdr := hdr_eq_headerRead h
  rw [hhdr] at hs
  obtain ⟨hgot, -, ⟨hnone, -⟩ | ⟨-, hgot', hfilled, -⟩⟩ := read_inv h
  · exact absurd (hhdr ▸ hnone) hs
  rw [hhdr] at hgot' hfilled
  have h₁ : readv 20 [(taken c).1, (taken c).2] = ((taken c).1, [(taken c).2]) :=
    readv_of_length_le (length_readv_le 20 c.incoming) _
  have h₂ : readv ((headerRead c).segments.map Prod.snd).sum [(taken c).2] = ((taken c).2, []) :=
    readv_of_length_le (length_readv_le _ _) _
  have hrun := run_rmgMessageRead ⟨[(taken c).1, (taken c).2], []⟩
  dsimp only at hrun
  rw [h₁] at hrun
  dsimp only at hrun
  rw [if_neg (show ¬ (taken c).1 = [] from hgot),
    show RmgMessageHdr.ofBytes (overlay blank.hdr.bytes (taken c).1) = headerRead c from rfl, if_neg hs, h₂] at hrun
  dsimp only at hrun
  rw [if_neg (show ¬ (taken c).2 = [] from hgot')] at hrun
  rw [hrun, hfilled]
  rfl

private theorem type_of_kind {hdr : RmgMessageHdr} (h : hdr.kind ≠ .unknown) :
    hdr.type = BitVec.ofNat 32 hdr.kind.code := by
  apply BitVec.eq_of_toNat_eq
  rw [BitVec.toNat_ofNat]
  unfold RmgMessageHdr.kind RmgMessageType.ofCode at h ⊢
  generalize hdr.type.toNat = n at h ⊢
  split_ifs with h₁ h₂ h₃ h₄ h₅ h₆ h₇ h₈ h₉ <;> first | (subst n; rfl) | skip
  simp [h₁, h₂, h₃, h₄, h₅, h₆, h₇, h₈, h₉] at h

private theorem wellFormed_of_emitted (h : Fallible.run Link.machine none rmgMessageRead c = (some (some d), c'))
    (hcarries : CarriesNames (headerRead c).kind)
    (hemitted : Emitted (headerRead c).kind ((taken c).1 ++ (taken c).2)) : WellFormed c := by
  obtain ⟨session, names, hnames, hbytes⟩ := hemitted
  have hhdr := hdr_eq_headerRead h
  have hs : d.hdr.segments ≠ [] := by
    rw [hhdr]
    intro hnil
    have hz := congrArg List.length hnil
    unfold RmgMessageHdr.segments at hz
    obtain ⟨a, l, hargs⟩ := List.exists_cons_of_ne_nil hcarries.1
    rw [hargs] at hz
    cases hz
  have hflat : [(taken c).1, (taken c).2].flatten = (named (headerRead c).kind session names).bytes := by
    rw [← hbytes, List.flatten_cons, List.flatten_cons, List.flatten_nil, List.append_nil]
  -- the reader has obtained the whole message, so its header is the one that was written
  have hwhole := obtained_whole hcarries hnames hflat (run_taken h hs) rfl
  have hd : headerRead c = (named (headerRead c).kind session names).sized.hdr := by
    conv_lhs => rw [← hhdr, hwhole, RmgMessage.filled_hdr]
  have hsegments := @segments_named _ session _ hcarries hnames
  have hsum := @sum_segments_named _ session _ hcarries hnames
  have hpayload := @payload_named _ session _ hcarries hnames
  rw [← hd] at hsegments hsum
  have hlen := congrArg List.length hbytes
  have h₁ : (taken c).1.length ≤ 20 := length_readv_le _ _
  have h₂ : (taken c).2.length ≤ ((headerRead c).segments.map Prod.snd).sum := length_readv_le _ _
  rw [RmgMessage.bytes, List.length_append, List.length_append, RmgMessageHdr.length_bytes] at hlen
  have hheader : (taken c).1.length = 20 := by omega
  have hfields := hd.trans sized_named_hdr
  refine ⟨hheader, congrArg RmgMessageHdr.hsh hfields, congrArg RmgMessageHdr.version hfields, ?_,
    ⟨?_, congrArg RmgMessageHdr.sizeOfArg3 hfields, congrArg RmgMessageHdr.sizeOfArg4 hfields⟩, by omega, ?_⟩
  · rw [hsegments]
    intro x hx
    obtain ⟨a, -, rfl⟩ := List.mem_map.1 hx
    exact Nat.min_le_right _ _
  · intro hlt
    rw [hsegments, List.length_map] at hlt
    have hsize := congrArg RmgMessageHdr.sizeOfArg2 hfields
    dsimp only at hsize
    rw [hsize, List.getElem?_eq_none (by omega)]
    rfl
  · have htwo := (List.append_inj hbytes (by rw [hheader, RmgMessageHdr.length_bytes])).2
    rw [htwo, hpayload]
    intro h0
    obtain ⟨bs, hbs, h0⟩ := List.mem_flatten.1 h0
    obtain ⟨a, ha, rfl⟩ := List.mem_map.1 hbs
    exact hnames a ha (List.mem_of_mem_take h0)

/-- The names in the payload. -/
private def namesIn (c : Link) (a : Argument) : List Byte :=
  if (headerRead c).kind.arguments.head? = some a then (taken c).2.take (headerRead c).sizeOfArg1.toNat
  else (taken c).2.drop (headerRead c).sizeOfArg1.toNat

private theorem namesIn_plain (h : WellFormed c) : ∀ a ∈ (headerRead c).kind.arguments, 0 ∉ namesIn c a := by
  intro a _ h0
  unfold namesIn at h0
  split at h0
  · exact h.names (List.mem_of_mem_take h0)
  · exact h.names (List.mem_of_mem_drop h0)

/-- A message made from the names that a well-formed one carries has the same sizes and the same payload. -/
private theorem sized_of_wellFormed (hcarries : CarriesNames (headerRead c).kind) (h : WellFormed c) :
    ((headerRead c).kind.arguments[0]?.map
        (·.size (named (headerRead c).kind (headerRead c).session (namesIn c)).data)).getD 0 =
          (headerRead c).sizeOfArg1 ∧
      ((headerRead c).kind.arguments[1]?.map
        (·.size (named (headerRead c).kind (headerRead c).session (namesIn c)).data)).getD 0 =
          (headerRead c).sizeOfArg2 ∧
      (named (headerRead c).kind (headerRead c).session (namesIn c)).sized.payload = (taken c).2 := by
  have hnames := namesIn_plain h
  have hsize : ∀ a ∈ (headerRead c).kind.arguments, ∀ x : BitVec 16, (namesIn c a).length = x.toNat → x.toNat ≤ 129 →
      a.size (named (headerRead c).kind (headerRead c).session (namesIn c)).data = x := by
    intro a ha x hlen hle
    apply BitVec.eq_of_toNat_eq
    rw [size_named hnames ha (hcarries.2 a ha), hlen, Nat.min_eq_left hle]
  have hpayload := @payload_named _ (headerRead c).session _ hcarries hnames
  have hsum := h.payload
  have hle := h.sizes
  have hnone := h.unused.1
  unfold RmgMessageHdr.segments at hsum hle hnone
  rcases arguments_cases (headerRead c).kind with hargs | ⟨a, hargs⟩ | ⟨a, b, hargs, hab⟩
  · exact absurd hargs hcarries.1
  · have ha : namesIn c a = (taken c).2.take (headerRead c).sizeOfArg1.toNat := if_pos (by rw [hargs]; rfl)
    rw [hargs] at hsum hle hnone hpayload hsize ⊢
    have hle₁ : (headerRead c).sizeOfArg1.toNat ≤ 129 := hle (a, _) (by simp)
    have hlen : (taken c).2.length = (headerRead c).sizeOfArg1.toNat := hsum.trans (Nat.add_zero _)
    rw [← hlen, List.take_length] at ha
    refine ⟨hsize a (by simp) _ (by rw [ha, hlen]) hle₁, (hnone (by simp)).symm, ?_⟩
    rw [hpayload, List.map_singleton, List.flatten_cons, List.flatten_nil, List.append_nil, ha,
      List.take_of_length_le (by omega)]
  · have ha : namesIn c a = (taken c).2.take (headerRead c).sizeOfArg1.toNat := if_pos (by rw [hargs]; rfl)
    have hb : namesIn c b = (taken c).2.drop (headerRead c).sizeOfArg1.toNat := by
      refine if_neg fun e => hab ?_
      rw [hargs] at e
      exact Option.some.inj e
    rw [hargs] at hsum hle hpayload hsize ⊢
    have hle₁ : (headerRead c).sizeOfArg1.toNat ≤ 129 := hle (a, _) (by simp)
    have hle₂ : (headerRead c).sizeOfArg2.toNat ≤ 129 := hle (b, _) (by simp)
    have hlen : (taken c).2.length = (headerRead c).sizeOfArg1.toNat + ((headerRead c).sizeOfArg2.toNat + 0) := hsum
    have hla : (namesIn c a).length = (headerRead c).sizeOfArg1.toNat := by
      rw [ha, List.length_take]
      omega
    have hlb : (namesIn c b).length = (headerRead c).sizeOfArg2.toNat := by
      rw [hb, List.length_drop]
      omega
    refine ⟨hsize a (by simp) _ hla hle₁, hsize b (by simp) _ hlb hle₂, ?_⟩
    rw [hpayload, List.map_cons, List.map_singleton, List.flatten_cons, List.flatten_cons, List.flatten_nil,
      List.append_nil, List.take_of_length_le (by omega), List.take_of_length_le (by omega), ha, hb,
      List.take_append_drop]

private theorem emitted_of_wellFormed (hcarries : CarriesNames (headerRead c).kind) (h : WellFormed c) :
    Emitted (headerRead c).kind ((taken c).1 ++ (taken c).2) := by
  refine ⟨(headerRead c).session, namesIn c, namesIn_plain h, ?_⟩
  have hbytes : (headerRead c).bytes = (taken c).1 := by
    have hover : overlay blank.hdr.bytes (taken c).1 = (taken c).1 :=
      overlay_of_length_le (by rw [RmgMessageHdr.length_bytes, h.header])
    show (RmgMessageHdr.ofBytes (overlay blank.hdr.bytes (taken c).1)).bytes = _
    rw [hover]
    exact RmgMessageHdr.bytes_ofBytes h.header
  have hkind : (headerRead c).kind ≠ .unknown := by
    intro e
    rw [e] at hcarries
    exact hcarries.1 rfl
  -- the header is fixed up to its session and the two sizes
  have hhdr : headerRead c = ⟨startHash, (headerRead c).session, protocolVersion,
      BitVec.ofNat 32 (headerRead c).kind.code, (headerRead c).sizeOfArg1, (headerRead c).sizeOfArg2, 0, 0⟩ := by
    obtain ⟨-, hthree, hfour⟩ := h.unused
    rw [← h.hsh, ← h.version, ← type_of_kind hkind]
    conv_rhs => rw [← hthree]
    conv_rhs => rhs; rw [hthree, ← hfour]
  obtain ⟨hsize₁, hsize₂, hpayload⟩ := sized_of_wellFormed hcarries h
  have hsized : (named (headerRead c).kind (headerRead c).session (namesIn c)).sized.hdr = headerRead c := by
    rw [sized_named_hdr, hsize₁, hsize₂]
    exact hhdr.symm
  rw [RmgMessage.bytes, hsized, hpayload, hbytes]

end read

/-- The receiver is affected if it reads a message that it acts on. -/
private theorem affected_callback_iff (r : Receiver) (name : List Byte → String) (cause : Cause) (c : Link)
    (w : Instance) :
    Affected w (r.sourceCallback name cause c w).2.2 ↔
      ∃ d c', Fallible.run Link.machine none rmgMessageRead c = (some (some d), c') ∧
        r.ActsOn (d.received name cause) w := by
  have hnot : ¬ Affected w w := fun h => h.elim (fun h => h rfl) fun h => h rfl
  unfold Receiver.sourceCallback
  rcases hrun : Fallible.run Link.machine none rmgMessageRead c with ⟨_ | _ | d, c'⟩
  · refine iff_of_false hnot ?_
    rintro ⟨d, c'', h, -⟩
    cases h
  · refine iff_of_false hnot ?_
    rintro ⟨d, c'', h, -⟩
    cases h
  · refine (affected_processMessage_iff r _ w).trans ?_
    constructor
    · exact fun h => ⟨d, c', rfl, h⟩
    · rintro ⟨d', c'', h, hacts⟩
      cases h
      exact hacts

/-- A receiver is affected by genuine messages only, exactly if the message it acts on is well formed. -/
theorem genuine_only_iff (r : Receiver) (name : List Byte → String) (cause : Cause) (c : Link) (w : Instance) :
    GenuineOnly r name cause c w ↔
      ∀ d c', Fallible.run Link.machine none rmgMessageRead c = (some (some d), c') →
        r.ActsOn (d.received name cause) w → WellFormed c := by
  constructor
  · intro h d c' hrun hacts
    have haffected := (affected_callback_iff r name cause c w).2 ⟨d, c', hrun, hacts⟩
    have hcarries : CarriesNames (headerRead c).kind := by
      rw [← hdr_eq_headerRead hrun]
      exact carriesNames_of_actsOn hacts
    exact wellFormed_of_emitted hrun hcarries (h.emitted haffected)
  · intro h
    have hwell : Affected w (r.sourceCallback name cause c w).2.2 → CarriesNames (headerRead c).kind ∧
      WellFormed c := by
      intro haffected
      obtain ⟨d, c', hrun, hacts⟩ := (affected_callback_iff r name cause c w).1 haffected
      refine ⟨?_, h d c' hrun hacts⟩
      rw [← hdr_eq_headerRead hrun]
      exact carriesNames_of_actsOn hacts
    refine ⟨fun ha => emitted_of_wellFormed (hwell ha).1 (hwell ha).2, ?_⟩
    rintro (hhsh | hversion | ⟨x, hx, -, hlong⟩) ha
    · exact hhsh (hwell ha).2.hsh
    · exact hversion (hwell ha).2.version
    · exact absurd ((hwell ha).2.sizes x hx) (Nat.not_le.2 hlong)

/-- A factory reset request of another protocol version. -/
def foreignRequest : Link :=
  ⟨[{ (rmgMessageNew .requestFactoryReset 0).hdr with version := 2, sizeOfArg1 := 1, sizeOfArg2 := 1 }.bytes ++
    [0x61, 0x68]], []⟩

theorem foreign_request_dispatched : ¬ ∀ (r : Receiver) (name : List Byte → String) (cause : Cause) (c : Link)
    (w : Instance), GenuineOnly r name cause c w := by
  intro h
  have hversion : (headerRead foreignRequest).version ≠ protocolVersion := by decide +kernel
  refine (h (.client 4) (fun _ => "a") ⟨0, 0⟩ foreignRequest (.initial .primary "host")).header
    (.inr (.inl hversion)) ?_
  exact .inl (by decide +kernel)

end Wire

end RecoveryManager
