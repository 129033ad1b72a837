import RecoveryManager.Wire

/-!
# Framing

What the receiver makes of a stream of messages.  `rmg_message_read` takes it for granted that a read returns all that
was asked for, so a sequence of messages arrives as it was written exactly when no piece of the stream ends inside a
header or a payload (`received_iff_cut`).

After a short read the stream starts with a rest of the message (`Residue`), whose first byte is not that of a header.
-/

namespace RecoveryManager

namespace Wire

open Fallible Fallible.Prog ByteStream

def Argument.isName : Argument → Bool
  | .actionResponse | .instanceStatus => false
  | .processName | .serviceName | .contextName => true

/-- A new message whose arguments have been set, the names to C strings that are not empty and not too long. -/
structure RmgMessage.Sendable (msg : RmgMessage) : Prop where
  hdr : ∃ type session, msg.hdr = (rmgMessageNew type session).hdr
  actionResponse : msg.data.actionResponse.length = 8
  instanceStatus : msg.data.instanceStatus.length = 8
  names : ∀ a ∈ msg.hdr.kind.arguments, a.isName →
    a.bytes msg.data ≠ [] ∧ (a.bytes msg.data).length ≤ maxNameLen ∧ 0 ∉ a.bytes msg.data

/-- What is accepted when the messages are written one after the other, with all bytes accepted. -/
def written (ms : List RmgMessage) : List Byte :=
  (Fallible.run Link.machine none (List.forM ms fun m => do let _ ← rmgMessageWrite m) ⟨[], []⟩).2.accepted

/-- Messages are read until a read fails. -/
inductive Receives : Link → List (RmgMessageHdr × List (List Byte)) → Prop
  | stop {c c' : Link} : Fallible.run Link.machine none rmgMessageRead c = (some none, c') → Receives c []
  | next {c c' : Link} {msg : RmgMessage} {l : List (RmgMessageHdr × List (List Byte))} :
      Fallible.run Link.machine none rmgMessageRead c = (some (some msg), c') → Receives c' l →
      Receives c (msg.content :: l)

/-- The header of a message and its payload. -/
def RmgMessage.fields (msg : RmgMessage) : List (List Byte) :=
  if msg.sized.hdr.segments = [] then [msg.sized.hdr.bytes] else [msg.sized.hdr.bytes, msg.sized.payload]

/-! ### Messages that may be written -/

namespace RmgMessage.Sendable

variable {msg : RmgMessage} {a : Argument}

/-- The arguments are as long as their sizes say, and are read into memory of that size. -/
theorem size (h : msg.Sendable) (ha : a ∈ msg.hdr.kind.arguments) :
    (a.size msg.data).toNat = (a.bytes msg.data).length ∧ 0 < (a.bytes msg.data).length ∧
      (a.bytes msg.data).length ≤ maxNameLen ∧
      a.buffer (a.bytes msg.data).length = List.replicate (a.bytes msg.data).length 0 := by
  have hname : a.isName → (a.size msg.data).toNat = (a.bytes msg.data).length ∧ 0 < (a.bytes msg.data).length ∧
      (a.bytes msg.data).length ≤ maxNameLen ∧
      a.buffer (a.bytes msg.data).length = List.replicate (a.bytes msg.data).length 0 := by
    intro hn
    obtain ⟨hne, hlen, hnul⟩ := h.names a ha hn
    have hlen' : (a.bytes msg.data).length ≤ 128 := hlen
    have hwhile : (a.bytes msg.data).takeWhile (· ≠ 0) = a.bytes msg.data := by
      refine List.takeWhile_eq_self_iff.2 fun b hb => ?_
      have hb0 : b ≠ 0 := fun e => hnul (e ▸ hb)
      simpa using hb0
    have hsize : a.size msg.data = BitVec.ofNat 16 (strnlen (a.bytes msg.data) (maxNameLen + 1)) := by
      cases a <;> first | rfl | cases hn
    have hbuffer : a.buffer (a.bytes msg.data).length = List.replicate (a.bytes msg.data).length 0 := by
      cases a <;> first | rfl | cases hn
    refine ⟨?_, List.length_pos_iff.2 hne, hlen, hbuffer⟩
    rw [hsize, strnlen, hwhile, BitVec.toNat_ofNat, show maxNameLen + 1 = 129 from rfl]
    omega
  cases a with
  | actionResponse =>
    have hlen : (Argument.actionResponse.bytes msg.data).length = 8 := h.actionResponse
    rw [hlen]
    exact ⟨rfl, by decide, by decide, rfl⟩
  | instanceStatus =>
    have hlen : (Argument.instanceStatus.bytes msg.data).length = 8 := h.instanceStatus
    rw [hlen]
    exact ⟨rfl, by decide, by decide, rfl⟩
  | processName | serviceName | contextName => exact hname rfl

theorem segments (h : msg.Sendable) : msg.sized.hdr.segments =
    msg.hdr.kind.arguments.map fun a => (a, (a.bytes msg.data).length) := by
  have hkind := (sized_hdr msg).1
  unfold RmgMessageHdr.segments
  rw [hkind]
  unfold sized
  rcases arguments_cases msg.hdr.kind with hargs | ⟨a, hargs⟩ | ⟨a, b, hargs, -⟩
  · rw [hargs]
    rfl
  · have ha := (h.size (a := a) (by rw [hargs]; simp)).1
    rw [hargs]
    show [(a, (a.size msg.data).toNat)] = _
    rw [ha]
    rfl
  · have ha := (h.size (a := a) (by rw [hargs]; simp)).1
    have hb := (h.size (a := b) (by rw [hargs]; simp)).1
    rw [hargs]
    show [(a, (a.size msg.data).toNat), (b, (b.size msg.data).toNat)] = _
    rw [ha, hb]
    rfl

theorem payload (h : msg.Sendable) : msg.sized.payload = (msg.hdr.kind.arguments.map (·.bytes msg.data)).flatten := by
  unfold RmgMessage.payload
  rw [h.segments, (sized_hdr msg).2, List.flatMap_map, List.flatMap_def]
  congr 1
  exact List.map_congr_left fun a _ => List.take_length

theorem sum_segments (h : msg.Sendable) : (msg.sized.hdr.segments.map Prod.snd).sum = msg.sized.payload.length := by
  rw [h.segments, h.payload, List.length_flatten, List.map_map, List.map_map]
  rfl

theorem payload_ne_nil (h : msg.Sendable) (hs : msg.sized.hdr.segments ≠ []) : msg.sized.payload ≠ [] := by
  rw [h.segments] at hs
  rw [h.payload]
  obtain ⟨a, ha⟩ : ∃ a, a ∈ msg.hdr.kind.arguments := by
    refine List.exists_mem_of_ne_nil _ fun e => hs ?_
    rw [e, List.map_nil]
  intro e
  have hnil := List.flatten_eq_nil_iff.1 e (a.bytes msg.data) (List.mem_map_of_mem ha)
  have hpos := (h.size ha).2.1
  rw [hnil] at hpos
  cases hpos

theorem buffer (h : msg.Sendable) : ∀ x ∈ msg.sized.hdr.segments, x.1.buffer x.2 = List.replicate x.2 0 := by
  rw [h.segments]
  intro x hx
  obtain ⟨a, ha, rfl⟩ := List.mem_map.1 hx
  exact (h.size ha).2.2.2

theorem hsh (h : msg.Sendable) : msg.sized.hdr.hsh = startHash := by
  obtain ⟨type, session, hhdr⟩ := h.hdr
  have hs : msg.sized.hdr.hsh = msg.hdr.hsh := by
    unfold sized
    split <;> rfl
  rw [hs, hhdr]
  rfl

end RmgMessage.Sendable

/-! ### Writing -/

theorem flatten_fields (msg : RmgMessage) : msg.fields.flatten = msg.bytes := by
  unfold RmgMessage.fields RmgMessage.bytes
  split
  · rename_i h
    have hp : msg.sized.payload = [] := by rw [RmgMessage.payload, h, List.flatMap_nil]
    rw [hp, List.flatten_cons, List.flatten_nil]
  · rw [List.flatten_cons, List.flatten_cons, List.flatten_nil, List.append_nil]

/-- With all bytes accepted. -/
theorem run_rmgMessageWrite {msg : RmgMessage} (h : msg.sized.hdr.segments ≠ [] → msg.sized.payload ≠ []) (c : Link) :
    Fallible.run Link.machine none (rmgMessageWrite msg) c =
      (some .ok, { c with accepted := c.accepted ++ msg.bytes }) := by
  have hwritev : ∀ (bytes : List Byte) (c : Link), Fallible.run Link.machine none
      (.call (.writev bytes) .ret : LinkProc Int) c =
        (some (bytes.length : Int), { c with accepted := c.accepted ++ bytes }) := by
    intro bytes c
    have happly : Link.apply (.writev bytes) none c =
        ((bytes.length : Int), { c with accepted := c.accepted ++ bytes }) := by
      unfold Link.apply
      simp only [Option.getD_none, Int.min_self, Int.toNat_natCast, List.take_length]
      rfl
    exact congrArg (fun r : Int × Link => (some r.1, r.2)) happly
  have hpos : ¬ ((msg.sized.hdr.bytes.length : Int) ≤ 0) := by
    rw [RmgMessageHdr.length_bytes]
    decide
  unfold rmgMessageWrite
  dsimp only
  rw [run_bind_of_eq Link.machine none (hwritev msg.sized.hdr.bytes c), if_neg hpos]
  by_cases hs : msg.sized.hdr.segments = []
  · have hp : msg.sized.payload = [] := by rw [RmgMessage.payload, hs, List.flatMap_nil]
    rw [if_pos hs, RmgMessage.bytes, hp, List.append_nil]
    rfl
  · have hpos' : ¬ ((msg.sized.payload.length : Int) ≤ 0) := by
      have := List.length_pos_iff.2 (h hs)
      omega
    rw [if_neg hs, run_bind_of_eq Link.machine none (hwritev msg.sized.payload _), if_neg hpos', RmgMessage.bytes,
      ← List.append_assoc]
    rfl

theorem written_eq {ms : List RmgMessage} (h : ∀ m ∈ ms, m.Sendable) :
    written ms = (ms.flatMap RmgMessage.fields).flatten := by
  have key : ∀ (ms : List RmgMessage) (c : Link), (∀ m ∈ ms, m.Sendable) →
      (Fallible.run Link.machine none (List.forM ms fun m => do let _ ← rmgMessageWrite m) c).2.accepted =
        c.accepted ++ (ms.flatMap RmgMessage.fields).flatten := by
    intro ms
    induction ms with
    | nil => exact fun c _ => (List.append_nil _).symm
    | cons m ms ih =>
      intro c h
      have hrun : Fallible.run Link.machine none (do let _ ← rmgMessageWrite m : LinkProc PUnit) c =
          (some ⟨⟩, { c with accepted := c.accepted ++ m.bytes }) :=
        (run_bind_of_eq Link.machine none (run_rmgMessageWrite (h m List.mem_cons_self).payload_ne_nil c)).trans rfl
      have htail := ih { c with accepted := c.accepted ++ m.bytes } fun m hm => h m (List.mem_cons_of_mem _ hm)
      have hcons : (List.forM (m :: ms) fun m => (do let _ ← rmgMessageWrite m : LinkProc PUnit)) =
          (do let _ ← rmgMessageWrite m : LinkProc PUnit) >>= fun _ =>
            List.forM ms fun m => (do let _ ← rmgMessageWrite m : LinkProc PUnit) := rfl
      rw [List.flatMap_cons, List.flatten_append, flatten_fields, ← List.append_assoc, ← htail, hcons,
        run_bind_of_eq Link.machine none hrun]
  exact (key ms ⟨[], []⟩ h).trans (List.nil_append _)

/-! ### Reading -/

/-- The header as it stands before the first read. -/
def blank : RmgMessage := rmgMessageNew .unknown 0

theorem run_rmgMessageRead (c : Link) : Fallible.run Link.machine none rmgMessageRead c =
    let r := readv 20 c.incoming
    let msg : RmgMessage := { blank with hdr := .ofBytes (overlay blank.hdr.bytes r.1) }
    let r' := readv (msg.hdr.segments.map Prod.snd).sum r.2
    if r.1 = [] then (some none, { c with incoming := r.2 })
    else if msg.hdr.segments = [] then (some (some msg), { c with incoming := r.2 })
    else if r'.1 = [] then (some none, { c with incoming := r'.2 })
    else (some (some (msg.filled msg.hdr.segments r'.1)), { c with incoming := r'.2 }) := by
  have hreadv : ∀ (n : Nat) (c : Link),
      Fallible.run Link.machine none (.call (.readv n) .ret : LinkProc (List Byte)) c =
      (some (readv n c.incoming).1, { c with incoming := (readv n c.incoming).2 }) := fun _ _ => rfl
  unfold rmgMessageRead
  dsimp only
  rw [run_bind_of_eq Link.machine none (hreadv _ c)]
  by_cases h₁ : (readv 20 c.incoming).1 = []
  · rw [if_pos h₁, if_pos (show (readv RmgMessageHdr.length c.incoming).1 = [] from h₁)]
    rfl
  rw [if_neg h₁, if_neg (show ¬ (readv RmgMessageHdr.length c.incoming).1 = [] from h₁)]
  by_cases h₂ : (RmgMessageHdr.ofBytes (overlay blank.hdr.bytes (readv 20 c.incoming).1)).segments = []
  · rw [if_pos h₂]
    show Fallible.run Link.machine none (if (RmgMessageHdr.ofBytes (overlay blank.hdr.bytes
      (readv 20 c.incoming).1)).segments = [] then _ else _) _ = _
    rw [if_pos h₂]
    rfl
  rw [if_neg h₂]
  show Fallible.run Link.machine none (if (RmgMessageHdr.ofBytes (overlay blank.hdr.bytes
    (readv 20 c.incoming).1)).segments = [] then _ else _) _ = _
  rw [if_neg h₂, run_bind_of_eq Link.machine none (hreadv _ _)]
  split
  · rename_i h₃
    exact (if_pos h₃).symm
  · rename_i h₃
    exact (if_neg h₃).symm

/-- The arguments are the parts of the memory they are read into. -/
theorem content_filled {msg : RmgMessage} {got : List Byte}
    (hbuffer : ∀ x ∈ msg.hdr.segments, x.1.buffer x.2 = List.replicate x.2 0) :
    (msg.filled msg.hdr.segments got).content =
      (msg.hdr, slices (msg.hdr.segments.map Prod.snd)
        (overlay (List.replicate (msg.hdr.segments.map Prod.snd).sum 0) got)) := by
  unfold RmgMessage.content
  rw [RmgMessage.filled_hdr]
  congr 1
  unfold RmgMessageHdr.segments at hbuffer ⊢
  rcases arguments_cases msg.hdr.kind with hargs | ⟨a, hargs⟩ | ⟨a, b, hargs, hab⟩
  · rw [hargs]
    rfl
  · rw [hargs] at hbuffer ⊢
    have ha := hbuffer (a, msg.hdr.sizeOfArg1.toNat) (by simp)
    simp only [List.zip_cons_cons, List.zip_nil_left, RmgMessage.filled, List.map_cons, List.map_nil, List.sum_cons,
      List.sum_nil, Nat.add_zero, Argument.bytes_set, slices, take_overlay, List.take_replicate, Nat.min_self]
    rw [show a.buffer msg.hdr.sizeOfArg1.toNat = _ from ha]
  · rw [hargs] at hbuffer ⊢
    have ha := hbuffer (a, msg.hdr.sizeOfArg1.toNat) (by simp)
    have hb := hbuffer (b, msg.hdr.sizeOfArg2.toNat) (by simp)
    simp only [List.zip_cons_cons, List.zip_nil_left, RmgMessage.filled, List.map_cons, List.map_nil, List.sum_cons,
      List.sum_nil, Nat.add_zero, Argument.bytes_set, Argument.bytes_set_of_ne hab, slices, take_overlay, drop_overlay,
      List.take_replicate, List.drop_replicate]
    rw [show a.buffer msg.hdr.sizeOfArg1.toNat = _ from ha, show b.buffer msg.hdr.sizeOfArg2.toNat = _ from hb]
    simp

/-- What a successful read has done. -/
theorem read_inv {c c' : Link} {msg : RmgMessage}
    (h : Fallible.run Link.machine none rmgMessageRead c = (some (some msg), c')) :
    (readv 20 c.incoming).1 ≠ [] ∧ msg.hdr.bytes = overlay blank.hdr.bytes (readv 20 c.incoming).1 ∧
      (msg.hdr.segments = [] ∧ c'.incoming = (readv 20 c.incoming).2 ∨
        msg.hdr.segments ≠ [] ∧ (readv (msg.hdr.segments.map Prod.snd).sum (readv 20 c.incoming).2).1 ≠ [] ∧
          msg = ({ blank with hdr := msg.hdr } : RmgMessage).filled msg.hdr.segments
            (readv (msg.hdr.segments.map Prod.snd).sum (readv 20 c.incoming).2).1 ∧
          c'.incoming = (readv (msg.hdr.segments.map Prod.snd).sum (readv 20 c.incoming).2).2) := by
  have hlen : (overlay blank.hdr.bytes (readv 20 c.incoming).1).length = 20 := by
    rw [length_overlay, RmgMessageHdr.length_bytes]
    rw [RmgMessageHdr.length_bytes]
    exact length_readv_le 20 c.incoming
  have hbytes := RmgMessageHdr.bytes_ofBytes hlen
  rw [run_rmgMessageRead] at h
  dsimp only at h
  split at h
  · cases h
  rename_i h₁
  split at h
  · rename_i h₂
    obtain ⟨hmsg, rfl⟩ := Prod.mk.inj h
    obtain rfl := Option.some.inj (Option.some.inj hmsg)
    exact ⟨h₁, hbytes, .inl ⟨h₂, rfl⟩⟩
  · rename_i h₂
    split at h
    · cases h
    · rename_i h₃
      obtain ⟨hmsg, rfl⟩ := Prod.mk.inj h
      obtain rfl := Option.some.inj (Option.some.inj hmsg)
      rw [RmgMessage.filled_hdr]
      exact ⟨h₁, hbytes, .inr ⟨h₂, h₃, rfl, rfl⟩⟩

/-! ### After a short read -/

/-- What a short read can leave of a message that seems to have been read whole. -/
structure Residue (l : List Byte) : Prop where
  ne_nil : l ≠ []
  length : l.length < 20
  head : l[0]? ≠ some 0xDE
  zeros : ∀ i, 8 ≤ i → i < l.length → l[i]? = some 0

private theorem blank_bytes :
    blank.hdr.bytes = [0xDE, 0xEC, 0, 0, 1, 0, 0, 0, 0, 0, 0, 0, 0, 0, 0, 0, 0, 0, 0, 0] := rfl

private theorem blank_zeros : ∀ i, 5 ≤ i → i < 20 → blank.hdr.bytes[i]? = some 0 := by
  rw [blank_bytes]
  decide

private theorem blank_head : ∀ i, 1 ≤ i → i < 20 → blank.hdr.bytes[i]? ≠ some 0xDE := by
  rw [blank_bytes]
  decide

/-- A header of type zero is followed by no payload. -/
private theorem segments_of_zeros {memory : List Byte} (h : ∀ i, 8 ≤ i → i < 12 → memory[i]? = some 0) :
    (RmgMessageHdr.ofBytes memory).segments = [] := by
  have hslice : (memory.drop 8).take 4 = List.replicate 4 0 := by
    apply List.ext_getElem?
    intro i
    rw [List.getElem?_replicate]
    split
    · rename_i hi
      rw [List.getElem?_take_of_lt hi, List.getElem?_drop]
      exact h (8 + i) (by omega) (by omega)
    · rename_i hi
      exact List.getElem?_take_eq_none (by omega)
  have hkind : (RmgMessageHdr.ofBytes memory).kind = .unknown := by
    show RmgMessageType.ofCode (BitVec.ofNat 32 (ofLittleEndian ((memory.drop 8).take 4))).toNat = _
    rw [hslice]
    rfl
  unfold RmgMessageHdr.segments
  rw [hkind]
  rfl

private theorem head_bytes {msg : RmgMessage} (h : msg.Sendable) : msg.sized.hdr.bytes[0]? = some 0xDE := by
  unfold RmgMessageHdr.bytes
  rw [h.hsh]
  rfl

/-- What starts with a residue is not read as messages that were written. -/
theorem not_receives_residue {ms : List RmgMessage} {pieces : List (List Byte)} {l : List Byte}
    (hms : ∀ m ∈ ms, m.Sendable)
    (hl : Residue l) (hp : ∀ p ∈ pieces, p ≠ []) (hflat : pieces.flatten = l ++ written ms) (accepted : List Byte) :
    ¬ Receives ⟨pieces, accepted⟩ (ms.map fun m => m.sized.content) := by
  have hpos := List.length_pos_iff.2 hl.ne_nil
  have hne : pieces.flatten ≠ [] := by
    rw [hflat]
    exact List.append_ne_nil_of_left_ne_nil hl.ne_nil _
  have hgot := readv_fst_ne_nil (n := 20) (by decide) hp hne
  have hgotpos := List.length_pos_iff.2 hgot
  have happend := (flatten_readv 20 pieces).trans hflat
  have hat : ∀ i, i < (readv 20 pieces).1.length → i < l.length → (readv 20 pieces).1[i]? = l[i]? := by
    intro i h₁ h₂
    have h := congrArg (fun x => x[i]?) happend
    rwa [List.getElem?_append_left h₁, List.getElem?_append_left h₂] at h
  intro h
  cases ms with
  | nil =>
    have hseg : (RmgMessageHdr.ofBytes (overlay blank.hdr.bytes (readv 20 pieces).1)).segments = [] := by
      refine segments_of_zeros fun i h₁ h₂ => ?_
      by_cases hi : i < (readv 20 pieces).1.length
      · have hlen : (readv 20 pieces).1.length ≤ l.length := by
          have := congrArg List.length happend
          rw [List.length_append, List.length_append, show written [] = [] from rfl, List.length_nil] at this
          omega
        rw [getElem?_overlay_of_lt hi, hat i hi (by omega)]
        exact hl.zeros i h₁ (by omega)
      · rw [getElem?_overlay_of_le (by omega)]
        exact blank_zeros i (by omega) (by omega)
    cases h with
    | stop hrun =>
      rw [run_rmgMessageRead] at hrun
      dsimp only at hrun
      rw [if_neg hgot, if_pos hseg] at hrun
      cases hrun
  | cons m ms =>
    rw [List.map_cons] at h
    generalize hcontent : m.sized.content = content at h
    cases h with
    | next hrun hrest =>
      obtain ⟨-, hbytes, -⟩ := read_inv hrun
      have hhdr : m.sized.hdr.bytes = overlay blank.hdr.bytes (readv 20 pieces).1 := by
        rw [show m.sized.hdr = _ from congrArg Prod.fst hcontent]
        exact hbytes
      have h0 : m.sized.hdr.bytes[0]? = (overlay blank.hdr.bytes (readv 20 pieces).1)[0]? := by rw [hhdr]
      rw [head_bytes (hms m List.mem_cons_self), getElem?_overlay_of_lt hgotpos, hat 0 hgotpos hpos] at h0
      exact hl.head h0.symm

/-- When a part of a message is not read and the message seems to have been read whole, the bytes that are left out are
those that stood in the memory. -/
private theorem getElem?_of_overlay {memory got field : List Byte} (h : overlay memory got = field) {i : Nat}
    (hi : got.length ≤ i) : field[i]? = memory[i]? := by
  rw [← h, getElem?_overlay_of_le hi]

/-- The payload is a number, or has no zeros. -/
private theorem payload_number_or_names {msg : RmgMessage} (h : msg.Sendable) :
    msg.sized.payload.length = 8 ∨ 0 ∉ msg.sized.payload := by
  rw [h.payload]
  by_cases hnames : ∀ a ∈ msg.hdr.kind.arguments, a.isName
  · refine .inr fun h0 => ?_
    obtain ⟨bs, hbs, h0⟩ := List.mem_flatten.1 h0
    obtain ⟨a, ha, rfl⟩ := List.mem_map.1 hbs
    exact (h.names a ha (hnames a ha)).2.2 h0
  · refine .inl ?_
    cases hk : msg.hdr.kind <;> rw [hk] at hnames <;> simp [RmgMessageType.arguments, Argument.isName] at hnames
    · simpa [RmgMessageType.arguments, Argument.bytes] using h.actionResponse
    · simpa [RmgMessageType.arguments, Argument.bytes] using h.instanceStatus

/-- The size of the first argument is not zero. -/
private theorem size_byte {msg : RmgMessage} (h : msg.Sendable) (hs : msg.sized.hdr.segments ≠ []) :
    msg.sized.hdr.bytes[12]? ≠ some 0 := by
  have hseg := h.segments
  have hsize : 0 < msg.sized.hdr.sizeOfArg1.toNat ∧ msg.sized.hdr.sizeOfArg1.toNat ≤ 128 := by
    have hargs : ∃ a l, msg.hdr.kind.arguments = a :: l := by
      refine List.exists_cons_of_ne_nil fun e => hs ?_
      rw [hseg, e, List.map_nil]
    obtain ⟨a, l, hargs⟩ := hargs
    have ha := h.size (a := a) (by rw [hargs]; simp)
    unfold RmgMessageHdr.segments at hseg
    rw [(RmgMessage.sized_hdr msg).1, hargs, List.zip_cons_cons, List.map_cons] at hseg
    have hlen := congrArg Prod.snd (List.cons.inj hseg).1
    dsimp only at hlen
    rw [hlen]
    exact ⟨ha.2.1, ha.2.2.1⟩
  have hbyte : msg.sized.hdr.bytes[12]? = some (BitVec.ofNat 8 msg.sized.hdr.sizeOfArg1.toNat) := rfl
  rw [hbyte]
  intro e
  have he := congrArg BitVec.toNat (Option.some.inj e)
  rw [BitVec.toNat_ofNat] at he
  have he : msg.sized.hdr.sizeOfArg1.toNat % 2 ^ 8 = 0 := he
  omega

private theorem residue_of_zeros {l : List Byte} (hne : l ≠ []) (hlen : l.length < 20)
    (h : ∀ i, i < l.length → l[i]? = some 0) : Residue l := by
  refine ⟨hne, hlen, ?_, fun i _ hi => h i hi⟩
  rw [h 0 (List.length_pos_iff.2 hne)]
  decide

/-- The part of a header that is not read when the header seems whole. -/
private theorem residue_of_header {header got : List Byte} (hover : header = overlay blank.hdr.bytes got)
    (hH : header.length = 20) (hpos : 0 < got.length) (hlt : got.length < 20) : Residue (header.drop got.length) := by
  have hunread : ∀ i, got.length ≤ i → header[i]? = blank.hdr.bytes[i]? := fun i hi => getElem?_of_overlay hover.symm hi
  refine ⟨?_, ?_, ?_, fun i h₁ h₂ => ?_⟩
  · exact List.ne_nil_of_length_pos (by rw [List.length_drop]; omega)
  · rw [List.length_drop]
    omega
  · rw [List.getElem?_drop, hunread _ (by omega)]
    exact blank_head _ (by omega) (by omega)
  · rw [List.length_drop] at h₂
    rw [List.getElem?_drop, hunread _ (by omega)]
    exact blank_zeros _ (by omega) (by omega)

/-- Where a payload follows, the size of its first argument has been read, so only zeros are left of the header. -/
private theorem unread_header_zeros {msg : RmgMessage} {got : List Byte} (h : msg.Sendable)
    (hs : msg.sized.hdr.segments ≠ []) (hover : msg.sized.hdr.bytes = overlay blank.hdr.bytes got) :
    12 < got.length ∧ ∀ i, i < 20 - got.length → (msg.sized.hdr.bytes.drop got.length)[i]? = some 0 := by
  have hunread : ∀ i, got.length ≤ i → msg.sized.hdr.bytes[i]? = blank.hdr.bytes[i]? :=
    fun i hi => getElem?_of_overlay hover.symm hi
  have h12 : 12 < got.length := by
    by_contra hlt
    exact size_byte h hs ((hunread 12 (by omega)).trans (blank_zeros 12 (by omega) (by omega)))
  refine ⟨h12, fun i hi => ?_⟩
  rw [List.getElem?_drop, hunread _ (by omega)]
  exact blank_zeros _ (by omega) (by omega)

/-- The payload of a message that seems whole is what was read, over the zeros of the new arguments. -/
private theorem overlay_payload {m d : RmgMessage} {got : List Byte} (hm : m.Sendable)
    (hle : got.length ≤ m.sized.payload.length)
    (hfill : d = ({ blank with hdr := m.sized.hdr } : RmgMessage).filled m.sized.hdr.segments got)
    (hd : d.content = m.sized.content) : overlay (List.replicate m.sized.payload.length 0) got = m.sized.payload := by
  rw [hfill, @content_filled { blank with hdr := m.sized.hdr } _ hm.buffer] at hd
  have hargs : slices (m.sized.hdr.segments.map Prod.snd) _ =
      m.sized.hdr.kind.arguments.map (·.bytes m.sized.data) :=
    congrArg Prod.snd hd
  rw [(RmgMessage.sized_hdr m).1, (RmgMessage.sized_hdr m).2, hm.sum_segments] at hargs
  have hflat := congrArg List.flatten hargs
  have hlen : (overlay (List.replicate m.sized.payload.length 0) got).length = m.sized.payload.length := by
    rw [length_overlay, List.length_replicate]
    rw [List.length_replicate]
    exact hle
  rwa [← hm.payload, flatten_slices] at hflat
  rw [hlen, hm.sum_segments]

/-- A list that stands behind zeros and is read from them is zero itself. -/
private theorem zeros_of_behind {z payload got : List Byte}
    (hover : overlay (List.replicate payload.length 0) got = payload) (hgot : got = (z ++ payload).take got.length)
    (hz : ∀ i, i < z.length → z[i]? = some 0) (hpos : 0 < z.length) :
    ∀ i, i < payload.length → payload[i]? = some 0 := by
  intro i
  induction i using Nat.strongRecOn with
  | ind i ih =>
    intro hi
    by_cases hlt : i < got.length
    · have hread : got[i]? = (z ++ payload)[i]? := by
        have h := congrArg (fun l : List Byte => l[i]?) hgot
        rwa [List.getElem?_take_of_lt hlt] at h
      have hi' : payload[i]? = (z ++ payload)[i]? := by
        rw [← hover, getElem?_overlay_of_lt hlt, hover, hread]
      rw [hi']
      by_cases hlt' : i < z.length
      · rw [List.getElem?_append_left hlt']
        exact hz i hlt'
      · rw [List.getElem?_append_right (by omega)]
        exact ih _ (by omega) (by omega)
    · rw [getElem?_of_overlay hover (by omega), List.getElem?_replicate_of_lt hi]

private theorem residue_of_drop {l : List Byte} {n : Nat} (hlt : n < l.length) (hlen : l.length - n < 20)
    (h : ∀ i, n ≤ i → i < l.length → l[i]? = some 0) : Residue (l.drop n) := by
  have hdrop : (l.drop n).length = l.length - n := List.length_drop
  refine residue_of_zeros (List.ne_nil_of_length_pos (by omega)) (by omega) fun i hi => ?_
  rw [List.getElem?_drop]
  exact h _ (by omega) (by omega)

/-- A message that seems to have been read whole either has been, or leaves a residue. -/
theorem read_whole_or_residue {m d : RmgMessage} {c c' : Link} {rest : List Byte} (hm : m.Sendable)
    (hp : ∀ p ∈ c.incoming, p ≠ []) (hflat : c.incoming.flatten = m.bytes ++ rest)
    (hrun : Fallible.run Link.machine none rmgMessageRead c = (some (some d), c')) (hd : d.content = m.sized.content) :
    (∀ p ∈ c'.incoming, p ≠ []) ∧
      ((c'.incoming.flatten = rest ∧ ∀ fs, CutAt fs c'.incoming → CutAt (m.fields ++ fs) c.incoming) ∨
        ∃ l, Residue l ∧ c'.incoming.flatten = l ++ rest) := by
  have hhdr : d.hdr = m.sized.hdr := congrArg Prod.fst hd
  obtain ⟨hgot, hbytes, hcase⟩ := read_inv hrun
  rw [hhdr] at hbytes hcase
  have hH : m.sized.hdr.bytes.length = 20 := RmgMessageHdr.length_bytes _
  have hle := length_readv_le 20 c.incoming
  have hsplit : c.incoming.flatten = m.sized.hdr.bytes ++ (m.sized.payload ++ rest) := by
    rw [hflat, RmgMessage.bytes, List.append_assoc]
  obtain ⟨hfst, hsnd⟩ := readv_of_flatten (n := 20) hsplit (by omega)
  have hH' : readv m.sized.hdr.bytes.length c.incoming = readv 20 c.incoming := by rw [hH]
  have hgotpos := List.length_pos_iff.2 hgot
  have hp₁ := ne_nil_readv (n := 20) hp
  rcases hcase with ⟨hs, hc'⟩ | ⟨hs, hgot', hfill, hc'⟩
  · -- no payload: the header is whole, or its unread part is left
    have hpayload : m.sized.payload = [] := by rw [RmgMessage.payload, hs, List.flatMap_nil]
    have hfields : m.fields = [m.sized.hdr.bytes] := if_pos hs
    rw [hc', hfields]
    rw [hpayload, List.nil_append] at hsnd
    refine ⟨hp₁, ?_⟩
    by_cases hg : (readv 20 c.incoming).1.length = 20
    · rw [hg, ← hH, List.take_length] at hfst
      rw [hg, ← hH, List.drop_length, List.nil_append] at hsnd
      refine .inl ⟨by rw [← hH']; exact hsnd, fun fs hfs => cutAt_of_readv hfst ?_⟩
      rw [hH']
      exact hfs
    · exact .inr ⟨_, residue_of_header hbytes hH hgotpos (by omega), hsnd⟩
  · rw [hm.sum_segments] at hgot' hfill hc'
    have hfields : m.fields = [m.sized.hdr.bytes, m.sized.payload] := if_neg hs
    have hle' := length_readv_le m.sized.payload.length (readv 20 c.incoming).2
    have hgotpos' := List.length_pos_iff.2 hgot'
    have hover := overlay_payload hm hle' hfill hd
    -- a zero in the payload shows that it is a number
    have hnumber : ∀ i : Nat, m.sized.payload[i]? = some 0 → m.sized.payload.length = 8 := fun i hi =>
      (payload_number_or_names hm).resolve_right fun h0 => h0 (List.mem_of_getElem? hi)
    rw [hc', hfields]
    refine ⟨ne_nil_readv hp₁, ?_⟩
    by_cases hg : (readv 20 c.incoming).1.length = 20
    · rw [hg, ← hH, List.take_length] at hfst
      rw [hg, ← hH, List.drop_length, List.nil_append] at hsnd
      obtain ⟨hfst', hsnd'⟩ := readv_of_flatten hsnd (Nat.le_refl _)
      rw [hH] at hfst' hsnd'
      by_cases hg' : (readv m.sized.payload.length (readv 20 c.incoming).2).1.length = m.sized.payload.length
      · rw [hg', List.take_length] at hfst'
        rw [hg', List.drop_length, List.nil_append] at hsnd'
        refine .inl ⟨hsnd', fun fs hfs => cutAt_of_readv hfst ?_⟩
        rw [hH']
        exact cutAt_of_readv hfst' hfs
      · have hzero : ∀ i, (readv m.sized.payload.length (readv 20 c.incoming).2).1.length ≤ i →
            i < m.sized.payload.length → m.sized.payload[i]? = some 0 := by
          intro i h₁ h₂
          rw [getElem?_of_overlay hover h₁, List.getElem?_replicate_of_lt h₂]
        have hlen := hnumber _ (hzero _ (Nat.le_refl _) (by omega))
        exact .inr ⟨_, residue_of_drop (by omega) (by omega) hzero, hsnd'⟩
    · -- the payload is read from behind the unread part of the header, so it is zero itself
      obtain ⟨h12, hrest⟩ := unread_header_zeros hm hs hbytes
      have hlenrest : (m.sized.hdr.bytes.drop (readv 20 c.incoming).1.length).length =
          20 - (readv 20 c.incoming).1.length := by
        rw [List.length_drop, hH]
      generalize m.sized.hdr.bytes.drop (readv 20 c.incoming).1.length = z at hsnd hrest hlenrest
      rw [← List.append_assoc] at hsnd
      have happend : (z ++ m.sized.payload).length = z.length + m.sized.payload.length := List.length_append
      obtain ⟨hfst', hsnd'⟩ := readv_of_flatten (n := m.sized.payload.length) hsnd (by omega)
      have hpayload := zeros_of_behind hover hfst' (fun i hi => hrest i (by omega)) (by omega)
      have hlen := hnumber 0 (hpayload 0 (by omega))
      refine .inr ⟨_, residue_of_drop (by omega) (by omega) fun i h₁ h₂ => ?_, hsnd'⟩
      by_cases hz : i < z.length
      · rw [List.getElem?_append_left hz]
        exact hrest _ (by omega)
      · rw [List.getElem?_append_right (by omega)]
        exact hpayload _ (by omega)

/-- A stream cut at the fields of a message gives the message. -/
theorem read_of_cutAt {m : RmgMessage} {c : Link} {fs : List (List Byte)} (hm : m.Sendable)
    (hp : ∀ p ∈ c.incoming, p ≠ []) (hflat : c.incoming.flatten = (m.fields ++ fs).flatten)
    (hcut : CutAt (m.fields ++ fs) c.incoming) :
    ∃ d c', Fallible.run Link.machine none rmgMessageRead c = (some (some d), c') ∧ d.content = m.sized.content ∧
      (∀ p ∈ c'.incoming, p ≠ []) ∧ c'.incoming.flatten = fs.flatten ∧ CutAt fs c'.incoming := by
  have hne : ∀ {ps : List (List Byte)} {f : List Byte} {fs : List (List Byte)}, ps.flatten = (f :: fs).flatten →
      f ≠ [] → ps ≠ [] := by
    rintro ps f fs h hf rfl
    rw [List.flatten_cons] at h
    exact hf (List.append_eq_nil_iff.1 h.symm).1
  have hrest : ∀ {n : Nat} {ps : List (List Byte)} {f : List Byte} {fs : List (List Byte)},
      ps.flatten = (f :: fs).flatten → (readv n ps).1 = f → (readv n ps).2.flatten = fs.flatten := by
    intro n ps f fs h hf
    have h' := flatten_readv n ps
    rw [h, hf, List.flatten_cons] at h'
    exact List.append_cancel_left h'
  have hH : m.sized.hdr.bytes.length = 20 := RmgMessageHdr.length_bytes _
  have hHne : m.sized.hdr.bytes ≠ [] := List.ne_nil_of_length_pos (by omega)
  have hmem : RmgMessageHdr.ofBytes (overlay blank.hdr.bytes m.sized.hdr.bytes) = m.sized.hdr := by
    rw [overlay_of_length_le (by rw [RmgMessageHdr.length_bytes, hH]), RmgMessageHdr.ofBytes_bytes]
  by_cases hs : m.sized.hdr.segments = []
  · have hfields : m.fields = [m.sized.hdr.bytes] := if_pos hs
    rw [hfields, List.singleton_append] at hflat hcut
    obtain ⟨h₁, hcut₁⟩ := hcut.readv hp hflat (hne hflat hHne)
    have hflat₁ := hrest hflat h₁
    rw [hH] at h₁ hcut₁ hflat₁
    have hrun := run_rmgMessageRead c
    dsimp only at hrun
    rw [h₁, hmem, if_neg hHne, if_pos hs] at hrun
    refine ⟨_, _, hrun, ?_, ne_nil_readv hp, hflat₁, hcut₁⟩
    have hargs : m.sized.hdr.kind.arguments = [] := by
      unfold RmgMessageHdr.segments at hs
      rcases arguments_cases m.sized.hdr.kind with h | ⟨a, h⟩ | ⟨a, b, h, -⟩
      · exact h
      · rw [h] at hs
        cases hs
      · rw [h] at hs
        cases hs
    unfold RmgMessage.content
    dsimp only
    rw [hargs, List.map_nil, List.map_nil]
  · have hfields : m.fields = [m.sized.hdr.bytes, m.sized.payload] := if_neg hs
    rw [hfields, List.cons_append, List.singleton_append] at hflat hcut
    obtain ⟨h₁, hcut₁⟩ := hcut.readv hp hflat (hne hflat hHne)
    have hflat₁ := hrest hflat h₁
    rw [hH] at h₁ hcut₁ hflat₁
    have hp₁ := ne_nil_readv (n := 20) hp
    have hPne := hm.payload_ne_nil hs
    obtain ⟨h₂, hcut₂⟩ := hcut₁.readv hp₁ hflat₁ (hne hflat₁ hPne)
    have hflat₂ := hrest hflat₁ h₂
    have hrun := run_rmgMessageRead c
    dsimp only at hrun
    rw [h₁, hmem, if_neg hHne, if_neg hs, hm.sum_segments, h₂, if_neg hPne] at hrun
    refine ⟨_, _, hrun, ?_, ne_nil_readv hp₁, hflat₂, hcut₂⟩
    refine (@content_filled { blank with hdr := m.sized.hdr } _ hm.buffer).trans ?_
    unfold RmgMessage.content
    rw [hm.sum_segments, overlay_of_length_le (by rw [List.length_replicate]), hm.payload, hm.segments, List.map_map,
      (RmgMessage.sized_hdr m).1, (RmgMessage.sized_hdr m).2]
    congr 1
    have hslices := slices_flatten (m.hdr.kind.arguments.map (·.bytes m.data))
    rw [List.map_map] at hslices
    exact hslices

/-! ### Sequences of messages -/

/-- Reading ends, and what is delivered is determined. -/
theorem receives_unique (c : Link) (hp : ∀ p ∈ c.incoming, p ≠ []) :
    ∃ l, Receives c l ∧ ∀ l', Receives c l' → l' = l := by
  induction hn : c.incoming.flatten.length using Nat.strongRecOn generalizing c with
  | ind n ih =>
    rcases hrun : Fallible.run Link.machine none rmgMessageRead c with ⟨_ | _ | d, c'⟩
    · rw [run_rmgMessageRead] at hrun
      dsimp only at hrun
      split at hrun
      · cases hrun
      split at hrun
      · cases hrun
      split at hrun <;> cases hrun
    · refine ⟨[], .stop hrun, fun l' h => ?_⟩
      cases h with
      | stop => rfl
      | next hrun' _ =>
        rw [hrun] at hrun'
        cases hrun'
    · obtain ⟨hgot, -, hcase⟩ := read_inv hrun
      have hpos := List.length_pos_iff.2 hgot
      have h₁ := congrArg List.length (flatten_readv 20 c.incoming)
      rw [List.length_append] at h₁
      have hc' : (∀ p ∈ c'.incoming, p ≠ []) ∧ c'.incoming.flatten.length < n := by
        rcases hcase with ⟨-, hc'⟩ | ⟨-, -, -, hc'⟩
        · rw [hc']
          exact ⟨ne_nil_readv hp, by omega⟩
        · have h₂ := congrArg List.length
            (flatten_readv (d.hdr.segments.map Prod.snd).sum (readv 20 c.incoming).2)
          rw [List.length_append] at h₂
          rw [hc']
          exact ⟨ne_nil_readv (ne_nil_readv hp), by omega⟩
      obtain ⟨l, hl, huniq⟩ := ih _ hc'.2 c' hc'.1 rfl
      refine ⟨d.content :: l, .next hrun hl, fun l' h => ?_⟩
      cases h with
      | stop hrun' =>
        rw [hrun] at hrun'
        cases hrun'
      | next hrun' hl' =>
        rw [hrun] at hrun'
        obtain ⟨hd, rfl⟩ := Prod.mk.inj hrun'
        obtain rfl := Option.some.inj (Option.some.inj hd)
        rw [huniq _ hl']

private theorem eq_nil_of_flatten {pieces : List (List Byte)} (hp : ∀ p ∈ pieces, p ≠ [])
    (hflat : pieces.flatten = []) : pieces = [] :=
  List.eq_nil_iff_forall_not_mem.2 fun p hmem => hp p hmem (List.flatten_eq_nil_iff.1 hflat p hmem)

/-- Messages arrive as they were written exactly if no piece of the stream ends inside a header or a payload. -/
theorem received_iff_cut {ms : List RmgMessage} {pieces : List (List Byte)} (hms : ∀ m ∈ ms, m.Sendable)
    (hp : ∀ p ∈ pieces, p ≠ []) (hflat : pieces.flatten = written ms) :
    Receives ⟨pieces, []⟩ (ms.map fun m => m.sized.content) ↔ CutAt (ms.flatMap RmgMessage.fields) pieces := by
  rw [written_eq hms] at hflat
  have hwritten : ∀ {ms : List RmgMessage}, (∀ m ∈ ms, m.Sendable) →
      written ms = (ms.flatMap RmgMessage.fields).flatten :=
    fun h => written_eq h
  generalize ([] : List Byte) = accepted
  constructor
  · intro h
    induction ms generalizing pieces accepted with
    | nil =>
      obtain rfl := eq_nil_of_flatten hp hflat
      exact cutAt_nil _
    | cons m ms ih =>
      have hms' : ∀ m ∈ ms, m.Sendable := fun m hm => hms m (List.mem_cons_of_mem _ hm)
      rw [List.flatMap_cons, List.flatten_append, flatten_fields] at hflat
      rw [List.map_cons] at h
      generalize hcontent : m.sized.content = content at h
      cases h with
      | @next _ c' d _ hrun hrest =>
        obtain ⟨hp', hwhole | ⟨l, hl, hflat'⟩⟩ :=
          read_whole_or_residue (hms m List.mem_cons_self) hp hflat hrun hcontent.symm
        · exact hwhole.2 _ (ih hms' hp' hwhole.1 c'.accepted hrest)
        · rw [← hwritten hms'] at hflat'
          exact absurd hrest (not_receives_residue hms' hl hp' hflat' c'.accepted)
  · intro h
    induction ms generalizing pieces accepted with
    | nil =>
      obtain rfl := eq_nil_of_flatten hp hflat
      have hrun := run_rmgMessageRead ⟨[], accepted⟩
      exact .stop hrun
    | cons m ms ih =>
      rw [List.flatMap_cons] at hflat h
      obtain ⟨d, c', hrun, hd, hp', hflat', hcut⟩ :=
        read_of_cutAt (c := ⟨pieces, accepted⟩) (hms m List.mem_cons_self) hp hflat h
      rw [List.map_cons, ← hd]
      exact .next hrun (ih (fun m hm => hms m (List.mem_cons_of_mem _ hm)) hp' hflat' c'.accepted hcut)

/-- A request for a service from the context `h`. -/
def request (type : RmgMessageType) (service : Byte) : RmgMessage :=
  { rmgMessageNew type 0 with data := { blank.data with serviceName := some [service], contextName := some [0x68] } }

def requestForA : RmgMessage := request .requestContextRestart 0x61

def requestForB : RmgMessage := request .requestFactoryReset 0x62

private theorem sendable_request {type : RmgMessageType} {service : Byte}
    (hargs : (request type service).hdr.kind.arguments = [.serviceName, .contextName]) (hs : service ≠ 0) :
    (request type service).Sendable := by
  refine ⟨⟨type, 0, rfl⟩, rfl, rfl, fun a ha _ => ?_⟩
  rw [hargs] at ha
  rcases List.mem_pair.1 ha with rfl | rfl
  · exact ⟨List.cons_ne_nil service [], show 1 ≤ maxNameLen by decide, fun h => hs (List.mem_singleton.1 h).symm⟩
  · exact ⟨List.cons_ne_nil 0x68 [], show 1 ≤ maxNameLen by decide, show (0 : Byte) ∉ [0x68] by decide⟩

private theorem sendable_requestForA : requestForA.Sendable := sendable_request rfl (by decide)

private theorem sendable_requestForB : requestForB.Sendable := sendable_request rfl (by decide)

/-- Two requests, cut between header and payload. -/
def twoRequests : List (List Byte) :=
  [requestForA.sized.hdr.bytes, requestForA.sized.payload ++ requestForB.sized.hdr.bytes, requestForB.sized.payload]

theorem received_iff_cut_of_two_requests :
    Receives ⟨twoRequests, []⟩ [requestForA.sized.content, requestForB.sized.content] := by
  have hcut : ∀ pre ∈ twoRequests.inits, ∃ fs' ∈ ([requestForA, requestForB].flatMap RmgMessage.fields).inits,
      pre.flatten = fs'.flatten := by decide
  have hsendable : ∀ m ∈ [requestForA, requestForB], m.Sendable := by
    intro m hm
    rcases List.mem_pair.1 hm with rfl | rfl
    · exact sendable_requestForA
    · exact sendable_requestForB
  refine (received_iff_cut hsendable (by decide) (by decide)).2 fun pre hpre => ?_
  obtain ⟨fs', hfs, he⟩ := hcut pre ((List.mem_inits _ _).2 hpre)
  exact ⟨fs', (List.mem_inits _ _).1 hfs, he⟩

/-- The payload of a request arrives in two pieces. -/
theorem request_torn_apart : ¬ ∀ (ms : List RmgMessage) (pieces : List (List Byte)), (∀ m ∈ ms, m.Sendable) →
    (∀ p ∈ pieces, p ≠ []) → pieces.flatten = written ms →
      Receives ⟨pieces, []⟩ (ms.map fun m => m.sized.content) := by
  intro h
  have hr := h [requestForA] [(written [requestForA]).take 21, (written [requestForA]).drop 21]
    (fun m hm => List.mem_singleton.1 hm ▸ sendable_requestForA) (by decide) (by decide)
  rw [List.map_singleton] at hr
  generalize hcontent : requestForA.sized.content = content at hr
  cases hr with
  | next hrun hrest =>
    have hread : (Fallible.run Link.machine none rmgMessageRead
        ⟨[(written [requestForA]).take 21, (written [requestForA]).drop 21], []⟩).1.map
          (Option.map RmgMessage.content) ≠
          some (some requestForA.sized.content) := by
      decide
    apply hread
    rw [hrun, hcontent]
    rfl

end Wire

end RecoveryManager
