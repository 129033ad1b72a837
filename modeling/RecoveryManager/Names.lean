import RecoveryManager.Framing

/-!
# Names across a connection

`rmg_message_write` sends the characters of a name without the terminator, and no more than 129 of them, and
`rmg_message_read` reads them into memory of exactly that size.  What a message carries is kept
(`hdr_of_read`, `bytes_of_read`), but no name that was read ends inside its memory (`names_not_undone`).
-/

namespace RecoveryManager

namespace Wire

open Fallible Fallible.Prog ByteStream

/-- `g_strdup`: the name and its terminator. -/
def gStrdup (name : List Byte) : List Byte := name ++ [0]

def RmgMessage.setName (msg : RmgMessage) (a : Argument) (name : List Byte) : RmgMessage :=
  { msg with data := a.set msg.data (gStrdup name) }

def rmgMessageSetProcessName (msg : RmgMessage) (name : List Byte) : RmgMessage := msg.setName .processName name

def rmgMessageSetServiceName (msg : RmgMessage) (name : List Byte) : RmgMessage := msg.setName .serviceName name

def rmgMessageSetContextName (msg : RmgMessage) (name : List Byte) : RmgMessage := msg.setName .contextName name

/-- The type has names for arguments. -/
def CarriesNames (type : RmgMessageType) : Prop := type.arguments ≠ [] ∧ ∀ a ∈ type.arguments, a.isName

/-- A new message whose names have been set. -/
def named (type : RmgMessageType) (session : BitVec 16) (names : Argument → List Byte) : RmgMessage :=
  type.arguments.foldl (fun msg a => msg.setName a (names a)) (rmgMessageNew type session)

/-- Memory read as a C string; `none` if there is no terminator in it. -/
def cString (memory : List Byte) : Option (List Byte) :=
  if 0 ∈ memory then some (memory.takeWhile (· ≠ 0)) else none

/-- The message `d` that was read is the one that was written, with the names that were set. -/
structure Undone (names : Argument → List Byte) (msg d : RmgMessage) : Prop where
  type : d.hdr.type = msg.hdr.type
  session : d.hdr.session = msg.hdr.session
  version : d.hdr.version = msg.hdr.version
  hsh : d.hdr.hsh = msg.hdr.hsh
  names : ∀ a ∈ msg.hdr.kind.arguments, cString (a.bytes d.data) = some (names a)

variable {type : RmgMessageType} {session : BitVec 16} {names : Argument → List Byte}

/-! ### What is written -/

private theorem kind_new (type : RmgMessageType) (session : BitVec 16) :
    (rmgMessageNew type session).hdr.kind = type := by
  cases type <;> rfl

theorem named_hdr : (named type session names).hdr = (rmgMessageNew type session).hdr := by
  have hfold : ∀ (as : List Argument) (msg : RmgMessage),
      (as.foldl (fun msg a => msg.setName a (names a)) msg).hdr = msg.hdr := by
    intro as
    induction as with
    | nil => exact fun _ => rfl
    | cons a as ih => exact fun msg => ih (msg.setName a (names a))
  exact hfold _ _

private theorem named_kind : (named type session names).hdr.kind = type := by
  rw [named_hdr, kind_new]

theorem bytes_named {a : Argument} (ha : a ∈ type.arguments) :
    a.bytes (named type session names).data = gStrdup (names a) := by
  unfold named
  rcases arguments_cases type with hargs | ⟨b, hargs⟩ | ⟨b, c, hargs, hbc⟩
  · rw [hargs] at ha
    cases ha
  · rw [hargs] at ha ⊢
    obtain rfl := List.mem_singleton.1 ha
    exact Argument.bytes_set _ _ _
  · rw [hargs] at ha ⊢
    rcases List.mem_pair.1 ha with rfl | rfl
    · exact (Argument.bytes_set_of_ne hbc _ _).trans (Argument.bytes_set _ _ _)
    · exact Argument.bytes_set _ _ _

/-- The size of a name does not count its terminator, and stops at 129. -/
private theorem strnlen_gStrdup {name : List Byte} (h : 0 ∉ name) : strnlen (gStrdup name) (maxNameLen + 1) =
    min name.length 129 := by
  have hwhile : (name ++ [0]).takeWhile (· ≠ 0) = name := by
    have hname : name.takeWhile (· ≠ 0) = name := by
      refine List.takeWhile_eq_self_iff.2 fun b hb => ?_
      have hb0 : b ≠ 0 := fun e => h (e ▸ hb)
      simpa using hb0
    rw [List.takeWhile_append, hname, if_pos rfl]
    simp
  rw [strnlen, gStrdup, hwhile]
  rfl

theorem size_named (hnames : ∀ a ∈ type.arguments, 0 ∉ names a) {a : Argument} (ha : a ∈ type.arguments)
    (hn : a.isName) : (a.size (named type session names).data).toNat = min (names a).length 129 := by
  have hsize : a.size (named type session names).data =
      BitVec.ofNat 16 (strnlen (a.bytes (named type session names).data) (maxNameLen + 1)) := by
    cases a <;> first | rfl | cases hn
  rw [hsize, bytes_named ha, strnlen_gStrdup (hnames a ha), BitVec.toNat_ofNat]
  omega

/-- The header that goes out: that of the new message, with the sizes of its arguments. -/
theorem sized_named_hdr : (named type session names).sized.hdr =
    { (rmgMessageNew type session).hdr with
      sizeOfArg1 := (type.arguments[0]?.map (·.size (named type session names).data)).getD 0
      sizeOfArg2 := (type.arguments[1]?.map (·.size (named type session names).data)).getD 0 } := by
  unfold RmgMessage.sized
  rw [named_kind]
  rcases arguments_cases type with hargs | ⟨a, hargs⟩ | ⟨a, b, hargs, -⟩
  · rw [hargs]
    exact named_hdr
  · rw [hargs]
    dsimp only
    rw [named_hdr]
    rfl
  · rw [hargs]
    dsimp only
    rw [named_hdr]
    rfl

theorem segments_named (hcarries : CarriesNames type) (hnames : ∀ a ∈ type.arguments, 0 ∉ names a) :
    (named type session names).sized.hdr.segments =
      type.arguments.map fun a => (a, min (names a).length 129) := by
  have hkind : (named type session names).sized.hdr.kind = type := (RmgMessage.sized_hdr _).1.trans named_kind
  have hsize : ∀ a ∈ type.arguments, (a.size (named type session names).data).toNat = min (names a).length 129 :=
    fun a ha => size_named hnames ha (hcarries.2 a ha)
  unfold RmgMessageHdr.segments
  rw [hkind, sized_named_hdr]
  rcases arguments_cases type with hargs | ⟨a, hargs⟩ | ⟨a, b, hargs, -⟩
  · exact absurd hargs hcarries.1
  · rw [hargs] at hsize ⊢
    have ha := hsize a (by simp)
    show [(a, (a.size _).toNat)] = [(a, _)]
    rw [ha]
  · rw [hargs] at hsize ⊢
    have ha := hsize a (by simp)
    have hb := hsize b (by simp)
    show [(a, (a.size _).toNat), (b, (b.size _).toNat)] = [(a, _), (b, _)]
    rw [ha, hb]

/-- The payload is made of the first 129 characters of each name. -/
theorem payload_named (hcarries : CarriesNames type) (hnames : ∀ a ∈ type.arguments, 0 ∉ names a) :
    (named type session names).sized.payload = (type.arguments.map fun a => (names a).take 129).flatten := by
  unfold RmgMessage.payload
  rw [segments_named hcarries hnames, (RmgMessage.sized_hdr _).2, List.flatMap_map, List.flatMap_def]
  congr 1
  refine List.map_congr_left fun a ha => ?_
  dsimp only
  rw [bytes_named ha, gStrdup, List.take_append_of_le_length (Nat.min_le_left _ _), List.take_eq_take_iff]
  omega

theorem sum_segments_named (hcarries : CarriesNames type) (hnames : ∀ a ∈ type.arguments, 0 ∉ names a) :
    ((named type session names).sized.hdr.segments.map Prod.snd).sum =
      (named type session names).sized.payload.length := by
  rw [segments_named hcarries hnames, payload_named hcarries hnames, List.length_flatten, List.map_map, List.map_map]
  congr 1
  refine List.map_congr_left fun a _ => ?_
  show min _ 129 = ((names a).take 129).length
  rw [List.length_take, Nat.min_comm]

/-! ### What is read -/

private theorem replicate_zero_le (bs : List Byte) :
    List.Forall₂ (·.toNat ≤ ·.toNat) (List.replicate bs.length (0 : Byte)) bs := by
  induction bs with
  | nil => exact .nil
  | cons b bs ih => exact .cons (Nat.zero_le _) ih

private theorem bytes_le_refl (bs : List Byte) : List.Forall₂ (·.toNat ≤ ·.toNat) bs bs :=
  List.forall₂_same.2 fun b _ => Nat.le_refl b.toNat

/-- No byte that stands in the memory before the header is read is larger than the one that is sent. -/
private theorem blank_le {hdr : RmgMessageHdr} (hhsh : hdr.hsh = startHash) (hversion : hdr.version = protocolVersion) :
    List.Forall₂ (·.toNat ≤ ·.toNat) blank.hdr.bytes hdr.bytes := by
  have hzero : ∀ n x, List.Forall₂ (·.toNat ≤ ·.toNat) (littleEndian n 0) (littleEndian n x) := by
    intro n x
    have h := replicate_zero_le (littleEndian n x)
    rwa [length_littleEndian, ← littleEndian_zero] at h
  unfold RmgMessageHdr.bytes
  rw [hhsh, hversion]
  refine List.rel_append (List.rel_append (List.rel_append (List.rel_append (List.rel_append (List.rel_append
    (List.rel_append ?_ ?_) ?_) ?_) ?_) ?_) ?_) ?_
  · exact bytes_le_refl _
  · exact hzero 2 _
  · exact bytes_le_refl _
  · exact hzero 4 _
  · exact hzero 2 _
  · exact hzero 2 _
  · exact hzero 2 _
  · exact hzero 2 _

/-- A word of a header that was read in part is no larger than the one that was sent. -/
private theorem word_overlay_le {hdr : RmgMessageHdr} (hhsh : hdr.hsh = startHash)
    (hversion : hdr.version = protocolVersion) (k i n : Nat) :
    RmgMessageHdr.word (overlay blank.hdr.bytes (hdr.bytes.take k)) i n ≤ RmgMessageHdr.word hdr.bytes i n := by
  have hover : List.Forall₂ (·.toNat ≤ ·.toNat) (overlay blank.hdr.bytes (hdr.bytes.take k)) hdr.bytes := by
    conv => rhs; rw [← List.take_append_drop k hdr.bytes]
    rw [overlay, List.length_take]
    refine List.rel_append (bytes_le_refl _) ?_
    have hdrop : hdr.bytes.drop (min k hdr.bytes.length) = hdr.bytes.drop k := by
      rcases Nat.le_total k hdr.bytes.length with h | h
      · rw [Nat.min_eq_left h]
      · rw [Nat.min_eq_right h, List.drop_length, List.drop_eq_nil_of_le h]
    rw [← hdrop]
    exact List.forall₂_drop _ (blank_le hhsh hversion)
  exact ofLittleEndian_mono (List.forall₂_take n (List.forall₂_drop i hover))

private theorem toNat_word {hdr : RmgMessageHdr} :
    RmgMessageHdr.word hdr.bytes 12 2 = hdr.sizeOfArg1.toNat ∧
      RmgMessageHdr.word hdr.bytes 14 2 = hdr.sizeOfArg2.toNat := by
  have hlt : ∀ i, RmgMessageHdr.word hdr.bytes i 2 < 2 ^ 16 := by
    intro i
    refine Nat.lt_of_lt_of_le (ofLittleEndian_lt _) ?_
    rw [show 2 ^ 16 = 256 ^ 2 from rfl]
    exact Nat.pow_le_pow_right (by decide) (List.length_take_le 2 _)
  have hread := RmgMessageHdr.ofBytes_bytes hdr
  have h₁ := congrArg (fun h => h.sizeOfArg1.toNat) hread
  have h₂ := congrArg (fun h => h.sizeOfArg2.toNat) hread
  refine ⟨?_, ?_⟩
  · rw [← h₁]
    exact (Nat.mod_eq_of_lt (hlt 12)).symm
  · rw [← h₂]
    exact (Nat.mod_eq_of_lt (hlt 14)).symm

/-- Whatever the type that was read, no more is asked for than was sent. -/
private theorem sum_segments_le {hdr : RmgMessageHdr} :
    (hdr.segments.map Prod.snd).sum ≤ hdr.sizeOfArg1.toNat + hdr.sizeOfArg2.toNat := by
  unfold RmgMessageHdr.segments
  rcases arguments_cases hdr.kind with h | ⟨a, h⟩ | ⟨a, b, h, -⟩
  · rw [h]
    exact Nat.zero_le _
  · rw [h]
    show hdr.sizeOfArg1.toNat + 0 ≤ _
    omega
  · rw [h]
    show hdr.sizeOfArg1.toNat + (hdr.sizeOfArg2.toNat + 0) ≤ _
    omega

private theorem sum_sizes_named : (named type session names).sized.hdr.sizeOfArg1.toNat +
    (named type session names).sized.hdr.sizeOfArg2.toNat =
      ((named type session names).sized.hdr.segments.map Prod.snd).sum := by
  have hkind : (named type session names).sized.hdr.kind = type := (RmgMessage.sized_hdr _).1.trans named_kind
  unfold RmgMessageHdr.segments
  rw [hkind, sized_named_hdr]
  rcases arguments_cases type with hargs | ⟨a, hargs⟩ | ⟨a, b, hargs, -⟩ <;> rw [hargs] <;> rfl

section read
variable {pieces : List (List Byte)} {accepted : List Byte} {c' : Link} {d : RmgMessage}

/-- When one call obtains all bytes of a message, both of its reads got all they asked for. -/
theorem obtained_whole (hcarries : CarriesNames type) (hnames : ∀ a ∈ type.arguments, 0 ∉ names a)
    (hflat : pieces.flatten = (named type session names).bytes)
    (hread : Fallible.run Link.machine none rmgMessageRead ⟨pieces, accepted⟩ = (some (some d), c'))
    (hall : c'.incoming.flatten = []) :
    d = ({ blank with hdr := (named type session names).sized.hdr } : RmgMessage).filled
      (named type session names).sized.hdr.segments (named type session names).sized.payload := by
  have hsegments := @segments_named type session names hcarries hnames
  have hsum := @sum_segments_named type session names hcarries hnames
  have hsizes := @sum_sizes_named type session names
  have hconst : (named type session names).sized.hdr.hsh = startHash ∧
      (named type session names).sized.hdr.version = protocolVersion := by
    rw [sized_named_hdr]
    exact ⟨rfl, rfl⟩
  rw [RmgMessage.bytes] at hflat
  generalize (named type session names).sized.payload = payload at hsum hflat ⊢
  generalize (named type session names).sized.hdr = hdr at hsegments hsum hsizes hconst hflat ⊢
  obtain ⟨-, hbytes, hcase⟩ := read_inv hread
  have hlen : hdr.bytes.length = 20 := RmgMessageHdr.length_bytes hdr
  obtain ⟨htake, hrest⟩ := readv_of_flatten (n := 20) hflat (Nat.le_of_eq hlen.symm)
  have hle := length_readv_le 20 pieces
  -- what is left over by the first read would have to fit into the second
  have hwhole : (readv 20 pieces).1.length = 20 := by
    by_contra hshort
    have hover : (hdr.bytes.drop (readv 20 pieces).1.length ++ payload).length =
        20 - (readv 20 pieces).1.length + payload.length := by
      rw [List.length_append, List.length_drop, hlen]
    rcases hcase with ⟨-, hc'⟩ | ⟨-, -, -, hc'⟩
    · rw [hc', hrest] at hall
      rw [hall, List.length_nil] at hover
      omega
    · have hflat₂ := flatten_readv (d.hdr.segments.map Prod.snd).sum (readv 20 pieces).2
      rw [← hc', hall, List.append_nil, hrest] at hflat₂
      have hle₂ := length_readv_le (d.hdr.segments.map Prod.snd).sum (readv 20 pieces).2
      rw [hflat₂, hover] at hle₂
      have h₁ := word_overlay_le hconst.1 hconst.2 (readv 20 pieces).1.length 12 2
      have h₂ := word_overlay_le hconst.1 hconst.2 (readv 20 pieces).1.length 14 2
      rw [← htake, ← hbytes, toNat_word.1, toNat_word.1] at h₁
      rw [← htake, ← hbytes, toNat_word.2, toNat_word.2] at h₂
      have hd := @sum_segments_le d.hdr
      omega
  rw [hwhole, ← hlen, List.take_length] at htake
  rw [hwhole, ← hlen, List.drop_length, List.nil_append] at hrest
  have hd : d.hdr = hdr := by
    rw [hlen] at htake
    rw [htake, overlay_of_length_le (by rw [RmgMessageHdr.length_bytes, hlen])] at hbytes
    rw [← RmgMessageHdr.ofBytes_bytes d.hdr, hbytes, RmgMessageHdr.ofBytes_bytes]
  rcases hcase with ⟨hnone, -⟩ | ⟨-, -, hfilled, hc'⟩
  · rw [hd, hsegments, List.map_eq_nil_iff] at hnone
    exact absurd hnone hcarries.1
  · have hflat₂ := flatten_readv (d.hdr.segments.map Prod.snd).sum (readv 20 pieces).2
    rw [← hc', hall, List.append_nil] at hflat₂
    rw [hfilled, hflat₂, hd, show (readv 20 pieces).2.flatten = payload from hrest]

/-- The header is kept, and of each name the first 129 characters arrive, without a terminator. -/
theorem read_named (hcarries : CarriesNames type) (hnames : ∀ a ∈ type.arguments, 0 ∉ names a)
    (hflat : pieces.flatten = (named type session names).bytes)
    (hread : Fallible.run Link.machine none rmgMessageRead ⟨pieces, accepted⟩ = (some (some d), c'))
    (hall : c'.incoming.flatten = []) :
    d.hdr = (named type session names).sized.hdr ∧ ∀ a ∈ type.arguments, a.bytes d.data = (names a).take 129 := by
  have hd := obtained_whole hcarries hnames hflat hread hall
  have hsegments := @segments_named type session names hcarries hnames
  have hsum := @sum_segments_named type session names hcarries hnames
  have hpayload := @payload_named type session names hcarries hnames
  have hkind : (named type session names).sized.hdr.kind = type := (RmgMessage.sized_hdr _).1.trans named_kind
  have hbuffer : ∀ x ∈ (named type session names).sized.hdr.segments, x.1.buffer x.2 = List.replicate x.2 0 := by
    rw [hsegments]
    intro x hx
    obtain ⟨a, ha, rfl⟩ := List.mem_map.1 hx
    have hn := hcarries.2 a ha
    cases a <;> first | rfl | cases hn
  have hcontent := @content_filled { blank with hdr := (named type session names).sized.hdr }
    (named type session names).sized.payload hbuffer
  have hsizes : (named type session names).sized.hdr.segments.map Prod.snd =
      (type.arguments.map fun a => (names a).take 129).map List.length := by
    rw [hsegments, List.map_map, List.map_map]
    refine List.map_congr_left fun a _ => ?_
    show min _ 129 = ((names a).take 129).length
    rw [List.length_take, Nat.min_comm]
  rw [← hd, overlay_of_length_le (by rw [List.length_replicate, hsum]), hsizes, hpayload, slices_flatten] at hcontent
  have hhdr : d.hdr = (named type session names).sized.hdr := congrArg Prod.fst hcontent
  have hargs : d.hdr.kind.arguments.map (·.bytes d.data) = type.arguments.map fun a => (names a).take 129 :=
    congrArg Prod.snd hcontent
  rw [hhdr, hkind] at hargs
  exact ⟨hhdr, List.map_inj_left.1 hargs⟩

/-- No message with names is read back as it was written. -/
theorem names_not_undone {c₀ c₁ : Link} (hcarries : CarriesNames type)
    (hnames : ∀ a ∈ type.arguments, names a ≠ [] ∧ 0 ∉ names a)
    (hwrite : Fallible.run Link.machine none (rmgMessageWrite (named type session names)) c₀ = (some .ok, c₁))
    (hsent : c₁.accepted = c₀.accepted ++ pieces.flatten)
    (hread : Fallible.run Link.machine none rmgMessageRead ⟨pieces, accepted⟩ = (some (some d), c'))
    (hall : c'.incoming.flatten = []) : ¬ Undone names (named type session names) d := by
  have hnul : ∀ a ∈ type.arguments, 0 ∉ names a := fun a ha => (hnames a ha).2
  obtain ⟨a, ha⟩ : ∃ a, a ∈ type.arguments := List.exists_mem_of_ne_nil _ hcarries.1
  have hpayload : (named type session names).sized.payload ≠ [] := by
    rw [payload_named hcarries hnul]
    intro hnil
    have htake := List.flatten_eq_nil_iff.1 hnil _ (List.mem_map_of_mem ha)
    rcases List.take_eq_nil_iff.1 htake with h | h
    · cases h
    · exact (hnames a ha).1 h
  have hbytes : pieces.flatten = (named type session names).bytes := by
    rw [run_rmgMessageWrite fun _ => hpayload] at hwrite
    obtain ⟨-, rfl⟩ := Prod.mk.inj hwrite
    exact (List.append_cancel_left hsent).symm
  obtain ⟨-, hread⟩ := read_named hcarries hnul hbytes hread hall
  intro h
  have hname := h.names a (by rw [named_kind]; exact ha)
  have hopen : (0 : Byte) ∉ (names a).take 129 := fun h0 => hnul a ha (List.mem_of_mem_take h0)
  rw [hread a ha, cString, if_neg hopen] at hname
  cases hname

end read

/-- A replica that introduces itself as `h`. -/
def descriptorOfH : RmgMessage := named .replicaDescriptor 0 fun _ => [0x68]

/-- What is read of it. -/
def descriptorRead : RmgMessage := ⟨descriptorOfH.sized.hdr, { blank.data with contextName := some [0x68] }⟩

theorem names_not_undone_of_descriptor : ¬ Undone (fun _ => [0x68]) descriptorOfH descriptorRead :=
  @names_not_undone .replicaDescriptor 0 (fun _ => [0x68]) [descriptorOfH.bytes] [] ⟨[], []⟩ descriptorRead ⟨[], []⟩
    ⟨[], descriptorOfH.bytes⟩ ⟨by decide, by decide⟩ (by decide) rfl (List.append_nil _).symm (by decide +kernel) rfl

theorem descriptor_not_undone : ¬ ∀ (type : RmgMessageType) (session : BitVec 16) (names : Argument → List Byte)
    (c₀ c₁ c c' : Link) (d : RmgMessage), CarriesNames type → (∀ a ∈ type.arguments, names a ≠ [] ∧ 0 ∉ names a) →
      Fallible.run Link.machine none (rmgMessageWrite (named type session names)) c₀ = (some .ok, c₁) →
        c₁.accepted = c₀.accepted ++ c.incoming.flatten →
          Fallible.run Link.machine none rmgMessageRead c = (some (some d), c') → c'.incoming.flatten = [] →
            Undone names (named type session names) d := by
  intro h
  have hname := (h .replicaDescriptor 0 (fun _ => [0x68]) ⟨[], []⟩ ⟨[], descriptorOfH.bytes⟩
    ⟨[descriptorOfH.bytes], []⟩ ⟨[], []⟩ descriptorRead ⟨by decide, by decide⟩ (by decide) rfl
      (List.append_nil _).symm (by decide +kernel) rfl).names .contextName (by decide)
  revert hname
  decide

end Wire

end RecoveryManager
