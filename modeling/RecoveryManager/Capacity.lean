import RecoveryManager.Framing

/-!
# The memory a message is read into

`rmg_message_read` again, with the segments it hands to `readv`: where each of them points to, how much there is, and
how long it is said to be (`rmgMessageReadInto`).  The header fields are read into their own words, and a name into
memory of exactly the size the header gives.  The number of an action response or an instance status is eight bytes
whatever the header says, so the segments fit exactly when no header read is one of these two with a larger size
(`segments_fit_iff`).
-/

namespace RecoveryManager

namespace Wire

open Fallible Fallible.Prog ByteStream

/-- An `iovec`: what there is at `iov_base`, and `iov_len`. -/
structure Iovec where
  capacity : Nat
  len : Nat
  deriving DecidableEq, Repr

inductive ScatterOp where
  | readv (iov : List Iovec)

def ScatterOp.Res : ScatterOp → Type
  | .readv _ => List Byte

/-- The eight words of the header. -/
def headerIov : List Iovec := [⟨2, 2⟩, ⟨2, 2⟩, ⟨4, 4⟩, ⟨4, 4⟩, ⟨2, 2⟩, ⟨2, 2⟩, ⟨2, 2⟩, ⟨2, 2⟩]

/-- The arguments, each in its memory. -/
def RmgMessageHdr.payloadIov (hdr : RmgMessageHdr) : List Iovec :=
  hdr.segments.map fun (a, size) => ⟨(a.buffer size).length, size⟩

/-- `rmgMessageRead` with its segments. -/
def rmgMessageReadInto : Prog ScatterOp ScatterOp.Res (Option RmgMessage) := do
  let msg := rmgMessageNew .unknown 0
  let got : List Byte ← Prog.call (.readv headerIov) .ret
  if got = [] then pure none
  else
    let msg : RmgMessage := { msg with hdr := .ofBytes (overlay msg.hdr.bytes got) }
    if msg.hdr.payloadIov = [] then pure (some msg)
    else
      let got : List Byte ← Prog.call (.readv msg.hdr.payloadIov) .ret
      if got = [] then pure none else pure (some (msg.filled msg.hdr.segments got))

/-- A connection together with the segments that were handed to `readv`, call by call. -/
structure Scatter where
  link : Link
  handed : List (List Iovec)
  deriving DecidableEq, Repr

def Scatter.apply : (op : ScatterOp) → Unit → Scatter → op.Res × Scatter
  | .readv iov, _, s =>
    let r := readv (iov.map Iovec.len).sum s.link.incoming
    (r.1, ⟨{ s.link with incoming := r.2 }, s.handed ++ [iov]⟩)

def Scatter.machine : Machine ScatterOp ScatterOp.Res Unit Scatter := ⟨Scatter.apply⟩

/-- The segments that one call of `rmg_message_read` hands to `readv`. -/
def handed (c : Link) : List (List Iovec) := (Fallible.run Scatter.machine () rmgMessageReadInto ⟨c, []⟩).2.handed

/-- The connection after some messages have been read from it. -/
inductive ReadOn (c : Link) : Link → Prop
  | none : ReadOn c c
  | next {c' c'' : Link} {msg : RmgMessage} :
      ReadOn c c' → Fallible.run Link.machine .none rmgMessageRead c' = (some (some msg), c'') → ReadOn c c''

/-- The header as it stands after the first read. -/
def headerRead (c : Link) : RmgMessageHdr := .ofBytes (overlay blank.hdr.bytes (readv 20 c.incoming).1)

/-- An action response or an instance status of more than eight bytes. -/
def RmgMessageHdr.Oversized (hdr : RmgMessageHdr) : Prop :=
  (hdr.kind = .actionResponse ∨ hdr.kind = .instanceStatus) ∧ 8 < hdr.sizeOfArg1.toNat

/-! ### The calls of `readv` -/

private theorem sum_payloadIov (hdr : RmgMessageHdr) :
    (hdr.payloadIov.map Iovec.len).sum = (hdr.segments.map Prod.snd).sum := by
  rw [RmgMessageHdr.payloadIov, List.map_map]
  rfl

private theorem payloadIov_eq_nil (hdr : RmgMessageHdr) : hdr.payloadIov = [] ↔ hdr.segments = [] := by
  rw [RmgMessageHdr.payloadIov, List.map_eq_nil_iff]

/-- What is read is what `rmgMessageRead` reads, and the payload is asked for after a header that announces one. -/
theorem run_rmgMessageReadInto (c : Link) : Fallible.run Scatter.machine () rmgMessageReadInto ⟨c, []⟩ =
    ((Fallible.run Link.machine none rmgMessageRead c).1,
      ⟨(Fallible.run Link.machine none rmgMessageRead c).2,
        if (readv 20 c.incoming).1 = [] ∨ (headerRead c).segments = [] then [headerIov]
        else [headerIov, (headerRead c).payloadIov]⟩) := by
  have hreadv : ∀ (iov : List Iovec) (s : Scatter),
      Fallible.run Scatter.machine () (.call (.readv iov) .ret : Prog ScatterOp ScatterOp.Res (List Byte)) s =
        (some (readv (iov.map Iovec.len).sum s.link.incoming).1,
          ⟨{ s.link with incoming := (readv (iov.map Iovec.len).sum s.link.incoming).2 }, s.handed ++ [iov]⟩) :=
    fun _ _ => rfl
  have hheader : (headerIov.map Iovec.len).sum = 20 := rfl
  have hread := run_rmgMessageRead c
  dsimp only at hread
  rw [hread]
  unfold rmgMessageReadInto
  dsimp only
  rw [run_bind_of_eq Scatter.machine () (hreadv _ _), hheader]
  dsimp only
  by_cases h₁ : (readv 20 c.incoming).1 = []
  · rw [if_pos h₁, if_pos h₁, if_pos (.inl h₁)]
    rfl
  rw [if_neg h₁, if_neg h₁]
  change Fallible.run Scatter.machine () (if (headerRead c).payloadIov = [] then _ else _) _ =
    ((if (headerRead c).segments = [] then _ else _ : Option (Option RmgMessage) × Link).1,
      ⟨(if (headerRead c).segments = [] then _ else _ : Option (Option RmgMessage) × Link).2, _⟩)
  by_cases h₂ : (headerRead c).segments = []
  · rw [if_pos ((payloadIov_eq_nil _).2 h₂), if_pos h₂, if_pos (.inr h₂)]
    rfl
  have hno : ¬ ((readv 20 c.incoming).1 = [] ∨ (headerRead c).segments = []) := fun h => h.elim h₁ h₂
  rw [if_neg (fun h => h₂ ((payloadIov_eq_nil _).1 h)), if_neg h₂, if_neg hno,
    run_bind_of_eq Scatter.machine () (hreadv _ _), sum_payloadIov]
  change Fallible.run Scatter.machine ()
      (if (readv ((headerRead c).segments.map Prod.snd).sum _).1 = [] then _ else _) _ =
    ((if (readv ((headerRead c).segments.map Prod.snd).sum _).1 = [] then _ else _ :
    Option (Option RmgMessage) × Link).1,
      ⟨(if (readv ((headerRead c).segments.map Prod.snd).sum _).1 = [] then _ else _ :
        Option (Option RmgMessage) × Link).2, _⟩)
  split <;> rfl

/-! ### The segments of a header -/

/-- Only the two numbers can be too long. -/
private theorem len_le_capacity_iff (a : Argument) (size : Nat) :
    size ≤ (a.buffer size).length ↔ a.isName ∨ size ≤ 8 := by
  cases a with
  | actionResponse | instanceStatus =>
    have h : (List.replicate 8 (0 : Byte)).length = 8 := rfl
    show size ≤ (List.replicate 8 (0 : Byte)).length ↔ (false : Bool) = true ∨ size ≤ 8
    rw [h]
    simp
  | processName | serviceName | contextName =>
    show size ≤ (List.replicate size (0 : Byte)).length ↔ (true : Bool) = true ∨ size ≤ 8
    simp

theorem payloadIov_fits_iff (hdr : RmgMessageHdr) :
    (∀ seg ∈ hdr.payloadIov, seg.len ≤ seg.capacity) ↔ ¬ hdr.Oversized := by
  have hiff : (∀ seg ∈ hdr.payloadIov, seg.len ≤ seg.capacity) ↔
      ∀ x ∈ hdr.segments, x.1.isName ∨ x.2 ≤ 8 := by
    rw [RmgMessageHdr.payloadIov, List.forall_mem_map]
    exact forall₂_congr fun x _ => len_le_capacity_iff x.1 x.2
  rw [hiff, RmgMessageHdr.segments, RmgMessageHdr.Oversized]
  cases hdr.kind <;> simp [RmgMessageType.arguments, Argument.isName]

/-- The words of the header fit. -/
private theorem headerIov_fits : ∀ seg ∈ headerIov, seg.len ≤ seg.capacity := by decide

/-- One call of `rmg_message_read`. -/
theorem handed_fits_iff (c : Link) :
    (∀ iov ∈ handed c, ∀ seg ∈ iov, seg.len ≤ seg.capacity) ↔ ¬ (headerRead c).Oversized := by
  have hrun := congrArg (fun r => r.2.handed) (run_rmgMessageReadInto c)
  dsimp only at hrun
  rw [handed, hrun]
  split
  · rename_i hno
    -- a header without payload is not one of the two
    have hseg : (headerRead c).segments = [] := by
      rcases hno with h | h
      · rw [headerRead, h, show overlay blank.hdr.bytes [] = blank.hdr.bytes from rfl, RmgMessageHdr.ofBytes_bytes]
        rfl
      · exact h
    have hfits : ¬ (headerRead c).Oversized := by
      rw [← payloadIov_fits_iff, RmgMessageHdr.payloadIov, hseg]
      simp
    refine iff_of_true (fun iov hiov => ?_) hfits
    rw [List.mem_singleton.1 hiov]
    exact headerIov_fits
  · rw [← payloadIov_fits_iff]
    constructor
    · exact fun h => h _ (by simp)
    · intro h iov hiov
      rcases List.mem_pair.1 hiov with rfl | rfl
      · exact headerIov_fits
      · exact h

/-- However many messages are read from a connection, every segment fits its memory exactly if no header read
announces a number of more than eight bytes. -/
theorem segments_fit_iff (c : Link) :
    (∀ c', ReadOn c c' → ∀ iov ∈ handed c', ∀ seg ∈ iov, seg.len ≤ seg.capacity) ↔
      ∀ c', ReadOn c c' → ¬ (headerRead c').Oversized :=
  forall₂_congr fun c' _ => handed_fits_iff c'

/-- An action response that is said to be nine bytes long. -/
def oversizedResponse : List Byte :=
  { (rmgMessageNew .actionResponse 0).hdr with sizeOfArg1 := 9 }.bytes ++ List.replicate 9 0xFF

theorem response_overflows : ¬ ∀ c c' : Link, ReadOn c c' → ∀ iov ∈ handed c', ∀ seg ∈ iov, seg.len ≤ seg.capacity := by
  intro h
  have hover : ¬ ∀ iov ∈ handed ⟨[oversizedResponse], []⟩, ∀ seg ∈ iov, seg.len ≤ seg.capacity := by decide
  exact hover (h _ _ .none)

end Wire

end RecoveryManager
