import RecoveryManager.Instance
import RecoveryManager.Lib.ByteStream

/-!
# Messages on the wire

`rmg-message.c` and the two send functions, on bytes.  A connection (`Link`) delivers its incoming stream in pieces, and
accepts of what is written as much as it likes (`Link.machine`).  The header goes out field by field in the byte order
of the machine (low byte first), the payload is the arguments of the message type one after the other.

The three switches of `rmg-message.c` (sizes, segments to write, segments to read) have the same arms: the arguments of
each type are those of `RmgMessageType.arguments`.
-/

namespace RecoveryManager

open Fallible Fallible.Prog ByteStream

def RmgMessageType.code (t : RmgMessageType) : Nat := t.ctorIdx

/-- The enumerator with a given number; a number outside the enumeration goes the way of the default arms. -/
def RmgMessageType.ofCode (n : Nat) : RmgMessageType :=
  if n = 1 then .requestContextRestart else if n = 2 then .requestPlatformRestart
  else if n = 3 then .requestFactoryReset
  else if n = 4 then .actionResponse else if n = 5 then .replicaDescriptor else if n = 6 then .informProcessCrash
  else if n = 7 then .informClientServiceFailed else if n = 8 then .informPrimaryServiceFailed
  else if n = 9 then .instanceStatus else .unknown

@[simp] theorem RmgMessageType.ofCode_code (t : RmgMessageType) : ofCode t.code = t := by
  cases t <;> rfl

namespace Wire

/-! ### Messages -/

structure RmgMessageHdr where
  hsh : BitVec 16
  session : BitVec 16
  version : BitVec 32
  type : BitVec 32
  sizeOfArg1 : BitVec 16
  sizeOfArg2 : BitVec 16
  sizeOfArg3 : BitVec 16
  sizeOfArg4 : BitVec 16
  deriving DecidableEq, Repr

/-- The names are the bytes of the allocated memory, `none` is a null pointer; the two numbers are the bytes of their
words. -/
structure RmgMessageData where
  actionResponse : List Byte
  instanceStatus : List Byte
  processName : Option (List Byte)
  serviceName : Option (List Byte)
  contextName : Option (List Byte)
  deriving DecidableEq, Repr

structure RmgMessage where
  hdr : RmgMessageHdr
  data : RmgMessageData
  deriving DecidableEq, Repr

def startHash : BitVec 16 := 0xECDE

def protocolVersion : BitVec 32 := 1

def maxNameLen : Nat := 128

def rmgMessageNew (type : RmgMessageType) (session : BitVec 16) : RmgMessage where
  hdr := ⟨startHash, session, protocolVersion, BitVec.ofNat 32 type.code, 0, 0, 0, 0⟩
  data := ⟨List.replicate 8 0, List.replicate 8 0, none, none, none⟩

/-- An argument of a message. -/
inductive Argument where
  | actionResponse
  | instanceStatus
  | processName
  | serviceName
  | contextName
  deriving DecidableEq, Repr

end Wire

/-- The arguments of a message type, in order. -/
def RmgMessageType.arguments : RmgMessageType → List Wire.Argument
  | .actionResponse => [.actionResponse]
  | .instanceStatus => [.instanceStatus]
  | .requestContextRestart | .requestPlatformRestart | .requestFactoryReset => [.serviceName, .contextName]
  | .informProcessCrash => [.processName, .contextName]
  | .informClientServiceFailed | .informPrimaryServiceFailed => [.serviceName, .contextName]
  | .replicaDescriptor => [.contextName]
  | .unknown => []

namespace Wire

/-- The bytes of an argument. -/
def Argument.bytes (data : RmgMessageData) : Argument → List Byte
  | .actionResponse => data.actionResponse
  | .instanceStatus => data.instanceStatus
  | .processName => data.processName.getD []
  | .serviceName => data.serviceName.getD []
  | .contextName => data.contextName.getD []

/-- `strnlen`. -/
def strnlen (s : List Byte) (maxlen : Nat) : Nat := min (s.takeWhile (· ≠ 0)).length maxlen

/-- The size that goes into the header. -/
def Argument.size (data : RmgMessageData) (a : Argument) : BitVec 16 :=
  match a with
  | .actionResponse | .instanceStatus => 8
  | .processName | .serviceName | .contextName => BitVec.ofNat 16 (strnlen (a.bytes data) (maxNameLen + 1))

/-- The memory an argument of a given size is read into. -/
def Argument.buffer (a : Argument) (size : Nat) : List Byte :=
  match a with
  | .actionResponse | .instanceStatus => List.replicate 8 0
  | .processName | .serviceName | .contextName => List.replicate size 0

/-- The name of zero bytes is a null pointer, as `g_new0` of no elements is. -/
def nameOf (bytes : List Byte) : Option (List Byte) := if bytes = [] then none else some bytes

def Argument.set (data : RmgMessageData) (bytes : List Byte) : Argument → RmgMessageData
  | .actionResponse => { data with actionResponse := bytes }
  | .instanceStatus => { data with instanceStatus := bytes }
  | .processName => { data with processName := nameOf bytes }
  | .serviceName => { data with serviceName := nameOf bytes }
  | .contextName => { data with contextName := nameOf bytes }

namespace RmgMessageHdr

def bytes (hdr : RmgMessageHdr) : List Byte :=
  littleEndian 2 hdr.hsh.toNat ++ littleEndian 2 hdr.session.toNat ++ littleEndian 4 hdr.version.toNat ++
    littleEndian 4 hdr.type.toNat ++ littleEndian 2 hdr.sizeOfArg1.toNat ++ littleEndian 2 hdr.sizeOfArg2.toNat ++
      littleEndian 2 hdr.sizeOfArg3.toNat ++ littleEndian 2 hdr.sizeOfArg4.toNat

/-- The word of `n` bytes at offset `i`. -/
def word (memory : List Byte) (i n : Nat) : Nat := ofLittleEndian ((memory.drop i).take n)

def ofBytes (memory : List Byte) : RmgMessageHdr where
  hsh := BitVec.ofNat 16 (word memory 0 2)
  session := BitVec.ofNat 16 (word memory 2 2)
  version := BitVec.ofNat 32 (word memory 4 4)
  type := BitVec.ofNat 32 (word memory 8 4)
  sizeOfArg1 := BitVec.ofNat 16 (word memory 12 2)
  sizeOfArg2 := BitVec.ofNat 16 (word memory 14 2)
  sizeOfArg3 := BitVec.ofNat 16 (word memory 16 2)
  sizeOfArg4 := BitVec.ofNat 16 (word memory 18 2)

@[simp] theorem length_bytes (hdr : RmgMessageHdr) : hdr.bytes.length = 20 := by
  simp [bytes]

private theorem word_of_append (l₁ x l₂ : List Byte) :
    word (l₁ ++ (x ++ l₂)) l₁.length x.length = ofLittleEndian x := by
  rw [word, List.drop_left, List.take_left]

/-- A header is read back from its bytes. -/
theorem ofBytes_bytes (hdr : RmgMessageHdr) : ofBytes hdr.bytes = hdr := by
  obtain ⟨hsh, session, version, type, a, b, c, d⟩ := hdr
  have h16 : ∀ (x : BitVec 16) (l₁ l₂ : List Byte) (i : Nat), l₁.length = i →
      BitVec.ofNat 16 (word (l₁ ++ (littleEndian 2 x.toNat ++ l₂)) i 2) = x := by
    rintro x l₁ l₂ i rfl
    have h := word_of_append l₁ (littleEndian 2 x.toNat) l₂
    rw [length_littleEndian, ofLittleEndian_littleEndian (x := x.toNat) x.isLt] at h
    rw [h, BitVec.ofNat_toNat, BitVec.setWidth_eq]
  have h32 : ∀ (x : BitVec 32) (l₁ l₂ : List Byte) (i : Nat), l₁.length = i →
      BitVec.ofNat 32 (word (l₁ ++ (littleEndian 4 x.toNat ++ l₂)) i 4) = x := by
    rintro x l₁ l₂ i rfl
    have h := word_of_append l₁ (littleEndian 4 x.toNat) l₂
    rw [length_littleEndian, ofLittleEndian_littleEndian (x := x.toNat) x.isLt] at h
    rw [h, BitVec.ofNat_toNat, BitVec.setWidth_eq]
  unfold ofBytes
  rw [RmgMessageHdr.mk.injEq]
  refine ⟨?_, ?_, ?_, ?_, ?_, ?_, ?_, ?_⟩ <;> simp only [bytes, List.append_assoc]
  · exact h16 hsh [] _ 0 rfl
  · exact h16 session (littleEndian 2 hsh.toNat) _ 2 (by simp)
  · rw [← List.append_assoc]
    exact h32 version (_ ++ _) _ 4 (by simp)
  · rw [← List.append_assoc, ← List.append_assoc]
    exact h32 type (_ ++ _ ++ _) _ 8 (by simp)
  · rw [← List.append_assoc, ← List.append_assoc, ← List.append_assoc]
    exact h16 a (_ ++ _ ++ _ ++ _) _ 12 (by simp)
  · rw [← List.append_assoc, ← List.append_assoc, ← List.append_assoc, ← List.append_assoc]
    exact h16 b (_ ++ _ ++ _ ++ _ ++ _) _ 14 (by simp)
  · rw [← List.append_assoc, ← List.append_assoc, ← List.append_assoc, ← List.append_assoc, ← List.append_assoc]
    exact h16 c (_ ++ _ ++ _ ++ _ ++ _ ++ _) _ 16 (by simp)
  · have h := h16 d (littleEndian 2 hsh.toNat ++ littleEndian 2 session.toNat ++ littleEndian 4 version.toNat ++
      littleEndian 4 type.toNat ++ littleEndian 2 a.toNat ++ littleEndian 2 b.toNat ++ littleEndian 2 c.toNat) [] 18
        (by simp)
    simpa only [List.append_assoc, List.append_nil] using h

/-- Memory of the size of a header holds the bytes of the header in it. -/
theorem bytes_ofBytes {memory : List Byte} (h : memory.length = 20) : (ofBytes memory).bytes = memory := by
  have hword : ∀ i n, i + n ≤ 20 → littleEndian n (word memory i n) = (memory.drop i).take n := by
    intro i n hin
    have hlen : ((memory.drop i).take n).length = n := by
      rw [List.length_take, List.length_drop]
      omega
    have hle := littleEndian_ofLittleEndian ((memory.drop i).take n)
    rw [hlen] at hle
    exact hle
  have hlt : ∀ i n, word memory i n < 256 ^ n := by
    intro i n
    refine Nat.lt_of_lt_of_le (ofLittleEndian_lt _) (Nat.pow_le_pow_right (by decide) ?_)
    exact List.length_take_le n _
  have h16 : ∀ i, i + 2 ≤ 20 →
      littleEndian 2 (BitVec.ofNat 16 (word memory i 2)).toNat = (memory.drop i).take 2 := by
    intro i hi
    have hi' : word memory i 2 < 2 ^ 16 := Nat.lt_of_lt_of_le (hlt i 2) (by decide)
    rw [BitVec.toNat_ofNat, Nat.mod_eq_of_lt hi', hword i 2 hi]
  have h32 : ∀ i, i + 4 ≤ 20 →
      littleEndian 4 (BitVec.ofNat 32 (word memory i 4)).toNat = (memory.drop i).take 4 := by
    intro i hi
    have hi' : word memory i 4 < 2 ^ 32 := Nat.lt_of_lt_of_le (hlt i 4) (by decide)
    rw [BitVec.toNat_ofNat, Nat.mod_eq_of_lt hi', hword i 4 hi]
  have hsplit : ∀ i n, (memory.drop i).take n ++ memory.drop (i + n) = memory.drop i := by
    intro i n
    rw [← List.drop_drop, List.take_append_drop]
  have hlast : (memory.drop 18).take 2 = memory.drop 18 := List.take_of_length_le (by rw [List.length_drop]; omega)
  unfold ofBytes bytes
  dsimp only
  rw [h16 0 (by omega), h16 2 (by omega), h32 4 (by omega), h32 8 (by omega), h16 12 (by omega), h16 14 (by omega),
    h16 16 (by omega), h16 18 (by omega), hlast]
  simp only [List.append_assoc]
  rw [hsplit 16 2, hsplit 14 2, hsplit 12 2, hsplit 8 4, hsplit 4 4, hsplit 2 2, hsplit 0 2, List.drop_zero]

/-- `rmg_message_get_type`. -/
def kind (hdr : RmgMessageHdr) : RmgMessageType := .ofCode hdr.type.toNat

/-- The arguments with their sizes. -/
def segments (hdr : RmgMessageHdr) : List (Argument × Nat) :=
  hdr.kind.arguments.zip [hdr.sizeOfArg1.toNat, hdr.sizeOfArg2.toNat]

/-- The number of bytes of a header. -/
def length : Nat := 20

end RmgMessageHdr

namespace RmgMessage

/-- The message with the sizes of its arguments. -/
def sized (msg : RmgMessage) : RmgMessage :=
  match msg.hdr.kind.arguments with
  | [] => msg
  | [a] => { msg with hdr := { msg.hdr with sizeOfArg1 := a.size msg.data } }
  | a :: b :: _ => { msg with hdr := { msg.hdr with sizeOfArg1 := a.size msg.data, sizeOfArg2 := b.size msg.data } }

def payload (msg : RmgMessage) : List Byte := msg.hdr.segments.flatMap fun (a, size) => (a.bytes msg.data).take size

/-- The message with its arguments read from `got`. -/
def filled (msg : RmgMessage) : List (Argument × Nat) → List Byte → RmgMessage
  | [], _ => msg
  | (a, size) :: segments, got =>
    filled { msg with data := a.set msg.data (overlay (a.buffer size) (got.take size)) } segments (got.drop size)

end RmgMessage

/-! ### Connections -/

structure Link where
  /-- The incoming stream, in the pieces in which it comes to be read. -/
  incoming : List (List Byte)
  /-- What the connection has accepted. -/
  accepted : List Byte
  deriving DecidableEq, Repr

inductive LinkOp where
  | readv (asked : Nat)
  | select
  | writev (bytes : List Byte)

def LinkOp.Res : LinkOp → Type
  /- No byte stands for the end of the stream. -/
  | .readv _ => List Byte
  | .select | .writev _ => Int

/-- A function that uses a connection. -/
abbrev LinkProc := Prog LinkOp LinkOp.Res

/-- What the connection does; `e` is the value that `select` or `writev` returns, and `none` stands for a connection
that is ready and accepts everything. -/
def Link.apply : (op : LinkOp) → (e : Option Int) → Link → op.Res × Link
  | .readv asked, _, c => ((readv asked c.incoming).1, { c with incoming := (readv asked c.incoming).2 })
  | .select, e, c => (e.getD 1, c)
  | .writev bytes, e, c =>
    let n := min (e.getD bytes.length) bytes.length
    (n, { c with accepted := c.accepted ++ bytes.take n.toNat })

def Link.machine : Machine LinkOp LinkOp.Res (Option Int) Link := ⟨Link.apply⟩

/-! ### Reading and writing -/

/-- The caller has made the message by `rmg_message_new (RMG_MESSAGE_UNKNOWN, 0)`. -/
def rmgMessageRead : LinkProc (Option RmgMessage) := do
  let msg := rmgMessageNew .unknown 0
  let got : List Byte ← Prog.call (.readv RmgMessageHdr.length) .ret
  if got = [] then pure none
  else
    let msg : RmgMessage := { msg with hdr := .ofBytes (overlay msg.hdr.bytes got) }
    if msg.hdr.segments = [] then pure (some msg)
    else
      let got : List Byte ← Prog.call (.readv (msg.hdr.segments.map Prod.snd).sum) .ret
      if got = [] then pure none else pure (some (msg.filled msg.hdr.segments got))

def rmgMessageWrite (msg : RmgMessage) : LinkProc RmgStatus := do
  let msg := msg.sized
  let sz : Int ← Prog.call (.writev msg.hdr.bytes) .ret
  if sz ≤ 0 then pure .error
  else if msg.hdr.segments = [] then pure .ok
  else
    let sz : Int ← Prog.call (.writev msg.payload) .ret
    if sz ≤ 0 then pure .error else pure .ok

/-- Both send functions: `status` first holds what `select` returns, and zero is also the value of `RMG_STATUS_OK`. -/
def sendWhenWritable (connected : Bool) (msg : RmgMessage) : LinkProc RmgStatus :=
  if connected then do
    let status : Int ← Prog.call .select .ret
    if status = -1 then pure .error
    else if 0 < status then rmgMessageWrite msg
    else pure .ok
  else pure .error

/-- `connected` is `manager->sockfd >= 0 && manager->connected`. -/
def rmgManagerSend (connected : Bool) (msg : RmgMessage) : LinkProc RmgStatus := sendWhenWritable connected msg

/-- `connected` is `client->sockfd >= 0`. -/
def rmgClientSend (connected : Bool) (msg : RmgMessage) : LinkProc RmgStatus := sendWhenWritable connected msg

/-! ### What a message becomes -/

namespace RmgMessage

/-- The bytes that go out for a message. -/
def bytes (msg : RmgMessage) : List Byte := msg.sized.hdr.bytes ++ msg.sized.payload

/-- What there is to see of a message on the wire: the fields of its header and the bytes of its arguments. -/
def content (msg : RmgMessage) : RmgMessageHdr × List (List Byte) :=
  (msg.hdr, msg.hdr.kind.arguments.map (·.bytes msg.data))

@[simp] theorem filled_hdr (msg : RmgMessage) (segments : List (Argument × Nat)) (got : List Byte) :
    (msg.filled segments got).hdr = msg.hdr := by
  induction segments generalizing msg got with
  | nil => rfl
  | cons segment segments ih => exact ih _ _

theorem sized_hdr (msg : RmgMessage) : msg.sized.hdr.kind = msg.hdr.kind ∧ msg.sized.data = msg.data := by
  unfold sized
  split <;> exact ⟨rfl, rfl⟩

end RmgMessage

@[simp] theorem Argument.bytes_set (a : Argument) (data : RmgMessageData) (bs : List Byte) :
    a.bytes (a.set data bs) = bs := by
  have hname : (nameOf bs).getD [] = bs := by
    unfold nameOf
    split
    · rename_i h
      exact h.symm
    · rfl
  cases a <;> first | rfl | exact hname

theorem Argument.bytes_set_of_ne {a b : Argument} (h : a ≠ b) (data : RmgMessageData) (bs : List Byte) :
    a.bytes (b.set data bs) = a.bytes data := by
  cases a <;> cases b <;> first | rfl | exact absurd rfl h

/-- A type has no argument, one, or two. -/
theorem arguments_cases (t : RmgMessageType) : t.arguments = [] ∨ (∃ a, t.arguments = [a]) ∨
    ∃ a b, t.arguments = [a, b] ∧ a ≠ b := by
  cases t <;> simp [RmgMessageType.arguments]

end Wire

end RecoveryManager
