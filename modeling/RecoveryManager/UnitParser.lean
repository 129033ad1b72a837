import RecoveryManager.Journal

/-!
# Parsing a unit file

The journal entry of `rmg-jentry.c` and the two markup callbacks of `rmg-journal.c` that fill it in.

GLib is a parameter (`GLib`): the markup parser turns a text into calls of the callbacks and a verdict, and the random
generator yields a stream of 32-bit words for each seed.  The callbacks keep two pointers longer than the string they
point to: the name of the current element, once that element is closed, and the context of a friend, once it has been
freed.  `CString.released` is such a pointer, and `GLib.stale` is what a read through it finds.
-/

namespace RecoveryManager

/-! ### GLib -/

/-- What `g_markup_parse_context_parse` makes of a text. -/
inductive MarkupEvent where
  | startElement (name : String) (attributes : List (String × String))
  | endElement
  | text (text : String)
  deriving DecidableEq, Repr

structure Markup where
  events : List MarkupEvent
  ok : Bool
  deriving DecidableEq, Repr

structure GLib where
  markup : UnitText → Markup
  /-- The `n`-th word of the generator with a given seed. -/
  randInt : (seed : BitVec 32) → (n : Nat) → BitVec 32
  stale : String → String

inductive CString where
  | null
  | live (s : String)
  | released (s : String)
  deriving DecidableEq, Repr

def CString.read (glib : GLib) : CString → Option String
  | null => none
  | live s => some s
  | released s => some (glib.stale s)

/-- The string was freed or overwritten; the pointer still holds its address. -/
def CString.release : CString → CString
  | live s => released s
  | p => p

def CString.isReleased : CString → Bool
  | released _ => true
  | _ => false

/-! ### Journal entry (`rmg-jentry.c`) -/

structure RmgAEntry where
  hash : Gulong
  type : RmgActionType
  triggerLevelMin : Int
  triggerLevelMax : Int
  resetAfter : Bool
  deriving DecidableEq, Repr

structure RmgFEntry where
  hash : Gulong
  friendName : String
  friendContext : String
  type : RmgFriendType
  action : RmgFriendActionType
  argument : Int
  delay : Int
  deriving DecidableEq, Repr

structure RmgFEntryParserHelper where
  friendContext : CString
  type : RmgFriendType
  action : RmgFriendActionType
  argument : Int
  delay : Int
  deriving DecidableEq, Repr

/-- The helper after `memset`. -/
def RmgFEntryParserHelper.zero : RmgFEntryParserHelper := ⟨.null, .unknown, .unknown, 0, 0⟩

structure RmgJEntry where
  hash : Gulong
  name : Option String
  privateData : Option String
  publicData : Option String
  rvector : Int
  checkStart : Bool
  timeout : Int
  actions : List RmgAEntry
  friends : List RmgFEntry
  /-- Seed and number of words drawn; `none` before the service name is known. -/
  hashGenerator : Option (BitVec 32 × Nat)
  parserCurrentElement : CString
  parserCurrentFriend : RmgFEntryParserHelper
  /-- A context was read and freed again after it had been freed. -/
  contextFreedTwice : Bool
  deriving DecidableEq, Repr

/-- The first action will start when the rvector is 1. -/
def rmgJentryNew (version : Gulong) : RmgJEntry where
  hash := version
  name := none
  privateData := none
  publicData := none
  rvector := 1
  checkStart := false
  timeout := 0
  actions := []
  friends := []
  hashGenerator := none
  parserCurrentElement := .null
  parserCurrentFriend := .zero
  contextFreedTwice := false

def rmgJentrySetName (jentry : RmgJEntry) (name : String) : RmgJEntry :=
  { jentry with name := some name, hashGenerator := some (jentry.hash.setWidth 32, 0) }

/-- `g_rand_int` on the entry's generator; without a generator it returns 0. -/
def nextHash (glib : GLib) (jentry : RmgJEntry) : Gulong × RmgJEntry :=
  match jentry.hashGenerator with
  | none => (0, jentry)
  | some (seed, n) => ((glib.randInt seed n).setWidth 64, { jentry with hashGenerator := some (seed, n + 1) })

def rmgJentryAddAction (glib : GLib) (jentry : RmgJEntry) (type : RmgActionType)
    (triggerLevelMin triggerLevelMax : Int) (resetAfter : Bool) : RmgJEntry :=
  let (hash, jentry) := nextHash glib jentry
  { jentry with actions := jentry.actions ++ [⟨hash, type, triggerLevelMin, triggerLevelMax, resetAfter⟩] }

def rmgJentryAddFriend (glib : GLib) (jentry : RmgJEntry) (friendName friendContext : String) (type : RmgFriendType)
    (action : RmgFriendActionType) (argument delay : Int) : RmgJEntry :=
  let (hash, jentry) := nextHash glib jentry
  { jentry with friends := jentry.friends ++ [⟨hash, friendName, friendContext, type, action, argument, delay⟩] }

/-! ### Markup callbacks (`rmg-journal.c`) -/

/-- The local variables of the action branch. -/
structure ActionSettings where
  actionType : RmgActionType
  resetAfter : Bool
  retry : Int
  deriving DecidableEq, Repr

def ActionSettings.attribute (a : ActionSettings) : String × String → ActionSettings
  | (name, value) =>
    if name = "type" then { a with actionType := rmgUtilsActionTypeFrom value }
    else if name = "retry" then { a with retry := gAsciiStrtoll value.toList }
    else if name = "reset" then if value = "true" then { a with resetAfter := true } else a
    else a

def actionSettings (attributes : List (String × String)) : ActionSettings :=
  attributes.foldl ActionSettings.attribute ⟨.invalid, false, 1⟩

/-- Invalid settings are skipped with a warning; the next level is computed with wrap-around. -/
def parserStartAction (glib : GLib) (attributes : List (String × String)) (entry : RmgJEntry) : RmgJEntry :=
  let a := actionSettings attributes
  if a.retry < 1 ∨ a.actionType = .invalid then entry
  else
    let g := glong (entry.rvector + a.retry)
    { rmgJentryAddAction glib entry a.actionType entry.rvector g a.resetAfter with rvector := g }

def RmgFEntryParserHelper.attribute (f : RmgFEntryParserHelper) : String × String → RmgFEntryParserHelper
  | (name, value) =>
    if name = "type" then { f with type := rmgUtilsFriendTypeFrom value }
    else if name = "action" then { f with action := rmgUtilsFriendActionTypeFrom value }
    else if name = "delay" then { f with delay := gAsciiStrtoll value.toList }
    else if name = "arg" then { f with argument := gAsciiStrtoll value.toList }
    else if name = "context" then { f with friendContext := .live value }
    else f

def parserStartFriend (attributes : List (String × String)) (entry : RmgJEntry) : RmgJEntry :=
  { entry with parserCurrentFriend := attributes.foldl RmgFEntryParserHelper.attribute .zero }

def serviceAttribute (entry : RmgJEntry) : String × String → RmgJEntry
  | (name, value) =>
    if name = "relaxtime" then
      let relaxtime := gAsciiStrtoll value.toList
      { entry with timeout := if 0 < relaxtime then relaxtime else 5 }
    else if name = "checkstart" then { entry with checkStart := value = "true" }
    else entry

def parserStartElement (glib : GLib) (elementName : String) (attributes : List (String × String))
    (entry : RmgJEntry) : RmgJEntry :=
  let entry := { entry with parserCurrentElement := .live elementName }
  if elementName = "action" then parserStartAction glib attributes entry
  else if elementName = "friend" then parserStartFriend attributes entry
  else if elementName = "service" then attributes.foldl serviceAttribute entry
  else entry

/-- The friend takes the context it was given, or the own host; the context is freed and not cleared, so a second text
of the same friend reads it after it was freed, and frees it again. -/
def parserFriendText (glib : GLib) (hostName text : String) (entry : RmgJEntry) : RmgJEntry :=
  let friend := entry.parserCurrentFriend
  let context := if friend.friendContext = .null then .live hostName else friend.friendContext
  let entry := rmgJentryAddFriend glib entry text ((context.read glib).getD "") friend.type friend.action
    friend.argument friend.delay
  { entry with
    parserCurrentFriend := { friend with friendContext := context.release }
    contextFreedTwice := entry.contextFreedTwice || context.isReleased }

def parserTextData (glib : GLib) (hostName text : String) (entry : RmgJEntry) : RmgJEntry :=
  match entry.parserCurrentElement.read glib with
  | some element =>
    if element = "service" then rmgJentrySetName entry text
    else if element = "privatedata" then { entry with privateData := some text }
    else if element = "publicdata" then { entry with publicData := some text }
    else if element = "friend" then parserFriendText glib hostName text entry
    else entry
  | none => entry

/-- The callback for one event.  There is none for the end of an element, but its name goes away. -/
def parserEvent (glib : GLib) (hostName : String) (entry : RmgJEntry) : MarkupEvent → RmgJEntry
  | .startElement name attributes => parserStartElement glib name attributes entry
  | .endElement => { entry with parserCurrentElement := entry.parserCurrentElement.release }
  | .text text => parserTextData glib hostName text entry

/-- The entry the callbacks build from the events of a file. -/
def parseEvents (glib : GLib) (hostName : String) (hash : Gulong) (events : List MarkupEvent) : RmgJEntry :=
  events.foldl (parserEvent glib hostName) (rmgJentryNew hash)

end RecoveryManager
