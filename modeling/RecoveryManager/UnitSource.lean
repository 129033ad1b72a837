import RecoveryManager.MainLoop
import RecoveryManager.Rungs

/-!
# Units tag by tag

Unit files given as lists of tags, with the text of such a list and the callbacks the markup parser makes for it, and
instances before and after their first boot.  `GLib.reading` is a markup parser for finitely many texts.
-/

namespace RecoveryManager

/-! ### Texts -/

inductive Tag where
  | opening (name : String) (attributes : List (String × String))
  | closing (name : String)
  | text (text : String)
  deriving DecidableEq, Repr

namespace Tag

def source : Tag → String
  | opening name attributes =>
    "<" ++ name ++ attributes.foldl (fun s (n, v) => s ++ " " ++ n ++ "=\"" ++ v ++ "\"") "" ++ ">"
  | closing name => "</" ++ name ++ ">"
  | text t => t

def event : Tag → MarkupEvent
  | opening name attributes => .startElement name attributes
  | closing _ => .endElement
  | text t => .text t

def element (name : String) (attributes : List (String × String)) (content : String) : List Tag :=
  [opening name attributes, text content, closing name]

/-- The bytes of an ASCII text. -/
def bytes (tags : List Tag) : UnitText :=
  (tags.flatMap fun tag => tag.source.toList).map fun c => BitVec.ofNat 8 c.toNat

def actionAttributes (a : String × String × String) : List (String × String) :=
  [("type", a.1), ("retry", a.2.1), ("reset", a.2.2)]

/-- A unit with the attributes of its service, and with type, retry and reset of each action. -/
def unit (service : String) (attributes : List (String × String)) (actions : List (String × String × String)) :
    List Tag :=
  element "service" attributes service ++ element "privatedata" [] "/p" ++
    element "publicdata" [] "/q" ++ [opening "actions" []] ++
      actions.flatMap (fun a => [opening "action" (actionAttributes a), closing "action"]) ++ [closing "actions"]

end Tag

open Tag

/-- A markup parser that accepts the texts of some tag lists. -/
def GLib.reading (files : List (List Tag)) : GLib where
  markup text :=
    match files.find? fun tags => bytes tags = text with
    | some tags => ⟨tags.map event, true⟩
    | none => ⟨[], false⟩
  randInt seed n := seed + BitVec.ofNat 32 n
  stale s := s

/-! ### Instances -/

namespace Instance

/-- An instance that comes up for the first time, without other instances. -/
def initial (runMode : RmgRunMode) (hostName : String) : Instance where
  ident := 0
  runMode := runMode
  hostName := hostName
  options := ⟨"clear-public ${service_name}", "clear-private ${service_name}", "reboot", "factory-reset"⟩
  journal := .empty
  heap := fun _ => ⟨.unknown, none, none, none, ⟨0, 0⟩⟩
  allocated := 0
  dispatcherQueue := []
  executorQueue := []
  clients := []
  toClient := fun _ => []
  toManager := []
  sources := []
  nextSource := 0
  now := 0
  running := true
  trace := []

theorem fresh_initial (runMode : RmgRunMode) (hostName : String) : Fresh (initial runMode hostName) :=
  ⟨rfl, rfl, rfl, rfl, rfl⟩

/-- The units directory with some files. -/
def directory (files : List (List Tag)) : Option (List UnitFile) := some (files.map fun tags => ⟨some (bytes tags)⟩)

/-- The instance after a boot over some files, observed from then on. -/
def booted (glib : GLib) (w : Instance) (files : List (List Tag)) : Instance :=
  { w.restarted.after (boot glib (directory files)) with trace := [] }

/-- Crashes of one service, each handled before the next. -/
def crashLabels (s : String) (n : Nat) : List Label := (List.replicate n [.crash s, .dispatch]).flatten

/-- The time passes, then a timeout expires. -/
def expireLabels (seconds id : Nat) : List Label := List.replicate seconds .tick ++ [.expire id]

/-- The labels in turn. -/
def replayed (glib : GLib) (w : Instance) (ls : List Label) : Option Instance := ls.foldlM (step glib) w

theorem runs_of_replayed {glib : GLib} {w w' : Instance} {ls : List Label} (h : w.replayed glib ls = some w') :
    Runs glib w ls w' :=
  .of_foldlM h

/-- The step for a label, with the answers to statements and sends in turn. -/
def stepEach (glib : GLib) (w : Instance) (x : Label × (Nat → Bool)) : Option Instance :=
  (w.enabled glib x.1).map fun (w₀, p) =>
    ended (Fallible.outcomeOf (Fallible.runEach machine x.2 p w₀).1) (Fallible.runEach machine x.2 p w₀).2

/-- The labels in turn, with the answers in each step. -/
def replayedEach (glib : GLib) (w : Instance) (xs : List (Label × (Nat → Bool))) : Option Instance :=
  xs.foldlM (stepEach glib) w

theorem faultyRuns_of_replayedEach {glib : GLib} {w w' : Instance} {xs : List (Label × (Nat → Bool))}
    (h : w.replayedEach glib xs = some w') : FaultyRuns glib w (xs.map Prod.fst) w' := by
  induction xs generalizing w with
  | nil =>
    obtain rfl := Option.some.inj h
    exact .nil
  | cons x xs ih =>
    obtain ⟨w₁, hstep, hxs⟩ := Option.bind_eq_some_iff.1 h
    obtain ⟨⟨w₀, p⟩, he, rfl⟩ := Option.map_eq_some_iff.1 hstep
    exact .cons ⟨w₀, p, _, _, he, Fallible.exec_runEach machine (fun _ _ => trivial) p w₀, rfl⟩ (ih hxs)

end Instance

end RecoveryManager
