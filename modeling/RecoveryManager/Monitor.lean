import RecoveryManager.MainLoop

/-!
# The monitor of the service units

`rmg-mentry.c` and `rmg-monitor.c`: an entry is made for every service the service manager lists or announces, its
proxy is built asynchronously, and only then is the entry on the list that new names are compared with and is it
notified of property changes.

`Monitored` is an instance together with its monitor and the units as they really are.
-/

namespace RecoveryManager

open Fallible Fallible.Prog

/-! ### Entries (`rmg-mentry.c`) -/

inductive ServiceActiveState where
  | unknown
  | active
  | reloading
  | inactive
  | failed
  | activating
  | deactivating
  deriving DecidableEq, Repr

/-- A substate is a position in the table of the names.  The table has a name more than the enumeration. -/
abbrev ServiceActiveSubstate := Nat

def serviceSubstateDead : ServiceActiveSubstate := 2

def activeStateNames : List (String × ServiceActiveState) :=
  [("unknown", .unknown), ("active", .active), ("reloading", .reloading), ("inactive", .inactive), ("failed", .failed),
    ("activating", .activating), ("deactivating", .deactivating)]

def activeSubstateNames : List String := ["unknown", "running", "dead", "inactive", "stop-sigterm"]

def rmgMentryActiveStateFrom (stateName : String) : ServiceActiveState :=
  ((activeStateNames.find? (·.1 = stateName)).map Prod.snd).getD .unknown

def rmgMentryActiveSubstateFrom (stateName : String) : ServiceActiveSubstate :=
  let i := activeSubstateNames.idxOf stateName
  if i < activeSubstateNames.length then i else 0

structure RmgMEntry where
  serviceName : String
  activeState : ServiceActiveState
  activeSubstate : ServiceActiveSubstate
  deriving DecidableEq, Repr

/-- The value of a property in a signal; the last one counts. -/
def propertyOf (key : String) (changedProperties : List (String × String)) : Option String :=
  changedProperties.foldl (fun value x => if x.1 = key then some x.2 else value) none

/-- What the dispatcher is told of a change. -/
def dispatcherEvent (before now : ServiceActiveState) : Option DispatcherEventType :=
  if before ≠ .failed ∧ now = .failed then some .serviceCrashed
  else if before ≠ .active ∧ now = .active then some .serviceRestarted
  else none

def onPropertiesChanged (mentry : RmgMEntry) (changedProperties : List (String × String)) : Proc RmgMEntry :=
  match propertyOf "ActiveState" changedProperties, propertyOf "SubState" changedProperties with
  | some activeStateStr, some activeSubstateStr =>
    let activeState := rmgMentryActiveStateFrom activeStateStr
    let activeSubstate := rmgMentryActiveSubstateFrom activeSubstateStr
    if mentry.activeState ≠ activeState ∨ mentry.activeSubstate ≠ activeSubstate then do
      match dispatcherEvent mentry.activeState activeState with
      | some type => pushMonitored type mentry.serviceName
      | none => pure ⟨⟩
      pure { mentry with activeState, activeSubstate }
    else pure mentry
  | _, _ => pure mentry

/-! ### The list of the entries (`rmg-monitor.c`) -/

structure RmgMonitor where
  services : List RmgMEntry
  /-- The entries whose proxy is being built; only the pending call knows of them. -/
  building : List RmgMEntry
  deriving DecidableEq, Repr

def isService (name : String) : Bool := ".service".toList.isSuffixOf name.toList

def addService (monitor : RmgMonitor) (serviceName : String) (activeState : ServiceActiveState)
    (activeSubstate : ServiceActiveSubstate) : RmgMonitor :=
  if isService serviceName then
    match monitor.services.find? (·.serviceName = serviceName) with
    | none => { monitor with building := monitor.building ++ [⟨serviceName, activeState, activeSubstate⟩] }
    | some _ => monitor
  else monitor

/-- `mentry_init_status`. -/
def mentryInitStatus (monitor : RmgMonitor) (mentry : RmgMEntry) : RmgStatus → RmgMonitor
  | .error => monitor
  | .ok => { monitor with services := mentry :: monitor.services }

/-! ### The units and their monitor -/

/-- The properties of a unit, as the service manager spells them. -/
structure UnitState where
  activeState : String
  subState : String
  deriving DecidableEq, Repr

structure Monitored where
  monitor : RmgMonitor
  inst : Instance
  units : String → UnitState
  /-- The services `add_service` was called for with a state other than failed. -/
  announced : List String

inductive UnitLabel where
  /-- `ListUnits` is answered. -/
  | listUnits (names : List String)
  /-- A `UnitNew` signal arrives. -/
  | unitNew (name : String)
  /-- The proxy of the `i`-th entry in building is there, or has failed. -/
  | proxyReady (i : Nat) (status : RmgStatus)
  /-- The properties of a unit change; the entries with a proxy are notified. -/
  | changed (name : String) (properties : List (String × String))
  /-- The instance takes a step that has nothing to do with the units. -/
  | main (l : Label)
  deriving DecidableEq, Repr

/-- The steps in which the service manager or a restart has its hand. -/
def Label.ofUnits : Label → Bool
  | .crash _ | .restarted _ | .restart _ => true
  | _ => false

/-- The handlers of the entries of a unit run one after the other. -/
def notify (name : String) (properties : List (String × String)) : List RmgMEntry → Proc (List RmgMEntry)
  | [] => pure []
  | mentry :: services => do
    let mentry ← if mentry.serviceName = name then onPropertiesChanged mentry properties else pure mentry
    let services ← notify name properties services
    pure (mentry :: services)

namespace Monitored

/-- `add_service`, with the state that is recorded. -/
def add (m : Monitored) (name : String) (activeState : ServiceActiveState) (activeSubstate : ServiceActiveSubstate) :
    Monitored :=
  { m with
    monitor := addService m.monitor name activeState activeSubstate
    announced := if isService name ∧ activeState ≠ .failed then name :: m.announced else m.announced }

def addListed (m : Monitored) (name : String) : Monitored :=
  m.add name (rmgMentryActiveStateFrom (m.units name).activeState) (rmgMentryActiveSubstateFrom (m.units name).subState)

def step (glib : GLib) (m : Monitored) : UnitLabel → Option Monitored
  | .main l => if l.ofUnits then none else (m.inst.step glib l).map fun w => { m with inst := w }
  | l =>
    if m.inst.running then
      match l with
      | .listUnits names => some (names.foldl addListed m)
      | .unitNew name => some (m.add name .inactive serviceSubstateDead)
      | .proxyReady i status =>
        m.monitor.building[i]?.map fun mentry =>
          { m with
            monitor := mentryInitStatus { m.monitor with building := m.monitor.building.eraseIdx i } mentry status }
      | .changed name properties =>
        match propertyOf "ActiveState" properties, propertyOf "SubState" properties with
        | some activeState, some subState =>
          let (services, w) := m.inst.run (notify name properties m.monitor.services)
          services.map fun services =>
            { m with
              monitor := { m.monitor with services }
              inst := w
              units := Function.update m.units name ⟨activeState, subState⟩ }
        | _, _ => none
      | .main _ => none
    else none

def Step (glib : GLib) (m : Monitored) (l : UnitLabel) (m' : Monitored) : Prop := m.step glib l = some m'

/-- Before anything is heard of a unit. -/
def start (w : Instance) (units : String → UnitState) : Monitored := ⟨⟨[], []⟩, w, units, []⟩

/-- A unit changes into the failed state. -/
def Fails (m : Monitored) : UnitLabel → String → Prop
  | .changed name properties, n =>
    n = name ∧ (m.units n).activeState ≠ "failed" ∧ propertyOf "ActiveState" properties = some "failed"
  | _, _ => False

end Monitored

end RecoveryManager
