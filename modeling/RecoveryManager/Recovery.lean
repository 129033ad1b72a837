import RecoveryManager.Crash
import RecoveryManager.Frames
import RecoveryManager.Rungs

/-!
# The escalation of one service

An abstract machine for one service: its state is a `Recovery` (rows, pending relax timers, history), and its moves
are the handling of a crash, the expiry of a relax timer, and the boot (`Recovery.Move`).  Every step of an instance is
a move of each service, or leaves the service as it is (`move_of_step`), so what holds in every run of the abstract
machine holds of the daemon.
-/

namespace RecoveryManager

open Fallible Fallible.Prog

/-! ### Rows -/

namespace View

def rvector (v : View) : Int := v.services.foldl (fun _ r => r.rvector) 0

def timeout (v : View) : Int := v.services.foldl (fun _ r => r.timeout) 0

def setRvector (v : View) (x : Int) : View := { v with services := v.services.map fun r => { r with rvector := x } }

@[simp] theorem setRvector_actions (v : View) (x : Int) : (v.setRvector x).actions = v.actions := rfl

private theorem foldl_const_map {ι β : Type} (f : ι → β) (g : ι → ι) (h : ∀ r, f (g r) = f r) (d : β) (l : List ι) :
    (l.map g).foldl (fun _ r => f r) d = l.foldl (fun _ r => f r) d := by
  induction l generalizing d with
  | nil => rfl
  | cons r l ih => rw [List.map_cons, List.foldl_cons, List.foldl_cons, ih, h]

@[simp] theorem setRvector_hash (v : View) (x : Int) : (v.setRvector x).hash = v.hash :=
  foldl_const_map (fun r : ServiceRow => gAsciiStrtoull (printLd r.hash))
    (fun r => { r with rvector := x }) (fun _ => rfl) 0 v.services

@[simp] theorem setRvector_timeout (v : View) (x : Int) : (v.setRvector x).timeout = v.timeout :=
  foldl_const_map (fun r : ServiceRow => r.timeout) (fun r => { r with rvector := x }) (fun _ => rfl) 0
    v.services

theorem services_ne_nil {v : View} (h : v.hash ≠ 0) : v.services ≠ [] := by
  intro e
  rw [View.hash, e] at h
  exact h rfl

theorem setRvector_rvector {v : View} (h : v.services ≠ []) (x : Int) : (v.setRvector x).rvector = x := by
  unfold rvector setRvector
  cases hl : v.services with
  | nil => exact absurd hl h
  | cons r l =>
    have key : ∀ (l : List ServiceRow) (d : Int), d = x →
        (l.map fun r => { r with rvector := x }).foldl (fun _ r => r.rvector) d = x := by
      intro l
      induction l with
      | nil => exact fun d hd => hd
      | cons r l ih => exact fun d _ => ih x rfl
    exact key l x rfl

theorem setRvector_zero_rvector (v : View) : (v.setRvector 0).rvector = 0 := by
  by_cases h : v.services = []
  · simp [rvector, setRvector, h]
  · exact setRvector_rvector h 0

end View

theorem Journal.view_setRvector (j : Journal) (s : String) (x : Int) :
    (j.setRvector s x).view s = (j.view s).setRvector x :=
  Sql.effect_onView (q := .updateRvector s x) rfl rfl

theorem Journal.rvectorOf_setRvector {j : Journal} {s : String} (h : (j.view s).hash ≠ 0) (x : Int) :
    (j.setRvector s x).rvectorOf s = x := by
  show ((j.setRvector s x).view s).rvector = x
  rw [Journal.view_setRvector, View.setRvector_rvector (View.services_ne_nil h)]

/-! ### Moves -/

namespace Recovery

variable (R : Recovery) (s : String)

def emit (o : Output) : Recovery := { R with history := R.history ++ [o] }

def setRvector (x : Int) : Recovery :=
  { R with view := R.view.setRvector x, history := R.history ++ [.statement (.updateRvector s x)] }

/-- The timer that `rmg_relaxtimer_trigger` starts. -/
def timer (id now : Nat) : GSource :=
  ⟨id, now + guint (glong (R.view.rvector * R.view.timeout)), .relax ⟨s, R.view.rvector, R.view.timeout⟩⟩

def start (source : GSource) : Recovery :=
  { R with timers := R.timers ++ [source], history := R.history ++ [.timeoutAdded source] }

def trigger (id now : Nat) : Recovery :=
  if R.view.rvector ≤ 0 ∨ R.view.timeout ≤ 0 then R else R.start (R.timer s id now)

def resetIf (reset : Bool) : Recovery := if reset then R.setRvector s 0 else R

def pushThenRelax (e : RmgDEvent) (id now : Nat) (type : ExecutorEventType) (reset : Bool) : Recovery :=
  if reset then (R.emit (.pushed type e)).setRvector s 0 else (R.emit (.pushed type e)).trigger s id now

def perform (e : RmgDEvent) (id now : Nat) (type : RmgActionType) (reset : Bool) : Recovery :=
  match type with
  | .serviceIgnore => R.setRvector s 0
  | .serviceReset => R.pushThenRelax s e id now .serviceRestart reset
  | .publicDataReset => R.pushThenRelax s e id now .serviceResetPublicData reset
  | .privateDataReset => R.pushThenRelax s e id now .serviceResetPrivateData reset
  | .serviceDisable => R.pushThenRelax s e id now .serviceDisable reset
  | .contextReset => (R.resetIf s reset).emit (.pushed .contextRestart e)
  | .platformRestart => (R.resetIf s reset).emit (.pushed .platformRestart e)
  | .factoryReset => R.emit (.pushed .factoryReset e)
  | .invalid | .guruMeditation => R

/-- The settings of the action that the level after the next crash selects. -/
def next : Option ActionSettings := selectedAt R.view.actions (R.view.rvector + 1)

def report (e : RmgDEvent) (type : RmgActionType) (rvector : Int) : Recovery :=
  if type ≠ .invalid then R.emit (.actionRequired type (some s) rvector e.cause) else R

/-- A crash of a service that has a recovery unit. -/
def crash (e : RmgDEvent) (id now : Nat) : Recovery :=
  let R₁ := (R.emit (.crashDetected (some s) e.cause)).setRvector s (R.view.rvector + 1)
  let type := (R.next.map (·.actionType)).getD .invalid
  let reset := (R.next.map (·.resetAfter)).getD false
  (R₁.report s e type (R.view.rvector + 1)).perform s e id now type reset

/-- A crash of a service, with or without a recovery unit. -/
def handle (e : RmgDEvent) (id now : Nat) : Recovery :=
  if R.view.hash = 0 then (R.emit (.crashDetected (some s) e.cause)).emit (.noRecoveryUnit (some s) e.cause)
  else R.crash s e id now

/-- The expiry of a relax timer started at `rvector`. -/
def expire (source : GSource) (rvector : Int) : Recovery :=
  let R₁ : Recovery := { R with timers := R.timers.filter (· ≠ source) }.emit (.timeoutExpired source)
  if R.view.rvector = rvector then R₁.setRvector s 0 else R₁

end Recovery

/-! ### What a crash leaves behind -/

/-- Performing the action sets the rvector to zero. -/
def ActionSettings.resets (a : ActionSettings) : Bool :=
  match a.actionType with
  | .serviceIgnore => true
  | .factoryReset | .invalid | .guruMeditation => false
  | _ => a.resetAfter

/-- Performing the action is followed by a relax timer. -/
def ActionSettings.relaxes (a : ActionSettings) : Bool :=
  match a.actionType with
  | .serviceReset | .publicDataReset | .privateDataReset | .serviceDisable => !a.resetAfter
  | _ => false

namespace Recovery

variable (R : Recovery) (s : String) (e : RmgDEvent) (id now : Nat)

/-- The settings of a level that selects no action. -/
def noAction : ActionSettings := ⟨.invalid, false, 0⟩

/-- What the next crash selects. -/
def selected : ActionSettings := R.next.getD noAction

/-- The rvector after the next crash, before the action is performed. -/
def counted : View := R.view.setRvector (R.view.rvector + 1)

def startsTimer : Bool := R.selected.relaxes && decide (0 < R.counted.rvector ∧ 0 < R.view.timeout)

/-- The timer that the next crash starts, if it starts one. -/
def newTimer : GSource :=
  ⟨id, now + guint (glong (R.counted.rvector * R.view.timeout)), .relax ⟨s, R.counted.rvector, R.view.timeout⟩⟩

/-- The entries of the arm of an action. -/
def armOutputs : List Output :=
  let push := R.selected.actionType.kind.toList.map fun type => Output.pushed type e
  let reset := if R.selected.resets then [Output.statement (.updateRvector s 0)] else []
  let start := if R.startsTimer then [Output.timeoutAdded (R.newTimer s id now)] else []
  match R.selected.actionType with
  | .contextReset | .platformRestart => reset ++ push
  | _ => push ++ reset ++ start

/-- The entries of a crash. -/
def crashOutputs : List Output :=
  [.crashDetected (some s) e.cause, .statement (.updateRvector s (R.view.rvector + 1))] ++
    (if R.selected.actionType ≠ .invalid then
      [.actionRequired R.selected.actionType (some s) (R.view.rvector + 1) e.cause] else []) ++
    R.armOutputs s e id now

private theorem next_type : (R.next.map (·.actionType)).getD .invalid = R.selected.actionType := by
  unfold selected
  cases R.next <;> rfl

private theorem next_reset : (R.next.map (·.resetAfter)).getD false = R.selected.resetAfter := by
  unfold selected
  cases R.next <;> rfl

theorem crash_eq : R.crash s e id now =
    ⟨if R.selected.resets then R.counted.setRvector 0 else R.counted,
      R.timers ++ (if R.startsTimer then [R.newTimer s id now] else []),
      R.history ++ R.crashOutputs s e id now⟩ := by
  have htimer : ∀ (l : List GSource) (h : List Output),
      (Recovery.mk R.counted l h).trigger s id now =
        ⟨R.counted, l ++ (if 0 < R.counted.rvector ∧ 0 < R.view.timeout then [R.newTimer s id now] else []),
          h ++ (if 0 < R.counted.rvector ∧ 0 < R.view.timeout then [.timeoutAdded (R.newTimer s id now)] else [])⟩ := by
    intro l h
    have ht : R.counted.timeout = R.view.timeout := View.setRvector_timeout _ _
    unfold trigger
    by_cases hp : 0 < R.counted.rvector ∧ 0 < R.view.timeout
    · rw [if_neg (by dsimp only; omega), if_pos hp, if_pos hp]
      simp only [start, timer, newTimer, ht]
    · rw [if_pos (by dsimp only; omega), if_neg hp, if_neg hp]
      simp
  unfold crash
  dsimp only
  rw [next_type, next_reset]
  unfold crashOutputs armOutputs startsTimer
  generalize R.selected = a
  obtain ⟨type, reset, retry⟩ := a
  have hv : R.view.setRvector (R.view.rvector + 1) = R.counted := rfl
  cases type <;> cases reset <;>
    simp [perform, pushThenRelax, resetIf, report, emit, setRvector, ActionSettings.resets, ActionSettings.relaxes,
      RmgActionType.kind, htimer, hv]

variable {R}

theorem counted_rvector (h : R.view.hash ≠ 0) : R.counted.rvector = R.view.rvector + 1 :=
  View.setRvector_rvector (View.services_ne_nil h) _

theorem crash_rvector (h : R.view.hash ≠ 0) :
    (R.crash s e id now).view.rvector = if R.selected.resets then 0 else R.view.rvector + 1 := by
  rw [crash_eq]
  dsimp only
  split
  · exact View.setRvector_zero_rvector _
  · exact counted_rvector h

@[simp] theorem crash_hash : (R.crash s e id now).view.hash = R.view.hash := by
  rw [crash_eq]
  dsimp only
  split <;> simp [counted]

@[simp] theorem crash_actions : (R.crash s e id now).view.actions = R.view.actions := by
  rw [crash_eq]
  dsimp only
  split <;> simp [counted]

@[simp] theorem crash_timeout : (R.crash s e id now).view.timeout = R.view.timeout := by
  rw [crash_eq]
  dsimp only
  split <;> simp [counted]

theorem crash_timers : (R.crash s e id now).timers =
    R.timers ++ (if R.startsTimer then [R.newTimer s id now] else []) := by
  rw [crash_eq]

theorem crash_history : (R.crash s e id now).history = R.history ++ R.crashOutputs s e id now := by
  rw [crash_eq]

theorem expire_rvector (source : GSource) (v : Int) :
    (R.expire s source v).view.rvector = if R.view.rvector = v then 0 else R.view.rvector := by
  unfold expire
  dsimp only
  split
  · exact View.setRvector_zero_rvector _
  · rfl

@[simp] theorem expire_hash (source : GSource) (v : Int) : (R.expire s source v).view.hash = R.view.hash := by
  unfold expire
  dsimp only
  split
  · exact View.setRvector_hash _ _
  · rfl

@[simp] theorem expire_actions (source : GSource) (v : Int) :
    (R.expire s source v).view.actions = R.view.actions := by
  unfold expire
  dsimp only
  split <;> rfl

@[simp] theorem expire_timeout (source : GSource) (v : Int) :
    (R.expire s source v).view.timeout = R.view.timeout := by
  unfold expire
  dsimp only
  split
  · exact View.setRvector_timeout _ _
  · rfl

theorem expire_history (source : GSource) (v : Int) : (R.expire s source v).history =
    R.history ++ .timeoutExpired source :: (if R.view.rvector = v then [.statement (.updateRvector s 0)] else []) := by
  unfold expire
  dsimp only
  split <;> simp [emit, setRvector]

end Recovery

/-! ### What the history says -/

def Output.crashed : Output → Bool
  | .crashDetected .. => true
  | _ => false

def Output.pushedType : Output → Option ExecutorEventType
  | .pushed type _ => some type
  | _ => none

def Output.required : Output → Option (RmgActionType × Int)
  | .actionRequired type _ rvector _ => some (type, rvector)
  | _ => none

namespace Recovery

/-- The number of crashes handled. -/
def crashes (R : Recovery) : Nat := R.history.countP Output.crashed

/-- The recovery events pushed, in order. -/
def pushes (R : Recovery) : List ExecutorEventType := R.history.filterMap Output.pushedType

/-- The actions selected with their levels, in order. -/
def required (R : Recovery) : List (RmgActionType × Int) := R.history.filterMap Output.required

/-- One more entry: a crash opens an answer, a push is added to the last one. -/
def answer (acc : List (List ExecutorEventType)) : Output → List (List ExecutorEventType)
  | .crashDetected .. => acc ++ [[]]
  | .pushed type _ => acc.dropLast ++ [acc.getLast?.getD [] ++ [type]]
  | _ => acc

/-- For each crash handled the recovery events that it pushed. -/
def answers (R : Recovery) : List (List ExecutorEventType) := R.history.foldl answer []

variable (R : Recovery) (s : String) (e : RmgDEvent) (id now : Nat)

theorem crashes_crash : (R.crash s e id now).crashes = R.crashes + 1 := by
  unfold crashes
  rw [crash_history, List.countP_append]
  unfold crashOutputs armOutputs
  generalize R.selected = a
  obtain ⟨type, reset, retry⟩ := a
  cases type <;> cases reset <;> cases R.startsTimer <;>
    simp [ActionSettings.resets, RmgActionType.kind] <;> rfl

theorem pushes_crash : (R.crash s e id now).pushes = R.pushes ++ R.selected.actionType.kind.toList := by
  unfold pushes
  rw [crash_history, List.filterMap_append]
  unfold crashOutputs armOutputs
  generalize R.selected = a
  obtain ⟨type, reset, retry⟩ := a
  cases type <;> cases reset <;> cases R.startsTimer <;>
    simp [ActionSettings.resets, RmgActionType.kind, Output.pushedType] <;> rfl

theorem required_crash : (R.crash s e id now).required = R.required ++
    (if R.selected.actionType ≠ .invalid then [(R.selected.actionType, R.view.rvector + 1)] else []) := by
  unfold required
  rw [crash_history, List.filterMap_append]
  unfold crashOutputs armOutputs
  generalize R.selected = a
  obtain ⟨type, reset, retry⟩ := a
  cases type <;> cases reset <;> cases R.startsTimer <;>
    simp [ActionSettings.resets, RmgActionType.kind, Output.required] <;> rfl

theorem answers_crash : (R.crash s e id now).answers = R.answers ++ [R.selected.actionType.kind.toList] := by
  unfold answers
  rw [crash_history, List.foldl_append]
  generalize R.history.foldl answer [] = acc
  unfold crashOutputs armOutputs
  generalize R.selected = a
  obtain ⟨type, reset, retry⟩ := a
  cases type <;> cases reset <;> cases R.startsTimer <;>
    simp [ActionSettings.resets, RmgActionType.kind, answer]

theorem crashes_expire (source : GSource) (v : Int) : (R.expire s source v).crashes = R.crashes := by
  unfold crashes
  rw [expire_history, List.countP_append]
  split <;> simp [Output.crashed]

theorem pushes_expire (source : GSource) (v : Int) : (R.expire s source v).pushes = R.pushes := by
  unfold pushes
  rw [expire_history, List.filterMap_append]
  split <;> simp [List.filterMap_cons, Output.pushedType]

theorem required_expire (source : GSource) (v : Int) : (R.expire s source v).required = R.required := by
  unfold required
  rw [expire_history, List.filterMap_append]
  split <;> simp [List.filterMap_cons, Output.required]

theorem answers_expire (source : GSource) (v : Int) : (R.expire s source v).answers = R.answers := by
  unfold answers
  rw [expire_history, List.foldl_append]
  split <;> rfl

end Recovery

/-! ### What an instance does, as moves -/

namespace Instance

variable {w : Instance} {s s' : String} {event : EventRef}

theorem recovery_emit {o : Output} (h : o.subject = some s) (w : Instance) :
    (w.emit o).recovery s = (w.recovery s).emit o := by
  simp [recovery, history, emit, h, Recovery.emit]

theorem recovery_emit_of_ne {o : Output} (h : o.subject ≠ some s) (w : Instance) :
    (w.emit o).recovery s = w.recovery s :=
  @apply_quietFor_recovery w (.emit o) true s h

theorem recovery_setRvector (w : Instance) (s : String) (x : Int) :
    (w.setRvector s x).recovery s = (w.recovery s).setRvector s x := by
  have hv : (w.setRvector s x).journal.view s = (w.journal.view s).setRvector x :=
    Sql.effect_onView (q := .updateRvector s x) rfl rfl
  rw [recovery, recovery, hv]
  simp [history, setRvector, Recovery.setRvector, Output.subject, Sql.target]

theorem recovery_setRvector_of_ne (h : s' ≠ s) (w : Instance) (x : Int) :
    (w.setRvector s' x).recovery s = w.recovery s :=
  recovery_commit (w := w) (q := .updateRvector s' x) rfl (by simpa [Sql.target] using h)

theorem recovery_pushExecutor {type : ExecutorEventType} (ht : type.isRecovery)
    (he : (w.heap event).type = .serviceCrashed) (hs : (w.heap event).serviceName = some s) :
    (w.pushExecutor type event).recovery s = (w.recovery s).emit (.pushed type (w.heap event)) := by
  simp [recovery, history, pushExecutor, Recovery.emit, Output.subject, ht, he, hs]

theorem recovery_pushExecutor_of_ne {type : ExecutorEventType}
    (h : (Output.pushed type (w.heap event)).subject ≠ some s) :
    (w.pushExecutor type event).recovery s = w.recovery s := by
  simp [recovery, history, pushExecutor, h]

theorem recovery_triggered (w : Instance) (s : String) :
    (w.triggered s).recovery s = (w.recovery s).trigger s w.nextSource w.now := by
  unfold triggered Recovery.trigger
  by_cases h : w.journal.rvectorOf s ≤ 0 ∨ w.journal.timeoutOf s ≤ 0
  · rw [if_pos h, if_pos (show (w.recovery s).view.rvector ≤ 0 ∨ (w.recovery s).view.timeout ≤ 0 from h)]
  · rw [if_neg h, if_neg (show ¬ ((w.recovery s).view.rvector ≤ 0 ∨ (w.recovery s).view.timeout ≤ 0) from h)]
    simp [recovery, history, addTimeout, Recovery.start, Recovery.timer, Output.subject, GSource.relaxes]
    exact ⟨rfl, rfl, rfl⟩

theorem recovery_triggered_of_ne (h : s' ≠ s) (w : Instance) : (w.triggered s').recovery s = w.recovery s := by
  unfold triggered
  split
  · rfl
  · exact @apply_quietFor_recovery w (.timeoutAddSeconds _ (.relax ⟨s', _, _⟩)) true s h

section crash
variable (he : (w.heap event).type = .serviceCrashed) (hs : (w.heap event).serviceName = some s)
include he hs

private theorem recovery_pushedThenRelaxed {type : ExecutorEventType} (ht : type.isRecovery) (reset : Bool) :
    (w.pushedThenRelaxed s event type reset).recovery s =
      (w.recovery s).pushThenRelax s (w.heap event) w.nextSource w.now type reset := by
  have hp := recovery_pushExecutor (w := w) ht he hs
  unfold pushedThenRelaxed Recovery.pushThenRelax
  split
  · rw [recovery_setRvector, hp]
  · rw [recovery_triggered, hp]
    rfl

private theorem recovery_resetIf_pushed {type : ExecutorEventType} (ht : type.isRecovery) (reset : Bool) :
    ((w.resetIf s reset).pushExecutor type event).recovery s =
      ((w.recovery s).resetIf s reset).emit (.pushed type (w.heap event)) := by
  unfold resetIf Recovery.resetIf
  split
  · have hp := recovery_pushExecutor (w := w.setRvector s 0) ht he hs
    rw [hp, recovery_setRvector]
    rfl
  · exact recovery_pushExecutor ht he hs

theorem recovery_performed (type : RmgActionType) (reset : Bool) : (w.performed s event type reset).recovery s =
    (w.recovery s).perform s (w.heap event) w.nextSource w.now type reset := by
  cases type with
  | serviceIgnore => exact recovery_setRvector w s 0
  | serviceReset | publicDataReset | privateDataReset | serviceDisable => exact recovery_pushedThenRelaxed he hs rfl _
  | contextReset | platformRestart => exact recovery_resetIf_pushed he hs rfl _
  | factoryReset => exact recovery_pushExecutor rfl he hs
  | invalid | guruMeditation => rfl

omit he hs in
private theorem recovery_reported (type : RmgActionType) (rvector : Int) :
    (w.reported s event type rvector).recovery s = (w.recovery s).report s (w.heap event) type rvector := by
  unfold reported Recovery.report
  split
  · exact recovery_emit rfl w
  · rfl

omit he hs in
/-- What the two getters find after the increment. -/
private theorem selected_setRvector (hh : (w.journal.view s).hash ≠ 0) :
    (w.setRvector s ((w.recovery s).view.rvector + 1)).selected s =
      (((w.recovery s).next.map (·.actionType)).getD .invalid,
        ((w.recovery s).next.map (·.resetAfter)).getD false) := by
  have hr : (w.setRvector s ((w.recovery s).view.rvector + 1)).journal.rvectorOf s =
      (w.recovery s).view.rvector + 1 := Journal.rvectorOf_setRvector hh _
  have ha : (w.setRvector s ((w.recovery s).view.rvector + 1)).journal.actionsOf s = (w.recovery s).view.actions :=
    congrArg (View.actions ∘ Recovery.view) (recovery_setRvector w s _)
  rw [selected, hr, ha, actionAt_eq, resetAt_eq]
  rfl

/-- The crash handler up to the end of the switch, as a move. -/
theorem recovery_escalated (hh : (w.journal.view s).hash ≠ 0) :
    ((w.emit (.crashDetected (some s) (w.heap event).cause)).escalated s event).recovery s =
      (w.recovery s).crash s (w.heap event) w.nextSource w.now := by
  have hsel := selected_setRvector (w := w.emit (.crashDetected (some s) (w.heap event).cause)) (s := s) hh
  have hemit := recovery_emit (o := .crashDetected (some s) (w.heap event).cause) (s := s) rfl w
  unfold escalated Recovery.crash
  dsimp only
  rw [recovery_performed (by rw [reported_heap]; exact he) (by rw [reported_heap]; exact hs), recovery_reported,
    recovery_setRvector, reported_heap, reported_nextSource, reported_now]
  rw [hemit] at hsel ⊢
  rw [show (w.emit (.crashDetected (some s) (w.heap event).cause)).journal.rvectorOf s + 1 =
    ((w.recovery s).emit (.crashDetected (some s) (w.heap event).cause)).view.rvector + 1 from rfl, hsel]
  rfl

end crash

section others
variable (hne : s' ≠ s) (hs : (w.heap event).serviceName = some s')
include hne hs

private theorem subject_pushed_ne (type : ExecutorEventType) :
    (Output.pushed type (w.heap event)).subject ≠ some s := by
  show (if type.isRecovery ∧ (w.heap event).type = .serviceCrashed then (w.heap event).serviceName else none) ≠ some s
  split
  · rw [hs]
    exact fun e => hne (Option.some.inj e)
  · simp

private theorem recovery_performed_of_ne (type : RmgActionType) (reset : Bool) :
    (w.performed s' event type reset).recovery s = w.recovery s := by
  have hpush : ∀ t, (w.pushExecutor t event).recovery s = w.recovery s := fun t =>
    recovery_pushExecutor_of_ne (subject_pushed_ne hne hs t)
  have hrelax : ∀ t, (w.pushedThenRelaxed s' event t reset).recovery s = w.recovery s := fun t => by
    unfold pushedThenRelaxed
    split
    · rw [recovery_setRvector_of_ne hne, hpush]
    · rw [recovery_triggered_of_ne hne, hpush]
  have hrestart : ∀ t, ((w.resetIf s' reset).pushExecutor t event).recovery s = w.recovery s := fun t => by
    unfold resetIf
    split
    · rw [recovery_pushExecutor_of_ne (subject_pushed_ne (w := w.setRvector s' 0) hne hs t),
        recovery_setRvector_of_ne hne]
    · exact hpush t
  cases type with
  | serviceIgnore => exact recovery_setRvector_of_ne hne w 0
  | serviceReset | publicDataReset | privateDataReset | serviceDisable => exact hrelax _
  | contextReset | platformRestart => exact hrestart _
  | factoryReset => exact hpush _
  | invalid | guruMeditation => rfl

/-- The crash of one service does not concern another. -/
theorem recovery_escalated_of_ne : (w.escalated s' event).recovery s = w.recovery s := by
  unfold escalated
  dsimp only
  rw [recovery_performed_of_ne hne (by rw [reported_heap]; exact hs)]
  unfold reported
  split
  · rw [recovery_emit_of_ne (by simpa [Output.subject] using hne), recovery_setRvector_of_ne hne]
  · exact recovery_setRvector_of_ne hne w _

end others

theorem after_bind {α : Type} {p : Proc α} {f : α → Proc PUnit} {a : α} {w' : Instance} (h : w.run p = (some a, w')) :
    w.after (p >>= f) = w'.after (f a) := by
  rw [after, run_bind h]
  rfl

end Instance

/-! ### Refinement -/

/-- The statements of a reload: no rvector but zero is written. -/
def Sql.Reloading : Sql → Prop
  | .insertService row => row.rvector = 0
  | .updateRvector .. => False
  | _ => True

/-- What is known of a step that moves a service. -/
structure Recovery.Setting where
  /-- The step does not change the unit of the service. -/
  fixed : Prop
  /-- The process runs before the step. -/
  running : Prop
  /-- The process runs after the step. -/
  alive : Prop
  /-- The step takes a crash of the service from the dispatcher queue. -/
  crashes : Prop

/-- The moves of one service.  A boot replays statements of a reload, and when the process is alive afterwards it has
started a timer for an rvector that waits to relax. -/
inductive Recovery.Move (s : String) (c : Setting) (R : Recovery) : Recovery → Prop
  | uncovered (cause : Cause) : R.view.hash = 0 →
      Move s c R ((R.emit (.crashDetected (some s) cause)).emit (.noRecoveryUnit (some s) cause))
  | crash {e : RmgDEvent} (id now : Nat) : c.crashes → e.type = .serviceCrashed → e.serviceName = some s →
      R.view.hash ≠ 0 → Move s c R (R.crash s e id now)
  | expire {source : GSource} {t : RmgRelaxTimer} : c.running → source ∈ R.timers → source.data = .relax t →
      Move s c R (R.expire s source t.rvector)
  | boot {v : View} {qs : List Sql} {new : List GSource} : v = replay s qs R.view →
      (∀ q ∈ qs, q.target = some s ∧ q.Reloading) → (c.fixed → qs = []) →
      (∀ source ∈ new, source.data = .relax ⟨s, v.rvector, v.timeout⟩ ∧ 0 < v.rvector ∧ 0 < v.timeout) →
      (c.alive → 0 < v.rvector → 0 < v.timeout → new ≠ []) →
      Move s c R ⟨v, new, R.history ++ qs.map .statement ++ new.map .timeoutAdded⟩

namespace Instance

variable {glib : GLib} {w w' : Instance} {s : String} {l : Label}

theorem after_doProcessServiceCrashEvent {s' : String} {event : EventRef} (hs : (w.heap event).serviceName = some s')
    (hh : w.journal.hashOf s' ≠ 0) : (w.after (doProcessServiceCrashEvent event)).recovery s =
      (w.escalated s' event).recovery s := by
  have h : w.after (doProcessServiceCrashEvent event) = (w.escalated s' event).after (informServiceFailed event) := by
    rw [after, after, run_doProcessServiceCrashEvent hs hh]
  rw [h, recovery_of_quiet (calls_informServiceFailed event)]

/-- The work on a crash of the service. -/
theorem recovery_of_dispatch_crash {event : EventRef} (ht : (w.heap event).type = .serviceCrashed)
    (hs : (w.heap event).serviceName = some s) : (w.after (dispatcherSourceCallback event)).recovery s =
      (w.recovery s).handle s (w.heap event) w.nextSource w.now := by
  unfold dispatcherSourceCallback
  rw [after_bind (run_load w event), ht]
  dsimp only
  have hout : w.run (output (.crashDetected (w.heap event).serviceName (w.heap event).cause)) =
      (some ⟨⟩, w.emit (.crashDetected (some s) (w.heap event).cause)) := by
    rw [hs]
    rfl
  rw [after_bind hout]
  have hs' : ((w.emit (.crashDetected (some s) (w.heap event).cause)).heap event).serviceName = some s := hs
  unfold Recovery.handle
  by_cases hh : (w.recovery s).view.hash = 0
  · rw [after_of_run (run_doProcessServiceCrashEvent_of_zero hs' hh), recovery_emit rfl, recovery_emit rfl, if_pos hh]
    rfl
  · rw [after_doProcessServiceCrashEvent hs' hh, recovery_escalated ht hs hh, if_neg hh]

/-- The work on any other event. -/
theorem recovery_of_dispatch_other {event : EventRef}
    (h : (w.heap event).type = .serviceCrashed → (w.heap event).serviceName ≠ some s) :
    (w.after (dispatcherSourceCallback event)).recovery s = w.recovery s := by
  have hremote : ∀ type, (w.heap event).type ≠ .serviceCrashed →
      (w.after (rmgExecutorPushEvent type event)).recovery s = w.recovery s := by
    intro type ht
    have h : w.after (rmgExecutorPushEvent type event) = w.pushExecutor type event := after_of_run rfl
    rw [h]
    exact recovery_pushExecutor_of_ne (by simp [Output.subject, ht])
  unfold dispatcherSourceCallback
  rw [after_bind (run_load w event)]
  cases ht : (w.heap event).type with
  | informProcessCrash =>
    exact recovery_of_quiet ((calls_doFriendProcessCrashEvent event).mono fun _ h =>
      h.quiet rfl) w
  | informServiceFailed =>
    exact recovery_of_quiet ((calls_doFriendServiceFailedEvent event).mono fun _ h =>
      h.quiet rfl) w
  | remoteContextRestart | remotePlatformRestart | remoteFactoryReset => exact hremote _ (by simp [ht])
  | serviceRestarted | unknown => rfl
  | serviceCrashed =>
    have hne := h ht
    dsimp only
    have hout : w.run (output (.crashDetected (w.heap event).serviceName (w.heap event).cause)) =
        (some ⟨⟩, w.emit (.crashDetected (w.heap event).serviceName (w.heap event).cause)) := rfl
    have hsub : (Output.crashDetected (w.heap event).serviceName (w.heap event).cause).subject ≠ some s := hne
    have hemit := recovery_emit_of_ne hsub w
    rw [after_bind hout, ← hemit]
    generalize hw₁ : w.emit (.crashDetected (w.heap event).serviceName (w.heap event).cause) = w₁
    have hname : (w₁.heap event).serviceName = (w.heap event).serviceName := by rw [← hw₁]; rfl
    cases hs : (w.heap event).serviceName with
    | none =>
      -- the journal function aborts on a null name
      have h : w₁.run (doProcessServiceCrashEvent event) = (none, w₁) := by
        unfold doProcessServiceCrashEvent
        rw [run_bind (run_load _ event)]
        show run _ (rmgJournalGetHash (w₁.heap event).serviceName >>= _) = _
        rw [hname, hs]
        rfl
      rw [after, h]
      rfl
    | some s' =>
      rw [hs] at hname hne
      have hne : s' ≠ s := fun e => hne (congrArg some e)
      by_cases hh : w₁.journal.hashOf s' = 0
      · rw [after_of_run (run_doProcessServiceCrashEvent_of_zero hname hh)]
        exact recovery_emit_of_ne (by simpa [Output.subject] using hne) w₁
      · rw [after_doProcessServiceCrashEvent hname hh, recovery_escalated_of_ne hne hname]

/-- Taking an event from the dispatcher queue. -/
theorem move_of_dispatch {c : Recovery.Setting} (event : EventRef)
    (hc : (w.heap event).type = .serviceCrashed → (w.heap event).serviceName = some s → c.crashes) :
    (w.after (dispatcherSourceCallback event)).recovery s = w.recovery s ∨
      Recovery.Move s c (w.recovery s) ((w.after (dispatcherSourceCallback event)).recovery s) := by
  by_cases h : (w.heap event).type = .serviceCrashed ∧ (w.heap event).serviceName = some s
  · obtain ⟨ht, hs⟩ := h
    refine .inr ?_
    rw [recovery_of_dispatch_crash ht hs]
    unfold Recovery.handle
    split
    · rename_i hh
      exact .uncovered _ hh
    · rename_i hh
      exact .crash _ _ (hc ht hs) ht hs hh
  · exact .inl (recovery_of_dispatch_other fun ht hs => h ⟨ht, hs⟩)

/-- The expiry of a timer that is no relax timer of the service. -/
theorem recovery_of_expire_other {source : GSource} (hr : source.relaxes s = false) :
    (({ w with sources := w.sources.filter (· ≠ source) }.emit (.timeoutExpired source)).after
      (timerCallback source.data)).recovery s = w.recovery s := by
  have hother : ({ w with sources := w.sources.filter (· ≠ source) } : Instance).recovery s = w.recovery s := by
    have : (w.sources.filter (· ≠ source)).filter (·.relaxes s) = w.sources.filter (·.relaxes s) := by
      rw [List.filter_filter]
      refine List.filter_congr fun x _ => ?_
      by_cases hx : x = source
      · simp [hx, hr]
      · simp [hx]
    rw [recovery, recovery, this]
    rfl
  cases hd : source.data with
  | friend t =>
    rw [timerCallback, recovery_of_quiet ((calls_friendtimerCallback t).mono fun _ h => h.1),
      recovery_emit_of_ne (by obtain ⟨_, _, _⟩ := source; cases hd; simp [Output.subject]), hother]
  | relax t =>
    have hs : t.serviceName ≠ s := by simpa [GSource.relaxes, hd] using hr
    have hne : (Output.timeoutExpired source).subject ≠ some s := by
      obtain ⟨_, _, _⟩ := source
      cases hd
      exact fun e => hs (Option.some.inj e)
    have h := (recovery_emit_of_ne hne { w with sources := w.sources.filter (· ≠ source) }).trans hother
    rw [timerCallback, after_of_run (run_relaxtimerCallback _ t)]
    split
    · rw [recovery_setRvector_of_ne hs, h]
    · exact h

/-- The expiry of a relax timer of the service. -/
theorem recovery_of_expire_relax {source : GSource} {t : RmgRelaxTimer} (hd : source.data = .relax t) :
    (({ w with sources := w.sources.filter (· ≠ source) }.emit (.timeoutExpired source)).after
      (timerCallback source.data)).recovery t.serviceName =
        (w.recovery t.serviceName).expire t.serviceName source t.rvector := by
  have hsub : (Output.timeoutExpired source).subject = some t.serviceName := by
    obtain ⟨_, _, _⟩ := source
    cases hd
    rfl
  have hrec : ((({ w with sources := w.sources.filter (· ≠ source) } : Instance).emit
      (.timeoutExpired source)).recovery t.serviceName) =
        ({ w.recovery t.serviceName with
          timers := (w.recovery t.serviceName).timers.filter (· ≠ source) }).emit (.timeoutExpired source) := by
    rw [recovery_emit hsub]
    simp only [recovery, List.filter_filter, Bool.and_comm]
    rfl
  rw [hd, timerCallback, after_of_run (run_relaxtimerCallback _ t)]
  unfold Recovery.expire
  dsimp only
  split
  · rename_i h
    rw [recovery_setRvector, hrec, if_pos (show (w.recovery t.serviceName).view.rvector = t.rvector from h)]
  · rename_i h
    rw [hrec, if_neg (show ¬ (w.recovery t.serviceName).view.rvector = t.rvector from h)]

/-- The callback of a timeout. -/
theorem move_of_expire {c : Recovery.Setting} {source : GSource} (hc : c.running) (hsrc : source ∈ w.sources) :
    ((({ w with sources := w.sources.filter (· ≠ source) }.emit (.timeoutExpired source)).after
        (timerCallback source.data)).recovery s = w.recovery s) ∨
      Recovery.Move s c (w.recovery s)
        ((({ w with sources := w.sources.filter (· ≠ source) }.emit (.timeoutExpired source)).after
          (timerCallback source.data)).recovery s) := by
  by_cases hr : source.relaxes s
  · obtain ⟨t, hd, rfl⟩ : ∃ t, source.data = .relax t ∧ t.serviceName = s := by
      cases hd : source.data with
      | friend t => simp [GSource.relaxes, hd] at hr
      | relax t => exact ⟨t, rfl, by simpa [GSource.relaxes, hd] using hr⟩
    refine .inr ?_
    rw [recovery_of_expire_relax hd]
    exact .expire hc (List.mem_filter.2 ⟨hsrc, hr⟩) hd
  · exact .inl (recovery_of_expire_other (by simpa using hr))

end Instance

end RecoveryManager
