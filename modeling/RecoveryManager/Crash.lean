import RecoveryManager.MainLoop

/-!
# Handling a crash

What `do_process_service_crash_event` makes of an instance when the statements go through: `Instance.escalated` is the
instance at the end of the switch, and the handler then goes on with `informServiceFailed`
(`run_doProcessServiceCrashEvent`).
-/

namespace RecoveryManager

open Fallible Fallible.Prog

/-- The executor event an action is carried out by. -/
def RmgActionType.kind : RmgActionType → Option ExecutorEventType
  | .serviceReset => some .serviceRestart
  | .publicDataReset => some .serviceResetPublicData
  | .privateDataReset => some .serviceResetPrivateData
  | .serviceDisable => some .serviceDisable
  | .contextReset => some .contextRestart
  | .platformRestart => some .platformRestart
  | .factoryReset => some .factoryReset
  | .serviceIgnore | .guruMeditation | .invalid => none

namespace Instance

variable (w : Instance) (s : String) (event : EventRef)

def resetIf (reset : Bool) : Instance := if reset then w.setRvector s 0 else w

/-- The arms of the actions on the service itself. -/
def pushedThenRelaxed (type : ExecutorEventType) (reset : Bool) : Instance :=
  if reset then (w.pushExecutor type event).setRvector s 0 else (w.pushExecutor type event).triggered s

def performed (type : RmgActionType) (reset : Bool) : Instance :=
  match type with
  | .serviceIgnore => w.setRvector s 0
  | .serviceReset => w.pushedThenRelaxed s event .serviceRestart reset
  | .publicDataReset => w.pushedThenRelaxed s event .serviceResetPublicData reset
  | .privateDataReset => w.pushedThenRelaxed s event .serviceResetPrivateData reset
  | .serviceDisable => w.pushedThenRelaxed s event .serviceDisable reset
  | .contextReset => (w.resetIf s reset).pushExecutor .contextRestart event
  | .platformRestart => (w.resetIf s reset).pushExecutor .platformRestart event
  | .factoryReset => w.pushExecutor .factoryReset event
  | .invalid | .guruMeditation => w

def reported (type : RmgActionType) (rvector : Int) : Instance :=
  if type ≠ .invalid then w.emit (.actionRequired type (some s) rvector (w.heap event).cause) else w

/-- The action and the flag of the level that is stored. -/
def selected : RmgActionType × Bool :=
  (actionAt (w.journal.actionsOf s) (w.journal.rvectorOf s), resetAt (w.journal.actionsOf s) (w.journal.rvectorOf s))

/-- The instance when the handler has counted the crash and performed the action of the new level. -/
def escalated : Instance :=
  let w₁ := w.setRvector s (w.journal.rvectorOf s + 1)
  (w₁.reported s event (w₁.selected s).1 (w.journal.rvectorOf s + 1)).performed s event (w₁.selected s).1
    (w₁.selected s).2

theorem run_load : w.run (load event) = (some (w.heap event), w) := rfl

variable {w s event}

theorem run_resetRvector (hs : (w.heap event).serviceName = some s) :
    w.run (resetRvector event) = (some ⟨⟩, w.setRvector s 0) := by
  unfold resetRvector
  rw [run_bind (run_load w event), hs, run_bind (run_rmgJournalSetRvector w s 0)]
  rfl

theorem run_doRelaxtimerStart (hs : (w.heap event).serviceName = some s) :
    w.run (doRelaxtimerStart event) = (some ⟨⟩, w.triggered s) := by
  obtain ⟨r, hr⟩ := run_rmgRelaxtimerTrigger w s
  unfold doRelaxtimerStart
  rw [run_bind (run_load w event), hs, run_bind hr]
  rfl

private theorem run_pushThenRelax (hs : (w.heap event).serviceName = some s) (type : ExecutorEventType) (reset : Bool) :
    w.run (pushThenRelax type event reset) = (some ⟨⟩, w.pushedThenRelaxed s event type reset) := by
  have hs' : ((w.pushExecutor type event).heap event).serviceName = some s := hs
  unfold pushThenRelax pushedThenRelaxed
  have hpush : w.run (rmgExecutorPushEvent type event) = (some ⟨⟩, w.pushExecutor type event) := rfl
  rw [run_bind hpush]
  cases reset with
  | true => exact run_resetRvector hs'
  | false => exact run_doRelaxtimerStart hs'

private theorem run_resetThenPush (hs : (w.heap event).serviceName = some s) (type : ExecutorEventType) (reset : Bool) :
    w.run (resetThenPush type event reset) = (some ⟨⟩, (w.resetIf s reset).pushExecutor type event) := by
  unfold resetThenPush
  cases reset with
  | true =>
    show w.run (resetRvector event >>= _) = _
    rw [run_bind (run_resetRvector hs)]
    rfl
  | false => rfl

theorem run_performAction (hs : (w.heap event).serviceName = some s) (type : RmgActionType) (reset : Bool) :
    w.run (performAction type reset event) = (some ⟨⟩, w.performed s event type reset) := by
  cases type with
  | serviceIgnore => exact run_resetRvector hs
  | serviceReset | publicDataReset | privateDataReset | serviceDisable => exact run_pushThenRelax hs _ reset
  | contextReset | platformRestart => exact run_resetThenPush hs _ reset
  | factoryReset | invalid | guruMeditation => rfl

private theorem run_reportAction (hs : (w.heap event).serviceName = some s) (type : RmgActionType) (rvector : Int) :
    w.run (reportAction type rvector (w.heap event)) = (some ⟨⟩, w.reported s event type rvector) := by
  unfold reportAction reported
  rw [hs]
  split <;> rfl

@[simp] theorem reported_heap (type : RmgActionType) (rvector : Int) :
    (w.reported s event type rvector).heap = w.heap := by
  unfold reported
  split <;> rfl

@[simp] theorem reported_nextSource (type : RmgActionType) (rvector : Int) :
    (w.reported s event type rvector).nextSource = w.nextSource := by
  unfold reported
  split <;> rfl

@[simp] theorem reported_now (type : RmgActionType) (rvector : Int) :
    (w.reported s event type rvector).now = w.now := by
  unfold reported
  split <;> rfl

/-- Without a recovery unit the crash is only reported. -/
theorem run_doProcessServiceCrashEvent_of_zero (hs : (w.heap event).serviceName = some s)
    (hh : w.journal.hashOf s = 0) : w.run (doProcessServiceCrashEvent event) =
      (some ⟨⟩, w.emit (.noRecoveryUnit (some s) (w.heap event).cause)) := by
  unfold doProcessServiceCrashEvent
  rw [run_bind (run_load w event), hs, run_bind (run_rmgJournalGetHash w s)]
  simp only [hh, Bool.false_eq_true, ↓reduceIte]
  rfl

theorem run_doProcessServiceCrashEvent (hs : (w.heap event).serviceName = some s) (hh : w.journal.hashOf s ≠ 0) :
    w.run (doProcessServiceCrashEvent event) = (w.escalated s event).run (informServiceFailed event) := by
  have hs' : ((w.setRvector s (w.journal.rvectorOf s + 1)).heap event).serviceName = some s := hs
  unfold doProcessServiceCrashEvent
  rw [run_bind (run_load w event), hs, run_bind (run_rmgJournalGetHash w s)]
  simp only [hh, Bool.false_eq_true, ↓reduceIte]
  rw [run_bind (run_rmgJournalGetRvector w s)]
  simp only [Bool.false_eq_true, ↓reduceIte]
  rw [run_bind (run_rmgJournalSetRvector w s _)]
  simp only [escalate]
  rw [run_bind (run_load _ event), hs',
    run_bind (run_rmgJournalGetServiceAction _ s)]
  simp only [Bool.false_eq_true, ↓reduceIte]
  rw [run_bind (run_rmgJournalGetServiceActionResetAfter _ s), run_bind (run_reportAction hs' _ _),
    run_bind (run_performAction (by rw [reported_heap]; exact hs') _ _)]
  rfl

end Instance

end RecoveryManager
