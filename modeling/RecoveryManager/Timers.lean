import RecoveryManager.JournalApi

/-!
# Relax timers and friend timers

`rmg-relaxtimer.c` and `rmg-friendtimer.c`.  A relax timer remembers the rvector it was started at; when it expires
and the stored rvector is still that number, the service is taken as recovered and its rvector set to zero.  Nothing
cancels a timer.
-/

namespace RecoveryManager

open Fallible Fallible.Prog

def relaxtimerCallback (relaxtimer : RmgRelaxTimer) : Proc PUnit := do
  let (currentRvector, error) ← rmgJournalGetRvector (some relaxtimer.serviceName)
  if error then pure ⟨⟩
  else if currentRvector = relaxtimer.rvector then
    let _ ← rmgJournalSetRvector (some relaxtimer.serviceName) 0
  else pure ⟨⟩

/-- No timer is started for an rvector or a timeout that is not positive.  The delay is narrowed to `guint`. -/
def rmgRelaxtimerTrigger (serviceName : Option String) : Proc (Nat × Bool) := do
  let name ← gAssertName serviceName
  let (rvector, rvectorError) ← rmgJournalGetRvector serviceName
  if rvector ≤ 0 then pure (0, rvectorError)
  else
    let (timeout, timeoutError) ← rmgJournalGetRelaxingTimeout serviceName
    if timeout ≤ 0 then pure (0, rvectorError || timeoutError)
    else
      let source ← Prog.call (.timeoutAddSeconds (guint (glong (rvector * timeout))) (.relax ⟨name, rvector, timeout⟩))
        .ret
      pure (source, rvectorError || timeoutError)

def rmgFriendtimerTrigger (serviceName : String) (action : RmgFriendActionType) (argument : Int) (timeout : Nat) :
    Proc PUnit := do
  let _ ← Prog.call (.timeoutAddSeconds timeout (.friend ⟨serviceName, action, argument⟩)) .ret

/-- The bus call for the action; an unknown action only warns.  Without a proxy there is no call: all actions but
signal look at the proxy first, and a call on a null proxy comes back at once. -/
def friendtimerCallback (ftimer : RmgFriendTimer) : Proc PUnit := do
  let sdManagerProxy : Bool ← Prog.call .getManagerProxy .ret
  match ftimer.action with
  | .start | .stop | .restart | .signal =>
    if sdManagerProxy then Prog.call (.emit (.friendAction ftimer)) .ret else pure ⟨⟩
  | _ => pure ⟨⟩

/-- `monitor_start_relax_timers` with its callback `monitor_add_relax_timer`. -/
def monitorAddRelaxTimer (serviceName : String) : Proc PUnit := do
  let _ ← rmgRelaxtimerTrigger (some serviceName)

def monitorStartRelaxTimers : Proc PUnit := do
  let _ ← rmgJournalCallForeachRelaxing monitorAddRelaxTimer

/-! ### When the statements go through -/

namespace Instance

variable (w : Instance) (s : String)

/-- The instance after `rmg_relaxtimer_trigger`. -/
def triggered : Instance :=
  if w.journal.rvectorOf s ≤ 0 ∨ w.journal.timeoutOf s ≤ 0 then w
  else w.addTimeout (guint (glong (w.journal.rvectorOf s * w.journal.timeoutOf s)))
    (.relax ⟨s, w.journal.rvectorOf s, w.journal.timeoutOf s⟩)

theorem run_rmgRelaxtimerTrigger : ∃ r, w.run (rmgRelaxtimerTrigger (some s)) = (some r, w.triggered s) := by
  unfold rmgRelaxtimerTrigger triggered
  rw [run_bind (a := s) rfl, run_bind (run_rmgJournalGetRvector w s)]
  by_cases hr : w.journal.rvectorOf s ≤ 0
  · refine ⟨(0, false), ?_⟩
    simp only [hr, ↓reduceIte, true_or]
    rfl
  · simp only [hr, ↓reduceIte, false_or]
    rw [run_bind (run_rmgJournalGetRelaxingTimeout w s)]
    by_cases ht : w.journal.timeoutOf s ≤ 0
    · refine ⟨(0, false), ?_⟩
      simp only [ht, ↓reduceIte]
      rfl
    · refine ⟨(w.nextSource, false), ?_⟩
      simp only [ht, ↓reduceIte]
      rfl

theorem run_relaxtimerCallback (t : RmgRelaxTimer) : w.run (relaxtimerCallback t) =
    (some ⟨⟩, if w.journal.rvectorOf t.serviceName = t.rvector then w.setRvector t.serviceName 0 else w) := by
  show w.run (if w.journal.rvectorOf t.serviceName = t.rvector then _ else _) = _
  split <;> rfl

end Instance

end RecoveryManager
