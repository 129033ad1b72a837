import RecoveryManager.Contexts

/-!
# Crashes under failing statements

The handler of a crash sends up to nine statements, and any of them may fail.  `failing fails` is the instance on which
statement number `n` fails if `fails n`.  The rvector and the event for the executor stay in step exactly under
`KeepsStep`: once the rvector is counted the action query must succeed, and a reset must be made exactly if the action
demands it.
-/

namespace RecoveryManager

open Fallible Fallible.Prog

namespace Instance

/-! ### Failure patterns -/

def failingApply (fails : Nat → Bool) : (op : Op) → Bool → Instance × Nat → op.Res × Instance × Nat
  | .sql q, _, x => ((apply (.sql q) (!fails x.2) x.1).1, (apply (.sql q) (!fails x.2) x.1).2, x.2 + 1)
  | op, e, x => ((apply op e x.1).1, (apply op e x.1).2, x.2)

/-- An instance with the number of statements tried; sends succeed or fail as they like. -/
def failing (fails : Nat → Bool) : Machine Op Op.Res Bool (Instance × Nat) := ⟨failingApply fails⟩

/-- The executor events of recovery actions, in the queue. -/
def recoveryEvents (w : Instance) : List (ExecutorEventType × EventRef) := w.executorQueue.filter (·.1.isRecovery)

variable {fails : Nat → Bool} {w w' : Instance} {event : EventRef} {s : String}

/-- Between `w` and `w'` an event for a recovery action has been pushed. -/
def PushesRecovery (w w' : Instance) : Prop := w'.recoveryEvents ≠ w.recoveryEvents

end Instance

namespace Journal

variable (j : Journal) (s : String)

/-- The action that the next crash selects. -/
def dueAction : RmgActionType := actionAt (j.actionsOf s) (j.rvectorOf s + 1)

/-- Its reset flag. -/
def dueReset : Bool := resetAt (j.actionsOf s) (j.rvectorOf s + 1)

/-- A factory reset does not care for the rvector, whatever its flag is. -/
def resetDemanded : Bool := j.dueReset s && j.dueAction s ≠ .factoryReset

/-- The service has a recovery unit and its next action is one that the executor carries out. -/
def RecoveryDue : Prop := j.hashOf s ≠ 0 ∧ (j.dueAction s).kind.isSome

/-- The flag that is read at statements 5 and 6: without the level it is the flag of level 0, without the flag it is
off. -/
def flagRead (fails : Nat → Bool) : Bool :=
  if fails 6 then false else resetAt (j.actionsOf s) (if fails 5 then 0 else j.rvectorOf s + 1)

/-- Statements 0 and 1 look up the unit and the rvector, statement 2 counts the crash, statements 3 and 4 select the
action, statements 5 and 6 read its flag, and statement 7 resets the rvector. -/
def KeepsStep (fails : Nat → Bool) : Prop :=
  j.RecoveryDue s → fails 0 = false → fails 1 = false → fails 2 = false →
    (fails 3 = false ∧ fails 4 = false) ∧
      (j.dueAction s ≠ .factoryReset → ((j.flagRead s fails ∧ fails 7 = false) ↔ j.dueReset s) ∨ j.rvectorOf s = -1)

end Journal

namespace Instance

variable {fails : Nat → Bool} {w w' : Instance} {event : EventRef} {s : String}

/-- The rvector and the event for the executor are in step: without the event that is due nothing is counted, and with
one the rvector is advanced, or reset if the action demands it. -/
structure InStep (s : String) (w w' : Instance) : Prop where
  lost : w.journal.RecoveryDue s → ¬ w.PushesRecovery w' → w'.journal.rvectorOf s = w.journal.rvectorOf s
  pushed : w.PushesRecovery w' → w'.journal.rvectorOf s =
    if w.journal.resetDemanded s then 0 else w.journal.rvectorOf s + 1

/-! ### One statement after the other -/

variable {n : Nat}

private theorem triple_sqlSelect {q : Sql} (hq : q.isSelect) : Triple (failing fails) Unreliable (· = (w, n))
    (sqliteExec q) (fun r x => x = (w, n + 1) ∧ r = if fails n then none else some (q.rows w.journal)) fun _ =>
    True := by
  refine .call (fun _ _ => trivial) (R := fun r x => x = (w, n + 1) ∧ r = if fails n then none else
    some (q.rows w.journal)) (fun x e _ hx => ?_) fun _ => .ret fun _ h => h
  subst hx
  have happly : ∀ e, apply (.sql q) e w = (if e then some (q.rows w.journal) else none, w) := by
    intro e
    have heffect : q.effect w.journal = some w.journal := by
      cases q <;> first | rfl | cases hq
    cases e with
    | false => rfl
    | true =>
      simp only [apply, heffect, ↓reduceIte]
      rw [commit_of_isSelect hq]
      rfl
  show ((apply (.sql q) (!fails n) w).2, n + 1) = (w, n + 1) ∧ (apply (.sql q) (!fails n) w).1 = _
  rw [happly]
  cases fails n <;> exact ⟨rfl, rfl⟩

private theorem triple_serviceColumn {α : Type} (response : α) (column : ServiceRow → α) :
    Triple (failing fails) Unreliable (· = (w, n)) (getServiceColumn (some s) response column)
      (fun r x => x = (w, n + 1) ∧ r = if fails n then (response, true) else
        ((w.journal.servicesNamed s).foldl (fun _ r => column r) response, false)) fun _ => True := by
  show Triple _ _ _ (sqliteExec (.selectServices s) >>= _) _ _
  refine Triple.bind (triple_sqlSelect rfl) fun rows => ?_
  cases hn : fails n with
  | true =>
    rintro x o x' ⟨rfl, hrows⟩ h
    simp only [↓reduceIte] at hrows
    subst hrows
    cases h
    exact ⟨rfl, rfl⟩
  | false =>
    rintro x o x' ⟨rfl, hrows⟩ h
    simp only [Bool.false_eq_true, ↓reduceIte] at hrows
    subst hrows
    cases h
    exact ⟨rfl, rfl⟩

private theorem triple_actionColumn {α : Type} (response : α) (column : ActionRow → α) :
    Triple (failing fails) Unreliable (· = (w, n)) (getActionColumn (some s) response column)
      (fun r x => x = (w, n + 2) ∧ r = (if fails (n + 1) then response else
        (rungsAt (w.journal.actionsOf s) (if fails n then 0 else w.journal.rvectorOf s)).foldl
          (fun _ r => column r) response,
          fails n || fails (n + 1))) fun _ => True := by
  show Triple _ _ _ (rmgJournalGetRvector (some s) >>= _) _ _
  refine Triple.bind (triple_serviceColumn 0 (·.rvector)) fun r => ?_
  obtain ⟨level, error⟩ := r
  refine Triple.split (level = (if fails n then 0 else w.journal.rvectorOf s) ∧ error = fails n) (· = (w, n + 1)) ?_ ?_
  · rintro x ⟨hx, hr⟩
    refine ⟨?_, hx⟩
    cases hn : fails n <;> rw [hn] at hr <;> exact ⟨congrArg Prod.fst hr, congrArg Prod.snd hr⟩
  · rintro ⟨rfl, rfl⟩
    show Triple _ _ _ (sqliteExec (.selectActions s _) >>= _) _ _
    refine Triple.bind (triple_sqlSelect rfl) fun rows => ?_
    rintro x o x' ⟨rfl, hrows⟩ h
    cases hn : fails (n + 1) with
    | true =>
      rw [hn] at hrows
      simp only [↓reduceIte] at hrows
      subst hrows
      cases h
      exact ⟨rfl, by simp⟩
    | false =>
      rw [hn] at hrows
      simp only [Bool.false_eq_true, ↓reduceIte] at hrows
      subst hrows
      cases h
      refine ⟨rfl, ?_⟩
      simp only [Bool.false_eq_true, ↓reduceIte, Bool.or_false]
      rw [← filter_rungsAt]
      rfl

private theorem triple_updateRvector (v : Int) : Triple (failing fails) Unreliable (· = (w, n))
    (rmgJournalSetRvector (some s) v) (fun st x => x = (if fails n then w else w.setRvector s v, n + 1) ∧
      st = if fails n then .error else .ok) fun _ => True := by
  show Triple _ _ _ (sqliteExec (.updateRvector s v) >>= _) _ _
  refine Triple.bind (Q := fun r x => x = (if fails n then w else w.setRvector s v, n + 1) ∧ r.isSome = !fails n)
    (.call (fun _ _ => trivial) (R := fun r x => x = (if fails n then w else w.setRvector s v, n + 1) ∧
      Option.isSome r = !fails n) (fun x e _ hx => ?_) fun _ => .ret fun _ h => h) fun r => ?_
  · subst hx
    show ((apply (.sql (.updateRvector s v)) (!fails n) w).2, n + 1) = _ ∧
      Option.isSome (apply (.sql (.updateRvector s v)) (!fails n) w).1 = _
    cases fails n <;> exact ⟨rfl, rfl⟩
  · rintro x o x' ⟨rfl, hr⟩ h
    have hn : fails n = !r.isSome := by rw [hr, Bool.not_not]
    cases r with
    | none =>
      cases h
      exact ⟨rfl, by rw [hn]; rfl⟩
    | some rows =>
      cases h
      exact ⟨rfl, by rw [hn]; rfl⟩

/-! ### What does not touch the counter or the recovery events -/

end Instance

/-- Operations beside the counting and the recovery events. -/
def Op.Beside (op : Op) : Prop :=
  op.NoWrite ∧ ∀ o, op = o → match o with
    | .pushExecutor type _ => type.isRecovery = false
    | .newEvent .. => False
    | _ => True

theorem Op.Relaxes.beside {op : Op} (h : op.Relaxes) : op.Beside := by
  refine ⟨h.1, ?_⟩
  rintro o rfl
  cases op with
  | pushExecutor => exact h.2.elim
  | newEvent => exact h.2.elim
  | _ => trivial

theorem Op.Informs.beside {op : Op} {type : ExecutorEventType} {event : EventRef} (h : op.Informs type event)
    (ht : type.isRecovery = false) : op.Beside := by
  refine ⟨(h.quiet ht).noWrite, ?_⟩
  rintro o rfl
  cases op with
  | pushExecutor type' event' =>
    obtain ⟨rfl, -⟩ := h
    exact ht
  | newEvent => exact h.elim
  | _ => trivial

namespace Instance

/-- The recovery events are `q`, the rvector is `r`, and the event is about the service. -/
private structure At (event : EventRef) (s : String) (q : List (ExecutorEventType × EventRef)) (r : Int)
    (w : Instance) : Prop where
  events : w.recoveryEvents = q
  rvector : w.journal.rvectorOf s = r
  service : (w.heap event).serviceName = some s

variable {fails : Nat → Bool} {w w' : Instance} {event : EventRef} {s : String}
  {q : List (ExecutorEventType × EventRef)} {r : Int}

private theorem At.apply {op : Op} {e : Bool} (h : At event s q r w) (hop : op.Beside) :
    At event s q r (Instance.apply op e w).2 := by
  have hjournal : (Instance.apply op e w).2.journal = w.journal := apply_noWrite_journal hop.1
  have hrest := hop.2 op rfl
  suffices hw : (Instance.apply op e w).2.recoveryEvents = w.recoveryEvents ∧
      ((Instance.apply op e w).2.heap event).serviceName = (w.heap event).serviceName from
    ⟨hw.1.trans h.events, by rw [hjournal, h.rvector], hw.2.trans h.service⟩
  cases op with
  | sql q =>
    rcases apply_sql w q e with h' | ⟨j, -, h'⟩
    · rw [h']
      exact ⟨rfl, rfl⟩
    · rw [h', commit_of_isSelect hop.1]
      exact ⟨rfl, rfl⟩
  | newEvent => exact hrest.elim
  | setContextName event' name =>
    refine ⟨rfl, ?_⟩
    show (Function.update w.heap event' { w.heap event' with contextName := name } event).serviceName = _
    by_cases he : event = event'
    · rw [he, Function.update_self]
    · rw [Function.update_of_ne he]
  | pushExecutor type event' =>
    refine ⟨?_, rfl⟩
    show (w.executorQueue ++ [(type, event')]).filter (·.1.isRecovery) = _
    have hrest : type.isRecovery = false := hrest
    simp [recoveryEvents, hrest]
  | clientSend => cases e <;> exact ⟨rfl, rfl⟩
  | managerSend => cases e <;> exact ⟨rfl, rfl⟩
  | _ => exact ⟨rfl, rfl⟩

private theorem failingApply_fst (op : Op) (e : Bool) (x : Instance × Nat) :
    ∃ e', (failingApply fails op e x).2.1 = (Instance.apply op e' x.1).2 := by
  cases op with
  | sql q => exact ⟨!fails x.2, rfl⟩
  | _ => exact ⟨e, rfl⟩

private theorem triple_beside {α : Type} {p : Proc α} (hp : p.Calls Op.Beside) : Triple (failing fails) Unreliable
    (fun x => At event s q r x.1) p (fun _ x => At event s q r x.1) fun _ => True := by
  refine (Triple.of_calls (I := fun x => At event s q r x.1) (fun op e x hop _ hx => ?_) hp).weaken (fun _ h => h)
    (fun _ _ h => h) fun _ _ => trivial
  obtain ⟨e', he⟩ := @failingApply_fst fails op e x
  show At event s q r (failingApply fails op e x).2.1
  rw [he]
  exact hx.apply hop

/-! ### The arms of the switch -/

/-- At statement 7 nothing but the counter has been written. -/
private def Ready (event : EventRef) (s : String) (q : List (ExecutorEventType × EventRef)) (r : Int)
    (x : Instance × Nat) : Prop := At event s q r x.1 ∧ x.2 = 7

private theorem triple_loadService {P : Instance × Nat → Prop}
    (hP : ∀ x, P x → (x.1.heap event).serviceName = some s) : Triple (failing fails) Unreliable P (load event)
      (fun e x => e.serviceName = some s ∧ P x) fun _ => True :=
  .call (fun _ _ => trivial) (R := fun e x => RmgDEvent.serviceName e = some s ∧ P x) (fun x _ _ hx => ⟨hP x hx, hx⟩)
    fun _ => .ret fun _ h => h

private theorem triple_resetRvector : Triple (failing fails) Unreliable (Ready event s q r) (resetRvector event)
    (fun _ x => At event s q (if fails 7 then r else 0) x.1) fun _ => True := by
  refine Triple.bind (triple_loadService fun _ h => h.1.service) fun e => Triple.of_prop fun he => ?_
  rw [he]
  refine Triple.bind (Q := fun _ x => At event s q (if fails 7 then r else 0) x.1) ?_ fun _ => .ret fun _ h => h
  rintro ⟨w, n⟩ o x' ⟨hx, rfl⟩ h
  have hends := triple_updateRvector (w := w) 0 (w, 7) o x' rfl h
  cases o with
  | done st =>
    obtain ⟨rfl, -⟩ := hends
    show At event s q _ (if fails 7 then w else w.setRvector s 0)
    cases fails 7 with
    | true => exact hx
    | false =>
      refine ⟨hx.events, ?_, hx.service⟩
      show ((w.setRvector s 0).journal.view s).rvector = 0
      rw [show (w.setRvector s 0).journal = w.journal.setRvector s 0 from rfl, Journal.view_setRvector]
      exact View.setRvector_zero_rvector _
  | aborted | killed => trivial

private theorem triple_push {type : ExecutorEventType} (ht : type.isRecovery) : Triple (failing fails) Unreliable
    (Ready event s q r) (rmgExecutorPushEvent type event) (fun _ => Ready event s (q ++ [(type, event)]) r)
      fun _ => True := by
  refine .call (fun _ _ => trivial) (R := fun _ => Ready event s (q ++ [(type, event)]) r) (fun x e _ hx => ?_)
    fun _ => .ret fun _ h => h
  obtain ⟨hx, hn⟩ := hx
  refine ⟨⟨?_, hx.rvector, hx.service⟩, hn⟩
  show (x.1.executorQueue ++ [(type, event)]).filter (·.1.isRecovery) = _
  rw [List.filter_append, ← hx.events]
  simp [recoveryEvents, ht]

private theorem triple_resetRvectorIf (reset : Bool) : Triple (failing fails) Unreliable (Ready event s q r)
    (resetRvectorIf reset event) (fun _ x => At event s q (if reset && !fails 7 then 0 else r) x.1) fun _ => True := by
  unfold resetRvectorIf
  cases reset with
  | true =>
    refine triple_resetRvector.weaken (fun _ h => h) (fun _ x h => ?_) fun _ h => h
    cases hn : fails 7 <;> rw [hn] at h <;> exact h
  | false => exact .ret fun _ h => h.1

/-- The reset that an action makes. -/
def resetMade (fails : Nat → Bool) (reset : Bool) : RmgActionType → Bool
  | .serviceIgnore => !fails 7
  | .factoryReset | .invalid | .guruMeditation => false
  | _ => reset && !fails 7

private theorem triple_performAction (type : RmgActionType) (reset : Bool) : Triple (failing fails) Unreliable
    (Ready event s q r) (performAction type reset event)
      (fun _ x => At event s (q ++ type.kind.toList.map (·, event)) (if resetMade fails reset type then 0 else r) x.1)
        fun _ => True := by
  -- the actions that push and then start the timer or reset the counter
  have hrelax : ∀ kind : ExecutorEventType, kind.isRecovery → Triple (failing fails) Unreliable (Ready event s q r)
      (pushThenRelax kind event reset)
        (fun _ x => At event s (q ++ [(kind, event)]) (if reset && !fails 7 then 0 else r) x.1) fun _ => True := by
    intro kind hk
    refine Triple.bind (triple_push hk) fun _ => ?_
    cases reset with
    | true => exact triple_resetRvectorIf true
    | false =>
      have hcalls : (doRelaxtimerStart event).Calls Op.Beside :=
        ((calls_load event).mono fun _ h => h.relaxes.beside).bind fun e =>
          ((calls_rmgRelaxtimerTrigger _).mono fun _ h => h.beside).bind fun _ => trivial
      exact (triple_beside hcalls).weaken (fun _ h => h.1) (fun _ _ h => h) fun _ h => h
  -- the actions that reset the counter first
  have hreset : ∀ kind : ExecutorEventType, kind.isRecovery → Triple (failing fails) Unreliable (Ready event s q r)
      (resetThenPush kind event reset)
        (fun _ x => At event s (q ++ [(kind, event)]) (if reset && !fails 7 then 0 else r) x.1) fun _ => True := by
    intro kind hk
    refine Triple.bind (triple_resetRvectorIf reset) fun _ => ?_
    refine .call (fun _ _ => trivial) (R := fun _ x => At event s (q ++ [(kind, event)])
      (if reset && !fails 7 then 0 else r) x.1) (fun x e _ hx => ⟨?_, hx.rvector, hx.service⟩) fun _ =>
        .ret fun _ h => h
    show (x.1.executorQueue ++ [(kind, event)]).filter (·.1.isRecovery) = _
    rw [List.filter_append, ← hx.events]
    simp [recoveryEvents, hk]
  have hnone : Triple (failing fails) Unreliable (Ready event s q r) (pure ⟨⟩ : Proc PUnit)
      (fun _ x => At event s (q ++ []) r x.1) fun _ => True := by
    rw [List.append_nil]
    exact .ret fun _ h => h.1
  cases type with
  | serviceIgnore =>
    refine triple_resetRvector.weaken (fun _ h => h) (fun _ x h => ?_) fun _ h => h
    show At event s (q ++ []) (if !fails 7 then 0 else r) x.1
    rw [List.append_nil]
    cases hn : fails 7 <;> rw [hn] at h <;> exact h
  | serviceReset | publicDataReset | privateDataReset | serviceDisable => exact hrelax _ rfl
  | contextReset | platformRestart => exact hreset _ rfl
  | factoryReset => exact (triple_push rfl).weaken (fun _ h => h) (fun _ _ h => h.1) fun _ h => h
  | invalid | guruMeditation => exact hnone

/-! ### The handler -/

/-- The crash has been counted. -/
private structure Counted (fails : Nat → Bool) (s : String) (w : Instance) : Prop where
  unit : w.journal.hashOf s ≠ 0
  looked : fails 0 = false ∧ fails 1 = false
  updated : fails 2 = false

/-- How the handler ends. -/
private inductive Ended (fails : Nat → Bool) (event : EventRef) (s : String) (w w' : Instance) : Prop
  | stopped : w.journal.hashOf s = 0 ∨ fails 0 ∨ fails 1 ∨ fails 2 →
      At event s w.recoveryEvents (w.journal.rvectorOf s) w' → Ended fails event s w w'
  | counted : Counted fails s w → fails 3 ∨ fails 4 → At event s w.recoveryEvents (w.journal.rvectorOf s + 1) w' →
      Ended fails event s w w'
  | performed : Counted fails s w → fails 3 = false ∧ fails 4 = false →
      At event s (w.recoveryEvents ++ (w.journal.dueAction s).kind.toList.map (·, event))
        (if resetMade fails (w.journal.flagRead s fails) (w.journal.dueAction s) then 0 else w.journal.rvectorOf s + 1)
          w' → Ended fails event s w w'

private theorem triple_escalateCounted (hs : (w.heap event).serviceName = some s) (hc : Counted fails s w) (v : Int) :
    Triple (failing fails) Unreliable (· = (w.setRvector s (w.journal.rvectorOf s + 1), 3)) (escalate event v)
      (fun _ x => Ended fails event s w x.1) fun _ => True := by
  have hrvector : (w.setRvector s (w.journal.rvectorOf s + 1)).journal.rvectorOf s = w.journal.rvectorOf s + 1 :=
    Journal.rvectorOf_setRvector hc.unit _
  have hactions : (w.setRvector s (w.journal.rvectorOf s + 1)).journal.actionsOf s = w.journal.actionsOf s := rfl
  have hat : At event s w.recoveryEvents (w.journal.rvectorOf s + 1) (w.setRvector s (w.journal.rvectorOf s + 1)) :=
    ⟨rfl, hrvector, hs⟩
  refine Triple.bind (triple_loadService fun x hx => by rw [hx]; exact hs) fun e => Triple.of_prop fun he => ?_
  rw [he]
  refine Triple.bind (triple_actionColumn RmgActionType.invalid fun r => RmgActionType.ofCode r.type) fun r => ?_
  obtain ⟨type, error⟩ := r
  rw [hrvector, hactions]
  -- the action is looked up in two statements, and the crash stays counted where one of them fails
  by_cases hfail : fails 3 ∨ fails 4
  · rintro x o x' ⟨rfl, hr⟩ h
    obtain rfl : error = true := by
      refine (congrArg Prod.snd hr).trans ?_
      rcases hfail with h | h <;> simp [h]
    cases h
    exact .counted hc hfail hat
  obtain ⟨h3, h4⟩ := not_or.1 hfail
  have h34 : fails 3 = false ∧ fails 4 = false := ⟨by simpa using h3, by simpa using h4⟩
  refine Triple.split (type = w.journal.dueAction s ∧ error = false)
    (· = (w.setRvector s (w.journal.rvectorOf s + 1), 5)) ?_ ?_
  · rintro x ⟨rfl, hr⟩
    simp only [h34.1, h34.2, Bool.false_eq_true, ↓reduceIte, Bool.or_self] at hr
    exact ⟨⟨congrArg Prod.fst hr, congrArg Prod.snd hr⟩, rfl⟩
  · rintro ⟨rfl, rfl⟩
    refine Triple.bind (triple_actionColumn false fun r => r.reset ≠ 0) fun r => ?_
    obtain ⟨reset, error⟩ := r
    rw [hrvector, hactions]
    -- the flag is read in two more, and what is read is used also where they fail
    refine Triple.split (reset = w.journal.flagRead s fails)
      (Ready event s w.recoveryEvents (w.journal.rvectorOf s + 1)) ?_ ?_
    · rintro x ⟨rfl, hr⟩
      refine ⟨?_, hat, rfl⟩
      have hreset := congrArg Prod.fst hr
      rw [show reset = _ from hreset]
      unfold Journal.flagRead resetAt
      rfl
    · rintro rfl
      have hinform : (informServiceFailed event).Calls Op.Beside :=
        ⟨⟨trivial, by rintro o rfl; trivial⟩, fun _ => ⟨⟨trivial, by rintro o rfl; trivial⟩, fun _ =>
          (calls_doFriendServiceFailedEvent event).mono fun _ h => h.beside rfl⟩⟩
      refine Triple.bind (Q := fun _ => Ready event s w.recoveryEvents (w.journal.rvectorOf s + 1)) ?_ fun _ => ?_
      · unfold reportAction
        split
        · exact .call (fun _ _ => trivial) (R := fun _ => Ready event s w.recoveryEvents (w.journal.rvectorOf s + 1))
            (fun x _ _ hx => ⟨⟨hx.1.events, hx.1.rvector, hx.1.service⟩, hx.2⟩) fun _ => .ret fun _ h => h
        · exact .ret fun _ h => h
      · exact Triple.bind (triple_performAction _ _) fun _ => (triple_beside hinform).weaken (fun _ h => h)
          (fun _ _ h => .performed hc h34 h) fun _ h => h

private theorem triple_crashHandler (hs : (w.heap event).serviceName = some s) :
    Triple (failing fails) Unreliable (· = (w, 0)) (doProcessServiceCrashEvent event)
      (fun _ x => Ended fails event s w x.1) fun _ => True := by
  have hat : At event s w.recoveryEvents (w.journal.rvectorOf s) w := ⟨rfl, rfl, hs⟩
  refine Triple.bind (triple_loadService fun x hx => by rw [hx]; exact hs) fun e => Triple.of_prop fun he => ?_
  rw [he]
  -- the first statement: is there a unit for the service
  refine Triple.bind (triple_serviceColumn 0 fun r => gAsciiStrtoull (printLd r.hash)) fun r => ?_
  obtain ⟨hash, error⟩ := r
  cases h0 : fails 0 with
  | true =>
    rintro x o x' ⟨rfl, hr⟩ h
    simp only [↓reduceIte] at hr
    obtain ⟨rfl, rfl⟩ := Prod.mk.inj hr
    cases h
    exact .stopped (by simp [h0]) hat
  | false =>
  refine Triple.split (hash = w.journal.hashOf s ∧ error = false) (· = (w, 1))
    (fun x hx => ⟨⟨congrArg Prod.fst hx.2, congrArg Prod.snd hx.2⟩, hx.1⟩) ?_
  rintro ⟨rfl, rfl⟩
  show Triple _ _ _ (if w.journal.hashOf s = 0 then _ else _) _ _
  by_cases hh : w.journal.hashOf s = 0
  · rw [if_pos hh]
    have hcalls : (output (.noRecoveryUnit (some s) e.cause) : Proc PUnit).Calls Op.Beside :=
      ⟨⟨trivial, by rintro o rfl; trivial⟩, fun _ => trivial⟩
    exact (triple_beside hcalls).weaken (fun x hx => by rw [hx]; exact hat) (fun _ _ h =>
      .stopped (.inl hh) h) fun _ h => h
  rw [if_neg hh]
  -- the second: its counter
  refine Triple.bind (triple_serviceColumn 0 (·.rvector)) fun r => ?_
  obtain ⟨rvector, error⟩ := r
  cases h1 : fails 1 with
  | true =>
    rintro x o x' ⟨rfl, hr⟩ h
    simp only [↓reduceIte] at hr
    obtain ⟨rfl, rfl⟩ := Prod.mk.inj hr
    cases h
    exact .stopped (by simp [h1]) hat
  | false =>
  refine Triple.split (rvector = w.journal.rvectorOf s ∧ error = false) (· = (w, 2))
    (fun x hx => ⟨⟨congrArg Prod.fst hx.2, congrArg Prod.snd hx.2⟩, hx.1⟩) ?_
  rintro ⟨rfl, rfl⟩
  -- the third counts the crash
  refine Triple.bind (triple_updateRvector _) fun st => ?_
  cases h2 : fails 2 with
  | true =>
    rintro x o x' ⟨rfl, hr⟩ h
    simp only [↓reduceIte] at hr h
    subst hr
    cases h
    exact .stopped (by simp [h2]) hat
  | false =>
    refine Triple.split (st = .ok) (· = (w.setRvector s (w.journal.rvectorOf s + 1), 3))
      (fun x hx => ⟨hx.2, hx.1⟩) ?_
    rintro rfl
    exact triple_escalateCounted hs ⟨hh, ⟨h0, h1⟩, h2⟩ _

private theorem inStep_of_pushed (h : w.PushesRecovery w') : w.InStep s w' ↔
    w'.journal.rvectorOf s = if w.journal.resetDemanded s then 0 else w.journal.rvectorOf s + 1 :=
  ⟨fun hs => hs.pushed h, fun hs => ⟨fun _ hn => absurd h hn, fun _ => hs⟩⟩

private theorem resetMade_of_kind {type : RmgActionType} (hk : type.kind.isSome) (hf : type ≠ .factoryReset)
    (reset : Bool) : resetMade fails reset type = (reset && !fails 7) := by
  cases type with
  | serviceIgnore | invalid | guruMeditation => cases hk
  | factoryReset => exact absurd rfl hf
  | _ => rfl

private theorem ite_eq_ite_iff {a b : Bool} {v : Int} :
    ((if a then 0 else v + 1) = if b then 0 else v + 1) ↔ ((a = true ↔ b = true) ∨ v = -1) := by
  cases a <;> cases b <;> simp <;> omega

/-- Rvector and recovery event are in step after the handler exactly if the statements that matter go through. -/
theorem crash_handled_in_step_iff (hs : (w.heap event).serviceName = some s) {n : Nat}
    (hx : Exec (failing fails) Unreliable (doProcessServiceCrashEvent event) (w, 0) (.done ⟨⟩) (w', n)) :
    w.InStep s w' ↔ w.journal.KeepsStep s fails := by
  have hends : Ended fails event s w w' := triple_crashHandler hs _ _ _ rfl hx
  have hdue : (w.journal.dueAction s).kind.isSome → w.recoveryEvents ++
      (w.journal.dueAction s).kind.toList.map (·, event) ≠ w.recoveryEvents := by
    intro hk
    obtain ⟨kind, hk⟩ := Option.isSome_iff_exists.1 hk
    simp [hk]
  cases hends with
  | stopped hstop hat =>
    -- nothing is counted and nothing is pushed
    refine ⟨fun _ hrec h0 h1 h2 => ?_, fun _ => ⟨fun _ _ => hat.rvector, fun hp => absurd hat.events hp⟩⟩
    rcases hstop with h | h | h | h
    · exact absurd h hrec.1
    · rw [h0] at h; cases h
    · rw [h1] at h; cases h
    · rw [h2] at h; cases h
  | counted hc hfail hat =>
    -- the crash is counted, and the action is not found
    constructor
    · intro h hrec
      have := h.lost hrec fun hp => hp hat.events
      rw [hat.rvector] at this
      omega
    · intro h
      refine ⟨fun hrec _ => ?_, fun hp => absurd hat.events hp⟩
      obtain ⟨⟨h3, h4⟩, -⟩ := h hrec hc.looked.1 hc.looked.2 hc.updated
      rcases hfail with hf | hf
      · rw [h3] at hf; cases hf
      · rw [h4] at hf; cases hf
  | performed hc h34 hat =>
    have hrvector := hat.rvector
    by_cases hk : (w.journal.dueAction s).kind.isSome
    · have hpushed : w.PushesRecovery w' := by
        unfold PushesRecovery
        rw [hat.events]
        exact hdue hk
      rw [inStep_of_pushed hpushed, hrvector]
      by_cases hf : w.journal.dueAction s = .factoryReset
      · have hmade : resetMade fails (w.journal.flagRead s fails) (w.journal.dueAction s) = false := by rw [hf]; rfl
        have hdemand : w.journal.resetDemanded s = false := by simp [Journal.resetDemanded, hf]
        rw [hmade, hdemand]
        exact ⟨fun _ _ _ _ _ => ⟨h34, fun hne => absurd hf hne⟩, fun _ => rfl⟩
      · have hdemand : w.journal.resetDemanded s = w.journal.dueReset s := by simp [Journal.resetDemanded, hf]
        rw [resetMade_of_kind hk hf, hdemand, ite_eq_ite_iff]
        constructor
        · intro h _ _ _ _
          refine ⟨h34, fun _ => ?_⟩
          simpa using h
        · intro h
          obtain ⟨-, h⟩ := h ⟨hc.unit, hk⟩ hc.looked.1 hc.looked.2 hc.updated
          simpa using h hf
    · refine ⟨fun _ hrec => absurd hrec.2 hk, fun _ => ⟨fun hrec => absurd hrec.2 hk, fun hp => absurd ?_ hp⟩⟩
      rw [hat.events, Option.not_isSome_iff_eq_none.1 hk]
      simp

/-- A crash of a service that is to be restarted waits for the dispatcher. -/
def crashWaiting : Instance :=
  let unit := Tag.unit "a.service" [("relaxtime", "5")] [("resetService", "1", "false")]
  ((initial .primary "host").replayed (.reading [unit]) [.restart (directory [unit]), .crash "a.service"]).getD
    (initial .primary "host")

/-- The crash is handled under a failure pattern. -/
def handledUnder (fails : Nat → Bool) : Option PUnit × Instance × Nat :=
  Fallible.run (failing fails) true (doProcessServiceCrashEvent 0) (crashWaiting, 0)

private theorem exec_handledUnder (h : (handledUnder fails).1.isSome) : Exec (failing fails) Unreliable
    (doProcessServiceCrashEvent 0) (crashWaiting, 0) (.done ⟨⟩)
    ((handledUnder fails).2.1, (handledUnder fails).2.2) := by
  have hx := exec_run (failing fails) true (A := Unreliable) (fun _ => trivial) (doProcessServiceCrashEvent 0)
    (crashWaiting, 0)
  unfold handledUnder at h ⊢
  generalize Fallible.run (failing fails) true (doProcessServiceCrashEvent 0) (crashWaiting, 0) = result at h hx ⊢
  obtain ⟨_ | ⟨⟨⟩⟩, w, n⟩ := result
  · cases h
  · exact hx

/-- Without its level the flag is read for level 0, where it is off as well; without the action the crash has been
counted for nothing. -/
theorem crash_handled_in_step_of_failed_lookups : crashWaiting.InStep "a.service" (handledUnder (· == 5)).2.1 ∧
    ¬ crashWaiting.InStep "a.service" (handledUnder (· == 4)).2.1 := by
  have hs : (crashWaiting.heap 0).serviceName = some "a.service" := by decide +kernel
  have hflag := crash_handled_in_step_iff hs (@exec_handledUnder (· == 5) (by decide +kernel))
  have haction := crash_handled_in_step_iff hs (@exec_handledUnder (· == 4) (by decide +kernel))
  have hoff : (crashWaiting.journal.flagRead "a.service" (· == 5) ∧ (7 == 5) = false) ↔
      crashWaiting.journal.dueReset "a.service" := by decide +kernel
  have hdue : crashWaiting.journal.hashOf "a.service" ≠ 0 ∧
      (crashWaiting.journal.dueAction "a.service").kind.isSome := by decide +kernel
  refine ⟨hflag.2 fun _ _ _ _ => ⟨⟨rfl, rfl⟩, fun _ => .inl hoff⟩, fun h => ?_⟩
  exact absurd (haction.1 h hdue rfl rfl rfl).1.2 (by decide)

/-- The rvector cannot be read again after it has been counted: the crash is counted, and nothing is done about it. -/
theorem crash_counted_without_action : ¬ ∀ (fails : Nat → Bool) (w w' : Instance) (event : EventRef) (s : String)
    (n : Nat), (w.heap event).serviceName = some s →
      Exec (failing fails) Unreliable (doProcessServiceCrashEvent event) (w, 0) (.done ⟨⟩) (w', n) → w.InStep s w' := by
  intro h
  have hfacts : ((crashWaiting.heap 0).serviceName = some "a.service" ∧ (handledUnder (· == 3)).1.isSome) ∧
      (crashWaiting.journal.hashOf "a.service" ≠ 0 ∧ (crashWaiting.journal.dueAction "a.service").kind.isSome) ∧
      (handledUnder (· == 3)).2.1.recoveryEvents = crashWaiting.recoveryEvents ∧
      (handledUnder (· == 3)).2.1.journal.rvectorOf "a.service" ≠ crashWaiting.journal.rvectorOf "a.service" := by
    decide +kernel
  obtain ⟨⟨hs, hr⟩, hdue, hevents, hrvector⟩ := hfacts
  exact hrvector ((h _ _ _ 0 "a.service" _ hs (exec_handledUnder hr)).lost hdue fun hp => hp hevents)

end Instance

end RecoveryManager
