import RecoveryManager.Instance

/-!
# The functions of `rmg-journal.c` on the tables

Each function asserts its names, sends one statement (the two action getters send two) and reports an error when the
statement fails; the getters then return the default they were initialised with.  A function with a `GError` argument
returns whether the error was set.

The `run_` lemmas say what a function does when its statements go through.
-/

namespace RecoveryManager

open Fallible Fallible.Prog

/-- `g_assert` on a name. -/
def gAssertName : Option String → Proc String
  | some name => pure name
  | none => .abort

def sqliteExec (q : Sql) : Proc (Option q.Rows) := .call (.sql q) .ret

/-! ### Writing -/

def rmgJournalAddService (hash : Gulong) (serviceName privateData publicData : Option String) (checkStart : Bool)
    (timeout : Int) (origin : UnitText) : Proc RmgStatus := do
  let serviceName ← gAssertName serviceName
  let privateData ← gAssertName privateData
  let publicData ← gAssertName publicData
  match ← sqliteExec (.insertService ⟨hash.toInt, serviceName, privateData, publicData, 0, checkStart.toNat, timeout,
    origin⟩) with
  | none => pure .error
  | some _ => pure .ok

def rmgJournalAddAction (hash : Gulong) (serviceName : Option String) (actionType : RmgActionType)
    (triggerLevelMin triggerLevelMax : Int) (resetAfter : Bool) (origin : UnitText) : Proc RmgStatus := do
  let serviceName ← gAssertName serviceName
  match ← sqliteExec (.insertAction ⟨hash.toInt, serviceName, actionType.code, triggerLevelMin, triggerLevelMax,
    resetAfter.toNat, origin⟩) with
  | none => pure .error
  | some _ => pure .ok

def rmgJournalAddFriend (hash : Gulong) (serviceName friendName friendContext : Option String)
    (friendType : RmgFriendType) (friendAction : RmgFriendActionType) (friendArgument friendDelay : Int)
    (origin : UnitText) : Proc RmgStatus := do
  let serviceName ← gAssertName serviceName
  let friendName ← gAssertName friendName
  let friendContext ← gAssertName friendContext
  match ← sqliteExec (.insertFriend ⟨hash.toInt, serviceName, friendName, friendContext, friendType.code,
    friendAction.code, friendArgument, friendDelay, origin⟩) with
  | none => pure .error
  | some _ => pure .ok

/-- The actions and friends are only deleted once the service row is; either of them failing is an error. -/
def rmgJournalRemoveService (serviceName : Option String) : Proc RmgStatus := do
  let serviceName ← gAssertName serviceName
  match ← sqliteExec (.deleteServices serviceName) with
  | none => pure .error
  | some _ =>
    let actions ← sqliteExec (.deleteActions serviceName)
    let friends ← sqliteExec (.deleteFriends serviceName)
    if actions.isNone || friends.isNone then pure .error else pure .ok

def rmgJournalSetRvector (serviceName : Option String) (rvector : Int) : Proc RmgStatus := do
  let serviceName ← gAssertName serviceName
  match ← sqliteExec (.updateRvector serviceName rvector) with
  | none => pure .error
  | some _ => pure .ok

/-! ### Reading -/

/-- A getter on the service row: the callback overwrites `response` with the column of each row in turn. -/
def getServiceColumn {α : Type} (serviceName : Option String) (response : α) (column : ServiceRow → α) :
    Proc (α × Bool) := do
  let serviceName ← gAssertName serviceName
  match ← sqliteExec (.selectServices serviceName) with
  | none => pure (response, true)
  | some rows => pure (rows.foldl (fun _ r => column r) response, false)

def rmgJournalGetHash (serviceName : Option String) : Proc (Gulong × Bool) :=
  getServiceColumn serviceName 0 fun r => gAsciiStrtoull (printLd r.hash)

def rmgJournalGetRvector (serviceName : Option String) : Proc (Int × Bool) :=
  getServiceColumn serviceName 0 (·.rvector)

def rmgJournalGetRelaxingTimeout (serviceName : Option String) : Proc (Int × Bool) :=
  getServiceColumn serviceName 0 (·.timeout)

def rmgJournalGetPrivateDataPath (serviceName : Option String) : Proc (Option String × Bool) :=
  getServiceColumn serviceName none (some ·.privdata)

def rmgJournalGetPublicDataPath (serviceName : Option String) : Proc (Option String × Bool) :=
  getServiceColumn serviceName none (some ·.publdata)

/-- A getter on the action rows at the stored level.  When the level cannot be read the query is still made, with
level 0. -/
def getActionColumn {α : Type} (serviceName : Option String) (response : α) (column : ActionRow → α) :
    Proc (α × Bool) := do
  let service ← gAssertName serviceName
  let (rvector, error) ← rmgJournalGetRvector serviceName
  match ← sqliteExec (.selectActions service rvector) with
  | none => pure (response, true)
  | some rows => pure (rows.foldl (fun _ r => column r) response, error)

def rmgJournalGetServiceAction (serviceName : Option String) : Proc (RmgActionType × Bool) :=
  getActionColumn serviceName .invalid fun r => .ofCode r.type

def rmgJournalGetServiceActionResetAfter (serviceName : Option String) : Proc (Bool × Bool) :=
  getActionColumn serviceName false (·.reset ≠ 0)

structure RmgFriendResponseEntry where
  serviceName : String
  action : RmgFriendActionType
  argument : Int
  delay : Int
  deriving DecidableEq, Repr

def FriendRow.response (r : FriendRow) : RmgFriendResponseEntry := ⟨r.service, .ofCode r.action, r.argument, r.delay⟩

def rmgJournalGetServicesForFriend (friendName friendContext : Option String) (friendType : RmgFriendType) :
    Proc (List RmgFriendResponseEntry × Bool) := do
  let friendName ← gAssertName friendName
  let friendContext ← gAssertName friendContext
  match ← sqliteExec (.selectFriends friendName friendContext friendType.code) with
  | none => pure ([], true)
  | some rows => pure (rows.map FriendRow.response, false)

/-- The callback runs for each row of the result. -/
def rmgJournalCallForeachRelaxing (callback : String → Proc PUnit) : Proc Bool := do
  match ← sqliteExec .selectRelaxing with
  | none => pure true
  | some rows =>
    List.forM rows fun r : ServiceRow => callback r.name
    pure false

/-! ### When the statements go through -/

/-- `UPDATE Services SET RVECTOR`. -/
def Journal.setRvector (j : Journal) (name : String) (v : Int) : Journal :=
  { j with services := j.services.map fun r => if r.name = name then { r with rvector := v } else r }

namespace Instance

def setRvector (w : Instance) (name : String) (v : Int) : Instance :=
  { w with
    journal := w.journal.setRvector name v
    trace := w.trace ++ [.statement (.updateRvector name v)] }

variable (w : Instance) (s : String)

theorem run_rmgJournalGetHash : w.run (rmgJournalGetHash (some s)) = (some (w.journal.hashOf s, false), w) := rfl

theorem run_rmgJournalGetRvector :
    w.run (rmgJournalGetRvector (some s)) = (some (w.journal.rvectorOf s, false), w) := rfl

theorem run_rmgJournalGetRelaxingTimeout :
    w.run (rmgJournalGetRelaxingTimeout (some s)) = (some (w.journal.timeoutOf s, false), w) := rfl

theorem run_rmgJournalSetRvector (v : Int) :
    w.run (rmgJournalSetRvector (some s) v) = (some .ok, w.setRvector s v) := rfl

theorem filter_rungsAt (j : Journal) (v : Int) :
    j.actions.filter (fun r => r.service = s ∧ r.tlmin ≤ v ∧ v ≤ r.tlmax) = rungsAt (j.actionsOf s) v := by
  rw [rungsAt, Journal.actionsOf, List.filter_filter]
  exact List.filter_congr fun r _ => by rw [Bool.decide_and (r.service = s), Bool.and_comm]

theorem run_rmgJournalGetServiceAction : w.run (rmgJournalGetServiceAction (some s)) =
    (some (actionAt (w.journal.actionsOf s) (w.journal.rvectorOf s), false), w) := by
  unfold actionAt
  rw [← filter_rungsAt]
  rfl

theorem run_rmgJournalGetServiceActionResetAfter : w.run (rmgJournalGetServiceActionResetAfter (some s)) =
    (some (resetAt (w.journal.actionsOf s) (w.journal.rvectorOf s), false), w) := by
  unfold resetAt
  rw [← filter_rungsAt]
  rfl

theorem run_rmgJournalGetServicesForFriend (n c : String) (t : RmgFriendType) :
    w.run (rmgJournalGetServicesForFriend (some n) (some c) t) =
      (some ((w.journal.friends.filter fun r => r.friend = n ∧ r.context = c ∧ r.type = t.code).map
        FriendRow.response, false), w) := rfl

end Instance

end RecoveryManager
