import RecoveryManager.Types

/-!
# The journal database

The three tables of `rmg-journal.c` and the statements its functions send to SQLite.  A table is the list of its rows
in insertion order, which is the order of a scan.  Names are compared by `IS` with the binary collation, so a
statement whose strings are free of quotes (`Sql.Plain`) selects by equality.  With a quote in a name SQLite reads
another statement, which is not modelled.

Numeric columns other than `HASH` are written and read as the same signed integer.  `RVECTOR` counts the handled
crashes one by one and is kept as an unbounded integer.  It is at most the number of steps of a run
(`consistent_of_faultyRuns`), so the wrapping sum of the source is the same in less than `2 ^ 63` of them.

`origin` is the text of the unit file a row was written from: bookkeeping that no statement reads.
-/

namespace RecoveryManager

/-- The text of a unit file. -/
abbrev UnitText := List (BitVec 8)

structure ServiceRow where
  hash : Int
  name : String
  privdata : String
  publdata : String
  rvector : Int
  chkstart : Int
  timeout : Int
  origin : UnitText
  deriving DecidableEq, Repr

structure ActionRow where
  hash : Int
  service : String
  type : Int
  tlmin : Int
  tlmax : Int
  reset : Int
  origin : UnitText
  deriving DecidableEq, Repr

structure FriendRow where
  hash : Int
  service : String
  friend : String
  context : String
  type : Int
  action : Int
  argument : Int
  delay : Int
  origin : UnitText
  deriving DecidableEq, Repr

structure Journal where
  services : List ServiceRow
  actions : List ActionRow
  friends : List FriendRow
  deriving DecidableEq, Repr

def Journal.empty : Journal := ⟨[], [], []⟩

/-! ### Statements -/

/-- A string that can be printed between the quotes of a statement. -/
def Unquoted (s : String) : Prop := '\x27' ∉ s.toList

instance : DecidablePred Unquoted := fun s => inferInstanceAs (Decidable ('\x27' ∉ s.toList))

inductive Sql where
  | insertService (row : ServiceRow)
  | insertAction (row : ActionRow)
  | insertFriend (row : FriendRow)
  | deleteServices (name : String)
  | deleteActions (service : String)
  | deleteFriends (service : String)
  | updateRvector (name : String) (rvector : Int)
  | selectServices (name : String)
  | selectActions (service : String) (level : Int)
  | selectFriends (friend context : String) (type : Int)
  | selectRelaxing
  deriving DecidableEq, Repr

/-- The strings that are printed into a statement. -/
def Sql.names : Sql → List String
  | .insertService row => [row.name, row.privdata, row.publdata]
  | .insertAction row => [row.service]
  | .insertFriend row => [row.service, row.friend, row.context]
  | .selectFriends friend context _ => [friend, context]
  | .deleteServices name | .updateRvector name _ | .selectServices name => [name]
  | .deleteActions service | .deleteFriends service | .selectActions service _ => [service]
  | .selectRelaxing => []

/-- SQLite reads the text of the statement as the statement. -/
def Sql.Plain (q : Sql) : Prop := ∀ s ∈ q.names, Unquoted s

/-- What a statement hands to the callback. -/
def Sql.Rows : Sql → Type
  | .selectServices _ | .selectRelaxing => List ServiceRow
  | .selectActions .. => List ActionRow
  | .selectFriends .. => List FriendRow
  | _ => Unit

/-- The tables after a statement; `none` is a violated `PRIMARY KEY` constraint. -/
def Sql.effect : Sql → Journal → Option Journal
  | .insertService row, j =>
    if j.services.any (·.hash = row.hash) then none else some { j with services := j.services ++ [row] }
  | .insertAction row, j =>
    if j.actions.any (·.hash = row.hash) then none else some { j with actions := j.actions ++ [row] }
  | .insertFriend row, j =>
    if j.friends.any (·.hash = row.hash) then none else some { j with friends := j.friends ++ [row] }
  | .deleteServices name, j => some { j with services := j.services.filter (·.name ≠ name) }
  | .deleteActions service, j => some { j with actions := j.actions.filter (·.service ≠ service) }
  | .deleteFriends service, j => some { j with friends := j.friends.filter (·.service ≠ service) }
  | .updateRvector name v, j =>
    some { j with services := j.services.map fun r => if r.name = name then { r with rvector := v } else r }
  | _, j => some j

/-- The rows a statement hands to the callback. -/
def Sql.rows : (q : Sql) → Journal → q.Rows
  | .selectServices name, j => j.services.filter (·.name = name)
  | .selectActions service level, j =>
    j.actions.filter fun r => r.service = service ∧ r.tlmin ≤ level ∧ level ≤ r.tlmax
  | .selectFriends friend context type, j =>
    j.friends.filter fun r => r.friend = friend ∧ r.context = context ∧ r.type = type
  | .selectRelaxing, j => j.services.filter (0 < ·.rvector)
  | .insertService _, _ | .insertAction _, _ | .insertFriend _, _ => ()
  | .deleteServices _, _ | .deleteActions _, _ | .deleteFriends _, _ | .updateRvector .., _ => ()

/-- Statements that only read. -/
def Sql.isSelect : Sql → Bool
  | .selectServices _ | .selectActions .. | .selectFriends .. | .selectRelaxing => true
  | _ => false

/-! ### What the getters read

`sqlite_callback` is called once for each row and overwrites the response, so the last row decides. -/

namespace Journal

def servicesNamed (j : Journal) (name : String) : List ServiceRow := j.services.filter (·.name = name)

def actionsOf (j : Journal) (service : String) : List ActionRow := j.actions.filter (·.service = service)

def friendsOf (j : Journal) (service : String) : List FriendRow := j.friends.filter (·.service = service)

/-- `QUERY_GET_HASH`: the stored signed integer, printed and read as an unsigned one. -/
def hashOf (j : Journal) (name : String) : Gulong :=
  (j.servicesNamed name).foldl (fun _ r => gAsciiStrtoull (printLd r.hash)) 0

/-- `QUERY_GET_RVECTOR`. -/
def rvectorOf (j : Journal) (name : String) : Int := (j.servicesNamed name).foldl (fun _ r => r.rvector) 0

/-- `QUERY_GET_TIMEOUT`. -/
def timeoutOf (j : Journal) (name : String) : Int := (j.servicesNamed name).foldl (fun _ r => r.timeout) 0

end Journal

/-- The rows of a ladder that a level selects. -/
def rungsAt (rungs : List ActionRow) (level : Int) : List ActionRow :=
  rungs.filter fun r => r.tlmin ≤ level ∧ level ≤ r.tlmax

/-- `QUERY_GET_ACTION`. -/
def actionAt (rungs : List ActionRow) (level : Int) : RmgActionType :=
  (rungsAt rungs level).foldl (fun _ r => .ofCode r.type) .invalid

/-- `QUERY_GET_ACTION_RESET_AFTER`. -/
def resetAt (rungs : List ActionRow) (level : Int) : Bool :=
  (rungsAt rungs level).foldl (fun _ r => r.reset ≠ 0) false

/-! ### The rows of one service

Each statement touches the rows of one service only.  `Journal.view` are these rows. -/

/-- The rows a service has in the three tables. -/
structure View where
  services : List ServiceRow
  actions : List ActionRow
  friends : List FriendRow
  deriving DecidableEq, Repr

def Journal.view (j : Journal) (name : String) : View := ⟨j.servicesNamed name, j.actionsOf name, j.friendsOf name⟩

/-- The service a statement writes rows of. -/
def Sql.target : Sql → Option String
  | .insertService row => some row.name
  | .insertAction row => some row.service
  | .insertFriend row => some row.service
  | .deleteServices name => some name
  | .deleteActions service => some service
  | .deleteFriends service => some service
  | .updateRvector name _ => some name
  | _ => none

/-- A statement on the rows of the service it writes. -/
def Sql.onView : Sql → View → View
  | .insertService row, v => { v with services := v.services ++ [row] }
  | .insertAction row, v => { v with actions := v.actions ++ [row] }
  | .insertFriend row, v => { v with friends := v.friends ++ [row] }
  | .deleteServices _, v => { v with services := [] }
  | .deleteActions _, v => { v with actions := [] }
  | .deleteFriends _, v => { v with friends := [] }
  | .updateRvector _ x, v => { v with services := v.services.map fun r => { r with rvector := x } }
  | _, v => v

theorem filter_filter_ne {ι : Type} (f : ι → String) {a b : String} (hab : a ≠ b) (l : List ι) :
    (l.filter fun x => decide (f x ≠ b)).filter (fun x => decide (f x = a)) = l.filter fun x => decide (f x = a) := by
  rw [List.filter_filter]
  refine List.filter_congr fun x _ => ?_
  by_cases h : f x = a
  · simp [h, hab]
  · simp [h]

theorem filter_filter_self {ι : Type} (f : ι → String) (a : String) (l : List ι) :
    (l.filter fun x => decide (f x ≠ a)).filter (fun x => decide (f x = a)) = [] := by
  rw [List.filter_filter, List.filter_eq_nil_iff]
  intro x _
  simp

private theorem filter_map_rvector_ne {n name : String} (h : n ≠ name) (v : Int) (l : List ServiceRow) :
    (l.map fun r => if r.name = n then { r with rvector := v } else r).filter (fun r => decide (r.name = name)) =
      l.filter fun r => decide (r.name = name) := by
  induction l with
  | nil => rfl
  | cons r l ih =>
    by_cases hr : r.name = n
    · simp [hr, h, ih]
    · simp only [List.map_cons, hr, ↓reduceIte, List.filter_cons, ih]

/-- A statement leaves the rows of every other service alone. -/
theorem Sql.effect_view {q : Sql} {j j' : Journal} (h : q.effect j = some j') {name : String}
    (hn : q.target ≠ some name) : j'.view name = j.view name := by
  have hne : ∀ n, q.target = some n → n ≠ name := fun n e e' => hn (e' ▸ e)
  cases q with
  | insertService row =>
    simp only [Sql.effect, Option.ite_none_left_eq_some, Option.some.injEq] at h
    obtain ⟨-, rfl⟩ := h
    simp [Journal.view, Journal.servicesNamed, Journal.actionsOf, Journal.friendsOf, hne row.name rfl]
  | insertAction row =>
    simp only [Sql.effect, Option.ite_none_left_eq_some, Option.some.injEq] at h
    obtain ⟨-, rfl⟩ := h
    simp [Journal.view, Journal.servicesNamed, Journal.actionsOf, Journal.friendsOf, hne row.service rfl]
  | insertFriend row =>
    simp only [Sql.effect, Option.ite_none_left_eq_some, Option.some.injEq] at h
    obtain ⟨-, rfl⟩ := h
    simp [Journal.view, Journal.servicesNamed, Journal.actionsOf, Journal.friendsOf, hne row.service rfl]
  | deleteServices n =>
    obtain rfl := Option.some.inj h
    simp only [Journal.view, Journal.servicesNamed, Journal.actionsOf, Journal.friendsOf,
      filter_filter_ne _ (hne n rfl).symm]
  | deleteActions n =>
    obtain rfl := Option.some.inj h
    simp only [Journal.view, Journal.servicesNamed, Journal.actionsOf, Journal.friendsOf,
      filter_filter_ne _ (hne n rfl).symm]
  | deleteFriends n =>
    obtain rfl := Option.some.inj h
    simp only [Journal.view, Journal.servicesNamed, Journal.actionsOf, Journal.friendsOf,
      filter_filter_ne _ (hne n rfl).symm]
  | updateRvector n v =>
    obtain rfl := Option.some.inj h
    simp only [Journal.view, Journal.servicesNamed, Journal.actionsOf, Journal.friendsOf,
      filter_map_rvector_ne (hne n rfl)]
  | _ =>
    obtain rfl := Option.some.inj h
    rfl

private theorem filter_map_rvector (name : String) (v : Int) (l : List ServiceRow) :
    (l.map fun r => if r.name = name then { r with rvector := v } else r).filter (fun r => decide (r.name = name)) =
      (l.filter fun r => decide (r.name = name)).map fun r => { r with rvector := v } := by
  induction l with
  | nil => rfl
  | cons r l ih => by_cases hr : r.name = name <;> simp [hr, ih]

/-- What a statement does to the rows of its own service. -/
theorem Sql.effect_onView {q : Sql} {j j' : Journal} (h : q.effect j = some j') {name : String}
    (hn : q.target = some name) : j'.view name = q.onView (j.view name) := by
  cases q with
  | insertService row =>
    simp only [Sql.effect, Option.ite_none_left_eq_some, Option.some.injEq] at h
    obtain ⟨-, rfl⟩ := h
    obtain rfl := Option.some.inj hn
    simp [Journal.view, Journal.servicesNamed, Journal.actionsOf, Journal.friendsOf, Sql.onView]
  | insertAction row =>
    simp only [Sql.effect, Option.ite_none_left_eq_some, Option.some.injEq] at h
    obtain ⟨-, rfl⟩ := h
    obtain rfl := Option.some.inj hn
    simp [Journal.view, Journal.servicesNamed, Journal.actionsOf, Journal.friendsOf, Sql.onView]
  | insertFriend row =>
    simp only [Sql.effect, Option.ite_none_left_eq_some, Option.some.injEq] at h
    obtain ⟨-, rfl⟩ := h
    obtain rfl := Option.some.inj hn
    simp [Journal.view, Journal.servicesNamed, Journal.actionsOf, Journal.friendsOf, Sql.onView]
  | deleteServices n =>
    obtain rfl := Option.some.inj h
    obtain rfl := Option.some.inj hn
    simp only [Journal.view, Journal.servicesNamed, Journal.actionsOf, Journal.friendsOf, Sql.onView,
      filter_filter_self]
  | deleteActions n =>
    obtain rfl := Option.some.inj h
    obtain rfl := Option.some.inj hn
    simp only [Journal.view, Journal.servicesNamed, Journal.actionsOf, Journal.friendsOf, Sql.onView,
      filter_filter_self]
  | deleteFriends n =>
    obtain rfl := Option.some.inj h
    obtain rfl := Option.some.inj hn
    simp only [Journal.view, Journal.servicesNamed, Journal.actionsOf, Journal.friendsOf, Sql.onView,
      filter_filter_self]
  | updateRvector n v =>
    obtain rfl := Option.some.inj h
    obtain rfl := Option.some.inj hn
    simp only [Journal.view, Journal.servicesNamed, Journal.actionsOf, Journal.friendsOf, Sql.onView,
      filter_map_rvector]
  | _ => simp [Sql.target] at hn

end RecoveryManager
