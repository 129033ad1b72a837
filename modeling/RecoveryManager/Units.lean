import Mathlib.Data.List.Nodup
import RecoveryManager.FriendText
import RecoveryManager.Reload
import RecoveryManager.Statements

/-!
# What a reload does

The rows of a unit file (`unitView`), and the meaning of a reload in which every statement goes through: a service
whose stored hash is the one of its file keeps its rows, another one gets the rows of its file, and the rows of the
other services stay (`run_rmgJournalReloadUnits`).

The insertions go through when no two rows get the same hash (`NoClash`).
-/

namespace RecoveryManager

open Fallible Fallible.Prog

/-! ### The rows of a unit -/

def serviceRow (jentry : RmgJEntry) (origin : UnitText) : ServiceRow where
  hash := jentry.hash.toInt
  name := jentry.name.getD ""
  privdata := jentry.privateData.getD ""
  publdata := jentry.publicData.getD ""
  rvector := 0
  chkstart := jentry.checkStart.toNat
  timeout := jentry.timeout
  origin := origin

def actionRow (jentry : RmgJEntry) (origin : UnitText) (action : RmgAEntry) : ActionRow where
  hash := action.hash.toInt
  service := jentry.name.getD ""
  type := action.type.code
  tlmin := action.triggerLevelMin
  tlmax := action.triggerLevelMax
  reset := action.resetAfter.toNat
  origin := origin

def friendRow (jentry : RmgJEntry) (origin : UnitText) (friend : RmgFEntry) : FriendRow where
  hash := friend.hash.toInt
  service := jentry.name.getD ""
  friend := friend.friendName
  context := friend.friendContext
  type := friend.type.code
  action := friend.action.code
  argument := friend.argument
  delay := friend.delay
  origin := origin

/-- The rows of an entry, in the order of the entry's lists. -/
def entryView (jentry : RmgJEntry) (origin : UnitText) : View where
  services := [serviceRow jentry origin]
  actions := jentry.actions.map (actionRow jentry origin)
  friends := jentry.friends.map (friendRow jentry origin)

def unitView (glib : GLib) (hostName : String) (text : UnitText) : View := entryView (entryOf glib hostName text) text

def unitName (glib : GLib) (hostName : String) (text : UnitText) : String :=
  (entryOf glib hostName text).name.getD ""

/-- What is parsed of a file that can be read. -/
def UnitFile.text (file : UnitFile) : UnitText := cString (file.contents.getD [])

/-- A service name and both data paths are there. -/
structure ValidEntry (jentry : RmgJEntry) : Prop where
  name : jentry.name.isSome
  privateData : jentry.privateData.isSome
  publicData : jentry.publicData.isSome

/-- The strings of the rows of an entry. -/
def RmgJEntry.strings (jentry : RmgJEntry) : List String :=
  jentry.name.toList ++ jentry.privateData.toList ++ jentry.publicData.toList ++
    jentry.friends.flatMap fun f => [f.friendName, f.friendContext]

/-- No string of the unit has a quote. -/
def UnquotedUnit (glib : GLib) (hostName : String) (file : UnitFile) : Prop :=
  ∀ s ∈ (entryOf glib hostName file.text).strings, Unquoted s

instance (glib : GLib) (hostName : String) (file : UnitFile) : Decidable (UnquotedUnit glib hostName file) :=
  inferInstanceAs (Decidable (∀ s ∈ _, Unquoted s))

/-- The same, if the file is a unit at all. -/
def UnquotedFile (glib : GLib) (hostName : String) (file : UnitFile) : Prop :=
  file.contents.isSome → (glib.markup file.text).ok → UnquotedUnit glib hostName file

instance (glib : GLib) (hostName : String) (file : UnitFile) : Decidable (UnquotedFile glib hostName file) :=
  inferInstanceAs (Decidable (_ → _ → UnquotedUnit glib hostName file))

structure ValidUnit (glib : GLib) (hostName : String) (file : UnitFile) : Prop where
  readable : file.contents.isSome
  parses : (glib.markup file.text).ok
  entry : ValidEntry (entryOf glib hostName file.text)
  unquoted : UnquotedUnit glib hostName file

theorem ValidUnit.name_unquoted {glib : GLib} {hostName : String} {file : UnitFile}
    (h : ValidUnit glib hostName file) : Unquoted (unitName glib hostName file.text) := by
  obtain ⟨n, hn⟩ := Option.isSome_iff_exists.1 h.entry.name
  refine h.unquoted _ ?_
  simp [unitName, RmgJEntry.strings, hn]

/-- A friend of the unit has two texts. -/
def UnitFile.Torn (glib : GLib) (file : UnitFile) : Prop := TornFriend glib (glib.markup file.text).events

theorem contextFreedTwice_entryOf (glib : GLib) (hostName : String) (file : UnitFile) :
    (entryOf glib hostName file.text).contextFreedTwice = true ↔ file.Torn glib :=
  contextFreedTwice_iff ..

instance (glib : GLib) (file : UnitFile) : Decidable (file.Torn glib) :=
  decidable_of_iff _ (contextFreedTwice_entryOf glib "" file)

instance (jentry : RmgJEntry) : Decidable (ValidEntry jentry) :=
  decidable_of_iff (jentry.name.isSome ∧ jentry.privateData.isSome ∧ jentry.publicData.isSome)
    ⟨fun ⟨h₁, h₂, h₃⟩ => ⟨h₁, h₂, h₃⟩, fun ⟨h₁, h₂, h₃⟩ => ⟨h₁, h₂, h₃⟩⟩

instance (glib : GLib) (hostName : String) (file : UnitFile) : Decidable (ValidUnit glib hostName file) :=
  decidable_of_iff (file.contents.isSome ∧ (glib.markup file.text).ok ∧ ValidEntry (entryOf glib hostName file.text) ∧
      UnquotedUnit glib hostName file)
    ⟨fun ⟨h₁, h₂, h₃, h₄⟩ => ⟨h₁, h₂, h₃, h₄⟩, fun ⟨h₁, h₂, h₃, h₄⟩ => ⟨h₁, h₂, h₃, h₄⟩⟩

/-! ### Hashes -/

def View.hash (v : View) : Gulong := v.services.foldl (fun _ r => gAsciiStrtoull (printLd r.hash)) 0

theorem Journal.hashOf_eq (j : Journal) (s : String) : j.hashOf s = (j.view s).hash := rfl

theorem entryView_hash (jentry : RmgJEntry) (origin : UnitText) : (entryView jentry origin).hash = jentry.hash :=
  gAsciiStrtoull_printLd jentry.hash

private theorem nextHash_hash (glib : GLib) (jentry : RmgJEntry) : (nextHash glib jentry).2.hash = jentry.hash := by
  unfold nextHash
  split <;> rfl

private theorem serviceAttribute_hash (attributes : List (String × String)) (jentry : RmgJEntry) :
    (attributes.foldl serviceAttribute jentry).hash = jentry.hash := by
  induction attributes generalizing jentry with
  | nil => rfl
  | cons a attributes ih =>
    rw [List.foldl_cons, ih]
    unfold serviceAttribute
    split
    split
    · rfl
    · split <;> rfl

/-- The callbacks leave the hash of the entry alone. -/
private theorem parserEvent_hash (glib : GLib) (hostName : String) (jentry : RmgJEntry) (e : MarkupEvent) :
    (parserEvent glib hostName jentry e).hash = jentry.hash := by
  cases e with
  | startElement name attributes =>
    simp only [parserEvent, parserStartElement]
    split
    · unfold parserStartAction
      dsimp only
      split
      · rfl
      · exact nextHash_hash glib _
    · split
      · rfl
      · split
        · exact serviceAttribute_hash attributes _
        · rfl
  | endElement => rfl
  | text text =>
    simp only [parserEvent, parserTextData]
    split
    · split
      · rfl
      · split
        · rfl
        · split
          · rfl
          · split
            · exact nextHash_hash glib _
            · rfl
    · rfl

theorem parseEvents_hash (glib : GLib) (hostName : String) (hash : Gulong) (events : List MarkupEvent) :
    (parseEvents glib hostName hash events).hash = hash := by
  have h : ∀ jentry, (events.foldl (parserEvent glib hostName) jentry).hash = jentry.hash := by
    intro jentry
    induction events generalizing jentry with
    | nil => rfl
    | cons e events ih => rw [List.foldl_cons, ih, parserEvent_hash]
  exact h _

theorem entryOf_hash (glib : GLib) (hostName : String) (text : UnitText) :
    (entryOf glib hostName text).hash = rmgUtilsJenkinsHash text :=
  parseEvents_hash glib hostName _ _

theorem unitView_hash (glib : GLib) (hostName : String) (text : UnitText) :
    (unitView glib hostName text).hash = rmgUtilsJenkinsHash text := by
  rw [unitView, entryView_hash, entryOf_hash]

/-! ### The statements of one unit -/

def removalOf (name : String) : List Sql := [.deleteServices name, .deleteActions name, .deleteFriends name]

/-- What is sent for a unit when `as` and `fs` are the actions and friends whose insertions take effect. -/
def ingestPlan (jentry : RmgJEntry) (origin : UnitText) (as : List RmgAEntry) (fs : List RmgFEntry) : List Sql :=
  removalOf (jentry.name.getD "") ++ .insertService (serviceRow jentry origin) ::
    (as.map (.insertAction <| actionRow jentry origin ·) ++ fs.map (.insertFriend <| friendRow jentry origin ·))

theorem target_of_mem_ingestPlan {jentry : RmgJEntry} {origin : UnitText} {as : List RmgAEntry} {fs : List RmgFEntry}
    {q : Sql} (h : q ∈ ingestPlan jentry origin as fs) : q.target = some (jentry.name.getD "") := by
  simp only [ingestPlan, removalOf, List.mem_append, List.mem_cons, List.mem_map, List.not_mem_nil, or_false] at h
  rcases h with (rfl | rfl | rfl) | rfl | ⟨a, -, rfl⟩ | ⟨f, -, rfl⟩ <;> rfl

theorem replay_removalOf (name : String) (v : View) : replay name (removalOf name) v = ⟨[], [], []⟩ := by
  simp [replay, removalOf, Sql.target, Sql.onView]

theorem replay_insertActions {s : String} {rows : List ActionRow} (h : ∀ r ∈ rows, r.service = s) (v : View) :
    replay s (rows.map .insertAction) v = { v with actions := v.actions ++ rows } := by
  induction rows generalizing v with
  | nil => simp [replay]
  | cons r rows ih =>
    have hr : (Sql.insertAction r).target = some s := congrArg some (h r (by simp))
    rw [List.map_cons, ← List.singleton_append, replay_append, replay_of_target hr, ih fun r hr => h r (by simp [hr])]
    simp [Sql.onView]

theorem replay_insertFriends {s : String} {rows : List FriendRow} (h : ∀ r ∈ rows, r.service = s) (v : View) :
    replay s (rows.map .insertFriend) v = { v with friends := v.friends ++ rows } := by
  induction rows generalizing v with
  | nil => simp [replay]
  | cons r rows ih =>
    have hr : (Sql.insertFriend r).target = some s := congrArg some (h r (by simp))
    rw [List.map_cons, ← List.singleton_append, replay_append, replay_of_target hr, ih fun r hr => h r (by simp [hr])]
    simp [Sql.onView]

theorem replay_ingestPlan (jentry : RmgJEntry) (origin : UnitText) (as : List RmgAEntry) (fs : List RmgFEntry)
    (v : View) : replay (jentry.name.getD "") (ingestPlan jentry origin as fs) v =
      ⟨[serviceRow jentry origin], as.map (actionRow jentry origin), fs.map (friendRow jentry origin)⟩ := by
  have ha : as.map (Sql.insertAction <| actionRow jentry origin ·) =
      (as.map (actionRow jentry origin)).map .insertAction := by simp
  have hf : fs.map (Sql.insertFriend <| friendRow jentry origin ·) =
      (fs.map (friendRow jentry origin)).map .insertFriend := by simp
  rw [ingestPlan, replay_append, replay_removalOf, ← List.singleton_append, replay_append, replay_of_target rfl,
    replay_append, ha, replay_insertActions, hf, replay_insertFriends]
  · simp [Sql.onView]
  · intro r hr
    obtain ⟨f, -, rfl⟩ := List.mem_map.1 hr
    rfl
  · intro r hr
    obtain ⟨a, -, rfl⟩ := List.mem_map.1 hr
    rfl

/-! ### A unit whose statements go through -/

/-- No row of one has the hash of a row of the other. -/
structure View.Disjoint (u v : View) : Prop where
  services : ∀ r ∈ u.services, ∀ r' ∈ v.services, r'.hash ≠ r.hash
  actions : ∀ r ∈ u.actions, ∀ r' ∈ v.actions, r'.hash ≠ r.hash
  friends : ∀ r ∈ u.friends, ∀ r' ∈ v.friends, r'.hash ≠ r.hash

/-- The rows of a service have different hashes. -/
structure View.Distinct (v : View) : Prop where
  actions : (v.actions.map (·.hash)).Nodup
  friends : (v.friends.map (·.hash)).Nodup

instance (u v : View) : Decidable (u.Disjoint v) :=
  decidable_of_iff ((∀ r ∈ u.services, ∀ r' ∈ v.services, r'.hash ≠ r.hash) ∧
      (∀ r ∈ u.actions, ∀ r' ∈ v.actions, r'.hash ≠ r.hash) ∧ ∀ r ∈ u.friends, ∀ r' ∈ v.friends, r'.hash ≠ r.hash)
    ⟨fun ⟨h₁, h₂, h₃⟩ => ⟨h₁, h₂, h₃⟩, fun ⟨h₁, h₂, h₃⟩ => ⟨h₁, h₂, h₃⟩⟩

instance (v : View) : Decidable v.Distinct :=
  decidable_of_iff ((v.actions.map (·.hash)).Nodup ∧ (v.friends.map (·.hash)).Nodup)
    ⟨fun ⟨h₁, h₂⟩ => ⟨h₁, h₂⟩, fun ⟨h₁, h₂⟩ => ⟨h₁, h₂⟩⟩

namespace Instance

variable {w w' : Instance}

theorem run_rmgJournalRemoveService (w : Instance) (s : String) :
    ∃ w', w.run (rmgJournalRemoveService (some s)) = (some .ok, w') ∧ Wrote w w' (removalOf s) :=
  ⟨_, rfl, ((wrote_commit (q := .deleteServices s) rfl rfl).trans
    (wrote_commit (q := .deleteActions s) rfl rfl)).trans (wrote_commit (q := .deleteFriends s) rfl rfl)⟩

section ingest
variable {jentry : RmgJEntry} {origin : UnitText}

/-- The rows in the middle of the work on a unit. -/
private theorem view_of_ingestPlan {as : List RmgAEntry} {fs : List RmgFEntry}
    (h : Wrote w w' (ingestPlan jentry origin as fs)) : w'.journal.view (jentry.name.getD "") =
        ⟨[serviceRow jentry origin], as.map (actionRow jentry origin), fs.map (friendRow jentry origin)⟩ ∧
      ∀ s, s ≠ jentry.name.getD "" → w'.journal.view s = w.journal.view s := by
  refine ⟨by rw [h.view, replay_ingestPlan], fun s hs => ?_⟩
  rw [h.view, replay_of_ne fun q hq => ?_]
  rw [target_of_mem_ingestPlan hq]
  exact fun e => hs (Option.some.inj e).symm

theorem run_addAction {n : String} (hn : jentry.name = some n) {a : RmgAEntry}
    (h : ∀ s, ¬ (Sql.insertAction (actionRow jentry origin a)).Clashes (w.journal.view s)) :
    ∃ w', w.run (addActionForService jentry origin a) = (some ⟨⟩, w') ∧
      Wrote w w' [.insertAction (actionRow jentry origin a)] := by
  obtain ⟨j, hj⟩ := Sql.effect_of_not_clashes h
  refine ⟨_, ?_, wrote_commit rfl hj⟩
  have hr : actionRow jentry origin a = ⟨a.hash.toInt, n, a.type.code, a.triggerLevelMin, a.triggerLevelMax,
      a.resetAfter.toNat, origin⟩ := by simp [actionRow, hn]
  rw [hr] at hj ⊢
  rw [addActionForService, hn]
  show w.run ((sqliteExec _ >>= _) >>= _) = _
  rw [run_bind (run_bind (run_sqliteExec hj))]
  rfl

variable (hv : ValidEntry jentry)
include hv

private theorem run_addService (h : ∀ s, ¬ (Sql.insertService (serviceRow jentry origin)).Clashes (w.journal.view s)) :
    ∃ w', w.run (rmgJournalAddService jentry.hash jentry.name jentry.privateData jentry.publicData jentry.checkStart
      jentry.timeout origin) = (some .ok, w') ∧ Wrote w w' [.insertService (serviceRow jentry origin)] := by
  obtain ⟨j, hj⟩ := Sql.effect_of_not_clashes h
  obtain ⟨n, hn⟩ := Option.isSome_iff_exists.1 hv.name
  obtain ⟨p, hp⟩ := Option.isSome_iff_exists.1 hv.privateData
  obtain ⟨p', hp'⟩ := Option.isSome_iff_exists.1 hv.publicData
  refine ⟨_, ?_, wrote_commit rfl hj⟩
  have hr : serviceRow jentry origin = ⟨jentry.hash.toInt, n, p, p', 0, jentry.checkStart.toNat, jentry.timeout,
      origin⟩ := by simp [serviceRow, hn, hp, hp']
  rw [hr] at hj ⊢
  rw [hn, hp, hp']
  show w.run (sqliteExec _ >>= _) = _
  rw [run_bind (run_sqliteExec hj)]
  rfl

private theorem run_addFriend {f : RmgFEntry}
    (h : ∀ s, ¬ (Sql.insertFriend (friendRow jentry origin f)).Clashes (w.journal.view s)) :
    ∃ w', w.run (addFriendForService jentry origin f) = (some ⟨⟩, w') ∧
      Wrote w w' [.insertFriend (friendRow jentry origin f)] := by
  obtain ⟨j, hj⟩ := Sql.effect_of_not_clashes h
  obtain ⟨n, hn⟩ := Option.isSome_iff_exists.1 hv.name
  refine ⟨_, ?_, wrote_commit rfl hj⟩
  have hr : friendRow jentry origin f = ⟨f.hash.toInt, n, f.friendName, f.friendContext, f.type.code, f.action.code,
      f.argument, f.delay, origin⟩ := by simp [friendRow, hn]
  rw [hr] at hj ⊢
  rw [addFriendForService, hn]
  show w.run ((sqliteExec _ >>= _) >>= _) = _
  rw [run_bind (run_bind (run_sqliteExec hj))]
  rfl

private theorem run_addActions (hd : (entryView jentry origin).Distinct) {w₂ : Instance}
    (ho : ∀ s, s ≠ jentry.name.getD "" → (entryView jentry origin).Disjoint (w.journal.view s))
    (h₂ : Wrote w w₂ (ingestPlan jentry origin [] [])) :
    ∃ w', w₂.run (List.forM jentry.actions (addActionForService jentry origin)) = (some ⟨⟩, w') ∧
      Wrote w w' (ingestPlan jentry origin jentry.actions []) := by
  refine run_forM machine true (I := fun as w' => Wrote w w' (ingestPlan jentry origin as [])) ?_ h₂
  intro ys y zs w₁ hx hw₁
  obtain ⟨hown, hother⟩ := view_of_ingestPlan hw₁
  have hclash : ∀ s, ¬ (Sql.insertAction (actionRow jentry origin y)).Clashes (w₁.journal.view s) := by
    rintro s ⟨r, hr, he⟩
    by_cases hs : s = jentry.name.getD ""
    · rw [hs, hown] at hr
      have := hd.actions
      simp only [entryView, hx, List.map_append, List.map_cons, List.nodup_append, List.mem_cons] at this
      exact this.2.2 _ (List.mem_map_of_mem hr) _ (.inl rfl) he
    · rw [hother s hs] at hr
      exact (ho s hs).actions _ (List.mem_map_of_mem (by simp [hx])) r hr he
  obtain ⟨n, hn⟩ := Option.isSome_iff_exists.1 hv.name
  obtain ⟨w', h', hw'⟩ := run_addAction hn hclash
  exact ⟨w', h', by simpa [ingestPlan] using hw₁.trans hw'⟩

private theorem run_addFriends (hd : (entryView jentry origin).Distinct) {w₂ : Instance}
    (ho : ∀ s, s ≠ jentry.name.getD "" → (entryView jentry origin).Disjoint (w.journal.view s))
    (h₂ : Wrote w w₂ (ingestPlan jentry origin jentry.actions [])) :
    ∃ w', w₂.run (List.forM jentry.friends (addFriendForService jentry origin)) = (some ⟨⟩, w') ∧
      Wrote w w' (ingestPlan jentry origin jentry.actions jentry.friends) := by
  refine run_forM machine true (I := fun fs w' => Wrote w w' (ingestPlan jentry origin jentry.actions fs)) ?_ h₂
  intro ys y zs w₁ hx hw₁
  obtain ⟨hown, hother⟩ := view_of_ingestPlan hw₁
  have hclash : ∀ s, ¬ (Sql.insertFriend (friendRow jentry origin y)).Clashes (w₁.journal.view s) := by
    rintro s ⟨r, hr, he⟩
    by_cases hs : s = jentry.name.getD ""
    · rw [hs, hown] at hr
      have := hd.friends
      simp only [entryView, hx, List.map_append, List.map_cons, List.nodup_append, List.mem_cons] at this
      exact this.2.2 _ (List.mem_map_of_mem hr) _ (.inl rfl) he
    · rw [hother s hs] at hr
      exact (ho s hs).friends _ (List.mem_map_of_mem (by simp [hx])) r hr he
  obtain ⟨w', h', hw'⟩ := run_addFriend hv hclash
  exact ⟨w', h', by simpa [ingestPlan] using hw₁.trans hw'⟩

private theorem run_replaceService (hd : (entryView jentry origin).Distinct)
    (ho : ∀ s, s ≠ jentry.name.getD "" → (entryView jentry origin).Disjoint (w.journal.view s)) :
    ∃ w', w.run (replaceService jentry origin) = (some ⟨⟩, w') ∧
      Wrote w w' (ingestPlan jentry origin jentry.actions jentry.friends) := by
  obtain ⟨n, hn⟩ := Option.isSome_iff_exists.1 hv.name
  obtain ⟨w₁, h₁, hw₁⟩ := run_rmgJournalRemoveService w (jentry.name.getD "")
  have hclash : ∀ s, ¬ (Sql.insertService (serviceRow jentry origin)).Clashes (w₁.journal.view s) := by
    rintro s ⟨r, hr, he⟩
    rw [hw₁.view] at hr
    by_cases hs : s = jentry.name.getD ""
    · rw [hs, replay_removalOf] at hr
      simp at hr
    · rw [replay_of_ne] at hr
      · exact (ho s hs).services _ (by simp [entryView]) r hr he
      · intro q hq
        have hq : q ∈ ingestPlan jentry origin [] [] := List.mem_append_left _ hq
        rw [target_of_mem_ingestPlan hq]
        exact fun e => hs (Option.some.inj e).symm
  obtain ⟨w₂, h₂, hw₂⟩ := run_addService hv hclash
  obtain ⟨w₃, h₃, hw₃⟩ := run_addActions hv hd ho (hw₁.trans hw₂)
  obtain ⟨w₄, h₄, hw₄⟩ := run_addFriends hv hd ho hw₃
  refine ⟨w₄, ?_, hw₄⟩
  have hs : some (jentry.name.getD "") = jentry.name := by rw [hn, Option.getD_some]
  rw [hs] at h₁
  rw [replaceService, run_bind h₁]
  show w₁.run (rmgJournalAddService _ _ _ _ _ _ _ >>= _) = _
  rw [run_bind h₂]
  show w₂.run (List.forM _ _ >>= _) = _
  rw [run_bind h₃]
  exact h₄

/-- The unit is written when the stored hash is another one, and left alone when it is the same. -/
theorem run_ingestEntry (hd : (entryView jentry origin).Distinct)
    (ho : ∀ s, s ≠ jentry.name.getD "" → (entryView jentry origin).Disjoint (w.journal.view s)) :
    ∃ w', w.run (ingestEntry jentry origin) = (some ⟨⟩, w') ∧
      Wrote w w' (if jentry.hash = (w.journal.view (jentry.name.getD "")).hash then []
        else ingestPlan jentry origin jentry.actions jentry.friends) := by
  obtain ⟨n, hn⟩ := Option.isSome_iff_exists.1 hv.name
  have hget : jentry.name.getD "" = n := by rw [hn, Option.getD_some]
  have hrun : w.run (ingestEntry jentry origin) =
      w.run (if jentry.hash = (w.journal.view n).hash then pure ⟨⟩ else replaceService jentry origin) := by
    unfold ingestEntry
    rw [hn, run_bind (run_rmgJournalGetHash w n)]
    rfl
  rw [hrun, hget]
  by_cases hh : jentry.hash = (w.journal.view n).hash
  · rw [if_pos hh, if_pos hh]
    exact ⟨w, rfl, .refl w⟩
  · rw [if_neg hh, if_neg hh]
    exact run_replaceService hv hd ho

end ingest

end Instance

/-! ### A directory whose statements go through -/

/-- The statements sent for one file. -/
def unitPlan (glib : GLib) (hostName : String) (view : String → View) (file : UnitFile) : List Sql :=
  let jentry := entryOf glib hostName file.text
  if (view (unitName glib hostName file.text)).hash = rmgUtilsJenkinsHash file.text then []
  else ingestPlan jentry file.text jentry.actions jentry.friends

/-- No two rows of the units, or of a unit and another service in the journal, have the same hash. -/
structure NoClash (glib : GLib) (hostName : String) (view : String → View) (files : List UnitFile) : Prop where
  distinct : ∀ f ∈ files, (unitView glib hostName f.text).Distinct
  disjoint : ∀ f ∈ files, ∀ f' ∈ files, unitName glib hostName f'.text ≠ unitName glib hostName f.text →
    (unitView glib hostName f.text).Disjoint (unitView glib hostName f'.text)
  others : ∀ f ∈ files, ∀ s, s ≠ unitName glib hostName f.text →
    (unitView glib hostName f.text).Disjoint (view s)

/-- The rows of a service after a reload: those of its file if the stored hash is another one. -/
def reloadedView (glib : GLib) (hostName : String) (view : String → View) (files : List UnitFile) (s : String) : View :=
  match files.find? fun f => unitName glib hostName f.text = s with
  | none => view s
  | some f => if (view s).hash = rmgUtilsJenkinsHash f.text then view s else unitView glib hostName f.text

section reload
variable {glib : GLib} {hostName : String} {view : String → View} {files : List UnitFile}

theorem target_of_mem_unitPlan {f : UnitFile} {q : Sql} (h : q ∈ unitPlan glib hostName view f) :
    q.target = some (unitName glib hostName f.text) := by
  unfold unitPlan at h
  split at h
  · simp at h
  · exact target_of_mem_ingestPlan h

theorem replay_unitPlan (f : UnitFile) :
    replay (unitName glib hostName f.text) (unitPlan glib hostName view f) (view (unitName glib hostName f.text)) =
      if (view (unitName glib hostName f.text)).hash = rmgUtilsJenkinsHash f.text then
        view (unitName glib hostName f.text)
      else unitView glib hostName f.text := by
  unfold unitPlan
  split
  · rfl
  · exact replay_ingestPlan _ _ _ _ _

private theorem replay_unitPlan_of_ne {f : UnitFile} {s : String} (h : unitName glib hostName f.text ≠ s) (v : View) :
    replay s (unitPlan glib hostName view f) v = v := by
  refine replay_of_ne (fun q hq => ?_) v
  rw [target_of_mem_unitPlan hq]
  exact fun e => h (Option.some.inj e)

theorem replay_unitPlans (hn : (files.map fun f => unitName glib hostName f.text).Nodup) (s : String) :
    replay s (files.flatMap (unitPlan glib hostName view)) (view s) = reloadedView glib hostName view files s := by
  induction files with
  | nil => rfl
  | cons f files ih =>
    rw [List.map_cons, List.nodup_cons] at hn
    rw [List.flatMap_cons, replay_append]
    by_cases hf : unitName glib hostName f.text = s
    · subst hf
      rw [replay_unitPlan, replay_of_ne]
      · simp [reloadedView]
      · intro q hq
        obtain ⟨f', hf', hq⟩ := List.mem_flatMap.1 hq
        rw [target_of_mem_unitPlan hq]
        exact fun e => hn.1 (List.mem_map.2 ⟨f', hf', Option.some.inj e⟩)
    · rw [replay_unitPlan_of_ne hf, ih hn.2]
      simp [reloadedView, hf]

theorem reloadedView_cases (glib : GLib) (hostName : String) (view : String → View) (files : List UnitFile)
    (s : String) :
    reloadedView glib hostName view files s = view s ∨
      ∃ f ∈ files, unitName glib hostName f.text = s ∧
        reloadedView glib hostName view files s = unitView glib hostName f.text := by
  unfold reloadedView
  split
  · exact .inl rfl
  · rename_i f hf
    split
    · exact .inl rfl
    · exact .inr ⟨f, List.mem_of_find?_eq_some hf, by simpa using List.find?_some hf, rfl⟩

theorem find?_of_nodup (hn : (files.map fun f => unitName glib hostName f.text).Nodup)
    {f : UnitFile} (hf : f ∈ files) :
    files.find? (fun f' => unitName glib hostName f'.text = unitName glib hostName f.text) = some f := by
  cases h : files.find? fun f' => unitName glib hostName f'.text = unitName glib hostName f.text with
  | none => exact absurd (List.find?_eq_none.1 h f hf) (by simp)
  | some f' =>
    have hname : unitName glib hostName f'.text = unitName glib hostName f.text := by simpa using List.find?_some h
    rw [List.inj_on_of_nodup_map hn (List.mem_of_find?_eq_some h) hf hname]

/-- A reload does not bring hashes together. -/
theorem NoClash.reloaded (h : NoClash glib hostName view files) :
    NoClash glib hostName (reloadedView glib hostName view files) files := by
  refine ⟨h.distinct, h.disjoint, fun f hf s hs => ?_⟩
  rcases reloadedView_cases glib hostName view files s with e | ⟨f', hf', rfl, e⟩
  · rw [e]
    exact h.others f hf s hs
  · rw [e]
    exact h.disjoint f hf f' hf' hs

end reload

namespace Instance

variable {w : Instance} {glib : GLib}

/-- The loop body for a file that can be read. -/
theorem run_reloadUnit_of_readable (w : Instance) {f : UnitFile} (hr : f.contents.isSome) :
    w.run (reloadUnit glib f) = w.run (if (entryOf glib w.hostName f.text).contextFreedTwice then .abort
      else if (glib.markup f.text).ok then ingestEntry (entryOf glib w.hostName f.text) f.text else pure ⟨⟩) := by
  obtain ⟨c, hc⟩ := Option.isSome_iff_exists.1 hr
  have ht : f.text = cString c := by rw [UnitFile.text, hc, Option.getD_some]
  unfold reloadUnit
  rw [hc, ht]
  rfl

theorem run_reloadUnit_of_torn (w : Instance) {f : UnitFile} (hr : f.contents.isSome) (ht : f.Torn glib) :
    w.run (reloadUnit glib f) = (none, w) := by
  rw [run_reloadUnit_of_readable w hr, if_pos ((contextFreedTwice_entryOf glib w.hostName f).2 ht)]
  rfl

/-- A valid unit is ingested when the stored hash of its service is another one. -/
theorem run_reloadUnit {f : UnitFile} (hv : ValidUnit glib w.hostName f) (hw : ¬ f.Torn glib)
    (hd : (unitView glib w.hostName f.text).Distinct)
    (ho : ∀ s, s ≠ unitName glib w.hostName f.text → (unitView glib w.hostName f.text).Disjoint (w.journal.view s)) :
    ∃ w', w.run (reloadUnit glib f) = (some ⟨⟩, w') ∧
      Wrote w w' (unitPlan glib w.hostName w.journal.view f) := by
  obtain ⟨w', h', hw'⟩ := run_ingestEntry hv.entry hd ho
  refine ⟨w', ?_, ?_⟩
  · rw [run_reloadUnit_of_readable w hv.readable,
      if_neg fun ht => hw ((contextFreedTwice_entryOf glib w.hostName f).1 ht), if_pos hv.parses, h']
  · simpa only [unitPlan, unitName, entryOf_hash, eq_comm] using hw'

/-- A complete reload sends, file by file, the statements of the units whose stored hash is another one. -/
theorem run_rmgJournalReloadUnits {files : List UnitFile} (hv : ∀ f ∈ files, ValidUnit glib w.hostName f)
    (hw : ∀ f ∈ files, ¬ f.Torn glib) (hn : (files.map fun f => unitName glib w.hostName f.text).Nodup)
    (hc : NoClash glib w.hostName w.journal.view files) :
    ∃ w', w.run (rmgJournalReloadUnits glib (some files)) = (some .ok, w') ∧
      Wrote w w' (files.flatMap (unitPlan glib w.hostName w.journal.view)) ∧
      ∀ s, w'.journal.view s = reloadedView glib w.hostName w.journal.view files s := by
  have hbody : ∀ ys y zs w₁, files = ys ++ y :: zs →
      Wrote w w₁ (ys.flatMap (unitPlan glib w.hostName w.journal.view)) →
      ∃ w₂, w₁.run (reloadUnit glib y) = (some ⟨⟩, w₂) ∧
        Wrote w w₂ ((ys ++ [y]).flatMap (unitPlan glib w.hostName w.journal.view)) := by
    intro ys y zs w₁ hx hw₁
    have hy : y ∈ files := by simp [hx]
    rw [hx, List.map_append, List.nodup_append] at hn
    -- the files before `y` have other names, so the rows of `y` are those of the start
    have hview : ∀ s, w₁.journal.view s = reloadedView glib w.hostName w.journal.view ys s := fun s => by
      rw [hw₁.view, replay_unitPlans hn.1]
    have hown : w₁.journal.view (unitName glib w.hostName y.text) =
        w.journal.view (unitName glib w.hostName y.text) := by
      rw [hw₁.view, replay_of_ne]
      intro q hq
      obtain ⟨f, hf, hq⟩ := List.mem_flatMap.1 hq
      rw [target_of_mem_unitPlan hq]
      exact fun e => hn.2.2 _ (List.mem_map_of_mem hf) _ (by simp) (Option.some.inj e)
    have hhost := hw₁.hostName
    have hothers : ∀ s, s ≠ unitName glib w₁.hostName y.text →
        (unitView glib w₁.hostName y.text).Disjoint (w₁.journal.view s) := by
      rw [hhost]
      intro s hs
      rw [hview]
      rcases reloadedView_cases glib w.hostName w.journal.view ys s with e | ⟨f, hf, rfl, e⟩
      · rw [e]
        exact hc.others y hy s hs
      · rw [e]
        exact hc.disjoint y hy f (by simp [hx, hf]) hs
    obtain ⟨w₂, h₂, hw₂⟩ := run_reloadUnit (hhost ▸ hv y hy) (hw y hy) (hhost ▸ hc.distinct y hy) hothers
    refine ⟨w₂, h₂, ?_⟩
    have hplan : unitPlan glib w₁.hostName w₁.journal.view y = unitPlan glib w.hostName w.journal.view y := by
      rw [hhost, unitPlan, unitPlan, hown]
    rw [List.flatMap_append, List.flatMap_singleton, ← hplan]
    exact hw₁.trans hw₂
  obtain ⟨w', h', hw'⟩ := run_forM machine true hbody (.refl w)
  refine ⟨w', ?_, hw', fun s => ?_⟩
  · show w.run (List.forM files (reloadUnit glib) >>= _) = _
    rw [run_bind h']
    rfl
  · rw [hw'.view, replay_unitPlans hn]

/-- A reload that comes to its end has met no torn friend. -/
theorem not_torn_of_reload {files : List UnitFile} {st : RmgStatus}
    (h : (w.run (rmgJournalReloadUnits glib (some files))).1 = some st) {f : UnitFile} (hf : f ∈ files)
    (hr : f.contents.isSome) : ¬ f.Torn glib := by
  intro ht
  have hloop : ∀ (files : List UnitFile) (w : Instance), f ∈ files →
      (w.run (List.forM files (reloadUnit glib))).1 = none := by
    intro files
    induction files with
    | nil => exact fun _ hf => absurd hf List.not_mem_nil
    | cons g files ih =>
      intro w hf
      show (w.run (reloadUnit glib g >>= fun _ => List.forM files (reloadUnit glib))).1 = none
      rcases hg : w.run (reloadUnit glib g) with ⟨_ | ⟨⟩, w₁⟩
      · rw [run_bind_none hg]
      · rw [run_bind hg]
        refine ih w₁ ((List.mem_cons.1 hf).resolve_left fun he => ?_)
        rw [← he, run_reloadUnit_of_torn w hr ht] at hg
        cases hg
  have hnone := hloop files w hf
  rw [show w.run (rmgJournalReloadUnits glib (some files)) = _ from run_bind_none (Prod.ext hnone rfl)] at h
  cases h

end Instance

end RecoveryManager
