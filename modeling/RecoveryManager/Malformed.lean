import RecoveryManager.Lib.Keyed
import RecoveryManager.UnitSource

/-!
# Bad unit files

What the loop body of a reload makes of the tables for a file with any content (`reloadUnitTables`): it may abort on a
missing name or a torn friend, and it may insert a part of the rows when hashes collide.

`g_markup_parse_context_end_parse` is never called, so a text that some continuation would complete is accepted as it
is.  `complete` stands for the texts that GMarkup takes as complete documents.  A reload leaves the other units alone,
whatever a file contains, if and only if every file is harmless when its turn comes (`reloads_robustly_iff`).  The
strings of the units that are accepted are free of quotes: with a quote SQLite reads another statement.
-/

namespace RecoveryManager

open Fallible Fallible.Prog

/-! ### The loop body on the tables -/

def Journal.without (j : Journal) (s : String) : Journal where
  services := j.services.filter (·.name ≠ s)
  actions := j.actions.filter (·.service ≠ s)
  friends := j.friends.filter (·.service ≠ s)

/-- The rows of an entry in place of those of its service, as far as their hashes are free. -/
def replacedTables (jentry : RmgJEntry) (origin : UnitText) (j : Journal) : Journal :=
  let j := j.without (jentry.name.getD "")
  if j.services.any (·.hash = (serviceRow jentry origin).hash) then j
  else
    { services := j.services ++ [serviceRow jentry origin]
      actions := Keyed.insertAll ActionRow.hash j.actions (jentry.actions.map (actionRow jentry origin))
      friends := Keyed.insertAll FriendRow.hash j.friends (jentry.friends.map (friendRow jentry origin)) }

/-- The tables after a file; `none` is a failing assertion or memory that is freed twice. -/
def reloadUnitTables (glib : GLib) (hostName : String) (j : Journal) (f : UnitFile) : Option Journal :=
  let jentry := entryOf glib hostName f.text
  if f.contents.isSome ∧ f.Torn glib then none
  else if f.contents.isSome ∧ (glib.markup f.text).ok then
    if jentry.name.isSome then
      if rmgUtilsJenkinsHash f.text = j.hashOf (unitName glib hostName f.text) then some j
      else if jentry.privateData.isSome ∧ jentry.publicData.isSome then some (replacedTables jentry f.text j)
      else none
    else none
  else some j

namespace Instance

variable {w w' : Instance} {glib : GLib}

/-- `w'` has the tables `j` and the host name of `w`. -/
structure Tables (w w' : Instance) (j : Journal) : Prop where
  journal : w'.journal = j
  hostName : w'.hostName = w.hostName

section ingest
variable {jentry : RmgJEntry} {origin : UnitText} {s : String}

theorem commit_tables {q : Sql} {j : Journal} (h : q.isSelect = false) : Tables w (w.commit q j) j := by
  simp only [commit, h]
  exact ⟨rfl, rfl⟩

private theorem run_sqliteExec_none {q : Sql} (h : q.effect w.journal = none) : w.run (sqliteExec q) =
    (some none, w) := by
  show (some (apply (.sql q) true w).1, (apply (.sql q) true w).2) = _
  simp only [apply, h]
  rfl

private theorem tables_addAction (hname : jentry.name = some s) (origin : UnitText) (w : Instance) (a : RmgAEntry) :
    ∃ w', w.run (addActionForService jentry origin a) = (some ⟨⟩, w') ∧
      Tables w w' { w.journal with
        actions := Keyed.insert ActionRow.hash w.journal.actions (actionRow jentry origin a) } := by
  have hrow : actionRow jentry origin a = ⟨a.hash.toInt, s, a.type.code, a.triggerLevelMin, a.triggerLevelMax,
      a.resetAfter.toNat, origin⟩ := by simp [actionRow, hname]
  rw [addActionForService, hname, hrow]
  show ∃ w', w.run ((sqliteExec _ >>= _) >>= _) = _ ∧ _
  unfold Keyed.insert
  rw [← hrow]
  by_cases h : w.journal.actions.any (·.hash = (actionRow jentry origin a).hash)
  · have he : (Sql.insertAction (actionRow jentry origin a)).effect w.journal = none := if_pos h
    rw [run_bind (run_bind (run_sqliteExec_none he)), if_pos h]
    exact ⟨w, rfl, rfl, rfl⟩
  · have he : (Sql.insertAction (actionRow jentry origin a)).effect w.journal =
        some { w.journal with actions := w.journal.actions ++ [actionRow jentry origin a] } := if_neg h
    rw [run_bind (run_bind (run_sqliteExec he)), if_neg h]
    exact ⟨_, rfl, commit_tables rfl⟩

private theorem tables_addFriend (hname : jentry.name = some s) (origin : UnitText) (w : Instance) (f : RmgFEntry) :
    ∃ w', w.run (addFriendForService jentry origin f) = (some ⟨⟩, w') ∧
      Tables w w' { w.journal with
        friends := Keyed.insert FriendRow.hash w.journal.friends (friendRow jentry origin f) } := by
  have hrow : friendRow jentry origin f = ⟨f.hash.toInt, s, f.friendName, f.friendContext, f.type.code, f.action.code,
      f.argument, f.delay, origin⟩ := by simp [friendRow, hname]
  rw [addFriendForService, hname, hrow]
  show ∃ w', w.run ((sqliteExec _ >>= _) >>= _) = _ ∧ _
  unfold Keyed.insert
  rw [← hrow]
  by_cases h : w.journal.friends.any (·.hash = (friendRow jentry origin f).hash)
  · have he : (Sql.insertFriend (friendRow jentry origin f)).effect w.journal = none := if_pos h
    rw [run_bind (run_bind (run_sqliteExec_none he)), if_pos h]
    exact ⟨w, rfl, rfl, rfl⟩
  · have he : (Sql.insertFriend (friendRow jentry origin f)).effect w.journal =
        some { w.journal with friends := w.journal.friends ++ [friendRow jentry origin f] } := if_neg h
    rw [run_bind (run_bind (run_sqliteExec he)), if_neg h]
    exact ⟨_, rfl, commit_tables rfl⟩

private theorem tables_addActions (hname : jentry.name = some s) (origin : UnitText) (w : Instance) :
    ∃ w', w.run (List.forM jentry.actions (addActionForService jentry origin)) = (some ⟨⟩, w') ∧
      Tables w w' { w.journal with
        actions := Keyed.insertAll ActionRow.hash w.journal.actions
          (jentry.actions.map (actionRow jentry origin)) } := by
  refine run_forM machine true (I := fun as w' => Tables w w' { w.journal with
    actions := Keyed.insertAll ActionRow.hash w.journal.actions (as.map (actionRow jentry origin)) }) ?_ ⟨rfl, rfl⟩
  intro ys y zs w₁ _ hw₁
  obtain ⟨w₂, h₂, ht⟩ := tables_addAction hname origin w₁ y
  refine ⟨w₂, h₂, ?_, ht.hostName.trans hw₁.hostName⟩
  rw [ht.journal, hw₁.journal, List.map_append, Keyed.insertAll, Keyed.insertAll, List.foldl_append]
  rfl

private theorem tables_addFriends (hname : jentry.name = some s) (origin : UnitText) (w : Instance) :
    ∃ w', w.run (List.forM jentry.friends (addFriendForService jentry origin)) = (some ⟨⟩, w') ∧
      Tables w w' { w.journal with
        friends := Keyed.insertAll FriendRow.hash w.journal.friends
          (jentry.friends.map (friendRow jentry origin)) } := by
  refine run_forM machine true (I := fun fs w' => Tables w w' { w.journal with
    friends := Keyed.insertAll FriendRow.hash w.journal.friends (fs.map (friendRow jentry origin)) }) ?_ ⟨rfl, rfl⟩
  intro ys y zs w₁ _ hw₁
  obtain ⟨w₂, h₂, ht⟩ := tables_addFriend hname origin w₁ y
  refine ⟨w₂, h₂, ?_, ht.hostName.trans hw₁.hostName⟩
  rw [ht.journal, hw₁.journal, List.map_append, Keyed.insertAll, Keyed.insertAll, List.foldl_append]
  rfl

private theorem replaceService_of_removed {w w₁ : Instance} (origin : UnitText)
    (h : w.run (rmgJournalRemoveService jentry.name) = (some .ok, w₁)) :
    w.run (replaceService jentry origin) = w₁.run (rmgJournalAddService jentry.hash jentry.name
      jentry.privateData jentry.publicData jentry.checkStart jentry.timeout origin >>= fun status =>
        match status with
        | .error => pure ⟨⟩
        | .ok => List.forM jentry.actions (addActionForService jentry origin) >>= fun _ =>
            List.forM jentry.friends (addFriendForService jentry origin)) := run_bind h

/-- The rows are replaced, or the process aborts on a missing path after the old rows are gone. -/
private theorem tables_replaceService (hname : jentry.name = some s) (origin : UnitText) (w : Instance) :
    if jentry.privateData.isSome ∧ jentry.publicData.isSome then
      ∃ w', w.run (replaceService jentry origin) = (some ⟨⟩, w') ∧ Tables w w' (replacedTables jentry origin w.journal)
    else (w.run (replaceService jentry origin)).1 = none := by
  have hremove : ∃ w₁, w.run (rmgJournalRemoveService jentry.name) = (some .ok, w₁) ∧
      Tables w w₁ (w.journal.without s) := by
    rw [hname]
    exact ⟨_, rfl, rfl, rfl⟩
  obtain ⟨w₁, h₁, ht₁⟩ := hremove
  rw [replaceService_of_removed origin h₁]
  rcases hpriv : jentry.privateData with _ | priv
  · simp only [Option.isSome_none, Bool.false_eq_true, false_and, if_false]
    rw [hname]
    rfl
  rcases hpub : jentry.publicData with _ | publ
  · simp only [Option.isSome_none, Bool.false_eq_true, and_false, if_false]
    rw [hname]
    rfl
  rw [if_pos ⟨rfl, rfl⟩, hname]
  have hrow : serviceRow jentry origin = ⟨jentry.hash.toInt, s, priv, publ, 0, jentry.checkStart.toNat, jentry.timeout,
      origin⟩ := by simp [serviceRow, hname, hpriv, hpub]
  have hget : jentry.name.getD "" = s := by rw [hname, Option.getD_some]
  show ∃ w', w₁.run ((sqliteExec (.insertService ⟨jentry.hash.toInt, s, priv, publ, 0, jentry.checkStart.toNat,
    jentry.timeout, origin⟩) >>= _) >>= _) = _ ∧ _
  rw [← hrow]
  unfold replacedTables
  rw [hget, ← ht₁.journal]
  by_cases h : w₁.journal.services.any (·.hash = (serviceRow jentry origin).hash)
  · have he : (Sql.insertService (serviceRow jentry origin)).effect w₁.journal = none := if_pos h
    rw [run_bind (run_bind (run_sqliteExec_none he)), if_pos h]
    exact ⟨w₁, rfl, rfl, ht₁.hostName⟩
  · have he : (Sql.insertService (serviceRow jentry origin)).effect w₁.journal =
        some { w₁.journal with services := w₁.journal.services ++ [serviceRow jentry origin] } := if_neg h
    rw [run_bind (run_bind (run_sqliteExec he)), if_neg h]
    have ht₂ : Tables w₁ (w₁.commit (.insertService (serviceRow jentry origin))
      { w₁.journal with services := w₁.journal.services ++ [serviceRow jentry origin] }) _ := commit_tables rfl
    obtain ⟨w₃, h₃, ht₃⟩ := tables_addActions hname origin (w₁.commit
      (.insertService (serviceRow jentry origin))
      { w₁.journal with services := w₁.journal.services ++ [serviceRow jentry origin] })
    obtain ⟨w₄, h₄, ht₄⟩ := tables_addFriends hname origin w₃
    refine ⟨w₄, ?_, ?_, ht₄.hostName.trans (ht₃.hostName.trans (ht₂.hostName.trans ht₁.hostName))⟩
    · exact (run_bind h₃).trans h₄
    · rw [ht₄.journal, ht₃.journal, ht₂.journal]

end ingest

/-- The loop body does to the tables what `reloadUnitTables` says. -/
theorem tables_reloadUnit (glib : GLib) (w : Instance) (f : UnitFile) :
    match reloadUnitTables glib w.hostName w.journal f with
    | none => (w.run (reloadUnit glib f)).1 = none
    | some j => ∃ w', w.run (reloadUnit glib f) = (some ⟨⟩, w') ∧ Tables w w' j := by
  unfold reloadUnitTables
  by_cases hr : f.contents.isSome
  swap
  · simp only [hr, Bool.false_eq_true, false_and, if_false]
    rw [reloadUnit, Option.not_isSome_iff_eq_none.1 hr]
    exact ⟨w, rfl, rfl, rfl⟩
  by_cases ht : f.Torn glib
  · simp only [hr, ht, and_self, if_true]
    rw [run_reloadUnit_of_torn w hr ht]
  rw [run_reloadUnit_of_readable w hr, if_neg fun h => ht ((contextFreedTwice_entryOf glib w.hostName f).1 h)]
  simp only [hr, ht, true_and, and_false, if_false]
  by_cases hok : (glib.markup f.text).ok
  swap
  · simp only [hok, Bool.false_eq_true, if_false]
    exact ⟨w, rfl, rfl, rfl⟩
  simp only [hok, if_true]
  rcases hname : (entryOf glib w.hostName f.text).name with _ | s
  · simp only [Option.isSome_none, Bool.false_eq_true, if_false]
    rw [ingestEntry, hname]
    rfl
  have hget : unitName glib w.hostName f.text = s := by rw [unitName, hname, Option.getD_some]
  have hingest : w.run (ingestEntry (entryOf glib w.hostName f.text) f.text) =
      w.run (if rmgUtilsJenkinsHash f.text = w.journal.hashOf s then pure ⟨⟩
        else replaceService (entryOf glib w.hostName f.text) f.text) := by
    rw [ingestEntry, hname, run_bind (run_rmgJournalGetHash w s), entryOf_hash]
  rw [hingest, hget]
  simp only [Option.isSome_some, if_true]
  by_cases hh : rmgUtilsJenkinsHash f.text = w.journal.hashOf s
  · rw [if_pos hh, if_pos hh]
    exact ⟨w, rfl, rfl, rfl⟩
  · rw [if_neg hh, if_neg hh]
    have hr := tables_replaceService hname f.text w
    split_ifs at hr ⊢ with hp
    · exact hr
    · exact hr

/-- The same for the files in turn. -/
theorem tables_reloadFiles (glib : GLib) (w : Instance) (files : List UnitFile) :
    match files.foldlM (reloadUnitTables glib w.hostName) w.journal with
    | none => (w.run (List.forM files (reloadUnit glib))).1 = none
    | some j => ∃ w', w.run (List.forM files (reloadUnit glib)) = (some ⟨⟩, w') ∧ Tables w w' j := by
  induction files generalizing w with
  | nil => exact ⟨w, rfl, rfl, rfl⟩
  | cons f files ih =>
    have hf := tables_reloadUnit glib w f
    rw [List.foldlM_cons]
    rcases hj : reloadUnitTables glib w.hostName w.journal f with _ | j
    · rw [hj] at hf
      have hn : w.run (reloadUnit glib f) = (none, (w.run (reloadUnit glib f)).2) := Prod.ext hf rfl
      show (w.run (reloadUnit glib f >>= fun _ => List.forM files (reloadUnit glib))).1 = none
      rw [run_bind_none hn]
    · rw [hj] at hf
      obtain ⟨w₁, h₁, ht₁⟩ := hf
      have hrun : w.run (List.forM (f :: files) (reloadUnit glib)) = w₁.run (List.forM files (reloadUnit glib)) :=
        run_bind h₁
      have hfiles := ih w₁
      rw [ht₁.journal, ht₁.hostName] at hfiles
      rw [hrun, Option.bind_eq_bind, Option.bind_some]
      rcases hj' : files.foldlM (reloadUnitTables glib w.hostName) j with _ | j'
      · rw [hj'] at hfiles
        exact hfiles
      · rw [hj'] at hfiles
        obtain ⟨w₂, h₂, ht₂⟩ := hfiles
        exact ⟨w₂, h₂, ht₂.journal, ht₂.hostName.trans ht₁.hostName⟩

end Instance

/-! ### Replaced rows -/

section replaced
variable {jentry : RmgJEntry} {origin : UnitText} {j : Journal}

/-- The rows of an entry have hashes that differ from each other and from those of the other services. -/
structure FreeHashes (s : String) (u : View) (j : Journal) : Prop where
  distinct : u.Distinct
  disjoint : ∀ s', s' ≠ s → u.Disjoint (j.view s')

private theorem view_without_of_ne {s s' : String} (h : s' ≠ s) (j : Journal) : (j.without s).view s' = j.view s' := by
  unfold Journal.view Journal.without Journal.servicesNamed Journal.actionsOf Journal.friendsOf
  simp only
  rw [filter_filter_ne ServiceRow.name h, filter_filter_ne ActionRow.service h, filter_filter_ne FriendRow.service h]

private theorem view_without_self (j : Journal) (s : String) : (j.without s).view s = ⟨[], [], []⟩ := by
  unfold Journal.view Journal.without Journal.servicesNamed Journal.actionsOf Journal.friendsOf
  simp only
  rw [filter_filter_self ServiceRow.name, filter_filter_self ActionRow.service, filter_filter_self FriendRow.service]

private theorem filter_key {ι : Type} (f : ι → String) {s : String} (rows : List ι) (h : ∀ r ∈ rows, f r = s)
    (s' : String) :
    rows.filter (fun r => decide (f r = s')) = if s' = s then rows else [] := by
  split
  · rename_i hs
    exact List.filter_eq_self.2 fun r hr => by simp [h r hr, hs]
  · rename_i hs
    exact List.filter_eq_nil_iff.2 fun r hr => by simpa [h r hr] using fun e => hs e.symm

/-- The rows of all services after a replacement. -/
private theorem view_replacedTables (jentry : RmgJEntry) (origin : UnitText) (j : Journal) :
    (∀ s, s ≠ jentry.name.getD "" → (replacedTables jentry origin j).view s = j.view s) ∧
      ((∃ r ∈ (j.without (jentry.name.getD "")).services, r.hash = (serviceRow jentry origin).hash) ∧
          (replacedTables jentry origin j).view (jentry.name.getD "") = ⟨[], [], []⟩ ∨
        (∀ r ∈ (j.without (jentry.name.getD "")).services, r.hash ≠ (serviceRow jentry origin).hash) ∧
          ∃ actions friends,
            Keyed.insertAll ActionRow.hash (j.without (jentry.name.getD "")).actions
              (jentry.actions.map (actionRow jentry origin)) =
                (j.without (jentry.name.getD "")).actions ++ actions ∧
            Keyed.insertAll FriendRow.hash (j.without (jentry.name.getD "")).friends
              (jentry.friends.map (friendRow jentry origin)) =
                (j.without (jentry.name.getD "")).friends ++ friends ∧
            (replacedTables jentry origin j).view (jentry.name.getD "") =
              ⟨[serviceRow jentry origin], actions, friends⟩) := by
  unfold replacedTables
  simp only
  by_cases h : (j.without (jentry.name.getD "")).services.any (·.hash = (serviceRow jentry origin).hash)
  · rw [if_pos h]
    refine ⟨fun s hs => view_without_of_ne hs j, .inl ⟨?_, view_without_self j _⟩⟩
    simpa using h
  · rw [if_neg h]
    obtain ⟨actions, hsa, ha⟩ := Keyed.insertAll_eq ActionRow.hash (j.without (jentry.name.getD "")).actions
      (jentry.actions.map (actionRow jentry origin))
    obtain ⟨friends, hsf, hf⟩ := Keyed.insertAll_eq FriendRow.hash (j.without (jentry.name.getD "")).friends
      (jentry.friends.map (friendRow jentry origin))
    have hactions : ∀ r ∈ actions, r.service = jentry.name.getD "" := by
      intro r hr
      obtain ⟨a, -, rfl⟩ := List.mem_map.1 (hsa.subset hr)
      rfl
    have hfriends : ∀ r ∈ friends, r.service = jentry.name.getD "" := by
      intro r hr
      obtain ⟨a, -, rfl⟩ := List.mem_map.1 (hsf.subset hr)
      rfl
    -- the rows that are inserted are all of the service of the unit
    have hview : ∀ s, Journal.view ⟨(j.without (jentry.name.getD "")).services ++ [serviceRow jentry origin],
        (j.without (jentry.name.getD "")).actions ++ actions,
        (j.without (jentry.name.getD "")).friends ++ friends⟩ s =
          if s = jentry.name.getD "" then ⟨[serviceRow jentry origin], actions, friends⟩ else j.view s := by
      intro s
      have hw : ∀ _ : s ≠ jentry.name.getD "", ∀ j : Journal,
          (j.without (jentry.name.getD "")).view s = j.view s := fun h j => view_without_of_ne h j
      have hs₁ := filter_key ServiceRow.name (s := jentry.name.getD "") [serviceRow jentry origin]
        (by simp [serviceRow]) s
      have hs₂ := filter_key ActionRow.service actions hactions s
      have hs₃ := filter_key FriendRow.service friends hfriends s
      unfold Journal.view Journal.servicesNamed Journal.actionsOf Journal.friendsOf at hw ⊢
      simp only [List.filter_append, hs₁, hs₂, hs₃]
      by_cases hs : s = jentry.name.getD ""
      · have hself := view_without_self j (jentry.name.getD "")
        unfold Journal.view Journal.servicesNamed Journal.actionsOf Journal.friendsOf at hself
        obtain ⟨h₁, h₂, h₃⟩ := View.mk.inj hself
        subst hs
        simp only [if_true, h₁, h₂, h₃, List.nil_append]
      · obtain ⟨h₁, h₂, h₃⟩ := View.mk.inj (hw hs j)
        simp only [if_neg hs, List.append_nil, h₁, h₂, h₃]
    rw [ha, hf]
    refine ⟨fun s hs => ?_, .inr ⟨?_, actions, friends, rfl, rfl, ?_⟩⟩
    · rw [hview, if_neg hs]
    · simpa using h
    · rw [hview, if_pos rfl]

/-- The unit stands in the journal as a whole exactly when its hashes are free. -/
private theorem view_replacedTables_eq_iff (jentry : RmgJEntry) (origin : UnitText) (j : Journal) :
    (replacedTables jentry origin j).view (jentry.name.getD "") = entryView jentry origin ↔
      FreeHashes (jentry.name.getD "") (entryView jentry origin) j := by
  have hmem₁ : ∀ r, r ∈ (j.without (jentry.name.getD "")).services ↔
      ∃ s, s ≠ jentry.name.getD "" ∧ r ∈ (j.view s).services := by
    intro r
    simp [Journal.without, Journal.view, Journal.servicesNamed, and_comm]
  have hmem₂ : ∀ r, r ∈ (j.without (jentry.name.getD "")).actions ↔
      ∃ s, s ≠ jentry.name.getD "" ∧ r ∈ (j.view s).actions := by
    intro r
    simp [Journal.without, Journal.view, Journal.actionsOf, and_comm]
  have hmem₃ : ∀ r, r ∈ (j.without (jentry.name.getD "")).friends ↔
      ∃ s, s ≠ jentry.name.getD "" ∧ r ∈ (j.view s).friends := by
    intro r
    simp [Journal.without, Journal.view, Journal.friendsOf, and_comm]
  obtain ⟨-, ⟨⟨r, hr, he⟩, hv⟩ | ⟨hnew, actions, friends, ha, hf, hv⟩⟩ := view_replacedTables jentry origin j
  · rw [hv]
    obtain ⟨s, hs, hr⟩ := (hmem₁ r).1 hr
    exact ⟨fun h => absurd (congrArg View.services h) (by simp [entryView]),
      fun h => absurd he ((h.disjoint s hs).services _ (by simp [entryView]) r hr)⟩
  · rw [hv]
    constructor
    · intro h
      obtain ⟨-, rfl, rfl⟩ := View.mk.inj h
      obtain ⟨hn₁, hd₁⟩ := Keyed.insertAll_eq_append_iff.1 ha
      obtain ⟨hn₂, hd₂⟩ := Keyed.insertAll_eq_append_iff.1 hf
      refine ⟨⟨hn₁, hn₂⟩, fun s hs => ⟨fun u hu r hr => ?_, fun u hu r hr => ?_, fun u hu r hr => ?_⟩⟩
      · rw [List.mem_singleton.1 hu]
        exact hnew r ((hmem₁ r).2 ⟨s, hs, hr⟩)
      · exact hd₁ u hu r ((hmem₂ r).2 ⟨s, hs, hr⟩)
      · exact hd₂ u hu r ((hmem₃ r).2 ⟨s, hs, hr⟩)
    · intro h
      have ha' := Keyed.insertAll_eq_append_iff.2 ⟨h.distinct.actions, fun u hu r hr => by
        obtain ⟨s, hs, hr⟩ := (hmem₂ r).1 hr
        exact (h.disjoint s hs).actions u hu r hr⟩
      have hf' := Keyed.insertAll_eq_append_iff.2 ⟨h.distinct.friends, fun u hu r hr => by
        obtain ⟨s, hs, hr⟩ := (hmem₃ r).1 hr
        exact (h.disjoint s hs).friends u hu r hr⟩
      obtain rfl := List.append_cancel_left (ha.symm.trans ha')
      obtain rfl := List.append_cancel_left (hf.symm.trans hf')
      rfl

end replaced

/-! ### Harmless files -/

/-- What GMarkup promises: no error where a continuation would be a complete document, and none for an empty text. -/
structure MarkupContract (glib : GLib) (complete : UnitText → Prop) : Prop where
  beginning : ∀ text rest, complete (text ++ rest) → (glib.markup text).ok
  empty : (glib.markup []).ok

section harmless
variable (complete : UnitText → Prop) (glib : GLib) (hostName : String)

/-- The unit of a complete document is ingested, and nothing else changes. -/
structure IngestsWhole (f : UnitFile) (j j' : Journal) : Prop where
  complete : complete f.text
  valid : ValidUnit glib hostName f
  own : j'.view (unitName glib hostName f.text) = unitView glib hostName f.text
  others : ∀ s, s ≠ unitName glib hostName f.text → j'.view s = j.view s

/-- A file has no torn friend, and if GMarkup accepts it, it names a service and is either the version that is stored,
or complete with all its names and free hashes.  (A unit whose service hash is taken is not ingested either, which does
no harm when there is nothing to delete.) -/
def Harmless (j : Journal) (f : UnitFile) : Prop :=
  (f.contents.isSome → ¬ f.Torn glib) ∧ (f.contents.isSome → (glib.markup f.text).ok →
    (entryOf glib hostName f.text).name.isSome ∧
      (rmgUtilsJenkinsHash f.text = j.hashOf (unitName glib hostName f.text) ∨
        ((entryOf glib hostName f.text).privateData.isSome ∧ (entryOf glib hostName f.text).publicData.isSome ∧
          ((∃ r ∈ (j.without (unitName glib hostName f.text)).services,
                r.hash = (serviceRow (entryOf glib hostName f.text) f.text).hash) ∧
              j.view (unitName glib hostName f.text) = ⟨[], [], []⟩ ∨
            complete f.text ∧
              FreeHashes (unitName glib hostName f.text) (unitView glib hostName f.text) j))))

/-- Every file is harmless when its turn comes. -/
def HarmlessInTurn : Journal → List UnitFile → Prop
  | _, [] => True
  | j, f :: files =>
    Harmless complete glib hostName j f ∧ ∀ j', reloadUnitTables glib hostName j f = some j' → HarmlessInTurn j' files

/-- A complete valid unit whose service no other complete valid unit names, with hashes of its own. -/
structure SoundUnit (j : Journal) (others : List UnitFile) (f : UnitFile) : Prop where
  whole : complete f.text
  readable : f.contents.isSome
  entry : ValidEntry (entryOf glib hostName f.text)
  nonzero : rmgUtilsJenkinsHash f.text ≠ 0
  named : ∀ f' ∈ others, complete f'.text → ValidUnit glib hostName f' →
    unitName glib hostName f'.text ≠ unitName glib hostName f.text
  free : FreeHashes (unitName glib hostName f.text) (unitView glib hostName f.text) j
  apart : ∀ f' ∈ others, complete f'.text → ValidUnit glib hostName f' →
    (unitView glib hostName f.text).Disjoint (unitView glib hostName f'.text)

variable {complete glib hostName} {j j' : Journal} {f : UnitFile} {files ys zs : List UnitFile}

/-- A file is harmless exactly when the loop body gets past it and either leaves all rows or ingests the unit. -/
theorem harmless_iff (hq : UnquotedFile glib hostName f) : Harmless complete glib hostName j f ↔
    ∃ j', reloadUnitTables glib hostName j f = some j' ∧
      ((∀ s, j'.view s = j.view s) ∨ IngestsWhole complete glib hostName f j j') := by
  unfold Harmless reloadUnitTables
  by_cases ht : f.contents.isSome ∧ f.Torn glib
  · rw [if_pos ht]
    exact ⟨fun h => absurd ht.2 (h.1 ht.1), fun ⟨_, h, _⟩ => by cases h⟩
  rw [if_neg ht, and_iff_right fun h₁ h₂ => ht ⟨h₁, h₂⟩]
  by_cases hread : f.contents.isSome ∧ (glib.markup f.text).ok
  swap
  · rw [if_neg hread]
    exact ⟨fun _ => ⟨j, rfl, .inl fun _ => rfl⟩, fun _ h₁ h₂ => absurd ⟨h₁, h₂⟩ hread⟩
  rw [if_pos hread]
  have hunquoted := hq hread.1 hread.2
  simp only [hread.1, hread.2, forall_const]
  by_cases hname : (entryOf glib hostName f.text).name.isSome
  swap
  · simp [hname]
  simp only [hname, true_and, if_true]
  by_cases hh : rmgUtilsJenkinsHash f.text = j.hashOf (unitName glib hostName f.text)
  · simp [hh]
  simp only [hh, false_or, if_false]
  by_cases hp : (entryOf glib hostName f.text).privateData.isSome ∧ (entryOf glib hostName f.text).publicData.isSome
  swap
  · rw [if_neg hp]
    exact ⟨fun h => absurd ⟨h.1, h.2.1⟩ hp, fun ⟨_, h, _⟩ => by cases h⟩
  rw [if_pos hp]
  simp only [hp.1, hp.2, true_and, Option.some.injEq, exists_eq_left']
  have hwhole := view_replacedTables_eq_iff (entryOf glib hostName f.text) f.text j
  obtain ⟨hothers, hown⟩ := view_replacedTables (entryOf glib hostName f.text) f.text j
  change (∃ r ∈ (j.without (unitName glib hostName f.text)).services, _) ∧ _ ∨ _ at hown
  constructor
  · rintro (⟨⟨r, hr, he⟩, hempty⟩ | ⟨hc, hfree⟩)
    · -- nothing to delete, and nothing is inserted
      refine .inl fun s => ?_
      by_cases hs : s = unitName glib hostName f.text
      · rw [hs, hempty]
        rcases hown with ⟨-, hv⟩ | ⟨hnew, -⟩
        · exact hv
        · exact absurd he (hnew r hr)
      · exact hothers s hs
    · exact .inr ⟨hc, ⟨hread.1, hread.2, ⟨hname, hp.1, hp.2⟩, hunquoted⟩, hwhole.2 hfree, hothers⟩
  · rintro (hsame | hingest)
    · rcases hown with ⟨hclash, hv⟩ | ⟨-, actions, friends, -, -, hv⟩
      · exact .inl ⟨hclash, (hsame _).symm.trans hv⟩
      · -- the new service row has another hash than the stored one
        refine absurd ?_ hh
        have hv : (replacedTables (entryOf glib hostName f.text) f.text j).view (unitName glib hostName f.text) =
          ⟨[serviceRow (entryOf glib hostName f.text) f.text], actions, friends⟩ := hv
        rw [Journal.hashOf_eq, ← hsame, hv]
        exact ((entryView_hash (entryOf glib hostName f.text) f.text).trans (entryOf_hash glib hostName f.text)).symm
    · exact .inr ⟨hingest.complete, hwhole.1 hingest.own⟩

theorem harmlessInTurn_append : HarmlessInTurn complete glib hostName j (ys ++ zs) ↔
    HarmlessInTurn complete glib hostName j ys ∧
      ∀ j', ys.foldlM (reloadUnitTables glib hostName) j = some j' → HarmlessInTurn complete glib hostName j' zs := by
  induction ys generalizing j with
  | nil => simp [HarmlessInTurn]
  | cons f ys ih =>
    simp only [List.cons_append, HarmlessInTurn, ih, List.foldlM_cons, and_assoc, Option.bind_eq_bind,
      Option.bind_eq_some_iff]
    constructor
    · rintro ⟨hf, h⟩
      exact ⟨hf, fun j' hj' => (h j' hj').1, fun j'' ⟨j', hj', hj''⟩ => (h j' hj').2 j'' hj''⟩
    · rintro ⟨hf, h, h'⟩
      exact ⟨hf, fun j' hj' => ⟨h j' hj', fun j'' hj'' => h' j'' ⟨j', hj', hj''⟩⟩⟩

/-- Harmless files are worked through to the end. -/
theorem foldlM_of_harmless (hq : ∀ f ∈ files, UnquotedFile glib hostName f)
    (h : HarmlessInTurn complete glib hostName j files) :
    ∃ j', files.foldlM (reloadUnitTables glib hostName) j = some j' := by
  induction files generalizing j with
  | nil => exact ⟨j, rfl⟩
  | cons f files ih =>
    obtain ⟨j₁, h₁, -⟩ := (harmless_iff (hq f List.mem_cons_self)).1 h.1
    obtain ⟨j', h'⟩ := ih (fun g hg => hq g (List.mem_cons_of_mem f hg)) (h.2 j₁ h₁)
    refine ⟨j', ?_⟩
    rw [List.foldlM_cons, h₁]
    exact h'

/-- Harmless files leave a unit that is none of theirs alone, and its hashes free. -/
theorem foldlM_others (hq : ∀ f' ∈ files, UnquotedFile glib hostName f')
    (hh : HarmlessInTurn complete glib hostName j files)
    (hn : ∀ f' ∈ files, complete f'.text → ValidUnit glib hostName f' →
      unitName glib hostName f'.text ≠ unitName glib hostName f.text)
    (ha : ∀ f' ∈ files, complete f'.text → ValidUnit glib hostName f' →
      (unitView glib hostName f.text).Disjoint (unitView glib hostName f'.text))
    (hfree : FreeHashes (unitName glib hostName f.text) (unitView glib hostName f.text) j)
    (h : files.foldlM (reloadUnitTables glib hostName) j = some j') :
    j'.view (unitName glib hostName f.text) = j.view (unitName glib hostName f.text) ∧
      FreeHashes (unitName glib hostName f.text) (unitView glib hostName f.text) j' := by
  induction files generalizing j with
  | nil =>
    obtain rfl := Option.some.inj h
    exact ⟨rfl, hfree⟩
  | cons f' files ih =>
    rw [List.foldlM_cons] at h
    obtain ⟨j₁, h₁, hstep⟩ := (harmless_iff (hq f' List.mem_cons_self)).1 hh.1
    rw [h₁] at h
    have hown : j₁.view (unitName glib hostName f.text) = j.view (unitName glib hostName f.text) := by
      rcases hstep with hsame | hingest
      · exact hsame _
      · exact hingest.others _ (hn f' (by simp) hingest.complete hingest.valid).symm
    have hfree₁ : FreeHashes (unitName glib hostName f.text) (unitView glib hostName f.text) j₁ := by
      refine ⟨hfree.distinct, fun s hs => ?_⟩
      rcases hstep with hsame | hingest
      · rw [hsame]
        exact hfree.disjoint s hs
      · by_cases hs' : s = unitName glib hostName f'.text
        · rw [hs', hingest.own]
          exact ha f' (by simp) hingest.complete hingest.valid
        · rw [hingest.others s hs']
          exact hfree.disjoint s hs
    obtain ⟨hv, hfree'⟩ := ih (fun g hg => hq g (by simp [hg])) (hh.2 j₁ h₁) (fun g hg => hn g (by simp [hg]))
      (fun g hg => ha g (by simp [hg])) hfree₁ h
    exact ⟨hv.trans hown, hfree'⟩

/-- A sound unit is ingested when its turn comes, unless it is stored already. -/
theorem reloadUnitTables_of_sound (hread : f.contents.isSome) (ht : ¬ f.Torn glib) (hok : (glib.markup f.text).ok)
    (hentry : ValidEntry (entryOf glib hostName f.text))
    (hfree : FreeHashes (unitName glib hostName f.text) (unitView glib hostName f.text) j) :
    ∃ j', reloadUnitTables glib hostName j f = some j' ∧ j'.view (unitName glib hostName f.text) =
      if rmgUtilsJenkinsHash f.text = j.hashOf (unitName glib hostName f.text) then
        j.view (unitName glib hostName f.text)
      else unitView glib hostName f.text := by
  unfold reloadUnitTables
  have hp : (entryOf glib hostName f.text).privateData.isSome ∧ (entryOf glib hostName f.text).publicData.isSome :=
    ⟨hentry.privateData, hentry.publicData⟩
  simp only [hread, ht, and_false, if_false, hok, and_self, if_true, hentry.name, hp]
  by_cases hh : rmgUtilsJenkinsHash f.text = j.hashOf (unitName glib hostName f.text)
  · simp only [if_pos hh]
    exact ⟨j, rfl, rfl⟩
  · simp only [if_neg hh]
    exact ⟨_, rfl, (view_replacedTables_eq_iff (entryOf glib hostName f.text) f.text j).2 hfree⟩

end harmless

/-! ### Reloads of any directory -/

namespace Instance

variable {complete : UnitText → Prop} {glib : GLib} {w : Instance} {files : List UnitFile}

/-- The reload gets to its end; each file is ingested as a whole, if it is complete, or leaves all rows as they are;
and every sound unit is in the journal at the end. -/
structure ReloadsRobustly (complete : UnitText → Prop) (glib : GLib) (w : Instance) (files : List UnitFile) : Prop where
  ends : (w.run (rmgJournalReloadUnits glib (some files))).1 = some .ok
  each : ∀ ys f zs w₁ w₂, files = ys ++ f :: zs → w.run (List.forM ys (reloadUnit glib)) = (some ⟨⟩, w₁) →
    w₁.run (reloadUnit glib f) = (some ⟨⟩, w₂) →
      (∀ s, w₂.journal.view s = w₁.journal.view s) ∨
        IngestsWhole complete glib w.hostName f w₁.journal w₂.journal
  sound : ∀ ys f zs, files = ys ++ f :: zs → SoundUnit complete glib w.hostName w.journal (ys ++ zs) f →
    (w.run (rmgJournalReloadUnits glib (some files))).2.journal.view (unitName glib w.hostName f.text) =
      if rmgUtilsJenkinsHash f.text = w.journal.hashOf (unitName glib w.hostName f.text) then
        w.journal.view (unitName glib w.hostName f.text)
      else unitView glib w.hostName f.text

private theorem run_reloadUnits (glib : GLib) (w : Instance) (files : List UnitFile) :
    match w.run (List.forM files (reloadUnit glib)) with
    | (some ⟨⟩, w') => w.run (rmgJournalReloadUnits glib (some files)) = (some .ok, w')
    | (none, w') => w.run (rmgJournalReloadUnits glib (some files)) = (none, w') := by
  split
  · rename_i w' h
    show w.run (List.forM files (reloadUnit glib) >>= _) = _
    rw [run_bind h]
    rfl
  · rename_i w' h
    show w.run (List.forM files (reloadUnit glib) >>= _) = _
    rw [run_bind_none h]

/-- A run through a part of the files, on the tables. -/
private theorem foldlM_of_run {w₁ : Instance} {ys : List UnitFile}
    (h : w.run (List.forM ys (reloadUnit glib)) = (some ⟨⟩, w₁)) :
    ys.foldlM (reloadUnitTables glib w.hostName) w.journal = some w₁.journal ∧ w₁.hostName = w.hostName := by
  have ht := tables_reloadFiles glib w ys
  rcases hj : ys.foldlM (reloadUnitTables glib w.hostName) w.journal with _ | j
  · rw [hj, h] at ht
    cases ht
  · rw [hj] at ht
    obtain ⟨w', hw', ht⟩ := ht
    obtain rfl := (Prod.mk.inj (h.symm.trans hw')).2
    exact ⟨congrArg some ht.journal.symm, ht.hostName⟩

private theorem tables_of_run {w₁ w₂ : Instance} {f : UnitFile} (h : w₁.run (reloadUnit glib f) = (some ⟨⟩, w₂)) :
    reloadUnitTables glib w₁.hostName w₁.journal f = some w₂.journal := by
  have ht := tables_reloadUnit glib w₁ f
  rcases hj : reloadUnitTables glib w₁.hostName w₁.journal f with _ | j
  · rw [hj, h] at ht
    cases ht
  · rw [hj] at ht
    obtain ⟨w', hw', ht⟩ := ht
    obtain rfl := (Prod.mk.inj (h.symm.trans hw')).2
    rw [ht.journal]

private theorem run_of_foldlM {j : Journal} {files : List UnitFile}
    (h : files.foldlM (reloadUnitTables glib w.hostName) w.journal = some j) :
    ∃ w', w.run (List.forM files (reloadUnit glib)) = (some ⟨⟩, w') ∧ Tables w w' j := by
  have ht := tables_reloadFiles glib w files
  rw [h] at ht
  exact ht

private theorem foldlM_of_ends (h : (w.run (rmgJournalReloadUnits glib (some files))).1 = some .ok) :
    ∃ j, files.foldlM (reloadUnitTables glib w.hostName) w.journal = some j := by
  have ht := tables_reloadFiles glib w files
  rcases hj : files.foldlM (reloadUnitTables glib w.hostName) w.journal with _ | j
  · rw [hj] at ht
    have hrun := run_reloadUnits glib w files
    rw [show w.run (List.forM files (reloadUnit glib)) = (none, (w.run (List.forM files (reloadUnit glib))).2)
      from Prod.ext ht rfl] at hrun
    rw [show w.run (rmgJournalReloadUnits glib (some files)) = _ from hrun] at h
    cases h
  · exact ⟨j, rfl⟩

/-- After the run through the first files each of the others is harmless when its turn comes. -/
private theorem harmlessInTurn_of_robust (hq : ∀ f ∈ files, UnquotedFile glib w.hostName f)
    (h : ReloadsRobustly complete glib w files) (ys : List UnitFile)
    {zs : List UnitFile} {j : Journal} (hx : files = ys ++ zs)
    (hj : ys.foldlM (reloadUnitTables glib w.hostName) w.journal = some j) :
    HarmlessInTurn complete glib w.hostName j zs := by
  induction zs generalizing ys j with
  | nil => trivial
  | cons f zs ih =>
    obtain ⟨j', hj'⟩ := foldlM_of_ends h.ends
    rw [hx, List.foldlM_append, hj, Option.bind_eq_bind, Option.bind_some, List.foldlM_cons, Option.bind_eq_bind,
      Option.bind_eq_some_iff] at hj'
    obtain ⟨j₁, h₁, -⟩ := hj'
    obtain ⟨w₁, hw₁, ht₁⟩ := run_of_foldlM hj
    have hone := tables_reloadUnit glib w₁ f
    rw [ht₁.hostName, ht₁.journal, h₁] at hone
    obtain ⟨w₂, hw₂, ht₂⟩ := hone
    have hstep := h.each ys f zs w₁ w₂ hx hw₁ hw₂
    rw [ht₁.journal, ht₂.journal] at hstep
    refine ⟨(harmless_iff (hq f (by simp [hx]))).2 ⟨j₁, h₁, hstep⟩, fun j₂ h₂ => ih (ys ++ [f]) (by simpa using hx) ?_⟩
    rw [List.foldlM_append, hj, Option.bind_eq_bind, Option.bind_some, List.foldlM_cons, h₂]
    rfl

/-- A sound unit is in the tables at the end: the files before and after it do not touch its rows. -/
private theorem view_of_sound (hc : MarkupContract glib complete) {ys zs : List UnitFile} {f : UnitFile} {j : Journal}
    (hq : ∀ g ∈ ys ++ f :: zs, UnquotedFile glib w.hostName g)
    (h : HarmlessInTurn complete glib w.hostName w.journal (ys ++ f :: zs))
    (hs : SoundUnit complete glib w.hostName w.journal (ys ++ zs) f)
    (hj : (ys ++ f :: zs).foldlM (reloadUnitTables glib w.hostName) w.journal = some j) :
    j.view (unitName glib w.hostName f.text) =
      if rmgUtilsJenkinsHash f.text = w.journal.hashOf (unitName glib w.hostName f.text) then
        w.journal.view (unitName glib w.hostName f.text)
      else unitView glib w.hostName f.text := by
  rw [harmlessInTurn_append] at h
  rw [List.foldlM_append] at hj
  -- the files before
  obtain ⟨j₁, hj₁⟩ := foldlM_of_harmless (fun g hg => hq g (by simp [hg])) h.1
  obtain ⟨hv₁, hfree₁⟩ := foldlM_others (fun g hg => hq g (by simp [hg])) h.1 (fun g hg => hs.named g (by simp [hg]))
    (fun g hg => hs.apart g (by simp [hg])) hs.free hj₁
  -- the unit itself
  have hok : (glib.markup f.text).ok := hc.beginning f.text [] (by simpa using hs.whole)
  have hf := (h.2 j₁ hj₁).1
  obtain ⟨j₂, hj₂, hv₂⟩ := reloadUnitTables_of_sound hs.readable (hf.1 hs.readable) hok hs.entry hfree₁
  rw [hj₁, Option.bind_eq_bind, Option.bind_some, List.foldlM_cons, hj₂] at hj
  have hfree₂ : FreeHashes (unitName glib w.hostName f.text) (unitView glib w.hostName f.text) j₂ := by
    obtain ⟨j₂', hj₂', hstep⟩ := (harmless_iff (hq f (by simp))).1 hf
    obtain rfl := Option.some.inj (hj₂'.symm.trans hj₂)
    refine ⟨hfree₁.distinct, fun s hne => ?_⟩
    rcases hstep with hsame | hingest
    · rw [hsame]
      exact hfree₁.disjoint s hne
    · rw [hingest.others s hne]
      exact hfree₁.disjoint s hne
  -- the files after
  obtain ⟨hv₃, -⟩ := foldlM_others (fun g hg => hq g (by simp [hg])) ((h.2 j₁ hj₁).2 j₂ hj₂)
    (fun g hg => hs.named g (by simp [hg])) (fun g hg => hs.apart g (by simp [hg])) hfree₂ hj
  rw [hv₃, hv₂, hv₁, Journal.hashOf_eq, hv₁, ← Journal.hashOf_eq]

/-- Bad files harm no other unit exactly when each of them is harmless when its turn comes. -/
theorem reloads_robustly_iff (hc : MarkupContract glib complete) (hq : ∀ f ∈ files, UnquotedFile glib w.hostName f) :
    ReloadsRobustly complete glib w files ↔ HarmlessInTurn complete glib w.hostName w.journal files := by
  constructor
  · intro h
    exact harmlessInTurn_of_robust hq h [] rfl rfl
  · intro h
    obtain ⟨j, hj⟩ := foldlM_of_harmless hq h
    obtain ⟨w', hw', ht⟩ := run_of_foldlM hj
    have hrun := run_reloadUnits glib w files
    rw [hw'] at hrun
    have hrun : w.run (rmgJournalReloadUnits glib (some files)) = (some .ok, w') := hrun
    refine ⟨by rw [hrun], fun ys f zs w₁ w₂ hx h₁ h₂ => ?_, fun ys f zs hx hs => ?_⟩
    · obtain ⟨hj₁, hhost⟩ := foldlM_of_run h₁
      have hone := tables_of_run h₂
      rw [hx, harmlessInTurn_append] at h
      obtain ⟨j₂, hj₂, hstep⟩ := (harmless_iff (hq f (by simp [hx]))).1 (h.2 w₁.journal hj₁).1
      rw [hhost, hj₂] at hone
      obtain rfl := Option.some.inj hone
      exact hstep
    · rw [hrun]
      show w'.journal.view _ = _
      rw [ht.journal]
      rw [hx] at hq h hj
      exact view_of_sound hc hq h hs hj

end Instance

/-! ### An empty file -/

/-- The callbacks for the tags that are complete in a text; character data is complete when a tag follows. -/
def closedEvents : List Tag → UnitText → List MarkupEvent
  | [], _ => []
  | .text t :: tags, text =>
    if Tag.bytes [.text t] <+: text ∧ (Tag.bytes [.text t]).length < text.length then
      .text t :: closedEvents tags (text.drop (Tag.bytes [.text t]).length)
    else []
  | tag :: tags, text =>
    if Tag.bytes [tag] <+: text then tag.event :: closedEvents tags (text.drop (Tag.bytes [tag]).length) else []

/-- A markup parser for the beginnings of one document. -/
def GLib.beginnings (tags : List Tag) : GLib where
  markup text := if text <+: Tag.bytes tags then ⟨closedEvents tags text, true⟩ else ⟨[], false⟩
  randInt seed n := seed + BitVec.ofNat 32 n
  stale s := s

private theorem markupContract_beginnings (tags : List Tag) :
    MarkupContract (.beginnings tags) (· = Tag.bytes tags) := by
  constructor
  · intro text rest h
    have hp : text <+: Tag.bytes tags := ⟨rest, h⟩
    simp only [GLib.beginnings, hp, if_true]
  · simp only [GLib.beginnings, List.nil_prefix, if_true]

namespace Instance

theorem reload_aborts_on_empty_file : ¬ ∀ (complete : UnitText → Prop) (glib : GLib), MarkupContract glib complete →
    ∀ (w : Instance) (files : List UnitFile), (∀ f ∈ files, UnquotedFile glib w.hostName f) →
      ReloadsRobustly complete glib w files := by
  intro h
  have hends := (h _ _ (markupContract_beginnings (Tag.unit "a" [] [])) (initial .primary "host")
    [⟨some []⟩, ⟨some (Tag.bytes (Tag.unit "a" [] []))⟩] (by decide +kernel)).ends
  revert hends
  decide +kernel

/-- A file that is not markup and one that cannot be read, before a unit. -/
theorem reloads_robustly_with_bad_files : ReloadsRobustly (· = Tag.bytes (Tag.unit "a" [] []))
    (.beginnings (Tag.unit "a" [] [])) (initial .primary "host")
    [⟨some [1#8]⟩, ⟨none⟩, ⟨some (Tag.bytes (Tag.unit "a" [] []))⟩] := by
  refine (reloads_robustly_iff (markupContract_beginnings _) (by decide +kernel)).2
    ⟨⟨fun _ => by decide +kernel, fun _ h => absurd h (by decide +kernel)⟩, fun j hj => ?_⟩
  have hsame : reloadUnitTables (.beginnings (Tag.unit "a" [] [])) "host" .empty ⟨some [1#8]⟩ = some .empty := by
    decide +kernel
  obtain rfl := Option.some.inj (hsame.symm.trans hj)
  refine ⟨⟨fun h => absurd h (by decide), fun h => absurd h (by decide)⟩, fun j hj => ?_⟩
  obtain rfl := Option.some.inj (show some _ = some j from hj)
  have hnone : ∀ (u : View) (s : String), u.Disjoint (Journal.empty.view s) := fun u s =>
    ⟨fun _ _ _ h => absurd h List.not_mem_nil, fun _ _ _ h => absurd h List.not_mem_nil,
      fun _ _ _ h => absurd h List.not_mem_nil⟩
  exact ⟨⟨fun _ => by decide +kernel, fun _ _ => ⟨by decide +kernel, .inr ⟨by decide +kernel, by decide +kernel,
    .inr ⟨by decide +kernel, by decide +kernel, fun s _ => hnone _ s⟩⟩⟩⟩, fun _ _ => trivial⟩

end Instance

end RecoveryManager
