import RecoveryManager.UnitSource

/-!
# Looking up the action of a level

The action elements of a unit become the actions of its entry (`withActions`), and the entry's actions become rows
next to those of the other services (`run_addActionRows`).  For every level that is stored as `RVECTOR` the two action
getters then answer from the same element: the one whose half-open interval contains the level (`ladder_lookup`).
-/

namespace RecoveryManager

open Fallible Fallible.Prog Ladder

/-! ### Action elements -/

/-- The entry after some action elements, given by their attributes. -/
def withActions (glib : GLib) (entry : RmgJEntry) (elements : List (List (String × String))) : RmgJEntry :=
  elements.foldl (fun entry attributes => parserStartElement glib "action" attributes entry) entry

section elements
variable {glib : GLib} {entry : RmgJEntry} {elements : List (List (String × String))}

theorem withActions_name (glib : GLib) (entry : RmgJEntry) (elements : List (List (String × String))) :
    (withActions glib entry elements).name = entry.name := by
  unfold withActions
  induction elements generalizing entry with
  | nil => rfl
  | cons attributes elements ih =>
    rw [List.foldl_cons, ih]
    simp only [parserStartElement, ↓reduceIte, parserStartAction]
    split
    · rfl
    · unfold rmgJentryAddAction nextHash
      dsimp only
      split <;> rfl

theorem validActions_of_valid (h : ∀ a ∈ elements.map actionSettings, 1 ≤ a.retry ∧ a.actionType ≠ .invalid) :
    validActions (elements.map (.startElement "action")) = elements.map actionSettings := by
  induction elements with
  | nil => rfl
  | cons attributes elements ih =>
    rw [List.map_cons, List.forall_mem_cons] at h
    obtain ⟨⟨hretry, htype⟩, h⟩ := h
    have hv : validAction (.startElement "action" attributes) = some (actionSettings attributes) := by
      refine if_neg ?_
      rintro (hr | ht)
      · omega
      · exact htype ht
    have ih := ih h
    unfold validActions at ih ⊢
    rw [List.map_cons, List.filterMap_cons_some hv, ih, List.map_cons]

theorem rungs_withActions (hempty : entry.actions = []) (hfirst : entry.rvector = 1)
    (hvalid : ∀ a ∈ elements.map actionSettings, 1 ≤ a.retry ∧ a.actionType ≠ .invalid)
    (hbound : 1 + total ActionSettings.retry (elements.map actionSettings) ≤ 2 ^ 63 - 1) :
    (withActions glib entry elements).actions.map RmgAEntry.rung =
      climb ActionSettings.retry 1 (elements.map actionSettings) := by
  have hv := validActions_of_valid hvalid
  have hfold : withActions glib entry elements =
      (elements.map (MarkupEvent.startElement "action")).foldl (parserEvent glib "") entry := by
    rw [List.foldl_map]
    rfl
  rw [hfold, foldl_ladder glib "" _ entry (by omega) (by rw [hv]; omega), hv, hempty, hfirst]
  rfl

end elements

/-! ### Rows -/

namespace Instance

variable {w : Instance} {s : String}

/-- The actions of an entry are inserted next to what is there. -/
theorem run_addActionRows {jentry : RmgJEntry} (hname : jentry.name = some s) (origin : UnitText)
    (hdistinct : (jentry.actions.map fun a => a.hash.toInt).Nodup)
    (hothers : ∀ r ∈ w.journal.actions, ∀ a ∈ jentry.actions, r.hash ≠ a.hash.toInt) :
    ∃ w', w.run (List.forM jentry.actions (addActionForService jentry origin)) = (some ⟨⟩, w') ∧
      w'.journal.actionsOf s = w.journal.actionsOf s ++ jentry.actions.map (actionRow jentry origin) := by
  have hget : jentry.name.getD "" = s := by rw [hname, Option.getD_some]
  have hview : ∀ (as : List RmgAEntry) (v : View),
      replay s (as.map (Sql.insertAction <| actionRow jentry origin ·)) v =
        { v with actions := v.actions ++ as.map (actionRow jentry origin) } := by
    intro as v
    have hrows : ∀ r ∈ as.map (actionRow jentry origin), r.service = s := by
      intro r hr
      obtain ⟨a, -, rfl⟩ := List.mem_map.1 hr
      exact hget
    have hr := replay_insertActions hrows v
    rwa [List.map_map] at hr
  -- after each insertion the rows that stood before are followed by those of the actions so far
  have hbody : ∀ ys y zs w₁, jentry.actions = ys ++ y :: zs →
      Wrote w w₁ (ys.map (Sql.insertAction <| actionRow jentry origin ·)) →
      ∃ w₂, w₁.run (addActionForService jentry origin y) = (some ⟨⟩, w₂) ∧
        Wrote w w₂ ((ys ++ [y]).map (Sql.insertAction <| actionRow jentry origin ·)) := by
    intro ys y zs w₁ hx hw₁
    have hold : ∀ s', ∀ r ∈ (w.journal.view s').actions, r.hash ≠ (actionRow jentry origin y).hash :=
      fun s' r hr => hothers r (List.mem_filter.1 hr).1 y (by rw [hx]; simp)
    have hclash : ∀ s', ¬ (Sql.insertAction (actionRow jentry origin y)).Clashes (w₁.journal.view s') := by
      rintro s' ⟨r, hr, he⟩
      rw [hw₁.view] at hr
      by_cases hs : s' = s
      · subst hs
        rw [hview] at hr
        rcases List.mem_append.1 hr with hr | hr
        · exact hold s' r hr he
        · -- a row of the same entry
          obtain ⟨a, ha, rfl⟩ := List.mem_map.1 hr
          rw [hx, List.map_append, List.map_cons, List.nodup_append] at hdistinct
          exact hdistinct.2.2 _ (List.mem_map_of_mem ha) _ List.mem_cons_self he
      · rw [replay_of_ne] at hr
        · exact hold s' r hr he
        · intro q hq
          obtain ⟨a, -, rfl⟩ := List.mem_map.1 hq
          rintro he
          exact hs (Option.some.inj (he.symm.trans (congrArg some hget)))
    obtain ⟨w₂, h₂, hw₂⟩ := run_addAction hname hclash
    refine ⟨w₂, h₂, ?_⟩
    rw [List.map_append, List.map_singleton]
    exact hw₁.trans hw₂
  obtain ⟨w', h', hw'⟩ := run_forM machine true hbody (.refl w)
  refine ⟨w', h', ?_⟩
  show (w'.journal.view s).actions = _
  rw [hw'.view, hview]
  rfl

/-- At every level the getters answer from the element that owns it, and outside the ladder they find nothing. -/
theorem ladder_lookup {glib : GLib} {entry : RmgJEntry} {elements : List (List (String × String))} (origin : UnitText)
    (hname : entry.name = some s) (hempty : entry.actions = []) (hfirst : entry.rvector = 1)
    (hvalid : ∀ a ∈ elements.map actionSettings, 1 ≤ a.retry ∧ a.actionType ≠ .invalid)
    (hbound : 1 + total ActionSettings.retry (elements.map actionSettings) ≤ 2 ^ 63 - 1)
    (hnew : w.journal.actionsOf s = [])
    (hdistinct : ((withActions glib entry elements).actions.map fun a => a.hash.toInt).Nodup)
    (hothers : ∀ r ∈ w.journal.actions, ∀ a ∈ (withActions glib entry elements).actions, r.hash ≠ a.hash.toInt) :
    ∃ w', w.run (List.forM (withActions glib entry elements).actions
          (addActionForService (withActions glib entry elements) origin)) = (some ⟨⟩, w') ∧
      ∀ u : Instance, u.journal.actions = w'.journal.actions → ∀ v, u.journal.rvectorOf s = v →
        (1 ≤ v → v ≤ total ActionSettings.retry (elements.map actionSettings) →
          ∃ ys a zs, elements.map actionSettings = ys ++ a :: zs ∧ total ActionSettings.retry ys < v ∧
            v ≤ total ActionSettings.retry ys + a.retry ∧
            u.run (rmgJournalGetServiceAction (some s)) = (some (a.actionType, false), u) ∧
            u.run (rmgJournalGetServiceActionResetAfter (some s)) = (some (a.resetAfter, false), u)) ∧
        (v ≤ 0 ∨ 1 + total ActionSettings.retry (elements.map actionSettings) < v →
          u.run (rmgJournalGetServiceAction (some s)) = (some (.invalid, false), u) ∧
            u.run (rmgJournalGetServiceActionResetAfter (some s)) = (some (false, false), u)) := by
  have hname' : (withActions glib entry elements).name = some s := (withActions_name glib entry elements).trans hname
  obtain ⟨w', hrun, hrows⟩ := run_addActionRows hname' origin hdistinct hothers
  refine ⟨w', hrun, ?_⟩
  rintro u hu v rfl
  -- the rows of the service are the ladder of its elements
  have hclimb : (u.journal.actionsOf s).map ActionRow.rung =
      climb ActionSettings.retry 1 (elements.map actionSettings) := by
    have hactions : u.journal.actionsOf s = w'.journal.actionsOf s := by
      unfold Journal.actionsOf
      rw [hu]
    have hrung : ActionRow.rung ∘ actionRow (withActions glib entry elements) origin = RmgAEntry.rung :=
      funext fun a => rung_actionRow _ origin a
    rw [hactions, hrows, hnew, List.nil_append, List.map_map, hrung]
    exact rungs_withActions hempty hfirst hvalid hbound
  have hpos : ∀ a ∈ elements.map actionSettings, 0 < a.retry := fun a ha => by
    have := (hvalid a ha).1
    omega
  have hget := run_rmgJournalGetServiceAction u s
  have hget' := run_rmgJournalGetServiceActionResetAfter u s
  rw [actionAt_eq, selectedAt, hclimb] at hget
  rw [resetAt_eq, selectedAt, hclimb] at hget'
  constructor
  · intro h₁ h₂
    obtain ⟨ys, a, zs, he, hlo, hhi⟩ := exists_owner ActionSettings.retry (elements.map actionSettings) h₁ (by omega)
    have hat : lastAt (climb ActionSettings.retry 1 (elements.map actionSettings)) (u.journal.rvectorOf s) =
      some a := by
      rw [he] at hpos ⊢
      exact lastAt_climb (fun b hb => hpos b (by simp [hb])) hlo hhi
    rw [hat] at hget hget'
    exact ⟨ys, a, zs, he, by omega, by omega, hget, hget'⟩
  · intro hv
    have hat : lastAt (climb ActionSettings.retry 1 (elements.map actionSettings)) (u.journal.rvectorOf s) = none := by
      rcases hv with hv | hv
      · exact lastAt_climb_of_lt hpos (by omega)
      · exact lastAt_climb_of_gt hpos hv
    rw [hat] at hget hget'
    exact ⟨hget, hget'⟩

def ladderActions : List (List (String × String)) :=
  [[("type", "resetService"), ("retry", "2")], [("type", "contextRestart"), ("reset", "true")]]

def ladderEntry : RmgJEntry := withActions (.reading []) (rmgJentrySetName (rmgJentryNew 7) "a") ladderActions

theorem ladder_lookup_of_two_actions :
    ∃ w', (initial .primary "host").run (List.forM ladderEntry.actions (addActionForService ladderEntry [])) =
        (some ⟨⟩, w') ∧
      ∀ u : Instance, u.journal.actions = w'.journal.actions → ∀ v, u.journal.rvectorOf "a" = v →
        (1 ≤ v → v ≤ 3 → ∃ ys a zs, [⟨.serviceReset, false, 2⟩, ⟨.contextReset, true, 1⟩] = ys ++ a :: zs ∧
          total ActionSettings.retry ys < v ∧ v ≤ total ActionSettings.retry ys + a.retry ∧
          u.run (rmgJournalGetServiceAction (some "a")) = (some (a.actionType, false), u) ∧
          u.run (rmgJournalGetServiceActionResetAfter (some "a")) = (some (a.resetAfter, false), u)) ∧
        (v ≤ 0 ∨ 4 < v → u.run (rmgJournalGetServiceAction (some "a")) = (some (.invalid, false), u) ∧
          u.run (rmgJournalGetServiceActionResetAfter (some "a")) = (some (false, false), u)) := by
  have hsettings : ladderActions.map actionSettings = [⟨.serviceReset, false, 2⟩, ⟨.contextReset, true, 1⟩] := by decide
  have h := @ladder_lookup (initial .primary "host") "a" (.reading []) (rmgJentrySetName (rmgJentryNew 7) "a")
    ladderActions [] rfl rfl rfl (by rw [hsettings]; decide) (by rw [hsettings]; decide) rfl (by decide) (by decide)
  rw [hsettings] at h
  exact h

end Instance

end RecoveryManager
