import RecoveryManager.Lib.Ladder
import RecoveryManager.Units

/-!
# The ladder of a unit

The valid action elements of a unit file (`validActions`) become rows whose trigger levels form a ladder
(`rungs_unitView`), and the two action getters look up the last row whose interval contains the level
(`actionAt_eq`, `resetAt_eq`).
-/

namespace RecoveryManager

open Ladder

/-! ### Look-up -/

def ActionRow.rung (r : ActionRow) : Rung ActionSettings where
  lo := r.tlmin
  hi := r.tlmax
  item := ⟨.ofCode r.type, r.reset ≠ 0, r.tlmax - r.tlmin⟩

/-- The settings of the row that a level selects. -/
def selectedAt (rows : List ActionRow) (level : Int) : Option ActionSettings := lastAt (rows.map ActionRow.rung) level

/-- A callback that overwrites its result keeps the last row. -/
theorem foldl_overwrite {ι β : Type} (f : ι → β) (d : β) (l : List ι) :
    l.foldl (fun _ x => f x) d = (l.getLast?.map f).getD d := by
  induction l generalizing d with
  | nil => rfl
  | cons x l ih =>
    rw [List.foldl_cons, ih]
    cases l with
    | nil => rfl
    | cons y l => simp [List.getLast?_cons]

private theorem selectedAt_eq (rows : List ActionRow) (level : Int) :
    selectedAt rows level = (rungsAt rows level).getLast?.map fun r => r.rung.item := by
  unfold selectedAt lastAt rungsAt
  rw [List.filter_map, List.getLast?_map, Option.map_map]
  rfl

theorem actionAt_eq (rows : List ActionRow) (level : Int) :
    actionAt rows level = ((selectedAt rows level).map (·.actionType)).getD .invalid := by
  rw [actionAt, foldl_overwrite, selectedAt_eq, Option.map_map]
  rfl

theorem resetAt_eq (rows : List ActionRow) (level : Int) :
    resetAt rows level = ((selectedAt rows level).map (·.resetAfter)).getD false := by
  rw [resetAt, foldl_overwrite (fun r : ActionRow => decide (r.reset ≠ 0)), selectedAt_eq, Option.map_map]
  rfl

/-! ### Parsing -/

/-- The settings of an action element that is not skipped. -/
def validAction : MarkupEvent → Option ActionSettings
  | .startElement "action" attributes =>
    let a := actionSettings attributes
    if a.retry < 1 ∨ a.actionType = .invalid then none else some a
  | _ => none

/-- The valid action elements, in document order. -/
def validActions (events : List MarkupEvent) : List ActionSettings := events.filterMap validAction

theorem retry_pos_of_mem {events : List MarkupEvent} {a : ActionSettings} (h : a ∈ validActions events) :
    0 < a.retry := by
  obtain ⟨e, -, he⟩ := List.mem_filterMap.1 h
  unfold validAction at he
  split at he
  · dsimp only at he
    split at he
    · cases he
    · obtain rfl := Option.some.inj he
      omega
  · cases he

theorem valid_of_mem {events : List MarkupEvent} {a : ActionSettings} (h : a ∈ validActions events) :
    a.actionType ≠ .invalid := by
  obtain ⟨e, -, he⟩ := List.mem_filterMap.1 h
  unfold validAction at he
  split at he
  · dsimp only at he
    split at he
    · cases he
    · rename_i hn
      obtain rfl := Option.some.inj he
      exact fun e => hn (.inr e)
  · cases he

theorem rmgUtilsActionTypeFrom_ne_guruMeditation (name : String) :
    rmgUtilsActionTypeFrom name ≠ .guruMeditation := by
  have hlt : nameIndex gActionName 9 name < 9 := by
    unfold nameIndex
    cases hi : (gActionName.take 9).idxOf? name with
    | none => decide
    | some i =>
      have := (List.findIdx?_eq_some_iff_findIdx_eq.1 hi).1
      simp only [gActionName, List.length_take, List.length_cons, List.length_nil] at this
      show (i : Int) < 9
      omega
  intro h
  unfold rmgUtilsActionTypeFrom RmgActionType.ofCode at h
  split_ifs at h
  omega

private theorem foldl_attribute_ne (attributes : List (String × String)) {a : ActionSettings}
    (h : a.actionType ≠ .guruMeditation) :
    (attributes.foldl ActionSettings.attribute a).actionType ≠ .guruMeditation := by
  induction attributes generalizing a with
  | nil => exact h
  | cons p attributes ih =>
    refine ih ?_
    unfold ActionSettings.attribute
    split
    split_ifs
    · exact rmgUtilsActionTypeFrom_ne_guruMeditation _
    · exact h
    · exact h
    · exact h
    · exact h

/-- No attribute value selects meditation. -/
theorem ne_guruMeditation_of_mem {events : List MarkupEvent} {a : ActionSettings} (h : a ∈ validActions events) :
    a.actionType ≠ .guruMeditation := by
  obtain ⟨e, -, he⟩ := List.mem_filterMap.1 h
  unfold validAction at he
  split at he
  · dsimp only at he
    split at he
    · cases he
    · obtain rfl := Option.some.inj he
      exact foldl_attribute_ne _ (by decide)
  · cases he

def RmgAEntry.rung (a : RmgAEntry) : Rung ActionSettings where
  lo := a.triggerLevelMin
  hi := a.triggerLevelMax
  item := ⟨a.type, a.resetAfter, a.triggerLevelMax - a.triggerLevelMin⟩

theorem rung_actionRow (jentry : RmgJEntry) (origin : UnitText) (a : RmgAEntry) :
    (actionRow jentry origin a).rung = a.rung := by
  unfold ActionRow.rung RmgAEntry.rung actionRow
  dsimp only
  rw [RmgActionType.ofCode_code]
  cases a.resetAfter <;> rfl

section parse
variable (glib : GLib) (hostName : String)

private theorem nextHash_ladder (jentry : RmgJEntry) :
    (nextHash glib jentry).2.actions = jentry.actions ∧ (nextHash glib jentry).2.rvector = jentry.rvector := by
  unfold nextHash
  split <;> exact ⟨rfl, rfl⟩

private theorem serviceAttribute_ladder (attributes : List (String × String)) (jentry : RmgJEntry) :
    (attributes.foldl serviceAttribute jentry).actions = jentry.actions ∧
      (attributes.foldl serviceAttribute jentry).rvector = jentry.rvector := by
  induction attributes generalizing jentry with
  | nil => exact ⟨rfl, rfl⟩
  | cons a attributes ih =>
    rw [List.foldl_cons, (ih _).1, (ih _).2]
    unfold serviceAttribute
    split
    split
    · exact ⟨rfl, rfl⟩
    · split <;> exact ⟨rfl, rfl⟩

/-- A callback for anything but a valid action leaves the ladder alone. -/
theorem parserEvent_of_none {e : MarkupEvent} (h : validAction e = none) (jentry : RmgJEntry) :
    (parserEvent glib hostName jentry e).actions = jentry.actions ∧
      (parserEvent glib hostName jentry e).rvector = jentry.rvector := by
  cases e with
  | startElement name attributes =>
    simp only [parserEvent, parserStartElement]
    split
    · rename_i hn
      subst hn
      simp only [validAction, ite_eq_left_iff, reduceCtorEq, imp_false, not_not] at h
      rw [parserStartAction, if_pos h]
      exact ⟨rfl, rfl⟩
    · split
      · exact ⟨rfl, rfl⟩
      · split
        · exact serviceAttribute_ladder attributes _
        · exact ⟨rfl, rfl⟩
  | endElement => exact ⟨rfl, rfl⟩
  | text text =>
    simp only [parserEvent, parserTextData]
    split
    · split
      · exact ⟨rfl, rfl⟩
      · split
        · exact ⟨rfl, rfl⟩
        · split
          · exact ⟨rfl, rfl⟩
          · split
            · exact nextHash_ladder glib _
            · exact ⟨rfl, rfl⟩
    · exact ⟨rfl, rfl⟩

/-- A valid action becomes the next entry; its levels go from the one reached to `retry` further on. -/
theorem parserEvent_of_some {e : MarkupEvent} {a : ActionSettings} (h : validAction e = some a) (jentry : RmgJEntry) :
    ∃ hash, (parserEvent glib hostName jentry e).actions = jentry.actions ++
        [⟨hash, a.actionType, jentry.rvector, glong (jentry.rvector + a.retry), a.resetAfter⟩] ∧
      (parserEvent glib hostName jentry e).rvector = glong (jentry.rvector + a.retry) := by
  unfold validAction at h
  split at h
  · rename_i attributes
    dsimp only at h
    split at h
    · cases h
    · rename_i hn
      obtain rfl := Option.some.inj h
      simp only [parserEvent, parserStartElement, ↓reduceIte, parserStartAction, hn, rmgJentryAddAction,
        (nextHash_ladder glib _).1]
      exact ⟨_, rfl, trivial⟩
  · cases h

/-- The callbacks append the ladder of the valid actions to the actions of the entry. -/
theorem foldl_ladder (events : List MarkupEvent) (jentry : RmgJEntry) (hg : 0 ≤ jentry.rvector)
    (ht : jentry.rvector + total ActionSettings.retry (validActions events) < 2 ^ 63) :
    (events.foldl (parserEvent glib hostName) jentry).actions.map RmgAEntry.rung =
      jentry.actions.map RmgAEntry.rung ++ climb ActionSettings.retry jentry.rvector (validActions events) := by
  induction events generalizing jentry with
  | nil => simp [validActions, climb]
  | cons e events ih =>
    have hpos : 0 ≤ total ActionSettings.retry (validActions events) :=
      total_nonneg fun b hb => retry_pos_of_mem hb
    rw [List.foldl_cons]
    cases he : validAction e with
    | none =>
      obtain ⟨h₁, h₂⟩ := parserEvent_of_none glib hostName he jentry
      have hv : validActions (e :: events) = validActions events := by simp [validActions, he]
      rw [hv] at ht ⊢
      rw [ih _ (by omega) (by omega), h₁, h₂]
    | some a =>
      have hv : validActions (e :: events) = a :: validActions events := by simp [validActions, he]
      have hr : 0 < a.retry := retry_pos_of_mem (hv ▸ List.mem_cons_self)
      rw [hv, total_cons] at ht
      have hl : glong (jentry.rvector + a.retry) = jentry.rvector + a.retry := glong_of_range (by omega) (by omega)
      obtain ⟨hash, h₁, h₂⟩ := parserEvent_of_some glib hostName he jentry
      rw [hl] at h₁ h₂
      rw [ih _ (by omega) (by omega), h₁, h₂, hv, climb, List.map_append, List.append_assoc]
      simp [RmgAEntry.rung]

/-- The rows of a unit's actions are the ladder of its valid action elements, when the levels do not overflow. -/
theorem rungs_unitView (text : UnitText)
    (ht : 1 + total ActionSettings.retry (validActions (glib.markup text).events) < 2 ^ 63) :
    (unitView glib hostName text).actions.map ActionRow.rung =
      climb ActionSettings.retry 1 (validActions (glib.markup text).events) := by
  show ((entryOf glib hostName text).actions.map (actionRow _ text)).map ActionRow.rung = _
  rw [List.map_map]
  have : ActionRow.rung ∘ actionRow (entryOf glib hostName text) text = RmgAEntry.rung :=
    funext fun a => rung_actionRow _ text a
  rw [this]
  exact foldl_ladder glib hostName _ (rmgJentryNew _) (by show (0 : Int) ≤ 1; decide) ht

private theorem parserEvent_settings (e : MarkupEvent) (jentry : RmgJEntry) :
    (parserEvent glib hostName jentry e).actions.map (fun a => (a.type, a.resetAfter)) =
      jentry.actions.map (fun a => (a.type, a.resetAfter)) ++
        (validAction e).toList.map fun a => (a.actionType, a.resetAfter) := by
  cases he : validAction e with
  | none => simp [(parserEvent_of_none glib hostName he jentry).1]
  | some a =>
    obtain ⟨hash, h, -⟩ := parserEvent_of_some glib hostName he jentry
    simp [h]

/-- The rows of a unit's actions stand in document order. -/
theorem settings_unitView (text : UnitText) :
    (unitView glib hostName text).actions.map (fun r => (RmgActionType.ofCode r.type, decide (r.reset ≠ 0))) =
      (validActions (glib.markup text).events).map fun a => (a.actionType, a.resetAfter) := by
  have key : ∀ (events : List MarkupEvent) (jentry : RmgJEntry),
      (events.foldl (parserEvent glib hostName) jentry).actions.map (fun a => (a.type, a.resetAfter)) =
        jentry.actions.map (fun a => (a.type, a.resetAfter)) ++
          (validActions events).map fun a => (a.actionType, a.resetAfter) := by
    intro events
    induction events with
    | nil => simp [validActions]
    | cons e events ih =>
      intro jentry
      rw [List.foldl_cons, ih, parserEvent_settings, List.append_assoc, ← List.map_append]
      cases he : validAction e <;> simp [validActions, he]
  have hrow : ((fun r : ActionRow => (RmgActionType.ofCode r.type, decide (r.reset ≠ 0))) ∘
      actionRow (entryOf glib hostName text) text) = fun a => (a.type, a.resetAfter) := by
    funext ⟨hash, type, lo, hi, reset⟩
    simp only [Function.comp_apply, actionRow, RmgActionType.ofCode_code]
    cases reset <;> rfl
  show ((entryOf glib hostName text).actions.map (actionRow _ text)).map _ = _
  rw [List.map_map, hrow]
  exact key (glib.markup text).events (rmgJentryNew _)

end parse

end RecoveryManager
