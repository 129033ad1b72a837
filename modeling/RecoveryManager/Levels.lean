import Mathlib.Data.List.Chain
import RecoveryManager.UnitSource

/-!
# Trigger levels

The levels of the actions in a journal entry (`levels_parseEvents`).  Each action starts where the one before it ends,
whatever the retries are; but the sum wraps around, so a level can end below its start.  `rising_iff`: the levels rise
exactly if the retries fit into the signed 64-bit range together.
-/

namespace RecoveryManager

open Ladder

/-- What the two levels of the actions are meant to be. -/
structure Rising (actions : List RmgAEntry) : Prop where
  first : ∀ a ∈ actions.head?, a.triggerLevelMin = 1
  next : actions.IsChain fun a b => b.triggerLevelMin = a.triggerLevelMax
  rises : ∀ a ∈ actions, a.triggerLevelMin < a.triggerLevelMax

/-! ### Retries -/

theorem gAsciiStrtoll_lt (s : List Char) : gAsciiStrtoll s < 2 ^ 63 := by
  unfold gAsciiStrtoll
  split
  · split <;> omega
  · split <;> omega

private theorem foldl_retry_lt (attributes : List (String × String)) {a : ActionSettings} (h : a.retry < 2 ^ 63) :
    (attributes.foldl ActionSettings.attribute a).retry < 2 ^ 63 := by
  induction attributes generalizing a with
  | nil => exact h
  | cons p attributes ih =>
    refine ih ?_
    unfold ActionSettings.attribute
    split
    split_ifs
    · exact h
    · exact gAsciiStrtoll_lt _
    · exact h
    · exact h
    · exact h

theorem retry_lt_of_mem {events : List MarkupEvent} {a : ActionSettings} (h : a ∈ validActions events) :
    a.retry < 2 ^ 63 := by
  obtain ⟨e, -, he⟩ := List.mem_filterMap.1 h
  unfold validAction at he
  split at he
  · dsimp only at he
    split at he
    · cases he
    · obtain rfl := Option.some.inj he
      exact foldl_retry_lt _ (by decide)
  · cases he

/-! ### Levels -/

/-- The levels of a list of actions, from `level` on. -/
def levels (level : Int) : List ActionSettings → List (Int × Int)
  | [] => []
  | a :: as => (level, glong (level + a.retry)) :: levels (glong (level + a.retry)) as

def RmgAEntry.levels (a : RmgAEntry) : Int × Int := (a.triggerLevelMin, a.triggerLevelMax)

private theorem levels_foldl (glib : GLib) (hostName : String) (events : List MarkupEvent) (jentry : RmgJEntry) :
    (events.foldl (parserEvent glib hostName) jentry).actions.map RmgAEntry.levels =
      jentry.actions.map RmgAEntry.levels ++ levels jentry.rvector (validActions events) := by
  induction events generalizing jentry with
  | nil => simp [validActions, levels]
  | cons e events ih =>
    rw [List.foldl_cons, ih]
    cases he : validAction e with
    | none =>
      obtain ⟨h₁, h₂⟩ := parserEvent_of_none glib hostName he jentry
      rw [h₁, h₂]
      simp [validActions, he]
    | some a =>
      obtain ⟨hash, h₁, h₂⟩ := parserEvent_of_some glib hostName he jentry
      have hv : validActions (e :: events) = a :: validActions events := by simp [validActions, he]
      rw [h₁, h₂, hv, levels, List.map_append, List.append_assoc]
      rfl

/-- The first level is 1, and skipped elements do not count. -/
theorem levels_parseEvents (glib : GLib) (hostName : String) (hash : Gulong) (events : List MarkupEvent) :
    (parseEvents glib hostName hash events).actions.map RmgAEntry.levels = levels 1 (validActions events) :=
  levels_foldl glib hostName events (rmgJentryNew hash)

private theorem head_levels (level : Int) (as : List ActionSettings) :
    ∀ x ∈ (levels level as).head?, x.1 = level := by
  cases as with
  | nil => simp [levels]
  | cons a as => simp [levels]

private theorem isChain_levels (level : Int) (as : List ActionSettings) :
    (levels level as).IsChain fun x y => y.1 = x.2 := by
  induction as generalizing level with
  | nil => exact .nil
  | cons a as ih => exact List.isChain_cons.2 ⟨head_levels _ as, ih _⟩

/-- Wrapping around goes below the start. -/
theorem lt_glong_iff {level retry : Int} (hlevel : 1 ≤ level) (hlevel' : level < 2 ^ 63) (hretry : 1 ≤ retry)
    (hretry' : retry < 2 ^ 63) : level < glong (level + retry) ↔ level + retry < 2 ^ 63 := by
  by_cases h : level + retry < 2 ^ 63
  · rw [glong_of_range (by omega) h]
    omega
  · have hwrap : glong (level + retry) = level + retry - 2 ^ 64 := by
      unfold glong
      rw [Int.bmod_eq_emod, Int.emod_eq_of_lt (by omega) (by omega), if_pos (by omega)]
      rfl
    omega

private theorem rises_levels_iff {level : Int} {as : List ActionSettings} (hlevel : 1 ≤ level)
    (hlevel' : level < 2 ^ 63)
    (has : ∀ a ∈ as, 0 < a.retry ∧ a.retry < 2 ^ 63) :
    (∀ x ∈ levels level as, x.1 < x.2) ↔ level + total ActionSettings.retry as < 2 ^ 63 := by
  induction as generalizing level with
  | nil => simpa [levels] using hlevel'
  | cons a as ih =>
    obtain ⟨hpos, hlt⟩ := has a List.mem_cons_self
    have has' : ∀ b ∈ as, 0 < b.retry ∧ b.retry < 2 ^ 63 := fun b hb => has b (List.mem_cons_of_mem _ hb)
    have htotal : 0 ≤ total ActionSettings.retry as := total_nonneg fun b hb => (has' b hb).1
    rw [levels, List.forall_mem_cons, total_cons, lt_glong_iff hlevel hlevel' hpos hlt]
    by_cases h : level + a.retry < 2 ^ 63
    · rw [glong_of_range (by omega) h, ih (by omega) h has']
      omega
    · exact iff_of_false (fun h' => h h'.1) (by omega)

/-- The levels that the parser gives to the actions of a unit rise exactly if the retries of the valid ones add up to
at most `2 ^ 63 - 2`. -/
theorem rising_iff (glib : GLib) (hostName : String) (hash : Gulong) (events : List MarkupEvent) :
    Rising (parseEvents glib hostName hash events).actions ↔
      total ActionSettings.retry (validActions events) ≤ 2 ^ 63 - 2 := by
  have hlevels := levels_parseEvents glib hostName hash events
  have hrises : (∀ a ∈ (parseEvents glib hostName hash events).actions, a.triggerLevelMin < a.triggerLevelMax) ↔
      1 + total ActionSettings.retry (validActions events) < 2 ^ 63 := by
    rw [← rises_levels_iff (by decide) (by decide) fun a ha => ⟨retry_pos_of_mem ha, retry_lt_of_mem ha⟩, ← hlevels,
      List.forall_mem_map]
    rfl
  constructor
  · intro h
    have := hrises.1 h.rises
    omega
  · intro h
    refine ⟨fun a ha => ?_, ?_, hrises.2 (by omega)⟩
    · have hhead := head_levels 1 (validActions events)
      rw [← hlevels, List.head?_map] at hhead
      exact hhead _ (Option.mem_map_of_mem _ ha)
    · have hchain := isChain_levels 1 (validActions events)
      rw [← hlevels] at hchain
      exact (List.isChain_map _).1 hchain

/-- One action with the largest retry. -/
def largestRetry : List MarkupEvent :=
  [.startElement "action" [("type", "resetService"), ("retry", "9223372036854775807")], .endElement]

theorem largestRetry_wraps : (validActions largestRetry).map ActionSettings.retry = [2 ^ 63 - 1] ∧
    ¬ Rising (parseEvents (.reading []) "host" 0 largestRetry).actions := by
  refine ⟨by decide, fun h => ?_⟩
  have hrises := h.rises _ List.mem_cons_self
  exact absurd hrises (by decide)

end RecoveryManager
