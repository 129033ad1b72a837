import RecoveryManager.Consistency

/-!
# Reloading the units

A complete reload of a directory, in any state reached from empty tables: a service whose stored hash is the hash of
its file keeps its rows, another one that a file names gets the rows of the file, and the others keep theirs
(`MeetsSpecification`).  A second reload over the same directory does nothing.  A reload comes to its end and does this
if and only if no friend is torn (`reload_meets_specification_iff`).

The hash is stored as a signed number and compared as an unsigned one, which loses nothing (`hash_eq_iff_stored`).
-/

namespace RecoveryManager

open Fallible Instance

variable {glib : GLib} {hostName : String} {bound : Nat}

/-- The service has a row with the hash `hash`. -/
def View.Stores (v : View) (hash : Gulong) : Prop := ∃ r ∈ v.services, r.hash = hash.toInt

/-- What `rmg_journal_get_hash` returns is a hash that is not zero exactly if that is the one stored. -/
theorem hash_eq_iff_stored {v : View} (hv : v.Consistent glib hostName bound) {hash : Gulong} (h : hash ≠ 0) :
    v.hash = hash ↔ v.Stores hash := by
  obtain ⟨services, actions, friends⟩ := v
  have hu := hv.unique
  match services, hv with
  | [], _ => exact ⟨fun e => absurd e.symm h, fun ⟨_, hr, _⟩ => absurd hr List.not_mem_nil⟩
  | [r], hv =>
    have hr : r.hash = (rmgUtilsJenkinsHash r.origin).toInt := by
      have hm : { r with rvector := 0 } ∈ [serviceRow (entryOf glib hostName r.origin) r.origin] :=
        hv.service r (by simp)
      have := congrArg ServiceRow.hash (List.mem_singleton.1 hm)
      simpa [serviceRow, entryOf_hash] using this
    have hstored : View.hash ⟨[r], actions, friends⟩ = rmgUtilsJenkinsHash r.origin := by
      show gAsciiStrtoull (printLd r.hash) = _
      rw [hr, gAsciiStrtoull_printLd]
    rw [hstored]
    constructor
    · rintro rfl
      exact ⟨r, by simp, hr⟩
    · rintro ⟨r', hr', he⟩
      obtain rfl := List.mem_singleton.1 hr'
      exact BitVec.eq_of_toInt_eq (hr.symm.trans he)
  | _ :: _ :: _, _ => simp at hu

/-- The rows of the services before and after a reload of some files. -/
structure MeetsSpecification (glib : GLib) (hostName : String) (files : List UnitFile) (before after : String → View) :
    Prop where
  kept : ∀ f ∈ files, (before (unitName glib hostName f.text)).Stores (rmgUtilsJenkinsHash f.text) →
    after (unitName glib hostName f.text) = before (unitName glib hostName f.text)
  replaced : ∀ f ∈ files, ¬ (before (unitName glib hostName f.text)).Stores (rmgUtilsJenkinsHash f.text) →
    after (unitName glib hostName f.text) = unitView glib hostName f.text
  order : ∀ f ∈ files, (unitView glib hostName f.text).actions.map
    (fun r => (RmgActionType.ofCode r.type, decide (r.reset ≠ 0))) =
      (validActions (glib.markup f.text).events).map fun a => (a.actionType, a.resetAfter)
  others : ∀ s, (∀ f ∈ files, unitName glib hostName f.text ≠ s) → after s = before s

theorem meetsSpecification_reloadedView {files : List UnitFile} {view : String → View}
    (hn : (files.map fun f => unitName glib hostName f.text).Nodup)
    (hh : ∀ f ∈ files, rmgUtilsJenkinsHash f.text ≠ 0) (hv : ∀ s, (view s).Consistent glib hostName bound) :
    MeetsSpecification glib hostName files view (reloadedView glib hostName view files) where
  kept := fun f hf hs => by
    simp only [reloadedView, find?_of_nodup hn hf]
    rw [if_pos ((hash_eq_iff_stored (hv _) (hh f hf)).2 hs)]
  replaced := fun f hf hs => by
    simp only [reloadedView, find?_of_nodup hn hf]
    rw [if_neg fun e => hs ((hash_eq_iff_stored (hv _) (hh f hf)).1 e)]
  order := fun f _ => settings_unitView glib hostName f.text
  others := fun s hs => by
    have : files.find? (fun f => unitName glib hostName f.text = s) = none :=
      List.find?_eq_none.2 fun f hf => by simpa using hs f hf
    simp only [reloadedView, this]

/-- After a reload every file has its hash stored. -/
private theorem hash_reloadedView {files : List UnitFile} {view : String → View}
    (hn : (files.map fun f => unitName glib hostName f.text).Nodup) {f : UnitFile} (hf : f ∈ files) :
    (reloadedView glib hostName view files (unitName glib hostName f.text)).hash = rmgUtilsJenkinsHash f.text := by
  simp only [reloadedView, find?_of_nodup hn hf]
  split
  · assumption
  · exact unitView_hash _ _ _

namespace Instance

variable {w₀ w : Instance} {ls : List Label} {files : List UnitFile}

/-- The reload ends with the rows as specified, and a second one over the same directory changes nothing. -/
def ReloadsAsSpecified (glib : GLib) (w : Instance) (files : List UnitFile) : Prop :=
  ∃ w', w.run (rmgJournalReloadUnits glib (some files)) = (some .ok, w') ∧
    MeetsSpecification glib w.hostName files w.journal.view w'.journal.view ∧
    w'.run (rmgJournalReloadUnits glib (some files)) = (some .ok, w')

private theorem reloadsAsSpecified (hcons : ∀ s, (w.journal.view s).Consistent glib w.hostName bound)
    (hv : ∀ f ∈ files, ValidUnit glib w.hostName f) (ht : ∀ f ∈ files, ¬ f.Torn glib)
    (hn : (files.map fun f => unitName glib w.hostName f.text).Nodup)
    (hh : ∀ f ∈ files, rmgUtilsJenkinsHash f.text ≠ 0) (hc : NoClash glib w.hostName w.journal.view files) :
    ReloadsAsSpecified glib w files := by
  obtain ⟨w', hrun, hw', hview⟩ := run_rmgJournalReloadUnits hv ht hn hc
  have hview' : w'.journal.view = reloadedView glib w.hostName w.journal.view files := funext hview
  refine ⟨w', hrun, ?_, ?_⟩
  · rw [hview']
    exact meetsSpecification_reloadedView hn hh hcons
  · have hhost' := hw'.hostName
    obtain ⟨w'', hrun', hw'', -⟩ := run_rmgJournalReloadUnits (hhost' ▸ hv) ht (hhost' ▸ hn)
      (show NoClash glib w'.hostName w'.journal.view files by rw [hhost', hview']; exact hc.reloaded)
    have hplan : files.flatMap (unitPlan glib w'.hostName w'.journal.view) = [] := by
      refine List.flatMap_eq_nil_iff.2 fun f hf => ?_
      rw [unitPlan, hview', hhost', if_pos (hash_reloadedView hn hf)]
    rw [hw''.nil hplan] at hrun'
    exact hrun'

/-- In every state reached from empty tables: a reload of valid units meets its specification exactly if no friend is
torn. -/
theorem reload_meets_specification_iff (h0 : Fresh w₀) (hr : Runs glib w₀ ls w)
    (hv : ∀ f ∈ files, ValidUnit glib w.hostName f)
    (hn : (files.map fun f => unitName glib w.hostName f.text).Nodup)
    (hh : ∀ f ∈ files, rmgUtilsJenkinsHash f.text ≠ 0) (hc : NoClash glib w.hostName w.journal.view files) :
    ReloadsAsSpecified glib w files ↔ ∀ f ∈ files, ¬ f.Torn glib := by
  have hcons := consistent_of_faultyRuns h0 (hr.mono fun _ _ _ => Step.faulty)
  constructor
  · rintro ⟨w', hrun, -⟩ f hf
    exact not_torn_of_reload (congrArg Prod.fst hrun) hf (hv f hf).readable
  · intro ht
    exact reloadsAsSpecified (fun s => hcons.host ▸ hcons.view s) hv ht hn hh hc

private theorem disjoint_view {u : View} {j : Journal} {name s : String} (hs : s ≠ name)
    (hser : ∀ r ∈ u.services, ∀ r' ∈ j.services, r'.name ≠ name → r'.hash ≠ r.hash)
    (hact : ∀ r ∈ u.actions, ∀ r' ∈ j.actions, r'.service ≠ name → r'.hash ≠ r.hash)
    (hfri : ∀ r ∈ u.friends, ∀ r' ∈ j.friends, r'.service ≠ name → r'.hash ≠ r.hash) : u.Disjoint (j.view s) := by
  refine ⟨fun r hr r' hr' => ?_, fun r hr r' hr' => ?_, fun r hr r' hr' => ?_⟩ <;>
    obtain ⟨hm, hn⟩ := List.mem_filter.1 hr'
  · exact hser r hr r' hm fun e => hs (by simpa [e] using (of_decide_eq_true hn).symm)
  · exact hact r hr r' hm fun e => hs (by simpa [e] using (of_decide_eq_true hn).symm)
  · exact hfri r hr r' hm fun e => hs (by simpa [e] using (of_decide_eq_true hn).symm)

/-- The unit that was ingested, and a new one. -/
def oneOldOneNew : List UnitFile := [restartUnit, disableUnit].map fun tags => ⟨some (Tag.bytes tags)⟩

private theorem noClash_oneOldOneNew : NoClash (.reading [restartUnit, disableUnit]) "host"
    (crashedOnce.get crashedOnce_isSome).journal.view oneOldOneNew := by
  have hser : ∀ f ∈ oneOldOneNew, ∀ r ∈ (unitView (.reading [restartUnit, disableUnit]) "host" f.text).services,
      ∀ r' ∈ (crashedOnce.get crashedOnce_isSome).journal.services,
        r'.name ≠ unitName (.reading [restartUnit, disableUnit]) "host" f.text → r'.hash ≠ r.hash := by
    decide +kernel
  have hact : ∀ f ∈ oneOldOneNew, ∀ r ∈ (unitView (.reading [restartUnit, disableUnit]) "host" f.text).actions,
      ∀ r' ∈ (crashedOnce.get crashedOnce_isSome).journal.actions,
        r'.service ≠ unitName (.reading [restartUnit, disableUnit]) "host" f.text → r'.hash ≠ r.hash := by
    decide +kernel
  have hfri : ∀ f ∈ oneOldOneNew, ∀ r ∈ (unitView (.reading [restartUnit, disableUnit]) "host" f.text).friends,
      ∀ r' ∈ (crashedOnce.get crashedOnce_isSome).journal.friends,
        r'.service ≠ unitName (.reading [restartUnit, disableUnit]) "host" f.text → r'.hash ≠ r.hash := by
    decide +kernel
  exact ⟨by decide +kernel, by decide +kernel,
    fun f hf s hs => disjoint_view hs (hser f hf) (hact f hf) (hfri f hf)⟩

theorem reload_meets_specification_after_crash :
    ReloadsAsSpecified (.reading [restartUnit, disableUnit]) (crashedOnce.get crashedOnce_isSome) oneOldOneNew := by
  have hhost : (crashedOnce.get crashedOnce_isSome).hostName = "host" := by decide +kernel
  exact (reload_meets_specification_iff (fresh_initial .primary "host")
    (runs_of_replayed (Option.some_get crashedOnce_isSome).symm) (by rw [hhost]; decide +kernel)
    (by rw [hhost]; decide +kernel) (by decide +kernel) (by rw [hhost]; exact noClash_oneOldOneNew)).2
    (by decide +kernel)

/-! ### A friend with a comment in its text -/

private def beforeComment : List Tag :=
  Tag.unit "a.service" [] [] ++ [.opening "friends" [], .opening "friend" [("type", "process"), ("context", "debian")],
    .text "dummy"]

private def afterComment : List Tag := [.text "process", .closing "friend", .closing "friends"]

def commentedFile : UnitFile :=
  ⟨some (Tag.bytes beforeComment ++ Tag.bytes [.text "<!-- a comment -->"] ++ Tag.bytes afterComment)⟩

/-- A markup parser that reads the file; no callback is made for the comment. -/
def readingCommented : GLib :=
  { GLib.reading [] with
    markup := fun text =>
      if text = commentedFile.text then ⟨(beforeComment ++ afterComment).map Tag.event, true⟩ else ⟨[], false⟩ }

/-- A reload does not get past a friend with a comment in its text. -/
theorem reload_frees_context_twice : ¬ ∀ (glib : GLib) (w₀ w : Instance) (ls : List Label) (files : List UnitFile),
    Fresh w₀ → Runs glib w₀ ls w → (∀ f ∈ files, ValidUnit glib w.hostName f) →
      (files.map fun f => unitName glib w.hostName f.text).Nodup →
      (∀ f ∈ files, rmgUtilsJenkinsHash f.text ≠ 0) → NoClash glib w.hostName w.journal.view files →
        ReloadsAsSpecified glib w files := by
  intro h
  have hc : NoClash readingCommented (initial .primary "host").hostName (initial .primary "host").journal.view
      [commentedFile] :=
    ⟨by decide +kernel, by decide +kernel, fun _ _ _ _ => ⟨fun _ _ _ h => absurd h List.not_mem_nil,
      fun _ _ _ h => absurd h List.not_mem_nil, fun _ _ _ h => absurd h List.not_mem_nil⟩⟩
  obtain ⟨w', hrun, -⟩ := h readingCommented (initial .primary "host") (initial .primary "host") [] [commentedFile]
    (fresh_initial .primary "host") .nil (by decide +kernel) (by decide +kernel) (by decide +kernel) hc
  have hnone : ((initial .primary "host").run
      (rmgJournalReloadUnits readingCommented (some [commentedFile]))).1 = none := by
    decide +kernel
  rw [hrun] at hnone
  cases hnone

end Instance

end RecoveryManager
