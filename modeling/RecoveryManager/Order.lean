import Mathlib.Data.List.Perm.Basic
import RecoveryManager.UnitSource

/-!
# The order of the directory

A unit replaces the rows of its service when its hash is another one, so of several units for one service the one read
last remains (`ingestedView`).  The journal answers the same for every order of the files if and only if units for one
service have one content (`reload_order_iff`).  The rows of a friend query come in the order of insertion, so these are
compared up to order.  The names in the units and in the queries are free of quotes, and no friend is torn.
-/

namespace RecoveryManager

open Fallible Fallible.Prog

/-! ### Answers -/

/-- Two journals answer the queries alike, for every service and level. -/
structure SameAnswers (j j' : Journal) : Prop where
  hash : ∀ s, Unquoted s → j.hashOf s = j'.hashOf s
  rvector : ∀ s, Unquoted s → j.rvectorOf s = j'.rvectorOf s
  timeout : ∀ s, Unquoted s → j.timeoutOf s = j'.timeoutOf s
  action : ∀ s, Unquoted s → ∀ level, actionAt (j.actionsOf s) level = actionAt (j'.actionsOf s) level
  reset : ∀ s, Unquoted s → ∀ level, resetAt (j.actionsOf s) level = resetAt (j'.actionsOf s) level
  friends : ∀ n c, Unquoted n → Unquoted c → ∀ t : RmgFriendType,
    ((j.friends.filter fun r => r.friend = n ∧ r.context = c ∧ r.type = t.code).map FriendRow.response).Perm
      ((j'.friends.filter fun r => r.friend = n ∧ r.context = c ∧ r.type = t.code).map FriendRow.response)

/-- Tables whose rows agree key by key hold the same rows. -/
theorem perm_of_filter_eq {ι : Type} [DecidableEq ι] (f : ι → String) {l l' : List ι}
    (h : ∀ s, l.filter (fun x => decide (f x = s)) = l'.filter (fun x => decide (f x = s))) : l.Perm l' := by
  rw [List.perm_iff_count]
  intro a
  have hcount : ∀ l : List ι, l.count a = (l.filter fun x => decide (f x = f a)).count a := by
    intro l
    rw [List.count_filter]
    simp
  rw [hcount l, hcount l', h]

theorem sameAnswers_of_view {j j' : Journal} (h : ∀ s, j.view s = j'.view s) : SameAnswers j j' := by
  have hservices : ∀ s, j.servicesNamed s = j'.servicesNamed s := fun s => congrArg View.services (h s)
  have hactions : ∀ s, j.actionsOf s = j'.actionsOf s := fun s => congrArg View.actions (h s)
  have hfriends : j.friends.Perm j'.friends := perm_of_filter_eq FriendRow.service fun s => congrArg View.friends (h s)
  refine ⟨fun s _ => ?_, fun s _ => ?_, fun s _ => ?_, fun s _ level => ?_, fun s _ level => ?_, fun n c _ _ t => ?_⟩
  · rw [Journal.hashOf, hservices, Journal.hashOf]
  · rw [Journal.rvectorOf, hservices, Journal.rvectorOf]
  · rw [Journal.timeoutOf, hservices, Journal.timeoutOf]
  · rw [hactions]
  · rw [hactions]
  · exact (hfriends.filter _).map _

/-! ### Units for one service -/

section view
variable {glib : GLib} {hostName : String} {s : String}

/-- What a unit makes of the rows of a service. -/
def ingestUnit (glib : GLib) (hostName : String) (s : String) (v : View) (f : UnitFile) : View :=
  if unitName glib hostName f.text = s then
    if v.hash = rmgUtilsJenkinsHash f.text then v else unitView glib hostName f.text
  else v

/-- The rows of a service after some files, in this order. -/
def ingestedView (glib : GLib) (hostName : String) (s : String) (v : View) (files : List UnitFile) : View :=
  files.foldl (ingestUnit glib hostName s) v

private theorem ingestUnit_hash {f : UnitFile} (hf : unitName glib hostName f.text = s) (v : View) :
    (ingestUnit glib hostName s v f).hash = rmgUtilsJenkinsHash f.text := by
  unfold ingestUnit
  rw [if_pos hf]
  split
  · assumption
  · exact unitView_hash glib hostName f.text

theorem ingestedView_cases (glib : GLib) (hostName s : String) (v : View) (files : List UnitFile) :
    ingestedView glib hostName s v files = v ∨
    ∃ f ∈ files, unitName glib hostName f.text = s ∧
      ingestedView glib hostName s v files = unitView glib hostName f.text := by
  unfold ingestedView
  induction files generalizing v with
  | nil => exact .inl rfl
  | cons f files ih =>
    rw [List.foldl_cons]
    rcases ih (ingestUnit glib hostName s v f) with h | ⟨f', hf', hn, h⟩
    · rw [h]
      unfold ingestUnit
      by_cases hn : unitName glib hostName f.text = s
      · rw [if_pos hn]
        split
        · exact .inl rfl
        · exact .inr ⟨f, by simp, hn, rfl⟩
      · exact .inl (if_neg hn)
    · exact .inr ⟨f', by simp [hf'], hn, h⟩

/-- Units with one content are ingested once. -/
theorem ingestedView_of_same (text : UnitText) (v : View) (files : List UnitFile)
    (h : ∀ f ∈ files, unitName glib hostName f.text = s → f.text = text) :
    ingestedView glib hostName s v files =
      if (∃ f ∈ files, unitName glib hostName f.text = s) ∧ v.hash ≠ rmgUtilsJenkinsHash text then
        unitView glib hostName text else v := by
  unfold ingestedView
  induction files generalizing v with
  | nil => simp
  | cons f files ih =>
    have ih := fun v => ih v fun f' hf' => h f' (by simp [hf'])
    rw [List.foldl_cons, ih]
    by_cases hn : unitName glib hostName f.text = s
    · have ht : f.text = text := h f (by simp) hn
      by_cases hv : v.hash = rmgUtilsJenkinsHash text
      · have hu : ingestUnit glib hostName s v f = v := by rw [ingestUnit, if_pos hn, ht, if_pos hv]
        rw [hu, if_neg (fun hx => hx.2 hv), if_neg (fun hx => hx.2 hv)]
      · have hu : ingestUnit glib hostName s v f = unitView glib hostName text := by
          rw [ingestUnit, if_pos hn, ht, if_neg hv]
        rw [hu, if_neg (fun hx => hx.2 (unitView_hash glib hostName text)), if_pos ⟨⟨f, by simp, hn⟩, hv⟩]
    · have hu : ingestUnit glib hostName s v f = v := if_neg hn
      rw [hu]
      simp [hn]

end view

/-! ### Runs of a reload -/

namespace Instance

variable {w : Instance} {glib : GLib} {files files' : List UnitFile}

/-- A complete reload, when several units may name one service. -/
theorem run_reload_ingested (hv : ∀ f ∈ files, ValidUnit glib w.hostName f) (ht : ∀ f ∈ files, ¬ f.Torn glib)
    (hc : NoClash glib w.hostName w.journal.view files) :
    ∃ w', w.run (rmgJournalReloadUnits glib (some files)) = (some .ok, w') ∧
      ∀ s, w'.journal.view s = ingestedView glib w.hostName s (w.journal.view s) files := by
  have hbody : ∀ ys y zs (w₁ : Instance), files = ys ++ y :: zs →
      (w₁.hostName = w.hostName ∧ ∀ s, w₁.journal.view s = ingestedView glib w.hostName s (w.journal.view s) ys) →
      ∃ w₂, w₁.run (reloadUnit glib y) = (some ⟨⟩, w₂) ∧ w₂.hostName = w.hostName ∧
        ∀ s, w₂.journal.view s = ingestedView glib w.hostName s (w.journal.view s) (ys ++ [y]) := by
    rintro ys y zs w₁ hx ⟨hhost, hview⟩
    have hy : y ∈ files := by simp [hx]
    have hothers : ∀ s, s ≠ unitName glib w₁.hostName y.text →
        (unitView glib w₁.hostName y.text).Disjoint (w₁.journal.view s) := by
      rw [hhost]
      intro s hs
      rw [hview]
      rcases ingestedView_cases glib w.hostName s (w.journal.view s) ys with e | ⟨f, hf, rfl, e⟩
      · rw [e]
        exact hc.others y hy s hs
      · rw [e]
        exact hc.disjoint y hy f (by simp [hx, hf]) hs
    obtain ⟨w₂, h₂, hw₂⟩ := run_reloadUnit (hhost ▸ hv y hy) (ht y hy) (hhost ▸ hc.distinct y hy) hothers
    refine ⟨w₂, h₂, hw₂.hostName.trans hhost, fun s => ?_⟩
    have hstep : ingestedView glib w.hostName s (w.journal.view s) (ys ++ [y]) =
        ingestUnit glib w.hostName s (w₁.journal.view s) y := by
      rw [hview]
      exact List.foldl_append ..
    rw [hstep, hw₂.view, hhost, ingestUnit]
    by_cases hs : unitName glib w.hostName y.text = s
    · subst hs
      rw [if_pos rfl, replay_unitPlan]
    · rw [if_neg hs, replay_of_ne]
      intro q hq
      rw [target_of_mem_unitPlan hq]
      exact fun e => hs (Option.some.inj e)
  obtain ⟨w', h', -, hw'⟩ := run_forM machine true
    (I := fun ys w₁ => w₁.hostName = w.hostName ∧
      ∀ s, w₁.journal.view s = ingestedView glib w.hostName s (w.journal.view s) ys) hbody ⟨rfl, fun _ => rfl⟩
  refine ⟨w', ?_, hw'⟩
  show w.run (List.forM files (reloadUnit glib) >>= _) = _
  rw [run_bind h']
  rfl

theorem noClash_of_perm {view : String → View} {hostName : String} (hp : files'.Perm files)
    (h : NoClash glib hostName view files) : NoClash glib hostName view files' :=
  ⟨fun f hf => h.distinct f (hp.mem_iff.1 hf),
    fun f hf f' hf' => h.disjoint f (hp.mem_iff.1 hf) f' (hp.mem_iff.1 hf'), fun f hf => h.others f (hp.mem_iff.1 hf)⟩

/-- Whatever the order, the journal answers the same if and only if the units for one service have one content. -/
theorem reload_order_iff (hv : ∀ f ∈ files, ValidUnit glib w.hostName f) (ht : ∀ f ∈ files, ¬ f.Torn glib)
    (hc : NoClash glib w.hostName w.journal.view files)
    (hinj : ∀ f ∈ files, ∀ f' ∈ files, rmgUtilsJenkinsHash f.text = rmgUtilsJenkinsHash f'.text → f.text = f'.text) :
    (∀ files₁ files₂ : List UnitFile, files₁.Perm files → files₂.Perm files →
      SameAnswers (w.run (rmgJournalReloadUnits glib (some files₁))).2.journal
        (w.run (rmgJournalReloadUnits glib (some files₂))).2.journal) ↔
      ∀ f ∈ files, ∀ f' ∈ files, unitName glib w.hostName f.text = unitName glib w.hostName f'.text →
        f.text = f'.text := by
  have hrun : ∀ files₁ : List UnitFile, files₁.Perm files → ∀ s,
      (w.run (rmgJournalReloadUnits glib (some files₁))).2.journal.view s =
        ingestedView glib w.hostName s (w.journal.view s) files₁ := by
    intro files₁ hp s
    obtain ⟨w', h', hw'⟩ := run_reload_ingested (fun f hf => hv f (hp.mem_iff.1 hf))
      (fun f hf => ht f (hp.mem_iff.1 hf)) (noClash_of_perm hp hc)
    rw [h', hw']
  constructor
  · intro h f hf f' hf' hn
    by_contra hne
    -- the file read last is the one that remains
    have hlast : ∀ g ∈ files, ∃ files₁ : List UnitFile, files₁.Perm files ∧
        (w.run (rmgJournalReloadUnits glib (some files₁))).2.journal.hashOf (unitName glib w.hostName g.text) =
          rmgUtilsJenkinsHash g.text := by
      intro g hg
      have hp : (files.erase g ++ [g]).Perm files :=
        (List.perm_append_singleton g _).trans (List.perm_cons_erase hg).symm
      refine ⟨_, hp, ?_⟩
      rw [Journal.hashOf_eq, hrun _ hp, ingestedView, List.foldl_append]
      exact ingestUnit_hash rfl _
    obtain ⟨files₁, hp₁, h₁⟩ := hlast f hf
    obtain ⟨files₂, hp₂, h₂⟩ := hlast f' hf'
    have hh := (h files₁ files₂ hp₁ hp₂).hash _ (hv f hf).name_unquoted
    rw [h₁, hn, h₂] at hh
    exact hne (hinj f hf f' hf' hh)
  · intro h files₁ files₂ hp₁ hp₂
    refine sameAnswers_of_view fun s => ?_
    rw [hrun files₁ hp₁, hrun files₂ hp₂]
    -- the files of one name all have the same text, so the last of them does not matter
    by_cases hs : ∃ f ∈ files, unitName glib w.hostName f.text = s
    · obtain ⟨f, hf, rfl⟩ := hs
      have hsame : ∀ files₁ : List UnitFile, files₁.Perm files → ∀ f' ∈ files₁,
          unitName glib w.hostName f'.text = unitName glib w.hostName f.text → f'.text = f.text :=
        fun files₁ hp f' hf' hn => h f' (hp.mem_iff.1 hf') f hf hn
      have hex : ∀ files₁ : List UnitFile, files₁.Perm files → ∃ f' ∈ files₁,
          unitName glib w.hostName f'.text = unitName glib w.hostName f.text :=
        fun files₁ hp => ⟨f, hp.mem_iff.2 hf, rfl⟩
      rw [ingestedView_of_same f.text _ files₁ (hsame files₁ hp₁),
        ingestedView_of_same f.text _ files₂ (hsame files₂ hp₂)]
      simp only [hex files₁ hp₁, hex files₂ hp₂]
    · have hnone : ∀ files₁ : List UnitFile, files₁.Perm files →
          ingestedView glib w.hostName s (w.journal.view s) files₁ = w.journal.view s := by
        intro files₁ hp
        rcases ingestedView_cases glib w.hostName s (w.journal.view s) files₁ with e | ⟨f, hf, hn, -⟩
        · exact e
        · exact absurd ⟨f, hp.mem_iff.1 hf, hn⟩ hs
      rw [hnone files₁ hp₁, hnone files₂ hp₂]

/-! ### A stale copy -/

/-- A unit and a copy of it with another relax time. -/
private def unitAndCopy : List (List Tag) :=
  [Tag.unit "a" [("relaxtime", "5")] [], Tag.unit "a" [("relaxtime", "7")] []]

theorem reload_order_matters : ¬ ∀ (glib : GLib) (w : Instance) (files files' : List UnitFile), files.Perm files' →
    (∀ f ∈ files, ValidUnit glib w.hostName f) → (∀ f ∈ files, ¬ f.Torn glib) →
    NoClash glib w.hostName w.journal.view files →
    (∀ f ∈ files, ∀ f' ∈ files, rmgUtilsJenkinsHash f.text = rmgUtilsJenkinsHash f'.text → f.text = f'.text) →
    (∀ f ∈ files, rmgUtilsJenkinsHash f.text ≠ 0) →
      SameAnswers (w.run (rmgJournalReloadUnits glib (some files))).2.journal
        (w.run (rmgJournalReloadUnits glib (some files'))).2.journal := by
  intro h
  let files : List UnitFile := unitAndCopy.map fun tags => ⟨some (Tag.bytes tags)⟩
  have hc : NoClash (.reading unitAndCopy) "host" (initial .primary "host").journal.view files := by
    refine ⟨by decide +kernel, by decide +kernel, fun f _ s _ => ⟨?_, ?_, ?_⟩⟩
    · exact fun _ _ _ h => absurd h List.not_mem_nil
    · exact fun _ _ _ h => absurd h List.not_mem_nil
    · exact fun _ _ _ h => absurd h List.not_mem_nil
  have hs := h (.reading unitAndCopy) (initial .primary "host") files files.reverse files.reverse_perm.symm
    (by decide +kernel) (by decide +kernel) hc (by decide +kernel) (by decide +kernel)
  have ht := hs.timeout "a" (by decide)
  revert ht
  decide +kernel

def twoUnits : List (List Tag) := [Tag.unit "a" [] [], Tag.unit "b" [] []]

/-- Two units, read in both orders. -/
theorem reload_order_iff_of_two_units : SameAnswers
    ((initial .primary "host").run (rmgJournalReloadUnits (.reading twoUnits)
      (some [⟨some (Tag.bytes (Tag.unit "a" [] []))⟩, ⟨some (Tag.bytes (Tag.unit "b" [] []))⟩]))).2.journal
    ((initial .primary "host").run (rmgJournalReloadUnits (.reading twoUnits)
      (some [⟨some (Tag.bytes (Tag.unit "b" [] []))⟩, ⟨some (Tag.bytes (Tag.unit "a" [] []))⟩]))).2.journal := by
  let files : List UnitFile := [⟨some (Tag.bytes (Tag.unit "a" [] []))⟩, ⟨some (Tag.bytes (Tag.unit "b" [] []))⟩]
  have hc : NoClash (.reading twoUnits) "host" (initial .primary "host").journal.view files := by
    refine ⟨by decide +kernel, by decide +kernel, fun f _ s _ => ⟨?_, ?_, ?_⟩⟩
    · exact fun _ _ _ h => absurd h List.not_mem_nil
    · exact fun _ _ _ h => absurd h List.not_mem_nil
    · exact fun _ _ _ h => absurd h List.not_mem_nil
  have hiff := @reload_order_iff (initial .primary "host") (.reading twoUnits) files (by decide +kernel)
    (by decide +kernel) hc (by decide +kernel)
  exact hiff.2 (by decide +kernel) _ _ (.refl _) (.swap ..)

end Instance

end RecoveryManager
