import Mathlib.Data.List.Perm.Subperm
import RecoveryManager.UnitSource

/-!
# Reloads that are cut short

A reload writes the rows of a unit by statements of their own, and decides by the stored hash alone whether there is
anything to write.  What a disturbed reload has written for a file is a part of the plan (`Part`): some of the
deletions, or all of them, the service row, and some of the actions and friends.

A later complete reload repairs this as long as the service row is missing.  Once it is there, what is missing of the
actions and friends stays missing.  With a torn friend in one of the units no reload comes to its end
(`interrupted_reload_recovers_iff`).
-/

namespace RecoveryManager

open Fallible Fallible.Prog Instance

/-- The insertions of actions and friends may fail; all other statements go through as far as they are sent. -/
def Disturbed : Op → Bool → Prop
  | .sql (.insertAction _), _ | .sql (.insertFriend _), _ => True
  | _, ok => ok = true

/-- What may be written of a unit: the deletions up to some point, or everything but some actions and friends. -/
def Part (jentry : RmgJEntry) (origin : UnitText) (qs : List Sql) : Prop :=
  qs <+: removalOf (jentry.name.getD "") ∨
    ∃ as fs, as.Sublist jentry.actions ∧ fs.Sublist jentry.friends ∧ qs = ingestPlan jentry origin as fs

/-! ### One file -/

section file
variable {w : Instance} {qs : List Sql} {jentry : RmgJEntry} {origin : UnitText}

private theorem triple_delete {q : Sql} (hA : ∀ e, Disturbed (.sql q) e → e = true) (hq : q.isSelect = false)
    (heff : ∀ j, ∃ j', q.effect j = some j') :
    Triple machine Disturbed (Wrote w · qs) (sqliteExec q) (fun r w' => r.isSome ∧ Wrote w w' (qs ++ [q]))
      (Wrote w · qs) := by
  refine .call (fun _ h => h) (R := fun r w' => r.isSome ∧ Wrote w w' (qs ++ [q])) (fun w' e he hw => ?_)
    fun r => .ret fun _ h => h
  obtain rfl := hA e he
  obtain ⟨j, hj⟩ := heff w'.journal
  have happly := apply_sql_of_effect hj
  show (fun r w' => Option.isSome r = true ∧ Wrote w w' (qs ++ [q])) (apply (.sql q) true w').1
    (apply (.sql q) true w').2
  rw [happly]
  exact ⟨rfl, hw.trans (wrote_commit hq hj)⟩

private theorem triple_insert {q : Sql} (hq : q.isSelect = false) :
    Triple machine Disturbed (Wrote w · qs) (sqliteExec q)
      (fun r w' => Wrote w w' (if r.isSome then qs ++ [q] else qs)) (Wrote w · qs) := by
  refine .call (fun _ h => h) (R := fun r w' => Wrote w w' (if r.isSome then qs ++ [q] else qs))
    (fun w' e _ hw => ?_) fun r => .ret fun _ h => h
  show (fun r w' => Wrote w w' (if Option.isSome r then qs ++ [q] else qs)) (apply (.sql q) e w').1
    (apply (.sql q) e w').2
  rcases apply_sql w' q e with h | ⟨j, hj, h⟩
  · rw [h]
    exact hw
  · rw [h]
    exact hw.trans (wrote_commit hq hj)

private theorem triple_removal (n : String) :
    Triple machine Disturbed (Wrote w · qs) (rmgJournalRemoveService (some n))
      (fun st w' => st = .ok ∧ Wrote w w' (qs ++ removalOf n))
      (fun w' => ∃ part, part <+: removalOf n ∧ Wrote w w' (qs ++ part)) := by
  have hnil : ∀ w', Wrote w w' qs → ∃ part, part <+: removalOf n ∧ Wrote w w' (qs ++ part) := fun w' h =>
    ⟨[], List.nil_prefix, by rwa [List.append_nil]⟩
  show Triple _ _ _ (sqliteExec (.deleteServices n) >>= _) _ _
  refine ((triple_delete (q := .deleteServices n) (fun _ h => h) rfl fun _ => ⟨_, rfl⟩).weaken (fun _ h => h)
    (fun _ _ h => h) hnil).bind fun r => ?_
  refine .of_prop fun hr => ?_
  obtain ⟨_, rfl⟩ := Option.isSome_iff_exists.1 hr
  show Triple _ _ _ (sqliteExec (.deleteActions n) >>= _) _ _
  refine ((triple_delete (q := .deleteActions n) (fun _ h => h) rfl fun _ => ⟨_, rfl⟩).weaken (fun _ h => h)
    (fun _ _ h => h) fun w' h => ⟨[.deleteServices n], ⟨_, rfl⟩, h⟩).bind fun r => ?_
  refine .of_prop fun hr => ?_
  obtain ⟨_, rfl⟩ := Option.isSome_iff_exists.1 hr
  rw [List.append_assoc]
  show Triple _ _ _ (sqliteExec (.deleteFriends n) >>= _) _ _
  refine ((triple_delete (q := .deleteFriends n) (fun _ h => h) rfl fun _ => ⟨_, rfl⟩).weaken (fun _ h => h)
    (fun _ _ h => h) fun w' h => ⟨[.deleteServices n, .deleteActions n], ⟨_, rfl⟩, h⟩).bind fun r => ?_
  refine .of_prop fun hr => ?_
  obtain ⟨_, rfl⟩ := Option.isSome_iff_exists.1 hr
  exact .ret fun w' h => ⟨rfl, by simpa [removalOf] using h⟩

private theorem triple_action (hv : ValidEntry jentry) (a : RmgAEntry) :
    Triple machine Disturbed (Wrote w · qs) (addActionForService jentry origin a)
      (fun _ w' => Wrote w w' qs ∨ Wrote w w' (qs ++ [.insertAction (actionRow jentry origin a)])) (Wrote w · qs) := by
  obtain ⟨n, hn⟩ := Option.isSome_iff_exists.1 hv.name
  have hr : actionRow jentry origin a = ⟨a.hash.toInt, n, a.type.code, a.triggerLevelMin, a.triggerLevelMax,
      a.resetAfter.toNat, origin⟩ := by simp [actionRow, hn]
  unfold addActionForService rmgJournalAddAction
  rw [hn]
  show Triple _ _ _ ((sqliteExec _ >>= _) >>= _) _ _
  rw [bind_assoc, hr]
  refine (triple_insert rfl).bind fun r => ?_
  cases r with
  | none => exact .ret fun _ h => .inl h
  | some _ => exact .ret fun _ h => .inr h

private theorem triple_friend (hv : ValidEntry jentry) (f : RmgFEntry) :
    Triple machine Disturbed (Wrote w · qs) (addFriendForService jentry origin f)
      (fun _ w' => Wrote w w' qs ∨ Wrote w w' (qs ++ [.insertFriend (friendRow jentry origin f)])) (Wrote w · qs) := by
  obtain ⟨n, hn⟩ := Option.isSome_iff_exists.1 hv.name
  have hr : friendRow jentry origin f = ⟨f.hash.toInt, n, f.friendName, f.friendContext, f.type.code, f.action.code,
      f.argument, f.delay, origin⟩ := by simp [friendRow, hn]
  unfold addFriendForService rmgJournalAddFriend
  rw [hn]
  show Triple _ _ _ ((sqliteExec _ >>= _) >>= _) _ _
  rw [bind_assoc, hr]
  refine (triple_insert rfl).bind fun r => ?_
  cases r with
  | none => exact .ret fun _ h => .inl h
  | some _ => exact .ret fun _ h => .inr h

private theorem triple_actions (hv : ValidEntry jentry) :
    Triple machine Disturbed (Wrote w · (qs ++ ingestPlan jentry origin [] []))
      (List.forM jentry.actions (addActionForService jentry origin))
      (fun _ w' => ∃ as, as.Sublist jentry.actions ∧ Wrote w w' (qs ++ ingestPlan jentry origin as []))
      (fun w' => ∃ part, Part jentry origin part ∧ Wrote w w' (qs ++ part)) := by
  refine Triple.weaken (.forM_counted (I := fun ys w' => ∃ as, as.Sublist ys ∧
    Wrote w w' (qs ++ ingestPlan jentry origin as [])) fun ys y zs hx => ?_) (fun w' h => ⟨[], List.Sublist.slnil, h⟩)
    (fun _ _ h => h) fun _ h => h
  refine .exists fun as => .of_prop fun hs => ?_
  refine (triple_action hv y).weaken (fun _ h => h) (fun _ w' h => ?_) fun w' h => ?_
  · rcases h with h | h
    · exact ⟨as, hs.trans (List.sublist_append_left _ _), h⟩
    · exact ⟨as ++ [y], hs.append (List.Sublist.refl _), by simpa [ingestPlan] using h⟩
  · exact ⟨_, .inr ⟨as, [], hs.trans (by rw [hx]; exact List.sublist_append_left _ _), List.nil_sublist _, rfl⟩, h⟩

private theorem triple_friends (hv : ValidEntry jentry) {as : List RmgAEntry} (has : as.Sublist jentry.actions) :
    Triple machine Disturbed (Wrote w · (qs ++ ingestPlan jentry origin as []))
      (List.forM jentry.friends (addFriendForService jentry origin))
      (fun _ w' => ∃ fs, fs.Sublist jentry.friends ∧ Wrote w w' (qs ++ ingestPlan jentry origin as fs))
      (fun w' => ∃ part, Part jentry origin part ∧ Wrote w w' (qs ++ part)) := by
  refine Triple.weaken (.forM_counted (I := fun ys w' => ∃ fs, fs.Sublist ys ∧
    Wrote w w' (qs ++ ingestPlan jentry origin as fs)) fun ys y zs hx => ?_) (fun w' h => ⟨[], List.Sublist.slnil, h⟩)
    (fun _ _ h => h) fun _ h => h
  refine .exists fun fs => .of_prop fun hs => ?_
  refine (triple_friend hv y).weaken (fun _ h => h) (fun _ w' h => ?_) fun w' h => ?_
  · rcases h with h | h
    · exact ⟨fs, hs.trans (List.sublist_append_left _ _), h⟩
    · exact ⟨fs ++ [y], hs.append (List.Sublist.refl _), by simpa [ingestPlan] using h⟩
  · exact ⟨_, .inr ⟨as, fs, has, hs.trans (by rw [hx]; exact List.sublist_append_left _ _), rfl⟩, h⟩

private theorem triple_service (hv : ValidEntry jentry) :
    Triple machine Disturbed (Wrote w · qs) (rmgJournalAddService jentry.hash jentry.name jentry.privateData
        jentry.publicData jentry.checkStart jentry.timeout origin)
      (fun st w' => Wrote w w' (if st = .ok then qs ++ [.insertService (serviceRow jentry origin)] else qs))
      (Wrote w · qs) := by
  obtain ⟨n, hn⟩ := Option.isSome_iff_exists.1 hv.name
  obtain ⟨p, hp⟩ := Option.isSome_iff_exists.1 hv.privateData
  obtain ⟨p', hp'⟩ := Option.isSome_iff_exists.1 hv.publicData
  have hr : serviceRow jentry origin = ⟨jentry.hash.toInt, n, p, p', 0, jentry.checkStart.toNat, jentry.timeout,
      origin⟩ := by simp [serviceRow, hn, hp, hp']
  unfold rmgJournalAddService
  rw [hn, hp, hp', hr]
  show Triple _ _ _ (sqliteExec _ >>= _) _ _
  refine (triple_insert rfl).bind fun r => ?_
  cases r with
  | none => exact .ret fun _ h => h
  | some _ => exact .ret fun _ h => h

/-- Whatever a disturbance leaves of the work on one file is a part of the plan. -/
private theorem triple_replace (hv : ValidEntry jentry) :
    Triple machine Disturbed (Wrote w · qs) (replaceService jentry origin)
      (fun _ w' => ∃ part, Part jentry origin part ∧ Wrote w w' (qs ++ part))
      (fun w' => ∃ part, Part jentry origin part ∧ Wrote w w' (qs ++ part)) := by
  obtain ⟨n, hn⟩ := Option.isSome_iff_exists.1 hv.name
  have hname : jentry.name.getD "" = n := by rw [hn, Option.getD_some]
  have hall : ∀ w', Wrote w w' (qs ++ removalOf n) → ∃ part, Part jentry origin part ∧ Wrote w w' (qs ++ part) :=
    fun w' h => ⟨removalOf n, .inl (by simp [hname]), h⟩
  unfold replaceService
  rw [show rmgJournalRemoveService jentry.name = rmgJournalRemoveService (some n) by rw [hn]]
  have hpart : ∀ w', (∃ part, part <+: removalOf n ∧ Wrote w w' (qs ++ part)) →
      ∃ part, Part jentry origin part ∧ Wrote w w' (qs ++ part) := by
    rintro w' ⟨part, hp, h⟩
    exact ⟨part, .inl (by rwa [hname]), h⟩
  refine ((triple_removal n).weaken (fun _ h => h) (fun _ _ h => h) hpart).bind fun st => .of_prop fun hst => ?_
  subst hst
  refine ((triple_service hv).weaken (fun _ h => h) (fun _ _ h => h) hall).bind fun st => ?_
  cases st with
  | error => exact .ret hall
  | ok =>
  have hplan : qs ++ removalOf n ++ [.insertService (serviceRow jentry origin)] =
      qs ++ ingestPlan jentry origin [] [] := by
    simp [ingestPlan, hname]
  rw [if_pos rfl, hplan]
  refine (triple_actions hv).bind fun _ => .exists fun as => .of_prop fun has => ?_
  refine (triple_friends hv has).weaken (fun _ h => h) ?_ fun _ h => h
  rintro _ w' ⟨fs, hfs, h⟩
  exact ⟨_, .inr ⟨as, fs, has, hfs, rfl⟩, h⟩

private theorem triple_hash (n : String) :
    Triple machine Disturbed (Wrote w · qs) (rmgJournalGetHash (some n))
      (fun r w' => r.1 = (replay n qs (w.journal.view n)).hash ∧ Wrote w w' qs) (Wrote w · qs) := by
  refine .call (fun _ h => h) (R := fun rows w' => (∃ rows', rows = some rows' ∧
    List.foldl (fun (_ : Gulong) (r : ServiceRow) => gAsciiStrtoull (printLd r.hash)) 0 rows' =
      (replay n qs (w.journal.view n)).hash) ∧ Wrote w w' qs) ?_ fun rows => .of_prop ?_
  · rintro w' e rfl h
    exact ⟨⟨_, rfl, congrArg View.hash (h.view n)⟩, h⟩
  · rintro ⟨rows', rfl, hr⟩
    exact .ret fun w' h => ⟨hr, h⟩

/-- What is written of a file; nothing when its hash is the stored one. -/
def FilePart (v : View) (jentry : RmgJEntry) (origin : UnitText) (qs : List Sql) : Prop :=
  if v.hash = jentry.hash then qs = [] else Part jentry origin qs

theorem FilePart.nil (v : View) (jentry : RmgJEntry) (origin : UnitText) : FilePart v jentry origin [] := by
  unfold FilePart
  split
  · rfl
  · exact .inl List.nil_prefix

private theorem triple_ingest (hv : ValidEntry jentry)
    (hown : replay (jentry.name.getD "") qs (w.journal.view (jentry.name.getD "")) =
      w.journal.view (jentry.name.getD "")) :
    Triple machine Disturbed (Wrote w · qs) (ingestEntry jentry origin)
      (fun _ w' => ∃ part, FilePart (w.journal.view (jentry.name.getD "")) jentry origin part ∧ Wrote w w' (qs ++ part))
      (fun w' => ∃ part, FilePart (w.journal.view (jentry.name.getD "")) jentry origin part ∧
        Wrote w w' (qs ++ part)) := by
  obtain ⟨n, hn⟩ := Option.isSome_iff_exists.1 hv.name
  have hname : jentry.name.getD "" = n := by rw [hn, Option.getD_some]
  rw [hname] at hown ⊢
  have hnil : ∀ w', Wrote w w' qs → ∃ part, FilePart (w.journal.view n) jentry origin part ∧ Wrote w w' (qs ++ part) :=
    fun w' h => ⟨[], .nil _ _ _, by rwa [List.append_nil]⟩
  unfold ingestEntry
  rw [show rmgJournalGetHash jentry.name = rmgJournalGetHash (some n) by rw [hn]]
  refine ((triple_hash n).weaken (fun _ h => h) (fun _ _ h => h) hnil).bind fun r => .of_prop fun hr => ?_
  obtain ⟨existHash, error⟩ := r
  dsimp only at hr ⊢
  rw [hown] at hr
  by_cases hh : jentry.hash = existHash
  · rw [if_pos hh]
    exact .ret hnil
  · rw [if_neg hh]
    have hpart : ∀ part, Part jentry origin part → FilePart (w.journal.view n) jentry origin part := fun part hp => by
      rw [FilePart, if_neg fun e => hh (by rw [hr, e])]
      exact hp
    exact (triple_replace hv).weaken (fun _ h => h) (fun _ w' ⟨part, hp, h⟩ => ⟨part, hpart part hp, h⟩)
      fun w' ⟨part, hp, h⟩ => ⟨part, hpart part hp, h⟩

end file

/-! ### A directory -/

section directory
variable {glib : GLib} {w : Instance} {files : List UnitFile}

/-- What is written of each file. -/
private def Written (glib : GLib) (w : Instance) (files : List UnitFile) (w' : Instance) : Prop :=
  ∃ part : UnitFile → List Sql, (∀ f ∈ files, FilePart (w.journal.view (unitName glib w.hostName f.text))
    (entryOf glib w.hostName f.text) f.text (part f)) ∧ Wrote w w' (files.flatMap part)

theorem target_of_mem_filePart {v : View} {jentry : RmgJEntry} {origin : UnitText} {qs : List Sql} {q : Sql}
    (h : FilePart v jentry origin qs) (hq : q ∈ qs) : q.target = some (jentry.name.getD "") := by
  unfold FilePart at h
  split at h
  · simp [h] at hq
  · rcases h with h | ⟨as, fs, -, -, rfl⟩
    · have := h.subset hq
      simp only [removalOf, List.mem_cons, List.not_mem_nil, or_false] at this
      rcases this with rfl | rfl | rfl <;> rfl
    · exact target_of_mem_ingestPlan hq

private theorem triple_reloadUnit_disturbed {f : UnitFile} {ys : List UnitFile} (hv : ValidUnit glib w.hostName f)
    (hw : ¬ f.Torn glib) (hf : f ∉ ys)
    (hn : ∀ f' ∈ ys, unitName glib w.hostName f'.text ≠ unitName glib w.hostName f.text) :
    Triple machine Disturbed (Written glib w ys) (reloadUnit glib f) (fun _ => Written glib w (ys ++ [f]))
      (Written glib w (ys ++ [f])) := by
  refine .exists fun part => .of_prop fun hpart => ?_
  obtain ⟨c, hc⟩ := Option.isSome_iff_exists.1 hv.readable
  have ht : f.text = cString c := by rw [UnitFile.text, hc, Option.getD_some]
  have hnil : ∀ w', Wrote w w' (ys.flatMap part) → Wrote w w' (ys.flatMap part ++ []) := fun w' h => by
    rwa [List.append_nil]
  have hextend : ∀ w' qs, FilePart (w.journal.view (unitName glib w.hostName f.text))
      (entryOf glib w.hostName f.text) f.text qs → Wrote w w' (ys.flatMap part ++ qs) →
        Written glib w (ys ++ [f]) w' := by
    intro w' qs hqs h
    have hne : ∀ f' ∈ ys, Function.update part f qs f' = part f' := fun f' hf' =>
      Function.update_of_ne (fun e : f' = f => hf (e ▸ hf')) _ _
    refine ⟨Function.update part f qs, fun f' hf' => ?_, ?_⟩
    · rcases List.mem_append.1 hf' with hf' | hf'
      · rw [hne f' hf']
        exact hpart f' hf'
      · rw [List.mem_singleton.1 hf', Function.update_self]
        exact hqs
    · rw [List.flatMap_append, List.flatMap_singleton, Function.update_self, List.flatMap_congr hne]
      exact h
  -- the files before this one are about other services
  have hown : replay (unitName glib w.hostName f.text) (ys.flatMap part)
      (w.journal.view (unitName glib w.hostName f.text)) = w.journal.view (unitName glib w.hostName f.text) := by
    refine replay_of_ne (fun q hq => ?_) _
    obtain ⟨f', hf', hq⟩ := List.mem_flatMap.1 hq
    rw [target_of_mem_filePart (hpart f' hf') hq]
    exact fun e => hn f' hf' (Option.some.inj e)
  unfold reloadUnit
  rw [hc]
  refine .call (fun w' h => hextend w' [] (.nil _ _ _) (hnil w' h))
    (R := fun name w' => name = w.hostName ∧ Wrote w w' (ys.flatMap part)) ?_ fun name => .of_prop fun hname => ?_
  · rintro w' e - h
    exact ⟨h.hostName, h⟩
  · subst hname
    show Triple _ _ _ (if (entryOf glib w.hostName (cString c)).contextFreedTwice then .abort
      else if (glib.markup (cString c)).ok then
        ingestEntry (entryOf glib w.hostName (cString c)) (cString c) else pure ⟨⟩) _ _
    rw [← ht, if_neg fun h => hw ((contextFreedTwice_entryOf glib w.hostName f).1 h), if_pos hv.parses]
    have hfile : ∀ w', (∃ qs, FilePart (w.journal.view (unitName glib w.hostName f.text))
        (entryOf glib w.hostName f.text) f.text qs ∧ Wrote w w' (ys.flatMap part ++ qs)) →
          Written glib w (ys ++ [f]) w' := by
      rintro w' ⟨qs, hqs, h⟩
      exact hextend w' qs hqs h
    exact (triple_ingest hv.entry hown).weaken (fun _ h => h) (fun _ => hfile) hfile

/-- What a disturbed reload has written. -/
private theorem triple_disturbed (hv : ∀ f ∈ files, ValidUnit glib w.hostName f) (hw : ∀ f ∈ files, ¬ f.Torn glib)
    (hn : (files.map fun f => unitName glib w.hostName f.text).Nodup) :
    Triple machine Disturbed (· = w) (rmgJournalReloadUnits glib (some files)) (fun _ => Written glib w files)
      (Written glib w files) := by
  have hmore : ∀ ys zs w', files = ys ++ zs → Written glib w ys w' → Written glib w files w' := by
    rintro ys zs w' rfl ⟨part, hpart, h⟩
    refine ⟨fun f => if f ∈ ys then part f else [], fun f _ => ?_, ?_⟩
    · dsimp only
      split
      · exact hpart f ‹_›
      · exact .nil _ _ _
    · have hys : ys.flatMap (fun f => if f ∈ ys then part f else []) = ys.flatMap part :=
        List.flatMap_congr fun f hf => if_pos hf
      have hzs : zs.flatMap (fun f => if f ∈ ys then part f else []) = [] := by
        refine List.flatMap_eq_nil_iff.2 fun f hf => if_neg fun hf' => ?_
        rw [List.map_append, List.nodup_append] at hn
        exact hn.2.2 _ (List.mem_map_of_mem hf') _ (List.mem_map_of_mem hf) rfl
      rw [List.flatMap_append, hys, hzs, List.append_nil]
      exact h
  have hloop : Triple machine Disturbed (Written glib w []) (List.forM files (reloadUnit glib))
      (fun _ => Written glib w files) (Written glib w files) := by
    refine .forM_counted fun ys y zs hx => ?_
    have hnd := hn
    rw [hx, List.map_append, List.nodup_append] at hnd
    have hname : ∀ f' ∈ ys, unitName glib w.hostName f'.text ≠ unitName glib w.hostName y.text := fun f' hf' =>
      hnd.2.2 _ (List.mem_map_of_mem hf') _ (by simp)
    have hy : y ∈ files := by simp [hx]
    exact (triple_reloadUnit_disturbed (hv y hy) (hw y hy) (fun hy => hname y hy rfl) hname).weaken (fun _ h => h)
      (fun _ _ h => h) fun w' h => hmore _ zs w' (by simp [hx]) h
  refine Triple.bind (Q := fun _ => Written glib w files) (hloop.weaken ?_ (fun _ _ h => h) fun _ h => h)
    fun _ => .ret fun _ h => h
  rintro w' rfl
  exact ⟨fun _ => [], by simp, .refl w'⟩

/-- The view of a service that a file names. -/
private theorem Written.view {w' : Instance} {part : UnitFile → List Sql} (hn : (files.map fun f =>
    unitName glib w.hostName f.text).Nodup) (hpart : ∀ f ∈ files, FilePart (w.journal.view (unitName glib w.hostName
      f.text)) (entryOf glib w.hostName f.text) f.text (part f)) (h : Wrote w w' (files.flatMap part)) {f : UnitFile}
    (hf : f ∈ files) : w'.journal.view (unitName glib w.hostName f.text) =
      replay (unitName glib w.hostName f.text) (part f) (w.journal.view (unitName glib w.hostName f.text)) := by
  obtain ⟨ys, zs, rfl⟩ := List.append_of_mem hf
  have hne : ∀ f' ∈ ys ++ zs, unitName glib w.hostName f'.text ≠ unitName glib w.hostName f.text := by
    rw [List.map_append, List.map_cons, List.nodup_append, List.nodup_cons] at hn
    intro f' hf'
    rcases List.mem_append.1 hf' with hf' | hf'
    · exact hn.2.2 _ (List.mem_map_of_mem hf') _ (by simp)
    · exact fun e => hn.2.1.1 (e ▸ List.mem_map_of_mem hf')
  have hother : ∀ l : List UnitFile, (∀ f' ∈ l, f' ∈ ys ++ zs) → ∀ v,
      replay (unitName glib w.hostName f.text) (l.flatMap part) v = v := by
    intro l hl v
    refine replay_of_ne (fun q hq => ?_) v
    obtain ⟨f', hf', hq⟩ := List.mem_flatMap.1 hq
    have hmem : f' ∈ ys ++ f :: zs := by
      have := hl f' hf'
      simp only [List.mem_append, List.mem_cons] at this ⊢
      tauto
    rw [target_of_mem_filePart (hpart f' hmem) hq]
    exact fun e => hne f' (hl f' hf') (Option.some.inj e)
  rw [h.view, List.flatMap_append, List.flatMap_cons, replay_append, replay_append,
    hother ys (fun f' h => by simp [h]), hother zs (fun f' h => by simp [h])]

end directory

/-! ### The next reload -/

section next
variable {glib : GLib} {hostName : String}

/-- Once the service row of the unit is written, or missed by a unit with hash zero, all its actions and friends are
written too. -/
def Finished (jentry : RmgJEntry) (origin : UnitText) (qs : List Sql) : Prop :=
  (.insertService (serviceRow jentry origin) ∈ qs ∨
      (jentry.hash = 0 ∧ .deleteServices (jentry.name.getD "") ∈ qs)) →
    ∀ q ∈ ingestPlan jentry origin jentry.actions jentry.friends, q ∈ qs

instance (jentry : RmgJEntry) (origin : UnitText) (qs : List Sql) : Decidable (Finished jentry origin qs) :=
  inferInstanceAs (Decidable ((_ ∨ (_ ∧ _)) → ∀ _ ∈ _, _))

private theorem map_eq_of_subset {ι ρ : Type} {l l' : List ι} {f : ι → ρ} {g : ρ → Int} (hs : l.Sublist l')
    (hd : ((l'.map f).map g).Nodup) (h : ∀ x ∈ l', f x ∈ l.map f) : l.map f = l'.map f := by
  have hnd : (l'.map f).Nodup := hd.of_map
  refine (hs.map f).eq_of_length_le ?_
  exact (List.subperm_of_subset hnd fun y hy => by
    obtain ⟨x, hx, rfl⟩ := List.mem_map.1 hy
    exact h x hx).length_le

/-- A part that ends within the statements that remove the unit: the service row is gone. -/
private theorem repaired_iff_of_removal {jentry : RmgJEntry} {origin : UnitText} {qs : List Sql} {v : View}
    (hh : v.hash ≠ jentry.hash) (hp : qs <+: removalOf (jentry.name.getD "")) :
    ((if (replay (jentry.name.getD "") qs v).hash = jentry.hash then replay (jentry.name.getD "") qs v
      else entryView jentry origin) = entryView jentry origin) ↔ Finished jentry origin qs := by
  have hinsert : .insertService (serviceRow jentry origin) ∉ qs := fun hmem => by
    simpa [removalOf] using hp.subset hmem
  cases qs with
  | nil => exact ⟨fun _ h => by simp at h, fun _ => if_neg hh⟩
  | cons q qs =>
    obtain ⟨rfl, hqs⟩ := List.cons_prefix_cons.1 hp
    have hzero : (replay (jentry.name.getD "") (.deleteServices (jentry.name.getD "") :: qs) v).services = [] := by
      obtain ⟨l, hl⟩ := hqs
      rcases qs with - | ⟨q₁, - | ⟨q₂, qs⟩⟩ <;> simp_all [replay, Sql.target, Sql.onView]
    have hhash : (replay (jentry.name.getD "") (.deleteServices (jentry.name.getD "") :: qs) v).hash = 0 := by
      rw [View.hash, hzero]
      rfl
    rw [hhash]
    by_cases h0 : jentry.hash = 0
    · -- a unit with hash zero is taken for the one that is stored
      rw [if_pos h0.symm]
      refine ⟨fun e => ?_, fun hf => ?_⟩
      · have := congrArg View.services e
        rw [hzero] at this
        cases this
      · exact absurd (hf (.inr ⟨h0, by simp⟩) (.insertService (serviceRow jentry origin)) (by simp [ingestPlan]))
          hinsert
    · rw [if_neg (Ne.symm h0)]
      refine ⟨fun _ h => ?_, fun _ => rfl⟩
      rcases h with h | h
      · exact absurd h hinsert
      · exact absurd h.1 h0

/-- A part with the service row in it: the next reload leaves it as it is. -/
private theorem repaired_iff_of_plan {jentry : RmgJEntry} {origin : UnitText} {as : List RmgAEntry}
    {fs : List RmgFEntry} (hd : (entryView jentry origin).Distinct) (has : as.Sublist jentry.actions)
    (hfs : fs.Sublist jentry.friends) (v : View) :
    ((if (replay (jentry.name.getD "") (ingestPlan jentry origin as fs) v).hash = jentry.hash then
      replay (jentry.name.getD "") (ingestPlan jentry origin as fs) v else entryView jentry origin) =
        entryView jentry origin) ↔ Finished jentry origin (ingestPlan jentry origin as fs) := by
  have hreplay := replay_ingestPlan jentry origin as fs v
  have hhash : (replay (jentry.name.getD "") (ingestPlan jentry origin as fs) v).hash = jentry.hash := by
    rw [hreplay]
    exact entryView_hash jentry origin
  rw [if_pos hhash, hreplay]
  refine ⟨fun e _ q hq => ?_, fun hf => ?_⟩
  · obtain ⟨-, ha, hf⟩ := View.mk.inj e
    simp only [ingestPlan, List.mem_append, List.mem_cons, List.mem_map] at hq ⊢
    rcases hq with hq | rfl | ⟨a, hq, rfl⟩ | ⟨f, hq, rfl⟩
    · exact .inl hq
    · exact .inr (.inl rfl)
    · have := List.mem_map_of_mem (f := actionRow jentry origin) hq
      rw [← ha] at this
      obtain ⟨a', ha', he⟩ := List.mem_map.1 this
      exact .inr (.inr (.inl ⟨a', ha', by rw [he]⟩))
    · have := List.mem_map_of_mem (f := friendRow jentry origin) hq
      rw [← hf] at this
      obtain ⟨f', hf', he⟩ := List.mem_map.1 this
      exact .inr (.inr (.inr ⟨f', hf', by rw [he]⟩))
  · have hall := hf (.inl (by simp [ingestPlan]))
    have ha : as.map (actionRow jentry origin) = jentry.actions.map (actionRow jentry origin) := by
      refine map_eq_of_subset has hd.actions fun a ha => ?_
      have := hall (.insertAction (actionRow jentry origin a)) (List.mem_append_right _
        (List.mem_cons_of_mem _ (List.mem_append_left _ (List.mem_map_of_mem ha))))
      simpa [ingestPlan, removalOf] using this
    have hf : fs.map (friendRow jentry origin) = jentry.friends.map (friendRow jentry origin) := by
      refine map_eq_of_subset hfs hd.friends fun f hf => ?_
      have := hall (.insertFriend (friendRow jentry origin f)) (List.mem_append_right _
        (List.mem_cons_of_mem _ (List.mem_append_right _ (List.mem_map_of_mem hf))))
      simpa [ingestPlan, removalOf] using this
    rw [ha, hf]
    rfl

/-- What the next reload makes of a part of the unit. -/
private theorem repaired_iff {jentry : RmgJEntry} {origin : UnitText} {qs : List Sql} {v : View}
    (hd : (entryView jentry origin).Distinct) (hp : FilePart v jentry origin qs) :
    ((if (replay (jentry.name.getD "") qs v).hash = jentry.hash then replay (jentry.name.getD "") qs v
      else entryView jentry origin) = if v.hash = jentry.hash then v else entryView jentry origin) ↔
        Finished jentry origin qs := by
  unfold FilePart at hp
  by_cases hh : v.hash = jentry.hash
  · rw [if_pos hh] at hp
    subst hp
    exact ⟨fun _ h => by simp at h, fun _ => by rw [show replay _ [] v = v from rfl]⟩
  rw [if_neg hh] at hp
  rw [if_neg hh]
  rcases hp with hp | ⟨as, fs, has, hfs, rfl⟩
  · exact repaired_iff_of_removal hh hp
  · exact repaired_iff_of_plan hd has hfs v

/-- A part of a unit brings in no other rows than those of the unit. -/
private theorem FilePart.disjoint {jentry : RmgJEntry} {origin : UnitText} {qs : List Sql} {u v : View}
    (hp : FilePart v jentry origin qs) (hv : u.Disjoint v) (he : u.Disjoint (entryView jentry origin)) :
    u.Disjoint (replay (jentry.name.getD "") qs v) := by
  unfold FilePart at hp
  split at hp
  · rw [hp]
    exact hv
  · rcases hp with hp | ⟨as, fs, has, hfs, rfl⟩
    · obtain ⟨l, hl⟩ := hp
      rcases qs with - | ⟨q₁, - | ⟨q₂, - | ⟨q₃, qs⟩⟩⟩
      · exact hv
      all_goals
        simp only [removalOf, List.cons_append, List.nil_append, List.cons.injEq, List.append_eq_nil_iff] at hl
      · obtain ⟨rfl, -⟩ := hl
        exact ⟨by simp [replay, Sql.target, Sql.onView], by simpa [replay, Sql.target, Sql.onView] using hv.actions,
          by simpa [replay, Sql.target, Sql.onView] using hv.friends⟩
      · obtain ⟨rfl, rfl, -⟩ := hl
        exact ⟨by simp [replay, Sql.target, Sql.onView], by simp [replay, Sql.target, Sql.onView],
          by simpa [replay, Sql.target, Sql.onView] using hv.friends⟩
      · obtain ⟨rfl, rfl, rfl, rfl, rfl⟩ := hl
        rw [show [Sql.deleteServices (jentry.name.getD ""), .deleteActions (jentry.name.getD ""),
          .deleteFriends (jentry.name.getD "")] = removalOf (jentry.name.getD "") from rfl, replay_removalOf]
        exact ⟨by simp, by simp, by simp⟩
    · rw [replay_ingestPlan]
      exact ⟨he.services, fun r hr r' hr' => he.actions r hr r' ((has.map _).subset hr'),
        fun r hr r' hr' => he.friends r hr r' ((hfs.map _).subset hr')⟩

end next

namespace Instance

variable {glib : GLib} {w w₁ : Instance} {files : List UnitFile} {qs : List Sql} {o : Outcome RmgStatus}

/-- A disturbed reload over units without torn friends wrote `qs`.  The next reload goes through, and it makes of a
service what an undisturbed one would have exactly if `qs` finished its unit. -/
private theorem next_reload (hv : ∀ f ∈ files, ValidUnit glib w.hostName f) (hw : ∀ f ∈ files, ¬ f.Torn glib)
    (hn : (files.map fun f => unitName glib w.hostName f.text).Nodup)
    (hc : NoClash glib w.hostName w.journal.view files)
    (hx : Exec machine Disturbed (rmgJournalReloadUnits glib (some files)) w o w₁)
    (hq : w₁.trace = w.trace ++ qs.map .statement) :
    (w₁.restarted.run (rmgJournalReloadUnits glib (some files))).1 = some .ok ∧
    ∀ f ∈ files, (w₁.restarted.run (rmgJournalReloadUnits glib (some files))).2.journal.view
        (unitName glib w.hostName f.text) =
      (w.run (rmgJournalReloadUnits glib (some files))).2.journal.view (unitName glib w.hostName f.text) ↔
    Finished (entryOf glib w.hostName f.text) f.text qs := by
  obtain ⟨part, hpart, hw₁⟩ : Written glib w files w₁ := by
    have := triple_disturbed hv hw hn w o w₁ rfl hx
    cases o <;> exact this
  have hqs : qs = files.flatMap part := by
    have := hq.symm.trans hw₁.trace
    exact List.map_injective_iff.2 (fun a b e => by injection e) (List.append_cancel_left this)
  have hview := fun f hf => Written.view hn hpart hw₁ (f := f) hf
  have hother : ∀ s, (∀ f ∈ files, unitName glib w.hostName f.text ≠ s) → w₁.journal.view s = w.journal.view s := by
    intro s hs
    rw [hw₁.view, replay_of_ne]
    intro q hq
    obtain ⟨f, hf, hq⟩ := List.mem_flatMap.1 hq
    rw [target_of_mem_filePart (hpart f hf) hq]
    exact fun e => hs f hf (Option.some.inj e)
  have hhost : w₁.restarted.hostName = w.hostName := hw₁.hostName
  -- the rows that are left are rows from before or rows of a unit
  have hc₁ : NoClash glib w.hostName w₁.journal.view files := by
    refine ⟨hc.distinct, hc.disjoint, fun f hf s hs => ?_⟩
    by_cases hnamed : ∃ f' ∈ files, unitName glib w.hostName f'.text = s
    · obtain ⟨f', hf', rfl⟩ := hnamed
      rw [hview f' hf']
      exact (hpart f' hf').disjoint (hc.others f hf _ hs) (hc.disjoint f hf f' hf' hs)
    · rw [hother s fun f' hf' e => hnamed ⟨f', hf', e⟩]
      exact hc.others f hf s hs
  obtain ⟨w₂, hrun₂, -, hview₂⟩ := run_rmgJournalReloadUnits (w := w₁.restarted) (hhost ▸ hv) hw (hhost ▸ hn)
    (by rw [hhost]; exact hc₁)
  obtain ⟨w₃, hrun₃, -, hview₃⟩ := run_rmgJournalReloadUnits hv hw hn hc
  rw [hrun₂, hrun₃]
  refine ⟨rfl, fun f hf => ?_⟩
  have hmem : ∀ q, q.target = some (unitName glib w.hostName f.text) → (q ∈ qs ↔ q ∈ part f) := by
    intro q ht
    rw [hqs, List.mem_flatMap]
    refine ⟨fun ⟨f', hf', hq⟩ => ?_, fun h => ⟨f, hf, h⟩⟩
    have hname := (target_of_mem_filePart (hpart f' hf') hq).symm.trans ht
    rwa [List.inj_on_of_nodup_map hn hf' hf (Option.some.inj hname)] at hq
  -- a statement about this service is one of its own file
  have hfin : Finished (entryOf glib w.hostName f.text) f.text qs ↔
      Finished (entryOf glib w.hostName f.text) f.text (part f) := by
    unfold Finished
    rw [hmem _ rfl, hmem _ rfl]
    refine imp_congr Iff.rfl (forall₂_congr fun q hq => hmem q (target_of_mem_ingestPlan hq))
  rw [hfin, ← repaired_iff (hc.distinct f hf) (hpart f hf)]
  show w₂.journal.view _ = w₃.journal.view _ ↔ _
  rw [hview₂, hview₃, hhost]
  simp only [reloadedView, find?_of_nodup hn hf, entryOf_hash]
  rw [show w₁.restarted.journal.view = w₁.journal.view from rfl, hview f hf]
  rfl

/-- A disturbed reload over `files` wrote `qs` before the process ended.  The next reload goes through and makes of
every service what an undisturbed one would have, exactly if no friend is torn and `qs` finished every unit it began to
insert. -/
theorem interrupted_reload_recovers_iff (hv : ∀ f ∈ files, ValidUnit glib w.hostName f)
    (hn : (files.map fun f => unitName glib w.hostName f.text).Nodup)
    (hc : NoClash glib w.hostName w.journal.view files)
    (hx : Exec machine Disturbed (rmgJournalReloadUnits glib (some files)) w o w₁)
    (hq : w₁.trace = w.trace ++ qs.map .statement) :
    ((w₁.restarted.run (rmgJournalReloadUnits glib (some files))).1 = some .ok ∧
      ∀ f ∈ files, (w₁.restarted.run (rmgJournalReloadUnits glib (some files))).2.journal.view
          (unitName glib w.hostName f.text) =
        (w.run (rmgJournalReloadUnits glib (some files))).2.journal.view (unitName glib w.hostName f.text)) ↔
    (∀ f ∈ files, ¬ f.Torn glib) ∧ ∀ f ∈ files, Finished (entryOf glib w.hostName f.text) f.text qs := by
  constructor
  · rintro ⟨hok, hviews⟩
    have hw : ∀ f ∈ files, ¬ f.Torn glib := fun f hf => not_torn_of_reload hok hf (hv f hf).readable
    obtain ⟨-, hiff⟩ := next_reload hv hw hn hc hx hq
    exact ⟨hw, fun f hf => (hiff f hf).1 (hviews f hf)⟩
  · rintro ⟨hw, hfin⟩
    obtain ⟨hok, hiff⟩ := next_reload hv hw hn hc hx hq
    exact ⟨hok, fun f hf => (hiff f hf).2 (hfin f hf)⟩

/-- A unit with two actions. -/
def twoActions : List Tag :=
  Tag.unit "a.service" [("relaxtime", "5")] [("resetService", "1", "false"), ("factoryReset", "1", "false")]

def twoActionsFiles : List UnitFile := [⟨some (Tag.bytes twoActions)⟩]

/-- The first reload of the unit, dying before operation number `n`. -/
def interruptedBefore (n : Nat) : Outcome RmgStatus × Instance :=
  cut machine true n (rmgJournalReloadUnits (.reading [twoActions]) (some twoActionsFiles)) (initial .primary "host")

private theorem disturbed_true (op : Op) : Disturbed op true := by
  unfold Disturbed
  split <;> trivial

private theorem noClash_twoActions : NoClash (.reading [twoActions]) (initial .primary "host").hostName
    (initial .primary "host").journal.view twoActionsFiles :=
  ⟨by decide +kernel, by decide +kernel, fun _ _ _ _ =>
    ⟨fun _ _ _ h => absurd h List.not_mem_nil, fun _ _ _ h => absurd h List.not_mem_nil,
      fun _ _ _ h => absurd h List.not_mem_nil⟩⟩

private theorem valid_twoActions :
    ∀ f ∈ twoActionsFiles, ValidUnit (.reading [twoActions]) (initial .primary "host").hostName f := by
  decide +kernel

private theorem nodup_twoActions : (twoActionsFiles.map fun f =>
    unitName (.reading [twoActions]) (initial .primary "host").hostName f.text).Nodup := by
  decide +kernel

private theorem exec_interruptedBefore (n : Nat) : Exec machine Disturbed
    (rmgJournalReloadUnits (.reading [twoActions]) (some twoActionsFiles)) (initial .primary "host")
    (interruptedBefore n).1 (interruptedBefore n).2 :=
  exec_cut machine true disturbed_true n _ _

private theorem trace_interruptedBefore : (interruptedBefore 5).2.trace =
    (initial .primary "host").trace ++ (removalOf "a.service").map .statement := by
  decide +kernel

/-- Before the service row is written, nothing is lost. -/
theorem interrupted_reload_recovers_before_insertion :
    ((interruptedBefore 5).2.restarted.run
      (rmgJournalReloadUnits (.reading [twoActions]) (some twoActionsFiles))).1 = some .ok ∧
    ∀ f ∈ twoActionsFiles, ((interruptedBefore 5).2.restarted.run
      (rmgJournalReloadUnits (.reading [twoActions]) (some twoActionsFiles))).2.journal.view
        (unitName (.reading [twoActions]) (initial .primary "host").hostName f.text) =
      ((initial .primary "host").run
        (rmgJournalReloadUnits (.reading [twoActions]) (some twoActionsFiles))).2.journal.view
          (unitName (.reading [twoActions]) (initial .primary "host").hostName f.text) :=
  (interrupted_reload_recovers_iff valid_twoActions nodup_twoActions noClash_twoActions (exec_interruptedBefore 5)
    trace_interruptedBefore).2 (by decide +kernel)

/-- A reload that dies right after the service row leaves the unit without its actions for good. -/
theorem interrupted_reload_loses_actions : ¬ ∀ (glib : GLib) (w w₁ : Instance) (files : List UnitFile)
    (o : Outcome RmgStatus), (∀ f ∈ files, ValidUnit glib w.hostName f) → (∀ f ∈ files, ¬ f.Torn glib) →
      (files.map fun f => unitName glib w.hostName f.text).Nodup →
      NoClash glib w.hostName w.journal.view files →
      Exec machine Disturbed (rmgJournalReloadUnits glib (some files)) w o w₁ →
        ∀ f ∈ files, (w₁.restarted.run (rmgJournalReloadUnits glib (some files))).2.journal.view
            (unitName glib w.hostName f.text) =
          (w.run (rmgJournalReloadUnits glib (some files))).2.journal.view (unitName glib w.hostName f.text) := by
  intro h
  have hlost := h _ _ _ _ _ valid_twoActions (by decide +kernel) nodup_twoActions noClash_twoActions
    (exec_interruptedBefore 6) ⟨some (Tag.bytes twoActions)⟩ (List.mem_singleton.2 rfl)
  revert hlost
  decide +kernel

end Instance

end RecoveryManager
