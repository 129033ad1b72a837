import RecoveryManager.Frames
import RecoveryManager.Units
import RecoveryManager.UnitSource

/-!
# The journal never mixes two versions of a unit

`View.Consistent`: a service has at most one row in `Services`, its rvector is not negative, and its rows in the three
tables come from one and the same unit file.  It holds for every service at every moment of every run from empty
tables, whichever statements fail and wherever the process dies (`consistent_of_faultyRuns`).

* Removal deletes the row in `Services` first, so what a failure leaves behind belongs to no service row.
* A service row is inserted only after all three deletions took effect.
-/

namespace RecoveryManager

open Fallible Fallible.Prog Instance

/-- `bound` bounds the rvector. -/
structure View.Consistent (glib : GLib) (hostName : String) (bound : Nat) (v : View) : Prop where
  unique : v.services.length ≤ 1
  nonneg : ∀ r ∈ v.services, 0 ≤ r.rvector
  bounded : ∀ r ∈ v.services, r.rvector ≤ bound
  service : ∀ r ∈ v.services, { r with rvector := 0 } ∈ (unitView glib hostName r.origin).services
  actions : ∀ r ∈ v.services, v.actions ⊆ (unitView glib hostName r.origin).actions
  friends : ∀ r ∈ v.services, v.friends ⊆ (unitView glib hostName r.origin).friends

/-- Every service is consistent. -/
structure JournalConsistent (glib : GLib) (hostName : String) (bound : Nat) (w : Instance) : Prop where
  host : w.hostName = hostName
  view : ∀ s, (w.journal.view s).Consistent glib hostName bound

variable {glib : GLib} {hostName : String} {bound : Nat}

theorem View.consistent_of_services_nil {v : View} (h : v.services = []) : v.Consistent glib hostName bound := by
  constructor <;> simp [h]

/-- The rvector that is read is within the bounds. -/
theorem View.Consistent.rvector_bounds {v : View} (hv : v.Consistent glib hostName bound) :
    0 ≤ v.services.foldl (fun _ r => r.rvector) 0 ∧ v.services.foldl (fun _ r => r.rvector) 0 ≤ (bound : Int) := by
  obtain ⟨services, actions, friends⟩ := v
  have hu := hv.unique
  have hn := hv.nonneg
  have hb := hv.bounded
  match services with
  | [] => exact ⟨Int.le_refl 0, Int.natCast_nonneg bound⟩
  | [r] => exact ⟨hn r (by simp), hb r (by simp)⟩
  | _ :: _ :: _ => simp at hu

/-- A greater bound will do as well. -/
theorem JournalConsistent.succ {w : Instance} (hw : JournalConsistent glib hostName bound w) :
    JournalConsistent glib hostName (bound + 1) w := by
  refine ⟨hw.host, fun s => ?_⟩
  have hv := hw.view s
  refine ⟨hv.unique, hv.nonneg, fun r hr => ?_, hv.service, hv.actions, hv.friends⟩
  have := hv.bounded r hr
  omega

/-! ### Statements -/

section statements
variable {A : Op → Bool → Prop} {w : Instance} {q : Sql} {j : Journal}

/-- A statement either fails and changes nothing, or takes effect. -/
theorem triple_sqliteExec {P C : Instance → Prop} {Q : Option q.Rows → Instance → Prop} (hC : ∀ w, P w → C w)
    (hfail : ∀ w, P w → Q none w)
    (hok : ∀ w j, P w → q.effect w.journal = some j → Q (some (q.rows w.journal)) (w.commit q j)) :
    Triple machine A P (sqliteExec q) Q C := by
  refine .call hC (R := Q) (fun w e _ hw => ?_) fun r => .ret fun _ h => h
  show Q (apply (.sql q) e w).1 (apply (.sql q) e w).2
  rcases apply_sql w q e with h | ⟨j, hj, h⟩
  · rw [h]
    exact hfail w hw
  · rw [h]
    exact hok w j hw hj

@[simp] theorem commit_hostName (w : Instance) (q : Sql) (j : Journal) : (w.commit q j).hostName = w.hostName := by
  unfold commit
  split <;> rfl

theorem commit_view_of_target (hq : q.isSelect = false) (h : q.effect w.journal = some j) {s : String}
    (hs : q.target = some s) : (w.commit q j).journal.view s = q.onView (w.journal.view s) := by
  rw [(wrote_commit hq h).view, replay_of_target hs]

theorem commit_view_of_ne (h : q.effect w.journal = some j) {s : String} (hs : q.target ≠ some s) :
    (w.commit q j).journal.view s = w.journal.view s := by
  by_cases hq : q.isSelect
  · rw [commit_of_isSelect hq]
  · rw [(wrote_commit (by simpa using hq) h).view, replay_of_ne (by simpa using hs)]

/-- A statement that leaves its own service consistent leaves all of them consistent. -/
theorem JournalConsistent.commit (hw : JournalConsistent glib hostName bound w) (h : q.effect w.journal = some j)
    (hq : ∀ s, q.target = some s → (q.onView (w.journal.view s)).Consistent glib hostName bound) :
    JournalConsistent glib hostName bound (w.commit q j) := by
  refine ⟨by rw [commit_hostName, hw.host], fun s => ?_⟩
  by_cases hs : q.target = some s
  · have hsel : q.isSelect = false := by
      cases q <;> simp_all [Sql.target, Sql.isSelect]
    rw [commit_view_of_target hsel h hs]
    exact hq s hs
  · rw [commit_view_of_ne h hs]
    exact hw.view s

private theorem View.Consistent.updateRvector {v : View} (hv : v.Consistent glib hostName bound) (s : String) {x : Int}
    (hx : 0 ≤ x) (hb : x ≤ bound) : ((Sql.updateRvector s x).onView v).Consistent glib hostName bound := by
  have hmem : ∀ r ∈ ((Sql.updateRvector s x).onView v).services, ∃ r' ∈ v.services, { r' with rvector := x } = r :=
    fun r hr => List.mem_map.1 hr
  refine ⟨by simpa [Sql.onView] using hv.unique, ?_, ?_, ?_, ?_, ?_⟩
  · intro r hr
    obtain ⟨r', -, rfl⟩ := hmem r hr
    exact hx
  · intro r hr
    obtain ⟨r', -, rfl⟩ := hmem r hr
    exact hb
  · intro r hr
    obtain ⟨r', hr', rfl⟩ := hmem r hr
    exact hv.service r' hr'
  · intro r hr
    obtain ⟨r', hr', rfl⟩ := hmem r hr
    exact hv.actions r' hr'
  · intro r hr
    obtain ⟨r', hr', rfl⟩ := hmem r hr
    exact hv.friends r' hr'

end statements

/-! ### Removal and insertion -/

section reload
variable {A : Op → Bool → Prop}

/-- The tables that the deletions done so far have cleared of the service. -/
private structure Cleared (glib : GLib) (hostName s : String) (bound : Nat) (services actions friends : Bool)
    (w : Instance) : Prop where
  consistent : JournalConsistent glib hostName bound w
  services : services → (w.journal.view s).services = []
  actions : actions → (w.journal.view s).actions = []
  friends : friends → (w.journal.view s).friends = []

/-- When the removal reports success, all three deletions took effect. -/
private theorem triple_removeService (s : String) :
    Triple machine A (JournalConsistent glib hostName bound) (rmgJournalRemoveService (some s))
      (fun st w => JournalConsistent glib hostName bound w ∧ (st = .ok → w.journal.view s = ⟨[], [], []⟩))
      (JournalConsistent glib hostName bound) := by
  show Triple _ _ _ (sqliteExec (.deleteServices s) >>= _) _ _
  refine .bind (Q := fun r => Cleared glib hostName s bound r.isSome false false) ?_ fun r => ?_
  · refine triple_sqliteExec (fun _ h => h) (fun w h => ⟨h, by simp, by simp, by simp⟩) fun w j hw hj => ?_
    refine ⟨hw.commit hj fun _ _ => View.consistent_of_services_nil rfl, fun _ => ?_, by simp, by simp⟩
    rw [commit_view_of_target rfl hj rfl]
    rfl
  cases r with
  | none => exact .ret fun w h => ⟨h.consistent, by simp⟩
  | some _ =>
  -- without a service row the rows of the service are consistent, whatever remains of them
  show Triple _ _ _ (sqliteExec (.deleteActions s) >>= _) _ _
  refine .bind (Q := fun r => Cleared glib hostName s bound true r.isSome false) ?_ fun r => ?_
  · refine triple_sqliteExec (fun _ h => h.consistent) (fun w h => ⟨h.consistent, h.services, by simp, by simp⟩)
      fun w j hw hj => ?_
    have hv := commit_view_of_target rfl hj (s := s) rfl
    refine ⟨hw.consistent.commit hj ?_, fun h => ?_, fun _ => ?_, by simp⟩
    · rintro s' ⟨⟩
      exact View.consistent_of_services_nil (hw.services rfl)
    · rw [hv]
      exact hw.services h
    · rw [hv]
      rfl
  show Triple _ _ _ (sqliteExec (.deleteFriends s) >>= _) _ _
  refine .bind (Q := fun r' => Cleared glib hostName s bound true r.isSome r'.isSome) ?_ fun r' => ?_
  · refine triple_sqliteExec (fun _ h => h.consistent) (fun w h => ⟨h.consistent, h.services, h.actions, by simp⟩)
      fun w j hw hj => ?_
    have hv := commit_view_of_target rfl hj (s := s) rfl
    refine ⟨hw.consistent.commit hj ?_, fun h => ?_, fun h => ?_, fun _ => ?_⟩
    · rintro s' ⟨⟩
      exact View.consistent_of_services_nil (hw.services rfl)
    · rw [hv]
      exact hw.services h
    · rw [hv]
      exact hw.actions h
    · rw [hv]
      rfl
  cases r with
  | none => exact .ret fun w h => ⟨h.consistent, by simp⟩
  | some _ =>
    cases r' with
    | none => exact .ret fun w h => ⟨h.consistent, by simp⟩
    | some _ =>
      refine .ret fun w h => ⟨h.consistent, fun _ => ?_⟩
      show View.mk (w.journal.view s).services (w.journal.view s).actions (w.journal.view s).friends = _
      rw [h.services rfl, h.actions rfl, h.friends rfl]

/-- The service row of the unit is in, and its actions and friends are being added. -/
private structure Ingesting (glib : GLib) (hostName : String) (bound : Nat) (fdata : UnitText) (w : Instance) :
    Prop where
  consistent : JournalConsistent glib hostName bound w
  services : (w.journal.view (unitName glib hostName fdata)).services = (unitView glib hostName fdata).services

private theorem Ingesting.commit {fdata : UnitText} {w : Instance} {q : Sql} {j : Journal}
    (h : Ingesting glib hostName bound fdata w) (hj : q.effect w.journal = some j)
    (hq : (∃ r ∈ (unitView glib hostName fdata).actions, q = .insertAction r) ∨
      ∃ r ∈ (unitView glib hostName fdata).friends, q = .insertFriend r) :
    Ingesting glib hostName bound fdata (w.commit q j) := by
  have hn : q.target = some (unitName glib hostName fdata) := by
    rcases hq with ⟨r, hr, rfl⟩ | ⟨r, hr, rfl⟩ <;> obtain ⟨_, -, rfl⟩ := List.mem_map.1 hr <;> rfl
  have hsel : q.isSelect = false := by rcases hq with ⟨r, hr, rfl⟩ | ⟨r, hr, rfl⟩ <;> rfl
  have hc := h.consistent.view (unitName glib hostName fdata)
  have hs := h.services
  -- the one row in `Services` is the row of this file, and so are the new rows
  have hone : ∀ r ∈ (w.journal.view (unitName glib hostName fdata)).services, r.origin = fdata := by
    rw [hs]
    simp [unitView, entryView, serviceRow]
  refine ⟨h.consistent.commit hj fun s hs' => ?_, ?_⟩
  · obtain rfl := Option.some.inj (hn.symm.trans hs')
    rcases hq with ⟨r, hr, rfl⟩ | ⟨r, hr, rfl⟩
    · refine ⟨hc.unique, hc.nonneg, hc.bounded, hc.service, fun r' hr' a ha => ?_, hc.friends⟩
      rcases List.mem_append.1 ha with ha | ha
      · exact hc.actions r' hr' ha
      · rw [hone r' hr', List.mem_singleton.1 ha]
        exact hr
    · refine ⟨hc.unique, hc.nonneg, hc.bounded, hc.service, hc.actions, fun r' hr' a ha => ?_⟩
      rcases List.mem_append.1 ha with ha | ha
      · exact hc.friends r' hr' ha
      · rw [hone r' hr', List.mem_singleton.1 ha]
        exact hr
  · rw [commit_view_of_target hsel hj hn, ← hs]
    rcases hq with ⟨r, hr, rfl⟩ | ⟨r, hr, rfl⟩ <;> rfl

private theorem triple_addAction {fdata : UnitText} {a : RmgAEntry} (ha : a ∈ (entryOf glib hostName fdata).actions) :
    Triple machine A (Ingesting glib hostName bound fdata) (addActionForService (entryOf glib hostName fdata) fdata a)
      (fun _ => Ingesting glib hostName bound fdata) (Ingesting glib hostName bound fdata) := by
  unfold addActionForService rmgJournalAddAction
  cases hn : (entryOf glib hostName fdata).name with
  | none => exact .abort fun _ h => h
  | some n =>
    have hr : actionRow (entryOf glib hostName fdata) fdata a = ⟨a.hash.toInt, n, a.type.code, a.triggerLevelMin,
        a.triggerLevelMax, a.resetAfter.toNat, fdata⟩ := by simp [actionRow, hn]
    show Triple _ _ _ ((sqliteExec _ >>= _) >>= _) _ _
    rw [bind_assoc]
    refine .bind (Q := fun _ => Ingesting glib hostName bound fdata) ?_ fun r => ?_
    · refine triple_sqliteExec (fun _ h => h) (fun _ h => h) fun w j hw hj => hw.commit hj (.inl ⟨_, ?_, rfl⟩)
      exact hr ▸ List.mem_map_of_mem ha
    · cases r <;> exact .ret fun _ h => h

private theorem triple_addFriend {fdata : UnitText} {f : RmgFEntry} (hf : f ∈ (entryOf glib hostName fdata).friends) :
    Triple machine A (Ingesting glib hostName bound fdata) (addFriendForService (entryOf glib hostName fdata) fdata f)
      (fun _ => Ingesting glib hostName bound fdata) (Ingesting glib hostName bound fdata) := by
  unfold addFriendForService rmgJournalAddFriend
  cases hn : (entryOf glib hostName fdata).name with
  | none => exact .abort fun _ h => h
  | some n =>
    have hr : friendRow (entryOf glib hostName fdata) fdata f = ⟨f.hash.toInt, n, f.friendName, f.friendContext,
        f.type.code, f.action.code, f.argument, f.delay, fdata⟩ := by simp [friendRow, hn]
    show Triple _ _ _ ((sqliteExec _ >>= _) >>= _) _ _
    rw [bind_assoc]
    refine .bind (Q := fun _ => Ingesting glib hostName bound fdata) ?_ fun r => ?_
    · refine triple_sqliteExec (fun _ h => h) (fun _ h => h) fun w j hw hj => hw.commit hj (.inr ⟨_, ?_, rfl⟩)
      exact hr ▸ List.mem_map_of_mem hf
    · cases r <;> exact .ret fun _ h => h

/-- Insertion of the service row, once the old rows are gone. -/
private theorem triple_addService {fdata : UnitText} (n : String) (hn : (entryOf glib hostName fdata).name = some n) :
    Triple machine A (fun w => JournalConsistent glib hostName bound w ∧ w.journal.view n = ⟨[], [], []⟩)
      (rmgJournalAddService (entryOf glib hostName fdata).hash (some n) (entryOf glib hostName fdata).privateData
        (entryOf glib hostName fdata).publicData (entryOf glib hostName fdata).checkStart
        (entryOf glib hostName fdata).timeout fdata)
      (fun st w => JournalConsistent glib hostName bound w ∧ (st = .ok → Ingesting glib hostName bound fdata w))
      (JournalConsistent glib hostName bound) := by
  unfold rmgJournalAddService
  cases hp : (entryOf glib hostName fdata).privateData with
  | none => exact .abort fun _ h => h.1
  | some p =>
  cases hp' : (entryOf glib hostName fdata).publicData with
  | none => exact .abort fun _ h => h.1
  | some p' =>
    have hr : serviceRow (entryOf glib hostName fdata) fdata = ⟨(entryOf glib hostName fdata).hash.toInt, n, p, p', 0,
        (entryOf glib hostName fdata).checkStart.toNat, (entryOf glib hostName fdata).timeout, fdata⟩ := by
      simp [serviceRow, hn, hp, hp']
    have hname : unitName glib hostName fdata = n := by simp [unitName, hn]
    show Triple _ _ _ (sqliteExec _ >>= _) _ _
    refine .bind (Q := fun r w => JournalConsistent glib hostName bound w ∧
      (r.isSome → Ingesting glib hostName bound fdata w)) ?_ fun r => ?_
    · refine triple_sqliteExec (fun _ h => h.1) (fun _ h => ⟨h.1, by simp⟩) fun w j hw hj => ?_
      rw [← hr] at hj ⊢
      have ht : (Sql.insertService (serviceRow (entryOf glib hostName fdata) fdata)).target = some n :=
        congrArg some hname
      have hv := commit_view_of_target rfl hj ht
      rw [hw.2] at hv
      have hc : JournalConsistent glib hostName bound
          (w.commit (.insertService (serviceRow (entryOf glib hostName fdata) fdata)) j) := by
        refine hw.1.commit hj fun s hs => ?_
        obtain rfl := Option.some.inj (ht.symm.trans hs)
        rw [hw.2]
        constructor <;> simp [Sql.onView, serviceRow, unitView, entryView]
      refine ⟨hc, fun _ => ⟨hc, ?_⟩⟩
      rw [hname, hv]
      rfl
    · cases r with
      | none => exact .ret fun w h => ⟨h.1, by simp⟩
      | some _ => exact .ret fun w h => ⟨h.1, fun _ => h.2 rfl⟩

private theorem triple_ingestEntry (fdata : UnitText) :
    Triple machine A (JournalConsistent glib hostName bound) (ingestEntry (entryOf glib hostName fdata) fdata)
      (fun _ => JournalConsistent glib hostName bound) (JournalConsistent glib hostName bound) := by
  unfold ingestEntry rmgJournalGetHash getServiceColumn
  cases hn : (entryOf glib hostName fdata).name with
  | none => exact .abort fun _ h => h
  | some n =>
  refine .bind (Q := fun _ => JournalConsistent glib hostName bound) ?_ fun r => ?_
  · show Triple _ _ _ (sqliteExec (.selectServices n) >>= _) _ _
    refine .bind (Q := fun _ => JournalConsistent glib hostName bound) (triple_sqliteExec (fun _ h => h) (fun _ h => h)
      fun w j hw hj => hw.commit hj fun s hs => by simp [Sql.target] at hs) fun r => ?_
    cases r <;> exact .ret fun _ h => h
  dsimp only
  split
  · exact .ret fun _ h => h
  unfold replaceService
  rw [hn]
  refine .bind (triple_removeService n) fun st => ?_
  cases st with
  | error => exact .ret fun _ h => h.1
  | ok =>
  refine .bind (Triple.weaken (triple_addService n hn) (fun w h => ⟨h.1, h.2 rfl⟩) (fun _ _ h => h) fun _ h => h)
    fun st => ?_
  cases st with
  | error => exact .ret fun _ h => h.1
  | ok =>
    have ha : Triple machine A (Ingesting glib hostName bound fdata)
        (List.forM (entryOf glib hostName fdata).actions (addActionForService (entryOf glib hostName fdata) fdata))
        (fun _ => Ingesting glib hostName bound fdata) (Ingesting glib hostName bound fdata) :=
      .forM fun a ha => triple_addAction ha
    have hf : Triple machine A (Ingesting glib hostName bound fdata)
        (List.forM (entryOf glib hostName fdata).friends (addFriendForService (entryOf glib hostName fdata) fdata))
        (fun _ => Ingesting glib hostName bound fdata) (Ingesting glib hostName bound fdata) :=
      .forM fun f hf => triple_addFriend hf
    exact Triple.weaken (ha.bind fun _ => hf) (fun w h => h.2 rfl) (fun _ _ h => h.consistent) fun _ h => h.consistent

private theorem triple_reloadUnit (file : UnitFile) :
    Triple machine A (JournalConsistent glib hostName bound) (reloadUnit glib file)
      (fun _ => JournalConsistent glib hostName bound) (JournalConsistent glib hostName bound) := by
  unfold reloadUnit
  cases file.contents with
  | none => exact .ret fun _ h => h
  | some contents =>
    refine .bind (Q := fun name w => JournalConsistent glib hostName bound w ∧ name = hostName) ?_ fun name => ?_
    · exact Triple.perform (fun _ h => h) fun w e _ hw => ⟨hw, hw.host⟩
    · intro w o w' hw hx
      obtain ⟨hw, rfl⟩ := hw
      revert hx
      dsimp only
      split
      · exact Triple.abort (P := JournalConsistent glib name bound)
          (Q := fun _ => JournalConsistent glib name bound) (fun _ h => h) w o w' hw
      split
      · exact triple_ingestEntry (cString contents) w o w' hw
      · exact Triple.ret (fun _ h => h) w o w' hw

theorem triple_rmgJournalReloadUnits (gdir : Option (List UnitFile)) :
    Triple machine A (JournalConsistent glib hostName bound) (rmgJournalReloadUnits glib gdir)
      (fun _ => JournalConsistent glib hostName bound) (JournalConsistent glib hostName bound) := by
  cases gdir with
  | none => exact .ret fun _ h => h
  | some files => exact .bind (.forM fun file _ => triple_reloadUnit file) fun _ => .ret fun _ h => h

end reload

/-! ### The other callbacks -/

section callbacks
variable {A : Op → Bool → Prop}

private theorem triple_of_noWrite {α : Type} {p : Proc α} (hp : p.Calls Op.NoWrite) :
    Triple machine A (JournalConsistent glib hostName bound) p (fun _ => JournalConsistent glib hostName bound)
      (JournalConsistent glib hostName bound) := by
  refine .of_calls (fun op e w hq _ hw => ⟨?_, fun s => ?_⟩) hp
  · exact (apply_hostName op e w).trans hw.host
  · show (((apply op e w).2).journal.view s).Consistent glib hostName bound
    rw [apply_noWrite_journal hq]
    exact hw.view s

private theorem triple_of_quiet {α : Type} {p : Proc α} (hp : p.Calls Op.Quiet) :
    Triple machine A (JournalConsistent glib hostName bound) p (fun _ => JournalConsistent glib hostName bound)
      (JournalConsistent glib hostName bound) :=
  triple_of_noWrite (hp.mono fun _ => Op.Quiet.noWrite)

private theorem triple_of_acts {α : Type} {p : Proc α} (hp : p.Calls Op.Acts) :
    Triple machine A (JournalConsistent glib hostName bound) p (fun _ => JournalConsistent glib hostName bound)
      (JournalConsistent glib hostName bound) :=
  triple_of_quiet (hp.mono fun _ h => h.1)

private theorem triple_setRvector (service : Option String) {v : Int} (hv : 0 ≤ v) (hb : v ≤ bound) :
    Triple machine A (JournalConsistent glib hostName bound) (rmgJournalSetRvector service v)
      (fun _ => JournalConsistent glib hostName bound) (JournalConsistent glib hostName bound) := by
  cases service with
  | none => exact .abort fun _ h => h
  | some s =>
    show Triple _ _ _ (sqliteExec (.updateRvector s v) >>= _) _ _
    refine .bind (Q := fun _ => JournalConsistent glib hostName bound) (triple_sqliteExec (fun _ h => h) (fun _ h => h)
      fun w j hw hj => hw.commit hj fun s' _ => (hw.view s').updateRvector s hv hb) fun r => ?_
    cases r <;> exact .ret fun _ h => h

private theorem triple_getRvector (service : Option String) :
    Triple machine A (JournalConsistent glib hostName bound) (rmgJournalGetRvector service)
      (fun r w => JournalConsistent glib hostName bound w ∧ 0 ≤ r.1 ∧ r.1 ≤ bound)
      (JournalConsistent glib hostName bound) := by
  cases service with
  | none => exact .abort fun _ h => h
  | some s =>
    show Triple _ _ _ (sqliteExec (.selectServices s) >>= _) _ _
    refine .bind (Q := fun r w => JournalConsistent glib hostName bound w ∧
        ∀ rows, r = some rows → 0 ≤ List.foldl (fun (_ : Int) (r : ServiceRow) => r.rvector) 0 rows ∧
          List.foldl (fun (_ : Int) (r : ServiceRow) => r.rvector) 0 rows ≤ bound)
      (triple_sqliteExec (fun _ h => h) (fun _ h => ⟨h, by simp⟩) fun w j hw hj => ⟨hw.commit hj (by simp [Sql.target]),
        ?_⟩) fun r => ?_
    · rintro rows ⟨⟩
      exact (hw.view s).rvector_bounds
    · cases r with
      | none => exact .ret fun _ h => ⟨h.1, Int.le_refl 0, Int.natCast_nonneg bound⟩
      | some rows => exact .ret fun _ h => ⟨h.1, h.2 rows rfl⟩

private theorem triple_resetRvector (event : EventRef) :
    Triple machine A (JournalConsistent glib hostName bound) (resetRvector event)
      (fun _ => JournalConsistent glib hostName bound) (JournalConsistent glib hostName bound) :=
  .bind (triple_of_acts (calls_load event)) fun e =>
    .bind (triple_setRvector e.serviceName (Int.le_refl 0) (Int.natCast_nonneg bound)) fun _ => .ret fun _ h => h

private theorem triple_performAction (type : RmgActionType) (reset : Bool) (event : EventRef) :
    Triple machine A (JournalConsistent glib hostName bound) (performAction type reset event)
      (fun _ => JournalConsistent glib hostName bound) (JournalConsistent glib hostName bound) := by
  have hpush : ∀ t, Triple machine A (JournalConsistent glib hostName bound) (rmgExecutorPushEvent t event)
      (fun _ => JournalConsistent glib hostName bound) (JournalConsistent glib hostName bound) := fun t =>
    triple_of_noWrite ⟨trivial, fun _ => trivial⟩
  have hrelax : ∀ t, Triple machine A (JournalConsistent glib hostName bound) (pushThenRelax t event reset)
      (fun _ => JournalConsistent glib hostName bound) (JournalConsistent glib hostName bound) := fun t => by
    refine .bind (hpush t) fun _ => ?_
    split
    · exact triple_resetRvector event
    · exact .bind (triple_of_acts (calls_load event)) fun e =>
        .bind (triple_of_noWrite ((calls_rmgRelaxtimerTrigger e.serviceName).mono fun _ h => h.1)) fun _ =>
          .ret fun _ h => h
  have hrestart : ∀ t, Triple machine A (JournalConsistent glib hostName bound) (resetThenPush t event reset)
      (fun _ => JournalConsistent glib hostName bound) (JournalConsistent glib hostName bound) := fun t => by
    refine .bind ?_ fun _ => hpush t
    unfold resetRvectorIf
    split
    · exact triple_resetRvector event
    · exact .ret fun _ h => h
  cases type with
  | serviceIgnore => exact triple_resetRvector event
  | serviceReset | publicDataReset | privateDataReset | serviceDisable => exact hrelax _
  | contextReset | platformRestart => exact hrestart _
  | factoryReset => exact hpush _
  | invalid | guruMeditation => exact .ret fun _ h => h

private theorem triple_escalate (event : EventRef) (rvector : Int) :
    Triple machine A (JournalConsistent glib hostName bound) (escalate event rvector)
      (fun _ => JournalConsistent glib hostName bound) (JournalConsistent glib hostName bound) := by
  refine .bind (triple_of_acts (calls_load event)) fun e =>
    .bind (triple_of_acts (calls_getActionColumn _ _ _)) fun r => ?_
  dsimp only
  split
  · exact .ret fun _ h => h
  refine .bind (triple_of_acts (calls_getActionColumn _ _ _)) fun r' => .bind ?_ fun _ =>
    .bind (triple_performAction _ _ event) fun _ => triple_of_quiet (calls_informServiceFailed event)
  unfold reportAction
  split
  · exact triple_of_noWrite ⟨trivial, fun _ => trivial⟩
  · exact .ret fun _ h => h

/-- What is cut short keeps the greater bound too. -/
private theorem triple_cut {α : Type} {p : Proc α} {Q : α → Instance → Prop}
    (h : Triple machine A (JournalConsistent glib hostName bound) p Q (JournalConsistent glib hostName bound)) :
    Triple machine A (JournalConsistent glib hostName bound) p Q (JournalConsistent glib hostName (bound + 1)) :=
  h.weaken (fun _ h => h) (fun _ _ h => h) fun _ => JournalConsistent.succ

private theorem triple_succ {α : Type} {p : Proc α}
    (h : Triple machine A (JournalConsistent glib hostName bound) p (fun _ => JournalConsistent glib hostName bound)
      (JournalConsistent glib hostName bound)) :
    Triple machine A (JournalConsistent glib hostName bound) p (fun _ => JournalConsistent glib hostName (bound + 1))
      (JournalConsistent glib hostName (bound + 1)) :=
  h.weaken (fun _ h => h) (fun _ _ => JournalConsistent.succ) fun _ => JournalConsistent.succ

/-- The crash handler counts upwards, by one. -/
private theorem triple_doProcessServiceCrashEvent (event : EventRef) :
    Triple machine A (JournalConsistent glib hostName bound) (doProcessServiceCrashEvent event)
      (fun _ => JournalConsistent glib hostName (bound + 1)) (JournalConsistent glib hostName (bound + 1)) := by
  refine .bind (triple_cut (triple_of_acts (calls_load event))) fun e =>
    .bind (triple_cut (triple_of_acts (calls_getServiceColumn _ _ _))) fun r => ?_
  dsimp only
  split
  · exact .ret fun _ => JournalConsistent.succ
  split
  · exact triple_succ (triple_of_noWrite ⟨trivial, fun _ => trivial⟩)
  refine .bind (triple_cut (triple_getRvector e.serviceName)) fun r => ?_
  split
  · exact .ret fun _ h => h.1.succ
  refine .split (0 ≤ r.1 ∧ r.1 ≤ bound) (JournalConsistent glib hostName (bound + 1)) (fun _ h => ⟨h.2, h.1.succ⟩)
    fun hr => ?_
  refine .bind (triple_setRvector e.serviceName (by omega) (by omega)) fun st => ?_
  cases st with
  | error => exact .ret fun _ h => h
  | ok => exact triple_escalate event _

private theorem triple_dispatcherSourceCallback (event : EventRef) :
    Triple machine A (JournalConsistent glib hostName bound) (dispatcherSourceCallback event)
      (fun _ => JournalConsistent glib hostName (bound + 1)) (JournalConsistent glib hostName (bound + 1)) := by
  have hpush : ∀ t, Triple machine A (JournalConsistent glib hostName bound) (rmgExecutorPushEvent t event)
      (fun _ => JournalConsistent glib hostName bound) (JournalConsistent glib hostName bound) := fun t =>
    triple_of_noWrite ⟨trivial, fun _ => trivial⟩
  refine .bind (triple_cut (triple_of_acts (calls_load event))) fun e => ?_
  cases e.type with
  | informProcessCrash =>
    exact triple_succ (triple_of_quiet ((calls_doFriendProcessCrashEvent event).mono fun _ h => h.quiet rfl))
  | informServiceFailed =>
    exact triple_succ (triple_of_quiet ((calls_doFriendServiceFailedEvent event).mono fun _ h => h.quiet rfl))
  | serviceCrashed =>
    exact .bind (triple_cut (triple_of_noWrite ⟨trivial, fun _ => trivial⟩)) fun _ =>
      triple_doProcessServiceCrashEvent event
  | remoteContextRestart | remotePlatformRestart | remoteFactoryReset => exact triple_succ (hpush _)
  | serviceRestarted | unknown => exact .ret fun _ => JournalConsistent.succ

private theorem triple_timerCallback (data : TimerData) :
    Triple machine A (JournalConsistent glib hostName bound) (timerCallback data)
      (fun _ => JournalConsistent glib hostName bound) (JournalConsistent glib hostName bound) := by
  cases data with
  | friend t => exact triple_of_acts (calls_friendtimerCallback t)
  | relax t =>
    refine .bind (triple_of_acts (calls_getServiceColumn _ _ _)) fun r => ?_
    dsimp only
    split
    · exact .ret fun _ h => h
    split
    · exact .bind (triple_setRvector _ (Int.le_refl 0) (Int.natCast_nonneg bound)) fun _ => .ret fun _ h => h
    · exact .ret fun _ h => h

end callbacks

/-! ### Runs -/

variable {w w' : Instance} {l : Label}

/-- Starting a callback writes no table, and no callback breaks consistency. -/
private theorem callback_consistent {w₀ : Instance} {p : Proc PUnit} (h : Callback glib w l w₀ p)
    (hw : JournalConsistent glib hostName bound w) : JournalConsistent glib hostName bound w₀ ∧
      Triple machine (fun _ _ => True) (JournalConsistent glib hostName bound) p
        (fun _ => JournalConsistent glib hostName (bound + 1)) (JournalConsistent glib hostName (bound + 1)) := by
  refine ⟨?_, ?_⟩
  · cases h <;> exact ⟨hw.host, hw.view⟩
  · cases h with
    | crash | restarted => exact triple_succ (triple_of_quiet (calls_pushMonitored _ _))
    | newCrash => exact triple_succ (triple_of_quiet (calls_pushNewCrash _ _))
    | fromReplica => exact triple_succ (triple_of_quiet (calls_clientProcessMessage _ _))
    | fromPrimary => exact triple_succ (triple_of_quiet (calls_managerProcessMessage _))
    | dispatch => exact triple_dispatcherSourceCallback _
    | execute => exact triple_succ (triple_of_quiet ((calls_executorSourceCallback _ _).mono fun _ h => h.quiet))
    | expire => exact triple_succ (triple_timerCallback _)
    | tick => exact .ret fun _ => JournalConsistent.succ
    | restart gdir =>
      exact triple_succ (.bind (triple_rmgJournalReloadUnits gdir) fun _ =>
        triple_of_noWrite (calls_monitorStartRelaxTimers.mono fun _ h => h.1))

/-- A step counts by one at most. -/
theorem consistent_of_faultyStep (h : FaultyStep glib w l w') (hw : JournalConsistent glib hostName bound w) :
    JournalConsistent glib hostName (bound + 1) w' := by
  rcases h.ends fun w₀ p hc => ⟨JournalConsistent glib hostName bound, callback_consistent hc hw⟩ with
    hw' | ⟨w₁, hw₁, rfl⟩
  · exact hw'
  · exact ⟨hw₁.host, hw₁.view⟩

/-- Whatever fails and wherever the process dies, every service stays consistent, and no rvector gets greater than the
number of steps. -/
theorem consistent_of_faultyRuns {w₀ : Instance} {ls : List Label} (h0 : Fresh w₀) (h : FaultyRuns glib w₀ ls w) :
    JournalConsistent glib w₀.hostName ls.length w := by
  induction h with
  | nil =>
    refine ⟨rfl, fun s => View.consistent_of_services_nil ?_⟩
    rw [h0.journal]
    rfl
  | snoc _ hs ih =>
    rw [List.length_append]
    exact consistent_of_faultyStep hs ih

def restartUnit : List Tag := Tag.unit "a.service" [] [("resetService", "1", "false")]

def disableUnit : List Tag := Tag.unit "b.service" [] [("disableService", "2", "true")]

/-- A boot with one unit, and a crash. -/
def crashedOnce : Option Instance :=
  (initial .primary "host").replayed (.reading [restartUnit, disableUnit])
    (.restart (directory [restartUnit]) :: crashLabels "a.service" 1)

theorem crashedOnce_isSome : crashedOnce.isSome := by decide +kernel

/-- The second version of the unit. -/
def changedUnit : List Tag := Tag.unit "a.service" [] [("disableService", "2", "false")]

/-- Steps in which everything goes through. -/
def succeeding (ls : List Label) : List (Label × (Nat → Bool)) := ls.map fun l => (l, fun _ => true)

/-- The first version is ingested and the service crashes; when the second version is read, the deletion of the actions
fails. -/
def halfRemoved : List (Label × (Nat → Bool)) :=
  succeeding (.restart (directory [restartUnit]) :: crashLabels "a.service" 1) ++
    [(Label.restart (directory [changedUnit]), (· != 3))]

/-- The next reload goes through, and the service crashes again. -/
def changedOnce : Option Instance :=
  (initial .primary "host").replayedEach (.reading [restartUnit, changedUnit])
    (halfRemoved ++ succeeding (.restart (directory [changedUnit]) :: crashLabels "a.service" 1))

/-- The failed deletion leaves an action of the first version and no row of the service. -/
example : ((initial .primary "host").replayedEach (.reading [restartUnit, changedUnit]) halfRemoved).map
    (fun w => (w.journal.services.length, w.journal.actions.map (·.type))) =
      some (0, [RmgActionType.serviceReset.code]) := by decide +kernel

theorem changedOnce_isSome : changedOnce.isSome := by decide +kernel

end RecoveryManager
