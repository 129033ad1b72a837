import RecoveryManager.Recovery

/-!
# The boot

A boot reloads the units and starts the relax timers.  For one service it replays some statements of a reload
(`exists_reloaded`), none if the unit of the service is unchanged (`recovery_reload_of_keeps`), and starts a timer for
an rvector that waits to relax (`exists_started`).  With it every step of an instance is a move of each service, or
leaves the service as it is (`move_of_step`).
-/

namespace RecoveryManager

open Fallible Fallible.Prog

/-! ### Operations of a reload -/

/-- The operations of a reload. -/
def Op.Reloads : Op → Prop
  | .sql q => q.Reloading
  | .getHostName => True
  | _ => False

/-- A statement of the work on one unit. -/
def Sql.About (name : Option String) (q : Sql) : Prop := q.Reloading ∧ (q.target = none ∨ q.target = name)

section calls
variable {K : Op → Prop} {name : Option String} (hK : ∀ q : Sql, q.About name → K (.sql q))
include hK

private theorem calls_removeService : (rmgJournalRemoveService name).Calls K := by
  cases name with
  | none => trivial
  | some n =>
    refine ⟨hK _ ⟨trivial, .inr rfl⟩, fun r => ?_⟩
    cases r with
    | none => trivial
    | some _ =>
      refine ⟨hK _ ⟨trivial, .inr rfl⟩, fun a => ⟨hK _ ⟨trivial, .inr rfl⟩, fun f => ?_⟩⟩
      show Calls _ (if _ then _ else _)
      split <;> trivial

omit hK in
private theorem calls_assert {α : Type} {k : String → Proc α} (hk : ∀ n, name = some n → (k n).Calls K) :
    (gAssertName name >>= k).Calls K := by
  cases name with
  | none => trivial
  | some n => exact hk n rfl

private theorem calls_replaceService {jentry : RmgJEntry} (hn : jentry.name = name) (fdata : UnitText) :
    (replaceService jentry fdata).Calls K := by
  subst hn
  refine (calls_removeService hK).bind fun st => ?_
  cases st with
  | error => trivial
  | ok =>
  have hadd : (rmgJournalAddService jentry.hash jentry.name jentry.privateData jentry.publicData jentry.checkStart
      jentry.timeout fdata).Calls K :=
    calls_assert fun n hn => calls_assert fun _ _ => calls_assert fun _ _ =>
      ⟨hK _ ⟨rfl, .inr hn.symm⟩, fun r => by cases r <;> trivial⟩
  refine hadd.bind fun st => ?_
  cases st with
  | error => trivial
  | ok =>
    refine Calls.bind (.forM fun a _ => Calls.bind ?_ fun _ => calls_pure _) fun _ =>
      .forM fun f _ => Calls.bind ?_ fun _ => calls_pure _
    · exact calls_assert fun n hn => ⟨hK _ ⟨trivial, .inr hn.symm⟩, fun r => by cases r <;> trivial⟩
    · exact calls_assert fun n hn => calls_assert fun _ _ => calls_assert fun _ _ =>
        ⟨hK _ ⟨trivial, .inr hn.symm⟩, fun r => by cases r <;> trivial⟩

private theorem calls_ingestEntry {jentry : RmgJEntry} (hn : jentry.name = name) (fdata : UnitText) :
    (ingestEntry jentry fdata).Calls K := by
  have hget : (rmgJournalGetHash jentry.name).Calls K :=
    calls_assert fun n _ => ⟨hK _ ⟨trivial, .inl rfl⟩, fun r => by cases r <;> trivial⟩
  refine hget.bind fun r => ?_
  dsimp only
  split
  · trivial
  · exact calls_replaceService hK hn fdata

end calls

theorem calls_rmgJournalReloadUnits (glib : GLib) (gdir : Option (List UnitFile)) :
    (rmgJournalReloadUnits glib gdir).Calls Op.Reloads := by
  cases gdir with
  | none => trivial
  | some files =>
    refine Calls.bind (.forM fun f _ => ?_) fun _ => trivial
    unfold reloadUnit
    split
    · trivial
    · refine ⟨trivial, fun hostName => ?_⟩
      show Calls _ (if _ then _ else if _ then _ else _)
      split
      · trivial
      split
      · exact calls_ingestEntry (fun q hq => hq.1) rfl _
      · trivial

theorem calls_boot (glib : GLib) (gdir : Option (List UnitFile)) : (boot glib gdir).Calls Op.Aside := by
  refine Calls.bind ((calls_rmgJournalReloadUnits glib gdir).mono fun op h => ?_) fun _ =>
    calls_monitorStartRelaxTimers.mono fun _ h => h.2
  cases op with
  | sql | getHostName => trivial
  | _ => exact h.elim

/-! ### The units -/

/-- The files that name the service have the hash `hash`. -/
def KeepsUnit (glib : GLib) (hostName s : String) (hash : Gulong) (gdir : Option (List UnitFile)) : Prop :=
  ∀ files, gdir = some files → ∀ f ∈ files, f.contents.isSome → (glib.markup f.text).ok →
    (entryOf glib hostName f.text).name = some s → rmgUtilsJenkinsHash f.text = hash

/-- A restart that keeps the unit of the service. -/
def Label.Keeps (glib : GLib) (hostName s : String) (hash : Gulong) : Label → Prop
  | .restart gdir => KeepsUnit glib hostName s hash gdir
  | _ => True

namespace Instance

variable {glib : GLib} {w w' : Instance} {s : String} {l : Label}

/-- The service after some statements of a reload. -/
private structure Reloaded (s : String) (R : Recovery) (w : Instance) (qs : List Sql) : Prop where
  reloading : ∀ q ∈ qs, q.target = some s ∧ q.Reloading
  recovery : w.recovery s = ⟨replay s qs R.view, R.timers, R.history ++ qs.map .statement⟩

private theorem Reloaded.apply {R : Recovery} {op : Op} (hop : op.Reloads) (e : Bool)
    (h : ∃ qs, Reloaded s R w qs) : ∃ qs, Reloaded s R (apply op e w).2 qs := by
  obtain ⟨qs, hqs, hr⟩ := h
  cases op with
  | sql q =>
    rcases apply_sql w q e with h | ⟨j, hj, h⟩
    · rw [h]
      exact ⟨qs, hqs, hr⟩
    · rw [h]
      by_cases hs : q.target = some s
      · have hsel : q.isSelect = false := by cases q <;> simp_all [Sql.target, Sql.isSelect]
        have hw := wrote_commit hsel hj
        refine ⟨qs ++ [q], ?_, ?_⟩
        · intro q' hq'
          rcases List.mem_append.1 hq' with hq' | hq'
          · exact hqs q' hq'
          · exact List.mem_singleton.1 hq' ▸ ⟨hs, hop⟩
        · have hv : w.journal.view s = replay s qs R.view := congrArg Recovery.view hr
          have hh : w.history s = R.history ++ qs.map .statement := congrArg Recovery.history hr
          have ht : w.sources.filter (·.relaxes s) = R.timers := congrArg Recovery.timers hr
          have hsub : (Output.statement q).subject = some s := hs
          have hh' : (w.commit q j).history s = w.history s ++ [.statement q] := by
            simp [history, hw.trace, hsub]
          have hsrc : (w.commit q j).sources = w.sources := by rw [hw.eq]
          show (w.commit q j).recovery s = _
          rw [Instance.recovery, hw.view, hv, hsrc, ht, hh', hh, replay_append]
          simp
      · exact ⟨qs, hqs, (recovery_commit hj hs).trans hr⟩
  | getHostName => exact ⟨qs, hqs, hr⟩
  | _ => exact hop.elim

/-- A reload replays statements of its own on the rows of the service. -/
private theorem exists_reloaded (glib : GLib) (gdir : Option (List UnitFile)) (w : Instance) (s : String) :
    ∃ qs, Reloaded s (w.recovery s) (w.run (rmgJournalReloadUnits glib gdir)).2 qs := by
  have ht : Triple machine (fun _ _ => True) (fun w' => ∃ qs, Reloaded s (w.recovery s) w' qs)
      (rmgJournalReloadUnits glib gdir) (fun _ w' => ∃ qs, Reloaded s (w.recovery s) w' qs)
      (fun w' => ∃ qs, Reloaded s (w.recovery s) w' qs) :=
    .of_calls (fun op e w' hop _ hw => Reloaded.apply hop e hw) (calls_rmgJournalReloadUnits glib gdir)
  obtain ⟨hd, ha⟩ := ht.run (e := true) (fun _ => trivial) (s := w) ⟨[], by simp, by simp [replay]⟩
  cases h : (w.run (rmgJournalReloadUnits glib gdir)).1 with
  | none => exact ha h
  | some st => exact hd st h

private theorem triple_pure {α : Type} {A : Op → Bool → Prop} (I : Instance → Prop) (a : α) :
    Triple machine A I (pure a : Proc α) (fun _ => I) I :=
  .ret fun _ h => h

/-- A file is skipped when its hash is the stored one. -/
private theorem triple_ingestEntry_of_keeps {jentry : RmgJEntry} (hn : jentry.name = some s) {R : Recovery}
    (hh : jentry.hash = R.view.hash) (fdata : UnitText) :
    Triple machine (fun _ e => e = true) (fun w => w.recovery s = R) (ingestEntry jentry fdata)
      (fun _ w => w.recovery s = R) (fun w => w.recovery s = R) := by
  unfold ingestEntry
  rw [hn]
  refine .bind (Q := fun r w => w.recovery s = R ∧ r = (R.view.hash, false)) ?_ fun r => ?_
  · refine .call (fun _ h => h) (R := fun rows w => w.recovery s = R ∧ ∃ rows', rows = some rows' ∧
      List.foldl (fun (_ : Gulong) (r : ServiceRow) => gAsciiStrtoull (printLd r.hash)) 0 rows' = R.view.hash) ?_
      fun rows => ?_
    · rintro w e rfl h
      exact ⟨h, _, rfl, congrArg (fun R => R.view.hash) h⟩
    · cases rows with
      | none => exact fun w o w' h _ => absurd h.2 (by simp)
      | some rows =>
        refine .ret fun w h => ⟨h.1, ?_⟩
        obtain ⟨-, rows', e, h⟩ := h
        obtain rfl := Option.some.inj e
        exact Prod.ext h rfl
  · rintro w o w' ⟨hw, rfl⟩ hx
    revert hx
    dsimp only
    rw [if_pos hh]
    exact triple_pure (fun w => w.recovery s = R) ⟨⟩ w o w' hw

private theorem triple_reloadUnit_of_keeps {hostName : String} {f : UnitFile} {R : Recovery}
    (hk : f.contents.isSome → (glib.markup f.text).ok → (entryOf glib hostName f.text).name = some s →
      rmgUtilsJenkinsHash f.text = R.view.hash) :
    Triple machine (fun _ e => e = true) (fun w => w.recovery s = R ∧ w.hostName = hostName) (reloadUnit glib f)
      (fun _ w => w.recovery s = R ∧ w.hostName = hostName) (fun w => w.recovery s = R ∧ w.hostName = hostName) := by
  suffices h : Triple machine (fun _ e => e = true) (fun w => w.recovery s = R ∧ w.hostName = hostName)
      (reloadUnit glib f) (fun _ w => w.recovery s = R) (fun w => w.recovery s = R) from
    Triple.weaken (h.and (triple_hostName hostName (reloadUnit glib f))) (fun w h => ⟨h, h.2⟩) (fun _ _ h => h)
      fun _ h => h
  unfold reloadUnit
  cases hc : f.contents with
  | none => exact .ret fun _ h => h.1
  | some contents =>
    have ht : f.text = cString contents := by rw [UnitFile.text, hc, Option.getD_some]
    refine .call (R := fun name w => w.recovery s = R ∧ name = hostName) (fun _ h => h.1) ?_ fun name => ?_
    · exact fun w e _ h => ⟨h.1, h.2⟩
    · rintro w o w' ⟨hw, rfl⟩ hx
      have hx : Exec machine (fun _ e => e = true) (if (entryOf glib name (cString contents)).contextFreedTwice then
        .abort else if (glib.markup (cString contents)).ok then
          ingestEntry (entryOf glib name (cString contents)) (cString contents) else pure ⟨⟩) w o w' := hx
      rw [← ht] at hx
      by_cases htwice : (entryOf glib name f.text).contextFreedTwice
      · rw [if_pos htwice] at hx
        exact Triple.abort (P := fun w => w.recovery s = R) (Q := fun _ w => w.recovery s = R) (fun _ h => h) w o w' hw
          hx
      rw [if_neg htwice] at hx
      by_cases hok : (glib.markup f.text).ok
      · rw [if_pos hok] at hx
        by_cases hn : (entryOf glib name f.text).name = some s
        · have hh : (entryOf glib name f.text).hash = R.view.hash :=
            (entryOf_hash glib name f.text).trans (hk (by rw [hc]; rfl) hok hn)
          exact triple_ingestEntry_of_keeps hn hh f.text w o w' hw hx
        · have hq : (ingestEntry (entryOf glib name f.text) f.text).Calls (Op.QuietFor s) := by
            refine calls_ingestEntry (fun q hq => ?_) rfl _
            rcases hq.2 with h | h
            · simp [Op.QuietFor, h]
            · simpa [Op.QuietFor, h] using hn
          exact Triple.of_calls (I := fun w => w.recovery s = R)
            (fun op e w hop _ hw => (apply_quietFor_recovery hop).trans hw) hq w o w' hw hx
      · rw [if_neg hok] at hx
        exact triple_pure (fun w => w.recovery s = R) ⟨⟩ w o w' hw hx

private theorem recovery_reload_of_keeps {gdir : Option (List UnitFile)} {R : Recovery} (hR : w.recovery s = R)
    (hk : KeepsUnit glib w.hostName s R.view.hash gdir) :
    (w.run (rmgJournalReloadUnits glib gdir)).2.recovery s = R := by
  have ht : Triple machine (fun _ e => e = true) (fun w' => w'.recovery s = R ∧ w'.hostName = w.hostName)
      (rmgJournalReloadUnits glib gdir) (fun _ w' => w'.recovery s = R) (fun w' => w'.recovery s = R) := by
    cases gdir with
    | none => exact .ret fun _ h => h.1
    | some files =>
      have hl : Triple machine (fun _ e => e = true) (fun w' => w'.recovery s = R ∧ w'.hostName = w.hostName)
          (List.forM files (reloadUnit glib)) (fun _ w' => w'.recovery s = R ∧ w'.hostName = w.hostName)
          (fun w' => w'.recovery s = R ∧ w'.hostName = w.hostName) :=
        .forM fun f hf => triple_reloadUnit_of_keeps (hk files rfl f hf)
      exact (hl.bind fun _ => triple_pure _ _).weaken (fun _ h => h) (fun _ _ h => h.1) fun _ h => h.1
  obtain ⟨hd, ha⟩ := ht.run (e := true) (fun _ => rfl) ⟨hR, rfl⟩
  cases h : (w.run (rmgJournalReloadUnits glib gdir)).1 with
  | none => exact ha h
  | some st => exact hd st h

/-! ### The timers -/

/-- What the start of the relax timers does to one service. -/
private structure Started (s : String) (R : Recovery) (w : Instance) (new : List GSource) : Prop where
  recovery : w.recovery s = ⟨R.view, R.timers ++ new, R.history ++ new.map .timeoutAdded⟩
  data : ∀ source ∈ new, source.data = .relax ⟨s, R.view.rvector, R.view.timeout⟩ ∧ 0 < R.view.rvector ∧
    0 < R.view.timeout

private theorem Started.triggered {R : Recovery} {new : List GSource} (h : Started s R w new) (n : String) :
    ∃ new', Started s R (w.triggered n) new' ∧ (new ≠ [] → new' ≠ []) ∧
      (n = s → 0 < R.view.rvector → 0 < R.view.timeout → new' ≠ []) := by
  by_cases hn : n = s
  · subst hn
    have hr := recovery_triggered w n
    rw [h.recovery] at hr
    by_cases hz : R.view.rvector ≤ 0 ∨ R.view.timeout ≤ 0
    · rw [Recovery.trigger, if_pos hz] at hr
      exact ⟨new, ⟨hr, h.data⟩, id, fun _ h₁ h₂ => by omega⟩
    · rw [Recovery.trigger, if_neg hz] at hr
      have hl : ∀ source, (Recovery.mk R.view (R.timers ++ new) (R.history ++ new.map .timeoutAdded)).start source =
          ⟨R.view, R.timers ++ (new ++ [source]), R.history ++ (new ++ [source]).map .timeoutAdded⟩ := by
        intro source
        simp [Recovery.start]
      rw [hl] at hr
      refine ⟨_, ⟨hr, fun source hs => ?_⟩, fun _ => by simp, fun _ _ _ => by simp⟩
      rcases List.mem_append.1 hs with hs | hs
      · exact h.data source hs
      · rw [List.mem_singleton.1 hs]
        exact ⟨rfl, by omega, by omega⟩
  · exact ⟨new, ⟨(recovery_triggered_of_ne hn w).trans h.recovery, h.data⟩, id, fun e => absurd e hn⟩

private theorem exists_relaxing_row {w : Instance} (h : 0 < (w.recovery s).view.rvector) :
    ∃ r ∈ w.journal.services.filter (0 < ·.rvector), r.name = s := by
  have hv : (w.recovery s).view.rvector = (w.journal.servicesNamed s).foldl (fun _ r => r.rvector) 0 := rfl
  rw [hv, foldl_overwrite] at h
  cases hl : (w.journal.servicesNamed s).getLast? with
  | none => simp [hl] at h
  | some r =>
    obtain ⟨hr, hs⟩ := List.mem_filter.1 (List.mem_of_getLast? hl)
    rw [hl] at h
    exact ⟨r, List.mem_filter.2 ⟨hr, by simpa using h⟩, by simpa using hs⟩

private theorem run_forM_addRelaxTimer (rows : List ServiceRow) (w : Instance) (s : String) :
    ∃ w', w.run (List.forM rows fun r : ServiceRow => monitorAddRelaxTimer r.name) = (some ⟨⟩, w') ∧
      ∃ new, Started s (w.recovery s) w' new ∧ ∀ r ∈ rows, r.name = s → 0 < (w.recovery s).view.rvector →
        0 < (w.recovery s).view.timeout → new ≠ [] := by
  refine run_forM machine true (I := fun ys w' => ∃ new, Started s (w.recovery s) w' new ∧ ∀ r ∈ ys,
    ServiceRow.name r = s →
    0 < (w.recovery s).view.rvector → 0 < (w.recovery s).view.timeout → new ≠ []) ?_ ⟨[], ⟨by simp, by simp⟩, by simp⟩
  rintro ys y zs w₁ - ⟨new, hs, hne⟩
  obtain ⟨r, hr⟩ := run_rmgRelaxtimerTrigger w₁ y.name
  obtain ⟨new', hs', h₁, h₂⟩ := hs.triggered y.name
  refine ⟨w₁.triggered y.name, ?_, new', hs', ?_⟩
  · show w₁.run (monitorAddRelaxTimer y.name) = _
    unfold monitorAddRelaxTimer
    rw [run_bind hr]
    rfl
  · intro r hr' hn hp hp'
    rcases List.mem_append.1 hr' with hr' | hr'
    · exact h₁ (hne r hr' hn hp hp')
    · exact h₂ (by rw [← List.mem_singleton.1 hr']; exact hn) hp hp'

private theorem exists_started (w : Instance) (s : String) :
    ∃ w' new, w.run monitorStartRelaxTimers = (some ⟨⟩, w') ∧ Started s (w.recovery s) w' new ∧
      (0 < (w.recovery s).view.rvector → 0 < (w.recovery s).view.timeout → new ≠ []) := by
  obtain ⟨w', h', new, hs, hne⟩ := run_forM_addRelaxTimer (w.journal.services.filter (0 < ·.rvector)) w s
  refine ⟨w', new, ?_, hs, fun hp hp' => ?_⟩
  · have hrun : w.run (rmgJournalCallForeachRelaxing monitorAddRelaxTimer) = (some false, w') := by
      show w.run (sqliteExec .selectRelaxing >>= _) = _
      rw [run_bind (run_sqliteExec (q := .selectRelaxing) rfl)]
      exact run_bind (f := fun _ => pure false) h'
    show w.run (rmgJournalCallForeachRelaxing _ >>= _) = _
    rw [run_bind hrun]
    rfl
  · obtain ⟨r, hr, hn⟩ := exists_relaxing_row hp
    exact hne r hr hn hp hp'

/-! ### Refinement -/

theorem move_of_boot {c : Recovery.Setting} {gdir : Option (List UnitFile)}
    (hf : c.fixed → KeepsUnit glib w.hostName s (w.journal.view s).hash gdir)
    (ha : c.alive → (w.restarted.after (boot glib gdir)).running = true) :
    Recovery.Move s c (w.recovery s) ((w.restarted.after (boot glib gdir)).recovery s) := by
  have h0 : w.restarted.recovery s = ⟨w.journal.view s, [], w.history s⟩ := rfl
  obtain ⟨qs, hfix, hqs, hrec⟩ : ∃ qs, (c.fixed → qs = []) ∧
      Reloaded s (w.restarted.recovery s) (w.restarted.run (rmgJournalReloadUnits glib gdir)).2 qs := by
    by_cases hfixed : c.fixed
    · refine ⟨[], fun _ => rfl, by simp, ?_⟩
      rw [recovery_reload_of_keeps h0 (hf hfixed), h0]
      simp [replay]
    · obtain ⟨qs, h⟩ := exists_reloaded glib gdir w.restarted s
      exact ⟨qs, fun h => absurd h hfixed, h⟩
  rw [h0] at hrec
  have hboot : boot glib gdir = rmgJournalReloadUnits glib gdir >>= fun _ => monitorStartRelaxTimers := rfl
  rcases hrun : w.restarted.run (rmgJournalReloadUnits glib gdir) with ⟨st | st, w₁⟩ <;> rw [hrun] at hrec
  · -- a file without the data paths ends the process
    have he : w.restarted.after (boot glib gdir) = { w₁ with running := false } := by
      rw [after, hboot, run_bind_none hrun]
      rfl
    have hrec' : ({ w₁ with running := false } : Instance).recovery s = _ := hrec
    rw [he] at ha ⊢
    rw [hrec']
    have hm : Recovery.Move s c (w.recovery s) ⟨replay s qs (w.recovery s).view, [],
        (w.recovery s).history ++ qs.map .statement ++ [].map .timeoutAdded⟩ :=
      .boot rfl hqs hfix (by simp) fun h => by
        have := ha h
        simp at this
    show Recovery.Move s c _ ⟨replay s qs (w.recovery s).view, [], (w.recovery s).history ++ qs.map .statement⟩
    simpa using hm
  · obtain ⟨w₂, new, h₂, hs, hne⟩ := exists_started w₁ s
    rw [hboot, after_bind hrun, after_of_run h₂, hs.recovery]
    dsimp only at hrec
    have hd := hs.data
    rw [hrec] at hne hd ⊢
    exact .boot rfl hqs hfix hd fun _ => hne

/-- The step takes a crash of the service from the dispatcher queue. -/
def Crashes (w : Instance) (s : String) (l : Label) : Prop :=
  l = .dispatch ∧ ∃ event ∈ w.dispatcherQueue.head?, (w.heap event).type = .serviceCrashed ∧
    (w.heap event).serviceName = some s

/-- The setting of a step. -/
def setting (glib : GLib) (s : String) (w : Instance) (l : Label) (w' : Instance) : Recovery.Setting where
  fixed := l.Keeps glib w.hostName s (w.recovery s).view.hash
  running := w.running = true
  alive := w'.running = true
  crashes := w.Crashes s l

/-- A step is a move of each service, or leaves the service as it is. -/
theorem move_of_step (h : Step glib w l w') (s : String) :
    (w.running ∧ w'.recovery s = w.recovery s) ∨
      Recovery.Move s (setting glib s w l w') (w.recovery s) (w'.recovery s) := by
  obtain ⟨⟨w₀, p⟩, he, rfl⟩ := Option.map_eq_some_iff.1 h
  have hrun := running_of_enabled he
  cases callback_of_enabled he with
  | crash service => exact .inl ⟨hrun (by simp), recovery_of_quiet (calls_pushMonitored _ _) w⟩
  | restarted service => exact .inl ⟨hrun (by simp), recovery_of_quiet (calls_pushMonitored _ _) w⟩
  | newCrash process context => exact .inl ⟨hrun (by simp), recovery_of_quiet (calls_pushNewCrash _ _) w⟩
  | fromReplica sockfd msg => exact .inl ⟨hrun (by simp), recovery_of_quiet (calls_clientProcessMessage _ _) w⟩
  | fromPrimary msg => exact .inl ⟨hrun (by simp), recovery_of_quiet (calls_managerProcessMessage _) w⟩
  | @dispatch event queue hq =>
    rcases move_of_dispatch (w := { w with dispatcherQueue := queue }) (s := s)
      (c := setting glib s w .dispatch _) event
      (fun ht hs => ⟨rfl, event, by rw [hq]; rfl, ht, hs⟩) with h | h
    · exact .inl ⟨hrun (by simp), h⟩
    · exact .inr h
  | @execute type event queue hq =>
    exact .inl ⟨hrun (by simp), recovery_of_quiet ((calls_executorSourceCallback _ _).mono fun _ h => h.quiet) _⟩
  | @expire source hsrc hd =>
    rcases move_of_expire (w := w) (s := s) (c := setting glib s w (.expire source.id) _)
        (hrun (by simp)) hsrc with h | h
    · exact .inl ⟨hrun (by simp), h⟩
    · exact .inr h
  | tick => exact .inl ⟨hrun (by simp), rfl⟩
  | restart gdir => exact .inr (move_of_boot id id)

theorem hostName_of_step (h : Step glib w l w') : w'.hostName = w.hostName :=
  congrArg Identity.hostName h.faulty.identity

end Instance

end RecoveryManager
