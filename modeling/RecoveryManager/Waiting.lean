import RecoveryManager.Relaxation

/-!
# Waiting to relax

A positive rvector is not stuck when a relax timer with this rvector is pending, or when the last action selected
restarts more than the service (`Recovery.NotStuck`).  Crashes, expirations and boots keep it so as long as each crash
finds an action to answer it, and a positive relax time when the answer relaxes (`Recovery.Answerable`,
`not_stuck_of_answerable`).  A level without an action, and a unit without a relax time, leave the rvector behind.
-/

namespace RecoveryManager

/-- The rvector that a relax timer recorded. -/
def GSource.recorded (source : GSource) : Option Int :=
  match source.data with
  | .relax t => some t.rvector
  | .friend _ => none

namespace Recovery

variable {s : String} {c : Setting} {R R' : Recovery}

/-- The last action selected is one that no relax timer follows. -/
def Restarting (R : Recovery) : Prop :=
  R.required.getLast?.any fun (type, _) => type ∈ [RmgActionType.contextReset, .platformRestart, .factoryReset]

def NotStuck (R : Recovery) : Prop :=
  R.view.rvector ≤ 0 ∨ (∃ source ∈ R.timers, source.recorded = some R.view.rvector) ∨ R.Restarting

/-- The next crash selects an action, with a positive relax time if the action relaxes; or it selects none, and a
restart was the last one before. -/
def Answerable (R : Recovery) : Prop :=
  (R.selected.actionType = .invalid → R.Restarting) ∧ R.selected.actionType ≠ .guruMeditation ∧
    (R.selected.relaxes → 0 < R.view.timeout)

/-- What holds of a service even while the process is down. -/
private structure Settled (s : String) (R : Recovery) : Prop where
  tracked : R.Tracked s
  timeout : R.timers ≠ [] → 0 < R.view.timeout
  relaxing : 0 < R.view.rvector → 0 < R.view.timeout ∨ R.Restarting

theorem Restarting.of_required (h : R.Restarting) (hr : R'.required = R.required) : R'.Restarting := by
  unfold Restarting at h ⊢
  rw [hr]
  exact h

/-! ### A crash -/

private theorem restarting_crash (e : RmgDEvent) (id now : Nat) (ha : R.Answerable) (hres : R.selected.resets = false)
    (hrel : R.selected.relaxes = false) : (R.crash s e id now).Restarting := by
  have hreq := required_crash R s e id now
  obtain ⟨hinv, hguru, -⟩ := ha
  unfold ActionSettings.resets at hres
  unfold ActionSettings.relaxes at hrel
  cases ht : R.selected.actionType <;> rw [ht] at hinv hguru hres hrel hreq
  case invalid => exact (hinv rfl).of_required (by simpa using hreq)
  case guruMeditation => exact absurd rfl hguru
  case contextReset | platformRestart | factoryReset =>
    unfold Restarting
    rw [hreq]
    simp
  all_goals simp_all

private theorem newTimer_mem (hh : R.view.hash ≠ 0) (h0 : 0 ≤ R.view.rvector) (ha : R.Answerable) (e : RmgDEvent)
    (id now : Nat) (hrel : R.selected.relaxes) : R.newTimer s id now ∈ (R.crash s e id now).timers := by
  have hst : R.startsTimer = true := by
    unfold startsTimer
    rw [hrel, Bool.true_and, decide_eq_true_eq, counted_rvector hh]
    exact ⟨by omega, ha.2.2 hrel⟩
  rw [crash_timers, if_pos hst]
  simp

private theorem Settled.crash (h : Settled s R) (hh : R.view.hash ≠ 0) (ha : R.Answerable) {e : RmgDEvent}
    {id now : Nat}
    (hm : Move s c R (R.crash s e id now)) : Settled s (R.crash s e id now) where
  tracked := h.tracked.move hm
  timeout := fun hne => by
    rw [crash_timeout]
    rw [crash_timers] at hne
    by_cases hst : R.startsTimer
    · unfold startsTimer at hst
      simp only [Bool.and_eq_true, decide_eq_true_eq] at hst
      exact hst.2.2
    · exact h.timeout (by simpa [hst] using hne)
  relaxing := fun hp => by
    rw [crash_timeout]
    rw [crash_rvector s e id now hh] at hp
    have hres : R.selected.resets = false := by
      by_contra hres
      rw [if_pos (by simpa using hres)] at hp
      omega
    by_cases hrel : R.selected.relaxes
    · exact .inl (ha.2.2 hrel)
    · exact .inr (restarting_crash e id now ha hres (by simpa using hrel))

private theorem notStuck_crash (h : Settled s R) (hh : R.view.hash ≠ 0) (ha : R.Answerable) (e : RmgDEvent)
    (id now : Nat) : (R.crash s e id now).NotStuck := by
  have hrv := crash_rvector s e id now hh
  by_cases hres : R.selected.resets
  · exact .inl (by rw [hrv, if_pos hres])
  · rw [if_neg hres] at hrv
    by_cases hrel : R.selected.relaxes
    · refine .inr (.inl ⟨_, newTimer_mem hh h.tracked.nonneg ha e id now hrel, ?_⟩)
      rw [hrv, ← counted_rvector hh]
      rfl
    · exact .inr (.inr (restarting_crash e id now ha (by simpa using hres) (by simpa using hrel)))

/-! ### The other moves -/

/-- A reload that leaves a positive rvector left the row alone. -/
private theorem replay_of_pos {qs : List Sql} (hqs : ∀ q ∈ qs, q.target = some s ∧ q.Reloading) {v : View}
    (h : 0 < (replay s qs v).rvector) : (replay s qs v).services = v.services := by
  induction qs generalizing v with
  | nil => rfl
  | cons q qs ih =>
    obtain ⟨ht, hr⟩ := hqs q (by simp)
    have hqs' := fun q hq => hqs q (List.mem_cons_of_mem _ hq)
    rw [← List.singleton_append, replay_append, replay_of_target ht] at h ⊢
    have hs := ih hqs' h
    rw [hs]
    have hpos : 0 < (q.onView v).rvector := by
      unfold View.rvector at h ⊢
      rwa [hs] at h
    cases q with
    | insertService row =>
      have hr : row.rvector = 0 := hr
      simp [View.rvector, Sql.onView, List.foldl_append, hr] at hpos
    | deleteServices name => simp [View.rvector, Sql.onView] at hpos
    | updateRvector name x => exact hr.elim
    | _ => rfl

private theorem Settled.move (h : Settled s R) (hm : Move s c R R')
    (ha : c.crashes → R.view.hash ≠ 0 → R.Answerable) : Settled s R' := by
  cases hm with
  | uncovered cause h0 =>
    refine ⟨h.tracked.move (.uncovered (c := c) cause h0), h.timeout, fun hp => ?_⟩
    have : R.view.rvector = 0 := h.tracked.hash h0
    have : 0 < R.view.rvector := hp
    omega
  | crash id now hc he hs hh => exact h.crash hh (ha hc hh) (.crash (c := c) id now hc he hs hh)
  | @expire source t hr hs hd =>
    refine ⟨h.tracked.move (.expire (c := c) hr hs hd), fun _ => ?_, fun hp => ?_⟩
    · rw [expire_timeout]
      exact h.timeout (List.ne_nil_of_mem hs)
    · rw [expire_rvector] at hp
      rw [expire_timeout]
      split at hp
      · omega
      · exact (h.relaxing hp).imp_right fun hr => hr.of_required (required_expire R s source _)
  | @boot v qs new hv hqs hq hnew hne =>
    refine ⟨h.tracked.move (.boot (c := c) hv hqs hq hnew hne), fun hne => ?_, fun hp => ?_⟩
    · obtain ⟨source, hs⟩ := List.exists_mem_of_ne_nil _ hne
      exact (hnew source hs).2.2
    · have hp : 0 < v.rvector := hp
      subst hv
      have hs := replay_of_pos hqs hp
      have hrv : (replay s qs R.view).rvector = R.view.rvector := by unfold View.rvector; rw [hs]
      have hto : (replay s qs R.view).timeout = R.view.timeout := by unfold View.timeout; rw [hs]
      show 0 < (replay s qs R.view).timeout ∨ _
      rw [hto]
      refine (h.relaxing (hrv ▸ hp)).imp_right fun hr => hr.of_required ?_
      simp [required, Output.required]

private theorem Settled.notStuck_move (h : Settled s R) (hm : Move s c R R')
    (ha : c.crashes → R.view.hash ≠ 0 → R.Answerable)
    (hr : c.running → R.NotStuck) (hc : c.alive) : R'.NotStuck := by
  have h' := h.move hm ha
  cases hm with
  | uncovered cause h0 => exact .inl (le_of_eq (h.tracked.hash h0))
  | crash id now hcr _ _ hh => exact notStuck_crash h hh (ha hcr hh) _ id now
  | @expire source t hrun hs hd =>
    rcases hr hrun with h0 | ⟨source', hs', ht'⟩ | hres
    · refine .inl ?_
      rw [expire_rvector]
      split <;> omega
    · by_cases hv : R.view.rvector = t.rvector
      · exact .inl (by rw [expire_rvector, if_pos hv])
      · -- the timer that has the rvector is another one
        have hne : source' ≠ source := by
          rintro rfl
          rw [GSource.recorded, hd] at ht'
          exact hv (Option.some.inj ht').symm
        refine .inr (.inl ⟨source', ?_, by rw [expire_rvector, if_neg hv, ht']⟩)
        unfold Recovery.expire
        dsimp only
        rw [if_neg hv]
        exact List.mem_filter.2 ⟨hs', by simpa using hne⟩
    · exact .inr (.inr (hres.of_required (required_expire R s source _)))
  | @boot v qs new hv hqs hq hnew hne =>
    by_cases hp : 0 < v.rvector
    · rcases h'.relaxing hp with hto | hres
      · obtain ⟨source, hs⟩ := List.exists_mem_of_ne_nil _ (hne hc hp hto)
        exact .inr (.inl ⟨source, hs, by rw [GSource.recorded, (hnew source hs).1]⟩)
      · exact .inr (.inr hres)
    · exact .inl (by show v.rvector ≤ 0; omega)

end Recovery

namespace Instance

variable {glib : GLib} {w₀ w : Instance} {ls : List Label}

/-- A crash of a service with a recovery unit finds an action to answer it. -/
def Answered (w : Instance) (s : String) (l : Label) : Prop :=
  w.Crashes s l → (w.recovery s).view.hash ≠ 0 → (w.recovery s).Answerable

/-- No rvector gets stuck in a run in which every crash of the service is answered. -/
theorem not_stuck_of_answered {s : String} (h0 : Fresh w₀)
    (hr : Transition.Run (fun w l w' => Step glib w l w' ∧ w.Answered s l) w₀ ls w) (hw : w.running) :
    (w.recovery s).NotStuck := by
  suffices h : (w.recovery s).Settled s ∧ (w.running → (w.recovery s).NotStuck) from h.2 hw
  refine hr.invariant (I := fun w => (w.recovery s).Settled s ∧ (w.running → (w.recovery s).NotStuck)) ?_ ?_
  · have hv : (w₀.recovery s).view = ⟨[], [], []⟩ := by simp [recovery, h0.journal]; rfl
    have ht : (w₀.recovery s).timers = [] := by simp [recovery, h0.sources]
    have h0' : (w₀.recovery s).view.rvector = 0 := by rw [hv]; rfl
    refine ⟨⟨tracked_of_runs h0 (.nil : Runs glib w₀ [] w₀) s, fun hne => absurd ht hne, fun hp => ?_⟩, fun _ =>
      .inl (le_of_eq h0')⟩
    omega
  · rintro w l w' ⟨hset, hns⟩ ⟨hstep, ha⟩
    rcases move_of_step hstep s with ⟨hrun, he⟩ | hm
    · rw [he]
      exact ⟨hset, fun _ => hns hrun⟩
    · exact ⟨hset.move hm ha, hset.notStuck_move hm ha hns⟩

instance (w : Instance) (s : String) (l : Label) : Decidable (w.Answered s l) :=
  inferInstanceAs (Decidable ((_ ∧ ∃ _ ∈ _, _) → _ → (_ → _ = true) ∧ _ ≠ _ ∧ (_ → _)))

/-- The labels in turn, as long as crashes are answered. -/
def replayedAnswered (glib : GLib) (s : String) (w : Instance) (ls : List Label) : Option Instance :=
  ls.foldlM (fun w l => if w.Answered s l then w.step glib l else none) w

theorem runs_of_replayedAnswered {s : String} (h : replayedAnswered glib s w₀ ls = some w) :
    Transition.Run (fun w l w' => Step glib w l w' ∧ w.Answered s l) w₀ ls w := by
  refine (Transition.Run.of_foldlM h).mono fun w l w' hs => ?_
  split at hs
  · exact ⟨hs, ‹_›⟩
  · cases hs

private theorem answered_restartThenReset : (replayedAnswered (.reading [restartThenReset]) "a.service"
    (initial .primary "host") (.restart (directory [restartThenReset]) :: crashLabels "a.service" 3)).isSome := by
  decide +kernel

theorem not_stuck_after_three :
    (((replayedAnswered _ _ _ _).get answered_restartThenReset).recovery "a.service").NotStuck :=
  not_stuck_of_answered (fresh_initial _ _) (runs_of_replayedAnswered (Option.some_get answered_restartThenReset).symm)
    (by decide +kernel)

/-- A unit without a relax time. -/
def restartWithoutRelaxtime : List Tag := Tag.unit "a.service" [] [("resetService", "3", "false")]

private theorem crash_restartWithoutRelaxtime : ((initial .primary "host").replayed (.reading [restartWithoutRelaxtime])
    (.restart (directory [restartWithoutRelaxtime]) :: crashLabels "a.service" 1)).isSome := by
  decide +kernel

/-- The first crash of a service whose unit has no relax time leaves rvector one, and no timer. -/
theorem stuck_without_relaxtime : ¬ ∀ (glib : GLib) (w₀ w : Instance) (ls : List Label) (s : String), Fresh w₀ →
    Runs glib w₀ ls w → w.running → (w.recovery s).NotStuck := by
  intro h
  have hns := h _ _ _ _ "a.service" (fresh_initial _ _)
    (runs_of_replayed (Option.some_get crash_restartWithoutRelaxtime).symm) (by decide +kernel)
  revert hns
  unfold Recovery.NotStuck Recovery.Restarting
  decide +kernel

end Instance

end RecoveryManager
