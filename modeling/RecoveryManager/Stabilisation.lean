import RecoveryManager.Consistency
import RecoveryManager.Quiescence
import RecoveryManager.Waiting

/-!
# Every service recovers after a restart

A positive rvector is waiting to relax when a relax timer has recorded it (`Recovery.Relaxing`).  Wherever a restart
comes from, after it each service with a unit and a relax time is recovered or waits, and only a crash of the service
changes that.  Together with the loop coming to rest: after a restart all such services recover, from any state that any
run can reach, whatever has failed before and whatever the tables contain.  From the restart on nothing fails, and no
name that the instance hears of has a quote.
-/

namespace RecoveryManager

open Fallible Fallible.Prog

namespace Recovery

variable {s : String} {c : Setting} {R R' : Recovery}

/-- Without a unit or a relax time there is nothing to wait for. -/
def Relaxing (R : Recovery) : Prop :=
  R.view.hash = 0 ∨ R.view.timeout ≤ 0 ∨ R.view.rvector ≤ 0 ∨
    ∃ source ∈ R.timers, source.recorded = some R.view.rvector

/-- A boot starts a timer for what waits. -/
private theorem relaxing_of_boot (hm : Move s c R R') (hr : ¬ c.running) (hc : ¬ c.crashes) (ha : c.alive) :
    R'.Relaxing := by
  cases hm with
  | uncovered cause h => exact .inl h
  | crash id now h => exact absurd h hc
  | expire h => exact absurd h hr
  | @boot v qs new hv hqs hq hnew hne =>
    by_cases ht : v.timeout ≤ 0
    · exact .inr (.inl ht)
    by_cases hp : v.rvector ≤ 0
    · exact .inr (.inr (.inl hp))
    obtain ⟨source, hs⟩ := List.exists_mem_of_ne_nil _ (hne ha (by omega) (by omega))
    exact .inr (.inr (.inr ⟨source, hs, by rw [GSource.recorded, (hnew source hs).1]⟩))

/-- Only a crash of the service can end the wait before the timer does. -/
private theorem Relaxing.move (h : R.Relaxing) (hm : Move s c R R') (hc : ¬ c.crashes) (ha : c.alive) :
    R'.Relaxing := by
  cases hm with
  | uncovered cause h0 => exact .inl h0
  | crash id now hcr => exact absurd hcr hc
  | @expire source t hrun hs hd =>
    unfold Relaxing
    rw [expire_hash, expire_timeout, expire_rvector]
    refine h.imp_right fun h => h.imp_right fun h => ?_
    by_cases hv : R.view.rvector = t.rvector
    · rw [if_pos hv]
      exact .inl (Int.le_refl 0)
    · rw [if_neg hv]
      refine h.imp_right fun ⟨source', hs', ht'⟩ => ⟨source', ?_, ht'⟩
      -- the timer that has the rvector is another one
      have hne : source' ≠ source := by
        rintro rfl
        rw [GSource.recorded, hd] at ht'
        exact hv (Option.some.inj ht').symm
      unfold expire
      dsimp only
      rw [if_neg hv]
      exact List.mem_filter.2 ⟨hs', by simpa using hne⟩
  | @boot v qs new hv hqs hq hnew hne =>
    have hm : Move s ⟨False, False, True, False⟩ R ⟨v, new, R.history ++ qs.map .statement ++ new.map .timeoutAdded⟩ :=
      .boot hv hqs (fun h => h.elim) hnew fun _ => hne ha
    exact relaxing_of_boot hm id id trivial

end Recovery

namespace Instance

variable {glib : GLib} {w w' : Instance} {s : String}

/-- In the step nothing fails, and it takes no crash of the service from the dispatcher queue. -/
structure Spares (glib : GLib) (s : String) (w : Instance) (l : Label) (w' : Instance) : Prop where
  step : Step glib w l w'
  quoteFree : l.QuoteFree glib w.hostName
  spares : ¬ w.Crashes s l

/-- The process comes up again, and nothing fails. -/
structure ComesUp (glib : GLib) (w : Instance) (gdir : Option (List UnitFile)) (w' : Instance) : Prop where
  step : Step glib w (.restart gdir) w'
  quoteFree : (Label.restart gdir).QuoteFree glib w.hostName
  running : w'.running

private theorem relaxing_of_restart {gdir : Option (List UnitFile)} (h : Step glib w (.restart gdir) w')
    (hr : w'.running) (s : String) : (w'.recovery s).Relaxing := by
  obtain ⟨⟨w₀, p⟩, he, rfl⟩ := Option.map_eq_some_iff.1 h
  obtain ⟨rfl, rfl⟩ := Prod.mk.inj (Option.some.inj he)
  exact Recovery.relaxing_of_boot (c := ⟨False, False, True, False⟩)
    (move_of_boot (fun h => h.elim) fun _ => hr) id id trivial

private theorem relaxing_of_spares {l : Label} (h : Spares glib s w l w') (hw : w.running → (w.recovery s).Relaxing)
    (hr : w'.running) : (w'.recovery s).Relaxing := by
  obtain ⟨hs, -, hc⟩ := h
  by_cases hl : ∃ gdir, l = .restart gdir
  · obtain ⟨gdir, rfl⟩ := hl
    exact relaxing_of_restart hs hr s
  · have hrun := hs.faulty.running fun gdir hg => hl ⟨gdir, hg⟩
    rcases move_of_step hs s with ⟨-, he⟩ | hm
    · rw [he]
      exact hw hrun
    · exact (hw hrun).move hm hc hr

/-- A service with a unit and a relax time has its rvector back at zero. -/
def Recovered (w : Instance) (s : String) : Prop :=
  (w.journal.view s).hash ≠ 0 → 0 < w.journal.timeoutOf s → w.journal.rvectorOf s = 0

private theorem recovered_of_relaxing (h : (w.recovery s).Relaxing) (hs : w.sources = [])
    (hn : 0 ≤ w.journal.rvectorOf s) : w.Recovered s := by
  intro hhash htimeout
  have htimeout : ¬ (w.recovery s).view.timeout ≤ 0 := Int.not_le.2 htimeout
  rcases (h.resolve_left hhash).resolve_left htimeout with h | ⟨source, hm, -⟩
  · exact Int.le_antisymm h hn
  · have hm : source ∈ w.sources.filter (·.relaxes s) := hm
    rw [hs] at hm
    cases hm

private theorem recovered_of_runs {gdir : Option (List UnitFile)} {w₀ w₁ w₂ : Instance} {ls₀ ls : List Label}
    (h₀ : w₀.Fresh) (hr₀ : FaultyRuns glib w₀ ls₀ w) (h : Step glib w (.restart gdir) w₁)
    (hr : Transition.Run (Spares glib s) w₁ ls w₂) (hrun : w₂.running) (hs : w₂.sources = []) : w₂.Recovered s := by
  have hrelax := hr.invariant (I := fun w => w.running → (w.recovery s).Relaxing)
    (fun hr => relaxing_of_restart h hr s) fun _ _ _ hw hstep => relaxing_of_spares hstep hw
  have hruns := (hr₀.snoc h.faulty).trans (hr.mono fun _ _ _ h => h.step.faulty)
  exact recovered_of_relaxing (hrelax hrun) hs ((consistent_of_faultyRuns h₀ hruns).view s).rvector_bounds.1

/-! ### Left to itself -/

/-- Nothing is queued. -/
structure Idle (w : Instance) : Prop where
  running : w.running
  dispatcherQueue : w.dispatcherQueue = []
  executorQueue : w.executorQueue = []

private theorem Idle.apply {op : Op} {e : Bool} (h : w.Idle) (hop : op.Aside) : (apply op e w).2.Idle := by
  cases op with
  | sql q =>
    rcases apply_sql w q e with h' | ⟨j, -, h'⟩
    · rw [h']
      exact h
    · rw [h', commit]
      split
      · exact h
      · exact ⟨h.running, h.dispatcherQueue, h.executorQueue⟩
  | newEvent | setContextName | pushDispatcher | pushExecutor => exact hop.elim
  | setClientName | clientSend | managerSend => exact hop.elim
  | _ => exact ⟨h.running, h.dispatcherQueue, h.executorQueue⟩

private theorem idle_of_restart {gdir : Option (List UnitFile)} (h : Step glib w (.restart gdir) w')
    (hr : w'.running) : w'.Idle := by
  obtain ⟨w₀, p, o, w₁, he, hx, rfl⟩ := h.faulty
  cases callback_of_enabled he with
  | restart gdir =>
    have ht : Triple machine Unreliable Idle (boot glib gdir) (fun _ => Idle) Idle :=
      .of_calls (fun _ _ _ hop _ h => h.apply hop) (calls_boot glib gdir)
    have hend := ht _ o w₁ ⟨rfl, rfl, rfl⟩ hx
    cases o with
    | done a => exact hend
    | aborted => cases hr
    | killed => cases hr

/-- The callback of a timeout returns and queues nothing. -/
private theorem idle_after_timer (h : w.Idle) (data : TimerData) : (w.after (timerCallback data)).Idle := by
  cases data with
  | relax t =>
    rw [timerCallback, after_of_run (run_relaxtimerCallback w t)]
    split <;> exact ⟨h.running, h.dispatcherQueue, h.executorQueue⟩
  | friend t =>
    obtain ⟨service, action, argument⟩ := t
    cases action <;> exact ⟨h.running, h.dispatcherQueue, h.executorQueue⟩

private theorem idle_of_itself {l : Label} (h : Step glib w l w') (hl : OfItself l) (hw : w.Idle) :
    w'.Idle ∧ l ≠ .dispatch := by
  obtain ⟨⟨w₀, p⟩, he, rfl⟩ := Option.map_eq_some_iff.1 h
  cases callback_of_enabled he with
  | dispatch hq =>
    rw [hw.dispatcherQueue] at hq
    cases hq
  | execute hq =>
    rw [hw.executorQueue] at hq
    cases hq
  | @expire source hm hd =>
    have hstart : (({ w with sources := w.sources.filter (· ≠ source) } : Instance).emit
        (.timeoutExpired source)).Idle := ⟨hw.running, hw.dispatcherQueue, hw.executorQueue⟩
    exact ⟨idle_after_timer hstart source.data, by simp⟩
  | tick => exact ⟨⟨hw.running, hw.dispatcherQueue, hw.executorQueue⟩, by simp⟩
  | _ => simp [OfItself, Label.isInternal] at hl

private theorem quoteFree_of_itself {l : Label} {hostName : String} (hl : OfItself l) : l.QuoteFree glib hostName := by
  cases l with
  | dispatch | execute | expire | tick => trivial
  | _ => simp [OfItself, Label.isInternal] at hl

private theorem spares_of_itself {ls : List Label} (hr : Runs glib w ls w') (hl : ∀ l ∈ ls, OfItself l) (hw : w.Idle)
    (s : String) : w'.Idle ∧ Transition.Run (Spares glib s) w ls w' := by
  induction hr with
  | nil => exact ⟨hw, .nil⟩
  | @snoc ls t u l _ hstep ih =>
    obtain ⟨ht, hrun⟩ := ih fun l hm => hl l (by simp [hm])
    obtain ⟨hu, hne⟩ := idle_of_itself hstep (hl l (by simp)) ht
    exact ⟨hu, hrun.snoc ⟨hstep, quoteFree_of_itself (hl l (by simp)), fun hc => hne hc.1⟩⟩

/-- After a restart, from any state that a run has reached in which anything may have failed: in every run in which
nothing fails and that handles no crash of a service, whatever else it handles, the service has recovered whenever no
timeout is pending; and the loop, left to itself, gets to a state in which nothing is left to do and every service has
recovered. -/
theorem recovers_after_restart {w₀ w₁ : Instance} {ls : List Label} {gdir : Option (List UnitFile)} (h₀ : w₀.Fresh)
    (hr : PlainRuns glib w₀ ls w) (h : ComesUp glib w gdir w₁) :
    (∀ s ls' w₂, Transition.Run (Spares glib s) w₁ ls' w₂ → w₂.running → w₂.sources = [] → w₂.Recovered s) ∧
      ∃ ls' w₂, Runs glib w₁ ls' w₂ ∧ (∀ l ∈ ls', OfItself l) ∧ w₂.Idle ∧ w₂.sources = [] ∧
        ∀ s, w₂.Recovered s := by
  refine ⟨fun s ls' w₂ hr' => recovered_of_runs h₀ hr.runs h.step hr', ?_⟩
  obtain ⟨ls', w₂, hr', hl, hrest⟩ := exists_rest h₀ w₁.work (hr.runs.snoc h.step.faulty) (Nat.le_refl _)
  have hidle := (spares_of_itself hr' hl (idle_of_restart h.step h.running) "").1
  obtain ⟨-, -, hs⟩ := hrest hidle.running
  exact ⟨ls', w₂, hr', hl, hidle, hs, fun s => recovered_of_runs h₀ hr.runs h.step
    (spares_of_itself hr' hl (idle_of_restart h.step h.running) s).2 hidle.running hs⟩

/-- A crash, and a restart before the timer expires. -/
def crashBeforeRestart : Option Instance :=
  (initial .primary "host").replayed (.reading [restartThenReset])
    (.restart (directory [restartThenReset]) :: crashLabels "a.service" 1)

private theorem crashBeforeRestart_isSome : crashBeforeRestart.isSome := by decide +kernel

/-- The restart. -/
def crashThenRestart : Option Instance :=
  (crashBeforeRestart.get crashBeforeRestart_isSome).step (.reading [restartThenReset])
    (.restart (directory [restartThenReset]))

private theorem crashThenRestart_isSome : crashThenRestart.isSome := by decide +kernel

/-- The timer that the restart has started expires. -/
def relaxedAgain : Option Instance :=
  (crashThenRestart.get crashThenRestart_isSome).replayed (.reading [restartThenReset]) (expireLabels 5 1)

private theorem relaxedAgain_isSome : relaxedAgain.isSome := by decide +kernel

theorem recovers_after_restart_of_one_crash :
    (crashThenRestart.get crashThenRestart_isSome).journal.rvectorOf "a.service" = 1 ∧
      (relaxedAgain.get relaxedAgain_isSome).journal.rvectorOf "a.service" = 0 ∧
        ∃ ls w, Runs (.reading [restartThenReset]) (crashThenRestart.get crashThenRestart_isSome) ls w ∧ w.Idle ∧
          w.sources = [] ∧ w.Recovered "a.service" := by
  have hr : PlainRuns (.reading [restartThenReset]) (initial .primary "host") _
      (crashBeforeRestart.get crashBeforeRestart_isSome) :=
    ⟨quoteFree_initial .primary (by decide), by decide +kernel,
      (runs_of_replayed (Option.some_get crashBeforeRestart_isSome).symm).mono fun _ _ _ => Step.faulty⟩
  obtain ⟨hall, ls, w, hruns, -, hidle, hs, hrecovered⟩ := recovers_after_restart (fresh_initial _ _) hr
    ⟨(Option.some_get crashThenRestart_isSome).symm, by decide +kernel, by decide +kernel⟩
  have hspares : ∀ l ∈ expireLabels 5 1, ∀ w : Instance,
      l.QuoteFree (.reading [restartThenReset]) w.hostName ∧ ¬ w.Crashes "a.service" l := by
    intro l hl w
    rcases List.mem_append.1 hl with hl | hl
    · obtain rfl := List.eq_of_mem_replicate hl
      exact ⟨trivial, fun hc => absurd hc.1 (by simp)⟩
    · obtain rfl := List.mem_singleton.1 hl
      exact ⟨trivial, fun hc => absurd hc.1 (by simp)⟩
  refine ⟨by decide +kernel, ?_, ls, w, hruns, hidle, hs, hrecovered "a.service"⟩
  refine hall "a.service" _ _ (((runs_of_replayed (Option.some_get relaxedAgain_isSome).symm).restrict hspares).mono
    fun _ _ _ h => ⟨h.1, h.2.1, h.2.2⟩) ?_ ?_ ?_ ?_ <;> decide +kernel

end Instance

end RecoveryManager
