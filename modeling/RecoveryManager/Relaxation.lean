import RecoveryManager.Boot
import RecoveryManager.UnitSource

/-!
# Relax timers

A relax timer compares rvectors when it expires.  What the stored rvector says is how many crashes were counted since
it was last set to zero (`Tracked`), and not what happened since the timer was started: when something else sets the
rvector to zero in between, it may climb to the same value again.  So the callback resets a service that crashed during
the wait exactly in this case (`relaxed_only_if_quiet_iff`).
-/

namespace RecoveryManager

open Fallible

/-! ### Reading the history -/

/-- The statements that leave a service with rvector zero or without a row. -/
def Output.zeroes : Output → Bool
  | .statement (.updateRvector _ x) => x = 0
  | .statement (.deleteServices _) | .statement (.insertService _) => true
  | _ => false

def Output.counts : Output → Bool
  | .statement (.updateRvector ..) => true
  | _ => false

def Output.count (n : Nat) (o : Output) : Nat := if o.zeroes then 0 else if o.counts then n + 1 else n

/-- The crashes counted since the rvector was last set to zero. -/
def countedSinceZero (history : List Output) : Nat := history.foldl Output.count 0

/-- What happened since the start of a timer: the crashes handled, and whether the rvector was set to zero. -/
structure Since where
  crashes : Nat
  zeroed : Bool
  deriving DecidableEq, Repr

def Since.next (source : GSource) (x : Since) (o : Output) : Since :=
  if o = .timeoutAdded source then ⟨0, false⟩
  else ⟨if o.crashed then x.crashes + 1 else x.crashes, x.zeroed || o.zeroes⟩

def sinceStart (source : GSource) (history : List Output) : Since := history.foldl (Since.next source) ⟨0, false⟩

namespace Recovery

variable {s : String} {c : Setting} {R R' : Recovery}

private theorem relaxes_of_startsTimer (h : R.startsTimer) : R.selected.relaxes := by
  unfold startsTimer at h
  exact (Bool.and_eq_true _ _ ▸ h).1

theorem counted_crash (e : RmgDEvent) (id now : Nat) (h : 0 ≤ R.view.rvector) :
    countedSinceZero (R.crash s e id now).history =
      if R.selected.resets then 0 else countedSinceZero R.history + 1 := by
  have hne : R.view.rvector + 1 ≠ 0 := by omega
  unfold countedSinceZero
  rw [crash_history, List.foldl_append]
  generalize R.history.foldl Output.count 0 = n
  unfold crashOutputs armOutputs
  generalize R.selected = a
  obtain ⟨type, reset, retry⟩ := a
  cases type <;> cases reset <;> cases R.startsTimer <;>
    simp [ActionSettings.resets, RmgActionType.kind, Output.count, Output.zeroes, Output.counts, hne]

theorem sinceStart_crash (e : RmgDEvent) (id now : Nat) (h : 0 ≤ R.view.rvector) (source : GSource) :
    sinceStart source (R.crash s e id now).history =
      if R.startsTimer ∧ R.newTimer s id now = source then ⟨0, false⟩
      else ⟨(sinceStart source R.history).crashes + 1, (sinceStart source R.history).zeroed || R.selected.resets⟩ := by
  have hne : R.view.rvector + 1 ≠ 0 := by omega
  have hst := relaxes_of_startsTimer (R := R)
  unfold sinceStart
  rw [crash_history, List.foldl_append]
  generalize R.history.foldl (Since.next source) ⟨0, false⟩ = x
  unfold crashOutputs armOutputs
  generalize R.newTimer s id now = timer at *
  revert hst
  generalize R.selected = a
  obtain ⟨type, reset, retry⟩ := a
  cases type <;> cases reset <;> cases R.startsTimer <;>
    simp [ActionSettings.resets, ActionSettings.relaxes, RmgActionType.kind, Since.next, Output.zeroes,
      Output.crashed, hne]

theorem counted_expire (source : GSource) (v : Int) : countedSinceZero (R.expire s source v).history =
    if R.view.rvector = v then 0 else countedSinceZero R.history := by
  unfold countedSinceZero
  rw [expire_history, List.foldl_append]
  split <;> simp [Output.count, Output.zeroes, Output.counts]

theorem sinceStart_expire (source source' : GSource) (v : Int) : sinceStart source' (R.expire s source v).history =
    ⟨(sinceStart source' R.history).crashes, (sinceStart source' R.history).zeroed || R.view.rvector = v⟩ := by
  unfold sinceStart
  rw [expire_history, List.foldl_append]
  split <;> simp_all [Since.next, Output.zeroes, Output.crashed]

/-! ### The rvector and the pending timers -/

/-- A timer that recorded `rvector`, what happened since its start, and the crashes counted. -/
structure Pending (rvector : Int) (x : Since) (n : Nat) : Prop where
  pos : 0 < rvector
  quiet : x.zeroed = false → (n : Int) = rvector + x.crashes
  zeroed : x.zeroed = true → 0 < n → 0 < x.crashes

/-- At each expiration so far: the rvector was set to zero exactly if the count was the recorded one. -/
def Expirations (s : String) (history : List Output) : Prop :=
  ∀ pre post source t, history = pre ++ .timeoutExpired source :: post → source.data = .relax t →
    Pending t.rvector (sinceStart source pre) (countedSinceZero pre) ∧
      (post.head? = some (.statement (.updateRvector s 0)) ↔ (countedSinceZero pre : Int) = t.rvector)

structure Tracked (s : String) (R : Recovery) : Prop where
  rvector : R.view.rvector = countedSinceZero R.history
  hash : R.view.hash = 0 → R.view.rvector = 0
  timers : ∀ source ∈ R.timers, ∀ t, source.data = .relax t →
    Pending t.rvector (sinceStart source R.history) (countedSinceZero R.history)
  expired : Expirations s R.history

/-- Where an entry of a history stands, seen from a later entry. -/
private theorem append_cons_cases {α : Type} {h l pre post : List α} {x y : α} (he : h ++ x :: l = pre ++ y :: post) :
    (pre = h ∧ x = y ∧ l = post) ∨ (∃ l', h = pre ++ y :: l' ∧ post = l' ++ x :: l) ∨ y ∈ l := by
  rcases List.append_eq_append_iff.1 he with ⟨l', hl, hr⟩ | ⟨l', hl, hr⟩ <;> cases l' with
  | nil =>
    obtain ⟨ho, hp⟩ := List.cons.inj hr
    exact .inl ⟨by simp [hl], by simp [ho], by simp [hp]⟩
  | cons o l' =>
    obtain ⟨rfl, rfl⟩ := List.cons.inj hr
    simp_all

private theorem Expirations.append {h new : List Output} (hx : Expirations s h)
    (hhead : new.head? ≠ some (.statement (.updateRvector s 0))) (hnew : ∀ source, .timeoutExpired source ∉ new) :
    Expirations s (h ++ new) := by
  intro pre post source t he hd
  rcases List.append_eq_append_iff.1 he with ⟨l, -, hl⟩ | ⟨l, hl, hr⟩
  · exact absurd (by rw [hl]; simp) (hnew source)
  · cases l with
    | nil => exact absurd (by rw [← show _ = new from hr]; simp) (hnew source)
    | cons o l =>
      obtain ⟨rfl, rfl⟩ := List.cons.inj hr
      obtain ⟨hp, hi⟩ := hx pre l source t hl hd
      refine ⟨hp, ?_⟩
      cases l with
      | nil =>
        -- the entries of a later move do not begin with a reset
        refine ⟨fun h => absurd h hhead, fun h => absurd (hi.2 h) (by simp)⟩
      | cons o l => simpa using hi

private theorem Pending.crashed {rvector : Int} {x : Since} {n : Nat} (h : Pending rvector x n) (b : Bool) :
    Pending rvector ⟨x.crashes + 1, x.zeroed || b⟩ (if b then 0 else n + 1) := by
  refine ⟨h.pos, fun hb => ?_, fun _ _ => Nat.succ_pos _⟩
  obtain ⟨hz, rfl⟩ : x.zeroed = false ∧ b = false := by simpa using hb
  have := h.quiet hz
  simp only [Bool.false_eq_true, if_false]
  omega

private theorem Pending.relaxed {rvector : Int} {x : Since} {n : Nat} (h : Pending rvector x n) (b : Bool) :
    Pending rvector ⟨x.crashes, x.zeroed || b⟩ (if b then 0 else n) := by
  cases b with
  | false => simpa using h
  | true => exact ⟨h.pos, fun hz => by simp at hz, fun _ hn => by simp at hn⟩

private theorem Pending.start {n : Nat} (h : (0 : Int) < n) : Pending n ⟨0, false⟩ n :=
  ⟨h, fun _ => by simp, fun hz => by simp at hz⟩

theorem Tracked.nonneg (h : Tracked s R) : 0 ≤ R.view.rvector := by
  rw [h.rvector]
  omega

private theorem Tracked.uncovered (h : Tracked s R) (h0 : R.view.hash = 0) (cause : Cause) :
    Tracked s ((R.emit (.crashDetected (some s) cause)).emit (.noRecoveryUnit (some s) cause)) := by
  have hcount : countedSinceZero ((R.emit (.crashDetected (some s) cause)).emit
      (.noRecoveryUnit (some s) cause)).history = countedSinceZero R.history := by
    simp [countedSinceZero, emit, Output.count, Output.zeroes, Output.counts]
  have hsince : ∀ source, sinceStart source ((R.emit (.crashDetected (some s) cause)).emit
      (.noRecoveryUnit (some s) cause)).history =
        ⟨(sinceStart source R.history).crashes + 1, (sinceStart source R.history).zeroed⟩ := by
    simp [sinceStart, emit, Since.next, Output.crashed, Output.zeroes]
  refine ⟨by rw [hcount]; exact h.rvector, h.hash, fun source hs t hd => ?_, ?_⟩
  · have hp := h.timers source hs t hd
    have hn := h.rvector
    rw [h.hash h0] at hn
    have hpos := hp.pos
    rw [hcount, hsince]
    refine ⟨hpos, fun hz => ?_, fun _ _ => Nat.succ_pos _⟩
    have := hp.quiet hz
    omega
  · have hx : Expirations s (R.history ++ [.crashDetected (some s) cause, .noRecoveryUnit (some s) cause]) :=
      h.expired.append (by simp) (by simp)
    simpa [emit] using hx

private theorem Tracked.crash (h : Tracked s R) (hh : R.view.hash ≠ 0) (e : RmgDEvent) (id now : Nat) :
    Tracked s (R.crash s e id now) := by
  have h0 := h.nonneg
  refine ⟨?_, fun hz => absurd hz (by rw [crash_hash]; exact hh), fun source hs t hd => ?_, ?_⟩
  · rw [crash_rvector s e id now hh, counted_crash e id now h0, h.rvector]
    split <;> simp
  · rw [counted_crash e id now h0, sinceStart_crash e id now h0]
    rw [crash_timers] at hs
    by_cases hnew : R.startsTimer ∧ R.newTimer s id now = source
    · -- the timer of this crash recorded the new count
      have hres : R.selected.resets = false := by
        have := relaxes_of_startsTimer hnew.1
        unfold ActionSettings.relaxes at this
        unfold ActionSettings.resets
        split at this <;> simp_all
      have hcv : R.counted.rvector = ((countedSinceZero R.history + 1 : Nat) : Int) := by
        rw [counted_rvector hh, h.rvector]
        omega
      have ht : t.rvector = R.counted.rvector := by
        rw [← hnew.2] at hd
        injection hd with hd
        rw [← hd]
      rw [if_pos hnew, hres, ht, hcv]
      exact .start (by omega)
    · rw [if_neg hnew]
      refine (h.timers source ?_ t hd).crashed _
      rcases List.mem_append.1 hs with hs | hs
      · exact hs
      · split at hs
        · exact absurd ⟨‹_›, (List.mem_singleton.1 hs).symm⟩ hnew
        · exact absurd hs List.not_mem_nil
  · rw [crash_history]
    refine h.expired.append (by simp [crashOutputs]) fun source => ?_
    unfold crashOutputs armOutputs
    cases R.selected.actionType <;> cases R.selected.resets <;> cases R.startsTimer <;> simp [RmgActionType.kind]

private theorem Tracked.expire (h : Tracked s R) {source : GSource} {t : RmgRelaxTimer} (hs : source ∈ R.timers)
    (hd : source.data = .relax t) : Tracked s (R.expire s source t.rvector) := by
  refine ⟨?_, fun hz => ?_, fun source' hs' t' hd' => ?_, ?_⟩
  · rw [expire_rvector, counted_expire, h.rvector]
    split <;> rfl
  · rw [expire_rvector]
    split
    · rfl
    · exact h.hash (by rwa [expire_hash] at hz)
  · rw [counted_expire, sinceStart_expire]
    have hmem : source' ∈ R.timers := by
      unfold Recovery.expire at hs'
      dsimp only at hs'
      split at hs' <;> exact (List.mem_filter.1 hs').1
    simpa using (h.timers source' hmem t' hd').relaxed (decide (R.view.rvector = t.rvector))
  · rw [expire_history]
    intro pre post source' t' he hd'
    rcases append_cons_cases he with ⟨rfl, ho, rfl⟩ | ⟨l, hl, rfl⟩ | hmem
    · obtain rfl : source = source' := by simpa using ho
      obtain rfl : t = t' := by simpa [hd] using hd'
      refine ⟨h.timers source hs t hd, ?_⟩
      rw [← h.rvector]
      split <;> simp_all
    · obtain ⟨hp, hi⟩ := h.expired pre l source' t' hl hd'
      refine ⟨hp, ?_⟩
      cases l with
      | nil => exact ⟨fun h => absurd h (by simp), fun h => absurd (hi.2 h) (by simp)⟩
      | cons o l => simpa using hi
    · -- a reset is not an expiration
      split at hmem <;> simp at hmem

/-- The rows of a service under the statements of a reload. -/
private theorem replay_tracked {qs : List Sql} (hqs : ∀ q ∈ qs, q.target = some s ∧ q.Reloading) {v : View}
    {h : List Output} (hv : v.rvector = countedSinceZero h) (hz : v.hash = 0 → v.rvector = 0) :
    (replay s qs v).rvector = countedSinceZero (h ++ qs.map .statement) ∧
      ((replay s qs v).hash = 0 → (replay s qs v).rvector = 0) := by
  induction qs generalizing v h with
  | nil => simpa [replay] using ⟨hv, hz⟩
  | cons q qs ih =>
    obtain ⟨ht, hr⟩ := hqs q (by simp)
    have hstep : (q.onView v).rvector = countedSinceZero (h ++ [.statement q]) ∧
        ((q.onView v).hash = 0 → (q.onView v).rvector = 0) := by
      unfold countedSinceZero at hv ⊢
      rw [List.foldl_append]
      cases q with
      | insertService row =>
        have h0 : ((Sql.insertService row).onView v).rvector = 0 := by
          have hr : row.rvector = 0 := hr
          simp [View.rvector, Sql.onView, List.foldl_append, hr]
        exact ⟨h0, fun _ => h0⟩
      | deleteServices name => exact ⟨rfl, fun _ => rfl⟩
      | updateRvector name x => exact hr.elim
      | _ => exact ⟨hv, hz⟩
    have := ih (fun q hq => hqs q (by simp [hq])) hstep.1 hstep.2
    rw [← List.singleton_append, replay_append, replay_of_target ht, List.map_append, ← List.append_assoc]
    exact this

private theorem foldl_timeoutAdded {new : List GSource} {source : GSource} {x : Since}
    (h : source ∈ new ∨ x = ⟨0, false⟩) :
    (new.map Output.timeoutAdded).foldl (Since.next source) x = ⟨0, false⟩ := by
  induction new generalizing x with
  | nil => simpa using h
  | cons y new ih =>
    rw [List.map_cons, List.foldl_cons]
    refine ih ?_
    by_cases hy : y = source
    · exact .inr (by simp [Since.next, hy])
    · rcases h with h | rfl
      · exact .inl (by simpa [Ne.symm hy] using h)
      · exact .inr (by simp [Since.next, hy, Output.crashed, Output.zeroes])

private theorem counted_append_timeoutAdded (h : List Output) (new : List GSource) :
    countedSinceZero (h ++ new.map .timeoutAdded) = countedSinceZero h := by
  unfold countedSinceZero
  rw [List.foldl_append]
  generalize h.foldl Output.count 0 = n
  induction new with
  | nil => rfl
  | cons y new ih => exact ih

private theorem Tracked.boot (h : Tracked s R) {v : View} {qs : List Sql} {new : List GSource}
    (hv : v = replay s qs R.view) (hqs : ∀ q ∈ qs, q.target = some s ∧ q.Reloading)
    (hnew : ∀ source ∈ new, source.data = .relax ⟨s, v.rvector, v.timeout⟩ ∧ 0 < v.rvector ∧ 0 < v.timeout) :
    Tracked s ⟨v, new, R.history ++ qs.map .statement ++ new.map .timeoutAdded⟩ := by
  obtain ⟨hr, hz⟩ := replay_tracked hqs h.rvector h.hash
  rw [← hv] at hr hz
  refine ⟨by rw [counted_append_timeoutAdded]; exact hr, hz, fun source hs t hd => ?_, ?_⟩
  · obtain ⟨hd', hp, -⟩ := hnew source hs
    rw [hd'] at hd
    injection hd with hd
    have hsince : sinceStart source (R.history ++ qs.map .statement ++ new.map .timeoutAdded) = ⟨0, false⟩ := by
      unfold sinceStart
      rw [List.foldl_append, foldl_timeoutAdded (.inl hs)]
    rw [counted_append_timeoutAdded, hsince, ← hd]
    dsimp only
    rw [hr] at hp ⊢
    exact .start hp
  · rw [List.append_assoc]
    refine h.expired.append ?_ (by simp)
    intro he
    have hmem : Output.statement (.updateRvector s 0) ∈ qs.map Output.statement ++ new.map Output.timeoutAdded :=
      List.mem_of_head? he
    obtain ⟨q, hq, he⟩ : ∃ q ∈ qs, q = .updateRvector s 0 := by simpa using hmem
    exact (he ▸ hqs q hq).2.elim

theorem Tracked.move (h : Tracked s R) (hm : Move s c R R') : Tracked s R' := by
  cases hm with
  | uncovered cause h0 => exact h.uncovered h0 cause
  | crash id now _ _ _ hh => exact h.crash hh _ id now
  | expire _ hs hd => exact h.expire hs hd
  | boot hv hqs _ hnew _ => exact h.boot hv hqs hnew

end Recovery

namespace Instance

variable {glib : GLib} {w₀ w : Instance} {ls : List Label}

theorem tracked_of_runs (h0 : Fresh w₀) (hr : Runs glib w₀ ls w) (s : String) : (w.recovery s).Tracked s := by
  refine hr.invariant (I := fun w => (w.recovery s).Tracked s) ?_ ?_
  · have hrec : w₀.recovery s = ⟨⟨[], [], []⟩, [], []⟩ := by
      simp [recovery, history, h0.journal, h0.sources, h0.trace, Journal.view, Journal.empty, Journal.servicesNamed,
        Journal.actionsOf, Journal.friendsOf]
    rw [hrec]
    exact ⟨rfl, fun _ => rfl, by simp, fun pre post source t he => by simp at he⟩
  · intro w l w' hw hs
    rcases move_of_step hs s with ⟨-, he⟩ | hm
    · rw [he]
      exact hw
    · exact hw.move hm

/-- No crash during the wait of a timer that resets the rvector, exactly if no such timer finds the rvector set to zero
and counted up again to its own. -/
theorem relaxed_only_if_quiet_iff (h0 : Fresh w₀) (hr : Runs glib w₀ ls w) (s : String) :
    (∀ pre post source, w.history s = pre ++ .timeoutExpired source :: .statement (.updateRvector s 0) :: post →
      (sinceStart source pre).crashes = 0) ↔
    ∀ pre post source t, w.history s = pre ++ .timeoutExpired source :: post → source.data = .relax t →
      ¬ ((sinceStart source pre).zeroed ∧ (countedSinceZero pre : Int) = t.rvector) := by
  have hx : Recovery.Expirations s (w.history s) := (tracked_of_runs h0 hr s).expired
  constructor
  · rintro h pre post source t he hd ⟨hz, hn⟩
    obtain ⟨hp, hi⟩ := hx pre post source t he hd
    obtain ⟨post', rfl⟩ : ∃ post', post = .statement (.updateRvector s 0) :: post' := by
      have := hi.2 hn
      cases post with
      | nil => simp at this
      | cons o post => exact ⟨post, by simpa using this⟩
    have hpos := hp.pos
    have := hp.zeroed hz (by omega)
    have := h pre post' source he
    omega
  · intro h pre post source he
    obtain ⟨t, hd⟩ : ∃ t, source.data = .relax t := by
      have hmem : Output.timeoutExpired source ∈ w.history s := by rw [he]; simp
      have hs := (List.mem_filter.1 hmem).2
      obtain ⟨id, deadline, data⟩ := source
      cases data with
      | relax t => exact ⟨t, rfl⟩
      | friend t => simp [Output.subject] at hs
    obtain ⟨hp, hi⟩ := hx pre _ source t he hd
    have hn := hi.1 rfl
    have hz : (sinceStart source pre).zeroed = false := by
      by_contra hz
      exact h pre _ source t he hd ⟨by simpa using hz, hn⟩
    have := hp.quiet hz
    omega

/-- An action that relaxes, then one that resets. -/
def restartThenReset : List Tag :=
  Tag.unit "a.service" [("relaxtime", "5")] [("resetService", "1", "false"), ("disableService", "1", "true")]

/-- A first boot, `n` crashes, and the wait of the first timer. -/
def relaxedAfter (n : Nat) : Option Instance :=
  (initial .primary "host").replayed (.reading [restartThenReset])
    (.restart (directory [restartThenReset]) :: crashLabels "a.service" n ++ expireLabels 5 0)

private theorem relaxedAfter_one : (relaxedAfter 1).isSome := by decide +kernel

private theorem relaxedAfter_three : (relaxedAfter 3).isSome := by decide +kernel

theorem relaxed_only_if_quiet_once :
    (∀ pre post source, ((relaxedAfter 1).get relaxedAfter_one).history "a.service" =
      pre ++ .timeoutExpired source :: .statement (.updateRvector "a.service" 0) :: post →
        (sinceStart source pre).crashes = 0) ↔
    ∀ pre post source t, ((relaxedAfter 1).get relaxedAfter_one).history "a.service" =
      pre ++ .timeoutExpired source :: post → source.data = .relax t →
        ¬ ((sinceStart source pre).zeroed ∧ (countedSinceZero pre : Int) = t.rvector) :=
  relaxed_only_if_quiet_iff (fresh_initial _ _) (runs_of_replayed (Option.some_get relaxedAfter_one).symm) "a.service"

/-- The first timer resets a service that crashed twice during its wait. -/
theorem relaxed_after_crashes : ¬ ∀ (glib : GLib) (w₀ w : Instance) (ls : List Label) (s : String), Fresh w₀ →
    Runs glib w₀ ls w → ∀ pre post source,
      w.history s = pre ++ .timeoutExpired source :: .statement (.updateRvector s 0) :: post →
        (sinceStart source pre).crashes = 0 := by
  intro h
  have hc := h _ _ _ _ "a.service" (fresh_initial _ _) (runs_of_replayed (Option.some_get relaxedAfter_three).symm)
    (((relaxedAfter 3).get relaxedAfter_three).history "a.service").dropLast.dropLast []
    ⟨0, 5, .relax ⟨"a.service", 1, 5⟩⟩ (by decide +kernel)
  revert hc
  decide +kernel

end Instance

end RecoveryManager
