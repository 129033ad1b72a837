import RecoveryManager.Executor
import RecoveryManager.UnitSource
import RecoveryManager.Unreliable

/-!
# Waiting times

The wait of a relax timer is a product of two signed 64-bit numbers, the wait of a friend timer a signed configured
delay, and both are narrowed to an unsigned 32-bit number of seconds.  A timer waits as long as it should exactly if
the number fits (`waits_exactly_iff`).
-/

namespace RecoveryManager

open Fallible Fallible.Prog

theorem guint_eq_iff (x : Int) : (guint x : Int) = x ↔ 0 ≤ x ∧ x < 2 ^ 32 := by
  unfold guint
  rw [Int.toNat_of_nonneg (Int.emod_nonneg x (by decide))]
  constructor
  · intro h
    rw [← h]
    exact ⟨Int.emod_nonneg x (by decide), Int.emod_lt_of_pos x (by decide)⟩
  · rintro ⟨h₀, h₁⟩
    exact Int.emod_eq_of_lt h₀ h₁

/-- A positive number of seconds survives the two conversions exactly if it fits the second. -/
theorem guint_glong_eq_iff {x : Int} (h : 0 < x) : (guint (glong x) : Int) = x ↔ x < 2 ^ 32 := by
  constructor
  · intro hx
    rw [← hx]
    unfold guint
    rw [Int.toNat_of_nonneg (Int.emod_nonneg _ (by decide))]
    exact Int.emod_lt_of_pos _ (by decide)
  · intro hx
    rw [glong_of_range (by omega) (by omega)]
    exact (guint_eq_iff x).2 ⟨by omega, hx⟩

namespace Instance

variable {w : Instance}

/-- Whatever fails on the way, every timer the function starts waits for so many seconds. -/
def Waits {α : Type} (w : Instance) (p : Proc α) (seconds : Int) : Prop :=
  ∀ o w', Exec machine Unreliable p w o w' → ∀ source ∈ w'.sources.drop w.sources.length,
    (source.deadline : Int) = w.now + seconds

private theorem deadline_of_mem_addTimeout {n : Nat} {data : TimerData} {source : GSource}
    (h : source ∈ (w.addTimeout n data).sources.drop w.sources.length) : source.deadline = w.now + n := by
  have hsources : (w.addTimeout n data).sources = w.sources ++ [⟨w.nextSource, w.now + n, data⟩] := rfl
  rw [hsources, List.drop_left, List.mem_singleton] at h
  rw [h]

private theorem mem_addTimeout (w : Instance) (n : Nat) (data : TimerData) :
    (⟨w.nextSource, w.now + n, data⟩ : GSource) ∈ (w.addTimeout n data).sources.drop w.sources.length := by
  have hsources : (w.addTimeout n data).sources = w.sources ++ [⟨w.nextSource, w.now + n, data⟩] := rfl
  rw [hsources, List.drop_left]
  exact List.mem_singleton_self _

private theorem drop_sources (w : Instance) : w.sources.drop w.sources.length = [] := List.drop_length

/-- A relax timer is started for a positive rvector and a positive timeout, or none is. -/
private theorem triple_rmgRelaxtimerTrigger (w : Instance) (s : String) :
    Triple machine Unreliable (· = w) (rmgRelaxtimerTrigger (some s)) (fun _ w' => w' = w ∨
      (0 < w.journal.rvectorOf s ∧ 0 < w.journal.timeoutOf s) ∧ ∃ data,
        w' = w.addTimeout (guint (glong (w.journal.rvectorOf s * w.journal.timeoutOf s))) data) (· = w) := by
  show Triple _ _ _ (rmgJournalGetRvector (some s) >>= _) _ _
  refine Triple.bind (triple_getServiceColumn_cases s 0 (·.rvector)) fun r => ?_
  obtain ⟨rvector, error⟩ := r
  show Triple _ _ _ (if rvector ≤ 0 then _ else _) _ _
  by_cases hv : rvector ≤ 0
  · rw [if_pos hv]
    exact .ret fun w' h => .inl h.1
  rw [if_neg hv]
  refine Triple.bind ((triple_getServiceColumn_cases s 0 (·.timeout)).weaken (fun _ h => h) (fun _ _ h => h)
    fun _ h => h.1) fun r => ?_
  obtain ⟨timeout, error'⟩ := r
  show Triple _ _ _ (if timeout ≤ 0 then _ else _) _ _
  by_cases ht : timeout ≤ 0
  · rw [if_pos ht]
    exact .ret fun w' h => .inl h.1.1
  rw [if_neg ht]
  refine .call (fun w' h => h.1.1) (R := fun _ w' => (0 < w.journal.rvectorOf s ∧ 0 < w.journal.timeoutOf s) ∧
    ∃ data, w' = w.addTimeout (guint (glong (w.journal.rvectorOf s * w.journal.timeoutOf s))) data)
      (fun w' e _ h => ?_) fun _ => .ret fun _ h => .inr h
  obtain ⟨⟨rfl, hr⟩, hr'⟩ := h
  -- a positive number is no default, so it has been read from the tables
  have hrvector : rvector = w'.journal.rvectorOf s := by
    rcases hr with hr | hr
    · exact absurd (congrArg Prod.fst hr).le hv
    · exact congrArg Prod.fst hr
  have htimeout : timeout = w'.journal.timeoutOf s := by
    rcases hr' with hr' | hr'
    · exact absurd (congrArg Prod.fst hr').le ht
    · exact congrArg Prod.fst hr'
  subst hrvector htimeout
  exact ⟨⟨by omega, by omega⟩, _, rfl⟩

theorem waits_rmgRelaxtimerTrigger_iff (w : Instance) (s : String) :
    w.Waits (rmgRelaxtimerTrigger (some s)) (w.journal.rvectorOf s * w.journal.timeoutOf s) ↔
      (0 < w.journal.rvectorOf s → 0 < w.journal.timeoutOf s →
        w.journal.rvectorOf s * w.journal.timeoutOf s < 2 ^ 32) := by
  constructor
  · intro h hv ht
    obtain ⟨r, hrun⟩ := run_rmgRelaxtimerTrigger w s
    have hx := exec_run machine true (A := Unreliable) (fun _ => trivial) (rmgRelaxtimerTrigger (some s)) w
    have hx' : Exec machine Unreliable (rmgRelaxtimerTrigger (some s)) w (.done r) (w.triggered s) := by
      have h₁ : Fallible.run machine true (rmgRelaxtimerTrigger (some s)) w = (some r, w.triggered s) := hrun
      rw [h₁] at hx
      exact hx
    have htriggered : w.triggered s = w.addTimeout (guint (glong (w.journal.rvectorOf s * w.journal.timeoutOf s)))
        (.relax ⟨s, w.journal.rvectorOf s, w.journal.timeoutOf s⟩) := by
      unfold triggered
      rw [if_neg (by omega)]
    rw [htriggered] at hx'
    have hd := h _ _ hx' _ (mem_addTimeout w _ _)
    have hpos := Int.mul_pos hv ht
    refine (guint_glong_eq_iff hpos).1 ?_
    push_cast at hd
    omega
  · intro h o w' hx source hsource
    have hends := triple_rmgRelaxtimerTrigger w s w o w' rfl hx
    cases o with
    | done r =>
      rcases hends with rfl | ⟨⟨hv, ht⟩, data, rfl⟩
      · rw [drop_sources] at hsource
        cases hsource
      · rw [deadline_of_mem_addTimeout hsource]
        push_cast
        rw [(guint_glong_eq_iff (Int.mul_pos hv ht)).2 (h hv ht)]
    | aborted | killed =>
      obtain rfl : w' = w := hends
      rw [drop_sources] at hsource
      cases hsource

theorem waits_foreachServiceFriend_iff (w : Instance) (friend : RmgFriendResponseEntry) :
    w.Waits (foreachServiceFriend friend) friend.delay ↔ 0 ≤ friend.delay ∧ friend.delay < 2 ^ 32 := by
  have hcall : foreachServiceFriend friend = .call (.timeoutAddSeconds (guint friend.delay)
      (.friend ⟨friend.serviceName, friend.action, friend.argument⟩)) fun _ => .ret ⟨⟩ := rfl
  rw [hcall, ← guint_eq_iff]
  constructor
  · intro h
    have hd := h _ _ (.call (e := true) trivial (.ret _ _)) _ (mem_addTimeout w (guint friend.delay)
      (.friend ⟨friend.serviceName, friend.action, friend.argument⟩))
    push_cast at hd
    omega
  · intro h o w' hx source hsource
    cases hx with
    | kill =>
      rw [drop_sources] at hsource
      cases hsource
    | call _ hx =>
      cases hx
      rw [deadline_of_mem_addTimeout hsource]
      push_cast
      rw [h]

/-- Whatever unit a timer is for: it waits the configured time exactly if the number of seconds fits 32 bits. -/
theorem waits_exactly_iff (w : Instance) (s : String) (friend : RmgFriendResponseEntry) :
    (w.Waits (rmgRelaxtimerTrigger (some s)) (w.journal.rvectorOf s * w.journal.timeoutOf s) ↔
      (0 < w.journal.rvectorOf s → 0 < w.journal.timeoutOf s →
        w.journal.rvectorOf s * w.journal.timeoutOf s < 2 ^ 32)) ∧
    (w.Waits (foreachServiceFriend friend) friend.delay ↔ 0 ≤ friend.delay ∧ friend.delay < 2 ^ 32) :=
  ⟨waits_rmgRelaxtimerTrigger_iff w s, waits_foreachServiceFriend_iff w friend⟩

/-- A unit that relaxes after `2 ^ 32` seconds. -/
def patientUnit : List Tag :=
  Tag.unit "a.service" [("relaxtime", "4294967296")] [("resetService", "1", "false")]

/-- The unit is ingested, and its service crashes once. -/
def patientCrash : Option Instance :=
  (initial .primary "host").replayed (.reading [patientUnit]) [.restart (directory [patientUnit]), .crash "a.service",
    .dispatch]

private theorem patientCrash_isSome : patientCrash.isSome := by decide +kernel

/-- The timer of that service expires at once. -/
theorem relaxtimer_wait_wraps : ¬ ∀ (glib : GLib) (w₀ w : Instance) (ls : List Label) (s : String), Fresh w₀ →
    Runs glib w₀ ls w → 1 ≤ w.journal.rvectorOf s →
      w.Waits (rmgRelaxtimerTrigger (some s)) (w.journal.rvectorOf s * w.journal.timeoutOf s) := by
  intro h
  have hstored : (patientCrash.get patientCrash_isSome).journal.rvectorOf "a.service" = 1 ∧
      (patientCrash.get patientCrash_isSome).journal.timeoutOf "a.service" = 2 ^ 32 := by
    decide +kernel
  have hwaits := h _ _ _ _ "a.service" (fresh_initial _ _) (runs_of_replayed (Option.some_get patientCrash_isSome).symm)
    (by rw [hstored.1])
  have hlt := (waits_rmgRelaxtimerTrigger_iff _ _).1 hwaits (by rw [hstored.1]; decide) (by rw [hstored.2]; decide)
  rw [hstored.1, hstored.2] at hlt
  exact absurd hlt (by decide)

end Instance

end RecoveryManager
