import Mathlib.Algebra.BigOperators.Fin
import RecoveryManager.Failures

/-!
# The echo of a failure

What a failure leads to when the primary passes on what it knows.  A replica that handles a copy sends it back, and the
primary makes of each copy that comes back one for every replica but the originator.  So the copies on their way follow
from the number `m` of times each of these replicas has been sent one (`Tally.Census`), and they never run out while
there is such a replica (`copies_counted`).
-/

namespace RecoveryManager

open Instance

variable {n : Nat}

namespace Tally

/-- The copies that have still to be handled. -/
def copies (t : Tally n) : Nat := t.waiting .primary + ∑ i, t.up i + ∑ i, t.down i + ∑ i, t.waiting (.replica i)

/-- The replicas a failure of `o` is passed on to. -/
def others : Site n → Nat
  | .primary => n
  | .replica _ => n - 1

private theorem sum_add_single (f : Fin n → Nat) (j : Fin n) (k : Nat) :
    ∑ i, (f + Pi.single j k : Fin n → Nat) i = ∑ i, f i + k := by
  simp [Finset.sum_add_distrib]

private theorem sum_add_primary (f : Site n → Nat) (k : Nat) :
    ∑ i, (f + Pi.single .primary k : Site n → Nat) (.replica i) = ∑ i, f (.replica i) := by
  simp

private theorem sum_add_replica (f : Site n → Nat) (j : Fin n) (k : Nat) :
    ∑ i, (f + Pi.single (.replica j) k : Site n → Nat) (.replica i) = ∑ i, f (.replica i) + k := by
  simp [Finset.sum_add_distrib, Pi.single_apply]

theorem sum_notOrigin (o : Site n) : ∑ i : Fin n, notOrigin o (.replica i) = others o := by
  cases o with
  | primary =>
    rw [Finset.sum_congr rfl fun i _ => show notOrigin (.primary : Site n) (.replica i) = 1 from if_neg (by simp)]
    simp [others]
  | replica j =>
    have hone : (fun i : Fin n => notOrigin (.replica j : Site n) (.replica i)) + Pi.single j 1 = fun _ => 1 := by
      funext i
      by_cases h : j = i
      · subst h
        simp [notOrigin]
      · simp [notOrigin, h, Ne.symm h]
    have hsum := sum_add_single (fun i : Fin n => notOrigin (.replica j : Site n) (.replica i)) j 1
    rw [hone] at hsum
    simp at hsum
    show _ = n - 1
    omega

/-- Every replica but the originator has been sent the failure `m` times. -/
structure Census (o : Site n) (m : Nat) (t : Tally n) : Prop where
  sent : ∀ i, t.sent i = m * notOrigin o (.replica i)
  arrived : ∀ i, t.down i + t.waiting (.replica i) + t.pushed (.replica i) = t.sent i
  primary : t.pushed .primary = m * notOrigin o .primary
  copies : t.copies + m = 1 + m * others o

variable {o : Site n} {m : Nat} {t t' : Tally n}

/-- A replica that passes on a failure is not the one it happened on. -/
private theorem Census.replica (h : t.Census o m) {i : Fin n} (hi : 0 < t.waiting (.replica i)) :
    notOrigin o (.replica i) = 1 := by
  unfold notOrigin
  split
  · rename_i ho
    have := h.arrived i
    rw [h.sent i, ho, notOrigin, if_pos rfl, Nat.mul_zero] at this
    omega
  · rfl

/-- Only the primary makes more copies of one, and then it sends one more to each. -/
theorem Census.step (h : t.Census o m) (hs : Step o t t') : ∃ m', m ≤ m' ∧ t'.Census o m' := by
  have hc := h.copies
  unfold Tally.copies at hc
  cases hs with
  | rest => exact ⟨m, Nat.le_refl m, h⟩
  | read t i =>
    refine ⟨m, Nat.le_refl m, h.sent, fun k => by simpa using h.arrived k, h.primary, ?_⟩
    unfold Tally.copies
    dsimp only at hc ⊢
    rw [sum_add_single] at hc
    rw [sum_add_primary, Pi.add_apply, Pi.single_eq_same]
    omega
  | deliver t i =>
    refine ⟨m, Nat.le_refl m, h.sent, fun k => ?_, h.primary, ?_⟩
    · have hk := h.arrived k
      by_cases hki : k = i
      · subst hki
        simp only [Pi.add_apply, Pi.single_eq_same] at hk ⊢
        omega
      · simpa [Pi.single_apply, hki] using hk
    · unfold Tally.copies
      dsimp only at hc ⊢
      rw [sum_add_single] at hc
      rw [sum_add_replica, Pi.add_apply, Pi.single_eq_of_ne (by simp)]
      omega
  | relay t =>
    refine ⟨m + 1, Nat.le_succ m, fun k => ?_, fun k => ?_, ?_, ?_⟩
    · have hk : t.sent k = m * notOrigin o (.replica k) := h.sent k
      dsimp only
      rw [Pi.add_apply, hk, Nat.succ_mul, Nat.add_comm]
    · have hk := h.arrived k
      simp only [Pi.add_apply, Pi.single_apply, reduceCtorEq, if_false] at hk ⊢
      omega
    · have hp : t.pushed .primary = m * notOrigin o .primary := h.primary
      dsimp only
      rw [Pi.add_apply, hp, Pi.single_eq_same, Nat.succ_mul]
    · have hdown : ∑ i, (t.down + fun i => notOrigin o (.replica i) : Fin n → Nat) i = ∑ i, t.down i + others o := by
        rw [← sum_notOrigin, ← Finset.sum_add_distrib]
        rfl
      unfold Tally.copies
      dsimp only at hc ⊢
      rw [sum_add_primary, Pi.add_apply, Pi.single_eq_same] at hc
      rw [hdown, Nat.succ_mul]
      omega
  | echo t i =>
    have hone : notOrigin o (.replica i) = 1 := h.replica (by simp)
    refine ⟨m, Nat.le_refl m, h.sent, fun k => ?_, ?_, ?_⟩
    · have hk := h.arrived k
      by_cases hki : k = i
      · subst hki
        simp only [Pi.add_apply, Pi.single_eq_same, hone] at hk ⊢
        omega
      · simpa [Pi.single_apply, hki] using hk
    · simpa using h.primary
    · unfold Tally.copies
      dsimp only at hc ⊢
      rw [sum_add_replica, Pi.add_apply, Pi.single_eq_of_ne (by simp)] at hc
      rw [sum_add_single]
      omega
  | forward t i => exact ⟨m, Nat.le_refl m, h.sent, h.arrived, h.primary, h.copies⟩

/-- While there is a replica to tell, the copies do not run out. -/
theorem Census.copies_pos (h : t.Census o m) (ho : 0 < others o) : 0 < t.copies := by
  have hc := h.copies
  have : m ≤ m * others o := Nat.le_mul_of_pos_right m ho
  omega

end Tally

namespace Propagation

variable {c : Members n} {units : Option String → Prop} {N N' : NetTraffic n} {o : Site n} {e : RmgDEvent}

/-- The primary begins by sending the failure to each replica, a replica by sending it to the primary. -/
theorem census_of_dispatch (hmode : ∀ s, (c s).runMode = s.runMode)
    (hclients : ∀ i : Fin n, told (N .primary).clients (some (c o).hostName) i = Tally.notOrigin o (.replica i))
    (h : Before o e.cause N) (he : (N o).inbox.head? = some e) (ht : e.type = .serviceCrashed)
    (hu : units e.serviceName) (hm : NetTraffic.Move c units N (.own o .dispatch) N') :
    ∃ m, (N'.tally e.cause).Census o m := by
  have hmem : e ∈ (N o).inbox := List.mem_of_mem_head? he
  cases h with
  | unborn _ h => exact absurd rfl ((h o).inbox e hmem)
  | other _ h => exact absurd rfl ((h o).inbox e hmem rfl ht)
  | waiting _ h _ =>
    cases hm with
    | @own _ _ T _ hm =>
      cases hm with
      | @dispatch e' inbox T hq hh =>
        obtain rfl : e' = e := by
          rw [hq] at he
          exact Option.some.inj he
        obtain ⟨a, ha, rfl⟩ := Traffic.eq_add_of_handled hh
        -- before, there was nothing of the failure but its crash event
        obtain ⟨hP, hW, hD, hU, hS, -, -⟩ := counts_of_crash hq ht hu ha
        have hzero := tally_of_onlyCrash h
        have hpushed : (N o).failurePushes e'.cause = 0 := congrFun (congrArg Tally.pushed hzero) o
        have hwaiting : (N o).failuresWaiting e'.cause = 0 := congrFun (congrArg Tally.waiting hzero) o
        rw [hpushed] at hP
        rw [hwaiting] at hW
        cases o with
        | primary =>
          have hm : (c .primary).runMode = .primary := hmode .primary
          have hdown : ∀ i : Fin n, (N .primary).failuresDown e'.cause i = 0 := fun i =>
            congrFun (congrArg Tally.down hzero) i
          have hsent : ∀ i : Fin n, (N .primary).messagesTo e'.cause i = 0 := fun i =>
            congrFun (congrArg Tally.sent hzero) i
          have hone : ∀ i : Fin n, Tally.notOrigin (.primary : Site n) (.replica i) = 1 := fun _ => if_neg (by simp)
          rw [tally_primary, hzero, hP, hW]
          refine ⟨1, fun i => ?_, fun i => ?_, by simp [Tally.notOrigin], ?_⟩
          · show Traffic.messagesTo _ _ _ = _
            rw [hS, hsent, if_pos hm, hclients, Nat.zero_add, Nat.one_mul]
          · show Traffic.failuresDown _ _ _ + 0 + 0 = Traffic.messagesTo _ _ _
            rw [hS, hsent, hD, hdown]
            rfl
          · have hsum :
                ∑ i : Fin n, (Traffic.add { N .primary with inbox := inbox } a).failuresDown e'.cause i = n := by
              rw [Finset.sum_congr rfl fun (i : Fin n) _ => show
                (Traffic.add { N .primary with inbox := inbox } a).failuresDown e'.cause i = 1 by
                  rw [hD, hdown, if_pos hm, hclients, hone]]
              simp
            simp [Tally.copies, hsum, Tally.others, Nat.add_comm]
        | replica j =>
          have hm : (c (.replica j)).runMode = .replica := hmode (.replica j)
          have hup : (N (.replica j)).failuresUp e'.cause = 0 := congrFun (congrArg Tally.up hzero) j
          rw [hup, if_pos hm] at hU
          rw [tally_replica, hzero, hP, hW, hU]
          refine ⟨0, fun i => by simp, fun i => by simp [Function.update_apply], by simp, ?_⟩
          have hsum : ∑ i, (Function.update (0 : Fin n → Nat) j (0 + 1)) i = 1 := by
            show ∑ i, (Pi.single j 1 : Fin n → Nat) i = 1
            simp
          simp only [Tally.copies, Function.update_apply, Pi.zero_apply, reduceCtorEq, if_false] at hsum ⊢
          rw [hsum]
          simp

/-! ### Runs -/

variable {net₀ net net' : Network n} {glib : GLib} {l : NetLabel n} {ls : List (NetLabel n)} {cause : Cause}

/-- A crash that waits for the dispatcher is all there is of it. -/
theorem before_of_runs (h₀ : net₀.Settled) (hr : Network.Runs AllSucceed glib net₀ ls net)
    (hcause : cause.instance_ = (net₀.members o).ident) : Steady net₀ net ∧ Before o cause net.traffic := by
  refine hr.invariant (I := fun net => Steady net₀ net ∧ Before o cause net.traffic) ⟨steady_start h₀, ?_⟩ ?_
  · by_cases hle : (net₀.traffic o).allocated ≤ cause.event
    · exact .unborn hle fun s => (h₀.start.idle s).has _
    · exact .other (Nat.lt_of_not_le hle) fun s => (h₀.start.idle s).has _
  · rintro net l net' ⟨hsteady, hbefore⟩ hs
    obtain ⟨hsteady', hconnect, units, -, hm⟩ := hsteady.step h₀ hs
    exact ⟨hsteady', hbefore.move h₀.start.idents hcause (fun i => (hconnect i).1) hm⟩

/-- The state of a run after the failure was handled. -/
structure Echoing (net₀ net : Network n) (o : Site n) (cause : Cause) : Prop where
  steady : Steady net₀ net
  born : cause.event < (net.traffic o).allocated
  spread : net.traffic.Has (spread net₀.members o cause)
  census : ∃ m, (net.traffic.tally cause).Census o m

theorem Echoing.step (h₀ : net₀.Settled) (hcause : cause.instance_ = (net₀.members o).ident)
    (h : Echoing net₀ net o cause) (hs : Network.Step AllSucceed glib net l net') : Echoing net₀ net' o cause := by
  obtain ⟨hsteady, hconnect, units, -, hm⟩ := h.steady.step h₀ hs
  have hborn : ∀ s e, l.event net₀.members net.traffic = some (s, e) → e.cause ≠ cause := fun s e he =>
    not_born h₀.start.idents hcause h.born he
  obtain ⟨htally, -⟩ := step_of_move h₀.start.runMode h₀.hostNames h.spread
    (fun i => told_of_settled h₀ h.steady o i) hborn hconnect hm
  obtain ⟨m, hm'⟩ := h.census
  obtain ⟨m', -, hcensus⟩ := hm'.step htally
  refine ⟨hsteady, Nat.lt_of_lt_of_le h.born (NetTraffic.allocated_of_move hm o), ?_, m', hcensus⟩
  exact h.spread.move (closed_spread net₀.members o cause) hm
    (fun s l' hl e he hc => absurd hc (hborn s e (hl ▸ NetTraffic.event_own he))) fun i hi => absurd hi (hconnect i).1

end Propagation

namespace Network

/-- The copies of a failure that have still to be handled: in the queues of the dispatchers and on their way. -/
def copies (net : Network n) (cause : Cause) : Nat :=
  net.primary.traffic.failuresWaiting cause + ∑ i, (net.replica i).traffic.failuresUp cause +
    ∑ i : Fin n, net.primary.traffic.failuresDown cause i + ∑ i, (net.replica i).traffic.failuresWaiting cause

/-- The failure of `o` has been sent `m` times to each other replica, and pushed as often for each copy handled there
and for each the primary made of it; what has still to be handled follows from `m`. -/
structure Echoed (net : Network n) (o : Site n) (cause : Cause) (m : Nat) : Prop where
  sent : ∀ i, o ≠ .replica i → net.primary.traffic.messagesTo cause i = m
  arrived : ∀ i, o ≠ .replica i → net.primary.traffic.failuresDown cause i +
    (net.replica i).traffic.failuresWaiting cause + (net.replica i).traffic.failurePushes cause = m
  primary : o ≠ .primary → net.primary.traffic.failurePushes cause = m
  origin : (net.instances o).traffic.failurePushes cause = 0
  copies : net.copies cause + m = 1 + m * Tally.others o

theorem echoed_of_census {net : Network n} {o : Site n} {cause : Cause} {m : Nat}
    (h : (net.traffic.tally cause).Census o m) : net.Echoed o cause m := by
  have hone : ∀ s, o ≠ s → m * Tally.notOrigin o s = m := fun s hs => by rw [Tally.notOrigin, if_neg hs, Nat.mul_one]
  refine ⟨fun i hi => (h.sent i).trans (hone _ hi), fun i hi => (h.arrived i).trans ((h.sent i).trans (hone _ hi)),
    fun ho => h.primary.trans (hone _ ho), ?_, h.copies⟩
  cases ho : o with
  | primary =>
    subst ho
    exact h.primary.trans (by simp [Tally.notOrigin])
  | replica j =>
    subst ho
    have hj := h.arrived j
    rw [h.sent j, Tally.notOrigin, if_pos rfl, Nat.mul_zero] at hj
    have hpushed : (net.traffic.tally cause).pushed (.replica j) = 0 := by omega
    exact hpushed

end Network

open Propagation

variable {net₀ net₁ net₂ net : Network n} {glib : GLib} {ls₀ ls : List (NetLabel n)} {o : Site n} {e : RmgDEvent}

/-- In every run after a failure has been handled, whatever the primary passes on: the copies that have still to be
handled are counted by the number of times the failure has been sent to each replica, and there always is one if there
is a replica to tell. -/
theorem copies_counted (h₀ : net₀.Settled) (h₁ : Network.Runs AllSucceed glib net₀ ls₀ net₁)
    (he : (net₁.instances o).traffic.inbox.head? = some e) (ht : e.type = .serviceCrashed)
    (hu : (net₁.instances o).HasUnit e.serviceName) (h₂ : Network.Step AllSucceed glib net₁ (.own o .dispatch) net₂)
    (h₃ : Network.Runs AllSucceed glib net₂ ls net) :
    ∃ m, net.Echoed o e.cause m ∧ (0 < Tally.others o → 0 < net.copies e.cause) := by
  have hsteady₁ : Steady net₀ net₁ := h₁.invariant (I := Steady net₀) (steady_start h₀)
    fun _ _ _ h hs => (h.step h₀ hs).1
  have hcause : e.cause.instance_ = (net₀.members o).ident :=
    (hsteady₁.plain o).inbox e (List.mem_of_mem_head? he) ht
  have hbefore := (before_of_runs h₀ h₁ hcause).2
  obtain ⟨hsteady₂, -, units, hunits, hm⟩ := hsteady₁.step h₀ h₂
  rw [← hunits o .dispatch rfl] at hu
  have htold := fun i => told_of_settled h₀ hsteady₁ o i
  obtain ⟨hborn, hspread, -⟩ := spread_of_dispatch h₀.start.runMode htold hbefore he ht hu hm
  have hechoing : Echoing net₀ net o e.cause :=
    h₃.invariant (I := fun net => Echoing net₀ net o e.cause)
      ⟨hsteady₂, hborn, hspread, census_of_dispatch h₀.start.runMode htold hbefore he ht hu hm⟩
      fun _ _ _ h hs => h.step h₀ hcause hs
  obtain ⟨m, hcensus⟩ := hechoing.census
  exact ⟨m, Network.echoed_of_census hcensus, hcensus.copies_pos⟩

/-- The replica has handled the copy that came back to it, and has sent it on its way once more. -/
theorem copies_counted_of_echo : ∃ net : Network 1,
    (net.replica 0).traffic.failurePushes failure.cause = 2 ∧ net.copies failure.cause = 1 := by
  obtain ⟨net₁, net₂, net, h₁, he, hu, h₂, h₃, htwice⟩ :=
    exists_failed [.toReplica 0, .own (.replica 0) .dispatch, .toPrimary 0, .own .primary .dispatch, .toReplica 0,
      .own (.replica 0) .dispatch] (fun net => (net.replica 0).traffic.failurePushes failure.cause = 2)
        (by decide +kernel)
  obtain ⟨m, hm, -⟩ := copies_counted failingPair_settled h₁ he rfl hu h₂ h₃
  have hcopies : net.copies failure.cause + m = 1 + m * 1 := hm.copies
  exact ⟨net, of_decide_eq_true htwice, by omega⟩

end RecoveryManager
