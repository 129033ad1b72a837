import RecoveryManager.Propagation
import RecoveryManager.UnitSource

/-!
# One push for each failure

A service with a recovery unit has failed, and the instance has handled it.  From then on the failure is pushed on every
other instance at most once, and exactly once when all copies are consumed (`propagated_once`), in every run in which
the primary does not pass on a failure that it knows already.

Without that condition a replica's copy comes back to the primary and from there to all replicas again
(`echo_pushes_twice`).
-/

namespace RecoveryManager

open Instance

variable {n : Nat}

namespace Network

/-- All replicas are connected, and the primary has handled their descriptors. -/
structure Settled (net : Network n) : Prop where
  start : net.Start
  hostNames : Function.Injective fun s => (net.instances s).hostName
  connected : ∀ i, net.connected i
  clients : ∀ i : Fin n, ⟨i, some (net.replica i).hostName⟩ ∈ net.primary.clients

/-- The primary has the failure from itself, or has pushed an event for it. -/
def Knows (net : Network n) (cause : Cause) : Prop :=
  cause.instance_ = net.primary.ident ∨ 0 < net.primary.traffic.failurePushes cause

/-- The step does not make the primary pass on a failure that it knows. -/
def NoEcho (net : Network n) (cause : Cause) (l : NetLabel n) : Prop :=
  l = .own .primary .dispatch → ∀ e ∈ net.primary.traffic.inbox.head?,
    e.type = .informServiceFailed → e.cause = cause → ¬ net.Knows cause

/-- No copy of the failure is on its way, and none waits for anything but to be passed on again. -/
structure Consumed (net : Network n) (cause : Cause) : Prop where
  up : ∀ i, (net.replica i).traffic.failuresUp cause = 0
  down : ∀ i : Fin n, net.primary.traffic.failuresDown cause i = 0
  replicas : ∀ i, (net.replica i).traffic.failuresWaiting cause = 0
  primary : net.primary.traffic.failuresWaiting cause = 0 ∨ net.Knows cause

/-- The failure of `o` is pushed once on each other instance, by finitely many messages. -/
structure Propagated (net : Network n) (o : Site n) (cause : Cause) : Prop where
  origin : (net.instances o).traffic.failurePushes cause = 0
  once : ∀ s, s ≠ o → (net.instances s).traffic.failurePushes cause ≤ 1
  complete : net.Consumed cause → ∀ s, s ≠ o → (net.instances s).traffic.failurePushes cause = 1
  messages : ∀ i : Fin n, net.primary.traffic.messagesTo cause i ≤ 1 ∧ (net.replica i).traffic.messagesFrom cause ≤ 2

end Network

namespace Propagation

/-! ### Settled networks -/

/-- A crash is handled where it happened, and no descriptor is on its way. -/
def plain (c : Members n) (s : Site n) : Shape where
  event e := e.type = .serviceCrashed → e.cause.instance_ = (c s).ident
  job _ := True
  push _ _ := True
  up msg := msg.type ≠ .replicaDescriptor
  down _ _ := True

private theorem closed_plain (c : Members n) : NetTraffic.Closed (plain c) c where
  site s := {
    job := fun _ _ _ => trivial
    processCrash := fun _ _ _ => ⟨trivial, fun _ _ => trivial⟩
    serviceFailed := fun _ _ _ => ⟨fun _ _ => trivial, fun _ => by simp [plain, RmgMessage.failure], fun _ => trivial⟩
    crashed := fun _ _ _ => ⟨fun _ _ _ => trivial, fun _ _ => trivial, fun _ => by simp [plain, RmgMessage.failure],
      fun _ => trivial⟩
    remote := fun _ _ _ _ => trivial
    execute := fun _ job _ type ht => by cases hk : job.type <;> rw [hk] at ht <;> cases ht <;> simp [plain] }
  toPrimary i msg type _ ht hk := by
    dsimp only at hk
    subst hk
    cases htype : msg.type <;> rw [htype] at ht <;> cases ht
  toReplica _ _ _ := ⟨fun _ hk => (by cases hk), fun _ hk => (by cases hk)⟩

variable {c : Members n} {units : Option String → Prop} {N N' : NetTraffic n} {l : NetLabel n} {o : Site n}
    {cause : Cause}

private theorem clients_of_netMove (h : N.Has (plain c)) (hconnect : ∀ i, l ≠ .connect i ∧ l ≠ .accept i)
    (hm : NetTraffic.Move c units N l N') : (N' .primary).clients = (N .primary).clients := by
  cases hm with
  | @own s l T hown hm =>
    cases s with
    | primary =>
      rw [Function.update_self]
      exact Traffic.clients_of_move hown hm
    | replica i => rfl
  | @toPrimary i msg rest hq =>
    have hne : msg.type ≠ .replicaDescriptor := (h (.replica i)).toManager msg (by rw [hq]; exact List.mem_cons_self)
    rw [Function.update_self, Traffic.fromReplica_eq, if_neg hne]
    split <;> rfl
  | toReplica => rfl
  | @connect i => exact absurd rfl (hconnect i).1
  | @accept i => exact absurd rfl (hconnect i).2

variable {net₀ net net' : Network n} {glib : GLib}

/-- What a settled network keeps. -/
structure Steady (net₀ net : Network n) : Prop where
  members : net.members = net₀.members
  sound : net.Sound
  connected : ∀ i, net.connected i
  clients : net.primary.clients = net₀.primary.clients
  plain : net.traffic.Has (plain net₀.members)

theorem steady_start (h : net.Settled) : Steady net net :=
  ⟨rfl, h.start.sound, h.connected, rfl, fun s => (h.start.idle s).has _⟩

private theorem connected_of_step (h : Network.Step AllSucceed glib net l net') (hc : ∀ i, net.connected i)
    (i : Fin n) :
    net'.connected i := by
  cases h with
  | @connect j hj => rw [hc j] at hj; cases hj
  | _ => exact hc i

theorem Steady.step (h₀ : net₀.Settled) (h : Steady net₀ net) (hs : Network.Step AllSucceed glib net l net') :
    Steady net₀ net' ∧ (∀ i, l ≠ .connect i ∧ l ≠ .accept i) ∧
      ∃ units, (∀ s l', l = .own s l' → units = (net.instances s).HasUnit) ∧
        NetTraffic.Move net₀.members units net.traffic l net'.traffic := by
  obtain ⟨⟨units, hunits, hm⟩, hsound⟩ := Network.move_of_step (fun _ _ h => h.sends) hs h.sound
  rw [h.members] at hm
  have hconnect : ∀ i, l ≠ .connect i ∧ l ≠ .accept i := by
    intro i
    constructor
    · rintro rfl
      cases hs with
      | connect hc => rw [h.connected i] at hc; cases hc
    · rintro rfl
      cases hs with
      | accept _ hnew => exact hnew ⟨_, h.clients ▸ h₀.clients i, rfl⟩
  refine ⟨⟨hs.members.trans h.members, hsound, connected_of_step hs h.connected,
    (clients_of_netMove h.plain hconnect hm).trans h.clients, ?_⟩, hconnect, units, hunits fun _ _ h => h, hm⟩
  exact h.plain.move (closed_plain net₀.members) hm
    (fun s l' _ e he _ => congrArg Cause.instance_ (NetTraffic.cause_of_event (NetTraffic.event_own he)))
    fun i hi => absurd hi (hconnect i).1

theorem told_of_settled (h₀ : net₀.Settled) (h : Steady net₀ net) (o : Site n) (i : Fin n) :
    told (net.traffic .primary).clients (some (net₀.members o).hostName) i = Tally.notOrigin o (.replica i) := by
  have hclients : (net.traffic .primary).clients = net₀.primary.clients := h.clients
  have hfilter := Traffic.filter_sockfd h₀.start.sockets (h₀.clients i)
  have hfilters : (net₀.primary.clients.filter fun client =>
        client.sockfd = i.val ∧ client.contextName ≠ some (net₀.members o).hostName) =
      [(⟨i, some (net₀.replica i).hostName⟩ : RmgClient)].filter (·.contextName ≠ some (net₀.members o).hostName) := by
    rw [← hfilter, List.filter_filter]
    exact List.filter_congr fun client _ => by simp [Bool.and_comm]
  unfold told
  rw [hclients, hfilters]
  unfold Tally.notOrigin
  by_cases ho : o = .replica i
  · subst ho
    rw [if_pos rfl, List.filter_cons_of_neg (by simp [Network.members, Instance.identity])]
    rfl
  · rw [if_neg ho, List.filter_cons_of_pos]
    · rfl
    · have hne : (net₀.replica i).hostName ≠ (net₀.members o).hostName := fun heq => ho (h₀.hostNames heq).symm
      simpa using hne

theorem not_born (hidents : Function.Injective fun s => (c s).ident) (hcause : cause.instance_ = (c o).ident)
    (hlt : cause.event < (N o).allocated) {s : Site n} {e : RmgDEvent} (he : l.event c N = some (s, e)) :
    e.cause ≠ cause := by
  rintro rfl
  have hc := NetTraffic.cause_of_event he
  obtain rfl : s = o := hidents ((congrArg Cause.instance_ hc).symm.trans hcause)
  exact absurd (congrArg Cause.event hc) (Nat.ne_of_lt hlt)

/-! ### Runs -/

/-- The state of a run after the failure was handled. -/
private structure Spreading (net₀ net : Network n) (o : Site n) (cause : Cause) : Prop where
  steady : Steady net₀ net
  born : cause.event < (net.traffic o).allocated
  spread : net.traffic.Has (spread net₀.members o cause)
  once : (net.traffic.tally cause).Once o

private theorem knows_iff (hidents : Function.Injective fun s => (net.members s).ident)
    (hcause : cause.instance_ = (net.members o).ident) :
    net.Knows cause ↔ (net.traffic.tally cause).Known o := by
  unfold Network.Knows Tally.Known
  refine or_congr ⟨fun h => ?_, ?_⟩ Iff.rfl
  · exact hidents (hcause.symm.trans h)
  · rintro rfl
    exact hcause

private theorem Spreading.step (h₀ : net₀.Settled) (hcause : cause.instance_ = (net₀.members o).ident)
    (h : Spreading net₀ net o cause) (hs : Network.Step AllSucceed glib net l net') (hnoEcho : net.NoEcho cause l) :
    Spreading net₀ net' o cause := by
  obtain ⟨hsteady, hconnect, units, -, hm⟩ := h.steady.step h₀ hs
  have hmode : ∀ s, (net₀.members s).runMode = s.runMode := h₀.start.runMode
  have hborn : ∀ s e, l.event net₀.members net.traffic = some (s, e) → e.cause ≠ cause := fun s e he =>
    not_born h₀.start.idents hcause h.born he
  obtain ⟨htally, hdispatch⟩ := step_of_move hmode h₀.hostNames h.spread (fun i => told_of_settled h₀ h.steady o i)
    hborn hconnect hm
  refine ⟨hsteady, Nat.lt_of_lt_of_le h.born (NetTraffic.allocated_of_move hm o), ?_, h.once.step htally fun hlt => ?_⟩
  · exact h.spread.move (closed_spread net₀.members o cause) hm
      (fun s l' hl e he hc => absurd hc (hborn s e (hl ▸ NetTraffic.event_own he))) fun i hi => absurd hi (hconnect i).1
  · obtain ⟨hl, e, he, ht, hc⟩ := hdispatch hlt
    have hmembers := h.steady.members
    rw [← knows_iff (hmembers ▸ h₀.start.idents) (hmembers ▸ hcause)]
    exact hnoEcho hl e he ht hc

private theorem propagated_of_coming {j : Fin n}
    (hknows : net.Knows cause ↔ (net.traffic.tally cause).Known (.replica j))
    (h : (net.traffic.tally cause).Coming j) : net.Propagated (.replica j) cause := by
  have hpushed : ∀ s, (net.instances s).traffic.failurePushes cause = 0 := fun s => congrFun h.notPushed s
  refine ⟨hpushed _, fun s _ => (hpushed s).trans_le (Nat.zero_le _), fun hc => ?_, fun i => ⟨?_, ?_⟩⟩
  · exfalso
    have hwaiting :
        net.primary.traffic.failuresWaiting cause + (net.replica j).traffic.failuresUp cause = 1 := h.primary
    rw [hc.up j] at hwaiting
    rcases hc.primary with hzero | hknown
    · omega
    · rcases hknows.1 hknown with ho | hlt
      · cases ho
      · exact Nat.lt_irrefl 0 (hlt.trans_eq (hpushed .primary))
  · exact (congrFun h.notSent i).trans_le (Nat.zero_le _)
  · by_cases hi : i = j
    · subst hi
      exact (Nat.le_add_right _ _).trans h.origin
    · exact (h.silent i hi).2.1.trans_le (Nat.zero_le _)

private theorem propagated_of_relayed (h : (net.traffic.tally cause).Relayed o) : net.Propagated o cause := by
  have hprimary : net.primary.traffic.failurePushes cause = Tally.notOrigin o .primary := h.primary
  have hreplica : ∀ i, o ≠ .replica i → net.primary.traffic.failuresDown cause i +
      (net.replica i).traffic.failuresWaiting cause + (net.replica i).traffic.failurePushes cause = 1 :=
    fun i hi => (h.replica i hi).1
  refine ⟨?_, fun s hs => ?_, fun hc s hs => ?_, fun i => ?_⟩
  · cases o with
    | primary => exact hprimary
    | replica j => exact (h.origin j rfl).2.2.1
  · cases s with
    | primary =>
      rw [hprimary]
      unfold Tally.notOrigin
      split <;> omega
    | replica i =>
      have : (net.replica i).traffic.failurePushes cause ≤ 1 := by
        have := hreplica i hs.symm
        omega
      exact this
  · cases s with
    | primary => exact hprimary.trans (if_neg hs.symm)
    | replica i =>
      have hone := hreplica i hs.symm
      rwa [hc.down i, hc.replicas i, Nat.zero_add] at hone
  · by_cases ho : o = .replica i
    · obtain ⟨-, -, -, -, hsent, hle⟩ := h.origin i ho
      exact ⟨hsent.trans_le (Nat.zero_le _), (Nat.le_add_right _ _).trans hle⟩
    · obtain ⟨hone, hsent, hrequested, -⟩ := h.replica i ho
      refine ⟨hsent.le, ?_⟩
      have hrequested' : (net.replica i).traffic.messagesFrom cause = (net.replica i).traffic.failurePushes cause :=
        hrequested
      have := hreplica i ho
      omega

private theorem propagated_of_once (hknows : net.Knows cause ↔ (net.traffic.tally cause).Known o)
    (h : (net.traffic.tally cause).Once o) : net.Propagated o cause := by
  rcases h with ⟨j, rfl, h⟩ | h
  · exact propagated_of_coming hknows h
  · exact propagated_of_relayed h

end Propagation

open Propagation

variable {net₀ net₁ net₂ net : Network n} {glib : GLib} {ls₀ ls : List (NetLabel n)} {o : Site n} {e : RmgDEvent}

/-- In a run in which the primary does not pass on what it knows, a failure that has been handled is pushed on every
other instance once, and not on its own. -/
theorem propagated_once (h₀ : net₀.Settled) (h₁ : Network.Runs AllSucceed glib net₀ ls₀ net₁)
    (he : (net₁.instances o).traffic.inbox.head? = some e) (ht : e.type = .serviceCrashed)
    (hu : (net₁.instances o).HasUnit e.serviceName) (h₂ : Network.Step AllSucceed glib net₁ (.own o .dispatch) net₂)
    (h₃ : Transition.Run (fun net l net' => Network.Step AllSucceed glib net l net' ∧ net.NoEcho e.cause l)
      net₂ ls net) :
    net.Propagated o e.cause := by
  have hmode : ∀ s, (net₀.members s).runMode = s.runMode := h₀.start.runMode
  have hsteady₁ : Steady net₀ net₁ := h₁.invariant (I := Steady net₀) (steady_start h₀)
    fun _ _ _ h hs => (h.step h₀ hs).1
  have hcause : e.cause.instance_ = (net₀.members o).ident :=
    (hsteady₁.plain o).inbox e (List.mem_of_mem_head? he) ht
  have hbefore : Steady net₀ net₁ ∧ Before o e.cause net₁.traffic := by
    refine h₁.invariant (I := fun net => Steady net₀ net ∧ Before o e.cause net.traffic) ⟨steady_start h₀, ?_⟩ ?_
    · by_cases hle : (net₀.traffic o).allocated ≤ e.cause.event
      · exact .unborn hle fun s => (h₀.start.idle s).has _
      · exact .other (Nat.lt_of_not_le hle) fun s => (h₀.start.idle s).has _
    · rintro net l net' ⟨hsteady, hbefore⟩ hs
      obtain ⟨hsteady', hconnect, units, -, hm⟩ := hsteady.step h₀ hs
      exact ⟨hsteady', hbefore.move h₀.start.idents hcause (fun i => (hconnect i).1) hm⟩
  obtain ⟨hsteady₂, -, units, hunits, hm⟩ := hsteady₁.step h₀ h₂
  rw [← hunits o .dispatch rfl] at hu
  obtain ⟨hborn, hspread, honce⟩ := spread_of_dispatch hmode
    (fun i => told_of_settled h₀ hsteady₁ o i) hbefore.2 he ht hu hm
  have hspreading : Spreading net₀ net o e.cause :=
    h₃.invariant (I := fun net => Spreading net₀ net o e.cause) ⟨hsteady₂, hborn, hspread, honce⟩
      fun _ _ _ h hs => h.step h₀ hcause hs.1 hs.2
  have hmembers := hspreading.steady.members
  exact propagated_of_once (knows_iff (hmembers ▸ h₀.start.idents) (hmembers ▸ hcause)) hspreading.once

/-! ### An echo -/

/-- A unit whose only action is to restart the service. -/
def failingUnit : List Tag := Tag.unit "a.service" [] [("resetService", "1", "false")]

/-- A primary that has ingested it, and a replica without units. -/
def failingPair : Network 1 :=
  .pair { initial .primary "host" with
    journal := (booted (.reading [failingUnit]) (initial .primary "host") [failingUnit]).journal }
    (initial .replica "container")

theorem failingPair_settled : failingPair.Settled where
  start := Network.start_pair rfl rfl (idle_initial .primary "host" _) (idle_initial .replica "container" .empty)
  hostNames s s' h := by
    cases s with
    | primary =>
      cases s' with
      | primary => rfl
      | replica i => exact absurd h (by simp [failingPair, Network.pair, initial])
    | replica i =>
      cases s' with
      | primary => exact absurd h (by simp [failingPair, Network.pair, initial])
      | replica j => rw [Subsingleton.elim i j]
  connected _ := rfl
  clients i := by
    rw [Subsingleton.elim i 0]
    exact List.mem_singleton_self _

/-- The failure of the primary's service. -/
def failure : RmgDEvent := ⟨.serviceCrashed, some "a.service", none, none, ⟨0, 0⟩⟩

/-- The service of the primary crashes, and the primary handles it. -/
theorem exists_failed (ls : List (NetLabel 1)) (p : Network 1 → Bool)
    (h : ((failingPair.next (.reading [failingUnit]) (.own .primary (.crash "a.service"))).bind fun net₁ =>
      (net₁.next (.reading [failingUnit]) (.own .primary .dispatch)).bind fun net₂ =>
        (ls.foldlM (Network.next (.reading [failingUnit])) net₂).filter fun net =>
          net₁.primary.traffic.inbox.head? = some failure ∧ net₁.primary.journal.hashOf "a.service" ≠ 0 ∧
            p net).isSome) :
    ∃ net₁ net₂ net : Network 1,
      Network.Runs AllSucceed (.reading [failingUnit]) failingPair [.own .primary (.crash "a.service")] net₁ ∧
      net₁.primary.traffic.inbox.head? = some failure ∧ net₁.primary.HasUnit failure.serviceName ∧
      Network.Step AllSucceed (.reading [failingUnit]) net₁ (.own .primary .dispatch) net₂ ∧
      Network.Runs AllSucceed (.reading [failingUnit]) net₂ ls net ∧ p net := by
  obtain ⟨net, h⟩ := Option.isSome_iff_exists.1 h
  obtain ⟨net₁, h₁, h⟩ := Option.bind_eq_some_iff.1 h
  obtain ⟨net₂, h₂, h⟩ := Option.bind_eq_some_iff.1 h
  obtain ⟨h₃, hfacts⟩ := Option.filter_eq_some_iff.1 h
  obtain ⟨he, hu, hp⟩ := of_decide_eq_true hfacts
  exact ⟨net₁, net₂, net, .single (Network.step_of_next allSucceed_true h₁), he, ⟨_, rfl, hu⟩,
    Network.step_of_next allSucceed_true h₂, Network.runs_of_next allSucceed_true h₃, hp⟩

/-- The replica has been told, and has handled the copy. -/
theorem propagated_once_of_failure : ∃ net : Network 1, net.Propagated .primary failure.cause := by
  obtain ⟨net₁, net₂, net, h₁, he, hu, h₂, h₃, -⟩ :=
    exists_failed [.toReplica 0, .own (.replica 0) .dispatch] (fun _ => true) (by decide +kernel)
  refine ⟨net, propagated_once failingPair_settled h₁ he rfl hu h₂ (h₃.restrict fun l hl _ h => ?_)⟩
  subst h
  simp at hl

/-- The copy that the replica sends back comes to it again. -/
theorem echo_pushes_twice : ¬ ∀ (n : Nat) (glib : GLib) (net₀ net₁ net₂ net : Network n) (ls₀ ls : List (NetLabel n))
    (o : Site n) (e : RmgDEvent), net₀.Settled → Network.Runs AllSucceed glib net₀ ls₀ net₁ →
    (net₁.instances o).traffic.inbox.head? = some e → e.type = .serviceCrashed →
    (net₁.instances o).HasUnit e.serviceName → Network.Step AllSucceed glib net₁ (.own o .dispatch) net₂ →
    Network.Runs AllSucceed glib net₂ ls net → net.Propagated o e.cause := by
  intro h
  obtain ⟨net₁, net₂, net, h₁, he, hu, h₂, h₃, htwice⟩ :=
    exists_failed [.toReplica 0, .own (.replica 0) .dispatch, .toPrimary 0, .own .primary .dispatch, .toReplica 0,
      .own (.replica 0) .dispatch] (fun net => (net.replica 0).traffic.failurePushes failure.cause = 2)
        (by decide +kernel)
  have honce := (h 1 _ _ _ _ _ _ _ _ _ failingPair_settled h₁ he rfl hu h₂ h₃).once (.replica 0) (by simp)
  rw [show (net.instances (.replica 0)).traffic.failurePushes failure.cause = 2 from of_decide_eq_true htwice] at honce
  exact absurd honce (by decide)

end RecoveryManager
