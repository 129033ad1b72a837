import RecoveryManager.Answers

/-!
# The network

One primary and `n` replicas.  A replica writes to its socket on the primary, the primary to the sockets of its
clients; both directions are FIFO, and a message is read as it was written.  An instance takes its steps on its own, so
a run is any interleaving of steps and deliveries.

`NetTraffic.Move` is what a step does to the traffic of all instances (`move_of_step`).  A property of single events,
jobs and messages (`Shape`) that is kept wherever one of them gives rise to another holds in every state reached
(`NetTraffic.Has.move`); the first such property is that all carry the names that are asserted when they are handled
(`Network.Sound`).
-/

namespace RecoveryManager

open Instance

variable {n : Nat}

inductive Site (n : Nat) where
  | primary
  | replica (i : Fin n)
  deriving DecidableEq

def Site.runMode : Site n → RmgRunMode
  | primary => .primary
  | replica _ => .replica

/-- `connected` are the replicas whose `connect` has gone through. -/
structure Network (n : Nat) where
  instances : Site n → Instance
  connected : Fin n → Bool

inductive NetLabel (n : Nat) where
  /-- A step that an instance takes on its own. -/
  | own (s : Site n) (l : Label)
  /-- The primary reads the next message of a replica. -/
  | toPrimary (i : Fin n)
  /-- A replica reads the next message of the primary. -/
  | toReplica (i : Fin n)
  /-- A replica connects and sends its descriptor (`rmg_manager_connect`). -/
  | connect (i : Fin n)
  /-- The primary accepts a replica that has connected. -/
  | accept (i : Fin n)
  deriving DecidableEq

/-- The steps that an instance takes on its own; only the primary has a crash monitor. -/
def Label.Own (s : Site n) : Label → Prop
  | .fromReplica .. | .fromPrimary _ | .restart _ => False
  | .newCrash .. => s = .primary
  | _ => True

instance (s : Site n) (l : Label) : Decidable (l.Own s) := by
  cases l <;> unfold Label.Own <;> infer_instance

theorem Label.Own.ne_restart {s : Site n} {l : Label} (h : l.Own s) (gdir : Option (List UnitFile)) :
    l ≠ .restart gdir := by
  rintro rfl
  exact h

namespace Network

variable (net : Network n)

abbrev primary : Instance := net.instances .primary

abbrev replica (i : Fin n) : Instance := net.instances (.replica i)

def set (s : Site n) (w : Instance) : Network n := { net with instances := Function.update net.instances s w }

/-- The primary has a client for the socket of the replica. -/
def Accepted (i : Fin n) : Prop := ∃ c ∈ net.primary.clients, c.sockfd = i.val

instance (i : Fin n) : Decidable (net.Accepted i) :=
  inferInstanceAs (Decidable (∃ c ∈ net.primary.clients, c.sockfd = i.val))

/-- A replica that is not connected sends nothing. -/
def Connects (s : Site n) (w : Instance) : Prop :=
  match s with
  | .primary => True
  | .replica i => net.connected i = false → w.toManager = (net.replica i).toManager

instance (s : Site n) (w : Instance) : Decidable (net.Connects s w) := by
  cases s <;> unfold Connects <;> infer_instance

/-- `send_descriptor`. -/
def descriptor (w : Instance) : RmgMessage := ⟨.replicaDescriptor, none, none, some w.hostName, ⟨w.ident, w.allocated⟩⟩

/-- The replica `i` with the rest of what it has sent, when the primary has read a message. -/
def afterRead (i : Fin n) (rest : List RmgMessage) : Network n :=
  net.set (.replica i) { net.replica i with toManager := rest }

/-- The primary with the rest of what it has sent to replica `i`. -/
def afterDelivery (i : Fin n) (rest : List RmgMessage) : Network n :=
  net.set .primary { net.primary with toClient := Function.update net.primary.toClient i rest }

/-- A step of the network, with the answers of `A` to statements and sends. -/
inductive Step (A : Op → Bool → Prop) (glib : GLib) (net : Network n) : NetLabel n → Network n → Prop
  | own {s : Site n} {l : Label} {w : Instance} : l.Own s → StepUnder A glib (net.instances s) l w →
      net.Connects s w → Step A glib net (.own s l) (net.set s w)
  | toPrimary {i : Fin n} {msg : RmgMessage} {rest : List RmgMessage} {w : Instance} :
      (net.replica i).toManager = msg :: rest → net.Accepted i →
      StepUnder A glib net.primary (.fromReplica i msg) w →
      Step A glib net (.toPrimary i) ((net.afterRead i rest).set .primary w)
  | toReplica {i : Fin n} {msg : RmgMessage} {rest : List RmgMessage} {w : Instance} :
      net.primary.toClient i = msg :: rest → StepUnder A glib (net.replica i) (.fromPrimary msg) w →
      Step A glib net (.toReplica i) ((net.afterDelivery i rest).set (.replica i) w)
  | connect {i : Fin n} : net.connected i = false →
      Step A glib net (.connect i)
        { net.set (.replica i) ((net.replica i).managerSend (descriptor (net.replica i))) with
          connected := Function.update net.connected i true }
  | accept {i : Fin n} : net.connected i → ¬ net.Accepted i →
      Step A glib net (.accept i) (net.set .primary { net.primary with clients := net.primary.clients ++ [⟨i, none⟩] })

abbrev Runs (A : Op → Bool → Prop) (glib : GLib) : Network n → List (NetLabel n) → Network n → Prop :=
  Transition.Run (Step A glib)

/-- The step for a label, when every statement and every send goes through. -/
def next (glib : GLib) (net : Network n) : NetLabel n → Option (Network n)
  | .own s l =>
    if l.Own s then
      ((net.instances s).step glib l).bind fun w => if net.Connects s w then some (net.set s w) else none
    else none
  | .toPrimary i =>
    match (net.replica i).toManager with
    | [] => none
    | msg :: rest =>
      if net.Accepted i then
        (net.primary.step glib (.fromReplica i msg)).map ((net.afterRead i rest).set .primary)
      else none
  | .toReplica i =>
    match net.primary.toClient i with
    | [] => none
    | msg :: rest => ((net.replica i).step glib (.fromPrimary msg)).map ((net.afterDelivery i rest).set (.replica i))
  | .connect i =>
    if net.connected i = false then
      some { net.set (.replica i) ((net.replica i).managerSend (descriptor (net.replica i))) with
        connected := Function.update net.connected i true }
    else none
  | .accept i =>
    if net.connected i ∧ ¬ net.Accepted i then
      some (net.set .primary { net.primary with clients := net.primary.clients ++ [⟨i, none⟩] })
    else none

variable {net} {net' : Network n} {A : Op → Bool → Prop} {glib : GLib} {l : NetLabel n}

theorem step_of_next (hA : ∀ op, A op true) (h : net.next glib l = some net') : Step A glib net l net' := by
  cases l with
  | own s l =>
    simp only [next] at h
    split at h
    · rename_i hown
      obtain ⟨w, hw, h⟩ := Option.bind_eq_some_iff.1 h
      split at h
      · rename_i hc
        obtain rfl := Option.some.inj h
        exact .own hown (Instance.Step.under hw hA) hc
      · cases h
    · cases h
  | toPrimary i =>
    simp only [next] at h
    split at h
    · cases h
    · rename_i msg rest heq
      split at h
      · rename_i haccepted
        obtain ⟨w, hw, rfl⟩ := Option.map_eq_some_iff.1 h
        exact .toPrimary heq haccepted (Instance.Step.under hw hA)
      · cases h
  | toReplica i =>
    simp only [next] at h
    split at h
    · cases h
    · rename_i msg rest heq
      obtain ⟨w, hw, rfl⟩ := Option.map_eq_some_iff.1 h
      exact .toReplica heq (Instance.Step.under hw hA)
  | connect i =>
    simp only [next] at h
    split at h
    · rename_i hc
      obtain rfl := Option.some.inj h
      exact .connect hc
    · cases h
  | accept i =>
    simp only [next] at h
    split at h
    · rename_i hc
      obtain rfl := Option.some.inj h
      exact .accept hc.1 hc.2
    · cases h

theorem runs_of_next (hA : ∀ op, A op true) {ls : List (NetLabel n)} (h : ls.foldlM (next glib) net = some net') :
    Runs A glib net ls net' :=
  (Transition.Run.of_foldlM h).mono fun _ _ _ => step_of_next hA

/-! ### What does not change -/

def members (net : Network n) (s : Site n) : Identity := (net.instances s).identity

private theorem members_set {s : Site n} {w : Instance} (h : w.identity = net.members s) :
    (net.set s w).members = net.members := by
  funext s'
  show (Function.update net.instances s w s').identity = _
  by_cases hs : s' = s
  · subst hs
    rw [Function.update_self]
    exact h
  · rw [Function.update_of_ne hs]
    rfl

private theorem members_afterRead (i : Fin n) (rest : List RmgMessage) : (net.afterRead i rest).members = net.members :=
  members_set rfl

private theorem members_afterDelivery (i : Fin n) (rest : List RmgMessage) :
    (net.afterDelivery i rest).members = net.members :=
  members_set rfl

private theorem identity_of_stepUnder {w w' : Instance} {l : Label} (h : StepUnder A glib w l w') :
    w'.identity = w.identity := by
  obtain ⟨w₀, p, o, w₁, he, h, -, rfl⟩ := h
  exact FaultyStep.identity ⟨w₀, p, o, w₁, he, h.mono fun _ _ _ => trivial, rfl⟩

theorem Step.members (h : Step A glib net l net') : net'.members = net.members := by
  cases h with
  | own _ hw _ => exact members_set (identity_of_stepUnder hw)
  | @toPrimary i msg rest w _ _ hw =>
    rw [members_set, members_afterRead]
    rw [members_afterRead]
    exact identity_of_stepUnder hw
  | @toReplica i msg rest w _ hw =>
    rw [members_set, members_afterDelivery]
    rw [members_afterDelivery]
    exact identity_of_stepUnder hw
  | connect => exact members_set rfl
  | accept => exact members_set rfl

/-! ### A small network -/

/-- A primary and one replica that it knows. -/
def pair (primary replica : Instance) : Network 1 where
  instances
    | .primary => { primary with clients := [⟨0, some replica.hostName⟩] }
    | .replica _ => { replica with ident := primary.ident + 1 }
  connected _ := true

end Network

end RecoveryManager
