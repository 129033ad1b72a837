import RecoveryManager.Streams

/-!
# The network on byte streams

The network one level down: its instances are connected by streams of bytes, which may arrive in any pieces as long as
no read comes back short.  If no name is too long, it is the network of messages (`streams_carry_messages`).
-/

namespace RecoveryManager

open Fallible Fallible.Prog ByteStream Instance

variable {n : Nat}

/-- The instances with their streams. -/
structure StreamNetwork (n : Nat) where
  ends : Site n → Endpoint
  connected : Fin n → Bool

namespace StreamNetwork

variable (net : StreamNetwork n)

abbrev primary : Endpoint := net.ends .primary

abbrev replica (i : Fin n) : Endpoint := net.ends (.replica i)

def set (s : Site n) (x : Endpoint) : StreamNetwork n := { net with ends := Function.update net.ends s x }

def Accepted (i : Fin n) : Prop := ∃ c ∈ net.primary.inst.clients, c.sockfd = i.val

/-- A replica that is not connected writes nothing. -/
def Connects (s : Site n) (x : Endpoint) : Prop :=
  match s with
  | .primary => True
  | .replica i => net.connected i = false → x.manager = (net.replica i).manager

/-- The primary has read a message of the replica. -/
def afterRead (i : Fin n) (c : Wire.Link) : StreamNetwork n :=
  net.set (.replica i) { net.replica i with manager := (net.replica i).manager.afterRead c }

/-- The replica has read a message of the primary. -/
def afterDelivery (i : Fin n) (c : Wire.Link) : StreamNetwork n :=
  net.set .primary { net.primary with
    client := Function.update net.primary.client i ((net.primary.client i).afterRead c) }

/-- A step; `name` is how the memory of a name reads as a string. -/
inductive Step (A : Op → Bool → Prop) (glib : GLib) (name : List Byte → String) (net : StreamNetwork n) :
    NetLabel n → StreamNetwork n → Prop
  | own {s : Site n} {l : Label} {x : Endpoint} : l.Own s → (net.ends s).StepUnder A glib l x → net.Connects s x →
      Step A glib name net (.own s l) (net.set s x)
  | toPrimary {i : Fin n} {pieces : List (List Byte)} {c : Wire.Link} {w : Instance} :
      (net.replica i).manager.ArrivesIn pieces → net.Accepted i → net.primary.inst.running →
      (Wire.Receiver.client i).sourceCallback name (net.replica i).manager.cause ⟨pieces, []⟩ net.primary.inst =
        (true, c, w) →
      Step A glib name net (.toPrimary i) ((net.afterRead i c).set .primary { net.primary with inst := w })
  | toReplica {i : Fin n} {pieces : List (List Byte)} {c : Wire.Link} {w : Instance} :
      (net.primary.client i).ArrivesIn pieces → (net.replica i).inst.running →
      Wire.Receiver.manager.sourceCallback name (net.primary.client i).cause ⟨pieces, []⟩ (net.replica i).inst =
        (true, c, w) →
      Step A glib name net (.toReplica i) ((net.afterDelivery i c).set (.replica i) { net.replica i with inst := w })
  | connect {i : Fin n} : net.connected i = false →
      Step A glib name net (.connect i)
        { net.set (.replica i)
            (Endpoint.apply (.managerSend (Network.descriptor (net.replica i).inst)) true (net.replica i)).2 with
          connected := Function.update net.connected i true }
  | accept {i : Fin n} : net.connected i → ¬ net.Accepted i →
      Step A glib name net (.accept i) (net.set .primary { net.primary with
        inst := { net.primary.inst with clients := net.primary.inst.clients ++ [⟨i, none⟩] } })

abbrev Runs (A : Op → Bool → Prop) (glib : GLib) (name : List Byte → String) :
    StreamNetwork n → List (NetLabel n) → StreamNetwork n → Prop :=
  Transition.Run (Step A glib name)

/-- The network with the messages that are in its streams. -/
structure Refines (net : StreamNetwork n) (net' : Network n) : Prop where
  ends : ∀ s, (net.ends s).Refines (net'.instances s)
  connected : net.connected = net'.connected

end StreamNetwork

/-! ### What is sent is proper -/

/-- The names of an event go into messages as they are. -/
structure RmgDEvent.Fits (e : RmgDEvent) : Prop where
  service : ∀ name, e.serviceName = some name → RecoveryManager.Fits name
  process : ∀ name, e.processName = some name → RecoveryManager.Fits name
  context : ∀ name, e.contextName = some name → RecoveryManager.Fits name

def Label.Fits : Label → Prop
  | .crash service | .restarted service => RecoveryManager.Fits service
  | .newCrash process context => RecoveryManager.Fits process ∧ RecoveryManager.Fits context
  | _ => True

/-- The names that an instance hears from outside. -/
def NetLabel.Fits : NetLabel n → Prop
  | .own _ l => l.Fits
  | _ => True

def Shape.proper : Shape where
  event e := Shape.named.event e ∧ e.Fits
  job job := Shape.named.job job ∧ ∀ name, job.serviceName = some name → Fits name
  push type e := Shape.named.push type e ∧ e.Fits
  up := RmgMessage.Proper
  down _ := RmgMessage.Proper

/-- A message about a service. -/
private theorem proper_of_service {type : RmgMessageType} {service context : Option String} (cause : Cause)
    (ht : type.arguments = [.serviceName, .contextName]) (hs : service.isSome) (hc : context.isSome)
    (hservice : ∀ name, service = some name → Fits name) (hcontext : ∀ name, context = some name → Fits name) :
    RmgMessage.Proper ⟨type, none, service, context, cause⟩ := by
  obtain ⟨s, rfl⟩ := Option.isSome_iff_exists.1 hs
  obtain ⟨c, rfl⟩ := Option.isSome_iff_exists.1 hc
  refine ⟨⟨?_, ?_⟩, ?_, ?_⟩ <;> dsimp only <;> rw [ht]
  · simp
  · simp [Wire.Argument.isName]
  · simp only [List.mem_cons, List.not_mem_nil, or_false, forall_eq_or_imp, forall_eq]
    exact ⟨⟨s, rfl, hservice s rfl⟩, c, rfl, hcontext c rfl⟩
  · intro a ha
    cases a <;> first | rfl | simp at ha

private theorem proper_of_process {process context : Option String} (cause : Cause)
    (hp : process.isSome) (hc : context.isSome)
    (hprocess : ∀ name, process = some name → Fits name) (hcontext : ∀ name, context = some name → Fits name) :
    RmgMessage.Proper ⟨.informProcessCrash, process, none, context, cause⟩ := by
  obtain ⟨p, rfl⟩ := Option.isSome_iff_exists.1 hp
  obtain ⟨c, rfl⟩ := Option.isSome_iff_exists.1 hc
  refine ⟨?_, ?_, ?_⟩
  · exact show Wire.CarriesNames .informProcessCrash from ⟨by decide, by decide⟩
  · simp only [RmgMessageType.arguments, List.mem_cons, List.not_mem_nil, or_false, forall_eq_or_imp, forall_eq]
    exact ⟨⟨p, rfl, hprocess p rfl⟩, c, rfl, hcontext c rfl⟩
  · intro a ha
    cases a <;> first | rfl | simp [RmgMessageType.arguments] at ha

private theorem proper_descriptor {name : String} (h : Fits name) (cause : Cause) :
    RmgMessage.Proper ⟨.replicaDescriptor, none, none, some name, cause⟩ := by
  refine ⟨?_, ?_, ?_⟩
  · exact show Wire.CarriesNames .replicaDescriptor from ⟨by decide, by decide⟩
  · simp only [RmgMessageType.arguments, List.mem_singleton, forall_eq]
    exact ⟨name, rfl, h⟩
  · intro a ha
    cases a <;> first | rfl | simp [RmgMessageType.arguments] at ha

/-- The names that a proper message has fit. -/
private theorem RmgMessage.Proper.fits {msg : RmgMessage} (h : msg.Proper) (a : Wire.Argument) {name : String}
    (hn : msg.argument a = some name) : Fits name := by
  by_cases ha : a ∈ msg.type.arguments
  · obtain ⟨name', hname, hfits⟩ := h.names a ha
    rw [hn] at hname
    cases hname
    exact hfits
  · rw [h.others a ha] at hn
    cases hn

private theorem RmgMessage.Proper.named {msg : RmgMessage} (h : msg.Proper) : msg.Named := by
  have hsome : ∀ a ∈ msg.type.arguments, (msg.argument a).isSome := fun a ha => by
    obtain ⟨name, hname, -⟩ := h.names a ha
    rw [hname]
    rfl
  refine ⟨?_, ?_, ?_⟩
  · rintro (ht | ht) <;> rw [ht] at hsome <;> exact ⟨hsome .serviceName (by decide), hsome .contextName (by decide)⟩
  · intro ht
    rw [ht] at hsome
    exact ⟨hsome .processName (by decide), hsome .contextName (by decide)⟩
  · rintro (ht | ht | ht) <;> rw [ht] at hsome <;> exact hsome .serviceName (by decide)

private theorem tells_proper {c : Identity} {e : RmgDEvent}
    (hnamed : Shape.named.Tells c e) (hs : e.serviceName.isSome) (hc : e.contextName.isSome) (he : e.Fits) :
    Shape.proper.Tells c e where
  down _ _ := proper_of_service e.cause rfl hs hc he.service he.context
  up _ := proper_of_service e.cause rfl hs hc he.service he.context
  push hne := ⟨hnamed.push hne, he⟩

theorem closed_proper (c : Members n) (hhost : ∀ s, Fits (c s).hostName) :
    NetTraffic.Closed (fun _ => Shape.proper) c where
  site s := {
    job := fun type e h => ⟨((closed_named c).site s).job type e h.1, h.2.service⟩
    processCrash := fun e he ht => ⟨⟨(((closed_named c).site s).processCrash e he.1 ht).1, he.2⟩, fun _ _ =>
      have hn := he.1.process ht
      proper_of_process e.cause hn.1 hn.2 he.2.process he.2.context⟩
    serviceFailed := fun e he ht =>
      have hn := he.1.failed ht
      tells_proper (((closed_named c).site s).serviceFailed e he.1 ht) hn.1 hn.2 he.2
    crashed := fun e he ht =>
      have hcrashed := ((closed_named c).site s).crashed e he.1 ht
      ⟨fun type kind hk => ⟨hcrashed.1 type kind hk, he.2⟩,
        tells_proper hcrashed.2 (he.1.crash ht) rfl
          ⟨he.2.service, he.2.process, fun name hname => Option.some.inj hname ▸ hhost s⟩⟩
    remote := fun e he kind hk => ⟨((closed_named c).site s).remote e he.1 kind hk, he.2⟩
    execute := fun _ job hj type ht => by
      have hs : job.serviceName.isSome := hj.1 (by rw [ht]; rfl)
      have hargs : type.arguments = [.serviceName, .contextName] := by
        cases hk : job.type <;> rw [hk] at ht <;> cases ht <;> rfl
      exact proper_of_service job.cause hargs hs rfl hj.2 fun name hname => Option.some.inj hname ▸ hhost s }
  toPrimary i msg type hm ht := by
    have hm : msg.Proper := hm
    exact ⟨(closed_named c).toPrimary i msg type hm.named ht, fun _ => hm.fits .serviceName, fun _ h => (by cases h),
      fun _ => hm.fits .contextName⟩
  toReplica i msg hm := by
    have hm : msg.Proper := hm
    have h := (closed_named c).toReplica i msg hm.named
    exact ⟨fun ht => ⟨h.1 ht, fun _ h => (by cases h), fun _ => hm.fits .processName, fun _ => hm.fits .contextName⟩,
      fun ht => ⟨h.2 ht, fun _ => hm.fits .serviceName, fun _ h => (by cases h), fun _ => hm.fits .contextName⟩⟩

/-! ### Runs -/

namespace StreamNetwork

variable {A : Op → Bool → Prop} {glib : GLib} {name : List Byte → String} {l : NetLabel n} {net net₁ : StreamNetwork n}
  {net' : Network n}

theorem Refines.set (h : net.Refines net') {s : Site n} {x : Endpoint} {w : Instance} (hx : x.Refines w) :
    (net.set s x).Refines (net'.set s w) := by
  refine ⟨fun s' => ?_, h.connected⟩
  show Endpoint.Refines (Function.update net.ends s x s') (Function.update net'.instances s w s')
  by_cases hs : s' = s
  · subst hs
    rw [Function.update_self, Function.update_self]
    exact hx
  · rw [Function.update_of_ne hs, Function.update_of_ne hs]
    exact h.ends s'

private theorem Refines.accepted_iff (h : net.Refines net') (i : Fin n) : net'.Accepted i ↔ net.Accepted i := by
  unfold Network.Accepted StreamNetwork.Accepted
  rw [Network.primary, (h.ends .primary).inst]

/-- The stream holds a message if one can be read from it. -/
private theorem exists_of_arrivesIn {x : Stream} {ms : List RmgMessage} (hx : x.Carries ms) {pieces : List (List Byte)}
    (hp : x.ArrivesIn pieces) : ∃ msg rest, ms = msg :: rest := by
  cases ms with
  | nil =>
    have hlen := congrArg List.length (flatten_readv 20 pieces)
    rw [hp.flatten, hx.bytes, List.length_append, show (readv 20 pieces).1.length = 20 from hp.header] at hlen
    simp at hlen
  | cons msg rest => exact ⟨msg, rest, rfl⟩

/-- What is kept: all messages are proper. -/
structure Kept (net' : Network n) : Prop where
  sound : net'.Sound
  proper : net'.traffic.Has fun _ => Shape.proper
  host : ∀ s, Fits (net'.members s).hostName

private theorem proper_of_event {c : Identity} {k : EventRef} {l : Label} {e : RmgDEvent} (hl : l.Fits)
    (he : l.event c k = some e) : Shape.proper.event e := by
  refine ⟨named_of_event he, ?_⟩
  cases l with
  | crash | restarted =>
    cases he
    exact ⟨fun _ hname => Option.some.inj hname ▸ hl, fun _ hname => (by cases hname), fun _ hname => (by cases hname)⟩
  | newCrash =>
    cases he
    exact ⟨fun _ hname => (by cases hname), fun _ hname => Option.some.inj hname ▸ hl.1,
      fun _ hname => Option.some.inj hname ▸ hl.2⟩
  | _ => cases he

theorem Kept.step (hA : ∀ op e, A op e → SendsSucceed op e) {net₁' : Network n} (h : Kept net') (hl : l.Fits)
    (hs : Network.Step A glib net' l net₁') : Kept net₁' := by
  obtain ⟨⟨units, -, hm⟩, hsound⟩ := Network.move_of_step hA hs h.sound
  refine ⟨hsound, ?_, ?_⟩
  · refine h.proper.move (closed_proper net'.members h.host) hm (fun s l' hl' e he => ?_)
      fun i _ cause _ => proper_descriptor (h.host _) cause
    subst hl'
    exact proper_of_event hl he
  · rw [hs.members]
    exact h.host

/-- What an instance sends on its own is proper. -/
private theorem Kept.not_misfit (hA : ∀ op e, A op e → SendsSucceed op e) (h : Kept net') {s : Site n} {l : Label}
    {w : Instance} (hown : l.Own s) (hl : l.Fits) (hs : StepUnder A glib (net'.instances s) l w) :
    ¬ Endpoint.Misfit w := by
  obtain ⟨⟨units, -, hm⟩, -⟩ := traffic_of_stepUnder hA hs hown.ne_restart (h.sound.linked s)
    (h.sound.named s).inbox fun _ => (h.sound.named s).work
  have hproper := (h.proper s).move ((closed_proper net'.members h.host).site s) hown
    (fun _ e he => (h.proper s).inbox e (List.mem_of_mem_head? he)) (fun e he => proper_of_event hl he) hm
  rintro ⟨msg, hmem | ⟨k, hmem⟩, hnot⟩
  · exact hnot (hproper.toManager msg hmem)
  · exact hnot (hproper.toClient k msg hmem)

/-- A replica that has written nothing has sent nothing. -/
private theorem Refines.connects (h : net.Refines net') {s : Site n} {x : Endpoint} {w : Instance} (hx : x.Refines w)
    (hpre : (net'.instances s).toManager <+: w.toManager) (hc : net.Connects s x) : net'.Connects s w := by
  cases s with
  | primary => trivial
  | replica i =>
    intro hi
    have hmanager : x.manager = (net.replica i).manager := hc (by rw [h.connected]; exact hi)
    have hcauses : x.manager.causes.length = (net.replica i).manager.causes.length := by rw [hmanager]
    rw [hx.manager.causes, (h.ends (.replica i)).manager.causes, List.length_map, List.length_map] at hcauses
    exact (hpre.eq_of_length hcauses.symm).symm

/-- A replica has sent its descriptor. -/
private theorem Refines.connect (h : net.Refines net') (hkept : Kept net') (i : Fin n) : Refines
    { net.set (.replica i)
        (Endpoint.apply (.managerSend (Network.descriptor (net.replica i).inst)) true (net.replica i)).2 with
      connected := Function.update net.connected i true }
    { net'.set (.replica i) ((net'.replica i).managerSend (Network.descriptor (net'.replica i))) with
      connected := Function.update net'.connected i true } := by
  have hi := h.ends (.replica i)
  have hdescriptor : Network.descriptor (net.replica i).inst = Network.descriptor (net'.replica i) := by
    conv_rhs => rw [Network.replica, hi.inst]
    rfl
  rw [hdescriptor]
  have hproper : (Network.descriptor (net'.replica i)).Proper := proper_descriptor (hkept.host (.replica i)) _
  refine ⟨(h.set (hi.managerSend hproper).2).ends, ?_⟩
  show Function.update net.connected i true = Function.update net'.connected i true
  rw [h.connected]

/-- A step with streams is one with messages. -/
theorem Refines.step (hA : ∀ op e, A op e → SendsSucceed op e) (hA' : ∀ op, A op true)
    (hname : ∀ s, Fits s → name (nameBytes s) = s) (h : net.Refines net') (hkept : Kept net') (hl : l.Fits)
    (hs : Step A glib name net l net₁) : ∃ net₁', Network.Step A glib net' l net₁' ∧ net₁.Refines net₁' := by
  cases hs with
  | @own s l x hown hstep hconnects =>
    obtain ⟨w, hw, hx | hx⟩ := (h.ends s).step hA hA' hown hstep
    · exact ⟨_, .own hown hw (h.connects hx (Endpoint.toManager_prefix hown hw) hconnects), h.set hx⟩
    · exact absurd hx (hkept.not_misfit hA hown hl hw)
  | @toPrimary i pieces c w hp haccepted hrun hcallback =>
    have hi := h.ends (.replica i)
    have hprimary := h.ends .primary
    obtain ⟨msg, rest, hms⟩ := exists_of_arrivesIn hi.manager hp
    have hproper : msg.Proper := (hkept.proper (.replica i)).toManager msg (by
      show msg ∈ (net'.replica i).toManager
      rw [hms]
      exact List.mem_cons_self)
    obtain ⟨c', hread, hcarries⟩ := sourceCallback_of_arrivesIn hname (hms ▸ hi.manager) hproper hp (.client i)
      net.primary.inst
    rw [hread] at hcallback
    obtain ⟨-, hcallback⟩ := Prod.mk.inj hcallback
    obtain ⟨rfl, rfl⟩ := Prod.mk.inj hcallback
    have hafter : (net.afterRead i c').Refines (net'.afterRead i rest) := h.set (hi.read hcarries)
    have hstep : Instance.Step glib net'.primary (.fromReplica i msg)
        (net'.primary.after (clientProcessMessage i msg)) := by
      have hrun' : net'.primary.running := by
        rw [Network.primary, hprimary.inst]
        exact hrun
      show Option.map _ (if net'.primary.running then some (net'.primary, clientProcessMessage i msg) else none) = _
      rw [if_pos hrun']
      rfl
    exact ⟨_, .toPrimary hms ((h.accepted_iff i).2 haccepted) (hstep.under hA'),
      hafter.set (hprimary.processMessage (.client i) msg)⟩
  | @toReplica i pieces c w hp hrun hcallback =>
    have hi := h.ends (.replica i)
    have hprimary := h.ends .primary
    obtain ⟨msg, rest, hms⟩ := exists_of_arrivesIn (hprimary.client i) hp
    have hproper : msg.Proper := (hkept.proper .primary).toClient i msg (by
      show msg ∈ net'.primary.toClient i
      rw [hms]
      exact List.mem_cons_self)
    obtain ⟨c', hread, hcarries⟩ := sourceCallback_of_arrivesIn hname (hms ▸ hprimary.client i) hproper hp .manager
      (net.replica i).inst
    rw [hread] at hcallback
    obtain ⟨-, hcallback⟩ := Prod.mk.inj hcallback
    obtain ⟨rfl, rfl⟩ := Prod.mk.inj hcallback
    have hafter : (net.afterDelivery i c').Refines (net'.afterDelivery i rest) := h.set (hprimary.delivered i hcarries)
    have hstep : Instance.Step glib (net'.replica i) (.fromPrimary msg)
        ((net'.replica i).after (managerProcessMessage msg)) := by
      have hrun' : (net'.replica i).running := by
        rw [Network.replica, hi.inst]
        exact hrun
      show Option.map _ (if (net'.replica i).running then some (net'.replica i, managerProcessMessage msg)
        else none) = _
      rw [if_pos hrun']
      rfl
    exact ⟨_, .toReplica hms (hstep.under hA'), hafter.set (hi.processMessage .manager msg)⟩
  | @connect i hc => exact ⟨_, .connect (h.connected ▸ hc), h.connect hkept i⟩
  | @accept i hc hnew =>
    exact ⟨_, .accept (h.connected ▸ hc) fun hacc => hnew ((h.accepted_iff i).1 hacc),
      h.set ((h.ends .primary).accept ⟨i, none⟩)⟩

/-- A step with messages is one with streams. -/
theorem Refines.step_back (hA : ∀ op e, A op e → SendsSucceed op e) (hname : ∀ s, Fits s → name (nameBytes s) = s)
    {net₁' : Network n} (h : net.Refines net') (hkept : Kept net') (hl : l.Fits)
    (hs : Network.Step A glib net' l net₁') : ∃ net₁, Step A glib name net l net₁ ∧ net₁.Refines net₁' := by
  cases hs with
  | @own s l w hown hstep hconnects =>
    rcases (h.ends s).step_back hA hown hstep with ⟨x, hx, hrefines⟩ | hmisfit
    · refine ⟨_, .own hown hx ?_, h.set hrefines⟩
      cases s with
      | primary => trivial
      | replica i =>
        intro hi
        have hw : w.toManager = (net'.replica i).toManager := hconnects (h.connected ▸ hi)
        have hx := hrefines.manager
        rw [hw] at hx
        exact hx.unique (h.ends (.replica i)).manager
    · exact absurd hmisfit (hkept.not_misfit hA hown hl hstep)
  | @toPrimary i msg rest w hms haccepted hstep =>
    have hi := (h.ends (.replica i)).manager
    have hprimary := h.ends .primary
    obtain ⟨w₀, p, o, w₁, he, hx, ho, rfl⟩ := hstep
    have hrun : net.primary.inst.running := by
      have hrun := running_of_enabled he (by simp)
      rw [Network.primary, hprimary.inst] at hrun
      exact hrun
    cases callback_of_enabled he
    rw [ended_of_exec hA ((Endpoint.calls_processMessage (.client i) msg).mono fun _ h => h.2) hx ho]
    rw [hms] at hi
    have hproper : msg.Proper := (hkept.proper (.replica i)).toManager msg (by
      show msg ∈ (net'.replica i).toManager
      rw [hms]
      exact List.mem_cons_self)
    have hp := arrivesIn_fields hproper hi.bytes
    obtain ⟨c, hread, hcarries⟩ := sourceCallback_of_arrivesIn hname hi hproper hp (.client i) net.primary.inst
    have hafter : (net.afterRead i c).Refines (net'.afterRead i rest) := h.set ((h.ends (.replica i)).read hcarries)
    exact ⟨_, .toPrimary hp ((h.accepted_iff i).1 haccepted) hrun hread,
      hafter.set (hprimary.processMessage (.client i) msg)⟩
  | @toReplica i msg rest w hms hstep =>
    have hi := h.ends (.replica i)
    have hprimary := (h.ends .primary).client i
    obtain ⟨w₀, p, o, w₁, he, hx, ho, rfl⟩ := hstep
    have hrun : (net.replica i).inst.running := by
      have hrun := running_of_enabled he (by simp)
      rw [Network.replica, hi.inst] at hrun
      exact hrun
    cases callback_of_enabled he
    rw [ended_of_exec hA ((Endpoint.calls_processMessage .manager msg).mono fun _ h => h.2) hx ho]
    rw [hms] at hprimary
    have hproper : msg.Proper := (hkept.proper .primary).toClient i msg (by
      show msg ∈ net'.primary.toClient i
      rw [hms]
      exact List.mem_cons_self)
    have hp := arrivesIn_fields hproper hprimary.bytes
    obtain ⟨c, hread, hcarries⟩ := sourceCallback_of_arrivesIn hname hprimary hproper hp .manager (net.replica i).inst
    have hafter : (net.afterDelivery i c).Refines (net'.afterDelivery i rest) :=
      h.set ((h.ends .primary).delivered i hcarries)
    exact ⟨_, .toReplica hp hrun hread, hafter.set (hi.processMessage .manager msg)⟩
  | @connect i hc => exact ⟨_, .connect (h.connected ▸ hc), h.connect hkept i⟩
  | @accept i hc hnew =>
    exact ⟨_, .accept (h.connected ▸ hc) fun hacc => hnew ((h.accepted_iff i).2 hacc),
      h.set ((h.ends .primary).accept ⟨i, none⟩)⟩

end StreamNetwork

/-- The network with streams in which nothing has been written. -/
def Network.onStreams (net : Network n) : StreamNetwork n where
  ends s := ⟨net.instances s, ⟨[], []⟩, fun _ => ⟨[], []⟩⟩
  connected := net.connected

namespace StreamNetwork

variable {A : Op → Bool → Prop} {glib : GLib} {name : List Byte → String} {net : Network n} {net₁ : StreamNetwork n}
  {ls : List (NetLabel n)}

private theorem refines_onStreams (h : net.Start) : net.onStreams.Refines net where
  ends s := by
    have hidle := h.idle s
    have hm : (net.instances s).toManager = [] := hidle.toManager
    have hc : ∀ k, (net.instances s).toClient k = [] := hidle.toClient
    refine ⟨rfl, ⟨?_, ?_⟩, fun k => ⟨?_, ?_⟩⟩
    · rw [hm]
      rfl
    · rw [hm]
      rfl
    · rw [hc]
      rfl
    · rw [hc]
      rfl
  connected := rfl

private theorem run_with_messages (hA : ∀ op e, A op e → SendsSucceed op e) (hA' : ∀ op, A op true)
    (hname : ∀ s, Fits s → name (nameBytes s) = s) (h₀ : net.Start) (hhost : ∀ s, Fits (net.members s).hostName)
    (hr : Runs A glib name net.onStreams ls net₁) (hl : ∀ l ∈ ls, l.Fits) :
    ∃ net', Network.Runs A glib net ls net' ∧ net₁.Refines net' ∧ Kept net' := by
  induction hr with
  | nil => exact ⟨net, .nil, refines_onStreams h₀, h₀.sound, fun s => (h₀.idle s).has _, hhost⟩
  | @snoc ls t u l _ hs ih =>
    obtain ⟨net', hr', hrefines, hkept⟩ := ih fun l hm => hl l (List.mem_append_left _ hm)
    have hfits : l.Fits := hl l (List.mem_append_right _ (List.mem_singleton.2 rfl))
    obtain ⟨net'', hs', hrefines'⟩ := hrefines.step hA hA' hname hkept hfits hs
    exact ⟨net'', hr'.snoc hs', hrefines', hkept.step hA hfits hs'⟩

private theorem run_with_streams (hA : ∀ op e, A op e → SendsSucceed op e)
    (hname : ∀ s, Fits s → name (nameBytes s) = s) (h₀ : net.Start) (hhost : ∀ s, Fits (net.members s).hostName)
    {net' : Network n} (hr : Network.Runs A glib net ls net') (hl : ∀ l ∈ ls, l.Fits) :
    ∃ net₁, Runs A glib name net.onStreams ls net₁ ∧ net₁.Refines net' ∧ Kept net' := by
  induction hr with
  | nil => exact ⟨net.onStreams, .nil, refines_onStreams h₀, h₀.sound, fun s => (h₀.idle s).has _, hhost⟩
  | @snoc ls t u l _ hs ih =>
    obtain ⟨net₁, hr₁, hrefines, hkept⟩ := ih fun l hm => hl l (List.mem_append_left _ hm)
    have hfits : l.Fits := hl l (List.mem_append_right _ (List.mem_singleton.2 rfl))
    obtain ⟨net₂, hs₂, hrefines'⟩ := hrefines.step_back hA hname hkept hfits hs
    exact ⟨net₂, hr₁.snoc hs₂, hrefines', hkept.step hA hfits hs⟩

/-- The network on streams of bytes, which may arrive in any pieces as long as no read comes back short, and the network
of messages are the same: if all names that the instances hear of have from 1 to 128 bytes, each run of the one is a
run of the other, with the same steps; the instances are the same, and the bytes that have not been read are those of
the messages that have not been. -/
theorem streams_carry_messages (hA : ∀ op e, A op e → SendsSucceed op e) (hA' : ∀ op, A op true)
    (hname : ∀ s, Fits s → name (nameBytes s) = s) (h₀ : net.Start) (hhost : ∀ s, Fits (net.members s).hostName)
    (hl : ∀ l ∈ ls, l.Fits) :
    (∀ net₁, Runs A glib name net.onStreams ls net₁ → ∃ net', Network.Runs A glib net ls net' ∧ net₁.Refines net') ∧
      ∀ net', Network.Runs A glib net ls net' → ∃ net₁, Runs A glib name net.onStreams ls net₁ ∧ net₁.Refines net' := by
  refine ⟨fun net₁ hr => ?_, fun net' hr => ?_⟩
  · obtain ⟨net', hr', hrefines, -⟩ := run_with_messages hA hA' hname h₀ hhost hr hl
    exact ⟨net', hr', hrefines⟩
  · obtain ⟨net₁, hr₁, hrefines, -⟩ := run_with_streams hA hname h₀ hhost hr hl
    exact ⟨net₁, hr₁, hrefines⟩

/-- The string in the memory of a name, where a terminator happens to follow it. -/
def stringOf (memory : List Byte) : String := (String.fromUTF8? ⟨(memory.map UInt8.ofBitVec).toArray⟩).getD ""

theorem stringOf_nameBytes (s : String) : stringOf (nameBytes s) = s := by
  have hbytes : (nameBytes s).map UInt8.ofBitVec = s.toByteArray.data.toList := by
    unfold nameBytes
    rw [List.map_map, String.toUTF8, toList_byteArray]
    exact List.map_id _
  unfold stringOf
  rw [hbytes]
  unfold String.fromUTF8?
  rw [dif_pos s.isValidUTF8]
  rfl

/-- A process crash on the primary comes to the replica. -/
theorem streams_carry_messages_of_signal : ∃ net₁, Runs SendsSucceed (.reading []) stringOf
    (Network.pair (initial .primary "host") (initial .replica "container")).onStreams
      [.own .primary (.newCrash "process" "host"), .own .primary .dispatch, .toReplica 0, .own (.replica 0) .dispatch]
      net₁ ∧ (net₁.replica 0).inst.executorQueue.length = 1 := by
  have h₀ := Network.start_pair rfl rfl (idle_initial .primary "host" .empty) (idle_initial .replica "container" .empty)
  have hrun : (([.own .primary (.newCrash "process" "host"), .own .primary .dispatch, .toReplica 0,
      .own (.replica 0) .dispatch].foldlM (Network.next (.reading []))
        (Network.pair (initial .primary "host") (initial .replica "container"))).map fun net =>
          (net.replica 0).executorQueue.length) = some 1 := by decide +kernel
  have hhost : ∀ s,
      Fits ((Network.pair (initial .primary "host") (initial .replica "container")).members s).hostName := by
    intro s
    cases s with
    | primary => exact show Fits "host" by decide +kernel
    | replica i => exact show Fits "container" by decide +kernel
  have hsignal : Fits "process" ∧ Fits "host" := by decide +kernel
  obtain ⟨net', hrun, hlen⟩ := Option.map_eq_some_iff.1 hrun
  obtain ⟨net₁, hr, hrefines⟩ := (streams_carry_messages (A := SendsSucceed) (fun _ _ h => h) sendsSucceed_true
    (fun s _ => stringOf_nameBytes s) h₀ hhost (by simp [NetLabel.Fits, Label.Fits, hsignal])).2 net'
      (Network.runs_of_next sendsSucceed_true hrun)
  refine ⟨net₁, hr, ?_⟩
  rw [Network.replica, (hrefines.ends (.replica 0)).inst] at hlen
  exact hlen

end StreamNetwork

end RecoveryManager
