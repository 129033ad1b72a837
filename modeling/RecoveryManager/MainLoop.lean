import RecoveryManager.Executor
import RecoveryManager.Lib.Transition
import RecoveryManager.Messages
import RecoveryManager.Reload

/-!
# The main loop

The steps of one instance.  The process is single-threaded: a source callback runs to its end before the next one, and
which of the ready sources comes next is not determined, so a run is any sequence of steps (`Instance.Runs`).  A
callback of a timeout runs no earlier than its deadline.  Meditation asks the loop to quit, which may let other ready
sources run first; a restart may follow any step.
-/

namespace RecoveryManager

open Fallible Fallible.Prog

inductive Label where
  /-- The service manager reports a monitored service as failed (`rmg-mentry.c`). -/
  | crash (service : String)
  /-- The service manager reports a monitored service as active again. -/
  | restarted (service : String)
  /-- The crash handler announces a process crash (`rmg-crashmonitor.c`). -/
  | newCrash (process context : String)
  /-- A message of the replica behind a socket is read. -/
  | fromReplica (sockfd : Nat) (msg : RmgMessage)
  /-- A message of the primary is read. -/
  | fromPrimary (msg : RmgMessage)
  | dispatch
  | execute
  | expire (id : Nat)
  | tick
  /-- The process ends and comes up again with this content of the units directory. -/
  | restart (gdir : Option (List UnitFile))
  deriving DecidableEq, Repr

/-- `on_properties_changed`. -/
def pushMonitored (type : DispatcherEventType) (service : String) : Proc PUnit := do
  let event ← Prog.call (.newEvent ⟨type, some service, none, none, ⟨0, 0⟩⟩ none) .ret
  rmgDispatcherPushServiceEvent event

/-- `on_manager_signal` of `rmg-crashmonitor.c`. -/
def pushNewCrash (process context : String) : Proc PUnit := do
  let event ← Prog.call (.newEvent ⟨.informProcessCrash, none, some process, some context, ⟨0, 0⟩⟩ none) .ret
  rmgDispatcherPushServiceEvent event

/-- The callback of a timeout. -/
def timerCallback : TimerData → Proc PUnit
  | .relax relaxtimer => relaxtimerCallback relaxtimer
  | .friend ftimer => friendtimerCallback ftimer

/-- `rmg_application_new` as far as the journal goes, and the start of the relax timers by the monitor. -/
def boot (glib : GLib) (gdir : Option (List UnitFile)) : Proc PUnit := do
  let _ ← rmgJournalReloadUnits glib gdir
  monitorStartRelaxTimers

namespace Instance

/-- What is left when the process ends: the tables.  The ghost counters and the trace go on. -/
def restarted (w : Instance) : Instance :=
  { w with
    dispatcherQueue := []
    executorQueue := []
    clients := []
    toClient := fun _ => []
    toManager := []
    sources := []
    running := true }

/-- The callback a label calls, and the state it starts in, when the label is enabled. -/
def enabled (glib : GLib) (w : Instance) : Label → Option (Instance × Proc PUnit)
  | .restart gdir => some (w.restarted, boot glib gdir)
  | l =>
    if w.running then
      match l with
      | .crash service => some (w, pushMonitored .serviceCrashed service)
      | .restarted service => some (w, pushMonitored .serviceRestarted service)
      | .newCrash process context => some (w, pushNewCrash process context)
      | .fromReplica sockfd msg => some (w, clientProcessMessage sockfd msg)
      | .fromPrimary msg => some (w, managerProcessMessage msg)
      | .dispatch =>
        match w.dispatcherQueue with
        | [] => none
        | event :: queue => some ({ w with dispatcherQueue := queue }, dispatcherSourceCallback event)
      | .execute =>
        match w.executorQueue with
        | [] => none
        | (type, event) :: queue => some ({ w with executorQueue := queue }, executorSourceCallback type event)
      | .expire id =>
        match w.sources.find? fun s => s.id = id ∧ s.deadline ≤ w.now with
        | none => none
        | some source =>
          some ({ w with sources := w.sources.filter (· ≠ source) }.emit (.timeoutExpired source),
            timerCallback source.data)
      | .tick => some ({ w with now := w.now + 1 }, pure ⟨⟩)
      | .restart _ => none
    else none

/-- One step, with every statement and every send going through. -/
def step (glib : GLib) (w : Instance) (l : Label) : Option Instance :=
  (w.enabled glib l).map fun (w₀, p) => w₀.after p

def Step (glib : GLib) (w : Instance) (l : Label) (w' : Instance) : Prop := w.step glib l = some w'

abbrev Runs (glib : GLib) : Instance → List Label → Instance → Prop := Transition.Run (Step glib)

/-- One step in which statements and sends may fail and the process may die at any operation. -/
def FaultyStep (glib : GLib) (w : Instance) (l : Label) (w' : Instance) : Prop :=
  ∃ w₀ p o w₁, w.enabled glib l = some (w₀, p) ∧ Exec machine (fun _ _ => True) p w₀ o w₁ ∧ w' = ended o w₁

abbrev FaultyRuns (glib : GLib) : Instance → List Label → Instance → Prop := Transition.Run (FaultyStep glib)

variable {glib : GLib} {w w' : Instance} {l : Label}

theorem Step.faulty (h : Step glib w l w') : FaultyStep glib w l w' := by
  obtain ⟨⟨w₀, p⟩, he, rfl⟩ := Option.map_eq_some_iff.1 h
  exact ⟨w₀, p, _, _, he, exec_run machine true (fun _ => trivial) p w₀, rfl⟩

/-- What a label can call, and from which state. -/
inductive Callback (glib : GLib) (w : Instance) : Label → Instance → Proc PUnit → Prop
  | crash (service : String) : Callback glib w (.crash service) w (pushMonitored .serviceCrashed service)
  | restarted (service : String) : Callback glib w (.restarted service) w (pushMonitored .serviceRestarted service)
  | newCrash (process context : String) : Callback glib w (.newCrash process context) w (pushNewCrash process context)
  | fromReplica (sockfd : Nat) (msg : RmgMessage) :
      Callback glib w (.fromReplica sockfd msg) w (clientProcessMessage sockfd msg)
  | fromPrimary (msg : RmgMessage) : Callback glib w (.fromPrimary msg) w (managerProcessMessage msg)
  | dispatch {event : EventRef} {queue : List EventRef} : w.dispatcherQueue = event :: queue →
      Callback glib w .dispatch { w with dispatcherQueue := queue } (dispatcherSourceCallback event)
  | execute {type : ExecutorEventType} {event : EventRef} {queue : List (ExecutorEventType × EventRef)} :
      w.executorQueue = (type, event) :: queue →
      Callback glib w .execute { w with executorQueue := queue } (executorSourceCallback type event)
  | expire {source : GSource} : source ∈ w.sources → source.deadline ≤ w.now →
      Callback glib w (.expire source.id)
        ({ w with sources := w.sources.filter (· ≠ source) }.emit (.timeoutExpired source))
        (timerCallback source.data)
  | tick : Callback glib w .tick { w with now := w.now + 1 } (pure ⟨⟩)
  | restart (gdir : Option (List UnitFile)) : Callback glib w (.restart gdir) w.restarted (boot glib gdir)

theorem callback_of_enabled {w₀ : Instance} {p : Proc PUnit} (h : w.enabled glib l = some (w₀, p)) :
    Callback glib w l w₀ p := by
  cases l with
  | restart gdir =>
    obtain ⟨rfl, rfl⟩ := Prod.mk.inj (Option.some.inj h)
    exact .restart gdir
  | dispatch =>
    simp only [enabled] at h
    split at h
    · split at h
      · cases h
      · rename_i heq
        obtain ⟨rfl, rfl⟩ := Prod.mk.inj (Option.some.inj h)
        exact .dispatch heq
    · cases h
  | execute =>
    simp only [enabled] at h
    split at h
    · split at h
      · cases h
      · rename_i heq
        obtain ⟨rfl, rfl⟩ := Prod.mk.inj (Option.some.inj h)
        exact .execute heq
    · cases h
  | expire id =>
    simp only [enabled] at h
    split at h
    · split at h
      · cases h
      · rename_i source heq
        obtain ⟨rfl, rfl⟩ := Prod.mk.inj (Option.some.inj h)
        have hp := List.find?_some heq
        simp only [Bool.decide_and, Bool.and_eq_true, decide_eq_true_eq] at hp
        obtain ⟨rfl, hd⟩ := hp
        exact .expire (List.mem_of_find?_eq_some heq) hd
    · cases h
  | _ =>
    simp only [enabled] at h
    split at h
    · obtain ⟨rfl, rfl⟩ := Prod.mk.inj (Option.some.inj h)
      constructor
    · cases h

/-- Only a restart is possible when the process is down. -/
theorem running_of_enabled {x : Instance × Proc PUnit} (h : w.enabled glib l = some x)
    (hl : ∀ gdir, l ≠ .restart gdir) : w.running := by
  by_contra hr
  cases l with
  | restart gdir => exact hl gdir rfl
  | _ => simp [enabled, hr] at h

theorem FaultyStep.running (h : FaultyStep glib w l w') (hl : ∀ gdir, l ≠ .restart gdir) : w.running := by
  obtain ⟨w₀, p, o, w₁, he, -, -⟩ := h
  exact running_of_enabled he hl

/-- A step ends where its callback returns, or with the process where the callback is cut short. -/
theorem FaultyStep.ends {Q C : Instance → Prop} (h : FaultyStep glib w l w')
    (hcall : ∀ w₀ p, Callback glib w l w₀ p →
      ∃ P : Instance → Prop, P w₀ ∧ Triple machine (fun _ _ => True) P p (fun _ => Q) C) :
    Q w' ∨ ∃ w₁, C w₁ ∧ w' = { w₁ with running := false } := by
  obtain ⟨w₀, p, o, w₁, he, hx, rfl⟩ := h
  obtain ⟨P, h₀, ht⟩ := hcall w₀ p (callback_of_enabled he)
  have := ht w₀ o w₁ h₀ hx
  cases o with
  | done a => exact .inl this
  | aborted => exact .inr ⟨w₁, this, rfl⟩
  | killed => exact .inr ⟨w₁, this, rfl⟩

/-- The rule for invariants of a step: what starting a callback keeps, the callback keeps, and the end of the process
keeps. -/
theorem FaultyStep.invariant {I : Instance → Prop} (h : FaultyStep glib w l w')
    (hcall : ∀ w₀ p, Callback glib w l w₀ p →
      I w₀ ∧ Triple machine (fun _ _ => True) I p (fun _ => I) I)
    (hend : ∀ w, I w → I { w with running := false }) : I w' := by
  rcases h.ends (fun w₀ p hc => ⟨I, hcall w₀ p hc⟩) with hI | ⟨w₁, hI, rfl⟩
  · exact hI
  · exact hend w₁ hI

/-- An instance that comes up for the first time, with empty tables. -/
structure Fresh (w : Instance) : Prop where
  journal : w.journal = .empty
  dispatcherQueue : w.dispatcherQueue = []
  executorQueue : w.executorQueue = []
  sources : w.sources = []
  trace : w.trace = []

end Instance

end RecoveryManager
