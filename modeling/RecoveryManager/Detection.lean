import Mathlib.Data.List.Perm.Basic
import RecoveryManager.Monitor
import RecoveryManager.UnitSource

/-!
# Detection of failures

When a unit fails, each of its entries with a proxy that has not recorded a failure yet posts one event
(`run_notify`).  So a failure is detected exactly once if the unit has exactly one such entry
(`detected_once_iff`).  That is so as long as a unit is left alone while its proxy is being built
(`detected_once_of_undisturbed`).
-/

namespace RecoveryManager

open Fallible Fallible.Prog

/-! ### States and their names -/

theorem rmgMentryActiveStateFrom_eq_failed_iff (stateName : String) :
    rmgMentryActiveStateFrom stateName = .failed ↔ stateName = "failed" := by
  constructor
  · intro h
    by_contra hne
    unfold rmgMentryActiveStateFrom activeStateNames at h
    rcases hx : List.find? _ _ with _ | x
    · rw [hx] at h
      cases h
    · have hname : x.1 = stateName := by simpa using List.find?_some hx
      have hmem := List.mem_of_find?_eq_some hx
      rw [hx] at h
      subst hname
      simp only [List.mem_cons, List.not_mem_nil, or_false] at hmem
      rcases hmem with rfl | rfl | rfl | rfl | rfl | rfl | rfl <;> first | exact hne rfl | cases h
  · rintro rfl
    decide

/-! ### The posted events -/

/-- A dispatcher event as far as the monitor determines it. -/
abbrev Posting := DispatcherEventType × Option String

def RmgDEvent.posting (e : RmgDEvent) : Posting := (e.type, e.serviceName)

/-- What an entry posts when its unit gets into a state. -/
def RmgMEntry.postings (mentry : RmgMEntry) (stateName : String) : List Posting :=
  (dispatcherEvent mentry.activeState (rmgMentryActiveStateFrom stateName)).toList.map (·, some mentry.serviceName)

def RmgMEntry.follow (mentry : RmgMEntry) (u : UnitState) : RmgMEntry :=
  { mentry with
    activeState := rmgMentryActiveStateFrom u.activeState
    activeSubstate := rmgMentryActiveSubstateFrom u.subState }

/-- The dispatcher queue has grown by these events. -/
structure Posted (w w' : Instance) (postings : List Posting) : Prop where
  queue : ∃ refs, w'.dispatcherQueue = w.dispatcherQueue ++ refs ∧ refs.map (fun r => (w'.heap r).posting) = postings ∧
    ∀ r ∈ refs, r < w'.allocated
  allocated : w.allocated ≤ w'.allocated
  heap : ∀ r < w.allocated, w'.heap r = w.heap r

namespace Posted

variable {w w₁ w₂ : Instance} {ps qs : List Posting}

theorem refl (w : Instance) : Posted w w [] := ⟨⟨[], by simp⟩, Nat.le_refl _, fun _ _ => rfl⟩

theorem trans (h : Posted w w₁ ps) (h' : Posted w₁ w₂ qs) : Posted w w₂ (ps ++ qs) := by
  obtain ⟨refs, hq, hp, hlt⟩ := h.queue
  obtain ⟨refs', hq', hp', hlt'⟩ := h'.queue
  refine ⟨⟨refs ++ refs', ?_, ?_, ?_⟩, Nat.le_trans h.allocated h'.allocated, fun r hr => ?_⟩
  · rw [hq', hq, List.append_assoc]
  · rw [List.map_append, hp', ← hp]
    congr 1
    refine List.map_congr_left fun r hr => ?_
    rw [h'.heap r (hlt r hr)]
  · intro r hr
    rcases List.mem_append.1 hr with hr | hr
    · exact Nat.lt_of_lt_of_le (hlt r hr) h'.allocated
    · exact hlt' r hr
  · rw [h'.heap r (Nat.lt_of_lt_of_le hr h.allocated), h.heap r hr]

theorem pushMonitored (w : Instance) (type : DispatcherEventType) (service : String) :
    ∃ w', w.run (pushMonitored type service) = (some ⟨⟩, w') ∧ Posted w w' [(type, some service)] := by
  refine ⟨_, rfl, ⟨[w.allocated], rfl, ?_, fun r hr => ?_⟩, Nat.le_succ _, fun r hr => ?_⟩
  · show [((Function.update w.heap w.allocated _) w.allocated).posting] = _
    rw [Function.update_self]
    rfl
  · rw [List.mem_singleton.1 hr]
    exact Nat.lt_succ_self _
  · exact Function.update_of_ne (Nat.ne_of_lt hr) _ _

end Posted

variable {w : Instance} {name : String} {properties : List (String × String)} {u : UnitState}

/-- The handler records the state, and posts what the change means. -/
theorem run_onPropertiesChanged (hactive : propertyOf "ActiveState" properties = some u.activeState)
    (hsub : propertyOf "SubState" properties = some u.subState) (w : Instance) (mentry : RmgMEntry) :
    ∃ w', w.run (onPropertiesChanged mentry properties) = (some (mentry.follow u), w') ∧
      Posted w w' (mentry.postings u.activeState) := by
  unfold onPropertiesChanged
  rw [hactive, hsub]
  dsimp only
  by_cases hchange : mentry.activeState ≠ rmgMentryActiveStateFrom u.activeState ∨
      mentry.activeSubstate ≠ rmgMentryActiveSubstateFrom u.subState
  · rw [if_pos hchange]
    unfold RmgMEntry.postings
    cases dispatcherEvent mentry.activeState (rmgMentryActiveStateFrom u.activeState) with
    | none => exact ⟨w, rfl, .refl w⟩
    | some type =>
      obtain ⟨w', hrun, hw⟩ := Posted.pushMonitored w type mentry.serviceName
      exact ⟨w', Instance.run_bind hrun, hw⟩
  · rw [if_neg hchange]
    obtain ⟨ha, hs⟩ := not_or.1 hchange
    rw [not_not] at ha hs
    have hfollow : mentry.follow u = mentry := by
      unfold RmgMEntry.follow
      rw [← ha, ← hs]
    have hpostings : mentry.postings u.activeState = [] := by
      unfold RmgMEntry.postings dispatcherEvent
      rw [← ha, if_neg fun h => h.1 h.2, if_neg fun h => h.1 h.2]
      rfl
    rw [hfollow, hpostings]
    exact ⟨w, rfl, .refl w⟩

/-- Every entry of the unit is notified once. -/
theorem run_notify (hactive : propertyOf "ActiveState" properties = some u.activeState)
    (hsub : propertyOf "SubState" properties = some u.subState) (services : List RmgMEntry) (w : Instance) :
    ∃ w', w.run (notify name properties services) =
        (some (services.map fun e => if e.serviceName = name then e.follow u else e), w') ∧
      Posted w w' ((services.filter (·.serviceName = name)).flatMap (·.postings u.activeState)) := by
  induction services generalizing w with
  | nil => exact ⟨w, rfl, .refl w⟩
  | cons mentry services ih =>
    by_cases hname : mentry.serviceName = name
    · obtain ⟨w₁, hrun₁, h₁⟩ := run_onPropertiesChanged hactive hsub w mentry
      obtain ⟨w₂, hrun₂, h₂⟩ := ih w₁
      refine ⟨w₂, ?_, ?_⟩
      · unfold notify
        rw [if_pos hname, Instance.run_bind hrun₁, Instance.run_bind hrun₂, List.map_cons, if_pos hname]
        rfl
      · rw [List.filter_cons_of_pos (by simpa using hname), List.flatMap_cons]
        exact h₁.trans h₂
    · obtain ⟨w₂, hrun₂, h₂⟩ := ih w
      refine ⟨w₂, ?_, ?_⟩
      · unfold notify
        rw [if_neg hname, List.map_cons, if_neg hname]
        exact Instance.run_bind hrun₂
      · rw [List.filter_cons_of_neg (by simpa using hname)]
        exact h₂

/-- An entry reports a crash when the failed state is news to it. -/
theorem count_postings (mentry : RmgMEntry) (stateName n : String) :
    (mentry.postings stateName).count (.serviceCrashed, some n) =
      if mentry.serviceName = n ∧ stateName = "failed" ∧ mentry.activeState ≠ .failed then 1 else 0 := by
  have hfailed := rmgMentryActiveStateFrom_eq_failed_iff stateName
  unfold RmgMEntry.postings dispatcherEvent
  split_ifs <;> simp_all

/-- The reports of one change, over all entries of the unit. -/
theorem count_notified (services : List RmgMEntry) (stateName name n : String) :
    ((services.filter (·.serviceName = name)).flatMap (·.postings stateName)).count (.serviceCrashed, some n) =
      if n = name ∧ stateName = "failed" then
        services.countP fun e => e.serviceName = name ∧ e.activeState ≠ .failed
      else 0 := by
  induction services with
  | nil => simp
  | cons mentry services ih =>
    by_cases hname : mentry.serviceName = name
    · rw [List.filter_cons_of_pos (by simpa using hname), List.flatMap_cons, List.count_append, ih, count_postings,
        List.countP_cons]
      split_ifs <;> simp_all [Nat.add_comm]
    · rw [List.filter_cons_of_neg (by simpa using hname), ih, List.countP_cons]
      split_ifs <;> simp_all

namespace Monitored

variable {glib : GLib} {m m' : Monitored} {l : UnitLabel}

/-! ### Exactly once -/

/-- No two entries have the same name, and a step of the units posts one crash of every announced service that fails
in it, and no crash of a unit that does not. -/
def DetectsOnce (m : Monitored) (l : UnitLabel) (m' : Monitored) : Prop :=
  (m'.monitor.services.map (·.serviceName)).Nodup ∧
    ((∀ l', l ≠ .main l') → ∃ refs, m'.inst.dispatcherQueue = m.inst.dispatcherQueue ++ refs ∧ ∀ n,
      (m.Fails l n → n ∈ m.announced →
        (refs.map fun r => (m'.inst.heap r).posting).count (.serviceCrashed, some n) = 1) ∧
      (¬ m.Fails l n → (refs.map fun r => (m'.inst.heap r).posting).count (.serviceCrashed, some n) = 0))

/-- A proxy that is ready is the only one for its unit; an announced unit that fails has a proxy and has not been
recorded as failed; and a unit that only stays failed has been recorded so. -/
def Regular (m : Monitored) : UnitLabel → Prop
  | .proxyReady i .ok => ∀ mentry, m.monitor.building[i]? = some mentry →
    ∀ e ∈ m.monitor.services, e.serviceName ≠ mentry.serviceName
  | .changed name properties =>
    (m.Fails (.changed name properties) name → name ∈ m.announced →
      ∃ e ∈ m.monitor.services, e.serviceName = name ∧ e.activeState ≠ .failed) ∧
    (¬ m.Fails (.changed name properties) name → propertyOf "ActiveState" properties = some "failed" →
      ∀ e ∈ m.monitor.services, e.serviceName = name → e.activeState = .failed)
  | _ => True

theorem addService_services (monitor : RmgMonitor) (name : String) (activeState : ServiceActiveState)
    (activeSubstate : ServiceActiveSubstate) :
    (addService monitor name activeState activeSubstate).services = monitor.services := by
  unfold addService
  split
  · split <;> rfl
  · rfl

theorem foldl_addListed (names : List String) (m : Monitored) :
    (names.foldl addListed m).monitor.services = m.monitor.services ∧ (names.foldl addListed m).inst = m.inst ∧
      (names.foldl addListed m).units = m.units := by
  induction names generalizing m with
  | nil => exact ⟨rfl, rfl, rfl⟩
  | cons name names ih =>
    obtain ⟨hs, hi, hu⟩ := ih (m.addListed name)
    exact ⟨hs.trans (addService_services ..), hi, hu⟩

/-- What a step does to the list of entries and to the instance. -/
inductive Effect (m : Monitored) : UnitLabel → Monitored → Prop
  | main {l : Label} {w : Instance} : Effect m (.main l) { m with inst := w }
  | listed {names : List String} {m' : Monitored} : m' = names.foldl addListed m →
      Effect m (.listUnits names) m'
  | announced {name : String} : Effect m (.unitNew name) (m.add name .inactive serviceSubstateDead)
  | ready {i : Nat} {status : RmgStatus} {mentry : RmgMEntry} : m.monitor.building[i]? = some mentry →
      Effect m (.proxyReady i status)
        { m with
          monitor := mentryInitStatus { m.monitor with building := m.monitor.building.eraseIdx i } mentry status }
  | changed {name : String} {properties : List (String × String)} {u : UnitState} {w : Instance} :
      propertyOf "ActiveState" properties = some u.activeState → propertyOf "SubState" properties = some u.subState →
      Posted m.inst w ((m.monitor.services.filter (·.serviceName = name)).flatMap (·.postings u.activeState)) →
      Effect m (.changed name properties)
        { m with
          monitor := { m.monitor with
            services := m.monitor.services.map fun e => if e.serviceName = name then e.follow u else e }
          inst := w
          units := Function.update m.units name u }

theorem effect_of_step (h : Step glib m l m') : Effect m l m' := by
  cases l with
  | main l =>
    simp only [Step, step] at h
    split at h
    · cases h
    · obtain ⟨w, -, rfl⟩ := Option.map_eq_some_iff.1 h
      exact .main
  | listUnits names =>
    simp only [Step, step] at h
    split at h
    · exact .listed (Option.some.inj h).symm
    · cases h
  | unitNew name =>
    simp only [Step, step] at h
    split at h
    · obtain rfl := Option.some.inj h
      exact .announced
    · cases h
  | proxyReady i status =>
    simp only [Step, step] at h
    split at h
    · obtain ⟨mentry, hi, rfl⟩ := Option.map_eq_some_iff.1 h
      exact .ready hi
    · cases h
  | changed name properties =>
    simp only [Step, step] at h
    split at h
    · split at h
      · rename_i activeState subState hactive hsub
        obtain ⟨w, hrun, hw⟩ := @run_notify name properties
          ⟨activeState, subState⟩ hactive hsub m.monitor.services m.inst
        rw [hrun] at h
        obtain rfl := Option.some.inj h
        exact .changed hactive hsub hw
      · cases h
    · cases h

/-- With one entry of a name at most, at most one reports a crash. -/
private theorem reporting_le_one {services : List RmgMEntry} (h : (services.map (·.serviceName)).Nodup)
    (name : String) :
    (services.countP fun e => e.serviceName = name ∧ e.activeState ≠ .failed) ≤ 1 := by
  have hle : (services.countP fun e => e.serviceName = name ∧ e.activeState ≠ .failed) ≤
      services.countP fun e => e.serviceName = name :=
    List.countP_mono_left fun e _ he => by simp_all
  have hcount : (services.countP fun e => e.serviceName = name) = (services.map (·.serviceName)).count name := by
    rw [List.count, List.countP_map]
    exact List.countP_congr fun e _ => by simp
  rw [hcount] at hle
  exact Nat.le_trans hle (List.nodup_iff_count.1 h name)

section changed
variable {name : String} {properties : List (String × String)} {u : UnitState} {w : Instance}

private theorem names_follow (services : List RmgMEntry) (name : String) (u : UnitState) :
    (services.map fun e => if e.serviceName = name then e.follow u else e).map (·.serviceName) =
      services.map (·.serviceName) := by
  rw [List.map_map]
  refine List.map_congr_left fun e _ => ?_
  show (if e.serviceName = name then e.follow u else e).serviceName = e.serviceName
  split <;> rfl

private theorem fails_changed_iff (hactive : propertyOf "ActiveState" properties = some u.activeState) (n : String) :
    m.Fails (.changed name properties) n ↔
      n = name ∧ (m.units name).activeState ≠ "failed" ∧ u.activeState = "failed" := by
  have hstr : propertyOf "ActiveState" properties = some "failed" ↔ u.activeState = "failed" := by
    rw [hactive, Option.some.injEq]
  constructor
  · rintro ⟨rfl, hn, hf⟩
    exact ⟨rfl, hn, hstr.1 hf⟩
  · rintro ⟨rfl, hn, hf⟩
    exact ⟨rfl, hn, hstr.2 hf⟩

/-- A change of properties: the entries of the unit that are not recorded as failed report a failure. -/
private theorem detectsOnce_changed_iff (hm : (m.monitor.services.map (·.serviceName)).Nodup)
    (hactive : propertyOf "ActiveState" properties = some u.activeState)
    (hw : Posted m.inst w ((m.monitor.services.filter (·.serviceName = name)).flatMap (·.postings u.activeState))) :
    m.DetectsOnce (.changed name properties)
        { m with
          monitor := { m.monitor with
            services := m.monitor.services.map fun e => if e.serviceName = name then e.follow u else e }
          inst := w
          units := Function.update m.units name u } ↔
      m.Regular (.changed name properties) := by
  obtain ⟨⟨refs, hq, hp, -⟩, -, -⟩ := hw
  have hposted : ∀ n, (refs.map fun r => (w.heap r).posting).count (.serviceCrashed, some n) =
      if n = name ∧ u.activeState = "failed" then
        m.monitor.services.countP fun e => e.serviceName = name ∧ e.activeState ≠ .failed
      else 0 := by
    intro n
    rw [hp, count_notified]
  have hfails : ∀ n, _ := @fails_changed_iff m name properties u hactive
  -- there is at most one such entry, so that one reports is that the count is 1, and that none does that it is 0
  have hle := reporting_le_one hm name
  have hone : (m.monitor.services.countP fun e => e.serviceName = name ∧ e.activeState ≠ .failed) = 1 ↔
      ∃ e ∈ m.monitor.services, e.serviceName = name ∧ e.activeState ≠ .failed := by
    have hpos := List.countP_pos_iff (l := m.monitor.services)
      (p := fun e => e.serviceName = name ∧ e.activeState ≠ .failed)
    simp only [decide_eq_true_eq] at hpos
    rw [← hpos]
    omega
  have hzero : (m.monitor.services.countP fun e => e.serviceName = name ∧ e.activeState ≠ .failed) = 0 ↔
      ∀ e ∈ m.monitor.services, e.serviceName = name → e.activeState = .failed := by
    rw [List.countP_eq_zero]
    simp
  constructor
  · rintro ⟨-, hd⟩
    obtain ⟨refs', hq', hd⟩ := hd fun _ => UnitLabel.noConfusion
    obtain rfl : refs' = refs := List.append_cancel_left (hq'.symm.trans hq)
    obtain ⟨hcrash, hquiet⟩ := hd name
    rw [hposted name] at hcrash hquiet
    constructor
    · intro hf ha
      rw [if_pos ⟨rfl, ((hfails name).1 hf).2.2⟩] at hcrash
      exact hone.1 (hcrash hf ha)
    · intro hf hfailed
      rw [hactive, Option.some.injEq] at hfailed
      rw [if_pos ⟨rfl, hfailed⟩] at hquiet
      exact hzero.1 (hquiet hf)
  · rintro ⟨hcrash, hquiet⟩
    refine ⟨(names_follow _ name u).symm ▸ hm, fun _ => ⟨refs, hq, fun n => ⟨fun hf ha => ?_, fun hf => ?_⟩⟩⟩
    · obtain ⟨rfl, -, hfailed⟩ := (hfails n).1 hf
      rw [hposted, if_pos ⟨rfl, hfailed⟩]
      exact hone.2 (hcrash hf ha)
    · rw [hposted]
      split
      · rename_i hn
        obtain ⟨rfl, hfailed⟩ := hn
        exact hzero.2 (hquiet hf (by rw [hactive, hfailed]))
      · rfl

end changed

/-- The step of a monitor without two entries of one name. -/
theorem detectsOnce_iff (h : Step glib m l m') (hm : (m.monitor.services.map (·.serviceName)).Nodup) :
    m.DetectsOnce l m' ↔ m.Regular l := by
  have hquiet : ∀ {l m'}, (∀ n, ¬ m.Fails l n) → m'.inst = m.inst →
      (m'.monitor.services.map (·.serviceName)).Nodup → m.DetectsOnce l m' := by
    intro l m' hl hi hs
    refine ⟨hs, fun _ => ⟨[], by rw [hi, List.append_nil], fun n => ⟨fun hf => absurd hf (hl n), fun _ => rfl⟩⟩⟩
  cases effect_of_step h with
  | main => exact ⟨fun _ => trivial, fun _ => ⟨hm, fun h => absurd rfl (h _)⟩⟩
  | @listed names m' hm' =>
    obtain ⟨hs, hi, -⟩ := foldl_addListed names m
    refine ⟨fun _ => trivial, fun _ => hquiet (fun _ => id) (hm' ▸ hi) ?_⟩
    rw [hm', hs]
    exact hm
  | announced =>
    refine ⟨fun _ => trivial, fun _ => hquiet (fun _ => id) rfl ?_⟩
    show ((addService _ _ _ _).services.map _).Nodup
    rw [addService_services]
    exact hm
  | @ready i status mentry hi =>
    cases status with
    | error => exact ⟨fun _ => trivial, fun _ => hquiet (fun _ => id) rfl hm⟩
    | ok =>
      have hcons : ((mentry :: m.monitor.services).map (·.serviceName)).Nodup ↔
          ∀ e ∈ m.monitor.services, e.serviceName ≠ mentry.serviceName := by
        rw [List.map_cons, List.nodup_cons, List.mem_map]
        constructor
        · rintro ⟨hne, -⟩ e he heq
          exact hne ⟨e, he, heq⟩
        · intro hne
          refine ⟨?_, hm⟩
          rintro ⟨e, he, heq⟩
          exact hne e he heq
      constructor
      · intro hd mentry' hi'
        obtain rfl := Option.some.inj (hi.symm.trans hi')
        exact hcons.1 hd.1
      · exact fun hr => hquiet (fun _ => id) rfl (hcons.2 (hr mentry hi))
  | changed hactive _ hw => exact detectsOnce_changed_iff hm hactive hw

/-- Regular steps from the start detect every failure exactly once. -/
theorem detectsOnce_of_regular {w : Instance} {units : String → UnitState} {ls : List UnitLabel}
    (h : Transition.Run (fun m l m' => Step glib m l m' ∧ m.Regular l) (start w units) ls m) :
    Transition.Run (fun m l m' => Step glib m l m' ∧ m.DetectsOnce l m') (start w units) ls m := by
  refine (h.strengthen (I := fun m => (m.monitor.services.map (·.serviceName)).Nodup) List.nodup_nil
    fun _ _ _ hm h => ((detectsOnce_iff h.1 hm).2 h.2).1).mono ?_
  rintro m l m' ⟨hm, ⟨hstep, hr⟩, -⟩
  exact ⟨hstep, (detectsOnce_iff hstep hm).2 hr⟩

/-- In a run from the start every failure of an announced service is detected exactly once, and no name is listed
twice, exactly if all steps are regular. -/
theorem detected_once_iff (glib : GLib) (w : Instance) (units : String → UnitState) (ls : List UnitLabel)
    (m : Monitored) :
    Transition.Run (fun m l m' => Step glib m l m' ∧ m.DetectsOnce l m') (start w units) ls m ↔
      Transition.Run (fun m l m' => Step glib m l m' ∧ m.Regular l) (start w units) ls m := by
  refine ⟨fun h => ?_, detectsOnce_of_regular⟩
  refine (h.strengthen (I := fun m => (m.monitor.services.map (·.serviceName)).Nodup) List.nodup_nil
    fun _ _ _ _ h => h.2.1).mono ?_
  rintro m l m' ⟨hm, ⟨hstep, hd⟩, -⟩
  exact ⟨hstep, (detectsOnce_iff hstep hm).1 hd⟩

/-- Two `UnitNew` signals for one name, before the proxy of the first entry is there; then the unit fails. -/
def announcedTwice : List UnitLabel :=
  [.unitNew "a.service", .unitNew "a.service", .proxyReady 0 .ok, .proxyReady 0 .ok,
    .changed "a.service" [("ActiveState", "failed"), ("SubState", "failed")]]

/-- A running service that nothing is known of. -/
def unheard : Monitored := start (Instance.initial .primary "host") fun _ => ⟨"active", "running"⟩

private theorem announcedTwice_isSome : (announcedTwice.foldlM (step (.reading [])) unheard).isSome := by
  decide +kernel

private theorem listed_twice (m : Monitored) (h : announcedTwice.foldlM (step (.reading [])) unheard = some m) :
    m.monitor.services.map (·.serviceName) = ["a.service", "a.service"] := by
  have hget := Option.get_of_eq_some announcedTwice_isSome h
  subst hget
  decide +kernel

/-- Both signals make an entry, and the failure is detected twice. -/
theorem detected_twice : ¬ ∀ (glib : GLib) (w : Instance) (units : String → UnitState) (ls : List UnitLabel)
    (m : Monitored), Transition.Run (Step glib) (start w units) ls m →
      Transition.Run (fun m l m' => Step glib m l m' ∧ m.DetectsOnce l m') (start w units) ls m := by
  intro h
  obtain ⟨m, hm⟩ := Option.isSome_iff_exists.1 announcedTwice_isSome
  have hrun := h _ _ _ _ _ (Transition.Run.of_foldlM hm)
  have hnodup := hrun.invariant (I := fun m => (m.monitor.services.map (·.serviceName)).Nodup) List.nodup_nil
    fun _ _ _ _ h => h.2.1
  rw [listed_twice m hm] at hnodup
  exact absurd hnodup (by decide)

/-! ### Units that are left alone -/

/-- Every announced service has exactly one entry, and entries agree with the units on what has failed. -/
structure Tracked (m : Monitored) : Prop where
  nodup : ((m.monitor.building ++ m.monitor.services).map (·.serviceName)).Nodup
  state : ∀ e ∈ m.monitor.building ++ m.monitor.services,
    e.activeState = .failed ↔ (m.units e.serviceName).activeState = "failed"
  announced : ∀ n ∈ m.announced, ∃ e ∈ m.monitor.building ++ m.monitor.services, e.serviceName = n

/-- While its proxy is being built a unit is not heard of again and neither fails nor recovers, a unit is not new and
failed already, and no proxy fails. -/
def Undisturbed (m : Monitored) : UnitLabel → Prop
  | .listUnits names => names.Nodup ∧ ∀ name ∈ names, ∀ e ∈ m.monitor.building, e.serviceName ≠ name
  | .unitNew name => (∀ e ∈ m.monitor.building, e.serviceName ≠ name) ∧
    ((∀ e ∈ m.monitor.services, e.serviceName ≠ name) → (m.units name).activeState ≠ "failed")
  | .proxyReady _ status => status = .ok
  | .changed name properties => ∀ e ∈ m.monitor.building, e.serviceName = name →
    ((m.units name).activeState = "failed" ↔ propertyOf "ActiveState" properties = some "failed")
  | .main _ => True

theorem Tracked.add (h : m.Tracked) {name : String} {activeState : ServiceActiveState}
    (hnew : ∀ e ∈ m.monitor.building, e.serviceName ≠ name)
    (hstate : (∀ e ∈ m.monitor.services, e.serviceName ≠ name) →
      (activeState = .failed ↔ (m.units name).activeState = "failed")) (activeSubstate : ServiceActiveSubstate) :
    (m.add name activeState activeSubstate).Tracked := by
  unfold Monitored.add addService
  by_cases hs : isService name
  · rw [if_pos hs]
    cases hx : m.monitor.services.find? (·.serviceName = name) with
    | none =>
      have hnone : ∀ e ∈ m.monitor.services, e.serviceName ≠ name := fun e he => by
        simpa using List.find?_eq_none.1 hx e he
      have hperm : ∀ mentry, (m.monitor.building ++ [mentry] ++ m.monitor.services).Perm
          (mentry :: (m.monitor.building ++ m.monitor.services)) := by
        intro mentry
        rw [List.append_assoc]
        exact List.perm_middle
      -- a new entry, with the state that the unit has
      refine ⟨((hperm _).map _).nodup_iff.2 ?_, fun e he => ?_, fun n hn => ?_⟩
      · rw [List.map_cons, List.nodup_cons, List.mem_map]
        refine ⟨?_, h.nodup⟩
        rintro ⟨e, he, heq⟩
        rcases List.mem_append.1 he with he | he
        · exact hnew e he heq
        · exact hnone e he heq
      · rcases List.mem_cons.1 ((hperm _).mem_iff.1 he) with rfl | he
        · exact hstate hnone
        · exact h.state e he
      · have hn' : n = name ∨ n ∈ m.announced := by
          dsimp only at hn
          split at hn
          · exact List.mem_cons.1 hn
          · exact .inr hn
        rcases hn' with rfl | hn'
        · exact ⟨_, (hperm _).mem_iff.2 List.mem_cons_self, rfl⟩
        · obtain ⟨e, he, heq⟩ := h.announced n hn'
          exact ⟨e, (hperm _).mem_iff.2 (List.mem_cons_of_mem _ he), heq⟩
    | some e =>
      refine ⟨h.nodup, h.state, fun n hn => ?_⟩
      dsimp only at hn
      split at hn
      · rcases List.mem_cons.1 hn with rfl | hn
        · exact ⟨e, List.mem_append_right _ (List.mem_of_find?_eq_some hx), by simpa using List.find?_some hx⟩
        · exact h.announced n hn
      · exact h.announced n hn
  · rw [if_neg hs]
    refine ⟨h.nodup, h.state, fun n hn => ?_⟩
    dsimp only at hn
    rw [if_neg fun hs' => hs hs'.1] at hn
    exact h.announced n hn

/-- The names of a reply are entered one by one. -/
theorem Tracked.listed {names : List String} (h : m.Tracked) (hnodup : names.Nodup)
    (hnew : ∀ name ∈ names, ∀ e ∈ m.monitor.building, e.serviceName ≠ name) : (names.foldl addListed m).Tracked := by
  induction names generalizing m with
  | nil => exact h
  | cons name names ih =>
    obtain ⟨hname, hnodup⟩ := List.nodup_cons.1 hnodup
    refine ih (h.add (hnew name List.mem_cons_self) (fun _ => rmgMentryActiveStateFrom_eq_failed_iff _) _) hnodup ?_
    intro other hother e he
    have hbuilding : e ∈ m.monitor.building ∨ e.serviceName = name := by
      simp only [Monitored.addListed, Monitored.add, addService] at he
      split at he
      · split at he
        · rcases List.mem_append.1 he with he | he
          · exact .inl he
          · exact .inr (List.mem_singleton.1 he ▸ rfl)
        · exact .inl he
      · exact .inl he
    rcases hbuilding with he | he
    · exact hnew other (List.mem_cons_of_mem _ hother) e he
    · rw [he]
      exact fun heq => hname (heq ▸ hother)

theorem Tracked.regular (h : m.Tracked) (hl : m.Undisturbed l) : m.Regular l := by
  cases l with
  | proxyReady i status =>
    cases status with
    | error => trivial
    | ok =>
      intro mentry hi e he heq
      have hnodup := h.nodup
      rw [List.map_append, List.nodup_append] at hnodup
      exact hnodup.2.2 _ (List.mem_map_of_mem (List.mem_of_getElem? hi)) _ (List.mem_map_of_mem he) heq.symm
  | changed name properties =>
    constructor
    · rintro ⟨-, hn, hf⟩ ha
      obtain ⟨e, he, rfl⟩ := h.announced name ha
      rcases List.mem_append.1 he with hb | hs
      · exact absurd ((hl e hb rfl).2 hf) hn
      · exact ⟨e, hs, rfl, fun hfailed => hn ((h.state e he).1 hfailed)⟩
    · intro hn hf e he heq
      rw [h.state e (List.mem_append_right _ he), heq]
      by_contra hunit
      exact hn ⟨rfl, hunit, hf⟩
  | _ => trivial

theorem Tracked.step (h : m.Tracked) (hl : m.Undisturbed l) (hstep : Step glib m l m') : m'.Tracked := by
  cases effect_of_step hstep with
  | main => exact ⟨h.nodup, h.state, h.announced⟩
  | listed hm' => exact hm' ▸ h.listed hl.1 hl.2
  | announced =>
    refine h.add hl.1 (fun hnew => ⟨fun e => ?_, fun e => absurd e (hl.2 hnew)⟩) _
    cases e
  | @ready i status mentry hi =>
    obtain rfl : status = .ok := hl
    -- the proxy moves from the ones being built to the services
    have hperm : (m.monitor.building.eraseIdx i ++ mentry :: m.monitor.services).Perm
        (m.monitor.building ++ m.monitor.services) := by
      obtain ⟨hlt, hget⟩ := List.getElem?_eq_some_iff.1 hi
      refine List.perm_middle.trans ?_
      rw [← hget]
      exact (List.getElem_cons_eraseIdx_perm hlt).append_right _
    refine ⟨(hperm.map _).nodup_iff.2 h.nodup, fun e he => h.state e (hperm.mem_iff.1 he), fun n hn => ?_⟩
    obtain ⟨e, he, heq⟩ := h.announced n hn
    exact ⟨e, hperm.mem_iff.2 he, heq⟩
  | @changed name properties u w hactive hsub hw =>
    -- every entry of the unit follows its change, and the others keep their state
    let f : RmgMEntry → RmgMEntry := fun e => if e.serviceName = name then e.follow u else e
    have hname : ∀ e, (f e).serviceName = e.serviceName := by
      intro e
      show (if e.serviceName = name then e.follow u else e).serviceName = e.serviceName
      split <;> rfl
    have hnames : (m.monitor.services.map f).map (·.serviceName) = m.monitor.services.map (·.serviceName) := by
      rw [List.map_map]
      exact List.map_congr_left fun e _ => hname e
    refine ⟨?_, fun e he => ?_, fun n hn => ?_⟩
    · show ((m.monitor.building ++ m.monitor.services.map f).map _).Nodup
      rw [List.map_append, hnames, ← List.map_append]
      exact h.nodup
    · show e.activeState = .failed ↔ (Function.update m.units name u e.serviceName).activeState = "failed"
      rcases List.mem_append.1 he with hb | hs
      · have hstate := h.state e (List.mem_append_left _ hb)
        by_cases heq : e.serviceName = name
        · have hsame := hl e hb heq
          rw [hactive, Option.some.injEq] at hsame
          rw [heq] at hstate ⊢
          rw [Function.update_self, hstate, hsame]
        · rw [Function.update_of_ne heq, hstate]
      · obtain ⟨e, hmem, rfl⟩ := List.mem_map.1 hs
        show (f e).activeState = .failed ↔ (Function.update m.units name u (f e).serviceName).activeState = "failed"
        rw [hname]
        have hstate := h.state e (List.mem_append_right _ hmem)
        by_cases heq : e.serviceName = name
        · have hf : f e = e.follow u := if_pos heq
          rw [hf, heq, Function.update_self]
          exact rmgMentryActiveStateFrom_eq_failed_iff u.activeState
        · have hf : f e = e := if_neg heq
          rw [hf, Function.update_of_ne heq, hstate]
    · obtain ⟨e, he, heq⟩ := h.announced n hn
      rcases List.mem_append.1 he with hb | hs
      · exact ⟨e, List.mem_append_left _ hb, heq⟩
      · exact ⟨f e, List.mem_append_right _ (List.mem_map_of_mem hs), (hname e).trans heq⟩

/-- In a run that leaves units alone while their proxies are being built every failure is detected exactly once. -/
theorem detected_once_of_undisturbed {w : Instance} {units : String → UnitState} {ls : List UnitLabel}
    (h : Transition.Run (fun m l m' => Step glib m l m' ∧ m.Undisturbed l) (start w units) ls m) :
    Transition.Run (fun m l m' => Step glib m l m' ∧ m.DetectsOnce l m') (start w units) ls m := by
  refine detectsOnce_of_regular ((h.strengthen (I := Tracked) ?_ ?_).mono ?_)
  · exact ⟨List.nodup_nil, fun e he => absurd he List.not_mem_nil, fun n hn => absurd hn List.not_mem_nil⟩
  · exact fun _ _ _ ht h => ht.step h.2 h.1
  · rintro m l m' ⟨ht, ⟨hstep, hl⟩, -⟩
    exact ⟨hstep, ht.regular hl⟩

end Monitored

end RecoveryManager
