import RecoveryManager.Traffic
import RecoveryManager.UnitSource

/-!
# Services do not influence each other

All services share the tables, the queues and the timers.  A run of an instance restricted to one service
(`Instance.only`, `OnlyOf`) keeps the crashes and the relax timers of that service and the clock; everything else is
left out.  `services_do_not_interfere`: every run has a restricted run behind it with the same history of the service,
up to the numbers of event objects and timers (`Output.erased`), and what other instances send changes no table.

The relation between the two runs is `Isolated`.  Each step of the full run is followed by at most one step of the
restricted run.
-/

namespace RecoveryManager

open Fallible Fallible.Prog

/-! ### Events and timers without their numbers -/

def RmgDEvent.crashOf (s : String) (e : RmgDEvent) : Bool := e.type = .serviceCrashed ∧ e.serviceName = some s

def RmgDEvent.erased (e : RmgDEvent) : RmgDEvent := { e with cause := ⟨0, 0⟩ }

def GSource.erased (source : GSource) : GSource := { source with id := 0 }

def Output.erased : Output → Output
  | .crashDetected service _ => .crashDetected service ⟨0, 0⟩
  | .noRecoveryUnit service _ => .noRecoveryUnit service ⟨0, 0⟩
  | .actionRequired action service rvector _ => .actionRequired action service rvector ⟨0, 0⟩
  | .pushed type e => .pushed type e.erased
  | .timeoutAdded source => .timeoutAdded source.erased
  | .timeoutExpired source => .timeoutExpired source.erased
  | o => o

theorem crashOf_erased {e e' : RmgDEvent} (h : e.erased = e'.erased) (s : String) : e.crashOf s = e'.crashOf s := by
  have ht : e.erased.type = e'.erased.type := congrArg RmgDEvent.type h
  have hs : e.erased.serviceName = e'.erased.serviceName := congrArg RmgDEvent.serviceName h
  unfold RmgDEvent.crashOf
  rw [show e.type = e'.type from ht, show e.serviceName = e'.serviceName from hs]

/-- The escalation of a service looks the same. -/
structure Recovery.Alike (R R' : Recovery) : Prop where
  view : R.view = R'.view
  timers : R.timers.map GSource.erased = R'.timers.map GSource.erased
  history : R.history.map Output.erased = R'.history.map Output.erased

namespace Recovery.Alike

variable {R R' : Recovery} {s : String} {e e' : RmgDEvent} {id id' now : Nat}

theorem refl (R : Recovery) : R.Alike R := ⟨rfl, rfl, rfl⟩

theorem emit (h : R.Alike R') {o o' : Output} (ho : o.erased = o'.erased) : (R.emit o).Alike (R'.emit o') := by
  refine ⟨h.view, h.timers, ?_⟩
  unfold Recovery.emit
  rw [List.map_append, List.map_append, h.history, List.map_singleton, List.map_singleton, ho]

theorem setRvector (h : R.Alike R') (x : Int) : (R.setRvector s x).Alike (R'.setRvector s x) := by
  refine ⟨?_, h.timers, ?_⟩
  · unfold Recovery.setRvector
    rw [h.view]
  · unfold Recovery.setRvector
    rw [List.map_append, List.map_append, h.history]

/-- A crash is handled alike. -/
theorem crash (h : R.Alike R') (he : e.erased = e'.erased) : (R.crash s e id now).Alike (R'.crash s e' id' now) := by
  have hselected : R.selected = R'.selected := by unfold Recovery.selected Recovery.next; rw [h.view]
  have hcounted : R.counted = R'.counted := by unfold Recovery.counted; rw [h.view]
  have hstarts : R.startsTimer = R'.startsTimer := by unfold Recovery.startsTimer; rw [hselected, hcounted, h.view]
  have htimer : (R.newTimer s id now).erased = (R'.newTimer s id' now).erased := by
    unfold Recovery.newTimer GSource.erased
    rw [hcounted, h.view]
  rw [crash_eq, crash_eq]
  refine ⟨by rw [hselected, hcounted], ?_, ?_⟩
  · rw [List.map_append, List.map_append, h.timers, hstarts]
    split
    · rw [List.map_singleton, List.map_singleton, htimer]
    · rfl
  · rw [List.map_append, List.map_append, h.history]
    congr 1
    have harm : (R.armOutputs s e id now).map Output.erased = (R'.armOutputs s e' id' now).map Output.erased := by
      have hpush : (R'.selected.actionType.kind.toList.map fun type => Output.pushed type e).map Output.erased =
          (R'.selected.actionType.kind.toList.map fun type => Output.pushed type e').map Output.erased := by
        rw [List.map_map, List.map_map]
        exact List.map_congr_left fun type _ => congrArg (Output.pushed type) he
      have hstart : (if R'.startsTimer then [Output.timeoutAdded (R.newTimer s id now)] else []).map Output.erased =
          (if R'.startsTimer then [Output.timeoutAdded (R'.newTimer s id' now)] else []).map Output.erased := by
        split
        · exact congrArg (fun x => [Output.timeoutAdded x]) htimer
        · rfl
      unfold Recovery.armOutputs
      rw [hselected, hstarts]
      generalize R'.selected.actionType = type at hpush ⊢
      cases type <;> simp only [List.map_append, hpush, hstart]
    unfold Recovery.crashOutputs
    simp only [List.map_append]
    rw [harm, hselected, h.view]
    congr 2
    split <;> rfl

theorem handle (h : R.Alike R') (he : e.erased = e'.erased) : (R.handle s e id now).Alike (R'.handle s e' id' now) := by
  unfold Recovery.handle
  rw [h.view]
  split
  · have hdetected : (Output.crashDetected (some s) e.cause).erased =
    (Output.crashDetected (some s) e'.cause).erased := rfl
    have hnone : (Output.noRecoveryUnit (some s) e.cause).erased =
      (Output.noRecoveryUnit (some s) e'.cause).erased := rfl
    exact (h.emit hdetected).emit hnone
  · exact h.crash he

/-- The same timer expires alike. -/
theorem expire (h : R.Alike R') {ys zs ys' zs' : List GSource} {source source' : GSource}
    (hR : R.timers = ys ++ source :: zs) (hR' : R'.timers = ys' ++ source' :: zs') (hn : R.timers.Nodup)
    (hn' : R'.timers.Nodup) (hlen : ys.length = ys'.length) (v : Int) :
    (R.expire s source v).Alike (R'.expire s source' v) := by
  have herased := h.timers
  rw [hR, hR', List.map_append, List.map_append, List.map_cons, List.map_cons] at herased
  obtain ⟨hys, hrest⟩ := List.append_inj herased (by simpa using hlen)
  obtain ⟨hsource, hzs⟩ := List.cons.inj hrest
  have hfilter : ∀ {l ys zs : List GSource} {x : GSource}, l = ys ++ x :: zs → l.Nodup →
      l.filter (· ≠ x) = ys ++ zs := by
    rintro l ys zs x rfl hn
    have hx := List.nodup_middle.1 hn
    rw [List.nodup_cons] at hx
    rw [List.filter_append, List.filter_cons_of_neg (by simp), ← List.filter_append]
    exact List.filter_eq_self.2 fun y hy => by simpa using ne_of_mem_of_not_mem hy hx.1
  have hgone : Alike { R with timers := R.timers.filter (· ≠ source) }
      { R' with timers := R'.timers.filter (· ≠ source') } := by
    refine ⟨h.view, ?_, h.history⟩
    show (R.timers.filter (· ≠ source)).map GSource.erased = (R'.timers.filter (· ≠ source')).map GSource.erased
    rw [hfilter hR hn, hfilter hR' hn', List.map_append, List.map_append, hys, hzs]
  have ho : (Output.timeoutExpired source).erased = (Output.timeoutExpired source').erased :=
    congrArg Output.timeoutExpired hsource
  have hemit := hgone.emit ho
  have hrvector : R.view.rvector = R'.view.rvector := by rw [h.view]
  unfold Recovery.expire
  dsimp only
  by_cases hv : R.view.rvector = v
  · rw [if_pos hv, if_pos (hrvector ▸ hv)]
    exact hemit.setRvector 0
  · rw [if_neg hv, if_neg (hrvector ▸ hv)]
    exact hemit

end Recovery.Alike

/-! ### What the work on an event leaves alone -/

theorem RmgDEvent.named_of_crash {e : RmgDEvent} {s : String} (ht : e.type = .serviceCrashed)
    (hs : e.serviceName = some s) : e.Named := by
  refine ⟨fun _ => by rw [hs]; rfl, ?_, ?_, ?_⟩ <;>
    · intro h
      rw [ht] at h
      cases h

/-- The operations that leave the queues and the event objects alone. -/
def Op.Stays : Op → Prop
  | .newEvent .. | .setContextName .. | .pushDispatcher _ | .pushExecutor .. => False
  | _ => True

/-- In addition, one event may be passed on to the executor. -/
def Op.Attends (event : EventRef) (op : Op) : Prop := op.Stays ∨ ∃ type, op = .pushExecutor type event

theorem Op.Informs.attends {op : Op} {type : ExecutorEventType} {event : EventRef} (h : op.Informs type event) :
    op.Attends event := by
  cases op with
  | pushExecutor type' event' => exact .inr ⟨type', by rw [h.2]⟩
  | newEvent | setContextName | pushDispatcher => exact h.elim
  | _ => exact .inl trivial

theorem Op.Executes.stays {op : Op} (h : op.Executes) : op.Stays := by
  rcases h with ⟨-, h⟩ | ⟨msg, rfl⟩
  · cases op with
    | newEvent | setContextName | pushDispatcher | pushExecutor => exact h.elim
    | _ => trivial
  · trivial

namespace Instance

variable {glib : GLib} {w w' u : Instance} {s : String} {l : Label} {event : EventRef}

theorem SameStore.refl (w : Instance) : SameStore w w := ⟨rfl, rfl, rfl, rfl, rfl, rfl⟩

private theorem sameStore_of_stays {op : Op} {e : Bool} (h : op.Stays) : SameStore w (apply op e w).2 := by
  cases op with
  | sql q =>
    rcases apply_sql w q e with h' | ⟨j, -, h'⟩
    · rw [h']
      exact .refl w
    · rw [h', commit]
      split
      · exact .refl w
      · exact ⟨rfl, rfl, rfl, rfl, rfl, rfl⟩
  | clientSend => cases e <;> exact ⟨rfl, rfl, rfl, rfl, rfl, rfl⟩
  | managerSend => cases e <;> exact ⟨rfl, rfl, rfl, rfl, rfl, rfl⟩
  | newEvent | setContextName | pushDispatcher | pushExecutor => exact h.elim
  | _ => exact ⟨rfl, rfl, rfl, rfl, rfl, rfl⟩

private theorem worked_apply {op : Op} {e : Bool} (h : op.Attends event) : Worked event w (apply op e w).2 := by
  rcases h with h | ⟨type, rfl⟩
  · exact (sameStore_of_stays h).worked event
  · exact worked_pushExecutor w type event

/-- What each operation keeps, a callback keeps if the process is alive afterwards. -/
private theorem kept_of_calls {K : Op → Prop} {I : Instance → Prop} (hI : ∀ op e w, K op → I w → I (apply op e w).2)
    {p : Proc PUnit} (hp : p.Calls K) (hw : I w) (h : (w.after p).running) : I (w.after p) := by
  have ht : Triple machine (fun _ _ => True) I p (fun _ => I) I := .of_calls (fun op e w' hop _ => hI op e w' hop) hp
  obtain ⟨hd, -⟩ := ht.run (e := true) (fun _ => trivial) hw
  unfold after at h ⊢
  rcases hr : (w.run p).1 with _ | ⟨⟩
  · rw [hr] at h
    cases h
  · exact hd _ hr

theorem sameStore_of_calls {p : Proc PUnit} (hp : p.Calls Op.Stays) (h : (w.after p).running) :
    SameStore w (w.after p) := by
  refine kept_of_calls (fun op e w' hop hw => ?_) hp (.refl w) h
  have h' := sameStore_of_stays (w := w') (e := e) hop
  exact ⟨h'.heap.trans hw.heap, h'.allocated.trans hw.allocated, h'.dispatcherQueue.trans hw.dispatcherQueue,
    h'.executorQueue.trans hw.executorQueue, h'.identity.trans hw.identity, h'.running.trans hw.running⟩

theorem worked_of_calls {p : Proc PUnit} (hp : p.Calls (Op.Attends event)) (h : (w.after p).running) :
    Worked event w (w.after p) :=
  kept_of_calls (fun _ _ _ hop hw => hw.trans (worked_apply hop)) hp (.refl event w) h

/-- The work on an event leaves the other events in the queue as they are. -/
theorem Worked.inbox (h : Worked event w w') (hq : event ∉ w.dispatcherQueue) : w'.traffic.inbox = w.traffic.inbox := by
  show w'.dispatcherQueue.map w'.heap = w.dispatcherQueue.map w.heap
  rw [h.dispatcherQueue]
  exact List.map_congr_left fun event' hx => h.heap event' (ne_of_mem_of_not_mem hx hq)

/-- The work on any event but a crash. -/
private theorem calls_of_dispatch (h : (w.heap event).type ≠ .serviceCrashed) : ∃ p : Proc PUnit,
    w.after (dispatcherSourceCallback event) = w.after p ∧ p.Calls fun op => op.NoWrite ∧ op.Attends event := by
  have hinforms : ∀ {op : Op} {type : ExecutorEventType}, op.Informs type event → op.NoWrite ∧ op.Attends event := by
    intro op type hop
    refine ⟨?_, hop.attends⟩
    cases op with
    | sql q => exact hop.elim
    | _ => trivial
  have hpush : ∀ type, (rmgExecutorPushEvent type event).Calls fun op => op.NoWrite ∧ op.Attends event := fun type =>
    ⟨⟨trivial, .inr ⟨type, rfl⟩⟩, fun _ => trivial⟩
  refine ⟨_, after_congr (run_dispatcherSourceCallback w event), ?_⟩
  cases ht : (w.heap event).type with
  | serviceCrashed => exact absurd ht h
  | informProcessCrash => exact (calls_doFriendProcessCrashEvent event).mono fun _ => hinforms
  | informServiceFailed => exact (calls_doFriendServiceFailedEvent event).mono fun _ => hinforms
  | remoteContextRestart | remotePlatformRestart | remoteFactoryReset => exact hpush _
  | serviceRestarted | unknown => trivial

/-- Whatever the event, if the process is alive afterwards. -/
theorem worked_of_dispatch (hq : event ∉ w.dispatcherQueue) (h : (w.after (dispatcherSourceCallback event)).running) :
    Worked event w (w.after (dispatcherSourceCallback event)) := by
  by_cases ht : (w.heap event).type = .serviceCrashed
  · cases hs : (w.heap event).serviceName with
    | none =>
      -- the journal function aborts on a null name
      have hrun : w.run (dispatcherSourceCallback event) =
        (none, w.emit (.crashDetected none (w.heap event).cause)) := by
        have hout : w.run (output (.crashDetected none (w.heap event).cause)) =
            (some ⟨⟩, w.emit (.crashDetected none (w.heap event).cause)) := rfl
        unfold dispatcherSourceCallback
        rw [run_bind (run_load w event), ht, hs]
        dsimp only
        rw [run_bind hout]
        unfold doProcessServiceCrashEvent
        rw [run_bind (run_load _ event)]
        show run _ (rmgJournalGetHash (w.heap event).serviceName >>= _) = _
        rw [hs]
        rfl
      rw [after, hrun] at h
      cases h
    | some s' =>
      obtain ⟨w', hrun, hw, -⟩ := handled_of_dispatch hq (RmgDEvent.named_of_crash ht hs)
      rw [after_of_run hrun]
      exact hw
  · obtain ⟨p, hp, hcalls⟩ := calls_of_dispatch ht
    rw [hp] at h ⊢
    exact worked_of_calls (hcalls.mono fun _ h => h.2) h

/-! ### Numbers of timers -/

structure Timed (w : Instance) : Prop where
  nodup : (w.sources.map GSource.id).Nodup
  lt : ∀ source ∈ w.sources, source.id < w.nextSource

/-- What every callback does about time. -/
structure Clocked (w w' : Instance) : Prop where
  now : w'.now = w.now
  timed : w.Timed → w'.Timed

theorem Clocked.trans {w'' : Instance} (h : Clocked w w') (h' : Clocked w' w'') : Clocked w w'' :=
  ⟨h'.now.trans h.now, fun hw => h'.timed (h.timed hw)⟩

theorem clocked_apply (op : Op) (e : Bool) (w : Instance) : Clocked w (apply op e w).2 := by
  have hsame : ∀ w' : Instance, w'.now = w.now → w'.sources = w.sources → w'.nextSource = w.nextSource →
    Clocked w w' := by
    intro w' hnow hsources hnext
    refine ⟨hnow, fun hw => ⟨?_, ?_⟩⟩
    · rw [hsources]
      exact hw.nodup
    · rw [hsources, hnext]
      exact hw.lt
  cases op with
  | sql q =>
    rcases apply_sql w q e with h' | ⟨j, -, h'⟩
    · rw [h']
      exact hsame _ rfl rfl rfl
    · rw [h', commit]
      split <;> exact hsame _ rfl rfl rfl
  | timeoutAddSeconds seconds data =>
    refine ⟨rfl, fun hw => ⟨?_, fun source hx => ?_⟩⟩
    · show ((w.sources ++ [_]).map GSource.id).Nodup
      rw [List.map_append, List.map_singleton]
      refine List.nodup_append.2 ⟨hw.nodup, List.nodup_singleton _, fun a ha b hb => ?_⟩
      obtain ⟨source, hx, rfl⟩ := List.mem_map.1 ha
      rw [List.mem_singleton.1 hb]
      exact Nat.ne_of_lt (hw.lt source hx)
    · rcases List.mem_append.1 hx with hx | hx
      · exact Nat.lt_succ_of_lt (hw.lt source hx)
      · rw [List.mem_singleton.1 hx]
        exact Nat.lt_succ_self _
  | clientSend => cases e <;> exact hsame _ rfl rfl rfl
  | managerSend => cases e <;> exact hsame _ rfl rfl rfl
  | _ => exact hsame _ rfl rfl rfl

theorem clocked_after (p : Proc PUnit) (w : Instance) : Clocked w (w.after p) := by
  have ht : Triple machine (fun _ _ => True) (Clocked w) p (fun _ => Clocked w) (Clocked w) :=
    .of_calls (fun op e w' _ _ hw => hw.trans (clocked_apply op e w')) (calls_true p)
  obtain ⟨hd, ha⟩ := ht.run (e := true) (fun _ => trivial) ⟨rfl, fun h => h⟩
  unfold after
  rcases h : (w.run p).1 with _ | ⟨⟩
  · have h' := ha h
    exact ⟨h'.now, fun hw => ⟨(h'.timed hw).nodup, (h'.timed hw).lt⟩⟩
  · exact hd _ h

/-! ### The restricted run -/

/-- The instance with the crashes and the relax timers of one service. -/
def only (w : Instance) (s : String) : Instance :=
  { w with
    dispatcherQueue := w.dispatcherQueue.filter fun event => (w.heap event).crashOf s
    sources := w.sources.filter (·.relaxes s) }

/-- The steps that concern a service, and the clock. -/
def OnlyOf (s : String) (w : Instance) : Label → Prop
  | .crash service => service = s
  | .dispatch => ∃ event queue, w.dispatcherQueue = event :: queue ∧ (w.heap event).crashOf s
  | .expire id => ∃ source ∈ w.sources, source.id = id ∧ source.relaxes s
  | .tick => True
  | _ => False

/-- Friend notifications and requests from replicas, from their arrival to their handling. -/
def Foreign (w : Instance) : Label → Prop
  | .newCrash .. | .fromReplica .. | .fromPrimary _ | .execute => True
  | .dispatch => ∃ event queue, w.dispatcherQueue = event :: queue ∧ (w.heap event).type ≠ .serviceCrashed
  | _ => False

/-- `u` is a state of the run that is restricted to `s`. -/
structure Isolated (s : String) (w u : Instance) : Prop where
  alike : (w.recovery s).Alike (u.recovery s)
  now : w.now = u.now
  timed : w.Timed
  crashes : w.running → w.Linked ∧
    (w.traffic.inbox.filter (·.crashOf s)).map RmgDEvent.erased = u.traffic.inbox.map RmgDEvent.erased
  running' : u.running
  linked' : u.Linked
  timed' : u.Timed

theorem isolated_only (hr : w.running) (hl : w.Linked) (ht : w.Timed) : Isolated s w (w.only s) := by
  have hinbox : (w.only s).traffic.inbox = w.traffic.inbox.filter (·.crashOf s) := by
    show (w.dispatcherQueue.filter fun event => (w.heap event).crashOf s).map w.heap =
      (w.dispatcherQueue.map w.heap).filter (·.crashOf s)
    rw [List.filter_map]
    rfl
  have hrecovery : (w.only s).recovery s = w.recovery s := by
    show Recovery.mk _ ((w.sources.filter (·.relaxes s)).filter (·.relaxes s)) _ = _
    rw [List.filter_filter]
    simp only [Bool.and_self]
    rfl
  refine ⟨?_, rfl, ht, fun _ => ⟨hl, by rw [hinbox]⟩, hr, ?_, ?_⟩
  · rw [hrecovery]
    exact .refl _
  · exact ⟨fun event hx => hl.dispatcher event (List.mem_filter.1 hx).1, hl.executor, hl.nodup.filter _⟩
  · exact ⟨(List.filter_sublist.map _).nodup ht.nodup, fun source hx => ht.lt source (List.mem_filter.1 hx).1⟩

/-- A step that does not concern the service. -/
private theorem Isolated.keep (h : Isolated s w u) (hrec : w'.recovery s = w.recovery s) (hw : Clocked w w')
    (hc : w'.running → w'.Linked ∧ w'.traffic.inbox.filter (·.crashOf s) = w.traffic.inbox.filter (·.crashOf s))
    (hr : w.running) : Isolated s w' u := by
  refine ⟨by rw [hrec]; exact h.alike, hw.now.trans h.now, hw.timed h.timed, fun hr' => ?_, h.running', h.linked',
    h.timed'⟩
  obtain ⟨hl, hi⟩ := hc hr'
  exact ⟨hl, by rw [hi]; exact (h.crashes hr).2⟩

/-- An event that is no crash of the service arrives. -/
private theorem Isolated.arrive {p : Proc PUnit} {e : RmgDEvent} (h : Isolated s w u) (hp : p.Calls Op.Quiet)
    (ht : (w.after p).traffic = w.traffic.arrive e) (hl : (w.after p).Linked) (he : e.crashOf s = false)
    (hr : w.running) :
    Isolated s (w.after p) u := by
  refine h.keep (recovery_of_quiet hp w) (clocked_after p w) (fun _ => ⟨hl, ?_⟩) hr
  rw [ht]
  show (w.traffic.inbox ++ [e]).filter (·.crashOf s) = _
  rw [List.filter_append, List.filter_cons_of_neg (by simp [he]), List.filter_nil, List.append_nil]

/-- A crash of the service arrives in both runs. -/
private theorem Isolated.crash (h : Isolated s w u) (hr : w.running) :
    Isolated s (w.after (pushMonitored .serviceCrashed s)) (u.after (pushMonitored .serviceCrashed s)) := by
  let e : RmgDEvent := ⟨.serviceCrashed, some s, none, none, ⟨0, 0⟩⟩
  have hquiet := calls_pushMonitored .serviceCrashed s
  have hw := clocked_after (pushMonitored .serviceCrashed s) w
  have hu := clocked_after (pushMonitored .serviceCrashed s) u
  obtain ⟨htu, hlu⟩ := traffic_arrive h.linked' e none
  refine ⟨?_, ?_, hw.timed h.timed, fun _ => ?_, h.running', hlu, hu.timed h.timed'⟩
  · rw [recovery_of_quiet hquiet, recovery_of_quiet hquiet]
    exact h.alike
  · rw [hw.now, hu.now, h.now]
  · obtain ⟨hl, hc⟩ := h.crashes hr
    obtain ⟨htw, hlw⟩ := traffic_arrive hl e none
    refine ⟨hlw, ?_⟩
    show ((Instance.traffic ((w.alloc e none).pushDispatcher w.allocated)).inbox.filter (·.crashOf s)).map _ =
      (Instance.traffic ((u.alloc e none).pushDispatcher u.allocated)).inbox.map _
    rw [htw, htu]
    show ((w.traffic.inbox ++ [_]).filter _).map _ = (u.traffic.inbox ++ [_]).map _
    rw [List.filter_append, List.map_append, List.map_append, hc,
      List.filter_cons_of_pos (by simp [RmgDEvent.crashOf, e])]
    rfl

private theorem step_dispatch {queue : List EventRef} (hr : w.running) (hq : w.dispatcherQueue = event :: queue) :
    w.step glib .dispatch = some ({ w with dispatcherQueue := queue }.after (dispatcherSourceCallback event)) := by
  unfold step enabled
  dsimp only
  rw [if_pos hr, hq]
  rfl

/-- The dispatcher takes a crash of the service. -/
private theorem Isolated.dispatch (glib : GLib) {queue : List EventRef} (h : Isolated s w u) (hr : w.running)
    (hq : w.dispatcherQueue = event :: queue) (he : (w.heap event).crashOf s) :
    ∃ u', Step glib u .dispatch u' ∧ OnlyOf s u .dispatch ∧
      Isolated s ({ w with dispatcherQueue := queue }.after (dispatcherSourceCallback event)) u' := by
  obtain ⟨hl, hc⟩ := h.crashes hr
  have hinbox : w.traffic.inbox = w.heap event :: queue.map w.heap := by
    show w.dispatcherQueue.map w.heap = _
    rw [hq, List.map_cons]
  rw [hinbox, List.filter_cons_of_pos he, List.map_cons] at hc
  -- the run without the others has a crash of this service at the head of its queue
  obtain ⟨event', queue', hq', herased, hrest⟩ : ∃ event' queue', u.dispatcherQueue = event' :: queue' ∧
      (w.heap event).erased = (u.heap event').erased ∧
      ((queue.map w.heap).filter (·.crashOf s)).map RmgDEvent.erased = (queue'.map u.heap).map RmgDEvent.erased := by
    cases hu : u.dispatcherQueue with
    | nil =>
      rw [show u.traffic.inbox = [] from congrArg (List.map u.heap) hu] at hc
      cases hc
    | cons event' queue' =>
      rw [show u.traffic.inbox = (event' :: queue').map u.heap from congrArg (List.map u.heap) hu] at hc
      obtain ⟨h₁, h₂⟩ := List.cons.inj hc
      exact ⟨event', queue', rfl, h₁, h₂⟩
  have he' : (u.heap event').crashOf s := by
    rw [← crashOf_erased herased]
    exact he
  let w₁ : Instance := { w with dispatcherQueue := queue }
  let u₁ : Instance := { u with dispatcherQueue := queue' }
  -- what one side does, for both
  have hside : ∀ (v : Instance) (event : EventRef) (queue : List EventRef), v.Linked →
    v.dispatcherQueue = event :: queue →
      (v.heap event).crashOf s → ∃ v', ({ v with dispatcherQueue := queue } : Instance).after
          (dispatcherSourceCallback event) = v' ∧ v'.Linked ∧ v'.traffic.inbox = queue.map v.heap ∧
        v'.running = v.running ∧
        v'.recovery s = (v.recovery s).handle s (v.heap event) v.nextSource v.now := by
    intro v event queue hl hq he
    obtain ⟨ht, hs⟩ : (v.heap event).type = .serviceCrashed ∧ (v.heap event).serviceName = some s := by
      simpa [RmgDEvent.crashOf] using he
    have hnodup := hq ▸ hl.nodup
    have hne : event ∉ queue := (List.nodup_cons.1 hnodup).1
    let v₁ : Instance := { v with dispatcherQueue := queue }
    have hl₁ : v₁.Linked := ⟨fun x hx => hl.dispatcher x (by rw [hq]; exact List.mem_cons_of_mem _ hx), hl.executor,
      (List.nodup_cons.1 hnodup).2⟩
    obtain ⟨v', hrun, hw, -⟩ := handled_of_dispatch (w := v₁) hne (RmgDEvent.named_of_crash ht hs)
    have hafter : v₁.after (dispatcherSourceCallback event) = v' := after_of_run hrun
    refine ⟨v', hafter, hw.linked hl₁ (hl.dispatcher event (by rw [hq]; simp)), hw.inbox hne, hw.running, ?_⟩
    rw [← hafter]
    exact recovery_of_dispatch_crash (w := v₁) ht hs
  obtain ⟨w', hw', hlw, hiw, hrw, hRw⟩ := hside w event queue hl hq he
  obtain ⟨u', hu', hlu, hiu, hru, hRu⟩ := hside u event' queue' h.linked' hq' he'
  have hcw : Clocked w₁ w' := hw' ▸ clocked_after _ w₁
  have hcu : Clocked u₁ u' := hu' ▸ clocked_after _ u₁
  refine ⟨u', ?_, ⟨event', queue', hq', he'⟩, ?_⟩
  · rw [Step, step_dispatch h.running' hq', hu']
  · rw [hw']
    refine ⟨?_, ?_, hcw.timed ⟨h.timed.1, h.timed.2⟩, fun _ => ⟨hlw, ?_⟩, ?_, hlu, hcu.timed ⟨h.timed'.1, h.timed'.2⟩⟩
    · rw [hRw, hRu, ← h.now]
      exact h.alike.handle herased
    · rw [hcw.now, hcu.now]
      exact h.now
    · rw [hiw, hiu]
      exact hrest
    · rw [hru]
      exact h.running'

private theorem step_expire {source : GSource} (hr : w.running) (ht : w.Timed) (hx : source ∈ w.sources)
    (hd : source.deadline ≤ w.now) : w.step glib (.expire source.id) =
      some (({ w with sources := w.sources.filter (· ≠ source) }.emit (.timeoutExpired source)).after
        (timerCallback source.data)) := by
  have hfind : w.sources.find? (fun x => x.id = source.id ∧ x.deadline ≤ w.now) = some source := by
    refine (List.find?_eq_some_iff_append).2 ⟨by simpa using hd, ?_⟩
    obtain ⟨ys, zs, hl⟩ := List.append_of_mem hx
    refine ⟨ys, zs, hl, fun y hy => ?_⟩
    have hnodup := ht.nodup
    rw [hl, List.map_append, List.map_cons, List.nodup_append] at hnodup
    have hne : y.id ≠ source.id := hnodup.2.2 y.id (List.mem_map_of_mem hy) source.id (by simp)
    simp [hne]
  unfold step enabled
  dsimp only
  rw [if_pos hr, hfind]
  rfl

/-- A relax timer of the service expires. -/
private theorem Isolated.expire (glib : GLib) {source : GSource} (h : Isolated s w u) (hr : w.running)
    (hx : source ∈ w.sources) (hd : source.deadline ≤ w.now) (hs : source.relaxes s) :
    ∃ l' u', Step glib u l' u' ∧ OnlyOf s u l' ∧
      Isolated s (({ w with sources := w.sources.filter (· ≠ source) }.emit (.timeoutExpired source)).after
        (timerCallback source.data)) u' := by
  have hnodup : ∀ v : Instance, v.Timed → (v.recovery s).timers.Nodup := fun v hv => hv.nodup.of_map.filter _
  obtain ⟨ys, zs, hw⟩ : ∃ ys zs, (w.recovery s).timers = ys ++ source :: zs :=
    List.append_of_mem (List.mem_filter.2 ⟨hx, hs⟩)
  have htimers := h.alike.timers
  rw [hw, List.map_append, List.map_cons] at htimers
  obtain ⟨ys', rest, hu, hys, hrest⟩ := List.map_eq_append_iff.1 htimers.symm
  obtain ⟨source', zs', rfl, herased, -⟩ := List.map_eq_cons_iff.1 hrest
  obtain ⟨hx', hs'⟩ : source' ∈ u.sources ∧ source'.relaxes s :=
    List.mem_filter.1 (show source' ∈ (u.recovery s).timers by rw [hu]; simp)
  have hdeadline : source'.erased.deadline = source.erased.deadline := congrArg GSource.deadline herased
  have hdeadline : source'.deadline = source.deadline := hdeadline
  have hdata : source'.erased.data = source.erased.data := congrArg GSource.data herased
  obtain ⟨t, ht, rfl⟩ : ∃ t, source.data = .relax t ∧ t.serviceName = s := by
    cases hdt : source.data with
    | friend t => simp [GSource.relaxes, hdt] at hs
    | relax t => exact ⟨t, rfl, by simpa [GSource.relaxes, hdt] using hs⟩
  -- what one side does, for both
  have hside : ∀ (v : Instance) (source : GSource), v.Timed → source.data = .relax t →
      let v₁ := { v with sources := v.sources.filter (· ≠ source) }.emit (.timeoutExpired source)
      let v' := v₁.after (timerCallback source.data)
      v'.recovery t.serviceName = (v.recovery t.serviceName).expire t.serviceName source t.rvector ∧
        v'.traffic = v.traffic ∧ (v'.Linked ↔ v.Linked) ∧ v'.now = v.now ∧ v'.Timed ∧ v'.running = v.running := by
    intro v source hv ht
    dsimp only
    obtain ⟨htraffic, hlinked⟩ := traffic_of_calls (calls_timerCallback source.data)
      ({ v with sources := v.sources.filter (· ≠ source) }.emit (.timeoutExpired source))
    have hclock := clocked_after (timerCallback source.data)
      ({ v with sources := v.sources.filter (· ≠ source) }.emit (.timeoutExpired source))
    have htimed : ({ v with sources := v.sources.filter (· ≠ source) }.emit (.timeoutExpired source)).Timed :=
      ⟨(List.filter_sublist.map _).nodup hv.nodup, fun x hx => hv.lt x (List.mem_filter.1 hx).1⟩
    refine ⟨recovery_of_expire_relax ht, htraffic.trans (traffic_emit rfl rfl rfl rfl _),
      hlinked.trans ⟨fun h => ⟨h.1, h.2, h.3⟩, fun h => ⟨h.1, h.2, h.3⟩⟩, hclock.now, hclock.timed htimed, ?_⟩
    rw [ht, timerCallback, after_of_run (run_relaxtimerCallback _ t)]
    split <;> rfl
  obtain ⟨hRw, hTw, hlw, hnw, htw, hrw⟩ := hside w source h.timed ht
  obtain ⟨hRu, hTu, hlu, hnu, htu, hru⟩ := hside u source' h.timed' (hdata.trans ht)
  refine ⟨.expire source'.id, _, step_expire h.running' h.timed' hx' (by rw [hdeadline, ← h.now]; exact hd),
    ⟨source', hx', rfl, hs'⟩, ?_⟩
  refine ⟨?_, by rw [hnw, hnu, h.now], htw, fun _ => ?_, hru.trans h.running', hlu.2 h.linked', htu⟩
  · rw [hRw, hRu]
    have hlen : ys.length = ys'.length := by simpa using (congrArg List.length hys).symm
    exact h.alike.expire hw hu (hnodup w h.timed) (hnodup u h.timed') hlen t.rvector
  · obtain ⟨hl, hc⟩ := h.crashes hr
    exact ⟨hlw.2 hl, by rw [hTw, hTu]; exact hc⟩

/-! ### Runs -/

private theorem Isolated.dispatch_other (h : Isolated s w u) (hr : w.running) {queue : List EventRef}
    (hq : w.dispatcherQueue = event :: queue) (hs : ¬ (w.heap event).crashOf s) :
    Isolated s (({ w with dispatcherQueue := queue } : Instance).after (dispatcherSourceCallback event)) u := by
  obtain ⟨hlw, hc⟩ := h.crashes hr
  let w₁ : Instance := { w with dispatcherQueue := queue }
  have hnodup := hq ▸ hlw.nodup
  have hne : event ∉ queue := (List.nodup_cons.1 hnodup).1
  have hl₁ : w₁.Linked := ⟨fun x hx => hlw.dispatcher x (by rw [hq]; exact List.mem_cons_of_mem _ hx),
    hlw.executor, (List.nodup_cons.1 hnodup).2⟩
  have hrec : (w₁.after (dispatcherSourceCallback event)).recovery s = w.recovery s :=
    recovery_of_dispatch_other (w := w₁) fun ht hn => hs (by simpa [RmgDEvent.crashOf] using ⟨ht, hn⟩)
  have hclock : Clocked w w₁ := ⟨rfl, fun ht => ⟨ht.1, ht.2⟩⟩
  refine h.keep hrec (hclock.trans (clocked_after _ w₁)) (fun hr' => ?_) hr
  have hw := worked_of_dispatch (w := w₁) hne hr'
  refine ⟨hw.linked hl₁ (hlw.dispatcher event (by rw [hq]; simp)), ?_⟩
  -- the event was no crash of the service, so its crashes wait as before
  rw [hw.inbox hne]
  show _ = (w.dispatcherQueue.map w.heap).filter (·.crashOf s)
  rw [hq, List.map_cons, List.filter_cons_of_neg hs]
  rfl

private theorem Isolated.execute (h : Isolated s w u) (hr : w.running) {type : ExecutorEventType}
    {queue : List (ExecutorEventType × EventRef)} (hq : w.executorQueue = (type, event) :: queue) :
    Isolated s (({ w with executorQueue := queue } : Instance).after (executorSourceCallback type event)) u := by
  obtain ⟨hlw, hc⟩ := h.crashes hr
  let w₁ : Instance := { w with executorQueue := queue }
  have hl₁ : w₁.Linked := ⟨hlw.dispatcher, fun x hx => hlw.executor x (by rw [hq]; exact List.mem_cons_of_mem _ hx),
    hlw.nodup⟩
  have hcalls := calls_executorSourceCallback type event
  have hrec : (w₁.after (executorSourceCallback type event)).recovery s = w.recovery s :=
    recovery_of_quiet (hcalls.mono fun _ h => h.quiet) w₁
  have hclock : Clocked w w₁ := ⟨rfl, fun ht => ⟨ht.1, ht.2⟩⟩
  refine h.keep hrec (hclock.trans (clocked_after _ w₁)) (fun hr' => ?_) hr
  have hw := sameStore_of_calls (w := w₁) (hcalls.mono fun _ h => h.stays) hr'
  refine ⟨hw.linked hl₁, ?_⟩
  show ((Instance.after _ _).dispatcherQueue.map (Instance.after _ _).heap).filter _ = _
  rw [hw.dispatcherQueue, hw.heap]
  rfl

private theorem Isolated.expire_other (h : Isolated s w u) (hr : w.running) {source : GSource}
    (hs : ¬ source.relaxes s) :
    Isolated s ((Instance.emit { w with sources := w.sources.filter (· ≠ source) } (.timeoutExpired source)).after
      (timerCallback source.data)) u := by
  obtain ⟨hlw, hc⟩ := h.crashes hr
  let w₁ : Instance := { w with sources := w.sources.filter (· ≠ source) }.emit (.timeoutExpired source)
  have hrec : (w₁.after (timerCallback source.data)).recovery s = w.recovery s :=
    recovery_of_expire_other (by simpa using hs)
  have hclock : Clocked w w₁ := ⟨rfl, fun ht =>
    ⟨(List.filter_sublist.map _).nodup ht.nodup, fun x hx => ht.lt x (List.mem_filter.1 hx).1⟩⟩
  obtain ⟨ht, hk⟩ := traffic_of_calls (calls_timerCallback source.data) w₁
  have ht₀ : w₁.traffic = w.traffic := traffic_emit (o := .timeoutExpired source) rfl rfl rfl rfl w
  refine h.keep hrec (hclock.trans (clocked_after _ w₁)) (fun _ => ⟨hk.2 ⟨hlw.1, hlw.2, hlw.3⟩, ?_⟩) hr
  rw [ht, ht₀]

/-- Each step of the whole run is at most one step of the restricted run. -/
theorem Isolated.step (h : Isolated s w u) (hstep : Step glib w l w') (hl : ∀ gdir, l ≠ .restart gdir) :
    Isolated s w' u ∨ ∃ l' u', (Step glib u l' u' ∧ OnlyOf s u l') ∧ Isolated s w' u' := by
  obtain ⟨⟨w₀, p⟩, he, rfl⟩ := Option.map_eq_some_iff.1 hstep
  have hr := running_of_enabled he hl
  obtain ⟨hlw, hc⟩ := h.crashes hr
  cases callback_of_enabled he with
  | crash service =>
    -- a crash of the service is matched by the same crash, and that of another one by no step
    by_cases hs : service = s
    · subst hs
      refine .inr ⟨.crash service, _, ⟨?_, rfl⟩, h.crash hr⟩
      unfold Step step enabled
      dsimp only
      rw [if_pos h.running']
      rfl
    · obtain ⟨ht, hk⟩ := traffic_arrive hlw ⟨.serviceCrashed, some service, none, none, ⟨0, 0⟩⟩ none
      exact .inl (h.arrive (calls_pushMonitored _ _) ht hk (by simp [RmgDEvent.crashOf, hs]) hr)
  | restarted service =>
    obtain ⟨ht, hk⟩ := traffic_arrive hlw ⟨.serviceRestarted, some service, none, none, ⟨0, 0⟩⟩ none
    exact .inl (h.arrive (calls_pushMonitored _ _) ht hk (by simp [RmgDEvent.crashOf]) hr)
  | newCrash process context =>
    obtain ⟨ht, hk⟩ := traffic_arrive hlw ⟨.informProcessCrash, none, some process, some context, ⟨0, 0⟩⟩ none
    exact .inl (h.arrive (calls_pushNewCrash _ _) ht hk (by simp [RmgDEvent.crashOf]) hr)
  | fromReplica sockfd msg =>
    obtain ⟨ht, hk⟩ := traffic_clientProcessMessage hlw sockfd msg
    have hquiet := calls_clientProcessMessage sockfd msg
    refine .inl (h.keep (recovery_of_quiet hquiet w) (clocked_after _ w) (fun _ => ⟨hk, ?_⟩) hr)
    rw [ht]
    unfold Traffic.fromReplica
    cases msg.type <;> simp [Traffic.arrive, Traffic.setClientName, RmgDEvent.crashOf]
  | fromPrimary msg =>
    obtain ⟨ht, hk⟩ := traffic_managerProcessMessage hlw msg
    have hquiet := calls_managerProcessMessage msg
    refine .inl (h.keep (recovery_of_quiet hquiet w) (clocked_after _ w) (fun _ => ⟨hk, ?_⟩) hr)
    rw [ht]
    unfold Traffic.fromPrimary
    cases msg.type <;> simp [Traffic.arrive, RmgDEvent.crashOf]
  | @dispatch event queue hq =>
    by_cases hs : (w.heap event).crashOf s
    · obtain ⟨u', hu', ho, hi⟩ := h.dispatch glib hr hq hs
      exact .inr ⟨.dispatch, u', ⟨hu', ho⟩, hi⟩
    · exact .inl (h.dispatch_other hr hq hs)
  | execute hq => exact .inl (h.execute hr hq)
  | @expire source hsrc hd =>
    -- so is a timer of the service
    by_cases hs : source.relaxes s
    · obtain ⟨l', u', hu', ho, hi⟩ := h.expire glib hr hsrc hd hs
      exact .inr ⟨l', u', ⟨hu', ho⟩, hi⟩
    · exact .inl (h.expire_other hr hs)
  | tick =>
    refine .inr ⟨.tick, { u with now := u.now + 1 }, ⟨?_, trivial⟩, ?_⟩
    · unfold Step step enabled
      dsimp only
      rw [if_pos h.running']
      rfl
    · exact ⟨h.alike, congrArg (· + 1) h.now, ⟨h.timed.1, h.timed.2⟩,
        fun _ => ⟨⟨hlw.1, hlw.2, hlw.3⟩, hc⟩, h.running', ⟨h.linked'.1, h.linked'.2, h.linked'.3⟩,
        ⟨h.timed'.1, h.timed'.2⟩⟩
  | restart gdir => exact absurd rfl (hl gdir)

/-- Friend notifications and remote requests change no table. -/
theorem journal_of_foreign (hstep : Step glib w l w') (hf : Foreign w l) : w'.journal = w.journal := by
  obtain ⟨⟨w₀, p⟩, he, rfl⟩ := Option.map_eq_some_iff.1 hstep
  have hnowrite : ∀ (w : Instance) {p : Proc PUnit}, p.Calls Op.NoWrite → (w.after p).journal = w.journal := by
    intro w p hp
    have ht : Triple machine (fun _ _ => True) (fun w' => w'.journal = w.journal) p (fun _ w' => w'.journal = w.journal)
        (fun w' => w'.journal = w.journal) := by
      refine .of_calls (fun op e w' hop _ hw => ?_) hp
      exact (apply_noWrite_journal hop).trans hw
    obtain ⟨hd, ha⟩ := ht.run (e := true) (fun _ => trivial) rfl
    unfold after
    rcases h : (w.run p).1 with _ | ⟨⟩
    · exact ha h
    · exact hd _ h
  cases callback_of_enabled he with
  | newCrash process context => exact hnowrite _ ((calls_pushNewCrash process context).mono fun _ h => h.noWrite)
  | fromReplica sockfd msg => exact hnowrite _ ((calls_clientProcessMessage sockfd msg).mono fun _ h => h.noWrite)
  | fromPrimary msg => exact hnowrite _ ((calls_managerProcessMessage msg).mono fun _ h => h.noWrite)
  | execute hq => exact hnowrite _ ((calls_executorSourceCallback _ _).mono fun _ h => h.quiet.noWrite)
  | @dispatch event queue hq =>
    obtain ⟨event', queue', hq', ht⟩ := hf
    obtain ⟨rfl, -⟩ := List.cons.inj (hq.symm.trans hq')
    obtain ⟨p, hp, hcalls⟩ := calls_of_dispatch (w := { w with dispatcherQueue := queue }) ht
    show (Instance.after _ _).journal = _
    rw [hp]
    exact hnowrite _ (hcalls.mono fun _ h => h.1)
  | crash | restarted | expire | tick | restart => exact hf.elim

/-- Whatever else the instance does, what happens to a service is what happens in a run with the crashes and the timers
of this service only; and what comes from elsewhere changes no table. -/
theorem services_do_not_interfere {w₀ : Instance} {ls : List Label} (hr : w₀.running) (hl : w₀.Linked) (ht : w₀.Timed)
    (hrun : Runs glib w₀ ls w) (hls : ∀ gdir, .restart gdir ∉ ls) :
    (∀ s, ∃ ls' u, Transition.Run (fun u l u' => Step glib u l u' ∧ OnlyOf s u l) (w₀.only s) ls' u ∧ u.now = w.now ∧
      (u.history s).map Output.erased = (w.history s).map Output.erased) ∧
    Transition.Run (fun w l w' => Step glib w l w' ∧ (Foreign w l → w'.journal = w.journal)) w₀ ls w := by
  refine ⟨fun s => ?_, hrun.mono fun w l w' h => ⟨h, journal_of_foreign h⟩⟩
  have hrestart : ∀ l ∈ ls, ∀ _ : Instance, ∀ gdir, l ≠ .restart gdir := by
    rintro l hl w gdir rfl
    exact hls gdir hl
  obtain ⟨ls', u, hu, hi⟩ := (hrun.restrict hrestart).follow (isolated_only hr hl ht)
    fun w l w' u h hstep => h.step hstep.1 hstep.2
  exact ⟨ls', u, hu, hi.now.symm, hi.alike.history.symm⟩

/-- The hypotheses hold after every boot, whatever the tables. -/
theorem linked_timed_of_boot (glib : GLib) (gdir : Option (List UnitFile)) (w : Instance) :
    (w.restarted.after (boot glib gdir)).Linked ∧ (w.restarted.after (boot glib gdir)).Timed := by
  have hl : w.restarted.Linked := ⟨fun _ h => absurd h List.not_mem_nil, fun _ h => absurd h List.not_mem_nil, .nil⟩
  have ht : w.restarted.Timed := ⟨.nil, fun _ h => absurd h List.not_mem_nil⟩
  exact ⟨(traffic_of_calls (calls_boot glib gdir) w.restarted).2.2 hl,
    (clocked_after (boot glib gdir) w.restarted).timed ht⟩

theorem linked_timed_booted (glib : GLib) (w : Instance) (files : List (List Tag)) :
    (booted glib w files).Linked ∧ (booted glib w files).Timed := by
  obtain ⟨hl, ht⟩ := linked_timed_of_boot glib (directory files) w
  exact ⟨⟨hl.1, hl.2, hl.3⟩, ht.1, ht.2⟩

/-- A service that is restarted and one that is disabled. -/
def twoServices : List (List Tag) :=
  [Tag.unit "a.service" [("relaxtime", "5")] [("resetService", "2", "false")],
    Tag.unit "b.service" [("relaxtime", "5")] [("disableService", "1", "true")]]

def servicesUp : Instance := booted (.reading twoServices) (initial .primary "host") twoServices

/-- Both services crash, a process crash is announced, and the timer of the first service expires. -/
def interleavedLabels : List Label :=
  [.crash "a.service", .crash "b.service", .newCrash "p" "c", .dispatch, .dispatch, .execute, .dispatch, .execute] ++
    expireLabels 5 0

private theorem interleaved_isSome : (servicesUp.replayed (.reading twoServices) interleavedLabels).isSome := by
  decide +kernel

theorem services_do_not_interfere_of_two :
    (∀ s, ∃ ls' u, Transition.Run (fun u l u' => Step (.reading twoServices) u l u' ∧ OnlyOf s u l) (servicesUp.only s)
      ls' u ∧ u.now = ((servicesUp.replayed (.reading twoServices) interleavedLabels).get interleaved_isSome).now ∧
      (u.history s).map Output.erased =
        (((servicesUp.replayed (.reading twoServices) interleavedLabels).get interleaved_isSome).history s).map
          Output.erased) ∧
    Transition.Run (fun w l w' => Step (.reading twoServices) w l w' ∧
      (Foreign w l → w'.journal = w.journal)) servicesUp
      interleavedLabels ((servicesUp.replayed (.reading twoServices) interleavedLabels).get interleaved_isSome) := by
  have h := linked_timed_booted (.reading twoServices) (initial .primary "host") twoServices
  exact @services_do_not_interfere _ _ servicesUp _ (by decide +kernel) h.1 h.2
    (runs_of_replayed (Option.some_get interleaved_isSome).symm) (by simp [interleavedLabels, expireLabels])

end Instance

end RecoveryManager
