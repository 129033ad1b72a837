import RecoveryManager.Lifetimes
import RecoveryManager.Profile
import RecoveryManager.Quotes

/-!
# The main loop comes to rest

What is left to do for an instance is its queues and its pending timeouts (`Instance.work`): an event at the dispatcher
is worth an event at the executor and a relax timer, an event at the executor as many friend timers as there are friend
rows.  Each step of the loop on its own account takes at least one off, whatever fails (`FaultyStep.work_lt`), so
without input from outside it comes to rest (`comes_to_rest`).

With a quote in the name of a notice the lookup of its rules is another statement, which may return more rows than the
table has.  So no name that an instance has heard of has one.
-/

namespace RecoveryManager

open Fallible Fallible.Prog

/-- The steps the loop takes on what it has. -/
def Label.isInternal : Label → Bool
  | .dispatch | .execute | .expire _ => true
  | _ => false

/-! ### What the callbacks spend -/

/-- An event at the dispatcher is worth `d`, one at the executor `e`, a timeout 1; there are `F` friend rows. -/
def spending (F d e : Nat) (mode : RmgRunMode) : Budget Op Op.Res where
  allowed
    | .sql q => q.KeepsUnits
    | _ => True
  promised
    | .getRunMode, runMode => runMode = mode
    | .sql (.selectFriends ..), some rows => List.length rows ≤ F
    | _, _ => True
  cost
    | .pushDispatcher _ => d
    | .pushExecutor .. => e
    | .timeoutAddSeconds .. => 1
    | _ => 0

section within
variable {F d e : Nat} {mode : RmgRunMode} {event : EventRef}

private theorem within_sql_spending {q : Sql} (h : q.KeepsUnits) : (sqliteExec q).Within (spending F d e mode) 0 :=
  ⟨h, Nat.le_refl 0, fun _ _ => trivial⟩

private theorem within_name_spending (name : Option String) : (gAssertName name).Within (spending F d e mode) 0 := by
  cases name <;> trivial

private theorem within_load_spending : (load event).Within (spending F d e mode) 0 :=
  ⟨trivial, Nat.le_refl 0, fun _ _ => trivial⟩

private theorem within_output_spending (o : Output) : (output o).Within (spending F d e mode) 0 :=
  ⟨trivial, Nat.le_refl 0, fun _ _ => trivial⟩

private theorem within_service_spending {α : Type} (service : Option String) (response : α) (column : ServiceRow → α) :
    (getServiceColumn service response column).Within (spending F d e mode) 0 :=
  (within_name_spending service).free_bind fun _ => (within_sql_spending (.inl rfl)).free_bind fun r => by
    cases r <;> exact within_pure _

private theorem within_setRvector_spending (service : Option String) (v : Int) :
    (rmgJournalSetRvector service v).Within (spending F d e mode) 0 :=
  (within_name_spending service).free_bind fun s => (within_sql_spending (.inr ⟨s, v, rfl⟩)).free_bind fun r => by
    cases r <;> exact within_pure _

/-- The dispatcher starts at most one relax timer and queues nothing for itself. -/
private theorem within_dispatch (F d : Nat) (mode : RmgRunMode) (event : EventRef) :
    (dispatcherSourceCallback event).Within (spending F d 0 mode) 1 := by
  refine (within_dispatcherSourceCallback event (fun _ => True) mode 1 0 0).relax (fun op h => ?_) fun op r hr => ?_
  · cases op with
    | sql q => exact ⟨h, Nat.le_refl 0⟩
    | pushDispatcher event' => exact h.elim
    | pushExecutor | emit => exact ⟨trivial, Nat.zero_le _⟩
    | _ => exact ⟨trivial, Nat.le_refl _⟩
  · cases op with
    | getRunMode => exact hr
    | getClients => exact fun _ _ => trivial
    | _ => trivial

/-! ### The executor and the timers -/

private theorem within_foreachServiceFriend (friend : RmgFriendResponseEntry) :
    (foreachServiceFriend friend).Within (spending F d e mode) 1 :=
  ⟨trivial, Nat.le_refl 1, fun _ _ => within_pure _⟩

private theorem within_friends (type : RmgFriendType) :
    (doProcessFriendCrashEvent event type).Within (spending F d e mode) F := by
  have hlen : ∀ rows : List FriendRow, rows.length ≤ F → (rows.map FriendRow.response).length * 1 ≤ F := by
    intro rows h
    rwa [Nat.mul_one, List.length_map]
  refine within_load_spending.free_bind fun e => ?_
  cases hn : (if type = .process then e.processName else e.serviceName) with
  | none => exact within_abort
  | some name =>
    cases e.contextName with
    | none => exact within_abort
    | some context =>
      refine ⟨.inl rfl, Nat.zero_le F, fun r hr => ?_⟩
      cases r with
      | none => exact within_pure _
      | some rows => exact (Within.forM fun f _ => within_foreachServiceFriend f).mono (hlen rows hr)

/-- The executor starts at most one timer for each friend row. -/
private theorem within_execute (F d e : Nat) (mode : RmgRunMode) (type : ExecutorEventType) (event : EventRef) :
    (executorSourceCallback type event).Within (spending F d e mode) F := by
  cases h : type.isRecovery with
  | true =>
    refine ((within_executorSourceCallback h event (fun _ => True) mode 0).relax (fun op hop => ?_)
      fun op r hr => ?_).mono (by split <;> exact Nat.zero_le F)
    · cases op with
      | sql q => exact ⟨.inl hop, Nat.le_refl 0⟩
      | newEvent | setContextName | pushDispatcher | pushExecutor | timeoutAddSeconds | getClients | setClientName |
        clientSend => exact hop.elim
      | emit => exact ⟨trivial, Nat.zero_le _⟩
      | _ => exact ⟨trivial, Nat.le_refl 0⟩
    · cases op with
      | getRunMode => exact hr
      | _ => trivial
  | false =>
    cases type with
    | friendProcessCrash => exact within_friends _
    | friendServiceFailed => exact within_friends _
    | _ => cases h

theorem within_timerCallback (F d e : Nat) (mode : RmgRunMode) (data : TimerData) :
    (timerCallback data).Within (spending F d e mode) 0 := by
  cases data with
  | friend t =>
    obtain ⟨service, action, argument⟩ := t
    cases action with
    | unknown | invalid => exact ⟨trivial, Nat.le_refl 0, fun _ _ => within_pure _⟩
    | start | stop | restart | signal =>
      refine ⟨trivial, Nat.le_refl 0, fun sdManagerProxy _ => ?_⟩
      cases sdManagerProxy with
      | false => exact within_pure _
      | true => exact within_output_spending _
  | relax t =>
    refine (within_service_spending _ _ _).free_bind fun r => ?_
    dsimp only
    split
    · exact within_pure _
    · split
      · exact (within_setRvector_spending _ _).free_bind fun _ => within_pure _
      · exact within_pure _

end within

/-! ### Steps -/

namespace Instance

variable {glib : GLib} {w w' : Instance} {l : Label}

/-- What there is to do, for these prices. -/
def worth (d e : Nat) (w : Instance) : Nat :=
  w.dispatcherQueue.length * d + w.executorQueue.length * e + w.sources.length

private theorem commit_worth (d e : Nat) (w : Instance) (q : Sql) (j : Journal) :
    (w.commit q j).worth d e = w.worth d e := by
  unfold commit
  split <;> rfl

theorem commit_friends {q : Sql} {j : Journal} (hq : q.KeepsUnits) (hj : q.effect w.journal = some j) :
    (w.commit q j).journal.friends = w.journal.friends := by
  rcases hq with hq | ⟨s, v, rfl⟩
  · rw [commit_of_isSelect hq]
  · obtain rfl := Option.some.inj hj
    rfl

private theorem promised_rows {F d e : Nat} {mode : RmgRunMode} (q : Sql) {j : Journal} (hF : j.friends.length ≤ F) :
    (spending F d e mode).promised (.sql q) (some (q.rows j)) := by
  cases q with
  | selectFriends friend context type => exact (List.length_filter_le _ _).trans hF
  | _ => trivial

/-- No operation is worth more than it costs. -/
private theorem apply_worth {F d e : Nat} {mode : RmgRunMode} (fr : List FriendRow) (hF : fr.length ≤ F) (op : Op)
    (ok : Bool) (w : Instance) (hmode : w.runMode = mode) (ha : (spending F d e mode).allowed op)
    (hfr : w.journal.friends = fr) :
    (machine.apply op ok w).2.journal.friends = fr ∧ (spending F d e mode).promised op (machine.apply op ok w).1 ∧
      (machine.apply op ok w).2.worth d e ≤ w.worth d e + (spending F d e mode).cost op := by
  have hsame : ∀ w' : Instance, w'.journal = w.journal → w'.dispatcherQueue = w.dispatcherQueue →
      w'.executorQueue = w.executorQueue → w'.sources = w.sources →
        w'.journal.friends = fr ∧ w'.worth d e ≤ w.worth d e + 0 := by
    intro w' hj hd he hs
    unfold worth
    rw [hj, hd, he, hs]
    exact ⟨hfr, Nat.le_refl _⟩
  cases op with
  | sql q =>
    show (apply (.sql q) ok w).2.journal.friends = fr ∧
      (spending F d e mode).promised (.sql q) (apply (.sql q) ok w).1 ∧
      (apply (.sql q) ok w).2.worth d e ≤ w.worth d e
    rcases apply_sql w q ok with h | ⟨j, hj, h⟩
    · rw [h]
      exact ⟨hfr, by cases q <;> trivial, Nat.le_refl _⟩
    · rw [h]
      exact ⟨(commit_friends ha hj).trans hfr, promised_rows q (hfr ▸ hF), (commit_worth d e w q j).le⟩
  | pushDispatcher event =>
    refine ⟨hfr, trivial, ?_⟩
    show (w.dispatcherQueue ++ [event]).length * d + w.executorQueue.length * e + w.sources.length ≤
      w.dispatcherQueue.length * d + w.executorQueue.length * e + w.sources.length + d
    rw [List.length_append, List.length_singleton, Nat.add_mul]
    omega
  | pushExecutor type event =>
    refine ⟨hfr, trivial, ?_⟩
    show w.dispatcherQueue.length * d + (w.executorQueue ++ [(type, event)]).length * e + w.sources.length ≤
      w.dispatcherQueue.length * d + w.executorQueue.length * e + w.sources.length + e
    rw [List.length_append, List.length_singleton, Nat.add_mul]
    omega
  | timeoutAddSeconds seconds data =>
    refine ⟨hfr, trivial, ?_⟩
    show _ + (w.sources ++ [_]).length ≤ w.worth d e + 1
    rw [List.length_append, List.length_singleton]
    exact Nat.le_refl _
  | clientSend =>
    cases ok with
    | true => exact ⟨(hsame _ rfl rfl rfl rfl).1, trivial, (hsame _ rfl rfl rfl rfl).2⟩
    | false => exact ⟨hfr, trivial, Nat.le_refl _⟩
  | managerSend =>
    cases ok with
    | true => exact ⟨(hsame _ rfl rfl rfl rfl).1, trivial, (hsame _ rfl rfl rfl rfl).2⟩
    | false => exact ⟨hfr, trivial, Nat.le_refl _⟩
  | getRunMode => exact ⟨hfr, hmode, Nat.le_refl _⟩
  | _ => exact ⟨(hsame _ rfl rfl rfl rfl).1, trivial, (hsame _ rfl rfl rfl rfl).2⟩

private theorem spent_of_callback {F d e n : Nat} {p : Proc PUnit} {o : Outcome PUnit} {w₁ : Instance}
    (hx : Exec machine Unreliable p w o w₁) (hp : p.Within (spending F d e w.runMode) n)
    (hF : w.journal.friends.length ≤ F) :
    (ended o w₁).journal.friends = w.journal.friends ∧ (ended o w₁).worth d e ≤ w.worth d e + n := by
  have hspent : w₁.journal.friends = w.journal.friends ∧ w₁.worth d e ≤ w.worth d e + n :=
    (hx.spends (I := fun w' => w'.journal.friends = w.journal.friends ∧ w'.runMode = w.runMode)
      (fun op ok w' ha _ hw' => by
        obtain ⟨hfr, hr, hm⟩ := apply_worth w.journal.friends hF op ok w' hw'.2 ha hw'.1
        exact ⟨⟨hfr, (congrArg Identity.runMode (apply_identity op ok w')).trans hw'.2⟩, hr, hm⟩) hp
      ⟨rfl, rfl⟩).imp_left And.left
  cases o <;> exact hspent

/-- What the loop has to do. -/
def work (w : Instance) : Nat := w.worth (w.journal.friends.length + 3) (w.journal.friends.length + 1)

theorem work_pos {x : Instance × Proc PUnit} (he : w.enabled glib l = some x) (hl : l.isInternal) : 0 < w.work := by
  obtain ⟨w₀, p⟩ := x
  unfold work worth
  cases callback_of_enabled he with
  | dispatch hq =>
    rw [hq, List.length_cons, Nat.succ_mul]
    omega
  | execute hq =>
    rw [hq, List.length_cons, Nat.succ_mul]
    omega
  | expire hm hd =>
    have := List.length_pos_of_mem hm
    omega
  | _ => cases hl

/-- A step of the loop on its own account takes off what there is to do. -/
theorem AccountedStep.work_lt {x y : Instance × Ledger} (hs : AccountedStep glib x l y) (h : Accounts x)
    (hl : l.isInternal) (hy : y.1.running) : y.1.work < x.1.work := by
  have hposted : l = .dispatch → y.1.executorQueue.length ≤ x.1.executorQueue.length + 1 := by
    rintro rfl
    exact hs.executorQueue_le h hy
  obtain ⟨w₀, p, o, w₁, he, hx, hend⟩ := hs.faulty
  rw [hend] at hposted ⊢
  cases callback_of_enabled he with
  | @dispatch event queue hq =>
    have hspent := spent_of_callback hx
      (within_dispatch _ (x.1.journal.friends.length + 3) _ event) (Nat.le_refl _)
    have hposted := hposted rfl
    have hfr : (ended o w₁).journal.friends = x.1.journal.friends := hspent.1
    have hw := hspent.2
    unfold work
    rw [hfr]
    unfold worth at hw ⊢
    dsimp only at hw
    have hmul := Nat.mul_le_mul_right (x.1.journal.friends.length + 1) hposted
    rw [Nat.add_mul] at hmul
    rw [hq, List.length_cons, Nat.succ_mul]
    omega
  | @execute type event queue hq =>
    have hspent := spent_of_callback hx
      (within_execute _ (x.1.journal.friends.length + 3) (x.1.journal.friends.length + 1) _ type event)
        (Nat.le_refl _)
    have hfr : (ended o w₁).journal.friends = x.1.journal.friends := hspent.1
    have hw := hspent.2
    unfold work
    rw [hfr]
    unfold worth at hw ⊢
    dsimp only at hw
    rw [hq, List.length_cons, Nat.succ_mul]
    omega
  | @expire source hm hd =>
    have hspent := spent_of_callback hx
      (within_timerCallback x.1.journal.friends.length (x.1.journal.friends.length + 3)
        (x.1.journal.friends.length + 1) _ source.data) (Nat.le_refl _)
    have hlen : (x.1.sources.filter (· ≠ source)).length < x.1.sources.length :=
      List.length_filter_lt_length_iff_exists.2 ⟨source, hm, by simp⟩
    have hfr : (ended o w₁).journal.friends = x.1.journal.friends := hspent.1
    have hw := hspent.2
    unfold work
    rw [hfr]
    unfold worth emit at hw
    unfold worth
    dsimp only at hw
    omega
  | _ => cases hl

/-! ### Runs -/

/-- The same in a run, whatever ledger is kept of it. -/
theorem FaultyStep.work_lt {w₀ : Instance} {ls : List Label} (h₀ : w₀.Fresh) (hr : FaultyRuns glib w₀ ls w)
    (hs : FaultyStep glib w l w') (hl : l.isInternal) (hrun : w'.running) : w'.work < w.work := by
  obtain ⟨L, hL⟩ := exists_accounted hr .empty
  obtain ⟨L', hL'⟩ := exists_accounted (.single hs) L
  exact (Transition.Run.of_single hL').work_lt (accounts_of_run h₀ hL) hl hrun

theorem FaultyStep.work_tick (hs : FaultyStep glib w .tick w') : w'.work = w.work ∧ w'.running := by
  have hrun := hs.running (by simp)
  obtain ⟨w₀, p, o, w₁, he, hx, rfl⟩ := hs
  cases callback_of_enabled he with
  | tick =>
    cases hx
    exact ⟨rfl, hrun⟩

private theorem step_of_enabled {x : Instance × Proc PUnit} (h : w.enabled glib l = some x) :
    ∃ w', Step glib w l w' :=
  ⟨_, by rw [Step, step, h]; rfl⟩

/-- Time passes. -/
private theorem runs_tick (glib : GLib) (hrun : w.running) (n : Nat) :
    Runs glib w (List.replicate n .tick) { w with now := w.now + n } := by
  induction n with
  | zero => exact .nil
  | succ n ih =>
    rw [List.replicate_succ']
    refine ih.snoc ?_
    show step glib _ _ = _
    unfold step enabled
    dsimp only
    rw [if_pos hrun]
    rfl

/-- As long as there is something to do, the loop does it after a while. -/
private theorem exists_internal (glib : GLib) (hrun : w.running)
    (hw : ¬ (w.dispatcherQueue = [] ∧ w.executorQueue = [] ∧ w.sources = [])) :
    ∃ n l w', l.isInternal ∧ Step glib { w with now := w.now + n } l w' := by
  by_cases hd : w.dispatcherQueue = []
  · by_cases he : w.executorQueue = []
    · obtain ⟨source, hm⟩ := List.exists_mem_of_ne_nil w.sources fun hs => hw ⟨hd, he, hs⟩
      refine ⟨source.deadline, .expire source.id, ?_⟩
      have hfind : (w.sources.find? fun s => s.id = source.id ∧ s.deadline ≤ w.now + source.deadline).isSome := by
        rw [List.find?_isSome]
        exact ⟨source, hm, by simp⟩
      obtain ⟨found, hfound⟩ := Option.isSome_iff_exists.1 hfind
      have henabled : ({ w with now := w.now + source.deadline } : Instance).enabled glib (.expire source.id) =
          some (({ w with now := w.now + source.deadline, sources := w.sources.filter (· ≠ found) } : Instance).emit
            (.timeoutExpired found), timerCallback found.data) := by
        unfold enabled
        dsimp only
        rw [if_pos hrun, hfound]
      obtain ⟨w', hstep⟩ := step_of_enabled henabled
      exact ⟨w', rfl, hstep⟩
    · obtain ⟨⟨type, event⟩, queue, hq⟩ := List.exists_cons_of_ne_nil he
      have henabled : ({ w with now := w.now + 0 } : Instance).enabled glib .execute =
          some ({ w with now := w.now + 0, executorQueue := queue }, executorSourceCallback type event) := by
        unfold enabled
        dsimp only
        rw [if_pos hrun, hq]
      obtain ⟨w', hstep⟩ := step_of_enabled henabled
      exact ⟨0, .execute, w', rfl, hstep⟩
  · obtain ⟨event, queue, hq⟩ := List.exists_cons_of_ne_nil hd
    have henabled : ({ w with now := w.now + 0 } : Instance).enabled glib .dispatch =
        some ({ w with now := w.now + 0, dispatcherQueue := queue }, dispatcherSourceCallback event) := by
      unfold enabled
      dsimp only
      rw [if_pos hrun, hq]
    obtain ⟨w', hstep⟩ := step_of_enabled henabled
    exact ⟨0, .dispatch, w', rfl, hstep⟩

/-- The label is one of the loop itself or of the clock. -/
def OfItself (l : Label) : Prop := l.isInternal ∨ l = .tick

private theorem countP_le_work {w₀ : Instance} {ls₀ ls : List Label} (h₀ : w₀.Fresh) (hr : FaultyRuns glib w₀ ls₀ w)
    (hs : FaultyRuns glib w ls w') (hl : ∀ l ∈ ls, OfItself l) :
    ls.countP Label.isInternal + (if w'.running then w'.work else 0) ≤ w.work := by
  induction hs with
  | nil =>
    rw [List.countP_nil]
    split <;> omega
  | @snoc ls t u l hs hstep ih =>
    have ih := ih fun l hm => hl l (by simp [hm])
    have hlast := hl l (by simp)
    have hrun : t.running := hstep.running fun gdir => by
      rintro rfl
      simp [OfItself, Label.isInternal] at hlast
    rw [if_pos hrun] at ih
    rw [List.countP_append, List.countP_singleton]
    by_cases hin : l.isInternal
    · rw [if_pos hin]
      by_cases hu : u.running
      · have := hstep.work_lt h₀ (hr.trans hs) hin hu
        rw [if_pos hu]
        omega
      · obtain ⟨_, _, _, _, he, -, -⟩ := hstep
        have := work_pos he hin
        rw [if_neg hu]
        omega
    · obtain rfl := hlast.resolve_left hin
      obtain ⟨hw, hu⟩ := hstep.work_tick
      rw [if_neg hin, if_pos hu]
      omega

theorem exists_rest {w₀ : Instance} (h₀ : w₀.Fresh) (n : Nat) : ∀ {w : Instance} {ls₀ : List Label},
    FaultyRuns glib w₀ ls₀ w → w.work ≤ n → ∃ ls w', Runs glib w ls w' ∧ (∀ l ∈ ls, OfItself l) ∧
      (w'.running → w'.dispatcherQueue = [] ∧ w'.executorQueue = [] ∧ w'.sources = []) := by
  induction n with
  | zero =>
    intro w ls₀ hr hn
    by_cases hrest : w.running → w.dispatcherQueue = [] ∧ w.executorQueue = [] ∧ w.sources = []
    · exact ⟨[], w, .nil, by simp, hrest⟩
    · obtain ⟨hrun, hw⟩ := Classical.not_imp.1 hrest
      obtain ⟨k, l, w', hl, hstep⟩ := exists_internal glib hrun hw
      obtain ⟨_, _, _, _, he, -, -⟩ := hstep.faulty
      have hpos : 0 < ({ w with now := w.now + k } : Instance).work := work_pos he hl
      exact absurd hn (Nat.not_le.2 hpos)
  | succ n ih =>
    intro w ls₀ hr hn
    by_cases hrest : w.running → w.dispatcherQueue = [] ∧ w.executorQueue = [] ∧ w.sources = []
    · exact ⟨[], w, .nil, by simp, hrest⟩
    · obtain ⟨hrun, hw⟩ := Classical.not_imp.1 hrest
      obtain ⟨k, l, w', hl, hstep⟩ := exists_internal glib hrun hw
      have hticks := runs_tick glib hrun k
      have hall : ∀ l' ∈ List.replicate k Label.tick ++ [l], OfItself l' := by
        intro l' hm
        rcases List.mem_append.1 hm with hm | hm
        · exact .inr (List.eq_of_mem_replicate hm)
        · exact .inl (List.mem_singleton.1 hm ▸ hl)
      have hr' := (hr.trans (hticks.mono fun _ _ _ => Step.faulty)).snoc hstep.faulty
      by_cases hrun' : w'.running
      · have hlt : w'.work < ({ w with now := w.now + k } : Instance).work :=
          hstep.faulty.work_lt h₀ (hr.trans (hticks.mono fun _ _ _ => Step.faulty)) hl hrun'
        have hlt : w'.work < w.work := hlt
        obtain ⟨ls, u, hu, hls, hq⟩ := ih hr' (by omega)
        refine ⟨_, u, (hticks.snoc hstep).trans hu, fun l' hm => ?_, hq⟩
        rcases List.mem_append.1 hm with hm | hm
        · exact hall l' hm
        · exact hls l' hm
      · exact ⟨_, w', hticks.snoc hstep, hall, fun h => absurd h hrun'⟩

/-- From every state that a run without a name with a quote can reach, whatever failed on the way: left to itself, the
loop takes at most `work` steps, however the ready sources take turns, the clock goes on and statements and sends turn
out; and where they go through, it comes to rest, with both queues empty and no timeout pending. -/
theorem comes_to_rest {w₀ : Instance} {ls₀ : List Label} (h₀ : w₀.Fresh) (hr : PlainRuns glib w₀ ls₀ w) :
    (∀ ls w', FaultyRuns glib w ls w' → (∀ l ∈ ls, OfItself l) → ls.countP Label.isInternal ≤ w.work) ∧
      ∃ ls w', Runs glib w ls w' ∧ (∀ l ∈ ls, OfItself l) ∧
        (w'.running → w'.dispatcherQueue = [] ∧ w'.executorQueue = [] ∧ w'.sources = []) := by
  refine ⟨fun ls w' hs hl => ?_, exists_rest h₀ w.work hr.runs (Nat.le_refl _)⟩
  have := countP_le_work h₀ hr.runs hs hl
  omega

/-- Two crashes the executor has not got to. -/
theorem comes_to_rest_after_crashes :
    (∀ ls w', FaultyRuns (.reading [resettingUnit]) (crashesPosted.get crashesPosted_isSome) ls w' →
      (∀ l ∈ ls, OfItself l) → ls.countP Label.isInternal ≤ 2) ∧
    ∃ ls w', Runs (.reading [resettingUnit]) (crashesPosted.get crashesPosted_isSome) ls w' ∧ (∀ l ∈ ls, OfItself l) ∧
      (w'.running → w'.dispatcherQueue = [] ∧ w'.executorQueue = [] ∧ w'.sources = []) := by
  have hr : PlainRuns (.reading [resettingUnit]) (initial .primary "host") _ (crashesPosted.get crashesPosted_isSome) :=
    ⟨quoteFree_initial .primary (by decide), by decide +kernel,
      (runs_of_replayed (Option.some_get crashesPosted_isSome).symm).mono fun _ _ _ => Step.faulty⟩
  have hwork : (crashesPosted.get crashesPosted_isSome).work = 2 := by decide +kernel
  rw [← hwork]
  exact comes_to_rest (fresh_initial _ _) hr

end Instance

end RecoveryManager
