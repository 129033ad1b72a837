import RecoveryManager.Detection

/-!
# Edges of the recorded state

The handler of an entry compares state and substate with those it has recorded, and the tables it decodes them with
take all unknown names together.  Still it reports exactly the edges of the state: what the gate holds back is no edge,
and what it lets through is recorded, so the state recorded last is always the state announced last.
-/

namespace RecoveryManager

/-- The properties of a signal, and the instance that the handler finds. -/
abbrev Notification := Instance × List (String × String)

/-- The events a callback has put into the dispatcher queue. -/
def postedBetween (w w' : Instance) : List Posting :=
  (w'.dispatcherQueue.drop w.dispatcherQueue.length).map fun event => (w'.heap event).posting

/-- What the handler of an entry posts for the notifications, one after the other. -/
def reported : RmgMEntry → List Notification → List Posting
  | _, [] => []
  | mentry, (w, properties) :: rest =>
    let result := w.run (onPropertiesChanged mentry properties)
    postedBetween w result.2 ++ reported (result.1.getD mentry) rest

/-- The state a notification announces, if it has both properties. -/
def announcedState (n : Notification) : Option ServiceActiveState :=
  match propertyOf "ActiveState" n.2, propertyOf "SubState" n.2 with
  | some activeState, some _ => some (rmgMentryActiveStateFrom activeState)
  | _, _ => none

/-- The event for two states in a row. -/
def edge (before now : ServiceActiveState) : List DispatcherEventType :=
  (if now = .failed ∧ before ≠ .failed then [.serviceCrashed] else []) ++
    if now = .active ∧ before ≠ .active then [.serviceRestarted] else []

/-- The events for a sequence of states. -/
def edges (initial : ServiceActiveState) (states : List ServiceActiveState) : List DispatcherEventType :=
  ((initial :: states).zip states).flatMap fun x => edge x.1 x.2

theorem edges_cons (initial now : ServiceActiveState) (states : List ServiceActiveState) :
    edges initial (now :: states) = edge initial now ++ edges now states := rfl

theorem postedBetween_of_posted {w w' : Instance} {ps : List Posting} (h : Posted w w' ps) :
    postedBetween w w' = ps := by
  obtain ⟨refs, hq, hp, -⟩ := h.queue
  rw [postedBetween, hq, List.drop_left, hp]

theorem postings_eq_edge (mentry : RmgMEntry) (stateName : String) :
    mentry.postings stateName =
      (edge mentry.activeState (rmgMentryActiveStateFrom stateName)).map (·, some mentry.serviceName) := by
  unfold RmgMEntry.postings dispatcherEvent edge
  cases rmgMentryActiveStateFrom stateName <;> cases mentry.activeState <;> rfl

/-- One notification: what is posted, and the entry after it. -/
theorem reported_cons (mentry : RmgMEntry) (n : Notification) (rest : List Notification) :
    reported mentry (n :: rest) = match announcedState n with
      | some now => (edge mentry.activeState now).map (·, some mentry.serviceName) ++
          reported (((n.1.run (onPropertiesChanged mentry n.2)).1).getD mentry) rest
      | none => reported mentry rest := by
  obtain ⟨w, properties⟩ := n
  unfold announcedState
  rcases ha : propertyOf "ActiveState" properties with _ | activeState
  · have hrun : w.run (onPropertiesChanged mentry properties) = (some mentry, w) := by
      unfold onPropertiesChanged
      rw [ha]
      rfl
    rw [reported, hrun]
    simp [postedBetween]
  · rcases hs : propertyOf "SubState" properties with _ | subState
    · have hrun : w.run (onPropertiesChanged mentry properties) = (some mentry, w) := by
        unfold onPropertiesChanged
        rw [ha, hs]
        rfl
      rw [reported, hrun]
      simp [postedBetween]
    · obtain ⟨w', hrun, hposted⟩ := run_onPropertiesChanged (u := ⟨activeState, subState⟩) ha hs w mentry
      rw [reported, hrun, postedBetween_of_posted hposted, postings_eq_edge]

/-- After a complete notification the entry has recorded what was announced. -/
theorem recorded_of_announced (mentry : RmgMEntry) {n : Notification} {now : ServiceActiveState}
    (h : announcedState n = some now) : ∃ substate,
      (n.1.run (onPropertiesChanged mentry n.2)).1 = some ⟨mentry.serviceName, now, substate⟩ := by
  obtain ⟨w, properties⟩ := n
  unfold announcedState at h
  split at h
  · rename_i activeState subState ha hs
    obtain ⟨w', hrun, -⟩ := run_onPropertiesChanged (u := ⟨activeState, subState⟩) ha hs w mentry
    obtain rfl := Option.some.inj h
    exact ⟨_, congrArg Prod.fst hrun⟩
  · cases h

/-- The events posted are exactly the edges of the announced states, whatever the substates are. -/
theorem reports_exactly_edges (mentry : RmgMEntry) (notifications : List Notification) :
    reported mentry notifications =
      (edges mentry.activeState (notifications.filterMap announcedState)).map (·, some mentry.serviceName) := by
  induction notifications generalizing mentry with
  | nil => rfl
  | cons n rest ih =>
    rw [reported_cons]
    rcases ha : announcedState n with _ | now
    · rw [List.filterMap_cons_none ha]
      exact ih mentry
    · obtain ⟨substate, hrecorded⟩ := recorded_of_announced mentry ha
      rw [List.filterMap_cons_some ha, edges_cons, List.map_append, hrecorded]
      exact congrArg _ (ih ⟨mentry.serviceName, now, substate⟩)

end RecoveryManager
