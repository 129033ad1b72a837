import RecoveryManager.Boot
import RecoveryManager.UnitSource

/-!
# Climbing the ladder of a unit

Runs in which the unit file of a service does not change (`Instance.UnchangedRuns`), from rvector zero.

* With no relax timer coming back to zero, the rvector counts the crashes, and the answers to them follow the levels
  (`Recovery.Climbing`).  Up to the sum of the retry counts they are the expanded ladder; one more crash performs the
  last action once more, because it owns the upper end of the ladder as well.
* A reset-marked action is performed at the first of its levels only, and what comes after it is never reached
  (`Recovery.Closed`).  Factory reset leaves the rvector alone and does not close the ladder.
-/

namespace RecoveryManager

open Fallible Ladder

/-! ### Runs with an unchanged unit file -/

/-- Every readable file that names the service has the text `text`. -/
def Label.Unchanged (glib : GLib) (hostName s : String) (text : UnitText) : Label → Prop
  | .restart gdir => ∀ files, gdir = some files → ∀ f ∈ files, f.contents.isSome → (glib.markup f.text).ok →
      (entryOf glib hostName f.text).name = some s → f.text = text
  | _ => True

theorem Label.Unchanged.keeps {glib : GLib} {hostName s : String} {text : UnitText} {l : Label}
    (h : l.Unchanged glib hostName s text) : l.Keeps glib hostName s (rmgUtilsJenkinsHash text) := by
  cases l with
  | restart gdir => exact fun files hg f hf hc hok hn => by rw [h files hg f hf hc hok hn]
  | _ => trivial

/-- The rows of a service are those of a unit, up to the rvector. -/
structure Recovery.Follows (unit : View) (R : Recovery) : Prop where
  hash : R.view.hash = unit.hash
  actions : R.view.actions = unit.actions

theorem Recovery.Move.follows {s : String} {c : Recovery.Setting} {R R' : Recovery} {unit : View}
    (h : Recovery.Move s c R R') (hc : c.fixed) (hf : R.Follows unit) : R'.Follows unit := by
  cases h with
  | uncovered => exact ⟨hf.hash, hf.actions⟩
  | crash => exact ⟨by rw [Recovery.crash_hash, hf.hash], by rw [Recovery.crash_actions, hf.actions]⟩
  | expire => exact ⟨by rw [Recovery.expire_hash, hf.hash], by rw [Recovery.expire_actions, hf.actions]⟩
  | boot hv _ hq =>
    subst hv
    rw [hq hc]
    exact ⟨hf.hash, hf.actions⟩

namespace Instance

variable {glib : GLib} {s : String} {text : UnitText} {w₀ w : Instance} {ls : List Label}

/-- Runs in which the file of the service stays as it is. -/
abbrev UnchangedRuns (glib : GLib) (s : String) (text : UnitText) : Instance → List Label → Instance → Prop :=
  Transition.Run fun w l w' => Step glib w l w' ∧ l.Unchanged glib w.hostName s text

/-- The rule for invariants of these runs: it is enough to look at the moves that keep the unit. -/
theorem recovery_of_unchangedRuns {I : Recovery → Prop} (hr : UnchangedRuns glib s text w₀ ls w)
    (hv : w₀.journal.view s = unitView glib w₀.hostName text) (h0 : I (w₀.recovery s))
    (hm : ∀ c R R', c.fixed → R.Follows (unitView glib w₀.hostName text) → I R → Recovery.Move s c R R' → I R') :
    I (w.recovery s) := by
  suffices h : w.hostName = w₀.hostName ∧ (w.recovery s).Follows (unitView glib w₀.hostName text) ∧
      I (w.recovery s) from h.2.2
  have hrow : (w₀.recovery s).view = unitView glib w₀.hostName text := hv
  refine hr.invariant (I := fun w => w.hostName = w₀.hostName ∧
    (w.recovery s).Follows (unitView glib w₀.hostName text) ∧ I (w.recovery s))
    ⟨rfl, ⟨by rw [hrow], by rw [hrow]⟩, h0⟩ ?_
  rintro w l w' ⟨hn, hf, hi⟩ ⟨hs, hu⟩
  have hn' := (hostName_of_step hs).trans hn
  rcases move_of_step hs s with ⟨-, he⟩ | h
  · rw [he]
    exact ⟨hn', hf, hi⟩
  · have hfix : (setting glib s w l w').fixed := by
      show l.Keeps glib w.hostName s (w.recovery s).view.hash
      rw [hf.hash, unitView_hash]
      exact hu.keeps
    exact ⟨hn', h.follows hfix hf, hm _ _ _ hfix hf hi h⟩

end Instance

/-! ### Counting up -/

namespace Recovery

/-- What crash number `k`, counted from 0, pushes when the rvector was never set back. -/
def levelAnswer (unit : View) (k : Nat) : List ExecutorEventType :=
  ((if unit.hash = 0 then none else selectedAt unit.actions (1 + k)).bind (·.actionType.kind)).toList

/-- The rvector counts the crashes, and each was answered at its level. -/
structure Climbing (unit : View) (R : Recovery) : Prop where
  answers : R.answers = (List.range R.crashes).map (levelAnswer unit)
  rvector : unit.hash ≠ 0 → R.view.rvector = R.crashes

variable {s : String} {c : Setting} {R R' : Recovery} {unit : View}

theorem zero_mem_crash (e : RmgDEvent) (id now : Nat) (h : R.selected.resets) :
    .statement (.updateRvector s 0) ∈ (R.crash s e id now).history := by
  rw [crash_history]
  refine List.mem_append_right _ (List.mem_append_right _ ?_)
  unfold armOutputs
  simp only [h, if_true]
  split <;> simp

private theorem foldl_answer_timeoutAdded (new : List GSource) (acc : List (List ExecutorEventType)) :
    (new.map Output.timeoutAdded).foldl answer acc = acc := by
  induction new generalizing acc with
  | nil => rfl
  | cons source new ih => exact ih acc

private theorem selected_kind (R : Recovery) : R.selected.actionType.kind = R.next.bind (·.actionType.kind) := by
  unfold selected
  cases R.next <;> rfl

private theorem Climbing.answered (h : Climbing unit R) {x : List ExecutorEventType}
    (ha : R'.answers = R.answers ++ [x]) (hc : R'.crashes = R.crashes + 1) (hx : x = levelAnswer unit R.crashes)
    (hr : unit.hash ≠ 0 → R'.view.rvector = R.view.rvector + 1) : Climbing unit R' where
  answers := by
    rw [ha, hc, List.range_succ, List.map_append, ← h.answers, hx]
    rfl
  rvector := fun hh => by
    rw [hr hh, h.rvector hh, hc]
    omega

theorem Move.history_subset (h : Move s c R R') : R.history ⊆ R'.history := by
  cases h with
  | uncovered => exact List.subset_append_of_subset_left _ (List.subset_append_left _ _)
  | crash => rw [crash_history]; exact List.subset_append_left _ _
  | expire => rw [expire_history]; exact List.subset_append_left _ _
  | boot => exact List.subset_append_of_subset_left _ (List.subset_append_left _ _)

/-- A move keeps the count, unless it sets the rvector to zero. -/
private theorem Climbing.move (hc : c.fixed) (hf : R.Follows unit) (h : Climbing unit R) (hm : Move s c R R')
    (hz : .statement (.updateRvector s 0) ∉ R'.history) : Climbing unit R' := by
  cases hm with
  | uncovered cause h0 =>
    have hu : unit.hash = 0 := hf.hash ▸ h0
    refine h.answered (x := []) ?_ ?_ (by simp [levelAnswer, hu]) (fun hh => absurd hu hh)
    · simp [Recovery.answers, emit, answer]
    · simp only [Recovery.crashes, emit, List.append_assoc, List.countP_append]
      rfl
  | crash id now _ _ _ hh =>
    have hres : R.selected.resets = false := by
      by_contra hr
      exact hz (zero_mem_crash _ _ _ (by simpa using hr))
    have hu : unit.hash ≠ 0 := hf.hash ▸ hh
    refine h.answered (answers_crash R s _ id now) (crashes_crash R s _ id now) ?_ fun _ => ?_
    · rw [selected_kind, next, hf.actions, h.rvector hu, levelAnswer, if_neg hu, Int.add_comm]
    · rw [crash_rvector s _ id now hh, hres]
      simp
  | @expire source t _ hs hd =>
    have hne : R.view.rvector ≠ t.rvector := fun he => hz (by rw [expire_history, if_pos he]; simp)
    refine ⟨?_, fun hh => ?_⟩
    · rw [answers_expire, crashes_expire]
      exact h.answers
    · rw [expire_rvector, if_neg hne, crashes_expire, h.rvector hh]
  | @boot v qs new hv _ hq =>
    obtain rfl := hq hc
    subst hv
    have ha : (Recovery.mk (replay s [] R.view) new (R.history ++ [].map .statement ++ new.map .timeoutAdded)).answers =
        R.answers := by
      unfold Recovery.answers
      rw [List.map_nil, List.append_nil, List.foldl_append, foldl_answer_timeoutAdded]
    have hn : (Recovery.mk (replay s [] R.view) new (R.history ++ [].map .statement ++ new.map .timeoutAdded)).crashes =
        R.crashes := by
      simp [Recovery.crashes, List.countP_eq_zero, Output.crashed]
    exact ⟨by rw [ha, hn]; exact h.answers, fun hh => by rw [hn]; exact h.rvector hh⟩

private theorem Climbing.getElem? (h : Climbing unit R) {k : Nat} (hk : k < R.crashes) :
    R.answers[k]? = some (levelAnswer unit k) := by
  rw [h.answers, List.getElem?_map, List.getElem?_range hk]
  rfl

/-- Crash number `k`, counted from 0, is answered by the action that owns it; after the last one there is no answer. -/
structure FollowsRetries (as : List ActionSettings) (R : Recovery) : Prop where
  within : ∀ ys a zs (k : Nat), as = ys ++ a :: zs → total ActionSettings.retry ys ≤ k →
    k < total ActionSettings.retry ys + a.retry → k < R.crashes →
      ∃ type, a.actionType.kind = some type ∧ R.answers[k]? = some [type]
  beyond : ∀ k : Nat, total ActionSettings.retry as ≤ k → k < R.crashes → R.answers[k]? = some []

section exact
variable {as : List ActionSettings} (hrungs : unit.actions.map ActionRow.rung = climb ActionSettings.retry 1 as)
  (hpos : ∀ a ∈ as, 0 < a.retry) (hkind : ∀ a ∈ as, a.actionType.kind.isSome)
include hrungs hpos hkind

private theorem levelAnswer_of_owner (hh : unit.hash ≠ 0) {ys zs : List ActionSettings} {a : ActionSettings} {k : Nat}
    (has : as = ys ++ a :: zs) (h₁ : total ActionSettings.retry ys ≤ k)
    (h₂ : k < total ActionSettings.retry ys + a.retry) :
    ∃ type, a.actionType.kind = some type ∧ levelAnswer unit k = [type] := by
  obtain ⟨type, ht⟩ := Option.isSome_iff_exists.1 (hkind a (by simp [has]))
  refine ⟨type, ht, ?_⟩
  rw [levelAnswer, if_neg hh, selectedAt, hrungs, has,
    lastAt_climb (fun b hb => hpos b (by simp [has, hb])) (by omega) (by omega), Option.bind_some, ht]
  rfl

/-- The last action answers once more at the upper end. -/
private theorem levelAnswer_top (hh : unit.hash ≠ 0) (hn : as ≠ []) {k : Nat} (hk : total ActionSettings.retry as = k) :
    levelAnswer unit k ≠ [] := by
  obtain ⟨ys, a, rfl⟩ := List.eq_nil_or_concat as |>.resolve_left hn
  rw [List.concat_eq_append] at *
  obtain ⟨type, ht⟩ := Option.isSome_iff_exists.1 (hkind a (by simp))
  have ha : 0 < a.retry := hpos a (by simp)
  rw [total_append, total_cons, total_nil] at hk
  rw [levelAnswer, if_neg hh, selectedAt, hrungs, lastAt_climb_top ha (by omega), Option.bind_some, ht]
  simp

/-- While nothing sets the rvector back, the answers follow the retry counts as long as the crashes do not outnumber
them. -/
theorem Climbing.followsRetries_iff (hn : as ≠ []) (h : Climbing unit R) : R.FollowsRetries as ↔
    R.crashes = 0 ∨ (unit.hash ≠ 0 ∧ R.crashes ≤ total ActionSettings.retry as) := by
  constructor
  · intro hf
    by_contra hno
    obtain ⟨hne, hno⟩ := not_or.1 hno
    have hlen : 0 < R.crashes := Nat.pos_of_ne_zero hne
    by_cases hh : unit.hash = 0
    · obtain ⟨a, zs, rfl⟩ := List.exists_cons_of_ne_nil hn
      have ha := hpos a (by simp)
      obtain ⟨type, -, hp⟩ := hf.within [] a zs 0 rfl (by simp) (by simpa using ha) hlen
      rw [h.getElem? hlen, levelAnswer, if_pos hh] at hp
      simp at hp
    · have hgt : total ActionSettings.retry as < R.crashes := by
        by_contra hle
        exact hno ⟨hh, by omega⟩
      have h0 := total_nonneg hpos
      have hk : total ActionSettings.retry as = (total ActionSettings.retry as).toNat := by omega
      have hlt : (total ActionSettings.retry as).toNat < R.crashes := by omega
      have hb := hf.beyond _ (le_of_eq hk) hlt
      rw [h.getElem? hlt] at hb
      exact levelAnswer_top hrungs hpos hkind hh hn hk (Option.some.inj hb)
  · rintro (h0 | ⟨hh, hle⟩)
    · exact ⟨fun _ _ _ k _ _ _ hk => absurd hk (by simp [h0]), fun k _ hk => absurd hk (by simp [h0])⟩
    · refine ⟨fun ys a zs k has h₁ h₂ hk => ?_, fun k h₁ hk => absurd hk (by omega)⟩
      obtain ⟨type, ht, hl⟩ := levelAnswer_of_owner hrungs hpos hkind hh has h₁ h₂
      exact ⟨type, ht, by rw [h.getElem? hk, hl]⟩

end exact

end Recovery

namespace Instance

variable {glib : GLib} {s : String} {text : UnitText} {w₀ w : Instance} {ls : List Label}

theorem kind_isSome_of_mem {events : List MarkupEvent} {a : ActionSettings} (h : a ∈ validActions events)
    (hi : a.actionType ≠ .serviceIgnore) : a.actionType.kind.isSome := by
  have h₁ := valid_of_mem h
  have h₂ := ne_guruMeditation_of_mem h
  cases ht : a.actionType <;> simp_all [RmgActionType.kind]

theorem unchangedRuns_of_replayed (h : w₀.replayed glib ls = some w) (hl : ∀ gdir, .restart gdir ∉ ls) :
    UnchangedRuns glib s text w₀ ls w :=
  (runs_of_replayed h).restrict (P := fun w l => l.Unchanged glib w.hostName s text) fun l hm w => by
    cases l with
    | restart gdir => exact absurd hm (hl gdir)
    | _ => trivial

theorem crashLabels_not_restart (s : String) (n : Nat) (gdir : Option (List UnitFile)) :
    .restart gdir ∉ crashLabels s n := by
  simp [crashLabels, List.mem_flatten, List.mem_replicate]

/-- Two actions, each to be performed once. -/
def restartThenDisable : List Tag :=
  Tag.unit "a.service" [("relaxtime", "5")] [("resetService", "1", "false"), ("disableService", "1", "false")]

/-- The instance after `n` crashes of the service of a unit. -/
def crashed (tags : List Tag) (s : String) (n : Nat) : Option Instance :=
  (booted (.reading [tags]) (initial .primary "host") [tags]).replayed (.reading [tags]) (crashLabels s n)

theorem crashed_run {tags : List Tag} {n : Nat} (h : (crashed tags s n).isSome) :
    UnchangedRuns (.reading [tags]) s (Tag.bytes tags) (booted (.reading [tags]) (initial .primary "host") [tags])
      (crashLabels s n) ((crashed tags s n).get h) :=
  unchangedRuns_of_replayed (Option.some_get h).symm (crashLabels_not_restart _ _)

/-- Escalation follows the retry counts exactly as long as the crashes do not outnumber them. -/
theorem escalation_follows_retries_iff (hn : validActions (glib.markup text).events ≠ [])
    (hi : ∀ a ∈ validActions (glib.markup text).events, a.actionType ≠ .serviceIgnore)
    (ht : 1 + total ActionSettings.retry (validActions (glib.markup text).events) < 2 ^ 63)
    (h0 : w₀.trace = []) (hv : w₀.journal.view s = unitView glib w₀.hostName text)
    (hr : UnchangedRuns glib s text w₀ ls w) (hz : .statement (.updateRvector s 0) ∉ w.history s) :
    (w.recovery s).FollowsRetries (validActions (glib.markup text).events) ↔
      (w.recovery s).crashes = 0 ∨ (rmgUtilsJenkinsHash text ≠ 0 ∧
        (w.recovery s).crashes ≤ total ActionSettings.retry (validActions (glib.markup text).events)) := by
  have hhist : (w₀.recovery s).history = [] := by
    show w₀.trace.filter _ = []
    rw [h0]
    rfl
  have hc : (w.recovery s).Climbing (unitView glib w₀.hostName text) := by
    refine recovery_of_unchangedRuns (I := fun R => .statement (.updateRvector s 0) ∉ R.history →
      R.Climbing (unitView glib w₀.hostName text)) hr hv (fun _ => ?_) ?_ hz
    · refine ⟨?_, fun _ => ?_⟩
      · simp [Recovery.answers, Recovery.crashes, hhist]
      · have hrow : (w₀.recovery s).view = unitView glib w₀.hostName text := hv
        rw [Recovery.crashes, hhist, hrow]
        rfl
    · intro c R R' hfix hf hI hm hz'
      exact (hI fun hmem => hz' (hm.history_subset hmem)).move hfix hf hm hz'
  rw [hc.followsRetries_iff (rungs_unitView glib w₀.hostName text ht) (fun _ => retry_pos_of_mem)
    (fun a ha => kind_isSome_of_mem ha (hi a ha)) hn, unitView_hash]

private theorem restartThenDisable_actions :
    validActions ((GLib.reading [restartThenDisable]).markup (Tag.bytes restartThenDisable)).events =
      [⟨.serviceReset, false, 1⟩, ⟨.serviceDisable, false, 1⟩] := by
  decide +kernel

theorem escalation_follows_retries_twice :
    (((crashed restartThenDisable "a.service" 2).get (by decide +kernel)).recovery "a.service").FollowsRetries
      (validActions ((GLib.reading [restartThenDisable]).markup (Tag.bytes restartThenDisable)).events) :=
  (escalation_follows_retries_iff (by rw [restartThenDisable_actions]; simp)
    (by rw [restartThenDisable_actions]; decide) (by rw [restartThenDisable_actions]; decide) rfl (by decide +kernel)
    (crashed_run (by decide +kernel)) (by decide +kernel)).2 (.inr ⟨by decide +kernel, by decide +kernel⟩)

/-- The third crash of a service with two retries in all performs the last action again. -/
theorem escalation_exceeds_retries : ¬ ∀ (glib : GLib) (s : String) (text : UnitText) (w₀ w : Instance)
    (ls : List Label), validActions (glib.markup text).events ≠ [] →
      (∀ a ∈ validActions (glib.markup text).events, a.actionType ≠ .serviceIgnore ∧ a.resetAfter = false) →
      1 + total ActionSettings.retry (validActions (glib.markup text).events) < 2 ^ 63 → w₀.trace = [] →
      w₀.journal.view s = unitView glib w₀.hostName text → UnchangedRuns glib s text w₀ ls w →
      .statement (.updateRvector s 0) ∉ w.history s →
        (w.recovery s).FollowsRetries (validActions (glib.markup text).events) := by
  intro h
  have h3 := (h _ "a.service" _ _ _ _ (by rw [restartThenDisable_actions]; simp)
    (by rw [restartThenDisable_actions]; decide)
    (by rw [restartThenDisable_actions]; decide) rfl (by decide +kernel) (crashed_run (n := 3) (by decide +kernel))
    (by decide +kernel)).beyond 2 (by rw [restartThenDisable_actions]; decide) (by decide +kernel)
  revert h3
  decide +kernel

end Instance

/-! ### Reset-marked actions -/

namespace Recovery

variable {s : String} {c : Setting} {R R' : Recovery} {unit : View} {ys zs : List ActionSettings} {a : ActionSettings}

/-- Nothing was pushed but for an action that was selected at one of its levels, none of them after `a`, and when `a`
was the last one selected the rvector is zero. -/
structure ClosedBy (ys : List ActionSettings) (a : ActionSettings) (R : Recovery) : Prop where
  pushes : R.pushes = R.required.filterMap (·.1.kind)
  required : ∀ type level, (type, level) ∈ R.required → ∃ us b vs, ys ++ [a] = us ++ b :: vs ∧ type = b.actionType ∧
    total ActionSettings.retry us < level ∧ level ≤ total ActionSettings.retry us + b.retry
  last : ∀ type level, R.required.getLast? = some (type, level) → total ActionSettings.retry ys < level →
    R.view.rvector = 0

/-- The rvector stays below the second level of `a`. -/
private structure Closing (ys : List ActionSettings) (a : ActionSettings) (R : Recovery) : Prop
    extends ClosedBy ys a R where
  nonneg : 0 ≤ R.view.rvector
  le : R.view.rvector ≤ total ActionSettings.retry ys

/-- A move that selects nothing, and keeps the rvector or sets it to zero. -/
private theorem Closing.idle (h : Closing ys a R) (hp : R'.pushes = R.pushes) (hq : R'.required = R.required)
    (hv : R'.view.rvector = R.view.rvector ∨ R'.view.rvector = 0) : Closing ys a R' where
  pushes := by rw [hp, hq, h.pushes]
  required := by rw [hq]; exact h.required
  last := fun type level hl hlt => by
    rw [hq] at hl
    rcases hv with hv | hv
    · rw [hv, h.last type level hl hlt]
    · exact hv
  nonneg := by
    rcases hv with hv | hv <;> rw [hv]
    exact h.nonneg
  le := by
    have := h.nonneg.trans h.le
    rcases hv with hv | hv <;> rw [hv]
    · exact h.le
    · exact this

section closing
variable (hpos : ∀ b ∈ ys ++ a :: zs, 0 < b.retry)
  (hrungs : unit.actions.map ActionRow.rung = climb ActionSettings.retry 1 (ys ++ a :: zs))
include hpos hrungs

/-- The next crash selects an action up to `a`, and `a` itself at its first level. -/
private theorem Closing.selected (hf : R.Follows unit) (h : Closing ys a R) :
    ∃ us b vs, ys ++ [a] = us ++ b :: vs ∧ R.selected = b ∧ total ActionSettings.retry us < R.view.rvector + 1 ∧
      R.view.rvector + 1 ≤ total ActionSettings.retry us + b.retry ∧
      (R.view.rvector = total ActionSettings.retry ys → b = a) := by
  have ha := hpos a (by simp)
  have h₀ := h.nonneg
  have h₁ := h.le
  obtain ⟨us, b, vs, he, hl, hu⟩ := exists_owner ActionSettings.retry (ys ++ [a]) (g := 1)
    (v := R.view.rvector + 1) (by omega) (by simp; omega)
  have hall : ys ++ a :: zs = us ++ b :: (vs ++ zs) := by
    rw [← List.singleton_append, ← List.append_assoc, he]
    simp
  have hsel : R.next = some b := by
    rw [next, hf.actions, selectedAt, hrungs, hall,
      lastAt_climb (fun x hx => hpos x (by rw [hall]; simp [hx])) hl hu]
  refine ⟨us, b, vs, he, by rw [Recovery.selected, hsel]; rfl, by omega, by omega, fun hv => ?_⟩
  exact (owner_unique (v := R.view.rvector + 1) (g := 1) (fun x hx => hpos x (by rw [hall]; exact hx))
    hall.symm hl hu (by omega) (by omega)).2.1

private theorem Closing.move (hvalid : ∀ b ∈ ys ++ a :: zs, b.actionType ≠ .invalid) (ha : a.resets) (hc : c.fixed)
    (hf : R.Follows unit) (h : Closing ys a R) (hm : Move s c R R') : Closing ys a R' := by
  cases hm with
  | uncovered =>
    exact h.idle (by simp [pushes, emit, Output.pushedType])
      (by simp [required, emit, Output.required]) (.inl rfl)
  | @crash e id now _ _ _ hh =>
    obtain ⟨us, b, vs, he, hsel, hl, hu, hb⟩ := h.selected hpos hrungs hf
    have hmem : b ∈ ys ++ a :: zs := by
      have : b ∈ ys ++ [a] := by simp [he]
      simp only [List.mem_append, List.mem_cons] at this ⊢
      tauto
    have hreq := required_crash R s e id now
    have hpush := pushes_crash R s e id now
    have hrv := crash_rvector s e id now hh
    rw [hsel, if_pos (hvalid b hmem)] at hreq
    rw [hsel] at hpush hrv
    have h₀ := h.nonneg
    have h₁ := h.le
    -- at the last level the counter goes back to zero
    have hnew : R.view.rvector = total ActionSettings.retry ys → (R.crash s e id now).view.rvector = 0 := fun hv => by
      rw [hrv, hb hv, if_pos ha]
    refine ⟨⟨?_, ?_, ?_⟩, ?_, ?_⟩
    · rw [hpush, hreq, List.filterMap_append, h.pushes]
      cases hk : b.actionType.kind <;> simp [hk]
    · intro type level hx
      rw [hreq] at hx
      rcases List.mem_append.1 hx with hx | hx
      · exact h.required type level hx
      · obtain ⟨rfl, rfl⟩ := Prod.mk.inj (List.mem_singleton.1 hx)
        exact ⟨us, b, vs, he, rfl, hl, hu⟩
    · intro type level hx hlt
      rw [hreq, List.getLast?_append] at hx
      obtain ⟨rfl, rfl⟩ := Prod.mk.inj (Option.some.inj hx)
      exact hnew (by omega)
    · rw [hrv]
      split <;> omega
    · by_cases hv : R.view.rvector = total ActionSettings.retry ys
      · rw [hnew hv]
        omega
      · rw [hrv]
        split <;> omega
  | @expire source t _ hs hd =>
    refine h.idle (pushes_expire R s source _) (required_expire R s source _) ?_
    rw [expire_rvector]
    split <;> simp
  | @boot v qs new hv _ hq =>
    obtain rfl := hq hc
    subst hv
    exact h.idle (by simp [pushes, Output.pushedType, List.filterMap_map])
      (by simp [required, Output.required]) (.inl rfl)

end closing

end Recovery

namespace Instance

variable {glib : GLib} {s : String} {text : UnitText} {w₀ w : Instance} {ls : List Label}

/-- A reset-marked action other than factory reset closes the ladder. -/
theorem reset_closes_ladder {ys zs : List ActionSettings} {a : ActionSettings}
    (has : validActions (glib.markup text).events = ys ++ a :: zs) (ha : a.resetAfter)
    (hf : a.actionType ≠ .factoryReset)
    (ht : 1 + total ActionSettings.retry (validActions (glib.markup text).events) < 2 ^ 63)
    (h0 : w₀.trace = []) (hv : w₀.journal.view s = unitView glib w₀.hostName text)
    (hr : UnchangedRuns glib s text w₀ ls w) : (w.recovery s).ClosedBy ys a := by
  have hmem : ∀ b ∈ ys ++ a :: zs, b ∈ validActions (glib.markup text).events := fun b hb => has ▸ hb
  have hres : a.resets := by
    have h₁ := valid_of_mem (hmem a (by simp))
    have h₂ := ne_guruMeditation_of_mem (hmem a (by simp))
    unfold ActionSettings.resets
    cases hta : a.actionType <;> simp_all
  have hhist : (w₀.recovery s).history = [] := by
    show w₀.trace.filter _ = []
    rw [h0]
    rfl
  have hrow : (w₀.recovery s).view = unitView glib w₀.hostName text := hv
  have hrv : (unitView glib w₀.hostName text).rvector = 0 := rfl
  refine (recovery_of_unchangedRuns (I := fun R => R.Closing ys a) hr hv ?_ ?_).toClosedBy
  · refine ⟨⟨?_, ?_, ?_⟩, ?_, ?_⟩
    · simp [Recovery.pushes, Recovery.required, hhist]
    · simp [Recovery.required, hhist]
    · simp [Recovery.required, hhist]
    · rw [hrow, hrv]
    · rw [hrow, hrv]
      exact total_nonneg fun b hb => retry_pos_of_mem (hmem b (by simp [hb]))
  · intro c R R' hfix hfol hI hm
    exact hI.move (fun b hb => retry_pos_of_mem (hmem b hb)) (has ▸ rungs_unitView glib w₀.hostName text ht)
      (fun b hb => valid_of_mem (hmem b hb)) hres hfix hfol hm

/-- The second of three actions closes the ladder. -/
def disableAndReset : List Tag :=
  Tag.unit "a.service" [("relaxtime", "5")] [("resetService", "1", "false"), ("disableService", "1", "true"),
    ("factoryReset", "1", "false")]

private theorem disableAndReset_actions :
    validActions ((GLib.reading [disableAndReset]).markup (Tag.bytes disableAndReset)).events =
      [⟨.serviceReset, false, 1⟩] ++ ⟨.serviceDisable, true, 1⟩ :: [⟨.factoryReset, false, 1⟩] := by
  decide +kernel

theorem reset_closes_ladder_of_three :
    (((crashed disableAndReset "a.service" 3).get (by decide +kernel)).recovery "a.service").ClosedBy
      [⟨.serviceReset, false, 1⟩] ⟨.serviceDisable, true, 1⟩ :=
  reset_closes_ladder disableAndReset_actions rfl (by decide) (by rw [disableAndReset_actions]; decide) rfl
    (by decide +kernel) (crashed_run (by decide +kernel))

/-- A factory reset that is marked to reset the rvector. -/
def factoryAndReset : List Tag :=
  Tag.unit "a.service" [("relaxtime", "5")] [("factoryReset", "1", "true"), ("disableService", "1", "false")]

private theorem factoryAndReset_actions :
    validActions ((GLib.reading [factoryAndReset]).markup (Tag.bytes factoryAndReset)).events =
      [] ++ ⟨.factoryReset, true, 1⟩ :: [⟨.serviceDisable, false, 1⟩] := by
  decide +kernel

/-- A reset-marked factory reset leaves the rvector at one. -/
theorem factory_reset_leaves_ladder_open : ¬ ∀ (glib : GLib) (s : String) (text : UnitText) (w₀ w : Instance)
    (ls : List Label) (ys zs : List ActionSettings) (a : ActionSettings),
      validActions (glib.markup text).events = ys ++ a :: zs → a.resetAfter →
      1 + total ActionSettings.retry (validActions (glib.markup text).events) < 2 ^ 63 → w₀.trace = [] →
      w₀.journal.view s = unitView glib w₀.hostName text → UnchangedRuns glib s text w₀ ls w →
        (w.recovery s).ClosedBy ys a := by
  intro h
  have h1 := (h _ "a.service" _ _ _ _ _ _ _ factoryAndReset_actions rfl (by rw [factoryAndReset_actions]; decide) rfl
    (by decide +kernel) (crashed_run (n := 1) (by decide +kernel))).last .factoryReset 1 (by decide +kernel) (by decide)
  revert h1
  decide +kernel

end Instance

end RecoveryManager
