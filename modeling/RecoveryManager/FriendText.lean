import Mathlib.Data.List.Induction
import RecoveryManager.UnitParser

/-!
# Friends with two texts

`parser_text_data` frees the context of a friend and keeps the pointer.  GMarkup calls it once for each piece of
character data, so for a friend whose text is broken by a comment it is called twice, and the second call reads the
context after it was freed and frees it again.  The callbacks do so exactly if a friend is torn in this way
(`contextFreedTwice_iff`).
-/

namespace RecoveryManager

/-- The name of the element that started last, as `parser_text_data` finds it. -/
def currentElement (events : List MarkupEvent) : CString :=
  events.foldl (fun current event =>
    match event with
    | .startElement name _ => .live name
    | .endElement => current.release
    | .text _ => current) .null

/-- After `events` a text is taken for that of a friend. -/
def InFriend (glib : GLib) (events : List MarkupEvent) : Prop := (currentElement events).read glib = some "friend"

/-- The friend that started last, or no friend, has had a text. -/
def FriendTold (glib : GLib) (events : List MarkupEvent) : Prop :=
  ∃ us t vs, events = us ++ .text t :: vs ∧ InFriend glib us ∧ ∀ attributes, .startElement "friend" attributes ∉ vs

/-- A friend has two texts. -/
def TornFriend (glib : GLib) (events : List MarkupEvent) : Prop :=
  ∃ us t vs, events = us ++ .text t :: vs ∧ InFriend glib us ∧ FriendTold glib us

variable {glib : GLib} {hostName : String} {hash : Gulong} {events : List MarkupEvent} {event : MarkupEvent}

theorem currentElement_append (events : List MarkupEvent) (event : MarkupEvent) :
    currentElement (events ++ [event]) = match event with
      | .startElement name _ => .live name
      | .endElement => (currentElement events).release
      | .text _ => currentElement events := by
  rw [currentElement, List.foldl_append]
  rfl

/-- A last event is in what follows a text, or is the text. -/
private theorem snoc_eq_iff {us vs : List MarkupEvent} {t : String} :
    events ++ [event] = us ++ .text t :: vs ↔
      (∃ vs', vs = vs' ++ [event] ∧ events = us ++ .text t :: vs') ∨ (vs = [] ∧ event = .text t ∧ events = us) := by
  constructor
  · intro h
    rcases List.eq_nil_or_concat vs with rfl | ⟨vs', e, rfl⟩
    · obtain ⟨rfl, hevent⟩ := List.append_inj' h rfl
      exact .inr ⟨rfl, (List.cons.inj hevent).1, rfl⟩
    · have h' : events ++ [event] = (us ++ .text t :: vs') ++ [e] := by simpa using h
      obtain ⟨rfl, he⟩ := List.append_inj' h' rfl
      obtain rfl := (List.cons.inj he).1
      exact .inl ⟨vs', by simp, rfl⟩
  · rintro (⟨vs', rfl, rfl⟩ | ⟨rfl, rfl, rfl⟩)
    · simp
    · rfl

theorem friendTold_append : FriendTold glib (events ++ [event]) ↔
    (FriendTold glib events ∧ ∀ attributes, event ≠ .startElement "friend" attributes) ∨
      (InFriend glib events ∧ ∃ t, event = .text t) := by
  constructor
  · rintro ⟨us, t, vs, h, hin, hnone⟩
    rcases snoc_eq_iff.1 h with ⟨vs', rfl, rfl⟩ | ⟨rfl, rfl, rfl⟩
    · refine .inl ⟨⟨us, t, vs', rfl, hin, fun a ha => hnone a (List.mem_append_left _ ha)⟩, ?_⟩
      rintro a rfl
      exact hnone a (by simp)
    · exact .inr ⟨hin, t, rfl⟩
  · rintro (⟨⟨us, t, vs, rfl, hin, hnone⟩, hevent⟩ | ⟨hin, t, rfl⟩)
    · refine ⟨us, t, vs ++ [event], by simp, hin, fun a ha => ?_⟩
      rcases List.mem_append.1 ha with ha | ha
      · exact hnone a ha
      · exact hevent a (List.mem_singleton.1 ha).symm
    · exact ⟨events, t, [], rfl, hin, fun a => List.not_mem_nil⟩

theorem tornFriend_append : TornFriend glib (events ++ [event]) ↔
    TornFriend glib events ∨ ((∃ t, event = .text t) ∧ InFriend glib events ∧ FriendTold glib events) := by
  constructor
  · rintro ⟨us, t, vs, h, hin, htold⟩
    rcases snoc_eq_iff.1 h with ⟨vs', rfl, rfl⟩ | ⟨rfl, rfl, rfl⟩
    · exact .inl ⟨us, t, vs', rfl, hin, htold⟩
    · exact .inr ⟨⟨t, rfl⟩, hin, htold⟩
  · rintro (⟨us, t, vs, rfl, hin, htold⟩ | ⟨⟨t, rfl⟩, hin, htold⟩)
    · exact ⟨us, t, vs ++ [event], by simp, hin, htold⟩
    · exact ⟨events, t, [], rfl, hin, htold⟩

/-! ### The callbacks -/

/-- The entry after `events`. -/
structure Tracks (glib : GLib) (events : List MarkupEvent) (entry : RmgJEntry) : Prop where
  element : entry.parserCurrentElement = currentElement events
  told : entry.parserCurrentFriend.friendContext.isReleased = true ↔ FriendTold glib events
  torn : entry.contextFreedTwice = true ↔ TornFriend glib events

/-- The attributes of a friend give a context that is not freed yet. -/
private theorem isReleased_attributes (attributes : List (String × String)) {f : RmgFEntryParserHelper}
    (h : f.friendContext.isReleased = false) :
    (attributes.foldl RmgFEntryParserHelper.attribute f).friendContext.isReleased = false := by
  induction attributes generalizing f with
  | nil => exact h
  | cons a attributes ih =>
    obtain ⟨name, value⟩ := a
    refine ih ?_
    unfold RmgFEntryParserHelper.attribute
    dsimp only
    repeat' split
    all_goals first | exact h | rfl

/-- What the callbacks for other elements leave alone. -/
structure SameFriend (entry entry' : RmgJEntry) : Prop where
  element : entry'.parserCurrentElement = entry.parserCurrentElement
  friend : entry'.parserCurrentFriend = entry.parserCurrentFriend
  freed : entry'.contextFreedTwice = entry.contextFreedTwice

private theorem sameFriend_nextHash (glib : GLib) (entry : RmgJEntry) : SameFriend entry (nextHash glib entry).2 := by
  unfold nextHash
  split <;> exact ⟨rfl, rfl, rfl⟩

private theorem sameFriend_action (attributes : List (String × String)) (entry : RmgJEntry) :
    SameFriend entry (parserStartAction glib attributes entry) := by
  unfold parserStartAction
  dsimp only
  split
  · exact ⟨rfl, rfl, rfl⟩
  · have h := sameFriend_nextHash glib entry
    exact ⟨h.element, h.friend, h.freed⟩

private theorem sameFriend_service (attributes : List (String × String)) (entry : RmgJEntry) :
    SameFriend entry (attributes.foldl serviceAttribute entry) := by
  induction attributes generalizing entry with
  | nil => exact ⟨rfl, rfl, rfl⟩
  | cons a attributes ih =>
    obtain ⟨name, value⟩ := a
    have h := ih (serviceAttribute entry (name, value))
    have hone : SameFriend entry (serviceAttribute entry (name, value)) := by
      unfold serviceAttribute
      dsimp only
      repeat' split
      all_goals exact ⟨rfl, rfl, rfl⟩
    exact ⟨h.element.trans hone.element, h.friend.trans hone.friend, h.freed.trans hone.freed⟩

private theorem Tracks.of_same {entry entry' : RmgJEntry} (h : Tracks glib events entry) (hs : SameFriend entry entry')
    (ht : FriendTold glib (events ++ [event]) ↔ FriendTold glib events)
    (hn : TornFriend glib (events ++ [event]) ↔ TornFriend glib events)
    (hc : currentElement (events ++ [event]) = currentElement events) : Tracks glib (events ++ [event]) entry' :=
  ⟨by rw [hs.element, hc, h.element], by rw [hs.friend, ht, h.told], by rw [hs.freed, hn, h.torn]⟩

private theorem Tracks.start {entry : RmgJEntry} (h : Tracks glib events entry) (name : String)
    (attributes : List (String × String)) :
    Tracks glib (events ++ [.startElement name attributes]) (parserStartElement glib name attributes entry) := by
  have htorn : TornFriend glib (events ++ [.startElement name attributes]) ↔ TornFriend glib events := by
    simp [tornFriend_append]
  have hcurrent : currentElement (events ++ [.startElement name attributes]) = .live name := currentElement_append ..
  have htold : FriendTold glib (events ++ [.startElement name attributes]) ↔
      FriendTold glib events ∧ name ≠ "friend" := by
    simp [friendTold_append]
  -- what the arms other than the one of a friend make of the entry
  have hother : ∀ entry', name ≠ "friend" → SameFriend { entry with parserCurrentElement := .live name } entry' →
      Tracks glib (events ++ [.startElement name attributes]) entry' := by
    intro entry' hne hs
    refine ⟨hs.element.trans hcurrent.symm, ?_, ?_⟩
    · rw [hs.friend, htold]
      exact h.told.trans ⟨fun ht => ⟨ht, hne⟩, fun ht => ht.1⟩
    · rw [hs.freed, htorn]
      exact h.torn
  unfold parserStartElement
  dsimp only
  split
  · subst name
    exact hother _ (by decide) (sameFriend_action _ _)
  split
  · subst name
    refine ⟨hcurrent.symm, ?_, ?_⟩
    · have hfree := isReleased_attributes attributes (f := .zero) rfl
      rw [htold]
      exact ⟨fun ht => absurd ht (by simp [parserStartFriend, hfree]), fun ht => absurd rfl ht.2⟩
    · rw [htorn]
      exact h.torn
  split
  · subst name
    exact hother _ (by decide) (sameFriend_service _ _)
  · exact hother _ ‹_› ⟨rfl, rfl, rfl⟩

private theorem Tracks.text {entry : RmgJEntry} (h : Tracks glib events entry) (t : String) :
    Tracks glib (events ++ [.text t]) (parserTextData glib hostName t entry) := by
  have hcurrent : currentElement (events ++ [.text t]) = currentElement events := currentElement_append ..
  have htold : FriendTold glib (events ++ [.text t]) ↔ FriendTold glib events ∨ InFriend glib events := by
    simp [friendTold_append]
  have htorn : TornFriend glib (events ++ [.text t]) ↔
      TornFriend glib events ∨ InFriend glib events ∧ FriendTold glib events := by
    simp [tornFriend_append]
  have hother : ∀ entry', ¬ InFriend glib events → SameFriend entry entry' → Tracks glib (events ++ [.text t]) entry' :=
    fun entry' hno hs => h.of_same hs (htold.trans (or_iff_left hno))
      (htorn.trans (or_iff_left fun ht => hno ht.1)) hcurrent
  have hin : ∀ name, entry.parserCurrentElement.read glib = some name → (InFriend glib events ↔ name = "friend") := by
    intro name hname
    rw [InFriend, ← h.element, hname, Option.some_inj]
  unfold parserTextData
  split
  · rename_i name hname
    split
    · subst name
      exact hother _ (fun hf => absurd ((hin _ hname).1 hf) (by decide)) ⟨rfl, rfl, rfl⟩
    split
    · subst name
      exact hother _ (fun hf => absurd ((hin _ hname).1 hf) (by decide)) ⟨rfl, rfl, rfl⟩
    split
    · subst name
      exact hother _ (fun hf => absurd ((hin _ hname).1 hf) (by decide)) ⟨rfl, rfl, rfl⟩
    split
    · have hf := (hin _ hname).2 ‹_›
      have hs := sameFriend_nextHash glib entry
      -- the context is freed now, and was before exactly if it had been used
      have hreleased : ∀ p : CString, p ≠ .null → p.release.isReleased = true := by
        rintro (_ | _ | _) hp
        · exact absurd rfl hp
        · rfl
        · rfl
      have hcontext : ∀ p : CString, (if p = .null then .live hostName else p) ≠ .null ∧
          (if p = .null then CString.live hostName else p).isReleased = p.isReleased := by
        rintro (_ | _ | _) <;> exact ⟨by simp, rfl⟩
      obtain ⟨hne, hsame⟩ := hcontext entry.parserCurrentFriend.friendContext
      refine ⟨?_, ?_, ?_⟩
      · rw [hcurrent, ← h.element]
        exact hs.element
      · rw [htold]
        exact ⟨fun _ => .inr hf, fun _ => hreleased _ hne⟩
      · rw [htorn, ← h.torn, ← h.told]
        show ((nextHash glib entry).2.contextFreedTwice || _) = true ↔ _
        rw [hs.freed, Bool.or_eq_true, hsame]
        exact or_congr Iff.rfl ⟨fun ht => ⟨hf, ht⟩, fun ht => ht.2⟩
    · exact hother _ (fun hf => absurd ((hin _ hname).1 hf) ‹_›) ⟨rfl, rfl, rfl⟩
  · rename_i hname
    refine hother _ (fun hf => ?_) ⟨rfl, rfl, rfl⟩
    rw [InFriend, ← h.element, hname] at hf
    cases hf

private theorem tracks_parseEvents (glib : GLib) (hostName : String) (hash : Gulong) (events : List MarkupEvent) :
    Tracks glib events (parseEvents glib hostName hash events) := by
  induction events using List.reverseRecOn with
  | nil =>
    refine ⟨rfl, ⟨fun h => absurd h Bool.false_ne_true, fun ⟨_, _, _, h, _⟩ => ?_⟩,
      ⟨fun h => absurd h Bool.false_ne_true, fun ⟨_, _, _, h, _⟩ => ?_⟩⟩
    · simp at h
    · simp at h
  | append_singleton events event ih =>
    have hstep : parseEvents glib hostName hash (events ++ [event]) =
        parserEvent glib hostName (parseEvents glib hostName hash events) event := List.foldl_append
    rw [hstep]
    cases event with
    | startElement name attributes => exact ih.start name attributes
    | endElement =>
      refine ⟨?_, ?_, ?_⟩
      · rw [currentElement_append]
        exact congrArg CString.release ih.element
      · exact ih.told.trans (by simp [friendTold_append])
      · exact ih.torn.trans (by simp [tornFriend_append])
    | text t => exact ih.text t

/-- The callbacks free a context twice exactly if a friend has two texts. -/
theorem contextFreedTwice_iff (glib : GLib) (hostName : String) (hash : Gulong) (events : List MarkupEvent) :
    (parseEvents glib hostName hash events).contextFreedTwice = true ↔ TornFriend glib events :=
  (tracks_parseEvents glib hostName hash events).torn

end RecoveryManager
