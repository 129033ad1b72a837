import Mathlib.Data.List.DropRight
import RecoveryManager.Lib.Keyed
import RecoveryManager.UnitSource

/-!
# Friend rules

What a friend element of a unit file asks for (`FriendElement`), and which timers a crash starts.  The callbacks keep
the text of the element as it stands (`friends_parseEvents`), and the query compares it as it stands
(`run_doProcessFriendCrashEvent`), so a rule fires as it is written exactly if its text is the bare name
(`friends_fire_iff`).
-/

namespace RecoveryManager

open Fallible Fallible.Prog

/-! ### Friend elements -/

structure FriendElement where
  attributes : List (String × String)
  text : String
  deriving DecidableEq, Repr

/-- The value of an attribute; the last one counts. -/
def attributeOf (name : String) (attributes : List (String × String)) : Option String :=
  attributes.foldl (fun value x => if x.1 = name then some x.2 else value) none

def stripWhiteSpace (s : String) : String :=
  String.ofList ((s.toList.dropWhile Char.isWhitespace).rdropWhile Char.isWhitespace)

namespace FriendElement

def name (e : FriendElement) : String := stripWhiteSpace e.text

def type (e : FriendElement) : RmgFriendType :=
    ((attributeOf "type" e.attributes).map rmgUtilsFriendTypeFrom).getD .unknown

def action (e : FriendElement) : RmgFriendActionType :=
  ((attributeOf "action" e.attributes).map rmgUtilsFriendActionTypeFrom).getD .unknown

def argument (e : FriendElement) : Int := ((attributeOf "arg" e.attributes).map (gAsciiStrtoll ·.toList)).getD 0

def delay (e : FriendElement) : Int := ((attributeOf "delay" e.attributes).map (gAsciiStrtoll ·.toList)).getD 0

/-- The own host name when the attribute is omitted. -/
def context (hostName : String) (e : FriendElement) : String := (attributeOf "context" e.attributes).getD hostName

end FriendElement

/-- The friend elements of a document in which each of them is a start tag, a text and an end tag. -/
inductive FriendLayout : List MarkupEvent → List FriendElement → Prop
  | nil : FriendLayout [] []
  | friend {e : FriendElement} {events : List MarkupEvent} {es : List FriendElement} : FriendLayout events es →
      FriendLayout (.startElement "friend" e.attributes :: .text e.text :: .endElement :: events) (e :: es)
  | other {event : MarkupEvent} {events : List MarkupEvent} {es : List FriendElement} :
      (∀ attributes, event ≠ .startElement "friend" attributes) → FriendLayout events es →
      FriendLayout (event :: events) es

/-- Tags before the first friend element. -/
theorem FriendLayout.append {events rest : List MarkupEvent} {es : List FriendElement}
    (h : ∀ event ∈ events, ∀ attributes, event ≠ .startElement "friend" attributes) (hrest : FriendLayout rest es) :
    FriendLayout (events ++ rest) es := by
  induction events with
  | nil => exact hrest
  | cons event events ih =>
    exact .other (h event List.mem_cons_self) (ih fun event he => h event (List.mem_cons_of_mem _ he))

/-! ### White space -/

/-- What is stripped has no more white space around it. -/
theorem stripWhiteSpace_stripWhiteSpace (s : String) : stripWhiteSpace (stripWhiteSpace s) = stripWhiteSpace s := by
  unfold stripWhiteSpace
  rw [String.toList_ofList]
  congr 1
  generalize s.toList = l
  have hpre := List.rdropWhile_prefix Char.isWhitespace (l.dropWhile Char.isWhitespace)
  have hhead : ((l.dropWhile Char.isWhitespace).rdropWhile Char.isWhitespace).dropWhile Char.isWhitespace =
      (l.dropWhile Char.isWhitespace).rdropWhile Char.isWhitespace := by
    rw [List.dropWhile_eq_self_iff]
    intro hl
    have hself := List.dropWhile_eq_self_iff.1 (List.dropWhile_idempotent Char.isWhitespace l)
    rw [hpre.getElem hl]
    exact hself _
  rw [hhead, List.rdropWhile_idempotent]

/-! ### Reading friend elements -/

/-- What is kept of a friend, apart from the hash of its row. -/
structure FriendRule where
  friend : String
  context : String
  type : RmgFriendType
  action : RmgFriendActionType
  argument : Int
  delay : Int
  deriving DecidableEq, Repr

def RmgFEntry.rule (f : RmgFEntry) : FriendRule :=
    ⟨f.friendName, f.friendContext, f.type, f.action, f.argument, f.delay⟩

/-- The element as it is read: its text, white space and all. -/
def FriendElement.rule (hostName : String) (e : FriendElement) : FriendRule :=
  ⟨e.text, e.context hostName, e.type, e.action, e.argument, e.delay⟩

section attributes
variable {β : Type}

/-- A field that only one attribute sets has the value of this attribute. -/
private theorem foldl_attribute {get : RmgFEntryParserHelper → β} {name : String} {value : String → β} {d : β}
    (hstep : ∀ f x, get (RmgFEntryParserHelper.attribute f x) = if x.1 = name then value x.2 else get f)
    (hzero : get .zero = d) (attributes : List (String × String)) :
    get (attributes.foldl RmgFEntryParserHelper.attribute .zero) =
      ((attributeOf name attributes).map value).getD d := by
  have h : ∀ (f : RmgFEntryParserHelper) (o : Option String), get f = (o.map value).getD d →
      get (attributes.foldl RmgFEntryParserHelper.attribute f) =
        ((attributes.foldl (fun v x => if x.1 = name then some x.2 else v) o).map value).getD d := by
    induction attributes with
    | nil => exact fun _ _ h => h
    | cons x attributes ih =>
      intro f o hf
      refine ih _ _ ?_
      rw [hstep]
      dsimp only
      by_cases hx : x.1 = name
      · rw [if_pos hx, if_pos hx]
        rfl
      · rw [if_neg hx, if_neg hx]
        exact hf
  exact h .zero none hzero

end attributes

/-- The helper has been given the values of the attributes. -/
private theorem attributes_friend (e : FriendElement) :
    e.attributes.foldl RmgFEntryParserHelper.attribute .zero =
      ⟨((attributeOf "context" e.attributes).map CString.live).getD .null, e.type, e.action, e.argument, e.delay⟩ := by
  have h : ∀ f : RmgFEntryParserHelper, f = ⟨f.friendContext, f.type, f.action, f.argument, f.delay⟩ := fun _ => rfl
  have hset : ∀ {β : Type} (get : RmgFEntryParserHelper → β) (name : String) (value : String → β),
      (∀ (f : RmgFEntryParserHelper) (n v : String), get (f.attribute (n, v)) = if n = name then value v else get f) →
      get (e.attributes.foldl RmgFEntryParserHelper.attribute .zero) =
        ((attributeOf name e.attributes).map value).getD (get .zero) :=
    fun get name value hstep => foldl_attribute (fun f x => hstep f x.1 x.2) rfl e.attributes
  rw [h (e.attributes.foldl _ _), hset RmgFEntryParserHelper.friendContext "context" .live,
    hset RmgFEntryParserHelper.type "type" rmgUtilsFriendTypeFrom,
    hset RmgFEntryParserHelper.action "action" rmgUtilsFriendActionTypeFrom,
    hset RmgFEntryParserHelper.argument "arg" (gAsciiStrtoll ·.toList),
    hset RmgFEntryParserHelper.delay "delay" (gAsciiStrtoll ·.toList)]
  · rfl
  all_goals
    intro f n v
    unfold RmgFEntryParserHelper.attribute
    dsimp only
    split_ifs <;> simp_all

section parse
variable {glib : GLib} {events : List MarkupEvent} {es : List FriendElement}

/-- The last started element is no friend, or it is closed. -/
def RmgJEntry.Outside (glib : GLib) (entry : RmgJEntry) : Prop := entry.parserCurrentElement.read glib ≠ some "friend"

private theorem nextHash_friends (glib : GLib) (entry : RmgJEntry) : (nextHash glib entry).2.friends = entry.friends ∧
    (nextHash glib entry).2.parserCurrentElement = entry.parserCurrentElement ∧
    (nextHash glib entry).2.parserCurrentFriend = entry.parserCurrentFriend := by
  unfold nextHash
  split <;> exact ⟨rfl, rfl, rfl⟩

/-- A friend element adds one rule. -/
private theorem friends_friend (hostName : String) (hstale : ∀ s, glib.stale s ≠ "friend") (e : FriendElement)
    (entry : RmgJEntry) :
    let entry' := parserEvent glib hostName (parserEvent glib hostName
      (parserEvent glib hostName entry (.startElement "friend" e.attributes)) (.text e.text)) .endElement
    entry'.friends.map RmgFEntry.rule = entry.friends.map RmgFEntry.rule ++ [e.rule hostName] ∧
      entry'.Outside glib := by
  have hstart : parserEvent glib hostName entry (.startElement "friend" e.attributes) =
      { entry with
        parserCurrentElement := .live "friend"
        parserCurrentFriend := e.attributes.foldl RmgFEntryParserHelper.attribute .zero } := rfl
  rw [hstart, attributes_friend]
  generalize hX : ({ entry with parserCurrentElement := .live "friend", parserCurrentFriend := _ } : RmgJEntry) = X
  have helement : X.parserCurrentElement = .live "friend" := by rw [← hX]
  have hhelper : X.parserCurrentFriend =
      ⟨((attributeOf "context" e.attributes).map CString.live).getD .null, e.type, e.action, e.argument, e.delay⟩ := by
    rw [← hX]
  have hfriends : X.friends = entry.friends := by rw [← hX]
  have htext : parserEvent glib hostName X (.text e.text) = parserFriendText glib hostName e.text X := by
    simp [parserEvent, parserTextData, helement, CString.read]
  have hread : ((if X.parserCurrentFriend.friendContext = .null then CString.live hostName
      else X.parserCurrentFriend.friendContext).read glib).getD "" = e.context hostName := by
    rw [hhelper]
    unfold FriendElement.context
    cases attributeOf "context" e.attributes <;> rfl
  obtain ⟨hnext, hcurrent, -⟩ := nextHash_friends glib X
  dsimp only
  rw [htext]
  constructor
  · show ((nextHash glib X).2.friends ++ [_]).map RmgFEntry.rule = _
    rw [List.map_append, hnext, hfriends, hread, hhelper]
    rfl
  · show (nextHash glib X).2.parserCurrentElement.release.read glib ≠ some "friend"
    rw [hcurrent, helement]
    exact fun h => hstale _ (Option.some.inj h)

private theorem foldl_serviceAttribute (attributes : List (String × String)) (entry : RmgJEntry) :
    (attributes.foldl serviceAttribute entry).friends = entry.friends ∧
      (attributes.foldl serviceAttribute entry).parserCurrentElement = entry.parserCurrentElement := by
  induction attributes generalizing entry with
  | nil => exact ⟨rfl, rfl⟩
  | cons x attributes ih =>
    have hstep : (serviceAttribute entry x).friends = entry.friends ∧
        (serviceAttribute entry x).parserCurrentElement = entry.parserCurrentElement := by
      unfold serviceAttribute
      dsimp only
      split_ifs <;> exact ⟨rfl, rfl⟩
    obtain ⟨hf, he⟩ := ih (serviceAttribute entry x)
    exact ⟨hf.trans hstep.1, he.trans hstep.2⟩

/-- Outside of the friend elements no friend is added. -/
private theorem friends_other (hostName : String) (hstale : ∀ s, glib.stale s ≠ "friend") {event : MarkupEvent}
    {entry : RmgJEntry}
    (hevent : ∀ attributes, event ≠ .startElement "friend" attributes) (hout : entry.Outside glib) :
    (parserEvent glib hostName entry event).friends = entry.friends ∧
      (parserEvent glib hostName entry event).Outside glib := by
  cases event with
  | startElement name attributes =>
    have hname : name ≠ "friend" := fun h => hevent attributes (h ▸ rfl)
    have hlive : ∀ entry' : RmgJEntry, entry'.parserCurrentElement = .live name → entry'.Outside glib := by
      intro entry' h
      unfold RmgJEntry.Outside
      rw [h]
      exact fun h => hname (Option.some.inj h)
    simp only [parserEvent, parserStartElement]
    split
    · unfold parserStartAction
      dsimp only
      split
      · exact ⟨rfl, hlive _ rfl⟩
      · obtain ⟨hf, he, -⟩ := nextHash_friends glib { entry with parserCurrentElement := .live name }
        exact ⟨hf, hlive _ he⟩
    · split
      · obtain ⟨hf, he⟩ := foldl_serviceAttribute attributes { entry with parserCurrentElement := .live name }
        exact ⟨hf, hlive _ he⟩
      · exact ⟨rfl, hlive _ rfl⟩
  | endElement =>
    refine ⟨rfl, ?_⟩
    show entry.parserCurrentElement.release.read glib ≠ some "friend"
    cases entry.parserCurrentElement with
    | null => exact (Option.some_ne_none "friend").symm
    | live s => exact fun h => hstale s (Option.some.inj h)
    | released s => exact fun h => hstale s (Option.some.inj h)
  | text text =>
    simp only [parserEvent, parserTextData]
    split
    · rename_i element helement
      have hne : element ≠ "friend" := fun h => hout (h ▸ helement)
      rw [if_neg hne]
      split_ifs <;> exact ⟨rfl, hout⟩
    · exact ⟨rfl, hout⟩

/-- The callbacks keep the rules of the friend elements, in the order of the document. -/
theorem friends_parseEvents (hostName : String) (hstale : ∀ s, glib.stale s ≠ "friend") (h : FriendLayout events es)
    (hash : Gulong) :
    (parseEvents glib hostName hash events).friends.map RmgFEntry.rule = es.map (FriendElement.rule hostName) := by
  have hrun : ∀ entry : RmgJEntry, entry.Outside glib →
      (events.foldl (parserEvent glib hostName) entry).friends.map RmgFEntry.rule =
        entry.friends.map RmgFEntry.rule ++ es.map (FriendElement.rule hostName) := by
    induction h with
    | nil => exact fun entry _ => (List.append_nil _).symm
    | @friend e events es _ ih =>
      intro entry _
      obtain ⟨hadd, hout⟩ := friends_friend hostName hstale e entry
      rw [List.foldl_cons, List.foldl_cons, List.foldl_cons, ih _ hout, hadd, List.append_assoc]
      rfl
    | other hevent _ ih =>
      intro entry hout
      obtain ⟨hsame, hout⟩ := friends_other hostName hstale hevent hout
      rw [List.foldl_cons, ih _ hout, hsame]
  exact hrun (rmgJentryNew hash) (Option.some_ne_none "friend").symm

end parse

/-! ### The rules in the journal -/

/-- A rule with the service it is for. -/
abbrev ServiceRule := String × FriendRule

def FriendRow.asRule (r : FriendRow) : ServiceRule :=
  (r.service, ⟨r.friend, r.context, .ofCode r.type, .ofCode r.action, r.argument, r.delay⟩)

@[simp] theorem RmgFriendType.ofCode_code (t : RmgFriendType) : ofCode t.code = t := by
  cases t <;> rfl

private theorem asRule_friendRow (jentry : RmgJEntry) (origin : UnitText) (f : RmgFEntry) :
    (friendRow jentry origin f).asRule = (jentry.name.getD "", f.rule) := by
  simp [FriendRow.asRule, friendRow, RmgFEntry.rule]

/-- The friend rows of the journal are those of the units. -/
structure Ingested (glib : GLib) (w : Instance) (files : List UnitFile) : Prop where
  nodup : (files.map fun f => unitName glib w.hostName f.text).Nodup
  own : ∀ f ∈ files, w.journal.friendsOf (unitName glib w.hostName f.text) = (unitView glib w.hostName f.text).friends
  other : ∀ s, (∀ f ∈ files, unitName glib w.hostName f.text ≠ s) → w.journal.friendsOf s = []

/-- The friend elements of the units, each with the name of its service. -/
def unitRules (glib : GLib) (hostName : String) (files : List UnitFile) (elements : UnitFile → List FriendElement) :
    List (String × FriendElement) :=
  files.flatMap fun f => (elements f).map (unitName glib hostName f.text, ·)

section journal
variable {glib : GLib} {w : Instance} {files : List UnitFile} {elements : UnitFile → List FriendElement}

/-- The friend rows, unit by unit. -/
private theorem Ingested.perm (h : Ingested glib w files) : w.journal.friends.Perm
    (files.flatMap fun f => (unitView glib w.hostName f.text).friends) := by
  have hkeys : ∀ r ∈ w.journal.friends, r.service ∈ files.map fun f => unitName glib w.hostName f.text := by
    intro r hr
    by_contra hn
    have hnone := h.other r.service fun f hf he => hn (he ▸ List.mem_map_of_mem hf)
    have hmem : r ∈ w.journal.friendsOf r.service := List.mem_filter.2 ⟨hr, by simp⟩
    rw [hnone] at hmem
    exact List.not_mem_nil hmem
  refine (Keyed.perm_flatMap_filter h.nodup hkeys).trans ?_
  rw [List.flatMap_map]
  exact .of_eq (List.flatMap_congr h.own)

/-- The rows hold what the elements say, with the text as it stands. -/
private theorem asRule_units (hstale : ∀ s, glib.stale s ≠ "friend") (hostName : String)
    (hlayout : ∀ f ∈ files, FriendLayout (glib.markup f.text).events (elements f)) :
    (files.flatMap fun f => (unitView glib hostName f.text).friends).map FriendRow.asRule =
      (unitRules glib hostName files elements).map fun x => (x.1, x.2.rule hostName) := by
  unfold unitRules
  rw [List.map_flatMap, List.map_flatMap]
  refine List.flatMap_congr fun f hf => ?_
  have hrules := friends_parseEvents hostName hstale (hlayout f hf) (rmgUtilsJenkinsHash f.text)
  show ((entryOf glib hostName f.text).friends.map _).map _ = _
  rw [List.map_map, List.map_map]
  have hrow : FriendRow.asRule ∘ friendRow (entryOf glib hostName f.text) f.text =
      (unitName glib hostName f.text, ·) ∘ RmgFEntry.rule :=
    funext fun f' => asRule_friendRow _ _ f'
  rw [hrow, ← List.map_map]
  show ((parseEvents glib hostName _ _).friends.map RmgFEntry.rule).map _ = _
  rw [hrules, List.map_map]
  rfl

private theorem type_of_mem_units {hostName : String} {r : FriendRow}
    (hr : r ∈ files.flatMap fun f => (unitView glib hostName f.text).friends) (kind : RmgFriendType) :
    r.type = kind.code ↔ r.asRule.2.type = kind := by
  obtain ⟨f, -, hr⟩ := List.mem_flatMap.1 hr
  obtain ⟨f', -, rfl⟩ := List.mem_map.1 hr
  rw [asRule_friendRow]
  show f'.type.code = kind.code ↔ f'.type = kind
  constructor
  · intro h
    have := congrArg RmgFriendType.ofCode h
    rwa [RmgFriendType.ofCode_code, RmgFriendType.ofCode_code] at this
  · exact fun h => h ▸ rfl

end journal

/-- A reload into empty tables ingests the units; the hash 0 stands for no unit. -/
theorem ingested_of_reload {w : Instance} {glib : GLib} {files : List UnitFile} (hempty : w.journal = .empty)
    (hv : ∀ f ∈ files, ValidUnit glib w.hostName f ∧ rmgUtilsJenkinsHash f.text ≠ 0)
    (hw : ∀ f ∈ files, ¬ f.Torn glib)
    (hn : (files.map fun f => unitName glib w.hostName f.text).Nodup)
    (hc : NoClash glib w.hostName w.journal.view files) :
    ∃ w', w.run (rmgJournalReloadUnits glib (some files)) = (some .ok, w') ∧ Ingested glib w' files := by
  obtain ⟨w', hrun, hwrote, hview⟩ := Instance.run_rmgJournalReloadUnits (fun f hf => (hv f hf).1) hw hn hc
  have hhost := hwrote.hostName
  refine ⟨w', hrun, hhost ▸ hn, fun f hf => ?_, fun s hs => ?_⟩
  · have hfriends := congrArg View.friends (hview (unitName glib w.hostName f.text))
    rw [reloadedView, find?_of_nodup hn hf] at hfriends
    dsimp only at hfriends
    rw [hempty, if_neg fun h => (hv f hf).2 h.symm] at hfriends
    rw [hhost]
    exact hfriends
  · have hfriends := congrArg View.friends (hview s)
    have hnone : files.find? (fun f => unitName glib w.hostName f.text = s) = none := by
      rw [List.find?_eq_none]
      intro f hf
      rw [hhost] at hs
      simpa using hs f hf
    rw [reloadedView, hnone, hempty] at hfriends
    exact hfriends

/-! ### The timers of a crash -/

/-- The callback data of a timeout, and the seconds until it is due. -/
def GSource.timer (now : Nat) (source : GSource) : TimerData × Int := (source.data, (source.deadline : Int) - now)

/-- The timer a rule asks for; the delay is narrowed. -/
def ServiceRule.timer (x : ServiceRule) : TimerData × Int :=
  (.friend ⟨x.1, x.2.action, x.2.argument⟩, (guint x.2.delay : Int))

namespace Instance

variable {w : Instance} {event : EventRef} {kind : RmgFriendType} {n c : String}

private theorem run_foreachServiceFriend (w : Instance) (rows : List FriendRow) :
    ∃ w', w.run (List.forM (rows.map FriendRow.response) foreachServiceFriend) = (some ⟨⟩, w') ∧
      ∃ new, w'.sources = w.sources ++ new ∧ new.map (GSource.timer w.now) = rows.map fun r => r.asRule.timer := by
  have hall : ∃ w', w.run (List.forM (rows.map FriendRow.response) foreachServiceFriend) = (some ⟨⟩, w') ∧
      w'.now = w.now ∧ ∃ new, w'.sources = w.sources ++ new ∧ new.map (GSource.timer w.now) =
        (rows.map FriendRow.response).map fun y =>
          (TimerData.friend ⟨y.serviceName, y.action, y.argument⟩, (guint y.delay : Int)) := by
    refine run_forM machine true (I := fun (ys : List RmgFriendResponseEntry) w' => w'.now = w.now ∧
      ∃ new, w'.sources = w.sources ++ new ∧ new.map (GSource.timer w.now) = ys.map fun y =>
        (TimerData.friend ⟨y.serviceName, y.action, y.argument⟩, (guint y.delay : Int))) ?_
      ⟨rfl, [], (List.append_nil _).symm, rfl⟩
    rintro ys y zs w₁ - ⟨hnow, new, hsources, hnew⟩
    refine ⟨_, rfl, hnow,
      new ++ [⟨w₁.nextSource, w₁.now + guint y.delay, .friend ⟨y.serviceName, y.action, y.argument⟩⟩],
      ?_, ?_⟩
    · show w₁.sources ++ [_] = _
      rw [hsources, List.append_assoc]
    · rw [List.map_append, List.map_append, hnew, hnow]
      simp [GSource.timer]
  obtain ⟨w', hrun, -, new, hsources, hnew⟩ := hall
  refine ⟨w', hrun, new, hsources, ?_⟩
  rw [hnew, List.map_map]
  rfl

/-- A crash is announced to the executor: of a process or of a service, by name and context without quotes. -/
structure Announces (w : Instance) (event : EventRef) (kind : RmgFriendType) (n c : String) : Prop where
  target : (if kind = .process then (w.heap event).processName else (w.heap event).serviceName) = some n
  context : (w.heap event).contextName = some c
  unquoted : Unquoted n ∧ Unquoted c

/-- The rules whose text is the name start their timers. -/
theorem run_doProcessFriendCrashEvent {glib : GLib} {files : List UnitFile} {elements : UnitFile → List FriendElement}
    (h : Announces w event kind n c) (hin : Ingested glib w files)
    (hlayout : ∀ f ∈ files, FriendLayout (glib.markup f.text).events (elements f))
    (hstale : ∀ s, glib.stale s ≠ "friend") :
    ∃ w' new, w.run (doProcessFriendCrashEvent event kind) = (some ⟨⟩, w') ∧ w'.sources = w.sources ++ new ∧
      (new.map (GSource.timer w.now)).Perm (((unitRules glib w.hostName files elements).filter fun x =>
        x.2.type = kind ∧ x.2.text = n ∧ x.2.context w.hostName = c).map fun x =>
          (.friend ⟨x.1, x.2.action, x.2.argument⟩, (guint x.2.delay : Int))) := by
  let rows := w.journal.friends.filter fun r => r.friend = n ∧ r.context = c ∧ r.type = kind.code
  obtain ⟨w', hrun, new, hsources, hnew⟩ := run_foreachServiceFriend w rows
  have hload : w.run (load event) = (some (w.heap event), w) := rfl
  have hquery : w.run (rmgJournalGetServicesForFriend (some n) (some c) kind) =
      (some (rows.map FriendRow.response, false), w) := rfl
  refine ⟨w', new, ?_, hsources, ?_⟩
  · unfold doProcessFriendCrashEvent
    rw [run_bind hload]
    dsimp only
    rw [h.target, h.context, run_bind hquery]
    exact hrun
  · rw [hnew]
    have hperm := hin.perm.filter fun r => decide (r.friend = n ∧ r.context = c ∧ r.type = kind.code)
    refine (hperm.map _).trans (.of_eq ?_)
    have hsel : ∀ r ∈ files.flatMap fun f => (unitView glib w.hostName f.text).friends,
        decide (r.friend = n ∧ r.context = c ∧ r.type = kind.code) =
          decide (r.asRule.2.type = kind ∧ r.asRule.2.friend = n ∧ r.asRule.2.context = c) := by
      intro r hr
      rw [decide_eq_decide, type_of_mem_units hr kind]
      show (r.friend = n ∧ r.context = c ∧ _) ↔ (_ ∧ r.friend = n ∧ r.context = c)
      tauto
    rw [List.filter_congr hsel]
    let p : ServiceRule → Bool := fun x => decide (x.2.type = kind ∧ x.2.friend = n ∧ x.2.context = c)
    have hfilter : ∀ l : List FriendRow, (l.filter fun r => p r.asRule).map (fun r => r.asRule.timer) =
        ((l.map FriendRow.asRule).filter p).map ServiceRule.timer := by
      intro l
      rw [List.filter_map, List.map_map]
      rfl
    rw [hfilter, asRule_units hstale w.hostName hlayout, List.filter_map, List.map_map]
    rfl

/-! ### Rules as they are written -/

/-- The timers a crash starts according to the units as they are written. -/
def writtenTimers (glib : GLib) (hostName : String) (files : List UnitFile) (elements : UnitFile → List FriendElement)
    (kind : RmgFriendType) (n c : String) : List (TimerData × Int) :=
  ((unitRules glib hostName files elements).filter fun x =>
    x.2.type = kind ∧ x.2.name = n ∧ x.2.context hostName = c).map fun x =>
      (.friend ⟨x.1, x.2.action, x.2.argument⟩, x.2.delay)

/-- Exactly the timers of the rules are started. -/
def FiresAsWritten (glib : GLib) (w : Instance) (files : List UnitFile) (elements : UnitFile → List FriendElement)
    (event : EventRef) (kind : RmgFriendType) (n c : String) : Prop :=
  ∃ w' new, w.run (doProcessFriendCrashEvent event kind) = (some ⟨⟩, w') ∧ w'.sources = w.sources ++ new ∧
    (new.map (GSource.timer w.now)).Perm (writtenTimers glib w.hostName files elements kind n c)

/-- The rules of this kind and context have this name exactly if it is all of their text, and the delays of those that
have it are numbers of seconds that fit. -/
def ReadAsWritten (glib : GLib) (hostName : String) (files : List UnitFile) (elements : UnitFile → List FriendElement)
    (kind : RmgFriendType) (n c : String) : Prop :=
  ∀ x ∈ unitRules glib hostName files elements, x.2.type = kind → x.2.context hostName = c →
    (x.2.name = n ↔ x.2.text = n) ∧ (x.2.name = n → 0 ≤ x.2.delay ∧ x.2.delay < 2 ^ 32)

/-- A bare name is the name of the rules that have it as their text; another one is the name of no rule. -/
private theorem selected_iff {R : List (String × FriendElement)} {hostName : String} (kind : RmgFriendType)
    (n c : String)
    (hlen : (R.filter fun x => x.2.type = kind ∧ x.2.text = n ∧ x.2.context hostName = c).length =
      (R.filter fun x => x.2.type = kind ∧ x.2.name = n ∧ x.2.context hostName = c).length) :
    ∀ x ∈ R, x.2.type = kind → x.2.context hostName = c → (x.2.name = n ↔ x.2.text = n) := by
  by_cases hn : stripWhiteSpace n = n
  · have himp : ∀ x : String × FriendElement, x.2.text = n → x.2.name = n := by
      intro x hx
      show stripWhiteSpace x.2.text = n
      rw [hx, hn]
    have hsub : (R.filter fun x => x.2.type = kind ∧ x.2.text = n ∧ x.2.context hostName = c).Sublist
        (R.filter fun x => x.2.type = kind ∧ x.2.name = n ∧ x.2.context hostName = c) := by
      refine List.monotone_filter_right R fun x hx => ?_
      simp only [decide_eq_true_eq] at hx ⊢
      exact ⟨hx.1, himp x hx.2.1, hx.2.2⟩
    have heq := hsub.eq_of_length hlen
    intro x hx ht hc
    refine ⟨fun hname => ?_, himp x⟩
    have hmem : x ∈ R.filter fun x => x.2.type = kind ∧ x.2.name = n ∧ x.2.context hostName = c :=
      List.mem_filter.2 ⟨hx, by simp [ht, hname, hc]⟩
    rw [← heq] at hmem
    have := (List.mem_filter.1 hmem).2
    simp only [decide_eq_true_eq] at this
    exact this.2.1
  · have hnone : ∀ x : String × FriendElement, x.2.name ≠ n := by
      intro x hx
      refine hn ?_
      rw [← hx]
      exact stripWhiteSpace_stripWhiteSpace x.2.text
    have hempty : (R.filter fun x => x.2.type = kind ∧ x.2.name = n ∧ x.2.context hostName = c) = [] := by
      rw [List.filter_eq_nil_iff]
      intro x _
      simp [hnone x]
    rw [hempty, List.length_nil, List.length_eq_zero_iff, List.filter_eq_nil_iff] at hlen
    intro x hx ht hc
    refine ⟨fun h => absurd h (hnone x), fun htext => absurd ?_ (hlen x hx)⟩
    simp [ht, htext, hc]

theorem guint_of_range {d : Int} (h₁ : 0 ≤ d) (h₂ : d < 2 ^ 32) : (guint d : Int) = d := by
  unfold guint
  rw [Int.emod_eq_of_lt h₁ h₂, Int.toNat_of_nonneg h₁]

theorem guint_range (d : Int) : 0 ≤ (guint d : Int) ∧ (guint d : Int) < 2 ^ 32 := by
  unfold guint
  omega

/-- A crash starts the timers of the rules as they are written exactly if no white space hides a name and no delay is
cut off. -/
theorem friends_fire_iff {glib : GLib} {files : List UnitFile} {elements : UnitFile → List FriendElement}
    (h : Announces w event kind n c) (hin : Ingested glib w files)
    (hlayout : ∀ f ∈ files, FriendLayout (glib.markup f.text).events (elements f))
    (hstale : ∀ s, glib.stale s ≠ "friend") :
    FiresAsWritten glib w files elements event kind n c ↔ ReadAsWritten glib w.hostName files elements kind n c := by
  obtain ⟨w', new, hrun, hsources, hnew⟩ := run_doProcessFriendCrashEvent h hin hlayout hstale
  constructor
  · rintro ⟨w'', new', hrun', hsources', hnew'⟩
    obtain ⟨-, rfl⟩ := Prod.mk.inj (hrun.symm.trans hrun')
    obtain rfl : new' = new := List.append_cancel_left (hsources'.symm.trans hsources)
    have hperm := hnew.symm.trans hnew'
    have hlen := hperm.length_eq
    unfold writtenTimers at hlen
    rw [List.length_map, List.length_map] at hlen
    intro x hx ht hc
    refine ⟨selected_iff kind n c hlen x hx ht hc, fun hname => ?_⟩
    -- the delays of the timers that were started are in range
    have hmem : (TimerData.friend ⟨x.1, x.2.action, x.2.argument⟩, x.2.delay) ∈
        writtenTimers glib w.hostName files elements kind n c :=
      List.mem_map.2 ⟨x, List.mem_filter.2 ⟨hx, by simp [ht, hname, hc]⟩, rfl⟩
    obtain ⟨y, -, hy⟩ := List.mem_map.1 (hperm.mem_iff.2 hmem)
    have hdelay : (guint y.2.delay : Int) = x.2.delay := congrArg Prod.snd hy
    rw [← hdelay]
    exact guint_range y.2.delay
  · intro hread
    refine ⟨w', new, hrun, hsources, hnew.trans (.of_eq ?_)⟩
    have hfilter : ((unitRules glib w.hostName files elements).filter fun x =>
        x.2.type = kind ∧ x.2.text = n ∧ x.2.context w.hostName = c) =
          (unitRules glib w.hostName files elements).filter fun x =>
            x.2.type = kind ∧ x.2.name = n ∧ x.2.context w.hostName = c := by
      refine List.filter_congr fun x hx => ?_
      rw [decide_eq_decide]
      constructor
      · rintro ⟨ht, hn, hc⟩
        exact ⟨ht, (hread x hx ht hc).1.2 hn, hc⟩
      · rintro ⟨ht, hn, hc⟩
        exact ⟨ht, (hread x hx ht hc).1.1 hn, hc⟩
    unfold writtenTimers
    rw [hfilter]
    refine List.map_congr_left fun x hx => ?_
    obtain ⟨hx, hsel⟩ := List.mem_filter.1 hx
    simp only [decide_eq_true_eq] at hsel
    obtain ⟨h₁, h₂⟩ := (hread x hx hsel.1 hsel.2.2).2 hsel.2.1
    rw [guint_of_range h₁ h₂]

/-- A unit with one friend. -/
def friendUnit (text : String) : List Tag :=
  Tag.unit "a.service" [("relaxtime", "5")] [("resetService", "1", "false")] ++ [.opening "friends" []] ++
    Tag.element "friend" [("type", "process"), ("action", "restart"), ("delay", "10"), ("context", "debian")] text ++
      [.closing "friends"]

def dummyFriend (text : String) : FriendElement :=
  ⟨[("type", "process"), ("action", "restart"), ("delay", "10"), ("context", "debian")], text⟩

/-- The name of a closed element is blanked. -/
def blanking (text : String) : GLib := { GLib.reading [friendUnit text] with stale := fun _ => "" }

/-- The friend has crashed and the executor is about to hear of it. -/
def friendCrashed (text : String) : Option Instance :=
  (initial .primary "host").replayed (blanking text)
    [.restart (directory [friendUnit text]), .newCrash "dummyprocess1" "debian", .dispatch]

def friendFile (text : String) : UnitFile := ⟨some (Tag.bytes (friendUnit text))⟩

private theorem layout_friendUnit (text : String) : FriendLayout
    ((friendUnit text).map Tag.event) [dummyFriend text] := by
  have hother : ∀ tags : List Tag, (∀ tag ∈ tags, ∀ attributes, tag ≠ .opening "friend" attributes) →
      ∀ event ∈ tags.map Tag.event, ∀ attributes, event ≠ .startElement "friend" attributes := by
    intro tags h event he attributes heq
    obtain ⟨tag, htag, rfl⟩ := List.mem_map.1 he
    cases tag with
    | opening name attributes' =>
      obtain ⟨rfl, rfl⟩ := MarkupEvent.startElement.inj heq
      exact h _ htag attributes' rfl
    | closing => cases heq
    | text => cases heq
  unfold friendUnit
  rw [List.map_append, List.map_append, List.append_assoc]
  refine .append (hother _ ?_) (@FriendLayout.friend (dummyFriend text) _ _ ?_)
  · simp [Tag.unit, Tag.element]
  · exact .other (fun _ => by simp [Tag.event]) .nil

private theorem ingested_single {glib : GLib} {w : Instance} {f : UnitFile}
    (hkey : ∀ r ∈ w.journal.friends, r.service = unitName glib w.hostName f.text)
    (hown : w.journal.friendsOf (unitName glib w.hostName f.text) = (unitView glib w.hostName f.text).friends) :
    Ingested glib w [f] := by
  refine ⟨List.nodup_singleton _, fun f' hf => List.mem_singleton.1 hf ▸ hown, fun s hs => ?_⟩
  unfold Journal.friendsOf
  rw [List.filter_eq_nil_iff]
  intro r hr
  rw [hkey r hr]
  simpa using hs f List.mem_cons_self

private theorem stale_blanking (text s : String) : (blanking text).stale s ≠ "friend" := by
  show "" ≠ "friend"
  decide

/-- The crash of a friend whose name is all of the text. -/
def bareFriendCrashed : Instance := (friendCrashed "dummyprocess1").getD (initial .primary "host")

/-- The crash is announced, and the rows are those of the unit. -/
private theorem bareFriend_facts :
    ((bareFriendCrashed.heap 0).processName = some "dummyprocess1" ∧
      (bareFriendCrashed.heap 0).contextName = some "debian") ∧
    ((∀ r ∈ bareFriendCrashed.journal.friends,
        r.service = unitName (blanking "dummyprocess1") bareFriendCrashed.hostName (friendFile "dummyprocess1").text) ∧
      bareFriendCrashed.journal.friendsOf
          (unitName (blanking "dummyprocess1") bareFriendCrashed.hostName (friendFile "dummyprocess1").text) =
        (unitView (blanking "dummyprocess1") bareFriendCrashed.hostName (friendFile "dummyprocess1").text).friends) ∧
    (blanking "dummyprocess1").markup (friendFile "dummyprocess1").text =
      ⟨(friendUnit "dummyprocess1").map Tag.event, true⟩ := by
  decide +kernel

theorem friends_fire_iff_of_bare_name :
    FiresAsWritten (blanking "dummyprocess1") bareFriendCrashed [friendFile "dummyprocess1"]
        (fun _ => [dummyFriend "dummyprocess1"]) 0 .process "dummyprocess1" "debian" ↔
      ReadAsWritten (blanking "dummyprocess1") bareFriendCrashed.hostName [friendFile "dummyprocess1"]
        (fun _ => [dummyFriend "dummyprocess1"]) .process "dummyprocess1" "debian" := by
  obtain ⟨⟨hname, hcontext⟩, ⟨hkey, hown⟩, hmarkup⟩ := bareFriend_facts
  refine friends_fire_iff ⟨hname, hcontext, by decide⟩ (ingested_single hkey hown) (fun f hf => ?_) (stale_blanking _)
  rw [List.mem_singleton.1 hf, hmarkup]
  exact layout_friendUnit "dummyprocess1"

/-- A friend on lines of its own, as in the sample unit. -/
def sampleText : String := "\n      dummyprocess1\n    "

def sampleFriendCrashed : Instance := (friendCrashed sampleText).getD (initial .primary "host")

/-- The crash is announced, the rows are those of the unit, and yet no timer is started for its one rule. -/
private theorem sampleFriend_facts :
    ((sampleFriendCrashed.heap 0).processName = some "dummyprocess1" ∧
      (sampleFriendCrashed.heap 0).contextName = some "debian") ∧
    ((∀ r ∈ sampleFriendCrashed.journal.friends,
        r.service = unitName (blanking sampleText) sampleFriendCrashed.hostName (friendFile sampleText).text) ∧
      sampleFriendCrashed.journal.friendsOf
          (unitName (blanking sampleText) sampleFriendCrashed.hostName (friendFile sampleText).text) =
        (unitView (blanking sampleText) sampleFriendCrashed.hostName (friendFile sampleText).text).friends) ∧
    (blanking sampleText).markup (friendFile sampleText).text = ⟨(friendUnit sampleText).map Tag.event, true⟩ ∧
    (sampleFriendCrashed.run (doProcessFriendCrashEvent 0 .process)).2.sources = sampleFriendCrashed.sources ∧
    (writtenTimers (blanking sampleText) sampleFriendCrashed.hostName [friendFile sampleText]
      (fun _ => [dummyFriend sampleText]) .process "dummyprocess1" "debian").length = 1 := by
  decide +kernel

/-- No timer is started for the friend of the sample. -/
theorem sample_friend_ignored : ¬ ∀ (glib : GLib) (w : Instance) (files : List UnitFile)
    (elements : UnitFile → List FriendElement) (event : EventRef) (kind : RmgFriendType) (n c : String),
    Announces w event kind n c → Ingested glib w files →
      (∀ f ∈ files, FriendLayout (glib.markup f.text).events (elements f)) → (∀ s, glib.stale s ≠ "friend") →
        FiresAsWritten glib w files elements event kind n c := by
  intro h
  obtain ⟨⟨hname, hcontext⟩, ⟨hkey, hown⟩, hmarkup, hnone, hone⟩ := sampleFriend_facts
  have hlayout : ∀ f ∈ [friendFile sampleText], FriendLayout ((blanking sampleText).markup f.text).events
      ((fun _ => [dummyFriend sampleText]) f) := by
    intro f hf
    rw [List.mem_singleton.1 hf, hmarkup]
    exact layout_friendUnit sampleText
  obtain ⟨w', new, hrun, hsources, hperm⟩ := h (blanking sampleText) sampleFriendCrashed [friendFile sampleText]
    (fun _ => [dummyFriend sampleText]) 0 .process "dummyprocess1" "debian" ⟨hname, hcontext, by decide⟩
    (ingested_single hkey hown) hlayout (stale_blanking _)
  rw [hrun] at hnone
  have hnew : new = [] := by
    rw [hsources] at hnone
    exact List.append_right_eq_self.1 hnone
  rw [hnew] at hperm
  have hlen := hperm.length_eq
  rw [hone] at hlen
  exact absurd hlen (by decide)

end Instance

end RecoveryManager
