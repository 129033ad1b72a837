import RecoveryManager.Journal
import RecoveryManager.Lib.Quoting

/-!
# The texts of the SQL statements

The journal functions print names between single quotes as they are.  SQLite reads such a text as the one statement that
is meant exactly if no name has a single quote in it (`meant_iff`).
-/

namespace RecoveryManager

open Quoting

/-- The statements of `rmg-journal.c`, one for each text. -/
inductive Statement where
  | createServices
  | createActions
  | createFriends
  | addService (hash : Int) (serviceName privateData publicData : String) (checkStart timeout : Int)
  | addAction (hash : Int) (serviceName : String) (actionType triggerLevelMin triggerLevelMax resetAfter : Int)
  | addFriend (hash : Int) (serviceName friendName friendContext : String)
      (friendType friendAction friendArgument friendDelay : Int)
  | getPrivateDataPath (serviceName : String)
  | getPublicDataPath (serviceName : String)
  | getCheckstart (serviceName : String)
  | getRelaxingTimeout (serviceName : String)
  | callForeachRelaxing
  | callForeachCheckstart
  | getRvector (serviceName : String)
  | setRvector (serviceName : String) (rvector : Int)
  | getServiceAction (serviceName : String) (rvector : Int)
  | getServiceActionResetAfter (serviceName : String) (rvector : Int)
  | getServicesForFriend (friendName friendContext : String) (friendType : Int)
  | removeService (serviceName : String)
  | removeActions (serviceName : String)
  | removeFriends (serviceName : String)
  | getHash (serviceName : String)
  deriving DecidableEq, Repr

abbrev quote : Char := '\x27'

namespace Statement

private def text (t : String) : Item Char := .text t.toList

/-- `'%s'`. -/
private def name (s : String) : Item Char := .quoted s.toList

/-- `%ld`. -/
private def number (x : Int) : Item Char := .text (printLd x)

private def selectFromServices (column serviceName : String) : List (Item Char) :=
  [text "SELECT ", text column, text " FROM Services WHERE NAME IS ", name serviceName]

private def selectFromActions (column serviceName : String) (rvector : Int) : List (Item Char) :=
  [text "SELECT ", text column, text " FROM Actions WHERE SERVICE IS ", name serviceName, text " AND ", number rvector,
    text " BETWEEN TLMIN AND TLMAX"]

/-- The statement up to the semicolon. -/
def items : Statement → List (Item Char)
  | createServices => [text "CREATE TABLE IF NOT EXISTS Services        ",
      text "(HASH      UNSIGNED INTEGER PRIMARY KEY NOT NULL, ", text " NAME      TEXT            NOT NULL, ",
      text " PRIVDATA  TEXT            NOT NULL, ", text " PUBLDATA  TEXT            NOT NULL, ",
      text " RVECTOR   NUMERIC         NOT NULL, ", text " CHKSTART  NUMERIC         NOT NULL, ",
      text " TIMEOUT   NUMERIC         NOT NULL)"]
  | createActions => [text "CREATE TABLE IF NOT EXISTS Actions        ",
      text "(HASH     UNSIGNED INTEGER PRIMARY KEY NOT NULL, ", text " SERVICE  TEXT       NOT   NULL, ",
      text " TYPE     NUMERIC    NOT   NULL, ", text " TLMIN    NUMERIC    NOT   NULL, ",
      text " TLMAX    NUMERIC    NOT   NULL, ", text " RESET    NUMERIC    NOT   NULL)"]
  | createFriends => [text "CREATE TABLE IF NOT EXISTS Friends        ",
      text "(HASH     UNSIGNED INTEGER PRIMARY KEY NOT NULL, ", text " SERVICE  TEXT       NOT   NULL, ",
      text " FRIEND   TEXT       NOT   NULL, ", text " CONTEXT  TEXT       NOT   NULL, ",
      text " TYPE     NUMERIC    NOT   NULL, ", text " ACTION   NUMERIC    NOT   NULL, ",
      text " ARGUMENT NUMERIC    NOT   NULL, ", text " DELAY    NUMERIC    NOT   NULL)"]
  | addService hash serviceName privateData publicData checkStart timeout =>
    [text "INSERT INTO Services                                 ",
      text "(HASH,NAME,PRIVDATA,PUBLDATA,RVECTOR,CHKSTART,TIMEOUT)  ", text "VALUES(", number hash, text ", ",
      name serviceName, text ", ", name privateData, text ", ", name publicData, text ", ", number 0, text ", ",
      number checkStart, text ", ", number timeout, text ")"]
  | addAction hash serviceName actionType triggerLevelMin triggerLevelMax resetAfter =>
    [text "INSERT INTO Actions                    ", text "(HASH,SERVICE,TYPE,TLMIN,TLMAX,RESET)   ", text "VALUES(",
      number hash, text ", ", name serviceName, text ", ", number actionType, text ", ", number triggerLevelMin,
      text ", ", number triggerLevelMax, text ", ", number resetAfter, text ")"]
  | addFriend hash serviceName friendName friendContext friendType friendAction friendArgument friendDelay =>
    [text "INSERT INTO Friends                    ",
      text "(HASH,SERVICE,FRIEND,CONTEXT,TYPE,ACTION,ARGUMENT,DELAY)   ", text "VALUES(", number hash, text ", ",
      name serviceName, text ", ", name friendName, text ", ", name friendContext, text ", ", number friendType,
      text ", ", number friendAction, text ", ", number friendArgument, text ", ", number friendDelay, text ")"]
  | getPrivateDataPath serviceName => selectFromServices "PRIVDATA" serviceName
  | getPublicDataPath serviceName => selectFromServices "PUBLDATA" serviceName
  | getCheckstart serviceName => selectFromServices "CHKSTART" serviceName
  | getRelaxingTimeout serviceName => selectFromServices "TIMEOUT" serviceName
  | callForeachRelaxing => [text "SELECT NAME FROM Services WHERE RVECTOR > 0"]
  | callForeachCheckstart => [text "SELECT NAME FROM Services WHERE CHKSTART > 0"]
  | getRvector serviceName => selectFromServices "RVECTOR" serviceName
  | setRvector serviceName rvector =>
    [text "UPDATE Services SET RVECTOR = ", number rvector, text " WHERE NAME IS ", name serviceName]
  | getServiceAction serviceName rvector => selectFromActions "TYPE" serviceName rvector
  | getServiceActionResetAfter serviceName rvector => selectFromActions "RESET" serviceName rvector
  | getServicesForFriend friendName friendContext friendType =>
    [text "SELECT * FROM Friends WHERE FRIEND IS ", name friendName, text " ", text "AND CONTEXT IS ",
      name friendContext, text " AND TYPE IS ", number friendType]
  | removeService serviceName => [text "DELETE FROM Services WHERE NAME IS ", name serviceName]
  | removeActions serviceName => [text "DELETE FROM Actions WHERE SERVICE IS ", name serviceName]
  | removeFriends serviceName => [text "DELETE FROM Friends WHERE SERVICE IS ", name serviceName]
  | getHash serviceName => selectFromServices "HASH" serviceName

/-- What the text ends in. -/
def terminator : Statement → String
  | createServices | createActions | createFriends => ";"
  | addService .. => ";       "
  | addAction .. | addFriend .. => "; "
  | _ => ""

/-- The text that goes to `sqlite3_exec`. -/
def sql (st : Statement) : List Char := st.items.flatMap (Item.render quote) ++ st.terminator.toList

/-- The statement that is meant, with its names as literals. -/
def shape (st : Statement) : List (Lexeme Char) := st.items.flatMap Item.lexemes

/-- The names in the statement. -/
def names (st : Statement) : List String :=
  match st with
  | addService _ serviceName privateData publicData _ _ => [serviceName, privateData, publicData]
  | addAction _ serviceName _ _ _ _ => [serviceName]
  | addFriend _ serviceName friendName friendContext _ _ _ _ => [serviceName, friendName, friendContext]
  | getServicesForFriend friendName friendContext _ => [friendName, friendContext]
  | getPrivateDataPath serviceName | getPublicDataPath serviceName | getCheckstart serviceName
  | getRelaxingTimeout serviceName | getRvector serviceName | setRvector serviceName _ | getServiceAction serviceName _
  | getServiceActionResetAfter serviceName _ | removeService serviceName | removeActions serviceName
  | removeFriends serviceName | getHash serviceName => [serviceName]
  | createServices | createActions | createFriends | callForeachRelaxing | callForeachCheckstart => []

end Statement

/-! ### Reading -/

/-- The statements of a text, at the semicolons that are not in a literal; `st` is what has been read of the current
one. -/
def statementsFrom (st : List (Lexeme Char)) : List (Lexeme Char) → List (List (Lexeme Char))
  | [] => [st]
  | l :: ls => if l = .char ';' then st :: statementsFrom [] ls else statementsFrom (st ++ [l]) ls

/-- Nothing but blanks. -/
def Blank (st : List (Lexeme Char)) : Prop := ∀ l ∈ st, l = .char ' '

instance (st : List (Lexeme Char)) : Decidable (Blank st) := inferInstanceAs (Decidable (∀ l ∈ st, l = _))

/-- The statements that SQLite finds in a text; `none` if a literal is not ended. -/
def readStatements (text : List Char) : Option (List (List (Lexeme Char))) :=
  (read quote .outside text).map fun ls => (statementsFrom [] ls).filter fun st => ¬ Blank st

/-! ### The parts of the statements -/

private theorem mem_printLd {x : Int} {c : Char} (h : c ∈ printLd x) : c = '-' ∨ c.isDigit := by
  have hdigit : ∀ n : Nat, c ∈ Nat.toDigits 10 n → c.isDigit := fun n hc =>
    Nat.isDigit_of_mem_toDigits (by omega) (by omega) hc
  unfold printLd at h
  split at h
  · rcases List.mem_cons.1 h with h | h
    · exact .inl h
    · exact .inr (hdigit _ h)
  · exact .inr (hdigit _ h)

/-- No quote or semicolon. -/
private def Plain (t : List Char) : Prop := (t.all fun c => c != quote && c != ';') = true

private instance (t : List Char) : Decidable (Plain t) := inferInstanceAs (Decidable (_ = true))

private theorem Plain.quote_not_mem {t : List Char} (h : Plain t) : quote ∉ t := by
  intro hmem
  have hc := List.all_eq_true.1 h quote hmem
  simp at hc

private theorem Plain.semicolon_not_mem {t : List Char} (h : Plain t) : ';' ∉ t := by
  intro hmem
  have hc := List.all_eq_true.1 h ';' hmem
  simp at hc

/-- The parts of a statement: no quote or semicolon in the fixed ones, and each name is followed by a fixed one, or by
nothing at the end of the text. -/
private inductive Parts (tail : List Char) : List (Item Char) → Prop
  | nil : Parts tail []
  | text {t : List Char} {items : List (Item Char)} : Plain t → Parts tail items → Parts tail (.text t :: items)
  | name {s t : List Char} {items : List (Item Char)} :
      t.head?.any (· ≠ quote) → Parts tail (.text t :: items) → Parts tail (.quoted s :: .text t :: items)
  | last {s : List Char} : tail = [] → Parts tail [.quoted s]

namespace Parts

variable {tail : List Char} {items : List (Item Char)}

private theorem string {t : String} (ht : Plain t.toList) (h : Parts tail items) :
    Parts tail (Statement.text t :: items) := .text ht h

private theorem named {s t : String} (ht : t.toList.head?.any (· ≠ quote))
    (h : Parts tail (Statement.text t :: items)) :
    Parts tail (Statement.name s :: Statement.text t :: items) := .name ht h

private theorem printed {x : Int} (h : Parts tail items) : Parts tail (Statement.number x :: items) := by
  refine .text (List.all_eq_true.2 fun c hc => ?_) h
  have hne : ∀ d : Char, d ≠ '-' → d.isDigit = false → c ≠ d := by
    rintro d hminus hdigit rfl
    rcases mem_printLd hc with hc | hc
    · exact hminus hc
    · exact absurd hc (by rw [hdigit]; exact Bool.false_ne_true)
  rw [Bool.and_eq_true, bne_iff_ne, bne_iff_ne]
  exact ⟨hne _ (by decide) (by decide), hne _ (by decide) (by decide)⟩

private theorem wellSet (h : Parts tail items) : WellSet quote tail items := by
  induction h with
  | nil => trivial
  | text ht _ ih => exact ⟨ht.quote_not_mem, ih⟩
  | @name s t items ht _ ih =>
    refine ⟨?_, ih⟩
    rw [List.flatMap_cons, Item.render]
    cases t with
    | nil => cases ht
    | cons c t =>
      intro h
      have hc : c ≠ quote := by simpa using ht
      exact hc (Option.some.inj h)
  | last htail =>
    subst htail
    exact ⟨by simp, trivial⟩

private theorem no_semicolon (h : Parts tail items) : Lexeme.char ';' ∉ items.flatMap Item.lexemes := by
  induction h with
  | nil => exact List.not_mem_nil
  | text ht _ ih =>
    rw [List.flatMap_cons, List.mem_append, not_or]
    refine ⟨fun hmem => ?_, ih⟩
    obtain ⟨c, hc, hchar⟩ := List.mem_map.1 hmem
    exact ht.semicolon_not_mem (Lexeme.char.inj hchar ▸ hc)
  | name _ _ ih =>
    rw [List.flatMap_cons, List.mem_append, not_or]
    exact ⟨by simp [Item.lexemes], ih⟩
  | last _ => simp [Item.lexemes]

end Parts

private theorem parts_selectFromServices {column s : String} (h : Plain column.toList) :
    Parts [] (Statement.selectFromServices column s) :=
  .string (by decide +kernel) (.string h (.string (by decide +kernel) (.last rfl)))

private theorem parts_selectFromActions {column s : String} {x : Int} (h : Plain column.toList) :
    Parts [] (Statement.selectFromActions column s x) :=
  .string (by decide +kernel) (.string h (.string (by decide +kernel) (.named (by decide +kernel)
    (.string (by decide +kernel) (.printed (.string (by decide +kernel) .nil))))))

private theorem parts_items (st : Statement) : Parts st.terminator.toList st.items := by
  cases st
  case getPrivateDataPath | getPublicDataPath | getCheckstart | getRelaxingTimeout | getRvector | getHash =>
    exact parts_selectFromServices (by decide +kernel)
  case getServiceAction | getServiceActionResetAfter => exact parts_selectFromActions (by decide +kernel)
  all_goals
    unfold Statement.items
    repeat' first
      | exact .nil
      | exact .last rfl
      | refine .string (by decide +kernel) ?_
      | refine .printed ?_
      | refine .named (by decide +kernel) ?_

private theorem quoted_ne_text (s : List Char) (t : String) : Item.quoted s ≠ Statement.text t := nofun

private theorem quoted_ne_number (s : List Char) (x : Int) : Item.quoted s ≠ Statement.number x := nofun

private theorem quoted_eq_name {s : List Char} {t : String} : Item.quoted s = Statement.name t ↔ s = t.toList :=
  ⟨Item.quoted.inj, congrArg Item.quoted⟩

private theorem names_eq (st : Statement) :
    (∀ s, .quoted s ∈ st.items → quote ∉ s) ↔ ∀ s ∈ st.names, quote ∉ s.toList := by
  cases st <;> simp [Statement.items, Statement.names, quoted_ne_text, quoted_ne_number, quoted_eq_name,
    Statement.selectFromServices, Statement.selectFromActions, or_imp, forall_and]

/-- A statement begins with a keyword. -/
private theorem items_eq_cons (st : Statement) :
    ∃ t items, st.items = .text t :: items ∧ t.head?.any (· ≠ ' ') := by
  cases st <;> exact ⟨_, _, rfl, by decide +kernel⟩

/-! ### The statements read -/

private theorem statementsFrom_append {a : List (Lexeme Char)} (ha : .char ';' ∉ a) (st ls : List (Lexeme Char)) :
    statementsFrom st (a ++ ls) = statementsFrom (st ++ a) ls := by
  induction a generalizing st with
  | nil => simp
  | cons l a ih =>
    rw [List.mem_cons, not_or] at ha
    rw [List.cons_append, statementsFrom, if_neg (Ne.symm ha.1), ih ha.2, List.append_assoc, List.singleton_append]

/-- The first statement is what comes first in the text. -/
private theorem statementsFrom_eq_cons (st ls : List (Lexeme Char)) :
    ∃ a more sts, statementsFrom st ls = (st ++ a) :: sts ∧ ls = a ++ more := by
  induction ls generalizing st with
  | nil => exact ⟨[], [], [], by rw [List.append_nil]; rfl, rfl⟩
  | cons l ls ih =>
    rw [statementsFrom]
    split
    · exact ⟨[], l :: ls, _, by rw [List.append_nil], rfl⟩
    · obtain ⟨a, more, sts, hsts, rfl⟩ := ih (st ++ [l])
      exact ⟨l :: a, more, sts, by rw [hsts, List.append_assoc]; rfl, rfl⟩

private theorem not_blank_append {t : List Char} (ht : t.head?.any (· ≠ ' ')) (a : List (Lexeme Char)) :
    ¬ Blank (t.map .char ++ a) := by
  cases t with
  | nil => cases ht
  | cons c t =>
    intro h
    have hc : c ≠ ' ' := by simpa using ht
    exact hc (Lexeme.char.inj (h (.char c) List.mem_cons_self))

/-- After the semicolon there is nothing but blanks. -/
private theorem terminator_eq (st : Statement) :
    st.terminator.toList = [] ∨ ∃ n, st.terminator.toList = ';' :: List.replicate n ' ' := by
  cases st
  case createServices | createActions | createFriends => exact .inr ⟨0, by decide +kernel⟩
  case addService =>
    have h : ";       ".toList = ';' :: List.replicate 7 ' ' := by decide +kernel
    exact .inr ⟨7, h⟩
  case addAction | addFriend =>
    have h : "; ".toList = ';' :: List.replicate 1 ' ' := by decide +kernel
    exact .inr ⟨1, h⟩
  all_goals exact .inl rfl

private theorem quote_not_mem_terminator (st : Statement) : quote ∉ st.terminator.toList := by
  rcases terminator_eq st with h | ⟨n, h⟩
  · rw [h]
    exact List.not_mem_nil
  · rw [h, List.mem_cons, not_or]
    refine ⟨by decide, fun hmem => ?_⟩
    exact absurd (List.eq_of_mem_replicate hmem) (by decide)

private theorem filter_terminator (st : Statement) {acc : List (Lexeme Char)} (hacc : ¬ Blank acc) :
    (statementsFrom acc (st.terminator.toList.map .char)).filter (fun st => ¬ Blank st) = [acc] := by
  rcases terminator_eq st with h | ⟨n, h⟩
  · rw [h]
    simp [statementsFrom, hacc]
  · have hfree : Lexeme.char ';' ∉ List.replicate n (Lexeme.char ' ') := fun hmem =>
      absurd (List.eq_of_mem_replicate hmem) (by decide)
    have hblank : Blank (List.replicate n (Lexeme.char ' ')) := fun l hl => List.eq_of_mem_replicate hl
    have hrest := statementsFrom_append hfree [] []
    rw [List.append_nil, List.nil_append] at hrest
    rw [h, List.map_cons, List.map_replicate, statementsFrom, if_pos rfl, hrest]
    simp [statementsFrom, hacc, hblank]

/-- A text that is read as its statement has no quote in its names. -/
theorem unquoted_of_meant {st : Statement} (h : readStatements st.sql = some [st.shape]) :
    ∀ s ∈ st.names, quote ∉ s.toList := by
  have hparts := parts_items st
  obtain ⟨t, items, hitems, ht⟩ := items_eq_cons st
  have hshape : st.shape = t.map .char ++ items.flatMap Item.lexemes := by
    rw [Statement.shape, hitems]
    rfl
  rw [readStatements, Option.map_eq_some_iff] at h
  obtain ⟨ls, hread, hstatements⟩ := h
  -- the text is read as the statement and something more
  obtain ⟨more, hls⟩ : ∃ more, ls = st.shape ++ more := by
    have hplain : Plain t := by
      rw [hitems] at hparts
      cases hparts with
      | text hplain _ => exact hplain
    rw [Statement.sql, hitems, List.flatMap_cons, List.append_assoc, Item.render,
      read_text hplain.quote_not_mem] at hread
    obtain ⟨ls', -, rfl⟩ := Option.map_eq_some_iff.1 hread
    rw [statementsFrom_append (by simpa using hplain.semicolon_not_mem), List.nil_append] at hstatements
    obtain ⟨a, more, sts, hsts, rfl⟩ := statementsFrom_eq_cons (t.map .char) ls'
    rw [hsts, List.filter_cons_of_pos (by simpa using not_blank_append ht a)] at hstatements
    exact ⟨more, by rw [← (List.cons.inj hstatements).1, List.append_assoc]⟩
  rw [hls] at hread
  rw [← names_eq]
  exact ((read_render_iff hparts.wellSet).1 hread).1

/-- Names without quotes are read as literals. -/
theorem meant_of_unquoted {st : Statement} (h : ∀ s ∈ st.names, quote ∉ s.toList) :
    readStatements st.sql = some [st.shape] := by
  have hparts := parts_items st
  obtain ⟨t, items, hitems, ht⟩ := items_eq_cons st
  have hshape : st.shape = t.map .char ++ items.flatMap Item.lexemes := by
    rw [Statement.shape, hitems]
    rfl
  have htail : read quote .outside st.terminator.toList = some (st.terminator.toList.map .char) := by
    have htext := read_text (quote_not_mem_terminator st) []
    rw [List.append_nil] at htext
    rw [htext, Quoting.read, Option.map_some, List.append_nil]
  rw [← names_eq] at h
  rw [readStatements, Option.map_eq_some_iff]
  refine ⟨_, (read_render_iff hparts.wellSet).2 ⟨h, htail⟩, ?_⟩
  rw [statementsFrom_append hparts.no_semicolon, List.nil_append]
  refine filter_terminator st ?_
  have hblank := not_blank_append ht (items.flatMap Item.lexemes)
  rwa [← hshape, Statement.shape] at hblank

/-- SQLite reads the text of a statement as just that statement if and only if there is no single quote in its names. -/
theorem meant_iff (st : Statement) :
    readStatements st.sql = some [st.shape] ↔ ∀ s ∈ st.names, quote ∉ s.toList :=
  ⟨unquoted_of_meant, meant_of_unquoted⟩

/-- The lookup for a name that a peer sends runs a statement of the peer's. -/
theorem lookup_deletes :
    let st : Statement := .getServicesForFriend "x'; DELETE FROM Friends WHERE FRIEND IS NOT '" "peer" 2
    readStatements st.sql ≠ some [st.shape] ∧
      (readStatements st.sql).any (·.any (" DELETE FROM Friends".toList.map Lexeme.char).isPrefixOf) := by
  decide +kernel

end RecoveryManager
