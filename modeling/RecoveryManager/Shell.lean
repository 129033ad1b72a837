import RecoveryManager.Executor

/-!
# The command line for the shell

Every command the executor runs is handed to `g_spawn_command_line_sync` as `sh -c "cmd"`, which is first taken apart by
the rules of `g_shell_parse_argv`.  The command is put between the quotes as it is, so it comes out as it went in
exactly if nothing in it means something between double quotes (`shell_receives_iff`).
-/

namespace RecoveryManager

/-! ### `g_shell_parse_argv` -/

inductive ShellMode where
  | plain
  | single
  | double
  /-- After a backslash outside quotes. -/
  | escape
  /-- After a backslash between double quotes. -/
  | doubleEscape
  | comment
  deriving DecidableEq, Repr

/-- What has been read: the current word, if one has begun, and the words before it. -/
structure ShellState where
  mode : ShellMode
  word : Option (List Char)
  words : List (List Char)
  deriving DecidableEq, Repr

/-- The characters that a backslash escapes between double quotes. -/
def Escapable (c : Char) : Prop := c = '$' ∨ c = '\x60' ∨ c = '"' ∨ c = '\\' ∨ c = '\n'

instance (c : Char) : Decidable (Escapable c) := inferInstanceAs (Decidable (_ ∨ _))

namespace ShellState

def append (st : ShellState) (cs : List Char) : ShellState := { st with word := some (st.word.getD [] ++ cs) }

def delimit (st : ShellState) : ShellState := { st with word := none, words := st.words ++ st.word.toList }

def enter (st : ShellState) (mode : ShellMode) : ShellState := { st with mode := mode }

def next (st : ShellState) (c : Char) : ShellState :=
  match st.mode with
  | .plain =>
    if c = ' ' ∨ c = '\t' ∨ c = '\n' then st.delimit
    else if c = '"' then (st.append []).enter .double
    else if c = '\x27' then (st.append []).enter .single
    else if c = '\\' then st.enter .escape
    else if c = '#' ∧ st.word = none then st.enter .comment
    else st.append [c]
  | .single => if c = '\x27' then st.enter .plain else st.append [c]
  | .double =>
    if c = '"' then st.enter .plain
    else if c = '\\' then st.enter .doubleEscape
    else st.append [c]
  | .escape => if c = '\n' then st.enter .plain else (st.append [c]).enter .plain
  | .doubleEscape => (if Escapable c then st.append [c] else st.append ['\\', c]).enter .double
  | .comment => if c = '\n' then st.enter .plain else st

end ShellState

/-- The words of a command line; none if it ends within quotes or after a backslash, or has no words. -/
def gShellParseArgv (commandLine : List Char) : Option (List (List Char)) :=
  let st := commandLine.foldl ShellState.next ⟨.plain, none, []⟩
  if st.mode = .plain ∨ st.mode = .comment then
    if st.delimit.words = [] then none else some st.delimit.words
  else none

/-- No double quote, and no backslash before a character that it escapes or at the end. -/
def Verbatim (cmd : List Char) : Prop :=
  '"' ∉ cmd ∧ ∀ u v, cmd = u ++ '\\' :: v → ∃ c v', v = c :: v' ∧ ¬ Escapable c

/-! ### Between the quotes -/

private theorem verbatim_cons {a : Char} {cmd : List Char} : Verbatim (a :: cmd) ↔
    a ≠ '"' ∧ (a = '\\' → ∃ c v, cmd = c :: v ∧ ¬ Escapable c) ∧ Verbatim cmd := by
  constructor
  · rintro ⟨hquote, hback⟩
    rw [List.mem_cons, not_or] at hquote
    refine ⟨Ne.symm hquote.1, fun ha => hback [] cmd (by rw [ha]; rfl), hquote.2, fun u v h => ?_⟩
    exact hback (a :: u) v (by rw [h]; rfl)
  · rintro ⟨ha, hback, hquote, hrest⟩
    refine ⟨fun h => (List.mem_cons.1 h).elim (fun e => ha e.symm) hquote, fun u v h => ?_⟩
    cases u with
    | nil =>
      obtain ⟨rfl, rfl⟩ := List.cons.inj h
      exact hback rfl
    | cons x u => exact hrest u v (List.cons.inj h).2

private theorem foldl_verbatim {cmd : List Char} (h : Verbatim cmd) (w : List Char) (ws : List (List Char)) :
    cmd.foldl ShellState.next ⟨.double, some w, ws⟩ = ⟨.double, some (w ++ cmd), ws⟩ := by
  induction hn : cmd.length using Nat.strongRecOn generalizing cmd w with
  | ind n ih =>
    cases cmd with
    | nil => rw [List.append_nil]; rfl
    | cons a cmd =>
      obtain ⟨ha, hback, hcmd⟩ := verbatim_cons.1 h
      rw [List.length_cons] at hn
      by_cases hb : a = '\\'
      · obtain ⟨c, v, rfl, hc⟩ := hback hb
        subst hb
        obtain ⟨-, -, hv⟩ := verbatim_cons.1 hcmd
        rw [List.length_cons] at hn
        have hstep : (ShellState.next ⟨.double, some w, ws⟩ '\\').next c = ⟨.double, some (w ++ ['\\', c]), ws⟩ := by
          show (if Escapable c then _ else _ : ShellState).enter .double = _
          rw [if_neg hc]
          rfl
        rw [List.foldl_cons, List.foldl_cons, hstep, ih v.length (by omega) hv _ rfl, List.append_assoc]
        rfl
      · have hstep : ShellState.next ⟨.double, some w, ws⟩ a = ⟨.double, some (w ++ [a]), ws⟩ := by
          show (if a = '"' then _ else if a = '\\' then _ else _ : ShellState) = _
          rw [if_neg ha, if_neg hb]
          rfl
        rw [List.foldl_cons, hstep, ih cmd.length (by omega) hcmd _ rfl, List.append_assoc]
        rfl

/-! ### How much comes out -/

/-- The number of characters that have come out so far, with the backslash that still waits for one. -/
private def ShellState.size (st : ShellState) : Nat :=
  st.words.flatten.length + (st.word.getD []).length + if st.mode = .escape ∨ st.mode = .doubleEscape then 1 else 0

private theorem size_next (st : ShellState) (c : Char) : (st.next c).size ≤ st.size + 1 := by
  obtain ⟨mode, word, words⟩ := st
  cases mode <;> simp only [ShellState.next] <;> split_ifs <;>
    simp [ShellState.size, ShellState.append, ShellState.enter, ShellState.delimit] <;>
      (try cases word) <;> simp <;> omega

/-- A double quote brings nothing out, except between single quotes. -/
private theorem size_next_quote {st : ShellState} (h : st.mode ≠ .single) : (st.next '"').size ≤ st.size := by
  obtain ⟨mode, word, words⟩ := st
  cases mode with
  | single => exact absurd rfl h
  | plain | double | comment => simp [ShellState.next, ShellState.size, ShellState.append, ShellState.enter]
  | escape =>
    simp [ShellState.next, ShellState.size, ShellState.append, ShellState.enter]
    omega
  | doubleEscape =>
    have hq : Escapable '"' := by decide
    simp only [ShellState.next, if_pos hq]
    simp [ShellState.size, ShellState.append, ShellState.enter]
    omega

private theorem size_foldl (cs : List Char) (st : ShellState) :
    (cs.foldl ShellState.next st).size ≤ st.size + cs.length := by
  induction cs generalizing st with
  | nil => exact Nat.le_refl _
  | cons c cs ih =>
    have h₁ := ih (st.next c)
    have h₂ := size_next st c
    rw [List.foldl_cons, List.length_cons]
    omega

/-- After the last double quote nothing is left open, and what has come out are the words. -/
private theorem size_of_parse {st : ShellState} {words : List (List Char)}
    (hmode : (st.next '"').mode = .plain ∨ (st.next '"').mode = .comment) (h : (st.next '"').delimit.words = words) :
    words.flatten.length ≤ st.size := by
  have hsize : (st.next '"').size = words.flatten.length := by
    rw [← h]
    generalize st.next '"' = st' at hmode ⊢
    obtain ⟨mode, word, ws⟩ := st'
    have hno : ¬ (mode = .escape ∨ mode = .doubleEscape) := by
      rcases hmode with h | h <;> rw [show mode = _ from h] <;> decide
    show _ + _ + (if mode = .escape ∨ mode = .doubleEscape then 1 else 0) = _
    rw [if_neg hno]
    cases word <;> simp [ShellState.delimit]
  rw [← hsize]
  refine size_next_quote fun hs => ?_
  obtain ⟨mode, word, ws⟩ := st
  obtain rfl : mode = .single := hs
  rcases hmode with h | h <;> cases h

/-! ### The whole command line -/

private theorem start_shellCommand (cmd : List Char) : (shellCommand cmd).foldl ShellState.next ⟨.plain, none, []⟩ =
    (cmd.foldl ShellState.next ⟨.double, some [], ["sh".toList, "-c".toList]⟩).next '"' := by
  unfold shellCommand
  rw [List.foldl_append, List.foldl_append]
  have hstart : "sh -c \"".toList.foldl ShellState.next ⟨.plain, none, []⟩ =
      ⟨.double, some [], ["sh".toList, "-c".toList]⟩ := by decide
  rw [hstart]
  rfl

/-- What comes before the first character that means something. -/
private theorem exists_verbatim {cmd : List Char} (h : ¬ Verbatim cmd) : ∃ u v, Verbatim u ∧
    (cmd = u ++ '"' :: v ∨ cmd = u ++ ['\\'] ∨ ∃ c, Escapable c ∧ cmd = u ++ '\\' :: c :: v) := by
  induction cmd with
  | nil => exact absurd ⟨List.not_mem_nil, fun u v h => by simp at h⟩ h
  | cons a cmd ih =>
    have hnil : Verbatim [] := ⟨List.not_mem_nil, fun u v h => by simp at h⟩
    by_cases ha : a = '"'
    · exact ⟨[], cmd, hnil, .inl (by rw [ha]; rfl)⟩
    by_cases hback : a = '\\' → ∃ c v, cmd = c :: v ∧ ¬ Escapable c
    · obtain ⟨u, v, hu, hcmd⟩ := ih fun hcmd => h (verbatim_cons.2 ⟨ha, hback, hcmd⟩)
      refine ⟨a :: u, v, verbatim_cons.2 ⟨ha, fun hb => ?_, hu⟩, ?_⟩
      · -- what a backslash does not escape is not where the first part ends
        obtain ⟨c, v', rfl, hc⟩ := hback hb
        cases u with
        | cons x u =>
          rcases hcmd with hcmd | hcmd | ⟨c', -, hcmd⟩ <;> exact ⟨x, u, rfl, (List.cons.inj hcmd).1 ▸ hc⟩
        | nil =>
          rcases hcmd with hcmd | hcmd | ⟨c', -, hcmd⟩ <;> rw [(List.cons.inj hcmd).1] at hc <;>
            exact absurd (by decide) hc
      · rcases hcmd with rfl | rfl | ⟨c, hc, rfl⟩
        · exact .inl rfl
        · exact .inr (.inl rfl)
        · exact .inr (.inr ⟨c, hc, rfl⟩)
    · rw [Classical.not_imp] at hback
      obtain ⟨rfl, hback⟩ := hback
      cases cmd with
      | nil => exact ⟨[], [], hnil, .inr (.inl rfl)⟩
      | cons c v =>
        have hc : Escapable c := by
          by_contra hc
          exact hback ⟨c, v, rfl, hc⟩
        exact ⟨[], v, hnil, .inr (.inr ⟨c, hc, rfl⟩)⟩

/-- The shell gets the command exactly if nothing in it means something between double quotes. -/
theorem shell_receives_iff (cmd : List Char) :
    gShellParseArgv (shellCommand cmd) = some ["sh".toList, "-c".toList, cmd] ↔ Verbatim cmd := by
  unfold gShellParseArgv
  dsimp only
  rw [start_shellCommand]
  constructor
  · intro hparse
    by_contra hcmd
    split at hparse
    swap
    · cases hparse
    rename_i hmode
    split at hparse
    · cases hparse
    have hle := size_of_parse hmode (Option.some.inj hparse)
    rw [List.flatten_cons, List.flatten_cons, List.flatten_cons, List.flatten_nil, List.append_nil, List.length_append,
      List.length_append, show "sh".toList.length = 2 from rfl, show "-c".toList.length = 2 from rfl] at hle
    have hsize : ∀ (m : ShellMode) (w : List Char), m ≠ .escape → m ≠ .doubleEscape →
        ShellState.size ⟨m, some w, ["sh".toList, "-c".toList]⟩ = 4 + w.length := by
      intro m w h₁ h₂
      show _ + _ + (if m = .escape ∨ m = .doubleEscape then 1 else 0) = _
      rw [if_neg fun h => h.elim h₁ h₂]
      rfl
    -- what breaks the command is a double quote, a backslash at the end or a backslash that escapes
    obtain ⟨u, v, hu, rfl | rfl | ⟨c, hc, rfl⟩⟩ := exists_verbatim hcmd
    · rw [List.foldl_append, foldl_verbatim hu, List.nil_append, List.foldl_cons, List.length_append,
        List.length_cons] at hle
      have hstep : ShellState.next ⟨.double, some u, ["sh".toList, "-c".toList]⟩ '"' =
          ⟨.plain, some u, ["sh".toList, "-c".toList]⟩ := rfl
      have hrest := size_foldl v ⟨.plain, some u, ["sh".toList, "-c".toList]⟩
      rw [hsize _ _ (by decide) (by decide)] at hrest
      rw [hstep] at hle
      omega
    · -- the last double quote is escaped
      have hstep : (ShellState.next ⟨.double, some u, ["sh".toList, "-c".toList]⟩ '\\').next '"' =
          ⟨.double, some (u ++ ['"']), ["sh".toList, "-c".toList]⟩ := rfl
      rw [List.foldl_append, foldl_verbatim hu, List.nil_append, List.foldl_cons, List.foldl_nil, hstep] at hmode
      rcases hmode with h | h <;> cases h
    · rw [List.foldl_append, foldl_verbatim hu, List.nil_append, List.foldl_cons, List.foldl_cons, List.length_append,
        List.length_cons, List.length_cons] at hle
      have hstep : (ShellState.next ⟨.double, some u, ["sh".toList, "-c".toList]⟩ '\\').next c =
          ⟨.double, some (u ++ [c]), ["sh".toList, "-c".toList]⟩ := by
        show (if Escapable c then _ else _ : ShellState).enter .double = _
        rw [if_pos hc]
        rfl
      have hrest := size_foldl v ⟨.double, some (u ++ [c]), ["sh".toList, "-c".toList]⟩
      rw [hsize _ _ (by decide) (by decide), List.length_append, List.length_singleton] at hrest
      rw [hstep] at hle
      omega
  · intro h
    rw [foldl_verbatim h]
    rfl

/-- The factory reset command of the shipped configuration. -/
theorem quoted_command_torn : ¬ ∀ cmd : List Char,
    gShellParseArgv (shellCommand cmd) = some ["sh".toList, "-c".toList, cmd] := by
  intro h
  have hcmd := h "echo \"No factory reset supported\"".toList
  revert hcmd
  decide +kernel

end RecoveryManager
