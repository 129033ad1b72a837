import RecoveryManager.Executor
import RecoveryManager.Lib.Pieces

/-!
# The data reset commands

What becomes of the placeholders in a configured command.  The two handlers split the command at `${path}` and then,
with the path in it, at `${service_name}`, in three pieces at most.  So the third placeholder of a kind stays, and the
second pass takes what the path brings in for a placeholder too (`substituted_iff`).
-/

namespace RecoveryManager

open Fallible Splitting

def pathPlaceholder : List Char := "$\x7bpath\x7d".toList

def serviceNamePlaceholder : List Char := "$\x7bservice_name\x7d".toList

/-- The command that is meant: every placeholder of the template is replaced, and what is put in stays as it is. -/
def substitute (path serviceName : List Char) : (template : List Char) → (skip : Nat) → List Char
  | [], _ => []
  | _ :: rest, skip + 1 => substitute path serviceName rest skip
  | c :: rest, 0 =>
    if pathPlaceholder.isPrefixOf (c :: rest) then
      path ++ substitute path serviceName rest (pathPlaceholder.length - 1)
    else if serviceNamePlaceholder.isPrefixOf (c :: rest) then
      serviceName ++ substitute path serviceName rest (serviceNamePlaceholder.length - 1)
    else c :: substitute path serviceName rest 0

/-- The parts of the template between its `${service_name}`, with the path in them; `part` is what has been read of the
current one. -/
def partsFrom (path : List Char) : (part template : List Char) → (skip : Nat) → List (List Char)
  | part, [], _ => [part]
  | part, _ :: rest, skip + 1 => partsFrom path part rest skip
  | part, c :: rest, 0 =>
    if pathPlaceholder.isPrefixOf (c :: rest) then partsFrom path (part ++ path) rest (pathPlaceholder.length - 1)
    else if serviceNamePlaceholder.isPrefixOf (c :: rest) then
      part :: partsFrom path [] rest (serviceNamePlaceholder.length - 1)
    else partsFrom path (part ++ [c]) rest 0

def templateParts (template path : List Char) : List (List Char) := partsFrom path [] template 0

/-- The first two placeholders of each kind are those of the template, and there are no others in it. -/
structure Substitutable (template path : List Char) : Prop where
  paths : ¬ OccursTimes pathPlaceholder 3 template ∨ path = pathPlaceholder
  names : (templateParts template path).length ≤ 3
  own : ∀ part ∈ (templateParts template path).dropLast, ¬ serviceNamePlaceholder <:+: part
  rest : (templateParts template path).length < 3 → ∀ part ∈ templateParts template path,
    ¬ serviceNamePlaceholder <:+: part

/-! ### Splitting -/

private theorem pathPlaceholder_eq : pathPlaceholder = ['$', '\x7b', 'p', 'a', 't', 'h', '\x7d'] := by decide

private theorem serviceNamePlaceholder_eq : serviceNamePlaceholder =
    '$' :: ['\x7b', 's', 'e', 'r', 'v', 'i', 'c', 'e', '_', 'n', 'a', 'm', 'e', '\x7d'] := by decide

theorem headed_pathPlaceholder : Headed pathPlaceholder := ⟨'$', _, pathPlaceholder_eq, by decide⟩

theorem headed_serviceNamePlaceholder : Headed serviceNamePlaceholder :=
  ⟨'$', _, serviceNamePlaceholder_eq, by decide⟩

/-- No delimiter starts in `piece`. -/
private def NoneStarts (d piece string : List Char) : Prop :=
  ∀ u v, piece = u ++ v → v ≠ [] → ¬ d <+: v ++ string

private theorem free_of_noneStarts {d piece string : List Char} (hd : d ≠ []) (h : NoneStarts d piece string) :
    ¬ d <:+: piece := by
  rintro ⟨u, v, rfl⟩
  refine h u (d ++ v) (by rw [List.append_assoc]) (by simp [hd]) ?_
  rw [List.append_assoc]
  exact List.prefix_append d (v ++ string)

/-- `g_strsplit` gives the pieces between the first delimiters. -/
theorem cut_splitFrom {d : List Char} (hd : Headed d) (piece string : List Char) (skip max : Nat) (hmax : 0 < max)
    (h : 1 < max → NoneStarts d piece (string.drop skip)) :
    Cut d max (piece ++ string.drop skip) (splitFrom d piece string skip max) := by
  have hd' := hd.ne_nil
  induction string generalizing piece skip max with
  | nil =>
    rw [List.drop_nil] at h ⊢
    rw [List.append_nil]
    show Cut d max piece [piece]
    rcases Nat.lt_or_ge 1 max with h1 | h1
    · obtain ⟨m, rfl⟩ : ∃ m, max = m + 1 := ⟨max - 1, by omega⟩
      exact .free m (free_of_noneStarts hd' (h h1))
    · obtain rfl : max = 1 := by omega
      exact .rest piece
  | cons c rest ih =>
    cases skip with
    | succ skip =>
      rw [List.drop_succ_cons] at h ⊢
      exact ih piece skip max hmax h
    | zero =>
      rw [List.drop_zero] at h ⊢
      unfold splitFrom
      split
      · rename_i hpre
        -- the delimiter stands here, and the next piece starts behind it
        obtain ⟨r, hr⟩ := List.isPrefixOf_iff_prefix.1 hpre.2
        obtain ⟨max, rfl⟩ : ∃ m, max = m + 2 := ⟨max - 2, by omega⟩
        have hdrop : rest.drop (d.length - 1) = r := by
          obtain ⟨x, d', rfl, -⟩ := hd
          obtain ⟨-, rfl⟩ := List.cons.inj hr
          simp
        have hih := ih [] (d.length - 1) (max + 1) (by omega) fun _ u v huv hv => by
          have := (List.append_eq_nil_iff.1 huv.symm).2
          exact absurd this hv
        rw [hdrop, List.nil_append] at hih
        rw [← hr, ← List.append_assoc]
        exact .next (free_of_noneStarts hd' (h (by omega))) hih
      · rename_i hpre
        have hih := ih (piece ++ [c]) 0 max hmax ?_
        · rwa [List.drop_zero, List.append_assoc, List.singleton_append] at hih
        intro h1 u v huv hv
        rw [List.drop_zero]
        -- a delimiter that starts in the longer piece starts in the shorter one, or where the tail does
        rcases List.eq_nil_or_concat v with rfl | ⟨v', x, rfl⟩
        · exact absurd rfl hv
        rw [List.concat_eq_append] at hv huv ⊢
        rw [← List.append_assoc] at huv
        obtain ⟨hpiece, hx⟩ := List.append_inj' huv rfl
        obtain rfl := (List.cons.inj hx).1
        rw [List.append_assoc, List.singleton_append]
        by_cases hv' : v' = []
        · subst hv'
          rw [List.nil_append, ← List.isPrefixOf_iff_prefix]
          exact fun hp => hpre ⟨h1, hp⟩
        · exact h h1 u v' hpiece hv'

/-- The command of the handlers, as two passes. -/
theorem resetCommand_eq (resetCmd path serviceName : String) : resetCommand resetCmd (some path) (some serviceName) =
    serviceName.toList.intercalate (splitFrom serviceNamePlaceholder []
      (path.toList.intercalate (splitFrom pathPlaceholder [] resetCmd.toList 0 3)) 0 3) := by
  have hsplit : ∀ (string : List Char) (d : List Char) (ins : String),
      gStrjoinv (some ins) (gStrsplit string d 3) = ins.toList.intercalate (splitFrom d [] string 0 3) := by
    intro string d ins
    unfold gStrjoinv gStrsplit
    split
    · rename_i h
      subst h
      exact List.intercalate_singleton.symm
    · rfl
  unfold resetCommand
  rw [hsplit, hsplit]
  rfl

/-! ### The template -/

private theorem drop_of_skip {β : Type} {f : List Char → Nat → β} (hnil : ∀ skip, f [] skip = f [] 0)
    (hskip : ∀ c rest skip, f (c :: rest) (skip + 1) = f rest skip) (string : List Char) (skip : Nat) :
    f string skip = f (string.drop skip) 0 := by
  induction string generalizing skip with
  | nil => rw [List.drop_nil, hnil]
  | cons c rest ih =>
    cases skip with
    | zero => rfl
    | succ skip => rw [hskip, ih, List.drop_succ_cons]

variable {path serviceName : List Char}

private theorem partsFrom_ne_nil (part template : List Char) (skip : Nat) : partsFrom path part template skip ≠ [] := by
  induction template generalizing part skip with
  | nil => simp [partsFrom]
  | cons c rest ih =>
    cases skip with
    | succ skip => exact ih part skip
    | zero =>
      unfold partsFrom
      split_ifs
      · exact ih _ _
      · simp
      · exact ih _ _

/-- The parts joined by the name are the command. -/
theorem intercalate_partsFrom (part template : List Char) (skip : Nat) :
    serviceName.intercalate (partsFrom path part template skip) =
      part ++ substitute path serviceName template skip := by
  induction template generalizing part skip with
  | nil =>
    rw [partsFrom, substitute, List.intercalate_singleton, List.append_nil]
  | cons c rest ih =>
    cases skip with
    | succ skip => exact ih part skip
    | zero =>
      unfold partsFrom substitute
      split_ifs
      · rw [ih, List.append_assoc]
      · rw [List.intercalate_cons_of_ne_nil (partsFrom_ne_nil _ _ _), ih, List.nil_append, List.append_assoc]
      · rw [ih, List.append_assoc, List.singleton_append]

private theorem substitute_skip (template : List Char) (skip : Nat) :
    substitute path serviceName template skip = substitute path serviceName (template.drop skip) 0 :=
  drop_of_skip (f := substitute path serviceName) (fun _ => by rw [substitute, substitute])
    (fun c rest skip => by rw [substitute]) template skip

private theorem substitute_of_ne {c : Char} (hc : c ≠ '$') (rest : List Char) :
    substitute path serviceName (c :: rest) 0 = c :: substitute path serviceName rest 0 := by
  have hno : ∀ d : List Char, d.head? = some '$' → ¬ d.isPrefixOf (c :: rest) := by
    intro d hd h
    obtain ⟨r, hr⟩ := List.isPrefixOf_iff_prefix.1 h
    cases d with
    | nil => cases hd
    | cons x d =>
      obtain rfl := Option.some.inj hd
      exact hc (List.cons.inj hr).1.symm
  rw [substitute, if_neg (hno _ (by rw [pathPlaceholder_eq]; rfl)),
    if_neg (hno _ (by rw [serviceNamePlaceholder_eq]; rfl))]

/-- With its placeholder for the name, the template is only changed at `${path}`. -/
private theorem substitute_path_cons (c : Char) (rest : List Char) :
    substitute path serviceNamePlaceholder (c :: rest) 0 =
      if pathPlaceholder.isPrefixOf (c :: rest) then path ++ substitute path serviceNamePlaceholder (rest.drop 6) 0
      else c :: substitute path serviceNamePlaceholder rest 0 := by
  rw [substitute]
  split_ifs with hpath hname
  · rw [substitute_skip, show pathPlaceholder.length - 1 = 6 by rw [pathPlaceholder_eq]; rfl]
  · obtain ⟨r, hr⟩ := List.isPrefixOf_iff_prefix.1 hname
    rw [serviceNamePlaceholder_eq, List.cons_append] at hr
    obtain ⟨rfl, rfl⟩ := List.cons.inj hr
    have hwalk : ∀ u : List Char, '$' ∉ u → ∀ v, substitute path serviceNamePlaceholder (u ++ v) 0 =
        u ++ substitute path serviceNamePlaceholder v 0 := by
      intro u hu v
      induction u with
      | nil => rfl
      | cons x u ih =>
        rw [List.mem_cons, not_or] at hu
        rw [List.cons_append, substitute_of_ne (Ne.symm hu.1), ih hu.2, List.cons_append]
    rw [hwalk _ (by decide), substitute_skip, List.drop_left' (by rw [serviceNamePlaceholder_eq]; rfl)]
    conv_lhs => lhs; rw [serviceNamePlaceholder_eq]
    rfl
  · rfl

/-- The pieces between all `${path}`, joined by the path, are the template with the path in it. -/
private theorem intercalate_whole {template : List Char} {pieces : List (List Char)}
    (h : Whole pathPlaceholder template pieces) :
    path.intercalate pieces = substitute path serviceNamePlaceholder template 0 := by
  have hone := pathPlaceholder_eq
  have hsplit : ∀ (n : Nat) (template piece : List Char) (max : Nat), template.length = n → n + 1 < max →
      path.intercalate (splitFrom pathPlaceholder piece template 0 max) =
        piece ++ substitute path serviceNamePlaceholder template 0 := by
    intro n
    induction n using Nat.strongRecOn with
    | ind n ih =>
      intro template piece max hn hmax
      cases template with
      | nil => rw [splitFrom, substitute, List.intercalate_singleton, List.append_nil]
      | cons c rest =>
        rw [List.length_cons] at hn
        rw [splitFrom, substitute_path_cons]
        by_cases hpre : pathPlaceholder.isPrefixOf (c :: rest)
        · have hskip : splitFrom pathPlaceholder [] rest (pathPlaceholder.length - 1) (max - 1) =
              splitFrom pathPlaceholder [] (rest.drop 6) 0 (max - 1) := by
            rw [show pathPlaceholder.length - 1 = 6 by rw [hone]; rfl]
            exact drop_of_skip (f := fun string skip => splitFrom pathPlaceholder [] string skip (max - 1))
              (fun _ => by rw [splitFrom, splitFrom]) (fun c rest skip => by rw [splitFrom]) rest 6
          have hlen := List.length_drop (l := rest) (i := 6)
          have hne : splitFrom pathPlaceholder [] (rest.drop 6) 0 (max - 1) ≠ [] :=
            (cut_splitFrom headed_pathPlaceholder [] (rest.drop 6) 0 (max - 1) (by omega) fun _ u v huv hv =>
              absurd (List.append_eq_nil_iff.1 huv.symm).2 hv).spec.2.1
          rw [if_pos ⟨by omega, hpre⟩, if_pos hpre, hskip, List.intercalate_cons_of_ne_nil hne,
            ih (rest.drop 6).length (by omega) _ [] (max - 1) rfl (by omega), List.nil_append, List.append_assoc]
        · rw [if_neg fun h => hpre h.2, if_neg hpre, ih rest.length (by omega) rest (piece ++ [c]) max rfl (by omega),
            List.append_assoc, List.singleton_append]
  have hcut := cut_splitFrom headed_pathPlaceholder [] template 0 (pieces.length + template.length + 2) (by omega)
    fun _ u v huv hv => absurd (List.append_eq_nil_iff.1 huv.symm).2 hv
  have hle : pieces.length ≤ pieces.length + template.length + 2 := by omega
  rw [(h.cut hle).unique headed_pathPlaceholder hcut, hsplit _ template [] _ rfl (by omega), List.nil_append]

/-- Joined by a name that is longer than they are, the parts can be told from the command. -/
private theorem parts_of_intercalate {A B : List (List Char)} (hA : A ≠ []) (hB : B ≠ [])
    (h : ∀ serviceName : List Char, serviceName.intercalate A = serviceName.intercalate B) : A = B := by
  have hfree : ∀ C : List (List Char), (∀ part ∈ C, part ∈ A ++ B) → ∀ part ∈ C,
      ¬ ('a' :: List.replicate (A ++ B).flatten.length 'b') <:+: part := by
    intro C hC part hpart hin
    have h₁ := hin.length_le
    have h₂ : part.length ≤ (A ++ B).flatten.length := by
      obtain ⟨l, r, hlr⟩ := List.append_of_mem (hC part hpart)
      rw [hlr]
      simp only [List.flatten_append, List.flatten_cons, List.length_append]
      omega
    rw [List.length_cons, List.length_replicate] at h₁
    omega
  have hheaded : Headed ('a' :: List.replicate (A ++ B).flatten.length 'b') := by
    refine ⟨'a', _, rfl, fun hmem => ?_⟩
    have := (List.mem_replicate.1 hmem).2
    revert this
    decide
  refine Whole.unique hheaded ⟨hA, rfl, hfree A fun part hp => List.mem_append_left B hp⟩
    ⟨hB, (h _).symm, hfree B fun part hp => List.mem_append_right A hp⟩

/-- The command is the one that is meant, whatever the name of the service, exactly if the placeholders that are
replaced are those of the template. -/
theorem substituted_iff (resetCmd path : String) :
    (∀ serviceName : String, resetCommand resetCmd (some path) (some serviceName) =
      substitute path.toList serviceName.toList resetCmd.toList 0) ↔ Substitutable resetCmd.toList path.toList := by
  have hnil : ∀ d u v string : List Char, [] = u ++ v → v ≠ [] → ¬ d <+: v ++ string := fun d u v string huv hv =>
    absurd (List.append_eq_nil_iff.1 huv.symm).2 hv
  obtain ⟨pieces, hpieces⟩ := exists_whole headed_pathPlaceholder.ne_nil resetCmd.toList
  have hpath := cut_splitFrom headed_pathPlaceholder [] resetCmd.toList 0 3 (by decide) fun _ u v => hnil _ u v _
  have hinserted : path.toList.intercalate pieces = serviceNamePlaceholder.intercalate
      (templateParts resetCmd.toList path.toList) := by
    rw [intercalate_whole hpieces, templateParts, intercalate_partsFrom, List.nil_append]
  have hpaths : path.toList.intercalate (splitFrom pathPlaceholder [] resetCmd.toList 0 3) =
      serviceNamePlaceholder.intercalate (templateParts resetCmd.toList path.toList) ↔
        ¬ OccursTimes pathPlaceholder 3 resetCmd.toList ∨ path.toList = pathPlaceholder := by
    rw [← hinserted, hpath.intercalate_eq_iff headed_pathPlaceholder hpieces,
      hpieces.occursTimes_iff headed_pathPlaceholder, Nat.not_lt]
  have hname := cut_splitFrom headed_serviceNamePlaceholder []
    (path.toList.intercalate (splitFrom pathPlaceholder [] resetCmd.toList 0 3)) 0 3 (by decide) fun _ u v =>
    hnil _ u v _
  rw [List.nil_append, List.drop_zero] at hname
  have hmeant : ∀ serviceName : List Char, substitute path.toList serviceName resetCmd.toList 0 =
      serviceName.intercalate (templateParts resetCmd.toList path.toList) := fun serviceName => by
    rw [templateParts, intercalate_partsFrom, List.nil_append]
  have hne : templateParts resetCmd.toList path.toList ≠ [] := partsFrom_ne_nil [] _ 0
  constructor
  · intro h
    -- both commands consist of the same parts
    have hparts : splitFrom serviceNamePlaceholder []
        (path.toList.intercalate (splitFrom pathPlaceholder [] resetCmd.toList 0 3)) 0 3 =
          templateParts resetCmd.toList path.toList := by
      refine parts_of_intercalate hname.spec.2.1 hne fun serviceName => ?_
      have hs := h (String.ofList serviceName)
      rwa [resetCommand_eq, String.toList_ofList, hmeant] at hs
    rw [hparts] at hname
    obtain ⟨hjoin, -, hlen, hinit, hlast⟩ := hname.spec
    exact ⟨hpaths.1 hjoin.symm, hlen, hinit, hlast⟩
  · intro h serviceName
    have hcut := Cut.of_free hne h.names h.own h.rest
    rw [← hpaths.2 h.paths] at hcut
    rw [resetCommand_eq, hmeant, hname.unique headed_serviceNamePlaceholder hcut]

/-- The third path is left to the shell. -/
theorem third_path_left : ¬ ∀ resetCmd path serviceName : String,
    resetCommand resetCmd (some path) (some serviceName) =
      substitute path.toList serviceName.toList resetCmd.toList 0 := by
  intro h
  have hcmd := h "rm -rf $\x7bpath\x7d/a $\x7bpath\x7d/b $\x7bpath\x7d/c" "/d" "s"
  revert hcmd
  decide +kernel

/-! ### The handlers -/

/-- Both handlers give the shell the command made from the path they have read. -/
theorem run_resetData {getPath : Option String → Proc (Option String × Bool)} {resetCmd : RmgOptions → String}
    {w : Instance} {event : EventRef} {path : Option String}
    (h : w.run (getPath (w.heap event).serviceName) = (some (path, false), w)) :
    w.run (resetData getPath resetCmd event) = (some ⟨⟩,
      (w.emit (.spawned (shellCommand (resetCommand (resetCmd w.options) path (w.heap event).serviceName)))).emit
        (.restartUnit (w.heap event).serviceName)) := by
  have hload : w.run (load event) = (some (w.heap event), w) := rfl
  unfold resetData
  rw [Instance.run_bind hload, Instance.run_bind h]
  rfl

end RecoveryManager
