import Mathlib.Logic.Function.Basic
import RecoveryManager.Instance
import RecoveryManager.Lib.Transition

/-!
# Starting daemons

Several daemons on one file system (`Host`).  A daemon chooses its run mode, in mode `auto` by looking for the socket
file (`get_run_mode`); a primary removes the file, binds its socket to the path and listens
(`rmg_server_bind_and_listen`), a replica connects to it (`rmg_manager_connect`).  These are separate system calls, so
daemons that start together can come between them.  The file stays when its daemon ends: `rmg_dispatcher_unref` is not
reached (`Process.application_unref_keeps_dispatcher`).
-/

namespace RecoveryManager

/-! ### Options (`rmg-options.c`) -/

inductive RmgOptionsKey where
  | runMode
  | unitsDir
  | databaseDir
  | publicDataResetCmd
  | privateDataResetCmd
  | platformRestartCmd
  | factoryResetCmd
  | ipcSockAddr
  deriving DecidableEq, Repr

namespace RmgOptionsKey

/-- The property of the group `recoverymanager`. -/
def property : RmgOptionsKey → String
  | runMode => "RunMode"
  | unitsDir => "UnitsDirectory"
  | databaseDir => "DatabaseDirectory"
  | publicDataResetCmd => "PublicDataResetCommand"
  | privateDataResetCmd => "PrivateDataResetCommand"
  | platformRestartCmd => "PlatformRestartCommand"
  | factoryResetCmd => "FactoryResetCommand"
  | ipcSockAddr => "IpcSocketFile"

/-- `rmg-defaults.h`. -/
def default : RmgOptionsKey → String
  | runMode => "auto"
  | unitsDir => "/etc/rmgrunits"
  | databaseDir => "/var/lib/rmgr"
  | publicDataResetCmd => "rm -rf $\x7bpath\x7d/*"
  | privateDataResetCmd => "rm -rf $\x7bpath\x7d/*"
  | platformRestartCmd => "reboot"
  | factoryResetCmd => "true"
  | ipcSockAddr => "/run/rmgr/rmgipc.sock"

end RmgOptionsKey

/-- The configuration: what `g_key_file_get_string` finds in the group, or nothing if the file could not be loaded. -/
abbrev RmgConf := Option (String → Option String)

def rmgOptionsStringFor (opts : RmgConf) (key : RmgOptionsKey) : String :=
  match opts with
  | some conf => (conf key.property).getD key.default
  | none => key.default

/-- The options the executor reads. -/
def RmgConf.options (opts : RmgConf) : RmgOptions where
  publicDataResetCmd := rmgOptionsStringFor opts .publicDataResetCmd
  privateDataResetCmd := rmgOptionsStringFor opts .privateDataResetCmd
  platformRestartCmd := rmgOptionsStringFor opts .platformRestartCmd
  factoryResetCmd := rmgOptionsStringFor opts .factoryResetCmd

/-! ### The socket path -/

abbrev Path := List UInt8

namespace RmgConf

variable (opts : RmgConf)

/-- The bytes of the path, as `g_access` and `unlink` get them. -/
def sockAddr : Path := (rmgOptionsStringFor opts .ipcSockAddr).toUTF8.toList

/-- What `strncpy` leaves of it in `sun_path`, which has room for 107 bytes and the zero. -/
def bindPath : Path := opts.sockAddr.take 107

/-- What `snprintf` leaves of it, which is told that there is a byte less. -/
def connectPath : Path := opts.sockAddr.take 106

end RmgConf

/-- `get_run_mode`; `access` is what `g_access` says. -/
def getRunMode (opts : RmgConf) (access : Path → Bool) : RmgRunMode :=
  if rmgOptionsStringFor opts .runMode = "primary" then .primary
  else if rmgOptionsStringFor opts .runMode = "replica" then .replica
  else if access opts.sockAddr then .replica
  else .primary

/-! ### Daemons on a host -/

/-- How far a daemon has got. -/
inductive Stage where
  | off
  /-- The run mode is set. -/
  | starting (mode : RmgRunMode)
  /-- `rmg_server_bind_and_listen` has removed the old file. -/
  | unlinked
  | listening
  /-- The replica of a daemon. -/
  | connected (primary : Nat)
  | ended
  deriving DecidableEq, Repr

namespace Stage

/-- Between its choice of a run mode and the end of `rmg_application_new`. -/
def isStarting : Stage → Bool
  | starting _ | unlinked => true
  | _ => false

def isUp : Stage → Bool
  | listening | connected _ => true
  | _ => false

end Stage

/-- The daemons, each started at most once, and to which of them the sockets in the file system belong. -/
structure Host where
  conf : Nat → RmgConf
  stage : Nat → Stage
  files : Path → Option Nat

inductive HostLabel where
  | chooseMode (d : Nat)
  | unlink (d : Nat)
  | bind (d : Nat)
  /-- `bind` goes through, but `listen` does not. -/
  | listenFails (d : Nat)
  | connect (d : Nat)
  /-- A system call fails, and the daemon ends with an error. -/
  | fail (d : Nat)
  /-- A daemon that is up ends. -/
  | finish (d : Nat)
  /-- Somebody else removes a file. -/
  | remove (path : Path)
  deriving DecidableEq, Repr

/-- The daemon whose socket is bound. -/
def HostLabel.binder : HostLabel → Option Nat
  | .bind d | .listenFails d => some d
  | _ => none

namespace Host

variable (h : Host)

def setStage (d : Nat) (stage : Stage) : Host := { h with stage := Function.update h.stage d stage }

def setFile (path : Path) (owner : Option Nat) : Host := { h with files := Function.update h.files path owner }

def chosenMode (d : Nat) : RmgRunMode := getRunMode (h.conf d) fun path => (h.files path).isSome

/-- One system call, with what follows it. -/
inductive Step : Host → HostLabel → Host → Prop
  | chooseMode {h : Host} {d : Nat} : h.stage d = .off →
      Step h (.chooseMode d) (h.setStage d (.starting (h.chosenMode d)))
  | unlink {h : Host} {d : Nat} : h.stage d = .starting .primary →
      Step h (.unlink d) ((h.setFile (h.conf d).sockAddr none).setStage d .unlinked)
  | bind {h : Host} {d : Nat} : h.stage d = .unlinked → h.files (h.conf d).bindPath = none →
      Step h (.bind d) ((h.setFile (h.conf d).bindPath (some d)).setStage d .listening)
  | listenFails {h : Host} {d : Nat} : h.stage d = .unlinked → h.files (h.conf d).bindPath = none →
      Step h (.listenFails d) ((h.setFile (h.conf d).bindPath (some d)).setStage d .ended)
  | connect {h : Host} {d primary : Nat} : h.stage d = .starting .replica →
      h.files (h.conf d).connectPath = some primary → h.stage primary = .listening →
      Step h (.connect d) (h.setStage d (.connected primary))
  | fail {h : Host} {d : Nat} : (h.stage d).isStarting → Step h (.fail d) (h.setStage d .ended)
  | finish {h : Host} {d : Nat} : (h.stage d).isUp → Step h (.finish d) (h.setStage d .ended)
  | remove {h : Host} (path : Path) : Step h (.remove path) (h.setFile path none)

/-- No daemon has been started, and no socket been bound. -/
structure Fresh (h : Host) : Prop where
  stage : ∀ d, h.stage d = .off
  files : ∀ path, h.files path = none

abbrev Runs : Host → List HostLabel → Host → Prop := Transition.Run Step

variable {h} {h₀ h' : Host} {l : HostLabel} {ls ls' : List HostLabel} {d e : Nat} {path : Path}

@[simp] theorem setStage_conf (stage : Stage) : (h.setStage d stage).conf = h.conf := rfl

@[simp] theorem setStage_files (stage : Stage) : (h.setStage d stage).files = h.files := rfl

@[simp] theorem setStage_stage (stage : Stage) :
    (h.setStage d stage).stage e = if e = d then stage else h.stage e :=
  Function.update_apply ..

@[simp] theorem setFile_conf (owner : Option Nat) : (h.setFile path owner).conf = h.conf := rfl

@[simp] theorem setFile_stage (owner : Option Nat) : (h.setFile path owner).stage = h.stage := rfl

@[simp] theorem setFile_files (owner : Option Nat) (path' : Path) :
    (h.setFile path owner).files path' = if path' = path then owner else h.files path' :=
  Function.update_apply ..

theorem Step.conf (hs : Step h l h') : h'.conf = h.conf := by cases hs <;> rfl

/-! ### Who can be reached -/

/-- The daemon is listening, or it is no more. -/
def Past (h : Host) (d : Nat) : Prop := h.stage d = .listening ∨ h.stage d = .ended

/-- Each socket in the file system is where its daemon has bound it, and a replica is behind a path of its own. -/
structure Sound (h : Host) : Prop where
  files : ∀ path d, h.files path = some d → path = (h.conf d).bindPath ∧ h.Past d
  connected : ∀ d primary, h.stage d = .connected primary →
    (h.conf d).connectPath = (h.conf primary).bindPath ∧ h.Past primary

theorem Fresh.sound (hh : h.Fresh) : h.Sound := by
  refine ⟨fun path d hf => ?_, fun d primary hd => ?_⟩
  · rw [hh.files] at hf
    cases hf
  · rw [hh.stage] at hd
    cases hd

private theorem Past.setStage {stage : Stage} (h₀ : h.Past e)
    (hd : h.Past d → stage = .listening ∨ stage = .ended) : (h.setStage d stage).Past e := by
  unfold Past at *
  rw [setStage_stage]
  split
  · rename_i he
    exact hd (he ▸ h₀)
  · exact h₀

private theorem Sound.setStage {stage : Stage} (hh : h.Sound) (hd : h.Past d → stage = .listening ∨ stage = .ended)
    (hc : ∀ primary, stage = .connected primary →
      (h.conf d).connectPath = (h.conf primary).bindPath ∧ h.Past primary) : (h.setStage d stage).Sound := by
  refine ⟨fun path e hf => ?_, fun e primary he => ?_⟩
  · obtain ⟨hpath, hpast⟩ := hh.files path e hf
    exact ⟨hpath, hpast.setStage hd⟩
  · have hprimary : (h.conf e).connectPath = (h.conf primary).bindPath ∧ h.Past primary := by
      rw [setStage_stage] at he
      split at he
      · rename_i heq
        exact heq ▸ hc primary he
      · exact hh.connected e primary he
    exact ⟨hprimary.1, hprimary.2.setStage hd⟩

private theorem Sound.setFile {owner : Option Nat} (hh : h.Sound)
    (ho : ∀ d, owner = some d → path = (h.conf d).bindPath ∧ h.Past d) : (h.setFile path owner).Sound := by
  refine ⟨fun path' e hf => ?_, hh.connected⟩
  rw [setFile_files] at hf
  split at hf
  · rename_i heq
    exact heq ▸ ho e hf
  · exact hh.files path' e hf

theorem Step.sound (hs : Step h l h') (hh : h.Sound) : h'.Sound := by
  cases hs with
  | chooseMode hd => exact hh.setStage (fun hp => by simp [Past, hd] at hp) (by simp)
  | unlink hd => exact (hh.setFile (by simp)).setStage (fun hp => by simp [Past, hd] at hp) (by simp)
  | @bind d hd _ =>
    have hstage : (h.setStage d .listening).Sound := hh.setStage (fun _ => .inl rfl) (by simp)
    exact hstage.setFile fun e he => by cases he; exact ⟨rfl, .inl (by simp)⟩
  | @listenFails d hd _ =>
    have hstage : (h.setStage d .ended).Sound := hh.setStage (fun _ => .inr rfl) (by simp)
    exact hstage.setFile fun e he => by cases he; exact ⟨rfl, .inr (by simp)⟩
  | connect hd hf hp =>
    refine hh.setStage (fun hp => by simp [Past, hd] at hp) fun primary he => ?_
    cases he
    exact hh.files _ _ hf
  | fail _ => exact hh.setStage (fun _ => .inr rfl) (by simp)
  | finish _ => exact hh.setStage (fun _ => .inr rfl) (by simp)
  | remove path => exact hh.setFile (by simp)

theorem sound_of_run (h₀ : h.Fresh) (hr : Runs h ls h') : h'.Sound :=
  hr.invariant h₀.sound fun _ _ _ hh hs => hs.sound hh

private theorem Step.past (hs : Step h l h') (hp : h.Past d) : h'.Past d := by
  cases hs with
  | chooseMode hd | unlink hd | connect hd _ _ => exact hp.setStage fun hp => by simp [Past, hd] at hp
  | bind hd _ => exact hp.setStage fun _ => .inl rfl
  | listenFails hd _ => exact hp.setStage fun _ => .inr rfl
  | fail _ => exact hp.setStage fun _ => .inr rfl
  | finish _ => exact hp.setStage fun _ => .inr rfl
  | remove path => exact hp

/-- A daemon that has bound its socket does so no more. -/
private theorem Step.files (hs : Step h l h') (hp : h.Past d) (hf : h'.files path = some d) :
    h.files path = some d := by
  cases hs with
  | chooseMode _ | connect _ _ _ | fail _ | finish _ => exact hf
  | unlink _ | remove _ =>
    simp only [setStage_files, setFile_files] at hf
    split at hf
    · cases hf
    · exact hf
  | bind hd _ | listenFails hd _ =>
    simp only [setStage_files, setFile_files] at hf
    split at hf
    · cases hf
      simp [Past, hd] at hp
    · exact hf

/-- A replica connects to the daemon whose file it finds. -/
private theorem Step.connected (hs : Step h l h') (hh : h.Sound) (hc : h'.stage e = .connected d) :
    h.stage e = .connected d ∨ h.files (h.conf d).bindPath = some d := by
  cases hs with
  | connect _ hf _ =>
    rw [setStage_stage] at hc
    split at hc
    · cases hc
      right
      rw [← (hh.files _ _ hf).1]
      exact hf
    · exact .inl hc
  | remove _ => exact .inl hc
  | _ =>
    rw [setStage_stage] at hc
    split at hc
    · cases hc
    · exact .inl hc

/-- In every run, with any configurations, any order of system calls and files that are removed: a replica is connected
to a daemon whose path is its own (so if they are configured alike, the path has at most 106 bytes); and a daemon that
has bound its socket, but whose file is no longer there, is not reached by any further replica, ever. -/
theorem reached_by_file (h₀ : h.Fresh) (hr : Runs h ls h') :
    (∀ d e, h'.stage d = .connected e → (h'.conf d).connectPath = (h'.conf e).bindPath ∧
      ((h'.conf d).sockAddr = (h'.conf e).sockAddr → (h'.conf d).sockAddr.length ≤ 106)) ∧
    ∀ e, h'.Past e → h'.files (h'.conf e).bindPath ≠ some e → ∀ ls' h'', Runs h' ls' h'' →
      (∀ path, h''.files path ≠ some e) ∧ ∀ d, h''.stage d = .connected e → h'.stage d = .connected e := by
  have hsound := sound_of_run h₀ hr
  refine ⟨fun d e hc => ?_, fun e hp hf ls' h'' hr' => ?_⟩
  · have hpath := (hsound.connected d e hc).1
    refine ⟨hpath, fun heq => ?_⟩
    have hlen := congrArg List.length hpath
    unfold RmgConf.connectPath RmgConf.bindPath at hlen
    rw [List.length_take, List.length_take, ← heq] at hlen
    omega
  · have hnone : ∀ path, h'.files path ≠ some e := fun path hp' => hf ((hsound.files path e hp').1 ▸ hp')
    have hinv : h''.Sound ∧ h''.Past e ∧ (∀ path, h''.files path ≠ some e) ∧
        ∀ d, h''.stage d = .connected e → h'.stage d = .connected e := by
      refine hr'.invariant (I := fun h => h.Sound ∧ h.Past e ∧ (∀ path, h.files path ≠ some e) ∧
        ∀ d, h.stage d = .connected e → h'.stage d = .connected e) ⟨hsound, hp, hnone, fun _ hd => hd⟩ ?_
      rintro t l u ⟨ht, hpast, hfiles, hconn⟩ hs
      refine ⟨hs.sound ht, hs.past hpast, fun path hu => hfiles path (hs.files hpast hu), fun d hd => ?_⟩
      rcases hs.connected ht hd with hd | hd
      · exact hconn d hd
      · exact absurd hd (hfiles _)
    exact hinv.2.2

/-- A host on which no configuration is found. -/
def fresh : Host := ⟨fun _ => none, fun _ => .off, fun _ => none⟩

theorem fresh_fresh : fresh.Fresh := ⟨fun _ => rfl, fun _ => rfl⟩

/-- Two daemons that are started together are both primaries, and the first is not reached by anybody. -/
theorem reached_by_file_of_two : ∃ h,
    Runs fresh [.chooseMode 0, .chooseMode 1, .unlink 0, .bind 0, .unlink 1, .bind 1] h ∧
    h.stage 0 = .listening ∧ h.stage 1 = .listening ∧
      ∀ ls' h'', Runs h ls' h'' → ∀ d, h''.stage d = .connected 0 → h.stage d = .connected 0 := by
  have hr : Runs fresh
      ([] ++ [.chooseMode 0] ++ [.chooseMode 1] ++ [.unlink 0] ++ [.bind 0] ++ [.unlink 1] ++ [.bind 1]) _ :=
    (((((Transition.Run.nil.snoc (.chooseMode rfl)).snoc (.chooseMode (by decide +kernel))).snoc
      (.unlink (by decide +kernel))).snoc (.bind (by decide +kernel) (by decide +kernel))).snoc
        (.unlink (by decide +kernel))).snoc (.bind (by decide +kernel) (by decide +kernel))
  refine ⟨_, hr, by decide +kernel, by decide +kernel, fun ls' h'' hr' d hd => ?_⟩
  exact ((reached_by_file fresh_fresh hr).2 0 (.inl (by decide +kernel)) (by decide +kernel) ls' h'' hr').2 d hd

/-! ### Electing a primary -/

/-- All daemons choose their mode by the file, and its path is `path`; an empty one would stand for no file. -/
structure Auto (h : Host) (path : Path) : Prop where
  runMode : ∀ d, rmgOptionsStringFor (h.conf d) .runMode ≠ "primary" ∧
    rmgOptionsStringFor (h.conf d) .runMode ≠ "replica"
  sockAddr : ∀ d, (h.conf d).sockAddr = path
  nonempty : path ≠ []
  length : path.length ≤ 107

/-- A daemon is started when no other is about to come up, and nobody removes files. -/
def Undisturbed (h : Host) : HostLabel → Prop
  | .chooseMode _ => ∀ e, (h.stage e).isStarting = false
  | .remove _ => False
  | _ => True

abbrev OrderlyRuns : Host → List HostLabel → Host → Prop :=
  Transition.Run fun h l h' => Step h l h' ∧ h.Undisturbed l

theorem Auto.bindPath (ha : h.Auto path) (d : Nat) : (h.conf d).bindPath = path := by
  unfold RmgConf.bindPath
  rw [ha.sockAddr d]
  exact List.take_of_length_le ha.length

/-- The choice goes by the file alone. -/
theorem Auto.chosenMode (ha : h.Auto path) (d : Nat) :
    h.chosenMode d = if (h.files path).isSome then .replica else .primary := by
  unfold Host.chosenMode getRunMode
  rw [if_neg (ha.runMode d).1, if_neg (ha.runMode d).2, ha.sockAddr d]

theorem Step.auto (hs : Step h l h') (ha : h.Auto path) : h'.Auto path := by
  refine ⟨fun d => ?_, fun d => ?_, ha.nonempty, ha.length⟩ <;> rw [hs.conf]
  · exact ha.runMode d
  · exact ha.sockAddr d

/-- Nobody has bound a socket, and at most one is about to. -/
structure Vacant (path : Path) (h : Host) : Prop where
  files : h.files path = none
  stage : ∀ d, h.stage d = .off ∨ h.stage d = .ended ∨ h.stage d = .starting .primary ∨ h.stage d = .unlinked
  one : ∀ d e, (h.stage d).isStarting → (h.stage e).isStarting → d = e

/-- `p` has bound its socket, and the others are its replicas. -/
structure Held (path : Path) (p : Nat) (h : Host) : Prop where
  files : h.files path = some p
  past : h.Past p
  stage : ∀ d, d ≠ p → h.stage d = .off ∨ h.stage d = .ended ∨ h.stage d = .starting .replica ∨
    h.stage d = .connected p

private theorem Vacant.setStage {stage : Stage} (hv : h.Vacant path)
    (hs : stage = .ended ∨ stage = .starting .primary ∨ stage = .unlinked)
    (hone : stage.isStarting → (h.stage d).isStarting ∨ ∀ e, (h.stage e).isStarting = false) :
    (h.setStage d stage).Vacant path := by
  refine ⟨hv.files, fun e => ?_, fun e e' he he' => ?_⟩
  · rw [setStage_stage]
    split
    · exact .inr hs
    · exact hv.stage e
  · rw [setStage_stage] at he he'
    split at he <;> split at he'
    · simp_all
    · rename_i hed hed'
      rcases hone he with h₁ | h₁
      · exact absurd (hv.one _ _ he' h₁) hed'
      · rw [h₁ e'] at he'
        cases he'
    · rename_i hed hed'
      rcases hone he' with h₁ | h₁
      · exact absurd (hv.one _ _ he h₁) hed
      · rw [h₁ e] at he
        cases he
    · exact hv.one e e' he he'

/-- The one that is about to come up binds its socket. -/
private theorem Vacant.held {stage : Stage} (hv : h.Vacant path) (hd : h.stage d = .unlinked)
    (hs : stage = .listening ∨ stage = .ended) : ((h.setFile path (some d)).setStage d stage).Held path d := by
  refine ⟨by simp, by simpa [Past] using hs, fun e he => ?_⟩
  rw [setStage_stage, if_neg he]
  have hquiet : (h.stage e).isStarting = false := by
    by_contra hstarting
    exact he (hv.one e d (by simpa using hstarting) (by simp [hd, Stage.isStarting]))
  rcases hv.stage e with h' | h' | h' | h'
  · exact .inl h'
  · exact .inr (.inl h')
  · simp [h', Stage.isStarting] at hquiet
  · simp [h', Stage.isStarting] at hquiet

theorem Vacant.step (hv : h.Vacant path) (ha : h.Auto path) (hs : Step h l h') (hu : h.Undisturbed l) :
    l.binder = none ∧ h'.Vacant path ∨ ∃ d, l.binder = some d ∧ h'.Held path d := by
  cases hs with
  | @chooseMode d hd =>
    have hmode : h.chosenMode d = .primary := by rw [ha.chosenMode, hv.files]; rfl
    rw [hmode]
    exact .inl ⟨rfl, hv.setStage (.inr (.inl rfl)) fun _ => .inr hu⟩
  | @unlink d hd =>
    have hv' : (h.setFile path none).Vacant path := ⟨by simp, hv.stage, hv.one⟩
    rw [ha.sockAddr d]
    exact .inl ⟨rfl, hv'.setStage (.inr (.inr rfl)) fun _ => .inl (by simp [hd, Stage.isStarting])⟩
  | @bind d hd hf =>
    rw [ha.bindPath d]
    exact .inr ⟨d, rfl, hv.held hd (.inl rfl)⟩
  | @listenFails d hd hf =>
    rw [ha.bindPath d]
    exact .inr ⟨d, rfl, hv.held hd (.inr rfl)⟩
  | @connect d _ hd _ _ => rcases hv.stage d with h' | h' | h' | h' <;> simp [h'] at hd
  | @fail d hd => exact .inl ⟨rfl, hv.setStage (.inl rfl) (by simp [Stage.isStarting])⟩
  | @finish d hd => rcases hv.stage d with h' | h' | h' | h' <;> simp [h', Stage.isUp] at hd
  | remove path => exact hu.elim

private theorem Held.setStage {p : Nat} {stage : Stage} (hh : h.Held path p) (hd : d ≠ p)
    (hs : stage = .ended ∨ stage = .starting .replica ∨ stage = .connected p) : (h.setStage d stage).Held path p := by
  refine ⟨hh.files, ?_, fun e he => ?_⟩
  · unfold Past
    rw [setStage_stage, if_neg hd.symm]
    exact hh.past
  · rw [setStage_stage]
    split
    · exact .inr hs
    · exact hh.stage e he

/-- With the file in place, who is started becomes a replica. -/
theorem Held.step {p : Nat} (hh : h.Held path p) (ha : h.Auto path) (hsound : h.Sound) (hs : Step h l h')
    (hu : h.Undisturbed l) : l.binder = none ∧ h'.Held path p := by
  -- what the daemon that has bound its socket does no more
  have hne : ∀ d, h.stage d ≠ .listening → h.stage d ≠ .ended → d ≠ p := by
    rintro d hl he rfl
    exact hh.past.elim hl he
  have hothers : ∀ d, d ≠ p → h.stage d ≠ .starting .primary ∧ h.stage d ≠ .unlinked := fun d hd => by
    rcases hh.stage d hd with h' | h' | h' | h' <;> simp [h']
  cases hs with
  | @chooseMode d hd =>
    have hmode : h.chosenMode d = .replica := by rw [ha.chosenMode, hh.files]; rfl
    rw [hmode]
    exact ⟨rfl, hh.setStage (hne d (by simp [hd]) (by simp [hd])) (.inr (.inl rfl))⟩
  | @unlink d hd => exact absurd hd (hothers d (hne d (by simp [hd]) (by simp [hd]))).1
  | @bind d hd _ => exact absurd hd (hothers d (hne d (by simp [hd]) (by simp [hd]))).2
  | @listenFails d hd _ => exact absurd hd (hothers d (hne d (by simp [hd]) (by simp [hd]))).2
  | @connect d primary hd hf _ =>
    -- the only socket in the file system is the one of `p`
    have hfile := hf
    rw [(hsound.files _ _ hf).1, ha.bindPath, hh.files] at hfile
    cases hfile
    exact ⟨rfl, hh.setStage (hne d (by simp [hd]) (by simp [hd])) (.inr (.inr rfl))⟩
  | @fail d hd =>
    have hd' : d ≠ p := hne d (fun h' => by simp [h', Stage.isStarting] at hd) fun h' => by
      simp [h', Stage.isStarting] at hd
    exact ⟨rfl, hh.setStage hd' (.inl rfl)⟩
  | @finish d hd =>
    by_cases hd' : d = p
    · subst hd'
      refine ⟨rfl, hh.files, hh.past.setStage fun _ => .inr rfl, fun e he => ?_⟩
      rw [setStage_stage, if_neg he]
      exact hh.stage e he
    · exact ⟨rfl, hh.setStage hd' (.inl rfl)⟩
  | remove path => exact hu.elim

/-- What a run has made of the election. -/
def Election (path : Path) (ls : List HostLabel) (h : Host) : Prop :=
  (ls.filterMap HostLabel.binder = [] ∧ h.Vacant path) ∨
    ∃ p, ls.filterMap HostLabel.binder = [p] ∧ h.Held path p

theorem election_of_run (h₀ : h.Fresh) (ha : h.Auto path) (hr : OrderlyRuns h ls h') :
    h'.Auto path ∧ h'.Sound ∧ Election path ls h' := by
  induction hr with
  | nil =>
    refine ⟨ha, h₀.sound, .inl ⟨rfl, h₀.files path, fun d => .inl (h₀.stage d), fun d e hd _ => ?_⟩⟩
    simp [h₀.stage d, Stage.isStarting] at hd
  | @snoc ls t u l _ hs ih =>
    obtain ⟨hauto, hsound, he⟩ := ih
    refine ⟨hs.1.auto hauto, hs.1.sound hsound, ?_⟩
    have happend : (ls ++ [l]).filterMap HostLabel.binder = ls.filterMap HostLabel.binder ++ l.binder.toList := by
      rw [List.filterMap_append]
      cases hb : l.binder <;> simp [hb]
    unfold Election
    rw [happend]
    rcases he with ⟨hb, hv⟩ | ⟨p, hb, hh⟩
    · rw [hb]
      rcases hv.step hauto hs.1 hs.2 with ⟨hl, hv'⟩ | ⟨d, hl, hh'⟩
      · rw [hl]
        exact .inl ⟨rfl, hv'⟩
      · rw [hl]
        exact .inr ⟨d, rfl, hh'⟩
    · obtain ⟨hl, hh'⟩ := hh.step hauto hsound hs.1 hs.2
      rw [hb, hl]
      exact .inr ⟨p, rfl, hh'⟩

/-- Once `p` has ended, no daemon comes up. -/
private theorem Step.not_up {p : Nat} (hs : Step h l h') (hh : h.Held path p) (ha : h.Auto path) (hsound : h.Sound)
    (hu : h.Undisturbed l) (hp : h.stage p = .ended) :
    h'.stage p = .ended ∧ ∀ d, (h'.stage d).isUp → (h.stage d).isUp := by
  have hset : ∀ {h₁ : Host} {d : Nat} {stage : Stage}, h₁.stage = h.stage → (d = p → stage = .ended) →
      stage.isUp = false → (h₁.setStage d stage).stage p = .ended ∧
        ∀ e, ((h₁.setStage d stage).stage e).isUp → (h.stage e).isUp := by
    intro h₁ d stage heq hd hup
    refine ⟨?_, fun e he => ?_⟩
    · rw [setStage_stage, heq]
      split
      · rename_i hpd
        exact hd hpd.symm
      · exact hp
    · rw [setStage_stage, heq] at he
      split at he
      · rw [hup] at he
        cases he
      · exact he
  have hb := (hh.step ha hsound hs hu).1
  cases hs with
  | chooseMode hd | unlink hd =>
    refine hset rfl (fun hdp => ?_) rfl
    subst hdp
    rw [hp] at hd
    cases hd
  | bind | listenFails => cases hb
  | connect _ hf hl =>
    have hfile := hf
    rw [(hsound.files _ _ hf).1, ha.bindPath, hh.files] at hfile
    cases hfile
    rw [hp] at hl
    cases hl
  | fail | finish => exact hset rfl (fun _ => rfl) rfl
  | remove => exact hu.elim

/-- Daemons that choose their mode by the file, each started when no other is about to come up, while nobody removes
the file: only one socket is ever bound.  From then on the file is there, and every other daemon is a replica of the one
that bound it; and once that one has ended, no daemon ever comes up again. -/
theorem elected_once (h₀ : h.Fresh) (ha : h.Auto path) (hr : OrderlyRuns h ls h') :
    (ls.filterMap HostLabel.binder).length ≤ 1 ∧ ∀ p ∈ ls.filterMap HostLabel.binder, h'.files path = some p ∧
      (∀ d, d ≠ p → h'.stage d = .off ∨ h'.stage d = .ended ∨ h'.stage d = .starting .replica ∨
        h'.stage d = .connected p) ∧
      (h'.stage p = .ended → ∀ ls' h'', OrderlyRuns h' ls' h'' → ∀ d, (h''.stage d).isUp → (h'.stage d).isUp) := by
  obtain ⟨hauto, hsound, he⟩ := election_of_run h₀ ha hr
  rcases he with ⟨hb, -⟩ | ⟨p, hb, hh⟩
  · rw [hb]
    exact ⟨Nat.zero_le 1, fun p hp => by cases hp⟩
  · rw [hb]
    refine ⟨Nat.le_refl 1, fun q hq => ?_⟩
    obtain rfl : q = p := List.mem_singleton.1 hq
    refine ⟨hh.files, hh.stage, fun hended ls' h'' hr' d hd => ?_⟩
    have hinv : (h''.Held path q ∧ h''.Auto path ∧ h''.Sound) ∧ h''.stage q = .ended ∧
        ∀ d, (h''.stage d).isUp → (h'.stage d).isUp := by
      refine hr'.invariant (I := fun h => (h.Held path q ∧ h.Auto path ∧ h.Sound) ∧ h.stage q = .ended ∧
        ∀ d, (h.stage d).isUp → (h'.stage d).isUp) ⟨⟨hh, hauto, hsound⟩, hended, fun _ hd => hd⟩ ?_
      rintro t l u ⟨⟨hh, hauto, hsound⟩, hended, hup⟩ hs
      obtain ⟨hended', hup'⟩ := hs.1.not_up hh hauto hsound hs.2 hended
      exact ⟨⟨(hh.step hauto hsound hs.1 hs.2).2, hs.1.auto hauto, hs.1.sound hsound⟩, hended',
        fun d hd => hup d (hup' d hd)⟩
    exact hinv.2.2 d hd

/-- A primary and a replica that comes up after it; the primary ends, and is not followed by another. -/
theorem elected_once_of_two : ∃ h, OrderlyRuns fresh
    [.chooseMode 0, .unlink 0, .bind 0, .chooseMode 1, .connect 1, .finish 0] h ∧ h.stage 1 = .connected 0 ∧
      ∀ ls' h'', OrderlyRuns h ls' h'' → ∀ d, (h''.stage d).isUp → (h.stage d).isUp := by
  have ha : fresh.Auto (RmgConf.sockAddr none) :=
    ⟨fun _ => show "auto" ≠ "primary" ∧ "auto" ≠ "replica" by decide, fun _ => rfl, by decide +kernel,
      by decide +kernel⟩
  have h₁ : OrderlyRuns fresh ([] ++ [.chooseMode 0] ++ [.unlink 0] ++ [.bind 0]) _ :=
    ((Transition.Run.nil.snoc ⟨.chooseMode rfl, fun _ => rfl⟩).snoc ⟨.unlink (by decide +kernel), trivial⟩).snoc
      ⟨.bind (by decide +kernel) (by decide +kernel), trivial⟩
  have h₂ : OrderlyRuns fresh
      ([] ++ [.chooseMode 0] ++ [.unlink 0] ++ [.bind 0] ++ [.chooseMode 1] ++ [.connect 1] ++ [.finish 0]) _ :=
    ((h₁.snoc ⟨.chooseMode (by decide +kernel), fun e => ?_⟩).snoc
      ⟨@Step.connect _ 1 0 (by decide +kernel) (by decide +kernel) (by decide +kernel), trivial⟩).snoc
        ⟨.finish (by decide +kernel), trivial⟩
  · obtain ⟨-, h⟩ := elected_once fresh_fresh ha h₂
    exact ⟨_, h₂, by decide +kernel, (h 0 (by decide)).2.2 (by decide +kernel)⟩
  · simp only [setStage_stage, setFile_stage]
    split <;> rfl

end Host

end RecoveryManager
