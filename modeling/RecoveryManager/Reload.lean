import RecoveryManager.JournalApi
import RecoveryManager.UnitParser

/-!
# Reloading the units

`rmg_journal_reload_units`: every file of the units directory is parsed; when its hash is not the one stored for the
service, the rows of the service are removed and those of the file inserted, one statement each.
-/

namespace RecoveryManager

open Fallible Fallible.Prog

/-- A file of the units directory; `none` when it cannot be read. -/
structure UnitFile where
  contents : Option UnitText
  deriving DecidableEq, Repr

/-- The file as a C string: up to the first NUL. -/
def cString (contents : UnitText) : UnitText := contents.takeWhile (· ≠ 0)

/-- A failed insertion is only logged. -/
def addActionForService (service : RmgJEntry) (origin : UnitText) (action : RmgAEntry) : Proc PUnit := do
  let _ ← rmgJournalAddAction action.hash service.name action.type action.triggerLevelMin action.triggerLevelMax
    action.resetAfter origin

def addFriendForService (service : RmgJEntry) (origin : UnitText) (friend : RmgFEntry) : Proc PUnit := do
  let _ ← rmgJournalAddFriend friend.hash service.name (some friend.friendName) (some friend.friendContext)
    friend.type friend.action friend.argument friend.delay origin

/-- The rows of the service are replaced; an error ends the work on the file. -/
def replaceService (jentry : RmgJEntry) (fdata : UnitText) : Proc PUnit := do
  match ← rmgJournalRemoveService jentry.name with
  | .error => pure ⟨⟩
  | .ok =>
    match ← rmgJournalAddService jentry.hash jentry.name jentry.privateData jentry.publicData jentry.checkStart
      jentry.timeout fdata with
    | .error => pure ⟨⟩
    | .ok =>
      List.forM jentry.actions (addActionForService jentry fdata)
      List.forM jentry.friends (addFriendForService jentry fdata)

/-- The part of the loop body after a successful parse. -/
def ingestEntry (jentry : RmgJEntry) (fdata : UnitText) : Proc PUnit := do
  let (existHash, _) ← rmgJournalGetHash jentry.name
  if jentry.hash = existHash then pure ⟨⟩ else replaceService jentry fdata

/-- The entry built from a file text. -/
def entryOf (glib : GLib) (hostName : String) (fdata : UnitText) : RmgJEntry :=
  parseEvents glib hostName (rmgUtilsJenkinsHash fdata) (glib.markup fdata).events

/-- The loop body.  When the callbacks free a string twice, the allocator aborts the process. -/
def reloadUnit (glib : GLib) (file : UnitFile) : Proc PUnit := do
  match file.contents with
  | none => pure ⟨⟩
  | some contents =>
    let fdata := cString contents
    let hostName ← Prog.call .getHostName .ret
    let jentry := entryOf glib hostName fdata
    if jentry.contextFreedTwice then .abort
    else if (glib.markup fdata).ok then ingestEntry jentry fdata
    else pure ⟨⟩

def rmgJournalReloadUnits (glib : GLib) (gdir : Option (List UnitFile)) : Proc RmgStatus := do
  match gdir with
  | none => pure .error
  | some files =>
    List.forM files (reloadUnit glib)
    pure .ok

end RecoveryManager
