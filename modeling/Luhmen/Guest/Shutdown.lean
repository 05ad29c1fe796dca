/-
# Guest.Shutdown -- stopping Docker without losing its configuration

`shutdown` in `guest/docker-shutdown.rs` turns live restore off for the time of a
stop: it saves `daemon.json` under a second name, replaces it by the disabled
configuration, has the daemon reload it, stops the units, and puts everything
back.  Here it is a program over the requests it makes: file operations in
`/etc/docker`, `systemctl`, `kill -HUP`, and `/info` on the Docker socket.

`Host` is what those requests act on and `host` what they do: any of them can
fail, and between two of them the daemon can crash, be started again, or act on
a reload it was sent (`Host.Drift`); between two runs Docker may also be started or
stopped by hand (`Host.Idle`).  The daemon and its unit are one `Service`, so a
unit that is `inactive` or `failed` has no daemon to it.

The reload loop waits for a deadline; `polls` is how often it gets to ask before.
The texts of system errors are whatever the reply carries.
-/
import Mathlib
import Luhmen.Guest.InfoResponse
import Luhmen.Theory.CrashLogic

namespace Luhmen.Guest.Shutdown

open Luhmen.Theory hiding fail

set_option autoImplicit false

/-! ## Requests -/

/-- The files of `/etc/docker` that `shutdown` touches. -/
inductive Path where
  | config
  | backup
  | temporary (pid number : Nat)
  deriving DecidableEq, Repr

def Path.display : Path → String
  | .config => "/etc/docker/daemon.json"
  | .backup => "/etc/docker/.luhmen-shutdown-daemon.json"
  | .temporary pid number => "/etc/docker/.luhmen-shutdown-" ++ toString pid ++ "-" ++ toString number

/-- What `stat` says of a file: `mode` is `st_mode`, file type included. -/
structure Metadata where
  uid : Nat
  gid : Nat
  mode : Nat
  deriving DecidableEq, Repr

inductive Created where
  | created
  | alreadyExists
  | failed (message : String)

inductive Request where
  | exist (path : Path)
  | symlinkMetadata (path : Path)
  | read (path : Path)
  | createNew (path : Path)
  | chown (path : Path) (uid gid : Nat)
  | setPermissions (path : Path) (mode : Nat)
  | writeAll (path : Path) (data : Bytes)
  | syncAll (path : Path)
  | rename (source target : Path)
  | hardLink (source target : Path)
  | removeFile (path : Path)
  | syncDirectory
  | showService
  | stopUnits
  | socketState
  | hangup (pid : Nat)
  | info
  | polls
  | dockerShimsRemain

def Reply : Request → Type
  | .exist _ | .symlinkMetadata _ | .dockerShimsRemain => Bool
  | .read _ => Except String (Bytes × Metadata)
  | .createNew _ => Created
  | .showService => Except String (List (String × String))
  | .socketState => Except String String
  | .info => Except String Bytes
  | .polls => Nat
  | _ => Except String Unit

def Requests : Interface where
  Request := Request
  Reply := Reply

abbrev Run := Fallible Failure Requests

namespace Run

/-- `?` on the outcome of a system call. -/
def orFail {α : Type} (outcome : Except String α) : Run α :=
  Fallible.ofExcept (outcome.mapError .error)

def fail {α : Type} (message : String) : Run α :=
  throw (.error message)

/-- The outcome of a closure: an error is a value, a panic still ends the program. -/
def attempt {α : Type} (block : Run α) : Run (Except String α) :=
  Fallible.attempt (fun failure =>
    match failure with
    | .error message => .ok message
    | other => .error other) block

def exist (path : Path) : Run Bool :=
  @Fallible.perform Failure Requests (.exist path)

/-- `fs::symlink_metadata(path).is_ok()`. -/
def symlinkMetadata (path : Path) : Run Bool :=
  @Fallible.perform Failure Requests (.symlinkMetadata path)

def read (path : Path) : Run (Except String (Bytes × Metadata)) :=
  @Fallible.perform Failure Requests (.read path)

def createNew (path : Path) : Run Created :=
  @Fallible.perform Failure Requests (.createNew path)

def chown (path : Path) (uid gid : Nat) : Run (Except String Unit) :=
  @Fallible.perform Failure Requests (.chown path uid gid)

def setPermissions (path : Path) (mode : Nat) : Run (Except String Unit) :=
  @Fallible.perform Failure Requests (.setPermissions path mode)

def writeAll (path : Path) (data : Bytes) : Run (Except String Unit) :=
  @Fallible.perform Failure Requests (.writeAll path data)

def syncAll (path : Path) : Run (Except String Unit) :=
  @Fallible.perform Failure Requests (.syncAll path)

def rename (source target : Path) : Run (Except String Unit) :=
  @Fallible.perform Failure Requests (.rename source target)

def hardLink (source target : Path) : Run (Except String Unit) :=
  @Fallible.perform Failure Requests (.hardLink source target)

def removeFile (path : Path) : Run (Except String Unit) :=
  @Fallible.perform Failure Requests (.removeFile path)

def syncDirectory : Run (Except String Unit) :=
  @Fallible.perform Failure Requests .syncDirectory

def showService : Run (Except String (List (String × String))) :=
  @Fallible.perform Failure Requests .showService

def stopUnits : Run (Except String Unit) :=
  @Fallible.perform Failure Requests .stopUnits

/-- `systemctl show docker.socket -p ActiveState --value`, trimmed. -/
def socketState : Run (Except String String) :=
  @Fallible.perform Failure Requests .socketState

def hangup (pid : Nat) : Run (Except String Unit) :=
  @Fallible.perform Failure Requests (.hangup pid)

/-- The bytes of the reply to `/info`. -/
def info : Run (Except String Bytes) :=
  @Fallible.perform Failure Requests .info

def polls : Run Nat :=
  @Fallible.perform Failure Requests .polls

def dockerShimsRemain : Run Bool :=
  @Fallible.perform Failure Requests .dockerShimsRemain

end Run

open Run

/-! ## Files -/

def readFile (path : Path) : Run (Bytes × Metadata) := do
  let (data, metadata) ← orFail (← read path)
  if data.length > limit then
    fail (path.display ++ " must be a regular file of at most 1 MiB")
  else pure (data, metadata)

/-- The first of the candidate names that is free. -/
def createTemporary (pid : Nat) : List Nat → Run Path
  | [] => fail "too many abandoned Docker shutdown temporary files"
  | number :: rest => do
      match ← createNew (.temporary pid number) with
      | .created => pure (.temporary pid number)
      | .alreadyExists => createTemporary pid rest
      | .failed message => fail ("create " ++ (Path.temporary pid number).display ++ ": " ++ message)

def fillTemporary (temporary : Path) (data : Bytes) (metadata : Metadata) : Run Unit := do
  orFail (← chown temporary metadata.uid metadata.gid)
  orFail (← setPermissions temporary (metadata.mode &&& 0o7777))
  orFail (← writeAll temporary data)
  orFail (← syncAll temporary)

def writeTemporary (pid : Nat) (data : Bytes) (metadata : Metadata) : Run Path := do
  let temporary ← createTemporary pid (List.range 100)
  match ← attempt (fillTemporary temporary data metadata) with
  | .error message =>
      let _ ← removeFile temporary
      fail message
  | .ok () => pure temporary

/-- The closure of `replace_file`. -/
def publish (temporary path : Path) (expected : Bytes) : Run Unit := do
  let (current, _) ← readFile path
  if current ≠ expected then
    fail (path.display ++ " changed during shutdown; preserving the external edit")
  else
    orFail (← rename temporary path)
    orFail (← syncDirectory)

/-- `if temporary.exists() { let _ = fs::remove_file(temporary); }`. -/
def discard (temporary : Path) : Run Unit := do
  match ← exist temporary with
  | true =>
      let _ ← removeFile temporary
      pure ()
  | false => pure ()

def replaceFile (pid : Nat) (path : Path) (data : Bytes) (metadata : Metadata) (expected : Bytes) :
    Run Unit := do
  let temporary ← writeTemporary pid data metadata
  let result ← attempt (publish temporary path expected)
  discard temporary
  orFail result

/-- `fs::hard_link(..).and_then(|()| sync_directory(..))`. -/
def link (temporary path : Path) : Run Unit := do
  orFail (← hardLink temporary path)
  orFail (← syncDirectory)

def saveBackup (pid : Nat) (path : Path) (original : Bytes) (metadata : Metadata) : Run Unit := do
  let temporary ← writeTemporary pid original metadata
  let result ← attempt (link temporary path)
  let _ ← removeFile temporary
  orFail result

/-! ## The daemon -/

def serviceState : Run (List (String × String)) := do
  orFail (← showService)

def liveRestore : Run Bool := do
  let stream ← orFail (← info)
  Fallible.ofExcept (Guest.liveRestore stream)

/-- `value.parse::<u32>().ok()`. -/
def parseU32 (text : String) : Option Nat :=
  let digits :=
    match text.toList with
    | '+' :: rest => rest
    | all => all
  if digits ≠ [] ∧ digits.all Char.isDigit then
    let value := digits.foldl (fun sum c => sum * 10 + (c.toNat - '0'.toNat)) 0
    if value < 2 ^ 32 then some value else none
  else none

/-- The loop of `reload_config`, with so many polls left after this one. -/
def confirm (expected : Bool) : Nat → Run Unit
  | 0 => do
      if (← attempt liveRestore) = .ok expected then pure ()
      else fail "Docker did not confirm the live-restore configuration reload within 8 seconds"
  | left + 1 => do
      if (← attempt liveRestore) = .ok expected then pure () else confirm expected left

def reloadConfig (expected : Bool) : Run Unit := do
  let state ← serviceState
  let pid := ((state.lookup "MainPID").bind parseU32).getD 0
  if state.lookup "ActiveState" ≠ some "active" ∨ pid ≤ 1 then
    fail "Docker is not active enough to reload its configuration"
  else
    orFail (← hangup pid)
    confirm expected (← polls)

/-! ## Restoring -/

def restoreFile (pid : Nat) (path : Path) (original : Bytes) (metadata : Metadata)
    (temporary : Bytes) : Run Unit := do
  let (current, _) ← readFile path
  if current = temporary then replaceFile pid path original metadata temporary
  else if current ≠ original then
    fail "Docker configuration changed during shutdown; preserving the external edit and backup"
  else pure ()

def restoreRuntime (original : Bytes) : Run Unit := do
  let state ← serviceState
  if state.lookup "ActiveState" = some "active" then
    let field ← Fallible.ofExcept (booleanField original liveRestoreKey)
    reloadConfig (field.getD false)
  else if (state.lookup "ActiveState" = some "inactive" ∨
      state.lookup "ActiveState" = some "failed") ∧ state.lookup "MainPID" = some "0" then pure ()
  else
    fail "Docker is still transitioning; original configuration restored and recovery backup retained; wait and retry"

/-- `backup.exists() || fs::symlink_metadata(backup).is_ok()`. -/
def backupPresent : Run Bool := do
  match ← exist .backup with
  | true => pure true
  | false => symlinkMetadata .backup

def removeBackup : Run Unit := do
  orFail (← removeFile .backup)
  orFail (← syncDirectory)

/-- `recover_backup` behind its early return. -/
def recoverFrom (pid : Nat) (original : Bytes) (metadata : Metadata) : Run Unit := do
  let temporary ← Fallible.ofExcept (disabledConfig original)
  restoreFile pid .config original metadata temporary
  restoreRuntime original
  removeBackup

def recoverBackup (pid : Nat) : Run Unit := do
  match ← backupPresent with
  | false => pure ()
  | true => do
      let (original, metadata) ← readFile .backup
      recoverFrom pid original metadata

/-! ## `shutdown` -/

/-- What has to be put back: the original, its metadata, and the temporary bytes. -/
structure Restoration where
  original : Bytes
  metadata : Metadata
  temporary : Bytes

/-- The closure of `shutdown` up to `restoration = Some(..)`. -/
def prepare (pid : Nat) (active : Bool) : Run (Option Restoration) :=
  match active with
  | false => pure none
  | true => do
      let (original, metadata) ← readFile .config
      let temporary ← Fallible.ofExcept (disabledConfig original)
      match ← liveRestore with
      | false => pure none
      | true => do
          saveBackup pid .backup original metadata
          replaceFile pid .config temporary metadata original
          pure (some ⟨original, metadata, temporary⟩)

/-- `reload_config(false)?` and `restore_file(..)?`, when there is something to put back. -/
def reloadDisabled (pid : Nat) : Option Restoration → Run Unit
  | none => pure ()
  | some r => do
      reloadConfig false
      restoreFile pid .config r.original r.metadata r.temporary

/-- `service_state()?.get("MainPID") != state.get("MainPID") || live_restore()?`. -/
def dockerChanged (state : List (String × String)) : Run Bool := do
  let now ← serviceState
  if now.lookup "MainPID" ≠ state.lookup "MainPID" then pure true else liveRestore

/-- The end of the preparation, when the daemon was active before. -/
def prepared (pid : Nat) (active : Bool) (state : List (String × String))
    (restoration : Option Restoration) : Run Unit :=
  match active with
  | false => pure ()
  | true => do
      reloadDisabled pid restoration
      match ← dockerChanged state with
      | true => fail "Docker changed during shutdown preparation; retry after it settles"
      | false => pure ()

def stopDocker (active : Bool) : Run Unit := do
  orFail (← stopUnits)
  let stopped ← serviceState
  let socket ← orFail (← socketState)
  if stopped.lookup "ActiveState" ≠ some "inactive" ∨ socket ≠ "inactive" then
    fail "Docker service and socket did not both stop cleanly"
  else if active = true ∧ stopped.lookup "Result" ≠ some "success" then
    fail ("Docker service shutdown failed: " ++ (stopped.lookup "Result").getD "unknown")
  else
    match ← dockerShimsRemain with
    | true =>
        fail "Docker container processes remain without an active daemon; recover Docker before graceful VM shutdown"
    | false => pure ()

/-- The closure of `shutdown` behind `restoration = Some(..)`. -/
def proceed (pid : Nat) (active : Bool) (state : List (String × String))
    (restoration : Option Restoration) : Run Unit := do
  prepared pid active state restoration
  stopDocker active

/-- The daemon is only put back when the stop failed. -/
def restoreDaemon (original : Bytes) : Except String Unit → Run Unit
  | .error _ => restoreRuntime original
  | .ok () => pure ()

/-- What stands behind the closure: put the configuration back, in the daemon as
well if the stop failed, and drop the backup. -/
def restore (pid : Nat) (restoration : Option Restoration) (result : Except String Unit) :
    Run Unit :=
  match restoration with
  | none => orFail result
  | some r => do
      restoreFile pid .config r.original r.metadata r.temporary
      restoreDaemon r.original result
      removeBackup
      orFail result

def shutdown (pid : Nat) : Run Unit := do
  recoverBackup pid
  let state ← serviceState
  let label := state.lookup "ActiveState"
  if label ≠ some "active" ∧ label ≠ some "inactive" ∧ label ≠ some "failed" then
    fail ("Docker is " ++ label.getD "unknown" ++ "; wait for its current operation and retry")
  else
    let active := label == some "active"
    match ← attempt (prepare pid active) with
    | .error message => fail message
    | .ok restoration => do
        let result ← attempt (proceed pid active state restoration)
        restore pid restoration result

/-! ## The host -/

/-- Permission bits have a number for each literal. -/
instance neZero_permissions : NeZero 0o10000 :=
  ⟨by decide⟩

/-- A regular file. -/
structure File where
  data : Bytes
  uid : Nat
  gid : Nat
  permissions : Fin 0o10000
  deriving DecidableEq, Repr

def File.metadata (f : File) : Metadata :=
  ⟨f.uid, f.gid, 0o100000 + f.permissions⟩

structure Daemon where
  pid : Nat
  live : Bool
  /-- It was sent a `SIGHUP` it may still act on. -/
  hangup : Bool
  deriving DecidableEq, Repr

/-- `docker.service` and its main process.  Only a unit that is neither `inactive` nor
`failed` can have one. -/
inductive Service where
  | stopped (failed : Bool)
  | running (label : String) (busy : label ≠ "inactive" ∧ label ≠ "failed") (daemon : Option Daemon)

/-- An active unit is neither. -/
theorem active_busy : "active" ≠ "inactive" ∧ "active" ≠ "failed" := by decide

namespace Service

def label : Service → String
  | .stopped false => "inactive"
  | .stopped true => "failed"
  | .running label _ _ => label

def daemon : Service → Option Daemon
  | .stopped _ => none
  | .running _ _ daemon => daemon

end Service

structure Host where
  files : Path → Option File
  service : Service
  /-- The `Result` of the service. -/
  result : String
  /-- The `ActiveState` of `docker.socket`. -/
  socket : String

namespace Host

def put (s : Host) (path : Path) (file : Option File) : Host :=
  { s with files := fun other => if other = path then file else s.files other }

/-- What `systemctl show docker.service` prints. -/
def shown (s : Host) : List (String × String) :=
  [("MainPID", ((s.service.daemon.map fun d => toString d.pid).getD "0")), ("Result", s.result),
    ("ActiveState", s.service.label)]

/-- The live-restore setting a daemon takes from its configuration. -/
def setting (data : Bytes) : Bool :=
  booleanField data liveRestoreKey == .ok (some true)

/-- The setting a daemon started or reloaded now would take: off without a configuration. -/
def configured (s : Host) : Bool :=
  match s.files .config with
  | some f => setting f.data
  | none => false

/-- What can happen to the host between two requests. -/
inductive Drift : Host → Host → Prop where
  | crash {s : Host} {label : String} {busy} {daemon : Option Daemon} (label' : String) (busy')
      (running : s.service = .running label busy daemon) :
      Drift s { s with service := .running label' busy' none }
  | giveUp {s : Host} {label : String} {busy} (failed : Bool) (result : String)
      (running : s.service = .running label busy none) :
      Drift s { s with service := .stopped failed, result := result }
  /-- Started again by systemd, or through its socket. -/
  | start {s : Host} (label : String) (busy) (pid : Nat) (down : s.service.daemon = none)
      (activated : (∃ failed, s.service = .stopped failed) → s.socket ≠ "inactive") :
      Drift s { s with service := .running label busy (some ⟨pid, s.configured, false⟩) }
  | reload {s : Host} {label : String} {busy} {d : Daemon} (again : Bool)
      (running : s.service = .running label busy (some d)) (asked : d.hangup = true) :
      Drift s { s with
        service := .running label busy (some { d with live := s.configured, hangup := again }) }
  | relabel {s : Host} {label : String} {busy} {daemon : Option Daemon} (label' : String) (busy')
      (running : s.service = .running label busy daemon) :
      Drift s { s with service := .running label' busy' daemon }
  | socket {s : Host} (socket : String) (open' : s.socket ≠ "inactive")
      (still : socket ≠ "inactive") : Drift s { s with socket := socket }

/-- What else can happen while no `shutdown` runs: Docker is started and stopped by hand,
or with the VM. -/
inductive Idle : Host → Host → Prop where
  | start {s : Host} (label : String) (busy) (pid : Nat) (down : s.service.daemon = none) :
      Idle s { s with service := .running label busy (some ⟨pid, s.configured, false⟩) }
  | stop {s : Host} (failed : Bool) (result : String) :
      Idle s { s with service := .stopped failed, result := result }
  | socket {s : Host} (socket : String) : Idle s { s with socket := socket }

/-- A request that fails without an effect, or succeeds with `done`. -/
def Attempt (outcome : Except String Unit) (s t : Host) (done : Prop) : Prop :=
  (∃ message, outcome = .error message ∧ t = s) ∨ (outcome = .ok () ∧ done)

/-- What requests do.  `honest`: an `lstat` fails only where there is nothing. -/
def exec (honest : Prop) : (request : Request) → Host → Reply request → Host → Prop
  | .exist path, s, (reply : Bool), t => t = s ∧ (reply = true → s.files path ≠ none)
  | .symlinkMetadata path, s, (reply : Bool), t =>
      t = s ∧ (reply = true → s.files path ≠ none) ∧
        (honest → reply = false → s.files path = none)
  | .read path, s, (reply : Except String (Bytes × Metadata)), t =>
      t = s ∧ ∀ content, reply = .ok content →
        ∃ f, s.files path = some f ∧ content = (f.data, f.metadata)
  | .createNew path, s, (reply : Created), t =>
      match reply with
      | .created => s.files path = none ∧ t = s.put path (some ⟨[], 0, 0, 0o600⟩)
      | _ => t = s
  | .chown path uid gid, s, (reply : Except String Unit), t =>
      Attempt reply s t
        (∃ f, s.files path = some f ∧ t = s.put path (some { f with uid := uid, gid := gid }))
  | .setPermissions path mode, s, (reply : Except String Unit), t =>
      Attempt reply s t (∃ f, s.files path = some f ∧
        t = s.put path (some { f with permissions := Fin.ofNat _ mode }))
  | .writeAll path data, s, (reply : Except String Unit), t =>
      ∃ f written, s.files path = some f ∧ t = s.put path (some { f with data := written }) ∧
        (reply = .ok () → written = data)
  | .syncAll _, s, _, t => t = s
  | .rename source target, s, (reply : Except String Unit), t =>
      Attempt reply s t (∃ f, s.files source = some f ∧ t = (s.put target (some f)).put source none)
  | .hardLink source target, s, (reply : Except String Unit), t =>
      Attempt reply s t
        (s.files target = none ∧ ∃ f, s.files source = some f ∧ t = s.put target (some f))
  | .removeFile path, s, (reply : Except String Unit), t =>
      Attempt reply s t (s.files path ≠ none ∧ t = s.put path none)
  | .syncDirectory, s, _, t => t = s
  | .showService, s, (reply : Except String (List (String × String))), t =>
      t = s ∧ ∀ state, reply = .ok state → state = s.shown
  | .stopUnits, s, _, t =>
      t.files = s.files ∧ (t.service = s.service ∨ t.service.daemon = none)
  | .socketState, s, (reply : Except String String), t =>
      t = s ∧ ∀ state, reply = .ok state → state = s.socket
  | .hangup pid, s, _, t =>
      t = s ∨ ∃ label busy d, s.service = .running label busy (some d) ∧ d.pid = pid ∧
        t = { s with service := .running label busy (some { d with hangup := true }) }
  | .info, s, (reply : Except String Bytes), t =>
      t = s ∧ ∀ stream live, reply = .ok stream → Guest.liveRestore stream = .ok live →
        ∃ d, s.service.daemon = some d ∧ d.live = live
  | .polls, s, _, t => t = s
  | .dockerShimsRemain, s, _, t => t = s

end Host

abbrev host (honest : Prop) : System Requests where
  State := Host
  exec := Host.exec honest
  env := Host.Drift
  idle := Host.Idle

end Luhmen.Guest.Shutdown
