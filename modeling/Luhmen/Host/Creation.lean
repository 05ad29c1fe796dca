/-
# Host.Creation -- creating a VM in its state directory

`create` is `Runtime::create` of `src/runtime.rs`, and `ensureOwned` the check of
`src/config.rs` it begins with: an empty directory becomes luhmen's own once it holds
the ownership marker, which is written like every file here (`atomicWrite`), through a
temporary file in the same directory.

`State` is that directory with Lima's below it, and whether Docker has the context.
`serve` is what requests do when they can be done; `home faulty` is the system in which,
where `faulty` holds, any of them can fail instead.  Lima creates a VM or does not.

The checks of the host, of Lima and of the mounts only pass or fail, as does the report
at the end.  `ConfigSerde` is what `serde_json` does with a `Config`.
-/
import Mathlib.Data.Finmap
import Luhmen.Theory.CrashLogic
import Luhmen.Theory.Bytes
import Luhmen.Host.TemplateUpdate

namespace Luhmen.Host

open Luhmen.Theory

set_option autoImplicit false

/-- `serde_json::from_slice` and `to_vec_pretty` on `Config`. -/
structure ConfigSerde where
  fromSlice : Bytes → Option Config
  toVecPretty : Config → Bytes

/-- `Config::validate_schema`. -/
def Config.validateSchema (config : Config) : Except String Unit :=
  if config.schemaVersion ≠ 1 then .error "unsupported configuration schema"
  else if ¬ (1 ≤ config.cpus ∧ config.cpus ≤ 64) then .error "cpus must be between 1 and 64"
  else if ¬ (2 ≤ config.memoryGib ∧ config.memoryGib ≤ 256) then
    .error "memory must be between 2 and 256 GiB"
  else if ¬ (10 ≤ config.diskGib ∧ config.diskGib ≤ 2048) then
    .error "disk must be between 10 and 2048 GiB"
  else if 32 < config.mounts.length then .error "at most 32 mounts are supported"
  else if ¬ config.mounts.all fun mount => mount.path.toList.head? == some '/' then
    .error "mount path must be absolute"
  else .ok ()

namespace Creation

/-! ## Requests -/

/-- The files `create` writes. -/
inductive Target where
  | owner
  | config
  | baseline
  deriving DecidableEq, Repr

/-- What can stand in the state directory, besides Lima's directory. -/
inductive Entry where
  | target (t : Target)
  /-- `with_extension("tmp-<pid>")`. -/
  | temporary (t : Target) (pid : Nat)
  | operationLock
  deriving DecidableEq, Repr

/-- What `lstat` says of the state directory. -/
structure Metadata where
  isDir : Bool
  isSymlink : Bool
  mode : Nat

inductive Request where
  | checkHost
  | checkLima
  | validateMounts (config : Config)
  | checkNestedHost
  | checkResources (config : Config)
  | symlinkMetadata
  | exist (e : Entry)
  | read (e : Entry)
  /-- `fs::read_dir(path)?.next().is_none()`. -/
  | isEmpty
  | createDirAll
  | setPermissions (mode : Nat)
  | createNew (e : Entry)
  | writeAll (e : Entry) (bytes : Bytes)
  | syncAll (e : Entry)
  | rename (source target : Entry)
  | syncDirectory
  | removeFile (e : Entry)
  | lock
  | contextReady
  /-- Whether `lima/luhmen` exists. -/
  | vmExist
  /-- Whether `limactl list` prints the VM. -/
  | limaList
  | availableSpace
  | createLimaDir
  | limaCreate
  | contextCreate
  | inspect

def Reply : Request → Type
  | .symlinkMetadata => Option Metadata
  | .exist _ | .vmExist => Bool
  | .read _ => Except String Bytes
  | .isEmpty | .contextReady | .limaList => Except String Bool
  | .availableSpace => Except String Nat
  | _ => Except String Unit

def Requests : Interface where
  Request := Request
  Reply := Reply

inductive Stop where
  | refused (message : String)
  | failed (message : String)

abbrev Run := Fallible Stop Requests

namespace Run

def perform (request : Request) : Run (Reply request) :=
  @Fallible.perform Stop Requests request

def orFail {α : Type} (outcome : Except String α) : Run α :=
  Fallible.ofExcept (outcome.mapError .failed)

/-- `bail!`. -/
def refuse {α : Type} (message : String) : Run α :=
  throw (.refused message)

def attempt {α : Type} (block : Run α) : Run (Except Stop α) :=
  Fallible.attempt .ok block

end Run

open Run

/-! ## `config.rs` -/

/-- The closure of `atomic_write`. -/
def publish (temporary path : Entry) (bytes : Bytes) : Run Unit := do
  orFail (← perform (.createNew temporary))
  orFail (← perform (.writeAll temporary bytes))
  orFail (← perform (.syncAll temporary))
  orFail (← perform (.rename temporary path))
  orFail (← perform .syncDirectory)

def atomicWrite (pid : Nat) (t : Target) (bytes : Bytes) : Run Unit := do
  match ← attempt (publish (.temporary t pid) (.target t) bytes) with
  | .error stop => do
      let _ ← perform (.removeFile (.temporary t pid))
      throw stop
  | .ok () => pure ()

def owner : Bytes :=
  ascii "luhmen-state-v1\n"

/-- The ownership marker is there. -/
def checkOwned (metadata : Metadata) : Run Unit := do
  let bytes ← orFail (← perform (.read (.target .owner)))
  match Utf8.fromUtf8 bytes with
  | none => throw (.failed "stream did not contain valid UTF-8")
  | some _ =>
      if bytes ≠ owner then refuse "state ownership marker does not match"
      else if metadata.mode &&& 0o077 ≠ 0 then refuse "state directory must have mode 0700"
      else pure ()

/-- The end of `ensure_owned`. -/
def claimDirectory (pid : Nat) : Run Unit := do
  orFail (← perform (.setPermissions 0o700))
  atomicWrite pid .owner owner

def ensureOwned (pid : Nat) (create : Bool) : Run Unit := do
  match ← perform .symlinkMetadata with
  | some metadata =>
      if ¬ (metadata.isDir = true ∧ metadata.isSymlink = false) then
        refuse "state path must be a real directory"
      else
        match ← perform (.exist (.target .owner)) with
        | true => checkOwned metadata
        | false =>
            match create with
            | false => refuse "refusing an unowned state directory"
            | true => do
                match ← orFail (← perform .isEmpty) with
                | false => refuse "refusing an unowned state directory"
                | true => claimDirectory pid
  | none =>
      match create with
      | false => refuse "luhmen has not been created; run `luhmen create`"
      | true => do
          orFail (← perform .createDirAll)
          claimDirectory pid

/-! ## `Runtime::create` -/

section Code

variable {F : Type} (serde : Serde F) (scripts : Scripts) (format : ConfigSerde)

def readConfig : Run Config := do
  let bytes ← orFail (← perform (.read (.target .config)))
  match format.fromSlice bytes with
  | none => throw (.failed "configuration does not parse")
  | some config => do
      Fallible.ofExcept (config.validateSchema.mapError .refused)
      pure config

/-- `vm()?.is_some()`. -/
def vm : Run Bool := do
  match ← perform .vmExist with
  | false => pure false
  | true => orFail (← perform .limaList)

/-- The settings are saved once. -/
def saveConfig (pid : Nat) (config : Config) : Run Unit := do
  match ← perform (.exist (.target .config)) with
  | true => do
      let saved ← readConfig format
      if saved ≠ config then
        refuse "configuration differs from the created VM; creation settings are immutable"
      else pure ()
  | false => do
      match ← perform .vmExist with
      | true => refuse "VM exists without a luhmen configuration; refusing to adopt it"
      | false => atomicWrite pid .config (format.toVecPretty config)

def requiredSpace : Nat := 15 * 1024 * 1024 * 1024

def createVm (pid : Nat) (config : Config) : Run Unit := do
  match ← vm with
  | true => pure ()
  | false => do
      let space ← orFail (← perform .availableSpace)
      if space < requiredSpace then
        refuse "at least 15 GiB of free host storage is required to create a VM"
      else
        orFail (← perform .createLimaDir)
        atomicWrite pid .baseline (serde.toVecPretty (VmTemplate.document scripts config))
        orFail (← perform .limaCreate)

def ensureContext : Run Unit := do
  match ← orFail (← perform .contextReady) with
  | true => pure ()
  | false => do
      orFail (← perform .contextCreate)
      match ← orFail (← perform .contextReady) with
      | true => pure ()
      | false => refuse "Docker context was not created"

/-- What `create` asks before it touches the state directory. -/
def checks (config : Config) : Run Unit := do
  orFail (← perform .checkHost)
  orFail (← perform .checkLima)
  Fallible.ofExcept (config.validateSchema.mapError .refused)
  orFail (← perform (.validateMounts config))
  match config.nestedVirtualization with
  | true => orFail (← perform .checkNestedHost)
  | false => pure ()
  orFail (← perform (.checkResources config))

def create (pid : Nat) (config : Config) : Run Unit := do
  checks config
  ensureOwned pid true
  orFail (← perform .lock)
  let _ ← orFail (← perform .contextReady)
  saveConfig format pid config
  createVm serde scripts pid config
  ensureContext
  orFail (← perform .inspect)

end Code

/-! ## The state directory -/

/-- Lima's directory below it. -/
inductive Lima where
  | absent
  | empty
  | created
  deriving DecidableEq, Repr

structure Directory where
  mode : Nat
  files : Finmap fun _ : Entry => Bytes
  lima : Lima

namespace Directory

def file (d : Directory) (e : Entry) : Option Bytes :=
  d.files.lookup e

def put (d : Directory) (e : Entry) (file : Option Bytes) : Directory :=
  { d with files :=
      match file with
      | some bytes => d.files.insert e bytes
      | none => d.files.erase e }

/-- Nothing is listed in it. -/
def isEmpty (d : Directory) : Bool :=
  decide (d.files.keys = ∅ ∧ d.lima = .absent)

end Directory

structure State where
  directory : Option Directory
  /-- Docker has the context. -/
  context : Bool

namespace State

def file (s : State) (e : Entry) : Option Bytes :=
  s.directory.bind fun d => d.file e

def lima (s : State) : Lima :=
  (s.directory.map Directory.lima).getD .absent

end State

/-- What a host answers where it has a choice: the mode of a new directory, the free space,
and the text of an error. -/
structure Answers where
  mode : Nat
  space : Nat
  enough : requiredSpace ≤ space
  missing : String

section Serve

variable (answers : Answers)

/-- A change inside the directory, where it is possible. -/
def change (s : State) (f : Directory → Option Directory) : Except String Unit × State :=
  match s.directory.bind f with
  | some d => (.ok (), { s with directory := some d })
  | none => (.error answers.missing, s)

/-- What requests do that succeed if they can. -/
def serve : (request : Request) → State → Reply request × State
  | .symlinkMetadata, s => (s.directory.map fun d => ⟨true, false, d.mode⟩, s)
  | .exist e, s => ((s.file e).isSome, s)
  | .read e, s =>
      match s.file e with
      | some bytes => (.ok bytes, s)
      | none => (.error answers.missing, s)
  | .isEmpty, s =>
      match s.directory with
      | some d => (.ok d.isEmpty, s)
      | none => (.error answers.missing, s)
  | .createDirAll, s =>
      (.ok (), { s with directory := some (s.directory.getD ⟨answers.mode, ∅, .absent⟩) })
  | .setPermissions mode, s => change answers s fun d => some { d with mode := mode }
  | .createNew e, s =>
      change answers s fun d => if d.file e = none then some (d.put e (some [])) else none
  | .writeAll e bytes, s =>
      change answers s fun d => if d.file e = none then none else some (d.put e (some bytes))
  | .rename source target, s =>
      change answers s fun d =>
        (d.file source).map fun bytes => (d.put target (some bytes)).put source none
  | .removeFile e, s =>
      change answers s fun d => if d.file e = none then none else some (d.put e none)
  | .lock, s =>
      change answers s fun d => some (d.put .operationLock (some ((d.file .operationLock).getD [])))
  | .contextReady, s => (.ok s.context, s)
  | .vmExist, s => (decide (s.lima = .created), s)
  | .limaList, s => (.ok (decide (s.lima = .created)), s)
  | .availableSpace, s => (.ok answers.space, s)
  | .createLimaDir, s =>
      change answers s fun d =>
        some { d with lima := if d.lima = .absent then .empty else d.lima }
  | .limaCreate, s =>
      change answers s fun d => if d.lima = .empty then some { d with lima := .created } else none
  | .contextCreate, s => (.ok (), { s with context := true })
  | .checkHost, s | .checkLima, s | .validateMounts _, s | .checkNestedHost, s
  | .checkResources _, s | .syncAll _, s | .syncDirectory, s | .inspect, s => (.ok (), s)

end Serve

/-- A request that fails: probes see nothing, a write leaves some of its bytes, and anything
else has no effect. -/
def Fault : (request : Request) → State → Reply request → State → Prop
  | .symlinkMetadata, s, (reply : Option Metadata), t => reply = none ∧ t = s
  | .exist _, s, (reply : Bool), t | .vmExist, s, (reply : Bool), t => reply = false ∧ t = s
  | .read _, s, (reply : Except String Bytes), t => (∃ message, reply = .error message) ∧ t = s
  | .isEmpty, s, (reply : Except String Bool), t
  | .contextReady, s, (reply : Except String Bool), t
  | .limaList, s, (reply : Except String Bool), t => (∃ message, reply = .error message) ∧ t = s
  | .availableSpace, s, (reply : Except String Nat), t =>
      ((∃ message, reply = .error message) ∨ ∃ space, reply = .ok space) ∧ t = s
  | .writeAll e _, s, (reply : Except String Unit), t =>
      (∃ message, reply = .error message) ∧
        ∃ d written, s.directory = some d ∧ t = { s with directory := some (d.put e (some written)) }
  | .checkHost, s, (reply : Except String Unit), t
  | .checkLima, s, (reply : Except String Unit), t
  | .validateMounts _, s, (reply : Except String Unit), t
  | .checkNestedHost, s, (reply : Except String Unit), t
  | .checkResources _, s, (reply : Except String Unit), t
  | .createDirAll, s, (reply : Except String Unit), t
  | .setPermissions _, s, (reply : Except String Unit), t
  | .createNew _, s, (reply : Except String Unit), t
  | .syncAll _, s, (reply : Except String Unit), t
  | .rename _ _, s, (reply : Except String Unit), t
  | .syncDirectory, s, (reply : Except String Unit), t
  | .removeFile _, s, (reply : Except String Unit), t
  | .lock, s, (reply : Except String Unit), t
  | .createLimaDir, s, (reply : Except String Unit), t
  | .limaCreate, s, (reply : Except String Unit), t
  | .contextCreate, s, (reply : Except String Unit), t
  | .inspect, s, (reply : Except String Unit), t =>
      (∃ message, reply = .error message) ∧ t = s

/-- Requests are served, or, where `faulty` holds, can fail. -/
def exec (faulty : Prop) (request : Request) (s : State) (reply : Reply request) (t : State) :
    Prop :=
  (∃ answers, serve answers request s = (reply, t)) ∨ (faulty ∧ Fault request s reply t)

/-- Nobody else writes into the directory. -/
abbrev home (faulty : Prop) : System Requests where
  State := State
  exec := exec faulty
  env := fun _ _ => False
  idle := fun _ _ => False

end Creation

end Luhmen.Host
