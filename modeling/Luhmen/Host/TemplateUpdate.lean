/-
# Host.TemplateUpdate -- refreshing the provisioning of a stopped VM

`update` is `Runtime::update` of `src/runtime.rs`: it reads the saved baseline
`vm.yaml` and Lima's own `lima.yaml`, replaces the provisioning of the baseline by
that of this version's template, and publishes the result in both, Lima's first.
`atomicWrite` is `config::atomic_write`: a temporary file renamed over the target.

`Disk` is what the requests act on.  `disk faulty config` says what they do on a
stopped VM with the creation settings `config`: where `faulty` holds any of them
can fail, and the directory sync behind a rename is one of them.  The JSON library
is a parameter, `Serde`; a document read from a text is `Json`.  Only luhmen's own
checks refuse (`Stop.refused`); a request that fails is `Stop.failed`.
-/
import Luhmen.Theory.CrashLogic
import Luhmen.Theory.Bytes
import Luhmen.Host.VmTemplate

namespace Luhmen.Host

open Luhmen.Theory

set_option autoImplicit false

/-- `serde_json::from_slice` and `to_vec_pretty`. -/
structure Serde (F : Type) where
  fromSlice : Bytes → Option (Json F)
  toVecPretty : Json F → Bytes

namespace Update

/-! ## Requests -/

inductive Template where
  | baseline
  | actual
  deriving DecidableEq, Repr

def Template.display : Template → String
  | .baseline => "vm.yaml"
  | .actual => "lima/luhmen/lima.yaml"

inductive Path where
  | template (t : Template)
  /-- `with_extension("tmp-<pid>")`. -/
  | temporary (t : Template) (pid : Nat)
  deriving DecidableEq, Repr

inductive Request where
  | ensureOwned
  | lock
  | checkLima
  | vm
  | config
  | checkStatePaths
  | stageCreate
  | stageWrite (bytes : Bytes)
  | stageSync
  | validate
  | read (t : Template)
  | createNew (path : Path)
  | writeAll (path : Path) (bytes : Bytes)
  | syncAll (path : Path)
  | rename (source target : Path)
  | syncDirectory
  | removeFile (path : Path)

def Reply : Request → Type
  | .vm => Except String (Option (Option String))
  | .config => Except String Config
  | .read _ => Except String Bytes
  | _ => Except String Unit

def Requests : Interface where
  Request := Request
  Reply := Reply

inductive Stop where
  | refused (message : String)
  | failed (message : String)

abbrev Run := Fallible Stop Requests

namespace Run

def perform (request : Request) : Run (Reply request) :=
  @Fallible.perform Stop Requests request

def orFail {α : Type} (outcome : Except String α) : Run α :=
  Fallible.ofExcept (outcome.mapError .failed)

/-- `bail!`. -/
def refuse {α : Type} (message : String) : Run α :=
  throw (.refused message)

def attempt {α : Type} (block : Run α) : Run (Except Stop α) :=
  Fallible.attempt .ok block

end Run

open Run

/-! ## `config::atomic_write` -/

/-- The closure of `atomic_write`. -/
def publish (temporary path : Path) (bytes : Bytes) : Run Unit := do
  orFail (← perform (.createNew temporary))
  orFail (← perform (.writeAll temporary bytes))
  orFail (← perform (.syncAll temporary))
  orFail (← perform (.rename temporary path))
  orFail (← perform .syncDirectory)

def atomicWrite (pid : Nat) (t : Template) (bytes : Bytes) : Run Unit := do
  let result ← attempt (publish (.temporary t pid) (.template t) bytes)
  match result with
  | .error stop => do
      let _ ← perform (.removeFile (.temporary t pid))
      throw stop
  | .ok () => pure ()

/-! ## `Runtime::update` -/

structure ProvisionUpdate where
  schemaVersion : Nat
  name : String
  state : String
  updated : Bool
  deriving DecidableEq, Repr

def templateLimit : Nat := 1024 * 1024

section Code

variable {F : Type} [DecidableEq F] (serde : Serde F) (scripts : Scripts)

def formatMessage (t : Template) : String :=
  "VM template is not the saved luhmen JSON format: " ++ t.display

/-- What `read_vm_template` makes of the bytes it read. -/
def parseTemplate (t : Template) (bytes : Bytes) : Except Stop (Json F) :=
  if templateLimit < bytes.length then .error (.refused "VM template exceeds 1 MiB")
  else
    match serde.fromSlice bytes with
    | none => .error (.refused (formatMessage t))
    | some document =>
        if document.isObject ∧ (document.get "provision").isArray then .ok document
        else .error (.refused (formatMessage t))

def readVmTemplate (t : Template) : Run (Json F) := do
  let bytes ← orFail (← perform (.read t))
  Fallible.ofExcept (parseTemplate serde t bytes)

def requireStoppedForUpdate : Run Unit := do
  match ← orFail (← perform .vm) with
  | none => refuse "luhmen VM does not exist"
  | some status =>
      if status = some "Stopped" then pure ()
      else refuse "VM must be stopped before updating provisioning; run `luhmen stop` first"

/-- The loop over the fields that have to agree. -/
def checkFields (baseline current : Json F) : List String → Run Unit
  | [] => pure ()
  | field :: rest =>
      if baseline.get field = current.get field then checkFields baseline current rest
      else refuse ("saved VM template " ++ field ++
        " differs from the creation settings; templates were preserved")

def fields : List String :=
  ["cpus", "memory", "disk", "mounts", "arch", "vmType"]

/-- The saved template with the provisioning of this version. -/
def candidate (baseline current : Json F) : Json F :=
  baseline.set "provision" (current.get "provision")

/-- The validation of the candidate, in a temporary file of Lima's directory. -/
def validate (bytes : Bytes) : Run Unit := do
  orFail (← perform .stageCreate)
  orFail (← perform (.stageWrite bytes))
  orFail (← perform .stageSync)
  orFail (← perform .validate)

/-- The check behind the validation that nothing moved meanwhile. -/
def unchanged (actual baseline : Json F) (config : Config) : Run Unit := do
  let actualNow ← readVmTemplate serde .actual
  if actualNow ≠ actual then
    refuse "VM template changed during validation; templates were preserved"
  else
    let baselineNow ← readVmTemplate serde .baseline
    if baselineNow ≠ baseline then
      refuse "VM template changed during validation; templates were preserved"
    else
      let configNow ← orFail (← perform .config)
      if configNow ≠ config then
        refuse "VM template changed during validation; templates were preserved"
      else pure ()

/-- `atomic_write` where the template differs from the candidate. -/
def writeChanged (pid : Nat) (t : Template) (current candidate : Json F) (bytes : Bytes) :
    Run Unit :=
  if current ≠ candidate then atomicWrite pid t bytes else pure ()

/-- `.context(..)` on the write of the baseline. -/
def baselineContext (result : Except Stop Unit) : Run Unit :=
  match result with
  | .ok () => pure ()
  | .error _ => throw (.failed "VM provisioning was updated but saving its baseline failed; rerun `luhmen update` with this CLI version before upgrading again")

/-- The body of `if updated`. -/
def refresh (pid : Nat) (config : Config) (actual baseline candidate : Json F) : Run Unit := do
  let bytes := serde.toVecPretty candidate
  validate bytes
  orFail (← perform .checkStatePaths)
  unchanged serde actual baseline config
  requireStoppedForUpdate
  writeChanged pid .actual actual candidate bytes
  baselineContext (← attempt (writeChanged pid .baseline baseline candidate bytes))

/-- `serde_json::from_str(&render(&config)?)?`. -/
def rendered (config : Config) : Run (Json F) :=
  match serde.fromSlice (serde.toVecPretty (VmTemplate.document scripts config)) with
  | some current => pure current
  | none => throw (.failed "rendered template does not parse")

/-- `update` once it has read everything. -/
def apply (pid : Nat) (config : Config) (actual baseline current : Json F) :
    Run ProvisionUpdate := do
  checkFields baseline current fields
  if (baseline.get "nestedVirtualization").asBool.getD false ≠ config.nestedVirtualization then
    refuse "saved VM template nested virtualization differs from the creation settings; templates were preserved"
  else
    let next := candidate baseline current
    if actual ≠ baseline ∧ actual ≠ next then
      refuse "VM template differs from the saved luhmen template; refusing to replace user edits"
    else
      let updated := decide (actual ≠ next ∨ baseline ≠ next)
      if updated then refresh serde pid config actual baseline next else pure ()
      pure ⟨1, "luhmen", "Stopped", updated⟩

def update (pid : Nat) : Run ProvisionUpdate := do
  orFail (← perform .ensureOwned)
  orFail (← perform .lock)
  orFail (← perform .checkLima)
  requireStoppedForUpdate
  let config ← orFail (← perform .config)
  let baseline ← readVmTemplate serde .baseline
  let actual ← readVmTemplate serde .actual
  let current ← rendered serde scripts config
  apply serde pid config actual baseline current

end Code

/-! ## The disk -/

structure Disk where
  files : Path → Option Bytes

namespace Disk

def put (s : Disk) (path : Path) (file : Option Bytes) : Disk where
  files := fun other => if other = path then file else s.files other

section Exec

variable (faulty : Prop)

/-- A request that says nothing about the templates. -/
def Passes {α : Type} (answer : α) (reply : Except String α) : Prop :=
  (faulty ∧ ∃ message, reply = .error message) ∨ reply = .ok answer

/-- A request that fails without an effect, or succeeds with `done`; `stuck` is what
makes it fail without a fault. -/
def Attempt (outcome : Except String Unit) (s t : Disk) (stuck done : Prop) : Prop :=
  ((faulty ∨ stuck) ∧ t = s ∧ ∃ message, outcome = .error message) ∨ (outcome = .ok () ∧ done)

/-- What requests do on a stopped VM. -/
def exec (config : Config) : (request : Request) → Disk → Reply request → Disk → Prop
  | .vm, s, reply, t => t = s ∧ Passes faulty (some (some "Stopped")) reply
  | .config, s, reply, t => t = s ∧ Passes faulty config reply
  | .read path, s, reply, t =>
      t = s ∧ ((faulty ∧ ∃ message, reply = .error message) ∨
        ∃ bytes, s.files (.template path) = some bytes ∧ reply = .ok bytes)
  | .createNew path, s, reply, t =>
      Attempt faulty reply s t (s.files path ≠ none)
        (s.files path = none ∧ t = s.put path (some []))
  | .writeAll path bytes, s, (reply : Except String Unit), t =>
      ∃ written, t = s.put path (some written) ∧ (reply = .ok () → written = bytes) ∧
        (faulty ∨ reply = .ok ())
  | .rename source target, s, reply, t =>
      Attempt faulty reply s t (s.files source = none)
        (∃ bytes, s.files source = some bytes ∧ t = (s.put target (some bytes)).put source none)
  | .removeFile path, s, reply, t =>
      Attempt faulty reply s t (s.files path = none) (t = s.put path none)
  | .ensureOwned, s, reply, t | .lock, s, reply, t | .checkLima, s, reply, t
  | .checkStatePaths, s, reply, t | .stageCreate, s, reply, t | .stageWrite _, s, reply, t
  | .stageSync, s, reply, t | .validate, s, reply, t | .syncAll _, s, reply, t
  | .syncDirectory, s, reply, t => t = s ∧ Passes faulty () reply

end Exec

end Disk

/-- Nobody else edits the templates. -/
abbrev disk (faulty : Prop) (config : Config) : System Requests where
  State := Disk
  exec := Disk.exec faulty config
  env := fun _ _ => False
  idle := fun _ _ => False

end Update

end Luhmen.Host
