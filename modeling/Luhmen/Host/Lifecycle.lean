/-
# Host.Lifecycle -- starting and stopping the VM

`start`, `stop` and `restart` are those of `Runtime` in `src/runtime.rs`, with the diagnostics
of `src/startup.rs` at the places where `Trace` saves them.  What Lima, Docker and the guest do
is up to them: any request can get any reply.

A `State` remembers what was asked of the VM and how that went, newest first, in `log`; the
programs do not see it.  `host` is the system whose other state is `last-start.json` and the
temporary files it is written through.
-/
import Luhmen.Theory.CrashLogic
import Luhmen.Host.Creation
import Luhmen.Host.Startup

namespace Luhmen.Host.Lifecycle

open Luhmen.Theory

set_option autoImplicit false

/-! ## Requests -/

/-- The commands that take the operation lock here. -/
inductive Operation where
  | start
  | stop (force : Bool)
  | restart
  deriving DecidableEq, Repr

inductive Request where
  | checkHost
  | ensureOwned
  | lock (operation : Operation)
  | checkLima
  | config
  | validate (config : Config)
  | checkResources (config : Config)
  | contextReady
  | contextCreate
  /-- `vm()`, of which only the status counts. -/
  | vm
  | availableSpace
  | limaStart
  /-- The graceful shutdown of Docker in the guest. -/
  | dockerShutdown
  | limaStop (force : Bool)
  | waitForEngine
  | inspect
  -- what only diagnostics ask for
  | unixTime
  | now
  | createNew (pid : Nat)
  | writeAll (pid : Nat) (bytes : Bytes)
  | syncAll (pid : Nat)
  | rename (pid : Nat)
  | syncDirectory
  | removeFile (pid : Nat)

def Reply : Request → Type
  | .config => Except String Config
  | .contextReady => Except String Bool
  | .vm => Except String (Option String)
  | .availableSpace | .unixTime | .now => Except String Nat
  | _ => Except String Unit

def Requests : Interface where
  Request := Request
  Reply := Reply

inductive Stop where
  | refused (message : String)
  | failed (message : String)

abbrev Run := Fallible Stop Requests

namespace Run

def perform (request : Request) : Run (Reply request) :=
  @Fallible.perform Stop Requests request

def orFail {α : Type} (outcome : Except String α) : Run α :=
  Fallible.ofExcept (outcome.mapError .failed)

/-- `bail!`. -/
def refuse {α : Type} (message : String) : Run α :=
  throw (.refused message)

def attempt {α : Type} (block : Run α) : Run (Except Stop α) :=
  Fallible.attempt .ok block

/-- A request and `?`. -/
def demand (request : Request) {α : Type} (outcome : Reply request → Except String α) : Run α := do
  orFail (outcome (← perform request))

end Run

open Run

/-! ## `startup.rs` -/

section Diagnostics

variable {F : Type} (shown : F → List Char)

/-- The closure of `atomic_write`. -/
def publish (pid : Nat) (bytes : Bytes) : Run Unit := do
  demand (.createNew pid) id
  demand (.writeAll pid bytes) id
  demand (.syncAll pid) id
  demand (.rename pid) id
  demand .syncDirectory id

def atomicWrite (pid : Nat) (bytes : Bytes) : Run Unit := do
  match ← attempt (publish pid bytes) with
  | .error stop => do
      let _ ← perform (.removeFile pid)
      throw stop
  | .ok () => pure ()

/-- `Trace`, without its path. -/
structure Trace where
  started : Nat
  report : Startup.Report

/-- A clock that cannot be read stands at zero. -/
def reading (reply : Except String Nat) : Nat :=
  match reply with
  | .ok n => n
  | .error _ => 0

def checkpoint (pid : Nat) (report : Startup.Report) : Run Unit := do
  let _ ← attempt (atomicWrite pid (report.bytes shown))
  pure ()

def Trace.new (pid : Nat) (operation : String) : Run Trace := do
  let started ← perform .now
  let unixMs ← perform .unixTime
  let trace : Trace := ⟨reading started, Startup.Report.new operation (reading unixMs)⟩
  checkpoint shown pid trace.report
  pure trace

def Trace.stage {α : Type} (trace : Trace) (pid : Nat) (name : String) (operation : Run α) :
    Run (α × Trace) := do
  let report := trace.report.push name
  checkpoint shown pid report
  let began ← perform .now
  let result ← attempt operation
  let stageEnd ← perform .now
  let totalEnd ← perform .now
  let ok := match result with
    | .ok _ => true
    | .error _ => false
  let report := report.finish ok (reading stageEnd - reading began)
    (reading totalEnd - trace.started)
  checkpoint shown pid report
  match result with
  | .ok value => pure (value, { trace with report := report })
  | .error stop => throw stop

def Trace.skip (trace : Trace) (pid : Nat) (name : String) : Run Trace := do
  let report := trace.report.skip name
  checkpoint shown pid report
  pure { trace with report := report }

def Trace.complete (trace : Trace) (pid : Nat) : Run Unit := do
  let totalEnd ← perform .now
  checkpoint shown pid (trace.report.complete (reading totalEnd - trace.started))

end Diagnostics

/-! ## `runtime.rs` -/

def ensureContext : Run Unit := do
  match ← demand .contextReady id with
  | true => pure ()
  | false => do
      demand .contextCreate id
      match ← demand .contextReady id with
      | true => pure ()
      | false => refuse "Docker context was not created"

def requiredSpace : Nat := 2 * 1024 * 1024 * 1024

def startPreflight (restart : Bool) : Run Bool := do
  demand .checkLima id
  let config ← demand .config id
  demand (.validate config) id
  demand (.checkResources config) id
  ensureContext
  match ← demand .vm id with
  | none => refuse "VM is missing; run `luhmen create` with the saved configuration"
  | some status =>
      if status = "Running" ∨ status = "Stopped" then
        let running := decide (status = "Running")
        if running = false ∨ restart = true then
          let space ← demand .availableSpace id
          if space < requiredSpace then
            refuse "at least 2 GiB of free host storage is required to start or restart the VM"
          else pure running
        else pure running
      else
        refuse ("VM state is " ++ status.quote ++ "; inspect the Lima logs, then use `luhmen stop --force` to recover before retrying")

def shutdownContext : String :=
  "Docker could not stop gracefully; VM power-off was not requested; inspect the guest before retrying or using `luhmen stop --force`"

/-- The part of `stop_locked` that stops a VM which is up. -/
def powerOff (force : Bool) : Run Unit := do
  match force with
  | true => pure ()
  | false => demand .dockerShutdown fun reply => reply.mapError fun _ => shutdownContext
  demand (.limaStop force) id
  match ← demand .vm id with
  | none => refuse "VM disappeared while stopping"
  | some status => if status = "Stopped" then pure () else refuse "Lima did not report a stopped VM"

def stopLocked (force : Bool) : Run Unit := do
  demand .checkLima id
  match ← demand .vm id with
  | none => pure ()
  | some status =>
      if status = "Stopped" then pure ()
      else if status = "Running" ∨ force = true then powerOff force
      else
        refuse ("VM is " ++ status.quote ++ "; graceful stop is unavailable; use `luhmen stop --force` after inspecting its logs")

section Start

variable {F : Type} (shown : F → List Char)

def operationName (restart : Bool) : String :=
  if restart then "restart" else "start"

/-- `if restart && running`. -/
def stopStage (pid : Nat) (restart running : Bool) (trace : Trace) : Run Trace :=
  if restart = true ∧ running = true then do
    let result ← trace.stage shown pid "lima_stop" (stopLocked false)
    pure result.2
  else pure trace

/-- `if !running || restart`. -/
def startStage (pid : Nat) (restart running : Bool) (trace : Trace) : Run Trace :=
  if running = false ∨ restart = true then do
    let result ← trace.stage shown pid "lima_start" (demand .limaStart id)
    pure result.2
  else trace.skip shown pid "lima_start"

def startLocked (pid : Nat) (restart : Bool) : Run Unit := do
  let trace ← Trace.new shown pid (operationName restart)
  let preflight ← trace.stage shown pid "preflight" (startPreflight restart)
  let trace ← stopStage shown pid restart preflight.1 preflight.2
  let trace ← startStage shown pid restart preflight.1 trace
  let ready ← trace.stage shown pid "engine_socket_ready" (demand .waitForEngine id)
  ready.2.complete shown pid

/-- One of the commands, behind its checks and the lock. -/
def command (pid : Nat) (operation : Operation) : Run Unit := do
  demand .checkHost id
  demand .ensureOwned id
  demand (.lock operation) id
  match operation with
  | .start => startLocked shown pid false
  | .stop force => stopLocked force
  | .restart => startLocked shown pid true
  demand .inspect id

end Start

/-! ## The host -/

/-- What a request that concerns the VM came to. -/
inductive Event where
  | locked (operation : Operation)
  /-- The status Lima reported, `none` without a VM. -/
  | saw (status : Option String)
  | dockerShutdown (ok : Bool)
  | limaStop (force ok : Bool)
  | limaStart (ok : Bool)
  | engineReady
  deriving DecidableEq, Repr

def succeeded {α : Type} : Except String α → Bool
  | .ok _ => true
  | .error _ => false

/-- What is remembered of a request. -/
def event : (request : Request) → Reply request → Option Event
  | .lock operation, .ok () => some (.locked operation)
  | .vm, .ok status => some (.saw status)
  | .dockerShutdown, reply => some (.dockerShutdown (succeeded reply))
  | .limaStop force, reply => some (.limaStop force (succeeded reply))
  | .limaStart, reply => some (.limaStart (succeeded reply))
  | .waitForEngine, .ok () => some .engineReady
  | _, _ => none

structure State where
  /-- `last-start.json`. -/
  report : Option Bytes
  /-- Its temporary file of a process. -/
  temporary : Nat → Option Bytes
  log : List Event

namespace State

def putTemporary (s : State) (pid : Nat) (file : Option Bytes) : State :=
  { s with temporary := fun other => if other = pid then file else s.temporary other }

def record (s : State) (e : Option Event) : State :=
  { s with log := e.toList ++ s.log }

end State

/-- An error, without an effect. -/
def Fails {α : Type} (s : State) (reply : Except String α) (t : State) : Prop :=
  (∃ message, reply = .error message) ∧ t = s

/-- Files can be written or not; all else gets any reply. -/
def exec : (request : Request) → State → Reply request → State → Prop
  | .createNew pid, s, (reply : Except String Unit), t =>
      Fails s reply t ∨
        (s.temporary pid = none ∧ reply = .ok () ∧ t = s.putTemporary pid (some []))
  | .writeAll pid bytes, s, (reply : Except String Unit), t =>
      ∃ written, t = s.putTemporary pid (some written) ∧ (reply = .ok () → written = bytes)
  | .rename pid, s, (reply : Except String Unit), t =>
      Fails s reply t ∨ ∃ bytes, s.temporary pid = some bytes ∧ reply = .ok () ∧
        t = { s.putTemporary pid none with report := some bytes }
  | .removeFile pid, s, (reply : Except String Unit), t =>
      Fails s reply t ∨ (reply = .ok () ∧ t = s.putTemporary pid none)
  | request, s, reply, t => t = s.record (event request reply)

/-- Others have no business with these files. -/
abbrev host : System Requests where
  State := State
  exec := exec
  env := fun _ _ => False
  idle := fun _ _ => False

end Luhmen.Host.Lifecycle
