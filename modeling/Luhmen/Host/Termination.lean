/-
# Host.Termination -- ending the process group of a command

`run`, `runAsync`, `terminateGroup` and `signalGroup` are those of `src/process.rs`.  `capture` is
one request here, which ends as a loop of `Host.Capture` does and reaps the leader if that one did.

A `State` is the table of processes.  They fork, exit, are reaped by their parents and move between
groups at any time (`Moves`), but no stranger joins the group of the command, and `luhmen` may
signal every member of it.  A process id is drawn again once no process and no group bears it.
Only the leader waits for `luhmen` to reap it, and while it does, all signals that are sent go to
the group it started.
-/
import Luhmen.Theory.CrashLogic
import Luhmen.Host.Capture

namespace Luhmen.Host.Termination

open Luhmen.Theory

set_option autoImplicit false

/-- An error and its contexts, outermost first. -/
abbrev Error := List String

/-- `{error:#}`. -/
def alternate (error : Error) : String :=
  ": ".intercalate error

/-- What tokio says of a timeout. -/
def elapsed : String := "deadline has elapsed"

inductive Signal where
  | term
  | kill
  deriving DecidableEq, Repr

def Signal.text : Signal → String
  | .term => "-TERM"
  | .kill => "-KILL"

structure ExitStatus where
  success : Bool
  /-- As it is displayed. -/
  text : String

inductive Notification where
  | received
  | ended
  | elapsed

/-! ## Requests -/

inductive Request where
  | isCancelled
  | runtime
  | exits
  | spawn
  | capture (timeout : Nat)
  /-- `/bin/kill`, for one second. -/
  | signal (group : Nat) (signal : Signal)
  | sleep (millis : Nat)
  | kill (child : Nat)
  | tryWait (child : Nat)
  | recv

def Reply : Request → Type
  | .isCancelled => Bool
  | .spawn => Except String Nat
  | .capture _ => Except Error (Nat × Bytes × Bytes)
  | .signal _ _ => Option (Except String ExitStatus)
  | .sleep _ => Unit
  | .tryWait _ => Except String (Option Nat)
  | .recv => Notification
  | _ => Except String Unit

def Requests : Interface where
  Request := Request
  Reply := Reply

abbrev Run := Fallible Error Requests

namespace Run

def perform (request : Request) : Run (Reply request) :=
  @Fallible.perform Error Requests request

def orFail {α : Type} (outcome : Except Error α) : Run α :=
  Fallible.ofExcept outcome

def attempt {α : Type} (block : Run α) : Run (Except Error α) :=
  Fallible.attempt .ok block

end Run

open Run

/-! ## `process.rs` -/

structure Output where
  status : Nat
  stdout : List Char
  stderr : List Char

def signalGroup (group : Nat) (signal : Signal) : Run Unit := do
  match ← perform (.signal group signal) with
  | none => throw ["process-group signal command timed out", elapsed]
  | some (.error error) => throw [error]
  | some (.ok status) =>
      if status.success then pure ()
      else throw ["process-group " ++ signal.text ++ " failed (" ++ status.text ++ ")"]

/-- The loop that reaps the leader; `rounds` is how often `recv` returns before the deadline of
two seconds. -/
def reap (child : Nat) : Nat → Run Unit
  | 0 => throw ["cancelled dependency did not exit within the cleanup deadline", elapsed]
  | rounds + 1 => do
      match ← perform (.tryWait child) with
      | .error error => throw [error]
      | .ok (some _) => pure ()
      | .ok none =>
          match ← perform .recv with
          | .received => reap child rounds
          | .ended => throw ["child exit notifications ended"]
          | .elapsed =>
              throw ["cancelled dependency did not exit within the cleanup deadline", elapsed]

/-- Where the group was not signalled, at least the leader is killed. -/
def lastResort (child : Nat) : Except Error Unit → Run Unit
  | .ok () => pure ()
  | .error _ => do
      let _ ← perform (.kill child)
      pure ()

def terminateGroup (rounds child : Nat) : Run Unit := do
  let _ ← attempt (signalGroup child .term)
  perform (.sleep 250)
  let killed ← attempt (signalGroup child .kill)
  lastResort child killed
  reap child rounds
  orFail (killed.mapError fun error =>
    "could not confirm dependency process-group termination" :: error)

def commandFailed : String :=
  "dependency command failed; VM state may have changed; run `luhmen inspect` before retrying"

def cleanupFailed : String := "dependency cleanup also failed: "

/-- What `runAsync` does with an error of `capture`. -/
def giveUp (rounds child : Nat) (error : Error) : Run Output := do
  match ← attempt (terminateGroup rounds child) with
  | .ok () => throw (commandFailed :: error)
  | .error cleanup => throw (commandFailed :: (cleanupFailed ++ alternate cleanup) :: error)

section Text

variable (invalid : Bytes → String)

/-- `String::from_utf8`; `invalid` is what its error says. -/
def fromUtf8 (context : String) (bytes : Bytes) : Run (List Char) :=
  match Utf8.fromUtf8 bytes with
  | some text => pure text
  | none => throw [context, invalid bytes]

def output (captured : Nat × Bytes × Bytes) : Run Output := do
  let stdout ← fromUtf8 invalid "dependency stdout is not UTF-8" captured.2.1
  let stderr ← fromUtf8 invalid "dependency stderr is not UTF-8" captured.2.2
  pure ⟨captured.1, stdout, stderr⟩

def runAsync (rounds timeout : Nat) : Run Output := do
  orFail ((← perform .exits).mapError fun error => [error])
  let child ← orFail ((← perform .spawn).mapError fun error =>
    ["could not start dependency command", error])
  match ← perform (.capture timeout) with
  | .ok captured => output invalid captured
  | .error error => giveUp rounds child error

def run (rounds timeout : Nat) : Run Output := do
  match ← perform .isCancelled with
  | true => throw ["operation cancelled"]
  | false => do
      orFail ((← perform .runtime).mapError fun error => [error])
      runAsync invalid rounds timeout

end Text

/-! ## Processes -/

/-- What is not `running` is a zombie. -/
structure Process where
  group : Nat
  running : Bool
  /-- It descends from the command. -/
  ours : Bool
  /-- It moved to another group, or whoever forked it had. -/
  left : Bool
  deriving DecidableEq, Repr

structure State where
  table : Nat → Option Process
  /-- The leader, until it is reaped. -/
  child : Option Nat

namespace State

def put (s : State) (pid : Nat) (process : Option Process) : State :=
  { s with table := fun other => if other = pid then process else s.table other }

/-- These processes exit. -/
def hit (s : State) (dies : Nat → Process → Bool) : State :=
  { s with table := fun pid => (s.table pid).map fun process =>
      if dies pid process then { process with running := false } else process }

def Free (s : State) (pid : Nat) : Prop :=
  s.table pid = none ∧ ∀ other process, s.table other = some process → process.group ≠ pid

/-- The leader, a zombie, is reaped. -/
def Reaps (s t : State) : Prop :=
  ∃ child process, s.child = some child ∧ s.table child = some process ∧
    process.running = false ∧ t = { s.put child none with child := none }

@[simp] theorem put_self (s : State) (pid : Nat) (process : Option Process) :
    (s.put pid process).table pid = process := if_pos rfl

theorem put_other {s : State} {pid other : Nat} (process : Option Process) (different : other ≠ pid) :
    (s.put pid process).table other = s.table other := if_neg different

end State

/-- What processes do at any time.  A process forks within its group; it moves to a group of its
own or to one that is there, but no stranger moves to a group because one of ours is in it: the
group of the command is its own. -/
inductive Moves (s : State) : State → Prop where
  | fork {pid fresh : Nat} {process : Process} (is : s.table pid = some process)
      (running : process.running = true) (free : s.Free fresh) :
      Moves s (s.put fresh (some process))
  | exit {pid : Nat} {process : Process} (is : s.table pid = some process) :
      Moves s (s.put pid (some { process with running := false }))
  | reap {pid : Nat} {process : Process} (is : s.table pid = some process)
      (zombie : process.running = false) (other : s.child ≠ some pid) : Moves s (s.put pid none)
  | move {pid group : Nat} {process : Process} (is : s.table pid = some process)
      (running : process.running = true)
      (allowed : group = pid ∨ ∃ other member, s.table other = some member ∧
        member.group = group ∧ (member.ours = true → process.ours = true)) :
      Moves s (s.put pid (some
        { process with group, left := process.left || decide (group ≠ process.group) }))

/-- The signal reaches all of the group at once, as `luhmen` may signal each of them; of another
than `kill` some may not die. -/
def Struck (group : Nat) (signal : Signal) (s t : State) : Prop :=
  ∃ dies, (∀ pid process, dies pid process = true → process.group = group) ∧
    (signal = .kill → ∀ pid process, process.group = group → dies pid process = true) ∧
    t = s.hit dies

/-- A capture that ended so; an error may keep it from starting. -/
def Captured (reply : Except Error (Nat × Bytes × Bytes)) (capture : Capture.State) : Prop :=
  match reply with
  | .ok captured => capture.point = .returned (.ok captured)
  | .error error => Capture.Started capture ∨ ∃ message causes, error = message :: causes ∧
      capture.point = .returned (.error message)

def exec : (request : Request) → State → Reply request → State → Prop
  | .spawn, s, (reply : Except String Nat), t =>
      ((∃ error, reply = .error error) ∧ t = s) ∨
        ∃ pid, reply = .ok pid ∧ s.Free pid ∧
          t = { s.put pid (some ⟨pid, true, true, false⟩) with child := some pid }
  | .capture _, s, (reply : Except Error (Nat × Bytes × Bytes)), t =>
      ∃ capture, Capture.Reachable capture ∧ Captured reply capture ∧
        ((∃ status, capture.leader = .reaped status ∧ s.Reaps t) ∨
          ((∀ status, capture.leader ≠ .reaped status) ∧ t = s))
  | .signal group signal, s, (reply : Option (Except String ExitStatus)), t =>
      Struck group signal s t ∨ (t = s ∧ ∀ status, reply = some (.ok status) → status.success = false)
  | .kill child, s, _, t =>
      ∃ dies, (∀ pid process, dies pid process = true → pid = child) ∧ t = s.hit dies
  | .tryWait child, s, (reply : Except String (Option Nat)), t =>
      ((∃ error, reply = .error error) ∧ t = s) ∨
        (reply = .ok none ∧ t = s ∧
          ∃ process, s.table child = some process ∧ process.running = true) ∨
        ∃ status, reply = .ok (some status) ∧ s.child = some child ∧ s.Reaps t
  | _, s, _, t => t = s

abbrev host : System Requests where
  State := State
  exec := exec
  env := Moves
  idle := fun _ _ => False

/-- Nothing descends from the command yet. -/
structure Before (s : State) : Prop where
  child : s.child = none
  strangers : ∀ pid process, s.table pid = some process → process.ours = false

end Luhmen.Host.Termination
