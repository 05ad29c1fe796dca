/-
# Guest.ConfigSignature -- which configuration Docker was started with

`signature`, `prepare`, `commit` and `clear` are those of `scripts/docker-config-signature.sh`, and
`restartDocker` is the end of the script `INSTALL_DOCKER` in `src/vm_template.rs`.  systemd runs
the first as hooks of each unit (`lifecycle`), as the unit files say, and runs it again at any
time; Lima writes the files and then runs the script, and writes none once that runs.

A file is at some version of those it has in the course of a boot, and none of them twice (`Texts`).
A `State` is one boot of the guest.  When systemd reads a unit file is not modelled, only what the
unit reads as it runs.
-/
import Luhmen.Theory.Interleaving

namespace Luhmen.Guest.ConfigSignature

open Luhmen.Theory

set_option autoImplicit false

inductive DockerUnit where
  | service
  | socket
  deriving DecidableEq, Repr

inductive File where
  | unit (u : DockerUnit)
  | helper
  | binary
  | complete
  | daemonJson
  | environment
  deriving DecidableEq, Repr

/-- What the versions of files say, `none` where there is no file, and the digests of it.  Digests
do not collide. -/
structure Texts where
  Text : Type
  Digest : Type
  text : File → Nat → Option Text
  digest : List (Option Text) → Digest
  sameDigest : DecidableEq Digest
  once : ∀ file, Function.Injective (text file)
  exact : Function.Injective digest

instance (texts : Texts) : DecidableEq texts.Digest := texts.sameDigest

variable {texts : Texts}

/-! ## Requests -/

inductive Request (texts : Texts) where
  /-- Lima has written its files, and writes none while the script runs. -/
  | written
  /-- Of `binary`, where its link leads. -/
  | sha256sum (file : File)
  | isFile (file : File)
  | installState
  | removeActive (u : DockerUnit)
  | mktemp
  | writeTemporary
  | moveToPending (u : DockerUnit) (value : texts.Digest)
  | moveToActive (u : DockerUnit)
  | removeBoth (u : DockerUnit)
  /-- `ExecStart`. -/
  | exec (u : DockerUnit)
  /-- The main process ends, if there is any. -/
  | stopped (u : DockerUnit)
  | cat (u : DockerUnit)
  | validate
  | systemctlStop (units : List DockerUnit)
  | systemctlStart (units : List DockerUnit)

def Reply (texts : Texts) : Request texts → Type
  | .written | .stopped _ => Unit
  | .sha256sum _ => Except String texts.Text
  | .isFile _ => Bool
  | .cat _ => Option texts.Digest
  | _ => Except String Unit

def Requests (texts : Texts) : Interface where
  Request := Request texts
  Reply := Reply texts

abbrev Run (texts : Texts) := Fallible String (Requests texts)

namespace Run

def perform (request : Request texts) : Run texts (Reply texts request) :=
  @Fallible.perform String (Requests texts) request

def demand (request : Request texts) {α : Type} (outcome : Reply texts request → Except String α) :
    Run texts α := do
  Fallible.ofExcept (outcome (← perform request))

def attempt {α : Type} (block : Run texts α) : Run texts (Except String α) :=
  Fallible.attempt .ok block

end Run

open Run

/-! ## `docker-config-signature.sh` -/

/-- Files that have to be there, one after the other. -/
def hashes : List File → Run texts (List (Option texts.Text))
  | [] => pure []
  | file :: files => do
      let text ← demand (.sha256sum file) id
      let others ← hashes files
      pure (some text :: others)

/-- The files that have to be there. -/
def needed : DockerUnit → List File
  | .service => [.unit .service, .helper, .binary, .complete, .daemonJson]
  | .socket => [.unit .socket, .helper]

/-- `/etc/environment`, which need not be there. -/
def environmentHash : Run texts (Option texts.Text) := do
  match ← perform (.isFile .environment) with
  | false => pure none
  | true => do
      let text ← demand (.sha256sum .environment) id
      pure (some text)

def signature (u : DockerUnit) : Run texts texts.Digest := do
  let found ← hashes (needed u)
  match u with
  | .service => do
      let environment ← environmentHash
      pure (texts.digest (found ++ [environment]))
  | .socket => pure (texts.digest found)

def prepare (u : DockerUnit) : Run texts Unit := do
  demand .installState id
  demand (.removeActive u) id
  let value ← signature u
  demand .mktemp id
  demand .writeTemporary id
  demand (.moveToPending u value) id

def commit (u : DockerUnit) : Run texts Unit :=
  demand (.moveToActive u) id

def clear (u : DockerUnit) : Run texts Unit :=
  demand (.removeBoth u) id

/-! ## The unit files -/

/-- `ExecStartPre`, `ExecStart` and `ExecStartPost`. -/
def starting (u : DockerUnit) : Run texts Unit := do
  prepare u
  demand (.exec u) id
  commit u

/-- A unit from its start to its end, with `ExecStopPost`.  Nothing runs of it before. -/
def lifecycle (u : DockerUnit) : Run texts Unit := do
  perform (.stopped u)
  let _ ← attempt (starting u)
  perform (.stopped u)
  clear u

/-! ## `INSTALL_DOCKER` -/

def restartDocker : Run texts Unit := do
  let socketSignature ← signature .socket
  let serviceSignature ← signature .service
  let socketActive : Option texts.Digest ← perform (.cat .socket)
  if socketActive ≠ some socketSignature then
    demand .validate id
    demand (.systemctlStop [.service, .socket]) id
    demand (.systemctlStart [.socket, .service]) id
  else
    let serviceActive : Option texts.Digest ← perform (.cat .service)
    if serviceActive ≠ some serviceSignature then
      demand .validate id
      -- `restart`
      demand (.systemctlStop [.service]) id
      demand (.systemctlStart [.service]) id
    else
      demand (.systemctlStart [.socket, .service]) id

def provision : Run texts Unit := do
  perform .written
  restartDocker

/-! ## The guest -/

/-- A unit that is up has read each of its files at some version. -/
inductive Phase where
  | down
  | up (loaded : File → Nat)

structure State (texts : Texts) where
  version : File → Nat
  /-- No more files are written. -/
  isWritten : Bool
  pending : DockerUnit → Option texts.Digest
  active : DockerUnit → Option texts.Digest
  phase : DockerUnit → Phase

namespace State

def setPhase (s : State texts) (u : DockerUnit) (phase : Phase) : State texts :=
  { s with phase := fun other => if other = u then phase else s.phase other }

def setPending (s : State texts) (u : DockerUnit) (value : Option texts.Digest) : State texts :=
  { s with pending := fun other => if other = u then value else s.pending other }

def setActive (s : State texts) (u : DockerUnit) (value : Option texts.Digest) : State texts :=
  { s with active := fun other => if other = u then value else s.active other }

end State

/-- What goes on besides: until the script runs Lima writes files, and whoever runs reads them
anew. -/
inductive Moves (s : State texts) : State texts → Prop where
  | write (unwritten : s.isWritten = false) (file : File) :
      Moves s { s with version := fun other =>
        if other = file then s.version file + 1 else s.version other }
  | load {u : DockerUnit} {loaded : File → Nat} (running : s.phase u = .up loaded) (file : File) :
      Moves s (s.setPhase u (.up fun other =>
        if other = file then s.version file else loaded other))

/-- An error without an effect, or this state. -/
def Changes (s : State texts) (next : State texts) (reply : Except String Unit) (t : State texts) :
    Prop :=
  ((∃ message, reply = .error message) ∧ t = s) ∨ (reply = .ok () ∧ t = next)

def exec : (request : Request texts) → State texts → Reply texts request → State texts → Prop
  | .written, s, _, t => t = { s with isWritten := true }
  | .sha256sum file, s, (reply : Except String texts.Text), t =>
      t = s ∧ ∀ text, reply = .ok text → texts.text file (s.version file) = some text
  | .isFile file, s, (reply : Bool), t =>
      t = s ∧ (reply = false → texts.text file (s.version file) = none)
  | .removeActive u, s, reply, t => Changes s (s.setActive u none) reply t
  | .moveToPending u value, s, reply, t => Changes s (s.setPending u (some value)) reply t
  | .moveToActive u, s, reply, t =>
      Changes s ((s.setActive u (s.pending u)).setPending u none) reply t
  | .removeBoth u, s, _, t =>
      (∃ left, t = s.setPending u left) ∨ t = (s.setActive u none).setPending u none
  | .exec u, s, reply, t => Changes s (s.setPhase u (.up s.version)) reply t
  | .stopped u, s, _, t => t = s.setPhase u .down
  | .cat u, s, (reply : Option texts.Digest), t =>
      t = s ∧ ∀ value, reply = some value → s.active u = some value
  | .systemctlStop units, s, (reply : Except String Unit), t =>
      t = s ∧ (reply = .ok () → ∀ u ∈ units, s.phase u = .down)
  | .systemctlStart units, s, (reply : Except String Unit), t =>
      t = s ∧ (reply = .ok () → ∀ u ∈ units, s.phase u ≠ .down)
  | _, s, _, t => t = s

abbrev guest (texts : Texts) : System (Requests texts) where
  State := State texts
  exec := exec
  env := Moves
  idle := fun _ _ => False

/-- Who makes requests. -/
inductive Actor where
  | unit (u : DockerUnit)
  | script
  deriving DecidableEq, Repr

def actors (texts : Texts) : Actor → Program (Requests texts) (Except String Unit)
  | .unit u => (lifecycle u).run
  | .script => provision.run

/-- `/run` is empty and nothing has started. -/
structure Booted (s : State texts) : Prop where
  unwritten : s.isWritten = false
  pending : ∀ u, s.pending u = none
  active : ∀ u, s.active u = none
  phase : ∀ u, s.phase u = .down

end Luhmen.Guest.ConfigSignature
