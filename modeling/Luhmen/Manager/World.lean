/-
# Manager.World -- the parent VM, as the microVM manager sees and changes it

`World` is what the manager's commands read and write: the directories of the
microVMs with their records and disks, the jails, the log pipes and the processes.
`Command` are the commands of the script, each with what it answers, and `exec`
what each of them does.  A command that changes something can fail; what it then
leaves behind is as far as it got.  The tools that only read, `find`, `sed`, `awk` and
`tr`, are taken not to fail, so what they answer is what is there.

`Env` is what happens without the manager: a launched process goes from the forked
shell through the jailer to Firecracker, any process exits, others are started, and
a VMM writes its disk.  Opening the log pipe blocks until both ends are open, and
a writer that finds no pipe makes a plain file.  `reboot` ends all processes and
lets start times begin again; files stay.

Some fields are history.  Every process the manager launches gets a number from
`launches`, and `owner` is the number of the one a microVM's record was written for.
`matched` are the PIDs the last command has told of, and that the script is about to act
on: one that matched, those of a cgroup, or that of a launch.  `astray` holds once `stop`
has signalled a process that is not the one its record was written for, be it the
recorded one or one of the cgroup.
-/
import Mathlib.Data.Finset.Basic
import Mathlib.Logic.Function.Basic
import Luhmen.Manager.Record
import Luhmen.Theory.CrashLogic

set_option autoImplicit false

namespace Luhmen.Manager

open Luhmen.Theory

abbrev Id := Bytes
abbrev Pid := Nat
abbrev Inode := Nat

/-! ## Processes -/

/-- What a process is: a launched one before and in the open of its output, then
the jailer and the VMM; the reader of a log, likewise; and any other, by which of the
manager's two patterns its command line fits. -/
inductive Stage where
  | shell
  | opening (fifo : Inode)
  | jailer
  | firecracker
  | logShell
  | logOpening (fifo : Inode)
  | logReading (fifo : Inode)
  | foreign (vmm started : Bool)
deriving DecidableEq, Repr

/-- `*firecracker*"/run/fc.sock"*`; the command line of a forked shell is still
that of the manager. -/
def Stage.isVmm : Stage → Bool
  | .jailer | .firecracker => true
  | .foreign vmm _ => vmm
  | _ => false

/-- `*firecracker*|*jailer*`. -/
def Stage.isStarted : Stage → Bool
  | .jailer | .firecracker => true
  | .foreign _ started => started
  | _ => false

structure Process where
  startTime : Nat
  stage : Stage
  vm : Id
  launch : Option Nat
  cgroup : Bytes
deriving DecidableEq, Repr

/-- The variables that outlive a failure, as the traps read them.  `launch` is
history: the number of the process that was launched last. -/
structure Vars where
  self : Pid := 0
  id : Id := []
  pid : Option Pid := none
  startTime : Bytes := []
  jail : Option Id := none
  cgroup : Bytes := []
  logger : Option Pid := none
  overlay : Option Id := none
  logPipe : Option Id := none
  launch : Option Nat := none
deriving DecidableEq, Repr

/-- What `$vm/log.pipe` is. -/
inductive Pipe where
  | absent
  | fifo (inode : Inode)
  | file
deriving DecidableEq, Repr

/-- A jail, with its link to a disk. -/
structure Jail where
  disk : Option Inode
deriving DecidableEq, Repr

structure World where
  cpus : Nat
  memory : Nat
  service : Bytes
  vms : Finset Id
  state : Id → Option Bytes
  temporary : Id → Pid → Option Bytes
  disk : Id → Option Inode
  staged : Id → Pid → Option Inode
  contents : Inode → Bytes
  nextInode : Inode
  jail : Id → Option Jail
  pipe : Id → Pipe
  processes : Pid → Option Process
  used : Pid → Nat → Prop
  launches : Nat
  owner : Id → Option Nat
  vars : Vars
  out : Bytes
  matched : List Pid
  astray : Prop

/-! ## Commands -/

inductive Signal where
  | term
  | kill
deriving DecidableEq, Repr

/-- The questions whose answers the model leaves open. -/
inductive Probe where
  | lockFile
  | kvm
  | tun
  | cgroupV2
  | firecracker
  | jailer
  | cgroupParent
  | controller (name : Bytes)
  | image (path : Bytes)
  | log
  | logUsable
  | limits
  | socket
  | identity (uid : Nat)
  | cgroupProcs (path : Bytes)
  | cgroupDir (path : Bytes)
deriving DecidableEq, Repr

inductive Command where
  | shell (self : Pid)
  | lock
  | probe (probe : Probe)
  | ownCgroup
  | cpuCount
  | memTotal
  | listVms
  | isVm (id : Id)
  | hasState (id : Id)
  | stateValue (key : Key) (id : Id)
  | mkdirVm (id : Id)
  | writeTemporary (id : Id) (content : Bytes)
  | chmodTemporary (id : Id)
  | renameState (id : Id)
  | hasDisk (id : Id)
  | copyDisk (rootfs : Bytes) (id : Id)
  | renameDisk (id : Id)
  | removeStaged (id : Id)
  | removeJail (id : Id)
  | makeJail (id : Id)
  | copyKernel (kernel : Bytes) (id : Id)
  | linkDisk (id : Id)
  | permit (id : Id) (uid gid : Bytes)
  | truncateLog (id : Id)
  | removePipe (id : Id)
  | makePipe (id : Id)
  | spawnLogger (id : Id)
  | spawnJailer (id : Id) (uid gid vcpus memoryMib : Bytes)
  | startTime (pid : Pid)
  | processCgroup (pid : Pid)
  | alive (pid : Pid)
  | matchesFirecracker (pid startTime : Bytes)
  | matchesStarted (pid : Pid) (startTime : Bytes)
  | signal (signal : Signal) (pid : Pid)
  | signalRecorded (signal : Signal) (pid : Bytes)
  | cgroupPids (path : Bytes)
  /-- `recorded` where `stop` sends it, for the cgroup of its record. -/
  | signalCgroup (recorded : Bool) (signal : Signal) (pid : Pid)
  | rmdirCgroup (path : Bytes)
  | api (path : String) (body : Bytes)
  | sleep
  | vars
  | assign (change : Vars → Vars)
  | print (text : Bytes)

abbrev Command.Reply : Command → Type
  | .lock | .probe _ | .isVm _ | .hasState _ | .mkdirVm _ | .writeTemporary _ _
  | .chmodTemporary _ | .renameState _ | .hasDisk _ | .copyDisk _ _ | .renameDisk _
  | .removeStaged _ | .removeJail _ | .makeJail _ | .copyKernel _ _ | .linkDisk _
  | .permit _ _ _ | .truncateLog _ | .removePipe _ | .makePipe _ | .alive _
  | .matchesFirecracker _ _ | .matchesStarted _ _ | .rmdirCgroup _ | .api _ _ => Bool
  | .ownCgroup | .cpuCount | .memTotal | .stateValue _ _ | .startTime _ | .processCgroup _ => Bytes
  | .listVms => List Id
  | .spawnLogger _ | .spawnJailer _ _ _ _ _ => Option Pid
  | .cgroupPids _ => List Pid
  | .shell _ | .signal _ _ | .signalRecorded _ _ | .signalCgroup _ _ _ | .sleep | .assign _ | .print _ => Unit
  | .vars => Vars

/-- The commands of the manager. -/
def Commands : Interface where
  Request := Command
  Reply := Command.Reply

/-! ## What commands do -/

namespace World

def setProcess (w : World) (pid : Pid) (process : Option Process) : World :=
  { w with processes := Function.update w.processes pid process }

/-- A new process, with a PID and start time that no other had since the boot. -/
def Spawns (w : World) (pid : Pid) (process : Process) (w' : World) : Prop :=
  w.processes pid = none ∧ ¬ w.used pid process.startTime ∧
    w' = { w.setProcess pid (some process) with
      used := fun p t => w.used p t ∨ (p = pid ∧ t = process.startTime) }

/-- `matches_firecracker`.  It reads `/proc` three times; a process that exits in
between is not there for the last of them. -/
def matchesFirecracker (w : World) (pid startTime : Bytes) : Prop :=
  ∃ n process, pid = decimal n ∧ w.processes n = some process ∧
    (startTime = [] ∨ startTime = decimal process.startTime) ∧ process.stage.isVmm = true

/-- `matches_started_process`. -/
def matchesStarted (w : World) (pid : Pid) (startTime : Bytes) : Prop :=
  ∃ process, w.processes pid = some process ∧
    (startTime = [] ∨ startTime = decimal process.startTime) ∧ process.stage.isStarted = true

/-- A process gets a signal: `KILL` ends it, `TERM` may. -/
def Signalled (w : World) (signal : Signal) (pid : Pid) (w' : World) : Prop :=
  w' = w.setProcess pid none ∨ (w' = w ∧ (signal = .term ∨ w.processes pid = none))

/-- The directories of the microVMs, in some order. -/
def Lists (w : World) (ids : List Id) : Prop :=
  ids.Nodup ∧ ∀ id, id ∈ ids ↔ id ∈ w.vms

/-- The one that the record of this microVM was written for. -/
def Own (w : World) (id : Id) (process : Process) : Prop :=
  ∃ number, process.launch = some number ∧ w.owner id = some number

/-- A signal of `stop` to a PID, which another process may have. -/
def signalling (w : World) (pid : Pid) : World :=
  { w with astray := w.astray ∨ ∃ process, w.processes pid = some process ∧
      ¬ w.Own w.vars.id process }

/-- Processes of the cgroup with this directory. -/
def InCgroup (w : World) (path : Bytes) (pids : List Pid) : Prop :=
  ∀ pid ∈ pids, ∃ process, w.processes pid = some process ∧
    path = ascii "/sys/fs/cgroup" ++ process.cgroup

/-- A command that can fail, and leaves everything as it is then. -/
def Attempts (w : World) (reply : Bool) (w' : World) (done : Prop) : Prop :=
  (reply = true ∧ done) ∨ (reply = false ∧ w' = w)

def effect : (command : Command) → World → command.Reply → World → Prop
  | .shell self, w, _, w' => w' = { w with vars := { self }, out := [] }
  | .lock, w, _, w' => w' = w
  | .probe _, w, _, w' => w' = w
  | .ownCgroup, w, reply, w' => w' = w ∧ reply = w.service
  | .cpuCount, w, reply, w' => w' = w ∧ (reply = decimal w.cpus ∨ reply = ([] : Bytes))
  | .memTotal, w, reply, w' => w' = w ∧ (reply = decimal w.memory ∨ reply = ([] : Bytes))
  | .listVms, w, reply, w' => w' = w ∧ w.Lists reply
  | .isVm id, w, reply, w' => w' = w ∧ reply = decide (id ∈ w.vms)
  | .hasState id, w, reply, w' => w' = w ∧ reply = (w.state id).isSome
  | .stateValue key id, w, reply, w' =>
    w' = w ∧ reply = ((w.state id).map (Manager.stateValue key)).getD []
  | .mkdirVm id, w, reply, w' =>
    w.Attempts reply w' (id ∉ w.vms ∧ w' = { w with vms := insert id w.vms })
  | .writeTemporary id content, w, reply, w' =>
    ∃ written, w' = { w with
      temporary := Function.update w.temporary id
        (Function.update (w.temporary id) w.vars.self written) } ∧
      (reply = true → written = some content)
  | .chmodTemporary _, w, _, w' => w' = w
  | .renameState id, w, reply, w' =>
    w.Attempts reply w' (id ∈ w.vms ∧ ∃ content, w.temporary id w.vars.self = some content ∧
      w' = { w with
        state := Function.update w.state id (some content)
        temporary := Function.update w.temporary id
          (Function.update (w.temporary id) w.vars.self none)
        owner := Function.update w.owner id
          (if Manager.stateValue .status content = ascii "running" then w.vars.launch else none) })
  | .hasDisk id, w, reply, w' => w' = w ∧ reply = (w.disk id).isSome
  | .copyDisk _ id, w, reply, w' =>
    (∃ inode content, (w.staged id w.vars.self = some inode ∨
        (w.staged id w.vars.self = none ∧ inode = w.nextInode)) ∧
      w' = { w with
        staged := Function.update w.staged id
          (Function.update (w.staged id) w.vars.self (some inode))
        contents := Function.update w.contents inode content
        nextInode := w.nextInode + 1 }) ∨
    (reply = false ∧ w' = w)
  | .renameDisk id, w, reply, w' =>
    w.Attempts reply w' (∃ inode, w.staged id w.vars.self = some inode ∧
      w' = { w with
        disk := Function.update w.disk id (some inode)
        staged := Function.update w.staged id
          (Function.update (w.staged id) w.vars.self none) })
  | .removeStaged id, w, reply, w' =>
    w.Attempts reply w' (w' = { w with
      staged := Function.update w.staged id
        (Function.update (w.staged id) w.vars.self none) })
  | .removeJail id, w, reply, w' =>
    ∃ left, w' = { w with jail := Function.update w.jail id left } ∧
      (reply = true → left = none) ∧
      ∀ jail, left = some jail → ∃ whole, w.jail id = some whole ∧
        (jail.disk = whole.disk ∨ jail.disk = none)
  | .makeJail id, w, reply, w' =>
    w.Attempts reply w' (w' = { w with
      jail := Function.update w.jail id (some ((w.jail id).getD ⟨none⟩)) })
  | .copyKernel _ _, w, _, w' => w' = w
  | .linkDisk id, w, reply, w' =>
    w.Attempts reply w' (w.jail id = some ⟨none⟩ ∧
      w' = { w with jail := Function.update w.jail id (some ⟨w.disk id⟩) })
  | .permit _ _ _, w, _, w' => w' = w
  | .truncateLog _, w, _, w' => w' = w
  | .removePipe id, w, reply, w' =>
    w.Attempts reply w' (w' = { w with pipe := Function.update w.pipe id .absent })
  | .makePipe id, w, reply, w' =>
    w.Attempts reply w' (w.pipe id = .absent ∧ w' = { w with
      pipe := Function.update w.pipe id (.fifo w.nextInode)
      nextInode := w.nextInode + 1 })
  | .spawnLogger id, w, reply, w' =>
    (∃ pid startTime, reply = some pid ∧
      w.Spawns pid ⟨startTime, .logShell, id, none, w.service⟩ w') ∨ (reply = none ∧ w' = w)
  | .spawnJailer id _ _ _ _, w, reply, w' =>
    (∃ pid startTime, reply = some pid ∧
      { w with
        launches := w.launches + 1
        vars := { w.vars with launch := some w.launches } }.Spawns
        pid ⟨startTime, .shell, id, some w.launches, w.service⟩ w') ∨ (reply = none ∧ w' = w)
  | .startTime pid, w, reply, w' =>
    w' = w ∧ reply = ((w.processes pid).map fun process => decimal process.startTime).getD []
  | .processCgroup pid, w, reply, w' =>
    w' = w ∧ reply = ((w.processes pid).map Process.cgroup).getD []
  | .alive pid, w, reply, w' => w' = w ∧ reply = (w.processes pid).isSome
  | .matchesFirecracker pid startTime, w, reply, w' =>
    w' = w ∧ (reply = true ↔ w.matchesFirecracker pid startTime)
  | .matchesStarted pid startTime, w, reply, w' =>
    w' = w ∧ (reply = true ↔ w.matchesStarted pid startTime)
  | .signal signal pid, w, _, w' => w.Signalled signal pid w'
  | .signalRecorded signal pid, w, _, w' =>
    (∃ n, pid = decimal n ∧ (w.signalling n).Signalled signal n w') ∨
      ((∀ n, pid ≠ decimal n) ∧ w' = w)
  | .cgroupPids path, w, reply, w' =>
    w' = w ∧ w.InCgroup path reply
  | .signalCgroup false signal pid, w, _, w' => w.Signalled signal pid w'
  | .signalCgroup true signal pid, w, _, w' => (w.signalling pid).Signalled signal pid w'
  | .rmdirCgroup _, w, _, w' => w' = w
  | .api _ _, w, _, w' => w' = w
  | .sleep, w, _, w' => w' = w
  | .vars, w, reply, w' => w' = w ∧ reply = w.vars
  | .assign change, w, _, w' => w' = { w with vars := change w.vars }
  | .print text, w, _, w' => w' = { w with out := w.out ++ text }

def matchedBy : (command : Command) → command.Reply → List Pid → List Pid
  | .matchesFirecracker pid _, true, _ => [value pid]
  | .spawnJailer _ _ _ _ _, some pid, _ => [pid]
  | .cgroupPids _, pids, _ => pids
  | .signalCgroup _ _ _, _, before => before
  | _, _, _ => []

def exec (command : Command) (w : World) (reply : command.Reply) (w' : World) : Prop :=
  ∃ after, effect command w reply after ∧
    w' = { after with matched := matchedBy command reply w.matched }

/-! ## What happens besides -/

/-- The process at a PID goes on to another stage. -/
def Advances (w : World) (pid : Pid) (before after : Stage) (w' : World) : Prop :=
  ∃ process, w.processes pid = some process ∧ process.stage = before ∧
    w' = w.setProcess pid (some { process with stage := after })

inductive Env : World → World → Prop where
  | exit {w : World} (pid : Pid) : Env w (w.setProcess pid none)
  | foreign {w w' : World} {pid startTime : Nat} {vmm started : Bool} {cgroup : Bytes}
      (spawns : w.Spawns pid ⟨startTime, .foreign vmm started, [], none, cgroup⟩ w') : Env w w'
  /-- The shell of a launch comes to the open of its output: a pipe blocks it. -/
  | opens {w w' : World} {pid : Pid} {process : Process} {fifo : Inode}
      (there : w.processes pid = some process) (pipe : w.pipe process.vm = .fifo fifo)
      (advances : w.Advances pid .shell (.opening fifo) w') : Env w w'
  /-- Where there is no pipe the open makes a file. -/
  | creates {w w' : World} {pid : Pid} {process : Process}
      (there : w.processes pid = some process) (noPipe : ∀ fifo, w.pipe process.vm ≠ .fifo fifo)
      (advances : w.Advances pid .shell .jailer w') :
      Env w { w' with pipe := Function.update w'.pipe process.vm .file }
  | logOpens {w w' : World} {pid : Pid} {process : Process} {fifo : Inode}
      (there : w.processes pid = some process) (pipe : w.pipe process.vm = .fifo fifo)
      (advances : w.Advances pid .logShell (.logOpening fifo) w') : Env w w'
  /-- A writer and a reader that wait for one pipe let each other in. -/
  | meet {w between w' : World} {writer reader : Pid} {fifo : Inode}
      (reads : w.Advances reader (.logOpening fifo) (.logReading fifo) between)
      (writes : between.Advances writer (.opening fifo) .jailer w') : Env w w'
  | execs {w w' : World} {pid : Pid} (advances : w.Advances pid .jailer .firecracker w') : Env w w'
  /-- The jailer moves itself into a cgroup. -/
  | moves {w : World} {pid : Pid} {process : Process} (cgroup : Bytes)
      (there : w.processes pid = some process) (jailer : process.stage = .jailer) :
      Env w (w.setProcess pid (some { process with cgroup }))
  /-- A VMM writes the disk of its microVM. -/
  | writes {w : World} {pid : Pid} {process : Process} {inode : Inode} (content : Bytes)
      (there : w.processes pid = some process) (vmm : process.stage = .firecracker)
      (disk : w.disk process.vm = some inode) :
      Env w { w with contents := Function.update w.contents inode content }

/-- All processes end, and PIDs and start times begin again. -/
inductive Reboot : World → World → Prop where
  | reboot {w : World} : Reboot w { w with processes := fun _ => none, used := fun _ _ => False }

end World

/-- What a run may be restricted to: what its commands answer and lead to, and what
happens besides. -/
structure Conditions where
  exec : (command : Command) → World → command.Reply → World → Prop
  env : World → World → Prop

/-- No restriction. -/
def unrestricted : Conditions := ⟨fun _ _ _ _ => True, fun _ _ => True⟩

/-- The manager in its parent VM. -/
def parentVm (conditions : Conditions) : System Commands where
  State := World
  exec command w reply w' := World.exec command w reply w' ∧ conditions.exec command w reply w'
  env w w' := World.Env w w' ∧ conditions.env w w'
  idle := World.Reboot

end Luhmen.Manager
