/-
# Manager.Serve -- a parent VM in which every command can be done

`serve` does each command of the manager as well as the parent VM allows, and
`serve_exec` says that this is one of the things the command may do.  With it a run of
the manager is a matter of evaluation (`Program.advance`): that there are runs at all,
and what some of them lead to.

What the model leaves open is in `Answers`: what the probes say, and the ids that may
be in use, in the order they are listed.  Launches are not served, since a PID that is
free depends on what else runs; `launched` is one with a given PID.
-/
import Luhmen.Manager.Actions

set_option autoImplicit false

namespace Luhmen.Manager

open Luhmen.Theory

/-- What the model leaves open. -/
structure Answers where
  probe : Probe → Bool
  ids : List Id
  once : ids.Nodup

namespace World

instance (w : World) (pid startTime : Bytes) : Decidable (w.matchesFirecracker pid startTime) :=
  decidable_of_iff (∃ process ∈ w.processes (value pid), pid = decimal (value pid) ∧
      (startTime = [] ∨ startTime = decimal process.startTime) ∧ process.stage.isVmm = true) <| by
    constructor
    · rintro ⟨process, there, isPid, rest⟩
      exact ⟨value pid, process, isPid, there, rest⟩
    · rintro ⟨n, process, rfl, there, rest⟩
      rw [value_decimal]
      exact ⟨process, there, rfl, rest⟩

instance (w : World) (pid : Pid) (startTime : Bytes) : Decidable (w.matchesStarted pid startTime) :=
  decidable_of_iff (∃ process ∈ w.processes pid,
      (startTime = [] ∨ startTime = decimal process.startTime) ∧
        process.stage.isStarted = true) <| by
    constructor
    · exact fun ⟨process, rest⟩ => ⟨process, rest⟩
    · exact fun ⟨process, rest⟩ => ⟨process, rest⟩

/-- A process that gets `TERM` may go on; `KILL` ends it. -/
def signalled (w : World) (signal : Signal) (pid : Pid) : World :=
  match signal with
  | .term => w
  | .kill => w.setProcess pid none

theorem signalled_spec (w : World) (signal : Signal) (pid : Pid) :
    w.Signalled signal pid (w.signalled signal pid) := by
  cases signal with
  | term => exact .inr ⟨rfl, .inl rfl⟩
  | kill => exact .inl rfl

/-- A staged copy of this shell. -/
def setStaged (w : World) (id : Id) (inode : Option Inode) : World :=
  { w with
    staged := Function.update w.staged id (Function.update (w.staged id) w.vars.self inode) }

def moveState (w : World) (id : Id) : Bool × World :=
  match w.temporary id w.vars.self with
  | some content =>
    if id ∈ w.vms then
      (true, { w with
        state := Function.update w.state id (some content)
        temporary := Function.update w.temporary id
          (Function.update (w.temporary id) w.vars.self none)
        owner := Function.update w.owner id
          (if Manager.stateValue .status content = ascii "running" then w.vars.launch else none) })
    else (false, w)
  | none => (false, w)

def moveDisk (w : World) (id : Id) : Bool × World :=
  match w.staged id w.vars.self with
  | some inode =>
    (true, { w.setStaged id none with disk := Function.update w.disk id (some inode) })
  | none => (false, w)

def signalledRecorded (w : World) (signal : Signal) (pid : Bytes) : World :=
  if pid = decimal (value pid) then (w.signalling (value pid)).signalled signal (value pid) else w

variable (answers : Answers)

def perform : (command : Command) → World → command.Reply × World
  | .shell self, w => ((), { w with vars := { self }, out := [] })
  | .lock, w => (true, w)
  | .probe probe, w => (answers.probe probe, w)
  | .ownCgroup, w => (w.service, w)
  | .cpuCount, w => (decimal w.cpus, w)
  | .memTotal, w => (decimal w.memory, w)
  | .listVms, w => (answers.ids.filter fun id => decide (id ∈ w.vms), w)
  | .isVm id, w => (decide (id ∈ w.vms), w)
  | .hasState id, w => ((w.state id).isSome, w)
  | .stateValue key id, w => (((w.state id).map (Manager.stateValue key)).getD [], w)
  | .mkdirVm id, w =>
    if id ∈ answers.ids ∧ id ∉ w.vms then (true, { w with vms := insert id w.vms }) else (false, w)
  | .writeTemporary id content, w =>
    (true, { w with
      temporary := Function.update w.temporary id
        (Function.update (w.temporary id) w.vars.self (some content)) })
  | .chmodTemporary _, w => (true, w)
  | .renameState id, w => w.moveState id
  | .hasDisk id, w => ((w.disk id).isSome, w)
  | .copyDisk _ id, w =>
    let inode := (w.staged id w.vars.self).getD w.nextInode
    (true, { w.setStaged id (some inode) with
      contents := Function.update w.contents inode []
      nextInode := w.nextInode + 1 })
  | .renameDisk id, w => w.moveDisk id
  | .removeStaged id, w => (true, w.setStaged id none)
  | .removeJail id, w => (true, { w with jail := Function.update w.jail id none })
  | .makeJail id, w =>
    (true, { w with jail := Function.update w.jail id (some ((w.jail id).getD ⟨none⟩)) })
  | .copyKernel _ _, w => (true, w)
  | .linkDisk id, w =>
    if w.jail id = some ⟨none⟩ then
      (true, { w with jail := Function.update w.jail id (some ⟨w.disk id⟩) })
    else (false, w)
  | .permit _ _ _, w => (true, w)
  | .truncateLog _, w => (true, w)
  | .removePipe id, w => (true, { w with pipe := Function.update w.pipe id .absent })
  | .makePipe id, w =>
    if w.pipe id = .absent then
      (true, { w with
        pipe := Function.update w.pipe id (.fifo w.nextInode)
        nextInode := w.nextInode + 1 })
    else (false, w)
  | .spawnLogger _, w => (none, w)
  | .spawnJailer _ _ _ _ _, w => (none, w)
  | .startTime pid, w =>
    (((w.processes pid).map fun process => decimal process.startTime).getD [], w)
  | .processCgroup pid, w => (((w.processes pid).map Process.cgroup).getD [], w)
  | .alive pid, w => ((w.processes pid).isSome, w)
  | .matchesFirecracker pid startTime, w => (decide (w.matchesFirecracker pid startTime), w)
  | .matchesStarted pid startTime, w => (decide (w.matchesStarted pid startTime), w)
  | .signal signal pid, w => ((), w.signalled signal pid)
  | .signalRecorded signal pid, w => ((), w.signalledRecorded signal pid)
  | .cgroupPids _, w => ([], w)
  | .signalCgroup false signal pid, w => ((), w.signalled signal pid)
  | .signalCgroup true signal pid, w => ((), (w.signalling pid).signalled signal pid)
  | .rmdirCgroup _, w => (true, w)
  | .api _ _, w => (true, w)
  | .sleep, w => ((), w)
  | .vars, w => (w.vars, w)
  | .assign change, w => ((), { w with vars := change w.vars })
  | .print text, w => ((), { w with out := w.out ++ text })

def serve (command : Command) (w : World) : command.Reply × World :=
  ((perform answers command w).1, { (perform answers command w).2 with
    matched := matchedBy command (perform answers command w).1 w.matched })

/-- Only listed ids are in use. -/
def Listed (w : World) : Prop :=
  ∀ id ∈ w.vms, id ∈ answers.ids

variable {answers : Answers} {w : World}

theorem attempts_of_ite {test done : Prop} [Decidable test] {after w' : World} {reply : Bool}
    (is : (reply, w') = if test then (true, after) else (false, w))
    (does : test → w' = after → done) : w.Attempts reply w' done := by
  split at is
  case isTrue holds =>
    obtain ⟨rfl, rfl⟩ := Prod.mk.inj is
    exact .inl ⟨rfl, does holds rfl⟩
  case isFalse =>
    obtain ⟨rfl, rfl⟩ := Prod.mk.inj is
    exact .inr ⟨rfl, rfl⟩

theorem moveState_effect (w : World) (id : Id) :
    effect (.renameState id) w (w.moveState id).1 (w.moveState id).2 := by
  unfold moveState
  cases written : w.temporary id w.vars.self with
  | none => exact .inr ⟨rfl, rfl⟩
  | some content => exact attempts_of_ite rfl fun holds is => ⟨holds, content, written, is⟩

theorem moveDisk_effect (w : World) (id : Id) :
    effect (.renameDisk id) w (w.moveDisk id).1 (w.moveDisk id).2 := by
  unfold moveDisk
  cases staged : w.staged id w.vars.self with
  | none => exact .inr ⟨rfl, rfl⟩
  | some inode => exact .inl ⟨rfl, inode, staged, rfl⟩

theorem signalledRecorded_effect (w : World) (signal : Signal) (pid : Bytes) :
    effect (.signalRecorded signal pid) w () (w.signalledRecorded signal pid) := by
  unfold signalledRecorded
  split
  case isTrue isPid => exact .inl ⟨value pid, isPid, signalled_spec _ signal _⟩
  case isFalse notPid =>
    refine .inr ⟨fun n is => notPid ?_, rfl⟩
    rw [is, value_decimal]

theorem perform_effect (listed : w.Listed answers) (command : Command) :
    effect command w (perform answers command w).1 (perform answers command w).2 := by
  cases command with
  | shell | lock | probe | chmodTemporary | copyKernel | permit | truncateLog | rmdirCgroup | api
  | sleep | assign | print => rfl
  | ownCgroup | isVm | hasState | stateValue | hasDisk | startTime | processCgroup | alive | vars =>
    exact ⟨rfl, rfl⟩
  | cpuCount | memTotal => exact ⟨rfl, .inl rfl⟩
  | listVms =>
    refine ⟨rfl, answers.once.filter _, fun id => ?_⟩
    show id ∈ answers.ids.filter _ ↔ _
    rw [List.mem_filter, decide_eq_true_eq]
    exact ⟨And.right, fun member => ⟨listed id member, member⟩⟩
  | mkdirVm id => exact attempts_of_ite rfl fun holds is => ⟨holds.2, is⟩
  | writeTemporary id content => exact ⟨_, rfl, fun _ => rfl⟩
  | renameState id => exact moveState_effect w id
  | copyDisk rootfs id =>
    refine .inl ⟨_, _, ?_, rfl⟩
    cases w.staged id w.vars.self with
    | none => exact .inr ⟨rfl, rfl⟩
    | some inode => exact .inl rfl
  | renameDisk id => exact moveDisk_effect w id
  | removeStaged | makeJail | removePipe => exact .inl ⟨rfl, rfl⟩
  | removeJail id => exact ⟨none, rfl, fun _ => rfl, fun _ is => nomatch is⟩
  | linkDisk id => exact attempts_of_ite rfl fun holds is => ⟨holds, is⟩
  | makePipe id => exact attempts_of_ite rfl fun holds is => ⟨holds, is⟩
  | spawnLogger | spawnJailer => exact .inr ⟨rfl, rfl⟩
  | matchesFirecracker | matchesStarted => exact ⟨rfl, decide_eq_true_iff⟩
  | signal signal pid => exact signalled_spec w signal pid
  | signalCgroup recorded signal pid =>
    cases recorded with
    | false | true => exact signalled_spec _ signal pid
  | signalRecorded signal pid => exact signalledRecorded_effect w signal pid
  | cgroupPids => exact ⟨rfl, fun _ member => nomatch member⟩

/-- Serving a command is a thing the parent VM may do. -/
theorem serve_exec (listed : w.Listed answers) (command : Command) :
    exec command w (serve answers command w).1 (serve answers command w).2 :=
  ⟨_, perform_effect listed command, rfl⟩

theorem signalled_vms (w : World) (signal : Signal) (pid : Pid) :
    (w.signalled signal pid).vms = w.vms := by
  cases signal <;> rfl

/-- No command but `mkdir` makes a directory. -/
theorem perform_vms (command : Command) (other : ∀ id, command ≠ .mkdirVm id) :
    (perform answers command w).2.vms = w.vms := by
  cases command with
  | mkdirVm id => exact absurd rfl (other id)
  | renameState id =>
    show (w.moveState id).2.vms = w.vms
    unfold moveState
    split
    · split <;> rfl
    · rfl
  | renameDisk id =>
    show (w.moveDisk id).2.vms = w.vms
    unfold moveDisk
    split <;> rfl
  | linkDisk id =>
    show (ite _ _ _ : Bool × World).2.vms = w.vms
    split <;> rfl
  | makePipe id =>
    show (ite _ _ _ : Bool × World).2.vms = w.vms
    split <;> rfl
  | signal signal pid => exact signalled_vms w signal pid
  | signalCgroup recorded signal pid =>
    cases recorded with
    | false | true => exact signalled_vms _ signal pid
  | signalRecorded signal pid =>
    show (w.signalledRecorded signal pid).vms = w.vms
    unfold signalledRecorded
    split
    · exact signalled_vms _ signal _
    · rfl
  | shell | lock | probe | ownCgroup | cpuCount | memTotal | listVms | isVm | hasState | stateValue
  | writeTemporary | chmodTemporary | hasDisk | copyDisk | removeStaged | removeJail | makeJail
  | copyKernel | permit | truncateLog | removePipe | spawnLogger | spawnJailer | startTime
  | processCgroup | alive | matchesFirecracker | matchesStarted | cgroupPids | rmdirCgroup | api
  | sleep | vars | assign | print => rfl

theorem serve_listed (listed : w.Listed answers) (command : Command) :
    (serve answers command w).2.Listed answers := by
  show (perform answers command w).2.Listed answers
  by_cases made : ∃ id, command = .mkdirVm id
  · obtain ⟨id, rfl⟩ := made
    show (ite _ _ _ : Bool × World).2.Listed answers
    split
    case isTrue may =>
      intro other member
      obtain rfl | before := Finset.mem_insert.1 member
      · exact may.1
      · exact listed other before
    case isFalse => exact listed
  · intro id member
    rw [perform_vms command fun id is => made ⟨id, is⟩] at member
    exact listed id member

variable {α : Type} {program : Program Commands α}

/-- A stretch of a run in which every command can be done. -/
def after (answers : Answers) (n : Nat) (x : Program Commands α × World) :
    Program Commands α × World :=
  Program.advance (serve answers) n x

theorem leads_after_of {conditions : Conditions} (n : Nat) (listed : w.Listed answers)
    (meets : ∀ command w, conditions.exec command w (serve answers command w).1
      (serve answers command w).2) :
    (parentVm conditions).Leads (program, w) (after answers n (program, w)) ∧
      (after answers n (program, w)).2.Listed answers :=
  @System.Leads.advance_inv Commands (parentVm conditions) α (Listed answers) (serve answers)
    (fun command w listed => ⟨⟨serve_exec listed command, meets command w⟩,
      serve_listed listed command⟩) n (program, w) listed

theorem leads_after (n : Nat) (listed : w.Listed answers) :
    (parentVm unrestricted).Leads (program, w) (after answers n (program, w)) ∧
      (after answers n (program, w)).2.Listed answers :=
  leads_after_of n listed fun _ _ => trivial

/-- A parent VM that has just been set up. -/
def fresh (cpus memory : Nat) : World where
  cpus
  memory
  service := ascii "/system.slice/luhmen/main"
  vms := ∅
  state _ := none
  temporary _ _ := none
  disk _ := none
  staged _ _ := none
  contents _ := []
  nextInode := 0
  jail _ := none
  pipe _ := .absent
  processes _ := none
  used _ _ := False
  launches := 0
  owner _ := none
  vars := {}
  out := []
  matched := []
  astray := False

end World

end Luhmen.Manager
