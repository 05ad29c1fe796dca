/-
# Manager.Refinement -- the commands of the manager, as steps of its store

`World.store` reads a parent VM as the store of `Manager.Store`: each file of a
record as the record it holds.  `World.Good` says that the files are such texts, that
the store is sound, and that no staged copy is the disk of a microVM.

What happens without the manager, and every harmless command, goes from a good world
to a good one by steps of the store (`env_good`, `harmless_good`).  The three commands
left, which put a record or a disk in place or signal a recorded process, are the
concern of the script (`Manager.Walk`).

`Rough` and `Calm` say what such a move leaves as it is.  What the script knows at a
point is closed under them, and so outlives what happens there.
-/
import Luhmen.Theory.Contract
import Luhmen.Manager.Script
import Luhmen.Manager.Store

set_option autoImplicit false

namespace Luhmen.Manager

open Luhmen.Theory

/-! ## The store of a world -/

def World.store (w : World) : Store where
  cpus := w.cpus
  memory := w.memory
  vms := w.vms
  record id := (w.state id).map Record.read
  disk := w.disk
  processes := w.processes
  launches := w.launches
  owner := w.owner

/-- A launched process before and after it has opened its output. -/
def Process.Launched (process : Process) (service : Bytes) : Prop :=
  match process.stage with
  | .shell | .opening _ => process.cgroup = service
  | .jailer | .firecracker => True
  | .logShell | .logOpening _ | .logReading _ | .foreign _ _ => False

/-- No new process could be taken for a recorded one, for one that the script has just
been told of, or for the one a start waits for. -/
def World.Unconfused (w w' : World) : Prop :=
  ∀ pid process, w.processes pid = none → w'.processes pid = some process →
    w.store.Unrecorded pid process.startTime ∧ pid ∉ w.matched ∧ w.vars.pid ≠ some pid

structure World.Good (rules : Rules) (w : World) : Prop where
  texts : ∀ id content, w.state id = some content → content = (Record.read content).text
  sound : Store.Sound rules w.store
  staged : ∀ id pid inode, w.staged id pid = some inode →
    inode < w.nextInode ∧ ∀ other, w.disk other ≠ some inode
  stagedOnce : ∀ a b p q inode, w.staged a p = some inode → w.staged b q = some inode →
    a = b ∧ p = q
  disks : ∀ id inode, w.disk id = some inode → inode < w.nextInode
  launched : ∀ pid process number, w.processes pid = some process →
    process.launch = some number → process.Launched w.service
  found : rules.careful → ¬ w.astray

namespace World

variable {rules : Rules} {w t : World}

theorem store_record {id : Id} {record : Record} (there : w.store.record id = some record) :
    ∃ content, w.state id = some content ∧ Record.read content = record :=
  Option.map_eq_some_iff.1 there

theorem store_record_of_state {id : Id} {content : Bytes} (there : w.state id = some content) :
    w.store.record id = some (Record.read content) :=
  congrArg (Option.map Record.read) there

/-- What a record's file yields. -/
theorem Good.stateValue (good : w.Good rules) {id : Id} {record : Record}
    (there : w.store.record id = some record) (key : Key) :
    ((w.state id).map (Manager.stateValue key)).getD [] = record.value key := by
  obtain ⟨content, holds, rfl⟩ := store_record there
  have text := good.texts id content holds
  rw [holds, Option.map_some, Option.getD_some]
  calc Manager.stateValue key content
      = Manager.stateValue key (Record.read content).text := congrArg _ text
    _ = (Record.read content).value key := stateValue_text (good.sound.valid id _ there).clean key

/-! ## What moves leave as it is -/

/-- A process of a later world was there before, or is new. -/
inductive Grown (w : World) (pid : Pid) (process : Process) : Prop where
  | before {older : Process} (there : w.processes pid = some older)
      (startTime : process.startTime = older.startTime) (launch : process.launch = older.launch)
      (vmm : older.stage.isVmm = true → process.stage.isVmm = true)
      (launched : older.Launched w.service → process.Launched w.service)
      (vm : process.vm = older.vm)
  | new (free : w.processes pid = none)
      (launch : ∀ number, process.launch = some number →
        w.launches ≤ number ∧ process.Launched w.service)

theorem Grown.same {pid : Pid} {process : Process} (there : w.processes pid = some process) :
    Grown w pid process :=
  .before there rfl rfl id id rfl

structure Rough (rules : Rules) (w t : World) : Prop where
  state : t.state = w.state
  vms : t.vms = w.vms
  owner : t.owner = w.owner
  cpus : t.cpus = w.cpus
  memory : t.memory = w.memory
  service : t.service = w.service
  launches : w.launches ≤ t.launches
  processes : ∀ pid process, t.processes pid = some process → Grown w pid process
  unconfused : rules.careful → w.Unconfused t

structure Calm (rules : Rules) (w t : World) : Prop extends Rough rules w t where
  disk : t.disk = w.disk
  self : t.vars.self = w.vars.self
  id : t.vars.id = w.vars.id
  pid : t.vars.pid = w.vars.pid
  launch : t.vars.launch = w.vars.launch

/-- What rough moves cannot falsify. -/
def Rougher (rules : Rules) (P : World → Prop) : Prop :=
  ∀ w t, w.Good rules → Rough rules w t → P w → P t

/-- What calm moves cannot falsify. -/
def Calmer (rules : Rules) (P : World → Prop) : Prop :=
  ∀ w t, w.Good rules → Calm rules w t → P w → P t

theorem Rougher.calmer {P : World → Prop} (rougher : Rougher rules P) : Calmer rules P :=
  fun w t good calm => rougher w t good calm.toRough

theorem Rougher.and {P Q : World → Prop} (first : Rougher rules P) (second : Rougher rules Q) :
    Rougher rules fun w => P w ∧ Q w :=
  fun w t good rough ⟨p, q⟩ => ⟨first w t good rough p, second w t good rough q⟩

theorem Calmer.and {P Q : World → Prop} (first : Calmer rules P) (second : Calmer rules Q) :
    Calmer rules fun w => P w ∧ Q w :=
  fun w t good calm ⟨p, q⟩ => ⟨first w t good calm p, second w t good calm q⟩

theorem Rough.record (rough : Rough rules w t) (id : Id) :
    t.store.record id = w.store.record id :=
  congrArg (fun state : Id → Option Bytes => (state id).map Record.read) rough.state

/-- Moves that change neither a record nor its owner keep what lives from being more. -/
theorem Rough.live (good : w.Good rules) (rough : Rough rules w t) {id : Id}
    (live : t.store.Live id) : w.store.Live id ∧ t.store.record id = w.store.record id := by
  obtain ⟨record, vmm, process, number, ⟨there, status⟩, running, launch, owner⟩ := live
  have same : t.store.record id = w.store.record id := rough.record id
  have sameOwner : t.store.owner id = w.store.owner id := congrFun rough.owner id
  refine ⟨?_, same⟩
  rw [same] at there
  rw [sameOwner] at owner
  cases rough.processes vmm.pid process running with
  | before older startTime sameLaunch vmm' =>
    exact ⟨record, vmm, _, number, ⟨there, status⟩, older, sameLaunch ▸ launch, owner⟩
  | new free fresh =>
    exact absurd (good.sound.owned id number owner) (Nat.not_lt.2 (fresh number launch).1)

/-! ## What happens without the manager -/

theorem setProcess_self (pid : Pid) (process : Option Process) :
    (w.setProcess pid process).processes pid = process :=
  Function.update_self ..

theorem setProcess_of_ne {pid other : Pid} (process : Option Process) (different : other ≠ pid) :
    (w.setProcess pid process).processes other = w.processes other :=
  Function.update_of_ne different ..

theorem grown_setProcess {pid other : Pid} {process : Process} {after : Option Process}
    (set : ∀ process, after = some process → Grown w pid process)
    (there : (w.setProcess pid after).processes other = some process) : Grown w other process := by
  by_cases same : other = pid
  · subst same
    exact set process ((setProcess_self other after).symm.trans there)
  · exact .same ((setProcess_of_ne after same).symm.trans there)

/-- A stage the process at a PID goes on to. -/
theorem Advances.grown {pid other : Pid} {before after : Stage} {process : Process}
    (advances : w.Advances pid before after t)
    (vmm : before.isVmm = true → after.isVmm = true)
    (launched : ∀ process : Process, process.stage = before → process.Launched w.service →
      { process with stage := after }.Launched w.service)
    (there : t.processes other = some process) : Grown w other process := by
  obtain ⟨older, was, stage, rfl⟩ := advances
  refine grown_setProcess (fun process is => ?_) there
  cases is
  exact .before was rfl rfl (fun isVmm => vmm (stage ▸ isVmm)) (launched older stage) rfl

theorem Advances.step {pid : Pid} {before after : Stage} (advances : w.Advances pid before after t)
    (vmm : before.isVmm = true → after.isVmm = true) : Store.Step rules w.store t.store := by
  obtain ⟨older, was, stage, rfl⟩ := advances
  exact .goesOn (s := w.store) was rfl rfl fun isVmm => vmm (stage ▸ isVmm)

/-- Only processes, pipes and the insides of disks are others. -/
def Untouched (w t : World) : Prop :=
  ∃ processes used pipe contents, t = { w with processes, used, pipe, contents }

theorem untouched_setProcess {pid : Pid} {process : Option Process} :
    Untouched w (w.setProcess pid process) :=
  ⟨_, _, _, _, rfl⟩

theorem Untouched.trans {u : World} (first : Untouched w t) (second : Untouched t u) :
    Untouched w u := by
  obtain ⟨_, _, _, _, rfl⟩ := first
  obtain ⟨_, _, _, _, rfl⟩ := second
  exact ⟨_, _, _, _, rfl⟩

theorem Advances.untouched {pid : Pid} {before after : Stage}
    (advances : w.Advances pid before after t) : Untouched w t := by
  obtain ⟨older, was, stage, rfl⟩ := advances
  exact untouched_setProcess

theorem Spawns.untouched {pid : Pid} {process : Process} (spawns : w.Spawns pid process t) :
    Untouched w t := by
  obtain ⟨free, unused, rfl⟩ := spawns
  exact ⟨_, _, _, _, rfl⟩

theorem Env.untouched (env : Env w t) : Untouched w t := by
  cases env with
  | exit pid => exact untouched_setProcess
  | foreign spawns => exact spawns.untouched
  | opens there pipe advances => exact advances.untouched
  | creates there noPipe advances =>
    obtain ⟨_, _, _, _, rfl⟩ := advances.untouched
    exact ⟨_, _, _, _, rfl⟩
  | logOpens there pipe advances => exact advances.untouched
  | meet reads writes => exact reads.untouched.trans writes.untouched
  | execs advances => exact advances.untouched
  | moves cgroup there jailer => exact untouched_setProcess
  | writes content there vmm disk => exact ⟨_, _, _, _, rfl⟩

theorem Spawns.grown {pid other : Pid} {process new : Process} (spawns : w.Spawns pid new t)
    (launch : ∀ number, new.launch = some number → w.launches ≤ number ∧ new.Launched w.service)
    (there : t.processes other = some process) : Grown w other process := by
  obtain ⟨free, unused, rfl⟩ := spawns
  refine grown_setProcess (fun process is => ?_) there
  cases is
  exact .new free launch

/-- A process goes on to a stage, and then something happens. -/
theorem Advances.then_grown {pid other : Pid} {before after : Stage} {process : Process}
    (advances : w.Advances pid before after t)
    (vmm : before.isVmm = true → after.isVmm = true)
    (launched : ∀ process : Process, process.stage = before → process.Launched w.service →
      { process with stage := after }.Launched w.service)
    (next : Grown t other process) : Grown w other process := by
  have untouched := advances.untouched
  cases next with
  | before there startTime launch vmm' launched' vm =>
    have service : t.service = w.service := by
      obtain ⟨_, _, _, _, rfl⟩ := untouched
      rfl
    rw [service] at launched'
    cases advances.grown vmm launched there with
    | before there startTime' launch' vmm'' launched'' vm' =>
      exact .before there (startTime.trans startTime') (launch.trans launch') (vmm' ∘ vmm'')
        (launched' ∘ launched'') (vm.trans vm')
    | new free fresh => exact .new free fun number is =>
        have ⟨new, is'⟩ := fresh number (launch ▸ is)
        ⟨new, launched' is'⟩
  | new free fresh =>
    obtain ⟨older, was, stage, rfl⟩ := advances
    refine .new ?_ fresh
    by_cases same : other = pid
    · subst same
      rw [setProcess_self] at free
      cases free
    · exact (setProcess_of_ne _ same).symm.trans free

theorem Env.grown (env : Env w t) {pid : Pid} {process : Process}
    (there : t.processes pid = some process) : Grown w pid process := by
  cases env with
  | exit pid => exact grown_setProcess (fun _ is => by cases is) there
  | foreign spawns => exact spawns.grown (fun _ is => nomatch is) there
  | opens older pipe advances =>
    refine advances.grown (fun is => nomatch is) (fun process stage launched => ?_) there
    simpa [Process.Launched, stage] using launched
  | creates older noPipe advances =>
    exact advances.grown (fun is => nomatch is) (fun _ _ _ => trivial) there
  | logOpens older pipe advances =>
    refine advances.grown (fun is => nomatch is) (fun process stage launched => ?_) there
    simp [Process.Launched, stage] at launched
  | meet reads writes =>
    refine reads.then_grown (fun is => nomatch is) (fun process stage launched => ?_)
      (writes.grown (fun is => nomatch is) (fun _ _ _ => trivial) there)
    simp [Process.Launched, stage] at launched
  | execs advances => exact advances.grown (fun _ => rfl) (fun _ _ _ => trivial) there
  | moves cgroup older jailer =>
    refine grown_setProcess (fun process is => ?_) there
    cases is
    refine .before older rfl rfl id (fun _ => ?_) rfl
    simp [Process.Launched, jailer]
  | writes content older vmm disk => exact .same there

theorem Spawns.step {pid : Pid} {process : Process} (spawns : w.Spawns pid process t)
    (launch : process.launch = none)
    (unconfused : rules.careful → w.Unconfused t) : Store.Step rules w.store t.store := by
  obtain ⟨free, unused, rfl⟩ := spawns
  exact .spawn (s := w.store) launch fun careful =>
    (unconfused careful pid process free (setProcess_self pid _)).1

theorem Env.steps (env : Env w t) (unconfused : rules.careful → w.Unconfused t) :
    Store.Steps rules w.store t.store := by
  cases env with
  | exit pid => exact .single (.exit (s := w.store) pid)
  | foreign spawns => exact .single (spawns.step rfl unconfused)
  | opens older pipe advances => exact .single (advances.step fun is => nomatch is)
  | creates older noPipe advances => exact .single (advances.step fun is => nomatch is)
  | logOpens older pipe advances => exact .single (advances.step fun is => nomatch is)
  | meet reads writes =>
    exact .tail (.single (reads.step fun is => nomatch is)) (writes.step fun is => nomatch is)
  | execs advances => exact .single (advances.step fun _ => rfl)
  | moves cgroup older jailer => exact .single (.goesOn (s := w.store) older rfl rfl id)
  | writes content older vmm disk => exact .refl

/-- Where only processes, pipes and the insides of disks are others, a world stays good. -/
theorem Untouched.good (untouched : Untouched w t) (good : w.Good rules)
    (steps : Store.Steps rules w.store t.store)
    (grown : ∀ pid process, t.processes pid = some process → Grown w pid process) :
    t.Good rules := by
  obtain ⟨processes, used, pipe, contents, rfl⟩ := untouched
  refine ⟨good.texts, good.sound.steps steps, good.staged, good.stagedOnce, good.disks, ?_,
    good.found⟩
  intro pid process number there launch
  cases grown pid process there with
  | before older startTime sameLaunch vmm launched =>
    exact launched (good.launched pid _ number older (sameLaunch ▸ launch))
  | new free fresh => exact (fresh number launch).2

theorem Untouched.calm (untouched : Untouched w t)
    (grown : ∀ pid process, t.processes pid = some process → Grown w pid process)
    (unconfused : rules.careful → w.Unconfused t) : Calm rules w t := by
  obtain ⟨processes, used, pipe, contents, rfl⟩ := untouched
  exact ⟨⟨rfl, rfl, rfl, rfl, rfl, rfl, le_rfl, grown, unconfused⟩, rfl, rfl, rfl, rfl, rfl⟩

/-- **What happens without the manager** goes by steps of the store. -/
theorem env_good (good : w.Good rules) (env : Env w t)
    (unconfused : rules.careful → w.Unconfused t) :
    t.Good rules ∧ Store.Steps rules w.store t.store ∧ Calm rules w t :=
  have steps := env.steps unconfused
  have grown : ∀ pid process, t.processes pid = some process → Grown w pid process :=
    fun _ _ there => env.grown there
  ⟨env.untouched.good good steps grown, steps, env.untouched.calm grown unconfused⟩

theorem reboot_good (good : w.Good rules) (rebooted : Reboot w t) :
    t.Good rules ∧ Store.Steps rules w.store t.store := by
  cases rebooted
  have steps : Store.Steps rules w.store
      { w with processes := fun _ => none, used := fun _ _ => False }.store :=
    .single (.reboot (s := w.store))
  exact ⟨⟨good.texts, good.sound.steps steps, good.staged, good.stagedOnce, good.disks,
    fun _ _ _ there => (nomatch there), good.found⟩, steps⟩

/-! ## Quiet commands -/

end World

/-- Commands that only look. -/
def Command.Reads : Command → Prop
  | .lock | .probe _ | .ownCgroup | .cpuCount | .memTotal | .listVms | .isVm _ | .hasState _
  | .stateValue _ _ | .chmodTemporary _ | .hasDisk _ | .copyKernel _ _ | .permit _ _ _
  | .truncateLog _ | .startTime _ | .processCgroup _ | .alive _ | .matchesFirecracker _ _
  | .matchesStarted _ _ | .cgroupPids _ | .rmdirCgroup _ | .api _ _ | .sleep | .vars => True
  | _ => False

/-- Commands that change neither a record, a disk or the directories nor the
variables, and launch nothing. -/
def Command.Quiet : Command → Prop
  | .shell _ | .mkdirVm _ | .renameState _ | .renameDisk _ | .spawnJailer _ _ _ _ _
  | .signalRecorded _ _ | .signalCgroup true _ _ | .assign _ => False
  | _ => True

/-- Commands that put no record and no disk of a microVM in place. -/
def Command.Spares (id : Id) : Command → Prop
  | .renameState other | .renameDisk other => other ≠ id
  | _ => True

theorem Command.Quiet.spares {command : Command} (quiet : command.Quiet) (id : Id) :
    command.Spares id := by
  cases command with
  | renameState | renameDisk => exact quiet.elim
  | _ => trivial

namespace World

variable {rules : Rules} {w t : World}

theorem effect_reads {command : Command} {reply : command.Reply} (reads : command.Reads)
    (performed : effect command w reply t) : t = w := by
  cases command with
  | lock | probe | chmodTemporary | copyKernel | permit | truncateLog | rmdirCgroup | api | sleep =>
    exact performed
  | ownCgroup | cpuCount | memTotal | listVms | isVm | hasState | stateValue | hasDisk | startTime
  | processCgroup | alive | matchesFirecracker | matchesStarted | cgroupPids | vars =>
    exact performed.1
  | shell | mkdirVm | writeTemporary | renameState | copyDisk | renameDisk | removeStaged
  | removeJail | makeJail | linkDisk | removePipe | makePipe | spawnLogger | spawnJailer | signal
  | signalRecorded | signalCgroup | assign | print => exact reads.elim

/-- What a quiet command can do. -/
inductive Quietly (w t : World) : Prop where
  | aside (temporary : Id → Pid → Option Bytes) (jail : Id → Option Jail) (pipe : Id → Pipe)
      (out : Bytes) (is : t = { w with temporary, jail, pipe, out })
  | staged (id : Id) (inode : Inode) (content : Bytes)
      (own : w.staged id w.vars.self = some inode ∨
        (w.staged id w.vars.self = none ∧ inode = w.nextInode))
      (is : t = { w with
        staged := Function.update w.staged id
          (Function.update (w.staged id) w.vars.self (some inode))
        contents := Function.update w.contents inode content
        nextInode := w.nextInode + 1 })
  | unstaged (id : Id)
      (is : t = { w with
        staged := Function.update w.staged id
          (Function.update (w.staged id) w.vars.self none) })
  | piped (pipe : Id → Pipe) (is : t = { w with pipe, nextInode := w.nextInode + 1 })
  | signalled (signal : Signal) (pid : Pid) (is : w.Signalled signal pid t)
  | spawned (pid : Pid) (process : Process) (launch : process.launch = none)
      (is : w.Spawns pid process t)

theorem Quietly.same : Quietly w w :=
  .aside w.temporary w.jail w.pipe w.out rfl

theorem attempts_quietly {reply : Bool} {done : Prop} (attempts : w.Attempts reply t done)
    (quietly : done → Quietly w t) : Quietly w t := by
  obtain ⟨_, succeeded⟩ | ⟨_, rfl⟩ := attempts
  · exact quietly succeeded
  · exact .same

theorem effect_quiet {command : Command} {reply : command.Reply} (quiet : command.Quiet)
    (performed : effect command w reply t) : Quietly w t := by
  cases command with
  | lock | probe | chmodTemporary | copyKernel | permit | truncateLog | rmdirCgroup | api | sleep
  | ownCgroup | cpuCount | memTotal | listVms | isVm | hasState | stateValue | hasDisk | startTime
  | processCgroup | alive | matchesFirecracker | matchesStarted | cgroupPids | vars =>
    obtain rfl := effect_reads (by exact trivial) performed
    exact .same
  | writeTemporary id content =>
    obtain ⟨written, rfl, _⟩ := performed
    exact .aside _ w.jail w.pipe w.out rfl
  | removeJail id =>
    obtain ⟨left, rfl, _⟩ := performed
    exact .aside w.temporary _ w.pipe w.out rfl
  | makeJail id => exact attempts_quietly performed fun is => .aside w.temporary _ w.pipe w.out is
  | linkDisk id => exact attempts_quietly performed fun is => .aside w.temporary _ w.pipe w.out is.2
  | removePipe id => exact attempts_quietly performed fun is => .aside w.temporary w.jail _ w.out is
  | makePipe id => exact attempts_quietly performed fun is => .piped _ is.2
  | copyDisk rootfs id =>
    obtain ⟨inode, content, own, is⟩ | ⟨_, rfl⟩ := performed
    · exact .staged id inode content own is
    · exact .same
  | removeStaged id => exact attempts_quietly performed fun is => .unstaged id is
  | spawnLogger id =>
    obtain ⟨pid, startTime, _, is⟩ | ⟨_, rfl⟩ := performed
    · exact .spawned pid _ rfl is
    · exact .same
  | signal signal pid => exact .signalled signal pid performed
  | signalCgroup recorded signal pid =>
    cases recorded with
    | false => exact .signalled signal pid performed
    | true => exact quiet.elim
  | print text => exact .aside w.temporary w.jail w.pipe _ performed
  | shell | mkdirVm | renameState | renameDisk | spawnJailer | signalRecorded | assign =>
    exact quiet.elim

theorem Signalled.cases {signal : Signal} {pid : Pid} (signalled : w.Signalled signal pid t) :
    t = w.setProcess pid none ∨ t = w :=
  signalled.imp_right And.left

theorem Signalled.untouched {signal : Signal} {pid : Pid} (signalled : w.Signalled signal pid t) :
    Untouched w t := by
  obtain rfl | rfl := signalled.cases
  · exact untouched_setProcess
  · exact ⟨_, _, _, _, rfl⟩

theorem Signalled.grown {signal : Signal} {pid other : Pid} {process : Process}
    (signalled : w.Signalled signal pid t) (there : t.processes other = some process) :
    Grown w other process := by
  obtain rfl | rfl := signalled.cases
  · exact grown_setProcess (fun _ is => by cases is) there
  · exact .same there

theorem Signalled.steps {signal : Signal} {pid : Pid} (signalled : w.Signalled signal pid t) :
    Store.Steps rules w.store t.store := by
  obtain rfl | rfl := signalled.cases
  · exact .single (.exit (s := w.store) pid)
  · exact .refl

/-- Slots for staged copies after one is set. -/
theorem staged_update {id other : Id} {self pid : Pid} {set : Option Inode} {inode : Inode}
    (there : Function.update w.staged id (Function.update (w.staged id) self set) other pid =
      some inode) :
    (other = id ∧ pid = self ∧ set = some inode) ∨
      (¬ (other = id ∧ pid = self) ∧ w.staged other pid = some inode) := by
  by_cases sameId : other = id
  · subst sameId
    rw [Function.update_self] at there
    by_cases samePid : pid = self
    · subst samePid
      rw [Function.update_self] at there
      exact .inl ⟨rfl, rfl, there⟩
    · rw [Function.update_of_ne samePid] at there
      exact .inr ⟨fun both => samePid both.2, there⟩
  · rw [Function.update_of_ne sameId] at there
    exact .inr ⟨fun both => sameId both.1, there⟩

theorem good_staged (good : w.Good rules) {id : Id} {self : Pid} {inode : Inode}
    {contents : Inode → Bytes}
    (own : w.staged id self = some inode ∨ (w.staged id self = none ∧ inode = w.nextInode)) :
    { w with
      staged := Function.update w.staged id (Function.update (w.staged id) self (some inode))
      contents
      nextInode := w.nextInode + 1 }.Good rules := by
  have alone : inode < w.nextInode + 1 ∧ ∀ other, w.disk other ≠ some inode := by
    obtain before | ⟨_, rfl⟩ := own
    · exact ⟨(good.staged id self inode before).1.trans (Nat.lt_succ_self _),
        (good.staged id self inode before).2⟩
    · exact ⟨Nat.lt_succ_self _, fun other there => absurd (good.disks other _ there) (lt_irrefl _)⟩
  have elsewhere : ∀ other pid, w.staged other pid = some inode → other = id ∧ pid = self := by
    intro other pid there
    obtain before | ⟨_, rfl⟩ := own
    · exact good.stagedOnce other id pid self inode there before
    · exact absurd (good.staged other pid _ there).1 (lt_irrefl _)
  refine ⟨good.texts, good.sound, ?staged, ?stagedOnce, ?disks, good.launched, good.found⟩
  case staged =>
    intro other pid copy there
    obtain ⟨_, _, is⟩ | ⟨_, before⟩ := staged_update there
    · cases is
      exact alone
    · exact ⟨(good.staged other pid copy before).1.trans (Nat.lt_succ_self _),
        (good.staged other pid copy before).2⟩
  case stagedOnce =>
    intro a b p q copy thereA thereB
    obtain ⟨rfl, rfl, is⟩ | ⟨away, before⟩ := staged_update thereA
    · cases is
      obtain ⟨rfl, rfl, _⟩ | ⟨_, before⟩ := staged_update thereB
      · exact ⟨rfl, rfl⟩
      · obtain ⟨rfl, rfl⟩ := elsewhere b q before
        exact ⟨rfl, rfl⟩
    · obtain ⟨rfl, rfl, is⟩ | ⟨_, before'⟩ := staged_update thereB
      · cases is
        exact absurd (elsewhere a p before) away
      · exact good.stagedOnce a b p q copy before before'
  case disks =>
    exact fun id inode there => (good.disks id inode there).trans (Nat.lt_succ_self _)

theorem good_unstaged (id : Id) (self : Pid) (good : w.Good rules) :
    { w with
      staged := Function.update w.staged id
        (Function.update (w.staged id) self none) }.Good rules := by
  have before : ∀ other pid copy, Function.update w.staged id
      (Function.update (w.staged id) self none) other pid = some copy →
      w.staged other pid = some copy := by
    intro other pid copy there
    obtain ⟨_, _, is⟩ | ⟨_, before⟩ := staged_update there
    · cases is
    · exact before
  exact ⟨good.texts, good.sound, fun other pid copy there => good.staged other pid copy
      (before other pid copy there),
    fun a b p q copy thereA thereB => good.stagedOnce a b p q copy (before a p copy thereA)
      (before b q copy thereB),
    good.disks, good.launched, good.found⟩

/-- Quiet commands go by steps of the store, and change nothing a script counts on. -/
theorem Quietly.good (quietly : Quietly w t) (good : w.Good rules)
    (unconfused : rules.careful → w.Unconfused t) :
    t.Good rules ∧ Store.Steps rules w.store t.store ∧ Calm rules w t := by
  have same : ∀ u : World, u.processes = w.processes → ∀ pid process,
      u.processes pid = some process → Grown w pid process :=
    fun u processes pid process there => .same ((congrFun processes pid).symm.trans there)
  cases quietly with
  | aside temporary jail pipe out is =>
    subst is
    exact ⟨⟨good.texts, good.sound, good.staged, good.stagedOnce, good.disks, good.launched,
      good.found⟩, .refl,
      ⟨⟨rfl, rfl, rfl, rfl, rfl, rfl, le_rfl, same _ rfl, unconfused⟩, rfl, rfl, rfl, rfl, rfl⟩⟩
  | staged id inode content own is =>
    subst is
    exact ⟨good_staged good own, .refl,
      ⟨⟨rfl, rfl, rfl, rfl, rfl, rfl, le_rfl, same _ rfl, unconfused⟩, rfl, rfl, rfl, rfl, rfl⟩⟩
  | unstaged id is =>
    subst is
    exact ⟨good_unstaged _ _ good, .refl,
      ⟨⟨rfl, rfl, rfl, rfl, rfl, rfl, le_rfl, same _ rfl, unconfused⟩, rfl, rfl, rfl, rfl, rfl⟩⟩
  | piped pipe is =>
    subst is
    exact ⟨⟨good.texts, good.sound,
      fun id pid inode there => ⟨(good.staged id pid inode there).1.trans (Nat.lt_succ_self _),
        (good.staged id pid inode there).2⟩,
      good.stagedOnce, fun id inode there => (good.disks id inode there).trans (Nat.lt_succ_self _),
      good.launched, good.found⟩, .refl,
      ⟨⟨rfl, rfl, rfl, rfl, rfl, rfl, le_rfl, same _ rfl, unconfused⟩, rfl, rfl, rfl, rfl, rfl⟩⟩
  | signalled signal pid is =>
    have grown : ∀ pid process, t.processes pid = some process → Grown w pid process :=
      fun _ _ there => is.grown there
    exact ⟨is.untouched.good good is.steps grown, is.steps, is.untouched.calm grown unconfused⟩
  | spawned pid process launch is =>
    have grown : ∀ other process, t.processes other = some process → Grown w other process :=
      fun _ _ there => is.grown (fun _ is => nomatch launch.symm.trans is) there
    have steps := Relation.ReflTransGen.single (is.step launch unconfused)
    exact ⟨is.untouched.good good steps grown, steps, is.untouched.calm grown unconfused⟩

theorem Signalled.same_records {signal : Signal} {pid : Pid} (signalled : w.Signalled signal pid t)
    (id : Id) : t.state id = w.state id ∧ t.disk id = w.disk id := by
  obtain rfl | rfl := signalled.cases <;> exact ⟨rfl, rfl⟩

theorem Quietly.same_records (quietly : Quietly w t) (id : Id) :
    t.state id = w.state id ∧ t.disk id = w.disk id := by
  cases quietly with
  | aside temporary jail pipe out is | staged id inode content own is | unstaged id is
  | piped pipe is =>
    subst is
    exact ⟨rfl, rfl⟩
  | signalled signal pid is => exact is.same_records id
  | spawned pid process launch is =>
    obtain ⟨_, _, _, _, rfl⟩ := is.untouched
    exact ⟨rfl, rfl⟩

/-- A command that spares a microVM leaves its record and its disk in place. -/
theorem effect_spares {command : Command} {reply : command.Reply} {id : Id}
    (spares : command.Spares id) (performed : effect command w reply t) :
    t.state id = w.state id ∧ t.disk id = w.disk id := by
  cases command with
  | shell self =>
    obtain rfl := performed
    exact ⟨rfl, rfl⟩
  | mkdirVm other =>
    obtain ⟨_, _, rfl⟩ | ⟨_, rfl⟩ := performed
    · exact ⟨rfl, rfl⟩
    · exact ⟨rfl, rfl⟩
  | renameState other =>
    obtain ⟨_, _, content, _, rfl⟩ | ⟨_, rfl⟩ := performed
    · exact ⟨Function.update_of_ne (Ne.symm spares) .., rfl⟩
    · exact ⟨rfl, rfl⟩
  | renameDisk other =>
    obtain ⟨_, inode, _, rfl⟩ | ⟨_, rfl⟩ := performed
    · exact ⟨rfl, Function.update_of_ne (Ne.symm spares) ..⟩
    · exact ⟨rfl, rfl⟩
  | spawnJailer =>
    obtain ⟨_, _, _, _, _, rfl⟩ | ⟨_, rfl⟩ := performed
    · exact ⟨rfl, rfl⟩
    · exact ⟨rfl, rfl⟩
  | signalRecorded =>
    obtain ⟨_, _, signalled⟩ | ⟨_, rfl⟩ := performed
    · exact signalled.same_records id
    · exact ⟨rfl, rfl⟩
  | signalCgroup recorded signal pid =>
    cases recorded with
    | false => exact (effect_quiet (by trivial) performed).same_records id
    | true => exact Signalled.same_records performed id
  | assign change =>
    obtain rfl := performed
    exact ⟨rfl, rfl⟩
  | _ => exact (effect_quiet (by trivial) performed).same_records id

/-! ## Commands with what they matched -/

theorem good_matched (good : w.Good rules) (matched : List Pid) :
    { w with matched }.Good rules :=
  ⟨good.texts, good.sound, good.staged, good.stagedOnce, good.disks, good.launched, good.found⟩

theorem Rough.matched (rough : Rough rules w t) (matched : List Pid) :
    Rough rules w { t with matched } :=
  ⟨rough.state, rough.vms, rough.owner, rough.cpus, rough.memory, rough.service, rough.launches,
    rough.processes, rough.unconfused⟩

theorem Calm.matched (calm : Calm rules w t) (matched : List Pid) :
    Calm rules w { t with matched } :=
  ⟨calm.toRough.matched matched, calm.disk, calm.self, calm.id, calm.pid, calm.launch⟩

theorem exec_quiet {command : Command} {reply : command.Reply} (quiet : command.Quiet)
    (good : w.Good rules) (performed : exec command w reply t)
    (unconfused : rules.careful → w.Unconfused t) :
    t.Good rules ∧ Store.Steps rules w.store t.store ∧ Calm rules w t := by
  obtain ⟨after, performed, rfl⟩ := performed
  obtain ⟨good, steps, calm⟩ := (effect_quiet quiet performed).good good unconfused
  exact ⟨good_matched good _, steps, calm.matched _⟩

theorem exec_assign {change : Vars → Vars} {reply : Unit} (good : w.Good rules)
    (performed : exec (.assign change) w reply t) :
    t.Good rules ∧ Store.Steps rules w.store t.store ∧ Rough rules w t := by
  obtain ⟨after, rfl, rfl⟩ := performed
  refine ⟨⟨good.texts, good.sound, good.staged, good.stagedOnce, good.disks, good.launched,
    good.found⟩, .refl, ⟨rfl, rfl, rfl, rfl, rfl, rfl, le_rfl, fun _ _ there => .same there, ?_⟩⟩
  intro _ pid process free there
  exact nomatch free.symm.trans there

/-- A launch, with its PID and the number it leaves in the variables. -/
theorem exec_spawnJailer {id : Id} {uid gid vcpus memoryMib : Bytes} {reply : Option Pid}
    (good : w.Good rules) (performed : exec (.spawnJailer id uid gid vcpus memoryMib) w reply t)
    (unconfused : rules.careful → w.Unconfused t) :
    t.Good rules ∧ Store.Steps rules w.store t.store ∧ Rough rules w t ∧
      ∀ pid, reply = some pid → t.matched = [pid] ∧ t.vars.launch = some w.launches ∧
        t.launches = w.launches + 1 ∧
        ∃ process, t.processes pid = some process ∧ process.launch = some w.launches := by
  obtain ⟨after, ⟨pid, startTime, rfl, spawns⟩ | ⟨rfl, rfl⟩, rfl⟩ := performed
  · obtain ⟨free, unused, rfl⟩ := spawns
    have free : w.processes pid = none := free
    have grown : ∀ other process, Function.update w.processes pid
        (some ⟨startTime, .shell, id, some w.launches, w.service⟩) other = some process →
        Grown w other process := by
      intro other process there
      refine @grown_setProcess w pid _ _ _ (fun process is => ?_) there
      cases is
      refine .new free fun number is => ?_
      cases is
      exact ⟨le_rfl, rfl⟩
    have step : Store.Step rules w.store _ :=
      @Store.Step.launch rules w.store pid ⟨startTime, .shell, id, some w.launches, w.service⟩ rfl
        fun careful => (unconfused careful pid _ free (Function.update_self ..)).1
    refine ⟨⟨good.texts, good.sound.step step, good.staged, good.stagedOnce, good.disks, ?_,
      good.found⟩, .single step,
      ⟨rfl, rfl, rfl, rfl, rfl, rfl, Nat.le_succ _, grown, unconfused⟩, ?_⟩
    · intro other process number there launch
      cases grown other process there with
      | before older startTime sameLaunch vmm launched =>
        exact launched (good.launched other _ number older (sameLaunch ▸ launch))
      | new free fresh => exact (fresh number launch).2
    · intro pid' is
      cases is
      exact ⟨rfl, rfl, rfl, _, Function.update_self .., rfl⟩
  · refine ⟨good_matched good _, .refl, (Untouched.calm ⟨_, _, _, _, rfl⟩ (fun _ _ there => .same there)
      unconfused).toRough.matched _, fun pid is => nomatch is⟩

theorem exec_shell {self : Pid} {reply : Unit} (good : w.Good rules)
    (performed : exec (.shell self) w reply t) :
    t.Good rules ∧ Store.Steps rules w.store t.store := by
  obtain ⟨after, rfl, rfl⟩ := performed
  exact ⟨⟨good.texts, good.sound, good.staged, good.stagedOnce, good.disks, good.launched,
    good.found⟩, .refl⟩

theorem exec_mkdirVm {id : Id} {reply : Bool} (good : w.Good rules) (named : validId id = true)
    (performed : exec (.mkdirVm id) w reply t) :
    t.Good rules ∧ Store.Steps rules w.store t.store ∧ t.state = w.state ∧
      (reply = true → id ∉ w.vms ∧ id ∈ t.vms) := by
  obtain ⟨after, ⟨rfl, absent, rfl⟩ | ⟨rfl, rfl⟩, rfl⟩ := performed
  · have step : Store.Step rules w.store { w with vms := insert id w.vms }.store :=
      .directory named
    exact ⟨⟨good.texts, good.sound.step step, good.staged, good.stagedOnce, good.disks,
      good.launched, good.found⟩, .single step, rfl, fun _ => ⟨absent, Finset.mem_insert_self ..⟩⟩
  · exact ⟨good_matched good _, .refl, rfl, fun is => nomatch is⟩

/-- A staged copy becomes the disk of a microVM that has none. -/
theorem exec_renameDisk {id : Id} {reply : Bool} (good : w.Good rules)
    (performed : exec (.renameDisk id) w reply t) (missing : w.disk id = none)
    (unconfused : rules.careful → w.Unconfused t) :
    t.Good rules ∧ Store.Steps rules w.store t.store ∧ Rough rules w t := by
  obtain ⟨after, ⟨rfl, inode, staged, rfl⟩ | ⟨rfl, rfl⟩, rfl⟩ := performed
  · have step : Store.Step rules w.store
        { w with disk := Function.update w.disk id (some inode) }.store :=
      .disk (s := w.store) missing (good.staged id _ inode staged).2
    have rest := good_unstaged id w.vars.self good
    refine ⟨⟨good.texts, good.sound.step step, ?staged, rest.stagedOnce, ?disks, good.launched,
      good.found⟩, .single step,
      ⟨rfl, rfl, rfl, rfl, rfl, rfl, le_rfl, fun _ _ there => .same there, unconfused⟩⟩
    case staged =>
      intro other pid copy there
      refine ⟨(rest.staged other pid copy there).1, fun disk => ?_⟩
      show Function.update w.disk id (some inode) disk ≠ some copy
      obtain ⟨_, _, is⟩ | ⟨away, before⟩ := staged_update there
      · cases is
      · by_cases same : disk = id
        · subst same
          rw [Function.update_self]
          rintro is
          cases is
          exact away (good.stagedOnce other disk pid _ _ before staged)
        · rw [Function.update_of_ne same]
          exact (good.staged other pid copy before).2 disk
    case disks =>
      intro other copy there
      have there : Function.update w.disk id (some inode) other = some copy := there
      by_cases same : other = id
      · subst same
        rw [Function.update_self] at there
        cases there
        exact (good.staged other _ _ staged).1
      · rw [Function.update_of_ne same] at there
        exact good.disks other copy there
  · exact ⟨good_matched good _, .refl, (Untouched.calm ⟨_, _, _, _, rfl⟩ (fun _ _ there => .same there)
      unconfused).toRough.matched _⟩

end World

namespace World

variable {rules : Rules} {w t : World}

/-- A signal of `stop` to a PID that only the process the record was written for has. -/
theorem signalling_good {signal : Signal} {pid : Pid} (good : w.Good rules)
    (signalled : (w.signalling pid).Signalled signal pid t)
    (unconfused : rules.careful → w.Unconfused t)
    (own : rules.careful → ∀ process, w.processes pid = some process → w.Own w.vars.id process) :
    t.Good rules ∧ Store.Steps rules w.store t.store ∧ Calm rules w t := by
  have found : rules.careful → ¬ (w.signalling pid).astray := by
    rintro careful (before | ⟨process, there, other⟩)
    · exact good.found careful before
    · exact other (own careful process there)
  have signalling : (w.signalling pid).Good rules :=
    ⟨good.texts, good.sound, good.staged, good.stagedOnce, good.disks, good.launched, found⟩
  have grown : ∀ pid process, t.processes pid = some process → Grown w pid process := by
    intro other process there
    cases signalled.grown there with
    | before older startTime launch vmm launched vm =>
      exact .before older startTime launch vmm launched vm
    | new free fresh => exact .new free fresh
  have steps : Store.Steps rules w.store t.store := signalled.steps
  have same : Untouched (w.signalling pid) t := signalled.untouched
  refine ⟨same.good signalling steps fun _ _ there => signalled.grown there, steps, ?_⟩
  obtain ⟨_, _, _, _, rfl⟩ := same
  exact ⟨⟨rfl, rfl, rfl, rfl, rfl, rfl, le_rfl, grown, unconfused⟩, rfl, rfl, rfl, rfl, rfl⟩

theorem exec_signalRecorded {signal : Signal} {pid : Bytes} {reply : Unit} (good : w.Good rules)
    (performed : exec (.signalRecorded signal pid) w reply t)
    (unconfused : rules.careful → w.Unconfused t)
    (own : rules.careful → ∀ n process, pid = decimal n → w.processes n = some process →
      w.Own w.vars.id process) :
    t.Good rules ∧ Store.Steps rules w.store t.store ∧ Calm rules w t := by
  obtain ⟨after, ⟨n, is, signalled⟩ | ⟨_, rfl⟩, rfl⟩ := performed
  · obtain ⟨good, steps, calm⟩ := signalling_good good signalled unconfused fun careful process =>
      own careful n process is
    exact ⟨good_matched good _, steps, calm.matched _⟩
  · exact ⟨good_matched good _, .refl, Untouched.calm ⟨_, _, _, _, rfl⟩
      (fun _ _ there => .same there) unconfused |>.matched _⟩

/-- One to the cgroup of a record ends its process or leaves it, and the rest of what was
told goes on. -/
theorem exec_signalCgroup {signal : Signal} {pid : Pid} {reply : Unit} (good : w.Good rules)
    (performed : exec (.signalCgroup true signal pid) w reply t)
    (unconfused : rules.careful → w.Unconfused t)
    (own : rules.careful → ∀ process, w.processes pid = some process → w.Own w.vars.id process) :
    t.Good rules ∧ Store.Steps rules w.store t.store ∧ Calm rules w t ∧ t.matched = w.matched ∧
      ∀ other process, t.processes other = some process → w.processes other = some process := by
  obtain ⟨after, signalled, rfl⟩ := performed
  obtain ⟨good, steps, calm⟩ := signalling_good good signalled unconfused own
  refine ⟨good_matched good _, steps, calm.matched _, rfl, fun other process there => ?_⟩
  have there : after.processes other = some process := there
  obtain rfl | rfl := Signalled.cases signalled
  · by_cases same : other = pid
    · subst same
      cases (setProcess_self other none).symm.trans there
    · exact (setProcess_of_ne none same).symm.trans there
  · exact there

end World

/-- What `mv` makes the owner of a record with this status. -/
def Status.owner (status : Status) (launch : Option Nat) : Option Nat :=
  match status with
  | .running _ => launch
  | .created | .stopped => none

namespace World

variable {rules : Rules} {w t : World}

theorem owner_text {record : Record} (clean : record.Clean) (launch : Option Nat) :
    (if Manager.stateValue .status record.text = ascii "running" then launch else none) =
      record.status.owner launch := by
  rw [stateValue_text clean]
  obtain ⟨status, settings, uid⟩ := record
  cases status <;> rfl

/-- A record takes its place, if that is a step of the store. -/
theorem exec_renameState {id : Id} {record : Record} {reply : Bool} (good : w.Good rules)
    (performed : exec (.renameState id) w reply t)
    (written : w.temporary id w.vars.self = some record.text) (clean : record.Clean)
    (step : id ∈ w.vms → Store.Step rules w.store
      (w.store.setRecord id record (record.status.owner w.vars.launch))) :
    t.Good rules ∧ Store.Steps rules w.store t.store ∧
      (reply = true → t.store.record id = some record) := by
  obtain ⟨after, ⟨rfl, member, content, holds, rfl⟩ | ⟨rfl, rfl⟩, rfl⟩ := performed
  · obtain rfl : record.text = content := Option.some.inj (written.symm.trans holds)
    have step := step member
    rw [← owner_text clean] at step
    have records : (fun other => (Function.update w.state id (some record.text) other).map Record.read) =
        Function.update w.store.record id (some record) := by
      funext other
      by_cases same : other = id
      · subst same
        rw [Function.update_self, Function.update_self, Option.map_some, Record.read_text clean]
      · rw [Function.update_of_ne same, Function.update_of_ne same]
        rfl
    have step : Store.Step rules w.store { w.store with
        record := fun other => (Function.update w.state id (some record.text) other).map Record.read
        owner := Function.update w.owner id
          (if Manager.stateValue .status record.text = ascii "running" then w.vars.launch else none) } := by
      rw [records]
      exact step
    refine ⟨⟨?_, good.sound.step step, good.staged, good.stagedOnce, good.disks, good.launched,
      good.found⟩, .single step, fun _ => ?_⟩
    · intro other content there
      have there : Function.update w.state id (some record.text) other = some content := there
      by_cases same : other = id
      · subst same
        rw [Function.update_self] at there
        cases there
        rw [Record.read_text clean]
      · rw [Function.update_of_ne same] at there
        exact good.texts other content there
    · exact (congrFun records id).trans (Function.update_self ..)
  · exact ⟨good_matched good _, .refl, fun is => nomatch is⟩

end World

/-! ## Runs that are restricted -/

/-- The cgroup of a microVM holds only what was launched for it. -/
def World.Housed (w : World) : Prop :=
  ∀ id pid process, w.processes pid = some process →
    process.cgroup = cgroupPath (parentCgroup w.service) id →
    process.launch ≠ none ∧ process.vm = id

/-- Of all that was launched for a microVM, only the one its record was written for is
there. -/
def World.Sole (w : World) (id : Id) : Prop :=
  ∀ pid process, w.processes pid = some process → process.launch ≠ none → process.vm = id →
    w.Own id process

/-- The runs are as careful as the rules ask. -/
structure Conditions.Meets (conditions : Conditions) (rules : Rules) : Prop where
  exec : rules.careful → ∀ command w reply w', conditions.exec command w reply w' → w.Unconfused w'
  env : rules.careful → ∀ w w', conditions.env w w' → w.Unconfused w'
  look : rules.careful → ∀ path w reply w', conditions.exec (.cgroupPids path) w reply w' → w.Housed
  stops : rules.careful → ∀ signal pid w reply w',
    conditions.exec (.signalCgroup true signal pid) w reply w' → w.Sole w.vars.id
  spawns : ∀ id uid gid vcpus memoryMib w pid w',
    conditions.exec (.spawnJailer id uid gid vcpus memoryMib) w (some pid) w' → rules.pids pid

/-- Where no care is asked for, any run will do. -/
theorem Conditions.meets {conditions : Conditions} {rules : Rules} (careless : ¬ rules.careful)
    (pids : ∀ pid, rules.pids pid) : conditions.Meets rules :=
  ⟨fun careful => absurd careful careless, fun careful => absurd careful careless,
    fun careful => absurd careful careless, fun careful => absurd careful careless,
    fun _ _ _ _ _ _ pid _ _ => pids pid⟩

/-- Between two moments of a run: the world is good, the store has gone by steps, and
the microVMs that are spared have the record and the disk they had. -/
structure Inv (rules : Rules) (spared : Id → Prop) (m w : World) : Prop where
  good : w.Good rules
  steps : Store.Steps rules m.store w.store
  same : ∀ id, spared id → w.state id = m.state id ∧ w.disk id = m.disk id

section Runs

variable {conditions : Conditions} {rules : Rules} {spared : Id → Prop}

theorem inv_self {w : World} (good : w.Good rules) : Inv rules spared w w :=
  ⟨good, .refl, fun _ _ => ⟨rfl, rfl⟩⟩

theorem Inv.then {m w t : World} (inv : Inv rules spared m w)
    (moves : t.Good rules ∧ Store.Steps rules w.store t.store)
    (same : ∀ id, spared id → t.state id = w.state id ∧ t.disk id = w.disk id) :
    Inv rules spared m t :=
  ⟨moves.1, inv.steps.trans moves.2, fun id isSpared =>
    ⟨(same id isSpared).1.trans (inv.same id isSpared).1,
      (same id isSpared).2.trans (inv.same id isSpared).2⟩⟩

theorem World.Env.same {w t : World} (env : World.Env w t) (id : Id) :
    t.state id = w.state id ∧ t.disk id = w.disk id := by
  obtain ⟨_, _, _, _, rfl⟩ := env.untouched
  exact ⟨rfl, rfl⟩

theorem inv_lasting (meets : conditions.Meets rules) :
    (parentVm conditions).Lasting (Inv rules spared) where
  mark _ _ inv := inv_self inv.good
  env _ w t inv moves :=
    have good := World.env_good inv.good moves.1 fun careful => meets.env careful w t moves.2
    inv.then ⟨good.1, good.2.1⟩ fun id _ => moves.1.same id

theorem inv_idle {m w t : World} (inv : Inv rules spared m w) (rebooted : World.Reboot w t) :
    Inv rules spared m t := by
  refine inv.then (World.reboot_good inv.good rebooted) ?_
  cases rebooted
  exact fun _ _ => ⟨rfl, rfl⟩

theorem World.Calmer.steady {P : World → Prop} (calmer : World.Calmer rules P)
    (meets : conditions.Meets rules) : (parentVm conditions).Steady (Inv rules spared) P :=
  fun _ w t inv moves here => calmer w t inv.good
    (World.env_good inv.good moves.1 fun careful => meets.env careful w t moves.2).2.2 here

end Runs

/-! ## Launched processes -/

/-- Commands that launch no VMM, print nothing and leave the variables alone. -/
def Command.Childless : Command → Prop
  | .shell _ | .spawnJailer _ _ _ _ _ | .assign _ | .print _ => False
  | _ => True

namespace World

variable {w t : World} {pid : Pid} {process : Process}

/-- Every launched process was one before, the variables are the same, and so is what
was printed. -/
structure Inherits (w t : World) : Prop where
  vars : t.vars = w.vars
  launches : t.launches = w.launches
  out : t.out = w.out
  processes : ∀ pid process, t.processes pid = some process → process.launch ≠ none →
    ∃ older, w.processes pid = some older ∧ older.launch = process.launch ∧
      older.startTime = process.startTime

theorem inherits_same (vars : t.vars = w.vars) (launches : t.launches = w.launches)
    (out : t.out = w.out) (processes : t.processes = w.processes) : w.Inherits t :=
  ⟨vars, launches, out, fun pid process there _ =>
    ⟨process, (congrFun processes pid).symm.trans there, rfl, rfl⟩⟩

theorem inherits_setProcess {after : Option Process}
    (set : ∀ process, after = some process → process.launch ≠ none →
      ∃ older, w.processes pid = some older ∧ older.launch = process.launch ∧
        older.startTime = process.startTime) : w.Inherits (w.setProcess pid after) := by
  refine ⟨rfl, rfl, rfl, fun other process there launched => ?_⟩
  by_cases same : other = pid
  · subst same
    exact set process ((setProcess_self other after).symm.trans there) launched
  · exact ⟨process, (setProcess_of_ne after same).symm.trans there, rfl, rfl⟩

theorem Inherits.trans {u : World} (first : w.Inherits t) (second : t.Inherits u) :
    w.Inherits u := by
  refine ⟨second.vars.trans first.vars, second.launches.trans first.launches,
    second.out.trans first.out, fun pid process there launched => ?_⟩
  obtain ⟨older, between, launch, startTime⟩ := second.processes pid process there launched
  obtain ⟨oldest, before, launch', startTime'⟩ := first.processes pid older between (launch ▸ launched)
  exact ⟨oldest, before, launch'.trans launch, startTime'.trans startTime⟩

theorem Advances.inherits {before after : Stage} (advances : w.Advances pid before after t) :
    w.Inherits t := by
  obtain ⟨older, was, _, rfl⟩ := advances
  refine inherits_setProcess fun process is _ => ?_
  cases is
  exact ⟨older, was, rfl, rfl⟩

theorem Spawns.inherits (spawns : w.Spawns pid process t) (launch : process.launch = none) :
    w.Inherits t := by
  obtain ⟨_, _, rfl⟩ := spawns
  have inherits : w.Inherits (w.setProcess pid (some process)) :=
    inherits_setProcess fun new is launched => by
      cases is
      exact absurd launch launched
  exact ⟨inherits.vars, inherits.launches, inherits.out, inherits.processes⟩

theorem Env.inherits (env : Env w t) : w.Inherits t := by
  cases env with
  | exit pid => exact inherits_setProcess fun _ is => nomatch is
  | foreign spawns => exact spawns.inherits rfl
  | opens _ _ advances | logOpens _ _ advances | execs advances => exact advances.inherits
  | creates _ _ advances =>
    have inherits := advances.inherits
    exact ⟨inherits.vars, inherits.launches, inherits.out, inherits.processes⟩
  | meet reads writes => exact reads.inherits.trans writes.inherits
  | moves cgroup there _ =>
    refine inherits_setProcess fun process is _ => ?_
    cases is
    exact ⟨_, there, rfl, rfl⟩
  | writes => exact inherits_same rfl rfl rfl rfl

theorem Signalled.inherits {signal : Signal} (signalled : w.Signalled signal pid t) :
    w.Inherits t := by
  obtain rfl | rfl := signalled.cases
  · exact inherits_setProcess fun _ is => nomatch is
  · exact inherits_same rfl rfl rfl rfl

theorem Attempts.out {reply : Bool} {done : Prop} (attempts : w.Attempts reply t done)
    (silent : done → t.out = w.out) : t.out = w.out := by
  obtain ⟨_, succeeded⟩ | ⟨_, rfl⟩ := attempts
  · exact silent succeeded
  · rfl

theorem Untouched.out (untouched : Untouched w t) : t.out = w.out := by
  obtain ⟨_, _, _, _, rfl⟩ := untouched
  rfl

theorem effect_out {command : Command} {reply : command.Reply} (childless : command.Childless)
    (performed : effect command w reply t) : t.out = w.out := by
  cases command with
  | shell | spawnJailer | assign | print => exact childless.elim
  | mkdirVm | linkDisk | makePipe => exact Attempts.out performed fun is => by rw [is.2]
  | removeStaged | makeJail | removePipe => exact Attempts.out performed fun is => by rw [is]
  | renameState => exact Attempts.out performed fun ⟨_, _, _, is⟩ => by rw [is]
  | renameDisk => exact Attempts.out performed fun ⟨_, _, is⟩ => by rw [is]
  | writeTemporary | removeJail =>
    obtain ⟨_, rfl, _⟩ := performed
    rfl
  | copyDisk =>
    obtain ⟨_, _, _, rfl⟩ | ⟨_, rfl⟩ := performed
    · rfl
    · rfl
  | spawnLogger =>
    obtain ⟨_, _, _, spawns⟩ | ⟨_, rfl⟩ := performed
    · exact spawns.untouched.out
    · rfl
  | signal => exact Signalled.untouched performed |>.out
  | signalRecorded =>
    obtain ⟨_, _, signalled⟩ | ⟨_, rfl⟩ := performed
    · exact signalled.untouched.out
    · rfl
  | signalCgroup recorded =>
    cases recorded with
    | false | true => exact Signalled.untouched performed |>.out
  | _ =>
    obtain rfl := effect_reads (by trivial) performed
    rfl

theorem effect_inherits {command : Command} {reply : command.Reply} (childless : command.Childless)
    (performed : effect command w reply t) : w.Inherits t := by
  cases command with
  | shell | spawnJailer | assign | print => exact childless.elim
  | mkdirVm id =>
    obtain ⟨_, _, rfl⟩ | ⟨_, rfl⟩ := performed <;> exact inherits_same rfl rfl rfl rfl
  | renameState id =>
    obtain ⟨_, _, _, _, rfl⟩ | ⟨_, rfl⟩ := performed <;> exact inherits_same rfl rfl rfl rfl
  | renameDisk id =>
    obtain ⟨_, _, _, rfl⟩ | ⟨_, rfl⟩ := performed <;> exact inherits_same rfl rfl rfl rfl
  | signalRecorded signal pid =>
    obtain ⟨n, _, signalled⟩ | ⟨_, rfl⟩ := performed
    · have inherits := signalled.inherits
      exact ⟨inherits.vars, inherits.launches, inherits.out, inherits.processes⟩
    · exact inherits_same rfl rfl rfl rfl
  | signalCgroup recorded signal pid =>
    cases recorded with
    | false => exact Signalled.inherits performed
    | true =>
      have inherits := Signalled.inherits performed
      exact ⟨inherits.vars, inherits.launches, inherits.out, inherits.processes⟩
  | _ =>
    have quietly := effect_quiet (by trivial) performed
    cases quietly with
    | aside _ _ _ _ is | staged _ _ _ _ is | unstaged _ is | piped _ is =>
      have silent := effect_out (by trivial) performed
      subst is
      exact inherits_same rfl rfl silent rfl
    | signalled _ _ is => exact is.inherits
    | spawned _ _ launch is => exact is.inherits launch

theorem exec_inherits {command : Command} {reply : command.Reply} (childless : command.Childless)
    (performed : exec command w reply t) : w.Inherits t := by
  obtain ⟨after, performed, rfl⟩ := performed
  have inherits := effect_inherits childless performed
  exact ⟨inherits.vars, inherits.launches, inherits.out, inherits.processes⟩

end World

end Luhmen.Manager
