/-
# Manager.Rehearsal -- runs that are written down

A list of `Happening`s is a run of the parent VM with everything in it: which calls start,
how many of their commands are served, which PID and start time a launch gets, how the
launched processes go on, and when a call is killed or the parent VM reboots.  `play`
follows such a list from scene to scene, and stops where something cannot happen.

`plays_reaches`: what a list leads to is reached.  Under conditions a `Rehearsal` checks
each command before it is served.
-/
import Luhmen.Manager.Runs

set_option autoImplicit false

namespace Luhmen.Manager

open Luhmen.Theory

inductive Happening where
  | starts (call : Call)
  | serves (commands : Nat)
  | launches (pid startTime : Nat)
  | opens (pid : Pid)
  | creates (pid : Pid)
  | logOpens (pid : Pid)
  | meets (reader writer : Pid)
  | moves (pid : Pid) (cgroup : Bytes)
  | exits (pid : Pid)
  | finishes
  | killed
  | reboots

/-- What can happen while a call goes on. -/
def Happening.isInside : Happening → Bool
  | .starts _ | .finishes | .killed | .reboots => false
  | _ => true

/-- A parent VM, what runs in it, and the PIDs and start times used since the boot. -/
structure Scene where
  world : World
  running : Option (Call × Program Commands Exit)
  used : List (Pid × Nat)

abbrev Scene.machine (conditions : Conditions) (scene : Scene) :
    Machine (parentVm conditions) Call Exit :=
  ⟨scene.world, scene.running⟩

namespace World

/-- A new process at a PID. -/
def spawned (w : World) (pid : Pid) (process : Process) : World :=
  { w.setProcess pid (some process) with
    used := fun p t => w.used p t ∨ (p = pid ∧ t = process.startTime) }

/-- A launch that gets this PID and start time. -/
def launched (w : World) (pid startTime : Nat) : (command : Command) → Option (command.Reply × World)
  | .spawnLogger id => some (some pid, w.spawned pid ⟨startTime, .logShell, id, none, w.service⟩)
  | .spawnJailer id _ _ _ _ => some (some pid, { w with
      launches := w.launches + 1
      vars := { w.vars with launch := some w.launches } }.spawned pid
        ⟨startTime, .shell, id, some w.launches, w.service⟩)
  | _ => none

theorem launched_exec {w t : World} {pid startTime : Nat} {command : Command}
    {reply : command.Reply} (free : w.processes pid = none) (unused : ¬ w.used pid startTime)
    (launch : w.launched pid startTime command = some (reply, t)) :
    exec command w reply { t with matched := matchedBy command reply w.matched } := by
  cases command with
  | spawnLogger id =>
    obtain ⟨rfl, rfl⟩ := Prod.mk.inj (Option.some.inj launch)
    exact ⟨_, .inl ⟨pid, startTime, rfl, free, unused, rfl⟩, rfl⟩
  | spawnJailer id uid gid vcpus memoryMib =>
    obtain ⟨rfl, rfl⟩ := Prod.mk.inj (Option.some.inj launch)
    exact ⟨_, .inl ⟨pid, startTime, rfl, free, unused, rfl⟩, rfl⟩
  | _ => cases launch

/-- The process at a PID goes on to another stage, if it can. -/
def goesOn (w : World) (pid : Pid) (next : Stage → Pipe → Option Stage) : Option World :=
  match w.processes pid with
  | none => none
  | some process =>
    (next process.stage (w.pipe process.vm)).map fun stage =>
      w.setProcess pid (some { process with stage })

def opening : Stage → Pipe → Option Stage
  | .shell, .fifo fifo => some (.opening fifo)
  | _, _ => none

def creating : Stage → Pipe → Option Stage
  | .shell, .absent => some .jailer
  | .shell, .file => some .jailer
  | _, _ => none

def logOpening : Stage → Pipe → Option Stage
  | .logShell, .fifo fifo => some (.logOpening fifo)
  | _, _ => none

def reading (fifo : Inode) : Stage → Pipe → Option Stage
  | .logOpening other, _ => if other = fifo then some (.logReading fifo) else none
  | _, _ => none

def written (fifo : Inode) : Stage → Pipe → Option Stage
  | .opening other, _ => if other = fifo then some .jailer else none
  | _, _ => none

/-- A reader and a writer that wait for one pipe. -/
def met (w : World) (reader writer : Pid) : Option World :=
  match w.processes reader with
  | some process =>
    match process.stage with
    | .logOpening fifo =>
      (w.goesOn reader (reading fifo)).bind fun between => between.goesOn writer (written fifo)
    | _ => none
  | none => none

/-- A shell that finds no pipe makes a file. -/
def created (w : World) (pid : Pid) : Option World :=
  match w.processes pid with
  | some process => (w.goesOn pid creating).map fun after =>
    { after with pipe := Function.update after.pipe process.vm .file }
  | none => none

def moved (w : World) (pid : Pid) (cgroup : Bytes) : Option World :=
  match w.processes pid with
  | some process =>
    if process.stage = .jailer then some (w.setProcess pid (some { process with cgroup })) else none
  | none => none

section Stages

variable {stage after : Stage} {pipe : Pipe} {fifo : Inode}

theorem opening_some (is : opening stage pipe = some after) :
    ∃ fifo, stage = .shell ∧ pipe = .fifo fifo ∧ after = .opening fifo := by
  cases stage <;> cases pipe <;> cases is
  exact ⟨_, rfl, rfl, rfl⟩

theorem creating_some (is : creating stage pipe = some after) :
    stage = .shell ∧ (∀ fifo, pipe ≠ .fifo fifo) ∧ after = .jailer := by
  cases stage <;> cases pipe <;> cases is
  · exact ⟨rfl, fun fifo is => (nomatch is), rfl⟩
  · exact ⟨rfl, fun fifo is => (nomatch is), rfl⟩

theorem logOpening_some (is : logOpening stage pipe = some after) :
    ∃ fifo, stage = .logShell ∧ pipe = .fifo fifo ∧ after = .logOpening fifo := by
  cases stage <;> cases pipe <;> cases is
  exact ⟨_, rfl, rfl, rfl⟩

theorem reading_some (is : reading fifo stage pipe = some after) :
    stage = .logOpening fifo ∧ after = .logReading fifo := by
  cases stage with
  | logOpening other =>
    obtain ⟨rfl, same⟩ := Option.ite_none_right_eq_some.1 is
    exact ⟨rfl, (Option.some.inj same).symm⟩
  | _ => cases is

theorem written_some (is : written fifo stage pipe = some after) :
    stage = .opening fifo ∧ after = .jailer := by
  cases stage with
  | opening other =>
    obtain ⟨rfl, same⟩ := Option.ite_none_right_eq_some.1 is
    exact ⟨rfl, (Option.some.inj same).symm⟩
  | _ => cases is

end Stages

variable {w t : World} {pid : Pid}

theorem goesOn_advances {next : Stage → Pipe → Option Stage} (goes : w.goesOn pid next = some t) :
    ∃ process stage, w.processes pid = some process ∧
      next process.stage (w.pipe process.vm) = some stage ∧
      w.Advances pid process.stage stage t := by
  unfold goesOn at goes
  cases there : w.processes pid with
  | none => simp [there] at goes
  | some process =>
    rw [there] at goes
    obtain ⟨stage, is, rfl⟩ := Option.map_eq_some_iff.1 goes
    exact ⟨process, stage, rfl, is, process, there, rfl, rfl⟩

/-- What happens without the manager. -/
def happens (w : World) : Happening → Option World
  | .opens pid => w.goesOn pid opening
  | .creates pid => w.created pid
  | .logOpens pid => w.goesOn pid logOpening
  | .meets reader writer => w.met reader writer
  | .moves pid cgroup => w.moved pid cgroup
  | .exits pid => some (w.setProcess pid none)
  | .starts _ | .serves _ | .launches _ _ | .finishes | .killed | .reboots => none

theorem happens_env {happening : Happening} (happens : w.happens happening = some t) :
    Env w t := by
  cases happening with
  | opens pid =>
    obtain ⟨process, stage, there, is, advances⟩ := goesOn_advances happens
    obtain ⟨fifo, was, pipe, rfl⟩ := opening_some is
    exact .opens there pipe (was ▸ advances)
  | logOpens pid =>
    obtain ⟨process, stage, there, is, advances⟩ := goesOn_advances happens
    obtain ⟨fifo, was, pipe, rfl⟩ := logOpening_some is
    exact .logOpens there pipe (was ▸ advances)
  | creates pid =>
    simp only [World.happens, created] at happens
    split at happens
    case h_1 process there =>
      obtain ⟨after, goes, rfl⟩ := Option.map_eq_some_iff.1 happens
      obtain ⟨same, stage, there', is, advances⟩ := goesOn_advances goes
      obtain rfl := Option.some.inj (there.symm.trans there')
      obtain ⟨was, noPipe, rfl⟩ := creating_some is
      exact .creates there noPipe (was ▸ advances)
    case h_2 => cases happens
  | meets reader writer =>
    simp only [World.happens, met] at happens
    split at happens
    case h_1 process there =>
      split at happens
      case h_1 fifo _ =>
        obtain ⟨between, goes, further⟩ := Option.bind_eq_some_iff.1 happens
        obtain ⟨_, stage, _, is, reads⟩ := goesOn_advances goes
        obtain ⟨was, rfl⟩ := reading_some is
        obtain ⟨_, stage, _, is, writes⟩ := goesOn_advances further
        obtain ⟨was', rfl⟩ := written_some is
        exact .meet (was ▸ reads) (was' ▸ writes)
      case h_2 => cases happens
    case h_2 => cases happens
  | moves pid cgroup =>
    simp only [World.happens, moved] at happens
    split at happens
    case h_1 process there =>
      obtain ⟨jailer, is⟩ := Option.ite_none_right_eq_some.1 happens
      obtain rfl := Option.some.inj is
      exact .moves cgroup there jailer
    case h_2 => cases happens
  | exits pid =>
    cases happens
    exact .exit pid
  | starts | serves | launches | finishes | killed | reboots => cases happens

/-- What happens besides launches nothing that is counted here. -/
theorem goesOn_used {next : Stage → Pipe → Option Stage} (goes : w.goesOn pid next = some t) :
    t.used = w.used := by
  obtain ⟨_, _, _, _, _, _, _, rfl⟩ := goesOn_advances goes
  rfl

theorem happens_used {happening : Happening} (happens : w.happens happening = some t) :
    t.used = w.used := by
  cases happening with
  | opens pid | logOpens pid => exact goesOn_used happens
  | creates pid =>
    simp only [World.happens, created] at happens
    split at happens
    case h_1 =>
      obtain ⟨after, goes, rfl⟩ := Option.map_eq_some_iff.1 happens
      have same := goesOn_used goes
      exact same
    case h_2 => cases happens
  | meets reader writer =>
    simp only [World.happens, met] at happens
    split at happens
    case h_1 =>
      split at happens
      case h_1 =>
        obtain ⟨between, goes, further⟩ := Option.bind_eq_some_iff.1 happens
        exact (goesOn_used further).trans (goesOn_used goes)
      case h_2 => cases happens
    case h_2 => cases happens
  | moves pid cgroup =>
    simp only [World.happens, moved] at happens
    split at happens
    case h_1 =>
      obtain ⟨_, is⟩ := Option.ite_none_right_eq_some.1 happens
      obtain rfl := Option.some.inj is
      rfl
    case h_2 => cases happens
  | exits pid =>
    cases happens
    rfl
  | starts | serves | launches | finishes | killed | reboots => cases happens

theorem launched_at {pid startTime other : Nat} {command : Command} {reply : command.Reply}
    {process : Process} (launch : w.launched pid startTime command = some (reply, t))
    (free : w.processes other = none) (there : t.processes other = some process) :
    other = pid := by
  by_contra away
  cases command with
  | spawnLogger | spawnJailer =>
    obtain ⟨rfl, rfl⟩ := Prod.mk.inj (Option.some.inj launch)
    have still : w.processes other = some process :=
      (Function.update_of_ne away _ _).symm.trans there
    cases free.symm.trans still
  | _ => cases launch

theorem launched_vms {pid startTime : Nat} {command : Command} {reply : command.Reply}
    (launch : w.launched pid startTime command = some (reply, t)) : t.vms = w.vms := by
  cases command with
  | spawnLogger | spawnJailer =>
    obtain ⟨rfl, rfl⟩ := Prod.mk.inj (Option.some.inj launch)
    rfl
  | _ => cases launch

theorem launched_used {pid startTime p time : Nat} {command : Command} {reply : command.Reply}
    (launch : w.launched pid startTime command = some (reply, t)) (isUsed : t.used p time) :
    w.used p time ∨ (p = pid ∧ time = startTime) := by
  cases command with
  | spawnLogger | spawnJailer =>
    obtain ⟨rfl, rfl⟩ := Prod.mk.inj (Option.some.inj launch)
    exact isUsed
  | _ => cases launch

/-- Nobody comes at a free PID. -/
def Deserts (w t : World) : Prop :=
  ∀ pid, w.processes pid = none → t.processes pid = none

theorem deserts_setProcess {process : Option Process}
    (was : process ≠ none → w.processes pid ≠ none) : w.Deserts (w.setProcess pid process) := by
  intro other free
  by_cases same : other = pid
  · subst same
    rw [setProcess_self]
    by_contra there
    exact was there free
  · rwa [setProcess_of_ne _ same]

theorem goesOn_deserts {next : Stage → Pipe → Option Stage} (goes : w.goesOn pid next = some t) :
    w.Deserts t := by
  obtain ⟨_, _, _, _, _, there, _, rfl⟩ := goesOn_advances goes
  exact deserts_setProcess fun _ => by simp [there]

theorem happens_deserts {happening : Happening} (happens : w.happens happening = some t) :
    w.Deserts t := by
  cases happening with
  | opens pid | logOpens pid => exact goesOn_deserts happens
  | creates pid =>
    simp only [World.happens, created] at happens
    split at happens
    case h_1 =>
      obtain ⟨after, goes, rfl⟩ := Option.map_eq_some_iff.1 happens
      have deserts := goesOn_deserts goes
      exact deserts
    case h_2 => cases happens
  | meets reader writer =>
    simp only [World.happens, met] at happens
    split at happens
    case h_1 =>
      split at happens
      case h_1 =>
        obtain ⟨between, goes, further⟩ := Option.bind_eq_some_iff.1 happens
        exact fun pid free => goesOn_deserts further pid (goesOn_deserts goes pid free)
      case h_2 => cases happens
    case h_2 => cases happens
  | moves pid cgroup =>
    simp only [World.happens, moved] at happens
    split at happens
    case h_1 process there =>
      obtain ⟨_, is⟩ := Option.ite_none_right_eq_some.1 happens
      obtain rfl := Option.some.inj is
      exact deserts_setProcess fun _ => by simp [there]
    case h_2 => cases happens
  | exits pid =>
    cases happens
    exact deserts_setProcess fun is => absurd rfl is
  | starts | serves | launches | finishes | killed | reboots => cases happens

theorem signalled_deserts (w : World) (signal : Signal) (pid : Pid) :
    w.Deserts (w.signalled signal pid) := by
  cases signal with
  | term => exact fun _ free => free
  | kill => exact deserts_setProcess fun is => absurd rfl is

theorem serve_deserts (answers : Answers) (command : Command) (w : World) :
    w.Deserts (serve answers command w).2 := by
  show w.Deserts (perform answers command w).2
  cases command with
  | mkdirVm id | linkDisk id | makePipe id =>
    show w.Deserts (ite _ _ _ : Bool × World).2
    split <;> exact fun _ free => free
  | renameState id =>
    show w.Deserts (w.moveState id).2
    unfold moveState
    split
    · split <;> exact fun _ free => free
    · exact fun _ free => free
  | renameDisk id =>
    show w.Deserts (w.moveDisk id).2
    unfold moveDisk
    split <;> exact fun _ free => free
  | signal signal pid => exact signalled_deserts w signal pid
  | signalCgroup recorded signal pid =>
    cases recorded with
    | false | true => exact fun other free => signalled_deserts _ signal pid other free
  | signalRecorded signal pid =>
    show w.Deserts (w.signalledRecorded signal pid)
    unfold signalledRecorded
    split
    · exact fun other free => signalled_deserts _ signal _ other free
    · exact fun _ free => free
  | _ => exact fun _ free => free

theorem signalled_used (w : World) (signal : Signal) (pid : Pid) :
    (w.signalled signal pid).used = w.used := by
  cases signal <;> rfl

/-- What is served launches nothing. -/
theorem serve_used (answers : Answers) (command : Command) (w : World) :
    (serve answers command w).2.used = w.used := by
  show (perform answers command w).2.used = w.used
  cases command with
  | mkdirVm id | linkDisk id | makePipe id =>
    show (ite _ _ _ : Bool × World).2.used = w.used
    split <;> rfl
  | renameState id =>
    show (w.moveState id).2.used = w.used
    unfold moveState
    split
    · split <;> rfl
    · rfl
  | renameDisk id =>
    show (w.moveDisk id).2.used = w.used
    unfold moveDisk
    split <;> rfl
  | signal signal pid => exact signalled_used w signal pid
  | signalCgroup recorded signal pid =>
    cases recorded with
    | false | true => exact signalled_used _ signal pid
  | signalRecorded signal pid =>
    show (w.signalledRecorded signal pid).used = w.used
    unfold signalledRecorded
    split
    · exact signalled_used _ signal _
    · rfl
  | _ => rfl

end World

/-! ## Scenes -/

/-- The commands that are served under conditions, and the launches. -/
structure Rehearsal (conditions : Conditions) where
  answers : Answers
  serves : Command → World → Bool
  launches : Command → World → Pid → Nat → Bool
  served : ∀ command w, w.Good anything → serves command w = true →
    conditions.exec command w (World.serve answers command w).1 (World.serve answers command w).2
  launched : ∀ command w pid startTime reply t, w.Good anything →
    launches command w pid startTime = true → w.launched pid startTime command = some (reply, t) →
    conditions.exec command w reply { t with matched := World.matchedBy command reply w.matched }
  happened : ∀ happening w t, w.happens happening = some t → conditions.env w t

namespace Rehearsal

variable {conditions : Conditions} (rehearsal : Rehearsal conditions)

/-- The next commands of a program, one after another. -/
def serve : Nat → Program Commands Exit → World → Option (Program Commands Exit × World)
  | 0, program, w => some (program, w)
  | _ + 1, .done exit, w => some (.done exit, w)
  | n + 1, .call command next, w =>
    if rehearsal.serves command w then
      let replied := World.serve rehearsal.answers command w
      serve n (next replied.1) replied.2
    else none

/-- What happens next. -/
def play (scene : Scene) : Happening → Option Scene
  | .starts call =>
    match scene.running with
    | none => some { scene with running := some (call, manager call) }
    | some _ => none
  | .serves n =>
    match scene.running with
    | some (call, program) => (rehearsal.serve n program scene.world).map fun (rest, w) =>
      { scene with
        world := w
        running := some (call, rest) }
    | none => none
  | .launches pid startTime =>
    match scene.running with
    | some (call, .call command next) =>
      if scene.world.processes pid = none ∧ (pid, startTime) ∉ scene.used ∧
          rehearsal.launches command scene.world pid startTime then
        (scene.world.launched pid startTime command).map fun (reply, w) =>
          ⟨{ w with matched := World.matchedBy command reply scene.world.matched },
            some (call, next reply), (pid, startTime) :: scene.used⟩
      else none
    | _ => none
  | .finishes =>
    match scene.running with
    | some (_, .done _) => some { scene with running := none }
    | _ => none
  | .killed =>
    match scene.running with
    | some _ => some { scene with running := none }
    | none => none
  | .reboots =>
    match scene.running with
    | none => some ⟨{ scene.world with
        processes := fun _ => none
        used := fun _ _ => False }, none, []⟩
    | some _ => none
  | happening => (scene.world.happens happening).map fun w => { scene with world := w }

def plays : Scene → List Happening → Option Scene
  | scene, [] => some scene
  | scene, happening :: rest => (rehearsal.play scene happening).bind fun next => plays next rest

/-! ## What is played is reached -/

/-- A scene that a run from `start` leads to, which itself comes from an empty store, with what
is used since the boot and by whom. -/
structure Ready (start : Machine (parentVm conditions) Call Exit) (scene : Scene) : Prop where
  rooted : ∃ world : World, world.Empty ∧
    (parentVm conditions).Reaches manager ⟨world, none⟩ start
  reached : (parentVm conditions).Reaches manager start (scene.machine conditions)
  listed : scene.world.Listed rehearsal.answers
  used : ∀ pid startTime, scene.world.used pid startTime → (pid, startTime) ∈ scene.used
  living : ∀ pid, scene.world.processes pid ≠ none → pid ∈ scene.used.map Prod.fst

variable {rehearsal} {start : Machine (parentVm conditions) Call Exit} {scene after : Scene}

theorem Ready.good (ready : rehearsal.Ready start scene) : scene.world.Good anything := by
  obtain ⟨world, empty, rooted⟩ := ready.rooted
  exact @runs_good conditions anything Call id (anything_meets conditions)
    allowed_anything _ _ rfl (empty.good anything) (rooted.trans ready.reached)

/-- It is the start of what comes behind it. -/
theorem Ready.onward (ready : rehearsal.Ready start scene) :
    rehearsal.Ready (scene.machine conditions) scene :=
  ⟨ready.rooted.imp fun _ rooted => ⟨rooted.1, rooted.2.trans ready.reached⟩, .refl, ready.listed,
    ready.used, ready.living⟩

/-- One served command after another. -/
theorem Ready.serve {call : Call} {n : Nat} {program rest : Program Commands Exit}
    {w t : World} {used : List (Pid × Nat)}
    (ready : rehearsal.Ready start ⟨w, some (call, program), used⟩)
    (serves : rehearsal.serve n program w = some (rest, t)) :
    rehearsal.Ready start ⟨t, some (call, rest), used⟩ ∧
      (parentVm conditions).Leads (program, w) (rest, t) := by
  induction n generalizing program w with
  | zero =>
    obtain ⟨rfl, rfl⟩ := Prod.mk.inj (Option.some.inj serves)
    exact ⟨ready, .refl⟩
  | succ n ih =>
    cases program with
    | done exit =>
      obtain ⟨rfl, rfl⟩ := Prod.mk.inj (Option.some.inj serves)
      exact ⟨ready, .refl⟩
    | call command next =>
      obtain ⟨checked, further⟩ := Option.ite_none_right_eq_some.1 serves
      have meets := rehearsal.served command w ready.good checked
      have performed := World.serve_exec ready.listed command
      have next := ih ⟨ready.rooted, ready.reached.tail (.call ⟨performed, meets⟩),
        World.serve_listed ready.listed command, fun pid startTime isUsed =>
          ready.used pid startTime (World.serve_used rehearsal.answers command w ▸ isUsed),
        fun pid there => ready.living pid fun free =>
          there (World.serve_deserts rehearsal.answers command w pid free)⟩ further
      exact ⟨next.1, .head (.call ⟨performed, meets⟩) next.2⟩

/-- A launch. -/
theorem Ready.launch {call : Call} {command : Command}
    {next : command.Reply → Program Commands Exit} {w t : World} {used : List (Pid × Nat)}
    {pid startTime : Nat} {reply : command.Reply}
    (ready : rehearsal.Ready start ⟨w, some (call, .call command next), used⟩)
    (free : w.processes pid = none) (unused : (pid, startTime) ∉ used)
    (checked : rehearsal.launches command w pid startTime = true)
    (launch : w.launched pid startTime command = some (reply, t)) :
    rehearsal.Ready start
        ⟨{ t with matched := World.matchedBy command reply w.matched }, some (call, next reply),
          (pid, startTime) :: used⟩ ∧
      (parentVm conditions).Leads (.call command next, w)
        (next reply, { t with matched := World.matchedBy command reply w.matched }) := by
  have performed := World.launched_exec free (fun isUsed => unused (ready.used _ _ isUsed)) launch
  have meets := rehearsal.launched command w pid startTime reply t ready.good checked launch
  refine ⟨⟨ready.rooted, ready.reached.tail (.call ⟨performed, meets⟩), ?listed, ?used, ?living⟩,
    .single (.call ⟨performed, meets⟩)⟩
  case listed => exact fun id member => ready.listed id (World.launched_vms launch ▸ member)
  case used =>
    intro p time isUsed
    obtain before | ⟨rfl, rfl⟩ := World.launched_used launch isUsed
    · exact List.mem_cons_of_mem _ (ready.used p time before)
    · exact List.mem_cons_self
  case living =>
    intro p there
    obtain ⟨process, there⟩ := Option.ne_none_iff_exists'.1 there
    by_cases free : w.processes p = none
    · obtain rfl := World.launched_at launch free there
      exact List.mem_cons_self
    · exact List.mem_cons_of_mem _ (ready.living p free)

theorem Ready.happens {happening : Happening} {t : World} (ready : rehearsal.Ready start scene)
    (happens : scene.world.happens happening = some t) :
    rehearsal.Ready start { scene with world := t } := by
  have env := World.happens_env happens
  refine ⟨ready.rooted, ready.reached.tail (.env ⟨env, rehearsal.happened happening _ _ happens⟩), ?_,
    fun pid startTime isUsed => ready.used pid startTime (World.happens_used happens ▸ isUsed),
    fun pid there => ready.living pid fun free => there (World.happens_deserts happens pid free)⟩
  intro id member
  obtain ⟨_, _, _, _, rfl⟩ := env.untouched
  exact ready.listed id member

theorem Ready.play {happening : Happening}
    (ready : rehearsal.Ready start scene) (plays : rehearsal.play scene happening = some after) :
    rehearsal.Ready start after := by
  obtain ⟨w, running, used⟩ := scene
  cases happening with
  | starts call =>
    cases running with
    | some _ => cases plays
    | none =>
      obtain rfl := Option.some.inj plays
      exact ⟨ready.rooted, ready.reached.tail (.start call), ready.listed, ready.used, ready.living⟩
  | serves n =>
    cases running with
    | none => cases plays
    | some running =>
      obtain ⟨call, program⟩ := running
      obtain ⟨⟨rest, t⟩, serves, rfl⟩ := Option.map_eq_some_iff.1 plays
      exact (ready.serve serves).1
  | launches pid startTime =>
    cases running with
    | none => cases plays
    | some running =>
      obtain ⟨call, program⟩ := running
      cases program with
      | done exit => cases plays
      | call command next =>
        obtain ⟨⟨free, unused, checked⟩, mapped⟩ := Option.ite_none_right_eq_some.1 plays
        obtain ⟨⟨reply, t⟩, launch, rfl⟩ := Option.map_eq_some_iff.1 mapped
        exact (ready.launch free unused checked launch).1
  | finishes =>
    cases running with
    | none => cases plays
    | some running =>
      obtain ⟨call, program⟩ := running
      cases program with
      | call command next => cases plays
      | done exit =>
        obtain rfl := Option.some.inj plays
        exact ⟨ready.rooted, ready.reached.tail .finish, ready.listed, ready.used, ready.living⟩
  | killed =>
    cases running with
    | none => cases plays
    | some running =>
      obtain rfl := Option.some.inj plays
      exact ⟨ready.rooted, ready.reached.tail .kill, ready.listed, ready.used, ready.living⟩
  | reboots =>
    cases running with
    | some _ => cases plays
    | none =>
      obtain rfl := Option.some.inj plays
      exact ⟨ready.rooted, ready.reached.tail (.idle .reboot), ready.listed, fun _ _ isUsed => isUsed.elim,
        fun _ there => absurd rfl there⟩
  | opens | creates | logOpens | meets | moves =>
    obtain ⟨t, happens, rfl⟩ := Option.map_eq_some_iff.1 plays
    exact ready.happens happens
  | exits pid =>
    obtain rfl := Option.some.inj plays
    exact @Ready.happens _ _ _ _ (.exits pid) _ ready rfl

/-- **What is played is reached.** -/
theorem Ready.plays {happenings : List Happening}
    (ready : rehearsal.Ready start scene) (plays : rehearsal.plays scene happenings = some after) :
    rehearsal.Ready start after := by
  induction happenings generalizing scene with
  | nil =>
    obtain rfl := Option.some.inj plays
    exact ready
  | cons happening rest ih =>
    obtain ⟨next, first, further⟩ := Option.bind_eq_some_iff.1 plays
    exact ih (ready.play first) further

/-- What happens inside a call leads from what is left of it to what is left then. -/
theorem Ready.inside {call : Call} {happening : Happening}
    {program : Program Commands Exit} {w : World} {used : List (Pid × Nat)}
    (ready : rehearsal.Ready start ⟨w, some (call, program), used⟩)
    (inside : happening.isInside = true)
    (plays : rehearsal.play ⟨w, some (call, program), used⟩ happening = some after) :
    ∃ rest, after.running = some (call, rest) ∧
      (parentVm conditions).Leads (program, w) (rest, after.world) := by
  have happened : ∀ {t : World}, w.happens happening = some t →
      (parentVm conditions).Leads (program, w) (program, t) := fun happens =>
    .single (.env ⟨World.happens_env happens, rehearsal.happened happening _ _ happens⟩)
  cases happening with
  | serves n =>
    obtain ⟨⟨rest, t⟩, serves, rfl⟩ := Option.map_eq_some_iff.1 plays
    exact ⟨rest, rfl, (ready.serve serves).2⟩
  | launches pid startTime =>
    cases program with
    | done exit => cases plays
    | call command next =>
      obtain ⟨⟨free, unused, checked⟩, mapped⟩ := Option.ite_none_right_eq_some.1 plays
      obtain ⟨⟨reply, t⟩, launch, rfl⟩ := Option.map_eq_some_iff.1 mapped
      exact ⟨next reply, rfl, (ready.launch free unused checked launch).2⟩
  | opens | creates | logOpens | meets | moves =>
    obtain ⟨t, happens, rfl⟩ := Option.map_eq_some_iff.1 plays
    exact ⟨program, rfl, happened happens⟩
  | exits pid =>
    obtain rfl := Option.some.inj plays
    exact ⟨program, rfl, happened rfl⟩
  | starts | finishes | killed | reboots => cases inside

theorem Ready.leads {call : Call} {happenings : List Happening}
    {program : Program Commands Exit} {w : World} {used : List (Pid × Nat)}
    (ready : rehearsal.Ready start ⟨w, some (call, program), used⟩)
    (inside : ∀ happening ∈ happenings, happening.isInside = true)
    (plays : rehearsal.plays ⟨w, some (call, program), used⟩ happenings = some after) :
    ∃ rest, after.running = some (call, rest) ∧
      (parentVm conditions).Leads (program, w) (rest, after.world) := by
  induction happenings generalizing program w used with
  | nil =>
    obtain rfl := Option.some.inj plays
    exact ⟨program, rfl, .refl⟩
  | cons happening others ih =>
    obtain ⟨next, first, further⟩ := Option.bind_eq_some_iff.1 plays
    have now := ready.play first
    obtain ⟨rest, running, leads⟩ := ready.inside (inside _ List.mem_cons_self) first
    obtain ⟨t, _, used'⟩ := next
    cases running
    obtain ⟨last, running', leads'⟩ := ih now (fun other is => inside other (.tail _ is)) further
    exact ⟨last, running', leads.trans leads'⟩

end Rehearsal

/-- The scene in which a call has just started. -/
def Scene.calling (scene : Scene) (call : Call) : Scene :=
  { scene with running := some (call, manager call) }

/-- A call is done, with this exit. -/
def Scene.isDone (scene : Scene) (exit : Exit) : Bool :=
  scene.running.any fun running => running.2.value? = some exit

theorem Scene.isDone_running {scene : Scene} {call : Call} {rest : Program Commands Exit} {exit : Exit}
    (running : scene.running = some (call, rest)) (done : scene.isDone exit = true) :
    rest = .done exit := by
  rw [Scene.isDone, running, Option.any_some, decide_eq_true_eq] at done
  exact Program.eq_done done

section Calls

variable {conditions : Conditions} {rehearsal : Rehearsal conditions}
  {start : Machine (parentVm conditions) Call Exit}
  {scene after : Scene} {call : Call} {happenings : List Happening}

/-- A call that is played from its start on. -/
theorem Rehearsal.Ready.begun (ready : rehearsal.Ready start scene)
    (alone : scene.running = none) (inside : ∀ happening ∈ happenings, happening.isInside = true)
    (plays : rehearsal.plays (scene.calling call) happenings = some after) :
    rehearsal.Ready start after ∧ ∃ rest, after.running = some (call, rest) ∧
      (parentVm conditions).Leads (manager call, scene.world) (rest, after.world) := by
  obtain ⟨w, _, used⟩ := scene
  subst alone
  have called : rehearsal.Ready start (Scene.calling ⟨w, none, used⟩ call) :=
    ⟨ready.rooted, ready.reached.tail (.start call), ready.listed, ready.used, ready.living⟩
  exact ⟨called.plays plays, called.leads inside plays⟩

/-- To its end. -/
theorem Rehearsal.Ready.called (ready : rehearsal.Ready start scene)
    (alone : scene.running = none) {exit : Exit}
    (inside : ∀ happening ∈ happenings, happening.isInside = true)
    (plays : rehearsal.plays (scene.calling call) happenings = some after)
    (done : after.isDone exit = true) :
    rehearsal.Ready start after ∧ after.running = some (call, .done exit) ∧
      (parentVm conditions).Leads (manager call, scene.world) (.done exit, after.world) := by
  obtain ⟨ended, rest, running, leads⟩ := ready.begun alone inside plays
  obtain rfl := Scene.isDone_running running done
  exact ⟨ended, running, leads⟩

/-- The scene behind one, wherever it stopped. -/
theorem Rehearsal.Ready.idle (ready : rehearsal.Ready start scene) {program : Program Commands Exit}
    (running : scene.running = some (call, program)) :
    rehearsal.Ready start ⟨scene.world, none, scene.used⟩ := by
  obtain ⟨w, _, used⟩ := scene
  obtain rfl := running
  exact ⟨ready.rooted, ready.reached.tail .kill, ready.listed, ready.used, ready.living⟩

end Calls

/-- Nothing is checked where nothing is restricted. -/
def freely (answers : Answers) : Rehearsal unrestricted where
  answers
  serves _ _ := true
  launches _ _ _ _ := true
  served _ _ _ _ := trivial
  launched _ _ _ _ _ _ _ _ _ := trivial
  happened _ _ _ _ := trivial

namespace Two

def startA : Bytes :=
  ascii "start id=a"

theorem startA_parsed : parseRequest startA =
    .ok (.start, ⟨ascii "a", [], [], ascii "1", ascii "512", ascii "0"⟩) := by
  decide +kernel

def startB : Bytes :=
  ascii "start id=b"

/-- Before anything is asked. -/
theorem ready {conditions : Conditions} {rehearsal : Rehearsal conditions} :
    rehearsal.Ready ⟨empty, none⟩ ⟨empty, none, []⟩ :=
  ⟨⟨empty, empty_empty, .refl⟩, .refl, fun _ member => absurd member (Finset.notMem_empty _),
    fun _ _ isUsed => isUsed.elim, fun _ there => absurd rfl there⟩

/-- A request without launches. -/
def request (self : Pid) (request : Bytes) : List Happening :=
  [.starts (.request self request), .serves 60, .finishes]

/-- A start whose logger gets the PID 100 and whose VMM the PID 101: both open the pipe, and
the jailer enters its cgroup before the manager looks. -/
def booting (commands : Nat) (id : Id) : List Happening :=
  [.serves commands, .launches 100 5, .serves 1, .launches 101 6, .logOpens 100, .opens 101,
    .meets 100 101, .moves 101 (cgroupPath (ascii "system.slice/luhmen") id), .serves 60]

def boot (self : Pid) (request : Bytes) (commands : Nat) (id : Id) : List Happening :=
  .starts (.request self request) :: booting commands id ++ [.finishes]

end Two

end Luhmen.Manager
