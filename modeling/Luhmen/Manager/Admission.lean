/-
# Manager.Admission -- what runs fits the parent VM

`admission_safe`: as long as microVMs are created with plain numbers, what the living
VMMs were given never exceeds the CPUs of the parent VM, and where anything lives, its
memory leaves the reserve.  The load is not stored anywhere; a start adds it up from
records and processes, and `Store.Sound` carries it from there.

`checkStartResources_iff` is the check of a start by itself: where no recorded VMM runs
and the CPUs and the memory of the parent VM can be read, what it passes.
-/
import Luhmen.Manager.Lifetime

set_option autoImplicit false

namespace Luhmen.Manager

open Luhmen.Theory

namespace World

/-- The record says that the microVM runs, and its process is still the VMM that the
record was written for. -/
def Runs (w : World) (id : Id) : Prop :=
  ∃ content pid process number, w.state id = some content ∧
    stateValue .status content = ascii "running" ∧ stateValue .pid content = decimal pid ∧
    w.processes pid = some process ∧ process.launch = some number ∧ w.owner id = some number

open Classical in
/-- What the records of the microVMs that run add up to. -/
noncomputable def total (w : World) (amount : Bytes → Nat) : Nat :=
  ∑ id ∈ w.vms with w.Runs id, ((w.state id).map amount).getD 0

def vcpus (content : Bytes) : Nat :=
  value (stateValue .vcpus content)

def memoryMib (content : Bytes) : Nat :=
  value (stateValue .memoryMib content) + VMM_MEMORY_MIB

variable {rules : Rules} {w : World}

theorem Good.status_running (good : w.Good rules) {id : Id} {content : Bytes}
    (there : w.state id = some content) (running : Manager.stateValue .status content = ascii "running") :
    ∃ vmm, (Record.read content).status = .running vmm := by
  rw [good.value there] at running
  generalize Record.read content = record at running
  obtain ⟨status, settings, uid⟩ := record
  cases status with
  | running vmm => exact ⟨vmm, rfl⟩
  | created => exact absurd (show ascii "created" = ascii "running" from running) (by decide)
  | stopped => exact absurd (show ascii "stopped" = ascii "running" from running) (by decide)

theorem Good.runs_iff (good : w.Good rules) {id : Id} : w.Runs id ↔ w.store.Live id := by
  constructor
  · rintro ⟨content, pid, process, number, there, status, isPid, running, launch, owner⟩
    obtain ⟨vmm, isRunning⟩ := good.status_running there status
    have samePid : vmm.pid = pid := by
      rw [good.value there] at isPid
      generalize Record.read content = record at isPid isRunning
      obtain ⟨_, settings, uid⟩ := record
      obtain rfl := isRunning
      exact decimal_injective isPid
    exact ⟨_, vmm, process, number, ⟨World.store_record_of_state there, isRunning⟩, samePid ▸ running,
      launch, owner⟩
  · rintro ⟨record, vmm, process, number, ⟨there, status⟩, running, launch, owner⟩
    obtain ⟨content, holds, rfl⟩ := store_record there
    refine ⟨content, vmm.pid, process, number, holds, ?_, ?_, running, launch, owner⟩
    · rw [good.value holds]
      generalize Record.read content = record at status
      obtain ⟨_, settings, uid⟩ := record
      obtain rfl := status
      rfl
    · rw [good.value holds]
      generalize Record.read content = record at status
      obtain ⟨_, settings, uid⟩ := record
      obtain rfl := status
      rfl

theorem Good.total_eq (good : w.Good rules) {amount : Bytes → Nat} {cost : Settings → Nat}
    (same : ∀ id content, w.state id = some content →
      amount content = cost (Record.read content).settings) :
    w.total amount = w.store.load cost w.vms := by
  classical
  unfold total Store.load
  rw [Finset.sum_filter]
  refine Finset.sum_congr rfl fun id _ => ?_
  unfold Store.share
  simp only [good.runs_iff]
  split
  · show ((w.state id).map amount).getD 0 =
      (((w.state id).map Record.read).map fun record => cost record.settings).getD 0
    cases there : w.state id with
    | none => rfl
    | some content => exact same id content there
  · rfl

theorem Good.total_vcpus (good : w.Good rules) :
    w.total vcpus = w.store.load Settings.cpuCost w.vms :=
  good.total_eq fun id content there => by
    rw [vcpus, good.value there, Record.value_vcpus, Settings.cpuCost]

theorem Good.total_memoryMib (good : w.Good rules) :
    w.total memoryMib = w.store.load Settings.memoryCost w.vms :=
  good.total_eq fun id content there => by
    rw [memoryMib, good.value there, Record.value_memoryMib, Settings.memoryCost, VMM_MEMORY_MIB]

end World

/-! ## Requests with plain numbers -/

/-- Numbers as the CLI writes them. -/
def plainly : Rules := ⟨Settings.Plain, fun _ => True, False⟩

/-- Requests that give `vcpus` and `memory_mib` in decimal without leading zeros. -/
abbrev PlainCall := { call : Call // call.Allowed plainly }

abbrev PlainCall.manager (call : PlainCall) : Program Commands Exit :=
  Manager.manager call.1

/-- **Admission.**  In every run from an empty store, with requests that fail or are killed
anywhere and processes that end at any moment: the microVMs that run were given no more CPUs
than the parent VM has, and either none runs or their memory and the overhead of their VMMs
leave the reserve of 512 MiB. -/
theorem admission_safe {start after : Machine (parentVm unrestricted) PlainCall Exit}
    (alone : start.running = none) (empty : World.Empty start.state)
    (reaches : (parentVm unrestricted).Reaches PlainCall.manager start after) :
    World.total after.state World.vcpus ≤ World.cpus after.state ∧
      (World.total after.state World.memoryMib = 0 ∨
        World.total after.state World.memoryMib + MEMORY_RESERVE_MIB ≤ World.memory after.state) := by
  have good : World.Good plainly after.state :=
    runs_good (Conditions.meets not_false fun _ => trivial) (fun call => call.2) alone (empty.good plainly) reaches
  have plain : plainly.Plain := fun _ => id
  rw [good.total_vcpus, good.total_memoryMib]
  exact ⟨good.sound.cpus plain, good.sound.memory plain⟩

open Classical in
/-- What runs counts. -/
theorem World.le_total {w : World} {id : Id} (member : id ∈ w.vms) (runs : w.Runs id)
    (amount : Bytes → Nat) : ((w.state id).map amount).getD 0 ≤ w.total amount := by
  unfold World.total
  have counted : id ∈ {id ∈ w.vms | w.Runs id} := Finset.mem_filter.2 ⟨member, runs⟩
  exact Finset.single_le_sum (fun other _ => Nat.zero_le (((w.state other).map amount).getD 0)) counted

/-- A microVM runs with its VMM at this PID, to be decided. -/
def World.runsAt (w : World) (id : Id) (pid : Pid) : Bool :=
  (w.state id).any fun content => (w.processes pid).any fun process =>
    process.launch.any fun number => decide (stateValue .status content = ascii "running" ∧
      stateValue .pid content = decimal pid ∧ w.owner id = some number)

theorem World.runsAt_runs {w : World} {id : Id} {pid : Pid} (runsAt : w.runsAt id pid = true) :
    w.Runs id := by
  obtain ⟨content, there, holds⟩ := (Option.any_eq_true _ _).1 runsAt
  obtain ⟨process, running, holds⟩ := (Option.any_eq_true _ _).1 holds
  obtain ⟨number, launch, holds⟩ := (Option.any_eq_true _ _).1 holds
  obtain ⟨status, isPid, owner⟩ := of_decide_eq_true holds
  exact ⟨content, pid, process, number, there, status, isPid, running, launch, owner⟩

/-- A parent VM in which a microVM was created and started. -/
theorem admission_safe_one : ∃ after : Machine (parentVm unrestricted) PlainCall Exit,
    (parentVm unrestricted).Reaches PlainCall.manager ⟨Two.empty, none⟩ after ∧
    World.Runs after.state (ascii "a") ∧
    1 ≤ World.total after.state World.vcpus ∧ World.total after.state World.vcpus ≤ 4 ∧
    256 ≤ World.total after.state World.memoryMib ∧
    World.total after.state World.memoryMib + MEMORY_RESERVE_MIB ≤ 4096 := by
  have played : ((freely Two.answers).plays
      (Scene.calling ⟨Two.empty, none, []⟩ (.request 7 Two.createA)) [.serves 60]).any
      (fun created => created.isDone .ok &&
        ((freely Two.answers).plays (Scene.calling ⟨created.world, none, created.used⟩
          (.request 9 Two.startA)) (Two.booting 50 (ascii "a"))).any fun started =>
            started.isDone .ok && (started.world.runsAt (ascii "a") 101 &&
              decide (ascii "a" ∈ started.world.vms ∧ started.world.cpus = 4 ∧
                started.world.memory = 4096 ∧
                ((started.world.state (ascii "a")).map World.vcpus).getD 0 = 1 ∧
                ((started.world.state (ascii "a")).map World.memoryMib).getD 0 = 256))) = true := by
    decide +kernel
  obtain ⟨created, plays, holds⟩ := (Option.any_eq_true _ _).1 played
  obtain ⟨done, holds⟩ := (Bool.and_eq_true _ _).mp holds
  obtain ⟨started, plays', holds⟩ := (Option.any_eq_true _ _).1 holds
  obtain ⟨done', holds⟩ := (Bool.and_eq_true _ _).mp holds
  obtain ⟨runsAt, holds⟩ := (Bool.and_eq_true _ _).mp holds
  obtain ⟨member, cpus, memory, vcpus, memoryMib⟩ := of_decide_eq_true holds
  obtain ⟨ready, running, creates⟩ := Two.ready.called rfl (by decide) plays done
  obtain ⟨_, _, starts⟩ := (ready.idle running).called rfl (by decide) plays' done'
  have silent : (Call.request 9 Two.startA).creates = none := by
    simp only [Call.creates, Two.startA_parsed]
  have plain : (Call.request 7 Two.createA).Allowed plainly := by
    intro fields creates
    obtain rfl := Option.some.inj ((Two.createA_creates 7).symm.trans creates)
    exact ⟨⟨1, rfl⟩, 128, rfl⟩
  have plain' : (Call.request 9 Two.startA).Allowed plainly := by
    intro fields creates
    rw [silent] at creates
    cases creates
  -- the two calls, as plain ones
  have called : ∀ {call : Call} (plain : call.Allowed plainly) {w t : World},
      (parentVm unrestricted).Leads (manager call, w) (.done .ok, t) →
      (parentVm unrestricted).Reaches PlainCall.manager ⟨w, none⟩
        ⟨t, some (⟨call, plain⟩, .done .ok)⟩ := fun {call} plain {w t} leads =>
    have inside : (parentVm unrestricted).Reaches PlainCall.manager
        ⟨w, some (⟨call, plain⟩, manager call)⟩ ⟨t, some (⟨call, plain⟩, .done .ok)⟩ := leads.reaches
    .head (.start (⟨call, plain⟩ : PlainCall)) inside
  have reaches := ((called plain creates).tail .finish).trans (called plain' starts)
  have runs := World.runsAt_runs runsAt
  have safe := admission_safe rfl Two.empty_empty reaches
  have someCpus := World.le_total member runs World.vcpus
  have someMemory := World.le_total member runs World.memoryMib
  rw [vcpus] at someCpus
  rw [memoryMib] at someMemory
  rw [show World.cpus _ = 4 from cpus, show World.memory _ = 4096 from memory] at safe
  refine ⟨_, reaches, runs, someCpus, safe.1, someMemory, safe.2.resolve_left ?_⟩
  exact fun none => absurd (none ▸ someMemory) (by decide)

/-- A parent VM with less than the reserve, where nothing runs. -/
theorem admission_small_parent :
    ¬ ∀ start after : Machine (parentVm unrestricted) PlainCall Exit, start.running = none →
      World.Empty start.state → (parentVm unrestricted).Reaches PlainCall.manager start after →
      World.total after.state World.vcpus ≤ World.cpus after.state ∧
        (World.total after.state World.memoryMib : Int) ≤
          (World.memory after.state : Int) - MEMORY_RESERVE_MIB := by
  intro all
  have bound := (all ⟨World.fresh 1 256, none⟩ ⟨World.fresh 1 256, none⟩ rfl
    (World.fresh_empty 1 256) .refl).2
  have room : ((World.fresh 1 256).memory : Int) - MEMORY_RESERVE_MIB = -256 := by decide
  rw [room] at bound
  omega

/-! ## The check in an idle parent VM -/

/-- No microVM that is recorded as running matches. -/
def World.Idle (w : World) : Prop :=
  ∀ id content, w.state id = some content → stateValue .status content = ascii "running" →
    ¬ w.matchesFirecracker (stateValue .pid content) (stateValue .startTime content)

/-- The CPUs and the memory can be read, and the parent VM stays idle. -/
def idle : Conditions where
  exec command _ reply _ :=
    match command, reply with
    | .cpuCount, reply | .memTotal, reply => reply ≠ ([] : Bytes)
    | _, _ => True
  env _ w' := w'.Idle

namespace Idle

/-- A piece of script that ends in `post` or leaves in `failing`. -/
abbrev Runs {α : Type} (pre : World → Prop) (block : Shell α) (post : α → World → Prop)
    (failing : World → Prop) : Prop :=
  System.Triple (S := parentVm idle) (fun _ => True) pre block post failing

/-- What the manager finds there. -/
structure Found (cpus memory : Nat) (w : World) : Prop where
  cpus : w.cpus = cpus
  memory : w.memory = memory
  idle : w.Idle

/-- With the record of one microVM as it is now. -/
def Holding (cpus memory : Nat) (id : Id) (state : Option Bytes) (w : World) : Prop :=
  Found cpus memory w ∧ w.state id = state

variable {cpus memory : Nat} {α : Type} {failing : World → Prop}

theorem stable_found : (parentVm idle).Stable (Found cpus memory) := by
  rintro w t ⟨env, idle⟩ found
  obtain ⟨_, _, _, _, rfl⟩ := env.untouched
  exact ⟨found.cpus, found.memory, idle⟩

theorem stable_holding {id : Id} {state : Option Bytes} :
    (parentVm idle).Stable (Holding cpus memory id state) := by
  refine System.Stable.and stable_found ?_
  rintro w t ⟨env, _⟩ there
  exact (env.same id).1.trans there

/-- A look at the parent VM, which stays as it is. -/
theorem runs_look {command : Command} {pre : World → Prop} {fact : command.Reply → Prop}
    (reads : command.Reads) (stable : (parentVm idle).Stable pre)
    (marked : ∀ w matched, pre w → pre { w with matched })
    (replies : ∀ w reply t, pre w → World.effect command w reply w →
      idle.exec command w reply t → fact reply) :
    Runs pre (ask command) (fun reply w => pre w ∧ fact reply) failing := by
  refine System.Triple.perform stable ?_
  rintro w reply t here ⟨⟨now, performed, rfl⟩, allowed⟩
  obtain rfl := World.effect_reads reads performed
  exact ⟨trivial, marked now _ here, replies now reply _ here performed allowed⟩

/-- A piece with one possible value. -/
theorem runs_known {β : Type} {pre : World → Prop} {block : Shell β} {rest : β → Shell α}
    {post : α → World → Prop} {value : β}
    (first : Runs pre block (fun reply w => pre w ∧ reply = value) failing)
    (next : Runs pre (rest value) post failing) : Runs pre (block >>= rest) post failing := by
  refine System.Triple.bind first fun reply => System.Triple.assume (fun _ => And.right) ?_
  rintro rfl
  exact System.Triple.weaken (fun _ => And.left) next (fun _ _ here => here) (fun _ here => here)

theorem found_marked (w : World) (matched : List Pid) (found : Found cpus memory w) :
    Found cpus memory { w with matched } :=
  ⟨found.cpus, found.memory, found.idle⟩

theorem holding_marked {id : Id} {state : Option Bytes} (w : World) (matched : List Pid)
    (holding : Holding cpus memory id state w) : Holding cpus memory id state { w with matched } :=
  ⟨found_marked w matched holding.1, holding.2⟩

theorem runs_stateValue {id : Id} {content : Bytes} (key : Key) :
    Runs (Holding cpus memory id (some content)) (ask (.stateValue key id))
      (fun reply w => Holding cpus memory id (some content) w ∧ reply = stateValue key content)
      failing := by
  refine runs_look (by trivial) stable_holding holding_marked fun w reply _ here performed _ => ?_
  rw [performed.2, here.2]
  rfl

/-- A microVM whose VMM does not run adds nothing. -/
theorem runs_candidateResources {id : Id} :
    Runs (Found cpus memory) (candidateResources id)
      (fun added w => Found cpus memory w ∧ added = (0, 0)) failing := by
  intro w found
  suffices Runs (Holding cpus memory id (w.state id)) (candidateResources id)
      (fun added w => Found cpus memory w ∧ added = (0, 0)) failing from this w ⟨found, rfl⟩
  have nothing : ∀ pre : World → Prop, (∀ w, pre w → Found cpus memory w) →
      Runs pre (pure (0, 0)) (fun added w => Found cpus memory w ∧ added = (0, 0)) failing :=
    fun pre implies => System.Triple.pure fun w here => ⟨implies w here, rfl⟩
  have hasState : Runs (Holding cpus memory id (w.state id)) (ask (.hasState id))
      (fun reply t => Holding cpus memory id (w.state id) t ∧ reply = (w.state id).isSome)
      failing := by
    refine runs_look (by trivial) stable_holding holding_marked fun t reply _ here performed _ => ?_
    rw [performed.2, here.2]
  refine runs_known hasState ?_
  cases held : w.state id with
  | none => exact nothing _ fun _ here => here.1
  | some content =>
    refine runs_known (runs_stateValue .status) ?_
    split
    case isFalse => exact nothing _ fun _ here => here.1
    case isTrue running =>
      refine runs_known (runs_stateValue .pid) (runs_known (runs_stateValue .startTime) ?_)
      have unmatched : Runs (Holding cpus memory id (some content))
          (ask (.matchesFirecracker (stateValue .pid content) (stateValue .startTime content)))
          (fun reply w => Holding cpus memory id (some content) w ∧ reply = false) failing := by
        refine runs_look (by trivial) stable_holding holding_marked fun w reply _ here performed _ => ?_
        cases reply with
        | false => rfl
        | true => exact absurd (performed.2.1 rfl) (here.1.idle id content here.2 running)
      exact runs_known unmatched (nothing _ fun _ here => here.1)

theorem runs_runningResources {ids : List Id} {used : Nat × Nat} :
    Runs (Found cpus memory) (runningResources ids used)
      (fun total w => Found cpus memory w ∧ total = used) failing := by
  induction ids with
  | nil => exact System.Triple.pure fun w here => ⟨here, rfl⟩
  | cons id rest ih =>
    refine runs_known runs_candidateResources ?_
    exact ih

theorem runs_resourceCapacity (someCpus : 1 ≤ cpus) (someMemory : 1 ≤ memory) :
    Runs (Found cpus memory) resourceCapacity
      (fun capacity w => Found cpus memory w ∧
        capacity = some ⟨decimal cpus, decimal memory, 0, 0⟩) failing := by
  have cpuCount : Runs (Found cpus memory) (ask .cpuCount)
      (fun reply w => Found cpus memory w ∧ reply = decimal cpus) failing := by
    refine runs_look (by trivial) stable_found found_marked ?_
    rintro w reply _ here ⟨_, rfl | rfl⟩ allowed
    · exact congrArg decimal here.cpus
    · exact absurd rfl allowed
  have memTotal : Runs (Found cpus memory) (ask .memTotal)
      (fun reply w => Found cpus memory w ∧ reply = decimal memory) failing := by
    refine runs_look (by trivial) stable_found found_marked ?_
    rintro w reply _ here ⟨_, rfl | rfl⟩ allowed
    · exact congrArg decimal here.memory
    · exact absurd rfl allowed
  refine runs_known cpuCount (runs_known memTotal ?_)
  rw [number_decimal, number_decimal, value_decimal, value_decimal,
    if_pos (by simp [someCpus, someMemory])]
  have listVms : Runs (Found cpus memory) (ask .listVms)
      (fun _ w => Found cpus memory w ∧ True) failing :=
    runs_look (by trivial) stable_found found_marked fun _ _ _ _ _ _ => trivial
  refine System.Triple.bind listVms fun ids => ?_
  refine System.Triple.weaken (fun _ => And.left) ?_ (fun _ _ here => here) (fun _ here => here)
  refine runs_known runs_runningResources ?_
  exact System.Triple.pure fun w here => ⟨here, rfl⟩

/-- There is nothing behind an error. -/
theorem runs_errorReply {pre : World → Prop} {message : String} {post : α → World → Prop} :
    Runs pre (errorReply message) post (fun _ => True) := by
  have anything : ∀ {β : Type} {pre : World → Prop} {block : Shell β},
      Runs pre block (fun _ _ => True) fun _ => True :=
    fun w _ => System.Safe.mono (fun result _ _ => by cases result <;> trivial) System.Safe.anything
  refine System.Triple.bind anything fun _ => System.Triple.bind anything fun _ => ?_
  exact System.Triple.throw fun _ here => here

/-- A test of what the shell knows by itself. -/
theorem runs_require {pre : World → Prop} {test : Bool} {message : String}
    (refused : test = false → ∀ w, failing w) :
    Runs pre (require (pure test) message) (fun _ w => pre w ∧ test = true) failing := by
  cases test with
  | true => exact System.Triple.pure fun w here => ⟨here, rfl⟩
  | false =>
    show Runs pre (errorReply message) _ _
    exact System.Triple.weaken (fun _ here => here) runs_errorReply (fun _ _ never => never)
      fun w _ => refused rfl w

/-- What a microVM needs besides the reserve. -/
def Fits (cpus memory vcpus memoryMib : Nat) : Prop :=
  vcpus ≤ cpus ∧ memoryMib + VMM_MEMORY_MIB + MEMORY_RESERVE_MIB ≤ memory

variable {vcpus memoryMib : Nat}

/-- The check passes just what fits. -/
theorem runs_checkStartResources (someCpus : 1 ≤ cpus) (someMemory : 1 ≤ memory) :
    Runs (Found cpus memory) (checkStartResources (decimal vcpus) (decimal memoryMib))
      (fun _ _ => Fits cpus memory vcpus memoryMib)
      fun _ => ¬ Fits cpus memory vcpus memoryMib := by
  refine runs_known (runs_resourceCapacity someCpus someMemory) ?_
  have cpusFit : decide ((value (decimal vcpus) : Int) ≤
      Capacity.availableVcpus ⟨decimal cpus, decimal memory, 0, 0⟩) = decide (vcpus ≤ cpus) := by
    simp [Capacity.availableVcpus, value_decimal]
  have memoryFits : decide ((memoryMib + VMM_MEMORY_MIB : Int) ≤
      Capacity.availableMemoryMib ⟨decimal cpus, decimal memory, 0, 0⟩) =
        decide (memoryMib + VMM_MEMORY_MIB + MEMORY_RESERVE_MIB ≤ memory) := by
    simp only [Capacity.availableMemoryMib, value_decimal]
    exact decide_eq_decide.2 (by omega)
  refine System.Triple.bind (runs_require fun exceeds _ fits => ?_) fun _ => ?_
  · exact of_decide_eq_false (cpusFit.symm.trans exceeds) fits.1
  refine System.Triple.assume (fun _ => And.right) fun cpusAre => ?_
  rw [arith_decimal]
  have last : Runs (Found cpus memory) (require (pure (decide ((memoryMib + VMM_MEMORY_MIB : Int) ≤
      Capacity.availableMemoryMib ⟨decimal cpus, decimal memory, 0, 0⟩)))
        "microVM memory would exceed available parent memory") _
      fun _ => ¬ Fits cpus memory vcpus memoryMib := runs_require fun exceeds _ fits => ?_
  · refine System.Triple.weaken (fun _ => And.left) last (fun _ _ here => ⟨?_, ?_⟩) fun _ here => here
    · exact of_decide_eq_true (cpusFit.symm.trans cpusAre)
    · exact of_decide_eq_true (memoryFits.symm.trans here.2)
  · exact of_decide_eq_false (memoryFits.symm.trans exceeds) fits.2

/-- A parent VM in which every command can be done answers both. -/
theorem meets_idle {answers : Answers} (command : Command) (w : World) :
    idle.exec command w (World.serve answers command w).1 (World.serve answers command w).2 := by
  cases command with
  | cpuCount | memTotal => exact decimal_ne_nil
  | _ => trivial

/-- The check of a start ends, and passes just what fits. -/
theorem checkStartResources_iff {w : World} (someCpus : 1 ≤ w.cpus) (someMemory : 1 ≤ w.memory)
    (isIdle : w.Idle) :
    (∃ result t, (parentVm idle).Leads
      ((checkStartResources (decimal vcpus) (decimal memoryMib)).run, w) (.done result, t)) ∧
    ∀ result t, (parentVm idle).Leads
      ((checkStartResources (decimal vcpus) (decimal memoryMib)).run, w) (.done result, t) →
        (result = .ok () ↔ Fits w.cpus w.memory vcpus memoryMib) := by
  constructor
  · obtain ⟨n, result, t, ends⟩ := Program.advance_done
      (World.serve ⟨fun _ => true, w.vms.toList, w.vms.nodup_toList⟩)
      (checkStartResources (decimal vcpus) (decimal memoryMib)).run w
    have listed : w.Listed ⟨fun _ => true, w.vms.toList, w.vms.nodup_toList⟩ :=
      fun id member => Finset.mem_toList.2 member
    have served : (parentVm idle).Leads
        ((checkStartResources (decimal vcpus) (decimal memoryMib)).run, w) _ :=
      (World.leads_after_of n listed meets_idle).1
    rw [World.after, ends] at served
    exact ⟨result, t, served⟩
  · intro result t leads
    have safe := @runs_checkStartResources w.cpus w.memory vcpus memoryMib someCpus someMemory w
      ⟨rfl, rfl, isIdle⟩
    have ended := safe.leads (fun result => ?_) leads
    · cases result with
      | ok value => exact ⟨fun _ => ended, fun _ => rfl⟩
      | error exit => exact ⟨fun is => (nomatch is), fun fits => absurd fits ended⟩
    · cases result <;> exact fun _ _ _ here => here

end Idle

end Luhmen.Manager
