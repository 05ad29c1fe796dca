/-
# Manager.Store -- what the manager decides on, and what it keeps to

The manager as a machine on records instead of their texts.  A microVM is created
once; then its record is rewritten by starts and stops, and its disk is made once.
Processes come, go on and go without it, and a reboot ends them all.

`Sound` is the invariant: identities are distinct, every record is valid, a record
is only attributed to the process it was written for, and what the living VMMs were
given fits the parent VM.  `Keeps` is what any number of steps leaves of an earlier
store: identities, settings and disks.

`Rules` say what a run is restricted to: the settings microVMs are created with, the PIDs
that launches get, and whether no new process takes the PID and start time of a recorded one.
-/
import Mathlib.Algebra.BigOperators.Group.Finset.Basic
import Mathlib.Algebra.Order.BigOperators.Group.Finset
import Luhmen.Manager.Request
import Luhmen.Manager.World

set_option autoImplicit false

namespace Luhmen.Manager

open Luhmen.Theory

/-! ## Valid records -/

/-- A number of a range in digits, leading zeros or not. -/
structure Numeral (text : Bytes) (low high : Nat) : Prop where
  nonempty : text ≠ []
  digits : text.all isDigit = true
  low : low ≤ value text
  high : value text ≤ high

structure Record.Valid (record : Record) : Prop where
  clean : record.Clean
  vcpus : Numeral record.settings.vcpus 1 16
  memoryMib : Numeral record.settings.memoryMib 128 16384
  uidLow : 60000 ≤ record.uid
  uidHigh : record.uid ≤ 60999

/-- Numbers as the CLI writes them. -/
def Settings.Plain (settings : Settings) : Prop :=
  (∃ vcpus, settings.vcpus = decimal vcpus) ∧ ∃ memoryMib, settings.memoryMib = decimal memoryMib

def Settings.cpuCost (settings : Settings) : Nat :=
  value settings.vcpus

def Settings.memoryCost (settings : Settings) : Nat :=
  value settings.memoryMib + 128

/-! ## The machine -/

structure Store where
  cpus : Nat
  memory : Nat
  vms : Finset Id
  record : Id → Option Record
  disk : Id → Option Inode
  processes : Pid → Option Process
  launches : Nat
  owner : Id → Option Nat

structure Rules where
  allowed : Settings → Prop
  pids : Pid → Prop
  careful : Prop

def Rules.Plain (rules : Rules) : Prop :=
  ∀ settings, rules.allowed settings → settings.Plain

namespace Store

/-- The record of a microVM and what it says of its VMM. -/
def Records (s : Store) (id : Id) (record : Record) (vmm : Running) : Prop :=
  s.record id = some record ∧ record.status = .running vmm

/-- The VMM the record of a microVM was written for lives. -/
def Live (s : Store) (id : Id) : Prop :=
  ∃ record vmm process number, s.Records id record vmm ∧
    s.processes vmm.pid = some process ∧ process.launch = some number ∧ s.owner id = some number

/-- No record speaks of a process with this PID and start time. -/
def Unrecorded (s : Store) (pid : Pid) (startTime : Nat) : Prop :=
  ∀ id record vmm, s.Records id record vmm → ¬ (vmm.pid = pid ∧ vmm.startTime = startTime)

open Classical in
/-- What the VMM of a microVM uses of a resource. -/
noncomputable def share (s : Store) (cost : Settings → Nat) (id : Id) : Nat :=
  if s.Live id then ((s.record id).map fun record => cost record.settings).getD 0 else 0

noncomputable def load (s : Store) (cost : Settings → Nat) (ids : Finset Id) : Nat :=
  ∑ id ∈ ids, s.share cost id

/-- There is room for a microVM beside the others. -/
def Fits (s : Store) (id : Id) (settings : Settings) : Prop :=
  s.load Settings.cpuCost (s.vms.erase id) + settings.cpuCost ≤ s.cpus ∧
    s.load Settings.memoryCost (s.vms.erase id) + settings.memoryCost + 512 ≤ s.memory

def setProcess (s : Store) (pid : Pid) (process : Option Process) : Store :=
  { s with processes := Function.update s.processes pid process }

def setRecord (s : Store) (id : Id) (record : Record) (owner : Option Nat) : Store :=
  { s with
    record := Function.update s.record id (some record)
    owner := Function.update s.owner id owner }

inductive Step (rules : Rules) : Store → Store → Prop where
  | exit {s : Store} (pid : Pid) : Step rules s (s.setProcess pid none)
  | goesOn {s : Store} {pid : Pid} {before after : Process}
      (there : s.processes pid = some before) (startTime : after.startTime = before.startTime)
      (launch : after.launch = before.launch)
      (vmm : before.stage.isVmm = true → after.stage.isVmm = true) :
      Step rules s (s.setProcess pid (some after))
  | spawn {s : Store} {pid : Pid} {process : Process} (launch : process.launch = none)
      (unrecorded : rules.careful → s.Unrecorded pid process.startTime) :
      Step rules s (s.setProcess pid (some process))
  | launch {s : Store} {pid : Pid} {process : Process} (launch : process.launch = some s.launches)
      (unrecorded : rules.careful → s.Unrecorded pid process.startTime) :
      Step rules s { s.setProcess pid (some process) with launches := s.launches + 1 }
  | reboot {s : Store} : Step rules s { s with processes := fun _ => none }
  | directory {s : Store} {id : Id} (named : validId id = true) :
      Step rules s { s with vms := insert id s.vms }
  | create {s : Store} {id : Id} {settings : Settings} {uid : Nat} (there : id ∈ s.vms)
      (fresh : s.record id = none) (valid : Record.Valid ⟨.created, settings, uid⟩)
      (allowed : rules.allowed settings)
      (free : ∀ other record, s.record other = some record → record.uid ≠ uid) :
      Step rules s (s.setRecord id ⟨.created, settings, uid⟩ none)
  /-- A start is over: the record says so, and of which process. -/
  | publish {s : Store} {id : Id} {record : Record} {vmm : Running} {number : Nat}
      (there : s.record id = some record) (launched : number < s.launches)
      (pid : rules.pids vmm.pid)
      (clean : Line vmm.socket ∧ Line vmm.jail ∧ Line vmm.cgroup)
      (child : ∀ process, s.processes vmm.pid = some process → process.launch = some number →
        process.startTime = vmm.startTime ∧ process.stage.isVmm = true)
      (own : rules.careful → ∀ process, s.processes vmm.pid = some process →
        process.startTime = vmm.startTime → process.launch = some number)
      (fits : rules.Plain → s.Fits id record.settings) :
      Step rules s (s.setRecord id { record with status := .running vmm } (some number))
  | stopped {s : Store} {id : Id} {record : Record} (there : s.record id = some record) :
      Step rules s (s.setRecord id { record with status := .stopped } none)
  | disk {s : Store} {id : Id} {inode : Inode} (missing : s.disk id = none)
      (fresh : ∀ other, s.disk other ≠ some inode) :
      Step rules s { s with disk := Function.update s.disk id (some inode) }

def Steps (rules : Rules) : Store → Store → Prop :=
  Relation.ReflTransGen (Step rules)

/-! ## What one step can do -/

variable {rules : Rules} {s t : Store}

/-- A process of a later store was there before, or is new. -/
inductive Origin (rules : Rules) (s t : Store) (pid : Pid) (process : Process) : Prop where
  | before {older : Process} (there : s.processes pid = some older)
      (startTime : process.startTime = older.startTime) (launch : process.launch = older.launch)
      (vmm : older.stage.isVmm = true → process.stage.isVmm = true)
  | new (launch : ∀ number, process.launch = some number →
        s.launches ≤ number ∧ number < t.launches)
      (unrecorded : rules.careful → s.Unrecorded pid process.startTime)

theorem Origin.same {pid : Pid} {process : Process} (there : s.processes pid = some process) :
    Origin rules s t pid process :=
  .before there rfl rfl id

theorem origin_setProcess {pid other : Pid} {process : Process} {after : Option Process}
    (set : ∀ process, after = some process → Origin rules s t pid process)
    (there : (s.setProcess pid after).processes other = some process) :
    Origin rules s t other process := by
  by_cases same : other = pid
  · subst same
    exact set process (by simpa [setProcess] using there)
  · exact .same (by simpa [setProcess, Function.update_of_ne same] using there)

theorem Step.origin (step : Step rules s t) {pid : Pid} {process : Process}
    (there : t.processes pid = some process) : Origin rules s t pid process := by
  cases step with
  | exit pid => exact origin_setProcess (fun _ absent => by cases absent) there
  | goesOn before startTime launch vmm =>
    refine origin_setProcess (fun process is => ?_) there
    cases is
    exact .before before startTime launch vmm
  | spawn launch unrecorded =>
    refine origin_setProcess (fun process is => ?_) there
    cases is
    exact .new (fun number is => nomatch launch.symm.trans is) unrecorded
  | launch launch unrecorded =>
    refine origin_setProcess (fun process is => ?_) there
    cases is
    refine .new (fun number is => ?_) unrecorded
    obtain rfl := Option.some.inj (launch.symm.trans is)
    exact ⟨le_rfl, Nat.lt_succ_self _⟩
  | reboot => exact nomatch there
  | directory | create | publish | stopped | disk => exact .same there

/-- What a record was before a step: the same and of the same process, or absent,
or one with other words on the VMM. -/
inductive Rewrite (rules : Rules) (s t : Store) (id : Id) (record : Record) : Prop where
  | same (before : s.record id = some record) (owner : t.owner id = s.owner id)
  | created (there : id ∈ s.vms) (absent : s.record id = none)
      (status : record.status = .created) (valid : record.Valid)
      (allowed : rules.allowed record.settings)
      (free : ∀ other older, s.record other = some older → older.uid ≠ record.uid)
      (only : ∀ other, other ≠ id → t.record other = s.record other)
  | rewritten {older : Record} (before : s.record id = some older)
      (settings : record.settings = older.settings) (uid : record.uid = older.uid)
      (valid : older.Valid → record.Valid)
      (vmm : ∀ vmm, record.status = .running vmm → rules.pids vmm.pid ∧
        ∃ number, t.owner id = some number ∧ number < s.launches ∧
        (∀ process, t.processes vmm.pid = some process → process.launch = some number →
          process.startTime = vmm.startTime ∧ process.stage.isVmm = true) ∧
        (rules.careful → ∀ process, t.processes vmm.pid = some process →
          process.startTime = vmm.startTime → process.launch = some number))

theorem setRecord_at (id : Id) (record : Record) (owner : Option Nat) :
    (s.setRecord id record owner).record id = some record := by
  simp [setRecord]

theorem setRecord_owner (id : Id) (record : Record) (owner : Option Nat) :
    (s.setRecord id record owner).owner id = owner := by
  simp [setRecord]

theorem setRecord_of_ne {id other : Id} (record : Record) (owner : Option Nat)
    (different : other ≠ id) :
    (s.setRecord id record owner).record other = s.record other ∧
      (s.setRecord id record owner).owner other = s.owner other := by
  simp [setRecord, Function.update_of_ne different]

theorem rewrite_setRecord {id other : Id} {written record : Record} {owner : Option Nat}
    (at' : Rewrite rules s (s.setRecord id written owner) id written)
    (there : (s.setRecord id written owner).record other = some record) :
    Rewrite rules s (s.setRecord id written owner) other record := by
  by_cases same : other = id
  · subst same
    rw [setRecord_at] at there
    cases there
    exact at'
  · obtain ⟨sameRecord, sameOwner⟩ := setRecord_of_ne (s := s) written owner same
    exact .same (sameRecord ▸ there) sameOwner

theorem Step.rewrite (step : Step rules s t) {id : Id} {record : Record}
    (there : t.record id = some record) : Rewrite rules s t id record := by
  cases step with
  | exit | goesOn | spawn | launch | reboot | directory | disk => exact .same there rfl
  | create member absent valid allowed free =>
    refine rewrite_setRecord (.created member absent rfl valid allowed free ?_) there
    exact fun other different => (setRecord_of_ne _ _ different).1
  | publish before launched pid clean child own fits =>
    refine rewrite_setRecord (.rewritten before rfl rfl (fun valid => ?_) fun vmm is => ?_) there
    · exact ⟨⟨valid.clean.settings, fun vmm is => by cases is; exact clean⟩, valid.vcpus,
        valid.memoryMib, valid.uidLow, valid.uidHigh⟩
    · cases is
      exact ⟨pid, _, setRecord_owner _ _ _, launched, child, own⟩
  | stopped before =>
    refine rewrite_setRecord (.rewritten before rfl rfl (fun valid => ?_) fun vmm is => ?_) there
    · exact ⟨⟨valid.clean.settings, fun vmm is => nomatch is⟩, valid.vcpus, valid.memoryMib,
        valid.uidLow, valid.uidHigh⟩
    · exact nomatch is

/-! ## What steps keep -/

/-- What a later store has of an earlier one. -/
structure Keeps (s t : Store) : Prop where
  record : ∀ id record, s.record id = some record →
    ∃ later, t.record id = some later ∧ later.uid = record.uid ∧ later.settings = record.settings
  disk : ∀ id inode, s.disk id = some inode → t.disk id = some inode
  vms : s.vms ⊆ t.vms
  cpus : t.cpus = s.cpus
  memory : t.memory = s.memory

theorem Keeps.refl : Keeps s s :=
  ⟨fun _ record there => ⟨record, there, rfl, rfl⟩, fun _ _ there => there, fun _ there => there,
    rfl, rfl⟩

theorem Keeps.trans {u : Store} (first : Keeps s t) (second : Keeps t u) : Keeps s u := by
  refine ⟨fun id record there => ?_, fun id inode there => second.disk _ _ (first.disk _ _ there),
    first.vms.trans second.vms, second.cpus.trans first.cpus, second.memory.trans first.memory⟩
  obtain ⟨between, here, sameUid, sameSettings⟩ := first.record id record there
  obtain ⟨later, after, sameUid', sameSettings'⟩ := second.record id between here
  exact ⟨later, after, sameUid'.trans sameUid, sameSettings'.trans sameSettings⟩

theorem keeps_setRecord {id : Id} {written : Record} {owner : Option Nat}
    (same : ∀ record, s.record id = some record →
      written.uid = record.uid ∧ written.settings = record.settings) :
    Keeps s (s.setRecord id written owner) := by
  refine ⟨fun other record there => ?_, fun _ _ there => there, fun _ there => there, rfl, rfl⟩
  by_cases this : other = id
  · subst this
    exact ⟨written, setRecord_at _ _ _, same record there⟩
  · exact ⟨record, (setRecord_of_ne written owner this).1.trans there, rfl, rfl⟩

theorem Step.keeps (step : Step rules s t) : Keeps s t := by
  cases step with
  | exit | goesOn | spawn | launch | reboot =>
    exact ⟨fun _ record there => ⟨record, there, rfl, rfl⟩, fun _ _ there => there,
      fun _ there => there, rfl, rfl⟩
  | @directory id named =>
    exact ⟨fun _ record there => ⟨record, there, rfl, rfl⟩, fun _ _ there => there,
      Finset.subset_insert id _, rfl, rfl⟩
  | create member absent valid allowed free =>
    exact keeps_setRecord fun record there => by simp [absent] at there
  | publish before launched pid clean child own fits =>
    refine keeps_setRecord fun record there => ?_
    rw [before] at there
    cases there
    exact ⟨rfl, rfl⟩
  | stopped before =>
    refine keeps_setRecord fun record there => ?_
    rw [before] at there
    cases there
    exact ⟨rfl, rfl⟩
  | disk missing fresh =>
    refine ⟨fun _ record there => ⟨record, there, rfl, rfl⟩, fun other inode there => ?_,
      fun _ there => there, rfl, rfl⟩
    refine (Function.update_of_ne ?_ _ _).trans there
    rintro rfl
    simp [missing] at there

theorem Steps.keeps (steps : Steps rules s t) : Keeps s t := by
  induction steps with
  | refl => exact .refl
  | tail _ step ih => exact ih.trans step.keeps

/-! ## The invariant -/

structure Sound (rules : Rules) (s : Store) : Prop where
  named : ∀ id ∈ s.vms, validId id = true
  known : ∀ id record, s.record id = some record → id ∈ s.vms
  valid : ∀ id record, s.record id = some record → record.Valid
  allowed : ∀ id record, s.record id = some record → rules.allowed record.settings
  pids : ∀ id record vmm, s.Records id record vmm → rules.pids vmm.pid
  distinct : ∀ a b one other, s.record a = some one → s.record b = some other →
    one.uid = other.uid → a = b
  disks : ∀ a b inode, s.disk a = some inode → s.disk b = some inode → a = b
  launched : ∀ pid process number, s.processes pid = some process →
    process.launch = some number → number < s.launches
  owned : ∀ id number, s.owner id = some number → number < s.launches
  live : ∀ id record vmm process number, s.Records id record vmm →
    s.processes vmm.pid = some process → process.launch = some number →
    s.owner id = some number → process.startTime = vmm.startTime ∧ process.stage.isVmm = true
  own : rules.careful → ∀ id record vmm process, s.Records id record vmm →
    s.processes vmm.pid = some process → process.startTime = vmm.startTime →
    ∃ number, process.launch = some number ∧ s.owner id = some number
  cpus : rules.Plain → s.load Settings.cpuCost s.vms ≤ s.cpus
  memory : rules.Plain → s.load Settings.memoryCost s.vms = 0 ∨
    s.load Settings.memoryCost s.vms + 512 ≤ s.memory

theorem Step.launches (step : Step rules s t) : s.launches ≤ t.launches := by
  cases step with
  | launch => exact Nat.le_succ _
  | exit | goesOn | spawn | reboot | directory | create | publish | stopped | disk => exact le_rfl

theorem share_of_not_live {cost : Settings → Nat} {id : Id} (dead : ¬ s.Live id) :
    s.share cost id = 0 := by
  simp [share, dead]

theorem share_le_of_live {cost : Settings → Nat} {id : Id}
    (live : t.Live id → s.Live id ∧ t.record id = s.record id) :
    t.share cost id ≤ s.share cost id := by
  by_cases here : t.Live id
  · obtain ⟨before, same⟩ := live here
    simp [share, here, before, same]
  · simp [share_of_not_live here]

/-- Less load where fewer VMMs live. -/
theorem load_le_of_live {cost : Settings → Nat} {ids : Finset Id}
    (live : ∀ id ∈ ids, t.Live id → s.Live id ∧ t.record id = s.record id) :
    t.load cost ids ≤ s.load cost ids :=
  Finset.sum_le_sum fun id member => share_le_of_live (live id member)

theorem load_insert {cost : Settings → Nat} {id : Id} (dead : ¬ s.Live id) :
    s.load cost (insert id s.vms) = s.load cost s.vms := by
  by_cases member : id ∈ s.vms
  · rw [Finset.insert_eq_of_mem member]
  · simp only [load]
    rw [Finset.sum_insert member, share_of_not_live dead, Nat.zero_add]

/-- A VMM that lives after a step lived before it, if the record is of the same process. -/
theorem Step.live_before (sound : Sound rules s) (step : Step rules s t) {id : Id}
    (same : t.record id = s.record id) (sameOwner : t.owner id = s.owner id) (live : t.Live id) :
    s.Live id := by
  obtain ⟨record, vmm, process, number, ⟨there, status⟩, running, launch, owner⟩ := live
  rw [same] at there
  rw [sameOwner] at owner
  cases step.origin running with
  | before older startTime sameLaunch vmm' =>
    exact ⟨record, vmm, _, number, ⟨there, status⟩, older, sameLaunch ▸ launch, owner⟩
  | new fresh unrecorded =>
    exact absurd (sound.owned id number owner) (Nat.not_lt.2 (fresh number launch).1)

theorem Step.load_le (sound : Sound rules s) (step : Step rules s t) {cost : Settings → Nat}
    {ids : Finset Id} (same : ∀ id ∈ ids, t.Live id →
      t.record id = s.record id ∧ t.owner id = s.owner id) : t.load cost ids ≤ s.load cost ids := by
  refine load_le_of_live fun id member live => ?_
  obtain ⟨sameRecord, sameOwner⟩ := same id member live
  exact ⟨step.live_before sound sameRecord sameOwner live, sameRecord⟩

theorem Live.status {id : Id} {record : Record} (live : s.Live id)
    (there : s.record id = some record) : ∃ vmm, record.status = .running vmm := by
  obtain ⟨other, vmm, process, number, ⟨same, status⟩, rest⟩ := live
  rw [there] at same
  cases same
  exact ⟨vmm, status⟩

/-- A record that names no process adds no load. -/
theorem load_setRecord_le (sound : Sound rules s) {id : Id} {written : Record} {owner : Option Nat}
    (step : Step rules s (s.setRecord id written owner))
    (idle : ∀ vmm, written.status ≠ .running vmm) {cost : Settings → Nat} {ids : Finset Id} :
    (s.setRecord id written owner).load cost ids ≤ s.load cost ids := by
  refine step.load_le sound fun other _ live => setRecord_of_ne written owner ?_
  rintro rfl
  obtain ⟨vmm, status⟩ := live.status (setRecord_at _ _ _)
  exact idle vmm status

/-- What a start adds to the load is what its microVM was given. -/
theorem load_publish_le (sound : Sound rules s) {id : Id} {written : Record} {owner : Option Nat}
    (step : Step rules s (s.setRecord id written owner)) (member : id ∈ s.vms)
    {cost : Settings → Nat} :
    (s.setRecord id written owner).load cost s.vms ≤
      s.load cost (s.vms.erase id) + cost written.settings := by
  have others : (s.setRecord id written owner).load cost (s.vms.erase id) ≤
      s.load cost (s.vms.erase id) :=
    step.load_le sound fun other inside _ =>
      setRecord_of_ne written owner (Finset.ne_of_mem_erase inside)
  have own : (s.setRecord id written owner).share cost id ≤ cost written.settings := by
    unfold share
    rw [setRecord_at]
    split
    · exact le_rfl
    · exact Nat.zero_le _
  calc (s.setRecord id written owner).load cost s.vms
      = (s.setRecord id written owner).load cost (s.vms.erase id) +
          (s.setRecord id written owner).share cost id :=
        (Finset.sum_erase_add _ _ member).symm
    _ ≤ s.load cost (s.vms.erase id) + cost written.settings := Nat.add_le_add others own

/-- What is bounded by a step that is no start stays bounded. -/
theorem Step.load_vms (sound : Sound rules s) (step : Step rules s t) (cost : Settings → Nat) :
    t.load cost t.vms ≤ s.load cost s.vms ∨
      ∃ (id : Id) (record : Record), (rules.Plain → s.Fits id record.settings) ∧
        t.load cost t.vms ≤ s.load cost (s.vms.erase id) + cost record.settings := by
  cases step with
  | exit pid => exact .inl (Step.load_le sound (.exit pid) fun _ _ _ => ⟨rfl, rfl⟩)
  | goesOn there startTime launch vmm =>
    exact .inl (Step.load_le sound (.goesOn there startTime launch vmm) fun _ _ _ => ⟨rfl, rfl⟩)
  | spawn launch unrecorded =>
    exact .inl (Step.load_le sound (.spawn launch unrecorded) fun _ _ _ => ⟨rfl, rfl⟩)
  | launch launch unrecorded =>
    exact .inl (Step.load_le sound (.launch launch unrecorded) fun _ _ _ => ⟨rfl, rfl⟩)
  | reboot => exact .inl (Step.load_le sound .reboot fun _ _ _ => ⟨rfl, rfl⟩)
  | disk missing fresh =>
    exact .inl (Step.load_le sound (.disk missing fresh) fun _ _ _ => ⟨rfl, rfl⟩)
  | @directory id named =>
    left
    have step : Step rules s { s with vms := insert id s.vms } := .directory named
    refine (step.load_le sound fun _ _ _ => ⟨rfl, rfl⟩).trans ?_
    by_cases member : id ∈ s.vms
    · exact (congrArg (s.load cost) (Finset.insert_eq_of_mem member)).le
    · refine (load_insert ?_).le
      rintro ⟨record, _, _, _, ⟨there, _⟩, _⟩
      exact member (sound.known id record there)
  | create member absent valid allowed free =>
    exact .inl (load_setRecord_le sound (.create member absent valid allowed free)
      fun vmm is => nomatch is)
  | stopped there =>
    exact .inl (load_setRecord_le sound (.stopped there) fun vmm is => nomatch is)
  | publish there launched pid clean child own fits =>
    exact .inr ⟨_, _, fits, load_publish_le sound
      (.publish there launched pid clean child own fits) (sound.known _ _ there)⟩

theorem disks_update (sound : Sound rules s) {id : Id} {inode : Inode}
    (fresh : ∀ other, s.disk other ≠ some inode) {a b : Id} {shared : Inode}
    (thereA : Function.update s.disk id (some inode) a = some shared)
    (thereB : Function.update s.disk id (some inode) b = some shared) : a = b := by
  by_cases atA : a = id <;> by_cases atB : b = id
  · exact atA.trans atB.symm
  · rw [atA, Function.update_self] at thereA
    rw [Function.update_of_ne atB] at thereB
    exact absurd (thereB.trans thereA.symm) (fresh b)
  · rw [atB, Function.update_self] at thereB
    rw [Function.update_of_ne atA] at thereA
    exact absurd (thereA.trans thereB.symm) (fresh a)
  · rw [Function.update_of_ne atA] at thereA
    rw [Function.update_of_ne atB] at thereB
    exact sound.disks a b shared thereA thereB

theorem owned_setRecord (sound : Sound rules s) {id other : Id} {written : Record}
    {owner : Option Nat} (launched : ∀ number, owner = some number → number < s.launches)
    {number : Nat} (owns : (s.setRecord id written owner).owner other = some number) :
    number < s.launches := by
  by_cases same : other = id
  · subst same
    rw [setRecord_owner] at owns
    exact launched number owns
  · rw [(setRecord_of_ne written owner same).2] at owns
    exact sound.owned other number owns

theorem Sound.step (sound : Sound rules s) (step : Step rules s t) : Sound rules t := by
  have keeps := step.keeps
  refine ⟨?named, ?known, ?valid, ?allowed, ?pids, ?distinct, ?disks, ?launched, ?owned, ?live, ?own,
    ?cpus, ?memory⟩
  case named =>
    intro id member
    cases step with
    | directory named =>
      obtain rfl | before := Finset.mem_insert.1 member
      · exact named
      · exact sound.named id before
    | exit | goesOn | spawn | launch | reboot | create | publish | stopped | disk =>
      exact sound.named id member
  case known =>
    intro id record there
    cases step.rewrite there with
    | same before owner => exact keeps.vms (sound.known id record before)
    | created member => exact keeps.vms member
    | rewritten before => exact keeps.vms (sound.known id _ before)
  case valid =>
    intro id record there
    cases step.rewrite there with
    | same before owner => exact sound.valid id record before
    | created _ _ _ valid => exact valid
    | rewritten before _ _ valid => exact valid (sound.valid id _ before)
  case allowed =>
    intro id record there
    cases step.rewrite there with
    | same before owner => exact sound.allowed id record before
    | created _ _ _ _ allowed => exact allowed
    | rewritten before settings => exact settings ▸ sound.allowed id _ before
  case pids =>
    intro id record vmm ⟨there, status⟩
    cases step.rewrite there with
    | same before owner => exact sound.pids id record vmm ⟨before, status⟩
    | created _ _ status' => exact nomatch status'.symm.trans status
    | rewritten _ _ _ _ vmm' => exact (vmm' vmm status).1
  case distinct =>
    intro a b one other thereA thereB same
    by_contra different
    cases step.rewrite thereA with
    | same beforeA =>
      cases step.rewrite thereB with
      | same beforeB => exact different (sound.distinct a b one other beforeA beforeB same)
      | created _ _ _ _ _ free => exact free a one beforeA same
      | rewritten beforeB _ uid =>
        exact different (sound.distinct a b one _ beforeA beforeB (same.trans uid))
    | created _ _ _ _ _ free only =>
      have beforeB := (only b (Ne.symm different)).symm.trans thereB
      exact free b other beforeB same.symm
    | rewritten beforeA _ uid =>
      cases step.rewrite thereB with
      | same beforeB => exact different (sound.distinct a b _ other beforeA beforeB (uid.symm.trans same))
      | created _ _ _ _ _ free => exact free a _ beforeA (uid.symm.trans same)
      | rewritten beforeB _ uid' =>
        exact different
          (sound.distinct a b _ _ beforeA beforeB (uid.symm.trans (same.trans uid')))
  case disks =>
    intro a b inode thereA thereB
    cases step with
    | disk missing fresh => exact disks_update sound fresh thereA thereB
    | exit | goesOn | spawn | launch | reboot | directory | create | publish | stopped =>
      exact sound.disks a b inode thereA thereB
  case launched =>
    intro pid process number there launch
    cases step.origin there with
    | before older startTime sameLaunch =>
      exact (sound.launched pid _ number older (sameLaunch ▸ launch)).trans_le step.launches
    | new fresh => exact (fresh number launch).2
  case owned =>
    intro id number owner
    cases step with
    | exit | goesOn | spawn | reboot | directory | disk => exact sound.owned id number owner
    | launch => exact (sound.owned id number owner).trans (Nat.lt_succ_self _)
    | create => exact owned_setRecord sound (fun _ is => by cases is) owner
    | stopped => exact owned_setRecord sound (fun _ is => by cases is) owner
    | publish there launched =>
      refine owned_setRecord sound (fun number is => ?_) owner
      cases is
      exact launched
  case live =>
    intro id record vmm process number ⟨there, status⟩ running launch owner
    cases step.rewrite there with
    | same before sameOwner =>
      rw [sameOwner] at owner
      cases step.origin running with
      | before older startTime sameLaunch vmm' =>
        have here := sound.live id record vmm _ number ⟨before, status⟩ older
          (sameLaunch ▸ launch) owner
        exact ⟨startTime.trans here.1, vmm' here.2⟩
      | new fresh =>
        exact absurd (sound.owned id number owner) (Nat.not_lt.2 (fresh number launch).1)
    | created _ _ status' => exact nomatch status'.symm.trans status
    | rewritten _ _ _ _ vmm' =>
      obtain ⟨_, number', owner', _, child, _⟩ := vmm' vmm status
      obtain rfl := Option.some.inj (owner'.symm.trans owner)
      exact child process running launch
  case own =>
    intro careful id record vmm process ⟨there, status⟩ running startTime
    cases step.rewrite there with
    | same before sameOwner =>
      cases step.origin running with
      | before older startTime' sameLaunch vmm' =>
        obtain ⟨number, launch, owner⟩ := sound.own careful id record vmm _ ⟨before, status⟩ older
          (startTime'.symm.trans startTime)
        exact ⟨number, sameLaunch.trans launch, sameOwner.trans owner⟩
      | new _ unrecorded =>
        exact absurd ⟨rfl, startTime.symm⟩ (unrecorded careful id record vmm ⟨before, status⟩)
    | created _ _ status' => exact nomatch status'.symm.trans status
    | rewritten _ _ _ _ vmm' =>
      obtain ⟨_, number, owner, _, _, own⟩ := vmm' vmm status
      exact ⟨number, own careful process running startTime, owner⟩
  case cpus =>
    intro plain
    rw [keeps.cpus]
    obtain less | ⟨id, record, fits, less⟩ := step.load_vms sound Settings.cpuCost
    · exact less.trans (sound.cpus plain)
    · exact less.trans (fits plain).1
  case memory =>
    intro plain
    rw [keeps.memory]
    obtain less | ⟨id, record, fits, less⟩ := step.load_vms sound Settings.memoryCost
    · obtain none' | room := sound.memory plain
      · exact .inl (Nat.le_zero.1 (less.trans none'.le))
      · exact .inr ((Nat.add_le_add_right less 512).trans room)
    · exact .inr ((Nat.add_le_add_right less 512).trans (fits plain).2)

theorem Sound.steps (sound : Sound rules s) (steps : Steps rules s t) : Sound rules t := by
  induction steps with
  | refl => exact sound
  | tail _ step ih => exact ih.step step

end Store

end Luhmen.Manager
