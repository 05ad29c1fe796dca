/-
# Manager.Attribution -- whose process a record speaks of

`matches_firecracker` knows a process by its PID, its start time and its command line, and
`terminate_cgroup` by the cgroup it was in when the manager looked.  `attributed_own`: as long
as no new process takes the PID and start time of a recorded one, a PID the script has just
been told of or the PID of the launch at hand, a record that matches speaks of the VMM it was
written for; and `stop` signals no other, by its record or by its cgroup, where the cgroup of a
microVM has only what was launched for it, and nothing is left of a start that did not come
to its record.

Nothing but the boot a record was written in rules such a process out, and the record does
not say which that was: `other_boot_attributed` is a run in which the VMM of one microVM
passes for that of another.
-/
import Luhmen.Manager.Admission
import Luhmen.Manager.Rehearsal

set_option autoImplicit false

namespace Luhmen.Manager

open Luhmen.Theory

/-- No new process can be confused with one the manager knows, and a cgroup has at the looks
and at the signals of `stop` what belongs there. -/
def careful : Conditions where
  exec command w _ w' := w.Unconfused w' ∧
    match command with
    | .cgroupPids _ => w.Housed
    | .signalCgroup true _ _ => w.Sole w.vars.id
    | _ => True
  env w w' := w.Unconfused w'

def carefully : Rules := ⟨fun _ => True, fun _ => True, True⟩

theorem careful_meets : careful.Meets carefully where
  exec _ _ _ _ _ := And.left
  env _ _ _ := id
  look _ _ _ _ _ := And.right
  stops _ _ _ _ _ _ := And.right
  spawns _ _ _ _ _ _ _ _ _ := trivial

/-- A record that matches is of a VMM that runs. -/
theorem World.Good.matched {w : World} (good : w.Good carefully) {id : Id} {content : Bytes}
    (there : w.state id = some content)
    (matches' : w.matchesFirecracker (Manager.stateValue .pid content)
      (Manager.stateValue .startTime content)) : w.Runs id := by
  obtain ⟨pid, process, isPid, running, started, _⟩ := matches'
  have record := World.store_record_of_state there
  have own := good.sound.own trivial id (Record.read content)
  have read := (good.value there .pid).symm.trans isPid
  have status := good.value there .status
  rw [good.value there] at started
  generalize Record.read content = record' at own read started status record
  obtain ⟨state, settings, uid⟩ := record'
  cases state with
  | created => exact absurd (show decimal pid = [] from read.symm) decimal_ne_nil
  | stopped => exact absurd (show decimal pid = [] from read.symm) decimal_ne_nil
  | running vmm =>
    obtain rfl : vmm.pid = pid := decimal_injective read
    have same : process.startTime = vmm.startTime := by
      obtain none | same := started
      · exact absurd (show decimal vmm.startTime = [] from none) decimal_ne_nil
      · exact (decimal_injective same).symm
    obtain ⟨number, launch, owner⟩ := own vmm process ⟨record, rfl⟩ running same
    exact ⟨content, vmm.pid, process, number, there, status, isPid, running, launch, owner⟩

/-- **Attribution.**  In every run from an empty store in which no new process can be
confused, and cgroups have what belongs there: where a record matches, the process is the VMM
it was written for; what is answered of a record is answered of that VMM; and `stop` has
signalled no other, neither the recorded PID nor one of the cgroup. -/
theorem attributed_own {start after : Machine (parentVm careful) Call Exit}
    (alone : start.running = none) (empty : World.Empty start.state)
    (reaches : (parentVm careful).Reaches manager start after) :
    (∀ id content pid process, World.state after.state id = some content →
      stateValue .pid content = decimal pid → World.processes after.state pid = some process →
      World.matchesFirecracker after.state (stateValue .pid content) (stateValue .startTime content) →
      ∃ number, process.launch = some number ∧ World.owner after.state id = some number) ∧
    (∀ id content t, World.state after.state id = some content →
      World.exec (.matchesFirecracker (stateValue .pid content) (stateValue .startTime content))
        after.state true t → World.Runs after.state id) ∧
    ¬ World.astray after.state := by
  have good : World.Good carefully after.state :=
    runs_good careful_meets (fun _ _ _ => trivial) alone (empty.good carefully) reaches
  refine ⟨fun id content pid process there isPid running matches' => ?_, fun id content t there
    matched => ?_, good.found trivial⟩
  · obtain ⟨same, other, process', number, there', _, isPid', running', launch, owner⟩ :=
      good.matched there matches'
    obtain rfl := Option.some.inj (there.symm.trans there')
    obtain rfl := decimal_injective (isPid.symm.trans isPid')
    obtain rfl := Option.some.inj (running.symm.trans running')
    exact ⟨number, launch, owner⟩
  · obtain ⟨_, ⟨rfl, isTrue⟩, rfl⟩ := matched
    exact good.matched there (isTrue.1 rfl)

/-! ## A careful run -/

theorem World.Deserts.unconfused {w t : World} (deserts : w.Deserts t) : w.Unconfused t :=
  fun pid _ free there => nomatch (deserts pid free).symm.trans there

/-- Launches that can be confused with no process the manager knows. -/
def carefulTwo : Rehearsal careful where
  answers := Two.answers
  serves
    | .cgroupPids _, _ | .signalCgroup true _ _, _ => false
    | _, _ => true
  launches _ w pid _ := decide (pid ∉ w.matched) && decide (w.vars.pid ≠ some pid) &&
    decide (∀ id ∈ w.vms, ∀ content ∈ w.state id, stateValue .pid content ≠ decimal pid)
  served command w _ checked := by
    refine ⟨(World.serve_deserts _ command w).unconfused, ?_⟩
    cases command with
    | cgroupPids => cases checked
    | signalCgroup recorded =>
      cases recorded with
      | false => trivial
      | true => cases checked
    | _ => trivial
  launched command w pid startTime reply t good checked launch := by
    refine ⟨?_, by cases command with
      | spawnLogger | spawnJailer => trivial
      | _ => cases launch⟩
    simp only [Bool.and_eq_true, decide_eq_true_eq] at checked
    obtain ⟨⟨unmatched, otherPid⟩, unrecorded⟩ := checked
    intro other process free there
    obtain rfl := World.launched_at launch free there
    refine ⟨fun id record vmm ⟨holds, status⟩ same => ?_, unmatched, otherPid⟩
    obtain ⟨content, isState, rfl⟩ := World.store_record holds
    have member := good.sound.known id _ holds
    refine unrecorded id member content isState ?_
    rw [good.value isState, ← same.1]
    generalize Record.read content = record at status
    obtain ⟨_, settings, uid⟩ := record
    obtain rfl := status
    rfl
  happened _ _ _ happens := (World.happens_deserts happens).unconfused

/-- A microVM that is created and started. -/
theorem attributed_own_started : ∃ scene : Scene, ∃ content process number,
    carefulTwo.plays ⟨Two.empty, none, []⟩
      (Two.request 7 Two.createA ++ Two.boot 9 Two.startA 50 (ascii "a")) = some scene ∧
    scene.world.state (ascii "a") = some content ∧ scene.world.processes 101 = some process ∧
    process.launch = some number ∧ scene.world.owner (ascii "a") = some number := by
  have played : (carefulTwo.plays ⟨Two.empty, none, []⟩
      (Two.request 7 Two.createA ++ Two.boot 9 Two.startA 50 (ascii "a"))).any (fun scene =>
        (scene.world.state (ascii "a")).any fun content => (scene.world.processes 101).any fun _ =>
          decide (stateValue .pid content = decimal 101) &&
            decide (scene.world.matchesFirecracker (stateValue .pid content)
              (stateValue .startTime content))) = true := by decide +kernel
  obtain ⟨scene, plays, holds⟩ := (Option.any_eq_true _ _).1 played
  obtain ⟨content, there, holds⟩ := (Option.any_eq_true _ _).1 holds
  obtain ⟨process, running, holds⟩ := (Option.any_eq_true _ _).1 holds
  simp only [Bool.and_eq_true, decide_eq_true_eq] at holds
  obtain ⟨number, launch, owner⟩ := (attributed_own rfl Two.empty_empty
    (Two.ready.plays plays).reached).1 (ascii "a") content 101 process there holds.1
      running holds.2
  exact ⟨scene, content, process, number, plays, there, running, launch, owner⟩

/-! ## Another boot -/

/-- The VMM of one microVM has the PID and start time that the VMM of another had in the
boot before. -/
def otherBoot : List Happening :=
  Two.request 7 Two.createA ++ Two.request 8 Two.createB ++ Two.boot 9 Two.startA 52 (ascii "a") ++
    [.reboots] ++ Two.boot 9 Two.startB 55 (ascii "b")

/-- The record matches, and the process is not the VMM it was written for. -/
def World.confuses (w : World) (id : Id) (pid : Pid) : Bool :=
  (w.state id).any fun content => (w.processes pid).any fun process =>
    decide (stateValue .pid content = decimal pid) &&
      decide (w.matchesFirecracker (stateValue .pid content) (stateValue .startTime content)) &&
      decide (process.launch ≠ w.owner id)

theorem World.confuses_iff {w : World} {id : Id} {pid : Pid} (confuses : w.confuses id pid = true) :
    ∃ content process, w.state id = some content ∧ w.processes pid = some process ∧
      Manager.stateValue .pid content = decimal pid ∧
      w.matchesFirecracker (Manager.stateValue .pid content) (Manager.stateValue .startTime content) ∧
      process.launch ≠ w.owner id := by
  obtain ⟨content, there, rest⟩ := (Option.any_eq_true _ _).1 confuses
  obtain ⟨process, running, rest⟩ := (Option.any_eq_true _ _).1 rest
  simp only [Bool.and_eq_true, decide_eq_true_eq] at rest
  exact ⟨content, process, there, running, rest.1.1, rest.1.2, rest.2⟩

/-- After a reboot the record of one microVM matches the VMM of another. -/
theorem other_boot_attributed :
    ¬ ∀ start after : Parent, start.running = none → World.Empty start.state → start.Reaches after →
      ∀ id content pid process, World.state after.state id = some content →
        stateValue .pid content = decimal pid → World.processes after.state pid = some process →
        World.matchesFirecracker after.state (stateValue .pid content)
          (stateValue .startTime content) →
        ∃ number, process.launch = some number ∧ World.owner after.state id = some number := by
  intro all
  have played : ((freely Two.answers).plays ⟨Two.empty, none, []⟩ otherBoot).any
      (fun scene => scene.world.confuses (ascii "a") 101) = true := by decide +kernel
  obtain ⟨scene, plays, confuses⟩ := (Option.any_eq_true _ _).1 played
  have reached := (Two.ready.plays plays).reached
  obtain ⟨content, process, there, running, isPid, matches', other⟩ := World.confuses_iff confuses
  obtain ⟨number, launch, owner⟩ := all _ _ rfl Two.empty_empty reached (ascii "a") content 101
    process there isPid running matches'
  exact other (launch.trans owner.symm)

end Luhmen.Manager
