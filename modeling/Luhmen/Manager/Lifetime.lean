/-
# Manager.Lifetime -- what becomes of a microVM over any number of requests

Two results over whole runs.  `identities_unique`: no two records have one identity, and a
record keeps the one it was created with.  `life_kept`: a microVM that was reported as created
keeps its settings, its disk stays where it is, no command of the manager writes into it
and besides only its own VMM does, and no request on another microVM touches either.
-/
import Luhmen.Manager.Rehearsal

set_option autoImplicit false

namespace Luhmen.Manager

open Luhmen.Theory

section Kept

variable {start before after : Parent}

/-! ## Identities -/

/-- What the file of a record says, key by key. -/
theorem World.Good.value {rules : Rules} {w : World} (good : w.Good rules) {id : Id}
    {content : Bytes} (there : w.state id = some content) (key : Key) :
    Manager.stateValue key content = (Record.read content).value key := by
  have value := good.stateValue (World.store_record_of_state there) key
  rwa [there] at value

/-- **Identities.**  In every run from an empty store, with requests that fail or are killed
anywhere: microVMs with a record have different identities, `gid` is `uid` and both lie in
60000..60999, and the `uid` of a microVM stays the one it was recorded with. -/
theorem identities_unique (alone : start.running = none) (empty : World.Empty start.state)
    (reaches : start.Reaches before) (later : before.Reaches after) :
    (∀ a b one other, World.state after.state a = some one → World.state after.state b = some other →
        stateValue .uid one = stateValue .uid other → a = b) ∧
      (∀ id content, World.state after.state id = some content →
        stateValue .gid content = stateValue .uid content ∧
          ∃ uid, stateValue .uid content = decimal uid ∧ 60000 ≤ uid ∧ uid ≤ 60999) ∧
      ∀ id content, World.state before.state id = some content →
        ∃ further, World.state after.state id = some further ∧
          stateValue .uid further = stateValue .uid content := by
  have good := (Parent.Reaches.keep alone empty .refl reaches).good
  have kept := Parent.Reaches.keep alone empty reaches later
  have uid : ∀ {w : World} {id content}, w.Good anything → w.state id = some content →
      stateValue .uid content = decimal (Record.read content).uid := fun good there =>
    (good.value there .uid).trans (Record.value_uid _)
  refine ⟨fun a b one other thereA thereB same => ?_, fun id content there => ⟨?_, ?_⟩,
    fun id content there => ?_⟩
  · rw [uid kept.good thereA, uid kept.good thereB] at same
    exact kept.good.sound.distinct a b _ _ (World.store_record_of_state thereA)
      (World.store_record_of_state thereB) (decimal_injective same)
  · rw [uid kept.good there, kept.good.value there .gid, Record.value_gid]
  · have valid := kept.good.sound.valid id _ (World.store_record_of_state there)
    exact ⟨_, uid kept.good there, valid.uidLow, valid.uidHigh⟩
  · obtain ⟨record, holds, sameUid, _⟩ :=
      kept.steps.keeps.record id _ (World.store_record_of_state there)
    obtain ⟨further, there', rfl⟩ := World.store_record holds
    refine ⟨further, there', ?_⟩
    rw [uid kept.good there', uid good there, sameUid]

end Kept

theorem identities_unique_two : ∃ one other, Two.second.state (ascii "a") = some one ∧
    Two.second.state (ascii "b") = some other ∧ stateValue .uid one ≠ stateValue .uid other := by
  have unique : ∀ first second : World, Parent.Reaches ⟨Two.empty, none⟩ ⟨first, none⟩ →
      Parent.Reaches ⟨first, none⟩ ⟨second, none⟩ →
      ∀ a b one other, second.state a = some one → second.state b = some other →
        stateValue .uid one = stateValue .uid other → a = b :=
    fun first second reaches later =>
      (@identities_unique ⟨Two.empty, none⟩ ⟨first, none⟩ ⟨second, none⟩ rfl Two.empty_empty reaches
        later).1
  have there : (Two.second.state (ascii "a")).isSome = true ∧
      (Two.second.state (ascii "b")).isSome = true := by decide +kernel
  obtain ⟨one, isOne⟩ := Option.isSome_iff_exists.1 there.1
  obtain ⟨other, isOther⟩ := Option.isSome_iff_exists.1 there.2
  refine ⟨one, other, isOne, isOther, fun same => ?_⟩
  have equal := unique Two.first Two.second (Two.first_created.tail .finish)
    (Two.second_created.tail .finish) _ _ one other isOne isOther same
  exact absurd equal (by decide)

/-! ## Disks and what is in them -/

section Moves

variable {w t : World} {id : Id} {inode : Inode}

/-- A VMM of a microVM writes the disk of it, and nothing else happens. -/
def World.VmmWrites (w : World) (id : Id) (t : World) : Prop :=
  ∃ pid process inode content, w.processes pid = some process ∧ process.stage = .firecracker ∧
    process.vm = id ∧ w.disk id = some inode ∧
    t = { w with contents := Function.update w.contents inode content }

/-- A command writes into no disk that is in place: copies go where no disk is. -/
theorem effect_contents {rules : Rules} {command : Command} {reply : command.Reply}
    (good : w.Good rules) (performed : World.effect command w reply t)
    (there : w.disk id = some inode) : t.contents inode = w.contents inode := by
  cases command with
  | copyDisk rootfs other =>
    obtain ⟨copy, content, own, rfl⟩ | ⟨_, rfl⟩ := performed
    · refine Function.update_of_ne ?_ _ _
      rintro rfl
      obtain staged | ⟨_, new⟩ := own
      · exact (good.staged other _ inode staged).2 id there
      · exact absurd (good.disks id inode there) (new ▸ lt_irrefl _)
    · rfl
  | shell self =>
    obtain rfl := performed
    rfl
  | mkdirVm other =>
    obtain ⟨_, _, rfl⟩ | ⟨_, rfl⟩ := performed <;> rfl
  | renameState other =>
    obtain ⟨_, _, content, _, rfl⟩ | ⟨_, rfl⟩ := performed <;> rfl
  | renameDisk other =>
    obtain ⟨_, copy, _, rfl⟩ | ⟨_, rfl⟩ := performed <;> rfl
  | spawnJailer =>
    obtain ⟨_, _, _, _, _, rfl⟩ | ⟨_, rfl⟩ := performed <;> rfl
  | signalRecorded =>
    obtain ⟨_, _, signalled⟩ | ⟨_, rfl⟩ := performed
    · obtain rfl | rfl := signalled.cases <;> rfl
    · rfl
  | assign change =>
    obtain rfl := performed
    rfl
  | signal signal pid =>
    obtain rfl | rfl := World.Signalled.cases performed <;> rfl
  | signalCgroup recorded signal pid =>
    cases recorded with
    | false | true => obtain rfl | rfl := World.Signalled.cases performed <;> rfl
  | spawnLogger =>
    obtain ⟨_, _, _, _, _, rfl⟩ | ⟨_, rfl⟩ := performed <;> rfl
  | writeTemporary | removeJail =>
    obtain ⟨_, rfl, _⟩ := performed
    rfl
  | makeJail | removePipe | removeStaged =>
    obtain ⟨_, rfl⟩ | ⟨_, rfl⟩ := performed <;> rfl
  | linkDisk | makePipe =>
    obtain ⟨_, _, rfl⟩ | ⟨_, rfl⟩ := performed <;> rfl
  | print text =>
    obtain rfl := performed
    rfl
  | _ =>
    obtain rfl := World.effect_reads (by trivial) performed
    rfl

theorem exec_contents {rules : Rules} {command : Command} {reply : command.Reply}
    (good : w.Good rules) (performed : World.exec command w reply t)
    (there : w.disk id = some inode) : t.contents inode = w.contents inode := by
  obtain ⟨after, performed, rfl⟩ := performed
  have same := effect_contents good performed there
  exact same

/-- Besides the manager only the VMM of a microVM writes its disk. -/
theorem env_contents {rules : Rules} (good : w.Good rules) (env : World.Env w t)
    (there : w.disk id = some inode) :
    t.contents inode = w.contents inode ∨ w.VmmWrites id t := by
  cases env with
  | writes content running vmm disk =>
    rename_i pid process written
    by_cases same : inode = written
    · subst same
      obtain rfl : process.vm = id := good.sound.disks _ _ inode disk there
      exact .inr ⟨pid, process, inode, content, running, vmm, rfl, disk, rfl⟩
    · exact .inl (Function.update_of_ne same _ _)
  | exit | moves => exact .inl rfl
  | foreign spawns =>
    obtain ⟨_, _, rfl⟩ := spawns
    exact .inl rfl
  | opens _ _ advances | creates _ _ advances | logOpens _ _ advances | execs advances =>
    obtain ⟨_, _, _, rfl⟩ := advances
    exact .inl rfl
  | meet reads writes =>
    obtain ⟨_, _, _, rfl⟩ := reads
    obtain ⟨_, _, _, rfl⟩ := writes
    exact .inl rfl

end Moves

section Kept

variable {start before after : Parent}

/-- One move of a run puts a record or a disk in place for the microVM that was asked for only. -/
theorem Parent.Reaches.move_same (alone : start.running = none) (empty : World.Empty start.state)
    (reaches : start.Reaches before) (move : (parentVm unrestricted).Move manager before after)
    {id : Id} (other : ∀ call program, before.running = some (call, program) → ¬ call.On id) :
    World.state after.state id = World.state before.state id ∧
      World.disk after.state id = World.disk before.state id := by
  cases move with
  | env moves => exact moves.1.same id
  | idle moves =>
    cases moves
    exact ⟨rfl, rfl⟩
  | start | finish | kill => exact ⟨rfl, rfl⟩
  | @call _ _ call request next reply performed =>
    obtain ⟨w, reached, leads⟩ := reaches.running alone rfl
    have good : World.Good anything w := (Parent.Reaches.keep alone empty .refl reached).good
    have delivers : (parentVm unrestricted).Delivers (Inv anything fun other => other = id)
        (manager call) (fun exit w => exit = .ok → call.Vouches w) (w, w) := by
      refine manager_delivers (anything_meets _) (allowed_anything call) ?_ (inv_self good)
      rintro other' on rfl
      exact other call _ rfl on
    have rest := delivers.rest (inv_lasting (anything_meets _))
      (call.steady_vouches (anything_meets _)) leads
    exact (rest.performs performed).same id rfl

/-- What was reported as created is there. -/
theorem Parent.Reaches.created (alone : start.running = none) (empty : World.Empty start.state)
    {w : World} {call : Call} (reaches : start.Reaches ⟨w, some (call, .done .ok)⟩) :
    call.Vouches w := by
  obtain ⟨s, reached, leads⟩ := reaches.running alone rfl
  have good : World.Good anything s := (Parent.Reaches.keep alone empty .refl reached).good
  have delivers : (parentVm unrestricted).Delivers (Inv anything fun _ => False)
      (manager call) (fun exit w => exit = .ok → call.Vouches w) (s, s) :=
    manager_delivers (anything_meets _) (allowed_anything call) (fun _ _ => not_false)
      (inv_self good)
  exact (delivers.leads (inv_lasting (anything_meets _))
    (call.steady_vouches (anything_meets _)) leads).2 rfl

/-- What a record says of the settings stays. -/
theorem Parent.Reaches.settings (alone : start.running = none) (empty : World.Empty start.state)
    (reaches : start.Reaches before) (later : before.Reaches after) {id : Id} {record : Record}
    (there : (World.store before.state).record id = some record) :
    ∃ content, World.state after.state id = some content ∧
      stateValue .kernel content = record.settings.kernel ∧
      stateValue .rootfs content = record.settings.rootfs ∧
      stateValue .vcpus content = record.settings.vcpus ∧
      stateValue .memoryMib content = record.settings.memoryMib := by
  have kept := Parent.Reaches.keep alone empty reaches later
  obtain ⟨last, there, _, same⟩ := kept.steps.keeps.record _ record there
  obtain ⟨content, holds, rfl⟩ := World.store_record there
  refine ⟨content, holds, ?_, ?_, ?_, ?_⟩
  · rw [kept.good.value holds, Record.value_kernel, same]
  · rw [kept.good.value holds, Record.value_rootfs, same]
  · rw [kept.good.value holds, Record.value_vcpus, same]
  · rw [kept.good.value holds, Record.value_memoryMib, same]

/-- **A microVM's life.**  In every run from an empty store, with requests that fail or are
killed anywhere: once a creation was answered with `ok`, the record yields the settings it
asked for; a record yields the settings it always did; a disk that is in place stays that
disk; no command of the manager, on whichever microVM, changes what is in it; where it does
change, a VMM of its own microVM writes it and the manager stands still; and a move of a
request on another microVM changes neither record nor disk. -/
theorem life_kept (alone : start.running = none) (empty : World.Empty start.state) :
    (∀ w self request fields after,
      start.Reaches ⟨w, some (.request self request, .done .ok)⟩ →
      parseRequest request = .ok (.create, fields) →
      Parent.Reaches ⟨w, some (.request self request, .done .ok)⟩ after →
      ∃ content, World.state after.state fields.id = some content ∧
        stateValue .kernel content = fields.kernel ∧ stateValue .rootfs content = fields.rootfs ∧
        stateValue .vcpus content = fields.vcpus ∧
        stateValue .memoryMib content = fields.memoryMib) ∧
    (∀ before after id content, start.Reaches before → before.Reaches after →
      World.state before.state id = some content →
      ∃ further, World.state after.state id = some further ∧
        ∀ key ∈ [Key.kernel, .rootfs, .vcpus, .memoryMib],
          stateValue key further = stateValue key content) ∧
    (∀ before after id inode, start.Reaches before → before.Reaches after →
      World.disk before.state id = some inode → World.disk after.state id = some inode) ∧
    (∀ before id inode command reply t, start.Reaches before →
      World.disk before.state id = some inode → World.exec command before.state reply t →
      t.contents inode = World.contents before.state inode) ∧
    (∀ before after id inode, start.Reaches before →
      (parentVm unrestricted).Move manager before after →
      World.disk before.state id = some inode →
      World.contents after.state inode = World.contents before.state inode ∨
        (after.running = before.running ∧ World.VmmWrites before.state id after.state)) ∧
    ∀ before after id, start.Reaches before →
      (parentVm unrestricted).Move manager before after →
      (∀ call program, before.running = some (call, program) → ¬ call.On id) →
      World.state after.state id = World.state before.state id ∧
        World.disk after.state id = World.disk before.state id := by
  refine ⟨?created, ?settings, ?disk, ?commands, ?contents, ?others⟩
  case created =>
    intro w self request fields after reaches asks later
    have creates : (Call.request self request).creates = some fields := by
      simp only [Call.creates, asks]
    obtain ⟨record, there, settings⟩ := reaches.created alone empty fields creates
    have kept := reaches.settings alone empty later there
    rw [settings] at kept
    exact kept
  case settings =>
    intro before after id content reaches later there
    have good : World.Good anything before.state :=
      (Parent.Reaches.keep alone empty .refl reaches).good
    obtain ⟨further, holds, kernel, rootfs, vcpus, memoryMib⟩ :=
      reaches.settings alone empty later (World.store_record_of_state there)
    refine ⟨further, holds, ?_⟩
    simp only [List.forall_mem_cons, List.not_mem_nil, false_implies, implies_true, and_true,
      good.value there, Record.value_kernel, Record.value_rootfs, Record.value_vcpus,
      Record.value_memoryMib]
    exact ⟨kernel, rootfs, vcpus, memoryMib⟩
  case disk =>
    intro before after id inode reaches later there
    exact (Parent.Reaches.keep alone empty reaches later).steps.keeps.disk id inode there
  case commands =>
    intro before id inode command reply t reaches there performed
    exact exec_contents (Parent.Reaches.keep alone empty .refl reaches).good performed there
  case contents =>
    intro before after id inode reaches move there
    have good : World.Good anything before.state :=
      (Parent.Reaches.keep alone empty .refl reaches).good
    cases move with
    | env moves => exact (env_contents good moves.1 there).imp_right fun writes => ⟨rfl, writes⟩
    | idle moves =>
      cases moves
      exact .inl rfl
    | start | finish | kill => exact .inl rfl
    | call performed => exact .inl (exec_contents good performed.1 there)
  case others =>
    intro before after id reaches move other
    exact reaches.move_same alone empty move other

/-- A microVM that was created and started, while another is created. -/
theorem life_kept_two : ∃ created started last : Scene, ∃ content inode,
    (freely Two.answers).plays (Scene.calling ⟨Two.empty, none, []⟩ (.request 7 Two.createA))
      [.serves 60] = some created ∧
    (freely Two.answers).plays created (.finishes :: Two.boot 9 Two.startA 50 (ascii "a")) =
      some started ∧
    (freely Two.answers).plays started (Two.request 8 Two.createB) = some last ∧
    started.world.disk (ascii "a") = some inode ∧ last.world.state (ascii "a") = some content ∧
    stateValue .kernel content = ascii "/kernel" ∧ stateValue .rootfs content = ascii "/rootfs" ∧
    stateValue .vcpus content = ascii "1" ∧ stateValue .memoryMib content = ascii "128" ∧
    last.world.disk (ascii "a") = some inode ∧
    ∀ command reply t, World.exec command last.world reply t →
      t.contents inode = last.world.contents inode := by
  have played : ((freely Two.answers).plays
      (Scene.calling ⟨Two.empty, none, []⟩ (.request 7 Two.createA)) [.serves 60]).any
      (fun created => created.isDone .ok && ((freely Two.answers).plays created
        (.finishes :: Two.boot 9 Two.startA 50 (ascii "a"))).any fun started =>
          (started.world.disk (ascii "a")).isSome && ((freely Two.answers).plays started
            (Two.request 8 Two.createB)).isSome) = true := by decide +kernel
  obtain ⟨created, plays, holds⟩ := (Option.any_eq_true _ _).1 played
  obtain ⟨done, holds⟩ := (Bool.and_eq_true _ _).mp holds
  obtain ⟨started, plays', holds⟩ := (Option.any_eq_true _ _).1 holds
  obtain ⟨hasDisk, holds⟩ := (Bool.and_eq_true _ _).mp holds
  obtain ⟨inode, disk⟩ := Option.isSome_iff_exists.1 hasDisk
  obtain ⟨last, plays''⟩ := Option.isSome_iff_exists.1 holds
  obtain ⟨ready, running, _⟩ := Two.ready.called rfl (by decide) plays done
  have begun := ready.onward.plays plays'
  have ended := begun.onward.plays plays''
  obtain ⟨settings, _, disks, commands, _⟩ := @life_kept ⟨Two.empty, none⟩ rfl Two.empty_empty
  obtain ⟨w, _, used⟩ := created
  obtain rfl := running
  obtain ⟨content, there, kernel, rootfs, vcpus, memoryMib⟩ :=
    settings w 7 Two.createA _ (last.machine _) ready.reached Two.createA_parsed
      (begun.reached.trans ended.reached)
  have isLast := disks (started.machine _) (last.machine _) (ascii "a") inode
    (ready.reached.trans begun.reached) ended.reached disk
  exact ⟨_, started, last, content, inode, plays, plays', plays'', disk, there, kernel, rootfs, vcpus,
    memoryMib, isLast, fun command reply t performed => commands (last.machine _) (ascii "a") inode
      command reply t ((ready.reached.trans begun.reached).trans ended.reached) isLast performed⟩

end Kept

end Luhmen.Manager
