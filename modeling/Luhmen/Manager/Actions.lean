/-
# Manager.Actions -- each action of the manager goes by steps of its store

`Manager.Walk` has the rules; here the actions are walked with them.  `create` finds an
identity that no record has (`walk_allocateIdentity`), `start` room beside the living
VMMs (`walk_checkStartResources`) and then its own child in the cgroup it waits for
(`walk_boot`), and `stop` signals only what it has just matched (`walk_stopProcess`).

`manager_delivers` puts them together: whatever it is called with, a good world stays
good.
-/
import Mathlib
import Luhmen.Manager.Walk

set_option autoImplicit false

namespace Luhmen.Manager

open Luhmen.Theory

/-! ## Texts and numbers -/

theorem arith_decimal (n : Nat) : arith (decimal n) = some n := by
  cases n with
  | zero => rfl
  | succ n =>
    rw [arith]
    · rw [value_decimal]
    · exact decimal_head n.succ_pos

theorem number_decimal (n : Nat) : number (decimal n) = true := by
  simp [number, decimal_ne_nil, all_isDigit_decimal]

theorem numeral_of_inRange {text : Bytes} {low high : Nat} (within : inRange text low high = true) :
    Numeral text low high := by
  simp only [inRange, number, Bool.and_eq_true, decide_eq_true_eq] at within
  obtain ⟨⟨⟨nonempty, digits⟩, low⟩, high⟩ := within
  exact ⟨nonempty, digits, low, high⟩

theorem Numeral.line {text : Bytes} {low high : Nat} (numeral : Numeral text low high) :
    Line text := by
  intro member
  exact absurd (List.all_eq_true.1 numeral.digits _ member) (by decide)

theorem line_of_validPath {text : Bytes} (valid : validPath text = true) : Line text := by
  intro member
  simp only [validPath, Bool.and_eq_true, Bool.not_eq_true', List.any_eq_false] at valid
  exact absurd rfl (valid.1.2 _ member)

/-- What a request asks a microVM to be. -/
def Fields.settings (fields : Fields) : Settings :=
  ⟨fields.kernel, fields.rootfs, fields.vcpus, fields.memoryMib⟩

namespace Frame

variable {frame : Frame} {α : Type} {P : World → Prop} {Q : α → World → Prop}

/-! ## Identities -/

/-- No record of these has the identity. -/
def Unclaimed (uid : Nat) (ids : List Id) (w : World) : Prop :=
  ∀ id ∈ ids, ∀ record, w.store.record id = some record → record.uid ≠ uid

/-- No record has the identity. -/
def Free (uid : Nat) (w : World) : Prop :=
  ∀ id record, w.store.record id = some record → record.uid ≠ uid

theorem rougher_unclaimed {rules : Rules} {uid : Nat} {ids : List Id} :
    World.Rougher rules (Unclaimed uid ids) :=
  fun _ _ _ rough here id member record there => here id member record (rough.record id ▸ there)

theorem rougher_free {rules : Rules} {uid : Nat} : World.Rougher rules (Free uid) :=
  fun _ _ _ rough here id record there => here id record (rough.record id ▸ there)

/-- Every record is of one of these. -/
def Covers (ids : List Id) (w : World) : Prop :=
  ∀ id record, w.store.record id = some record → id ∈ ids

theorem rougher_covers {rules : Rules} {ids : List Id} : World.Rougher rules (Covers ids) :=
  fun _ _ _ rough here id record there => here id record (rough.record id ▸ there)

/-- What `[ -f "$vm/state" ]` says. -/
theorem walk_hasState {id : Id} (calmer : World.Calmer frame.rules P) :
    frame.Walk P (ask (.hasState id)) fun there w =>
      P w ∧ (there = false → w.store.record id = none) ∧
        (there = true → ∃ record, w.store.record id = some record) := by
  refine walk_quiet (by trivial) calmer fun w reply t good here performed => ?_
  obtain ⟨now, ⟨rfl, is⟩, rfl⟩ := performed
  show (reply = false → (now.state id).map Record.read = none) ∧
    (reply = true → ∃ record, (now.state id).map Record.read = some record)
  cases holds : now.state id with
  | none => simp [is, holds]
  | some content => simp [is, holds]

theorem walk_recordedIdentity {uid : Nat} {ids : List Id} (calmer : World.Calmer frame.rules P) :
    frame.Walk P (recordedIdentity (decimal uid) ids) fun found w =>
      P w ∧ (found = false → Unclaimed uid ids w) := by
  induction ids generalizing P with
  | nil => exact System.Contract.pure fun w here => ⟨here, fun _ id member => nomatch member⟩
  | cons candidate rest ih =>
    -- one candidate is cleared, and the loop goes on
    have further : ∀ P' : World → Prop, World.Calmer frame.rules P' → (∀ w, P' w → P w) →
        (∀ w, P' w → Unclaimed uid [candidate] w) →
        frame.Walk P' (recordedIdentity (decimal uid) rest) fun found w =>
          P w ∧ (found = false → Unclaimed uid (candidate :: rest) w) := by
      intro P' calmer' weaker cleared
      have both : World.Calmer frame.rules fun w => P' w ∧ Unclaimed uid [candidate] w :=
        calmer'.and rougher_unclaimed.calmer
      refine (ih both).weaken (fun w here => ⟨here, cleared w here⟩) ?_ (fun _ _ => id)
      rintro found w ⟨⟨here, first⟩, others⟩
      refine ⟨weaker w here, fun none' id member => ?_⟩
      obtain rfl | further := List.mem_cons.1 member
      · exact first id List.mem_cons_self
      · exact others none' id further
    refine (walk_hasState calmer).bind fun there => ?_
    cases there with
    | false =>
      refine System.Contract.from_pre (fun w here =>
        show P w ∧ w.store.record candidate = none from ⟨here.1, here.2.1 rfl⟩) ?_
      refine further _ (calmer.and rougher_record.calmer) (fun _ => And.left) ?_
      intro w here id member record there
      rw [List.mem_singleton.1 member, here.2] at there
      cases there
    | true =>
      refine System.Contract.from_pre (fun w here =>
        show ∃ record, P w ∧ w.store.record candidate = some record from
          (here.2.2 rfl).imp fun record there => ⟨here.1, there⟩) ?_
      refine System.Contract.exists fun record => ?_
      have known : World.Calmer frame.rules fun w =>
          P w ∧ w.store.record candidate = some record :=
        calmer.and rougher_record.calmer
      refine value_then known (fun _ => And.right) ?_
      rw [Record.value_uid]
      split
      case isTrue =>
        exact System.Contract.pure fun w here => ⟨here.1, fun is => nomatch is⟩
      case isFalse other =>
        refine further _ known (fun _ => And.left) ?_
        intro w here id member record' there
        rw [List.mem_singleton.1 member, here.2] at there
        cases there
        exact fun same => other (congrArg decimal same)

theorem walk_listVms (calmer : World.Calmer frame.rules P) :
    frame.Walk P (ask .listVms) fun ids w => P w ∧ ids.Nodup ∧ (∀ id, id ∈ ids ↔ id ∈ w.vms) ∧
      Covers ids w := by
  refine walk_quiet (by trivial) calmer fun w reply t good here performed => ?_
  obtain ⟨_, ⟨rfl, once, all⟩, rfl⟩ := performed
  exact ⟨once, all, fun id record there => (all id).2 (good.sound.known id record there)⟩

theorem walk_identityInUse {uid : Nat} (calmer : World.Calmer frame.rules P) :
    frame.Walk P (identityInUse uid) fun used w => P w ∧ (used = false → Free uid w) := by
  refine (mild_ask (by trivial)).then calmer fun taken => ?_
  split
  · exact System.Contract.pure fun w here => ⟨here, fun is => nomatch is⟩
  · refine (walk_listVms calmer).bind fun ids => ?_
    have covers : World.Calmer frame.rules fun w => P w ∧ Covers ids w :=
      calmer.and rougher_covers.calmer
    refine (walk_recordedIdentity covers).weaken (fun w here => ⟨here.1, here.2.2.2⟩) ?_
      (fun _ _ => id)
    rintro found w ⟨⟨here, covers⟩, unclaimed⟩
    exact ⟨here, fun none' id record there => unclaimed none' id (covers id record there) record there⟩

theorem walk_firstFree {uids : List Nat} (calmer : World.Calmer frame.rules P) :
    frame.Walk P (firstFree uids) fun free w =>
      P w ∧ ∀ uid, free = some uid → uid ∈ uids ∧ Free uid w := by
  induction uids with
  | nil => exact System.Contract.pure fun w here => ⟨here, fun _ is => nomatch is⟩
  | cons uid rest ih =>
    refine (walk_identityInUse calmer).bind fun used => ?_
    cases used with
    | true =>
      refine ih.weaken (fun _ => And.left) (fun free w here => ⟨here.1, fun uid is => ?_⟩)
        (fun _ _ => id)
      exact ⟨List.mem_cons_of_mem _ (here.2 uid is).1, (here.2 uid is).2⟩
    | false =>
      refine System.Contract.pure fun w here => ⟨here.1, fun uid is => ?_⟩
      obtain rfl := Option.some.inj is
      exact ⟨List.mem_cons_self, here.2 rfl⟩

/-- An identity of the range that no record has. -/
theorem walk_allocateIdentity (calmer : World.Calmer frame.rules P) :
    frame.Walk P allocateIdentity fun uid w =>
      P w ∧ Free uid w ∧ 60000 ≤ uid ∧ uid ≤ 60999 := by
  refine (walk_firstFree calmer).bind fun free => ?_
  cases free with
  | none => exact walk_errorReply
  | some uid =>
    refine System.Contract.pure fun w here => ?_
    obtain ⟨inside, free⟩ := here.2 uid rfl
    have range := List.mem_range'_1.1 inside
    exact ⟨here.1, free, range.1, Nat.le_of_lt_succ range.2⟩

/-! ## Creating -/

theorem walk_mkdirVm {uid : Nat} {id : Id} (named : validId id = true) :
    frame.Walk (Free uid) (ask (.mkdirVm id)) fun made w =>
      made = true → Free uid w ∧ w.store.record id = none := by
  refine walk_ask (fun _ _ => trivial) rougher_free.calmer fun w reply t good here performed _ => ?_
  obtain ⟨good', steps, state, made⟩ := World.exec_mkdirVm good named performed
  have same : ∀ id, t.store.record id = w.store.record id := fun id =>
    congrArg (fun state : Id → Option Bytes => (state id).map Record.read) state
  refine ⟨good', steps, fun done => ⟨fun id record there => here id record (same id ▸ there), ?_⟩⟩
  rw [same]
  cases holds : w.store.record id with
  | none => rfl
  | some record => exact absurd (good.sound.known id record holds) (made done).1

theorem walk_create {fields : Fields} {Q : Unit → World → Prop} (mine : ¬ frame.spared fields.id)
    (allowed : frame.rules.allowed fields.settings)
    (vouches : ∀ w record, w.store.record fields.id = some record →
      record.settings = fields.settings → frame.vouched w) :
    frame.Walk P (create fields) Q := by
  refine System.Contract.from_pre (fun _ _ => trivial) ?_
  refine require_pure fun named => require_pure fun kernel => require_pure fun rootfs => ?_
  refine require_pure fun vcpus => require_pure fun memoryMib => ?_
  refine (mild_require (mild_ask (by trivial))).then calmer_true fun _ => ?_
  refine (mild_require (mild_ask (by trivial))).then calmer_true fun _ => ?_
  refine (walk_allocateIdentity calmer_true).bind fun uid => ?_
  refine System.Contract.assume (fun _ here => here.2.2) fun range => ?_
  refine System.Contract.from_pre (fun _ here => here.2.1) ?_
  refine (mild_require ?_).then rougher_free.calmer fun _ => ?_
  · exact (mild_ask (by trivial)).bind fun _ => mild_pure
  refine System.Contract.bind (walk_demand (walk_mkdirVm named)) fun _ => ?_
  have vcpus := numeral_of_inRange vcpus
  have memoryMib := numeral_of_inRange memoryMib
  have clean : Record.Clean ⟨.created, fields.settings, uid⟩ :=
    ⟨⟨line_of_validPath kernel, line_of_validPath rootfs, vcpus.line, memoryMib.line⟩,
      fun _ is => nomatch is⟩
  have written : frame.Walk (fun w => Free uid w ∧ w.store.record fields.id = none)
      (writeState fields.id (Record.fields ⟨.created, fields.settings, uid⟩)) fun _ w =>
        w.store.record fields.id = some ⟨.created, fields.settings, uid⟩ := by
    refine walk_writeState mine (rougher_free.and rougher_record).calmer clean ?_
    intro w good here member
    exact .create member here.2 ⟨clean, vcpus, memoryMib, range.1, range.2⟩ allowed here.1
  refine System.Contract.bind written fun _ => ?_
  refine mild_jsonVm.then rougher_record.calmer fun _ => ?_
  exact walk_okReply rougher_record.calmer fun w here => vouches w _ here rfl

/-! ## Resources -/

/-- No more than this is used by a microVM. -/
def Uses (id : Id) (added : Nat × Nat) (w : World) : Prop :=
  w.store.share Settings.cpuCost id ≤ added.1 ∧ w.store.share Settings.memoryCost id ≤ added.2

theorem rougher_uses {rules : Rules} {id : Id} {added : Nat × Nat} :
    World.Rougher rules (Uses id added) := by
  intro w t good rough here
  have less : ∀ cost, t.store.share cost id ≤ w.store.share cost id := fun cost =>
    Store.share_le_of_live (rough.live good)
  exact ⟨(less _).trans here.1, (less _).trans here.2⟩

theorem uses_of_not_live {w : World} {id : Id} (dead : ¬ w.store.Live id) : Uses id (0, 0) w := by
  simp [Uses, Store.share_of_not_live dead]

theorem uses_of_record {w : World} {id : Id} {record : Record}
    (there : w.store.record id = some record) :
    Uses id (record.settings.cpuCost, record.settings.memoryCost) w := by
  have bounded : ∀ cost : Settings → Nat, w.store.share cost id ≤ cost record.settings := by
    intro cost
    unfold Store.share
    rw [there]
    split
    · exact le_rfl
    · exact Nat.zero_le _
  exact ⟨bounded _, bounded _⟩

/-- The VMM a record was written for matches while it lives. -/
theorem matches_of_live {rules : Rules} {w : World} (good : w.Good rules) {id : Id}
    {record : Record} {vmm : Running} (there : w.store.record id = some record)
    (status : record.status = .running vmm) (live : w.store.Live id) :
    w.matchesFirecracker (decimal vmm.pid) (decimal vmm.startTime) := by
  obtain ⟨record', vmm', process, number, ⟨there', status'⟩, running, launch, owner⟩ := live
  obtain rfl : record' = record := Option.some.inj (there'.symm.trans there)
  obtain rfl : vmm' = vmm := Status.running.inj (status'.symm.trans status)
  obtain ⟨startTime, isVmm⟩ :=
    good.sound.live id record' vmm' process number ⟨there', status'⟩ running launch owner
  exact ⟨vmm'.pid, process, rfl, running, .inr (congrArg decimal startTime.symm), isVmm⟩

theorem walk_matchesRecorded {id : Id} {record : Record} {vmm : Running}
    (calmer : World.Calmer frame.rules P) (known : ∀ w, P w → w.store.record id = some record)
    (status : record.status = .running vmm) :
    frame.Walk P (ask (.matchesFirecracker (decimal vmm.pid) (decimal vmm.startTime)))
      fun matched w => P w ∧ (matched = false → ¬ w.store.Live id) := by
  refine walk_quiet (by trivial) calmer fun w reply t good here performed => ?_
  obtain ⟨now, ⟨rfl, is⟩, rfl⟩ := performed
  show reply = false → ¬ now.store.Live id
  intro unmatched live
  have matched := is.2 (matches_of_live good (known now here) status live)
  rw [unmatched] at matched
  cases matched

theorem walk_recordedResources {id : Id} {record : Record} (calmer : World.Calmer frame.rules P)
    (known : ∀ w, P w → w.store.record id = some record) (plain : record.settings.Plain) :
    frame.Walk P (recordedResources id) fun added w => P w ∧ Uses id added w := by
  refine value_then calmer known (value_then calmer known ?_)
  obtain ⟨⟨vcpus, isVcpus⟩, memoryMib, isMemoryMib⟩ := plain
  rw [Record.value_vcpus, Record.value_memoryMib, isVcpus, isMemoryMib, number_decimal,
    number_decimal, arith_decimal, arith_decimal]
  refine System.Contract.pure fun w here => ⟨here, ?_⟩
  have uses := uses_of_record (known w here)
  rw [Settings.cpuCost, Settings.memoryCost, isVcpus, isMemoryMib, value_decimal,
    value_decimal] at uses
  exact uses

theorem walk_candidateResources {id : Id} (plain : frame.rules.Plain)
    (calmer : World.Calmer frame.rules P) :
    frame.Walk P (candidateResources id) fun added w => P w ∧ Uses id added w := by
  have idle : ∀ P' : World → Prop, (∀ w, P' w → P w ∧ ¬ w.store.Live id) →
      frame.Walk P' (pure (0, 0)) fun added w => P w ∧ Uses id added w :=
    fun P' dead => System.Contract.pure fun w here =>
      ⟨(dead w here).1, uses_of_not_live (dead w here).2⟩
  refine (walk_hasState calmer).bind fun there => ?_
  cases there with
  | false =>
    refine idle _ fun w here => ⟨here.1, ?_⟩
    rintro ⟨record, _, _, _, ⟨there, _⟩, _⟩
    rw [here.2.1 rfl] at there
    cases there
  | true =>
    refine System.Contract.from_pre (fun w here =>
      show ∃ record, P w ∧ w.store.record id = some record from
        (here.2.2 rfl).imp fun record there => ⟨here.1, there⟩) ?_
    refine System.Contract.exists fun record => ?_
    have calmer : World.Calmer frame.rules fun w => P w ∧ w.store.record id = some record :=
      calmer.and rougher_record.calmer
    have known : ∀ w, (P w ∧ w.store.record id = some record) → w.store.record id = some record :=
      fun _ => And.right
    have notRunning : (∀ vmm, record.status ≠ .running vmm) →
        ∀ w, (P w ∧ w.store.record id = some record) → P w ∧ ¬ w.store.Live id := by
      intro other w here
      refine ⟨here.1, fun live => ?_⟩
      obtain ⟨vmm, status⟩ := live.status here.2
      exact other vmm status
    refine value_then calmer known ?_
    obtain ⟨status, settings, uid⟩ := record
    cases status with
    | created => exact idle _ (notRunning fun _ is => nomatch is)
    | stopped => exact idle _ (notRunning fun _ is => nomatch is)
    | running vmm =>
      show frame.Walk _ (ask (.stateValue .pid id) >>= _) _
      refine value_then calmer known (value_then calmer known ?_)
      refine (walk_matchesRecorded calmer known rfl).bind fun matched => ?_
      cases matched with
      | false => exact idle _ fun w here => ⟨here.1.1, here.2 rfl⟩
      | true =>
        refine System.Contract.given (fun _ w inv here => show settings.Plain from ?_)
          fun plain => ?_
        · exact plain settings (inv.good.sound.allowed id _ here.1.2)
        · refine (walk_recordedResources calmer known plain).weaken (fun _ => And.left) ?_
            (fun _ _ here => here)
          exact fun added w here => ⟨here.1.1, here.2⟩

/-- The loop counts all that is used. -/
theorem walk_runningResources (plain : frame.rules.Plain) {ids : List Id} {used : Nat × Nat}
    (calmer : World.Calmer frame.rules P) :
    frame.Walk P (runningResources ids used) fun total w => P w ∧
      (ids.map (w.store.share Settings.cpuCost)).sum + used.1 ≤ total.1 ∧
      (ids.map (w.store.share Settings.memoryCost)).sum + used.2 ≤ total.2 := by
  induction ids generalizing P used with
  | nil => exact System.Contract.pure fun w here => ⟨here, by simp, by simp⟩
  | cons candidate rest ih =>
    refine (walk_candidateResources plain calmer).bind fun added => ?_
    refine (ih (calmer.and rougher_uses.calmer)).weaken (fun _ => id) ?_ (fun _ _ => id)
    rintro total w ⟨⟨here, cpus, memory⟩, allCpus, allMemory⟩
    simp only [List.map_cons, List.sum_cons]
    exact ⟨here, by omega, by omega⟩

/-- What the parent VM has, and no less than what is used of it. -/
structure Measures (capacity : Capacity) (w : World) : Prop where
  cpus : value capacity.parentCpus = w.cpus
  memory : value capacity.parentMemoryMib = w.memory
  usedCpus : w.store.load Settings.cpuCost w.vms ≤ capacity.usedVcpus
  usedMemory : w.store.load Settings.memoryCost w.vms ≤ capacity.usedMemoryMib

/-- The text of a number that is known, or nothing. -/
def Reads (text : Bytes) (n : Nat) : Prop :=
  text = decimal n ∨ text = []

theorem Reads.value {text : Bytes} {n : Nat} (reads : Reads text n) (isNumber : number text = true) :
    value text = n := by
  obtain rfl | rfl := reads
  · exact value_decimal n
  · cases isNumber

theorem sum_share {w : World} {cost : Settings → Nat} {ids : List Id} (once : ids.Nodup)
    (all : ∀ id, id ∈ ids ↔ id ∈ w.vms) :
    (ids.map (w.store.share cost)).sum = w.store.load cost w.vms := by
  have same : ids.toFinset = w.vms := by
    ext id
    rw [List.mem_toFinset, all]
  rw [Store.load, ← same, List.sum_toFinset _ once]

theorem walk_resourceCapacity (plain : frame.rules.Plain) (calmer : World.Calmer frame.rules P) :
    frame.Walk P resourceCapacity fun capacity w =>
      P w ∧ ∀ found, capacity = some found → Measures found w := by
  have cpuCount : frame.Walk P (ask .cpuCount) fun text w => P w ∧ Reads text w.cpus := by
    refine walk_quiet (by trivial) calmer fun w reply t good here performed => ?_
    obtain ⟨now, ⟨rfl, is⟩, rfl⟩ := performed
    exact is
  refine cpuCount.bind fun parentCpus => ?_
  have calmer : World.Calmer frame.rules fun w => P w ∧ Reads parentCpus w.cpus :=
    calmer.and fun w t _ calm here => calm.cpus ▸ here
  have memTotal : frame.Walk (fun w => P w ∧ Reads parentCpus w.cpus) (ask .memTotal)
      fun text w => (P w ∧ Reads parentCpus w.cpus) ∧ Reads text w.memory := by
    refine walk_quiet (by trivial) calmer fun w reply t good here performed => ?_
    obtain ⟨now, ⟨rfl, is⟩, rfl⟩ := performed
    exact is
  refine memTotal.bind fun parentMemoryMib => ?_
  have calmer : World.Calmer frame.rules fun w =>
      (P w ∧ Reads parentCpus w.cpus) ∧ Reads parentMemoryMib w.memory :=
    calmer.and fun w t _ calm here => calm.memory ▸ here
  split
  case isFalse => exact System.Contract.pure fun w here => ⟨here.1.1, fun _ is => nomatch is⟩
  case isTrue isNumber =>
    simp only [Bool.and_eq_true, decide_eq_true_eq] at isNumber
    refine (walk_listVms calmer).bind fun ids => ?_
    refine System.Contract.from_pre (fun w here =>
      show ((P w ∧ Reads parentCpus w.cpus) ∧ Reads parentMemoryMib w.memory) ∧ ids.Nodup ∧
        ∀ id, id ∈ ids ↔ id ∈ w.vms from ⟨here.1, here.2.1, here.2.2.1⟩) ?_
    have calmer : World.Calmer frame.rules fun w =>
        ((P w ∧ Reads parentCpus w.cpus) ∧ Reads parentMemoryMib w.memory) ∧ ids.Nodup ∧
          ∀ id, id ∈ ids ↔ id ∈ w.vms :=
      calmer.and fun w t _ calm here => ⟨here.1, fun id => calm.vms ▸ here.2 id⟩
    refine (walk_runningResources plain calmer).bind fun used => ?_
    refine System.Contract.pure ?_
    rintro w ⟨⟨⟨⟨here, cpus⟩, memory⟩, once, all⟩, usedCpus, usedMemory⟩
    refine ⟨here, fun found is => ?_⟩
    obtain rfl := Option.some.inj is
    rw [sum_share once all] at usedCpus usedMemory
    exact ⟨cpus.value isNumber.1.1.1, memory.value isNumber.1.2, usedCpus, usedMemory⟩

theorem mild_checkStartResources {vcpus memoryMib : Bytes} :
    frame.Mild (checkStartResources vcpus memoryMib) :=
  fun _ calmer => show (frame.conduct calmer).Keeps _ from Conduct.keeps_checkStartResources

theorem rougher_fits {rules : Rules} {id : Id} {settings : Settings} :
    World.Rougher rules fun w => w.store.Fits id settings := by
  rintro w t good rough ⟨cpus, memory⟩
  have less : ∀ cost, t.store.load cost (t.vms.erase id) ≤ w.store.load cost (w.vms.erase id) := by
    intro cost
    rw [rough.vms]
    exact Store.load_le_of_live fun other _ live => rough.live good live
  constructor
  · calc t.store.load Settings.cpuCost (t.vms.erase id) + settings.cpuCost
        ≤ w.store.load Settings.cpuCost (w.vms.erase id) + settings.cpuCost :=
          Nat.add_le_add_right (less _) _
      _ ≤ w.cpus := cpus
      _ = t.cpus := rough.cpus.symm
  · calc t.store.load Settings.memoryCost (t.vms.erase id) + settings.memoryCost + 512
        ≤ w.store.load Settings.memoryCost (w.vms.erase id) + settings.memoryCost + 512 :=
          Nat.add_le_add_right (Nat.add_le_add_right (less _) _) _
      _ ≤ w.memory := memory
      _ = t.memory := rough.memory.symm

/-- Behind the check there is room for a microVM with these settings. -/
theorem walk_checkStartResources (id : Id) {settings : Settings}
    (calmer : World.Calmer frame.rules P) (allowed : frame.rules.allowed settings) :
    frame.Walk P (checkStartResources settings.vcpus settings.memoryMib) fun _ w =>
      P w ∧ (frame.rules.Plain → w.store.Fits id settings) := by
  by_cases plain : frame.rules.Plain
  case neg =>
    exact (mild_checkStartResources P calmer).weaken (fun _ here => here)
      (fun _ w here => ⟨here, fun is => absurd is plain⟩) (fun _ _ here => here)
  case pos =>
    refine (walk_resourceCapacity plain calmer).bind fun capacity => ?_
    cases capacity with
    | none => exact walk_errorReply
    | some capacity =>
      refine require_pure fun cpusFit => ?_
      obtain ⟨_, memoryMib, isMemoryMib⟩ := plain settings allowed
      rw [isMemoryMib, arith_decimal]
      refine walk_require (System.Contract.pure fun w here memoryFits => ?_)
      obtain ⟨cpus, memory, usedCpus, usedMemory⟩ := here.2 capacity rfl
      have less : ∀ cost, w.store.load cost (w.vms.erase id) ≤ w.store.load cost w.vms :=
        fun cost => Finset.sum_le_sum_of_subset (Finset.erase_subset _ _)
      simp only [decide_eq_true_eq, Capacity.availableVcpus, Capacity.availableMemoryMib,
        MEMORY_RESERVE_MIB, VMM_MEMORY_MIB, cpus, memory] at cpusFit memoryFits
      have lessCpus := less Settings.cpuCost
      have lessMemory := less Settings.memoryCost
      refine ⟨here.1, fun _ => ⟨?_, ?_⟩⟩
      · show w.store.load Settings.cpuCost (w.vms.erase id) + value settings.vcpus ≤ w.cpus
        omega
      · show w.store.load Settings.memoryCost (w.vms.erase id) +
          (value settings.memoryMib + 128) + 512 ≤ w.memory
        rw [isMemoryMib, value_decimal]
        omega

/-! ## Starting -/

/-- The identity in a valid record is the one it has. -/
theorem walk_startIdentity {id : Id} {record : Record} {status kernel rootfs vcpus memoryMib : Bytes}
    (calmer : World.Calmer frame.rules P) (known : ∀ w, P w → w.store.record id = some record) :
    frame.Walk P (startIdentity id status kernel rootfs vcpus memoryMib) fun identity w =>
      P w ∧ identity = (decimal record.uid, decimal record.uid) := by
  refine value_then calmer known (value_then calmer known ?_)
  rw [Record.value_uid, Record.value_gid, number_decimal]
  rw [if_pos (by simp)]
  exact System.Contract.pure fun w here => ⟨here, rfl⟩

theorem mild_copyDisk {rootfs : Bytes} {id : Id} {message : String} :
    frame.Mild (require (ask (.copyDisk rootfs id)) message) :=
  mild_require (mild_ask (by trivial))

/-- The disk of a microVM is made where there is none. -/
theorem walk_startDisk {rootfs : Bytes} {id : Id} (mine : ¬ frame.spared id)
    (rougher : World.Rougher frame.rules P) :
    frame.Walk P (startDisk rootfs id) fun _ => P := by
  have hasDisk : frame.Walk P (ask (.hasDisk id)) fun there w =>
      P w ∧ (there = false → w.disk id = none) := by
    refine walk_quiet (by trivial) rougher.calmer fun w reply t good here performed => ?_
    obtain ⟨now, ⟨rfl, is⟩, rfl⟩ := performed
    intro missing
    exact Option.isNone_iff_eq_none.1 (by simpa using is.symm.trans missing)
  refine hasDisk.bind fun there => ?_
  have missing : World.Calmer frame.rules fun w => P w ∧ w.disk id = none :=
    rougher.calmer.and fun w t _ calm here => (congrFun calm.disk id).trans here
  have last : frame.Walk P (require (ask (.hasDisk id)) "microVM overlay must be a regular file")
      fun _ => P := mild_require (mild_ask (by trivial)) P rougher.calmer
  refine System.Contract.bind (show frame.Walk _ _ fun _ => P from ?_) fun _ => last
  cases there with
  | true => exact System.Contract.pure fun w here => here.1
  | false =>
    refine System.Contract.from_pre (fun w here =>
      show P w ∧ w.disk id = none from ⟨here.1, here.2 rfl⟩) ?_
    have noted : frame.Walk (fun w => P w ∧ w.disk id = none)
        (ask (.assign fun vars => { vars with overlay := some id }))
        fun _ w => P w ∧ w.disk id = none := by
      refine walk_ask (fun _ _ => trivial) missing fun w reply t good here performed _ => ?_
      obtain ⟨good', steps, rough⟩ := World.exec_assign good performed
      refine ⟨good', steps, rougher w t good rough here.1, ?_⟩
      obtain ⟨_, rfl, rfl⟩ := performed
      exact here.2
    refine noted.bind fun _ => mild_copyDisk.then missing fun _ => ?_
    have spares : ∀ other, frame.spared other → (Command.renameDisk id).Spares other := by
      rintro other isSpared rfl
      exact mine isSpared
    have placed : frame.Walk (fun w => P w ∧ w.disk id = none) (ask (.renameDisk id))
        fun done w => done = true → P w := by
      refine walk_ask spares missing fun w reply t good here performed unconfused => ?_
      obtain ⟨good', steps, rough⟩ := World.exec_renameDisk good performed here.2 unconfused
      exact ⟨good', steps, fun _ => rougher w t good rough here.1⟩
    exact System.Contract.bind (walk_demand placed) fun _ => walk_assign_rougher rougher

theorem walk_startJail {kernel uid gid : Bytes} {id : Id} (rougher : World.Rougher frame.rules P) :
    frame.Walk P (startJail kernel uid gid id) fun _ => P := by
  refine (mild_demand (mild_ask (by trivial))).then rougher.calmer fun _ => ?_
  refine (mild_demand (mild_ask (by trivial))).then rougher.calmer fun _ => ?_
  refine (walk_assign_rougher rougher).bind fun _ => ?_
  refine (mild_require (mild_ask (by trivial))).then rougher.calmer fun _ => ?_
  refine (mild_require (mild_ask (by trivial))).then rougher.calmer fun _ => ?_
  exact mild_demand (mild_ask (by trivial)) P rougher.calmer

theorem walk_startLog {parent : Bytes} {id : Id} (rougher : World.Rougher frame.rules P) :
    frame.Walk P (startLog parent id) fun _ => P := by
  refine (walk_assign_rougher rougher).bind fun _ => ?_
  refine (mild_ask (by trivial)).then rougher.calmer fun there => ?_
  refine (mild_provided (mild_require (mild_ask (by trivial)))).then rougher.calmer fun _ => ?_
  refine (mild_demand (mild_ask (by trivial))).then rougher.calmer fun _ => ?_
  refine (mild_demand (mild_ask (by trivial))).then rougher.calmer fun _ => ?_
  refine (mild_demand (mild_ask (by trivial))).then rougher.calmer fun _ => ?_
  refine (walk_assign_rougher rougher).bind fun _ => ?_
  refine (mild_ask (by trivial)).then rougher.calmer fun logger => ?_
  cases logger with
  | none => exact mild_failed P rougher.calmer
  | some pid => exact walk_assign_rougher rougher

/-! ## The child of a start -/

/-- What a launched process is, as long as it lives. -/
def ChildIs (pid : Pid) (number : Nat) (is : Process → Prop) (w : World) : Prop :=
  number < w.launches ∧ ∀ process, w.processes pid = some process →
    process.launch = some number → is process

theorem rougher_childIs {rules : Rules} {pid : Pid} {number : Nat} {is : Process → Prop}
    (keeps : ∀ older process : Process, process.startTime = older.startTime →
      (older.stage.isVmm = true → process.stage.isVmm = true) → is older → is process) :
    World.Rougher rules (ChildIs pid number is) := by
  rintro w t good rough ⟨launched, child⟩
  refine ⟨launched.trans_le rough.launches, fun process there launch => ?_⟩
  cases rough.processes pid process there with
  | before older startTime sameLaunch vmm =>
    exact keeps _ process startTime vmm (child _ older (sameLaunch ▸ launch))
  | new free fresh => exact absurd launched (Nat.not_lt.2 (fresh number launch).1)

/-- What the script has just been told of, with what it knows of each process. -/
structure Told (rules : Rules) (is : World → Process → Prop) (pids : List Pid) (w : World) :
    Prop where
  matched : w.matched = pids
  each : rules.careful → ∀ pid ∈ pids, ∀ process, w.processes pid = some process → is w process

/-- A property of processes that only what was launched, and what for, decides. -/
def Inherent (is : World → Process → Prop) : Prop :=
  ∀ (w t : World) (older process : Process), t.owner = w.owner → process.launch = older.launch →
    process.vm = older.vm → is w older → is t process

/-- Nobody takes the PIDs that the script is about to act on. -/
theorem steady_told {is : World → Process → Prop} {pids : List Pid} (inherent : Inherent is) :
    (parentVm frame.conditions).Steady frame.Between (Told frame.rules is pids) := by
  rintro m w t inv ⟨env, restricted⟩ ⟨matched, each⟩
  have unconfused := fun careful => frame.meets.env careful w t restricted
  have untouched : t.matched = w.matched ∧ t.owner = w.owner := by
    obtain ⟨_, _, _, _, rfl⟩ := env.untouched
    exact ⟨rfl, rfl⟩
  refine ⟨untouched.1.trans matched, fun careful pid member process there => ?_⟩
  cases env.grown there with
  | before older startTime launch vmm launched vm =>
    exact inherent w t _ process untouched.2 launch vm (each careful pid member _ older)
  | new free fresh =>
    exact absurd (matched ▸ member) (unconfused careful pid process free there).2.1

/-- A launch before the shell has noted its PID. -/
structure Forked (rules : Rules) (pid : Pid) (number : Nat) (w : World) : Prop where
  told : Told rules (fun _ process => process.launch = some number) [pid] w
  numbered : w.vars.launch = some number
  launched : number < w.launches

theorem steady_forked {pid : Pid} {number : Nat} :
    (parentVm frame.conditions).Steady frame.Between (Forked frame.rules pid number) := by
  intro m w t inv moves here
  have told := steady_told (fun _ _ _ _ _ launch _ => launch.trans) m w t inv moves here.told
  obtain ⟨_, _, _, _, rfl⟩ := moves.1.untouched
  exact ⟨told, here.numbered, here.launched⟩

/-- The shell knows its child, by PID and by number. -/
structure Child (rules : Rules) (pid : Pid) (number : Nat) (w : World) : Prop where
  noted : w.vars.pid = some pid
  numbered : w.vars.launch = some number
  launched : number < w.launches
  own : rules.careful → ∀ process, w.processes pid = some process → process.launch = some number

theorem calmer_child {rules : Rules} {pid : Pid} {number : Nat} :
    World.Calmer rules (Child rules pid number) := by
  rintro w t good calm ⟨isPid, launch, launched, own⟩
  refine ⟨calm.pid.trans isPid, calm.launch.trans launch, launched.trans_le calm.launches, ?_⟩
  intro careful process there
  cases calm.processes pid process there with
  | before older startTime sameLaunch vmm => exact sameLaunch.trans (own careful _ older)
  | new free fresh => exact absurd isPid (calm.unconfused careful pid process free there).2.2

theorem walk_spawnJailer {uid gid vcpus memoryMib : Bytes} {id : Id}
    (rougher : World.Rougher frame.rules P) :
    frame.Walk P (ask (.spawnJailer id uid gid vcpus memoryMib)) fun spawned w =>
      P w ∧ ∀ pid, spawned = some pid →
        frame.rules.pids pid ∧ ∃ number, Forked frame.rules pid number w := by
  refine walk_restricted (fun _ _ => trivial) (rougher.calmer.steady frame.meets)
    fun w reply t good here performed restricted => ?_
  obtain ⟨good', steps, rough, found⟩ := World.exec_spawnJailer good performed fun careful =>
    frame.meets.exec careful _ w reply t restricted
  refine ⟨good', steps, rougher w t good rough here, fun pid is => ?_⟩
  obtain ⟨matched, launch, launches, child, there, number⟩ := found pid is
  subst is
  refine ⟨frame.meets.spawns id uid gid vcpus memoryMib w pid t restricted, w.launches,
    ⟨matched, fun _ other member process there' => ?_⟩, launch, launches ▸ Nat.lt_succ_self _⟩
  obtain rfl := List.mem_singleton.1 member
  obtain rfl := Option.some.inj (there.symm.trans there')
  exact number

/-- `pid=$!` and `started_pid=$pid`. -/
theorem walk_noted {pid : Pid} {number : Nat} (rougher : World.Rougher frame.rules P) :
    frame.Walk (fun w => P w ∧ Forked frame.rules pid number w)
      (ask (.assign fun vars => { vars with pid := some pid }))
      fun _ w => P w ∧ Child frame.rules pid number w := by
  refine walk_steady (fun _ _ => trivial)
    ((rougher.calmer.steady frame.meets).and steady_forked) fun w reply t good here performed _ => ?_
  obtain ⟨good', steps, rough⟩ := World.exec_assign good performed
  refine ⟨good', steps, rougher w t good rough here.1, ?_⟩
  obtain ⟨_, rfl, rfl⟩ := performed
  exact ⟨rfl, here.2.numbered, here.2.launched, fun careful process there =>
    here.2.told.each careful pid List.mem_cons_self process there⟩

theorem walk_startTime {pid : Pid} {number : Nat} (calmer : World.Calmer frame.rules P)
    (known : ∀ w, P w → number < w.launches) :
    frame.Walk P (ask (.startTime pid)) fun text w =>
      P w ∧ (text ≠ [] → ∃ startTime, text = decimal startTime ∧
        ChildIs pid number (·.startTime = startTime) w) := by
  refine walk_quiet (by trivial) calmer fun w reply t good here performed => ?_
  obtain ⟨now, ⟨rfl, is⟩, rfl⟩ := performed
  intro nonempty
  have launched := known now here
  cases there : now.processes pid with
  | none => exact absurd (by simp [is, there]) nonempty
  | some process =>
    refine ⟨process.startTime, by simp [is, there], launched, fun other there' _ => ?_⟩
    obtain rfl := Option.some.inj (there.symm.trans there')
    rfl

/-- A launch finds its child, with the time it started at. -/
theorem walk_launch {uid gid vcpus memoryMib : Bytes} {id : Id}
    (rougher : World.Rougher frame.rules P) :
    frame.Walk P (launch uid gid vcpus memoryMib id) fun found w =>
      frame.rules.pids found.1 ∧ ∃ number startTime, found.2 = decimal startTime ∧ P w ∧
        Child frame.rules found.1 number w ∧
        ChildIs found.1 number (·.startTime = startTime) w := by
  refine (walk_spawnJailer rougher).bind fun spawned => ?_
  cases spawned with
  | none => exact System.Contract.throw fun _ _ is => nomatch is
  | some pid =>
    refine System.Contract.assume (fun _ here => (here.2 pid rfl).1) fun given => ?_
    refine System.Contract.from_pre (fun w here =>
      show ∃ number, P w ∧ Forked frame.rules pid number w from
        (here.2 pid rfl).2.imp fun number forked => ⟨here.1, forked⟩) ?_
    refine System.Contract.exists fun number => (walk_noted rougher).bind fun _ => ?_
    have calmer : World.Calmer frame.rules fun w => P w ∧ Child frame.rules pid number w :=
      rougher.calmer.and calmer_child
    refine (walk_startTime calmer fun w here => here.2.launched).bind fun text => ?_
    by_cases nonempty : text = []
    case pos =>
      refine System.Contract.from_pre (fun _ _ => trivial) ?_
      refine (walk_assign_rougher rougher_true).bind fun _ => require_pure fun nonempty' => ?_
      exact absurd nonempty (of_decide_eq_true nonempty')
    case neg =>
      refine System.Contract.from_pre (fun w here =>
        show ∃ startTime, (P w ∧ Child frame.rules pid number w) ∧ text = decimal startTime ∧
            ChildIs pid number (·.startTime = startTime) w from
          (here.2 nonempty).imp fun startTime timed => ⟨here.1, timed⟩) ?_
      refine System.Contract.exists fun startTime => ?_
      have timed : World.Rougher frame.rules (ChildIs pid number (·.startTime = startTime)) :=
        rougher_childIs fun _ _ same _ => same.trans
      have noted : frame.Walk (fun w => (P w ∧ Child frame.rules pid number w) ∧
            text = decimal startTime ∧ ChildIs pid number (·.startTime = startTime) w)
          (ask (.assign fun vars => { vars with startTime := text })) fun _ w =>
            (P w ∧ Child frame.rules pid number w) ∧
            text = decimal startTime ∧ ChildIs pid number (·.startTime = startTime) w := by
        refine walk_ask (fun _ _ => trivial) (calmer.and ?_) fun w reply t good here performed _ => ?_
        · exact fun w t good calm here => ⟨here.1, timed.calmer w t good calm here.2⟩
        · obtain ⟨good', steps, rough⟩ := World.exec_assign good performed
          refine ⟨good', steps, ⟨rougher w t good rough here.1.1, ?_⟩, here.2.1,
            timed w t good rough here.2.2⟩
          obtain ⟨_, rfl, rfl⟩ := performed
          exact ⟨here.1.2.noted, here.1.2.numbered, here.1.2.launched, here.1.2.own⟩
      refine noted.bind fun _ => require_pure fun _ => ?_
      exact System.Contract.pure fun w here =>
        ⟨given, number, startTime, here.2.1, here.1.1, here.1.2, here.2.2⟩

/-- The path of a microVM's cgroup is longer than that of the service. -/
theorem service_ne_cgroupPath (service : Bytes) (id : Id) :
    service ≠ cgroupPath (parentCgroup service) id := by
  intro same
  have shorter : service.length ≤ (parentCgroup service).length + 6 := by
    have withoutMain : service.length ≤ (if (ascii "/main").isSuffixOf service then
        service.take (service.length - 5) else service).length + 5 := by
      split
      · rw [List.length_take]
        omega
      · omega
    unfold parentCgroup
    dsimp only
    generalize (if (ascii "/main").isSuffixOf service then
      service.take (service.length - 5) else service) = path at withoutMain ⊢
    split
    · rw [List.length_drop]
      omega
    · omega
  have longer : (cgroupPath (parentCgroup service) id).length =
      (parentCgroup service).length + 14 + id.length := by
    have slash : (ascii "/").length = 1 := rfl
    have firecracker : (ascii "/firecracker/").length = 13 := rfl
    simp only [cgroupPath, List.length_append, slash, firecracker]
    omega
  rw [← same] at longer
  omega

/-- A child that is in the cgroup of its microVM has opened its output. -/
theorem walk_processCgroup {pid : Pid} {number : Nat} {expected : Bytes}
    (calmer : World.Calmer frame.rules P)
    (known : ∀ w, P w → number < w.launches ∧ w.service ≠ expected) (nonempty : expected ≠ []) :
    frame.Walk P (ask (.processCgroup pid)) fun seen w =>
      P w ∧ (seen = expected → ChildIs pid number (·.stage.isVmm = true) w) := by
  refine walk_quiet (by trivial) calmer fun w reply t good here performed => ?_
  obtain ⟨now, ⟨rfl, is⟩, rfl⟩ := performed
  rintro rfl
  obtain ⟨launched, outside⟩ := known now here
  refine ⟨launched, fun process there launch => ?_⟩
  have there : now.processes pid = some process := there
  have inside : reply = process.cgroup := by simpa [there] using is
  have stage := good.launched pid process number there launch
  unfold Process.Launched at stage
  split at stage
  case h_1 => exact absurd (inside.trans stage).symm outside
  case h_2 => exact absurd (inside.trans stage).symm outside
  case h_3 at' => exact congrArg Stage.isVmm at'
  case h_4 at' => exact congrArg Stage.isVmm at'
  all_goals exact stage.elim

theorem walk_awaitCgroup {pid : Pid} {number : Nat} {startTime expected seen : Bytes} {n : Nat}
    (calmer : World.Calmer frame.rules P)
    (known : ∀ w, P w → number < w.launches ∧ w.service ≠ expected) (nonempty : expected ≠ [])
    (unseen : seen ≠ expected) :
    frame.Walk P (awaitCgroup pid startTime expected n seen) fun cgroup w =>
      P w ∧ (cgroup = expected → ChildIs pid number (·.stage.isVmm = true) w) := by
  induction n generalizing seen with
  | zero => exact System.Contract.pure fun w here => ⟨here, fun is => absurd is unseen⟩
  | succ n ih =>
    refine (walk_processCgroup calmer known nonempty).bind fun seen => ?_
    split
    case isTrue => exact System.Contract.pure fun w here => here
    case isFalse other =>
      refine System.Contract.from_pre (fun _ => And.left) ?_
      refine (mild_require (mild_ask (by trivial))).then calmer fun _ => ?_
      exact (mild_ask (by trivial)).then calmer fun _ => ih other

theorem mild_awaitSocket {pid : Pid} {startTime : Bytes} : frame.Mild (awaitSocket pid startTime) :=
  fun _ calmer => show (frame.conduct calmer).Keeps _ from Conduct.keeps_awaitSocket

theorem mild_configure {vcpus memoryMib : Bytes} : frame.Mild (configure vcpus memoryMib) :=
  fun _ calmer => show (frame.conduct calmer).Keeps _ from Conduct.keeps_configure

/-- What is known when a start writes its record. -/
structure Booted (rules : Rules) (id : Id) (record : Record) (pid : Pid) (startTime number : Nat)
    (w : World) : Prop where
  known : w.store.record id = some record
  fits : rules.Plain → w.store.Fits id record.settings
  child : Child rules pid number w
  timed : ChildIs pid number (·.startTime = startTime) w
  isVmm : ChildIs pid number (·.stage.isVmm = true) w

theorem rougher_timed {rules : Rules} {pid : Pid} {number startTime : Nat} :
    World.Rougher rules (ChildIs pid number (·.startTime = startTime)) :=
  rougher_childIs fun _ _ same _ => same.trans

theorem rougher_isVmm {rules : Rules} {pid : Pid} {number : Nat} :
    World.Rougher rules (ChildIs pid number (·.stage.isVmm = true)) :=
  rougher_childIs fun _ _ _ vmm => vmm

theorem calmer_booted {rules : Rules} {id : Id} {record : Record} {pid : Pid}
    {startTime number : Nat} : World.Calmer rules (Booted rules id record pid startTime number) :=
  fun w t good calm here => ⟨rougher_record w t good calm.toRough here.known,
    fun plain => rougher_fits w t good calm.toRough (here.fits plain),
    calmer_child w t good calm here.child, rougher_timed w t good calm.toRough here.timed,
    rougher_isVmm w t good calm.toRough here.isVmm⟩

theorem line_jailPath {id : Id} (valid : Line id) : Line (jailPath id) := by
  intro member
  obtain inside | inside := List.mem_append.1 member
  · exact absurd inside (by decide)
  · exact valid inside

theorem walk_publish {id : Id} {record : Record} {pid : Pid} {startTime number : Nat}
    {cgroup : Bytes} (mine : ¬ frame.spared id) (given : frame.rules.pids pid)
    (validId : Line id) (validCgroup : Line cgroup) :
    frame.Walk (Booted frame.rules id record pid startTime number)
      (publish id pid (decimal startTime) cgroup record.settings.vcpus record.settings.memoryMib
        (decimal record.uid) (decimal record.uid)) fun _ _ => True := by
  refine value_then calmer_booted (fun _ here => here.known) ?_
  refine value_then calmer_booted (fun _ here => here.known) ?_
  rw [Record.value_kernel, Record.value_rootfs]
  refine System.Contract.given (fun _ w inv here => show record.Valid from
    inv.good.sound.valid id record here.known) fun valid => ?_
  have lines : Line (jailPath id ++ ascii "/root/run/fc.sock") ∧ Line (jailPath id) ∧ Line cgroup := by
    refine ⟨fun member => ?_, line_jailPath validId, validCgroup⟩
    obtain inside | inside := List.mem_append.1 member
    · exact line_jailPath validId inside
    · exact absurd inside (by decide)
  have written : frame.Walk (Booted frame.rules id record pid startTime number)
      (writeState id (Record.fields { record with status := .running ⟨pid, startTime,
        jailPath id ++ ascii "/root/run/fc.sock", jailPath id, cgroup⟩ })) fun _ w => True := by
    refine (walk_writeState mine calmer_booted ?_ ?_).weaken (fun _ here => here) (fun _ _ _ => trivial)
      (fun _ _ here => here)
    · exact ⟨valid.clean.settings, fun vmm is => by cases is; exact lines⟩
    · intro w good here member
      show Store.Step _ _ (w.store.setRecord id _ w.vars.launch)
      rw [here.child.numbered]
      refine .publish here.known here.child.launched given lines ?_ ?_ here.fits
      · exact fun process there launch => ⟨here.timed.2 process there launch,
          here.isVmm.2 process there launch⟩
      · exact fun careful process there _ => here.child.own careful process there
  refine System.Contract.bind written fun _ => ?_
  refine (walk_assign_rougher rougher_true).bind fun _ => ?_
  refine (mild_demand (mild_ask (by trivial))).then calmer_true fun _ => ?_
  exact walk_assign_rougher rougher_true

/-- What is known when a start launches its VMM. -/
structure Ready (rules : Rules) (id : Id) (record : Record) (parent : Bytes) (w : World) : Prop where
  known : w.store.record id = some record
  fits : rules.Plain → w.store.Fits id record.settings
  outside : w.service ≠ cgroupPath parent id

theorem rougher_ready {rules : Rules} {id : Id} {record : Record} {parent : Bytes} :
    World.Rougher rules (Ready rules id record parent) :=
  fun w t good rough here => ⟨rougher_record w t good rough here.known,
    fun plain => rougher_fits w t good rough (here.fits plain), rough.service ▸ here.outside⟩

theorem walk_boot {parent : Bytes} {id : Id} {record : Record} (mine : ¬ frame.spared id)
    (validId : Line id) (validCgroup : Line (cgroupPath parent id)) :
    frame.Walk (Ready frame.rules id record parent)
      (boot parent (decimal record.uid) (decimal record.uid) record.settings.vcpus
        record.settings.memoryMib id) fun _ _ => True := by
  refine (walk_launch rougher_ready).bind fun found => ?_
  refine System.Contract.assume (fun _ => And.left) fun given => ?_
  refine System.Contract.from_pre (fun _ => And.right) ?_
  refine System.Contract.exists fun number => System.Contract.exists fun startTime => ?_
  refine System.Contract.assume (fun w here => here.1) fun isTime => ?_
  obtain ⟨pid, text⟩ := found
  obtain rfl : text = decimal startTime := isTime
  refine System.Contract.from_pre (fun _ => And.right) ?_
  have calmer : World.Calmer frame.rules fun w => Ready frame.rules id record parent w ∧
      Child frame.rules pid number w ∧ ChildIs pid number (·.startTime = startTime) w :=
    rougher_ready.calmer.and (calmer_child.and rougher_timed.calmer)
  have nonempty : cgroupPath parent id ≠ [] := by
    rw [cgroupPath, List.append_assoc, List.append_assoc]
    exact List.append_ne_nil_of_left_ne_nil (by decide) _
  refine System.Contract.bind (walk_awaitCgroup calmer
    (fun w here => ⟨here.2.1.launched, here.1.outside⟩) nonempty nonempty.symm) fun cgroup => ?_
  refine require_pure fun reached => ?_
  obtain rfl : cgroup = cgroupPath parent id := of_decide_eq_true reached
  refine System.Contract.from_pre (fun w here =>
    show Booted frame.rules id record pid startTime number w from
      ⟨here.1.1.known, here.1.1.fits, here.1.2.1, here.1.2.2, here.2 rfl⟩) ?_
  refine (mild_require (mild_ask (by trivial))).then calmer_booted fun _ => ?_
  refine mild_awaitSocket.then calmer_booted fun _ => ?_
  exact mild_configure.then calmer_booted fun _ => walk_publish mine given validId validCgroup

theorem line_of_validId {id : Id} (valid : validId id = true) : Line id := by
  intro member
  simp only [validId, Bool.and_eq_true] at valid
  exact absurd (List.all_eq_true.1 valid.2 _ member) (by decide)

theorem line_cgroupPath {parent : Bytes} {id : Id} (validParent : validParentCgroup parent = true)
    (validId : Line id) : Line (cgroupPath parent id) := by
  intro member
  simp only [validParentCgroup, Bool.and_eq_true] at validParent
  simp only [cgroupPath, List.mem_append] at member
  obtain ((inside | inside) | inside) | inside := member
  · exact absurd inside (by decide)
  · exact absurd (List.all_eq_true.1 validParent.2 _ inside) (by decide)
  · exact absurd inside (by decide)
  · exact validId inside

theorem walk_preflight (calmer : World.Calmer frame.rules P) :
    frame.Walk P preflight fun parent w =>
      P w ∧ validParentCgroup parent = true ∧ parent = parentCgroup w.service := by
  refine (mild_require (mild_ask (by trivial))).then calmer fun _ => ?_
  refine (mild_require (mild_ask (by trivial))).then calmer fun _ => ?_
  refine (mild_require (mild_ask (by trivial))).then calmer fun _ => ?_
  refine (mild_require (mild_ask (by trivial))).then calmer fun _ => ?_
  have ownCgroup : frame.Walk P (ask .ownCgroup) fun own w => P w ∧ own = w.service := by
    refine walk_quiet (by trivial) calmer fun w reply t good here performed => ?_
    obtain ⟨now, ⟨rfl, is⟩, rfl⟩ := performed
    exact is
  refine ownCgroup.bind fun own => ?_
  have calmer : World.Calmer frame.rules fun w => P w ∧ own = w.service :=
    calmer.and fun w t _ calm here => here.trans calm.service.symm
  refine require_pure fun valid => ?_
  refine (mild_require (mild_ask (by trivial))).then calmer fun _ => ?_
  refine (mild_require (mild_ask (by trivial))).then calmer fun _ => ?_
  refine (mild_require (mild_ask (by trivial))).then calmer fun _ => ?_
  refine (mild_require (mild_ask (by trivial))).then calmer fun _ => ?_
  exact System.Contract.pure fun w here => ⟨here.1, valid, congrArg parentCgroup here.2⟩

/-- An action on a microVM finds its record. -/
theorem walk_record {id : Id} {message : String} {rest : Unit → Shell α}
    (calmer : World.Calmer frame.rules P)
    (next : ∀ record, frame.Walk (fun w => P w ∧ w.store.record id = some record) (rest ()) Q) :
    frame.Walk P (require (ask (.hasState id)) message >>= rest) Q := by
  have found : frame.Walk P (ask (.hasState id)) fun there w =>
      there = true → ∃ record, P w ∧ w.store.record id = some record :=
    (walk_hasState calmer).weaken (fun _ here => here)
      (fun there w here is => (here.2.2 is).imp fun record there => ⟨here.1, there⟩)
      (fun _ _ here => here)
  exact System.Contract.bind (walk_require found) fun _ => System.Contract.exists next

theorem walk_start {id : Id} {Q : Unit → World → Prop} (mine : ¬ frame.spared id)
    (vouches : ∀ w, frame.vouched w) :
    frame.Walk P (start id) Q := by
  refine System.Contract.from_pre (fun _ _ => trivial) ?_
  refine require_pure fun valid => ?_
  refine (mild_require (mild_ask (by trivial))).then calmer_true fun _ => ?_
  refine walk_record calmer_true fun record => ?_
  have calmer : World.Calmer frame.rules fun w => True ∧ w.store.record id = some record :=
    calmer_true.and rougher_record.calmer
  refine value_then calmer (fun _ => And.right) (value_then calmer (fun _ => And.right) ?_)
  refine value_then calmer (fun _ => And.right) (mild_runs.then calmer fun running => ?_)
  have answered : frame.Mild (provided running do okReply (← jsonVm id)) :=
    mild_provided fun P calmer => mild_jsonVm.then calmer fun _ =>
      walk_okReply calmer fun w _ => vouches w
  refine answered.then calmer fun _ => (walk_preflight calmer).bind fun parent => ?_
  refine System.Contract.assume (fun w here => here.2.1) fun validParent => ?_
  refine System.Contract.from_pre (fun w here =>
    show w.store.record id = some record ∧ w.service ≠ cgroupPath parent id from
      ⟨here.1.2, here.2.2 ▸ service_ne_cgroupPath w.service id⟩) ?_
  have rougher : World.Rougher frame.rules fun w =>
      w.store.record id = some record ∧ w.service ≠ cgroupPath parent id :=
    rougher_record.and fun w t _ rough here => rough.service ▸ here
  have known : ∀ w : World, (w.store.record id = some record ∧ w.service ≠ cgroupPath parent id) →
      w.store.record id = some record := fun _ => And.left
  refine value_then rougher.calmer known (value_then rougher.calmer known ?_)
  refine value_then rougher.calmer known (value_then rougher.calmer known ?_)
  rw [Record.value_vcpus, Record.value_memoryMib, Record.value_kernel, Record.value_rootfs]
  refine require_pure fun _ => require_pure fun _ => ?_
  refine (walk_startIdentity rougher.calmer known).bind fun identity => ?_
  refine System.Contract.assume (fun _ => And.right) fun is => ?_
  subst is
  refine System.Contract.from_pre (fun _ => And.left) ?_
  refine (mild_require (mild_ask (by trivial))).then rougher.calmer fun _ => ?_
  refine (mild_require (mild_ask (by trivial))).then rougher.calmer fun _ => ?_
  refine System.Contract.given (fun _ w inv here => show frame.rules.allowed record.settings from
    inv.good.sound.allowed id record here.1) fun allowed => ?_
  refine System.Contract.bind (walk_checkStartResources id rougher.calmer allowed) fun _ => ?_
  refine System.Contract.from_pre (fun w here =>
    show Ready frame.rules id record parent w from ⟨here.1.1, here.2, here.1.2⟩) ?_
  refine System.Contract.bind (walk_startDisk mine rougher_ready) fun _ => ?_
  refine System.Contract.bind (walk_startJail rougher_ready) fun _ => ?_
  refine System.Contract.bind (walk_startLog rougher_ready) fun _ => ?_
  have line := line_of_validId valid
  refine System.Contract.bind (walk_boot mine line (line_cgroupPath validParent line)) fun _ => ?_
  exact mild_jsonVm.then calmer_true fun _ => walk_okReply calmer_true fun w _ => vouches w

/-! ## Stopping -/

/-- What `stop` knows of its microVM. -/
structure Stopping (id : Id) (record : Record) (w : World) : Prop where
  known : w.store.record id = some record
  vars : w.vars.id = id

theorem calmer_stopping {rules : Rules} {id : Id} {record : Record} :
    World.Calmer rules (Stopping id record) :=
  fun w t good calm here =>
    ⟨rougher_record w t good calm.toRough here.known, calm.id.trans here.vars⟩

/-- The process that matched just now is the one its record was written for. -/
abbrev Matched (rules : Rules) (id : Id) (pid : Bytes) (w : World) : Prop :=
  Told rules (fun w process => w.Own id process) [value pid] w

theorem inherent_own {id : Id} : Inherent fun w process => w.Own id process := by
  rintro w t older process owner launch _ ⟨number, was, isOwner⟩
  exact ⟨number, launch.trans was, owner ▸ isOwner⟩

theorem walk_matched {id : Id} {record : Record} :
    frame.Walk (Stopping id record)
      (ask (.matchesFirecracker (record.value .pid) (record.value .startTime))) fun matched w =>
        Stopping id record w ∧
          (matched = true → Matched frame.rules id (record.value .pid) w) := by
  refine walk_quiet (by trivial) calmer_stopping fun w reply t good here performed => ?_
  obtain ⟨now, ⟨rfl, is⟩, rfl⟩ := performed
  intro matched
  obtain ⟨n, process, isPid, there, startTime, isVmm⟩ := is.1 matched
  refine ⟨by rw [matched]; rfl, fun careful n' member process' there' => ?_⟩
  obtain rfl : n = n' := by rw [List.mem_singleton.1 member, isPid, value_decimal]
  obtain rfl := Option.some.inj (there.symm.trans there')
  obtain ⟨status, settings, uid⟩ := record
  cases status with
  | created => exact absurd isPid.symm decimal_ne_nil
  | stopped => exact absurd isPid.symm decimal_ne_nil
  | running vmm =>
    obtain rfl : vmm.pid = n := decimal_injective isPid
    have sameTime : process.startTime = vmm.startTime := by
      obtain empty | same := startTime
      · exact absurd empty decimal_ne_nil
      · exact (decimal_injective same).symm
    exact good.sound.own careful id _ vmm process ⟨here.known, rfl⟩ there sameTime

theorem walk_signalRecorded {id : Id} {record : Record} {signal : Signal} :
    frame.Walk (fun w => Stopping id record w ∧ Matched frame.rules id (record.value .pid) w)
      (ask (.signalRecorded signal (record.value .pid))) fun _ => Stopping id record := by
  refine walk_steady (fun _ _ => trivial)
    ((calmer_stopping.steady frame.meets).and (steady_told inherent_own)) ?_
  rintro w reply t good ⟨here, matched⟩ performed unconfused
  obtain ⟨good', steps, calm⟩ := World.exec_signalRecorded good performed unconfused
    fun careful n process is there => by
      rw [here.vars]
      exact matched.each careful n (by rw [is, value_decimal]; exact List.mem_cons_self) process there
  exact ⟨good', steps, calmer_stopping w t good calm here⟩

theorem walk_stopProcess {id : Id} {record : Record} {force : Bool} :
    frame.Walk (Stopping id record)
      (stopProcess (record.value .pid) (record.value .startTime) force)
      fun _ => Stopping id record := by
  have signal : ∀ signal, frame.Walk (fun w => Stopping id record w ∧
      (true = true → Matched frame.rules id (record.value .pid) w))
      (ask (.signalRecorded signal (record.value .pid))) fun _ => Stopping id record :=
    fun signal => walk_signalRecorded.from_pre fun w here => ⟨here.1, here.2 rfl⟩
  refine walk_matched.bind fun matched => ?_
  cases matched with
  | false => exact System.Contract.pure fun w here => here.1
  | true =>
    rw [if_pos rfl]
    split
    · exact signal .kill
    · refine (signal .term).bind fun _ => (mild_attempts ?_).then calmer_stopping fun _ => ?_
      · refine (mild_ask (by trivial)).bind fun still => mild_ite ?_ mild_pure
        exact (mild_ask (by trivial)).bind fun _ => mild_pure
      · refine walk_matched.bind fun still => ?_
        cases still with
        | false => exact System.Contract.pure fun w here => here.1
        | true => exact signal .kill

/-- `stop` at the cgroup of its microVM, which it finds by that of the service. -/
structure Halting (id : Id) (record : Record) (own : Bytes) (w : World) : Prop extends
    Stopping id record w where
  service : w.service = own

theorem calmer_halting {rules : Rules} {id : Id} {record : Record} {own : Bytes} :
    World.Calmer rules (Halting id record own) :=
  fun w t good calm here =>
    ⟨calmer_stopping w t good calm here.toStopping, calm.service.trans here.service⟩

/-- A process that was launched for a microVM. -/
def LaunchedFor (id : Id) (_ : World) (process : Process) : Prop :=
  process.launch ≠ none ∧ process.vm = id

theorem inherent_launchedFor {id : Id} : Inherent (LaunchedFor id) :=
  fun _ _ _ _ _ launch vm is => ⟨launch ▸ is.1, vm.trans is.2⟩

/-- What is read of the cgroup is what was launched for the microVM. -/
theorem walk_cgroupPids {id : Id} {record : Record} {own : Bytes} :
    frame.Walk (Halting id record own)
      (ask (.cgroupPids (ascii "/sys/fs/cgroup" ++ cgroupPath (parentCgroup own) id)))
      fun pids w => Halting id record own w ∧ Told frame.rules (LaunchedFor id) pids w := by
  refine walk_restricted (fun _ _ => trivial) (calmer_halting.steady frame.meets) ?_
  intro w pids t good here performed restricted
  obtain ⟨good', steps, calm⟩ := World.exec_quiet (by trivial) good performed fun careful =>
    frame.meets.exec careful _ w pids t restricted
  refine ⟨good', steps, calmer_halting w t good calm here, ?_⟩
  have housed := fun careful => frame.meets.look careful _ w pids t restricted
  obtain ⟨_, ⟨rfl, inside⟩, rfl⟩ := performed
  refine ⟨rfl, fun careful pid member process there => ?_⟩
  obtain ⟨process', there', path⟩ := inside pid member
  obtain rfl := Option.some.inj (there'.symm.trans there)
  refine housed careful id pid process' there' ?_
  rw [here.service]
  exact (List.append_cancel_left path).symm

/-- One of them is signalled, which is the one the record was written for. -/
theorem walk_signalOne {id : Id} {record : Record} {own : Bytes} {signal : Signal} {pid : Pid}
    {pids : List Pid} (member : pid ∈ pids) :
    frame.Walk (fun w => Halting id record own w ∧ Told frame.rules (LaunchedFor id) pids w)
      (ask (.signalCgroup true signal pid))
      fun _ w => Halting id record own w ∧ Told frame.rules (LaunchedFor id) pids w := by
  refine walk_restricted (fun _ _ => trivial)
    ((calmer_halting.steady frame.meets).and (steady_told inherent_launchedFor)) ?_
  rintro w reply t good ⟨here, told⟩ performed restricted
  have own : frame.rules.careful → ∀ process, w.processes pid = some process →
      w.Own w.vars.id process := by
    intro careful process there
    have launched := told.each careful pid member process there
    have sole := frame.meets.stops careful signal pid w reply t restricted
    exact sole pid process there launched.1 (launched.2.trans here.vars.symm)
  obtain ⟨good', steps, calm, matched, older⟩ := World.exec_signalCgroup good performed
    (fun careful => frame.meets.exec careful _ w reply t restricted) own
  refine ⟨good', steps, calmer_halting w t good calm here, matched.trans told.matched, ?_⟩
  exact fun careful other isTold process there =>
    told.each careful other isTold process (older other process there)

theorem walk_signalCgroup {id : Id} {record : Record} {own : Bytes} {signal : Signal} {self : Pid} :
    frame.Walk (Halting id record own)
      (signalCgroup true signal (ascii "/sys/fs/cgroup" ++ cgroupPath (parentCgroup own) id) self)
      fun _ => Halting id record own := by
  refine walk_cgroupPids.bind fun pids => ?_
  have signalled : frame.Walk
      (fun w => Halting id record own w ∧ Told frame.rules (LaunchedFor id) pids w)
      (each pids fun pid => if pid = self then pure () else ask (.signalCgroup true signal pid))
      fun _ w => Halting id record own w ∧ Told frame.rules (LaunchedFor id) pids w := by
    refine walk_each fun pid member => ?_
    split
    · exact System.Contract.pure fun _ here => here
    · exact walk_signalOne member
  exact signalled.weaken (fun _ here => here) (fun _ _ => And.left) fun _ _ here => here

theorem walk_stopCgroup {id : Id} {record : Record} {cgroup : Bytes} :
    frame.Walk (Stopping id record) (stopCgroup cgroup id) fun _ => Stopping id record := by
  have ownCgroup : frame.Walk (Stopping id record) (ask .ownCgroup)
      fun own => Halting id record own := by
    refine walk_ask (fun _ _ => trivial) calmer_stopping fun w own t good here performed unconfused => ?_
    obtain ⟨good', steps, calm⟩ := World.exec_quiet (by trivial) good performed unconfused
    refine ⟨good', steps, calmer_stopping w t good calm here, ?_⟩
    obtain ⟨_, ⟨rfl, is⟩, rfl⟩ := performed
    exact is.symm
  refine ownCgroup.bind fun own => ?_
  have halted : frame.Walk (Halting id record own) (provided
      (validParentCgroup (parentCgroup own) && decide (cgroup = cgroupPath (parentCgroup own) id)) do
        let vars ← ask .vars
        require (terminateCgroup true (ascii "/sys/fs/cgroup" ++ cgroup) (vars : Vars).self)
          "microVM cgroup is still occupied") fun _ => Halting id record own := by
    unfold provided
    split
    case isFalse => exact System.Contract.pure fun _ here => here
    case isTrue valid =>
      obtain rfl : cgroup = cgroupPath (parentCgroup own) id :=
        of_decide_eq_true ((Bool.and_eq_true _ _).mp valid).2
      refine (mild_ask (by trivial)).then calmer_halting fun vars => walk_require ?_
      have calmer : World.Calmer frame.rules (Halting id record own) := calmer_halting
      have ended : (frame.habit calmer).Keeps (terminateCgroup true
          (ascii "/sys/fs/cgroup" ++ cgroupPath (parentCgroup own) id) vars.self) :=
        Habit.keeps_terminateCgroup_of fun signal => walk_signalCgroup
      exact ended.weaken (fun _ here => here) (fun _ _ here _ => here) fun _ _ here => here
  exact halted.weaken (fun _ here => here) (fun _ _ => Halting.toStopping) fun _ _ here => here

theorem walk_stop {id force : Bytes} {Q : Unit → World → Prop} (mine : ¬ frame.spared id)
    (vouches : ∀ w, frame.vouched w) :
    frame.Walk (fun w => w.vars.id = id) (stop id force) Q := by
  have vars : World.Calmer frame.rules fun w => w.vars.id = id :=
    fun w t _ calm here => calm.id.trans here
  refine require_pure fun _ => require_pure fun _ => ?_
  refine (mild_require (mild_ask (by trivial))).then vars fun _ => ?_
  refine walk_record vars fun record => ?_
  refine System.Contract.from_pre (fun w here =>
    show Stopping id record w from ⟨here.2, here.1⟩) ?_
  have known : ∀ w, Stopping id record w → w.store.record id = some record := fun _ => (·.known)
  refine value_then calmer_stopping known (value_then calmer_stopping known ?_)
  refine value_then calmer_stopping known (value_then calmer_stopping known ?_)
  refine walk_stopProcess.bind fun _ => walk_stopCgroup.bind fun _ => ?_
  refine (mild_provided (mild_demand (mild_ask (by trivial)))).then calmer_stopping fun _ => ?_
  refine value_then calmer_stopping known (value_then calmer_stopping known ?_)
  refine value_then calmer_stopping known (value_then calmer_stopping known ?_)
  refine value_then calmer_stopping known (value_then calmer_stopping known ?_)
  rw [Record.value_kernel, Record.value_rootfs, Record.value_vcpus, Record.value_memoryMib,
    Record.value_uid, Record.value_gid]
  refine System.Contract.given (fun _ w inv here => show record.Valid from
    inv.good.sound.valid id record here.known) fun valid => ?_
  have written : frame.Walk (Stopping id record)
      (writeState id (Record.fields { record with status := .stopped })) fun _ w => True := by
    refine (walk_writeState mine calmer_stopping ?_ ?_).weaken (fun _ here => here)
      (fun _ _ _ => trivial) (fun _ _ here => here)
    · exact ⟨valid.clean.settings, fun vmm is => nomatch is⟩
    · exact fun w good here member => .stopped here.known
  refine System.Contract.bind written fun _ => ?_
  exact mild_jsonVm.then calmer_true fun _ => walk_okReply calmer_true fun w _ => vouches w

/-! ## Looking -/

theorem mild_okReply {data : Bytes} (vouches : ∀ w, frame.vouched w) :
    frame.Mild (okReply data : Shell α) :=
  fun _ calmer => walk_okReply calmer fun w _ => vouches w

theorem mild_inspectEach {ids : List Id} {first : Bool} : frame.Mild (inspectEach ids first) := by
  induction ids generalizing first with
  | nil => exact mild_pure
  | cons id rest ih =>
    refine (mild_ask (by trivial)).bind fun there => mild_ite ?_ ih
    refine (mild_require (mild_ask (by trivial))).bind fun _ => ?_
    refine (mild_provided (mild_ask (by trivial))).bind fun _ => mild_jsonVm.bind fun text => ?_
    exact (mild_ask (by trivial)).bind fun _ => ih

theorem mild_inspect {id : Id} (vouches : ∀ w, frame.vouched w) : frame.Mild (inspect id) := by
  refine mild_ite ?_ ?_
  · refine (mild_require mild_pure).bind fun _ => ?_
    refine (mild_require (mild_ask (by trivial))).bind fun _ => ?_
    refine (mild_require (mild_ask (by trivial))).bind fun _ => ?_
    exact mild_jsonVm.bind fun text => mild_okReply vouches
  · refine (mild_ask (by trivial)).bind fun _ => (mild_ask (by trivial)).bind fun ids => ?_
    exact mild_inspectEach.bind fun _ => mild_ask (by trivial)

theorem mild_delegation : frame.Mild delegation :=
  fun _ calmer => show (frame.habit calmer).Keeps _ from Habit.keeps_delegation

theorem mild_resourceCapacity : frame.Mild resourceCapacity :=
  fun _ calmer => Habit.keeps_resourceCapacity (fails calmer)

theorem mild_capabilities (vouches : ∀ w, frame.vouched w) : frame.Mild capabilities := by
  refine (mild_ask (by trivial)).bind fun kvm => (mild_ask (by trivial)).bind fun tun => ?_
  refine (mild_ask (by trivial)).bind fun cgroupV2 => mild_delegation.bind fun delegated => ?_
  refine (mild_ask (by trivial)).bind fun firecracker => (mild_ask (by trivial)).bind fun jailer => ?_
  exact mild_resourceCapacity.bind fun capacity => mild_okReply vouches

end Frame

/-! ## A run of the manager -/

/-- What a call asks to create. -/
def Call.creates : Call → Option Fields
  | .request _ text =>
    match parseRequest text with
    | .ok (.create, fields) => some fields
    | _ => none
  | .signalled => none

/-- What an `ok` to a call says: what it asked to create is there. -/
def Call.Vouches (call : Call) (w : World) : Prop :=
  ∀ fields, call.creates = some fields →
    ∃ record, w.store.record fields.id = some record ∧ record.settings = fields.settings

theorem Call.rougher_vouches (call : Call) {rules : Rules} : World.Rougher rules call.Vouches :=
  fun _ _ _ rough here fields creates => rough.record fields.id ▸ here fields creates

/-- The rules allow what a call asks to create. -/
def Call.Allowed (rules : Rules) (call : Call) : Prop :=
  ∀ fields, call.creates = some fields → rules.allowed fields.settings

/-- A request on a microVM. -/
def Call.On (id : Id) (call : Call) : Prop :=
  ∃ self text action fields, call = .request self text ∧
    parseRequest text = .ok (action, fields) ∧ fields.id = id

/-- The frame of one call. -/
def Call.frame (call : Call) {conditions : Conditions} {rules : Rules}
    (meets : conditions.Meets rules) (spared : Id → Prop) : Frame :=
  ⟨conditions, rules, meets, spared, call.Vouches, call.rougher_vouches⟩

section Manager

variable {conditions : Conditions} {rules : Rules} {spared : Id → Prop}

theorem walk_session (meets : conditions.Meets rules) {self : Pid} {request : Bytes}
    (allowed : (Call.request self request).Allowed rules)
    (mine : ∀ id, (Call.request self request).On id → ¬ spared id) :
    ((Call.request self request).frame meets spared).Walk (fun _ => True) (session request)
      fun _ => (Call.request self request).Vouches := by
  unfold session
  cases parsed : parseRequest request with
  | error message => exact Frame.walk_errorReply
  | ok found =>
    obtain ⟨action, fields⟩ := found
    have vars : World.Calmer rules fun w => w.vars.id = fields.id :=
      fun w t _ calm here => calm.id.trans here
    have mine : ¬ spared fields.id := mine _ ⟨_, _, _, _, rfl, parsed, rfl⟩
    have noted : ((Call.request self request).frame meets spared).Walk (fun _ => True)
        (ask (.assign fun vars => { vars with id := fields.id })) fun _ w => w.vars.id = fields.id :=
      Frame.walk_assign Frame.calmer_true fun _ _ _ => rfl
    refine noted.bind fun _ => ?_
    refine (Frame.mild_demand (Frame.mild_ask (by trivial))).then vars fun _ => ?_
    refine (Frame.mild_require (Frame.mild_ask (by trivial))).then vars fun _ => ?_
    have silent : action ≠ .create → ∀ w, (Call.request self request).Vouches w := by
      intro other w fields' creates
      simp only [Call.creates, parsed] at creates
      cases action with
      | create => exact absurd rfl other
      | capabilities | inspect | start | stop => cases creates
    cases action with
    | capabilities =>
      exact (Frame.mild_capabilities (silent (by decide)) _ vars).weaken (fun _ here => here)
        (fun _ w _ => silent (by decide) w) (fun _ _ here => here)
    | inspect =>
      exact (Frame.mild_inspect (silent (by decide)) _ vars).weaken (fun _ here => here)
        (fun _ w _ => silent (by decide) w) (fun _ _ here => here)
    | start => exact Frame.walk_start mine (silent (by decide))
    | stop => exact Frame.walk_stop mine (silent (by decide))
    | create =>
      have creates : (Call.request self request).creates = some fields := by
        simp only [Call.creates, parsed]
      refine Frame.walk_create mine (allowed fields creates) fun w record there settings => ?_
      intro fields' creates'
      obtain rfl := Option.some.inj (creates.symm.trans creates')
      exact ⟨record, there, settings⟩

theorem walk_onExit {frame : Frame} {P : World → Prop} {failed : Bool}
    (rougher : World.Rougher frame.rules P) : frame.Walk P (onExit failed) fun _ => P :=
  (Frame.walk_cleanupStart rougher).bind fun _ =>
    Frame.mild_provided (Frame.mild_ask (by trivial)) P rougher.calmer

/-- A body that is walked, with `on_exit` behind it. -/
theorem Frame.delivers_finish {frame : Frame} {body : Shell Unit}
    (walk : frame.Walk (fun _ => True) body fun _ => frame.vouched) {m w : World}
    (inv : frame.Between m w) :
    (parentVm frame.conditions).Delivers frame.Between (finish body)
      (fun exit w => exit = .ok → frame.vouched w) (m, w) := by
  have vouched : frame.Walk (fun _ => True) body fun _ w => Exit.ok = .ok → frame.vouched w :=
    walk.weaken (fun _ => id) (fun _ _ here _ => here) (fun _ _ => id)
  have trap : ∀ exit : Exit, frame.Walk (fun w => exit = .ok → frame.vouched w)
      (onExit (decide (exit = .failed))) fun _ w => exit = .ok → frame.vouched w := fun exit =>
    walk_onExit fun w t good rough here is => frame.lasting w t good rough (here is)
  exact Manager.delivers_finish vouched trap inv trivial

/-- **The manager**, whatever it is called with, goes by steps of its store. -/
theorem manager_delivers (meets : conditions.Meets rules) {call : Call} (allowed : call.Allowed rules)
    (mine : ∀ id, call.On id → ¬ spared id) {m w : World} (inv : Inv rules spared m w) :
    (parentVm conditions).Delivers (Inv rules spared) (manager call)
      (fun exit w => exit = .ok → call.Vouches w) (m, w) := by
  cases call with
  | request self request =>
    have shell : ((Call.request self request).frame meets spared).Walk (fun _ => True)
        (ask (.shell self)) fun _ _ => True := by
      refine Frame.walk_ask (fun _ _ => trivial) Frame.calmer_true fun w reply t good _ performed _ => ?_
      obtain ⟨good', steps⟩ := World.exec_shell good performed
      exact ⟨good', steps, trivial⟩
    exact Frame.delivers_finish (System.Contract.bind shell fun _ => walk_session meets allowed mine) inv
  | signalled =>
    refine @Frame.delivers_finish (Call.signalled.frame meets spared) _ ?_ m w inv
    exact (Frame.walk_cleanupStart Frame.rougher_true).bind fun _ =>
      Frame.mild_failed _ Frame.calmer_true |>.weaken (fun _ here => here)
        (fun _ _ _ fields (is : none = some fields) => nomatch is) (fun _ _ here => here)

/-- What an `ok` vouches for outlives what happens besides. -/
theorem Call.steady_vouches (call : Call) (meets : conditions.Meets rules) (exit : Exit) :
    (parentVm conditions).Steady (Inv rules spared) fun w => exit = .ok → call.Vouches w :=
  World.Calmer.steady (fun w t good calm here is =>
    call.rougher_vouches w t good calm.toRough (here is)) meets

end Manager

end Luhmen.Manager
