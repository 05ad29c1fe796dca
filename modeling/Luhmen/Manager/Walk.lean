/-
# Manager.Walk -- the script, one command after another

A `Frame` is what a run is restricted to, with what its `ok` vouches for.  In it
`Walk P block Q` says of a piece of script that from a good world with `P` it goes by
steps of the store to one with `Q`, whatever happens in between; every world on the way
is good.  `P` need only outlive calm moves (`World.Calmer`).

Most of the script is `Mild`: whatever calm moves keep, it keeps.  What is left are the
commands that the store takes notice of, and the reads whose answers the script acts
on; each has its rule here, and `Manager.Actions` walks the actions with them.
-/
import Luhmen.Manager.Conduct

set_option autoImplicit false

namespace Luhmen.Manager

open Luhmen.Theory

/-- What a run is restricted to, which microVMs it spares, and what it vouches for with
an `ok`. -/
structure Frame where
  conditions : Conditions
  rules : Rules
  meets : conditions.Meets rules
  spared : Id → Prop
  vouched : World → Prop
  lasting : World.Rougher rules vouched

namespace Frame

variable (frame : Frame) {α β : Type}

/-- Between two moments of a run. -/
abbrev Between (m w : World) : Prop :=
  Inv frame.rules frame.spared m w

abbrev Walk (P : World → Prop) (block : Shell α) (Q : α → World → Prop) : Prop :=
  System.Contract (S := parentVm frame.conditions) frame.Between P block Q
    fun exit w => exit = .ok → frame.vouched w

/-- It keeps whatever calm moves keep. -/
def Mild (block : Shell α) : Prop :=
  ∀ P, World.Calmer frame.rules P → frame.Walk P block fun _ => P

variable {frame} {P P' : World → Prop} {Q : α → World → Prop}

theorem calmer_true {rules : Rules} : World.Calmer rules fun _ => True :=
  fun _ _ _ _ _ => trivial

theorem rougher_true {rules : Rules} : World.Rougher rules fun _ => True :=
  fun _ _ _ _ _ => trivial

/-! ## One command -/

/-- What a command is known to do under the restrictions of the run, where its
precondition outlives what happens besides. -/
theorem walk_restricted {command : Command} {Q : command.Reply → World → Prop}
    (spares : ∀ id, frame.spared id → command.Spares id)
    (steady : (parentVm frame.conditions).Steady frame.Between P)
    (performs : ∀ w reply t, w.Good frame.rules → P w → World.exec command w reply t →
      frame.conditions.exec command w reply t →
      t.Good frame.rules ∧ Store.Steps frame.rules w.store t.store ∧ Q reply t) :
    frame.Walk P (ask command) Q := by
  refine System.Contract.perform (inv_lasting frame.meets) steady ?_
  intro m w reply t inv here ⟨performed, restricted⟩
  obtain ⟨good, steps, after⟩ := performs w reply t inv.good here performed restricted
  refine ⟨inv.then ⟨good, steps⟩ fun id isSpared => ?_, after⟩
  obtain ⟨now, performed, rfl⟩ := performed
  have same := World.effect_spares (spares id isSpared) performed
  exact same

theorem walk_steady {command : Command} {Q : command.Reply → World → Prop}
    (spares : ∀ id, frame.spared id → command.Spares id)
    (steady : (parentVm frame.conditions).Steady frame.Between P)
    (performs : ∀ w reply t, w.Good frame.rules → P w → World.exec command w reply t →
      (frame.rules.careful → w.Unconfused t) →
      t.Good frame.rules ∧ Store.Steps frame.rules w.store t.store ∧ Q reply t) :
    frame.Walk P (ask command) Q :=
  walk_restricted spares steady fun w reply t good here performed restricted =>
    performs w reply t good here performed fun careful =>
      frame.meets.exec careful command w reply t restricted

theorem walk_ask {command : Command} {Q : command.Reply → World → Prop}
    (spares : ∀ id, frame.spared id → command.Spares id)
    (calmer : World.Calmer frame.rules P)
    (performs : ∀ w reply t, w.Good frame.rules → P w → World.exec command w reply t →
      (frame.rules.careful → w.Unconfused t) →
      t.Good frame.rules ∧ Store.Steps frame.rules w.store t.store ∧ Q reply t) :
    frame.Walk P (ask command) Q :=
  walk_steady spares (calmer.steady frame.meets) performs

/-- A quiet command, with a fact about its reply. -/
theorem walk_quiet {command : Command} {fact : command.Reply → World → Prop}
    (quiet : command.Quiet) (calmer : World.Calmer frame.rules P)
    (replies : ∀ w reply t, w.Good frame.rules → P w → World.exec command w reply t → fact reply t) :
    frame.Walk P (ask command) fun reply w => P w ∧ fact reply w := by
  refine walk_ask (fun id _ => quiet.spares id) calmer fun w reply t good here performed unconfused => ?_
  obtain ⟨good', steps, calm⟩ := World.exec_quiet quiet good performed unconfused
  exact ⟨good', steps, calmer w t good calm here, replies w reply t good here performed⟩

theorem mild_ask {command : Command} (quiet : command.Quiet) : frame.Mild (ask command) := by
  intro P calmer
  have walk : frame.Walk P (ask command) fun _ w => P w ∧ True :=
    walk_quiet quiet calmer fun _ _ _ _ _ _ => trivial
  exact walk.weaken (fun _ => id) (fun _ _ => And.left) (fun _ _ => id)

/-- A change of the variables. -/
theorem walk_assign {change : Vars → Vars} (calmer : World.Calmer frame.rules P)
    (changed : ∀ w, w.Good frame.rules → P w →
      P' { w with vars := change w.vars, matched := [] }) :
    frame.Walk P (ask (.assign change)) fun _ => P' := by
  refine walk_ask (fun _ _ => trivial) calmer fun w reply t good here performed _ => ?_
  obtain ⟨good', steps, _⟩ := World.exec_assign good performed
  obtain ⟨_, rfl, rfl⟩ := performed
  exact ⟨good', steps, changed w good here⟩

theorem walk_assign_rougher {change : Vars → Vars} (rougher : World.Rougher frame.rules P) :
    frame.Walk P (ask (.assign change)) fun _ => P := by
  refine walk_ask (fun _ _ => trivial) rougher.calmer fun w reply t good here performed _ => ?_
  obtain ⟨good', steps, rough⟩ := World.exec_assign good performed
  exact ⟨good', steps, rougher w t good rough here⟩

/-! ## Pieces of script -/

/-- What calm moves keep is a habit of the script. -/
abbrev habit (frame : Frame) {P : World → Prop} (calmer : World.Calmer frame.rules P) : Habit where
  conditions := frame.conditions
  inv := frame.Between
  keeps := P
  leaves exit w := exit = .ok → frame.vouched w
  may := Command.Quiet
  lasting := inv_lasting frame.meets
  steady := calmer.steady frame.meets
  performs command quiet m w reply t inv here performed := by
    obtain ⟨good, steps, calm⟩ := World.exec_quiet quiet inv.good performed.1 fun careful =>
      frame.meets.exec careful command w reply t performed.2
    refine ⟨inv.then ⟨good, steps⟩ fun id _ => ?_, calmer w t inv.good calm here⟩
    obtain ⟨⟨_, effect, rfl⟩, _⟩ := performed
    have same := World.effect_spares (quiet.spares id) effect
    exact same
  still command still := by
    cases command with
    | print => exact still.elim
    | _ => exact still

theorem fails (calmer : World.Calmer frame.rules P) : (frame.habit calmer).Fails :=
  fun _ _ is => nomatch is

theorem mild_pure {value : α} : frame.Mild (pure value) :=
  fun _ calmer => show (frame.habit calmer).Keeps _ from Habit.keeps_pure

theorem mild_failed : frame.Mild (throw .failed : Shell α) :=
  fun _ calmer => Habit.keeps_failed (fails calmer)

theorem Mild.bind {block : Shell α} {rest : α → Shell β} (first : frame.Mild block)
    (second : ∀ value, frame.Mild (rest value)) : frame.Mild (block >>= rest) :=
  fun P calmer => (first P calmer).bind fun value => second value P calmer

/-- Behind a mild piece all is as before. -/
theorem Mild.then {block : Shell β} {rest : β → Shell α} (mild : frame.Mild block)
    (calmer : World.Calmer frame.rules P) (next : ∀ value, frame.Walk P (rest value) Q) :
    frame.Walk P (block >>= rest) Q :=
  (mild P calmer).bind next

theorem mild_ite {test : Prop} [Decidable test] {yes no : Shell α} (first : frame.Mild yes)
    (second : frame.Mild no) : frame.Mild (if test then yes else no) := by
  split
  · exact first
  · exact second

theorem mild_demand {test : Shell Bool} (mild : frame.Mild test) : frame.Mild (demand test) :=
  fun P calmer => Habit.keeps_demand (fails calmer) (mild P calmer)

theorem mild_provided {test : Bool} {body : Shell Unit} (mild : frame.Mild body) :
    frame.Mild (provided test body) :=
  mild_ite mild mild_pure

theorem mild_attempts {n : Nat} {body : Shell Bool} (mild : frame.Mild body) :
    frame.Mild (attempts n body) :=
  fun P calmer => show (frame.habit calmer).Keeps _ from Habit.keeps_attempts (mild P calmer)

theorem walk_each {items : List β} {body : β → Shell Unit}
    (walk : ∀ item ∈ items, frame.Walk P (body item) fun _ => P) :
    frame.Walk P (each items body) fun _ => P := by
  induction items with
  | nil => exact System.Contract.pure fun _ => id
  | cons item rest ih =>
    refine System.Contract.bind (walk item List.mem_cons_self) fun _ => ?_
    exact ih fun other member => walk other (.tail _ member)

/-- Cleaning up keeps what does not depend on the variables. -/
theorem walk_cleanupStart (rougher : World.Rougher frame.rules P) :
    frame.Walk P cleanupStart fun _ => P := by
  have keeps : ∀ {block : Shell Unit}, (frame.habit rougher.calmer).Keeps block →
      frame.Walk P block fun _ => P := id
  refine (mild_ask (by trivial)).then rougher.calmer fun vars => ?_
  refine (keeps (Habit.keeps_forSome fun pid => Habit.keeps_cleanupProcess)).bind fun _ => ?_
  have ended : (frame.habit rougher.calmer).Keeps (terminateCgroup false vars.cgroup vars.self) :=
    Habit.keeps_terminateCgroup
  refine System.Contract.bind ended fun _ => ?_
  refine (keeps (Habit.keeps_forSome fun pid => Habit.keeps_still (by trivial))).bind fun _ => ?_
  exact (keeps (Habit.keeps_cleanupFiles (fails _))).bind fun _ => walk_assign_rougher rougher

/-- There is nothing behind an error. -/
theorem walk_errorReply {message : String} : frame.Walk P (errorReply message : Shell α) Q := by
  refine System.Contract.from_pre (fun _ _ => trivial) ?_
  refine (walk_cleanupStart rougher_true).bind fun _ => ?_
  refine (mild_ask (by trivial)).then calmer_true fun _ => ?_
  exact System.Contract.throw fun _ _ is => nomatch is

theorem mild_errorReply {message : String} : frame.Mild (errorReply message : Shell α) :=
  fun _ _ => walk_errorReply

theorem mild_require {test : Shell Bool} {message : String} (mild : frame.Mild test) :
    frame.Mild (require test message) :=
  mild.bind fun _ => mild_ite mild_pure mild_errorReply

theorem walk_okReply {data : Bytes} (calmer : World.Calmer frame.rules P)
    (vouches : ∀ w, P w → frame.vouched w) : frame.Walk P (okReply data : Shell α) Q := by
  refine (mild_ask (by trivial)).then calmer fun _ => ?_
  exact System.Contract.throw fun w here _ => vouches w here

/-! ## Tests -/

theorem walk_demand {test : Shell Bool} (walk : frame.Walk P test fun holds w =>
    holds = true → P' w) : frame.Walk P (demand test) fun _ => P' := by
  refine walk.bind fun holds => ?_
  cases holds with
  | true => exact System.Contract.pure fun w here => here rfl
  | false => exact System.Contract.throw fun _ _ is => nomatch is

theorem walk_require {test : Shell Bool} {message : String}
    (walk : frame.Walk P test fun holds w => holds = true → P' w) :
    frame.Walk P (require test message) fun _ => P' := by
  refine walk.bind fun holds => ?_
  cases holds with
  | true => exact System.Contract.pure fun w here => here rfl
  | false => exact walk_errorReply

/-- A test of what the shell knows by itself. -/
theorem require_pure {test : Bool} {message : String} {rest : Unit → Shell α}
    (next : test = true → frame.Walk P (rest ()) Q) :
    frame.Walk P (require (pure test) message >>= rest) Q := by
  cases test with
  | true => exact next rfl
  | false =>
    have ends : frame.Walk P (errorReply message) fun (_ : Unit) _ => False := walk_errorReply
    exact ends.bind fun _ _ _ _ never => never.elim

/-! ## Records -/

theorem rougher_record {rules : Rules} {id : Id} {record : Option Record} :
    World.Rougher rules fun w => w.store.record id = record :=
  fun _ _ _ rough here => (rough.record id).trans here

/-- What is read of a microVM whose record is known. -/
theorem value_then {id : Id} {key : Key} {record : Record} {rest : Bytes → Shell α}
    (calmer : World.Calmer frame.rules P) (known : ∀ w, P w → w.store.record id = some record)
    (next : frame.Walk P (rest (record.value key)) Q) :
    frame.Walk P (ask (.stateValue key id) >>= rest) Q := by
  have reads : frame.Walk P (ask (.stateValue key id)) fun reply w =>
      P w ∧ reply = record.value key := by
    refine walk_quiet (by trivial) calmer fun w reply t good here performed => ?_
    obtain ⟨_, ⟨rfl, is⟩, rfl⟩ := performed
    exact is.trans (good.stateValue (known _ here) key)
  refine reads.bind fun reply => System.Contract.assume (fun _ => And.right) fun is => ?_
  subst is
  exact next.from_pre fun _ => And.left

theorem mild_runs {status pid startTime : Bytes} : frame.Mild (runs status pid startTime) :=
  fun _ calmer => show (frame.habit calmer).Keeps _ from Habit.keeps_runs

theorem mild_jsonVm {id : Id} : frame.Mild (jsonVm id) :=
  fun _ calmer => show (frame.habit calmer).Keeps _ from Habit.keeps_jsonVm

/-- A frame under which the script can refuse. -/
abbrev conduct (frame : Frame) {P : World → Prop} (calmer : World.Calmer frame.rules P) :
    Conduct where
  toHabit := frame.habit calmer
  failed := fails calmer
  refuses _ _ _ := walk_errorReply

/-- A record is written beside the old one and takes its place. -/
theorem walk_writeState {id : Id} {record : Record} (mine : ¬ frame.spared id)
    (calmer : World.Calmer frame.rules P)
    (clean : record.Clean)
    (step : ∀ w, w.Good frame.rules → P w → id ∈ w.vms → Store.Step frame.rules w.store
      (w.store.setRecord id record (record.status.owner w.vars.launch))) :
    frame.Walk P (writeState id record.fields) fun _ w => w.store.record id = some record := by
  have steady : (parentVm frame.conditions).Steady frame.Between fun w =>
      P w ∧ w.temporary id w.vars.self = some record.text := by
    refine (calmer.steady frame.meets).and fun m w t inv moves here => ?_
    obtain ⟨_, _, _, _, rfl⟩ := moves.1.untouched
    exact here
  have wrote : frame.Walk P (ask (.writeTemporary id record.text)) fun done w =>
      done = true → P w ∧ w.temporary id w.vars.self = some record.text := by
    refine walk_ask (fun _ _ => trivial) calmer fun w reply t good here performed unconfused => ?_
    obtain ⟨good', steps, calm⟩ := World.exec_quiet (by trivial) good performed unconfused
    refine ⟨good', steps, fun done => ⟨calmer w t good calm here, ?_⟩⟩
    obtain ⟨_, ⟨written, rfl, whole⟩, rfl⟩ := performed
    show Function.update w.temporary id _ id w.vars.self = _
    rw [Function.update_self, Function.update_self]
    exact whole done
  have permitted : frame.Walk (fun w => P w ∧ w.temporary id w.vars.self = some record.text)
      (ask (.chmodTemporary id)) fun done w =>
        done = true → P w ∧ w.temporary id w.vars.self = some record.text := by
    refine walk_steady (fun _ _ => trivial) steady fun w reply t good here performed unconfused => ?_
    obtain ⟨good', steps, calm⟩ := World.exec_quiet (by trivial) good performed unconfused
    refine ⟨good', steps, fun _ => ⟨calmer w t good calm here.1, ?_⟩⟩
    obtain ⟨_, rfl, rfl⟩ := performed
    exact here.2
  refine System.Contract.bind (walk_demand wrote) fun _ => ?_
  refine System.Contract.bind (walk_demand permitted) fun _ => ?_
  have spares : ∀ other, frame.spared other → (Command.renameState id).Spares other := by
    rintro other isSpared rfl
    exact mine isSpared
  refine walk_demand (walk_steady spares steady fun w reply t good here performed _ => ?_)
  exact World.exec_renameState good performed here.2 clean (step w good here.1)

end Frame

end Luhmen.Manager
