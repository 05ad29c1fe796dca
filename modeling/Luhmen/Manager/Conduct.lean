/-
# Manager.Conduct -- what the script keeps, wherever it leaves

Most of what the script does leaves most things alone.  A `Habit` is such a thing: an
assertion `keeps` that every still command keeps, besides an invariant, and what holds at
the ways out (`leaves`).  A `Conduct` is a habit under which commands can fail and the
script can refuse a request.  `Keeps` says of a piece of script that it keeps the assertion and
leaves as the habit says; each function of the script has a lemma of that kind here, to be
used with whatever assertion is at hand.
-/
import Luhmen.Manager.Refinement
import Luhmen.Theory.JsonCompact

set_option autoImplicit false

namespace Luhmen.Manager

open Luhmen.Theory

/-- Quiet commands, and none that prints. -/
def Command.Still : Command → Prop
  | .print _ => False
  | command => command.Quiet

theorem Command.Still.childless {command : Command} (still : command.Still) :
    command.Childless := by
  cases command with
  | shell | spawnJailer | assign => exact still.elim
  | _ => trivial

/-- What `cleanup_start` makes of the variables. -/
def Vars.reset (vars : Vars) : Vars :=
  { vars with
    pid := none
    startTime := []
    jail := none
    cgroup := []
    logger := none
    overlay := none
    logPipe := none }

/-- They name no file that is to be removed. -/
structure Vars.Tidy (vars : Vars) : Prop where
  overlay : vars.overlay = none
  logPipe : vars.logPipe = none
  jail : vars.jail = none

theorem Vars.tidy_reset (vars : Vars) : vars.reset.Tidy :=
  ⟨rfl, rfl, rfl⟩

/-- A short text that stands for itself between quotes. -/
def Sayable (text : Bytes) : Prop :=
  text.length ≤ 200 ∧ Json.Unescaped text

instance (text : Bytes) : Decidable (Sayable text) :=
  inferInstanceAs (Decidable (_ ∧ _))

structure Habit where
  conditions : Conditions
  inv : World → World → Prop
  keeps : World → Prop
  leaves : Exit → World → Prop
  may : Command → Prop
  lasting : (parentVm conditions).Lasting inv
  steady : (parentVm conditions).Steady inv keeps
  performs : ∀ command, may command → ∀ m w reply t, inv m w → keeps w →
    (parentVm conditions).exec command w reply t → inv m t ∧ keeps t
  still : ∀ command : Command, command.Still → may command

namespace Habit

variable (habit : Habit) {α β : Type}

/-- From one assertion to another, leaving as the habit says. -/
abbrev Runs (P : World → Prop) (block : Shell α) (Q : α → World → Prop) : Prop :=
  System.Contract (S := parentVm habit.conditions) habit.inv P block Q habit.leaves

abbrev Keeps (block : Shell α) : Prop :=
  habit.Runs habit.keeps block fun _ => habit.keeps

/-- A failing command leaves what is kept. -/
def Fails : Prop :=
  ∀ w, habit.keeps w → habit.leaves .failed w

variable {habit}

theorem keeps_ask {command : Command} (may : habit.may command) : habit.Keeps (ask command) := by
  refine System.Contract.perform habit.lasting habit.steady fun m w reply t inv here performed => ?_
  exact habit.performs command may m w reply t inv here performed

theorem keeps_still {command : Command} (still : command.Still) : habit.Keeps (ask command) :=
  keeps_ask (habit.still command still)

theorem keeps_pure {value : α} : habit.Keeps (pure value) :=
  System.Contract.pure fun _ => id

theorem keeps_failed (fails : habit.Fails) : habit.Keeps (throw .failed : Shell α) :=
  System.Contract.throw fails

theorem keeps_bind {block : Shell β} {rest : β → Shell α} (first : habit.Keeps block)
    (second : ∀ value, habit.Keeps (rest value)) : habit.Keeps (block >>= rest) :=
  first.bind second

theorem keeps_ite {test : Prop} [Decidable test] {yes no : Shell α} (first : habit.Keeps yes)
    (second : habit.Keeps no) : habit.Keeps (if test then yes else no) := by
  split
  · exact first
  · exact second

/-- A test by a still command. -/
theorem keeps_if {command : Command} {yes : command.Reply → Shell α} (still : command.Still)
    (each : ∀ reply, habit.Keeps (yes reply)) : habit.Keeps (ask command >>= yes) :=
  keeps_bind (keeps_still still) each

theorem keeps_demand (fails : habit.Fails) {test : Shell Bool} (keeps : habit.Keeps test) :
    habit.Keeps (demand test) :=
  keeps_bind keeps fun _ => keeps_ite keeps_pure (keeps_failed fails)

theorem keeps_provided {test : Bool} {body : Shell Unit} (keeps : habit.Keeps body) :
    habit.Keeps (provided test body) :=
  keeps_ite keeps keeps_pure

theorem keeps_forSome {value : Option β} {body : β → Shell Unit}
    (keeps : ∀ value, habit.Keeps (body value)) : habit.Keeps (forSome value body) := by
  cases value with
  | none => exact keeps_pure
  | some value => exact keeps value

theorem keeps_andAlso {first : Bool} {second : Shell Bool} (keeps : habit.Keeps second) :
    habit.Keeps (andAlso first second) :=
  keeps_ite keeps keeps_pure

theorem keeps_each {items : List β} {body : β → Shell Unit}
    (keeps : ∀ item, habit.Keeps (body item)) : habit.Keeps (each items body) := by
  induction items with
  | nil => exact keeps_pure
  | cons item rest ih => exact keeps_bind (keeps item) fun _ => ih

theorem keeps_attempts {n : Nat} {body : Shell Bool} (keeps : habit.Keeps body) :
    habit.Keeps (attempts n body) := by
  induction n with
  | zero => exact keeps_pure
  | succ n ih => exact keeps_bind keeps fun _ => keeps_ite keeps_pure ih

/-- A reply is the end. -/
theorem runs_okReply {data : Bytes} (prints : habit.may (.print (okText data)))
    (ok : ∀ w, habit.keeps w → habit.leaves .ok w) :
    habit.Runs habit.keeps (okReply data : Shell α) fun _ _ => False :=
  System.Contract.bind (keeps_ask prints) fun _ => System.Contract.throw ok

theorem keeps_okReply {data : Bytes} (prints : habit.may (.print (okText data)))
    (ok : ∀ w, habit.keeps w → habit.leaves .ok w) : habit.Keeps (okReply data : Shell α) :=
  (runs_okReply prints ok).weaken (fun _ => id) (fun _ _ never => never.elim) fun _ _ => id

/-! ## Cleaning up -/

theorem keeps_signalCgroup {signal : Signal} {path : Bytes} {self : Pid} :
    habit.Keeps (signalCgroup false signal path self) :=
  keeps_if (by trivial) fun pids => keeps_each fun pid =>
    keeps_ite keeps_pure (keeps_still (by trivial))

/-- It keeps what its two rounds of signals keep. -/
theorem keeps_terminateCgroup_of {recorded : Bool} {path : Bytes} {self : Pid}
    (signals : ∀ signal, habit.Keeps (signalCgroup recorded signal path self)) :
    habit.Keeps (terminateCgroup recorded path self) := by
  refine keeps_ite keeps_pure (keeps_if (by trivial) fun there => keeps_ite ?_ keeps_pure)
  refine keeps_bind (signals .term) fun _ => keeps_bind (keeps_attempts ?_) fun _ => ?_
  · refine keeps_if (by trivial) fun pids => keeps_ite keeps_pure ?_
    exact keeps_if (by trivial) fun _ => keeps_pure
  · refine keeps_bind (signals .kill) fun _ => keeps_attempts ?_
    refine keeps_if (by trivial) fun removed => keeps_ite keeps_pure ?_
    refine keeps_if (by trivial) fun left => keeps_ite ?_ keeps_pure
    exact keeps_if (by trivial) fun _ => keeps_pure

theorem keeps_terminateCgroup {path : Bytes} {self : Pid} :
    habit.Keeps (terminateCgroup false path self) :=
  keeps_terminateCgroup_of fun _ => keeps_signalCgroup

theorem keeps_cleanupProcess {pid : Pid} {startTime : Bytes} :
    habit.Keeps (cleanupProcess pid startTime) := by
  refine keeps_if (by trivial) fun there => keeps_ite ?_ keeps_pure
  refine keeps_if (by trivial) fun _ => keeps_bind (keeps_attempts ?_) fun _ => ?_
  · refine keeps_if (by trivial) fun alive => keeps_ite ?_ keeps_pure
    exact keeps_if (by trivial) fun _ => keeps_pure
  · refine keeps_if (by trivial) fun alive => ?_
    refine keeps_bind (keeps_andAlso (keeps_still (by trivial))) fun still => ?_
    exact keeps_provided (keeps_still (by trivial))

theorem keeps_cleanupFiles (fails : habit.Fails) {vars : Vars} :
    habit.Keeps (cleanupFiles vars) := by
  refine keeps_bind (keeps_forSome fun vm => keeps_demand fails (keeps_still (by trivial))) fun _ => ?_
  refine keeps_bind (keeps_forSome fun vm => keeps_demand fails (keeps_still (by trivial))) fun _ => ?_
  exact keeps_forSome fun vm => keeps_provided (keeps_demand fails (keeps_still (by trivial)))

/-- The whole of it, where the variables may be cleared. -/
theorem keeps_cleanupStart (fails : habit.Fails) (resets : habit.may (.assign Vars.reset)) :
    habit.Keeps cleanupStart := by
  refine keeps_if (by trivial) fun vars => ?_
  refine keeps_bind (keeps_forSome fun pid => keeps_cleanupProcess) fun _ => ?_
  refine keeps_bind keeps_terminateCgroup fun _ => ?_
  refine keeps_bind (keeps_forSome fun pid => keeps_still (by trivial)) fun _ => ?_
  exact keeps_bind (keeps_cleanupFiles fails) fun _ => keeps_ask resets

/-- The variables as they are read. -/
theorem runs_vars {fact : Vars → Prop} (known : ∀ w, habit.keeps w → fact w.vars) :
    habit.Runs habit.keeps (ask .vars) fun vars w => habit.keeps w ∧ fact vars := by
  refine System.Contract.perform habit.lasting habit.steady fun m w reply t inv here performed => ?_
  have after := habit.performs .vars (habit.still .vars (by trivial)) m w reply t inv here performed
  obtain ⟨⟨_, ⟨_, rfl⟩, _⟩, _⟩ := performed
  exact ⟨after.1, after.2, known w here⟩

/-- Where there is no file to remove, cleaning up cannot fail. -/
theorem keeps_cleanupStart_tidy (tidy : ∀ w, habit.keeps w → w.vars.Tidy)
    (resets : habit.may (.assign Vars.reset)) : habit.Keeps cleanupStart := by
  refine System.Contract.bind (runs_vars tidy) fun vars => ?_
  refine System.Contract.assume (fun _ => And.right) fun ⟨noOverlay, noPipe, noJail⟩ => ?_
  refine System.Contract.from_pre (fun _ => And.left) ?_
  rw [cleanupFiles, noOverlay, noPipe, noJail]
  refine keeps_bind (keeps_forSome fun pid => keeps_cleanupProcess) fun _ => ?_
  refine keeps_bind keeps_terminateCgroup fun _ => ?_
  refine keeps_bind (keeps_forSome fun pid => keeps_still (by trivial)) fun _ => ?_
  exact keeps_bind keeps_pure fun _ => keeps_ask resets

theorem keeps_onExit {failed : Bool} (cleans : habit.Keeps cleanupStart)
    (prints : failed = true →
      habit.may (.print (errorText "microVM manager operation failed"))) :
    habit.Keeps (onExit failed) := by
  refine keeps_bind cleans fun _ => ?_
  cases failed with
  | true => exact keeps_ask (prints rfl)
  | false => exact keeps_pure

/-! ## Records -/

theorem keeps_writeState (fails : habit.Fails) {id : Id} {fields : List (Key × Bytes)}
    (renames : habit.may (.renameState id)) : habit.Keeps (writeState id fields) := by
  refine keeps_bind (keeps_demand fails (keeps_still (by trivial))) fun _ => ?_
  refine keeps_bind (keeps_demand fails (keeps_still (by trivial))) fun _ => ?_
  exact keeps_demand fails (keeps_ask renames)

theorem keeps_runs {status pid startTime : Bytes} : habit.Keeps (runs status pid startTime) :=
  keeps_ite (keeps_still (by trivial)) keeps_pure

theorem keeps_jsonVm {id : Id} : habit.Keeps (jsonVm id) := by
  refine keeps_if (by trivial) fun status => keeps_if (by trivial) fun pid => ?_
  refine keeps_if (by trivial) fun startTime => keeps_if (by trivial) fun uid => ?_
  refine keeps_if (by trivial) fun gid => keeps_bind keeps_runs fun running => ?_
  exact keeps_if (by trivial) fun vcpus => keeps_if (by trivial) fun memoryMib => keeps_pure

/-! ## Resources -/

theorem keeps_recordedResources (fails : habit.Fails) {id : Id} :
    habit.Keeps (recordedResources id) := by
  refine keeps_if (by trivial) fun vcpus => keeps_if (by trivial) fun memoryMib => ?_
  refine keeps_ite ?_ keeps_pure
  split
  · exact keeps_pure
  · exact keeps_failed fails

theorem keeps_candidateResources (fails : habit.Fails) {id : Id} :
    habit.Keeps (candidateResources id) := by
  refine keeps_if (by trivial) fun there => keeps_ite ?_ keeps_pure
  refine keeps_if (by trivial) fun status => keeps_ite ?_ keeps_pure
  refine keeps_if (by trivial) fun pid => keeps_if (by trivial) fun startTime => ?_
  exact keeps_if (by trivial) fun matched => keeps_ite (keeps_recordedResources fails) keeps_pure

theorem keeps_runningResources (fails : habit.Fails) {ids : List Id} {used : Nat × Nat} :
    habit.Keeps (runningResources ids used) := by
  induction ids generalizing used with
  | nil => exact keeps_pure
  | cons id rest ih => exact keeps_bind (keeps_candidateResources fails) fun added => ih

theorem keeps_resourceCapacity (fails : habit.Fails) : habit.Keeps resourceCapacity := by
  refine keeps_if (by trivial) fun parentCpus => keeps_if (by trivial) fun parentMemoryMib => ?_
  refine keeps_ite (keeps_if (by trivial) fun candidates => ?_) keeps_pure
  exact keeps_bind (keeps_runningResources fails) fun used => keeps_pure

/-! ## Identities -/

theorem keeps_recordedIdentity {uid : Bytes} {ids : List Id} :
    habit.Keeps (recordedIdentity uid ids) := by
  induction ids with
  | nil => exact keeps_pure
  | cons id rest ih =>
    refine keeps_if (by trivial) fun there => keeps_ite ?_ ih
    exact keeps_if (by trivial) fun recorded => keeps_ite keeps_pure ih

theorem keeps_identityInUse {uid : Nat} : habit.Keeps (identityInUse uid) := by
  refine keeps_if (by trivial) fun known => keeps_ite keeps_pure ?_
  exact keeps_if (by trivial) fun candidates => keeps_recordedIdentity

/-- What is found is one of those that were looked at. -/
theorem runs_firstFree {uids : List Nat} : habit.Runs habit.keeps (firstFree uids)
    fun free w => habit.keeps w ∧ ∀ uid, free = some uid → uid ∈ uids := by
  induction uids with
  | nil => exact System.Contract.pure fun w here => ⟨here, fun uid is => nomatch is⟩
  | cons uid rest ih =>
    refine System.Contract.bind keeps_identityInUse fun inUse => ?_
    cases inUse with
    | true =>
      refine ih.weaken (fun _ => id) (fun _ _ here => ⟨here.1, fun uid is => ?_⟩) fun _ _ => id
      exact List.mem_cons_of_mem _ (here.2 uid is)
    | false =>
      refine System.Contract.pure fun w here => ⟨here, fun other is => ?_⟩
      obtain rfl := Option.some.inj is
      exact List.mem_cons_self

/-- Whatever is wrong can be said. -/
theorem runs_delegation : habit.Runs habit.keeps delegation fun problem w =>
    habit.keeps w ∧ ∀ text, problem = some text → Sayable (ascii text) := by
  have found : ∀ problem : Option String, (∀ text, problem = some text → Sayable (ascii text)) →
      habit.Runs habit.keeps (pure problem) fun problem w =>
        habit.keeps w ∧ ∀ text, problem = some text → Sayable (ascii text) :=
    fun _ sayable => System.Contract.pure fun _ here => ⟨here, sayable⟩
  have known : ∀ problem : String, Sayable (ascii problem) →
      ∀ text, some problem = some text → Sayable (ascii text) :=
    fun _ sayable _ is => Option.some.inj is ▸ sayable
  refine System.Contract.bind (keeps_still (by trivial)) fun own => ?_
  split
  case isFalse => exact found _ (known _ (by decide))
  case isTrue =>
    refine System.Contract.bind (keeps_still (by trivial)) fun there => ?_
    split
    case isFalse => exact found _ (known _ (by decide))
    case isTrue =>
      refine System.Contract.bind (keeps_still (by trivial)) fun cpu => ?_
      refine System.Contract.bind (keeps_andAlso (keeps_still (by trivial))) fun memory => ?_
      refine System.Contract.bind (keeps_andAlso (keeps_still (by trivial))) fun pids => found _ ?_
      split
      · exact fun _ none => nomatch none
      · exact known _ (by decide)

theorem keeps_delegation : habit.Keeps delegation :=
  runs_delegation.weaken (fun _ => id) (fun _ _ => And.left) fun _ _ => id

end Habit

/-- A habit under which the script can refuse. -/
structure Conduct extends Habit where
  failed : toHabit.Fails
  refuses : ∀ (α : Type) (message : String), Sayable (ascii message) →
    toHabit.Runs keeps (errorReply message : Shell α) fun _ _ => False

namespace Conduct

open Habit

variable {conduct : Conduct} {α : Type}

/-- What the script has set up may be noted in the variables. -/
def Assigns (conduct : Conduct) : Prop :=
  ∀ change : Vars → Vars,
    (∀ vars, (change vars).startTime = vars.startTime ∧ (change vars).overlay = vars.overlay) →
    conduct.may (.assign change)

theorem keeps_errorReply {message : String} (sayable : Sayable (ascii message)) :
    conduct.Keeps (errorReply message : Shell α) :=
  (conduct.refuses α message sayable).weaken (fun _ => id) (fun _ _ never => never.elim)
    fun _ _ => id

theorem keeps_require {test : Shell Bool} {message : String} (keeps : conduct.Keeps test)
    (sayable : Sayable (ascii message)) : conduct.Keeps (require test message) :=
  keeps_bind keeps fun _ => keeps_ite keeps_pure (keeps_errorReply sayable)

theorem keeps_check {test : Bool} {message : String} (sayable : Sayable (ascii message)) :
    conduct.Keeps (require (pure test) message) :=
  keeps_require keeps_pure sayable

theorem keeps_checkStartResources {vcpus memoryMib : Bytes} :
    conduct.Keeps (checkStartResources vcpus memoryMib) := by
  refine keeps_bind (keeps_resourceCapacity conduct.failed) fun capacity => ?_
  cases capacity with
  | none => exact keeps_errorReply (by decide)
  | some capacity =>
    refine keeps_bind (keeps_check (by decide)) fun _ => ?_
    split
    · exact keeps_failed conduct.failed
    · exact keeps_check (by decide)

theorem runs_allocateIdentity : conduct.Runs conduct.keeps allocateIdentity
    fun uid w => conduct.keeps w ∧ 60000 ≤ uid ∧ uid ≤ 60999 := by
  refine System.Contract.bind runs_firstFree fun free => ?_
  cases free with
  | none =>
    have refused := conduct.refuses Nat "no free per-microVM jailer identity is available"
      (by decide)
    exact refused.weaken (fun _ => And.left) (fun _ _ never => never.elim) fun _ _ => id
  | some uid =>
    refine System.Contract.pure fun w here => ⟨here.1, ?_⟩
    have range := List.mem_range'_1.1 (here.2 uid rfl)
    exact ⟨range.1, Nat.le_of_lt_succ range.2⟩

theorem keeps_allocateIdentity : conduct.Keeps allocateIdentity :=
  runs_allocateIdentity.weaken (fun _ => id) (fun _ _ => And.left) fun _ _ => id

/-! ## A start, piece by piece -/

theorem keeps_preflight : conduct.Keeps preflight := by
  refine keeps_bind (keeps_require (keeps_still (by trivial)) (by decide)) fun _ => ?_
  refine keeps_bind (keeps_require (keeps_still (by trivial)) (by decide)) fun _ => ?_
  refine keeps_bind (keeps_require (keeps_still (by trivial)) (by decide)) fun _ => ?_
  refine keeps_bind (keeps_require (keeps_still (by trivial)) (by decide)) fun _ => ?_
  refine keeps_if (by trivial) fun own => ?_
  refine keeps_bind (keeps_check (by decide)) fun _ => ?_
  refine keeps_bind (keeps_require (keeps_still (by trivial)) (by decide)) fun _ => ?_
  refine keeps_bind (keeps_require (keeps_still (by trivial)) (by decide)) fun _ => ?_
  refine keeps_bind (keeps_require (keeps_still (by trivial)) (by decide)) fun _ => ?_
  refine keeps_bind (keeps_require (keeps_still (by trivial)) (by decide)) fun _ => ?_
  exact keeps_pure

theorem keeps_startIdentity {id : Id} {status kernel rootfs vcpus memoryMib : Bytes}
    (renames : conduct.may (.renameState id)) :
    conduct.Keeps (startIdentity id status kernel rootfs vcpus memoryMib) := by
  refine keeps_if (by trivial) fun uid => keeps_if (by trivial) fun gid => ?_
  refine keeps_ite keeps_pure (keeps_bind keeps_allocateIdentity fun uid => ?_)
  exact keeps_bind (keeps_writeState conduct.failed renames) fun _ => keeps_pure

theorem keeps_startDisk {rootfs : Bytes} {id : Id}
    (stages : ∀ overlay, conduct.may (.assign fun vars => { vars with overlay }))
    (renames : conduct.may (.renameDisk id)) : conduct.Keeps (startDisk rootfs id) := by
  refine keeps_if (by trivial) fun there => keeps_bind (keeps_provided ?_) fun _ => ?_
  · refine keeps_bind (keeps_ask (stages _)) fun _ => ?_
    refine keeps_bind (keeps_require (keeps_still (by trivial)) (by decide)) fun _ => ?_
    exact keeps_bind (keeps_demand conduct.failed (keeps_ask renames)) fun _ => keeps_ask (stages _)
  · exact keeps_require (keeps_still (by trivial)) (by decide)

theorem keeps_startJail {kernel uid gid : Bytes} {id : Id}
    (assigns : conduct.Assigns) :
    conduct.Keeps (startJail kernel uid gid id) := by
  refine keeps_bind (keeps_demand conduct.failed (keeps_still (by trivial))) fun _ => ?_
  refine keeps_bind (keeps_demand conduct.failed (keeps_still (by trivial))) fun _ => ?_
  refine keeps_bind (keeps_ask (assigns _ fun _ => ⟨rfl, rfl⟩)) fun _ => ?_
  refine keeps_bind (keeps_require (keeps_still (by trivial)) (by decide)) fun _ => ?_
  refine keeps_bind (keeps_require (keeps_still (by trivial)) (by decide)) fun _ => ?_
  exact keeps_demand conduct.failed (keeps_still (by trivial))

theorem keeps_startLog {parent : Bytes} {id : Id}
    (assigns : conduct.Assigns) : conduct.Keeps (startLog parent id) := by
  refine keeps_bind (keeps_ask (assigns _ fun _ => ⟨rfl, rfl⟩)) fun _ => keeps_if (by trivial) fun there => ?_
  refine keeps_bind (keeps_provided (keeps_require (keeps_still (by trivial)) (by decide)))
    fun _ => ?_
  refine keeps_bind (keeps_demand conduct.failed (keeps_still (by trivial))) fun _ => ?_
  refine keeps_bind (keeps_demand conduct.failed (keeps_still (by trivial))) fun _ => ?_
  refine keeps_bind (keeps_demand conduct.failed (keeps_still (by trivial))) fun _ => ?_
  refine keeps_bind (keeps_ask (assigns _ fun _ => ⟨rfl, rfl⟩)) fun _ => ?_
  refine keeps_if (by trivial) fun logger => ?_
  cases logger with
  | none => exact keeps_failed conduct.failed
  | some pid => exact keeps_ask (assigns _ fun _ => ⟨rfl, rfl⟩)

theorem keeps_awaitCgroup {pid : Pid} {startTime expected seen : Bytes} {n : Nat} :
    conduct.Keeps (awaitCgroup pid startTime expected n seen) := by
  induction n generalizing seen with
  | zero => exact keeps_pure
  | succ n ih =>
    refine keeps_if (by trivial) fun seen => keeps_ite keeps_pure ?_
    refine keeps_bind (keeps_require (keeps_still (by trivial)) (by decide)) fun _ => ?_
    exact keeps_if (by trivial) fun _ => ih

theorem keeps_awaitSocket {pid : Pid} {startTime : Bytes} :
    conduct.Keeps (awaitSocket pid startTime) := by
  refine keeps_bind (keeps_attempts ?_) fun _ => ?_
  · refine keeps_if (by trivial) fun there => keeps_ite keeps_pure ?_
    refine keeps_bind (keeps_require (keeps_still (by trivial)) (by decide)) fun _ => ?_
    exact keeps_if (by trivial) fun _ => keeps_pure
  · exact keeps_require (keeps_still (by trivial)) (by decide)

theorem keeps_configure {vcpus memoryMib : Bytes} : conduct.Keeps (configure vcpus memoryMib) := by
  refine keeps_bind (keeps_require (keeps_still (by trivial)) (by decide)) fun _ => ?_
  refine keeps_bind (keeps_require (keeps_still (by trivial)) (by decide)) fun _ => ?_
  refine keeps_bind (keeps_require (keeps_still (by trivial)) (by decide)) fun _ => ?_
  exact keeps_require (keeps_still (by trivial)) (by decide)

end Conduct

/-! ## The trap behind the script -/

/-- What the script leaves and `on_exit` makes of it. -/
theorem delivers_finish {conditions : Conditions} {inv : World → World → Prop}
    {left final : Exit → World → Prop} {P : World → Prop} {body : Shell Unit}
    (runs : System.Contract (S := parentVm conditions) inv P body (fun _ => left .ok) left)
    (trap : ∀ exit, System.Contract (S := parentVm conditions) inv (left exit)
      (onExit (decide (exit = .failed))) (fun _ => final exit) final)
    {m w : World} (holds : inv m w) (here : P w) :
    (parentVm conditions).Delivers inv (finish body) final (m, w) := by
  have rest : ∀ exit after m w, after (.ok ()) = pure exit →
      (∀ last, after (.error last) = pure last) → inv m w → left exit w →
      (parentVm conditions).Delivers inv
        ((onExit (decide (exit = .failed))).run >>= after) final (m, w) := by
    intro exit after m w returned failed holds isLeft
    refine (trap exit m w holds isLeft).bind fun last m w holds ended => ?_
    cases last with
    | ok value => rw [returned]; exact ⟨holds, ended⟩
    | error last => rw [failed]; exact ⟨holds, ended⟩
  refine (runs m w holds here).bind fun result m w holds ended => ?_
  cases result with
  | ok value => exact rest .ok _ m w rfl (fun _ => rfl) holds ended
  | error exit => exact rest exit _ m w rfl (fun _ => rfl) holds ended

end Luhmen.Manager
