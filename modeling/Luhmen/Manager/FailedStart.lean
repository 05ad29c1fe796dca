/-
# Manager.FailedStart -- what a start leaves behind that is not answered with ok

A start knows the process it launched by its PID, its start time and its command line.
`Held` says that it does, `Gone` that there is no such process any more.  Whatever goes
wrong while it does, `cleanup_start` takes the first to the second (`runs_cleanupStart`), if
at each look at the command line the child has left the shell it was forked as (`watched`).

There are two stretches in which it does not know it (`Unknown`): between the fork and
`started_pid=$pid`, and behind the record, where the variables are cleared before the reply
is out.  The script must not fail there, and no signal may come (`Interruptible`).

`failed_start_leaves_nothing` is that over whole runs, with any number of signals trapped.
`shell_escapes` is a run without any in which the manager looks before the child has come so
far, gives up, and removes the pipe the child was to write to; the child then makes a file of
that name and goes on.
-/
import Luhmen.Manager.Conduct
import Luhmen.Manager.Rehearsal

set_option autoImplicit false

namespace Luhmen.Manager

open Luhmen.Theory

/-! ## The child of a start -/

namespace World

variable (base : Nat) (w : World)

/-- What was launched from `base` on was launched last, and the start time in the variables,
if any, is its own. -/
def Last : Prop :=
  ∀ pid process number, w.processes pid = some process → process.launch = some number →
    base ≤ number → w.vars.launch = some number ∧
      (w.vars.startTime = [] ∨ w.vars.startTime = decimal process.startTime)

/-- And it is the process that the variables speak of. -/
def Held : Prop :=
  ∀ pid process number, w.processes pid = some process → process.launch = some number →
    base ≤ number → w.vars.pid = some pid ∧ w.vars.launch = some number ∧
      (w.vars.startTime = [] ∨ w.vars.startTime = decimal process.startTime)

/-- Nothing that was launched from `base` on is left. -/
def Gone : Prop :=
  ∀ pid process number, w.processes pid = some process → process.launch = some number →
    number < base

/-- The process that was launched last is there, and the variables do not speak of it. -/
def Unknown : Prop :=
  ∃ pid process, w.processes pid = some process ∧ process.launch ≠ none ∧
    process.launch = w.vars.launch ∧ w.vars.pid ≠ some pid

/-- The child of the start at hand, if it is there, has left the manager's shell. -/
def ChildSeen : Prop :=
  ∀ pid process, w.vars.pid = some pid → w.processes pid = some process →
    process.launch ≠ none → process.launch = w.vars.launch → process.stage.isStarted = true

/-- The request was answered with `ok`. -/
def Granted : Prop :=
  ∃ data, okText data <+: w.out

/-- Only an answer lets a signal in where the child is not known. -/
def Interruptible : Prop :=
  w.Unknown → w.out ≠ []

/-- An answer but `ok` is true: nothing of the start is left. -/
def Honest : Prop :=
  w.Last base ∧ (w.out = [] ∨ w.Granted ∨ w.Gone base)

/-- It is over: nothing of it is left, or it was answered with `ok`. -/
def Over : Prop :=
  w.Gone base ∨ (w.Last base ∧ w.Granted)

/-- It is over, or cleaning up will end it. -/
def Mendable : Prop :=
  w.Over base ∨ (w.Held base ∧ w.out = [])

variable {base w} {t : World}

theorem Held.last (held : w.Held base) : w.Last base :=
  fun pid process number there launch least => (held pid process number there launch least).2

theorem Gone.held (gone : w.Gone base) : w.Held base :=
  fun pid process number there launch least =>
    absurd (gone pid process number there launch) (Nat.not_lt.2 least)

theorem Over.honest (isOver : w.Over base) : w.Honest base := by
  obtain gone | ⟨last, granted⟩ := isOver
  · exact ⟨gone.held.last, .inr (.inr gone)⟩
  · exact ⟨last, .inr (.inl granted)⟩

theorem Mendable.honest (mendable : w.Mendable base) : w.Honest base := by
  obtain isOver | ⟨held, silent⟩ := mendable
  · exact isOver.honest
  · exact ⟨held.last, .inl silent⟩

/-- What was launched last is known, if it is not unknown. -/
theorem Last.held (last : w.Last base) (known : ¬ w.Unknown) : w.Held base := by
  intro pid process number there launch least
  obtain ⟨isLast, startTime⟩ := last pid process number there launch least
  refine ⟨?_, isLast, startTime⟩
  by_contra other
  exact known ⟨pid, process, there, by simp [launch], launch.trans isLast.symm, other⟩

/-- Where a signal may come, cleaning up is right. -/
theorem Honest.mendable (honest : w.Honest base) (comes : w.Interruptible) : w.Mendable base := by
  obtain ⟨last, silent | granted | gone⟩ := honest
  · exact .inr ⟨last.held fun unknown => comes unknown silent, silent⟩
  · exact .inl (.inr ⟨last, granted⟩)
  · exact .inl (.inl gone)

theorem Last.inherits (last : w.Last base) (inherits : w.Inherits t) : t.Last base := by
  intro pid process number there launch least
  obtain ⟨older, before, sameLaunch, sameStart⟩ :=
    inherits.processes pid process there (by simp [launch])
  have holds := last pid older number before (sameLaunch.trans launch) least
  rw [inherits.vars, ← sameStart]
  exact holds

theorem Held.inherits (held : w.Held base) (inherits : w.Inherits t) : t.Held base := by
  intro pid process number there launch least
  obtain ⟨older, before, sameLaunch, sameStart⟩ :=
    inherits.processes pid process there (by simp [launch])
  have holds := held pid older number before (sameLaunch.trans launch) least
  rw [inherits.vars, ← sameStart]
  exact holds

theorem Gone.inherits (gone : w.Gone base) (inherits : w.Inherits t) : t.Gone base := by
  intro pid process number there launch
  obtain ⟨older, before, sameLaunch, _⟩ := inherits.processes pid process there (by simp [launch])
  exact gone pid older number before (sameLaunch.trans launch)

theorem Granted.inherits (granted : w.Granted) (inherits : w.Inherits t) : t.Granted := by
  unfold Granted
  rw [inherits.out]
  exact granted

theorem Over.inherits (isOver : w.Over base) (inherits : w.Inherits t) : t.Over base :=
  isOver.imp (·.inherits inherits) fun ⟨last, granted⟩ =>
    ⟨last.inherits inherits, granted.inherits inherits⟩

theorem Honest.inherits (honest : w.Honest base) (inherits : w.Inherits t) : t.Honest base :=
  ⟨honest.1.inherits inherits, honest.2.imp inherits.out.trans fun rest =>
    rest.imp (·.inherits inherits) (·.inherits inherits)⟩

/-- What is printed behind an `ok` leaves it where it is. -/
theorem Granted.print (granted : w.Granted) (text : Bytes) : { w with out := w.out ++ text }.Granted :=
  granted.imp fun _ first => first.trans (List.prefix_append _ _)

theorem Held.gone_of_none (held : w.Held base) (none : w.vars.pid = none) : w.Gone base := by
  intro pid process number there launch
  by_contra least
  have named := (held pid process number there launch (Nat.not_lt.1 least)).1
  cases none.symm.trans named

theorem Held.gone_of_dead (held : w.Held base) {pid : Pid} (named : w.vars.pid = some pid)
    (dead : w.processes pid = none) : w.Gone base := by
  intro other process number there launch
  by_contra least
  have named' := (held other process number there launch (Nat.not_lt.1 least)).1
  obtain rfl := Option.some.inj (named.symm.trans named')
  cases dead.symm.trans there

/-- Where the child would be seen, a look that does not find it says that it is gone. -/
theorem Held.gone_of_unmatched (held : w.Held base) (seen : w.ChildSeen) {pid : Pid}
    (named : w.vars.pid = some pid) (unmatched : ¬ w.matchesStarted pid w.vars.startTime) :
    w.Gone base := by
  intro other process number there launch
  by_contra least
  obtain ⟨named', launch', startTime⟩ := held other process number there launch (Nat.not_lt.1 least)
  obtain rfl := Option.some.inj (named.symm.trans named')
  exact unmatched ⟨process, there, startTime,
    seen pid process named there (by simp [launch]) (launch.trans launch'.symm)⟩

end World

/-- The child has left the manager's shell at every look at its command line, and the pipe
can be removed where it is not known. -/
def watched : Conditions where
  exec command w reply _ :=
    match command, reply with
    | .matchesStarted _ _, _ => w.ChildSeen
    | .removePipe _, removed => w.Unknown → removed = true
    | _, _ => True
  env _ _ := True

/-! ## Cleaning up -/

namespace FailedStart

open Habit

variable {base : Nat} {leaves : Exit → World → Prop}

/-- An assertion that survives what launched processes, the variables and the answer are
inherited by. -/
abbrev keeping (base : Nat) (leaves : Exit → World → Prop) (keeps : World → Prop)
    (may : Command → Prop)
    (inherits : ∀ w t, World.Inherits w t → keeps w → keeps t)
    (honest : ∀ w, keeps w → w.Honest base)
    (performs : ∀ command, may command → ∀ w reply t, keeps w → World.exec command w reply t → keeps t)
    (still : ∀ command : Command, command.Still → may command) : Habit where
  conditions := watched
  inv _ w := w.Honest base
  keeps
  leaves
  may
  lasting := ⟨fun _ _ inv => inv, fun _ _ _ inv moves => inv.inherits moves.1.inherits⟩
  steady _ w t _ moves here := inherits w t moves.1.inherits here
  performs command isAllowed _ w reply t _ here performed :=
    have after := performs command isAllowed w reply t here performed.1
    ⟨honest t after, after⟩
  still

/-- One that only commands without a child keep. -/
abbrev inheriting (base : Nat) (leaves : Exit → World → Prop) (keeps : World → Prop)
    (inherits : ∀ w t, World.Inherits w t → keeps w → keeps t)
    (honest : ∀ w, keeps w → w.Honest base) : Habit :=
  keeping base leaves keeps Command.Childless inherits honest
    (fun _ childless w _ t here performed =>
      inherits w t (World.exec_inherits childless performed) here)
    fun _ => Command.Still.childless

/-- The child is known, with the variables as they were read. -/
structure Known (base : Nat) (vars : Vars) (w : World) : Prop where
  held : w.Held base
  vars : w.vars = vars
  silent : w.out = []

abbrev known (base : Nat) (leaves : Exit → World → Prop) (vars : Vars) : Habit :=
  inheriting base leaves (Known base vars)
    (fun _ _ inherits here => ⟨here.held.inherits inherits, inherits.vars.trans here.vars,
      inherits.out.trans here.silent⟩)
    fun _ here => ⟨here.held.last, .inl here.silent⟩

/-- The start is over. -/
abbrev ended (base : Nat) (leaves : Exit → World → Prop) : Habit :=
  keeping base leaves (fun w => w.Over base)
    (fun command => command.Childless ∨ (∃ text, command = .print text) ∨
      command = .assign Vars.reset)
    (fun _ _ inherits here => here.inherits inherits) (fun _ here => here.honest)
    (fun _ isAllowed _ _ _ here performed => by
      obtain childless | ⟨text, rfl⟩ | rfl := isAllowed
      · exact here.inherits (World.exec_inherits childless performed)
      · obtain ⟨_, rfl, rfl⟩ := performed
        exact here.imp id fun ⟨last, granted⟩ => ⟨last, granted.print text⟩
      · obtain ⟨_, rfl, rfl⟩ := performed
        exact here.imp id fun ⟨last, granted⟩ => ⟨fun pid process number there launch least =>
          ⟨(last pid process number there launch least).1, .inl rfl⟩, granted⟩)
    fun _ still => .inl still.childless

variable {vars : Vars} {pid : Pid}

/-- A command before which the child is known, and what it tells of the child. -/
theorem runs_known {command : Command} {fact : command.Reply → World → Prop}
    (childless : command.Childless)
    (tells : ∀ w reply t, Known base vars w → Known base vars t →
      World.exec command w reply t → watched.exec command w reply t → fact reply t) :
    (known base leaves vars).Runs (Known base vars) (ask command)
      fun reply w => Known base vars w ∧ fact reply w := by
  refine System.Contract.perform (known base leaves vars).lasting (known base leaves vars).steady ?_
  intro m w reply t inv here performed
  have after := (known base leaves vars).performs command childless m w reply t inv here performed
  exact ⟨after.1, after.2, tells w reply t here after.2 performed.1 performed.2⟩

/-- A look at the command line. -/
theorem runs_matchesStarted (named : vars.pid = some pid) :
    (known base leaves vars).Runs (Known base vars) (ask (.matchesStarted pid vars.startTime))
      fun matched w => Known base vars w ∧ (matched = false → w.Gone base) := by
  refine runs_known (by trivial) fun w reply t here _ performed seen unmatched => ?_
  obtain ⟨held, is, _⟩ := here
  obtain ⟨_, ⟨rfl, isTrue⟩, rfl⟩ := performed
  subst is
  refine held.gone_of_unmatched seen named fun found => ?_
  cases unmatched.symm.trans (isTrue.2 found)

theorem runs_alive (named : vars.pid = some pid) :
    (known base leaves vars).Runs (Known base vars) (ask (.alive pid))
      fun alive w => Known base vars w ∧ (alive = false → w.Gone base) := by
  refine runs_known (by trivial) fun w reply t here _ performed _ dead => ?_
  obtain ⟨held, is, _⟩ := here
  obtain ⟨_, ⟨rfl, isSome⟩, rfl⟩ := performed
  subst is
  exact held.gone_of_dead named
    (Option.isNone_iff_eq_none.1 (Option.isSome_eq_false_iff.1 (isSome.symm.trans dead)))

theorem runs_kill (named : vars.pid = some pid) :
    (known base leaves vars).Runs (Known base vars) (ask (.signal .kill pid))
      fun _ w => Known base vars w ∧ w.Gone base := by
  refine runs_known (by trivial) fun w reply t _ here performed _ => ?_
  refine here.held.gone_of_dead (here.vars ▸ named) ?_
  obtain ⟨_, rfl | ⟨rfl, isTerm | dead⟩, rfl⟩ := performed
  · exact World.setProcess_self pid none
  · cases isTerm
  · exact dead

/-- The process is looked for, asked to end and then made to. -/
theorem runs_cleanupProcess (named : vars.pid = some pid) :
    (known base leaves vars).Runs (Known base vars) (cleanupProcess pid vars.startTime)
      fun _ w => w.Gone base := by
  refine System.Contract.bind (runs_matchesStarted named) fun there => ?_
  cases there with
  | false => exact System.Contract.pure fun w here => here.2 rfl
  | true =>
    refine System.Contract.from_pre (fun _ => And.left) ?_
    refine System.Contract.bind (keeps_still (by trivial)) fun _ => ?_
    refine System.Contract.bind (keeps_attempts ?_) fun _ => ?_
    · refine keeps_if (by trivial) fun alive => keeps_ite ?_ keeps_pure
      exact keeps_if (by trivial) fun _ => keeps_pure
    refine System.Contract.bind (runs_alive named) fun alive => ?_
    cases alive with
    | false => exact System.Contract.pure fun w here => here.2 rfl
    | true =>
      refine System.Contract.from_pre (fun _ => And.left) ?_
      refine System.Contract.bind (runs_matchesStarted named) fun still => ?_
      cases still with
      | false => exact System.Contract.pure fun w here => here.2 rfl
      | true =>
        refine System.Contract.from_pre (fun _ => And.left) ?_
        exact (runs_kill named).weaken (fun _ => id) (fun _ _ => And.right) fun _ _ => id

theorem mendable_inherits {w t : World} (inherits : w.Inherits t) (mendable : w.Mendable base) :
    t.Mendable base :=
  mendable.imp (·.inherits inherits) fun ⟨held, silent⟩ =>
    ⟨held.inherits inherits, inherits.out.trans silent⟩

theorem runs_vars : (ended base leaves).Runs (fun w => w.Mendable base) (ask .vars)
    fun vars w => w.Mendable base ∧ w.vars = vars := by
  refine System.Contract.perform (ended base leaves).lasting (fun _ w t _ moves here =>
    mendable_inherits moves.1.inherits here) ?_
  rintro m w reply t inv here ⟨⟨_, ⟨rfl, rfl⟩, rfl⟩, _⟩
  exact ⟨inv, here, rfl⟩

/-- The child that is known is ended. -/
theorem runs_ended : (ended base leaves).Runs (fun w => w.Mendable base ∧ w.vars = vars)
    (forSome vars.pid fun pid => cleanupProcess pid vars.startTime) fun _ w => w.Over base := by
  have kept : (ended base leaves).Keeps (forSome vars.pid fun pid => cleanupProcess pid vars.startTime) :=
    keeps_forSome fun pid => keeps_cleanupProcess
  have known : (ended base leaves).Runs (Known base vars)
      (forSome vars.pid fun pid => cleanupProcess pid vars.startTime) fun _ w => w.Over base := by
    cases named : vars.pid with
    | none => exact System.Contract.pure fun w here => .inl (here.held.gone_of_none (here.vars ▸ named))
    | some pid =>
      exact (runs_cleanupProcess named).weaken (fun _ => id) (fun _ _ => .inl) fun _ _ => id
  rintro m w inv ⟨isOver | ⟨held, silent⟩, is⟩
  · exact kept m w inv isOver
  · exact known m w inv ⟨held, is, silent⟩

/-- **Cleaning up.**  Whatever the start has come to, it is over behind this. -/
theorem runs_cleanupStart (fails : (ended base leaves).Fails) :
    (ended base leaves).Runs (fun w => w.Mendable base) cleanupStart fun _ w => w.Over base := by
  refine System.Contract.bind runs_vars fun vars => System.Contract.bind runs_ended fun _ => ?_
  refine keeps_bind keeps_terminateCgroup fun _ => ?_
  refine keeps_bind (keeps_forSome fun pid => keeps_still (by trivial)) fun _ => ?_
  exact keeps_bind (keeps_cleanupFiles fails) fun _ => keeps_ask (.inr (.inr rfl))

/-! ## The start -/

/-- What holds at each way out of the script, before the trap. -/
def left (base : Nat) (_ : Exit) (w : World) : Prop :=
  w.Mendable base

/-- A refusal cleans up first. -/
theorem runs_errorReply {α : Type} {message : String} :
    (ended base (left base)).Runs (fun w => w.Mendable base) (errorReply message : Shell α)
      fun _ _ => False := by
  refine System.Contract.bind (runs_cleanupStart fun w => .inl) fun _ => ?_
  refine System.Contract.bind (keeps_ask (.inr (.inl ⟨_, rfl⟩))) fun _ => ?_
  exact System.Contract.throw fun w => .inl

/-- Before the launch. -/
structure Prepared (base : Nat) (w : World) : Prop where
  gone : w.Gone base
  startTime : w.vars.startTime = []
  silent : w.out = []

theorem Prepared.mendable {w : World} (prepared : Prepared base w) : w.Mendable base :=
  .inl (.inl prepared.gone)

theorem Prepared.inherits {w t : World} (prepared : Prepared base w) (inherits : w.Inherits t) :
    Prepared base t :=
  ⟨prepared.gone.inherits inherits, inherits.vars ▸ prepared.startTime,
    inherits.out.trans prepared.silent⟩

abbrev before (base : Nat) : Conduct where
  toHabit := keeping base (left base) (Prepared base)
    (fun command => command.Childless ∨
      ∃ change, command = .assign change ∧ ∀ vars, (change vars).startTime = vars.startTime)
    (fun _ _ inherits here => here.inherits inherits)
    (fun _ here => here.mendable.honest)
    (fun _ isAllowed _ _ _ here performed => by
      obtain childless | ⟨change, rfl, same⟩ := isAllowed
      · exact here.inherits (World.exec_inherits childless performed)
      · obtain ⟨_, rfl, rfl⟩ := performed
        exact ⟨here.gone, (same _).trans here.startTime, here.silent⟩)
    fun _ still => .inl still.childless
  failed _ here := here.mendable
  refuses _ _ _ := runs_errorReply.from_pre fun _ => Prepared.mendable

/-- A launch that the start waits for. -/
structure Waiting (base : Nat) (w : World) : Prop where
  held : w.Held base
  silent : w.out = []

theorem Waiting.mendable {w : World} (waiting : Waiting base w) : w.Mendable base :=
  .inr ⟨waiting.held, waiting.silent⟩

theorem Waiting.inherits {w t : World} (waiting : Waiting base w) (inherits : w.Inherits t) :
    Waiting base t :=
  ⟨waiting.held.inherits inherits, inherits.out.trans waiting.silent⟩

/-- Behind it. -/
abbrev behind (base : Nat) : Conduct where
  toHabit := inheriting base (left base) (Waiting base)
    (fun _ _ inherits here => here.inherits inherits) fun _ here => here.mendable.honest
  failed _ here := here.mendable
  refuses _ _ _ := runs_errorReply.from_pre fun _ => Waiting.mendable

/-- Behind the record, where the variables are cleared. -/
structure Forgotten (base : Nat) (w : World) : Prop where
  last : w.Last base
  nameless : w.vars.pid = none
  silent : w.out = []

theorem Forgotten.inherits {w t : World} (forgotten : Forgotten base w) (inherits : w.Inherits t) :
    Forgotten base t :=
  ⟨forgotten.last.inherits inherits, inherits.vars ▸ forgotten.nameless,
    inherits.out.trans forgotten.silent⟩

theorem Forgotten.honest {w : World} (forgotten : Forgotten base w) : w.Honest base :=
  ⟨forgotten.last, .inl forgotten.silent⟩

/-- Nothing that is left takes the record back. -/
abbrev published (base : Nat) : Habit :=
  inheriting base (left base) (Forgotten base)
    (fun _ _ inherits here => here.inherits inherits) fun _ => Forgotten.honest

open Conduct

theorem assigns_before : (before base).Assigns :=
  fun change same => .inr ⟨change, rfl, fun vars => (same vars).1⟩

/-- An answer before the launch. -/
theorem runs_granted {α : Type} {data : Bytes} :
    (ended base (left base)).Runs (Prepared base) (okReply data : Shell α) fun _ _ => False :=
  have answers : (ended base (left base)).Runs (fun w => w.Over base) (okReply data : Shell α)
      fun _ _ => False := runs_okReply (.inr (.inl ⟨_, rfl⟩)) fun _ => .inl
  answers.from_pre fun _ here => .inl here.gone

/-- The launch, before the shell has noted its PID. -/
structure Forked (base : Nat) (pid : Pid) (w : World) : Prop where
  last : ∀ other process number, w.processes other = some process →
    process.launch = some number → base ≤ number → other = pid ∧ w.vars.launch = some number
  startTime : w.vars.startTime = []
  silent : w.out = []

theorem Forked.inherits {w t : World} (forked : Forked base pid w) (inherits : w.Inherits t) :
    Forked base pid t := by
  refine ⟨fun other process number there launch least => ?_, inherits.vars ▸ forked.startTime,
    inherits.out.trans forked.silent⟩
  obtain ⟨older, before, sameLaunch, _⟩ := inherits.processes other process there (by simp [launch])
  rw [inherits.vars]
  exact forked.last other older number before (sameLaunch.trans launch) least

theorem Forked.honest {w : World} (forked : Forked base pid w) : w.Honest base :=
  ⟨fun other process number there launch least =>
    ⟨(forked.last other process number there launch least).2, .inl forked.startTime⟩,
    .inl forked.silent⟩

/-- And behind that. -/
structure Launched (base : Nat) (pid : Pid) (w : World) : Prop extends Waiting base w where
  named : w.vars.pid = some pid

theorem Launched.inherits {w t : World} (launched : Launched base pid w)
    (inherits : w.Inherits t) : Launched base pid t :=
  ⟨launched.toWaiting.inherits inherits, inherits.vars ▸ launched.named⟩

theorem runs_spawnJailer {id : Id} {uid gid vcpus memoryMib : Bytes} :
    (before base).Runs (Prepared base) (ask (.spawnJailer id uid gid vcpus memoryMib))
      fun reply w => (reply = none → Prepared base w) ∧ ∀ pid, reply = some pid → Forked base pid w := by
  refine System.Contract.perform (before base).lasting (before base).steady ?_
  rintro m w reply t inv prepared ⟨⟨after, performed, rfl⟩, _⟩
  obtain ⟨pid, startTime, rfl, _, _, rfl⟩ | ⟨rfl, rfl⟩ := performed
  · suffices forked : Forked base pid _ from
      ⟨forked.honest, fun is => (nomatch is), fun pid' is => Option.some.inj is ▸ forked⟩
    refine ⟨fun other process number there launch least => ?_, prepared.startTime, prepared.silent⟩
    by_cases same : other = pid
    · subst same
      obtain rfl := Option.some.inj ((Function.update_self other _ _).symm.trans there)
      exact ⟨rfl, launch⟩
    · have before : w.processes other = some process :=
        (Function.update_of_ne same _ _).symm.trans there
      exact absurd (prepared.gone other process number before launch) (Nat.not_lt.2 least)
  · have still : Prepared base { after with matched := [] } :=
      ⟨prepared.gone, prepared.startTime, prepared.silent⟩
    exact ⟨still.mendable.honest, fun _ => still, fun pid is => nomatch is⟩

/-- `pid=$!` and `started_pid=$pid`. -/
theorem runs_noted :
    (behind base).Runs (Forked base pid) (ask (.assign fun vars => { vars with pid := some pid }))
      fun _ => Launched base pid := by
  refine System.Contract.perform (behind base).lasting (fun _ w t _ moves here =>
    here.inherits moves.1.inherits) ?_
  rintro m w reply t inv here ⟨⟨_, rfl, rfl⟩, _⟩
  suffices waiting : Waiting base _ from ⟨waiting.mendable.honest, waiting, rfl⟩
  refine ⟨fun other process number there launch least => ?_, here.silent⟩
  obtain ⟨rfl, isLast⟩ := here.last other process number there launch least
  exact ⟨rfl, isLast, .inl here.startTime⟩

/-- The start time that is read is that of the child, if the child is there. -/
theorem runs_startTime : (behind base).Runs (Launched base pid) (ask (.startTime pid))
    fun startTime w => Launched base pid w ∧ ∀ process number, w.processes pid = some process →
      process.launch = some number → base ≤ number → startTime = decimal process.startTime := by
  refine System.Contract.perform (behind base).lasting (fun _ w t _ moves here =>
    here.inherits moves.1.inherits) ?_
  rintro m w reply t inv here ⟨⟨_, ⟨rfl, rfl⟩, rfl⟩, _⟩
  refine ⟨inv, ⟨⟨here.held, here.silent⟩, here.named⟩, fun process number there _ _ => ?_⟩
  rw [show World.processes _ pid = some process from there]
  rfl

theorem runs_launch {id : Id} {uid gid vcpus memoryMib : Bytes} :
    (behind base).Runs (Prepared base) (launch uid gid vcpus memoryMib id)
      fun _ => Waiting base := by
  refine System.Contract.bind runs_spawnJailer fun reply => ?_
  cases reply with
  | none => exact System.Contract.throw fun w here => (here.1 rfl).mendable
  | some pid =>
    refine System.Contract.from_pre (fun w here => here.2 pid rfl) ?_
    refine System.Contract.bind runs_noted fun _ => ?_
    refine System.Contract.bind runs_startTime fun startTime => ?_
    have noted : (behind base).Runs
        (fun w => Launched base pid w ∧ ∀ process number, w.processes pid = some process →
          process.launch = some number → base ≤ number → startTime = decimal process.startTime)
        (ask (.assign fun vars => { vars with startTime })) fun _ => Waiting base := by
      refine System.Contract.perform (behind base).lasting ?_ ?_
      · rintro _ w t _ moves ⟨launched, known⟩
        have inherits := moves.1.inherits
        refine ⟨launched.inherits inherits, fun process number there launch least => ?_⟩
        obtain ⟨older, was, sameLaunch, sameStart⟩ :=
          inherits.processes pid process there (by simp [launch])
        rw [← sameStart]
        exact known older number was (sameLaunch.trans launch) least
      · rintro m w reply t inv ⟨launched, known⟩ ⟨⟨_, rfl, rfl⟩, _⟩
        suffices waiting : Waiting base _ from ⟨waiting.mendable.honest, waiting⟩
        refine ⟨fun other process number there launch least => ?_, launched.silent⟩
        obtain ⟨named, sameLaunch, _⟩ := launched.held other process number there launch least
        obtain rfl := Option.some.inj (launched.named.symm.trans named)
        exact ⟨named, sameLaunch, .inr (known process number there launch least)⟩
    refine System.Contract.bind noted fun _ => ?_
    exact keeps_bind (keeps_check (by decide)) fun _ => keeps_pure

/-! ## Behind the record -/

/-- Variables are cleared that do not tell the child from others. -/
theorem runs_forget {P : World → Prop} {change : Vars → Vars}
    (inherits : ∀ w t, World.Inherits w t → P w → P t) (last : ∀ w, P w → w.Last base)
    (silent : ∀ w, P w → w.out = [])
    (forgets : ∀ w, P w → (change w.vars).pid = none ∧ (change w.vars).launch = w.vars.launch ∧
      ((change w.vars).startTime = [] ∨ (change w.vars).startTime = w.vars.startTime)) :
    (published base).Runs P (ask (.assign change)) fun _ => Forgotten base := by
  refine System.Contract.perform (published base).lasting (fun _ w t _ moves here =>
    inherits w t moves.1.inherits here) ?_
  rintro m w reply t inv here ⟨⟨_, rfl, rfl⟩, _⟩
  obtain ⟨nameless, launch, startTime⟩ := forgets w here
  suffices forgotten : Forgotten base _ from ⟨forgotten.honest, forgotten⟩
  refine ⟨fun pid process number there isLaunch least => ?_, nameless, silent w here⟩
  obtain ⟨isLast, known⟩ := last w here pid process number there isLaunch least
  refine ⟨launch.trans isLast, startTime.elim .inl fun same => ?_⟩
  exact known.imp same.trans same.trans

/-- Where the pipe stays, there is no child. -/
theorem runs_removePipe {id : Id} :
    (published base).Runs (Forgotten base) (demand (ask (.removePipe id))) fun _ => Forgotten base := by
  have removed : (published base).Runs (Forgotten base) (ask (.removePipe id))
      fun removed w => Forgotten base w ∧ (removed = false → w.Gone base) := by
    refine System.Contract.perform (published base).lasting (published base).steady ?_
    rintro m w reply t inv here ⟨performed, removes⟩
    have inherits := World.exec_inherits (by trivial) performed
    refine ⟨inv.inherits inherits, here.inherits inherits, fun stays => ?_⟩
    have known : ¬ w.Unknown := fun unknown => nomatch stays.symm.trans (removes unknown)
    exact ((here.last.held known).gone_of_none here.nameless).inherits inherits
  refine System.Contract.bind removed fun reply => ?_
  cases reply with
  | true => exact System.Contract.pure fun _ => And.left
  | false => exact System.Contract.throw fun w here => .inl (.inl (here.2 rfl))

theorem runs_publish {id : Id} {startTime cgroup vcpus memoryMib uid gid : Bytes} :
    (published base).Runs (Waiting base)
      (publish id pid startTime cgroup vcpus memoryMib uid gid) fun _ => Forgotten base := by
  have recorded : (behind base).Keeps (ask (.stateValue .kernel id)) := keeps_still (by trivial)
  refine System.Contract.bind recorded fun kernel => ?_
  have recorded : (behind base).Keeps (ask (.stateValue .rootfs id)) := keeps_still (by trivial)
  refine System.Contract.bind recorded fun rootfs => ?_
  refine System.Contract.bind (@keeps_writeState (behind base).toHabit (behind base).failed _ _ trivial)
    fun _ => ?_
  have forgotten : (published base).Runs (Waiting base) (ask (.assign fun vars => { vars with
      pid := none
      startTime := []
      jail := none
      cgroup := []
      logger := none })) fun _ => Forgotten base :=
    runs_forget (fun _ _ inherits here => here.inherits inherits) (fun _ here => here.held.last)
      (fun _ => Waiting.silent) fun _ _ => ⟨rfl, rfl, .inl rfl⟩
  refine System.Contract.bind forgotten fun _ => System.Contract.bind runs_removePipe fun _ => ?_
  exact runs_forget (fun _ _ inherits here => here.inherits inherits) (fun _ => Forgotten.last)
    (fun _ => Forgotten.silent) fun _ here => ⟨here.nameless, rfl, .inr rfl⟩

/-- The answer behind the record. -/
theorem runs_answered {data : Bytes} :
    (published base).Runs (Forgotten base) (okReply data : Shell Unit) fun _ _ => False := by
  have printed : (published base).Runs (Forgotten base) (ask (.print (okText data)))
      fun _ w => w.Over base := by
    refine System.Contract.perform (published base).lasting (published base).steady ?_
    rintro m w reply t inv here ⟨⟨_, rfl, rfl⟩, _⟩
    suffices isOver : World.Over base _ from ⟨isOver.honest, isOver⟩
    refine .inr ⟨here.last, data, ?_⟩
    rw [here.silent]
    exact List.prefix_refl _
  exact System.Contract.bind printed fun _ => System.Contract.throw fun w => .inl

theorem runs_boot {parent uid gid vcpus memoryMib : Bytes} {id : Id} :
    (published base).Runs (Prepared base) (boot parent uid gid vcpus memoryMib id)
      fun _ => Forgotten base := by
  refine System.Contract.bind runs_launch fun launched => ?_
  obtain ⟨pid, startTime⟩ := launched
  have waited : (behind base).Keeps (awaitCgroup pid startTime (cgroupPath parent id) 100 []) :=
    keeps_awaitCgroup
  refine System.Contract.bind waited fun cgroup => ?_
  have checked : (behind base).Keeps (require (pure (decide (cgroup = cgroupPath parent id)))
      "jailer did not create the expected per-VM cgroup") := keeps_check (by decide)
  refine System.Contract.bind checked fun _ => ?_
  have limited : (behind base).Keeps (require (ask (.probe .limits))
      "per-VM cgroup limits are unavailable") :=
    keeps_require (keeps_still (by trivial)) (by decide)
  refine System.Contract.bind limited fun _ => ?_
  have opened : (behind base).Keeps (awaitSocket pid startTime) := keeps_awaitSocket
  refine System.Contract.bind opened fun _ => ?_
  have configured : (behind base).Keeps (configure vcpus memoryMib) := keeps_configure
  exact System.Contract.bind configured fun _ => runs_publish

theorem runs_start {id : Id} :
    (published base).Runs (Prepared base) (start id) fun _ _ => False := by
  have asks : ∀ {command : Command}, command.Still → (before base).Keeps (ask command) :=
    fun still => keeps_still still
  have checks : ∀ {test : Shell Bool} {message : String}, (before base).Keeps test →
      Sayable (ascii message) → (before base).Keeps (require test message) :=
    fun keeps sayable => keeps_require keeps sayable
  refine System.Contract.bind (checks keeps_pure (by decide)) fun _ => ?_
  refine System.Contract.bind (checks (asks (by trivial)) (by decide)) fun _ => ?_
  refine System.Contract.bind (checks (asks (by trivial)) (by decide)) fun _ => ?_
  refine System.Contract.bind (asks (by trivial)) fun status => ?_
  refine System.Contract.bind (asks (by trivial)) fun pid => ?_
  refine System.Contract.bind (asks (by trivial)) fun startTime => ?_
  have matched : (before base).Keeps (runs status pid startTime) := keeps_runs
  refine System.Contract.bind matched fun running => ?_
  have already : (before base).Keeps (provided running (do okReply (← jsonVm id))) := by
    refine keeps_provided (keeps_bind keeps_jsonVm fun data => ?_)
    exact runs_granted.weaken (fun _ here => here) (fun _ _ never => never.elim) fun _ _ here => here
  refine System.Contract.bind already fun _ => ?_
  have ready : (before base).Keeps preflight := keeps_preflight
  refine System.Contract.bind ready fun parent => ?_
  refine System.Contract.bind (asks (by trivial)) fun kernel => ?_
  refine System.Contract.bind (asks (by trivial)) fun rootfs => ?_
  refine System.Contract.bind (asks (by trivial)) fun vcpus => ?_
  refine System.Contract.bind (asks (by trivial)) fun memoryMib => ?_
  refine System.Contract.bind (checks keeps_pure (by decide)) fun _ => ?_
  refine System.Contract.bind (checks keeps_pure (by decide)) fun _ => ?_
  have identified : (before base).Keeps (startIdentity id status kernel rootfs vcpus memoryMib) :=
    keeps_startIdentity (.inl trivial)
  refine System.Contract.bind identified fun identity => ?_
  obtain ⟨uid, gid⟩ := identity
  refine System.Contract.bind (checks (asks (by trivial)) (by decide)) fun _ => ?_
  refine System.Contract.bind (checks (asks (by trivial)) (by decide)) fun _ => ?_
  have fits : (before base).Keeps (checkStartResources vcpus memoryMib) := keeps_checkStartResources
  refine System.Contract.bind fits fun _ => ?_
  have disk : (before base).Keeps (startDisk rootfs id) :=
    keeps_startDisk (fun _ => .inr ⟨_, rfl, fun _ => rfl⟩) (.inl trivial)
  refine System.Contract.bind disk fun _ => ?_
  have jail : (before base).Keeps (startJail kernel uid gid id) := keeps_startJail assigns_before
  refine System.Contract.bind jail fun _ => ?_
  have log : (before base).Keeps (startLog parent id) := keeps_startLog assigns_before
  refine System.Contract.bind log fun _ => System.Contract.bind runs_boot fun _ => ?_
  have shown : (published base).Keeps (jsonVm id) := keeps_jsonVm
  exact System.Contract.bind shown fun data => runs_answered

/-! ## The request -/

theorem runs_shell {self : Pid} :
    (before base).Runs (fun w => w.Gone base) (ask (.shell self)) fun _ => Prepared base := by
  refine System.Contract.perform (before base).lasting (fun _ w t _ moves here =>
    here.inherits moves.1.inherits) ?_
  rintro m w reply t inv here ⟨⟨_, rfl, rfl⟩, _⟩
  suffices prepared : Prepared base _ from ⟨prepared.mendable.honest, prepared⟩
  exact ⟨here, rfl, rfl⟩

theorem runs_session {request : Bytes} {fields : Fields}
    (parsed : parseRequest request = .ok (.start, fields)) :
    (published base).Runs (Prepared base) (session request) fun _ _ => False := by
  rw [session, parsed]
  have named : (before base).Keeps (ask (.assign fun vars => { vars with id := fields.id })) :=
    keeps_ask (.inr ⟨_, rfl, fun _ => rfl⟩)
  refine System.Contract.bind named fun _ => ?_
  have opened : (before base).Keeps (demand (ask (.probe .lockFile))) :=
    keeps_demand (before base).failed (keeps_still (by trivial))
  refine System.Contract.bind opened fun _ => ?_
  have locked : (before base).Keeps (require (ask .lock)
      "microVM manager is busy; retry the request") :=
    keeps_require (keeps_still (by trivial)) (by decide)
  exact System.Contract.bind locked fun _ => runs_start

/-! ## The traps -/

/-- Behind `on_exit` the start is over. -/
def final (base : Nat) (_ : Exit) (w : World) : Prop :=
  w.Over base

theorem runs_onExit {failed : Bool} :
    (ended base (final base)).Runs (fun w => w.Mendable base) (onExit failed) fun _ w => w.Over base := by
  have cleans : (ended base (final base)).Runs (fun w => w.Mendable base) cleanupStart
      fun _ w => w.Over base := runs_cleanupStart fun _ => id
  exact System.Contract.bind cleans fun _ => keeps_provided (keeps_ask (.inr (.inl ⟨_, rfl⟩)))

/-- What every state of a start has to be, with a signal or without. -/
abbrev honest (base : Nat) : World → World → Prop :=
  (published base).inv

/-- **A start**, up to its end. -/
theorem delivers_start {self : Pid} {request : Bytes} {fields : Fields}
    (parsed : parseRequest request = .ok (.start, fields)) {m w : World} (here : w.Gone base) :
    (parentVm watched).Delivers (honest base) (manager (.request self request)) (final base)
      (m, w) := by
  have runs : (published base).Runs (fun w => w.Gone base) (do ask (.shell self); session request)
      fun _ => left base .ok :=
    System.Contract.bind runs_shell fun _ =>
      (runs_session parsed).weaken (fun _ => id) (fun _ _ never => never.elim) fun _ _ => id
  exact delivers_finish runs (fun exit => runs_onExit) (World.Over.honest (.inl here)) here

/-- **A trapped signal.** -/
theorem delivers_signalled {m w : World} (here : w.Mendable base) :
    (parentVm watched).Delivers (honest base) (manager .signalled) (final base) (m, w) := by
  have cleans : (ended base (left base)).Runs (fun w => w.Mendable base) cleanupStart
      fun _ w => w.Over base := runs_cleanupStart fun _ => .inl
  have runs : (ended base (left base)).Runs (fun w => w.Mendable base)
      (do cleanupStart; throw .failed : Shell Unit) fun _ => left base .ok :=
    System.Contract.bind cleans fun _ => System.Contract.throw fun _ => .inl
  exact delivers_finish runs (fun exit => runs_onExit) here.honest here

end FailedStart

/-! ## Signals -/

/-- What a request comes to with the signals that are trapped on its way.  Each stops the
script where it is, if it may come there, and the trap finds the variables as they are. -/
inductive Served (conditions : Conditions) (comes : World → Prop) (call : Call) (before : World) :
    Program Commands Exit × World → Prop where
  | called {now : Program Commands Exit × World}
      (leads : (parentVm conditions).Leads (manager call, before) now) :
      Served conditions comes call before now
  | trapped {program : Program Commands Exit} {stopped : World}
      {now : Program Commands Exit × World}
      (served : Served conditions comes call before (program, stopped)) (signal : comes stopped)
      (leads : (parentVm conditions).Leads (manager .signalled, stopped) now) :
      Served conditions comes call before now

/-- The machine comes there too: the trap is the next of its calls. -/
theorem Served.reaches {conditions : Conditions} {comes : World → Prop} {call : Call}
    {before : World} {now : Program Commands Exit × World}
    (served : Served conditions comes call before now) :
    ∃ last, (parentVm conditions).Reaches manager ⟨before, none⟩ ⟨now.2, some (last, now.1)⟩ := by
  induction served with
  | called leads => exact ⟨call, .head (.start call) leads.reaches⟩
  | @trapped program stopped now _ _ leads ih =>
    obtain ⟨last, reaches⟩ := ih
    have signalled : (parentVm conditions).Reaches manager ⟨stopped, none⟩
        ⟨now.2, some (.signalled, now.1)⟩ := .head (.start Call.signalled) leads.reaches
    exact ⟨.signalled, (reaches.tail .kill).trans signalled⟩

/-- **Every state of a start is honest**, and its end is the end of what it launched. -/
theorem Served.honest {self : Pid} {request : Bytes} {fields : Fields}
    (parsed : parseRequest request = .ok (.start, fields)) {before : World} {base : Nat}
    (nothing : before.Gone base) {now : Program Commands Exit × World}
    (served : Served watched World.Interruptible (.request self request) before now) :
    World.Honest base now.2 ∧ ∀ exit, now.1 = .done exit → World.Over base now.2 := by
  have lasting := (FailedStart.published base).lasting
  have steady : ∀ exit, (parentVm watched).Steady (FailedStart.honest base)
      (FailedStart.final base exit) := fun exit _ w t _ moves isOver =>
    World.Over.inherits isOver moves.1.inherits
  have ends : ∀ {call : Call} {w : World} {now : Program Commands Exit × World},
      w.Honest base → (parentVm watched).Delivers (FailedStart.honest base) (manager call)
        (FailedStart.final base) (w, w) → (parentVm watched).Leads (manager call, w) now →
      World.Honest base now.2 ∧ ∀ exit, now.1 = .done exit → World.Over base now.2 := by
    rintro call w ⟨rest, t⟩ holds delivers leads
    refine ⟨delivers.during lasting holds leads, fun exit done => ?_⟩
    obtain rfl : rest = .done exit := done
    exact (delivers.leads lasting steady leads).2
  induction served with
  | called leads =>
    exact ends (World.Over.honest (.inl nothing)) (FailedStart.delivers_start parsed nothing) leads
  | trapped _ signal leads ih =>
    have here := ih.1.mendable signal
    exact ends ih.1 (FailedStart.delivers_signalled here) leads

/-! ## After it -/

/-- What was launched between two moments is gone. -/
structure World.Past (first last : Nat) (w : World) : Prop where
  launches : last ≤ w.launches
  gone : ∀ pid process number, w.processes pid = some process → process.launch = some number →
    first ≤ number → last ≤ number

namespace World

variable {first last : Nat} {w t : World}

theorem Past.inherits (past : w.Past first last) (inherits : w.Inherits t) : t.Past first last := by
  refine ⟨inherits.launches ▸ past.launches, fun pid process number there launch least => ?_⟩
  obtain ⟨older, was, same, _⟩ := inherits.processes pid process there (by simp [launch])
  exact past.gone pid older number was (same.trans launch) least

theorem Past.exec {command : Command} {reply : command.Reply} (past : w.Past first last)
    (performed : World.exec command w reply t) : t.Past first last := by
  cases command with
  | shell self | assign change | print text =>
    obtain ⟨_, rfl, rfl⟩ := performed
    exact ⟨past.launches, past.gone⟩
  | spawnJailer id uid gid vcpus memoryMib =>
    obtain ⟨_, ⟨pid, startTime, _, _, _, rfl⟩ | ⟨_, rfl⟩, rfl⟩ := performed
    · refine ⟨past.launches.trans (Nat.le_succ _), fun other process number there launch least => ?_⟩
      by_cases same : other = pid
      · subst same
        obtain rfl := Option.some.inj ((Function.update_self other _ _).symm.trans there)
        obtain rfl := Option.some.inj launch
        exact past.launches
      · exact past.gone other process number ((Function.update_of_ne same _ _).symm.trans there)
          launch least
    · exact ⟨past.launches, past.gone⟩
  | _ => exact past.inherits (exec_inherits (by trivial) performed)

end World

/-- What is gone stays gone. -/
theorem reaches_past {conditions : Conditions} {ι : Type} {main : ι → Program Commands Exit}
    {before after : Machine (parentVm conditions) ι Exit} {first last : Nat}
    (past : World.Past first last before.state)
    (reaches : (parentVm conditions).Reaches main before after) :
    World.Past first last after.state := by
  induction reaches with
  | refl => exact past
  | tail _ move ih =>
    cases move with
    | env moves => exact World.Past.inherits ih moves.1.inherits
    | idle moves =>
      cases moves
      have launches := World.Past.launches ih
      exact ⟨launches, fun _ _ _ there => nomatch there⟩
    | call performed => exact World.Past.exec ih performed.1
    | start | finish | kill => exact ih

/-- **A failed start leaves nothing.**  Take a run from an empty store in which the child has
left the manager's shell at each look at its command line, and the pipe can be removed where
the child is not known.  A start is served in it, with any number of signals, none of them
where the child is not known and nothing was answered.  Once it has answered something other
than `ok`, or is over without an answer of `ok`, no process that it launched is there, and none
comes back later. -/
theorem failed_start_leaves_nothing {start : Machine (parentVm watched) Call Exit}
    (alone : start.running = none) (empty : World.Empty start.state) {before : World}
    (reaches : (parentVm watched).Reaches manager start ⟨before, none⟩)
    {self : Pid} {request : Bytes} {fields : Fields}
    (parsed : parseRequest request = .ok (.start, fields))
    {rest : Program Commands Exit} {w : World}
    (served : Served watched World.Interruptible (.request self request) before (rest, w))
    (answered : w.out ≠ [] ∨ ∃ exit, rest = .done exit) (failed : ¬ w.Granted) {call : Call}
    {later : Machine (parentVm watched) Call Exit}
    (further : (parentVm watched).Reaches manager ⟨w, some (call, rest)⟩ later) :
    ∀ pid process number, World.processes later.state pid = some process →
      process.launch = some number → before.launches ≤ number → w.launches ≤ number := by
  have good : World.Good anything before :=
    @runs_good watched anything Call id (anything_meets _) allowed_anything _ _ alone
      (empty.good anything) reaches
  have nothing : before.Gone before.launches := fun pid process number there launch =>
    good.sound.launched pid process number there launch
  obtain ⟨honest, ends⟩ := served.honest parsed nothing
  have gone : w.Gone before.launches := by
    obtain said | ⟨exit, done⟩ := answered
    · exact (honest.2.resolve_left said).resolve_left failed
    · exact (ends exit done).resolve_right fun here => failed here.2
  have past : World.Past before.launches w.launches w :=
    ⟨le_rfl, fun pid process number there launch least =>
      absurd (gone pid process number there launch) (Nat.not_lt.2 least)⟩
  exact (reaches_past past further).gone

/-- The commands of a run in which each look finds the child out of the manager's shell. -/
def lookingLate (answers : Answers) : Rehearsal watched where
  answers
  serves
    | .matchesStarted _ _, w => (w.vars.pid.bind w.processes).all fun process => process.stage.isStarted
    | _, _ => true
  launches _ _ _ _ := true
  served command w _ checked := by
    cases command with
    | matchesStarted pid startTime =>
      intro pid process named there _ _
      have found : w.vars.pid.bind w.processes = some process :=
        Option.bind_eq_some_iff.2 ⟨pid, named, there⟩
      have seen : (w.vars.pid.bind w.processes).all (fun process => process.stage.isStarted) = true :=
        checked
      rw [found] at seen
      exact seen
    | removePipe id => exact fun _ => rfl
    | _ => trivial
  launched command _ _ _ _ _ _ _ launch := by
    cases command with
    | spawnLogger | spawnJailer => trivial
    | _ => cases launch
  happened _ _ _ _ := trivial

/-- The variables speak of what was launched last, wherever it is. -/
def World.known (w : World) (pids : List Pid) : Bool :=
  pids.all fun pid => (w.processes pid).all fun process =>
    decide (process.launch = w.vars.launch → w.vars.pid = some pid)

theorem World.known_interruptible {w : World} {pids : List Pid}
    (living : ∀ pid, w.processes pid ≠ none → pid ∈ pids) (known : w.known pids = true) :
    w.Interruptible := by
  rintro ⟨pid, process, there, _, launch, other⟩
  have here := List.all_eq_true.1 known pid (living pid (by simp [there]))
  rw [there, Option.all_some, decide_eq_true_eq] at here
  exact absurd (here launch) other

/-- Nothing else begins like an `ok`. -/
theorem World.Granted.begins {w : World} (granted : w.Granted) :
    ascii "\x7b\"version\":1,\"ok\":true,\"data\":" <+: w.out := by
  obtain ⟨data, first⟩ := granted
  refine List.IsPrefix.trans ?_ first
  exact (List.prefix_append _ _).trans (List.prefix_append _ _)

namespace Two

/-- The start of a, up to a VMM in its cgroup. -/
def under : List Happening :=
  [.serves 50, .launches 100 5, .serves 1, .launches 101 6, .serves 3, .logOpens 100, .opens 101,
    .meets 100 101, .moves 101 (cgroupPath (ascii "system.slice/luhmen") (ascii "a")), .serves 5]

end Two

/-- A start that a signal ends while it waits for the socket of its VMM. -/
theorem failed_start_interrupted : ∃ before w : World,
    Served watched World.Interruptible (.request 9 Two.startA) before (.done .failed, w) ∧
    before.launches < w.launches ∧ ∀ pid process number, w.processes pid = some process →
      process.launch = some number → before.launches ≤ number → w.launches ≤ number := by
  have played : ((lookingLate Two.answers).plays ⟨Two.empty, none, []⟩
      (Two.request 7 Two.createA)).any (fun before => before.running.isNone &&
        ((lookingLate Two.answers).plays (before.calling (.request 9 Two.startA)) Two.under).any
          fun stopped => stopped.world.known (stopped.used.map Prod.fst) &&
            ((lookingLate Two.answers).plays
              (Scene.calling ⟨stopped.world, none, stopped.used⟩ .signalled) [.serves 200]).any
                fun ended => ended.isDone .failed &&
                  decide (before.world.launches < ended.world.launches ∧
                    ¬ ascii "\x7b\"version\":1,\"ok\":true,\"data\":" <+: ended.world.out)) = true := by
    decide +kernel
  obtain ⟨before, plays, holds⟩ := (Option.any_eq_true _ _).1 played
  obtain ⟨alone, holds⟩ := (Bool.and_eq_true _ _).mp holds
  obtain ⟨stopped, plays', holds⟩ := (Option.any_eq_true _ _).1 holds
  obtain ⟨known, holds⟩ := (Bool.and_eq_true _ _).mp holds
  obtain ⟨ended, plays'', holds⟩ := (Option.any_eq_true _ _).1 holds
  obtain ⟨done, decided⟩ := (Bool.and_eq_true _ _).mp holds
  obtain ⟨launched, notOk⟩ := of_decide_eq_true decided
  have ready := Two.ready.plays plays
  have idle := Option.isNone_iff_eq_none.1 alone
  have reached : (parentVm watched).Reaches manager ⟨Two.empty, none⟩ ⟨before.world, none⟩ :=
    idle ▸ ready.reached
  obtain ⟨running, program, is, leads⟩ := ready.begun idle (by decide) plays'
  obtain ⟨_, _, leads'⟩ := (running.idle is).called rfl (by decide) plays'' done
  have served : Served watched World.Interruptible (.request 9 Two.startA) before.world
      (.done .failed, ended.world) :=
    .trapped (.called leads) (World.known_interruptible running.living known) leads'
  have refused : ¬ ended.world.Granted := fun granted => notOk granted.begins
  have gone := @failed_start_leaves_nothing _ rfl Two.empty_empty _ reached _ _ _ Two.startA_parsed _ _
    served (.inr ⟨_, rfl⟩) refused .signalled _ .refl
  exact ⟨before.world, ended.world, served, launched, gone⟩

/-! ## A look too early -/

/-- Some process of those that were launched between two moments is a jailer or a VMM. -/
def World.Escaped (w : World) (first last : Nat) : Prop :=
  ∃ pid process number, w.processes pid = some process ∧ process.launch = some number ∧
    first ≤ number ∧ number < last ∧ (process.stage = .jailer ∨ process.stage = .firecracker)

/-- The same, to be decided at one PID. -/
def World.escapedAt (w : World) (first last : Nat) (pid : Pid) : Bool :=
  (w.processes pid).any fun process => process.launch.any fun number =>
    decide (first ≤ number ∧ number < last ∧ process.stage = .jailer)

theorem World.escapedAt_escaped {w : World} {first last : Nat} {pid : Pid}
    (escaped : w.escapedAt first last pid = true) : w.Escaped first last := by
  obtain ⟨process, there, holds⟩ := (Option.any_eq_true _ _).1 escaped
  obtain ⟨number, launch, holds⟩ := (Option.any_eq_true _ _).1 holds
  obtain ⟨least, less, jailer⟩ := of_decide_eq_true holds
  exact ⟨pid, process, number, there, launch, least, less, .inl jailer⟩

/-- The manager looks for the child's cgroup and command line before the child has opened
the pipe. -/
def Two.early : List Happening :=
  [.serves 50, .launches 100 5, .serves 1, .launches 101 6, .serves 200]

/-- The start fails, and removes the pipe; its child makes a file and goes on. -/
theorem shell_escapes :
    ¬ ∀ (start : Parent) (before w : World) (self : Pid) (request : Bytes) (fields : Fields)
      (exit : Exit) (later : Parent), start.running = none → World.Empty start.state →
      start.Reaches ⟨before, none⟩ → parseRequest request = .ok (.start, fields) →
      (parentVm unrestricted).Leads (manager (.request self request), before) (.done exit, w) →
      exit ≠ .ok → Parent.Reaches ⟨w, some (.request self request, .done exit)⟩ later →
      ¬ World.Escaped later.state before.launches w.launches := by
  intro all
  have played : ((freely Two.answers).plays ⟨Two.empty, none, []⟩ (Two.request 7 Two.createA)).any
      (fun before => before.running.isNone &&
        ((freely Two.answers).plays (before.calling (.request 9 Two.startA)) Two.early).any
          fun failed => failed.isDone .error &&
            ((freely Two.answers).plays failed [.creates 101]).any fun later =>
              later.world.escapedAt before.world.launches failed.world.launches 101) = true := by
    decide +kernel
  obtain ⟨before, plays, holds⟩ := (Option.any_eq_true _ _).1 played
  obtain ⟨alone, holds⟩ := (Bool.and_eq_true _ _).mp holds
  obtain ⟨failed, plays', holds⟩ := (Option.any_eq_true _ _).1 holds
  obtain ⟨done, holds⟩ := (Bool.and_eq_true _ _).mp holds
  obtain ⟨later, plays'', escapes⟩ := (Option.any_eq_true _ _).1 holds
  have ready := Two.ready.plays plays
  have idle := Option.isNone_iff_eq_none.1 alone
  obtain ⟨ended, running, leads⟩ := ready.called idle (by decide) plays' done
  have reached : Parent.Reaches ⟨Two.empty, none⟩ ⟨before.world, none⟩ := idle ▸ ready.reached
  obtain ⟨w, _, used⟩ := failed
  cases running
  obtain ⟨rest, _, further⟩ := ended.leads (by decide) plays''
  exact all _ _ _ _ _ _ _ _ rfl Two.empty_empty reached Two.startA_parsed leads (by decide)
    further.reaches (World.escapedAt_escaped escapes)

end Luhmen.Manager
