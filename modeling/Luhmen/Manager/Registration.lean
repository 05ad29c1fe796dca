/-
# Manager.Registration -- a creation is done or not begun

A creation changes the store twice: `mkdir` makes the directory and the rename of the
record completes it.  Between the two the id is in use by nothing.  `creation_atomic`: if
the record is written (`recorded`) and nothing ends the script while a command of
`write_state` is pending, the id is free afterwards, and the same request is accepted
wherever its preconditions hold, or the microVM is complete.

Nothing takes the directory back otherwise: `killed_half_registered` is a run in which the
script ends just behind `mkdir`.
-/
import Luhmen.Theory.Guarded
import Luhmen.Manager.Rehearsal

set_option autoImplicit false

namespace Luhmen.Manager

open Luhmen.Theory

/-! ## What is registered -/

/-- The commands that register something. -/
def Command.Registers : Command → Prop
  | .mkdirVm _ | .renameState _ => True
  | _ => False

/-- The commands of `write_state`. -/
def Command.Records (id : Id) : Command → Prop
  | .writeTemporary other _ | .chmodTemporary other | .renameState other => other = id
  | _ => False

theorem Command.Still.unregistering {command : Command} (still : command.Still) :
    ¬ command.Registers := by
  cases command with
  | mkdirVm | renameState => exact still.elim
  | _ => exact id

namespace World

variable {w t : World}

/-- The directories and the records are these. -/
def Holds (vms : Finset Id) (state : Id → Option Bytes) (w : World) : Prop :=
  w.vms = vms ∧ w.state = state

theorem Env.holds (env : Env w t) {vms : Finset Id} {state : Id → Option Bytes}
    (holds : w.Holds vms state) : t.Holds vms state := by
  obtain ⟨_, _, _, _, rfl⟩ := env.untouched
  exact holds

theorem effect_holds {command : Command} {reply : command.Reply} (not : ¬ command.Registers)
    (performed : effect command w reply t) : t.vms = w.vms ∧ t.state = w.state := by
  cases command with
  | mkdirVm | renameState => exact absurd trivial not
  | shell self | assign change | print text =>
    obtain rfl := performed
    exact ⟨rfl, rfl⟩
  | renameDisk id =>
    obtain ⟨_, _, _, rfl⟩ | ⟨_, rfl⟩ := performed <;> exact ⟨rfl, rfl⟩
  | spawnJailer =>
    obtain ⟨_, _, _, _, _, rfl⟩ | ⟨_, rfl⟩ := performed <;> exact ⟨rfl, rfl⟩
  | signalRecorded signal pid =>
    obtain ⟨_, _, signalled⟩ | ⟨_, rfl⟩ := performed
    · obtain rfl | rfl := signalled.cases <;> exact ⟨rfl, rfl⟩
    · exact ⟨rfl, rfl⟩
  | signalCgroup recorded signal pid =>
    cases recorded with
    | false | true => obtain rfl | rfl := World.Signalled.cases performed <;> exact ⟨rfl, rfl⟩
  | _ =>
    have quietly := effect_quiet (by trivial) performed
    cases quietly with
    | aside _ _ _ _ is | staged _ _ _ _ is | unstaged _ is | piped _ is =>
      subst is
      exact ⟨rfl, rfl⟩
    | signalled _ _ is => obtain rfl | rfl := is.cases <;> exact ⟨rfl, rfl⟩
    | spawned _ _ _ is =>
      obtain ⟨_, _, rfl⟩ := is
      exact ⟨rfl, rfl⟩

theorem exec_holds {command : Command} {reply : command.Reply} (not : ¬ command.Registers)
    (performed : exec command w reply t) {vms : Finset Id} {state : Id → Option Bytes}
    (holds : w.Holds vms state) : t.Holds vms state := by
  obtain ⟨_, performed, rfl⟩ := performed
  obtain ⟨sameVms, sameState⟩ := effect_holds not performed
  exact ⟨sameVms.trans holds.1, sameState.trans holds.2⟩

end World

/-- What neither `mkdir` nor the rename of a record takes part in leaves the store alone. -/
abbrev storeHeld (conditions : Conditions) (vms : Finset Id) (state : Id → Option Bytes) :
    Habit where
  conditions
  inv _ w := w.Holds vms state
  keeps := World.Holds vms state
  leaves _ w := w.Holds vms state
  may command := ¬ command.Registers
  lasting := ⟨fun _ _ here => here, fun _ _ _ here moves => moves.1.holds here⟩
  steady _ _ _ _ moves here := moves.1.holds here
  performs _ not _ _ _ _ _ here performed :=
    have after := World.exec_holds not performed.1 here
    ⟨after, after⟩
  still _ := Command.Still.unregistering

/-- So does a refusal. -/
abbrev holding (conditions : Conditions) (vms : Finset Id) (state : Id → Option Bytes) :
    Conduct where
  toHabit := storeHeld conditions vms state
  failed _ here := here
  refuses _ _ _ := by
    have cleans : (storeHeld conditions vms state).Keeps cleanupStart :=
      Habit.keeps_cleanupStart (fun _ here => here) id
    refine System.Contract.bind cleans fun _ => System.Contract.bind (Habit.keeps_ask id) fun _ => ?_
    exact System.Contract.throw fun _ here => here

/-! ## The creation -/

/-- The first record of a microVM is written. -/
def recorded : Conditions where
  exec command w reply _ :=
    match command, reply with
    | .writeTemporary id _, reply | .chmodTemporary id, reply | .renameState id, reply =>
      w.state id = none → reply = true
    | _, _ => True
  env _ _ := True

namespace Registration

variable {s : World} {fields : Fields}

/-- The directory is there, and no record. -/
def Half (s : World) (id : Id) : World → Prop :=
  World.Holds (insert id s.vms) s.state

/-- The record is what the creation asked for. -/
def Complete (s : World) (fields : Fields) (w : World) : Prop :=
  validId fields.id = true ∧ ∃ uid, Record.Valid ⟨.created, fields.settings, uid⟩ ∧
    w.Holds (insert fields.id s.vms)
      (Function.update s.state fields.id (some (Record.text ⟨.created, fields.settings, uid⟩)))

/-- All is as it was, or done. -/
def Atomic (s : World) (fields : Fields) (w : World) : Prop :=
  w.Holds s.vms s.state ∨ Complete s fields w

/-- Anything else is so while a command of `write_state` is pending only. -/
def guard (s : World) (fields : Fields) (command : Command) (w : World) : Prop :=
  command.Records fields.id ∨ Atomic s fields w

/-- A piece of the creation. -/
abbrev Goes {α : Type} (s : World) (fields : Fields) (P : World → Prop) (block : Shell α)
    (Q : α → World → Prop) : Prop :=
  System.Heeds (S := parentVm recorded) (guard s fields) P block Q fun _ => Atomic s fields

/-- What leaves the store alone goes on as it began. -/
theorem goes_holding {α : Type} {vms : Finset Id} {state : Id → Option Bytes}
    (atomic : ∀ w : World, w.Holds vms state → Atomic s fields w) {block : Shell α}
    {Q : α → World → Prop}
    (runs : (holding recorded vms state).Runs (World.Holds vms state) block Q) :
    Goes s fields (World.Holds vms state) block Q := by
  have guards : ∀ command (m w : World), (holding recorded vms state).inv m w →
      guard s fields command w := fun _ _ w here => .inr (atomic w here)
  have heeds := runs.guards (holding recorded vms state).lasting guards fun _ => id
  exact heeds.weaken (fun _ => id) (fun _ _ => id) fun _ w => atomic w

theorem stable_holds {vms : Finset Id} {state : Id → Option Bytes} :
    (parentVm recorded).Stable (World.Holds vms state) :=
  fun _ _ moves here => moves.1.holds here

/-- The directory is made, or nothing is. -/
theorem goes_mkdirVm : Goes s fields (World.Holds s.vms s.state)
    (demand (ask (.mkdirVm fields.id))) fun _ => Half s fields.id := by
  have made : Goes s fields (World.Holds s.vms s.state) (ask (.mkdirVm fields.id))
      fun made w => if made = true then Half s fields.id w else w.Holds s.vms s.state := by
    refine System.Heeds.perform stable_holds (fun w here => .inr (.inl here)) ?_
    rintro w reply t here ⟨⟨_, ⟨rfl, _, rfl⟩ | ⟨rfl, rfl⟩, rfl⟩, _⟩
    · exact ⟨congrArg (insert fields.id) here.1, here.2⟩
    · exact here
  refine System.Heeds.bind made fun made => ?_
  cases made with
  | true => exact System.Heeds.pure fun w here => here
  | false => exact System.Heeds.throw fun w here => .inl here

/-- With the record in the file beside. -/
def Written (s : World) (id : Id) (text : Bytes) (w : World) : Prop :=
  Half s id w ∧ w.temporary id w.vars.self = some text

theorem stable_written {id : Id} {text : Bytes} :
    (parentVm recorded).Stable (Written s id text) := by
  rintro w t moves ⟨half, written⟩
  refine ⟨moves.1.holds half, ?_⟩
  obtain ⟨_, _, _, _, rfl⟩ := moves.1.untouched
  exact written

/-- A command of `write_state`, which succeeds. -/
theorem goes_done {reply : Shell Bool} {P Q : World → Prop}
    (goes : Goes s fields P reply fun done w => done = true ∧ Q w) :
    Goes s fields P (demand reply) fun _ => Q := by
  refine System.Heeds.bind goes fun done => System.Heeds.assume (fun _ => And.left) ?_
  rintro rfl
  exact System.Heeds.pure fun _ => And.right

theorem goes_writeState {uid : Nat} (absent : s.state fields.id = none) :
    Goes s fields (Half s fields.id)
      (writeState fields.id (Record.fields ⟨.created, fields.settings, uid⟩))
      fun _ => World.Holds (insert fields.id s.vms) (Function.update s.state fields.id
        (some (Record.text ⟨.created, fields.settings, uid⟩))) := by
  have noState : ∀ {w : World}, Half s fields.id w → w.state fields.id = none := fun half => by
    rw [half.2]
    exact absent
  have written : Goes s fields (Half s fields.id)
      (ask (.writeTemporary fields.id (Record.text ⟨.created, fields.settings, uid⟩)))
      fun done w => done = true ∧
        Written s fields.id (Record.text ⟨.created, fields.settings, uid⟩) w := by
    refine System.Heeds.perform stable_holds (fun _ _ => .inl rfl) ?_
    rintro w reply t half ⟨⟨_, ⟨content, rfl, whole⟩, rfl⟩, succeeds⟩
    have done := succeeds (noState half)
    refine ⟨done, half, ?_⟩
    show Function.update w.temporary fields.id _ fields.id w.vars.self = _
    rw [Function.update_self, Function.update_self]
    exact whole done
  have permitted : Goes s fields
      (Written s fields.id (Record.text ⟨.created, fields.settings, uid⟩))
      (ask (.chmodTemporary fields.id)) fun done w => done = true ∧
        Written s fields.id (Record.text ⟨.created, fields.settings, uid⟩) w := by
    refine System.Heeds.perform stable_written (fun _ _ => .inl rfl) ?_
    rintro w reply t here ⟨⟨_, rfl, rfl⟩, succeeds⟩
    exact ⟨succeeds (noState here.1), here⟩
  have renamed : Goes s fields
      (Written s fields.id (Record.text ⟨.created, fields.settings, uid⟩))
      (ask (.renameState fields.id)) fun done w => done = true ∧
        w.Holds (insert fields.id s.vms) (Function.update s.state fields.id
          (some (Record.text ⟨.created, fields.settings, uid⟩))) := by
    refine System.Heeds.perform stable_written (fun _ _ => .inl rfl) ?_
    rintro w reply t here ⟨⟨_, ⟨done, _, content, was, rfl⟩ | ⟨failed, _⟩, rfl⟩, succeeds⟩
    · obtain rfl := Option.some.inj (here.2.symm.trans was)
      exact ⟨done, here.1.1, congrArg (Function.update · fields.id _) here.1.2⟩
    · cases failed.symm.trans (succeeds (noState here.1))
  refine System.Heeds.bind (goes_done written) fun _ => ?_
  exact System.Heeds.bind (goes_done permitted) fun _ => goes_done renamed

/-- A test of what the shell knows by itself. -/
theorem goes_check {test : Bool} {message : String} (sayable : Sayable (ascii message)) :
    Goes s fields (World.Holds s.vms s.state) (require (pure test) message)
      fun _ w => w.Holds s.vms s.state ∧ test = true := by
  cases test with
  | true => exact System.Heeds.pure fun w here => ⟨here, rfl⟩
  | false =>
    have refused := @goes_holding s fields _ _ _ (fun _ => .inl) _ _
      ((holding recorded s.vms s.state).refuses Unit message sayable)
    exact refused.weaken (fun _ => id) (fun _ _ never => never.elim) fun _ _ => id

/-- **The creation** is at each moment not begun or done, or about to write the record. -/
theorem goes_create (absent : s.state fields.id = none) :
    Goes s fields (World.Holds s.vms s.state) (create fields) fun _ => Atomic s fields := by
  have goes : ∀ {α : Type} {block : Shell α}, (holding recorded s.vms s.state).Keeps block →
      Goes s fields (World.Holds s.vms s.state) block fun _ => World.Holds s.vms s.state :=
    fun keeps => goes_holding (fun _ => .inl) keeps
  have check : ∀ {test : Bool} {message : String} {rest : Unit → Shell Unit},
      Sayable (ascii message) → (test = true →
        Goes s fields (World.Holds s.vms s.state) (rest ()) fun _ => Atomic s fields) →
      Goes s fields (World.Holds s.vms s.state) (require (pure test) message >>= rest)
        fun _ => Atomic s fields := fun sayable next =>
    System.Heeds.bind (goes_check sayable) fun _ =>
      System.Heeds.assume (fun _ => And.right) fun holds =>
        (next holds).weaken (fun _ => And.left) (fun _ _ => id) fun _ _ => id
  refine check (by decide) fun named => check (by decide) fun kernel => ?_
  refine check (by decide) fun rootfs => check (by decide) fun vcpus => ?_
  refine check (by decide) fun memoryMib => ?_
  refine System.Heeds.bind (goes (Conduct.keeps_require (Habit.keeps_still (by trivial))
    (by decide))) fun _ => ?_
  refine System.Heeds.bind (goes (Conduct.keeps_require (Habit.keeps_still (by trivial))
    (by decide))) fun _ => ?_
  have allocated := @goes_holding s fields _ _ _ (fun _ => .inl) _ _
    (@Conduct.runs_allocateIdentity (holding recorded s.vms s.state))
  refine System.Heeds.bind allocated fun uid => ?_
  refine System.Heeds.assume (fun _ => And.right) fun range => ?_
  refine System.Heeds.weaken (fun _ => And.left) ?_ (fun _ _ => id) fun _ _ => id
  have fresh : (holding recorded s.vms s.state).Keeps (do pure !(← ask (.isVm fields.id))) :=
    Habit.keeps_if (by trivial) fun _ => Habit.keeps_pure
  refine System.Heeds.bind (goes (Conduct.keeps_require fresh (by decide))) fun _ => ?_
  refine System.Heeds.bind goes_mkdirVm fun _ => ?_
  have vcpus := numeral_of_inRange vcpus
  have memoryMib := numeral_of_inRange memoryMib
  have clean : Record.Clean ⟨.created, fields.settings, uid⟩ :=
    ⟨⟨line_of_validPath kernel, line_of_validPath rootfs, vcpus.line, memoryMib.line⟩,
      fun _ is => nomatch is⟩
  have valid : Record.Valid ⟨.created, fields.settings, uid⟩ :=
    ⟨clean, vcpus, memoryMib, range.1, range.2⟩
  refine System.Heeds.bind (goes_writeState absent) fun _ => ?_
  have complete : ∀ w : World, w.Holds (insert fields.id s.vms) (Function.update s.state fields.id
      (some (Record.text ⟨.created, fields.settings, uid⟩))) → Atomic s fields w :=
    fun w here => .inr ⟨named, uid, valid, here⟩
  have answered := goes_holding complete (Habit.keeps_bind (@Habit.keeps_jsonVm _ fields.id)
    fun data => @Habit.keeps_okReply _ Unit data id fun _ here => here)
  exact answered.weaken (fun _ => id) (fun _ => complete) fun _ _ => id

theorem goes_session {request : Bytes} (parsed : parseRequest request = .ok (.create, fields))
    (absent : s.state fields.id = none) :
    Goes s fields (World.Holds s.vms s.state) (session request) fun _ => Atomic s fields := by
  rw [session, parsed]
  have goes : ∀ {block : Shell Unit}, (holding recorded s.vms s.state).Keeps block →
      Goes s fields (World.Holds s.vms s.state) block fun _ => World.Holds s.vms s.state :=
    fun keeps => goes_holding (fun _ => .inl) keeps
  refine System.Heeds.bind (goes (Habit.keeps_ask id)) fun _ => ?_
  refine System.Heeds.bind (goes (Habit.keeps_demand (fun _ here => here)
    (Habit.keeps_still (by trivial)))) fun _ => ?_
  refine System.Heeds.bind (goes (Conduct.keeps_require (Habit.keeps_still (by trivial))
    (by decide))) fun _ => ?_
  exact goes_create absent

/-- The trap takes nothing back, and leaves nothing half done. -/
theorem goes_onExit {failed : Bool} :
    Goes s fields (Atomic s fields) (onExit failed) fun _ => Atomic s fields := by
  have keeps : ∀ {vms : Finset Id} {state : Id → Option Bytes},
      (∀ w : World, w.Holds vms state → Atomic s fields w) →
      Goes s fields (World.Holds vms state) (onExit failed) fun _ => Atomic s fields := by
    intro vms state atomic
    have cleans : (storeHeld recorded vms state).Keeps (onExit failed) :=
      Habit.keeps_onExit (Habit.keeps_cleanupStart (fun _ here => here) id) fun _ => id
    exact (goes_holding atomic cleans).weaken (fun _ => id) (fun _ => atomic) fun _ _ => id
  rintro w (untouched | ⟨named, uid, valid, complete⟩)
  · exact keeps (fun _ => .inl) w untouched
  · exact keeps (fun _ here => .inr ⟨named, uid, valid, here⟩) w complete

theorem guarded_manager {self : Pid} {request : Bytes}
    (parsed : parseRequest request = .ok (.create, fields)) (absent : s.state fields.id = none) :
    (parentVm recorded).Guarded (guard s fields) (fun _ => Atomic s fields)
      (manager (.request self request)) s := by
  have shell : Goes s fields (World.Holds s.vms s.state) (ask (.shell self))
      fun _ => World.Holds s.vms s.state := goes_holding (fun _ => .inl) (Habit.keeps_ask id)
  have body : Goes s fields (World.Holds s.vms s.state) (do ask (.shell self); session request)
      fun _ => Atomic s fields := System.Heeds.bind shell fun _ => goes_session parsed absent
  refine System.Guarded.bind (System.Guarded.mono ?_ (body s ⟨rfl, rfl⟩))
  intro result t ended
  have atomic : Atomic s fields t := by cases result <;> exact ended
  refine System.Guarded.bind (System.Guarded.mono ?_ (goes_onExit t atomic))
  intro last u ended
  cases last <;> exact ended

theorem stable_atomic : (parentVm recorded).Stable (Atomic s fields) := by
  rintro w t moves (untouched | ⟨named, uid, valid, complete⟩)
  · exact .inl (moves.1.holds untouched)
  · exact .inr ⟨named, uid, valid, moves.1.holds complete⟩

/-- Wherever a creation stands, but before a command of `write_state`. -/
theorem atomic_of_leads {self : Pid} {request : Bytes}
    (parsed : parseRequest request = .ok (.create, fields)) (absent : s.state fields.id = none)
    {rest : Program Commands Exit} {t : World}
    (leads : (parentVm recorded).Leads (manager (.request self request), s) (rest, t))
    (between : ∀ command, rest.pending = some command → ¬ command.Records fields.id) :
    Atomic s fields t := by
  have guarded := (guarded_manager parsed absent).leads (fun _ => stable_atomic) leads
  obtain ⟨command, isPending, records | atomic⟩ | ⟨exit, _, atomic⟩ := guarded.pending
  · exact absurd records (between command isPending)
  · exact atomic
  · exact atomic

/-- What a signal leaves to do leaves the store alone. -/
theorem signalled_holds {w u : World} {rest : Program Commands Exit}
    (leads : (parentVm unrestricted).Leads (manager .signalled, w) (rest, u)) :
    u.Holds w.vms w.state := by
  have cleans : (storeHeld unrestricted w.vms w.state).Keeps cleanupStart :=
    Habit.keeps_cleanupStart (fun _ here => here) id
  have body : (storeHeld unrestricted w.vms w.state).Keeps
      (do cleanupStart; throw .failed : Shell Unit) :=
    System.Contract.bind cleans fun _ => System.Contract.throw fun _ here => here
  have delivers : (parentVm unrestricted).Delivers (fun _ u => u.Holds w.vms w.state)
      (manager .signalled) (fun _ u => u.Holds w.vms w.state) (w, w) := by
    have trap : ∀ exit : Exit, (storeHeld unrestricted w.vms w.state).Keeps
        (onExit (decide (exit = .failed))) := fun _ => Habit.keeps_onExit cleans fun _ => id
    have unchanged : w.Holds w.vms w.state := ⟨rfl, rfl⟩
    exact delivers_finish body trap unchanged unchanged
  have guarded : (parentVm unrestricted).Guarded (fun _ u => u.Holds w.vms w.state)
      (fun _ u => u.Holds w.vms w.state ∧ u.Holds w.vms w.state) (manager .signalled) w :=
    delivers.guarded (storeHeld unrestricted w.vms w.state).lasting (fun _ _ _ here => here)
      ⟨rfl, rfl⟩
  have stable : (parentVm unrestricted).Stable fun u =>
      u.Holds w.vms w.state ∧ u.Holds w.vms w.state :=
    fun _ _ moves here => ⟨moves.1.holds here.1, moves.1.holds here.2⟩
  obtain ⟨_, _, here⟩ | ⟨_, _, here, _⟩ := (guarded.leads (fun _ => stable) leads).pending
  · exact here
  · exact here

end Registration

/-! ## Accepted requests -/

/-- A call that comes to an end, and only to one with `ok`. -/
def Accepts (conditions : Conditions) (call : Call) (w : World) : Prop :=
  (∃ exit t, (parentVm conditions).Leads (manager call, w) (.done exit, t)) ∧
    ∀ exit t, (parentVm conditions).Leads (manager call, w) (.done exit, t) → exit = .ok

/-- The lock is free, the images are there, an identity is in use by no account, and what
is to be made for a microVM can be made. -/
def granting (id : Id) (uid : Nat) : Conditions where
  exec command w reply _ :=
    match command, reply with
    | .lock, reply | .probe .lockFile, reply | .probe (.image _), reply => reply = true
    | .probe (.identity other), reply => other = uid → reply = false
    | .mkdirVm other, reply => other = id → id ∉ w.vms → reply = true
    | .writeTemporary _ _, reply | .chmodTemporary _, reply => reply = true
    | .renameState other, reply =>
      other ∈ w.vms → w.temporary other w.vars.self ≠ none → reply = true
    | _, _ => True
  env _ _ := True

/-- What a creation asks for: a name that is free, settings that are in order, and an
identity of the range that no record has. -/
structure Acceptable (fields : Fields) (uid : Nat) (w : World) : Prop where
  id : validId fields.id = true
  kernel : validPath fields.kernel = true
  rootfs : validPath fields.rootfs = true
  vcpus : inRange fields.vcpus 1 16 = true
  memoryMib : inRange fields.memoryMib 128 16384 = true
  range : MICROVM_UID_BASE ≤ uid ∧ uid < MICROVM_UID_BASE + MICROVM_UIDS
  unrecorded : ∀ other content, w.state other = some content →
    stateValue .uid content ≠ decimal uid
  absent : fields.id ∉ w.vms

namespace Granted

variable {vm : Id} {uid : Nat} {α : Type}

/-- The script is where it ends with `ok`, with nothing to clean up. -/
def ends (exit : Exit) (w : World) : Prop :=
  exit = .ok ∧ w.vars.Tidy

/-- The store is of a kind, and there is nothing to clean up. -/
abbrev tidily (vm : Id) (uid : Nat) (kind : Finset Id → (Id → Option Bytes) → Prop) : Habit where
  conditions := granting vm uid
  inv _ _ := True
  keeps w := kind w.vms w.state ∧ w.vars.Tidy
  leaves := ends
  may command := ¬ command.Registers ∧ command.Childless ∨ (∃ text, command = .print text) ∨
    ∃ change, command = .assign change ∧ ∀ vars : Vars, vars.Tidy → (change vars).Tidy
  lasting := ⟨fun _ _ _ => trivial, fun _ _ _ _ _ => trivial⟩
  steady _ w t _ moves here := by
    obtain ⟨_, _, _, _, rfl⟩ := moves.1.untouched
    exact here
  performs command isAllowed _ w reply t _ here performed := by
    refine ⟨trivial, ?_⟩
    obtain ⟨not, childless⟩ | ⟨text, rfl⟩ | ⟨change, rfl, tidies⟩ := isAllowed
    · obtain ⟨sameVms, sameState⟩ := World.exec_holds not performed.1 ⟨rfl, rfl⟩
      have sameVars := (World.exec_inherits childless performed.1).vars
      rw [sameVms, sameState, sameVars]
      exact here
    · obtain ⟨⟨_, rfl, rfl⟩, _⟩ := performed
      exact here
    · obtain ⟨⟨_, rfl, rfl⟩, _⟩ := performed
      exact ⟨here.1, tidies _ here.2⟩
  still _ still := .inl ⟨still.unregistering, still.childless⟩

variable {kind : Finset Id → (Id → Option Bytes) → Prop}

/-- A piece of script under the grant. -/
abbrev Runs (vm : Id) (uid : Nat) (P : World → Prop) (block : Shell α) (Q : α → World → Prop) :
    Prop :=
  System.Contract (S := parentVm (granting vm uid)) (fun _ _ => True) P block Q ends

/-- What `tidily` keeps. -/
def Kept (kind : Finset Id → (Id → Option Bytes) → Prop) (w : World) : Prop :=
  kind w.vms w.state ∧ w.vars.Tidy

theorem runs_shell {self : Pid} :
    Runs vm uid (fun w => kind w.vms w.state) (ask (.shell self)) fun _ => Kept kind := by
  refine System.Contract.perform (tidily vm uid kind).lasting ?_ ?_
  · rintro _ w t _ moves here
    obtain ⟨_, _, _, _, rfl⟩ := moves.1.untouched
    exact here
  · rintro m w reply t inv here ⟨⟨_, rfl, rfl⟩, _⟩
    exact ⟨trivial, here, rfl, rfl, rfl⟩

/-- A test that is granted. -/
theorem runs_granted {test : Shell Bool} (tested : Runs vm uid (Kept kind) test
      fun holds w => Kept kind w ∧ holds = true) {message : String} :
    Runs vm uid (Kept kind) (require test message) fun _ => Kept kind := by
  refine System.Contract.bind tested fun holds => System.Contract.assume (fun _ => And.right) ?_
  rintro rfl
  exact System.Contract.pure fun _ => And.left

theorem runs_demanded {P Q : World → Prop} {test : Shell Bool}
    (tested : Runs vm uid P test fun holds w => holds = true ∧ Q w) :
    Runs vm uid P (demand test) fun _ => Q := by
  refine System.Contract.bind tested fun holds => System.Contract.assume (fun _ => And.left) ?_
  rintro rfl
  exact System.Contract.pure fun _ => And.right

/-- What a still command answers in a store of this kind. -/
theorem runs_asked {command : Command} {fact : command.Reply → Prop} (still : command.Still)
    (answers : ∀ w reply t, Kept kind w → World.exec command w reply t →
      (granting vm uid).exec command w reply t → fact reply) :
    Runs vm uid (Kept kind) (ask command) fun reply w => Kept kind w ∧ fact reply := by
  refine System.Contract.perform (tidily vm uid kind).lasting (tidily vm uid kind).steady ?_
  intro m w reply t inv here performed
  have after := (tidily vm uid kind).performs command ((tidily vm uid kind).still command still)
    m w reply t inv here performed
  exact ⟨trivial, after.2, answers w reply t here performed.1 performed.2⟩

/-- The lock, and what comes before it. -/
theorem runs_session {request : Bytes} {action : Action} {fields : Fields}
    (parsed : parseRequest request = .ok (action, fields))
    (acts : Runs vm uid (Kept kind) (act action fields) fun _ _ => False) :
    Runs vm uid (Kept kind) (session request) fun _ _ => False := by
  rw [session, parsed]
  have named : (tidily vm uid kind).Keeps
      (ask (.assign fun vars => { vars with id := fields.id })) :=
    Habit.keeps_ask (.inr (.inr ⟨_, rfl, fun _ tidy => ⟨tidy.overlay, tidy.logPipe, tidy.jail⟩⟩))
  have lockFile : Runs vm uid (Kept kind) (ask (.probe .lockFile))
      fun reply w => Kept kind w ∧ reply = true :=
    runs_asked (by trivial) fun _ _ _ _ _ granted => granted
  have lock : Runs vm uid (Kept kind) (ask .lock) fun reply w => Kept kind w ∧ reply = true :=
    runs_asked (by trivial) fun _ _ _ _ _ granted => granted
  refine System.Contract.bind named fun _ => ?_
  refine System.Contract.bind (runs_demanded (lockFile.weaken (fun _ => id) (fun _ _ => And.symm)
    fun _ _ => id)) fun _ => ?_
  exact System.Contract.bind (runs_granted lock) fun _ => acts

theorem runs_okReply {data : Bytes} :
    Runs vm uid (Kept kind) (okReply data : Shell α) fun _ _ => False :=
  @Habit.runs_okReply (tidily vm uid kind) α data (.inr (.inl ⟨_, rfl⟩)) fun _ here => ⟨rfl, here.2⟩

/-! ### A creation -/

/-- The id is free, and no record has the identity. -/
def Open (vm : Id) (uid : Nat) (vms : Finset Id) (state : Id → Option Bytes) : Prop :=
  (∀ other content, state other = some content → stateValue .uid content ≠ decimal uid) ∧ vm ∉ vms

/-- No record has the identity. -/
theorem runs_recordedIdentity {ids : List Id} :
    Runs vm uid (Kept (Open vm uid)) (recordedIdentity (decimal uid) ids)
      fun recorded w => Kept (Open vm uid) w ∧ recorded = false := by
  induction ids with
  | nil => exact System.Contract.pure fun w here => ⟨here, rfl⟩
  | cons other rest ih =>
    have looked : Runs vm uid (Kept (Open vm uid)) (ask (.stateValue .uid other))
        fun recorded w => Kept (Open vm uid) w ∧ recorded ≠ decimal uid := by
      refine runs_asked (by trivial) fun w reply t here performed _ => ?_
      obtain ⟨_, ⟨_, rfl⟩, _⟩ := performed
      cases there : w.state other with
      | none => exact fun is => decimal_ne_nil is.symm
      | some content => exact here.1.1 other content there
    have asked : (tidily vm uid (Open vm uid)).Keeps (ask (.hasState other)) :=
      Habit.keeps_still (by trivial)
    refine System.Contract.bind asked fun there => ?_
    cases there with
    | false => exact ih
    | true =>
      refine System.Contract.bind looked fun recorded => ?_
      refine System.Contract.assume (fun _ => And.right) fun differs => ?_
      rw [if_neg differs]
      exact ih.from_pre fun _ => And.left

theorem runs_firstFree {uids : List Nat} (member : uid ∈ uids) :
    Runs vm uid (Kept (Open vm uid)) (firstFree uids)
      fun free w => Kept (Open vm uid) w ∧ free ≠ none := by
  have tested : Runs vm uid (Kept (Open vm uid)) (identityInUse uid)
      fun inUse w => Kept (Open vm uid) w ∧ inUse = false := by
    have known : Runs vm uid (Kept (Open vm uid)) (ask (.probe (.identity uid)))
        fun known w => Kept (Open vm uid) w ∧ known = false :=
      runs_asked (by trivial) fun _ _ _ _ _ granted => granted rfl
    refine System.Contract.bind known fun known => System.Contract.assume (fun _ => And.right) ?_
    rintro rfl
    refine System.Contract.from_pre (fun _ => And.left) ?_
    have listed : (tidily vm uid (Open vm uid)).Keeps (ask .listVms) :=
      Habit.keeps_still (by trivial)
    exact System.Contract.bind listed fun candidates => runs_recordedIdentity
  induction uids with
  | nil => exact nomatch member
  | cons other rest ih =>
    by_cases same : other = uid
    · subst same
      refine System.Contract.bind tested fun inUse => System.Contract.assume (fun _ => And.right) ?_
      rintro rfl
      exact System.Contract.pure fun w here => ⟨here.1, nofun⟩
    · have inRest : uid ∈ rest := (List.mem_cons.1 member).resolve_left (Ne.symm same)
      have looked : (tidily vm uid (Open vm uid)).Keeps (identityInUse other) :=
        Habit.keeps_identityInUse
      refine System.Contract.bind looked fun inUse => ?_
      cases inUse with
      | true => exact ih inRest
      | false => exact System.Contract.pure fun w here => ⟨here, nofun⟩

theorem runs_allocateIdentity
    (range : MICROVM_UID_BASE ≤ uid ∧ uid < MICROVM_UID_BASE + MICROVM_UIDS) :
    Runs vm uid (Kept (Open vm uid)) allocateIdentity fun _ => Kept (Open vm uid) := by
  have member : uid ∈ List.range' MICROVM_UID_BASE MICROVM_UIDS := List.mem_range'_1.2 range
  refine System.Contract.bind (runs_firstFree member) fun free => ?_
  refine System.Contract.assume (fun _ => And.right) fun found => ?_
  cases free with
  | none => exact absurd rfl found
  | some uid => exact System.Contract.pure fun _ => And.left

/-- The directory is there, with nothing to clean up. -/
structure Made (vm : Id) (w : World) : Prop where
  member : vm ∈ w.vms
  tidy : w.vars.Tidy

theorem runs_mkdirVm : Runs vm uid (Kept (Open vm uid)) (demand (ask (.mkdirVm vm)))
    fun _ => Made vm := by
  refine runs_demanded ?_
  refine System.Contract.perform (tidily vm uid (Open vm uid)).lasting
    (tidily vm uid (Open vm uid)).steady ?_
  rintro m w reply t inv here ⟨⟨_, ⟨done, _, rfl⟩ | ⟨failed, _⟩, rfl⟩, granted⟩
  · exact ⟨trivial, done, Finset.mem_insert_self vm w.vms, here.2⟩
  · cases failed.symm.trans (granted rfl here.1.2)

/-- With a file beside the record. -/
structure Staged (vm : Id) (w : World) : Prop extends Made vm w where
  written : w.temporary vm w.vars.self ≠ none

theorem runs_writeState {records : List (Key × Bytes)} :
    Runs vm uid (Made vm) (writeState vm records) fun _ => Kept fun _ _ => True := by
  have lasting : (parentVm (granting vm uid)).Lasting fun _ _ => True :=
    ⟨fun _ _ _ => trivial, fun _ _ _ _ _ => trivial⟩
  have written : Runs vm uid (Made vm) (ask (.writeTemporary vm (render records)))
      fun done w => done = true ∧ Staged vm w := by
    refine System.Contract.perform lasting ?_ ?_
    · rintro _ w t _ moves here
      obtain ⟨_, _, _, _, rfl⟩ := moves.1.untouched
      exact ⟨here.member, here.tidy⟩
    · rintro m w reply t inv here ⟨⟨_, ⟨content, rfl, whole⟩, rfl⟩, done⟩
      refine ⟨trivial, done, ⟨here.member, here.tidy⟩, ?_⟩
      show Function.update w.temporary vm _ vm w.vars.self ≠ none
      rw [Function.update_self, Function.update_self, whole done]
      exact nofun
  have steady : (parentVm (granting vm uid)).Steady (fun _ _ => True) (Staged vm) := by
    rintro _ w t _ moves here
    obtain ⟨_, _, _, _, rfl⟩ := moves.1.untouched
    exact ⟨⟨here.member, here.tidy⟩, here.written⟩
  have permitted : Runs vm uid (Staged vm) (ask (.chmodTemporary vm))
      fun done w => done = true ∧ Staged vm w := by
    refine System.Contract.perform lasting steady ?_
    rintro m w reply t inv here ⟨⟨_, rfl, rfl⟩, done⟩
    exact ⟨trivial, done, ⟨here.member, here.tidy⟩, here.written⟩
  have renamed : Runs vm uid (Staged vm) (ask (.renameState vm))
      fun done w => done = true ∧ Kept (fun _ _ => True) w := by
    refine System.Contract.perform lasting steady ?_
    rintro m w reply t inv here ⟨⟨_, ⟨done, _, _, _, rfl⟩ | ⟨failed, _⟩, rfl⟩, granted⟩
    · exact ⟨trivial, done, trivial, here.tidy⟩
    · cases failed.symm.trans (granted here.member here.written)
  refine System.Contract.bind (runs_demanded written) fun _ => ?_
  exact System.Contract.bind (runs_demanded permitted) fun _ => runs_demanded renamed

/-- A test of what the shell knows by itself. -/
theorem runs_check {test : Bool} {message : String} (holds : test = true) :
    Runs vm uid (Kept kind) (require (pure test) message) fun _ => Kept kind :=
  runs_granted (System.Contract.pure fun _ here => ⟨here, holds⟩)

theorem runs_create {fields : Fields} {w : World} (acceptable : Acceptable fields uid w) :
    Runs fields.id uid (Kept (Open fields.id uid)) (create fields) fun _ _ => False := by
  have image : ∀ path, Runs fields.id uid (Kept (Open fields.id uid)) (ask (.probe (.image path)))
      fun there w => Kept (Open fields.id uid) w ∧ there = true := fun path =>
    runs_asked (by trivial) fun _ _ _ _ _ granted => granted
  have absent : Runs fields.id uid (Kept (Open fields.id uid)) (do pure !(← ask (.isVm fields.id)))
      fun absent w => Kept (Open fields.id uid) w ∧ absent = true := by
    have asked : Runs fields.id uid (Kept (Open fields.id uid)) (ask (.isVm fields.id))
        fun there w => Kept (Open fields.id uid) w ∧ there = false := by
      refine runs_asked (by trivial) fun w reply t here performed _ => ?_
      obtain ⟨_, ⟨_, rfl⟩, _⟩ := performed
      exact decide_eq_false here.1.2
    refine System.Contract.bind asked fun there => System.Contract.assume (fun _ => And.right) ?_
    rintro rfl
    exact System.Contract.pure fun _ here => ⟨here.1, rfl⟩
  refine System.Contract.bind (runs_check acceptable.id) fun _ => ?_
  refine System.Contract.bind (runs_check acceptable.kernel) fun _ => ?_
  refine System.Contract.bind (runs_check acceptable.rootfs) fun _ => ?_
  refine System.Contract.bind (runs_check acceptable.vcpus) fun _ => ?_
  refine System.Contract.bind (runs_check acceptable.memoryMib) fun _ => ?_
  refine System.Contract.bind (runs_granted (image fields.kernel)) fun _ => ?_
  refine System.Contract.bind (runs_granted (image fields.rootfs)) fun _ => ?_
  refine System.Contract.bind (runs_allocateIdentity acceptable.range) fun _ => ?_
  refine System.Contract.bind (runs_granted absent) fun _ => ?_
  refine System.Contract.bind runs_mkdirVm fun _ => System.Contract.bind runs_writeState fun _ => ?_
  have shown : (tidily fields.id uid fun _ _ => True).Keeps (jsonVm fields.id) := Habit.keeps_jsonVm
  exact System.Contract.bind shown fun data => @runs_okReply fields.id uid Unit (fun _ _ => True) data

/-! ### A look at a microVM -/

/-- There is a record. -/
def There (vm : Id) (vms : Finset Id) (state : Id → Option Bytes) : Prop :=
  vm ∈ vms ∧ (state vm).isSome = true

theorem runs_inspect (valid : validId vm = true) :
    Runs vm uid (Kept (There vm)) (inspect vm) fun _ _ => False := by
  have named : vm ≠ [] := by
    rintro rfl
    cases valid
  have isVm : Runs vm uid (Kept (There vm)) (ask (.isVm vm))
      fun there w => Kept (There vm) w ∧ there = true := by
    refine runs_asked (by trivial) fun w reply t here performed _ => ?_
    obtain ⟨_, ⟨_, rfl⟩, _⟩ := performed
    exact decide_eq_true here.1.1
  have hasState : Runs vm uid (Kept (There vm)) (ask (.hasState vm))
      fun there w => Kept (There vm) w ∧ there = true := by
    refine runs_asked (by trivial) fun w reply t here performed _ => ?_
    obtain ⟨_, ⟨_, rfl⟩, _⟩ := performed
    exact here.1.2
  have shown : (tidily vm uid (There vm)).Keeps (jsonVm vm) := Habit.keeps_jsonVm
  rw [inspect, if_pos named]
  refine System.Contract.bind (runs_check valid) fun _ => ?_
  refine System.Contract.bind (runs_granted isVm) fun _ => ?_
  refine System.Contract.bind (runs_granted hasState) fun _ => ?_
  exact System.Contract.bind shown fun _ => runs_okReply

/-! ### To its end -/

/-- Every command can be done, and is granted. -/
def answers (uid : Nat) (ids : List Id) (once : ids.Nodup) : Answers where
  probe
    | .identity other => decide (other ≠ uid)
    | _ => true
  ids
  once

theorem serve_granted {ids : List Id} {once : ids.Nodup} (member : vm ∈ ids) (command : Command)
    (w : World) :
    (granting vm uid).exec command w (World.serve (answers uid ids once) command w).1
      (World.serve (answers uid ids once) command w).2 := by
  cases command with
  | probe probe =>
    cases probe with
    | identity other =>
      rintro rfl
      exact decide_eq_false (not_not_intro rfl)
    | lockFile | image => rfl
    | _ => trivial
  | lock | writeTemporary | chmodTemporary => rfl
  | mkdirVm other =>
    rintro rfl absent
    show (ite _ _ _ : Bool × World).1 = true
    rw [if_pos ⟨member, absent⟩]
  | renameState other =>
    intro there written
    obtain ⟨content, isContent⟩ := Option.ne_none_iff_exists'.1 written
    show (w.moveState other).1 = true
    simp only [World.moveState, isContent, if_pos there]
  | _ => trivial

/-- A request that goes well is accepted. -/
theorem accepts {kind : Finset Id → (Id → Option Bytes) → Prop} {self : Pid} {request : Bytes}
    {action : Action} {fields : Fields} {w : World}
    (parsed : parseRequest request = .ok (action, fields)) (here : kind w.vms w.state)
    (acts : Runs vm uid (Kept kind) (act action fields) fun _ _ => False) :
    Accepts (granting vm uid) (.request self request) w := by
  constructor
  · let ids := insert vm w.vms
    have listed : w.Listed (answers uid ids.toList ids.nodup_toList) := fun id member =>
      Finset.mem_toList.2 (Finset.mem_insert_of_mem member)
    have member : vm ∈ ids.toList := Finset.mem_toList.2 (Finset.mem_insert_self vm w.vms)
    obtain ⟨n, exit, t, ended⟩ := Program.advance_done
      (World.serve (answers uid ids.toList ids.nodup_toList)) (manager (.request self request)) w
    have served : (parentVm (granting vm uid)).Leads (manager (.request self request), w) _ :=
      (World.leads_after_of n listed (serve_granted member)).1
    rw [World.after, ended] at served
    exact ⟨exit, t, served⟩
  · have body : Runs vm uid (fun w => kind w.vms w.state) (do ask (.shell self); session request)
        fun _ => ends .ok :=
      (System.Contract.bind runs_shell fun _ => runs_session parsed acts).weaken (fun _ => id)
        (fun _ _ never => never.elim) fun _ _ => id
    have trap : ∀ exit : Exit, Runs vm uid (ends exit) (onExit (decide (exit = .failed)))
        fun _ => ends exit := by
      rintro exit m w inv ⟨rfl, tidy⟩
      have cleans : (tidily vm uid fun _ _ => True).Keeps (onExit false) :=
        Habit.keeps_onExit (Habit.keeps_cleanupStart_tidy (fun _ here => here.2)
          (.inr (.inr ⟨_, rfl, fun vars _ => vars.tidy_reset⟩))) nofun
      exact cleans.weaken (fun _ => id) (fun _ _ here => ⟨rfl, here.2⟩) (fun _ _ => id) m w inv
        ⟨trivial, tidy⟩
    have delivers : (parentVm (granting vm uid)).Delivers (fun _ _ => True)
        (manager (.request self request)) ends (w, w) := delivers_finish body trap trivial here
    have steady : ∀ exit, (parentVm (granting vm uid)).Steady (fun _ _ => True) (ends exit) := by
      rintro exit _ w t _ moves here
      obtain ⟨_, _, _, _, rfl⟩ := moves.1.untouched
      exact here
    intro exit t leads
    exact (delivers.leads (tidily vm uid kind).lasting steady leads).2.1

end Granted

/-! ## The creation as a whole -/

/-- A record that says what the creation asked for, and passes each check a start makes of a
record: the ranges, the identity, and the sum with the overhead of the VMM. -/
structure Full (fields : Fields) (content : Bytes) : Prop where
  status : stateValue .status content = ascii "created"
  kernel : stateValue .kernel content = fields.kernel
  rootfs : stateValue .rootfs content = fields.rootfs
  vcpus : stateValue .vcpus content = fields.vcpus
  memoryMib : stateValue .memoryMib content = fields.memoryMib
  vcpusRange : inRange (stateValue .vcpus content) 1 16 = true
  memoryRange : inRange (stateValue .memoryMib content) 128 16384 = true
  identity : number (stateValue .uid content) = true ∧ number (stateValue .gid content) = true ∧
    stateValue .uid content = stateValue .gid content
  memory : arith (stateValue .memoryMib content) ≠ none

theorem Numeral.inRange {text : Bytes} {low high : Nat} (numeral : Numeral text low high) :
    inRange text low high = true := by
  simp [Manager.inRange, number, numeral.nonempty, numeral.digits, numeral.low, numeral.high]

theorem Record.Valid.full {fields : Fields} {uid : Nat} (plain : fields.settings.Plain)
    (valid : Record.Valid ⟨.created, fields.settings, uid⟩) :
    Full fields (Record.text ⟨.created, fields.settings, uid⟩) := by
  have reads := stateValue_text valid.clean
  have vcpus := (reads .vcpus).trans (Record.value_vcpus _)
  have memoryMib := (reads .memoryMib).trans (Record.value_memoryMib _)
  have isUid := (reads .uid).trans (Record.value_uid _)
  have isGid := (reads .gid).trans (Record.value_gid _)
  refine ⟨reads .status, (reads .kernel).trans (Record.value_kernel _),
    (reads .rootfs).trans (Record.value_rootfs _), vcpus, memoryMib, ?_, ?_, ?_, ?_⟩
  · rw [vcpus]
    exact valid.vcpus.inRange
  · rw [memoryMib]
    exact valid.memoryMib.inRange
  · rw [isUid, isGid]
    exact ⟨number_decimal uid, number_decimal uid, rfl⟩
  · obtain ⟨_, n, isDecimal⟩ := plain
    rw [memoryMib, isDecimal, arith_decimal]
    exact nofun

/-- **A creation is atomic.**  In every store that a run from an empty one leads to, for every
creation of an id without an entry, with plain numbers and a record that can be written:
wherever the script ends (at its end or killed, but not while a command of `write_state` is
pending), and with or without the trap behind it, the id has no entry and the same request
is accepted wherever its preconditions hold, or the entry is complete and can be looked at.
Nothing changes for the other microVMs. -/
theorem creation_atomic {start : Parent} (alone : start.running = none)
    (empty : World.Empty start.state) {s : World} (reaches : start.Reaches ⟨s, none⟩)
    {self : Pid} {request : Bytes} {fields : Fields}
    (parsed : parseRequest request = .ok (.create, fields)) (absent : fields.id ∉ s.vms)
    (plain : fields.settings.Plain) {rest : Program Commands Exit} {t : World}
    (leads : (parentVm recorded).Leads (manager (.request self request), s) (rest, t))
    (between : ∀ command, rest.pending = some command → ¬ command.Records fields.id)
    {trap : Program Commands Exit} {u : World}
    (trapped : (parentVm unrestricted).Leads (manager .signalled, t) (trap, u)) :
    ((fields.id ∉ u.vms ∧ u.state fields.id = none ∧
        ∀ self' uid v, Acceptable fields uid v →
          Accepts (granting fields.id uid) (.request self' request) v) ∨
      (fields.id ∈ u.vms ∧ (∃ content, u.state fields.id = some content ∧ Full fields content) ∧
        ∀ self' uid request' fields', parseRequest request' = .ok (.inspect, fields') →
          fields'.id = fields.id → Accepts (granting fields.id uid) (.request self' request') u)) ∧
    ∀ other, other ≠ fields.id → (other ∈ u.vms ↔ other ∈ s.vms) ∧ u.state other = s.state other := by
  have good : World.Good anything s := (Parent.Reaches.keep alone empty .refl reaches).good
  have noState : s.state fields.id = none := by
    by_contra there
    obtain ⟨content, holds⟩ := Option.ne_none_iff_exists'.1 there
    exact absent (good.sound.known fields.id _ (World.store_record_of_state holds))
  have atomic := Registration.atomic_of_leads parsed noState leads between
  obtain ⟨sameVms, sameState⟩ := Registration.signalled_holds trapped
  obtain ⟨untouchedVms, untouchedState⟩ | ⟨named, uid, valid, completeVms, completeState⟩ := atomic
  · have vms := sameVms.trans untouchedVms
    have state := sameState.trans untouchedState
    refine ⟨.inl ⟨vms ▸ absent, state ▸ noState, fun self' uid v acceptable => ?_⟩,
      fun other _ => ⟨by rw [vms], congrFun state other⟩⟩
    have opened : Granted.Open fields.id uid v.vms v.state := ⟨acceptable.unrecorded, acceptable.absent⟩
    exact Granted.accepts parsed opened (Granted.runs_create acceptable)
  · have vms := sameVms.trans completeVms
    have state := sameState.trans completeState
    have member : fields.id ∈ u.vms := vms ▸ Finset.mem_insert_self _ _
    have holds : u.state fields.id = some (Record.text ⟨.created, fields.settings, uid⟩) := by
      rw [state, Function.update_self]
    refine ⟨.inr ⟨member, ⟨_, holds, valid.full plain⟩, ?_⟩, fun other differs => ⟨?_, ?_⟩⟩
    · intro self' uid' request' fields' parsed' same
      have there : Granted.There fields.id u.vms u.state := ⟨member, by rw [holds]; rfl⟩
      refine Granted.accepts parsed' there ?_
      rw [← same] at named ⊢
      exact Granted.runs_inspect named
    · rw [vms, Finset.mem_insert]
      exact ⟨fun here => here.resolve_left differs, .inr⟩
    · rw [state, Function.update_of_ne differs]

/-- Records that are written, where every command can be done. -/
def recording (answers : Answers) : Rehearsal recorded where
  answers
  serves
    | .renameState id, w => (w.moveState id).1
    | _, _ => true
  launches _ _ _ _ := true
  served command w _ checked := by
    cases command with
    | renameState id => exact fun _ => checked
    | writeTemporary | chmodTemporary => exact fun _ => rfl
    | _ => trivial
  launched command _ _ _ _ _ _ _ launch := by
    cases command with
    | spawnLogger | spawnJailer => trivial
    | _ => cases launch
  happened _ _ _ _ := trivial

/-- The script is about to read a record. -/
def Two.reading : Program Commands Exit → Bool
  | .call (.stateValue _ _) _ => true
  | _ => false

theorem Two.reading_pending {program : Program Commands Exit} (is : Two.reading program = true)
    {id : Id} {command : Command} (pending : program.pending = some command) :
    ¬ command.Records id := by
  cases program with
  | done exit => cases is
  | call request next =>
    obtain rfl := Option.some.inj pending
    revert is
    show reading (.call (request : Command) next) = true → ¬ Command.Records id request
    cases (request : Command) with
    | stateValue key other => exact fun _ => not_false
    | _ => exact nofun

/-- A creation that ends behind its record and before its reply. -/
theorem creation_atomic_unanswered : ∃ (rest : Program Commands Exit) (t : World),
    (parentVm recorded).Leads (manager (.request 7 Two.createA), Two.empty) (rest, t) ∧
    rest.value? = none ∧ ∃ content, t.state (ascii "a") = some content ∧
      Full ⟨ascii "a", ascii "/kernel", ascii "/rootfs", ascii "1", ascii "128", ascii "0"⟩ content := by
  have played : ((recording Two.answers).plays
      (Scene.calling ⟨Two.empty, none, []⟩ (.request 7 Two.createA)) [.serves 15]).any (fun scene =>
        scene.running.any (fun running => Two.reading running.2 && running.2.value?.isNone) &&
          decide (ascii "a" ∈ scene.world.vms)) = true := by decide +kernel
  obtain ⟨scene, plays, holds⟩ := (Option.any_eq_true _ _).1 played
  obtain ⟨running, member⟩ := (Bool.and_eq_true _ _).mp holds
  obtain ⟨⟨call, rest⟩, isRunning, holds⟩ := (Option.any_eq_true _ _).1 running
  obtain ⟨reading, unfinished⟩ := (Bool.and_eq_true _ _).mp holds
  have ready : (recording Two.answers).Ready ⟨Two.empty, none⟩ ⟨Two.empty, none, []⟩ := Two.ready
  obtain ⟨_, rest', running', leads⟩ := ready.begun rfl (by decide) plays
  cases isRunning.symm.trans running'
  have atomic := (@creation_atomic ⟨Two.empty, none⟩ rfl Two.empty_empty _ .refl _ _ _ Two.createA_parsed
    (Finset.notMem_empty _) ⟨⟨1, rfl⟩, 128, rfl⟩ _ _ leads
    (fun command pending => Two.reading_pending reading pending) _ _ .refl).1
  obtain ⟨absent, _⟩ | ⟨_, full, _⟩ := atomic
  · exact absurd (of_decide_eq_true member) absent
  · exact ⟨rest, scene.world, leads, Option.isNone_iff_eq_none.1 unfinished, full⟩

/-! ## Between the directory and the record -/

/-- The script is killed just behind `mkdir`, and the id is in use by nothing. -/
theorem killed_half_registered :
    ¬ ∀ (start : Parent) (s : World) (self : Pid) (request : Bytes) (fields : Fields)
      (rest : Program Commands Exit) (t : World), start.running = none → World.Empty start.state →
      start.Reaches ⟨s, none⟩ → parseRequest request = .ok (.create, fields) → fields.id ∉ s.vms →
      (parentVm unrestricted).Leads (manager (.request self request), s) (rest, t) →
      fields.id ∉ t.vms ∨ ∃ content, t.state fields.id = some content := by
  intro all
  have played : ((freely Two.answers).plays
      (Scene.calling ⟨Two.empty, none, []⟩ (.request 7 Two.createA)) [.serves 10]).any (fun scene =>
        decide (ascii "a" ∈ scene.world.vms) && (scene.world.state (ascii "a")).isNone) = true := by
    decide +kernel
  obtain ⟨scene, plays, holds⟩ := (Option.any_eq_true _ _).1 played
  obtain ⟨member, unrecorded⟩ := (Bool.and_eq_true _ _).mp holds
  have ready : (freely Two.answers).Ready ⟨Two.empty, none⟩ ⟨Two.empty, none, []⟩ := Two.ready
  obtain ⟨_, rest, _, leads⟩ := ready.begun rfl (by decide) plays
  obtain absent | ⟨content, there⟩ := all ⟨Two.empty, none⟩ Two.empty 7 Two.createA _ rest
    scene.world rfl Two.empty_empty .refl Two.createA_parsed (Finset.notMem_empty _) leads
  · exact absent (of_decide_eq_true member)
  · cases (Option.isNone_iff_eq_none.1 unrecorded).symm.trans there

end Luhmen.Manager
