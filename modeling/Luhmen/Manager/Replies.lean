/-
# Manager.Replies -- every reply is one whole line

What a request prints up to its first line break is a whole reply (`Answered`), and by its end
there is one.  `Whole` is that for any moment of it: a line break comes only behind a reply.
-/
import Luhmen.Manager.ReplyTexts
import Luhmen.Manager.FailedStart

set_option autoImplicit false

namespace Luhmen.Manager

open Luhmen.Theory

/-! ## Conditions -/

/-- PIDs are Linux's. -/
def numbered : Conditions where
  exec command _ reply _ :=
    match command, reply with
    | .spawnJailer _ _ _ _ _, some pid => pid ≤ PID_MAX_LIMIT
    | _, _ => True
  env _ _ := True

/-- So they are, CPUs and MiB are machine numbers, and what the variables name can be
removed. -/
def answering : Conditions where
  exec command w reply _ :=
    match command, reply with
    | .spawnJailer _ _ _ _ _, some pid => pid ≤ PID_MAX_LIMIT
    | .cpuCount, reply | .memTotal, reply => value reply < 0x100000000
    | .removeStaged id, removed => w.vars.overlay = some id → removed = true
    | .removePipe id, removed => w.vars.logPipe = some id → removed = true
    | .removeJail id, removed => w.vars.jail = some id → removed = true
    | _, _ => True
  env _ _ := True

theorem answering_meets : answering.Meets spoken where
  exec careful := careful.elim
  env careful := careful.elim
  look careful := careful.elim
  stops careful := careful.elim
  spawns _ _ _ _ _ _ _ _ small := small

theorem step_under {conditions other : Conditions}
    {x y : Program Commands Exit × (parentVm conditions).State}
    (step : (parentVm conditions).Step x y)
    (exec : ∀ command reply, conditions.exec command x.2 reply y.2 → other.exec command x.2 reply y.2)
    (env : ∀ w t, conditions.env w t → other.env w t) : (parentVm other).Step x y := by
  cases step with
  | call performed => exact .call ⟨performed.1, exec _ _ performed.2⟩
  | env moves => exact .env ⟨moves.1, env _ _ moves.2⟩

/-- A stretch of a run meets other conditions as well, if all that is done on it does. -/
theorem leads_under {conditions other : Conditions} {x y : Program Commands Exit × World}
    (leads : (parentVm conditions).Leads x y)
    (exec : ∀ u v : Program Commands Exit × World, (parentVm conditions).Leads x u →
      (parentVm conditions).Leads x v → ∀ command reply,
      conditions.exec command u.2 reply v.2 → other.exec command u.2 reply v.2)
    (env : ∀ w t, conditions.env w t → other.env w t) : (parentVm other).Leads x y := by
  induction leads with
  | refl => exact .refl
  | tail front step ih => exact ih.tail (step_under step (exec _ _ front (front.tail step)) env)

/-- Commands in worlds of this kind. -/
def Conditions.within (conditions : Conditions) (P : World → Prop) : Conditions where
  exec command w reply w' := conditions.exec command w reply w' ∧ P w ∧ P w'
  env := conditions.env

/-- A request, in worlds whose records can be shown. -/
def heard : Conditions :=
  answering.within (World.Good spoken)

namespace World

/-- A line break comes only behind a reply. -/
def Whole (F : Type) (w : World) : Prop :=
  newline ∈ w.out → Answered F w.out

end World

/-- Commands that leave what was printed. -/
def Command.Silent : Command → Prop
  | .shell _ | .print _ => False
  | _ => True

theorem Command.Still.silent {command : Command} (still : command.Still) : command.Silent := by
  cases command with
  | shell | print => exact still.elim
  | _ => trivial

theorem World.exec_silent {command : Command} {w t : World} {reply : command.Reply}
    (silent : command.Silent) (performed : exec command w reply t) : t.out = w.out := by
  obtain ⟨after, performed, rfl⟩ := performed
  show after.out = w.out
  cases command with
  | shell | print => exact silent.elim
  | spawnJailer =>
    obtain ⟨_, _, _, _, _, rfl⟩ | ⟨_, rfl⟩ := performed <;> rfl
  | assign =>
    obtain rfl := performed
    rfl
  | _ => exact effect_out (by trivial) performed

/-- No command takes a record away. -/
theorem World.exec_recorded {command : Command} {w t : World} {reply : command.Reply} {id : Id}
    (performed : exec command w reply t) (there : (w.state id).isSome) : (t.state id).isSome := by
  by_cases registers : command.Registers
  · obtain ⟨after, performed, rfl⟩ := performed
    show (after.state id).isSome
    cases command with
    | mkdirVm =>
      obtain ⟨_, _, rfl⟩ | ⟨_, rfl⟩ := performed <;> exact there
    | renameState other =>
      obtain ⟨_, _, content, _, rfl⟩ | ⟨_, rfl⟩ := performed
      · show (Function.update w.state other (some content) id).isSome
        by_cases same : id = other
        · rw [same, Function.update_self]
          rfl
        · rw [Function.update_of_ne same]
          exact there
      · exact there
    | _ => exact registers.elim
  · have same := World.exec_holds registers performed ⟨rfl, rfl⟩
    rw [same.2]
    exact there

/-- An inspection of all microVMs finds a record in each directory. -/
def Listable (request : Bytes) (vms : Finset Id) (state : Id → Option Bytes) : Prop :=
  ∀ fields, parseRequest request = .ok (.inspect, fields) → fields.id = [] →
    ∀ id ∈ vms, (state id).isSome

namespace Replies

open Habit Conduct

variable {F : Type} {α : Type}

/-- What holds at the ways out of the script: a reply is there, or it failed before any. -/
def left (F : Type) (exit : Exit) (w : World) : Prop :=
  Answered F w.out ∨ (exit = .failed ∧ w.out = [])

abbrev Runs (F : Type) (P : World → Prop) (block : Shell α) (Q : α → World → Prop) : Prop :=
  System.Contract (S := parentVm heard) (fun _ w => World.Whole F w) P block Q (left F)

theorem whole_of_oneLine {w : World} (oneLine : newline ∉ w.out) : World.Whole F w :=
  fun member => absurd member oneLine

theorem whole_of_answered {w : World} (answered : Answered F w.out) : World.Whole F w :=
  fun _ => answered

theorem steady_out {fact : World → Prop} (happens : ∀ w t, World.Env w t → fact w → fact t)
    (printed : Bytes → Prop) : (parentVm heard).Steady (fun _ w => World.Whole F w)
      fun w => printed w.out ∧ fact w :=
  fun _ w t _ moves here =>
    ⟨moves.1.untouched.out ▸ here.1, happens w t moves.1 here.2⟩

theorem lasting_whole : (parentVm heard).Lasting fun _ w => World.Whole F w where
  mark _ _ whole := whole
  env _ _ _ whole moves := by
    unfold World.Whole
    rw [moves.1.untouched.out]
    exact whole

/-- This much was printed, and a fact holds that only some commands keep. -/
abbrev telling (F : Type) (said : Bytes) (oneLine : newline ∉ said) {fact : World → Prop}
    {may : Command → Prop} (happens : ∀ w t, World.Env w t → fact w → fact t)
    (performs : ∀ command, may command → ∀ w reply t, fact w → World.exec command w reply t → fact t)
    (still : ∀ command : Command, command.Still → may command) : Habit where
  conditions := heard
  inv _ w := World.Whole F w
  keeps w := w.out = said ∧ fact w
  leaves := left F
  may command := may command ∧ command.Silent
  lasting := lasting_whole
  steady := steady_out happens (· = said)
  performs command isAllowed _ w reply t _ here performed := by
    have after : t.out = said := (World.exec_silent isAllowed.2 performed.1).trans here.1
    exact ⟨whole_of_oneLine (after ▸ oneLine), after,
      performs command isAllowed.1 w reply t here.2 performed.1⟩
  still command still' := ⟨still command still', still'.silent⟩

/-- What comes behind the reply. -/
abbrev told (F : Type) : Habit where
  conditions := heard
  inv _ w := World.Whole F w
  keeps w := Answered F w.out
  leaves _ w := Answered F w.out
  may command := ∀ self, command ≠ .shell self
  lasting := lasting_whole
  steady _ w t _ moves here := by
    have same := moves.1.untouched.out
    exact (congrArg (Answered F) same).mpr here
  performs command isAllowed _ w reply t _ here performed := by
    suffices answered : Answered F t.out from ⟨whole_of_answered answered, answered⟩
    cases command with
    | shell self => exact absurd rfl (isAllowed self)
    | print text =>
      obtain ⟨⟨_, rfl, rfl⟩, _⟩ := performed
      exact here.append text
    | _ => exact (World.exec_silent (by trivial) performed.1) ▸ here
  still command still' self := by
    rintro rfl
    exact still'.elim

/-- The print that makes the reply whole. -/
theorem runs_answer {said text : Bytes} {fact : World → Prop}
    (happens : ∀ w t, World.Env w t → fact w → fact t) (answers : Answered F (said ++ text)) :
    Runs F (fun w => w.out = said ∧ fact w) (ask (.print text)) fun _ w => Answered F w.out := by
  refine System.Contract.perform lasting_whole (steady_out happens (· = said)) ?_
  rintro m w reply t whole ⟨rfl, _⟩ ⟨⟨_, rfl, rfl⟩, _⟩
  exact ⟨whole_of_answered answers, answers⟩

section Silent

variable {fact : World → Prop} {may : Command → Prop}
  (happens : ∀ w t, World.Env w t → fact w → fact t)
  (performs : ∀ command, may command → ∀ w reply t, fact w → World.exec command w reply t → fact t)
  (still : ∀ command : Command, command.Still → may command)

/-- Before anything was printed the script can fail and refuse. -/
abbrev silently (F : Type) (resets : may (.assign Vars.reset)) : Conduct where
  toHabit := telling F [] List.not_mem_nil happens performs still
  failed w here := .inr ⟨rfl, here.1⟩
  refuses α message sayable := by
    have cleans : (telling F [] List.not_mem_nil happens performs still).Keeps cleanupStart :=
      Habit.keeps_cleanupStart (fun _ here => .inr ⟨rfl, here.1⟩) ⟨resets, trivial⟩
    refine System.Contract.bind cleans fun _ => ?_
    refine System.Contract.bind (runs_answer happens (answered_errorText sayable)) fun _ => ?_
    exact System.Contract.throw fun _ => .inl

end Silent

/-! ## The trap -/

/-- Nothing was printed yet, and the variables are these. -/
abbrev cleaning (F : Type) (vars : Vars) : Habit where
  conditions := heard
  inv _ w := World.Whole F w
  keeps w := w.out = [] ∧ w.vars = vars
  leaves _ w := Answered F w.out
  may := Command.Childless
  lasting := lasting_whole
  steady _ w t _ moves here :=
    have inherits := moves.1.inherits
    ⟨inherits.out.trans here.1, inherits.vars.trans here.2⟩
  performs command childless _ w reply t _ here performed := by
    have inherits := World.exec_inherits childless performed.1
    have silent : t.out = [] := inherits.out.trans here.1
    exact ⟨whole_of_oneLine (silent ▸ List.not_mem_nil), silent, inherits.vars.trans here.2⟩
  still _ := Command.Still.childless

/-- What the variables name is removed. -/
theorem keeps_removes {vars : Vars} {command : Command} {removes : command.Reply → Prop}
    (still : command.Still)
    (done : ∀ w reply t, w.vars = vars → answering.exec command w reply t → removes reply) :
    (cleaning F vars).Runs (cleaning F vars).keeps (ask command)
      fun reply w => (cleaning F vars).keeps w ∧ removes reply := by
  refine System.Contract.perform lasting_whole (cleaning F vars).steady ?_
  intro m w reply t whole here performed
  have after := (cleaning F vars).performs command still.childless m w reply t whole here performed
  exact ⟨after.1, after.2, done w reply t here.2 performed.2.1⟩

theorem keeps_removed {vars : Vars} {test : Shell Bool}
    (removes : (cleaning F vars).Runs (cleaning F vars).keeps test
      fun removed w => (cleaning F vars).keeps w ∧ removed = true) :
    (cleaning F vars).Keeps (demand test) := by
  refine System.Contract.bind removes fun removed => System.Contract.assume (fun _ => And.right) ?_
  rintro rfl
  exact System.Contract.pure fun _ => And.left

theorem keeps_cleanupFiles {vars : Vars} : (cleaning F vars).Keeps (cleanupFiles vars) := by
  refine keeps_bind ?_ fun _ => keeps_bind ?_ fun _ => ?_
  · cases named : vars.overlay with
    | none => exact keeps_pure
    | some vm =>
      refine keeps_removed (@keeps_removes F vars (.removeStaged vm) (· = true) (by trivial) ?_)
      exact fun w reply t is done => done (is ▸ named)
  · cases named : vars.logPipe with
    | none => exact keeps_pure
    | some vm =>
      refine keeps_removed (@keeps_removes F vars (.removePipe vm) (· = true) (by trivial) ?_)
      exact fun w reply t is done => done (is ▸ named)
  · cases named : vars.jail with
    | none => exact keeps_pure
    | some vm =>
      refine keeps_provided (keeps_removed ?_)
      refine @keeps_removes F vars (.removeJail vm) (· = true) (by trivial) ?_
      exact fun w reply t is done => done (is ▸ named)

/-- Where nothing was printed yet `on_exit` answers. -/
theorem runs_onExit : (told F).Runs (fun w => w.out = [] ∧ True) (onExit true)
    fun _ w => Answered F w.out := by
  have vars : (told F).Runs (fun w => w.out = [] ∧ True) (ask .vars)
      fun vars w => (cleaning F vars).keeps w := by
    refine System.Contract.perform lasting_whole (steady_out (fun _ _ _ => id) (· = [])) ?_
    rintro m w reply t whole here ⟨⟨_, ⟨rfl, rfl⟩, rfl⟩, _⟩
    exact ⟨whole, here.1, rfl⟩
  have cleans : (told F).Runs (fun w => w.out = [] ∧ True) cleanupStart
      fun _ w => w.out = [] ∧ True := by
    refine System.Contract.bind vars fun vars => ?_
    have habit : ∀ {block : Shell Unit}, (cleaning F vars).Keeps block →
        (told F).Runs (cleaning F vars).keeps block fun _ => (cleaning F vars).keeps := id
    refine System.Contract.bind (habit (keeps_forSome fun pid => keeps_cleanupProcess)) fun _ => ?_
    have ended : (cleaning F vars).Keeps (terminateCgroup false vars.cgroup vars.self) :=
      keeps_terminateCgroup
    refine System.Contract.bind ended fun _ => ?_
    refine System.Contract.bind (habit (keeps_forSome fun pid => keeps_still (by trivial))) fun _ => ?_
    refine System.Contract.bind (habit keeps_cleanupFiles) fun _ => ?_
    refine System.Contract.perform lasting_whole (cleaning F vars).steady ?_
    rintro m w reply t whole here ⟨⟨_, rfl, rfl⟩, _⟩
    exact ⟨whole, here.1, trivial⟩
  refine System.Contract.bind cleans fun _ => ?_
  exact runs_answer (fun _ _ _ => id) (answered_errorText (by decide))

/-- Behind the script there is a reply, if there was none before. -/
theorem runs_trap (exit : Exit) : (told F).Runs (left F exit) (onExit (decide (exit = .failed)))
    fun _ w => Answered F w.out := by
  rintro m w whole (answered | ⟨rfl, silent⟩)
  · have cleans : (told F).Keeps cleanupStart :=
      keeps_cleanupStart (fun _ => id) fun _ => nofun
    have ended : (told F).Keeps (onExit (decide (exit = .failed))) :=
      keeps_onExit cleans fun _ _ => nofun
    exact ended m w whole answered
  · exact runs_onExit m w whole ⟨silent, trivial⟩

/-! ## Records -/

section Records

variable {said : Bytes} {oneLine : newline ∉ said} {vms : Finset Id} {state : Id → Option Bytes}

/-- This much was printed, and the directories and the records are these. -/
def Seen (said : Bytes) (vms : Finset Id) (state : Id → Option Bytes) (w : World) : Prop :=
  w.out = said ∧ w.Holds vms state

abbrev seeing (F : Type) {said : Bytes} (oneLine : newline ∉ said) (vms : Finset Id)
    (state : Id → Option Bytes) : Habit :=
  @telling F said oneLine (World.Holds vms state) (fun command => ¬ command.Registers)
    (fun _ _ env holds => env.holds holds)
    (fun _ not _ _ _ holds performed => World.exec_holds not performed holds)
    fun _ => Command.Still.unregistering

/-- What a command tells of a store like this. -/
theorem runs_tells {command : Command} {fact : command.Reply → Prop} (oneLine : newline ∉ said)
    (still : command.Still)
    (tells : ∀ w reply t u, w.Good spoken → w.Holds vms state → World.effect command w reply t →
      answering.exec command w reply u → fact reply) :
    Runs F (Seen said vms state) (ask command) fun reply w => Seen said vms state w ∧ fact reply := by
  refine System.Contract.perform lasting_whole (seeing F oneLine vms state).steady ?_
  intro m w reply t whole here performed
  have after := (seeing F oneLine vms state).performs command
    ((seeing F oneLine vms state).still _ still) m w reply t whole here performed
  obtain ⟨⟨middle, does, rfl⟩, answers, good, _⟩ := performed
  exact ⟨after.1, after.2, tells w reply middle _ good here.2 does answers⟩

/-- A field of a record, as it is read. -/
theorem value_then {id : Id} {content : Bytes} {key : Key} {rest : Bytes → Shell α}
    {Q : α → World → Prop} (oneLine : newline ∉ said) (there : state id = some content)
    (then' : Tells id content →
      Runs F (Seen said vms state) (rest (stateValue key content)) Q) :
    Runs F (Seen said vms state) (ask (.stateValue key id) >>= rest) Q := by
  have value : Runs F (Seen said vms state) (ask (.stateValue key id)) fun text w =>
      Seen said vms state w ∧ text = stateValue key content ∧ Tells id content := by
    refine runs_tells oneLine (by trivial) ?_
    rintro w _ t u good ⟨_, rfl⟩ ⟨rfl, rfl⟩ _
    exact ⟨by rw [there]; rfl, good.tells there⟩
  refine System.Contract.bind value fun text => System.Contract.assume (fun _ => And.right) ?_
  rintro ⟨rfl, tells⟩
  exact (then' tells).from_pre fun _ => And.left

/-- What is shown of a record. -/
theorem runs_jsonVm {id : Id} {content : Bytes} {levels : Nat} (oneLine : newline ∉ said)
    (there : state id = some content) :
    Runs F (Seen said vms state) (jsonVm id) fun text w =>
      Seen said vms state w ∧ Data F (levels + 1) 300 text := by
  refine value_then oneLine there fun tells => value_then oneLine there fun _ => ?_
  refine value_then oneLine there fun _ => value_then oneLine there fun _ => ?_
  refine value_then oneLine there fun _ => ?_
  have matched : (seeing F oneLine vms state).Keeps (runs (stateValue .status content)
      (stateValue .pid content) (stateValue .startTime content)) := keeps_runs
  refine System.Contract.bind matched fun running => ?_
  refine value_then oneLine there fun _ => value_then oneLine there fun _ => ?_
  exact System.Contract.pure fun w here => ⟨here, tells.data running⟩

/-- Data are the reply. -/
theorem runs_reply {text : Bytes} {limit : Nat} (data : Data F 126 limit text)
    (short : limit ≤ 1000000) :
    Runs F (Seen [] vms state) (okReply text : Shell α) fun _ _ => False := by
  have answers : Answered F ([] ++ okText text) := answered_okText (data.mono short)
  have printed : Runs F (Seen [] vms state) (ask (.print (okText text)))
      fun _ w => Answered F w.out := runs_answer (fun _ _ env holds => env.holds holds) answers
  exact System.Contract.bind printed fun _ => System.Contract.throw fun _ => .inl

/-- A record is shown, and that is the reply. -/
theorem runs_shows {id : Id} : Runs F (fun w => w.out = [] ∧ (w.state id).isSome)
    (do okReply (← jsonVm id) : Shell α) fun _ _ => False := by
  rintro m w whole ⟨silent, there⟩
  obtain ⟨content, there⟩ := Option.isSome_iff_exists.1 there
  have shown : Runs F (Seen [] w.vms w.state) (jsonVm id) fun text u =>
      Seen [] w.vms w.state u ∧ Data F 126 300 text := runs_jsonVm List.not_mem_nil there
  suffices shows : Runs F (Seen [] w.vms w.state) (do okReply (← jsonVm id) : Shell α)
      fun _ _ => False from shows m w whole ⟨silent, rfl, rfl⟩
  refine System.Contract.bind shown fun text => System.Contract.assume (fun _ => And.right) fun data => ?_
  exact (runs_reply data (by decide)).from_pre fun _ => And.left

/-! ## Listings -/

/-- What was printed of a listing. -/
def listing (texts : List Bytes) : Bytes :=
  ascii "\x7b\"version\":1,\"ok\":true,\"data\":[" ++ [comma].intercalate texts

theorem listing_ended (texts : List Bytes) :
    listing texts ++ ascii "]\x7d\n" = okText (Json.arrayText texts) := by
  simp only [listing, okText, Json.arrayText, List.append_assoc, List.cons_append, List.nil_append]
  rfl

theorem listing_line {levels limit : Nat} {texts : List Bytes}
    (all : ∀ text ∈ texts, Data F levels limit text) : newline ∉ listing texts := by
  have array := (data_arrayText all).line
  have head : newline ∉ ascii "\x7b\"version\":1,\"ok\":true,\"data\":[" := by decide
  rw [listing, List.mem_append]
  rintro (member | member)
  · exact head member
  · exact array (List.mem_cons_of_mem _ (List.mem_append_left _ member))

/-- One more text, with a comma where it is not the first. -/
theorem listing_append (texts : List Bytes) (text : Bytes) :
    listing texts ++ (if texts.isEmpty then [] else ascii ",") ++ text =
      listing (texts ++ [text]) := by
  cases texts with
  | nil => simp [listing]
  | cons first rest =>
    rw [listing, listing, intercalate_append (List.cons_ne_nil _ _) (List.cons_ne_nil _ _)]
    simp only [List.isEmpty_cons, Bool.false_eq_true, if_false, List.append_assoc,
      List.intercalate_singleton]
    rfl

/-- As many as there are identities. -/
theorem few {w : World} (good : w.Good spoken) {ids : List Id} (once : ids.Nodup)
    (there : ∀ id ∈ ids, (w.state id).isSome) : ids.length ≤ 1000 := by
  let uid (id : Id) : Nat := ((w.store.record id).map Record.uid).getD 0
  have recorded : ∀ id ∈ ids, ∃ record, w.store.record id = some record ∧ uid id = record.uid := by
    intro id member
    obtain ⟨content, holds⟩ := Option.isSome_iff_exists.1 (there id member)
    have record := World.store_record_of_state holds
    exact ⟨_, record, by simp only [uid, record, Option.map_some, Option.getD_some]⟩
  have distinct : (ids.map uid).Nodup := by
    refine once.map_on fun a inA b inB same => ?_
    obtain ⟨one, isOne, first⟩ := recorded a inA
    obtain ⟨other, isOther, second⟩ := recorded b inB
    exact good.sound.distinct a b one other isOne isOther (first.symm.trans (same.trans second))
  have range : ids.map uid ⊆ List.range' 60000 1000 := by
    intro n member
    obtain ⟨id, inIds, rfl⟩ := List.mem_map.1 member
    obtain ⟨record, is, same⟩ := recorded id inIds
    have valid := good.sound.valid id record is
    rw [List.mem_range'_1, same]
    exact ⟨valid.uidLow, Nat.lt_succ_of_le valid.uidHigh⟩
  have count := (List.subperm_of_subset distinct range).length_le
  rwa [List.length_map, List.length_range'] at count

/-- The print of a piece. -/
theorem runs_piece {text : Bytes} (oneLine : newline ∉ said ++ text) :
    Runs F (Seen said vms state) (ask (.print text)) fun _ => Seen (said ++ text) vms state := by
  refine System.Contract.perform lasting_whole
    (steady_out (fun _ _ env holds => env.holds holds) (· = said)) ?_
  rintro m w reply t whole ⟨rfl, holds⟩ ⟨⟨_, rfl, rfl⟩, _⟩
  exact ⟨whole_of_oneLine oneLine, rfl, holds⟩

theorem runs_require {P : World → Prop} {test : Shell Bool} {message : String}
    (granted : Runs F P test fun reply w => P w ∧ reply = true) :
    Runs F P (require test message) fun _ => P := by
  refine System.Contract.bind granted fun reply => System.Contract.assume (fun _ => And.right) ?_
  rintro rfl
  exact System.Contract.pure fun _ => And.left

theorem runs_inspectEach {ids : List Id} {texts : List Bytes}
    (recorded : ∀ id ∈ ids, (state id).isSome) (all : ∀ text ∈ texts, Data F 125 300 text) :
    Runs F (Seen (listing texts) vms state) (inspectEach ids texts.isEmpty) fun _ w =>
      ∃ further, ((∀ text ∈ further, Data F 125 300 text) ∧
        further.length ≤ texts.length + ids.length) ∧ Seen (listing further) vms state w := by
  induction ids generalizing texts with
  | nil => exact System.Contract.pure fun w here => ⟨texts, ⟨all, le_rfl⟩, here⟩
  | cons id rest ih =>
    have oneLine := listing_line all
    have others := fun id member => recorded id (List.mem_cons_of_mem _ member)
    have isThere : (seeing F oneLine vms state).Keeps (ask (.isVm id)) := keeps_still (by trivial)
    refine System.Contract.bind isThere fun there => ?_
    split
    case isFalse =>
      refine (ih others all).weaken (fun _ here => here) (fun _ w here => ?_) fun _ _ here => here
      obtain ⟨further, ⟨fine, count⟩, here⟩ := here
      exact ⟨further, ⟨fine, count.trans (Nat.add_le_add_left (Nat.le_succ _) _)⟩, here⟩
    case isTrue =>
      obtain ⟨content, is⟩ := Option.isSome_iff_exists.1 (recorded id List.mem_cons_self)
      have hasState : Runs F (Seen (listing texts) vms state) (ask (.hasState id)) fun reply w =>
          Seen (listing texts) vms state w ∧ reply = true := by
        refine runs_tells oneLine (by trivial) ?_
        rintro w _ t u _ ⟨_, rfl⟩ ⟨rfl, rfl⟩ _
        rw [is]
        rfl
      refine System.Contract.bind (runs_require hasState) fun _ => ?_
      let separator : Bytes := if texts.isEmpty then [] else ascii ","
      have separated : newline ∉ listing texts ++ separator := by
        rw [List.mem_append]
        rintro (member | member)
        · exact oneLine member
        · cases empty : texts.isEmpty <;> simp only [separator, empty] at member <;> revert member <;> decide
      have comma : Runs F (Seen (listing texts) vms state)
          (provided (!texts.isEmpty) (ask (.print (ascii ","))))
          fun _ => Seen (listing texts ++ separator) vms state := by
        cases texts with
        | nil =>
          refine System.Contract.pure fun w here => ?_
          exact (List.append_nil (listing [])).symm ▸ here
        | cons first others => exact runs_piece separated
      refine System.Contract.bind comma fun _ => ?_
      have shown : Runs F (Seen (listing texts ++ separator) vms state) (jsonVm id) fun text w =>
          Seen (listing texts ++ separator) vms state w ∧ Data F 125 300 text :=
        runs_jsonVm separated is
      refine System.Contract.bind shown fun text => ?_
      refine System.Contract.assume (fun _ => And.right) fun data => ?_
      have same := listing_append texts text
      have longer : ∀ other ∈ texts ++ [text], Data F 125 300 other :=
        List.forall_mem_append.2 ⟨all, List.forall_mem_singleton.2 data⟩
      have printed : Runs F (Seen (listing texts ++ separator) vms state) (ask (.print text))
          fun _ => Seen (listing (texts ++ [text])) vms state :=
        same ▸ runs_piece (same ▸ listing_line longer)
      refine System.Contract.bind (printed.from_pre fun _ => And.left) fun _ => ?_
      have notFirst : (texts ++ [text]).isEmpty = false := by cases texts <;> rfl
      have further := ih others longer
      rw [notFirst] at further
      refine further.weaken (fun _ here => here) (fun _ w here => ?_) fun _ _ here => here
      obtain ⟨further, ⟨fine, count⟩, here⟩ := here
      rw [List.length_append, List.length_singleton, Nat.add_assoc, Nat.add_comm 1] at count
      exact ⟨further, ⟨fine, count⟩, here⟩

/-- All microVMs, where each directory has its record. -/
theorem runs_inspect_all (recorded : ∀ id ∈ vms, (state id).isSome) :
    Runs F (Seen [] vms state) (inspect []) fun _ w => Answered F w.out := by
  have none : ∀ text ∈ ([] : List Bytes), Data F 125 300 text := fun _ member => nomatch member
  have head : Runs F (Seen [] vms state)
      (ask (.print (ascii "\x7b\"version\":1,\"ok\":true,\"data\":[")))
      fun _ => Seen (listing []) vms state := runs_piece (listing_line none)
  refine System.Contract.bind head fun _ => ?_
  have listed : Runs F (Seen (listing []) vms state) (ask .listVms) fun ids w =>
      Seen (listing []) vms state w ∧ (∀ id ∈ ids, (state id).isSome) ∧ List.length ids ≤ 1000 := by
    refine runs_tells (listing_line none) (by trivial) ?_
    rintro w ids t u good ⟨rfl, rfl⟩ ⟨_, once, lists⟩ _
    have there : ∀ id ∈ ids, (w.state id).isSome := fun id member => recorded id ((lists id).1 member)
    exact ⟨there, few good once there⟩
  refine System.Contract.bind listed fun ids => ?_
  refine System.Contract.assume (fun _ => And.right) fun ⟨there, count⟩ => ?_
  have shown : Runs F (Seen (listing []) vms state) (inspectEach ids true) fun _ w =>
      ∃ texts : List Bytes, ((∀ text ∈ texts, Data F 125 300 text) ∧
        texts.length ≤ ([] : List Bytes).length + ids.length) ∧ Seen (listing texts) vms state w :=
    runs_inspectEach there none
  refine System.Contract.bind (shown.from_pre fun _ => And.left) fun _ => ?_
  refine System.Contract.exists fun texts => ?_
  refine System.Contract.assume (fun _ => And.left) fun ⟨all, most⟩ => ?_
  have data : Data F 126 1000000 (Json.arrayText texts) := by
    refine (data_arrayText all).mono ?_
    rw [List.length_nil] at most
    omega
  have answers : Answered F (listing texts ++ ascii "]\x7d\n") :=
    listing_ended texts ▸ answered_okText data
  have ended : Runs F (Seen (listing texts) vms state) (ask (.print (ascii "]\x7d\n")))
      fun _ w => Answered F w.out := runs_answer (fun _ _ env holds => env.holds holds) answers
  exact ended.from_pre fun _ => And.right

/-! ## Capabilities -/

/-- What the VMM of one microVM adds is little. -/
theorem runs_candidateResources {id : Id} :
    Runs F (Seen [] vms state) (candidateResources id) fun added w => Seen [] vms state w ∧
      added.1 ≤ (if (state id).isSome then 16 else 0) ∧
      added.2 ≤ (if (state id).isSome then 16512 else 0) := by
  have nothing : Runs F (Seen [] vms state) (pure (0, 0)) fun added w => Seen [] vms state w ∧
      added.1 ≤ (if (state id).isSome then 16 else 0) ∧
      added.2 ≤ (if (state id).isSome then 16512 else 0) :=
    System.Contract.pure fun w here => ⟨here, Nat.zero_le _, Nat.zero_le _⟩
  have asks : ∀ {command : Command}, command.Still →
      Runs F (Seen [] vms state) (ask command) fun _ => Seen [] vms state := fun {command} still =>
    show (seeing F List.not_mem_nil vms state).Keeps (ask command) from keeps_still still
  have hasState : Runs F (Seen [] vms state) (ask (.hasState id)) fun reply w =>
      Seen [] vms state w ∧ reply = (state id).isSome := by
    refine runs_tells List.not_mem_nil (by trivial) ?_
    rintro w _ t u _ ⟨_, rfl⟩ ⟨rfl, rfl⟩ _
    rfl
  refine System.Contract.bind hasState fun reply => System.Contract.assume (fun _ => And.right) ?_
  rintro rfl
  refine System.Contract.from_pre (fun _ => And.left) ?_
  cases is : state id with
  | none =>
    rw [is] at nothing
    exact nothing
  | some content =>
    rw [is] at nothing
    refine value_then List.not_mem_nil is fun tells => ?_
    split
    case isFalse => exact nothing
    case isTrue =>
      refine value_then List.not_mem_nil is fun _ => value_then List.not_mem_nil is fun _ => ?_
      refine System.Contract.bind (asks (by trivial)) fun matched => ?_
      split
      case isFalse => exact nothing
      case isTrue =>
        refine value_then List.not_mem_nil is fun _ => value_then List.not_mem_nil is fun _ => ?_
        obtain ⟨named, reads, valid, ⟨⟨vcpus, isVcpus⟩, memoryMib, isMemory⟩, pids⟩ := tells
        have cpusHigh := valid.vcpus.high
        have memoryHigh := valid.memoryMib.high
        rw [isVcpus, value_decimal] at cpusHigh
        rw [isMemory, value_decimal] at memoryHigh
        rw [reads, reads, Record.value_vcpus, Record.value_memoryMib, isVcpus, isMemory,
          number_decimal, number_decimal, arith_decimal, arith_decimal]
        refine System.Contract.pure fun w here => ⟨here, cpusHigh, ?_⟩
        exact Nat.add_le_add_right memoryHigh 128

/-- The ids that have a record. -/
def recordedOf (state : Id → Option Bytes) (ids : List Id) : List Id :=
  ids.filter fun id => (state id).isSome

theorem runs_runningResources {ids : List Id} {used : Nat × Nat} :
    Runs F (Seen [] vms state) (runningResources ids used) fun sum w => Seen [] vms state w ∧
      sum.1 ≤ used.1 + 16 * (recordedOf state ids).length ∧
      sum.2 ≤ used.2 + 16512 * (recordedOf state ids).length := by
  induction ids generalizing used with
  | nil => exact System.Contract.pure fun w here => ⟨here, le_rfl, le_rfl⟩
  | cons id rest ih =>
    refine System.Contract.bind runs_candidateResources fun added => ?_
    refine System.Contract.assume (fun _ => And.right) fun ⟨cpus, memory⟩ => ?_
    refine ih.weaken (fun _ => And.left) (fun sum w ⟨here, cpus', memory'⟩ => ⟨here, ?_⟩)
      fun _ _ here => here
    have length : (recordedOf state (id :: rest)).length =
        (if (state id).isSome then 1 else 0) + (recordedOf state rest).length := by
      rw [recordedOf, List.filter_cons]
      split
      · exact Nat.add_comm _ _
      · exact (Nat.zero_add _).symm
    rw [length]
    split at cpus <;> split at memory <;> split <;> first | contradiction | omega

/-- A machine number, or nothing. -/
def Measured (text : Bytes) : Prop :=
  text = [] ∨ ∃ n < 0x100000000, text = decimal n

theorem Measured.found {text : Bytes} (measured : Measured text) (isNumber : number text = true) :
    ∃ n < 0x100000000, text = decimal n := by
  obtain rfl | found := measured
  · exact absurd isNumber (by decide)
  · exact found

theorem measured_of_value {text : Bytes} {n : Nat} (reads : text = decimal n ∨ text = [])
    (small : value text < 0x100000000) : Measured text := by
  obtain rfl | rfl := reads
  · rw [value_decimal] at small
    exact .inr ⟨n, small, rfl⟩
  · exact .inl rfl

theorem runs_resourceCapacity : Runs F (Seen [] vms state) resourceCapacity fun capacity w =>
    Seen [] vms state w ∧ ∀ found, capacity = some found → found.Bounded := by
  have nothing : Runs F (Seen [] vms state) (pure none) fun capacity w => Seen [] vms state w ∧
      ∀ found : Capacity, capacity = some found → found.Bounded :=
    System.Contract.pure fun w here => ⟨here, fun found none => nomatch none⟩
  have cpuCount : Runs F (Seen [] vms state) (ask .cpuCount) fun text w =>
      Seen [] vms state w ∧ Measured text := by
    refine runs_tells List.not_mem_nil (by trivial) ?_
    exact fun w text t u _ _ does answers => measured_of_value does.2 answers
  have memTotal : Runs F (Seen [] vms state) (ask .memTotal) fun text w =>
      Seen [] vms state w ∧ Measured text := by
    refine runs_tells List.not_mem_nil (by trivial) ?_
    exact fun w text t u _ _ does answers => measured_of_value does.2 answers
  refine System.Contract.bind cpuCount fun parentCpus => ?_
  refine System.Contract.assume (fun _ => And.right) fun cpus => ?_
  refine System.Contract.bind (memTotal.from_pre fun _ => And.left) fun parentMemoryMib => ?_
  refine System.Contract.assume (fun _ => And.right) fun memory => ?_
  refine System.Contract.from_pre (fun _ => And.left) ?_
  split
  case isFalse => exact nothing
  case isTrue numbers =>
    simp only [Bool.and_eq_true] at numbers
    obtain ⟨⟨⟨cpusNumber, _⟩, memoryNumber⟩, _⟩ := numbers
    have listed : Runs F (Seen [] vms state) (ask .listVms) fun ids w =>
        Seen [] vms state w ∧ (recordedOf state ids).length ≤ 1000 := by
      refine runs_tells List.not_mem_nil (by trivial) ?_
      rintro w ids t u good ⟨rfl, rfl⟩ ⟨_, once, lists⟩ _
      exact few good (once.filter _) fun id member => (List.mem_filter.1 member).2
    refine System.Contract.bind listed fun ids => ?_
    refine System.Contract.assume (fun _ => And.right) fun count => ?_
    have summed : Runs F (Seen [] vms state) (runningResources ids (0, 0)) fun sum w =>
        Seen [] vms state w ∧ sum.1 ≤ 0 + 16 * (recordedOf state ids).length ∧
        sum.2 ≤ 0 + 16512 * (recordedOf state ids).length := runs_runningResources
    refine System.Contract.bind (summed.from_pre fun _ => And.left) fun sum => ?_
    refine System.Contract.pure fun w ⟨here, usedCpus, usedMemory⟩ => ⟨here, fun found is => ?_⟩
    obtain rfl := Option.some.inj is
    exact ⟨cpus.found cpusNumber, memory.found memoryNumber, by dsimp only; omega, by dsimp only; omega⟩

theorem runs_capabilities : Runs F (Seen [] vms state) capabilities fun _ _ => False := by
  have asks : ∀ {command : Command}, command.Still →
      Runs F (Seen [] vms state) (ask command) fun _ => Seen [] vms state := fun {command} still =>
    show (seeing F List.not_mem_nil vms state).Keeps (ask command) from keeps_still still
  refine System.Contract.bind (asks (by trivial)) fun kvm => ?_
  refine System.Contract.bind (asks (by trivial)) fun tun => ?_
  refine System.Contract.bind (asks (by trivial)) fun cgroupV2 => ?_
  have delegates : Runs F (Seen [] vms state) delegation fun problem w => Seen [] vms state w ∧
      ∀ text, problem = some text → Sayable (ascii text) :=
    @runs_delegation (seeing F List.not_mem_nil vms state)
  refine System.Contract.bind delegates fun delegated => ?_
  refine System.Contract.assume (fun _ => And.right) fun sayable => ?_
  refine System.Contract.from_pre (fun _ => And.left) ?_
  refine System.Contract.bind (asks (by trivial)) fun firecracker => ?_
  refine System.Contract.bind (asks (by trivial)) fun jailer => ?_
  refine System.Contract.bind runs_resourceCapacity fun capacity => ?_
  refine System.Contract.assume (fun _ => And.right) fun bounded => ?_
  refine System.Contract.from_pre (fun _ => And.left) ?_
  exact runs_reply (data_capabilitiesText sayable bounded) (by decide)

end Records

/-! ## Requests on one microVM -/

/-- Nothing was printed yet, and a fact holds that no command ends. -/
abbrev having (F : Type) {fact : World → Prop} (happens : ∀ w t, World.Env w t → fact w → fact t)
    (kept : ∀ command w reply t, fact w → World.exec command w reply t → fact t) : Conduct :=
  @silently fact (fun _ => True) happens (fun command _ => kept command) (fun _ _ => trivial) F trivial

abbrev unsaid (F : Type) : Conduct :=
  @having F (fun _ => True) (fun _ _ _ => id) fun _ _ _ _ here _ => here

/-- There is a record. -/
abbrev registered (F : Type) (vm : Id) : Conduct :=
  @having F (fun w => (w.state vm).isSome)
    (fun _ _ env there => by rw [(env.same vm).1]; exact there)
    fun _ _ _ _ there performed => World.exec_recorded performed there

section Free

variable {conduct : Conduct} (free : ∀ command : Command, command.Silent → conduct.may command)
include free

theorem assigns_free : conduct.Assigns :=
  fun _ _ => free _ trivial

theorem keeps_launch {uid gid vcpus memoryMib : Bytes} {vm : Id} :
    conduct.Keeps (launch uid gid vcpus memoryMib vm) := by
  refine keeps_bind (keeps_ask (free _ trivial)) fun child => ?_
  cases child with
  | none => exact keeps_failed conduct.failed
  | some pid =>
    refine keeps_bind (keeps_ask (free _ trivial)) fun _ => keeps_if (by trivial) fun startTime => ?_
    refine keeps_bind (keeps_ask (free _ trivial)) fun _ => ?_
    exact keeps_bind (keeps_check (by decide)) fun _ => keeps_pure

theorem keeps_publish {vm : Id} {pid : Pid} {startTime cgroup vcpus memoryMib uid gid : Bytes} :
    conduct.Keeps (publish vm pid startTime cgroup vcpus memoryMib uid gid) := by
  refine keeps_if (by trivial) fun kernel => keeps_if (by trivial) fun rootfs => ?_
  refine keeps_bind (keeps_writeState conduct.failed (free _ trivial)) fun _ => ?_
  refine keeps_bind (keeps_ask (free _ trivial)) fun _ => ?_
  refine keeps_bind (keeps_demand conduct.failed (keeps_still (by trivial))) fun _ => ?_
  exact keeps_ask (free _ trivial)

theorem keeps_boot {parent uid gid vcpus memoryMib : Bytes} {vm : Id} :
    conduct.Keeps (boot parent uid gid vcpus memoryMib vm) := by
  refine keeps_bind (keeps_launch free) fun child => keeps_bind keeps_awaitCgroup fun cgroup => ?_
  refine keeps_bind (keeps_check (by decide)) fun _ => ?_
  refine keeps_bind (keeps_require (keeps_still (by trivial)) (by decide)) fun _ => ?_
  exact keeps_bind keeps_awaitSocket fun _ => keeps_bind keeps_configure fun _ => keeps_publish free

theorem keeps_stopProcess {pid startTime : Bytes} {force : Bool} :
    conduct.Keeps (stopProcess pid startTime force) := by
  refine keeps_if (by trivial) fun matched => keeps_ite ?_ keeps_pure
  refine keeps_ite (keeps_ask (free _ trivial)) ?_
  refine keeps_bind (keeps_ask (free _ trivial)) fun _ => keeps_bind (keeps_attempts ?_) fun _ => ?_
  · refine keeps_if (by trivial) fun matched => keeps_ite ?_ keeps_pure
    exact keeps_if (by trivial) fun _ => keeps_pure
  · exact keeps_if (by trivial) fun still => keeps_provided (keeps_ask (free _ trivial))

theorem keeps_stopCgroup {cgroup : Bytes} {vm : Id} : conduct.Keeps (stopCgroup cgroup vm) := by
  refine keeps_if (by trivial) fun own => keeps_provided (keeps_if (by trivial) fun vars => ?_)
  refine keeps_require (keeps_terminateCgroup_of fun signal => ?_) (by decide)
  exact keeps_if (by trivial) fun pids => keeps_each fun pid =>
    keeps_ite keeps_pure (keeps_ask (free _ trivial))

end Free

/-- Nothing was printed yet. -/
def Unsaid (w : World) : Prop :=
  w.out = [] ∧ True

/-- Nothing was printed yet, and there is a record. -/
def Registered (vm : Id) (w : World) : Prop :=
  w.out = [] ∧ (w.state vm).isSome

theorem free_unsaid : ∀ command : Command, command.Silent → (unsaid F).may command :=
  fun _ silent => ⟨trivial, silent⟩

theorem free_registered {vm : Id} : ∀ command : Command, command.Silent → (registered F vm).may command :=
  fun _ silent => ⟨trivial, silent⟩

/-- The look for the record. -/
theorem runs_hasState {vm : Id} {message : String} (sayable : Sayable (ascii message)) :
    Runs F Unsaid (require (ask (.hasState vm)) message) fun _ => Registered vm := by
  have looks : Runs F Unsaid (ask (.hasState vm)) fun reply w =>
      Unsaid w ∧ (reply = true → (w.state vm).isSome) := by
    refine System.Contract.perform lasting_whole (unsaid F).steady ?_
    rintro m w reply t whole ⟨silent, _⟩ ⟨⟨_, ⟨rfl, is⟩, rfl⟩, _⟩
    exact ⟨whole, ⟨silent, trivial⟩, fun found => is.symm.trans found⟩
  refine System.Contract.bind looks fun found => ?_
  cases found with
  | true => exact System.Contract.pure fun w here => ⟨here.1.1, here.2 rfl⟩
  | false =>
    refine ((unsaid F).refuses Unit message sayable).weaken (fun _ => And.left) ?_ fun _ _ => id
    exact fun _ _ never => never.elim

/-- A record that is written is there. -/
theorem runs_writeState {vm : Id} {fields : List (Key × Bytes)} :
    Runs F Unsaid (writeState vm fields) fun _ => Registered vm := by
  have written : (unsaid F).Keeps (demand (ask (.writeTemporary vm (render fields)))) :=
    keeps_demand (unsaid F).failed (keeps_still (by trivial))
  have changed : (unsaid F).Keeps (demand (ask (.chmodTemporary vm))) :=
    keeps_demand (unsaid F).failed (keeps_still (by trivial))
  have renamed : Runs F Unsaid (ask (.renameState vm)) fun reply w =>
      Unsaid w ∧ (reply = true → (w.state vm).isSome) := by
    refine System.Contract.perform lasting_whole (unsaid F).steady ?_
    rintro m w reply t whole ⟨silent, _⟩ ⟨⟨_, ⟨_, _, content, _, rfl⟩ | ⟨rfl, rfl⟩, rfl⟩, _⟩
    · refine ⟨whole, ⟨silent, trivial⟩, fun _ => ?_⟩
      show (Function.update w.state vm (some content) vm).isSome
      rw [Function.update_self]
      rfl
    · exact ⟨whole, ⟨silent, trivial⟩, nofun⟩
  refine System.Contract.bind written fun _ => System.Contract.bind changed fun _ => ?_
  refine System.Contract.bind renamed fun done => ?_
  cases done with
  | true => exact System.Contract.pure fun w here => ⟨here.1.1, here.2 rfl⟩
  | false => exact System.Contract.throw fun w here => .inr ⟨rfl, here.1.1⟩

theorem runs_create {fields : Fields} :
    Runs F Unsaid (create fields) fun _ _ => False := by
  have checks : ∀ {test : Shell Bool} {message : String}, (unsaid F).Keeps test →
      Sayable (ascii message) → (unsaid F).Keeps (require test message) :=
    fun keeps sayable => keeps_require keeps sayable
  refine System.Contract.bind (checks keeps_pure (by decide)) fun _ => ?_
  refine System.Contract.bind (checks keeps_pure (by decide)) fun _ => ?_
  refine System.Contract.bind (checks keeps_pure (by decide)) fun _ => ?_
  refine System.Contract.bind (checks keeps_pure (by decide)) fun _ => ?_
  refine System.Contract.bind (checks keeps_pure (by decide)) fun _ => ?_
  refine System.Contract.bind (checks (keeps_still (by trivial)) (by decide)) fun _ => ?_
  refine System.Contract.bind (checks (keeps_still (by trivial)) (by decide)) fun _ => ?_
  have allocated : (unsaid F).Keeps allocateIdentity := keeps_allocateIdentity
  refine System.Contract.bind allocated fun uid => ?_
  have isNew : (unsaid F).Keeps (do pure !(← ask (.isVm fields.id))) :=
    keeps_if (by trivial) fun _ => keeps_pure
  refine System.Contract.bind (checks isNew (by decide)) fun _ => ?_
  have made : (unsaid F).Keeps (demand (ask (.mkdirVm fields.id))) :=
    keeps_demand (unsaid F).failed (keeps_ask (free_unsaid _ trivial))
  refine System.Contract.bind made fun _ => ?_
  exact System.Contract.bind runs_writeState fun _ => runs_shows

theorem runs_start {vm : Id} : Runs F Unsaid (start vm) fun _ _ => False := by
  have checks : ∀ {test : Shell Bool} {message : String}, (unsaid F).Keeps test →
      Sayable (ascii message) → (unsaid F).Keeps (require test message) :=
    fun keeps sayable => keeps_require keeps sayable
  have tests : ∀ {test : Shell Bool} {message : String}, (registered F vm).Keeps test →
      Sayable (ascii message) → (registered F vm).Keeps (require test message) :=
    fun keeps sayable => keeps_require keeps sayable
  have asks : ∀ {command : Command}, command.Still → (registered F vm).Keeps (ask command) :=
    fun still => keeps_still still
  refine System.Contract.bind (checks keeps_pure (by decide)) fun _ => ?_
  refine System.Contract.bind (checks (keeps_still (by trivial)) (by decide)) fun _ => ?_
  refine System.Contract.bind (runs_hasState (by decide)) fun _ => ?_
  refine System.Contract.bind (asks (by trivial)) fun status => ?_
  refine System.Contract.bind (asks (by trivial)) fun pid => ?_
  refine System.Contract.bind (asks (by trivial)) fun startTime => ?_
  have matched : (registered F vm).Keeps (runs status pid startTime) := keeps_runs
  refine System.Contract.bind matched fun running => ?_
  have already : (registered F vm).Keeps (provided running (do okReply (← jsonVm vm))) := by
    refine keeps_provided ?_
    exact runs_shows.weaken (fun _ here => here) (fun _ _ never => never.elim) fun _ _ here => here
  refine System.Contract.bind already fun _ => ?_
  have ready : (registered F vm).Keeps preflight := keeps_preflight
  refine System.Contract.bind ready fun parent => ?_
  refine System.Contract.bind (asks (by trivial)) fun kernel => ?_
  refine System.Contract.bind (asks (by trivial)) fun rootfs => ?_
  refine System.Contract.bind (asks (by trivial)) fun vcpus => ?_
  refine System.Contract.bind (asks (by trivial)) fun memoryMib => ?_
  refine System.Contract.bind (tests keeps_pure (by decide)) fun _ => ?_
  refine System.Contract.bind (tests keeps_pure (by decide)) fun _ => ?_
  have identified : (registered F vm).Keeps (startIdentity vm status kernel rootfs vcpus memoryMib) :=
    keeps_startIdentity (free_registered _ trivial)
  refine System.Contract.bind identified fun identity => ?_
  refine System.Contract.bind (tests (keeps_still (by trivial)) (by decide)) fun _ => ?_
  refine System.Contract.bind (tests (keeps_still (by trivial)) (by decide)) fun _ => ?_
  have fits : (registered F vm).Keeps (checkStartResources vcpus memoryMib) :=
    keeps_checkStartResources
  refine System.Contract.bind fits fun _ => ?_
  have disk : (registered F vm).Keeps (startDisk rootfs vm) :=
    keeps_startDisk (fun _ => free_registered _ trivial) (free_registered _ trivial)
  refine System.Contract.bind disk fun _ => ?_
  have jail : (registered F vm).Keeps (startJail kernel identity.1 identity.2 vm) :=
    keeps_startJail (assigns_free free_registered)
  refine System.Contract.bind jail fun _ => ?_
  have log : (registered F vm).Keeps (startLog parent vm) :=
    keeps_startLog (assigns_free free_registered)
  refine System.Contract.bind log fun _ => ?_
  have booted : (registered F vm).Keeps (boot parent identity.1 identity.2 vcpus memoryMib vm) :=
    keeps_boot free_registered
  exact System.Contract.bind booted fun _ => runs_shows

theorem runs_stop {vm force : Bytes} : Runs F Unsaid (stop vm force) fun _ _ => False := by
  have checks : ∀ {test : Shell Bool} {message : String}, (unsaid F).Keeps test →
      Sayable (ascii message) → (unsaid F).Keeps (require test message) :=
    fun keeps sayable => keeps_require keeps sayable
  have asks : ∀ {command : Command}, command.Still → (registered F vm).Keeps (ask command) :=
    fun still => keeps_still still
  refine System.Contract.bind (checks keeps_pure (by decide)) fun _ => ?_
  refine System.Contract.bind (checks keeps_pure (by decide)) fun _ => ?_
  refine System.Contract.bind (checks (keeps_still (by trivial)) (by decide)) fun _ => ?_
  refine System.Contract.bind (runs_hasState (by decide)) fun _ => ?_
  refine System.Contract.bind (asks (by trivial)) fun pid => ?_
  refine System.Contract.bind (asks (by trivial)) fun startTime => ?_
  refine System.Contract.bind (asks (by trivial)) fun jail => ?_
  refine System.Contract.bind (asks (by trivial)) fun cgroup => ?_
  have stopped : (registered F vm).Keeps (stopProcess pid startTime (decide (force = ascii "1"))) :=
    keeps_stopProcess free_registered
  refine System.Contract.bind stopped fun _ => ?_
  have emptied : (registered F vm).Keeps (stopCgroup cgroup vm) := keeps_stopCgroup free_registered
  refine System.Contract.bind emptied fun _ => ?_
  have removed : (registered F vm).Keeps (provided (decide ((jail : Bytes) ≠ [] ∧ jail = jailPath vm))
      (demand (ask (.removeJail vm)))) :=
    keeps_provided (keeps_demand (registered F vm).failed (keeps_still (by trivial)))
  refine System.Contract.bind removed fun _ => ?_
  refine System.Contract.bind (asks (by trivial)) fun kernel => ?_
  refine System.Contract.bind (asks (by trivial)) fun rootfs => ?_
  refine System.Contract.bind (asks (by trivial)) fun vcpus => ?_
  refine System.Contract.bind (asks (by trivial)) fun memoryMib => ?_
  refine System.Contract.bind (asks (by trivial)) fun uid => ?_
  refine System.Contract.bind (asks (by trivial)) fun gid => ?_
  exact System.Contract.bind (runs_writeState.from_pre fun _ here => ⟨here.1, trivial⟩)
    fun _ => runs_shows

/-- One microVM. -/
theorem runs_inspect {vm : Id} (some : vm ≠ []) : Runs F Unsaid (inspect vm) fun _ _ => False := by
  have checks : ∀ {test : Shell Bool} {message : String}, (unsaid F).Keeps test →
      Sayable (ascii message) → (unsaid F).Keeps (require test message) :=
    fun keeps sayable => keeps_require keeps sayable
  rw [inspect, if_pos some]
  refine System.Contract.bind (checks keeps_pure (by decide)) fun _ => ?_
  refine System.Contract.bind (checks (keeps_still (by trivial)) (by decide)) fun _ => ?_
  exact System.Contract.bind (runs_hasState (by decide)) fun _ => runs_shows

/-! ## Requests -/

theorem sayable_setField {action : Action} {key value : Bytes} {fields : Fields} {message : String}
    (refused : setField action key value fields = .error message) : Sayable (ascii message) := by
  unfold setField at refused
  split_ifs at refused <;> cases refused <;> decide

theorem sayable_setFields {action : Action} {tokens : List Bytes} {seen : Bytes} {fields : Fields}
    {message : String} (refused : setFields action tokens seen fields = .error message) :
    Sayable (ascii message) := by
  induction tokens generalizing seen fields with
  | nil => cases refused
  | cons token rest ih =>
    rw [setFields] at refused
    cases parts : cut 0x3d token with
    | none =>
      rw [parts] at refused
      cases refused
      decide
    | some pair =>
      obtain ⟨key, value⟩ := pair
      rw [parts] at refused
      dsimp only at refused
      split_ifs at refused
      · cases refused
        decide
      · cases refused
        decide
      · cases set : setField action key value fields with
        | error other =>
          rw [set] at refused
          cases refused
          exact sayable_setField set
        | ok further =>
          rw [set] at refused
          exact ih refused

/-- Whatever is wrong with a request can be said. -/
theorem sayable_parseRequest {request : Bytes} {message : String}
    (refused : parseRequest request = .error message) : Sayable (ascii message) := by
  unfold parseRequest at refused
  split_ifs at refused
  · cases refused
    decide
  · cases split : words blank request with
    | nil =>
      rw [split] at refused
      cases refused
      decide
    | cons word tokens =>
      rw [split] at refused
      dsimp only at refused
      cases known : Action.parse word with
      | none =>
        rw [known] at refused
        cases refused
        decide
      | some action =>
        rw [known] at refused
        dsimp only at refused
        cases set : setFields action tokens [0x20] {} with
        | error other =>
          rw [set] at refused
          cases refused
          exact sayable_setFields set
        | ok fields =>
          rw [set] at refused
          cases refused

section Session

variable {vms : Finset Id} {state : Id → Option Bytes}

/-- Nothing was printed yet, and the directories and the records are these. -/
abbrev waiting (F : Type) (vms : Finset Id) (state : Id → Option Bytes) : Conduct :=
  @silently (World.Holds vms state) (fun command => ¬ command.Registers)
    (fun _ _ env holds => env.holds holds)
    (fun _ not _ _ _ holds performed => World.exec_holds not performed holds)
    (fun _ => Command.Still.unregistering) F id

theorem runs_session {request : Bytes} (listable : Listable request vms state) :
    Runs F (Seen [] vms state) (session request) fun _ w => Answered F w.out := by
  have ends : ∀ {block : Shell Unit}, Runs F Unsaid block (fun _ _ => False) →
      Runs F (Seen [] vms state) block fun _ w => Answered F w.out := fun runs =>
    runs.weaken (fun _ here => ⟨here.1, trivial⟩) (fun _ _ never => never.elim) fun _ _ here => here
  unfold session
  cases parsed : parseRequest request with
  | error message =>
    exact ends ((unsaid F).refuses Unit message (sayable_parseRequest parsed))
  | ok found =>
    obtain ⟨action, fields⟩ := found
    have named : (waiting F vms state).Keeps (ask (.assign fun vars => { vars with id := fields.id })) :=
      keeps_ask ⟨id, trivial⟩
    have opened : (waiting F vms state).Keeps (demand (ask (.probe .lockFile))) :=
      keeps_demand (waiting F vms state).failed (keeps_still (by trivial))
    have locked : (waiting F vms state).Keeps (require (ask .lock)
        "microVM manager is busy; retry the request") :=
      keeps_require (keeps_still (by trivial)) (by decide)
    refine System.Contract.bind named fun _ => System.Contract.bind opened fun _ => ?_
    refine System.Contract.bind locked fun _ => ?_
    cases action with
    | capabilities =>
      exact runs_capabilities.weaken (fun _ here => here) (fun _ _ never => never.elim)
        fun _ _ here => here
    | create => exact ends runs_create
    | start => exact ends runs_start
    | stop => exact ends runs_stop
    | inspect =>
      by_cases all : fields.id = []
      · rw [act, all]
        exact runs_inspect_all (listable fields parsed all)
      · exact ends (runs_inspect all)

theorem runs_shell {self : Pid} :
    Runs F (Seen [] vms state) (ask (.shell self)) fun _ => Seen [] vms state := by
  refine System.Contract.perform lasting_whole (waiting F vms state).steady ?_
  rintro m w reply t whole ⟨_, holds⟩ ⟨⟨_, rfl, rfl⟩, _⟩
  exact ⟨whole_of_oneLine List.not_mem_nil, rfl, holds⟩

/-- **A request**, up to its end. -/
theorem delivers_request {self : Pid} {request : Bytes} (listable : Listable request vms state)
    {m w : World} (here : Seen [] vms state w) :
    (parentVm heard).Delivers (fun _ w => World.Whole F w) (manager (.request self request))
      (fun _ w => Answered F w.out) (m, w) := by
  have runs : Runs F (Seen [] vms state) (do ask (.shell self); session request)
      fun _ => left F .ok :=
    System.Contract.bind runs_shell fun _ =>
      (runs_session listable).weaken (fun _ here => here) (fun _ _ => .inl) fun _ _ here => here
  exact delivers_finish runs runs_trap (whole_of_oneLine (here.1 ▸ List.not_mem_nil)) here

/-- **A trapped signal.** -/
theorem delivers_signalled {m w : World} (here : w.out = [] ∨ Answered F w.out) :
    (parentVm heard).Delivers (fun _ w => World.Whole F w) (manager .signalled)
      (fun _ w => Answered F w.out) (m, w) := by
  have silent : Runs F Unsaid (do cleanupStart; throw .failed : Shell Unit) fun _ => left F .ok := by
    have cleans : (unsaid F).Keeps cleanupStart :=
      keeps_cleanupStart (unsaid F).failed (free_unsaid _ trivial)
    exact System.Contract.bind cleans fun _ => System.Contract.throw fun w here => .inr ⟨rfl, here.1⟩
  have spoken : Runs F (fun w => Answered F w.out) (do cleanupStart; throw .failed : Shell Unit)
      fun _ => left F .ok := by
    have cleans : (told F).Keeps cleanupStart :=
      keeps_cleanupStart (fun _ => id) fun _ => nofun
    have cleaned := cleans.weaken (fun _ => id) (fun _ _ => id)
      (fun exit w answered => show left F exit w from .inl answered)
    exact System.Contract.bind cleaned fun _ => System.Contract.throw fun _ => .inl
  obtain none | answered := here
  · exact delivers_finish silent runs_trap (whole_of_oneLine (none ▸ List.not_mem_nil)) ⟨none, trivial⟩
  · exact delivers_finish spoken runs_trap (whole_of_answered answered) answered

end Session

end Replies

/-! ## Any request -/

namespace World

/-- A new connection, to which nothing was printed. -/
def accepted (w : World) : World :=
  { w with out := [] }

theorem Good.accepted {rules : Rules} {w : World} (good : w.Good rules) : w.accepted.Good rules :=
  ⟨good.texts, good.sound, good.staged, good.stagedOnce, good.disks, good.launched, good.found⟩

/-- A signal comes before the first byte of a reply or behind its line. -/
def Unsplit (w : World) : Prop :=
  w.out = [] ∨ newline ∈ w.out

end World

/-- Requests that are granted no number with leading zeros. -/
abbrev SpokenCall := { call : Call // call.Allowed spoken }

abbrev SpokenCall.manager (call : SpokenCall) : Program Commands Exit :=
  Manager.manager call.1

theorem signalled_allowed {rules : Rules} : Call.signalled.Allowed rules :=
  fun fields (none : none = some fields) => nomatch none

/-- **Every state of a request is whole**, and at its end there is a reply. -/
theorem Served.answered (F : Type) {self : Pid} {request : Bytes} {before : World}
    (good : before.Good spoken) (plain : (Call.request self request).Allowed spoken)
    (listable : Listable request before.vms before.state)
    {now : Program Commands Exit × World}
    (served : Served answering World.Unsplit (.request self request) before.accepted now) :
    now.2.Good spoken ∧ World.Whole F now.2 ∧ ∀ exit, now.1 = .done exit → Answered F now.2.out := by
  have goodNow : ∀ {call : Call} {w : World} {now : Program Commands Exit × World},
      call.Allowed spoken → w.Good spoken → (parentVm answering).Leads (manager call, w) now →
      now.2.Good spoken := by
    rintro call w ⟨rest, t⟩ allowed good leads
    have delivers : (parentVm answering).Delivers (Inv spoken fun _ => False) (manager call)
        (fun exit w => exit = .ok → call.Vouches w) (w, w) :=
      manager_delivers answering_meets allowed (fun _ _ => not_false) (inv_self good)
    exact (delivers.during (inv_lasting answering_meets) (inv_self good) leads).good
  have ends : ∀ {call : Call} {w : World} {now : Program Commands Exit × World},
      call.Allowed spoken → w.Good spoken → World.Whole F w →
      (parentVm heard).Delivers (fun _ w => World.Whole F w) (manager call)
        (fun _ w => Answered F w.out) (w, w) → (parentVm answering).Leads (manager call, w) now →
      now.2.Good spoken ∧ World.Whole F now.2 ∧
        ∀ exit, now.1 = .done exit → Answered F now.2.out := by
    rintro call w ⟨rest, t⟩ allowed good whole delivers leads
    have within : (parentVm heard).Leads (manager call, w) (rest, t) :=
      leads_under leads (fun _ _ before after _ _ answers =>
        ⟨answers, goodNow allowed good before, goodNow allowed good after⟩) fun _ _ => id
    refine ⟨goodNow allowed good leads, delivers.during Replies.lasting_whole whole within,
      fun exit done => ?_⟩
    obtain rfl : rest = .done exit := done
    exact (delivers.leads Replies.lasting_whole
      (fun _ => (Replies.told F).steady) within).2
  induction served with
  | called leads =>
    exact ends plain good.accepted (Replies.whole_of_oneLine List.not_mem_nil)
      (Replies.delivers_request listable ⟨rfl, rfl, rfl⟩) leads
  | trapped _ signal leads ih =>
    obtain ⟨good, whole, _⟩ := ih
    exact ends signalled_allowed good whole
      (Replies.delivers_signalled (signal.imp id whole)) leads

end Luhmen.Manager
