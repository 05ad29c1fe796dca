/-
# Host.LifecycleRuns -- what starts and stops do, and what they say of it

Any number of `command`s, each killed wherever it stands, failing wherever it can.  `Orderly`
says of a log what stands before a power-off, a forced one, a start of the VM and a wait for
the engine; `Truthful` what a report may say, given a log.

Every command keeps the log orderly, and what it saves in `last-start.json` is true of the log
at that moment, so a reader finds a true report of an operation that may be under way or was
killed (`commands_safe`).
-/
import Mathlib.Data.List.ModifyLast
import Luhmen.Host.Lifecycle

namespace Luhmen.Host.Lifecycle

open Luhmen.Theory
open Run

set_option autoImplicit false

/-! ## Logs -/

def Event.isLocked : Event → Bool
  | .locked _ => true
  | _ => false

/-- The operation that took the lock last. -/
def operation (log : List Event) : Option Operation :=
  log.findSome? fun e => match e with
    | .locked operation => some operation
    | _ => none

/-- What happened since. -/
def current (log : List Event) : List Event :=
  log.takeWhile fun e => !e.isLocked

/-- What may follow on a log. -/
def Allowed : Event → List Event → Prop
  | .dockerShutdown _, before => before.head? = some (.saw (some "Running"))
  | .limaStop false _, before =>
      ∃ rest, before = .dockerShutdown true :: .saw (some "Running") :: rest
  | .limaStop true _, before =>
      operation before = some (.stop true) ∧
        ∃ status, status ≠ "Stopped" ∧ before.head? = some (.saw (some status))
  | .limaStart _, before =>
      before.head? = some (.saw (some "Stopped")) ∨
        (before.head? = some (.saw none) ∧ operation before = some .restart)
  | .engineReady, before =>
      before.head? = some (.limaStart true) ∨
        (before.head? = some (.saw (some "Running")) ∧ operation before = some .start)
  | _, _ => True

/-- Docker is shut down in a VM that was seen running, a VM is powered off only directly behind
that unless it was to be forced, and started only when it was seen to be stopped. -/
def Orderly : List Event → Prop
  | [] => True
  | e :: before => Allowed e before ∧ Orderly before

theorem operation_cons {e : Event} (other : e.isLocked = false) (log : List Event) :
    operation (e :: log) = operation log := by
  cases e with
  | locked operation => cases other
  | _ => rfl

theorem current_cons {e : Event} (other : e.isLocked = false) (log : List Event) :
    current (e :: log) = e :: current log :=
  List.takeWhile_cons_of_pos (by simp [other])

/-! ## What a report says -/

/-- What a stage that is complete stands for. -/
inductive Shows (events : List Event) : String → Prop where
  | preflight {status : String} (known : status = "Running" ∨ status = "Stopped")
      (seen : .saw (some status) ∈ events) : Shows events "preflight"
  | limaStop {seen : Option String} (down : seen = none ∨ seen = some "Stopped")
      (found : .saw seen ∈ events) : Shows events "lima_stop"
  | limaStart (started : .limaStart true ∈ events) : Shows events "lima_start"
  | engineSocketReady (ready : .engineReady ∈ events) : Shows events "engine_socket_ready"

/-- The stages of an operation, from the first to the last. -/
def orders (restart : Bool) : List (List String) :=
  ["preflight", "lima_start", "engine_socket_ready"] ::
    if restart then [["preflight", "lima_stop", "lima_start", "engine_socket_ready"]] else []

abbrev Shape := List (String × Startup.Outcome)

def shape (report : Startup.Report) : Shape :=
  report.stages.map fun stage => (stage.name, stage.outcome)

def operationOf (restart : Bool) : Operation :=
  if restart then .restart else .start

/-- Stages that are over, as they happened. -/
structure Story (restart : Bool) (settled : Shape) (log : List Event) : Prop where
  operation : operation log = some (operationOf restart)
  each : ∀ entry ∈ settled, (entry.2 = .complete ∧ Shows (current log) entry.1) ∨
    (entry = ("lima_start", .skipped) ∧ restart = false ∧ .saw (some "Running") ∈ current log)

/-- What there may be behind them, and what the outcome of it all is then. -/
inductive Ending (restart : Bool) (settled : Shape) : Shape → Startup.Outcome → Prop where
  | between : Ending restart settled [] .running
  | running (name : String) : Ending restart settled [(name, .running)] .running
  | failed (name : String) : Ending restart settled [(name, .failed)] .failed
  | complete (whole : settled.map Prod.fst ∈ orders restart) : Ending restart settled [] .complete

/-- A report that says what happened: stages that are over, in their order and each for a
reason, and at most one that is not or that failed. -/
structure Truthful (report : Startup.Report) (log : List Event) : Prop where
  story : ∃ restart settled last, report.operation = operationName restart ∧
    shape report = settled ++ last ∧ Story restart settled log ∧
    Ending restart settled last report.outcome ∧
    ∃ whole ∈ orders restart, (settled ++ last).map Prod.fst <+: whole

theorem Shows.mono {events more : List Event} {name : String} (shows : Shows events name)
    (subset : ∀ e ∈ events, e ∈ more) : Shows more name := by
  cases shows with
  | preflight known seen => exact .preflight known (subset _ seen)
  | limaStop down found => exact .limaStop down (subset _ found)
  | limaStart started => exact .limaStart (subset _ started)
  | engineSocketReady ready => exact .engineSocketReady (subset _ ready)

theorem Story.cons {restart : Bool} {settled : Shape} {log : List Event}
    (story : Story restart settled log) {e : Event} (other : e.isLocked = false) :
    Story restart settled (e :: log) := by
  refine ⟨(operation_cons other log).trans story.operation, fun entry member => ?_⟩
  rw [current_cons other]
  rcases story.each entry member with ⟨complete, shows⟩ | ⟨is, no, seen⟩
  · exact .inl ⟨complete, shows.mono fun _ => List.mem_cons_of_mem _⟩
  · exact .inr ⟨is, no, List.mem_cons_of_mem _ seen⟩

/-- The numbers of a report fit their types. -/
structure Timed (report : Startup.Report) : Prop where
  schemaVersion : report.schemaVersion = 1
  startedUnixMs : report.startedUnixMs < 0x10000000000000000
  elapsedMs : report.elapsedMs < 0x10000000000000000
  stages : ∀ stage ∈ report.stages, stage.elapsedMs < 0x10000000000000000

/-- A true report is short. -/
theorem Truthful.short {report : Startup.Report} {log : List Event} (truthful : Truthful report log)
    (timed : Timed report) : report.Short := by
  obtain ⟨restart, settled, last, named, is, _, _, whole, member, front⟩ := truthful.story
  have names : report.stages.map Startup.Stage.name <+: whole := by
    have : (shape report).map Prod.fst = report.stages.map Startup.Stage.name := by
      rw [shape, List.map_map]
      rfl
    rw [← this, is]
    exact front
  have sizes : ∀ whole ∈ orders restart, whole.length ≤ 8 ∧ ∀ name ∈ whole, name.utf8ByteSize ≤ 32 := by
    cases restart <;> decide
  obtain ⟨count, size⟩ := sizes whole member
  have fewer := front.length_le
  refine ⟨timed.schemaVersion, ?_, timed.startedUnixMs, timed.elapsedMs, ?_, fun stage inside => ?_⟩
  · rw [named]
    cases restart <;> decide
  · have := names.length_le
    rw [List.length_map] at this
    omega
  · have inWhole : stage.name ∈ whole := names.subset (List.mem_map_of_mem inside)
    exact ⟨size _ inWhole, timed.stages stage inside⟩

/-! ## The invariant -/

section Specs

variable {F : Type} (shown : F → List Char) (initial : Option Bytes)

/-- The file is the one there was, or a report that was true of the log when it was saved. -/
def Reported (s : State) : Prop :=
  s.report = initial ∨ ∃ report before, before <:+ s.log ∧ report.Short ∧
    Truthful report before ∧ s.report = some (report.bytes shown)

structure Inv (s : State) : Prop where
  orderly : Orderly s.log
  reported : Reported shown initial s

/-- The log is such, and the invariant holds. -/
structure Logged (Q : List Event → Prop) (s : State) : Prop where
  log : Q s.log
  inv : Inv shown initial s

abbrev Spec {α : Type} (Q : List Event → Prop) (block : Run α) (R : α → List Event → Prop)
    (E : List Event → Prop) : Prop :=
  @System.Triple Requests host (Inv shown initial) Stop α (Logged shown initial Q) block
    (fun value => Logged shown initial (R value)) (Logged shown initial E)

variable {shown initial}

theorem host_stable (P : State → Prop) : host.Stable P :=
  fun _ _ moves => moves.elim

theorem spec_pure {α : Type} {value : α} {Q : List Event → Prop} {R : α → List Event → Prop}
    {E : List Event → Prop} (holds : ∀ log, Q log → R value log) :
    Spec shown initial Q (pure value : Run α) R E :=
  System.Triple.pure fun _ logged => ⟨holds _ logged.log, logged.inv⟩

theorem spec_refuse {α : Type} {message : String} {Q : List Event → Prop}
    {R : α → List Event → Prop} {E : List Event → Prop} (holds : ∀ log, Q log → E log) :
    Spec shown initial Q (refuse message : Run α) R E :=
  System.Triple.throw fun _ logged => ⟨holds _ logged.log, logged.inv⟩

theorem spec_weaken {α : Type} {block : Run α} {Q Q' : List Event → Prop}
    {R R' : α → List Event → Prop} {E E' : List Event → Prop} (before : ∀ log, Q log → Q' log)
    (spec : Spec shown initial Q' block R' E') (after : ∀ value log, R' value log → R value log)
    (fails : ∀ log, E' log → E log) : Spec shown initial Q block R E :=
  System.Triple.weaken (fun _ logged => ⟨before _ logged.log, logged.inv⟩) spec
    (fun value _ logged => ⟨after value _ logged.log, logged.inv⟩)
    fun _ logged => ⟨fails _ logged.log, logged.inv⟩

theorem inv_record {s : State} (inv : Inv shown initial s) {e : Option Event}
    (allowed : ∀ e', e = some e' → Allowed e' s.log) : Inv shown initial (s.record e) := by
  cases e with
  | none => exact inv
  | some e =>
      refine ⟨⟨allowed e rfl, inv.orderly⟩, ?_⟩
      rcases inv.reported with is | ⟨report, before, older, rest⟩
      · exact .inl is
      · exact .inr ⟨report, before, older.trans (List.suffix_cons e s.log), rest⟩

/-- A request that is only remembered, and `?`. -/
theorem demand_spec {α : Type} {request : Request} {outcome : Reply request → Except String α}
    (plain : ∀ s reply t, exec request s reply t → t = s.record (event request reply))
    {Q : List Event → Prop} {R : α → List Event → Prop} {E : List Event → Prop}
    (allowed : ∀ log reply e, Q log → event request reply = some e → Allowed e log)
    (good : ∀ log reply value, Q log → outcome reply = .ok value →
      R value ((event request reply).toList ++ log))
    (bad : ∀ log reply message, Q log → outcome reply = .error message →
      E ((event request reply).toList ++ log)) :
    Spec shown initial Q (demand request outcome) R E := by
  have performed : @System.Triple Requests host (Inv shown initial) Stop _ (Logged shown initial Q)
      (perform request) (fun reply => Logged shown initial fun log =>
        ∃ older, Q older ∧ log = (event request reply).toList ++ older)
      (Logged shown initial E) := by
    refine System.Triple.perform (host_stable _) ?_
    intro s reply t logged performed
    obtain rfl := plain s reply t performed
    have kept := inv_record logged.inv fun e is => allowed s.log reply e logged.log is
    exact ⟨kept, ⟨s.log, logged.log, rfl⟩, kept⟩
  refine System.Triple.bind performed fun reply => ?_
  cases result : outcome reply with
  | ok value =>
      rintro s ⟨⟨older, holds, is⟩, inv⟩
      exact ⟨is ▸ good older reply value holds result, inv⟩
  | error message =>
      rintro s ⟨⟨older, holds, is⟩, inv⟩
      exact ⟨is ▸ bad older reply message holds result, inv⟩

/-- A request nothing is remembered of. -/
theorem silent_spec {α : Type} {request : Request} {outcome : Reply request → Except String α}
    (plain : ∀ s reply t, exec request s reply t → t = s) {Q : List Event → Prop}
    (nothing : ∀ reply, event request reply = none) :
    Spec shown initial Q (demand request outcome) (fun _ => Q) Q :=
  demand_spec (fun s reply t performed => by rw [plain s reply t performed, nothing reply]; rfl)
    (fun _ reply e _ is => by rw [nothing reply] at is; cases is)
    (fun _ reply _ holds _ => by rw [nothing reply]; exact holds)
    (fun _ reply _ holds _ => by rw [nothing reply]; exact holds)

/-! ## Saving -/

section Checkpoint

variable {Q : List Event → Prop}

theorem inv_putTemporary {s : State} (inv : Inv shown initial s) (pid : Nat) (file : Option Bytes) :
    Inv shown initial (s.putTemporary pid file) :=
  ⟨inv.orderly, inv.reported⟩

/-- What a request on files does: it leaves `fallback`, and `good` where it went well. -/
def FileSpec (shown : F → List Char) (initial : Option Bytes) (pre : State → Prop)
    (request : Request) (outcome : Reply request → Except String Unit) (good fallback : State → Prop) :
    Prop :=
  ∀ s reply t, pre s → exec request s reply t →
    Inv shown initial t ∧ fallback t ∧ (outcome reply = .ok () → good t)

theorem FileSpec.demand {pre good fallback : State → Prop} {request : Request}
    {outcome : Reply request → Except String Unit}
    (spec : FileSpec shown initial pre request outcome good fallback) :
    @System.Triple Requests host (Inv shown initial) Stop Unit pre (demand request outcome)
      (fun _ => good) fallback := by
  have performed : @System.Triple Requests host (Inv shown initial) Stop _ pre (perform request)
      (fun reply s => fallback s ∧ (outcome reply = .ok () → good s)) fallback :=
    System.Triple.perform (host_stable _) spec
  refine System.Triple.bind performed fun reply => ?_
  cases result : outcome reply with
  | ok value => exact fun s holds => holds.2 rfl
  | error message => exact fun s holds => holds.1

/-- A temporary file with these bytes. -/
structure Staged (shown : F → List Char) (initial : Option Bytes) (Q : List Event → Prop)
    (pid : Nat) (bytes : Bytes) (s : State) : Prop where
  logged : Logged shown initial Q s
  file : s.temporary pid = some bytes

variable {report : Startup.Report} (timed : Timed report) (truthful : ∀ log, Q log → Truthful report log)
include timed truthful

theorem publish_spec (pid : Nat) :
    @System.Triple Requests host (Inv shown initial) Stop Unit (Logged shown initial Q)
      (publish pid (report.bytes shown)) (fun _ => Logged shown initial Q) (Logged shown initial Q) := by
  have created : FileSpec shown initial (Logged shown initial Q) (.createNew pid) id
      (Logged shown initial Q) (Logged shown initial Q) := by
    rintro s reply t logged (⟨_, rfl⟩ | ⟨_, _, rfl⟩)
    · exact ⟨logged.inv, logged, fun _ => logged⟩
    · have kept := inv_putTemporary logged.inv pid (some [])
      exact ⟨kept, ⟨logged.log, kept⟩, fun _ => ⟨logged.log, kept⟩⟩
  have written : FileSpec shown initial (Logged shown initial Q)
      (.writeAll pid (report.bytes shown)) id (Staged shown initial Q pid (report.bytes shown))
      (Logged shown initial Q) := by
    rintro s reply t logged ⟨contents, rfl, whole⟩
    have kept := inv_putTemporary logged.inv pid (some contents)
    refine ⟨kept, ⟨logged.log, kept⟩, fun ok => ⟨⟨logged.log, kept⟩, ?_⟩⟩
    rw [whole ok]
    exact if_pos rfl
  have synced : FileSpec shown initial (Staged shown initial Q pid (report.bytes shown))
      (.syncAll pid) id (Staged shown initial Q pid (report.bytes shown)) (Logged shown initial Q) := by
    rintro s reply t staged rfl
    exact ⟨staged.logged.inv, staged.logged, fun _ => staged⟩
  have renamed : FileSpec shown initial (Staged shown initial Q pid (report.bytes shown))
      (.rename pid) id (Logged shown initial Q) (Logged shown initial Q) := by
    rintro s reply t staged (⟨_, rfl⟩ | ⟨bytes, there, _, rfl⟩)
    · exact ⟨staged.logged.inv, staged.logged, fun _ => staged.logged⟩
    · obtain rfl := Option.some.inj (there.symm.trans staged.file)
      have kept : Inv shown initial
          { s.putTemporary pid none with report := some (report.bytes shown) } :=
        ⟨staged.logged.inv.orderly, .inr ⟨report, s.log, List.suffix_refl _,
          (truthful _ staged.logged.log).short timed, truthful _ staged.logged.log, rfl⟩⟩
      exact ⟨kept, ⟨staged.logged.log, kept⟩, fun _ => ⟨staged.logged.log, kept⟩⟩
  have last : FileSpec shown initial (Logged shown initial Q) .syncDirectory id
      (Logged shown initial Q) (Logged shown initial Q) := by
    rintro s reply t logged rfl
    exact ⟨logged.inv, logged, fun _ => logged⟩
  refine System.Triple.bind created.demand fun _ => ?_
  refine System.Triple.bind written.demand fun _ => ?_
  refine System.Triple.bind synced.demand fun _ => ?_
  exact System.Triple.bind renamed.demand fun _ => last.demand

/-- Whether or not it is saved, a report that is true does no harm. -/
theorem checkpoint_spec (pid : Nat) (E : List Event → Prop) :
    Spec shown initial Q (checkpoint shown pid report) (fun _ => Q) E := by
  have removed : @System.Triple Requests host (Inv shown initial) Stop _ (Logged shown initial Q)
      (perform (.removeFile pid)) (fun _ => Logged shown initial Q) (Logged shown initial Q) := by
    refine System.Triple.perform (host_stable _) ?_
    rintro s reply t logged (⟨_, rfl⟩ | ⟨_, rfl⟩)
    · exact ⟨logged.inv, logged⟩
    · have kept := inv_putTemporary logged.inv pid none
      exact ⟨kept, logged.log, kept⟩
  have published : @System.Triple Requests host (Inv shown initial) Stop _ (Logged shown initial Q)
      (attempt (publish pid (report.bytes shown))) (fun _ => Logged shown initial Q)
      (Logged shown initial Q) :=
    System.Triple.attempt (publish_spec timed truthful pid) fun _ _ logged => logged
  have wrote : @System.Triple Requests host (Inv shown initial) Stop _ (Logged shown initial Q)
      (atomicWrite pid (report.bytes shown)) (fun _ => Logged shown initial Q)
      (Logged shown initial Q) := by
    refine System.Triple.bind published fun result => ?_
    cases result with
    | error stop =>
        exact System.Triple.bind removed fun _ => System.Triple.throw fun _ logged => logged
    | ok value => exact System.Triple.pure fun _ logged => logged
  refine System.Triple.bind ?_ fun _ => spec_pure fun _ holds => holds
  intro s logged
  refine System.Safe.bind (System.Safe.mono ?_ (wrote s logged))
  intro result t ended
  cases result with
  | ok value => exact ended
  | error stop => exact ended

end Checkpoint

/-! ## Stages -/

/-- A trace between stages, with these behind it. -/
structure Carries (restart : Bool) (settled : Shape) (trace : Trace) : Prop where
  timed : Timed trace.report
  operation : trace.report.operation = operationName restart
  outcome : trace.report.outcome = .running
  tells : shape trace.report = settled

theorem millis_lt (elapsed : Nat) : Startup.millis elapsed < 0x10000000000000000 := by
  rw [Startup.millis]
  omega

theorem shape_push (report : Startup.Report) (name : String) :
    shape (report.push name) = shape report ++ [(name, .running)] := by
  rw [shape, shape, Startup.Report.push, List.map_append]
  rfl

theorem shape_skip (report : Startup.Report) (name : String) :
    shape (report.skip name) = shape report ++ [(name, .skipped)] := by
  rw [shape, shape, Startup.Report.skip, List.map_append]
  rfl

theorem stages_finish (report : Startup.Report) (name : String) (ok : Bool) (stageMs totalMs : Nat) :
    ((report.push name).finish ok stageMs totalMs).stages = report.stages ++
      [⟨name, if ok then .complete else .failed, Startup.millis stageMs⟩] := by
  simp [Startup.Report.push, Startup.Report.finish, List.modifyLast_concat]

theorem shape_finish (report : Startup.Report) (name : String) (ok : Bool) (stageMs totalMs : Nat) :
    shape ((report.push name).finish ok stageMs totalMs) =
      shape report ++ [(name, if ok then .complete else .failed)] := by
  rw [shape, stages_finish, List.map_append]
  rfl

theorem Timed.push {report : Startup.Report} (timed : Timed report) (name : String) :
    Timed (report.push name) := by
  refine ⟨timed.schemaVersion, timed.startedUnixMs, timed.elapsedMs, fun stage member => ?_⟩
  rcases List.mem_append.1 member with old | new
  · exact timed.stages stage old
  · obtain rfl := List.mem_singleton.1 new
    exact (by decide : (0 : Nat) < 0x10000000000000000)

theorem Timed.skip {report : Startup.Report} (timed : Timed report) (name : String) :
    Timed (report.skip name) := by
  refine ⟨timed.schemaVersion, timed.startedUnixMs, timed.elapsedMs, fun stage member => ?_⟩
  rcases List.mem_append.1 member with old | new
  · exact timed.stages stage old
  · obtain rfl := List.mem_singleton.1 new
    exact (by decide : (0 : Nat) < 0x10000000000000000)

theorem Timed.finish {report : Startup.Report} (timed : Timed report) (name : String) (ok : Bool)
    (stageMs totalMs : Nat) : Timed ((report.push name).finish ok stageMs totalMs) := by
  refine ⟨timed.schemaVersion, timed.startedUnixMs, millis_lt totalMs, fun stage member => ?_⟩
  rw [stages_finish] at member
  rcases List.mem_append.1 member with old | new
  · exact timed.stages stage old
  · obtain rfl := List.mem_singleton.1 new
    exact millis_lt stageMs

/-- The clocks say what they like. -/
theorem now_spec {Q : List Event → Prop} (E : List Event → Prop) :
    Spec shown initial Q (perform .now) (fun _ => Q) E := by
  refine System.Triple.perform (host_stable _) ?_
  rintro s reply t logged rfl
  exact ⟨logged.inv, logged⟩

section Stage

variable {restart : Bool} {settled : Shape} {trace : Trace}

/-- The report of a trace between stages. -/
theorem Carries.between (carries : Carries restart settled trace) {log : List Event}
    (story : Story restart settled log)
    (front : ∃ whole ∈ orders restart, settled.map Prod.fst <+: whole) :
    Truthful trace.report log :=
  ⟨restart, settled, [], carries.operation, by rw [carries.tells, List.append_nil], story,
    carries.outcome ▸ .between, by rw [List.append_nil]; exact front⟩

/-- How a block that was attempted came out. -/
def Attempted {α : Type} (R : α → List Event → Prop) (E : List Event → Prop) :
    Except Stop α → List Event → Prop
  | .ok value => R value
  | .error _ => E

/-- **A stage.**  What its operation does to the log is all it does, and it is told. -/
theorem stage_spec (carries : Carries restart settled trace) {α : Type} {name : String}
    {block : Run α} {Q : List Event → Prop} {R : α → List Event → Prop} {E : List Event → Prop}
    (body : Spec shown initial Q block R E)
    (front : ∃ whole ∈ orders restart, settled.map Prod.fst ++ [name] <+: whole)
    (opening : ∀ log, Q log → Story restart settled log)
    (done : ∀ value log, R value log → Story restart (settled ++ [(name, .complete)]) log)
    (stopped : ∀ log, E log → Story restart settled log) (pid : Nat) :
    Spec shown initial Q (trace.stage shown pid name block)
      (fun x log => R x.1 log ∧ Carries restart (settled ++ [(name, .complete)]) x.2) E := by
  have names : ∀ outcome, ∃ whole ∈ orders restart,
      (settled ++ [(name, outcome)]).map Prod.fst <+: whole := by
    intro outcome
    rw [List.map_append]
    exact front
  have opened : ∀ log, Q log → Truthful (trace.report.push name) log := by
    intro log holds
    refine ⟨restart, settled, [(name, .running)], carries.operation, ?_, opening log holds, ?_,
      names .running⟩
    · rw [shape_push, carries.tells]
    · rw [Startup.Report.push, carries.outcome]
      exact .running name
  have attempted : @System.Triple Requests host (Inv shown initial) Stop _ (Logged shown initial Q)
      (attempt block) (fun result => Logged shown initial (Attempted R E result))
      (Logged shown initial E) :=
    System.Triple.attempt body fun _ _ logged => logged
  refine System.Triple.bind (checkpoint_spec (carries.timed.push name) opened pid E) fun _ => ?_
  refine System.Triple.bind (now_spec E) fun began => ?_
  refine System.Triple.bind attempted fun result => ?_
  refine System.Triple.bind (now_spec E) fun stageEnd => ?_
  refine System.Triple.bind (now_spec E) fun totalEnd => ?_
  cases result with
  | ok value =>
      have finished : ∀ stageMs totalMs log, R value log →
          Truthful ((trace.report.push name).finish true stageMs totalMs) log := by
        intro stageMs totalMs log holds
        refine ⟨restart, settled ++ [(name, .complete)], [], carries.operation, ?_,
          done value log holds, ?_, ?_⟩
        · rw [shape_finish, carries.tells, List.append_nil]
          rfl
        · rw [Startup.Report.finish, Startup.Report.push, if_pos rfl, carries.outcome]
          exact .between
        · rw [List.append_nil]
          exact names .complete
      refine System.Triple.bind (checkpoint_spec (carries.timed.finish name true _ _)
        (finished _ _) pid E) fun _ => ?_
      refine spec_pure fun log holds => ⟨holds, ⟨carries.timed.finish name true _ _,
        carries.operation, ?_, ?_⟩⟩
      · rw [Startup.Report.finish, Startup.Report.push, if_pos rfl, carries.outcome]
      · rw [shape_finish, carries.tells]
        rfl
  | error stop =>
      have finished : ∀ stageMs totalMs log, E log →
          Truthful ((trace.report.push name).finish false stageMs totalMs) log := by
        intro stageMs totalMs log holds
        refine ⟨restart, settled, [(name, .failed)], carries.operation, ?_, stopped log holds, ?_,
          names .failed⟩
        · rw [shape_finish, carries.tells]
          rfl
        · rw [Startup.Report.finish]
          exact .failed name
      refine System.Triple.bind (checkpoint_spec (carries.timed.finish name false _ _)
        (finished _ _) pid E) fun _ => ?_
      exact System.Triple.throw fun _ logged => logged

end Stage

/-! ## What is asked of the VM -/

/-- What holds of a log, whatever happens to the VM. -/
def Stays (P : List Event → Prop) : Prop :=
  ∀ e log, e.isLocked = false → P log → P (e :: log)

theorem stays_operation (op : Operation) : Stays fun log => operation log = some op :=
  fun _ log other is => (operation_cons other log).trans is

theorem stays_story (restart : Bool) (settled : Shape) : Stays (Story restart settled) :=
  fun _ _ other story => story.cons other

/-- The VM was just seen like this. -/
def Saw (status : Option String) (log : List Event) : Prop :=
  log.head? = some (.saw status)

/-- No VM was just seen, or one that is stopped. -/
def Down (log : List Event) : Prop :=
  Saw none log ∨ Saw (some "Stopped") log

section Blocks

variable {P : List Event → Prop}

theorem ensureContext_spec : Spec shown initial P ensureContext (fun _ => P) P := by
  have ready : Spec shown initial P (demand .contextReady id) (fun _ => P) P :=
    silent_spec (by exact fun _ _ _ performed => performed) fun _ => rfl
  have created : Spec shown initial P (demand .contextCreate id) (fun _ => P) P :=
    silent_spec (by exact fun _ _ _ performed => performed) fun _ => rfl
  refine System.Triple.bind ready fun there => ?_
  cases there with
  | true => exact spec_pure fun _ holds => holds
  | false =>
      refine System.Triple.bind created fun _ => ?_
      refine System.Triple.bind ready fun there => ?_
      cases there with
      | true => exact spec_pure fun _ holds => holds
      | false => exact spec_refuse fun _ holds => holds

variable (stays : Stays P)
include stays

theorem vm_spec : Spec shown initial P (demand .vm id) (fun status log => P log ∧ Saw status log) P := by
  refine demand_spec (by exact fun _ _ _ performed => performed) ?_ ?_ ?_
  · rintro log (message | status) e _ is
    · cases is
    · obtain rfl := Option.some.inj is
      trivial
  · rintro log reply value holds ok
    obtain rfl : reply = .ok value := ok
    exact ⟨stays _ log rfl holds, rfl⟩
  · rintro log reply message holds failed
    obtain rfl : reply = .error message := failed
    exact holds

theorem startPreflight_spec (restart : Bool) :
    Spec shown initial P (startPreflight restart) (fun running log => P log ∧
      Saw (some (if running then "Running" else "Stopped")) log) P := by
  have lima : Spec shown initial P (demand .checkLima id) (fun _ => P) P :=
    silent_spec (by exact fun _ _ _ performed => performed) fun _ => rfl
  have configured : Spec shown initial P (demand .config id) (fun _ => P) P :=
    silent_spec (by exact fun _ _ _ performed => performed) fun _ => rfl
  refine System.Triple.bind lima fun _ => ?_
  refine System.Triple.bind configured fun config => ?_
  have validated : Spec shown initial P (demand (.validate config) id) (fun _ => P) P :=
    silent_spec (by exact fun _ _ _ performed => performed) fun _ => rfl
  have resources : Spec shown initial P (demand (.checkResources config) id) (fun _ => P) P :=
    silent_spec (by exact fun _ _ _ performed => performed) fun _ => rfl
  refine System.Triple.bind validated fun _ => ?_
  refine System.Triple.bind resources fun _ => ?_
  refine System.Triple.bind ensureContext_spec fun _ => ?_
  refine System.Triple.bind (vm_spec stays) fun status => ?_
  cases status with
  | none => exact spec_refuse fun _ holds => holds.1
  | some status =>
      dsimp only
      split
      · rename_i known
        have space : Spec shown initial (fun log => P log ∧ Saw (some status) log)
            (demand .availableSpace id) (fun _ log => P log ∧ Saw (some status) log) P :=
          spec_weaken (fun _ holds => holds) (silent_spec (by exact fun _ _ _ performed => performed) fun _ => rfl)
            (fun _ _ holds => holds) fun _ holds => holds.1
        have is : status = if decide (status = "Running") then "Running" else "Stopped" := by
          rcases known with rfl | rfl <;> rfl
        have goes : ∀ log, P log ∧ Saw (some status) log → P log ∧
            Saw (some (if decide (status = "Running") then "Running" else "Stopped")) log :=
          fun log holds => ⟨holds.1, is ▸ holds.2⟩
        split
        · refine System.Triple.bind space fun found => ?_
          dsimp only
          split
          · exact spec_refuse fun _ holds => holds.1
          · exact spec_pure goes
        · exact spec_pure goes
      · exact spec_refuse fun _ holds => holds.1

theorem dockerShutdown_spec :
    Spec shown initial (fun log => P log ∧ Saw (some "Running") log)
      (demand .dockerShutdown fun reply => reply.mapError fun _ => shutdownContext)
      (fun _ log => P log ∧ ∃ rest, log = .dockerShutdown true :: .saw (some "Running") :: rest) P := by
  refine demand_spec (by exact fun _ _ _ performed => performed) ?_ ?_ ?_
  · rintro log reply e holds is
    obtain rfl := Option.some.inj is
    exact holds.2
  · rintro log (message | ⟨⟨⟩⟩) value holds ok
    · cases ok
    · refine ⟨stays _ log rfl holds.1, log.tail, ?_⟩
      have head := holds.2
      cases log with
      | nil => cases head
      | cons e rest =>
          obtain rfl := Option.some.inj head
          rfl
  · rintro log reply message holds _
    exact stays _ log rfl holds.1

theorem limaStop_spec {force : Bool} {Q : List Event → Prop}
    (allowed : ∀ log, P log → Q log → ∀ ok, Allowed (.limaStop force ok) log) :
    Spec shown initial (fun log => P log ∧ Q log) (demand (.limaStop force) id) (fun _ => P) P := by
  refine demand_spec (by exact fun _ _ _ performed => performed) ?_ ?_ ?_
  · rintro log reply e holds is
    obtain rfl := Option.some.inj is
    exact allowed log holds.1 holds.2 _
  · rintro log reply value holds _
    exact stays _ log rfl holds.1
  · rintro log reply message holds _
    exact stays _ log rfl holds.1

/-- The VM is looked at again once it should be down. -/
theorem stopped_spec (missing running : String) :
    Spec shown initial P (do
      match ← demand .vm id with
      | none => refuse missing
      | some status => if status = "Stopped" then pure () else refuse running)
      (fun _ log => P log ∧ Down log) P := by
  refine System.Triple.bind (vm_spec stays) fun status => ?_
  cases status with
  | none => exact spec_refuse fun _ holds => holds.1
  | some status =>
      dsimp only
      split
      · rename_i is
        subst is
        exact spec_pure fun _ holds => ⟨holds.1, .inr holds.2⟩
      · exact spec_refuse fun _ holds => holds.1

theorem powerOff_spec {force : Bool} {status : String} (up : status ≠ "Stopped")
    (reason : (force = false ∧ status = "Running") ∨
      (force = true ∧ ∀ log, P log → operation log = some (.stop true))) :
    Spec shown initial (fun log => P log ∧ Saw (some status) log) (powerOff force)
      (fun _ log => P log ∧ Down log) P := by
  rcases reason with ⟨rfl, rfl⟩ | ⟨rfl, known⟩
  · have stop := @limaStop_spec F shown initial P stays false (fun log =>
      ∃ rest, log = .dockerShutdown true :: .saw (some "Running") :: rest) fun _ _ behind _ => behind
    refine System.Triple.bind (dockerShutdown_spec stays) fun _ => ?_
    exact System.Triple.bind stop fun _ => stopped_spec stays _ _
  · have stop := @limaStop_spec F shown initial P stays true (Saw (some status))
      fun log holds seen _ => ⟨known log holds, status, up, seen⟩
    exact System.Triple.bind stop fun _ => stopped_spec stays _ _

/-- **Stopping.**  Whether or not there was anything to do, the VM is down in the end. -/
theorem stopLocked_spec {force : Bool}
    (known : force = true → ∀ log, P log → operation log = some (.stop true)) :
    Spec shown initial P (stopLocked force) (fun _ log => P log ∧ Down log) P := by
  have lima : Spec shown initial P (demand .checkLima id) (fun _ => P) P :=
    silent_spec (by exact fun _ _ _ performed => performed) fun _ => rfl
  refine System.Triple.bind lima fun _ => ?_
  refine System.Triple.bind (vm_spec stays) fun status => ?_
  cases status with
  | none => exact spec_pure fun _ holds => ⟨holds.1, .inl holds.2⟩
  | some status =>
      dsimp only
      split
      · rename_i is
        subst is
        exact spec_pure fun _ holds => ⟨holds.1, .inr holds.2⟩
      rename_i up
      split
      · rename_i reason
        refine powerOff_spec stays up ?_
        cases force with
        | false => exact .inl ⟨rfl, reason.resolve_right (by simp)⟩
        | true => exact .inr ⟨rfl, known rfl⟩
      · exact spec_refuse fun _ holds => holds.1

theorem limaStart_spec {Q : List Event → Prop}
    (allowed : ∀ log, P log → Q log → ∀ ok, Allowed (.limaStart ok) log) :
    Spec shown initial (fun log => P log ∧ Q log) (demand .limaStart id)
      (fun _ log => P log ∧ log.head? = some (.limaStart true)) P := by
  refine demand_spec (by exact fun _ _ _ performed => performed) ?_ ?_ ?_
  · rintro log reply e holds is
    obtain rfl := Option.some.inj is
    exact allowed log holds.1 holds.2 _
  · rintro log (message | ⟨⟨⟩⟩) value holds ok
    · cases ok
    · exact ⟨stays _ log rfl holds.1, rfl⟩
  · rintro log reply message holds _
    exact stays _ log rfl holds.1

theorem waitForEngine_spec {Q : List Event → Prop}
    (allowed : ∀ log, P log → Q log → Allowed .engineReady log) :
    Spec shown initial (fun log => P log ∧ Q log) (demand .waitForEngine id)
      (fun _ log => P log ∧ log.head? = some .engineReady) P := by
  refine demand_spec (by exact fun _ _ _ performed => performed) ?_ ?_ ?_
  · rintro log (message | ⟨⟨⟩⟩) e holds is
    · cases is
    · obtain rfl := Option.some.inj is
      exact allowed log holds.1 holds.2
  · rintro log (message | ⟨⟨⟩⟩) value holds ok
    · cases ok
    · exact ⟨stays _ log rfl holds.1, rfl⟩
  · rintro log (message | ⟨⟨⟩⟩) message' holds failed
    · exact holds.1
    · cases failed

end Blocks

/-! ## Starting -/

theorem current_head {log : List Event} {e : Event} (other : e.isLocked = false)
    (head : log.head? = some e) : e ∈ current log := by
  cases log with
  | nil => cases head
  | cons first rest =>
      obtain rfl := Option.some.inj head
      rw [current_cons other]
      exact List.mem_cons_self

/-- A stage is over, for this reason. -/
theorem Story.complete {restart : Bool} {settled : Shape} {log : List Event}
    (story : Story restart settled log) {name : String} (shows : Shows (current log) name) :
    Story restart (settled ++ [(name, .complete)]) log := by
  refine ⟨story.operation, fun entry member => ?_⟩
  rcases List.mem_append.1 member with old | new
  · exact story.each entry old
  · obtain rfl := List.mem_singleton.1 new
    exact .inl ⟨rfl, shows⟩

/-- A stage that begins with what its operation asks, and ends with a reason. -/
theorem told_spec {restart : Bool} {settled : Shape} {trace : Trace}
    (carries : Carries restart settled trace) {α : Type} {name : String} {block : Run α}
    {Q : List Event → Prop} {R : α → List Event → Prop}
    (body : Spec shown initial (fun log => Story restart settled log ∧ Q log) block
      (fun value log => Story restart settled log ∧ R value log) (Story restart settled))
    (front : ∃ whole ∈ orders restart, settled.map Prod.fst ++ [name] <+: whole)
    (reason : ∀ value log, R value log → Shows (current log) name) (pid : Nat) :
    Spec shown initial (fun log => Story restart settled log ∧ Q log)
      (trace.stage shown pid name block)
      (fun x log => (Story restart (settled ++ [(name, .complete)]) log ∧ R x.1 log) ∧
        Carries restart (settled ++ [(name, .complete)]) x.2) (Story restart settled) :=
  spec_weaken (fun _ holds => holds)
    (stage_spec carries body front (fun _ holds => holds.1)
      (fun value log holds => holds.1.complete (reason value log holds.2)) (fun _ holds => holds) pid)
    (fun x log holds => ⟨⟨holds.1.1.complete (reason x.1 log holds.1.2), holds.1.2⟩, holds.2⟩)
    fun _ holds => holds

theorem new_spec (pid : Nat) (restart : Bool) :
    Spec shown initial (Story restart []) (Trace.new shown pid (operationName restart))
      (fun trace log => Story restart [] log ∧ Carries restart [] trace) (Story restart []) := by
  refine System.Triple.bind (now_spec _) fun started => ?_
  have clock : Spec shown initial (Story restart []) (perform .unixTime) (fun _ => Story restart [])
      (Story restart []) := by
    refine System.Triple.perform (host_stable _) ?_
    rintro s reply t logged rfl
    exact ⟨logged.inv, logged⟩
  refine System.Triple.bind clock fun unixMs => ?_
  have carries : Carries restart []
      ⟨reading started, Startup.Report.new (operationName restart) (reading unixMs)⟩ :=
    ⟨⟨rfl, millis_lt _, Nat.succ_pos _, fun _ member => absurd member List.not_mem_nil⟩, rfl, rfl, rfl⟩
  have front : ∃ whole ∈ orders restart, ([] : List String) <+: whole :=
    ⟨_, List.mem_cons_self, List.nil_prefix⟩
  refine System.Triple.bind (checkpoint_spec carries.timed
    (fun log story => carries.between story front) pid _) fun _ => ?_
  exact spec_pure fun log story => ⟨story, carries⟩

/-- The VM may be started, or is up already and may stay so. -/
def Ready (log : List Event) : Prop :=
  log.head? = some (.limaStart true) ∨ (Saw (some "Running") log ∧ operation log = some .start)

/-- A trace after stages that all are over, and the names that are still to come. -/
structure Through (restart : Bool) (rest : List String) (trace : Trace) (log : List Event) : Prop where
  settled : ∃ settled, Carries restart settled trace ∧ Story restart settled log ∧
    settled.map Prod.fst ++ rest ∈ orders restart

theorem mem_orders (restart : Bool) :
    ["preflight", "lima_start", "engine_socket_ready"] ∈ orders restart :=
  List.mem_cons_self

theorem mem_orders_restart :
    ["preflight", "lima_stop", "lima_start", "engine_socket_ready"] ∈ orders true :=
  List.mem_cons_of_mem _ (List.mem_singleton.2 rfl)

theorem Down.shows {log : List Event} (down : Down log) : Shows (current log) "lima_stop" := by
  rcases down with gone | stopped
  · exact .limaStop (.inl rfl) (current_head rfl gone)
  · exact .limaStop (.inr rfl) (current_head rfl stopped)

/-- How the VM was left where it may have to be started. -/
def Left (restart running : Bool) (log : List Event) : Prop :=
  match running, restart with
  | false, _ => Saw (some "Stopped") log
  | true, true => Down log
  | true, false => Saw (some "Running") log

theorem stopStage_spec (pid : Nat) (restart running : Bool) {trace : Trace}
    (carries : Carries restart [("preflight", .complete)] trace) :
    Spec shown initial (fun log => Story restart [("preflight", .complete)] log ∧
        Saw (some (if running then "Running" else "Stopped")) log)
      (stopStage shown pid restart running trace)
      (fun trace log => Through restart ["lima_start", "engine_socket_ready"] trace log ∧
        Left restart running log)
      (fun log => operation log = some (operationOf restart)) := by
  unfold stopStage
  by_cases both : restart = true ∧ running = true
  · rw [if_pos both]
    obtain ⟨rfl, rfl⟩ := both
    have body := @stopLocked_spec F shown initial _ (stays_story true [("preflight", .complete)]) false
      (fun is => by cases is)
    have told := @told_spec F shown initial true _ trace carries _ "lima_stop" _ (Saw (some "Running")) _
      (spec_weaken (fun _ holds => holds.1) body (fun _ _ holds => holds) fun _ holds => holds)
      ⟨_, mem_orders_restart, ["lima_start", "engine_socket_ready"], rfl⟩
      (fun _ _ down => Down.shows down) pid
    refine System.Triple.bind (spec_weaken (fun _ holds => holds) told (fun _ _ holds => holds)
      fun _ story => story.operation) fun result => ?_
    exact spec_pure fun log holds => ⟨⟨_, holds.2, holds.1.1, mem_orders_restart⟩, holds.1.2⟩
  · rw [if_neg both]
    refine spec_pure fun log holds => ⟨⟨_, carries, holds.1, mem_orders restart⟩, ?_⟩
    cases running with
    | false => exact holds.2
    | true =>
        cases restart with
        | false => exact holds.2
        | true => exact absurd ⟨rfl, rfl⟩ both

/-- What is through in a log, one log at a time. -/
theorem through_spec {α : Type} {restart : Bool} {rest : List String} {trace : Trace} {block : Run α}
    {Q : List Event → Prop} {R : α → List Event → Prop} {E : List Event → Prop}
    (each : ∀ settled, Carries restart settled trace → settled.map Prod.fst ++ rest ∈ orders restart →
      Spec shown initial (fun log => Story restart settled log ∧ Q log) block R E) :
    Spec shown initial (fun log => Through restart rest trace log ∧ Q log) block R E := by
  rintro s ⟨⟨⟨settled, carries, story, whole⟩, holds⟩, inv⟩
  exact each settled carries whole s ⟨⟨story, holds⟩, inv⟩

theorem startStage_spec (pid : Nat) (restart running : Bool) (trace : Trace) :
    Spec shown initial (fun log => Through restart ["lima_start", "engine_socket_ready"] trace log ∧
        Left restart running log)
      (startStage shown pid restart running trace)
      (fun trace log => Through restart ["engine_socket_ready"] trace log ∧ Ready log)
      (fun log => operation log = some (operationOf restart)) := by
  refine through_spec fun settled carries whole => ?_
  unfold startStage
  by_cases either : running = false ∨ restart = true
  · rw [if_pos either]
    have allowed : ∀ log, Story restart settled log → Left restart running log →
        ∀ ok, Allowed (.limaStart ok) log := by
      intro log story left ok
      cases running with
      | false => exact .inl left
      | true =>
          obtain rfl := either.resolve_left (by simp)
          rcases left with gone | stopped
          · exact .inr ⟨gone, story.operation⟩
          · exact .inl stopped
    have body := @limaStart_spec F shown initial _ (stays_story restart settled) _ allowed
    have told := told_spec carries body ⟨_, whole, ["engine_socket_ready"], by simp⟩
      (fun _ _ started => .limaStart (current_head rfl started)) pid
    refine System.Triple.bind (spec_weaken (fun _ holds => holds) told (fun _ _ holds => holds)
      fun _ story => story.operation) fun result => ?_
    exact spec_pure fun log holds =>
      ⟨⟨_, holds.2, holds.1.1, by simpa using whole⟩, .inl holds.1.2⟩
  · rw [if_neg either]
    obtain ⟨rfl, rfl⟩ : running = true ∧ restart = false := by simpa using either
    have skipped : ∀ log, Story false settled log ∧ Left false true log →
        Story false (settled ++ [("lima_start", .skipped)]) log := by
      rintro log ⟨story, seen⟩
      refine ⟨story.operation, fun entry member => ?_⟩
      rcases List.mem_append.1 member with old | new
      · exact story.each entry old
      · exact .inr ⟨List.mem_singleton.1 new, rfl, current_head rfl seen⟩
    have after : Carries false (settled ++ [("lima_start", .skipped)])
        { trace with report := trace.report.skip "lima_start" } := by
      refine ⟨carries.timed.skip _, carries.operation, carries.outcome, ?_⟩
      rw [shape_skip, carries.tells]
    have front : (settled ++ [("lima_start", Startup.Outcome.skipped)]).map Prod.fst ++ ["engine_socket_ready"] ∈
        orders false := by
      simpa using whole
    refine System.Triple.bind (checkpoint_spec after.timed
      (fun log holds => after.between (skipped log holds) ⟨_, front, _, rfl⟩) pid _) fun _ => ?_
    exact spec_pure fun log holds =>
      ⟨⟨_, after, skipped log holds, front⟩, .inr ⟨holds.2, holds.1.operation⟩⟩

/-- The last stage, and the end of the report. -/
theorem readyStage_spec (pid : Nat) (restart : Bool) (trace : Trace) :
    Spec shown initial (fun log => Through restart ["engine_socket_ready"] trace log ∧ Ready log)
      (do
        let ready ← trace.stage shown pid "engine_socket_ready" (demand .waitForEngine id)
        ready.2.complete shown pid)
      (fun _ log => operation log = some (operationOf restart) ∧ log.head? = some .engineReady)
      (fun log => operation log = some (operationOf restart)) := by
  refine through_spec fun settled carries whole => ?_
  have body := @waitForEngine_spec F shown initial _ (stays_story restart settled) Ready
    fun _ _ ready => ready
  have told := told_spec carries body ⟨_, whole, [], by simp⟩
    (fun _ _ ready => .engineSocketReady (current_head rfl ready)) pid
  refine System.Triple.bind (spec_weaken (fun _ holds => holds) told (fun _ _ holds => holds)
    fun _ story => story.operation) fun result => ?_
  refine System.Triple.bind (now_spec _) fun totalEnd => ?_
  rintro s ⟨⟨⟨story, ready⟩, after⟩, inv⟩
  have timed : Timed (result.2.report.complete (reading totalEnd - result.2.started)) :=
    ⟨after.timed.schemaVersion, after.timed.startedUnixMs, millis_lt _, after.timed.stages⟩
  have names : (settled ++ [("engine_socket_ready", Startup.Outcome.complete)]).map Prod.fst ∈ orders restart := by
    simpa using whole
  have truthful : ∀ log, (Story restart (settled ++ [("engine_socket_ready", .complete)]) log ∧
      log.head? = some .engineReady) →
      Truthful (result.2.report.complete (reading totalEnd - result.2.started)) log := by
    intro log holds
    refine ⟨restart, _, [], after.operation, ?_, holds.1, .complete names, _, names, ?_⟩
    · rw [List.append_nil]
      exact after.tells
    · simp
  have saved := @checkpoint_spec F shown initial _ _ timed truthful pid
    (fun log => operation log = some (operationOf restart))
  exact spec_weaken (fun _ holds => holds) saved (fun _ _ holds => ⟨holds.1.operation, holds.2⟩)
    (fun _ holds => holds) s ⟨⟨story, ready⟩, inv⟩

/-- **Starting.**  Behind a start or a restart that goes through the engine has answered. -/
theorem startLocked_spec (pid : Nat) (restart : Bool) :
    Spec shown initial (fun log => operation log = some (operationOf restart))
      (startLocked shown pid restart)
      (fun _ log => operation log = some (operationOf restart) ∧ log.head? = some .engineReady)
      (fun log => operation log = some (operationOf restart)) := by
  have opening : ∀ log, operation log = some (operationOf restart) → Story restart [] log :=
    fun log is => ⟨is, fun _ member => absurd member List.not_mem_nil⟩
  refine System.Triple.bind (spec_weaken opening (new_spec pid restart) (fun _ _ holds => holds)
    fun _ story => story.operation) fun trace => ?_
  rintro s ⟨⟨story, carries⟩, inv⟩
  have body := @startPreflight_spec F shown initial _ (stays_story restart []) restart
  have reason : ∀ (running : Bool) log, Saw (some (if running then "Running" else "Stopped")) log →
      Shows (current log) "preflight" := by
    intro running log seen
    cases running with
    | false => exact .preflight (.inr rfl) (current_head rfl seen)
    | true => exact .preflight (.inl rfl) (current_head rfl seen)
  have told := @told_spec F shown initial restart [] trace carries _ "preflight" _ (fun _ => True) _
    (spec_weaken (fun _ holds => holds.1) body (fun _ _ holds => holds) fun _ holds => holds)
    ⟨_, mem_orders restart, ["lima_start", "engine_socket_ready"], rfl⟩ reason pid
  refine System.Triple.bind (spec_weaken (fun _ holds => ⟨holds, trivial⟩) told
    (fun _ _ holds => holds) fun _ story => story.operation) (fun preflight => ?_) s ⟨story, inv⟩
  rintro s ⟨⟨⟨story, seen⟩, carries⟩, inv⟩
  refine System.Triple.bind (stopStage_spec pid restart preflight.1 carries) (fun trace => ?_) s
    ⟨⟨story, seen⟩, inv⟩
  refine System.Triple.bind (startStage_spec pid restart preflight.1 trace) fun trace => ?_
  exact readyStage_spec pid restart trace

/-! ## Commands -/

/-- What an operation that went through has behind it. -/
def Finished (op : Operation) (log : List Event) : Prop :=
  operation log = some op ∧ match op with
    | .stop _ => Down log
    | .start | .restart => log.head? = some .engineReady

theorem lock_spec (op : Operation) :
    Spec shown initial (fun _ => True) (demand (.lock op) id) (fun _ log => operation log = some op)
      (fun _ => True) := by
  refine demand_spec (by exact fun _ _ _ performed => performed) ?_ ?_ ?_
  · rintro log (message | ⟨⟨⟩⟩) e _ is
    · cases is
    · obtain rfl := Option.some.inj is
      trivial
  · rintro log (message | ⟨⟨⟩⟩) value _ ok
    · cases ok
    · rfl
  · exact fun _ _ _ _ _ => trivial

theorem command_spec (pid : Nat) (op : Operation) :
    Spec shown initial (fun _ => True) (command shown pid op) (fun _ => Finished op)
      (fun _ => True) := by
  have silent : ∀ {Q : List Event → Prop} {request : Request}
      {outcome : Reply request → Except String Unit},
      (∀ s reply t, exec request s reply t → t = s) → (∀ reply, event request reply = none) →
      Spec shown initial Q (demand request outcome) (fun _ => Q) (fun _ => True) :=
    fun plain nothing => spec_weaken (fun _ holds => holds) (silent_spec plain nothing)
      (fun _ _ holds => holds) fun _ _ => trivial
  refine System.Triple.bind (silent (by exact fun _ _ _ performed => performed) fun _ => rfl)
    fun _ => ?_
  refine System.Triple.bind (silent (by exact fun _ _ _ performed => performed) fun _ => rfl)
    fun _ => ?_
  refine System.Triple.bind (lock_spec op) fun _ => ?_
  have inspected : Spec shown initial (Finished op) (demand .inspect id) (fun _ => Finished op)
      (fun _ => True) :=
    silent (by exact fun _ _ _ performed => performed) fun _ => rfl
  cases op with
  | start =>
      exact System.Triple.bind (spec_weaken (fun _ is => is) (startLocked_spec pid false)
        (fun _ _ holds => holds) fun _ _ => trivial) fun _ => inspected
  | restart =>
      exact System.Triple.bind (spec_weaken (fun _ is => is) (startLocked_spec pid true)
        (fun _ _ holds => holds) fun _ _ => trivial) fun _ => inspected
  | stop force =>
      have stopped := @stopLocked_spec F shown initial _ (stays_operation (.stop force)) force
        fun is _ known => is ▸ known
      exact System.Triple.bind (spec_weaken (fun _ is => is) stopped
        (fun _ _ holds => holds) fun _ _ => trivial) fun _ => inspected

variable (shown initial)

/-- Commands, by the process that runs them. -/
def commands (i : Nat × Operation) : Program Requests (Except Stop Unit) :=
  (command shown i.1 i.2).run

variable {shown initial}

/-- Any number of commands, from a log that begins here. -/
theorem commands_safe {temporary : Nat → Option Bytes}
    {m : Machine host (Nat × Operation) (Except Stop Unit)}
    (reaches : host.Reaches (commands shown) ⟨⟨initial, temporary, []⟩, none⟩ m) :
    Inv shown initial m.state ∧ ∀ pid op, m.running = some ((pid, op), .done (.ok ())) →
      Finished op m.state.log := by
  have first : Inv shown initial (⟨initial, temporary, []⟩ : State) := ⟨trivial, .inl rfl⟩
  have safe : ∀ (i : Nat × Operation) (s : State), Inv shown initial s →
      @System.Safe Requests host _ (Inv shown initial)
        (@System.Ends Requests host Stop Unit (fun _ => Logged shown initial (Finished i.2))
          (Logged shown initial fun _ => True)) (commands shown i) s :=
    fun i s inv => command_spec i.1 i.2 s ⟨trivial, inv⟩
  obtain ⟨inv, rest⟩ := System.reachable_safe (host_stable _) (fun _ _ moves => moves.elim)
    (fun _ _ => host_stable _) safe rfl first reaches
  exact ⟨inv, fun pid op running => (rest _ _ running).log⟩

end Specs

/-! ## A restart in which nothing fails -/

namespace Smooth

/-- The VM is down once it was powered off. -/
def status (log : List Event) : String :=
  (log.findSome? fun e => match e with
    | .limaStop _ true => some "Stopped"
    | .limaStart true => some "Running"
    | _ => none).getD "Running"

/-- A reply, and what is remembered of it. -/
def replying (request : Request) (reply : Reply request) (s : State) : Reply request × State :=
  (reply, s.record (event request reply))

/-- Nothing fails. -/
def serve : (request : Request) → State → Reply request × State
  | .config, s => replying .config (.ok ⟨1, 2, 4, 20, [], false⟩) s
  | .contextReady, s => replying .contextReady (.ok true) s
  | .vm, s => replying .vm (.ok (some (status s.log))) s
  | .availableSpace, s => replying .availableSpace (.ok requiredSpace) s
  | .unixTime, s => replying .unixTime (.ok 1) s
  | .now, s => replying .now (.ok 0) s
  | .createNew pid, s =>
      match s.temporary pid with
      | none => (.ok (), s.putTemporary pid (some []))
      | some _ => (.error "File exists", s)
  | .writeAll pid bytes, s => (.ok (), s.putTemporary pid (some bytes))
  | .rename pid, s =>
      match s.temporary pid with
      | none => (.error "No such file or directory", s)
      | some bytes => (.ok (), { s.putTemporary pid none with report := some bytes })
  | .removeFile pid, s => (.ok (), s.putTemporary pid none)
  | .checkHost, s => replying .checkHost (.ok ()) s
  | .ensureOwned, s => replying .ensureOwned (.ok ()) s
  | .lock operation, s => replying (.lock operation) (.ok ()) s
  | .checkLima, s => replying .checkLima (.ok ()) s
  | .validate config, s => replying (.validate config) (.ok ()) s
  | .checkResources config, s => replying (.checkResources config) (.ok ()) s
  | .contextCreate, s => replying .contextCreate (.ok ()) s
  | .limaStart, s => replying .limaStart (.ok ()) s
  | .dockerShutdown, s => replying .dockerShutdown (.ok ()) s
  | .limaStop force, s => replying (.limaStop force) (.ok ()) s
  | .waitForEngine, s => replying .waitForEngine (.ok ()) s
  | .inspect, s => replying .inspect (.ok ()) s
  | .syncAll pid, s => replying (.syncAll pid) (.ok ()) s
  | .syncDirectory, s => replying .syncDirectory (.ok ()) s

theorem serves (request : Request) (s : State) :
    exec request s (serve request s).1 (serve request s).2 := by
  cases request with
  | createNew pid =>
      cases there : s.temporary pid with
      | none =>
          simp only [serve, there]
          exact .inr ⟨there, rfl, rfl⟩
      | some bytes =>
          simp only [serve, there]
          exact .inl ⟨⟨_, rfl⟩, rfl⟩
  | rename pid =>
      cases there : s.temporary pid with
      | none =>
          simp only [serve, there]
          exact .inl ⟨⟨_, rfl⟩, rfl⟩
      | some bytes =>
          simp only [serve, there]
          exact .inr ⟨bytes, there, rfl, rfl⟩
  | writeAll pid bytes => exact ⟨bytes, rfl, fun _ => rfl⟩
  | removeFile pid => exact .inr ⟨rfl, rfl⟩
  | _ => rfl

def before : State :=
  ⟨none, fun _ => none, []⟩

def noFloat : List Char → Option Empty :=
  fun _ => none

/-- A restart, so many requests in. -/
def restarted (requests : Nat) : Program Requests (Except Stop Unit) × State :=
  Program.advance serve requests (commands Empty.elim (7, .restart), before)

theorem reached (requests : Nat) :
    host.Reaches (commands Empty.elim) ⟨before, none⟩
      ⟨(restarted requests).2, some ((7, .restart), (restarted requests).1)⟩ := by
  have leads := @System.Leads.advance Requests host _ serve serves requests
    (commands Empty.elim (7, .restart), before)
  exact Relation.ReflTransGen.trans (.single (.start (7, Operation.restart))) leads.reaches

/-- What it tells of itself in its third stage. -/
def thirdStage : Startup.Report where
  schemaVersion := 1
  operation := "restart"
  startedUnixMs := 1
  outcome := .running
  elapsedMs := 0
  stages := [⟨"preflight", .complete, 0⟩, ⟨"lima_stop", .complete, 0⟩, ⟨"lima_start", .running, 0⟩]

theorem thirdStage_short : thirdStage.Short where
  schemaVersion := rfl
  operation := by decide
  startedUnixMs := by decide
  elapsedMs := by decide
  count := by decide
  stages := by decide

end Smooth

/-- **Power.**  However many commands run, fail and are killed: Docker in a running VM is shut down
directly before the VM is powered off, unless that was to be forced; the VM is started only
where it was just seen to be stopped, or to be gone by a restart; and a command that goes through
has left the VM down or has had an answer of the engine. -/
theorem vm_orderly {F : Type} (shown : F → List Char) (report : Option Bytes)
    (temporary : Nat → Option Bytes) :
    ∀ m, host.Reaches (commands shown) ⟨⟨report, temporary, []⟩, none⟩ m →
      Orderly m.state.log ∧ ∀ pid op, m.running = some ((pid, op), .done (.ok ())) →
        Finished op m.state.log :=
  fun _ reaches => ⟨(commands_safe reaches).1.orderly, (commands_safe reaches).2⟩

/-- The restart goes through. -/
theorem vm_orderly_restart :
    Orderly (Smooth.restarted 200).2.log ∧ Finished .restart (Smooth.restarted 200).2.log := by
  obtain ⟨orderly, finished⟩ := vm_orderly Empty.elim none (fun _ => none) _ (Smooth.reached 200)
  have through : (Smooth.restarted 200).1 = .done (.ok ()) := Program.eq_done rfl
  exact ⟨orderly, finished 7 .restart (by rw [through])⟩

/-- **The last start.**  At every moment `last-start.json` is read as it was before all of them, or
as a report that was true when it was saved. -/
theorem last_start_truthful {F : Type} (float : List Char → Option F) (shown : F → List Char)
    (report : Option Bytes) (temporary : Nat → Option Bytes) :
    ∀ m, host.Reaches (commands shown) ⟨⟨report, temporary, []⟩, none⟩ m →
      Startup.read float m.state.report = Startup.read float report ∨
        ∃ told before, Startup.read float m.state.report = .ok (some told) ∧
          before <:+ m.state.log ∧ Truthful told before := by
  intro m reaches
  rcases (commands_safe reaches).1.reported with is | ⟨told, before, older, short, truthful, is⟩
  · exact .inl (congrArg _ is)
  · exact .inr ⟨told, before, is ▸ Startup.read_bytes float shown short, older, truthful⟩

/-- The restart is killed in its third stage, and the report tells of the three. -/
theorem last_start_truthful_restart :
    Startup.read Smooth.noFloat (Smooth.restarted 60).2.report = .ok (some Smooth.thirdStage) ∧
      ∃ before, before <:+ (Smooth.restarted 60).2.log ∧ Truthful Smooth.thirdStage before := by
  have saved : (Smooth.restarted 60).2.report =
      some (Smooth.thirdStage.bytes (Empty.elim : Empty → List Char)) := by
    decide +kernel
  have told : Startup.read Smooth.noFloat (Smooth.restarted 60).2.report =
      .ok (some Smooth.thirdStage) :=
    saved ▸ Startup.read_bytes Smooth.noFloat Empty.elim Smooth.thirdStage_short
  refine ⟨told, ?_⟩
  rcases last_start_truthful Smooth.noFloat Empty.elim none (fun _ => none) _
    (Smooth.reached 60) with older | ⟨read, before, is, older, truthful⟩
  · rw [told] at older
    cases older
  · rw [told] at is
    cases is
    exact ⟨before, older, truthful⟩

end Luhmen.Host.Lifecycle
