/-
# Host.Startup -- the report of the last start

`Report` and its parts are those of `src/startup.rs`, with the bytes `serde_json` derives for
them (`Report.bytes`), and `read` is what `luhmen inspect` makes of `last-start.json`.  The
functions of `Trace` below are what `new`, `stage`, `skip` and `complete` do to the report;
when they save it is in `Host.Lifecycle`.

A report of a few stages is short enough to be read, whatever the clocks said
(`read_bytes`).
-/
import Luhmen.Theory.JsonRecord
import Luhmen.Theory.JsonRoundTrip

namespace Luhmen.Host.Startup

open Luhmen.Theory

set_option autoImplicit false

inductive Outcome where
  | running
  | complete
  | failed
  | skipped
  deriving DecidableEq, Repr

structure Stage where
  name : String
  outcome : Outcome
  elapsedMs : Nat
  deriving DecidableEq, Repr

structure Report where
  schemaVersion : Nat
  operation : String
  startedUnixMs : Nat
  outcome : Outcome
  elapsedMs : Nat
  stages : List Stage
  deriving DecidableEq, Repr

/-! ## Bytes -/

def Outcome.text : Outcome → String
  | .running => "running"
  | .complete => "complete"
  | .failed => "failed"
  | .skipped => "skipped"

def outcomes : List (String × Outcome) :=
  [("running", .running), ("complete", .complete), ("failed", .failed), ("skipped", .skipped)]

section Format

variable {F : Type} (float : List Char → Option F) (shown : F → List Char)

def Stage.toJson (stage : Stage) : Json F :=
  .object [("name", .string stage.name), ("outcome", .string stage.outcome.text),
    ("elapsed_ms", .int stage.elapsedMs)]

def Stage.fromJson (v : Json F) : Option Stage := do
  let found ← Json.fields ["name", "outcome", "elapsed_ms"] false v
  let name ← Json.field "name" Json.asText found
  let outcome ← Json.field "outcome" (Json.asWord outcomes) found
  let elapsedMs ← Json.field "elapsed_ms" (Json.asNat 0x10000000000000000) found
  some ⟨name, outcome, elapsedMs⟩

def Report.toJson (report : Report) : Json F :=
  .object [("schema_version", .int report.schemaVersion), ("operation", .string report.operation),
    ("started_unix_ms", .int report.startedUnixMs), ("outcome", .string report.outcome.text),
    ("elapsed_ms", .int report.elapsedMs), ("stages", .array (report.stages.map Stage.toJson))]

def Report.fromJson (v : Json F) : Option Report := do
  let found ← Json.fields ["schema_version", "operation", "started_unix_ms", "outcome",
    "elapsed_ms", "stages"] false v
  let schemaVersion ← Json.field "schema_version" (Json.asNat 0x100000000) found
  let operation ← Json.field "operation" Json.asText found
  let startedUnixMs ← Json.field "started_unix_ms" (Json.asNat 0x10000000000000000) found
  let outcome ← Json.field "outcome" (Json.asWord outcomes) found
  let elapsedMs ← Json.field "elapsed_ms" (Json.asNat 0x10000000000000000) found
  let stages ← Json.field "stages" (Json.asList Stage.fromJson) found
  some ⟨schemaVersion, operation, startedUnixMs, outcome, elapsedMs, stages⟩

/-- `serde_json::to_vec_pretty`. -/
def Report.bytes (report : Report) : Bytes :=
  Json.pretty shown report.toJson

def sizeLimit : Nat := 65536

/-- What `last-start.json` says. -/
def read (file : Option Bytes) : Except String (Option Report) :=
  match file with
  | none => .ok none
  | some bytes =>
      if sizeLimit < (bytes.take (sizeLimit + 1)).length then
        .error "startup diagnostics exceed 64 KiB"
      else
        match (Json.readBytes float (bytes.take (sizeLimit + 1))).bind Report.fromJson with
        | none => .error "invalid startup diagnostics"
        | some report =>
            if report.schemaVersion ≠ 1 then .error "unsupported startup diagnostics schema"
            else .ok (some report)

end Format

/-! ## `Trace` -/

/-- `as_millis().try_into().unwrap_or(u64::MAX)`. -/
def millis (elapsed : Nat) : Nat :=
  min elapsed 0xffffffffffffffff

def Report.new (operation : String) (unixMs : Nat) : Report :=
  ⟨1, operation, millis unixMs, .running, 0, []⟩

/-- The begin of a stage. -/
def Report.push (report : Report) (name : String) : Report :=
  { report with stages := report.stages ++ [⟨name, .running, 0⟩] }

/-- The end of the last stage, and how long it and all of it took. -/
def Report.finish (report : Report) (ok : Bool) (stageMs totalMs : Nat) : Report :=
  { report with
    stages := report.stages.modifyLast fun stage =>
      { stage with elapsedMs := millis stageMs, outcome := if ok then .complete else .failed }
    elapsedMs := millis totalMs
    outcome := if ok then report.outcome else .failed }

def Report.skip (report : Report) (name : String) : Report :=
  { report with stages := report.stages ++ [⟨name, .skipped, 0⟩] }

def Report.complete (report : Report) (totalMs : Nat) : Report :=
  { report with outcome := .complete, elapsedMs := millis totalMs }

/-! ## Reading back -/

/-- The numbers fit their types, the texts are short, and there are few stages. -/
structure Report.Short (report : Report) : Prop where
  schemaVersion : report.schemaVersion = 1
  operation : report.operation.utf8ByteSize ≤ 32
  startedUnixMs : report.startedUnixMs < 0x10000000000000000
  elapsedMs : report.elapsedMs < 0x10000000000000000
  count : report.stages.length ≤ 8
  stages : ∀ stage ∈ report.stages,
    stage.name.utf8ByteSize ≤ 32 ∧ stage.elapsedMs < 0x10000000000000000

section ReadBack

variable {F : Type} (float : List Char → Option F) (shown : F → List Char)

theorem asWord_text (outcome : Outcome) :
    Json.asWord outcomes (.string outcome.text : Json F) = some outcome := by
  cases outcome <;> rfl

theorem Stage.fromJson_toJson {stage : Stage} (small : stage.elapsedMs < 0x10000000000000000) :
    Stage.fromJson (stage.toJson : Json F) = some stage := by
  obtain ⟨found, is⟩ : ∃ found : List (String × Json F), found = [("name", .string stage.name),
    ("outcome", .string stage.outcome.text), ("elapsed_ms", .int stage.elapsedMs)] := ⟨_, rfl⟩
  have name : Json.field "name" Json.asText found = some stage.name :=
    Json.field_of_find (by simp [is, Json.find]; rfl) rfl
  have outcome : Json.field "outcome" (Json.asWord outcomes) found = some stage.outcome :=
    Json.field_of_find (by simp [is, Json.find]) (asWord_text stage.outcome)
  have elapsed : Json.field "elapsed_ms" (Json.asNat 0x10000000000000000) found =
      some stage.elapsedMs :=
    Json.field_of_find (by simp [is, Json.find]) (Json.asNat_int small)
  rw [fromJson, toJson, Json.fields_object (by simp) (by simp), ← is]
  simp only [name, outcome, elapsed, Option.bind_eq_bind, Option.bind_some]

theorem Report.fromJson_toJson {report : Report} (short : report.Short) :
    Report.fromJson (report.toJson : Json F) = some report := by
  obtain ⟨found, is⟩ : ∃ found : List (String × Json F), found =
    [("schema_version", .int report.schemaVersion), ("operation", .string report.operation),
      ("started_unix_ms", .int report.startedUnixMs), ("outcome", .string report.outcome.text),
      ("elapsed_ms", .int report.elapsedMs), ("stages", .array (report.stages.map Stage.toJson))] :=
    ⟨_, rfl⟩
  have version : Json.field "schema_version" (Json.asNat 0x100000000) found =
      some report.schemaVersion := by
    have small : report.schemaVersion < 0x100000000 := by rw [short.schemaVersion]; decide
    exact Json.field_of_find (by simp [is, Json.find]) (Json.asNat_int small)
  have operation : Json.field "operation" Json.asText found = some report.operation :=
    Json.field_of_find (by simp [is, Json.find]; rfl) rfl
  have started : Json.field "started_unix_ms" (Json.asNat 0x10000000000000000) found =
      some report.startedUnixMs :=
    Json.field_of_find (by simp [is, Json.find]) (Json.asNat_int short.startedUnixMs)
  have outcome : Json.field "outcome" (Json.asWord outcomes) found = some report.outcome :=
    Json.field_of_find (by simp [is, Json.find]) (asWord_text report.outcome)
  have elapsed : Json.field "elapsed_ms" (Json.asNat 0x10000000000000000) found =
      some report.elapsedMs :=
    Json.field_of_find (by simp [is, Json.find]) (Json.asNat_int short.elapsedMs)
  have stages : Json.field "stages" (Json.asList Stage.fromJson) found = some report.stages :=
    Json.field_of_find (by simp [is, Json.find])
      (Json.asList_map fun stage member => Stage.fromJson_toJson (short.stages stage member).2)
  rw [fromJson, toJson, Json.fields_object (by simp) (by simp), ← is]
  simp only [version, operation, started, outcome, elapsed, stages, Option.bind_eq_bind,
    Option.bind_some]

theorem whole_of_lt {n : Nat} (small : n < 0x10000000000000000) : Json.Whole (n : Int) :=
  ⟨by omega, by omega⟩

theorem Report.plain {report : Report} (short : report.Short) :
    (report.toJson : Json F).Plain Json.depthLimit := by
  have stages : (Json.array (report.stages.map Stage.toJson) : Json F).Plain 126 := by
    apply Json.within_array
    intro v member
    obtain ⟨stage, inside, rfl⟩ := List.mem_map.1 member
    have small := whole_of_lt (short.stages stage inside).2
    simp [Stage.toJson, Json.Within, Json.MembersWithin, small]
  have version : Json.Whole (report.schemaVersion : Int) := by
    rw [short.schemaVersion]
    decide
  rw [Report.toJson, Json.Plain, Json.depthLimit, Json.Within, Json.membersWithin_iff]
  simp only [List.forall_mem_cons, List.not_mem_nil, false_imp_iff, implies_true, and_true]
  refine ⟨version, ?_, whole_of_lt short.startedUnixMs, ?_, whole_of_lt short.elapsedMs, stages⟩
  · simp only [Json.Within]
  · simp only [Json.Within]

theorem length_number {n : Nat} (small : n < 0x10000000000000000) :
    (toString (n : Int)).toList.length ≤ 20 := by
  rw [Json.toList_natural, Nat.length_toDigits_le_iff (by decide) (by decide)]
  omega

theorem length_text (outcome : Outcome) : outcome.text.utf8ByteSize ≤ 8 := by
  cases outcome <;> decide

theorem Stage.room {stage : Stage} (short : stage.name.utf8ByteSize ≤ 32)
    (small : stage.elapsedMs < 0x10000000000000000) :
    (stage.toJson : Json F).room shown 2 ≤ 450 := by
  have name : "name".utf8ByteSize = 4 := by decide
  have outcome : "outcome".utf8ByteSize = 7 := by decide
  have elapsed : "elapsed_ms".utf8ByteSize = 10 := by decide
  have number := length_number small
  have text := length_text stage.outcome
  simp only [Stage.toJson, Json.room, Json.membersRoom, name, outcome, elapsed]
  omega

/-- A report is far below the limit. -/
theorem Report.length_bytes {report : Report} (short : report.Short) :
    (report.bytes shown).length ≤ sizeLimit := by
  have stages : ∀ stages : List Stage, (∀ stage ∈ stages, stage.name.utf8ByteSize ≤ 32 ∧
      stage.elapsedMs < 0x10000000000000000) →
      Json.itemsRoom shown 2 (stages.map Stage.toJson) ≤ 456 * stages.length := by
    intro stages
    induction stages with
    | nil => exact fun _ => Nat.le_refl _
    | cons stage rest ih =>
        intro each
        obtain ⟨⟨name, small⟩, others⟩ := List.forall_mem_cons.1 each
        have first := Stage.room shown name small
        have behind := ih others
        simp only [List.map_cons, Json.itemsRoom, List.length_cons]
        omega
  have items := stages report.stages short.stages
  have names : "schema_version".utf8ByteSize = 14 ∧ "operation".utf8ByteSize = 9 ∧
      "started_unix_ms".utf8ByteSize = 15 ∧ "outcome".utf8ByteSize = 7 ∧
      "elapsed_ms".utf8ByteSize = 10 ∧ "stages".utf8ByteSize = 6 := by decide
  have version : (toString (report.schemaVersion : Int)).toList.length ≤ 20 :=
    length_number (by rw [short.schemaVersion]; decide)
  have started := length_number short.startedUnixMs
  have elapsed := length_number short.elapsedMs
  have text := length_text report.outcome
  have operation := short.operation
  have count := short.count
  have room : (report.toJson : Json F).room shown 0 ≤ sizeLimit := by
    simp only [Report.toJson, Json.room, Json.membersRoom, names, sizeLimit, Nat.reduceAdd]
    omega
  exact Nat.le_trans (Json.length_pretty shown _) room

/-- A report that was saved is read. -/
theorem read_bytes {report : Report} (short : report.Short) :
    read float (some (report.bytes shown)) = .ok (some report) := by
  have fits := Report.length_bytes shown short
  have whole : (report.bytes shown).take (sizeLimit + 1) = report.bytes shown :=
    List.take_of_length_le (by omega)
  have parsed : (Json.readBytes float (report.bytes shown)).bind Report.fromJson = some report := by
    rw [Report.bytes, Json.readBytes_pretty float shown (Report.plain short), Option.bind_some,
      Report.fromJson_toJson short]
  simp only [read, whole]
  rw [if_neg (Nat.not_lt.2 fits), parsed]
  exact if_neg (not_not.2 short.schemaVersion)

end ReadBack

end Luhmen.Host.Startup
