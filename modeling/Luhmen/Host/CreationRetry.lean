/-
# Host.CreationRetry -- whether an interrupted creation can be retried

What another attempt at `create` makes of what killed ones have left, when every request
of it can be done.  It goes through exactly if no marker is missing next to temporary
files of it, and no temporary file it would write has been left under its own process id
(`Retriable`); then it ends where an uninterrupted attempt does (`create_retried_iff`).

A directory with a temporary file of the marker and no marker is not empty, and nothing
but a marker makes a directory luhmen's own: every later attempt refuses it
(`unmarked_refused`).
-/
import Luhmen.Host.CreationCrash
import Luhmen.Theory.JsonPrint

namespace Luhmen.Host.Creation

open Luhmen.Theory
open Run

set_option autoImplicit false

section Served

variable {answers : Answers} {α β : Type} {s t : State}

variable (answers) in
/-- What a block ends with on a host where everything can be done. -/
abbrev served (block : Run α) (s : State) : Except Stop α × State :=
  block.run.evaluate (serve answers) s

theorem served_bind {block : Run α} {rest : α → Run β} {value : α}
    (first : served answers block s = (.ok value, t)) :
    served answers (block >>= rest) s = served answers (rest value) t :=
  Fallible.evaluate_ok first

theorem served_fails {block : Run α} {rest : α → Run β} {stop : Stop}
    (first : served answers block s = (.error stop, t)) :
    served answers (block >>= rest) s = (.error stop, t) :=
  Fallible.evaluate_error first

theorem served_perform {request : Request} {reply : Reply request}
    (is : serve answers request s = (reply, t)) :
    served answers (perform request) s = (.ok reply, t) := by
  show (Except.ok (serve answers request s).1, (serve answers request s).2) = _
  rw [is]

/-- `?` behind a request that is done. -/
theorem served_demand {request : Request} (outcome : Reply request → Except String α)
    {rest : α → Run β} {value : α} {reply : Reply request}
    (is : serve answers request s = (reply, t)) (ok : outcome reply = .ok value) :
    served answers (perform request >>= fun reply => orFail (outcome reply) >>= rest) s =
      served answers (rest value) t := by
  have taken : served answers (orFail (outcome reply)) t = (.ok value, t) := by
    rw [ok]
    rfl
  rw [served_bind (served_perform is), served_bind taken]

theorem served_demand_last {request : Request} (outcome : Reply request → Except String α)
    {value : α} {reply : Reply request} (is : serve answers request s = (reply, t))
    (ok : outcome reply = .ok value) :
    served answers (perform request >>= fun reply => orFail (outcome reply)) s = (.ok value, t) := by
  rw [served_bind (served_perform is), ok]
  rfl

/-- ... or that cannot be. -/
theorem served_demand_fails {request : Request} (outcome : Reply request → Except String α)
    {rest : α → Run β} {message : String} {reply : Reply request}
    (is : serve answers request s = (reply, t)) (failed : outcome reply = .error message) :
    served answers (perform request >>= fun reply => orFail (outcome reply) >>= rest) s =
      (.error (.failed message), t) := by
  have taken : served answers (orFail (outcome reply)) t = (.error (.failed message), t) := by
    rw [failed]
    rfl
  rw [served_bind (served_perform is), served_fails taken]

variable {d d' : Directory} {context : Bool}

theorem change_done {f : Directory → Option Directory} (is : f d = some d') :
    change answers ⟨some d, context⟩ f = (.ok (), ⟨some d', context⟩) := by
  simp only [change, Option.bind_some, is]

theorem change_stuck {f : Directory → Option Directory} (is : f d = none) :
    change answers ⟨some d, context⟩ f = (.error answers.missing, ⟨some d, context⟩) := by
  simp only [change, Option.bind_some, is]

/-! ### Writing -/

theorem atomicWrite_served {path : Target} {pid : Nat}
    (free : d.file (.temporary path pid) = none) (bytes : Bytes) :
    served answers (atomicWrite pid path bytes) ⟨some d, context⟩ =
      (.ok (), ⟨some (d.put (.target path) (some bytes)), context⟩) := by
  have moved : (((d.put (.temporary path pid) (some [])).put (.temporary path pid) (some bytes)).put
      (.target path) (some bytes)).put (.temporary path pid) none =
      d.put (.target path) (some bytes) := by
    refine Directory.eq_of_file rfl rfl fun e => ?_
    simp only [Directory.put_file]
    by_cases same : e = .temporary path pid
    · subst same
      simp [free]
    · simp [same]
  have created : serve answers (.createNew (.temporary path pid)) ⟨some d, context⟩ =
      (.ok (), ⟨some (d.put (.temporary path pid) (some [])), context⟩) :=
    change_done (if_pos free)
  have written : serve answers (.writeAll (.temporary path pid) bytes)
      ⟨some (d.put (.temporary path pid) (some [])), context⟩ =
      (.ok (), ⟨some ((d.put (.temporary path pid) (some [])).put (.temporary path pid) (some bytes)),
        context⟩) :=
    change_done (if_neg (by simp))
  have renamed : serve answers (.rename (.temporary path pid) (.target path))
      ⟨some ((d.put (.temporary path pid) (some [])).put (.temporary path pid) (some bytes)), context⟩ =
      (.ok (), ⟨some (d.put (.target path) (some bytes)), context⟩) :=
    change_done (by simp [moved])
  have published : served answers (publish (.temporary path pid) (.target path) bytes)
      ⟨some d, context⟩ = (.ok (), ⟨some (d.put (.target path) (some bytes)), context⟩) := by
    refine (served_demand id created rfl).trans ?_
    refine (served_demand id written rfl).trans ?_
    refine (served_demand id (rfl : serve answers (.syncAll _) _ = (.ok (), _)) rfl).trans ?_
    refine (served_demand id renamed rfl).trans ?_
    exact served_demand_last id (rfl : serve answers .syncDirectory _ = (.ok (), _)) rfl
  have attempted : served answers (attempt (publish (.temporary path pid) (.target path) bytes))
      ⟨some d, context⟩ = (.ok (.ok ()), ⟨some (d.put (.target path) (some bytes)), context⟩) :=
    Fallible.evaluate_attempt_ok published
  unfold atomicWrite
  rw [served_bind attempted]
  rfl

/-- A temporary file that is there already stops the write. -/
theorem atomicWrite_blocked {path : Target} {pid : Nat}
    (taken : d.file (.temporary path pid) ≠ none) (bytes : Bytes) :
    ∃ stop t, served answers (atomicWrite pid path bytes) ⟨some d, context⟩ = (.error stop, t) := by
  have stuck : serve answers (.createNew (.temporary path pid)) ⟨some d, context⟩ =
      (.error answers.missing, ⟨some d, context⟩) :=
    change_stuck (if_neg taken)
  have failed : served answers (publish (.temporary path pid) (.target path) bytes)
      ⟨some d, context⟩ = (.error (.failed answers.missing), ⟨some d, context⟩) := by
    unfold publish
    exact served_demand_fails id stuck rfl
  have caught : served answers (attempt (publish (.temporary path pid) (.target path) bytes))
      ⟨some d, context⟩ = (.ok (.error (.failed answers.missing)), ⟨some d, context⟩) :=
    Fallible.evaluate_attempt_error failed rfl
  refine ⟨.failed answers.missing,
    (serve answers (.removeFile (.temporary path pid)) ⟨some d, context⟩).2, ?_⟩
  unfold atomicWrite
  rw [served_bind caught]
  rfl

/-! ### The ownership marker -/

variable {text : Bytes} {pid : Nat}

theorem claimDirectory_served (mode : Nat) (d : Directory)
    (free : d.file (.temporary .owner pid) = none) :
    served answers (claimDirectory pid) ⟨some { d with mode := mode }, context⟩ =
      (.ok (), ⟨some (Directory.put { d with mode := 0o700 } (.target .owner) (some owner)),
        context⟩) := by
  have permitted : serve answers (.setPermissions 0o700) ⟨some { d with mode := mode }, context⟩ =
      (.ok (), ⟨some { d with mode := 0o700 }, context⟩) := rfl
  have free' : Directory.file { d with mode := 0o700 } (.temporary .owner pid) = none := free
  unfold claimDirectory
  refine (served_demand id permitted rfl).trans ?_
  exact atomicWrite_served free' owner

theorem checkOwned_served (marked : Marked text d) :
    served answers (checkOwned ⟨true, false, d.mode⟩) ⟨some d, context⟩ =
      (.ok (), ⟨some d, context⟩) := by
  have read : serve answers (.read (.target .owner)) ⟨some d, context⟩ =
      (.ok owner, ⟨some d, context⟩) := by
    have file : State.file ⟨some d, context⟩ (.target .owner) = some owner := marked.isOwner
    simp only [serve, file]
  unfold checkOwned
  refine (served_demand id read rfl).trans ?_
  have decoded : Utf8.fromUtf8 owner = some "luhmen-state-v1\n".toList := by decide
  rw [decoded]
  dsimp only
  rw [if_neg fun differs => differs rfl, marked.mode, if_neg (by decide)]
  rfl

/-- An owned directory stays as it is. -/
theorem ensureOwned_marked (marked : Marked text d) :
    served answers (ensureOwned pid true) ⟨some d, context⟩ = (.ok (), ⟨some d, context⟩) := by
  have looked : served answers (perform .symlinkMetadata) ⟨some d, context⟩ =
      (.ok (some ⟨true, false, d.mode⟩), ⟨some d, context⟩) := served_perform rfl
  have present : served answers (perform (.exist (.target .owner))) ⟨some d, context⟩ =
      (.ok true, ⟨some d, context⟩) := by
    refine served_perform ?_
    have file : State.file ⟨some d, context⟩ (.target .owner) = some owner := marked.isOwner
    simp only [serve, file]
    rfl
  unfold ensureOwned
  rw [served_bind looked]
  dsimp only
  rw [if_neg (by simp), served_bind present]
  exact checkOwned_served marked

theorem listed (s : State) : served answers (perform .symlinkMetadata) s =
    (.ok (s.directory.map fun d => ⟨true, false, d.mode⟩), s) := served_perform rfl

/-- A directory that is missing or empty becomes owned. -/
theorem ensureOwned_untouched (untouched : Untouched s) :
    served answers (ensureOwned pid true) s =
      (.ok (), ⟨some (Directory.put ⟨0o700, ∅, .absent⟩ (.target .owner) (some owner)),
        s.context⟩) := by
  obtain ⟨directory, context⟩ := s
  cases directory with
  | none =>
      have made : serve answers .createDirAll ⟨none, context⟩ =
          (.ok (), ⟨some ⟨answers.mode, ∅, .absent⟩, context⟩) := rfl
      unfold ensureOwned
      rw [served_bind (listed _)]
      refine (served_demand id made rfl).trans ?_
      exact claimDirectory_served answers.mode ⟨0, ∅, .absent⟩ rfl
  | some d =>
      have empty : d.isEmpty = true := untouched d rfl
      obtain ⟨files, lima⟩ := d.isEmpty_iff.1 empty
      have absent : served answers (perform (.exist (.target .owner))) ⟨some d, context⟩ =
          (.ok false, ⟨some d, context⟩) := by
        refine served_perform ?_
        have file : State.file ⟨some d, context⟩ (.target .owner) = none := files _
        simp only [serve, file]
        rfl
      have isEmpty : serve answers .isEmpty ⟨some d, context⟩ = (.ok true, ⟨some d, context⟩) := by
        simp only [serve, empty]
      have same : ({ d with mode := 0o700 } : Directory) = ⟨0o700, ∅, .absent⟩ :=
        Directory.eq_of_file rfl lima files
      unfold ensureOwned
      rw [served_bind (listed _)]
      dsimp only [Option.map_some]
      rw [if_neg (by simp), served_bind absent]
      refine (served_demand id isEmpty rfl).trans ?_
      rw [← same]
      exact claimDirectory_served d.mode d (files _)

/-- A directory with something in it and no marker is refused. -/
theorem unmarked_refused (unmarked : d.file (.target .owner) = none) (occupied : d.isEmpty = false) :
    served answers (ensureOwned pid true) ⟨some d, context⟩ =
      (.error (.refused "refusing an unowned state directory"), ⟨some d, context⟩) := by
  have absent : served answers (perform (.exist (.target .owner))) ⟨some d, context⟩ =
      (.ok false, ⟨some d, context⟩) := by
    refine served_perform ?_
    have file : State.file ⟨some d, context⟩ (.target .owner) = none := unmarked
    simp only [serve, file]
    rfl
  have isEmpty : serve answers .isEmpty ⟨some d, context⟩ = (.ok false, ⟨some d, context⟩) := by
    simp only [serve, occupied]
  unfold ensureOwned
  rw [served_bind (listed _)]
  dsimp only [Option.map_some]
  rw [if_neg (by simp), served_bind absent]
  exact (served_demand id isEmpty rfl).trans rfl

/-! ### The rest of an attempt -/

variable {F : Type} {serde : Serde F} {scripts : Scripts} {format : ConfigSerde} {config : Config}

theorem checks_served (valid : config.validateSchema = .ok ()) (s : State) :
    served answers (checks config) s = (.ok (), s) := by
  have schema : served answers
      (Fallible.ofExcept (config.validateSchema.mapError .refused) : Run Unit) s = (.ok (), s) := by
    rw [valid]
    rfl
  unfold checks
  refine (served_demand id (rfl : serve answers .checkHost s = (.ok (), s)) rfl).trans ?_
  refine (served_demand id (rfl : serve answers .checkLima s = (.ok (), s)) rfl).trans ?_
  rw [served_bind schema]
  refine (served_demand id (rfl : serve answers (.validateMounts config) s = (.ok (), s)) rfl).trans ?_
  cases config.nestedVirtualization with
  | true => rfl
  | false => rfl

theorem saveConfig_saved (valid : config.validateSchema = .ok ())
    (reads : format.fromSlice (format.toVecPretty config) = some config)
    (configured : Configured (format.toVecPretty config) d) :
    served answers (saveConfig format pid config) ⟨some d, context⟩ =
      (.ok (), ⟨some d, context⟩) := by
  have file : State.file ⟨some d, context⟩ (.target .config) = some (format.toVecPretty config) :=
    configured.isText
  have present : served answers (perform (.exist (.target .config))) ⟨some d, context⟩ =
      (.ok true, ⟨some d, context⟩) := by
    refine served_perform ?_
    simp only [serve, file]
    rfl
  have read : serve answers (.read (.target .config)) ⟨some d, context⟩ =
      (.ok (format.toVecPretty config), ⟨some d, context⟩) := by
    simp only [serve, file]
  have parsed : served answers (readConfig format) ⟨some d, context⟩ =
      (.ok config, ⟨some d, context⟩) := by
    unfold readConfig
    refine (served_demand id read rfl).trans ?_
    rw [reads]
    dsimp only
    rw [valid]
    rfl
  unfold saveConfig
  rw [served_bind present, served_bind parsed, if_neg fun differs => differs rfl]
  rfl

/-- Without saved settings, there is no VM. -/
theorem saveConfig_unsaved (marked : Marked text d) (unsaved : d.file (.target .config) = none) :
    served answers (saveConfig format pid config) ⟨some d, context⟩ =
      served answers (atomicWrite pid .config (format.toVecPretty config)) ⟨some d, context⟩ := by
  have file : State.file ⟨some d, context⟩ (.target .config) = none := unsaved
  have absent : served answers (perform (.exist (.target .config))) ⟨some d, context⟩ =
      (.ok false, ⟨some d, context⟩) := by
    refine served_perform ?_
    simp only [serve, file]
    rfl
  have noVm : served answers (perform .vmExist) ⟨some d, context⟩ =
      (.ok false, ⟨some d, context⟩) := by
    refine served_perform ?_
    have lima : State.lima ⟨some d, context⟩ ≠ .created := fun created =>
      marked.created created unsaved
    simp only [serve, lima, decide_false]
  unfold saveConfig
  rw [served_bind absent, served_bind noVm]

theorem vm_served : served answers vm ⟨some d, context⟩ =
    (.ok (decide (d.lima = .created)), ⟨some d, context⟩) := by
  have lima : State.lima ⟨some d, context⟩ = d.lima := rfl
  have seen : served answers (perform .vmExist) ⟨some d, context⟩ =
      (.ok (decide (d.lima = .created)), ⟨some d, context⟩) := by
    refine served_perform ?_
    simp only [serve, lima]
  have list : serve answers .limaList ⟨some d, context⟩ =
      (.ok (decide (d.lima = .created)), ⟨some d, context⟩) := by
    simp only [serve, lima]
  unfold vm
  rw [served_bind seen]
  by_cases created : d.lima = .created
  · rw [decide_eq_true created] at list ⊢
    exact served_demand_last id list rfl
  · rw [decide_eq_false created]
    rfl

theorem createVm_created (created : d.lima = .created) :
    served answers (createVm serde scripts pid config) ⟨some d, context⟩ =
      (.ok (), ⟨some d, context⟩) := by
  unfold createVm
  rw [served_bind vm_served, decide_eq_true created]
  rfl

/-- Up to the write of the template. -/
theorem createVm_missing (missing : d.lima ≠ .created) :
    served answers (createVm serde scripts pid config) ⟨some d, context⟩ =
      served answers (atomicWrite pid .baseline
          (serde.toVecPretty (VmTemplate.document scripts config)) >>= fun _ =>
        perform .limaCreate >>= fun reply => orFail reply) ⟨some { d with lima := .empty }, context⟩ := by
  have space : serve answers .availableSpace ⟨some d, context⟩ =
      (.ok answers.space, ⟨some d, context⟩) := rfl
  have made : serve answers .createLimaDir ⟨some d, context⟩ =
      (.ok (), ⟨some { d with lima := .empty }, context⟩) := by
    have lima : (if d.lima = .absent then .empty else d.lima) = Lima.empty := by
      cases lima : d.lima with
      | absent => rfl
      | empty => rfl
      | created => exact absurd lima missing
    simp only [serve]
    exact change_done (by simp only [lima])
  unfold createVm
  rw [served_bind vm_served, decide_eq_false missing]
  refine (served_demand id space rfl).trans ?_
  rw [if_neg (Nat.not_lt.2 answers.enough)]
  exact served_demand id made rfl

theorem createVm_served (missing : d.lima ≠ .created)
    (free : d.file (.temporary .baseline pid) = none) :
    served answers (createVm serde scripts pid config) ⟨some d, context⟩ =
      (.ok (), ⟨some (Directory.put { d with lima := .created } (.target .baseline)
        (some (serde.toVecPretty (VmTemplate.document scripts config)))), context⟩) := by
  have free' : Directory.file { d with lima := .empty } (.temporary .baseline pid) = none := free
  have written := @atomicWrite_served answers _ context .baseline pid free'
    (serde.toVecPretty (VmTemplate.document scripts config))
  have created : serve answers .limaCreate
      ⟨some (Directory.put { d with lima := .empty } (.target .baseline)
        (some (serde.toVecPretty (VmTemplate.document scripts config)))), context⟩ =
      (.ok (), ⟨some (Directory.put { d with lima := .created } (.target .baseline)
        (some (serde.toVecPretty (VmTemplate.document scripts config)))), context⟩) := by
    simp only [serve]
    exact change_done (if_pos rfl)
  rw [createVm_missing missing, served_bind written]
  exact served_demand_last id created rfl

theorem createVm_blocked (missing : d.lima ≠ .created)
    (taken : d.file (.temporary .baseline pid) ≠ none) :
    ∃ stop t, served answers (createVm serde scripts pid config) ⟨some d, context⟩ =
      (.error stop, t) := by
  have taken' : Directory.file { d with lima := .empty } (.temporary .baseline pid) ≠ none := taken
  obtain ⟨stop, t, stopped⟩ := @atomicWrite_blocked answers _ context .baseline pid taken'
    (serde.toVecPretty (VmTemplate.document scripts config))
  exact ⟨stop, t, by rw [createVm_missing missing]; exact served_fails stopped⟩

theorem ensureContext_served (s : State) :
    served answers ensureContext s = (.ok (), { s with context := true }) := by
  obtain ⟨directory, context⟩ := s
  cases context with
  | true => rfl
  | false => rfl

end Served

/-! ## Whether an attempt can be retried -/

/-- No temporary file of a missing marker is left, nor one the attempt would write under the
name of another. -/
def Retriable (pid : Nat) (s : State) : Prop :=
  ∀ d, s.directory = some d →
    (d.file (.target .owner) = none → ∀ other, d.file (.temporary .owner other) = none) ∧
    (d.file (.target .config) = none → d.file (.temporary .config pid) = none) ∧
    (d.lima ≠ .created → d.file (.temporary .baseline pid) = none)

/-- What a creation is for. -/
structure Outcome where
  owner : Option Bytes
  config : Option Bytes
  vm : Bool
  deriving DecidableEq

def outcome (s : State) : Outcome :=
  ⟨s.file (.target .owner), s.file (.target .config), decide (s.lima = .created)⟩

section Retry

variable {answers : Answers} {F : Type} {serde : Serde F} {scripts : Scripts}
  {format : ConfigSerde} {config : Config} {s t : State} {d : Directory} {context : Bool} {pid : Nat}

/-- An attempt behind its ownership check. -/
theorem create_owned (valid : config.validateSchema = .ok ())
    (owned : served answers (ensureOwned pid true) s = (.ok (), ⟨some d, context⟩)) :
    served answers (create serde scripts format pid config) s =
      served answers (saveConfig format pid config >>= fun _ =>
          createVm serde scripts pid config >>= fun _ => ensureContext >>= fun _ =>
            perform .inspect >>= fun reply => orFail reply)
        ⟨some (d.put .operationLock (some ((d.file .operationLock).getD []))), context⟩ := by
  have locked : serve answers .lock ⟨some d, context⟩ =
      (.ok (), ⟨some (d.put .operationLock (some ((d.file .operationLock).getD []))), context⟩) := rfl
  have ready : serve answers .contextReady
      ⟨some (d.put .operationLock (some ((d.file .operationLock).getD []))), context⟩ =
      (.ok context,
        ⟨some (d.put .operationLock (some ((d.file .operationLock).getD []))), context⟩) := rfl
  unfold create
  rw [served_bind (checks_served valid s), served_bind owned]
  refine (served_demand id locked rfl).trans ?_
  exact served_demand id ready rfl

/-- A directory with a marker, and the temporary names that are needed free. -/
structure Prepared (text : Bytes) (pid : Nat) (d : Directory) : Prop extends Marked text d where
  settings : d.file (.target .config) = none → d.file (.temporary .config pid) = none
  template : d.lima ≠ .created → d.file (.temporary .baseline pid) = none

theorem Prepared.lock {text : Bytes} (prepared : Prepared text pid d) (file : Option Bytes) :
    Prepared text pid (d.put .operationLock file) where
  toMarked := prepared.toMarked.put (by simp) (by simp) file
  settings := by simpa using prepared.settings
  template := by simpa using prepared.template

/-- The settings are saved, or were; nothing else is touched. -/
theorem saveConfig_served (valid : config.validateSchema = .ok ())
    (reads : format.fromSlice (format.toVecPretty config) = some config)
    (marked : Marked (format.toVecPretty config) d)
    (settings : d.file (.target .config) = none → d.file (.temporary .config pid) = none) :
    ∃ d', served answers (saveConfig format pid config) ⟨some d, context⟩ =
        (.ok (), ⟨some d', context⟩) ∧ Configured (format.toVecPretty config) d' ∧
      d'.lima = d.lima ∧ d'.file (.temporary .baseline pid) = d.file (.temporary .baseline pid) := by
  by_cases saved : d.file (.target .config) = none
  · refine ⟨_, ?_, marked.configure, rfl, by simp⟩
    rw [saveConfig_unsaved marked saved]
    exact atomicWrite_served (settings saved) _
  · have configured : Configured (format.toVecPretty config) d := ⟨marked, saved⟩
    exact ⟨d, saveConfig_saved valid reads configured, configured, rfl, rfl⟩

/-- The end of an attempt, on settings that are saved. -/
theorem createVm_finishes {text : Bytes} (configured : Configured text d)
    (template : d.lima ≠ .created → d.file (.temporary .baseline pid) = none) :
    ∃ d', served answers (createVm serde scripts pid config) ⟨some d, context⟩ =
        (.ok (), ⟨some d', context⟩) ∧ Configured text d' ∧ d'.lima = .created := by
  by_cases created : d.lima = .created
  · exact ⟨d, createVm_created created, configured, created⟩
  · exact ⟨_, createVm_served created (template created),
      (configured.withLima .created).put (by simp) (by simp) _, rfl⟩

theorem create_prepared (valid : config.validateSchema = .ok ())
    (reads : format.fromSlice (format.toVecPretty config) = some config)
    (owned : served answers (ensureOwned pid true) s = (.ok (), ⟨some d, context⟩))
    (prepared : Prepared (format.toVecPretty config) pid d) :
    ∃ t, served answers (create serde scripts format pid config) s = (.ok (), t) ∧
      outcome t = ⟨some owner, some (format.toVecPretty config), true⟩ := by
  have locked := prepared.lock (some ((d.file .operationLock).getD []))
  obtain ⟨d₁, saved, configured, lima, template⟩ := @saveConfig_served answers format config _ context
    pid valid reads locked.toMarked locked.settings
  obtain ⟨d₂, made, finished, created⟩ := @createVm_finishes answers F serde scripts config d₁ context
    pid _ configured fun missing => template.trans (locked.template (lima ▸ missing))
  refine ⟨⟨some d₂, true⟩, ?_, ?_⟩
  · rw [create_owned valid owned, served_bind saved, served_bind made,
      served_bind (ensureContext_served _)]
    rfl
  · have isOwner : State.file ⟨some d₂, true⟩ (.target .owner) = some owner := finished.isOwner
    have isText : State.file ⟨some d₂, true⟩ (.target .config) = some (format.toVecPretty config) :=
      finished.isText
    have lima : State.lima ⟨some d₂, true⟩ = .created := created
    rw [outcome, isOwner, isText, lima]
    rfl

/-- Nothing but a missing or empty directory has neither marker nor temporary file of it. -/
theorem Consistent.empty {text : Bytes} (consistent : Consistent text d)
    (unmarked : d.file (.target .owner) = none)
    (clean : ∀ other, d.file (.temporary .owner other) = none) : d.isEmpty = true := by
  obtain ⟨lima, files⟩ := consistent.unmarked unmarked
  refine d.isEmpty_iff.2 ⟨fun e => ?_, lima⟩
  by_cases temporary : ∃ other, e = .temporary .owner other
  · obtain ⟨other, rfl⟩ := temporary
    exact clean other
  · exact files e fun other same => temporary ⟨other, same⟩

theorem create_retriable (valid : config.validateSchema = .ok ())
    (reads : format.fromSlice (format.toVecPretty config) = some config)
    (fine : At (Fine (format.toVecPretty config)) s) (retriable : Retriable pid s) :
    ∃ t, served answers (create serde scripts format pid config) s = (.ok (), t) ∧
      outcome t = ⟨some owner, some (format.toVecPretty config), true⟩ := by
  by_cases untouched : Untouched s
  · have claimed : Claimed (format.toVecPretty config) ⟨0o700, ∅, .absent⟩ :=
      ⟨consistent_empty rfl, rfl⟩
    exact create_prepared valid reads (ensureOwned_untouched untouched)
      ⟨claimed.mark, fun _ => rfl, fun _ => rfl⟩
  · obtain ⟨directory, context⟩ := s
    cases directory with
    | none => exact absurd (fun d impossible => by cases impossible) untouched
    | some d =>
        obtain ⟨marker, settings, template⟩ := retriable d rfl
        have consistent : Consistent (format.toVecPretty config) d := fine
        have owned : d.file (.target .owner) ≠ none := by
          intro unmarked
          apply untouched
          intro d' is
          obtain rfl := Option.some.inj is
          exact consistent.empty unmarked (marker unmarked)
        exact create_prepared valid reads (ensureOwned_marked ⟨consistent, owned⟩)
          ⟨⟨consistent, owned⟩, settings, template⟩

/-- What stops an attempt. -/
theorem create_stopped (valid : config.validateSchema = .ok ())
    (reads : format.fromSlice (format.toVecPretty config) = some config)
    (fine : At (Fine (format.toVecPretty config)) s) (stuck : ¬ Retriable pid s) :
    ∃ stop t, served answers (create serde scripts format pid config) s = (.error stop, t) := by
  obtain ⟨directory, context⟩ := s
  cases directory with
  | none => exact absurd (fun d impossible => by cases impossible) stuck
  | some d =>
      have consistent : Consistent (format.toVecPretty config) d := fine
      by_cases unmarked : d.file (.target .owner) = none
      · have occupied : d.isEmpty = false := by
          rw [Bool.eq_false_iff]
          intro empty
          obtain ⟨files, -⟩ := d.isEmpty_iff.1 empty
          apply stuck
          intro d' is
          obtain rfl := Option.some.inj is
          exact ⟨fun _ _ => files _, fun _ => files _, fun _ => files _⟩
        refine ⟨.refused "refusing an unowned state directory", ⟨some d, context⟩, ?_⟩
        unfold create
        rw [served_bind (checks_served valid _)]
        exact served_fails (unmarked_refused unmarked occupied)
      · have marked : Marked (format.toVecPretty config) d := ⟨consistent, unmarked⟩
        rw [create_owned valid (ensureOwned_marked marked)]
        have locked := marked.put (by simp : Entry.operationLock ≠ .target .owner) (by simp)
          (some ((d.file .operationLock).getD []))
        by_cases settings : d.file (.target .config) = none →
            d.file (.temporary .config pid) = none
        · have template : ¬ (d.lima ≠ .created → d.file (.temporary .baseline pid) = none) := by
            intro template
            apply stuck
            intro d' is
            obtain rfl := Option.some.inj is
            exact ⟨fun absent => absurd absent unmarked, settings, template⟩
          obtain ⟨missing, taken⟩ := Classical.not_imp.1 template
          obtain ⟨d', saved, -, lima, same⟩ := @saveConfig_served answers format config _ context pid
            valid reads locked (by simpa using settings)
          obtain ⟨stop, t, stopped⟩ := @createVm_blocked answers d' context pid F serde scripts config
            (lima ▸ missing) (by rw [same]; simpa using taken)
          refine ⟨stop, t, ?_⟩
          rw [served_bind saved]
          exact served_fails stopped
        · obtain ⟨unsaved, taken⟩ := Classical.not_imp.1 settings
          obtain ⟨stop, t, stopped⟩ := @atomicWrite_blocked answers
            (d.put .operationLock (some ((d.file .operationLock).getD []))) context .config pid
            (by simpa using taken) (format.toVecPretty config)
          rw [← saveConfig_unsaved locked (by simpa using unsaved)] at stopped
          exact ⟨stop, t, served_fails stopped⟩

end Retry

/-- **Retrying a creation.**  After attempts that were killed anywhere, with anything failing,
another attempt in which everything can be done goes through, and ends where an uninterrupted
one does, exactly if no marker is missing next to temporary files of it, and no temporary
file the attempt would write is left under its own process id. -/
theorem create_retried_iff {F : Type} {serde : Serde F} {scripts : Scripts} {format : ConfigSerde}
    {config : Config} {start finish : Machine True} (answers answers' : Answers) (first pid : Nat)
    (valid : config.validateSchema = .ok ())
    (reads : format.fromSlice (format.toVecPretty config) = some config)
    (idle : start.running = none) (untouched : Untouched start.state)
    (runs : Reaches serde scripts format config True start finish) :
    ((served answers' (create serde scripts format pid config) finish.state).1 = .ok () ∧
        outcome (served answers' (create serde scripts format pid config) finish.state).2 =
          outcome (served answers (create serde scripts format first config) start.state).2) ↔
      Retriable pid finish.state := by
  have clean : Retriable first start.state := by
    intro d there
    obtain ⟨files, -⟩ := d.isEmpty_iff.1 (untouched d there)
    exact ⟨fun _ _ => files _, fun _ => files _, fun _ => files _⟩
  have before : At (Fine (format.toVecPretty config)) start.state :=
    reaches_fine idle untouched (.refl : Reaches serde scripts format config True start start)
  obtain ⟨t, uninterrupted, done⟩ := @create_retriable answers F serde scripts format config _ first
    valid reads before clean
  have fine := reaches_fine idle untouched runs
  constructor
  · rintro ⟨returned, -⟩
    by_contra stuck
    obtain ⟨stop, u, stopped⟩ := @create_stopped answers' F serde scripts format config _ pid valid
      reads fine stuck
    rw [stopped] at returned
    cases returned
  · intro retriable
    obtain ⟨u, retried, same⟩ := @create_retriable answers' F serde scripts format config _ pid valid
      reads fine retriable
    rw [retried, uninterrupted]
    exact ⟨rfl, same.trans done.symm⟩

/-! ## Two interrupted creations -/

namespace Interrupted

def answers : Answers where
  mode := 0o755
  space := requiredSpace
  enough := Nat.le_refl _
  missing := "No such file or directory"

def config : Config :=
  ⟨1, 2, 4, 20, [], false⟩

def text : Bytes :=
  ascii "\x7b\n  \"schema_version\": 1,\n  \"cpus\": 2,\n  \"memory_gib\": 4,\n  \"disk_gib\": 20,\n  \"mounts\": []\n\x7d"

def format : ConfigSerde where
  fromSlice := fun bytes => if bytes = text then some config else none
  toVecPretty := fun _ => text

def serde : Serde Empty where
  fromSlice := fun _ => none
  toVecPretty := Json.pretty Empty.elim

def scripts : Scripts :=
  ⟨"", "", "", "", "", "", "", "", "", "", ""⟩

def missing : State :=
  ⟨none, false⟩

/-- What the first attempt leaves behind so many requests. -/
def behind (requests : Nat) : State :=
  (Program.advance (serve answers) requests ((create serde scripts format 1 config).run, missing)).2

theorem behind_reached (requests : Nat) :
    Reaches serde scripts format config True ⟨missing, none⟩ ⟨behind requests, none⟩ :=
  System.Leads.killed (@System.Leads.advance Requests (home True) _ (serve answers)
    (fun _ _ => .inl ⟨answers, rfl⟩) requests _)

theorem untouched : Untouched missing :=
  fun _ impossible => by cases impossible

end Interrupted

open Interrupted

/-- Killed behind the temporary file of `config.json`, an attempt can be retried. -/
theorem create_retried_unsaved :
    (served answers (create serde scripts format 2 config) (behind 17)).1 = .ok () ∧
      outcome (served answers (create serde scripts format 2 config) (behind 17)).2 =
        outcome (served answers (create serde scripts format 1 config) missing).2 := by
  refine (@create_retried_iff Empty serde scripts format config ⟨missing, none⟩ ⟨behind 17, none⟩
    answers answers 1 2 rfl (by decide) rfl untouched (behind_reached 17)).2 ?_
  have files : (behind 17).directory.map (fun d => (d.file (.target .owner),
      d.file (.temporary .config 2), d.file (.temporary .baseline 2))) =
      some (some owner, none, none) := by decide
  intro d there
  rw [there] at files
  obtain ⟨marker, settings, template⟩ : d.file (.target .owner) = some owner ∧
      d.file (.temporary .config 2) = none ∧ d.file (.temporary .baseline 2) = none := by
    simpa using files
  exact ⟨fun absent => absurd (absent.symm.trans marker) (by simp), fun _ => settings,
    fun _ => template⟩

/-- **An unmarked directory.**  Killed behind the temporary file of the marker, no attempt can. -/
theorem create_refused_unmarked :
    Reaches serde scripts format config True ⟨missing, none⟩ ⟨behind 8, none⟩ ∧
      (served answers (create serde scripts format 2 config) (behind 8)).1 =
        .error (.refused "refusing an unowned state directory") :=
  ⟨behind_reached 8, rfl⟩

end Luhmen.Host.Creation
