/-
# Guest.EditedConfig -- shutdown while others write the configuration

`daemon.json` belongs to whoever administers the host, so it can be another file at
every request.  `Edited` is a host together with what that takes to follow: the bytes
others wrote last, the contents the helper has taken for an original, and the file its
last comparison saw.  `Writers` says what others may write, and whether a comparison
and the rename behind it are one step.

All that matters of such a host is its `View`: the bytes of the two files, and that
history.  On views the helper makes five moves: it notes an original, publishes a
backup of it, puts the disabled version in its place, puts it back, and removes the
backup.  A `Protocol` is an invariant `P` of those moves and of other writers, with
the condition `R` under which the backup is no longer needed; `shutdown_protocol` says
that runs of `shutdown` make no other moves, so `reaches_protocol` holds of them.
-/
import Luhmen.Guest.CrashSafety

namespace Luhmen.Guest.Shutdown

open Luhmen.Theory hiding fail
open Run

set_option autoImplicit false

/-! ## Hosts with other writers -/

structure Writers where
  /-- What others may write, behind the originals the helper has taken so far. -/
  allowed : List Bytes → Bytes → Prop
  /-- A comparison and the rename behind it are one step. -/
  atomic : Prop

structure Edited where
  host : Host
  last : Bytes
  originals : List Bytes
  compared : Option File

namespace Edited

/-- The originals behind a request: without a backup, the helper reads `daemon.json` only
for the original. -/
def noted (s : Edited) : (request : Request) → Reply request → List Bytes
  | .read .config, (reply : Except String (Bytes × Metadata)) =>
      match reply, s.host.files .backup with
      | .ok content, none => content.1 :: s.originals
      | _, _ => s.originals
  | _, _ => s.originals

def seen (s : Edited) : Request → Option File
  | .read .config => s.host.files .config
  | _ => s.compared

/-- The file to be replaced is still the one of the comparison. -/
def Undisturbed (s : Edited) : Request → Prop
  | .rename _ .config => s.host.files .config = s.compared
  | _ => True

/-- Requests do what they do to a host.  Where a comparison and its rename are one step,
runs with an edit between the two are left out. -/
def exec (writers : Writers) (request : Request) (s : Edited) (reply : Reply request)
    (t : Edited) : Prop :=
  Host.exec False request s.host reply t.host ∧ (writers.atomic → s.Undisturbed request) ∧
    t = ⟨t.host, s.last, s.noted request reply, s.seen request⟩

/-- Between two requests the daemon moves, or someone replaces the file. -/
inductive Elsewhere (writers : Writers) : Edited → Edited → Prop where
  | drift {s : Edited} {host : Host} (moves : Host.Drift s.host host) :
      Elsewhere writers s { s with host := host }
  | write {s : Edited} (f : File) (allowed : writers.allowed s.originals f.data) :
      Elsewhere writers s { s with host := s.host.put .config (some f), last := f.data }

inductive Idle : Edited → Edited → Prop where
  | host {s : Edited} {host : Host} (moves : Host.Idle s.host host) : Idle s { s with host := host }

end Edited

abbrev edited (writers : Writers) : System Requests where
  State := Edited
  exec := Edited.exec writers
  env := Edited.Elsewhere writers
  idle := Edited.Idle

/-! ## Views -/

structure View where
  config : Option Bytes
  backup : Option Bytes
  last : Bytes
  originals : List Bytes

def View.write (v : View) (data : Bytes) : View :=
  { v with config := some data, last := data }

def Edited.view (s : Edited) : View :=
  ⟨(s.host.files .config).map File.data, (s.host.files .backup).map File.data, s.last,
    s.originals⟩

/-- An invariant `P` of the helper's moves and of other writers; under `R` the backup may go. -/
structure Protocol (writers : Writers) (P R : View → Prop) : Prop where
  written : ∀ v data, P v → writers.allowed v.originals data → P (v.write data)
  resting : ∀ v data, R v → writers.allowed v.originals data → R (v.write data)
  note : ∀ v data, P v → v.config = some data → v.backup = none →
    P { v with originals := data :: v.originals }
  publish : ∀ v data temporary, P v → v.backup = none → data ∈ v.originals →
    disabledConfig data = .ok temporary → P { v with backup := some data }
  disable : ∀ v data temporary, P v → v.backup = some data →
    disabledConfig data = .ok temporary → (writers.atomic → v.config = some data) →
    P { v with config := some temporary }
  restore : ∀ v data temporary, P v → v.backup = some data →
    disabledConfig data = .ok temporary → (writers.atomic → v.config = some temporary) →
    P { v with config := some data }
  settled : ∀ v data, P v → v.backup = some data → v.config = some data → R v
  kept : ∀ v, R v → P v
  remove : ∀ v, R v → P { v with backup := none }

/-- Others cannot falsify `Q`. -/
def Enduring (writers : Writers) (Q : View → Prop) : Prop :=
  ∀ v data, Q v → writers.allowed v.originals data → Q (v.write data)

section Views

variable {writers : Writers} {P Q : View → Prop} {pid number : Nat}

theorem Enduring.and {R : View → Prop} (first : Enduring writers Q) (second : Enduring writers R) :
    Enduring writers fun v => Q v ∧ R v :=
  fun v data ⟨q, r⟩ allowed => ⟨first v data q allowed, second v data r allowed⟩

/-- Others neither touch temporary files nor what the helper compared. -/
theorem elsewhere_cases {s t : Edited} (moves : Edited.Elsewhere writers s t) :
    t.compared = s.compared ∧
      (∀ pid number, t.host.files (.temporary pid number) = s.host.files (.temporary pid number)) ∧
      (t.view = s.view ∨
        ∃ data, writers.allowed s.view.originals data ∧ t.view = s.view.write data) := by
  cases moves with
  | drift drifts =>
      have files := drift_files drifts
      refine ⟨rfl, fun pid number => congrFun files _, .inl ?_⟩
      simp only [Edited.view, files]
  | write f allowed => exact ⟨rfl, fun pid number => rfl, .inr ⟨f.data, allowed, rfl⟩⟩

theorem view_stable (enduring : Enduring writers Q) : (edited writers).Stable fun s => Q s.view := by
  intro s t moves holds
  obtain ⟨-, -, same | ⟨data, allowed, same⟩⟩ := elsewhere_cases moves
  · rw [same]
    exact holds
  · rw [same]
    exact enduring s.view data holds allowed

/-- A view, and a file at a temporary path. -/
def Storing (Q : View → Prop) (path : Path) (test : File → Prop) (s : Edited) : Prop :=
  Q s.view ∧ ∃ f, s.host.files path = some f ∧ test f

theorem storing_stable (enduring : Enduring writers Q) (test : File → Prop) :
    (edited writers).Stable (Storing Q (.temporary pid number) test) := by
  rintro s t moves ⟨holds, f, found, passes⟩
  refine ⟨view_stable enduring s t moves holds, f, ?_, passes⟩
  rw [(elsewhere_cases moves).2.1]
  exact found

/-- ... behind a comparison that saw `expected`. -/
theorem compared_stable (test : Option File → Prop) :
    (edited writers).Stable fun s => test s.compared := by
  intro s t moves holds
  rw [(elsewhere_cases moves).1]
  exact holds

/-! ## Requests that change no view -/

def Request.Still : Request → Prop
  | .read path => path ≠ .config
  | .rename _ _ => False
  | .hardLink _ target => ∃ pid number, target = .temporary pid number
  | .createNew path | .chown path _ _ | .setPermissions path _ | .writeAll path _
  | .removeFile path => ∃ pid number, path = .temporary pid number
  | _ => True

theorem noted_still {request : Request} (still : request.Still) (s : Edited)
    (reply : Reply request) : s.noted request reply = s.originals := by
  cases request with
  | read path =>
      cases path with
      | config => exact absurd rfl still
      | backup => rfl
      | temporary pid number => rfl
  | _ => rfl

/-- Where a still request leaves both files. -/
theorem exec_still {request : Request} (still : request.Still) {s t : Host} {reply : Reply request}
    (performed : Host.exec False request s reply t) :
    t.files .config = s.files .config ∧ t.files .backup = s.files .backup := by
  by_cases units : request = .stopUnits
  · subst units
    exact ⟨congrFun performed.1 _, congrFun performed.1 _⟩
  · have silent : request.Silent := by
      cases request with
      | rename => exact still.elim
      | stopUnits => exact absurd rfl units
      | hardLink | createNew | chown | setPermissions | writeAll | removeFile => exact still
      | _ => trivial
    have quiet := exec_quiet silent performed
    exact ⟨quiet.config, quiet.backup⟩

theorem still_view {request : Request} (still : request.Still) {s t : Edited}
    {reply : Reply request} (performed : Edited.exec writers request s reply t) :
    t.view = s.view := by
  obtain ⟨did, -, shape⟩ := performed
  obtain ⟨config, backup⟩ := exec_still still did
  rw [shape]
  simp only [Edited.view, config, backup, noted_still still]

end Views

/-! ## Triples -/

section Triples

variable {writers : Writers} {P R : View → Prop} {α β : Type}

variable (writers P) in
/-- The triples of this module: every request keeps `P`. -/
abbrev EditSpec (pre : Edited → Prop) (block : Run α) (post : α → Edited → Prop)
    (failing : Edited → Prop) : Prop :=
  @System.Triple Requests (edited writers) (fun s => P s.view) Failure α pre block post failing

/-- The end of a block, as in `Ended`. -/
abbrev EditEnded (post : α → Edited → Prop) (failing : Edited → Prop) :
    Except String α → Edited → Prop :=
  @System.Ends Requests (edited ⟨fun _ _ => True, False⟩) String α post failing

theorem editFail_spec {outcome : Except String α} {post : α → Edited → Prop}
    {failing : Edited → Prop} :
    EditSpec writers P (EditEnded post failing outcome) (orFail outcome) post failing := by
  cases outcome with
  | ok value => exact fun s holds => holds
  | error message => exact fun s holds => holds

theorem editDemand_spec {pre : Edited → Prop} {block : Run (Except String α)}
    {middle : α → Edited → Prop} {rest : α → Run β} {post : β → Edited → Prop}
    {failing : Edited → Prop} (first : EditSpec writers P pre block (EditEnded middle failing) failing)
    (second : ∀ value, EditSpec writers P (middle value) (rest value) post failing) :
    EditSpec writers P pre (block >>= fun outcome => orFail outcome >>= rest) post failing :=
  first.bind fun _ => editFail_spec.bind second

theorem editDemand_last_spec {pre : Edited → Prop} {block : Run (Except String α)}
    {post : α → Edited → Prop} {failing : Edited → Prop}
    (first : EditSpec writers P pre block (EditEnded post failing) failing) :
    EditSpec writers P pre (block >>= fun outcome => orFail outcome) post failing :=
  first.bind fun _ => editFail_spec

theorem editAttempt_spec {pre : Edited → Prop} {block : Run α} {post : α → Edited → Prop}
    {failing : Edited → Prop} (spec : EditSpec writers P pre block post failing) :
    EditSpec writers P pre (attempt block) (EditEnded post failing) failing :=
  System.Triple.attempt spec fun _ _ holds => holds

/-! ### Blocks that keep every view -/

variable (writers P) in
/-- A block that keeps whatever others cannot falsify, however it ends. -/
def Keeps (block : Run α) : Prop :=
  ∀ Q : View → Prop, Enduring writers Q → (∀ v, Q v → P v) →
    EditSpec writers P (fun s => Q s.view) block (fun _ s => Q s.view) fun s => Q s.view

namespace Keeps

theorem pure (value : α) : Keeps writers P (Pure.pure value : Run α) :=
  fun _ _ _ => System.Triple.pure fun _ holds => holds

theorem fail (message : String) : Keeps writers P (Run.fail message : Run α) :=
  fun _ _ _ => System.Triple.throw fun _ holds => holds

theorem ofExcept (result : Result α) : Keeps writers P (Fallible.ofExcept result) :=
  fun _ _ _ => System.Triple.ofExcept (fun _ _ _ holds => holds) fun _ holds => holds

theorem orFail (outcome : Except String α) : Keeps writers P (Run.orFail outcome) :=
  ofExcept _

theorem bind {block : Run α} {rest : α → Run β} (first : Keeps writers P block)
    (second : ∀ value, Keeps writers P (rest value)) : Keeps writers P (block >>= rest) :=
  fun Q enduring safe => (first Q enduring safe).bind fun value => second value Q enduring safe

theorem attempt {block : Run α} (keeps : Keeps writers P block) :
    Keeps writers P (Run.attempt block) :=
  fun Q enduring safe => System.Triple.attempt (keeps Q enduring safe) fun _ _ holds => holds

theorem perform (request : Request) (still : request.Still) :
    Keeps writers P (@Fallible.perform Failure Requests request) := by
  intro Q enduring safe
  refine System.Triple.perform (view_stable enduring) ?_
  intro s reply t holds performed
  have same := still_view still performed
  rw [same]
  exact ⟨safe _ holds, holds⟩

theorem synced : Keeps writers P (do Run.orFail (← syncDirectory)) :=
  (perform .syncDirectory trivial).bind fun _ => orFail _

theorem serviceState : Keeps writers P serviceState :=
  (perform .showService trivial).bind fun _ => orFail _

theorem liveRestore : Keeps writers P liveRestore :=
  (perform .info trivial).bind fun _ => (orFail _).bind fun _ => ofExcept _

theorem confirm (expected : Bool) (left : Nat) : Keeps writers P (confirm expected left) := by
  induction left with
  | zero =>
      refine liveRestore.attempt.bind fun outcome => ?_
      split
      · exact pure ()
      · exact fail _
  | succ left ih =>
      refine liveRestore.attempt.bind fun outcome => ?_
      split
      · exact pure ()
      · exact ih

theorem reloadConfig (expected : Bool) : Keeps writers P (reloadConfig expected) := by
  refine serviceState.bind fun state => ?_
  dsimp only
  split
  · exact fail _
  · exact (perform (.hangup _) trivial).bind fun _ => (orFail _).bind fun _ =>
      (perform .polls trivial).bind fun left => confirm expected left

theorem restoreRuntime (original : Bytes) : Keeps writers P (restoreRuntime original) := by
  refine serviceState.bind fun state => ?_
  split
  · exact (ofExcept _).bind fun field => reloadConfig _
  · split
    · exact pure ()
    · exact fail _

theorem restoreDaemon (original : Bytes) (result : Except String Unit) :
    Keeps writers P (restoreDaemon original result) := by
  cases result with
  | ok value => exact pure ()
  | error message => exact restoreRuntime original

theorem backupPresent : Keeps writers P backupPresent := by
  refine (perform (.exist _) trivial).bind fun present => ?_
  cases present with
  | true => exact pure true
  | false => exact perform (.symlinkMetadata _) trivial

theorem dockerChanged (state : List (String × String)) : Keeps writers P (dockerChanged state) := by
  refine serviceState.bind fun now => ?_
  split
  · exact pure true
  · exact liveRestore

theorem stopDocker (active : Bool) : Keeps writers P (stopDocker active) := by
  refine (perform .stopUnits trivial).bind fun _ => (orFail _).bind fun _ =>
    serviceState.bind fun stopped => (perform .socketState trivial).bind fun _ =>
      (orFail _).bind fun socket => ?_
  split
  · exact fail _
  · split
    · exact fail _
    · refine (perform .dockerShimsRemain trivial).bind fun remain => ?_
      cases remain with
      | true => exact fail _
      | false => exact pure ()

theorem discard (pid number : Nat) : Keeps writers P (discard (.temporary pid number)) := by
  refine (perform (.exist _) trivial).bind fun there => ?_
  cases there with
  | true => exact (perform (.removeFile _) ⟨pid, number, rfl⟩).bind fun _ => pure ()
  | false => exact pure ()

end Keeps

/-! ### Temporary files -/

section Temporary

variable {Q : View → Prop} (enduring : Enduring writers Q) (safe : ∀ v, Q v → P v) {pid number : Nat}
include enduring safe

/-- Requests that change a temporary file, or fail. -/
theorem store_spec (request : Request) (still : request.Still)
    (outcome : Reply request → Except String Unit) {before after : File → Prop}
    (changes : ∀ s reply t f, s.files (.temporary pid number) = some f → before f →
      Host.exec False request s reply t → outcome reply = .ok () →
      ∃ g, t.files (.temporary pid number) = some g ∧ after g) :
    EditSpec writers P (Storing Q (.temporary pid number) before)
      (@Fallible.perform Failure Requests request)
      (fun reply => EditEnded (fun _ => Storing Q (.temporary pid number) after)
        (fun s => Q s.view) (outcome reply)) fun s => Q s.view := by
  refine System.Triple.perform (storing_stable enduring _) ?_
  rintro s reply t ⟨holds, f, found, passes⟩ performed
  have kept : Q t.view := by rw [still_view still performed]; exact holds
  refine ⟨safe _ kept, ?_⟩
  cases result : outcome reply with
  | error message => exact kept
  | ok value => exact ⟨kept, changes s.host reply t.host f found passes performed.1 result⟩

theorem create_spec (numbers : List Nat) :
    EditSpec writers P (fun s => Q s.view) (createTemporary pid numbers)
      (fun path s => ∃ number, path = .temporary pid number ∧ Storing Q path (fun _ => True) s)
      fun s => Q s.view := by
  induction numbers with
  | nil => exact System.Triple.throw fun s holds => holds
  | cons number rest ih =>
      have made : EditSpec writers P (fun s => Q s.view) (createNew (.temporary pid number))
          (fun reply s => Q s.view ∧
            (reply = .created → ∃ f, s.host.files (.temporary pid number) = some f))
          fun s => Q s.view := by
        refine System.Triple.perform (view_stable enduring) ?_
        intro s reply t holds performed
        have kept : Q t.view := by
          rw [@still_view writers (.createNew _) ⟨pid, number, rfl⟩ _ _ _ performed]
          exact holds
        refine ⟨safe _ kept, kept, fun created => ?_⟩
        subst created
        rw [performed.1.2]
        exact ⟨_, s.host.put_self _ _⟩
      refine made.bind fun reply => ?_
      cases reply with
      | created =>
          refine System.Triple.pure ?_
          rintro s ⟨holds, found⟩
          obtain ⟨f, found⟩ := found rfl
          exact ⟨number, rfl, holds, f, found, trivial⟩
      | alreadyExists => exact ih.weaken (fun _ holds => holds.1) (fun _ _ h => h) fun _ h => h
      | failed message => exact System.Triple.throw fun s holds => holds.1

/-- A temporary file that is filled has the data. -/
theorem fill_spec (data : Bytes) (metadata : Metadata) :
    EditSpec writers P (Storing Q (.temporary pid number) fun _ => True)
      (fillTemporary (.temporary pid number) data metadata)
      (fun _ => Storing Q (.temporary pid number) fun f => f.data = data) fun s => Q s.view := by
  have owned : EditSpec writers P (Storing Q (.temporary pid number) fun _ => True)
      (chown (.temporary pid number) metadata.uid metadata.gid)
      (EditEnded (fun _ => Storing Q (.temporary pid number) fun _ => True) fun s => Q s.view)
      fun s => Q s.view := by
    refine store_spec enduring safe (.chown _ _ _) ⟨pid, number, rfl⟩ id ?_
    rintro s reply t f found - performed ok
    rcases performed with ⟨_, failed, _⟩ | ⟨_, f', _, rfl⟩
    · exact absurd (failed.symm.trans ok) (by simp)
    · exact ⟨_, s.put_self _ _, trivial⟩
  have permitted : EditSpec writers P (Storing Q (.temporary pid number) fun _ => True)
      (setPermissions (.temporary pid number) (metadata.mode &&& 0o7777))
      (EditEnded (fun _ => Storing Q (.temporary pid number) fun _ => True) fun s => Q s.view)
      fun s => Q s.view := by
    refine store_spec enduring safe (.setPermissions _ _) ⟨pid, number, rfl⟩ id ?_
    rintro s reply t f found - performed ok
    rcases performed with ⟨_, failed, _⟩ | ⟨_, f', _, rfl⟩
    · exact absurd (failed.symm.trans ok) (by simp)
    · exact ⟨_, s.put_self _ _, trivial⟩
  have written : EditSpec writers P (Storing Q (.temporary pid number) fun _ => True)
      (writeAll (.temporary pid number) data)
      (EditEnded (fun _ => Storing Q (.temporary pid number) fun f => f.data = data)
        fun s => Q s.view) fun s => Q s.view := by
    refine store_spec enduring safe (.writeAll _ _) ⟨pid, number, rfl⟩ id ?_
    rintro s reply t f found - ⟨f', contents, same, rfl, complete⟩ ok
    rw [complete ok]
    exact ⟨_, s.put_self _ _, rfl⟩
  have synced : EditSpec writers P (Storing Q (.temporary pid number) fun f => f.data = data)
      (syncAll (.temporary pid number))
      (EditEnded (fun _ => Storing Q (.temporary pid number) fun f => f.data = data)
        fun s => Q s.view) fun s => Q s.view := by
    refine store_spec enduring safe (.syncAll _) trivial id ?_
    rintro s reply t f found whole performed -
    cases performed
    exact ⟨f, found, whole⟩
  exact editDemand_spec owned fun _ => editDemand_spec permitted fun _ =>
    editDemand_spec written fun _ => editDemand_last_spec synced

theorem temporary_spec (data : Bytes) (metadata : Metadata) :
    EditSpec writers P (fun s => Q s.view) (writeTemporary pid data metadata)
      (fun path s => ∃ number, path = .temporary pid number ∧
        Storing Q path (fun f => f.data = data) s) fun s => Q s.view := by
  refine (create_spec enduring safe _).bind fun path => ?_
  rintro s ⟨number, rfl, storing⟩
  revert s
  refine (editAttempt_spec (fill_spec enduring safe data metadata)).bind fun outcome => ?_
  cases outcome with
  | ok value => exact System.Triple.pure fun s storing => ⟨number, rfl, storing⟩
  | error message =>
      refine (Keeps.perform (.removeFile _) ⟨pid, number, rfl⟩ Q enduring safe).bind fun _ => ?_
      exact System.Triple.throw fun s holds => holds

end Temporary

/-! ### Reading -/

/-- A reading of `daemon.json`: it is compared, and noted if there is no backup. -/
theorem read_config_cases {s t : Edited} {reply : Except String (Bytes × Metadata)}
    (performed : Edited.exec writers (.read .config) s reply t) :
    t.host = s.host ∧ t.compared = s.host.files .config ∧
      (∀ content, reply = .ok content → s.view.config = some content.1) ∧
      ((t.view = s.view ∧ ∀ content, reply = .ok content → s.view.backup ≠ none) ∨
        ∃ data, s.view.config = some data ∧ s.view.backup = none ∧
          t.view = { s.view with originals := data :: s.view.originals } ∧
          ∀ content, reply = .ok content → content.1 = data) := by
  obtain ⟨⟨host, found⟩, -, shape⟩ := performed
  have reads : ∀ content, reply = .ok content → s.view.config = some content.1 := by
    intro content is
    obtain ⟨f, there, rfl⟩ := found content is
    simp only [Edited.view, there, Option.map_some]
  refine ⟨host, by rw [shape]; rfl, reads, ?_⟩
  rw [shape, host]
  cases reply with
  | error message => exact .inl ⟨rfl, fun content impossible => by cases impossible⟩
  | ok content =>
      cases backup : s.host.files .backup with
      | some f =>
          refine .inl ⟨by simp only [Edited.view, Edited.noted, backup], fun _ _ => ?_⟩
          simp only [Edited.view, backup, Option.map_some]
          exact Option.some_ne_none f.data
      | none =>
          refine .inr ⟨content.1, reads content rfl, by simp only [Edited.view, backup,
            Option.map_none], by simp only [Edited.view, Edited.noted, backup], ?_⟩
          intro content' is
          rw [Except.ok.inj is]

section Reading

variable {Q : View → Prop} (safe : ∀ v, Q v → P v)
include safe

theorem readBackup_spec (enduring : Enduring writers Q) :
    EditSpec writers P (fun s => Q s.view) (readFile .backup)
      (fun content s => Q s.view ∧ s.view.backup = some content.1) fun s => Q s.view := by
  have reading : EditSpec writers P (fun s => Q s.view) (Run.read .backup)
      (EditEnded (fun content s => Q s.view ∧ s.view.backup = some content.1) fun s => Q s.view)
      fun s => Q s.view := by
    refine System.Triple.perform (view_stable enduring) ?_
    intro s reply t holds performed
    have kept : Q t.view := by
      rw [@still_view writers (.read .backup) (by simp [Request.Still]) _ _ _ performed]
      exact holds
    refine ⟨safe _ kept, ?_⟩
    cases reply with
    | error message => exact kept
    | ok content =>
        obtain ⟨⟨host, found⟩, -, -⟩ := performed
        obtain ⟨f, there, rfl⟩ := found content rfl
        exact ⟨kept, by simp only [Edited.view, host, there, Option.map_some]⟩
  refine editDemand_spec reading ?_
  rintro ⟨data, metadata⟩
  dsimp only
  split
  · exact System.Triple.throw fun s holds => holds.1
  · exact System.Triple.pure fun s holds => holds

/-- With a backup, reading `daemon.json` changes no view. -/
theorem readConfig_spec (backed : ∀ v, Q v → v.backup ≠ none) {pre : Edited → Prop}
    (stable : (edited writers).Stable pre) (held : ∀ s, pre s → Q s.view)
    (hosts : ∀ s t : Edited, t.host = s.host → t.view = s.view → pre s → pre t) :
    EditSpec writers P pre (readFile .config)
      (fun content s => pre s ∧ s.view.config = some content.1 ∧
        s.compared.map File.data = some content.1) fun s => Q s.view := by
  have reading : EditSpec writers P pre (Run.read .config)
      (EditEnded (fun content s => pre s ∧ s.view.config = some content.1 ∧
        s.compared.map File.data = some content.1) fun s => Q s.view) fun s => Q s.view := by
    refine System.Triple.perform stable ?_
    intro s reply t holds performed
    obtain ⟨host, compared, reads, ⟨same, -⟩ | ⟨data, -, none, -⟩⟩ := read_config_cases performed
    · have kept : Q t.view := by
        rw [same]
        exact held s holds
      refine ⟨safe _ kept, ?_⟩
      cases reply with
      | error message => exact kept
      | ok content =>
          have config := reads content rfl
          refine ⟨hosts s t host same holds, by rw [same]; exact config, ?_⟩
          rw [compared]
          exact config
    · exact absurd none (backed _ (held s holds))
  refine editDemand_spec reading ?_
  rintro ⟨data, metadata⟩
  dsimp only
  split
  · exact System.Triple.throw fun s holds => held s holds.1
  · exact System.Triple.pure fun s holds => holds

end Reading

/-! ### The moves -/

section Moves

variable {Q Q' : View → Prop} {pid number : Nat} {data expected : Bytes}

/-- The rename puts the data in the place of what the comparison saw. -/
theorem move_spec (enduring : Enduring writers Q) (enduring' : Enduring writers Q')
    (safe : ∀ v, Q v → P v) (back : ∀ v, Q' v → Q v) (backed : ∀ v, Q v → v.backup ≠ none)
    (moves : ∀ v, Q v → (writers.atomic → v.config = some expected) →
      Q' { v with config := some data }) :
    EditSpec writers P (Storing Q (.temporary pid number) fun f => f.data = data)
      (publish (.temporary pid number) .config expected) (fun _ s => Q' s.view)
      fun s => Q s.view := by
  have stored : (edited writers).Stable (Storing Q (.temporary pid number) fun f => f.data = data) :=
    storing_stable enduring _
  have renamed : EditSpec writers P
      (fun s => Storing Q (.temporary pid number) (fun f => f.data = data) s ∧
        s.compared.map File.data = some expected)
      (rename (.temporary pid number) .config)
      (EditEnded (fun _ s => Q' s.view) fun s => Q s.view) fun s => Q s.view := by
    refine System.Triple.perform (stored.and (compared_stable fun file =>
      file.map File.data = some expected)) ?_
    rintro s reply t ⟨⟨holds, f, found, rfl⟩, compared⟩ ⟨did, undisturbed, shape⟩
    rcases did with ⟨message, rfl, host⟩ | ⟨rfl, f', same, host⟩
    · have same : t.view = s.view := by
        rw [shape, host]
        rfl
      have kept : Q t.view := by
        rw [same]
        exact holds
      exact ⟨safe _ kept, kept⟩
    · cases found.symm.trans same
      have view : t.view = { s.view with config := some f.data } := by
        rw [shape, host]
        rfl
      have after : Q' t.view := by
        rw [view]
        refine moves s.view holds fun atomic => ?_
        have same : s.host.files .config = s.compared := undisturbed atomic
        rw [← compared, ← same]
        rfl
      exact ⟨safe _ (back _ after), after⟩
  have read : EditSpec writers P (Storing Q (.temporary pid number) fun f => f.data = data)
      (readFile .config) (fun content s =>
        Storing Q (.temporary pid number) (fun f => f.data = data) s ∧
          s.view.config = some content.1 ∧ s.compared.map File.data = some content.1)
      fun s => Q s.view := by
    refine readConfig_spec safe backed stored (fun s holds => holds.1) ?_
    rintro s t host same ⟨holds, found⟩
    have kept : Q t.view := by
      rw [same]
      exact holds
    show Storing Q (.temporary pid number) (fun f => f.data = data) t
    refine ⟨kept, ?_⟩
    rw [host]
    exact found
  refine read.bind ?_
  rintro ⟨current, metadata⟩
  dsimp only
  split
  · exact System.Triple.throw fun s holds => holds.1.1
  · rename_i equal
    obtain rfl := not_not.1 equal
    refine System.Triple.weaken ?_ (editDemand_spec renamed fun _ => ?_) (fun _ _ h => h)
      fun _ h => h
    · exact fun s holds => ⟨holds.1, holds.2.2⟩
    · exact (Keeps.synced Q' enduring' fun v holds => safe v (back v holds)).weaken (fun _ h => h)
        (fun _ _ h => h) fun s holds => back _ holds

theorem replace_spec {metadata : Metadata} (enduring : Enduring writers Q)
    (enduring' : Enduring writers Q') (safe : ∀ v, Q v → P v) (back : ∀ v, Q' v → Q v)
    (backed : ∀ v, Q v → v.backup ≠ none)
    (moves : ∀ v, Q v → (writers.atomic → v.config = some expected) →
      Q' { v with config := some data }) :
    EditSpec writers P (fun s => Q s.view) (replaceFile pid .config data metadata expected)
      (fun _ s => Q' s.view) fun s => Q s.view := by
  refine (temporary_spec enduring safe data metadata).bind fun path => ?_
  rintro s ⟨number, rfl, storing⟩
  revert s
  refine (editAttempt_spec (move_spec enduring enduring' safe back backed moves)).bind
    fun outcome => ?_
  cases outcome with
  | ok value =>
      exact System.Triple.bind ((Keeps.discard pid number Q' enduring'
        fun v holds => safe v (back v holds)).weaken (fun _ h => h) (fun _ _ h => h)
        fun s holds => back _ holds) fun _ s holds => holds
  | error message =>
      exact System.Triple.bind (Keeps.discard pid number Q enduring safe) fun _ s holds => holds

end Moves

/-! ## `shutdown` -/

section Protocol

variable (protocol : Protocol writers P R) {pid : Nat} {original temporary : Bytes}
  {metadata : Metadata}
include protocol

theorem protocol_enduring : Enduring writers P :=
  protocol.written

/-- The backup is `original`. -/
def Held (P : View → Prop) (original : Bytes) (v : View) : Prop :=
  P v ∧ v.backup = some original

omit protocol in
theorem held_enduring {Q : View → Prop} (enduring : Enduring writers Q) (original : Bytes) :
    Enduring writers (Held Q original) :=
  enduring.and fun _ _ same _ => same

omit protocol in
theorem held_backed {v : View} (held : Held P original v) : v.backup ≠ none := by
  rw [held.2]
  exact Option.some_ne_none original

/-- `original` was noted, unless a backup would not have let it be. -/
def Noted (P : View → Prop) (original : Bytes) (v : View) : Prop :=
  P v ∧ (v.backup = none → original ∈ v.originals)

theorem noted_enduring (original : Bytes) : Enduring writers (Noted P original) :=
  (protocol_enduring protocol).and fun _ _ noted _ => noted

/-- A backup is published of what was noted. -/
theorem save_spec (disabled : disabledConfig original = .ok temporary) :
    EditSpec writers P (fun s => Noted P original s.view) (saveBackup pid .backup original metadata)
      (fun _ s => Held P original s.view) fun s => P s.view := by
  have enduring := noted_enduring protocol original
  have safe : ∀ v, Noted P original v → P v := fun v noted => noted.1
  have enduringHeld := held_enduring (protocol_enduring protocol) original
  refine System.Triple.bind ((temporary_spec enduring safe original metadata).weaken (fun _ h => h)
    (fun _ _ h => h) fun s noted => noted.1) fun path => ?_
  rintro s ⟨number, rfl, storing⟩
  revert s
  have linked : EditSpec writers P
      (Storing (Noted P original) (.temporary pid number) fun f => f.data = original)
      (hardLink (.temporary pid number) .backup)
      (EditEnded (fun _ s => Held P original s.view) fun s => P s.view) fun s => P s.view := by
    refine System.Triple.perform (storing_stable enduring _) ?_
    rintro s reply t ⟨⟨holds, noted⟩, f, found, rfl⟩ ⟨did, -, shape⟩
    rcases did with ⟨message, rfl, host⟩ | ⟨rfl, free, f', same, host⟩
    · have same : t.view = s.view := by
        rw [shape, host]
        rfl
      have kept : P t.view := by
        rw [same]
        exact holds
      exact ⟨kept, kept⟩
    · cases found.symm.trans same
      have view : t.view = { s.view with backup := some f.data } := by
        rw [shape, host]
        rfl
      have absent : s.view.backup = none := by simp only [Edited.view, free, Option.map_none]
      have held : Held P f.data t.view := by
        rw [view]
        exact ⟨protocol.publish s.view f.data temporary holds absent (noted absent) disabled, rfl⟩
      exact ⟨held.1, held⟩
  have published : EditSpec writers P
      (Storing (Noted P original) (.temporary pid number) fun f => f.data = original)
      (link (.temporary pid number) .backup) (fun _ s => Held P original s.view)
      fun s => P s.view := by
    refine editDemand_spec linked fun _ => ?_
    exact (Keeps.synced _ enduringHeld fun v held => held.1).weaken (fun _ h => h)
      (fun _ _ h => h) fun s held => held.1
  have dropped : Keeps writers P (removeFile (.temporary pid number)) :=
    Keeps.perform (.removeFile (.temporary pid number)) ⟨pid, number, rfl⟩
  refine (editAttempt_spec published).bind fun outcome => ?_
  cases outcome with
  | ok value =>
      exact System.Triple.bind ((dropped _ enduringHeld fun v held => held.1).weaken (fun _ h => h)
        (fun _ _ h => h) fun s held => held.1) fun _ s held => held
  | error message =>
      exact System.Triple.bind (dropped _ (protocol_enduring protocol) fun v holds => holds)
        fun _ s holds => holds

/-- The file is put back, or found to be back. -/
theorem restoreFile_held (disabled : disabledConfig original = .ok temporary) :
    EditSpec writers P (fun s => Held P original s.view)
      (restoreFile pid .config original metadata temporary)
      (fun _ s => Held R original s.view) fun s => Held P original s.view := by
  have enduring := held_enduring (protocol_enduring protocol) original
  have resting : Enduring writers R := protocol.resting
  have safe : ∀ v, Held P original v → P v := fun v held => held.1
  refine System.Triple.bind (readConfig_spec safe (fun v => held_backed)
    (view_stable enduring) (fun s held => held) fun s t host same held => ?_) ?_
  · rw [same]
    exact held
  · rintro ⟨current, metadata'⟩
    dsimp only
    split
    · refine System.Triple.weaken (fun s holds => holds.1) ?_ (fun _ _ h => h) fun _ h => h
      refine replace_spec enduring (held_enduring resting original) safe
        (fun v held => ⟨protocol.kept v held.1, held.2⟩) (fun v => held_backed) ?_
      rintro v ⟨holds, backup⟩ here
      have restored := protocol.restore v original temporary holds backup disabled here
      exact ⟨protocol.settled _ original restored backup rfl, backup⟩
    · split
      · exact System.Triple.throw fun s holds => holds.1
      · rename_i same
        obtain rfl := not_not.1 same
        refine System.Triple.pure ?_
        rintro s ⟨held, config, -⟩
        exact ⟨protocol.settled _ _ held.1 held.2 config, held.2⟩

theorem removeBackup_rested :
    EditSpec writers P (fun s => R s.view) removeBackup (fun _ s => P s.view) fun s => P s.view := by
  have removed : EditSpec writers P (fun s => R s.view) (removeFile .backup)
      (EditEnded (fun _ s => P s.view) fun s => P s.view) fun s => P s.view := by
    have resting : Enduring writers R := protocol.resting
    refine System.Triple.perform (view_stable resting) ?_
    rintro s reply t rests ⟨did, -, shape⟩
    rcases did with ⟨message, rfl, host⟩ | ⟨rfl, -, host⟩
    · have same : t.view = s.view := by
        rw [shape, host]
        rfl
      have kept : P t.view := by
        rw [same]
        exact protocol.kept _ rests
      exact ⟨kept, kept⟩
    · have view : t.view = { s.view with backup := none } := by
        rw [shape, host]
        rfl
      have gone : P t.view := by
        rw [view]
        exact protocol.remove _ rests
      exact ⟨gone, gone⟩
  refine editDemand_spec removed fun _ => ?_
  exact Keeps.synced P (protocol_enduring protocol) fun v holds => holds

/-- Putting back what is held, and whatever is done before the backup goes. -/
theorem restored_spec {between : Run Unit} (keeps : Keeps writers P between)
    (disabled : disabledConfig original = .ok temporary) :
    EditSpec writers P (fun s => Held P original s.view)
      (do restoreFile pid .config original metadata temporary; between; removeBackup)
      (fun _ s => P s.view) fun s => P s.view := by
  have resting : Enduring writers R := protocol.resting
  refine System.Triple.bind ((restoreFile_held protocol disabled).weaken (fun _ h => h)
    (fun _ _ h => h) fun s held => held.1) fun _ => ?_
  refine System.Triple.weaken (fun s held => held.1) ?_ (fun _ _ h => h) fun _ h => h
  refine System.Triple.bind ((keeps R resting protocol.kept).weaken (fun _ h => h) (fun _ _ h => h)
    fun s rests => protocol.kept _ rests) fun _ => removeBackup_rested protocol

theorem recoverBackup_protocol (pid : Nat) :
    EditSpec writers P (fun s => P s.view) (recoverBackup pid) (fun _ s => P s.view)
      fun s => P s.view := by
  have enduring := protocol_enduring protocol
  refine (Keeps.backupPresent P enduring fun v holds => holds).bind fun present => ?_
  cases present with
  | false => exact System.Triple.pure fun s holds => holds
  | true =>
      refine (readBackup_spec (fun v holds => holds) enduring).bind ?_
      rintro ⟨original, metadata⟩
      have reading : EditSpec writers P (fun s => P s.view ∧ s.view.backup = some original)
          (Fallible.ofExcept (disabledConfig original))
          (fun temporary s => disabledConfig original = .ok temporary ∧ Held P original s.view)
          fun s => P s.view :=
        System.Triple.ofExcept (fun temporary is s holds => ⟨is, holds⟩) fun s holds => holds.1
      refine reading.bind fun temporary => ?_
      refine System.Triple.assume (fun s holds => holds.1) fun disabled => ?_
      exact System.Triple.weaken (fun s holds => holds.2)
        (restored_spec protocol (Keeps.restoreRuntime original) disabled) (fun _ _ h => h)
        fun _ h => h

/-- What is to be put back is held. -/
def Owed (P : View → Prop) (v : View) : Option Restoration → Prop
  | none => P v
  | some r => Held P r.original v ∧ disabledConfig r.original = .ok r.temporary

theorem prepare_protocol (pid : Nat) (active : Bool) :
    EditSpec writers P (fun s => P s.view) (prepare pid active)
      (fun restoration s => Owed P s.view restoration) fun s => P s.view := by
  have enduring := protocol_enduring protocol
  cases active with
  | false => exact System.Triple.pure fun s holds => holds
  | true =>
      have reading : EditSpec writers P (fun s => P s.view) (readFile .config)
          (fun content s => Noted P content.1 s.view) fun s => P s.view := by
        have read : EditSpec writers P (fun s => P s.view) (Run.read .config)
            (EditEnded (fun content s => Noted P content.1 s.view) fun s => P s.view)
            fun s => P s.view := by
          refine System.Triple.perform (view_stable enduring) ?_
          intro s reply t holds performed
          obtain ⟨-, -, -, ⟨same, backed⟩ | ⟨data, config, absent, view, is⟩⟩ :=
            read_config_cases performed
          · rw [same]
            refine ⟨holds, ?_⟩
            cases reply with
            | error message =>
                show P t.view
                rw [same]
                exact holds
            | ok content =>
                show Noted P content.1 t.view
                rw [same]
                exact ⟨holds, fun absent => absurd absent (backed content rfl)⟩
          · have noted := protocol.note s.view data holds config absent
            rw [view]
            refine ⟨noted, ?_⟩
            cases reply with
            | error message =>
                show P t.view
                rw [view]
                exact noted
            | ok content =>
                show Noted P content.1 t.view
                rw [view]
                refine ⟨noted, fun _ => ?_⟩
                rw [is content rfl]
                exact List.mem_cons_self
        refine editDemand_spec read ?_
        rintro ⟨data, metadata⟩
        dsimp only
        split
        · exact System.Triple.throw fun s noted => noted.1
        · exact System.Triple.pure fun s noted => noted
      refine reading.bind ?_
      rintro ⟨original, metadata⟩
      refine System.Triple.bind (System.Triple.ofExcept
        (fun temporary is s noted => And.intro is noted) fun s noted => noted.1) fun temporary => ?_
      refine System.Triple.assume (fun s holds => holds.1) fun disabled => ?_
      refine System.Triple.weaken (fun s holds => holds.2) ?_ (fun _ _ h => h) fun _ h => h
      refine System.Triple.bind ((Keeps.liveRestore _ (noted_enduring protocol original)
        fun v noted => noted.1).weaken (fun _ h => h) (fun _ _ h => h) fun s noted => noted.1)
        fun live => ?_
      cases live with
      | false => exact System.Triple.pure fun s noted => noted.1
      | true =>
          refine (save_spec protocol disabled).bind fun _ => ?_
          have held := held_enduring enduring original
          refine System.Triple.bind ((replace_spec held held (fun v held => held.1)
            (fun v held => held) (fun v => held_backed) ?_).weaken (fun _ h => h) (fun _ _ h => h)
            fun s held => held.1) fun _ => ?_
          · rintro v ⟨holds, backup⟩ here
            exact ⟨protocol.disable v original temporary holds backup disabled here, backup⟩
          · exact System.Triple.pure fun s held => ⟨held, disabled⟩

theorem reloadDisabled_protocol {r : Restoration}
    (disabled : disabledConfig r.original = .ok r.temporary) :
    EditSpec writers P (fun s => Held P r.original s.view) (reloadDisabled pid (some r))
      (fun _ s => Held P r.original s.view) fun s => Held P r.original s.view := by
  have held := held_enduring (protocol_enduring protocol) r.original
  refine (Keeps.reloadConfig false _ held fun v held => held.1).bind fun _ => ?_
  exact (restoreFile_held protocol disabled).weaken (fun _ h => h)
    (fun _ s held => ⟨protocol.kept _ held.1, held.2⟩) fun _ h => h

omit protocol in
/-- The middle of a run keeps what the reload of the disabled version keeps. -/
theorem proceed_protocol {Q : View → Prop} (enduring : Enduring writers Q) (safe : ∀ v, Q v → P v)
    {restoration : Option Restoration}
    (reloads : EditSpec writers P (fun s => Q s.view) (reloadDisabled pid restoration)
      (fun _ s => Q s.view) fun s => Q s.view) (active : Bool) (state : List (String × String)) :
    EditSpec writers P (fun s => Q s.view) (proceed pid active state restoration)
      (fun _ s => Q s.view) fun s => Q s.view := by
  refine System.Triple.bind ?_ fun _ => Keeps.stopDocker active Q enduring safe
  cases active with
  | false => exact System.Triple.pure fun s holds => holds
  | true =>
      refine reloads.bind fun _ => (Keeps.dockerChanged state Q enduring safe).bind fun changed => ?_
      cases changed with
      | true => exact System.Triple.throw fun s holds => holds
      | false => exact System.Triple.pure fun s holds => holds

theorem restore_protocol {r : Restoration} (disabled : disabledConfig r.original = .ok r.temporary)
    (result : Except String Unit) :
    EditSpec writers P (fun s => Held P r.original s.view) (restore pid (some r) result)
      (fun _ s => P s.view) fun s => P s.view := by
  have resting : Enduring writers R := protocol.resting
  refine System.Triple.bind ((restoreFile_held protocol disabled).weaken (fun _ h => h)
    (fun _ _ h => h) fun s held => held.1) fun _ => ?_
  refine System.Triple.weaken (fun s held => held.1) ?_ (fun _ _ h => h) fun _ h => h
  refine System.Triple.bind ((Keeps.restoreDaemon r.original result R resting
    protocol.kept).weaken (fun _ h => h) (fun _ _ h => h) fun s rests => protocol.kept _ rests)
    fun _ => ?_
  refine (removeBackup_rested protocol).bind fun _ => ?_
  exact Keeps.orFail result P (protocol_enduring protocol) fun v holds => holds

/-- **One run.**  `shutdown` keeps the invariant of a protocol at every request. -/
theorem shutdown_protocol (pid : Nat) :
    EditSpec writers P (fun s => P s.view) (shutdown pid) (fun _ s => P s.view)
      fun s => P s.view := by
  have enduring := protocol_enduring protocol
  refine (recoverBackup_protocol protocol pid).bind fun _ => ?_
  refine (Keeps.serviceState P enduring fun v holds => holds).bind fun state => ?_
  dsimp only
  split
  · exact System.Triple.throw fun s holds => holds
  · refine (editAttempt_spec (prepare_protocol protocol pid _)).bind fun outcome => ?_
    cases outcome with
    | error message => exact System.Triple.throw fun s holds => holds
    | ok restoration =>
        cases restoration with
        | none =>
            have nothing : EditSpec writers P (fun s => P s.view) (reloadDisabled pid none)
                (fun _ s => P s.view) fun s => P s.view :=
              System.Triple.pure fun s holds => holds
            refine (editAttempt_spec (proceed_protocol enduring (fun v holds => holds) nothing _
              state)).bind fun result => ?_
            cases result with
            | error message => exact System.Triple.throw fun s holds => holds
            | ok value => exact System.Triple.pure fun s holds => holds
        | some r =>
            refine System.Triple.assume (fun s owed => owed.2) fun disabled => ?_
            have held := held_enduring enduring r.original
            refine System.Triple.bind (System.Triple.weaken (fun s owed => owed.1)
              (editAttempt_spec (proceed_protocol held (fun v held => held.1)
                (reloadDisabled_protocol protocol disabled) _ state)) (fun _ _ h => h)
              fun s held => held.1) fun result => ?_
            refine System.Triple.weaken ?_ (restore_protocol protocol disabled result)
              (fun _ _ h => h) fun _ h => h
            intro s ended
            cases result with
            | error message => exact ended
            | ok value => exact ended

end Protocol

end Triples

/-! ## Whole runs -/

abbrev EditReaches (writers : Writers) :=
  (edited writers).Reaches main

abbrev EditMachine (writers : Writers) :=
  Theory.Machine (edited writers) Nat (Except Failure Unit)

/-- **Whole runs.**  Any number of runs, killed anywhere, keep the invariant of a protocol. -/
theorem reaches_protocol {writers : Writers} {P R : View → Prop} (protocol : Protocol writers P R)
    {start finish : EditMachine writers} (idle : start.running = none) (holds : P start.state.view)
    (runs : EditReaches writers start finish) : P finish.state.view := by
  have stable : (edited writers).Stable fun s => P s.view := view_stable protocol.written
  have idleStable : ∀ s t, Edited.Idle s t → P s.view → P t.view := by
    intro s t moves holds
    cases moves with
    | host moves =>
        have settled := @idle_lasting False _ _ moves
        simp only [Edited.view, settled.config, settled.backup]
        exact holds
  have ended : ∀ (pid : Nat) (result : Except Failure Unit), (edited writers).Stable
      (@System.Ends Requests (edited writers) Failure Unit (fun _ s => P s.view)
        (fun s => P s.view) result) := by
    intro pid result
    cases result with
    | ok value => exact stable
    | error failure => exact stable
  exact (System.reachable_safe stable idleStable ended
    (fun pid s holds => shutdown_protocol protocol pid s holds) idle holds runs).1

end Luhmen.Guest.Shutdown
