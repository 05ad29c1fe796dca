/-
# Host.StorageLog -- the books of a scan

What a scan does is a list of events: an entry is examined and found to be one of
six things, something is reported, or the scan is cut off by one of its limits.
`scanLog` writes that list, by the functions of `Host.Storage` and at each of their
branches; it is history only and no function of the walk reads it.

`Walk.Books` says that the counters of a walk are those of its log, that it is complete
just if nothing was reported, and that a cut-off is the last event of all.  Each
function of the walk has one lemma with its own log, and they compose by
`Walk.Books.trans`.
-/
import Luhmen.Host.Storage

set_option autoImplicit false

namespace Luhmen.Host.Storage

open Luhmen.Theory

/-- What an entry that was counted is; `failed` is one that could not be taken for
any of the others. -/
inductive Outcome where
  | file
  | hardlink
  | symlink
  | other
  | directory
  | failed
deriving DecidableEq, Repr

inductive Event where
  | entry (outcome : Outcome)
  | problem
  | cutOff
deriving DecidableEq, Repr

/-- How many entries were examined. -/
def examined (events : List Event) : Nat :=
  events.countP fun
    | .entry _ => true
    | _ => false

/-- How many problems were met; being cut off is one. -/
def problems (events : List Event) : Nat :=
  events.count .problem + events.count .cutOff

/-! ## The log -/

namespace Walk

/-- What `within_budget` reports. -/
def budgetLog {tree : FileTree} (system : System tree) (walk : Walk) : List Event :=
  if walk.stopped then []
  else if walk.result.entries_seen ≥ walk.result.entry_limit then [.cutOff]
  else if system.elapsed walk.readings ≥ walk.time_limit then [.cutOff]
  else []

def fileLog (tree : FileTree) (walk : Walk) (file : FileId) : List Event :=
  if file ∈ walk.seen then [.entry .hardlink]
  else
    match checkedAdd walk.result.file_logical_bytes (tree.metadata file).length,
        (checkedMul (tree.metadata file).blocks 512).bind
          (checkedAdd walk.result.file_allocated_bytes) with
    | some _, some _ => [.entry .file]
    | _, _ => [.entry .failed, .problem]

def entryLog {tree : FileTree} (system : System tree)
    (descendLog : List String → Walk → List Event) (path : List String) (device : Nat)
    (entry : Except OsError String) (walk : Walk) : List Event :=
  let walk := { walk with result :=
    { walk.result with entries_seen := walk.result.entries_seen + 1 } }
  match entry with
  | .error _ => [.entry .failed, .problem]
  | .ok name =>
    let metadata := symlinkMetadata system (path ++ [name]) walk.calls
    let walk := { walk with calls := walk.calls + 1 }
    match metadata with
    | .error _ => [.entry .failed, .problem]
    | .ok file =>
      let kind := (tree.metadata file).kind
      if kind = .symlink then [.entry .symlink]
      else if file.device ≠ device then [.entry .failed, .problem]
      else if kind = .directory then .entry .directory :: descendLog (path ++ [name]) walk
      else if kind = .regular then walk.fileLog tree file
      else [.entry .other]

def entriesLog {tree : FileTree} (system : System tree) (descend : List String → Walk → Walk)
    (descendLog : List String → Walk → List Event) (path : List String) (device : Nat) :
    List (Except OsError String) → Walk → List Event
  | [], _ => []
  | entry :: rest, walk =>
    match walk.withinBudget system (.ofNames path) with
    | (false, _) => walk.budgetLog system
    | (true, walk) =>
      walk.entryLog system descendLog path device entry ++
        entriesLog system descend descendLog path device rest
          (walk.entry system descend path device entry)

def directoryLog {tree : FileTree} (system : System tree) (device : Nat) :
    Nat → List String → Walk → List Event
  | 0, path, walk =>
    match walk.withinBudget system (.ofNames path) with
    | (false, _) => walk.budgetLog system
    | (true, _) => [.problem]
  | levels + 1, path, walk =>
    match walk.withinBudget system (.ofNames path) with
    | (false, _) => walk.budgetLog system
    | (true, walk) =>
      match walk.enter system path device with
      | (none, _) => [.problem]
      | (some entries, walk) =>
        walk.entriesLog system (directory system device levels)
          (directoryLog system device levels) path device entries

end Walk

def scanLog {tree : FileTree} (system : System tree) (path : StoragePath)
    (entry_limit time_limit : Nat) : List Event :=
  let walk := Walk.start path entry_limit time_limit
  let (metadata, calls) := checkedMetadata system path 0
  let walk := { walk with calls }
  match metadata with
  | .ok file =>
    let metadata := tree.metadata file
    let walk := { walk with result :=
      { walk.result with
        found := some true
        root_uid := some metadata.uid
        root_gid := some metadata.gid } }
    if metadata.kind = .directory then
      walk.directoryLog system file.device (DEPTH_LIMIT + 1) path.names
    else [.problem]
  | .error error => if error.notFound then [] else [.problem]

/-! ## Counting events -/

theorem examined_append (before after : List Event) :
    examined (before ++ after) = examined before + examined after :=
  List.countP_append

theorem problems_append (before after : List Event) :
    problems (before ++ after) = problems before + problems after := by
  simp only [problems, List.count_append]
  omega

/-- Every entry is one of the six things. -/
theorem examined_eq (events : List Event) :
    examined events = events.count (.entry .file) + events.count (.entry .hardlink) +
      events.count (.entry .symlink) + events.count (.entry .other) +
      events.count (.entry .directory) + events.count (.entry .failed) := by
  induction events with
  | nil => rfl
  | cons event rest ih =>
    simp only [examined, List.countP_cons, List.count_cons] at ih ⊢
    cases event with
    | problem => simpa using ih
    | cutOff => simpa using ih
    | entry outcome => cases outcome <;> simp <;> omega

/-! ## The books -/

namespace Walk

/-- The counters have grown by what is in the log. -/
structure Books (events : List Event) (walk walk' : Walk) : Prop where
  limit : walk'.result.entry_limit = walk.result.entry_limit
  seen : walk'.result.entries_seen = walk.result.entries_seen + examined events
  files : walk'.result.files = walk.result.files + events.count (.entry .file)
  hardlinks : walk'.result.hardlinks_skipped =
    walk.result.hardlinks_skipped + events.count (.entry .hardlink)
  symlinks : walk'.result.symlinks_skipped =
    walk.result.symlinks_skipped + events.count (.entry .symlink)
  others : walk'.result.other_entries_skipped =
    walk.result.other_entries_skipped + events.count (.entry .other)
  errors : walk'.result.errors.length + walk'.result.additional_errors =
    walk.result.errors.length + walk.result.additional_errors + problems events
  room : walk.result.errors.length ≤ ERROR_LIMIT → walk'.result.errors.length ≤ ERROR_LIMIT
  complete : walk'.result.complete = true ↔ walk.result.complete = true ∧ problems events = 0
  bounded : walk.result.entries_seen ≤ walk.result.entry_limit →
    walk'.result.entries_seen ≤ walk'.result.entry_limit
  stopped : walk'.stopped = true ↔ walk.stopped = true ∨ .cutOff ∈ events
  last : .cutOff ∉ events.dropLast

section

variable {tree : FileTree} {walk walk' walk'' : Walk} {events before after : List Event}

theorem Books.trans (first : Books before walk walk') (second : Books after walk' walk'')
    (idle : walk'.stopped = true → after = []) : Books (before ++ after) walk walk'' where
  limit := second.limit.trans first.limit
  seen := by rw [second.seen, first.seen, examined_append, Nat.add_assoc]
  files := by rw [second.files, first.files, List.count_append, Nat.add_assoc]
  hardlinks := by rw [second.hardlinks, first.hardlinks, List.count_append, Nat.add_assoc]
  symlinks := by rw [second.symlinks, first.symlinks, List.count_append, Nat.add_assoc]
  others := by rw [second.others, first.others, List.count_append, Nat.add_assoc]
  errors := by rw [second.errors, first.errors, problems_append, Nat.add_assoc]
  room := second.room ∘ first.room
  complete := by
    rw [second.complete, first.complete, problems_append, and_assoc, Nat.add_eq_zero_iff]
  bounded := second.bounded ∘ first.bounded
  stopped := by rw [second.stopped, first.stopped, List.mem_append, or_assoc]
  last := by
    by_cases none : after = []
    · rw [none, List.append_nil]
      exact first.last
    · rw [List.dropLast_append_of_ne_nil none, List.mem_append]
      rintro (cut | cut)
      · exact none (idle (first.stopped.2 (.inr cut)))
      · exact second.last cut

/-- A walk that goes on has no need to be idle. -/
theorem idle_of_going (going : walk.stopped = false) : walk.stopped = true → events = [] := by
  intro stopped
  rw [going] at stopped
  cases stopped

theorem Books.refl : Books [] walk walk := by
  refine ⟨rfl, rfl, rfl, rfl, rfl, rfl, rfl, id, ?_, id, ?_, ?_⟩
  · simp [problems]
  · simp
  · simp

/-- A step that changes nothing the books are about. -/
theorem Books.aside (books : Books events walk walk') (seen : Finset FileId)
    (readings calls : Nat) : Books events walk { walk' with seen, readings, calls } :=
  ⟨books.limit, books.seen, books.files, books.hardlinks, books.symlinks, books.others,
    books.errors, books.room, books.complete, books.bounded, books.stopped, books.last⟩

/-- What is recorded of the root is not in the books either. -/
theorem Books.found (books : Books events walk walk') (found : Option Bool)
    (root_uid root_gid : Option Nat) :
    Books events walk
      { walk' with result := { walk'.result with found, root_uid, root_gid } } :=
  ⟨books.limit, books.seen, books.files, books.hardlinks, books.symlinks, books.others,
    books.errors, books.room, books.complete, books.bounded, books.stopped, books.last⟩

/-- Reporting is one problem. -/
theorem books_error (walk : Walk) (path : StoragePath) (message : String) :
    Books [.problem] walk (walk.error path message) := by
  unfold Walk.error
  dsimp only
  split
  · rename_i room
    refine ⟨rfl, rfl, rfl, rfl, rfl, rfl, ?_, fun _ => ?_, ?_, id, ?_, ?_⟩
    · show (walk.result.errors ++ [_]).length + walk.result.additional_errors = _
      have one : problems [.problem] = 1 := rfl
      rw [one, List.length_append, List.length_singleton]
      omega
    · rw [List.length_append, List.length_singleton]
      exact room
    · simp [problems]
    · simp
    · simp
  · refine ⟨rfl, rfl, rfl, rfl, rfl, rfl, rfl, id, ?_, id, ?_, ?_⟩
    · simp [problems]
    · simp
    · simp

/-- Being cut off is reported, once. -/
theorem books_cutOff (walk : Walk) (path : StoragePath) (message : String) :
    Books [.cutOff] walk { walk.error path message with stopped := true } := by
  have books := books_error walk path message
  exact ⟨books.limit, books.seen, books.files, books.hardlinks, books.symlinks, books.others,
    books.errors, books.room, books.complete, books.bounded, by simp, by simp⟩

theorem withinBudget_books {system : System tree} {path : StoragePath}
    (exceeded : walk.withinBudget system path = (false, walk')) :
    Books (walk.budgetLog system) walk walk' := by
  unfold withinBudget at exceeded
  unfold budgetLog
  split at exceeded
  · rename_i stopped
    cases exceeded
    rw [if_pos stopped]
    exact .refl
  · rename_i going
    rw [if_neg going]
    split at exceeded
    · rename_i full
      cases exceeded
      rw [if_pos full]
      exact books_cutOff walk path _
    · rename_i room
      rw [if_neg room]
      dsimp only at exceeded
      split at exceeded
      · rename_i late
        cases exceeded
        rw [if_pos late]
        have read : Books [] walk { walk with readings := walk.readings + 1 } :=
          Books.refl.aside walk.seen _ walk.calls
        exact read.trans (books_cutOff _ path _) fun stopped => absurd stopped going
      · cases exceeded

/-- Within the budget nothing is reported, and there is room for an entry. -/
theorem withinBudget_within {system : System tree} {path : StoragePath}
    (within : walk.withinBudget system path = (true, walk')) :
    Books [] walk walk' ∧ walk'.result.entries_seen < walk'.result.entry_limit ∧
      walk'.stopped = false := by
  unfold withinBudget at within
  split at within
  · cases within
  · rename_i going
    split at within
    · cases within
    · rename_i room
      dsimp only at within
      split at within
      · cases within
      · cases within
        exact ⟨Books.refl.aside walk.seen _ walk.calls, Nat.lt_of_not_le room, by simpa using going⟩

/-- A walk that was stopped does nothing more. -/
theorem budgetLog_stopped {system : System tree} (stopped : walk.stopped = true) :
    walk.budgetLog system = [] := by
  rw [budgetLog, if_pos stopped]

/-- An entry that adds to no other counter. -/
theorem counted_books (room : walk.result.entries_seen < walk.result.entry_limit) (calls : Nat)
    {outcome : Outcome} (uncounted : outcome = .directory ∨ outcome = .failed) :
    Books [.entry outcome] walk
      { walk with
        result := { walk.result with entries_seen := walk.result.entries_seen + 1 }
        calls } := by
  obtain rfl | rfl := uncounted
  · exact ⟨rfl, rfl, rfl, rfl, rfl, rfl, rfl, id, by simp [problems], fun _ => room, by simp, by simp⟩
  · exact ⟨rfl, rfl, rfl, rfl, rfl, rfl, rfl, id, by simp [problems], fun _ => room, by simp, by simp⟩

theorem skipped_symlink (room : walk.result.entries_seen < walk.result.entry_limit) (calls : Nat) :
    Books [.entry .symlink] walk
      { walk with
        result := { walk.result with
          entries_seen := walk.result.entries_seen + 1
          symlinks_skipped := walk.result.symlinks_skipped + 1 }
        calls } :=
  ⟨rfl, rfl, rfl, rfl, rfl, rfl, rfl, id, by simp [problems], fun _ => room, by simp, by simp⟩

theorem skipped_other (room : walk.result.entries_seen < walk.result.entry_limit) (calls : Nat) :
    Books [.entry .other] walk
      { walk with
        result := { walk.result with
          entries_seen := walk.result.entries_seen + 1
          other_entries_skipped := walk.result.other_entries_skipped + 1 }
        calls } :=
  ⟨rfl, rfl, rfl, rfl, rfl, rfl, rfl, id, by simp [problems], fun _ => room, by simp, by simp⟩

/-- A regular file is counted, or was seen before, or is too big to add. -/
theorem file_books (room : walk.result.entries_seen < walk.result.entry_limit)
    (going : walk.stopped = false) (calls : Nat) (path : StoragePath) (file : FileId) :
    Books
      (({ walk with
        result := { walk.result with entries_seen := walk.result.entries_seen + 1 }
        calls } : Walk).fileLog tree file) walk
      (({ walk with
        result := { walk.result with entries_seen := walk.result.entries_seen + 1 }
        calls } : Walk).file tree path file) := by
  unfold Walk.fileLog Walk.file
  dsimp only
  by_cases seen : file ∈ walk.seen
  · rw [if_pos seen, if_pos seen]
    exact ⟨rfl, rfl, rfl, rfl, rfl, rfl, rfl, id, by simp [problems], fun _ => room, by simp, by simp⟩
  · rw [if_neg seen, if_neg seen]
    have counted := (counted_books room calls (.inr rfl)).aside (insert file walk.seen)
      walk.readings calls
    cases checkedAdd walk.result.file_logical_bytes (tree.metadata file).length with
    | none => exact counted.trans (books_error _ path _) (idle_of_going going)
    | some logical =>
      cases (checkedMul (tree.metadata file).blocks 512).bind
          (checkedAdd walk.result.file_allocated_bytes) with
      | none => exact counted.trans (books_error _ path _) (idle_of_going going)
      | some allocated =>
        exact ⟨rfl, rfl, rfl, rfl, rfl, rfl, rfl, id, by simp [problems], fun _ => room, by simp,
          by simp⟩

/-- One entry, given what descending into a directory does. -/
theorem entry_books (system : System tree) {descend : List String → Walk → Walk}
    {descendLog : List String → Walk → List Event} (path : List String) (device : Nat)
    (descends : ∀ path walk, Books (descendLog path walk) walk (descend path walk))
    (room : walk.result.entries_seen < walk.result.entry_limit) (going : walk.stopped = false)
    (entry : Except OsError String) :
    Books (walk.entryLog system descendLog path device entry) walk
      (walk.entry system descend path device entry) := by
  have failed := fun calls path message =>
    (counted_books room calls (.inr rfl)).trans (books_error _ path message) (idle_of_going going)
  unfold Walk.entryLog Walk.entry
  cases entry with
  | error error => exact failed walk.calls _ _
  | ok name =>
    dsimp only
    cases symlinkMetadata system (path ++ [name]) walk.calls with
    | error error => exact failed (walk.calls + 1) _ _
    | ok file =>
      dsimp only
      by_cases symlink : (tree.metadata file).kind = .symlink
      · rw [if_pos symlink, if_pos symlink]
        exact skipped_symlink room _
      rw [if_neg symlink, if_neg symlink]
      by_cases foreign : file.device ≠ device
      · rw [if_pos foreign, if_pos foreign]
        exact failed (walk.calls + 1) _ _
      rw [if_neg foreign, if_neg foreign]
      by_cases directory : (tree.metadata file).kind = .directory
      · rw [if_pos directory, if_pos directory]
        exact (counted_books room (walk.calls + 1) (.inl rfl)).trans (descends _ _)
          (idle_of_going going)
      rw [if_neg directory, if_neg directory]
      by_cases regular : (tree.metadata file).kind = .regular
      · rw [if_pos regular, if_pos regular]
        exact file_books room going (walk.calls + 1) _ file
      · rw [if_neg regular, if_neg regular]
        exact skipped_other room _

/-- A stopped walk looks at no further entry. -/
theorem entriesLog_stopped {system : System tree} {descend : List String → Walk → Walk}
    {descendLog : List String → Walk → List Event} {path : List String} {device : Nat}
    (stopped : walk.stopped = true) (listing : List (Except OsError String)) :
    walk.entriesLog system descend descendLog path device listing = [] := by
  cases listing with
  | nil => rfl
  | cons entry rest =>
    unfold entriesLog
    have exceeded : walk.withinBudget system (.ofNames path) = (false, walk) := if_pos stopped
    rw [exceeded]
    exact budgetLog_stopped stopped

/-- The loop, by induction on the entries that are left. -/
theorem entries_books (system : System tree) {descend : List String → Walk → Walk}
    {descendLog : List String → Walk → List Event} (path : List String) (device : Nat)
    (descends : ∀ path walk, Books (descendLog path walk) walk (descend path walk)) :
    ∀ (listing : List (Except OsError String)) (walk : Walk),
      Books (walk.entriesLog system descend descendLog path device listing) walk
        (walk.entries system descend path device listing) := by
  intro listing
  induction listing with
  | nil => exact fun walk => .refl
  | cons entry rest ih =>
    intro walk
    unfold Walk.entriesLog Walk.entries
    cases budget : walk.withinBudget system (.ofNames path) with
    | mk within inside =>
      cases within with
      | false => exact withinBudget_books budget
      | true =>
        obtain ⟨read, room, going⟩ := withinBudget_within budget
        have here := (entry_books system path device descends room going entry).trans (ih _)
          fun stopped => entriesLog_stopped stopped rest
        exact read.trans here (idle_of_going going)

/-- A directory that is not entered is one problem, one that is entered none yet. -/
theorem enter_books {system : System tree} {path : List String} {device : Nat}
    {answer : Option (List (Except OsError String))} (going : walk.stopped = false)
    (entered : walk.enter system path device = (answer, walk')) :
    (answer = none → Books [.problem] walk walk') ∧ (answer ≠ none → Books [] walk walk') := by
  have refused : ∀ {seen : Finset FileId} {calls : Nat} {message : String},
      Books [.problem] walk ({ walk with seen, calls }.error (.ofNames path) message) :=
    fun {seen calls _} => (Books.refl.aside seen walk.readings calls).trans (books_error _ _ _)
      (idle_of_going going)
  unfold Walk.enter at entered
  dsimp only at entered
  split at entered
  · cases entered
    exact ⟨fun _ => refused, fun some => absurd rfl some⟩
  · split at entered
    · split at entered
      · cases entered
        exact ⟨fun _ => refused, fun some => absurd rfl some⟩
      · split at entered
        · cases entered
          exact ⟨fun _ => refused, fun some => absurd rfl some⟩
        · cases entered
          refine ⟨fun none => ?_, fun _ => Books.refl.aside _ walk.readings _⟩
          cases none
    · cases entered
      exact ⟨fun _ => refused, fun some => absurd rfl some⟩

/-- A directory, by induction on the levels that are left below it. -/
theorem directory_books {system : System tree} {device : Nat} :
    ∀ (levels : Nat) (path : List String) (walk : Walk),
      Books (walk.directoryLog system device levels path) walk
        (walk.directory system device levels path) := by
  intro levels
  induction levels with
  | zero =>
    intro path walk
    unfold Walk.directoryLog Walk.directory
    cases budget : walk.withinBudget system (.ofNames path) with
    | mk within inside =>
      cases within with
      | false => exact withinBudget_books budget
      | true =>
        obtain ⟨read, -, going⟩ := withinBudget_within budget
        exact read.trans (books_error inside _ _) (idle_of_going going)
  | succ levels ih =>
    intro path walk
    unfold Walk.directoryLog Walk.directory
    cases budget : walk.withinBudget system (.ofNames path) with
    | mk within inside =>
      cases within with
      | false => exact withinBudget_books budget
      | true =>
        obtain ⟨read, -, going⟩ := withinBudget_within budget
        dsimp only
        cases enters : inside.enter system path device with
        | mk answer entered =>
          obtain ⟨refused, accepted⟩ := enter_books going enters
          cases answer with
          | none => exact read.trans (refused rfl) (idle_of_going going)
          | some listing =>
            have below := (accepted (by simp)).trans
              (entries_books system path device ih listing entered) fun stopped => entriesLog_stopped stopped listing
            exact read.trans below (idle_of_going going)

end

end Walk

/-! ## The whole scan -/

/-- The books of a scan, which starts with nothing counted. -/
theorem scan_log {tree : FileTree} (system : System tree) (path : StoragePath)
    (entry_limit time_limit : Nat) :
    ∃ walk' : Walk, scan system path entry_limit time_limit = walk'.result ∧
      Walk.Books (scanLog system path entry_limit time_limit)
        (Walk.start path entry_limit time_limit) walk' := by
  have idle : ∀ {events : List Event}, (Walk.start path entry_limit time_limit).stopped = true →
      events = [] := Walk.idle_of_going rfl
  unfold scan scanLog
  dsimp only
  cases (checkedMetadata system path 0).1 with
  | error error =>
    dsimp only
    by_cases missing : error.notFound = true
    · rw [if_pos missing, if_pos missing]
      exact ⟨{ Walk.start path entry_limit time_limit with
        result := { (Walk.start path entry_limit time_limit).result with found := some false } },
        rfl, Walk.Books.refl.found _ _ _⟩
    · rw [if_neg missing, if_neg missing]
      exact ⟨_, rfl, (Walk.Books.refl.aside _ _ _).trans (Walk.books_error _ _ _) idle⟩
  | ok file =>
    dsimp only
    have looked := (@Walk.Books.refl (Walk.start path entry_limit time_limit)).found
      (some true) (some (tree.metadata file).uid) (some (tree.metadata file).gid)
    by_cases directory : (tree.metadata file).kind = .directory
    · rw [if_pos directory, if_pos directory]
      exact ⟨_, rfl, (looked.aside _ _ _).trans
        (Walk.directory_books (DEPTH_LIMIT + 1) path.names _) idle⟩
    · rw [if_neg directory, if_neg directory]
      exact ⟨_, rfl, (looked.aside _ _ _).trans (Walk.books_error _ _ _) idle⟩

/-- Storage bookkeeping is exact in every run. -/
theorem scan_books {tree : FileTree} (system : System tree) (path : StoragePath)
    (entry_limit time_limit : Nat) :
    let usage := scan system path entry_limit time_limit
    let log := scanLog system path entry_limit time_limit
    usage.entries_seen ≤ entry_limit ∧
      usage.entries_seen = examined log ∧
      usage.entries_seen = usage.files + usage.hardlinks_skipped + usage.symlinks_skipped +
        usage.other_entries_skipped + log.count (.entry .directory) +
        log.count (.entry .failed) ∧
      usage.errors.length ≤ 32 ∧
      usage.errors.length + usage.additional_errors = problems log ∧
      (usage.complete = true ↔ problems log = 0) ∧
      .cutOff ∉ log.dropLast := by
  obtain ⟨walk, result, books⟩ := scan_log system path entry_limit time_limit
  intro usage log
  have usage_eq : usage = walk.result := result
  rw [usage_eq]
  have seen : walk.result.entries_seen = examined log := by
    rw [books.seen]
    exact Nat.zero_add _
  have files : walk.result.files = log.count (.entry .file) :=
    books.files.trans (Nat.zero_add _)
  have hardlinks : walk.result.hardlinks_skipped = log.count (.entry .hardlink) :=
    books.hardlinks.trans (Nat.zero_add _)
  have symlinks : walk.result.symlinks_skipped = log.count (.entry .symlink) :=
    books.symlinks.trans (Nat.zero_add _)
  have others : walk.result.other_entries_skipped = log.count (.entry .other) :=
    books.others.trans (Nat.zero_add _)
  refine ⟨?_, seen, ?_, books.room (Nat.zero_le _), ?_, ?_, books.last⟩
  · have bounded := books.bounded (Nat.zero_le _)
    rwa [books.limit] at bounded
  · rw [seen, files, hardlinks, symlinks, others]
    exact examined_eq log
  · exact books.errors.trans (Nat.zero_add _)
  · rw [books.complete]
    exact and_iff_right rfl

end Luhmen.Host.Storage
