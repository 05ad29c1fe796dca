/-
# Host.Storage -- the storage scan

`scan` walks one directory and adds up its regular files.  The walk is written
as the source writes it, one definition for one function: `checkedMetadata` and
the methods of `Walk`.  What it asks the system is a parameter, `System`: the
tree of files, the order in which a directory is listed, what the clock reads
at each reading, and which calls fail.

A walk counts its depth up to `DEPTH_LIMIT`; `Walk.directory` counts the levels
that are left down to none, which is the same test and makes the recursion end.
-/
import Luhmen.Theory.FileTree

set_option autoImplicit false

namespace Luhmen.Host.Storage

open Luhmen.Theory

def DEPTH_LIMIT : Nat := 64
def ERROR_LIMIT : Nat := 32

/-! ## Paths and the system -/

/-- A component of a path, after the root of an absolute one. -/
inductive Component where
  | parentDir
  | normal (name : String)
deriving DecidableEq, Repr

structure StoragePath where
  absolute : Bool
  components : List Component
deriving DecidableEq, Repr

def Component.text : Component → String
  | .parentDir => ".."
  | .normal name => name

def StoragePath.display (path : StoragePath) : String :=
  (if path.absolute then "/" else "") ++ "/".intercalate (path.components.map Component.text)

/-- The absolute path with these names. -/
def StoragePath.ofNames (names : List String) : StoragePath :=
  ⟨true, names.map .normal⟩

/-- The names of a path.  Below a root that `checkedMetadata` has accepted a path
is nothing but these. -/
def StoragePath.names (path : StoragePath) : List String :=
  path.components.filterMap fun
    | .parentDir => none
    | .normal name => some name

/-- `io::Error`, as far as the scan looks: whether it says that nothing is
there, and its text. -/
structure OsError where
  notFound : Bool
  text : String
deriving DecidableEq, Repr

def OsError.other (text : String) : OsError := ⟨false, text⟩

/-- What one scan sees of a tree.  `fault` says which of its calls fail, by
their number; `elapsed` is what the clock reads, by the number of the reading;
`listing` is what `read_dir` yields for a directory, in its order.  An entry may
itself be an error, and only then may a name be missing. -/
structure System (tree : FileTree) where
  fault : Nat → Option OsError
  elapsed : Nat → Nat
  listing : List String → List (Except OsError String)
  listed : ∀ path name, .ok name ∈ listing path → ∃ file, tree.find (path ++ [name]) = some file
  complete : ∀ path name file, (∀ error, .error error ∉ listing path) →
    tree.find (path ++ [name]) = some file → .ok name ∈ listing path

/-- What `lstat` says of a path that leads nowhere.  (A prefix that is a symlink
was refused before the path was asked for.) -/
def missing (tree : FileTree) (path : List String) : OsError :=
  if path.inits.any fun above =>
      (tree.find above).any fun file => (tree.metadata file).kind ≠ .directory then
    .other "Not a directory (os error 20)"
  else ⟨true, "No such file or directory (os error 2)"⟩

/-- `fs::symlink_metadata`, as call number `calls`. -/
def symlinkMetadata {tree : FileTree} (system : System tree) (path : List String) (calls : Nat) :
    Except OsError FileId :=
  match system.fault calls with
  | some error => .error error
  | none =>
    match tree.find path with
    | some file => .ok file
    | none => .error (missing tree path)

/-- `fs::read_dir`. -/
def readDir {tree : FileTree} (system : System tree) (path : List String) (calls : Nat) :
    Except OsError (List (Except OsError String)) :=
  match system.fault calls with
  | some error => .error error
  | none => .ok (system.listing path)

/-- One component of `checked_metadata`: what is there, if it is no symlink. -/
def checkedComponent {tree : FileTree} (system : System tree) (current : List String)
    (calls : Nat) : Except OsError FileId :=
  match symlinkMetadata system current calls with
  | .error error => .error error
  | .ok file =>
    if (tree.metadata file).kind = .symlink then
      .error (.other ("refusing symlink in storage path: " ++
        (StoragePath.ofNames current).display))
    else .ok file

/-- The components below `current`, whose own metadata is `last`. -/
def checkedComponents {tree : FileTree} (system : System tree) :
    List Component → List String → FileId → Nat → Except OsError FileId × Nat
  | [], _, last, calls => (.ok last, calls)
  | .parentDir :: _, _, _, calls =>
    (.error (.other "storage path cannot contain '..'"), calls)
  | .normal name :: rest, current, _, calls =>
    match checkedComponent system (current ++ [name]) calls with
    | .error error => (.error error, calls + 1)
    | .ok file => checkedComponents system rest (current ++ [name]) file (calls + 1)

/-- `checked_metadata`: what is at the path, and how many calls have been made.
The first component of an absolute path is its root, so that it is never empty. -/
def checkedMetadata {tree : FileTree} (system : System tree) (path : StoragePath) (calls : Nat) :
    Except OsError FileId × Nat :=
  if path.absolute = false then
    (.error (.other "storage path must be absolute"), calls)
  else
    match checkedComponent system [] calls with
    | .error error => (.error error, calls + 1)
    | .ok file => checkedComponents system path.components [] file (calls + 1)

/-! ## The walk -/

structure DirectoryUsage where
  path : StoragePath
  found : Option Bool
  root_uid : Option Nat
  root_gid : Option Nat
  complete : Bool
  file_logical_bytes : Nat
  file_allocated_bytes : Nat
  files : Nat
  entries_seen : Nat
  hardlinks_skipped : Nat
  symlinks_skipped : Nat
  other_entries_skipped : Nat
  entry_limit : Nat
  time_limit_ms : Nat
  errors : List String
  additional_errors : Nat
deriving DecidableEq, Repr

/-- `Walk`; `readings` and `calls` number the clock readings and the calls that
have been made, durations are in nanoseconds. -/
structure Walk where
  result : DirectoryUsage
  seen : Finset FileId
  time_limit : Nat
  stopped : Bool
  readings : Nat
  calls : Nat

/-- `u64::checked_add`. -/
def checkedAdd (a b : Nat) : Option Nat :=
  if a + b < 2 ^ 64 then some (a + b) else none

/-- `u64::checked_mul`. -/
def checkedMul (a b : Nat) : Option Nat :=
  if a * b < 2 ^ 64 then some (a * b) else none

namespace Walk

def error (walk : Walk) (path : StoragePath) (message : String) : Walk :=
  let result := { walk.result with complete := false }
  if result.errors.length < ERROR_LIMIT then
    { walk with result := { result with errors := result.errors ++ [path.display ++ ": " ++ message] } }
  else
    { walk with result := { result with additional_errors := result.additional_errors + 1 } }

/-- `within_budget`; the clock is read only where the entry limit is not reached. -/
def withinBudget {tree : FileTree} (system : System tree) (walk : Walk) (path : StoragePath) :
    Bool × Walk :=
  if walk.stopped then (false, walk)
  else if walk.result.entries_seen ≥ walk.result.entry_limit then
    (false, { walk.error path "entry limit reached; totals are partial" with stopped := true })
  else
    let elapsed := system.elapsed walk.readings
    let walk := { walk with readings := walk.readings + 1 }
    if elapsed ≥ walk.time_limit then
      (false, { walk.error path "scan time limit reached; totals are partial" with stopped := true })
    else (true, walk)

/-- A regular file of the scanned device. -/
def file (tree : FileTree) (walk : Walk) (path : StoragePath) (file : FileId) : Walk :=
  if file ∈ walk.seen then
    { walk with result :=
        { walk.result with hardlinks_skipped := walk.result.hardlinks_skipped + 1 } }
  else
    let walk := { walk with seen := insert file walk.seen }
    let logical := checkedAdd walk.result.file_logical_bytes (tree.metadata file).length
    let allocated := (checkedMul (tree.metadata file).blocks 512).bind
      (checkedAdd walk.result.file_allocated_bytes)
    match logical, allocated with
    | some logical, some allocated =>
      { walk with result :=
          { walk.result with
            file_logical_bytes := logical
            file_allocated_bytes := allocated
            files := walk.result.files + 1 } }
    | _, _ => walk.error path "byte count exceeds u64; totals are partial"

/-- One entry of a listing, `descend` being what is done with a directory. -/
def entry {tree : FileTree} (system : System tree) (descend : List String → Walk → Walk)
    (path : List String) (device : Nat) (entry : Except OsError String) (walk : Walk) : Walk :=
  let walk := { walk with result :=
    { walk.result with entries_seen := walk.result.entries_seen + 1 } }
  match entry with
  | .error error => walk.error (.ofNames path) error.text
  | .ok name =>
    let entry_path := path ++ [name]
    let metadata := symlinkMetadata system entry_path walk.calls
    let walk := { walk with calls := walk.calls + 1 }
    match metadata with
    | .error error => walk.error (.ofNames entry_path) error.text
    | .ok file =>
      let kind := (tree.metadata file).kind
      if kind = .symlink then
        { walk with result :=
            { walk.result with symlinks_skipped := walk.result.symlinks_skipped + 1 } }
      else if file.device ≠ device then
        walk.error (.ofNames entry_path) "different filesystem skipped; totals are partial"
      else if kind = .directory then descend entry_path walk
      else if kind = .regular then walk.file tree (.ofNames entry_path) file
      else
        { walk with result :=
            { walk.result with other_entries_skipped := walk.result.other_entries_skipped + 1 } }

/-- The loop over the entries of a directory. -/
def entries {tree : FileTree} (system : System tree) (descend : List String → Walk → Walk)
    (path : List String) (device : Nat) : List (Except OsError String) → Walk → Walk
  | [], walk => walk
  | entry :: rest, walk =>
    match walk.withinBudget system (.ofNames path) with
    | (false, walk) => walk
    | (true, walk) =>
      entries system descend path device rest (walk.entry system descend path device entry)

/-- What `directory` does before its loop: the checks, and the listing if they
pass. -/
def enter {tree : FileTree} (system : System tree) (path : List String) (device : Nat)
    (walk : Walk) : Option (List (Except OsError String)) × Walk :=
  let (metadata, calls) := checkedMetadata system (.ofNames path) walk.calls
  let walk := { walk with calls }
  match metadata with
  | .error error => (none, walk.error (.ofNames path) error.text)
  | .ok file =>
    if (tree.metadata file).kind = .directory ∧ file.device = device then
      if file ∈ walk.seen then
        (none, walk.error (.ofNames path) "directory already visited; totals are partial")
      else
        let listing := readDir system path walk.calls
        let walk := { walk with seen := insert file walk.seen, calls := walk.calls + 1 }
        match listing with
        | .error error => (none, walk.error (.ofNames path) error.text)
        | .ok entries => (some entries, walk)
    else
      (none, walk.error (.ofNames path)
        "directory changed or crosses a filesystem; totals are partial")

/-- `directory`, with `levels = DEPTH_LIMIT + 1 - depth` levels left. -/
def directory {tree : FileTree} (system : System tree) (device : Nat) :
    Nat → List String → Walk → Walk
  | 0, path, walk =>
    match walk.withinBudget system (.ofNames path) with
    | (false, walk) => walk
    | (true, walk) => walk.error (.ofNames path) "directory depth limit reached; totals are partial"
  | levels + 1, path, walk =>
    match walk.withinBudget system (.ofNames path) with
    | (false, walk) => walk
    | (true, walk) =>
      match walk.enter system path device with
      | (none, walk) => walk
      | (some entries, walk) =>
        walk.entries system (directory system device levels) path device entries

end Walk

/-- The walk before anything is known of its root. -/
def Walk.start (path : StoragePath) (entry_limit time_limit : Nat) : Walk where
  result :=
    { path
      found := none
      root_uid := none
      root_gid := none
      complete := true
      file_logical_bytes := 0
      file_allocated_bytes := 0
      files := 0
      entries_seen := 0
      hardlinks_skipped := 0
      symlinks_skipped := 0
      other_entries_skipped := 0
      entry_limit
      time_limit_ms := min (time_limit / 1000000) (2 ^ 64 - 1)
      errors := []
      additional_errors := 0 }
  seen := ∅
  time_limit
  stopped := false
  readings := 0
  calls := 0

/-- `scan`; the field `exists` of its result is `found` here. -/
def scan {tree : FileTree} (system : System tree) (path : StoragePath)
    (entry_limit time_limit : Nat) : DirectoryUsage :=
  let walk := Walk.start path entry_limit time_limit
  let (metadata, calls) := checkedMetadata system path 0
  let walk := { walk with calls }
  match metadata with
  | .ok file =>
    let metadata := tree.metadata file
    let walk := { walk with result :=
      { walk.result with
        found := some true
        root_uid := some metadata.uid
        root_gid := some metadata.gid } }
    if metadata.kind = .directory then
      (walk.directory system file.device (DEPTH_LIMIT + 1) path.names).result
    else (walk.error path "storage root is not a directory").result
  | .error error =>
    if error.notFound then { walk.result with found := some false }
    else (walk.error path error.text).result

end Luhmen.Host.Storage
