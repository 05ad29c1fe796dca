/-
# Host.Mounts -- the directories a VM is given

`Mount.parse` and `Config.validate` are those of `src/config.rs`, and `settings` what
`luhmen create` makes of its arguments.  `Files` is what they ask of the file system, by
paths as `Path::components` takes them apart.

Two directories are `Apart` when no path at all lies in both.  `validate_ok_iff` says that
validation comes to the soundness of each mount and to all of them, and luhmen's own state
directory, being apart; `settings_ok_iff` that only the second is left to check of mounts
that were just parsed.
-/
import Luhmen.Theory.Words
import Luhmen.Host.Creation

namespace Luhmen.Host

open Luhmen.Theory

set_option autoImplicit false

namespace Mounts

/-! ## Paths -/

inductive Component where
  | root
  | current
  | parent
  | normal (name : List Char)
  deriving DecidableEq, Repr

abbrev Path := List Component

def isSlash (c : Char) : Bool :=
  c == '/'

/-- A part between slashes, behind the first. -/
def component (part : List Char) : Option Component :=
  if part = ['.'] then none
  else if part = ['.', '.'] then some .parent
  else some (.normal part)

/-- `Path::components`. -/
def components (text : List Char) : Path :=
  let parts := words isSlash text
  if text.head? = some '/' then .root :: parts.filterMap component
  else if parts.head? = some ['.'] then .current :: parts.filterMap component
  else parts.filterMap component

/-- An absolute path as a text. -/
def render (path : Path) : List Char :=
  match path.filterMap fun c => match c with
    | .normal name => some name
    | _ => none with
  | [] => ['/']
  | names => names.flatMap fun name => '/' :: name

/-- `Path::starts_with`. -/
def startsWith (path base : Path) : Bool :=
  base.isPrefixOf path

/-- `Path::ancestors`. -/
def ancestors (path : Path) : List Path :=
  path.inits.reverse.filter fun ancestor => ancestor ≠ [] || path.head? ≠ some .root

/-- What the file system says. -/
structure Files where
  isDir : Path → Bool
  exist : Path → Bool
  /-- `fs::canonicalize`. -/
  canonicalize : Path → Except String Path

variable (files : Files)

def canonicalDestination (path : Path) : Except String Path :=
  match (ancestors path).find? files.exist with
  | none => .error "path has no existing ancestor"
  | some ancestor => (files.canonicalize ancestor).map fun base => base ++ path.drop ancestor.length

/-- `str::contains` with a text. -/
def holds (pattern text : List Char) : Bool :=
  text.tails.any fun rest => pattern.isPrefixOf rest

def supported (text : List Char) : Bool :=
  !(text.contains '\n' || text.contains '\r' || text.contains (Char.ofNat 0)) &&
    !holds [Char.ofNat 0x7b, Char.ofNat 0x7b] text

end Mounts

open Mounts

/-! ## `Mount::parse` -/

variable (files : Files)

/-- The path of an argument, and whether it may be written to. -/
def Mount.split (value : List Char) : List Char × Bool :=
  if ":rw".toList.isSuffixOf value then (value.take (value.length - 3), true)
  else if ":ro".toList.isSuffixOf value then (value.take (value.length - 3), false)
  else (value, false)

def Mount.parse (value : List Char) : Except String Mount :=
  let (path, writable) := Mount.split value
  match files.canonicalize (components path) with
  | .error _ => .error ("mount directory " ++ String.ofList path)
  | .ok canonical =>
      if files.isDir canonical = false then .error "mount must be a directory"
      else if supported (render canonical) = false then .error "unsupported mount path"
      else if canonical = [.root] then .error "sharing the filesystem root is not supported"
      else .ok ⟨String.ofList (render canonical), writable⟩

def Mount.components (mount : Mount) : Path :=
  Mounts.components mount.path.toList

/-! ## `Config::validate` -/

namespace Mounts

/-- The inner loop, over the mounts before this one. -/
def checkOthers (path : Path) : List Mount → Except String Unit
  | [] => .ok ()
  | other :: rest =>
      if startsWith path other.components = false ∧ startsWith other.components path = false then
        checkOthers path rest
      else .error "mount directories must not overlap"

def checkMount (state : Path) (before : List Mount) (mount : Mount) : Except String Unit :=
  if files.isDir mount.components = false then
    .error ("mount directory is missing or not absolute: " ++ mount.path)
  else
    match files.canonicalize mount.components with
    | .error message => .error message
    | .ok canonical =>
        if canonical ≠ mount.components then
          .error "mount path changed or contains a symlink; restore the original directory"
        else if ¬ (startsWith state mount.components = false ∧
            startsWith mount.components state = false) then
          .error "mounts must not overlap luhmen's state directory"
        else if supported mount.path.toList = false then .error "unsupported mount path"
        else checkOthers mount.components before

def checkMounts (state : Path) : List Mount → List Mount → Except String Unit
  | _, [] => .ok ()
  | before, mount :: rest =>
      match checkMount files state before mount with
      | .error message => .error message
      | .ok () => checkMounts state (before ++ [mount]) rest

end Mounts

def Config.validate (state : Path) (config : Config) : Except String Unit :=
  match config.validateSchema with
  | .error message => .error message
  | .ok () =>
      match canonicalDestination files state with
      | .error message => .error message
      | .ok state => checkMounts files state [] config.mounts

/-- The settings of `luhmen create`. -/
def settings (values : List (List Char)) (cpus memory disk : Nat) (nestedVirtualization : Bool) :
    Except String Config :=
  (values.mapM (Mount.parse files)).map fun mounts =>
    ⟨1, cpus, memory, disk, mounts, nestedVirtualization⟩

namespace Mounts

variable {files}

/-! ## What validation accepts -/

/-- No path lies in both directories. -/
def Apart (first second : Path) : Prop :=
  ∀ path, ¬ (first <+: path ∧ second <+: path)

theorem apart_iff {first second : Path} :
    Apart first second ↔ startsWith first second = false ∧ startsWith second first = false := by
  have prefixes : ∀ p q : Path, startsWith p q = false ↔ ¬ q <+: p := by
    intro p q
    rw [startsWith, ← Bool.not_eq_true, List.isPrefixOf_iff_prefix]
  rw [prefixes, prefixes]
  constructor
  · exact fun apart => ⟨fun inside => apart first ⟨List.prefix_rfl, inside⟩,
      fun inside => apart second ⟨inside, List.prefix_rfl⟩⟩
  · rintro ⟨one, two⟩ path ⟨first', second'⟩
    rcases List.prefix_or_prefix_of_prefix first' second' with inside | inside
    · exact two inside
    · exact one inside

/-- A directory that is there under this very path, with a text the VM can be given. -/
structure Sound (files : Files) (mount : Mount) : Prop where
  isDir : files.isDir mount.components = true
  canonical : files.canonicalize mount.components = .ok mount.components
  supported : supported mount.path.toList = true

theorem checkOthers_ok_iff {path : Path} {others : List Mount} :
    checkOthers path others = .ok () ↔ ∀ other ∈ others, Apart other.components path := by
  induction others with
  | nil => simp [checkOthers]
  | cons other rest ih =>
      rw [checkOthers, List.forall_mem_cons, ← ih]
      constructor
      · intro ok
        split at ok
        · rename_i apart
          exact ⟨apart_iff.2 apart.symm, ok⟩
        · cases ok
      · rintro ⟨apart, ok⟩
        rw [if_pos (apart_iff.1 apart).symm, ok]

theorem checkMount_ok_iff {state : Path} {before : List Mount} {mount : Mount} :
    checkMount files state before mount = .ok () ↔ Sound files mount ∧
      Apart state mount.components ∧ ∀ other ∈ before, Apart other.components mount.components := by
  rw [← checkOthers_ok_iff]
  constructor
  · intro ok
    unfold checkMount at ok
    split at ok
    · cases ok
    rename_i isDir
    split at ok
    · cases ok
    rename_i canonical found
    split at ok
    · cases ok
    rename_i same
    split at ok
    · cases ok
    rename_i apart
    split at ok
    · cases ok
    rename_i text
    obtain rfl := not_not.1 same
    exact ⟨⟨by simpa using isDir, found, by simpa using text⟩, apart_iff.2 (not_not.1 apart), ok⟩
  · rintro ⟨sound, apart, others⟩
    unfold checkMount
    rw [if_neg (by simp [sound.isDir]), sound.canonical]
    dsimp only
    rw [if_neg (by simp), if_neg (not_not.2 (apart_iff.1 apart)), if_neg (by simp [sound.supported]),
      others]

theorem checkMounts_ok_iff {state : Path} {before mounts : List Mount} :
    checkMounts files state before mounts = .ok () ↔ (∀ mount ∈ mounts, Sound files mount) ∧
      (∀ mount ∈ mounts, Apart state mount.components ∧
        ∀ other ∈ before, Apart other.components mount.components) ∧
      (mounts.map Mount.components).Pairwise Apart := by
  induction mounts generalizing before with
  | nil => simp [checkMounts]
  | cons mount rest ih =>
      have first := @checkMount_ok_iff files state before mount
      rw [checkMounts]
      constructor
      · intro ok
        split at ok
        · cases ok
        rename_i here
        obtain ⟨sound, apart, others⟩ := first.1 here
        obtain ⟨sounds, aparts, pairwise⟩ := ih.1 ok
        refine ⟨List.forall_mem_cons.2 ⟨sound, sounds⟩, List.forall_mem_cons.2 ⟨⟨apart, others⟩, ?_⟩, ?_⟩
        · intro m member
          exact ⟨(aparts m member).1, fun other inside =>
            (aparts m member).2 other (List.mem_append_left _ inside)⟩
        · rw [List.map_cons, List.pairwise_cons]
          refine ⟨?_, pairwise⟩
          intro path member
          obtain ⟨m, inside, rfl⟩ := List.mem_map.1 member
          exact (aparts m inside).2 mount (List.mem_append_right _ List.mem_cons_self)
      · rintro ⟨sounds, aparts, pairwise⟩
        obtain ⟨sound, sounds⟩ := List.forall_mem_cons.1 sounds
        obtain ⟨⟨apart, others⟩, aparts⟩ := List.forall_mem_cons.1 aparts
        rw [List.map_cons, List.pairwise_cons] at pairwise
        rw [first.2 ⟨sound, apart, others⟩]
        refine ih.2 ⟨sounds, fun m member => ⟨(aparts m member).1, fun other inside => ?_⟩, pairwise.2⟩
        rcases List.mem_append.1 inside with old | new
        · exact (aparts m member).2 other old
        · obtain rfl := List.mem_singleton.1 new
          exact pairwise.1 _ (List.mem_map_of_mem member)

/-- **Sharing is disjoint.**  Validation accepts the settings whose mounts are each sound and, with
luhmen's own state directory, such that no path lies in two of them. -/
theorem validate_ok_iff (files : Files) (state : Path) (config : Config) :
    config.validate files state = .ok () ↔ config.validateSchema = .ok () ∧
      ∃ home, canonicalDestination files state = .ok home ∧
        (∀ mount ∈ config.mounts, Sound files mount) ∧
        (home :: config.mounts.map Mount.components).Pairwise Apart := by
  have accepted : ∀ home, checkMounts files home [] config.mounts = .ok () ↔
      (∀ mount ∈ config.mounts, Sound files mount) ∧
        (home :: config.mounts.map Mount.components).Pairwise Apart := by
    intro home
    rw [checkMounts_ok_iff, List.pairwise_cons, List.forall_mem_map]
    simp only [List.not_mem_nil, false_imp_iff, implies_true, and_true]
  unfold Config.validate
  constructor
  · intro ok
    split at ok
    · cases ok
    rename_i schema
    split at ok
    · cases ok
    rename_i home found
    exact ⟨schema, home, found, (accepted home).1 ok⟩
  · rintro ⟨schema, home, found, both⟩
    rw [schema, found]
    exact (accepted home).2 both

/-! ## Mounts that were just parsed -/

/-- A path as `fs::canonicalize` returns it. -/
def Canonical (path : Path) : Prop :=
  ∃ names : List (List Char), path = .root :: names.map .normal ∧
    ∀ name ∈ names, name ≠ [] ∧ name ≠ ['.'] ∧ name ≠ ['.', '.'] ∧ '/' ∉ name

/-- What is behind slashes are its names. -/
theorem words_slashes {name : List Char} {names : List (List Char)}
    (clean : ∀ word ∈ name :: names, Word isSlash word) :
    words isSlash (name ++ names.flatMap fun name => '/' :: name) = name :: names := by
  induction names generalizing name with
  | nil => simpa using words_single (clean name List.mem_cons_self)
  | cons next rest ih =>
      have first := clean name List.mem_cons_self
      have others : ∀ word ∈ next :: rest, Word isSlash word :=
        fun word member => clean word (List.mem_cons_of_mem _ member)
      rw [List.flatMap_cons, List.cons_append, words_append first rfl, ih others]

theorem render_names (names : List (List Char)) :
    render (.root :: names.map .normal) =
      if names = [] then ['/'] else names.flatMap fun name => '/' :: name := by
  have parts : (Component.root :: names.map .normal).filterMap (fun c => match c with
      | .normal name => some name
      | _ => none) = names := by
    rw [List.filterMap_cons_none rfl, List.filterMap_map]
    exact List.filterMap_some
  rw [render, parts]
  cases names with
  | nil => rfl
  | cons name rest => rfl

/-- The text of a canonical path is taken apart into it. -/
theorem components_render {path : Path} (canonical : Canonical path) :
    components (render path) = path := by
  obtain ⟨names, rfl, clean⟩ := canonical
  rw [render_names]
  cases names with
  | nil => rfl
  | cons name rest =>
      have isWord : ∀ word ∈ name :: rest, Word isSlash word := by
        intro word member
        obtain ⟨some, _, _, noSlash⟩ := clean word member
        refine ⟨some, fun c inside => ?_⟩
        have differ : c ≠ '/' := fun is => noSlash (is ▸ inside)
        simpa [isSlash] using differ
      have parts : words isSlash ((name :: rest).flatMap fun name => '/' :: name) = name :: rest := by
        have behind := words_slashes isWord
        rw [List.flatMap_cons, List.cons_append]
        rw [← List.nil_append ('/' :: _), words_append_sep [] rfl, words_nil, behind]
        rfl
      have kept : (name :: rest).filterMap component = (name :: rest).map .normal := by
        rw [← List.filterMap_eq_map]
        refine List.filterMap_congr fun word member => ?_
        obtain ⟨_, noDot, noDots, _⟩ := clean word member
        rw [component, if_neg noDot, if_neg noDots]
        rfl
      rw [if_neg (List.cons_ne_nil name rest), components, parts, kept]
      exact if_pos rfl

/-- `fs::canonicalize` returns a canonical path, which it leaves as it is. -/
def Canonicalizes (files : Files) : Prop :=
  ∀ path canonical, files.canonicalize path = .ok canonical →
    Canonical canonical ∧ files.canonicalize canonical = .ok canonical

theorem parse_ok {value : List Char} {mount : Mount} (canonicalizes : Canonicalizes files)
    (parsed : Mount.parse files value = .ok mount) :
    files.canonicalize (components (Mount.split value).1) = .ok mount.components ∧
      mount.writable = (Mount.split value).2 ∧ Sound files mount ∧
      mount.path.toList.head? = some '/' := by
  simp only [Mount.parse] at parsed
  split at parsed
  · cases parsed
  rename_i canonical found
  split at parsed
  · cases parsed
  rename_i isDir
  split at parsed
  · cases parsed
  rename_i text
  split at parsed
  · cases parsed
  obtain rfl := Except.ok.inj parsed
  obtain ⟨isCanonical, again⟩ := canonicalizes _ _ found
  have path : Mount.components ⟨String.ofList (render canonical), (Mount.split value).2⟩ =
      canonical := by
    rw [Mount.components, String.toList_ofList, components_render isCanonical]
  refine ⟨by rw [path, found], rfl, ⟨by simpa [path] using isDir, by rw [path, again], ?_⟩, ?_⟩
  · simpa using text
  · rw [String.toList_ofList]
    obtain ⟨names, rfl, _⟩ := isCanonical
    rw [render_names]
    cases names <;> rfl

theorem settings_mounts {values : List (List Char)} {mounts : List Mount}
    (parsed : values.mapM (Mount.parse files) = .ok mounts) :
    List.Forall₂ (fun value mount => Mount.parse files value = .ok mount) values mounts := by
  induction values generalizing mounts with
  | nil =>
      cases parsed
      exact .nil
  | cons value rest ih =>
      rw [List.mapM_cons] at parsed
      cases first : Mount.parse files value with
      | error message =>
          rw [first] at parsed
          cases parsed
      | ok mount =>
          rw [first] at parsed
          cases others : rest.mapM (Mount.parse files) with
          | error message =>
              rw [others] at parsed
              cases parsed
          | ok found =>
              rw [others] at parsed
              cases parsed
              exact .cons first (ih others)

theorem forall_mem_right {α β : Type} {R : α → β → Prop} {P : β → Prop} {xs : List α} {ys : List β}
    (related : List.Forall₂ R xs ys) (implies : ∀ x y, R x y → P y) : ∀ y ∈ ys, P y := by
  induction related with
  | nil => exact fun _ member => absurd member List.not_mem_nil
  | cons head _ ih => exact List.forall_mem_cons.2 ⟨implies _ _ head, ih⟩

theorem schema_ok_iff {config : Config} :
    config.validateSchema = .ok () ↔ config.schemaVersion = 1 ∧
      (1 ≤ config.cpus ∧ config.cpus ≤ 64) ∧ (2 ≤ config.memoryGib ∧ config.memoryGib ≤ 256) ∧
      (10 ≤ config.diskGib ∧ config.diskGib ≤ 2048) ∧ config.mounts.length ≤ 32 ∧
      ∀ mount ∈ config.mounts, mount.path.toList.head? = some '/' := by
  have absolute : (config.mounts.all fun mount => mount.path.toList.head? == some '/') = true ↔
      ∀ mount ∈ config.mounts, mount.path.toList.head? = some '/' := by
    simp [List.all_eq_true]
  rw [← absolute]
  unfold Config.validateSchema
  constructor
  · intro ok
    split at ok
    · cases ok
    split at ok
    · cases ok
    split at ok
    · cases ok
    split at ok
    · cases ok
    split at ok
    · cases ok
    split at ok
    · cases ok
    · rename_i version cpus memory disk count paths
      exact ⟨not_not.1 version, not_not.1 cpus, not_not.1 memory, not_not.1 disk,
        Nat.le_of_not_lt count, not_not.1 paths⟩
  · rintro ⟨version, cpus, memory, disk, count, paths⟩
    rw [if_neg (not_not.2 version), if_neg (not_not.2 cpus), if_neg (not_not.2 memory),
      if_neg (not_not.2 disk), if_neg (Nat.not_lt.2 count), if_neg (not_not.2 paths)]

/-- **Arguments of `create`.**  The mounts are the directories the arguments name, and once they
are parsed only numbers, their count, and that everything is apart decide about the settings. -/
theorem settings_ok_iff (canonicalizes : Canonicalizes files) {values : List (List Char)}
    {cpus memory disk : Nat} {nested : Bool} {config : Config}
    (parsed : settings files values cpus memory disk nested = .ok config) (state : Path) :
    List.Forall₂ (fun value mount =>
        files.canonicalize (components (Mount.split value).1) = .ok mount.components ∧
          mount.writable = (Mount.split value).2) values config.mounts ∧
    (config.validate files state = .ok () ↔
      (1 ≤ cpus ∧ cpus ≤ 64) ∧ (2 ≤ memory ∧ memory ≤ 256) ∧ (10 ≤ disk ∧ disk ≤ 2048) ∧
        values.length ≤ 32 ∧ ∃ home, canonicalDestination files state = .ok home ∧
          (home :: config.mounts.map Mount.components).Pairwise Apart) := by
  obtain ⟨mounts, found, rfl⟩ : ∃ mounts, values.mapM (Mount.parse files) = .ok mounts ∧
      (⟨1, cpus, memory, disk, mounts, nested⟩ : Config) = config := by
    cases found : values.mapM (Mount.parse files) with
    | error message =>
        rw [settings, found] at parsed
        cases parsed
    | ok mounts =>
        rw [settings, found] at parsed
        exact ⟨mounts, rfl, Except.ok.inj parsed⟩
  have each := (settings_mounts found).imp fun _ _ parsed => parse_ok canonicalizes parsed
  have every := forall_mem_right each fun _ _ good => good.2.2
  refine ⟨each.imp fun _ _ good => ⟨good.1, good.2.1⟩, ?_⟩
  rw [validate_ok_iff, schema_ok_iff, each.length_eq]
  constructor
  · rintro ⟨⟨_, cpus, memory, disk, count, _⟩, home, destination, _, apart⟩
    exact ⟨cpus, memory, disk, count, home, destination, apart⟩
  · rintro ⟨cpus, memory, disk, count, home, destination, apart⟩
    exact ⟨⟨rfl, cpus, memory, disk, count, fun mount member => (every mount member).2⟩, home,
      destination, fun mount member => (every mount member).1, apart⟩

/-- A file system with two directories. -/
def twoDirectories : Files where
  isDir := fun _ => true
  exist := fun path => path = [.root]
  canonicalize := fun path =>
    if path = [.root] ∨ path = [.root, .normal ['a']] ∨ path = [.root, .normal ['b']] then .ok path
    else .error "No such file or directory (os error 2)"

theorem canonicalizes_twoDirectories : Canonicalizes twoDirectories := by
  intro path canonical found
  simp only [twoDirectories] at found ⊢
  split at found
  · rename_i known
    obtain rfl := Except.ok.inj found
    refine ⟨?_, if_pos known⟩
    rcases known with rfl | rfl | rfl
    · exact ⟨[], rfl, by simp⟩
    · exact ⟨[['a']], rfl, by simp⟩
    · exact ⟨[['b']], rfl, by simp⟩
  · cases found

def twoMounts : Config :=
  ⟨1, 4, 8, 30, [⟨"/a", true⟩, ⟨"/b", false⟩], false⟩

/-- Both are shared, one to be written to, with the state in a directory that is not there yet. -/
theorem settings_ok_iff_two :
    List.Forall₂ (fun value (mount : Mount) =>
        twoDirectories.canonicalize (components (Mount.split value).1) = .ok mount.components ∧
          mount.writable = (Mount.split value).2) ["/a:rw".toList, "/b".toList] twoMounts.mounts ∧
    (twoMounts.validate twoDirectories [.root, .normal ['s']] = .ok () ↔
      (1 ≤ 4 ∧ 4 ≤ 64) ∧ (2 ≤ 8 ∧ 8 ≤ 256) ∧ (10 ≤ 30 ∧ 30 ≤ 2048) ∧
        ["/a:rw".toList, "/b".toList].length ≤ 32 ∧
        ∃ home, canonicalDestination twoDirectories [.root, .normal ['s']] = .ok home ∧
          (home :: twoMounts.mounts.map Mount.components).Pairwise Apart) :=
  @settings_ok_iff twoDirectories canonicalizes_twoDirectories ["/a:rw".toList, "/b".toList] 4 8 30
    false twoMounts rfl [.root, .normal ['s']]

end Mounts

end Luhmen.Host
