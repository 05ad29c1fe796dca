/-
# Host.StorageTotals -- what the totals of a scan say

A scan that calls itself complete has counted every regular file of the tree
once, whatever the order it was shown them in; one that does not has counted
some of them, and none twice.

`Walk.Sound` is the invariant: the totals are those of the regular files among
what has been seen, exactly while nothing was left out.  `Walk.Reaches` is what
any part of the walk does: it keeps `Sound`, only adds to what has been seen,
and, unless it reports an error, brings about what it is there for.  Each
function of the walk has one lemma saying what that is, and they compose by
`Walk.Reaches.trans`.
-/
import Mathlib.Algebra.Order.Monoid.Prod
import Luhmen.Host.Storage

set_option autoImplicit false

namespace Luhmen.Host.Storage

open Luhmen.Theory

/-- The three totals of some files. -/
def sizes (tree : FileTree) (files : Finset FileId) : Nat × Nat × Nat :=
  (tree.total (·.length) files, tree.total (512 * ·.blocks) files, files.card)

/-- The three totals a walk has reached. -/
def DirectoryUsage.totals (usage : DirectoryUsage) : Nat × Nat × Nat :=
  (usage.file_logical_bytes, usage.file_allocated_bytes, usage.files)

theorem sizes_mono {tree : FileTree} {some all : Finset FileId} (subset : some ⊆ all) :
    sizes tree some ≤ sizes tree all :=
  ⟨FileTree.total_mono (·.length) subset, FileTree.total_mono (512 * ·.blocks) subset,
    Finset.card_le_card subset⟩

theorem sizes_insert {tree : FileTree} {files : Finset FileId} {file : FileId}
    (fresh : file ∉ files) :
    sizes tree (insert file files) =
      ((tree.metadata file).length, 512 * (tree.metadata file).blocks, 1) + sizes tree files := by
  simp only [sizes, FileTree.total_insert _ fresh, Finset.card_insert_of_notMem fresh, Prod.mk_add_mk]
  rw [Nat.add_comm 1]

/-! ## Checked paths -/

section Checked

variable {tree : FileTree} {system : System tree}

theorem symlinkMetadata_ok {path : List String} {calls : Nat} {file : FileId}
    (answer : symlinkMetadata system path calls = .ok file) : tree.find path = some file := by
  unfold symlinkMetadata at answer
  split at answer
  · cases answer
  · split at answer
    · rename_i found
      cases answer
      exact found
    · cases answer

theorem checkedComponent_ok {path : List String} {calls : Nat} {file : FileId}
    (answer : checkedComponent system path calls = .ok file) : tree.find path = some file := by
  unfold checkedComponent at answer
  split at answer
  · cases answer
  · rename_i there
    split at answer
    · cases answer
    · cases answer
      exact symlinkMetadata_ok there

theorem checkedComponents_ok {file : FileId} :
    ∀ {components : List Component} {current : List String} {last : FileId} {calls : Nat},
      tree.find current = some last →
      (checkedComponents system components current last calls).1 = .ok file →
        ∃ names, components = names.map .normal ∧ tree.find (current ++ names) = some file := by
  intro components
  induction components with
  | nil =>
    intro current last calls found answer
    cases answer
    exact ⟨[], rfl, by simpa using found⟩
  | cons component rest ih =>
    intro current last calls found answer
    cases component with
    | parentDir => cases answer
    | normal name =>
      unfold checkedComponents at answer
      split at answer
      · cases answer
      · rename_i there
        obtain ⟨names, rfl, leads⟩ := ih (checkedComponent_ok there) answer
        exact ⟨name :: names, rfl, by simpa using leads⟩

theorem names_ofNames (names : List String) : (StoragePath.ofNames names).names = names := by
  simp [StoragePath.ofNames, StoragePath.names, List.filterMap_map]

/-- A path that passes is absolute, without `..`, and leads to what is reported. -/
theorem checkedMetadata_ok {path : StoragePath} {calls : Nat} {file : FileId}
    (answer : (checkedMetadata system path calls).1 = .ok file) :
    path = .ofNames path.names ∧ tree.find path.names = some file := by
  unfold checkedMetadata at answer
  split at answer
  · cases answer
  · rename_i absolute
    split at answer
    · cases answer
    · rename_i top
      obtain ⟨names, components, leads⟩ := checkedComponents_ok (checkedComponent_ok top) answer
      obtain ⟨isAbsolute, parts⟩ := path
      cases components
      cases isAbsolute
      · exact absurd rfl absolute
      · have same : (StoragePath.ofNames names).names = names := names_ofNames names
        change StoragePath.ofNames names = .ofNames (StoragePath.ofNames names).names ∧
          tree.find (StoragePath.ofNames names).names = some file
        rw [same]
        exact ⟨rfl, leads⟩

end Checked

/-! ## The invariant of a walk -/

namespace Walk

/-- The totals are those of the regular files seen, of which all lie under the
root and on its device. -/
structure Sound (tree : FileTree) (root : List String) (device : Nat) (walk : Walk) : Prop where
  stopped : walk.stopped = true → walk.result.complete = false
  found : ∀ file ∈ walk.seen, file ∈ tree.files root ∧ file.device = device
  atMost : walk.result.totals ≤ sizes tree (tree.regular walk.seen)
  exact : walk.result.complete = true → walk.result.totals = sizes tree (tree.regular walk.seen)

/-- Nothing was counted: at most an error was reported. -/
structure Quiet (walk walk' : Walk) : Prop where
  seen : walk'.seen = walk.seen
  totals : walk'.result.totals = walk.result.totals
  complete : walk'.result.complete = true → walk.result.complete = true
  stopped : walk'.stopped = true → walk.stopped = true ∨ walk'.result.complete = false

/-- What a part of the walk does, `goal` being what it is there for. -/
structure Reaches (tree : FileTree) (root : List String) (device : Nat)
    (goal : Finset FileId → Prop) (walk walk' : Walk) : Prop where
  sound : Sound tree root device walk → Sound tree root device walk'
  seen : walk.seen ⊆ walk'.seen
  complete : walk'.result.complete = true → walk.result.complete = true
  goal : Sound tree root device walk → walk'.result.complete = true → goal walk'.seen

section

variable {tree : FileTree} {root : List String} {device : Nat} {walk walk' walk'' : Walk}

theorem Quiet.incomplete (quiet : Quiet walk walk') (before : walk.result.complete = false) :
    walk'.result.complete = false := by
  rw [Bool.eq_false_iff] at before ⊢
  exact before ∘ quiet.complete

theorem Sound.quiet (sound : Sound tree root device walk) (quiet : Quiet walk walk') :
    Sound tree root device walk' where
  stopped := by
    intro stopped
    obtain before | incomplete := quiet.stopped stopped
    · exact quiet.incomplete (sound.stopped before)
    · exact incomplete
  found := by
    rw [quiet.seen]
    exact sound.found
  atMost := by
    rw [quiet.seen, quiet.totals]
    exact sound.atMost
  exact := by
    intro complete
    rw [quiet.seen, quiet.totals]
    exact sound.exact (quiet.complete complete)

theorem Quiet.reaches (quiet : Quiet walk walk') {goal : Finset FileId → Prop}
    (reached : walk'.result.complete = true → goal walk'.seen) :
    Reaches tree root device goal walk walk' where
  sound := fun sound => sound.quiet quiet
  seen := quiet.seen.ge
  complete := quiet.complete
  goal := fun _ => reached

theorem Quiet.reaches_nothing (quiet : Quiet walk walk') {goal : Finset FileId → Prop}
    (incomplete : walk'.result.complete = false) : Reaches tree root device goal walk walk' :=
  quiet.reaches fun complete => absurd (incomplete.symm.trans complete) (by decide)

theorem Reaches.trans {first second : Finset FileId → Prop} (stays : Monotone first)
    (before : Reaches tree root device first walk walk')
    (after : Reaches tree root device second walk' walk'') :
    Reaches tree root device (fun seen => first seen ∧ second seen) walk walk'' where
  sound := after.sound ∘ before.sound
  seen := before.seen.trans after.seen
  complete := before.complete ∘ after.complete
  goal := fun sound complete =>
    ⟨stays after.seen (before.goal sound (after.complete complete)),
      after.goal (before.sound sound) complete⟩

theorem Reaches.mono {goal weaker : Finset FileId → Prop}
    (reaches : Reaches tree root device goal walk walk')
    (enough : ∀ seen, goal seen → weaker seen) :
    Reaches tree root device weaker walk walk' :=
  { reaches with goal := fun sound complete => enough _ (reaches.goal sound complete) }

/-- A step that goes before another and only has to be quiet. -/
theorem Quiet.then {goal : Finset FileId → Prop} (quiet : Quiet walk walk')
    (after : Reaches tree root device goal walk' walk'') :
    Reaches tree root device goal walk walk'' :=
  ((quiet.reaches fun _ => trivial : Reaches tree root device (fun _ => True) walk walk').trans
    (fun _ _ _ _ => trivial) after).mono fun _ both => both.2

/-! ## Errors and the budget -/

theorem error_complete (walk : Walk) (path : StoragePath) (message : String) :
    (walk.error path message).result.complete = false := by
  unfold error
  dsimp only
  split <;> rfl

theorem quiet_error (walk : Walk) (path : StoragePath) (message : String) :
    Quiet walk (walk.error path message) where
  seen := by
    unfold error
    dsimp only
    split <;> rfl
  totals := by
    unfold error
    dsimp only
    split <;> rfl
  complete := by
    intro complete
    rw [error_complete] at complete
    cases complete
  stopped := fun _ => .inr (error_complete walk path message)

theorem Quiet.trans (before : Quiet walk walk') (after : Quiet walk' walk'') :
    Quiet walk walk'' where
  seen := after.seen.trans before.seen
  totals := after.totals.trans before.totals
  complete := before.complete ∘ after.complete
  stopped := by
    intro stopped
    obtain earlier | incomplete := after.stopped stopped
    · obtain still | incomplete := before.stopped earlier
      · exact .inl still
      · exact .inr (after.incomplete incomplete)
    · exact .inr incomplete

/-- Reporting an error reaches any goal, as nothing is claimed any more. -/
theorem reaches_error (walk : Walk) (path : StoragePath) (message : String)
    {goal : Finset FileId → Prop} :
    Reaches tree root device goal walk (walk.error path message) :=
  (quiet_error walk path message).reaches_nothing (error_complete walk path message)

theorem quiet_stop (walk : Walk) (path : StoragePath) (message : String) :
    Quiet walk { walk.error path message with stopped := true } :=
  { quiet_error walk path message with
    stopped := fun _ => .inr (error_complete walk path message) }

theorem withinBudget_true {system : System tree} {path : StoragePath}
    (within : walk.withinBudget system path = (true, walk')) : Quiet walk walk' := by
  unfold withinBudget at within
  split at within
  · cases within
  · split at within
    · cases within
    · dsimp only at within
      split at within
      · cases within
      · cases within
        exact ⟨rfl, rfl, id, .inl⟩

/-- Past the budget the walk is stopped, and it has said so: now, or when it was
stopped. -/
theorem withinBudget_false {system : System tree} {path : StoragePath}
    {goal : Finset FileId → Prop} (exceeded : walk.withinBudget system path = (false, walk')) :
    Reaches tree root device goal walk walk' := by
  unfold withinBudget at exceeded
  split at exceeded
  · rename_i stopped
    cases exceeded
    refine ⟨id, subset_rfl, id, ?_⟩
    intro sound complete
    rw [sound.stopped stopped] at complete
    cases complete
  · split at exceeded
    · cases exceeded
      exact (quiet_stop walk path _).reaches_nothing (error_complete walk path _)
    · dsimp only at exceeded
      split at exceeded
      · cases exceeded
        have read : Quiet walk { walk with readings := walk.readings + 1 } := ⟨rfl, rfl, id, .inl⟩
        exact (read.trans (quiet_stop _ path _)).reaches_nothing (error_complete _ path _)
      · cases exceeded

/-! ## Regular files -/

theorem checkedAdd_eq {a b c : Nat} (sum : checkedAdd a b = some c) : c = a + b := by
  unfold checkedAdd at sum
  split at sum
  · exact (Option.some.inj sum).symm
  · cases sum

theorem checkedMul_eq {a b c : Nat} (product : checkedMul a b = some c) : c = a * b := by
  unfold checkedMul at product
  split at product
  · exact (Option.some.inj product).symm
  · cases product

/-- Seeing a file keeps what has been found. -/
theorem Sound.found_insert (sound : Sound tree root device walk) {file : FileId}
    (below : file ∈ tree.files root) (here : file.device = device) :
    ∀ other ∈ insert file walk.seen, other ∈ tree.files root ∧ other.device = device := by
  intro other member
  obtain rfl | seen := Finset.mem_insert.1 member
  · exact ⟨below, here⟩
  · exact sound.found other seen

/-- A regular file that was not seen adds its sizes, and one that was adds
nothing. -/
theorem file_reaches {path : StoragePath} {file : FileId} (below : file ∈ tree.files root)
    (here : file.device = device) (kind : (tree.metadata file).kind = .regular) :
    Reaches tree root device (file ∈ ·) walk (walk.file tree path file) := by
  unfold Walk.file
  by_cases seen : file ∈ walk.seen
  · rw [if_pos seen]
    have skipped : Quiet walk { walk with result :=
        { walk.result with hardlinks_skipped := walk.result.hardlinks_skipped + 1 } } :=
      ⟨rfl, rfl, id, .inl⟩
    exact skipped.reaches fun _ => seen
  · rw [if_neg seen]
    have fresh : file ∉ tree.regular walk.seen := fun member =>
      seen (FileTree.mem_regular.1 member).1
    dsimp only
    split
    · rename_i logical allocated sum product
      obtain ⟨bytes, times, plus⟩ := Option.bind_eq_some_iff.1 product
      have grown : (logical, allocated, walk.result.files + 1) =
          ((tree.metadata file).length, 512 * (tree.metadata file).blocks, 1) +
            walk.result.totals := by
        simp only [DirectoryUsage.totals, Prod.mk_add_mk, checkedAdd_eq sum, checkedAdd_eq plus,
          checkedMul_eq times, Prod.mk.injEq]
        omega
      refine ⟨?_, Finset.subset_insert _ _, id, fun _ _ => Finset.mem_insert_self _ _⟩
      intro sound
      refine ⟨sound.stopped, sound.found_insert below here, ?_, ?_⟩
      · show (logical, allocated, walk.result.files + 1) ≤ sizes tree (tree.regular (insert file walk.seen))
        rw [FileTree.regular_insert kind, sizes_insert fresh, grown]
        exact add_le_add_right sound.atMost _
      · intro complete
        show (logical, allocated, walk.result.files + 1) = sizes tree (tree.regular (insert file walk.seen))
        rw [FileTree.regular_insert kind, sizes_insert fresh, grown, sound.exact complete]
    · have quiet := quiet_error { walk with seen := insert file walk.seen } path
        "byte count exceeds u64; totals are partial"
      have incomplete := error_complete { walk with seen := insert file walk.seen } path
        "byte count exceeds u64; totals are partial"
      refine ⟨?_, ?_, quiet.complete, fun _ _ => ?_⟩
      · intro sound
        refine ⟨fun _ => incomplete, ?_, ?_, fun complete => ?_⟩
        · rw [quiet.seen]
          exact sound.found_insert below here
        · rw [quiet.seen, quiet.totals]
          exact sound.atMost.trans
            (sizes_mono (Finset.filter_subset_filter _ (Finset.subset_insert _ _)))
        · rw [incomplete] at complete
          cases complete
      · rw [quiet.seen]
        exact Finset.subset_insert _ _
      · rw [quiet.seen]
        exact Finset.mem_insert_self _ _

/-! ## Directories -/

/-- The path is one a complete scan may pass: a symlink, or something of the
device that has been seen if it is a regular file and lies within the levels if
it is a directory. -/
def Settled (tree : FileTree) (device limit : Nat) (path : List String)
    (seen : Finset FileId) : Prop :=
  ∀ file, tree.find path = some file → (tree.metadata file).kind ≠ .symlink →
    file.device = device ∧ ((tree.metadata file).kind = .regular → file ∈ seen) ∧
      ((tree.metadata file).kind = .directory → path.length ≤ limit)

/-- Everything at a path and below it is settled. -/
def AllSettled (tree : FileTree) (device limit : Nat) (path : List String)
    (seen : Finset FileId) : Prop :=
  ∀ below ∈ tree.under path, Settled tree device limit below seen

/-- The entry of a listing is a name, and everything there is settled. -/
def EntrySettled (tree : FileTree) (device limit : Nat) (path : List String)
    (entry : Except OsError String) (seen : Finset FileId) : Prop :=
  ∃ name, entry = .ok name ∧ AllSettled tree device limit (path ++ [name]) seen

theorem allSettled_mono (limit : Nat) (path : List String) :
    Monotone (AllSettled tree device limit path) := by
  intro seen more grows settled below member file found kind
  obtain ⟨here, counted, level⟩ := settled below member file found kind
  exact ⟨here, fun regular => grows (counted regular), level⟩

theorem entrySettled_mono (limit : Nat) (path : List String) (entry : Except OsError String) :
    Monotone (EntrySettled tree device limit path entry) := by
  intro seen more grows settled
  obtain ⟨name, rfl, settled⟩ := settled
  exact ⟨name, rfl, allSettled_mono limit _ grows settled⟩

/-- Only a directory has anything below it. -/
theorem under_eq {path below : List String} {file : FileId} (found : tree.find path = some file)
    (kind : (tree.metadata file).kind ≠ .directory) (member : below ∈ tree.under path) :
    below = path := by
  obtain same | ⟨name, -, other, there⟩ := FileTree.under_cases member
  · exact same
  · obtain ⟨above, itself, directory⟩ := tree.parent _ _ _ there
    rw [found] at itself
    cases itself
    exact absurd directory kind

/-- What is no directory is settled as soon as it is settled itself. -/
theorem allSettled_of {limit : Nat} {path : List String} {seen : Finset FileId} {file : FileId}
    (found : tree.find path = some file) (kind : (tree.metadata file).kind ≠ .directory)
    (settled : (tree.metadata file).kind ≠ .symlink → file.device = device ∧
      ((tree.metadata file).kind = .regular → file ∈ seen)) :
    AllSettled tree device limit path seen := by
  intro below member other there notLink
  obtain rfl := under_eq found kind member
  rw [found] at there
  cases there
  obtain ⟨here, counted⟩ := settled notLink
  exact ⟨here, counted, fun directory => absurd directory kind⟩

/-- One entry, given what descending into a directory does. -/
theorem entry_reaches {system : System tree} {descend : List String → Walk → Walk}
    {path : List String} {limit : Nat} (below : root <+: path)
    (descends : ∀ name walk, Reaches tree root device (AllSettled tree device limit (path ++ [name]))
      walk (descend (path ++ [name]) walk)) (entry : Except OsError String) :
    Reaches tree root device (EntrySettled tree device limit path entry) walk
      (walk.entry system descend path device entry) := by
  have counts : Quiet walk { walk with result :=
      { walk.result with entries_seen := walk.result.entries_seen + 1 } } := ⟨rfl, rfl, id, .inl⟩
  unfold Walk.entry
  dsimp only
  cases entry with
  | error error => exact counts.then (reaches_error _ _ _)
  | ok name =>
    have called : Quiet walk { walk with
        result := { walk.result with entries_seen := walk.result.entries_seen + 1 }
        calls := walk.calls + 1 } := ⟨rfl, rfl, id, .inl⟩
    suffices reaches : ∀ after, after = _ →
        Reaches tree root device (AllSettled tree device limit (path ++ [name])) walk after by
      exact (reaches _ rfl).mono fun seen settled => ⟨name, rfl, settled⟩
    intro after shape
    subst shape
    dsimp only
    split
    · exact called.then (reaches_error _ _ _)
    · rename_i file answer
      have found := symlinkMetadata_ok answer
      have inTree : file ∈ tree.files root :=
        FileTree.mem_files.2 ⟨_, below.trans (List.prefix_append _ _), found⟩
      split
      · rename_i link
        refine Quiet.reaches ?_ fun _ => ?_
        · exact ⟨rfl, rfl, id, .inl⟩
        exact allSettled_of found (by simp [link]) fun notLink => absurd link notLink
      · rename_i notLink
        split
        · exact called.then (reaches_error _ _ _)
        · rename_i here
          have here : file.device = device := not_not.1 here
          split
          · exact called.then (descends name _)
          · rename_i notDirectory
            split
            · rename_i regular
              refine called.then ((file_reaches inTree here regular).mono ?_)
              intro seen member
              exact allSettled_of found notDirectory fun _ => ⟨here, fun _ => member⟩
            · rename_i notRegular
              refine Quiet.reaches ?_ fun _ => ?_
              · exact ⟨rfl, rfl, id, .inl⟩
              exact allSettled_of found notDirectory fun _ =>
                ⟨here, fun regular => absurd regular notRegular⟩

/-- The loop, by induction on the entries that are left. -/
theorem entries_reaches {system : System tree} {descend : List String → Walk → Walk}
    {path : List String} {limit : Nat} (below : root <+: path)
    (descends : ∀ name walk, Reaches tree root device (AllSettled tree device limit (path ++ [name]))
      walk (descend (path ++ [name]) walk)) :
    ∀ (listing : List (Except OsError String)) (walk : Walk),
      Reaches tree root device
        (fun seen => ∀ entry ∈ listing, EntrySettled tree device limit path entry seen) walk
        (walk.entries system descend path device listing) := by
  intro listing
  induction listing with
  | nil =>
    intro walk
    exact Quiet.reaches ⟨rfl, rfl, id, .inl⟩ fun _ => by simp
  | cons entry rest ih =>
    intro walk
    unfold Walk.entries
    split
    · rename_i exceeded
      exact withinBudget_false exceeded
    · rename_i within
      refine (withinBudget_true within).then ?_
      refine ((entry_reaches below descends entry).trans (entrySettled_mono limit path entry)
        (ih _)).mono ?_
      intro seen both
      exact List.forall_mem_cons.2 both

/-- Marking a directory counts nothing. -/
theorem marked_reaches {file : FileId} (inTree : file ∈ tree.files root)
    (kind : (tree.metadata file).kind = .directory) (here : file.device = device) (calls : Nat) :
    Reaches tree root device (fun _ => True) walk
      { walk with seen := insert file walk.seen, calls } := by
  have notRegular : (tree.metadata file).kind ≠ .regular := by simp [kind]
  refine ⟨?_, Finset.subset_insert _ _, id, fun _ _ => trivial⟩
  intro sound
  refine ⟨sound.stopped, sound.found_insert inTree here, ?_, ?_⟩
  · rw [FileTree.regular_insert_of_ne notRegular]
    exact sound.atMost
  · rw [FileTree.regular_insert_of_ne notRegular]
    exact sound.exact

/-- The checks before the loop: what they let through is a directory of the
device, and it has been marked. -/
theorem enter_some {system : System tree} {path : List String}
    {listing : List (Except OsError String)} (below : root <+: path)
    (enters : walk.enter system path device = (some listing, walk')) :
    listing = system.listing path ∧
      (∃ file, tree.find path = some file ∧ (tree.metadata file).kind = .directory ∧
        file.device = device) ∧
      Reaches tree root device (fun _ => True) walk walk' := by
  unfold Walk.enter at enters
  dsimp only at enters
  split at enters
  · cases enters
  · rename_i file answer
    have found : tree.find path = some file := by
      have := (checkedMetadata_ok answer).2
      rwa [names_ofNames] at this
    have inTree : file ∈ tree.files root := FileTree.mem_files.2 ⟨_, below, found⟩
    split at enters
    · rename_i fits
      split at enters
      · cases enters
      · split at enters
        · cases enters
        · rename_i listed
          cases enters
          refine ⟨?_, ⟨file, found, fits⟩, marked_reaches inTree fits.1 fits.2 _⟩
          unfold readDir at listed
          split at listed
          · cases listed
          · exact (Except.ok.inj listed).symm
    · cases enters

/-- A directory that is not entered has been reported. -/
theorem enter_none {system : System tree} {path : List String} {goal : Finset FileId → Prop}
    (below : root <+: path) (refuses : walk.enter system path device = (none, walk')) :
    Reaches tree root device goal walk walk' := by
  unfold Walk.enter at refuses
  dsimp only at refuses
  have called : ∀ calls, Quiet walk { walk with calls } := fun _ => ⟨rfl, rfl, id, .inl⟩
  split at refuses
  · cases refuses
    exact (called _).then (reaches_error _ _ _)
  · rename_i file answer
    have found : tree.find path = some file := by
      have := (checkedMetadata_ok answer).2
      rwa [names_ofNames] at this
    have inTree : file ∈ tree.files root := FileTree.mem_files.2 ⟨_, below, found⟩
    split at refuses
    · rename_i fits
      split at refuses
      · cases refuses
        exact (called _).then (reaches_error _ _ _)
      · split at refuses
        · cases refuses
          exact ((marked_reaches inTree fits.1 fits.2 _).trans (fun _ _ _ => id)
            (reaches_error _ _ _)).mono fun _ both => both.2
        · cases refuses
    · cases refuses
      exact (called _).then (reaches_error _ _ _)

/-- A directory, by induction on the levels that are left below it. -/
theorem directory_reaches {system : System tree} {limit : Nat} :
    ∀ (levels : Nat) (path : List String) (walk : Walk), root <+: path →
      path.length + levels = limit + 1 →
      Reaches tree root device (AllSettled tree device limit path) walk
        (walk.directory system device levels path) := by
  intro levels
  induction levels with
  | zero =>
    intro path walk below deep
    unfold Walk.directory
    split
    · rename_i exceeded
      exact withinBudget_false exceeded
    · rename_i within
      exact (withinBudget_true within).then (reaches_error _ _ _)
  | succ levels ih =>
    intro path walk below deep
    unfold Walk.directory
    split
    · rename_i exceeded
      exact withinBudget_false exceeded
    · rename_i within
      refine (withinBudget_true within).then ?_
      split
      · rename_i refuses
        exact enter_none below refuses
      · rename_i listing entered enters
        obtain ⟨rfl, ⟨file, found, directory, here⟩, marks⟩ := enter_some below enters
        have descends : ∀ name walk, Reaches tree root device
            (AllSettled tree device limit (path ++ [name])) walk
            (walk.directory system device levels (path ++ [name])) := by
          intro name walk
          apply ih _ walk (below.trans (List.prefix_append _ _))
          rw [List.length_append, List.length_singleton]
          omega
        refine (marks.trans (fun _ _ _ => id) (entries_reaches below descends _ _)).mono ?_
        intro seen both other member
        obtain rfl | ⟨name, inside, there, leads⟩ := FileTree.under_cases member
        · intro itself there _
          rw [found] at there
          cases there
          refine ⟨here, fun regular => ?_, fun _ => by omega⟩
          rw [directory] at regular
          cases regular
        · have noError : ∀ error, .error error ∉ system.listing path := by
            intro error member
            obtain ⟨name, shape, -⟩ := both.2 _ member
            cases shape
          obtain ⟨listed, shape, settled⟩ := both.2 _ (system.complete _ _ _ noError leads)
          cases shape
          exact settled other inside

end

theorem sound_start (tree : FileTree) (root : List String) (device : Nat) (path : StoragePath)
    (entry_limit time_limit : Nat) :
    Sound tree root device (start path entry_limit time_limit) where
  stopped := by
    intro stopped
    cases stopped
  found := by
    intro file member
    simp [start] at member
  atMost := ⟨Nat.zero_le _, Nat.zero_le _, Nat.zero_le _⟩
  exact := by
    intro _
    simp [start, DirectoryUsage.totals, sizes, FileTree.regular, FileTree.total]

end Walk

/-! ## The scan -/

/-- The regular files below the root of a scan, each once. -/
def regularFiles (tree : FileTree) (path : StoragePath) : Finset FileId :=
  tree.regular (tree.files path.names)

/-- Those of them on the root's device. -/
def regularFilesOnDevice (tree : FileTree) (path : StoragePath) : Finset FileId :=
  (regularFiles tree path).filter fun file =>
    ∃ root, tree.find path.names = some root ∧ file.device = root.device

section Scan

variable {tree : FileTree} {system : System tree} {path : StoragePath} {entry_limit time_limit : Nat}

/-- A scan that does not get to walk has no totals, and does not say that it is
complete and that the directory exists. -/
theorem scan_cases :
    ((scan system path entry_limit time_limit).totals = (0, 0, 0) ∧
      ¬ ((scan system path entry_limit time_limit).complete = true ∧
        (scan system path entry_limit time_limit).found = some true)) ∨
    ∃ (root : FileId) (walk : Walk), tree.find path.names = some root ∧
      (scan system path entry_limit time_limit) = walk.result ∧
      walk.Sound tree path.names root.device ∧
      (walk.result.complete = true →
        Walk.AllSettled tree root.device (path.names.length + DEPTH_LIMIT) path.names walk.seen) := by
  unfold scan
  dsimp only
  split
  · rename_i file answer
    obtain ⟨-, found⟩ := checkedMetadata_ok answer
    split
    · right
      have opened : Walk.Quiet (Walk.start path entry_limit time_limit)
          { Walk.start path entry_limit time_limit with
            result := { (Walk.start path entry_limit time_limit).result with
              found := some true
              root_uid := some (tree.metadata file).uid
              root_gid := some (tree.metadata file).gid }
            calls := (checkedMetadata system path 0).2 } := ⟨rfl, rfl, id, .inl⟩
      have begins := (Walk.sound_start tree path.names file.device path entry_limit time_limit).quiet
        opened
      have reaches := fun walk => @Walk.directory_reaches tree path.names file.device system
        (path.names.length + DEPTH_LIMIT) (DEPTH_LIMIT + 1) path.names walk (List.prefix_refl _) rfl
      exact ⟨file, _, found, rfl, (reaches _).sound begins, (reaches _).goal begins⟩
    · left
      refine ⟨(Walk.quiet_error _ _ _).totals, fun both => ?_⟩
      rw [Walk.error_complete] at both
      cases both.1
  · left
    split
    · refine ⟨rfl, fun both => ?_⟩
      cases both.2
    · refine ⟨(Walk.quiet_error _ _ _).totals, fun both => ?_⟩
      rw [Walk.error_complete] at both
      cases both.1

/-- A walk that ends complete has seen the regular files below its root, and
nothing else. -/
theorem regular_seen {root : FileId} {walk : Walk} {limit : Nat}
    (sound : walk.Sound tree path.names root.device)
    (settled : Walk.AllSettled tree root.device limit path.names walk.seen) :
    tree.regular walk.seen = regularFiles tree path := by
  ext file
  rw [regularFiles, FileTree.mem_regular, FileTree.mem_regular]
  constructor
  · rintro ⟨seen, regular⟩
    exact ⟨(sound.found file seen).1, regular⟩
  · rintro ⟨below, regular⟩
    obtain ⟨place, inside, found⟩ := FileTree.mem_files.1 below
    have member : place ∈ tree.under path.names := FileTree.mem_under.2 ⟨⟨file, found⟩, inside⟩
    exact ⟨(settled place member file found (by simp [regular])).2.1 regular, regular⟩

theorem totals_complete (complete : (scan system path entry_limit time_limit).complete = true)
    (found : (scan system path entry_limit time_limit).found = some true) :
    (scan system path entry_limit time_limit).totals = sizes tree (regularFiles tree path) := by
  obtain ⟨-, not⟩ | ⟨root, walk, -, result, sound, settled⟩ :=
    @scan_cases tree system path entry_limit time_limit
  · exact absurd ⟨complete, found⟩ not
  · rw [result] at complete ⊢
    rw [sound.exact complete, regular_seen sound (settled complete)]

theorem totals_atMost :
    (scan system path entry_limit time_limit).totals ≤ sizes tree (regularFilesOnDevice tree path) := by
  obtain ⟨zero, -⟩ | ⟨root, walk, there, result, sound, -⟩ :=
    @scan_cases tree system path entry_limit time_limit
  · rw [zero]
    exact ⟨Nat.zero_le _, Nat.zero_le _, Nat.zero_le _⟩
  · rw [result]
    refine sound.atMost.trans (sizes_mono ?_)
    intro file member
    obtain ⟨seen, regular⟩ := FileTree.mem_regular.1 member
    obtain ⟨below, here⟩ := sound.found file seen
    exact Finset.mem_filter.2 ⟨FileTree.mem_regular.2 ⟨below, regular⟩, root, there, here⟩

/-- A scan that says it is complete has counted each regular file below its root
once, in a tree that, but for symlinks, lies on the root's device and has its
directories within the levels; one that does not say so has not counted more
than there is on that device; and two complete scans of a tree agree. -/
theorem scan_totals (tree : FileTree) (system other : System tree) (path : StoragePath)
    (entry_limit time_limit entry_limit' time_limit' : Nat) :
    let usage := scan system path entry_limit time_limit
    let again := scan other path entry_limit' time_limit'
    (usage.complete = true → usage.found = some true →
      usage.file_logical_bytes = tree.total (·.length) (regularFiles tree path) ∧
      usage.file_allocated_bytes = tree.total (512 * ·.blocks) (regularFiles tree path) ∧
      usage.files = (regularFiles tree path).card ∧
      ∃ root, tree.find path.names = some root ∧
        ∀ place ∈ tree.under path.names, ∀ file, tree.find place = some file →
          (tree.metadata file).kind ≠ .symlink → file.device = root.device ∧
            ((tree.metadata file).kind = .directory →
              place.length ≤ path.names.length + DEPTH_LIMIT)) ∧
    (usage.complete = false →
      usage.file_logical_bytes ≤ tree.total (·.length) (regularFilesOnDevice tree path) ∧
      usage.file_allocated_bytes ≤ tree.total (512 * ·.blocks) (regularFilesOnDevice tree path) ∧
      usage.files ≤ (regularFilesOnDevice tree path).card) ∧
    (usage.complete = true → usage.found = some true →
      again.complete = true → again.found = some true →
        usage.file_logical_bytes = again.file_logical_bytes ∧
        usage.file_allocated_bytes = again.file_allocated_bytes ∧
        usage.files = again.files) := by
  intro usage again
  refine ⟨?_, ?_, ?_⟩
  · intro complete found
    have totals := totals_complete complete found
    simp only [DirectoryUsage.totals, sizes, Prod.mk.injEq] at totals
    obtain ⟨logical, allocated, files⟩ := totals
    refine ⟨logical, allocated, files, ?_⟩
    obtain ⟨-, not⟩ | ⟨root, walk, there, result, -, settled⟩ :=
      @scan_cases tree system path entry_limit time_limit
    · exact absurd ⟨complete, found⟩ not
    · refine ⟨root, there, ?_⟩
      intro place member file leads kind
      obtain ⟨here, -, level⟩ := settled (by rw [← result]; exact complete) place member file leads kind
      exact ⟨here, level⟩
  · intro _
    exact @totals_atMost tree system path entry_limit time_limit
  · intro complete found complete' found'
    have same : usage.totals = again.totals :=
      (totals_complete complete found).trans (totals_complete complete' found').symm
    simpa only [DirectoryUsage.totals, Prod.mk.injEq] using same

end Scan

/-! ## Symlinks elsewhere, and files below the last level -/

/-- A root with nothing in it but a symlink that reports another device. -/
def linkedTree : FileTree where
  find path :=
    if path = [] then some ⟨1, 1⟩
    else if path = ["link"] then some ⟨2, 1⟩
    else none
  metadata file := ⟨if file.device = 1 then .directory else .symlink, 0, 0, 0, 0⟩
  paths := {[], ["link"]}
  mem_paths := by
    intro path
    rw [Finset.mem_insert, Finset.mem_singleton]
    split_ifs <;> simp_all
  parent := by
    intro path name file found
    rw [if_neg (by simp)] at found
    split at found
    · rename_i only
      obtain ⟨rfl, -⟩ := List.append_eq_singleton_iff.1 only |>.resolve_right (by simp)
      exact ⟨⟨1, 1⟩, rfl, rfl⟩
    · cases found

def linkedSystem : System linkedTree where
  fault _ := none
  elapsed _ := 0
  listing path := if path = [] then [.ok "link"] else []
  listed := by
    intro path name member
    split at member
    · rename_i top
      obtain rfl : name = "link" := by simpa using member
      exact ⟨⟨2, 1⟩, by rw [top]; rfl⟩
    · cases member
  complete := by
    intro path name file _ found
    obtain ⟨above, there, directory⟩ := linkedTree.parent path name file found
    have top : path = [] := by
      by_contra deeper
      have there : (if path = [] then some ⟨1, 1⟩ else if path = ["link"] then some ⟨2, 1⟩ else none) =
        some above := there
      rw [if_neg deeper] at there
      split at there
      · cases there
        cases directory
      · cases there
    rw [top] at found ⊢
    have found : (if [name] = ["link"] then some (⟨2, 1⟩ : FileId) else none) = some file := found
    split at found
    · rename_i link
      simpa using link
    · cases found

/-- Names `d` all the way down, and one more. -/
theorem replicate_snoc {path : List String} {name : String} :
    path ++ [name] = List.replicate (path ++ [name]).length "d" ↔
      path = List.replicate path.length "d" ∧ name = "d" := by
  rw [List.length_append, List.length_singleton, List.replicate_succ']
  constructor
  · intro same
    obtain ⟨above, last⟩ := List.append_inj' same rfl
    exact ⟨above, by simpa using last⟩
  · rintro ⟨above, rfl⟩
    rw [← above]

/-- Directories one in another, with a regular file below the one at the last
level. -/
def deepTree : FileTree where
  find path :=
    if path = List.replicate path.length "d" ∧ path.length ≤ 65 then some ⟨1, path.length⟩ else none
  metadata file := ⟨if file.inode ≤ 64 then .directory else .regular, 0, 0, 0, 0⟩
  paths := (Finset.range 66).image (List.replicate · "d")
  mem_paths := by
    intro path
    rw [Finset.mem_image]
    constructor
    · rintro ⟨depth, member, rfl⟩
      have level : depth < 66 := Finset.mem_range.1 member
      exact ⟨⟨1, depth⟩, by rw [List.length_replicate, if_pos ⟨rfl, by omega⟩]⟩
    · rintro ⟨file, found⟩
      split at found
      · rename_i deep
        exact ⟨path.length, Finset.mem_range.2 (by omega), deep.1.symm⟩
      · cases found
  parent := by
    intro path name file found
    split at found
    · rename_i deep
      obtain ⟨above, -⟩ := replicate_snoc.1 deep.1
      have level : path.length + 1 ≤ 65 := by simpa using deep.2
      refine ⟨⟨1, path.length⟩, if_pos ⟨above, by omega⟩, ?_⟩
      exact if_pos (by omega : path.length ≤ 64)
    · cases found

def deepSystem : System deepTree where
  fault _ := none
  elapsed _ := 0
  listing path := if path = List.replicate path.length "d" ∧ path.length ≤ 64 then [.ok "d"] else []
  listed := by
    intro path name member
    split at member
    · rename_i deep
      obtain rfl : name = "d" := by simpa using member
      refine ⟨_, if_pos ⟨replicate_snoc.2 ⟨deep.1, rfl⟩, ?_⟩⟩
      rw [List.length_append, List.length_singleton]
      omega
    · cases member
  complete := by
    intro path name file _ found
    have found : (if path ++ [name] = List.replicate (path ++ [name]).length "d" ∧
        (path ++ [name]).length ≤ 65 then some (⟨1, (path ++ [name]).length⟩ : FileId) else none) =
          some file := found
    split at found
    · rename_i deep
      obtain ⟨above, rfl⟩ := replicate_snoc.1 deep.1
      have level : path.length + 1 ≤ 65 := by simpa using deep.2
      rw [if_pos ⟨above, by omega⟩]
      exact List.mem_singleton_self _
    · cases found

/-- The walk leaves symlinks where they are without asking for their device, and
lists a directory at the last level, so that a complete scan may have passed
both. -/
theorem scan_passes :
    (¬ ∀ (tree : FileTree) (system : System tree) (path : StoragePath) (entry_limit time_limit : Nat),
      (scan system path entry_limit time_limit).complete = true →
      (scan system path entry_limit time_limit).found = some true →
        ∃ root, tree.find path.names = some root ∧
          ∀ place ∈ tree.under path.names, ∀ file, tree.find place = some file →
            file.device = root.device) ∧
    ¬ ∀ (tree : FileTree) (system : System tree) (path : StoragePath) (entry_limit time_limit : Nat),
      (scan system path entry_limit time_limit).complete = true →
      (scan system path entry_limit time_limit).found = some true →
        ∀ place ∈ tree.under path.names, place.length ≤ path.names.length + 64 := by
  constructor
  · intro onDevice
    obtain ⟨root, there, all⟩ := onDevice linkedTree linkedSystem (.ofNames []) 10 1
      (by decide +kernel) (by decide +kernel)
    have top : root = ⟨1, 1⟩ := (Option.some.inj there).symm
    have link := all ["link"] (FileTree.mem_under.2 ⟨⟨⟨2, 1⟩, rfl⟩, List.nil_prefix⟩) ⟨2, 1⟩ rfl
    rw [top] at link
    cases link
  · intro withinLevels
    have level := withinLevels deepTree deepSystem (.ofNames []) 100 1 (by decide +kernel)
      (by decide +kernel) (List.replicate 65 "d")
      (FileTree.mem_under.2 ⟨⟨⟨1, 65⟩, by decide +kernel⟩, List.nil_prefix⟩)
    exact absurd level (by decide)

end Luhmen.Host.Storage
