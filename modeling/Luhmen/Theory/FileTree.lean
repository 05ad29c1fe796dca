/-
# Theory.FileTree -- a finite tree of files, by path

A path is the list of the names that lead to it, and a file is known by its
device and inode, so that hard links are two paths to one file.  A file's kind
and sizes belong to the file, never to the path: two links cannot disagree.

`FileTree.under` is everything at a path and below it, through directories only
(the field `parent` says that nothing lies below anything else, so no symlink is
followed); `FileTree.regular` are its regular files, each once.
-/
import Mathlib.Data.Finset.Option
import Mathlib.Data.Finset.Union
import Mathlib.Data.List.Infix
import Mathlib.Algebra.Order.BigOperators.Group.Finset

set_option autoImplicit false

namespace Luhmen.Theory

/-- What tells one file from another. -/
structure FileId where
  device : Nat
  inode : Nat
deriving DecidableEq, Repr

inductive FileKind where
  | directory
  | regular
  | symlink
  | other
deriving DecidableEq, Repr

/-- What the file system says of a file, by whatever path it is reached. -/
structure Metadata where
  kind : FileKind
  length : Nat
  blocks : Nat
  uid : Nat
  gid : Nat
deriving DecidableEq, Repr

/-- A finite tree of files.  `find` looks a path up and `paths` are the paths it
finds something at. -/
structure FileTree where
  find : List String → Option FileId
  metadata : FileId → Metadata
  paths : Finset (List String)
  mem_paths : ∀ path, path ∈ paths ↔ ∃ file, find path = some file
  parent : ∀ path name file, find (path ++ [name]) = some file →
    ∃ above, find path = some above ∧ (metadata above).kind = .directory

namespace FileTree

variable (tree : FileTree)

/-- Everything at a path and below it. -/
def under (root : List String) : Finset (List String) :=
  tree.paths.filter (root <+: ·)

/-- The files at a path and below it, each once. -/
def files (root : List String) : Finset FileId :=
  (tree.under root).biUnion fun path => (tree.find path).toFinset

/-- The regular files among some. -/
def regular (files : Finset FileId) : Finset FileId :=
  files.filter fun file => (tree.metadata file).kind = .regular

/-- The sum of a size over some files. -/
def total (size : Metadata → Nat) (files : Finset FileId) : Nat :=
  ∑ file ∈ files, size (tree.metadata file)

variable {tree}

/-! ## What lies under a path -/

theorem mem_under {root path : List String} :
    path ∈ tree.under root ↔ (∃ file, tree.find path = some file) ∧ root <+: path := by
  rw [under, Finset.mem_filter, tree.mem_paths]

theorem mem_files {root : List String} {file : FileId} :
    file ∈ tree.files root ↔ ∃ path, root <+: path ∧ tree.find path = some file := by
  simp only [files, Finset.mem_biUnion, mem_under, Option.mem_toFinset, Option.mem_def]
  constructor
  · rintro ⟨path, ⟨-, below⟩, found⟩
    exact ⟨path, below, found⟩
  · rintro ⟨path, below, found⟩
    exact ⟨path, ⟨⟨file, found⟩, below⟩, found⟩

theorem mem_regular {files : Finset FileId} {file : FileId} :
    file ∈ tree.regular files ↔ file ∈ files ∧ (tree.metadata file).kind = .regular := by
  rw [regular, Finset.mem_filter]

/-- What leads to a file of the tree is in the tree. -/
theorem find_prefix {path : List String} :
    ∀ (rest : List String) {file : FileId}, tree.find (path ++ rest) = some file →
      ∃ above, tree.find path = some above := by
  intro rest
  induction rest using List.reverseRecOn with
  | nil =>
    intro file found
    exact ⟨file, by simpa using found⟩
  | append_singleton rest name ih =>
    intro file found
    rw [← List.append_assoc] at found
    obtain ⟨above, there, -⟩ := tree.parent _ _ _ found
    exact ih there

/-- Below a path is the path itself, and what is below the names listed there. -/
theorem under_cases {above path : List String} (below : path ∈ tree.under above) :
    path = above ∨ ∃ name, path ∈ tree.under (above ++ [name]) ∧
      ∃ file, tree.find (above ++ [name]) = some file := by
  obtain ⟨⟨file, found⟩, rest, rfl⟩ := mem_under.1 below
  cases rest with
  | nil => exact .inl (List.append_nil _)
  | cons name rest =>
    rw [List.append_cons] at found ⊢
    exact .inr ⟨name, mem_under.2 ⟨⟨file, found⟩, List.prefix_append _ _⟩, find_prefix rest found⟩

/-! ## Totals -/

variable (size : Metadata → Nat)

theorem regular_insert {files : Finset FileId} {file : FileId}
    (kind : (tree.metadata file).kind = .regular) :
    tree.regular (insert file files) = insert file (tree.regular files) := by
  rw [regular, Finset.filter_insert, if_pos kind]
  rfl

theorem regular_insert_of_ne {files : Finset FileId} {file : FileId}
    (kind : (tree.metadata file).kind ≠ .regular) :
    tree.regular (insert file files) = tree.regular files := by
  rw [regular, Finset.filter_insert, if_neg kind]
  rfl

theorem total_insert {files : Finset FileId} {file : FileId} (fresh : file ∉ files) :
    tree.total size (insert file files) = size (tree.metadata file) + tree.total size files :=
  Finset.sum_insert fresh

theorem total_mono {some all : Finset FileId} (subset : some ⊆ all) :
    tree.total size some ≤ tree.total size all :=
  Finset.sum_le_sum_of_subset subset

end FileTree

end Luhmen.Theory
