/-
# Theory.OptionParser -- command-line options before the first operand

The parsing rules of a flag library that stops at the first operand.  A
`Grammar` says which long names and which letters are options, whether each takes
a value, and which values it admits.  `parse` reads an argument list:

* `--`, `-` and an argument without a leading `-` end the options;
* `--name=value` is one argument, and so is a boolean `--name`; a `--name` that takes
  a value takes the next argument;
* in a cluster `-abc` a boolean letter leaves the rest of the cluster to the next
  letter, or takes it as `=value`; a letter with a value takes the rest of the
  cluster, or the next argument when nothing is left.

`parse_step` is the rule for one option argument.
-/
import Mathlib

namespace Luhmen.Theory.OptionParser

set_option autoImplicit false

abbrev Arg := List Char

inductive Arity where
  | boolean
  | value
  deriving DecidableEq, Repr

inductive Flag where
  | long (name : List Char)
  | short (letter : Char)
  deriving DecidableEq, Repr

/-- The options a parser knows. -/
structure Grammar where
  long : List Char → Option Arity
  short : Char → Option Arity
  admits : Flag → Arg → Bool

inductive Error where
  | unknown (flag : Flag)
  | missing (flag : Flag)
  | invalid (flag : Flag) (value : Arg)
  deriving DecidableEq, Repr

/-- What an argument list parses to: the options set, how many arguments each
option argument took, and the operands. -/
structure Parsed where
  set : List (Flag × Arg)
  taken : List Nat
  operands : List Arg
  deriving DecidableEq, Repr

/-- Whether the options end at `arg`. -/
def stops (arg : Arg) : Bool :=
  arg = "--".toList || arg = "-".toList || arg.head? ≠ some '-'

/-- The text before the first `=`, and the text behind it if there is one. -/
def splitOnce : List Char → List Char × Option (List Char)
  | [] => ([], none)
  | c :: rest =>
      if c = '=' then ([], some rest)
      else ((c :: (splitOnce rest).1), (splitOnce rest).2)

variable (G : Grammar)

/-- Set one flag, if its value is admitted. -/
def assign (flag : Flag) (value : Arg) : Except Error (List (Flag × Arg)) :=
  if G.admits flag value then .ok [(flag, value)] else .error (.invalid flag value)

/-- A long option and the argument behind it: what is set, and whether that
argument was taken. -/
def long (text : List Char) (next : Option Arg) : Except Error (List (Flag × Arg) × Bool) :=
  let (name, inline) := splitOnce text
  match G.long name, inline with
  | none, _ => .error (.unknown (.long name))
  | some _, some value => (assign G (.long name) value).map fun set => (set, false)
  | some .boolean, none => (assign G (.long name) "true".toList).map fun set => (set, false)
  | some .value, none =>
      match next with
      | none => .error (.missing (.long name))
      | some value => (assign G (.long name) value).map fun set => (set, true)

/-- A cluster of letters, left to right. -/
def cluster : List Char → Option Arg → Except Error (List (Flag × Arg) × Bool)
  | [], _ => .ok ([], false)
  | letter :: rest, next =>
      match G.short letter with
      | none => .error (.unknown (.short letter))
      | some .boolean =>
          if rest.head? = some '=' then
            (assign G (.short letter) rest.tail).map fun set => (set, false)
          else
            match assign G (.short letter) "true".toList with
            | .error error => .error error
            | .ok set => (cluster rest next).map fun more => (set ++ more.1, more.2)
      | some .value =>
          if rest = [] then
            match next with
            | none => .error (.missing (.short letter))
            | some value => (assign G (.short letter) value).map fun set => (set, true)
          else (assign G (.short letter) rest).map fun set => (set, false)

/-- One option argument. -/
def option (arg : Arg) (next : Option Arg) : Except Error (List (Flag × Arg) × Bool) :=
  if "--".toList <+: arg then long G (arg.drop 2) next else cluster G arg.tail next

/-- How many arguments an option argument takes. -/
def width (takesNext : Bool) : Nat :=
  if takesNext then 2 else 1

def Parsed.behind (set : List (Flag × Arg)) (takesNext : Bool) (rest : Parsed) : Parsed where
  set := set ++ rest.set
  taken := width takesNext :: rest.taken
  operands := rest.operands

def parse (args : List Arg) : Except Error Parsed :=
  match args with
  | [] => .ok ⟨[], [], []⟩
  | arg :: rest =>
      if stops arg then .ok ⟨[], [], arg :: rest⟩
      else
        match option G arg rest.head? with
        | .error error => .error error
        | .ok (set, takesNext) =>
            (parse (rest.drop (width takesNext - 1))).map (Parsed.behind set takesNext)
termination_by args.length
decreasing_by simp only [List.length_drop, List.length_cons]; omega

/-! ## Rules -/

variable {G}

theorem assign_set {flag : Flag} {value : Arg} {set : List (Flag × Arg)}
    (assigned : assign G flag value = .ok set) : set = [(flag, value)] := by
  unfold assign at assigned
  split at assigned
  · exact (Except.ok.inj assigned).symm
  · simp at assigned

/-- What an assignment with a known end sets. -/
theorem assign_map_ok {flag : Flag} {value : Arg} {takesNext taken : Bool}
    {set : List (Flag × Arg)}
    (ok : ((assign G flag value).map fun set => (set, takesNext)) = .ok (set, taken)) :
    set = [(flag, value)] ∧ taken = takesNext := by
  cases assigned : assign G flag value with
  | error error => rw [assigned] at ok; simp [Except.map] at ok
  | ok single =>
      rw [assigned] at ok
      obtain ⟨rfl, rfl⟩ := Prod.mk.inj (Except.ok.inj ok)
      exact ⟨assign_set assigned, rfl⟩

section Cluster

variable {letter : Char} {rest : List Char} {next : Option Arg}

theorem cluster_unknown (unknown : G.short letter = none) :
    cluster G (letter :: rest) next = .error (.unknown (.short letter)) := by
  simp only [cluster, unknown]

theorem cluster_inline (isBoolean : G.short letter = some .boolean) (inline : rest.head? = some '=') :
    cluster G (letter :: rest) next =
      (assign G (.short letter) rest.tail).map fun set => (set, false) := by
  simp only [cluster, isBoolean, inline, if_true]

theorem cluster_boolean (isBoolean : G.short letter = some .boolean) (going : rest.head? ≠ some '=') :
    cluster G (letter :: rest) next =
      match assign G (.short letter) "true".toList with
      | .error error => .error error
      | .ok set => (cluster G rest next).map fun more => (set ++ more.1, more.2) := by
  simp only [cluster, isBoolean, going, if_false]

theorem cluster_rest (isValue : G.short letter = some .value) (more : rest ≠ []) :
    cluster G (letter :: rest) next =
      (assign G (.short letter) rest).map fun set => (set, false) := by
  simp only [cluster, isValue, more, if_false]

theorem cluster_next (isValue : G.short letter = some .value) (value : Arg) :
    cluster G [letter] (some value) =
      (assign G (.short letter) value).map fun set => (set, true) := by
  simp only [cluster, isValue, if_true]

theorem cluster_missing (isValue : G.short letter = some .value) :
    cluster G [letter] none = .error (.missing (.short letter)) := by
  simp only [cluster, isValue, if_true]

/-- A cluster that parses sets its first letter first. -/
theorem cluster_sets {set : List (Flag × Arg)} {takesNext : Bool}
    (ok : cluster G (letter :: rest) next = .ok (set, takesNext)) :
    ∃ value more, set = (.short letter, value) :: more := by
  cases kind : G.short letter with
  | none =>
      rw [cluster_unknown kind] at ok
      simp at ok
  | some arity =>
      cases arity with
      | boolean =>
          by_cases inline : rest.head? = some '='
          · rw [cluster_inline kind inline] at ok
            exact ⟨_, [], (assign_map_ok ok).1⟩
          · rw [cluster_boolean kind inline] at ok
            cases assigned : assign G (.short letter) "true".toList with
            | error error => rw [assigned] at ok; simp at ok
            | ok single =>
                rw [assigned] at ok
                obtain rfl := assign_set assigned
                cases further : cluster G rest next with
                | error error => rw [further] at ok; simp [Except.map] at ok
                | ok more =>
                    rw [further] at ok
                    obtain ⟨rfl, -⟩ := Prod.mk.inj (Except.ok.inj ok)
                    exact ⟨_, more.1, rfl⟩
      | value =>
          by_cases last : rest = []
          · subst last
            cases next with
            | none => rw [cluster_missing kind] at ok; simp at ok
            | some value =>
                rw [cluster_next kind] at ok
                exact ⟨_, [], (assign_map_ok ok).1⟩
          · rw [cluster_rest kind last] at ok
            exact ⟨_, [], (assign_map_ok ok).1⟩

end Cluster

theorem parse_nil : parse G [] = .ok ⟨[], [], []⟩ := by
  rw [parse]

theorem parse_stop {arg : Arg} {rest : List Arg} (stop : stops arg = true) :
    parse G (arg :: rest) = .ok ⟨[], [], arg :: rest⟩ := by
  rw [parse, if_pos stop]

theorem parse_error {arg : Arg} {rest : List Arg} {error : Error} (going : stops arg = false)
    (failed : option G arg rest.head? = .error error) : parse G (arg :: rest) = .error error := by
  rw [parse, if_neg (by simp [going]), failed]

theorem parse_step {arg : Arg} {rest : List Arg} {set : List (Flag × Arg)} {takesNext : Bool}
    (going : stops arg = false) (taken : option G arg rest.head? = .ok (set, takesNext)) :
    parse G (arg :: rest) =
      (parse G (rest.drop (width takesNext - 1))).map (Parsed.behind set takesNext) := by
  rw [parse, if_neg (by simp [going]), taken]

theorem width_pos (takesNext : Bool) : 0 < width takesNext := by
  cases takesNext <;> decide

end Luhmen.Theory.OptionParser
