/-
# Theory.Outcome -- how a function of the source can end

`Failure` keeps apart what Rust keeps apart: an `Err` with its message, a panic (a
slice or index out of range, an `unwrap` on nothing), and a loop that would not
end.  A loop recurses on fuel, one unit an iteration, and running out of it is
`diverges`.
-/
import Mathlib.Tactic.Common

namespace Luhmen.Theory

set_option autoImplicit false

/-- How a function can fail to return `Ok`. -/
inductive Failure where
  | error (message : String)
  | panic
  | diverges
  deriving DecidableEq, Repr

abbrev Result (α : Type) := Except Failure α

def fail {α : Type} (message : String) : Result α :=
  .error (.error message)

theorem ok_bind {ε α β : Type} (value : α) (rest : α → Except ε β) :
    (Except.ok value >>= rest) = rest value := rfl

theorem bind_eq_ok {ε α β : Type} {first : Except ε α} {rest : α → Except ε β} {value : β}
    (ok : first >>= rest = .ok value) : ∃ x, first = .ok x ∧ rest x = .ok value := by
  cases first with
  | error failure => cases ok
  | ok x => exact ⟨x, rfl, ok⟩

theorem map_eq_ok {α β : Type} {result : Result α} {f : α → β} {value : β}
    (ok : result.map f = .ok value) : ∃ x, result = .ok x ∧ f x = value := by
  cases result with
  | error failure => simp [Except.map] at ok
  | ok x => exact ⟨x, rfl, Except.ok.inj ok⟩

end Luhmen.Theory
