/-
# Theory.Program -- programs that talk to the outside world one request at a time

A program over an `Interface` is a finite tree: it either is done with a value,
or performs a request and goes on with whatever reply comes back.  Nothing is
said here about what a request does; `Theory.CrashLogic` gives requests a
meaning over a state, and lets other parties move in between.

Fallible code is written in `ExceptT ε (Program I)`, so a `throw` leaves the
enclosing block the way `?` does, and `attempt` turns a block into the value it
ended with.
-/
import Mathlib.Tactic.Common

namespace Luhmen.Theory

set_option autoImplicit false

universe u

/-- The requests a program can make, and the replies each of them can get. -/
structure Interface where
  Request : Type
  Reply : Request → Type

/-- A finite tree of requests, branching on their replies. -/
inductive Program (I : Interface) (α : Type u) : Type u where
  | done (value : α)
  | call (request : I.Request) (next : I.Reply request → Program I α)

namespace Program

variable {I : Interface} {α β : Type u}

def bind (program : Program I α) (rest : α → Program I β) : Program I β :=
  match program with
  | .done value => rest value
  | .call request next => .call request fun reply => (next reply).bind rest

instance : Monad (Program I) where
  pure := .done
  bind := .bind

/-- One request, and its reply as the value. -/
def perform (request : I.Request) : Program I (I.Reply request) :=
  .call request .done

@[simp] theorem done_bind (value : α) (rest : α → Program I β) :
    (Program.done value >>= rest) = rest value := rfl

@[simp] theorem call_bind (request : I.Request) (next : I.Reply request → Program I α)
    (rest : α → Program I β) :
    (Program.call request next >>= rest) = .call request fun reply => next reply >>= rest := rfl

/-! ## Which requests a program can make -/

/-- Every request the program can reach, whatever the replies, is `allowed`. -/
def Uses (allowed : I.Request → Prop) : Program I α → Prop
  | .done _ => True
  | .call request next => allowed request ∧ ∀ reply, Uses allowed (next reply)

theorem uses_bind {allowed : I.Request → Prop} {program : Program I α} {rest : α → Program I β}
    (first : Uses allowed program) (second : ∀ value, Uses allowed (rest value)) :
    Uses allowed (program >>= rest) := by
  induction program with
  | done value => exact second value
  | call request next ih => exact ⟨first.1, fun reply => ih reply (first.2 reply)⟩

/-! ## Runs against a function

Where every request has one reply, a run is a matter of evaluation. -/

section Evaluate

variable {σ : Type} (serve : (request : I.Request) → σ → I.Reply request × σ)

def evaluate : Program I α → σ → α × σ
  | .done value, s => (value, s)
  | .call request next, s => evaluate (next (serve request s).1) (serve request s).2

/-- The first so many requests of a run. -/
def advance : Nat → Program I α × σ → Program I α × σ
  | 0, x => x
  | _ + 1, (.done value, s) => (.done value, s)
  | n + 1, (.call request next, s) => advance n (next (serve request s).1, (serve request s).2)

/-- A program ends, however its requests are served. -/
theorem advance_done (program : Program I α) (s : σ) :
    ∃ n value t, advance serve n (program, s) = (.done value, t) := by
  induction program generalizing s with
  | done value => exact ⟨0, value, s, rfl⟩
  | call request next ih =>
      obtain ⟨n, value, t, ends⟩ := ih (serve request s).1 (serve request s).2
      exact ⟨n + 1, value, t, ends⟩

/-- The value of a program that is done. -/
def value? : Program I α → Option α
  | .done value => some value
  | .call _ _ => none

theorem eq_done {program : Program I α} {value : α} (is : program.value? = some value) :
    program = .done value := by
  cases program with
  | done other => exact congrArg Program.done (Option.some.inj is)
  | call request next => cases is

theorem evaluate_bind (program : Program I α) (rest : α → Program I β) (s : σ) :
    (program >>= rest).evaluate serve s =
      (rest (program.evaluate serve s).1).evaluate serve (program.evaluate serve s).2 := by
  induction program generalizing s with
  | done value => rfl
  | call request next ih =>
      rw [call_bind, evaluate, ih]
      rfl

end Evaluate

end Program

/-! ## Fallible programs -/

/-- A program that can leave early with an `ε`. -/
abbrev Fallible (ε : Type) (I : Interface) := ExceptT ε (Program I)

namespace Fallible

variable {ε : Type} {I : Interface} {α β : Type}

/-- One request, in a fallible program. -/
def perform (request : I.Request) : Fallible ε I (I.Reply request) :=
  ExceptT.mk (.call request fun reply => .done (.ok reply))

/-- The value a block ended with, early or not, as far as the failure is `caught`. -/
def attempt {δ : Type} (caught : ε → Except ε δ) (block : Fallible ε I α) :
    Fallible ε I (Except δ α) :=
  ExceptT.mk (block.run >>= fun result =>
    match result with
    | .ok value => .done (.ok (.ok value))
    | .error failure =>
        match caught failure with
        | .ok failure => .done (.ok (.error failure))
        | .error failure => .done (.error failure))

/-- `?` on a value that is already there. -/
def ofExcept (result : Except ε α) : Fallible ε I α :=
  ExceptT.mk (.done result)

section Evaluate

variable {σ : Type} {serve : (request : I.Request) → σ → I.Reply request × σ} {s t : σ}

theorem evaluate_ok {block : Fallible ε I α} {rest : α → Fallible ε I β} {value : α}
    (first : block.run.evaluate serve s = (.ok value, t)) :
    (block >>= rest).run.evaluate serve s = (rest value).run.evaluate serve t := by
  rw [ExceptT.run_bind, Program.evaluate_bind, first]

theorem evaluate_error {block : Fallible ε I α} {rest : α → Fallible ε I β} {error : ε}
    (first : block.run.evaluate serve s = (.error error, t)) :
    (block >>= rest).run.evaluate serve s = (.error error, t) := by
  rw [ExceptT.run_bind, Program.evaluate_bind, first]
  rfl

theorem evaluate_attempt_ok {δ : Type} {caught : ε → Except ε δ} {block : Fallible ε I α}
    {value : α} (first : block.run.evaluate serve s = (.ok value, t)) :
    (attempt caught block).run.evaluate serve s = (.ok (.ok value), t) := by
  refine (Program.evaluate_bind serve block.run _ s).trans ?_
  rw [first]
  rfl

theorem evaluate_attempt_error {δ : Type} {caught : ε → Except ε δ} {block : Fallible ε I α}
    {error : ε} {value : δ} (first : block.run.evaluate serve s = (.error error, t))
    (isCaught : caught error = .ok value) :
    (attempt caught block).run.evaluate serve s = (.ok (.error value), t) := by
  refine (Program.evaluate_bind serve block.run _ s).trans ?_
  rw [first]
  dsimp only
  rw [isCaught]
  rfl

end Evaluate

end Fallible

end Luhmen.Theory
