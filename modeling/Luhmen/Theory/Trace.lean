/-
# Theory.Trace -- runs that note what they rely on

A `Traced` run has its result and, beside it, the events it went through: an index that
has to be in range, a loop that has to get on.  What is noted has no influence on the
result; a failure ends the run and keeps what was noted before it.

`Meets safe run post` is the triple: every event is safe, no failure is a panic or a
loop without end, and a value that is returned satisfies `post`.
-/
import Luhmen.Theory.Outcome

namespace Luhmen.Theory

set_option autoImplicit false

structure Traced (E α : Type) where
  events : List E
  result : Result α

namespace Traced

variable {E α β : Type}

def bind (run : Traced E α) (rest : α → Traced E β) : Traced E β :=
  match run.result with
  | .error failure => ⟨run.events, .error failure⟩
  | .ok value => ⟨run.events ++ (rest value).events, (rest value).result⟩

instance : Monad (Traced E) where
  pure value := ⟨[], .ok value⟩
  bind := bind

def note (event : E) : Traced E Unit :=
  ⟨[event], .ok ()⟩

/-- What notes nothing. -/
def plain (result : Result α) : Traced E α :=
  ⟨[], result⟩

@[simp] theorem result_pure (value : α) : (pure value : Traced E α).result = .ok value := rfl

@[simp] theorem result_note (event : E) : (note event).result = .ok () := rfl

@[simp] theorem result_plain (result : Result α) : (plain result : Traced E α).result = result := rfl

theorem result_bind (run : Traced E α) (rest : α → Traced E β) :
    (run >>= rest).result = run.result >>= fun value => (rest value).result := by
  show (bind run rest).result = _
  unfold bind
  cases run.result <;> rfl

/-- The result of what follows a run that returned. -/
theorem result_bind_ok {run : Traced E α} {rest : α → Traced E β} {value : α}
    (returned : run.result = .ok value) : (run >>= rest).result = (rest value).result := by
  rw [result_bind, returned]
  rfl

/-! ## Safe runs -/

/-- How a run may end. -/
def Ends (post : α → Prop) : Result α → Prop
  | .ok value => post value
  | .error (.error _) => True
  | .error .panic | .error .diverges => False

structure Meets (safe : E → Prop) (run : Traced E α) (post : α → Prop) : Prop where
  events : ∀ event ∈ run.events, safe event
  ends : Ends post run.result

variable {safe : E → Prop} {run : Traced E α} {post : α → Prop}

theorem Meets.pure {value : α} (holds : post value) : Meets safe (Pure.pure value) post :=
  ⟨fun _ member => (nomatch member), holds⟩

theorem Meets.fail (message : String) :
    Meets safe (plain (Theory.fail message) : Traced E α) post :=
  ⟨fun _ member => (nomatch member), trivial⟩

theorem Meets.note {event : E} (isSafe : safe event) : Meets safe (note event) fun _ => True :=
  ⟨fun _ member => List.mem_singleton.1 member ▸ isSafe, trivial⟩

theorem Meets.bind {rest : α → Traced E β} {result : β → Prop} (first : Meets safe run post)
    (second : ∀ value, run.result = .ok value → post value → Meets safe (rest value) result) :
    Meets safe (run >>= rest) result := by
  show Meets safe (Traced.bind run rest) result
  have events := first.events
  have ends := first.ends
  unfold Traced.bind
  cases returned : run.result with
  | error failure =>
      rw [returned] at ends
      refine ⟨events, ?_⟩
      cases failure with
      | error message => trivial
      | panic => exact ends
      | diverges => exact ends
  | ok value =>
      rw [returned] at ends
      have further := second value returned ends
      refine ⟨fun event member => ?_, further.ends⟩
      rcases List.mem_append.1 member with before | behind
      · exact events event before
      · exact further.events event behind

/-- A note before the rest of a run. -/
theorem Meets.noted {event : E} {rest : Unit → Traced E α} (isSafe : safe event)
    (second : Meets safe (rest ()) post) :
    Meets safe (Traced.note event >>= rest) post :=
  (Meets.note isSafe).bind fun _ _ _ => second

theorem Meets.mono {wider : α → Prop} (implies : ∀ value, post value → wider value)
    (meets : Meets safe run post) : Meets safe run wider := by
  refine ⟨meets.events, ?_⟩
  have ends := meets.ends
  cases returned : run.result with
  | ok value =>
      rw [returned] at ends
      exact implies value ends
  | error failure =>
      rw [returned] at ends
      cases failure with
      | error message => trivial
      | panic => exact ends
      | diverges => exact ends

/-- The only failures are errors with a message. -/
theorem Meets.total (meets : Meets safe run post) :
    run.result ≠ .error .panic ∧ run.result ≠ .error .diverges := by
  have ends := meets.ends
  constructor
  · intro panics
    rw [panics] at ends
    exact ends
  · intro loops
    rw [loops] at ends
    exact ends

end Traced

end Luhmen.Theory
