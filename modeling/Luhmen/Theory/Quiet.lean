/-
# Theory.Quiet -- requests that do not matter

Some requests of a program are beside its purpose: logging, clocks, saved progress.
`Erases quiet same p q` says that `q` is `p` without them: a quiet request is skipped, and
whatever its reply the program goes on the same way; any other is made by both; and the values
at the end are the `same`.

`Plays` is one transcript of a program.  What a program plays with its quiet requests, the
other one plays without them (`Erases.plays`), and the other way around (`Erases.played`).
-/
import Luhmen.Theory.Program

namespace Luhmen.Theory

set_option autoImplicit false

universe u

namespace Program

variable {I : Interface} {α α' β β' : Type u}

instance : LawfulMonad (Program I) := by
  refine LawfulMonad.mk' (Program I) ?_ (fun _ _ => rfl) ?_
  · intro α program
    induction program with
    | done value => rfl
    | call request next ih => exact congrArg (Program.call request) (funext ih)
  · intro α β γ program rest further
    induction program with
    | done value => rfl
    | call request next ih => exact congrArg (Program.call request) (funext ih)

/-- The second program makes the requests of the first that are not quiet. -/
inductive Erases (quiet : I.Request → Prop) (same : α → β → Prop) :
    Program I α → Program I β → Prop where
  | done {value : α} {value' : β} (isSame : same value value') :
      Erases quiet same (.done value) (.done value')
  | call (request : I.Request) {next : I.Reply request → Program I α}
      {next' : I.Reply request → Program I β}
      (after : ∀ reply, Erases quiet same (next reply) (next' reply)) :
      Erases quiet same (.call request next) (.call request next')
  | skip {request : I.Request} (isQuiet : quiet request) {next : I.Reply request → Program I α}
      {rest : Program I β} (after : ∀ reply, Erases quiet same (next reply) rest) :
      Erases quiet same (.call request next) rest

variable {quiet : I.Request → Prop} {same : α → α' → Prop} {same' : β → β' → Prop}

theorem Erases.refl {same : α → α → Prop} (reflexive : ∀ value, same value value)
    (program : Program I α) : Erases quiet same program program := by
  induction program with
  | done value => exact .done (reflexive value)
  | call request next ih => exact .call request ih

theorem Erases.bind {program : Program I α} {plain : Program I α'} {rest : α → Program I β}
    {rest' : α' → Program I β'} (erases : Erases quiet same program plain)
    (after : ∀ value value', same value value' → Erases quiet same' (rest value) (rest' value')) :
    Erases quiet same' (program >>= rest) (plain >>= rest') := by
  induction erases with
  | done isSame => exact after _ _ isSame
  | call request _ ih => exact .call request ih
  | skip isQuiet _ ih => exact .skip isQuiet ih

/-! ## Transcripts -/

/-- A request and its reply. -/
abbrev Exchange (I : Interface) := (request : I.Request) × I.Reply request

/-- The program gets so far with these replies. -/
inductive Plays : Program I α → List (Exchange I) → Program I α → Prop where
  | stop (program : Program I α) : Plays program [] program
  | call {request : I.Request} {next : I.Reply request → Program I α} {reply : I.Reply request}
      {transcript : List (Exchange I)} {rest : Program I α}
      (further : Plays (next reply) transcript rest) :
      Plays (.call request next) (⟨request, reply⟩ :: transcript) rest

/-- What is not quiet of a transcript. -/
def loud (quiet : I.Request → Prop) [DecidablePred quiet] (transcript : List (Exchange I)) :
    List (Exchange I) :=
  transcript.filter fun exchange => decide (¬ quiet exchange.1)

variable [DecidablePred quiet]

theorem loud_quiet {exchange : Exchange I} (isQuiet : quiet exchange.1)
    (transcript : List (Exchange I)) :
    loud quiet (exchange :: transcript) = loud quiet transcript :=
  List.filter_cons_of_neg (by simp [isQuiet])

theorem loud_other {exchange : Exchange I} (other : ¬ quiet exchange.1)
    (transcript : List (Exchange I)) :
    loud quiet (exchange :: transcript) = exchange :: loud quiet transcript :=
  List.filter_cons_of_pos (by simp [other])

section Erasure

variable {program : Program I α} {plain : Program I α'}
  (clean : Uses (fun request => ¬ quiet request) plain) (erases : Erases quiet same program plain)
include clean erases

/-- **Quiet requests do not matter.**  What is played with them is played without them. -/
theorem Erases.plays {transcript : List (Exchange I)} {rest : Program I α}
    (plays : Plays program transcript rest) :
    ∃ rest', Plays plain (loud quiet transcript) rest' ∧ Erases quiet same rest rest' := by
  induction plays generalizing plain with
  | stop program => exact ⟨plain, .stop plain, erases⟩
  | @call request next reply transcript rest further ih =>
      cases erases with
      | call _ after =>
          obtain ⟨rest', plays, erases⟩ := ih (clean.2 reply) (after reply)
          rw [loud_other clean.1]
          exact ⟨rest', .call plays, erases⟩
      | skip isQuiet after =>
          obtain ⟨rest', plays, erases⟩ := ih clean (after reply)
          rw [loud_quiet isQuiet]
          exact ⟨rest', plays, erases⟩

/-- Where the one ends the other does, with the same value. -/
theorem Erases.result {transcript : List (Exchange I)} {value : α}
    (plays : Plays program transcript (.done value)) :
    ∃ value', same value value' ∧ Plays plain (loud quiet transcript) (.done value') := by
  obtain ⟨rest, plays, ends⟩ := erases.plays clean plays
  cases ends with
  | done isSame => exact ⟨_, isSame, plays⟩

/-- And the other way around, whatever quiet requests are answered. -/
theorem Erases.played (answered : ∀ request, quiet request → Nonempty (I.Reply request))
    {transcript : List (Exchange I)} {value' : α'} (plays : Plays plain transcript (.done value')) :
    ∃ longer value, loud quiet longer = transcript ∧ same value value' ∧
      Plays program longer (.done value) := by
  induction erases generalizing transcript with
  | @done value _ isSame =>
      cases plays
      exact ⟨[], value, rfl, isSame, .stop _⟩
  | @call request next next' after ih =>
      cases plays with
      | @call _ _ reply further rest plays =>
          obtain ⟨longer, value, is, isSame, played⟩ := ih reply (clean.2 reply) plays
          refine ⟨⟨request, reply⟩ :: longer, value, ?_, isSame, .call played⟩
          rw [loud_other clean.1, is]
  | @skip request isQuiet next rest after ih =>
      obtain ⟨reply⟩ := answered request isQuiet
      obtain ⟨longer, value, is, isSame, played⟩ := ih reply clean plays
      refine ⟨⟨request, reply⟩ :: longer, value, ?_, isSame, .call played⟩
      rw [loud_quiet isQuiet, is]

end Erasure

end Program

/-! ## Fallible programs -/

namespace Fallible

open Program

variable {ε : Type} {I : Interface} {α α' β β' : Type} {quiet : I.Request → Prop}

/-- The same value, or the same failure. -/
def Same (same : α → α' → Prop) : Except ε α → Except ε α' → Prop
  | .ok value, .ok value' => same value value'
  | .error failure, .error failure' => failure = failure'
  | _, _ => False

theorem Same.eq {result result' : Except ε α} (isSame : Same Eq result result') :
    result = result' := by
  cases result with
  | ok value =>
      cases result' with
      | ok value' => exact congrArg Except.ok isSame
      | error failure => exact isSame.elim
  | error failure =>
      cases result' with
      | ok value => exact isSame.elim
      | error failure' => exact congrArg Except.error isSame

def Erases (quiet : I.Request → Prop) (same : α → α' → Prop) (block : Fallible ε I α)
    (plain : Fallible ε I α') : Prop :=
  Program.Erases quiet (Same same) block.run plain.run

variable {same : α → α' → Prop} {same' : β → β' → Prop}

theorem Erases.refl (block : Fallible ε I α) : Erases quiet Eq block block := by
  refine Program.Erases.refl (fun result => ?_) block.run
  cases result <;> rfl

theorem Erases.pure {value : α} {value' : α'} (isSame : same value value') :
    Erases quiet same (pure value : Fallible ε I α) (pure value') :=
  .done isSame

theorem Erases.bind {block : Fallible ε I α} {plain : Fallible ε I α'} {rest : α → Fallible ε I β}
    {rest' : α' → Fallible ε I β'} (erases : Erases quiet same block plain)
    (after : ∀ value value', same value value' → Erases quiet same' (rest value) (rest' value')) :
    Erases quiet same' (block >>= rest) (plain >>= rest') := by
  rw [Erases, ExceptT.run_bind, ExceptT.run_bind]
  refine Program.Erases.bind erases fun result result' isSame => ?_
  cases result with
  | ok value =>
      cases result' with
      | ok value' => exact after value value' isSame
      | error failure => exact isSame.elim
  | error failure =>
      cases result' with
      | ok value => exact isSame.elim
      | error failure' => exact .done isSame

/-- A block behind which nothing else is left. -/
theorem Erases.bind_plain {same' : β → α' → Prop} {block : Fallible ε I α} {plain : Fallible ε I α'}
    {rest : α → Fallible ε I β} (erases : Erases quiet same block plain)
    (after : ∀ value value', same value value' →
      Erases quiet same' (rest value) (Pure.pure value')) :
    Erases quiet same' (block >>= rest) plain := by
  rw [← bind_pure plain]
  exact erases.bind after

/-- A quiet request whose reply is not looked at. -/
theorem Erases.skip_perform {request : I.Request} (isQuiet : quiet request)
    {rest : I.Reply request → Fallible ε I β} {plain : Fallible ε I β'}
    (after : ∀ reply, Erases quiet same' (rest reply) plain) :
    Erases quiet same' (perform request >>= rest) plain :=
  .skip isQuiet after

/-- An attempt at quiet requests, however it ends. -/
theorem Erases.skip_attempt {block : Fallible ε I α} (uses : Uses quiet block.run)
    {rest : Except ε α → Fallible ε I β} {plain : Fallible ε I β'}
    (after : ∀ result, Erases quiet same' (rest result) plain) :
    Erases quiet same' (attempt .ok block >>= rest) plain := by
  have skips : ∀ program : Program I (Except ε α), Uses quiet program →
      Erases quiet same' (attempt .ok (ExceptT.mk program) >>= rest) plain := by
    intro program uses
    induction program with
    | done result => cases result <;> exact after _
    | call request next ih => exact .skip uses.1 fun reply => ih reply (uses.2 reply)
  exact skips block.run uses

/-- A block that is attempted by a caller which goes on with its value or fails as it did. -/
theorem Erases.attempted {same' : β → α → Prop} {block : Fallible ε I α}
    {rest : Except ε α → Fallible ε I β}
    (good : ∀ value, Erases quiet same' (rest (.ok value)) (Pure.pure value))
    (bad : ∀ failure, Erases quiet same' (rest (.error failure)) (throw failure)) :
    Erases quiet same' (attempt .ok block >>= rest) block := by
  have goes : ∀ program : Program I (Except ε α),
      Erases quiet same' (attempt .ok (ExceptT.mk program) >>= rest) (ExceptT.mk program) := by
    intro program
    induction program with
    | done result =>
        cases result with
        | ok value => exact good value
        | error failure => exact bad failure
    | call request next ih => exact .call request ih
  exact goes block.run

end Fallible

end Luhmen.Theory
