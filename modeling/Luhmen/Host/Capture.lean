/-
# Host.Capture -- waiting for a command and its output

`Runner::capture` reads the two pipes of a command until both are closed and then waits
for its leader, which it does not reap before.  That the leader exited it learns from
`try_wait` at the head of its loop; `SIGCHLD` only wakes it to look there again.

A state is the loop between two of its points, with the pipes, the processes that hold
them and the flag that a signal sets and `recv` clears.  The processes move at any time
(`Moves`), and the loop goes on where one of its branches is ready (`Acts`).  What is
invariant (`Inv`) is proved for each of the two, and from it what is true of every run.
-/
import Mathlib.Logic.Relation
import Luhmen.Theory.Bytes

set_option autoImplicit false

namespace Luhmen.Host.Capture

open Luhmen.Theory

def MAX_OUTPUT : Nat := 4 * 1024 * 1024

/-- The length of `output_chunk` and `error_chunk`. -/
def CHUNK : Nat := 8192

/-! ## Pipes -/

/-- A pipe with what was written to it and what of that is not read yet.  Its writing
end is held by the leader, which started with it, and by helpers that inherited it. -/
structure Pipe where
  written : Bytes
  unread : Bytes
  leader : Bool
  helpers : Nat

namespace Pipe

def Held (pipe : Pipe) : Prop :=
  pipe.leader = true ∨ 0 < pipe.helpers

/-- End of file: nothing is left, and nobody can write. -/
def AtEnd (pipe : Pipe) : Prop :=
  pipe.unread = [] ∧ ¬ pipe.Held

/-- What those do who hold the writing end. -/
inductive Moves (pipe : Pipe) : Pipe → Prop where
  | write (held : pipe.Held) (chunk : Bytes) :
      Moves pipe { pipe with written := pipe.written ++ chunk, unread := pipe.unread ++ chunk }
  | inherit (held : pipe.Held) : Moves pipe { pipe with helpers := pipe.helpers + 1 }
  | leave (held : 0 < pipe.helpers) : Moves pipe { pipe with helpers := pipe.helpers - 1 }
  | shut : Moves pipe { pipe with leader := false }

end Pipe

/-! ## The loop -/

/-- A stream of the command: its pipe, the vector of what was read, and whether it is
known to be closed. -/
structure Stream where
  pipe : Pipe
  bytes : Bytes
  closed : Bool

/-- A `read` of some size can return: with bytes, or with none at the end of file. -/
def Stream.Ready (stream : Stream) (size : Nat) : Prop :=
  stream.closed = false ∧
    (0 < size ∧ size ≤ CHUNK ∧ size ≤ stream.pipe.unread.length ∨
      size = 0 ∧ stream.pipe.AtEnd)

def Stream.take (stream : Stream) (size : Nat) : Stream where
  pipe := { stream.pipe with unread := stream.pipe.unread.drop size }
  bytes := stream.bytes ++ stream.pipe.unread.take size
  closed := size == 0

inductive Leader where
  | running
  | exited (status : Nat)
  | reaped (status : Nat)
deriving DecidableEq

/-- Where the loop is. -/
inductive Point where
  | head
  | select
  | returned (result : Except String (Nat × Bytes × Bytes))

structure State where
  stdout : Stream
  stderr : Stream
  leader : Leader
  flag : Bool
  point : Point

/-- The command was spawned, with the notification registered before. -/
structure Started (s : State) : Prop where
  stdout : s.stdout = ⟨⟨[], [], true, 0⟩, [], false⟩
  stderr : s.stderr = ⟨⟨[], [], true, 0⟩, [], false⟩
  leader : s.leader = .running
  point : s.point = .head

/-- What the processes do at any time.  A leader that exits leaves its pipes, and like
any other child that changes its state it sets the flag. -/
inductive Moves (s : State) : State → Prop where
  | stdout {pipe : Pipe} (moves : s.stdout.pipe.Moves pipe) :
      Moves s { s with stdout := { s.stdout with pipe } }
  | stderr {pipe : Pipe} (moves : s.stderr.pipe.Moves pipe) :
      Moves s { s with stderr := { s.stderr with pipe } }
  | exits (running : s.leader = .running) (status : Nat) :
      Moves s
        { s with
          stdout := { s.stdout with pipe := { s.stdout.pipe with leader := false } }
          stderr := { s.stderr with pipe := { s.stderr.pipe with leader := false } }
          leader := .exited status
          flag := true }
  | child : Moves s { s with flag := true }

/-- The errors with which a branch of the `select` ends the loop. -/
def selectErrors : List String :=
  ["operation cancelled", "dependency command timed out", "child exit notifications ended",
    "read dependency stdout", "read dependency stderr"]

def overflow : String := "dependency command exceeded 4 MiB output limit"

/-- What the loop does: `try_wait`, which can fail, at the head where both streams are
closed, and one branch of the `select`. -/
inductive Acts (s : State) : State → Prop where
  | reaps {status : Nat} (here : s.point = .head) (stdout : s.stdout.closed = true)
      (stderr : s.stderr.closed = true) (exited : s.leader = .exited status) :
      Acts s
        { s with
          leader := .reaped status
          point := .returned (.ok (status, s.stdout.bytes, s.stderr.bytes)) }
  | waits (here : s.point = .head)
      (unfinished : ¬ (s.stdout.closed = true ∧ s.stderr.closed = true ∧
        s.leader ≠ .running)) :
      Acts s { s with point := .select }
  | unwaited (message : String) (here : s.point = .head) (stdout : s.stdout.closed = true)
      (stderr : s.stderr.closed = true) :
      Acts s { s with point := .returned (.error message) }
  | notified (here : s.point = .select) (flag : s.flag = true) :
      Acts s { s with flag := false, point := .head }
  | readStdout {size : Nat} (here : s.point = .select) (ready : s.stdout.Ready size)
      (fits : s.stdout.bytes.length + s.stderr.bytes.length + size ≤ MAX_OUTPUT) :
      Acts s { s with stdout := s.stdout.take size, point := .head }
  | readStderr {size : Nat} (here : s.point = .select) (ready : s.stderr.Ready size)
      (fits : s.stdout.bytes.length + s.stderr.bytes.length + size ≤ MAX_OUTPUT) :
      Acts s { s with stderr := s.stderr.take size, point := .head }
  | overflows {size : Nat} (here : s.point = .select)
      (ready : s.stdout.Ready size ∨ s.stderr.Ready size)
      (large : MAX_OUTPUT < s.stdout.bytes.length + s.stderr.bytes.length + size) :
      Acts s { s with point := .returned (.error overflow) }
  | fails {message : String} (here : s.point = .select) (error : message ∈ selectErrors) :
      Acts s { s with point := .returned (.error message) }

def Step (s t : State) : Prop :=
  Moves s t ∨ Acts s t

/-- A state of some run of a command. -/
def Reachable (s : State) : Prop :=
  ∃ start, Started start ∧ Relation.ReflTransGen Step start s

theorem Reachable.moves {s t : State} (reachable : Reachable s) (moves : Moves s t) :
    Reachable t := by
  obtain ⟨start, started, run⟩ := reachable
  exact ⟨start, started, run.tail (.inl moves)⟩

theorem Reachable.acts {s t : State} (reachable : Reachable s) (acts : Acts s t) :
    Reachable t := by
  obtain ⟨start, started, run⟩ := reachable
  exact ⟨start, started, run.tail (.inr acts)⟩

/-- The loop is in its `select` and no `read` of it can return. -/
def Blocked (s : State) : Prop :=
  s.point = .select ∧ (∀ size, ¬ s.stdout.Ready size) ∧ ∀ size, ¬ s.stderr.Ready size

/-! ## What is invariant -/

/-- What was read and what was not is all that was written; a closed stream is at its
end. -/
structure Stream.Whole (stream : Stream) : Prop where
  whole : stream.bytes ++ stream.pipe.unread = stream.pipe.written
  ended : stream.closed = true → stream.pipe.AtEnd

structure Inv (s : State) : Prop where
  stdout : s.stdout.Whole
  stderr : s.stderr.Whole
  limit : s.stdout.bytes.length + s.stderr.bytes.length ≤ MAX_OUTPUT
  reaped : ∀ status, s.leader = .reaped status →
    s.stdout.closed = true ∧ s.stderr.closed = true ∧
      s.point = .returned (.ok (status, s.stdout.bytes, s.stderr.bytes))
  returned : ∀ status stdout stderr, s.point = .returned (.ok (status, stdout, stderr)) →
    s.leader = .reaped status ∧ stdout = s.stdout.bytes ∧ stderr = s.stderr.bytes
  woken : s.point = .select → s.stdout.closed = true → s.stderr.closed = true →
    s.leader ≠ .running → s.flag = true

/-! ### Streams -/

theorem Pipe.AtEnd.shut {pipe : Pipe} (ended : pipe.AtEnd) :
    ({ pipe with leader := false } : Pipe).AtEnd := by
  refine ⟨ended.1, ?_⟩
  rintro (leader | helper)
  · cases leader
  · exact ended.2 (.inr helper)

theorem Stream.Whole.shut {stream : Stream} (whole : stream.Whole) :
    ({ stream with pipe := { stream.pipe with leader := false } } : Stream).Whole :=
  ⟨whole.whole, fun closed => (whole.ended closed).shut⟩

/-- Nobody moves a pipe that is at its end, except to let go of it again. -/
theorem Stream.Whole.moves {stream : Stream} {pipe : Pipe} (whole : stream.Whole)
    (moves : stream.pipe.Moves pipe) : ({ stream with pipe } : Stream).Whole := by
  cases moves with
  | write held chunk =>
    refine ⟨?_, fun closed => absurd held (whole.ended closed).2⟩
    show stream.bytes ++ (stream.pipe.unread ++ chunk) = stream.pipe.written ++ chunk
    rw [← List.append_assoc, whole.whole]
  | inherit held => exact ⟨whole.whole, fun closed => absurd held (whole.ended closed).2⟩
  | leave held => exact ⟨whole.whole, fun closed => absurd (.inr held) (whole.ended closed).2⟩
  | shut => exact whole.shut

/-- What is read moves from one side to the other. -/
theorem Stream.Whole.take {stream : Stream} {size : Nat} (whole : stream.Whole)
    (ready : stream.Ready size) : (stream.take size).Whole := by
  refine ⟨?_, fun closed => ?_⟩
  · show stream.bytes ++ stream.pipe.unread.take size ++ stream.pipe.unread.drop size = _
    rw [List.append_assoc, List.take_append_drop, whole.whole]
    rfl
  · have none : size = 0 := by simpa [Stream.take] using closed
    subst none
    rcases ready.2 with ⟨some, -⟩ | ⟨-, ended⟩
    · exact absurd some (Nat.lt_irrefl 0)
    · exact ended

theorem Stream.take_length {stream : Stream} {size : Nat} (ready : stream.Ready size) :
    (stream.take size).bytes.length = stream.bytes.length + size := by
  show (stream.bytes ++ stream.pipe.unread.take size).length = _
  rw [List.length_append, List.length_take]
  rcases ready.2 with ⟨-, -, enough⟩ | ⟨rfl, -⟩
  · rw [Nat.min_eq_left enough]
  · rw [Nat.zero_min]

/-! ### Steps -/

theorem inv_started {s : State} (started : Started s) : Inv s := by
  obtain ⟨⟨stdout, outBytes, outClosed⟩, ⟨stderr, errBytes, errClosed⟩, leader, flag, point⟩ := s
  obtain ⟨isOut, isErr, isLeader, isPoint⟩ := started
  cases isOut
  cases isErr
  cases isLeader
  cases isPoint
  refine ⟨⟨rfl, fun closed => ?_⟩, ⟨rfl, fun closed => ?_⟩, Nat.zero_le _, fun _ is => ?_,
    fun _ _ _ is => ?_, fun is => ?_⟩
  · cases closed
  · cases closed
  · cases is
  · cases is
  · cases is

/-- The processes change neither what was read nor where the loop is, and whoever exits
sets the flag. -/
theorem Moves.inv {s t : State} (moves : Moves s t) (inv : Inv s) : Inv t := by
  cases moves with
  | stdout moves =>
    exact ⟨inv.stdout.moves moves, inv.stderr, inv.limit, inv.reaped, inv.returned, inv.woken⟩
  | stderr moves =>
    exact ⟨inv.stdout, inv.stderr.moves moves, inv.limit, inv.reaped, inv.returned, inv.woken⟩
  | exits running status =>
    refine ⟨inv.stdout.shut, inv.stderr.shut, inv.limit, fun _ is => ?_, fun _ _ _ is => ?_,
      fun _ _ _ _ => rfl⟩
    · cases is
    · have reaped := (inv.returned _ _ _ is).1
      rw [running] at reaped
      cases reaped
  | child =>
    exact ⟨inv.stdout, inv.stderr, inv.limit, inv.reaped, inv.returned, fun _ _ _ _ => rfl⟩

/-- At the head and in the `select` the leader is not reaped. -/
theorem Inv.not_reaped {s : State} (inv : Inv s) (here : s.point = .head ∨ s.point = .select)
    (status : Nat) : s.leader ≠ .reaped status := by
  intro reaped
  have returned := (inv.reaped status reaped).2.2
  rcases here with here | here
  · rw [here] at returned
    cases returned
  · rw [here] at returned
    cases returned

/-- The loop goes back to its head with another part of the streams. -/
theorem Inv.to_head {s t : State} (inv : Inv s) (here : s.point = .select)
    (stdout : t.stdout.Whole) (stderr : t.stderr.Whole)
    (limit : t.stdout.bytes.length + t.stderr.bytes.length ≤ MAX_OUTPUT)
    (leader : t.leader = s.leader) (point : t.point = .head) : Inv t := by
  refine ⟨stdout, stderr, limit, fun status reaped => ?_, fun _ _ _ is => ?_, fun is => ?_⟩
  · rw [leader] at reaped
    exact absurd reaped (inv.not_reaped (.inr here) status)
  · rw [point] at is
    cases is
  · rw [point] at is
    cases is

/-- The loop ends with an error. -/
theorem Inv.to_error {s : State} (inv : Inv s) (here : s.point = .head ∨ s.point = .select)
    (message : String) : Inv { s with point := .returned (.error message) } := by
  refine ⟨inv.stdout, inv.stderr, inv.limit, fun status reaped => ?_, fun _ _ _ is => ?_,
    fun is => ?_⟩
  · exact absurd reaped (inv.not_reaped here status)
  · cases is
  · cases is

theorem Acts.inv {s t : State} (acts : Acts s t) (inv : Inv s) : Inv t := by
  cases acts with
  | reaps here stdout stderr exited =>
    refine ⟨inv.stdout, inv.stderr, inv.limit, fun status is => ?_, fun _ _ _ is => ?_,
      fun is => ?_⟩
    · cases is
      exact ⟨stdout, stderr, rfl⟩
    · cases is
      exact ⟨rfl, rfl, rfl⟩
    · cases is
  | waits here unfinished =>
    refine ⟨inv.stdout, inv.stderr, inv.limit, fun status is => ?_, fun _ _ _ is => ?_, ?_⟩
    · exact absurd is (inv.not_reaped (.inl here) status)
    · cases is
    · -- the leader was running when `try_wait` looked
      exact fun _ stdout stderr exited => absurd ⟨stdout, stderr, exited⟩ unfinished
  | unwaited message here => exact inv.to_error (.inl here) message
  | notified here => exact inv.to_head here inv.stdout inv.stderr inv.limit rfl rfl
  | readStdout here ready fits =>
    refine inv.to_head here (inv.stdout.take ready) inv.stderr ?_ rfl rfl
    show (s.stdout.take _).bytes.length + s.stderr.bytes.length ≤ MAX_OUTPUT
    rw [Stream.take_length ready]
    omega
  | readStderr here ready fits =>
    refine inv.to_head here inv.stdout (inv.stderr.take ready) ?_ rfl rfl
    show s.stdout.bytes.length + (s.stderr.take _).bytes.length ≤ MAX_OUTPUT
    rw [Stream.take_length ready]
    omega
  | overflows here => exact inv.to_error (.inr here) overflow
  | fails here => exact inv.to_error (.inr here) _

theorem inv_of_reachable {s : State} (reachable : Reachable s) : Inv s := by
  obtain ⟨start, started, run⟩ := reachable
  induction run with
  | refl => exact inv_started started
  | tail _ step ih =>
    rcases step with moves | acts
    · exact moves.inv ih
    · exact acts.inv ih

/-! ## Every run -/

/-- A stream at its end can be read once more, if that is not known. -/
theorem closed_of_blocked {stream : Stream} (blocked : ∀ size, ¬ stream.Ready size)
    (ended : stream.pipe.AtEnd) : stream.closed = true := by
  cases closed : stream.closed with
  | true => rfl
  | false => exact absurd ⟨closed, .inr ⟨rfl, ended⟩⟩ (blocked 0)

theorem Stream.Whole.bytes_eq {stream : Stream} (whole : stream.Whole)
    (closed : stream.closed = true) : stream.bytes = stream.pipe.written := by
  have all := whole.whole
  rw [(whole.ended closed).1, List.append_nil] at all
  exact all

/-- **No wakeup is lost and no output.**  Where a finished command finds the loop blocked
the flag is set, and after the `recv` the loop returns.  What it returns is all that was
written to the two pipes, and it reaps the leader when both are at their end. -/
theorem capture_complete {s : State} (reachable : Reachable s) :
    (Blocked s → s.stdout.pipe.AtEnd → s.stderr.pipe.AtEnd → s.leader ≠ .running →
      s.flag = true ∧ ∃ status t u, Acts s t ∧ Acts t u ∧
        u.point = .returned (.ok (status, s.stdout.pipe.written, s.stderr.pipe.written))) ∧
    (∀ status stdout stderr, s.point = .returned (.ok (status, stdout, stderr)) →
      stdout = s.stdout.pipe.written ∧ stderr = s.stderr.pipe.written ∧
        ¬ s.stdout.pipe.Held ∧ ¬ s.stderr.pipe.Held ∧
        stdout.length + stderr.length ≤ MAX_OUTPUT) ∧
    ∀ status, s.leader = .reaped status → s.stdout.pipe.AtEnd ∧ s.stderr.pipe.AtEnd := by
  have inv := inv_of_reachable reachable
  refine ⟨?_, ?_, ?_⟩
  · rintro ⟨here, stdout, stderr⟩ outEnd errEnd exited
    have outClosed := closed_of_blocked stdout outEnd
    have errClosed := closed_of_blocked stderr errEnd
    have flag := inv.woken here outClosed errClosed exited
    refine ⟨flag, ?_⟩
    cases leader : s.leader with
    | running => exact absurd leader exited
    | reaped status => exact absurd leader (inv.not_reaped (.inr here) status)
    | exited status =>
      refine ⟨status, _, _, .notified here flag, .reaps rfl outClosed errClosed leader, ?_⟩
      rw [← inv.stdout.bytes_eq outClosed, ← inv.stderr.bytes_eq errClosed]
  · intro status stdout stderr returned
    obtain ⟨reaped, rfl, rfl⟩ := inv.returned status stdout stderr returned
    obtain ⟨outClosed, errClosed, -⟩ := inv.reaped status reaped
    exact ⟨inv.stdout.bytes_eq outClosed, inv.stderr.bytes_eq errClosed,
      (inv.stdout.ended outClosed).2, (inv.stderr.ended errClosed).2, inv.limit⟩
  · intro status reaped
    obtain ⟨outClosed, errClosed, -⟩ := inv.reaped status reaped
    exact ⟨inv.stdout.ended outClosed, inv.stderr.ended errClosed⟩

/-- What the command writes to each of its streams. -/
def printed : Bytes := ascii "ok"
def warned : Bytes := ascii "late"

/-- A command that wrote to both streams, closed them and then exited with 7, when the loop
has looked for it in vain. -/
def closedFirst : State where
  stdout := ⟨⟨printed, [], false, 0⟩, printed, true⟩
  stderr := ⟨⟨warned, [], false, 0⟩, warned, true⟩
  leader := .exited 7
  flag := true
  point := .select

theorem closedFirst_blocked : Blocked closedFirst := by
  refine ⟨rfl, fun size ready => ?_, fun size ready => ?_⟩
  · cases ready.1
  · cases ready.1

theorem closedFirst_outEnd : closedFirst.stdout.pipe.AtEnd := by
  refine ⟨rfl, ?_⟩
  rintro (leader | helper)
  · cases leader
  · exact absurd helper (Nat.lt_irrefl 0)

theorem closedFirst_errEnd : closedFirst.stderr.pipe.AtEnd := by
  refine ⟨rfl, ?_⟩
  rintro (leader | helper)
  · cases leader
  · exact absurd helper (Nat.lt_irrefl 0)

theorem closedFirst_reachable : Reachable closedFirst := by
  have spawned : Reachable ⟨⟨⟨[], [], true, 0⟩, [], false⟩, ⟨⟨[], [], true, 0⟩, [], false⟩,
      .running, false, .head⟩ := ⟨_, ⟨rfl, rfl, rfl, rfl⟩, .refl⟩
  have wrote := (spawned.moves (.stdout (.write (.inl rfl) printed))).moves
    (.stderr (.write (.inl rfl) warned))
  have waiting := wrote.acts (.waits rfl fun all => nomatch all.1)
  have outRead := waiting.acts
    (@Acts.readStdout _ 2 rfl ⟨rfl, .inl (by decide)⟩ (by decide))
  have shut := (outRead.moves (.stdout .shut)).moves (.stderr .shut)
  have second := shut.acts (.waits rfl fun all => nomatch all.1)
  have outEnded := second.acts
    (@Acts.readStdout _ 0 rfl ⟨rfl, .inr ⟨rfl, closedFirst_outEnd⟩⟩ (by decide))
  have third := outEnded.acts (.waits rfl fun all => nomatch all.2.1)
  have errRead := third.acts
    (@Acts.readStderr _ 4 rfl ⟨rfl, .inl (by decide)⟩ (by decide))
  have fourth := errRead.acts (.waits rfl fun all => nomatch all.2.1)
  have errEnded := fourth.acts
    (@Acts.readStderr _ 0 rfl ⟨rfl, .inr ⟨rfl, closedFirst_errEnd⟩⟩ (by decide))
  -- both streams are closed, and the leader still runs
  have unfinished := errEnded.acts (.waits rfl fun all => all.2.2 rfl)
  exact unfinished.moves (.exits rfl 7)

theorem capture_complete_closedFirst : closedFirst.flag = true ∧
    ∃ status t u, Acts closedFirst t ∧ Acts t u ∧
      u.point = .returned (.ok (status, printed, warned)) :=
  (capture_complete closedFirst_reachable).1 closedFirst_blocked closedFirst_outEnd
    closedFirst_errEnd (by decide)

end Luhmen.Host.Capture
