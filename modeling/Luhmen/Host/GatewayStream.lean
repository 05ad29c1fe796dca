/-
# Host.GatewayStream -- a response body as it is polled

`GatewayBody` is a body around another one: `poll_frame` polls its source until that has
a frame of data, an end, an error or nothing yet, and lets no more than the rest of the
limit through.  What the upstream will answer to the polls of its body is a list of
events and, behind them, an end or an error.

A client polls until it is told that the body ended or failed (`receive`).
`receive_streaming` says what it has then, and what it has after any number of polls.
-/
import Luhmen.Host.Gateway

set_option autoImplicit false

namespace Luhmen.Host.GatewayStream

open Luhmen.Theory
open Luhmen.Host.Gateway (MAX_BODY_BYTES)

/-! ## Polling -/

inductive Poll (α : Type) where
  | pending
  | ready (value : α)

inductive Frame where
  | data (chunk : Bytes)
  | trailers
deriving DecidableEq

inductive BodyError where
  | timedOut
  | upstream
  | exceeded
deriving DecidableEq

/-- What the gateway says itself; the upstream's error has its own text. -/
def BodyError.message : BodyError → Option String
  | .timedOut => some "gateway exchange exceeded 30 seconds"
  | .upstream => none
  | .exceeded => some "body exceeds 8 MiB"

/-- One answer of the upstream's body that is not its last. -/
inductive Event where
  | pending
  | data (chunk : Bytes)
  | trailers
deriving DecidableEq

/-- The last answer, which is given again if it is asked for again. -/
inductive Final where
  | ended
  | failed
deriving DecidableEq

/-- A buffer that is not read yet or is, or what the upstream has still to answer. -/
inductive BodySource where
  | buffered (bytes : Option Bytes)
  | streaming (events : List Event) (final : Final)

structure GatewayBody where
  source : BodySource
  remaining : Nat
  deadline : Bool

namespace GatewayBody

def buffered (bytes : Bytes) : GatewayBody where
  source := .buffered (if bytes = [] then none else some bytes)
  remaining := MAX_BODY_BYTES
  deadline := false

def streaming (events : List Event) (final : Final) : GatewayBody where
  source := .streaming events final
  remaining := MAX_BODY_BYTES
  deadline := true

/-- The answer to a poll. -/
abbrev Answer := Poll (Option (Except BodyError Frame))

/-- What is done with data of the source, which is then `source`. -/
def deliver (body : GatewayBody) (source : BodySource) (bytes : Bytes) : Answer × GatewayBody :=
  if body.remaining < bytes.length then (.ready (some (.error .exceeded)), { body with source })
  else
    (.ready (some (.ok (.data bytes))),
      { body with source, remaining := body.remaining - bytes.length })

/-- The loop of `poll_frame` over a streaming source; trailers are dropped. -/
def pollStreaming (body : GatewayBody) (final : Final) : List Event → Answer × GatewayBody
  | [] =>
    (match final with
      | .ended => .ready none
      | .failed => .ready (some (.error .upstream)),
      { body with source := .streaming [] final })
  | .pending :: rest => (.pending, { body with source := .streaming rest final })
  | .trailers :: rest => pollStreaming body final rest
  | .data bytes :: rest => body.deliver (.streaming rest final) bytes

/-- `poll_frame`; `expired` says whether a deadline has passed. -/
def pollFrame (body : GatewayBody) (expired : Bool) : Answer × GatewayBody :=
  if body.deadline && expired then (.ready (some (.error .timedOut)), body)
  else
    match body.source with
    | .buffered none => (.ready none, body)
    | .buffered (some bytes) => body.deliver (.buffered none) bytes
    | .streaming events final => body.pollStreaming final events

end GatewayBody

/-! ## A client -/

inductive Outcome where
  | waiting
  | ended
  | failed (error : BodyError)
deriving DecidableEq

structure Received where
  frames : List Frame
  outcome : Outcome

/-- What some polls give while the deadline has not passed; the first end or error is
the last poll. -/
def receive : Nat → GatewayBody → Received
  | 0, _ => ⟨[], .waiting⟩
  | polls + 1, body =>
    match body.pollFrame false with
    | (.pending, body) => receive polls body
    | (.ready none, _) => ⟨[], .ended⟩
    | (.ready (some (.error error)), _) => ⟨[], .failed error⟩
    | (.ready (some (.ok frame)), body) =>
      let received := receive polls body
      ⟨frame :: received.frames, received.outcome⟩

/-- The data frames of the upstream. -/
def dataFrames (events : List Event) : List Bytes :=
  events.filterMap fun
    | .data chunk => some chunk
    | _ => none

def total (chunks : List Bytes) : Nat :=
  chunks.flatten.length

/-! ## One poll -/

/-- All that a poll of a streaming source can be: its last answer, if there is no data
left; nothing yet; or its next data. -/
theorem pollStreaming_cases (body : GatewayBody) (final : Final) (events : List Event) :
    (dataFrames events = [] ∧
      body.pollStreaming final events =
        (match final with
          | .ended => .ready none
          | .failed => .ready (some (.error .upstream)),
          { body with source := .streaming [] final })) ∨
    (∃ rest, rest.length < events.length ∧ dataFrames events = dataFrames rest ∧
      body.pollStreaming final events = (.pending, { body with source := .streaming rest final })) ∨
    ∃ rest bytes, rest.length < events.length ∧ dataFrames events = bytes :: dataFrames rest ∧
      body.pollStreaming final events = body.deliver (.streaming rest final) bytes := by
  induction events with
  | nil => exact .inl ⟨rfl, rfl⟩
  | cons event rest ih =>
    cases event with
    | pending => exact .inr (.inl ⟨rest, Nat.lt_succ_self _, rfl, rfl⟩)
    | data bytes => exact .inr (.inr ⟨rest, bytes, Nat.lt_succ_self _, rfl, rfl⟩)
    | trailers =>
      rcases ih with ⟨none, last⟩ | ⟨later, shorter, same, waits⟩ | ⟨later, bytes, shorter, same, has⟩
      · exact .inl ⟨none, last⟩
      · exact .inr (.inl ⟨later, Nat.lt_succ_of_lt shorter, same, waits⟩)
      · exact .inr (.inr ⟨later, bytes, Nat.lt_succ_of_lt shorter, same, has⟩)

/-! ## Every sequence of polls -/

theorem total_cons (bytes : Bytes) (chunks : List Bytes) :
    total (bytes :: chunks) = bytes.length + total chunks := by
  rw [total, List.flatten_cons, List.length_append, total]

/-- What was received of a body with `remaining` bytes of the limit left. -/
structure Streamed (events : List Event) (final : Final) (remaining polls : Nat)
    (received : Received) (chunks : List Bytes) : Prop where
  frames : received.frames = chunks.map Frame.data
  first : chunks <+: dataFrames events
  limit : total chunks ≤ remaining
  ended : received.outcome = .ended → final = .ended ∧ chunks = dataFrames events
  failed : ∀ error, received.outcome = .failed error →
    error = .exceeded ∧ remaining < total (dataFrames events) ∨
      error = .upstream ∧ final = .failed ∧ total (dataFrames events) ≤ remaining
  finishes : events.length < polls → received.outcome ≠ .waiting

/-- By induction on the polls, each of which has one of three answers. -/
theorem receive_streamed (polls : Nat) :
    ∀ (body : GatewayBody) (events : List Event) (final : Final),
      body.source = .streaming events final →
      ∃ chunks, Streamed events final body.remaining polls (receive polls body) chunks := by
  induction polls with
  | zero =>
    intro body events final _
    refine ⟨[], rfl, List.nil_prefix, Nat.zero_le _, ?_, ?_, ?_⟩
    · exact fun ended => by cases ended
    · exact fun _ failed => by cases failed
    · exact fun none => absurd none (Nat.not_lt_zero _)
  | succ polls ih =>
    intro body events final isSource
    have polled : body.pollFrame false = body.pollStreaming final events := by
      unfold GatewayBody.pollFrame
      rw [Bool.and_false, if_neg (by decide), isSource]
    unfold receive
    rw [polled]
    rcases pollStreaming_cases body final events with
      ⟨none, last⟩ | ⟨rest, shorter, same, waits⟩ | ⟨rest, bytes, shorter, same, has⟩
    · rw [last]
      cases final with
      | ended =>
        refine ⟨[], rfl, List.nil_prefix, Nat.zero_le _, ?_, ?_, ?_⟩
        · exact fun _ => ⟨rfl, none.symm⟩
        · exact fun _ failed => by cases failed
        · exact fun _ waiting => by cases waiting
      | failed =>
        refine ⟨[], rfl, List.nil_prefix, Nat.zero_le _, ?_, ?_, ?_⟩
        · exact fun ended => by cases ended
        · intro error failed
          cases failed
          rw [none]
          exact .inr ⟨rfl, rfl, Nat.zero_le _⟩
        · exact fun _ waiting => by cases waiting
    · rw [waits]
      obtain ⟨chunks, streamed⟩ := ih { body with source := .streaming rest final } rest final rfl
      refine ⟨chunks, streamed.frames, ?_, streamed.limit, ?_, ?_, ?_⟩
      · rw [same]
        exact streamed.first
      · rw [same]
        exact streamed.ended
      · rw [same]
        exact streamed.failed
      · exact fun enough => streamed.finishes (by omega)
    · rw [has]
      unfold GatewayBody.deliver
      by_cases large : body.remaining < bytes.length
      · rw [if_pos large]
        refine ⟨[], rfl, List.nil_prefix, Nat.zero_le _, ?_, ?_, ?_⟩
        · exact fun ended => by cases ended
        · intro error failed
          cases failed
          rw [same, total_cons]
          exact .inl ⟨rfl, by omega⟩
        · exact fun _ waiting => by cases waiting
      · rw [if_neg large]
        obtain ⟨chunks, streamed⟩ := ih
          { body with
            source := .streaming rest final
            remaining := body.remaining - bytes.length } rest final rfl
        have limit : total chunks ≤ body.remaining - bytes.length := streamed.limit
        refine ⟨bytes :: chunks, congrArg _ streamed.frames, ?_, ?_, ?_, ?_, ?_⟩
        · rw [same]
          exact List.cons_prefix_cons.2 ⟨rfl, streamed.first⟩
        · rw [total_cons]
          omega
        · intro ended
          obtain ⟨isEnd, all⟩ := streamed.ended ended
          exact ⟨isEnd, by rw [all, same]⟩
        · intro error failed
          rw [same, total_cons]
          rcases streamed.failed error failed with ⟨exceeded, more⟩ | ⟨upstream, isFailed, fits⟩
          · have more : body.remaining - bytes.length < total (dataFrames rest) := more
            exact .inl ⟨exceeded, by omega⟩
          · have fits : total (dataFrames rest) ≤ body.remaining - bytes.length := fits
            exact .inr ⟨upstream, isFailed, by omega⟩
        · exact fun enough => streamed.finishes (by omega)

/-- **A response is streamed as an exact prefix inside the limit.**  After any number of
polls before the deadline the client has the first data frames of the upstream, as they
are and no trailers, and no more than the limit.  It is told that the body ended just if
the upstream ended it and all of it was inside the limit; what goes beyond the limit
makes the body fail; and enough polls bring one or the other. -/
theorem receive_streaming (events : List Event) (final : Final) (polls : Nat) :
    ∃ chunks, (receive polls (.streaming events final)).frames = chunks.map Frame.data ∧
      chunks <+: dataFrames events ∧ total chunks ≤ MAX_BODY_BYTES ∧
      ((receive polls (.streaming events final)).outcome = .ended →
        chunks = dataFrames events) ∧
      ((receive polls (.streaming events final)).outcome ≠ .waiting →
        ((receive polls (.streaming events final)).outcome = .ended ↔
          final = .ended ∧ total (dataFrames events) ≤ MAX_BODY_BYTES) ∧
        (MAX_BODY_BYTES < total (dataFrames events) →
          (receive polls (.streaming events final)).outcome = .failed .exceeded)) ∧
      (events.length < polls →
        (receive polls (.streaming events final)).outcome ≠ .waiting) := by
  obtain ⟨chunks, streamed⟩ := receive_streamed polls (.streaming events final) events final rfl
  have limit : total chunks ≤ MAX_BODY_BYTES := streamed.limit
  have failed : ∀ error, (receive polls (.streaming events final)).outcome = .failed error →
      error = .exceeded ∧ MAX_BODY_BYTES < total (dataFrames events) ∨
        error = .upstream ∧ final = .failed ∧ total (dataFrames events) ≤ MAX_BODY_BYTES :=
    streamed.failed
  refine ⟨chunks, streamed.frames, streamed.first, limit, fun ended => (streamed.ended ended).2,
    fun finished => ?_, streamed.finishes⟩
  cases outcome : (receive polls (.streaming events final)).outcome with
  | waiting => exact absurd outcome finished
  | ended =>
    obtain ⟨isEnd, all⟩ := streamed.ended outcome
    rw [all] at limit
    exact ⟨⟨fun _ => ⟨isEnd, limit⟩, fun _ => rfl⟩, fun large => absurd limit (Nat.not_le.2 large)⟩
  | failed error =>
    refine ⟨⟨fun ended => ?_, ?_⟩, fun large => ?_⟩
    · cases ended
    · rintro ⟨isEnd, fits⟩
      rcases failed error outcome with ⟨-, large⟩ | ⟨-, isFailed, -⟩
      · exact absurd fits (Nat.not_le.2 large)
      · rw [isEnd] at isFailed
        cases isFailed
    · rcases failed error outcome with ⟨exceeded, -⟩ | ⟨-, -, fits⟩
      · rw [exceeded]
      · exact absurd fits (Nat.not_le.2 large)

end Luhmen.Host.GatewayStream
