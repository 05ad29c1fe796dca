/-
# Host.GatewayUpload -- the buffer of an upload

`collect_body` once more, with what it does to its buffer at each frame: the space that
is left, the capacity that is asked for and the reservation as a difference of the two.
Subtractions that would go below zero and sums that would not fit panic here, as in the
source.  A reservation is granted to the byte.

One step keeps the buffer inside its capacity and the capacity inside the limit
(`Buffer.Bounded`), so that nothing panics in any run; `collectBody_eq` says that the
bytes are those of `Host.Gateway`.
-/
import Mathlib
import Luhmen.Theory.Outcome
import Luhmen.Host.Gateway

set_option autoImplicit false

namespace Luhmen.Host.Gateway.Upload

open Luhmen.Theory

def EXCHANGE_BUFFER_BYTES : Nat := 2 * MAX_BODY_BYTES

/-! ## The steps -/

/-- A result in a `usize`. -/
def usize (n : Nat) : Result Nat :=
  if n < 2 ^ 64 then .ok n else .error .panic

def usizeSub (a b : Nat) : Result Nat :=
  if b ≤ a then .ok (a - b) else .error .panic

/-- A `Vec<u8>`. -/
structure Buffer where
  bytes : Bytes := []
  capacity : Nat := 0
deriving DecidableEq

namespace Buffer

/-- `try_reserve_exact`, which does nothing where there is room. -/
def tryReserveExact (buffer : Buffer) (additional : Nat) : Buffer :=
  if buffer.capacity - buffer.bytes.length < additional then
    { buffer with capacity := buffer.bytes.length + additional }
  else buffer

/-- `extend_from_slice`, which grows the buffer itself where there is no room. -/
def extendFromSlice (buffer : Buffer) (chunk : Bytes) : Buffer where
  bytes := buffer.bytes ++ chunk
  capacity :=
    if buffer.capacity < buffer.bytes.length + chunk.length then
      max (buffer.capacity * 2) (buffer.bytes.length + chunk.length)
    else buffer.capacity

/-- What is done with a chunk before it is copied. -/
def makeRoom (buffer : Buffer) (chunk : Bytes) : Result Buffer := do
  let space ← usizeSub MAX_BODY_BYTES buffer.bytes.length
  if space < chunk.length then fail "body exceeds 8 MiB"
  else
    let required ← usize (buffer.bytes.length + chunk.length)
    if buffer.capacity < required then
      let doubled ← usize (buffer.capacity * 2)
      let capacity := min (max (max doubled 4096) required) MAX_BODY_BYTES
      let additional ← usizeSub capacity buffer.bytes.length
      pure (buffer.tryReserveExact additional)
    else pure buffer

/-- One round of the loop. -/
def receive (buffer : Buffer) : Frame → Result Buffer
  | .failed => fail "read body frame"
  | .trailers => .ok buffer
  | .data chunk => do
    let buffer ← buffer.makeRoom chunk
    pure (buffer.extendFromSlice chunk)

end Buffer

/-- The loop of `collect_body`. -/
def collect (frames : List Frame) : Result Buffer :=
  frames.foldlM Buffer.receive {}

def collectBody (frames : List Frame) : Result Bytes :=
  (collect frames).map Buffer.bytes

/-- The data of frames. -/
def content (frames : List Frame) : Bytes :=
  frames.flatMap fun
    | .data chunk => chunk
    | _ => []

/-! ## One step -/

namespace Buffer

/-- The bytes are inside the capacity, and that is inside the limit. -/
structure Bounded (buffer : Buffer) : Prop where
  fits : buffer.bytes.length ≤ buffer.capacity
  limit : buffer.capacity ≤ MAX_BODY_BYTES

variable {buffer : Buffer} {chunk : Bytes}

theorem bounded_empty : ({} : Buffer).Bounded :=
  ⟨Nat.le_refl 0, Nat.zero_le _⟩

theorem limit_lt : MAX_BODY_BYTES * 2 < 2 ^ 64 := by decide

theorem Bounded.inside (bounded : buffer.Bounded) : buffer.bytes.length ≤ MAX_BODY_BYTES :=
  Nat.le_trans bounded.fits bounded.limit

/-- A chunk over the limit is refused ... -/
theorem makeRoom_refused (bounded : buffer.Bounded)
    (large : MAX_BODY_BYTES < buffer.bytes.length + chunk.length) :
    buffer.makeRoom chunk = fail "body exceeds 8 MiB" := by
  have inside := bounded.inside
  have little : MAX_BODY_BYTES - buffer.bytes.length < chunk.length := by omega
  unfold makeRoom usizeSub
  rw [if_pos inside]
  exact if_pos little

/-- The capacity that there is for a chunk. -/
def roomFor (buffer : Buffer) (chunk : Bytes) : Nat :=
  if buffer.capacity < buffer.bytes.length + chunk.length then
    min (max (max (buffer.capacity * 2) 4096) (buffer.bytes.length + chunk.length)) MAX_BODY_BYTES
  else buffer.capacity

theorem roomFor_bounds (bounded : buffer.Bounded)
    (small : buffer.bytes.length + chunk.length ≤ MAX_BODY_BYTES) :
    buffer.bytes.length + chunk.length ≤ buffer.roomFor chunk ∧
      buffer.roomFor chunk ≤ MAX_BODY_BYTES := by
  unfold roomFor
  by_cases full : buffer.capacity < buffer.bytes.length + chunk.length
  · rw [if_pos full]
    exact ⟨Nat.le_min.2 ⟨Nat.le_max_right .., small⟩, Nat.min_le_right ..⟩
  · rw [if_neg full]
    exact ⟨Nat.le_of_not_lt full, bounded.limit⟩

/-- ... and there is room for any other, without a byte of it copied yet. -/
theorem makeRoom_room (bounded : buffer.Bounded)
    (small : buffer.bytes.length + chunk.length ≤ MAX_BODY_BYTES) :
    buffer.makeRoom chunk = .ok { buffer with capacity := buffer.roomFor chunk } := by
  have inside := bounded.inside
  have limit := bounded.limit
  have wide := limit_lt
  have space : ¬ MAX_BODY_BYTES - buffer.bytes.length < chunk.length := by omega
  have sum : buffer.bytes.length + chunk.length < 2 ^ 64 := by omega
  have double : buffer.capacity * 2 < 2 ^ 64 := by omega
  obtain ⟨enough, -⟩ := roomFor_bounds bounded small
  unfold roomFor at enough ⊢
  simp only [makeRoom, usizeSub, usize, bind, Except.bind, pure, Except.pure, if_pos inside,
    if_neg space, if_pos sum, if_pos double]
  by_cases full : buffer.capacity < buffer.bytes.length + chunk.length
  · rw [if_pos full] at enough ⊢
    generalize min (max (max (buffer.capacity * 2) 4096) (buffer.bytes.length + chunk.length))
      MAX_BODY_BYTES = capacity at enough ⊢
    have asked : buffer.bytes.length ≤ capacity := Nat.le_trans (Nat.le_add_right ..) enough
    have missing : buffer.capacity - buffer.bytes.length < capacity - buffer.bytes.length := by
      have fits := bounded.fits
      omega
    simp only [if_pos full, if_pos asked, tryReserveExact, if_pos missing,
      Nat.add_sub_cancel' asked]
  · simp only [if_neg full]

/-- Copying what there is room for does not grow the buffer. -/
theorem extend_capacity (room : buffer.bytes.length + chunk.length ≤ buffer.capacity) :
    (buffer.extendFromSlice chunk).capacity = buffer.capacity :=
  if_neg (Nat.not_lt.2 room)

theorem extend_room (bounded : buffer.Bounded)
    (small : buffer.bytes.length + chunk.length ≤ MAX_BODY_BYTES) :
    ({ buffer with capacity := buffer.roomFor chunk } : Buffer).extendFromSlice chunk =
      ⟨buffer.bytes ++ chunk, buffer.roomFor chunk⟩ := by
  unfold extendFromSlice
  rw [if_neg (Nat.not_lt.2 (roomFor_bounds bounded small).1)]

theorem receive_data (bounded : buffer.Bounded)
    (small : buffer.bytes.length + chunk.length ≤ MAX_BODY_BYTES) :
    buffer.receive (.data chunk) = .ok ⟨buffer.bytes ++ chunk, buffer.roomFor chunk⟩ ∧
      (⟨buffer.bytes ++ chunk, buffer.roomFor chunk⟩ : Buffer).Bounded := by
  obtain ⟨room, limit⟩ := roomFor_bounds bounded small
  refine ⟨?_, ?_, limit⟩
  · rw [receive, makeRoom_room bounded small, ← extend_room bounded small]
    rfl
  · rw [List.length_append]
    exact room

end Buffer

/-! ## Every run -/

/-- The loop from a bounded buffer on, by induction on the frames. -/
theorem foldlM_receive (frames : List Frame) {buffer : Buffer} (bounded : buffer.Bounded) :
    (.failed ∉ frames → buffer.bytes.length + (content frames).length ≤ MAX_BODY_BYTES →
      ∃ after : Buffer, frames.foldlM Buffer.receive buffer = .ok after ∧ after.Bounded ∧
        after.bytes = buffer.bytes ++ content frames) ∧
    (.failed ∈ frames ∨ MAX_BODY_BYTES < buffer.bytes.length + (content frames).length →
      ∃ message, frames.foldlM Buffer.receive buffer = fail message) := by
  induction frames generalizing buffer with
  | nil =>
    refine ⟨fun _ _ => ⟨buffer, rfl, bounded, (List.append_nil _).symm⟩, ?_⟩
    rintro (failed | large)
    · cases failed
    · exact absurd bounded.inside (Nat.not_le.2 large)
  | cons frame rest ih =>
    rw [List.foldlM_cons]
    cases frame with
    | failed =>
      refine ⟨fun none => absurd List.mem_cons_self none, fun _ => ⟨"read body frame", rfl⟩⟩
    | trailers =>
      obtain ⟨accepted, refused⟩ := ih bounded
      refine ⟨fun none => accepted fun later => none (List.mem_cons_of_mem _ later), ?_⟩
      rintro (failed | large)
      · exact refused (.inl (by simpa using failed))
      · exact refused (.inr large)
    | data chunk =>
      have whole : content (.data chunk :: rest) = chunk ++ content rest := rfl
      rw [whole, List.length_append]
      by_cases small : buffer.bytes.length + chunk.length ≤ MAX_BODY_BYTES
      · obtain ⟨received, after_bounded⟩ := Buffer.receive_data bounded small
        obtain ⟨accepted, refused⟩ := ih after_bounded
        rw [received]
        rw [List.length_append, Nat.add_assoc, List.append_assoc] at accepted
        rw [List.length_append, Nat.add_assoc] at refused
        refine ⟨fun none => accepted fun later => none (List.mem_cons_of_mem _ later), ?_⟩
        rintro (failed | large)
        · exact refused (.inl (by simpa using failed))
        · exact refused (.inr large)
      · refine ⟨fun _ fits => absurd (by omega) small, fun _ => ⟨"body exceeds 8 MiB", ?_⟩⟩
        rw [Buffer.receive, Buffer.makeRoom_refused bounded (Nat.lt_of_not_le small)]
        rfl

theorem collect_bounded {frames : List Frame} {buffer : Buffer}
    (collected : collect frames = .ok buffer) : buffer.Bounded := by
  obtain ⟨accepted, refused⟩ := foldlM_receive frames Buffer.bounded_empty
  have empty : ({} : Buffer).bytes.length = 0 := rfl
  rw [empty, Nat.zero_add] at accepted refused
  by_cases bad : .failed ∈ frames ∨ MAX_BODY_BYTES < (content frames).length
  · obtain ⟨message, failed⟩ := refused bad
    rw [collect, failed] at collected
    cases collected
  · obtain ⟨none, fits⟩ := not_or.1 bad
    obtain ⟨after, received, bounded, -⟩ := accepted none (Nat.le_of_not_lt fits)
    rw [collect, received] at collected
    cases collected
    exact bounded

/-- **An upload is buffered exactly, inside its budget.** -/
theorem collectBody_exact (frames : List Frame) :
    (∀ body, collectBody frames = .ok body ↔
      .failed ∉ frames ∧ (content frames).length ≤ MAX_BODY_BYTES ∧ body = content frames) ∧
    (∀ failure, collectBody frames = .error failure → ∃ message, failure = .error message) ∧
    ∀ (before after : List Frame) (buffer : Buffer), before ++ after = frames →
      collect before = .ok buffer →
      buffer.bytes.length ≤ buffer.capacity ∧ buffer.capacity ≤ MAX_BODY_BYTES ∧
        ∀ chunk grown, after.head? = some (.data chunk) → buffer.makeRoom chunk = .ok grown →
          grown.bytes.length + chunk.length ≤ grown.capacity ∧
            grown.capacity ≤ MAX_BODY_BYTES ∧
            (grown.extendFromSlice chunk).capacity = grown.capacity ∧
            buffer.capacity + grown.capacity ≤ EXCHANGE_BUFFER_BYTES := by
  obtain ⟨accepted, refused⟩ := foldlM_receive frames Buffer.bounded_empty
  have empty : ({} : Buffer).bytes.length = 0 := rfl
  rw [empty, Nat.zero_add] at accepted refused
  refine ⟨fun body => ⟨fun collected => ?_, ?_⟩, fun failure failed => ?_, ?_⟩
  · by_cases bad : .failed ∈ frames ∨ MAX_BODY_BYTES < (content frames).length
    · obtain ⟨message, failed⟩ := refused bad
      rw [collectBody, collect, failed] at collected
      cases collected
    · obtain ⟨none, fits⟩ := not_or.1 bad
      obtain ⟨after, received, -, bytes⟩ := accepted none (Nat.le_of_not_lt fits)
      rw [collectBody, collect, received] at collected
      cases collected
      exact ⟨none, Nat.le_of_not_lt fits, bytes⟩
  · rintro ⟨none, fits, rfl⟩
    obtain ⟨after, received, -, bytes⟩ := accepted none fits
    rw [collectBody, collect, received]
    exact congrArg Except.ok bytes
  · by_cases bad : .failed ∈ frames ∨ MAX_BODY_BYTES < (content frames).length
    · obtain ⟨message, was⟩ := refused bad
      rw [collectBody, collect, was] at failed
      cases failed
      exact ⟨message, rfl⟩
    · obtain ⟨none, fits⟩ := not_or.1 bad
      obtain ⟨after, received, -⟩ := accepted none (Nat.le_of_not_lt fits)
      rw [collectBody, collect, received] at failed
      cases failed
  · intro before after buffer _ collected
    have bounded := collect_bounded collected
    refine ⟨bounded.fits, bounded.limit, fun chunk grown _ made => ?_⟩
    by_cases small : buffer.bytes.length + chunk.length ≤ MAX_BODY_BYTES
    · rw [Buffer.makeRoom_room bounded small] at made
      cases made
      obtain ⟨room, limit⟩ := Buffer.roomFor_bounds bounded small
      refine ⟨room, limit, Buffer.extend_capacity room, ?_⟩
      have both := Nat.add_le_add bounded.limit limit
      rwa [← Nat.two_mul] at both
    · rw [Buffer.makeRoom_refused bounded (Nat.lt_of_not_le small)] at made
      cases made

/-- The bytes are those of the loop that only asks whether a buffer can be had. -/
theorem collectBody_eq (frames : List Frame) {buffer : Buffer} (bounded : buffer.Bounded) :
    Gateway.collectBody (fun _ => true) frames buffer.bytes buffer.capacity =
      ((frames.foldlM Buffer.receive buffer).map Buffer.bytes).toOption := by
  induction frames generalizing buffer with
  | nil => rfl
  | cons frame rest ih =>
    rw [List.foldlM_cons]
    cases frame with
    | failed => rfl
    | trailers => exact ih bounded
    | data chunk =>
      have inside := bounded.inside
      unfold Gateway.collectBody
      by_cases small : buffer.bytes.length + chunk.length ≤ MAX_BODY_BYTES
      · have space : ¬ MAX_BODY_BYTES - buffer.bytes.length < chunk.length := by omega
        obtain ⟨received, after_bounded⟩ := Buffer.receive_data bounded small
        have further := ih after_bounded
        rw [received]
        simp only [if_neg space, if_true]
        by_cases full : buffer.capacity < buffer.bytes.length + chunk.length
        · have room : buffer.roomFor chunk = min (max (max (buffer.capacity * 2) 4096)
              (buffer.bytes.length + chunk.length)) MAX_BODY_BYTES := if_pos full
          rw [if_pos full, ← room]
          exact further
        · have room : buffer.roomFor chunk = buffer.capacity := if_neg full
          rw [if_neg full]
          rw [room] at further ⊢
          exact further
      · have little : MAX_BODY_BYTES - buffer.bytes.length < chunk.length := by omega
        rw [if_pos little, Buffer.receive,
          Buffer.makeRoom_refused bounded (Nat.lt_of_not_le small)]
        rfl

end Luhmen.Host.Gateway.Upload
