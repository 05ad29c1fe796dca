/-
# Theory.Base64 -- base64 text in lines

`decode` reads base64 by quanta of four letters.  It is the strict reader: it takes
the padding only where the text ends, and no bits that the padding cuts off.
`decodeLines` is the same with the line breaks left out first.

`wrap` breaks a text into lines of a width.  It only adds line breaks
(`filter_wrap`), no line gets longer than the width (`lines_wrap`), and where the width
is a multiple of a quantum the last quantum stays in one piece (`wrap_append`).
-/
import Luhmen.Theory.Bytes
import Luhmen.Theory.Words

set_option autoImplicit false

namespace Luhmen.Theory

/-! ## Chunks -/

section Chunks

variable {α : Type}

/-- `fuel` bounds the number of chunks. -/
def chunksWithin (width : Nat) : Nat → List α → List (List α)
  | _, [] => []
  | 0, _ :: _ => []
  | fuel + 1, item :: rest =>
      (item :: rest).take width :: chunksWithin width fuel ((item :: rest).drop width)

/-- A list in pieces of a width, the last of which may be shorter. -/
def chunks (width : Nat) (items : List α) : List (List α) :=
  chunksWithin width items.length items

variable {width : Nat}

theorem chunksWithin_enough (positive : 0 < width) {items : List α} {fuel : Nat}
    (enough : items.length ≤ fuel) : chunksWithin width fuel items = chunks width items := by
  have same : ∀ n fuel (items : List α), items.length ≤ n → items.length ≤ fuel →
      chunksWithin width fuel items = chunksWithin width n items := by
    intro n
    induction n with
    | zero =>
        intro fuel items short _
        obtain rfl := List.length_eq_zero_iff.1 (Nat.le_zero.1 short)
        cases fuel <;> rfl
    | succ n ih =>
        intro fuel items short enough
        cases items with
        | nil => cases fuel <;> rfl
        | cons item rest =>
            cases fuel with
            | zero => exact absurd enough (by simp)
            | succ fuel =>
                have shorter : ((item :: rest).drop width).length ≤ rest.length := by
                  rw [List.length_drop, List.length_cons]
                  omega
                simp only [List.length_cons, Nat.add_le_add_iff_right] at short enough
                rw [chunksWithin, chunksWithin, ih fuel _ (Nat.le_trans shorter short)
                  (Nat.le_trans shorter enough)]
  exact same items.length fuel items (Nat.le_refl _) enough

theorem chunks_nil : chunks width ([] : List α) = [] := rfl

theorem chunks_of_ne_nil (positive : 0 < width) {items : List α} (nonempty : items ≠ []) :
    chunks width items = items.take width :: chunks width (items.drop width) := by
  cases items with
  | nil => exact absurd rfl nonempty
  | cons item rest =>
      have shorter : ((item :: rest).drop width).length ≤ rest.length := by
        rw [List.length_drop, List.length_cons]
        omega
      show (item :: rest).take width ::
        chunksWithin width rest.length ((item :: rest).drop width) = _
      rw [chunksWithin_enough positive shorter]

theorem chunks_short (positive : 0 < width) {items : List α} (nonempty : items ≠ [])
    (short : items.length ≤ width) : chunks width items = [items] := by
  rw [chunks_of_ne_nil positive nonempty, List.take_of_length_le short,
    List.drop_of_length_le short, chunks_nil]

/-- The first chunk, where it is full. -/
theorem chunks_append (positive : 0 < width) {front : List α} (full : front.length = width)
    (rest : List α) : chunks width (front ++ rest) = front :: chunks width rest := by
  have nonempty : front ++ rest ≠ [] := by
    intro empty
    have none' := (List.append_eq_nil_iff.1 empty).1
    rw [none', List.length_nil] at full
    omega
  subst full
  rw [chunks_of_ne_nil positive nonempty, List.take_left, List.drop_left]

/-- An induction over a list, chunk by chunk. -/
theorem chunks_induction {P : List α → Prop} (positive : 0 < width) (nil : P [])
    (step : ∀ items, items ≠ [] → P (items.drop width) → P items) (items : List α) : P items := by
  have all : ∀ n (items : List α), items.length ≤ n → P items := by
    intro n
    induction n with
    | zero =>
        intro items short
        obtain rfl := List.length_eq_zero_iff.1 (Nat.le_zero.1 short)
        exact nil
    | succ n ih =>
        intro items short
        by_cases empty : items = []
        · exact empty ▸ nil
        · refine step items empty (ih _ ?_)
          rw [List.length_drop]
          omega
  exact all _ items (Nat.le_refl _)

theorem flatten_chunks (positive : 0 < width) (items : List α) :
    (chunks width items).flatten = items := by
  induction items using chunks_induction positive with
  | nil => rfl
  | step items nonempty ih =>
      rw [chunks_of_ne_nil positive nonempty, List.flatten_cons, ih, List.take_append_drop]

theorem length_of_mem_chunks (positive : 0 < width) {items chunk : List α}
    (member : chunk ∈ chunks width items) : chunk.length ≤ width := by
  induction items using chunks_induction positive with
  | nil => exact absurd member List.not_mem_nil
  | step items nonempty ih =>
      rw [chunks_of_ne_nil positive nonempty] at member
      rcases List.mem_cons.1 member with rfl | further
      · rw [List.length_take]
        omega
      · exact ih further

theorem mem_of_mem_chunks (positive : 0 < width) {items chunk : List α}
    (member : chunk ∈ chunks width items) {item : α} (inside : item ∈ chunk) : item ∈ items := by
  rw [← flatten_chunks positive items]
  exact List.mem_flatten.2 ⟨chunk, member, inside⟩

end Chunks

/-! ## Lines -/

section Lines

variable {α : Type} {c : α} {width : Nat}

/-- A text in lines of a width, each ended by `c`. -/
def wrap (c : α) (width : Nat) (text : List α) : List α :=
  unwords c (chunks width text) ++ [c]

theorem filter_unwords {keep : α → Bool} (dropped : keep c = false) {lines : List (List α)}
    (kept : ∀ line ∈ lines, ∀ b ∈ line, keep b = true) :
    (unwords c lines).filter keep = lines.flatten := by
  induction lines with
  | nil => rfl
  | cons line rest ih =>
      have first : line.filter keep = line := List.filter_eq_self.2 (kept line List.mem_cons_self)
      have others := ih fun other member => kept other (List.mem_cons_of_mem _ member)
      cases rest with
      | nil =>
          show line.filter keep = _
          simp [first]
      | cons second rest =>
          rw [unwords_cons, List.filter_append, List.filter_cons_of_neg (by simp [dropped]), first,
            others]
          rfl

/-- The line breaks are all that wrapping adds. -/
theorem filter_wrap {keep : α → Bool} (dropped : keep c = false) (positive : 0 < width)
    {text : List α} (kept : ∀ b ∈ text, keep b = true) : (wrap c width text).filter keep = text := by
  have lines : ∀ line ∈ chunks width text, ∀ b ∈ line, keep b = true :=
    fun line member b inside => kept b (mem_of_mem_chunks positive member inside)
  rw [wrap, List.filter_append, filter_unwords dropped lines, flatten_chunks positive,
    List.filter_cons_of_neg (by simp [dropped]), List.filter_nil, List.append_nil]

theorem splitOn_unwords [DecidableEq α] {lines : List (List α)} (nonempty : lines ≠ [])
    (clean : ∀ line ∈ lines, c ∉ line) :
    (unwords c lines ++ [c]).splitOn c = lines ++ [[]] := by
  induction lines with
  | nil => exact absurd rfl nonempty
  | cons line rest ih =>
      have first := clean line List.mem_cons_self
      cases rest with
      | nil =>
          show (line ++ [c]).splitOn c = _
          rw [List.splitOn_append_cons_self_of_not_mem first]
          rfl
      | cons second rest =>
          have others := ih (List.cons_ne_nil _ _)
            fun other member => clean other (List.mem_cons_of_mem _ member)
          rw [unwords_cons, List.append_assoc, List.cons_append,
            List.splitOn_append_cons_self_of_not_mem first, others]
          rfl

/-- No line is longer than the width. -/
theorem lines_wrap [DecidableEq α] (positive : 0 < width) {text : List α} (clean : c ∉ text)
    {line : List α} (member : line ∈ (wrap c width text).splitOn c) : line.length ≤ width := by
  by_cases empty : text = []
  · subst empty
    have lines : (wrap c width ([] : List α)).splitOn c = [[], []] :=
      List.splitOn_append_cons_self_of_not_mem (List.not_mem_nil : c ∉ []) []
    rw [lines] at member
    simp only [List.mem_cons, List.not_mem_nil, or_false, or_self] at member
    rw [member]
    exact Nat.zero_le _
  · have nonempty : chunks width text ≠ [] := by
      rw [chunks_of_ne_nil positive empty]
      exact List.cons_ne_nil _ _
    have cleanLines : ∀ line ∈ chunks width text, c ∉ line :=
      fun line member inside => clean (mem_of_mem_chunks positive member inside)
    rw [wrap, splitOn_unwords nonempty cleanLines] at member
    rcases List.mem_append.1 member with isLine | last
    · exact length_of_mem_chunks positive isLine
    · rw [List.mem_singleton.1 last]
      exact Nat.zero_le _

/-- A last piece of the text, if the width and what is before it are multiples of its
length, is not broken. -/
theorem wrap_append (positive : 0 < width) {last : List α} (nonempty : last ≠ [])
    (fits : last.length ∣ width) {body : List α} (aligned : last.length ∣ body.length) :
    ∃ front, wrap c width (body ++ last) = front ++ last ++ [c] ∧
      ∀ b ∈ front, b = c ∨ b ∈ body := by
  suffices unbroken : ∃ front, unwords c (chunks width (body ++ last)) = front ++ last ∧
      ∀ b ∈ front, b = c ∨ b ∈ body by
    obtain ⟨front, is, letters⟩ := unbroken
    exact ⟨front, by rw [wrap, is], letters⟩
  induction body using chunks_induction positive with
  | nil =>
      have short : last.length ≤ width := Nat.le_of_dvd positive fits
      refine ⟨[], ?_, fun b member => absurd member List.not_mem_nil⟩
      rw [List.nil_append, chunks_short positive nonempty short]
      rfl
  | step body bodyNonempty ih =>
      by_cases short : (body ++ last).length ≤ width
      · refine ⟨body, ?_, fun b member => .inr member⟩
        rw [chunks_short positive (by simp [nonempty]) short]
        rfl
      -- both lengths are multiples, so the body alone fills the line
      have full : width ≤ body.length := by
        obtain ⟨k, width_eq⟩ := fits
        obtain ⟨m, body_eq⟩ := aligned
        rw [List.length_append, body_eq, width_eq, ← Nat.mul_succ] at short
        have more : k < m + 1 := Nat.lt_of_mul_lt_mul_left (Nat.lt_of_not_le short)
        rw [width_eq, body_eq]
        exact Nat.mul_le_mul_left _ (Nat.le_of_lt_succ more)
      have alignedRest : last.length ∣ (body.drop width).length := by
        rw [List.length_drop]
        exact Nat.dvd_sub aligned fits
      obtain ⟨front, is, letters⟩ := ih alignedRest
      refine ⟨body.take width ++ c :: front, ?_, ?_⟩
      · have split : body ++ last = body.take width ++ (body.drop width ++ last) := by
          rw [← List.append_assoc, List.take_append_drop]
        obtain ⟨second, rest, shape⟩ : ∃ second rest,
            chunks width (body.drop width ++ last) = second :: rest :=
          ⟨_, _, chunks_of_ne_nil positive (by simp [nonempty])⟩
        rw [split, chunks_append positive (by rw [List.length_take]; omega), shape, unwords_cons,
          ← shape, is, List.append_assoc, List.cons_append]
      · intro b member
        rcases List.mem_append.1 member with taken | further
        · exact .inr (List.mem_of_mem_take taken)
        · rcases List.mem_cons.1 further with rfl | inFront
          · exact .inl rfl
          · exact (letters b inFront).imp_right List.mem_of_mem_drop

end Lines

/-! ## Base64 -/

namespace Base64

def newline : UInt8 := 0x0a

/-- `=`. -/
def pad : UInt8 := 0x3d

/-- The six bits a letter stands for. -/
def sextet (letter : UInt8) : Option Nat :=
  if 0x41 ≤ letter ∧ letter ≤ 0x5a then some (letter.toNat - 0x41)
  else if 0x61 ≤ letter ∧ letter ≤ 0x7a then some (letter.toNat - 0x61 + 26)
  else if 0x30 ≤ letter ∧ letter ≤ 0x39 then some (letter.toNat - 0x30 + 52)
  else if letter = 0x2b then some 62
  else if letter = 0x2f then some 63
  else none

def firstByte (a b : Nat) : UInt8 :=
  UInt8.ofNat (4 * a + b / 16)

def secondByte (b c : Nat) : UInt8 :=
  UInt8.ofNat (16 * (b % 16) + c / 4)

def thirdByte (c d : Nat) : UInt8 :=
  UInt8.ofNat (64 * (c % 4) + d)

def decode : Bytes → Option Bytes
  | [] => some []
  | a :: b :: c :: d :: rest => do
    let a ← sextet a
    let b ← sextet b
    if c = pad then
      if d = pad ∧ rest = [] ∧ b % 16 = 0 then some [firstByte a b] else none
    else
      let c ← sextet c
      if d = pad then
        if rest = [] ∧ c % 4 = 0 then some [firstByte a b, secondByte b c] else none
      else
        let d ← sextet d
        let behind ← decode rest
        some (firstByte a b :: secondByte b c :: thirdByte c d :: behind)
  | _ => none

/-- A reader that takes no notice of line breaks. -/
def decodeLines (text : Bytes) : Option Bytes :=
  decode (text.filter (· ≠ newline))

/-- A letter for six bits: any value below 64 is one. -/
def Letter (letter : UInt8) (value : Nat) : Prop :=
  letter ≠ pad ∧ sextet letter = some value

theorem decode_quantum {a b c d : UInt8} {p q r s : Nat} (first : Letter a p) (second : Letter b q)
    (third : Letter c r) (fourth : Letter d s) (rest : Bytes) :
    decode (a :: b :: c :: d :: rest) =
      (decode rest).map fun behind =>
        firstByte p q :: secondByte q r :: thirdByte r s :: behind := by
  simp only [decode, first.2, second.2, third.1, third.2, fourth.1, fourth.2, if_false,
    Option.bind_eq_bind, Option.bind_some]
  cases decode rest <;> rfl

theorem decode_two {a b c : UInt8} {p q r : Nat} (first : Letter a p) (second : Letter b q)
    (third : Letter c r) (exact : r % 4 = 0) :
    decode [a, b, c, pad] = some [firstByte p q, secondByte q r] := by
  simp [decode, first.2, second.2, third.1, third.2, exact]

theorem decode_one {a b : UInt8} {p q : Nat} (first : Letter a p) (second : Letter b q)
    (exact : q % 16 = 0) : decode [a, b, pad, pad] = some [firstByte p q] := by
  simp [decode, first.2, second.2, exact]

example : decodeLines (ascii "Zm9v\nYg==\n") = some (ascii "foob") := by decide

end Base64

end Luhmen.Theory
