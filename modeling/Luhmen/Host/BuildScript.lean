/-
# Host.BuildScript -- the helper as `build.rs` embeds it

`build.rs` compiles the shutdown helper for the guest and puts it into the program as
base64, which `INSTALL_DOCKER` decodes in the guest with `base64 --decode`.

`output` is the text before it is broken into lines, a quantum for every three bytes.
`decode_output` says that the strict reader of `Theory.Base64` takes it back to the
bytes, by induction on the chunks with a case for each tail; `output_quanta` says what
the text is made of.
-/
import Mathlib
import Luhmen.Theory.Base64

set_option autoImplicit false

namespace Luhmen.Host.BuildScript

open Luhmen.Theory Luhmen.Theory.Base64

/-! ## `encode_base64` -/

def TABLE : Bytes :=
  ascii "ABCDEFGHIJKLMNOPQRSTUVWXYZabcdefghijklmnopqrstuvwxyz0123456789+/"

theorem length_table : TABLE.length = 64 := by decide

/-- `TABLE[(value & 63) as usize]`. -/
def letter (value : Nat) : UInt8 :=
  TABLE.get ⟨value &&& 63, length_table ▸ Nat.lt_succ_of_le Nat.and_le_right⟩

/-- The bytes of a chunk in one number; no chunk is empty. -/
def packed (chunk : Bytes) : Nat :=
  (chunk.getD 0 0).toNat <<< 16 ||| (chunk.getD 1 0).toNat <<< 8 ||| (chunk.getD 2 0).toNat

/-- A turn of the loop over `bytes.chunks(3)`. -/
def quantum (chunk : Bytes) : Bytes :=
  let value := packed chunk
  [letter (value >>> 18), letter (value >>> 12),
    if 1 < chunk.length then letter (value >>> 6) else pad,
    if 2 < chunk.length then letter value else pad]

def output (bytes : Bytes) : Bytes :=
  (chunks 3 bytes).flatMap quantum

/-- `output.as_bytes().chunks(76)`, joined with line breaks and a last one behind. -/
def encodeBase64 (bytes : Bytes) : Bytes :=
  unwords newline (chunks 76 (output bytes)) ++ [newline]

/-! ## Letters -/

theorem letter_letter (value : Nat) : Letter (letter value) (value % 64) := by
  have table : ∀ i : Fin 64, Letter (TABLE.get (i.cast length_table.symm)) i := by
    unfold Letter
    decide +kernel
  have low : value &&& 63 = value % 64 := Nat.and_two_pow_sub_one_eq_mod value 6
  have inside : value % 64 < 64 := Nat.mod_lt _ (by decide)
  have is : letter value = TABLE.get ((⟨value % 64, inside⟩ : Fin 64).cast length_table.symm) := by
    simp only [letter, low]
    rfl
  rw [is]
  exact table ⟨value % 64, inside⟩

theorem letter_shift (value shift : Nat) :
    Letter (letter (value >>> shift)) (value / 2 ^ shift % 64) := by
  rw [← Nat.shiftRight_eq_div_pow]
  exact letter_letter _

/-- The bytes of a chunk do not overlap in its number. -/
theorem disjoint_bytes (a b c : UInt8) :
    a.toNat <<< 16 ||| b.toNat <<< 8 ||| c.toNat = 65536 * a.toNat + 256 * b.toNat + c.toNat := by
  have small : ∀ b : UInt8, b.toNat < 2 ^ 8 := UInt8.toNat_lt
  have upper : a.toNat <<< 16 ||| b.toNat <<< 8 = (256 * a.toNat + b.toNat) <<< 8 := by
    have joined := Nat.two_pow_add_eq_or_of_lt (small b) a.toNat
    rw [show 256 * a.toNat + b.toNat = 2 ^ 8 * a.toNat ||| b.toNat from joined,
      Nat.shiftLeft_or_distrib, Nat.mul_comm, ← Nat.shiftLeft_eq, ← Nat.shiftLeft_add]
  rw [upper, Nat.shiftLeft_eq, Nat.mul_comm, ← Nat.two_pow_add_eq_or_of_lt (small c)]
  omega

/-! ## Quanta -/

theorem ofNat_eq {n : Nat} {b : UInt8} (same : n = b.toNat) : UInt8.ofNat n = b := by
  rw [same, UInt8.ofNat_toNat]

section Quanta

variable (a b c : UInt8)

theorem decode_full (rest : Bytes) :
    decode (quantum [a, b, c] ++ rest) = (decode rest).map fun behind => a :: b :: c :: behind := by
  have value : packed [a, b, c] = _ := disjoint_bytes a b c
  have small : ∀ b : UInt8, b.toNat < 256 := UInt8.toNat_lt
  have := small a
  have := small b
  have := small c
  simp only [quantum, value, List.length_cons, List.length_nil]
  refine (decode_quantum (letter_shift _ 18) (letter_shift _ 12) (letter_shift _ 6)
    (letter_letter _) rest).trans ?_
  congr 1
  funext behind
  congr 1
  · exact ofNat_eq (by omega)
  congr 1
  · exact ofNat_eq (by omega)
  congr 1
  · exact ofNat_eq (by omega)

theorem decode_pair : decode (quantum [a, b]) = some [a, b] := by
  have value : packed [a, b] = _ := disjoint_bytes a b 0
  have small : ∀ b : UInt8, b.toNat < 256 := UInt8.toNat_lt
  have := small a
  have := small b
  have zero : (0 : UInt8).toNat = 0 := rfl
  rw [zero] at value
  simp only [quantum, value, List.length_cons, List.length_nil]
  refine (decode_two (letter_shift _ 18) (letter_shift _ 12) (letter_shift _ 6) (by omega)).trans ?_
  congr 2
  · exact ofNat_eq (by omega)
  congr 1
  · exact ofNat_eq (by omega)

theorem decode_single : decode (quantum [a]) = some [a] := by
  have value : packed [a] = _ := disjoint_bytes a 0 0
  have := UInt8.toNat_lt a
  have zero : (0 : UInt8).toNat = 0 := rfl
  rw [zero] at value
  simp only [quantum, value, List.length_cons, List.length_nil]
  refine (decode_one (letter_shift _ 18) (letter_shift _ 12) (by omega)).trans ?_
  congr 2
  exact ofNat_eq (by omega)

end Quanta

theorem output_nil : output [] = [] := rfl

theorem output_cons {chunk rest : Bytes} (full : chunk.length = 3) :
    output (chunk ++ rest) = quantum chunk ++ output rest := by
  rw [output, chunks_append (by decide) full, List.flatMap_cons]
  rfl

theorem output_short {bytes : Bytes} (nonempty : bytes ≠ []) (short : bytes.length ≤ 3) :
    output bytes = quantum bytes := by
  rw [output, chunks_short (by decide) nonempty short, List.flatMap_singleton]

/-- What is left of a list at a chunk: a whole chunk and more, or a tail. -/
theorem chunk_cases {P : Bytes → Prop} (nil : P []) (single : ∀ a, P [a]) (pair : ∀ a b, P [a, b])
    (full : ∀ a b c rest, P rest → P ([a, b, c] ++ rest)) (bytes : Bytes) : P bytes := by
  induction bytes using chunks_induction (by decide : 0 < 3) with
  | nil => exact nil
  | step bytes nonempty ih =>
      match bytes with
      | [] => exact nil
      | [a] => exact single a
      | [a, b] => exact pair a b
      | a :: b :: c :: rest => exact full a b c rest ih

theorem decode_output (bytes : Bytes) : decode (output bytes) = some bytes := by
  induction bytes using chunk_cases with
  | nil => rfl
  | single a => rw [output_short (by simp) (by simp), decode_single]
  | pair a b => rw [output_short (by simp) (by simp), decode_pair]
  | full a b c rest ih => rw [output_cons rfl, decode_full, ih]; rfl

/-! ## Lines -/

/-- A text of whole quanta, the last of which may end in padding. -/
structure Quanta (text : Bytes) (body letters : Bytes) (padding : Nat) : Prop where
  is : text = body ++ (letters ++ List.replicate padding pad)
  quantum : (letters ++ List.replicate padding pad).length = 4
  aligned : 4 ∣ body.length
  letters : ∀ b ∈ body ++ letters, ∃ value, Letter b value
  padding : padding ≤ 2

theorem quantum_letters (value : Nat) :
    ∀ b ∈ [letter (value >>> 18), letter (value >>> 12), letter (value >>> 6), letter value],
      ∃ bits, Letter b bits := by
  intro b member
  simp only [List.mem_cons, List.not_mem_nil, or_false] at member
  rcases member with rfl | rfl | rfl | rfl
  all_goals exact ⟨_, letter_letter _⟩

theorem output_quanta {bytes : Bytes} (nonempty : bytes ≠ []) :
    ∃ body letters padding, Quanta (output bytes) body letters padding := by
  induction bytes using chunk_cases with
  | nil => exact absurd rfl nonempty
  | single a =>
      rw [output_short (by simp) (by simp)]
      refine ⟨[], (quantum [a]).take 2, 2, rfl, rfl, ⟨0, rfl⟩, fun x member => ?_, Nat.le_refl _⟩
      exact quantum_letters (packed [a]) x (List.mem_of_mem_take (i := 2) member)
  | pair a b =>
      rw [output_short (by simp) (by simp)]
      refine ⟨[], (quantum [a, b]).take 3, 1, rfl, rfl, ⟨0, rfl⟩, fun x member => ?_, by decide⟩
      exact quantum_letters (packed [a, b]) x (List.mem_of_mem_take (i := 3) member)
  | full a b c rest ih =>
      rw [output_cons rfl]
      have first : ∀ x ∈ quantum [a, b, c], ∃ bits, Letter x bits := quantum_letters _
      by_cases last : rest = []
      · subst last
        refine ⟨[], quantum [a, b, c], 0, ?_, rfl, ⟨0, rfl⟩, first, by decide⟩
        rw [output_nil, List.append_nil]
        rfl
      · obtain ⟨body, letters, padding, quanta⟩ := ih last
        refine ⟨quantum [a, b, c] ++ body, letters, padding, ?_, quanta.quantum, ?_, ?_,
          quanta.padding⟩
        · rw [quanta.is, List.append_assoc]
        · rw [List.length_append]
          exact Nat.dvd_add ⟨1, rfl⟩ quanta.aligned
        · intro x member
          rw [List.append_assoc] at member
          rcases List.mem_append.1 member with inFirst | further
          · exact first x inFirst
          · exact quanta.letters x further

theorem letter_ne_newline {b : UInt8} {value : Nat} (isLetter : Letter b value) : b ≠ newline := by
  rintro rfl
  exact nomatch isLetter.2

theorem output_clean {bytes : Bytes} : ∀ b ∈ output bytes, b ≠ newline := by
  intro b member
  by_cases empty : bytes = []
  · subst empty
    exact absurd member List.not_mem_nil
  obtain ⟨body, letters, padding, quanta⟩ := output_quanta empty
  rw [quanta.is, ← List.append_assoc] at member
  rcases List.mem_append.1 member with isLetter | padded
  · obtain ⟨value, found⟩ := quanta.letters b isLetter
    exact letter_ne_newline found
  · rw [List.eq_of_mem_replicate padded]
    decide

/-- The padding comes last, in front of the last line break. -/
theorem padding_last (bytes : Bytes) : ∃ front padding,
    encodeBase64 bytes = front ++ List.replicate padding pad ++ [newline] ∧ pad ∉ front ∧
      padding ≤ 2 := by
  by_cases empty : bytes = []
  · subst empty
    exact ⟨[], 0, rfl, List.not_mem_nil, Nat.zero_le _⟩
  obtain ⟨body, letters, padding, quanta⟩ := output_quanta empty
  have nonempty : letters ++ List.replicate padding pad ≠ [] := by
    intro none'
    have four := quanta.quantum
    rw [none'] at four
    exact absurd four (by decide)
  obtain ⟨front, is, inFront⟩ := @wrap_append UInt8 newline 76 (by decide) _ nonempty
    (by rw [quanta.quantum]; decide) body (by rw [quanta.quantum]; exact quanta.aligned)
  rw [← quanta.is] at is
  refine ⟨front ++ letters, padding, ?_, ?_, quanta.padding⟩
  · rw [List.append_assoc front letters]
    exact is
  · intro member
    have fromText : pad = newline ∨ pad ∈ body ++ letters := by
      rcases List.mem_append.1 member with before | inLetters
      · exact (inFront pad before).imp_right fun inBody => List.mem_append.2 (.inl inBody)
      · exact .inr (List.mem_append.2 (.inr inLetters))
    rcases fromText with isBreak | inText
    · exact absurd isBreak (by decide)
    · obtain ⟨value, found⟩ := quanta.letters pad inText
      exact found.1 rfl

/-- **The helper arrives.**  What the build encodes is decoded to the same bytes, in lines of at
most 76 letters, with the padding at the end alone. -/
theorem encoding_survives (bytes : Bytes) :
    decodeLines (encodeBase64 bytes) = some bytes ∧
      (∀ line ∈ (encodeBase64 bytes).splitOn newline, line.length ≤ 76) ∧
      ∃ front padding, encodeBase64 bytes = front ++ List.replicate padding pad ++ [newline] ∧
        pad ∉ front ∧ padding ≤ 2 := by
  have clean : newline ∉ output bytes := fun member => output_clean _ member rfl
  have joined : (encodeBase64 bytes).filter (· ≠ newline) = output bytes :=
    filter_wrap (by decide) (by decide) fun b member => by simpa using output_clean b member
  refine ⟨?_, fun line member => lines_wrap (by decide) clean member, padding_last bytes⟩
  rw [decodeLines, joined, decode_output]

end Luhmen.Host.BuildScript
