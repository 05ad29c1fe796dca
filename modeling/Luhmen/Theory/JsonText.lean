/-
# Theory.JsonText -- the string tokens of standard JSON

The standard writes a string as a sequence of pieces between quotes: a Unicode
scalar in UTF-8, a short escape, or `\u` with four hexadecimal digits, which is
one UTF-16 code unit.  A high surrogate unit and a low one behind it are a scalar
together; any other surrogate unit is allowed by the grammar but denotes no
Unicode text (`denoted` is `none`).  `standard` is the lexicon with these strings
and the four whitespace bytes of the standard.
-/
import Mathlib
import Luhmen.Theory.JsonGrammar

namespace Luhmen.Theory.JsonText

open Luhmen.Theory.JsonGrammar

set_option autoImplicit false

/-- What a short escape stands for. -/
inductive Escape : UInt8 → Char → Prop where
  | quote : Escape 0x22 (Char.ofNat 0x22)
  | backslash : Escape 0x5c (Char.ofNat 0x5c)
  | slash : Escape 0x2f '/'
  | backspace : Escape 0x62 (Char.ofNat 0x8)
  | formFeed : Escape 0x66 (Char.ofNat 0xc)
  | lineFeed : Escape 0x6e (Char.ofNat 0xa)
  | carriageReturn : Escape 0x72 (Char.ofNat 0xd)
  | tab : Escape 0x74 (Char.ofNat 0x9)

inductive Piece where
  | plain (c : Char)
  | escape (letter : UInt8) (c : Char)
  | unit (digits : Bytes) (value : Nat)

def HighSurrogate (value : Nat) : Prop :=
  0xd800 ≤ value ∧ value ≤ 0xdbff

def LowSurrogate (value : Nat) : Prop :=
  0xdc00 ≤ value ∧ value ≤ 0xdfff

instance : DecidablePred HighSurrogate :=
  fun value => inferInstanceAs (Decidable (0xd800 ≤ value ∧ value ≤ 0xdbff))

instance : DecidablePred LowSurrogate :=
  fun value => inferInstanceAs (Decidable (0xdc00 ≤ value ∧ value ≤ 0xdfff))

/-- The scalar of a surrogate pair. -/
def pair (high low : Nat) : Nat :=
  0x10000 + (high - 0xd800) * 0x400 + (low - 0xdc00)

namespace Piece

def text : Piece → Bytes
  | .plain c => String.utf8EncodeChar c
  | .escape letter _ => [Theory.backslash, letter]
  | .unit digits _ => Theory.backslash :: 0x75 :: digits

def Valid : Piece → Prop
  | .plain c => 0x20 ≤ c.toNat ∧ c.toNat ≠ 0x22 ∧ c.toNat ≠ 0x5c
  | .escape letter c => Escape letter c
  | .unit digits value => digits.length = 4 ∧ hexDigits digits 0 = some value

end Piece

/-- The text that pieces denote, if they denote one. -/
def denoted : List Piece → Option (List Char)
  | [] => some []
  | .plain c :: rest => (denoted rest).map (c :: ·)
  | .escape _ c :: rest => (denoted rest).map (c :: ·)
  | .unit _ value :: rest =>
      if HighSurrogate value then
        match rest with
        | .unit _ low :: rest =>
            if LowSurrogate low then (denoted rest).map (Char.ofNat (pair value low) :: ·) else none
        | _ => none
      else if LowSurrogate value then none
      else (denoted rest).map (Char.ofNat value :: ·)

section Denoted

variable {digits : Bytes} {value : Nat} {rest : List Piece}

theorem denoted_lone (high : HighSurrogate value)
    (alone : ∀ lows low more, rest ≠ .unit lows low :: more) :
    denoted (.unit digits value :: rest) = none := by
  cases rest with
  | nil => simp [denoted, high]
  | cons next more =>
      cases next with
      | unit lows low => exact absurd rfl (alone lows low more)
      | _ => simp [denoted, high]

theorem denoted_low (notHigh : ¬ HighSurrogate value) (low : LowSurrogate value) :
    denoted (.unit digits value :: rest) = none := by
  cases rest with
  | nil => simp [denoted, notHigh, low]
  | cons next more => cases next <;> simp [denoted, notHigh, low]

theorem denoted_scalar (notHigh : ¬ HighSurrogate value) (notLow : ¬ LowSurrogate value) :
    denoted (.unit digits value :: rest) = (denoted rest).map (Char.ofNat value :: ·) := by
  cases rest with
  | nil => simp [denoted, notHigh, notLow]
  | cons next more => cases next <;> simp [denoted, notHigh, notLow]

end Denoted

/-- The text of pieces, as it stands between the quotes. -/
def written (pieces : List Piece) : Bytes :=
  pieces.flatMap Piece.text

@[simp] theorem written_nil : written [] = [] := rfl

@[simp] theorem written_cons (piece : Piece) (pieces : List Piece) :
    written (piece :: pieces) = piece.text ++ written pieces := by
  simp [written]

/-- The lexicon of standard JSON. -/
def standard : Lexicon where
  space b := b = 0x20 ∨ b = 0x09 ∨ b = 0x0a ∨ b = 0x0d
  string text key := ∃ pieces : List Piece, (∀ piece ∈ pieces, piece.Valid) ∧
    text = quote :: (written pieces ++ [quote]) ∧ key = denoted pieces

theorem hexDigit_lt {b : UInt8} {digit : Nat} (found : hexDigit b = some digit) : digit < 16 := by
  unfold hexDigit at found
  split at found
  · rename_i range
    have := UInt8.le_iff_toNat_le.1 range.2
    obtain rfl := Option.some.inj found
    simp at this
    omega
  · split at found
    · rename_i range
      have := UInt8.le_iff_toNat_le.1 range.2
      obtain rfl := Option.some.inj found
      simp at this
      omega
    · split at found
      · rename_i range
        have := UInt8.le_iff_toNat_le.1 range.2
        obtain rfl := Option.some.inj found
        simp at this
        omega
      · simp at found

theorem hexDigits_lt {digits : Bytes} {start value : Nat}
    (found : hexDigits digits start = some value) :
    value < (start + 1) * 16 ^ digits.length := by
  induction digits generalizing start with
  | nil =>
      obtain rfl := Option.some.inj found
      simp
  | cons b rest ih =>
      obtain ⟨digit, isDigit, further⟩ := Option.bind_eq_some_iff.1 found
      have small := hexDigit_lt isDigit
      have bound := ih further
      rw [List.length_cons, Nat.pow_succ]
      calc value < (start * 16 + digit + 1) * 16 ^ rest.length := bound
        _ ≤ (start + 1) * 16 * 16 ^ rest.length := Nat.mul_le_mul_right _ (by omega)
        _ = (start + 1) * (16 ^ rest.length * 16) := by rw [Nat.mul_assoc, Nat.mul_comm 16]

/-- A code unit is one of 16 bits. -/
theorem unit_lt {digits : Bytes} {value : Nat} (valid : (Piece.unit digits value).Valid) :
    value < 0x10000 := by
  have bound := hexDigits_lt valid.2
  rw [valid.1] at bound
  simpa using bound

end Luhmen.Theory.JsonText
