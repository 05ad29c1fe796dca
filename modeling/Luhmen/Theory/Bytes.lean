/-
# Theory.Bytes -- byte lists, ASCII and UTF-8

`fromUtf8` decodes a byte list one scalar at a time with core's single-scalar
decoder, by structural recursion so that it evaluates.  `fromUtf8_encode` and
`encode_fromUtf8` say that it inverts the encoding `encode`, in both directions.
-/
import Mathlib.Data.List.Basic

namespace Luhmen.Theory

set_option autoImplicit false

abbrev Bytes := List UInt8

/-- The bytes of an ASCII text. -/
def ascii (text : String) : Bytes :=
  text.toList.map fun c => UInt8.ofNat c.toNat

abbrev quote : UInt8 := 0x22
abbrev comma : UInt8 := 0x2c
abbrev colon : UInt8 := 0x3a
abbrev openBracket : UInt8 := 0x5b
abbrev backslash : UInt8 := 0x5c
abbrev closeBracket : UInt8 := 0x5d
abbrev openBrace : UInt8 := 0x7b
abbrev closeBrace : UInt8 := 0x7d

def hexDigit (b : UInt8) : Option Nat :=
  if 0x30 ≤ b ∧ b ≤ 0x39 then some (b.toNat - 0x30)
  else if 0x41 ≤ b ∧ b ≤ 0x46 then some (b.toNat - 0x37)
  else if 0x61 ≤ b ∧ b ≤ 0x66 then some (b.toNat - 0x57)
  else none

/-- The number that hexadecimal digits write, behind those already read as `value`. -/
def hexDigits : Bytes → Nat → Option Nat
  | [], value => some value
  | b :: rest, value => (hexDigit b).bind fun digit => hexDigits rest (value * 16 + digit)

/-- Texts compare as they are decided to be equal. -/
instance lawfulBEq_text : LawfulBEq (List Char) :=
  inferInstance

/-- A fact about all items of a list, from its test of each: `decide` on the quantifier
would go through the whole type where that is finite. -/
theorem forall_mem_of_all {α : Type} {p : α → Prop} [DecidablePred p] {l : List α}
    (all : l.all (fun a => decide (p a)) = true) : ∀ a ∈ l, p a :=
  fun a member => of_decide_eq_true (List.all_eq_true.1 all a member)

namespace Utf8

/-- The UTF-8 encoding of a text. -/
def encode (text : List Char) : Bytes :=
  text.flatMap String.utf8EncodeChar

/-- The first scalar of `bytes`. -/
def first (bytes : Bytes) : Option Char :=
  (ByteArray.mk bytes.toArray).utf8DecodeChar? 0

/-- Decode scalars until the bytes run out; `fuel` bounds their number. -/
def decode : Nat → Bytes → Option (List Char)
  | _, [] => some []
  | 0, _ :: _ => none
  | fuel + 1, b :: bytes =>
      match first (b :: bytes) with
      | none => none
      | some c => (decode fuel ((b :: bytes).drop c.utf8Size)).map (c :: ·)

/-- `std::str::from_utf8`, with the text as its scalars. -/
def fromUtf8 (bytes : Bytes) : Option (List Char) :=
  decode bytes.length bytes

@[simp] theorem encode_nil : encode [] = [] := rfl

@[simp] theorem encode_cons (c : Char) (text : List Char) :
    encode (c :: text) = String.utf8EncodeChar c ++ encode text := by
  simp [encode]

theorem first_append (c : Char) (bytes : Bytes) :
    first (String.utf8EncodeChar c ++ bytes) = some c := by
  have split : ByteArray.mk (String.utf8EncodeChar c ++ bytes).toArray =
      (String.utf8EncodeChar c).toByteArray ++ bytes.toByteArray := by
    apply ByteArray.ext
    simp
  rw [first, split]
  exact ByteArray.utf8DecodeChar?_utf8EncodeChar_append

theorem eq_append_of_first {bytes : Bytes} {c : Char} (found : first bytes = some c) :
    bytes = String.utf8EncodeChar c ++ bytes.drop c.utf8Size := by
  obtain ⟨rest, split⟩ := ByteArray.exists_of_utf8DecodeChar?_eq_some found
  have lists : bytes = String.utf8EncodeChar c ++ rest.data.toList := by
    have := congrArg (fun b => b.data.toList) split
    simpa using this
  rw [lists, ← String.length_utf8EncodeChar, List.drop_left]

theorem utf8EncodeChar_ne_nil (c : Char) : String.utf8EncodeChar c ≠ [] := by
  intro empty
  have := String.length_utf8EncodeChar c
  rw [empty] at this
  have := c.utf8Size_pos
  simp_all

/-- A scalar below 128 is its own byte, and the bytes of any other are from 128 on. -/
theorem mem_utf8EncodeChar {c : Char} {b : UInt8} (member : b ∈ String.utf8EncodeChar c) :
    b.toNat = c.toNat ∨ 0x80 ≤ b.toNat := by
  revert member
  fun_cases String.utf8EncodeChar <;> intro member <;>
    simp only [List.mem_cons, List.not_mem_nil, or_false] at member
  · left
    rw [member, UInt8.toNat_ofNat']
    show c.toNat % 2 ^ 8 = c.toNat
    apply Nat.mod_eq_of_lt
    show c.val.toNat < 2 ^ 8
    omega
  · right
    rcases member with rfl | rfl <;> rw [UInt8.toNat_ofNat'] <;> omega
  · right
    rcases member with rfl | rfl | rfl <;> rw [UInt8.toNat_ofNat'] <;> omega
  · right
    rcases member with rfl | rfl | rfl | rfl <;> rw [UInt8.toNat_ofNat'] <;> omega

theorem utf8EncodeChar_ascii {c : Char} (small : c.toNat < 0x80) :
    String.utf8EncodeChar c = [UInt8.ofNat c.toNat] := by
  have le : c.val.toNat ≤ 0x7f := Nat.le_of_lt_succ small
  unfold String.utf8EncodeChar
  simp only [le, if_true]
  rfl

/-- An ASCII byte as a character. -/
theorem toNat_byte {b : UInt8} (small : b.toNat < 0x80) : (Char.ofNat b.toNat).toNat = b.toNat := by
  have valid : b.toNat.isValidChar := .inl (by omega)
  rw [Char.ofNat, dif_pos valid]
  rfl

theorem utf8EncodeChar_byte {b : UInt8} (small : b.toNat < 0x80) :
    String.utf8EncodeChar (Char.ofNat b.toNat) = [b] := by
  rw [utf8EncodeChar_ascii (by rw [toNat_byte small]; exact small), toNat_byte small,
    UInt8.ofNat_toNat]

/-- ASCII bytes are their own text. -/
theorem encode_bytes {bytes : Bytes} (small : ∀ b ∈ bytes, b.toNat < 0x80) :
    encode (bytes.map fun b => Char.ofNat b.toNat) = bytes := by
  induction bytes with
  | nil => rfl
  | cons b bytes ih =>
      rw [List.map_cons, encode_cons, utf8EncodeChar_byte (small b List.mem_cons_self),
        ih fun c member => small c (List.mem_cons_of_mem _ member)]
      rfl

theorem decode_append (c : Char) (bytes : Bytes) (fuel : Nat) :
    decode (fuel + 1) (String.utf8EncodeChar c ++ bytes) = (decode fuel bytes).map (c :: ·) := by
  obtain ⟨b, rest, shape⟩ := List.exists_cons_of_ne_nil (utf8EncodeChar_ne_nil c)
  have found := first_append c bytes
  have dropped : (String.utf8EncodeChar c ++ bytes).drop c.utf8Size = bytes := by
    rw [← String.length_utf8EncodeChar, List.drop_left]
  rw [shape] at found dropped ⊢
  simp only [List.cons_append] at found dropped ⊢
  rw [decode, found]
  simp only [dropped]

theorem decode_encode (text : List Char) (fuel : Nat) (enough : text.length ≤ fuel) :
    decode fuel (encode text) = some text := by
  induction text generalizing fuel with
  | nil => simp [decode]
  | cons c text ih =>
      obtain ⟨fuel, rfl⟩ : ∃ n, fuel = n + 1 := ⟨fuel - 1, by simp at enough; omega⟩
      rw [encode_cons, decode_append, ih fuel (by simpa using enough)]
      rfl

theorem length_le_encode (text : List Char) : text.length ≤ (encode text).length := by
  induction text with
  | nil => simp
  | cons c text ih =>
      have := c.utf8Size_pos
      simp only [encode_cons, List.length_append, List.length_cons, String.length_utf8EncodeChar]
      omega

/-- Decoding undoes encoding. -/
theorem fromUtf8_encode (text : List Char) : fromUtf8 (encode text) = some text :=
  decode_encode text _ (length_le_encode text)

theorem encode_of_decode {fuel : Nat} {bytes : Bytes} {text : List Char}
    (decoded : decode fuel bytes = some text) : bytes = encode text := by
  induction fuel generalizing bytes text with
  | zero =>
      cases bytes with
      | nil => simp only [decode, Option.some.injEq] at decoded; simp [← decoded]
      | cons b bytes => simp [decode] at decoded
  | succ fuel ih =>
      cases bytes with
      | nil => simp only [decode, Option.some.injEq] at decoded; simp [← decoded]
      | cons b bytes =>
          simp only [decode] at decoded
          split at decoded
          · simp at decoded
          · rename_i c found
            simp only [Option.map_eq_some_iff] at decoded
            obtain ⟨rest, tail, rfl⟩ := decoded
            rw [encode_cons, ← ih tail]
            exact eq_append_of_first found

/-- What decodes is the encoding of its text. -/
theorem encode_fromUtf8 {bytes : Bytes} {text : List Char} (decoded : fromUtf8 bytes = some text) :
    bytes = encode text :=
  encode_of_decode decoded

/-- Encoded text that begins with an encoding begins with its text. -/
theorem append_of_encode {text front : List Char} {post : Bytes}
    (same : encode text = encode front ++ post) : ∃ more, text = front ++ more := by
  induction front generalizing text with
  | nil => exact ⟨text, rfl⟩
  | cons c front ih =>
      rw [encode_cons, List.append_assoc] at same
      cases text with
      | nil =>
          obtain ⟨b, rest, shape⟩ := List.exists_cons_of_ne_nil (utf8EncodeChar_ne_nil c)
          rw [shape] at same
          simp at same
      | cons c' text =>
          rw [encode_cons] at same
          have head := congrArg first same
          rw [first_append, first_append] at head
          obtain rfl := Option.some.inj head
          obtain ⟨more, rfl⟩ := ih (List.append_cancel_left same)
          exact ⟨more, rfl⟩

end Utf8

end Luhmen.Theory
