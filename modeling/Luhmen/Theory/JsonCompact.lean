/-
# Theory.JsonCompact -- JSON documents put together from pieces of ASCII

A program without a JSON library writes a document piece by piece.  `Writes levels v text`
says that what it wrote is `v`, nested no deeper than `levels`, in printable ASCII and without
blanks between tokens.  There is a rule for each way to go on: numbers in decimal, strings that
stand for themselves (`Unescaped`), and arrays and objects from the texts of what is in them
(`arrayText`, `objectText`).

What is written is one line, and reads back as the document it was meant to be
(`Writes.read`).
-/
import Luhmen.Theory.JsonRoundTrip

namespace Luhmen.Theory.Json

set_option autoImplicit false

/-! ## ASCII -/

/-- The characters of an ASCII text. -/
def chars (text : Bytes) : List Char :=
  text.map fun b => Char.ofNat b.toNat

def asString (text : Bytes) : String :=
  String.ofList (chars text)

@[simp] theorem chars_nil : chars [] = [] := rfl

@[simp] theorem chars_cons (b : UInt8) (text : Bytes) :
    chars (b :: text) = Char.ofNat b.toNat :: chars text := rfl

@[simp] theorem chars_append (front back : Bytes) : chars (front ++ back) = chars front ++ chars back :=
  List.map_append

/-- No control characters, and nothing beyond ASCII. -/
def Printable (text : Bytes) : Prop :=
  ∀ b ∈ text, 0x20 ≤ b ∧ b ≤ 0x7e

theorem printable_append {front back : Bytes} (first : Printable front) (second : Printable back) :
    Printable (front ++ back) :=
  fun b member => (List.mem_append.1 member).elim (first b) (second b)

theorem printable_cons {b : UInt8} {text : Bytes} (first : 0x20 ≤ b ∧ b ≤ 0x7e)
    (rest : Printable text) : Printable (b :: text) :=
  List.forall_mem_cons.2 ⟨first, rest⟩

/-- A text that stands for itself between quotes. -/
def Unescaped (text : Bytes) : Prop :=
  text.all (fun b => 0x20 ≤ b && b ≤ 0x7e && b != 0x22 && b != 0x5c) = true

instance (text : Bytes) : Decidable (Unescaped text) :=
  inferInstanceAs (Decidable (_ = true))

theorem unescaped_iff {text : Bytes} :
    Unescaped text ↔ ∀ b ∈ text, (0x20 ≤ b ∧ b ≤ 0x7e) ∧ b ≠ 0x22 ∧ b ≠ 0x5c := by
  simp [Unescaped, and_assoc]

theorem Unescaped.printable {text : Bytes} (unescaped : Unescaped text) : Printable text :=
  fun b member => (unescaped_iff.1 unescaped b member).1

theorem printable_small {b : UInt8} (range : 0x20 ≤ b ∧ b ≤ 0x7e) : b.toNat < 0x80 :=
  Nat.lt_of_le_of_lt (UInt8.le_iff_toNat_le.1 range.2) (by decide)

theorem fromUtf8_chars {text : Bytes} (printable : Printable text) :
    Utf8.fromUtf8 text = some (chars text) := by
  have same := Utf8.fromUtf8_encode (chars text)
  rwa [chars, Utf8.encode_bytes fun b member => printable_small (printable b member)] at same

theorem letters_chars {text : Bytes} (unescaped : Unescaped text) : Letters (chars text) (chars text) := by
  have all := unescaped_iff.1 unescaped
  clear unescaped
  induction text with
  | nil => exact .nil
  | cons b rest ih =>
      obtain ⟨range, noQuote, noBackslash⟩ := all b List.mem_cons_self
      have low := UInt8.le_iff_toNat_le.1 range.1
      have same := Utf8.toNat_byte (printable_small range)
      have other : ∀ c : UInt8, c.toNat < 0x80 → b ≠ c → Char.ofNat b.toNat ≠ Char.ofNat c.toNat := by
        intro c small differs is
        have equal := congrArg Char.toNat is
        rw [same, Utf8.toNat_byte small] at equal
        exact differs (UInt8.toNat_inj.1 equal)
      refine .plain ⟨other quote (by decide) noQuote, other backslash (by decide) noBackslash, ?_⟩
        (ih fun c member => all c (List.mem_cons_of_mem _ member))
      rw [same]
      exact low

/-! ## What is written -/

variable {F : Type} {levels : Nat}

structure Writes (levels : Nat) (v : Json F) (text : Bytes) : Prop where
  printable : Printable text
  spelled : Spells levels v (chars text)

theorem writes_null : Writes levels (.null : Json F) (ascii "null") :=
  ⟨forall_mem_of_all (by decide), .null⟩

theorem writes_bool (value : Bool) :
    Writes levels (.bool value : Json F) (if value then ascii "true" else ascii "false") := by
  cases value with
  | true => exact ⟨forall_mem_of_all (by decide), .yes⟩
  | false => exact ⟨forall_mem_of_all (by decide), .no⟩

theorem printable_decimal (n : Nat) : Printable (decimal n) := by
  intro b member
  obtain ⟨low, high⟩ := decimal_digit b member
  exact ⟨UInt8.le_trans (by decide) low, UInt8.le_trans high (by decide)⟩

theorem chars_decimal (n : Nat) : chars (decimal n) = Nat.toDigits 10 n := by
  rw [chars, decimal, List.map_map]
  refine List.map_congr_left (fun c member => ?_) |>.trans (List.map_id _)
  have same := (digit_byte (isDigit_of_mem_toDigits member)).1
  simp only [Function.comp_apply, same, Char.ofNat_toNat, id]

theorem writes_decimal {n : Nat} (small : n < 0x10000000000000000) :
    Writes levels (.int n : Json F) (decimal n) := by
  have whole : Whole (n : Int) := ⟨by omega, Int.ofNat_lt.2 small⟩
  have spelled : Spells levels (.int n : Json F) (toString (n : Int)).toList := .int whole
  rw [toList_natural, ← chars_decimal] at spelled
  exact ⟨printable_decimal n, spelled⟩

theorem writes_negative {n : Nat} (small : n < 0x8000000000000000) :
    Writes levels (.int (.negSucc n) : Json F) (0x2d :: decimal (n + 1)) := by
  have whole : Whole (Int.negSucc n) := ⟨by omega, by omega⟩
  have spelled : Spells levels (.int (.negSucc n) : Json F) (toString (Int.negSucc n)).toList :=
    .int whole
  rw [toList_negative, ← chars_decimal] at spelled
  exact ⟨printable_cons (by decide) (printable_decimal _), spelled⟩

/-- A text between quotes. -/
def quoted (text : Bytes) : Bytes :=
  quote :: (text ++ [quote])

theorem writes_quoted {text : Bytes} (unescaped : Unescaped text) :
    Writes levels (.string (asString text) : Json F) (quoted text) := by
  have letters : Letters (asString text).toList (chars text) := by
    rw [asString, String.toList_ofList]
    exact letters_chars unescaped
  have spelled : Spells levels (.string (asString text) : Json F) ('"' :: (chars text ++ ['"'])) :=
    .string letters
  refine ⟨printable_cons (by decide) (printable_append unescaped.printable
    (forall_mem_of_all (by decide))), ?_⟩
  rw [quoted, chars_cons, chars_append]
  exact spelled

/-! ## Arrays and objects -/

def arrayText (texts : List Bytes) : Bytes :=
  openBracket :: ([comma].intercalate texts ++ [closeBracket])

def objectText (texts : List Bytes) : Bytes :=
  Theory.openBrace :: ([comma].intercalate texts ++ [Theory.closeBrace])

def memberText (name text : Bytes) : Bytes :=
  quoted name ++ colon :: text

def WritesMember (levels : Nat) (member : String × Json F) (text : Bytes) : Prop :=
  ∃ name written, Unescaped name ∧ member.1 = asString name ∧ Writes levels member.2 written ∧
    text = memberText name written

theorem writesMember {name text : Bytes} {v : Json F} (unescaped : Unescaped name)
    (writes : Writes levels v text) : WritesMember levels (asString name, v) (memberText name text) :=
  ⟨name, text, unescaped, rfl, writes, rfl⟩

theorem WritesMember.printable {member : String × Json F} {text : Bytes}
    (writes : WritesMember levels member text) : Printable text := by
  obtain ⟨name, written, unescaped, _, value, rfl⟩ := writes
  have quotes : Writes 0 (.string (asString name) : Json F) (quoted name) := writes_quoted unescaped
  have named : Printable (quoted name) := quotes.printable
  exact printable_append named (printable_cons (by decide) value.printable)

theorem printable_intercalate {α : Type} {wrote : α → Bytes → Prop}
    (printable : ∀ a text, wrote a text → Printable text) {items : List α} {texts : List Bytes}
    (all : List.Forall₂ wrote items texts) : Printable ([comma].intercalate texts) := by
  induction all with
  | nil => exact fun _ member => nomatch member
  | @cons _ text items texts first rest ih =>
      cases rest with
      | nil =>
          rw [List.intercalate_singleton]
          exact printable _ _ first
      | cons second rest =>
          rw [List.intercalate_cons_cons]
          exact printable_append (printable_append (printable _ _ first)
            (forall_mem_of_all (by decide))) ih

theorem spellsItems_texts {item : Json F} {items : List (Json F)} {text : Bytes} {texts : List Bytes}
    (first : Writes levels item text) (rest : List.Forall₂ (Writes levels) items texts) :
    SpellsItems levels (item :: items)
      (chars ([comma].intercalate (text :: texts) ++ [closeBracket])) := by
  induction rest generalizing item text with
  | nil =>
      have last := SpellsItems.last blank_nil first.spelled blank_nil
      rwa [List.intercalate_singleton, chars_append]
  | cons second rest ih =>
      have more := SpellsItems.more blank_nil first.spelled blank_nil (ih second)
      rw [List.intercalate_cons_cons, List.append_assoc, List.append_assoc, chars_append]
      exact more

theorem Writes.array {items : List (Json F)} {texts : List Bytes}
    (all : List.Forall₂ (Writes levels) items texts) :
    Writes (levels + 1) (.array items) (arrayText texts) := by
  refine ⟨printable_cons (by decide) (printable_append
    (printable_intercalate (fun _ _ => Writes.printable) all) (forall_mem_of_all (by decide))), ?_⟩
  cases all with
  | nil => exact .noItems blank_nil
  | cons first rest => exact .array (spellsItems_texts first rest)

theorem spellsMembers_texts {member : String × Json F} {members : List (String × Json F)}
    {text : Bytes} {texts : List Bytes} (first : WritesMember levels member text)
    (rest : List.Forall₂ (WritesMember levels) members texts) :
    SpellsMembers levels (member :: members)
      (chars ([comma].intercalate (text :: texts) ++ [Theory.closeBrace])) := by
  have letters : ∀ {name : Bytes}, Unescaped name → Letters (asString name).toList (chars name) :=
    fun {name} unescaped => by
      rw [asString, String.toList_ofList]
      exact letters_chars unescaped
  induction rest generalizing member text with
  | nil =>
      obtain ⟨key, v⟩ := member
      obtain ⟨name, written, unescaped, rfl, value, rfl⟩ := first
      have last := SpellsMembers.last blank_nil (letters unescaped) blank_nil blank_nil value.spelled
        blank_nil
      rw [List.intercalate_singleton, memberText, quoted]
      simp only [List.cons_append, List.append_assoc, chars_cons, chars_append]
      exact last
  | cons second rest ih =>
      obtain ⟨key, v⟩ := member
      obtain ⟨name, written, unescaped, rfl, value, rfl⟩ := first
      have more := SpellsMembers.more blank_nil (letters unescaped) blank_nil blank_nil value.spelled
        blank_nil (ih second)
      rw [List.intercalate_cons_cons, memberText, quoted]
      simp only [List.cons_append, List.append_assoc, chars_cons, chars_append] at more ⊢
      exact more

theorem Writes.object {members : List (String × Json F)} {texts : List Bytes}
    (all : List.Forall₂ (WritesMember levels) members texts) :
    Writes (levels + 1) (.object members) (objectText texts) := by
  refine ⟨printable_cons (by decide) (printable_append
    (printable_intercalate (fun _ _ => WritesMember.printable) all)
    (forall_mem_of_all (by decide))), ?_⟩
  cases all with
  | nil => exact .noMembers blank_nil
  | cons first rest => exact .object (spellsMembers_texts first rest)

/-! ## Reading -/

/-- It is one line. -/
theorem Writes.line {v : Json F} {text : Bytes} (writes : Writes levels v text) : 0x0a ∉ text :=
  fun member => absurd (writes.printable _ member).1 (by decide)

/-- **What is written is read back.** -/
theorem Writes.read (float : List Char → Option F) {v : Json F} {text : Bytes}
    (writes : Writes depthLimit v text) : readBytes float text = some v := by
  rw [readBytes, fromUtf8_chars writes.printable, Option.bind_some]
  have read := read_spells float blank_nil writes.spelled blank_nil
  rwa [List.nil_append, List.append_nil] at read

end Luhmen.Theory.Json
