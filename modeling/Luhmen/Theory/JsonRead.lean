/-
# Theory.JsonRead -- reading a JSON document

`read` reads a document the way JSON libraries do by default: blanks between tokens,
all escapes of strings, whole numbers of 64 bits apart from other ones (`float` makes
those), nesting up to a limit, nothing behind the document.  The members of an object
stay as the text has them; what a name means when it stands twice is left to the user.

`Spells levels v text` is a grammar of its own: `text` writes `v`, nested no deeper than
`levels`.  What is spelled is read back, whatever the blanks (`read_spells`).
-/
import Luhmen.Theory.Decimal
import Luhmen.Theory.JsonValue

namespace Luhmen.Theory.Json

set_option autoImplicit false

/-! ## Tokens -/

def isBlank (c : Char) : Bool :=
  c == ' ' || c == '\n' || c == '\t' || c == '\r'

def skip (text : List Char) : List Char :=
  text.dropWhile isBlank

/-- What stands behind a character. -/
def expect (c : Char) : List Char → Option (List Char)
  | [] => none
  | d :: rest => if d = c then some rest else none

def hexDigitValue (c : Char) : Option Nat :=
  if '0' ≤ c ∧ c ≤ '9' then some (c.toNat - 0x30)
  else if 'a' ≤ c ∧ c ≤ 'f' then some (c.toNat - 0x57)
  else if 'A' ≤ c ∧ c ≤ 'F' then some (c.toNat - 0x37)
  else none

/-- The code unit behind a `\u`. -/
def readUnit : List Char → Option (Nat × List Char)
  | a :: b :: c :: d :: rest => do
      let a ← hexDigitValue a
      let b ← hexDigitValue b
      let c ← hexDigitValue c
      let d ← hexDigitValue d
      some (((a * 16 + b) * 16 + c) * 16 + d, rest)
  | _ => none

/-- The second half of a surrogate pair. -/
def readLow (high : Nat) (text : List Char) : Option (Char × List Char) := do
  let rest ← (expect '\\' text).bind (expect 'u')
  let (low, rest) ← readUnit rest
  if 0xdc00 ≤ low ∧ low < 0xe000 then
    some (Char.ofNat (0x10000 + (high - 0xd800) * 0x400 + (low - 0xdc00)), rest)
  else none

/-- What stands behind a backslash. -/
def readEscape : List Char → Option (Char × List Char)
  | [] => none
  | c :: rest =>
      if c = '"' ∨ c = '\\' ∨ c = '/' then some (c, rest)
      else if c = 'b' then some (Char.ofNat 0x08, rest)
      else if c = 'f' then some (Char.ofNat 0x0c, rest)
      else if c = 'n' then some ('\n', rest)
      else if c = 'r' then some ('\r', rest)
      else if c = 't' then some ('\t', rest)
      else if c = 'u' then do
        let (unit, rest) ← readUnit rest
        if 0xd800 ≤ unit ∧ unit < 0xdc00 then readLow unit rest
        else if 0xdc00 ≤ unit ∧ unit < 0xe000 then none
        else some (Char.ofNat unit, rest)
      else none

/-- A string behind its opening quote; `fuel` bounds the characters. -/
def readChars : Nat → List Char → Option (List Char × List Char)
  | 0, _ => none
  | _ + 1, [] => none
  | fuel + 1, c :: rest =>
      if c = '"' then some ([], rest)
      else if c = '\\' then do
        let (c, rest) ← readEscape rest
        let (chars, rest) ← readChars fuel rest
        some (c :: chars, rest)
      else if c.toNat < 0x20 then none
      else do
        let (chars, rest) ← readChars fuel rest
        some (c :: chars, rest)

def readString (text : List Char) : Option (String × List Char) :=
  (readChars (text.length + 1) text).map fun (chars, rest) => (String.ofList chars, rest)

/-! ## Numbers -/

/-- Digits as a number may begin with them. -/
def wholePart (digits : List Char) : Bool :=
  digits ≠ [] && (digits.head? ≠ some '0' || digits.length = 1)

/-- A fraction and an exponent, if they are there; the flag says that one is. -/
def readFraction (text : List Char) : Option (Bool × List Char) :=
  match expect '.' text with
  | some rest =>
      if rest.takeWhile Char.isDigit = [] then none else some (true, rest.dropWhile Char.isDigit)
  | none => some (false, text)

def readExponent (text : List Char) : Option (Bool × List Char) :=
  match text with
  | c :: rest =>
      if c = 'e' ∨ c = 'E' then
        let rest := if rest.head? = some '+' ∨ rest.head? = some '-' then rest.drop 1 else rest
        if rest.takeWhile Char.isDigit = [] then none
        else some (true, rest.dropWhile Char.isDigit)
      else some (false, text)
  | [] => some (false, text)

/-- Whole numbers of 64 bits, with a sign or without. -/
def Whole (n : Int) : Prop :=
  -0x8000000000000000 ≤ n ∧ n < 0x10000000000000000

instance (n : Int) : Decidable (Whole n) :=
  inferInstanceAs (Decidable (_ ∧ _))

variable {F : Type} (float : List Char → Option F)

def readNumber (text : List Char) : Option (Json F × List Char) := do
  let negative := decide (text.head? = some '-')
  let unsigned := if negative then text.drop 1 else text
  let digits := unsigned.takeWhile Char.isDigit
  if wholePart digits then
    let (fraction, rest) ← readFraction (unsigned.dropWhile Char.isDigit)
    let (exponent, rest) ← readExponent rest
    let size : Int := Nat.ofDigitChars 10 digits 0
    let value := if negative then -size else size
    if fraction = false ∧ exponent = false ∧ Whole value ∧ ¬ (negative = true ∧ size = 0) then
      some (.int value, rest)
    else
      let value ← float (text.take (text.length - rest.length))
      some (.float value, rest)
  else none

/-! ## Documents -/

def literal (word : String) (value : Json F) (text : List Char) : Option (Json F × List Char) :=
  (List.isPrefixOf? word.toList text).map fun rest => (value, rest)

def openBrace : Char := Char.ofNat 0x7b

def closeBrace : Char := Char.ofNat 0x7d

/-- One level further in, as far as that is allowed. -/
def nested {α : Type} (levels : Nat) (inside : Nat → Option α) : Option α :=
  match levels with
  | 0 => none
  | levels + 1 => inside levels

mutual

def readValue : Nat → Nat → List Char → Option (Json F × List Char)
  | 0, _, _ => none
  | _ + 1, _, [] => none
  | fuel + 1, levels, c :: rest =>
      if c = '"' then (readString rest).map fun (text, rest) => (.string text, rest)
      else if c = '[' then
        nested levels fun levels =>
          if (skip rest).head? = some ']' then some (.array [], (skip rest).drop 1)
          else (readItems fuel levels rest).map fun (items, rest) => (.array items, rest)
      else if c = openBrace then
        nested levels fun levels =>
          if (skip rest).head? = some closeBrace then some (.object [], (skip rest).drop 1)
          else (readMembers fuel levels rest).map fun (members, rest) => (.object members, rest)
      else if c = 'n' then literal "null" .null (c :: rest)
      else if c = 't' then literal "true" (.bool true) (c :: rest)
      else if c = 'f' then literal "false" (.bool false) (c :: rest)
      else readNumber float (c :: rest)

/-- Items up to the closing bracket. -/
def readItems : Nat → Nat → List Char → Option (List (Json F) × List Char)
  | 0, _, _ => none
  | fuel + 1, levels, text => do
      let (item, rest) ← readValue fuel levels (skip text)
      match skip rest with
      | c :: rest =>
          if c = ']' then some ([item], rest)
          else if c = ',' then do
            let (items, rest) ← readItems fuel levels rest
            some (item :: items, rest)
          else none
      | [] => none

/-- Members up to the closing brace. -/
def readMembers : Nat → Nat → List Char → Option (List (String × Json F) × List Char)
  | 0, _, _ => none
  | fuel + 1, levels, text => do
      let (name, rest) ← (expect '"' (skip text)).bind readString
      let rest ← expect ':' (skip rest)
      let (value, rest) ← readValue fuel levels (skip rest)
      match skip rest with
      | c :: rest =>
          if c = closeBrace then some ([(name, value)], rest)
          else if c = ',' then do
            let (members, rest) ← readMembers fuel levels rest
            some ((name, value) :: members, rest)
          else none
      | [] => none

end

/-- How deep a document may nest. -/
def depthLimit : Nat := 127

def read (text : List Char) : Option (Json F) := do
  let (v, rest) ← readValue float (2 * text.length + 1) depthLimit (skip text)
  if skip rest = [] then some v else none

/-! ## What a text spells -/

def Blank (text : List Char) : Prop :=
  ∀ c ∈ text, isBlank c = true

/-- The letters of a string, and how they stand between the quotes. -/
inductive Letters : List Char → List Char → Prop where
  | nil : Letters [] []
  | plain {c : Char} {chars text : List Char} (clean : c ≠ '"' ∧ c ≠ '\\' ∧ 0x20 ≤ c.toNat)
      (spelled : Letters chars text) : Letters (c :: chars) (c :: text)
  | escaped {c : Char} {escape chars text : List Char}
      (reads : ∀ rest, readEscape (escape ++ rest) = some (c, rest))
      (spelled : Letters chars text) : Letters (c :: chars) ('\\' :: (escape ++ text))

mutual

inductive Spells : Nat → Json F → List Char → Prop where
  | null {levels : Nat} : Spells levels .null "null".toList
  | yes {levels : Nat} : Spells levels (.bool true) "true".toList
  | no {levels : Nat} : Spells levels (.bool false) "false".toList
  | int {levels : Nat} {n : Int} (whole : Whole n) : Spells levels (.int n) (toString n).toList
  | string {levels : Nat} {text : String} {letters : List Char}
      (spelled : Letters text.toList letters) :
      Spells levels (.string text) ('"' :: (letters ++ ['"']))
  | noItems {levels : Nat} {blank : List Char} (isBlank : Blank blank) :
      Spells (levels + 1) (.array []) ('[' :: (blank ++ [']']))
  | array {levels : Nat} {items : List (Json F)} {text : List Char}
      (spelled : SpellsItems levels items text) : Spells (levels + 1) (.array items) ('[' :: text)
  | noMembers {levels : Nat} {blank : List Char} (isBlank : Blank blank) :
      Spells (levels + 1) (.object []) (openBrace :: (blank ++ [closeBrace]))
  | object {levels : Nat} {members : List (String × Json F)} {text : List Char}
      (spelled : SpellsMembers levels members text) :
      Spells (levels + 1) (.object members) (openBrace :: text)

/-- Items behind a bracket or a comma, with the bracket that closes them. -/
inductive SpellsItems : Nat → List (Json F) → List Char → Prop where
  | last {levels : Nat} {v : Json F} {before text after : List Char} (front : Blank before)
      (spelled : Spells levels v text) (back : Blank after) :
      SpellsItems levels [v] (before ++ (text ++ (after ++ [']'])))
  | more {levels : Nat} {v : Json F} {items : List (Json F)} {before text after rest : List Char}
      (front : Blank before) (spelled : Spells levels v text) (back : Blank after)
      (others : SpellsItems levels items rest) :
      SpellsItems levels (v :: items) (before ++ (text ++ (after ++ ',' :: rest)))

/-- Members behind a brace or a comma, with the brace that closes them. -/
inductive SpellsMembers : Nat → List (String × Json F) → List Char → Prop where
  | last {levels : Nat} {name : String} {v : Json F}
      {before letters between gap text after : List Char} (front : Blank before)
      (named : Letters name.toList letters) (middle : Blank between) (space : Blank gap)
      (spelled : Spells levels v text) (back : Blank after) :
      SpellsMembers levels [(name, v)] (before ++ '"' :: (letters ++ '"' :: (between ++ ':' ::
        (gap ++ (text ++ (after ++ [closeBrace]))))))
  | more {levels : Nat} {name : String} {v : Json F} {members : List (String × Json F)}
      {before letters between gap text after rest : List Char} (front : Blank before)
      (named : Letters name.toList letters) (middle : Blank between) (space : Blank gap)
      (spelled : Spells levels v text) (back : Blank after)
      (others : SpellsMembers levels members rest) :
      SpellsMembers levels ((name, v) :: members) (before ++ '"' :: (letters ++ '"' :: (between ++
        ':' :: (gap ++ (text ++ (after ++ ',' :: rest))))))

end

/-! ## What is spelled is read back -/

theorem skip_append {blank text : List Char} (isBlank : Blank blank)
    (begins : ∀ c, text.head? = some c → Json.isBlank c = false) : skip (blank ++ text) = text := by
  induction blank with
  | nil =>
      cases text with
      | nil => rfl
      | cons c rest => exact List.dropWhile_cons_of_neg (by simp [begins c rfl])
  | cons c rest ih =>
      rw [List.cons_append, skip, List.dropWhile_cons_of_pos (isBlank c List.mem_cons_self)]
      exact ih fun d member => isBlank d (List.mem_cons_of_mem _ member)

theorem readChars_letters {chars letters : List Char} (spelled : Letters chars letters)
    {fuel : Nat} (enough : letters.length < fuel) (rest : List Char) :
    readChars fuel (letters ++ '"' :: rest) = some (chars, rest) := by
  induction spelled generalizing fuel with
  | nil =>
      obtain ⟨fuel, rfl⟩ := Nat.exists_eq_add_of_lt enough
      simp [readChars]
  | plain clean spelled ih =>
      obtain ⟨fuel, rfl⟩ := Nat.exists_eq_add_of_lt enough
      simp only [List.length_cons] at enough ⊢
      rw [List.cons_append, readChars, if_neg clean.1, if_neg clean.2.1,
        if_neg (Nat.not_lt.2 clean.2.2), ih (by omega)]
      rfl
  | @escaped c escape chars text reads spelled ih =>
      obtain ⟨fuel, rfl⟩ := Nat.exists_eq_add_of_lt enough
      simp only [List.length_cons, List.length_append] at enough ⊢
      rw [List.cons_append, readChars, if_neg (by decide), if_pos rfl, List.append_assoc, reads,
        Option.bind_eq_bind, Option.bind_some]
      dsimp only
      rw [ih (by omega)]
      rfl

theorem readString_letters {text : String} {letters : List Char}
    (spelled : Letters text.toList letters) (rest : List Char) :
    readString (letters ++ '"' :: rest) = some (text, rest) := by
  have enough : letters.length < (letters ++ '"' :: rest).length + 1 := by
    rw [List.length_append]
    omega
  rw [readString, readChars_letters spelled enough, Option.map_some]
  dsimp only
  rw [String.ofList_toList]

theorem expect_cons (c : Char) (rest : List Char) : expect c (c :: rest) = some rest :=
  if_pos rfl

/-- A text behind a value, where no number goes on. -/
def Ends (rest : List Char) : Prop :=
  ∀ c, rest.head? = some c → c.isDigit = false ∧ c ≠ '.' ∧ c ≠ 'e' ∧ c ≠ 'E'

theorem ends_cons {c : Char} {rest : List Char}
    (other : c.isDigit = false ∧ c ≠ '.' ∧ c ≠ 'e' ∧ c ≠ 'E') : Ends (c :: rest) := by
  intro d is
  obtain rfl := Option.some.inj is
  exact other

theorem ends_blank {blank rest : List Char} (isBlank : Blank blank) (ends : Ends rest) :
    Ends (blank ++ rest) := by
  cases blank with
  | nil => exact ends
  | cons c others =>
      refine ends_cons ?_
      have := isBlank c List.mem_cons_self
      simp only [Json.isBlank, Bool.or_eq_true, beq_iff_eq] at this
      rcases this with ((rfl | rfl) | rfl) | rfl <;> decide

/-- Digits, up to where the number ends. -/
theorem digits_append {digits rest : List Char} (all : ∀ c ∈ digits, c.isDigit = true)
    (ends : Ends rest) : (digits ++ rest).takeWhile Char.isDigit = digits ∧
      (digits ++ rest).dropWhile Char.isDigit = rest := by
  induction digits with
  | nil =>
      cases rest with
      | nil => exact ⟨rfl, rfl⟩
      | cons c others =>
          have stops := (ends c rfl).1
          exact ⟨List.takeWhile_cons_of_neg (by simp [stops]),
            List.dropWhile_cons_of_neg (by simp [stops])⟩
  | cons c others ih =>
      have digit := all c List.mem_cons_self
      have := ih fun d member => all d (List.mem_cons_of_mem _ member)
      rw [List.cons_append, List.takeWhile_cons_of_pos digit, List.dropWhile_cons_of_pos digit,
        this.1, this.2]
      exact ⟨rfl, rfl⟩

theorem readFraction_ends {rest : List Char} (ends : Ends rest) :
    readFraction rest = some (false, rest) := by
  have other : expect '.' rest = none := by
    cases rest with
    | nil => rfl
    | cons c others => exact if_neg (ends c rfl).2.1
  rw [readFraction, other]

theorem readExponent_ends {rest : List Char} (ends : Ends rest) :
    readExponent rest = some (false, rest) := by
  unfold readExponent
  split
  · rename_i c others
    rw [if_neg (by rintro (rfl | rfl); exacts [(ends _ rfl).2.2.1 rfl, (ends _ rfl).2.2.2 rfl])]
  · rfl

/-- A number has no leading zero. -/
theorem wholePart_toDigits (n : Nat) : wholePart (Nat.toDigits 10 n) = true := by
  by_cases zero : n = 0
  · subst zero
    rfl
  · cases digits : Nat.toDigits 10 n with
    | nil => exact absurd digits Nat.toDigits_ne_nil
    | cons c rest =>
        have head : c ≠ '0' := by
          rintro rfl
          refine decimal_head (Nat.pos_of_ne_zero zero) (rest.map fun c => UInt8.ofNat c.toNat) ?_
          rw [decimal, digits]
          rfl
        simp [wholePart, head]

theorem readNumber_natural (n : Nat) (small : n < 0x10000000000000000) {rest : List Char} (ends : Ends rest) :
    readNumber float (Nat.toDigits 10 n ++ rest) = some (.int n, rest) := by
  obtain ⟨taken, left⟩ := digits_append (fun c => isDigit_of_mem_toDigits (n := n)) ends
  have unsigned : (Nat.toDigits 10 n ++ rest).head? ≠ some '-' := by
    cases digits : Nat.toDigits 10 n with
    | nil => exact absurd digits Nat.toDigits_ne_nil
    | cons c others =>
        have digit : c.isDigit = true :=
          isDigit_of_mem_toDigits (n := n) (digits ▸ List.mem_cons_self)
        rintro is
        obtain rfl := Option.some.inj is
        exact absurd digit (by decide)
  have whole : Whole (n : Int) :=
    ⟨by omega, Int.ofNat_lt.2 small⟩
  simp only [readNumber, unsigned, decide_false, Bool.false_eq_true, if_false, taken, left,
    wholePart_toDigits, if_true, readFraction_ends ends, readExponent_ends ends,
    Nat.ofDigitChars_ten_toDigits, Option.bind_eq_bind, Option.bind_some, whole, false_and,
    not_false_eq_true, and_self]

theorem readNumber_negative (n : Nat) (positive : 0 < n) (small : n ≤ 0x8000000000000000)
    {rest : List Char} (ends : Ends rest) :
    readNumber float ('-' :: (Nat.toDigits 10 n ++ rest)) = some (.int (-n), rest) := by
  obtain ⟨taken, left⟩ := digits_append (fun c => isDigit_of_mem_toDigits (n := n)) ends
  have whole : Whole (-(n : Int)) := ⟨by omega, by omega⟩
  have nonzero : (n : Int) ≠ 0 := by omega
  simp only [readNumber, List.head?_cons, decide_true, if_true, List.drop_one, List.tail_cons, taken,
    left, wholePart_toDigits, readFraction_ends ends, readExponent_ends ends,
    Nat.ofDigitChars_ten_toDigits, Option.bind_eq_bind, Option.bind_some, whole, nonzero,
    and_false, not_false_eq_true, and_self]


theorem toList_natural (n : Nat) : (toString (n : Int)).toList = Nat.toDigits 10 n :=
  Nat.toList_repr

theorem toList_negative (n : Nat) :
    (toString (Int.negSucc n)).toList = '-' :: Nat.toDigits 10 (n + 1) := by
  show (("-" : String) ++ Nat.repr (n + 1)).toList = _
  rw [String.toList_append, Nat.toList_repr]
  rfl

theorem readNumber_whole {n : Int} (whole : Whole n) {rest : List Char} (ends : Ends rest) :
    readNumber float ((toString n).toList ++ rest) = some (.int n, rest) := by
  cases n with
  | ofNat n =>
      have small := whole.2
      rw [Int.ofNat_eq_natCast, toList_natural]
      exact readNumber_natural float n (Int.ofNat_lt.1 small) ends
  | negSucc n =>
      have small := whole.1
      rw [toList_negative, Int.negSucc_eq]
      exact readNumber_negative float (n + 1) (Nat.succ_pos n) (by omega) ends

/-- A number begins as nothing else does. -/
theorem whole_head (n : Int) : ∃ c rest, (toString n).toList = c :: rest ∧ isBlank c = false ∧
    c ≠ ']' ∧ c ≠ '"' ∧ c ≠ '[' ∧ c ≠ openBrace ∧ c ≠ 'n' ∧ c ≠ 't' ∧ c ≠ 'f' := by
  cases n with
  | negSucc n => exact ⟨_, _, toList_negative n, by decide⟩
  | ofNat n =>
      cases digits : Nat.toDigits 10 n with
      | nil => exact absurd digits Nat.toDigits_ne_nil
      | cons c others =>
          have digit : c.isDigit = true :=
            isDigit_of_mem_toDigits (n := n) (digits ▸ List.mem_cons_self)
          have other : ∀ d : Char, d.isDigit = false → c ≠ d := by
            rintro d no rfl
            exact absurd digit (by simp [no])
          refine ⟨c, others, (toList_natural n).trans digits, ?_, other _ (by decide),
            other _ (by decide), other _ (by decide), other _ (by decide), other _ (by decide),
            other _ (by decide), other _ (by decide)⟩
          simp [isBlank, other ' ' (by decide), other '\n' (by decide), other '\t' (by decide),
            other '\r' (by decide)]

/-- A value begins with no blank, and not like the end of an array. -/
theorem Spells.begins {levels : Nat} {v : Json F} {text : List Char}
    (spelled : Spells levels v text) :
    ∃ c rest, text = c :: rest ∧ isBlank c = false ∧ c ≠ ']' := by
  cases spelled with
  | null | yes | no => exact ⟨_, _, rfl, by decide, by decide⟩
  | string | noItems | array | noMembers | object => exact ⟨_, _, rfl, by decide, by decide⟩
  | int whole =>
      obtain ⟨c, rest, is, visible, other, _⟩ := whole_head _
      exact ⟨c, rest, is, visible, other⟩

theorem Spells.skips {levels : Nat} {v : Json F} {before text : List Char} (front : Blank before)
    (spelled : Spells levels v text) (rest : List Char) :
    skip (before ++ (text ++ rest)) = text ++ rest := by
  obtain ⟨c, others, rfl, visible, _⟩ := spelled.begins
  refine skip_append front fun d is => ?_
  obtain rfl := Option.some.inj is
  exact visible

theorem literal_append (word : String) (v : Json F) (rest : List Char) :
    literal word v (word.toList ++ rest) = some (v, rest) := by
  have strips : ∀ front : List Char, List.isPrefixOf? front (front ++ rest) = some rest := by
    intro front
    induction front with
    | nil => rfl
    | cons c others ih => simp [List.isPrefixOf?, ih]
  rw [literal, strips]
  rfl

theorem ends_closing {after rest : List Char} {c : Char} (back : Blank after)
    (other : c.isDigit = false ∧ c ≠ '.' ∧ c ≠ 'e' ∧ c ≠ 'E') : Ends (after ++ c :: rest) :=
  ends_blank back (ends_cons other)

theorem skip_closing {after rest : List Char} {c : Char} (back : Blank after)
    (visible : isBlank c = false) : skip (after ++ c :: rest) = c :: rest :=
  skip_append back fun d is => by rw [← Option.some.inj is]; exact visible

theorem SpellsItems.begins {levels : Nat} {items : List (Json F)} {text : List Char}
    (spelled : SpellsItems levels items text) (rest : List Char) :
    (skip (text ++ rest)).head? ≠ some ']' := by
  have first : ∀ {levels : Nat} {v : Json F} {before text : List Char} (_ : Blank before)
      (_ : Spells levels v text) (rest : List Char),
      (skip (before ++ (text ++ rest))).head? ≠ some ']' := by
    intro levels v before text front spelled rest
    rw [spelled.skips front]
    obtain ⟨c, others, rfl, _, other⟩ := spelled.begins
    exact fun is => other (Option.some.inj is)
  cases spelled with
  | last front spelled back | more front spelled back others =>
      rw [List.append_assoc, List.append_assoc]
      exact first front spelled _

theorem SpellsMembers.begins {levels : Nat} {members : List (String × Json F)} {text : List Char}
    (spelled : SpellsMembers levels members text) (rest : List Char) :
    (skip (text ++ rest)).head? ≠ some closeBrace := by
  cases spelled with
  | last front | more front =>
      rw [List.append_assoc, List.cons_append, skip_closing front (by decide)]
      exact fun is => absurd (Option.some.inj is) (by decide)

mutual

theorem readValue_spells {levels : Nat} {v : Json F} {text : List Char} :
    Spells levels v text → ∀ {fuel : Nat}, 2 * text.length ≤ fuel → ∀ {rest : List Char},
      Ends rest → readValue float fuel levels (text ++ rest) = some (v, rest)
  | .null, fuel, enough, rest, _ => by
      obtain ⟨fuel, rfl⟩ : ∃ n, fuel = n + 1 := ⟨fuel - 1, by simp at enough; omega⟩
      exact literal_append "null" .null rest
  | .yes, fuel, enough, rest, _ => by
      obtain ⟨fuel, rfl⟩ : ∃ n, fuel = n + 1 := ⟨fuel - 1, by simp at enough; omega⟩
      exact literal_append "true" (.bool true) rest
  | .no, fuel, enough, rest, _ => by
      obtain ⟨fuel, rfl⟩ : ∃ n, fuel = n + 1 := ⟨fuel - 1, by simp at enough; omega⟩
      exact literal_append "false" (.bool false) rest
  | @Spells.int _ _ n whole, fuel, enough, rest, ends => by
      obtain ⟨c, others, is, other⟩ := whole_head n
      obtain ⟨fuel, rfl⟩ : ∃ n, fuel = n + 1 := ⟨fuel - 1, by
        rw [is, List.length_cons] at enough
        omega⟩
      have read := readNumber_whole float whole ends
      rw [is, List.cons_append] at read ⊢
      rw [readValue, if_neg other.2.2.1, if_neg other.2.2.2.1, if_neg other.2.2.2.2.1,
        if_neg other.2.2.2.2.2.1, if_neg other.2.2.2.2.2.2.1, if_neg other.2.2.2.2.2.2.2, read]
  | .string spelled, fuel, enough, rest, _ => by
      obtain ⟨fuel, rfl⟩ : ∃ n, fuel = n + 1 := ⟨fuel - 1, by simp at enough; omega⟩
      rw [List.cons_append, List.append_assoc, readValue, if_pos rfl]
      exact congrArg (Option.map _) (readString_letters spelled rest)
  | .noItems blank, fuel, enough, rest, _ => by
      obtain ⟨fuel, rfl⟩ : ∃ n, fuel = n + 1 := ⟨fuel - 1, by simp at enough; omega⟩
      rw [List.cons_append, List.append_assoc, readValue, if_neg (by decide), if_pos rfl]
      dsimp only [nested]
      rw [List.singleton_append, skip_closing blank (by decide)]
      rfl
  | .array spelled, fuel, enough, rest, _ => by
      obtain ⟨fuel, rfl⟩ : ∃ n, fuel = n + 1 := ⟨fuel - 1, by simp at enough; omega⟩
      rw [List.length_cons] at enough
      rw [List.cons_append, readValue, if_neg (by decide), if_pos rfl]
      dsimp only [nested]
      rw [if_neg (spelled.begins rest), readItems_spells spelled (by omega) rest]
      rfl
  | .noMembers blank, fuel, enough, rest, _ => by
      obtain ⟨fuel, rfl⟩ : ∃ n, fuel = n + 1 := ⟨fuel - 1, by simp at enough; omega⟩
      rw [List.cons_append, List.append_assoc, readValue, if_neg (by decide), if_neg (by decide),
        if_pos rfl]
      dsimp only [nested]
      rw [List.singleton_append, skip_closing blank (by decide)]
      rfl
  | .object spelled, fuel, enough, rest, _ => by
      obtain ⟨fuel, rfl⟩ : ∃ n, fuel = n + 1 := ⟨fuel - 1, by simp at enough; omega⟩
      rw [List.length_cons] at enough
      rw [List.cons_append, readValue, if_neg (by decide), if_neg (by decide), if_pos rfl]
      dsimp only [nested]
      rw [if_neg (spelled.begins rest), readMembers_spells spelled (by omega) rest]
      rfl

theorem readItems_spells {levels : Nat} {items : List (Json F)} {text : List Char} :
    SpellsItems levels items text → ∀ {fuel : Nat}, 2 * text.length + 1 ≤ fuel →
      ∀ rest : List Char, readItems float fuel levels (text ++ rest) = some (items, rest)
  | .last front spelled back, fuel, enough, rest => by
      obtain ⟨fuel, rfl⟩ : ∃ n, fuel = n + 1 := ⟨fuel - 1, by omega⟩
      simp only [List.length_append, List.length_cons, List.length_nil] at enough
      simp only [List.append_assoc, List.singleton_append]
      rw [readItems, spelled.skips front,
        readValue_spells spelled (by omega) (ends_closing back (by decide)), Option.bind_eq_bind,
        Option.bind_some]
      dsimp only
      rw [skip_closing back (by decide)]
      rfl
  | .more front spelled back others, fuel, enough, rest => by
      obtain ⟨fuel, rfl⟩ : ∃ n, fuel = n + 1 := ⟨fuel - 1, by omega⟩
      simp only [List.length_append, List.length_cons] at enough
      simp only [List.append_assoc, List.cons_append]
      rw [readItems, spelled.skips front,
        readValue_spells spelled (by omega) (ends_closing back (by decide)), Option.bind_eq_bind,
        Option.bind_some]
      dsimp only
      rw [skip_closing back (by decide)]
      dsimp only
      rw [if_neg (by decide), if_pos rfl, readItems_spells others (by omega) rest]
      rfl

theorem readMembers_spells {levels : Nat} {members : List (String × Json F)} {text : List Char} :
    SpellsMembers levels members text → ∀ {fuel : Nat}, 2 * text.length + 1 ≤ fuel →
      ∀ rest : List Char, readMembers float fuel levels (text ++ rest) = some (members, rest)
  | .last front named middle space spelled back, fuel, enough, rest => by
      obtain ⟨fuel, rfl⟩ : ∃ n, fuel = n + 1 := ⟨fuel - 1, by omega⟩
      simp only [List.length_append, List.length_cons, List.length_nil] at enough
      simp only [List.append_assoc, List.cons_append, List.nil_append]
      rw [readMembers, skip_closing front (by decide), expect_cons, Option.bind_some,
        readString_letters named, Option.bind_eq_bind, Option.bind_some]
      dsimp only
      rw [skip_closing middle (by decide), expect_cons, Option.bind_eq_bind, Option.bind_some,
        spelled.skips space,
        readValue_spells spelled (by omega) (ends_closing back (by decide)), Option.bind_eq_bind,
        Option.bind_some]
      dsimp only
      rw [skip_closing back (by decide)]
      rfl
  | .more front named middle space spelled back others, fuel, enough, rest => by
      obtain ⟨fuel, rfl⟩ : ∃ n, fuel = n + 1 := ⟨fuel - 1, by omega⟩
      simp only [List.length_append, List.length_cons] at enough
      simp only [List.append_assoc, List.cons_append]
      rw [readMembers, skip_closing front (by decide), expect_cons, Option.bind_some,
        readString_letters named, Option.bind_eq_bind, Option.bind_some]
      dsimp only
      rw [skip_closing middle (by decide), expect_cons, Option.bind_eq_bind, Option.bind_some,
        spelled.skips space,
        readValue_spells spelled (by omega) (ends_closing back (by decide)), Option.bind_eq_bind,
        Option.bind_some]
      dsimp only
      rw [skip_closing back (by decide)]
      dsimp only
      rw [if_neg (by decide), if_pos rfl, readMembers_spells others (by omega) rest]
      rfl

end

theorem skip_blank {text : List Char} (isBlank : Blank text) : skip text = [] := by
  simpa using @skip_append text [] isBlank fun c is => nomatch is

/-- **Reading back.**  A document that is spelled, between blanks, is read. -/
theorem read_spells {v : Json F} {before text after : List Char} (front : Blank before)
    (spelled : Spells depthLimit v text) (back : Blank after) :
    read float (before ++ (text ++ after)) = some v := by
  have ends : Ends after := by
    rw [← List.append_nil after]
    exact ends_blank back fun c is => nomatch is
  rw [read, spelled.skips front, readValue_spells float spelled (by simp; omega) ends,
    Option.bind_eq_bind, Option.bind_some]
  exact if_pos (skip_blank back)

end Luhmen.Theory.Json
