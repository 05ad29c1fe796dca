/-
# Guest.JsonLocator -- which configurations the helper locates a key in

Two directions.  On a standard object that nests no deeper than the helper reads,
`locate` reports the member with the wanted name, where its value stands, and the
closing brace (`locate_standard`).  And what `locate` takes is a standard object,
but for two things it takes from the standard library: `is_ascii_whitespace` has
the form feed among the whitespace, and `from_str_radix` a sign before the digits
of a number (`locate_standard_iff`).

A string token is followed turn by turn: `decodeOne_turn` says what one turn of the
decoder has read, `scan_*` that the scanner read the same (`decodeLoop_sound`).
-/
import Luhmen.Guest.ConfigEdit
import Luhmen.Guest.JsonStandard
import Luhmen.Theory.JsonTokens

namespace Luhmen.Guest

open Luhmen.Theory Luhmen.Theory.JsonGrammar Luhmen.Theory.JsonText

set_option autoImplicit false

/-! ## What a scan has passed -/

section Scan

variable {data : Bytes} {cursor stop : Nat}

theorem scan_turns (scans : ∃ fuel, Json.scan data fuel cursor = .ok stop) :
    Json.scanStep data cursor = .ok (true, stop) ∨
      ∃ next, Json.scanStep data cursor = .ok (false, next) ∧
        ∃ fuel, Json.scan data fuel next = .ok stop := by
  obtain ⟨fuel, ok⟩ := scans
  cases fuel with
  | zero => simp [Json.scan] at ok
  | succ fuel =>
      rcases scan_succ_ok.1 ok with closed | ⟨next, turn, further⟩
      · exact .inl closed
      · exact .inr ⟨next, turn, fuel, further⟩

/-- A scan ends behind the first quote it comes to. -/
theorem scan_at_quote (found : data[cursor]? = some quote)
    (scans : ∃ fuel, Json.scan data fuel cursor = .ok stop) : stop = cursor + 1 := by
  rcases scan_turns scans with closed | ⟨next, turn, -⟩
  · obtain ⟨b, foundB, turn⟩ := scanStep_ok.1 closed
    rcases turn with ⟨-, -, is⟩ | ⟨-, impossible, -⟩ | ⟨-, -, -, impossible, -⟩
    · exact is
    · cases impossible
    · cases impossible
  · obtain ⟨b, foundB, turn⟩ := scanStep_ok.1 turn
    obtain rfl := Option.some.inj (found.symm.trans foundB)
    rcases turn with ⟨-, impossible, -⟩ | ⟨impossible, -⟩ | ⟨impossible, -⟩
    · cases impossible
    · exact absurd impossible (by decide)
    · exact absurd rfl impossible

theorem scan_at_escape (found : data[cursor]? = some backslash)
    (scans : ∃ fuel, Json.scan data fuel cursor = .ok stop) :
    ∃ fuel, Json.scan data fuel (Json.escapeEnd data cursor) = .ok stop := by
  rcases scan_turns scans with closed | ⟨next, turn, further⟩
  · obtain ⟨b, foundB, turn⟩ := scanStep_ok.1 closed
    obtain rfl := Option.some.inj (found.symm.trans foundB)
    rcases turn with ⟨impossible, -⟩ | ⟨-, impossible, -⟩ | ⟨-, impossible, -⟩
    · exact absurd impossible (by decide)
    · cases impossible
    · exact absurd rfl impossible
  · obtain ⟨b, foundB, turn⟩ := scanStep_ok.1 turn
    obtain rfl := Option.some.inj (found.symm.trans foundB)
    rcases turn with ⟨impossible, -⟩ | ⟨-, -, rfl, -⟩ | ⟨-, impossible, -⟩
    · exact absurd impossible (by decide)
    · exact further
    · exact absurd rfl impossible

/-- A byte that neither closes nor escapes is ordinary, and the scan goes on behind it. -/
theorem scan_at_other {b : UInt8} (found : data[cursor]? = some b) (notQuote : b ≠ quote)
    (notBackslash : b ≠ backslash) (scans : ∃ fuel, Json.scan data fuel cursor = .ok stop) :
    Ordinary b ∧ ∃ fuel, Json.scan data fuel (cursor + 1) = .ok stop := by
  rcases scan_turns scans with closed | ⟨next, turn, further⟩
  · obtain ⟨c, foundC, turn⟩ := scanStep_ok.1 closed
    obtain rfl := Option.some.inj (found.symm.trans foundC)
    rcases turn with ⟨impossible, -⟩ | ⟨impossible, -⟩ | ⟨-, -, -, impossible, -⟩
    · exact absurd impossible notQuote
    · exact absurd impossible notBackslash
    · cases impossible
  · obtain ⟨c, foundC, turn⟩ := scanStep_ok.1 turn
    obtain rfl := Option.some.inj (found.symm.trans foundC)
    rcases turn with ⟨impossible, -⟩ | ⟨impossible, -⟩ | ⟨-, -, graphic, -, rfl⟩
    · exact absurd impossible notQuote
    · exact absurd impossible notBackslash
    · exact ⟨⟨notQuote, notBackslash, graphic⟩, further⟩

theorem scan_past {text post : Bytes} (ordinary : ∀ b ∈ text, Ordinary b)
    (rest : data.drop cursor = text ++ post)
    (scans : ∃ fuel, Json.scan data fuel cursor = .ok stop) :
    ∃ fuel, Json.scan data fuel (cursor + text.length) = .ok stop := by
  induction text generalizing cursor with
  | nil => exact scans
  | cons b text ih =>
      obtain ⟨notQuote, notBackslash, -⟩ := ordinary b List.mem_cons_self
      have behind := (scan_at_other (getElem?_of_drop rest) notQuote notBackslash scans).2
      have further := ih (fun c member => ordinary c (List.mem_cons_of_mem _ member))
        (drop_succ rest) behind
      rwa [List.length_cons, Nat.add_comm text.length, ← Nat.add_assoc]

end Scan

/-- A character whose first byte is ordinary may stand for itself in a string. -/
theorem plain_valid {c : Char} {b : UInt8} {more : Bytes}
    (shape : String.utf8EncodeChar c = b :: more) (ordinary : Ordinary b) :
    (Piece.plain c).Valid := by
  obtain ⟨notQuote, notBackslash, graphic⟩ := ordinary
  have above : 0x1f < b.toNat := UInt8.lt_iff_toNat_lt.1 graphic
  by_cases small : c.toNat < 0x80
  · have value : (UInt8.ofNat c.toNat).toNat = c.toNat := by
      rw [UInt8.toNat_ofNat']
      exact Nat.mod_eq_of_lt (by omega)
    have single := @Utf8.utf8EncodeChar_byte (UInt8.ofNat c.toNat) (by rw [value]; exact small)
    rw [value, Char.ofNat_toNat, shape] at single
    obtain ⟨rfl, -⟩ := List.cons.inj single
    rw [value] at above
    refine ⟨by omega, ?_, ?_⟩
    · intro same
      exact notQuote (by rw [same]; rfl)
    · intro same
      exact notBackslash (by rw [same]; rfl)
  · exact ⟨by omega, by omega, by omega⟩

/-! ## What a turn of the decoder has read -/

/-- Four characters that `from_str_radix` takes for a number: digits, or a sign and three. -/
def UnitDigits (digits : Bytes) (value : Nat) : Prop :=
  digits.length = 4 ∧ fromStrRadix16 digits = some value

/-- The scalar read at `cursor`, and where the next one begins. -/
inductive Turn (bytes : Bytes) (cursor : Nat) : Char → Nat → Prop where
  | plain {c : Char} {b : UInt8} {more : Bytes} (shape : String.utf8EncodeChar c = b :: more)
      (plain : b ≠ backslash)
      (rest : bytes.drop cursor = String.utf8EncodeChar c ++ bytes.drop (cursor + c.utf8Size)) :
      Turn bytes cursor c (cursor + c.utf8Size)
  | escape {letter : UInt8} {c : Char} (escape : Escape letter c)
      (rest : bytes.drop cursor = backslash :: letter :: bytes.drop (cursor + 2)) :
      Turn bytes cursor c (cursor + 2)
  | scalar {digits : Bytes} {value : Nat} (number : UnitDigits digits value)
      (notHigh : ¬ HighSurrogate value) (notLow : ¬ LowSurrogate value)
      (rest : bytes.drop cursor = backslash :: 0x75 :: (digits ++ bytes.drop (cursor + 6))) :
      Turn bytes cursor (Char.ofNat value) (cursor + 6)
  | pair {digits lows : Bytes} {value low : Nat} (number : UnitDigits digits value)
      (lowNumber : UnitDigits lows low) (high : HighSurrogate value) (isLow : LowSurrogate low)
      (rest : bytes.drop cursor = backslash :: 0x75 :: (digits ++ bytes.drop (cursor + 6)))
      (restLow : bytes.drop (cursor + 6) = backslash :: 0x75 :: (lows ++ bytes.drop (cursor + 12))) :
      Turn bytes cursor (Char.ofNat (pair value low)) (cursor + 12)

section Turns

variable {bytes : Bytes} {cursor next : Nat} {c : Char}

theorem escape_of_simple {letter : UInt8} (found : simpleEscape letter = some c) :
    Escape letter c := by
  unfold simpleEscape at found
  split at found
  · rename_i is
    obtain rfl := Option.some.inj found
    exact is ▸ .quote
  split at found
  · rename_i is
    obtain rfl := Option.some.inj found
    exact is ▸ .backslash
  split at found
  · rename_i is
    obtain rfl := Option.some.inj found
    exact is ▸ .slash
  split at found
  · rename_i is
    obtain rfl := Option.some.inj found
    exact is ▸ .backspace
  split at found
  · rename_i is
    obtain rfl := Option.some.inj found
    exact is ▸ .formFeed
  split at found
  · rename_i is
    obtain rfl := Option.some.inj found
    exact is ▸ .lineFeed
  split at found
  · rename_i is
    obtain rfl := Option.some.inj found
    exact is ▸ .carriageReturn
  split at found
  · rename_i is
    obtain rfl := Option.some.inj found
    exact is ▸ .tab
  · simp at found

theorem charFromU32_eq {value : Nat} (found : charFromU32 value = some c) : c = Char.ofNat value := by
  unfold charFromU32 at found
  split at found
  · exact (Option.some.inj found).symm
  · simp at found

theorem unit_digits {start value : Nat}
    (found : (getRange bytes start (start + 4)).bind fromStrRadix16 = some value) :
    ∃ digits, UnitDigits digits value ∧ bytes.drop start = digits ++ bytes.drop (start + 4) := by
  obtain ⟨digits, ranged, number⟩ := Option.bind_eq_some_iff.1 found
  obtain ⟨rest, length⟩ := getRange_eq_some ranged
  exact ⟨digits, ⟨by omega, number⟩, rest⟩

theorem unicodeEscape_turn (opens : bytes.drop cursor = backslash :: 0x75 :: bytes.drop (cursor + 2))
    (ok : unicodeEscape bytes cursor = .ok (c, next)) : Turn bytes cursor c next := by
  unfold unicodeEscape at ok
  split at ok
  · simp [fail] at ok
  · rename_i value found
    obtain ⟨digits, isDigits, digitsRest⟩ := unit_digits found
    have rest : bytes.drop cursor = backslash :: 0x75 :: (digits ++ bytes.drop (cursor + 6)) := by
      rw [opens, digitsRest]
    split at ok
    · rename_i high
      split at ok
      · rename_i again
        obtain ⟨againRest, -⟩ := getRange_eq_some again
        split at ok
        · simp [fail] at ok
        · rename_i low foundLow
          obtain ⟨lows, isLows, lowsRest⟩ := unit_digits foundLow
          split at ok
          · rename_i isLow
            split at ok
            · simp [fail] at ok
            · rename_i ch isChar
              obtain ⟨rfl, rfl⟩ := Prod.mk.inj (Except.ok.inj ok)
              rw [charFromU32_eq isChar, pair_eq]
              refine .pair isDigits isLows high isLow rest ?_
              rw [againRest, lowsRest]
              rfl
          · simp [fail] at ok
      · simp [fail] at ok
    · rename_i notHigh
      split at ok
      · simp [fail] at ok
      · rename_i notLow
        split at ok
        · simp [fail] at ok
        · rename_i ch isChar
          obtain ⟨rfl, rfl⟩ := Prod.mk.inj (Except.ok.inj ok)
          rw [charFromU32_eq isChar]
          exact .scalar isDigits notHigh notLow rest

theorem decodeOne_turn
    (ok : decodeOne bytes cursor = .ok (c, next)) : Turn bytes cursor c next := by
  unfold decodeOne at ok
  split at ok
  · simp at ok
  · rename_i b found
    have first := drop_of_getElem? found
    split at ok
    · rename_i notBackslash
      split at ok
      · simp at ok
      · rename_i here sliced
        split at ok
        · simp [fail] at ok
        · simp at ok
        · rename_i ch chars decoded
          obtain ⟨rfl, rfl⟩ := Prod.mk.inj (Except.ok.inj ok)
          have utf8 := Utf8.encode_fromUtf8 decoded
          rw [slice_eq_getRange] at sliced
          cases ranged : getRange bytes cursor (bytes.length - 1) with
          | none =>
              rw [ranged] at sliced
              simp at sliced
          | some text =>
              rw [ranged] at sliced
              obtain rfl := Except.ok.inj sliced
              obtain ⟨rest, -⟩ := getRange_eq_some ranged
              rw [utf8, Utf8.encode_cons, List.append_assoc] at rest
              obtain ⟨b', more, shape⟩ := List.exists_cons_of_ne_nil (Utf8.utf8EncodeChar_ne_nil ch)
              have same : b' = b := by
                rw [first, shape] at rest
                exact (List.cons.inj rest).1.symm
              have behind := drop_add_length rest
              rw [String.length_utf8EncodeChar] at behind
              refine .plain shape (same ▸ notBackslash) ?_
              rw [rest, behind]
    · rename_i isBackslash
      obtain rfl : b = backslash := not_not.1 isBackslash
      split at ok
      · simp [fail] at ok
      · rename_i letter second
        have opens : bytes.drop cursor = backslash :: letter :: bytes.drop (cursor + 2) := by
          rw [first, drop_of_getElem? second]
        split at ok
        · rename_i isUnit
          subst isUnit
          exact unicodeEscape_turn opens ok
        · split at ok
          · simp [fail] at ok
          · rename_i ch simple
            obtain ⟨rfl, rfl⟩ := Prod.mk.inj (Except.ok.inj ok)
            exact .escape (escape_of_simple simple) opens

end Turns

/-! ## The pieces of a token -/

/-- A piece as the helper reads it: a code unit may be a sign and three digits. -/
def Read : Piece → Prop
  | .plain c => (Piece.plain c).Valid
  | .escape letter c => Escape letter c
  | .unit digits value => UnitDigits digits value

theorem denoted_pair {digits lows : Bytes} {value low : Nat} {rest : List Piece}
    (high : HighSurrogate value) (isLow : LowSurrogate low) :
    denoted (.unit digits value :: .unit lows low :: rest) =
      (denoted rest).map (Char.ofNat (pair value low) :: ·) := by
  simp [denoted, high, isLow]

/-- A token that is scanned to its last byte and decoded is a sequence of pieces. -/
theorem decodeLoop_sound {bytes : Bytes} {fuel cursor : Nat} {text : List Char}
    (scans : ∃ steps, Json.scan bytes steps cursor = .ok bytes.length)
    (decodes : decodeLoop bytes fuel cursor = .ok text) :
    ∃ pieces : List Piece, (∀ piece ∈ pieces, Read piece) ∧
      bytes.drop cursor = written pieces ++ [quote] ∧ denoted pieces = some text := by
  induction fuel generalizing cursor text with
  | zero => simp [decodeLoop] at decodes
  | succ fuel ih =>
      have bounds := scans.elim fun _ ok => scan_bounds ok
      rw [decodeLoop] at decodes
      split at decodes
      · rename_i inside
        split at decodes
        · simp at decodes
        · rename_i c next one
          obtain ⟨rest, further, rfl⟩ := map_eq_ok decodes
          -- a quote here would end the scan before the token's last byte
          have notQuote : bytes[cursor]? ≠ some quote := by
            intro found
            have := scan_at_quote found scans
            omega
          have turn := decodeOne_turn one
          cases turn with
          | @plain _ b more shape notBackslash here =>
              have first : bytes[cursor]? = some b := getElem?_of_drop (by rw [here, shape]; rfl)
              have isNotQuote : b ≠ quote := fun same => notQuote (same ▸ first)
              have valid := plain_valid shape (scan_at_other first isNotQuote notBackslash scans).1
              have behind := scan_past (fun b member => plain_ordinary valid member) here scans
              rw [String.length_utf8EncodeChar] at behind
              obtain ⟨pieces, read, text, denotes⟩ := ih behind further
              refine ⟨.plain c :: pieces, List.forall_mem_cons.2 ⟨valid, read⟩, ?_, ?_⟩
              · rw [written_cons, List.append_assoc, ← text]
                exact here
              · rw [denoted, denotes]
                rfl
          | @escape letter _ escape here =>
              have first : bytes[cursor]? = some backslash := getElem?_of_drop here
              have second : bytes[cursor + 1]? = some letter := getElem?_of_drop (drop_succ here)
              have behind := scan_at_escape first scans
              rw [Json.escapeEnd, second, if_neg fun same =>
                escape_ne_unit escape (Option.some.inj same)] at behind
              obtain ⟨pieces, read, text, denotes⟩ := ih behind further
              refine ⟨.escape letter c :: pieces, List.forall_mem_cons.2 ⟨escape, read⟩, ?_, ?_⟩
              · rw [written_cons, List.append_assoc, ← text]
                exact here
              · rw [denoted, denotes]
                rfl
          | @scalar digits value number notHigh notLow here =>
              have first : bytes[cursor]? = some backslash := getElem?_of_drop here
              have second : bytes[cursor + 1]? = some 0x75 := getElem?_of_drop (drop_succ here)
              have behind := scan_at_escape first scans
              rw [Json.escapeEnd, second, if_pos rfl] at behind
              obtain ⟨pieces, read, text, denotes⟩ := ih behind further
              refine ⟨.unit digits value :: pieces, List.forall_mem_cons.2 ⟨number, read⟩, ?_, ?_⟩
              · rw [written_cons, List.append_assoc, ← text]
                exact here
              · rw [denoted_scalar notHigh notLow, denotes]
                rfl
          | @pair digits lows value low number lowNumber high isLow here hereLow =>
              have first : bytes[cursor]? = some backslash := getElem?_of_drop here
              have second : bytes[cursor + 1]? = some 0x75 := getElem?_of_drop (drop_succ here)
              have firstLow : bytes[cursor + 6]? = some backslash := getElem?_of_drop hereLow
              have secondLow : bytes[cursor + 6 + 1]? = some 0x75 :=
                getElem?_of_drop (drop_succ hereLow)
              have between := scan_at_escape first scans
              rw [Json.escapeEnd, second, if_pos rfl] at between
              have behind := scan_at_escape firstLow between
              rw [Json.escapeEnd, secondLow, if_pos rfl] at behind
              obtain ⟨pieces, read, text, denotes⟩ := ih behind further
              refine ⟨.unit digits value :: .unit lows low :: pieces,
                List.forall_mem_cons.2 ⟨number, List.forall_mem_cons.2 ⟨lowNumber, read⟩⟩, ?_, ?_⟩
              · rw [written_cons, written_cons, List.append_assoc, List.append_assoc, ← text, here,
                  hereLow]
                simp [Piece.text]
              · rw [denoted_pair high isLow, denotes]
                rfl
      · rename_i last
        obtain rfl := Except.ok.inj decodes
        have lastByte : cursor + 1 = bytes.length := by omega
        refine ⟨[], by simp, ?_, rfl⟩
        rcases scan_turns scans with closed | ⟨next, turn, fuel, further⟩
        · obtain ⟨b, found, turn⟩ := scanStep_ok.1 closed
          rcases turn with ⟨rfl, -, -⟩ | ⟨-, impossible, -⟩ | ⟨-, -, -, impossible, -⟩
          · rw [drop_of_getElem? found, lastByte, List.drop_length]
            rfl
          · cases impossible
          · cases impossible
        · have := scanStep_bounds turn
          have := scan_bounds further
          omega

/-- A string token of the helper that decodes is a sequence of pieces between quotes. -/
theorem stringToken_pieces {text : Bytes} {key : List Char} (token : StringToken text (some key)) :
    ∃ pieces : List Piece, (∀ piece ∈ pieces, Read piece) ∧
      text = quote :: (written pieces ++ [quote]) ∧ denoted pieces = some key := by
  obtain ⟨opens, scans, decodes⟩ := token
  have decoded : decodeLoop text (text.length + 1) 1 = .ok key := by
    unfold decodeJsonString at decodes
    cases result : decodeLoop text (text.length + 1) 1 with
    | error failure =>
        rw [result] at decodes
        cases decodes
    | ok chars =>
        rw [result] at decodes
        rw [Option.some.inj decodes]
  obtain ⟨pieces, read, rest, denotes⟩ := decodeLoop_sound ⟨_, scans⟩ decoded
  refine ⟨pieces, read, ?_, denotes⟩
  obtain ⟨tail, shape⟩ := List.head?_eq_some_iff.1 opens
  rw [shape] at rest ⊢
  rw [← rest]
  rfl

/-! ## Where the helper's strings and the standard's part -/

/-- A sign stands behind some `\u`; an escape is passed over two bytes at a time. -/
def plusEscape : Bytes → Bool
  | [] => false
  | [_] => false
  | first :: second :: rest =>
      if first = backslash then
        (second == 0x75 && rest.head? == some 0x2b) || plusEscape rest
      else plusEscape (second :: rest)

theorem plusEscape_other {b : UInt8} (other : b ≠ backslash) (post : Bytes) :
    plusEscape (b :: post) = plusEscape post := by
  cases post with
  | nil => rfl
  | cons c post => rw [plusEscape, if_neg other]

theorem plusEscape_escape (letter : UInt8) (post : Bytes) :
    plusEscape (backslash :: letter :: post) =
      ((letter == 0x75 && post.head? == some 0x2b) || plusEscape post) := by
  rw [plusEscape, if_pos rfl]

theorem plusEscape_past {text : Bytes} (others : ∀ b ∈ text, b ≠ backslash) (post : Bytes) :
    plusEscape (text ++ post) = plusEscape post := by
  induction text with
  | nil => rfl
  | cons b text ih =>
      obtain ⟨here, further⟩ := List.forall_mem_cons.1 others
      rw [List.cons_append, plusEscape_other here, ih further]

/-- No escape is cut at the end of the text. -/
def Whole (text : Bytes) : Prop :=
  ∀ post, plusEscape (text ++ post) = (plusEscape text || plusEscape post)

theorem Whole.append {front back : Bytes} (whole : Whole front) (wholeBack : Whole back) :
    Whole (front ++ back) := by
  intro post
  rw [List.append_assoc, whole, wholeBack, whole, Bool.or_assoc]

theorem Whole.past {text : Bytes} (others : ∀ b ∈ text, b ≠ backslash) : Whole text := by
  intro post
  have none : plusEscape text = false := by
    have alone := plusEscape_past others []
    rwa [List.append_nil] at alone
  rw [plusEscape_past others, none, Bool.false_or]

theorem hexDigits_digits {digits : Bytes} {start value : Nat}
    (found : hexDigits digits start = some value) : ∀ b ∈ digits, hexDigit b ≠ none := by
  induction digits generalizing start with
  | nil => simp
  | cons b digits ih =>
      obtain ⟨digit, isDigit, further⟩ := Option.bind_eq_some_iff.1 found
      refine List.forall_mem_cons.2 ⟨?_, ih further⟩
      rw [isDigit]
      exact Option.some_ne_none digit

/-- Behind `\u` there is a sign with digits, or only digits. -/
theorem unitDigits_cases {digits : Bytes} {value : Nat} (four : UnitDigits digits value) :
    (∃ rest, digits = 0x2b :: rest ∧ hexDigits rest 0 = some value) ∨
      (digits.head? ≠ some 0x2b ∧ (Piece.unit digits value).Valid) := by
  obtain ⟨length, number⟩ := four
  unfold fromStrRadix16 at number
  split at number
  · simp at number
  · simp at number
  · exact .inl ⟨_, rfl, number⟩
  · rename_i notSign
    refine .inr ⟨?_, length, number⟩
    intro sign
    obtain ⟨rest, shape⟩ := List.head?_eq_some_iff.1 sign
    exact notSign rest shape

theorem unitDigits_others {digits : Bytes} {value : Nat} (four : UnitDigits digits value) :
    ∀ b ∈ digits, b ≠ backslash := by
  have noDigit : hexDigit backslash = none := by decide
  have hex : ∀ {rest : Bytes}, hexDigits rest 0 = some value → ∀ b ∈ rest, b ≠ backslash := by
    rintro rest found b member rfl
    exact hexDigits_digits found _ member noDigit
  rcases unitDigits_cases four with ⟨rest, rfl, found⟩ | ⟨-, -, found⟩
  · exact List.forall_mem_cons.2 ⟨by decide, hex found⟩
  · exact hex found

theorem plusEscape_unit {digits : Bytes} {value : Nat} (four : UnitDigits digits value)
    (post : Bytes) : plusEscape ((Piece.unit digits value).text ++ post) =
      (digits.head? == some 0x2b || plusEscape post) := by
  have nonempty : digits ≠ [] := by
    intro empty
    have := four.1
    simp [empty] at this
  obtain ⟨b, rest, shape⟩ := List.exists_cons_of_ne_nil nonempty
  have head : (digits ++ post).head? = digits.head? := by rw [shape]; rfl
  rw [Piece.text, List.cons_append, List.cons_append, plusEscape_escape,
    plusEscape_past (unitDigits_others four), head]
  rfl

theorem plusEscape_letter {letter : UInt8} {c : Char} (escape : Escape letter c) (post : Bytes) :
    plusEscape ((Piece.escape letter c).text ++ post) = plusEscape post := by
  have notUnit := escape_ne_unit escape
  rw [Piece.text, List.cons_append, List.singleton_append, plusEscape_escape]
  simp [notUnit]

theorem read_whole {piece : Piece} (read : Read piece) : Whole piece.text := by
  intro post
  cases piece with
  | plain c => exact Whole.past (fun b member => (plain_ordinary read member).2.1) post
  | escape letter c =>
      have alone := plusEscape_letter read []
      rw [List.append_nil] at alone
      rw [plusEscape_letter read, alone]
      rfl
  | unit digits value =>
      have alone := plusEscape_unit read []
      rw [List.append_nil] at alone
      rw [plusEscape_unit read, alone, plusEscape, Bool.or_false]

theorem read_of_valid {piece : Piece} (valid : piece.Valid) : Read piece := by
  cases piece with
  | plain c => exact valid
  | escape letter c => exact valid
  | unit digits value => exact ⟨valid.1, fromStrRadix16_digits valid⟩

/-- The pieces that the standard does not have are the signed code units. -/
theorem valid_iff {piece : Piece} (read : Read piece) :
    piece.Valid ↔ plusEscape piece.text = false := by
  cases piece with
  | plain c =>
      have others := plusEscape_past (fun b member => (plain_ordinary read member).2.1) []
      rw [List.append_nil] at others
      exact ⟨fun _ => others, fun _ => read⟩
  | escape letter c =>
      have others := plusEscape_letter read []
      rw [List.append_nil] at others
      exact ⟨fun _ => others, fun _ => read⟩
  | unit digits value =>
      have sign := plusEscape_unit read []
      rw [List.append_nil, plusEscape, Bool.or_false] at sign
      rw [sign]
      rcases unitDigits_cases read with ⟨rest, rfl, -⟩ | ⟨notSign, valid⟩
      · refine ⟨fun valid => ?_, fun impossible => by simp at impossible⟩
        have noDigit : hexDigit 0x2b = none := by decide
        have found := valid.2
        simp [hexDigits, noDigit] at found
      · exact ⟨fun _ => beq_false_of_ne notSign, fun _ => valid⟩

theorem written_whole {pieces : List Piece} (read : ∀ piece ∈ pieces, Read piece) :
    Whole (written pieces) := by
  induction pieces with
  | nil => exact Whole.past (by simp)
  | cons piece pieces ih =>
      obtain ⟨here, further⟩ := List.forall_mem_cons.1 read
      rw [written_cons]
      exact (read_whole here).append (ih further)

theorem written_valid {pieces : List Piece} (read : ∀ piece ∈ pieces, Read piece)
    (clean : plusEscape (written pieces) = false) : ∀ piece ∈ pieces, piece.Valid := by
  induction pieces with
  | nil => simp
  | cons piece pieces ih =>
      obtain ⟨here, further⟩ := List.forall_mem_cons.1 read
      rw [written_cons, read_whole here, Bool.or_eq_false_iff] at clean
      exact List.forall_mem_cons.2 ⟨(valid_iff here).2 clean.1, ih further clean.2⟩

theorem written_clean {pieces : List Piece} (valid : ∀ piece ∈ pieces, piece.Valid) :
    plusEscape (written pieces) = false := by
  induction pieces with
  | nil => rfl
  | cons piece pieces ih =>
      obtain ⟨here, further⟩ := List.forall_mem_cons.1 valid
      have read := read_of_valid here
      rw [written_cons, read_whole read, (valid_iff read).1 here, ih further]
      rfl

theorem quoted_whole {text : Bytes} (whole : Whole text) : Whole (quote :: (text ++ [quote])) := by
  have single : Whole [quote] := Whole.past (forall_mem_of_all (by decide))
  exact single.append (whole.append single)

theorem quoted_plusEscape {text : Bytes} (whole : Whole text) :
    plusEscape (quote :: (text ++ [quote])) = plusEscape text := by
  rw [plusEscape_other (by decide), whole, plusEscape, Bool.or_false]

/-! ## What the helper takes -/

/-- No form feed, and no signed code unit. -/
def Clean (text : Bytes) : Prop :=
  0x0c ∉ text ∧ plusEscape text = false

theorem whole_single {b : UInt8} (other : b ≠ backslash) : Whole [b] :=
  Whole.past fun c member => by rw [List.mem_singleton.1 member]; exact other

theorem clean_single {b : UInt8} (notFormFeed : b ≠ 0x0c) : Clean [b] :=
  ⟨fun member => notFormFeed (List.mem_singleton.1 member).symm, rfl⟩

theorem helper_keeps : helper.Keeps Whole where
  nil := Whole.past (by simp)
  append := Whole.append
  mark := fun b isMark => whole_single isMark.2.2.2
  space := by
    intro b space
    apply whole_single
    rintro rfl
    exact absurd (show isAsciiWhitespace backslash = true from space) (by decide)
  string := by
    intro text key token
    obtain ⟨pieces, read, rfl, -⟩ := stringToken_pieces token
    exact quoted_whole (written_whole read)

theorem helper_narrows : helper.Narrows standard Whole Clean where
  keeps := helper_keeps
  split := by
    rintro front back whole ⟨noFormFeed, clean⟩
    rw [whole, Bool.or_eq_false_iff] at clean
    rw [List.mem_append, not_or] at noFormFeed
    exact ⟨⟨noFormFeed.1, clean.1⟩, ⟨noFormFeed.2, clean.2⟩⟩
  space := by
    rintro b space ⟨noFormFeed, -⟩
    have notFormFeed : b ≠ 0x0c := fun same => noFormFeed (by simp [same])
    simp only [helper, isAsciiWhitespace, Bool.or_eq_true, beq_iff_eq] at space
    rcases space with (((space | space) | space) | space) | space
    · exact .inl space
    · exact .inr (.inl space)
    · exact .inr (.inr (.inl space))
    · exact absurd space notFormFeed
    · exact .inr (.inr (.inr space))
  string := by
    rintro text key token ⟨-, clean⟩
    obtain ⟨pieces, read, rfl, denotes⟩ := stringToken_pieces token
    rw [quoted_plusEscape (written_whole read)] at clean
    exact ⟨pieces, written_valid read clean, rfl, denotes.symm⟩

theorem written_noFormFeed {pieces : List Piece} (valid : ∀ piece ∈ pieces, piece.Valid) :
    0x0c ∉ written pieces := by
  intro member
  obtain ⟨piece, listed, here⟩ := List.mem_flatMap.1 member
  have isValid := valid piece listed
  cases piece with
  | plain c => exact absurd (plain_ordinary isValid here).2.2 (by decide)
  | escape letter c =>
      have isLetter : letter ≠ 0x0c := by cases isValid <;> decide
      simp only [Piece.text, List.mem_cons, List.not_mem_nil, or_false] at here
      rcases here with is | is
      · exact absurd is (by decide)
      · exact isLetter is.symm
  | unit digits value =>
      have noDigit : hexDigit 0x0c = none := by decide
      simp only [Piece.text, List.mem_cons] at here
      rcases here with is | is | here
      · exact absurd is (by decide)
      · exact absurd is (by decide)
      · exact hexDigits_digits isValid.2 _ here noDigit

theorem standard_keeps_clean : standard.Keeps fun text => Clean text ∧ Whole text where
  nil := ⟨⟨by simp, rfl⟩, Whole.past (by simp)⟩
  append := by
    rintro front back ⟨⟨noFormFeed, clean⟩, whole⟩ ⟨⟨noFormFeedBack, cleanBack⟩, wholeBack⟩
    refine ⟨⟨?_, ?_⟩, whole.append wholeBack⟩
    · rw [List.mem_append, not_or]
      exact ⟨noFormFeed, noFormFeedBack⟩
    · rw [whole, clean, cleanBack]
      rfl
  mark := by
    intro b isMark
    refine ⟨clean_single ?_, whole_single isMark.2.2.2⟩
    rintro rfl
    exact absurd isMark.1 (by decide)
  space := by
    intro b space
    constructor
    · apply clean_single
      rcases space with rfl | rfl | rfl | rfl <;> decide
    · apply whole_single
      rcases space with rfl | rfl | rfl | rfl <;> decide
  string := by
    rintro text key ⟨pieces, valid, rfl, -⟩
    have whole := written_whole fun piece member => read_of_valid (valid piece member)
    refine ⟨⟨?_, ?_⟩, quoted_whole whole⟩
    · simp only [List.mem_cons, List.mem_append, List.not_mem_nil, or_false, not_or]
      exact ⟨by decide, written_noFormFeed valid, by decide⟩
    · rw [quoted_plusEscape whole]
      exact written_clean valid

/-- Text that is the encoding of some scalars. -/
def Encoded (text : Bytes) : Prop :=
  ∃ chars, text = Utf8.encode chars

theorem Encoded.append {front back : Bytes} (first : Encoded front) (second : Encoded back) :
    Encoded (front ++ back) := by
  obtain ⟨chars, rfl⟩ := first
  obtain ⟨others, rfl⟩ := second
  exact ⟨chars ++ others, by simp [Utf8.encode]⟩

theorem Encoded.single {b : UInt8} (small : b.toNat < 0x80) : Encoded [b] :=
  ⟨_, (Utf8.encode_bytes (List.forall_mem_singleton.2 small)).symm⟩

theorem standard_keeps_encoded : standard.Keeps Encoded where
  nil := ⟨[], rfl⟩
  append := Encoded.append
  mark := fun b isMark => Encoded.single (UInt8.lt_iff_toNat_lt.1 isMark.2.1)
  space := by
    intro b space
    apply Encoded.single
    rcases space with rfl | rfl | rfl | rfl <;> decide
  string := by
    rintro text key ⟨pieces, valid, rfl, -⟩
    have quoted : Encoded [quote] := Encoded.single (by decide)
    exact quoted.append ((written_utf8 valid).elim fun chars utf8 =>
      Encoded.append ⟨chars, utf8⟩ quoted)

/-- An object of standard JSON, in UTF-8: its strings denote Unicode text, no object in it
has two members of one name, and its members' values nest at most 64 levels deep. -/
def StandardObject (data : Bytes) : Prop :=
  Encoded data ∧ ∃ d : Document, d.Valid standard memberLevels ∧ d.unicode = true ∧ d.render = data

theorem standardObject_clean {data : Bytes} (isStandard : StandardObject data) : Clean data := by
  obtain ⟨-, d, valid, unicode, rfl⟩ := isStandard
  exact (Document.keeps standard_keeps_clean valid unicode).1

/-- What `locate` takes is a standard object, unless there is a form feed in it or a sign
behind a `\u`. -/
theorem locate_standard_iff {data : Bytes} {wanted : List Char} {result : Located}
    (ok : locate data wanted = .ok result) :
    StandardObject data ↔ 0x0c ∉ data ∧ plusEscape data = false := by
  constructor
  · exact standardObject_clean
  · intro clean
    obtain ⟨d, valid, unicode, rfl, -⟩ := locate_sound ok
    obtain ⟨e, isStandard, unicodeText, same⟩ := Document.narrow helper_narrows valid unicode clean
    refine ⟨?_, e, isStandard, unicodeText, same⟩
    rw [← same]
    exact Document.keeps standard_keeps_encoded isStandard unicodeText

/-- A sign in a string that no escape stands before is no concern. -/
theorem locate_standard_iff_sign :
    StandardObject (ascii "\x7b\"a\":\"\\\\u+\"\x7d") ↔
      0x0c ∉ ascii "\x7b\"a\":\"\\\\u+\"\x7d" ∧
        plusEscape (ascii "\x7b\"a\":\"\\\\u+\"\x7d") = false :=
  locate_standard_iff (show locate _ ['a'] = .ok ⟨some ⟨5, 11, none⟩, 11, true⟩ by decide)

/-- A form feed between the braces of an empty object is taken. -/
theorem locate_takes_form_feed :
    ¬ ∀ (data : Bytes) (wanted : List Char) (result : Located),
      locate data wanted = .ok result → StandardObject data := by
  intro only
  have taken : locate [openBrace, 0x0c, closeBrace] [] = .ok ⟨none, 2, false⟩ := by decide
  obtain ⟨noFormFeed, -⟩ := standardObject_clean (only _ _ _ taken)
  exact noFormFeed (by decide)

/-! ## What it reports of a standard object -/

/-- A report of the member called `wanted`: the value is cut out of the text by its place,
behind all that stands before it, and the brace reported is the last one. -/
structure Reports (d : Document) (wanted : List Char) (result : Located) : Prop where
  found_iff : result.found.isSome = true ↔ ∃ m ∈ d.members, m.key = some wanted
  place : ∀ value, result.found = some value → ∃ before m behind,
    d.members = before ++ m :: behind ∧ m.key = some wanted ∧
      value.start = (front d before m).length ∧
      slice d.render value.start value.stop = .ok m.value ∧
      ∀ b, value.boolean = some b ↔ m.value = literal b
  closes : d.render[result.close]? = some closeBrace ∧
    ∀ later, result.close < later → d.render[later]? ≠ some closeBrace
  any_iff : result.any = true ↔ d.members ≠ []

theorem standard_opens {text : Bytes} {key : Option (List Char)}
    (token : standard.string text key) : text.head? = some quote := by
  obtain ⟨pieces, -, rfl, -⟩ := token
  rfl

section Reports

variable {d : Document} {wanted : List Char}

theorem located_closes (valid : d.Valid standard memberLevels) :
    d.render[(located d wanted).close]? = some closeBrace ∧
      ∀ later, (located d wanted).close < later → d.render[later]? ≠ some closeBrace := by
  have rest : d.render.drop (located d wanted).close = closeBrace :: d.trail := by
    have lengths : (located d wanted).close = (d.lead ++ openBrace :: d.body).length := by
      simp only [located, List.length_append, List.length_cons]
      omega
    have split : d.render = (d.lead ++ openBrace :: d.body) ++ closeBrace :: d.trail := by
      simp [Document.render]
    rw [lengths, split, List.drop_left]
  refine ⟨getElem?_of_drop rest, ?_⟩
  intro later behind found
  obtain ⟨more, rfl⟩ : ∃ n, later = (located d wanted).close + 1 + n :=
    ⟨later - (located d wanted).close - 1, by omega⟩
  rw [← List.getElem?_drop, drop_succ rest] at found
  have space := valid.trail closeBrace (List.mem_of_getElem? found)
  exact absurd (standard_space space) (by decide)

theorem located_reports (valid : d.Valid standard memberLevels) (unicode : d.unicode = true) :
    Reports d wanted (located d wanted) where
  found_iff := by
    constructor
    · intro found
      by_contra absent
      rw [found_nowhere unicode fun m member named => absent ⟨m, member, named⟩] at found
      cases found
    · rintro ⟨m, member, named⟩
      obtain ⟨before, behind, split⟩ := List.append_of_mem member
      rw [found_at (standard_document valid) unicode split named]
      rfl
  place := by
    intro value isFound
    have named : ∃ m ∈ d.members, m.key = some wanted := by
      by_contra absent
      rw [found_nowhere unicode fun m member named => absent ⟨m, member, named⟩] at isFound
      cases isFound
    obtain ⟨m, member, named⟩ := named
    obtain ⟨before, behind, split⟩ := List.append_of_mem member
    rw [found_at (standard_document valid) unicode split named] at isFound
    obtain rfl := Option.some.inj isFound
    refine ⟨before, m, behind, split, named, rfl, ?_,
      boolean_iff (fun _ _ => standard_opens) (valid.members m member).value⟩
    rw [render_split split]
    exact slice_middle _ _ _
  closes := located_closes valid
  any_iff := by simp [located]

end Reports

/-- A standard object whose strings denote Unicode text and whose values nest at most
64 levels deep is read, and the report of any key is right. -/
theorem locate_standard {d : Document} (valid : d.Valid standard memberLevels)
    (unicode : d.unicode = true) (wanted : List Char) :
    ∃ result, locate d.render wanted = .ok result ∧ Reports d wanted result := by
  have reads := locate_complete (standard_document valid) wanted
  rw [unicode] at reads
  exact ⟨_, reads_true.1 reads, located_reports valid unicode⟩

def onlyMember : Member :=
  ⟨[], ascii "\"a\"", some ['a'], [], [0x20], ascii "true", some true, true, []⟩

def onlyDocument : Document :=
  ⟨[], [], [onlyMember], [0x0a]⟩

theorem onlyDocument_valid : onlyDocument.Valid standard memberLevels where
  lead := by simp [onlyDocument, Lexicon.Spaces]
  inside := by simp [onlyDocument, Lexicon.Spaces]
  members := by
    intro m member
    rw [List.mem_singleton.1 member]
    exact
      { lead := by simp [onlyMember, Lexicon.Spaces]
        name := ⟨[.plain 'a'], by simp [Piece.Valid], by decide, by decide⟩
        beforeColon := by simp [onlyMember, Lexicon.Spaces]
        gap := fun b member => .inl (List.mem_singleton.1 member)
        value := .literalTrue
        tail := by simp [onlyMember, Lexicon.Spaces] }
  distinct := List.pairwise_singleton _ _
  trail := fun b member => .inr (.inr (.inl (List.mem_singleton.1 member)))

theorem locate_standard_member :
    ∃ result, locate (ascii "\x7b\"a\": true\x7d\n") ['a'] = .ok result ∧
      Reports onlyDocument ['a'] result :=
  locate_standard onlyDocument_valid rfl ['a']

end Luhmen.Guest
