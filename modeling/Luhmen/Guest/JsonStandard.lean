/-
# Guest.JsonStandard -- the helper reads standard JSON

The helper's own lexicon (`helper`) is whatever its scanner takes.  Here standard
JSON is shown to be part of it: a standard string is scanned to its end, and
`decode_json_string` returns the text it denotes, or fails when a surrogate unit
in it stands alone (`standard_string`).  So every standard document is a
document of the helper (`standard_document`).
-/
import Luhmen.Guest.JsonValues
import Luhmen.Theory.JsonText

namespace Luhmen.Guest

open Luhmen.Theory Luhmen.Theory.JsonGrammar Luhmen.Theory.JsonText

set_option autoImplicit false

/-! ## Scanning -/

/-- Bytes that neither close a string, nor escape, nor are control bytes. -/
def Ordinary (b : UInt8) : Prop :=
  b ≠ quote ∧ b ≠ backslash ∧ 0x1f < b

theorem plain_ordinary {c : Char} (valid : (Piece.plain c).Valid) {b : UInt8}
    (member : b ∈ String.utf8EncodeChar c) : Ordinary b := by
  obtain ⟨graphic, notQuote, notBackslash⟩ := valid
  have range : b.toNat = c.toNat ∨ 0x80 ≤ b.toNat := Utf8.mem_utf8EncodeChar member
  refine ⟨?_, ?_, ?_⟩
  · rintro rfl
    rcases range with same | big
    · exact notQuote same.symm
    · exact absurd big (by decide)
  · rintro rfl
    rcases range with same | big
    · exact notBackslash same.symm
    · exact absurd big (by decide)
  · apply UInt8.lt_iff_toNat_lt.2
    show 31 < b.toNat
    omega

/-- A scan passes over ordinary bytes. -/
theorem scan_ordinary {data text post : Bytes} {cursor stop : Nat}
    (ordinary : ∀ b ∈ text, Ordinary b) (rest : data.drop cursor = text ++ post)
    (scans : ∃ fuel, Json.scan data fuel (cursor + text.length) = .ok stop) :
    ∃ fuel, Json.scan data fuel cursor = .ok stop := by
  induction text generalizing cursor with
  | nil => exact scans
  | cons b text ih =>
      have found : data[cursor]? = some b := getElem?_of_drop rest
      obtain ⟨notQuote, notBackslash, graphic⟩ := ordinary b List.mem_cons_self
      have step : Json.scanStep data cursor = .ok (false, cursor + 1) :=
        scanStep_ok.2 ⟨b, found, .inr (.inr ⟨notQuote, notBackslash, graphic, rfl, rfl⟩)⟩
      rw [List.length_cons, Nat.add_comm text.length, ← Nat.add_assoc] at scans
      obtain ⟨fuel, further⟩ := ih (fun c member => ordinary c (List.mem_cons_of_mem _ member))
        (drop_succ rest) scans
      exact ⟨fuel + 1, scan_succ_ok.2 (.inr ⟨cursor + 1, step, further⟩)⟩

theorem escape_ne_unit {letter : UInt8} {c : Char} (escape : Escape letter c) : letter ≠ 0x75 := by
  cases escape <;> decide

/-- A scan passes over a piece. -/
theorem scan_piece {data post : Bytes} {piece : Piece} {cursor stop : Nat} (valid : piece.Valid)
    (rest : data.drop cursor = piece.text ++ post)
    (scans : ∃ fuel, Json.scan data fuel (cursor + piece.text.length) = .ok stop) :
    ∃ fuel, Json.scan data fuel cursor = .ok stop := by
  have lengths := congrArg List.length rest
  rw [List.length_drop, List.length_append] at lengths
  cases piece with
  | plain c => exact scan_ordinary (fun b member => plain_ordinary valid member) rest scans
  | escape letter c =>
      obtain ⟨fuel, further⟩ := scans
      have found : data[cursor]? = some backslash := getElem?_of_drop rest
      have next : data[cursor + 1]? = some letter := getElem?_of_drop (drop_succ rest)
      have stop' : Json.escapeEnd data cursor = cursor + 2 := by
        rw [Json.escapeEnd, next, if_neg]
        exact fun same => escape_ne_unit valid (Option.some.inj same)
      have step : Json.scanStep data cursor = .ok (false, cursor + 2) :=
        scanStep_ok.2 ⟨backslash, found, .inr (.inl ⟨rfl, rfl, stop'.symm, by
          simp only [Piece.text, List.length_cons, List.length_nil] at lengths
          omega⟩)⟩
      exact ⟨fuel + 1, scan_succ_ok.2 (.inr ⟨cursor + 2, step, further⟩)⟩
  | unit digits value =>
      obtain ⟨fuel, further⟩ := scans
      have found : data[cursor]? = some backslash := getElem?_of_drop rest
      have next : data[cursor + 1]? = some 0x75 := getElem?_of_drop (drop_succ rest)
      have stop' : Json.escapeEnd data cursor = cursor + 6 := by
        rw [Json.escapeEnd, next, if_pos rfl]
      have six : (Piece.unit digits value).text.length = 6 := by
        simp [Piece.text, valid.1]
      rw [six] at further lengths
      have step : Json.scanStep data cursor = .ok (false, cursor + 6) :=
        scanStep_ok.2 ⟨backslash, found, .inr (.inl ⟨rfl, rfl, stop'.symm, by omega⟩)⟩
      exact ⟨fuel + 1, scan_succ_ok.2 (.inr ⟨cursor + 6, step, further⟩)⟩

theorem scan_written {data post : Bytes} {pieces : List Piece} {cursor : Nat}
    (valid : ∀ piece ∈ pieces, piece.Valid)
    (rest : data.drop cursor = written pieces ++ quote :: post) :
    ∃ fuel, Json.scan data fuel cursor = .ok (cursor + (written pieces).length + 1) := by
  induction pieces generalizing cursor with
  | nil =>
      have step : Json.scanStep data cursor = .ok (true, cursor + 1) :=
        scanStep_ok.2 ⟨quote, getElem?_of_drop rest, .inl ⟨rfl, rfl, rfl⟩⟩
      exact ⟨1, scan_succ_ok.2 (.inl step)⟩
  | cons piece pieces ih =>
      rw [written_cons, List.append_assoc] at rest
      apply scan_piece (valid piece List.mem_cons_self) rest
      have further := ih (fun other member => valid other (List.mem_cons_of_mem _ member))
        (drop_add_length rest)
      rwa [written_cons, List.length_append, ← Nat.add_assoc]

/-! ## Decoding -/

theorem hexDigit_small {b : UInt8} {digit : Nat} (found : hexDigit b = some digit) :
    b.toNat < 0x80 := by
  unfold hexDigit at found
  split at found
  · rename_i range
    exact Nat.lt_of_le_of_lt (UInt8.le_iff_toNat_le.1 range.2) (by decide)
  · split at found
    · rename_i range
      exact Nat.lt_of_le_of_lt (UInt8.le_iff_toNat_le.1 range.2) (by decide)
    · split at found
      · rename_i range
        exact Nat.lt_of_le_of_lt (UInt8.le_iff_toNat_le.1 range.2) (by decide)
      · simp at found

theorem hexDigits_small {digits : Bytes} {start value : Nat}
    (found : hexDigits digits start = some value) : ∀ b ∈ digits, b.toNat < 0x80 := by
  induction digits generalizing start with
  | nil => simp
  | cons b rest ih =>
      obtain ⟨digit, isDigit, further⟩ := Option.bind_eq_some_iff.1 found
      exact List.forall_mem_cons.2 ⟨hexDigit_small isDigit, ih further⟩

/-- What stands between the quotes is UTF-8, escapes and all. -/
theorem written_utf8 {pieces : List Piece} (valid : ∀ piece ∈ pieces, piece.Valid) :
    ∃ chars, written pieces = Utf8.encode chars := by
  induction pieces with
  | nil => exact ⟨[], rfl⟩
  | cons piece pieces ih =>
      obtain ⟨chars, tail⟩ := ih fun other member => valid other (List.mem_cons_of_mem _ member)
      have here := valid piece List.mem_cons_self
      obtain ⟨head, first⟩ : ∃ head, piece.text = Utf8.encode head := by
        cases piece with
        | plain c => exact ⟨[c], by simp [Piece.text]⟩
        | escape letter c =>
            refine ⟨_, (Utf8.encode_bytes ?_).symm⟩
            cases here <;> exact forall_mem_of_all (by decide)
        | unit digits value =>
            refine ⟨_, (Utf8.encode_bytes ?_).symm⟩
            have small := hexDigits_small here.2
            exact List.forall_mem_cons.2 ⟨by decide, List.forall_mem_cons.2 ⟨by decide, small⟩⟩
      refine ⟨head ++ chars, ?_⟩
      rw [written_cons, first, tail, Utf8.encode, Utf8.encode, Utf8.encode, List.flatMap_append]

section Decode

variable {bytes more : Bytes} {cursor : Nat}

theorem decodeOne_plain {c : Char} {chars : List Char} (valid : (Piece.plain c).Valid)
    (utf8 : more = Utf8.encode chars)
    (rest : bytes.drop cursor = String.utf8EncodeChar c ++ (more ++ [quote])) :
    decodeOne bytes cursor = .ok (c, cursor + c.utf8Size) := by
  obtain ⟨b, tail, shape⟩ := List.exists_cons_of_ne_nil (Utf8.utf8EncodeChar_ne_nil c)
  have found : bytes[cursor]? = some b := getElem?_of_drop (by rw [rest, shape]; rfl)
  have ordinary := plain_ordinary valid (show b ∈ String.utf8EncodeChar c by simp [shape])
  have inside : cursor ≤ bytes.length := by
    have := (List.getElem?_eq_some_iff.1 found).1
    omega
  rw [← List.append_assoc] at rest
  have lengths := congrArg List.length rest
  have ranged := getRange_of_append inside rest
  rw [List.length_drop, List.length_append, List.length_singleton] at lengths
  have stop : bytes.length - 1 = cursor + (String.utf8EncodeChar c ++ more).length := by omega
  have decoded : Utf8.fromUtf8 (String.utf8EncodeChar c ++ more) = some (c :: chars) := by
    rw [utf8, ← Utf8.encode_cons, Utf8.fromUtf8_encode]
  simp only [decodeOne, found, slice_eq_getRange, stop, ranged, Option.elim_some, decoded]
  rw [if_pos ordinary.2.1]

theorem simpleEscape_of {letter : UInt8} {c : Char} (escape : Escape letter c) :
    simpleEscape letter = some c := by
  cases escape <;> rfl

theorem decodeOne_escape {letter : UInt8} {c : Char} (escape : Escape letter c)
    (rest : bytes.drop cursor = backslash :: letter :: more) :
    decodeOne bytes cursor = .ok (c, cursor + 2) := by
  have found : bytes[cursor]? = some backslash := getElem?_of_drop rest
  have next : bytes[cursor + 1]? = some letter := getElem?_of_drop (drop_succ rest)
  have notUnit := escape_ne_unit escape
  simp [decodeOne, found, next, notUnit, simpleEscape_of escape]

theorem fromStrRadix16_digits {digits : Bytes} {value : Nat} (valid : (Piece.unit digits value).Valid) :
    fromStrRadix16 digits = some value := by
  obtain ⟨four, found⟩ := valid
  unfold fromStrRadix16
  split
  · simp at four
  · simp at four
  · rename_i rest
    have noDigit : hexDigit 0x2b = none := by decide
    simp [hexDigits, noDigit] at found
  · exact found

/-- The four digits behind `\u` at `cursor`. -/
theorem unit_range {digits : Bytes} {value : Nat} (valid : (Piece.unit digits value).Valid)
    (rest : bytes.drop cursor = backslash :: 0x75 :: (digits ++ more)) :
    (getRange bytes (cursor + 2) (cursor + 6)).bind fromStrRadix16 = some value := by
  have behind : bytes.drop (cursor + 2) = digits ++ more := drop_succ (drop_succ rest)
  have inside : cursor + 2 ≤ bytes.length := by
    have lengths := congrArg List.length rest
    simp only [List.length_drop, List.length_cons] at lengths
    omega
  have ranged := getRange_of_append inside behind
  rw [valid.1] at ranged
  rw [show cursor + 6 = cursor + 2 + 4 from rfl, ranged]
  exact fromStrRadix16_digits valid

theorem decodeOne_unit (rest : bytes.drop cursor = backslash :: 0x75 :: more) :
    decodeOne bytes cursor = unicodeEscape bytes cursor := by
  have found : bytes[cursor]? = some backslash := getElem?_of_drop rest
  have next : bytes[cursor + 1]? = some 0x75 := getElem?_of_drop (drop_succ rest)
  simp [decodeOne, found, next]

theorem charFromU32_valid {value : Nat} (valid : value.isValidChar) :
    charFromU32 value = some (Char.ofNat value) :=
  if_pos valid

theorem unicodeEscape_scalar {digits : Bytes} {value : Nat} (valid : (Piece.unit digits value).Valid)
    (notHigh : ¬ HighSurrogate value) (notLow : ¬ LowSurrogate value)
    (rest : bytes.drop cursor = backslash :: 0x75 :: (digits ++ more)) :
    unicodeEscape bytes cursor = .ok (Char.ofNat value, cursor + 6) := by
  have small := unit_lt valid
  have isChar : value.isValidChar := by
    unfold HighSurrogate LowSurrogate at *
    unfold Nat.isValidChar
    omega
  rw [unicodeEscape, unit_range valid rest]
  unfold HighSurrogate at notHigh
  unfold LowSurrogate at notLow
  simp only [notHigh, notLow, if_false, charFromU32_valid isChar]

theorem unicodeEscape_low {digits : Bytes} {value : Nat} (valid : (Piece.unit digits value).Valid)
    (notHigh : ¬ HighSurrogate value) (low : LowSurrogate value)
    (rest : bytes.drop cursor = backslash :: 0x75 :: (digits ++ more)) :
    ∃ failure, unicodeEscape bytes cursor = .error failure := by
  rw [unicodeEscape, unit_range valid rest]
  unfold HighSurrogate at notHigh
  unfold LowSurrogate at low
  simp only [notHigh, low, if_false, if_true, and_self]
  exact ⟨_, rfl⟩

theorem pair_eq (high low : Nat) :
    0x10000 + ((high - 0xd800) <<< 10) + (low - 0xdc00) = pair high low := by
  unfold pair
  rw [Nat.shiftLeft_eq]

theorem unicodeEscape_pair {digits lows : Bytes} {value low : Nat}
    (valid : (Piece.unit digits value).Valid) (validLow : (Piece.unit lows low).Valid)
    (high : HighSurrogate value)
    (rest : bytes.drop cursor =
      backslash :: 0x75 :: (digits ++ (backslash :: 0x75 :: (lows ++ more)))) :
    Reads (unicodeEscape bytes cursor) (decide (LowSurrogate low))
      (Char.ofNat (pair value low), cursor + 12) := by
  have behind : bytes.drop (cursor + 6) = backslash :: 0x75 :: (lows ++ more) := by
    have digitsRest : bytes.drop (cursor + 2) = digits ++ (backslash :: 0x75 :: (lows ++ more)) :=
      drop_succ (drop_succ rest)
    have four := drop_add_length digitsRest
    rwa [valid.1] at four
  have inside : cursor + 6 ≤ bytes.length := by
    have lengths := congrArg List.length behind
    simp only [List.length_drop, List.length_cons] at lengths
    omega
  have again : getRange bytes (cursor + 6) (cursor + 8) = some [backslash, 0x75] :=
    getRange_of_append inside (show bytes.drop (cursor + 6) = [backslash, 0x75] ++ (lows ++ more) from behind)
  have lowRange : (getRange bytes (cursor + 8) (cursor + 12)).bind fromStrRadix16 = some low :=
    unit_range validLow behind
  have isHigh : 0xd800 ≤ value ∧ value ≤ 0xdbff := high
  by_cases isLow : LowSurrogate low
  · have isLow' : 0xdc00 ≤ low ∧ low ≤ 0xdfff := isLow
    have scalar := pair_eq value low
    have isChar : (pair value low).isValidChar := by
      unfold Nat.isValidChar pair
      omega
    rw [decide_eq_true isLow]
    apply reads_true.2
    rw [unicodeEscape, unit_range valid rest]
    simp only [isHigh, and_self, if_true, again, lowRange, isLow', scalar, charFromU32_valid isChar]
  · have isLow' : ¬ (0xdc00 ≤ low ∧ low ≤ 0xdfff) := isLow
    rw [decide_eq_false isLow]
    apply reads_false.2
    rw [unicodeEscape, unit_range valid rest]
    simp only [isHigh, and_self, if_true, again, lowRange, isLow', if_false]
    exact ⟨_, rfl⟩

theorem unicodeEscape_lone {digits : Bytes} {value : Nat} (valid : (Piece.unit digits value).Valid)
    (high : HighSurrogate value) (alone : ∀ tail, more ≠ backslash :: 0x75 :: tail)
    (rest : bytes.drop cursor = backslash :: 0x75 :: (digits ++ more)) :
    ∃ failure, unicodeEscape bytes cursor = .error failure := by
  have behind : bytes.drop (cursor + 6) = more := by
    have digitsRest : bytes.drop (cursor + 2) = digits ++ more := drop_succ (drop_succ rest)
    have four := drop_add_length digitsRest
    rwa [valid.1] at four
  have noUnit : getRange bytes (cursor + 6) (cursor + 8) ≠ some [backslash, 0x75] := by
    intro ranged
    have text := (getRange_eq_some ranged).1
    rw [behind] at text
    exact alone _ text
  have isHigh : 0xd800 ≤ value ∧ value ≤ 0xdbff := high
  rw [unicodeEscape, unit_range valid rest]
  simp only [isHigh, and_self, if_true, noUnit, if_false]
  exact ⟨_, rfl⟩

end Decode

/-- One turn of the decoding loop. -/
theorem decodeLoop_step {bytes : Bytes} {fuel cursor next : Nat} {c : Char} {text : Option (List Char)}
    (inside : cursor + 1 < bytes.length) (one : decodeOne bytes cursor = .ok (c, next))
    (further : Reads (decodeLoop bytes fuel next) text.isSome (text.getD [])) :
    Reads (decodeLoop bytes (fuel + 1) cursor) (text.map (c :: ·)).isSome
      ((text.map (c :: ·)).getD []) := by
  rw [decodeLoop, if_pos inside, one]
  cases text with
  | none =>
      obtain ⟨failure, failed⟩ := reads_false.1 further
      exact reads_false.2 ⟨failure, by simp only [failed]; rfl⟩
  | some text =>
      have ok := reads_true.1 further
      exact reads_true.2 (by simp only [ok]; rfl)

theorem decodeLoop_fails {bytes : Bytes} {fuel cursor : Nat} {value : List Char}
    (inside : cursor + 1 < bytes.length)
    (one : ∃ failure, decodeOne bytes cursor = .error failure) :
    Reads (decodeLoop bytes (fuel + 1) cursor) false value := by
  obtain ⟨failure, failed⟩ := one
  apply reads_false.2
  exact ⟨failure, by rw [decodeLoop, if_pos inside, failed]⟩

theorem piece_length {piece : Piece} (valid : piece.Valid) : 0 < piece.text.length := by
  cases piece with
  | plain c =>
      show 0 < (String.utf8EncodeChar c).length
      rw [String.length_utf8EncodeChar]
      exact c.utf8Size_pos
  | escape letter c => exact Nat.zero_lt_succ _
  | unit digits value => exact Nat.zero_lt_succ _

/-- While a piece is left, there is a turn of the loop to take it. -/
theorem turn_room {bytes : Bytes} {piece : Piece} {pieces : List Piece} {fuel cursor : Nat}
    (valid : piece.Valid) (enough : (piece :: pieces).length < fuel)
    (rest : bytes.drop cursor = written (piece :: pieces) ++ [quote]) :
    cursor + 1 < bytes.length ∧ ∃ n, fuel = n + 1 := by
  have lengths := length_of_drop rest (by simp)
  have positive := piece_length valid
  rw [written_cons, List.length_append, List.length_append, List.length_singleton] at lengths
  exact ⟨by omega, fuel - 1, by omega⟩

theorem decodeLoop_complete {bytes : Bytes} (pieces : List Piece) {fuel cursor : Nat}
    (valid : ∀ piece ∈ pieces, piece.Valid) (enough : pieces.length < fuel)
    (rest : bytes.drop cursor = written pieces ++ [quote]) :
    Reads (decodeLoop bytes fuel cursor) (denoted pieces).isSome ((denoted pieces).getD []) := by
  induction pieces using denoted.induct generalizing fuel cursor with
  | case1 =>
      obtain ⟨fuel, rfl⟩ : ∃ n, fuel = n + 1 := ⟨fuel - 1, by simp at enough; omega⟩
      have lengths := length_of_drop rest (by simp)
      have ended : ¬ cursor + 1 < bytes.length := by
        simp only [written_nil, List.nil_append, List.length_singleton] at lengths
        omega
      apply reads_true.2
      rw [decodeLoop, if_neg ended]
      rfl
  | case2 c pieces ih =>
      obtain ⟨here, valid⟩ := List.forall_mem_cons.1 valid
      obtain ⟨inside, fuel, rfl⟩ := turn_room here enough rest
      rw [written_cons, List.append_assoc] at rest
      obtain ⟨chars, utf8⟩ := written_utf8 valid
      have one := decodeOne_plain here utf8 rest
      rw [← String.length_utf8EncodeChar] at one
      exact decodeLoop_step inside one
        (ih valid (by simpa using enough) (drop_add_length rest))
  | case3 letter c pieces ih =>
      obtain ⟨here, valid⟩ := List.forall_mem_cons.1 valid
      obtain ⟨inside, fuel, rfl⟩ := turn_room here enough rest
      rw [written_cons, List.append_assoc] at rest
      exact decodeLoop_step inside (decodeOne_escape here rest)
        (ih valid (by simpa using enough) (drop_succ (drop_succ rest)))
  | case4 digits value high lows low pieces isLow ih =>
      obtain ⟨here, valid⟩ := List.forall_mem_cons.1 valid
      obtain ⟨hereLow, valid⟩ := List.forall_mem_cons.1 valid
      obtain ⟨inside, fuel, rfl⟩ := turn_room here enough rest
      rw [written_cons, written_cons, List.append_assoc, List.append_assoc] at rest
      have one := unicodeEscape_pair here hereLow high rest
      rw [decide_eq_true isLow, reads_true, ← decodeOne_unit rest] at one
      have twelve : (Piece.unit digits value).text.length + (Piece.unit lows low).text.length = 12 := by
        simp [Piece.text, here.1, hereLow.1]
      have behind := drop_add_length (drop_add_length rest)
      rw [Nat.add_assoc, twelve] at behind
      have room : pieces.length < fuel := by
        simp only [List.length_cons] at enough
        omega
      rw [denoted, if_pos high]
      simp only [isLow, if_true]
      exact decodeLoop_step inside one (ih valid room behind)
  | case5 digits value high lows low pieces notLow =>
      obtain ⟨here, valid⟩ := List.forall_mem_cons.1 valid
      obtain ⟨hereLow, valid⟩ := List.forall_mem_cons.1 valid
      obtain ⟨inside, fuel, rfl⟩ := turn_room here enough rest
      rw [written_cons, written_cons, List.append_assoc, List.append_assoc] at rest
      have one := unicodeEscape_pair here hereLow high rest
      rw [decide_eq_false notLow, reads_false, ← decodeOne_unit rest] at one
      rw [denoted, if_pos high]
      simp only [notLow, if_false]
      exact decodeLoop_fails inside one
  | case6 digits value pieces high alone =>
      obtain ⟨here, valid⟩ := List.forall_mem_cons.1 valid
      obtain ⟨inside, fuel, rfl⟩ := turn_room here enough rest
      rw [written_cons, List.append_assoc] at rest
      have noUnit : ∀ tail, written pieces ++ [quote] ≠ backslash :: 0x75 :: tail := by
        intro tail same
        cases pieces with
        | nil => simp at same
        | cons next pieces =>
            rw [written_cons, List.append_assoc] at same
            have hereNext := valid next List.mem_cons_self
            cases next with
            | plain c =>
                obtain ⟨b, more, shape⟩ := List.exists_cons_of_ne_nil (Utf8.utf8EncodeChar_ne_nil c)
                have ordinary :=
                  plain_ordinary hereNext (show b ∈ String.utf8EncodeChar c by simp [shape])
                rw [Piece.text, shape] at same
                exact ordinary.2.1 (List.cons.inj same).1
            | escape letter c =>
                exact escape_ne_unit hereNext (List.cons.inj (List.cons.inj same).2).1
            | unit digits value => exact alone _ _ _ rfl
      have one := unicodeEscape_lone here high noUnit rest
      rw [← decodeOne_unit rest] at one
      rw [denoted_lone high fun lows low more same => alone lows low more same]
      exact decodeLoop_fails inside one
  | case7 digits value pieces notHigh low =>
      obtain ⟨here, valid⟩ := List.forall_mem_cons.1 valid
      obtain ⟨inside, fuel, rfl⟩ := turn_room here enough rest
      rw [written_cons, List.append_assoc] at rest
      have one := unicodeEscape_low here notHigh low rest
      rw [← decodeOne_unit rest] at one
      rw [denoted_low notHigh low]
      exact decodeLoop_fails inside one
  | case8 digits value pieces notHigh notLow ih =>
      obtain ⟨here, valid⟩ := List.forall_mem_cons.1 valid
      obtain ⟨inside, fuel, rfl⟩ := turn_room here enough rest
      rw [written_cons, List.append_assoc] at rest
      have one := unicodeEscape_scalar here notHigh notLow rest
      rw [← decodeOne_unit rest] at one
      have six : (Piece.unit digits value).text.length = 6 := by
        simp [Piece.text, here.1]
      have behind := drop_add_length rest
      rw [six] at behind
      rw [denoted_scalar notHigh notLow]
      exact decodeLoop_step inside one (ih valid (by simpa using enough) behind)

/-! ## Documents -/

theorem toOption_of_reads {result : Result (List Char)} {text : Option (List Char)}
    (reads : Reads result text.isSome (text.getD [])) : text = result.toOption := by
  cases text with
  | none =>
      obtain ⟨failure, failed⟩ := reads_false.1 reads
      rw [failed]
      rfl
  | some text =>
      rw [reads_true.1 reads]
      rfl

theorem pieces_length {pieces : List Piece} (valid : ∀ piece ∈ pieces, piece.Valid) :
    pieces.length ≤ (written pieces).length := by
  induction pieces with
  | nil => exact Nat.le_refl 0
  | cons piece pieces ih =>
      obtain ⟨here, valid⟩ := List.forall_mem_cons.1 valid
      have positive := piece_length here
      have rest := ih valid
      rw [written_cons, List.length_append, List.length_cons]
      omega

/-- A standard string is a token of the helper, for the text it denotes. -/
theorem standard_string {text : Bytes} {key : Option (List Char)} (token : standard.string text key) :
    StringToken text key := by
  obtain ⟨pieces, valid, rfl, rfl⟩ := token
  refine ⟨rfl, ?_, ?_⟩
  · obtain ⟨fuel, scans⟩ := @scan_written (quote :: (written pieces ++ [quote])) [] pieces 1 valid rfl
    have stop : 1 + (written pieces).length + 1 = (quote :: (written pieces ++ [quote])).length := by
      simp only [List.length_cons, List.length_append, List.length_nil]
      omega
    rw [stop] at scans
    exact scan_fuel scans _ (by omega)
  · have enough : pieces.length < (quote :: (written pieces ++ [quote])).length + 1 := by
      have := pieces_length valid
      simp only [List.length_cons, List.length_append, List.length_nil]
      omega
    exact toOption_of_reads (decodeLoop_complete pieces valid enough rfl)

theorem standard_space {b : UInt8} (space : standard.space b) : isAsciiWhitespace b = true := by
  rcases space with rfl | rfl | rfl | rfl <;> rfl

theorem standard_document {d : Document} {levels : Nat} (valid : d.Valid standard levels) :
    d.Valid helper levels :=
  valid.mono (fun _ space => standard_space space) fun _ _ token => standard_string token

end Luhmen.Guest
