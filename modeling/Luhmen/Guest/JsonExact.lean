/-
# Guest.JsonExact -- the language the scanner reads, exactly

`Guest.JsonCursor` walks a byte slice by cursor.  Here its functions are tied to
the grammar of `Theory.JsonGrammar`, over the lexicon `helper` of what the code
takes between tokens and as a string token.  Everything is said about what is
left at a cursor, `data.drop cursor`:

* an accepting run has consumed a text of the grammar (`..._sound`);
* on a text of the grammar, followed by something that does not continue a
  number, the run ends exactly behind it, with an error if and only if some
  string of the text denotes no Unicode text (`..._complete`, `Reads`).

The object loops of `Json::value` and `locate` are two readings of one loop,
`membersLoop`.  The module ends in `locate_sound` and `locate_complete`.
-/
import Mathlib.Data.List.TakeWhile
import Luhmen.Guest.JsonCursor
import Luhmen.Theory.JsonGrammar

namespace Luhmen.Guest

open Luhmen.Theory Luhmen.Theory.JsonGrammar

set_option autoImplicit false

/-! ## What is left at a cursor -/

theorem getElem?_eq_head? (data : Bytes) (cursor : Nat) :
    data[cursor]? = (data.drop cursor).head? := by
  rw [List.head?_drop]

theorem drop_add_length {data text post : Bytes} {cursor : Nat}
    (rest : data.drop cursor = text ++ post) : data.drop (cursor + text.length) = post := by
  rw [← List.drop_drop, rest, List.drop_left]

theorem getElem?_add_length {data text post : Bytes} {cursor : Nat}
    (rest : data.drop cursor = text ++ post) : data[cursor + text.length]? = post.head? := by
  rw [getElem?_eq_head?, drop_add_length rest]

theorem drop_succ {data post : Bytes} {b : UInt8} {cursor : Nat}
    (rest : data.drop cursor = b :: post) : data.drop (cursor + 1) = post := by
  rw [← List.drop_drop, rest]
  rfl

theorem getElem?_of_drop {data post : Bytes} {b : UInt8} {cursor : Nat}
    (rest : data.drop cursor = b :: post) : data[cursor]? = some b := by
  rw [getElem?_eq_head?, rest]
  rfl

theorem drop_of_getElem? {data : Bytes} {cursor : Nat} {b : UInt8} (found : data[cursor]? = some b) :
    data.drop cursor = b :: data.drop (cursor + 1) := by
  obtain ⟨inside, rfl⟩ := List.getElem?_eq_some_iff.1 found
  exact List.drop_eq_getElem_cons inside

theorem length_of_drop {data text : Bytes} {cursor : Nat} (rest : data.drop cursor = text)
    (nonempty : text ≠ []) : cursor + text.length = data.length := by
  have lengths := congrArg List.length rest
  have positive := List.length_pos_iff.2 nonempty
  rw [List.length_drop] at lengths
  omega

theorem getRange_of_append {data text post : Bytes} {cursor : Nat} (inside : cursor ≤ data.length)
    (rest : data.drop cursor = text ++ post) :
    getRange data cursor (cursor + text.length) = some text := by
  have lengths := congrArg List.length rest
  rw [List.length_drop, List.length_append] at lengths
  rw [getRange, if_pos ⟨by omega, by omega⟩, List.drop_take, rest]
  simp

theorem getRange_eq_some {data text : Bytes} {cursor stop : Nat}
    (found : getRange data cursor stop = some text) :
    data.drop cursor = text ++ data.drop stop ∧ stop = cursor + text.length := by
  unfold getRange at found
  split at found
  · rename_i range
    obtain rfl := Option.some.inj found
    rw [List.drop_take]
    refine ⟨?_, by simp; omega⟩
    have back : data.drop stop = (data.drop cursor).drop (stop - cursor) := by
      rw [List.drop_drop]; congr 1; omega
    rw [back, List.take_append_drop]
  · simp at found

theorem slice_eq_getRange (data : Bytes) (start stop : Nat) :
    slice data start stop = (getRange data start stop).elim (.error .panic) .ok := by
  unfold slice getRange
  split <;> rfl

/-! ## Skipping -/

theorem skipWhile_complete {keep : UInt8 → Bool} {data text post : Bytes} {cursor : Nat}
    (all : ∀ b ∈ text, keep b = true) (stops : ∀ b, post.head? = some b → keep b = false)
    (rest : data.drop cursor = text ++ post) :
    Json.skipWhile keep data cursor = cursor + text.length := by
  have nothing : post.takeWhile keep = [] := by
    cases post with
    | nil => rfl
    | cons b post => simp [stops b rfl]
  rw [Json.skipWhile, rest, List.takeWhile_append_of_pos all, nothing, List.append_nil]

theorem skipWhile_sound (keep : UInt8 → Bool) (data : Bytes) (cursor : Nat) :
    ∃ text, (∀ b ∈ text, keep b = true) ∧
      data.drop cursor = text ++ data.drop (Json.skipWhile keep data cursor) ∧
      Json.skipWhile keep data cursor = cursor + text.length := by
  refine ⟨(data.drop cursor).takeWhile keep, fun b member => List.mem_takeWhile_imp member, ?_, rfl⟩
  have split : (data.drop cursor).takeWhile keep ++ (data.drop cursor).dropWhile keep =
      data.drop cursor := List.takeWhile_append_dropWhile
  rw [Json.skipWhile, drop_add_length split.symm]
  exact split.symm

theorem skipWhile_stops {keep : UInt8 → Bool} {data : Bytes} {cursor : Nat} {b : UInt8}
    (found : data[Json.skipWhile keep data cursor]? = some b) : keep b = false := by
  have split : (data.drop cursor).takeWhile keep ++ (data.drop cursor).dropWhile keep =
      data.drop cursor := List.takeWhile_append_dropWhile
  rw [Json.skipWhile, getElem?_add_length split.symm] at found
  have := List.head?_dropWhile_not keep (data.drop cursor)
  rw [found] at this
  simpa using this

/-- Whitespace of the helper. -/
abbrev Blank (text : Bytes) : Prop := ∀ b ∈ text, isAsciiWhitespace b = true

theorem Blank.nil : Blank [] :=
  fun _ member => absurd member List.not_mem_nil

/-- The first byte of `post` is no whitespace. -/
abbrev NoBlank (post : Bytes) : Prop :=
  ∀ b, post.head? = some b → isAsciiWhitespace b = false

theorem NoBlank.cons {b : UInt8} (post : Bytes) (token : isAsciiWhitespace b = false) :
    NoBlank (b :: post) := by
  intro c head
  obtain rfl := Option.some.inj head
  exact token

theorem NoBlank.nil : NoBlank [] :=
  fun b head => absurd head (by simp)

theorem whitespace_complete {data text post : Bytes} {cursor : Nat} (blank : Blank text)
    (stops : NoBlank post)
    (rest : data.drop cursor = text ++ post) :
    Json.whitespace data cursor = cursor + text.length :=
  skipWhile_complete blank stops rest

theorem whitespace_sound (data : Bytes) (cursor : Nat) :
    ∃ text, Blank text ∧ data.drop cursor = text ++ data.drop (Json.whitespace data cursor) ∧
      Json.whitespace data cursor = cursor + text.length :=
  skipWhile_sound _ data cursor

theorem byte_complete {data text post : Bytes} {cursor : Nat} {expected : UInt8}
    (blank : Blank text) (token : isAsciiWhitespace expected = false)
    (rest : data.drop cursor = text ++ expected :: post) :
    Json.byte data expected cursor = .ok (cursor + text.length + 1) := by
  have skipped : Json.whitespace data cursor = cursor + text.length :=
    whitespace_complete blank (.cons post token) rest
  rw [Json.byte, skipped, getElem?_add_length rest]
  simp

theorem byte_sound {data : Bytes} {cursor stop : Nat} {expected : UInt8}
    (ok : Json.byte data expected cursor = .ok stop) :
    ∃ text, Blank text ∧ data.drop cursor = text ++ expected :: data.drop stop ∧
      stop = cursor + text.length + 1 := by
  obtain ⟨text, blank, rest, skipped⟩ := whitespace_sound data cursor
  unfold Json.byte at ok
  split at ok
  · rename_i found
    obtain rfl := Except.ok.inj ok
    refine ⟨text, blank, ?_, by omega⟩
    rw [rest, List.append_cancel_left_eq]
    rw [getElem?_eq_head?] at found
    obtain ⟨post, shape⟩ := List.head?_eq_some_iff.1 found
    rw [shape, ← List.drop_drop, shape]
    rfl
  · simp [fail] at ok

/-! ## Strings

A scan is a matter of the token alone: `scan_drop` moves it to the front of the
slice, `scan_append` and `scan_of_append` cut off what follows the token. -/

theorem escapeEnd_bounds (data : Bytes) (cursor : Nat) :
    cursor + 2 ≤ Json.escapeEnd data cursor := by
  unfold Json.escapeEnd
  split <;> omega

/-- The turns of the scan loop: the closing quote, an escape, any other byte. -/
theorem scanStep_ok {data : Bytes} {cursor next : Nat} {closed : Bool} :
    Json.scanStep data cursor = .ok (closed, next) ↔
      ∃ b, data[cursor]? = some b ∧
        ((b = quote ∧ closed = true ∧ next = cursor + 1) ∨
          (b = backslash ∧ closed = false ∧ next = Json.escapeEnd data cursor ∧
            next ≤ data.length) ∨
          (b ≠ quote ∧ b ≠ backslash ∧ 0x1f < b ∧ closed = false ∧ next = cursor + 1)) := by
  unfold Json.scanStep
  cases found : data[cursor]? with
  | none => simp [fail]
  | some b =>
      have distinct : quote ≠ backslash := by decide
      by_cases isQuote : b = quote
      · subst isQuote
        simp [distinct, eq_comm]
      · by_cases escaped : b = backslash
        · subst escaped
          by_cases room : Json.escapeEnd data cursor > data.length
          · simp [room, distinct.symm, fail]
            omega
          · simp [room, distinct.symm]
            omega
        · by_cases control : b ≤ 0x1f
          · simp [isQuote, escaped, control, fail, UInt8.not_lt.2 control]
          · simp [isQuote, escaped, control, UInt8.not_le.1 control, eq_comm]

theorem scanStep_bounds {data : Bytes} {cursor next : Nat} {closed : Bool}
    (ok : Json.scanStep data cursor = .ok (closed, next)) : cursor < next ∧ next ≤ data.length := by
  obtain ⟨b, found, turn⟩ := scanStep_ok.1 ok
  have inside : cursor < data.length := (List.getElem?_eq_some_iff.1 found).1
  have escape := escapeEnd_bounds data cursor
  rcases turn with ⟨-, -, rfl⟩ | ⟨-, -, rfl, fits⟩ | ⟨-, -, -, -, rfl⟩ <;> omega

theorem scanStep_drop {data : Bytes} {base cursor next : Nat} {closed : Bool}
    (inside : base ≤ data.length) :
    Json.scanStep data (base + cursor) = .ok (closed, base + next) ↔
      Json.scanStep (data.drop base) cursor = .ok (closed, next) := by
  have shifted : ∀ n, data[base + n]? = (data.drop base)[n]? := fun n => by
    rw [List.getElem?_drop]
  have escape : Json.escapeEnd data (base + cursor) =
      base + Json.escapeEnd (data.drop base) cursor := by
    unfold Json.escapeEnd
    rw [Nat.add_assoc, shifted]
    split <;> omega
  simp only [scanStep_ok, shifted, escape, List.length_drop]
  refine exists_congr fun b => and_congr_right fun _ => ?_
  refine or_congr ?_ (or_congr ?_ ?_)
  · exact and_congr_right fun _ => and_congr_right fun _ => by omega
  · exact and_congr_right fun _ => and_congr_right fun _ => by omega
  · exact and_congr_right fun _ => and_congr_right fun _ => and_congr_right fun _ =>
      and_congr_right fun _ => by omega

theorem escapeEnd_append {text post : Bytes} {cursor : Nat} (inside : cursor + 1 < text.length) :
    Json.escapeEnd (text ++ post) cursor = Json.escapeEnd text cursor := by
  unfold Json.escapeEnd
  rw [List.getElem?_append_left inside]

theorem scanStep_append {text : Bytes} (post : Bytes) {cursor next : Nat} {closed : Bool}
    (ok : Json.scanStep text cursor = .ok (closed, next)) :
    Json.scanStep (text ++ post) cursor = .ok (closed, next) := by
  have bounds := scanStep_bounds ok
  have escape := escapeEnd_bounds text cursor
  obtain ⟨b, found, turn⟩ := scanStep_ok.1 ok
  refine scanStep_ok.2 ⟨b, by rw [List.getElem?_append_left (by omega), found], ?_⟩
  refine turn.imp_right (Or.imp_left ?_)
  rintro ⟨escaped, still, rfl, fits⟩
  exact ⟨escaped, still, (escapeEnd_append (by omega)).symm, by rw [List.length_append]; omega⟩

theorem scanStep_of_append {text post : Bytes} {cursor next : Nat} {closed : Bool}
    (ok : Json.scanStep (text ++ post) cursor = .ok (closed, next)) (inside : next ≤ text.length) :
    Json.scanStep text cursor = .ok (closed, next) := by
  have bounds := scanStep_bounds ok
  have escape := escapeEnd_bounds (text ++ post) cursor
  obtain ⟨b, found, turn⟩ := scanStep_ok.1 ok
  rw [List.getElem?_append_left (by omega)] at found
  refine scanStep_ok.2 ⟨b, found, turn.imp_right (Or.imp_left ?_)⟩
  rintro ⟨escaped, still, rfl, -⟩
  exact ⟨escaped, still, escapeEnd_append (by omega), inside⟩

/-- A scan that ends took a first turn, and closed there or went on. -/
theorem scan_succ_ok {data : Bytes} {fuel cursor stop : Nat} :
    Json.scan data (fuel + 1) cursor = .ok stop ↔
      Json.scanStep data cursor = .ok (true, stop) ∨
        ∃ next, Json.scanStep data cursor = .ok (false, next) ∧
          Json.scan data fuel next = .ok stop := by
  rw [Json.scan]
  split <;> rename_i turn <;> simp [turn]

theorem scan_bounds {data : Bytes} {fuel cursor stop : Nat}
    (ok : Json.scan data fuel cursor = .ok stop) : cursor < stop ∧ stop ≤ data.length := by
  induction fuel generalizing cursor with
  | zero => simp [Json.scan] at ok
  | succ fuel ih =>
      rcases scan_succ_ok.1 ok with closed | ⟨next, turn, further⟩
      · exact scanStep_bounds closed
      · have := scanStep_bounds turn
        have := ih further
        omega

theorem scan_fuel {data : Bytes} {fuel cursor stop : Nat}
    (ok : Json.scan data fuel cursor = .ok stop) (more : Nat) (enough : stop < cursor + more) :
    Json.scan data more cursor = .ok stop := by
  induction fuel generalizing cursor more with
  | zero => simp [Json.scan] at ok
  | succ fuel ih =>
      have bounds := scan_bounds ok
      obtain ⟨more, rfl⟩ : ∃ n, more = n + 1 := ⟨more - 1, by omega⟩
      refine scan_succ_ok.2 ((scan_succ_ok.1 ok).imp_right ?_)
      rintro ⟨next, turn, further⟩
      have := scanStep_bounds turn
      exact ⟨next, turn, ih further more (by omega)⟩

theorem scan_drop {data : Bytes} {base : Nat} (inside : base ≤ data.length) {fuel cursor stop : Nat} :
    Json.scan data fuel (base + cursor) = .ok (base + stop) ↔
      Json.scan (data.drop base) fuel cursor = .ok stop := by
  induction fuel generalizing cursor with
  | zero => simp [Json.scan]
  | succ fuel ih =>
      rw [scan_succ_ok, scan_succ_ok, scanStep_drop inside]
      refine or_congr_right ⟨?_, ?_⟩
      · rintro ⟨next, turn, further⟩
        have bounds := scanStep_bounds turn
        obtain ⟨next, rfl⟩ : ∃ n, next = base + n := ⟨next - base, by omega⟩
        exact ⟨next, (scanStep_drop inside).1 turn, ih.1 further⟩
      · rintro ⟨next, turn, further⟩
        exact ⟨base + next, (scanStep_drop inside).2 turn, ih.2 further⟩

theorem scan_append {text : Bytes} (post : Bytes) {fuel cursor stop : Nat}
    (ok : Json.scan text fuel cursor = .ok stop) :
    Json.scan (text ++ post) fuel cursor = .ok stop := by
  induction fuel generalizing cursor with
  | zero => simp [Json.scan] at ok
  | succ fuel ih =>
      refine scan_succ_ok.2 ((scan_succ_ok.1 ok).imp (scanStep_append post) ?_)
      rintro ⟨next, turn, further⟩
      exact ⟨next, scanStep_append post turn, ih further⟩

theorem scan_of_append {text post : Bytes} {fuel cursor : Nat}
    (ok : Json.scan (text ++ post) fuel cursor = .ok text.length) :
    Json.scan text fuel cursor = .ok text.length := by
  induction fuel generalizing cursor with
  | zero => simp [Json.scan] at ok
  | succ fuel ih =>
      refine scan_succ_ok.2 ((scan_succ_ok.1 ok).imp (scanStep_of_append · le_rfl) ?_)
      rintro ⟨next, turn, further⟩
      have := (scan_bounds further).1
      exact ⟨next, scanStep_of_append turn (by omega), ih further⟩

/-- A string token of the helper: a scan from its opening quote ends exactly at
its end, and `key` is what it decodes to, if it does. -/
structure StringToken (text : Bytes) (key : Option (List Char)) : Prop where
  opens : text.head? = some quote
  scans : Json.scan text (text.length + 1) 1 = .ok text.length
  decodes : key = (decodeJsonString text).toOption

/-- What the helper takes between tokens and as a string token. -/
def helper : Lexicon where
  space b := isAsciiWhitespace b = true
  string := StringToken

/-- A run on a text of the grammar: it returns `value` when all strings denote
Unicode text, and fails otherwise. -/
def Reads {α : Type} (result : Result α) (unicode : Bool) (value : α) : Prop :=
  if unicode then result = .ok value else ∃ failure, result = .error failure

theorem reads_true {α : Type} {result : Result α} {value : α} :
    Reads result true value ↔ result = .ok value := Iff.rfl

theorem reads_false {α : Type} {result : Result α} {value : α} :
    Reads result false value ↔ ∃ failure, result = .error failure := Iff.rfl

/-- A run that begins with another one fails with it, and goes on from its value. -/
theorem Reads.step {α β : Type} {result : Result α} {whole : Result β} {unicode more : Bool}
    {value : α} {final : β} (reads : Reads result unicode value)
    (failing : ∀ failure, result = .error failure → whole = .error failure)
    (going : unicode = true → result = .ok value → Reads whole more final) :
    Reads whole (unicode && more) final := by
  cases unicode with
  | false =>
      obtain ⟨failure, failed⟩ := reads_false.1 reads
      exact reads_false.2 ⟨failure, failing failure failed⟩
  | true => exact going rfl (reads_true.1 reads)

theorem Reads.map {α β : Type} {result : Result α} {unicode : Bool} {value : α}
    (reads : Reads result unicode value) (f : α → β) : Reads (result.map f) unicode (f value) := by
  cases unicode with
  | false =>
      obtain ⟨failure, failed⟩ := reads
      exact ⟨failure, by rw [failed]; rfl⟩
  | true =>
      have ok : result = .ok value := reads
      show result.map f = .ok (f value)
      rw [ok]; rfl

theorem string_complete {data lead text post : Bytes} {cursor : Nat} {key : Option (List Char)}
    (blank : Blank lead) (token : StringToken text key)
    (rest : data.drop cursor = lead ++ (text ++ post)) :
    Reads (Json.string data cursor) key.isSome
      (key.getD [], cursor + lead.length + text.length) := by
  obtain ⟨tail, shape⟩ := List.head?_eq_some_iff.1 token.opens
  have skipped : Json.whitespace data cursor = cursor + lead.length := by
    refine whitespace_complete blank ?_ rest
    rw [shape]
    exact .cons (tail ++ post) (by decide)
  have after := drop_add_length rest
  have inside : cursor + lead.length ≤ data.length := by
    have nonempty : text ++ post ≠ [] := by simp [shape]
    have := length_of_drop after nonempty
    omega
  have opens : data[cursor + lead.length]? = some quote := by
    rw [getElem?_add_length rest, shape]; rfl
  have lengths := congrArg List.length after
  rw [List.length_drop, List.length_append] at lengths
  have scanned : Json.scan data (data.length + 1) (cursor + lead.length + 1) =
      .ok (cursor + lead.length + text.length) := by
    rw [scan_drop inside, after]
    exact scan_append post (scan_fuel token.scans (data.length + 1) (by omega))
  have sliced : slice data (cursor + lead.length) (cursor + lead.length + text.length) =
      .ok text := by
    rw [slice_eq_getRange, getRange_of_append inside after]
    rfl
  simp only [Json.string, skipped, opens, if_pos, scanned, sliced]
  have decodes := token.decodes
  cases decoded : decodeJsonString text with
  | error failure =>
      rw [decoded] at decodes
      subst decodes
      exact ⟨failure, rfl⟩
  | ok value =>
      rw [decoded] at decodes
      subst decodes
      rfl

theorem whitespace_idem (data : Bytes) (cursor : Nat) :
    Json.whitespace data (Json.whitespace data cursor) = Json.whitespace data cursor := by
  refine whitespace_complete .nil ?_ rfl
  intro b head
  rw [← getElem?_eq_head?] at head
  exact skipWhile_stops head

theorem string_skips (data : Bytes) (cursor : Nat) :
    Json.string data (Json.whitespace data cursor) = Json.string data cursor := by
  simp only [Json.string, whitespace_idem]

theorem string_sound {data : Bytes} {cursor stop : Nat} {key : List Char}
    (ok : Json.string data cursor = .ok (key, stop)) :
    ∃ lead text, Blank lead ∧ StringToken text (some key) ∧
      data.drop cursor = lead ++ (text ++ data.drop stop) ∧
      stop = cursor + lead.length + text.length := by
  obtain ⟨lead, blank, rest, skipped⟩ := whitespace_sound data cursor
  simp only [Json.string] at ok
  split at ok
  · rename_i opens
    generalize startIs : Json.whitespace data cursor = start at *
    split at ok
    · simp at ok
    · rename_i stop' scanned
      split at ok
      · simp at ok
      · rename_i text sliced
        have startInside : start < data.length := (List.getElem?_eq_some_iff.1 opens).1
        have bounds := scan_bounds scanned
        rw [slice_eq_getRange] at sliced
        cases ranged : getRange data start stop' with
        | none => rw [ranged] at sliced; simp at sliced
        | some token =>
            rw [ranged] at sliced
            obtain rfl := Except.ok.inj sliced
            obtain ⟨split, length⟩ := getRange_eq_some ranged
            cases decoded : decodeJsonString token with
            | error failure => rw [decoded] at ok; simp [Except.map] at ok
            | ok decodedKey =>
                rw [decoded] at ok
                obtain ⟨rfl, rfl⟩ := Prod.mk.inj (Except.ok.inj ok)
                refine ⟨lead, token, blank, ⟨?_, ?_, by rw [decoded]; rfl⟩, ?_, by omega⟩
                · rw [getElem?_eq_head?, split] at opens
                  cases token with
                  | nil => simp at length; omega
                  | cons b token => simpa using opens
                · rw [length, scan_drop startInside.le, split] at scanned
                  exact scan_fuel (scan_of_append scanned) _ (by omega)
                · rw [rest, split]
  · simp [fail] at ok

/-! ## Numbers -/

theorem digit_iff (b : UInt8) : isAsciiDigit b = true ↔ Digit b := by
  simp [isAsciiDigit, Digit]

/-- The first byte of `post` is no digit. -/
def NoDigit (post : Bytes) : Prop :=
  ∀ b, post.head? = some b → isAsciiDigit b = false

/-- Nothing at the front of `post` continues a number. -/
def Delimited (post : Bytes) : Prop :=
  ∀ b, post.head? = some b → isAsciiDigit b = false ∧ b ≠ 0x2e ∧ b ≠ 0x65 ∧ b ≠ 0x45

theorem Delimited.noDigit {post : Bytes} (delimited : Delimited post) : NoDigit post :=
  fun b head => (delimited b head).1

theorem NoDigit.append {text post : Bytes} (here : text ≠ [] → NoDigit text)
    (there : NoDigit post) : NoDigit (text ++ post) := by
  cases text with
  | nil => exact there
  | cons b text => exact fun c head => here (by simp) c head

theorem fraction_noDigit {text : Bytes} (frac : Fraction text) : NoDigit text := by
  cases frac with
  | absent => exact fun b head => by simp at head
  | present nonempty all =>
      intro b head
      obtain rfl := Option.some.inj head
      decide

theorem exponent_noDigit {text : Bytes} (exp : Exponent text) : NoDigit text := by
  cases exp with
  | absent => exact fun b head => by simp at head
  | present marked signed nonempty all =>
      intro b head
      obtain rfl := Option.some.inj head
      rcases marked with rfl | rfl <;> decide

theorem skipDigits_complete {data digits post : Bytes} {cursor : Nat}
    (all : ∀ b ∈ digits, Digit b) (stops : NoDigit post)
    (rest : data.drop cursor = digits ++ post) :
    Json.skipWhile isAsciiDigit data cursor = cursor + digits.length :=
  skipWhile_complete (fun b member => (digit_iff b).2 (all b member)) stops rest

theorem integerPart_complete {data text post : Bytes} {cursor : Nat} (int : Integer text)
    (stops : NoDigit post) (rest : data.drop cursor = text ++ post) :
    Json.integerPart data cursor = .ok (cursor + text.length) := by
  unfold Json.integerPart
  cases int with
  | zero =>
      have first : data[cursor]? = some 0x30 := getElem?_of_drop rest
      have next : data[cursor + 1]? = post.head? := by rw [getElem?_eq_head?, drop_succ rest]; rfl
      simp only [first, next, if_true]
      cases post with
      | nil => rfl
      | cons b post => simp [stops b rfl]
  | @digits leadingByte digits leading all =>
      have first : data[cursor]? = some leadingByte := getElem?_of_drop rest
      have notZero : leadingByte ≠ 0x30 := by
        rintro rfl
        exact absurd leading.1 (by decide)
      have skipped := skipDigits_complete all stops (drop_succ rest)
      simp only [first, notZero, if_false, leading, and_self, if_true, skipped, List.length_cons]
      congr 1
      omega

theorem someDigits_complete {data digits post : Bytes} {cursor : Nat} (nonempty : digits ≠ [])
    (all : ∀ b ∈ digits, Digit b) (stops : NoDigit post)
    (rest : data.drop cursor = digits ++ post) :
    Json.someDigits data cursor = .ok (cursor + digits.length) := by
  have skipped := skipDigits_complete all stops rest
  have positive := List.length_pos_iff.2 nonempty
  simp only [Json.someDigits, skipped]
  rw [if_neg (by omega)]

theorem fractionPart_complete {data text post : Bytes} {cursor : Nat} (frac : Fraction text)
    (stops : NoDigit post) (noPoint : post.head? ≠ some 0x2e)
    (rest : data.drop cursor = text ++ post) :
    Json.fractionPart data cursor = .ok (cursor + text.length) := by
  unfold Json.fractionPart
  cases frac with
  | absent =>
      rw [getElem?_eq_head?, rest, List.nil_append, if_neg noPoint]
      rfl
  | present nonempty all =>
      rw [if_pos (getElem?_of_drop rest), someDigits_complete nonempty all stops (drop_succ rest)]
      simp only [List.length_cons]
      congr 1
      omega

theorem exponentPart_complete {data text post : Bytes} {cursor : Nat} (exp : Exponent text)
    (delimited : Delimited post) (rest : data.drop cursor = text ++ post) :
    Json.exponentPart data cursor = .ok (cursor + text.length) := by
  unfold Json.exponentPart
  cases exp with
  | absent =>
      rw [getElem?_eq_head?, rest, List.nil_append, if_neg]
      · rfl
      · rintro (head | head)
        · exact (delimited _ head).2.2.1 rfl
        · exact (delimited _ head).2.2.2 rfl
  | @present mark sign digits marked signed nonempty all =>
      have first : data[cursor]? = some mark := getElem?_of_drop rest
      have isMark : some mark = some (0x65 : UInt8) ∨ some mark = some (0x45 : UInt8) := by
        rcases marked with rfl | rfl <;> simp
      have behindMark : data.drop (cursor + 1) = sign ++ (digits ++ post) := by
        rw [drop_succ rest]
        exact List.append_assoc sign digits post
      have second : data[cursor + 1]? = (sign ++ (digits ++ post)).head? := by
        rw [getElem?_eq_head?, behindMark]
      rw [first, if_pos isMark, second]
      obtain ⟨d, tail, shape⟩ := List.exists_cons_of_ne_nil nonempty
      rcases signed with rfl | signed
      · have isDigit : Digit d := all d (by simp [shape])
        have noSign : ¬ (some d = some (0x2b : UInt8) ∨ some d = some (0x2d : UInt8)) := by
          rintro (same | same) <;> obtain rfl := Option.some.inj same <;>
            exact absurd isDigit.1 (by decide)
        rw [shape] at behindMark ⊢
        rw [List.nil_append, List.cons_append, List.head?_cons, if_neg noSign,
          someDigits_complete (shape ▸ nonempty) (shape ▸ all) delimited.noDigit behindMark]
        simp only [List.nil_append, List.length_cons]
        congr 1
        omega
      · have oneByte : ∃ c, sign = [c] ∧ (some c = some (0x2b : UInt8) ∨ some c = some 0x2d) := by
          rcases signed with rfl | rfl
          · exact ⟨_, rfl, .inl rfl⟩
          · exact ⟨_, rfl, .inr rfl⟩
        obtain ⟨c, rfl, isSign⟩ := oneByte
        have behindSign : data.drop (cursor + 2) = digits ++ post := drop_succ behindMark
        rw [List.singleton_append, List.head?_cons, if_pos isSign,
          someDigits_complete nonempty all delimited.noDigit behindSign]
        simp only [List.length_append, List.length_cons, List.length_nil]
        congr 1
        omega

theorem integer_head {text : Bytes} (int : Integer text) : ∃ b rest, text = b :: rest ∧ Digit b := by
  cases int with
  | zero => exact ⟨_, _, rfl, by decide⟩
  | digits leading all =>
      exact ⟨_, _, rfl, UInt8.le_trans (by decide) leading.1, leading.2⟩

/-- A number begins with a minus or a digit. -/
def Numeric (b : UInt8) : Prop :=
  b = 0x2d ∨ Digit b

instance : DecidablePred Numeric := fun b => inferInstanceAs (Decidable (b = 0x2d ∨ Digit b))

theorem number_head {text : Bytes} (token : Number text) :
    ∃ b rest, text = b :: rest ∧ Numeric b := by
  cases token with
  | parts signed int frac exp =>
      obtain ⟨b, rest, rfl, isDigit⟩ := integer_head int
      rcases signed with rfl | rfl
      · exact ⟨b, _, rfl, .inr isDigit⟩
      · exact ⟨_, _, rfl, .inl rfl⟩

theorem number_complete {data text post : Bytes} {cursor : Nat} (token : Number text)
    (delimited : Delimited post) (rest : data.drop cursor = text ++ post) :
    Json.number data cursor = .ok (cursor + text.length) := by
  cases token with
  | @parts sign integer fraction exponent signed int frac exp =>
      simp only [List.append_assoc] at rest
      obtain ⟨b, tail, shape, isDigit⟩ := integer_head int
      have start : (if data[cursor]? = some 0x2d then cursor + 1 else cursor) =
          cursor + sign.length := by
        rcases signed with rfl | rfl
        · have : b ≠ 0x2d := by
            rintro rfl
            exact absurd isDigit.1 (by decide)
          rw [getElem?_eq_head?, rest, shape]
          simp [this]
        · rw [getElem?_eq_head?, rest]
          rfl
      have behindSign := drop_add_length rest
      have behindInteger := drop_add_length behindSign
      have behindFraction := drop_add_length behindInteger
      have afterFraction : NoDigit (exponent ++ post) :=
        .append (fun _ => exponent_noDigit exp) delimited.noDigit
      have afterInteger : NoDigit (fraction ++ (exponent ++ post)) :=
        .append (fun _ => fraction_noDigit frac) afterFraction
      have noPoint : (exponent ++ post).head? ≠ some 0x2e := by
        cases exp with
        | absent => exact fun head => (delimited _ head).2.1 rfl
        | present marked signed nonempty all =>
            intro head
            obtain rfl := Option.some.inj head
            rcases marked with impossible | impossible <;> exact absurd impossible (by decide)
      simp only [Json.number, start, integerPart_complete int afterInteger behindSign,
        fractionPart_complete frac afterFraction noPoint behindInteger,
        exponentPart_complete exp delimited behindFraction]
      simp only [List.length_append]
      congr 1
      omega

theorem someDigits_sound {data : Bytes} {cursor stop : Nat}
    (ok : Json.someDigits data cursor = .ok stop) :
    ∃ digits, digits ≠ [] ∧ (∀ b ∈ digits, Digit b) ∧ data.drop cursor = digits ++ data.drop stop ∧
      stop = cursor + digits.length := by
  obtain ⟨digits, all, rest, skipped⟩ := skipWhile_sound isAsciiDigit data cursor
  simp only [Json.someDigits] at ok
  split at ok
  · simp [fail] at ok
  · rename_i moved
    obtain rfl := Except.ok.inj ok
    refine ⟨digits, ?_, fun b member => (digit_iff b).1 (all b member), rest, skipped⟩
    rintro rfl
    exact moved skipped

theorem integerPart_sound {data : Bytes} {cursor stop : Nat}
    (ok : Json.integerPart data cursor = .ok stop) :
    ∃ text, Integer text ∧ data.drop cursor = text ++ data.drop stop ∧
      stop = cursor + text.length := by
  unfold Json.integerPart at ok
  split at ok
  · simp [fail] at ok
  · rename_i b found
    split at ok
    · rename_i zero
      subst zero
      split at ok
      · simp [fail] at ok
      · obtain rfl := Except.ok.inj ok
        exact ⟨[0x30], .zero, drop_of_getElem? found, rfl⟩
    · split at ok
      · rename_i leading
        obtain rfl := Except.ok.inj ok
        obtain ⟨digits, all, rest, skipped⟩ := skipWhile_sound isAsciiDigit data (cursor + 1)
        refine ⟨b :: digits, .digits leading fun c member => (digit_iff c).1 (all c member), ?_, ?_⟩
        · rw [drop_of_getElem? found, rest]
          rfl
        · rw [skipped, List.length_cons]
          omega
      · simp [fail] at ok

theorem fractionPart_sound {data : Bytes} {cursor stop : Nat}
    (ok : Json.fractionPart data cursor = .ok stop) :
    ∃ text, Fraction text ∧ data.drop cursor = text ++ data.drop stop ∧
      stop = cursor + text.length := by
  unfold Json.fractionPart at ok
  split at ok
  · rename_i point
    obtain ⟨digits, nonempty, all, rest, length⟩ := someDigits_sound ok
    refine ⟨0x2e :: digits, .present nonempty all, ?_, by rw [List.length_cons]; omega⟩
    rw [drop_of_getElem? point, rest]
    rfl
  · obtain rfl := Except.ok.inj ok
    exact ⟨[], .absent, rfl, rfl⟩

theorem exponentPart_sound {data : Bytes} {cursor stop : Nat}
    (ok : Json.exponentPart data cursor = .ok stop) :
    ∃ text, Exponent text ∧ data.drop cursor = text ++ data.drop stop ∧
      stop = cursor + text.length := by
  unfold Json.exponentPart at ok
  split at ok
  · rename_i marked
    obtain ⟨mark, found, isMark⟩ :
        ∃ mark, data[cursor]? = some mark ∧ (mark = 0x65 ∨ mark = 0x45) := by
      rcases marked with found | found
      · exact ⟨_, found, .inl rfl⟩
      · exact ⟨_, found, .inr rfl⟩
    split at ok
    · rename_i signed
      obtain ⟨sign, second, isSign⟩ :
          ∃ sign, data[cursor + 1]? = some sign ∧ ([sign] = [0x2b] ∨ [sign] = [0x2d]) := by
        rcases signed with second | second
        · exact ⟨_, second, .inl rfl⟩
        · exact ⟨_, second, .inr rfl⟩
      obtain ⟨digits, nonempty, all, rest, length⟩ := someDigits_sound ok
      refine ⟨_, .present isMark (.inr isSign) nonempty all, ?_, ?_⟩
      · rw [drop_of_getElem? found, drop_of_getElem? second, rest]
        rfl
      · simp only [List.length_cons, List.length_append, List.length_nil]
        omega
    · obtain ⟨digits, nonempty, all, rest, length⟩ := someDigits_sound ok
      refine ⟨_, .present isMark (.inl rfl) nonempty all, ?_, ?_⟩
      · rw [drop_of_getElem? found, rest]
        rfl
      · simp only [List.length_cons, List.nil_append]
        omega
  · obtain rfl := Except.ok.inj ok
    exact ⟨[], .absent, rfl, rfl⟩

theorem number_sound {data : Bytes} {cursor stop : Nat} (ok : Json.number data cursor = .ok stop) :
    ∃ text, Number text ∧ data.drop cursor = text ++ data.drop stop ∧
      stop = cursor + text.length := by
  obtain ⟨sign, signed, start, signRest⟩ : ∃ sign : Bytes, (sign = [] ∨ sign = [0x2d]) ∧
      (if data[cursor]? = some 0x2d then cursor + 1 else cursor) = cursor + sign.length ∧
      data.drop cursor = sign ++ data.drop (cursor + sign.length) := by
    by_cases minus : data[cursor]? = some 0x2d
    · exact ⟨[0x2d], .inr rfl, by simp [minus], drop_of_getElem? minus⟩
    · exact ⟨[], .inl rfl, by simp [minus], rfl⟩
  simp only [Json.number, start] at ok
  split at ok
  · simp at ok
  · rename_i intStop integerOk
    split at ok
    · simp at ok
    · rename_i fracStop fractionOk
      obtain ⟨integer, int, intRest, intLength⟩ := integerPart_sound integerOk
      obtain ⟨fraction, frac, fracRest, fracLength⟩ := fractionPart_sound fractionOk
      obtain ⟨exponent, exp, expRest, expLength⟩ := exponentPart_sound ok
      refine ⟨_, .parts signed int frac exp, ?_, ?_⟩
      · rw [signRest, intRest, fracRest, expRest]
        simp only [List.append_assoc]
      · simp only [List.length_append]
        omega

end Luhmen.Guest
