/-
# Guest.JsonTrace -- the helper's JSON scanner, with what it relies on

The functions of `Guest.JsonCursor` once more, each step by step as the source writes
it, with a note of everything in it that could panic or go wrong: `Event` lists what
these are.  A loop that skips bytes is a loop here too, and `Json::value` counts the calls
of itself it is inside of, apart from the `depth` it checks.

Every function ends in its counterpart's result (`..._result`), so that what is said of
the events is said of that code.
-/
import Mathlib
import Luhmen.Guest.JsonCursor
import Luhmen.Theory.Trace

namespace Luhmen.Guest

open Luhmen.Theory

set_option autoImplicit false

inductive Event where
  /-- `bytes[at]`, of so many bytes. -/
  | index (position length : Nat)
  /-- `&bytes[start..stop]`, of so many bytes. -/
  | slice (start stop length : Nat)
  /-- `.next().unwrap()`, and whether there is a next. -/
  | unwrap (there : Bool)
  /-- `a - b` of unsigned numbers. -/
  | subtract (a b : Nat)
  /-- The scalar of two surrogates. -/
  | scalar (value : Nat)
  /-- A call of `Json::value`, with how many there then are, and its `depth: u8`. -/
  | call (calls depth : Nat)
  /-- A turn of a loop, by the cursor in front of it and behind. -/
  | turn (before after : Nat)
deriving DecidableEq, Repr

def Event.Safe : Event → Prop
  | .index position length => position < length
  | .slice start stop length => start ≤ stop ∧ stop ≤ length
  | .unwrap there => there = true
  | .subtract a b => b ≤ a
  | .scalar value => value ≤ 0x10ffff
  | .call calls depth => calls ≤ 65 ∧ depth < 2 ^ 8
  | .turn before after => before < after ∧ after < 2 ^ 64

namespace Tracing

abbrev Run := Traced Event

def note (event : Event) : Run Unit :=
  Traced.note event

def fails {α : Type} (message : String) : Run α :=
  Traced.plain (fail message)

def diverges {α : Type} : Run α :=
  Traced.plain (.error .diverges)

def index (bytes : Bytes) (position : Nat) : Run UInt8 := do
  note (.index position bytes.length)
  match bytes[position]? with
  | none => Traced.plain (.error .panic)
  | some b => pure b

def slice (bytes : Bytes) (start stop : Nat) : Run Bytes := do
  note (.slice start stop bytes.length)
  Traced.plain (Guest.slice bytes start stop)

def unwrap {α : Type} (value : Option α) : Run α := do
  note (.unwrap value.isSome)
  match value with
  | none => Traced.plain (.error .panic)
  | some value => pure value

def subtract (a b : Nat) : Run Nat := do
  note (.subtract a b)
  pure (a - b)

/-! ## `decode_json_string` -/

/-- The scalar that two surrogates write. -/
def surrogates (value low : Nat) : Run Nat := do
  let high ← subtract value 0xd800
  let low ← subtract low 0xdc00
  note (.scalar (0x10000 + (high <<< 10) + low))
  pure (0x10000 + (high <<< 10) + low)

/-- `output.push(char::from_u32(..)?)`, with the cursor behind the escape. -/
def pushed (scalar : Option Char) (next : Nat) : Run (Char × Nat) :=
  match scalar with
  | none => fails "invalid Unicode scalar"
  | some ch => pure (ch, next)

def unicodeEscape (bytes : Bytes) (cursor : Nat) : Run (Char × Nat) :=
  match (getRange bytes (cursor + 2) (cursor + 6)).bind fromStrRadix16 with
  | none => fails "invalid Unicode escape"
  | some value =>
      if 0xd800 ≤ value ∧ value ≤ 0xdbff then
        if getRange bytes (cursor + 6) (cursor + 8) = some [backslash, 0x75] then
          match (getRange bytes (cursor + 8) (cursor + 12)).bind fromStrRadix16 with
          | none => fails "invalid Unicode escape"
          | some low =>
              if 0xdc00 ≤ low ∧ low ≤ 0xdfff then do
                let scalar ← surrogates value low
                pushed (charFromU32 scalar) (cursor + 12)
              else fails "unpaired Unicode surrogate"
        else fails "unpaired Unicode surrogate"
      else if 0xdc00 ≤ value ∧ value ≤ 0xdfff then fails "unpaired Unicode surrogate"
      else pushed (charFromU32 value) (cursor + 6)

def decodeOne (bytes : Bytes) (cursor : Nat) : Run (Char × Nat) := do
  let b ← index bytes cursor
  if b ≠ backslash then
    let stop ← subtract bytes.length 1
    let rest ← slice bytes cursor stop
    match Utf8.fromUtf8 rest with
    | none => fails "invalid UTF-8 in JSON string"
    | some text =>
        let ch ← unwrap text.head?
        pure (ch, cursor + ch.utf8Size)
  else
    match bytes[cursor + 1]? with
    | none => fails "invalid JSON escape"
    | some letter =>
        if letter = 0x75 then unicodeEscape bytes cursor
        else
          match simpleEscape letter with
          | none => fails "invalid JSON escape"
          | some ch => pure (ch, cursor + 2)

def decodeLoop (bytes : Bytes) : Nat → Nat → Run (List Char)
  | 0, _ => diverges
  | fuel + 1, cursor =>
      if cursor + 1 < bytes.length then do
        let (ch, next) ← decodeOne bytes cursor
        note (.turn cursor next)
        let text ← decodeLoop bytes fuel next
        pure (ch :: text)
      else pure []

def decodeJsonString (bytes : Bytes) : Run (List Char) :=
  decodeLoop bytes (bytes.length + 1) 1

/-! ## `Json` -/

def skipWhile (keep : UInt8 → Bool) (data : Bytes) : Nat → Nat → Run Nat
  | 0, _ => diverges
  | fuel + 1, cursor =>
      if (data[cursor]?).any keep then do
        note (.turn cursor (cursor + 1))
        skipWhile keep data fuel (cursor + 1)
      else pure cursor

def whitespace (data : Bytes) (cursor : Nat) : Run Nat :=
  skipWhile isAsciiWhitespace data (data.length + 1) cursor

def digits (data : Bytes) (cursor : Nat) : Run Nat :=
  skipWhile isAsciiDigit data (data.length + 1) cursor

def byte (data : Bytes) (expected : UInt8) (cursor : Nat) : Run Nat := do
  let cursor ← whitespace data cursor
  if data[cursor]? = some expected then pure (cursor + 1) else fails "invalid JSON"

def scanStep (data : Bytes) (cursor : Nat) : Run (Bool × Nat) :=
  match data[cursor]? with
  | none => fails "unterminated JSON string"
  | some b =>
      if b = quote then do
        note (.turn cursor (cursor + 1))
        pure (true, cursor + 1)
      else if b = backslash then do
        let letter ← subtract (cursor + 2) 1
        let next := if data[letter]? = some 0x75 then cursor + 2 + 4 else cursor + 2
        note (.turn cursor next)
        if next > data.length then fails "unterminated JSON string" else pure (false, next)
      else if b ≤ 0x1f then fails "control byte in JSON string"
      else do
        note (.turn cursor (cursor + 1))
        pure (false, cursor + 1)

def scan (data : Bytes) : Nat → Nat → Run Nat
  | 0, _ => diverges
  | fuel + 1, cursor => do
      let (closed, next) ← scanStep data cursor
      if closed then pure next else scan data fuel next

def string (data : Bytes) (cursor : Nat) : Run (List Char × Nat) := do
  let start ← whitespace data cursor
  if data[start]? = some quote then
    let stop ← scan data (data.length + 1) (start + 1)
    let token ← slice data start stop
    let text ← decodeJsonString token
    pure (text, stop)
  else fails "invalid JSON string"

def integerPart (data : Bytes) (cursor : Nat) : Run Nat :=
  match data[cursor]? with
  | none => fails "invalid JSON number"
  | some b =>
      if b = 0x30 then
        if (data[cursor + 1]?).any isAsciiDigit then fails "invalid JSON number"
        else pure (cursor + 1)
      else if 0x31 ≤ b ∧ b ≤ 0x39 then digits data (cursor + 1)
      else fails "invalid JSON number"

def someDigits (data : Bytes) (cursor : Nat) : Run Nat := do
  let stop ← digits data cursor
  if stop = cursor then fails "invalid JSON number" else pure stop

def fractionPart (data : Bytes) (cursor : Nat) : Run Nat :=
  if data[cursor]? = some 0x2e then someDigits data (cursor + 1) else pure cursor

def exponentPart (data : Bytes) (cursor : Nat) : Run Nat :=
  if data[cursor]? = some 0x65 ∨ data[cursor]? = some 0x45 then
    if data[cursor + 1]? = some 0x2b ∨ data[cursor + 1]? = some 0x2d then
      someDigits data (cursor + 2)
    else someDigits data (cursor + 1)
  else pure cursor

def number (data : Bytes) (cursor : Nat) : Run Nat := do
  let cursor ← integerPart data (if data[cursor]? = some 0x2d then cursor + 1 else cursor)
  let cursor ← fractionPart data cursor
  exponentPart data cursor

/-- A loop over members, which ends behind the closing brace. -/
def objectLoop (value : Nat → Run (Option Bool × Nat)) (data : Bytes) :
    Nat → List (List Char) → Nat → Run Nat
  | 0, _, _ => diverges
  | fuel + 1, keys, start => do
      let (key, cursor) ← string data start
      if key ∈ keys then fails ("duplicate Docker configuration key: " ++ String.ofList key)
      else
        let cursor ← byte data colon cursor
        let (_, cursor) ← value cursor
        let cursor ← whitespace data cursor
        if data[cursor]? = some comma then
          note (.turn start (cursor + 1))
          objectLoop value data fuel (key :: keys) (cursor + 1)
        else if data[cursor]? = some closeBrace then
          note (.turn start (cursor + 1))
          pure (cursor + 1)
        else fails "invalid JSON object"

def arrayLoop (value : Nat → Run (Option Bool × Nat)) (data : Bytes) : Nat → Nat → Run Nat
  | 0, _ => diverges
  | fuel + 1, start => do
      let (_, cursor) ← value start
      let cursor ← whitespace data cursor
      if data[cursor]? = some comma then
        note (.turn start (cursor + 1))
        arrayLoop value data fuel (cursor + 1)
      else if data[cursor]? = some closeBracket then
        note (.turn start (cursor + 1))
        pure (cursor + 1)
      else fails "invalid JSON array"

/-- `Json::value(depth)`, called inside of `enclosing` other calls of it. -/
def valueAt (data : Bytes) : Nat → Nat → Nat → Nat → Run (Option Bool × Nat)
  | 0, _, _, _ => diverges
  | fuel + 1, enclosing, depth, cursor => do
      note (.call (enclosing + 1) depth)
      if depth > 64 then fails "JSON nesting exceeds 64 levels"
      else
        let cursor ← whitespace data cursor
        match data[cursor]? with
        | none => fails "invalid JSON value"
        | some b =>
            if b = quote then
              let (_, stop) ← string data cursor
              pure (none, stop)
            else if b = openBrace then
              let inner ← whitespace data (cursor + 1)
              if data[inner]? = some closeBrace then pure (none, inner + 1)
              else
                let stop ← objectLoop (valueAt data fuel (enclosing + 1) (depth + 1)) data
                  (data.length + 1) [] inner
                pure (none, stop)
            else if b = openBracket then
              let inner ← whitespace data (cursor + 1)
              if data[inner]? = some closeBracket then pure (none, inner + 1)
              else
                let stop ← arrayLoop (valueAt data fuel (enclosing + 1) (depth + 1)) data
                  (data.length + 1) inner
                pure (none, stop)
            else if getRange data cursor (cursor + 4) = some (ascii "true") then
              pure (some true, cursor + 4)
            else if getRange data cursor (cursor + 5) = some (ascii "false") then
              pure (some false, cursor + 5)
            else if getRange data cursor (cursor + 4) = some (ascii "null") then
              pure (none, cursor + 4)
            else if b = 0x2d ∨ isAsciiDigit b then
              let stop ← number data cursor
              pure (none, stop)
            else fails "invalid JSON value"

/-- A call that no other call encloses; 66 calls are enough for any depth. -/
def value (data : Bytes) (depth cursor : Nat) : Run (Option Bool × Nat) :=
  valueAt data 66 0 depth cursor

/-! ## `locate`, `boolean_field`, `disabled_config` -/

def locateLoop (data : Bytes) (wanted : List Char) :
    Nat → List (List Char) → Option LocatedValue → Nat → Run (Option LocatedValue × Nat)
  | 0, _, _, _ => diverges
  | fuel + 1, keys, found, turn => do
      let (key, cursor) ← string data turn
      if key ∈ keys then fails ("duplicate Docker configuration key: " ++ String.ofList key)
      else
        let cursor ← byte data colon cursor
        let start ← whitespace data cursor
        let (boolean, stop) ← value data 1 start
        let found := if key = wanted then some ⟨start, stop, boolean⟩ else found
        let cursor ← whitespace data stop
        if data[cursor]? = some comma then
          note (.turn turn (cursor + 1))
          locateLoop data wanted fuel (key :: keys) found (cursor + 1)
        else if data[cursor]? = some closeBrace then
          note (.turn turn cursor)
          pure (found, cursor)
        else fails "invalid JSON object"

/-- `.map_err(..)?` on the first byte. -/
def objectStart (run : Run Nat) : Run Nat :=
  ⟨run.events,
    match run.result with
    | .error (.error _) => fail "Docker configuration must be a JSON object"
    | result => result⟩

/-- The members, where there are any. -/
def members (data : Bytes) (wanted : List Char) (any : Bool) (cursor : Nat) :
    Run (Option LocatedValue × Nat) :=
  if any then locateLoop data wanted (data.length + 1) [] none cursor else pure (none, cursor)

def locate (data : Bytes) (wanted : List Char) : Run Located := do
  let cursor ← objectStart (byte data openBrace 0)
  let cursor ← whitespace data cursor
  let any := decide (data[cursor]? ≠ some closeBrace)
  let (found, cursor) ← members data wanted any cursor
  let cursor ← byte data closeBrace cursor
  let close ← subtract cursor 1
  let cursor ← whitespace data cursor
  if cursor = data.length then pure ⟨found, close, any⟩
  else fails "trailing data after JSON object"

def booleanField (data : Bytes) (key : List Char) : Run (Option Bool) := do
  let located ← locate data key
  match located.found with
  | none => pure none
  | some value =>
      match value.boolean with
      | some b => pure (some b)
      | none => fails ("Docker " ++ String.ofList key ++ " must be a boolean")

/-- The configuration with the value replaced, or with a member more. -/
def edited (original : Bytes) (located : Located) : Run Bytes :=
  match located.found with
  | some value =>
      match value.boolean with
      | none => fails "Docker live-restore must be a boolean"
      | some _ => do
          let head ← slice original 0 value.start
          let tail ← slice original value.stop original.length
          pure (head ++ ascii "false" ++ tail)
  | none => do
      let head ← slice original 0 located.close
      let tail ← slice original located.close original.length
      pure (head ++ (if located.any then [comma] else []) ++ liveRestoreFalse ++ tail)

def disabledConfig (original : Bytes) : Run Bytes := do
  let located ← locate original liveRestoreKey
  let data ← edited original located
  if data.length > limit then fails "Temporary Docker configuration exceeds 1 MiB"
  else pure data

/-! ## The same results -/

theorem index_result (bytes : Bytes) (position : Nat) : (index bytes position).result =
    (bytes[position]?).elim (.error .panic) .ok := by
  unfold index
  cases bytes[position]? <;> rfl

theorem note_bind {α : Type} (event : Event) (rest : Unit → Run α) :
    (note event >>= rest).result = (rest ()).result := rfl

theorem subtract_bind {α : Type} (a b : Nat) (rest : Nat → Run α) :
    (subtract a b >>= rest).result = (rest (a - b)).result := rfl

/-- Stated for any `f`, so that no conversion has to evaluate the scalar. -/
theorem surrogates_bind {α : Type} (f : Option Char → Nat → Run α) (value low next : Nat) :
    (surrogates value low >>= fun scalar => f (charFromU32 scalar) next).result =
      (f (charFromU32 (0x10000 + ((value - 0xd800) <<< 10) + (low - 0xdc00))) next).result := by
  have result : (surrogates value low).result =
      .ok (0x10000 + ((value - 0xd800) <<< 10) + (low - 0xdc00)) := by
    unfold surrogates
    rw [subtract_bind, subtract_bind, note_bind]
    exact Traced.result_pure _
  exact Traced.result_bind_ok result

theorem unicodeEscape_result (bytes : Bytes) (cursor : Nat) :
    (unicodeEscape bytes cursor).result = Guest.unicodeEscape bytes cursor := by
  unfold unicodeEscape Guest.unicodeEscape
  cases (getRange bytes (cursor + 2) (cursor + 6)).bind fromStrRadix16 with
  | none => rfl
  | some value =>
    dsimp only
    by_cases high : 0xd800 ≤ value ∧ value ≤ 0xdbff
    · rw [if_pos high, if_pos high]
      by_cases again : getRange bytes (cursor + 6) (cursor + 8) = some [backslash, 0x75]
      · rw [if_pos again, if_pos again]
        cases (getRange bytes (cursor + 8) (cursor + 12)).bind fromStrRadix16 with
        | none => rfl
        | some low =>
          dsimp only
          by_cases isLow : 0xdc00 ≤ low ∧ low ≤ 0xdfff
          · rw [if_pos isLow, if_pos isLow]
            rw [surrogates_bind pushed]
            generalize charFromU32 (0x10000 + ((value - 0xd800) <<< 10) + (low - 0xdc00)) = scalar
            cases scalar <;> rfl
          · rw [if_neg isLow, if_neg isLow]
            rfl
      · rw [if_neg again, if_neg again]
        rfl
    · rw [if_neg high, if_neg high]
      by_cases low : 0xdc00 ≤ value ∧ value ≤ 0xdfff
      · rw [if_pos low, if_pos low]
        rfl
      · rw [if_neg low, if_neg low]
        generalize charFromU32 value = scalar
        cases scalar <;> rfl

theorem decodeOne_result (bytes : Bytes) (cursor : Nat) :
    (decodeOne bytes cursor).result = Guest.decodeOne bytes cursor := by
  unfold decodeOne Guest.decodeOne
  rw [Traced.result_bind, index_result]
  cases bytes[cursor]? with
  | none => rfl
  | some b =>
    show Traced.result (if b ≠ backslash then _ else _) = _
    dsimp only
    split
    · refine (Traced.result_bind_ok rfl).trans ?_
      rw [Traced.result_bind]
      show (Guest.slice bytes cursor (bytes.length - 1) >>= _) = _
      cases Guest.slice bytes cursor (bytes.length - 1) with
      | error failure => rfl
      | ok rest =>
        show Traced.result (match Utf8.fromUtf8 rest with | none => _ | some text => _) = _
        dsimp only
        cases Utf8.fromUtf8 rest with
        | none => rfl
        | some text => cases text <;> rfl
    · cases bytes[cursor + 1]? with
      | none => rfl
      | some letter =>
        dsimp only
        split
        · exact unicodeEscape_result bytes cursor
        · cases simpleEscape letter <;> rfl

theorem decodeLoop_result (bytes : Bytes) (fuel cursor : Nat) :
    (decodeLoop bytes fuel cursor).result = Guest.decodeLoop bytes fuel cursor := by
  induction fuel generalizing cursor with
  | zero => rfl
  | succ fuel ih =>
    rw [decodeLoop, Guest.decodeLoop]
    by_cases inside : cursor + 1 < bytes.length
    · rw [if_pos inside, if_pos inside, Traced.result_bind, decodeOne_result]
      cases Guest.decodeOne bytes cursor with
      | error failure => rfl
      | ok one =>
        obtain ⟨ch, next⟩ := one
        show (note (.turn cursor next) >>= fun _ =>
          decodeLoop bytes fuel next >>= fun text => pure (ch :: text)).result = _
        rw [note_bind, Traced.result_bind, ih]
        show _ = (Guest.decodeLoop bytes fuel next).map _
        cases Guest.decodeLoop bytes fuel next <;> rfl
    · rw [if_neg inside, if_neg inside]
      rfl

theorem decodeJsonString_result (bytes : Bytes) :
    (decodeJsonString bytes).result = Guest.decodeJsonString bytes :=
  decodeLoop_result bytes _ 1

theorem skipWhile_result {keep : UInt8 → Bool} {data : Bytes} {fuel cursor : Nat}
    (enough : data.length - cursor < fuel) :
    (skipWhile keep data fuel cursor).result = .ok (Json.skipWhile keep data cursor) := by
  induction fuel generalizing cursor with
  | zero => exact absurd enough (Nat.not_lt_zero _)
  | succ fuel ih =>
    rw [skipWhile]
    unfold Json.skipWhile
    cases found : data[cursor]? with
    | none =>
      rw [List.drop_of_length_le (List.getElem?_eq_none_iff.1 found)]
      rfl
    | some b =>
      obtain ⟨inside, is⟩ := List.getElem?_eq_some_iff.1 found
      rw [List.drop_eq_getElem_cons inside, is, List.takeWhile_cons]
      show Traced.result (if keep b then _ else _) = _
      by_cases kept : keep b = true
      · rw [if_pos kept, if_pos kept]
        refine (Traced.result_bind_ok rfl).trans ((ih (by omega)).trans ?_)
        rw [Json.skipWhile, List.length_cons]
        congr 1
        omega
      · rw [if_neg kept, if_neg kept]
        rfl

theorem whitespace_result (data : Bytes) (cursor : Nat) :
    (whitespace data cursor).result = .ok (Json.whitespace data cursor) :=
  skipWhile_result (by omega)

theorem digits_result (data : Bytes) (cursor : Nat) :
    (digits data cursor).result = .ok (Json.skipWhile isAsciiDigit data cursor) :=
  skipWhile_result (by omega)

theorem byte_result (data : Bytes) (expected : UInt8) (cursor : Nat) :
    (byte data expected cursor).result = Json.byte data expected cursor := by
  unfold byte Json.byte
  refine (Traced.result_bind_ok (whitespace_result data cursor)).trans ?_
  split <;> rfl

theorem scanStep_result (data : Bytes) (cursor : Nat) :
    (scanStep data cursor).result = Json.scanStep data cursor := by
  unfold scanStep Json.scanStep
  cases data[cursor]? with
  | none => rfl
  | some b =>
    dsimp only
    by_cases closes : b = quote
    · rw [if_pos closes, if_pos closes]
      rfl
    rw [if_neg closes, if_neg closes]
    by_cases escaped : b = backslash
    · rw [if_pos escaped, if_pos escaped]
      show Traced.result (if Json.escapeEnd data cursor > data.length then _ else _) = _
      split <;> rfl
    · rw [if_neg escaped, if_neg escaped]
      split <;> rfl

theorem scan_result (data : Bytes) (fuel cursor : Nat) :
    (scan data fuel cursor).result = Json.scan data fuel cursor := by
  induction fuel generalizing cursor with
  | zero => rfl
  | succ fuel ih =>
    rw [scan, Json.scan, Traced.result_bind, scanStep_result]
    cases Json.scanStep data cursor with
    | error failure => rfl
    | ok turn =>
      obtain ⟨closed, next⟩ := turn
      cases closed with
      | true => rfl
      | false => exact ih next

theorem string_result (data : Bytes) (cursor : Nat) :
    (string data cursor).result = Json.string data cursor := by
  unfold string Json.string
  refine (Traced.result_bind_ok (whitespace_result data cursor)).trans ?_
  dsimp only
  split
  · rw [Traced.result_bind, scan_result]
    cases Json.scan data (data.length + 1) (Json.whitespace data cursor + 1) with
    | error failure => rfl
    | ok stop =>
      show (slice data _ stop >>= _).result = _
      rw [Traced.result_bind]
      show (Guest.slice data _ stop >>= _) = _
      dsimp only
      cases Guest.slice data (Json.whitespace data cursor) stop with
      | error failure => rfl
      | ok token =>
        show (decodeJsonString token >>= _).result = _
        rw [Traced.result_bind, decodeJsonString_result]
        rfl
  · rfl

theorem integerPart_result (data : Bytes) (cursor : Nat) :
    (integerPart data cursor).result = Json.integerPart data cursor := by
  unfold integerPart Json.integerPart
  cases data[cursor]? with
  | none => rfl
  | some b =>
    dsimp only
    by_cases zero : b = 0x30
    · rw [if_pos zero, if_pos zero]
      split <;> rfl
    · rw [if_neg zero, if_neg zero]
      split
      · exact digits_result data (cursor + 1)
      · rfl

theorem someDigits_result (data : Bytes) (cursor : Nat) :
    (someDigits data cursor).result = Json.someDigits data cursor := by
  unfold someDigits Json.someDigits
  rw [Traced.result_bind_ok (digits_result data cursor)]
  dsimp only
  split <;> rfl

theorem fractionPart_result (data : Bytes) (cursor : Nat) :
    (fractionPart data cursor).result = Json.fractionPart data cursor := by
  unfold fractionPart Json.fractionPart
  split
  · exact someDigits_result data (cursor + 1)
  · rfl

theorem exponentPart_result (data : Bytes) (cursor : Nat) :
    (exponentPart data cursor).result = Json.exponentPart data cursor := by
  unfold exponentPart Json.exponentPart
  split
  · split
    · exact someDigits_result data (cursor + 2)
    · exact someDigits_result data (cursor + 1)
  · rfl

theorem number_result (data : Bytes) (cursor : Nat) :
    (number data cursor).result = Json.number data cursor := by
  unfold number Json.number
  rw [Traced.result_bind, integerPart_result]
  dsimp only
  cases Json.integerPart data (if data[cursor]? = some 0x2d then cursor + 1 else cursor) with
  | error failure => rfl
  | ok cursor =>
    show (fractionPart data cursor >>= fun cursor => exponentPart data cursor).result = _
    rw [Traced.result_bind, fractionPart_result]
    dsimp only
    cases Json.fractionPart data cursor with
    | error failure => rfl
    | ok cursor => exact exponentPart_result data cursor

section Loops

variable {value : Nat → Run (Option Bool × Nat)} {value' : Nat → Result (Option Bool × Nat)}

theorem objectLoop_result (same : ∀ cursor, (value cursor).result = value' cursor) (data : Bytes)
    (fuel : Nat) (keys : List (List Char)) (cursor : Nat) :
    (objectLoop value data fuel keys cursor).result =
      Json.objectLoop value' data fuel keys cursor := by
  induction fuel generalizing keys cursor with
  | zero => rfl
  | succ fuel ih =>
    rw [objectLoop, Json.objectLoop, Traced.result_bind, string_result]
    cases Json.string data cursor with
    | error failure => rfl
    | ok token =>
      obtain ⟨key, behind⟩ := token
      show Traced.result (if key ∈ keys then _ else _) = _
      dsimp only
      by_cases twice : key ∈ keys
      · rw [if_pos twice, if_pos twice]
        rfl
      rw [if_neg twice, if_neg twice, Traced.result_bind, byte_result]
      cases Json.byte data colon behind with
      | error failure => rfl
      | ok start =>
        show (value start >>= _).result = _
        rw [Traced.result_bind, same]
        dsimp only
        cases value' start with
        | error failure => rfl
        | ok read =>
          obtain ⟨boolean, stop⟩ := read
          show (whitespace data stop >>= _).result = _
          rw [Traced.result_bind_ok (whitespace_result data stop)]
          dsimp only
          split
          · exact ih _ _
          · split <;> rfl

theorem arrayLoop_result (same : ∀ cursor, (value cursor).result = value' cursor) (data : Bytes)
    (fuel cursor : Nat) :
    (arrayLoop value data fuel cursor).result = Json.arrayLoop value' data fuel cursor := by
  induction fuel generalizing cursor with
  | zero => rfl
  | succ fuel ih =>
    rw [arrayLoop, Json.arrayLoop, Traced.result_bind, same]
    cases value' cursor with
    | error failure => rfl
    | ok read =>
      obtain ⟨boolean, stop⟩ := read
      show (whitespace data stop >>= _).result = _
      rw [Traced.result_bind_ok (whitespace_result data stop)]
      dsimp only
      split
      · exact ih _
      · split <;> rfl

end Loops

theorem valueAt_result (data : Bytes) {fuel depth : Nat} (enclosing cursor : Nat)
    (enough : 65 - depth < fuel) :
    (valueAt data fuel enclosing depth cursor).result = Json.valueAt data (65 - depth) cursor := by
  induction fuel generalizing enclosing depth cursor with
  | zero => exact absurd enough (Nat.not_lt_zero _)
  | succ fuel ih =>
    rw [valueAt, note_bind]
    by_cases deep : depth > 64
    · rw [if_pos deep, Nat.sub_eq_zero_of_le deep]
      rfl
    obtain ⟨levels, is⟩ : ∃ levels, 65 - depth = levels + 1 := ⟨64 - depth, by omega⟩
    have inner : ∀ cursor, (valueAt data fuel (enclosing + 1) (depth + 1) cursor).result =
        Json.valueAt data levels cursor := by
      intro cursor
      have below : 65 - (depth + 1) = levels := by omega
      rw [← below]
      exact ih (enclosing + 1) cursor (by omega)
    rw [if_neg deep, is, Json.valueAt, Traced.result_bind_ok (whitespace_result data cursor)]
    dsimp only
    cases data[Json.whitespace data cursor]? with
    | none => rfl
    | some b =>
      dsimp only
      split
      · rw [Traced.result_bind, string_result]
        cases Json.string data (Json.whitespace data cursor) <;> rfl
      split
      · rw [Traced.result_bind_ok (whitespace_result data _)]
        split
        · rfl
        · rw [Traced.result_bind, objectLoop_result inner]
          rfl
      split
      · rw [Traced.result_bind_ok (whitespace_result data _)]
        split
        · rfl
        · rw [Traced.result_bind, arrayLoop_result inner]
          rfl
      split
      · rfl
      split
      · rfl
      split
      · rfl
      split
      · rw [Traced.result_bind, number_result]
        rfl
      · rfl

theorem value_result (data : Bytes) (depth cursor : Nat) :
    (value data depth cursor).result = Json.value data depth cursor :=
  valueAt_result data 0 cursor (by omega)

theorem locateLoop_result (data : Bytes) (wanted : List Char) (fuel : Nat)
    (keys : List (List Char)) (found : Option LocatedValue) (cursor : Nat) :
    (locateLoop data wanted fuel keys found cursor).result =
      Guest.locateLoop data wanted fuel keys found cursor := by
  induction fuel generalizing keys found cursor with
  | zero => rfl
  | succ fuel ih =>
    rw [locateLoop, Guest.locateLoop, Traced.result_bind, string_result]
    cases Json.string data cursor with
    | error failure => rfl
    | ok token =>
      obtain ⟨key, behind⟩ := token
      show Traced.result (if key ∈ keys then _ else _) = _
      dsimp only
      by_cases twice : key ∈ keys
      · rw [if_pos twice, if_pos twice]
        rfl
      rw [if_neg twice, if_neg twice, Traced.result_bind, byte_result]
      cases Json.byte data colon behind with
      | error failure => rfl
      | ok start =>
        show (whitespace data start >>= _).result = _
        rw [Traced.result_bind_ok (whitespace_result data start), Traced.result_bind, value_result]
        dsimp only
        cases Json.value data 1 (Json.whitespace data start) with
        | error failure => rfl
        | ok read =>
          obtain ⟨boolean, stop⟩ := read
          show (whitespace data stop >>= _).result = _
          rw [Traced.result_bind_ok (whitespace_result data stop)]
          dsimp only
          split
          · exact ih _ _ _
          · split <;> rfl

theorem members_result (data : Bytes) (wanted : List Char) (any : Bool) (cursor : Nat) :
    (members data wanted any cursor).result =
      if any then Guest.locateLoop data wanted (data.length + 1) [] none cursor
      else .ok (none, cursor) := by
  unfold members
  split
  · exact locateLoop_result ..
  · rfl

theorem locate_result (data : Bytes) (wanted : List Char) :
    (locate data wanted).result = Guest.locate data wanted := by
  unfold locate Guest.locate
  rw [Traced.result_bind]
  unfold objectStart
  dsimp only
  rw [byte_result]
  cases Json.byte data openBrace 0 with
  | error failure => cases failure <;> rfl
  | ok inner =>
    show (whitespace data inner >>= _).result = _
    rw [Traced.result_bind_ok (whitespace_result data inner), Traced.result_bind]
    rw [members_result]
    simp only [decide_eq_true_eq]
    cases (if data[Json.whitespace data inner]? ≠ some closeBrace then
          Guest.locateLoop data wanted (data.length + 1) [] none (Json.whitespace data inner)
        else .ok (none, Json.whitespace data inner)) with
    | error failure => rfl
    | ok read =>
      obtain ⟨found, stop⟩ := read
      show (byte data closeBrace stop >>= _).result = _
      rw [Traced.result_bind, byte_result]
      dsimp only
      cases Json.byte data closeBrace stop with
      | error failure => rfl
      | ok behind =>
        rw [ok_bind, subtract_bind, Traced.result_bind_ok (whitespace_result data behind)]
        dsimp only
        split <;> rfl

theorem booleanField_result (data : Bytes) (key : List Char) :
    (booleanField data key).result = Guest.booleanField data key := by
  unfold booleanField Guest.booleanField
  rw [Traced.result_bind, locate_result]
  cases Guest.locate data key with
  | error failure => rfl
  | ok located =>
    obtain ⟨found, close, any⟩ := located
    cases found with
    | none => rfl
    | some value =>
      obtain ⟨start, stop, boolean⟩ := value
      cases boolean <;> rfl

theorem slice_bind {α : Type} (bytes : Bytes) (start stop : Nat) (rest : Bytes → Run α) :
    (slice bytes start stop >>= rest).result =
      Guest.slice bytes start stop >>= fun text => (rest text).result := by
  rw [Traced.result_bind]
  rfl

theorem slice_cases (bytes : Bytes) (start stop : Nat) :
    (∃ text, Guest.slice bytes start stop = .ok text) ∨
      Guest.slice bytes start stop = .error .panic := by
  unfold Guest.slice
  split
  · exact .inl ⟨_, rfl⟩
  · exact .inr rfl

/-- Two slices in a row, which the other text takes together. -/
theorem slices_result (bytes : Bytes) (a b c d : Nat) (joined : Bytes → Bytes → Bytes) :
    (slice bytes a b >>= fun head => slice bytes c d >>= fun tail =>
      (pure (joined head tail) : Run Bytes)).result =
      match Guest.slice bytes a b, Guest.slice bytes c d with
      | .ok head, .ok tail => .ok (joined head tail)
      | _, _ => .error .panic := by
  rw [slice_bind]
  obtain ⟨head, is⟩ | is := slice_cases bytes a b
  · rw [is]
    show (slice bytes c d >>= _).result = _
    rw [slice_bind]
    obtain ⟨tail, is⟩ | is := slice_cases bytes c d
    · rw [is]
      rfl
    · rw [is]
      rfl
  · rw [is]
    rfl

theorem limited_result (data : Result Bytes) :
    (data >>= fun data => Traced.result (if data.length > limit then
        fails "Temporary Docker configuration exceeds 1 MiB" else pure data)) =
      match data with
      | .error failure => .error failure
      | .ok data =>
          if data.length > limit then fail "Temporary Docker configuration exceeds 1 MiB"
          else .ok data := by
  cases data with
  | error failure => rfl
  | ok data =>
    show Traced.result (if data.length > limit then _ else _) = _
    dsimp only
    split <;> rfl

theorem disabledConfig_result (original : Bytes) :
    (disabledConfig original).result = Guest.disabledConfig original := by
  unfold disabledConfig Guest.disabledConfig
  rw [Traced.result_bind, locate_result]
  cases Guest.locate original liveRestoreKey with
  | error failure => rfl
  | ok located =>
    obtain ⟨found, close, any⟩ := located
    show (edited original ⟨found, close, any⟩ >>= _).result = _
    rw [Traced.result_bind]
    have same : (edited original ⟨found, close, any⟩).result =
        match found with
        | some value =>
            match value.boolean with
            | none => fail "Docker live-restore must be a boolean"
            | some _ =>
                match Guest.slice original 0 value.start,
                  Guest.slice original value.stop original.length with
                | .ok head, .ok tail => .ok (head ++ ascii "false" ++ tail)
                | _, _ => .error .panic
        | none =>
            match Guest.slice original 0 close, Guest.slice original close original.length with
            | .ok head, .ok tail =>
                .ok (head ++ (if any then [comma] else []) ++ liveRestoreFalse ++ tail)
            | _, _ => .error .panic := by
      unfold edited
      cases found with
      | none => exact slices_result ..
      | some value =>
        obtain ⟨start, stop, boolean⟩ := value
        cases boolean with
        | none => rfl
        | some b => exact slices_result original 0 start stop _ _
    rw [same]
    exact limited_result _

end Tracing

end Luhmen.Guest
