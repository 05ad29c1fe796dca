/-
# Guest.JsonCursor -- the shutdown helper's JSON scanner, as it runs

`guest/docker-shutdown.rs` edits `daemon.json` by byte offsets.  The offsets come
from a hand-written scanner: `Json`, a byte slice with a cursor, and
`decode_json_string`, which decodes the text a scan has delimited.  This module
is that code: every function takes the slice and the cursor and returns the
cursor it leaves, with the source's checks in the source's order and its messages.
A `while` that only skips bytes is `skipWhile`; every other loop has fuel.
-/
import Luhmen.Theory.Bytes
import Luhmen.Theory.Outcome

namespace Luhmen.Guest

open Luhmen.Theory

set_option autoImplicit false

/-- `u8::is_ascii_whitespace`: space, tab, line feed, form feed, carriage return. -/
def isAsciiWhitespace (b : UInt8) : Bool :=
  b == 0x20 || b == 0x09 || b == 0x0a || b == 0x0c || b == 0x0d

def isAsciiDigit (b : UInt8) : Bool :=
  0x30 ≤ b && b ≤ 0x39

/-- `&data[start..stop]`, which panics out of range. -/
def slice (data : Bytes) (start stop : Nat) : Result Bytes :=
  if start ≤ stop ∧ stop ≤ data.length then .ok ((data.take stop).drop start)
  else .error .panic

/-- `data.get(start..stop)`. -/
def getRange (data : Bytes) (start stop : Nat) : Option Bytes :=
  if start ≤ stop ∧ stop ≤ data.length then some ((data.take stop).drop start) else none

/-! ## `decode_json_string` -/

/-- `u32::from_str_radix(text, 16)`, which takes one leading `+` and no empty
number.  A byte that is no UTF-8 text is no digit either, so the `from_utf8`
before it fails where this does, with the same message. -/
def fromStrRadix16 (text : Bytes) : Option Nat :=
  match text with
  | [] => none
  | [0x2b] => none
  | 0x2b :: digits => hexDigits digits 0
  | digits => hexDigits digits 0

/-- `char::from_u32`. -/
def charFromU32 (value : Nat) : Option Char :=
  if value.isValidChar then some (Char.ofNat value) else none

/-- What one letter after a backslash stands for. -/
def simpleEscape (letter : UInt8) : Option Char :=
  if letter = quote then some (Char.ofNat 0x22)
  else if letter = backslash then some (Char.ofNat 0x5c)
  else if letter = 0x2f then some '/'
  else if letter = 0x62 then some (Char.ofNat 0x8)
  else if letter = 0x66 then some (Char.ofNat 0xc)
  else if letter = 0x6e then some (Char.ofNat 0xa)
  else if letter = 0x72 then some (Char.ofNat 0xd)
  else if letter = 0x74 then some (Char.ofNat 0x9)
  else none

/-- The `\u` arm: the scalar and the cursor behind it, from the backslash at `cursor`. -/
def unicodeEscape (bytes : Bytes) (cursor : Nat) : Result (Char × Nat) :=
  match (getRange bytes (cursor + 2) (cursor + 6)).bind fromStrRadix16 with
  | none => fail "invalid Unicode escape"
  | some value =>
      if 0xd800 ≤ value ∧ value ≤ 0xdbff then
        if getRange bytes (cursor + 6) (cursor + 8) = some [backslash, 0x75] then
          match (getRange bytes (cursor + 8) (cursor + 12)).bind fromStrRadix16 with
          | none => fail "invalid Unicode escape"
          | some low =>
              if 0xdc00 ≤ low ∧ low ≤ 0xdfff then
                match charFromU32 (0x10000 + ((value - 0xd800) <<< 10) + (low - 0xdc00)) with
                | none => fail "invalid Unicode scalar"
                | some ch => .ok (ch, cursor + 12)
              else fail "unpaired Unicode surrogate"
        else fail "unpaired Unicode surrogate"
      else if 0xdc00 ≤ value ∧ value ≤ 0xdfff then fail "unpaired Unicode surrogate"
      else
        match charFromU32 value with
        | none => fail "invalid Unicode scalar"
        | some ch => .ok (ch, cursor + 6)

/-- One scalar of the text at `cursor`, and the cursor behind it. -/
def decodeOne (bytes : Bytes) (cursor : Nat) : Result (Char × Nat) :=
  match bytes[cursor]? with
  | none => .error .panic
  | some b =>
      if b ≠ backslash then
        match slice bytes cursor (bytes.length - 1) with
        | .error failure => .error failure
        | .ok rest =>
            match Utf8.fromUtf8 rest with
            | none => fail "invalid UTF-8 in JSON string"
            -- `chars().next().unwrap()`
            | some [] => .error .panic
            | some (ch :: _) => .ok (ch, cursor + ch.utf8Size)
      else
        match bytes[cursor + 1]? with
        | none => fail "invalid JSON escape"
        | some letter =>
            if letter = 0x75 then unicodeEscape bytes cursor
            else
              match simpleEscape letter with
              | none => fail "invalid JSON escape"
              | some ch => .ok (ch, cursor + 2)

/-- The loop of `decode_json_string`. -/
def decodeLoop (bytes : Bytes) : Nat → Nat → Result (List Char)
  | 0, _ => .error .diverges
  | fuel + 1, cursor =>
      if cursor + 1 < bytes.length then
        match decodeOne bytes cursor with
        | .error failure => .error failure
        | .ok (ch, next) => (decodeLoop bytes fuel next).map (ch :: ·)
      else .ok []

/-- The text of a string token, quotes included in `bytes`. -/
def decodeJsonString (bytes : Bytes) : Result (List Char) :=
  decodeLoop bytes (bytes.length + 1) 1

namespace Json

/-- `while data.get(at).is_some_and(keep) { at += 1 }`. -/
def skipWhile (keep : UInt8 → Bool) (data : Bytes) (cursor : Nat) : Nat :=
  cursor + ((data.drop cursor).takeWhile keep).length

def whitespace (data : Bytes) (cursor : Nat) : Nat :=
  skipWhile isAsciiWhitespace data cursor

def byte (data : Bytes) (expected : UInt8) (cursor : Nat) : Result Nat :=
  if data[whitespace data cursor]? = some expected then .ok (whitespace data cursor + 1)
  else fail "invalid JSON"

/-- Behind the escape at `cursor`, skipped unseen: two bytes, or six after a `u`. -/
def escapeEnd (data : Bytes) (cursor : Nat) : Nat :=
  if data[cursor + 1]? = some 0x75 then cursor + 6 else cursor + 2

/-- One turn of the loop of `Json::string`: whether the closing quote was there, and
where the turn leaves the cursor. -/
def scanStep (data : Bytes) (cursor : Nat) : Result (Bool × Nat) :=
  match data[cursor]? with
  | none => fail "unterminated JSON string"
  | some b =>
      if b = quote then .ok (true, cursor + 1)
      else if b = backslash then
        if escapeEnd data cursor > data.length then fail "unterminated JSON string"
        else .ok (false, escapeEnd data cursor)
      else if b ≤ 0x1f then fail "control byte in JSON string"
      else .ok (false, cursor + 1)

/-- The loop of `Json::string`, from inside the quotes to behind the closing one. -/
def scan (data : Bytes) : Nat → Nat → Result Nat
  | 0, _ => .error .diverges
  | fuel + 1, cursor =>
      match scanStep data cursor with
      | .error failure => .error failure
      | .ok (true, stop) => .ok stop
      | .ok (false, next) => scan data fuel next

def string (data : Bytes) (cursor : Nat) : Result (List Char × Nat) :=
  let start := whitespace data cursor
  if data[start]? = some quote then
    match scan data (data.length + 1) (start + 1) with
    | .error failure => .error failure
    | .ok stop =>
        match slice data start stop with
        | .error failure => .error failure
        | .ok token => (decodeJsonString token).map fun text => (text, stop)
  else fail "invalid JSON string"

/-! ### Numbers -/

def integerPart (data : Bytes) (cursor : Nat) : Result Nat :=
  match data[cursor]? with
  | none => fail "invalid JSON number"
  | some b =>
      if b = 0x30 then
        if (data[cursor + 1]?).any isAsciiDigit then fail "invalid JSON number"
        else .ok (cursor + 1)
      else if 0x31 ≤ b ∧ b ≤ 0x39 then .ok (skipWhile isAsciiDigit data (cursor + 1))
      else fail "invalid JSON number"

/-- One or more digits. -/
def someDigits (data : Bytes) (cursor : Nat) : Result Nat :=
  let stop := skipWhile isAsciiDigit data cursor
  if stop = cursor then fail "invalid JSON number" else .ok stop

def fractionPart (data : Bytes) (cursor : Nat) : Result Nat :=
  if data[cursor]? = some 0x2e then someDigits data (cursor + 1) else .ok cursor

def exponentPart (data : Bytes) (cursor : Nat) : Result Nat :=
  if data[cursor]? = some 0x65 ∨ data[cursor]? = some 0x45 then
    if data[cursor + 1]? = some 0x2b ∨ data[cursor + 1]? = some 0x2d then
      someDigits data (cursor + 2)
    else someDigits data (cursor + 1)
  else .ok cursor

def number (data : Bytes) (cursor : Nat) : Result Nat :=
  let start := if data[cursor]? = some 0x2d then cursor + 1 else cursor
  match integerPart data start with
  | .error failure => .error failure
  | .ok cursor =>
      match fractionPart data cursor with
      | .error failure => .error failure
      | .ok cursor => exponentPart data cursor

/-! ### Values -/

/-- The loop over an object's members, from the first key; `value` reads a member's value. -/
def objectLoop (value : Nat → Result (Option Bool × Nat)) (data : Bytes) :
    Nat → List (List Char) → Nat → Result Nat
  | 0, _, _ => .error .diverges
  | fuel + 1, keys, cursor =>
      match string data cursor with
      | .error failure => .error failure
      | .ok (key, cursor) =>
          if key ∈ keys then
            fail ("duplicate Docker configuration key: " ++ String.ofList key)
          else
            match byte data colon cursor with
            | .error failure => .error failure
            | .ok cursor =>
                match value cursor with
                | .error failure => .error failure
                | .ok (_, cursor) =>
                    let cursor := whitespace data cursor
                    if data[cursor]? = some comma then
                      objectLoop value data fuel (key :: keys) (cursor + 1)
                    else if data[cursor]? = some closeBrace then .ok (cursor + 1)
                    else fail "invalid JSON object"

/-- The loop over an array's elements. -/
def arrayLoop (value : Nat → Result (Option Bool × Nat)) (data : Bytes) :
    Nat → Nat → Result Nat
  | 0, _ => .error .diverges
  | fuel + 1, cursor =>
      match value cursor with
      | .error failure => .error failure
      | .ok (_, cursor) =>
          let cursor := whitespace data cursor
          if data[cursor]? = some comma then arrayLoop value data fuel (cursor + 1)
          else if data[cursor]? = some closeBracket then .ok (cursor + 1)
          else fail "invalid JSON array"

/-- `Json::value` at `depth = 65 - levels`: the depth check is `levels = 0`. -/
def valueAt (data : Bytes) : Nat → Nat → Result (Option Bool × Nat)
  | 0, _ => fail "JSON nesting exceeds 64 levels"
  | levels + 1, cursor =>
      let cursor := whitespace data cursor
      match data[cursor]? with
      | none => fail "invalid JSON value"
      | some b =>
          if b = quote then (string data cursor).map fun token => (none, token.2)
          else if b = openBrace then
            let inner := whitespace data (cursor + 1)
            if data[inner]? = some closeBrace then .ok (none, inner + 1)
            else
              (objectLoop (valueAt data levels) data (data.length + 1) [] inner).map
                fun stop => (none, stop)
          else if b = openBracket then
            let inner := whitespace data (cursor + 1)
            if data[inner]? = some closeBracket then .ok (none, inner + 1)
            else
              (arrayLoop (valueAt data levels) data (data.length + 1) inner).map
                fun stop => (none, stop)
          else if getRange data cursor (cursor + 4) = some (ascii "true") then
            .ok (some true, cursor + 4)
          else if getRange data cursor (cursor + 5) = some (ascii "false") then
            .ok (some false, cursor + 5)
          else if getRange data cursor (cursor + 4) = some (ascii "null") then
            .ok (none, cursor + 4)
          else if b = 0x2d ∨ isAsciiDigit b then
            (number data cursor).map fun stop => (none, stop)
          else fail "invalid JSON value"

def value (data : Bytes) (depth cursor : Nat) : Result (Option Bool × Nat) :=
  valueAt data (65 - depth) cursor

end Json

/-! ## `locate`, `boolean_field`, `disabled_config` -/

/-- Where a member's value stands (`start..stop`), and the literal it is, if boolean. -/
structure LocatedValue where
  start : Nat
  stop : Nat
  boolean : Option Bool
  deriving DecidableEq, Repr

/-- The loop of `locate`, which stops at the closing brace without consuming it. -/
def locateLoop (data : Bytes) (wanted : List Char) :
    Nat → List (List Char) → Option LocatedValue → Nat → Result (Option LocatedValue × Nat)
  | 0, _, _, _ => .error .diverges
  | fuel + 1, keys, found, cursor =>
      match Json.string data cursor with
      | .error failure => .error failure
      | .ok (key, cursor) =>
          if key ∈ keys then
            fail ("duplicate Docker configuration key: " ++ String.ofList key)
          else
            match Json.byte data colon cursor with
            | .error failure => .error failure
            | .ok cursor =>
                let start := Json.whitespace data cursor
                match Json.value data 1 start with
                | .error failure => .error failure
                | .ok (boolean, stop) =>
                    let found := if key = wanted then some ⟨start, stop, boolean⟩ else found
                    let cursor := Json.whitespace data stop
                    if data[cursor]? = some comma then
                      locateLoop data wanted fuel (key :: keys) found (cursor + 1)
                    else if data[cursor]? = some closeBrace then .ok (found, cursor)
                    else fail "invalid JSON object"

/-- What `locate` reports: the value found, the closing brace, whether there is a member. -/
structure Located where
  found : Option LocatedValue
  close : Nat
  any : Bool
  deriving DecidableEq, Repr

def locate (data : Bytes) (wanted : List Char) : Result Located :=
  match Json.byte data openBrace 0 with
  | .error (.error _) => fail "Docker configuration must be a JSON object"
  | .error failure => .error failure
  | .ok cursor =>
      let cursor := Json.whitespace data cursor
      let any := data[cursor]? ≠ some closeBrace
      match
        if any then locateLoop data wanted (data.length + 1) [] none cursor
        else .ok (none, cursor)
      with
      | .error failure => .error failure
      | .ok (found, cursor) =>
          match Json.byte data closeBrace cursor with
          | .error failure => .error failure
          | .ok cursor =>
              if Json.whitespace data cursor = data.length then .ok ⟨found, cursor - 1, any⟩
              else fail "trailing data after JSON object"

def booleanField (data : Bytes) (key : List Char) : Result (Option Bool) :=
  match locate data key with
  | .error failure => .error failure
  | .ok ⟨none, _, _⟩ => .ok none
  | .ok ⟨some value, _, _⟩ =>
      match value.boolean with
      | some b => .ok (some b)
      | none => fail ("Docker " ++ String.ofList key ++ " must be a boolean")

/-- `LIMIT`: 1 MiB. -/
abbrev limit : Nat := 1024 * 1024

def liveRestoreKey : List Char := "live-restore".toList

/-- The bytes inserted where the object has no `live-restore` member. -/
def liveRestoreFalse : Bytes :=
  quote :: ascii "live-restore" ++ [quote, colon] ++ ascii "false"

def disabledConfig (original : Bytes) : Result Bytes :=
  match locate original liveRestoreKey with
  | .error failure => .error failure
  | .ok ⟨located, close, any⟩ =>
      let edited : Result Bytes :=
        match located with
        | some value =>
            match value.boolean with
            | none => fail "Docker live-restore must be a boolean"
            | some _ =>
                match slice original 0 value.start, slice original value.stop original.length with
                | .ok head, .ok tail => .ok (head ++ ascii "false" ++ tail)
                | _, _ => .error .panic
        | none =>
            match slice original 0 close, slice original close original.length with
            | .ok head, .ok tail =>
                .ok (head ++ (if any then [comma] else []) ++ liveRestoreFalse ++ tail)
            | _, _ => .error .panic
      match edited with
      | .error failure => .error failure
      | .ok data =>
          if data.length > limit then fail "Temporary Docker configuration exceeds 1 MiB"
          else .ok data

example : disabledConfig (ascii "\x7b\"a\\u0062\":[1], \"live-restore\" : true\x7d") =
    .ok (ascii "\x7b\"a\\u0062\":[1], \"live-restore\" : false\x7d") := by decide

end Luhmen.Guest
