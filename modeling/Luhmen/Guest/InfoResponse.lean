/-
# Guest.InfoResponse -- what `live_restore` makes of a response

`live_restore` asks the daemon for `/info` in HTTP/1.1 and reads the reply to its
end.  It splits the bytes at the first blank line, wants ` 200 ` in the first
line, and hands everything behind the blank line to the JSON scanner, whatever
the header fields say about it.  So a body sent whole is read (`liveRestore_whole`), and
a chunked one is not (`liveRestore_chunked`): its first byte is a chunk size.
-/
import Mathlib.Data.List.Infix
import Luhmen.Guest.ConfigEdit
import Luhmen.Guest.JsonStandard
import Luhmen.Theory.HttpResponse

namespace Luhmen.Guest

open Luhmen.Theory Luhmen.Theory.JsonGrammar Luhmen.Theory.JsonText

set_option autoImplicit false

/-- `response.windows(4).position(..)`: where the first blank line begins. -/
def blankLine : Bytes → Option Nat
  | [] => none
  | b :: rest =>
      if (b :: rest).take 4 = [0x0d, 0x0a, 0x0d, 0x0a] then some 0 else (blankLine rest).map (· + 1)

/-- `headers.lines().next()`: up to the first line feed, without it and without a
carriage return before it. -/
def firstLine (text : List Char) : Option (List Char) :=
  if text = [] then none
  else
    let line := text.takeWhile (· ≠ Char.ofNat 0xa)
    if line.length < text.length ∧ line.getLast? = some (Char.ofNat 0xd) then some line.dropLast
    else some line

def enabledKey : List Char := "LiveRestoreEnabled".toList

/-- `live_restore`, from the bytes the connection delivers. -/
def liveRestore (stream : Bytes) : Result Bool :=
  let response := stream.take (limit + 4097)
  match blankLine response with
  | none => fail "Docker /info returned an invalid HTTP response"
  | some split =>
      match Utf8.fromUtf8 (response.take split) with
      -- the text of the `Utf8Error`
      | none => fail "invalid utf-8 sequence"
      | some headers =>
          if (firstLine headers).any fun line => " 200 ".toList <:+: line then
            let body := response.drop (split + 4)
            if body.length > limit then fail "Docker /info exceeded 1 MiB"
            else
              match booleanField body enabledKey with
              | .error failure => .error failure
              | .ok none => fail "Docker /info did not report LiveRestoreEnabled"
              | .ok (some enabled) => .ok enabled
          else fail "Docker /info did not return a successful response"

example : liveRestore (ascii "HTTP/1.1 200 OK\r\nServer: Docker\r\n\r\n\x7b\"LiveRestoreEnabled\":true\x7d") =
    .ok true := by decide

/-! ## The head -/

theorem blankLine_cons {b : UInt8} (rest : Bytes) (other : b ≠ 0x0d) :
    blankLine (b :: rest) = (blankLine rest).map (· + 1) := by
  have no : (b :: rest).take 4 ≠ [0x0d, 0x0a, 0x0d, 0x0a] := by
    intro same
    rw [List.take_succ_cons] at same
    exact other (List.cons.inj same).1
  rw [blankLine, if_neg no]

theorem blankLine_append {text : Bytes} (post : Bytes) (noReturn : ∀ b ∈ text, b ≠ 0x0d) :
    blankLine (text ++ post) = (blankLine post).map (· + text.length) := by
  induction text with
  | nil => simp
  | cons b text ih =>
      obtain ⟨here, further⟩ := List.forall_mem_cons.1 noReturn
      rw [List.cons_append, blankLine_cons _ here, ih further, Option.map_map, List.length_cons]
      rfl

/-- A line break in front of a line is not a blank line. -/
theorem blankLine_crlf {line : Bytes} (post : Bytes) (nonempty : line ≠ [])
    (noReturn : ∀ b ∈ line, b ≠ 0x0d) :
    blankLine (Http.crlf ++ (line ++ post)) = (blankLine post).map (· + (2 + line.length)) := by
  obtain ⟨b, rest, rfl⟩ := List.exists_cons_of_ne_nil nonempty
  have here := noReturn b List.mem_cons_self
  have no : (Http.crlf ++ (b :: rest ++ post)).take 4 ≠ [0x0d, 0x0a, 0x0d, 0x0a] := by
    intro same
    simp only [List.cons_append, List.nil_append, List.take_succ_cons] at same
    exact here (List.cons.inj (List.cons.inj (List.cons.inj same).2).2).1
  have step : blankLine (Http.crlf ++ (b :: rest ++ post)) =
      (blankLine (0x0a :: (b :: rest ++ post))).map (· + 1) := by
    exact if_neg no
  rw [step, blankLine_cons _ (by decide), blankLine_append post noReturn, Option.map_map,
    Option.map_map]
  congr 1
  funext n
  simp only [Function.comp_apply]
  omega

theorem blankLine_fields {fields : List Http.Field} (payload : Bytes)
    (valid : ∀ f ∈ fields, f.Valid) :
    blankLine ((fields.flatMap fun f => Http.crlf ++ f.line) ++ (Http.crlf ++ Http.crlf ++ payload)) =
      some (fields.flatMap fun f => Http.crlf ++ f.line).length := by
  induction fields with
  | nil => rfl
  | cons f fields ih =>
      obtain ⟨here, further⟩ := List.forall_mem_cons.1 valid
      obtain ⟨nonempty, noReturn⟩ := Http.line_bytes here
      rw [List.flatMap_cons, List.append_assoc, List.append_assoc,
        blankLine_crlf _ nonempty noReturn, ih further, Option.map_some, List.length_append,
        List.length_append]
      congr 1
      simp only [List.length_cons, List.length_nil]
      omega

/-- The first blank line is the one that ends the head. -/
theorem blankLine_head {r : Http.Response} (valid : ∀ f ∈ r.fields, f.Valid) (payload : Bytes) :
    blankLine (r.head ++ payload) = some r.headText.length := by
  have status : ∀ b ∈ Http.Response.statusLine, b ≠ 0x0d :=
    forall_mem_of_all (by decide)
  rw [Http.Response.head, Http.Response.headText, List.append_assoc, List.append_assoc,
    blankLine_append _ status, blankLine_fields payload valid, Option.map_some, List.length_append,
    Nat.add_comm]

/-- The first line begins with what stands before the first line feed, whatever
the end of the line loses. -/
theorem firstLine_starts {front more : List Char} {c : Char}
    (noFeed : ∀ d ∈ front ++ [c], d ≠ Char.ofNat 0xa) :
    ∃ line, firstLine (front ++ c :: more) = some line ∧ front <+: line := by
  have line : (front ++ c :: more).takeWhile (· ≠ Char.ofNat 0xa) =
      front ++ c :: more.takeWhile (· ≠ Char.ofNat 0xa) := by
    rw [List.append_cons front c more, List.append_cons front c (more.takeWhile _)]
    exact List.takeWhile_append_of_pos (by simpa using noFeed)
  have nonempty : front ++ c :: more ≠ [] := by simp
  rw [firstLine, if_neg nonempty, line]
  dsimp only
  split
  · refine ⟨_, rfl, ?_⟩
    rw [List.dropLast_append_of_ne_nil (by simp)]
    exact List.prefix_append _ _
  · exact ⟨_, rfl, List.prefix_append _ _⟩

/-- The status line is the first line, and reports success. -/
theorem firstLine_head {r : Http.Response} {headers : List Char}
    (decoded : Utf8.fromUtf8 r.headText = some headers) :
    (firstLine headers).any (fun line => " 200 ".toList <:+: line) = true := by
  have encoded := Utf8.encode_fromUtf8 decoded
  have status : Http.Response.statusLine = Utf8.encode ("HTTP/1.1 200 O".toList ++ ['K']) := by
    decide
  rw [Http.Response.headText, status] at encoded
  obtain ⟨more, rfl⟩ := Utf8.append_of_encode encoded.symm
  obtain ⟨line, first, front⟩ := @firstLine_starts "HTTP/1.1 200 O".toList more 'K'
    (forall_mem_of_all (by decide))
  have success : " 200 ".toList <:+: "HTTP/1.1 200 O".toList := by decide
  rw [List.append_assoc, List.singleton_append, first]
  exact decide_eq_true (success.trans front.isInfix)

/-! ## The body -/

section Body

variable {r : Http.Response} {d : Document} {b : Bool}

/-- A body of which every string denotes Unicode text reports its boolean; any other fails. -/
theorem booleanField_reads (json : d.Valid helper memberLevels)
    (reports : ∃ m ∈ d.members, m.key = some enabledKey ∧ m.boolean = some b) :
    Reads (booleanField d.render enabledKey) d.unicode (some b) := by
  have reads := locate_complete json enabledKey
  cases unicode : d.unicode with
  | false =>
      rw [unicode] at reads
      obtain ⟨failure, failed⟩ := reads_false.1 reads
      exact reads_false.2 ⟨failure, by rw [booleanField, failed]⟩
  | true =>
      rw [unicode] at reads
      obtain ⟨m, member, keyIs, isBoolean⟩ := reports
      obtain ⟨before, behind, split⟩ := List.append_of_mem member
      have shape : located d enabledKey = ⟨some ⟨(front d before m).length,
          (front d before m).length + m.value.length, some b⟩, (located d enabledKey).close,
          (located d enabledKey).any⟩ := by
        rw [← isBoolean, ← found_at json unicode split keyIs]
      apply reads_true.2
      rw [booleanField, reads_true.1 reads, shape]

theorem liveRestore_body {stream : Bytes} {split : Nat} {headers : List Char}
    (found : blankLine (stream.take (limit + 4097)) = some split)
    (decoded : Utf8.fromUtf8 ((stream.take (limit + 4097)).take split) = some headers)
    (success : (firstLine headers).any (fun line => " 200 ".toList <:+: line) = true)
    (small : ((stream.take (limit + 4097)).drop (split + 4)).length ≤ limit) :
    liveRestore stream =
      match booleanField ((stream.take (limit + 4097)).drop (split + 4)) enabledKey with
      | .error failure => .error failure
      | .ok none => fail "Docker /info did not report LiveRestoreEnabled"
      | .ok (some enabled) => .ok enabled := by
  simp only [liveRestore, found, decoded, success, if_true]
  rw [if_neg (Nat.not_lt.2 small)]

theorem head_length (r : Http.Response) : r.head.length = r.headText.length + 4 := by
  simp [Http.Response.head]

theorem take_headText (r : Http.Response) (payload : Bytes) :
    (r.head ++ payload).take r.headText.length = r.headText := by
  rw [Http.Response.head, List.append_assoc, List.take_left]

theorem drop_head (r : Http.Response) (payload : Bytes) :
    (r.head ++ payload).drop (r.headText.length + 4) = payload := by
  rw [← head_length, List.drop_left]

/-- What `live_restore` sees of a response whose head fits. -/
theorem stream_take (heads : r.head.length ≤ 4096) :
    r.stream.take (limit + 4097) = r.head ++ r.payload.take (limit + 4097 - r.head.length) := by
  rw [Http.Response.stream, List.take_append, List.take_of_length_le (by omega)]

theorem liveRestore_not_utf8 (valid : r.Valid) (heads : r.head.length ≤ 4096)
    (undecoded : Utf8.fromUtf8 r.headText = none) :
    ∃ failure, liveRestore r.stream = .error failure := by
  have found := blankLine_head valid.fields (r.payload.take (limit + 4097 - r.head.length))
  rw [liveRestore, stream_take heads]
  simp only [found, take_headText, undecoded]
  exact ⟨_, rfl⟩

/-- A body sent whole, behind a head that is UTF-8, is read. -/
theorem liveRestore_whole (valid : r.Valid) (whole : r.framing.isChunked = false)
    (heads : r.head.length ≤ 4096) (small : r.body.length ≤ limit) {headers : List Char}
    (decoded : Utf8.fromUtf8 r.headText = some headers) (json : d.Valid helper memberLevels)
    (bodyIs : r.body = d.render)
    (reports : ∃ m ∈ d.members, m.key = some enabledKey ∧ m.boolean = some b) :
    Reads (liveRestore r.stream) d.unicode b := by
  have seen : r.stream.take (limit + 4097) = r.head ++ r.body := by
    rw [stream_take heads, Http.payload_of_not_chunked whole, List.take_of_length_le (by omega)]
  have found := blankLine_head valid.fields r.body
  have reads := booleanField_reads json reports
  rw [← bodyIs] at reads
  have result := @liveRestore_body r.stream r.headText.length headers (by rw [seen, found])
    (by rw [seen, take_headText, decoded]) (firstLine_head decoded)
    (by rw [seen, drop_head]; exact small)
  rw [seen, drop_head] at result
  rw [result, ← Bool.and_true d.unicode]
  refine reads.step (fun failure failed => by rw [failed]) fun _ ok => ?_
  rw [ok]
  exact reads_true.2 rfl

theorem hexDigit_token {c : UInt8} {digit : Nat} (isDigit : hexDigit c = some digit) :
    isAsciiWhitespace c = false ∧ c ≠ openBrace := by
  have isSome : (hexDigit c).isSome = true := by rw [isDigit]; rfl
  constructor
  · by_contra space
    simp only [isAsciiWhitespace, Bool.not_eq_false, Bool.or_eq_true, beq_iff_eq] at space
    rcases space with (((rfl | rfl) | rfl) | rfl) | rfl <;> exact absurd isSome (by decide)
  · rintro rfl
    exact absurd isSome (by decide)

/-- What begins with a hexadecimal digit is no JSON object. -/
theorem booleanField_digit {c : UInt8} {rest : Bytes} {digit : Nat} (key : List Char)
    (isDigit : hexDigit c = some digit) :
    ∃ failure, booleanField (c :: rest) key = .error failure := by
  obtain ⟨token, notBrace⟩ := hexDigit_token isDigit
  have skipped : Json.whitespace (c :: rest) 0 = 0 :=
    whitespace_complete .nil (.cons rest token) rfl
  have refused : Json.byte (c :: rest) openBrace 0 = fail "invalid JSON" := by
    rw [Json.byte, skipped, if_neg]
    exact fun same => notBrace (Option.some.inj same)
  exact ⟨_, by rw [booleanField, locate, refused]; rfl⟩

/-- A chunked body is never read: its first chunk size stands where the object should. -/
theorem liveRestore_chunked (valid : r.Valid) (chunked : r.framing.isChunked = true)
    (heads : r.head.length ≤ 4096) : ∃ failure, liveRestore r.stream = .error failure := by
  cases decoded : Utf8.fromUtf8 r.headText with
  | none => exact liveRestore_not_utf8 valid heads decoded
  | some headers =>
      obtain ⟨c, rest, digit, shape, isDigit⟩ := Http.payload_chunked valid chunked
      obtain ⟨n, room⟩ : ∃ n, limit + 4097 - r.head.length = n + 1 :=
        ⟨limit + 4096 - r.head.length, by omega⟩
      have seen : r.stream.take (limit + 4097) = r.head ++ (c :: rest.take n) := by
        rw [stream_take heads, room, shape, List.take_succ_cons]
      have found := blankLine_head valid.fields (c :: rest.take n)
      rw [liveRestore, seen]
      simp only [found, take_headText, decoded, firstLine_head decoded, if_true, drop_head]
      split
      · exact ⟨_, rfl⟩
      · obtain ⟨failure, failed⟩ := @booleanField_digit c (rest.take n) digit enabledKey isDigit
        exact ⟨failure, by rw [failed]⟩

/-- Which responses with a standard body are read: those that carry it whole,
with a UTF-8 head and Unicode strings. -/
theorem liveRestore_reads_iff (valid : r.Valid) (heads : r.head.length ≤ 4096)
    (small : r.body.length ≤ limit) (json : d.Valid standard memberLevels)
    (bodyIs : r.body = d.render)
    (reports : ∃ m ∈ d.members, m.key = some enabledKey ∧ m.boolean = some b) :
    liveRestore r.stream = .ok b ↔
      r.framing.isChunked = false ∧ (Utf8.fromUtf8 r.headText).isSome = true ∧ d.unicode = true := by
  cases framing : r.framing.isChunked with
  | true =>
      obtain ⟨failure, failed⟩ := liveRestore_chunked valid framing heads
      simp [failed]
  | false =>
      cases decoded : Utf8.fromUtf8 r.headText with
      | none =>
          obtain ⟨failure, failed⟩ := liveRestore_not_utf8 valid heads decoded
          simp [failed]
      | some headers =>
          have reads := liveRestore_whole valid framing heads small decoded
            (standard_document json) bodyIs reports
          cases unicode : d.unicode with
          | true =>
              rw [unicode] at reads
              simp [reads_true.1 reads]
          | false =>
              rw [unicode] at reads
              obtain ⟨failure, failed⟩ := reads_false.1 reads
              simp [failed]

end Body

/-! ## A response of each kind -/

/-- The body that reports live restore, and nothing else. -/
def enabledDocument : Document where
  lead := []
  inside := []
  members := [{
    lead := []
    name := quote :: ascii "LiveRestoreEnabled" ++ [quote]
    key := some enabledKey
    beforeColon := []
    gap := []
    value := ascii "true"
    boolean := some true
    valueUnicode := true
    tail := [] }]
  trail := []

theorem enabledDocument_valid : enabledDocument.Valid standard memberLevels where
  lead := by simp [enabledDocument, Lexicon.Spaces]
  inside := by simp [enabledDocument, Lexicon.Spaces]
  members := by
    intro m member
    obtain rfl := List.mem_singleton.1 member
    refine ⟨?_, ?_, ?_, ?_, .literalTrue, ?_⟩
    · exact fun b member => absurd member List.not_mem_nil
    · refine ⟨enabledKey.map Piece.plain, ?_, by decide, by decide⟩
      intro piece member
      obtain ⟨c, isChar, rfl⟩ := List.mem_map.1 member
      have graphic : ∀ c ∈ enabledKey, 0x20 ≤ c.toNat ∧ c.toNat ≠ 0x22 ∧ c.toNat ≠ 0x5c :=
        forall_mem_of_all (by decide)
      exact graphic c isChar
    · exact fun b member => absurd member List.not_mem_nil
    · exact fun b member => absurd member List.not_mem_nil
    · exact fun b member => absurd member List.not_mem_nil
  distinct := by
    show [enabledKey].Nodup
    simp
  trail := by simp [enabledDocument, Lexicon.Spaces]

def sentWhole : Http.Response where
  fields := [{ name := ascii "Content-Length", lead := ascii " ", value := ascii "27", tail := [] }]
  framing := .contentLength
  body := enabledDocument.render

/-- The same body as the daemon sends it when it does not know its length beforehand. -/
def sentChunked : Http.Response where
  fields := [{ name := ascii "Transfer-Encoding", lead := ascii " ", value := ascii "chunked", tail := [] }]
  framing := .chunked [{ size := ascii "1b", extension := [], data := enabledDocument.render }]
    { size := ascii "0", extension := [], trailers := [] }
  body := enabledDocument.render

theorem sentWhole_valid : sentWhole.Valid where
  fields := by
    intro f member
    obtain rfl := List.mem_singleton.1 member
    exact ⟨by decide, forall_mem_of_all (by decide), by decide, by decide, by decide⟩
  framed := by
    refine ⟨by decide, by decide, by decide⟩

theorem sentChunked_valid : sentChunked.Valid where
  fields := by
    intro f member
    obtain rfl := List.mem_singleton.1 member
    exact ⟨by decide, forall_mem_of_all (by decide), by decide, by decide, by decide⟩
  framed := by
    refine ⟨by decide, by decide, ?_, ?_, by decide⟩
    · intro c member
      obtain rfl := List.mem_singleton.1 member
      exact ⟨by decide, by decide, by decide, by decide⟩
    · exact ⟨by decide, by decide, by decide, by simp⟩

theorem liveRestore_reads_content_length : liveRestore sentWhole.stream = .ok true :=
  (liveRestore_reads_iff sentWhole_valid (by decide) (by decide) enabledDocument_valid rfl
    ⟨_, List.mem_singleton.2 rfl, rfl, rfl⟩).2 ⟨rfl, by decide, rfl⟩

/-- A valid response, with a valid body that says `true`, is not read when it is chunked. -/
theorem liveRestore_misses_chunked :
    ¬ ∀ (r : Http.Response) (d : Document) (b : Bool), r.Valid → r.head.length ≤ 4096 →
      r.body.length ≤ limit → d.Valid standard memberLevels → r.body = d.render →
      (∃ m ∈ d.members, m.key = some enabledKey ∧ m.boolean = some b) →
      liveRestore r.stream = .ok b := by
  intro reads
  have ok := reads sentChunked enabledDocument true sentChunked_valid (by decide) (by decide)
    enabledDocument_valid rfl ⟨_, List.mem_singleton.2 rfl, rfl, rfl⟩
  obtain ⟨failure, failed⟩ := liveRestore_chunked sentChunked_valid rfl (by decide)
  rw [failed] at ok
  simp at ok

end Luhmen.Guest
