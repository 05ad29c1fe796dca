/-
# Host.GatewayAuthority -- which authorities the gateway takes for its own

A client names the gateway by its one `Host` field: a name, or a name with the port the
gateway listens on (`Own`).  `request_host` finds every such field.  It also finds some
that are not: a field whose port cannot be read has no port for the `http` crate, and
one that writes the number otherwise has the right one.  `Misread` says which these are,
and `requestHost_iff` that nothing else goes wrong.
-/
import Luhmen.Host.GatewayForward

set_option autoImplicit false

namespace Luhmen.Host.Gateway

open Luhmen.Theory Luhmen.Theory.Http

/-! ## Authorities as they are parsed -/

/-- `u16::from_str`. -/
def u16FromStr (text : Bytes) : Option UInt16 :=
  let digits := if text.head? = some 0x2b then text.tail else text
  if digits ≠ [] ∧ digits.all isDigit ∧ value digits < 2 ^ 16 then
    some (UInt16.ofNat (value digits))
  else none

/-- What stands behind the last colon. -/
def behindColon (text : Bytes) : Option Bytes :=
  (cut colon text.reverse).map fun (back, _) => back.reverse

/-- The letters of names, in both cases. -/
def NameByte (b : UInt8) : Prop :=
  (0x41 ≤ b ∧ b ≤ 0x5a) ∨ HostByte b

/-- What is documented of authorities without user information: the host is an address
in brackets or what stands before the first colon; the port is the number behind the last
one, if it is a number of 16 bits; and what stands behind the one colon of an authority
need not be a port. -/
structure Parsers.Authorities (parse : Parsers) : Prop where
  host : ∀ {text authority}, parse.authority text = some authority → 0x40 ∉ text →
    text.head? = some openBracket ∧ authority.host.head? = some openBracket ∨
      authority.host = text.takeWhile (· ≠ colon)
  port : ∀ {text authority}, parse.authority text = some authority → 0x40 ∉ text →
    authority.port = (behindColon text).bind u16FromStr
  accepts : ∀ {name : Bytes}, name ≠ [] → (∀ b ∈ name, NameByte b) →
    (∃ authority, parse.authority name = some authority) ∧
      ∀ {text : Bytes}, (∀ b ∈ text, NameByte b) →
        ∃ authority, parse.authority (name ++ colon :: text) = some authority

/-! ## The gateway's own authorities -/

/-- There is one `Host` field, and it is the name `host`, alone or with the port. -/
def Own (headers : HeaderMap) (listen_port : UInt16) (host : Bytes) : Prop :=
  ∃ name, host = lowercase name ∧ validHostname host = true ∧
    (headers.getAll HOST = [name] ∨
      headers.getAll HOST = [name ++ colon :: decimal listen_port.toNat])

/-- There is one `Host` field, of a name and a text behind a colon that is not the port
but is parsed, and read as no port at all or as the port. -/
def Misread (parse : Parsers) (headers : HeaderMap) (listen_port : UInt16) : Prop :=
  ∃ name text, headers.getAll HOST = [name ++ colon :: text] ∧
    validHostname (lowercase name) = true ∧ text ≠ decimal listen_port.toNat ∧
    toStr (name ++ colon :: text) = some (name ++ colon :: text) ∧
    0x40 ∉ name ++ colon :: text ∧ (parse.authority (name ++ colon :: text)).isSome ∧
    ((behindColon (name ++ colon :: text)).bind u16FromStr = none ∨
      (behindColon (name ++ colon :: text)).bind u16FromStr = some listen_port)

/-! ## Bytes of names and ports -/

theorem nameByte_of_lower {b : UInt8} (letter : HostByte (lower b)) : NameByte b := by
  unfold lower at letter
  split at letter
  · rename_i upper
    exact .inl (by simpa using upper)
  · exact .inr letter

/-- A name holds neither a colon nor an at sign, and can be a header value. -/
theorem nameByte_clean {b : UInt8} (letter : NameByte b) :
    b ≠ colon ∧ b ≠ 0x40 ∧ 0x20 ≤ b ∧ b < 0x7f := by
  have range : ∀ {low high : UInt8}, (colon < low ∧ 0x40 < low ∨ high < colon) → 0x20 ≤ low →
      high < 0x7f → low ≤ b → b ≤ high → b ≠ colon ∧ b ≠ 0x40 ∧ 0x20 ≤ b ∧ b < 0x7f := by
    intro low high apart visible small above below
    refine ⟨?_, ?_, UInt8.le_trans visible above, UInt8.lt_of_le_of_lt below small⟩
    · rintro rfl
      rcases apart with ⟨beyond, -⟩ | under
      · exact absurd above (UInt8.not_le.2 beyond)
      · exact absurd below (UInt8.not_le.2 under)
    · rintro rfl
      rcases apart with ⟨-, beyond⟩ | under
      · exact absurd above (UInt8.not_le.2 beyond)
      · exact absurd (UInt8.lt_of_le_of_lt below under) (by decide)
  unfold NameByte HostByte at letter
  rcases letter with ⟨low, high⟩ | ⟨low, high⟩ | ⟨low, high⟩ | rfl | rfl
  · exact range (by decide) (by decide) (by decide) low high
  · exact range (by decide) (by decide) (by decide) low high
  · exact range (by decide) (by decide) (by decide) low high
  · decide
  · decide

theorem nameBytes_of_valid {name : Bytes} (valid : validHostname (lowercase name) = true) :
    ∀ b ∈ name, NameByte b := by
  intro b member
  exact nameByte_of_lower (hostByte_of_valid valid _ (List.mem_map_of_mem member))

theorem noColon_of_valid {name : Bytes} (valid : validHostname (lowercase name) = true) :
    colon ∉ name := fun inside =>
  (nameByte_clean (nameBytes_of_valid valid _ inside)).1 rfl

theorem nameByte_decimal (n : Nat) : ∀ b ∈ decimal n, NameByte b := by
  intro b member
  exact .inr (.inr (.inl (decimal_digit b member)))

theorem noColon_decimal (n : Nat) : colon ∉ decimal n := fun inside =>
  (nameByte_clean (nameByte_decimal n _ inside)).1 rfl

/-- Names and a colon make a header value without user information. -/
theorem toStr_clean {value : Bytes} (letters : ∀ b ∈ value, NameByte b ∨ b = colon) :
    toStr value = some value ∧ 0x40 ∉ value := by
  refine ⟨toStr_eq_some.2 ⟨fun b member => ?_, rfl⟩, fun inside => ?_⟩
  · rcases letters b member with letter | rfl
    · exact .inl (nameByte_clean letter).2.2
    · exact .inl (by decide)
  · rcases letters _ inside with letter | is
    · exact (nameByte_clean letter).2.1 rfl
    · exact absurd is (by decide)

theorem valid_ne_nil {name : Bytes} (valid : validHostname (lowercase name) = true) :
    name ≠ [] := by
  rintro rfl
  exact absurd valid (by decide)

theorem behindColon_none {text : Bytes} (none : colon ∉ text) : behindColon text = .none := by
  unfold behindColon
  cases found : cut colon text.reverse with
  | none => rfl
  | some pair =>
    obtain ⟨back, front⟩ := pair
    have inside : colon ∈ text.reverse := by
      rw [(cut_eq_some found).1]
      exact List.mem_append_right _ List.mem_cons_self
    exact absurd (List.mem_reverse.1 inside) none

theorem behindColon_append (front : Bytes) {text : Bytes} (none : colon ∉ text) :
    behindColon (front ++ colon :: text) = some text := by
  have before : colon ∉ text.reverse := by simpa using none
  rw [behindColon, List.reverse_append, List.reverse_cons, List.append_assoc,
    List.singleton_append, cut_append before]
  simp

theorem u16FromStr_decimal (port : UInt16) : u16FromStr (decimal port.toNat) = some port := by
  have noSign : (decimal port.toNat).head? ≠ some 0x2b := by
    intro sign
    have digit := decimal_digit _ (List.mem_of_mem_head? sign)
    exact absurd digit.1 (by decide)
  unfold u16FromStr
  rw [if_neg noSign]
  dsimp only
  rw [value_decimal, if_pos ⟨decimal_ne_nil, all_isDigit_decimal _, port.toNat_lt⟩,
    UInt16.ofNat_toNat]

theorem takeWhile_name {name text : Bytes} (none : colon ∉ name)
    (ends : text = [] ∨ text.head? = some colon) :
    (name ++ text).takeWhile (· ≠ colon) = name := by
  have letters : ∀ b ∈ name, decide (b ≠ colon) = true := by
    intro b member
    exact decide_eq_true fun same => none (same ▸ member)
  rw [List.takeWhile_append_of_pos letters]
  rcases ends with rfl | colons
  · simp
  · cases text with
    | nil => cases colons
    | cons b rest =>
      cases colons
      simp

/-! ## What `request_host` finds -/

section

variable {parse : Parsers} {headers : HeaderMap} {listen_port : UInt16} {host : Bytes}

/-- What a name is found as, alone or with a colon and a text behind it. -/
theorem requestHost_name (authorities : parse.Authorities) {name text : Bytes}
    (only : headers.getAll HOST = [name ++ text]) (valid : validHostname (lowercase name) = true)
    (ends : text = [] ∨ text.head? = some colon)
    (visible : toStr (name ++ text) = some (name ++ text)) (noUser : 0x40 ∉ name ++ text)
    (parsed : (parse.authority (name ++ text)).isSome)
    (port : (behindColon (name ++ text)).bind u16FromStr = none ∨
      (behindColon (name ++ text)).bind u16FromStr = some listen_port) :
    requestHost parse headers listen_port = some (lowercase name) := by
  obtain ⟨authority, parsed⟩ := Option.isSome_iff_exists.1 parsed
  have noBracket : (name ++ text).head? ≠ some openBracket := by
    have notEmpty := valid_ne_nil valid
    cases name with
    | nil => exact absurd rfl notEmpty
    | cons b rest => exact fun bracket => not_bracket valid (show some b = _ from bracket)
  have isHost := (authorities.host parsed noUser).resolve_left fun bracket => noBracket bracket.1
  rw [takeWhile_name (noColon_of_valid valid) ends] at isHost
  refine requestHost_eq_some.2 ⟨name ++ text, authority, only, visible, noUser, parsed, ?_, ?_,
    valid⟩
  · rwa [authorities.port parsed noUser]
  · rw [isHost]

/-- Every authority of the gateway's own is found. -/
theorem requestHost_of_own (authorities : parse.Authorities) (own : Own headers listen_port host) :
    requestHost parse headers listen_port = some host := by
  obtain ⟨name, rfl, valid, fields⟩ := own
  have letters := nameBytes_of_valid valid
  have noColon := noColon_of_valid valid
  obtain ⟨alone, withText⟩ := authorities.accepts (valid_ne_nil valid) letters
  rcases fields with only | only
  · obtain ⟨visible, noUser⟩ := toStr_clean fun b member => .inl (letters b member)
    have none : behindColon name = .none := behindColon_none noColon
    refine @requestHost_name _ _ _ authorities name [] ?_ valid (.inl rfl) ?_ ?_ ?_ ?_ <;>
      rw [List.append_nil]
    · exact only
    · exact visible
    · exact noUser
    · exact Option.isSome_iff_exists.2 alone
    · exact .inl (by rw [none]; rfl)
  · have all : ∀ b ∈ name ++ colon :: decimal listen_port.toNat, NameByte b ∨ b = colon := by
      intro b member
      rcases List.mem_append.1 member with inName | behind
      · exact .inl (letters b inName)
      · rcases List.mem_cons.1 behind with is | digit
        · exact .inr is
        · exact .inl (nameByte_decimal _ b digit)
    obtain ⟨visible, noUser⟩ := toStr_clean all
    refine requestHost_name authorities only valid (.inr rfl) visible noUser
      (Option.isSome_iff_exists.2 (withText (nameByte_decimal _))) (.inr ?_)
    rw [behindColon_append name (noColon_decimal _)]
    exact u16FromStr_decimal listen_port

/-- What is found besides is misread. -/
theorem misread_of_requestHost (authorities : parse.Authorities)
    (found : requestHost parse headers listen_port = some host)
    (other : ¬ Own headers listen_port host) : Misread parse headers listen_port := by
  obtain ⟨value, authority, only, visible, noUser, parsed, port, rfl, valid⟩ :=
    requestHost_eq_some.1 found
  have isHost := (authorities.host parsed noUser).resolve_left fun bracket =>
    not_bracket valid bracket.2
  have whole : authority.host ++ value.dropWhile (· ≠ colon) = value := by
    rw [isHost]
    exact List.takeWhile_append_dropWhile ..
  rw [authorities.port parsed noUser] at port
  cases rest : value.dropWhile (· ≠ colon) with
  | nil =>
    rw [rest, List.append_nil] at whole
    exact absurd ⟨authority.host, rfl, valid, .inl (whole ▸ only)⟩ other
  | cons b text =>
    have isColon : b = colon := by
      have stops := List.head?_dropWhile_not (· ≠ colon) value
      rw [rest, List.head?_cons] at stops
      simpa using stops
    subst isColon
    rw [rest] at whole
    rw [← whole] at only visible noUser port parsed
    have notPort : text ≠ decimal listen_port.toNat := by
      rintro rfl
      exact other ⟨authority.host, rfl, valid, .inr only⟩
    exact ⟨authority.host, text, only, valid, notPort, visible, noUser,
      Option.isSome_iff_exists.2 ⟨_, parsed⟩, port⟩

/-- And a misread field is found. -/
theorem requestHost_of_misread (authorities : parse.Authorities)
    (misread : Misread parse headers listen_port) :
    ∃ host, requestHost parse headers listen_port = some host ∧ ¬ Own headers listen_port host := by
  obtain ⟨name, text, only, valid, notPort, visible, noUser, parsed, port⟩ := misread
  refine ⟨lowercase name, requestHost_name authorities only valid (.inr rfl) visible noUser parsed
    port, ?_⟩
  rintro ⟨other, same, -, fields⟩
  have otherValid : validHostname (lowercase other) = true := same ▸ valid
  rcases fields with alone | withPort
  · have value := List.singleton_inj.1 (only.symm.trans alone)
    refine noColon_of_valid otherValid ?_
    rw [← value]
    exact List.mem_append_right _ List.mem_cons_self
  · have value := List.singleton_inj.1 (only.symm.trans withPort)
    have cuts := congrArg (cut colon) value
    rw [cut_append (noColon_of_valid valid), cut_append (noColon_of_valid otherValid)] at cuts
    cases cuts
    exact notPort rfl

/-- **The check finds the gateway's own authorities and no others**, except where a port
is misread. -/
theorem requestHost_iff (authorities : parse.Authorities) (headers : HeaderMap)
    (listen_port : UInt16) :
    (∀ host, requestHost parse headers listen_port = some host ↔ Own headers listen_port host) ↔
      ¬ Misread parse headers listen_port := by
  constructor
  · intro exact misread
    obtain ⟨host, found, other⟩ := requestHost_of_misread authorities misread
    exact other ((exact host).1 found)
  · intro read _
    refine ⟨fun found => ?_, requestHost_of_own authorities⟩
    by_contra other
    exact read (misread_of_requestHost authorities found other)

end

instance (b : UInt8) : Decidable (HostByte b) :=
  inferInstanceAs
    (Decidable ((0x61 ≤ b ∧ b ≤ 0x7a) ∨ (0x30 ≤ b ∧ b ≤ 0x39) ∨ b = hyphen ∨ b = dot))

instance (b : UInt8) : Decidable (NameByte b) :=
  inferInstanceAs (Decidable ((0x41 ≤ b ∧ b ≤ 0x5a) ∨ HostByte b))

/-- A parser of names with one colon at most. -/
def nameParsers : Parsers where
  authority text :=
    if text ≠ [] ∧ (∀ b ∈ text, NameByte b ∨ b = colon) ∧ text.count colon ≤ 1 then
      some ⟨text.takeWhile (· ≠ colon), (behindColon text).bind u16FromStr⟩
    else none
  uri _ := none

theorem nameParsers_authorities : nameParsers.Authorities where
  host := by
    intro text authority parsed _
    unfold nameParsers at parsed
    dsimp only at parsed
    split at parsed
    · cases parsed
      exact .inr rfl
    · cases parsed
  port := by
    intro text authority parsed _
    unfold nameParsers at parsed
    dsimp only at parsed
    split at parsed
    · cases parsed
      rfl
    · cases parsed
  accepts := by
    intro name nonempty letters
    have none : name.count colon = 0 :=
      List.count_eq_zero.2 fun inside => (nameByte_clean (letters _ inside)).1 rfl
    refine ⟨⟨_, if_pos ⟨nonempty, fun b member => .inl (letters b member), by omega⟩⟩, ?_⟩
    intro text more
    have noneBehind : text.count colon = 0 :=
      List.count_eq_zero.2 fun inside => (nameByte_clean (more _ inside)).1 rfl
    refine ⟨_, if_pos ⟨by simp, fun b member => ?_, ?_⟩⟩
    · rcases List.mem_append.1 member with inName | behind
      · exact .inl (letters b inName)
      · rcases List.mem_cons.1 behind with is | inText
        · exact .inr is
        · exact .inl (more b inText)
    · have one : (name ++ colon :: text).count colon = 1 := by
        rw [List.count_append, List.count_cons_self, none, noneBehind]
      exact Nat.le_of_eq one

theorem requestHost_iff_named :
    (∀ host, requestHost nameParsers ⟨[(HOST, ascii "App.localhost:8443")]⟩ 8443 = some host ↔
        Own ⟨[(HOST, ascii "App.localhost:8443")]⟩ 8443 host) ↔
      ¬ Misread nameParsers ⟨[(HOST, ascii "App.localhost:8443")]⟩ 8443 :=
  requestHost_iff nameParsers_authorities _ _

/-- A name with an empty port is not the gateway's authority, and is found. -/
theorem requestHost_emptyPort :
    requestHost nameParsers ⟨[(HOST, ascii "app.localhost:")]⟩ 8443 =
        some (ascii "app.localhost") ∧
      ¬ Own ⟨[(HOST, ascii "app.localhost:")]⟩ 8443 (ascii "app.localhost") := by
  have found : requestHost nameParsers ⟨[(HOST, ascii "app.localhost:")]⟩ 8443 =
      some (ascii "app.localhost") := by decide +kernel
  have only : (⟨[(HOST, ascii "app.localhost:")]⟩ : HeaderMap).getAll HOST =
      [ascii "app.localhost:"] := by decide
  refine ⟨found, ?_⟩
  rintro ⟨name, same, -, alone | withPort⟩
  · have value := List.singleton_inj.1 (only.symm.trans alone)
    rw [← value] at same
    exact absurd same (by decide)
  · have value := List.singleton_inj.1 (only.symm.trans withPort)
    have port : decimal (8443 : UInt16).toNat = ascii "8443" := by decide
    have last := congrArg List.getLast? value
    rw [port, List.getLast?_append] at last
    exact absurd (show some colon = some 0x33 from last) (by decide)

end Luhmen.Host.Gateway
