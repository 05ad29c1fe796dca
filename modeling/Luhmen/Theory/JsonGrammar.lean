/-
# Theory.JsonGrammar -- JSON texts, by their parts

The grammar of JSON values over bytes, relative to a `Lexicon` (which bytes may
stand between tokens, and which byte strings are string tokens for which text),
so that standard JSON and the language of a more lenient reader are two instances
of one definition.

Values nest by levels: `Value L n` is the value texts with at most `n` levels,
each built from `Value L` one level down by `ValueStep`.  A value text comes with
the literal it is when it is a boolean, and with whether all its strings denote
Unicode text (an escaped lone surrogate denotes none).  A top-level object is a
`Document`, kept as its members with every piece of whitespace, so an edit of it
is an edit of the member list.
-/
import Luhmen.Theory.Bytes

namespace Luhmen.Theory.JsonGrammar

set_option autoImplicit false

/-- What differs between readers of JSON: the bytes between tokens, and the string
tokens with the text they denote (`none` when they denote no Unicode text). -/
structure Lexicon where
  space : UInt8 → Prop
  string : Bytes → Option (List Char) → Prop

def Lexicon.Spaces (L : Lexicon) (text : Bytes) : Prop :=
  ∀ b ∈ text, L.space b

/-! ## Numbers -/

def Digit (b : UInt8) : Prop :=
  0x30 ≤ b ∧ b ≤ 0x39

instance : DecidablePred Digit := fun b => inferInstanceAs (Decidable (0x30 ≤ b ∧ b ≤ 0x39))

inductive Integer : Bytes → Prop where
  | zero : Integer [0x30]
  | digits {first : UInt8} {rest : Bytes} (leading : 0x31 ≤ first ∧ first ≤ 0x39)
      (digits : ∀ b ∈ rest, Digit b) : Integer (first :: rest)

inductive Fraction : Bytes → Prop where
  | absent : Fraction []
  | present {digits : Bytes} (nonempty : digits ≠ []) (all : ∀ b ∈ digits, Digit b) :
      Fraction (0x2e :: digits)

inductive Exponent : Bytes → Prop where
  | absent : Exponent []
  | present {mark : UInt8} {sign digits : Bytes} (marked : mark = 0x65 ∨ mark = 0x45)
      (signed : sign = [] ∨ sign = [0x2b] ∨ sign = [0x2d])
      (nonempty : digits ≠ []) (all : ∀ b ∈ digits, Digit b) :
      Exponent (mark :: (sign ++ digits))

inductive Number : Bytes → Prop where
  | parts {sign integer fraction exponent : Bytes} (signed : sign = [] ∨ sign = [0x2d])
      (int : Integer integer) (frac : Fraction fraction) (exp : Exponent exponent) :
      Number (sign ++ (integer ++ (fraction ++ exponent)))

/-! ## Members, elements and values -/

/-- The texts of a list, separated by commas. -/
def separated : List Bytes → Bytes
  | [] => []
  | [text] => text
  | text :: next :: rest => text ++ comma :: separated (next :: rest)

/-- One member of an object, with the whitespace around its parts. -/
structure Member where
  lead : Bytes
  name : Bytes
  key : Option (List Char)
  beforeColon : Bytes
  gap : Bytes
  value : Bytes
  boolean : Option Bool
  valueUnicode : Bool
  tail : Bytes

/-- One element of an array, with the whitespace around it. -/
structure Element where
  lead : Bytes
  value : Bytes
  boolean : Option Bool
  unicode : Bool
  tail : Bytes

namespace Member

/-- What stands before the value. -/
def head (m : Member) : Bytes :=
  m.lead ++ (m.name ++ (m.beforeColon ++ colon :: m.gap))

def render (m : Member) : Bytes :=
  m.head ++ (m.value ++ m.tail)

def unicode (m : Member) : Bool :=
  m.key.isSome && m.valueUnicode

/-- A member whose value is one of `V`. -/
structure Valid (L : Lexicon) (V : Bytes → Option Bool → Bool → Prop) (m : Member) : Prop where
  lead : L.Spaces m.lead
  name : L.string m.name m.key
  beforeColon : L.Spaces m.beforeColon
  gap : L.Spaces m.gap
  value : V m.value m.boolean m.valueUnicode
  tail : L.Spaces m.tail

end Member

namespace Element

def render (e : Element) : Bytes :=
  e.lead ++ (e.value ++ e.tail)

structure Valid (L : Lexicon) (V : Bytes → Option Bool → Bool → Prop) (e : Element) : Prop where
  lead : L.Spaces e.lead
  value : V e.value e.boolean e.unicode
  tail : L.Spaces e.tail

end Element

/-- No two members have the same name, as far as names denote text. -/
def Distinct (members : List Member) : Prop :=
  (members.filterMap Member.key).Nodup

/-- A value text whose parts are values of `V`: the text, its boolean if it is one,
and whether its strings denote Unicode text. -/
inductive ValueStep (L : Lexicon) (V : Bytes → Option Bool → Bool → Prop) :
    Bytes → Option Bool → Bool → Prop where
  | string {text : Bytes} {key : Option (List Char)} (token : L.string text key) :
      ValueStep L V text none key.isSome
  | number {text : Bytes} (token : Number text) : ValueStep L V text none true
  | literalTrue : ValueStep L V (ascii "true") (some true) true
  | literalFalse : ValueStep L V (ascii "false") (some false) true
  | literalNull : ValueStep L V (ascii "null") none true
  | emptyObject {inside : Bytes} (spaces : L.Spaces inside) :
      ValueStep L V (openBrace :: (inside ++ [closeBrace])) none true
  | object {members : List Member} (nonempty : members ≠ [])
      (valid : ∀ m ∈ members, m.Valid L V) (distinct : Distinct members) :
      ValueStep L V (openBrace :: (separated (members.map Member.render) ++ [closeBrace])) none
        (members.all Member.unicode)
  | emptyArray {inside : Bytes} (spaces : L.Spaces inside) :
      ValueStep L V (openBracket :: (inside ++ [closeBracket])) none true
  | array {elements : List Element} (nonempty : elements ≠ [])
      (valid : ∀ e ∈ elements, e.Valid L V) :
      ValueStep L V (openBracket :: (separated (elements.map Element.render) ++ [closeBracket])) none
        (elements.all Element.unicode)

/-- Value texts with at most so many levels of nesting. -/
def Value (L : Lexicon) : Nat → Bytes → Option Bool → Bool → Prop
  | 0 => fun _ _ _ => False
  | levels + 1 => ValueStep L (Value L levels)

/-! ## Documents -/

/-- A top-level object: its members, or the whitespace `inside` when it has none. -/
structure Document where
  lead : Bytes
  inside : Bytes
  members : List Member
  trail : Bytes

namespace Document

def body (d : Document) : Bytes :=
  if d.members = [] then d.inside else separated (d.members.map Member.render)

def render (d : Document) : Bytes :=
  d.lead ++ openBrace :: (d.body ++ closeBrace :: d.trail)

/-- All strings of the document denote Unicode text. -/
def unicode (d : Document) : Bool :=
  d.members.all Member.unicode

/-- A JSON object whose member values nest at most `levels` deep. -/
structure Valid (L : Lexicon) (levels : Nat) (d : Document) : Prop where
  lead : L.Spaces d.lead
  inside : L.Spaces d.inside
  members : ∀ m ∈ d.members, m.Valid L (Value L levels)
  distinct : Distinct d.members
  trail : L.Spaces d.trail

end Document

/-! ## From a stricter lexicon to a more lenient one -/

section Mono

variable {L M : Lexicon} {V W : Bytes → Option Bool → Bool → Prop}

theorem Member.Valid.mono (space : ∀ b, L.space b → M.space b)
    (string : ∀ text key, L.string text key → M.string text key)
    (value : ∀ text boolean unicode, V text boolean unicode → W text boolean unicode)
    {m : Member} (valid : m.Valid L V) : m.Valid M W where
  lead := fun b member => space b (valid.lead b member)
  name := string _ _ valid.name
  beforeColon := fun b member => space b (valid.beforeColon b member)
  gap := fun b member => space b (valid.gap b member)
  value := value _ _ _ valid.value
  tail := fun b member => space b (valid.tail b member)

theorem Element.Valid.mono (space : ∀ b, L.space b → M.space b)
    (value : ∀ text boolean unicode, V text boolean unicode → W text boolean unicode)
    {e : Element} (valid : e.Valid L V) : e.Valid M W where
  lead := fun b member => space b (valid.lead b member)
  value := value _ _ _ valid.value
  tail := fun b member => space b (valid.tail b member)

theorem Value.mono (space : ∀ b, L.space b → M.space b)
    (string : ∀ text key, L.string text key → M.string text key) (levels : Nat) :
    ∀ text boolean unicode, Value L levels text boolean unicode →
      Value M levels text boolean unicode := by
  induction levels with
  | zero => exact fun _ _ _ impossible => impossible
  | succ levels ih =>
      intro text boolean unicode value
      cases value with
      | string token => exact .string (string _ _ token)
      | number token => exact .number token
      | literalTrue => exact .literalTrue
      | literalFalse => exact .literalFalse
      | literalNull => exact .literalNull
      | emptyObject spaces => exact .emptyObject fun b member => space b (spaces b member)
      | object nonempty valid distinct =>
          exact .object nonempty (fun m member => (valid m member).mono space string ih) distinct
      | emptyArray spaces => exact .emptyArray fun b member => space b (spaces b member)
      | array nonempty valid =>
          exact .array nonempty fun e member => (valid e member).mono space ih

theorem Document.Valid.mono (space : ∀ b, L.space b → M.space b)
    (string : ∀ text key, L.string text key → M.string text key) {levels : Nat} {d : Document}
    (valid : d.Valid L levels) : d.Valid M levels where
  lead := fun b member => space b (valid.lead b member)
  inside := fun b member => space b (valid.inside b member)
  members := fun m member =>
    (valid.members m member).mono space string (Value.mono space string levels)
  distinct := valid.distinct
  trail := fun b member => space b (valid.trail b member)

end Mono

end Luhmen.Theory.JsonGrammar
