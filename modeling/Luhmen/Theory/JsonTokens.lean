/-
# Theory.JsonTokens -- what every token has, a text has

A JSON text is its tokens, one behind the other.  Two rules say so, both for texts
whose strings denote Unicode text:

* `Value.keeps`, `Document.keeps`: a property of byte strings that holds of every
  token and of two texts together when it holds of both, holds of a whole text;
* `Value.narrow`, `Document.narrow`: where the tokens of one lexicon that have a
  further property are tokens of another one, so are the texts.
-/
import Luhmen.Theory.JsonGrammar

namespace Luhmen.Theory.JsonGrammar

set_option autoImplicit false

/-- A byte that a text can have outside its strings and its whitespace. -/
def Mark (b : UInt8) : Prop :=
  0x20 < b ∧ b < 0x80 ∧ b ≠ quote ∧ b ≠ backslash

instance : DecidablePred Mark :=
  fun b => inferInstanceAs (Decidable (0x20 < b ∧ b < 0x80 ∧ b ≠ quote ∧ b ≠ backslash))

/-- `P` holds of every token of `L`, and of texts put together. -/
structure Lexicon.Keeps (L : Lexicon) (P : Bytes → Prop) : Prop where
  nil : P []
  append : ∀ {front back : Bytes}, P front → P back → P (front ++ back)
  mark : ∀ b, Mark b → P [b]
  space : ∀ b, L.space b → P [b]
  string : ∀ text key, L.string text (some key) → P text

/-! ## Numbers are marks -/

theorem Digit.mark {b : UInt8} (digit : Digit b) : Mark b := by
  obtain ⟨low, high⟩ := digit
  rw [UInt8.le_iff_toNat_le] at low high
  simp only [Mark, UInt8.lt_iff_toNat_lt, ne_eq, ← UInt8.toNat_inj]
  have quoteIs : quote.toNat = 0x22 := rfl
  have backslashIs : backslash.toNat = 0x5c := rfl
  rw [quoteIs, backslashIs]
  simp only [UInt8.reduceToNat] at low high ⊢
  omega

theorem Integer.marks {text : Bytes} (int : Integer text) : ∀ b ∈ text, Mark b := by
  cases int with
  | zero => exact forall_mem_of_all (by decide)
  | digits leading digits =>
      intro b member
      rcases List.mem_cons.1 member with rfl | member
      · exact Digit.mark ⟨UInt8.le_trans (by decide) leading.1, leading.2⟩
      · exact (digits b member).mark

theorem Fraction.marks {text : Bytes} (frac : Fraction text) : ∀ b ∈ text, Mark b := by
  cases frac with
  | absent => exact fun b member => absurd member List.not_mem_nil
  | present nonempty digits =>
      intro b member
      rcases List.mem_cons.1 member with rfl | member
      · decide
      · exact (digits b member).mark

theorem Exponent.marks {text : Bytes} (exp : Exponent text) : ∀ b ∈ text, Mark b := by
  cases exp with
  | absent => exact fun b member => absurd member List.not_mem_nil
  | present marked signed nonempty digits =>
      intro b member
      rcases List.mem_cons.1 member with rfl | member
      · rcases marked with rfl | rfl <;> decide
      · rcases List.mem_append.1 member with member | member
        · rcases signed with rfl | rfl | rfl
          · exact absurd member List.not_mem_nil
          · rw [List.mem_singleton.1 member]; decide
          · rw [List.mem_singleton.1 member]; decide
        · exact (digits b member).mark

theorem Number.marks {text : Bytes} (token : Number text) : ∀ b ∈ text, Mark b := by
  obtain ⟨signed, int, frac, exp⟩ := token
  intro b member
  simp only [List.mem_append] at member
  rcases member with member | member | member | member
  · rcases signed with rfl | rfl
    · exact absurd member List.not_mem_nil
    · rw [List.mem_singleton.1 member]; decide
  · exact int.marks b member
  · exact frac.marks b member
  · exact exp.marks b member

/-! ## What the tokens have -/

section Keeps

variable {L : Lexicon} {P : Bytes → Prop}

namespace Lexicon.Keeps

theorem cons (keeps : L.Keeps P) {b : UInt8} (isMark : Mark b) {text : Bytes} (holds : P text) :
    P (b :: text) :=
  keeps.append (keeps.mark b isMark) holds

theorem each (keeps : L.Keeps P) {text : Bytes} (single : ∀ b ∈ text, P [b]) : P text := by
  induction text with
  | nil => exact keeps.nil
  | cons b text ih =>
      exact keeps.append (single b List.mem_cons_self)
        (ih fun b member => single b (List.mem_cons_of_mem _ member))

theorem spaces (keeps : L.Keeps P) {text : Bytes} (spaces : L.Spaces text) : P text :=
  keeps.each fun b member => keeps.space b (spaces b member)

theorem marks (keeps : L.Keeps P) {text : Bytes} (marks : ∀ b ∈ text, Mark b) : P text :=
  keeps.each fun b member => keeps.mark b (marks b member)

theorem separated (keeps : L.Keeps P) {texts : List Bytes} (holds : ∀ text ∈ texts, P text) :
    P (separated texts) := by
  induction texts with
  | nil => exact keeps.nil
  | cons first rest ih =>
      have here := holds first List.mem_cons_self
      have others := ih fun text member => holds text (List.mem_cons_of_mem _ member)
      cases rest with
      | nil => exact here
      | cons next rest => exact keeps.append here (keeps.cons (by decide) others)

/-- An object or array: marks around what has the property. -/
theorem enclosed (keeps : L.Keeps P) {opening closing : UInt8} (opens : Mark opening)
    (closes : Mark closing) {text : Bytes} (holds : P text) :
    P (opening :: (text ++ [closing])) :=
  keeps.cons opens (keeps.append holds (keeps.mark closing closes))

theorem name (keeps : L.Keeps P) {text : Bytes} {key : Option (List Char)}
    (token : L.string text key) (unicode : key.isSome = true) : P text := by
  obtain ⟨key, rfl⟩ := Option.isSome_iff_exists.1 unicode
  exact keeps.string text key token

theorem member (keeps : L.Keeps P) {V : Bytes → Option Bool → Bool → Prop} {m : Member}
    (value : ∀ text boolean, V text boolean true → P text) (valid : m.Valid L V)
    (unicode : m.unicode = true) : P m.render := by
  obtain ⟨named, valued⟩ := Bool.and_eq_true_iff.1 unicode
  have holds := valid.value
  rw [valued] at holds
  have gap := keeps.spaces valid.gap
  refine keeps.append ?_ (keeps.append (value _ _ holds) (keeps.spaces valid.tail))
  exact keeps.append (keeps.spaces valid.lead) (keeps.append (keeps.name valid.name named)
    (keeps.append (keeps.spaces valid.beforeColon) (keeps.cons (by decide) gap)))

theorem element (keeps : L.Keeps P) {V : Bytes → Option Bool → Bool → Prop} {e : Element}
    (value : ∀ text boolean, V text boolean true → P text) (valid : e.Valid L V)
    (unicode : e.unicode = true) : P e.render := by
  have holds := valid.value
  rw [unicode] at holds
  exact keeps.append (keeps.spaces valid.lead)
    (keeps.append (value _ _ holds) (keeps.spaces valid.tail))

end Lexicon.Keeps

theorem Value.keeps (keeps : L.Keeps P) (levels : Nat) :
    ∀ text boolean, Value L levels text boolean true → P text := by
  induction levels with
  | zero => exact fun _ _ impossible => impossible.elim
  | succ levels ih =>
      intro text boolean value
      generalize unicodeIs : true = unicode at value
      cases value with
      | string token => exact keeps.name token unicodeIs.symm
      | number token => exact keeps.marks token.marks
      | literalTrue => exact keeps.marks (forall_mem_of_all (by decide))
      | literalFalse => exact keeps.marks (forall_mem_of_all (by decide))
      | literalNull => exact keeps.marks (forall_mem_of_all (by decide))
      | emptyObject spaces => exact keeps.enclosed (by decide) (by decide) (keeps.spaces spaces)
      | object nonempty valid distinct =>
          have unicodes := List.all_eq_true.1 unicodeIs.symm
          refine keeps.enclosed (by decide) (by decide) (keeps.separated ?_)
          intro text listed
          obtain ⟨m, member, rfl⟩ := List.mem_map.1 listed
          exact keeps.member ih (valid m member) (unicodes m member)
      | emptyArray spaces => exact keeps.enclosed (by decide) (by decide) (keeps.spaces spaces)
      | array nonempty valid =>
          have unicodes := List.all_eq_true.1 unicodeIs.symm
          refine keeps.enclosed (by decide) (by decide) (keeps.separated ?_)
          intro text listed
          obtain ⟨e, member, rfl⟩ := List.mem_map.1 listed
          exact keeps.element ih (valid e member) (unicodes e member)

theorem Document.keeps (keeps : L.Keeps P) {levels : Nat} {d : Document} (valid : d.Valid L levels)
    (unicode : d.unicode = true) : P d.render := by
  have unicodes := List.all_eq_true.1 unicode
  have body : P d.body := by
    unfold Document.body
    split
    · exact keeps.spaces valid.inside
    · apply keeps.separated
      intro text listed
      obtain ⟨m, member, rfl⟩ := List.mem_map.1 listed
      exact keeps.member (Value.keeps keeps levels) (valid.members m member) (unicodes m member)
  exact keeps.append (keeps.spaces valid.lead) (keeps.cons (by decide)
    (keeps.append body (keeps.cons (by decide) (keeps.spaces valid.trail))))

end Keeps

/-! ## From one lexicon to a narrower one -/

/-- `Q` is what tokens of `L` need to be tokens of `M`.  A text that has it can be cut
where texts of `L` end, which is what `P` says of what stands before the cut. -/
structure Lexicon.Narrows (L M : Lexicon) (P Q : Bytes → Prop) : Prop where
  keeps : L.Keeps P
  split : ∀ {front back : Bytes}, P front → Q (front ++ back) → Q front ∧ Q back
  space : ∀ b, L.space b → Q [b] → M.space b
  string : ∀ text key, L.string text (some key) → Q text → M.string text (some key)

section Narrow

variable {L M : Lexicon} {P Q : Bytes → Prop}

namespace Lexicon.Narrows

theorem tail (narrows : L.Narrows M P Q) {b : UInt8} (isMark : Mark b) {text : Bytes}
    (clean : Q (b :: text)) : Q text :=
  (@split L M P Q narrows [b] text (narrows.keeps.mark b isMark) clean).2

theorem spaces (narrows : L.Narrows M P Q) {text : Bytes} (spaces : L.Spaces text)
    (clean : Q text) : M.Spaces text := by
  induction text with
  | nil => exact fun b member => absurd member List.not_mem_nil
  | cons b text ih =>
      have first := spaces b List.mem_cons_self
      obtain ⟨here, further⟩ := @split L M P Q narrows [b] text (narrows.keeps.space b first) clean
      intro c member
      rcases List.mem_cons.1 member with rfl | member
      · exact narrows.space c first here
      · exact ih (fun b member => spaces b (List.mem_cons_of_mem _ member)) further c member

theorem separated (narrows : L.Narrows M P Q) {texts : List Bytes}
    (holds : ∀ text ∈ texts, P text) (clean : Q (separated texts)) : ∀ text ∈ texts, Q text := by
  induction texts with
  | nil => exact fun text member => absurd member List.not_mem_nil
  | cons first rest ih =>
      have here := holds first List.mem_cons_self
      cases rest with
      | nil =>
          intro text member
          rw [List.mem_singleton.1 member]
          exact clean
      | cons next rest =>
          obtain ⟨cleanFirst, behind⟩ := narrows.split here clean
          have others := ih (fun text member => holds text (List.mem_cons_of_mem _ member))
            (narrows.tail (by decide) behind)
          intro text member
          rcases List.mem_cons.1 member with rfl | member
          · exact cleanFirst
          · exact others text member

theorem name (narrows : L.Narrows M P Q) {text : Bytes} {key : Option (List Char)}
    (token : L.string text key) (unicode : key.isSome = true) (clean : Q text) :
    M.string text key := by
  obtain ⟨key, rfl⟩ := Option.isSome_iff_exists.1 unicode
  exact narrows.string text key token clean

theorem member (narrows : L.Narrows M P Q) {V W : Bytes → Option Bool → Bool → Prop} {m : Member}
    (holds : ∀ text boolean, V text boolean true → P text)
    (value : ∀ text boolean, V text boolean true → Q text → W text boolean true)
    (valid : m.Valid L V) (unicode : m.unicode = true) (clean : Q m.render) : m.Valid M W := by
  obtain ⟨named, valued⟩ := Bool.and_eq_true_iff.1 unicode
  have here := valid.value
  rw [valued] at here
  rw [Member.render, Member.head, List.append_assoc] at clean
  obtain ⟨cleanLead, clean⟩ := narrows.split (narrows.keeps.spaces valid.lead) clean
  rw [List.append_assoc] at clean
  obtain ⟨cleanName, clean⟩ := narrows.split (narrows.keeps.name valid.name named) clean
  rw [List.append_assoc] at clean
  obtain ⟨cleanColon, clean⟩ := narrows.split (narrows.keeps.spaces valid.beforeColon) clean
  obtain ⟨cleanGap, clean⟩ := narrows.split (narrows.keeps.spaces valid.gap)
    (narrows.tail (by decide) clean)
  obtain ⟨cleanValue, cleanTail⟩ := narrows.split (holds _ _ here) clean
  exact
    { lead := narrows.spaces valid.lead cleanLead
      name := narrows.name valid.name named cleanName
      beforeColon := narrows.spaces valid.beforeColon cleanColon
      gap := narrows.spaces valid.gap cleanGap
      value := valued ▸ value _ _ here cleanValue
      tail := narrows.spaces valid.tail cleanTail }

theorem element (narrows : L.Narrows M P Q) {V W : Bytes → Option Bool → Bool → Prop} {e : Element}
    (holds : ∀ text boolean, V text boolean true → P text)
    (value : ∀ text boolean, V text boolean true → Q text → W text boolean true)
    (valid : e.Valid L V) (unicode : e.unicode = true) (clean : Q e.render) : e.Valid M W := by
  have here := valid.value
  rw [unicode] at here
  obtain ⟨cleanLead, clean⟩ := narrows.split (narrows.keeps.spaces valid.lead) clean
  obtain ⟨cleanValue, cleanTail⟩ := narrows.split (holds _ _ here) clean
  exact
    { lead := narrows.spaces valid.lead cleanLead
      value := unicode ▸ value _ _ here cleanValue
      tail := narrows.spaces valid.tail cleanTail }

theorem members (narrows : L.Narrows M P Q) {V W : Bytes → Option Bool → Bool → Prop}
    {members : List Member} (holds : ∀ text boolean, V text boolean true → P text)
    (value : ∀ text boolean, V text boolean true → Q text → W text boolean true)
    (valid : ∀ m ∈ members, m.Valid L V) (unicode : ∀ m ∈ members, m.unicode = true)
    (clean : Q (JsonGrammar.separated (members.map Member.render))) :
    ∀ m ∈ members, m.Valid M W := by
  intro m member
  refine narrows.member holds value (valid m member) (unicode m member) ?_
  refine narrows.separated ?_ clean m.render (List.mem_map_of_mem member)
  intro text listed
  obtain ⟨other, member, rfl⟩ := List.mem_map.1 listed
  exact narrows.keeps.member holds (valid other member) (unicode other member)

end Lexicon.Narrows

theorem Value.narrow (narrows : L.Narrows M P Q) (levels : Nat) :
    ∀ text boolean, Value L levels text boolean true → Q text →
      Value M levels text boolean true := by
  induction levels with
  | zero => exact fun _ _ impossible _ => impossible
  | succ levels ih =>
      intro text boolean value clean
      have keeps := narrows.keeps
      have holds := Value.keeps keeps levels
      generalize unicodeIs : true = unicode at value ⊢
      cases value with
      | string token => exact .string (narrows.name token unicodeIs.symm clean)
      | number token => exact .number token
      | literalTrue => exact .literalTrue
      | literalFalse => exact .literalFalse
      | literalNull => exact .literalNull
      | emptyObject spaces =>
          have inside := narrows.tail (by decide) clean
          exact .emptyObject (narrows.spaces spaces (narrows.split (keeps.spaces spaces) inside).1)
      | @object members nonempty valid distinct =>
          have unicodes := List.all_eq_true.1 unicodeIs.symm
          have whole : P (separated (members.map Member.render)) := by
            apply keeps.separated
            intro text listed
            obtain ⟨m, member, rfl⟩ := List.mem_map.1 listed
            exact keeps.member holds (valid m member) (unicodes m member)
          have inside := (narrows.split whole (narrows.tail (by decide) clean)).1
          exact .object nonempty (narrows.members holds ih valid unicodes inside) distinct
      | emptyArray spaces =>
          have inside := narrows.tail (by decide) clean
          exact .emptyArray (narrows.spaces spaces (narrows.split (keeps.spaces spaces) inside).1)
      | @array elements nonempty valid =>
          have unicodes := List.all_eq_true.1 unicodeIs.symm
          have each : ∀ text ∈ elements.map Element.render, P text := by
            intro text listed
            obtain ⟨e, member, rfl⟩ := List.mem_map.1 listed
            exact keeps.element holds (valid e member) (unicodes e member)
          have inside := (narrows.split (keeps.separated each) (narrows.tail (by decide) clean)).1
          refine .array nonempty fun e member => ?_
          exact narrows.element holds ih (valid e member) (unicodes e member)
            (narrows.separated each inside e.render (List.mem_map_of_mem member))

/-- The whitespace of an empty object does not count when there are members. -/
theorem Document.narrow (narrows : L.Narrows M P Q) {levels : Nat} {d : Document}
    (valid : d.Valid L levels) (unicode : d.unicode = true) (clean : Q d.render) :
    ∃ e : Document, e.Valid M levels ∧ e.unicode = true ∧ e.render = d.render := by
  have keeps := narrows.keeps
  have unicodes := List.all_eq_true.1 unicode
  have holds := Value.keeps keeps levels
  obtain ⟨cleanLead, clean⟩ := narrows.split (keeps.spaces valid.lead) clean
  have clean := narrows.tail (by decide) clean
  have lead := narrows.spaces valid.lead cleanLead
  by_cases empty : d.members = []
  · rw [Document.body, if_pos empty] at clean
    obtain ⟨cleanInside, clean⟩ := narrows.split (keeps.spaces valid.inside) clean
    have trail := narrows.spaces valid.trail (narrows.tail (by decide) clean)
    refine ⟨d, ⟨lead, narrows.spaces valid.inside cleanInside, ?_, valid.distinct, trail⟩,
      unicode, rfl⟩
    simp [empty]
  · have whole : P (separated (d.members.map Member.render)) := by
      apply keeps.separated
      intro text listed
      obtain ⟨m, member, rfl⟩ := List.mem_map.1 listed
      exact keeps.member holds (valid.members m member) (unicodes m member)
    rw [Document.body, if_neg empty] at clean
    obtain ⟨cleanBody, clean⟩ := narrows.split whole clean
    have trail := narrows.spaces valid.trail (narrows.tail (by decide) clean)
    have members := narrows.members holds (Value.narrow narrows levels) valid.members unicodes
      cleanBody
    refine ⟨{ d with inside := [] }, ⟨lead, ?_, members, valid.distinct, trail⟩, unicode, ?_⟩
    · exact fun b member => absurd member List.not_mem_nil
    · simp [Document.render, Document.body, empty]

end Narrow

end Luhmen.Theory.JsonGrammar
