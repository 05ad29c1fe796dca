/-
# Theory.JsonRoundTrip -- documents that are printed and read back

The indented text of `Theory.JsonPrint` spells its document (`spells_print`), so that is
what is read from it, as long as the numbers are whole and the nesting is allowed
(`Plain`).  Read as a value, a document has its objects ordered (`normal`); printing such
a value and reading it again gives the same value (`valueOf_pretty`).
-/
import Luhmen.Theory.JsonPrint
import Luhmen.Theory.JsonRead

namespace Luhmen.Theory.Json

set_option autoImplicit false

variable {F : Type} (float : List Char → Option F)

/-! ## The indented text -/

mutual

/-- Nested no deeper than `levels`, with whole numbers of 64 bits, and others where there
may be `floats`. -/
def Within (floats : Prop) : Nat → Json F → Prop
  | _, .null | _, .bool _ | _, .string _ => True
  | _, .int n => Whole n
  | _, .float _ => floats
  | 0, .array _ | 0, .object _ => False
  | levels + 1, .array items => ItemsWithin floats levels items
  | levels + 1, .object members => MembersWithin floats levels members

def ItemsWithin (floats : Prop) : Nat → List (Json F) → Prop
  | _, [] => True
  | levels, item :: items => Within floats levels item ∧ ItemsWithin floats levels items

def MembersWithin (floats : Prop) : Nat → List (String × Json F) → Prop
  | _, [] => True
  | levels, (_, value) :: members => Within floats levels value ∧ MembersWithin floats levels members

end

/-- All numbers are whole. -/
abbrev Plain (levels : Nat) (v : Json F) : Prop :=
  Within False levels v

theorem itemsWithin_iff {floats : Prop} {levels : Nat} {items : List (Json F)} :
    ItemsWithin floats levels items ↔ ∀ v ∈ items, v.Within floats levels := by
  induction items with
  | nil => simp [ItemsWithin]
  | cons v rest ih => rw [ItemsWithin, List.forall_mem_cons, ih]

theorem membersWithin_iff {floats : Prop} {levels : Nat} {members : List (String × Json F)} :
    MembersWithin floats levels members ↔ ∀ m ∈ members, m.2.Within floats levels := by
  induction members with
  | nil => simp [MembersWithin]
  | cons m rest ih => rw [MembersWithin, List.forall_mem_cons, ih]

theorem blank_nil : Blank [] :=
  fun _ member => nomatch member

theorem blank_space : Blank [' '] :=
  fun _ member => List.mem_singleton.1 member ▸ rfl

theorem blank_newline (depth : Nat) : Blank (newline depth) := by
  intro c member
  rcases List.mem_cons.1 member with rfl | blank
  · rfl
  · rw [List.eq_of_mem_replicate blank]
    rfl

theorem readEscape_control {n : Nat} (low : n < 0x20) (rest : List Char) :
    readEscape ('u' :: '0' :: '0' :: hexDigitChar (n / 16) :: hexDigitChar (n % 16) :: rest) =
      some (Char.ofNat n, rest) := by
  have digits : ∀ n < 0x20, hexDigitValue (hexDigitChar (n / 16)) = some (n / 16) ∧
      hexDigitValue (hexDigitChar (n % 16)) = some (n % 16) := by decide
  obtain ⟨high, small⟩ := digits n low
  have unit : readUnit ('0' :: '0' :: hexDigitChar (n / 16) :: hexDigitChar (n % 16) :: rest) =
      some (n, rest) := by
    have zero : hexDigitValue '0' = some 0 := rfl
    have sum : ((0 * 16 + 0) * 16 + n / 16) * 16 + n % 16 = n := by omega
    simp only [readUnit, zero, high, small, Option.bind_eq_bind, Option.bind_some, sum]
  have noSurrogate : ¬ (0xd800 ≤ n ∧ n < 0xdc00) ∧ ¬ (0xdc00 ≤ n ∧ n < 0xe000) := by omega
  rw [readEscape]
  simp only [unit, Option.bind_eq_bind, Option.bind_some, noSurrogate, if_false]
  rfl

theorem letters_escape (c : Char) {chars text : List Char} (spelled : Letters chars text) :
    Letters (c :: chars) (escape c ++ text) := by
  have short : ∀ (d : Char) (letter : Char), (∀ rest, readEscape (letter :: rest) = some (d, rest)) →
      Letters (d :: chars) (['\\', letter] ++ text) :=
    fun d letter reads => @Letters.escaped d [letter] chars text reads spelled
  unfold escape
  split
  · subst_vars; exact short _ _ fun _ => rfl
  split
  · subst_vars; exact short _ _ fun _ => rfl
  split
  · subst_vars; exact short _ _ fun _ => rfl
  split
  · subst_vars; exact short _ _ fun _ => rfl
  split
  · subst_vars; exact short _ _ fun _ => rfl
  split
  · rename_i is
    rw [← Char.ofNat_toNat c, is]
    exact short _ _ fun _ => rfl
  split
  · rename_i is
    rw [← Char.ofNat_toNat c, is]
    exact short _ _ fun _ => rfl
  split
  · rename_i low
    refine @Letters.escaped c ['u', '0', '0', _, _] chars text (fun rest => ?_) spelled
    have reads := readEscape_control low rest
    rwa [Char.ofNat_toNat] at reads
  · rename_i noQuote noBackslash _ _ _ _ _ high
    exact Letters.plain ⟨noQuote, noBackslash, Nat.le_of_not_lt high⟩ spelled

theorem letters_printed (chars : List Char) : Letters chars (chars.flatMap escape) := by
  induction chars with
  | nil => exact .nil
  | cons c rest ih => exact letters_escape c ih

variable (shown : F → List Char)

mutual

theorem spells_print : ∀ (levels : Nat) (v : Json F) (depth : Nat), Plain levels v →
    Spells levels v (print shown depth v)
  | _, .null, _, _ => .null
  | _, .bool true, _, _ => .yes
  | _, .bool false, _, _ => .no
  | _, .int n, _, whole => .int (by simpa only [Within] using whole)
  | _, .float _, _, plain => by simp only [Within] at plain
  | _, .string text, _, _ => .string (letters_printed text.toList)
  | 0, .array _, _, plain => by simp only [Within] at plain
  | 0, .object _, _, plain => by simp only [Within] at plain
  | levels + 1, .array [], _, _ => @Spells.noItems F levels [] blank_nil
  | levels + 1, .object [], _, _ => @Spells.noMembers F levels [] blank_nil
  | levels + 1, .array (item :: items), depth, plain => by
      simp only [Within, ItemsWithin] at plain
      exact .array (spells_printItems levels item items depth plain.1 plain.2)
  | levels + 1, .object ((name, value) :: members), depth, plain => by
      simp only [Within, MembersWithin] at plain
      have spelled := spells_printMembers levels name value members depth plain.1 plain.2
      simp only [print, printString, List.cons_append, List.append_assoc, List.nil_append]
      exact .object spelled

theorem spells_printItems : ∀ (levels : Nat) (item : Json F) (items : List (Json F)) (depth : Nat),
    Plain levels item → ItemsWithin False levels items →
    SpellsItems levels (item :: items) (newline (depth + 1) ++ (print shown (depth + 1) item ++
      (printItems shown (depth + 1) items ++ (newline depth ++ [']']))))
  | levels, item, [], depth, plain, _ =>
      .last (blank_newline _) (spells_print levels item _ plain) (blank_newline depth)
  | levels, item, second :: items, depth, plain, others => by
      simp only [ItemsWithin] at others
      have rest := spells_printItems levels second items depth others.1 others.2
      simp only [printItems, List.cons_append, List.append_assoc]
      exact @SpellsItems.more F levels item _ _ _ [] _ (blank_newline _)
        (spells_print levels item _ plain) blank_nil rest

theorem spells_printMembers : ∀ (levels : Nat) (name : String) (value : Json F)
    (members : List (String × Json F)) (depth : Nat), Plain levels value →
    MembersWithin False levels members →
    SpellsMembers levels ((name, value) :: members) (newline (depth + 1) ++ '"' ::
      (name.toList.flatMap escape ++ '"' :: ':' :: ' ' :: (print shown (depth + 1) value ++
        (printMembers shown (depth + 1) members ++ (newline depth ++ [closeBrace])))))
  | levels, name, value, [], depth, plain, _ =>
      @SpellsMembers.last F levels name value _ _ [] [' '] _ _ (blank_newline _) (letters_printed _)
        blank_nil blank_space (spells_print levels value _ plain) (blank_newline depth)
  | levels, name, value, (second, other) :: members, depth, plain, others => by
      simp only [MembersWithin] at others
      have rest := spells_printMembers levels second other members depth others.1 others.2
      simp only [printMembers, printString, List.cons_append, List.append_assoc, List.nil_append]
      exact @SpellsMembers.more F levels name value _ _ _ [] [' '] _ [] _ (blank_newline _)
        (letters_printed _) blank_nil blank_space (spells_print levels value _ plain) blank_nil rest

end

/-- The indented text is read back. -/
theorem read_print {v : Json F} (plain : Plain depthLimit v) :
    read float (print shown 0 v) = some v := by
  simpa using @read_spells F float v [] _ [] blank_nil (spells_print shown depthLimit v 0 plain)
    blank_nil

/-! ## How long the text is -/

section Room

mutual

/-- No fewer bytes than the text has. -/
def room (depth : Nat) : Json F → Nat
  | .null | .bool _ => 5
  | .int value => (toString value).toList.length
  | .float value => (Utf8.encode (shown value)).length
  | .string text => 6 * text.utf8ByteSize + 2
  | .array items => itemsRoom (depth + 1) items + 2 * depth + 3
  | .object members => membersRoom (depth + 1) members + 2 * depth + 3

def itemsRoom (depth : Nat) : List (Json F) → Nat
  | [] => 0
  | item :: items => item.room depth + 2 * depth + 2 + itemsRoom depth items

def membersRoom (depth : Nat) : List (String × Json F) → Nat
  | [] => 0
  | (name, value) :: members =>
      6 * name.utf8ByteSize + value.room depth + 2 * depth + 6 + membersRoom depth members

end

theorem length_encode_append (front back : List Char) :
    (Utf8.encode (front ++ back)).length = (Utf8.encode front).length + (Utf8.encode back).length := by
  rw [Utf8.encode, List.flatMap_append, List.length_append]
  rfl

/-- Characters of one byte. -/
theorem length_encode_ascii {text : List Char} (small : ∀ c ∈ text, c.toNat < 0x80) :
    (Utf8.encode text).length = text.length := by
  induction text with
  | nil => rfl
  | cons c rest ih =>
      rw [Utf8.encode_cons, List.length_append, Utf8.utf8EncodeChar_ascii (small c List.mem_cons_self),
        ih fun d member => small d (List.mem_cons_of_mem _ member)]
      exact Nat.add_comm 1 rest.length

theorem length_encode_newline (depth : Nat) :
    (Utf8.encode (newline depth)).length = 2 * depth + 1 := by
  rw [length_encode_ascii, newline, List.length_cons, List.length_replicate]
  intro c member
  rcases List.mem_cons.1 member with rfl | blank
  · decide
  · rw [List.eq_of_mem_replicate blank]
    decide

theorem length_encode_escape (c : Char) : (Utf8.encode (escape c)).length ≤ 6 := by
  unfold escape
  split
  · decide
  split
  · decide
  split
  · decide
  split
  · decide
  split
  · decide
  split
  · decide
  split
  · decide
  split
  · rename_i low
    have digits : ∀ n < 0x20, (Utf8.encode ['\\', 'u', '0', '0', hexDigitChar (n / 16),
        hexDigitChar (n % 16)]).length ≤ 6 := by decide
    exact digits _ low
  · have size : (String.utf8EncodeChar c).length ≤ 4 := by
      rw [String.length_utf8EncodeChar]
      exact Char.utf8Size_le_four c
    simpa using Nat.le_trans size (by decide)

theorem utf8ByteSize_ofList (text : List Char) :
    (String.ofList text).utf8ByteSize = (Utf8.encode text).length := by
  show (List.flatMap String.utf8EncodeChar text).toByteArray.size = _
  rw [List.size_toByteArray]
  rfl

theorem length_le_utf8ByteSize (text : String) : text.toList.length ≤ text.utf8ByteSize := by
  have size := utf8ByteSize_ofList text.toList
  rw [String.ofList_toList] at size
  rw [size]
  exact Utf8.length_le_encode text.toList

theorem length_encode_printString (text : String) :
    (Utf8.encode (printString text)).length ≤ 6 * text.utf8ByteSize + 2 := by
  have chars : ∀ l : List Char, (Utf8.encode (l.flatMap escape)).length ≤ 6 * l.length := by
    intro l
    induction l with
    | nil => exact Nat.le_refl _
    | cons c rest ih =>
        have here := length_encode_escape c
        rw [List.flatMap_cons, length_encode_append, List.length_cons]
        omega
  have quote : (Utf8.encode ['"']).length = 1 := rfl
  have inside := chars text.toList
  have size := length_le_utf8ByteSize text
  rw [printString, ← List.singleton_append, length_encode_append, length_encode_append, quote]
  omega

theorem length_encode_int (n : Int) :
    (Utf8.encode (toString n).toList).length = (toString n).toList.length := by
  apply length_encode_ascii
  have digits : ∀ (n : Nat) (c : Char), c ∈ Nat.toDigits 10 n → c.toNat < 0x80 := by
    intro n c member
    have := (digit_byte (isDigit_of_mem_toDigits member)).2.2
    omega
  intro c member
  cases n with
  | ofNat n =>
      rw [Int.ofNat_eq_natCast, toList_natural] at member
      exact digits n c member
  | negSucc n =>
      rw [toList_negative] at member
      rcases List.mem_cons.1 member with rfl | digit
      · decide
      · exact digits _ c digit

mutual

theorem length_print (depth : Nat) : ∀ v : Json F,
    (Utf8.encode (print shown depth v)).length ≤ v.room shown depth
  | .null | .bool true | .bool false => by
      simp only [print, room]
      decide
  | .int n => by
      simp only [print, room]
      exact Nat.le_of_eq (length_encode_int n)
  | .float value => by
      simp only [print, room]
      exact Nat.le_refl (Utf8.encode (shown value)).length
  | .string text => by
      rw [print, room]
      exact length_encode_printString text
  | .array [] => by
      simp only [print, room, itemsRoom]
      have : (Utf8.encode ['[', ']']).length = 2 := rfl
      omega
  | .object [] => by
      simp only [print, room, membersRoom]
      have : (Utf8.encode [Char.ofNat 0x7b, Char.ofNat 0x7d]).length = 2 := rfl
      omega
  | .array (item :: items) => by
      have first := length_print (depth + 1) item
      have rest := length_printItems (depth + 1) items
      have bracket : ∀ rest, (Utf8.encode ('[' :: rest)).length = 1 + (Utf8.encode rest).length :=
        fun rest => length_encode_append ['['] rest
      have closing : (Utf8.encode [']']).length = 1 := rfl
      simp only [print, room, itemsRoom, bracket, length_encode_append, length_encode_newline, closing]
      omega
  | .object ((name, value) :: members) => by
      have key := length_encode_printString name
      have first := length_print (depth + 1) value
      have rest := length_printMembers (depth + 1) members
      have brace : ∀ rest, (Utf8.encode (Char.ofNat 0x7b :: rest)).length =
          1 + (Utf8.encode rest).length :=
        fun rest => length_encode_append [Char.ofNat 0x7b] rest
      have colon : ∀ rest, (Utf8.encode (':' :: ' ' :: rest)).length = 2 + (Utf8.encode rest).length :=
        fun rest => length_encode_append [':', ' '] rest
      have closing : (Utf8.encode [Char.ofNat 0x7d]).length = 1 := rfl
      simp only [print, room, membersRoom, brace, colon, length_encode_append, length_encode_newline,
        closing]
      omega

theorem length_printItems (depth : Nat) : ∀ items : List (Json F),
    (Utf8.encode (printItems shown depth items)).length ≤ itemsRoom shown depth items
  | [] => Nat.le_refl _
  | item :: items => by
      have first := length_print depth item
      have rest := length_printItems depth items
      have comma : ∀ rest, (Utf8.encode (',' :: rest)).length = 1 + (Utf8.encode rest).length :=
        fun rest => length_encode_append [','] rest
      simp only [printItems, itemsRoom, comma, length_encode_append, length_encode_newline]
      omega

theorem length_printMembers (depth : Nat) : ∀ members : List (String × Json F),
    (Utf8.encode (printMembers shown depth members)).length ≤ membersRoom shown depth members
  | [] => Nat.le_refl _
  | (name, value) :: members => by
      have key := length_encode_printString name
      have first := length_print depth value
      have rest := length_printMembers depth members
      have comma : ∀ rest, (Utf8.encode (',' :: rest)).length = 1 + (Utf8.encode rest).length :=
        fun rest => length_encode_append [','] rest
      have colon : ∀ rest, (Utf8.encode (':' :: ' ' :: rest)).length = 2 + (Utf8.encode rest).length :=
        fun rest => length_encode_append [':', ' '] rest
      simp only [printMembers, membersRoom, comma, colon, length_encode_append, length_encode_newline]
      omega

end

theorem length_pretty (v : Json F) : (pretty shown v).length ≤ v.room shown 0 :=
  length_print shown 0 v

end Room

/-! ## Ordered documents

A document that is kept as a value has its objects ordered by name, and of two members
with one name the later. -/

mutual

def normal : Json F → Json F
  | .array items => .array (normalItems items)
  | .object members => ofMembers (normalMembers members)
  | v => v

def normalItems : List (Json F) → List (Json F)
  | [] => []
  | item :: items => item.normal :: normalItems items

def normalMembers : List (String × Json F) → List (String × Json F)
  | [] => []
  | (name, value) :: members => (name, value.normal) :: normalMembers members

end

/-- In the order of the names, each once. -/
def Sorted (members : List (String × Json F)) : Prop :=
  members.Pairwise fun first second => first.1.toList < second.1.toList

mutual

def Ordered : Json F → Prop
  | .array items => OrderedItems items
  | .object members => Sorted members ∧ OrderedMembers members
  | _ => True

def OrderedItems : List (Json F) → Prop
  | [] => True
  | item :: items => Ordered item ∧ OrderedItems items

def OrderedMembers : List (String × Json F) → Prop
  | [] => True
  | (_, value) :: members => Ordered value ∧ OrderedMembers members

end

theorem orderedMembers_iff {members : List (String × Json F)} :
    OrderedMembers members ↔ ∀ m ∈ members, m.2.Ordered := by
  induction members with
  | nil => simp [OrderedMembers]
  | cons m rest ih => rw [OrderedMembers, List.forall_mem_cons, ih]

theorem orderedItems_iff {items : List (Json F)} : OrderedItems items ↔ ∀ v ∈ items, v.Ordered := by
  induction items with
  | nil => simp [OrderedItems]
  | cons v rest ih => rw [OrderedItems, List.forall_mem_cons, ih]

theorem mem_insert {name : String} {value : Json F} {members : List (String × Json F)}
    {m : String × Json F} (member : m ∈ insert name value members) :
    m = (name, value) ∨ m ∈ members := by
  induction members with
  | nil => exact .inl (List.mem_singleton.1 member)
  | cons first rest ih =>
      obtain ⟨key, other⟩ := first
      simp only [insert] at member
      split at member
      · exact (List.mem_cons.1 member).imp id (List.mem_cons_of_mem _)
      split at member
      · exact List.mem_cons.1 member
      · rcases List.mem_cons.1 member with rfl | later
        · exact .inr List.mem_cons_self
        · exact (ih later).imp id (List.mem_cons_of_mem _)

theorem sorted_insert {name : String} {value : Json F} {members : List (String × Json F)}
    (sorted : Sorted members) : Sorted (insert name value members) := by
  induction members with
  | nil => exact List.pairwise_singleton _ _
  | cons first rest ih =>
      obtain ⟨key, other⟩ := first
      obtain ⟨before, sorted⟩ := List.pairwise_cons.1 sorted
      simp only [insert]
      split
      · rename_i same
        subst same
        exact List.pairwise_cons.2 ⟨before, sorted⟩
      split
      · rename_i less
        refine List.pairwise_cons.2 ⟨?_, List.pairwise_cons.2 ⟨before, sorted⟩⟩
        intro m member
        rcases List.mem_cons.1 member with rfl | later
        · exact less
        · exact List.lt_trans less (before m later)
      · rename_i apart notLess
        refine List.pairwise_cons.2 ⟨?_, ih sorted⟩
        intro m member
        rcases mem_insert member with rfl | later
        · have differ : key.toList ≠ name.toList := fun same => apart (String.toList_inj.1 same)
          exact Decidable.byContradiction fun no =>
            differ (List.le_antisymm (List.not_lt.1 notLess) (List.not_lt.1 no))
        · exact before m later

theorem insert_last {name : String} {value : Json F} {members : List (String × Json F)}
    (before : ∀ m ∈ members, m.1.toList < name.toList) :
    insert name value members = members ++ [(name, value)] := by
  induction members with
  | nil => rfl
  | cons first rest ih =>
      obtain ⟨key, other⟩ := first
      have less : key.toList < name.toList := before _ List.mem_cons_self
      have differ : key ≠ name := by
        rintro rfl
        exact List.lt_irrefl _ less
      rw [insert, if_neg differ, if_neg (List.lt_asymm less),
        ih fun m member => before m (List.mem_cons_of_mem _ member)]
      rfl

/-- Members in order stay as they are. -/
theorem ofMembers_sorted {members : List (String × Json F)} (sorted : Sorted members) :
    ofMembers members = .object members := by
  have inserted : ∀ (rest front : List (String × Json F)), Sorted (front ++ rest) →
      rest.foldl (fun map m => insert m.1 m.2 map) front = front ++ rest := by
    intro rest
    induction rest with
    | nil => exact fun front _ => (List.append_nil front).symm
    | cons m rest ih =>
        intro front sorted
        have before : ∀ other ∈ front, other.1.toList < m.1.toList := fun other member =>
          (List.pairwise_append.1 sorted).2.2 other member m List.mem_cons_self
        rw [List.foldl_cons, insert_last before, ih _ (by simpa using sorted)]
        simp
  rw [ofMembers, inserted members [] sorted]
  rfl

mutual

theorem normal_ordered : ∀ v : Json F, v.Ordered → v.normal = v
  | .null, _ | .bool _, _ | .int _, _ | .float _, _ | .string _, _ => by simp only [normal]
  | .array items, ordered => by
      simp only [Ordered] at ordered
      rw [normal, normalItems_ordered items ordered]
  | .object members, ordered => by
      simp only [Ordered] at ordered
      rw [normal, normalMembers_ordered members ordered.2, ofMembers_sorted ordered.1]

theorem normalItems_ordered : ∀ items : List (Json F), OrderedItems items →
    normalItems items = items
  | [], _ => rfl
  | item :: items, ordered => by
      simp only [OrderedItems] at ordered
      rw [normalItems, normal_ordered item ordered.1, normalItems_ordered items ordered.2]

theorem normalMembers_ordered : ∀ members : List (String × Json F), OrderedMembers members →
    normalMembers members = members
  | [], _ => rfl
  | (name, value) :: members, ordered => by
      simp only [OrderedMembers] at ordered
      rw [normalMembers, normal_ordered value ordered.1, normalMembers_ordered members ordered.2]

end

/-- What is put into a map is ordered, in whatever order it came. -/
theorem ordered_ofMembers {members : List (String × Json F)} (ordered : ∀ m ∈ members, m.2.Ordered) :
    (ofMembers members).Ordered := by
  have all : ∀ (rest front : List (String × Json F)), Sorted front →
      (∀ m ∈ front, m.2.Ordered) → (∀ m ∈ rest, m.2.Ordered) →
      Sorted (rest.foldl (fun map m => insert m.1 m.2 map) front) ∧
        ∀ m ∈ rest.foldl (fun map m => insert m.1 m.2 map) front, m.2.Ordered := by
    intro rest
    induction rest with
    | nil => exact fun front sorted here _ => ⟨sorted, here⟩
    | cons m rest ih =>
        intro front sorted here there
        refine ih _ (sorted_insert sorted) (fun other member => ?_)
          fun other member => there other (List.mem_cons_of_mem _ member)
        rcases mem_insert member with rfl | inFront
        · exact there m List.mem_cons_self
        · exact here other inFront
  obtain ⟨sorted, values⟩ := all members [] List.Pairwise.nil (fun m member => nomatch member) ordered
  exact ⟨sorted, orderedMembers_iff.2 values⟩

/-- It nests no deeper than its members. -/
theorem within_ofMembers {floats : Prop} {levels : Nat} {members : List (String × Json F)}
    (within : ∀ m ∈ members, m.2.Within floats levels) :
    (ofMembers members).Within floats (levels + 1) := by
  have all : ∀ (rest front : List (String × Json F)), (∀ m ∈ front, m.2.Within floats levels) →
      (∀ m ∈ rest, m.2.Within floats levels) →
      ∀ m ∈ rest.foldl (fun map m => insert m.1 m.2 map) front, m.2.Within floats levels := by
    intro rest
    induction rest with
    | nil => exact fun front here _ => here
    | cons m rest ih =>
        intro front here there
        refine ih _ (fun other member => ?_)
          fun other member => there other (List.mem_cons_of_mem _ member)
        rcases mem_insert member with rfl | inFront
        · exact there m List.mem_cons_self
        · exact here other inFront
  simp only [ofMembers, Within]
  exact membersWithin_iff.2 (all members [] (fun _ member => absurd member List.not_mem_nil) within)

theorem within_array {floats : Prop} {levels : Nat} {items : List (Json F)}
    (within : ∀ v ∈ items, v.Within floats levels) : (array items).Within floats (levels + 1) := by
  simp only [Within]
  exact itemsWithin_iff.2 within

/-- A value that stays what it is when it is printed and read. -/
def Kept (levels : Nat) (v : Json F) : Prop :=
  v.Plain levels ∧ v.Ordered

theorem kept_string {levels : Nat} (text : String) : (string text : Json F).Kept levels :=
  ⟨by simp only [Plain, Within], by simp only [Ordered]⟩

theorem kept_bool {levels : Nat} (value : Bool) : (bool value : Json F).Kept levels :=
  ⟨by simp only [Plain, Within], by simp only [Ordered]⟩

theorem kept_int {levels : Nat} {n : Int} (whole : Whole n) : (int n : Json F).Kept levels :=
  ⟨by simpa only [Plain, Within] using whole, by simp only [Ordered]⟩

theorem kept_array {levels : Nat} {items : List (Json F)} (kept : ∀ v ∈ items, v.Kept levels) :
    (array items).Kept (levels + 1) := by
  refine ⟨within_array fun v member => (kept v member).1, ?_⟩
  rw [Ordered]
  exact orderedItems_iff.2 fun v member => (kept v member).2

theorem kept_ofMembers {levels : Nat} {members : List (String × Json F)}
    (kept : ∀ m ∈ members, m.2.Kept levels) : (ofMembers members).Kept (levels + 1) :=
  ⟨within_ofMembers fun m member => (kept m member).1, ordered_ofMembers fun m member => (kept m member).2⟩

theorem kept_set {levels : Nat} {v value : Json F} (name : String) (kept : v.Kept (levels + 1))
    (put : value.Kept levels) : (v.set name value).Kept (levels + 1) := by
  cases v with
  | object members =>
      obtain ⟨plain, ordered⟩ := kept
      rw [Plain, Within] at plain
      rw [Ordered] at ordered
      refine ⟨membersWithin_iff.2 fun m member => ?_, sorted_insert ordered.1,
        orderedMembers_iff.2 fun m member => ?_⟩
      · rcases mem_insert member with rfl | later
        · exact put.1
        · exact membersWithin_iff.1 plain m later
      · rcases mem_insert member with rfl | later
        · exact put.2
        · exact orderedMembers_iff.1 ordered.2 m later
  | _ => exact kept

/-- Nothing stands under a name before all others. -/
theorem find_before {name : String} {members : List (String × Json F)}
    (before : ∀ m ∈ members, name.toList < m.1.toList) : find name members = none := by
  induction members with
  | nil => rfl
  | cons m rest ih =>
      have differ : m.1 ≠ name := by
        rintro rfl
        exact List.lt_irrefl _ (before m List.mem_cons_self)
      rw [find, if_neg differ, ih fun other member => before other (List.mem_cons_of_mem _ member)]

theorem find_first {name key : String} {v : Json F} {rest : List (String × Json F)}
    (sorted : Sorted ((key, v) :: rest)) (less : name.toList < key.toList) :
    find name ((key, v) :: rest) = none := by
  refine find_before fun m member => ?_
  rcases List.mem_cons.1 member with rfl | later
  · exact less
  · exact List.lt_trans less ((List.pairwise_cons.1 sorted).1 m later)

/-- Members in order are determined by what stands under the names. -/
theorem sorted_ext {first second : List (String × Json F)} (one : Sorted first)
    (two : Sorted second) (same : ∀ name, find name first = find name second) : first = second := by
  induction first generalizing second with
  | nil =>
      cases second with
      | nil => rfl
      | cons m rest => simpa [find] using same m.1
  | cons m rest ih =>
      obtain ⟨key, v⟩ := m
      cases second with
      | nil => simpa [find] using same key
      | cons m others =>
          obtain ⟨name, w⟩ := m
          have equal : key = name := by
            refine Decidable.byContradiction fun differ => ?_
            have apart : key.toList ≠ name.toList := fun is => differ (String.toList_inj.1 is)
            by_cases less : key.toList < name.toList
            · have := same key
              rw [find_first two less, find, if_pos rfl] at this
              cases this
            · have other : name.toList < key.toList := Decidable.byContradiction fun no =>
                apart (List.le_antisymm (List.not_lt.1 no) (List.not_lt.1 less))
              have := same name
              rw [find_first one other, find, if_pos rfl] at this
              cases this
          subst equal
          have here := same key
          rw [find, find, if_pos rfl, if_pos rfl] at here
          obtain rfl := Option.some.inj here
          obtain ⟨beforeRest, sortedRest⟩ := List.pairwise_cons.1 one
          obtain ⟨beforeOthers, sortedOthers⟩ := List.pairwise_cons.1 two
          rw [ih sortedRest sortedOthers fun name => ?_]
          by_cases is : key = name
          · subst is
            rw [find_before beforeRest, find_before beforeOthers]
          · simpa [find, is] using same name

theorem set_ofMembers (members : List (String × Json F)) (name : String) (value : Json F) :
    (ofMembers members).set name value = ofMembers (members ++ [(name, value)]) := by
  rw [ofMembers, ofMembers, List.foldl_append]
  rfl

/-- Of ordered objects, indexing tells them apart. -/
theorem ofMembers_ext {first second : List (String × Json F)}
    (same : ∀ name, find name first.reverse = find name second.reverse) :
    ofMembers first = ofMembers second := by
  have sorted : ∀ members : List (String × Json F),
      Sorted (members.foldl (fun map m => insert m.1 m.2 map) []) := by
    intro members
    induction members using List.reverseRecOn with
    | nil => exact List.Pairwise.nil
    | append_singleton front m ih =>
        rw [List.foldl_append]
        exact sorted_insert ih
  have found : ∀ (members : List (String × Json F)) (name : String),
      find name (members.foldl (fun map m => insert m.1 m.2 map) []) = find name members.reverse := by
    intro members name
    induction members using List.reverseRecOn with
    | nil => rfl
    | append_singleton front m ih =>
        rw [List.foldl_append, List.reverse_append]
        simp only [List.foldl_cons, List.foldl_nil, find_insert, List.reverse_cons, List.reverse_nil,
          List.nil_append, List.singleton_append, find]
        rw [ih]
  rw [ofMembers, ofMembers, sorted_ext (sorted first) (sorted second) fun name => by
    rw [found, found, same]]

/-! ## Bytes -/

def readBytes (bytes : Bytes) : Option (Json F) :=
  (Utf8.fromUtf8 bytes).bind (read float)

/-- The document as a value. -/
def valueOf (bytes : Bytes) : Option (Json F) :=
  (readBytes float bytes).map normal

/-- The indented text is read back from its bytes. -/
theorem readBytes_pretty {v : Json F} (plain : Plain depthLimit v) :
    readBytes float (pretty shown v) = some v := by
  rw [readBytes, pretty, Utf8.fromUtf8_encode, Option.bind_some]
  exact read_print float shown plain

theorem valueOf_pretty {v : Json F} (plain : Plain depthLimit v) (ordered : v.Ordered) :
    valueOf float (pretty shown v) = some v := by
  rw [valueOf, readBytes_pretty float shown plain, Option.map_some, normal_ordered v ordered]

end Luhmen.Theory.Json
