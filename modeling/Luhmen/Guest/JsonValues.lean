/-
# Guest.JsonValues -- objects, arrays and whole documents, exactly

`Guest.JsonExact` ties the scanner's strings and numbers to the grammar; here come
the values built from them.  `Sound` and `Complete` say of a reader of values that
it reads the texts of a language `V` and no others.  The object loops of
`Json::value` and of `locate` are two readings of one loop, `membersLoop`, whose
turn is `memberTurn`; one step lemma about the turn and one induction over the
member list serve both.

The module ends in `locate_sound`, that an accepting `locate` has read a document
and reports its members' places (`Document.located`), and `locate_complete`, that
it does so on every document.
-/
import Luhmen.Guest.JsonExact

namespace Luhmen.Guest

open Luhmen.Theory Luhmen.Theory.JsonGrammar

set_option autoImplicit false

/-! ## Readers of values -/

section Readers

variable (data : Bytes) (value : Nat → Result (Option Bool × Nat))
variable (V : Bytes → Option Bool → Bool → Prop)

/-- What `value` accepts is a text of `V` behind whitespace, all of it Unicode. -/
def Sound : Prop :=
  ∀ cursor boolean stop, value cursor = .ok (boolean, stop) →
    ∃ lead text, Blank lead ∧ V text boolean true ∧
      data.drop cursor = lead ++ (text ++ data.drop stop) ∧
      stop = cursor + lead.length + text.length

/-- On a text of `V` behind whitespace, `value` ends exactly behind it. -/
def Complete : Prop :=
  ∀ cursor lead text post boolean unicode, Blank lead → V text boolean unicode → Delimited post →
    data.drop cursor = lead ++ (text ++ post) →
      Reads (value cursor) unicode (boolean, cursor + lead.length + text.length)

/-- Every text of `V` begins with a byte that neither is whitespace nor closes an array. -/
def Tokens : Prop :=
  ∀ text boolean unicode, V text boolean unicode →
    ∃ b rest, text = b :: rest ∧ isAsciiWhitespace b = false ∧ b ≠ closeBracket

/-- `value` skips whitespace before anything else. -/
def Skips : Prop :=
  ∀ cursor, value (Json.whitespace data cursor) = value cursor

end Readers

theorem not_blank_head {lead : Bytes} (post : Bytes) (blank : Blank lead)
    (nonempty : lead ≠ []) : ∃ b rest, lead ++ post = b :: rest ∧ isAsciiWhitespace b = true := by
  obtain ⟨b, rest, rfl⟩ := List.exists_cons_of_ne_nil nonempty
  exact ⟨b, rest ++ post, rfl, blank b (by simp)⟩

theorem whitespace_delimits {b : UInt8} (space : isAsciiWhitespace b = true) :
    isAsciiDigit b = false ∧ b ≠ 0x2e ∧ b ≠ 0x65 ∧ b ≠ 0x45 := by
  simp only [isAsciiWhitespace, Bool.or_eq_true, beq_iff_eq] at space
  rcases space with (((rfl | rfl) | rfl) | rfl) | rfl <;> decide

theorem Delimited.blank_append {lead post : Bytes} (blank : Blank lead)
    (delimited : Delimited post) : Delimited (lead ++ post) := by
  by_cases empty : lead = []
  · rw [empty]
    exact delimited
  · obtain ⟨b, rest, shape, space⟩ := not_blank_head post blank empty
    intro c head
    rw [shape] at head
    obtain rfl := Option.some.inj head
    exact whitespace_delimits space

theorem Delimited.cons {b : UInt8} (post : Bytes)
    (clear : isAsciiDigit b = false ∧ b ≠ 0x2e ∧ b ≠ 0x65 ∧ b ≠ 0x45) : Delimited (b :: post) := by
  intro c head
  obtain rfl := Option.some.inj head
  exact clear

theorem Tokens.noBlank {V : Bytes → Option Bool → Bool → Prop} (tokens : Tokens V) {text : Bytes}
    {boolean : Option Bool} {unicode : Bool} (value : V text boolean unicode) (post : Bytes) :
    NoBlank (text ++ post) := by
  obtain ⟨b, rest, rfl, token, -⟩ := tokens _ _ _ value
  exact .cons (rest ++ post) token

/-! ## One member -/

/-- Where the value of `m` stands when `m` begins at `cursor`. -/
def valuePlace (m : Member) (cursor : Nat) : LocatedValue :=
  ⟨cursor + m.head.length, cursor + m.head.length + m.value.length, m.boolean⟩

/-- One turn of an object loop: the key and its value's place, and the cursor at the
comma or brace behind it. -/
def memberTurn (value : Nat → Result (Option Bool × Nat)) (data : Bytes)
    (keys : List (List Char)) (cursor : Nat) : Result ((List Char × LocatedValue) × Nat) :=
  match Json.string data cursor with
  | .error failure => .error failure
  | .ok (key, cursor) =>
      if key ∈ keys then
        fail ("duplicate Docker configuration key: " ++ String.ofList key)
      else
        match Json.byte data colon cursor with
        | .error failure => .error failure
        | .ok cursor =>
            match value (Json.whitespace data cursor) with
            | .error failure => .error failure
            | .ok (boolean, stop) =>
                .ok ((key, ⟨Json.whitespace data cursor, stop, boolean⟩), Json.whitespace data stop)

section Turn

variable {data : Bytes} {value : Nat → Result (Option Bool × Nat)}
variable {V : Bytes → Option Bool → Bool → Prop}

theorem memberTurn_sound (sound : Sound data value V) (tokens : Tokens V)
    {keys : List (List Char)} {cursor stop : Nat} {key : List Char} {place : LocatedValue}
    (ok : memberTurn value data keys cursor = .ok ((key, place), stop)) :
    ∃ m : Member, m.Valid helper V ∧ m.unicode = true ∧ m.key = some key ∧ key ∉ keys ∧
      data.drop cursor = m.render ++ data.drop stop ∧ stop = cursor + m.render.length ∧
      place = valuePlace m cursor := by
  unfold memberTurn at ok
  split at ok
  · simp at ok
  · rename_i name nameStop named
    split at ok
    · simp [fail] at ok
    · rename_i fresh
      split at ok
      · simp at ok
      · rename_i colonStop colonOk
        split at ok
        · simp at ok
        · rename_i boolean valueStop valueOk
          obtain ⟨entry, rfl⟩ := Prod.mk.inj (Except.ok.inj ok)
          obtain ⟨rfl, rfl⟩ := Prod.mk.inj entry
          obtain ⟨lead, nameText, leadBlank, token, nameRest, nameLength⟩ := string_sound named
          obtain ⟨before, beforeBlank, colonRest, colonLength⟩ := byte_sound colonOk
          obtain ⟨gap, gapBlank, gapRest, gapLength⟩ := whitespace_sound data colonStop
          obtain ⟨inner, text, innerBlank, valueText, valueRest, valueLength⟩ :=
            sound _ _ _ valueOk
          obtain ⟨tail, tailBlank, tailRest, tailLength⟩ := whitespace_sound data valueStop
          -- the whitespace before the value is already behind the cursor
          have nothing : inner = [] := by
            have idem := whitespace_idem data colonStop
            have skipped := whitespace_complete innerBlank (tokens.noBlank valueText _) valueRest
            exact List.length_eq_zero_iff.1 (by omega)
          subst nothing
          refine ⟨⟨lead, nameText, some name, before, gap, text, boolean, true, tail⟩,
            ⟨leadBlank, token, beforeBlank, gapBlank, valueText, tailBlank⟩, rfl, rfl, fresh,
            ?_, ?_, ?_⟩
          · rw [nameRest, colonRest, gapRest, valueRest, tailRest]
            simp [Member.render, Member.head]
          · simp only [Member.render, Member.head, List.length_append, List.length_cons,
              List.length_nil] at *
            omega
          · simp only [valuePlace, Member.head, List.length_append, List.length_cons,
              List.length_nil, LocatedValue.mk.injEq] at *
            refine ⟨by omega, by omega, trivial⟩

theorem memberTurn_complete (complete : Complete data value V) (tokens : Tokens V)
    (skips : Skips data value) {keys : List (List Char)} {cursor : Nat} {m : Member} {post : Bytes}
    (valid : m.Valid helper V) (fresh : ∀ key, m.key = some key → key ∉ keys)
    (delimited : Delimited post) (stops : NoBlank post)
    (rest : data.drop cursor = m.render ++ post) :
    Reads (memberTurn value data keys cursor) m.unicode
      ((m.key.getD [], valuePlace m cursor), cursor + m.render.length) := by
  simp only [Member.render, Member.head, List.append_assoc, List.cons_append] at rest
  have named := string_complete valid.lead valid.name rest
  have behindName := drop_add_length (drop_add_length rest)
  have colonOk := byte_complete valid.beforeColon (by decide) behindName
  have behindColon := drop_succ (drop_add_length behindName)
  have afterValue : Delimited (m.tail ++ post) := delimited.blank_append valid.tail
  have valueReads := complete _ _ _ _ _ _ valid.gap valid.value afterValue behindColon
  have skippedGap := whitespace_complete valid.gap (tokens.noBlank valid.value _) behindColon
  have behindValue := drop_add_length (drop_add_length behindColon)
  have skippedTail := whitespace_complete valid.tail stops behindValue
  rw [← skips, skippedGap] at valueReads
  refine named.step (fun failure failed => by rw [memberTurn, failed]) fun isKey nameOk => ?_
  have isFresh : m.key.getD [] ∉ keys := by
    obtain ⟨key, keyIs⟩ := Option.isSome_iff_exists.1 isKey
    rw [keyIs]
    exact fresh key keyIs
  rw [← Bool.and_true m.valueUnicode]
  refine valueReads.step (fun failure failed => ?_) fun _ valueOk => ?_
  · simp only [memberTurn, nameOk, isFresh, if_false, colonOk, skippedGap, failed]
  apply reads_true.2
  simp only [memberTurn, nameOk, isFresh, if_false, colonOk, skippedGap, valueOk, skippedTail]
  have places : cursor + m.lead.length + m.name.length + m.beforeColon.length + 1 +
      m.gap.length = cursor + m.head.length := by
    simp only [Member.head, List.length_append, List.length_cons]
    omega
  simp only [places, valuePlace, Member.render, List.length_append]
  congr 2
  omega

end Turn

/-! ## The object loops -/

/-- Both object loops, with everything they could remember: every key with its
value's place, and the cursor at the closing brace. -/
def membersLoop (value : Nat → Result (Option Bool × Nat)) (data : Bytes) :
    Nat → List (List Char) → Nat → Result (List (List Char × LocatedValue) × Nat)
  | 0, _, _ => .error .diverges
  | fuel + 1, keys, cursor =>
      match memberTurn value data keys cursor with
      | .error failure => .error failure
      | .ok (entry, stop) =>
          if data[stop]? = some comma then
            (membersLoop value data fuel (entry.1 :: keys) (stop + 1)).map
              fun rest => (entry :: rest.1, rest.2)
          else if data[stop]? = some closeBrace then .ok ([entry], stop)
          else fail "invalid JSON object"

/-- The member named `wanted` among the entries of a loop, `found` before it. -/
def lastNamed (wanted : List Char) (found : Option LocatedValue)
    (entries : List (List Char × LocatedValue)) : Option LocatedValue :=
  entries.foldl (fun found entry => if entry.1 = wanted then some entry.2 else found) found

/-- `Json::value` forgets the entries and takes the brace. -/
theorem objectLoop_eq {data : Bytes} {value : Nat → Result (Option Bool × Nat)}
    (skips : Skips data value) (fuel : Nat) (keys : List (List Char)) (cursor : Nat) :
    Json.objectLoop value data fuel keys cursor =
      (membersLoop value data fuel keys cursor).map fun result => result.2 + 1 := by
  induction fuel generalizing keys cursor with
  | zero => rfl
  | succ fuel ih =>
      rw [Json.objectLoop, membersLoop, memberTurn]
      cases Json.string data cursor with
      | error failure => rfl
      | ok name =>
          by_cases repeated : name.1 ∈ keys
          · simp only [repeated, if_true, fail]
            rfl
          · simp only [repeated, if_false]
            cases Json.byte data colon name.2 with
            | error failure => rfl
            | ok colonStop =>
                dsimp only
                rw [← skips colonStop]
                cases value (Json.whitespace data colonStop) with
                | error failure => rfl
                | ok found =>
                    simp only [ih]
                    split
                    · cases membersLoop value data fuel (name.1 :: keys) _ <;> rfl
                    · split <;> rfl

/-- `locate` keeps the entry it wants and leaves the brace. -/
theorem locateLoop_eq (data : Bytes) (wanted : List Char) (fuel : Nat) (keys : List (List Char))
    (found : Option LocatedValue) (cursor : Nat) :
    locateLoop data wanted fuel keys found cursor =
      (membersLoop (Json.value data 1) data fuel keys cursor).map
        fun result => (lastNamed wanted found result.1, result.2) := by
  induction fuel generalizing keys found cursor with
  | zero => rfl
  | succ fuel ih =>
      rw [locateLoop, membersLoop, memberTurn]
      cases Json.string data cursor with
      | error failure => rfl
      | ok name =>
          by_cases repeated : name.1 ∈ keys
          · simp only [repeated, if_true, fail]
            rfl
          · simp only [repeated, if_false]
            cases Json.byte data colon name.2 with
            | error failure => rfl
            | ok colonStop =>
                dsimp only
                cases Json.value data 1 (Json.whitespace data colonStop) with
                | error failure => rfl
                | ok value =>
                    simp only [ih]
                    split
                    · cases membersLoop (Json.value data 1) data fuel (name.1 :: keys) _ <;> rfl
                    · split <;> rfl

/-- The entries of a member list that begins at `cursor`. -/
def places : List Member → Nat → List (List Char × LocatedValue)
  | [], _ => []
  | m :: rest, cursor =>
      (m.key.getD [], valuePlace m cursor) :: places rest (cursor + m.render.length + 1)

theorem separated_cons {text : Bytes} {rest : List Bytes} (nonempty : rest ≠ []) :
    separated (text :: rest) = text ++ comma :: separated rest := by
  obtain ⟨next, rest, rfl⟩ := List.exists_cons_of_ne_nil nonempty
  rfl

theorem length_le_separated (texts : List Bytes) : texts.length ≤ (separated texts).length + 1 := by
  induction texts with
  | nil => simp
  | cons text rest ih =>
      by_cases last : rest = []
      · subst last
        simp
      · rw [separated_cons last, List.length_cons, List.length_append, List.length_cons]
        omega

theorem distinct_cons {m : Member} {members : List Member} :
    Distinct (m :: members) ↔
      (∀ key, m.key = some key → ∀ other ∈ members, other.key ≠ some key) ∧ Distinct members := by
  unfold Distinct
  cases keyIs : m.key with
  | none => simp [keyIs]
  | some key => simp [keyIs, List.nodup_cons]

section Loop

variable {data : Bytes} {value : Nat → Result (Option Bool × Nat)}
variable {V : Bytes → Option Bool → Bool → Prop}

theorem membersLoop_sound (sound : Sound data value V) (tokens : Tokens V) {fuel : Nat}
    {keys : List (List Char)} {cursor stop : Nat} {entries : List (List Char × LocatedValue)}
    (ok : membersLoop value data fuel keys cursor = .ok (entries, stop)) :
    ∃ members : List Member, members ≠ [] ∧ (∀ m ∈ members, m.Valid helper V) ∧
      (∀ m ∈ members, m.unicode = true) ∧ Distinct members ∧
      (∀ m ∈ members, ∀ key ∈ keys, m.key ≠ some key) ∧
      data.drop cursor =
        separated (members.map Member.render) ++ closeBrace :: data.drop (stop + 1) ∧
      stop = cursor + (separated (members.map Member.render)).length ∧
      entries = places members cursor := by
  induction fuel generalizing keys cursor entries with
  | zero => simp [membersLoop] at ok
  | succ fuel ih =>
      rw [membersLoop] at ok
      split at ok
      · simp at ok
      · rename_i entry turnStop turnOk
        obtain ⟨m, valid, unicode, keyIs, fresh, rest, length, place⟩ :=
          memberTurn_sound sound tokens turnOk
        have isNew : ∀ key ∈ keys, m.key ≠ some key := by
          rintro key member same
          rw [keyIs] at same
          obtain rfl := Option.some.inj same
          exact fresh member
        split at ok
        · rename_i more
          cases loop : membersLoop value data fuel (entry.1 :: keys) (turnStop + 1) with
          | error failure => rw [loop] at ok; simp [Except.map] at ok
          | ok further =>
              rw [loop] at ok
              obtain ⟨rfl, rfl⟩ := Prod.mk.inj (Except.ok.inj ok)
              obtain ⟨members, nonempty, valids, unicodes, distinct, news, restLoop, lengthLoop,
                entriesAre⟩ := ih loop
              have nonempty' : members.map Member.render ≠ [] := by simpa using nonempty
              refine ⟨m :: members, by simp, ?_, ?_, ?_, ?_, ?_, ?_, ?_⟩
              · exact List.forall_mem_cons.2 ⟨valid, valids⟩
              · exact List.forall_mem_cons.2 ⟨unicode, unicodes⟩
              · refine distinct_cons.2 ⟨?_, distinct⟩
                intro key isKey other member
                rw [keyIs] at isKey
                obtain rfl := Option.some.inj isKey
                exact news other member _ (by simp)
              · refine List.forall_mem_cons.2 ⟨isNew, fun other member key old => ?_⟩
                exact news other member key (List.mem_cons_of_mem _ old)
              · rw [List.map_cons, separated_cons nonempty', rest, drop_of_getElem? more, restLoop]
                simp
              · rw [List.map_cons, separated_cons nonempty', List.length_append, List.length_cons]
                omega
              · rw [entriesAre, places, keyIs, length, Option.getD_some, ← place]
        · split at ok
          · rename_i closes
            obtain ⟨rfl, rfl⟩ := Prod.mk.inj (Except.ok.inj ok)
            refine ⟨[m], by simp, by simpa using valid, by simpa using unicode,
              distinct_cons.2 ⟨by simp, List.nodup_nil⟩,
              by simpa using isNew, ?_, length, ?_⟩
            · rw [rest, drop_of_getElem? closes]
              rfl
            · rw [places, places, keyIs, Option.getD_some, ← place]
          · simp [fail] at ok

theorem membersLoop_complete (complete : Complete data value V) (tokens : Tokens V)
    (skips : Skips data value) {members : List Member} {fuel : Nat} {keys : List (List Char)}
    {cursor : Nat} {post : Bytes} (nonempty : members ≠ [])
    (valid : ∀ m ∈ members, m.Valid helper V) (distinct : Distinct members)
    (fresh : ∀ m ∈ members, ∀ key, m.key = some key → key ∉ keys)
    (enough : members.length ≤ fuel)
    (rest : data.drop cursor =
      separated (members.map Member.render) ++ closeBrace :: post) :
    Reads (membersLoop value data fuel keys cursor) (members.all Member.unicode)
      (places members cursor, cursor + (separated (members.map Member.render)).length) := by
  induction members generalizing fuel keys cursor with
  | nil => exact absurd rfl nonempty
  | cons m members ih =>
      obtain ⟨fuel, rfl⟩ : ∃ n, fuel = n + 1 := ⟨fuel - 1, by simp at enough; omega⟩
      obtain ⟨isNew, distinctRest⟩ := distinct_cons.1 distinct
      have validHere := valid m (by simp)
      have freshHere := fresh m (by simp)
      rw [List.all_cons]
      by_cases last : members = []
      · subst last
        have rest : data.drop cursor = m.render ++ closeBrace :: post := rest
        have turn := memberTurn_complete complete tokens skips validHere freshHere
          (.cons post (by decide)) (.cons post (by decide)) rest
        refine turn.step (fun failure failed => by rw [membersLoop, failed]) fun _ turnOk => ?_
        have stop := getElem?_add_length rest
        apply reads_true.2
        rw [membersLoop, turnOk]
        simp only [stop, List.head?_cons]
        rfl
      · have more : members.map Member.render ≠ [] := by simpa using last
        rw [List.map_cons, separated_cons more, List.append_assoc, List.cons_append] at rest
        have turn := memberTurn_complete complete tokens skips validHere freshHere
          (.cons _ (by decide)) (.cons _ (by decide)) rest
        refine turn.step (fun failure failed => by rw [membersLoop, failed]) fun unicode turnOk => ?_
        have behindComma := drop_succ (drop_add_length rest)
        obtain ⟨key, keyIs⟩ : ∃ key, m.key = some key := by
          simp only [Member.unicode, Bool.and_eq_true] at unicode
          exact Option.isSome_iff_exists.1 unicode.1
        have freshRest : ∀ other ∈ members, ∀ name, other.key = some name → name ∉ key :: keys := by
          intro other member name named
          have old := fresh other (List.mem_cons_of_mem _ member) name named
          have new := isNew key keyIs other member
          rw [named] at new
          rw [List.mem_cons, not_or]
          exact ⟨fun same => new (congrArg some same), old⟩
        have further := @ih fuel (key :: keys) _ last
          (fun other member => valid other (List.mem_cons_of_mem _ member)) distinctRest freshRest
          (by simpa using enough) behindComma
        have stop := getElem?_add_length rest
        have extended := further.map fun rest => ((key, valuePlace m cursor) :: rest.1, rest.2)
        rw [membersLoop, turnOk]
        simp only [stop, List.head?_cons, if_true, keyIs, Option.getD_some, List.map_cons,
          separated_cons more, List.length_append, List.length_cons, places]
        rw [show cursor + (m.render.length + ((separated (members.map Member.render)).length + 1)) =
          cursor + m.render.length + 1 + (separated (members.map Member.render)).length by omega]
        exact extended

theorem arrayLoop_sound (sound : Sound data value V) {fuel cursor stop : Nat}
    (ok : Json.arrayLoop value data fuel cursor = .ok stop) :
    ∃ elements : List Element, elements ≠ [] ∧ (∀ e ∈ elements, e.Valid helper V) ∧
      (∀ e ∈ elements, e.unicode = true) ∧
      data.drop cursor =
        separated (elements.map Element.render) ++ closeBracket :: data.drop stop ∧
      stop = cursor + (separated (elements.map Element.render)).length + 1 := by
  induction fuel generalizing cursor with
  | zero => simp [Json.arrayLoop] at ok
  | succ fuel ih =>
      rw [Json.arrayLoop] at ok
      split at ok
      · simp at ok
      · rename_i boolean valueStop valueOk
        obtain ⟨lead, text, leadBlank, valueText, rest, length⟩ := sound _ _ _ valueOk
        obtain ⟨tail, tailBlank, tailRest, tailLength⟩ := whitespace_sound data valueStop
        let e : Element := ⟨lead, text, boolean, true, tail⟩
        have valid : e.Valid helper V := ⟨leadBlank, valueText, tailBlank⟩
        have here : data.drop cursor = e.render ++ data.drop (Json.whitespace data valueStop) := by
          rw [rest, tailRest]
          simp [e, Element.render]
        have hereLength : Json.whitespace data valueStop = cursor + e.render.length := by
          simp only [e, Element.render, List.length_append]
          omega
        dsimp only at ok
        split at ok
        · rename_i more
          obtain ⟨elements, nonempty, valids, unicodes, restLoop, lengthLoop⟩ := ih ok
          have nonempty' : elements.map Element.render ≠ [] := by simpa using nonempty
          refine ⟨e :: elements, by simp, List.forall_mem_cons.2 ⟨valid, valids⟩,
            List.forall_mem_cons.2 ⟨rfl, unicodes⟩, ?_, ?_⟩
          · rw [List.map_cons, separated_cons nonempty', here, drop_of_getElem? more, restLoop]
            simp
          · rw [List.map_cons, separated_cons nonempty', List.length_append, List.length_cons]
            omega
        · split at ok
          · rename_i closes
            obtain rfl := Except.ok.inj ok
            refine ⟨[e], by simp, by simpa using valid, by simp [e], ?_, ?_⟩
            · rw [here, drop_of_getElem? closes]
              rfl
            · rw [hereLength]
              rfl
          · simp [fail] at ok

theorem arrayLoop_complete (complete : Complete data value V) {elements : List Element}
    {fuel cursor : Nat} {post : Bytes} (nonempty : elements ≠ [])
    (valid : ∀ e ∈ elements, e.Valid helper V) (enough : elements.length ≤ fuel)
    (rest : data.drop cursor =
      separated (elements.map Element.render) ++ closeBracket :: post) :
    Reads (Json.arrayLoop value data fuel cursor) (elements.all Element.unicode)
      (cursor + (separated (elements.map Element.render)).length + 1) := by
  induction elements generalizing fuel cursor with
  | nil => exact absurd rfl nonempty
  | cons e elements ih =>
      obtain ⟨fuel, rfl⟩ : ∃ n, fuel = n + 1 := ⟨fuel - 1, by simp at enough; omega⟩
      have here := valid e (by simp)
      -- one turn, whatever `post'` it ends in front of
      have turn : ∀ {b : UInt8} {post' : Bytes}, isAsciiWhitespace b = false →
          (isAsciiDigit b = false ∧ b ≠ 0x2e ∧ b ≠ 0x65 ∧ b ≠ 0x45) →
          data.drop cursor = e.render ++ b :: post' →
          Reads (value cursor) e.unicode
              (e.boolean, cursor + e.lead.length + e.value.length) ∧
            Json.whitespace data (cursor + e.lead.length + e.value.length) =
              cursor + e.render.length := by
        intro b post' token clear rest
        simp only [Element.render, List.append_assoc] at rest
        have behindValue := drop_add_length (drop_add_length rest)
        refine ⟨complete _ _ _ _ _ _ here.lead here.value
          ((Delimited.cons post' clear).blank_append here.tail) rest, ?_⟩
        rw [whitespace_complete here.tail (.cons post' token) behindValue]
        simp only [Element.render, List.length_append]
        omega
      rw [List.all_cons]
      by_cases last : elements = []
      · subst last
        have rest : data.drop cursor = e.render ++ closeBracket :: post := rest
        obtain ⟨reads, skipped⟩ := turn (by decide) (by decide) rest
        refine reads.step (fun failure failed => by rw [Json.arrayLoop, failed]) fun _ valueOk => ?_
        have stop := getElem?_add_length rest
        apply reads_true.2
        rw [Json.arrayLoop, valueOk]
        simp only [skipped, stop, List.head?_cons]
        rfl
      · have more : elements.map Element.render ≠ [] := by simpa using last
        rw [List.map_cons, separated_cons more, List.append_assoc, List.cons_append] at rest
        obtain ⟨reads, skipped⟩ := turn (by decide) (by decide) rest
        refine reads.step (fun failure failed => by rw [Json.arrayLoop, failed]) fun _ valueOk => ?_
        have behindComma := drop_succ (drop_add_length rest)
        have further := @ih fuel _ last
          (fun other member => valid other (List.mem_cons_of_mem _ member))
          (by simpa using enough) behindComma
        have stop := getElem?_add_length rest
        rw [Json.arrayLoop, valueOk]
        simp only [skipped, stop, List.head?_cons, if_true, List.map_cons, separated_cons more,
          List.length_append, List.length_cons]
        rw [show cursor + (e.render.length + ((separated (elements.map Element.render)).length + 1)) =
          cursor + e.render.length + 1 + (separated (elements.map Element.render)).length by omega]
        exact further

end Loop

/-! ## Values -/

theorem valueAt_skips (data : Bytes) (levels : Nat) : Skips data (Json.valueAt data levels) := by
  intro cursor
  cases levels with
  | zero => rfl
  | succ levels => simp only [Json.valueAt, whitespace_idem]

/-- A keyword is not there when another byte is. -/
theorem getRange_ne {data : Bytes} (text : Bytes) {cursor stop : Nat} {b c : UInt8}
    (found : data[cursor]? = some b) (head : text.head? = some c) (other : b ≠ c) :
    getRange data cursor stop ≠ some text := by
  intro ranged
  obtain ⟨tail, rfl⟩ := List.head?_eq_some_iff.1 head
  have rest := (getRange_eq_some ranged).1
  rw [List.cons_append] at rest
  rw [getElem?_of_drop rest] at found
  exact other (Option.some.inj found).symm

/-- The first byte of a value text is neither whitespace nor a closing bracket. -/
theorem valueStep_tokens (V : Bytes → Option Bool → Bool → Prop) : Tokens (ValueStep helper V) := by
  intro text boolean unicode step
  cases step with
  | string token =>
      obtain ⟨rest, shape⟩ := List.head?_eq_some_iff.1 token.opens
      exact ⟨quote, rest, shape, by decide, by decide⟩
  | number token =>
      obtain ⟨b, rest, shape, numeric⟩ := number_head token
      refine ⟨b, rest, shape, ?_, ?_⟩
      · by_contra space
        simp only [isAsciiWhitespace, Bool.not_eq_false, Bool.or_eq_true, beq_iff_eq] at space
        rcases space with (((rfl | rfl) | rfl) | rfl) | rfl <;> exact absurd numeric (by decide)
      · rintro rfl
        exact absurd numeric (by decide)
  | literalTrue => exact ⟨_, _, rfl, by decide, by decide⟩
  | literalFalse => exact ⟨_, _, rfl, by decide, by decide⟩
  | literalNull => exact ⟨_, _, rfl, by decide, by decide⟩
  | emptyObject spaces => exact ⟨openBrace, _, rfl, by decide, by decide⟩
  | object nonempty valid distinct => exact ⟨openBrace, _, rfl, by decide, by decide⟩
  | emptyArray spaces => exact ⟨openBracket, _, rfl, by decide, by decide⟩
  | array nonempty valid => exact ⟨openBracket, _, rfl, by decide, by decide⟩

theorem value_tokens (levels : Nat) : Tokens (Value helper levels) := by
  cases levels with
  | zero => exact fun text boolean unicode impossible => impossible.elim
  | succ levels => exact valueStep_tokens (Value helper levels)

section First

variable {data : Bytes} {value : Nat → Result (Option Bool × Nat)}
variable {V : Bytes → Option Bool → Bool → Prop}

theorem membersLoop_skips (fuel : Nat) (keys : List (List Char)) (cursor : Nat) :
    membersLoop value data fuel keys (Json.whitespace data cursor) =
      membersLoop value data fuel keys cursor := by
  cases fuel with
  | zero => rfl
  | succ fuel => simp only [membersLoop, memberTurn, string_skips]

theorem arrayLoop_skips (skips : Skips data value) (fuel cursor : Nat) :
    Json.arrayLoop value data fuel (Json.whitespace data cursor) =
      Json.arrayLoop value data fuel cursor := by
  cases fuel with
  | zero => rfl
  | succ fuel => simp only [Json.arrayLoop, skips cursor]

/-- The first member begins with a quote, so the object is not taken for an empty one. -/
theorem members_first {members : List Member} {cursor : Nat} {post : Bytes}
    (nonempty : members ≠ []) (valid : ∀ m ∈ members, m.Valid helper V)
    (rest : data.drop cursor = separated (members.map Member.render) ++ post) :
    data[Json.whitespace data cursor]? = some quote := by
  obtain ⟨m, members, rfl⟩ := List.exists_cons_of_ne_nil nonempty
  have here := valid m (by simp)
  obtain ⟨tail, shape⟩ := List.head?_eq_some_iff.1 here.name.opens
  obtain ⟨post', split⟩ : ∃ post', data.drop cursor = m.lead ++ quote :: post' := by
    by_cases last : members = []
    · subst last
      exact ⟨_, by rw [rest]; simp [separated, Member.render, Member.head, shape]; rfl⟩
    · have more : members.map Member.render ≠ [] := by simpa using last
      rw [List.map_cons, separated_cons more] at rest
      exact ⟨_, by rw [rest]; simp [Member.render, Member.head, shape]; rfl⟩
  rw [whitespace_complete here.lead (.cons post' (by decide)) split, getElem?_add_length split]
  rfl

/-- The first element begins with a value, so the array is not taken for an empty one. -/
theorem elements_first (tokens : Tokens V) {elements : List Element} {cursor : Nat} {post : Bytes}
    (nonempty : elements ≠ []) (valid : ∀ e ∈ elements, e.Valid helper V)
    (rest : data.drop cursor = separated (elements.map Element.render) ++ post) :
    data[Json.whitespace data cursor]? ≠ some closeBracket := by
  obtain ⟨e, elements, rfl⟩ := List.exists_cons_of_ne_nil nonempty
  have here := valid e (by simp)
  obtain ⟨b, tail, shape, token, open'⟩ := tokens _ _ _ here.value
  obtain ⟨post', split⟩ : ∃ post', data.drop cursor = e.lead ++ b :: post' := by
    by_cases last : elements = []
    · subst last
      exact ⟨_, by rw [rest]; simp [separated, Element.render, shape]; rfl⟩
    · have more : elements.map Element.render ≠ [] := by simpa using last
      rw [List.map_cons, separated_cons more] at rest
      exact ⟨_, by rw [rest]; simp [Element.render, shape]; rfl⟩
  rw [whitespace_complete here.lead (.cons post' token) split, getElem?_add_length split]
  exact fun same => open' (Option.some.inj same)

end First

theorem valueAt_step_complete {data : Bytes} {levels : Nat}
    (complete : Complete data (Json.valueAt data levels) (Value helper levels)) :
    Complete data (Json.valueAt data (levels + 1)) (ValueStep helper (Value helper levels)) := by
  intro cursor lead text post boolean unicode blank step delimited rest
  have skipped := whitespace_complete blank ((valueStep_tokens _).noBlank step post) rest
  rw [← valueAt_skips, skipped]
  have still : Json.whitespace data (cursor + lead.length) = cursor + lead.length := by
    rw [← skipped, whitespace_idem]
  have rest := drop_add_length rest
  have inside : cursor + lead.length ≤ data.length := by
    obtain ⟨b, tail, shape, -⟩ := valueStep_tokens _ _ _ _ step
    have := length_of_drop rest (by simp [shape])
    omega
  generalize cursor + lead.length = start at *
  have notQuote : (openBrace : UInt8) ≠ quote ∧ (openBracket : UInt8) ≠ quote ∧
      (openBracket : UInt8) ≠ openBrace := by decide
  cases step with
  | @string text key token =>
      obtain ⟨tail, shape⟩ := List.head?_eq_some_iff.1 token.opens
      have first : data[start]? = some quote := getElem?_of_drop (by rw [rest, shape]; rfl)
      have named := string_complete .nil token rest
      simp only [Json.valueAt, still, first, if_true]
      exact named.map fun token => (none, token.2)
  | number token =>
      obtain ⟨b, tail, shape, numeric⟩ := number_head token
      have first : data[start]? = some b := getElem?_of_drop (by rw [rest, shape]; rfl)
      have other : ∀ c, ¬ Numeric c → b ≠ c := by
        rintro c no rfl
        exact no numeric
      have isNumeric : b = 0x2d ∨ isAsciiDigit b = true := numeric.imp_right (digit_iff b).2
      simp only [Json.valueAt, still, first, other quote (by decide), other openBrace (by decide),
        other openBracket (by decide), getRange_ne (ascii "true") first rfl (other _ (by decide)),
        getRange_ne (ascii "false") first rfl (other _ (by decide)),
        getRange_ne (ascii "null") first rfl (other _ (by decide)), isNumeric, if_false, if_true,
        number_complete token delimited rest]
      rfl
  | literalTrue =>
      have first : data[start]? = some 0x74 := getElem?_of_drop rest
      have word : getRange data start (start + 4) = some (ascii "true") :=
        getRange_of_append inside rest
      simp only [Json.valueAt, still, first, word, if_true]
      rfl
  | literalFalse =>
      have first : data[start]? = some 0x66 := getElem?_of_drop rest
      have word : getRange data start (start + 5) = some (ascii "false") :=
        getRange_of_append inside rest
      simp only [Json.valueAt, still, first, getRange_ne (ascii "true") first rfl (by decide), word,
        if_false, if_true]
      rfl
  | literalNull =>
      have first : data[start]? = some 0x6e := getElem?_of_drop rest
      have word : getRange data start (start + 4) = some (ascii "null") :=
        getRange_of_append inside rest
      simp only [Json.valueAt, still, first, getRange_ne (ascii "false") first rfl (by decide), word,
        if_false, if_true]
      rfl
  | @emptyObject gap spaces =>
      have first : data[start]? = some openBrace := getElem?_of_drop rest
      have behindBrace : data.drop (start + 1) = gap ++ closeBrace :: post := by
        rw [drop_succ rest]
        simp
      have skippedGap := whitespace_complete spaces (.cons post (by decide)) behindBrace
      have closes : data[start + 1 + gap.length]? = some closeBrace :=
        getElem?_add_length behindBrace
      apply reads_true.2
      simp only [Json.valueAt, still, first, skippedGap, closes, notQuote.1, if_false, if_true,
        List.length_cons, List.length_append, List.length_nil]
      congr 2
      omega
  | @object members nonempty valid distinct =>
      have first : data[start]? = some openBrace := getElem?_of_drop rest
      have behindBrace : data.drop (start + 1) =
          separated (members.map Member.render) ++ closeBrace :: post := by
        rw [drop_succ rest]
        simp
      have opens := members_first nonempty valid behindBrace
      have enough : members.length ≤ data.length + 1 := by
        have lengths := congrArg List.length rest
        have := length_le_separated (members.map Member.render)
        simp only [List.length_drop, List.length_append, List.length_cons, List.length_map] at *
        omega
      have loop := membersLoop_complete complete (value_tokens levels) (valueAt_skips data levels)
        nonempty valid distinct (fun m member key named => List.not_mem_nil) enough behindBrace
      have notEmpty : (quote : UInt8) ≠ closeBrace := by decide
      simp only [Json.valueAt, still, first, opens, notQuote.1, Option.some.injEq, notEmpty, if_false,
        if_true, objectLoop_eq (valueAt_skips data levels), membersLoop_skips]
      have read := (loop.map fun result => result.2 + 1).map fun stop => ((none : Option Bool), stop)
      rw [show start + (openBrace :: (separated (members.map Member.render) ++ [closeBrace])).length =
        start + 1 + (separated (members.map Member.render)).length + 1 by simp; omega]
      exact read
  | @emptyArray gap spaces =>
      have first : data[start]? = some openBracket := getElem?_of_drop rest
      have behindBracket : data.drop (start + 1) = gap ++ closeBracket :: post := by
        rw [drop_succ rest]
        simp
      have skippedGap := whitespace_complete spaces (.cons post (by decide)) behindBracket
      have closes : data[start + 1 + gap.length]? = some closeBracket :=
        getElem?_add_length behindBracket
      apply reads_true.2
      simp only [Json.valueAt, still, first, skippedGap, closes, notQuote.2.1, notQuote.2.2, if_false,
        if_true, List.length_cons, List.length_append, List.length_nil]
      congr 2
      omega
  | @array elements nonempty valid =>
      have first : data[start]? = some openBracket := getElem?_of_drop rest
      have behindBracket : data.drop (start + 1) =
          separated (elements.map Element.render) ++ closeBracket :: post := by
        rw [drop_succ rest]
        simp
      have opens := elements_first (value_tokens levels) nonempty valid behindBracket
      have enough : elements.length ≤ data.length + 1 := by
        have lengths := congrArg List.length rest
        have := length_le_separated (elements.map Element.render)
        simp only [List.length_drop, List.length_append, List.length_cons, List.length_map] at *
        omega
      have loop := arrayLoop_complete complete nonempty valid enough behindBracket
      simp only [Json.valueAt, still, first, opens, notQuote.2.1, notQuote.2.2, if_false,
        if_true, arrayLoop_skips (valueAt_skips data levels)]
      have read := loop.map fun stop => ((none : Option Bool), stop)
      rw [show start + (openBracket :: (separated (elements.map Element.render) ++ [closeBracket])).length =
        start + 1 + (separated (elements.map Element.render)).length + 1 by simp; omega]
      exact read

theorem valueAt_step_sound {data : Bytes} {levels : Nat}
    (sound : Sound data (Json.valueAt data levels) (Value helper levels)) :
    Sound data (Json.valueAt data (levels + 1)) (ValueStep helper (Value helper levels)) := by
  intro cursor boolean stop ok
  obtain ⟨lead, blank, rest, skipped⟩ := whitespace_sound data cursor
  have still := whitespace_idem data cursor
  rw [← valueAt_skips] at ok
  generalize Json.whitespace data cursor = start at *
  -- a text that begins at `start` is a text behind the whitespace `lead`
  suffices here : ∃ text, ValueStep helper (Value helper levels) text boolean true ∧
      data.drop start = text ++ data.drop stop ∧ stop = start + text.length by
    obtain ⟨text, step, restText, length⟩ := here
    exact ⟨lead, text, blank, step, by rw [rest, restText], by rw [length, skipped]⟩
  simp only [Json.valueAt, still] at ok
  split at ok
  · simp [fail] at ok
  · rename_i b first
    split at ok
    · obtain ⟨⟨key, keyStop⟩, named, shape⟩ := map_eq_ok ok
      obtain ⟨rfl, rfl⟩ := Prod.mk.inj shape
      obtain ⟨inner, text, innerBlank, token, restText, length⟩ := string_sound named
      have step := @ValueStep.string helper (Value helper levels) text (some key) token
      have nothing : inner = [] := by
        have skippedInner :=
          whitespace_complete innerBlank ((valueStep_tokens _).noBlank step _) restText
        exact List.length_eq_zero_iff.1 (by omega)
      subst nothing
      exact ⟨text, step, restText, by simpa using length⟩
    · split at ok
      · rename_i isBrace
        subst isBrace
        split at ok
        · rename_i closes
          obtain ⟨rfl, rfl⟩ := Prod.mk.inj (Except.ok.inj ok)
          obtain ⟨gap, gapBlank, gapRest, gapLength⟩ := whitespace_sound data (start + 1)
          refine ⟨_, .emptyObject gapBlank, ?_, ?_⟩
          · rw [drop_of_getElem? first, gapRest, drop_of_getElem? closes]
            simp
          · simp only [List.length_cons, List.length_append, List.length_nil]
            omega
        · rw [objectLoop_eq (valueAt_skips data levels), membersLoop_skips] at ok
          obtain ⟨objectStop, object, shape⟩ := map_eq_ok ok
          obtain ⟨rfl, rfl⟩ := Prod.mk.inj shape
          obtain ⟨⟨entries, close⟩, loop, rfl⟩ := map_eq_ok object
          obtain ⟨members, nonempty, valid, unicode, distinct, -, restLoop, length, -⟩ :=
            membersLoop_sound sound (value_tokens levels) loop
          have step := ValueStep.object nonempty valid distinct
          rw [List.all_eq_true.2 unicode] at step
          refine ⟨_, step, ?_, ?_⟩
          · rw [drop_of_getElem? first, restLoop]
            simp
          · simp only [List.length_cons, List.length_append, List.length_nil]
            omega
      · split at ok
        · rename_i isBracket
          subst isBracket
          split at ok
          · rename_i closes
            obtain ⟨rfl, rfl⟩ := Prod.mk.inj (Except.ok.inj ok)
            obtain ⟨gap, gapBlank, gapRest, gapLength⟩ := whitespace_sound data (start + 1)
            refine ⟨_, .emptyArray gapBlank, ?_, ?_⟩
            · rw [drop_of_getElem? first, gapRest, drop_of_getElem? closes]
              simp
            · simp only [List.length_cons, List.length_append, List.length_nil]
              omega
          · rw [arrayLoop_skips (valueAt_skips data levels)] at ok
            obtain ⟨arrayStop, loop, shape⟩ := map_eq_ok ok
            obtain ⟨rfl, rfl⟩ := Prod.mk.inj shape
            obtain ⟨elements, nonempty, valid, unicode, restLoop, length⟩ :=
              arrayLoop_sound sound loop
            have step := ValueStep.array nonempty valid
            rw [List.all_eq_true.2 unicode] at step
            refine ⟨_, step, ?_, ?_⟩
            · rw [drop_of_getElem? first, restLoop]
              simp
            · simp only [List.length_cons, List.length_append, List.length_nil]
              omega
        · split at ok
          · rename_i word
            obtain ⟨rfl, rfl⟩ := Prod.mk.inj (Except.ok.inj ok)
            exact ⟨_, .literalTrue, (getRange_eq_some word).1, rfl⟩
          · split at ok
            · rename_i word
              obtain ⟨rfl, rfl⟩ := Prod.mk.inj (Except.ok.inj ok)
              exact ⟨_, .literalFalse, (getRange_eq_some word).1, rfl⟩
            · split at ok
              · rename_i word
                obtain ⟨rfl, rfl⟩ := Prod.mk.inj (Except.ok.inj ok)
                exact ⟨_, .literalNull, (getRange_eq_some word).1, rfl⟩
              · split at ok
                · obtain ⟨numberStop, numberOk, shape⟩ := map_eq_ok ok
                  obtain ⟨rfl, rfl⟩ := Prod.mk.inj shape
                  obtain ⟨text, token, restText, length⟩ := number_sound numberOk
                  exact ⟨text, .number token, restText, length⟩
                · simp [fail] at ok

theorem valueAt_complete (data : Bytes) (levels : Nat) :
    Complete data (Json.valueAt data levels) (Value helper levels) := by
  induction levels with
  | zero => exact fun cursor lead text post boolean unicode blank impossible => impossible.elim
  | succ levels ih => exact valueAt_step_complete ih

theorem valueAt_sound (data : Bytes) (levels : Nat) :
    Sound data (Json.valueAt data levels) (Value helper levels) := by
  induction levels with
  | zero =>
      intro cursor boolean stop ok
      simp [Json.valueAt, fail] at ok
  | succ levels ih => exact valueAt_step_sound ih

/-! ## Boolean literals -/

def literal (b : Bool) : Bytes :=
  if b then ascii "true" else ascii "false"

theorem ne_literal {text : Bytes} {first : UInt8} (head : text.head? = some first)
    (other : first ≠ 0x74 ∧ first ≠ 0x66) (b : Bool) : text ≠ literal b := by
  rintro rfl
  cases b
  · exact other.2 (Option.some.inj head).symm
  · exact other.1 (Option.some.inj head).symm

/-- A value is a boolean literal when it is marked as one. -/
theorem boolean_iff {L : Lexicon} (opens : ∀ text key, L.string text key → text.head? = some quote)
    {levels : Nat} {text : Bytes} {boolean : Option Bool} {unicode : Bool}
    (value : Value L levels text boolean unicode) (b : Bool) :
    boolean = some b ↔ text = literal b := by
  cases levels with
  | zero => exact value.elim
  | succ levels =>
      have never : ∀ {first : UInt8}, text.head? = some first → first ≠ 0x74 ∧ first ≠ 0x66 →
          (none = some b ↔ text = literal b) := by
        intro first head other
        constructor
        · intro impossible
          cases impossible
        · intro is
          exact absurd is (ne_literal head other b)
      cases value with
      | string token => exact never (opens _ _ token) (by decide)
      | number token =>
          obtain ⟨first, rest, rfl, numeric⟩ := number_head token
          refine never rfl ⟨?_, ?_⟩
          · rintro rfl
            exact absurd numeric (by unfold Numeric; decide)
          · rintro rfl
            exact absurd numeric (by unfold Numeric; decide)
      | literalTrue => cases b <;> decide
      | literalFalse => cases b <;> decide
      | literalNull => cases b <;> decide
      | emptyObject spaces => exact never rfl (by decide)
      | object nonempty valid distinct => exact never rfl (by decide)
      | emptyArray spaces => exact never rfl (by decide)
      | array nonempty valid => exact never rfl (by decide)

/-! ## Documents -/

/-- What `locate` reports of a document. -/
def located (d : Document) (wanted : List Char) : Located where
  found := lastNamed wanted none (places d.members (d.lead.length + 1))
  close := d.lead.length + 1 + d.body.length
  any := !d.members.isEmpty

/-- The levels of nesting left to a member's value. -/
abbrev memberLevels : Nat := 64

theorem locate_complete {d : Document} (valid : d.Valid helper memberLevels) (wanted : List Char) :
    Reads (locate d.render wanted) d.unicode (located d wanted) := by
  have rest : d.render.drop 0 = d.lead ++ openBrace :: (d.body ++ closeBrace :: d.trail) := rfl
  have opens := byte_complete valid.lead (by decide) rest
  have behindBrace := drop_succ (drop_add_length rest)
  rw [Nat.zero_add] at opens behindBrace
  have atClose := drop_add_length behindBrace
  have closes : Json.byte d.render closeBrace (d.lead.length + 1 + d.body.length) =
      .ok (d.lead.length + 1 + d.body.length + 1) :=
    byte_complete .nil (by decide) atClose
  have ends : Json.whitespace d.render (d.lead.length + 1 + d.body.length + 1) =
      d.render.length := by
    have behindClose : d.render.drop (d.lead.length + 1 + d.body.length + 1) = d.trail ++ [] := by
      rw [drop_succ atClose, List.append_nil]
    rw [whitespace_complete valid.trail .nil behindClose]
    simp only [Document.render, List.length_append, List.length_cons]
    omega
  by_cases empty : d.members = []
  · have body : d.body = d.inside := by rw [Document.body, if_pos empty]
    have skipped := whitespace_complete valid.inside (.cons d.trail (by decide)) (body ▸ behindBrace)
    have brace := getElem?_of_drop atClose
    rw [← body] at skipped
    rw [show d.unicode = true by rw [Document.unicode, empty]; rfl]
    apply reads_true.2
    simp [locate, opens, skipped, brace, closes, ends, located, empty, places, lastNamed]
  · have body : d.body = separated (d.members.map Member.render) := by
      rw [Document.body, if_neg empty]
    have opens' := members_first empty valid.members (body ▸ behindBrace)
    have enough : d.members.length ≤ d.render.length + 1 := by
      have := length_le_separated (d.members.map Member.render)
      simp only [Document.render, body, List.length_append, List.length_cons, List.length_map] at *
      omega
    have loop := membersLoop_complete (valueAt_complete d.render memberLevels)
      (value_tokens memberLevels) (valueAt_skips d.render memberLevels) empty valid.members
      valid.distinct (fun m member key named => List.not_mem_nil) enough (body ▸ behindBrace)
    have same : Json.value d.render 1 = Json.valueAt d.render memberLevels := rfl
    have notClose : (quote : UInt8) ≠ closeBrace := by decide
    rw [← Bool.and_true d.unicode]
    refine loop.step (fun failure failed => ?_) fun _ loopOk => ?_
    · simp [locate, opens, opens', notClose, locateLoop_eq, same, membersLoop_skips, failed,
        Except.map]
    · apply reads_true.2
      rw [← body] at loopOk
      simp [locate, opens, opens', notClose, locateLoop_eq, same, membersLoop_skips, loopOk,
        Except.map, closes, ends, located, empty]

theorem locate_sound {data : Bytes} {wanted : List Char} {result : Located}
    (ok : locate data wanted = .ok result) :
    ∃ d : Document, d.Valid helper memberLevels ∧ d.unicode = true ∧ d.render = data ∧
      result = located d wanted := by
  -- it is enough to find the document: what is reported of it is then known
  suffices found : ∃ d : Document, d.Valid helper memberLevels ∧ d.unicode = true ∧
      d.render = data by
    obtain ⟨d, valid, unicode, render⟩ := found
    refine ⟨d, valid, unicode, render, ?_⟩
    have reads := locate_complete valid wanted
    rw [render, ok, unicode] at reads
    exact Except.ok.inj (reads_true.1 reads)
  unfold locate at ok
  split at ok
  · simp [fail] at ok
  · simp at ok
  · rename_i braceStop braceOk
    obtain ⟨lead, leadBlank, leadRest, leadLength⟩ := byte_sound braceOk
    rw [List.drop_zero] at leadRest
    dsimp only at ok
    split at ok
    · simp at ok
    · rename_i found stop loopOk
      split at ok
      · simp at ok
      · rename_i closeStop closeOk
        split at ok
        · rename_i ends
          obtain ⟨trail, trailBlank, trailRest, -⟩ := whitespace_sound data closeStop
          rw [ends, List.drop_length, List.append_nil] at trailRest
          -- the loop leaves the cursor at the closing brace
          have behind : ∀ {post}, data.drop stop = closeBrace :: post → data.drop closeStop = post := by
            intro post atBrace
            have expected := byte_complete .nil (by decide) (show data.drop stop = [] ++ _ from atBrace)
            rw [closeOk] at expected
            rw [Except.ok.inj expected, List.length_nil, Nat.add_zero, drop_succ atBrace]
          by_cases empty : data[Json.whitespace data braceStop]? = some closeBrace
          · simp only [empty, ne_eq, not_true_eq_false, if_false] at loopOk
            obtain ⟨rfl, rfl⟩ := Prod.mk.inj (Except.ok.inj loopOk)
            obtain ⟨inside, insideBlank, insideRest, -⟩ := whitespace_sound data braceStop
            have atBrace := drop_of_getElem? empty
            refine ⟨⟨lead, inside, [], trail⟩, ⟨leadBlank, insideBlank, by simp, List.nodup_nil,
              trailBlank⟩, rfl, ?_⟩
            rw [leadRest, insideRest, atBrace, ← behind atBrace, trailRest]
            rfl
          · simp only [empty, ne_eq, not_false_eq_true, if_true] at loopOk
            rw [locateLoop_eq, membersLoop_skips] at loopOk
            obtain ⟨⟨entries, close⟩, loop, shape⟩ := map_eq_ok loopOk
            obtain ⟨-, rfl⟩ := Prod.mk.inj shape
            obtain ⟨members, nonempty, valid, unicode, distinct, -, restLoop, length, -⟩ :=
              membersLoop_sound (valueAt_sound data memberLevels) (value_tokens memberLevels) loop
            have atBrace : data.drop close = closeBrace :: data.drop (close + 1) := by
              have behindMembers := drop_add_length restLoop
              rwa [← length] at behindMembers
            refine ⟨⟨lead, [], members, trail⟩, ⟨leadBlank, Blank.nil, valid, distinct, trailBlank⟩,
              List.all_eq_true.2 unicode, ?_⟩
            rw [leadRest, restLoop, ← behind atBrace, trailRest, Document.render, Document.body,
              if_neg nonempty]
        · simp [fail] at ok

end Luhmen.Guest
