/-
# Guest.JsonSafety -- the helper's JSON scanner cannot panic

For a configuration of at most 1 MiB, every event of `Guest.JsonTrace` is safe and every
run ends in a value or an error with a message (`parser_safe`).

Each function meets a contract of the same form: from a cursor inside of the data it
ends with a cursor that is further on and still inside (`Onward`).  The scanner's skip
over an escape is the one place that leaves the data for a moment, and it looks before it
goes on.  The decoder relies on nothing the scanner has seen but that its text is not
empty.  Loops have fuel for what is left behind the cursor, so that running out of it
contradicts the invariant.
-/
import Luhmen.Guest.JsonExact
import Luhmen.Guest.JsonTrace

namespace Luhmen.Guest.Tracing

open Luhmen.Theory

set_option autoImplicit false

/-- All events are safe, and the result is a value with `post` or an error. -/
abbrev Fine {α : Type} (run : Run α) (post : α → Prop) : Prop :=
  run.Meets Event.Safe post

theorem fails_fine {α : Type} {post : α → Prop} (message : String) : Fine (fails message) post :=
  .fail message

/-! ## Single accesses -/

theorem index_fine {bytes : Bytes} {position : Nat} (inside : position < bytes.length) :
    Fine (index bytes position) fun b => bytes[position]? = some b := by
  refine .noted inside ?_
  rw [List.getElem?_eq_getElem inside]
  exact .pure rfl

theorem slice_fine {bytes : Bytes} {start stop : Nat} (ordered : start ≤ stop)
    (inside : stop ≤ bytes.length) :
    Fine (slice bytes start stop) fun text => text.length = stop - start := by
  refine .noted ⟨ordered, inside⟩ ?_
  rw [Guest.slice, if_pos ⟨ordered, inside⟩]
  refine .pure ?_
  rw [List.length_drop, List.length_take]
  omega

theorem unwrap_fine {α : Type} {value : Option α} (there : value.isSome = true) :
    Fine (unwrap value) fun _ => True := by
  cases value with
  | none => cases there
  | some value => exact .noted rfl (.pure trivial)

theorem subtract_fine {a b : Nat} (ordered : b ≤ a) : Fine (subtract a b) fun n => n = a - b :=
  .noted ordered (.pure rfl)

/-- A cursor near the data is far from the end of its type. -/
theorem turn_safe {data : Bytes} (small : data.length ≤ limit) {before after : Nat}
    (advances : before < after) (near : after ≤ data.length + 12) :
    Event.Safe (.turn before after) := by
  have bound : limit + 12 < 2 ^ 64 := by decide
  exact ⟨advances, by omega⟩

/-! ## `decode_json_string` -/

theorem surrogates_fine {value low : Nat} (high : 0xd800 ≤ value ∧ value ≤ 0xdbff)
    (isLow : 0xdc00 ≤ low ∧ low ≤ 0xdfff) : Fine (surrogates value low) fun _ => True := by
  refine (subtract_fine high.1).bind fun upper _ is => ?_
  refine (subtract_fine isLow.1).bind fun lower _ is' => ?_
  refine .noted ?_ (.pure trivial)
  show 0x10000 + (upper <<< 10) + lower ≤ 0x10ffff
  rw [Nat.shiftLeft_eq]
  omega

theorem pushed_fine (scalar : Option Char) (next : Nat) :
    Fine (pushed scalar next) fun read => read.2 = next := by
  cases scalar with
  | none => exact fails_fine _
  | some ch => exact .pure rfl

/-- What one turn of the decoder reads: at least a byte and at most two escapes. -/
def Step (cursor : Nat) (read : Char × Nat) : Prop :=
  cursor < read.2 ∧ read.2 ≤ cursor + 12

theorem unicodeEscape_fine (bytes : Bytes) (cursor : Nat) :
    Fine (unicodeEscape bytes cursor) (Step cursor) := by
  have six : ∀ read : Char × Nat, read.2 = cursor + 6 → Step cursor read := by
    intro read is
    unfold Step
    omega
  have twelve : ∀ read : Char × Nat, read.2 = cursor + 12 → Step cursor read := by
    intro read is
    unfold Step
    omega
  unfold unicodeEscape
  cases (getRange bytes (cursor + 2) (cursor + 6)).bind fromStrRadix16 with
  | none => exact fails_fine _
  | some value =>
    dsimp only
    by_cases high : 0xd800 ≤ value ∧ value ≤ 0xdbff
    · rw [if_pos high]
      split
      · cases (getRange bytes (cursor + 8) (cursor + 12)).bind fromStrRadix16 with
        | none => exact fails_fine _
        | some low =>
          dsimp only
          by_cases isLow : 0xdc00 ≤ low ∧ low ≤ 0xdfff
          · rw [if_pos isLow]
            exact (surrogates_fine high isLow).bind fun scalar _ _ =>
              (pushed_fine _ _).mono twelve
          · rw [if_neg isLow]
            exact fails_fine _
      · exact fails_fine _
    · rw [if_neg high]
      split
      · exact fails_fine _
      · exact (pushed_fine _ _).mono six

/-- A text that is not empty has a first character. -/
theorem head_there {bytes : Bytes} {text : List Char} (decoded : Utf8.fromUtf8 bytes = some text)
    (nonempty : bytes ≠ []) : text.head?.isSome = true := by
  cases text with
  | nil => exact absurd (Utf8.encode_of_decode decoded) nonempty
  | cons ch text => rfl

theorem decodeOne_fine {bytes : Bytes} {cursor : Nat} (inside : cursor + 1 < bytes.length) :
    Fine (decodeOne bytes cursor) (Step cursor) := by
  refine (index_fine (by omega)).bind fun b _ _ => ?_
  split
  · refine (subtract_fine (by omega)).bind fun stop _ is => ?_
    refine (slice_fine (by omega) (by omega)).bind fun rest _ length => ?_
    cases decoded : Utf8.fromUtf8 rest with
    | none => exact fails_fine _
    | some text =>
      have nonempty : rest ≠ [] := by
        rintro rfl
        rw [List.length_nil] at length
        omega
      refine (unwrap_fine (head_there decoded nonempty)).bind fun ch _ _ => .pure ?_
      have least := ch.utf8Size_pos
      have most := ch.utf8Size_le_four
      unfold Step
      omega
  · cases bytes[cursor + 1]? with
    | none => exact fails_fine _
    | some letter =>
      dsimp only
      split
      · exact unicodeEscape_fine bytes cursor
      · cases simpleEscape letter with
        | none => exact fails_fine _
        | some ch =>
          refine .pure ?_
          unfold Step
          omega

theorem decodeLoop_fine {bytes : Bytes} (small : bytes.length ≤ limit) {fuel cursor : Nat}
    (positive : 0 < fuel) (enough : bytes.length < cursor + fuel) :
    Fine (decodeLoop bytes fuel cursor) fun _ => True := by
  induction fuel generalizing cursor with
  | zero => exact absurd positive (Nat.lt_irrefl 0)
  | succ fuel ih =>
    rw [decodeLoop]
    by_cases inside : cursor + 1 < bytes.length
    · rw [if_pos inside]
      refine (decodeOne_fine inside).bind fun read _ step => ?_
      obtain ⟨ch, next⟩ := read
      obtain ⟨advances, near⟩ := step
      dsimp only at advances near ⊢
      refine .noted (turn_safe small advances (by omega)) ?_
      exact (ih (by omega) (by omega)).bind fun text _ _ => .pure trivial
    · rw [if_neg inside]
      exact .pure trivial

theorem decodeJsonString_fine {bytes : Bytes} (small : bytes.length ≤ limit) :
    Fine (decodeJsonString bytes) fun _ => True :=
  decodeLoop_fine small (Nat.succ_pos _) (by omega)

/-! ## `Json` -/

/-- Further on than `cursor`, and inside of the data or at its end. -/
def Onward (data : Bytes) (cursor stop : Nat) : Prop :=
  cursor < stop ∧ stop ≤ data.length

/-- The same, or at `cursor`. -/
def Reached (data : Bytes) (cursor stop : Nat) : Prop :=
  cursor ≤ stop ∧ stop ≤ data.length

theorem inside_of_found {data : Bytes} {cursor : Nat} {b : UInt8} (found : data[cursor]? = some b) :
    cursor + 1 ≤ data.length :=
  (List.getElem?_eq_some_iff.1 found).1

section Scanner

variable {data : Bytes} {cursor : Nat}

theorem skipWhile_fine (small : data.length ≤ limit) {keep : UInt8 → Bool} {fuel : Nat}
    (inside : cursor ≤ data.length) (enough : data.length < cursor + fuel) :
    Fine (skipWhile keep data fuel cursor) (Reached data cursor) := by
  induction fuel generalizing cursor with
  | zero => omega
  | succ fuel ih =>
    rw [skipWhile]
    cases found : data[cursor]? with
    | none => exact .pure ⟨Nat.le_refl _, inside⟩
    | some b =>
      have room := inside_of_found found
      split
      · refine .noted (turn_safe small (Nat.lt_succ_self _) (by omega)) ?_
        refine (ih room (by omega)).mono fun stop reached => ?_
        exact ⟨Nat.le_of_succ_le reached.1, reached.2⟩
      · exact .pure ⟨Nat.le_refl _, inside⟩

theorem whitespace_fine (small : data.length ≤ limit) (inside : cursor ≤ data.length) :
    Fine (whitespace data cursor) (Reached data cursor) :=
  skipWhile_fine small inside (by omega)

theorem digits_fine (small : data.length ≤ limit) (inside : cursor ≤ data.length) :
    Fine (digits data cursor) (Reached data cursor) :=
  skipWhile_fine small inside (by omega)

theorem byte_fine (small : data.length ≤ limit) {expected : UInt8} (inside : cursor ≤ data.length) :
    Fine (byte data expected cursor) (Onward data cursor) := by
  refine (whitespace_fine small inside).bind fun found _ reached => ?_
  split
  · rename_i here
    exact .pure ⟨Nat.lt_succ_of_le reached.1, inside_of_found here⟩
  · exact fails_fine _

theorem scanStep_fine (small : data.length ≤ limit) :
    Fine (scanStep data cursor) fun turn => Onward data cursor turn.2 := by
  unfold scanStep
  cases found : data[cursor]? with
  | none => exact fails_fine _
  | some b =>
    have room := inside_of_found found
    have one : Onward data cursor (cursor + 1) := ⟨Nat.lt_succ_self _, room⟩
    dsimp only
    split
    · exact .noted (turn_safe small one.1 (by omega)) (.pure one)
    split
    · refine (subtract_fine (by omega)).bind fun letter _ is => ?_
      -- the cursor may be behind the data here
      have skips : ∀ next, next = cursor + 2 + 4 ∨ next = cursor + 2 →
          Fine (note (.turn cursor next) >>= fun _ =>
            if next > data.length then fails "unterminated JSON string"
            else pure (false, next)) fun turn => Onward data cursor turn.2 := by
        intro next is
        refine .noted (turn_safe small (by omega) (by omega)) ?_
        split
        · exact fails_fine _
        · refine .pure ⟨?_, Nat.le_of_not_lt ‹_›⟩
          show cursor < next
          omega
      apply skips
      split
      · exact .inl rfl
      · exact .inr rfl
    split
    · exact fails_fine _
    · exact .noted (turn_safe small one.1 (by omega)) (.pure one)

theorem scan_fine (small : data.length ≤ limit) {fuel : Nat} (inside : cursor ≤ data.length)
    (enough : data.length < cursor + fuel) : Fine (scan data fuel cursor) (Onward data cursor) := by
  induction fuel generalizing cursor with
  | zero => omega
  | succ fuel ih =>
    rw [scan]
    refine (scanStep_fine small).bind fun turn _ onward => ?_
    obtain ⟨closed, next⟩ := turn
    obtain ⟨advances, inside'⟩ := onward
    dsimp only at advances inside' ⊢
    split
    · exact .pure ⟨advances, inside'⟩
    · refine (ih inside' (by omega)).mono fun stop further => ?_
      exact ⟨advances.trans further.1, further.2⟩

theorem string_fine (small : data.length ≤ limit) (inside : cursor ≤ data.length) :
    Fine (string data cursor) fun read => Onward data cursor read.2 := by
  refine (whitespace_fine small inside).bind fun start _ reached => ?_
  split
  · rename_i opens
    have room := inside_of_found opens
    refine (scan_fine small room (by omega)).bind fun stop _ onward => ?_
    refine (slice_fine (by have := onward.1; omega) onward.2).bind fun token _ length => ?_
    have short : token.length ≤ limit := by
      have := onward.2
      omega
    refine (decodeJsonString_fine short).bind fun text _ _ => .pure ⟨?_, onward.2⟩
    have := reached.1
    have := onward.1
    show cursor < stop
    omega
  · exact fails_fine _

/-! ### Numbers -/

theorem integerPart_fine (small : data.length ≤ limit) :
    Fine (integerPart data cursor) (Onward data cursor) := by
  unfold integerPart
  cases found : data[cursor]? with
  | none => exact fails_fine _
  | some b =>
    have room := inside_of_found found
    dsimp only
    split
    · split
      · exact fails_fine _
      · exact .pure ⟨Nat.lt_succ_self _, room⟩
    split
    · exact (digits_fine small room).mono fun stop reached => ⟨reached.1, reached.2⟩
    · exact fails_fine _

theorem someDigits_fine (small : data.length ≤ limit) (inside : cursor ≤ data.length) :
    Fine (someDigits data cursor) (Reached data cursor) := by
  refine (digits_fine small inside).bind fun stop _ reached => ?_
  split
  · exact fails_fine _
  · exact .pure reached

theorem fractionPart_fine (small : data.length ≤ limit) (inside : cursor ≤ data.length) :
    Fine (fractionPart data cursor) (Reached data cursor) := by
  unfold fractionPart
  split
  · rename_i point
    refine (someDigits_fine small (inside_of_found point)).mono fun stop reached => ?_
    exact ⟨Nat.le_of_succ_le reached.1, reached.2⟩
  · exact .pure ⟨Nat.le_refl _, inside⟩

theorem exponentPart_fine (small : data.length ≤ limit) (inside : cursor ≤ data.length) :
    Fine (exponentPart data cursor) (Reached data cursor) := by
  unfold exponentPart
  split
  · rename_i letter
    have room : cursor + 1 ≤ data.length := letter.elim inside_of_found inside_of_found
    split
    · rename_i sign
      have more : cursor + 1 + 1 ≤ data.length := sign.elim inside_of_found inside_of_found
      refine (someDigits_fine small more).mono fun stop reached => ?_
      exact ⟨Nat.le_trans (Nat.le_add_right _ 2) reached.1, reached.2⟩
    · refine (someDigits_fine small room).mono fun stop reached => ?_
      exact ⟨Nat.le_of_succ_le reached.1, reached.2⟩
  · exact .pure ⟨Nat.le_refl _, inside⟩

theorem number_fine (small : data.length ≤ limit) :
    Fine (number data cursor) (Onward data cursor) := by
  refine (integerPart_fine small).bind fun behind _ integer => ?_
  refine (fractionPart_fine small integer.2).bind fun further _ fraction => ?_
  refine (exponentPart_fine small fraction.2).mono fun stop exponent => ?_
  have signed : cursor ≤ if data[cursor]? = some 0x2d then cursor + 1 else cursor := by
    split <;> omega
  have := integer.1
  have := fraction.1
  have := exponent.1
  exact ⟨by omega, exponent.2⟩

/-! ### Values -/

/-- What a function that reads values does from any cursor inside of the data. -/
def ReadsOnward (data : Bytes) (value : Nat → Run (Option Bool × Nat)) : Prop :=
  ∀ cursor, cursor ≤ data.length → Fine (value cursor) fun read => Onward data cursor read.2

theorem objectLoop_fine (small : data.length ≤ limit) {value : Nat → Run (Option Bool × Nat)}
    (reads : ReadsOnward data value) {fuel : Nat} {keys : List (List Char)}
    (inside : cursor ≤ data.length) (enough : data.length < cursor + fuel) :
    Fine (objectLoop value data fuel keys cursor) (Onward data cursor) := by
  induction fuel generalizing keys cursor with
  | zero => omega
  | succ fuel ih =>
    rw [objectLoop]
    refine (string_fine small inside).bind fun token _ isKey => ?_
    obtain ⟨key, behind⟩ := token
    dsimp only at isKey ⊢
    split
    · exact fails_fine _
    refine (byte_fine small isKey.2).bind fun start _ isColon => ?_
    refine (reads start isColon.2).bind fun read _ isValue => ?_
    obtain ⟨boolean, stop⟩ := read
    dsimp only at isValue ⊢
    refine (whitespace_fine small isValue.2).bind fun close _ blank => ?_
    have order : cursor < close := by
      have := isKey.1
      have := isColon.1
      have := isValue.1
      have := blank.1
      omega
    split
    · rename_i isComma
      have room := inside_of_found isComma
      refine .noted (turn_safe small (by omega) (by omega)) ?_
      refine (ih room (by omega)).mono fun last further => ?_
      exact ⟨(Nat.lt_succ_of_lt order).trans further.1, further.2⟩
    split
    · rename_i isBrace
      have room := inside_of_found isBrace
      exact .noted (turn_safe small (by omega) (by omega)) (.pure ⟨Nat.lt_succ_of_lt order, room⟩)
    · exact fails_fine _

theorem arrayLoop_fine (small : data.length ≤ limit) {value : Nat → Run (Option Bool × Nat)}
    (reads : ReadsOnward data value) {fuel : Nat} (inside : cursor ≤ data.length)
    (enough : data.length < cursor + fuel) :
    Fine (arrayLoop value data fuel cursor) (Onward data cursor) := by
  induction fuel generalizing cursor with
  | zero => omega
  | succ fuel ih =>
    rw [arrayLoop]
    refine (reads cursor inside).bind fun read _ isValue => ?_
    obtain ⟨boolean, stop⟩ := read
    dsimp only at isValue ⊢
    refine (whitespace_fine small isValue.2).bind fun close _ blank => ?_
    have order : cursor < close := Nat.lt_of_lt_of_le isValue.1 blank.1
    split
    · rename_i isComma
      have room := inside_of_found isComma
      refine .noted (turn_safe small (by omega) (by omega)) ?_
      refine (ih room (by omega)).mono fun last further => ?_
      exact ⟨(Nat.lt_succ_of_lt order).trans further.1, further.2⟩
    split
    · rename_i isBracket
      have room := inside_of_found isBracket
      exact .noted (turn_safe small (by omega) (by omega)) (.pure ⟨Nat.lt_succ_of_lt order, room⟩)
    · exact fails_fine _

theorem literal_onward {start : Nat} {text : Bytes} {count : Nat} (reached : Reached data cursor start)
    (found : getRange data start (start + count) = some text) (positive : 0 < count) :
    Onward data cursor (start + count) := by
  unfold getRange at found
  split at found
  · rename_i range
    have := reached.1
    exact ⟨by omega, range.2⟩
  · cases found

/-- The depth check ends the recursion: no more calls are open than `depth` says. -/
theorem valueAt_fine (small : data.length ≤ limit) {fuel enclosing depth : Nat}
    (counted : enclosing < depth) (shallow : depth ≤ 65) (enough : 65 - depth < fuel)
    (inside : cursor ≤ data.length) :
    Fine (valueAt data fuel enclosing depth cursor) fun read => Onward data cursor read.2 := by
  induction fuel generalizing enclosing depth cursor with
  | zero => exact absurd enough (Nat.not_lt_zero _)
  | succ fuel ih =>
    rw [valueAt]
    have called : Event.Safe (.call (enclosing + 1) depth) := by
      refine ⟨?_, ?_⟩ <;> omega
    refine .noted called ?_
    split
    · exact fails_fine _
    have inner : ReadsOnward data (valueAt data fuel (enclosing + 1) (depth + 1)) :=
      fun cursor inside => ih (by omega) (by omega) (by omega) inside
    refine (whitespace_fine small inside).bind fun start _ reached => ?_
    cases found : data[start]? with
    | none => exact fails_fine _
    | some b =>
      have room := inside_of_found found
      have beyond : ∀ {stop}, Onward data start stop → Onward data cursor stop :=
        fun onward => ⟨Nat.lt_of_le_of_lt reached.1 onward.1, onward.2⟩
      dsimp only
      split
      · refine (string_fine small reached.2).bind fun token _ onward => ?_
        exact .pure (beyond onward)
      split
      · refine (whitespace_fine small room).bind fun first _ blank => ?_
        have past : start < first := blank.1
        split
        · rename_i closes
          exact .pure (beyond ⟨Nat.lt_succ_of_lt past, inside_of_found closes⟩)
        · refine (objectLoop_fine small inner blank.2 (by omega)).bind fun stop _ onward => ?_
          exact .pure (beyond ⟨past.trans onward.1, onward.2⟩)
      split
      · refine (whitespace_fine small room).bind fun first _ blank => ?_
        have past : start < first := blank.1
        split
        · rename_i closes
          exact .pure (beyond ⟨Nat.lt_succ_of_lt past, inside_of_found closes⟩)
        · refine (arrayLoop_fine small inner blank.2 (by omega)).bind fun stop _ onward => ?_
          exact .pure (beyond ⟨past.trans onward.1, onward.2⟩)
      split
      · exact .pure (literal_onward reached ‹_› (by decide))
      split
      · exact .pure (literal_onward reached ‹_› (by decide))
      split
      · exact .pure (literal_onward reached ‹_› (by decide))
      split
      · refine (number_fine small).bind fun stop _ onward => ?_
        exact .pure (beyond onward)
      · exact fails_fine _

theorem value_fine (small : data.length ≤ limit) (inside : cursor ≤ data.length) :
    Fine (value data 1 cursor) fun read => Onward data cursor read.2 :=
  valueAt_fine small (by decide) (by decide) (by decide) inside

end Scanner

/-! ## `locate`, `boolean_field`, `disabled_config` -/

/-- A value that was found is inside of the data. -/
def Within (data : Bytes) (found : Option LocatedValue) : Prop :=
  ∀ value, found = some value → value.start ≤ data.length ∧ value.stop ≤ data.length

theorem locateLoop_fine {data : Bytes} (small : data.length ≤ limit) (wanted : List Char)
    {fuel cursor : Nat} {keys : List (List Char)} {found : Option LocatedValue}
    (within : Within data found) (inside : cursor ≤ data.length)
    (enough : data.length < cursor + fuel) :
    Fine (locateLoop data wanted fuel keys found cursor) fun read =>
      Within data read.1 ∧ read.2 ≤ data.length := by
  induction fuel generalizing keys found cursor with
  | zero => omega
  | succ fuel ih =>
    rw [locateLoop]
    refine (string_fine small inside).bind fun token _ isKey => ?_
    obtain ⟨key, behind⟩ := token
    dsimp only at isKey ⊢
    split
    · exact fails_fine _
    refine (byte_fine small isKey.2).bind fun colon' _ isColon => ?_
    refine (whitespace_fine small isColon.2).bind fun start _ begins => ?_
    refine (value_fine small begins.2).bind fun read _ isValue => ?_
    obtain ⟨boolean, stop⟩ := read
    dsimp only at isValue ⊢
    refine (whitespace_fine small isValue.2).bind fun close _ blank => ?_
    have order : cursor < close := by
      have := isKey.1
      have := isColon.1
      have := begins.1
      have := isValue.1
      have := blank.1
      omega
    have within' : Within data (if key = wanted then some ⟨start, stop, boolean⟩ else found) := by
      split
      · intro value is
        cases is
        exact ⟨begins.2, isValue.2⟩
      · exact within
    split
    · rename_i isComma
      have room := inside_of_found isComma
      exact .noted (turn_safe small (by omega) (by omega)) (ih within' room (by omega))
    split
    · rename_i isBrace
      have room := inside_of_found isBrace
      exact .noted (turn_safe small order (by omega)) (.pure ⟨within', Nat.le_of_succ_le room⟩)
    · exact fails_fine _

theorem objectStart_fine {run : Run Nat} {post : Nat → Prop} (fine : Fine run post) :
    Fine (objectStart run) post := by
  refine ⟨fine.events, ?_⟩
  have ends := fine.ends
  unfold objectStart
  cases result : run.result with
  | ok value =>
    rw [result] at ends
    exact ends
  | error failure =>
    rw [result] at ends
    cases failure with
    | error message => trivial
    | panic => exact ends
    | diverges => exact ends

theorem locate_fine {data : Bytes} (small : data.length ≤ limit) (wanted : List Char) :
    Fine (locate data wanted) fun located =>
      Within data located.found ∧ located.close ≤ data.length := by
  refine (objectStart_fine (byte_fine small (Nat.zero_le _))).bind fun inner _ opens => ?_
  refine (whitespace_fine small opens.2).bind fun first _ blank => ?_
  have nowhere : Within data none := fun value is => nomatch is
  have listed : Fine (members data wanted (decide (data[first]? ≠ some closeBrace)) first)
      fun read => Within data read.1 ∧ read.2 ≤ data.length := by
    unfold members
    split
    · exact locateLoop_fine small wanted nowhere blank.2 (by omega)
    · exact .pure ⟨nowhere, blank.2⟩
  refine listed.bind fun read _ reads => ?_
  obtain ⟨found, stop⟩ := read
  obtain ⟨within, inside⟩ := reads
  dsimp only at within inside ⊢
  refine (byte_fine small inside).bind fun behind _ closes => ?_
  refine (subtract_fine (Nat.one_le_of_lt closes.1)).bind fun close _ is => ?_
  refine (whitespace_fine small closes.2).bind fun last _ _ => ?_
  split
  · refine .pure ⟨within, ?_⟩
    have := closes.2
    show close ≤ data.length
    omega
  · exact fails_fine _

theorem booleanField_fine {data : Bytes} (small : data.length ≤ limit) (key : List Char) :
    Fine (booleanField data key) fun _ => True := by
  refine (locate_fine small key).bind fun located _ _ => ?_
  cases located.found with
  | none => exact .pure trivial
  | some value =>
    cases h : value.boolean with
    | none =>
      dsimp only
      rw [h]
      exact fails_fine _
    | some b =>
      dsimp only
      rw [h]
      exact .pure trivial

theorem edited_fine {data : Bytes} {located : Located} (within : Within data located.found)
    (close : located.close ≤ data.length) : Fine (edited data located) fun _ => True := by
  unfold edited
  cases is : located.found with
  | none =>
    refine (slice_fine (Nat.zero_le _) close).bind fun head _ _ => ?_
    exact (slice_fine close (Nat.le_refl _)).bind fun tail _ _ => .pure trivial
  | some value =>
    obtain ⟨start, stop⟩ := within value is
    cases h : value.boolean with
    | none =>
      dsimp only
      rw [h]
      exact fails_fine _
    | some b =>
      dsimp only
      rw [h]
      refine (slice_fine (Nat.zero_le _) start).bind fun head _ _ => ?_
      exact (slice_fine stop (Nat.le_refl _)).bind fun tail _ _ => .pure trivial

theorem disabledConfig_fine {data : Bytes} (small : data.length ≤ limit) :
    Fine (disabledConfig data) fun _ => True := by
  refine (locate_fine small liveRestoreKey).bind fun located _ reads => ?_
  refine (edited_fine reads.1 reads.2).bind fun edited _ _ => ?_
  split
  · exact fails_fine _
  · exact .pure trivial

/-- A run of the scanner that cannot go wrong, and that is a run of the code. -/
structure Harmless {α : Type} (run : Run α) (code : Result α) : Prop where
  same : run.result = code
  events : ∀ event ∈ run.events, event.Safe
  noPanic : code ≠ .error .panic
  terminates : code ≠ .error .diverges

theorem Harmless.of_fine {α : Type} {run : Run α} {code : Result α} {post : α → Prop}
    (same : run.result = code) (fine : Fine run post) : Harmless run code := by
  obtain ⟨noPanic, terminates⟩ := fine.total
  exact ⟨same, fine.events, same ▸ noPanic, same ▸ terminates⟩

/-- **The parser is safe.**  On any file within the limit none of the three readers reads or adds
out of bounds, panics or runs on for ever. -/
theorem parser_safe {data : Bytes} (small : data.length ≤ limit) (key : List Char) :
    Harmless (locate data key) (Guest.locate data key) ∧
      Harmless (booleanField data key) (Guest.booleanField data key) ∧
      Harmless (disabledConfig data) (Guest.disabledConfig data) :=
  ⟨.of_fine (locate_result data key) (locate_fine small key),
    .of_fine (booleanField_result data key) (booleanField_fine small key),
    .of_fine (disabledConfig_result data) (disabledConfig_fine small)⟩

/-- A pair of surrogates, an escape that runs past the end, and nested values. -/
def awkward : Bytes :=
  ascii "\x7b\"\\ud83d\\ude00\":[[-1e5]],\"a\\u12"

theorem parser_safe_awkward :
    Harmless (locate awkward liveRestoreKey) (Guest.locate awkward liveRestoreKey) ∧
      Harmless (booleanField awkward liveRestoreKey) (Guest.booleanField awkward liveRestoreKey) ∧
      Harmless (disabledConfig awkward) (Guest.disabledConfig awkward) :=
  parser_safe (by decide) liveRestoreKey

end Luhmen.Guest.Tracing
