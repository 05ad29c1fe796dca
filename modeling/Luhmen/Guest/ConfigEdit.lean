/-
# Guest.ConfigEdit -- disabling live restore is an edit of one member

`disabled_config` splices bytes at the offsets `locate` reports.  Here the splice is
read as an edit of the document those offsets come from: `disable` sets the
value of the `live-restore` member, or appends that member last.

* `found_at`, `found_nowhere`: what `locate` finds, by the member that has the key;
* `render_split`: a document is what stands before one member's value, the value,
  and what stands behind it;
* `disabledConfig_eq`: on the text of a document, `disabledConfig` returns the text
  of the edited document, or refuses it;
* `disabledConfig_disables`: what that means for whoever reads the file next.
-/
import Luhmen.Guest.JsonValues

namespace Luhmen.Guest

open Luhmen.Theory Luhmen.Theory.JsonGrammar

set_option autoImplicit false

/-! ## One member among the others -/

/-- The text of the members before one, with the comma behind each. -/
def textBefore (before : List Member) : Bytes :=
  before.flatMap fun m => m.render ++ [comma]

/-- The text of the members behind one, with the comma before each. -/
def textBehind (behind : List Member) : Bytes :=
  behind.flatMap fun m => comma :: m.render

theorem separated_cons_map (m : Member) (behind : List Member) :
    separated ((m :: behind).map Member.render) = m.render ++ textBehind behind := by
  induction behind generalizing m with
  | nil => simp [separated, textBehind]
  | cons next behind ih =>
      rw [List.map_cons, separated_cons (by simp), ih, textBehind, textBehind, List.flatMap_cons]
      simp

theorem separated_middle (before : List Member) (m : Member) (behind : List Member) :
    separated ((before ++ m :: behind).map Member.render) =
      textBefore before ++ (m.render ++ textBehind behind) := by
  induction before with
  | nil => exact separated_cons_map m behind
  | cons first before ih =>
      rw [List.cons_append, List.map_cons, separated_cons (by simp), ih, textBefore, textBefore,
        List.flatMap_cons]
      simp

theorem separated_snoc {texts : List Bytes} (text : Bytes) (nonempty : texts ≠ []) :
    separated (texts ++ [text]) = separated texts ++ comma :: text := by
  induction texts with
  | nil => exact absurd rfl nonempty
  | cons first texts ih =>
      by_cases last : texts = []
      · subst last
        rfl
      · rw [List.cons_append, separated_cons (by simp), separated_cons last, ih last]
        simp

theorem places_append (before : List Member) (rest : List Member) (cursor : Nat) :
    places (before ++ rest) cursor =
      places before cursor ++ places rest (cursor + (textBefore before).length) := by
  induction before generalizing cursor with
  | nil => rfl
  | cons first before ih =>
      rw [List.cons_append, places, places, ih, List.cons_append, textBefore, textBefore,
        List.flatMap_cons]
      congr 3
      simp only [List.length_append, List.length_singleton]
      omega

theorem lastNamed_append (wanted : List Char) (found : Option LocatedValue)
    (front back : List (List Char × LocatedValue)) :
    lastNamed wanted found (front ++ back) = lastNamed wanted (lastNamed wanted found front) back :=
  List.foldl_append

/-- Members of other names leave what was found. -/
theorem lastNamed_places {wanted : List Char} {members : List Member} (found : Option LocatedValue)
    (cursor : Nat) (unicode : ∀ m ∈ members, m.unicode = true)
    (others : ∀ m ∈ members, m.key ≠ some wanted) :
    lastNamed wanted found (places members cursor) = found := by
  induction members generalizing cursor with
  | nil => rfl
  | cons m members ih =>
      have other : m.key.getD [] ≠ wanted := by
        intro same
        have isKey := unicode m List.mem_cons_self
        have notWanted := others m List.mem_cons_self
        cases keyIs : m.key with
        | none => simp [Member.unicode, keyIs] at isKey
        | some key =>
            rw [keyIs] at same notWanted
            exact notWanted (congrArg some same)
      have rest := ih (cursor + m.render.length + 1)
        (fun m member => unicode m (List.mem_cons_of_mem _ member))
        (fun m member => others m (List.mem_cons_of_mem _ member))
      simpa only [places, lastNamed, List.foldl_cons, if_neg other] using rest

theorem distinct_append {before behind : List Member} {m : Member} {key : List Char}
    (distinct : Distinct (before ++ m :: behind)) (keyIs : m.key = some key) :
    (∀ other ∈ before, other.key ≠ some key) ∧ ∀ other ∈ behind, other.key ≠ some key := by
  unfold Distinct at distinct
  rw [List.filterMap_append, List.filterMap_cons_some keyIs, List.nodup_append] at distinct
  obtain ⟨-, behindDistinct, apart⟩ := distinct
  constructor
  · intro other member same
    exact apart key (List.mem_filterMap.2 ⟨other, member, same⟩) key List.mem_cons_self rfl
  · intro other member same
    exact (List.nodup_cons.1 behindDistinct).1 (List.mem_filterMap.2 ⟨other, member, same⟩)

/-! ## Slices of a text known by its parts -/

theorem slice_middle (start text post : Bytes) :
    slice (start ++ (text ++ post)) start.length (start.length + text.length) = .ok text := by
  rw [slice, if_pos ⟨by omega, by simp⟩, List.drop_take]
  simp

theorem slice_front (text post : Bytes) : slice (text ++ post) 0 text.length = .ok text := by
  have middle := slice_middle [] text post
  rwa [List.length_nil, Nat.zero_add] at middle

theorem slice_back (text post : Bytes) :
    slice (text ++ post) text.length (text ++ post).length = .ok post := by
  have middle := slice_middle text post []
  rwa [List.append_nil, ← List.length_append] at middle

section Document

variable {d : Document} {before behind : List Member} {m : Member} {wanted : List Char}

/-- What stands before the value of the member behind `before`. -/
def front (d : Document) (before : List Member) (m : Member) : Bytes :=
  d.lead ++ openBrace :: (textBefore before ++ m.head)

/-- What stands behind the value of the member before `behind`. -/
def back (d : Document) (m : Member) (behind : List Member) : Bytes :=
  m.tail ++ (textBehind behind ++ closeBrace :: d.trail)

theorem render_split (split : d.members = before ++ m :: behind) :
    d.render = front d before m ++ (m.value ++ back d m behind) := by
  have nonempty : d.members ≠ [] := by simp [split]
  rw [Document.render, Document.body, if_neg nonempty, split, separated_middle, front, back,
    Member.render]
  simp

theorem found_at (valid : d.Valid helper memberLevels) (unicode : d.unicode = true)
    (split : d.members = before ++ m :: behind) (keyIs : m.key = some wanted) :
    (located d wanted).found = some ⟨(front d before m).length,
      (front d before m).length + m.value.length, m.boolean⟩ := by
  have distinct := valid.distinct
  have unicodes := List.all_eq_true.1 unicode
  rw [split] at distinct unicodes
  obtain ⟨othersBefore, othersBehind⟩ := distinct_append distinct keyIs
  have place : valuePlace m (d.lead.length + 1 + (textBefore before).length) =
      ⟨(front d before m).length, (front d before m).length + m.value.length, m.boolean⟩ := by
    simp only [valuePlace, front, List.length_append, List.length_cons, LocatedValue.mk.injEq]
    exact ⟨by omega, by omega, trivial⟩
  show lastNamed wanted none (places d.members (d.lead.length + 1)) = _
  rw [split, places_append, lastNamed_append,
    lastNamed_places none _ (fun m member => unicodes m (by simp [member])) othersBefore, places,
    lastNamed, List.foldl_cons, keyIs, Option.getD_some, if_pos rfl, place]
  exact lastNamed_places _ _ (fun m member => unicodes m (by simp [member])) othersBehind

theorem found_nowhere (unicode : d.unicode = true) (others : ∀ m ∈ d.members, m.key ≠ some wanted) :
    (located d wanted).found = none :=
  lastNamed_places none _ (List.all_eq_true.1 unicode) others

end Document

/-! ## The edit -/

/-- The `live-restore` member as `disabled_config` writes it. -/
def liveRestoreMember (lead : Bytes) : Member where
  lead := lead
  name := quote :: ascii "live-restore" ++ [quote]
  key := some liveRestoreKey
  beforeColon := []
  gap := []
  value := ascii "false"
  boolean := some false
  valueUnicode := true
  tail := []

/-- `m` with the value `false`, if its name is `live-restore`. -/
def setFalse (m : Member) : Member :=
  if m.key = some liveRestoreKey then
    { m with value := ascii "false", boolean := some false, valueUnicode := true }
  else m

/-- The document with live restore off. -/
def disable (d : Document) : Document :=
  if liveRestoreKey ∈ d.members.filterMap Member.key then
    { d with members := d.members.map setFalse }
  else
    { d with
      members := d.members ++ [liveRestoreMember (if d.members = [] then d.inside else [])] }

theorem setFalse_key (m : Member) : (setFalse m).key = m.key := by
  unfold setFalse
  split <;> rfl

theorem setFalse_of_ne {m : Member} (other : m.key ≠ some liveRestoreKey) : setFalse m = m :=
  if_neg other

theorem setFalse_idem (m : Member) : setFalse (setFalse m) = setFalse m := by
  by_cases named : m.key = some liveRestoreKey
  · simp [setFalse, named]
  · rw [setFalse_of_ne named, setFalse_of_ne named]

theorem map_setFalse_of_ne {members : List Member}
    (others : ∀ m ∈ members, m.key ≠ some liveRestoreKey) : members.map setFalse = members := by
  have same : members.map setFalse = members.map id :=
    List.map_congr_left fun m member => setFalse_of_ne (others m member)
  rw [same, List.map_id]

theorem keys_map_setFalse (members : List Member) :
    (members.map setFalse).filterMap Member.key = members.filterMap Member.key := by
  rw [List.filterMap_map]
  exact congrArg (fun f => members.filterMap f) (funext setFalse_key)

theorem liveRestore_token : StringToken (quote :: ascii "live-restore" ++ [quote])
    (some liveRestoreKey) where
  opens := rfl
  scans := by decide
  decodes := by decide

theorem false_value : Value helper memberLevels (ascii "false") (some false) true :=
  .literalFalse

theorem setFalse_valid {m : Member} (valid : m.Valid helper (Value helper memberLevels)) :
    (setFalse m).Valid helper (Value helper memberLevels) := by
  unfold setFalse
  split
  · exact { valid with value := false_value }
  · exact valid

theorem setFalse_unicode {m : Member} (unicode : m.unicode = true) :
    (setFalse m).unicode = true := by
  unfold setFalse
  split
  · rename_i named
    simp [Member.unicode, named]
  · exact unicode

theorem liveRestoreMember_valid {lead : Bytes} (blank : Blank lead) :
    (liveRestoreMember lead).Valid helper (Value helper memberLevels) where
  lead := blank
  name := liveRestore_token
  beforeColon := Blank.nil
  gap := Blank.nil
  value := false_value
  tail := Blank.nil

theorem disable_valid {d : Document} (valid : d.Valid helper memberLevels) :
    (disable d).Valid helper memberLevels := by
  unfold disable
  split
  · refine { valid with members := ?_, distinct := ?_ }
    · intro m member
      obtain ⟨old, oldMember, rfl⟩ := List.mem_map.1 member
      exact setFalse_valid (valid.members old oldMember)
    · show ((d.members.map setFalse).filterMap Member.key).Nodup
      rw [keys_map_setFalse]
      exact valid.distinct
  · rename_i absent
    refine { valid with members := ?_, distinct := ?_ }
    · intro m member
      rcases List.mem_append.1 member with old | new
      · exact valid.members m old
      · rw [List.mem_singleton.1 new]
        apply liveRestoreMember_valid
        split
        · exact valid.inside
        · exact Blank.nil
    · show ((d.members ++ [_]).filterMap Member.key).Nodup
      rw [List.filterMap_append, List.nodup_append]
      refine ⟨valid.distinct, by simp [liveRestoreMember], ?_⟩
      intro key old new isNew same
      have isKey : new = liveRestoreKey := by simpa [liveRestoreMember] using isNew
      exact absent (isKey ▸ same ▸ old)

theorem disable_unicode {d : Document} (unicode : d.unicode = true) :
    (disable d).unicode = true := by
  have all := List.all_eq_true.1 unicode
  unfold disable
  split
  · apply List.all_eq_true.2
    intro m member
    obtain ⟨old, oldMember, rfl⟩ := List.mem_map.1 member
    exact setFalse_unicode (all old oldMember)
  · apply List.all_eq_true.2
    intro m member
    rcases List.mem_append.1 member with old | new
    · exact all m old
    · rw [List.mem_singleton.1 new]
      rfl

section Edited

variable {d : Document} {before behind : List Member} {m : Member}

theorem disable_members (distinct : Distinct d.members) (split : d.members = before ++ m :: behind)
    (keyIs : m.key = some liveRestoreKey) :
    disable d = { d with members := before ++ setFalse m :: behind } := by
  have listed : liveRestoreKey ∈ d.members.filterMap Member.key :=
    List.mem_filterMap.2 ⟨m, by simp [split], keyIs⟩
  rw [split] at distinct
  obtain ⟨othersBefore, othersBehind⟩ := distinct_append distinct keyIs
  rw [disable, if_pos listed, split, List.map_append, List.map_cons,
    map_setFalse_of_ne othersBefore, map_setFalse_of_ne othersBehind]

/-- Only the value's bytes change when there is a `live-restore` member. -/
theorem disable_render_replaced (distinct : Distinct d.members)
    (split : d.members = before ++ m :: behind) (keyIs : m.key = some liveRestoreKey) :
    (disable d).render = front d before m ++ (ascii "false" ++ back d m behind) := by
  rw [disable_members distinct split keyIs]
  have rendered := @render_split { d with members := before ++ setFalse m :: behind } before behind
    (setFalse m) rfl
  rw [rendered]
  simp [front, back, setFalse, keyIs, Member.head]

/-- What is inserted before the closing brace when there is none. -/
def insertion (d : Document) : Bytes :=
  (if d.members = [] then [] else [comma]) ++ liveRestoreFalse

theorem disable_render_appended (absent : ∀ m ∈ d.members, m.key ≠ some liveRestoreKey) :
    (disable d).render =
      d.lead ++ openBrace :: (d.body ++ (insertion d ++ closeBrace :: d.trail)) := by
  have unlisted : liveRestoreKey ∉ d.members.filterMap Member.key := by
    intro listed
    obtain ⟨m, member, keyIs⟩ := List.mem_filterMap.1 listed
    exact absent m member keyIs
  rw [disable, if_neg unlisted]
  by_cases empty : d.members = []
  · simp [Document.render, Document.body, empty, separated, insertion, liveRestoreMember,
      Member.render, Member.head, liveRestoreFalse]
  · have some' : d.members.map Member.render ≠ [] := by simpa using empty
    have more : d.members ++ [liveRestoreMember []] ≠ [] := by simp
    simp only [Document.render, Document.body, empty, more, if_false, insertion, List.map_append,
      List.map_cons, List.map_nil, separated_snoc _ some']
    simp [liveRestoreMember, Member.render, Member.head, liveRestoreFalse]

theorem locate_render (valid : d.Valid helper memberLevels) (unicode : d.unicode = true)
    (wanted : List Char) : locate d.render wanted = .ok (located d wanted) := by
  have reads := locate_complete valid wanted
  rw [unicode] at reads
  exact reads_true.1 reads

end Edited

/-- On the text of a document, `disabled_config` returns the text of the edited
document, unless `live-restore` is no boolean or the result is too large. -/
theorem disabledConfig_eq {d : Document} (valid : d.Valid helper memberLevels)
    (unicode : d.unicode = true) :
    disabledConfig d.render =
      if ∃ m ∈ d.members, m.key = some liveRestoreKey ∧ m.boolean = none then
        fail "Docker live-restore must be a boolean"
      else if (disable d).render.length > limit then
        fail "Temporary Docker configuration exceeds 1 MiB"
      else .ok (disable d).render := by
  rw [disabledConfig, locate_render valid unicode]
  by_cases listed : ∃ m ∈ d.members, m.key = some liveRestoreKey
  · obtain ⟨m, member, keyIs⟩ := listed
    obtain ⟨before, behind, split⟩ := List.append_of_mem member
    have shape : located d liveRestoreKey =
        ⟨some ⟨(front d before m).length, (front d before m).length + m.value.length, m.boolean⟩,
          (located d liveRestoreKey).close, (located d liveRestoreKey).any⟩ := by
      rw [← found_at valid unicode split keyIs]
    have head : slice d.render 0 (front d before m).length = .ok (front d before m) := by
      rw [render_split split]
      exact slice_front _ _
    have tail : slice d.render ((front d before m).length + m.value.length) d.render.length =
        .ok (back d m behind) := by
      rw [render_split split, ← List.append_assoc, ← List.length_append]
      exact slice_back _ _
    rw [shape]
    cases isBoolean : m.boolean with
    | none =>
        rw [if_pos ⟨m, member, keyIs, isBoolean⟩]
        rfl
    | some b =>
        have others : ¬ ∃ m ∈ d.members, m.key = some liveRestoreKey ∧ m.boolean = none := by
          rintro ⟨other, otherMember, otherKey, notBoolean⟩
          have distinct := valid.distinct
          rw [split] at distinct otherMember
          obtain ⟨othersBefore, othersBehind⟩ := distinct_append distinct keyIs
          rcases List.mem_append.1 otherMember with old | rest
          · exact othersBefore other old otherKey
          · rcases List.mem_cons.1 rest with rfl | new
            · simp [isBoolean] at notBoolean
            · exact othersBehind other new otherKey
        rw [if_neg others, disable_render_replaced valid.distinct split keyIs]
        simp only [head, tail, List.append_assoc]
  · have absent : ∀ m ∈ d.members, m.key ≠ some liveRestoreKey :=
      fun m member keyIs => listed ⟨m, member, keyIs⟩
    have noOther : ¬ ∃ m ∈ d.members, m.key = some liveRestoreKey ∧ m.boolean = none :=
      fun ⟨m, member, keyIs, _⟩ => listed ⟨m, member, keyIs⟩
    have shape : located d liveRestoreKey =
        ⟨none, (d.lead ++ openBrace :: d.body).length, !d.members.isEmpty⟩ := by
      rw [← found_nowhere unicode absent]
      simp only [located, List.length_append, List.length_cons, Located.mk.injEq, true_and, and_true]
      omega
    have parts : d.render = (d.lead ++ openBrace :: d.body) ++ closeBrace :: d.trail := by
      simp [Document.render]
    have head : slice d.render 0 (d.lead ++ openBrace :: d.body).length =
        .ok (d.lead ++ openBrace :: d.body) := by
      rw [parts]
      exact slice_front _ _
    have tail : slice d.render (d.lead ++ openBrace :: d.body).length d.render.length =
        .ok (closeBrace :: d.trail) := by
      rw [parts]
      exact slice_back _ _
    have comma' : (if (!d.members.isEmpty) = true then [comma] else []) =
        if d.members = [] then [] else [comma] := by
      cases d.members <;> rfl
    rw [shape, if_neg noOther, disable_render_appended absent]
    simp only [head, tail, comma', insertion, List.append_assoc, List.cons_append]

/-! ## What the next reader of the file finds -/

/-- The bytes of the value that `locate` finds under a key. -/
def locatedBytes (data : Bytes) (wanted : List Char) : Result (Option Bytes) :=
  match locate data wanted with
  | .error failure => .error failure
  | .ok ⟨none, _, _⟩ => .ok none
  | .ok ⟨some place, _, _⟩ => (slice data place.start place.stop).map some

section Read

variable {d : Document} {wanted : List Char}

theorem locatedBytes_at (valid : d.Valid helper memberLevels) (unicode : d.unicode = true)
    {before behind : List Member} {m : Member} (split : d.members = before ++ m :: behind)
    (keyIs : m.key = some wanted) : locatedBytes d.render wanted = .ok (some m.value) := by
  have shape : located d wanted =
      ⟨some ⟨(front d before m).length, (front d before m).length + m.value.length, m.boolean⟩,
        (located d wanted).close, (located d wanted).any⟩ := by
    rw [← found_at valid unicode split keyIs]
  have middle := slice_middle (front d before m) m.value (back d m behind)
  rw [locatedBytes, locate_render valid unicode, shape]
  simp only [render_split split, middle]
  rfl

theorem locatedBytes_nowhere (valid : d.Valid helper memberLevels) (unicode : d.unicode = true)
    (absent : ∀ m ∈ d.members, m.key ≠ some wanted) : locatedBytes d.render wanted = .ok none := by
  have shape : located d wanted = ⟨none, (located d wanted).close, (located d wanted).any⟩ := by
    rw [← found_nowhere unicode absent]
  rw [locatedBytes, locate_render valid unicode, shape]

theorem mem_disable {m : Member} (member : m ∈ (disable d).members) :
    m.key = some liveRestoreKey ∨ m ∈ d.members := by
  unfold disable at member
  split at member
  · obtain ⟨old, oldMember, rfl⟩ := List.mem_map.1 member
    by_cases named : old.key = some liveRestoreKey
    · exact .inl (by rw [setFalse_key, named])
    · exact .inr (by rwa [setFalse_of_ne named])
  · rcases List.mem_append.1 member with old | new
    · exact .inr old
    · exact .inl (by rw [List.mem_singleton.1 new]; rfl)

theorem disable_keeps {m : Member} (member : m ∈ d.members) (other : m.key ≠ some liveRestoreKey) :
    m ∈ (disable d).members := by
  unfold disable
  split
  · exact List.mem_map.2 ⟨m, member, setFalse_of_ne other⟩
  · exact List.mem_append_left _ member

/-- Under every other key the same bytes are found. -/
theorem disable_other (valid : d.Valid helper memberLevels) (unicode : d.unicode = true)
    (other : wanted ≠ liveRestoreKey) :
    ∃ found, locatedBytes d.render wanted = .ok found ∧
      locatedBytes (disable d).render wanted = .ok found := by
  have disabledValid := disable_valid valid
  have disabledUnicode := disable_unicode unicode
  by_cases listed : ∃ m ∈ d.members, m.key = some wanted
  · obtain ⟨m, member, keyIs⟩ := listed
    have kept := disable_keeps member (by rw [keyIs]; exact fun same => other (Option.some.inj same))
    obtain ⟨before, behind, split⟩ := List.append_of_mem member
    obtain ⟨before', behind', split'⟩ := List.append_of_mem kept
    exact ⟨some m.value, locatedBytes_at valid unicode split keyIs,
      locatedBytes_at disabledValid disabledUnicode split' keyIs⟩
  · have absent : ∀ m ∈ d.members, m.key ≠ some wanted :=
      fun m member keyIs => listed ⟨m, member, keyIs⟩
    have absent' : ∀ m ∈ (disable d).members, m.key ≠ some wanted := by
      intro m member keyIs
      rcases mem_disable member with named | old
      · rw [named] at keyIs
        exact other (Option.some.inj keyIs).symm
      · exact absent m old keyIs
    exact ⟨none, locatedBytes_nowhere valid unicode absent,
      locatedBytes_nowhere disabledValid disabledUnicode absent'⟩

/-- The edited document has a `live-restore` member, and its value is `false`. -/
theorem disable_live : ∃ m ∈ (disable d).members,
    m.key = some liveRestoreKey ∧ m.boolean = some false := by
  unfold disable
  split
  · rename_i listed
    obtain ⟨m, member, keyIs⟩ := List.mem_filterMap.1 listed
    refine ⟨setFalse m, List.mem_map.2 ⟨m, member, rfl⟩, by rw [setFalse_key, keyIs], ?_⟩
    simp [setFalse, keyIs]
  · exact ⟨liveRestoreMember _, List.mem_append_right _ (List.mem_singleton.2 rfl), rfl, rfl⟩

theorem setFalse_disabled {m : Member} (member : m ∈ (disable d).members) : setFalse m = m := by
  unfold disable at member
  split at member
  · obtain ⟨old, -, rfl⟩ := List.mem_map.1 member
    exact setFalse_idem old
  · rename_i absent
    rcases List.mem_append.1 member with old | new
    · exact setFalse_of_ne fun named => absent (List.mem_filterMap.2 ⟨m, old, named⟩)
    · rw [List.mem_singleton.1 new]
      rfl

theorem disable_idem : disable (disable d) = disable d := by
  obtain ⟨m, member, keyIs, -⟩ := @disable_live d
  have listed : liveRestoreKey ∈ (disable d).members.filterMap Member.key :=
    List.mem_filterMap.2 ⟨m, member, keyIs⟩
  have same : (disable d).members.map setFalse = (disable d).members.map id :=
    List.map_congr_left fun m member => setFalse_disabled member
  rw [List.map_id] at same
  rw [disable, if_pos listed, same]

theorem disable_boolean : ¬ ∃ m ∈ (disable d).members,
    m.key = some liveRestoreKey ∧ m.boolean = none := by
  rintro ⟨m, member, keyIs, notBoolean⟩
  have fixed := setFalse_disabled member
  rw [setFalse, if_pos keyIs] at fixed
  rw [← fixed] at notBoolean
  simp at notBoolean

end Read

/-- What `disabled_config` owes to whoever reads its result: live restore is off,
every other key is found with the same bytes, the members are those of `disable`,
and no byte changed but those of the value replaced or the member inserted. -/
structure LiveRestoreDisabled (original out : Bytes) : Prop where
  live : ∃ result place, locate out liveRestoreKey = .ok result ∧ result.found = some place ∧
    place.boolean = some false
  others : ∀ key, key ≠ liveRestoreKey →
    ∃ found, locatedBytes original key = .ok found ∧ locatedBytes out key = .ok found
  document : ∃ d : Document, d.Valid helper memberLevels ∧ d.unicode = true ∧ d.render = original
  members : ∀ d : Document, d.Valid helper memberLevels → d.unicode = true → d.render = original →
    (disable d).Valid helper memberLevels ∧ (disable d).unicode = true ∧ (disable d).render = out
  bytes : ∃ result start region insert rest, locate original liveRestoreKey = .ok result ∧
    original = start ++ (region ++ rest) ∧ out = start ++ (insert ++ rest) ∧
    match result.found with
    | some place => start.length = place.start ∧ start.length + region.length = place.stop ∧
        insert = ascii "false"
    | none => start.length = result.close ∧ region = [] ∧
        insert = (if result.any then [comma] else []) ++ liveRestoreFalse
  size : out.length ≤ limit
  again : disabledConfig out = .ok out

theorem bytes_of_disable {d : Document} (valid : d.Valid helper memberLevels)
    (unicode : d.unicode = true) :
    ∃ start region insert rest,
      d.render = start ++ (region ++ rest) ∧ (disable d).render = start ++ (insert ++ rest) ∧
      match (located d liveRestoreKey).found with
      | some place => start.length = place.start ∧ start.length + region.length = place.stop ∧
          insert = ascii "false"
      | none => start.length = (located d liveRestoreKey).close ∧ region = [] ∧
          insert = (if (located d liveRestoreKey).any then [comma] else []) ++ liveRestoreFalse := by
  by_cases listed : ∃ m ∈ d.members, m.key = some liveRestoreKey
  · obtain ⟨m, member, keyIs⟩ := listed
    obtain ⟨before, behind, split⟩ := List.append_of_mem member
    refine ⟨front d before m, m.value, ascii "false", back d m behind, render_split split,
      disable_render_replaced valid.distinct split keyIs, ?_⟩
    rw [found_at valid unicode split keyIs]
    exact ⟨rfl, rfl, rfl⟩
  · have absent : ∀ m ∈ d.members, m.key ≠ some liveRestoreKey :=
      fun m member keyIs => listed ⟨m, member, keyIs⟩
    refine ⟨d.lead ++ openBrace :: d.body, [], insertion d, closeBrace :: d.trail, ?_, ?_, ?_⟩
    · simp [Document.render]
    · rw [disable_render_appended absent]
      simp
    · rw [found_nowhere unicode absent]
      refine ⟨?_, rfl, ?_⟩
      · simp only [located, List.length_append, List.length_cons]
        omega
      · cases empty : d.members <;> simp [insertion, located, empty]

/-- What `disabled_config` accepts is the text of a document, and its result that of the
document with live restore off. -/
theorem disabledConfig_document {original out : Bytes} (ok : disabledConfig original = .ok out) :
    ∃ d : Document, d.Valid helper memberLevels ∧ d.unicode = true ∧ d.render = original ∧
      (disable d).render = out ∧ out.length ≤ limit ∧
      ¬ ∃ m ∈ d.members, m.key = some liveRestoreKey ∧ m.boolean = none := by
  obtain ⟨result, locatedOk⟩ : ∃ result, locate original liveRestoreKey = .ok result := by
    cases run : locate original liveRestoreKey with
    | error failure => rw [disabledConfig, run] at ok; simp at ok
    | ok result => exact ⟨result, rfl⟩
  obtain ⟨d, valid, unicode, rfl, rfl⟩ := locate_sound locatedOk
  have edited := disabledConfig_eq valid unicode
  rw [ok] at edited
  split at edited
  · simp [fail] at edited
  · rename_i boolean
    split at edited
    · simp [fail] at edited
    · rename_i small
      obtain rfl := Except.ok.inj edited
      exact ⟨d, valid, unicode, rfl, rfl, Nat.le_of_not_lt small, boolean⟩

theorem disabledConfig_again {original out : Bytes} (ok : disabledConfig original = .ok out) :
    disabledConfig out = .ok out := by
  obtain ⟨d, valid, unicode, rfl, rfl, small, -⟩ := disabledConfig_document ok
  rw [disabledConfig_eq (disable_valid valid) (disable_unicode unicode), disable_idem,
    if_neg disable_boolean, if_neg (Nat.not_lt.mpr small)]

/-- The disabled version is no shorter. -/
theorem disabledConfig_length {original out : Bytes} (ok : disabledConfig original = .ok out) :
    original.length ≤ limit := by
  obtain ⟨d, valid, unicode, rfl, rfl, small, boolean⟩ := disabledConfig_document ok
  refine Nat.le_trans ?_ small
  by_cases listed : ∃ m ∈ d.members, m.key = some liveRestoreKey
  · obtain ⟨m, member, keyIs⟩ := listed
    obtain ⟨before, behind, split⟩ := List.append_of_mem member
    have value : m.value.length ≤ (ascii "false").length := by
      cases isBoolean : m.boolean with
      | none => exact absurd ⟨m, member, keyIs, isBoolean⟩ boolean
      | some b =>
          have text := (boolean_iff (fun _ _ token => StringToken.opens token)
            (valid.members m member).value b).1 isBoolean
          rw [text]
          cases b <;> decide
    rw [render_split split, disable_render_replaced valid.distinct split keyIs]
    simp only [List.length_append]
    omega
  · have absent : ∀ m ∈ d.members, m.key ≠ some liveRestoreKey :=
      fun m member keyIs => listed ⟨m, member, keyIs⟩
    rw [disable_render_appended absent, Document.render]
    simp only [List.length_append, List.length_cons]
    omega

/-- What `disabled_config` accepts has a boolean under the key, or nothing. -/
theorem booleanField_accepted {original out : Bytes} (ok : disabledConfig original = .ok out) :
    ∃ field, booleanField original liveRestoreKey = .ok field := by
  obtain ⟨d, valid, unicode, rfl, rfl, -, boolean⟩ := disabledConfig_document ok
  unfold booleanField
  rw [locate_render valid unicode]
  by_cases listed : ∃ m ∈ d.members, m.key = some liveRestoreKey
  · obtain ⟨m, member, keyIs⟩ := listed
    obtain ⟨before, behind, split⟩ := List.append_of_mem member
    have found := found_at valid unicode split keyIs
    cases isBoolean : m.boolean with
    | none => exact absurd ⟨m, member, keyIs, isBoolean⟩ boolean
    | some b =>
        rw [isBoolean] at found
        exact ⟨some b, by simp only [located] at found ⊢; rw [found]⟩
  · have found := found_nowhere unicode fun m member keyIs => listed ⟨m, member, keyIs⟩
    exact ⟨none, by simp only [located] at found ⊢; rw [found]⟩

/-- The disabled version says that live restore is off. -/
theorem booleanField_disabled {original out : Bytes} (ok : disabledConfig original = .ok out) :
    booleanField out liveRestoreKey = .ok (some false) := by
  obtain ⟨d, valid, unicode, rfl, rfl, -, -⟩ := disabledConfig_document ok
  obtain ⟨m, member, keyIs, isFalse⟩ := @disable_live d
  obtain ⟨before, behind, split⟩ := List.append_of_mem member
  have found := found_at (disable_valid valid) (disable_unicode unicode) split keyIs
  unfold booleanField
  rw [locate_render (disable_valid valid) (disable_unicode unicode)]
  rw [isFalse] at found
  simp only [located] at found ⊢
  rw [found]

/-- **Disabling live restore.**  What `disabledConfig` returns for any file is that file with
`live-restore` off: whoever reads it finds `false`, and everything else as it was. -/
theorem disabledConfig_disables {original out : Bytes} (ok : disabledConfig original = .ok out) :
    LiveRestoreDisabled original out := by
  have again := disabledConfig_again ok
  obtain ⟨d, valid, unicode, rfl, rfl, small, -⟩ := disabledConfig_document ok
  have disabledValid := disable_valid valid
  have disabledUnicode := disable_unicode unicode
  exact {
    live := by
      obtain ⟨m, member, keyIs, isFalse⟩ := @disable_live d
      obtain ⟨before, behind, split⟩ := List.append_of_mem member
      exact ⟨_, _, locate_render disabledValid disabledUnicode liveRestoreKey,
        found_at disabledValid disabledUnicode split keyIs, isFalse⟩
    others := fun key other => disable_other valid unicode other
    document := ⟨d, valid, unicode, rfl⟩
    members := by
      intro d' valid' unicode' render
      have same := disabledConfig_eq valid' unicode'
      rw [render, ok] at same
      split at same
      · simp [fail] at same
      · split at same
        · simp [fail] at same
        · exact ⟨disable_valid valid', disable_unicode unicode', (Except.ok.inj same).symm⟩
    bytes := by
      obtain ⟨start, region, insert, rest, before, after, where'⟩ :=
        bytes_of_disable valid unicode
      exact ⟨_, start, region, insert, rest, locate_render valid unicode liveRestoreKey, before,
        after, where'⟩
    size := small
    again := again }

/-- An escaped key, and whitespace everywhere. -/
theorem disabledConfig_disables_escaped_key :
    LiveRestoreDisabled
      (ascii "\x7b \"a\" : [1, \x7b\x7d] ,\n\"liv\\u0065-restore\" : true \x7d")
      (ascii "\x7b \"a\" : [1, \x7b\x7d] ,\n\"liv\\u0065-restore\" : false \x7d") :=
  disabledConfig_disables (by decide)

end Luhmen.Guest
