/-
# Host.RequestAgreement -- one line, read on both sides

A request is a line, and three pieces of the program have a view of which lines are
right: the command that formats it, `validate_request` and the manager's script.

`lines_accepted_iff` compares the first two: a line is refused just if a path of it is
so long that its field, with the name and the sign, is over the limit of an argument.

`reads_same_iff` compares the last two, for every line and not only formatted ones: the
script takes from an accepted line what `validate_request` took from it just if the only
white space in it is spaces and tabs.  The script splits at these alone, so that any
other white space is part of its words.
-/
import Mathlib.Data.Nat.Digits.Defs
import Luhmen.Theory.Outcome
import Luhmen.Theory.Decimal
import Luhmen.Host.MicrovmRequest

set_option autoImplicit false

/-! ## What the script binds -/

namespace Luhmen.Manager

open Luhmen.Theory

/-- The names of the fields. -/
def fieldNames : List Bytes :=
  ["id", "kernel", "rootfs", "vcpus", "memory_mib", "force"].map ascii

/-- The variable of a field. -/
def Fields.get (fields : Fields) (key : Bytes) : Bytes :=
  if key = ascii "id" then fields.id
  else if key = ascii "kernel" then fields.kernel
  else if key = ascii "rootfs" then fields.rootfs
  else if key = ascii "vcpus" then fields.vcpus
  else if key = ascii "memory_mib" then fields.memoryMib
  else if key = ascii "force" then fields.force
  else []

/-- The variables where `bound` says what is set, and all others as they are before. -/
def Fields.binding (bound : Bytes → Option Bytes) : Fields where
  id := (bound (ascii "id")).getD []
  kernel := (bound (ascii "kernel")).getD []
  rootfs := (bound (ascii "rootfs")).getD []
  vcpus := (bound (ascii "vcpus")).getD (ascii "1")
  memoryMib := (bound (ascii "memory_mib")).getD (ascii "512")
  force := (bound (ascii "force")).getD (ascii "0")

theorem Fields.get_binding (bound : Bytes → Option Bytes) {key : Bytes} (name : key ∈ fieldNames) :
    (Fields.binding bound).get key = (bound key).getD (({} : Fields).get key) := by
  simp only [fieldNames, List.map_cons, List.map_nil, List.mem_cons, List.not_mem_nil,
    or_false] at name
  rcases name with rfl | rfl | rfl | rfl | rfl | rfl <;> rfl

theorem Fields.ext_get {fields fields' : Fields}
    (same : ∀ key ∈ fieldNames, fields.get key = fields'.get key) : fields = fields' := by
  have id := same (ascii "id") (by decide)
  have kernel := same (ascii "kernel") (by decide)
  have rootfs := same (ascii "rootfs") (by decide)
  have vcpus := same (ascii "vcpus") (by decide)
  have memoryMib := same (ascii "memory_mib") (by decide)
  have force := same (ascii "force") (by decide)
  cases fields
  cases fields'
  congr

/-- A field that is set, and all others as they were. -/
theorem setField_sets {action : Action} {key value : Bytes} {fields fields' : Fields}
    (sets : setField action key value fields = .ok fields') :
    key ∈ fieldNames ∧ fields'.get key = value ∧
      ∀ other, other ≠ key → fields'.get other = fields.get other := by
  unfold setField at sets
  split_ifs at sets with known valid known known known known known
  all_goals
    obtain ⟨rfl, -⟩ := known
    cases sets
    refine ⟨by decide, rfl, fun other apart => ?_⟩
    simp only [Fields.get, if_neg apart]

/-- **What a loop over the words binds**: each of them is a field and its value is
in the end that of its variable, and what was seen before is not set again. -/
theorem setFields_binds {action : Action} {tokens : List Bytes} {seen : Bytes}
    {fields fields' : Fields} (closed : ∃ front, seen = front ++ [0x20])
    (sets : setFields action tokens seen fields = .ok fields') :
    (∀ token ∈ tokens, ∃ key ∈ fieldNames, token = key ++ 0x3d :: fields'.get key) ∧
      ∀ key, 0x20 :: key ++ [0x20] <:+: seen → fields'.get key = fields.get key := by
  induction tokens generalizing seen fields with
  | nil =>
      cases sets
      refine ⟨fun token member => ?_, fun _ _ => rfl⟩
      cases member
  | cons token rest ih =>
      unfold setFields at sets
      split at sets
      · cases sets
      · rename_i key value found
        split at sets
        · cases sets
        · split at sets
          · cases sets
          · rename_i fresh
            cases one : setField action key value fields with
            | error message =>
                rw [one] at sets
                cases sets
            | ok after =>
                rw [one] at sets
                obtain ⟨name, isValue, others⟩ := setField_sets one
                obtain ⟨front, rfl⟩ := closed
                obtain ⟨further, kept⟩ := ih ⟨_, rfl⟩ sets
                have now : 0x20 :: key ++ [0x20] <:+: front ++ [0x20] ++ key ++ [0x20] :=
                  ⟨front, [], by simp⟩
                refine ⟨fun other member => ?_, fun other before => ?_⟩
                · rcases List.mem_cons.1 member with rfl | later
                  · refine ⟨key, name, ?_⟩
                    rw [kept key now, isValue]
                    exact (cut_eq_some found).1
                  · exact further other later
                · have apart : other ≠ key := by
                    rintro rfl
                    exact fresh before
                  rw [kept other (before.trans ⟨[], key ++ [0x20], by simp⟩)]
                  exact others other apart

theorem fieldNames_word {name : Bytes} (isName : name ∈ fieldNames) : Word (· == 0x20) name := by
  have all : ∀ name ∈ fieldNames, name ≠ [] ∧ name.all (fun b => !(b == 0x20)) = true :=
    forall_mem_of_all (by decide)
  obtain ⟨nonempty, clean⟩ := all name isName
  exact ⟨nonempty, fun b member => by simpa using List.all_eq_true.1 clean b member⟩

/-- The words of a request that was parsed. -/
theorem words_of_parseRequest {line : Bytes} {action : Action} {fields : Fields}
    (parsed : parseRequest line = .ok (action, fields)) :
    ∃ tokens, words blank line = action.text :: tokens ∧
      setFields action tokens [0x20] {} = .ok fields := by
  unfold parseRequest at parsed
  split at parsed
  · cases parsed
  split at parsed
  · cases parsed
  rename_i word tokens split
  split at parsed
  · cases parsed
  rename_i action' known
  obtain ⟨fields', sets, pair⟩ := bind_eq_ok parsed
  cases pair
  have text := List.find?_some known
  exact ⟨tokens, by rw [split, beq_iff_eq.1 text], sets⟩

/-- Names between spaces are found again. -/
theorem mem_words_of_infix {key seen : Bytes} (isWord : Word (· == 0x20) key)
    (inside : 0x20 :: key ++ [0x20] <:+: seen) : key ∈ words (· == 0x20) seen := by
  obtain ⟨before, behind, rfl⟩ := inside
  have shape : before ++ (0x20 :: key ++ [0x20]) ++ behind =
      before ++ 0x20 :: (key ++ 0x20 :: behind) := by simp
  rw [shape, words_append_sep before rfl, words_append isWord rfl]
  simp

end Luhmen.Manager

namespace Luhmen.Host.Microvm

open Luhmen.Theory

/-! ## What `validate_request` accepts -/

/-- The characters that a request may not hold. -/
def forbidden (c : Char) : Bool :=
  [0x0a, 0x0d, 0, 0x27, 0x22, 0x5c].contains c.toNat

/-- An accepted request with its tokens, the fields of its action and those it has. -/
structure Tokenised (request : String) (word : List Char) (tokens : List (List Char))
    (allowed seen : List String) : Prop where
  nonempty : request ≠ ""
  short : (bytes request).length ≤ 4096
  clean : request.toList.any forbidden = false
  split : words isWhitespace request.toList = word :: tokens
  action : allowedFields (String.ofList word) = some allowed
  fields : validateTokens allowed tokens [] = .ok seen
  id : String.ofList word = "create" ∨ String.ofList word = "start" ∨ String.ofList word = "stop" →
    "id" ∈ seen
  paths : String.ofList word = "create" → "kernel" ∈ seen ∧ "rootfs" ∈ seen

theorem tokenised_of_accepted {request : String} (accepted : validateRequest request = .ok ()) :
    ∃ word tokens allowed seen, Tokenised request word tokens allowed seen := by
  unfold validateRequest at accepted
  split at accepted
  · cases accepted
  rename_i nonempty
  split at accepted
  · cases accepted
  rename_i short
  split at accepted
  · cases accepted
  rename_i clean
  split at accepted
  · cases accepted
  rename_i word tokens isSplit
  dsimp only at accepted
  split at accepted
  · cases accepted
  rename_i allowed action
  cases fields : validateTokens allowed tokens [] with
  | error message =>
      rw [fields] at accepted
      cases accepted
  | ok seen =>
      rw [fields] at accepted
      simp only [bind, Except.bind] at accepted
      split at accepted
      · cases accepted
      rename_i named
      split at accepted
      · cases accepted
      rename_i rooted
      exact ⟨word, tokens, allowed, seen, nonempty, Nat.le_of_not_lt short,
        by simpa [forbidden] using clean, isSplit, action, fields,
        fun is => by_contra fun missing => named ⟨is, missing⟩,
        fun is => by_contra fun missing => rooted ⟨is, missing⟩⟩

theorem Tokenised.accepted {request : String} {word : List Char} {tokens : List (List Char)}
    {allowed seen : List String} (tokenised : Tokenised request word tokens allowed seen) :
    validateRequest request = .ok () := by
  unfold validateRequest
  rw [if_neg tokenised.nonempty, if_neg (Nat.not_lt.2 tokenised.short),
    if_neg (by simpa [forbidden] using tokenised.clean), tokenised.split]
  dsimp only
  rw [tokenised.action]
  dsimp only
  rw [tokenised.fields]
  simp only [bind, Except.bind]
  rw [if_neg fun missing => missing.2 (tokenised.id missing.1),
    if_neg fun missing => missing.2 (tokenised.paths missing.1)]
  rfl

/-! ## Characters and their bytes -/

/-- A byte below 128 is a character of its own. -/
theorem toNat_of_small {c : Char} {b : UInt8} (member : b ∈ String.utf8EncodeChar c)
    (small : b.toNat < 0x80) : c.toNat = b.toNat := by
  rcases Utf8.mem_utf8EncodeChar member with same | large
  · exact same.symm
  · omega

theorem letter_of_pathByte {b : UInt8} (allowed : pathByte b = true) :
    0x2d ≤ b.toNat ∧ b.toNat < 0x80 := by
  simp only [pathByte, isAsciiAlphanumeric, Bool.or_eq_true, Bool.and_eq_true, decide_eq_true_eq,
    beq_iff_eq, UInt8.le_iff_toNat_le] at allowed
  rcases allowed with ((((((((h | h) | h) | rfl) | rfl) | rfl) | rfl) | rfl) | rfl)
  · exact ⟨Nat.le_trans (by decide) h.1, Nat.lt_of_le_of_lt h.2 (by decide)⟩
  · exact ⟨Nat.le_trans (by decide) h.1, Nat.lt_of_le_of_lt h.2 (by decide)⟩
  · exact ⟨Nat.le_trans (by decide) h.1, Nat.lt_of_le_of_lt h.2 (by decide)⟩
  all_goals decide

/-- White space that is made of such bytes is a blank. -/
theorem blank_of_bytes {request : String}
    (plain : ∀ b ∈ bytes request, pathByte b = true ∨ b = 0x20 ∨ b = 0x09) :
    ∀ c ∈ request.toList, isWhitespace c = true → c = ' ' ∨ c = '\t' := by
  intro c member space
  obtain ⟨b, rest, shape⟩ := List.exists_cons_of_ne_nil (Utf8.utf8EncodeChar_ne_nil c)
  have inside : b ∈ String.utf8EncodeChar c := by rw [shape]; exact List.mem_cons_self
  rcases plain b (List.mem_flatMap.2 ⟨c, member, inside⟩) with letter | rfl | rfl
  · obtain ⟨low, high⟩ := letter_of_pathByte letter
    have same := toNat_of_small inside high
    simp only [isWhitespace, same, Bool.or_eq_true, Bool.and_eq_true, decide_eq_true_eq,
      beq_iff_eq] at space
    omega
  · exact .inl (Char.toNat_inj.1 (toNat_of_small inside (by decide)))
  · exact .inr (Char.toNat_inj.1 (toNat_of_small inside (by decide)))

theorem clean_of_bytes {request : String}
    (plain : ∀ b ∈ bytes request, pathByte b = true ∨ b = 0x20 ∨ b = 0x09) :
    request.toList.any forbidden = false := by
  rw [List.any_eq_false]
  intro c member isForbidden
  simp only [forbidden, List.contains_iff_mem, List.mem_cons, List.not_mem_nil, or_false]
    at isForbidden
  have small : c.toNat < 0x80 := by omega
  have inside : UInt8.ofNat c.toNat ∈ bytes request := by
    refine List.mem_flatMap.2 ⟨c, member, ?_⟩
    rw [Utf8.utf8EncodeChar_ascii small]
    exact List.mem_singleton_self _
  have allowed := plain _ inside
  rcases isForbidden with is | is | is | is | is | is <;> rw [is] at allowed <;>
    exact absurd allowed (by decide)

/-- With no other white space than blanks the script has the same words. -/
theorem words_bytes {request : String}
    (blanks : ∀ c ∈ request.toList, isWhitespace c = true → c = ' ' ∨ c = '\t') :
    words Manager.blank (bytes request) = (words isWhitespace request.toList).map Utf8.encode := by
  refine words_flatMap (fun c member space => ?_) (fun c member letter b inside => ?_)
    Utf8.utf8EncodeChar_ne_nil
  · rcases blanks c member space with rfl | rfl
    · exact ⟨0x20, rfl, rfl⟩
    · exact ⟨0x09, rfl, rfl⟩
  · by_contra isBlank
    simp only [Manager.blank, Bool.not_eq_false, Bool.or_eq_true, beq_iff_eq] at isBlank
    have small : b.toNat < 0x80 := by rcases isBlank with (rfl | rfl) | rfl <;> decide
    have same := toNat_of_small inside small
    have space : isWhitespace c = true := by
      unfold isWhitespace
      rw [same]
      rcases isBlank with (rfl | rfl) | rfl <;> rfl
    rw [letter] at space
    cases space

/-! ## Lines of the command -/

/-- The name of an action. -/
def actionName : Manager.Action → String
  | .capabilities => "capabilities"
  | .inspect => "inspect"
  | .create => "create"
  | .start => "start"
  | .stop => "stop"

/-- The names of the fields of an action. -/
def actionFields : Manager.Action → List String
  | .capabilities => []
  | .inspect | .start => ["id"]
  | .create => ["id", "kernel", "rootfs", "vcpus", "memory_mib"]
  | .stop => ["id", "force"]

theorem bytes_actionName (action : Manager.Action) : bytes (actionName action) = action.text := by
  cases action <;> decide

theorem allowedFields_actionName (action : Manager.Action) :
    allowedFields (actionName action) = some (actionFields action) := by
  cases action <;> decide

/-- The field names of all actions are their own bytes, which are letters. -/
theorem field_name {action : Manager.Action} {key : String} (isField : key ∈ actionFields action) :
    bytes key = ascii key ∧ '=' ∉ key.toList ∧ ∀ b ∈ ascii key, pathByte b = true ∧ b ≠ 0x3d := by
  have all : ∀ name ∈ ["id", "kernel", "rootfs", "vcpus", "memory_mib", "force"],
      bytes name = ascii name ∧ '=' ∉ name.toList ∧
        (ascii name).all (fun b => pathByte b && b != 0x3d) = true :=
    forall_mem_of_all (by decide)
  have known : key ∈ ["id", "kernel", "rootfs", "vcpus", "memory_mib", "force"] := by
    revert isField
    cases action <;> intro isField <;> simp only [actionFields, List.mem_cons, List.not_mem_nil,
      or_false] at isField ⊢ <;> tauto
  obtain ⟨same, noEquals, letters⟩ := all key known
  refine ⟨same, noEquals, fun b member => ?_⟩
  simpa using List.all_eq_true.1 letters b member

/-- Texts with one encoding are one. -/
theorem encode_inj {first second : List Char} :
    Utf8.encode first = Utf8.encode second ↔ first = second := by
  refine ⟨fun same => ?_, congrArg _⟩
  have decoded := congrArg Utf8.fromUtf8 same
  rw [Utf8.fromUtf8_encode, Utf8.fromUtf8_encode] at decoded
  exact Option.some.inj decoded

theorem toList_of_encode {text : List Char} {line : String}
    (same : Utf8.encode text = bytes line) : text = line.toList :=
  encode_inj.1 same

theorem action_letters (action : Manager.Action) : ∀ b ∈ action.text, pathByte b = true := by
  cases action <;> exact forall_mem_of_all (by decide)

theorem request_letters {command : MicrovmAction}
    (plain : ∀ word ∈ command.tokens, word ≠ [] ∧ ∀ b ∈ word, pathByte b = true) :
    ∀ b ∈ bytes command.request, pathByte b = true ∨ b = 0x20 ∨ b = 0x09 := by
  rw [command.request_bytes]
  refine forall_mem_unwords (.inr (.inl rfl)) fun word member b inWord => .inl ?_
  rcases List.mem_cons.1 member with rfl | further
  · exact action_letters command.action b inWord
  · exact (plain word further).2 b inWord

/-- A line of the command has the words it was put together from. -/
theorem formatted_words {command : MicrovmAction}
    (plain : ∀ word ∈ command.tokens, word ≠ [] ∧ ∀ b ∈ word, pathByte b = true) :
    ∃ tokens, words isWhitespace command.request.toList =
        (actionName command.action).toList :: tokens ∧
      tokens.map Utf8.encode = command.tokens := by
  have isWord : ∀ word ∈ command.action.text :: command.tokens, Word Manager.blank word := by
    intro word member
    rcases List.mem_cons.1 member with rfl | further
    · exact Manager.text_word _
    · exact ⟨(plain word further).1, fun b inWord =>
        (blank_of_pathByte ((plain word further).2 b inWord)).1⟩
  have encoded := words_bytes (blank_of_bytes (request_letters plain))
  rw [command.request_bytes, words_unwords (by decide) isWord] at encoded
  obtain ⟨word, tokens, isSplit, isAction, rest⟩ := List.map_eq_cons_iff.1 encoded.symm
  refine ⟨tokens, ?_, rest⟩
  rw [isSplit, toList_of_encode (isAction.trans (bytes_actionName _).symm)]

/-- One field of a request. -/
theorem validateTokens_field {action : Manager.Action} {key value : String} {text : List Char}
    {seen : List String} (is : Utf8.encode text = token key (bytes value))
    (isField : key ∈ actionFields action) (fresh : key ∉ seen) (plain : Plain (bytes value))
    (onId : key = "id" → validateId value = .ok ())
    (onPath : key = "kernel" ∨ key = "rootfs" → validateGuestPath value = .ok ())
    (rest : List (List Char)) :
    validateTokens (actionFields action) (text :: rest) seen =
      if 1024 < (token key (bytes value)).length then
        .error "microVM manager argument is too large"
      else validateTokens (actionFields action) rest (key :: seen) := by
  obtain ⟨same, noEquals, letters⟩ := field_name isField
  have shape : text = key.toList ++ '=' :: value.toList := by
    have line : Utf8.encode text = bytes (key ++ "=" ++ value) := by
      rw [is, bytes_append, bytes_append, same, List.append_assoc]
      rfl
    rw [toList_of_encode line, String.toList_append, String.toList_append, List.append_assoc]
    rfl
  have nonempty : value ≠ "" := by
    rintro rfl
    exact plain.1 rfl
  have all : (token key (bytes value)).all pathByte = true :=
    List.all_eq_true.2 (token_bytes (fun b member => (letters b member).1) plain)
  rw [validateTokens, is]
  by_cases long : 1024 < (token key (bytes value)).length
  · rw [if_pos long, if_pos long]
  · rw [if_neg long, if_neg long, shape, cut_append noEquals]
    dsimp only
    rw [String.ofList_toList, String.ofList_toList, if_neg (not_not.2 isField), if_neg fresh,
      if_neg nonempty, if_neg (not_not.2 all)]
    by_cases isId : key = "id"
    · rw [if_pos isId, onId isId]
      rfl
    · rw [if_neg isId]
      by_cases isPath : key = "kernel" ∨ key = "rootfs"
      · rw [if_pos isPath, onPath isPath]
        rfl
      · rw [if_neg isPath]

/-- The checks of an accepted line are those of its words. -/
theorem accepted_iff {command : MicrovmAction} {tokens : List (List Char)}
    (isSplit : words isWhitespace command.request.toList =
      (actionName command.action).toList :: tokens)
    (plain : ∀ word ∈ command.tokens, word ≠ [] ∧ ∀ b ∈ word, pathByte b = true) :
    validateRequest command.request = .ok () ↔ (bytes command.request).length ≤ 4096 ∧
      ∃ seen, validateTokens (actionFields command.action) tokens [] = .ok seen ∧
        (command.action = .create ∨ command.action = .start ∨ command.action = .stop →
          "id" ∈ seen) ∧
        (command.action = .create → "kernel" ∈ seen ∧ "rootfs" ∈ seen) := by
  have names : ∀ action : Manager.Action, (actionName action = "create" ↔ action = .create) ∧
      (actionName action = "start" ↔ action = .start) ∧
      (actionName action = "stop" ↔ action = .stop) := by
    intro action
    cases action <;> decide
  obtain ⟨isCreate, isStart, isStop⟩ := names command.action
  constructor
  · intro accepted
    obtain ⟨word, tokens', allowed, seen, tokenised⟩ := tokenised_of_accepted accepted
    have same := isSplit.symm.trans tokenised.split
    cases same
    have action := tokenised.action
    rw [String.ofList_toList, allowedFields_actionName] at action
    cases action
    have needs := tokenised.id
    have roots := tokenised.paths
    rw [String.ofList_toList, isCreate, isStart, isStop] at needs
    rw [String.ofList_toList, isCreate] at roots
    exact ⟨tokenised.short, seen, tokenised.fields, needs, roots⟩
  · rintro ⟨short, seen, fields, needs, roots⟩
    have nonempty : command.request ≠ "" := by
      intro empty
      rw [empty] at isSplit
      cases isSplit
    refine Tokenised.accepted ⟨nonempty, short, clean_of_bytes (request_letters plain), isSplit,
      ?_, fields, ?_, ?_⟩
    · rw [String.ofList_toList, allowedFields_actionName]
    · rwa [String.ofList_toList, isCreate, isStart, isStop]
    · rwa [String.ofList_toList, isCreate]

/-- The fields of a command's request. -/
def commandFields : MicrovmAction → List (String × String)
  | .capabilities | .inspect none => []
  | .create id kernel rootfs vcpus memoryMib =>
      [("id", id), ("kernel", kernel), ("rootfs", rootfs), ("vcpus", toString vcpus),
        ("memory_mib", toString memoryMib)]
  | .start id | .inspect (some id) => [("id", id)]
  | .stop id force => [("id", id), ("force", if force then "1" else "0")]

/-- The bytes of a field. -/
def fieldBytes (field : String × String) : Bytes :=
  token field.1 (bytes field.2)

theorem tokens_eq (command : MicrovmAction) :
    command.tokens = (commandFields command).map fieldBytes := by
  cases command with
  | stop id force => cases force <;> rfl
  | inspect id => cases id <;> rfl
  | _ => rfl

/-- A field that passes the checks of its key. -/
structure Passes (action : Manager.Action) (field : String × String) : Prop where
  isField : field.1 ∈ actionFields action
  plain : Plain (bytes field.2)
  onId : field.1 = "id" → validateId field.2 = .ok ()
  onPath : field.1 = "kernel" ∨ field.1 = "rootfs" → validateGuestPath field.2 = .ok ()

/-- Fields that pass are refused for their length only; by induction on them. -/
theorem validateTokens_fields {action : Manager.Action} {fields : List (String × String)}
    (passes : ∀ field ∈ fields, Passes action field) {texts : List (List Char)}
    (are : texts.map Utf8.encode = fields.map fieldBytes) {seen : List String}
    (fresh : ∀ field ∈ fields, field.1 ∉ seen) (distinct : (fields.map Prod.fst).Nodup) :
    validateTokens (actionFields action) texts seen =
      if ∀ field ∈ fields, (fieldBytes field).length ≤ 1024 then
        .ok ((fields.map Prod.fst).reverse ++ seen)
      else .error "microVM manager argument is too large" := by
  induction fields generalizing texts seen with
  | nil =>
      have none : texts = [] := List.map_eq_nil_iff.1 are
      rw [none]
      rfl
  | cons field rest ih =>
      obtain ⟨text, others, rfl, first, behind⟩ := List.map_eq_cons_iff.1 are
      have pass := passes field List.mem_cons_self
      obtain ⟨notAgain, distinct⟩ := List.nodup_cons.1 distinct
      rw [validateTokens_field first pass.isField (fresh field List.mem_cons_self) pass.plain
        pass.onId pass.onPath]
      change (if 1024 < (fieldBytes field).length then _ else _) = _
      by_cases long : 1024 < (fieldBytes field).length
      · rw [if_pos long, if_neg]
        intro short
        exact absurd (short field List.mem_cons_self) (Nat.not_le.2 long)
      · have freshBehind : ∀ other ∈ rest, other.1 ∉ field.1 :: seen := by
          intro other member again
          rcases List.mem_cons.1 again with same | before
          · exact notAgain (List.mem_map.2 ⟨other, member, same⟩)
          · exact fresh other (List.mem_cons_of_mem _ member) before
        rw [if_neg long, ih (fun other member => passes other (List.mem_cons_of_mem _ member))
          behind freshBehind distinct, List.map_cons, List.reverse_cons, List.append_assoc]
        have both : (∀ other ∈ field :: rest, (fieldBytes other).length ≤ 1024) ↔
            ∀ other ∈ rest, (fieldBytes other).length ≤ 1024 := by
          rw [List.forall_mem_cons]
          exact and_iff_right (Nat.le_of_not_lt long)
        by_cases short : ∀ other ∈ rest, (fieldBytes other).length ≤ 1024
        · rw [if_pos short, if_pos (both.2 short)]
          rfl
        · rw [if_neg short, if_neg fun all => short (both.1 all)]

theorem passes_id {action : Manager.Action} {id : String} (isField : "id" ∈ actionFields action)
    (valid : validateId id = .ok ()) : Passes action ("id", id) where
  isField := isField
  plain := plain_of_validId (validId_of_validateId valid)
  onId := fun _ => valid
  onPath := (show ¬ ("id" = "kernel" ∨ "id" = "rootfs") by decide).elim

theorem passes_path {action : Manager.Action} {key path : String}
    (isField : key ∈ actionFields action) (isPath : key = "kernel" ∨ key = "rootfs")
    (valid : validateGuestPath path = .ok ()) : Passes action (key, path) where
  isField := isField
  plain := plain_of_path valid
  onId := by
    rintro rfl
    exact absurd isPath (by decide)
  onPath := fun _ => valid

/-- The other fields are not checked any further. -/
theorem passes_plain {action : Manager.Action} {key value : String}
    (isField : key ∈ actionFields action)
    (other : key ≠ "id" ∧ key ≠ "kernel" ∧ key ≠ "rootfs") (plain : Plain (bytes value)) :
    Passes action (key, value) where
  isField := isField
  plain := plain
  onId := fun is => absurd is other.1
  onPath := fun is => is.elim (fun is => absurd is other.2.1) fun is => absurd is other.2.2

theorem passes_of_checked {command : MicrovmAction} {parent : Config}
    (checked : command.check parent = .ok ()) :
    ∀ field ∈ commandFields command, Passes command.action field := by
  intro field member
  cases command with
  | capabilities => cases member
  | create id kernel rootfs vcpus memoryMib =>
      obtain ⟨validId, validKernel, validRootfs⟩ := MicrovmAction.check_create checked
      simp only [commandFields, List.mem_cons, List.not_mem_nil, or_false] at member
      rcases member with rfl | rfl | rfl | rfl | rfl
      · exact @passes_id .create id (by decide) validId
      · exact @passes_path .create _ kernel (by decide) (by decide) validKernel
      · exact @passes_path .create _ rootfs (by decide) (by decide) validRootfs
      · exact @passes_plain .create _ _ (by decide) (by decide) (plain_number vcpus)
      · exact @passes_plain .create _ _ (by decide) (by decide) (plain_number memoryMib)
  | start id =>
      cases List.mem_singleton.1 member
      exact @passes_id .start id (by decide) checked
  | stop id force =>
      simp only [commandFields, List.mem_cons, List.not_mem_nil, or_false] at member
      rcases member with rfl | rfl
      · exact @passes_id .stop id (by decide) checked
      · refine @passes_plain .stop _ _ (by decide) (by decide) ?_
        cases force <;> exact ⟨by decide, forall_mem_of_all (by decide)⟩
  | inspect id =>
      cases id with
      | none => cases member
      | some id =>
          cases List.mem_singleton.1 member
          exact @passes_id .inspect id (by decide) checked

/-- A line of a command that passed its checks is refused for a length only. -/
theorem line_accepted_iff {command : MicrovmAction} {parent : Config}
    (checked : command.check parent = .ok ()) :
    validateRequest command.request = .ok () ↔ (bytes command.request).length ≤ 4096 ∧
      ∀ field ∈ commandFields command, (fieldBytes field).length ≤ 1024 := by
  have plain := MicrovmAction.tokens_plain checked
  obtain ⟨tokens, isSplit, are⟩ := formatted_words plain
  rw [tokens_eq] at are
  have distinct : ((commandFields command).map Prod.fst).Nodup := by
    cases command with
    | inspect id => cases id <;> simp [commandFields]
    | _ => simp [commandFields]
  have result := validateTokens_fields (passes_of_checked checked) are (fun _ _ => List.not_mem_nil)
    distinct
  rw [accepted_iff isSplit plain, result]
  refine and_congr_right fun _ => ?_
  by_cases short : ∀ field ∈ commandFields command, (fieldBytes field).length ≤ 1024
  · rw [if_pos short]
    refine ⟨fun _ => short, fun _ => ⟨_, rfl, ?_, ?_⟩⟩
    · cases command with
      | inspect id => cases id <;> simp [commandFields, MicrovmAction.action]
      | _ => simp [commandFields, MicrovmAction.action]
    · cases command with
      | inspect id => cases id <;> simp [commandFields, MicrovmAction.action]
      | _ => simp [commandFields, MicrovmAction.action]
  · rw [if_neg short]
    constructor
    · rintro ⟨_, refused, -⟩
      cases refused
    · exact fun all => absurd all short

/-- The parent VM a command is checked against in what follows: it has room for any. -/
def largeParent : Config :=
  ⟨1, 16, 17, 20, [], true⟩

theorem create_checked {id kernel rootfs : String} {vcpus memoryMib : Nat}
    (validId : validateId id = .ok ()) (validKernel : validateGuestPath kernel = .ok ())
    (validRootfs : validateGuestPath rootfs = .ok ()) (cpus : 1 ≤ vcpus ∧ vcpus ≤ 16)
    (memory : 128 ≤ memoryMib ∧ memoryMib ≤ 16384) :
    (MicrovmAction.create id kernel rootfs vcpus memoryMib).check largeParent = .ok () := by
  unfold MicrovmAction.check
  dsimp only
  rw [validId, validKernel, validRootfs]
  have noLess : ¬ largeParent.cpus < vcpus := Nat.not_lt.2 cpus.2
  have noMore : ¬ largeParent.memoryGib * 1024 < memoryMib + 512 := by
    show ¬ 17 * 1024 < memoryMib + 512
    omega
  simp only [bind, Except.bind, not_not.2 cpus, not_not.2 memory, noLess, noMore, if_false]
  rfl

theorem fieldBytes_length (key value : String) :
    (fieldBytes (key, value)).length = key.length + 1 + (bytes value).length := by
  simp only [fieldBytes, token, ascii, List.length_append, List.length_map, List.length_cons,
    String.length_toList]
  omega

theorem id_length {id : String} (valid : validateId id = .ok ()) : (bytes id).length ≤ 64 := by
  unfold validateId at valid
  split at valid
  · rename_i checks
    exact checks.2.1
  · cases valid

/-- The numbers of a request have five digits at most. -/
theorem number_length {n : Nat} (small : n ≤ 16384) : (bytes (toString n)).length ≤ 5 := by
  have digits : (toString n).toList = Nat.toDigits 10 n := Nat.toList_repr
  have single : ∀ c ∈ Nat.toDigits 10 n, String.utf8EncodeChar c = [UInt8.ofNat c.toNat] :=
    fun c member => Utf8.utf8EncodeChar_ascii
      (Nat.lt_of_le_of_lt (Theory.digit_byte (isDigit_of_mem_toDigits member)).2.2 (by decide))
  have length : (bytes (toString n)).length = (Nat.toDigits 10 n).length := by
    unfold bytes Utf8.encode
    rw [digits, List.flatMap_congr single]
    simp
  rw [length]
  exact Nat.toDigits_length 10 n 5 (by decide) (Nat.lt_of_le_of_lt small (by decide))

/-- A line is as long as its fields, with a blank before each. -/
theorem request_length (command : MicrovmAction) :
    (bytes command.request).length ≤ command.action.text.length + 1 +
      ((commandFields command).map fun field => (fieldBytes field).length + 1).sum := by
  rw [command.request_bytes, tokens_eq]
  refine Nat.le_trans (length_unwords _ _) ?_
  rw [List.map_cons, List.sum_cons, List.map_map]
  exact Nat.le_refl _

/-- A line is accepted if its fields are, and it is short enough as they are. -/
theorem short_accepted {command : MicrovmAction} {parent : Config}
    (checked : command.check parent = .ok ())
    (fields : ∀ field ∈ commandFields command, (fieldBytes field).length ≤ 1024)
    (sum : ((commandFields command).map fun field => (fieldBytes field).length + 1).sum ≤ 4083) :
    validateRequest command.request = .ok () := by
  have name : command.action.text.length ≤ 12 := by cases command.action <;> decide
  have length := request_length command
  exact (line_accepted_iff checked).2 ⟨by omega, fields⟩

/-- **What the command formats is accepted**, except for a path that fills its field. -/
theorem lines_accepted_iff {id kernel rootfs : String} {vcpus memoryMib : Nat}
    (validId : validateId id = .ok ()) (validKernel : validateGuestPath kernel = .ok ())
    (validRootfs : validateGuestPath rootfs = .ok ()) (cpus : 1 ≤ vcpus ∧ vcpus ≤ 16)
    (memory : 128 ≤ memoryMib ∧ memoryMib ≤ 16384) :
    (validateRequest (MicrovmAction.create id kernel rootfs vcpus memoryMib).request = .ok () ∧
        validateRequest (MicrovmAction.start id).request = .ok () ∧
        (∀ force, validateRequest (MicrovmAction.stop id force).request = .ok ()) ∧
        validateRequest (MicrovmAction.inspect (some id)).request = .ok ()) ↔
      (bytes kernel).length ≤ 1017 ∧ (bytes rootfs).length ≤ 1017 := by
  have idShort : (fieldBytes ("id", id)).length ≤ 67 := by
    have short := id_length validId
    rw [fieldBytes_length]
    show 2 + 1 + _ ≤ _
    omega
  have start : validateRequest (MicrovmAction.start id).request = .ok () := by
    refine @short_accepted (.start id) largeParent validId ?_ ?_
    · simp only [commandFields, List.forall_mem_singleton]
      omega
    · simp only [commandFields, List.map_cons, List.map_nil, List.sum_cons, List.sum_nil]
      omega
  have stop : ∀ force, validateRequest (MicrovmAction.stop id force).request = .ok () := by
    intro force
    have forceShort : (fieldBytes ("force", if force then "1" else "0")).length = 7 := by
      cases force <;> decide
    refine @short_accepted (.stop id force) largeParent validId ?_ ?_
    · simp only [commandFields, List.forall_mem_cons, forceShort]
      exact ⟨by omega, by omega, fun _ member => by cases member⟩
    · simp only [commandFields, List.map_cons, List.map_nil, List.sum_cons, List.sum_nil,
        forceShort]
      omega
  have inspect : validateRequest (MicrovmAction.inspect (some id)).request = .ok () := by
    refine @short_accepted (.inspect (some id)) largeParent validId ?_ ?_
    · simp only [commandFields, List.forall_mem_singleton]
      omega
    · simp only [commandFields, List.map_cons, List.map_nil, List.sum_cons, List.sum_nil]
      omega
  have checked := create_checked validId validKernel validRootfs cpus memory
  have kernelField : (fieldBytes ("kernel", kernel)).length = 7 + (bytes kernel).length :=
    fieldBytes_length "kernel" kernel
  have rootfsField : (fieldBytes ("rootfs", rootfs)).length = 7 + (bytes rootfs).length :=
    fieldBytes_length "rootfs" rootfs
  constructor
  · rintro ⟨created, -⟩
    obtain ⟨-, fields⟩ := (line_accepted_iff checked).1 created
    have onKernel := fields ("kernel", kernel) (by simp [commandFields])
    have onRootfs := fields ("rootfs", rootfs) (by simp [commandFields])
    omega
  · rintro ⟨onKernel, onRootfs⟩
    refine ⟨?_, start, stop, inspect⟩
    have vcpusField : (fieldBytes ("vcpus", toString vcpus)).length ≤ 11 := by
      have digits := @number_length vcpus (by omega)
      rw [fieldBytes_length]
      show 5 + 1 + _ ≤ _
      omega
    have memoryField : (fieldBytes ("memory_mib", toString memoryMib)).length ≤ 16 := by
      have digits := number_length memory.2
      rw [fieldBytes_length]
      show 10 + 1 + _ ≤ _
      omega
    refine short_accepted checked ?_ ?_
    · simp only [commandFields, List.forall_mem_cons]
      exact ⟨by omega, by omega, by omega, by omega, by omega, fun _ member => by cases member⟩
    · simp only [commandFields, List.map_cons, List.map_nil, List.sum_cons, List.sum_nil]
      omega

/-- A path of one byte more than `n`. -/
def longPath (n : Nat) : String :=
  String.ofList ('/' :: List.replicate n 'k')

theorem bytes_longPath (n : Nat) : bytes (longPath n) = 0x2f :: List.replicate n 0x6b := by
  have letters : Utf8.encode (List.replicate n 'k') = List.replicate n 0x6b := by
    induction n with
    | zero => rfl
    | succ n ih =>
        rw [List.replicate_succ, List.replicate_succ, Utf8.encode_cons, ih]
        rfl
  rw [bytes, longPath, String.toList_ofList, Utf8.encode_cons, letters]
  rfl

theorem validateGuestPath_longPath {n : Nat} (short : n ≤ 1023) :
    validateGuestPath (longPath n) = .ok () := by
  have letters : ∀ c ∈ (longPath n).toList, c = '/' ∨ c = 'k' := by
    intro c member
    rw [longPath, String.toList_ofList] at member
    rcases List.mem_cons.1 member with is | later
    · exact .inl is
    · exact .inr (List.eq_of_mem_replicate later)
  unfold validateGuestPath
  rw [if_pos]
  refine ⟨?_, fun dots => ?_, ?_, ?_⟩
  · rw [longPath, String.toList_ofList]
    rfl
  · have dot := dots.subset (List.mem_cons_self : '.' ∈ ['.', '.'])
    exact absurd (letters '.' dot) (by decide)
  · rw [bytes_longPath, List.length_cons, List.length_replicate]
    omega
  · rw [bytes_longPath, List.all_cons, List.all_replicate]
    simp [pathByte, isAsciiAlphanumeric]

theorem lines_accepted_iff_long :
    (validateRequest (MicrovmAction.create "vm" (longPath 1016) "/r" 1 512).request = .ok () ∧
        validateRequest (MicrovmAction.start "vm").request = .ok () ∧
        (∀ force, validateRequest (MicrovmAction.stop "vm" force).request = .ok ()) ∧
        validateRequest (MicrovmAction.inspect (some "vm")).request = .ok ()) ↔
      (bytes (longPath 1016)).length ≤ 1017 ∧ (bytes "/r").length ≤ 1017 := by
  have validId : validateId "vm" = .ok () := by decide
  have validKernel := @validateGuestPath_longPath 1016 (by decide)
  have validRootfs : validateGuestPath "/r" = .ok () := by decide
  exact lines_accepted_iff validId validKernel validRootfs (by decide) (by decide)

/-- A path that is accepted, and its line is not. -/
theorem long_path_refused :
    validateId "vm" = .ok () ∧ validateGuestPath (longPath 1023) = .ok () ∧
      validateGuestPath "/r" = .ok () ∧
      validateRequest (MicrovmAction.create "vm" (longPath 1023) "/r" 1 512).request ≠ .ok () := by
  have validId : validateId "vm" = .ok () := by decide
  have validKernel := @validateGuestPath_longPath 1023 (by decide)
  have validRootfs : validateGuestPath "/r" = .ok () := by decide
  refine ⟨validId, validKernel, validRootfs, fun accepted => ?_⟩
  have checked := @create_checked _ _ _ 1 512 validId validKernel validRootfs (by decide) (by decide)
  have short := ((line_accepted_iff checked).1 accepted).2 ("kernel", longPath 1023)
    (by simp [commandFields])
  rw [fieldBytes_length, bytes_longPath, List.length_cons, List.length_replicate] at short
  exact absurd short (by decide)

/-! ## What both take from a line -/

/-- The map from field names to values that a tokenisation is, in bytes. -/
def bindings : List (List Char) → Bytes → Option Bytes
  | [], _ => none
  | token :: rest, name =>
      match cut '=' token with
      | none => bindings rest name
      | some (key, value) =>
          if Utf8.encode key = name then some (Utf8.encode value) else bindings rest name

theorem bindings_cons {token key value : List Char} (found : cut '=' token = some (key, value))
    (rest : List (List Char)) (name : Bytes) :
    bindings (token :: rest) name =
      if Utf8.encode key = name then some (Utf8.encode value) else bindings rest name := by
  rw [bindings, found]

/-- The script, given a request as one line, takes the action and the map of the
tokenisation of it. -/
def ReadsSame (request : String) : Prop :=
  ∃ (action : Manager.Action) (word : List Char) (tokens : List (List Char)),
    words isWhitespace request.toList = word :: tokens ∧ Utf8.encode word = action.text ∧
      (Manager.readRequest (bytes request ++ [0x0a])).map Manager.parseRequest =
        some (.ok (action, .binding (bindings tokens)))

/-- One more accepted token, and what is known of it. -/
theorem validateTokens_cons {allowed seen seen' : List String} {token : List Char}
    {rest : List (List Char)} (accepted : validateTokens allowed (token :: rest) seen = .ok seen') :
    ∃ key value, token = key ++ '=' :: value ∧ cut '=' token = some (key, value) ∧
      String.ofList key ∈ allowed ∧ String.ofList key ∉ seen ∧ value ≠ [] ∧
      (Utf8.encode token).all pathByte = true ∧
      (String.ofList key = "id" → validateId (String.ofList value) = .ok ()) ∧
      validateTokens allowed rest (String.ofList key :: seen) = .ok seen' := by
  unfold validateTokens at accepted
  split at accepted
  · cases accepted
  split at accepted
  · cases accepted
  rename_i key value found
  dsimp only at accepted
  split at accepted
  · cases accepted
  rename_i isAllowed
  split at accepted
  · cases accepted
  rename_i fresh
  split at accepted
  · cases accepted
  rename_i nonempty
  split at accepted
  · cases accepted
  rename_i all
  refine ⟨key, value, (cut_eq_some found).1, found, not_not.1 isAllowed, fresh, ?_, not_not.1 all,
    ?_⟩
  · rintro rfl
    exact nonempty rfl
  · split at accepted
    · rename_i isId
      obtain ⟨_, valid, further⟩ := bind_eq_ok accepted
      exact ⟨fun _ => valid, further⟩
    · rename_i notId
      split at accepted
      · obtain ⟨_, _, further⟩ := bind_eq_ok accepted
        exact ⟨fun isId => absurd isId notId, further⟩
      · exact ⟨fun isId => absurd isId notId, accepted⟩

/-- A field that was seen is not bound again. -/
theorem bindings_seen {allowed seen seen' : List String} {tokens : List (List Char)}
    (accepted : validateTokens allowed tokens seen = .ok seen') {key : List Char}
    (before : String.ofList key ∈ seen) : bindings tokens (Utf8.encode key) = none := by
  induction tokens generalizing seen with
  | nil => rfl
  | cons token rest ih =>
      obtain ⟨other, value, -, found, -, fresh, -, -, -, further⟩ := validateTokens_cons accepted
      have apart : Utf8.encode other ≠ Utf8.encode key := by
        rw [Ne, encode_inj]
        rintro rfl
        exact fresh before
      rw [bindings_cons found, if_neg apart]
      exact ih further (List.mem_cons_of_mem _ before)

/-- What is bound holds the bytes of a path only. -/
theorem bindings_plain {allowed seen seen' : List String} {tokens : List (List Char)}
    (accepted : validateTokens allowed tokens seen = .ok seen') {name value : Bytes}
    (bound : bindings tokens name = some value) : ∀ b ∈ value, pathByte b = true := by
  induction tokens generalizing seen with
  | nil => cases bound
  | cons token rest ih =>
      obtain ⟨key, content, shape, found, -, -, -, all, -, further⟩ := validateTokens_cons accepted
      rw [bindings_cons found] at bound
      split at bound
      · cases bound
        intro b member
        refine List.all_eq_true.1 all b ?_
        rw [shape, Utf8.encode, List.flatMap_append, List.flatMap_cons]
        exact List.mem_append_right _ (List.mem_append_right _ member)
      · exact ih further bound

/-- Every field of an action is set by the script. -/
theorem setField_of_allowed {action : Manager.Action} {key : String}
    (isAllowed : key ∈ actionFields action) {value : Bytes}
    (onId : key = "id" → Manager.validId value = true) (fields : Manager.Fields) :
    ∃ fields', Manager.setField action (bytes key) value fields = .ok fields' := by
  have onIdOf : action ≠ .capabilities → key = "id" →
      ∃ fields', Manager.setField action (bytes key) value fields = .ok fields' := by
    rintro known rfl
    exact ⟨_, by rw [Manager.setField, if_pos ⟨by decide, known⟩, if_pos (onId rfl)]⟩
  cases action with
  | capabilities => cases isAllowed
  | inspect => exact onIdOf (by decide) (List.mem_singleton.1 isAllowed)
  | start => exact onIdOf (by decide) (List.mem_singleton.1 isAllowed)
  | create =>
      simp only [actionFields, List.mem_cons, List.not_mem_nil, or_false] at isAllowed
      rcases isAllowed with isId | rfl | rfl | rfl | rfl
      · exact onIdOf (by decide) isId
      all_goals exact ⟨_, rfl⟩
  | stop =>
      simp only [actionFields, List.mem_cons, List.not_mem_nil, or_false] at isAllowed
      rcases isAllowed with isId | rfl
      · exact onIdOf (by decide) isId
      · exact ⟨_, rfl⟩

/-- A token is cut at the same place in its bytes. -/
theorem cut_encode {token key value : List Char} (found : cut '=' token = some (key, value)) :
    Utf8.encode token = Utf8.encode key ++ 0x3d :: Utf8.encode value ∧
      0x3d ∉ Utf8.encode key := by
  obtain ⟨rfl, before⟩ := cut_eq_some found
  refine ⟨?_, fun inside => ?_⟩
  · rw [Utf8.encode, List.flatMap_append, List.flatMap_cons]
    rfl
  · obtain ⟨c, member, isByte⟩ := List.mem_flatMap.1 inside
    have same : c = '=' := Char.toNat_inj.1 (toNat_of_small isByte (by decide))
    exact before (same ▸ member)

/-- The loop of the script over the tokens that were accepted, by induction on them:
`seen` on the two sides are the same names, there between spaces. -/
theorem setFields_of_accepted {action : Manager.Action} {seen seen' : List String}
    {tokens : List (List Char)}
    (accepted : validateTokens (actionFields action) tokens seen = .ok seen') {front : Bytes}
    (names : ∀ name ∈ words (· == 0x20) front, ∃ key ∈ seen, name = bytes key)
    (fields : Manager.Fields) :
    ∃ fields', Manager.setFields action (tokens.map Utf8.encode) (front ++ [0x20]) fields =
        .ok fields' ∧
      ∀ name, fields'.get name = (bindings tokens name).getD (fields.get name) := by
  induction tokens generalizing seen front fields with
  | nil => exact ⟨fields, rfl, fun _ => rfl⟩
  | cons token rest ih =>
      obtain ⟨key, value, -, found, isAllowed, fresh, nonempty, -, onId, further⟩ :=
        validateTokens_cons accepted
      have isKey : bytes (String.ofList key) = Utf8.encode key := by
        rw [bytes, String.toList_ofList]
      have isValue : bytes (String.ofList value) = Utf8.encode value := by
        rw [bytes, String.toList_ofList]
      obtain ⟨after, sets⟩ := @setField_of_allowed action _ isAllowed (Utf8.encode value)
        (fun isId => isValue ▸ validId_of_validateId (onId isId)) fields
      rw [isKey] at sets
      obtain ⟨isName, now, others⟩ := Manager.setField_sets sets
      have isWord := Manager.fieldNames_word isName
      have notSeen : ¬ 0x20 :: Utf8.encode key ++ [0x20] <:+: front ++ [0x20] := by
        intro inside
        have again := Manager.mem_words_of_infix isWord inside
        rw [words_append_sep front rfl, words_nil, List.append_nil] at again
        obtain ⟨other, before, same⟩ := names _ again
        rw [← isKey] at same
        exact fresh (bytes_injective same ▸ before)
      have names' : ∀ name ∈ words (· == 0x20) (front ++ 0x20 :: Utf8.encode key),
          ∃ other ∈ String.ofList key :: seen, name = bytes other := by
        intro name member
        rw [words_append_sep front rfl, words_single isWord] at member
        rcases List.mem_append.1 member with before | new
        · obtain ⟨other, isSeen, same⟩ := names name before
          exact ⟨other, List.mem_cons_of_mem _ isSeen, same⟩
        · exact ⟨_, List.mem_cons_self, (List.mem_singleton.1 new).trans isKey.symm⟩
      obtain ⟨fields', behind, bound⟩ := ih further names' after
      obtain ⟨shape, noEquals⟩ := cut_encode found
      have content : Utf8.encode value ≠ [] := fun empty => nonempty (encode_inj.1 empty)
      refine ⟨fields', ?_, fun name => ?_⟩
      · rw [List.map_cons, shape, Manager.setFields_cons noEquals content notSeen sets, ← behind]
        simp
      · rw [bound name, bindings_cons found]
        by_cases same : Utf8.encode key = name
        · subst same
          rw [if_pos rfl, bindings_seen further List.mem_cons_self, now]
          rfl
        · rw [if_neg same, others name (Ne.symm same)]

/-- Every accepted action is one of the script. -/
theorem action_of_allowed {name : String} {allowed : List String}
    (known : allowedFields name = some allowed) :
    ∃ action, name = actionName action ∧ allowed = actionFields action := by
  unfold allowedFields at known
  split at known
  · rename_i is
    cases known
    exact ⟨.capabilities, is, rfl⟩
  split at known
  · rename_i is
    cases known
    rcases is with is | is
    · exact ⟨.inspect, is, rfl⟩
    · exact ⟨.start, is, rfl⟩
  split at known
  · rename_i is
    cases known
    exact ⟨.create, is, rfl⟩
  split at known
  · rename_i is
    cases known
    exact ⟨.stop, is, rfl⟩
  · cases known

theorem fieldNames_letters {name : Bytes} (isName : name ∈ Manager.fieldNames) :
    ∀ b ∈ name, pathByte b = true := by
  have all : ∀ name ∈ Manager.fieldNames, name.all pathByte = true :=
    forall_mem_of_all (by decide)
  exact List.all_eq_true.1 (all name isName)

/-- The values before a request are as plain. -/
theorem default_plain {name : Bytes} (isName : name ∈ Manager.fieldNames) :
    ∀ b ∈ ({} : Manager.Fields).get name, pathByte b = true := by
  have all : ∀ name ∈ Manager.fieldNames, (({} : Manager.Fields).get name).all pathByte = true :=
    forall_mem_of_all (by decide)
  exact List.all_eq_true.1 (all name isName)

/-- No accepted request ends its line early. -/
theorem Tokenised.line {request : String} {word : List Char} {tokens : List (List Char)}
    {allowed seen : List String} (tokenised : Tokenised request word tokens allowed seen) :
    ∀ b ∈ bytes request, b ≠ 0x0a ∧ b ≠ 0 := by
  intro b inside
  obtain ⟨c, member, isByte⟩ := List.mem_flatMap.1 inside
  have allowed := List.any_eq_false.1 tokenised.clean c member
  constructor
  · rintro rfl
    have same := toNat_of_small isByte (by decide)
    exact allowed (by rw [forbidden, same]; rfl)
  · rintro rfl
    have same := toNat_of_small isByte (by decide)
    exact allowed (by rw [forbidden, same]; rfl)

/-- With blanks alone the script takes the same. -/
theorem Tokenised.reads_same {request : String} {word : List Char} {tokens : List (List Char)}
    {allowed seen : List String} (tokenised : Tokenised request word tokens allowed seen)
    (blanks : ∀ c ∈ request.toList, isWhitespace c = true → c = ' ' ∨ c = '\t') :
    ReadsSame request := by
  obtain ⟨action, isName, rfl⟩ := action_of_allowed tokenised.action
  have isText : Utf8.encode word = action.text := by
    rw [← bytes_actionName, ← isName, bytes, String.toList_ofList]
  have none : ∀ name ∈ words (· == 0x20) ([] : Bytes), ∃ key ∈ [], name = bytes key :=
    fun name member => by cases member
  obtain ⟨fields, sets, bound⟩ := setFields_of_accepted tokenised.fields none {}
  have same : fields = .binding (bindings tokens) := by
    refine Manager.Fields.ext_get fun name isName => ?_
    rw [bound name, Manager.Fields.get_binding _ isName]
  have split := words_bytes blanks
  rw [tokenised.split, List.map_cons, isText] at split
  refine ⟨action, word, tokens, tokenised.split, isText, ?_⟩
  rw [Manager.readRequest_line tokenised.line, Option.map_some, Manager.parseRequest,
    if_neg (Nat.not_lt.2 tokenised.short), split]
  dsimp only
  rw [Manager.parse_text]
  dsimp only
  rw [← same]
  rw [List.nil_append] at sets
  rw [sets]
  rfl

/-- And it takes other words where other white space is, whatever it makes of them. -/
theorem Tokenised.blanks {request : String} {word : List Char} {tokens : List (List Char)}
    {allowed seen : List String} (tokenised : Tokenised request word tokens allowed seen)
    (same : ReadsSame request) :
    ∀ c ∈ request.toList, isWhitespace c = true → c = ' ' ∨ c = '\t' := by
  obtain ⟨action, word', tokens', split, -, parsed⟩ := same
  cases tokenised.split.symm.trans split
  rw [Manager.readRequest_line tokenised.line, Option.map_some] at parsed
  obtain ⟨behind, isSplit, sets⟩ := Manager.words_of_parseRequest (Option.some.inj parsed)
  obtain ⟨binds, -⟩ := Manager.setFields_binds ⟨[], rfl⟩ sets
  have values : ∀ name ∈ Manager.fieldNames,
      ∀ b ∈ (Manager.Fields.binding (bindings tokens)).get name, pathByte b = true := by
    intro name isName
    rw [Manager.Fields.get_binding _ isName]
    cases bound : bindings tokens name with
    | some value => exact bindings_plain tokenised.fields bound
    | none => exact default_plain isName
  refine blank_of_bytes fun b inside => ?_
  rcases @sep_or_mem_words _ Manager.blank b _ inside with isBlank | ⟨text, isWord, member⟩
  · right
    simp only [Manager.blank, Bool.or_eq_true, beq_iff_eq] at isBlank
    rcases isBlank with (space | tab) | newline
    · exact .inl space
    · exact .inr tab
    · exact absurd newline (tokenised.line b inside).1
  · left
    rw [isSplit] at isWord
    rcases List.mem_cons.1 isWord with rfl | further
    · exact action_letters action b member
    · obtain ⟨key, isName, rfl⟩ := binds text further
      rcases List.mem_append.1 member with inKey | later
      · exact fieldNames_letters isName b inKey
      · rcases List.mem_cons.1 later with rfl | inValue
        · decide
        · exact values key isName b inValue

/-- **The script reads what was validated** just if blanks are the only white space. -/
theorem reads_same_iff {request : String} (accepted : validateRequest request = .ok ()) :
    ReadsSame request ↔ ∀ c ∈ request.toList, isWhitespace c = true → c = ' ' ∨ c = '\t' := by
  obtain ⟨word, tokens, allowed, seen, tokenised⟩ := tokenised_of_accepted accepted
  exact ⟨tokenised.blanks, tokenised.reads_same⟩

/-- A request with other blanks than the command writes. -/
theorem tabs_accepted : validateRequest "create\tid=a kernel=/k  rootfs=/r" = .ok () := by
  decide +kernel

theorem reads_same_iff_tabs :
    ReadsSame "create\tid=a kernel=/k  rootfs=/r" ↔
      ∀ c ∈ "create\tid=a kernel=/k  rootfs=/r".toList,
        isWhitespace c = true → c = ' ' ∨ c = '\t' :=
  reads_same_iff tabs_accepted

/-- A vertical tab, which is between two words on one side and in a word on the other. -/
theorem verticalTab_accepted : validateRequest "inspect\u000bid=a" = .ok () := by
  decide +kernel

theorem verticalTab_refused :
    (Manager.readRequest (bytes "inspect\u000bid=a" ++ [0x0a])).map Manager.parseRequest =
      some (.error "unknown action") := by
  decide +kernel

theorem reads_other :
    validateRequest "inspect\u000bid=a" = .ok () ∧ ¬ ReadsSame "inspect\u000bid=a" := by
  refine ⟨verticalTab_accepted, ?_⟩
  rintro ⟨action, word, tokens, -, -, parsed⟩
  rw [verticalTab_refused] at parsed
  cases parsed

end Luhmen.Host.Microvm
