/-
# Host.MicrovmRequest -- requests to the guest manager

A `luhmen microvm` command is checked (`MicrovmAction.check`), formatted as one line
(`MicrovmAction.request`) and checked again as a line (`validateRequest`) before it is
sent.  `manager_reads_request` says that the manager's script then takes exactly the
action and the values of the command, and its own defaults for the rest.

None of these values can hold a blank, so the two notions of a word, that of Unicode here
and that of the shell there, make no difference.
-/
import Mathlib
import Luhmen.Host.VmTemplate
import Luhmen.Manager.Request

namespace Luhmen.Host

open Luhmen.Theory

set_option autoImplicit false

/-- The bytes of a `&str`. -/
def bytes (text : String) : Bytes :=
  Utf8.encode text.toList

/-- `u8::is_ascii_alphanumeric`. -/
def isAsciiAlphanumeric (b : UInt8) : Bool :=
  (0x30 ≤ b && b ≤ 0x39) || (0x41 ≤ b && b ≤ 0x5a) || (0x61 ≤ b && b ≤ 0x7a)

namespace Microvm

def validateId (id : String) : Except String Unit :=
  if id ≠ "" ∧ (bytes id).length ≤ 64 ∧ id ≠ "." ∧ id ≠ ".." ∧
      (bytes id).all fun b => isAsciiAlphanumeric b || b == 0x5f || b == 0x2e || b == 0x2d then .ok ()
  else .error "microVM id must contain 1 to 64 letters, digits, underscores, dots, or hyphens"

/-- The bytes of a path and of a request. -/
def pathByte (b : UInt8) : Bool :=
  isAsciiAlphanumeric b || b == 0x5f || b == 0x2e || b == 0x2f || b == 0x3d || b == 0x3a || b == 0x2d

def validateGuestPath (path : String) : Except String Unit :=
  if path.toList.head? = some '/' ∧ ¬ ['.', '.'] <:+: path.toList ∧ (bytes path).length ≤ 1024 ∧
      (bytes path).all pathByte then .ok ()
  else .error "microVM guest path must be absolute and contain no whitespace, traversal, or unsupported characters"

/-! ## The command line -/

inductive MicrovmAction where
  | capabilities
  | create (id kernel rootfs : String) (vcpus memoryMib : Nat)
  | start (id : String)
  | stop (id : String) (force : Bool)
  | inspect (id : Option String)

/-- The checks of `execute`, with the settings of the parent VM. -/
def MicrovmAction.check (parent : Config) : MicrovmAction → Except String Unit
  | .capabilities => .ok ()
  | .create id kernel rootfs vcpus memoryMib => do
      validateId id
      validateGuestPath kernel
      validateGuestPath rootfs
      if ¬ (1 ≤ vcpus ∧ vcpus ≤ 16) then throw "microVM vcpus must be between 1 and 16"
      if ¬ (128 ≤ memoryMib ∧ memoryMib ≤ 16384) then
        throw "microVM memory must be between 128 and 16384 MiB"
      if parent.cpus < vcpus then
        throw ("microVM vcpus cannot exceed the parent VM CPU count (" ++ toString parent.cpus ++ ")")
      if parent.memoryGib * 1024 < memoryMib + 512 then
        throw "microVM memory must leave at least 512 MiB for the parent VM"
  | .start id | .stop id _ | .inspect (some id) => validateId id
  | .inspect none => .ok ()

def MicrovmAction.request : MicrovmAction → String
  | .capabilities => "capabilities"
  | .create id kernel rootfs vcpus memoryMib =>
      "create id=" ++ id ++ " kernel=" ++ kernel ++ " rootfs=" ++ rootfs ++ " vcpus=" ++
        toString vcpus ++ " memory_mib=" ++ toString memoryMib
  | .start id => "start id=" ++ id
  | .stop id force => "stop id=" ++ id ++ " force=" ++ toString (if force then 1 else 0)
  | .inspect (some id) => "inspect id=" ++ id
  | .inspect none => "inspect"

/-! ## `validate_request` -/

/-- The property `White_Space` of Unicode. -/
def isWhitespace (c : Char) : Bool :=
  (9 ≤ c.toNat && c.toNat ≤ 13) || c.toNat == 0x20 || c.toNat == 0x85 || c.toNat == 0xa0 ||
    c.toNat == 0x1680 || (0x2000 ≤ c.toNat && c.toNat ≤ 0x200a) || c.toNat == 0x2028 ||
    c.toNat == 0x2029 || c.toNat == 0x202f || c.toNat == 0x205f || c.toNat == 0x3000

/-- The fields of an action. -/
def allowedFields (action : String) : Option (List String) :=
  if action = "capabilities" then some []
  else if action = "inspect" ∨ action = "start" then some ["id"]
  else if action = "create" then some ["id", "kernel", "rootfs", "vcpus", "memory_mib"]
  else if action = "stop" then some ["id", "force"]
  else none

/-- The loop over the tokens behind the action. -/
def validateTokens (allowed : List String) : List (List Char) → List String → Except String (List String)
  | [], seen => .ok seen
  | token :: rest, seen =>
      if 1024 < (Utf8.encode token).length then .error "microVM manager argument is too large"
      else
        match cut '=' token with
        | none => .error "microVM manager arguments must be key=value pairs"
        | some (name, content) =>
            let key := String.ofList name
            let value := String.ofList content
            if key ∉ allowed then .error ("unsupported microVM manager field: " ++ key)
            else if key ∈ seen then .error ("duplicate microVM manager field: " ++ key)
            else if value = "" then .error ("microVM manager field cannot be empty: " ++ key)
            else if ¬ (Utf8.encode token).all pathByte then
              .error "microVM manager request contains unsupported characters"
            else do
              if key = "id" then validateId value
              else if key = "kernel" ∨ key = "rootfs" then validateGuestPath value
              validateTokens allowed rest (key :: seen)

def validateRequest (request : String) : Except String Unit :=
  if request = "" then .error "microVM manager request cannot be empty"
  else if 4096 < (bytes request).length then .error "microVM manager request is too large"
  else if request.toList.any fun c => [0x0a, 0x0d, 0, 0x27, 0x22, 0x5c].contains c.toNat then
    .error "microVM manager request contains unsupported characters"
  else
    match words isWhitespace request.toList with
    | [] => .error "microVM manager action is missing"
    | word :: tokens =>
        let action := String.ofList word
        match allowedFields action with
        | none => .error "unsupported microVM manager action"
        | some allowed => do
            let seen ← validateTokens allowed tokens []
            if (action = "create" ∨ action = "start" ∨ action = "stop") ∧ "id" ∉ seen then
              throw "microVM manager id is required"
            if action = "create" ∧ ¬ ("kernel" ∈ seen ∧ "rootfs" ∈ seen) then
              throw "microVM manager kernel and rootfs are required"

/-! ## What the manager reads -/

theorem bytes_append (first second : String) : bytes (first ++ second) = bytes first ++ bytes second := by
  simp [bytes, Utf8.encode, String.toList_append]

theorem bytes_injective {first second : String} (same : bytes first = bytes second) :
    first = second := by
  have texts : some first.toList = some second.toList := by
    rw [← Utf8.fromUtf8_encode, ← Utf8.fromUtf8_encode]
    exact congrArg Utf8.fromUtf8 same
  exact String.toList_inj.1 (Option.some.inj texts)

/-- A value that a request can carry. -/
def Plain (value : Bytes) : Prop :=
  value ≠ [] ∧ ∀ b ∈ value, pathByte b = true

theorem idByte_eq (b : UInt8) : Manager.idByte b =
    (isAsciiAlphanumeric b || b == 0x5f || b == 0x2e || b == 0x2d) := by
  simp only [Manager.idByte, isAsciiAlphanumeric]
  ac_rfl

theorem validId_of_validateId {id : String} (valid : validateId id = .ok ()) :
    Manager.validId (bytes id) = true := by
  unfold validateId at valid
  split at valid
  · rename_i checks
    obtain ⟨nonempty, short, notDot, notDots, letters⟩ := checks
    have apart : ∀ other : String, id ≠ other → bytes id ≠ bytes other :=
      fun other differs same => differs (bytes_injective same)
    have all : (bytes id).all Manager.idByte = true := by
      rw [← letters]
      congr 1
      funext b
      exact idByte_eq b
    simp only [Manager.validId, all, Bool.and_true, Bool.and_eq_true, decide_eq_true_eq]
    exact ⟨⟨⟨apart "" nonempty, apart "." notDot⟩, apart ".." notDots⟩, short⟩
  · cases valid

theorem plain_of_validId {value : Bytes} (valid : Manager.validId value = true) : Plain value := by
  simp only [Manager.validId, Bool.and_eq_true, decide_eq_true_eq] at valid
  obtain ⟨⟨⟨⟨nonempty, -⟩, -⟩, -⟩, letters⟩ := valid
  refine ⟨nonempty, fun b member => ?_⟩
  have letter := List.all_eq_true.1 letters b member
  rw [idByte_eq] at letter
  simp only [pathByte, Bool.or_eq_true] at letter ⊢
  tauto

theorem plain_of_path {path : String} (valid : validateGuestPath path = .ok ()) :
    Plain (bytes path) := by
  unfold validateGuestPath at valid
  split at valid
  · rename_i checks
    obtain ⟨absolute, -, -, allowed⟩ := checks
    refine ⟨fun empty => ?_, List.all_eq_true.1 allowed⟩
    have same : bytes path = bytes "" := empty
    rw [bytes_injective same] at absolute
    cases absolute
  · cases valid

/-- A digit is one byte. -/
theorem digit_byte {c : Char} (digit : c.isDigit = true) {b : UInt8}
    (member : b ∈ String.utf8EncodeChar c) : pathByte b = true := by
  simp only [Char.isDigit, Bool.and_eq_true, decide_eq_true_eq] at digit
  have low : 0x30 ≤ c.toNat := UInt32.le_iff_toNat_le.1 digit.1
  have high : c.toNat ≤ 0x39 := UInt32.le_iff_toNat_le.1 digit.2
  have toNat : b.toNat = c.toNat := by
    rw [Utf8.utf8EncodeChar_ascii (by omega), List.mem_singleton] at member
    rw [member, UInt8.toNat_ofNat', Nat.mod_eq_of_lt (by omega)]
  have isDigit : 0x30 ≤ b ∧ b ≤ 0x39 :=
    ⟨UInt8.le_iff_toNat_le.2 (by rw [toNat]; exact low),
      UInt8.le_iff_toNat_le.2 (by rw [toNat]; exact high)⟩
  simp [pathByte, isAsciiAlphanumeric, isDigit]

theorem plain_number (n : Nat) : Plain (bytes (toString n)) := by
  have digits : (toString n).toList = Nat.toDigits 10 n := Nat.toList_repr
  refine ⟨fun empty => ?_, fun b member => ?_⟩
  · have same : bytes (toString n) = bytes "" := empty
    have none : Nat.toDigits 10 n = [] := by rw [← digits, bytes_injective same]; rfl
    exact Nat.toDigits_ne_nil none
  · unfold bytes Utf8.encode at member
    rw [digits] at member
    obtain ⟨c, isDigit, encoded⟩ := List.mem_flatMap.1 member
    exact digit_byte (Nat.isDigit_of_mem_toDigits (by decide) (by decide) isDigit) encoded

/-- No value breaks a line into other words. -/
theorem blank_of_pathByte {b : UInt8} (allowed : pathByte b = true) :
    Manager.blank b = false ∧ b ≠ 0x0a ∧ b ≠ 0 := by
  refine ⟨?_, ?_, ?_⟩
  · by_contra isBlank
    simp only [Manager.blank, Bool.not_eq_false, Bool.or_eq_true, beq_iff_eq] at isBlank
    rcases isBlank with (rfl | rfl) | rfl <;> exact absurd allowed (by decide)
  · rintro rfl
    exact absurd allowed (by decide)
  · rintro rfl
    exact absurd allowed (by decide)

/-- A field of a request. -/
def token (key : String) (value : Bytes) : Bytes :=
  ascii key ++ 0x3d :: value

theorem token_bytes {key : String} (plainKey : ∀ b ∈ ascii key, pathByte b = true) {value : Bytes}
    (plain : Plain value) : ∀ b ∈ token key value, pathByte b = true := by
  intro b member
  rcases List.mem_append.1 member with inKey | behind
  · exact plainKey b inKey
  · rcases List.mem_cons.1 behind with rfl | inValue
    · decide
    · exact plain.2 b inValue

/-! ### The round trip -/

namespace MicrovmAction

def action : MicrovmAction → Manager.Action
  | .capabilities => .capabilities
  | .create .. => .create
  | .start _ => .start
  | .stop _ _ => .stop
  | .inspect _ => .inspect

/-- The values of a command; what it does not name has the manager's default. -/
def fields : MicrovmAction → Manager.Fields
  | .capabilities | .inspect none => {}
  | .create id kernel rootfs vcpus memoryMib =>
      { id := bytes id, kernel := bytes kernel, rootfs := bytes rootfs,
        vcpus := bytes (toString vcpus), memoryMib := bytes (toString memoryMib) }
  | .start id | .inspect (some id) => { id := bytes id }
  | .stop id force => { id := bytes id, force := if force then ascii "1" else ascii "0" }

/-- The words of a request behind its action. -/
def tokens : MicrovmAction → List Bytes
  | .capabilities | .inspect none => []
  | .create id kernel rootfs vcpus memoryMib =>
      [token "id" (bytes id), token "kernel" (bytes kernel), token "rootfs" (bytes rootfs),
        token "vcpus" (bytes (toString vcpus)), token "memory_mib" (bytes (toString memoryMib))]
  | .start id | .inspect (some id) => [token "id" (bytes id)]
  | .stop id force => [token "id" (bytes id), token "force" (if force then ascii "1" else ascii "0")]

/-- The bytes of formatted lines, with those of the formats in pieces. -/
theorem formatted_one {first : String} (a : String) {p : Bytes} (isFirst : bytes first = p) :
    bytes (first ++ a) = p ++ bytes a := by
  rw [bytes_append, isFirst]

theorem formatted_two {first second : String} (a b : String) {p q : Bytes}
    (isFirst : bytes first = p) (isSecond : bytes second = q) :
    bytes (first ++ a ++ second ++ b) = p ++ (bytes a ++ (q ++ bytes b)) := by
  subst isFirst isSecond
  simp only [bytes_append, List.append_assoc]

theorem formatted_five {first second third fourth fifth : String} (a b c d e : String)
    {p q r s t : Bytes} (isFirst : bytes first = p) (isSecond : bytes second = q)
    (isThird : bytes third = r) (isFourth : bytes fourth = s) (isFifth : bytes fifth = t) :
    bytes (first ++ a ++ second ++ b ++ third ++ c ++ fourth ++ d ++ fifth ++ e) =
      p ++ (bytes a ++ (q ++ (bytes b ++ (r ++ (bytes c ++ (s ++ (bytes d ++ (t ++ bytes e)))))))) := by
  subst isFirst isSecond isThird isFourth isFifth
  simp only [bytes_append, List.append_assoc]

theorem request_bytes (command : MicrovmAction) :
    bytes command.request = unwords 0x20 (command.action.text :: command.tokens) := by
  cases command with
  | capabilities => decide
  | create id kernel rootfs vcpus memoryMib =>
      have createId : bytes "create id=" =
          Manager.Action.create.text ++ 0x20 :: (ascii "id" ++ [0x3d]) := by decide
      have kernelField : bytes " kernel=" = 0x20 :: (ascii "kernel" ++ [0x3d]) := by decide
      have rootfsField : bytes " rootfs=" = 0x20 :: (ascii "rootfs" ++ [0x3d]) := by decide
      have vcpusField : bytes " vcpus=" = 0x20 :: (ascii "vcpus" ++ [0x3d]) := by decide
      have memoryField : bytes " memory_mib=" = 0x20 :: (ascii "memory_mib" ++ [0x3d]) := by decide
      refine (formatted_five id kernel rootfs (toString vcpus) (toString memoryMib) createId
        kernelField rootfsField vcpusField memoryField).trans ?_
      simp only [action, tokens, unwords, token, List.append_assoc, List.cons_append,
        List.nil_append]
  | start id =>
      have startId : bytes "start id=" =
          Manager.Action.start.text ++ 0x20 :: (ascii "id" ++ [0x3d]) := by decide
      refine (formatted_one id startId).trans ?_
      simp only [action, tokens, unwords, token, List.append_assoc, List.cons_append,
        List.nil_append]
  | stop id force =>
      have stopId : bytes "stop id=" =
          Manager.Action.stop.text ++ 0x20 :: (ascii "id" ++ [0x3d]) := by decide
      have forceField : bytes " force=" = 0x20 :: (ascii "force" ++ [0x3d]) := by decide
      have digit : bytes (toString (if force then 1 else 0)) =
          if force then ascii "1" else ascii "0" := by
        cases force <;> decide
      refine (formatted_two id _ stopId forceField).trans ?_
      simp only [digit, action, tokens, unwords, token, List.append_assoc, List.cons_append,
        List.nil_append]
  | inspect id =>
      cases id with
      | none => decide
      | some id =>
          have inspectId : bytes "inspect id=" =
              Manager.Action.inspect.text ++ 0x20 :: (ascii "id" ++ [0x3d]) := by decide
          refine (formatted_one id inspectId).trans ?_
          simp only [action, tokens, unwords, token, List.append_assoc, List.cons_append,
            List.nil_append]

/-- The values of a command whose arguments were checked. -/
theorem check_create {parent : Config} {id kernel rootfs : String} {vcpus memoryMib : Nat}
    (checked : (create id kernel rootfs vcpus memoryMib).check parent = .ok ()) :
    validateId id = .ok () ∧ validateGuestPath kernel = .ok () ∧ validateGuestPath rootfs = .ok () := by
  unfold check at checked
  dsimp only at checked
  cases onId : validateId id with
  | error message =>
      rw [onId] at checked
      cases checked
  | ok _ =>
      cases onKernel : validateGuestPath kernel with
      | error message =>
          rw [onId, onKernel] at checked
          cases checked
      | ok _ =>
          cases onRootfs : validateGuestPath rootfs with
          | error message =>
              rw [onId, onKernel, onRootfs] at checked
              cases checked
          | ok _ => exact ⟨rfl, rfl, rfl⟩

/-- All that a checked command sends is plain. -/
theorem tokens_plain {command : MicrovmAction} {parent : Config}
    (checked : command.check parent = .ok ()) :
    ∀ word ∈ command.tokens, word ≠ [] ∧ ∀ b ∈ word, pathByte b = true := by
  have field : ∀ (key : String) (value : Bytes), (∀ b ∈ ascii key, pathByte b = true) →
      Plain value → token key value ≠ [] ∧ ∀ b ∈ token key value, pathByte b = true :=
    fun key value plainKey plain => ⟨by simp [token], token_bytes plainKey plain⟩
  have idField : ∀ id : String, validateId id = .ok () →
      token "id" (bytes id) ≠ [] ∧ ∀ b ∈ token "id" (bytes id), pathByte b = true :=
    fun id valid => field "id" _ (forall_mem_of_all (by decide))
      (plain_of_validId (validId_of_validateId valid))
  cases command with
  | capabilities => simp [tokens]
  | create id kernel rootfs vcpus memoryMib =>
      obtain ⟨onId, onKernel, onRootfs⟩ := check_create checked
      simp only [tokens, List.forall_mem_cons, List.not_mem_nil, IsEmpty.forall_iff, forall_const,
        and_true]
      exact ⟨idField id onId,
        field "kernel" _ (forall_mem_of_all (by decide)) (plain_of_path onKernel),
        field "rootfs" _ (forall_mem_of_all (by decide)) (plain_of_path onRootfs),
        field "vcpus" _ (forall_mem_of_all (by decide)) (plain_number vcpus),
        field "memory_mib" _ (forall_mem_of_all (by decide)) (plain_number memoryMib)⟩
  | start id =>
      simp only [tokens, List.forall_mem_cons, List.not_mem_nil, IsEmpty.forall_iff, forall_const,
        and_true]
      exact idField id checked
  | stop id force =>
      have digit : Plain (if force then ascii "1" else ascii "0") := by
        cases force <;> exact ⟨by decide, forall_mem_of_all (by decide)⟩
      simp only [tokens, List.forall_mem_cons, List.not_mem_nil, IsEmpty.forall_iff, forall_const,
        and_true]
      exact ⟨idField id checked, field "force" _ (forall_mem_of_all (by decide)) digit⟩
  | inspect id =>
      cases id with
      | none => simp [tokens]
      | some id =>
          simp only [tokens, List.forall_mem_cons, List.not_mem_nil, IsEmpty.forall_iff,
            forall_const, and_true]
          exact idField id checked

/-- The manager takes an id ... -/
theorem setFields_id {action : Manager.Action} (known : action ≠ .capabilities) {id : Bytes}
    (valid : Manager.validId id = true) (rest : List Bytes) :
    Manager.setFields action (token "id" id :: rest) [0x20] {} =
      Manager.setFields action rest ([0x20] ++ ascii "id" ++ [0x20]) { id := id } := by
  have takes : Manager.setField action (ascii "id") id {} = .ok { id := id } := by
    rw [Manager.setField, if_pos ⟨rfl, known⟩, if_pos valid]
  exact Manager.setFields_cons (by decide) (plain_of_validId valid).1 (by decide) takes

/-- ... and the other fields of a microVM. -/
theorem setFields_create {id kernel rootfs vcpus memoryMib : Bytes}
    (valid : Manager.validId id = true) (onKernel : kernel ≠ []) (onRootfs : rootfs ≠ [])
    (onVcpus : vcpus ≠ []) (onMemory : memoryMib ≠ []) :
    Manager.setFields .create [token "id" id, token "kernel" kernel, token "rootfs" rootfs,
        token "vcpus" vcpus, token "memory_mib" memoryMib] [0x20] {} =
      .ok { id := id, kernel := kernel, rootfs := rootfs, vcpus := vcpus, memoryMib := memoryMib } := by
  rw [setFields_id (by decide) valid]
  unfold token
  rw [Manager.setFields_cons (by decide) onKernel (by decide +kernel) rfl,
    Manager.setFields_cons (by decide) onRootfs (by decide +kernel) rfl,
    Manager.setFields_cons (by decide) onVcpus (by decide +kernel) rfl,
    Manager.setFields_cons (by decide) onMemory (by decide +kernel) rfl]
  rfl

/-- The manager sets each field once, to the value it was given. -/
theorem setFields_tokens {command : MicrovmAction} {parent : Config}
    (checked : command.check parent = .ok ()) :
    Manager.setFields command.action command.tokens [0x20] {} = .ok command.fields := by
  cases command with
  | capabilities => rfl
  | create id kernel rootfs vcpus memoryMib =>
      obtain ⟨onId, onKernel, onRootfs⟩ := check_create checked
      exact setFields_create (validId_of_validateId onId) (plain_of_path onKernel).1
        (plain_of_path onRootfs).1 (plain_number vcpus).1 (plain_number memoryMib).1
  | start id =>
      have valid := validId_of_validateId checked
      exact @setFields_id .start (by decide) (bytes id) valid []
  | stop id force =>
      have nonempty : (if force then ascii "1" else ascii "0") ≠ [] := by cases force <;> decide
      have valid := validId_of_validateId checked
      refine (@setFields_id .stop (by decide) (bytes id) valid _).trans ?_
      exact Manager.setFields_cons (by decide) nonempty (by decide) rfl
  | inspect id =>
      cases id with
      | none => rfl
      | some id =>
          have valid := validId_of_validateId checked
          exact @setFields_id .inspect (by decide) (bytes id) valid []

end MicrovmAction

/-- What is accepted fits the manager. -/
theorem validateRequest_length {request : String} (accepted : validateRequest request = .ok ()) :
    (bytes request).length ≤ 4096 := by
  unfold validateRequest at accepted
  split at accepted
  · cases accepted
  · split at accepted
    · cases accepted
    · rename_i short
      exact Nat.le_of_not_lt short

/-- **Arguments are not fields.**  A command that passes its checks, and whose request is
accepted, is what the manager reads: the action, the values, and nothing else. -/
theorem manager_reads_request {command : MicrovmAction} {parent : Config}
    (checked : command.check parent = .ok ())
    (accepted : validateRequest command.request = .ok ()) :
    (Manager.readRequest (bytes command.request ++ [0x0a])).map Manager.parseRequest =
      some (.ok (command.action, command.fields)) := by
  have plain := MicrovmAction.tokens_plain checked
  have isWord : ∀ word ∈ command.tokens, Word Manager.blank word := fun word member =>
    ⟨(plain word member).1, fun b inWord => (blank_of_pathByte ((plain word member).2 b inWord)).1⟩
  have clean : ∀ b ∈ bytes command.request, b ≠ 0x0a ∧ b ≠ 0 := by
    rw [command.request_bytes]
    refine forall_mem_unwords (by decide) fun word member b inWord => ?_
    rcases List.mem_cons.1 member with rfl | further
    · revert b
      cases command.action <;> exact forall_mem_of_all (by decide)
    · exact (blank_of_pathByte ((plain word further).2 b inWord)).2
  have short := validateRequest_length accepted
  rw [Manager.readRequest_line clean, Option.map_some]
  rw [command.request_bytes] at short ⊢
  rw [Manager.parseRequest_unwords short isWord (MicrovmAction.setFields_tokens checked)]

/-- A microVM with other values than the defaults. -/
def sampleCreate : MicrovmAction :=
  .create "vm-1" "/k=1" "/r" 2 256

theorem manager_reads_request_create :
    (Manager.readRequest (bytes sampleCreate.request ++ [0x0a])).map Manager.parseRequest =
      some (.ok (.create, sampleCreate.fields)) :=
  @manager_reads_request sampleCreate ⟨1, 4, 8, 20, [], true⟩ (by decide +kernel)
    (by decide +kernel)

end Microvm

end Luhmen.Host
