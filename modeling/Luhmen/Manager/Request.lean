/-
# Manager.Request -- the request line of the guest manager

`scripts/microvmd.sh` serves one request for each connection: a line of words, an action
and then fields.  `readRequest` is what `read` takes of the connection and `parseRequest`
what the script makes of the line: it splits it at blanks, with globbing off, and goes
through the words behind the action.

A shell text is a list of bytes without NUL, and `${#..}` is its length.
-/
import Mathlib
import Luhmen.Theory.Bytes
import Luhmen.Theory.Words

namespace Luhmen.Manager

open Luhmen.Theory

set_option autoImplicit false

/-- `IFS= read -r request || exit 0`: a line, if it is finished. -/
def readRequest (input : Bytes) : Option Bytes :=
  (cut 0x0a input).map fun (line, _) => line.filter (· ≠ 0)

/-- The letters of `[A-Za-z0-9_.-]`. -/
def idByte (b : UInt8) : Bool :=
  (0x41 ≤ b && b ≤ 0x5a) || (0x61 ≤ b && b ≤ 0x7a) || (0x30 ≤ b && b ≤ 0x39) || b == 0x5f ||
    b == 0x2e || b == 0x2d

def validId (text : Bytes) : Bool :=
  text ≠ [] && text ≠ ascii "." && text ≠ ascii ".." && decide (text.length ≤ 64) &&
    text.all idByte

inductive Action where
  | capabilities
  | inspect
  | create
  | start
  | stop
  deriving DecidableEq, Repr

def Action.text : Action → Bytes
  | .capabilities => ascii "capabilities"
  | .inspect => ascii "inspect"
  | .create => ascii "create"
  | .start => ascii "start"
  | .stop => ascii "stop"

def Action.parse (text : Bytes) : Option Action :=
  [Action.capabilities, .inspect, .create, .start, .stop].find? fun action => action.text == text

/-- The variables a request sets, with what they are before. -/
structure Fields where
  id : Bytes := []
  kernel : Bytes := []
  rootfs : Bytes := []
  vcpus : Bytes := ascii "1"
  memoryMib : Bytes := ascii "512"
  force : Bytes := ascii "0"
  deriving DecidableEq, Repr

/-- `case "$action:$key"`. -/
def setField (action : Action) (key value : Bytes) (fields : Fields) : Except String Fields :=
  if key = ascii "id" ∧ action ≠ .capabilities then
    if validId value then .ok { fields with id := value } else .error "invalid microVM id"
  else if key = ascii "kernel" ∧ action = .create then .ok { fields with kernel := value }
  else if key = ascii "rootfs" ∧ action = .create then .ok { fields with rootfs := value }
  else if key = ascii "vcpus" ∧ action = .create then .ok { fields with vcpus := value }
  else if key = ascii "memory_mib" ∧ action = .create then .ok { fields with memoryMib := value }
  else if key = ascii "force" ∧ action = .stop then .ok { fields with force := value }
  else .error "unknown request field"

/-- The loop over the words behind the action; `seen` is `seen_fields`. -/
def setFields (action : Action) : List Bytes → Bytes → Fields → Except String Fields
  | [], _, fields => .ok fields
  | token :: rest, seen, fields =>
      match cut 0x3d token with
      | none => .error "request fields must be key=value pairs"
      | some (key, value) =>
          if value = [] then .error "request field cannot be empty"
          else if 0x20 :: key ++ [0x20] <:+: seen then .error "duplicate request field"
          else do
            let fields ← setField action key value fields
            setFields action rest (seen ++ key ++ [0x20]) fields

/-- The separators of an unset `IFS`. -/
def blank (b : UInt8) : Bool :=
  b == 0x20 || b == 0x09 || b == 0x0a

def parseRequest (request : Bytes) : Except String (Action × Fields) :=
  if 4096 < request.length then .error "microVM manager request is too large"
  else
    match words blank request with
    | [] => .error "action is required"
    | word :: tokens =>
        match Action.parse word with
        | none => .error "unknown action"
        | some action => do
            let fields ← setFields action tokens [0x20] {}
            pure (action, fields)

/-! ## Fields that are accepted -/

theorem parse_text (action : Action) : Action.parse action.text = some action := by
  cases action <;> decide

theorem text_word (action : Action) : Word blank action.text := by
  cases action <;> exact ⟨by decide, forall_mem_of_all (by decide)⟩

/-- One more field. -/
theorem setFields_cons {action : Action} {key value seen : Bytes} {rest : List Bytes}
    {fields fields' : Fields} (noEquals : 0x3d ∉ key) (nonempty : value ≠ [])
    (fresh : ¬ 0x20 :: key ++ [0x20] <:+: seen) (sets : setField action key value fields = .ok fields') :
    setFields action ((key ++ 0x3d :: value) :: rest) seen fields =
      setFields action rest (seen ++ key ++ [0x20]) fields' := by
  rw [setFields, cut_append noEquals value]
  dsimp only
  rw [if_neg nonempty, if_neg fresh, sets]
  rfl

/-- A line of an action and fields that are set one by one. -/
theorem parseRequest_unwords {action : Action} {tokens : List Bytes} {fields : Fields}
    (short : (unwords 0x20 (action.text :: tokens)).length ≤ 4096)
    (isWord : ∀ word ∈ tokens, Word blank word)
    (sets : setFields action tokens [0x20] {} = .ok fields) :
    parseRequest (unwords 0x20 (action.text :: tokens)) = .ok (action, fields) := by
  have split : words blank (unwords 0x20 (action.text :: tokens)) = action.text :: tokens := by
    refine words_unwords (by decide) fun word member => ?_
    rcases List.mem_cons.1 member with rfl | further
    · exact text_word action
    · exact isWord word further
  unfold parseRequest
  rw [if_neg (Nat.not_lt.2 short), split]
  dsimp only
  rw [parse_text]
  dsimp only
  rw [sets]
  rfl

/-- A line that holds no NUL is read as it was sent. -/
theorem readRequest_line {line : Bytes} (clean : ∀ b ∈ line, b ≠ 0x0a ∧ b ≠ 0) :
    readRequest (line ++ [0x0a]) = some line := by
  have before : (0x0a : UInt8) ∉ line := fun member => (clean _ member).1 rfl
  unfold readRequest
  rw [cut_append before, Option.map_some]
  congr 1
  exact List.filter_eq_self.2 fun b member => by simpa using (clean b member).2

end Luhmen.Manager
