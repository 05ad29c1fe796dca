/-
# Theory.JsonPrint -- the indented text of a JSON document

`pretty` prints a document the way JSON libraries do by default: two blanks of
indentation a level, one member or item a line, nothing inside what is empty,
and escapes only where a string needs them.  How a float is printed is left open.

`size` counts the characters of names and strings; the text is no shorter.
-/
import Luhmen.Theory.Bytes
import Luhmen.Theory.JsonValue

namespace Luhmen.Theory.Json

set_option autoImplicit false

def hexDigitChar (n : Nat) : Char :=
  if n < 10 then Char.ofNat (0x30 + n) else Char.ofNat (0x57 + n)

def escape (c : Char) : List Char :=
  if c = '"' then ['\\', '"']
  else if c = '\\' then ['\\', '\\']
  else if c = '\n' then ['\\', 'n']
  else if c = '\r' then ['\\', 'r']
  else if c = '\t' then ['\\', 't']
  else if c.toNat = 0x08 then ['\\', 'b']
  else if c.toNat = 0x0c then ['\\', 'f']
  else if c.toNat < 0x20 then
    ['\\', 'u', '0', '0', hexDigitChar (c.toNat / 16), hexDigitChar (c.toNat % 16)]
  else [c]

def printString (text : String) : List Char :=
  '"' :: (text.toList.flatMap escape ++ ['"'])

/-- A line at this depth. -/
def newline (depth : Nat) : List Char :=
  '\n' :: List.replicate (2 * depth) ' '

variable {F : Type} (float : F → List Char)

mutual

def print (depth : Nat) : Json F → List Char
  | .null => "null".toList
  | .bool true => "true".toList
  | .bool false => "false".toList
  | .int value => (toString value).toList
  | .float value => float value
  | .string text => printString text
  | .array [] => ['[', ']']
  | .array (item :: items) =>
      '[' :: (newline (depth + 1) ++ (print (depth + 1) item ++
        (printItems (depth + 1) items ++ (newline depth ++ [']']))))
  | .object [] => [Char.ofNat 0x7b, Char.ofNat 0x7d]
  | .object ((name, value) :: members) =>
      Char.ofNat 0x7b :: (newline (depth + 1) ++ (printString name ++ (':' :: ' ' ::
        (print (depth + 1) value ++
          (printMembers (depth + 1) members ++ (newline depth ++ [Char.ofNat 0x7d]))))))

def printItems (depth : Nat) : List (Json F) → List Char
  | [] => []
  | item :: items => ',' :: (newline depth ++ (print depth item ++ printItems depth items))

def printMembers (depth : Nat) : List (String × Json F) → List Char
  | [] => []
  | (name, value) :: members =>
      ',' :: (newline depth ++ (printString name ++ (':' :: ' ' :: (print depth value ++
        printMembers depth members))))

end

/-- The bytes of a document on its own. -/
def pretty (v : Json F) : Bytes :=
  Utf8.encode (print float 0 v)

/-- A printed object begins with its brace, its first line and its first name. -/
theorem print_object (name : String) (value : Json F) (members : List (String × Json F)) :
    ∃ rest, print float 0 (.object ((name, value) :: members)) =
      Char.ofNat 0x7b :: '\n' :: ' ' :: ' ' :: '"' :: (name.toList.flatMap escape ++ rest) := by
  simp only [print, newline, printString, List.cons_append, List.append_assoc]
  exact ⟨_, rfl⟩

theorem print_of_pretty {v w : Json F} (same : pretty float v = pretty float w) :
    print float 0 v = print float 0 w := by
  have decoded := congrArg Utf8.fromUtf8 same
  rw [pretty, pretty, Utf8.fromUtf8_encode, Utf8.fromUtf8_encode] at decoded
  exact Option.some.inj decoded

mutual

def size : Json F → Nat
  | .string text => text.toList.length
  | .array items => sizeItems items
  | .object members => sizeMembers members
  | _ => 0

def sizeItems : List (Json F) → Nat
  | [] => 0
  | item :: items => item.size + sizeItems items

def sizeMembers : List (String × Json F) → Nat
  | [] => 0
  | (name, value) :: members => name.toList.length + value.size + sizeMembers members

end

theorem length_le_printString (text : String) :
    text.toList.length ≤ (printString text).length := by
  have chars : ∀ l : List Char, l.length ≤ (l.flatMap escape).length := by
    intro l
    induction l with
    | nil => exact Nat.le_refl _
    | cons c rest ih =>
        have here : 0 < (escape c).length := by
          unfold escape
          repeat' split
          all_goals simp
        rw [List.flatMap_cons, List.length_append, List.length_cons]
        omega
  have inside := chars text.toList
  simp only [printString, List.length_cons, List.length_append]
  omega

mutual

theorem size_le_print (v : Json F) (depth : Nat) : v.size ≤ (print float depth v).length := by
  match v with
  | .null | .bool _ | .int _ | .float _ => simp [size]
  | .string text => simpa only [size, print] using length_le_printString text
  | .array [] => simp [size, sizeItems]
  | .array (item :: items) =>
      have first := size_le_print item (depth + 1)
      have rest := sizeItems_le_print items (depth + 1)
      simp only [size, sizeItems, print, List.length_cons, List.length_append]
      omega
  | .object [] => simp [size, sizeMembers]
  | .object ((name, value) :: members) =>
      have key := length_le_printString name
      have first := size_le_print value (depth + 1)
      have rest := sizeMembers_le_print members (depth + 1)
      simp only [size, sizeMembers, print, List.length_cons, List.length_append]
      omega

theorem sizeItems_le_print (items : List (Json F)) (depth : Nat) :
    sizeItems items ≤ (printItems float depth items).length := by
  match items with
  | [] => simp [sizeItems]
  | item :: items =>
      have first := size_le_print item depth
      have rest := sizeItems_le_print items depth
      simp only [sizeItems, printItems, List.length_cons, List.length_append]
      omega

theorem sizeMembers_le_print (members : List (String × Json F)) (depth : Nat) :
    sizeMembers members ≤ (printMembers float depth members).length := by
  match members with
  | [] => simp [sizeMembers]
  | (name, value) :: members =>
      have key := length_le_printString name
      have first := size_le_print value depth
      have rest := sizeMembers_le_print members depth
      simp only [sizeMembers, printMembers, List.length_cons, List.length_append]
      omega

end

theorem size_le_pretty (v : Json F) : v.size ≤ (pretty float v).length :=
  Nat.le_trans (size_le_print float v 0) (Utf8.length_le_encode _)

theorem le_size_of_mem {items : List (Json F)} {v : Json F} (member : v ∈ items) :
    v.size ≤ sizeItems items := by
  induction items with
  | nil => cases member
  | cons item rest ih =>
      simp only [sizeItems]
      rcases List.mem_cons.1 member with rfl | later
      · omega
      · have := ih later
        omega

end Luhmen.Theory.Json
