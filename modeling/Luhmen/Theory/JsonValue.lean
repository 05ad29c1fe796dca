/-
# Theory.JsonValue -- JSON documents as values

What a JSON library makes of a text: objects are ordered maps, so two documents
are equal when their values are, however they were written.  Integers are kept
apart from other numbers, whose type `F` is left open.

`get` is indexing with `null` for what is not there, `set` puts a member into an
object.  `get_set` and `set_set` are what their users need of the ordered map.
-/
import Mathlib.Data.List.Induction

namespace Luhmen.Theory

set_option autoImplicit false

/-- A JSON document; the members of an object are in the order of their names. -/
inductive Json (F : Type) where
  | null
  | bool (value : Bool)
  | int (value : Int)
  | float (value : F)
  | string (text : String)
  | array (items : List (Json F))
  | object (members : List (String × Json F))

namespace Json

variable {F : Type}

section Equality

variable [DecidableEq F]

mutual

def decEq : (v w : Json F) → Decidable (v = w)
  | .null, .null => .isTrue rfl
  | .bool a, .bool b => decidable_of_iff (a = b) (by simp)
  | .int a, .int b => decidable_of_iff (a = b) (by simp)
  | .float a, .float b => decidable_of_iff (a = b) (by simp)
  | .string a, .string b => decidable_of_iff (a = b) (by simp)
  | .array a, .array b =>
      have := decEqItems a b
      decidable_of_iff (a = b) (by simp)
  | .object a, .object b =>
      have := decEqMembers a b
      decidable_of_iff (a = b) (by simp)
  | .null, .bool _ | .null, .int _ | .null, .float _ | .null, .string _ | .null, .array _
  | .null, .object _ | .bool _, .null | .bool _, .int _ | .bool _, .float _ | .bool _, .string _
  | .bool _, .array _ | .bool _, .object _ | .int _, .null | .int _, .bool _ | .int _, .float _
  | .int _, .string _ | .int _, .array _ | .int _, .object _ | .float _, .null | .float _, .bool _
  | .float _, .int _ | .float _, .string _ | .float _, .array _ | .float _, .object _
  | .string _, .null | .string _, .bool _ | .string _, .int _ | .string _, .float _
  | .string _, .array _ | .string _, .object _ | .array _, .null | .array _, .bool _
  | .array _, .int _ | .array _, .float _ | .array _, .string _ | .array _, .object _
  | .object _, .null | .object _, .bool _ | .object _, .int _ | .object _, .float _
  | .object _, .string _ | .object _, .array _ => .isFalse (by simp)

def decEqItems : (v w : List (Json F)) → Decidable (v = w)
  | [], [] => .isTrue rfl
  | a :: v, b :: w =>
      have := decEq a b
      have := decEqItems v w
      decidable_of_iff (a = b ∧ v = w) (by simp)
  | [], _ :: _ | _ :: _, [] => .isFalse (by simp)

def decEqMembers : (v w : List (String × Json F)) → Decidable (v = w)
  | [], [] => .isTrue rfl
  | (j, a) :: v, (k, b) :: w =>
      have := decEq a b
      have := decEqMembers v w
      decidable_of_iff ((j = k ∧ a = b) ∧ v = w) (by simp)
  | [], _ :: _ | _ :: _, [] => .isFalse (by simp)

end

instance : DecidableEq (Json F) := decEq

end Equality

/-- The value under a name, as in a map. -/
def find (name : String) : List (String × Json F) → Option (Json F)
  | [] => none
  | (key, value) :: rest => if key = name then some value else find name rest

/-- A member put in its place among ordered ones. -/
def insert (name : String) (value : Json F) : List (String × Json F) → List (String × Json F)
  | [] => [(name, value)]
  | (key, other) :: rest =>
      if key = name then (name, value) :: rest
      else if name.toList < key.toList then (name, value) :: (key, other) :: rest
      else (key, other) :: insert name value rest

/-- A name behind the first one goes among the others. -/
theorem insert_behind {name key : String} (value other : Json F) (rest : List (String × Json F))
    (behind : key ≠ name ∧ ¬ name.toList < key.toList) :
    insert name value ((key, other) :: rest) = (key, other) :: insert name value rest := by
  rw [insert, if_neg behind.1, if_neg behind.2]

/-- An object from its members in any order. -/
def ofMembers (members : List (String × Json F)) : Json F :=
  .object (members.foldl (fun map member => insert member.1 member.2 map) [])

/-- Indexing by a name: `null` where there is nothing. -/
def get (v : Json F) (name : String) : Json F :=
  match v with
  | .object members => (find name members).getD .null
  | _ => .null

/-- A member of an object set; other values are left. -/
def set (v : Json F) (name : String) (value : Json F) : Json F :=
  match v with
  | .object members => .object (insert name value members)
  | other => other

def isObject : Json F → Bool
  | .object _ => true
  | _ => false

def isArray : Json F → Bool
  | .array _ => true
  | _ => false

def asBool : Json F → Option Bool
  | .bool value => some value
  | _ => none

theorem find_insert (members : List (String × Json F)) (name other : String) (value : Json F) :
    find other (insert name value members) =
      if name = other then some value else find other members := by
  induction members with
  | nil => rfl
  | cons member rest ih =>
      obtain ⟨key, here⟩ := member
      simp only [insert]
      split
      · rename_i same
        subst same
        simp only [find]
        split <;> rfl
      · rename_i apart
        split
        · simp only [find]
        · simp only [find, ih]
          by_cases found : key = other
          · have differs : name ≠ other := fun same => apart (found.trans same.symm)
            rw [if_pos found, if_pos found, if_neg differs]
          · rw [if_neg found, if_neg found]

theorem insert_insert (members : List (String × Json F)) (name : String) (value : Json F) :
    insert name value (insert name value members) = insert name value members := by
  induction members with
  | nil => simp [insert]
  | cons member rest ih =>
      obtain ⟨key, here⟩ := member
      by_cases same : key = name
      · simp [insert, same]
      · by_cases before : name.toList < key.toList
        · simp [insert, same, before]
        · simp [insert, same, before, ih]

theorem get_set {v : Json F} (object : v.isObject = true) (name other : String) (value : Json F) :
    (v.set name value).get other = if name = other then value else v.get other := by
  cases v with
  | object members =>
      simp only [set, get, find_insert]
      split <;> rfl
  | _ => cases object

theorem set_set (v : Json F) (name : String) (value : Json F) :
    (v.set name value).set name value = v.set name value := by
  cases v with
  | object members => simp only [set, insert_insert]
  | _ => rfl

theorem isObject_set {v : Json F} (name : String) (value : Json F) :
    (v.set name value).isObject = v.isObject := by
  cases v <;> rfl

/-- Of several members with one name the last counts. -/
theorem get_ofMembers (members : List (String × Json F)) (name : String) :
    (ofMembers members).get name = (find name members.reverse).getD .null := by
  induction members using List.reverseRecOn with
  | nil => rfl
  | append_singleton front member ih =>
      simp only [ofMembers, List.foldl_append, List.foldl_cons, List.foldl_nil, get, find_insert,
        List.reverse_append, List.reverse_cons, List.reverse_nil, List.nil_append,
        List.singleton_append, find] at ih ⊢
      split
      · rfl
      · exact ih

end Json

end Luhmen.Theory
