/-
# Theory.JsonRecord -- records as JSON documents

What a derived reader makes of a document: the fields of a record are the members of an
object under their names, each at most once, or the items of an array in the order of the
fields.  A reader is `strict` where it refuses names it does not know.

Records are written as objects; `fields_object` is what reading one back rests on.
-/
import Mathlib.Tactic.Common
import Luhmen.Theory.JsonValue

namespace Luhmen.Theory.Json

set_option autoImplicit false

variable {F α : Type}

/-- The fields a document holds, under their names. -/
def fields (names : List String) (strict : Bool) : Json F → Option (List (String × Json F))
  | .object members =>
      let known := members.filter fun m => names.contains m.1
      if (known.map Prod.fst).Nodup ∧ (strict = true → known.length = members.length) then
        some known
      else none
  | .array items => if items.length ≤ names.length then some (names.zip items) else none
  | _ => none

/-- A field that has to be there. -/
def field (name : String) (decode : Json F → Option α) (found : List (String × Json F)) : Option α :=
  (find name found).bind decode

/-- A field with a default. -/
def fieldOr (name : String) (default : α) (decode : Json F → Option α)
    (found : List (String × Json F)) : Option α :=
  match find name found with
  | some v => decode v
  | none => some default

/-- An unsigned number below `bound`. -/
def asNat (bound : Nat) : Json F → Option Nat
  | .int n => if 0 ≤ n ∧ n < bound then some n.toNat else none
  | _ => none

def asText : Json F → Option String
  | .string text => some text
  | _ => none

def asList (decode : Json F → Option α) : Json F → Option (List α)
  | .array items => items.mapM decode
  | _ => none

/-- A word out of a table: an alternative without data, by itself or as the one member of an
object. -/
def asWord (table : List (String × α)) : Json F → Option α
  | .string text => (table.find? fun row => row.1 == text).map Prod.snd
  | .object [(text, .null)] => (table.find? fun row => row.1 == text).map Prod.snd
  | _ => none

/-- A record that is written with names it has is found as it was written. -/
theorem fields_object {names : List String} {strict : Bool} {members : List (String × Json F)}
    (known : ∀ m ∈ members, m.1 ∈ names) (once : (members.map Prod.fst).Nodup) :
    fields names strict (.object members) = some members := by
  have all : members.filter (fun m => names.contains m.1) = members :=
    List.filter_eq_self.2 fun m member => by simpa using known m member
  simp only [fields, all]
  exact if_pos ⟨once, fun _ => trivial⟩

theorem field_of_find {name : String} {decode : Json F → Option α} {found : List (String × Json F)}
    {v : Json F} {x : α} (here : find name found = some v) (reads : decode v = some x) :
    field name decode found = some x := by
  rw [field, here, Option.bind_some, reads]

theorem asNat_int {bound n : Nat} (small : n < bound) :
    asNat bound (.int n : Json F) = some n := by
  have inside : (0 : Int) ≤ n ∧ (n : Int) < bound := by omega
  rw [asNat, if_pos inside, Int.toNat_natCast]

theorem asNat_lt {bound n : Nat} {v : Json F} (reads : asNat bound v = some n) : n < bound := by
  cases v with
  | int value =>
      simp only [asNat] at reads
      split at reads
      · have := Option.some.inj reads
        omega
      · cases reads
  | _ => cases reads

theorem asList_map {decode : Json F → Option α} {encode : α → Json F} {xs : List α}
    (reads : ∀ x ∈ xs, decode (encode x) = some x) :
    asList decode (.array (xs.map encode)) = some xs := by
  simp only [asList]
  induction xs with
  | nil => rfl
  | cons x rest ih =>
      rw [List.map_cons, List.mapM_cons, reads x List.mem_cons_self,
        ih fun y member => reads y (List.mem_cons_of_mem _ member)]
      rfl

end Luhmen.Theory.Json
