/-
# Theory.HeaderMap -- header fields by name

A header map keeps, for each name, the values it was given, in their order.
Names are compared in lower case: `HeaderName` holds only names written so, and
`HeaderName.fromBytes` is the one way from bytes to a name.

`getAll` of what `remove` and `insert` leave, at the name they touch and at every
other, is all that is needed to follow a sequence of them.
-/
import Mathlib.Data.List.Basic
import Luhmen.Theory.HttpResponse

set_option autoImplicit false

namespace Luhmen.Theory.Http

/-- `to_ascii_lowercase`. -/
def lowercase (text : Bytes) : Bytes :=
  text.map lower

/-- A name in lower case. -/
def normalName (text : Bytes) : Bool :=
  text ≠ [] && text.length ≤ 65535 && text.all (TokenByte ·) && lowercase text = text

structure HeaderName where
  text : Bytes
  normal : normalName text = true
deriving DecidableEq

/-- The name that some bytes write, in whatever case. -/
def HeaderName.fromBytes (text : Bytes) : Option HeaderName :=
  if text.length ≤ 65535 && text.all (TokenByte ·) then
    if normal : normalName (lowercase text) = true then some ⟨lowercase text, normal⟩ else none
  else none

/-- Names and values, in the order in which they were added. -/
structure HeaderMap where
  fields : List (HeaderName × Bytes)
deriving DecidableEq

namespace HeaderMap

variable (headers : HeaderMap)

/-- Every value of a name. -/
def getAll (name : HeaderName) : List Bytes :=
  (headers.fields.filter (·.1 = name)).map Prod.snd

/-- The first value of a name. -/
def get (name : HeaderName) : Option Bytes :=
  (headers.getAll name).head?

def containsKey (name : HeaderName) : Bool :=
  headers.fields.any (·.1 = name)

/-- Every value of a name goes. -/
def remove (name : HeaderName) : HeaderMap :=
  ⟨headers.fields.filter (·.1 ≠ name)⟩

/-- One value in the place of all that a name had. -/
def insert (name : HeaderName) (value : Bytes) : HeaderMap :=
  ⟨(headers.remove name).fields ++ [(name, value)]⟩

/-- Several names removed, one after another. -/
def removeAll (names : List HeaderName) : HeaderMap :=
  names.foldl remove headers

variable {headers} {name other : HeaderName} {value : Bytes}

@[simp] theorem getAll_remove_self : (headers.remove name).getAll name = [] := by
  simp [getAll, remove, List.filter_filter]

theorem getAll_remove_of_ne (different : other ≠ name) :
    (headers.remove name).getAll other = headers.getAll other := by
  simp only [getAll, remove, List.filter_filter]
  congr 1
  apply List.filter_congr
  intro field _
  by_cases same : field.1 = other
  · simp [same, different]
  · simp [same]

@[simp] theorem getAll_insert_self : (headers.insert name value).getAll name = [value] := by
  have rest := @getAll_remove_self headers name
  simp only [getAll, List.map_eq_nil_iff] at rest
  simp [getAll, insert, List.filter_append, rest]

theorem getAll_insert_of_ne (different : other ≠ name) :
    (headers.insert name value).getAll other = headers.getAll other := by
  have rest := @getAll_remove_of_ne headers name other different
  simp only [getAll] at rest
  simp [getAll, insert, List.filter_append, rest, different.symm]

/-- Once removed a name stays removed. -/
theorem getAll_remove_nil (none : headers.getAll other = []) :
    (headers.remove name).getAll other = [] := by
  by_cases same : other = name
  · rw [same]
    exact getAll_remove_self
  · rw [getAll_remove_of_ne same]
    exact none

theorem getAll_removeAll_nil {names : List HeaderName} :
    ∀ {headers : HeaderMap}, headers.getAll other = [] →
      (headers.removeAll names).getAll other = [] := by
  induction names with
  | nil => exact id
  | cons name rest ih => exact fun none => ih (getAll_remove_nil none)

theorem getAll_removeAll_of_mem {names : List HeaderName} (member : name ∈ names) :
    ∀ {headers : HeaderMap}, (headers.removeAll names).getAll name = [] := by
  induction names with
  | nil => cases member
  | cons first rest ih =>
    intro headers
    by_cases later : name ∈ rest
    · exact ih later
    · obtain rfl : name = first := (List.mem_cons.1 member).resolve_right later
      rw [removeAll, List.foldl_cons]
      exact getAll_removeAll_nil getAll_remove_self

theorem getAll_removeAll_of_notMem {names : List HeaderName} (notMember : name ∉ names) :
    ∀ {headers : HeaderMap}, (headers.removeAll names).getAll name = headers.getAll name := by
  induction names with
  | nil => exact rfl
  | cons first rest ih =>
    intro headers
    obtain ⟨different, later⟩ := not_or.1 (mt List.mem_cons.2 notMember)
    rw [removeAll, List.foldl_cons]
    exact (ih later).trans (getAll_remove_of_ne different)

end HeaderMap

end Luhmen.Theory.Http
