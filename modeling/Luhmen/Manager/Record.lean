/-
# Manager.Record -- the record of a microVM, as text

The manager keeps one file `state` for each microVM, a line `key=value` for each
field.  `render` is what `printf '%s\n'` writes of such lines and `stateValue` what
`state_value` reads back: the first line with the key.

`Record` is what the manager means by such a file and `Record.fields` what it
writes for it.  `stateValue_text` reads each field back, whatever the values are,
as long as none of them holds a line break, and `read_text` the whole record.
-/
import Mathlib.Data.List.Basic
import Mathlib.Tactic.Common
import Luhmen.Theory.Decimal

set_option autoImplicit false

namespace Luhmen.Manager

open Luhmen.Theory

/-! ## Lines -/

def newline : UInt8 := 0x0a

inductive Key where
  | status
  | pid
  | startTime
  | socket
  | jail
  | cgroup
  | kernel
  | rootfs
  | vcpus
  | memoryMib
  | uid
  | gid
deriving DecidableEq, Repr

def Key.text : Key → Bytes
  | .status => ascii "status"
  | .pid => ascii "pid"
  | .startTime => ascii "start_time"
  | .socket => ascii "socket"
  | .jail => ascii "jail"
  | .cgroup => ascii "cgroup"
  | .kernel => ascii "kernel"
  | .rootfs => ascii "rootfs"
  | .vcpus => ascii "vcpus"
  | .memoryMib => ascii "memory_mib"
  | .uid => ascii "uid"
  | .gid => ascii "gid"

/-- `"key=$value"`. -/
def line (field : Key × Bytes) : Bytes :=
  field.1.text ++ 0x3d :: field.2

/-- `printf '%s\n' "$@"`. -/
def render (fields : List (Key × Bytes)) : Bytes :=
  fields.flatMap fun field => line field ++ [newline]

/-- `sed -n "s/^$1=//p" "$2" | head -n 1`. -/
def stateValue (key : Key) (content : Bytes) : Bytes :=
  (((content.splitOn newline).filterMap (List.isPrefixOf? (key.text ++ [0x3d]))).head?).getD []

/-- A value that stays on its line. -/
def Line (text : Bytes) : Prop :=
  newline ∉ text

theorem line_text (key : Key) : Line key.text := by
  unfold Line
  cases key <;> decide

theorem line_line {field : Key × Bytes} (clean : Line field.2) : newline ∉ line field := by
  rw [line, List.mem_append, List.mem_cons]
  rintro (inKey | equals | inValue)
  · exact line_text field.1 inKey
  · exact absurd equals (by decide)
  · exact clean inValue

theorem splitOn_render {fields : List (Key × Bytes)} (clean : ∀ field ∈ fields, Line field.2) :
    (render fields).splitOn newline = fields.map line ++ [[]] := by
  induction fields with
  | nil => rfl
  | cons field rest ih =>
    have this := line_line (clean field List.mem_cons_self)
    have others := ih fun field member => clean field (List.mem_cons_of_mem _ member)
    show (line field ++ [newline] ++ render rest).splitOn newline = _
    rw [List.append_assoc, List.singleton_append, List.splitOn_append_cons_self_of_not_mem this,
      others]
    rfl

theorem isPrefixOf?_line (key : Key) (field : Key × Bytes) :
    List.isPrefixOf? (key.text ++ [0x3d]) (line field) = if key = field.1 then some field.2 else none := by
  obtain ⟨other, text⟩ := field
  cases key <;> cases other <;> rfl

/-- What is read of a record is the first field with the key. -/
theorem stateValue_render {key : Key} {fields : List (Key × Bytes)}
    (clean : ∀ field ∈ fields, Line field.2) :
    stateValue key (render fields) = (fields.lookup key).getD [] := by
  rw [stateValue, splitOn_render clean, List.filterMap_append]
  have last : ([[]] : List Bytes).filterMap (List.isPrefixOf? (key.text ++ [0x3d])) = [] := by
    cases key <;> rfl
  rw [last, List.append_nil]
  congr 1
  induction fields with
  | nil => rfl
  | cons field rest ih =>
    have others := ih fun field member => clean field (List.mem_cons_of_mem _ member)
    obtain ⟨other, text⟩ := field
    rw [List.map_cons, List.filterMap_cons, isPrefixOf?_line]
    by_cases same : key = other
    · rw [if_pos same, same, List.lookup_cons_self]
      rfl
    · rw [if_neg same, List.lookup_cons, beq_false_of_ne same]
      exact others

/-! ## Records -/

/-- What a microVM was created with. -/
structure Settings where
  kernel : Bytes
  rootfs : Bytes
  vcpus : Bytes
  memoryMib : Bytes
deriving DecidableEq, Repr

/-- What a start records of its VMM. -/
structure Running where
  pid : Nat
  startTime : Nat
  socket : Bytes
  jail : Bytes
  cgroup : Bytes
deriving DecidableEq, Repr

inductive Status where
  | created
  | running (vmm : Running)
  | stopped
deriving DecidableEq, Repr

structure Record where
  status : Status
  settings : Settings
  uid : Nat
deriving DecidableEq, Repr

def Status.fields : Status → List (Key × Bytes)
  | .created => [(.status, ascii "created")]
  | .running vmm =>
    [(.status, ascii "running"), (.pid, decimal vmm.pid), (.startTime, decimal vmm.startTime),
      (.socket, vmm.socket), (.jail, vmm.jail), (.cgroup, vmm.cgroup)]
  | .stopped => [(.status, ascii "stopped")]

def Record.fields (record : Record) : List (Key × Bytes) :=
  record.status.fields ++
    [(.kernel, record.settings.kernel), (.rootfs, record.settings.rootfs),
      (.vcpus, record.settings.vcpus), (.memoryMib, record.settings.memoryMib),
      (.uid, decimal record.uid), (.gid, decimal record.uid)]

def Record.text (record : Record) : Bytes :=
  render record.fields

structure Settings.Clean (settings : Settings) : Prop where
  kernel : Line settings.kernel
  rootfs : Line settings.rootfs
  vcpus : Line settings.vcpus
  memoryMib : Line settings.memoryMib

/-- Nothing in the record breaks its line. -/
structure Record.Clean (record : Record) : Prop where
  settings : record.settings.Clean
  vmm : ∀ vmm, record.status = .running vmm → Line vmm.socket ∧ Line vmm.jail ∧ Line vmm.cgroup

/-- The value of a field, nothing where the record has none. -/
def Record.value (record : Record) (key : Key) : Bytes :=
  (record.fields.lookup key).getD []

theorem line_decimal (n : Nat) : Line (decimal n) := by
  intro member
  exact absurd (decimal_digit _ member).1 (by decide)

theorem Record.Clean.fields {record : Record} (clean : record.Clean) :
    ∀ field ∈ record.fields, Line field.2 := by
  obtain ⟨status, settings, uid⟩ := record
  obtain ⟨⟨kernel, rootfs, vcpus, memoryMib⟩, vmm⟩ := clean
  have shared : ∀ field ∈ [(Key.kernel, settings.kernel), (.rootfs, settings.rootfs),
      (.vcpus, settings.vcpus), (.memoryMib, settings.memoryMib), (.uid, decimal uid),
      (.gid, decimal uid)], Line field.2 := by
    simp only [List.forall_mem_cons, List.not_mem_nil, false_implies, implies_true, and_true]
    exact ⟨kernel, rootfs, vcpus, memoryMib, line_decimal uid, line_decimal uid⟩
  rintro field member
  obtain own | rest := List.mem_append.1 member
  · cases status with
    | created =>
      obtain rfl := List.mem_singleton.1 own
      unfold Line
      decide
    | stopped =>
      obtain rfl := List.mem_singleton.1 own
      unfold Line
      decide
    | running vmm' =>
      obtain ⟨socket, jail, cgroup⟩ := vmm vmm' rfl
      have all : ∀ field ∈ Status.fields (.running vmm'), Line field.2 := by
        simp only [Status.fields, List.forall_mem_cons, List.not_mem_nil, false_implies,
          implies_true, and_true]
        exact ⟨by unfold Line; decide, line_decimal _, line_decimal _, socket, jail, cgroup⟩
      exact all field own
  · exact shared field rest

theorem stateValue_text {record : Record} (clean : record.Clean) (key : Key) :
    stateValue key record.text = record.value key :=
  stateValue_render clean.fields

section Values

variable (record : Record)

@[simp] theorem Record.value_kernel : record.value .kernel = record.settings.kernel := by
  obtain ⟨status, settings, uid⟩ := record
  cases status <;> rfl

@[simp] theorem Record.value_rootfs : record.value .rootfs = record.settings.rootfs := by
  obtain ⟨status, settings, uid⟩ := record
  cases status <;> rfl

@[simp] theorem Record.value_vcpus : record.value .vcpus = record.settings.vcpus := by
  obtain ⟨status, settings, uid⟩ := record
  cases status <;> rfl

@[simp] theorem Record.value_memoryMib : record.value .memoryMib = record.settings.memoryMib := by
  obtain ⟨status, settings, uid⟩ := record
  cases status <;> rfl

@[simp] theorem Record.value_uid : record.value .uid = decimal record.uid := by
  obtain ⟨status, settings, uid⟩ := record
  cases status <;> rfl

@[simp] theorem Record.value_gid : record.value .gid = decimal record.uid := by
  obtain ⟨status, settings, uid⟩ := record
  cases status <;> rfl

end Values

/-! ## Records that are read back -/

/-- What a file that holds a record says. -/
def Record.read (content : Bytes) : Record where
  status :=
    if stateValue .status content = ascii "created" then .created
    else if stateValue .status content = ascii "running" then
      .running ⟨Theory.value (stateValue .pid content),
        Theory.value (stateValue .startTime content), stateValue .socket content,
        stateValue .jail content, stateValue .cgroup content⟩
    else .stopped
  settings := ⟨stateValue .kernel content, stateValue .rootfs content, stateValue .vcpus content,
    stateValue .memoryMib content⟩
  uid := Theory.value (stateValue .uid content)

theorem Record.read_text {record : Record} (clean : record.Clean) :
    Record.read record.text = record := by
  unfold Record.read
  simp only [stateValue_text clean, Record.value_kernel, Record.value_rootfs, Record.value_vcpus,
    Record.value_memoryMib, Record.value_uid, value_decimal]
  obtain ⟨status, settings, uid⟩ := record
  cases status with
  | created => rfl
  | stopped => rfl
  | running vmm =>
    have pid : Theory.value (Record.value ⟨.running vmm, settings, uid⟩ .pid) = vmm.pid :=
      value_decimal vmm.pid
    have startTime : Theory.value (Record.value ⟨.running vmm, settings, uid⟩ .startTime) = vmm.startTime :=
      value_decimal vmm.startTime
    rw [pid, startTime]
    rfl

end Luhmen.Manager
