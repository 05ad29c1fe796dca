/-
# Manager.ReplyTexts -- what the manager prints, as JSON

The script puts its replies together with `printf`.  `Envelope` is what a reply has to be, a
version and either data or an error, and `Answered` says that the first line of what was
printed is one.  `okText` and `errorText` are, for data that is JSON and for messages that
stand for themselves (`answered_okText`, `answered_errorText`).

The data are records (`Tells.data`) and capabilities (`data_capabilitiesText`): identities, names
and words of the script, and numbers.  A record is JSON as long as its numbers have no leading
zeros, and what is put into it is checked no further than that; `spoken` are the rules for that.
-/
import Luhmen.Theory.JsonCompact
import Luhmen.Manager.Lifetime
import Luhmen.Manager.Registration

set_option autoImplicit false

namespace Luhmen.Manager

open Luhmen.Theory
open Luhmen.Theory.Json (Writes WritesMember Unescaped arrayText objectText memberText quoted asString)

/-! ## Replies -/

/-- A whole reply: version 1, with data or with an error. -/
inductive Envelope {F : Type} : Json F → Prop where
  | ok {data : Json F} (given : data ≠ .null) :
      Envelope (.object [("version", .int 1), ("ok", .bool true), ("data", data)])
  | error (message : String) :
      Envelope (.object [("version", .int 1), ("ok", .bool false), ("error", .string message)])

/-- The first line is one. -/
def Answered (F : Type) (out : Bytes) : Prop :=
  ∃ head rest, ∃ v : Json F, out = head ++ newline :: rest ∧ head.length < 0x100000 ∧
    Writes Json.depthLimit v head ∧ Envelope v

/-- A text of this length at most for a value, which is not `null`. -/
def Data (F : Type) (levels limit : Nat) (text : Bytes) : Prop :=
  text.length ≤ limit ∧ ∃ v : Json F, v ≠ .null ∧ Writes levels v text

/-- The same for any value, as a field has it. -/
def Shown (F : Type) (limit : Nat) (text : Bytes) : Prop :=
  text.length ≤ limit ∧ ∀ levels, ∃ v : Json F, Writes levels v text

variable {F : Type} {levels limit : Nat} {text : Bytes}

theorem Answered.append (answered : Answered F text) (more : Bytes) : Answered F (text ++ more) := by
  obtain ⟨head, rest, v, rfl, short, writes, envelope⟩ := answered
  exact ⟨head, rest ++ more, v, by rw [List.append_assoc, List.cons_append], short, writes, envelope⟩

theorem Answered.newline (answered : Answered F text) : newline ∈ text := by
  obtain ⟨head, rest, _, rfl, _⟩ := answered
  exact List.mem_append_right _ List.mem_cons_self

theorem okText_object (data : Bytes) : okText data =
    objectText [memberText (ascii "version") (decimal 1), memberText (ascii "ok") (ascii "true"),
      memberText (ascii "data") data] ++ [newline] := by
  simp only [objectText, memberText, quoted, List.intercalate_cons_cons,
    List.intercalate_singleton, List.cons_append, List.append_assoc, okText]
  rfl

theorem errorText_object (message : String) : errorText message =
    objectText [memberText (ascii "version") (decimal 1), memberText (ascii "ok") (ascii "false"),
      memberText (ascii "error") (quoted (ascii message))] ++ [newline] := by
  simp only [objectText, memberText, quoted, List.intercalate_cons_cons,
    List.intercalate_singleton, List.cons_append, List.append_assoc, errorText]
  rfl

theorem length_memberText (name text : Bytes) :
    (memberText name text).length = name.length + text.length + 3 := by
  simp only [memberText, quoted, List.length_append, List.length_cons, List.length_nil]
  omega

theorem length_intercalate_le {texts : List Bytes} (short : ∀ text ∈ texts, text.length ≤ limit) :
    ([comma].intercalate texts).length ≤ texts.length * (limit + 1) := by
  induction texts with
  | nil => exact Nat.zero_le _
  | cons text rest ih =>
    have first := short text List.mem_cons_self
    have others := ih fun text member => short text (List.mem_cons_of_mem _ member)
    cases rest with
    | nil =>
      rw [List.intercalate_singleton, List.length_singleton]
      omega
    | cons second rest =>
      rw [List.intercalate_cons_cons, List.length_append, List.length_append, List.length_singleton,
        List.length_cons (a := text), Nat.succ_mul]
      omega

/-- What is there for every text is there for them all. -/
theorem exists_forall₂ {α : Type} {wrote : α → Bytes → Prop} {texts : List Bytes}
    (each : ∀ text ∈ texts, ∃ a, wrote a text) : ∃ items, List.Forall₂ wrote items texts := by
  induction texts with
  | nil => exact ⟨[], .nil⟩
  | cons text rest ih =>
    obtain ⟨item, first⟩ := each text List.mem_cons_self
    obtain ⟨items, others⟩ := ih fun text member => each text (List.mem_cons_of_mem _ member)
    exact ⟨item :: items, .cons first others⟩

theorem data_arrayText {texts : List Bytes} (all : ∀ text ∈ texts, Data F levels limit text) :
    Data F (levels + 1) (texts.length * (limit + 1) + 2) (arrayText texts) := by
  have length := length_intercalate_le fun text member => (all text member).1
  obtain ⟨items, written⟩ := exists_forall₂ fun text member =>
    (all text member).2.imp fun _ => And.right
  refine ⟨?_, .array items, nofun, Writes.array written⟩
  simp only [arrayText, List.length_cons, List.length_append, List.length_nil]
  omega

theorem Data.mono {bound : Nat} (data : Data F levels limit text) (le : limit ≤ bound) :
    Data F levels bound text :=
  ⟨data.1.trans le, data.2⟩

theorem Data.line (data : Data F levels limit text) :
    newline ∉ text := by
  obtain ⟨_, v, _, writes⟩ := data
  exact writes.line

/-- Texts of lists with commas between them. -/
theorem intercalate_append {front back : List Bytes} (some : front ≠ []) (some' : back ≠ []) :
    [comma].intercalate (front ++ back) =
      [comma].intercalate front ++ comma :: [comma].intercalate back := by
  induction front with
  | nil => exact absurd rfl some
  | cons text rest ih =>
    cases rest with
    | nil =>
      rw [List.singleton_append, List.intercalate_cons_of_ne_nil some', List.intercalate_singleton,
        List.append_assoc, List.singleton_append]
    | cons second rest =>
      rw [List.cons_append, List.cons_append, List.intercalate_cons_cons, ← List.cons_append,
        ih (List.cons_ne_nil _ _), List.intercalate_cons_cons]
      simp only [List.append_assoc]

/-- Members of an object, at least one. -/
def Parts (F : Type) (limit : Nat) (text : Bytes) : Prop :=
  text.length ≤ limit ∧ ∀ levels, ∃ (members : List (String × Json F)) (texts : List Bytes),
    List.Forall₂ (WritesMember levels) members texts ∧ texts ≠ [] ∧ text = [comma].intercalate texts

theorem Shown.parts (shown : Shown F limit text) (name : Bytes) (unescaped : Unescaped name) :
    Parts F (name.length + limit + 3) (memberText name text) := by
  refine ⟨?_, fun levels => ?_⟩
  · have length := shown.1
    rw [length_memberText]
    omega
  · obtain ⟨v, writes⟩ := shown.2 levels
    exact ⟨_, _, .cons (Json.writesMember unescaped writes) .nil, List.cons_ne_nil _ _,
      List.intercalate_singleton.symm⟩

theorem Parts.append {more : Nat} {back : Bytes} (first : Parts F limit text)
    (second : Parts F more back) : Parts F (limit + (1 + more)) (text ++ comma :: back) := by
  refine ⟨?_, fun levels => ?_⟩
  · have length := first.1
    have length' := second.1
    rw [List.length_append, List.length_cons]
    omega
  · obtain ⟨members, texts, written, some, rfl⟩ := first.2 levels
    obtain ⟨members', texts', written', some', rfl⟩ := second.2 levels
    exact ⟨members ++ members', texts ++ texts', List.rel_append written written',
      fun none => some (List.append_eq_nil_iff.1 none).1, (intercalate_append some some').symm⟩

theorem Parts.data (parts : Parts F limit text) :
    Data F (levels + 1) (limit + 2) (openBrace :: (text ++ [closeBrace])) := by
  obtain ⟨members, texts, written, _, rfl⟩ := parts.2 levels
  refine ⟨?_, .object members, nofun, Writes.object written⟩
  have length := parts.1
  rw [List.length_cons, List.length_append, List.length_singleton]
  omega

theorem writes_version : Writes levels (.int 1 : Json F) (decimal 1) :=
  Json.writes_decimal (by decide)

/-- A member under a name of ASCII. -/
theorem writesMember_ascii {name : String} {v : Json F} (same : asString (ascii name) = name)
    (unescaped : Unescaped (ascii name)) (writes : Writes levels v text) :
    WritesMember levels (name, v) (memberText (ascii name) text) :=
  ⟨ascii name, text, unescaped, same.symm, writes, rfl⟩

theorem length_okText (data : Bytes) : (okText data).length = data.length + 32 := by
  simp only [okText, List.length_append]
  show 30 + data.length + 2 = _
  omega

theorem length_errorText (message : String) :
    (errorText message).length = (ascii message).length + 36 := by
  simp only [errorText, List.length_append]
  show 33 + (ascii message).length + 3 = _
  omega

theorem answered_okText (data : Data F 126 1000000 text) : Answered F (okText text) := by
  obtain ⟨short, v, given, writes⟩ := data
  have members : List.Forall₂ (WritesMember 126)
      [("version", .int 1), ("ok", .bool true), ("data", v)]
      [memberText (ascii "version") (decimal 1), memberText (ascii "ok") (ascii "true"),
        memberText (ascii "data") text] :=
    .cons (writesMember_ascii (by decide) (by decide) writes_version) <|
      .cons (writesMember_ascii (by decide) (by decide) (Json.writes_bool true)) <|
        .cons (writesMember_ascii (by decide) (by decide) writes) .nil
  have length := length_okText text
  rw [okText_object, List.length_append, List.length_singleton] at length
  exact ⟨_, [], _, okText_object text, by omega, Writes.object members, .ok given⟩

theorem answered_errorText {message : String} (sayable : Sayable (ascii message)) :
    Answered F (errorText message) := by
  obtain ⟨short, unescaped⟩ := sayable
  have members : List.Forall₂ (WritesMember 126)
      [("version", .int 1), ("ok", .bool false), ("error", .string (asString (ascii message)))]
      [memberText (ascii "version") (decimal 1), memberText (ascii "ok") (ascii "false"),
        memberText (ascii "error") (quoted (ascii message))] :=
    .cons (writesMember_ascii (by decide) (by decide) (@writes_version F _)) <|
      .cons (writesMember_ascii (by decide) (by decide) (Json.writes_bool false)) <|
        .cons (writesMember_ascii (by decide) (by decide) (Json.writes_quoted unescaped)) .nil
  have length := length_errorText message
  rw [errorText_object, List.length_append, List.length_singleton] at length
  exact ⟨_, [], _, errorText_object message, by omega, Writes.object members, .error _⟩

/-! ## Fields -/

theorem shown_null : Shown F 20 (ascii "null") :=
  ⟨by decide, fun _ => ⟨_, Json.writes_null⟩⟩

theorem shown_bool (value : Bool) : Shown F 20 (boolText value) := by
  refine ⟨?_, fun _ => ⟨_, Json.writes_bool value⟩⟩
  cases value <;> decide

theorem length_decimal {n : Nat} (small : n < 0x8000000000000000) : (decimal n).length ≤ 19 := by
  rw [decimal, List.length_map, Nat.length_toDigits_le_iff (by decide) (by decide)]
  omega

theorem shown_decimal {n : Nat} (small : n < 0x8000000000000000) : Shown F 20 (decimal n) :=
  ⟨(length_decimal small).trans (by decide), fun _ => ⟨_, Json.writes_decimal (by omega)⟩⟩

theorem shown_integer {n : Int} (low : -0x8000000000000000 < n) (high : n < 0x8000000000000000) :
    Shown F 20 (integerText n) := by
  cases n with
  | ofNat n => exact shown_decimal (Int.ofNat_lt.1 high)
  | negSucc n =>
    have small : n + 1 < 0x8000000000000000 := by omega
    refine ⟨Nat.succ_le_succ (length_decimal small), fun _ => ⟨_, Json.writes_negative (by omega)⟩⟩

theorem shown_quoted (unescaped : Unescaped text) : Shown F (text.length + 2) (quoted text) := by
  refine ⟨?_, fun _ => ⟨_, Json.writes_quoted unescaped⟩⟩
  simp [quoted]

theorem Shown.mono {bound : Nat} (shown : Shown F limit text) (le : limit ≤ bound) :
    Shown F bound text :=
  ⟨shown.1.trans le, shown.2⟩

/-! ## Records -/

/-- The largest PID that Linux gives. -/
def PID_MAX_LIMIT : Nat := 0x400000

/-- Numbers that are accepted are written without leading zeros, and PIDs are Linux's. -/
def spoken : Rules where
  allowed settings := inRange settings.vcpus 1 16 = true →
    inRange settings.memoryMib 128 16384 = true → settings.Plain
  pids pid := pid ≤ PID_MAX_LIMIT
  careful := False

/-- What the record of a microVM tells can be shown. -/
structure Tells (id : Id) (content : Bytes) : Prop where
  named : validId id = true
  reads : ∀ key, stateValue key content = (Record.read content).value key
  valid : (Record.read content).Valid
  plain : (Record.read content).settings.Plain
  pids : ∀ vmm, (Record.read content).status = .running vmm → vmm.pid ≤ PID_MAX_LIMIT

theorem World.Good.tells {w : World} (good : w.Good spoken) {id : Id} {content : Bytes}
    (there : w.state id = some content) : Tells id content := by
  have record := World.store_record_of_state there
  have valid := good.sound.valid id _ record
  exact {
    named := good.sound.named id (good.sound.known id _ record)
    reads := good.value there
    valid
    plain := good.sound.allowed id _ record valid.vcpus.inRange valid.memoryMib.inRange
    pids := fun vmm status => good.sound.pids id _ vmm ⟨record, status⟩ }

theorem unescaped_id {id : Id} (valid : validId id = true) : Unescaped id := by
  have bytes : ∀ b : UInt8, idByte b = true →
      (0x20 ≤ b && b ≤ 0x7e && b != 0x22 && b != 0x5c) = true := by decide +kernel
  have all : id.all idByte = true := ((Bool.and_eq_true _ _).mp valid).2
  exact List.all_eq_true.2 fun b member => bytes b (List.all_eq_true.1 all b member)

theorem shown_orNull (number : text = [] ∨ ∃ n < 0x8000000000000000, text = decimal n) :
    Shown F 20 (orNull text) := by
  obtain rfl | ⟨n, small, rfl⟩ := number
  · exact shown_null
  · rw [orNull, if_neg decimal_ne_nil]
    exact shown_decimal small

theorem shown_number {low high : Nat} (numeral : Numeral text low high) (plain : ∃ n, text = decimal n)
    (small : high < 0x8000000000000000) : Shown F 20 text := by
  obtain ⟨n, rfl⟩ := plain
  have most := numeral.high
  rw [value_decimal] at most
  exact shown_decimal (Nat.lt_of_le_of_lt most small)

theorem vmText_parts (id status pid uid gid vcpus memoryMib : Bytes) :
    vmText id status pid uid gid vcpus memoryMib = openBrace ::
      ((memberText (ascii "id") (quoted id) ++ comma ::
        (memberText (ascii "status") (quoted status) ++ comma ::
        (memberText (ascii "pid") pid ++ comma :: (memberText (ascii "uid") uid ++ comma ::
        (memberText (ascii "gid") gid ++ comma :: (memberText (ascii "vcpus") vcpus ++ comma ::
          memberText (ascii "memory_mib") memoryMib)))))) ++ [closeBrace]) := by
  simp only [memberText, quoted, List.cons_append, List.append_assoc, vmText]
  rfl

theorem data_vmText {id status pid uid gid vcpus memoryMib : Bytes} (valid : validId id = true)
    (isStatus : Shown F 66 (quoted status)) (isPid : Shown F 20 pid) (isUid : Shown F 20 uid)
    (isGid : Shown F 20 gid) (isVcpus : Shown F 20 vcpus) (isMemory : Shown F 20 memoryMib) :
    Data F (levels + 1) 300 (vmText id status pid uid gid vcpus memoryMib) := by
  have short : id.length ≤ 64 := by
    have rest := ((Bool.and_eq_true _ _).mp valid).1
    exact of_decide_eq_true ((Bool.and_eq_true _ _).mp rest).2
  have isId : Shown F 66 (quoted id) := (shown_quoted (unescaped_id valid)).mono (by omega)
  have parts := (isId.parts (ascii "id") (by decide)).append <|
    (isStatus.parts (ascii "status") (by decide)).append <|
    (isPid.parts (ascii "pid") (by decide)).append <|
    (isUid.parts (ascii "uid") (by decide)).append <|
    (isGid.parts (ascii "gid") (by decide)).append <|
    (isVcpus.parts (ascii "vcpus") (by decide)).append <|
    isMemory.parts (ascii "memory_mib") (by decide)
  rw [vmText_parts]
  exact parts.data.mono (by decide)

/-- What `json_vm` prints of a record. -/
theorem Tells.data {id : Id} {content : Bytes} (tells : Tells id content) (running : Bool) :
    Data F (levels + 1) 300 (vmText id
      (if stateValue .status content = ascii "running" ∧ running = false then ascii "stale"
        else stateValue .status content)
      (orNull (stateValue .pid content)) (orNull (stateValue .uid content))
      (orNull (stateValue .gid content)) (stateValue .vcpus content)
      (stateValue .memoryMib content)) := by
  obtain ⟨named, reads, valid, plain, pids⟩ := tells
  simp only [reads, Record.value_vcpus, Record.value_memoryMib, Record.value_uid, Record.value_gid]
  generalize Record.read content = record at *
  have uid : Shown F 20 (orNull (decimal record.uid)) :=
    shown_orNull (.inr ⟨record.uid, Nat.lt_of_le_of_lt valid.uidHigh (by decide), rfl⟩)
  have status : Shown F 66 (quoted (record.value .status)) := by
    obtain ⟨_ | _ | _, _, _⟩ := record
    · exact (@shown_quoted F (ascii "created") (by decide)).mono (by decide)
    · exact (@shown_quoted F (ascii "running") (by decide)).mono (by decide)
    · exact (@shown_quoted F (ascii "stopped") (by decide)).mono (by decide)
  have pid : Shown F 20 (orNull (record.value .pid)) := by
    obtain ⟨_ | vmm | _, _, _⟩ := record
    · exact shown_null
    · exact shown_orNull (.inr ⟨vmm.pid, Nat.lt_of_le_of_lt (pids vmm rfl) (by decide), rfl⟩)
    · exact shown_null
  refine data_vmText named ?_ pid uid uid (shown_number valid.vcpus plain.1 (by decide))
    (shown_number valid.memoryMib plain.2 (by decide))
  split
  · exact (@shown_quoted F (ascii "stale") (by decide)).mono (by decide)
  · exact status

/-! ## Capabilities -/

theorem ascii_append (front back : String) : ascii (front ++ back) = ascii front ++ ascii back := by
  simp [ascii]

/-- What is wrong with a capability. -/
theorem shown_problem (works : Bool) {problem : String}
    (sayable : works = false → Sayable (ascii problem)) :
    Shown F 202 (if works then ascii "null" else quoted (ascii problem)) := by
  cases works with
  | true => exact shown_null.mono (by decide)
  | false =>
    obtain ⟨short, unescaped⟩ := sayable rfl
    exact (shown_quoted unescaped).mono (Nat.add_le_add_right short 2)

/-- What was found of the parent VM are machine numbers. -/
structure Capacity.Bounded (capacity : Capacity) : Prop where
  parentCpus : ∃ n < 0x100000000, capacity.parentCpus = decimal n
  parentMemoryMib : ∃ n < 0x100000000, capacity.parentMemoryMib = decimal n
  usedVcpus : capacity.usedVcpus < 0x100000000
  usedMemoryMib : capacity.usedMemoryMib < 0x100000000

theorem Capacity.Bounded.availableVcpus {capacity : Capacity} (bounded : capacity.Bounded) :
    Shown F 20 (integerText capacity.availableVcpus) := by
  obtain ⟨n, small, is⟩ := bounded.parentCpus
  have used := bounded.usedVcpus
  rw [Capacity.availableVcpus, is, value_decimal]
  exact shown_integer (by omega) (by omega)

theorem Capacity.Bounded.availableMemoryMib {capacity : Capacity} (bounded : capacity.Bounded) :
    Shown F 20 (integerText capacity.availableMemoryMib) := by
  obtain ⟨n, small, is⟩ := bounded.parentMemoryMib
  have used := bounded.usedMemoryMib
  rw [Capacity.availableMemoryMib, is, value_decimal, MEMORY_RESERVE_MIB]
  exact shown_integer (by omega) (by omega)

theorem shown_found {capacity : Option Capacity} {field : Capacity → Bytes}
    (shown : ∀ found, capacity = some found → Shown F 20 (field found)) :
    Shown F 20 ((capacity.map field).getD (ascii "null")) := by
  cases capacity with
  | none => exact shown_null
  | some found => exact shown found rfl

theorem capability_parts (name : String) (works : Bool) (problem : String) :
    capability name works problem = memberText (ascii name) (boolText works) ++
      comma :: memberText (ascii (name ++ "_error"))
        (if works then ascii "null" else quoted (ascii problem)) := by
  have marks : ascii "\"" = [quote] ∧ ascii "\":" = [quote, colon] ∧
      ascii ",\"" = [comma, quote] ∧ ascii "_error\":" = ascii "_error" ++ [quote, colon] := by
    decide
  obtain ⟨opens, closes, next, error⟩ := marks
  cases works <;>
    simp only [capability, ascii_append, opens, closes, next, error, memberText, quoted, boolText,
      Bool.false_eq_true, if_true, if_false, List.cons_append, List.nil_append, List.append_assoc]

theorem parts_capability (name : String) (works : Bool) (problem : String)
    (unescaped : Unescaped (ascii name) ∧ Unescaped (ascii (name ++ "_error")))
    (short : (ascii (name ++ "_error")).length ≤ 30)
    (sayable : works = false → Sayable (ascii problem)) :
    Parts F 300 (capability name works problem) := by
  have shorter : (ascii name).length + 6 = (ascii (name ++ "_error")).length := by
    rw [ascii_append, List.length_append]
    rfl
  have parts := ((@shown_bool F works).parts _ unescaped.1).append
    ((shown_problem works sayable).parts _ unescaped.2)
  rw [capability_parts]
  exact ⟨parts.1.trans (by omega), parts.2⟩

theorem resourcesText_parts (capacity : Option Capacity) :
    let found (field : Capacity → Bytes) : Bytes := (capacity.map field).getD (ascii "null")
    resourcesText capacity = memberText (ascii "parent_cpus") (found Capacity.parentCpus) ++ comma ::
      (memberText (ascii "parent_memory_mib") (found Capacity.parentMemoryMib) ++ comma ::
      (memberText (ascii "used_vcpus") (found (decimal ·.usedVcpus)) ++ comma ::
      (memberText (ascii "used_memory_mib") (found (decimal ·.usedMemoryMib)) ++ comma ::
      (memberText (ascii "available_vcpus") (found (integerText ·.availableVcpus)) ++ comma ::
        memberText (ascii "available_memory_mib") (found (integerText ·.availableMemoryMib)))))) := by
  simp only [resourcesText, memberText, quoted, List.cons_append, List.append_assoc]
  rfl

theorem parts_resourcesText {capacity : Option Capacity}
    (bounded : ∀ found, capacity = some found → found.Bounded) :
    Parts F 300 (resourcesText capacity) := by
  have found : ∀ (name : Bytes) {field : Capacity → Bytes}, Unescaped name →
      (∀ found : Capacity, found.Bounded → Shown F 20 (field found)) →
      Parts F (name.length + 20 + 3) (memberText name ((capacity.map field).getD (ascii "null"))) :=
    fun name _ unescaped shown =>
      (shown_found fun found is => shown found (bounded found is)).parts name unescaped
  have decimals : ∀ n : Nat, n < 0x100000000 → Shown F 20 (decimal n) :=
    fun n small => shown_decimal (by omega)
  have parts := (found (ascii "parent_cpus") (by decide) fun capacity bounded => by
      obtain ⟨n, small, is⟩ := bounded.parentCpus
      exact is ▸ decimals n small).append <|
    (found (ascii "parent_memory_mib") (by decide) fun capacity bounded => by
      obtain ⟨n, small, is⟩ := bounded.parentMemoryMib
      exact is ▸ decimals n small).append <|
    (found (ascii "used_vcpus") (by decide) fun _ bounded =>
      decimals _ bounded.usedVcpus).append <|
    (found (ascii "used_memory_mib") (by decide) fun _ bounded =>
      decimals _ bounded.usedMemoryMib).append <|
    (found (ascii "available_vcpus") (by decide) fun _ bounded =>
      bounded.availableVcpus).append <|
    found (ascii "available_memory_mib") (by decide) fun _ bounded =>
      bounded.availableMemoryMib
  rw [resourcesText_parts]
  exact ⟨parts.1.trans (by decide), parts.2⟩

theorem capabilitiesText_parts (ready kvm tun cgroupV2 : Bool) (delegated : Option String)
    (firecracker jailer : Bool) (capacity : Option Capacity) (resourcesReady : Bool) :
    capabilitiesText ready kvm tun cgroupV2 delegated firecracker jailer capacity resourcesReady =
      openBrace ::
      ((memberText (ascii "ready") (boolText ready) ++ comma ::
        (capability "kvm" kvm "/dev/kvm is missing or not readable and writable" ++ comma ::
        (capability "tun" tun "/dev/net/tun is unavailable" ++ comma ::
        (capability "cgroup_v2" cgroupV2 "cgroup v2 is unavailable" ++ comma ::
        (capability "delegated_cgroup" delegated.isNone (delegated.getD "") ++ comma ::
        (capability "firecracker" firecracker "Firecracker binary is unavailable" ++ comma ::
        (capability "jailer" jailer "Firecracker jailer is unavailable" ++ comma ::
        (resourcesText capacity ++ comma ::
        (memberText (ascii "resources_ready") (boolText resourcesReady) ++ comma ::
        (memberText (ascii "networking") (boolText false) ++ comma ::
          memberText (ascii "guest_agent") (boolText false)))))))))))  ++ [closeBrace]) := by
  simp only [capabilitiesText, memberText, quoted, List.cons_append, List.append_assoc]
  rfl

theorem data_capabilitiesText {ready kvm tun cgroupV2 : Bool} {delegated : Option String}
    {firecracker jailer : Bool} {capacity : Option Capacity} {resourcesReady : Bool}
    (sayable : ∀ problem, delegated = some problem → Sayable (ascii problem))
    (bounded : ∀ found, capacity = some found → found.Bounded) :
    Data F (levels + 1) 3000
      (capabilitiesText ready kvm tun cgroupV2 delegated firecracker jailer capacity
        resourcesReady) := by
  have undelegated : delegated.isNone = false → Sayable (ascii (delegated.getD "")) := by
    intro isSome
    obtain ⟨problem, rfl⟩ := Option.isSome_iff_exists.1 (Option.isNone_eq_false_iff.1 isSome)
    exact sayable problem rfl
  have word : ∀ (name : Bytes) (value : Bool), Unescaped name →
      Parts F (name.length + 20 + 3) (memberText name (boolText value)) :=
    fun name value => (shown_bool value).parts name
  have parts := (word (ascii "ready") ready (by decide)).append <|
    (parts_capability "kvm" kvm "/dev/kvm is missing or not readable and writable"
      (by decide) (by decide) fun _ => by decide).append <|
    (parts_capability "tun" tun "/dev/net/tun is unavailable"
      (by decide) (by decide) fun _ => by decide).append <|
    (parts_capability "cgroup_v2" cgroupV2 "cgroup v2 is unavailable"
      (by decide) (by decide) fun _ => by decide).append <|
    (parts_capability "delegated_cgroup" delegated.isNone _ (by decide) (by decide) undelegated).append <|
    (parts_capability "firecracker" firecracker "Firecracker binary is unavailable"
      (by decide) (by decide) fun _ => by decide).append <|
    (parts_capability "jailer" jailer "Firecracker jailer is unavailable"
      (by decide) (by decide) fun _ => by decide).append <|
    (parts_resourcesText bounded).append <|
    (word (ascii "resources_ready") resourcesReady (by decide)).append <|
    (word (ascii "networking") false (by decide)).append <|
    word (ascii "guest_agent") false (by decide)
  rw [capabilitiesText_parts]
  exact parts.data.mono (by decide)

end Luhmen.Manager
