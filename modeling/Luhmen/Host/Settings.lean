/-
# Host.Settings -- `config.json`, and the templates written for it

`Config.toJson` and `fromJson` are what `serde` derives for `Config` in `src/config.rs`, and
`settingsFormat` its bytes.  What `create` saves every later command reads back
(`settings_return`), so the settings an invocation compares are the ones that were given.

`valueFormat` is the same for the templates of `src/vm_template.rs`, which are read as
values.  Take two versions that differ in their scripts alone.  A template of the one reads
back in the other, and differs from what that renders in the provisioning alone, so `update`
takes a VM that the one created to what the other creates (`update_after_create`).  All else
that a version has of its own, such as the image, stays in a VM as it was created.
-/
import Luhmen.Theory.JsonRecord
import Luhmen.Theory.JsonRoundTrip
import Luhmen.Host.Creation
import Luhmen.Host.UpdateRecovery

namespace Luhmen.Host

open Luhmen.Theory

set_option autoImplicit false

variable {F : Type} (float : List Char → Option F) (shown : F → List Char)

/-! ## `config.json` -/

def Mount.toJson (mount : Mount) : Json F :=
  .object [("path", .string mount.path), ("writable", .bool mount.writable)]

def Mount.fromJson (v : Json F) : Option Mount := do
  let found ← Json.fields ["path", "writable"] true v
  let path ← Json.field "path" Json.asText found
  let writable ← Json.field "writable" Json.asBool found
  some ⟨path, writable⟩

/-- The numbers fit their types. -/
structure Config.Fits (config : Config) : Prop where
  schemaVersion : config.schemaVersion < 0x100000000
  cpus : config.cpus < 0x10000
  memoryGib : config.memoryGib < 0x10000
  diskGib : config.diskGib < 0x10000

def Config.members (config : Config) : List (String × Json F) :=
  [("schema_version", .int config.schemaVersion), ("cpus", .int config.cpus),
    ("memory_gib", .int config.memoryGib), ("disk_gib", .int config.diskGib),
    ("mounts", .array (config.mounts.map Mount.toJson))] ++
  if config.nestedVirtualization then [("nested_virtualization", .bool true)] else []

def Config.toJson (config : Config) : Json F :=
  .object config.members

def Config.fromJson (v : Json F) : Option Config := do
  let found ← Json.fields ["schema_version", "cpus", "memory_gib", "disk_gib", "mounts",
    "nested_virtualization"] true v
  let schemaVersion ← Json.field "schema_version" (Json.asNat 0x100000000) found
  let cpus ← Json.field "cpus" (Json.asNat 0x10000) found
  let memoryGib ← Json.field "memory_gib" (Json.asNat 0x10000) found
  let diskGib ← Json.field "disk_gib" (Json.asNat 0x10000) found
  let mounts ← Json.field "mounts" (Json.asList Mount.fromJson) found
  let nestedVirtualization ← Json.fieldOr "nested_virtualization" false Json.asBool found
  some ⟨schemaVersion, cpus, memoryGib, diskGib, mounts, nestedVirtualization⟩

/-- `serde_json` on `Config`. -/
def settingsFormat : ConfigSerde where
  fromSlice := fun bytes => (Json.readBytes float bytes).bind Config.fromJson
  toVecPretty := fun config => Json.pretty shown config.toJson

theorem Mount.fromJson_toJson (mount : Mount) :
    Mount.fromJson (mount.toJson : Json F) = some mount := by
  rw [fromJson, toJson, Json.fields_object (by simp) (by simp)]
  rfl

theorem Config.fromJson_toJson {config : Config} (fits : config.Fits) :
    Config.fromJson (config.toJson : Json F) = some config := by
  obtain ⟨found, is⟩ : ∃ found : List (String × Json F), found = config.members := ⟨_, rfl⟩
  have version : Json.field "schema_version" (Json.asNat 0x100000000) found =
      some config.schemaVersion :=
    Json.field_of_find (by simp [is, members, Json.find]) (Json.asNat_int fits.schemaVersion)
  have cpus : Json.field "cpus" (Json.asNat 0x10000) found = some config.cpus :=
    Json.field_of_find (by simp [is, members, Json.find]) (Json.asNat_int fits.cpus)
  have memory : Json.field "memory_gib" (Json.asNat 0x10000) found = some config.memoryGib :=
    Json.field_of_find (by simp [is, members, Json.find]) (Json.asNat_int fits.memoryGib)
  have disk : Json.field "disk_gib" (Json.asNat 0x10000) found = some config.diskGib :=
    Json.field_of_find (by simp [is, members, Json.find]) (Json.asNat_int fits.diskGib)
  have mounts : Json.field "mounts" (Json.asList Mount.fromJson) found = some config.mounts :=
    Json.field_of_find (by simp [is, members, Json.find])
      (Json.asList_map fun mount _ => mount.fromJson_toJson)
  have nested : Json.fieldOr "nested_virtualization" false Json.asBool found =
      some config.nestedVirtualization := by
    cases flag : config.nestedVirtualization <;>
      simp [Json.fieldOr, is, members, Json.find, Json.asBool, flag]
  rw [fromJson, toJson, Json.fields_object (by simp only [members]; split <;> simp)
    (by simp only [members]; split <;> simp), ← is]
  simp only [version, cpus, memory, disk, mounts, nested, Option.bind_eq_bind, Option.bind_some]

theorem Config.fits_of_fromJson {v : Json F} {config : Config} (reads : fromJson v = some config) :
    config.Fits := by
  simp only [fromJson, Option.bind_eq_bind] at reads
  obtain ⟨found, _, reads⟩ := Option.bind_eq_some_iff.1 reads
  obtain ⟨schemaVersion, version, reads⟩ := Option.bind_eq_some_iff.1 reads
  obtain ⟨cpus, processors, reads⟩ := Option.bind_eq_some_iff.1 reads
  obtain ⟨memoryGib, memory, reads⟩ := Option.bind_eq_some_iff.1 reads
  obtain ⟨diskGib, disk, reads⟩ := Option.bind_eq_some_iff.1 reads
  obtain ⟨mounts, _, reads⟩ := Option.bind_eq_some_iff.1 reads
  obtain ⟨nested, _, reads⟩ := Option.bind_eq_some_iff.1 reads
  obtain rfl := Option.some.inj reads
  have below : ∀ {name : String} {bound n : Nat},
      Json.field name (Json.asNat bound) found = some n → n < bound := by
    intro name bound n reads
    obtain ⟨v, _, number⟩ := Option.bind_eq_some_iff.1 reads
    exact Json.asNat_lt number
  exact ⟨below version, below processors, below memory, below disk⟩

theorem Config.plain {config : Config} (fits : config.Fits) :
    (config.toJson : Json F).Plain Json.depthLimit := by
  have whole : ∀ n : Nat, n < 0x100000000 → Json.Whole n := fun n small => ⟨by omega, by omega⟩
  have ⟨version, cpus, memory, disk⟩ := fits
  have mounts : (Json.array (config.mounts.map Mount.toJson) : Json F).Plain 126 := by
    apply Json.within_array
    intro v member
    obtain ⟨mount, _, rfl⟩ := List.mem_map.1 member
    simp [Mount.toJson, Json.Within, Json.MembersWithin]
  rw [toJson, members, Json.Plain, Json.depthLimit, Json.Within, Json.membersWithin_iff]
  intro m member
  rcases List.mem_append.1 member with first | last
  · simp only [List.mem_cons, List.not_mem_nil, or_false] at first
    rcases first with rfl | rfl | rfl | rfl | rfl
    · exact whole _ version
    · exact whole _ (by omega)
    · exact whole _ (by omega)
    · exact whole _ (by omega)
    · exact mounts
  · split at last
    · obtain rfl := List.mem_singleton.1 last
      simp only [Json.Within]
    · cases last

/-- What is written reads back. -/
theorem settingsFormat_reads {config : Config} (fits : config.Fits) :
    (settingsFormat float shown).fromSlice ((settingsFormat float shown).toVecPretty config) =
      some config := by
  show (Json.readBytes float (Json.pretty shown config.toJson)).bind Config.fromJson = _
  rw [Json.readBytes_pretty float shown (Config.plain fits), Option.bind_some,
    Config.fromJson_toJson fits]

theorem Config.fits_of_valid {config : Config} (valid : config.validateSchema = .ok ()) :
    config.Fits := by
  unfold validateSchema at valid
  split at valid
  · cases valid
  split at valid
  · cases valid
  split at valid
  · cases valid
  split at valid
  · cases valid
  · exact ⟨by omega, by omega, by omega, by omega⟩

/-- **Settings return.**  The settings `create` may save are read from the bytes it saves, and
whatever settings are read from a file, written again they are the same. -/
theorem settings_return :
    (∀ config : Config, config.validateSchema = .ok () →
      (settingsFormat float shown).fromSlice ((settingsFormat float shown).toVecPretty config) =
        some config) ∧
    ∀ (bytes : Bytes) (config : Config), (settingsFormat float shown).fromSlice bytes = some config →
      (settingsFormat float shown).fromSlice ((settingsFormat float shown).toVecPretty config) =
        some config := by
  refine ⟨fun config valid => settingsFormat_reads float shown (Config.fits_of_valid valid), ?_⟩
  intro bytes config reads
  obtain ⟨v, _, decoded⟩ := Option.bind_eq_some_iff.1 reads
  exact settingsFormat_reads float shown (Config.fits_of_fromJson decoded)

/-! ## Templates -/

/-- `serde_json` on values. -/
def valueFormat : Serde F where
  fromSlice := Json.valueOf float
  toVecPretty := Json.pretty shown

theorem valueFormat_reads {v : Json F} (kept : v.Kept Json.depthLimit) :
    (valueFormat float shown).fromSlice ((valueFormat float shown).toVecPretty v) = some v :=
  Json.valueOf_pretty float shown kept.1 kept.2

theorem valueFormat_text (v : Json F) :
    (valueFormat float shown).toVecPretty v = Json.pretty shown v := rfl

namespace VmTemplate

variable {levels : Nat}

theorem kept_entry {members : List (String × Json F)} (kept : ∀ m ∈ members, m.2.Kept levels) :
    (entry members).Kept (levels + 1) :=
  Json.kept_ofMembers kept

theorem kept_dataFile (path content owner permissions : String) :
    (dataFile path content owner permissions : Json F).Kept (levels + 1) :=
  kept_entry (by simp [Json.kept_string])

theorem kept_script (mode text : String) : (script mode text : Json F).Kept (levels + 1) :=
  kept_entry (by simp [Json.kept_string])

theorem kept_mount (m : Mount) : (mount m : Json F).Kept (levels + 1) :=
  kept_entry (by simp [Json.kept_string, Json.kept_bool])

theorem kept_image (url : String) : (image url : Json F).Kept (levels + 1) :=
  kept_entry (by simp [Json.kept_string])

theorem kept_provision (scripts : Scripts) (config : Config) :
    (Json.array (provision scripts config) : Json F).Kept (levels + 2) := by
  refine Json.kept_array fun v member => ?_
  rcases List.mem_append.1 member with always | nested
  · simp only [List.mem_cons, List.not_mem_nil, or_false] at always
    rcases always with rfl | rfl | rfl | rfl | rfl | rfl | rfl | rfl
    · exact kept_script _ _
    · exact kept_entry (by simp [Json.kept_string, Json.kept_bool])
    · exact kept_dataFile _ _ _ _
    · exact kept_dataFile _ _ _ _
    · exact kept_dataFile _ _ _ _
    · exact kept_dataFile _ _ _ _
    · exact kept_dataFile _ _ _ _
    · exact kept_script _ _
  · split at nested
    · simp only [List.mem_cons, List.not_mem_nil, or_false] at nested
      rcases nested with rfl | rfl | rfl | rfl
      · exact kept_dataFile _ _ _ _
      · exact kept_dataFile _ _ _ _
      · exact kept_dataFile _ _ _ _
      · exact kept_script _ _
    · cases nested

theorem kept_portForwards (config : Config) :
    (Json.array (portForwards config) : Json F).Kept (levels + 3) := by
  have ports : (Json.array [.int 1, .int 65535] : Json F).Kept (levels + 1) :=
    Json.kept_array (by
      simp [Json.kept_int (F := F) (n := 1) (by decide), Json.kept_int (F := F) (n := 65535) (by decide)])
  refine Json.kept_array fun v member => ?_
  rcases List.mem_append.1 member with always | nested
  · simp only [List.mem_cons, List.not_mem_nil, or_false] at always
    rcases always with rfl | rfl
    · exact kept_entry (by simp [Json.kept_string])
    · exact kept_entry (by simp [Json.kept_string, ports])
  · split at nested
    · obtain rfl := List.mem_singleton.1 nested
      exact kept_entry (by simp [Json.kept_string])
    · cases nested

/-- A rendered template stays what it is. -/
theorem kept_document (scripts : Scripts) {config : Config} (fits : config.Fits) :
    (document scripts config : Json F).Kept Json.depthLimit := by
  have cpus : (Json.int config.cpus : Json F).Kept 126 := by
    have small := fits.cpus
    exact Json.kept_int ⟨by omega, by omega⟩
  have mounts : (Json.array (config.mounts.map mount) : Json F).Kept 126 := by
    refine Json.kept_array fun v member => ?_
    obtain ⟨m, _, rfl⟩ := List.mem_map.1 member
    exact kept_mount m
  have images : (Json.array [image imageUrl, image imageMirrorUrl] : Json F).Kept 126 :=
    Json.kept_array (by simp [kept_image])
  have probes : (Json.array [probe] : Json F).Kept 126 := by
    refine Json.kept_array fun v member => ?_
    obtain rfl := List.mem_singleton.1 member
    exact kept_entry (by simp [Json.kept_string])
  have rosetta : (entry [("vz", entry [("rosetta", entry [("enabled", .bool false),
      ("binfmt", .bool false)])])] : Json F).Kept 126 :=
    kept_entry (by simp [kept_entry, Json.kept_bool])
  have resolver : (entry [("enabled", .bool true), ("ipv6", .bool false),
      ("hosts", entry [("host.docker.internal", .string "host.lima.internal"),
        ("gateway.docker.internal", .string "host.lima.internal")])] : Json F).Kept 126 :=
    kept_entry (by simp [kept_entry, Json.kept_bool, Json.kept_string])
  refine @Json.kept_ofMembers F 126 (members scripts config) ?_
  simp only [members, List.forall_mem_cons, List.not_mem_nil, false_imp_iff, implies_true, and_true]
  refine ⟨?_, ?_, ?_, ?_, ?_, ?_, ?_, ?_, ?_, ?_, ?_, ?_, ?_, ?_, ?_, ?_, ?_, ?_, ?_, ?_, ?_⟩
  · exact Json.kept_string _
  · exact Json.kept_string _
  · exact Json.kept_string _
  · exact Json.kept_string _
  · exact Json.kept_bool _
  · exact images
  · exact cpus
  · exact Json.kept_string _
  · exact Json.kept_string _
  · exact Json.kept_string _
  · exact Json.kept_bool _
  · exact mounts
  · exact kept_entry (by simp [Json.kept_bool])
  · exact Json.kept_bool _
  · exact kept_entry (by simp [Json.kept_bool])
  · exact rosetta
  · exact resolver
  · exact Json.kept_bool _
  · exact kept_portForwards config
  · exact kept_provision scripts config
  · exact probes

theorem get_document (scripts : Scripts) (config : Config) (name : String) :
    (document scripts config : Json F).get name =
      (Json.find name (members scripts config).reverse).getD .null :=
  Json.get_ofMembers _ name

/-- All scripts of a template are in its provisioning. -/
theorem renewed_document (created scripts : Scripts) (config : Config) :
    Update.renewed scripts config (document created config : Json F) = document scripts config := by
  rw [Update.renewed, Update.candidate, document_provision, document, Json.set_ofMembers, document]
  obtain ⟨front, all⟩ : ∃ front, ∀ scripts, (members scripts config : List (String × Json F)) =
      front ++ [("provision", .array (provision scripts config)), ("probes", .array [probe])] :=
    ⟨(members created config).take 19, fun _ => rfl⟩
  refine Json.ofMembers_ext fun name => ?_
  simp only [all, List.reverse_append, List.reverse_cons, List.reverse_nil, List.nil_append,
    List.cons_append, Json.find]
  by_cases provisioning : "provision" = name
  · subst provisioning
    simp
  · simp [provisioning]

/-- What the checks of an update compare does not depend on the scripts. -/
theorem get_document_other (created scripts : Scripts) (config : Config) {name : String}
    (other : name ≠ "provision") :
    (document created config : Json F).get name = (document scripts config).get name := by
  rw [← renewed_document created scripts config, Update.renewed, Update.candidate,
    Json.get_set (by rfl), if_neg other.symm]

end VmTemplate

namespace Update

variable {float shown}

/-- The text a VM has in both places once it is created. -/
def createdText (shown : F → List Char) (created : Scripts) (config : Config) : Contents :=
  fun _ => Json.pretty shown (VmTemplate.document created config)

theorem valueFormat_document (scripts : Scripts) {config : Config} (fits : config.Fits) :
    (valueFormat float shown).fromSlice
        ((valueFormat float shown).toVecPretty (VmTemplate.document scripts config)) =
      some (VmTemplate.document scripts config) :=
  valueFormat_reads float shown (VmTemplate.kept_document scripts fits)

/-- A template that was saved with some scripts is one that others update. -/
theorem saved_document (created scripts : Scripts) {config : Config} (fits : config.Fits)
    (short : (Json.pretty shown (VmTemplate.document created config)).length ≤ templateLimit) :
    Saved (valueFormat float shown) scripts config (VmTemplate.document created config)
      (createdText shown created config) where
  reads := by
    intro t
    have shape : (VmTemplate.document created config : Json F).isObject = true ∧
        ((VmTemplate.document created config : Json F).get "provision").isArray = true := by
      rw [VmTemplate.document_provision]
      exact ⟨rfl, rfl⟩
    have reads := @valueFormat_document F float shown created config fits
    rw [parseTemplate, createdText, if_neg (Nat.not_lt.2 short)]
    dsimp only [valueFormat] at reads ⊢
    rw [reads]
    exact if_pos shape
  agrees := by
    intro field member
    refine VmTemplate.get_document_other created scripts config ?_
    rintro rfl
    exact absurd member (by decide)
  nested := by
    have : (VmTemplate.document created config : Json F).get "nestedVirtualization" =
        .bool config.nestedVirtualization := by
      rw [VmTemplate.get_document]
      simp [VmTemplate.members, Json.find]
    rw [this]
    rfl
  printed := valueFormat_document scripts fits

/-- A template without floats that is renewed is read back as what it was printed from. -/
theorem rereads_kept (scripts : Scripts) (config : Config) {B : Json F}
    (kept : B.Kept Json.depthLimit) : Rereads (valueFormat float shown) scripts config B := by
  intro _
  refine valueFormat_reads float shown (Json.kept_set "provision" kept ?_)
  rw [VmTemplate.document_provision]
  exact VmTemplate.kept_provision scripts config

section Texts

variable {serde : Serde F} {scripts : Scripts} {config : Config} {B : Json F} {first c : Contents}

/-- Contents that attempts lead to are whole texts. -/
theorem reached_texts (reached : Reached serde scripts config B first c) (t : Template) :
    c t = first t ∨ c t = renewedText serde scripts config B := by
  rcases reached with rfl | ⟨_, rfl | rfl⟩
  · exact .inl rfl
  · cases t with
    | actual => exact .inr (Function.update_self _ _ _)
    | baseline => exact .inl (Function.update_of_ne (by decide) _ _)
  · cases t with
    | actual => exact .inr ((Function.update_of_ne (by decide) _ _).trans (Function.update_self _ _ _))
    | baseline => exact .inr (Function.update_self _ _ _)

/-- Those that say what is to be said are the text that is written. -/
theorem reached_renewed (start : Saved serde scripts config B first)
    (unchanged : B = renewed scripts config B → ∀ t, first t = renewedText serde scripts config B)
    (reached : Reached serde scripts config B first c)
    (reads : ∀ t, serde.fromSlice (c t) = some (renewed scripts config B)) (t : Template) :
    c t = renewedText serde scripts config B := by
  rcases reached_texts reached t with is | is
  · have here := reads t
    rw [is, (parse_ok (start.reads t)).2.1] at here
    rw [is, unchanged (Option.some.inj here)]
  · exact is

end Texts

/-- **From one version to another.**  Updating a VM that a version with other scripts, and all
else the same, created, however often that is interrupted, both templates are at every moment
the whole text of one version, an attempt in which nothing fails goes through, and behind one
that does they are what this version would have written on creation. -/
theorem update_after_create [DecidableEq F] {config : Config}
    (valid : config.validateSchema = .ok ()) {created scripts : Scripts}
    (first : (Json.pretty shown (VmTemplate.document created config)).length ≤ templateLimit)
    (second : (Json.pretty shown (VmTemplate.document scripts config)).length ≤ templateLimit) :
    ∀ m, Reaches (valueFormat float shown) scripts config True
        ⟨saved (createdText shown created config), none⟩ m →
      (∀ t, m.state.files (.template t) = some (createdText shown created config t) ∨
        m.state.files (.template t) = some (createdText shown scripts config t)) ∧
      (∃ pid result s, (disk False config).Returns
        (update (valueFormat float shown) scripts pid) m.state result s) ∧
      ∀ pid result s, (disk True config).Returns (update (valueFormat float shown) scripts pid)
        m.state result s → ∀ t, s.files (.template t) = some (createdText shown scripts config t) := by
  intro m runs
  have start := @saved_document F float shown created scripts config (Config.fits_of_valid valid) first
  have rereads := @rereads_kept F float shown scripts config _
    (VmTemplate.kept_document created (Config.fits_of_valid valid))
  obtain ⟨c, reached, resting⟩ := start.reaches rereads runs
  have renewedIs := @VmTemplate.renewed_document F created scripts config
  have text : ∀ t, renewedText (valueFormat float shown) scripts config
      (VmTemplate.document created config) = createdText shown scripts config t := by
    intro t
    rw [renewedText, renewedIs, valueFormat_text, createdText]
  have unchanged : VmTemplate.document created config =
      renewed scripts config (VmTemplate.document created config : Json F) →
      ∀ t, createdText shown created config t = renewedText (valueFormat float shown) scripts config
        (VmTemplate.document created config) := by
    intro same t
    rw [text t, createdText, createdText, same, renewedIs]
  refine ⟨fun t => ?_, ?_, ?_⟩
  · rw [resting.holds t, ← text t]
    exact (reached_texts reached t).imp (congrArg some) (congrArg some)
  · refine start.accepts rereads (.inr ?_) reached resting
    rw [text .actual]
    exact second
  · intro pid result s returns t
    obtain ⟨actual, baseline, _⟩ := start.returned rereads reached resting returns
    have ended := System.Safe.leads (fun _ => disk_stable _)
      (start.safe rereads reached pid _ resting) returns
    obtain ⟨_, _, actualRead, baselineRead, _, after, _⟩ := ended
    have further := (start.reached_goes rereads reached actualRead baselineRead).2
    rw [after.holds t, ← text t]
    refine congrArg some (reached_renewed start unchanged further (fun t => ?_) t)
    rw [← value_resting after]
    cases t with
    | actual => exact actual
    | baseline => exact baseline

/-- A version with another unit for the daemon. -/
def newer : Scripts :=
  { Long.scripts with dockerService := "[Service]\nRestart=always\n" }

theorem length_document_le (scripts : Scripts)
    (room : (VmTemplate.document scripts Long.config : Json Empty).room Empty.elim 0 ≤ templateLimit) :
    (Json.pretty Empty.elim (VmTemplate.document scripts Long.config)).length ≤ templateLimit :=
  Nat.le_trans (Json.length_pretty Empty.elim _) room

/-- A VM that is updated for the first time. -/
theorem update_after_create_newer :
    (∀ t, (saved (createdText Empty.elim Long.scripts Long.config)).files (.template t) =
        some (createdText Empty.elim Long.scripts Long.config t) ∨
      (saved (createdText Empty.elim Long.scripts Long.config)).files (.template t) =
        some (createdText Empty.elim newer Long.config t)) ∧
    (∃ pid result s, (disk False Long.config).Returns
      (update (valueFormat (fun _ => none) Empty.elim) newer pid)
      (saved (createdText Empty.elim Long.scripts Long.config)) result s) ∧
    ∀ pid result s, (disk True Long.config).Returns
      (update (valueFormat (fun _ => none) Empty.elim) newer pid)
      (saved (createdText Empty.elim Long.scripts Long.config)) result s →
      ∀ t, s.files (.template t) = some (createdText Empty.elim newer Long.config t) :=
  update_after_create rfl (length_document_le Long.scripts (by decide +kernel))
    (length_document_le newer (by decide +kernel)) ⟨_, none⟩ .refl

end Update

end Luhmen.Host
