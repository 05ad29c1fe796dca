/-
# Host.CreationCrash -- what an interrupted creation leaves

Any number of attempts at `create` with the same settings, killed anywhere and with any
of their requests failing, from a state directory that is missing or empty.  What they
leave is `Consistent`: without an ownership marker there is nothing but temporary files
of that marker, and with one the saved settings are the ones asked for
(`reaches_fine`).

The attempt goes through three such stages: a directory that can be marked (`Claimed`),
one with the marker (`Marked`), and one with the settings (`Configured`).
-/
import Luhmen.Host.Creation

namespace Luhmen.Host.Creation

open Luhmen.Theory
open Run

set_option autoImplicit false

/-! ## Directories -/

namespace Directory

@[simp] theorem put_file (d : Directory) (e other : Entry) (file : Option Bytes) :
    (d.put e file).file other = if other = e then file else d.file other := by
  unfold put Directory.file
  by_cases same : other = e
  · subst same
    cases file with
    | none => simp
    | some bytes => simp
  · cases file with
    | none => simp [same, Finmap.lookup_erase_ne same]
    | some bytes => simp [same, Finmap.lookup_insert_of_ne _ same]

@[simp] theorem put_mode (d : Directory) (e : Entry) (file : Option Bytes) :
    (d.put e file).mode = d.mode := rfl

@[simp] theorem put_lima (d : Directory) (e : Entry) (file : Option Bytes) :
    (d.put e file).lima = d.lima := rfl

theorem eq_of_file {d d' : Directory} (mode : d.mode = d'.mode) (lima : d.lima = d'.lima)
    (files : ∀ e, d.file e = d'.file e) : d = d' := by
  obtain ⟨m, f, l⟩ := d
  obtain ⟨m', f', l'⟩ := d'
  obtain rfl : m = m' := mode
  obtain rfl : l = l' := lima
  obtain rfl : f = f' := Finmap.ext_lookup files
  rfl

theorem isEmpty_iff (d : Directory) :
    d.isEmpty = true ↔ (∀ e, d.file e = none) ∧ d.lima = .absent := by
  simp only [isEmpty, decide_eq_true_eq, Finset.eq_empty_iff_forall_notMem, Finmap.mem_keys,
    Directory.file, Finmap.lookup_eq_none]

end Directory

/-- What attempts leave: `text` are the settings. -/
structure Consistent (text : Bytes) (d : Directory) : Prop where
  unmarked : d.file (.target .owner) = none →
    d.lima = .absent ∧ ∀ e, (∀ pid, e ≠ .temporary .owner pid) → d.file e = none
  marked : ∀ bytes, d.file (.target .owner) = some bytes → bytes = owner ∧ d.mode = 0o700
  config : ∀ bytes, d.file (.target .config) = some bytes → bytes = text
  created : d.lima = .created → d.file (.target .config) ≠ none

/-- ... with a mode that can be marked, with the marker, and with the settings. -/
structure Claimed (text : Bytes) (d : Directory) : Prop extends Consistent text d where
  mode : d.mode = 0o700

structure Marked (text : Bytes) (d : Directory) : Prop extends Consistent text d where
  owner : d.file (.target .owner) ≠ none

structure Configured (text : Bytes) (d : Directory) : Prop extends Marked text d where
  saved : d.file (.target .config) ≠ none

section Directories

variable {text : Bytes} {d : Directory}

theorem Marked.isOwner (marked : Marked text d) : d.file (.target .owner) = some Creation.owner := by
  obtain ⟨bytes, there⟩ := Option.ne_none_iff_exists'.1 marked.owner
  rw [there, (marked.marked bytes there).1]

theorem Marked.mode (marked : Marked text d) : d.mode = 0o700 :=
  (marked.marked _ marked.isOwner).2

theorem Configured.isText (configured : Configured text d) :
    d.file (.target .config) = some text := by
  obtain ⟨bytes, there⟩ := Option.ne_none_iff_exists'.1 configured.saved
  rw [there, configured.config bytes there]

theorem consistent_empty {text : Bytes} (empty : d.isEmpty = true) : Consistent text d := by
  obtain ⟨files, lima⟩ := (d.isEmpty_iff).1 empty
  refine ⟨fun _ => ⟨lima, fun e _ => files e⟩, ?_, ?_, ?_⟩
  · intro bytes there
    simp [files] at there
  · intro bytes there
    simp [files] at there
  · intro created
    rw [lima] at created
    cases created

theorem Consistent.remove_temporary (consistent : Consistent text d) (t : Target) (pid : Nat) :
    Consistent text (d.put (.temporary t pid) none) where
  unmarked := by
    intro absent
    have files := consistent.unmarked (by simpa using absent)
    refine ⟨files.1, fun e other => ?_⟩
    rw [Directory.put_file]
    split
    · rfl
    · exact files.2 e other
  marked := fun bytes there => consistent.marked bytes (by simpa using there)
  config := fun bytes there => consistent.config bytes (by simpa using there)
  created := fun created => by simpa using consistent.created created

theorem Consistent.claim (consistent : Consistent text d) :
    Claimed text { d with mode := 0o700 } where
  unmarked := consistent.unmarked
  marked := fun bytes there => ⟨(consistent.marked bytes there).1, rfl⟩
  config := consistent.config
  created := consistent.created
  mode := rfl

theorem Claimed.put_temporary (claimed : Claimed text d) (pid : Nat) (file : Option Bytes) :
    Claimed text (d.put (.temporary .owner pid) file) where
  unmarked := by
    intro absent
    have files := claimed.unmarked (by simpa using absent)
    refine ⟨files.1, fun e other => ?_⟩
    simp [other pid, files.2 e other]
  marked := fun bytes there => claimed.marked bytes (by simpa using there)
  config := fun bytes there => claimed.config bytes (by simpa using there)
  created := fun created => by simpa using claimed.created created
  mode := claimed.mode

theorem Claimed.mark (claimed : Claimed text d) :
    Marked text (d.put (.target .owner) (some Creation.owner)) where
  unmarked := fun absent => by simp at absent
  marked := fun bytes there => ⟨by simpa using there.symm, claimed.mode⟩
  config := fun bytes there => claimed.config bytes (by simpa using there)
  created := fun created => by simpa using claimed.created created
  owner := by simp

/-- Other files than the marker and the settings say nothing. -/
theorem Marked.put (marked : Marked text d) {e : Entry} (notOwner : e ≠ .target .owner)
    (notConfig : e ≠ .target .config) (file : Option Bytes) : Marked text (d.put e file) where
  unmarked := fun absent => absurd (by simpa [notOwner.symm] using absent) marked.owner
  marked := fun bytes there => marked.marked bytes (by simpa [notOwner.symm] using there)
  config := fun bytes there => marked.config bytes (by simpa [notConfig.symm] using there)
  created := fun created => by simpa [notConfig.symm] using marked.created created
  owner := by simpa [notOwner.symm] using marked.owner

theorem Configured.put (configured : Configured text d) {e : Entry} (notOwner : e ≠ .target .owner)
    (notConfig : e ≠ .target .config) (file : Option Bytes) : Configured text (d.put e file) where
  toMarked := configured.toMarked.put notOwner notConfig file
  saved := by simpa [notConfig.symm] using configured.saved

theorem Marked.configure (marked : Marked text d) :
    Configured text (d.put (.target .config) (some text)) where
  unmarked := fun absent => absurd (by simpa using absent) marked.owner
  marked := fun bytes there => marked.marked bytes (by simpa using there)
  config := fun bytes there => by simpa using there.symm
  created := fun _ => by simp
  owner := by simpa using marked.owner
  saved := by simp

theorem Configured.withLima (configured : Configured text d) (lima : Lima) :
    Configured text { d with lima := lima } where
  unmarked := fun absent => absurd absent configured.owner
  marked := configured.marked
  config := configured.config
  created := fun _ => configured.saved
  owner := configured.owner
  saved := configured.saved

end Directories

/-! ## One attempt -/

section Specs

variable {faulty : Prop} {text : Bytes} {α β : Type}

def At (P : Option Directory → Prop) (s : State) : Prop :=
  P s.directory

/-- The directory, where there is one, is consistent. -/
def Fine (text : Bytes) : Option Directory → Prop
  | some d => Consistent text d
  | none => True

def Held (D : Directory → Prop) : Option Directory → Prop
  | some d => D d
  | none => False

variable (faulty text) in
/-- The triples of this module: every request leaves the directory consistent. -/
abbrev Spec (pre : State → Prop) (block : Run α) (post : α → State → Prop) : Prop :=
  @System.Triple Requests (home faulty) (At (Fine text)) Stop α pre block post (At (Fine text))

theorem home_stable (P : State → Prop) : (home faulty).Stable P :=
  fun _ _ moves => moves.elim

theorem answer_spec {pre : State → Prop} {good : α → State → Prop} (request : Request)
    (outcome : Reply request → Except String α)
    (performs : ∀ s reply t, pre s → exec faulty request s reply t →
      At (Fine text) t ∧ ∀ value, outcome reply = .ok value → good value t) :
    Spec faulty text pre (perform request) fun reply s =>
      At (Fine text) s ∧ ∀ value, outcome reply = .ok value → good value s := by
  refine System.Triple.perform (home_stable pre) fun s reply t holds exec => ?_
  have after := performs s reply t holds exec
  exact ⟨after.1, after⟩

/-- `?` behind a request. -/
theorem demand_spec {pre : State → Prop} (request : Request)
    (outcome : Reply request → Except String α) (good : α → State → Prop)
    (performs : ∀ s reply t, pre s → exec faulty request s reply t →
      At (Fine text) t ∧ ∀ value, outcome reply = .ok value → good value t)
    {rest : α → Run β} {post : β → State → Prop}
    (second : ∀ value, Spec faulty text (good value) (rest value) post) :
    Spec faulty text pre (perform request >>= fun reply => orFail (outcome reply) >>= rest) post := by
  refine (answer_spec request outcome performs).bind fun reply => ?_
  cases outcome reply with
  | ok value => exact fun s holds => second value s (holds.2 value rfl)
  | error message => exact fun s holds => holds.1

theorem last_spec {pre : State → Prop} (request : Request)
    (outcome : Reply request → Except String α) (good : α → State → Prop)
    (performs : ∀ s reply t, pre s → exec faulty request s reply t →
      At (Fine text) t ∧ ∀ value, outcome reply = .ok value → good value t) :
    Spec faulty text pre (perform request >>= fun reply => orFail (outcome reply)) good := by
  refine (answer_spec request outcome performs).bind fun reply => ?_
  cases outcome reply with
  | ok value => exact fun s holds => holds.2 value rfl
  | error message => exact fun s holds => holds.1

/-! ### Requests -/

/-- Requests that leave the directory. -/
def Request.Calm : Request → Prop
  | .createDirAll | .setPermissions _ | .createNew _ | .writeAll _ _ | .rename _ _ | .removeFile _
  | .lock | .createLimaDir | .limaCreate => False
  | _ => True

theorem exec_calm {request : Request} (calm : request.Calm) {s t : State} {reply : Reply request}
    (performed : exec faulty request s reply t) : t.directory = s.directory := by
  rcases performed with ⟨answers, served⟩ | ⟨-, fault⟩
  · have after : t = (serve answers request s).2 := by rw [served]
    rw [after]
    cases request with
    | read e =>
        simp only [serve]
        split <;> rfl
    | isEmpty =>
        simp only [serve]
        split <;> rfl
    | createDirAll | setPermissions | createNew | writeAll | rename | removeFile | lock
    | createLimaDir | limaCreate => exact calm.elim
    | _ => rfl
  · cases request with
    | createDirAll | setPermissions | createNew | writeAll | rename | removeFile | lock
    | createLimaDir | limaCreate => exact calm.elim
    | _ => rw [fault.2]

theorem calm_keeps {P : Option Directory → Prop} {request : Request} (calm : request.Calm)
    {s t : State} {reply : Reply request} (holds : At P s)
    (performed : exec faulty request s reply t) : At P t := by
  unfold At
  rw [exec_calm calm performed]
  exact holds

section Calm

variable {P : Option Directory → Prop} (fine : ∀ o, P o → Fine text o)
include fine

/-- `?` behind a calm request. -/
theorem calm_spec (request : Request) (calm : request.Calm)
    (outcome : Reply request → Except String α) {rest : α → Run β} {post : β → State → Prop}
    (second : ∀ value, Spec faulty text (At P) (rest value) post) :
    Spec faulty text (At P) (perform request >>= fun reply => orFail (outcome reply) >>= rest)
      post := by
  refine demand_spec request outcome (fun _ => At P) (fun s reply t holds performed => ?_) second
  have kept := calm_keeps calm holds performed
  exact ⟨fine _ kept, fun _ _ => kept⟩

theorem calm_last_spec (request : Request) (calm : request.Calm)
    (outcome : Reply request → Except String α) :
    Spec faulty text (At P) (perform request >>= fun reply => orFail (outcome reply))
      fun _ => At P := by
  refine last_spec request outcome (fun _ => At P) fun s reply t holds performed => ?_
  have kept := calm_keeps calm holds performed
  exact ⟨fine _ kept, fun _ _ => kept⟩

/-- A calm request without `?`, and what a reply says. -/
theorem probe_spec (request : Request) (calm : request.Calm)
    (fact : Reply request → Option Directory → Prop)
    (replies : ∀ s reply t, exec faulty request s reply t → fact reply s.directory) :
    Spec faulty text (At P) (perform request) fun reply s => At P s ∧ fact reply s.directory := by
  refine System.Triple.perform (home_stable _) fun s reply t holds performed => ?_
  have kept := calm_keeps calm holds performed
  refine ⟨fine _ kept, kept, ?_⟩
  rw [exec_calm calm performed]
  exact replies s reply t performed

theorem stop_spec (stop : Stop) {post : α → State → Prop} :
    Spec faulty text (At P) (throw stop) post :=
  System.Triple.throw fun _ holds => fine _ holds

end Calm

/-- A file that is seen is there. -/
theorem exist_exec {e : Entry} {s t : State} {reply : Bool}
    (performed : exec faulty (.exist e) s reply t) (isTrue : reply = true) :
    ∃ d, s.directory = some d ∧ d.file e ≠ none := by
  rcases performed with ⟨answers, served⟩ | ⟨-, rfl, -⟩
  · obtain ⟨rfl, -⟩ := Prod.mk.inj served
    obtain ⟨bytes, found⟩ := Option.isSome_iff_exists.1 isTrue
    obtain ⟨d, there, file⟩ := Option.bind_eq_some_iff.1 found
    exact ⟨d, there, by rw [file]; exact Option.some_ne_none bytes⟩
  · cases isTrue

theorem exist_spec {P : Option Directory → Prop} (fine : ∀ o, P o → Fine text o) (e : Entry) :
    Spec faulty text (At P) (perform (.exist e)) fun (reply : Bool) s =>
      At P s ∧ (reply = true → ∃ d, s.directory = some d ∧ d.file e ≠ none) :=
  probe_spec fine (.exist e) trivial
    (fun (reply : Bool) o => reply = true → ∃ d, o = some d ∧ d.file e ≠ none)
    fun _ _ _ performed => exist_exec performed

/-- What a change does that is served, or fails. -/
abbrev Changed (faulty : Prop) (f : Directory → Option Directory) (s : State)
    (reply : Except String Unit) (t : State) : Prop :=
  (∃ answers, change answers s f = (reply, t)) ∨ (faulty ∧ (∃ message, reply = .error message) ∧ t = s)

variable {D D' : Directory → Prop}

theorem changed_cases {f : Directory → Option Directory}
    (moves : ∀ d d', D d → f d = some d' → D' d') {s t : State} {reply : Except String Unit}
    (held : At (Held D) s) (changed : Changed faulty f s reply t) :
    (reply = .ok () ∧ At (Held D') t) ∨ (At (Held D) t ∧ ∃ message, reply = .error message) := by
  rcases changed with ⟨answers, served⟩ | ⟨-, failed, rfl⟩
  · unfold change at served
    split at served
    · rename_i d' found
      obtain ⟨d, there, is⟩ := Option.bind_eq_some_iff.1 found
      obtain ⟨rfl, rfl⟩ := Prod.mk.inj served
      have holds : D d := by
        unfold At at held
        rw [there] at held
        exact held
      exact .inl ⟨rfl, moves d d' holds is⟩
    · obtain ⟨rfl, rfl⟩ := Prod.mk.inj served
      exact .inr ⟨held, _, rfl⟩
  · exact .inr ⟨held, failed⟩

theorem held_with {P : Directory → Prop} {s : State} (held : At (Held D) s)
    (there : ∃ d, s.directory = some d ∧ P d) : At (Held fun d => D d ∧ P d) s := by
  obtain ⟨d, is, holds⟩ := there
  unfold At at held ⊢
  rw [is] at held ⊢
  exact ⟨held, holds⟩

theorem held_mono (implies : ∀ d, D d → D' d) {s : State} (held : At (Held D) s) :
    At (Held D') s := by
  unfold At at held ⊢
  cases there : s.directory with
  | none =>
      rw [there] at held
      exact held.elim
  | some d =>
      rw [there] at held
      exact implies d held

theorem held_fine (consistent : ∀ d, D d → Consistent text d) (o : Option Directory)
    (held : Held D o) : Fine text o := by
  cases o with
  | none => exact held.elim
  | some d => exact consistent d held

/-- ... as `demand_spec` asks for it. -/
theorem changed_performs {f : Directory → Option Directory}
    (consistent : ∀ d, D d → Consistent text d) (consistent' : ∀ d, D' d → Consistent text d)
    (moves : ∀ d d', D d → f d = some d' → D' d') {s t : State} {reply : Except String Unit}
    (held : At (Held D) s) (changed : Changed faulty f s reply t) :
    At (Fine text) t ∧ ∀ value, reply = .ok value → At (Held D') t := by
  rcases changed_cases moves held changed with ⟨-, after⟩ | ⟨before, message, rfl⟩
  · exact ⟨held_fine consistent' _ after, fun _ _ => after⟩
  · exact ⟨held_fine consistent _ before, fun _ ok => by cases ok⟩

/-! ### Writing -/

section Write

variable {t : Target} {pid : Nat} {bytes : Bytes} (consistent : ∀ d, D d → Consistent text d)
  (consistent' : ∀ d, D' d → Consistent text d)
  (temporary : ∀ d file, D d → D (d.put (.temporary t pid) file))
  (temporary' : ∀ d file, D' d → D' (d.put (.temporary t pid) file))
  (moves : ∀ d, D d → D' (d.put (.target t) (some bytes)))
include consistent temporary

/-- The temporary file is complete. -/
def Staged (D : Directory → Prop) (e : Entry) (bytes : Bytes) (d : Directory) : Prop :=
  D d ∧ d.file e = some bytes

theorem write_performs {s u : State} {reply : Except String Unit} (held : At (Held D) s)
    (performed : exec faulty (.writeAll (.temporary t pid) bytes) s reply u) :
    At (Fine text) u ∧
      ∀ value, reply = .ok value → At (Held (Staged D (.temporary t pid) bytes)) u := by
  rcases performed with served | ⟨-, ⟨message, rfl⟩, d, written, there, rfl⟩
  · refine @changed_performs faulty text _ _ _ consistent (fun d staged => consistent d staged.1) ?_
      _ _ _ held (.inl served)
    intro d d' holds is
    split at is
    · cases is
    · obtain rfl := Option.some.inj is
      exact ⟨temporary d _ holds, by simp⟩
  · unfold At at held
    rw [there] at held
    exact ⟨consistent _ (temporary d _ held), fun _ ok => by cases ok⟩

include consistent' temporary' moves

theorem publish_spec :
    Spec faulty text (At (Held D)) (publish (.temporary t pid) (.target t) bytes)
      fun _ => At (Held D') := by
  have staged : ∀ d, Staged D (.temporary t pid) bytes d → Consistent text d :=
    fun d staged => consistent d staged.1
  refine demand_spec (.createNew _) id (fun _ => At (Held D))
    (fun s reply u held performed => changed_performs consistent consistent ?_ held performed)
    fun _ => ?_
  · intro d d' holds is
    split at is
    · obtain rfl := Option.some.inj is
      exact temporary d _ holds
    · cases is
  refine demand_spec (.writeAll _ _) id (fun _ => At (Held (Staged D (.temporary t pid) bytes)))
    (fun s reply u held performed => write_performs consistent temporary held performed) fun _ => ?_
  refine calm_spec (held_fine staged) (.syncAll _) trivial id fun _ => ?_
  refine demand_spec (.rename _ _) id (fun _ => At (Held D'))
    (fun s reply u held performed => changed_performs staged consistent' ?_ held performed)
    fun _ => ?_
  · rintro d d' ⟨holds, there⟩ is
    rw [there] at is
    obtain rfl := Option.some.inj is
    exact temporary' _ _ (moves d holds)
  exact calm_last_spec (held_fine consistent') .syncDirectory trivial id

theorem atomicWrite_spec :
    Spec faulty text (At (Held D)) (atomicWrite pid t bytes) fun _ => At (Held D') := by
  have published : Spec faulty text (At (Held D))
      (attempt (publish (.temporary t pid) (.target t) bytes))
      (fun result s => match result with
        | .ok _ => At (Held D') s
        | .error _ => At (Fine text) s) :=
    System.Triple.attempt (publish_spec consistent consistent' temporary temporary' moves)
      fun _ _ fine => fine
  refine published.bind fun result => ?_
  cases result with
  | ok value => exact System.Triple.pure fun s held => held
  | error stop =>
      have removed : Spec faulty text (At (Fine text)) (perform (.removeFile (.temporary t pid)))
          fun _ => At (Fine text) := by
        refine System.Triple.perform (home_stable _) fun s reply u fine performed => ?_
        rcases performed with ⟨answers, served⟩ | ⟨-, -, rfl⟩
        · have after : At (Fine text) u := by
            unfold At at fine ⊢
            simp only [serve, change] at served
            split at served
            · rename_i d' found
              obtain ⟨d, there, is⟩ := Option.bind_eq_some_iff.1 found
              obtain ⟨-, rfl⟩ := Prod.mk.inj served
              rw [there] at fine
              split at is
              · cases is
              · obtain rfl := Option.some.inj is
                exact fine.remove_temporary t pid
            · obtain ⟨-, rfl⟩ := Prod.mk.inj served
              exact fine
          exact ⟨after, after⟩
        · exact ⟨fine, fine⟩
      exact removed.bind fun _ => System.Triple.throw fun s fine => fine

end Write

/-! ### The steps of `create` -/

theorem checkOwned_spec (metadata : Metadata) :
    Spec faulty text (At (Held (Marked text))) (checkOwned metadata)
      fun _ => At (Held (Marked text)) := by
  have fine := held_fine fun d (marked : Marked text d) => marked.toConsistent
  refine calm_spec fine (.read _) trivial id fun bytes => ?_
  split
  · exact stop_spec fine _
  · split
    · exact stop_spec fine _
    · split
      · exact stop_spec fine _
      · exact System.Triple.pure fun s held => held

theorem claimDirectory_spec (pid : Nat) :
    Spec faulty text (At (Held (Consistent text))) (claimDirectory pid)
      fun _ => At (Held (Marked text)) := by
  refine demand_spec (.setPermissions _) id (fun _ => At (Held (Claimed text)))
    (fun s reply t held performed => changed_performs (fun d consistent => consistent)
      (fun d claimed => claimed.toConsistent) ?_ held performed) fun _ => ?_
  · intro d d' consistent is
    obtain rfl := Option.some.inj is
    exact consistent.claim
  · exact atomicWrite_spec (fun d claimed => claimed.toConsistent)
      (fun d marked => marked.toConsistent) (fun d file claimed => claimed.put_temporary pid file)
      (fun d file marked => marked.put (by simp) (by simp) file) fun d claimed => claimed.mark

/-- A directory that is made or was there. -/
theorem createDirAll_performs {s t : State} {reply : Except String Unit} (fine : At (Fine text) s)
    (performed : exec faulty .createDirAll s reply t) :
    At (Fine text) t ∧ ∀ value, reply = .ok value → At (Held (Consistent text)) t := by
  rcases performed with ⟨answers, served⟩ | ⟨-, ⟨message, rfl⟩, rfl⟩
  · obtain ⟨rfl, rfl⟩ := Prod.mk.inj served
    have made : Consistent text (s.directory.getD ⟨answers.mode, ∅, .absent⟩) := by
      unfold At at fine
      cases there : s.directory with
      | none => exact consistent_empty rfl
      | some d =>
          rw [there] at fine
          exact fine
    exact ⟨made, fun _ _ => made⟩
  · exact ⟨fine, fun _ ok => by cases ok⟩

theorem ensureOwned_spec (pid : Nat) :
    Spec faulty text (At (Fine text)) (ensureOwned pid true) fun _ => At (Held (Marked text)) := by
  have looked : Spec faulty text (At (Fine text)) (perform .symlinkMetadata)
      fun (reply : Option Metadata) s => At (Fine text) s ∧ (reply.isSome → s.directory ≠ none) := by
    refine probe_spec (fun _ fine => fine) .symlinkMetadata trivial
      (fun (reply : Option Metadata) o => reply.isSome → o ≠ none) ?_
    rintro s reply t (⟨answers, served⟩ | ⟨-, rfl, -⟩) isSome
    · obtain ⟨rfl, -⟩ := Prod.mk.inj served
      rw [Option.isSome_map] at isSome
      exact Option.isSome_iff_ne_none.1 isSome
    · cases isSome
  refine looked.bind fun (metadata : Option Metadata) => ?_
  cases metadata with
  | none =>
      exact demand_spec .createDirAll id (fun _ => At (Held (Consistent text)))
        (fun s reply t holds performed => createDirAll_performs holds.1 performed)
        fun _ => claimDirectory_spec pid
  | some metadata =>
      have there : ∀ s : State, At (Fine text) s ∧ ((some metadata).isSome → s.directory ≠ none) →
          At (Held (Consistent text)) s := by
        rintro s ⟨fine, there⟩
        obtain ⟨d, is⟩ := Option.ne_none_iff_exists'.1 (there rfl)
        unfold At at fine ⊢
        rw [is] at fine ⊢
        exact fine
      refine System.Triple.weaken there ?_ (fun _ _ h => h) fun _ h => h
      have fine := held_fine fun d (consistent : Consistent text d) => consistent
      dsimp only
      split
      · exact stop_spec fine _
      · refine (exist_spec fine (.target .owner)).bind fun present => ?_
        cases present with
        | true =>
            refine System.Triple.weaken (fun s holds => ?_) (checkOwned_spec metadata) (fun _ _ h => h)
              fun _ h => h
            exact held_mono (fun d both => ⟨both.1, both.2⟩) (held_with holds.1 (holds.2 rfl))
        | false =>
            refine System.Triple.weaken (fun s holds => holds.1) ?_ (fun _ _ h => h) fun _ h => h
            refine calm_spec fine .isEmpty trivial id fun empty => ?_
            cases empty with
            | false => exact stop_spec fine _
            | true => exact claimDirectory_spec pid

variable {F : Type} {serde : Serde F} {scripts : Scripts} {format : ConfigSerde} {config : Config}

theorem checks_spec : Spec faulty text (At (Fine text)) (checks config) fun _ => At (Fine text) := by
  have fine : ∀ o, Fine text o → Fine text o := fun _ fine => fine
  refine calm_spec fine .checkHost trivial id fun _ => ?_
  refine calm_spec fine .checkLima trivial id fun _ => ?_
  refine System.Triple.bind (System.Triple.ofExcept (fun _ _ _ holds => holds) fun _ holds => holds)
    fun _ => ?_
  refine calm_spec fine (.validateMounts _) trivial id fun _ => ?_
  cases config.nestedVirtualization with
  | true =>
      exact (calm_last_spec fine .checkNestedHost trivial id).bind fun _ =>
        calm_last_spec fine (.checkResources _) trivial id
  | false => exact calm_last_spec fine (.checkResources _) trivial id

theorem readConfig_spec {P : Option Directory → Prop} (fine : ∀ o, P o → Fine text o) :
    Spec faulty text (At P) (readConfig format) fun _ => At P := by
  refine calm_spec fine (.read _) trivial id fun bytes => ?_
  split
  · exact stop_spec fine _
  · exact (System.Triple.ofExcept (fun _ _ _ holds => holds) fun s holds => fine _ holds).bind fun _ =>
      System.Triple.pure fun s holds => holds

/-- The settings are saved, or the same ones were. -/
theorem saveConfig_spec (pid : Nat) :
    Spec faulty (format.toVecPretty config) (At (Held (Marked (format.toVecPretty config))))
      (saveConfig format pid config)
      fun _ => At (Held (Configured (format.toVecPretty config))) := by
  have fine := held_fine fun d (marked : Marked (format.toVecPretty config) d) => marked.toConsistent
  have fine' := held_fine fun d (configured : Configured (format.toVecPretty config) d) =>
    configured.toConsistent
  refine (exist_spec fine (.target .config)).bind fun present => ?_
  cases present with
  | true =>
      have same : Spec faulty (format.toVecPretty config)
          (At (Held (Configured (format.toVecPretty config))))
          (readConfig format >>= fun saved => if saved ≠ config then
            refuse "configuration differs from the created VM; creation settings are immutable"
            else pure ())
          fun _ => At (Held (Configured (format.toVecPretty config))) := by
        refine (readConfig_spec fine').bind fun saved => ?_
        split
        · exact stop_spec fine' _
        · exact System.Triple.pure fun s held => held
      refine System.Triple.weaken (fun s holds => ?_) same (fun _ _ h => h) fun _ h => h
      exact held_mono (fun d both => ⟨both.1, both.2⟩) (held_with holds.1 (holds.2 rfl))
  | false =>
      refine System.Triple.weaken (fun s holds => holds.1) ?_ (fun _ _ h => h) fun _ h => h
      refine (probe_spec fine .vmExist trivial (fun _ _ => True)
        fun _ _ _ _ => trivial).bind fun exist => ?_
      refine System.Triple.weaken (fun s holds => holds.1) ?_ (fun _ _ h => h) fun _ h => h
      cases exist with
      | true => exact stop_spec fine _
      | false =>
          exact atomicWrite_spec (fun d marked => marked.toConsistent)
            (fun d configured => configured.toConsistent)
            (fun d file marked => marked.put (by simp) (by simp) file)
            (fun d file configured => configured.put (by simp) (by simp) file)
            fun d marked => marked.configure

theorem createVm_spec (pid : Nat) :
    Spec faulty text (At (Held (Configured text))) (createVm serde scripts pid config)
      fun _ => At (Held (Configured text)) := by
  have consistent : ∀ d, Configured text d → Consistent text d :=
    fun d configured => configured.toConsistent
  have fine := held_fine consistent
  have seen : Spec faulty text (At (Held (Configured text))) vm
      fun _ => At (Held (Configured text)) := by
    refine (probe_spec fine .vmExist trivial (fun _ _ => True)
      fun _ _ _ _ => trivial).bind fun exist => ?_
    refine System.Triple.weaken (fun s holds => holds.1) ?_ (fun _ _ h => h) fun _ h => h
    cases exist with
    | false => exact System.Triple.pure fun s held => held
    | true => exact calm_last_spec fine .limaList trivial id
  refine seen.bind fun exists_ => ?_
  cases exists_ with
  | true => exact System.Triple.pure fun s held => held
  | false =>
      refine calm_spec fine .availableSpace trivial id fun space => ?_
      split
      · exact stop_spec fine _
      refine demand_spec .createLimaDir id (fun _ => At (Held (Configured text)))
        (fun s reply t held performed => changed_performs consistent consistent ?_ held performed)
        fun _ => ?_
      · intro d d' configured is
        obtain rfl := Option.some.inj is
        exact configured.withLima _
      have keeps : ∀ e d file, e ≠ .target .owner → e ≠ .target .config → Configured text d →
          Configured text (d.put e file) :=
        fun e d file notOwner notConfig configured => configured.put notOwner notConfig file
      refine (atomicWrite_spec consistent consistent
        (fun d file => keeps _ d file (by simp) (by simp))
        (fun d file => keeps _ d file (by simp) (by simp))
        fun d => keeps _ d _ (by simp) (by simp)).bind fun _ => ?_
      refine last_spec .limaCreate id (fun _ => At (Held (Configured text)))
        fun s reply t held performed => changed_performs consistent consistent ?_ held performed
      intro d d' configured is
      split at is
      · obtain rfl := Option.some.inj is
        exact configured.withLima _
      · cases is

theorem ensureContext_spec {P : Option Directory → Prop} (fine : ∀ o, P o → Fine text o) :
    Spec faulty text (At P) ensureContext fun _ => At P := by
  refine calm_spec fine .contextReady trivial id fun ready => ?_
  cases ready with
  | true => exact System.Triple.pure fun s holds => holds
  | false =>
      refine calm_spec fine .contextCreate trivial id fun _ => ?_
      refine calm_spec fine .contextReady trivial id fun ready => ?_
      cases ready with
      | true => exact System.Triple.pure fun s holds => holds
      | false => exact stop_spec fine _

/-- **One attempt** leaves the directory consistent, however it ends. -/
theorem create_spec (pid : Nat) :
    Spec faulty (format.toVecPretty config) (At (Fine (format.toVecPretty config)))
      (create serde scripts format pid config)
      fun _ => At (Held (Configured (format.toVecPretty config))) := by
  have marked := held_fine fun d (marked : Marked (format.toVecPretty config) d) =>
    marked.toConsistent
  have configured := held_fine fun d (configured : Configured (format.toVecPretty config) d) =>
    configured.toConsistent
  refine checks_spec.bind fun _ => (ensureOwned_spec pid).bind fun _ => ?_
  refine demand_spec .lock id (fun _ => At (Held (Marked (format.toVecPretty config))))
    (fun s reply t held performed => changed_performs (fun d marked => marked.toConsistent)
      (fun d marked => marked.toConsistent) ?_ held performed) fun _ => ?_
  · intro d d' marked is
    obtain rfl := Option.some.inj is
    exact marked.put (by simp) (by simp) _
  refine calm_spec marked .contextReady trivial id fun _ => ?_
  refine (saveConfig_spec pid).bind fun _ => (createVm_spec pid).bind fun _ =>
    (ensureContext_spec configured).bind fun _ => calm_last_spec configured .inspect trivial id

end Specs

/-! ## Whole runs -/

section Runs

variable {F : Type} (serde : Serde F) (scripts : Scripts) (format : ConfigSerde) (config : Config)

/-- Attempts with these settings, by any process. -/
abbrev Reaches (faulty : Prop) :=
  (home faulty).Reaches fun pid => (create serde scripts format pid config).run

abbrev Machine (faulty : Prop) :=
  Theory.Machine (home faulty) Nat (Except Stop Unit)

/-- The directory is missing or empty. -/
def Untouched (s : State) : Prop :=
  ∀ d, s.directory = some d → d.isEmpty = true

variable {serde scripts format config}

/-- **Whole runs.**  Attempts killed anywhere leave the directory consistent. -/
theorem reaches_fine {faulty : Prop} {start finish : Machine faulty} (idle : start.running = none)
    (untouched : Untouched start.state) (runs : Reaches serde scripts format config faulty start finish) :
    At (Fine (format.toVecPretty config)) finish.state := by
  have fine : At (Fine (format.toVecPretty config)) start.state := by
    unfold At
    cases there : start.state.directory with
    | none => trivial
    | some d => exact consistent_empty (untouched d there)
  have ended : ∀ (pid : Nat) (result : Except Stop Unit), (home faulty).Stable
      (@System.Ends Requests (home faulty) Stop Unit
        (fun _ => At (Held (Configured (format.toVecPretty config))))
        (At (Fine (format.toVecPretty config))) result) :=
    fun _ _ => home_stable _
  exact (System.reachable_safe (home_stable _) (fun s t moves => moves.elim) ended
    (fun pid s fine => create_spec pid s fine) idle fine runs).1

end Runs

end Luhmen.Host.Creation
