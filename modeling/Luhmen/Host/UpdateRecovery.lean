/-
# Host.UpdateRecovery -- what interrupted template updates leave

Attempts at `update` on a `Disk` whose requests can all fail, killed anywhere.
What the two templates hold is `Contents`; every request but the rename of
`atomicWrite` leaves them (`Resting`), and one attempt takes them through
`written`: Lima's template first, the baseline behind it.

`update_spec` is what one attempt does from any contents, `Reached` the contents
that attempts lead to from a saved template, and `update_returns` the attempt in
which nothing fails.
-/
import Mathlib.Logic.Function.Basic
import Luhmen.Host.TemplateUpdate
import Luhmen.Theory.JsonPrint

namespace Luhmen.Host.Update

open Luhmen.Theory
open Run

set_option autoImplicit false

abbrev Contents := Template → Bytes

/-- Temporary files are left by finitely many processes. -/
def Bounded (s : Disk) : Prop :=
  ∃ bound, ∀ t pid, bound ≤ pid → s.files (.temporary t pid) = none

/-- The templates hold `c`. -/
structure Resting (c : Contents) (s : Disk) : Prop where
  holds : ∀ t, s.files (.template t) = some (c t)
  bounded : Bounded s

/-! ## Requests on temporary files -/

theorem put_files (s : Disk) (path other : Path) (file : Option Bytes) :
    (s.put path file).files other = if other = path then file else s.files other := rfl

theorem put_self (s : Disk) (path : Path) (file : Option Bytes) :
    (s.put path file).files path = file :=
  if_pos rfl

theorem put_put (s : Disk) (path : Path) (first second : Option Bytes) :
    (s.put path first).put path second = s.put path second := by
  simp only [Disk.put, Disk.mk.injEq]
  funext other
  split <;> rfl

theorem bounded_put {s : Disk} (bounded : Bounded s) (path : Path) (file : Option Bytes) :
    Bounded (s.put path file) := by
  obtain ⟨bound, above⟩ := bounded
  cases path with
  | template t => exact ⟨bound, fun t' pid high => above t' pid high⟩
  | temporary t pid =>
      refine ⟨max bound (pid + 1), fun t' pid' high => ?_⟩
      have apart : pid' ≠ pid := by omega
      have free := above t' pid' (by omega)
      rw [put_files, if_neg (by simp [apart]), free]

theorem resting_put {c : Contents} {s : Disk} (resting : Resting c s) (t : Template) (pid : Nat)
    (file : Option Bytes) : Resting c (s.put (.temporary t pid) file) :=
  ⟨fun t' => resting.holds t', bounded_put resting.bounded _ _⟩

theorem resting_rename {c : Contents} {s : Disk} (resting : Resting c s) (t : Template) (pid : Nat)
    (bytes : Bytes) :
    Resting (Function.update c t bytes)
      ((s.put (.template t) (some bytes)).put (.temporary t pid) none) := by
  refine ⟨fun t' => ?_, bounded_put (bounded_put resting.bounded _ _) _ _⟩
  rw [put_files, if_neg (by simp), put_files]
  by_cases same : t' = t
  · subst same
    simp
  · rw [if_neg (by simpa using same), Function.update_of_ne same, resting.holds t']

/-- Requests that do not rename, and whose path is a temporary one. -/
def Request.Calm : Request → Prop
  | .rename _ _ => False
  | .createNew path | .writeAll path _ | .removeFile path => ∃ t pid, path = .temporary t pid
  | _ => True

theorem exec_calm {faulty : Prop} {config : Config} {request : Request} (calm : request.Calm)
    {s t : Disk} {reply : Reply request} (performed : Disk.exec faulty config request s reply t) :
    t = s ∨ ∃ template pid file, t = s.put (.temporary template pid) file := by
  cases request with
  | createNew path =>
      obtain ⟨template, pid, rfl⟩ := calm
      rcases performed with ⟨_, rfl, _⟩ | ⟨_, _, rfl⟩
      · exact .inl rfl
      · exact .inr ⟨template, pid, _, rfl⟩
  | writeAll path bytes =>
      obtain ⟨template, pid, rfl⟩ := calm
      obtain ⟨written, rfl, _⟩ := performed
      exact .inr ⟨template, pid, _, rfl⟩
  | removeFile path =>
      obtain ⟨template, pid, rfl⟩ := calm
      rcases performed with ⟨_, rfl, _⟩ | ⟨_, rfl⟩
      · exact .inl rfl
      · exact .inr ⟨template, pid, _, rfl⟩
  | rename => exact calm.elim
  | _ => exact .inl performed.1

theorem exec_resting {faulty : Prop} {config : Config} {request : Request} (calm : request.Calm)
    {c : Contents} {s t : Disk} {reply : Reply request} (resting : Resting c s)
    (performed : Disk.exec faulty config request s reply t) : Resting c t := by
  rcases exec_calm calm performed with rfl | ⟨template, pid, file, rfl⟩
  · exact resting
  · exact resting_put resting template pid file

/-! ## What one attempt does -/

section Specs

variable {faulty : Prop} {config : Config} {inv : Disk → Prop} {α β : Type}

variable (faulty config inv) in
abbrev Spec (pre : Disk → Prop) (block : Run α) (post : α → Disk → Prop)
    (failing : Disk → Prop) : Prop :=
  @System.Triple Requests (disk faulty config) inv Stop α pre block post failing

theorem disk_stable (P : Disk → Prop) : (disk faulty config).Stable P :=
  fun _ _ moves => moves.elim

/-- `?` behind a block that leaves `fallback`, and `good` where it went well. -/
theorem check_spec {block : Run (Except String Unit)} {rest : Unit → Run β}
    {pre good fallback failing : Disk → Prop} {post : β → Disk → Prop}
    (first : Spec faulty config inv pre block
      (fun outcome s => fallback s ∧ (outcome = .ok () → good s)) fallback)
    (fails : ∀ s, fallback s → failing s)
    (second : Spec faulty config inv good (rest ()) post failing) :
    Spec faulty config inv pre (block >>= fun outcome => orFail outcome >>= rest) post failing := by
  refine System.Triple.bind (first.weaken (fun _ h => h) (fun _ _ h => h) fails) fun outcome => ?_
  cases outcome with
  | ok value => exact fun s holds => second s (holds.2 rfl)
  | error message => exact fun s holds => fails s holds.1

section Contents

variable {c : Contents} (safe : ∀ s, Resting c s → inv s)
include safe

/-- A calm request leaves the contents. -/
theorem perform_spec (request : Request) (calm : request.Calm) {fact : Reply request → Prop}
    (replies : ∀ s reply t, Resting c s → Disk.exec faulty config request s reply t → fact reply) :
    Spec faulty config inv (Resting c) (perform request) (fun reply s => fact reply ∧ Resting c s)
      (Resting c) := by
  refine System.Triple.perform (disk_stable _) ?_
  intro s reply t resting performed
  have after := exec_resting calm resting performed
  exact ⟨safe t after, replies s reply t resting performed, after⟩

/-- `?` behind a calm request, with what a good reply says, and what follows. -/
theorem demand_spec (request : Request) (calm : request.Calm)
    (outcome : Reply request → Except String α) {fact : α → Prop}
    (replies : ∀ s reply t value, Resting c s → Disk.exec faulty config request s reply t →
      outcome reply = .ok value → fact value)
    {rest : α → Run β} {post : β → Disk → Prop} {failing : Disk → Prop}
    (second : ∀ value, fact value → Spec faulty config inv (Resting c) (rest value) post failing)
    (fails : ∀ s, Resting c s → failing s) :
    Spec faulty config inv (Resting c)
      (perform request >>= fun reply => orFail (outcome reply) >>= rest) post failing := by
  have performed := @perform_spec faulty config inv c safe request calm
    (fun reply => ∀ value, outcome reply = .ok value → fact value)
    fun s reply t resting exec value is => replies s reply t value resting exec is
  refine System.Triple.bind (performed.weaken (fun _ h => h) (fun _ _ h => h) fails) fun reply => ?_
  refine System.Triple.assume (fun s holds => holds.1) fun good => ?_
  cases is : outcome reply with
  | ok value => exact fun s holds => second value (good value is) s holds.2
  | error message => exact fun s holds => fails s holds.2

/-- ... where the reply is only that it went well. -/
theorem pass_spec (request : Request) (calm : request.Calm)
    (outcome : Reply request → Except String Unit)
    {rest : Unit → Run β} {post : β → Disk → Prop} {failing : Disk → Prop}
    (second : Spec faulty config inv (Resting c) (rest ()) post failing)
    (fails : ∀ s, Resting c s → failing s) :
    Spec faulty config inv (Resting c)
      (perform request >>= fun reply => orFail (outcome reply) >>= rest) post failing :=
  @demand_spec faulty config inv Unit β c safe request calm outcome (fun _ => True)
    (fun _ _ _ _ _ _ _ => trivial) rest post failing (fun _ _ => second) fails

/-- ... as the last request of a block. -/
theorem last_spec (request : Request) (calm : request.Calm)
    (outcome : Reply request → Except String Unit) :
    Spec faulty config inv (Resting c) (perform request >>= fun reply => orFail (outcome reply))
      (fun _ => Resting c) (Resting c) := by
  refine System.Triple.bind (@perform_spec faulty config inv c safe request calm (fun _ => True)
    fun _ _ _ _ _ => trivial) fun reply => ?_
  cases outcome reply with
  | ok value => exact fun s holds => holds.2
  | error message => exact fun s holds => holds.2

variable {F : Type} {serde : Serde F}

/-- Reading a template gives what its bytes parse to. -/
theorem readVmTemplate_spec (t : Template) :
    Spec faulty config inv (Resting c) (readVmTemplate serde t)
      (fun v s => parseTemplate serde t (c t) = .ok v ∧ Resting c s) (Resting c) := by
  refine @demand_spec faulty config inv _ _ c safe (.read t) trivial id (fun bytes => bytes = c t)
    ?_ _ _ _ ?_ fun s resting => resting
  · rintro s reply t' bytes resting ⟨rfl, ⟨_, message, rfl⟩ | ⟨found, there, rfl⟩⟩ is
    · cases is
    · cases is
      exact Option.some.inj (there.symm.trans (resting.holds t))
  · rintro bytes rfl
    exact System.Triple.ofExcept (fun v is s resting => ⟨is, resting⟩) fun s resting => resting

theorem requireStopped_spec :
    Spec faulty config inv (Resting c) requireStoppedForUpdate (fun _ => Resting c) (Resting c) := by
  refine @demand_spec faulty config inv _ _ c safe .vm trivial id (fun _ => True)
    (fun _ _ _ _ _ _ _ => trivial) _ _ _ ?_ fun s resting => resting
  rintro (_ | status) -
  · exact System.Triple.throw fun s resting => resting
  · dsimp only
    split
    · exact System.Triple.pure fun s resting => resting
    · exact System.Triple.throw fun s resting => resting

theorem validate_spec (bytes : Bytes) :
    Spec faulty config inv (Resting c) (validate bytes) (fun _ => Resting c) (Resting c) := by
  refine pass_spec safe .stageCreate trivial id ?_ fun s resting => resting
  refine pass_spec safe (.stageWrite bytes) trivial id ?_ fun s resting => resting
  refine pass_spec safe .stageSync trivial id ?_ fun s resting => resting
  exact last_spec safe .validate trivial id

theorem unchanged_spec [DecidableEq F] (actual baseline : Json F) (config' : Config) :
    Spec faulty config inv (Resting c) (unchanged serde actual baseline config')
      (fun _ => Resting c) (Resting c) := by
  refine System.Triple.bind (readVmTemplate_spec safe .actual) fun now => ?_
  refine System.Triple.weaken (fun s holds => holds.2) ?_ (fun _ _ h => h) fun _ h => h
  split
  · exact System.Triple.throw fun s resting => resting
  refine System.Triple.bind (readVmTemplate_spec safe .baseline) fun now => ?_
  refine System.Triple.weaken (fun s holds => holds.2) ?_ (fun _ _ h => h) fun _ h => h
  split
  · exact System.Triple.throw fun s resting => resting
  refine @demand_spec faulty config inv _ _ c safe .config trivial id (fun _ => True)
    (fun _ _ _ _ _ _ _ => trivial) _ _ _ ?_ fun s resting => resting
  intro now _
  split
  · exact System.Triple.throw fun s resting => resting
  · exact System.Triple.pure fun s resting => resting

/-! ## Writing -/

/-- The contents before the write of a template, or behind it. -/
def Around (c : Contents) (t : Template) (bytes : Bytes) (s : Disk) : Prop :=
  Resting c s ∨ Resting (Function.update c t bytes) s

variable {t : Template} {bytes : Bytes} {pid : Nat}
  (after : ∀ s, Resting (Function.update c t bytes) s → inv s)
include after

/-- A temporary file with these bytes next to the contents. -/
def Staged (c : Contents) (t : Template) (pid : Nat) (bytes : Bytes) (s : Disk) : Prop :=
  Resting c s ∧ s.files (.temporary t pid) = some bytes

theorem publish_spec :
    Spec faulty config inv (Resting c) (publish (.temporary t pid) (.template t) bytes)
      (fun _ => Resting (Function.update c t bytes)) (Around c t bytes) := by
  have written : Spec faulty config inv (Resting c)
      (perform (.writeAll (.temporary t pid) bytes))
      (fun reply s => Resting c s ∧ (reply = .ok () → Staged c t pid bytes s)) (Resting c) := by
    refine System.Triple.perform (disk_stable _) ?_
    rintro s reply u resting ⟨contents, rfl, whole, _⟩
    have kept := resting_put resting t pid (some contents)
    refine ⟨safe _ kept, kept, fun ok => ⟨kept, ?_⟩⟩
    rw [put_self, whole ok]
  have synced : Spec faulty config inv (Staged c t pid bytes) (perform (.syncAll (.temporary t pid)))
      (fun reply s => Staged c t pid bytes s ∧ (reply = .ok () → Staged c t pid bytes s))
      (Staged c t pid bytes) := by
    refine System.Triple.perform (disk_stable _) ?_
    rintro s reply u staged ⟨rfl, _⟩
    exact ⟨safe u staged.1, staged, fun _ => staged⟩
  have renamed : Spec faulty config inv (Staged c t pid bytes)
      (perform (.rename (.temporary t pid) (.template t)))
      (fun reply s => Around c t bytes s ∧ (reply = .ok () → Resting (Function.update c t bytes) s))
      (Around c t bytes) := by
    refine System.Triple.perform (disk_stable _) ?_
    rintro s reply u staged (⟨_, rfl, message, rfl⟩ | ⟨rfl, found, there, rfl⟩)
    · exact ⟨safe u staged.1, .inl staged.1, fun ok => by cases ok⟩
    · cases there.symm.trans staged.2
      have moved := resting_rename staged.1 t pid bytes
      exact ⟨after _ moved, .inr moved, fun _ => moved⟩
  refine pass_spec safe (.createNew _) ⟨t, pid, rfl⟩ id ?_ fun s resting => .inl resting
  refine check_spec written (fun _ => .inl) ?_
  refine check_spec synced (fun s staged => .inl staged.1) ?_
  refine check_spec renamed (fun _ around => around) ?_
  exact (last_spec after .syncDirectory trivial id).weaken (fun _ h => h) (fun _ _ h => h)
    fun _ => .inr

/-- All or nothing on the template, and an error may come behind the rename. -/
theorem atomicWrite_spec :
    Spec faulty config inv (Resting c) (atomicWrite pid t bytes)
      (fun _ => Resting (Function.update c t bytes)) (Around c t bytes) := by
  have published : Spec faulty config inv (Resting c)
      (attempt (publish (.temporary t pid) (.template t) bytes))
      (fun result s => match result with
        | .ok _ => Resting (Function.update c t bytes) s
        | .error _ => Around c t bytes s) (Around c t bytes) :=
    System.Triple.attempt (publish_spec safe after) fun _ _ around => around
  refine published.bind ?_
  rintro (stop | ⟨⟨⟩⟩)
  · have removed : Spec faulty config inv (Around c t bytes)
        (perform (.removeFile (.temporary t pid))) (fun _ => Around c t bytes)
        (Around c t bytes) := by
      refine System.Triple.perform (disk_stable _) ?_
      rintro s reply u (resting | resting) performed
      · have kept : Resting c u :=
          @exec_resting faulty config (.removeFile _) ⟨t, pid, rfl⟩ _ _ _ _ resting performed
        exact ⟨safe u kept, .inl kept⟩
      · have kept : Resting (Function.update c t bytes) u :=
          @exec_resting faulty config (.removeFile _) ⟨t, pid, rfl⟩ _ _ _ _ resting performed
        exact ⟨after u kept, .inr kept⟩
    exact removed.bind fun _ => System.Triple.throw fun s around => around
  · exact System.Triple.pure fun s resting => resting


end Contents

/-! ## One attempt -/

section Attempt

variable {F : Type} [DecidableEq F]

/-- `writeChanged`, on contents. -/
def step (c : Contents) (t : Template) (current next : Json F) (bytes : Bytes) : Contents :=
  if current ≠ next then Function.update c t bytes else c

/-- What an attempt that goes through leaves. -/
def written (c : Contents) (actual baseline next : Json F) (bytes : Bytes) : Contents :=
  step (step c .actual actual next bytes) .baseline baseline next bytes

theorem writeChanged_spec {c : Contents} {t : Template} {current next : Json F} {bytes : Bytes}
    {pid : Nat} (safe : ∀ s, Resting c s → inv s)
    (after : ∀ s, Resting (step c t current next bytes) s → inv s) :
    Spec faulty config inv (Resting c) (writeChanged pid t current next bytes)
      (fun _ => Resting (step c t current next bytes)) inv := by
  unfold writeChanged step at *
  split
  · rename_i changed
    rw [if_pos changed] at after
    refine (atomicWrite_spec safe after).weaken (fun _ h => h) (fun _ _ h => h) ?_
    rintro s (resting | resting)
    · exact safe s resting
    · exact after s resting
  · exact System.Triple.pure fun s resting => resting

variable {serde : Serde F} {scripts : Scripts} {c : Contents} {actual baseline next : Json F}
  {pid : Nat}

theorem refresh_spec (safe : ∀ s, Resting c s → inv s)
    (between : ∀ s, Resting (step c .actual actual next (serde.toVecPretty next)) s → inv s)
    (after : ∀ s, Resting (written c actual baseline next (serde.toVecPretty next)) s → inv s)
    (config' : Config) :
    Spec faulty config inv (Resting c) (refresh serde pid config' actual baseline next)
      (fun _ => Resting (written c actual baseline next (serde.toVecPretty next))) inv := by
  have second : Spec faulty config inv
      (Resting (step c .actual actual next (serde.toVecPretty next)))
      (attempt (writeChanged pid .baseline baseline next (serde.toVecPretty next)))
      (fun result s => match result with
        | .ok _ => Resting (written c actual baseline next (serde.toVecPretty next)) s
        | .error _ => inv s) inv :=
    System.Triple.attempt (writeChanged_spec between after) fun _ _ h => h
  refine System.Triple.bind ((validate_spec safe _).weaken (fun _ h => h) (fun _ _ h => h) safe)
    fun _ => ?_
  refine pass_spec safe .checkStatePaths trivial id ?_ safe
  refine System.Triple.bind ((unchanged_spec safe actual baseline config').weaken (fun _ h => h)
    (fun _ _ h => h) safe) fun _ => ?_
  refine System.Triple.bind ((requireStopped_spec safe).weaken (fun _ h => h) (fun _ _ h => h) safe)
    fun _ => ?_
  refine (writeChanged_spec safe between).bind fun _ => second.bind ?_
  rintro (stop | ⟨⟨⟩⟩)
  · exact System.Triple.throw fun s kept => kept
  · exact System.Triple.pure fun s resting => resting

theorem checkFields_spec {P : Disk → Prop} (safe : ∀ s, P s → inv s) (current : Json F)
    (names : List String) :
    Spec faulty config inv P (checkFields baseline current names) (fun _ => P) inv := by
  induction names with
  | nil => exact System.Triple.pure fun s holds => holds
  | cons field rest ih =>
      unfold checkFields
      split
      · exact ih
      · exact System.Triple.throw safe

/-- The report of an attempt that goes through. -/
def report (actual baseline next : Json F) : ProvisionUpdate :=
  ⟨1, "luhmen", "Stopped", decide (actual ≠ next ∨ baseline ≠ next)⟩

theorem written_same {bytes : Bytes} (same : ¬ (actual ≠ next ∨ baseline ≠ next)) :
    written c actual baseline next bytes = c := by
  simp only [ne_eq, not_or, not_not] at same
  simp [written, step, same]

theorem apply_spec {current : Json F} (safe : ∀ s, Resting c s → inv s)
    (goes : actual = baseline ∨ actual = candidate baseline current →
      (∀ s, Resting (step c .actual actual (candidate baseline current)
        (serde.toVecPretty (candidate baseline current))) s → inv s) ∧
      ∀ s, Resting (written c actual baseline (candidate baseline current)
        (serde.toVecPretty (candidate baseline current))) s → inv s)
    (config' : Config) :
    Spec faulty config inv (Resting c) (apply serde pid config' actual baseline current)
      (fun result s => (actual = baseline ∨ actual = candidate baseline current) ∧
        Resting (written c actual baseline (candidate baseline current)
          (serde.toVecPretty (candidate baseline current))) s ∧
        result = report actual baseline (candidate baseline current)) inv := by
  refine (checkFields_spec safe current fields).bind fun _ => ?_
  split
  · exact System.Triple.throw safe
  dsimp only
  split
  · exact System.Triple.throw safe
  rename_i allowed
  have fits : actual = baseline ∨ actual = candidate baseline current := by
    by_cases same : actual = baseline
    · exact .inl same
    · exact .inr (by_contra fun differs => allowed ⟨same, differs⟩)
  obtain ⟨between, after⟩ := goes fits
  split
  · refine (refresh_spec safe between after config').bind fun _ => ?_
    exact System.Triple.pure fun s resting => ⟨fits, resting, rfl⟩
  · rename_i same
    refine System.Triple.pure fun s resting => ⟨fits, ?_, rfl⟩
    rw [written_same (by simpa using same)]
    exact resting

/-- The candidate for a baseline. -/
abbrev renewed (scripts : Scripts) (config : Config) (baseline : Json F) : Json F :=
  candidate baseline (VmTemplate.document scripts config)

/-- **One attempt.**  It goes through only where both templates parse and Lima's is the
baseline or the candidate, and then leaves what was to be written. -/
theorem update_spec
    (printed : serde.fromSlice (serde.toVecPretty (VmTemplate.document scripts config)) =
      some (VmTemplate.document scripts config))
    (safe : ∀ s, Resting c s → inv s)
    (goes : ∀ actual baseline, parseTemplate serde .actual (c .actual) = .ok actual →
      parseTemplate serde .baseline (c .baseline) = .ok baseline →
      actual = baseline ∨ actual = renewed scripts config baseline →
      (∀ s, Resting (step c .actual actual (renewed scripts config baseline)
        (serde.toVecPretty (renewed scripts config baseline))) s → inv s) ∧
      ∀ s, Resting (written c actual baseline (renewed scripts config baseline)
        (serde.toVecPretty (renewed scripts config baseline))) s → inv s) :
    Spec faulty config inv (Resting c) (update serde scripts pid)
      (fun result s => ∃ actual baseline, parseTemplate serde .actual (c .actual) = .ok actual ∧
        parseTemplate serde .baseline (c .baseline) = .ok baseline ∧
        (actual = baseline ∨ actual = renewed scripts config baseline) ∧
        Resting (written c actual baseline (renewed scripts config baseline)
          (serde.toVecPretty (renewed scripts config baseline))) s ∧
        result = report actual baseline (renewed scripts config baseline))
      inv := by
  refine pass_spec safe .ensureOwned trivial id ?_ safe
  refine pass_spec safe .lock trivial id ?_ safe
  refine pass_spec safe .checkLima trivial id ?_ safe
  refine System.Triple.bind ((requireStopped_spec safe).weaken (fun _ h => h) (fun _ _ h => h) safe)
    fun _ => ?_
  refine @demand_spec faulty config inv _ _ c safe .config trivial id (fun read => config = read)
    ?_ _ _ _ ?_ safe
  · rintro s reply t read - ⟨rfl, ⟨_, message, rfl⟩ | rfl⟩ is
    · cases is
    · exact Except.ok.inj is
  rintro _ rfl
  refine System.Triple.bind ((readVmTemplate_spec safe .baseline).weaken (fun _ h => h)
    (fun _ _ h => h) safe) fun baseline => ?_
  refine System.Triple.assume (fun s holds => holds.1) fun baselineRead => ?_
  refine System.Triple.weaken (fun s holds => holds.2) ?_ (fun _ _ h => h) fun _ h => h
  refine System.Triple.bind ((readVmTemplate_spec safe .actual).weaken (fun _ h => h)
    (fun _ _ h => h) safe) fun actual => ?_
  refine System.Triple.assume (fun s holds => holds.1) fun actualRead => ?_
  refine System.Triple.weaken (fun s holds => holds.2) ?_ (fun _ _ h => h) fun _ h => h
  have current : Spec faulty config inv (Resting c) (rendered serde scripts config)
      (fun current s => current = VmTemplate.document scripts config ∧ Resting c s) inv := by
    unfold rendered
    rw [printed]
    exact System.Triple.pure fun s resting => ⟨rfl, resting⟩
  refine current.bind fun current => ?_
  refine System.Triple.assume (fun s holds => holds.1) ?_
  rintro rfl
  refine System.Triple.weaken (fun s holds => holds.2)
    (apply_spec safe (goes actual baseline actualRead baselineRead) config) ?_ fun _ h => h
  rintro result s ⟨fits, resting, is⟩
  exact ⟨actual, baseline, actualRead, baselineRead, fits, resting, is⟩

end Attempt

end Specs

/-! ## An attempt in which nothing fails -/

section Returns

variable {faulty : Prop} {config : Config} {α β : Type}

theorem performs (request : Request) (reply : Reply request) {s t : Disk}
    (performed : Disk.exec faulty config request s reply t) :
    (disk faulty config).Returns (perform request) s reply t :=
  @System.Returns.perform Requests (disk faulty config) Stop request s t reply performed

/-- `?` behind a request that succeeds. -/
theorem demand_returns {block : Run (Except String α)} {rest : α → Run β} {s t u : Disk}
    {middle : α} {value : β} (first : (disk faulty config).Returns block s (.ok middle) t)
    (second : (disk faulty config).Returns (rest middle) t value u) :
    (disk faulty config).Returns (block >>= fun outcome => orFail outcome >>= rest) s value u :=
  first.bind (System.Returns.pure.bind second)

theorem demand_last_returns {block : Run (Except String α)} {s t : Disk} {value : α}
    (first : (disk faulty config).Returns block s (.ok value) t) :
    (disk faulty config).Returns (block >>= fun outcome => orFail outcome) s value t :=
  first.bind .pure

theorem passes (s : Disk) : s = s ∧ Disk.Passes faulty () (.ok ()) :=
  ⟨rfl, .inr rfl⟩

theorem requireStopped_returns (s : Disk) :
    (disk faulty config).Returns requireStoppedForUpdate s () s := by
  refine demand_returns (performs .vm (.ok (some (some "Stopped"))) ⟨rfl, .inr rfl⟩) ?_
  dsimp only
  rw [if_pos rfl]
  exact .pure

theorem config_returns (s : Disk) :
    (disk faulty config).Returns (perform .config) s (.ok config) s :=
  performs .config (.ok config) ⟨rfl, .inr rfl⟩

theorem publish_returns {s : Disk} {t : Template} {pid : Nat}
    (free : s.files (.temporary t pid) = none) (bytes : Bytes) :
    (disk faulty config).Returns (publish (.temporary t pid) (.template t) bytes) s ()
      (s.put (.template t) (some bytes)) := by
  have created : (disk faulty config).Returns (perform (.createNew (.temporary t pid))) s (.ok ())
      (s.put (.temporary t pid) (some [])) :=
    performs (.createNew _) (.ok ()) (.inr ⟨rfl, free, rfl⟩)
  have written : (disk faulty config).Returns (perform (.writeAll (.temporary t pid) bytes))
      (s.put (.temporary t pid) (some [])) (.ok ()) (s.put (.temporary t pid) (some bytes)) :=
    performs (.writeAll _ _) (.ok ()) ⟨bytes, (put_put s _ _ _).symm, fun _ => rfl, .inr rfl⟩
  have emptied : s.put (.template t) (some bytes) =
      ((s.put (.temporary t pid) (some bytes)).put (.template t) (some bytes)).put
        (.temporary t pid) none := by
    simp only [Disk.put, Disk.mk.injEq]
    funext other
    by_cases same : other = .temporary t pid
    · subst same
      simpa using free
    · simp only [same, if_false]
  have renamed : (disk faulty config).Returns (perform (.rename (.temporary t pid) (.template t)))
      (s.put (.temporary t pid) (some bytes)) (.ok ()) (s.put (.template t) (some bytes)) :=
    performs (.rename _ _) (.ok ()) (.inr ⟨rfl, bytes, put_self _ _ _, emptied⟩)
  exact demand_returns created (demand_returns written (demand_returns
    (performs (.syncAll _) (.ok ()) (passes _)) (demand_returns renamed
      (demand_last_returns (performs .syncDirectory (.ok ()) (passes _))))))

theorem demand_leads {block : Run (Except String α)} {rest : α → Run β} {s t : Disk} {middle : α}
    (first : (disk faulty config).Returns block s (.ok middle) t) :
    (disk faulty config).Leads ((block >>= fun outcome => orFail outcome >>= rest).run, s)
      ((rest middle).run, t) :=
  first.leads

variable {F : Type} {serde : Serde F} {scripts : Scripts}

theorem readVmTemplate_returns {c : Contents} {s : Disk} {v : Json F} (t : Template)
    (resting : Resting c s) (parses : parseTemplate serde t (c t) = .ok v) :
    (disk faulty config).Returns (readVmTemplate serde t) s v s :=
  demand_returns (performs (.read t) (.ok (c t)) ⟨rfl, .inr ⟨c t, resting.holds t, rfl⟩⟩)
    (.ofExcept parses)

/-- The names of the temporary files of a process are free. -/
def Free (pid : Nat) (s : Disk) : Prop :=
  ∀ t, s.files (.temporary t pid) = none

theorem free_template {pid : Nat} {s : Disk} (free : Free pid s) (t : Template)
    (file : Option Bytes) : Free pid (s.put (.template t) file) :=
  fun t' => free t'

theorem resting_template {c : Contents} {s : Disk} (resting : Resting c s) (t : Template)
    (bytes : Bytes) : Resting (Function.update c t bytes) (s.put (.template t) (some bytes)) := by
  refine ⟨fun t' => ?_, bounded_put resting.bounded _ _⟩
  rw [put_files]
  by_cases same : t' = t
  · subst same
    simp
  · rw [if_neg (by simpa using same), Function.update_of_ne same, resting.holds t']

variable [DecidableEq F]

theorem writeChanged_returns {c : Contents} {s : Disk} {pid : Nat} (resting : Resting c s)
    (free : Free pid s) (t : Template) (current next : Json F) (bytes : Bytes) :
    ∃ u, (disk faulty config).Returns (writeChanged pid t current next bytes) s () u ∧
      Resting (step c t current next bytes) u ∧ Free pid u := by
  unfold writeChanged step
  split
  · refine ⟨_, ?_, resting_template resting t bytes, free_template free t _⟩
    exact .bind (.attempt (publish_returns (free t) bytes)) .pure
  · exact ⟨s, .pure, resting, free⟩

variable {c : Contents} {actual baseline : Json F}

theorem validate_returns (bytes : Bytes) (s : Disk) :
    (disk faulty config).Returns (validate bytes) s () s :=
  demand_returns (performs .stageCreate (.ok ()) (passes _)) (demand_returns
    (performs (.stageWrite _) (.ok ()) (passes _)) (demand_returns
      (performs .stageSync (.ok ()) (passes _)) (demand_last_returns
        (performs .validate (.ok ()) (passes _)))))

theorem unchanged_returns {s : Disk} (resting : Resting c s)
    (actualRead : parseTemplate serde .actual (c .actual) = .ok actual)
    (baselineRead : parseTemplate serde .baseline (c .baseline) = .ok baseline) :
    (disk faulty config).Returns (unchanged serde actual baseline config) s () s := by
  refine (readVmTemplate_returns .actual resting actualRead).bind ?_
  rw [if_neg fun differs => differs rfl]
  refine (readVmTemplate_returns .baseline resting baselineRead).bind ?_
  rw [if_neg fun differs => differs rfl]
  refine demand_returns (config_returns s) ?_
  rw [if_neg fun differs => differs rfl]
  exact .pure

theorem checkFields_returns {current : Json F} {names : List String}
    (agrees : ∀ field ∈ names, baseline.get field = current.get field) (s : Disk) :
    (disk faulty config).Returns (checkFields baseline current names) s () s := by
  induction names with
  | nil => exact .pure
  | cons field rest ih =>
      unfold checkFields
      rw [if_pos (agrees field List.mem_cons_self)]
      exact ih fun other member => agrees other (List.mem_cons_of_mem _ member)

/-- What the checks of an attempt ask of the templates. -/
structure Acceptable (serde : Serde F) (scripts : Scripts) (config : Config) (c : Contents)
    (actual baseline : Json F) : Prop where
  printed : serde.fromSlice (serde.toVecPretty (VmTemplate.document scripts config)) =
    some (VmTemplate.document scripts config)
  actualRead : parseTemplate serde .actual (c .actual) = .ok actual
  baselineRead : parseTemplate serde .baseline (c .baseline) = .ok baseline
  agrees : ∀ field ∈ fields, baseline.get field = (VmTemplate.document scripts config).get field
  nested : (baseline.get "nestedVirtualization").asBool.getD false = config.nestedVirtualization
  fits : actual = baseline ∨ actual = renewed scripts config baseline

section Acceptable

variable {s : Disk} {pid : Nat} (resting : Resting c s)
  (acceptable : Acceptable serde scripts config c actual baseline)
include resting acceptable

/-- An attempt whose reads go well gets to what is left to do. -/
theorem update_leads :
    (disk faulty config).Leads ((update serde scripts pid).run, s)
      ((apply serde pid config actual baseline (VmTemplate.document scripts config)).run, s) := by
  refine (demand_leads (performs .ensureOwned (.ok ()) (passes s))).trans ?_
  refine (demand_leads (performs .lock (.ok ()) (passes s))).trans ?_
  refine (demand_leads (performs .checkLima (.ok ()) (passes s))).trans ?_
  refine (requireStopped_returns s).leads.trans ?_
  refine (demand_leads (config_returns s)).trans ?_
  refine (readVmTemplate_returns .baseline resting acceptable.baselineRead).leads.trans ?_
  refine (readVmTemplate_returns .actual resting acceptable.actualRead).leads.trans ?_
  have current : (disk faulty config).Returns (rendered serde scripts config) s
      (VmTemplate.document scripts config) s := by
    unfold rendered
    rw [acceptable.printed]
    exact .pure
  exact current.leads

omit resting in
/-- ... which is to write what differs. -/
theorem apply_leads :
    (disk faulty config).Leads
      ((apply serde pid config actual baseline (VmTemplate.document scripts config)).run, s)
      ((if actual ≠ renewed scripts config baseline ∨ baseline ≠ renewed scripts config baseline then
          refresh serde pid config actual baseline (renewed scripts config baseline) >>= fun _ =>
            pure (report actual baseline (renewed scripts config baseline))
        else pure (report actual baseline (renewed scripts config baseline)) :
          Run ProvisionUpdate).run, s) := by
  refine (checkFields_returns acceptable.agrees s).leads.trans ?_
  rw [if_neg fun differs => differs acceptable.nested]
  dsimp only
  rw [if_neg fun both => acceptable.fits.elim both.1 both.2]
  simp only [decide_eq_true_eq]
  exact .refl

/-- A refresh gets to where Lima's template is written and the baseline is not. -/
theorem refresh_leads (free : Free pid s) (next : Json F) :
    ∃ u, (disk faulty config).Leads ((refresh serde pid config actual baseline next).run, s)
      ((attempt (writeChanged pid .baseline baseline next (serde.toVecPretty next)) >>=
        baselineContext).run, u) ∧
      Resting (step c .actual actual next (serde.toVecPretty next)) u ∧ Free pid u := by
  obtain ⟨u, wrote, after, free'⟩ := @writeChanged_returns faulty config F _ c s pid resting free
    .actual actual next (serde.toVecPretty next)
  refine ⟨u, ?_, after, free'⟩
  refine (validate_returns _ s).leads.trans ?_
  refine (demand_leads (performs .checkStatePaths (.ok ()) (passes s))).trans ?_
  refine (unchanged_returns resting acceptable.actualRead acceptable.baselineRead).leads.trans ?_
  refine (requireStopped_returns s).leads.trans ?_
  exact wrote.leads

/-- The attempt in which nothing fails. -/
theorem update_returns (free : Free pid s) :
    ∃ u, (disk faulty config).Returns (update serde scripts pid) s
      (report actual baseline (renewed scripts config baseline)) u := by
  have start := (@update_leads faulty config F serde scripts _ c actual baseline s pid resting
    acceptable).trans (apply_leads acceptable)
  split at start
  · obtain ⟨u, refreshes, after, free'⟩ := @refresh_leads faulty config F serde scripts _ c actual
      baseline s pid resting acceptable free (renewed scripts config baseline)
    obtain ⟨v, wrote, _, _⟩ := @writeChanged_returns faulty config F _ _ u pid after free' .baseline
      baseline (renewed scripts config baseline) (serde.toVecPretty (renewed scripts config baseline))
    have refreshed : (disk faulty config).Returns (refresh serde pid config actual baseline
        (renewed scripts config baseline)) s () v :=
      refreshes.trans (System.Returns.bind (System.Returns.attempt wrote) .pure)
    exact ⟨v, start.trans (refreshed.bind .pure)⟩
  · exact ⟨s, start⟩

/-- An attempt that has something to write gets to where only Lima's template is written. -/
theorem update_leads_between (free : Free pid s)
    (updated : actual ≠ renewed scripts config baseline ∨ baseline ≠ renewed scripts config baseline) :
    ∃ rest u, (disk faulty config).Leads ((update serde scripts pid).run, s) (rest, u) ∧
      Resting (step c .actual actual (renewed scripts config baseline)
        (serde.toVecPretty (renewed scripts config baseline))) u := by
  have start := (@update_leads faulty config F serde scripts _ c actual baseline s pid resting
    acceptable).trans (apply_leads acceptable)
  rw [if_pos updated] at start
  obtain ⟨u, refreshes, after, _⟩ := @refresh_leads faulty config F serde scripts _ c actual
    baseline s pid resting acceptable free (renewed scripts config baseline)
  exact ⟨_, u, start.trans (System.Leads.bind refreshes), after⟩

end Acceptable

end Returns

/-! ## Whole runs -/

section Recovery

variable {F : Type} (serde : Serde F) (scripts : Scripts) (config : Config)

/-- The attempts of a process id, on a stopped VM. -/
abbrev Machine (faulty : Prop) (config : Config) :=
  Theory.Machine (disk faulty config) Nat (Except Stop ProvisionUpdate)

abbrev Reaches [DecidableEq F] (faulty : Prop) :=
  (disk faulty config).Reaches fun pid => (update serde scripts pid).run

/-- The templates of a VM nobody updates. -/
def saved (c : Contents) : Disk where
  files := fun path =>
    match path with
    | .template t => some (c t)
    | .temporary _ _ => none

/-- What a template says, as a JSON document. -/
def value (s : Disk) (t : Template) : Option (Json F) :=
  (s.files (.template t)).bind serde.fromSlice

variable (B : Json F) (first : Contents)

/-- A saved template that agrees with the creation settings, in both places; and the JSON
library reads back the rendered one it printed. -/
structure Saved : Prop where
  reads : ∀ t, parseTemplate serde t (first t) = .ok B
  agrees : ∀ field ∈ fields, B.get field = (VmTemplate.document scripts config).get field
  nested : (B.get "nestedVirtualization").asBool.getD false = config.nestedVirtualization
  printed : serde.fromSlice (serde.toVecPretty (VmTemplate.document scripts config)) =
    some (VmTemplate.document scripts config)

/-- The text of the renewed template. -/
abbrev renewedText : Bytes :=
  serde.toVecPretty (renewed scripts config B)

/-- If there is something to renew, its text says what it was printed from. -/
def Rereads : Prop :=
  B ≠ renewed scripts config B →
    serde.fromSlice (renewedText serde scripts config B) = some (renewed scripts config B)

/-- The contents that attempts lead to. -/
def Reached (c : Contents) : Prop :=
  c = first ∨ (B ≠ renewed scripts config B ∧
    (c = Function.update first .actual (renewedText serde scripts config B) ∨
      c = Function.update (Function.update first .actual (renewedText serde scripts config B))
        .baseline (renewedText serde scripts config B)))

variable {serde scripts config B first}

theorem parse_ok {t : Template} {bytes : Bytes} {v : Json F}
    (ok : parseTemplate serde t bytes = .ok v) :
    bytes.length ≤ templateLimit ∧ serde.fromSlice bytes = some v ∧ v.isObject = true := by
  unfold parseTemplate at ok
  split at ok
  · cases ok
  · rename_i short
    split at ok
    · cases ok
    · rename_i document read
      split at ok
      · rename_i shape
        cases ok
        exact ⟨Nat.le_of_not_lt short, read, shape.1⟩
      · cases ok

theorem renewed_provision (object : B.isObject = true) :
    (renewed scripts config B).get "provision" =
      .array (VmTemplate.provision scripts config) := by
  rw [renewed, candidate, Json.get_set object, if_pos rfl, VmTemplate.document_provision]

theorem renewed_get (object : B.isObject = true) {field : String} (other : field ≠ "provision") :
    (renewed scripts config B).get field = B.get field := by
  rw [renewed, candidate, Json.get_set object, if_neg other.symm]

theorem renewed_renewed :
    renewed scripts config (renewed scripts config B) = renewed scripts config B :=
  Json.set_set B _ _

namespace Saved

variable (start : Saved serde scripts config B first)
include start

theorem object : B.isObject = true :=
  (parse_ok (start.reads .actual)).2.2

/-- The renewed template is read as itself, unless it is too long. -/
theorem parse_renewed (rereads : Rereads serde scripts config B)
    (differs : B ≠ renewed scripts config B) (t : Template) :
    parseTemplate serde t (renewedText serde scripts config B) =
      if templateLimit < (renewedText serde scripts config B).length then
        .error (.refused "VM template exceeds 1 MiB")
      else .ok (renewed scripts config B) := by
  have shape : (renewed scripts config B).isObject = true ∧
      ((renewed scripts config B).get "provision").isArray = true := by
    constructor
    · rw [renewed, candidate, Json.isObject_set]
      exact start.object
    · rw [renewed_provision start.object]
      rfl
  unfold parseTemplate
  split
  · rfl
  · rw [rereads differs]
    dsimp only
    rw [if_pos shape]

/-- What an attempt reads, by what the templates hold. -/
theorem reads_reached (rereads : Rereads serde scripts config B) {c : Contents}
    (reached : Reached serde scripts config B first c)
    {actual baseline : Json F} (actualRead : parseTemplate serde .actual (c .actual) = .ok actual)
    (baselineRead : parseTemplate serde .baseline (c .baseline) = .ok baseline) :
    (c = first ∧ actual = B ∧ baseline = B) ∨
    (B ≠ renewed scripts config B ∧
      c = Function.update first .actual (renewedText serde scripts config B) ∧
      actual = renewed scripts config B ∧ baseline = B) ∨
    (B ≠ renewed scripts config B ∧
      c = Function.update (Function.update first .actual (renewedText serde scripts config B))
        .baseline (renewedText serde scripts config B) ∧
      actual = renewed scripts config B ∧ baseline = renewed scripts config B) := by
  have renewedRead : ∀ {t : Template} {v : Json F}, B ≠ renewed scripts config B →
      parseTemplate serde t (renewedText serde scripts config B) = .ok v →
      v = renewed scripts config B := fun differs ok =>
    Option.some.inj ((parse_ok ok).2.1.symm.trans (rereads differs))
  rcases reached with rfl | ⟨differs, rfl | rfl⟩
  · rw [start.reads] at actualRead baselineRead
    exact .inl ⟨rfl, (Except.ok.inj actualRead).symm, (Except.ok.inj baselineRead).symm⟩
  · rw [Function.update_self] at actualRead
    rw [Function.update_of_ne (by simp), start.reads] at baselineRead
    exact .inr (.inl ⟨differs, rfl, renewedRead differs actualRead,
      (Except.ok.inj baselineRead).symm⟩)
  · rw [Function.update_of_ne (by simp), Function.update_self] at actualRead
    rw [Function.update_self] at baselineRead
    exact .inr (.inr ⟨differs, rfl, renewedRead differs actualRead,
      renewedRead differs baselineRead⟩)

/-- Attempts stay among the contents they lead to. -/
theorem reached_goes [DecidableEq F] (rereads : Rereads serde scripts config B) {c : Contents}
    (reached : Reached serde scripts config B first c)
    {actual baseline : Json F} (actualRead : parseTemplate serde .actual (c .actual) = .ok actual)
    (baselineRead : parseTemplate serde .baseline (c .baseline) = .ok baseline) :
    Reached serde scripts config B first (step c .actual actual (renewed scripts config baseline)
      (serde.toVecPretty (renewed scripts config baseline))) ∧
    Reached serde scripts config B first (written c actual baseline
      (renewed scripts config baseline) (serde.toVecPretty (renewed scripts config baseline))) := by
  rcases start.reads_reached rereads reached actualRead baselineRead with
    ⟨is, actualIs, baselineIs⟩ | ⟨differs, is, actualIs, baselineIs⟩ |
      ⟨differs, is, actualIs, baselineIs⟩
  · rw [actualIs, baselineIs, is]
    by_cases same : B = renewed scripts config B
    · simp only [written, step, ne_eq, ← same, not_true_eq_false, if_false]
      exact ⟨.inl rfl, .inl rfl⟩
    · simp only [written, step, ne_eq, same, not_false_eq_true, if_true]
      exact ⟨.inr ⟨same, .inl rfl⟩, .inr ⟨same, .inr rfl⟩⟩
  · rw [actualIs, baselineIs, is]
    simp only [written, step, ne_eq, not_true_eq_false, if_false, differs, not_false_eq_true, if_true]
    exact ⟨.inr ⟨differs, .inl rfl⟩, .inr ⟨differs, .inr rfl⟩⟩
  · rw [actualIs, baselineIs, renewed_renewed]
    simp only [written, step, ne_eq, not_true_eq_false, if_false]
    exact ⟨reached, reached⟩

end Saved

theorem value_resting {c : Contents} {s : Disk} (resting : Resting c s) (t : Template) :
    value serde s t = serde.fromSlice (c t) := by
  rw [value, resting.holds t]
  rfl

theorem resting_saved (c : Contents) : Resting c (saved c) :=
  ⟨fun _ => rfl, 0, fun _ _ _ => rfl⟩

variable [DecidableEq F] {faulty : Prop}

/-- An attempt from contents that attempts lead to stays among them. -/
theorem Saved.safe (start : Saved serde scripts config B first)
    (rereads : Rereads serde scripts config B) {c : Contents}
    (reached : Reached serde scripts config B first c) (pid : Nat) :
    Spec faulty config (fun s => ∃ c, Reached serde scripts config B first c ∧ Resting c s)
      (Resting c) (update serde scripts pid)
      (fun result s => ∃ actual baseline, parseTemplate serde .actual (c .actual) = .ok actual ∧
        parseTemplate serde .baseline (c .baseline) = .ok baseline ∧
        (actual = baseline ∨ actual = renewed scripts config baseline) ∧
        Resting (written c actual baseline (renewed scripts config baseline)
          (serde.toVecPretty (renewed scripts config baseline))) s ∧
        result = report actual baseline (renewed scripts config baseline))
      (fun s => ∃ c, Reached serde scripts config B first c ∧ Resting c s) := by
  refine update_spec start.printed (fun s resting => ⟨c, reached, resting⟩) ?_
  intro actual baseline actualRead baselineRead _
  obtain ⟨between, after⟩ := start.reached_goes rereads reached actualRead baselineRead
  exact ⟨fun s resting => ⟨_, between, resting⟩, fun s resting => ⟨_, after, resting⟩⟩

theorem Saved.reaches (start : Saved serde scripts config B first)
    (rereads : Rereads serde scripts config B) {m : Machine faulty config}
    (runs : Reaches serde scripts config faulty ⟨saved first, none⟩ m) :
    ∃ c, Reached serde scripts config B first c ∧ Resting c m.state := by
  have safe : ∀ (pid : Nat) (s : Disk),
      (∃ c, Reached serde scripts config B first c ∧ Resting c s) →
      @System.Safe _ (disk faulty config) _
        (fun s => ∃ c, Reached serde scripts config B first c ∧ Resting c s) (fun _ _ => True)
        (update serde scripts pid).run s := by
    rintro pid s ⟨c, reached, resting⟩
    exact System.Safe.mono (fun _ _ _ => trivial) (start.safe rereads reached pid s resting)
  exact (System.reachable_safe (disk_stable _) (fun _ _ moves => moves.elim)
    (fun _ _ => disk_stable fun _ => True) safe rfl ⟨first, .inl rfl, resting_saved first⟩ runs).1

theorem fromSlice_step {c : Contents} {t : Template} {current next : Json F} {bytes : Bytes}
    (reads : serde.fromSlice (c t) = some current)
    (printed : current ≠ next → serde.fromSlice bytes = some next) (other : Template) :
    serde.fromSlice (step c t current next bytes other) =
      if other = t then some next else serde.fromSlice (c other) := by
  unfold step
  by_cases here : other = t
  · subst here
    rw [if_pos rfl]
    split
    · rename_i differs
      rw [Function.update_self, printed differs]
    · rename_i same
      rw [reads, not_not.1 same]
  · rw [if_neg here]
    split
    · rw [Function.update_of_ne here]
    · rfl

/-- Written templates both say what was to be written. -/
theorem fromSlice_written {c : Contents} {actual baseline next : Json F} {bytes : Bytes}
    (actualRead : serde.fromSlice (c .actual) = some actual)
    (baselineRead : serde.fromSlice (c .baseline) = some baseline)
    (printed : actual ≠ next ∨ baseline ≠ next → serde.fromSlice bytes = some next) (t : Template) :
    serde.fromSlice (written c actual baseline next bytes t) = some next := by
  have between := @fromSlice_step F serde _ c .actual actual next bytes actualRead
    fun differs => printed (.inl differs)
  have kept : serde.fromSlice (step c .actual actual next bytes .baseline) = some baseline := by
    rw [between, if_neg (by simp), baselineRead]
  rw [written, fromSlice_step kept fun differs => printed (.inr differs)]
  cases t with
  | baseline => rfl
  | actual => rw [if_neg (by simp), between, if_pos rfl]

/-- Crash consistency of updates from a saved template. -/
structure CrashConsistent (serde : Serde F) (scripts : Scripts) (config : Config) (B : Json F)
    (first : Contents) : Prop where
  /-- Lima's template and the baseline, at every moment. -/
  pair : ∀ m, Reaches serde scripts config True ⟨saved first, none⟩ m →
    (value serde m.state .actual = some B ∧ value serde m.state .baseline = some B) ∨
    (value serde m.state .actual = some (renewed scripts config B) ∧
      value serde m.state .baseline = some B) ∨
    (value serde m.state .actual = some (renewed scripts config B) ∧
      value serde m.state .baseline = some (renewed scripts config B))
  kept : ∀ m, Reaches serde scripts config True ⟨saved first, none⟩ m → ∀ t, ∃ v,
    value serde m.state t = some v ∧ ∀ field, field ≠ "provision" → v.get field = B.get field
  /-- Wherever attempts were stopped, the next one in which nothing fails goes through. -/
  accepted : ∀ s, Reaches serde scripts config True ⟨saved first, none⟩ ⟨s, none⟩ →
    ∃ pid result t, (disk False config).Returns (update serde scripts pid) s result t
  returns : ∀ s, Reaches serde scripts config True ⟨saved first, none⟩ ⟨s, none⟩ →
    ∀ pid result t, (disk True config).Returns (update serde scripts pid) s result t →
      value serde t .actual = some (renewed scripts config B) ∧
      value serde t .baseline = some (renewed scripts config B) ∧
      (result.updated = false ↔ value serde s .actual = some (renewed scripts config B) ∧
        value serde s .baseline = some (renewed scripts config B))
  /-- Over the baseline, any other template of Lima's is left alone. -/
  refuses : ∀ other : Contents, serde.fromSlice (other .baseline) = some B →
    serde.fromSlice (other .actual) ≠ some B →
    serde.fromSlice (other .actual) ≠ some (renewed scripts config B) →
    ∀ m, Reaches serde scripts config True ⟨saved other, none⟩ m →
      (∀ t, m.state.files (.template t) = some (other t)) ∧
      ∀ pid result, m.running ≠ some (pid, .done (.ok result))

namespace Saved

variable (start : Saved serde scripts config B first)
include start

omit [DecidableEq F] in
theorem value_first {s : Disk} (resting : Resting first s) (t : Template) :
    value serde s t = some B := by
  rw [value_resting resting]
  exact (parse_ok (start.reads t)).2.1

omit [DecidableEq F] in
theorem value_reached (rereads : Rereads serde scripts config B) {c : Contents}
    (reached : Reached serde scripts config B first c) {s : Disk}
    (resting : Resting c s) :
    (value serde s .actual = some B ∧ value serde s .baseline = some B) ∨
    (value serde s .actual = some (renewed scripts config B) ∧ value serde s .baseline = some B) ∨
    (value serde s .actual = some (renewed scripts config B) ∧
      value serde s .baseline = some (renewed scripts config B)) := by
  rcases reached with rfl | ⟨differs, rfl | rfl⟩
  · exact .inl ⟨start.value_first resting _, start.value_first resting _⟩
  · refine .inr (.inl ⟨?_, ?_⟩)
    · rw [value_resting resting, Function.update_self]
      exact rereads differs
    · rw [value_resting resting, Function.update_of_ne (by simp)]
      exact (parse_ok (start.reads .baseline)).2.1
  · refine .inr (.inr ⟨?_, ?_⟩)
    · rw [value_resting resting, Function.update_of_ne (by simp), Function.update_self]
      exact rereads differs
    · rw [value_resting resting, Function.update_self]
      exact rereads differs

omit [DecidableEq F] in
/-- The checks pass on the renewed template as they do on the saved one. -/
theorem acceptable {c : Contents} {actual baseline : Json F}
    (actualRead : parseTemplate serde .actual (c .actual) = .ok actual)
    (baselineRead : parseTemplate serde .baseline (c .baseline) = .ok baseline)
    (fits : actual = baseline ∨ actual = renewed scripts config baseline)
    (which : baseline = B ∨ baseline = renewed scripts config B) :
    Acceptable serde scripts config c actual baseline := by
  have same : ∀ field, field ≠ "provision" → baseline.get field = B.get field := by
    intro field other
    rcases which with rfl | rfl
    · rfl
    · exact renewed_get start.object other
  have apart : ∀ field ∈ fields, field ≠ "provision" := by decide
  exact
    { printed := start.printed
      actualRead := actualRead
      baselineRead := baselineRead
      agrees := fun field member => (same field (apart field member)).trans (start.agrees field member)
      nested := by rw [same "nestedVirtualization" (by decide)]; exact start.nested
      fits := fits }

/-- From any contents that attempts lead to, an attempt in which nothing fails returns. -/
theorem accepts (rereads : Rereads serde scripts config B)
    (short : B = renewed scripts config B ∨
      (renewedText serde scripts config B).length ≤ templateLimit)
    {c : Contents} (reached : Reached serde scripts config B first c) {s : Disk} (resting : Resting c s) :
    ∃ pid result t, (disk False config).Returns (update serde scripts pid) s result t := by
  obtain ⟨bound, above⟩ := resting.bounded
  have free : Free bound s := fun t => above t bound (Nat.le_refl bound)
  have reread : B ≠ renewed scripts config B → ∀ t,
      parseTemplate serde t (renewedText serde scripts config B) = .ok (renewed scripts config B) := by
    intro differs t
    rw [start.parse_renewed rereads differs, if_neg (Nat.not_lt.mpr (short.resolve_left differs))]
  have goes : ∃ actual baseline, Acceptable serde scripts config c actual baseline := by
    rcases reached with rfl | ⟨differs, rfl | rfl⟩
    · exact ⟨B, B, start.acceptable (start.reads _) (start.reads _) (.inl rfl) (.inl rfl)⟩
    · refine ⟨renewed scripts config B, B, start.acceptable ?_ ?_ (.inr rfl) (.inl rfl)⟩
      · rw [Function.update_self]
        exact reread differs .actual
      · rw [Function.update_of_ne (by simp)]
        exact start.reads .baseline
    · refine ⟨renewed scripts config B, renewed scripts config B,
        start.acceptable ?_ ?_ (.inl rfl) (.inr rfl)⟩
      · rw [Function.update_of_ne (by simp), Function.update_self]
        exact reread differs .actual
      · rw [Function.update_self]
        exact reread differs .baseline
  obtain ⟨actual, baseline, acceptable⟩ := goes
  obtain ⟨t, returns⟩ := update_returns resting acceptable free
  exact ⟨bound, _, t, returns⟩

/-- An attempt that returns leaves the renewed template in both places. -/
theorem returned (rereads : Rereads serde scripts config B) {c : Contents}
    (reached : Reached serde scripts config B first c) {s t : Disk}
    (resting : Resting c s) {pid : Nat} {result : ProvisionUpdate}
    (returns : (disk faulty config).Returns (update serde scripts pid) s result t) :
    value serde t .actual = some (renewed scripts config B) ∧
    value serde t .baseline = some (renewed scripts config B) ∧
    (result.updated = false ↔ value serde s .actual = some (renewed scripts config B) ∧
      value serde s .baseline = some (renewed scripts config B)) := by
  have ended := System.Safe.leads (fun _ => disk_stable _) (start.safe rereads reached pid s resting)
    returns
  obtain ⟨actual, baseline, actualRead, baselineRead, _, after, is⟩ := ended
  have before : value serde s .actual = some actual ∧ value serde s .baseline = some baseline := by
    rw [value_resting resting, value_resting resting]
    exact ⟨(parse_ok actualRead).2.1, (parse_ok baselineRead).2.1⟩
  have updated : result.updated = false ↔ actual = renewed scripts config baseline ∧
      baseline = renewed scripts config baseline := by
    rw [is, report, decide_eq_false_iff_not, not_or, not_not, not_not]
  have known := start.reads_reached rereads reached actualRead baselineRead
  have which : renewed scripts config baseline = renewed scripts config B := by
    rcases known with ⟨_, _, rfl⟩ | ⟨_, _, _, rfl⟩ | ⟨_, _, _, rfl⟩
    · rfl
    · rfl
    · exact renewed_renewed
  have reprinted : actual ≠ renewed scripts config B ∨ baseline ≠ renewed scripts config B →
      serde.fromSlice (renewedText serde scripts config B) = some (renewed scripts config B) := by
    intro changes
    rcases known with ⟨_, rfl, rfl⟩ | ⟨differs, _⟩ | ⟨differs, _⟩
    · exact rereads (changes.elim id id)
    · exact rereads differs
    · exact rereads differs
  have printed : ∀ template, value serde t template = some (renewed scripts config B) := by
    intro template
    rw [value_resting after, ← which]
    refine fromSlice_written (parse_ok actualRead).2.1 (parse_ok baselineRead).2.1 ?_ template
    rw [which]
    exact reprinted
  rw [updated, before.1, before.2, Option.some.injEq, Option.some.injEq, which]
  exact ⟨printed .actual, printed .baseline, Iff.rfl⟩

end Saved

/-- Any other template of Lima's than the baseline or the renewed one is refused. -/
theorem refused {other : Contents}
    (printed : serde.fromSlice (serde.toVecPretty (VmTemplate.document scripts config)) =
      some (VmTemplate.document scripts config))
    (baselineIs : serde.fromSlice (other .baseline) = some B)
    (notBaseline : serde.fromSlice (other .actual) ≠ some B)
    (notRenewed : serde.fromSlice (other .actual) ≠ some (renewed scripts config B))
    {m : Machine faulty config}
    (runs : Reaches serde scripts config faulty ⟨saved other, none⟩ m) :
    (∀ t, m.state.files (.template t) = some (other t)) ∧
      ∀ pid result, m.running ≠ some (pid, .done (.ok result)) := by
  have impossible : ∀ actual baseline, parseTemplate serde .actual (other .actual) = .ok actual →
      parseTemplate serde .baseline (other .baseline) = .ok baseline →
      ¬ (actual = baseline ∨ actual = renewed scripts config baseline) := by
    intro actual baseline actualRead baselineRead fits
    have here := (parse_ok actualRead).2.1
    cases baselineIs.symm.trans (parse_ok baselineRead).2.1
    rcases fits with rfl | rfl
    · exact notBaseline here
    · exact notRenewed here
  have safe : ∀ (pid : Nat) (s : Disk), Resting other s →
      @System.Safe _ (disk faulty config) _ (Resting other)
        (@System.Ends _ (disk faulty config) Stop _ (fun _ _ => False) (Resting other))
        (update serde scripts pid).run s := by
    intro pid s resting
    have spec := @update_spec faulty config (Resting other) F _ serde scripts other pid printed
      (fun _ h => h) fun actual baseline actualRead baselineRead fits =>
        absurd fits (impossible actual baseline actualRead baselineRead)
    refine System.Safe.mono ?_ (spec s resting)
    intro result t ended
    cases result with
    | error stop => exact ended
    | ok value =>
        obtain ⟨actual, baseline, actualRead, baselineRead, fits, _⟩ := ended
        exact impossible actual baseline actualRead baselineRead fits
  obtain ⟨resting, rest⟩ := System.reachable_safe (disk_stable _) (fun _ _ moves => moves.elim)
    (fun _ _ => disk_stable _) safe rfl (resting_saved other) runs
  exact ⟨resting.holds, fun pid result running => rest pid _ running⟩

/-- Killed between the two writes, an attempt leaves a text that has to be read again. -/
theorem short_of_accepted (start : Saved serde scripts config B first)
    (differs : B ≠ renewed scripts config B)
    (accepted : ∀ s, Reaches serde scripts config True ⟨saved first, none⟩ ⟨s, none⟩ →
      ∃ pid result t, (disk False config).Returns (update serde scripts pid) s result t) :
    (renewedText serde scripts config B).length ≤ templateLimit := by
  have acceptable : Acceptable serde scripts config first B B :=
    start.acceptable (start.reads _) (start.reads _) (.inl rfl) (.inl rfl)
  obtain ⟨rest, u, leads, between⟩ := @update_leads_between True config F serde scripts _ first B
    B (saved first) 0 (resting_saved first) acceptable (fun _ => rfl) (.inl differs)
  have stopped : Reaches serde scripts config True ⟨saved first, none⟩ ⟨u, none⟩ :=
    @System.Leads.killed _ _ Nat _ _ 0 rest _ _ leads
  obtain ⟨pid, result, t, returns⟩ := accepted u stopped
  have spec := @update_spec False config (fun _ => True) F _ serde scripts
    (step first .actual B (renewed scripts config B) (renewedText serde scripts config B)) pid
    start.printed (fun _ _ => trivial) fun _ _ _ _ _ => ⟨fun _ _ => trivial, fun _ _ => trivial⟩
  obtain ⟨actual, _, actualRead, _⟩ :=
    System.Safe.leads (fun _ => disk_stable _) (spec u between) returns
  have short := (parse_ok actualRead).1
  rw [step, if_pos differs, Function.update_self] at short
  exact short

/-- An attempt that goes through leaves a text that has to say what it was printed from. -/
theorem rereads_of_returns (start : Saved serde scripts config B first)
    (differs : B ≠ renewed scripts config B)
    (returns : ∀ pid result t, (disk True config).Returns (update serde scripts pid) (saved first)
      result t → value serde t .actual = some (renewed scripts config B)) :
    serde.fromSlice (renewedText serde scripts config B) = some (renewed scripts config B) := by
  have acceptable : Acceptable serde scripts config first B B :=
    start.acceptable (start.reads _) (start.reads _) (.inl rfl) (.inl rfl)
  obtain ⟨t, goes⟩ := @update_returns True config F serde scripts _ first B B (saved first) 0
    (resting_saved first) acceptable fun _ => rfl
  have spec := @update_spec True config (fun _ => True) F _ serde scripts first 0
    start.printed (fun _ _ => trivial) fun _ _ _ _ _ => ⟨fun _ _ => trivial, fun _ _ => trivial⟩
  obtain ⟨actual, baseline, actualRead, baselineRead, _, after, _⟩ :=
    System.Safe.leads (fun _ => disk_stable _) (spec _ (resting_saved first)) goes
  obtain rfl := Except.ok.inj ((start.reads .actual).symm.trans actualRead)
  obtain rfl := Except.ok.inj ((start.reads .baseline).symm.trans baselineRead)
  have left := returns 0 _ t goes
  rw [value_resting after, written, step, if_pos differs, Function.update_of_ne (by simp), step,
    if_pos differs, Function.update_self] at left
  exact left

/-- **Two-phase updates.**  Attempts from a saved template are crash consistent exactly if
there is nothing to renew, or the text of the renewed template is short enough to be read and
says what it was printed from. -/
theorem update_crash_consistent_iff (start : Saved serde scripts config B first) :
    CrashConsistent serde scripts config B first ↔
      B = renewed scripts config B ∨
        (renewedText serde scripts config B).length ≤ templateLimit ∧
          serde.fromSlice (renewedText serde scripts config B) =
            some (renewed scripts config B) := by
  constructor
  · intro consistent
    by_cases same : B = renewed scripts config B
    · exact .inl same
    · refine .inr ⟨short_of_accepted start same consistent.accepted, ?_⟩
      exact rereads_of_returns start same fun pid result t returns =>
        (consistent.returns _ .refl pid result t returns).1
  · intro read
    have rereads : Rereads serde scripts config B := fun differs => (read.resolve_left differs).2
    constructor
    · intro m runs
      obtain ⟨c, reached, resting⟩ := start.reaches rereads runs
      exact start.value_reached rereads reached resting
    · intro m runs t
      obtain ⟨c, reached, resting⟩ := start.reaches rereads runs
      have kept : ∀ field, field ≠ "provision" →
          (renewed scripts config B).get field = B.get field :=
        fun field other => renewed_get start.object other
      have both := start.value_reached rereads reached resting
      cases t with
      | actual =>
          rcases both with ⟨is, _⟩ | ⟨is, _⟩ | ⟨is, _⟩
          · exact ⟨B, is, fun _ _ => rfl⟩
          · exact ⟨_, is, kept⟩
          · exact ⟨_, is, kept⟩
      | baseline =>
          rcases both with ⟨_, is⟩ | ⟨_, is⟩ | ⟨_, is⟩
          · exact ⟨B, is, fun _ _ => rfl⟩
          · exact ⟨B, is, fun _ _ => rfl⟩
          · exact ⟨_, is, kept⟩
    · intro s runs
      obtain ⟨c, reached, resting⟩ := start.reaches rereads runs
      exact start.accepts rereads (read.imp_right And.left) reached resting
    · intro s runs pid result t returns
      obtain ⟨c, reached, resting⟩ := start.reaches rereads runs
      exact start.returned rereads reached resting returns
    · intro other baselineIs notBaseline notRenewed m runs
      exact refused start.printed baselineIs notBaseline notRenewed runs

end Recovery

/-! ## A template that grows past the limit -/

namespace Long

/-- Some scripts and units. -/
def scripts : Scripts :=
  ⟨"#!/bin/sh\n", "#!/bin/sh\n", "#!/bin/sh\n", "[Service]\n", "#!/bin/sh\n", "#!/bin/sh\n",
    "#!/bin/sh\n", "IyEvYmluL3NoCg==", "[Socket]\n", "[Service]\n", "#!/bin/sh\n"⟩

def config : Config :=
  ⟨1, 2, 2, 10, [], false⟩

def document : Json Empty :=
  VmTemplate.document scripts config

def image : Json Empty :=
  .object [("arch", .string "aarch64"), ("location", .string "/images/noble.img")]

/-- What stands before the message and behind it, on one line. -/
def front : Bytes :=
  ascii "\x7b\"arch\":\"aarch64\",\"cpus\":2,\"disk\":\"10GiB\",\"images\":[\x7b\"arch\":\"aarch64\",\"location\":\"/images/noble.img\"\x7d],\"memory\":\"2GiB\",\"message\":\""

def back : Bytes :=
  ascii "\",\"mounts\":[],\"provision\":[],\"vmType\":\"vz\"\x7d"

section Padding

variable (padding : Nat)

/-- A saved template with an empty provisioning, and so long a message for its user. -/
def template : Json Empty :=
  .object [("arch", .string "aarch64"), ("cpus", .int 2), ("disk", .string "10GiB"),
    ("images", .array [image]), ("memory", .string "2GiB"),
    ("message", .string (String.ofList (List.replicate padding 'a'))), ("mounts", .array []),
    ("provision", .array []), ("vmType", .string "vz")]

/-- Its text. -/
def text : Bytes :=
  front ++ (List.replicate padding 0x61 ++ back)

def next : Json Empty :=
  renewed scripts config (template padding)

/-- Printing as `serde_json` does, and reading of the three texts there are. -/
def serde : Serde Empty where
  toVecPretty := Json.pretty Empty.elim
  fromSlice := fun bytes =>
    if bytes = text padding then some (template padding)
    else if bytes = Json.pretty Empty.elim document then some document
    else if bytes = Json.pretty Empty.elim (next padding) then some (next padding)
    else none

theorem next_eq : next padding = .object
    [("arch", .string "aarch64"), ("cpus", .int 2), ("disk", .string "10GiB"),
      ("images", .array [image]), ("memory", .string "2GiB"),
      ("message", .string (String.ofList (List.replicate padding 'a'))), ("mounts", .array []),
      ("provision", .array (VmTemplate.provision scripts config)), ("vmType", .string "vz")] := by
  rw [next, renewed, candidate, VmTemplate.document_provision, template]
  have last : ∀ value : Json Empty, Json.insert "provision" value
      [("provision", .array []), ("vmType", .string "vz")] =
        [("provision", value), ("vmType", .string "vz")] := fun _ => if_pos rfl
  rw [Json.set, Json.insert_behind _ _ _ (by decide +kernel),
    Json.insert_behind _ _ _ (by decide +kernel), Json.insert_behind _ _ _ (by decide +kernel),
    Json.insert_behind _ _ _ (by decide +kernel), Json.insert_behind _ _ _ (by decide +kernel),
    Json.insert_behind _ _ _ (by decide +kernel), Json.insert_behind _ _ _ (by decide +kernel), last]

/-- The names of the first two members. -/
def firstNames : Json Empty → List String
  | .object ((name, _) :: (other, _) :: _) => [name, other]
  | _ => []

theorem document_first : ∃ value members,
    document = .object (("arch", .string "aarch64") :: ("containerd", value) :: members) := by
  have names : firstNames document = ["arch", "containerd"] := by decide +kernel
  have arch : document.get "arch" = .string "aarch64" := by
    rw [document, VmTemplate.document, Json.get_ofMembers]
    simp [VmTemplate.members, Json.find]
  unfold firstNames at names
  split at names
  · rename_i name first other value members is
    obtain ⟨rfl, rfl⟩ : name = "arch" ∧ other = "containerd" := by simpa using names
    rw [is, Json.get, Json.find, if_pos rfl] at arch
    exact ⟨value, members, by rw [is, show first = .string "aarch64" from arch]⟩
  · cases names

theorem text_ne_pretty (name : String) (value : Json Empty) (members : List (String × Json Empty)) :
    text padding ≠ Json.pretty Empty.elim (.object ((name, value) :: members)) := by
  obtain ⟨rest, printed⟩ := Json.print_object Empty.elim name value members
  have brace : String.utf8EncodeChar (Char.ofNat 0x7b) = [0x7b] := by decide
  have line : String.utf8EncodeChar '\n' = [0x0a] := by decide
  rw [Json.pretty, printed, Utf8.encode_cons, Utf8.encode_cons, brace, line, text]
  intro same
  have second := congrArg (fun bytes : Bytes => bytes[1]?) same
  simp [front, ascii] at second

theorem next_ne_document :
    Json.pretty Empty.elim (next padding) ≠ Json.pretty Empty.elim document := by
  intro same
  obtain ⟨value, members, is⟩ := document_first
  have chars := Json.print_of_pretty Empty.elim same
  rw [next_eq, is] at chars
  simp only [Json.print, Json.printMembers, List.cons.injEq, List.append_cancel_left_eq,
    true_and] at chars
  simp [Json.printString, Json.escape] at chars

theorem length_text : (text padding).length = padding + 173 := by
  have before : front.length = 130 := by decide +kernel
  have behind : back.length = 43 := by decide
  rw [text, List.length_append, List.length_append, List.length_replicate, before, behind]
  omega

/-- What the provisioning adds is more than what printing on one line spares. -/
theorem length_next : padding + 180 ≤ (Json.pretty Empty.elim (next padding)).length := by
  have entry : 150 ≤ (VmTemplate.dataFile "/etc/docker/daemon.json" VmTemplate.daemonJson
      "root:root" "0600" : Json Empty).size := by decide +kernel
  have picture : 30 ≤ image.size := by decide +kernel
  have member : (VmTemplate.dataFile "/etc/docker/daemon.json" VmTemplate.daemonJson
      "root:root" "0600" : Json Empty) ∈ VmTemplate.provision scripts config := by
    simp [VmTemplate.provision]
  have provision := Json.le_size_of_mem member
  have printed := Json.size_le_pretty Empty.elim (next padding)
  have size : padding + 180 ≤ (next padding).size := by
    rw [next_eq]
    simp only [Json.size, Json.sizeMembers, Json.sizeItems, String.toList_ofList,
      List.length_replicate]
    omega
  exact Nat.le_trans size printed

theorem read_text : (serde padding).fromSlice (text padding) = some (template padding) := by
  unfold serde
  dsimp only
  rw [if_pos rfl]

theorem read_document :
    (serde padding).fromSlice (Json.pretty Empty.elim document) = some document := by
  obtain ⟨value, members, is⟩ := document_first
  have apart : Json.pretty Empty.elim document ≠ text padding := by
    rw [is]
    exact (text_ne_pretty _ _ _ _).symm
  unfold serde
  dsimp only
  rw [if_neg apart, if_pos rfl]

theorem read_next :
    (serde padding).fromSlice (Json.pretty Empty.elim (next padding)) = some (next padding) := by
  have notText : Json.pretty Empty.elim (next padding) ≠ text padding := by
    rw [next_eq]
    exact (text_ne_pretty _ _ _ _).symm
  unfold serde
  dsimp only
  rw [if_neg notText, if_neg (next_ne_document padding), if_pos rfl]

theorem saved_long (fits : padding + 173 ≤ templateLimit) :
    Saved (serde padding) scripts config (template padding) fun _ => text padding where
  reads := by
    intro t
    unfold parseTemplate
    rw [length_text, if_neg (Nat.not_lt.mpr fits), read_text]
    exact if_pos ⟨rfl, rfl⟩
  agrees := by
    intro field member
    simp only [fields, List.mem_cons, List.not_mem_nil, or_false] at member
    rcases member with rfl | rfl | rfl | rfl | rfl | rfl
    all_goals
      rw [VmTemplate.document, Json.get_ofMembers]
      simp [template, VmTemplate.members, Json.find, Json.get, config]
      try decide
  nested := by
    simp [template, Json.find, Json.get, Json.asBool, config]
  printed := read_document padding

theorem differs : template padding ≠ renewed scripts config (template padding) := by
  intro same
  have provision := congrArg (fun v => Json.get v "provision") same
  have printed := @renewed_provision Empty scripts config (template padding) rfl
  rw [printed] at provision
  cases provision

end Padding

/-- So long that the saved text has just the size that is read. -/
def message : Nat := 1048403

theorem saved_message :
    Saved (serde message) scripts config (template message) fun _ => text message :=
  saved_long message (by decide)

theorem not_short :
    ¬ (renewedText (serde message) scripts config (template message)).length ≤ templateLimit := by
  have long : message + 180 ≤
      (renewedText (serde message) scripts config (template message)).length := length_next message
  have limit : templateLimit = message + 173 := rfl
  omega

end Long

/-- Where the renewed text is too long to be read, updates are not crash consistent. -/
theorem update_crash_consistent_iff_long :
    ¬ CrashConsistent (Long.serde Long.message) Long.scripts Long.config
      (Long.template Long.message) fun _ => Long.text Long.message := by
  rw [update_crash_consistent_iff Long.saved_message]
  exact fun either => either.elim (Long.differs _) fun read => Long.not_short read.1

/-- A saved template just below the limit whose renewed text is above it, and would say what it
was printed from: an interrupted attempt leaves templates that no later attempt takes. -/
theorem update_strands_long_template :
    Saved (Long.serde Long.message) Long.scripts Long.config (Long.template Long.message)
      (fun _ => Long.text Long.message) ∧
    Rereads (Long.serde Long.message) Long.scripts Long.config (Long.template Long.message) ∧
    ¬ ∀ s, Reaches (Long.serde Long.message) Long.scripts Long.config True
        ⟨saved fun _ => Long.text Long.message, none⟩ ⟨s, none⟩ →
      ∃ pid result t, (disk False Long.config).Returns
        (update (Long.serde Long.message) Long.scripts pid) s result t := by
  refine ⟨Long.saved_message, fun _ => Long.read_next Long.message, fun accepted => ?_⟩
  exact Long.not_short (short_of_accepted Long.saved_message (Long.differs _) accepted)

end Luhmen.Host.Update
