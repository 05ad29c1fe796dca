/-
# Guest.ConfigSignatureRuns -- no stale Docker service

The hooks of both units and the script run at once.  What is recorded as active was read no later
than the running service loaded it, and no file comes back to what it was; so where it is the
signature of the files as they are now, the service has loaded just these (`current_of_active`).
-/
import Mathlib.Data.List.Forall2
import Luhmen.Guest.ConfigSignature

namespace Luhmen.Guest.ConfigSignature

open Luhmen.Theory
open Run

set_option autoImplicit false

variable {texts : Texts}

/-! ## Signatures -/

/-- The files of a signature, in its order. -/
def files : DockerUnit → List File
  | .service => needed .service ++ [.environment]
  | .socket => needed .socket

/-- Made of files that were read no later than these versions. -/
def Taken (texts : Texts) (u : DockerUnit) (value : texts.Digest) (bound : File → Nat) : Prop :=
  ∃ found, value = texts.digest found ∧
    List.Forall₂ (fun file read => ∃ n ≤ bound file, read = texts.text file n) (files u) found

/-- Made of files at these versions. -/
def Exact (texts : Texts) (u : DockerUnit) (value : texts.Digest) (version : File → Nat) : Prop :=
  ∃ found, value = texts.digest found ∧
    List.Forall₂ (fun file read => read = texts.text file (version file)) (files u) found

theorem Taken.mono {u : DockerUnit} {value : texts.Digest} {bound wider : File → Nat}
    (taken : Taken texts u value bound) (le : ∀ file, bound file ≤ wider file) :
    Taken texts u value wider := by
  obtain ⟨found, is, reads⟩ := taken
  refine ⟨found, is, reads.imp fun file read known => ?_⟩
  obtain ⟨n, early, text⟩ := known
  exact ⟨n, Nat.le_trans early (le file), text⟩

theorem forall₂_both {α β : Type} {R S : α → β → Prop} {front : List α} {back : List β}
    (first : List.Forall₂ R front back) (second : List.Forall₂ S front back) :
    ∀ a ∈ front, ∃ b, R a b ∧ S a b := by
  induction first with
  | nil => exact fun a member => nomatch member
  | cons here _ ih =>
      cases second with
      | cons too others =>
          exact List.forall_mem_cons.2 ⟨⟨_, here, too⟩, ih others⟩

/-- A signature of now that was made no later than these versions makes them those of now. -/
theorem Exact.le {u : DockerUnit} {value : texts.Digest} {version bound : File → Nat}
    (isExact : Exact texts u value version) (taken : Taken texts u value bound) :
    ∀ file ∈ files u, version file ≤ bound file := by
  obtain ⟨found, is, now⟩ := isExact
  obtain ⟨found', is', reads⟩ := taken
  obtain rfl := texts.exact (is'.symm.trans is)
  intro file member
  obtain ⟨read, ⟨n, early, text⟩, current⟩ := forall₂_both reads now file member
  rw [← texts.once file (text.symm.trans current)]
  exact early

/-! ## What is invariant -/

/-- If the unit runs, it read its files no earlier than this signature was made. -/
def Backed (u : DockerUnit) (value : texts.Digest) (s : State texts) : Prop :=
  ∀ loaded, s.phase u = .up loaded → Taken texts u value loaded

structure Inv (s : State texts) : Prop where
  loaded : ∀ u loaded, s.phase u = .up loaded → ∀ file, loaded file ≤ s.version file
  active : ∀ u value, s.active u = some value → Backed u value s

/-- A running service has loaded the files as they are now. -/
def Current (s : State texts) : Prop :=
  ∀ loaded, s.phase .service = .up loaded → ∀ file ∈ files .service, loaded file = s.version file

theorem current_of_active {s : State texts} (inv : Inv s) {value : texts.Digest}
    (isExact : Exact texts .service value s.version) (active : s.active .service = some value) :
    Current s := by
  intro loaded running file member
  have late := isExact.le (inv.active .service value active loaded running) file member
  exact Nat.le_antisymm (inv.loaded .service loaded running file) late

/-- When an actor may make a request. -/
def guard (a : Actor) : Request texts → State texts → Prop
  | .removeActive u, _ | .moveToPending u _, _ | .removeBoth u, _ | .stopped u, _ => a = .unit u
  | .exec u, s => a = .unit u ∧ s.active u = none
  | .moveToActive u, s => a = .unit u ∧ ∀ value, s.pending u = some value → Backed u value s
  | .written, _ => a = .script
  | _, _ => True

/-- What others than `a` leave to it. -/
structure Onward (a : Actor) (s t : State texts) : Prop where
  version : ∀ file, s.version file ≤ t.version file
  written : s.isWritten = true → t.isWritten = true ∧ t.version = s.version
  own : ∀ u, a = .unit u → t.active u = s.active u ∧ t.pending u = s.pending u ∧
    ∀ later, t.phase u = .up later → ∃ loaded, s.phase u = .up loaded ∧
      ∀ file, loaded file ≤ later file
  current : s.isWritten = true → Current s → Current t

@[simp] theorem setPhase_self (s : State texts) (u : DockerUnit) (phase : Phase) :
    (s.setPhase u phase).phase u = phase := if_pos rfl

theorem setPhase_cases {s : State texts} {u v : DockerUnit} {phase : Phase} {loaded : File → Nat}
    (is : (s.setPhase u phase).phase v = .up loaded) :
    (v = u ∧ phase = .up loaded) ∨ (v ≠ u ∧ s.phase v = .up loaded) := by
  by_cases same : v = u
  · subst same
    exact .inl ⟨rfl, (setPhase_self s v phase).symm.trans is⟩
  · exact .inr ⟨same, (if_neg same).symm.trans is⟩

theorem Onward.refl (a : Actor) (s : State texts) : Onward a s s :=
  ⟨fun _ => Nat.le_refl _, fun is => ⟨is, rfl⟩,
    fun _ _ => ⟨rfl, rfl, fun later is => ⟨later, is, fun _ => Nat.le_refl _⟩⟩, fun _ is => is⟩

/-- Reading a file anew keeps a signature backed. -/
theorem loaded_le {s : State texts} (inv : Inv s) {u : DockerUnit} {loaded : File → Nat}
    (running : s.phase u = .up loaded) (file : File) :
    ∀ other, loaded other ≤ if other = file then s.version file else loaded other := by
  intro other
  by_cases here : other = file
  · subst here
    rw [if_pos rfl]
    exact inv.loaded u loaded running other
  · exact Nat.le_of_eq (if_neg here).symm

theorem Moves.inv {s t : State texts} (moves : Moves s t) (inv : Inv s) : Inv t := by
  cases moves with
  | write unwritten file =>
      refine ⟨fun u loaded running other => ?_, inv.active⟩
      have old := inv.loaded u loaded running other
      dsimp only
      split
      · rename_i here
        subst here
        omega
      · exact old
  | @load u loaded running file =>
      refine ⟨fun v later is other => ?_, fun v value active later is => ?_⟩
      · rcases setPhase_cases is with ⟨rfl, made⟩ | ⟨_, old⟩
        · obtain rfl := Phase.up.inj made
          show (if other = file then s.version file else loaded other) ≤ s.version other
          split
          · rename_i here
            subst here
            exact Nat.le_refl _
          · exact inv.loaded v loaded running other
        · exact inv.loaded v later old other
      · rcases setPhase_cases is with ⟨rfl, made⟩ | ⟨_, old⟩
        · obtain rfl := Phase.up.inj made
          exact (inv.active v value active loaded running).mono (loaded_le inv running file)
        · exact inv.active v value active later old

theorem Moves.onward {s t : State texts} (moves : Moves s t) (inv : Inv s) (a : Actor) :
    Onward a s t := by
  cases moves with
  | write unwritten file =>
      refine ⟨fun other => ?_, fun written => absurd written (by simp [unwritten]),
        fun u _ => ⟨rfl, rfl, fun later is => ⟨later, is, fun _ => Nat.le_refl _⟩⟩,
        fun written => absurd written (by simp [unwritten])⟩
      dsimp only
      split
      · rename_i here
        subst here
        omega
      · exact Nat.le_refl _
  | @load u loaded running file =>
      refine ⟨fun _ => Nat.le_refl _, fun written => ⟨written, rfl⟩, fun v _ => ⟨rfl, rfl, ?_⟩, ?_⟩
      · intro later is
        rcases setPhase_cases is with ⟨rfl, made⟩ | ⟨_, old⟩
        · obtain rfl := Phase.up.inj made
          exact ⟨loaded, running, loaded_le inv running file⟩
        · exact ⟨later, old, fun _ => Nat.le_refl _⟩
      · intro _ current later is other member
        rcases setPhase_cases is with ⟨rfl, made⟩ | ⟨_, old⟩
        · obtain rfl := Phase.up.inj made
          show (if other = file then s.version file else loaded other) = s.version other
          split
          · rename_i here
            rw [here]
          · exact current loaded running other member
        · exact current later old other member

/-! ## Requests -/

theorem Inv.of_active {s t : State texts} (inv : Inv s) (phase : t.phase = s.phase)
    (version : t.version = s.version)
    (active : ∀ u value, t.active u = some value → Backed u value s) : Inv t := by
  refine ⟨fun u loaded is => ?_, fun u value is loaded running => ?_⟩
  · rw [version]
    exact inv.loaded u loaded (phase ▸ is)
  · exact active u value is loaded (phase ▸ running)

theorem inv_setPhase {s : State texts} (inv : Inv s) {u : DockerUnit} {phase : Phase}
    (fresh : ∀ loaded, phase = .up loaded → loaded = s.version ∧ s.active u = none) :
    Inv (s.setPhase u phase) := by
  refine ⟨fun v loaded is file => ?_, fun v value active loaded is => ?_⟩
  · rcases setPhase_cases is with ⟨_, made⟩ | ⟨_, old⟩
    · rw [(fresh loaded made).1]
      exact Nat.le_refl _
    · exact inv.loaded v loaded old file
  · rcases setPhase_cases is with ⟨rfl, made⟩ | ⟨_, old⟩
    · have none : s.active v = none := (fresh loaded made).2
      cases none.symm.trans active
    · exact inv.active v value active loaded old

theorem current_setPhase {s : State texts} {u : DockerUnit} {phase : Phase}
    (fresh : ∀ loaded, phase = .up loaded → loaded = s.version) (current : Current s) :
    Current (s.setPhase u phase) := by
  intro loaded is file member
  rcases setPhase_cases is with ⟨_, made⟩ | ⟨_, old⟩
  · rw [fresh loaded made]
    rfl
  · exact current loaded old file member

/-- A unit leaves the other one alone, and the script its files. -/
theorem onward_of_unit {u : DockerUnit} {s t : State texts} (version : t.version = s.version)
    (written : t.isWritten = s.isWritten)
    (others : ∀ v, v ≠ u →
      t.active v = s.active v ∧ t.pending v = s.pending v ∧ t.phase v = s.phase v)
    (current : Current s → Current t) {a : Actor} (other : Actor.unit u ≠ a) : Onward a s t := by
  refine ⟨fun file => Nat.le_of_eq (congrFun version.symm file),
    fun is => ⟨written.trans is, version⟩, fun v is => ?_, fun _ => current⟩
  have different : v ≠ u := by
    rintro rfl
    exact other is.symm
  obtain ⟨active, pending, phase⟩ := others v different
  exact ⟨active, pending, fun later is => ⟨later, phase ▸ is, fun _ => Nat.le_refl _⟩⟩

theorem changes_cases {s next t : State texts} {reply : Except String Unit}
    (changes : Changes s next reply t) {P : State texts → Prop} (same : P s) (new : P next) : P t := by
  rcases changes with ⟨_, rfl⟩ | ⟨_, rfl⟩
  · exact same
  · exact new

/-- What a request leaves that is made when it may be. -/
def Kept (j : Actor) (s t : State texts) : Prop :=
  Inv t ∧ ∀ a, j ≠ a → Onward a s t

theorem exec_kept {j : Actor} {request : Request texts} {s t : State texts}
    {reply : Reply texts request} (inv : Inv s) (allowed : guard j request s)
    (performed : exec request s reply t) : Kept j s t := by
  have unchanged : Kept j s s := ⟨inv, fun a _ => Onward.refl a s⟩
  cases request with
  | installState | mktemp | writeTemporary | validate =>
      obtain rfl : t = s := performed
      exact unchanged
  | sha256sum | isFile | cat | systemctlStop | systemctlStart =>
      obtain ⟨rfl, _⟩ := performed
      exact unchanged
  | written =>
      obtain rfl : t = { s with isWritten := true } := performed
      exact ⟨⟨inv.loaded, inv.active⟩, fun a _ => ⟨fun _ => Nat.le_refl _, fun _ => ⟨rfl, rfl⟩,
        fun _ _ => ⟨rfl, rfl, fun later is => ⟨later, is, fun _ => Nat.le_refl _⟩⟩, fun _ is => is⟩⟩
  | removeActive u =>
      obtain rfl : j = .unit u := allowed
      refine changes_cases (P := Kept (.unit u) s) performed unchanged ⟨?_, fun a other => ?_⟩
      · refine inv.of_active rfl rfl fun v value is => ?_
        by_cases same : v = u
        · subst same
          cases (if_pos rfl).symm.trans is
        · exact inv.active v value ((if_neg same).symm.trans is)
      · exact onward_of_unit (s := s) (t := s.setActive u none) rfl rfl
          (fun v different => ⟨if_neg different, rfl, rfl⟩) id other
  | moveToPending u value =>
      obtain rfl : j = .unit u := allowed
      refine changes_cases (P := Kept (.unit u) s) performed unchanged
        ⟨inv.of_active rfl rfl inv.active, fun a other => ?_⟩
      exact onward_of_unit (s := s) (t := s.setPending u (some value)) rfl rfl
        (fun v different => ⟨rfl, if_neg different, rfl⟩) id other
  | moveToActive u =>
      obtain ⟨rfl, backed⟩ := allowed
      refine changes_cases (P := Kept (.unit u) s) performed unchanged ⟨?_, fun a other => ?_⟩
      · refine inv.of_active rfl rfl fun v value is => ?_
        by_cases same : v = u
        · subst same
          exact backed value ((if_pos rfl).symm.trans is)
        · exact inv.active v value ((if_neg same).symm.trans is)
      · exact onward_of_unit (s := s) (t := (s.setActive u (s.pending u)).setPending u none) rfl rfl
          (fun v different => ⟨if_neg different, if_neg different, rfl⟩) id other
  | removeBoth u =>
      obtain rfl : j = .unit u := allowed
      rcases performed with ⟨left, rfl⟩ | rfl
      · refine ⟨inv.of_active rfl rfl inv.active, fun a other => ?_⟩
        exact onward_of_unit (s := s) (t := s.setPending u left) rfl rfl
          (fun v different => ⟨rfl, if_neg different, rfl⟩) id other
      · refine ⟨inv.of_active rfl rfl fun v value is => ?_, fun a other => ?_⟩
        · by_cases same : v = u
          · subst same
            cases (if_pos rfl).symm.trans is
          · exact inv.active v value ((if_neg same).symm.trans is)
        · exact onward_of_unit (s := s) (t := (s.setActive u none).setPending u none) rfl rfl
            (fun v different => ⟨if_neg different, if_neg different, rfl⟩) id other
  | exec u =>
      obtain ⟨rfl, none⟩ := allowed
      refine changes_cases (P := Kept (.unit u) s) performed unchanged
        ⟨inv_setPhase inv fun loaded is => ⟨(Phase.up.inj is).symm, none⟩, fun a other => ?_⟩
      exact onward_of_unit (s := s) (t := s.setPhase u (.up s.version)) rfl rfl
        (fun v different => ⟨rfl, rfl, if_neg different⟩)
        (current_setPhase fun loaded is => (Phase.up.inj is).symm) other
  | stopped u =>
      obtain rfl : j = .unit u := allowed
      obtain rfl : t = s.setPhase u .down := performed
      have fresh : ∀ loaded, Phase.down ≠ .up loaded := fun loaded is => nomatch is
      refine ⟨inv_setPhase inv fun loaded is => absurd is (fresh loaded), fun a other => ?_⟩
      exact onward_of_unit (s := s) (t := s.setPhase u .down) rfl rfl
        (fun v different => ⟨rfl, rfl, if_neg different⟩)
        (current_setPhase fun loaded is => absurd is (fresh loaded)) other

/-! ## Assertions of an actor -/

/-- What others cannot make untrue. -/
def Lasting (a : Actor) (Q : State texts → Prop) : Prop :=
  ∀ s t, Onward a s t → Q s → Q t

theorem Lasting.and {a : Actor} {P Q : State texts → Prop} (first : Lasting a P)
    (second : Lasting a Q) : Lasting a fun s => P s ∧ Q s :=
  fun s t onward here => ⟨first s t onward here.1, second s t onward here.2⟩

abbrev Among (texts : Texts) (a : Actor) : System (Requests texts) :=
  (guest texts).among guard Inv a

theorem Lasting.stable {a : Actor} {Q : State texts → Prop} (lasting : Lasting a Q) :
    (Among texts a).Stable fun s => Inv s ∧ Q s := by
  rintro s t ⟨inv, moves | ⟨j, other, request, reply, allowed, performed⟩⟩ ⟨_, holds⟩
  · exact ⟨Moves.inv moves inv, lasting s t (Moves.onward moves inv a) holds⟩
  · obtain ⟨kept, onward⟩ := exec_kept inv allowed performed
    exact ⟨kept, lasting s t (onward a other) holds⟩

/-- A block of an actor: what it assumes and what it leaves, while the invariant holds. -/
abbrev Spec {α : Type} (a : Actor) (Q : State texts → Prop) (block : Run texts α)
    (R : α → State texts → Prop) (E : State texts → Prop) : Prop :=
  @System.Heeds (Requests texts) (Among texts a) String α (guard a) (fun s => Inv s ∧ Q s) block
    (fun value s => Inv s ∧ R value s) fun _ s => Inv s ∧ E s

variable {a : Actor} {Q E : State texts → Prop}

theorem spec_pure {α : Type} {value : α} {R : α → State texts → Prop}
    (holds : ∀ s, Q s → R value s) : Spec a Q (pure value) R E :=
  System.Heeds.pure fun s here => ⟨here.1, holds s here.2⟩

theorem perform_spec {request : Request texts} {R : Reply texts request → State texts → Prop}
    (lasting : Lasting a Q) (allowed : ∀ s, Q s → guard a request s)
    (performs : ∀ s reply t, Inv s → Q s → exec request s reply t → R reply t) :
    Spec a Q (perform request) R E := by
  refine System.Heeds.perform lasting.stable (fun s here => allowed s here.2) ?_
  intro s reply t here performed
  exact ⟨(exec_kept here.1 (allowed s here.2) performed).1,
    performs s reply t here.1 here.2 performed⟩

/-- A request, and what the shell makes of its status. -/
theorem demand_spec {α : Type} {request : Request texts}
    {outcome : Reply texts request → Except String α} {R : α → State texts → Prop}
    (lasting : Lasting a Q) (allowed : ∀ s, Q s → guard a request s)
    (good : ∀ s reply t value, Inv s → Q s → exec request s reply t → outcome reply = .ok value →
      R value t)
    (bad : ∀ s reply t, Inv s → Q s → exec request s reply t → E t) :
    Spec a Q (demand request outcome) R E := by
  have performed : Spec a Q (perform request)
      (fun reply t => ∃ s, Inv s ∧ Q s ∧ exec request s reply t) E :=
    perform_spec lasting allowed fun s reply t inv here performed => ⟨s, inv, here, performed⟩
  refine System.Heeds.bind performed fun reply => ?_
  cases result : outcome reply with
  | ok value =>
      rintro t ⟨inv, s, before, here, performed⟩
      exact ⟨inv, good s reply t value before here performed result⟩
  | error message =>
      rintro t ⟨inv, s, before, here, performed⟩
      exact ⟨inv, bad s reply t before here performed⟩

/-- A command that changes nothing. -/
theorem quiet_spec {request : Request texts} {outcome : Reply texts request → Except String Unit}
    (lasting : Lasting a Q) (allowed : ∀ s, guard a request s)
    (quiet : ∀ s reply t, exec request s reply t → t = s) :
    Spec a Q (demand request outcome) (fun _ s => Q s) fun _ => True := by
  refine demand_spec lasting (fun s _ => allowed s) ?_ fun _ _ _ _ _ _ => trivial
  intro s reply t value _ here performed _
  rw [quiet s reply t performed]
  exact here

/-! ## Making a signature -/

/-- What an actor may say of a file that it reads now, and goes on saying. -/
structure Reading (texts : Texts) (a : Actor) (P : State texts → Prop)
    (R : State texts → File → Option texts.Text → Prop) : Prop where
  steady : ∀ s t, Onward a s t → P s → P t ∧ ∀ file read, R s file read → R t file read
  fresh : ∀ s file, P s → R s file (texts.text file (s.version file))

section Reading

variable {P : State texts → Prop} {R : State texts → File → Option texts.Text → Prop}

theorem Reading.lasting (reading : Reading texts a P R) : Lasting a P :=
  fun s t onward here => (reading.steady s t onward here).1

theorem Reading.more (reading : Reading texts a P R) (front : List File)
    (found : List (Option texts.Text)) :
    Reading texts a (fun s => P s ∧ List.Forall₂ (R s) front found) R := by
  refine ⟨fun s t onward here => ?_, fun s file here => reading.fresh s file here.1⟩
  obtain ⟨kept, reads⟩ := reading.steady s t onward here.1
  exact ⟨⟨kept, here.2.imp fun file read => reads file read⟩, reads⟩

theorem sha256sum_spec (reading : Reading texts a P R) (fails : ∀ s, P s → E s) (file : File) :
    Spec a P (demand (.sha256sum file) id) (fun text s => P s ∧ R s file (some text)) E := by
  refine demand_spec reading.lasting (fun _ _ => trivial) ?_ ?_
  · rintro s reply t text inv here ⟨rfl, read⟩ ok
    refine ⟨here, ?_⟩
    rw [← read text ok]
    exact reading.fresh _ file here
  · rintro s reply t inv here ⟨rfl, _⟩
    exact fails _ here

theorem hashes_spec (reading : Reading texts a P R) (fails : ∀ s, P s → E s) (front : List File) :
    Spec a P (hashes front) (fun found s => P s ∧ List.Forall₂ (R s) front found) E := by
  induction front generalizing P with
  | nil => exact spec_pure fun s here => ⟨here, .nil⟩
  | cons file front ih =>
      refine System.Heeds.bind (sha256sum_spec reading fails file) fun text => ?_
      have one := reading.more [file] [some text]
      have rest := ih one fun s here => fails s here.1
      refine System.Heeds.bind (System.Heeds.weaken ?_ rest (fun _ _ after => after)
        fun _ _ failed => failed) fun others => ?_
      · exact fun s here => ⟨here.1, here.2.1, .cons here.2.2 .nil⟩
      · refine spec_pure fun s here => ⟨here.1.1, ?_⟩
        cases here.1.2 with
        | cons first _ => exact .cons first here.2

theorem environmentHash_spec (reading : Reading texts a P R) (fails : ∀ s, P s → E s) :
    Spec a P environmentHash (fun read s => P s ∧ R s .environment read) E := by
  have looked : Spec a P (perform (.isFile .environment))
      (fun (there : Bool) s => P s ∧ (there = false → R s .environment none)) E := by
    refine perform_spec reading.lasting (fun _ _ => trivial) ?_
    rintro s there t inv here ⟨rfl, missing⟩
    refine ⟨here, fun absent => ?_⟩
    rw [← missing absent]
    exact reading.fresh _ .environment here
  refine System.Heeds.bind looked fun there => ?_
  cases there with
  | false => exact spec_pure fun s here => ⟨here.1, here.2 rfl⟩
  | true =>
      have read := sha256sum_spec reading fails .environment
      refine System.Heeds.bind (System.Heeds.weaken (fun s here => ⟨here.1, here.2.1⟩) read
        (fun _ _ after => after) fun _ _ failed => failed) fun text => ?_
      exact spec_pure fun s here => here

theorem signature_spec (reading : Reading texts a P R) (fails : ∀ s, P s → E s) (u : DockerUnit) :
    Spec a P (signature u) (fun value s => P s ∧ ∃ found, value = texts.digest found ∧
      List.Forall₂ (R s) (files u) found) E := by
  refine System.Heeds.bind (hashes_spec reading fails (needed u)) fun found => ?_
  cases u with
  | socket => exact spec_pure fun s here => ⟨here.1, found, rfl, here.2⟩
  | service =>
      have more := reading.more (needed .service) found
      refine System.Heeds.bind (environmentHash_spec more fun s here => fails s here.1)
        fun environment => ?_
      refine spec_pure fun s here => ⟨here.1.1, found ++ [environment], rfl, ?_⟩
      exact List.rel_append here.1.2 (.cons here.2 .nil)

end Reading

/-! ## The hooks -/

section Hooks

variable {u : DockerUnit}

theorem lasting_true (a : Actor) : Lasting a fun _ : State texts => True :=
  fun _ _ _ _ => trivial

theorem lasting_down (u : DockerUnit) :
    Lasting (.unit u) fun s : State texts => s.phase u = .down := by
  intro s t onward down
  obtain ⟨_, _, phase⟩ := onward.own u rfl
  cases is : t.phase u with
  | down => rfl
  | up later =>
      obtain ⟨loaded, running, _⟩ := phase later is
      cases down.symm.trans running

theorem lasting_idle (u : DockerUnit) :
    Lasting (.unit u) fun s : State texts => s.phase u = .down ∧ s.active u = none :=
  (lasting_down u).and fun _ _ onward none => (onward.own u rfl).1.trans none

theorem lasting_taken (a : Actor) (u : DockerUnit) (value : texts.Digest) :
    Lasting a fun s : State texts => Taken texts u value s.version :=
  fun _ _ onward taken => taken.mono onward.version

theorem lasting_pending (u : DockerUnit) (value : texts.Digest) :
    Lasting (.unit u) fun s => s.pending u = some value :=
  fun _ _ onward pending => (onward.own u rfl).2.1.trans pending

theorem lasting_backed (u : DockerUnit) (value : texts.Digest) :
    Lasting (.unit u) (Backed u value) := by
  intro s t onward backed later is
  obtain ⟨loaded, running, le⟩ := (onward.own u rfl).2.2 later is
  exact (backed loaded running).mono le

theorem hook_reading (u : DockerUnit) :
    Reading texts (.unit u) (fun s => s.phase u = .down ∧ s.active u = none)
      fun s file read => ∃ n ≤ s.version file, read = texts.text file n := by
  refine ⟨fun s t onward here => ⟨lasting_idle u s t onward here, ?_⟩,
    fun s file _ => ⟨s.version file, Nat.le_refl _, rfl⟩⟩
  rintro file read ⟨n, early, is⟩
  exact ⟨n, Nat.le_trans early (onward.version file), is⟩

/-- Prepared: this signature is pending, and nothing is active. -/
def Ready (u : DockerUnit) (value : texts.Digest) (s : State texts) : Prop :=
  (s.phase u = .down ∧ s.active u = none) ∧ s.pending u = some value ∧
    Taken texts u value s.version

theorem prepare_spec : Spec (.unit u) (fun s : State texts => s.phase u = .down) (prepare u)
    (fun _ s => ∃ value, Ready u value s) fun _ => True := by
  have removed : Spec (.unit u) (fun s : State texts => s.phase u = .down)
      (demand (.removeActive u) id) (fun _ s => s.phase u = .down ∧ s.active u = none)
      fun _ => True := by
    refine demand_spec (lasting_down u) (fun _ _ => rfl) ?_ fun _ _ _ _ _ _ => trivial
    rintro s reply t value inv here (⟨⟨message, rfl⟩, _⟩ | ⟨rfl, rfl⟩) ok
    · cases ok
    · exact ⟨here, if_pos rfl⟩
  refine System.Heeds.bind (quiet_spec (lasting_down u) (fun _ => trivial) fun _ _ _ same => same)
    fun _ => System.Heeds.bind removed fun _ =>
      System.Heeds.bind (signature_spec (hook_reading u) (fun _ _ => trivial) u) fun value => ?_
  have lasting : Lasting (.unit u) fun s : State texts =>
      (s.phase u = .down ∧ s.active u = none) ∧ Taken texts u value s.version :=
    (lasting_idle u).and (lasting_taken _ u value)
  refine System.Heeds.bind (quiet_spec lasting (fun _ => trivial) fun _ _ _ same => same) fun _ =>
    System.Heeds.bind (quiet_spec lasting (fun _ => trivial) fun _ _ _ same => same) fun _ => ?_
  refine demand_spec lasting (fun _ _ => rfl) ?_ fun _ _ _ _ _ _ => trivial
  rintro s reply t _ inv ⟨idle, taken⟩ (⟨⟨message, rfl⟩, _⟩ | ⟨rfl, rfl⟩) ok
  · cases ok
  · exact ⟨value, idle, if_pos rfl, taken⟩

theorem starting_spec : Spec (.unit u) (fun s : State texts => s.phase u = .down) (starting u)
    (fun _ _ => True) fun _ => True := by
  refine System.Heeds.bind prepare_spec fun _ => ?_
  rintro s ⟨inv, value, ready⟩
  have executed : Spec (.unit u) (Ready u value) (demand (.exec u) id)
      (fun _ s => s.pending u = some value ∧ Backed u value s) fun _ => True := by
    refine demand_spec ((lasting_idle u).and ((lasting_pending u value).and (lasting_taken _ u value)))
      (fun s ready => ⟨rfl, ready.1.2⟩) ?_ fun _ _ _ _ _ _ => trivial
    rintro s reply t _ inv ⟨_, pending, taken⟩ (⟨⟨message, rfl⟩, _⟩ | ⟨rfl, rfl⟩) ok
    · cases ok
    · refine ⟨pending, fun loaded is => ?_⟩
      rw [setPhase_self] at is
      obtain rfl := Phase.up.inj is
      exact taken
  have committed : Spec (.unit u)
      (fun s : State texts => s.pending u = some value ∧ Backed u value s) (commit u)
      (fun _ _ => True) fun _ => True := by
    refine demand_spec ((lasting_pending u value).and (lasting_backed u value)) ?_
      (fun _ _ _ _ _ _ _ _ => trivial) fun _ _ _ _ _ _ => trivial
    rintro s ⟨pending, backed⟩
    refine ⟨rfl, fun other is => ?_⟩
    obtain rfl := Option.some.inj (pending.symm.trans is)
    exact backed
  exact System.Heeds.bind executed (fun _ => committed) s ⟨inv, ready⟩

theorem lifecycle_spec : Spec (.unit u) (fun _ : State texts => True) (lifecycle u)
    (fun _ _ => True) fun _ => True := by
  have stopped : Spec (.unit u) (fun _ : State texts => True) (perform (.stopped u))
      (fun _ s => s.phase u = .down) fun _ => True := by
    refine perform_spec (lasting_true _) (fun _ _ => rfl) ?_
    rintro s reply t inv _ rfl
    exact setPhase_self s u .down
  have cleared : Spec (.unit u) (fun _ : State texts => True) (clear u) (fun _ _ => True)
      fun _ => True :=
    demand_spec (lasting_true _) (fun _ _ => rfl) (fun _ _ _ _ _ _ _ _ => trivial)
      fun _ _ _ _ _ _ => trivial
  refine System.Heeds.bind stopped fun _ =>
    System.Heeds.bind (System.Heeds.attempt starting_spec) fun result => ?_
  refine System.Heeds.bind (System.Heeds.weaken ?_ stopped (fun _ _ after => after)
    fun _ _ failed => failed) fun _ => ?_
  · intro s ended
    cases result with
    | ok value => exact ended
    | error message => exact ended
  · exact System.Heeds.weaken (fun s here => ⟨here.1, trivial⟩) cleared (fun _ _ after => after)
      fun _ _ failed => failed

end Hooks

/-! ## The script -/

def Written (s : State texts) : Prop :=
  s.isWritten = true

theorem lasting_written : Lasting .script (Written : State texts → Prop) :=
  fun _ _ onward written => (onward.written written).1

theorem lasting_current : Lasting .script fun s : State texts => Written s ∧ Current s :=
  fun _ _ onward here => ⟨(onward.written here.1).1, onward.current here.1 here.2⟩

theorem lasting_exact (u : DockerUnit) (value : texts.Digest) :
    Lasting .script fun s : State texts => Written s ∧ Exact texts u value s.version := by
  rintro s t onward ⟨written, isExact⟩
  obtain ⟨still, same⟩ := onward.written written
  rw [same]
  exact ⟨still, isExact⟩

theorem script_reading : Reading texts .script Written
    fun s file read => read = texts.text file (s.version file) := by
  refine ⟨fun s t onward written => ?_, fun s file _ => rfl⟩
  obtain ⟨still, same⟩ := onward.written written
  rw [same]
  exact ⟨still, fun _ _ is => is⟩

/-- A service that is stopped is not stale. -/
theorem stop_spec {units : List DockerUnit} (member : .service ∈ units) :
    Spec .script (Written : State texts → Prop) (demand (.systemctlStop units) id)
      (fun _ s => Written s ∧ Current s) fun _ => True := by
  refine demand_spec lasting_written (fun _ _ => trivial) ?_ fun _ _ _ _ _ _ => trivial
  rintro s reply t _ inv written ⟨rfl, stopped⟩ ok
  refine ⟨written, fun loaded running => ?_⟩
  cases (stopped ok .service member).symm.trans running

theorem start_spec (units : List DockerUnit) :
    Spec .script (fun s : State texts => Written s ∧ Current s)
      (demand (.systemctlStart units) id) (fun _ s => Written s ∧ Current s) fun _ => True :=
  quiet_spec lasting_current (fun _ => trivial) fun _ _ _ started => started.1

theorem restartDocker_spec : Spec .script (Written : State texts → Prop) restartDocker
    (fun _ s => Written s ∧ Current s) fun _ => True := by
  have signed := signature_spec (E := fun _ => True) (@script_reading texts) (fun _ _ => trivial)
  refine System.Heeds.bind (signed .socket) fun socketSignature => ?_
  refine System.Heeds.bind (System.Heeds.weaken (fun s here => ⟨here.1, here.2.1⟩)
    (signed .service) (fun _ _ after => after) fun _ _ failed => failed) fun serviceSignature => ?_
  have lasting := @lasting_exact texts .service serviceSignature
  have looked : ∀ u, Spec .script
      (fun s : State texts => Written s ∧ Exact texts .service serviceSignature s.version)
      (perform (.cat u)) (fun (active : Option texts.Digest) s =>
        (Written s ∧ Exact texts .service serviceSignature s.version) ∧
          (u = .service → active = some serviceSignature → Current s)) fun _ => True := by
    intro u
    refine perform_spec lasting (fun _ _ => trivial) ?_
    rintro s reply t inv here ⟨rfl, found⟩
    refine ⟨here, ?_⟩
    rintro rfl active
    exact current_of_active inv here.2 (found serviceSignature active)
  refine System.Heeds.bind (looked .socket) fun socketActive => ?_
  have restarted : ∀ stop start, DockerUnit.service ∈ stop → Spec .script (Written : State texts → Prop)
      (do demand .validate id
          demand (.systemctlStop stop) id
          demand (.systemctlStart start) id) (fun _ s => Written s ∧ Current s) fun _ => True :=
    fun stop start member => System.Heeds.bind
      (quiet_spec lasting_written (fun _ => trivial) fun _ _ _ same => same) fun _ =>
        System.Heeds.bind (stop_spec member) fun _ => start_spec start
  by_cases socketStale : socketActive ≠ some socketSignature
  · rw [if_pos socketStale]
    exact System.Heeds.weaken (fun s here => ⟨here.1, here.2.1.1⟩)
      (restarted [.service, .socket] [.socket, .service] (by simp)) (fun _ _ after => after)
      fun _ _ failed => failed
  · rw [if_neg socketStale]
    refine System.Heeds.bind (System.Heeds.weaken (fun s here => ⟨here.1, here.2.1⟩)
      (looked .service) (fun _ _ after => after) fun _ _ failed => failed) fun serviceActive => ?_
    by_cases serviceStale : serviceActive ≠ some serviceSignature
    · rw [if_pos serviceStale]
      exact System.Heeds.weaken (fun s here => ⟨here.1, here.2.1.1⟩)
        (restarted [.service] [.service] (by simp)) (fun _ _ after => after)
        fun _ _ failed => failed
    · rw [if_neg serviceStale]
      refine System.Heeds.weaken (fun s here => ⟨here.1, here.2.1.1, ?_⟩)
        (start_spec [.socket, .service]) (fun _ _ after => after) fun _ _ failed => failed
      exact here.2.2 rfl (not_not.1 serviceStale)

theorem provision_spec : Spec .script (fun _ : State texts => True) provision
    (fun _ s => Written s ∧ Current s) fun _ => True := by
  have written : Spec .script (fun _ : State texts => True) (perform .written)
      (fun _ s => Written s) fun _ => True := by
    refine perform_spec (lasting_true _) (fun _ _ => rfl) ?_
    rintro s reply t inv _ rfl
    rfl
  exact System.Heeds.bind written fun _ => restartDocker_spec

/-! ## All of them at once -/

/-- What an actor leaves. -/
def Leaves (a : Actor) (result : Except String Unit) (s : State texts) : Prop :=
  Inv s ∧ (a = .script → result = .ok () → Written s ∧ Current s)

theorem leaves_stable (a : Actor) (result : Except String Unit) :
    (Among texts a).Stable (Leaves a result) := by
  refine Lasting.stable (a := a) fun s t onward leaves => ?_
  rintro rfl ok
  exact lasting_current s t onward (leaves rfl ok)

theorem actors_guarded (a : Actor) (s : State texts) (inv : Inv s) :
    (Among texts a).Guarded (guard a) (Leaves a) (actors texts a) s := by
  cases a with
  | unit u =>
      refine System.Guarded.mono ?_ (lifecycle_spec s ⟨inv, trivial⟩)
      intro result t ended
      cases result with
      | ok value => exact ⟨ended.1, fun impossible => nomatch impossible⟩
      | error message => exact ⟨ended.1, fun impossible => nomatch impossible⟩
  | script =>
      refine System.Guarded.mono ?_ (provision_spec s ⟨inv, trivial⟩)
      intro result t ended
      cases result with
      | ok value => exact ⟨ended.1, fun _ _ => ended.2⟩
      | error message => exact ⟨ended.1, fun _ impossible => nomatch impossible⟩

theorem Booted.inv {s : State texts} (booted : Booted s) : Inv s := by
  refine ⟨fun u loaded running => ?_, fun u value active => ?_⟩
  · cases (booted.phase u).symm.trans running
  · cases (booted.active u).symm.trans active

abbrev Boot (texts : Texts) := Pool (guest texts) Actor (Except String Unit)

/-! ## An update -/

namespace Update

/-- Files that say which version they are. -/
def toy : Texts where
  Text := Nat
  Digest := List (Option Nat)
  text := fun _ n => some n
  digest := id
  sameDigest := inferInstance
  once := fun _ _ _ => Option.some.inj
  exact := Function.injective_id

def isDown : Phase → Bool
  | .down => true
  | .up _ => false

def allAre (down : Bool) (s : State toy) (units : List DockerUnit) : Bool :=
  units.all fun u => isDown (s.phase u) == down

/-- Nothing fails; a `systemctl` that would wait is answered with an error. -/
def serve : (request : Request toy) → State toy → Reply toy request × State toy
  | .written, s => ((), { s with isWritten := true })
  | .sha256sum file, s => (.ok (s.version file), s)
  | .isFile _, s => (true, s)
  | .installState, s | .mktemp, s | .writeTemporary, s | .validate, s => (.ok (), s)
  | .removeActive u, s => (.ok (), s.setActive u none)
  | .moveToPending u value, s => (.ok (), s.setPending u (some value))
  | .moveToActive u, s => (.ok (), (s.setActive u (s.pending u)).setPending u none)
  | .removeBoth u, s => (.ok (), (s.setActive u none).setPending u none)
  | .exec u, s => (.ok (), s.setPhase u (.up s.version))
  | .stopped u, s => ((), s.setPhase u .down)
  | .cat u, s => (s.active u, s)
  | .systemctlStop units, s => (if allAre true s units then .ok () else .error "still running", s)
  | .systemctlStart units, s => (if allAre false s units then .ok () else .error "not started", s)

theorem allAre_iff {down : Bool} {s : State toy} {units : List DockerUnit}
    (are : allAre down s units = true) : ∀ u ∈ units, isDown (s.phase u) = down :=
  fun u member => eq_of_beq (List.all_eq_true.1 are u member)

theorem serves (request : Request toy) (s : State toy) :
    exec request s (serve request s).1 (serve request s).2 := by
  cases request with
  | written | installState | mktemp | writeTemporary | validate | stopped => rfl
  | removeActive | moveToPending | moveToActive | exec => exact .inr ⟨rfl, rfl⟩
  | removeBoth => exact .inr rfl
  | sha256sum file => exact ⟨rfl, fun text ok => congrArg some (Except.ok.inj ok)⟩
  | isFile file => exact ⟨rfl, fun impossible => nomatch impossible⟩
  | cat u => exact ⟨rfl, fun value is => is⟩
  | systemctlStop units =>
      refine ⟨rfl, fun ok u member => ?_⟩
      by_cases are : allAre true s units = true
      · have down := allAre_iff are u member
        cases is : s.phase u with
        | down => rfl
        | up loaded => cases (congrArg isDown is).symm.trans down
      · have refused : (if allAre true s units = true then (.ok () : Except String Unit)
            else .error "still running") = .ok () := ok
        rw [if_neg are] at refused
        cases refused
  | systemctlStart units =>
      refine ⟨rfl, fun ok u member is => ?_⟩
      by_cases are : allAre false s units = true
      · cases (congrArg isDown is).symm.trans (allAre_iff are u member)
      · have refused : (if allAre false s units = true then (.ok () : Except String Unit)
            else .error "not started") = .ok () := ok
        rw [if_neg are] at refused
        cases refused

def before : Boot toy :=
  ⟨⟨fun _ => 0, false, fun _ => none, fun _ => none, fun _ => .down⟩, fun _ => none⟩

def begun (m : Boot toy) (a : Actor) : Boot toy :=
  ⟨m.state, m.put a (some (actors toy a))⟩

def left (m : Boot toy) (a : Actor) : Boot toy :=
  ⟨m.state, m.put a none⟩

/-- So many requests of an actor. -/
def goes (m : Boot toy) (a : Actor) (requests : Nat) : Boot toy :=
  match m.running a with
  | none => m
  | some program =>
      ⟨(Program.advance serve requests (program, m.state)).2,
        m.put a (some (Program.advance serve requests (program, m.state)).1)⟩

theorem reaches_goes (m : Boot toy) (a : Actor) (requests : Nat) :
    Pool.Reaches (actors toy) m (goes m a requests) := by
  unfold goes
  cases turn : m.running a with
  | none => exact .refl
  | some program =>
      exact Pool.reaches_leads turn
        (@System.Leads.advance (Requests toy) (guest toy) _ serve serves requests _)

/-- The service was started, and then `daemon.json` was written. -/
def edited : Boot toy :=
  let m := goes (begun before (.unit .service)) (.unit .service) 15
  ⟨{ m.state with version := fun file =>
      if file = .daemonJson then m.state.version .daemonJson + 1 else m.state.version file }, m.running⟩

/-- The script has found it to be stale and waits for it to stop. -/
def waiting : Boot toy :=
  goes (begun edited .script) .script 12

def stopped : Boot toy :=
  goes (goes waiting (.unit .service) 2) .script 1

def restarted : Boot toy :=
  goes (begun (left stopped (.unit .service)) (.unit .service)) (.unit .service) 15

def after : Boot toy :=
  goes (goes (begun restarted (.unit .socket)) (.unit .socket) 10) .script 1

theorem reaches_edited : Pool.Reaches (actors toy) before edited := by
  have ran : Pool.Reaches (actors toy) before (goes (begun before (.unit .service)) (.unit .service) 15) :=
    .head (.start _ rfl) (reaches_goes _ _ _)
  exact ran.tail (.env (.write rfl .daemonJson))

theorem updated : Pool.Reaches (actors toy) before after := by
  have checked : Pool.Reaches (actors toy) before waiting :=
    (reaches_edited.tail (.start _ rfl)).trans (reaches_goes _ _ _)
  have halted : Pool.Reaches (actors toy) before stopped :=
    (checked.trans (reaches_goes _ _ _)).trans (reaches_goes _ _ _)
  have again : Pool.Reaches (actors toy) before restarted :=
    ((halted.tail (.leave _)).tail (.start _ rfl)).trans (reaches_goes _ _ _)
  exact ((again.tail (.start _ rfl)).trans (reaches_goes _ _ _)).trans (reaches_goes _ _ _)

end Update

/-! ## Every run -/

/-- **No stale service.**  Files are written and units start, fail, stop and are killed in any
order since the boot, while the script runs too: once that is done without an error, a Docker
service that runs has loaded the binary, `daemon.json` and environment that there are now. -/
theorem service_current (texts : Texts) (start m : Boot texts) (booted : Booted start.state)
    (idle : ∀ a, start.running a = none) (reaches : Pool.Reaches (actors texts) start m)
    (done : m.running .script = some (.done (.ok ()))) :
    ∀ loaded, m.state.phase .service = .up loaded →
      ∀ file ∈ [File.binary, .complete, .daemonJson, .environment],
        texts.text file (loaded file) = texts.text file (m.state.version file) := by
  have heeding : Pool.Heeding guard Inv Leaves start := by
    refine ⟨booted.inv, fun a program running => ?_⟩
    cases (idle a).symm.trans running
  have after := Pool.guarded (fun s t inv moves => Moves.inv moves inv)
    (fun a request s reply t inv allowed performed => (exec_kept inv allowed performed).1)
    leaves_stable actors_guarded heeding reaches
  have leaves : Leaves .script (.ok ()) m.state := after.2 .script _ done
  intro loaded running file member
  have known : file ∈ files .service := by
    simp only [List.mem_cons, List.not_mem_nil, or_false] at member
    rcases member with rfl | rfl | rfl | rfl <;> decide
  rw [(leaves.2 rfl rfl).2 loaded running file known]

/-- A service that was started before `daemon.json` changed is started again. -/
theorem service_current_update :
    ∃ loaded, Update.after.state.phase .service = .up loaded ∧ loaded .daemonJson = 1 ∧
      ∀ file ∈ [File.binary, .complete, .daemonJson, .environment],
        Update.toy.text file (loaded file) =
          Update.toy.text file (Update.after.state.version file) := by
  refine ⟨_, rfl, rfl, service_current Update.toy Update.before Update.after ?_ (fun _ => rfl)
    Update.updated rfl _ rfl⟩
  exact ⟨rfl, fun _ => rfl, fun _ => rfl, fun _ => rfl⟩

end Luhmen.Guest.ConfigSignature
