/-
# Guest.Installation -- Docker is there as a whole or not at all

`install` is the middle of the script `INSTALL_DOCKER` in `src/vm_template.rs`, which unpacks the
archive of Docker and links its binaries.  A run of it fails at any command or is killed anywhere,
and what it leaves behind is there for the next one.

A `State` is `/opt/luhmen/docker` with the links; `genuine` are the archives with the checksum that
is asked for.
-/
import Luhmen.Theory.Interleaving
import Luhmen.Theory.Bytes
import Luhmen.Host.VmTemplate

namespace Luhmen.Guest.Installation

open Luhmen.Theory

set_option autoImplicit false

inductive Binary where
  | docker
  | dockerd
  | containerd
  | containerdShim
  | ctr
  | runc
  | dockerInit
  | dockerProxy
  deriving DecidableEq, Repr

def binaries : List Binary :=
  [.docker, .dockerd, .containerd, .containerdShim, .ctr, .runc, .dockerInit, .dockerProxy]

/-- A directory `docker` that was unpacked. -/
structure Unpacked where
  archive : Bytes
  /-- All of the archive. -/
  whole : Bool
  /-- With its file `.complete`. -/
  complete : Bool
  deriving DecidableEq, Repr

structure Stage where
  tgz : Bytes
  docker : Option Unpacked
  deriving DecidableEq, Repr

/-! ## Requests -/

inductive Request where
  | installDirectory
  /-- What `.install.*` matches. -/
  | abandoned
  | removeStage (stage : Nat)
  | isComplete
  | isThere
  | mktemp
  | curl (stage : Nat)
  | sha256sum (stage : Nat)
  | tar (stage : Nat)
  | testExecutable (stage : Nat) (binary : Binary)
  | writeComplete (stage : Nat)
  | mv (stage : Nat)
  | link (binary : Binary)

def Reply : Request → Type
  | .abandoned => List Nat
  | .isComplete | .isThere => Bool
  | .mktemp => Except String Nat
  | _ => Except String Unit

def Requests : Interface where
  Request := Request
  Reply := Reply

abbrev Run := Fallible String Requests

namespace Run

def perform (request : Request) : Run (Reply request) :=
  @Fallible.perform String Requests request

def demand (request : Request) {α : Type} (outcome : Reply request → Except String α) : Run α := do
  Fallible.ofExcept (outcome (← perform request))

def attempt {α : Type} (block : Run α) : Run (Except String α) :=
  Fallible.attempt .ok block

end Run

open Run

/-! ## The script -/

def installRoot : String := "/opt/luhmen/docker/" ++ Host.VmTemplate.dockerVersion

/-- `for`, with a command that ends the script where it fails. -/
def each {β : Type} (command : β → Run Unit) : List β → Run Unit
  | [] => pure ()
  | item :: items => do
      command item
      each command items

def fill (stage : Nat) : Run Unit := do
  demand (.curl stage) id
  demand (.sha256sum stage) id
  demand (.tar stage) id
  each (fun binary => demand (.testExecutable stage binary) id) binaries
  demand (.writeComplete stage) id
  demand (.mv stage) id

/-- With the trap that removes the stage. -/
def unpack : Run Unit := do
  let stage ← demand .mktemp id
  match ← attempt (fill stage) with
  | .ok () => demand (.removeStage stage) id
  | .error message => do
      let _ ← perform (.removeStage stage)
      throw message

def ensureRoot : Run Unit := do
  match ← perform .isComplete with
  | true => pure ()
  | false =>
      match ← perform .isThere with
      | true => throw ("Incomplete Docker installation at " ++ installRoot ++
          "; inspect this directory before retrying")
      | false => unpack

def install : Run Unit := do
  demand .installDirectory id
  let abandoned ← perform .abandoned
  each (fun stage => demand (.removeStage stage) id) abandoned
  ensureRoot
  each (fun binary => demand (.link binary) id) binaries

/-! ## The directory -/

structure State where
  /-- `install_root`. -/
  root : Option Unpacked
  stages : Nat → Option Stage
  /-- The links that lead there. -/
  links : Binary → Bool

def State.putStage (s : State) (stage : Nat) (contents : Option Stage) : State :=
  { s with stages := fun other => if other = stage then contents else s.stages other }

def State.putLink (s : State) (binary : Binary) (leads : Bool) : State :=
  { s with links := fun other => if other = binary then leads else s.links other }

/-- What a command for a stage does: an error with some contents, or these. -/
def Works (s : State) (stage : Nat) (contents : Stage → Stage → Prop) (reply : Except String Unit)
    (t : State) : Prop :=
  ((∃ message, reply = .error message) ∧ (t = s ∨ ∃ left, t = s.putStage stage (some left))) ∨
    (reply = .ok () ∧ ∃ now next, s.stages stage = some now ∧ contents now next ∧
      t = s.putStage stage (some next))

variable (genuine : Bytes → Prop)

def exec : (request : Request) → State → Reply request → State → Prop
  | .abandoned, s, (reply : List Nat), t => t = s ∧ ∀ stage, s.stages stage ≠ none → stage ∈ reply
  | .removeStage stage, s, (reply : Except String Unit), t =>
      ((∃ message, reply = .error message) ∧ ∃ left, t = s.putStage stage left) ∨
        (reply = .ok () ∧ t = s.putStage stage none)
  | .isComplete, s, (reply : Bool), t =>
      t = s ∧ (reply = true ↔ ∃ u, s.root = some u ∧ u.complete = true)
  | .isThere, s, (reply : Bool), t => t = s ∧ (reply = true ↔ s.root ≠ none)
  | .mktemp, s, (reply : Except String Nat), t =>
      ((∃ message, reply = .error message) ∧ t = s) ∨
        ∃ stage, reply = .ok stage ∧ s.stages stage = none ∧ t = s.putStage stage (some ⟨[], none⟩)
  | .curl stage, s, reply, t =>
      Works s stage (fun now next => ∃ tgz, next = { now with tgz }) reply t
  | .sha256sum stage, s, (reply : Except String Unit), t =>
      t = s ∧ (reply = .ok () → ∃ now, s.stages stage = some now ∧ genuine now.tgz)
  | .tar stage, s, reply, t =>
      Works s stage (fun now next => next = { now with docker := some ⟨now.tgz, true, false⟩ }) reply t
  | .writeComplete stage, s, reply, t =>
      Works s stage (fun now next => ∃ u, now.docker = some u ∧
        next = { now with docker := some { u with complete := true } }) reply t
  | .mv stage, s, (reply : Except String Unit), t =>
      ((∃ message, reply = .error message) ∧ t = s) ∨
        (reply = .ok () ∧ ∃ now u, s.stages stage = some now ∧ now.docker = some u ∧
          -- into a directory that is there, it would be moved
          t = { s.putStage stage (some { now with docker := none }) with
            root := match s.root with
              | none => some u
              | some there => some there })
  | .link binary, s, (reply : Except String Unit), t =>
      ((∃ message, reply = .error message) ∧ (t = s ∨ t = s.putLink binary false)) ∨
        (reply = .ok () ∧ t = s.putLink binary true)
  | .installDirectory, s, _, t | .testExecutable _ _, s, _, t => t = s

/-- Nobody else has to do with the directory. -/
abbrev guest : System Requests where
  State := State
  exec := exec genuine
  env := fun _ _ => False
  idle := fun _ _ => False

/-! ## What is invariant -/

variable {genuine : Bytes → Prop} {first : Option Unpacked}

def Verified (genuine : Bytes → Prop) (u : Unpacked) : Prop :=
  genuine u.archive ∧ u.whole = true ∧ u.complete = true

/-- What was there first, or there was nothing and it is verified. -/
def Inv (genuine : Bytes → Prop) (first : Option Unpacked) (s : State) : Prop :=
  s.root = first ∨ (first = none ∧ ∃ u, s.root = some u ∧ Verified genuine u)

/-- Only what is verified is moved to where nothing is. -/
def guard (genuine : Bytes → Prop) (_ : Unit) : Request → State → Prop
  | .mv stage, s => s.root = none ∧ ∃ now u, s.stages stage = some now ∧ now.docker = some u ∧
      Verified genuine u
  | _, _ => True

theorem works_root {s t : State} {stage : Nat} {contents : Stage → Stage → Prop}
    {reply : Except String Unit} (works : Works s stage contents reply t) : t.root = s.root := by
  rcases works with ⟨_, rfl | ⟨_, rfl⟩⟩ | ⟨_, _, _, _, _, rfl⟩ <;> rfl

theorem exec_inv {request : Request} {s t : State} {reply : Reply request}
    (inv : Inv genuine first s) (allowed : guard genuine () request s)
    (performed : exec genuine request s reply t) : Inv genuine first t := by
  have same : t.root = s.root → Inv genuine first t := by
    intro is
    unfold Inv
    rw [is]
    exact inv
  cases request with
  | installDirectory | testExecutable => exact same (congrArg State.root performed)
  | abandoned | isComplete | isThere | sha256sum => exact same (congrArg State.root performed.1)
  | removeStage stage =>
      apply same
      rcases performed with ⟨_, _, rfl⟩ | ⟨_, rfl⟩ <;> rfl
  | mktemp =>
      apply same
      rcases performed with ⟨_, rfl⟩ | ⟨_, _, _, rfl⟩ <;> rfl
  | curl | tar | writeComplete => exact same (works_root performed)
  | link binary =>
      apply same
      rcases performed with ⟨_, rfl | rfl⟩ | ⟨_, rfl⟩ <;> rfl
  | mv stage =>
      obtain ⟨absent, now, u, there, docker, verified⟩ := allowed
      rcases performed with ⟨_, rfl⟩ | ⟨_, now', u', there', docker', rfl⟩
      · exact inv
      · obtain rfl := Option.some.inj (there'.symm.trans there)
        obtain rfl := Option.some.inj (docker'.symm.trans docker)
        rcases inv with is | ⟨none, u, is, _⟩
        · refine .inr ⟨is.symm.trans absent, u', ?_, verified⟩
          rw [absent]
        · cases absent.symm.trans is

/-! ## The programs -/

abbrev Among (genuine : Bytes → Prop) (first : Option Unpacked) : System Requests :=
  (guest genuine).among (guard genuine) (Inv genuine first) ()

theorem stable (Q : State → Prop) : (Among genuine first).Stable Q := by
  rintro s t ⟨_, impossible | ⟨j, other, _⟩⟩ _
  · exact impossible.elim
  · exact absurd rfl other

/-- What a block assumes and leaves, while the invariant holds. -/
abbrev Spec {α : Type} (genuine : Bytes → Prop) (first : Option Unpacked) (Q : State → Prop)
    (block : Run α) (R : α → State → Prop) : Prop :=
  @System.Heeds Requests (Among genuine first) String α (guard genuine ())
    (fun s => Inv genuine first s ∧ Q s) block (fun value s => Inv genuine first s ∧ R value s)
    fun _ s => Inv genuine first s

variable {Q : State → Prop}

theorem spec_pure {α : Type} {value : α} {R : α → State → Prop} (holds : ∀ s, Q s → R value s) :
    Spec genuine first Q (pure value) R :=
  System.Heeds.pure fun s here => ⟨here.1, holds s here.2⟩

theorem spec_weaken {α : Type} {block : Run α} {Q' : State → Prop} {R : α → State → Prop}
    (before : ∀ s, Q s → Q' s) (spec : Spec genuine first Q' block R) :
    Spec genuine first Q block R :=
  System.Heeds.weaken (fun s here => ⟨here.1, before s here.2⟩) spec (fun _ _ after => after)
    fun _ _ fails => fails

theorem perform_spec {request : Request} {R : Reply request → State → Prop}
    (allowed : ∀ s, Q s → guard genuine () request s)
    (performs : ∀ s reply t, Q s → exec genuine request s reply t → R reply t) :
    Spec genuine first Q (perform request) R := by
  refine System.Heeds.perform (stable _) (fun s here => allowed s here.2) ?_
  intro s reply t here performed
  exact ⟨exec_inv here.1 (allowed s here.2) performed, performs s reply t here.2 performed⟩

/-- A command that ends the script where it fails. -/
theorem demand_spec {α : Type} {request : Request} {outcome : Reply request → Except String α}
    {R : α → State → Prop} (allowed : ∀ s, Q s → guard genuine () request s)
    (good : ∀ s reply t value, Q s → exec genuine request s reply t → outcome reply = .ok value →
      R value t) : Spec genuine first Q (demand request outcome) R := by
  have performed : Spec genuine first Q (perform request)
      fun reply t => ∃ s, Q s ∧ exec genuine request s reply t :=
    perform_spec allowed fun s reply t here performed => ⟨s, here, performed⟩
  refine System.Heeds.bind performed fun reply => ?_
  cases result : outcome reply with
  | ok value =>
      rintro t ⟨inv, s, here, performed⟩
      exact ⟨inv, good s reply t value here performed result⟩
  | error message => exact fun t here => here.1

/-- A loop: `holds` of what is still to come. -/
theorem each_spec {β : Type} {command : β → Run Unit} (holds : List β → State → Prop)
    (one : ∀ item items, Spec genuine first (holds (item :: items)) (command item)
      fun _ s => holds items s) (items : List β) :
    Spec genuine first (holds items) (each command items) fun _ s => holds [] s := by
  induction items with
  | nil => exact spec_pure fun s here => here
  | cons item items ih => exact System.Heeds.bind (one item items) fun _ => ih

/-! ### The stage -/

/-- Nothing is installed, and this is all there is besides. -/
def Filling (stage : Nat) (p : Stage → Prop) (s : State) : Prop :=
  s.root = none ∧ (∃ now, s.stages stage = some now ∧ p now) ∧
    ∀ other, other ≠ stage → s.stages other = none

theorem works_spec {request : Request} {stage : Nat} {p q : Stage → Prop}
    {contents : Stage → Stage → Prop} {outcome : Reply request → Except String Unit}
    (allowed : ∀ s, Filling stage p s → guard genuine () request s)
    (works : ∀ s reply t, exec genuine request s reply t → outcome reply = .ok () →
      ∃ now next, s.stages stage = some now ∧ contents now next ∧ t = s.putStage stage (some next))
    (after : ∀ now next, p now → contents now next → q next) :
    Spec genuine first (Filling stage p) (demand request outcome) fun _ s => Filling stage q s := by
  refine demand_spec allowed ?_
  rintro s reply t value ⟨absent, ⟨now, is, has⟩, others⟩ performed ok
  obtain ⟨now', next, is', did, rfl⟩ := works s reply t performed ok
  obtain rfl := Option.some.inj (is'.symm.trans is)
  refine ⟨absent, ⟨next, if_pos rfl, after now' next has did⟩, fun other different => ?_⟩
  exact (if_neg different).trans (others other different)

theorem works_ok {s t : State} {stage : Nat} {contents : Stage → Stage → Prop}
    {reply : Except String Unit} (works : Works s stage contents reply t) (ok : id reply = .ok ()) :
    ∃ now next, s.stages stage = some now ∧ contents now next ∧ t = s.putStage stage (some next) := by
  rcases works with ⟨⟨message, rfl⟩, _⟩ | ⟨_, made⟩
  · cases ok
  · exact made

/-- What is installed, and nothing besides. -/
def Installed (s : State) : Prop :=
  (∃ u, s.root = some u ∧ u.complete = true) ∧ ∀ stage, s.stages stage = none

theorem fill_spec (stage : Nat) : Spec genuine first (Filling stage fun _ => True) (fill stage)
    fun _ s => (∃ u, s.root = some u ∧ u.complete = true) ∧
      ∀ other, other ≠ stage → s.stages other = none := by
  have fetched : Spec genuine first (Filling stage fun _ => True) (demand (.curl stage) id)
      fun _ s => Filling stage (fun _ => True) s :=
    works_spec (fun _ _ => trivial) (fun _ _ _ => works_ok) fun _ _ _ _ => trivial
  have checked : Spec genuine first (Filling stage fun _ => True) (demand (.sha256sum stage) id)
      fun _ s => Filling stage (fun now => genuine now.tgz) s := by
    refine demand_spec (fun _ _ => trivial) ?_
    rintro s reply t value ⟨absent, ⟨now, is, _⟩, others⟩ ⟨rfl, matched⟩ ok
    obtain ⟨now', is', right⟩ := matched ok
    exact ⟨absent, ⟨now', is', right⟩, others⟩
  have unpacked : Spec genuine first (Filling stage fun now => genuine now.tgz)
      (demand (.tar stage) id)
      fun _ s => Filling stage (fun now => ∃ u, now.docker = some u ∧ genuine u.archive ∧
        u.whole = true) s := by
    refine works_spec (fun _ _ => trivial) (fun _ _ _ => works_ok) ?_
    rintro now next right rfl
    exact ⟨_, rfl, right, rfl⟩
  have tested : Spec genuine first (Filling stage fun now => ∃ u, now.docker = some u ∧
        genuine u.archive ∧ u.whole = true)
      (each (fun binary => demand (.testExecutable stage binary) id) binaries)
      fun _ s => Filling stage (fun now => ∃ u, now.docker = some u ∧ genuine u.archive ∧
        u.whole = true) s := by
    have one : ∀ binary, Spec genuine first (Filling stage fun now => ∃ u, now.docker = some u ∧
          genuine u.archive ∧ u.whole = true) (demand (.testExecutable stage binary) id)
        fun _ s => Filling stage (fun now => ∃ u, now.docker = some u ∧ genuine u.archive ∧
          u.whole = true) s := by
      refine fun binary => demand_spec (fun _ _ => trivial) ?_
      rintro s reply t value here rfl ok
      exact here
    exact each_spec (fun _ => Filling stage fun now => ∃ u, now.docker = some u ∧
      genuine u.archive ∧ u.whole = true) (fun binary _ => one binary) binaries
  have completed : Spec genuine first (Filling stage fun now => ∃ u, now.docker = some u ∧
        genuine u.archive ∧ u.whole = true)
      (demand (.writeComplete stage) id)
      fun _ s => Filling stage (fun now => ∃ u, now.docker = some u ∧ Verified genuine u) s := by
    refine works_spec (fun _ _ => trivial) (fun _ _ _ => works_ok) ?_
    rintro now next ⟨u, is, right, whole⟩ ⟨u', is', rfl⟩
    obtain rfl := Option.some.inj (is'.symm.trans is)
    exact ⟨_, rfl, right, whole, rfl⟩
  refine System.Heeds.bind fetched fun _ => System.Heeds.bind checked fun _ =>
    System.Heeds.bind unpacked fun _ => System.Heeds.bind tested fun _ =>
    System.Heeds.bind completed fun _ => demand_spec ?_ ?_
  · rintro s ⟨absent, ⟨now, is, u, docker, verified⟩, _⟩
    exact ⟨absent, now, u, is, docker, verified⟩
  · rintro s reply t value ⟨absent, ⟨now, is, u, docker, verified⟩, others⟩
      (⟨⟨message, rfl⟩, _⟩ | ⟨_, now', u', is', docker', rfl⟩) ok
    · cases ok
    · obtain rfl := Option.some.inj (is'.symm.trans is)
      obtain rfl := Option.some.inj (docker'.symm.trans docker)
      refine ⟨⟨u', ?_, verified.2.2⟩, fun other different => ?_⟩
      · rw [absent]
      · exact (if_neg different).trans (others other different)

theorem unpack_spec : Spec genuine first (fun s => s.root = none ∧ ∀ stage, s.stages stage = none)
    unpack fun _ s => Installed s := by
  have drawn : Spec genuine first (fun s => s.root = none ∧ ∀ stage, s.stages stage = none)
      (demand .mktemp id) fun stage s => Filling stage (fun _ => True) s := by
    refine demand_spec (fun _ _ => trivial) ?_
    rintro s reply t value ⟨absent, empty⟩ (⟨⟨message, rfl⟩, _⟩ | ⟨stage, rfl, _, rfl⟩) ok
    · cases ok
    · obtain rfl := Except.ok.inj ok
      exact ⟨absent, ⟨_, if_pos rfl, trivial⟩, fun other different =>
        (if_neg different).trans (empty other)⟩
  refine System.Heeds.bind drawn fun stage =>
    System.Heeds.bind (System.Heeds.attempt (fill_spec stage)) fun result => ?_
  cases result with
  | ok value =>
      refine demand_spec (fun _ _ => trivial) ?_
      rintro s reply t value ⟨there, others⟩ (⟨⟨message, rfl⟩, _⟩ | ⟨_, rfl⟩) ok
      · cases ok
      · refine ⟨there, fun other => ?_⟩
        by_cases same : other = stage
        · exact if_pos same
        · exact (if_neg same).trans (others other same)
  | error message =>
      have removed : Spec genuine first (fun _ => True) (perform (.removeStage stage))
          fun _ _ => True := perform_spec (fun _ _ => trivial) fun _ _ _ _ _ => trivial
      refine System.Heeds.bind (System.Heeds.weaken ?_ removed (fun _ _ after => after)
        fun _ _ fails => fails) fun _ => System.Heeds.throw fun s here => here.1
      exact fun s here => ⟨here, trivial⟩

theorem ensureRoot_spec : Spec genuine first (fun s => ∀ stage, s.stages stage = none) ensureRoot
    fun _ s => Installed s := by
  have looked : Spec genuine first (fun s => ∀ stage, s.stages stage = none) (perform .isComplete)
      fun (complete : Bool) s => (∀ stage, s.stages stage = none) ∧
        (complete = true → ∃ u, s.root = some u ∧ u.complete = true) := by
    refine perform_spec (fun _ _ => trivial) ?_
    rintro s reply t empty ⟨rfl, complete⟩
    exact ⟨empty, complete.1⟩
  refine System.Heeds.bind looked fun complete => ?_
  cases complete with
  | true => exact spec_pure fun s here => ⟨here.2 rfl, here.1⟩
  | false =>
      have found : Spec genuine first (fun s => ∀ stage, s.stages stage = none) (perform .isThere)
          fun (there : Bool) s => (there = false → s.root = none) ∧
            ∀ stage, s.stages stage = none := by
        refine perform_spec (fun _ _ => trivial) ?_
        rintro s reply t empty ⟨rfl, there⟩
        refine ⟨fun is => ?_, empty⟩
        subst is
        by_contra some
        cases there.2 some
      refine System.Heeds.bind (spec_weaken (fun s here => here.1) found) fun there => ?_
      cases there with
      | true => exact System.Heeds.throw fun s here => here.1
      | false => exact spec_weaken (fun s here => ⟨here.1 rfl, here.2⟩) unpack_spec

theorem install_spec : Spec genuine first (fun _ => True) install
    fun _ s => Installed s ∧ ∀ binary, s.links binary = true := by
  have made : Spec genuine first (fun _ => True) (demand .installDirectory id) fun _ _ => True :=
    demand_spec (fun _ _ => trivial) fun _ _ _ _ _ _ _ => trivial
  have listed : Spec genuine first (fun _ => True) (perform .abandoned)
      fun (abandoned : List Nat) s => ∀ stage, s.stages stage ≠ none → stage ∈ abandoned := by
    refine perform_spec (fun _ _ => trivial) ?_
    rintro s reply t _ ⟨rfl, all⟩
    exact all
  have removed : ∀ abandoned, Spec genuine first
      (fun s => ∀ stage, s.stages stage ≠ none → stage ∈ abandoned)
      (each (fun stage => demand (.removeStage stage) id) abandoned)
      fun _ s => ∀ stage, s.stages stage = none := by
    intro abandoned
    have one : ∀ item items, Spec genuine first
        (fun s => ∀ stage, s.stages stage ≠ none → stage ∈ item :: items)
        (demand (.removeStage item) id)
        fun _ s => ∀ stage, s.stages stage ≠ none → stage ∈ items := by
      refine fun item items => demand_spec (fun _ _ => trivial) ?_
      rintro s reply t value within (⟨⟨message, rfl⟩, _⟩ | ⟨_, rfl⟩) ok
      · cases ok
      · intro stage there
        by_cases same : stage = item
        · exact absurd (if_pos same) there
        · have still : s.stages stage ≠ none := fun gone => there ((if_neg same).trans gone)
          exact (List.mem_cons.1 (within stage still)).resolve_left same
    have emptied := each_spec (fun left s => ∀ stage, s.stages stage ≠ none → stage ∈ left) one
      abandoned
    refine System.Heeds.weaken (fun _ here => here) emptied ?_ fun _ _ fails => fails
    rintro _ s ⟨inv, within⟩
    refine ⟨inv, fun stage => ?_⟩
    by_contra there
    cases within stage there
  have linked : ∀ binary others, Spec genuine first
      (fun s => Installed s ∧ ∀ other, s.links other = true ∨ other ∈ binary :: others)
      (demand (.link binary) id)
      fun _ s => Installed s ∧ ∀ other, s.links other = true ∨ other ∈ others := by
    refine fun binary others => demand_spec (fun _ _ => trivial) ?_
    rintro s reply t value ⟨installed, links⟩ (⟨⟨message, rfl⟩, _⟩ | ⟨_, rfl⟩) ok
    · cases ok
    · refine ⟨installed, fun other => ?_⟩
      by_cases same : other = binary
      · exact .inl (if_pos same)
      · refine (links other).imp (fun leads => (if_neg same).trans leads) fun member => ?_
        exact (List.mem_cons.1 member).resolve_left same
  have all : Spec genuine first Installed (each (fun binary => demand (.link binary) id) binaries)
      fun _ s => Installed s ∧ ∀ binary, s.links binary = true := by
    have every : ∀ binary, binary ∈ binaries := fun binary => by cases binary <;> decide
    have done := each_spec (fun left s => Installed s ∧ ∀ other, s.links other = true ∨ other ∈ left)
      linked binaries
    exact System.Heeds.weaken
      (fun s here => ⟨here.1, here.2, fun binary => .inr (every binary)⟩) done
      (fun _ s after =>
        ⟨after.1, after.2.1, fun binary => (after.2.2 binary).resolve_right List.not_mem_nil⟩)
      fun _ _ fails => fails
  exact System.Heeds.bind made fun _ => System.Heeds.bind listed fun abandoned =>
    System.Heeds.bind (removed abandoned) fun _ => System.Heeds.bind ensureRoot_spec fun _ => all

/-! ### Runs -/

abbrev Runs (genuine : Bytes → Prop) := Pool (guest genuine) Unit (Except String Unit)

/-- What a run leaves that is done. -/
def Leaves (genuine : Bytes → Prop) (first : Option Unpacked) (_ : Unit)
    (result : Except String Unit) (s : State) : Prop :=
  Inv genuine first s ∧ (result = .ok () → Installed s ∧ ∀ binary, s.links binary = true)

theorem install_guarded (s : State) (inv : Inv genuine first s) :
    (Among genuine first).Guarded (guard genuine ()) (Leaves genuine first ()) install.run s := by
  refine System.Guarded.mono ?_ (install_spec s ⟨inv, trivial⟩)
  intro result t ended
  cases result with
  | ok value => exact ⟨ended.1, fun _ => ended.2⟩
  | error message => exact ⟨ended, (nomatch ·)⟩

/-! ## A second attempt -/

namespace Retry

/-- Nothing fails; stages have small names. -/
def serve : (request : Request) → State → Reply request × State
  | .installDirectory, s | .testExecutable _ _, s => (.ok (), s)
  | .abandoned, s => ((List.range 8).filter fun stage => (s.stages stage).isSome, s)
  | .removeStage stage, s => (.ok (), s.putStage stage none)
  | .isComplete, s => (s.root.any Unpacked.complete, s)
  | .isThere, s => (s.root.isSome, s)
  | .mktemp, s =>
      if s.stages 7 = none then (.ok 7, s.putStage 7 (some ⟨[], none⟩)) else (.error "exists", s)
  | .curl stage, s =>
      match s.stages stage with
      | none => (.error "no stage", s)
      | some now => (.ok (), s.putStage stage (some { now with tgz := [31, 139] }))
  | .sha256sum stage, s =>
      (if (s.stages stage).any fun now => now.tgz == [31, 139] then .ok () else .error "FAILED", s)
  | .tar stage, s =>
      match s.stages stage with
      | none => (.error "no stage", s)
      | some now => (.ok (), s.putStage stage (some { now with docker := some ⟨now.tgz, true, false⟩ }))
  | .writeComplete stage, s =>
      match s.stages stage with
      | some ⟨tgz, some u⟩ =>
          (.ok (), s.putStage stage (some ⟨tgz, some { u with complete := true }⟩))
      | _ => (.error "no directory", s)
  | .mv stage, s =>
      match s.stages stage with
      | some ⟨tgz, some u⟩ =>
          (.ok (), { s.putStage stage (some ⟨tgz, none⟩) with
            root := match s.root with
              | none => some u
              | some there => some there })
      | _ => (.error "no directory", s)
  | .link binary, s => (.ok (), s.putLink binary true)

def Small (s : State) : Prop :=
  ∀ stage, 8 ≤ stage → s.stages stage = none

theorem small_put {s : State} (small : Small s) {stage : Nat} {contents : Option Stage}
    (inside : stage < 8 ∨ contents = none) : Small (s.putStage stage contents) := by
  intro other large
  by_cases same : other = stage
  · subst same
    exact (if_pos rfl).trans (inside.resolve_left (Nat.not_lt.2 large))
  · exact (if_neg same).trans (small other large)

theorem inside {s : State} (small : Small s) {stage : Nat} {now : Stage}
    (is : s.stages stage = some now) : stage < 8 := by
  by_contra large
  cases (small stage (Nat.le_of_not_lt large)).symm.trans is

def archive (bytes : Bytes) : Prop :=
  bytes = [31, 139]

theorem serves (request : Request) (s : State) (small : Small s) :
    exec archive request s (serve request s).1 (serve request s).2 ∧ Small (serve request s).2 := by
  cases request with
  | installDirectory | testExecutable => exact ⟨rfl, small⟩
  | abandoned =>
      refine ⟨⟨rfl, fun stage there => ?_⟩, small⟩
      obtain ⟨now, is⟩ := Option.ne_none_iff_exists'.1 there
      have member : stage ∈ List.range 8 := List.mem_range.2 (inside small is)
      exact List.mem_filter.2 ⟨member, by simp [is]⟩
  | removeStage stage => exact ⟨.inr ⟨rfl, rfl⟩, small_put small (.inr rfl)⟩
  | isComplete => exact ⟨⟨rfl, Option.any_eq_true ..⟩, small⟩
  | isThere => exact ⟨⟨rfl, Option.isSome_iff_ne_none⟩, small⟩
  | mktemp =>
      by_cases free : s.stages 7 = none
      · simp only [serve, if_pos free]
        exact ⟨.inr ⟨7, rfl, free, rfl⟩, small_put small (.inl (by decide))⟩
      · simp only [serve, if_neg free]
        exact ⟨.inl ⟨⟨_, rfl⟩, rfl⟩, small⟩
  | curl stage =>
      cases is : s.stages stage with
      | none =>
          simp only [serve, is]
          exact ⟨.inl ⟨⟨_, rfl⟩, .inl rfl⟩, small⟩
      | some now =>
          simp only [serve, is]
          exact ⟨.inr ⟨rfl, now, _, is, ⟨_, rfl⟩, rfl⟩, small_put small (.inl (inside small is))⟩
  | sha256sum stage =>
      refine ⟨⟨rfl, fun ok => ?_⟩, small⟩
      by_cases matched : (s.stages stage).any (fun now => now.tgz == [31, 139]) = true
      · obtain ⟨now, is, same⟩ := (Option.any_eq_true ..).1 matched
        exact ⟨now, is, eq_of_beq same⟩
      · have refused : (if (s.stages stage).any (fun now => now.tgz == [31, 139]) = true then
            (.ok () : Except String Unit) else .error "FAILED") = .ok () := ok
        rw [if_neg matched] at refused
        cases refused
  | tar stage =>
      cases is : s.stages stage with
      | none =>
          simp only [serve, is]
          exact ⟨.inl ⟨⟨_, rfl⟩, .inl rfl⟩, small⟩
      | some now =>
          simp only [serve, is]
          exact ⟨.inr ⟨rfl, now, _, is, rfl, rfl⟩, small_put small (.inl (inside small is))⟩
  | writeComplete stage =>
      rcases is : s.stages stage with _ | ⟨tgz, _ | u⟩
      · simp only [serve, is]
        exact ⟨.inl ⟨⟨_, rfl⟩, .inl rfl⟩, small⟩
      · simp only [serve, is]
        exact ⟨.inl ⟨⟨_, rfl⟩, .inl rfl⟩, small⟩
      · simp only [serve, is]
        exact ⟨.inr ⟨rfl, _, _, is, ⟨u, rfl, rfl⟩, rfl⟩, small_put small (.inl (inside small is))⟩
  | mv stage =>
      rcases is : s.stages stage with _ | ⟨tgz, _ | u⟩
      · simp only [serve, is]
        exact ⟨.inl ⟨⟨_, rfl⟩, rfl⟩, small⟩
      · simp only [serve, is]
        exact ⟨.inl ⟨⟨_, rfl⟩, rfl⟩, small⟩
      · simp only [serve, is]
        exact ⟨.inr ⟨rfl, _, u, is, rfl, rfl⟩, small_put small (.inl (inside small is))⟩
  | link binary => exact ⟨.inr ⟨rfl, rfl⟩, small⟩

def before : Runs archive :=
  ⟨⟨none, fun _ => none, fun _ => false⟩, fun _ => none⟩

def begun (m : Runs archive) : Runs archive :=
  ⟨m.state, m.put () (some install.run)⟩

def killed (m : Runs archive) : Runs archive :=
  ⟨m.state, m.put () none⟩

/-- So many commands of a run that has just begun. -/
def goes (m : Runs archive) (commands : Nat) : Runs archive :=
  ⟨(Program.advance serve commands (install.run, m.state)).2,
    m.put () (some (Program.advance serve commands (install.run, m.state)).1)⟩

/-- The first run has unpacked the archive when it is killed. -/
def after : Runs archive :=
  goes (begun (killed (goes (begun before) 8))) 100

theorem reaches_goes {m : Runs archive} (free : m.running () = none) (small : Small m.state)
    (commands : Nat) :
    Pool.Reaches (fun _ => install.run) m (goes (begun m) commands) ∧
      Small (goes (begun m) commands).state := by
  obtain ⟨leads, still⟩ := @System.Leads.advance_inv Requests (guest archive) _ Small serve serves
    commands (install.run, m.state) small
  have starts : Pool.Move (fun _ => install.run) m (begun m) := .start () free
  exact ⟨.head starts (Pool.reaches_leads (Pool.put_self m () _) leads), still⟩

theorem retried : Pool.Reaches (fun _ => install.run) before after := by
  obtain ⟨first, small⟩ := reaches_goes (m := before) rfl (fun _ _ => rfl) 8
  have kill : Pool.Reaches (fun _ => install.run) before (killed (goes (begun before) 8)) :=
    first.tail (.leave ())
  exact kill.trans (reaches_goes (m := killed (goes (begun before) 8)) rfl small 100).1

end Retry

/-! ## Every run -/

/-- **Whole or not at all.**  Any number of runs, each failing or killed at any command: the
directory of Docker is what it was, or it was missing and is a whole archive with the checksum
that is asked for.  A run that is done has removed what others left and its own stage, and all
links lead to a directory that is complete. -/
theorem install_whole (genuine : Bytes → Prop) (start m : Runs genuine)
    (idle : start.running () = none) (reaches : Pool.Reaches (fun _ => install.run) start m) :
    (m.state.root = start.state.root ∨
      start.state.root = none ∧ ∃ u, m.state.root = some u ∧ genuine u.archive ∧
        u.whole = true ∧ u.complete = true) ∧
    (m.running () = some (.done (.ok ())) →
      (∃ u, m.state.root = some u ∧ u.complete = true) ∧ (∀ stage, m.state.stages stage = none) ∧
        ∀ binary, m.state.links binary = true) := by
  have heeding : Pool.Heeding (fun a => guard genuine a) (Inv genuine start.state.root)
      (Leaves genuine start.state.root) start := by
    refine ⟨.inl rfl, fun a program running => ?_⟩
    cases idle.symm.trans running
  have alone : ∀ s t, Inv genuine start.state.root s → (guest genuine).env s t →
      Inv genuine start.state.root t := fun _ _ _ impossible => impossible.elim
  have after := Pool.guarded alone
    (fun _ _ _ _ _ inv allowed performed => exec_inv inv allowed performed)
    (fun _ _ => stable _) (fun _ s inv => install_guarded s inv) heeding reaches
  refine ⟨after.1, fun done => ?_⟩
  obtain ⟨⟨there, empty⟩, links⟩ := (after.2 () _ done).2 rfl
  exact ⟨there, empty, links⟩

/-- The second run removes the stage of the first and installs Docker. -/
theorem install_whole_retry :
    (∃ u, Retry.after.state.root = some u ∧ Retry.archive u.archive ∧ u.whole = true ∧
      u.complete = true) ∧ (∀ stage, Retry.after.state.stages stage = none) ∧
      ∀ binary, Retry.after.state.links binary = true := by
  obtain ⟨first, done⟩ := install_whole Retry.archive Retry.before Retry.after rfl Retry.retried
  refine ⟨?_, (done rfl).2⟩
  rcases first with same | ⟨_, whole⟩
  · cases same
  · exact whole

end Luhmen.Guest.Installation
