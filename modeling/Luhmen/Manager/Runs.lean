/-
# Manager.Runs -- the manager between any two moments of a run

Whatever was requested, failed, was killed or rebooted in between, the later store
comes from the earlier one by steps (`runs_keep`).  A run begins with a parent VM without
microVMs (`World.Empty`); `Two` has two creations to begin with.
-/
import Luhmen.Manager.Serve

set_option autoImplicit false

namespace Luhmen.Manager

open Luhmen.Theory

/-! ## From moment to moment -/

/-- A parent VM without microVMs. -/
structure World.Empty (w : World) : Prop where
  vms : w.vms = ∅
  state : ∀ id, w.state id = none
  disk : ∀ id, w.disk id = none
  staged : ∀ id pid, w.staged id pid = none
  launched : ∀ pid process, w.processes pid = some process → process.launch = none
  owner : ∀ id, w.owner id = none
  found : ¬ w.astray

theorem World.fresh_empty (cpus memory : Nat) : (World.fresh cpus memory).Empty where
  vms := rfl
  state _ := rfl
  disk _ := rfl
  staged _ _ := rfl
  launched _ _ there := nomatch there
  owner _ := rfl
  found := not_false

theorem World.Empty.good {w : World} (empty : w.Empty) (rules : Rules) : w.Good rules := by
  have noRecord : ∀ id, w.store.record id = none := fun id => by
    show (w.state id).map Record.read = none
    rw [empty.state id]
    rfl
  have noDisk : ∀ id inode, w.disk id ≠ some inode := fun id inode there =>
    nomatch (empty.disk id).symm.trans there
  have absent : ∀ {id : Id} {record : Record} {fact : Prop}, w.store.record id = some record → fact :=
    fun {id} _ _ there => nomatch (noRecord id).symm.trans there
  have noLoad : ∀ cost, w.store.load cost w.store.vms = 0 := fun cost => by
    show w.store.load cost w.vms = 0
    rw [empty.vms]
    exact Finset.sum_empty
  refine ⟨fun id content there => (nomatch (empty.state id).symm.trans there), ?_,
    fun id pid inode there => (nomatch (empty.staged id pid).symm.trans there),
    fun a b p q inode there => (nomatch (empty.staged a p).symm.trans there),
    fun id inode there => absurd there (noDisk id inode), ?_, fun _ => empty.found⟩
  · exact {
      named := fun id member => absurd (show id ∈ w.vms from member) (empty.vms ▸ Finset.notMem_empty id)
      known := fun id record there => absent there
      valid := fun id record there => absent there
      allowed := fun id record there => absent there
      pids := fun id record vmm there => absent there.1
      distinct := fun a b one other there => absent there
      disks := fun a b inode there => absurd there (noDisk a inode)
      launched := fun pid process number there launch =>
        nomatch (empty.launched pid process there).symm.trans launch
      owned := fun id number there => nomatch (empty.owner id).symm.trans there
      live := fun id record vmm process number there => absent there.1
      own := fun _ id record vmm process there => absent there.1
      cpus := fun _ => (noLoad _).le.trans (Nat.zero_le _)
      memory := fun _ => .inl (noLoad _) }
  · exact fun pid process number there launch =>
      nomatch (empty.launched pid process there).symm.trans launch

section Runs

variable {conditions : Conditions} {rules : Rules} {ι : Type} {calls : ι → Call}

/-- A later world comes from an earlier one by steps of the store. -/
theorem runs_keep (meets : conditions.Meets rules) (allowed : ∀ i, (calls i).Allowed rules)
    {start before after : Machine (parentVm conditions) ι Exit}
    (alone : start.running = none) (good : World.Good rules start.state)
    (reaches : (parentVm conditions).Reaches (fun i => manager (calls i)) start before)
    (later : (parentVm conditions).Reaches (fun i => manager (calls i)) before after) :
    Inv rules (fun _ => False) before.state after.state := by
  exact System.two_moments (inv_lasting meets) (fun _ _ _ => inv_idle)
    (fun i exit => (calls i).steady_vouches meets exit)
    (fun i m s inv => manager_delivers meets (allowed i) (fun _ _ => not_false) inv) alone
    (inv_self good) reaches later

theorem runs_good (meets : conditions.Meets rules) (allowed : ∀ i, (calls i).Allowed rules)
    {start after : Machine (parentVm conditions) ι Exit}
    (alone : start.running = none) (good : World.Good rules start.state)
    (reaches : (parentVm conditions).Reaches (fun i => manager (calls i)) start after) :
    World.Good rules after.state :=
  (runs_keep meets allowed alone good .refl reaches).good

end Runs

/-- No restriction, not even on what is created. -/
def anything : Rules := ⟨fun _ => True, fun _ => True, False⟩

theorem anything_meets (conditions : Conditions) : conditions.Meets anything :=
  Conditions.meets not_false fun _ => trivial

theorem allowed_anything (call : Call) : call.Allowed anything :=
  fun _ _ => trivial

/-- A parent VM with the request it serves, if any. -/
abbrev Parent := Machine (parentVm unrestricted) Call Exit

/-- Any requests, failures, kills and reboots. -/
abbrev Parent.Reaches (start finish : Parent) : Prop :=
  (parentVm unrestricted).Reaches manager start finish

theorem Parent.Reaches.keep {start before after : Parent} (alone : start.running = none)
    (empty : World.Empty start.state)
    (reaches : start.Reaches before) (later : before.Reaches after) :
    Inv anything (fun _ => False) before.state after.state :=
  runs_keep (anything_meets _) allowed_anything alone (empty.good anything) reaches later

/-! ## Two microVMs

A creation, and a second one behind it. -/

namespace Two

def answers : Answers where
  probe
    | .identity _ => false
    | _ => true
  ids := [ascii "a", ascii "b"]
  once := by decide

def createA : Bytes :=
  ascii "create id=a kernel=/kernel rootfs=/rootfs memory_mib=128"

theorem createA_parsed : parseRequest createA = .ok (.create,
    ⟨ascii "a", ascii "/kernel", ascii "/rootfs", ascii "1", ascii "128", ascii "0"⟩) := by
  decide +kernel

theorem createA_creates (self : Pid) : (Call.request self createA).creates =
    some ⟨ascii "a", ascii "/kernel", ascii "/rootfs", ascii "1", ascii "128", ascii "0"⟩ := by
  simp only [Call.creates, createA_parsed]

def createB : Bytes :=
  ascii "create id=b kernel=/kernel rootfs=/rootfs vcpus=2"

def empty : World :=
  World.fresh 4 4096

theorem empty_empty : empty.Empty :=
  World.fresh_empty 4 4096

/-- Behind the first creation. -/
def first : World :=
  (World.after answers 23 (manager (.request 7 createA), empty)).2

/-- Behind the second. -/
def second : World :=
  (World.after answers 40 (manager (.request 8 createB), first)).2

theorem empty_listed : empty.Listed answers :=
  fun _ member => absurd member (Finset.notMem_empty _)

/-- A call that is served to its end. -/
theorem served {ι : Type} {main : ι → Program Commands Exit} {w : World}
    (listed : w.Listed answers) {i : ι} {n : Nat} {exit : Exit}
    (done : (World.after answers n (main i, w)).1.value? = some exit) :
    (parentVm unrestricted).Reaches main ⟨w, none⟩
      ⟨(World.after answers n (main i, w)).2, some (i, .done exit)⟩ := by
  have leads := (@World.leads_after answers w Exit (main i) n listed).1
  have ended := Program.eq_done done
  rw [← ended]
  exact .head (.start i) leads.reaches

theorem first_created : Parent.Reaches ⟨empty, none⟩ ⟨first, some (.request 7 createA, .done .ok)⟩ :=
  @served _ manager empty empty_listed (.request 7 createA) 23 .ok (by decide +kernel)

theorem second_created : Parent.Reaches ⟨first, none⟩ ⟨second, some (.request 8 createB, .done .ok)⟩ :=
  @served _ manager first (World.leads_after 23 empty_listed).2 (.request 8 createB) 40 .ok
    (by decide +kernel)

end Two

end Luhmen.Manager
