/-
# Theory.Contract -- invariants between two moments of a run

`Theory.CrashLogic` keeps a property of single states.  "Once recorded, never
changed" speaks of two: a mark, which is any earlier state of the run, and the state
now.  `marked` is a system that carries such a mark and may move it to the present at
any moment, so that what is safe there is kept between any two moments
(`two_moments`).

`Contract inv pre block post failing` is the triple of that system: where `inv` and
`pre` hold the block keeps `inv`, and it ends in `post` or leaves in what `failing`
says of its way out.  The assertions need to survive the environment only where `inv`
holds.
-/
import Luhmen.Theory.CrashLogic

namespace Luhmen.Theory

set_option autoImplicit false

namespace System

variable {I : Interface} (S : System I) {ι α β : Type}

/-! ## Marks -/

/-- The system with a mark beside its state. -/
def marked : System I where
  State := S.State × S.State
  exec request x reply y := y.1 = x.1 ∧ S.exec request x.2 reply y.2
  env x y := (y.1 = x.1 ∧ S.env x.2 y.2) ∨ y = (x.2, x.2)
  idle x y := y.1 = x.1 ∧ S.idle x.2 y.2

/-- What can be said of a mark and the state now, whatever the environment does. -/
structure Lasting (inv : S.State → S.State → Prop) : Prop where
  mark : ∀ m s, inv m s → inv s s
  env : ∀ m s t, inv m s → S.env s t → inv m t

/-- The environment cannot falsify `P` where `inv` holds. -/
def Steady (inv : S.State → S.State → Prop) (P : S.State → Prop) : Prop :=
  ∀ m s t, inv m s → S.env s t → P s → P t

/-- A program that keeps `inv` and ends in `result`. -/
def Delivers (inv : S.State → S.State → Prop) (program : Program I α)
    (result : α → S.State → Prop) (x : S.State × S.State) : Prop :=
  Safe (S := S.marked) (fun x => inv x.1 x.2) (fun value x => inv x.1 x.2 ∧ result value x.2)
    program x

variable {S} {inv : S.State → S.State → Prop} {P Q : S.State → Prop}

theorem Steady.and (first : S.Steady inv P) (second : S.Steady inv Q) :
    S.Steady inv fun s => P s ∧ Q s :=
  fun m s t holds moves ⟨p, q⟩ => ⟨first m s t holds moves p, second m s t holds moves q⟩

/-- What holds beside the invariant holds of a marked state for good. -/
theorem Lasting.stable (lasting : S.Lasting inv) (steady : S.Steady inv P) :
    S.marked.Stable fun x => inv x.1 x.2 ∧ P x.2 := by
  rintro ⟨m, s⟩ ⟨m', t⟩ (⟨same, moves⟩ | same) ⟨holds, here⟩
  · obtain rfl : m' = m := same
    exact ⟨lasting.env m' s t holds moves, steady m' s t holds moves here⟩
  · obtain ⟨rfl, rfl⟩ := Prod.mk.inj same
    exact ⟨lasting.mark m t holds, here⟩

theorem Lasting.stable_inv (lasting : S.Lasting inv) : S.marked.Stable fun x => inv x.1 x.2 :=
  fun x y moves holds =>
    (lasting.stable (P := fun _ => True) (fun _ _ _ _ _ _ => trivial) x y moves ⟨holds, trivial⟩).1

/-! ## Runs with a mark -/

theorem reaches_marked {main : ι → Program I α} {x y : Machine S ι α}
    (reaches : S.Reaches main x y) (mark : S.State) :
    S.marked.Reaches main ⟨(mark, x.state), x.running⟩ ⟨(mark, y.state), y.running⟩ := by
  have lift : ∀ x y : Machine S ι α, S.Move main x y →
      S.marked.Move main ⟨(mark, x.state), x.running⟩ ⟨(mark, y.state), y.running⟩ := by
    intro x y move
    cases move with
    | env moves => exact .env (.inl ⟨rfl, moves⟩)
    | idle moves => exact .idle ⟨rfl, moves⟩
    | start i => exact .start i
    | call performed => exact .call ⟨rfl, performed⟩
    | finish => exact .finish
    | kill => exact .kill
  exact Relation.ReflTransGen.lift
    (fun x : Machine S ι α => (⟨(mark, x.state), x.running⟩ : Machine S.marked ι α)) lift _ _ reaches

theorem leads_marked {program rest : Program I α} {s t : S.State}
    (leads : S.Leads (program, s) (rest, t)) (mark : S.State) :
    S.marked.Leads (program, (mark, s)) (rest, (mark, t)) := by
  have lift : ∀ x y : Program I α × S.State, S.Step x y →
      S.marked.Step (x.1, (mark, x.2)) (y.1, (mark, y.2)) := by
    intro x y step
    cases step with
    | call performed => exact .call ⟨rfl, performed⟩
    | env moves => exact .env (.inl ⟨rfl, moves⟩)
  exact Relation.ReflTransGen.lift
    (fun x : Program I α × S.State =>
      ((x.1, (mark, x.2)) : Program I α × S.marked.State)) lift _ _ leads

/-- **Two moments.**  If every program keeps `inv`, and so does what happens while none
runs, then `inv` holds between any moment of a run and any later one. -/
theorem two_moments {main : ι → Program I α} {result : ι → α → S.State → Prop}
    (lasting : S.Lasting inv) (idle : ∀ m s t, inv m s → S.idle s t → inv m t)
    (steady : ∀ i value, S.Steady inv (result i value))
    (delivers : ∀ i m s, inv m s → S.Delivers inv (main i) (result i) (m, s))
    {start before after : Machine S ι α} (alone : start.running = none)
    (holds : inv start.state start.state) (reaches : S.Reaches main start before)
    (later : S.Reaches main before after) : inv before.state after.state := by
  have now : S.marked.Move main ⟨(start.state, before.state), before.running⟩
      ⟨(before.state, before.state), before.running⟩ := .env (.inr rfl)
  have run := ((reaches_marked reaches start.state).tail now).trans
    (reaches_marked later before.state)
  have idleLasts : ∀ x y : S.marked.State, S.marked.idle x y → inv x.1 x.2 → inv y.1 y.2 := by
    rintro ⟨m, s⟩ ⟨m', t⟩ ⟨same, moves⟩ here
    obtain rfl : m' = m := same
    exact idle m' s t here moves
  exact (reachable_safe lasting.stable_inv idleLasts
    (fun i value => lasting.stable (steady i value))
    (fun i x here => delivers i x.1 x.2 here) alone holds run).1

/-- What a program that keeps `inv` has delivered when it is done. -/
theorem Delivers.leads {program : Program I α} {result : α → S.State → Prop}
    (lasting : S.Lasting inv) (steady : ∀ value, S.Steady inv (result value)) {m s t : S.State}
    {value : α} (delivers : S.Delivers inv program result (m, s))
    (leads : S.Leads (program, s) (.done value, t)) : inv m t ∧ result value t :=
  Safe.leads (fun value => lasting.stable (steady value)) delivers (leads_marked leads m)

/-- A program that keeps `inv` keeps it wherever it has come. -/
theorem Delivers.during {program rest : Program I α} {result : α → S.State → Prop}
    (lasting : S.Lasting inv) {m s t : S.State} (holds : inv m s)
    (delivers : S.Delivers inv program result (m, s)) (leads : S.Leads (program, s) (rest, t)) :
    inv m t :=
  have safe : Safe (S := S.marked) (fun x => inv x.1 x.2) (fun _ x => inv x.1 x.2) program (m, s) :=
    Safe.mono (fun _ _ => And.left) delivers
  safe.during lasting.stable_inv holds (leads_marked leads m)

/-- What is left of a program that keeps `inv` keeps it. -/
theorem Delivers.rest {program rest : Program I α} {result : α → S.State → Prop}
    (lasting : S.Lasting inv) (steady : ∀ value, S.Steady inv (result value)) {m s t : S.State}
    (delivers : S.Delivers inv program result (m, s)) (leads : S.Leads (program, s) (rest, t)) :
    S.Delivers inv rest result (m, t) :=
  Safe.leads (fun value => lasting.stable (steady value)) delivers (leads_marked leads m)

/-- A request keeps `inv` between the states around it. -/
theorem Delivers.performs {request : I.Request} {next : I.Reply request → Program I α}
    {result : α → S.State → Prop} {m s t : S.State} {reply : I.Reply request}
    (delivers : S.Delivers inv (.call request next) result (m, s))
    (performed : S.exec request s reply t) : inv s t :=
  (delivers (s, s) (.single (.inr rfl)) reply (s, t) ⟨rfl, performed⟩).1

theorem Delivers.bind {program : Program I β} {rest : β → Program I α}
    {middle : β → S.State → Prop} {result : α → S.State → Prop} {x : S.State × S.State}
    (first : S.Delivers inv program middle x)
    (second : ∀ value m s, inv m s → middle value s → S.Delivers inv (rest value) result (m, s)) :
    S.Delivers inv (program >>= rest) result x :=
  Safe.bind (Safe.mono (fun value y ⟨holds, here⟩ => second value y.1 y.2 holds here) first)

theorem Delivers.mono {program : Program I α} {result wider : α → S.State → Prop}
    {x : S.State × S.State} (implies : ∀ value s, result value s → wider value s)
    (delivers : S.Delivers inv program result x) : S.Delivers inv program wider x :=
  Safe.mono (fun value _ ⟨holds, here⟩ => ⟨holds, implies value _ here⟩) delivers

/-! ## Contracts of fallible blocks -/

section Contract

variable (inv) {ε γ δ : Type}

def Ended (post : γ → S.State → Prop) (failing : ε → S.State → Prop) :
    Except ε γ → S.State → Prop
  | .ok value, s => post value s
  | .error error, s => failing error s

def Contract (pre : S.State → Prop) (block : Fallible ε I γ) (post : γ → S.State → Prop)
    (failing : ε → S.State → Prop) : Prop :=
  ∀ m s, inv m s → pre s → S.Delivers inv block.run (Ended post failing) (m, s)

variable {inv} {pre : S.State → Prop} {post : γ → S.State → Prop} {failing : ε → S.State → Prop}

theorem Contract.pure {value : γ} (holds : ∀ s, pre s → post value s) :
    Contract inv pre (Pure.pure value : Fallible ε I γ) post failing :=
  fun _ s kept here => ⟨kept, holds s here⟩

theorem Contract.throw {error : ε} (holds : ∀ s, pre s → failing error s) :
    Contract inv pre (MonadExcept.throw error : Fallible ε I γ) post failing :=
  fun _ s kept here => ⟨kept, holds s here⟩

theorem Contract.bind {block : Fallible ε I δ} {rest : δ → Fallible ε I γ}
    {middle : δ → S.State → Prop} (first : Contract inv pre block middle failing)
    (second : ∀ value, Contract inv (middle value) (rest value) post failing) :
    Contract inv pre (block >>= rest) post failing := by
  intro m s kept here
  rw [ExceptT.run_bind]
  refine (first m s kept here).bind fun result m t kept ended => ?_
  cases result with
  | ok value => exact second value m t kept ended
  | error error => exact ⟨kept, ended⟩

theorem Contract.weaken {wider : S.State → Prop} {narrower : γ → S.State → Prop}
    {failing' : ε → S.State → Prop} {block : Fallible ε I γ} (before : ∀ s, pre s → wider s)
    (contract : Contract inv wider block narrower failing')
    (after : ∀ value s, narrower value s → post value s)
    (fails : ∀ error s, failing' error s → failing error s) :
    Contract inv pre block post failing := by
  intro m s kept here
  refine (contract m s kept (before s here)).mono fun result t ended => ?_
  cases result with
  | ok value => exact after value t ended
  | error error => exact fails error t ended

/-- A weaker precondition is enough. -/
theorem Contract.from_pre {wider : S.State → Prop} {block : Fallible ε I γ}
    (before : ∀ s, pre s → wider s) (contract : Contract inv wider block post failing) :
    Contract inv pre block post failing :=
  contract.weaken before (fun _ _ => id) (fun _ _ => id)

/-- A fact the precondition implies, whatever the state, may be assumed. -/
theorem Contract.assume {fact : Prop} {block : Fallible ε I γ} (known : ∀ s, pre s → fact)
    (contract : fact → Contract inv pre block post failing) :
    Contract inv pre block post failing :=
  fun m s kept here => contract (known s here) m s kept here

/-- So may one that follows from the invariant besides. -/
theorem Contract.given {fact : Prop} {block : Fallible ε I γ}
    (known : ∀ m s, inv m s → pre s → fact)
    (contract : fact → Contract inv pre block post failing) :
    Contract inv pre block post failing :=
  fun m s kept here => contract (known m s kept here) m s kept here

theorem Contract.exists {κ : Type} {pre : κ → S.State → Prop} {block : Fallible ε I γ}
    (contract : ∀ k, Contract inv (pre k) block post failing) :
    Contract inv (fun s => ∃ k, pre k s) block post failing :=
  fun m s kept ⟨k, here⟩ => contract k m s kept here

/-- A request: others move before it, so its precondition has to be steady. -/
theorem Contract.perform (lasting : S.Lasting inv) {request : I.Request}
    {post : I.Reply request → S.State → Prop} (steady : S.Steady inv pre)
    (performs : ∀ m s reply t, inv m s → pre s → S.exec request s reply t →
      inv m t ∧ post reply t) :
    Contract inv pre (Fallible.perform request : Fallible ε I _) post failing := by
  rintro m s kept here ⟨m', t⟩ drifted reply ⟨m'', u⟩ ⟨same, performed⟩
  obtain rfl : m'' = m' := same
  obtain ⟨kept, here⟩ := (lasting.stable steady).drifts drifted ⟨kept, here⟩
  have after := performs m'' t reply u kept here performed
  exact ⟨after.1, after⟩

end Contract

end System

/-! ## Requests of fallible blocks -/

namespace Fallible

variable {ε : Type} {I : Interface} {α β : Type} {allowed : I.Request → Prop}

theorem uses_bind {block : Fallible ε I α} {rest : α → Fallible ε I β}
    (first : block.run.Uses allowed) (second : ∀ value, (rest value).run.Uses allowed) :
    (block >>= rest).run.Uses allowed := by
  rw [ExceptT.run_bind]
  refine Program.uses_bind first fun result => ?_
  cases result with
  | ok value => exact second value
  | error error => trivial

end Fallible

end Luhmen.Theory
