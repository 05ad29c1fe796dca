/-
# Theory.Guarded -- what holds before each request of a program

`Safe` says what is kept after every request.  Where a program leaves something half done
between two requests, what can be said of a moment depends on the request that is next:
`Guarded guard post p s` says that before each request of `p` its `guard` holds, however
others move while it is pending, and that `p` ends in `post`.

`Guarded.leads` is the induction over a stretch of a run, and `Guarded.pending` reads off
what holds where the program stands.  A piece that keeps an invariant throughout comes from
its contract (`Contract.guards`).
-/
import Luhmen.Theory.Contract

namespace Luhmen.Theory

set_option autoImplicit false

/-- The request that a program is about to make. -/
def Program.pending {I : Interface} {α : Type} : Program I α → Option I.Request
  | .done _ => none
  | .call request _ => some request

namespace System

variable {I : Interface} (S : System I) {α β : Type}

def Guarded (guard : I.Request → S.State → Prop) (post : α → S.State → Prop) :
    Program I α → S.State → Prop
  | .done value, s => post value s
  | .call request next, s =>
      ∀ t, S.Drifts s t → guard request t ∧
        ∀ reply u, S.exec request t reply u → Guarded guard post (next reply) u

variable {S} {guard : I.Request → S.State → Prop} {post : α → S.State → Prop}

theorem Guarded.mono {wider : α → S.State → Prop} (implies : ∀ value s, post value s → wider value s)
    {program : Program I α} {s : S.State} (guarded : S.Guarded guard post program s) :
    S.Guarded guard wider program s := by
  induction program generalizing s with
  | done value => exact implies value s guarded
  | call request next ih =>
      intro t drifted
      obtain ⟨here, further⟩ := guarded t drifted
      exact ⟨here, fun reply u performed => ih reply (further reply u performed)⟩

theorem Guarded.bind {program : Program I β} {rest : β → Program I α} {s : S.State}
    (guarded : S.Guarded guard (fun value t => S.Guarded guard post (rest value) t) program s) :
    S.Guarded guard post (program >>= rest) s := by
  induction program generalizing s with
  | done value => exact guarded
  | call request next ih =>
      intro t drifted
      obtain ⟨here, further⟩ := guarded t drifted
      exact ⟨here, fun reply u performed => ih reply (further reply u performed)⟩

theorem Guarded.drifts (stable : ∀ value, S.Stable (post value)) {program : Program I α}
    {s t : S.State} (drifted : S.Drifts s t) (guarded : S.Guarded guard post program s) :
    S.Guarded guard post program t := by
  cases program with
  | done value => exact (stable value).drifts drifted guarded
  | call request next => exact fun u further => guarded u (drifted.trans further)

/-- What is left of a guarded program is guarded. -/
theorem Guarded.leads (stable : ∀ value, S.Stable (post value)) {program rest : Program I α}
    {s t : S.State} (guarded : S.Guarded guard post program s)
    (leads : S.Leads (program, s) (rest, t)) : S.Guarded guard post rest t := by
  have kept : ∀ x : Program I α × S.State, S.Leads (program, s) x → S.Guarded guard post x.1 x.2 := by
    intro x leads
    induction leads with
    | refl => exact guarded
    | tail _ step ih =>
        cases step with
        | call performed => exact (ih _ .refl).2 _ _ performed
        | env moves => exact ih.drifts stable (.single moves)
  exact kept (rest, t) leads

theorem Guarded.pending {program : Program I α} {s : S.State}
    (guarded : S.Guarded guard post program s) :
    (∃ request, program.pending = some request ∧ guard request s) ∨
      ∃ value, program = .done value ∧ post value s := by
  cases program with
  | done value => exact .inr ⟨value, rfl, guarded⟩
  | call request next => exact .inl ⟨request, rfl, (guarded s .refl).1⟩

/-- A program that keeps an invariant is guarded by it. -/
theorem Delivers.guarded {inv : S.State → S.State → Prop} (lasting : S.Lasting inv)
    (guards : ∀ request m s, inv m s → guard request s) {program : Program I α}
    {result : α → S.State → Prop} {m s : S.State} (holds : inv m s)
    (delivers : S.Delivers inv program result (m, s)) :
    S.Guarded guard (fun value t => inv m t ∧ result value t) program s := by
  have marked : ∀ {s t : S.State}, S.Drifts s t → S.marked.Drifts (m, s) (m, t) := by
    intro s t drifted
    exact Relation.ReflTransGen.lift (fun s => (m, s)) (fun _ _ moves => .inl ⟨rfl, moves⟩) _ _ drifted
  induction program generalizing s with
  | done value => exact delivers
  | call request next ih =>
      intro t drifted
      have here := lasting.stable_inv.drifts (marked drifted) holds
      refine ⟨guards request m t here, fun reply u performed => ?_⟩
      obtain ⟨kept, further⟩ := delivers (m, t) (marked drifted) reply (m, u) ⟨rfl, performed⟩
      exact ih reply kept further

/-! ## Fallible blocks -/

section Heeds

variable {ε γ δ : Type}

/-- The triple of `Guarded`. -/
def Heeds (guard : I.Request → S.State → Prop) (pre : S.State → Prop) (block : Fallible ε I γ)
    (post : γ → S.State → Prop) (failing : ε → S.State → Prop) : Prop :=
  ∀ s, pre s → S.Guarded guard (Ended post failing) block.run s

variable {pre : S.State → Prop} {post : γ → S.State → Prop} {failing : ε → S.State → Prop}

theorem Heeds.pure {value : γ} (holds : ∀ s, pre s → post value s) :
    Heeds guard pre (Pure.pure value : Fallible ε I γ) post failing :=
  holds

theorem Heeds.throw {error : ε} (holds : ∀ s, pre s → failing error s) :
    Heeds guard pre (MonadExcept.throw error : Fallible ε I γ) post failing :=
  holds

theorem Heeds.bind {block : Fallible ε I δ} {rest : δ → Fallible ε I γ}
    {middle : δ → S.State → Prop} (first : Heeds guard pre block middle failing)
    (second : ∀ value, Heeds guard (middle value) (rest value) post failing) :
    Heeds guard pre (block >>= rest) post failing := by
  intro s here
  rw [ExceptT.run_bind]
  apply Guarded.bind
  apply Guarded.mono _ (first s here)
  intro result t ended
  cases result with
  | ok value => exact second value t ended
  | error error => exact ended

theorem Heeds.weaken {wider : S.State → Prop} {narrower : γ → S.State → Prop}
    {failing' : ε → S.State → Prop} {block : Fallible ε I γ} (before : ∀ s, pre s → wider s)
    (heeds : Heeds guard wider block narrower failing')
    (after : ∀ value s, narrower value s → post value s)
    (fails : ∀ error s, failing' error s → failing error s) :
    Heeds guard pre block post failing := by
  intro s here
  apply Guarded.mono _ (heeds s (before s here))
  intro result t ended
  cases result with
  | ok value => exact after value t ended
  | error error => exact fails error t ended

/-- A fact the precondition implies, whatever the state, may be assumed. -/
theorem Heeds.assume {fact : Prop} {block : Fallible ε I γ} (known : ∀ s, pre s → fact)
    (heeds : fact → Heeds guard pre block post failing) : Heeds guard pre block post failing :=
  fun s here => heeds (known s here) s here

theorem Heeds.perform {request : I.Request} {post : I.Reply request → S.State → Prop}
    (stable : S.Stable pre) (guards : ∀ s, pre s → guard request s)
    (performs : ∀ s reply t, pre s → S.exec request s reply t → post reply t) :
    Heeds guard pre (Fallible.perform request : Fallible ε I _) post failing := by
  intro s here t drifted
  have now := stable.drifts drifted here
  exact ⟨guards t now, fun reply u performed => performs t reply u now performed⟩

/-- The end of a block, as a value. -/
theorem Heeds.attempt {never : ε → S.State → Prop} {block : Fallible ε I γ}
    (heeds : Heeds guard pre block post failing) :
    Heeds guard pre (Fallible.attempt .ok block) (Ended post failing) never := by
  intro s here
  apply Guarded.bind
  apply Guarded.mono _ (heeds s here)
  intro ended t holds
  cases ended with
  | ok value => exact holds
  | error error => exact holds

/-- A block that keeps an invariant heeds what the invariant guards. -/
theorem Contract.guards {inv : S.State → S.State → Prop} (lasting : S.Lasting inv)
    (guards : ∀ request m s, inv m s → guard request s) (holds : ∀ s, pre s → inv s s)
    {block : Fallible ε I γ} (contract : Contract inv pre block post failing) :
    Heeds guard pre block post failing := by
  intro s here
  refine Guarded.mono ?_ ((contract s s (holds s here) here).guarded lasting guards (holds s here))
  exact fun _ _ ended => ended.2

end Heeds

end System

end Luhmen.Theory
