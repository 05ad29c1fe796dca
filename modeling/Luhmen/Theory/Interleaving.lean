/-
# Theory.Interleaving -- programs that run at once

A `Pool` is a state and any number of programs that run over it, one request of one of them at
a time, each started at any moment and killed at any other.

What one program has to know of the others is a guard: `guard i request s` is when program `i` may
make a request.  For each program the others are an environment that makes requests as they
are guarded (`among`), so the rules of `Theory.Guarded` apply to it alone; `Pool.guarded` puts the
programs together again.
-/
import Luhmen.Theory.Guarded

namespace Luhmen.Theory

set_option autoImplicit false

/-- A state and the programs running in it. -/
structure Pool {I : Interface} (S : System I) (ι α : Type) where
  state : S.State
  running : ι → Option (Program I α)

variable {I : Interface} {S : System I} {ι α : Type} [DecidableEq ι]

namespace Pool

def put (m : Pool S ι α) (i : ι) (program : Option (Program I α)) : ι → Option (Program I α) :=
  fun j => if j = i then program else m.running j

@[simp] theorem put_self (m : Pool S ι α) (i : ι) (program : Option (Program I α)) :
    m.put i program i = program := if_pos rfl

theorem put_other {m : Pool S ι α} {i j : ι} (program : Option (Program I α)) (other : j ≠ i) :
    m.put i program j = m.running j := if_neg other

/-- One move of a pool whose programs are `main`. -/
inductive Move (main : ι → Program I α) : Pool S ι α → Pool S ι α → Prop where
  | env {m : Pool S ι α} {t : S.State} (moves : S.env m.state t) :
      Move main m ⟨t, m.running⟩
  | start {m : Pool S ι α} (i : ι) (free : m.running i = none) :
      Move main m ⟨m.state, m.put i (some (main i))⟩
  | call {m : Pool S ι α} {i : ι} {request : I.Request} {next : I.Reply request → Program I α}
      (turn : m.running i = some (.call request next)) {reply : I.Reply request} {t : S.State}
      (performed : S.exec request m.state reply t) : Move main m ⟨t, m.put i (some (next reply))⟩
  /-- It is done, or killed. -/
  | leave {m : Pool S ι α} (i : ι) : Move main m ⟨m.state, m.put i none⟩

def Reaches (main : ι → Program I α) : Pool S ι α → Pool S ι α → Prop :=
  Relation.ReflTransGen (Move main)

/-- A program of a pool goes its way. -/
theorem reaches_leads {main : ι → Program I α} {m : Pool S ι α} {i : ι}
    {program rest : Program I α} {t : S.State} (turn : m.running i = some program)
    (leads : S.Leads (program, m.state) (rest, t)) :
    Reaches main m ⟨t, m.put i (some rest)⟩ := by
  have goes : ∀ x : Program I α × S.State, S.Leads (program, m.state) x →
      Reaches main m ⟨x.2, m.put i (some x.1)⟩ := by
    intro x leads
    have again : ∀ (t : S.State) (p q : Option (Program I α)),
        (⟨t, m.put i p⟩ : Pool S ι α).put i q = m.put i q := by
      intro t p q
      funext j
      by_cases is : j = i
      · rw [is, put_self, put_self]
      · rw [put_other _ is, put_other _ is]
        exact put_other _ is
    induction leads with
    | refl =>
        have here : m.put i (some program) = m.running := by
          funext j
          by_cases is : j = i
          · rw [is, put_self, turn]
          · exact put_other _ is
        rw [here]
        exact .refl
    | @tail x y _ step ih =>
        cases step with
        | @call request next s t reply performed =>
            have turn : (⟨s, m.put i (some (.call request next))⟩ : Pool S ι α).running i =
                some (.call request next) := put_self m i _
            have move : Move main _ _ := .call turn performed
            rw [again] at move
            exact ih.tail move
        | env moves => exact ih.tail (.env moves)
  exact goes (rest, t) leads

end Pool

namespace System

/-- The system program `i` sees among the others. -/
def among (S : System I) (guard : ι → I.Request → S.State → Prop) (inv : S.State → Prop) (i : ι) :
    System I where
  State := S.State
  exec := S.exec
  env s t := inv s ∧
    (S.env s t ∨ ∃ j, j ≠ i ∧ ∃ request reply, guard j request s ∧ S.exec request s reply t)
  idle _ _ := False

end System

namespace Pool

variable {guard : ι → I.Request → S.State → Prop} {inv : S.State → Prop}
  {post : ι → α → S.State → Prop} {main : ι → Program I α}

/-- What is left of a program heeds the guards among the others. -/
def Heeding (guard : ι → I.Request → S.State → Prop) (inv : S.State → Prop)
    (post : ι → α → S.State → Prop) (m : Pool S ι α) : Prop :=
  inv m.state ∧ ∀ i program, m.running i = some program →
    (S.among guard inv i).Guarded (guard i) (post i) program m.state

/-- **A pool.**  If guarded requests keep `inv`, each program is guarded among the others, and
others leave its result alone, then `inv` holds throughout and every program that is done has its
result. -/
theorem guarded
    (env : ∀ s t, inv s → S.env s t → inv t)
    (kept : ∀ i request s reply t, inv s → guard i request s → S.exec request s reply t → inv t)
    (stable : ∀ i value, (S.among guard inv i).Stable (post i value))
    (heeds : ∀ i s, inv s → (S.among guard inv i).Guarded (guard i) (post i) (main i) s)
    {m m' : Pool S ι α} (heeding : Heeding guard inv post m) (reaches : Reaches main m m') :
    Heeding guard inv post m' := by
  induction reaches with
  | refl => exact heeding
  | @tail m' m'' _ move ih =>
      obtain ⟨holds, each⟩ := ih
      cases move with
      | env moves =>
          refine ⟨env _ _ holds moves, fun i program running => ?_⟩
          exact System.Guarded.drifts (stable i) (.single ⟨holds, .inl moves⟩) (each i program running)
      | start i free =>
          refine ⟨holds, fun j program running => ?_⟩
          by_cases is : j = i
          · subst is
            obtain rfl := Option.some.inj ((put_self m' j _).symm.trans running)
            exact heeds j _ holds
          · exact each j program ((put_other _ is).symm.trans running)
      | @call i request next turn reply t performed =>
          obtain ⟨allowed, further⟩ := each i _ turn m'.state .refl
          refine ⟨kept i request _ reply t holds allowed performed, fun j program running => ?_⟩
          by_cases is : j = i
          · subst is
            obtain rfl := Option.some.inj ((put_self m' j _).symm.trans running)
            exact further reply t performed
          · have moved : (S.among guard inv j).env m'.state t :=
              ⟨holds, .inr ⟨i, fun same => is same.symm, request, reply, allowed, performed⟩⟩
            exact System.Guarded.drifts (stable j) (.single moved)
              (each j program ((put_other _ is).symm.trans running))
      | leave i =>
          refine ⟨holds, fun j program running => ?_⟩
          by_cases is : j = i
          · subst is
            exact absurd ((put_self m' j _).symm.trans running) (by simp)
          · exact each j program ((put_other _ is).symm.trans running)

/-- What guarded requests do to the state between two moments of a run. -/
theorem between (related : S.State → S.State → Prop) (refl : ∀ s, related s s)
    (trans : ∀ s t u, related s t → related t u → related s u)
    (env : ∀ s t, inv s → S.env s t → inv t ∧ related s t)
    (kept : ∀ i request s reply t, inv s → guard i request s → S.exec request s reply t →
      inv t ∧ related s t)
    (stable : ∀ i value, (S.among guard inv i).Stable (post i value))
    (heeds : ∀ i s, inv s → (S.among guard inv i).Guarded (guard i) (post i) (main i) s)
    {m m' : Pool S ι α} (heeding : Heeding guard inv post m) (reaches : Reaches main m m') :
    related m.state m'.state := by
  have goes : ∀ {m' : Pool S ι α}, Reaches main m m' → Heeding guard inv post m' :=
    fun reaches => guarded (fun s t holds moves => (env s t holds moves).1)
      (fun i request s reply t holds allowed performed =>
        (kept i request s reply t holds allowed performed).1) stable heeds heeding reaches
  induction reaches with
  | refl => exact refl _
  | @tail m' m'' before move ih =>
      obtain ⟨holds, each⟩ := goes before
      refine trans _ _ _ ih ?_
      cases move with
      | env moves => exact (env _ _ holds moves).2
      | start i free => exact refl _
      | @call i request next turn reply t performed =>
          have allowed := (each i _ turn m'.state .refl).1
          exact (kept i request _ reply t holds allowed performed).2
      | leave i => exact refl _

end Pool

end Luhmen.Theory
