/-
# Theory.CrashLogic -- what holds at every moment of a program that can be killed

A `System` gives the requests of an interface a meaning: `exec` says which
replies a request can get in a state and which state it leaves, nondeterministic
because calls fail, `env` is what other parties may do in between, and `idle` what
they only do while no program runs.  A `Machine` is a state with at most one program
running in it.  It moves by a request of that program, by the environment, by
starting a program, by a program returning, or by killing it wherever it stands.

`Safe inv post p s` says that `p`, started in `s`, keeps `inv` after every one of
its requests and reaches only results satisfying `post`, whatever the replies
and whatever the environment does in between.  It is a predicate on the program
text, so a proof walks the program once; `reachable_safe` is the induction over
whole runs, with any number of programs started, killed and restarted.
-/
import Mathlib.Logic.Relation
import Luhmen.Theory.Program

namespace Luhmen.Theory

set_option autoImplicit false

/-- What requests do to a state, and what may happen to it in between. -/
structure System (I : Interface) where
  State : Type
  exec : (request : I.Request) → State → I.Reply request → State → Prop
  env : State → State → Prop
  idle : State → State → Prop

/-- A state and the program running in it, if any.  `ι` names the programs that
can be started. -/
structure Machine {I : Interface} (S : System I) (ι α : Type) where
  state : S.State
  running : Option (ι × Program I α)

namespace System

variable {I : Interface} (S : System I) {ι α β : Type}

/-- One move of a machine whose programs are `main`. -/
inductive Move (main : ι → Program I α) : Machine S ι α → Machine S ι α → Prop where
  | env {s t : S.State} {running : Option (ι × Program I α)} (moves : S.env s t) :
      Move main ⟨s, running⟩ ⟨t, running⟩
  | idle {s t : S.State} (moves : S.idle s t) : Move main ⟨s, none⟩ ⟨t, none⟩
  | start {s : S.State} (i : ι) : Move main ⟨s, none⟩ ⟨s, some (i, main i)⟩
  | call {s t : S.State} {i : ι} {request : I.Request} {next : I.Reply request → Program I α}
      {reply : I.Reply request} (performed : S.exec request s reply t) :
      Move main ⟨s, some (i, .call request next)⟩ ⟨t, some (i, next reply)⟩
  | finish {s : S.State} {i : ι} {value : α} :
      Move main ⟨s, some (i, .done value)⟩ ⟨s, none⟩
  | kill {s : S.State} {i : ι} {program : Program I α} :
      Move main ⟨s, some (i, program)⟩ ⟨s, none⟩

/-- Machines some sequence of moves leads to. -/
def Reaches (main : ι → Program I α) : Machine S ι α → Machine S ι α → Prop :=
  Relation.ReflTransGen (S.Move main)

/-- The environment cannot falsify `P`. -/
def Stable (P : S.State → Prop) : Prop :=
  ∀ s t, S.env s t → P s → P t

/-- Any number of environment moves. -/
def Drifts : S.State → S.State → Prop :=
  Relation.ReflTransGen S.env

variable {S}

theorem Stable.drifts {P : S.State → Prop} (stable : S.Stable P) {s t : S.State}
    (drifted : S.Drifts s t) (holds : P s) : P t := by
  induction drifted with
  | refl => exact holds
  | tail _ moves ih => exact stable _ _ moves ih

theorem Stable.and {P Q : S.State → Prop} (first : S.Stable P) (second : S.Stable Q) :
    S.Stable fun s => P s ∧ Q s :=
  fun s t moves ⟨p, q⟩ => ⟨first s t moves p, second s t moves q⟩

/-! ## Safe programs -/

section Safe

variable (inv : S.State → Prop)

/-- `program` keeps `inv` at every request and ends in `post`, from state `s`. -/
def Safe (post : α → S.State → Prop) : Program I α → S.State → Prop
  | .done value, s => post value s
  | .call request next, s =>
      ∀ t, S.Drifts s t → ∀ reply u, S.exec request t reply u →
        inv u ∧ Safe post (next reply) u

/-- The Hoare triple of `Safe`. -/
def Holds (pre : S.State → Prop) (program : Program I α) (post : α → S.State → Prop) : Prop :=
  ∀ s, pre s → Safe inv post program s

variable {inv} {post : α → S.State → Prop}

theorem Safe.mono {wider : α → S.State → Prop} (implies : ∀ value s, post value s → wider value s)
    {program : Program I α} {s : S.State} (safe : Safe inv post program s) :
    Safe inv wider program s := by
  induction program generalizing s with
  | done value => exact implies value s safe
  | call request next ih =>
      intro t drifted reply u performed
      obtain ⟨kept, rest⟩ := safe t drifted reply u performed
      exact ⟨kept, ih reply rest⟩

theorem Safe.bind {program : Program I β} {rest : β → Program I α} {s : S.State}
    (safe : Safe inv (fun value t => Safe inv post (rest value) t) program s) :
    Safe inv post (program >>= rest) s := by
  induction program generalizing s with
  | done value => exact safe
  | call request next ih =>
      intro t drifted reply u performed
      obtain ⟨kept, further⟩ := safe t drifted reply u performed
      exact ⟨kept, ih reply further⟩

/-- A program stays safe while the environment moves, once its results do. -/
theorem Safe.drifts (stable : ∀ value, S.Stable (post value)) {program : Program I α}
    {s t : S.State} (drifted : S.Drifts s t) (safe : Safe inv post program s) :
    Safe inv post program t := by
  cases program with
  | done value => exact (stable value).drifts drifted safe
  | call request next =>
      exact fun u further reply v performed => safe u (drifted.trans further) reply v performed

/-- Any program is safe where nothing is asked of it. -/
theorem Safe.anything {program : Program I α} {s : S.State} :
    Safe (fun _ => True) (fun _ _ => True) program s := by
  induction program generalizing s with
  | done value => trivial
  | call request next ih => exact fun _ _ reply _ _ => ⟨trivial, ih reply⟩

/-- **Whole runs.**  If every program started from `inv` is safe for results the
environment cannot spoil, then every machine reached from `inv` satisfies `inv`,
what is left of a running program is safe, and so are its results. -/
theorem reachable_safe {main : ι → Program I α} {result : ι → α → S.State → Prop}
    (invStable : S.Stable inv) (idleStable : ∀ s t, S.idle s t → inv s → inv t)
    (resultStable : ∀ i value, S.Stable (result i value))
    (safe : ∀ i s, inv s → Safe inv (result i) (main i) s)
    {start finish : Machine S ι α} (idle : start.running = none) (holds : inv start.state)
    (reaches : S.Reaches main start finish) :
    inv finish.state ∧
      ∀ i program, finish.running = some (i, program) →
        Safe inv (result i) program finish.state := by
  induction reaches with
  | refl => exact ⟨holds, fun i program running => by simp [idle] at running⟩
  | tail _ move ih =>
      obtain ⟨kept, rest⟩ := ih
      cases move with
      | env moves =>
          exact ⟨invStable _ _ moves kept, fun i program running =>
            (rest i program running).drifts (resultStable i) (.single moves)⟩
      | idle moves => exact ⟨idleStable _ _ moves kept, fun _ _ running => by simp at running⟩
      | start i =>
          refine ⟨kept, fun j program running => ?_⟩
          cases running
          exact safe i _ kept
      | call performed =>
          have here := rest _ _ rfl _ .refl _ _ performed
          refine ⟨here.1, fun j program running => ?_⟩
          cases running
          exact here.2
      | finish => exact ⟨kept, fun _ _ running => by simp at running⟩
      | kill => exact ⟨kept, fun _ _ running => by simp at running⟩

end Safe

/-! ## Rules for fallible blocks

`Triple inv pre block post failing`: from `pre` the block keeps `inv` and ends in
`post`, or leaves early in `failing`.  Requests are the only places where other
parties move, so their precondition has to be stable. -/

section Triple

variable (inv : S.State → Prop) {ε γ δ : Type}

/-- What a block that may leave early ends in. -/
def Ends (post : γ → S.State → Prop) (failing : S.State → Prop) : Except ε γ → S.State → Prop
  | .ok value, s => post value s
  | .error _, s => failing s

def Triple (pre : S.State → Prop) (block : Fallible ε I γ) (post : γ → S.State → Prop)
    (failing : S.State → Prop) : Prop :=
  ∀ s, pre s → Safe inv (Ends post failing) block.run s

variable {inv} {pre : S.State → Prop} {post : γ → S.State → Prop} {failing : S.State → Prop}

theorem Triple.pure {value : γ} (holds : ∀ s, pre s → post value s) :
    Triple inv pre (Pure.pure value : Fallible ε I γ) post failing :=
  holds

theorem Triple.throw {error : ε} (holds : ∀ s, pre s → failing s) :
    Triple inv pre (MonadExcept.throw error : Fallible ε I γ) post failing :=
  holds

theorem Triple.ofExcept {result : Except ε γ} (ok : ∀ value, result = .ok value → ∀ s, pre s → post value s)
    (error : ∀ s, pre s → failing s) : Triple inv pre (Fallible.ofExcept result) post failing := by
  intro s holds
  cases result with
  | ok value => exact ok value rfl s holds
  | error e => exact error s holds

theorem Triple.bind {block : Fallible ε I δ} {rest : δ → Fallible ε I γ}
    {middle : δ → S.State → Prop} (first : Triple inv pre block middle failing)
    (second : ∀ value, Triple inv (middle value) (rest value) post failing) :
    Triple inv pre (block >>= rest) post failing := by
  intro s holds
  rw [ExceptT.run_bind]
  apply Safe.bind
  apply Safe.mono _ (first s holds)
  intro result t ended
  cases result with
  | ok value => exact second value t ended
  | error error => exact ended

theorem Triple.weaken {wider : S.State → Prop} {block : Fallible ε I γ}
    {narrower : γ → S.State → Prop} {failing' : S.State → Prop}
    (before : ∀ s, pre s → wider s) (triple : Triple inv wider block narrower failing')
    (after : ∀ value s, narrower value s → post value s) (fails : ∀ s, failing' s → failing s) :
    Triple inv pre block post failing := by
  intro s holds
  apply Safe.mono _ (triple s (before s holds))
  intro result t ended
  cases result with
  | ok value => exact after value t ended
  | error error => exact fails t ended

/-- A precondition no state satisfies with `fact` false lets `fact` be assumed. -/
theorem Triple.assume {fact : Prop} {block : Fallible ε I γ} (known : ∀ s, pre s → fact)
    (triple : fact → Triple inv pre block post failing) : Triple inv pre block post failing :=
  fun s holds => triple (known s holds) s holds

theorem Triple.perform {request : I.Request} {post : I.Reply request → S.State → Prop}
    (stable : S.Stable pre)
    (performs : ∀ s reply t, pre s → S.exec request s reply t → inv t ∧ post reply t) :
    Triple inv pre (Fallible.perform request : Fallible ε I _) post failing := by
  intro s holds t drifted reply u performed
  exact performs t reply u (stable.drifts drifted holds) performed

/-- The end of a block, as a value; a failure that is not `caught` still leaves. -/
theorem Triple.attempt {block : Fallible ε I γ} {caught : ε → Except ε δ}
    {result : Except δ γ → S.State → Prop}
    (triple : Triple inv pre block (fun value => result (.ok value)) failing)
    (fails : ∀ error s, failing s → result (.error error) s) :
    Triple inv pre (Fallible.attempt caught block) result failing := by
  intro s holds
  apply Safe.bind
  apply Safe.mono _ (triple s holds)
  intro ended t holds
  cases ended with
  | ok value => exact holds
  | error error =>
      cases isCaught : caught error with
      | ok caughtAs =>
          dsimp only
          rw [isCaught]
          exact fails caughtAs t holds
      | error error =>
          dsimp only
          rw [isCaught]
          exact holds

end Triple

/-! ## Runs that happen

The other direction: `Leads` is a stretch of one run, from a program in a state to what
is left of it in another, and `Returns` a run of a block that does not leave early. -/

section Leads

variable (S)

inductive Step : Program I α × S.State → Program I α × S.State → Prop where
  | call {request : I.Request} {next : I.Reply request → Program I α} {s t : S.State}
      {reply : I.Reply request} (performed : S.exec request s reply t) :
      Step (.call request next, s) (next reply, t)
  | env {program : Program I α} {s t : S.State} (moves : S.env s t) : Step (program, s) (program, t)

def Leads : Program I α × S.State → Program I α × S.State → Prop :=
  Relation.ReflTransGen S.Step

variable {S}

theorem Leads.bind {program rest : Program I β} {next : β → Program I α} {s t : S.State}
    (leads : S.Leads (program, s) (rest, t)) : S.Leads (program >>= next, s) (rest >>= next, t) := by
  have lift : ∀ x y : Program I β × S.State, S.Step x y →
      S.Step (x.1 >>= next, x.2) (y.1 >>= next, y.2) := by
    intro x y step
    cases step with
    | call performed => exact .call performed
    | env moves => exact .env moves
  exact Relation.ReflTransGen.lift (fun x : Program I β × S.State => (x.1 >>= next, x.2)) lift _ _ leads

/-- A run against a function that serves requests as long as `inv` holds, and keeps it. -/
theorem Leads.advance_inv {inv : S.State → Prop}
    {serve : (request : I.Request) → S.State → I.Reply request × S.State}
    (serves : ∀ request s, inv s →
      S.exec request s (serve request s).1 (serve request s).2 ∧ inv (serve request s).2) (n : Nat)
    (x : Program I α × S.State) (holds : inv x.2) :
    S.Leads x (Program.advance serve n x) ∧ inv (Program.advance serve n x).2 := by
  induction n generalizing x with
  | zero => exact ⟨.refl, holds⟩
  | succ n ih =>
      obtain ⟨program, s⟩ := x
      cases program with
      | done value => exact ⟨.refl, holds⟩
      | call request next =>
          obtain ⟨performed, kept⟩ := serves request s holds
          obtain ⟨leads, after⟩ := ih (next (serve request s).1, (serve request s).2) kept
          exact ⟨.head (.call performed) leads, after⟩

/-- A run against a function that serves requests. -/
theorem Leads.advance {serve : (request : I.Request) → S.State → I.Reply request × S.State}
    (serves : ∀ request s, S.exec request s (serve request s).1 (serve request s).2) (n : Nat)
    (x : Program I α × S.State) : S.Leads x (Program.advance serve n x) :=
  (@Leads.advance_inv I S α (fun _ => True) serve
    (fun request s _ => ⟨serves request s, trivial⟩) n x trivial).1

/-- A machine goes the way its program does. -/
theorem Leads.reaches {main : ι → Program I α} {i : ι} {program rest : Program I α} {s t : S.State}
    (leads : S.Leads (program, s) (rest, t)) :
    S.Reaches main ⟨s, some (i, program)⟩ ⟨t, some (i, rest)⟩ := by
  have lift : ∀ x y : Program I α × S.State, S.Step x y →
      S.Move main ⟨x.2, some (i, x.1)⟩ ⟨y.2, some (i, y.1)⟩ := by
    intro x y step
    cases step with
    | call performed => exact .call performed
    | env moves => exact .env moves
  exact Relation.ReflTransGen.lift
    (fun x : Program I α × S.State => (⟨x.2, some (i, x.1)⟩ : Machine S ι α)) lift _ _ leads

/-- A run can be killed anywhere. -/
theorem Leads.killed {main : ι → Program I α} {i : ι} {rest : Program I α} {s t : S.State}
    (leads : S.Leads (main i, s) (rest, t)) : S.Reaches main ⟨s, none⟩ ⟨t, none⟩ :=
  (Relation.ReflTransGen.head (.start i) leads.reaches).tail .kill

/-- What runs in a machine is what is left of a program that was started in it. -/
theorem Reaches.running {main : ι → Program I α} {start finish : Machine S ι α}
    (reaches : S.Reaches main start finish) (alone : start.running = none) {i : ι}
    {program : Program I α} (running : finish.running = some (i, program)) :
    ∃ s, S.Reaches main start ⟨s, none⟩ ∧ S.Leads (main i, s) (program, finish.state) := by
  induction reaches generalizing program with
  | refl => exact nomatch alone.symm.trans running
  | tail before move ih =>
      cases move with
      | env moves =>
          obtain ⟨s, reached, leads⟩ := ih running
          exact ⟨s, reached, leads.tail (.env moves)⟩
      | idle moves => exact nomatch running
      | start j =>
          cases running
          exact ⟨_, before, .refl⟩
      | call performed =>
          cases running
          obtain ⟨s, reached, leads⟩ := ih rfl
          exact ⟨s, reached, leads.tail (.call performed)⟩
      | finish => exact nomatch running
      | kill => exact nomatch running

/-- A program that is done leaves its machine alone. -/
theorem Leads.finished {main : ι → Program I α} {i : ι} {value : α} {s t : S.State}
    (leads : S.Leads (main i, s) (.done value, t)) : S.Reaches main ⟨s, none⟩ ⟨t, none⟩ :=
  (Relation.ReflTransGen.head (.start i) leads.reaches).tail .finish

/-- What is left of a safe program is safe. -/
theorem Safe.leads {inv : S.State → Prop} {post : α → S.State → Prop}
    (stable : ∀ value, S.Stable (post value)) {program rest : Program I α} {s t : S.State}
    (safe : Safe inv post program s) (leads : S.Leads (program, s) (rest, t)) :
    Safe inv post rest t := by
  have kept : ∀ x : Program I α × S.State, S.Leads (program, s) x → Safe inv post x.1 x.2 := by
    intro x leads
    induction leads with
    | refl => exact safe
    | tail _ step ih =>
        cases step with
        | call performed => exact (ih _ .refl _ _ performed).2
        | env moves => exact ih.drifts stable (.single moves)
  exact kept (rest, t) leads

/-- A safe program keeps `inv` wherever it has come. -/
theorem Safe.during {inv : S.State → Prop} (stable : S.Stable inv) {program rest : Program I α}
    {s t : S.State} (holds : inv s) (safe : Safe inv (fun _ => inv) program s)
    (leads : S.Leads (program, s) (rest, t)) : inv t := by
  have kept : ∀ x : Program I α × S.State, S.Leads (program, s) x →
      inv x.2 ∧ Safe inv (fun _ => inv) x.1 x.2 := by
    intro x leads
    induction leads with
    | refl => exact ⟨holds, safe⟩
    | tail _ step ih =>
        cases step with
        | call performed => exact ih.2 _ .refl _ _ performed
        | env moves =>
            exact ⟨stable _ _ moves ih.1, ih.2.drifts (fun _ => stable) (.single moves)⟩
  exact (kept (rest, t) leads).1

variable {ε γ δ : Type}

variable (S) in
def Returns (block : Fallible ε I γ) (s : S.State) (value : γ) (t : S.State) : Prop :=
  S.Leads (block.run, s) (.done (.ok value), t)

theorem Returns.pure {value : γ} {s : S.State} :
    S.Returns (Pure.pure value : Fallible ε I γ) s value s :=
  .refl

theorem Returns.perform {request : I.Request} {s t : S.State} (reply : I.Reply request)
    (performed : S.exec request s reply t) :
    S.Returns (Fallible.perform request : Fallible ε I _) s reply t :=
  .single (.call performed)

theorem Returns.ofExcept {result : Except ε γ} {value : γ} {s : S.State} (ok : result = .ok value) :
    S.Returns (Fallible.ofExcept result : Fallible ε I γ) s value s := by
  subst ok
  exact .refl

/-- A block that returns leads to what follows it. -/
theorem Returns.leads {block : Fallible ε I δ} {rest : δ → Fallible ε I γ} {s t : S.State}
    {value : δ} (returns : S.Returns block s value t) :
    S.Leads ((block >>= rest).run, s) ((rest value).run, t) := by
  rw [ExceptT.run_bind]
  exact Leads.bind returns

theorem Returns.bind {block : Fallible ε I δ} {rest : δ → Fallible ε I γ} {s t u : S.State}
    {middle : δ} {value : γ} (first : S.Returns block s middle t)
    (second : S.Returns (rest middle) t value u) : S.Returns (block >>= rest) s value u :=
  first.leads.trans second

theorem Returns.attempt {block : Fallible ε I γ} {caught : ε → Except ε δ} {s t : S.State}
    {value : γ} (returns : S.Returns block s value t) :
    S.Returns (Fallible.attempt caught block) s (.ok value) t :=
  Leads.bind returns

end Leads

end System

end Luhmen.Theory
