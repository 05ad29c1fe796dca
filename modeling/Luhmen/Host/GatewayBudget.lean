/-
# Host.GatewayBudget -- the slots of the gateway and the memory behind them

`handle` takes one of `MAX_EXCHANGES` permits and shares it as a `Reservation`: the future of the
exchange owns it, and so does each `GatewayBody` it makes and, through `ReservedBytes`, every clone
of the upload's `Bytes`.  The permit is back when the last of them is dropped, which may be long
after the future was.

An `Exchange` is the future with all that shares its reservation; what it does, and what hyper and
the runtime do with it, is `Goes`.  Uploads are collected in the steps of `Host.GatewayUpload`.
-/
import Mathlib.Algebra.Order.BigOperators.Group.List
import Mathlib.Logic.Relation
import Luhmen.Host.GatewayUpload

set_option autoImplicit false

namespace Luhmen.Host.Gateway.Budget

open Luhmen.Theory
open Luhmen.Host.Gateway.Upload

def BUFFER_BUDGET_BYTES : Nat := 128 * 1024 * 1024

def MAX_EXCHANGES : Nat := BUFFER_BUDGET_BYTES / EXCHANGE_BUFFER_BYTES

/-! ## One exchange -/

/-- Where the future of `handle` is; all but `gone` own the reservation. -/
inductive Handler where
  | checking
  | collecting (buffer : Buffer)
  /-- There is room for a chunk, and a buffer of so many bytes that was replaced for it. -/
  | growing (replaced : Nat) (buffer : Buffer) (chunk : Bytes)
  | collected (buffer : Buffer)
  | exchanging
  | gone
  deriving DecidableEq

structure Exchange where
  handler : Handler
  /-- What was allocated for the upload, once that is a body. -/
  upload : Nat
  /-- The clones of its `Bytes`. -/
  bytes : Nat
  /-- The bodies that share the reservation. -/
  bodies : Nat
  deriving DecidableEq

namespace Exchange

def fresh : Exchange := ⟨.checking, 0, 0, 0⟩

def references (e : Exchange) : Nat :=
  (if e.handler = .gone then 0 else 1) + e.bytes + e.bodies

/-- One thing that happens to an exchange. -/
inductive Goes (e : Exchange) : Exchange → Prop where
  /-- It has an answer without a reservation, or its future is dropped. -/
  | leaves (working : e.handler ≠ .gone) : Goes e { e with handler := .gone }
  | collects (here : e.handler = .checking) : Goes e { e with handler := .collecting {} }
  | makesRoom {buffer room : Buffer} {chunk : Bytes} (here : e.handler = .collecting buffer)
      (made : buffer.makeRoom chunk = .ok room) :
      Goes e { e with
        handler := .growing (if room.capacity = buffer.capacity then 0 else buffer.capacity) room chunk }
  | copies {replaced : Nat} {buffer : Buffer} {chunk : Bytes}
      (here : e.handler = .growing replaced buffer chunk) :
      Goes e { e with handler := .collecting (buffer.extendFromSlice chunk) }
  | ends {buffer : Buffer} (here : e.handler = .collecting buffer) :
      Goes e { e with handler := .collected buffer }
  /-- `GatewayBody::buffered`, for the upstream. -/
  | sends {buffer : Buffer} (here : e.handler = .collected buffer) :
      Goes e { e with
        handler := .exchanging, upload := buffer.capacity, bytes := 1, bodies := e.bodies + 1 }
  /-- `GatewayBody::streaming` takes the reservation along. -/
  | streams (here : e.handler = .exchanging) :
      Goes e { e with handler := .gone, bodies := e.bodies + 1 }
  | clonesBytes (some : 0 < e.bytes) : Goes e { e with bytes := e.bytes + 1 }
  | dropsBytes (some : 0 < e.bytes) : Goes e { e with bytes := e.bytes - 1 }
  | dropsBody (some : 0 < e.bodies) : Goes e { e with bodies := e.bodies - 1 }

end Exchange

/-- What is allocated for the upload as long as the future has it. -/
def Handler.held : Handler → Nat
  | .collecting buffer | .collected buffer => buffer.capacity
  | .growing replaced buffer _ => replaced + buffer.capacity
  | .checking | .exchanging | .gone => 0

/-- What is allocated for the upload. -/
def Exchange.held (e : Exchange) : Nat :=
  e.handler.held + if e.bytes = 0 then 0 else e.upload

/-! ## The gateway -/

structure State where
  /-- The permits of `buffers`. -/
  available : Nat
  exchanges : List Exchange

def start : State := ⟨MAX_EXCHANGES, []⟩

/-- `try_acquire_owned`; who gets nothing is answered with 503. -/
def State.acquire (s : State) : Option State :=
  if s.available = 0 then none else some ⟨s.available - 1, Exchange.fresh :: s.exchanges⟩

/-- The permit of an exchange is back once nothing shares it. -/
def settle (available : Nat) (front : List Exchange) (e : Exchange) (back : List Exchange) : State :=
  if e.references = 0 then ⟨available + 1, front ++ back⟩ else ⟨available, front ++ e :: back⟩

inductive Step : State → State → Prop where
  | admits {s t : State} (acquired : s.acquire = some t) : Step s t
  | goes {available : Nat} {front back : List Exchange} {e after : Exchange} (goes : e.Goes after) :
      Step ⟨available, front ++ e :: back⟩ (settle available front after back)

def Reaches : State → State → Prop :=
  Relation.ReflTransGen Step

/-! ## What is invariant -/

def Handler.Sound : Handler → Prop
  | .collecting buffer | .collected buffer => buffer.Bounded
  | .growing replaced buffer chunk => replaced ≤ MAX_BODY_BYTES ∧ buffer.capacity ≤ MAX_BODY_BYTES ∧
      buffer.bytes.length + chunk.length ≤ buffer.capacity
  | .checking | .exchanging | .gone => True

/-- An upload is in one place at a time, and never larger than it may be. -/
structure Exchange.Sound (e : Exchange) : Prop where
  handler : e.handler.Sound
  upload : e.upload ≤ MAX_BODY_BYTES
  once : e.bytes ≠ 0 → e.handler = .exchanging ∨ e.handler = .gone

structure Inv (s : State) : Prop where
  permits : s.available + s.exchanges.length = MAX_EXCHANGES
  sound : ∀ e ∈ s.exchanges, e.Sound
  shared : ∀ e ∈ s.exchanges, e.references ≠ 0

theorem makeRoom_sound {buffer room : Buffer} {chunk : Bytes} (bounded : buffer.Bounded)
    (made : buffer.makeRoom chunk = .ok room) :
    room.capacity ≤ MAX_BODY_BYTES ∧ room.bytes.length + chunk.length ≤ room.capacity := by
  by_cases small : buffer.bytes.length + chunk.length ≤ MAX_BODY_BYTES
  · rw [Buffer.makeRoom_room bounded small] at made
    obtain rfl := Except.ok.inj made
    obtain ⟨enough, limit⟩ := Buffer.roomFor_bounds bounded small
    exact ⟨limit, enough⟩
  · rw [Buffer.makeRoom_refused bounded (Nat.lt_of_not_le small)] at made
    cases made

theorem Handler.Sound.held_le {handler : Handler} (sound : handler.Sound) :
    handler.held ≤ EXCHANGE_BUFFER_BYTES := by
  have double : EXCHANGE_BUFFER_BYTES = MAX_BODY_BYTES + MAX_BODY_BYTES := Nat.two_mul _
  cases handler with
  | checking | exchanging | gone => exact Nat.zero_le _
  | collecting buffer | collected buffer =>
    have limit : buffer.capacity ≤ MAX_BODY_BYTES := Buffer.Bounded.limit sound
    show buffer.capacity ≤ EXCHANGE_BUFFER_BYTES
    omega
  | growing replaced buffer chunk =>
    obtain ⟨old, new, _⟩ := sound
    show replaced + buffer.capacity ≤ EXCHANGE_BUFFER_BYTES
    omega

theorem Exchange.Sound.held_le {e : Exchange} (sound : e.Sound) : e.held ≤ EXCHANGE_BUFFER_BYTES := by
  unfold Exchange.held
  by_cases dropped : e.bytes = 0
  · rw [if_pos dropped]
    exact sound.handler.held_le
  · have nothing : e.handler.held = 0 := by
      rcases sound.once dropped with is | is <;> rw [is] <;> rfl
    have double : EXCHANGE_BUFFER_BYTES = MAX_BODY_BYTES + MAX_BODY_BYTES := Nat.two_mul _
    have limit := sound.upload
    rw [if_neg dropped, nothing]
    omega

theorem Exchange.fresh_sound : Exchange.fresh.Sound :=
  ⟨trivial, Nat.zero_le _, fun some => absurd rfl some⟩

/-- Before the upload is sent there is nothing to clone or drop. -/
theorem Exchange.Sound.unsent {e : Exchange} (sound : e.Sound) (here : e.handler ≠ .exchanging)
    (working : e.handler ≠ .gone) : e.bytes = 0 := by
  by_contra some
  rcases sound.once some with is | is
  · exact here is
  · exact working is

theorem Exchange.Goes.sound {e after : Exchange} (goes : e.Goes after) (sound : e.Sound) :
    after.Sound := by
  obtain ⟨handler, upload, once⟩ := id sound
  cases goes with
  | leaves working => exact ⟨trivial, upload, fun _ => .inr rfl⟩
  | collects here =>
    have unsent := sound.unsent (by simp [here]) (by simp [here])
    exact ⟨Buffer.bounded_empty, upload, fun some => absurd unsent some⟩
  | @makesRoom buffer room chunk here made =>
    have unsent := sound.unsent (by simp [here]) (by simp [here])
    rw [here] at handler
    have bounded : buffer.Bounded := handler
    obtain ⟨limit, enough⟩ := makeRoom_sound bounded made
    refine ⟨⟨?_, limit, enough⟩, upload, fun some => absurd unsent some⟩
    split
    · exact Nat.zero_le _
    · exact bounded.limit
  | @copies replaced buffer chunk here =>
    have unsent := sound.unsent (by simp [here]) (by simp [here])
    rw [here] at handler
    obtain ⟨_, limit, enough⟩ := handler
    refine ⟨⟨?_, ?_⟩, upload, fun some => absurd unsent some⟩
    · rw [Buffer.extend_capacity enough]
      show (buffer.bytes ++ chunk).length ≤ buffer.capacity
      rw [List.length_append]
      exact enough
    · rw [Buffer.extend_capacity enough]
      exact limit
  | ends here =>
    have unsent := sound.unsent (by simp [here]) (by simp [here])
    rw [here] at handler
    exact ⟨handler, upload, fun some => absurd unsent some⟩
  | sends here =>
    rw [here] at handler
    exact ⟨trivial, Buffer.Bounded.limit handler, fun _ => .inl rfl⟩
  | streams here => exact ⟨trivial, upload, fun _ => .inr rfl⟩
  | clonesBytes some => exact ⟨handler, upload, fun _ => once (Nat.ne_of_gt some)⟩
  | dropsBytes some => exact ⟨handler, upload, fun _ => once (Nat.ne_of_gt some)⟩
  | dropsBody some => exact ⟨handler, upload, once⟩

theorem inv_start : Inv start :=
  ⟨rfl, List.forall_mem_nil _, List.forall_mem_nil _⟩

theorem Inv.admits {s t : State} (inv : Inv s) (acquired : s.acquire = some t) : Inv t := by
  unfold State.acquire at acquired
  by_cases busy : s.available = 0
  · rw [if_pos busy] at acquired
    cases acquired
  · rw [if_neg busy] at acquired
    obtain rfl := Option.some.inj acquired
    have permits := inv.permits
    refine ⟨?_, ?_, ?_⟩
    · show s.available - 1 + (s.exchanges.length + 1) = MAX_EXCHANGES
      omega
    · exact List.forall_mem_cons.2 ⟨Exchange.fresh_sound, inv.sound⟩
    · exact List.forall_mem_cons.2 ⟨by decide, inv.shared⟩

theorem Inv.goes {available : Nat} {front back : List Exchange} {e after : Exchange}
    (inv : Inv ⟨available, front ++ e :: back⟩) (goes : e.Goes after) :
    Inv (settle available front after back) := by
  have permits : available + (front ++ e :: back).length = MAX_EXCHANGES := inv.permits
  rw [List.length_append, List.length_cons] at permits
  have sound := List.forall_mem_append.1 inv.sound
  have shared := List.forall_mem_append.1 inv.shared
  have others := List.forall_mem_cons.1 sound.2
  unfold settle
  by_cases unshared : after.references = 0
  · rw [if_pos unshared]
    refine ⟨?_, ?_, ?_⟩
    · show available + 1 + (front ++ back).length = MAX_EXCHANGES
      rw [List.length_append]
      omega
    · exact List.forall_mem_append.2 ⟨sound.1, others.2⟩
    · exact List.forall_mem_append.2 ⟨shared.1, (List.forall_mem_cons.1 shared.2).2⟩
  · rw [if_neg unshared]
    refine ⟨?_, ?_, ?_⟩
    · show available + (front ++ after :: back).length = MAX_EXCHANGES
      rw [List.length_append, List.length_cons]
      omega
    · exact List.forall_mem_append.2 ⟨sound.1, List.forall_mem_cons.2 ⟨goes.sound others.1, others.2⟩⟩
    · exact List.forall_mem_append.2
        ⟨shared.1, List.forall_mem_cons.2 ⟨unshared, (List.forall_mem_cons.1 shared.2).2⟩⟩

theorem inv_of_reaches {s : State} (reaches : Reaches start s) : Inv s := by
  induction reaches with
  | refl => exact inv_start
  | tail _ step ih =>
    cases step with
    | admits acquired => exact ih.admits acquired
    | goes goes => exact ih.goes goes

theorem Inv.held_le {s : State} (inv : Inv s) :
    (s.exchanges.map Exchange.held).sum ≤ BUFFER_BUDGET_BYTES := by
  have each : ∀ held ∈ s.exchanges.map Exchange.held, held ≤ EXCHANGE_BUFFER_BYTES := by
    intro held is
    obtain ⟨e, member, rfl⟩ := List.mem_map.1 is
    exact (inv.sound e member).held_le
  have all := List.sum_le_card_nsmul _ _ each
  rw [List.length_map, smul_eq_mul] at all
  have few : s.exchanges.length ≤ MAX_EXCHANGES := inv.permits ▸ Nat.le_add_left _ _
  calc (s.exchanges.map Exchange.held).sum
      ≤ s.exchanges.length * EXCHANGE_BUFFER_BYTES := all
    _ ≤ MAX_EXCHANGES * EXCHANGE_BUFFER_BYTES := Nat.mul_le_mul_right _ few
    _ ≤ BUFFER_BUDGET_BYTES := Nat.div_mul_le_self _ _

/-! ## Slots come back -/

/-- Whoever shares a reservation can let go of it. -/
theorem Exchange.lets_go {e : Exchange} (shared : e.references ≠ 0) :
    ∃ after, e.Goes after ∧ after.references < e.references := by
  by_cases working : e.handler = .gone
  · by_cases some : 0 < e.bytes
    · refine ⟨_, .dropsBytes some, ?_⟩
      simp only [references, if_pos working]
      omega
    · have body : 0 < e.bodies := by
        simp only [references, if_pos working] at shared
        omega
      refine ⟨_, .dropsBody body, ?_⟩
      simp only [references, if_pos working]
      omega
  · refine ⟨_, .leaves working, ?_⟩
    simp only [references, if_neg working, if_true]
    omega

theorem reaches_released (available : Nat) (back : List Exchange) (n : Nat) :
    ∀ e : Exchange, e.references = n → n ≠ 0 →
      Reaches ⟨available, e :: back⟩ ⟨available + 1, back⟩ := by
  induction n using Nat.strong_induction_on with
  | _ n ih =>
    rintro e rfl shared
    obtain ⟨after, goes, fewer⟩ := Exchange.lets_go shared
    have step : Step ⟨available, [] ++ e :: back⟩ (settle available [] after back) := .goes goes
    unfold settle at step
    by_cases released : after.references = 0
    · rw [if_pos released] at step
      exact .single step
    · rw [if_neg released] at step
      exact .head step (ih _ fewer after rfl released)

theorem reaches_empty (exchanges : List Exchange) : ∀ available : Nat,
    (∀ e ∈ exchanges, e.references ≠ 0) →
      Reaches ⟨available, exchanges⟩ ⟨available + exchanges.length, []⟩ := by
  induction exchanges with
  | nil => exact fun available _ => .refl
  | cons e back ih =>
    intro available shared
    obtain ⟨first, others⟩ := List.forall_mem_cons.1 shared
    have rest := ih (available + 1) others
    rw [Nat.add_right_comm] at rest
    exact (reaches_released available back _ e rfl first).trans rest

/-! ## Every run -/

/-- **Bounded memory.**  Over any number of exchanges, however they interleave and wherever their
futures are dropped: what is allocated for uploads stays within `BUFFER_BUDGET_BYTES`; each permit
is free or shared by somebody; a request is refused only while `MAX_EXCHANGES` others share
theirs; and all permits can come back. -/
theorem budget_kept (s : State) (reaches : Reaches start s) :
    (s.exchanges.map Exchange.held).sum ≤ BUFFER_BUDGET_BYTES ∧
      s.available + s.exchanges.length = MAX_EXCHANGES ∧
      (∀ e ∈ s.exchanges, e.references ≠ 0) ∧
      (s.acquire = none ↔ s.exchanges.length = MAX_EXCHANGES) ∧
      Reaches s start := by
  have inv := inv_of_reaches reaches
  refine ⟨inv.held_le, inv.permits, inv.shared, ?_, ?_⟩
  · have permits := inv.permits
    unfold State.acquire
    by_cases busy : s.available = 0
    · simp only [if_pos busy, true_iff]
      omega
    · simp only [if_neg busy, reduceCtorEq, false_iff]
      omega
  · have released := reaches_empty s.exchanges s.available inv.shared
    rw [inv.permits] at released
    exact released

theorem Reaches.alone {available : Nat} {e after : Exchange} (reaches : Reaches start ⟨available, [e]⟩)
    (goes : e.Goes after) (shared : after.references ≠ 0) : Reaches start ⟨available, [after]⟩ := by
  have step : Step ⟨available, [] ++ e :: []⟩ (settle available [] after []) := .goes goes
  unfold settle at step
  rw [if_neg shared] at step
  exact reaches.tail step

/-- The future was dropped, and hyper still has the upload. -/
def dropped : State :=
  ⟨MAX_EXCHANGES - 1, [⟨.gone, 4096, 1, 1⟩]⟩

theorem dropped_reaches : Reaches start dropped := by
  have admitted : Reaches start ⟨MAX_EXCHANGES - 1, [Exchange.fresh]⟩ := .single (.admits rfl)
  have collecting := admitted.alone (.collects rfl) (by decide)
  have growing := collecting.alone (@Exchange.Goes.makesRoom _ _ ⟨[], 4096⟩ [104, 101] rfl rfl) (by decide)
  have copied := growing.alone (.copies rfl) (by decide)
  have collected := copied.alone (.ends rfl) (by decide)
  have sent := collected.alone (.sends rfl) (by decide)
  exact sent.alone (.leaves (by decide)) (by decide)

/-- Its slot is not free, and its memory is counted. -/
theorem budget_kept_dropped :
    (dropped.exchanges.map Exchange.held).sum = 4096 ∧ dropped.available = 7 ∧
      4096 ≤ BUFFER_BUDGET_BYTES ∧ Reaches dropped start := by
  obtain ⟨within, _, _, _, back⟩ := budget_kept dropped dropped_reaches
  exact ⟨rfl, rfl, within, back⟩

end Luhmen.Host.Gateway.Budget
