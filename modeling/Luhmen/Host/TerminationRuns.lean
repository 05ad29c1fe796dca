/-
# Host.TerminationRuns -- whom the signals reach

While the leader is not reaped, its id is no other process's and only the command's processes are
in its group (`Led`); this is what the environment keeps and what guards the signals.  The second
signal leaves only those of them that have left the group (`Emptied`), which nobody undoes, so an
error can tell whether the command is gone (`Truthful`).
-/
import Luhmen.Theory.Guarded
import Luhmen.Host.Termination

namespace Luhmen.Host.Termination

open Luhmen.Theory
open Run

set_option autoImplicit false

/-! ## What processes do -/

theorem put_cases {s : State} {pid other : Nat} {process : Option Process} {found : Process}
    (is : (s.put other process).table pid = some found) :
    process = some found ∨ s.table pid = some found := by
  by_cases same : pid = other
  · subst same
    exact .inl ((State.put_self s pid process).symm.trans is)
  · exact .inr ((State.put_other process same).symm.trans is)

theorem Moves.child {s t : State} (moves : Moves s t) : t.child = s.child := by
  cases moves with
  | fork | exit | reap | move => rfl

/-- Where a process of the next table comes from, and what it has kept. -/
theorem Moves.origin {s t : State} (moves : Moves s t) {pid : Nat} {found : Process}
    (is : t.table pid = some found) :
    ∃ origin process, s.table origin = some process ∧ found.ours = process.ours ∧
      (found.running = true → process.running = true) ∧
      (process.left = true → found.left = true) ∧
      (found.group = process.group ∨ (found.left = true ∧ (found.group = origin ∨
        ∃ other member, s.table other = some member ∧ member.group = found.group ∧
          (member.ours = true → process.ours = true)))) := by
  cases moves with
  | @fork parent fresh process known running free =>
      rcases put_cases is with made | old
      · obtain rfl := Option.some.inj made
        exact ⟨parent, process, known, rfl, id, id, .inl rfl⟩
      · exact ⟨pid, found, old, rfl, id, id, .inl rfl⟩
  | @exit dying process known =>
      rcases put_cases is with made | old
      · obtain rfl := Option.some.inj made
        exact ⟨dying, process, known, rfl, (nomatch ·), id, .inl rfl⟩
      · exact ⟨pid, found, old, rfl, id, id, .inl rfl⟩
  | reap known zombie other =>
      rcases put_cases is with made | old
      · cases made
      · exact ⟨pid, found, old, rfl, id, id, .inl rfl⟩
  | @move moving group process known running allowed =>
      rcases put_cases is with made | old
      · obtain rfl := Option.some.inj made
        refine ⟨moving, process, known, rfl, id, fun left => by simp [left], ?_⟩
        by_cases same : group = process.group
        · exact .inl same
        · exact .inr ⟨by simp [same], allowed⟩
      · exact ⟨pid, found, old, rfl, id, id, .inl rfl⟩

theorem hit_origin {s : State} {dies : Nat → Process → Bool} {pid : Nat} {found : Process}
    (is : (s.hit dies).table pid = some found) :
    ∃ process, s.table pid = some process ∧ found.group = process.group ∧
      found.ours = process.ours ∧ found.left = process.left ∧
      (found.running = true → process.running = true ∧ dies pid process = false) := by
  obtain ⟨process, known, rfl⟩ := Option.map_eq_some_iff.1 is
  refine ⟨process, known, ?_⟩
  by_cases dying : dies pid process = true
  · rw [if_pos dying]
    exact ⟨rfl, rfl, rfl, (nomatch ·)⟩
  · rw [if_neg dying]
    exact ⟨rfl, rfl, rfl, fun running => ⟨running, Bool.eq_false_iff.2 dying⟩⟩

/-! ## What is invariant -/

/-- The leader was spawned with this id and is not reaped.  Only the command's processes are in
its group, and those that are not have left it. -/
structure Led (child : Nat) (s : State) : Prop where
  unreaped : s.child = some child
  leader : ∃ process, s.table child = some process ∧ process.ours = true
  members : ∀ pid process, s.table pid = some process → process.group = child →
    process.ours = true
  stayed : ∀ pid process, s.table pid = some process → process.ours = true →
    process.group = child ∨ process.left = true

/-- Of the command only those run on that have left its group. -/
def Emptied (s : State) : Prop :=
  ∀ pid process, s.table pid = some process → process.ours = true → process.running = true →
    process.left = true

theorem put_leader {s : State} {pid child : Nat} {process next : Process}
    (known : s.table pid = some process) (same : next.ours = process.ours)
    (leader : ∃ process, s.table child = some process ∧ process.ours = true) :
    ∃ process, (s.put pid (some next)).table child = some process ∧ process.ours = true := by
  obtain ⟨leading, is, ours⟩ := leader
  by_cases here : child = pid
  · subst here
    obtain rfl := Option.some.inj (known.symm.trans is)
    exact ⟨next, State.put_self s child _, same.trans ours⟩
  · exact ⟨leading, (State.put_other _ here).trans is, ours⟩

theorem Led.moves_leader {child : Nat} {s t : State} (led : Led child s) (moves : Moves s t) :
    ∃ process, t.table child = some process ∧ process.ours = true := by
  obtain ⟨leading, is, ours⟩ := led.leader
  cases moves with
  | @fork parent fresh process known running free =>
      have other : child ≠ fresh := by
        rintro rfl
        cases free.1.symm.trans is
      exact ⟨leading, (State.put_other _ other).trans is, ours⟩
  | exit known => exact put_leader known rfl led.leader
  | @reap pid process known zombie unowned =>
      have other : child ≠ pid := by
        rintro rfl
        exact unowned led.unreaped
      exact ⟨leading, (State.put_other _ other).trans is, ours⟩
  | move known running allowed => exact put_leader known rfl led.leader

theorem led_stable (child : Nat) : host.Stable (Led child) := by
  intro s t moves led
  refine ⟨moves.child.trans led.unreaped, led.moves_leader moves, ?_, ?_⟩
  · intro pid found is inGroup
    obtain ⟨origin, process, known, ours, _, _, group⟩ := moves.origin is
    rw [ours]
    rcases group with same | ⟨_, own | ⟨other, member, there, joined, allowed⟩⟩
    · exact led.members origin process known (same.symm.trans inGroup)
    · -- only the leader bears the id of the group
      obtain ⟨leading, leads, oursToo⟩ := led.leader
      rw [← own, inGroup, leads] at known
      obtain rfl := Option.some.inj known
      exact oursToo
    · exact allowed (led.members other member there (joined.trans inGroup))
  · intro pid found is isOurs
    obtain ⟨origin, process, known, ours, _, left, group⟩ := moves.origin is
    rcases led.stayed origin process known (ours.symm.trans isOurs) with inGroup | gone
    · rcases group with same | ⟨gone, _⟩
      · exact .inl (same.trans inGroup)
      · exact .inr gone
    · exact .inr (left gone)

theorem emptied_stable : host.Stable Emptied := by
  intro s t moves emptied pid found is isOurs running
  obtain ⟨origin, process, known, ours, ran, left, _⟩ := moves.origin is
  exact left (emptied origin process known (ours.symm.trans isOurs) (ran running))

theorem before_stable : host.Stable Before := by
  intro s t moves before
  refine ⟨moves.child.trans before.child, fun pid found is => ?_⟩
  obtain ⟨origin, process, known, ours, _⟩ := moves.origin is
  exact ours.trans (before.strangers origin process known)

theorem reaped_stable : host.Stable fun s => s.child = none :=
  fun _ _ moves reaped => moves.child.trans reaped

theorem Before.emptied {s : State} (before : Before s) : Emptied s := by
  intro pid process is ours _
  rw [before.strangers pid process is] at ours
  cases ours

theorem Before.spawn {s : State} (before : Before s) {pid : Nat} (free : s.Free pid) :
    Led pid { s.put pid (some ⟨pid, true, true, false⟩) with child := some pid } := by
  refine ⟨rfl, ⟨_, State.put_self s pid _, rfl⟩, fun other process is inGroup => ?_,
    fun other process is ours => ?_⟩
  · rcases put_cases is with made | old
    · obtain rfl := Option.some.inj made
      rfl
    · exact absurd inGroup (free.2 other process old)
  · rcases put_cases is with made | old
    · obtain rfl := Option.some.inj made
      exact .inl rfl
    · rw [before.strangers other process old] at ours
      cases ours

theorem Led.hit {child : Nat} {s : State} (led : Led child s) (dies : Nat → Process → Bool) :
    Led child (s.hit dies) := by
  refine ⟨led.unreaped, ?_, fun pid found is inGroup => ?_, fun pid found is isOurs => ?_⟩
  · obtain ⟨leading, is, ours⟩ := led.leader
    refine ⟨_, congrArg (Option.map _) is, ?_⟩
    dsimp only
    by_cases dying : dies child leading = true
    · rw [if_pos dying]
      exact ours
    · rw [if_neg dying]
      exact ours
  · obtain ⟨process, known, group, ours, _⟩ := hit_origin is
    exact ours.trans (led.members pid process known (group.symm.trans inGroup))
  · obtain ⟨process, known, group, ours, left, _⟩ := hit_origin is
    rw [group, left]
    exact led.stayed pid process known (ours.symm.trans isOurs)

/-- Who is hit with its whole group leaves only those that are not in it. -/
theorem Led.emptied {child : Nat} {s : State} (led : Led child s) {dies : Nat → Process → Bool}
    (all : ∀ pid process, process.group = child → dies pid process = true) :
    Emptied (s.hit dies) := by
  intro pid found is isOurs running
  obtain ⟨process, known, _, ours, left, ran⟩ := hit_origin is
  rcases led.stayed pid process known (ours.symm.trans isOurs) with inGroup | gone
  · cases (ran running).2.symm.trans (all pid process inGroup)
  · exact left.trans gone

theorem Emptied.reaps {s t : State} (emptied : Emptied s) (reaps : s.Reaps t) : Emptied t := by
  obtain ⟨child, process, _, _, _, rfl⟩ := reaps
  intro pid found is
  rcases put_cases is with impossible | old
  · cases impossible
  · exact emptied pid found old

theorem Reaps.child {s t : State} (reaps : s.Reaps t) : t.child = none := by
  obtain ⟨_, _, _, _, _, rfl⟩ := reaps
  rfl

/-! ## The programs -/

theorem captured_ok {capture : Capture.State} {captured : Nat × Bytes × Bytes}
    (reachable : Capture.Reachable capture) (ended : Captured (.ok captured) capture) :
    ∃ status, capture.leader = .reaped status :=
  ⟨_, ((Capture.inv_of_reachable reachable).returned _ _ _ ended).1⟩

theorem captured_error {capture : Capture.State} {error : Error}
    (reachable : Capture.Reachable capture) (ended : Captured (.error error) capture)
    (status : Nat) : capture.leader ≠ .reaped status := by
  intro reaped
  rcases ended with started | ⟨message, causes, _, failed⟩
  · cases started.leader.symm.trans reaped
  · have returned := ((Capture.inv_of_reachable reachable).reaped status reaped).2.2
    cases failed.symm.trans returned

/-- A signal is only sent to the group of a leader that is not reaped, and only the command's
processes are in it. -/
def guard : Request → State → Prop
  | .signal group _, s => s.child = some group ∧
      ∀ pid process, s.table pid = some process → process.group = group → process.ours = true
  | .kill child, s => s.child = some child ∧
      ∃ process, s.table child = some process ∧ process.ours = true
  | _, _ => True

/-- The error does not say that the cleanup failed. -/
def Clean (error : Error) : Prop :=
  ∀ link ∈ error, ∀ cleanup, link ≠ cleanupFailed ++ cleanup

/-- What an error lets its reader conclude. -/
def Truthful (error : Error) (s : State) : Prop :=
  error.head? = some commandFailed → Clean error → s.child = none ∧ Emptied s

abbrev Spec {α : Type} (pre : State → Prop) (block : Run α) (post : α → State → Prop)
    (failing : Error → State → Prop) : Prop :=
  @System.Heeds Requests host Error α guard pre block post failing

variable {child rounds : Nat}

/-- A request that has nothing to do with processes. -/
theorem quiet_spec {request : Request} {Q : State → Prop} {failing : Error → State → Prop}
    (stable : host.Stable Q) (allowed : ∀ s, guard request s)
    (quiet : ∀ s reply t, exec request s reply t → t = s) :
    Spec Q (perform request) (fun _ s => Q s) failing := by
  refine System.Heeds.perform stable (fun s _ => allowed s) ?_
  intro s reply t here performed
  rw [quiet s reply t performed]
  exact here

theorem signalGroup_spec (signal : Signal) :
    Spec (Led child) (signalGroup child signal)
      (fun _ s => Led child s ∧ (signal = .kill → Emptied s)) fun _ s => Led child s := by
  have sent : Spec (Led child) (perform (.signal child signal))
      (fun (reply : Option (Except String ExitStatus)) s => Led child s ∧
        ∀ status, reply = some (.ok status) → status.success = true → signal = .kill → Emptied s)
      fun _ s => Led child s := by
    refine System.Heeds.perform (led_stable child) (fun s led => ⟨led.unreaped, led.members⟩) ?_
    rintro s reply t led (⟨dies, _, all, rfl⟩ | ⟨rfl, unsent⟩)
    · exact ⟨led.hit dies, fun _ _ _ isKill => led.emptied (all isKill)⟩
    · refine ⟨led, fun status is success => ?_⟩
      cases (unsent status is).symm.trans success
  refine System.Heeds.bind sent fun reply => ?_
  rcases reply with _ | error | status
  · exact System.Heeds.throw fun s here => here.1
  · exact System.Heeds.throw fun s here => here.1
  · dsimp only
    by_cases success : status.success = true
    · rw [if_pos success]
      exact System.Heeds.pure fun s here => ⟨here.1, here.2 status rfl success⟩
    · rw [if_neg success]
      exact System.Heeds.throw fun s here => here.1

/-- What holds from the second signal on; `killed` is whether it was sent. -/
def Struggles (child : Nat) (killed : Prop) (s : State) : Prop :=
  Led child s ∧ (killed → Emptied s)

theorem struggles_stable (child : Nat) (killed : Prop) : host.Stable (Struggles child killed) := by
  rintro s t moves ⟨led, emptied⟩
  exact ⟨led_stable child s t moves led, fun done => emptied_stable s t moves (emptied done)⟩

theorem reap_spec (killed : Prop) :
    Spec (Struggles child killed) (reap child rounds)
      (fun _ s => s.child = none ∧ (killed → Emptied s)) fun _ _ => True := by
  induction rounds with
  | zero => exact System.Heeds.throw fun _ _ => trivial
  | succ rounds ih =>
      have waited : Spec (Struggles child killed) (perform (.tryWait child))
          (fun (reply : Except String (Option Nat)) s =>
            (reply = .ok none → Struggles child killed s) ∧
              ∀ status, reply = .ok (some status) → s.child = none ∧ (killed → Emptied s))
          fun _ _ => True := by
        refine System.Heeds.perform (struggles_stable child killed) (fun _ _ => trivial) ?_
        rintro s reply t here (⟨⟨error, rfl⟩, rfl⟩ | ⟨rfl, rfl, _⟩ | ⟨status, rfl, _, reaps⟩)
        · exact ⟨(nomatch ·), fun _ => (nomatch ·)⟩
        · exact ⟨fun _ => here, fun _ => (nomatch ·)⟩
        · exact ⟨(nomatch ·), fun _ _ => ⟨Reaps.child reaps, fun done => (here.2 done).reaps reaps⟩⟩
      refine System.Heeds.bind waited fun reply => ?_
      rcases reply with error | _ | status
      · exact System.Heeds.throw fun _ _ => trivial
      · have notified : Spec (Struggles child killed) (perform .recv)
            (fun _ s => Struggles child killed s) fun _ _ => True :=
          quiet_spec (struggles_stable child killed) (fun _ => trivial) fun _ _ _ same => same
        refine System.Heeds.weaken (fun s here => here.1 rfl) (System.Heeds.bind notified ?_)
          (fun _ _ after => after) fun _ _ fails => fails
        intro notification
        cases notification with
        | received => exact ih
        | ended => exact System.Heeds.throw fun _ _ => trivial
        | elapsed => exact System.Heeds.throw fun _ _ => trivial
      · exact System.Heeds.pure fun s here => here.2 status rfl

theorem lastResort_spec (killed : Except Error Unit) :
    Spec (Struggles child (killed = .ok ())) (lastResort child killed)
      (fun _ s => Struggles child (killed = .ok ()) s) fun _ _ => True := by
  cases killed with
  | ok value => exact System.Heeds.pure fun s here => here
  | error error =>
      have tried : Spec (Struggles child (Except.error error = .ok ())) (perform (.kill child))
          (fun _ s => Struggles child (Except.error error = .ok ()) s) fun _ _ => True := by
        refine System.Heeds.perform (struggles_stable child _)
          (fun s here => ⟨here.1.unreaped, here.1.leader⟩) ?_
        rintro s reply t ⟨led, _⟩ ⟨dies, _, rfl⟩
        exact ⟨led.hit dies, (nomatch ·)⟩
      exact System.Heeds.bind tried fun _ => System.Heeds.pure fun s here => here

theorem signalled_spec (signal : Signal) :
    Spec (Led child) (attempt (signalGroup child signal))
      (fun result s => Struggles child (signal = .kill ∧ result = .ok ()) s) fun _ _ => True := by
  refine System.Heeds.weaken (fun _ led => led) (System.Heeds.attempt (signalGroup_spec signal)) ?_
    fun _ _ fails => fails
  intro result s ended
  cases result with
  | ok value => exact ⟨ended.1, fun done => ended.2 done.1⟩
  | error error => exact ⟨ended, fun done => nomatch done.2⟩

theorem terminateGroup_spec :
    Spec (Led child) (terminateGroup rounds child) (fun _ s => s.child = none ∧ Emptied s)
      fun _ _ => True := by
  have asked : Spec (Led child) (attempt (signalGroup child .term)) (fun _ s => Led child s)
      fun _ _ => True :=
    System.Heeds.weaken (fun _ led => led) (signalled_spec .term) (fun _ _ after => after.1)
      fun _ _ fails => fails
  have slept : Spec (Led child) (perform (.sleep 250)) (fun _ s => Led child s)
      fun _ _ => True :=
    quiet_spec (led_stable child) (fun _ => trivial) fun _ _ _ same => same
  have killed : Spec (Led child) (attempt (signalGroup child .kill))
      (fun result s => Struggles child (result = .ok ()) s) fun _ _ => True :=
    System.Heeds.weaken (fun _ led => led) (signalled_spec .kill)
      (fun _ _ after => ⟨after.1, fun done => after.2 ⟨rfl, done⟩⟩) fun _ _ fails => fails
  refine System.Heeds.bind asked fun _ => System.Heeds.bind slept fun _ =>
    System.Heeds.bind killed fun result => System.Heeds.bind (lastResort_spec result) fun _ =>
      System.Heeds.bind (reap_spec _) fun _ => ?_
  cases result with
  | ok value => exact fun s here => ⟨here.1, here.2 rfl⟩
  | error error => exact fun _ _ => trivial

theorem giveUp_spec {error : Error} :
    Spec (Led child) (giveUp rounds child error) (fun _ s => s.child = none) Truthful := by
  refine System.Heeds.bind (System.Heeds.attempt terminateGroup_spec) fun result => ?_
  cases result with
  | ok value => exact System.Heeds.throw fun s ended _ _ => ended
  | error cleanup =>
      refine System.Heeds.throw fun s _ _ clean => ?_
      exact absurd rfl (clean (cleanupFailed ++ alternate cleanup) (by simp) (alternate cleanup))

section Text

variable {invalid : Bytes → String}

theorem fromUtf8_spec {context : String} (other : context ≠ commandFailed) (bytes : Bytes) :
    Spec (fun s => s.child = none) (fromUtf8 invalid context bytes) (fun _ s => s.child = none)
      Truthful := by
  unfold fromUtf8
  cases Utf8.fromUtf8 bytes with
  | some text => exact System.Heeds.pure fun s here => here
  | none => exact System.Heeds.throw fun s _ failed => absurd (Option.some.inj failed) other

theorem output_spec (captured : Nat × Bytes × Bytes) :
    Spec (fun s => s.child = none) (output invalid captured) (fun _ s => s.child = none)
      Truthful := by
  refine System.Heeds.bind (fromUtf8_spec (by decide) _) fun stdout => ?_
  refine System.Heeds.bind (fromUtf8_spec (by decide) _) fun stderr => ?_
  exact System.Heeds.pure fun s here => here

theorem orFail_spec {α : Type} (outcome : Except Error α) :
    Spec Before (orFail outcome) (fun _ s => Before s) Truthful := by
  cases outcome with
  | ok value => exact fun s before => before
  | error error => exact fun s before _ _ => ⟨before.child, before.emptied⟩

theorem spawn_spec :
    Spec Before (perform .spawn)
      (fun (reply : Except String Nat) s => (∀ child, reply = .ok child → Led child s) ∧
        ∀ error, reply = .error error → Before s) Truthful := by
  refine System.Heeds.perform before_stable (fun _ _ => trivial) ?_
  rintro s reply t before (⟨⟨error, rfl⟩, rfl⟩ | ⟨child, rfl, free, rfl⟩)
  · exact ⟨fun _ => (nomatch ·), fun _ _ => before⟩
  · refine ⟨fun other is => ?_, fun _ => (nomatch ·)⟩
    obtain rfl := Except.ok.inj is
    exact before.spawn free

theorem capture_spec (timeout : Nat) :
    Spec (Led child) (perform (.capture timeout))
      (fun (reply : Except Error (Nat × Bytes × Bytes)) s =>
        (∀ captured, reply = .ok captured → s.child = none) ∧
          ∀ error, reply = .error error → Led child s) Truthful := by
  refine System.Heeds.perform (led_stable child) (fun _ _ => trivial) ?_
  rintro s reply t led ⟨capture, reachable, ended, ⟨status, reaped, reaps⟩ | ⟨unreaped, rfl⟩⟩
  · refine ⟨fun _ _ => Reaps.child reaps, fun error is => ?_⟩
    subst is
    exact absurd reaped (captured_error reachable ended status)
  · refine ⟨fun captured is => ?_, fun _ _ => led⟩
    subst is
    obtain ⟨status, reaped⟩ := captured_ok reachable ended
    exact absurd reaped (unreaped status)

theorem spawned_spec (reply : Except String Nat) (explain : String → Error) :
    Spec (fun s => (∀ child, reply = .ok child → Led child s) ∧
        ∀ error, reply = .error error → Before s)
      (orFail (reply.mapError explain)) (fun child s => Led child s) Truthful := by
  cases reply with
  | ok child => exact fun s here => here.1 child rfl
  | error error =>
      intro s here _ _
      have before := here.2 error rfl
      exact ⟨before.child, before.emptied⟩

theorem runAsync_spec (timeout : Nat) :
    Spec Before (runAsync invalid rounds timeout) (fun _ s => s.child = none) Truthful := by
  refine System.Heeds.bind
    (quiet_spec before_stable (fun _ => trivial) fun _ _ _ same => same) fun registered => ?_
  refine System.Heeds.bind (orFail_spec _) fun _ => System.Heeds.bind spawn_spec fun spawned => ?_
  refine System.Heeds.bind (spawned_spec spawned _) fun child =>
    System.Heeds.bind (capture_spec timeout) fun reply => ?_
  cases reply with
  | ok captured =>
      exact System.Heeds.weaken (fun s here => here.1 captured rfl) (output_spec captured)
        (fun _ _ after => after) fun _ _ fails => fails
  | error error =>
      exact System.Heeds.weaken (fun s here => here.2 error rfl) giveUp_spec
        (fun _ _ after => after) fun _ _ fails => fails

theorem run_spec (timeout : Nat) :
    Spec Before (run invalid rounds timeout) (fun _ s => s.child = none) Truthful := by
  refine System.Heeds.bind
    (quiet_spec before_stable (fun _ => trivial) fun _ _ _ same => same) fun cancelled => ?_
  cases cancelled with
  | true => exact System.Heeds.throw fun s before _ _ => ⟨before.child, before.emptied⟩
  | false =>
      refine System.Heeds.bind
        (quiet_spec before_stable (fun _ => trivial) fun _ _ _ same => same) fun runtime => ?_
      exact System.Heeds.bind (orFail_spec _) fun _ => runAsync_spec timeout

theorem ended_stable (result : Except Error Output) :
    host.Stable (System.Ended (fun _ s => s.child = none) Truthful result) := by
  cases result with
  | ok value => exact reaped_stable
  | error error =>
      intro s t moves truthful failed clean
      obtain ⟨reaped, emptied⟩ := truthful failed clean
      exact ⟨reaped_stable s t moves reaped, emptied_stable s t moves emptied⟩

end Text

/-! ## A timeout -/

namespace Timeout

/-- A stranger runs before the command is started. -/
def strangers : State where
  table := fun pid => if pid = 5 then some ⟨5, true, false, false⟩ else none
  child := none

theorem strangers_group {pid : Nat} {process : Process} (is : strangers.table pid = some process) :
    process = ⟨5, true, false, false⟩ := by
  unfold strangers at is
  dsimp only at is
  split at is
  · exact (Option.some.inj is).symm
  · cases is

theorem strangers_before : Before strangers :=
  ⟨rfl, fun _ _ is => by rw [strangers_group is]⟩

def leader : Process := ⟨7, true, true, false⟩

def spawned : State :=
  { strangers.put 7 (some leader) with child := some 7 }

/-- The leader has forked two helpers, and one of them has a group of its own. -/
def forked : State :=
  ((spawned.put 8 (some leader)).put 9 (some leader)).put 9 (some ⟨9, true, true, true⟩)

def capture : Capture.State where
  stdout := ⟨⟨[], [], true, 0⟩, [], false⟩
  stderr := ⟨⟨[], [], true, 0⟩, [], false⟩
  leader := .running
  flag := false
  point := .returned (.error "dependency command timed out")

theorem capture_reachable : Capture.Reachable capture := by
  have spawned : Capture.Reachable ⟨⟨⟨[], [], true, 0⟩, [], false⟩, ⟨⟨[], [], true, 0⟩, [], false⟩,
      .running, false, .head⟩ := ⟨_, ⟨rfl, rfl, rfl, rfl⟩, .refl⟩
  have waiting := spawned.acts (.waits rfl fun all => nomatch all.1)
  exact waiting.acts (.fails rfl (by decide))

def zombie (s : State) (child : Nat) : Bool :=
  s.child == some child && (s.table child).any fun process => !process.running

/-- How requests are served, all but the one that spawns: nobody dies of `-TERM`. -/
def serve : (request : Request) → State → Reply request × State
  | .isCancelled, s => (false, s)
  | .runtime, s | .exits, s => (.ok (), s)
  | .spawn, s => (.error "Resource temporarily unavailable", s)
  | .capture _, s => (.error ["dependency command timed out"], s)
  | .signal _ .term, s => (some (.ok ⟨true, "exit status: 0"⟩), s.hit fun _ _ => false)
  | .signal group .kill, s =>
      (some (.ok ⟨true, "exit status: 0"⟩), s.hit fun _ process => decide (process.group = group))
  | .sleep _, s => ((), s)
  | .kill _, s => (.ok (), s.hit fun _ _ => false)
  | .tryWait child, s =>
      if zombie s child then (.ok (some 9), { s.put child none with child := none })
      else (.error "Interrupted system call", s)
  | .recv, s => (.received, s)

theorem serves (request : Request) (s : State) :
    exec request s (serve request s).1 (serve request s).2 := by
  cases request with
  | isCancelled | runtime | exits | sleep | recv => rfl
  | spawn => exact .inl ⟨⟨_, rfl⟩, rfl⟩
  | capture timeout =>
      exact ⟨capture, capture_reachable, .inr ⟨_, [], rfl, rfl⟩, .inr ⟨fun _ => (nomatch ·), rfl⟩⟩
  | signal group signal =>
      cases signal with
      | term => exact .inl ⟨fun _ _ => false, fun _ _ => (nomatch ·), (nomatch ·), rfl⟩
      | kill => exact .inl ⟨_, fun _ _ => of_decide_eq_true, fun _ _ _ => decide_eq_true, rfl⟩
  | kill child => exact ⟨fun _ _ => false, fun _ _ => (nomatch ·), rfl⟩
  | tryWait child =>
      by_cases dead : zombie s child = true
      · simp only [serve, if_pos dead]
        obtain ⟨here, isZombie⟩ := (Bool.and_eq_true _ _).mp dead
        obtain ⟨process, is, stopped⟩ := (Option.any_eq_true _ _).1 isZombie
        have unreaped : s.child = some child := eq_of_beq here
        exact .inr (.inr ⟨9, rfl, unreaped, child, process, unreaped, is, by simpa using stopped, rfl⟩)
      · simp only [serve, if_neg dead]
        exact .inl ⟨⟨_, rfl⟩, rfl⟩

/-- The same with a leader that is spawned. -/
def spawning : (request : Request) → State → Reply request × State
  | .spawn, s => (.ok 7, { s.put 7 (some leader) with child := some 7 })
  | request, s => serve request s

abbrev main : Program Requests (Except Error Output) :=
  (run (fun _ => "invalid utf-8 sequence") 3 60).run

/-- Where the command is captured. -/
def captures : Program Requests (Except Error Output) :=
  (Program.advance spawning 4 (main, strangers)).1

/-- The groups of the stranger and of the leader. -/
def Known (s : State) : Prop :=
  ∀ pid process, s.table pid = some process → process.group = 5 ∨ process.group = 7

theorem Known.put {s : State} (known : Known s) (pid : Nat) : Known (s.put pid (some leader)) := by
  intro other process is
  rcases put_cases is with made | old
  · obtain rfl := Option.some.inj made
    exact .inr rfl
  · exact known other process old

theorem Known.free {s : State} (known : Known s) {pid : Nat} (absent : s.table pid = none)
    (fresh : 7 < pid) : s.Free pid := by
  refine ⟨absent, fun other process is same => ?_⟩
  have group := known other process is
  omega

theorem known_strangers : Known strangers :=
  fun _ _ is => .inl (by rw [strangers_group is])

theorem begun : host.Leads (main, strangers) (captures, forked) := by
  have before := @System.Leads.advance Requests host _ serve serves 3 (main, strangers)
  have free : strangers.Free 7 :=
    ⟨rfl, fun other process is => by rw [strangers_group is]; decide⟩
  have started : exec .spawn strangers (.ok 7 : Except String Nat) spawned :=
    .inr ⟨7, rfl, free, rfl⟩
  have there : host.Leads (main, strangers) (captures, spawned) := before.tail (.call started)
  have known : Known spawned := known_strangers.put 7
  have first : Moves spawned (spawned.put 8 (some leader)) :=
    @Moves.fork spawned 7 8 leader rfl rfl (known.free rfl (by decide))
  have second : Moves (spawned.put 8 (some leader)) ((spawned.put 8 (some leader)).put 9 (some leader)) :=
    @Moves.fork _ 7 9 leader rfl rfl ((known.put 8).free rfl (by decide))
  have moved : Moves ((spawned.put 8 (some leader)).put 9 (some leader)) forked :=
    @Moves.move _ 9 9 leader rfl rfl (.inl rfl)
  exact ((there.tail (.env first)).tail (.env second)).tail (.env moved)

/-- Before the second signal. -/
def struggling : Program Requests (Except Error Output) × State :=
  Program.advance serve 3 (captures, forked)

def final : State :=
  (Program.advance serve 100 (captures, forked)).2

theorem struggled : host.Leads (main, strangers) struggling :=
  begun.trans (@System.Leads.advance Requests host _ serve serves 3 (captures, forked))

theorem finished : host.Leads (main, strangers)
    (.done (.error [commandFailed, "dependency command timed out"]), final) :=
  begun.trans (@System.Leads.advance Requests host _ serve serves 100 (captures, forked))

end Timeout

/-! ## Every run -/

/-- **Nobody else is signalled.**  However processes fork, exit, and move between groups
meanwhile, each signal is sent to the group of the leader while that is not reaped, and all who
are in the group then descend from the command; where only the leader is killed it is not reaped
either. -/
theorem only_ours_signalled (invalid : Bytes → String) (rounds timeout : Nat) (s t : State)
    (rest : Program Requests (Except Error Output)) (before : Before s)
    (leads : host.Leads ((run invalid rounds timeout).run, s) (rest, t)) :
    (∀ group signal, rest.pending = some (.signal group signal) → t.child = some group ∧
      ∀ pid process, t.table pid = some process → process.group = group → process.ours = true) ∧
    ∀ child, rest.pending = some (.kill child) → t.child = some child ∧
      ∃ process, t.table child = some process ∧ process.ours = true := by
  have guarded := System.Guarded.leads ended_stable (run_spec timeout s before) leads
  have here : ∀ request, rest.pending = some request → guard request t := by
    intro request is
    rcases guarded.pending with ⟨pending, isPending, allowed⟩ | ⟨value, rfl, _⟩
    · obtain rfl := Option.some.inj (isPending.symm.trans is)
      exact allowed
    · cases is
  exact ⟨fun group signal is => here _ is, fun child is => here _ is⟩

/-- At the second signal of that run the helper is in the group and the stranger is not. -/
theorem only_ours_signalled_timeout :
    Timeout.struggling.1.pending = some (.signal 7 .kill) ∧
      Timeout.struggling.2.child = some 7 ∧
      ∀ pid process, Timeout.struggling.2.table pid = some process → process.group = 7 →
        process.ours = true :=
  ⟨rfl, (only_ours_signalled _ 3 60 _ _ _ Timeout.strangers_before Timeout.struggled).1 7 .kill rfl⟩

/-- **None outlives a command that failed.**  Where `run` says that the command failed, and not
that the cleanup did as well, its leader is reaped, and of all that descend from it only those
run on that have left its group. -/
theorem none_outlives (invalid : Bytes → String) (rounds timeout : Nat) (s t : State)
    (error : Error) (before : Before s)
    (leads : host.Leads ((run invalid rounds timeout).run, s) (.done (.error error), t))
    (failed : error.head? = some commandFailed)
    (clean : ∀ link ∈ error, ∀ cleanup, link ≠ cleanupFailed ++ cleanup) :
    t.child = none ∧ ∀ pid process, t.table pid = some process → process.ours = true →
      process.running = true → process.left = true := by
  have truthful : Truthful error t :=
    System.Guarded.leads ended_stable (run_spec timeout s before) leads
  exact truthful failed clean

/-- The helper that ignored `-TERM` is gone, and the one that left runs on, as the stranger does. -/
theorem none_outlives_timeout :
    (Timeout.final.child = none ∧ ∀ pid process, Timeout.final.table pid = some process →
      process.ours = true → process.running = true → process.left = true) ∧
    Timeout.final.table 8 = some ⟨7, false, true, false⟩ ∧
    Timeout.final.table 9 = some ⟨9, true, true, true⟩ ∧
    Timeout.final.table 5 = some ⟨5, true, false, false⟩ := by
  refine ⟨none_outlives _ 3 60 _ _ _ Timeout.strangers_before Timeout.finished rfl ?_, rfl, rfl, rfl⟩
  intro link member cleanup is
  have starts := congrArg (fun text => text.toList.take 15) is
  simp only [String.toList_append] at starts
  rw [List.take_append_of_le_length (by decide)] at starts
  simp only [List.mem_cons, List.not_mem_nil, or_false] at member
  rcases member with rfl | rfl
  · exact absurd starts (by decide)
  · exact absurd starts (by decide)

end Luhmen.Host.Termination
