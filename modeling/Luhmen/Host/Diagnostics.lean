/-
# Host.Diagnostics -- diagnostics change nothing

`plainCommand` is `command` without a `Trace`: the same preflight, power-off, start and wait, with
nothing timed, noted or saved.  A command makes the requests of the plain one, gets on with
their replies the same way and ends with the same result, whatever becomes of its clocks and
files.
-/
import Luhmen.Theory.Contract
import Luhmen.Theory.Quiet
import Luhmen.Host.Lifecycle

namespace Luhmen.Host.Lifecycle

open Luhmen.Theory
open Luhmen.Theory.Fallible (Erases)
open Run

set_option autoImplicit false

/-- What only `Trace` asks for. -/
def Request.isDiagnostic : Request → Bool
  | .unixTime | .now | .createNew _ | .writeAll _ _ | .syncAll _ | .rename _ | .syncDirectory
  | .removeFile _ => true
  | _ => false

def Diagnostic (request : Requests.Request) : Prop :=
  Request.isDiagnostic request = true

instance : DecidablePred Diagnostic :=
  fun request => inferInstanceAs (Decidable (Request.isDiagnostic request = true))

def plainStop (restart running : Bool) : Run Unit :=
  if restart = true ∧ running = true then stopLocked false else pure ()

def plainLimaStart (restart running : Bool) : Run Unit :=
  if running = false ∨ restart = true then demand .limaStart id else pure ()

def plainStart (restart : Bool) : Run Unit := do
  let running ← startPreflight restart
  plainStop restart running
  plainLimaStart restart running
  demand .waitForEngine id

def plainCommand (operation : Operation) : Run Unit := do
  demand .checkHost id
  demand .ensureOwned id
  demand (.lock operation) id
  match operation with
  | .start => plainStart false
  | .stop force => stopLocked force
  | .restart => plainStart true
  demand .inspect id

/-! ## What is skipped -/

section Skipped

variable {F : Type} (shown : F → List Char)

theorem uses_demand {allowed : Request → Prop} {request : Request} {α : Type}
    {outcome : Reply request → Except String α} (isAllowed : allowed request) :
    Program.Uses allowed (demand request outcome).run :=
  ⟨isAllowed, fun reply => by
    show Program.Uses allowed (orFail (outcome reply)).run
    cases outcome reply <;> trivial⟩

theorem uses_publish (pid : Nat) (bytes : Bytes) : Program.Uses Diagnostic (publish pid bytes).run := by
  refine Fallible.uses_bind (uses_demand rfl) fun _ => ?_
  refine Fallible.uses_bind (uses_demand rfl) fun _ => ?_
  refine Fallible.uses_bind (uses_demand rfl) fun _ => ?_
  refine Fallible.uses_bind (uses_demand rfl) fun _ => ?_
  exact uses_demand rfl

theorem uses_atomicWrite (pid : Nat) (bytes : Bytes) :
    Program.Uses Diagnostic (atomicWrite pid bytes).run := by
  have attempted : Program.Uses Diagnostic (attempt (publish pid bytes)).run := by
    refine Program.uses_bind (uses_publish pid bytes) fun result => ?_
    cases result <;> trivial
  refine Fallible.uses_bind attempted fun result => ?_
  cases result with
  | ok value => trivial
  | error stop => exact ⟨rfl, fun _ => trivial⟩

/-- A checkpoint makes diagnostic requests, and goes on whatever they came to. -/
theorem checkpoint_erases {β β' : Type} {same : β → β' → Prop} (pid : Nat) (report : Startup.Report)
    {rest : Unit → Run β} {plain : Run β'} (after : Erases Diagnostic same (rest ()) plain) :
    Erases Diagnostic same (checkpoint shown pid report >>= rest) plain := by
  have saved : Erases Diagnostic Eq (checkpoint shown pid report) (pure ()) :=
    .skip_attempt (uses_atomicWrite pid _) fun _ => .pure rfl
  exact saved.bind fun _ _ _ => after

theorem perform_erases {β β' : Type} {same : β → β' → Prop} {request : Request}
    (diagnostic : request.isDiagnostic = true) {rest : Reply request → Run β} {plain : Run β'}
    (after : ∀ reply, Erases Diagnostic same (rest reply) plain) :
    Erases Diagnostic same (perform request >>= rest) plain :=
  @Erases.skip_perform _ Requests _ _ Diagnostic _ request diagnostic _ _ after

theorem new_erases {β β' : Type} {same : β → β' → Prop} (pid : Nat) (name : String)
    {rest : Trace → Run β} {plain : Run β'}
    (after : ∀ trace, Erases Diagnostic same (rest trace) plain) :
    Erases Diagnostic same (Trace.new shown pid name >>= rest) plain := by
  have opened : Erases Diagnostic (fun _ _ => True) (Trace.new shown pid name) (pure ()) := by
    refine perform_erases rfl fun started => perform_erases rfl fun unixMs => ?_
    exact checkpoint_erases shown pid _ (.pure trivial)
  exact opened.bind fun trace _ _ => after trace

/-- A stage is its operation. -/
theorem stage_erases {α : Type} (trace : Trace) (pid : Nat) (name : String) (operation : Run α) :
    Erases Diagnostic (fun result value => result.1 = value)
      (trace.stage shown pid name operation) operation := by
  refine checkpoint_erases shown pid _ ?_
  refine perform_erases rfl fun began => ?_
  refine .attempted (fun value => ?_) fun failure => ?_
  · refine perform_erases rfl fun stageEnd => perform_erases rfl fun totalEnd => ?_
    exact checkpoint_erases shown pid _ (.pure rfl)
  · refine perform_erases rfl fun stageEnd => perform_erases rfl fun totalEnd => ?_
    exact checkpoint_erases shown pid _ (.done rfl)

/-- A stage that is left out leaves nothing. -/
theorem skip_erases (trace : Trace) (pid : Nat) (name : String) :
    Erases Diagnostic (fun _ _ => True) (trace.skip shown pid name) (pure ()) :=
  checkpoint_erases shown pid _ (.pure trivial)

theorem complete_erases (trace : Trace) (pid : Nat) :
    Erases Diagnostic Eq (trace.complete shown pid) (pure ()) := by
  refine perform_erases rfl fun totalEnd => ?_
  rw [← bind_pure (checkpoint shown pid _)]
  exact checkpoint_erases shown pid _ (.pure rfl)

theorem stopStage_erases (pid : Nat) (restart running : Bool) (trace : Trace) :
    Erases Diagnostic (fun _ _ => True) (stopStage shown pid restart running trace)
      (plainStop restart running) := by
  unfold stopStage plainStop
  by_cases both : restart = true ∧ running = true
  · rw [if_pos both, if_pos both]
    exact (stage_erases shown trace pid "lima_stop" _).bind_plain fun _ _ _ => .pure trivial
  · rw [if_neg both, if_neg both]
    exact .pure trivial

theorem startStage_erases (pid : Nat) (restart running : Bool) (trace : Trace) :
    Erases Diagnostic (fun _ _ => True) (startStage shown pid restart running trace)
      (plainLimaStart restart running) := by
  unfold startStage plainLimaStart
  by_cases either : running = false ∨ restart = true
  · rw [if_pos either, if_pos either]
    exact (stage_erases shown trace pid "lima_start" _).bind_plain fun _ _ _ => .pure trivial
  · rw [if_neg either, if_neg either]
    exact skip_erases shown trace pid "lima_start"

theorem startLocked_erases (pid : Nat) (restart : Bool) :
    Erases Diagnostic Eq (startLocked shown pid restart) (plainStart restart) := by
  refine new_erases shown pid _ fun trace => ?_
  refine (stage_erases shown trace pid "preflight" _).bind fun preflight running is => ?_
  obtain rfl := is
  refine (stopStage_erases shown pid restart preflight.1 _).bind fun trace _ _ => ?_
  refine (startStage_erases shown pid restart preflight.1 trace).bind fun trace _ _ => ?_
  refine (stage_erases shown trace pid "engine_socket_ready" _).bind_plain fun ready _ _ => ?_
  exact complete_erases shown ready.2 pid

theorem command_erases (pid : Nat) (op : Operation) :
    Erases Diagnostic Eq (command shown pid op) (plainCommand op) := by
  refine (Erases.refl _).bind fun _ _ _ => ?_
  refine (Erases.refl _).bind fun _ _ _ => ?_
  refine (Erases.refl _).bind fun _ _ _ => ?_
  cases op with
  | start => exact (startLocked_erases shown pid false).bind fun _ _ _ => .refl _
  | stop force => exact (Erases.refl _).bind fun _ _ _ => .refl _
  | restart => exact (startLocked_erases shown pid true).bind fun _ _ _ => .refl _

/-! ## What is left -/

/-- Nothing diagnostic. -/
abbrev Clean {α : Type} (block : Run α) : Prop :=
  Program.Uses (fun request => ¬ Diagnostic request) block.run

theorem clean_demand {request : Request} {α : Type} {outcome : Reply request → Except String α}
    (plain : request.isDiagnostic = false) : Clean (demand request outcome) :=
  uses_demand fun diagnostic => Bool.noConfusion (plain.symm.trans diagnostic)

theorem clean_ensureContext : Clean ensureContext := by
  refine Fallible.uses_bind (clean_demand rfl) fun ready => ?_
  cases ready with
  | true => trivial
  | false =>
      refine Fallible.uses_bind (clean_demand rfl) fun _ => ?_
      refine Fallible.uses_bind (clean_demand rfl) fun created => ?_
      cases created <;> trivial

theorem clean_startPreflight (restart : Bool) : Clean (startPreflight restart) := by
  refine Fallible.uses_bind (clean_demand rfl) fun _ => ?_
  refine Fallible.uses_bind (clean_demand rfl) fun config => ?_
  refine Fallible.uses_bind (clean_demand rfl) fun _ => ?_
  refine Fallible.uses_bind (clean_demand rfl) fun _ => ?_
  refine Fallible.uses_bind clean_ensureContext fun _ => ?_
  refine Fallible.uses_bind (clean_demand rfl) fun vm => ?_
  cases vm with
  | none => trivial
  | some status =>
      dsimp only
      split
      · split
        · refine Fallible.uses_bind (clean_demand rfl) fun space => ?_
          split <;> trivial
        · trivial
      · trivial

theorem clean_powerOff (force : Bool) : Clean (powerOff force) := by
  cases force
  on_goal 1 => refine Fallible.uses_bind (clean_demand rfl) fun _ => ?_
  all_goals
    refine Fallible.uses_bind (clean_demand rfl) fun _ => ?_
    refine Fallible.uses_bind (clean_demand rfl) fun vm => ?_
    cases vm with
    | none => trivial
    | some status =>
        dsimp only
        split <;> trivial

theorem clean_stopLocked (force : Bool) : Clean (stopLocked force) := by
  refine Fallible.uses_bind (clean_demand rfl) fun _ => ?_
  refine Fallible.uses_bind (clean_demand rfl) fun vm => ?_
  cases vm with
  | none => trivial
  | some status =>
      dsimp only
      split
      · trivial
      · split
        · exact clean_powerOff force
        · trivial

theorem clean_plainStart (restart : Bool) : Clean (plainStart restart) := by
  refine Fallible.uses_bind (clean_startPreflight restart) fun running => ?_
  refine Fallible.uses_bind ?_ fun _ => Fallible.uses_bind ?_ fun _ => clean_demand rfl
  · unfold plainStop
    split
    · exact clean_stopLocked false
    · trivial
  · unfold plainLimaStart
    split
    · exact clean_demand rfl
    · trivial

theorem clean_plainCommand (op : Operation) : Clean (plainCommand op) := by
  refine Fallible.uses_bind (clean_demand rfl) fun _ => ?_
  refine Fallible.uses_bind (clean_demand rfl) fun _ => ?_
  refine Fallible.uses_bind (clean_demand rfl) fun _ => ?_
  cases op with
  | start => exact Fallible.uses_bind (clean_plainStart false) fun _ => clean_demand rfl
  | stop force => exact Fallible.uses_bind (clean_stopLocked force) fun _ => clean_demand rfl
  | restart => exact Fallible.uses_bind (clean_plainStart true) fun _ => clean_demand rfl

end Skipped

theorem answered (request : Request) : Nonempty (Reply request) := by
  cases request <;> exact ⟨.error ""⟩

open Program in
/-- **Diagnostics change nothing.**  Without its diagnostic requests, every part of a run of a
command is one of the plain command; and the plain command has exactly the runs to an end that
commands have, to the same ends. -/
theorem diagnostics_silent {F : Type} (shown : F → List Char) (pid : Nat) (op : Operation) :
    (∀ transcript rest, Plays (command shown pid op).run transcript rest →
      ∃ rest', Plays (plainCommand op).run (loud Diagnostic transcript) rest') ∧
    ∀ transcript result, Plays (plainCommand op).run transcript (.done result) ↔
      ∃ longer, loud Diagnostic longer = transcript ∧
        Plays (command shown pid op).run longer (.done result) := by
  have erases : Program.Erases Diagnostic (Fallible.Same Eq) (command shown pid op).run
      (plainCommand op).run := command_erases shown pid op
  have clean := clean_plainCommand op
  refine ⟨fun transcript rest plays => ?_, fun transcript result => ⟨fun plays => ?_, ?_⟩⟩
  · obtain ⟨rest', plain, _⟩ := erases.plays clean plays
    exact ⟨rest', plain⟩
  · obtain ⟨longer, value, is, isSame, played⟩ :=
      erases.played clean (fun request _ => answered request) plays
    obtain rfl := isSame.eq
    exact ⟨longer, is, played⟩
  · rintro ⟨longer, rfl, plays⟩
    obtain ⟨value, isSame, plain⟩ := erases.result clean plays
    obtain rfl := isSame.eq
    exact plain

end Luhmen.Host.Lifecycle
