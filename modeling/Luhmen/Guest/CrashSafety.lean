/-
# Guest.CrashSafety -- a killed shutdown leaves the original or a backup of it

Runs of `shutdown` on a `Host`, any of whose requests can fail and any of which
can be the last thing a run does.  At every moment the files are in one of two
conditions:

* `Clean`: there is no backup and `daemon.json` is the original;
* `Backed`: the backup is the original and `daemon.json` is the original or its
  disabled version.

`Inv` is their disjunction, and each function of `Guest.Shutdown` has one triple
over it.  Most requests are `Quiet`: they leave the two files alone, keep the
daemon's agreement with its file, and do not wake a stopped Docker; a predicate
`Steady` under quiet moves is carried through them by `keeps_request`, and only
`rename`, `hard_link`, `remove_file` and `systemctl stop` are looked at one by one.

A clean state asks the daemon to agree with the file only if it did at the start
(`agreed`).
-/
import Luhmen.Guest.ShutdownRuns

namespace Luhmen.Guest.Shutdown

open Luhmen.Theory hiding fail
open Run

set_option autoImplicit false

/-! ## Conditions of a host -/

namespace Host

/-- The daemon, if there is one, has the setting of the file. -/
def Agrees (s : Host) : Prop :=
  ∀ d, s.service.daemon = some d → d.live = s.configured

/-- Docker is down and nothing is left that could start it. -/
def Stopped (s : Host) : Prop :=
  s.service = .stopped false ∧ s.socket = "inactive"

end Host

/-- `f` is `original` with live restore disabled: owner and mode are the same. -/
def Disabled (original f : File) : Prop :=
  ∃ data, disabledConfig original.data = .ok data ∧ f = { original with data := data }

section Conditions

variable (original : File) (agreed : Prop)

structure Clean (s : Host) : Prop where
  backup : s.files .backup = none
  config : s.files .config = some original
  agrees : agreed → s.Agrees

structure Backed (s : Host) : Prop where
  backup : s.files .backup = some original
  config : ∃ f, s.files .config = some f ∧ (f = original ∨ Disabled original f)

def Inv (s : Host) : Prop :=
  Clean original agreed s ∨ Backed original s

/-- The backup is there and `daemon.json` is the original again. -/
structure Restored (s : Host) : Prop where
  backup : s.files .backup = some original
  config : s.files .config = some original

end Conditions

theorem Restored.backed {original : File} {s : Host} (restored : Restored original s) :
    Backed original s :=
  ⟨restored.backup, original, restored.config, .inl rfl⟩

/-! ## Quiet moves -/

/-- Neither file changes, and agreement is kept. -/
structure Settled (s t : Host) : Prop where
  config : t.files .config = s.files .config
  backup : t.files .backup = s.files .backup
  agrees : s.Agrees → t.Agrees

/-- ... and nothing wakes a stopped Docker or closes its socket. -/
structure Quiet (s t : Host) : Prop extends Settled s t where
  stopped : s.Stopped → t.Stopped
  socket : t.socket = "inactive" → s.socket = "inactive"

/-- The moves in `move` keep `P`. -/
def Kept (move : Host → Host → Prop) (P : Host → Prop) : Prop :=
  ∀ s t, move s t → P s → P t

abbrev Steady := Kept Quiet

abbrev Lasting := Kept Settled

namespace Quiet

theorem refl (s : Host) : Quiet s s :=
  ⟨⟨rfl, rfl, id⟩, id, id⟩

theorem configured {s t : Host} (same : t.files .config = s.files .config) :
    t.configured = s.configured := by
  simp only [Host.configured, same]

/-- A host that differs in temporary files only. -/
theorem put_temporary (s : Host) (pid number : Nat) (file : Option File) :
    Quiet s (s.put (.temporary pid number) file) := by
  constructor
  · exact ⟨rfl, rfl, fun agrees => agrees⟩
  · exact fun stopped => stopped
  · exact fun inactive => inactive

/-- A daemon with the flag of the one before it, or of the file. -/
theorem service {s : Host} (service : Service) (result : String)
    (live : ∀ d, service.daemon = some d → d.live = s.configured ∨
      ∃ before, s.service.daemon = some before ∧ d.live = before.live)
    (up : ¬ s.Stopped) : Quiet s { s with service := service, result := result } := by
  constructor
  · refine ⟨rfl, rfl, fun agrees d running => ?_⟩
    rcases live d running with fresh | ⟨before, was, same⟩
    · exact fresh
    · exact same.trans (agrees before was)
  · exact fun stopped => absurd stopped up
  · exact fun inactive => inactive

end Quiet

theorem not_stopped_of_running {s : Host} {label : String} {busy} {daemon : Option Daemon}
    (running : s.service = .running label busy daemon) : ¬ s.Stopped := by
  rintro ⟨stopped, -⟩
  rw [running] at stopped
  exact Service.noConfusion stopped

/-- What happens to a host by itself is quiet. -/
theorem drift_quiet {s t : Host} (moves : Host.Drift s t) : Quiet s t := by
  cases moves with
  | crash label' busy' running =>
      exact .service _ _ (fun d none => by cases none) (not_stopped_of_running running)
  | giveUp failed result running =>
      exact .service _ _ (fun d none => by cases failed <;> cases none)
        (not_stopped_of_running running)
  | start label busy pid down activated =>
      refine .service _ _ (fun d fresh => ?_) ?_
      · cases fresh
        exact .inl rfl
      · rintro ⟨stopped, inactive⟩
        exact activated ⟨false, stopped⟩ inactive
  | reload again running asked =>
      refine .service _ _ (fun d fresh => ?_) (not_stopped_of_running running)
      cases fresh
      exact .inl rfl
  | relabel label' busy' running =>
      refine .service _ _ (fun d same => ?_) (not_stopped_of_running running)
      exact .inr ⟨d, by rw [running]; exact same, rfl⟩
  | socket socket open' still =>
      exact ⟨⟨rfl, rfl, id⟩, fun stopped => absurd stopped.2 open', fun closed => absurd closed still⟩

/-- Requests that are quiet whatever they reply. -/
def Request.Silent : Request → Prop
  | .rename _ _ | .stopUnits => False
  | .hardLink _ target => ∃ pid number, target = .temporary pid number
  | .createNew path | .chown path _ _ | .setPermissions path _ | .writeAll path _
  | .removeFile path => ∃ pid number, path = .temporary pid number
  | _ => True

theorem attempt_quiet {outcome : Except String Unit} {s t : Host} {done : Prop}
    (attempted : Host.Attempt outcome s t done) (quiet : done → Quiet s t) : Quiet s t := by
  rcases attempted with ⟨_, _, rfl⟩ | ⟨_, holds⟩
  · exact .refl t
  · exact quiet holds

theorem exec_quiet {honest : Prop} {request : Request} (silent : request.Silent) {s t : Host}
    {reply : Reply request} (performed : Host.exec honest request s reply t) : Quiet s t := by
  cases request with
  | exist | symlinkMetadata | read | showService | socketState | info =>
      obtain ⟨rfl, _⟩ := performed
      exact .refl t
  | syncAll | syncDirectory | polls | dockerShimsRemain =>
      cases performed
      exact .refl _
  | createNew path =>
      obtain ⟨pid, number, rfl⟩ := silent
      cases reply with
      | created =>
          obtain ⟨_, rfl⟩ := performed
          exact .put_temporary s pid number _
      | alreadyExists | failed =>
          cases performed
          exact .refl _
  | chown path uid gid =>
      obtain ⟨pid, number, rfl⟩ := silent
      refine attempt_quiet performed ?_
      rintro ⟨f, _, rfl⟩
      exact .put_temporary s pid number _
  | setPermissions path mode =>
      obtain ⟨pid, number, rfl⟩ := silent
      refine attempt_quiet performed ?_
      rintro ⟨f, _, rfl⟩
      exact .put_temporary s pid number _
  | writeAll path data =>
      obtain ⟨pid, number, rfl⟩ := silent
      obtain ⟨f, written, _, rfl, _⟩ := performed
      exact .put_temporary s pid number _
  | hardLink source target =>
      obtain ⟨pid, number, rfl⟩ := silent
      refine attempt_quiet performed ?_
      rintro ⟨_, f, _, rfl⟩
      exact .put_temporary s pid number _
  | removeFile path =>
      obtain ⟨pid, number, rfl⟩ := silent
      refine attempt_quiet performed ?_
      rintro ⟨_, rfl⟩
      exact .put_temporary s pid number _
  | hangup pid =>
      rcases performed with rfl | ⟨label, busy, d, running, _, rfl⟩
      · exact .refl t
      · refine .service _ _ (fun d' same => ?_) (not_stopped_of_running running)
        cases same
        exact .inr ⟨d, by rw [running]; rfl, rfl⟩
  | rename | stopUnits => exact silent.elim

/-! ## Steady predicates -/

section Kept

variable {move : Host → Host → Prop} {P Q : Host → Prop}

theorem Kept.and (first : Kept move P) (second : Kept move Q) : Kept move fun s => P s ∧ Q s :=
  fun s t moves ⟨p, q⟩ => ⟨first s t moves p, second s t moves q⟩

theorem Kept.or (first : Kept move P) (second : Kept move Q) : Kept move fun s => P s ∨ Q s :=
  fun s t moves => Or.imp (first s t moves) (second s t moves)

theorem Kept.imp (condition : Prop) (kept : Kept move P) : Kept move fun s => condition → P s :=
  fun s t moves holds given => kept s t moves (holds given)

theorem Kept.steady (lasting : Lasting P) : Steady P :=
  fun s t quiet => lasting s t quiet.toSettled

theorem Kept.stable (steady : Steady P) {honest : Prop} : (host honest).Stable P :=
  fun s t moves => steady s t (drift_quiet moves)

end Kept

theorem agrees_steady : Steady Host.Agrees :=
  fun _ _ quiet => quiet.agrees

theorem stopped_steady : Steady Host.Stopped :=
  fun _ _ quiet => quiet.stopped

theorem config_steady (file : Option File) : Steady fun s => s.files .config = file :=
  fun _ _ quiet same => quiet.config.trans same

section Conditions

variable {original : File} {agreed : Prop}

theorem clean_lasting : Lasting (Clean original agreed) :=
  fun _ _ settled clean => ⟨settled.backup.trans clean.backup, settled.config.trans clean.config,
    fun given => settled.agrees (clean.agrees given)⟩

theorem backed_lasting : Lasting (Backed original) := by
  rintro s t settled ⟨backup, f, config, which⟩
  exact ⟨settled.backup.trans backup, f, settled.config.trans config, which⟩

theorem restored_steady : Steady (Restored original) :=
  fun _ _ quiet restored => ⟨quiet.backup.trans restored.backup, quiet.config.trans restored.config⟩

theorem inv_lasting : Lasting (Inv original agreed) :=
  clean_lasting.or backed_lasting

theorem inv_steady : Steady (Inv original agreed) :=
  inv_lasting.steady

end Conditions

/-! ## Triples -/

section Triples

variable {honest : Prop} {original : File} {agreed : Prop} {α β : Type}

variable (honest original agreed) in
/-- The triples of this module: every request keeps `Inv`. -/
abbrev Spec (pre : Host → Prop) (block : Run α) (post : α → Host → Prop)
    (failing : Host → Prop) : Prop :=
  @System.Triple Requests (host honest) (Inv original agreed) Failure α pre block post failing

/-- The end of a block: `post` holds of its value, or `failing`. -/
abbrev Ended (post : α → Host → Prop) (failing : Host → Prop) :
    Except String α → Host → Prop :=
  @System.Ends Requests (host True) String α post failing

/-- A silent request keeps a steady predicate, and adds what its reply says. -/
theorem request_spec {P : Host → Prop} (steady : Steady P) (safe : ∀ s, P s → Inv original agreed s)
    (request : Request) (silent : request.Silent) {post : Reply request → Host → Prop}
    {failing : Host → Prop}
    (replies : ∀ s reply t, P s → Host.exec honest request s reply t → P t → post reply t) :
    Spec honest original agreed P (@Fallible.perform Failure Requests request) post failing := by
  refine System.Triple.perform steady.stable ?_
  intro s reply t holds performed
  have after : P t := steady s t (exec_quiet silent performed) holds
  exact ⟨safe t after, replies s reply t holds performed after⟩

theorem orFail_spec {outcome : Except String α} {post : α → Host → Prop} {failing : Host → Prop} :
    Spec honest original agreed (Ended post failing outcome) (orFail outcome) post failing := by
  cases outcome with
  | ok value => exact fun s holds => holds
  | error message => exact fun s holds => holds

/-- `?` behind a request. -/
theorem demand_spec {pre : Host → Prop} {block : Run (Except String α)} {middle : α → Host → Prop}
    {rest : α → Run β} {post : β → Host → Prop} {failing : Host → Prop}
    (first : Spec honest original agreed pre block (Ended middle failing) failing)
    (second : ∀ value, Spec honest original agreed (middle value) (rest value) post failing) :
    Spec honest original agreed pre (block >>= fun outcome => orFail outcome >>= rest) post
      failing :=
  first.bind fun _ => orFail_spec.bind second

theorem demand_last_spec {pre : Host → Prop} {block : Run (Except String α)}
    {post : α → Host → Prop} {failing : Host → Prop}
    (first : Spec honest original agreed pre block (Ended post failing) failing) :
    Spec honest original agreed pre (block >>= fun outcome => orFail outcome) post failing :=
  first.bind fun _ => orFail_spec

theorem attempt_spec {pre : Host → Prop} {block : Run α} {post : α → Host → Prop}
    {failing : Host → Prop} (spec : Spec honest original agreed pre block post failing) :
    Spec honest original agreed pre (attempt block) (Ended post failing) failing :=
  System.Triple.attempt spec fun _ _ holds => holds

/-- `?` behind a silent request that says nothing else. -/
theorem silent_spec {P : Host → Prop} (steady : Steady P) (safe : ∀ s, P s → Inv original agreed s)
    (request : Request) (silent : request.Silent) :
    Spec honest original agreed P (@Fallible.perform Failure Requests request) (fun _ => P) P :=
  request_spec steady safe request silent fun _ _ _ _ _ after => after

/-! ## Temporary files -/

/-- `P`, and a file at `path` that passes `test`. -/
def Holding (P : Host → Prop) (path : Path) (test : File → Prop) (s : Host) : Prop :=
  P s ∧ ∃ f, s.files path = some f ∧ test f

theorem drift_files {s t : Host} (moves : Host.Drift s t) : t.files = s.files := by
  cases moves <;> rfl

theorem holding_stable {P : Host → Prop} (steady : Steady P) (path : Path) (test : File → Prop) :
    (host honest).Stable (Holding P path test) := by
  rintro s t moves ⟨holds, f, found, passes⟩
  refine ⟨steady s t (drift_quiet moves) holds, f, ?_, passes⟩
  rw [drift_files moves]
  exact found

section Temporary

variable {P : Host → Prop} (steady : Steady P) (safe : ∀ s, P s → Inv original agreed s)
  {pid number : Nat}
include steady safe

/-- Requests that change the file at a temporary path, or fail. -/
theorem change_spec (request : Request) (silent : request.Silent)
    (outcome : Reply request → Except String Unit) {before after : File → Prop}
    (changes : ∀ s reply t f, s.files (.temporary pid number) = some f → before f →
      Host.exec honest request s reply t →
      outcome reply = .ok () → ∃ g, t.files (.temporary pid number) = some g ∧ after g) :
    Spec honest original agreed (Holding P (.temporary pid number) before)
      (@Fallible.perform Failure Requests request)
      (fun reply => Ended (fun _ => Holding P (.temporary pid number) after) P (outcome reply)) P := by
  refine System.Triple.perform (holding_stable steady _ _) ?_
  rintro s reply t ⟨holds, f, found, passes⟩ performed
  have kept : P t := steady s t (exec_quiet silent performed) holds
  refine ⟨safe t kept, ?_⟩
  cases result : outcome reply with
  | error message => exact kept
  | ok value => exact ⟨kept, changes s reply t f found passes performed result⟩

theorem createTemporary_spec (numbers : List Nat) :
    Spec honest original agreed P (createTemporary pid numbers)
      (fun path s => ∃ number, path = .temporary pid number ∧ Holding P path (fun _ => True) s)
      P := by
  induction numbers with
  | nil => exact System.Triple.throw fun s holds => holds
  | cons number rest ih =>
      have made : Spec honest original agreed P (createNew (.temporary pid number))
          (fun reply s => P s ∧
            (reply = .created → ∃ f, s.files (.temporary pid number) = some f)) P := by
        refine request_spec steady safe (.createNew _) ⟨pid, number, rfl⟩ ?_
        intro s reply t holds performed kept
        refine ⟨kept, fun created => ?_⟩
        subst created
        obtain ⟨_, rfl⟩ := performed
        exact ⟨_, s.put_self _ _⟩
      refine made.bind fun reply => ?_
      cases reply with
      | created =>
          refine System.Triple.pure ?_
          rintro s ⟨holds, found⟩
          obtain ⟨f, found⟩ := found rfl
          exact ⟨number, rfl, holds, f, found, trivial⟩
      | alreadyExists => exact ih.weaken (fun _ holds => holds.1) (fun _ _ h => h) fun _ h => h
      | failed message => exact System.Triple.throw fun s holds => holds.1

theorem fillTemporary_spec (data : Bytes) (metadata : Metadata) :
    Spec honest original agreed (Holding P (.temporary pid number) fun _ => True)
      (fillTemporary (.temporary pid number) data metadata)
      (fun _ => Holding P (.temporary pid number) fun f => f = filled data metadata) P := by
  have owned : Spec honest original agreed (Holding P (.temporary pid number) fun _ => True)
      (chown (.temporary pid number) metadata.uid metadata.gid)
      (Ended (fun _ => Holding P (.temporary pid number) fun f =>
        f.uid = metadata.uid ∧ f.gid = metadata.gid) P) P := by
    refine change_spec steady safe (.chown _ _ _) ⟨pid, number, rfl⟩ id ?_
    rintro s reply t f found - performed ok
    rcases performed with ⟨_, failed, _⟩ | ⟨_, f', _, rfl⟩
    · exact absurd (failed.symm.trans ok) (by simp)
    · exact ⟨_, s.put_self _ _, rfl, rfl⟩
  have permitted : Spec honest original agreed (Holding P (.temporary pid number) fun f =>
        f.uid = metadata.uid ∧ f.gid = metadata.gid)
      (setPermissions (.temporary pid number) (metadata.mode &&& 0o7777))
      (Ended (fun _ => Holding P (.temporary pid number) fun f =>
        { f with data := data } = filled data metadata) P) P := by
    refine change_spec steady safe (.setPermissions _ _) ⟨pid, number, rfl⟩ id ?_
    rintro s reply t f found ⟨uid, gid⟩ performed ok
    rcases performed with ⟨_, failed, _⟩ | ⟨_, f', same, rfl⟩
    · exact absurd (failed.symm.trans ok) (by simp)
    · cases found.symm.trans same
      exact ⟨_, s.put_self _ _, by simp [filled, uid, gid]⟩
  have written : Spec honest original agreed (Holding P (.temporary pid number) fun f =>
        { f with data := data } = filled data metadata)
      (writeAll (.temporary pid number) data)
      (Ended (fun _ => Holding P (.temporary pid number) fun f => f = filled data metadata) P)
      P := by
    refine change_spec steady safe (.writeAll _ _) ⟨pid, number, rfl⟩ id ?_
    rintro s reply t f found whole performed ok
    obtain ⟨f', contents, same, rfl, complete⟩ := performed
    cases found.symm.trans same
    rw [complete ok]
    exact ⟨_, s.put_self _ _, whole⟩
  have synced : Spec honest original agreed (Holding P (.temporary pid number) fun f =>
        f = filled data metadata)
      (syncAll (.temporary pid number))
      (Ended (fun _ => Holding P (.temporary pid number) fun f => f = filled data metadata) P)
      P := by
    refine change_spec steady safe (.syncAll _) trivial id ?_
    rintro s reply t f found whole performed -
    cases performed
    exact ⟨f, found, whole⟩
  exact demand_spec owned fun _ => demand_spec permitted fun _ => demand_spec written fun _ =>
    demand_last_spec synced

/-- `write_temporary` leaves the data with the owner and mode it was given. -/
theorem writeTemporary_spec (data : Bytes) (metadata : Metadata) :
    Spec honest original agreed P (writeTemporary pid data metadata)
      (fun path s => ∃ number, path = .temporary pid number ∧
        Holding P path (fun f => f = filled data metadata) s) P := by
  refine (createTemporary_spec steady safe _).bind fun path => ?_
  have named : ∀ s, (∃ number, path = .temporary pid number ∧ Holding P path (fun _ => True) s) →
      ∃ number, path = .temporary pid number := fun s ⟨number, is, _⟩ => ⟨number, is⟩
  refine System.Triple.assume named ?_
  rintro ⟨number, rfl⟩
  refine System.Triple.weaken (fun s ⟨_, _, holding⟩ => holding) ?_ (fun _ _ h => h) fun _ h => h
  refine (attempt_spec (fillTemporary_spec steady safe data metadata)).bind fun outcome => ?_
  cases outcome with
  | ok value => exact System.Triple.pure fun s holding => ⟨number, rfl, holding⟩
  | error message =>
      refine (silent_spec steady safe (.removeFile _) ⟨pid, number, rfl⟩).bind fun _ => ?_
      exact System.Triple.throw fun s holds => holds

end Temporary

/-! ## Reading and replacing -/

theorem ended_self {P : Host → Prop} {outcome : Except String α} {s : Host} (holds : P s) :
    Ended (fun _ => P) P outcome s := by
  cases outcome with
  | ok value => exact holds
  | error message => exact holds

theorem ended_steady {post : α → Host → Prop} {failing : Host → Prop}
    (first : ∀ value, Steady (post value)) (second : Steady failing) (outcome : Except String α) :
    Steady (Ended post failing outcome) := by
  cases outcome with
  | ok value => exact first value
  | error message => exact second

theorem ended_safe {post : α → Host → Prop} {failing : Host → Prop}
    (first : ∀ value s, post value s → Inv original agreed s)
    (second : ∀ s, failing s → Inv original agreed s) {outcome : Except String α} {s : Host}
    (ended : Ended post failing outcome s) : Inv original agreed s := by
  cases outcome with
  | ok value => exact first value s ended
  | error message => exact second s ended

/-- `?` behind a block that keeps `P` either way. -/
theorem kept_spec {P : Host → Prop} {block : Run (Except String α)}
    (spec : Spec honest original agreed P block (fun _ => P) P) :
    Spec honest original agreed P block (Ended (fun _ => P) P) P :=
  spec.weaken (fun _ h => h) (fun _ _ holds => ended_self holds) fun _ h => h

theorem syncDirectory_spec {P : Host → Prop} (steady : Steady P)
    (safe : ∀ s, P s → Inv original agreed s) :
    Spec honest original agreed P syncDirectory (Ended (fun _ => P) P) P :=
  kept_spec (silent_spec steady safe .syncDirectory trivial)

theorem readFile_spec {P : Host → Prop} (stable : (host honest).Stable P)
    (safe : ∀ s, P s → Inv original agreed s) (path : Path) :
    Spec honest original agreed P (readFile path)
      (fun content => Holding P path fun f => content = (f.data, f.metadata)) P := by
  have reading : Spec honest original agreed P (Run.read path)
      (Ended (fun content => Holding P path fun f => content = (f.data, f.metadata)) P) P := by
    refine System.Triple.perform stable ?_
    rintro s reply t holds ⟨rfl, found⟩
    refine ⟨safe t holds, ?_⟩
    cases reply with
    | ok content =>
        obtain ⟨f, there, is⟩ := found content rfl
        exact ⟨holds, f, there, is⟩
    | error message => exact holds
  refine demand_spec reading ?_
  rintro ⟨data, metadata⟩
  dsimp only
  split
  · exact System.Triple.throw fun s holding => holding.1
  · exact System.Triple.pure fun s holding => holding

theorem discard_spec {P : Host → Prop} (steady : Steady P)
    (safe : ∀ s, P s → Inv original agreed s) (pid number : Nat) :
    Spec honest original agreed P (discard (.temporary pid number)) (fun _ => P) P := by
  refine (silent_spec steady safe (.exist _) trivial).bind fun there => ?_
  cases there with
  | true =>
      refine (silent_spec steady safe (.removeFile _) ⟨pid, number, rfl⟩).bind fun _ => ?_
      exact System.Triple.pure fun s holds => holds
  | false => exact System.Triple.pure fun s holds => holds

/-- A backed state; once `halted`, with Docker stopped. -/
def Resting (original : File) (halted : Prop) (s : Host) : Prop :=
  Backed original s ∧ (halted → s.Stopped)

/-- ... where `daemon.json` is `f`. -/
def Placed (original : File) (halted : Prop) (f : File) (s : Host) : Prop :=
  Resting original halted s ∧ s.files .config = some f

section Replace

variable {halted : Prop}

theorem resting_steady : Steady (Resting original halted) :=
  backed_lasting.steady.and (stopped_steady.imp halted)

theorem resting_safe (s : Host) (resting : Resting original halted s) : Inv original agreed s :=
  .inr resting.1

theorem placed_steady (f : File) : Steady (Placed original halted f) :=
  resting_steady.and (config_steady (some f))

theorem placed_safe {f : File} (s : Host) (placed : Placed original halted f s) :
    Inv original agreed s :=
  resting_safe s placed.1

/-- The rename: a backed state takes the original or its disabled version. -/
theorem rename_resting {pid number : Nat} {f : File} (which : f = original ∨ Disabled original f)
    {s : Host} (resting : Resting original halted s) :
    Placed original halted f ((s.put .config (some f)).put (.temporary pid number) none) := by
  obtain ⟨⟨backup, _⟩, stopped⟩ := resting
  exact ⟨⟨⟨backup, f, rfl, which⟩, stopped⟩, rfl⟩

theorem publish_spec {pid number : Nat} {f : File} (which : f = original ∨ Disabled original f)
    (expected : Bytes) :
    Spec honest original agreed (Holding (Resting original halted) (.temporary pid number) (· = f))
      (publish (.temporary pid number) .config expected) (fun _ => Placed original halted f)
      (Resting original halted) := by
  have moved : Spec honest original agreed
      (Holding (Resting original halted) (.temporary pid number) (· = f))
      (rename (.temporary pid number) .config)
      (Ended (fun _ => Placed original halted f) (Resting original halted))
      (Resting original halted) := by
    refine System.Triple.perform (holding_stable resting_steady _ _) ?_
    rintro s reply t ⟨resting, f', found, rfl⟩ performed
    rcases performed with ⟨message, rfl, rfl⟩ | ⟨rfl, f'', same, rfl⟩
    · exact ⟨resting_safe t resting, resting⟩
    · cases found.symm.trans same
      have placed := @rename_resting _ _ pid number _ which _ resting
      exact ⟨placed_safe _ placed, placed⟩
  refine System.Triple.bind ((readFile_spec (holding_stable resting_steady _ _)
    (fun s holding => resting_safe s holding.1) .config).weaken (fun _ h => h) (fun _ _ h => h)
    fun s holding => holding.1) ?_
  rintro ⟨current, metadata⟩
  dsimp only
  split
  · exact System.Triple.throw fun s holding => holding.1.1
  · refine System.Triple.weaken (fun s holding => holding.1) ?_ (fun _ _ h => h) fun _ h => h
    refine demand_spec moved fun _ => ?_
    refine (demand_last_spec (syncDirectory_spec (placed_steady f) placed_safe)).weaken (fun _ h => h)
      (fun _ _ h => h) ?_
    exact fun s placed => placed.1

theorem replaceFile_spec {pid : Nat} {data : Bytes} {metadata : Metadata}
    (which : filled data metadata = original ∨ Disabled original (filled data metadata))
    (expected : Bytes) :
    Spec honest original agreed (Resting original halted)
      (replaceFile pid .config data metadata expected)
      (fun _ => Placed original halted (filled data metadata)) (Resting original halted) := by
  refine (writeTemporary_spec resting_steady resting_safe data metadata).bind fun path => ?_
  rintro s ⟨number, rfl, holding⟩
  revert s
  refine (attempt_spec (publish_spec which expected)).bind fun outcome => ?_
  have kept : Steady (Ended (fun _ : Unit => Placed original halted (filled data metadata))
      (Resting original halted) outcome) :=
    ended_steady (fun _ => placed_steady _) resting_steady outcome
  refine System.Triple.bind ((discard_spec kept
    (fun s ended => ended_safe (fun _ => placed_safe) resting_safe ended) pid number).weaken
    (fun _ h => h) (fun _ _ h => h) ?_) fun _ => orFail_spec
  intro s ended
  cases outcome with
  | ok value => exact ended.1
  | error message => exact ended

/-- A hard link that succeeds found no backup, so the state was clean. -/
theorem link_spec {pid number : Nat} {f : File} :
    Spec honest original agreed
      (Holding (fun s => Inv original agreed s ∧ s.files .config = some f) (.temporary pid number)
        (· = f))
      (link (.temporary pid number) .backup)
      (fun _ s => Restored original s ∧ f = original) (Inv original agreed) := by
  have steady : Steady fun s => Inv original agreed s ∧ s.files .config = some f :=
    inv_steady.and (config_steady _)
  have saved : Steady fun s => Restored original s ∧ f = original :=
    restored_steady.and fun _ _ _ same => same
  have linked : Spec honest original agreed
      (Holding (fun s => Inv original agreed s ∧ s.files .config = some f) (.temporary pid number)
        (· = f))
      (hardLink (.temporary pid number) .backup)
      (Ended (fun _ s => Restored original s ∧ f = original) (Inv original agreed))
      (Inv original agreed) := by
    refine System.Triple.perform (holding_stable steady _ _) ?_
    rintro s reply t ⟨⟨inv, config⟩, f', found, rfl⟩ performed
    rcases performed with ⟨message, rfl, rfl⟩ | ⟨rfl, free, f'', same, rfl⟩
    · exact ⟨inv, inv⟩
    · cases found.symm.trans same
      rcases inv with clean | backed
      · cases config.symm.trans clean.config
        have restored : Restored original (s.put .backup (some original)) := ⟨rfl, config⟩
        exact ⟨.inr restored.backed, restored, rfl⟩
      · exact absurd (free.symm.trans backed.backup) (by simp)
  refine demand_spec linked fun _ => ?_
  refine (demand_last_spec (syncDirectory_spec saved fun s ⟨restored, _⟩ => .inr restored.backed)).weaken
    (fun _ h => h) (fun _ _ h => h) ?_
  exact fun s ⟨restored, _⟩ => .inr restored.backed

theorem saveBackup_spec {pid : Nat} {f : File} :
    Spec honest original agreed (fun s => Inv original agreed s ∧ s.files .config = some f)
      (saveBackup pid .backup f.data f.metadata)
      (fun _ s => Restored original s ∧ f = original) (Inv original agreed) := by
  have steady : Steady fun s => Inv original agreed s ∧ s.files .config = some f :=
    inv_steady.and (config_steady _)
  refine System.Triple.bind ((writeTemporary_spec steady (fun _ holds => holds.1) f.data
    f.metadata).weaken (fun _ h => h) (fun _ _ h => h) fun _ holds => holds.1) fun path => ?_
  rintro s ⟨number, rfl, holding⟩
  rw [filled_metadata] at holding
  revert s
  refine (attempt_spec link_spec).bind fun outcome => ?_
  have saved : Steady fun s => Restored original s ∧ f = original :=
    restored_steady.and fun _ _ _ same => same
  have kept : Steady (Ended (fun (_ : Unit) s => Restored original s ∧ f = original)
      (Inv original agreed) outcome) :=
    ended_steady (fun _ => saved) inv_steady outcome
  have safe : ∀ s, Ended (fun (_ : Unit) s => Restored original s ∧ f = original)
      (Inv original agreed) outcome s → Inv original agreed s := fun s ended =>
    ended_safe (fun _ s saved => .inr saved.1.backed) (fun _ inv => inv) ended
  refine System.Triple.bind ((silent_spec kept safe (.removeFile _) ⟨pid, number, rfl⟩).weaken
    (fun _ h => h) (fun _ _ h => h) safe) fun _ => orFail_spec

/-! ## The daemon -/

/-- What a confirmed setting is worth: the daemon agrees with a file that asks for it. -/
def Confirmed (live : Bool) (s : Host) : Prop :=
  s.configured = live → s.Agrees

/-- Docker is down for good as soon as its socket is closed. -/
def Halting (s : Host) : Prop :=
  s.socket = "inactive" → s.Stopped

theorem halting_steady : Steady Halting :=
  fun _ _ quiet halting inactive => quiet.stopped (halting (quiet.socket inactive))

/-- What the state `systemctl` showed is worth: a unit that is `inactive` or `failed` has no
daemon that could disagree, and only its socket can start it. -/
structure Shown (state : List (String × String)) (s : Host) : Prop where
  down : state.lookup "ActiveState" = some "inactive" ∨
    state.lookup "ActiveState" = some "failed" → s.Agrees
  halting : state.lookup "ActiveState" = some "inactive" → Halting s

theorem shown_steady (state : List (String × String)) : Steady (Shown state) :=
  fun s t quiet shown => ⟨fun down => quiet.agrees (shown.down down),
    fun inactive => halting_steady s t quiet (shown.halting inactive)⟩

theorem shown_self (s : Host) : Shown s.shown s := by
  have label : s.shown.lookup "ActiveState" = some s.service.label := rfl
  constructor
  · intro down d running
    rw [label] at down
    cases service : s.service with
    | stopped failed => rw [service] at running; cases failed <;> cases running
    | running label busy daemon =>
        rw [service] at down
        rcases down with inactive | failed
        · exact absurd (Option.some.inj inactive) busy.1
        · exact absurd (Option.some.inj failed) busy.2
  · intro inactive closed
    refine ⟨?_, closed⟩
    rw [label] at inactive
    cases service : s.service with
    | stopped failed =>
        rw [service] at inactive
        cases failed with
        | false => rfl
        | true => simp [Service.label] at inactive
    | running label busy daemon =>
        rw [service] at inactive
        exact absurd (Option.some.inj inactive) busy.1

section Daemon

variable {P : Host → Prop} (steady : Steady P) (safe : ∀ s, P s → Inv original agreed s)
include steady safe

theorem liveRestore_spec :
    Spec honest original agreed P liveRestore (fun live s => P s ∧ Confirmed live s) P := by
  have asked : Spec honest original agreed P info
      (Ended (fun stream s => P s ∧ ∀ live, Guest.liveRestore stream = .ok live → Confirmed live s)
        P) P := by
    refine request_spec steady safe .info trivial ?_
    rintro s reply t - ⟨rfl, tells⟩ kept
    cases reply with
    | error message => exact kept
    | ok stream =>
        refine ⟨kept, fun live read same d running => ?_⟩
        obtain ⟨d', there, flag⟩ := tells stream live rfl read
        cases running.symm.trans there
        exact flag.trans same.symm
  refine demand_spec asked fun stream => System.Triple.ofExcept ?_ fun s holds => holds.1
  exact fun live read s holds => ⟨holds.1, holds.2 live read⟩

theorem confirm_spec (expected : Bool) (left : Nat) :
    Spec honest original agreed P (confirm expected left)
      (fun _ s => P s ∧ Confirmed expected s) P := by
  have polled : Spec honest original agreed P (attempt liveRestore)
      (fun outcome s => P s ∧ (outcome = .ok expected → Confirmed expected s)) P := by
    refine (attempt_spec (liveRestore_spec steady safe)).weaken (fun _ h => h) ?_ fun _ h => h
    intro outcome s ended
    cases outcome with
    | ok live => exact ⟨ended.1, fun is => by cases is; exact ended.2⟩
    | error message => exact ⟨ended, fun is => by cases is⟩
  induction left with
  | zero =>
      refine polled.bind fun outcome => ?_
      split
      · rename_i is
        exact System.Triple.pure fun s holds => ⟨holds.1, holds.2 is⟩
      · exact System.Triple.throw fun s holds => holds.1
  | succ left ih =>
      refine polled.bind fun outcome => ?_
      split
      · rename_i is
        exact System.Triple.pure fun s holds => ⟨holds.1, holds.2 is⟩
      · exact ih.weaken (fun _ holds => holds.1) (fun _ _ h => h) fun _ h => h

theorem serviceState_spec :
    Spec honest original agreed P serviceState (fun state s => P s ∧ Shown state s) P := by
  refine demand_last_spec (request_spec steady safe .showService trivial ?_)
  rintro s reply t - ⟨rfl, tells⟩ kept
  cases reply with
  | error message => exact kept
  | ok state =>
      rw [tells state rfl]
      exact ⟨kept, shown_self t⟩

theorem reloadConfig_spec (expected : Bool) :
    Spec honest original agreed P (reloadConfig expected)
      (fun _ s => P s ∧ Confirmed expected s) P := by
  refine (serviceState_spec steady safe).bind fun state => ?_
  refine System.Triple.weaken (fun s holds => holds.1) ?_ (fun _ _ h => h) fun _ h => h
  dsimp only
  split
  · exact System.Triple.throw fun s holds => holds
  · refine demand_spec (kept_spec (silent_spec steady safe (.hangup _) trivial)) fun _ => ?_
    exact (silent_spec steady safe .polls trivial).bind fun left =>
      confirm_spec steady safe expected left

/-- `restore_runtime` returns only once no daemon disagrees with the original. -/
theorem restoreRuntime_spec (config : ∀ s, P s → s.files .config = some original) :
    Spec honest original agreed P (restoreRuntime original.data) (fun _ s => P s ∧ s.Agrees) P := by
  have setting : ∀ s field, P s → booleanField original.data liveRestoreKey = .ok field →
      s.configured = field.getD false := by
    intro s field holds read
    simp only [Host.configured, config s holds, Host.setting, read]
    cases field with
    | none => rfl
    | some live => cases live <;> rfl
  refine (serviceState_spec steady safe).bind fun state => ?_
  split
  · refine System.Triple.weaken (fun s holds => holds.1) ?_ (fun _ _ h => h) fun _ h => h
    have reading : Spec honest original agreed P
        (Fallible.ofExcept (booleanField original.data liveRestoreKey))
        (fun field s => P s ∧ s.configured = field.getD false) P :=
      System.Triple.ofExcept (fun field read s holds => ⟨holds, setting s field holds read⟩)
        fun s holds => holds
    refine reading.bind fun field s holds => ?_
    revert s
    refine System.Triple.weaken (fun s holds => holds) ((reloadConfig_spec
      (steady.and fun s t quiet same => (Quiet.configured quiet.config).trans same)
      (fun s holds => safe s holds.1) (field.getD false))) ?_ fun s holds => holds.1
    exact fun _ s ⟨⟨holds, same⟩, confirmed⟩ => ⟨holds, confirmed same⟩
  · split
    · rename_i down
      exact System.Triple.pure fun s holds => ⟨holds.1, holds.2.down down.1⟩
    · exact System.Triple.throw fun s holds => holds.1

end Daemon

/-! ## Putting the configuration back -/

theorem restoreFile_spec {pid : Nat} {temporary : Bytes}
    (disabled : disabledConfig original.data = .ok temporary) :
    Spec honest original agreed (Resting original halted)
      (restoreFile pid .config original.data original.metadata temporary)
      (fun _ => Placed original halted original) (Resting original halted) := by
  refine (readFile_spec resting_steady.stable resting_safe .config).bind ?_
  rintro ⟨current, metadata⟩
  dsimp only
  split
  · refine System.Triple.weaken (fun s holding => holding.1) ?_ (fun _ _ h => h) fun _ h => h
    have replaced := @replaceFile_spec honest original agreed halted pid original.data
      original.metadata (.inl (filled_metadata _ _)) temporary
    rw [filled_metadata] at replaced
    exact replaced
  · rename_i changed
    split
    · exact System.Triple.throw fun s holding => holding.1
    · rename_i same
      refine System.Triple.pure ?_
      -- The bytes are the original's, and a disabled file would have had the temporary ones.
      rintro s ⟨resting, f, found, is⟩
      obtain ⟨⟨backup, f', config, which⟩, stopped⟩ := id resting
      cases found.symm.trans config
      refine ⟨resting, ?_⟩
      rcases which with rfl | ⟨data, lowered, rfl⟩
      · exact found
      · cases disabled.symm.trans lowered
        exact absurd (congrArg Prod.fst is) changed

theorem removeBackup_spec :
    Spec honest original agreed (fun s => Placed original halted original s ∧ s.Agrees) removeBackup
      (fun _ s => Clean original agreed s ∧ (halted → s.Stopped)) (Inv original agreed) := by
  have steady : Steady fun s => Placed original halted original s ∧ s.Agrees :=
    (placed_steady original).and agrees_steady
  have cleaned : Steady fun s => Clean original agreed s ∧ (halted → s.Stopped) :=
    clean_lasting.steady.and (stopped_steady.imp halted)
  have removed : Spec honest original agreed
      (fun s => Placed original halted original s ∧ s.Agrees) (removeFile .backup)
      (Ended (fun _ s => Clean original agreed s ∧ (halted → s.Stopped)) (Inv original agreed))
      (Inv original agreed) := by
    refine System.Triple.perform steady.stable ?_
    rintro s reply t ⟨placed, agrees⟩ performed
    rcases performed with ⟨message, rfl, rfl⟩ | ⟨rfl, _, rfl⟩
    · exact ⟨placed_safe t placed, placed_safe t placed⟩
    · have clean : Clean original agreed (s.put .backup none) := ⟨rfl, placed.2, fun _ => agrees⟩
      exact ⟨.inl clean, clean, placed.1.2⟩
  refine demand_spec removed fun _ => ?_
  exact (demand_last_spec (syncDirectory_spec cleaned fun s holds => .inl holds.1)).weaken
    (fun _ h => h) (fun _ _ h => h) fun s holds => .inl holds.1

theorem recoverFrom_spec {pid : Nat} :
    Spec honest original agreed (Backed original) (recoverFrom pid original.data original.metadata)
      (fun _ => Clean original agreed) (Inv original agreed) := by
  have reading : Spec honest original agreed (Backed original)
      (Fallible.ofExcept (disabledConfig original.data))
      (fun temporary s => disabledConfig original.data = .ok temporary ∧ Resting original False s)
      (Inv original agreed) :=
    System.Triple.ofExcept (fun temporary is s backed => ⟨is, backed, False.elim⟩) fun _ => .inr
  refine reading.bind fun temporary => ?_
  refine System.Triple.assume (fun s holds => holds.1) fun disabled => ?_
  refine System.Triple.weaken (fun s holds => holds.2) ?_ (fun _ _ h => h) fun _ h => h
  refine System.Triple.bind ((restoreFile_spec disabled).weaken (fun _ h => h) (fun _ _ h => h)
    resting_safe) fun _ => ?_
  refine System.Triple.bind ((restoreRuntime_spec (placed_steady original) placed_safe
    fun s placed => placed.2).weaken (fun _ h => h) (fun _ _ h => h) placed_safe) fun _ => ?_
  exact removeBackup_spec.weaken (fun _ h => h) (fun _ s holds => holds.1) fun _ h => h

end Replace

/-- A missing backup is only as sure as the `lstat` that missed it. -/
theorem backupPresent_spec :
    Spec honest original agreed (Inv original agreed) backupPresent
      (fun present s => Inv original agreed s ∧ (present = true → Backed original s) ∧
        (present = false → honest → Clean original agreed s)) (Inv original agreed) := by
  have there : ∀ s, Inv original agreed s → s.files .backup ≠ none → Backed original s := by
    rintro s (clean | backed) found
    · exact absurd clean.backup found
    · exact backed
  have linked : Spec honest original agreed (Inv original agreed) (exist .backup)
      (fun present s => Inv original agreed s ∧ (present = true → Backed original s))
      (Inv original agreed) := by
    refine request_spec inv_steady (fun _ h => h) (.exist _) trivial ?_
    rintro s reply t - ⟨rfl, found⟩ kept
    exact ⟨kept, fun present => there t kept (found present)⟩
  refine linked.bind fun present => ?_
  cases present with
  | true => exact System.Triple.pure fun s holds => ⟨holds.1, fun _ => holds.2 rfl, by simp⟩
  | false =>
      refine System.Triple.weaken (fun s holds => holds.1) ?_ (fun _ _ h => h) fun _ h => h
      refine request_spec inv_steady (fun _ h => h) (.symlinkMetadata _) trivial ?_
      rintro s reply t - ⟨rfl, found, missed⟩ kept
      refine ⟨kept, fun present => there t kept (found present), fun absent honestly => ?_⟩
      rcases kept with clean | backed
      · exact clean
      · exact absurd (backed.backup.symm.trans (missed honestly absent)) (by simp)

theorem recoverBackup_spec (pid : Nat) :
    Spec honest original agreed (Inv original agreed) (recoverBackup pid)
      (fun _ s => Inv original agreed s ∧ (honest → Clean original agreed s))
      (Inv original agreed) := by
  refine backupPresent_spec.bind fun present => ?_
  cases present with
  | false => exact System.Triple.pure fun s holds => ⟨holds.1, holds.2.2 rfl⟩
  | true =>
      refine System.Triple.weaken (fun s holds => holds.2.1 rfl) ?_ (fun _ _ h => h) fun _ h => h
      refine System.Triple.bind ((readFile_spec backed_lasting.steady.stable (fun _ => .inr)
        .backup).weaken (fun _ h => h) (fun _ _ h => h) fun _ => .inr) ?_
      rintro ⟨data, metadata⟩ s ⟨backed, f, found, is⟩
      cases found.symm.trans backed.backup
      cases is
      exact recoverFrom_spec.weaken (fun _ h => h) (fun _ s clean => ⟨.inl clean, fun _ => clean⟩)
        (fun _ h => h) s backed

/-! ## `shutdown` -/

/-- What has to be put back is the original, and it is backed up. -/
def Pending (original : File) (s : Host) (r : Restoration) : Prop :=
  Backed original s ∧ r.original = original.data ∧ r.metadata = original.metadata ∧
    disabledConfig original.data = .ok r.temporary

/-- Where a run stands behind `recover_backup`. -/
def Recovered (honest : Prop) (original : File) (agreed : Prop) (s : Host) : Prop :=
  Inv original agreed s ∧ (honest → Clean original agreed s)

theorem recovered_lasting : Lasting (Recovered honest original agreed) :=
  inv_lasting.and (clean_lasting.imp honest)

theorem prepare_spec (pid : Nat) (active : Bool) :
    Spec honest original agreed (Recovered honest original agreed) (prepare pid active)
      (fun restoration s => match restoration with
        | none => Recovered honest original agreed s
        | some r => Pending original s r) (Inv original agreed) := by
  cases active with
  | false => exact System.Triple.pure fun s recovered => recovered
  | true =>
      have steady : Steady (Recovered honest original agreed) := recovered_lasting.steady
      refine System.Triple.bind ((readFile_spec steady.stable (fun s recovered => recovered.1)
        .config).weaken (fun _ h => h) (fun _ _ h => h) fun s recovered => recovered.1) ?_
      rintro ⟨data, metadata⟩ s ⟨recovered, f, found, is⟩
      cases is
      have here : Recovered honest original agreed s ∧ s.files .config = some f := ⟨recovered, found⟩
      clear recovered found
      revert s
      have kept : Steady fun s => Recovered honest original agreed s ∧ s.files .config = some f :=
        steady.and (config_steady _)
      refine System.Triple.bind (System.Triple.ofExcept (fun temporary is s holds => And.intro is holds)
        fun s holds => holds.1.1) fun temporary => ?_
      refine System.Triple.assume (fun s holds => holds.1) fun disabled => ?_
      refine System.Triple.weaken (fun s holds => holds.2) ?_ (fun _ _ h => h) fun _ h => h
      refine System.Triple.bind ((liveRestore_spec kept fun s holds => holds.1.1).weaken
        (fun _ h => h) (fun _ _ h => h) fun s holds => holds.1.1) fun live => ?_
      cases live with
      | false => exact System.Triple.pure fun s holds => holds.1.1
      | true =>
          refine System.Triple.bind (saveBackup_spec.weaken
            (fun s holds => ⟨holds.1.1.1, holds.1.2⟩) (fun _ _ h => h) fun _ h => h) fun _ => ?_
          refine System.Triple.assume (fun s holds => holds.2) ?_
          rintro rfl
          have lowered : Disabled f (filled temporary f.metadata) :=
            ⟨temporary, disabled, filled_metadata _ _⟩
          refine System.Triple.bind (System.Triple.weaken
            (fun s holds => ⟨holds.1.backed, False.elim⟩)
            (replaceFile_spec (.inr lowered) f.data) (fun _ _ h => h) resting_safe) fun _ => ?_
          exact System.Triple.pure fun s placed => ⟨placed.1.1, rfl, rfl, disabled⟩

section Proceed

variable {P : Host → Prop} (lasting : Lasting P) (safe : ∀ s, P s → Inv original agreed s)
include lasting safe

theorem stopDocker_spec (active : Bool) :
    Spec honest original agreed P (stopDocker active) (fun _ s => P s ∧ s.Stopped) P := by
  have steady : Steady P := lasting.steady
  have units : Spec honest original agreed P stopUnits (fun _ => P) P := by
    refine System.Triple.perform steady.stable ?_
    rintro s reply t holds ⟨files, service⟩
    have settled : Settled s t := by
      refine ⟨congrFun files _, congrFun files _, fun agrees d running => ?_⟩
      have same : t.configured = s.configured := Quiet.configured (congrFun files _)
      rcases service with kept | gone
      · rw [same]
        exact agrees d (kept ▸ running)
      · exact absurd (gone.symm.trans running) (by simp)
    exact ⟨safe t (lasting s t settled holds), lasting s t settled holds⟩
  have closed : ∀ state, Spec honest original agreed (fun s => P s ∧ Shown state s) socketState
      (Ended (fun socket s => P s ∧ (socket = "inactive" →
        state.lookup "ActiveState" = some "inactive" → s.Stopped)) P) P := by
    intro state
    refine System.Triple.weaken (fun _ h => h) (request_spec (steady.and (shown_steady state))
      (fun s holds => safe s holds.1) .socketState trivial ?_) (fun _ _ h => h) fun _ h => h
    rintro s reply t - ⟨rfl, tells⟩ kept
    cases reply with
    | error message => exact kept.1
    | ok socket =>
        refine ⟨kept.1, fun inactive down => kept.2.halting down ?_⟩
        exact (tells socket rfl).symm.trans inactive
  refine demand_spec (kept_spec units) fun _ => ?_
  refine (serviceState_spec steady safe).bind fun state => ?_
  refine demand_spec (closed state) fun socket => ?_
  split
  · exact System.Triple.throw fun s holds => holds.1
  · rename_i both
    simp only [ne_eq, not_or, not_not] at both
    split
    · exact System.Triple.throw fun s holds => holds.1
    · refine System.Triple.bind ((silent_spec (steady.and stopped_steady)
        (fun s holds => safe s holds.1) .dockerShimsRemain trivial).weaken
        (fun s holds => ⟨holds.1, holds.2 both.2 both.1⟩) (fun _ _ h => h)
        fun s holds => holds.1) fun remain => ?_
      cases remain with
      | true => exact System.Triple.throw fun s holds => holds.1
      | false => exact System.Triple.pure fun s holds => holds

theorem proceed_spec {pid : Nat} {restoration : Option Restoration}
    (reloads : Spec honest original agreed P (reloadDisabled pid restoration) (fun _ => P) P)
    (active : Bool) (state : List (String × String)) :
    Spec honest original agreed P (proceed pid active state restoration)
      (fun _ s => P s ∧ s.Stopped) P := by
  have steady : Steady P := lasting.steady
  refine System.Triple.bind ?_ fun _ => stopDocker_spec lasting safe active
  cases active with
  | false => exact System.Triple.pure fun s holds => holds
  | true =>
      have changed : Spec honest original agreed P (dockerChanged state) (fun _ => P) P := by
        refine (serviceState_spec steady safe).bind fun now => ?_
        split
        · exact System.Triple.pure fun s holds => holds.1
        · exact (liveRestore_spec steady safe).weaken (fun s holds => holds.1)
            (fun _ s holds => holds.1) fun _ h => h
      refine reloads.bind fun _ => changed.bind fun unsettled => ?_
      cases unsettled with
      | true => exact System.Triple.throw fun s holds => holds
      | false => exact System.Triple.pure fun s holds => holds

end Proceed

/-- Putting back what is pending ends clean, with Docker stopped if the result says so. -/
theorem restore_spec {pid : Nat} {r : Restoration} (original' : r.original = original.data)
    (metadata : r.metadata = original.metadata)
    (disabled : disabledConfig original.data = .ok r.temporary) (result : Except String Unit) :
    Spec honest original agreed (Resting original (result = .ok ())) (restore pid (some r) result)
      (fun _ s => Clean original agreed s ∧ s.Stopped) (Inv original agreed) := by
  have restored : Spec honest original agreed (Placed original (result = .ok ()) original)
      (restoreDaemon original.data result)
      (fun _ s => Placed original (result = .ok ()) original s ∧ s.Agrees)
      (Placed original (result = .ok ()) original) := by
    cases result with
    | error message =>
        exact restoreRuntime_spec (placed_steady original) placed_safe fun s placed => placed.2
    | ok value =>
        refine System.Triple.pure fun s placed => ⟨placed, fun d running => ?_⟩
        have stopped : s.Stopped := placed.1.2 rfl
        rw [stopped.1] at running
        cases running
  unfold restore
  dsimp only
  rw [original', metadata]
  refine System.Triple.bind ((restoreFile_spec disabled).weaken (fun _ h => h) (fun _ _ h => h)
    resting_safe) fun _ => ?_
  refine System.Triple.bind (restored.weaken (fun _ h => h) (fun _ _ h => h) placed_safe) fun _ => ?_
  refine removeBackup_spec.bind fun _ => ?_
  cases result with
  | error message => exact System.Triple.throw fun s holds => .inl holds.1
  | ok value => exact System.Triple.pure fun s holds => ⟨holds.1, holds.2 rfl⟩

theorem shutdown_spec (pid : Nat) :
    Spec honest original agreed (Inv original agreed) (shutdown pid)
      (fun _ s => Recovered honest original agreed s ∧ s.Stopped) (Inv original agreed) := by
  have lasting : Lasting (Recovered honest original agreed) := recovered_lasting
  have safe : ∀ s, Recovered honest original agreed s → Inv original agreed s :=
    fun s recovered => recovered.1
  refine (recoverBackup_spec pid).bind fun _ => ?_
  refine System.Triple.bind ((serviceState_spec lasting.steady safe).weaken (fun _ h => h)
    (fun _ s holds => holds.1) safe) fun state => ?_
  dsimp only
  split
  · exact System.Triple.throw safe
  · refine System.Triple.bind (System.Triple.weaken (fun _ h => h) (attempt_spec (prepare_spec pid _))
      (fun _ _ h => h) fun _ h => h) fun outcome => ?_
    cases outcome with
    | error message => exact System.Triple.throw fun s inv => inv
    | ok restoration =>
        cases restoration with
        | none =>
            have nothing : Spec honest original agreed (Recovered honest original agreed)
                (reloadDisabled pid none) (fun _ => Recovered honest original agreed)
                (Recovered honest original agreed) :=
              System.Triple.pure fun s recovered => recovered
            refine System.Triple.bind ((attempt_spec (proceed_spec lasting safe nothing _
              state)).weaken (fun _ h => h) (fun _ _ h => h) safe) fun result => ?_
            cases result with
            | error message => exact System.Triple.throw safe
            | ok value => exact System.Triple.pure fun s holds => holds
        | some r =>
            refine System.Triple.assume (fun s pending => pending.2) ?_
            rintro ⟨original', metadata, disabled⟩
            have reloads : Spec honest original agreed (Backed original)
                (reloadDisabled pid (some r)) (fun _ => Backed original) (Backed original) := by
              unfold reloadDisabled
              dsimp only
              rw [original', metadata]
              refine (reloadConfig_spec backed_lasting.steady (fun _ => .inr) false).bind fun _ => ?_
              exact System.Triple.weaken (fun s holds => ⟨holds.1, False.elim⟩)
                (restoreFile_spec disabled) (fun _ s placed => placed.1.1) fun s resting => resting.1
            refine System.Triple.bind ((attempt_spec (proceed_spec backed_lasting (fun _ => .inr)
              reloads _ state)).weaken (fun s pending => pending.1) (fun _ _ h => h) fun _ => .inr)
              fun result => ?_
            refine System.Triple.weaken ?_ (restore_spec original' metadata disabled result)
              (fun _ s holds => ⟨⟨.inl holds.1, fun _ => holds.1⟩, holds.2⟩) fun _ h => h
            intro s ended
            cases result with
            | error message => exact ⟨ended, by simp⟩
            | ok value => exact ⟨ended.1, fun _ => ended.2⟩

end Triples

/-! ## Whole runs -/

/-- The program of a run, in a process of that id. -/
def main (pid : Nat) : Program Requests (Except Failure Unit) :=
  (shutdown pid).run

/-- The machines that sequences of runs lead to. -/
abbrev Reaches (honest : Prop) :=
  (host honest).Reaches main

abbrev Machine (honest : Prop) :=
  Theory.Machine (host honest) Nat (Except Failure Unit)

theorem idle_lasting {honest : Prop} {s t : Host} (moves : (host honest).idle s t) :
    Settled s t := by
  cases moves with
  | start label busy pid down =>
      refine ⟨rfl, rfl, fun _ d running => ?_⟩
      cases running
      rfl
  | stop failed result =>
      refine ⟨rfl, rfl, fun _ d running => ?_⟩
      cases failed <;> cases running
  | socket socket => exact ⟨rfl, rfl, fun agrees => agrees⟩

/-- Everything the triples say, over any number of runs. -/
theorem reaches_inv {honest agreed : Prop} {original : File} {start finish : Machine honest}
    (idle : start.running = none) (clean : Clean original agreed start.state)
    (runs : Reaches honest start finish) :
    Inv original agreed finish.state ∧
      ∀ pid, finish.running = some (pid, .done (.ok ())) →
        Recovered honest original agreed finish.state ∧ finish.state.Stopped := by
  have resultSteady : Steady fun s => Recovered honest original agreed s ∧ s.Stopped :=
    recovered_lasting.steady.and stopped_steady
  have resultStable : ∀ (pid : Nat) (result : Except Failure Unit), (host honest).Stable
      (@System.Ends Requests (host honest) Failure Unit
        (fun _ s => Recovered honest original agreed s ∧ s.Stopped) (Inv original agreed) result) := by
    intro pid result
    cases result with
    | ok value => exact resultSteady.stable
    | error failure => exact inv_steady.stable
  obtain ⟨inv, rest⟩ := System.reachable_safe inv_steady.stable
    (fun s t moves => inv_lasting s t (idle_lasting moves)) resultStable
    (fun pid s inv => shutdown_spec pid s inv) idle (.inl clean) runs
  exact ⟨inv, fun pid returned => rest pid _ returned⟩

/-! ## An interrupted run -/

/-- A configuration that turns live restore on. -/
def enabledFile : File :=
  ⟨ascii "\x7b\"live-restore\": true\x7d", 0, 0, 0o644⟩

/-- ... and its disabled version. -/
def disabledFile : File :=
  ⟨ascii "\x7b\"live-restore\": false\x7d", 0, 0, 0o644⟩

/-- An active daemon with it. -/
def enabledHost : Host where
  files := fun path => if path = .config then some enabledFile else none
  service := .running "active" active_busy (some ⟨42, true, false⟩)
  result := "success"
  socket := "active"

/-- What a run killed behind `replace_file` leaves. -/
def interruptedHost : Host :=
  (enabledHost.put .backup (some enabledFile)).put .config (some disabledFile)

theorem interrupted {honest : Prop} :
    Reaches honest ⟨enabledHost, none⟩ ⟨interruptedHost, none⟩ := by
  have disabled : disabledConfig enabledFile.data = .ok disabledFile.data := by decide
  have live : Guest.liveRestore (ascii
      "HTTP/1.1 200 OK\r\n\r\n\x7b\"LiveRestoreEnabled\":true\x7d") = .ok true := by decide
  obtain ⟨rest, leads⟩ := @shutdown_leads honest enabledHost 1 rfl rfl enabledFile rfl (by decide)
    disabledFile.data _ disabled live _ rfl rfl rfl
  exact System.Leads.killed leads

/-- Behind it the daemon crashes ... -/
def crashedHost : Host :=
  { interruptedHost with service := .running "deactivating" (by decide) none }

/-- ... and systemd gives it up. -/
def givenUpHost : Host :=
  { interruptedHost with
    service := .stopped false
    result := "success" }

theorem givenUp {honest : Prop} : Reaches honest ⟨enabledHost, none⟩ ⟨givenUpHost, none⟩ := by
  have crash : Host.Drift interruptedHost crashedHost := .crash "deactivating" (by decide) rfl
  have giveUp : Host.Drift crashedHost givenUpHost := .giveUp false "success" rfl
  exact ((@interrupted honest).tail (.env crash)).tail (.env giveUp)

/-! ## The two results -/

section Runs

variable {honest : Prop} {original : File} {start finish : Machine honest}

/-- **Crash safety.**  From an original without a backup, whatever fails and wherever runs
are killed: there is no backup and `daemon.json` is the original, or the backup is the
original and `daemon.json` is it or its disabled version, owner and mode included.  Where
an `lstat` only fails on what is not there, a run that returns `Ok` has put everything back
and has stopped Docker. -/
theorem shutdown_crash_safe (idle : start.running = none)
    (config : start.state.files .config = some original) (backup : start.state.files .backup = none)
    (runs : Reaches honest start finish) :
    (finish.state.files .backup = none ∧ finish.state.files .config = some original ∨
      finish.state.files .backup = some original ∧ ∃ f, finish.state.files .config = some f ∧
        (f = original ∨ Disabled original f)) ∧
    (honest → ∀ pid, finish.running = some (pid, .done (.ok ())) →
      finish.state.files .config = some original ∧ finish.state.files .backup = none ∧
        finish.state.service.label = "inactive" ∧ finish.state.socket = "inactive") := by
  obtain ⟨inv, returns⟩ :=
    @reaches_inv honest False original start finish idle ⟨backup, config, False.elim⟩ runs
  constructor
  · rcases inv with clean | backed
    · exact .inl ⟨clean.backup, clean.config⟩
    · exact .inr ⟨backed.backup, backed.config⟩
  · intro honestly pid returned
    obtain ⟨⟨_, recovered⟩, service, socket⟩ := returns pid returned
    have clean := recovered honestly
    exact ⟨clean.config, clean.backup, by rw [service]; rfl, socket⟩

theorem shutdown_crash_safe_interrupted :
    interruptedHost.files .backup = some enabledFile ∧
      ∃ f, interruptedHost.files .config = some f ∧ (f = enabledFile ∨ Disabled enabledFile f) := by
  have safe := (@shutdown_crash_safe True enabledFile ⟨enabledHost, none⟩ ⟨interruptedHost, none⟩
    rfl rfl rfl interrupted).1
  rcases safe with ⟨gone, _⟩ | backed
  · cases gone
  · exact backed

/-- Once `stat` and `lstat` both fail on the backup, a run returns `Ok` over the disabled
configuration and leaves the backup behind. -/
theorem shutdown_misses_backup :
    ¬ ∀ (original : File) (start finish : Machine False), start.running = none →
      start.state.files .config = some original → start.state.files .backup = none →
      Reaches False start finish → ∀ pid, finish.running = some (pid, .done (.ok ())) →
      finish.state.files .config = some original ∧ finish.state.files .backup = none := by
  intro restores
  have returned : Reaches False ⟨givenUpHost, some (2, main 2)⟩
      ⟨{ givenUpHost with socket := "inactive" }, some (2, .done (.ok ()))⟩ :=
    System.Leads.reaches (shutdown_returns 2 rfl False.elim)
  have runs := (@givenUp False).tail (.start 2)
  have restored := restores enabledFile _ _ rfl rfl rfl (runs.trans returned) 2 rfl
  have same : disabledFile = enabledFile := Option.some.inj restored.1
  exact absurd same (by decide)

/-- **Live restore is not left off.**  From a daemon that agrees with `daemon.json` and no
backup: wherever there is no backup the daemon agrees with the file, so a daemon that does
not still has the backup.  Where an `lstat` only fails on what is not there, the next run
repairs it: behind its `recover_backup` the original is back, there is no backup, and the
daemon agrees; and so it is, with Docker down, behind a run that returns `Ok`. -/
theorem live_restore_not_left_off (idle : start.running = none)
    (config : start.state.files .config = some original) (backup : start.state.files .backup = none)
    (agrees : start.state.Agrees) (runs : Reaches honest start finish) :
    (finish.state.files .backup = none → finish.state.Agrees) ∧
    (¬ finish.state.Agrees → finish.state.files .backup = some original) ∧
    (honest → ∀ pid s, (host honest).Returns (recoverBackup pid) finish.state () s →
      s.files .config = some original ∧ s.files .backup = none ∧ s.Agrees) ∧
    (honest → ∀ pid, finish.running = some (pid, .done (.ok ())) →
      finish.state.files .config = some original ∧ finish.state.files .backup = none) := by
  obtain ⟨inv, returns⟩ :=
    @reaches_inv honest True original start finish idle ⟨backup, config, fun _ => agrees⟩ runs
  refine ⟨fun gone => ?_, fun differs => ?_, fun honestly pid s repaired => ?_,
    fun honestly pid returned => ?_⟩
  · rcases inv with clean | backed
    · exact clean.agrees trivial
    · exact absurd (backed.backup.symm.trans gone) (by simp)
  · rcases inv with clean | backed
    · exact absurd (clean.agrees trivial) differs
    · exact backed.backup
  · have stable : ∀ result : Except Failure Unit, (host honest).Stable
        (@System.Ends Requests (host honest) Failure Unit
          (fun _ s => Recovered honest original True s) (Inv original True) result) := by
      intro result
      cases result with
      | ok value => exact recovered_lasting.steady.stable
      | error failure => exact inv_steady.stable
    obtain ⟨_, recovered⟩ :=
      System.Safe.leads stable (recoverBackup_spec pid finish.state inv) repaired
    have clean := recovered honestly
    exact ⟨clean.config, clean.backup, clean.agrees trivial⟩
  · obtain ⟨⟨_, recovered⟩, _⟩ := returns pid returned
    have clean := recovered honestly
    exact ⟨clean.config, clean.backup⟩

theorem live_restore_not_left_off_interrupted :
    ¬ interruptedHost.Agrees ∧ interruptedHost.files .backup = some enabledFile := by
  have differs : ¬ interruptedHost.Agrees := by
    intro agrees
    exact absurd (agrees ⟨42, true, false⟩ rfl) (by decide)
  have kept := (@live_restore_not_left_off True enabledFile ⟨enabledHost, none⟩
    ⟨interruptedHost, none⟩ rfl rfl rfl (by rintro d ⟨⟩; decide) interrupted).2.1
  exact ⟨differs, kept differs⟩

end Runs

end Luhmen.Guest.Shutdown
