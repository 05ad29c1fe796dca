/-
# Guest.NextStop -- whether the next stop can succeed

What earlier runs and other writers leave behind decides whether a later `shutdown`
can succeed at all.  `serve` is a host on which every request succeeds that can: what it
does is one of the things `host` does (`serve_exec`), and runs against it are evaluated.

Others may write whatever `disabled_config` accepts, at any moment.  Then every file a
run can come across is accepted (`accepted_protocol`), and a run on such a host with
Docker up or down returns `Ok` exactly if there is no backup, or the configuration is
what the backup is of or its disabled version (`next_shutdown_returns_iff`).  Anything
else next to a backup is refused, by every later run (`edited_backup_refused`).

`Shape` is what such a run depends on: the bytes of the two files, and the daemon.
-/
import Luhmen.Guest.ExternalEdits

namespace Luhmen.Guest.Shutdown

open Luhmen.Theory hiding fail
open Run

set_option autoImplicit false

/-! ## A host on which requests succeed -/

/-- What a host answers where it has a choice: the bytes of `/info`, how often the reload
loop gets to ask, and the text of an error. -/
structure Answers where
  stream : Bool → Bytes
  reads : ∀ live, Guest.liveRestore (stream live) = .ok live
  polls : Nat
  missing : String

section Serve

variable (answers : Answers)

def onFile (s : Host) (path : Path) (change : File → Host) : Except String Unit × Host :=
  match s.files path with
  | some f => (.ok (), change f)
  | none => (.error answers.missing, s)

/-- Requests that succeed if they can; a reload is done at once. -/
def serve : (request : Request) → Host → Reply request × Host
  | .exist path, s => ((s.files path).isSome, s)
  | .symlinkMetadata path, s => ((s.files path).isSome, s)
  | .read path, s =>
      match s.files path with
      | some f => (.ok (f.data, f.metadata), s)
      | none => (.error answers.missing, s)
  | .createNew path, s =>
      match s.files path with
      | none => (.created, s.put path (some ⟨[], 0, 0, 0o600⟩))
      | some _ => (.alreadyExists, s)
  | .chown path uid gid, s =>
      onFile answers s path fun f => s.put path (some { f with uid := uid, gid := gid })
  | .setPermissions path mode, s =>
      onFile answers s path fun f => s.put path (some { f with permissions := Fin.ofNat _ mode })
  | .writeAll path data, s =>
      onFile answers s path fun f => s.put path (some { f with data := data })
  | .syncAll _, s => (.ok (), s)
  | .rename source target, s =>
      onFile answers s source fun f => (s.put target (some f)).put source none
  | .hardLink source target, s =>
      match s.files target with
      | none => onFile answers s source fun f => s.put target (some f)
      | some _ => (.error answers.missing, s)
  | .removeFile path, s => onFile answers s path fun _ => s.put path none
  | .syncDirectory, s => (.ok (), s)
  | .showService, s => (.ok s.shown, s)
  | .stopUnits, s =>
      (.ok (), { s with service := .stopped false, result := "success", socket := "inactive" })
  | .socketState, s => (.ok s.socket, s)
  | .hangup pid, s =>
      match s.service with
      | .running label busy (some d) =>
          if d.pid = pid then
            (.ok (), { s with
              service := .running label busy (some { d with live := s.configured, hangup := false }) })
          else (.error answers.missing, s)
      | _ => (.error answers.missing, s)
  | .info, s =>
      match s.service.daemon with
      | some d => (.ok (answers.stream d.live), s)
      | none => (.error answers.missing, s)
  | .polls, s => (answers.polls, s)
  | .dockerShimsRemain, s => (false, s)

variable {answers} {honest : Prop} {α β : Type}

theorem onFile_attempt (s : Host) (path : Path) (change : File → Host) :
    Host.Attempt (onFile answers s path change).1 s (onFile answers s path change).2
      (∃ f, s.files path = some f ∧ (onFile answers s path change).2 = change f) := by
  unfold onFile
  cases there : s.files path with
  | some f => exact .inr ⟨rfl, f, rfl, rfl⟩
  | none => exact .inl ⟨_, rfl, rfl⟩

/-- What is served is one of the things that can happen; data is only written to a file
that was opened. -/
theorem serve_exec (request : Request) (s : Host)
    (opened : ∀ path data, request = .writeAll path data → s.files path ≠ none) :
    ∃ t, Host.exec honest request s (serve answers request s).1 t ∧
      (host honest).Drifts t (serve answers request s).2 := by
  have here : Host.exec honest request s (serve answers request s).1 (serve answers request s).2 →
      ∃ t, Host.exec honest request s (serve answers request s).1 t ∧
        (host honest).Drifts t (serve answers request s).2 := fun performed => ⟨_, performed, .refl⟩
  cases request with
  | exist path =>
      refine here ⟨rfl, fun there => ?_⟩
      simpa [serve, Option.isSome_iff_ne_none] using there
  | symlinkMetadata path =>
      refine here ⟨rfl, fun there => ?_, fun _ absent => ?_⟩
      · simpa [serve, Option.isSome_iff_ne_none] using there
      · simpa [serve] using absent
  | read path =>
      apply here
      cases there : s.files path with
      | some f =>
          simp only [serve, there]
          exact ⟨rfl, fun content is => ⟨f, there, (Except.ok.inj is).symm⟩⟩
      | none =>
          simp only [serve, there]
          exact ⟨rfl, fun content is => by cases is⟩
  | createNew path =>
      apply here
      cases there : s.files path with
      | some f => simp only [serve, there, Host.exec]
      | none => simp only [serve, there, Host.exec, and_self]
  | chown path uid gid => exact here (onFile_attempt _ _ _)
  | setPermissions path mode => exact here (onFile_attempt _ _ _)
  | writeAll path data =>
      obtain ⟨f, there⟩ := Option.ne_none_iff_exists'.1 (opened path data rfl)
      apply here
      simp only [serve, onFile, there]
      exact ⟨f, data, there, rfl, fun _ => rfl⟩
  | rename source target => exact here (onFile_attempt _ _ _)
  | hardLink source target =>
      apply here
      cases there : s.files target with
      | some f =>
          simp only [serve, there]
          exact .inl ⟨_, rfl, rfl⟩
      | none =>
          simp only [serve, there]
          rcases @onFile_attempt answers s source fun f => s.put target (some f) with
            ⟨message, failed, same⟩ | ⟨ok, f, found, is⟩
          · exact .inl ⟨message, failed, same⟩
          · exact .inr ⟨ok, there, f, found, is⟩
  | removeFile path =>
      apply here
      rcases @onFile_attempt answers s path fun _ => s.put path none with
        ⟨message, failed, same⟩ | ⟨ok, f, found, is⟩
      · exact .inl ⟨message, failed, same⟩
      · exact .inr ⟨ok, by rw [found]; exact Option.some_ne_none f, is⟩
  | showService => exact here ⟨rfl, fun state is => (Except.ok.inj is).symm⟩
  | stopUnits => exact here ⟨rfl, .inr rfl⟩
  | socketState => exact here ⟨rfl, fun state is => (Except.ok.inj is).symm⟩
  | hangup pid =>
      cases service : s.service with
      | stopped failed =>
          apply here
          simp only [serve, service]
          exact .inl rfl
      | running label busy daemon =>
          cases daemon with
          | none =>
              apply here
              simp only [serve, service]
              exact .inl rfl
          | some d =>
              by_cases same : d.pid = pid
              · -- the signal is sent, and the daemon acts on it
                subst same
                simp only [serve, service, if_true]
                refine ⟨{ s with service := .running label busy (some { d with hangup := true }) },
                  .inr ⟨label, busy, d, service, rfl, rfl⟩, .single ?_⟩
                exact @Host.Drift.reload
                  { s with service := .running label busy (some { d with hangup := true }) } label
                  busy { d with hangup := true } false rfl rfl
              · apply here
                simp only [serve, service, same, if_false]
                exact .inl rfl
  | info =>
      apply here
      cases daemon : s.service.daemon with
      | none =>
          simp only [serve, daemon]
          exact ⟨rfl, fun stream live impossible => by cases impossible⟩
      | some d =>
          simp only [serve, daemon]
          refine ⟨rfl, fun stream live is read => ⟨d, daemon, ?_⟩⟩
          obtain rfl := Except.ok.inj is
          exact Except.ok.inj ((answers.reads d.live).symm.trans read)
  | syncAll | syncDirectory | polls | dockerShimsRemain => exact here rfl

end Serve

/-! ## Blocks that return -/

section Served

variable {answers : Answers} {α β : Type} {s t : Host} {pid : Nat} {data : Bytes}
  {metadata : Metadata}

variable (answers) in
/-- What a block ends with on a host where everything succeeds. -/
abbrev served (block : Run α) (s : Host) : Except Failure α × Host :=
  block.run.evaluate (serve answers) s

theorem served_bind {block : Run α} {rest : α → Run β} {value : α}
    (first : served answers block s = (.ok value, t)) :
    served answers (block >>= rest) s = served answers (rest value) t :=
  Fallible.evaluate_ok first

theorem served_fails {block : Run α} {rest : α → Run β} {failure : Failure}
    (first : served answers block s = (.error failure, t)) :
    served answers (block >>= rest) s = (.error failure, t) :=
  Fallible.evaluate_error first

theorem served_attempt {block : Run α} {value : α}
    (first : served answers block s = (.ok value, t)) :
    served answers (attempt block) s = (.ok (.ok value), t) :=
  Fallible.evaluate_attempt_ok first

/-- `?` behind a request that succeeds. -/
theorem served_demand {block : Run (Except String α)} {rest : α → Run β} {value : α}
    (first : served answers block s = (.ok (.ok value), t)) :
    served answers (block >>= fun outcome => orFail outcome >>= rest) s =
      served answers (rest value) t :=
  (served_bind first).trans (served_bind rfl)

theorem served_demand_last {block : Run (Except String α)} {value : α}
    (first : served answers block s = (.ok (.ok value), t)) :
    served answers (block >>= fun outcome => orFail outcome) s = (.ok value, t) :=
  served_bind first

theorem served_change {request : Request} {outcome : Reply request}
    (is : serve answers request s = (outcome, t)) :
    served answers (@Fallible.perform Failure Requests request) s = (.ok outcome, t) := by
  show (Except.ok (serve answers request s).1, (serve answers request s).2) = _
  rw [is]
  rfl

/-! ### Files -/

theorem onFile_found {path : Path} {f : File} (there : s.files path = some f) (change : File → Host) :
    onFile answers s path change = (.ok (), change f) := by
  rw [onFile, there]

theorem createTemporary_served {numbers : List Nat}
    (free : ∃ number ∈ numbers, s.files (.temporary pid number) = none) :
    ∃ number, s.files (.temporary pid number) = none ∧
      served answers (createTemporary pid numbers) s =
        (.ok (.temporary pid number),
          s.put (.temporary pid number) (some ⟨[], 0, 0, 0o600⟩)) := by
  induction numbers with
  | nil => simp at free
  | cons number rest ih =>
      cases there : s.files (.temporary pid number) with
      | none =>
          refine ⟨number, there, ?_⟩
          have created : served answers (createNew (.temporary pid number)) s =
              (.ok .created, s.put (.temporary pid number) (some ⟨[], 0, 0, 0o600⟩)) :=
            served_change (by simp only [serve, there])
          exact served_bind created
      | some f =>
          have further : ∃ number ∈ rest, s.files (.temporary pid number) = none := by
            obtain ⟨other, member, isFree⟩ := free
            rcases List.mem_cons.1 member with rfl | member
            · exact absurd (there.symm.trans isFree) (by simp)
            · exact ⟨other, member, isFree⟩
          obtain ⟨other, isFree, made⟩ := ih further
          have occupied : served answers (createNew (.temporary pid number)) s =
              (.ok .alreadyExists, s) :=
            served_change (by simp only [serve, there])
          exact ⟨other, isFree, (served_bind occupied).trans made⟩

/-- Some name for a temporary file is left. -/
def Free (pid : Nat) (s : Host) : Prop :=
  ∃ number < 100, s.files (.temporary pid number) = none

theorem writeTemporary_served (free : Free pid s) (data : Bytes) (metadata : Metadata) :
    ∃ number, s.files (.temporary pid number) = none ∧
      served answers (writeTemporary pid data metadata) s =
        (.ok (.temporary pid number),
          s.put (.temporary pid number) (some (filled data metadata))) := by
  obtain ⟨n, small, isFree⟩ := free
  obtain ⟨number, absent, created⟩ := @createTemporary_served answers s pid (List.range 100)
    ⟨n, List.mem_range.2 small, isFree⟩
  refine ⟨number, absent, ?_⟩
  have owned : ∀ f, served answers (chown (.temporary pid number) metadata.uid metadata.gid)
      (s.put (.temporary pid number) (some f)) = (.ok (.ok ()),
        s.put (.temporary pid number) (some { f with uid := metadata.uid, gid := metadata.gid })) := by
    intro f
    refine served_change ?_
    rw [serve, onFile_found (s.put_self _ _), Host.put_put]
    rfl
  have permitted : ∀ f, served answers
      (setPermissions (.temporary pid number) (metadata.mode &&& 0o7777))
      (s.put (.temporary pid number) (some f)) = (.ok (.ok ()), s.put (.temporary pid number)
        (some { f with permissions := Fin.ofNat _ (metadata.mode &&& 0o7777) })) := by
    intro f
    refine served_change ?_
    rw [serve, onFile_found (s.put_self _ _), Host.put_put]
    rfl
  have written : ∀ f, served answers (writeAll (.temporary pid number) data)
      (s.put (.temporary pid number) (some f)) = (.ok (.ok ()),
        s.put (.temporary pid number) (some { f with data := data })) := by
    intro f
    refine served_change ?_
    rw [serve, onFile_found (s.put_self _ _), Host.put_put]
    rfl
  have fills : served answers (fillTemporary (.temporary pid number) data metadata)
      (s.put (.temporary pid number) (some ⟨[], 0, 0, 0o600⟩)) =
        (.ok (), s.put (.temporary pid number) (some (filled data metadata))) := by
    unfold fillTemporary
    rw [served_demand (owned _), served_demand (permitted _), served_demand (written _)]
    exact served_demand_last (served_change rfl)
  unfold writeTemporary
  rw [served_bind created, served_bind (served_attempt fills)]
  rfl

theorem readFile_served {path : Path} {f : File} (there : s.files path = some f)
    (short : f.data.length ≤ limit) :
    served answers (readFile path) s = (.ok (f.data, f.metadata), s) := by
  have reads : served answers (Run.read path) s = (.ok (.ok (f.data, f.metadata)), s) :=
    served_change (by simp only [serve, there])
  unfold readFile
  rw [served_demand reads]
  dsimp only
  rw [if_neg (Nat.not_lt.mpr short)]
  rfl

theorem replaceFile_served (free : Free pid s) {f : File} (there : s.files .config = some f)
    (short : f.data.length ≤ limit) (data : Bytes) (metadata : Metadata) :
    served answers (replaceFile pid .config data metadata f.data) s =
      (.ok (), s.put .config (some (filled data metadata))) := by
  obtain ⟨number, absent, made⟩ := @writeTemporary_served answers s pid free data metadata
  have reads := @readFile_served answers (s.put (.temporary pid number)
    (some (filled data metadata))) .config f (by simpa using there) short
  have emptied : ((s.put (.temporary pid number) (some (filled data metadata))).put .config
      (some (filled data metadata))).put (.temporary pid number) none =
      s.put .config (some (filled data metadata)) := by
    rw [Host.put_comm s (by simp), Host.put_put]
    have same := (s.put .config (some (filled data metadata))).put_same (.temporary pid number)
    simpa [absent] using same
  have renamed : served answers (rename (.temporary pid number) .config)
      (s.put (.temporary pid number) (some (filled data metadata))) =
        (.ok (.ok ()), s.put .config (some (filled data metadata))) := by
    refine served_change ?_
    rw [serve, onFile_found (s.put_self _ _), emptied]
    rfl
  have gone : served answers (discard (.temporary pid number))
      (s.put .config (some (filled data metadata))) =
        (.ok (), s.put .config (some (filled data metadata))) := by
    have probed : served answers (exist (.temporary pid number))
        (s.put .config (some (filled data metadata))) =
          (.ok false, s.put .config (some (filled data metadata))) :=
      served_change (by simp [serve, absent])
    exact served_bind probed
  have published : served answers (publish (.temporary pid number) .config f.data)
      (s.put (.temporary pid number) (some (filled data metadata))) =
        (.ok (), s.put .config (some (filled data metadata))) := by
    unfold publish
    rw [served_bind reads]
    dsimp only
    rw [if_neg fun different => different rfl, served_demand renamed]
    exact served_demand_last (served_change rfl)
  unfold replaceFile
  rw [served_bind made, served_bind (served_attempt published), served_bind gone]
  rfl

theorem saveBackup_served (free : Free pid s) (absent : s.files .backup = none) (original : Bytes)
    (metadata : Metadata) :
    served answers (saveBackup pid .backup original metadata) s =
      (.ok (), s.put .backup (some (filled original metadata))) := by
  obtain ⟨number, isFree, made⟩ := @writeTemporary_served answers s pid free original metadata
  have linked : served answers (hardLink (.temporary pid number) .backup)
      (s.put (.temporary pid number) (some (filled original metadata))) = (.ok (.ok ()),
        (s.put (.temporary pid number) (some (filled original metadata))).put .backup
          (some (filled original metadata))) := by
    refine served_change ?_
    simp only [serve, Host.put_files, reduceCtorEq, if_false, absent]
    rw [onFile_found (s.put_self _ _)]
    rfl
  have removed : served answers (removeFile (.temporary pid number))
      ((s.put (.temporary pid number) (some (filled original metadata))).put .backup
        (some (filled original metadata))) =
        (.ok (.ok ()), s.put .backup (some (filled original metadata))) := by
    refine served_change ?_
    rw [Host.put_comm s (by simp), serve, onFile_found (Host.put_self _ _ _), Host.put_put]
    have same := (s.put .backup (some (filled original metadata))).put_same (.temporary pid number)
    have none : (s.put .backup (some (filled original metadata))).files (.temporary pid number) =
        none := by simpa using isFree
    rw [none] at same
    rw [same]
    rfl
  have published : served answers (link (.temporary pid number) .backup)
      (s.put (.temporary pid number) (some (filled original metadata))) = (.ok (),
        (s.put (.temporary pid number) (some (filled original metadata))).put .backup
          (some (filled original metadata))) := by
    unfold link
    rw [served_demand linked]
    exact served_demand_last (served_change rfl)
  unfold saveBackup
  rw [served_bind made, served_bind (served_attempt published), served_bind removed]
  rfl

/-! ### The daemon and the two files -/

/-- A unit that is inactive, or active with a daemon of that pid and setting. -/
def Up (service : Service) : Option (Nat × Bool) → Prop
  | none => service = .stopped false
  | some (main, live) =>
      ∃ hangup, service = .running "active" active_busy (some ⟨main, live, hangup⟩)

/-- What a run depends on. -/
structure Shape (pid : Nat) (docker : Option (Nat × Bool)) (config backup : Option Bytes)
    (s : Host) : Prop where
  free : Free pid s
  config : (s.files .config).map File.data = config
  backup : (s.files .backup).map File.data = backup
  docker : Up s.service docker

/-- A pid that `reload_config` takes. -/
def Signalled (docker : Option (Nat × Bool)) : Prop :=
  ∀ d, docker = some d → 1 < d.1 ∧ d.1 < 2 ^ 32

variable {docker : Option (Nat × Bool)} {config backup : Option Bytes} {main : Nat} {live : Bool}
  {original temporary current : Bytes}

theorem Shape.put_config (shape : Shape pid docker config backup s) (f : File) :
    Shape pid docker (some f.data) backup (s.put .config (some f)) where
  free := by simpa [Free] using shape.free
  config := rfl
  backup := shape.backup
  docker := shape.docker

theorem Shape.put_backup (shape : Shape pid docker config backup s) (file : Option File) :
    Shape pid docker config (file.map File.data) (s.put .backup file) where
  free := by simpa [Free] using shape.free
  config := shape.config
  backup := rfl
  docker := shape.docker

theorem serviceState_served (s : Host) : served answers serviceState s = (.ok s.shown, s) :=
  served_demand_last (served_change rfl)

theorem Shape.active (shape : Shape pid (some (main, live)) config backup s) :
    s.shown.lookup "ActiveState" = some "active" ∧
      s.shown.lookup "MainPID" = some (toString main) := by
  obtain ⟨hangup, is⟩ := shape.docker
  have label : s.shown.lookup "ActiveState" = some s.service.label := rfl
  have pidIs : s.shown.lookup "MainPID" =
      some ((s.service.daemon.map fun d => toString d.pid).getD "0") := rfl
  rw [label, pidIs, is]
  exact ⟨rfl, rfl⟩

theorem Shape.inactive (shape : Shape pid none config backup s) :
    s.shown.lookup "ActiveState" = some "inactive" ∧ s.shown.lookup "MainPID" = some "0" := by
  have is : s.service = .stopped false := shape.docker
  have label : s.shown.lookup "ActiveState" = some s.service.label := rfl
  have pidIs : s.shown.lookup "MainPID" =
      some ((s.service.daemon.map fun d => toString d.pid).getD "0") := rfl
  rw [label, pidIs, is]
  exact ⟨rfl, rfl⟩

theorem liveRestore_served (shape : Shape pid (some (main, live)) config backup s) :
    served answers liveRestore s = (.ok live, s) := by
  obtain ⟨hangup, is⟩ := shape.docker
  have answered : served answers info s = (.ok (.ok (answers.stream live)), s) := by
    refine served_change ?_
    simp only [serve, is, Service.daemon]
  unfold liveRestore
  rw [served_demand answered, answers.reads]
  rfl

theorem confirm_served (shape : Shape pid (some (main, live)) config backup s) (left : Nat) :
    served answers (confirm live left) s = (.ok (), s) := by
  have polled : served answers (attempt liveRestore) s = (.ok (.ok live), s) :=
    served_attempt (liveRestore_served shape)
  cases left with
  | zero =>
      unfold confirm
      rw [served_bind polled, if_pos rfl]
      rfl
  | succ left =>
      unfold confirm
      rw [served_bind polled, if_pos rfl]
      rfl

/-- A number below 2^32 is parsed back. -/
theorem parseU32_toString {n : Nat} (small : n < 2 ^ 32) : parseU32 (toString n) = some n := by
  have digits : (toString n).toList = Nat.toDigits 10 n := Nat.toList_repr
  have isDigit : ∀ c ∈ Nat.toDigits 10 n, c.isDigit = true :=
    fun c member => Nat.isDigit_of_mem_toDigits (by decide) (by decide) member
  have noSign : ∀ rest, Nat.toDigits 10 n ≠ '+' :: rest := by
    intro rest same
    exact absurd (isDigit '+' (by rw [same]; exact List.mem_cons_self)) (by decide)
  have value : (Nat.toDigits 10 n).foldl (fun sum c => sum * 10 + (c.toNat - '0'.toNat)) 0 = n := by
    have parsed := @Nat.ofDigitChars_toDigits 10 n (by decide) (by decide)
    rw [Nat.ofDigitChars_eq_foldl] at parsed
    simpa only [Nat.mul_comm 10] using parsed
  unfold parseU32
  rw [digits]
  dsimp only
  split
  · rename_i rest same
    exact absurd same (noSign rest)
  · rw [if_pos ⟨Nat.toDigits_ne_nil, List.all_eq_true.2 isDigit⟩, value, if_pos small]

/-- The host behind a hangup of this daemon. -/
def Host.hungUp (s : Host) (main : Nat) (live : Bool) : Host :=
  { s with service := .running "active" active_busy (some ⟨main, live, false⟩) }

variable (answers) in
theorem reloadConfig_served (signalled : 1 < main ∧ main < 2 ^ 32)
    (shape : Shape pid (some (main, live)) (some current) backup s) :
    ∃ t, served answers (reloadConfig (Host.setting current)) s = (.ok (), t) ∧
      Shape pid (some (main, Host.setting current)) (some current) backup t := by
  obtain ⟨label, mainPid⟩ := shape.active
  obtain ⟨hangup, is⟩ := shape.docker
  have configured : s.configured = Host.setting current := by
    obtain ⟨f, there, same⟩ := Option.map_eq_some_iff.1 shape.config
    simp only [Host.configured, there, same]
  have after : Shape pid (some (main, Host.setting current)) (some current) backup
      (s.hungUp main (Host.setting current)) :=
    ⟨shape.free, shape.config, shape.backup, false, rfl⟩
  have sent : served answers (Run.hangup main) s =
      (.ok (.ok ()), s.hungUp main (Host.setting current)) := by
    refine served_change ?_
    simp only [serve, is, if_true, configured]
    rfl
  have parsed : ((some (toString main)).bind parseU32).getD 0 = main := by
    rw [Option.bind_some, parseU32_toString signalled.2]
    rfl
  refine ⟨_, ?_, after⟩
  unfold reloadConfig
  rw [served_bind (serviceState_served s)]
  dsimp only
  rw [label, mainPid, parsed, if_neg (by simp; omega), served_demand sent]
  have asked : served answers Run.polls (s.hungUp main (Host.setting current)) =
      (.ok answers.polls, s.hungUp main (Host.setting current)) := served_change rfl
  rw [served_bind asked]
  exact confirm_served after answers.polls

variable (answers) in
theorem restoreRuntime_served (signalled : Signalled docker) {field : Option Bool}
    (reads : booleanField original liveRestoreKey = .ok field)
    (shape : Shape pid docker (some original) backup s) :
    ∃ t, served answers (restoreRuntime original) s = (.ok (), t) ∧
      Shape pid (docker.map fun d => (d.1, Host.setting original)) (some original) backup t := by
  have setting : field.getD false = Host.setting original := by
    rw [Host.setting, reads]
    cases field with
    | none => rfl
    | some b => cases b <;> rfl
  unfold restoreRuntime
  rw [served_bind (serviceState_served s)]
  cases docker with
  | none =>
      obtain ⟨label, mainPid⟩ := shape.inactive
      refine ⟨s, ?_, shape⟩
      rw [label, mainPid, if_neg (by simp), if_pos (by simp)]
      rfl
  | some d =>
      obtain ⟨main, live⟩ := d
      obtain ⟨label, -⟩ := shape.active
      obtain ⟨t, reloaded, after⟩ := reloadConfig_served answers
        (signalled _ rfl) shape
      have field' : served answers (Fallible.ofExcept (booleanField original liveRestoreKey)) s =
          (.ok field, s) := by
        rw [reads]
        rfl
      refine ⟨t, ?_, after⟩
      rw [label, if_pos rfl, served_bind field', setting]
      exact reloaded

variable (answers metadata temporary) in
theorem restoreFile_served (shape : Shape pid docker (some current) backup s)
    (short : current.length ≤ limit) (known : current = original ∨ current = temporary) :
    ∃ t, served answers (restoreFile pid .config original metadata temporary) s = (.ok (), t) ∧
      Shape pid docker (some original) backup t := by
  obtain ⟨f, there, same⟩ := Option.map_eq_some_iff.1 shape.config
  subst same
  unfold restoreFile
  rw [served_bind (readFile_served there short)]
  dsimp only
  by_cases disabled : f.data = temporary
  · subst disabled
    refine ⟨_, ?_, shape.put_config (filled original metadata)⟩
    rw [if_pos rfl]
    exact replaceFile_served shape.free there short original metadata
  · have is : f.data = original := known.resolve_right disabled
    refine ⟨s, ?_, is ▸ shape⟩
    rw [if_neg disabled, if_neg (not_not.2 is)]
    rfl

/-- Anything else is refused. -/
theorem restoreFile_refused (there : (s.files .config).map File.data ≠ some original)
    (other : (s.files .config).map File.data ≠ some temporary) :
    ∃ failure, served answers (restoreFile pid .config original metadata temporary) s =
      (.error failure, s) := by
  unfold restoreFile
  cases found : s.files .config with
  | none =>
      have reads : served answers (Run.read .config) s = (.ok (.error answers.missing), s) :=
        served_change (by simp only [serve, found])
      have failed : served answers (readFile .config) s =
          (.error (.error answers.missing), s) := by
        unfold readFile
        rw [served_bind reads]
        rfl
      exact ⟨_, served_fails failed⟩
  | some f =>
      rw [found] at there other
      by_cases short : f.data.length ≤ limit
      · refine ⟨.error "Docker configuration changed during shutdown; preserving the external edit and backup",
          ?_⟩
        rw [served_bind (readFile_served found short)]
        dsimp only
        rw [if_neg fun same => other (congrArg some same),
          if_pos fun same => there (congrArg some same)]
        rfl
      · have reads : served answers (Run.read .config) s = (.ok (.ok (f.data, f.metadata)), s) :=
          served_change (by simp only [serve, found])
        have failed : served answers (readFile .config) s =
            (.error (.error (Path.config.display ++ " must be a regular file of at most 1 MiB")), s) := by
          unfold readFile
          rw [served_demand reads]
          dsimp only
          rw [if_pos (Nat.lt_of_not_le short)]
          rfl
        exact ⟨_, served_fails failed⟩

variable (answers) in
theorem removeBackup_served (shape : Shape pid docker config (some original) s) :
    ∃ t, served answers removeBackup s = (.ok (), t) ∧ Shape pid docker config none t := by
  obtain ⟨b, there, -⟩ := Option.map_eq_some_iff.1 shape.backup
  refine ⟨_, ?_, shape.put_backup none⟩
  have removed : served answers (removeFile .backup) s = (.ok (.ok ()), s.put .backup none) := by
    refine served_change ?_
    rw [serve, onFile_found there]
    rfl
  unfold removeBackup
  rw [served_demand removed]
  exact served_demand_last (served_change rfl)

/-! ### The parts of `shutdown` -/

/-- What a recovered host looks like. -/
def Ready (pid : Nat) (s : Host) : Prop :=
  ∃ docker config temporary, Signalled docker ∧ disabledConfig config = .ok temporary ∧
    Shape pid docker (some config) none s

theorem backupPresent_served (s : Host) :
    served answers backupPresent s = (.ok (s.files .backup).isSome, s) := by
  have probed : served answers (exist .backup) s = (.ok (s.files .backup).isSome, s) :=
    served_change rfl
  unfold backupPresent
  rw [served_bind probed]
  cases there : s.files .backup with
  | some f => rfl
  | none =>
      have looked : served answers (symlinkMetadata .backup) s =
          (.ok (s.files .backup).isSome, s) := served_change rfl
      rw [there] at looked
      exact looked

variable (answers metadata) in
/-- A run puts back what it can recover. -/
theorem recoverFrom_served (signalled : Signalled docker)
    (disabled : disabledConfig original = .ok temporary)
    (shape : Shape pid docker (some current) (some original) s) (short : current.length ≤ limit)
    (known : current = original ∨ current = temporary) :
    ∃ t, served answers (recoverFrom pid original metadata) s = (.ok (), t) ∧ Ready pid t := by
  obtain ⟨field, reads⟩ := booleanField_accepted disabled
  have computed : served answers (Fallible.ofExcept (disabledConfig original)) s =
      (.ok temporary, s) := by
    rw [disabled]
    rfl
  obtain ⟨t, restored, put⟩ := restoreFile_served answers metadata temporary shape short known
  obtain ⟨u, told, agreed⟩ := restoreRuntime_served answers signalled reads put
  obtain ⟨v, removed, ready⟩ := removeBackup_served answers agreed
  refine ⟨v, ?_, _, original, temporary, ?_, disabled, ready⟩
  · unfold recoverFrom
    rw [served_bind computed, served_bind restored, served_bind told]
    exact removed
  · intro d is
    cases docker with
    | none => cases is
    | some before =>
        obtain rfl := Option.some.inj is
        exact signalled before rfl

variable (answers) in
theorem recoverBackup_served (signalled : Signalled docker)
    (disabled : disabledConfig current = .ok temporary)
    (shape : Shape pid docker (some current) backup s)
    (known : ∀ original, backup = some original → ∃ temporary,
      disabledConfig original = .ok temporary ∧ (current = original ∨ current = temporary)) :
    ∃ t, served answers (recoverBackup pid) s = (.ok (), t) ∧ Ready pid t := by
  unfold recoverBackup
  rw [served_bind (backupPresent_served s)]
  cases there : s.files .backup with
  | none =>
      have none : backup = none := by rw [← shape.backup, there, Option.map_none]
      subst none
      exact ⟨s, rfl, docker, current, temporary, signalled, disabled, shape⟩
  | some b =>
      have backed : backup = some b.data := by rw [← shape.backup, there, Option.map_some]
      subst backed
      obtain ⟨temporary, disabledBackup, equal⟩ := known b.data rfl
      have read := @readFile_served answers s .backup b there (disabledConfig_length disabledBackup)
      obtain ⟨t, recovered, ready⟩ := recoverFrom_served answers b.metadata signalled disabledBackup
        shape (disabledConfig_length disabled) equal
      refine ⟨t, ?_, ready⟩
      dsimp only [Option.isSome]
      rw [served_bind read]
      exact recovered

theorem prepare_idle_served (s : Host) : served answers (prepare pid false) s = (.ok none, s) := rfl

/-- A daemon without live restore needs no preparation. -/
theorem prepare_plain_served (disabled : disabledConfig current = .ok temporary)
    (shape : Shape pid (some (main, false)) (some current) backup s) :
    served answers (prepare pid true) s = (.ok none, s) := by
  obtain ⟨f, there, rfl⟩ := Option.map_eq_some_iff.1 shape.config
  have computed : served answers (Fallible.ofExcept (disabledConfig f.data)) s =
      (.ok temporary, s) := by
    rw [disabled]
    rfl
  unfold prepare
  dsimp only
  rw [served_bind (readFile_served there (disabledConfig_length disabled)), served_bind computed,
    served_bind (liveRestore_served shape)]
  rfl

variable (answers) in
theorem prepare_live_served (disabled : disabledConfig current = .ok temporary)
    (shape : Shape pid (some (main, true)) (some current) none s) :
    ∃ t metadata, served answers (prepare pid true) s =
        (.ok (some ⟨current, metadata, temporary⟩), t) ∧
      Shape pid (some (main, true)) (some temporary) (some current) t := by
  obtain ⟨f, there, rfl⟩ := Option.map_eq_some_iff.1 shape.config
  have short := disabledConfig_length disabled
  have absent : s.files .backup = none := Option.map_eq_none_iff.1 shape.backup
  have computed : served answers (Fallible.ofExcept (disabledConfig f.data)) s =
      (.ok temporary, s) := by
    rw [disabled]
    rfl
  have saved := @saveBackup_served answers s pid shape.free absent f.data f.metadata
  have held := shape.put_backup (some (filled f.data f.metadata))
  have still : (s.put .backup (some (filled f.data f.metadata))).files .config = some f := there
  have replaced := @replaceFile_served answers _ pid held.free f still short temporary f.metadata
  refine ⟨_, f.metadata, ?_, held.put_config (filled temporary f.metadata)⟩
  unfold prepare
  dsimp only
  rw [served_bind (readFile_served there short), served_bind computed,
    served_bind (liveRestore_served shape)]
  dsimp only
  rw [served_bind saved, served_bind replaced]
  rfl

theorem dockerChanged_served {state : List (String × String)}
    (same : state.lookup "MainPID" = some (toString main))
    (shape : Shape pid (some (main, live)) config backup s) :
    served answers (dockerChanged state) s = (.ok live, s) := by
  unfold dockerChanged
  rw [served_bind (serviceState_served s), shape.active.2, same, if_neg fun different => different rfl]
  exact liveRestore_served shape

/-- The host behind a stop of both units. -/
def Host.unitsStopped (s : Host) : Host :=
  { s with
    service := .stopped false
    result := "success"
    socket := "inactive" }

variable (answers) in
theorem stopDocker_served (shape : Shape pid docker config backup s) (active : Bool) :
    ∃ t, served answers (stopDocker active) s = (.ok (), t) ∧ Shape pid none config backup t := by
  have after : Shape pid none config backup s.unitsStopped :=
    ⟨shape.free, shape.config, shape.backup, rfl⟩
  have units : served answers stopUnits s = (.ok (.ok ()), s.unitsStopped) := served_change rfl
  have socket : served answers socketState s.unitsStopped = (.ok (.ok "inactive"), s.unitsStopped) :=
    served_change rfl
  have result : s.unitsStopped.shown.lookup "Result" = some "success" := rfl
  have noShims : served answers dockerShimsRemain s.unitsStopped = (.ok false, s.unitsStopped) :=
    served_change rfl
  refine ⟨s.unitsStopped, ?_, after⟩
  unfold stopDocker
  rw [served_demand units, served_bind (serviceState_served _), served_demand socket,
    after.inactive.1, result, if_neg (by simp), if_neg (by simp), served_bind noShims]
  rfl

variable (answers) in
theorem proceed_plain_served {state : List (String × String)}
    (same : state.lookup "MainPID" = some (toString main))
    (shape : Shape pid (some (main, false)) config backup s) :
    ∃ t, served answers (proceed pid true state none) s = (.ok (), t) := by
  obtain ⟨t, stopped, -⟩ := stopDocker_served answers shape true
  have settled : served answers (prepared pid true state none) s = (.ok (), s) := by
    have nothing : served answers (reloadDisabled pid none) s = (.ok (), s) := rfl
    unfold prepared
    dsimp only
    rw [served_bind nothing, served_bind (dockerChanged_served same shape)]
    rfl
  refine ⟨t, ?_⟩
  unfold proceed
  rw [served_bind settled]
  exact stopped

variable (answers metadata) in
theorem proceed_live_served {state : List (String × String)} (signalled : 1 < main ∧ main < 2 ^ 32)
    (disabled : disabledConfig original = .ok temporary)
    (same : state.lookup "MainPID" = some (toString main))
    (shape : Shape pid (some (main, true)) (some temporary) (some original) s) :
    ∃ t, served answers (proceed pid true state (some ⟨original, metadata, temporary⟩)) s =
        (.ok (), t) ∧
      Shape pid none (some original) (some original) t := by
  have off : Host.setting temporary = false := by
    rw [Host.setting, booleanField_disabled disabled]
    rfl
  obtain ⟨t, reloaded, told⟩ := reloadConfig_served answers signalled shape
  rw [off] at reloaded told
  obtain ⟨u, restored, put⟩ := restoreFile_served answers metadata temporary told
    (disabledConfig_length (disabledConfig_again disabled)) (.inr rfl)
  obtain ⟨v, stopped, after⟩ := stopDocker_served answers put true
  have both : served answers (reloadDisabled pid (some ⟨original, metadata, temporary⟩)) s =
      (.ok (), u) := by
    unfold reloadDisabled
    dsimp only
    rw [served_bind reloaded]
    exact restored
  have settled : served answers
      (prepared pid true state (some ⟨original, metadata, temporary⟩)) s = (.ok (), u) := by
    unfold prepared
    dsimp only
    rw [served_bind both, served_bind (dockerChanged_served same put)]
    rfl
  refine ⟨v, ?_, after⟩
  unfold proceed
  rw [served_bind settled]
  exact stopped

variable (answers) in
theorem restore_served (r : Restoration)
    (disabled : disabledConfig r.original = .ok r.temporary)
    (shape : Shape pid docker (some r.original) (some r.original) s) :
    ∃ t, served answers (restore pid (some r) (.ok ())) s = (.ok (), t) := by
  obtain ⟨t, restored, put⟩ := restoreFile_served answers r.metadata r.temporary shape
    (disabledConfig_length disabled) (.inl rfl)
  obtain ⟨u, removed, -⟩ := removeBackup_served answers put
  refine ⟨u, ?_⟩
  unfold restore
  dsimp only
  have skipped : served answers (restoreDaemon r.original (.ok ())) t = (.ok (), t) := rfl
  rw [served_bind restored, served_bind skipped, served_bind removed]
  rfl

/-- A run that has recovered the host returns. -/
theorem shutdown_served (recovered : served answers (recoverBackup pid) s = (.ok (), t))
    (ready : Ready pid t) : ∃ u, served answers (shutdown pid) s = (.ok (), u) := by
  obtain ⟨docker, config, temporary, signalled, disabled, shape⟩ := ready
  unfold shutdown
  rw [served_bind recovered, served_bind (serviceState_served t)]
  dsimp only
  cases docker with
  | none =>
      obtain ⟨u, stopped, -⟩ := stopDocker_served answers shape false
      have proceeded : served answers (proceed pid false t.shown none) t = (.ok (), u) := by
        unfold proceed
        have nothing : served answers (prepared pid false t.shown none) t = (.ok (), t) := rfl
        rw [served_bind nothing]
        exact stopped
      refine ⟨u, ?_⟩
      rw [shape.inactive.1, if_neg (by simp), show (some "inactive" == some "active") = false from rfl,
        served_bind (served_attempt (prepare_idle_served t))]
      dsimp only
      rw [served_bind (served_attempt proceeded)]
      rfl
  | some d =>
      obtain ⟨main, live⟩ := d
      rw [shape.active.1, if_neg (by simp), show (some "active" == some "active") = true from rfl]
      cases live with
      | false =>
          obtain ⟨u, proceeded⟩ := proceed_plain_served answers shape.active.2 shape
          refine ⟨u, ?_⟩
          rw [served_bind (served_attempt (prepare_plain_served disabled shape))]
          dsimp only
          rw [served_bind (served_attempt proceeded)]
          rfl
      | true =>
          obtain ⟨u, metadata, preparedOk, held⟩ := prepare_live_served answers disabled shape
          obtain ⟨v, proceeded, put⟩ := proceed_live_served answers metadata (signalled _ rfl) disabled
            shape.active.2 held
          obtain ⟨w, restored⟩ := restore_served answers ⟨config, metadata, temporary⟩ disabled put
          refine ⟨w, ?_⟩
          rw [served_bind (served_attempt preparedOk)]
          dsimp only
          rw [served_bind (served_attempt proceeded)]
          exact restored

end Served

/-! ## Others who write what is accepted -/

/-- Others write what `disabled_config` accepts, at any moment. -/
def anyone : Writers where
  allowed := fun _ data => ∃ temporary, disabledConfig data = .ok temporary
  atomic := False

/-- Both files are accepted, or missing in the case of the backup. -/
structure Accepted (v : View) : Prop where
  config : ∃ data temporary, v.config = some data ∧ disabledConfig data = .ok temporary
  backup : ∀ data, v.backup = some data → ∃ temporary, disabledConfig data = .ok temporary

theorem accepted_protocol : Protocol anyone Accepted Accepted where
  written := fun v data accepted ⟨temporary, disabled⟩ =>
    ⟨⟨data, temporary, rfl, disabled⟩, accepted.backup⟩
  resting := fun v data accepted ⟨temporary, disabled⟩ =>
    ⟨⟨data, temporary, rfl, disabled⟩, accepted.backup⟩
  note := fun v data accepted _ _ => ⟨accepted.config, accepted.backup⟩
  publish := by
    intro v data temporary accepted _ _ disabled
    refine ⟨accepted.config, fun original backup => ⟨temporary, ?_⟩⟩
    rw [← Option.some.inj backup]
    exact disabled
  disable := fun v data temporary accepted _ disabled _ =>
    ⟨⟨temporary, temporary, rfl, disabledConfig_again disabled⟩, accepted.backup⟩
  restore := fun v data temporary accepted _ disabled _ =>
    ⟨⟨data, temporary, rfl, disabled⟩, accepted.backup⟩
  settled := fun v data accepted _ _ => accepted
  kept := fun v accepted => accepted
  remove := fun v accepted => ⟨accepted.config, fun data impossible => by cases impossible⟩

/-! ## The next stop -/

/-- Docker is up, with a daemon whose pid can be signalled, or inactive. -/
def Answering (s : Host) : Prop :=
  ∃ docker, Up s.service docker ∧ Signalled docker

/-- The configuration is what the backup is of, or its disabled version. -/
def Recoverable (s : Host) : Prop :=
  ∀ b, s.files .backup = some b → ∃ f, s.files .config = some f ∧
    (f.data = b.data ∨ disabledConfig b.data = .ok f.data)

section NextStop

variable {answers : Answers} {s : Host} {pid : Nat}

theorem shutdown_recoverable (accepted : Accepted (Edited.view ⟨s, [], [], none⟩))
    (free : Free pid s) (answering : Answering s) (recoverable : Recoverable s) :
    ∃ t, served answers (shutdown pid) s = (.ok (), t) := by
  obtain ⟨docker, up, signalled⟩ := answering
  obtain ⟨data, temporary, config, disabled⟩ := accepted.config
  have shape : Shape pid docker (some data) ((s.files .backup).map File.data) s :=
    ⟨free, config, rfl, up⟩
  have known : ∀ original, (s.files .backup).map File.data = some original → ∃ temporary,
      disabledConfig original = .ok temporary ∧ (data = original ∨ data = temporary) := by
    intro original backup
    obtain ⟨temporary, disabledBackup⟩ := accepted.backup original backup
    obtain ⟨b, backed, rfl⟩ := Option.map_eq_some_iff.1 backup
    obtain ⟨f, there, equal⟩ := recoverable b backed
    have is : f.data = data := by
      have same : (s.files .config).map File.data = some data := config
      rw [there] at same
      exact Option.some.inj same
    refine ⟨temporary, disabledBackup, ?_⟩
    rcases equal with original | disabledIs
    · exact .inl (is.symm.trans original)
    · rw [disabledBackup, is] at disabledIs
      exact .inr (Except.ok.inj disabledIs).symm
  obtain ⟨t, recovered, ready⟩ := recoverBackup_served answers signalled disabled shape known
  exact shutdown_served recovered ready

/-- A backup of something else is refused, and nothing is touched. -/
theorem shutdown_refuses (accepted : Accepted (Edited.view ⟨s, [], [], none⟩))
    (refused : ¬ Recoverable s) :
    ∃ failure, served answers (shutdown pid) s = (.error failure, s) := by
  simp only [Recoverable, not_forall] at refused
  obtain ⟨b, backed, other⟩ := refused
  have backup : (s.files .backup).map File.data = some b.data := by rw [backed, Option.map_some]
  obtain ⟨temporary, disabled⟩ := accepted.backup b.data backup
  have read := @readFile_served answers s .backup b backed (disabledConfig_length disabled)
  have computed : served answers (Fallible.ofExcept (disabledConfig b.data)) s =
      (.ok temporary, s) := by
    rw [disabled]
    rfl
  have notOriginal : (s.files .config).map File.data ≠ some b.data := by
    intro same
    obtain ⟨f, there, equal⟩ := Option.map_eq_some_iff.1 same
    exact other ⟨f, there, .inl equal⟩
  have notDisabled : (s.files .config).map File.data ≠ some temporary := by
    intro same
    obtain ⟨f, there, rfl⟩ := Option.map_eq_some_iff.1 same
    exact other ⟨f, there, .inr disabled⟩
  obtain ⟨failure, stands⟩ := @restoreFile_refused answers s pid b.metadata b.data temporary
    notOriginal notDisabled
  refine ⟨failure, ?_⟩
  have failed : served answers (recoverBackup pid) s = (.error failure, s) := by
    unfold recoverBackup
    rw [served_bind (backupPresent_served s), backed]
    dsimp only [Option.isSome]
    rw [served_bind read]
    unfold recoverFrom
    rw [served_bind computed]
    exact served_fails stands
  unfold shutdown
  exact served_fails failed

end NextStop

/-- **The next stop.**  After any number of runs, whatever fails and wherever they are
killed, with others writing what is accepted at any moment: on a host where Docker is up or
inactive and everything succeeds, the next run returns `Ok` exactly if there is no backup,
or `daemon.json` is what the backup is of or its disabled version.  Otherwise it leaves
everything as it is. -/
theorem next_shutdown_returns_iff {start finish : EditMachine anyone} {pid : Nat} {f : File}
    {temporary : Bytes} (answers : Answers) (idle : start.running = none)
    (config : start.state.host.files .config = some f)
    (disabled : disabledConfig f.data = .ok temporary)
    (backup : start.state.host.files .backup = none) (runs : EditReaches anyone start finish)
    (answering : Answering finish.state.host) (free : Free pid finish.state.host) :
    ((served answers (shutdown pid) finish.state.host).1 = .ok () ↔
        Recoverable finish.state.host) ∧
      (¬ Recoverable finish.state.host →
        (served answers (shutdown pid) finish.state.host).2 = finish.state.host) := by
  have accepted : Accepted start.state.view := by
    refine ⟨⟨f.data, temporary, ?_, disabled⟩, ?_⟩
    · simp only [Edited.view, config, Option.map_some]
    · intro data backed
      simp [Edited.view, backup] at backed
  have after : Accepted finish.state.view := reaches_protocol accepted_protocol idle accepted runs
  have accepted' : Accepted (Edited.view ⟨finish.state.host, [], [], none⟩) :=
    ⟨after.config, after.backup⟩
  have refuses : ¬ Recoverable finish.state.host → ∃ failure,
      served answers (shutdown pid) finish.state.host = (.error failure, finish.state.host) :=
    fun refused => shutdown_refuses accepted' refused
  refine ⟨⟨fun returned => ?_, fun recoverable => ?_⟩, fun refused => ?_⟩
  · by_contra refused
    obtain ⟨failure, stands⟩ := refuses refused
    rw [stands] at returned
    cases returned
  · obtain ⟨t, returns⟩ := @shutdown_recoverable answers _ pid accepted' free answering recoverable
    rw [returns]
  · obtain ⟨failure, stands⟩ := refuses refused
    rw [stands]

/-! ## Two next stops -/

def plainAnswers : Answers where
  stream := fun live =>
    ascii ("HTTP/1.1 200 OK\r\n\r\n\x7b\"LiveRestoreEnabled\":" ++ (if live then "true" else "false") ++
      "\x7d")
  reads := fun live => by cases live <;> decide
  polls := 0
  missing := "No such file or directory"

/-- Where comparisons and renames are two steps, whatever a host does it also does with other
writers about. -/
theorem step_edited {writers : Writers} (apart : ¬ writers.atomic)
    {first last : Program Requests (Except Failure Unit) × (host False).State}
    (step : (host False).Step first last) (e : Edited) (same : e.host = first.2) :
    ∃ e', e'.host = last.2 ∧ (edited writers).Step (first.1, e) (last.1, e') := by
  cases step with
  | @call request next s t reply performed =>
      have same : e.host = s := same
      subst same
      refine ⟨⟨t, e.last, e.noted request reply, e.seen request⟩, rfl, ?_⟩
      exact .call ⟨performed, fun atomic => absurd atomic apart, rfl⟩
  | @env program s t moves =>
      have same : e.host = s := same
      subst same
      exact ⟨{ e with host := t }, rfl, .env (.drift moves)⟩

theorem leads_edited {writers : Writers} (apart : ¬ writers.atomic)
    {first last : Program Requests (Except Failure Unit) × Host}
    (leads : (host False).Leads first last) (e : Edited) (same : e.host = first.2) :
    ∃ e', e'.host = last.2 ∧ (edited writers).Leads (first.1, e) (last.1, e') := by
  induction leads with
  | refl => exact ⟨e, same, .refl⟩
  | tail _ step ih =>
      obtain ⟨e', there, before⟩ := ih
      obtain ⟨e'', behind, moved⟩ := step_edited apart step e' there
      exact ⟨e'', behind, before.tail moved⟩

/-- A run with others about is killed behind `replace_file`. -/
theorem interrupted_edited : ∃ e : Edited, e.host = interruptedHost ∧
    EditReaches anyone ⟨enabledStart, none⟩ ⟨e, none⟩ := by
  have disabled : disabledConfig enabledFile.data = .ok disabledFile.data := by decide
  obtain ⟨rest, leads⟩ := @shutdown_leads False enabledHost 1 rfl rfl enabledFile rfl (by decide)
    disabledFile.data _ disabled (plainAnswers.reads true) _ rfl rfl rfl
  obtain ⟨e, there, edits⟩ := @leads_edited anyone (fun atomic => atomic) _ _ leads
    enabledStart rfl
  exact ⟨e, there, System.Leads.killed edits⟩

theorem interrupted_answering : Answering interruptedHost :=
  ⟨some (42, true), ⟨false, rfl⟩, fun d is => by cases is; decide⟩

/-- The next stop puts back what a killed run has left. -/
theorem next_shutdown_returns_interrupted :
    (served plainAnswers (shutdown 2) interruptedHost).1 = .ok () := by
  obtain ⟨e, there, runs⟩ := interrupted_edited
  have result := @next_shutdown_returns_iff ⟨enabledStart, none⟩ ⟨e, none⟩ 2 enabledFile
    disabledFile.data plainAnswers rfl rfl (by decide) rfl runs (there ▸ interrupted_answering)
    (there ▸ ⟨0, by decide, rfl⟩)
  dsimp only at result
  rw [there] at result
  refine result.1.2 fun b backed => ⟨disabledFile, rfl, .inr ?_⟩
  have is : enabledFile = b := Option.some.inj backed
  rw [← is]
  decide

/-- ... and then someone writes a configuration of their own. -/
def refusedHost : Host :=
  interruptedHost.put .config (some debugFile)

theorem debugFile_accepted : disabledConfig debugFile.data =
    .ok (ascii "\x7b\"debug\": true,\"live-restore\":false\x7d") := by
  decide

/-- **Not every next stop can succeed.**  An edit behind an interrupted run is kept, and
every later run refuses it. -/
theorem edited_backup_refused : ∃ e : Edited, e.host = refusedHost ∧
    EditReaches anyone ⟨enabledStart, none⟩ ⟨e, none⟩ ∧ Answering refusedHost ∧
    Free 2 refusedHost ∧
    ∃ failure, served plainAnswers (shutdown 2) refusedHost = (.error failure, refusedHost) := by
  obtain ⟨e, there, runs⟩ := interrupted_edited
  have accepted : Accepted (Edited.view ⟨refusedHost, [], [], none⟩) := by
    refine ⟨⟨debugFile.data, _, rfl, debugFile_accepted⟩, ?_⟩
    intro data backed
    have is : enabledFile.data = data := Option.some.inj backed
    exact ⟨disabledFile.data, by rw [← is]; decide⟩
  have refused : ¬ Recoverable refusedHost := by
    intro recoverable
    obtain ⟨f, found, equal⟩ := recoverable enabledFile rfl
    have is : debugFile = f := Option.some.inj found
    subst is
    exact absurd equal (by decide)
  refine ⟨{ e with host := refusedHost, last := debugFile.data }, rfl, ?_, interrupted_answering,
    ⟨0, by decide, rfl⟩, shutdown_refuses accepted refused⟩
  refine runs.tail (.env ?_)
  have written := @Edited.Elsewhere.write anyone e debugFile ⟨_, debugFile_accepted⟩
  rw [there] at written
  exact written

end Luhmen.Guest.Shutdown
