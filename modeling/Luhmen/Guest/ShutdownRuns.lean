/-
# Guest.ShutdownRuns -- runs of shutdown in which nothing fails

What the functions of `Guest.Shutdown` do when every call they make succeeds: a
replaced file has the data it was given with the owner and mode it was given, a
saved backup is a second file with the original's data, and a run that finds a
stopped Docker returns without touching a file.
-/
import Luhmen.Guest.Shutdown

namespace Luhmen.Guest.Shutdown

open Luhmen.Theory hiding fail
open Run

set_option autoImplicit false

namespace Host

@[simp] theorem put_files (s : Host) (path other : Path) (file : Option File) :
    (s.put path file).files other = if other = path then file else s.files other := rfl

theorem put_self (s : Host) (path : Path) (file : Option File) :
    (s.put path file).files path = file :=
  if_pos rfl

@[simp] theorem put_put (s : Host) (path : Path) (first second : Option File) :
    (s.put path first).put path second = s.put path second := by
  simp only [put, Host.mk.injEq, and_true]
  funext other
  split <;> rfl

@[simp] theorem put_same (s : Host) (path : Path) : s.put path (s.files path) = s := by
  simp only [put]
  congr
  funext other
  split
  · rename_i same
    rw [same]
  · rfl

theorem put_comm (s : Host) {path other : Path} (apart : path ≠ other) (first second : Option File) :
    (s.put path first).put other second = (s.put other second).put path first := by
  simp only [put, Host.mk.injEq, and_true]
  funext x
  split
  · rename_i same
    rw [if_neg fun h => apart (h.symm.trans same)]
  · rfl

end Host

/-- The file `fill_temporary` leaves. -/
def filled (data : Bytes) (metadata : Metadata) : File :=
  ⟨data, metadata.uid, metadata.gid, Fin.ofNat _ (metadata.mode &&& 0o7777)⟩

theorem filled_metadata (data : Bytes) (f : File) :
    filled data f.metadata = { f with data := data } := by
  have mode : (0o100000 + (f.permissions : Nat)) &&& 0o7777 = f.permissions := by
    rw [show (0o7777 : Nat) = 2 ^ 12 - 1 from rfl, Nat.and_two_pow_sub_one_eq_mod]
    have := f.permissions.isLt
    omega
  simp only [filled, File.metadata, mode, File.mk.injEq, true_and]
  apply Fin.ext
  exact Nat.mod_eq_of_lt f.permissions.isLt

variable {honest : Prop}

theorem performs (request : Request) (reply : Reply request) {s t : Host}
    (performed : Host.exec honest request s reply t) :
    (host honest).Returns (@Fallible.perform Failure Requests request) s reply t :=
  @System.Returns.perform Requests (host honest) Failure request s t reply performed

theorem orFail_returns {α : Type} (value : α) (s : Host) :
    (host honest).Returns (orFail (.ok value) : Run α) s value s :=
  .pure

/-- `?` behind a request that succeeds. -/
theorem demand_returns {α β : Type} {block : Run (Except String α)} {rest : α → Run β}
    {s t u : Host} {middle : α} {value : β} (first : (host honest).Returns block s (.ok middle) t)
    (second : (host honest).Returns (rest middle) t value u) :
    (host honest).Returns (block >>= fun outcome => orFail outcome >>= rest) s value u :=
  first.bind ((orFail_returns middle t).bind second)

theorem demand_last_returns {α : Type} {block : Run (Except String α)} {s t : Host} {value : α}
    (first : (host honest).Returns block s (.ok value) t) :
    (host honest).Returns (block >>= fun outcome => orFail outcome) s value t :=
  first.bind (orFail_returns value t)

/-- A temporary file is created under the first free name, and gets all it is given. -/
theorem writeTemporary_returns {s : Host} {pid : Nat} (free : s.files (.temporary pid 0) = none)
    (data : Bytes) (metadata : Metadata) :
    (host honest).Returns (writeTemporary pid data metadata) s (.temporary pid 0)
      (s.put (.temporary pid 0) (some (filled data metadata))) := by
  have created : (host honest).Returns (createTemporary pid (List.range 100)) s (.temporary pid 0)
      (s.put (.temporary pid 0) (some ⟨[], 0, 0, 0o600⟩)) := by
    rw [show List.range 100 = 0 :: (List.range 99).map Nat.succ from List.range_succ_eq_map]
    have new : (host honest).Returns (createNew (.temporary pid 0)) s .created
        (s.put (.temporary pid 0) (some ⟨[], 0, 0, 0o600⟩)) :=
      performs (.createNew _) .created ⟨free, rfl⟩
    exact new.bind .pure
  have owned : ∀ f, (host honest).Returns (chown (.temporary pid 0) metadata.uid metadata.gid)
      (s.put (.temporary pid 0) (some f)) (.ok ())
      (s.put (.temporary pid 0) (some { f with uid := metadata.uid, gid := metadata.gid })) :=
    fun f => performs (.chown _ _ _) (.ok ()) (.inr ⟨rfl, f, by simp, by simp⟩)
  have permitted : ∀ f, (host honest).Returns
      (setPermissions (.temporary pid 0) (metadata.mode &&& 0o7777))
      (s.put (.temporary pid 0) (some f)) (.ok ())
      (s.put (.temporary pid 0)
        (some { f with permissions := Fin.ofNat _ (metadata.mode &&& 0o7777) })) :=
    fun f => performs (.setPermissions _ _) (.ok ()) (.inr ⟨rfl, f, by simp, by simp⟩)
  have written : ∀ f, (host honest).Returns (writeAll (.temporary pid 0) data)
      (s.put (.temporary pid 0) (some f)) (.ok ())
      (s.put (.temporary pid 0) (some { f with data := data })) :=
    fun f => performs (.writeAll _ _) (.ok ()) ⟨f, data, by simp, by simp, fun _ => rfl⟩
  have synced : ∀ t, (host honest).Returns (syncAll (.temporary pid 0)) t (.ok ()) t :=
    fun t => performs (.syncAll _) (.ok ()) rfl
  have fills : (host honest).Returns (fillTemporary (.temporary pid 0) data metadata)
      (s.put (.temporary pid 0) (some ⟨[], 0, 0, 0o600⟩)) ()
      (s.put (.temporary pid 0) (some (filled data metadata))) :=
    demand_returns (owned _) (demand_returns (permitted _) (demand_returns (written _)
      (demand_last_returns (synced _))))
  exact created.bind (.bind (.attempt fills) .pure)

theorem readFile_returns {s : Host} {path : Path} {f : File} (there : s.files path = some f)
    (short : f.data.length ≤ limit) :
    (host honest).Returns (readFile path) s (f.data, f.metadata) s := by
  have reads : (host honest).Returns (Run.read path) s (.ok (f.data, f.metadata)) s := by
    refine performs (.read _) (.ok (f.data, f.metadata)) ⟨rfl, fun content is => ⟨f, there, ?_⟩⟩
    exact (Except.ok.inj is).symm
  refine demand_returns reads ?_
  dsimp only
  rw [if_neg (Nat.not_lt.mpr short)]
  exact .pure

/-- A backup is published where there is none. -/
theorem saveBackup_returns {s : Host} {pid : Nat} (free : s.files (.temporary pid 0) = none)
    (absent : s.files .backup = none) (original : Bytes) (metadata : Metadata) :
    (host honest).Returns (saveBackup pid .backup original metadata) s ()
      (s.put .backup (some (filled original metadata))) := by
  have linked : (host honest).Returns (hardLink (.temporary pid 0) .backup)
      (s.put (.temporary pid 0) (some (filled original metadata))) (.ok ())
      ((s.put (.temporary pid 0) (some (filled original metadata))).put .backup
        (some (filled original metadata))) :=
    performs (.hardLink _ _) (.ok ()) (.inr ⟨rfl, by simpa using absent, _, by simp, rfl⟩)
  have synced : ∀ t, (host honest).Returns syncDirectory t (.ok ()) t :=
    fun t => performs .syncDirectory (.ok ()) rfl
  have removed : (host honest).Returns (removeFile (.temporary pid 0))
      ((s.put (.temporary pid 0) (some (filled original metadata))).put .backup
        (some (filled original metadata))) (.ok ())
      (s.put .backup (some (filled original metadata))) := by
    refine performs (.removeFile _) (.ok ()) (.inr ⟨rfl, by simp, ?_⟩)
    rw [Host.put_comm s (by simp), Host.put_put]
    have same := (s.put .backup (some (filled original metadata))).put_same (.temporary pid 0)
    simpa [free] using same.symm
  exact (writeTemporary_returns free original metadata).bind (.bind (.attempt
    (demand_returns linked (demand_last_returns (synced _)))) (removed.bind (orFail_returns _ _)))

/-- A file with the expected bytes is replaced. -/
theorem replaceFile_returns {s : Host} {pid : Nat} (free : s.files (.temporary pid 0) = none)
    {f : File} (there : s.files .config = some f) (short : f.data.length ≤ limit) (data : Bytes)
    (metadata : Metadata) :
    (host honest).Returns (replaceFile pid .config data metadata f.data) s ()
      (s.put .config (some (filled data metadata))) := by
  have reads := @readFile_returns honest
    (s.put (.temporary pid 0) (some (filled data metadata))) .config f (by simpa using there) short
  have emptied : ((s.put (.temporary pid 0) (some (filled data metadata))).put .config
      (some (filled data metadata))).put (.temporary pid 0) none =
      s.put .config (some (filled data metadata)) := by
    rw [Host.put_comm s (by simp), Host.put_put]
    have same := (s.put .config (some (filled data metadata))).put_same (.temporary pid 0)
    simpa [free] using same
  have renamed : (host honest).Returns (rename (.temporary pid 0) .config)
      (s.put (.temporary pid 0) (some (filled data metadata))) (.ok ())
      (s.put .config (some (filled data metadata))) := by
    refine performs (.rename _ _) (.ok ()) (.inr ⟨rfl, filled data metadata, by simp, ?_⟩)
    exact emptied.symm
  have synced : ∀ t, (host honest).Returns syncDirectory t (.ok ()) t :=
    fun t => performs .syncDirectory (.ok ()) rfl
  have gone : ∀ t, (host honest).Returns (discard (.temporary pid 0)) t () t :=
    fun t => .bind (performs (.exist _) false ⟨rfl, by simp⟩) .pure
  have published : (host honest).Returns (publish (.temporary pid 0) .config f.data)
      (s.put (.temporary pid 0) (some (filled data metadata))) ()
      (s.put .config (some (filled data metadata))) := by
    refine reads.bind ?_
    dsimp only
    rw [if_neg fun different => different rfl]
    exact demand_returns renamed (demand_last_returns (synced _))
  exact (writeTemporary_returns free data metadata).bind (.bind (.attempt published)
    ((gone _).bind (orFail_returns _ _)))

/-- The preparation of a run: the backup is saved, and `daemon.json` disabled. -/
theorem prepare_returns {s : Host} {pid : Nat} (free : s.files (.temporary pid 0) = none)
    (absent : s.files .backup = none) {f : File} (there : s.files .config = some f)
    (short : f.data.length ≤ limit) {temporary stream : Bytes}
    (disabled : disabledConfig f.data = .ok temporary) (live : Guest.liveRestore stream = .ok true)
    {d : Daemon} (running : s.service.daemon = some d) (flag : d.live = true) :
    (host honest).Returns (prepare pid true) s (some ⟨f.data, f.metadata, temporary⟩)
      ((s.put .backup (some f)).put .config (some { f with data := temporary })) := by
  have asked : (host honest).Returns liveRestore s true s := by
    have answered : (host honest).Returns info s (.ok stream) s := by
      refine performs .info (.ok stream) ⟨rfl, fun stream' b is read => ⟨d, running, ?_⟩⟩
      cases is
      cases live.symm.trans read
      exact flag
    exact demand_returns answered (.ofExcept live)
  have saved := @saveBackup_returns honest s pid free absent f.data f.metadata
  rw [filled_metadata] at saved
  have replaced := @replaceFile_returns honest (s.put .backup (some f)) pid (by simpa using free) f
    (by simpa using there) short temporary f.metadata
  rw [filled_metadata] at replaced
  exact (readFile_returns there short).bind (.bind (.ofExcept disabled)
    (asked.bind (saved.bind (replaced.bind .pure))))

theorem recoverBackup_returns {s : Host} (pid : Nat) (missed : honest → s.files .backup = none) :
    (host honest).Returns (recoverBackup pid) s () s := by
  have probed : (host honest).Returns backupPresent s false s :=
    .bind (performs (.exist _) false ⟨rfl, by simp⟩)
      (performs (.symlinkMetadata _) false ⟨rfl, by simp, fun h _ => missed h⟩)
  exact probed.bind .pure

theorem serviceState_returns (s : Host) : (host honest).Returns serviceState s s.shown s :=
  demand_last_returns (performs .showService (.ok s.shown)
    ⟨rfl, fun _ is => (Except.ok.inj is).symm⟩)

theorem shown_label (s : Host) : s.shown.lookup "ActiveState" = some s.service.label := rfl

/-- A run that sees no backup and a stopped Docker returns, whatever the files are. -/
theorem shutdown_returns {s : Host} (pid : Nat) (stopped : s.service = .stopped false)
    (missed : honest → s.files .backup = none) :
    (host honest).Returns (shutdown pid) s () { s with socket := "inactive" } := by
  have label : s.shown.lookup "ActiveState" = some "inactive" := by
    rw [shown_label, stopped]
    rfl
  have proceeds : (host honest).Returns (proceed pid false s.shown none) s ()
      { s with socket := "inactive" } := by
    have units : (host honest).Returns stopUnits s (.ok ()) { s with socket := "inactive" } :=
      performs .stopUnits (.ok ()) ⟨rfl, .inl rfl⟩
    have closed : (host honest).Returns socketState { s with socket := "inactive" }
        (.ok "inactive") { s with socket := "inactive" } :=
      performs .socketState (.ok "inactive") ⟨rfl, fun state is => (Except.ok.inj is).symm⟩
    refine .bind .pure (demand_returns units ((serviceState_returns _).bind (demand_returns closed ?_)))
    have same : Host.shown { s with socket := "inactive" } = s.shown := rfl
    rw [same, label, if_neg (by simp), if_neg (by simp)]
    exact .bind (performs .dockerShimsRemain false rfl) .pure
  refine (recoverBackup_returns pid missed).bind ((serviceState_returns s).bind ?_)
  dsimp only
  rw [label, if_neg (by simp)]
  refine .bind (.attempt (.pure : (host honest).Returns (prepare pid false) s none s)) ?_
  exact .bind (.attempt proceeds) (orFail_returns _ _)

/-- A run with a daemon that has live restore on gets to where the backup is saved,
`daemon.json` disabled, and the daemon not told. -/
theorem shutdown_leads {s : Host} (pid : Nat) (free : s.files (.temporary pid 0) = none)
    (absent : s.files .backup = none) {f : File} (there : s.files .config = some f)
    (short : f.data.length ≤ limit) {temporary stream : Bytes}
    (disabled : disabledConfig f.data = .ok temporary) (live : Guest.liveRestore stream = .ok true)
    {d : Daemon} (running : s.service.daemon = some d) (flag : d.live = true)
    (active : s.service.label = "active") :
    ∃ rest, (host honest).Leads ((shutdown pid).run, s)
      (rest, (s.put .backup (some f)).put .config (some { f with data := temporary })) := by
  have prepared := @prepare_returns honest s pid free absent f there short temporary stream disabled
    live d running flag
  refine Exists.imp (fun rest leads => (recoverBackup_returns pid fun _ => absent).leads.trans
    ((serviceState_returns s).leads.trans leads)) ?_
  dsimp only
  rw [shown_label, active, if_neg (by simp)]
  exact ⟨_, prepared.attempt.leads⟩

end Luhmen.Guest.Shutdown
