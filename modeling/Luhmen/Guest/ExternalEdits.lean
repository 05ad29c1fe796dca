/-
# Guest.ExternalEdits -- what others wrote is not lost

Others may put another `daemon.json` in place at any moment, except between a
comparison and its rename, and never with the disabled version of something the helper
has taken for an original.  Then `Kept` is an invariant of every protocol move: what
they wrote last is the configuration, or it is in the backup and the configuration is
its disabled version.

The move that could lose an edit is the restoration, which overwrites a file that
equals the disabled version.  `Traced` says why it does not: the backup is of a noted
original, and no noted original but the last edit itself has the last edit for its
disabled version.
-/
import Luhmen.Guest.EditedConfig

namespace Luhmen.Guest.Shutdown

open Luhmen.Theory hiding fail

set_option autoImplicit false

/-- Others who never write the disabled version of an earlier original. -/
def others : Writers where
  allowed := fun originals data => ∀ original ∈ originals, disabledConfig original ≠ .ok data
  atomic := True

/-- What others wrote last is in place, or backed up with its disabled version in place. -/
def KeptEdit (v : View) : Prop :=
  v.config = some v.last ∨
    v.backup = some v.last ∧ ∃ temporary, disabledConfig v.last = .ok temporary ∧
      v.config = some temporary

structure Traced (v : View) : Prop where
  kept : KeptEdit v
  backup : ∀ original, v.backup = some original → original ∈ v.originals
  fresh : ∀ original ∈ v.originals, disabledConfig original = .ok v.last → original = v.last

/-- The backup is no longer needed once the last edit is in place. -/
def InPlace (v : View) : Prop :=
  Traced v ∧ v.config = some v.last

section Moves

variable {v : View} {data temporary : Bytes}

theorem traced_write (traced : Traced v) (allowed : others.allowed v.originals data) :
    Traced (v.write data) where
  kept := .inl rfl
  backup := traced.backup
  fresh := fun original noted same => absurd same (allowed original noted)

/-- Without a backup nothing but the last edit can be read. -/
theorem last_of_unbacked (traced : Traced v) (absent : v.backup = none) :
    v.config = some v.last := by
  rcases traced.kept with here | ⟨backup, -⟩
  · exact here
  · exact absurd (absent.symm.trans backup) (by simp)

/-- With a backup, a configuration that equals it is the last edit. -/
theorem last_of_same (traced : Traced v) (backup : v.backup = some data)
    (config : v.config = some data) : data = v.last := by
  rcases traced.kept with here | ⟨saved, -⟩
  · exact Option.some.inj (config.symm.trans here)
  · exact Option.some.inj (backup.symm.trans saved)

theorem traced_note (traced : Traced v) (config : v.config = some data)
    (absent : v.backup = none) : Traced { v with originals := data :: v.originals } where
  kept := traced.kept
  backup := fun original backup => absurd (absent.symm.trans backup) (by simp)
  fresh := by
    intro original noted same
    rcases List.mem_cons.1 noted with rfl | earlier
    · exact Option.some.inj (config.symm.trans (last_of_unbacked traced absent))
    · exact traced.fresh original earlier same

theorem traced_publish (traced : Traced v) (absent : v.backup = none)
    (noted : data ∈ v.originals) : Traced { v with backup := some data } where
  kept := by
    have last := last_of_unbacked traced absent
    exact .inl last
  backup := by
    intro original backup
    rw [← Option.some.inj backup]
    exact noted
  fresh := traced.fresh

theorem traced_disable (traced : Traced v) (backup : v.backup = some data)
    (disabled : disabledConfig data = .ok temporary) (config : v.config = some data) :
    Traced { v with config := some temporary } where
  kept := by
    have last := last_of_same traced backup config
    exact .inr ⟨by rw [backup, last], temporary, by rw [← last]; exact disabled, rfl⟩
  backup := traced.backup
  fresh := traced.fresh

/-- The restoration overwrites only what the helper has put there. -/
theorem traced_restore (traced : Traced v) (backup : v.backup = some data)
    (disabled : disabledConfig data = .ok temporary) (config : v.config = some temporary) :
    Traced { v with config := some data } where
  kept := by
    rcases traced.kept with here | ⟨saved, -⟩
    · have same : temporary = v.last := Option.some.inj (config.symm.trans here)
      have last := traced.fresh data (traced.backup data backup) (same ▸ disabled)
      exact .inl (congrArg some last)
    · exact .inl (backup.symm.trans saved)
  backup := traced.backup
  fresh := traced.fresh

end Moves

theorem edits_protocol : Protocol others Traced InPlace where
  written := fun v data traced allowed => traced_write traced allowed
  resting := fun v data inPlace allowed => ⟨traced_write inPlace.1 allowed, rfl⟩
  note := fun v data traced config absent => traced_note traced config absent
  publish := fun v data temporary traced absent noted _ => traced_publish traced absent noted
  disable := fun v data temporary traced backup disabled same =>
    traced_disable traced backup disabled (same trivial)
  restore := fun v data temporary traced backup disabled same =>
    traced_restore traced backup disabled (same trivial)
  settled := by
    intro v data traced backup config
    rw [last_of_same traced backup config] at config
    exact ⟨traced, config⟩
  kept := fun v inPlace => inPlace.1
  remove := by
    rintro v ⟨traced, config⟩
    exact
      { kept := .inl config
        backup := fun original impossible => by cases impossible
        fresh := traced.fresh }

/-- **No edit is lost.**  At every moment of any number of runs, whatever fails and wherever
they are killed: what others wrote last is `daemon.json`, or it is the backup, and
`daemon.json` is its disabled version. -/
theorem external_edit_not_lost {start finish : EditMachine others} {f : File}
    (idle : start.running = none) (config : start.state.host.files .config = some f)
    (last : start.state.last = f.data) (backup : start.state.host.files .backup = none)
    (first : start.state.originals = []) (runs : EditReaches others start finish) :
    (∃ g, finish.state.host.files .config = some g ∧ g.data = finish.state.last) ∨
      ∃ b g, finish.state.host.files .backup = some b ∧ b.data = finish.state.last ∧
        finish.state.host.files .config = some g ∧
        disabledConfig finish.state.last = .ok g.data := by
  have traced : Traced start.state.view := by
    refine ⟨.inl ?_, ?_, ?_⟩
    · simp only [Edited.view, config, Option.map_some, last]
    · intro original saved
      simp [Edited.view, backup] at saved
    · intro original noted
      simp [Edited.view, first] at noted
  rcases (reaches_protocol edits_protocol idle traced runs).kept with here | ⟨saved, temporary, disabled, here⟩
  · obtain ⟨g, there, is⟩ := Option.map_eq_some_iff.1 here
    exact .inl ⟨g, there, is⟩
  · obtain ⟨b, backed, isBackup⟩ := Option.map_eq_some_iff.1 saved
    obtain ⟨g, there, is⟩ := Option.map_eq_some_iff.1 here
    exact .inr ⟨b, g, backed, isBackup, there, is ▸ disabled⟩

/-! ## An edit during a run -/

def debugFile : File :=
  ⟨ascii "\x7b\"debug\": true\x7d", 0, 0, 0o644⟩

def enabledStart : Edited :=
  ⟨enabledHost, enabledFile.data, [], none⟩

/-- Someone writes another file while the first run looks for a backup, and it is killed. -/
def editedHost : Edited :=
  ⟨enabledHost.put .config (some debugFile), debugFile.data, [], none⟩

theorem edited_reached : EditReaches others ⟨enabledStart, none⟩ ⟨editedHost, none⟩ := by
  have probed : Edited.exec others (.exist .backup) enabledStart false enabledStart :=
    ⟨⟨rfl, fun impossible => by cases impossible⟩, fun _ => trivial, rfl⟩
  have written : Edited.Elsewhere others enabledStart editedHost :=
    .write debugFile fun original noted => absurd noted List.not_mem_nil
  exact (((Relation.ReflTransGen.single (.start 1)).tail (.call probed)).tail
    (.env written)).tail .kill

theorem external_edit_not_lost_written :
    (∃ g, editedHost.host.files .config = some g ∧ g.data = debugFile.data) ∨
      ∃ b g, editedHost.host.files .backup = some b ∧ b.data = debugFile.data ∧
        editedHost.host.files .config = some g ∧ disabledConfig debugFile.data = .ok g.data :=
  @external_edit_not_lost ⟨enabledStart, none⟩ ⟨editedHost, none⟩ enabledFile rfl rfl rfl rfl rfl
    edited_reached

end Luhmen.Guest.Shutdown
