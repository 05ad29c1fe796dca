/-
# Host.StartAdmission -- what `create` admits and what a start admits

Both ends weigh a microVM against the parent VM: `execute` before it sends `create`, by
the saved configuration, and the manager's `checkStartResources` at every start, by what
the guest finds.  `admitted_starts_iff` compares them where the guest finds just what is
configured and nothing runs: the start also asks for the memory of the VMM.
-/
import Luhmen.Host.Creation
import Luhmen.Host.MicrovmRequest
import Luhmen.Manager.Admission
import Luhmen.Theory.Outcome

namespace Luhmen.Host.Microvm

open Luhmen.Theory Luhmen.Manager

set_option autoImplicit false

/-- The command line writes numbers in decimal. -/
theorem bytes_toString (n : Nat) : bytes (toString n) = decimal n := by
  have digits : (toString n).toList = Nat.toDigits 10 n := Nat.toList_repr
  have encoded : ∀ text : List Char, (∀ c ∈ text, c.isDigit = true) →
      Utf8.encode text = text.map fun c => UInt8.ofNat c.toNat := by
    intro text
    induction text with
    | nil => exact fun _ => rfl
    | cons c rest ih =>
      intro all
      have range := (Theory.digit_byte (all c List.mem_cons_self)).2
      rw [Utf8.encode, List.flatMap_cons, Utf8.utf8EncodeChar_ascii (by omega), List.map_cons,
        ← ih fun c member => all c (List.mem_cons_of_mem _ member)]
      rfl
  rw [bytes, digits, encoded _ fun c => isDigit_of_mem_toDigits]
  rfl

/-- The check of a start of the microVM that a command creates. -/
def startCheck (action : MicrovmAction) : Shell Unit :=
  checkStartResources action.fields.vcpus action.fields.memoryMib

/-- How the check can end. -/
def Ends (action : MicrovmAction) (w : World) (result : Except Exit Unit) : Prop :=
  ∃ t, (parentVm idle).Leads ((startCheck action).run, w) (.done result, t)

variable {config : Config} {id kernel rootfs : String} {vcpus memoryMib : Nat} {w : World}

theorem startCheck_create : startCheck (.create id kernel rootfs vcpus memoryMib) =
    checkStartResources (decimal vcpus) (decimal memoryMib) := by
  rw [← bytes_toString, ← bytes_toString]
  rfl

theorem sizes_of_check (accepted :
    (MicrovmAction.create id kernel rootfs vcpus memoryMib).check config = .ok ()) :
    vcpus ≤ config.cpus ∧ memoryMib + 512 ≤ config.memoryGib * 1024 := by
  obtain ⟨_, _, afterId⟩ := bind_eq_ok accepted
  obtain ⟨_, _, afterKernel⟩ := bind_eq_ok afterId
  obtain ⟨_, _, afterRootfs⟩ := bind_eq_ok afterKernel
  dsimp only at afterRootfs
  split at afterRootfs
  · cases afterRootfs
  split at afterRootfs
  · cases afterRootfs
  split at afterRootfs
  · cases afterRootfs
  rename_i cpus
  split at afterRootfs
  · cases afterRootfs
  rename_i memory
  exact ⟨Nat.le_of_not_lt cpus, Nat.le_of_not_lt memory⟩

theorem validateSchema_sizes (valid : config.validateSchema = .ok ()) :
    1 ≤ config.cpus ∧ 2 ≤ config.memoryGib := by
  unfold Config.validateSchema at valid
  split_ifs at valid with _ cpus memory
  exact ⟨cpus.1, memory.1⟩

/-- **Admission at both ends.**  A microVM that `create` lets through passes the check of a
start exactly where the parent VM also has the 128 MiB of the VMM. -/
theorem admitted_starts_iff (valid : config.validateSchema = .ok ())
    (accepted : (MicrovmAction.create id kernel rootfs vcpus memoryMib).check config = .ok ())
    (cpus : w.cpus = config.cpus) (memory : w.memory = config.memoryGib * 1024) (isIdle : w.Idle) :
    (∃ result, Ends (.create id kernel rootfs vcpus memoryMib) w result) ∧
    ∀ result, Ends (.create id kernel rootfs vcpus memoryMib) w result →
      (result = .ok () ↔
        memoryMib + VMM_MEMORY_MIB + MEMORY_RESERVE_MIB ≤ config.memoryGib * 1024) := by
  obtain ⟨someCpus, someMemory⟩ := validateSchema_sizes valid
  obtain ⟨cpusFit, _⟩ := sizes_of_check accepted
  unfold Ends
  rw [startCheck_create]
  obtain ⟨ends, passes⟩ := Idle.checkStartResources_iff (show 1 ≤ w.cpus by omega)
    (show 1 ≤ w.memory by omega) isIdle
  refine ⟨ends, fun result ⟨t, leads⟩ => (passes result t leads).trans ?_⟩
  rw [Idle.Fits, cpus, memory]
  exact and_iff_right cpusFit

/-- 3500 MiB in a parent VM of 4 GiB. -/
theorem admitted_does_not_start :
    ¬ ∀ (config : Config) (id kernel rootfs : String) (vcpus memoryMib : Nat) (w : World),
      config.validateSchema = .ok () →
      (MicrovmAction.create id kernel rootfs vcpus memoryMib).check config = .ok () →
      w.cpus = config.cpus → w.memory = config.memoryGib * 1024 → w.Idle →
      ∀ result, Ends (.create id kernel rootfs vcpus memoryMib) w result → result = .ok () := by
  intro all
  have tooLarge : ∀ config memoryMib, config.validateSchema = .ok () →
      (MicrovmAction.create "a" "/kernel" "/rootfs" 1 memoryMib).check config = .ok () →
      (World.fresh config.cpus (config.memoryGib * 1024)).Idle →
      config.memoryGib * 1024 < memoryMib + VMM_MEMORY_MIB + MEMORY_RESERVE_MIB → False := by
    intro config memoryMib valid accepted isIdle exceeds
    obtain ⟨someCpus, someMemory⟩ := validateSchema_sizes valid
    obtain ⟨⟨result, t, leads⟩, passes⟩ := @Idle.checkStartResources_iff 1 memoryMib
      (World.fresh config.cpus (config.memoryGib * 1024)) someCpus
      (show 1 ≤ config.memoryGib * 1024 by omega) isIdle
    have passed := all config "a" "/kernel" "/rootfs" 1 memoryMib _ valid accepted rfl rfl isIdle
      result ⟨t, startCheck_create ▸ leads⟩
    exact absurd ((passes result t leads).1 passed).2 (Nat.not_le_of_lt exceeds)
  exact tooLarge ⟨1, 4, 4, 20, [], false⟩ 3500 (by decide) (by decide +kernel)
    (fun _ _ there => nomatch there) (by decide)

/-- 3456 MiB there. -/
theorem admitted_starts_at_bound : ∃ result,
    Ends (.create "a" "/kernel" "/rootfs" 1 3456) (World.fresh 4 4096) result ∧ result = .ok () := by
  have starts : ∀ (config : Config) (w : World) memoryMib, config.validateSchema = .ok () →
      (MicrovmAction.create "a" "/kernel" "/rootfs" 1 memoryMib).check config = .ok () →
      w.cpus = config.cpus → w.memory = config.memoryGib * 1024 → w.Idle →
      memoryMib + VMM_MEMORY_MIB + MEMORY_RESERVE_MIB ≤ config.memoryGib * 1024 →
      ∃ result, Ends (.create "a" "/kernel" "/rootfs" 1 memoryMib) w result ∧ result = .ok () := by
    intro config w memoryMib valid accepted cpus memory isIdle fits
    obtain ⟨⟨result, ends⟩, starts⟩ := admitted_starts_iff valid accepted cpus memory isIdle
    exact ⟨result, ends, (starts result ends).2 fits⟩
  exact starts ⟨1, 4, 4, 20, [], false⟩ (World.fresh 4 4096) 3456 (by decide) (by decide +kernel) rfl
    rfl (fun _ _ there => nomatch there) (by decide)

end Luhmen.Host.Microvm
