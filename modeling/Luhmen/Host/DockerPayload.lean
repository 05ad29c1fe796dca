/-
# Host.DockerPayload -- the container's own command plays no part

The option loop of `exec`, `run` and `create` ends at the container or image, or at
`--`.  It looks at one argument and, for an option with a value, at whether there is
another one behind it; so where it ends at an argument it never looks past that.
`optionsLoop_agree` says so of any two lists that agree up to there, and
`payload_plays_no_part` of `validate`: two commands for one container get one verdict,
as long as neither spells out a global target option.
-/
import Luhmen.Host.DockerArgs

namespace Luhmen.Host

open Luhmen.Theory Luhmen.Theory.OptionParser

set_option autoImplicit false

section Scan

variable {args other : List Arg} {command : CommandKind} {index consumed : Nat}

theorem requireValue_agree {option : List Char} (ok : requireValue args index option = .ok consumed)
    (inside : index + consumed ≤ other.length) : requireValue other index option = .ok consumed := by
  obtain ⟨_, _, rfl⟩ := requireValue_ok ok
  have there : index + 1 < other.length := by omega
  exact requireValue_some (List.getElem?_eq_getElem there)

theorem shortLetters_agree {letters : List Char}
    (ok : shortLetters args index command letters = .ok consumed)
    (inside : index + consumed ≤ other.length) :
    shortLetters other index command letters = .ok consumed := by
  induction letters with
  | nil => exact ok
  | cons name rest ih =>
      unfold shortLetters at ok ⊢
      split at ok
      · simp [fail] at ok
      · rename_i notHost
        rw [if_neg notHost]
        split at ok
        · simp [fail] at ok
        · rename_i notContext
          rw [if_neg notContext]
          cases kind : shortArity command name with
          | none =>
              rw [kind] at ok
              simp [fail] at ok
          | some arity =>
              rw [kind] at ok
              cases arity with
              | value =>
                  dsimp only at ok ⊢
                  split at ok
                  · rename_i last
                    rw [if_pos last]
                    exact requireValue_agree ok inside
                  · rename_i more
                    rw [if_neg more]
                    exact ok
              | boolean =>
                  dsimp only at ok ⊢
                  split at ok
                  · rename_i inline
                    rw [if_pos inline]
                    exact ok
                  · rename_i going
                    rw [if_neg going]
                    exact ih ok

/-- What an option takes does not depend on what is behind it, if that is there. -/
theorem optionTokens_agree {arg : Arg} (ok : optionTokens args index command arg = .ok consumed)
    (inside : index + consumed ≤ other.length) :
    optionTokens other index command arg = .ok consumed := by
  unfold optionTokens at ok ⊢
  split at ok
  · rename_i isLong
    rw [if_pos isLong]
    cases splits : splitOnce (arg.drop 2) with
    | mk name inline =>
        rw [splits] at ok
        dsimp only at ok ⊢
        cases kind : longOption name command with
        | none =>
            rw [kind] at ok
            simp [fail] at ok
        | some arity =>
            rw [kind] at ok
            cases arity with
            | boolean => exact ok
            | value =>
                dsimp only at ok ⊢
                split at ok
                · rename_i isInline
                  rw [if_pos isInline]
                  exact ok
                · rename_i notInline
                  rw [if_neg notInline]
                  exact requireValue_agree ok inside
  · rename_i isShort
    rw [if_neg isShort]
    exact shortLetters_agree ok inside

theorem shortLetters_pos {letters : List Char}
    (ok : shortLetters args index command letters = .ok consumed) : 0 < consumed := by
  induction letters with
  | nil =>
      obtain rfl := Except.ok.inj ok
      exact Nat.one_pos
  | cons name rest ih =>
      rw [shortLetters] at ok
      split at ok
      · simp [fail] at ok
      · split at ok
        · simp [fail] at ok
        · split at ok
          · simp [fail] at ok
          · split at ok
            · obtain ⟨_, _, rfl⟩ := requireValue_ok ok
              exact Nat.two_pos
            · obtain rfl := Except.ok.inj ok
              exact Nat.one_pos
          · split at ok
            · obtain rfl := Except.ok.inj ok
              exact Nat.one_pos
            · exact ih ok

theorem optionTokens_pos {arg : Arg} (ok : optionTokens args index command arg = .ok consumed) :
    0 < consumed := by
  unfold optionTokens at ok
  split at ok
  · dsimp only at ok
    split at ok
    · simp [fail] at ok
    · obtain rfl := Except.ok.inj ok
      exact Nat.one_pos
    · split at ok
      · obtain rfl := Except.ok.inj ok
        exact Nat.one_pos
      · obtain ⟨_, _, rfl⟩ := requireValue_ok ok
        exact Nat.two_pos
  · exact shortLetters_pos ok

/-- The loop only goes on. -/
theorem optionsLoop_le {fuel stop : Nat} {taken : List Nat}
    (loop : optionsLoop args command fuel index = .ok (taken, stop)) : index ≤ stop := by
  induction fuel generalizing index taken with
  | zero => simp [optionsLoop] at loop
  | succ fuel ih =>
      rw [optionsLoop] at loop
      split at loop
      · obtain ⟨rfl, rfl⟩ := Prod.mk.inj (Except.ok.inj loop)
        exact Nat.le_refl _
      · split at loop
        · obtain ⟨rfl, rfl⟩ := Prod.mk.inj (Except.ok.inj loop)
          exact Nat.le_refl _
        · split at loop
          · simp at loop
          · obtain ⟨⟨rest, stop'⟩, further, shape⟩ := map_eq_ok loop
            obtain ⟨rfl, rfl⟩ := Prod.mk.inj shape
            have behind := ih further
            omega

/-- A loop that ends at an argument ends there in every list that agrees so far. -/
theorem optionsLoop_agree {fuel enough stop : Nat} {taken : List Nat}
    (loop : optionsLoop args command fuel index = .ok (taken, stop)) (ends : stop < args.length)
    (same : ∀ i, i ≤ stop → other[i]? = args[i]?) (fuelled : stop < index + enough) :
    optionsLoop other command enough index = .ok (taken, stop) := by
  induction fuel generalizing index taken enough with
  | zero => simp [optionsLoop] at loop
  | succ fuel ih =>
      have onward := optionsLoop_le loop
      obtain ⟨more, rfl⟩ : ∃ more, enough = more + 1 := ⟨enough - 1, by omega⟩
      rw [optionsLoop] at loop ⊢
      rw [same index onward]
      cases found : args[index]? with
      | none =>
          rw [found] at loop
          obtain ⟨rfl, rfl⟩ := Prod.mk.inj (Except.ok.inj loop)
          exact absurd (List.getElem?_eq_none_iff.1 found) (by omega)
      | some arg =>
          rw [found] at loop
          dsimp only at loop ⊢
          split at loop
          · rename_i stops
            rw [if_pos stops]
            exact loop
          · rename_i going
            rw [if_neg going]
            cases tokens : optionTokens args index command arg with
            | error failure =>
                rw [tokens] at loop
                simp at loop
            | ok consumed =>
                rw [tokens] at loop
                obtain ⟨⟨rest, stop'⟩, further, shape⟩ := map_eq_ok loop
                obtain ⟨rfl, rfl⟩ := Prod.mk.inj shape
                have behind := optionsLoop_le further
                have inside : stop' < other.length := by
                  have there := same stop' (Nat.le_refl _)
                  rw [List.getElem?_eq_getElem ends] at there
                  exact (List.getElem?_eq_some_iff.1 there).1
                have here : optionTokens other index command arg = .ok consumed :=
                  optionTokens_agree tokens (by omega)
                have positive := optionTokens_pos tokens
                rw [here]
                dsimp only
                rw [ih further (by omega)]
                rfl

end Scan

/-- A workload has its command in front, whatever its arguments are. -/
theorem Workload.replace {command : CommandKind} {lead options : List Arg}
    (workload : Workload (lead ++ options) command options) (others : List Arg) :
    Workload (lead ++ others) command others := by
  obtain ⟨name, shape, named⟩ := workload
  refine ⟨name, ?_, named⟩
  rcases shape with plain | under
  · have isLead : lead = [name] := List.append_cancel_right (plain.trans rfl)
    exact .inl (by rw [isLead]; rfl)
  · have isLead : lead = ["container".toList, name] := List.append_cancel_right (under.trans rfl)
    exact .inr (by rw [isLead]; rfl)

section Verdict

variable {command : CommandKind} {lead options : List Arg} {taken : List Nat} {stop : Nat}

/-- What becomes of a workload with another command for its container. -/
theorem validate_continued (workload : Workload (lead ++ options) command options)
    (scan : optionsLoop options command (options.length + 1) 0 = .ok (taken, stop))
    (ends : stop < options.length) {continuation : List Arg}
    (harmless : ∀ arg ∈ continuation, ¬ TargetOverride arg) :
    validate (lead ++ options.take (stop + 1) ++ continuation) =
      if ∃ arg ∈ lead ++ options.take (stop + 1), TargetOverride arg then
        fail "Docker endpoint or configuration overrides are not allowed in the luhmen wrapper"
      else .ok () := by
  have length : (options.take (stop + 1)).length = stop + 1 := List.length_take_of_le (by omega)
  have agrees : ∀ i, i ≤ stop → (options.take (stop + 1) ++ continuation)[i]? = options[i]? := by
    intro i before
    rw [List.getElem?_append_left (by omega), List.getElem?_take_of_lt (by omega)]
  have loop : optionsLoop (options.take (stop + 1) ++ continuation) command
      ((options.take (stop + 1) ++ continuation).length + 1) 0 = .ok (taken, stop) :=
    optionsLoop_agree scan ends agrees (by rw [List.length_append, length]; omega)
  have passes : validateContainerOptions (options.take (stop + 1) ++ continuation) command =
      .ok () := by
    rw [validateContainerOptions, loop]
    rfl
  have overrides : (∃ arg ∈ lead ++ (options.take (stop + 1) ++ continuation), TargetOverride arg) ↔
      ∃ arg ∈ lead ++ options.take (stop + 1), TargetOverride arg := by
    rw [← List.append_assoc]
    constructor
    · rintro ⟨arg, member, override⟩
      rcases List.mem_append.1 member with before | behind
      · exact ⟨arg, before, override⟩
      · exact absurd override (harmless arg behind)
    · rintro ⟨arg, member, override⟩
      exact ⟨arg, List.mem_append_left _ member, override⟩
  rw [List.append_assoc, validate_workload (workload.replace _), passes]
  simp only [overrides]

/-- **The container's command plays no part.**  Where the options of a workload end at an
argument, any two continuations behind it get one verdict, which is that of the global
target options in front. -/
theorem payload_plays_no_part (workload : Workload (lead ++ options) command options)
    (scan : optionsLoop options command (options.length + 1) 0 = .ok (taken, stop))
    (ends : stop < options.length) {first second : List Arg}
    (onFirst : ∀ arg ∈ first, ¬ TargetOverride arg)
    (onSecond : ∀ arg ∈ second, ¬ TargetOverride arg) :
    validate (lead ++ options.take (stop + 1) ++ first) =
        validate (lead ++ options.take (stop + 1) ++ second) ∧
      (validate (lead ++ options.take (stop + 1) ++ first) = .ok () ↔
        ∀ arg ∈ lead ++ options.take (stop + 1), ¬ TargetOverride arg) := by
  rw [validate_continued workload scan ends onFirst, validate_continued workload scan ends onSecond]
  refine ⟨rfl, ?_⟩
  by_cases override : ∃ arg ∈ lead ++ options.take (stop + 1), TargetOverride arg
  · rw [if_pos override]
    obtain ⟨arg, member, is⟩ := override
    constructor
    · intro ok
      simp [fail] at ok
    · exact fun none => absurd is (none arg member)
  · rw [if_neg override]
    exact ⟨fun _ arg member is => override ⟨arg, member, is⟩, fun _ => rfl⟩

end Verdict

/-- `exec -it box`, behind which `sh -c` and `-H` are the container's. -/
theorem payload_plays_no_part_exec :
    validate (["container".toList, "exec".toList] ++
          (["-it", "box", "true"].map String.toList).take 2 ++ ["sh", "-c", "-H"].map String.toList) =
        validate (["container".toList, "exec".toList] ++
          (["-it", "box", "true"].map String.toList).take 2 ++ ["--builder"].map String.toList) ∧
      (validate (["container".toList, "exec".toList] ++
          (["-it", "box", "true"].map String.toList).take 2 ++ ["sh", "-c", "-H"].map String.toList) =
          .ok () ↔
        ∀ arg ∈ ["container".toList, "exec".toList] ++
          (["-it", "box", "true"].map String.toList).take 2, ¬ TargetOverride arg) := by
  have workload : Workload (["container".toList, "exec".toList] ++
      ["-it", "box", "true"].map String.toList) .exec (["-it", "box", "true"].map String.toList) :=
    ⟨"exec".toList, .inr rfl, rfl⟩
  have scan : optionsLoop (["-it", "box", "true"].map String.toList) .exec 4 0 = .ok ([1], 1) := by
    decide
  exact payload_plays_no_part workload scan (by decide) (by decide) (by decide)

end Luhmen.Host
