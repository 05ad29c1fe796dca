/-
# Theory.Words -- words between separators

`words` splits a text at every item that is a separator and drops what is empty, as
a shell splits an unquoted expansion and `split_whitespace` a string.  `unwords` puts
words together with one separator between two of them; `words_unwords` says that the
words come back, as long as they are not empty and hold no separator.

`cut` splits at the first item that equals a given one.
-/
import Mathlib

namespace Luhmen.Theory

set_option autoImplicit false

variable {α : Type}

section Words

variable (sep : α → Bool)

def words (text : List α) : List (List α) :=
  (text.splitOnP sep).filter fun word => !word.isEmpty

/-- A word as it can be split off again. -/
def Word (word : List α) : Prop :=
  word ≠ [] ∧ ∀ c ∈ word, sep c = false

variable {sep}

theorem words_nil : words sep ([] : List α) = [] := rfl

theorem words_single {word : List α} (isWord : Word sep word) : words sep word = [word] := by
  unfold words
  rw [List.splitOnP_eq_singleton isWord.2, List.filter_cons_of_pos (by simp [isWord.1])]
  rfl

theorem words_append {word : List α} (isWord : Word sep word) {c : α} (separates : sep c = true)
    (rest : List α) : words sep (word ++ c :: rest) = word :: words sep rest := by
  unfold words
  rw [List.splitOnP_append_cons_of_forall_mem isWord.2 c separates,
    List.filter_cons_of_pos (by simp [isWord.1])]

/-- Words with `c` between them. -/
def unwords (c : α) : List (List α) → List α
  | [] => []
  | [word] => word
  | word :: rest => word ++ c :: unwords c rest

theorem unwords_cons (c : α) (word second : List α) (rest : List (List α)) :
    unwords c (word :: second :: rest) = word ++ c :: unwords c (second :: rest) := rfl

theorem words_unwords {c : α} (separates : sep c = true) {tokens : List (List α)}
    (isWord : ∀ word ∈ tokens, Word sep word) : words sep (unwords c tokens) = tokens := by
  induction tokens with
  | nil => rfl
  | cons word rest ih =>
      have first := isWord word List.mem_cons_self
      have others : ∀ other ∈ rest, Word sep other :=
        fun other member => isWord other (List.mem_cons_of_mem _ member)
      cases rest with
      | nil => exact words_single first
      | cons second rest =>
          rw [unwords_cons, words_append first separates, ih others]

theorem length_unwords (c : α) (tokens : List (List α)) :
    (unwords c tokens).length ≤ (tokens.map fun word => word.length + 1).sum := by
  induction tokens with
  | nil => exact Nat.le_refl 0
  | cons word rest ih =>
      rw [List.map_cons, List.sum_cons]
      cases rest with
      | nil =>
          show word.length ≤ _
          omega
      | cons second rest =>
          rw [unwords_cons, List.length_append, List.length_cons]
          omega

/-- What holds of the separator and of all words holds of the text. -/
theorem forall_mem_unwords {p : α → Prop} {c : α} (separates : p c) {tokens : List (List α)}
    (holds : ∀ word ∈ tokens, ∀ x ∈ word, p x) : ∀ x ∈ unwords c tokens, p x := by
  induction tokens with
  | nil =>
      intro x member
      cases member
  | cons word rest ih =>
      have first := holds word List.mem_cons_self
      have others : ∀ other ∈ rest, ∀ x ∈ other, p x :=
        fun other member => holds other (List.mem_cons_of_mem _ member)
      cases rest with
      | nil => exact first
      | cons second rest =>
          intro x member
          rw [unwords_cons] at member
          rcases List.mem_append.1 member with before | behind
          · exact first x before
          · rcases List.mem_cons.1 behind with rfl | further
            · exact separates
            · exact ih others x further

theorem words_append_sep (front : List α) {c : α} (separates : sep c = true) (rest : List α) :
    words sep (front ++ c :: rest) = words sep front ++ words sep rest := by
  unfold words
  rw [List.splitOnP_append_cons front rest separates, List.filter_append]

/-- What is not in a part separates parts. -/
theorem sep_or_mem_splitOnP {c : α} {text : List α} (member : c ∈ text) :
    sep c = true ∨ ∃ part ∈ text.splitOnP sep, c ∈ part := by
  by_cases separates : sep c = true
  · exact .inl separates
  · right
    induction text with
    | nil => cases member
    | cons x rest ih =>
        rw [List.splitOnP_cons_eq_if_modifyHead]
        rcases List.mem_cons.1 member with rfl | further
        · rw [if_neg separates]
          cases parts : rest.splitOnP sep with
          | nil => exact absurd parts (List.splitOnP_ne_nil sep rest)
          | cons part parts => exact ⟨c :: part, List.mem_cons_self, List.mem_cons_self⟩
        · obtain ⟨part, isPart, inside⟩ := ih further
          split
          · exact ⟨part, List.mem_cons_of_mem _ isPart, inside⟩
          · cases parts : rest.splitOnP sep with
            | nil => exact absurd parts (List.splitOnP_ne_nil sep rest)
            | cons first parts =>
                rw [parts] at isPart
                rcases List.mem_cons.1 isPart with rfl | later
                · exact ⟨x :: part, List.mem_cons_self, List.mem_cons_of_mem _ inside⟩
                · exact ⟨part, List.mem_cons_of_mem _ later, inside⟩

theorem sep_or_mem_words {c : α} {text : List α} (member : c ∈ text) :
    sep c = true ∨ ∃ word ∈ words sep text, c ∈ word := by
  refine (sep_or_mem_splitOnP member).imp id ?_
  rintro ⟨part, isPart, inside⟩
  refine ⟨part, List.mem_filter.2 ⟨isPart, ?_⟩, inside⟩
  cases part with
  | nil => cases inside
  | cons _ _ => rfl

theorem splitOnP_append_clean {front : List α} (clean : ∀ c ∈ front, sep c = false)
    (rest : List α) :
    (front ++ rest).splitOnP sep = (rest.splitOnP sep).modifyHead (front ++ ·) := by
  induction front with
  | nil =>
      cases parts : rest.splitOnP sep with
      | nil => exact absurd parts (List.splitOnP_ne_nil sep rest)
      | cons part parts => rw [List.nil_append, parts]; rfl
  | cons c front ih =>
      have further : ∀ x ∈ front, sep x = false := fun x member =>
        clean x (List.mem_cons_of_mem _ member)
      rw [List.cons_append, List.splitOnP_cons_eq_if_modifyHead,
        if_neg (by simp [clean c List.mem_cons_self]), ih further]
      cases rest.splitOnP sep <;> rfl

/-- A code that keeps separators apart from all else keeps the words. -/
theorem words_flatMap {β : Type} {sep' : β → Bool} {code : α → List β} {text : List α}
    (separates : ∀ c ∈ text, sep c = true → ∃ b, code c = [b] ∧ sep' b = true)
    (keeps : ∀ c ∈ text, sep c = false → ∀ b ∈ code c, sep' b = false)
    (nonempty : ∀ c, code c ≠ []) :
    words sep' (text.flatMap code) = (words sep text).map (List.flatMap code) := by
  have parts : (text.flatMap code).splitOnP sep' =
      (text.splitOnP sep).map (List.flatMap code) := by
    induction text with
    | nil => rfl
    | cons c rest ih =>
        have behind := ih (fun x member => separates x (List.mem_cons_of_mem _ member))
          fun x member => keeps x (List.mem_cons_of_mem _ member)
        rw [List.flatMap_cons, List.splitOnP_cons_eq_if_modifyHead]
        by_cases isSep : sep c = true
        · obtain ⟨b, single, isSep'⟩ := separates c List.mem_cons_self isSep
          rw [if_pos isSep, single, List.singleton_append, List.splitOnP_cons_eq_if_modifyHead,
            if_pos isSep', behind]
          rfl
        · have clean := keeps c List.mem_cons_self (by simpa using isSep)
          rw [if_neg isSep, splitOnP_append_clean clean, behind]
          cases rest.splitOnP sep <;> rfl
  have same : ∀ part : List α, (!(part.flatMap code).isEmpty) = !part.isEmpty := by
    intro part
    cases part with
    | nil => rfl
    | cons c rest => simp [nonempty c]
  unfold words
  rw [parts, List.filter_map]
  congr 1
  exact List.filter_congr fun part _ => same part

end Words

section Cut

variable [DecidableEq α]

/-- What is before and behind the first `c`. -/
def cut (c : α) : List α → Option (List α × List α)
  | [] => none
  | x :: rest => if x = c then some ([], rest) else (cut c rest).map fun (front, back) => (x :: front, back)

theorem cut_append {c : α} {front : List α} (before : c ∉ front) (back : List α) :
    cut c (front ++ c :: back) = some (front, back) := by
  induction front with
  | nil => exact if_pos rfl
  | cons x rest ih =>
      have apart : x ≠ c := fun same => before (by rw [same]; exact List.mem_cons_self)
      have further : c ∉ rest := fun member => before (List.mem_cons_of_mem _ member)
      rw [List.cons_append, cut, if_neg apart, ih further]
      rfl

theorem cut_eq_some {c : α} {text front back : List α} (found : cut c text = some (front, back)) :
    text = front ++ c :: back ∧ c ∉ front := by
  induction text generalizing front with
  | nil => cases found
  | cons x rest ih =>
      unfold cut at found
      split at found
      · rename_i same
        cases found
        exact ⟨by rw [same]; rfl, List.not_mem_nil⟩
      · rename_i apart
        obtain ⟨⟨front', back'⟩, found', pair⟩ := Option.map_eq_some_iff.1 found
        cases pair
        obtain ⟨rfl, before⟩ := ih found'
        refine ⟨rfl, fun member => ?_⟩
        rcases List.mem_cons.1 member with same | further
        · exact apart same.symm
        · exact before further

end Cut

end Luhmen.Theory
