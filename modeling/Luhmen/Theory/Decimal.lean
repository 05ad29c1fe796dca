/-
# Theory.Decimal -- numbers as decimal text

`decimal` writes a number without leading zeros and `value` reads the number that
digits write, with or without them; `value_decimal` says that the second inverts
the first.
-/
import Luhmen.Theory.Bytes

set_option autoImplicit false

namespace Luhmen.Theory

/-- A number in decimal, without leading zeros. -/
def decimal (n : Nat) : Bytes :=
  (Nat.toDigits 10 n).map fun c => UInt8.ofNat c.toNat

def isDigit (b : UInt8) : Bool :=
  0x30 ≤ b && b ≤ 0x39

/-- The number that digits write. -/
def value (text : Bytes) : Nat :=
  text.foldl (fun sum b => 10 * sum + (b.toNat - 0x30)) 0

/-- What an ASCII digit is as a byte. -/
theorem digit_byte {c : Char} (digit : c.isDigit = true) :
    (UInt8.ofNat c.toNat).toNat = c.toNat ∧ 48 ≤ c.toNat ∧ c.toNat ≤ 57 := by
  have range : 48 ≤ c.toNat ∧ c.toNat ≤ 57 := by
    simpa [Char.isDigit, UInt32.le_iff_toNat_le] using digit
  refine ⟨?_, range⟩
  rw [UInt8.toNat_ofNat']
  omega

theorem isDigit_of_mem_toDigits {n : Nat} {c : Char} (member : c ∈ Nat.toDigits 10 n) :
    c.isDigit = true :=
  Nat.isDigit_of_mem_toDigits (by decide) (by decide) member

theorem decimal_digit {n : Nat} : ∀ b ∈ decimal n, 0x30 ≤ b ∧ b ≤ 0x39 := by
  intro b member
  obtain ⟨c, inDigits, rfl⟩ := List.mem_map.1 member
  obtain ⟨same, low, high⟩ := digit_byte (isDigit_of_mem_toDigits inDigits)
  constructor <;> rw [UInt8.le_iff_toNat_le, same]
  · exact low
  · exact high

theorem decimal_ne_nil {n : Nat} : decimal n ≠ [] := by
  simp [decimal]

theorem all_isDigit_decimal (n : Nat) : (decimal n).all isDigit = true := by
  rw [List.all_eq_true]
  intro b member
  simpa [isDigit] using decimal_digit b member

theorem value_decimal (n : Nat) : value (decimal n) = n := by
  have parsed := @Nat.ofDigitChars_toDigits 10 n (by decide) (by decide)
  rw [Nat.ofDigitChars_eq_foldl] at parsed
  have step : ∀ (digits : List Char), (∀ c ∈ digits, c.isDigit = true) → ∀ sum,
      (digits.map fun c => UInt8.ofNat c.toNat).foldl (fun sum b => 10 * sum + (b.toNat - 0x30)) sum =
        digits.foldl (fun sum c => 10 * sum + (c.toNat - '0'.toNat)) sum := by
    intro digits
    induction digits with
    | nil => exact fun _ _ => rfl
    | cons c rest ih =>
      intro all sum
      rw [List.map_cons, List.foldl_cons, List.foldl_cons,
        ih fun c member => all c (List.mem_cons_of_mem _ member),
        (digit_byte (all c List.mem_cons_self)).1]
      rfl
  exact (step _ (fun c => isDigit_of_mem_toDigits) 0).trans parsed

theorem decimal_injective : Function.Injective decimal := by
  intro m n same
  rw [← value_decimal m, same, value_decimal]

/-- A number that is not zero does not begin with a zero. -/
theorem decimal_head {n : Nat} (positive : 0 < n) (rest : Bytes) : decimal n ≠ 0x30 :: rest := by
  induction n using Nat.strongRecOn generalizing rest with
  | ind n ih =>
    by_cases small : n < 10
    · have digits : ∀ n < 10, 0 < n → UInt8.ofNat n.digitChar.toNat ≠ 0x30 := by decide
      rw [decimal, Nat.toDigits_of_lt_base small]
      exact fun same => digits n small positive (List.cons.inj same).1
    · have split := Nat.toDigits_of_base_le (by decide : 1 < 10) (Nat.le_of_not_lt small)
      rw [decimal, split, List.map_append]
      cases shorter : decimal (n / 10) with
      | nil => exact absurd shorter decimal_ne_nil
      | cons head tail =>
        have before := ih (n / 10) (by omega) (by omega) tail
        rw [shorter] at before
        rw [decimal] at shorter
        rw [shorter]
        intro same
        exact before (congrArg (· :: tail) (List.cons.inj same).1)

end Luhmen.Theory
