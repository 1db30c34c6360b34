import Mathlib.Algebra.Order.Field.Rat
import Mathlib.Tactic.FieldSimp
import Mathlib.Tactic.Linarith
import Mathlib.Tactic.Positivity
import Mathlib.Tactic.Ring
import QueryTree.Proofs.Decimal

/-! # Rounding to a decimal

A decimal that is read from digits is within half a unit of its last place of the number that they
write, even where rounding has cost a place. Digits have no decimal only if those before the point
are too large, or become so by rounding.
-/

namespace QueryTree

def signOf (negative : Bool) : ℤ := if negative then -1 else 1

namespace Decimal

variable {m scale m' scale' places total k r : Nat} {up negative : Bool} {cs : List Char}
  {whole fraction : List Char} {d : Decimal}

section Units

/-- The mantissa at its scale is within half a unit of the total at a scale of so many places. -/
def Approximates (m scale total places : Nat) : Prop :=
  ∃ k, places = scale + k ∧
    2 * (m * 10 ^ k) ≤ 2 * total + 10 ^ k ∧ 2 * total ≤ 2 * (m * 10 ^ k) + 10 ^ k

theorem Approximates.scale_le (h : Approximates m scale total places) : scale ≤ places := by
  obtain ⟨k, rfl, -⟩ := h
  exact Nat.le_add_right _ _

theorem Approximates.abs_sub_le (h : Approximates m scale total places) :
    |(m : ℚ) / 10 ^ scale - total / 10 ^ places| ≤ 1 / 2 / 10 ^ scale := by
  obtain ⟨k, rfl, low, high⟩ := h
  have low : 2 * ((m : ℚ) * 10 ^ k) ≤ 2 * total + 10 ^ k := by exact_mod_cast low
  have high : 2 * (total : ℚ) ≤ 2 * (m * 10 ^ k) + 10 ^ k := by exact_mod_cast high
  have near : |(m : ℚ) * 10 ^ k - total| ≤ 1 / 2 * 10 ^ k :=
    abs_sub_le_iff.mpr ⟨by linarith, by linarith⟩
  have common : (m : ℚ) / 10 ^ scale - total / 10 ^ (scale + k) =
      (m * 10 ^ k - total) / 10 ^ (scale + k) := by
    rw [pow_add]
    field_simp
  have half : 1 / 2 / (10 : ℚ) ^ scale = 1 / 2 * 10 ^ k / 10 ^ (scale + k) := by
    rw [pow_add]
    field_simp
  have unit : (0 : ℚ) < 10 ^ (scale + k) := by positivity
  rw [common, half, abs_div, abs_of_pos unit]
  exact div_le_div_of_nonneg_right near unit.le

end Units

section Steps

theorem ofDigitChars_lt (digits : ∀ c ∈ cs, c.isDigit) :
    Nat.ofDigitChars 10 cs 0 < 10 ^ cs.length := by
  induction cs with
  | nil => exact Nat.one_pos
  | cons c cs ih =>
    obtain ⟨digit, digits⟩ := List.forall_mem_cons.mp digits
    have first := Nat.mul_le_mul_left (10 ^ cs.length) (digit_le digit)
    have others := ih digits
    rw [Nat.ofDigitChars_cons, Nat.ofDigitChars_eq_ofDigitChars_zero, Nat.mul_zero, Nat.zero_add,
      List.length_cons, pow_succ]
    omega

theorem near_of_lt {unit a b u : Nat} (later : r < unit) (low : 2 * a ≤ 2 * b + u)
    (high : 2 * (b + 1) ≤ 2 * a + u) :
    2 * (unit * a) ≤ 2 * (unit * b + r) + unit * u ∧
      2 * (unit * b + r) ≤ 2 * (unit * a) + unit * u := by
  have low := Nat.mul_le_mul_left unit low
  have high := Nat.mul_le_mul_left unit high
  constructor <;> linarith

/-- The first digit left out tells on which side the number lies, whatever digits come after it. -/
theorem approximates_settle? {digit : Nat} (fits : m < capacity) (small : digit ≤ 9)
    (later : r < 10 ^ k) (h : settle? (5 ≤ digit) m scale = some (m', scale')) :
    Approximates m' scale' (10 ^ k * (10 * m + digit) + r) (scale + (k + 1)) := by
  rcases (settle?_eq_some_iff fits).mp h with ⟨rfl, -, rfl⟩ | ⟨up, -, tenth, rfl⟩
  · refine ⟨k + 1, rfl, ?_⟩
    have shift : (m + (decide (5 ≤ digit)).toNat) * 10 ^ (k + 1) =
        10 ^ k * (10 * m + 10 * (decide (5 ≤ digit)).toNat) := by
      ring
    rw [shift, pow_succ]
    by_cases up : 5 ≤ digit <;> apply near_of_lt later <;> simp [up] <;> omega
  · refine ⟨k + 2, by omega, ?_⟩
    have shift : m' * 10 ^ (k + 2) = 10 ^ k * (10 * m + 50) := by
      calc m' * 10 ^ (k + 2) = 10 ^ k * (10 * (m' * 10)) := by ring
        _ = 10 ^ k * (10 * m + 50) := by rw [tenth]; ring
    have unit : 10 ^ (k + 2) = 10 ^ k * 100 := by ring
    have half : 5 ≤ digit := of_decide_eq_true up
    rw [shift, unit]
    apply near_of_lt later <;> omega

end Steps

section Digits

/-- The mantissa that digits are read as stays within half a unit of all of them. -/
theorem approximates_extend? (fits : m < capacity) (digits : ∀ c ∈ cs, c.isDigit)
    (h : extend? m scale cs = some (m', scale')) :
    Approximates m' scale' (Nat.ofDigitChars 10 cs m) (scale + cs.length) := by
  induction cs generalizing m scale with
  | nil =>
    cases h
    exact ⟨0, rfl, by simp, by simp⟩
  | cons c cs ih =>
    obtain ⟨digit, later⟩ := List.forall_mem_cons.mp digits
    rw [extend?] at h
    split at h
    · next room =>
      have step := ih room.1 later h
      rw [Nat.ofDigitChars_cons, Nat.mul_comm 10 m, List.length_cons]
      rwa [Nat.add_right_comm] at step
    · rw [Nat.ofDigitChars_cons, Nat.ofDigitChars_eq_ofDigitChars_zero]
      exact approximates_settle? fits (digit_le digit) (ofDigitChars_lt later) h

theorem bounds_extend? (fits : m < capacity) (short : scale ≤ maxScale)
    (h : extend? m scale cs = some (m', scale')) : m' < capacity ∧ scale' ≤ maxScale := by
  induction cs generalizing m scale with
  | nil =>
    cases h
    exact ⟨fits, short⟩
  | cons c cs ih =>
    rw [extend?] at h
    split at h
    · next room => exact ih room.1 room.2 h
    · rcases (settle?_eq_some_iff fits).mp h with ⟨-, fits', rfl⟩ | ⟨-, full, tenth, rfl⟩
      · exact ⟨fits', short⟩
      · have large : 5 < capacity := by decide
        omega

/-- The largest mantissa has no room for another digit. Rounding it up takes a place to give up. -/
theorem extend?_eq_none_iff (fits : m < capacity) :
    extend? m scale cs = none ↔
      (∃ c ∈ cs.head?, 5 ≤ c.toNat - '0'.toNat) ∧ m + 1 = capacity ∧ scale = 0 := by
  induction cs generalizing m scale with
  | nil => simp [extend?]
  | cons c cs ih =>
    rw [extend?]
    split
    · next room =>
      have large : 1 < capacity := by decide
      rw [ih room.1]
      constructor
      · rintro ⟨-, -, scaled⟩
        cases scaled
      · rintro ⟨-, full, -⟩
        omega
    · rw [settle?_eq_none_iff fits, decide_eq_true_iff]
      simp only [List.head?_cons, Option.mem_def, Option.some.injEq, exists_eq_left']

theorem ofDigits?_eq_none_iff :
    ofDigits? negative whole fraction = none ↔
      capacity ≤ Nat.ofDigitChars 10 whole 0 ∨
        Nat.ofDigitChars 10 whole 0 + 1 = capacity ∧
          ∃ c ∈ fraction.head?, 5 ≤ c.toNat - '0'.toNat := by
  simp only [ofDigits?]
  generalize Nat.ofDigitChars 10 whole 0 = m
  by_cases fits : m < capacity
  · rw [if_pos fits, or_iff_right (Nat.not_le_of_lt fits), and_comm]
    have none : extend? m 0 fraction = none ↔ _ := extend?_eq_none_iff fits
    rw [eq_self, and_true] at none
    rw [← none]
    cases read : extend? m 0 fraction with
    | none => simp
    | some found =>
      have bounds := bounds_extend? fits (Nat.zero_le _) read
      simp [ofParts?, bounds]
  · rw [if_neg fits]
    exact iff_of_true rfl (.inl (Nat.le_of_not_lt fits))

end Digits

section Value

def toRat (d : Decimal) : ℚ := signOf d.negative * (d.mantissa / 10 ^ d.scale)

/-- The number that is written with these digits before and after a point. -/
def fixedPoint (whole fraction : List Char) : ℚ :=
  Nat.ofDigitChars 10 whole 0 + Nat.ofDigitChars 10 fraction 0 / 10 ^ fraction.length

theorem fixedPoint_eq (whole fraction : List Char) :
    fixedPoint whole fraction =
      Nat.ofDigitChars 10 (whole ++ fraction) 0 / 10 ^ fraction.length := by
  have joined : Nat.ofDigitChars 10 (whole ++ fraction) 0 =
      10 ^ fraction.length * Nat.ofDigitChars 10 whole 0 + Nat.ofDigitChars 10 fraction 0 := by
    rw [Nat.ofDigitChars_append, Nat.ofDigitChars_eq_ofDigitChars_zero]
  rw [fixedPoint, joined]
  push_cast
  field_simp

theorem abs_signOf (negative : Bool) : |(signOf negative : ℚ)| = 1 := by
  cases negative <;> simp [signOf]

theorem toRat_of_ofParts? (h : ofParts? negative m scale = some d) :
    d.toRat = signOf negative * (m / 10 ^ scale) := by
  unfold ofParts? at h
  split at h
  · obtain rfl := Option.some.inj h
    by_cases zero : m = 0
    · simp [toRat, zero]
    · have signed : (m != 0) = true := bne_iff_ne.mpr zero
      simp only [toRat, signed, Bool.and_true]
  · cases h

/-- A decimal is within half a unit of its last place of the number that its digits write. With room
for all digits it is that number. -/
theorem toRat_of_ofDigits? (digits : ∀ c ∈ fraction, c.isDigit)
    (h : ofDigits? negative whole fraction = some d) :
    d.scale ≤ fraction.length ∧
      |d.toRat - signOf negative * fixedPoint whole fraction| ≤ 1 / 2 / 10 ^ d.scale ∧
      (fraction.length ≤ maxScale → Nat.ofDigitChars 10 (whole ++ fraction) 0 < capacity →
        d.toRat = signOf negative * fixedPoint whole fraction) := by
  simp only [ofDigits?] at h
  split at h
  · next fits =>
    obtain ⟨⟨m, scale⟩, read, parts⟩ := Option.bind_eq_some_iff.mp h
    have near := approximates_extend? fits digits read
    have value := toRat_of_ofParts? parts
    obtain ⟨rfl, rfl⟩ := ofParts?_eq_some parts
    rw [Nat.zero_add, ← Nat.ofDigitChars_append] at near
    refine ⟨near.scale_le, ?_, fun short room => ?_⟩
    · rw [value, fixedPoint_eq, ← mul_sub, abs_mul, abs_signOf, one_mul]
      exact near.abs_sub_le
    · rw [Nat.ofDigitChars_append] at room
      have all := extend?_of_room room (Nat.zero_add _ ▸ short : 0 + fraction.length ≤ maxScale)
      rw [Nat.zero_add, ← Nat.ofDigitChars_append] at all
      obtain ⟨mantissa, scale⟩ := Prod.mk.inj (Option.some.inj (read.symm.trans all))
      rw [value, mantissa, scale, fixedPoint_eq]
  · cases h

end Value

end Decimal

end QueryTree
