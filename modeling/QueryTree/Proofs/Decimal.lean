import Mathlib.Data.List.TakeWhile
import Mathlib.Order.Basic
import QueryTree.Decimal

/-! # Decimals and their digits

A decimal is read back from the digits that it is written with. A literal with a fraction has digits
after the point as well, unless its mantissa has no room for another digit.
-/

namespace QueryTree.Decimal

variable {m scale m' scale' : Nat} {cs : List Char}

section Digits

theorem digit_le {c : Char} (h : c.isDigit) : c.toNat - '0'.toNat ≤ 9 :=
  Nat.sub_le_of_le_add (Char.isDigit_iff_toNat.mp h).2

theorem le_ofDigitChars (cs : List Char) (m : Nat) : m ≤ Nat.ofDigitChars 10 cs m := by
  induction cs generalizing m with
  | nil => exact Nat.le_refl m
  | cons c cs ih =>
    have := ih (10 * m + (c.toNat - '0'.toNat))
    rw [Nat.ofDigitChars_cons]
    omega

theorem extend?_of_room (fits : Nat.ofDigitChars 10 cs m < capacity)
    (room : scale + cs.length ≤ maxScale) :
    extend? m scale cs = some (Nat.ofDigitChars 10 cs m, scale + cs.length) := by
  induction cs generalizing m scale with
  | nil => rfl
  | cons c cs ih =>
    rw [Nat.ofDigitChars_cons, Nat.mul_comm] at fits ⊢
    rw [List.length_cons] at room ⊢
    have taken := Nat.lt_of_le_of_lt (le_ofDigitChars cs _) fits
    have more : scale < maxScale := by omega
    rw [extend?, if_pos ⟨taken, more⟩, ih fits (by omega), Nat.add_right_comm]
    rfl

theorem ofParts?_self (d : Decimal) : ofParts? d.negative d.mantissa d.scale = some d := by
  obtain ⟨negative, mantissa, scale, small, short, nonneg⟩ := d
  rw [ofParts?, dif_pos ⟨small, short⟩]
  cases negative with
  | false => rfl
  | true =>
    have some : mantissa ≠ 0 := fun zero => by cases nonneg zero
    simp [some]

end Digits

section Render

variable (d : Decimal)

/-- The digits of the mantissa, with at least one before the point. -/
def digits : List Char := (Nat.toDigits 10 d.mantissa).leftpad (d.scale + 1) '0'

def wholeDigits : List Char := d.digits.take (d.digits.length - d.scale)

def fractionDigits : List Char := d.digits.drop (d.digits.length - d.scale)

theorem toList_render :
    d.render.toList = (if d.negative then ['-'] else []) ++ d.wholeDigits ++
      if d.scale = 0 then [] else '.' :: d.fractionDigits :=
  String.toList_ofList

theorem wholeDigits_append_fractionDigits : d.wholeDigits ++ d.fractionDigits = d.digits :=
  List.take_append_drop _ _

theorem isDigit_of_mem_digits {c : Char} (h : c ∈ d.digits) : c.isDigit := by
  rcases List.mem_append.mp h with padded | written
  · rw [List.eq_of_mem_replicate padded]
    rfl
  · exact Nat.isDigit_of_mem_toDigits (by decide) (by decide) written

theorem scale_lt_length_digits : d.scale < d.digits.length := by
  rw [digits, List.length_leftpad]
  omega

theorem length_fractionDigits : d.fractionDigits.length = d.scale := by
  have := d.scale_lt_length_digits
  rw [fractionDigits, List.length_drop]
  omega

theorem wholeDigits_ne_nil : d.wholeDigits ≠ [] := by
  have := d.scale_lt_length_digits
  apply List.ne_nil_of_length_pos
  rw [wholeDigits, List.length_take]
  omega

theorem ofDigitChars_digits : Nat.ofDigitChars 10 d.digits 0 = d.mantissa := by
  simp [digits, List.leftpad, Nat.ofDigitChars_append]

theorem ofDigits?_wholeDigits : ofDigits? d.negative d.wholeDigits d.fractionDigits = some d := by
  have value : Nat.ofDigitChars 10 d.fractionDigits (Nat.ofDigitChars 10 d.wholeDigits 0) =
      d.mantissa := by
    rw [← Nat.ofDigitChars_append, wholeDigits_append_fractionDigits, ofDigitChars_digits]
  have small := d.mantissa_lt
  have whole : Nat.ofDigitChars 10 d.wholeDigits 0 < capacity := by
    have := le_ofDigitChars d.fractionDigits (Nat.ofDigitChars 10 d.wholeDigits 0)
    omega
  have room : 0 + d.fractionDigits.length ≤ maxScale := by
    rw [length_fractionDigits, Nat.zero_add]
    exact d.scale_le
  simp only [ofDigits?, if_pos whole, extend?_of_room (value ▸ small) room, value,
    Option.bind_some, length_fractionDigits, Nat.zero_add, ofParts?_self]

theorem wholeDigits_of_scale (h : d.scale = 0) : d.wholeDigits = d.digits := by
  have none : d.fractionDigits = [] :=
    List.eq_nil_of_length_eq_zero (d.length_fractionDigits.trans h)
  rw [← wholeDigits_append_fractionDigits, none, List.append_nil]

/-- A text is read by its digits. A point stands only before digits. -/
theorem ofString?_eq_ofDigits? {s : String} {negative : Bool} {whole fraction : List Char}
    (spelling : s.toList = (if negative then ['-'] else []) ++ whole ++
      if fraction = [] then [] else '.' :: fraction)
    (some : whole ≠ []) (digits : ∀ c ∈ whole ++ fraction, c.isDigit) :
    ofString? s = ofDigits? negative whole fraction := by
  obtain ⟨c, cs, rfl⟩ := List.exists_cons_of_ne_nil some
  obtain ⟨inWhole, inFraction⟩ := List.forall_mem_append.mp digits
  have unsigned : c ≠ '-' := by
    rintro rfl
    cases inWhole '-' List.mem_cons_self
  unfold ofString?
  rw [spelling]
  cases fraction with
  | nil =>
    have front : (c :: cs).takeWhile Char.isDigit = c :: cs :=
      List.takeWhile_eq_self_iff.mpr inWhole
    have behind : (c :: cs).dropWhile Char.isDigit = [] := List.dropWhile_eq_nil_iff.mpr inWhole
    cases negative <;> simp [unsigned, front, behind]
  | cons d rest =>
    have front : (c :: (cs ++ '.' :: d :: rest)).takeWhile Char.isDigit = c :: cs := by
      rw [← List.cons_append, List.takeWhile_append_of_pos inWhole]
      exact List.append_nil _
    have behind : (c :: (cs ++ '.' :: d :: rest)).dropWhile Char.isDigit = '.' :: d :: rest := by
      rw [← List.cons_append, List.dropWhile_append_of_pos inWhole]
      rfl
    have valid : (d :: rest).all Char.isDigit := List.all_eq_true.mpr inFraction
    cases negative <;> simp [unsigned, front, behind, valid]

theorem ofString?_render : ofString? d.render = some d := by
  have none : d.fractionDigits = [] ↔ d.scale = 0 := by
    rw [← List.length_eq_zero_iff, length_fractionDigits]
  have spelling : d.render.toList = (if d.negative then ['-'] else []) ++ d.wholeDigits ++
      if d.fractionDigits = [] then [] else '.' :: d.fractionDigits := by
    simp only [none, toList_render]
  rw [ofString?_eq_ofDigits? spelling d.wholeDigits_ne_nil, ofDigits?_wholeDigits]
  intro c h
  rw [wholeDigits_append_fractionDigits] at h
  exact d.isDigit_of_mem_digits h

end Render

section Rounding

variable {up : Bool}

/-- The mantissa is rounded down or up. Rounding up the largest one takes a second rounding, at
which it gives up its last digit. -/
theorem settle?_eq_some_iff (fits : m < capacity) :
    settle? up m scale = some (m', scale') ↔
      (m' = m + up.toNat ∧ m' < capacity ∧ scale' = scale) ∨
        up ∧ m + 1 = capacity ∧ m' * 10 = m + 5 ∧ scale = scale' + 1 := by
  have tenth : (capacity + 4) / 10 * 10 = capacity + 4 := by
    rw [capacity]
  -- From here on it does not matter what the bound on mantissas is.
  simp only [settle?]
  generalize capacity = n at fits tenth
  cases up with
  | false =>
    simp only [Bool.false_eq_true, if_false, if_pos fits, Option.some.injEq, Prod.mk.injEq]
    grind
  | true =>
    simp only [if_true, Bool.toNat_true, true_and]
    split_ifs <;> grind

theorem settle?_eq_none_iff (fits : m < capacity) :
    settle? up m scale = none ↔ up ∧ m + 1 = capacity ∧ scale = 0 := by
  simp only [settle?]
  generalize capacity = n at fits
  cases up with
  | false => simp [fits]
  | true =>
    simp only [if_true, true_and]
    split_ifs <;> grind

/-- A fraction leaves digits after the point or a mantissa with no room for another one. -/
theorem capacity_le_of_extend? (fits : m < capacity) (digits : ∀ c ∈ cs, c.isDigit)
    (some : 0 < scale + cs.length) (h : extend? m scale cs = .some (m', 0)) :
    capacity ≤ m' * 10 + 9 := by
  induction cs generalizing m scale with
  | nil =>
    obtain ⟨-, rfl⟩ := Prod.mk.inj (Option.some.inj h)
    cases some
  | cons c cs ih =>
    obtain ⟨digit, digits⟩ := List.forall_mem_cons.mp digits
    rw [extend?] at h
    split at h
    · next room => exact ih room.1 digits (by omega) h
    · next full =>
      -- Without room for a digit the mantissa is full. Without room for a place there are 28 of
      -- them, and rounding gives up no more than one.
      have high := digit_le digit
      unfold maxScale at full
      rcases (settle?_eq_some_iff fits).mp h with ⟨rfl, -, rfl⟩ | ⟨-, last, tenth, rfl⟩ <;> omega

theorem ofParts?_eq_some {negative : Bool} {d : Decimal}
    (h : ofParts? negative m scale = some d) : d.mantissa = m ∧ d.scale = scale := by
  unfold ofParts? at h
  split at h
  · cases h
    exact ⟨rfl, rfl⟩
  · cases h

theorem capacity_le_of_ofDigits? {negative : Bool} {whole fraction : List Char} {d : Decimal}
    (digits : ∀ c ∈ fraction, c.isDigit) (some : fraction ≠ [])
    (h : ofDigits? negative whole fraction = .some d) (rounded : d.scale = 0) :
    capacity ≤ d.mantissa * 10 + 9 := by
  simp only [ofDigits?] at h
  split at h
  · next fits =>
    obtain ⟨⟨m', scale'⟩, extended, parts⟩ := Option.bind_eq_some_iff.mp h
    obtain ⟨rfl, rfl⟩ := ofParts?_eq_some parts
    rw [rounded] at extended
    refine capacity_le_of_extend? fits digits ?_ extended
    rw [Nat.zero_add]
    exact List.length_pos_iff.mpr some
  · cases h

end Rounding

end QueryTree.Decimal
