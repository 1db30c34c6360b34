import QueryTree.Proofs.Decimal.Rounding
import QueryTree.Proofs.Token.Quoting

/-! # Numbers as they are written

A whole number is read as that number or refused. A number with a fraction is read as itself or as
the nearest decimal that can be had, and refused if there is none.
-/

namespace QueryTree

open Text Lexed Cursor

inductive Sign where
  | none | plus | minus
  deriving DecidableEq

namespace Sign

def spelling : Sign → List Char
  | none => []
  | plus => ['+']
  | minus => ['-']

def isNegative : Sign → Bool
  | minus => true
  | _ => false

end Sign

structure IsDigits (cs : List Char) : Prop where
  some : cs ≠ []
  digits : ∀ c ∈ cs, c.isDigit

variable {sign : Sign} {negative : Bool} {cs whole fraction rest : List Char} {p : Nat}

section Front

theorem IsDigits.startsWithDigit_append (h : IsDigits cs) (rest : List Char) :
    startsWithDigit (cs ++ rest) :=
  QueryTree.startsWithDigit_append (startsWithDigit_of_forall h.some h.digits)

theorem IsDigits.span (h : IsDigits cs) (ends : ¬ startsWithDigit rest) :
    (cs ++ rest).takeWhile Char.isDigit = cs ∧ (cs ++ rest).dropWhile Char.isDigit = rest := by
  have stops : rest.takeWhile Char.isDigit = [] ∧ rest.dropWhile Char.isDigit = rest := by
    cases rest with
    | nil => exact ⟨rfl, rfl⟩
    | cons c rest => exact ⟨List.takeWhile_cons_of_neg ends, List.dropWhile_cons_of_neg ends⟩
  rw [List.takeWhile_append_of_pos h.digits, List.dropWhile_append_of_pos h.digits, stops.1,
    stops.2, List.append_nil]
  exact ⟨rfl, rfl⟩

theorem number_whole (h : IsDigits whole) (ends : ¬ startsWithDigit rest)
    (pointless : ∀ more, rest = '.' :: more → ¬ startsWithDigit more) :
    number negative (whole ++ rest) = (ofInteger negative whole, rest) := by
  obtain ⟨taken, left⟩ := h.span ends
  simp only [number, taken, left]
  split
  · next more => rw [if_neg (pointless more rfl)]
  · rfl

theorem number_fixedPoint (h : IsDigits whole) (h' : IsDigits fraction)
    (ends : ¬ startsWithDigit rest) :
    number negative (whole ++ '.' :: fraction ++ rest) =
      (ofDecimal negative whole fraction, rest) := by
  have point : ¬ startsWithDigit ('.' :: (fraction ++ rest)) := Bool.false_ne_true
  obtain ⟨taken, left⟩ := h.span point
  obtain ⟨taken', left'⟩ := h'.span ends
  rw [List.append_assoc, List.cons_append]
  simp only [number, taken, left, if_pos (h'.startsWithDigit_append rest), taken', left']

theorem ofChars_sign (some : startsWithDigit cs) :
    ofChars (sign.spelling ++ cs) = number sign.isNegative cs := by
  cases sign with
  | none => exact (ofChars_signed some : ofChars (signed false cs) = number false cs)
  | minus => exact (ofChars_signed some : ofChars (signed true cs) = number true cs)
  | plus =>
    have unmarked : mark? ('+' :: cs) = none := mark?_eq_none (by decide)
    simp [Sign.spelling, Sign.isNegative, ofChars, unmarked, some]

theorem dropWhile_sign (some : startsWithDigit cs) :
    (sign.spelling ++ cs).dropWhile isBlank = sign.spelling ++ cs := by
  cases sign with
  | none => exact (dropWhile_signed some : (signed false cs).dropWhile isBlank = signed false cs)
  | minus => exact List.dropWhile_cons_of_neg (by decide)
  | plus => exact List.dropWhile_cons_of_neg (by decide)

end Front

section Outcomes

/-- Whole numbers have 64 bits, one of them for the sign. -/
theorem ofInteger_eq :
    ofInteger negative whole =
      let n : ℤ := signOf negative * Nat.ofDigitChars 10 whole 0
      if -2 ^ 63 ≤ n ∧ n < 2 ^ 63 then .token (.integer n)
      else .fault (.invalidNumber (String.ofList (signed negative whole))) := by
  have least : Int64.minValue.toInt = -2 ^ 63 := by decide
  have greatest (n : ℤ) : n ≤ Int64.maxValue.toInt ↔ n < 2 ^ 63 := Int.le_iff_lt_add_one
  simp only [ofInteger, least, greatest]
  cases negative with
  | true => simp [signOf, signed]
  | false => simp [signOf, signed]

theorem ofDecimal_eq_fault (h : Decimal.ofDigits? negative whole fraction = none) :
    ofDecimal negative whole fraction =
      .fault (.invalidNumber (String.ofList (signed negative (whole ++ '.' :: fraction)))) := by
  simp only [ofDecimal, h]
  cases negative <;> rfl

theorem five_le_iff {c : Char} : '5' ≤ c ↔ 5 ≤ c.toNat - '0'.toNat := by
  rw [Char.le_def, UInt32.le_iff_toNat_le]
  change 53 ≤ c.toNat ↔ 5 ≤ c.toNat - 48
  omega

theorem isTooLarge_iff (negative : Bool) :
    Decimal.ofDigits? negative whole fraction = none ↔
      2 ^ 96 ≤ Nat.ofDigitChars 10 whole 0 ∨
        Nat.ofDigitChars 10 whole 0 = 2 ^ 96 - 1 ∧ ∃ c ∈ fraction.head?, '5' ≤ c := by
  have room : Decimal.capacity = 2 ^ 96 := by decide
  simp only [Decimal.ofDigits?_eq_none_iff, five_le_iff, room]
  generalize Nat.ofDigitChars 10 whole 0 = n
  have last : n + 1 = 2 ^ 96 ↔ n = 2 ^ 96 - 1 := by omega
  rw [last]

theorem scan_number {o : Lexed} {blanks : List Char} (blank : ∀ b ∈ blanks, isBlank b)
    (some : startsWithDigit cs) (read : number sign.isNegative (cs ++ rest) = (o, rest)) :
    (Cursor.mk (blanks ++ (sign.spelling ++ cs ++ rest)) p).scan =
      { outcome := o, text := String.ofList (sign.spelling ++ cs), start := p + blanks.length,
        next := ⟨rest, p + blanks.length + (sign.spelling ++ cs).length⟩ } := by
  have digit : startsWithDigit (cs ++ rest) := startsWithDigit_append some
  rw [scan_append_blanks blank]
  apply scan_of_visible
  · rw [List.append_assoc, dropWhile_sign digit]
  · rw [List.append_assoc, ofChars_sign digit, read]

end Outcomes

/-- A whole number is read as that number if it has 64 bits. A number with a point is refused if it
rounds to a mantissa that is too large without places, and else read as a decimal within half a
unit of its last place, or as exactly the number written if all its digits fit. -/
theorem numbers_keep_value (sign : Sign) (blanks whole rest : List Char) (p : Nat)
    (blank : ∀ b ∈ blanks, isBlank b) (digits : IsDigits whole) (ends : ¬ startsWithDigit rest) :
    ((∀ more, rest = '.' :: more → ¬ startsWithDigit more) →
      let here := (Cursor.mk (blanks ++ (sign.spelling ++ whole ++ rest)) p).scan
      let n : ℤ := signOf sign.isNegative * Nat.ofDigitChars 10 whole 0
      here.next = ⟨rest, p + blanks.length + (sign.spelling ++ whole).length⟩ ∧
        here.answer =
          if -2 ^ 63 ≤ n ∧ n < 2 ^ 63 then .ok (some (.integer n))
          else .error ⟨.invalidNumber (String.ofList (signed sign.isNegative whole)),
            p + blanks.length⟩) ∧
    ∀ fraction, IsDigits fraction →
      let written := whole ++ '.' :: fraction
      let here := (Cursor.mk (blanks ++ (sign.spelling ++ written ++ rest)) p).scan
      let size := Nat.ofDigitChars 10 whole 0
      let tooLarge := 2 ^ 96 ≤ size ∨ size = 2 ^ 96 - 1 ∧ ∃ c ∈ fraction.head?, '5' ≤ c
      here.next = ⟨rest, p + blanks.length + (sign.spelling ++ written).length⟩ ∧
        (tooLarge →
          here.answer = .error ⟨.invalidNumber (String.ofList (signed sign.isNegative written)),
            p + blanks.length⟩) ∧
        (¬ tooLarge → ∃ d : Decimal,
          here.answer = .ok (some (.decimal d)) ∧
          d.mantissa < 2 ^ 96 ∧ d.scale ≤ min 28 fraction.length ∧
          |d.toRat - signOf sign.isNegative * Decimal.fixedPoint whole fraction| ≤
            1 / 2 / 10 ^ d.scale ∧
          (fraction.length ≤ 28 → Nat.ofDigitChars 10 (whole ++ fraction) 0 < 2 ^ 96 →
            d.toRat = signOf sign.isNegative * Decimal.fixedPoint whole fraction)) := by
  refine ⟨fun pointless => ?_, fun fraction digits' => ?_⟩
  · have read : number sign.isNegative (whole ++ rest) = (ofInteger sign.isNegative whole, rest) :=
      number_whole digits ends pointless
    have some := startsWithDigit_of_forall digits.some digits.digits
    simp only [scan_number blank some read, Scan.answer, ofInteger_eq, true_and]
    split_ifs <;> rfl
  · have read : number sign.isNegative (whole ++ '.' :: fraction ++ rest) =
        (ofDecimal sign.isNegative whole fraction, rest) :=
      number_fixedPoint digits digits' ends
    have some : startsWithDigit (whole ++ '.' :: fraction) := digits.startsWithDigit_append _
    simp only [scan_number blank some read, Scan.answer, true_and]
    rw [← isTooLarge_iff sign.isNegative]
    refine ⟨fun none => by rw [ofDecimal_eq_fault none, answer], fun found => ?_⟩
    obtain ⟨d, found⟩ := Option.ne_none_iff_exists'.mp found
    obtain ⟨short, near, exact⟩ := Decimal.toRat_of_ofDigits? digits'.digits found
    refine ⟨d, ?_, d.mantissa_lt, Nat.le_min.mpr ⟨d.scale_le, short⟩, near, exact⟩
    simp only [ofDecimal, found, answer]

/-- The least integer is read after a blank, the number after the greatest one is refused. A number
that rounds to `2 ^ 96` gives up its last place, and is refused if it has none. -/
theorem numbers_keep_value_limits :
    (Cursor.mk " -9223372036854775808,".toList 7).scan.answer = .ok (some (.integer (-2 ^ 63))) ∧
      (Cursor.mk "+9223372036854775808.x".toList 0).scan.answer =
        .error ⟨.invalidNumber "9223372036854775808", 0⟩ ∧
      (∃ d : Decimal,
        (Cursor.mk "-7922816251426433759354395033.55".toList 0).scan.answer =
          .ok (some (.decimal d)) ∧
        |d.toRat -
            signOf true * Decimal.fixedPoint "7922816251426433759354395033".toList ['5', '5']| ≤
          1 / 2 / 10 ^ d.scale) ∧
      (Cursor.mk "79228162514264337593543950335.50".toList 0).scan.answer =
        .error ⟨.invalidNumber "79228162514264337593543950335.50", 0⟩ := by
  have isDigits (cs : List Char) (some : cs ≠ []) (digits : cs.all Char.isDigit) : IsDigits cs :=
    ⟨some, List.all_eq_true.mp digits⟩
  have blank : ∀ b ∈ [' '], isBlank b := List.forall_mem_singleton.mpr rfl
  have five : IsDigits ['5', '5'] := isDigits _ (by decide) rfl
  refine ⟨?_, ?_, ?_, ?_⟩
  · exact ((numbers_keep_value .minus [' '] "9223372036854775808".toList [','] 7 blank
      (isDigits _ (by decide) rfl) (by decide)).1 (by simp)).2
  · have pointless : ∀ more, ['.', 'x'] = '.' :: more → ¬ startsWithDigit more := by
      rintro more ⟨rfl⟩
      decide
    exact ((numbers_keep_value .plus [] "9223372036854775808".toList ['.', 'x'] 0
      (List.forall_mem_nil _) (isDigits _ (by decide) rfl) (by decide)).1 pointless).2.trans
      (if_neg (by decide))
  · obtain ⟨-, -, found⟩ := (numbers_keep_value .minus [] "7922816251426433759354395033".toList [] 0
      (List.forall_mem_nil _) (isDigits _ (by decide) rfl) (by decide)).2 _ five
    obtain ⟨d, read, -, -, near, -⟩ := found (by decide)
    exact ⟨d, read, near⟩
  · exact ((numbers_keep_value .none [] "79228162514264337593543950335".toList [] 0
      (List.forall_mem_nil _) (isDigits _ (by decide) rfl) (by decide)).2 ['5', '0']
      (isDigits _ (by decide) rfl)).2.1 (.inr ⟨by decide, '5', rfl, Std.le_refl _⟩)

end QueryTree
