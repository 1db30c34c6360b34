/-! # Decimal numbers

A sign, a mantissa below `2 ^ 96` and a scale of at most 28. The number is the mantissa divided by
`10 ^ scale`, so that `1.0` and `1.00` are two decimals of the same value.
-/

namespace QueryTree

namespace Decimal

/-- Mantissas have 96 bits and stay below this number. -/
def capacity : Nat := 0x1000000000000000000000000

def maxScale : Nat := 28

end Decimal

structure Decimal where
  negative : Bool
  mantissa : Nat
  scale : Nat
  mantissa_lt : mantissa < Decimal.capacity
  scale_le : scale ≤ Decimal.maxScale
  nonneg_of_zero : mantissa = 0 → negative = false
  deriving DecidableEq

namespace Decimal

/-- The sign of a zero is dropped. -/
def ofParts? (negative : Bool) (mantissa scale : Nat) : Option Decimal :=
  if h : mantissa < capacity ∧ scale ≤ maxScale then
    some
      { negative := negative && mantissa != 0
        mantissa
        scale
        mantissa_lt := h.1
        scale_le := h.2
        nonneg_of_zero := by simp +contextual }
  else
    none

/-- Leaves out the digits that do not fit, after rounding `up` or down. A mantissa that this makes
too large gives up one more digit; without a digit to give up the number has no decimal. -/
def settle? (up : Bool) (mantissa scale : Nat) : Option (Nat × Nat) :=
  let rounded := if up then mantissa + 1 else mantissa
  if rounded < capacity then some (rounded, scale)
  else if scale = 0 then none
  else some ((rounded + 4) / 10, scale - 1)

/-- Takes the digits after the point one by one while mantissa and scale have room. The first digit
left out decides the rounding, and the ones after it are not looked at. -/
def extend? (mantissa scale : Nat) : List Char → Option (Nat × Nat)
  | [] => some (mantissa, scale)
  | c :: rest =>
    let digit := c.toNat - '0'.toNat
    if mantissa * 10 + digit < capacity ∧ scale < maxScale then
      extend? (mantissa * 10 + digit) (scale + 1) rest
    else
      settle? (5 ≤ digit) mantissa scale

def ofDigits? (negative : Bool) (whole fraction : List Char) : Option Decimal :=
  let mantissa := Nat.ofDigitChars 10 whole 0
  if mantissa < capacity then
    (extend? mantissa 0 fraction).bind fun (mantissa, scale) => ofParts? negative mantissa scale
  else
    none

/-- Reads a text of the form `12`, `12.50` or `-12.50`. -/
def ofString? (s : String) : Option Decimal :=
  let (negative, digits) :=
    match s.toList with
    | '-' :: rest => (true, rest)
    | rest => (false, rest)
  let whole := digits.takeWhile Char.isDigit
  match digits.dropWhile Char.isDigit with
  | [] => if whole.isEmpty then none else ofDigits? negative whole []
  | '.' :: fraction =>
    if whole.isEmpty || fraction.isEmpty || !fraction.all Char.isDigit then none
    else ofDigits? negative whole fraction
  | _ => none

/-- Written with exactly `scale` digits after the point, and no point if there are none. -/
def render (d : Decimal) : String :=
  let digits := (Nat.toDigits 10 d.mantissa).leftpad (d.scale + 1) '0'
  let whole := digits.take (digits.length - d.scale)
  let fraction := digits.drop (digits.length - d.scale)
  let sign := if d.negative then ['-'] else []
  String.ofList (sign ++ whole ++ if d.scale = 0 then [] else '.' :: fraction)

/-- Equality of the numbers, whatever their scales. -/
def equiv (a b : Decimal) : Bool :=
  a.negative == b.negative && a.mantissa * Nat.pow 10 b.scale == b.mantissa * Nat.pow 10 a.scale

end Decimal

end QueryTree
