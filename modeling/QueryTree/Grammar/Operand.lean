import QueryTree.Grammar.Reading
import QueryTree.Operand
import QueryTree.Text.Case

/-! # Reading names and operands

Names are words joined by dots; after a dot a reserved word is a plain name. An operand is a
literal, a parameter, a call or the dotted name of an enum constant.
-/

namespace QueryTree.Grammar

open Reader Trail Phrase

def identifier : Phrase String := word Token.isIdentifier .fieldName

/-- A word, reserved or not. -/
def segment : Phrase String := word (fun t => t.isIdentifier || t.isKeyword) .fieldName

def dotted (first : String) : Trail String := do
  if ← accept (.mark .dot) then
    let rest ← chain (.mark .dot) segment
    return ".".intercalate (first :: rest)
  else
    return first

def path : Phrase String := identifier.andThen dotted

def literal? : Token → Option Operand
  | .string s => some (.string s)
  | .integer n => some (.integer n)
  | .decimal d => some (.decimal d)
  | .boolean b => some (.boolean b)
  | .null => some .null
  | .named name => some (.param (.named name))
  | .positional n => some (.param (.positional n))
  | _ => none

section Nested

variable (n : Nat) (inner : (r : Reader) → r.size < n → Reading Operand r.size)

def argumentsWith (r : Reader) (h : r.size < n) : Reading (List Operand) (r.size + 1) :=
  let args : Reading (List Operand) (r.size + 1) :=
    if r.token? = some (.mark .closing) then .stay [] r
    else
      (chainFrom (.mark .comma) r fun r₁ h₁ => inner r₁ (Nat.lt_of_le_of_lt h₁ h)).loosen
  args.thenPhrase fun items r₁ _ => (expect (.mark .closing) r₁).map fun _ => items

def afterNameWith (name : String) (r : Reader) (h : r.size < n) : Reading Operand (r.size + 1) :=
  match r.accept? (.mark .opening) with
  | some taken =>
    (taken.bind fun _ r₁ h₁ =>
      ((argumentsWith n inner r₁ (Nat.lt_trans h₁ h)).map (.call (Text.upper name))).relax
        h₁).loosen
  | none =>
    if r.token? = some (.mark .dot) then (dotted name r).map .enum
    else .failed (.unexpected name .operandAfterName) r

/-- An operand whose nested operands are read by `inner`. An error after its first lexeme cuts the
query off. -/
def operandWith (r : Reader) (h : r.size ≤ n) : Reading Operand r.size :=
  match r with
  | finished => .failed (.ended .operand) finished
  | facing l ahead =>
    match l.token with
    | .identifier name =>
      (step (.cutOff l.text) ahead).bind fun _ r₁ h₁ =>
        (afterNameWith n inner name r₁ (Nat.lt_of_lt_of_le h₁ h)).relax h₁
    | t =>
      match literal? t with
      | some v => (step (.cutOff l.text) ahead).map fun _ => v
      | none => .failed (.unexpected l.text .operand) (facing l ahead)

end Nested

def operand : Phrase Operand := fun r =>
  operandWith r.size (fun r₁ _ => operand r₁) r (Nat.le_refl _)
termination_by r => r.size

end QueryTree.Grammar
