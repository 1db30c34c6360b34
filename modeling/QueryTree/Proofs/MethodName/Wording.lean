import Mathlib.Algebra.GroupWithZero.Nat
import QueryTree.MethodName.Derive
import QueryTree.Proofs.MethodName.Naming

/-! # Wordings of method names

A wording is a sequence of words in which every word has its place, together with what the words
stand for. It knows nothing of how a name is cut into words or how words are read.
-/

namespace QueryTree.MethodName

inductive Test where
  | equals | greaterThan | greaterThanEqual | lessThan | lessThanEqual | like | in_ | contains
  | startsWith | endsWith | between | true_ | false_ | null
  deriving DecidableEq

namespace Test

def all : List Test :=
  [equals, greaterThan, greaterThanEqual, lessThan, lessThanEqual, like, in_, contains, startsWith,
   endsWith, between, true_, false_, null]

def word : Test → String
  | equals => "Equals"
  | greaterThan => "GreaterThan"
  | greaterThanEqual => "GreaterThanEqual"
  | lessThan => "LessThan"
  | lessThanEqual => "LessThanEqual"
  | like => "Like"
  | in_ => "In"
  | contains => "Contains"
  | startsWith => "StartsWith"
  | endsWith => "EndsWith"
  | between => "Between"
  | true_ => "True"
  | false_ => "False"
  | null => "Null"

theorem mem_all (t : Test) : t ∈ all := by
  cases t <;> decide

def arity : Test → Nat
  | between => 2
  | true_ | false_ | null => 0
  | _ => 1

/-- The comparison of a field, whose parameters are numbered from `n` on. -/
def comparison (field : String) (param : Nat → Operand) (n : Nat) : Test → Condition Operand
  | equals => .leaf field .equals (param n)
  | greaterThan => .leaf field .greaterThan (param n)
  | greaterThanEqual => .leaf field .greaterEqualsThan (param n)
  | lessThan => .leaf field .lesserThan (param n)
  | lessThanEqual => .leaf field .lesserEqualsThan (param n)
  | like => .leaf field .like (param n)
  | in_ => .leaf field .in_ (param n)
  | contains => .leaf field .contains (param n)
  | startsWith => .leaf field .startsWith (param n)
  | endsWith => .leaf field .endsWith (param n)
  | between => .leaf field .between (.list [param n, param (n + 1)])
  | true_ => .leaf field .equals (.boolean true)
  | false_ => .leaf field .equals (.boolean false)
  | null => .leaf field .equals .null

end Test

inductive Modifier where
  | not | ignoreCase
  | test (t : Test)
  deriving DecidableEq

/-- Modifiers of one kind exclude each other. -/
inductive Modifier.Kind where
  | negation | casing | test
  deriving DecidableEq

namespace Modifier

def all : List Modifier := .not :: .ignoreCase :: Test.all.map .test

theorem mem_all (m : Modifier) : m ∈ all := by
  cases m with
  | test t => simp [all, t.mem_all]
  | _ => simp [all]

def word : Modifier → String
  | not => "Not"
  | ignoreCase => "IgnoreCase"
  | test t => t.word

def kind : Modifier → Kind
  | not => .negation
  | ignoreCase => .casing
  | test _ => .test

def test? : Modifier → Option Test
  | test t => some t
  | _ => none

end Modifier

def reservedWords : List String :=
  ["And", "Or", "OrderBy", "By", "Asc", "Desc"] ++ Modifier.all.map Modifier.word

def spell (ws : List String) : List Char := ws.flatMap String.toList

@[simp] theorem spell_nil : spell [] = [] := rfl

@[simp] theorem spell_cons (w : String) (ws : List String) :
    spell (w :: ws) = w.toList ++ spell ws := rfl

@[simp] theorem spell_append (ws ws' : List String) :
    spell (ws ++ ws') = spell ws ++ spell ws' := by
  simp [spell]

namespace Wording

/-- A property, the field it stands for, and modifiers in any order, none of a kind twice. -/
structure Segment where
  property : String
  field : String
  modifiers : List Modifier
  stands : StandsFor property field
  plain : property ∉ reservedWords
  once : (modifiers.map Modifier.kind).Nodup

namespace Segment

variable (s : Segment)

def words : List String := s.property :: s.modifiers.map Modifier.word

/-- Equality if no modifier says otherwise. -/
def test : Test := (s.modifiers.findSome? Modifier.test?).getD .equals

/-- The parameter at a position is named after the last part of the field. -/
def param (position : Nat) : Operand := .param (.indexed (Text.lastSegment s.field) position)

/-- What the segment demands, with parameters numbered from `n` on. A negation stands outside. -/
def condition (n : Nat) : Condition Operand :=
  let comparison := s.test.comparison s.field s.param n
  let cased := if .ignoreCase ∈ s.modifiers then .node .ignoreCase [comparison] else comparison
  if .not ∈ s.modifiers then .node .not [cased] else cased

end Segment

/-- Segments that are met together. -/
structure Group where
  segments : List Segment
  some : segments ≠ []

def Group.words (g : Group) : List String := ["And"].intercalate (g.segments.map Segment.words)

structure Bound where
  top : Bool
  number : Option String
  positive : ∀ digits ∈ number, digits.toList.all Char.isDigit ∧
    0 < Nat.ofDigitChars 10 digits.toList 0 ∧ Nat.ofDigitChars 10 digits.toList 0 < UInt64.size

namespace Bound

def words (b : Bound) : List String := (if b.top then "Top" else "First") :: b.number.toList

def limit (b : Bound) : Nat :=
  match b.number with
  | some digits => Nat.ofDigitChars 10 digits.toList 0
  | none => 1

end Bound

inductive Direction where
  | asc | desc
  deriving DecidableEq

def Direction.word : Direction → String
  | asc => "Asc"
  | desc => "Desc"

structure Key where
  property : String
  field : String
  direction : Option Direction
  stands : StandsFor property field
  plain : property ∉ reservedWords

namespace Key

variable (k : Key)

def words : List String := k.property :: (k.direction.map Direction.word).toList

def sortKey : SortKey := ⟨k.field, k.direction ≠ some .desc⟩

end Key

end Wording

def Verb.word : Verb → String
  | find => "find"
  | count => "count"
  | exists_ => "exists"
  | delete => "delete"

/-- The words of a method name by their places. Only a search is bounded, nothing deleted is sorted,
and something follows the verb. -/
structure Wording where
  verb : Verb
  before : Nat
  bound : Option Wording.Bound
  after : Nat
  predicate : Option (List Wording.Group)
  sorts : List Wording.Key
  searches : bound.isSome → verb = .find
  kept : verb = .delete → sorts = []
  goesOn : before = 0 → bound = none → after = 0 → predicate = none → sorts ≠ []

namespace Wording

/-- The groups are alternatives. Parameters are numbered from one on in the order of the words. -/
def demand (groups : List Group) : Condition Operand :=
  .join .or (groups.mapIdx fun i group =>
    .join .and (group.segments.mapIdx fun j s =>
      let earlier := (groups.take i).flatMap Group.segments ++ group.segments.take j
      s.condition (1 + (earlier.map fun s => s.test.arity).sum)))

variable (w : Wording)

def subjectWords : List String :=
  .replicate w.before "All" ++ (w.bound.elim [] Bound.words ++ .replicate w.after "All")

def predicateWords (groups : List Group) : List String :=
  ["Or"].intercalate (groups.map Group.words)

def clauseWords : List String := w.predicate.elim [] fun groups => "By" :: predicateWords groups

def orderWords : List String :=
  if w.sorts = [] then [] else "OrderBy" :: w.sorts.flatMap Key.words

def words : List String := w.verb.word :: (w.subjectWords ++ (w.clauseWords ++ w.orderWords))

def render : String := String.ofList (spell w.words)

def condition : Option (Condition Operand) :=
  match w.predicate.getD [] with
  | [] => none
  | groups => some (demand groups)

def statement (entity : String) : Statement :=
  if w.verb = .delete then .delete { entity, fields := [], condition := w.condition }
  else
    .select
      { entity, fields := [], condition := w.condition, sorts := w.sorts.map Key.sortKey,
        limit := w.bound.elim 0 Bound.limit, skip := 0, count := w.verb ≠ .find }

end Wording

end QueryTree.MethodName
