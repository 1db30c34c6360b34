import Mathlib.Data.List.Forall2
import QueryTree.Grammar.Statement

/-! # The rules of the query language

A rule relates a sequence of lexemes to what its beginning stands for and to the lexemes that
follow this beginning. The rules are those of a grammar: of the lexemes that follow they look at
nothing, except that an entity may be left out only before a reserved word or the end.
-/

namespace QueryTree.Grammar

abbrev Rule (α : Type) : Type := List Lexeme → α → List Lexeme → Prop

namespace Rule

/-- Items with a separator between any two of them, and at least one. -/
inductive Chain {α : Type} (separator : Token) (item : Rule α) : Rule (List α) where
  | last {ls a rest} : item ls a rest → Chain separator item ls [a] rest
  | more {ls a text mid as rest} : item ls a (⟨separator, text⟩ :: mid) →
      Chain separator item mid as rest → Chain separator item ls (a :: as) rest

/-- What the word `k` announces, and `absent` without that word. -/
inductive Clause {α : Type} (k : Keyword) (body : Rule α) (absent : α) : Rule α where
  | omitted {rest} : Clause k body absent rest absent rest
  | given {text ls a rest} : body ls a rest →
      Clause k body absent (⟨.keyword k, text⟩ :: ls) a rest

inductive Segment : Rule String where
  | identifier {name text rest} : Segment (⟨.identifier name, text⟩ :: rest) text rest
  | keyword {k text rest} : Segment (⟨.keyword k, text⟩ :: rest) text rest

inductive Path : Rule String where
  | single {name text rest} : Path (⟨.identifier name, text⟩ :: rest) text rest
  | dotted {name text dot ls segments rest} : Chain (.mark .dot) Segment ls segments rest →
      Path (⟨.identifier name, text⟩ :: ⟨.mark .dot, dot⟩ :: ls)
        (".".intercalate (text :: segments)) rest

inductive Literal : Token → Operand → Prop where
  | string {s} : Literal (.string s) (.string s)
  | integer {n} : Literal (.integer n) (.integer n)
  | decimal {d} : Literal (.decimal d) (.decimal d)
  | boolean {b} : Literal (.boolean b) (.boolean b)
  | null : Literal .null .null
  | named {name} : Literal (.named name) (.param (.named name))
  | positional {n} : Literal (.positional n) (.param (.positional n))

inductive Value : Rule Operand where
  | literal {t v text rest} : Literal t v → Value (⟨t, text⟩ :: rest) v rest
  | emptyCall {name text opening closing rest} :
      Value (⟨.identifier name, text⟩ :: ⟨.mark .opening, opening⟩ :: ⟨.mark .closing, closing⟩ ::
        rest) (.call (Text.upper name) []) rest
  | call {name text opening ls args closing rest} :
      Chain (.mark .comma) Value ls args (⟨.mark .closing, closing⟩ :: rest) →
      Value (⟨.identifier name, text⟩ :: ⟨.mark .opening, opening⟩ :: ls)
        (.call (Text.upper name) args) rest
  | constant {name text dot ls segments rest} : Chain (.mark .dot) Segment ls segments rest →
      Value (⟨.identifier name, text⟩ :: ⟨.mark .dot, dot⟩ :: ls)
        (.enum (".".intercalate (name :: segments))) rest

inductive Comparator : Mark → Operator → Prop where
  | equal : Comparator .equal .equals
  | notEqual : Comparator .notEqual .notEquals
  | less : Comparator .less .lesserThan
  | lessEqual : Comparator .lessEqual .lesserEqualsThan
  | greater : Comparator .greater .greaterThan
  | greaterEqual : Comparator .greaterEqual .greaterEqualsThan

inductive WordComparison (field : String) : Rule (Condition Operand) where
  | like {text ls v rest} : Value ls v rest →
      WordComparison field (⟨.keyword .like, text⟩ :: ls) (.leaf field .like v) rest
  | in_ {text opening ls items closing rest} :
      Chain (.mark .comma) Value ls items (⟨.mark .closing, closing⟩ :: rest) →
      WordComparison field (⟨.keyword .in_, text⟩ :: ⟨.mark .opening, opening⟩ :: ls)
        (.leaf field .in_ (.list items)) rest
  | between {text ls low and mid high rest} : Value ls low (⟨.keyword .and, and⟩ :: mid) →
      Value mid high rest →
      WordComparison field (⟨.keyword .between, text⟩ :: ls)
        (.leaf field .between (.list [low, high])) rest

inductive Comparison : Rule (Condition Operand) where
  | mark {ls field m text mid op v rest} : Path ls field (⟨.mark m, text⟩ :: mid) →
      Comparator m op → Value mid v rest → Comparison ls (.leaf field op v) rest
  | word {ls field mid c rest} : Path ls field mid → WordComparison field mid c rest →
      Comparison ls c rest
  | notWord {ls field not mid c rest} : Path ls field (⟨.keyword .not, not⟩ :: mid) →
      WordComparison field mid c rest → Comparison ls (.node .not [c]) rest
  | isNull {ls field is null rest} :
      Path ls field (⟨.keyword .is, is⟩ :: ⟨.null, null⟩ :: rest) →
      Comparison ls (.leaf field .equals .null) rest
  | isNotNull {ls field is not null rest} :
      Path ls field (⟨.keyword .is, is⟩ :: ⟨.keyword .not, not⟩ :: ⟨.null, null⟩ :: rest) →
      Comparison ls (.node .not [.leaf field .equals .null]) rest

/-- A single condition stands for itself; several are the children of one node. -/
inductive Joined (op : Operator) : List (Condition Operand) → Condition Operand → Prop where
  | single {c} : Joined op [c] c
  | several {c d cs} : Joined op (c :: d :: cs) (.node op (c :: d :: cs))

mutual

inductive Primary : Rule (Condition Operand) where
  | comparison {ls c rest} : Comparison ls c rest → Primary ls c rest
  | parentheses {opening ls c closing rest} :
      Disjunction ls c (⟨.mark .closing, closing⟩ :: rest) →
      Primary (⟨.mark .opening, opening⟩ :: ls) c rest

inductive Negation : Rule (Condition Operand) where
  | plain {ls c rest} : Primary ls c rest → Negation ls c rest
  | not {text ls c rest} : Primary ls c rest →
      Negation (⟨.keyword .not, text⟩ :: ls) (.node .not [c]) rest

inductive Conjunction : Rule (Condition Operand) where
  | mk {ls cs c rest} : Chain (.keyword .and) Negation ls cs rest → Joined .and cs c →
      Conjunction ls c rest

inductive Disjunction : Rule (Condition Operand) where
  | mk {ls cs c rest} : Chain (.keyword .or) Conjunction ls cs rest → Joined .or cs c →
      Disjunction ls c rest

end

/-- What a condition comes to once every negated `<>` in it has become `=`, the inner ones first. -/
inductive Collapsed : Condition Operand → Condition Operand → Prop where
  | comparison {field op v} : Collapsed (.leaf field op v) (.leaf field op v)
  | negated {c field v} : Collapsed c (.leaf field .notEquals v) →
      Collapsed (.node .not [c]) (.leaf field .equals v)
  | node {op cs ds} : List.Forall₂ Collapsed cs ds →
      (∀ field v, op = .not → ds ≠ [.leaf field .notEquals v]) →
      Collapsed (.node op cs) (.node op ds)

inductive Where : Rule (Option (Condition Operand)) where
  | mk {ls c d rest} : Disjunction ls c rest → Collapsed c d → Where ls (some d) rest

inductive Key : Rule SortKey where
  | plain {ls property rest} : Path ls property rest → Key ls ⟨property, true⟩ rest
  | asc {ls property text rest} : Path ls property (⟨.keyword .asc, text⟩ :: rest) →
      Key ls ⟨property, true⟩ rest
  | desc {ls property text rest} : Path ls property (⟨.keyword .desc, text⟩ :: rest) →
      Key ls ⟨property, false⟩ rest

inductive Order : Rule (List SortKey) where
  | mk {text ls keys rest} : Chain (.mark .comma) Key ls keys rest →
      Order (⟨.keyword .by_, text⟩ :: ls) keys rest

inductive Rows : Rule Nat where
  | mk {n : Nat} {text rest} : Rows (⟨.integer n, text⟩ :: rest) n rest

/-- Without a default a reserved word other than `WHERE` names an entity. With a default the entity
may be left out before any reserved word and at the end. -/
inductive Entity (fallback : Option String) : Rule String where
  | identifier {name text rest} : Entity fallback (⟨.identifier name, text⟩ :: rest) text rest
  | keyword {k text rest} : fallback = none → k ≠ .where_ →
      Entity fallback (⟨.keyword k, text⟩ :: rest) text rest
  | atKeyword {name k text rest} : fallback = some name →
      Entity fallback (⟨.keyword k, text⟩ :: rest) name (⟨.keyword k, text⟩ :: rest)
  | atEnd {name} : fallback = some name → Entity fallback [] name []

inductive Selection : Rule (List String × Bool) where
  | star {text rest} : Selection (⟨.mark .star, text⟩ :: rest) ([], false) rest
  | count {name count this opening text closing rest} : sameWord count "count" →
      sameWord this "this" →
      Selection (⟨.identifier name, count⟩ :: ⟨.mark .opening, opening⟩ ::
        ⟨.identifier this, text⟩ :: ⟨.mark .closing, closing⟩ :: rest) ([], true) rest
  | fields {ls fields rest} : Chain (.mark .comma) Path ls fields rest →
      Selection ls (fields, false) rest

/-- The entity of a select. Without `FROM` before it, it is not the word `FROM`. -/
inductive Source (fallback : Option String) : Rule String where
  | from_ {text ls entity rest} : Entity fallback ls entity rest →
      Source fallback (⟨.keyword .from_, text⟩ :: ls) entity rest
  | bare {ls entity rest} : (∀ text more, ls ≠ ⟨.keyword .from_, text⟩ :: more) →
      Entity fallback ls entity rest → Source fallback ls entity rest

/-- The beginning of a select: fields, whether to count, and entity. The selection may be left out
before `FROM`. -/
inductive Head (fallback : Option String) : Rule (List String × Bool × String) where
  | from_ {text ls entity rest} : Entity fallback ls entity rest →
      Head fallback (⟨.keyword .from_, text⟩ :: ls) ([], false, entity) rest
  | selectFrom {select from_ ls entity rest} : Entity fallback ls entity rest →
      Head fallback (⟨.keyword .select, select⟩ :: ⟨.keyword .from_, from_⟩ :: ls)
        ([], false, entity) rest
  | selection {select ls fields count mid entity rest} : Selection ls (fields, count) mid →
      Source fallback mid entity rest →
      Head fallback (⟨.keyword .select, select⟩ :: ls) (fields, count, entity) rest

inductive Deleted : Rule (List String) where
  | whole {text rest} : Deleted (⟨.keyword .from_, text⟩ :: rest) [] rest
  | fields {ls fields text rest} :
      Chain (.mark .comma) Path ls fields (⟨.keyword .from_, text⟩ :: rest) →
      Deleted ls fields rest

inductive Item : Rule Assignment where
  | mk {ls field text mid v rest} : Path ls field (⟨.mark .equal, text⟩ :: mid) →
      Value mid v rest → Item ls ⟨field, v⟩ rest

inductive Clauses (fields : List String) (count : Bool) (entity : String) :
    List Lexeme → Statement → Prop where
  | mk {l₁ condition l₂ sorts l₃ skip l₄ limit} : Clause .where_ Where none l₁ condition l₂ →
      Clause .order Order [] l₂ sorts l₃ → Clause .skip Rows 0 l₃ skip l₄ →
      Clause .limit Rows 0 l₄ limit [] →
      Clauses fields count entity l₁
        (.select { entity, fields, condition, sorts, limit, skip, count })

inductive Sentence (fallback : Option String) : List Lexeme → Statement → Prop where
  | select {ls fields count entity mid s} : Head fallback ls (fields, count, entity) mid →
      Clauses fields count entity mid s → Sentence fallback ls s
  | delete {text ls fields l₁ entity l₂ condition} : Deleted ls fields l₁ →
      Entity fallback l₁ entity l₂ → Clause .where_ Where none l₂ condition [] →
      Sentence fallback (⟨.keyword .delete, text⟩ :: ls) (.delete { entity, fields, condition })
  | update {text ls entity set l₁ items l₂ condition} :
      Entity fallback ls entity (⟨.keyword .set_, set⟩ :: l₁) →
      Chain (.mark .comma) Item l₁ items l₂ → Clause .where_ Where none l₂ condition [] →
      Sentence fallback (⟨.keyword .update, text⟩ :: ls) (.update { entity, items, condition })

end Rule

end QueryTree.Grammar
