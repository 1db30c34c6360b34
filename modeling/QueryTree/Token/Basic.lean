import QueryTree.Decimal
import QueryTree.Text.Quoted

/-! # Tokens of the query language

Reserved words are recognised whatever the case of their ASCII letters. The words for the two
truth values and for null are not reserved: they are literals.
-/

namespace QueryTree

inductive Keyword where
  | select | from_ | where_ | delete | update | set_ | and | or | not | like | in_ | between | is
  | order | by_ | asc | desc | skip | limit
  deriving DecidableEq

inductive Mark where
  | equal | notEqual | less | lessEqual | greater | greaterEqual
  | opening | closing | comma | dot | star
  deriving DecidableEq

inductive Token where
  | integer (n : Int)
  | decimal (d : Decimal)
  | string (s : String)
  | boolean (b : Bool)
  | null
  | named (name : String)
  | positional (n : Nat)
  | identifier (name : String)
  | keyword (k : Keyword)
  | mark (m : Mark)
  deriving DecidableEq

namespace Keyword

def all : List Keyword :=
  [select, from_, where_, delete, update, set_, and, or, not, like, in_, between, is, order, by_,
   asc, desc, skip, limit]

def name : Keyword → String
  | select => "SELECT"
  | from_ => "FROM"
  | where_ => "WHERE"
  | delete => "DELETE"
  | update => "UPDATE"
  | set_ => "SET"
  | and => "AND"
  | or => "OR"
  | not => "NOT"
  | like => "LIKE"
  | in_ => "IN"
  | between => "BETWEEN"
  | is => "IS"
  | order => "ORDER"
  | by_ => "BY"
  | asc => "ASC"
  | desc => "DESC"
  | skip => "SKIP"
  | limit => "LIMIT"

end Keyword

namespace Mark

/-- Every spelling of a mark. A spelling stands before those that it extends. -/
def spellings : List (List Char × Mark) :=
  [(['<', '='], lessEqual), (['<', '>'], notEqual), (['>', '='], greaterEqual),
   (['!', '='], notEqual), (['='], equal), (['<'], less), (['>'], greater), (['('], opening),
   ([')'], closing), ([','], comma), (['.'], dot), (['*'], star)]

def name : Mark → String
  | equal => "="
  | notEqual => "<>"
  | less => "<"
  | lessEqual => "<="
  | greater => ">"
  | greaterEqual => ">="
  | opening => "("
  | closing => ")"
  | comma => ","
  | dot => "."
  | star => "*"

end Mark

namespace Token

/-- Only the ASCII letters change. -/
def foldCase (word : String) : String := String.ofList (word.toList.map Char.toUpper)

def reserved : List (String × Token) :=
  Keyword.all.map (fun k => (k.name, keyword k)) ++
    [("TRUE", boolean true), ("FALSE", boolean false), ("NULL", null)]

def ofReserved? (word : String) : Option Token := reserved.lookup (foldCase word)

def ofWord (word : String) : Token := (ofReserved? word).getD (identifier word)

def isKeyword : Token → Bool
  | keyword _ => true
  | _ => false

def isIdentifier : Token → Bool
  | identifier _ => true
  | _ => false

def fragment : Token → String
  | integer n => n.repr
  | decimal d => d.render
  | string s => Text.quoted s
  | boolean true => "TRUE"
  | boolean false => "FALSE"
  | null => "NULL"
  | named name => ":" ++ name
  | positional n => "?" ++ n.repr
  | identifier name => name
  | keyword k => k.name
  | mark m => m.name

end Token

/-- What stands for the end of a query where a token is named. -/
def endOfQuery : String := "<end of query>"

end QueryTree
