import QueryTree.Text.Case

/-! # The manual

What the command line tells about the two ways to write queries, by topic.
-/

namespace QueryTree

namespace Manual

def lines (ls : List String) : String := String.join (ls.map (· ++ "\n"))

def overview : String :=
  lines
    ["EQUERY DOCUMENTATION",
     "",
     "equery parses entity queries into a single query tree. Queries are written",
     "either as SQL-like text or as repository method names that spell out the",
     "query in camel case.",
     "",
     "DOCUMENTATION CATEGORIES",
     "",
     "  select            SELECT queries, field lists, ORDER BY, SKIP and LIMIT",
     "  delete            DELETE queries",
     "  update            UPDATE ... SET queries",
     "  conditions        WHERE clauses: comparisons, AND, OR, NOT and grouping",
     "  values            Literals, parameters, enum constants and functions",
     "  derived           Method-name queries such as findByNameOrderByAgeDesc",
     "",
     "QUICK REFERENCE",
     "",
     "  SELECT * FROM Person WHERE age > 10",
     "  FROM Person WHERE name = :name         (SELECT may be omitted)",
     "  DELETE FROM Person WHERE id = ?1",
     "  UPDATE Person SET age = 30 WHERE name = 'Ada'",
     "  findByNameAndAgeOrderByNameDesc        (derived query)",
     "",
     "Run 'equery doc <category>' for detailed documentation."]

def selectText : String :=
  lines
    ["SELECT - Reading Entities",
     "",
     "FORM",
     "  [SELECT [fields]] FROM Entity [WHERE condition]",
     "      [ORDER BY field [ASC|DESC], ...] [SKIP n] [LIMIT n]",
     "",
     "    Example:",
     "      Query:  SELECT name, address.city FROM Person WHERE age > 21",
     "              ORDER BY name ASC, age DESC SKIP 10 LIMIT 5",
     "",
     "FIELD LIST",
     "  Omit the list, or write *, to select every field. Nested fields use dots.",
     "",
     "      SELECT * FROM Person",
     "      FROM Person",
     "      SELECT address.city FROM Person",
     "",
     "COUNTING",
     "  count(this) turns the query into a count. It must be the only field.",
     "",
     "      SELECT count(this) FROM Person WHERE active = true",
     "",
     "    Output:",
     "      \x7b\"type\": \"select\", \"count\": true, \"fields\": [], ...\x7d",
     "",
     "PAGING",
     "  SKIP and LIMIT take non-negative integers. 0 means \"not set\".",
     "",
     "ENTITY",
     "  The entity after FROM may be left out when a default entity is given:",
     "",
     "      equery check --entity Person \"SELECT * WHERE age > 10\""]

def deleteText : String :=
  lines
    ["DELETE - Removing Entities",
     "",
     "FORM",
     "  DELETE [fields] FROM Entity [WHERE condition]",
     "",
     "    Example:",
     "      Query:  DELETE FROM Person WHERE age < 10 AND active = false",
     "",
     "  A field list removes just those fields instead of the whole entity:",
     "",
     "      DELETE nickname FROM Person WHERE id = ?1",
     "",
     "    Constraints:",
     "      - No ORDER BY, SKIP or LIMIT",
     "      - Without a WHERE clause every entity matches"]

def updateText : String :=
  lines
    ["UPDATE - Changing Entities",
     "",
     "FORM",
     "  UPDATE Entity SET field = value [, field = value ...] [WHERE condition]",
     "",
     "    Example:",
     "      Query:  UPDATE Person SET age = :age, active = true WHERE name = 'Ada'",
     "",
     "    Constraints:",
     "      - At least one assignment is required",
     "      - The right side of an assignment is any value (see 'equery doc values')"]

def conditionsText : String :=
  lines
    ["CONDITIONS - WHERE Clauses",
     "",
     "COMPARISONS",
     "  field = value         EQUALS",
     "  field <> value        NOT_EQUALS (also written !=)",
     "  field > value         GREATER_THAN",
     "  field >= value        GREATER_EQUALS_THAN",
     "  field < value         LESSER_THAN",
     "  field <= value        LESSER_EQUALS_THAN",
     "  field LIKE value      LIKE",
     "  field IN (a, b, c)    IN, the value is an array",
     "  field BETWEEN a AND b BETWEEN, the value is an array of two",
     "  field IS NULL         EQUALS null",
     "  field IS NOT NULL     NOT (EQUALS null)",
     "",
     "NEGATION",
     "  NOT condition         One NOT per condition; group to nest: NOT (NOT ...)",
     "  field NOT LIKE value",
     "  field NOT IN (...)",
     "  field NOT BETWEEN a AND b",
     "",
     "    NOT over <> collapses into a plain EQUALS:",
     "",
     "      Query:  NOT age <> 10",
     "      Tree:   age EQUALS 10",
     "",
     "LOGIC",
     "  AND binds tighter than OR. Chains of the same operator are flattened",
     "  into one node with many children. Parentheses group conditions.",
     "",
     "    Example:",
     "      Query:  FROM Person WHERE (age > 10 OR age < 5) AND active = true",
     "      Tree:   AND(OR(age > 10, age < 5), active = true)",
     "",
     "KEYWORDS",
     "  Keywords are case-insensitive: where, WHERE and Where all work."]

def valuesText : String :=
  lines
    ["VALUES - Literals, Parameters and More",
     "",
     "LITERALS",
     "  'text' or \"text\"      String. Double the quote to escape it: 'it''s'",
     "  42, -7                Integer",
     "  3.14, -0.5            Decimal (kept exact)",
     "  true, false           Boolean",
     "  null                  Null",
     "",
     "PARAMETERS",
     "  :name                 Named parameter",
     "  ?1, ?2                Positional parameter, counted from 1",
     "",
     "    Parameters are placeholders. Bind them before running the query:",
     "",
     "      FROM Person WHERE name = :name AND age > ?1",
     "",
     "    A query uses named or positional parameters, see 'BindStyle'.",
     "",
     "ENUM CONSTANTS",
     "  Status.ACTIVE         A dotted path names an enum constant",
     "",
     "FUNCTIONS",
     "  upper(name)           Function calls keep their arguments as values.",
     "                        Names are upper-cased.",
     "",
     "ARRAYS",
     "  Arrays only appear as the right side of IN and BETWEEN."]

def derivedText : String :=
  lines
    ["DERIVED - Queries from Method Names",
     "",
     "FORM",
     "  <verb>[Subject]By<Predicate>[OrderBy<Property><Asc|Desc>...]",
     "",
     "VERBS",
     "  find                  SELECT",
     "  count                 SELECT with count set",
     "  exists                SELECT with count set",
     "  delete                DELETE",
     "",
     "SUBJECT",
     "  findAll               Every entity",
     "  findFirst, findTop    Limit 1",
     "  findFirst10, findTop3 Limit n",
     "",
     "PREDICATE",
     "  Properties are joined with And and Or. Or splits first, so",
     "  findByAOrBAndC reads as A OR (B AND C).",
     "",
     "  Keyword               Operator            Parameters",
     "  (none), Equals        EQUALS              1",
     "  GreaterThan           GREATER_THAN        1",
     "  GreaterThanEqual      GREATER_EQUALS_THAN 1",
     "  LessThan              LESSER_THAN         1",
     "  LessThanEqual         LESSER_EQUALS_THAN  1",
     "  Like                  LIKE                1",
     "  In                    IN                  1",
     "  Between               BETWEEN             2",
     "  Contains              CONTAINS            1",
     "  StartsWith            STARTS_WITH         1",
     "  EndsWith              ENDS_WITH           1",
     "  True, False           EQUALS true/false   0",
     "  Null                  EQUALS null         0",
     "",
     "  Not negates a property: findByNameNot, findByAgeNotIn.",
     "  IgnoreCase wraps it:    findByNameIgnoreCase.",
     "",
     "  Keywords only count at the end of a property, so findByInStock and",
     "  findByLikeCount compare the inStock and likeCount properties.",
     "  A bare verb such as 'find' is rejected; use findAll.",
     "",
     "NESTED PROPERTIES",
     "  An underscore walks into a nested property:",
     "",
     "      findBySalary_Currency     salary.currency",
     "",
     "ORDERING",
     "  OrderBy<Property>[Asc|Desc], repeat the property to sort by more:",
     "",
     "      findByAgeOrderByNameAscAgeDesc",
     "",
     "    Example:",
     "      Method: findByNameAndAgeOrderByNameDesc",
     "      Tree:   SELECT FROM Person WHERE name = ?1 AND age = ?2 ORDER BY name DESC",
     "",
     "  Run 'equery tokens <method>' to see how a name is split."]

inductive Topic where
  | select | delete | update | conditions | values | derived
  deriving DecidableEq

def topics : List (String × Topic) :=
  [("select", .select), ("selects", .select), ("delete", .delete), ("deletes", .delete),
   ("update", .update), ("updates", .update), ("conditions", .conditions),
   ("condition", .conditions), ("where", .conditions), ("operators", .conditions),
   ("values", .values), ("value", .values), ("params", .values), ("parameters", .values),
   ("derived", .derived), ("methods", .derived), ("method", .derived),
   ("derived_queries", .derived)]

/-- Case does not matter, and a hyphen stands for an underscore. -/
def Topic.ofName? (name : String) : Option Topic :=
  topics.lookup ((Text.lower name).map fun c => if c = '-' then '_' else c)

def Topic.text : Topic → String
  | .select => selectText
  | .delete => deleteText
  | .update => updateText
  | .conditions => conditionsText
  | .values => valuesText
  | .derived => derivedText

end Manual

end QueryTree
