import QueryTree.Binding.Binder
import QueryTree.Binding.Style
import QueryTree.Cache.Basic
import QueryTree.Main
import QueryTree.Proofs.Binding.Latest
import QueryTree.Proofs.Binding.Outcome
import QueryTree.Proofs.Binding.Registry
import QueryTree.Proofs.Binding.Rewriting
import QueryTree.Proofs.Binding.Singles
import QueryTree.Proofs.Binding.Suitable
import QueryTree.Proofs.Binding.Unbound
import QueryTree.Proofs.Cache.Discipline
import QueryTree.Proofs.Condition.Comparisons
import QueryTree.Proofs.Condition.Shape
import QueryTree.Proofs.Condition.Truth
import QueryTree.Proofs.Decimal.Rounding
import QueryTree.Proofs.Dialects.Faults
import QueryTree.Proofs.Dialects.Meeting
import QueryTree.Proofs.Dialects.Printing
import QueryTree.Proofs.Grammar.Fallback
import QueryTree.Proofs.Grammar.Placeholders
import QueryTree.Proofs.Grammar.Reuse
import QueryTree.Proofs.Json.Decoding
import QueryTree.Proofs.MethodName.Alignment
import QueryTree.Proofs.MethodName.Fields
import QueryTree.Proofs.MethodName.Keywords
import QueryTree.Proofs.MethodName.Marks
import QueryTree.Proofs.MethodName.RoundTrip
import QueryTree.Proofs.MethodName.Slicing
import QueryTree.Proofs.MethodName.Suffixes
import QueryTree.Proofs.Token.Canonical
import QueryTree.Proofs.Token.Colons
import QueryTree.Proofs.Token.Discipline
import QueryTree.Proofs.Token.Layout
import QueryTree.Proofs.Token.Lexer
import QueryTree.Proofs.Token.Numerals
