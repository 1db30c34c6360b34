import QueryTree.Proofs.Dialects.Spelling
import QueryTree.Proofs.Token.Spellable

/-! # Operands are read back from their text

The operands that a text can give are printed as texts that stand for them, however deep calls are
nested. What follows an operand in a printed text is a comma or a closing mark, and neither changes
how the operand is read.
-/

namespace QueryTree

open Grammar

def IsLexeme (p : Token → Bool) (s : String) : Prop := ∃ t, lexemes s = .ok [⟨t, s⟩] ∧ p t

def IsIdentifier (s : String) : Prop := IsLexeme Token.isIdentifier s

/-- A word that may stand after a dot: the words for the truth values and for null may not. -/
def IsSegment (s : String) : Prop := IsLexeme (fun t => t.isIdentifier || t.isKeyword) s

/-- The operands that are printed as they are read. Integers and positions are within the limits of
their tokens, decimals have digits after the point, and the names of calls are in capitals. -/
inductive Operand.Printable : Operand → Prop where
  | string (s : String) : Printable (.string s)
  | integer {n : Int} : Int64.minValue.toInt ≤ n → n ≤ Int64.maxValue.toInt →
      Printable (.integer n)
  | decimal {d : Decimal} : 1 ≤ d.scale → Printable (.decimal d)
  | boolean (b : Bool) : Printable (.boolean b)
  | null : Printable .null
  | named {name : String} : IsWord name → Printable (.param (.named name))
  | positional {n : Nat} : 1 ≤ n → n < UInt64.size → Printable (.param (.positional n))
  | enum {first : String} {rest : List String} : IsIdentifier first → rest ≠ [] →
      (∀ s ∈ rest, IsSegment s) → Printable (.enum (".".intercalate (first :: rest)))
  | call {name : String} {args : List Operand} : IsIdentifier name → Text.upper name = name →
      (∀ v ∈ args, Printable v) → Printable (.call name args)

variable {s : String} {t : Token} {ls : List Lexeme} {v : Operand} {vs : List Operand}

section Words

theorem IsIdentifier.lexes (h : IsIdentifier s) : Lexes s.toList [⟨.identifier s, s⟩] := by
  obtain ⟨t, read, identifier⟩ := h
  have lexes := lexemes_eq_ok_iff_lexes.mp read
  cases t with
  | identifier name =>
    have same := lexes.eq_ofWord (List.mem_singleton_self _) rfl
    rwa [(ofWord_eq_identifier same.symm).2] at lexes
  | _ => cases identifier

theorem spells_segments {rest : List String} (some : rest ≠ []) (h : ∀ s ∈ rest, IsSegment s) :
    Spells (Rule.Chain (.mark .dot) Rule.Segment) (".".intercalate rest) rest := by
  have each : ∀ s ∈ rest, ∃ ls, Lexes (id s).toList ls ∧
      (∀ rest, Rule.Segment (ls ++ rest) (id s) rest) ∧
      ∀ {t : String} {more}, Lexes t.toList more →
        Lexes (id s ++ "." ++ t).toList (ls ++ ⟨.mark .dot, "."⟩ :: more) := by
    intro s hs
    obtain ⟨t, read, segment⟩ := h s hs
    have lexes := lexemes_eq_ok_iff_lexes.mp read
    refine ⟨_, lexes, ?_, lexes.dotted ?_⟩
    · cases t with
      | identifier name => exact fun _ => .identifier
      | keyword k => exact fun _ => .keyword
      | _ => cases segment
    · cases t with
      | identifier name => rfl
      | keyword k => rfl
      | _ => cases segment
  have chain := spells_chain "." some each
  rwa [List.map_id] at chain

end Words

section Operands

theorem Grammar.Rule.Literal.render_eq (h : Rule.Literal t v) : v.render = t.fragment := by
  cases h with
  | @boolean b => cases b <;> simp [Operand.render, Token.fragment]
  | _ => simp [Operand.render, Token.fragment, Param.render, Param.named, Param.positional]

theorem spells_literal (literal : Rule.Literal t v) (spellable : t.Spellable)
    (scaled : ∀ d, t = .decimal d → d.scale ≠ 0) : Spells Rule.Value v.render v := by
  rw [literal.render_eq]
  exact ⟨_, lexes_fragment spellable scaled, fun _ => .literal literal⟩

theorem spells_operands (some : vs ≠ []) (h : ∀ v ∈ vs, Spells Rule.Value v.render v) :
    Spells (Rule.Chain (.mark .comma) Rule.Value) (", ".intercalate (Operand.renderAll vs)) vs := by
  have each : ∀ v ∈ vs, ∃ ls, Lexes v.render.toList ls ∧
      (∀ rest, Rule.Value (ls ++ rest) (id v) rest) ∧
      ∀ {t : String} {more}, Lexes t.toList more →
        Lexes (v.render ++ ", " ++ t).toList (ls ++ ⟨.mark .comma, ","⟩ :: more) := by
    intro v hv
    obtain ⟨ls, lexes, read⟩ := h v hv
    exact ⟨ls, lexes, read, lexes.comma⟩
  have chain := spells_chain "," some each
  rwa [List.map_id, ← Operand.renderAll_eq_map] at chain

variable {name inner : String}

theorem lexes_call (identifier : IsIdentifier name) (h : Lexes inner.toList ls) :
    Lexes (name ++ "(" ++ inner ++ ")").toList
      (⟨.identifier name, name⟩ :: ⟨.mark .opening, "("⟩ :: (ls ++ [⟨.mark .closing, ")"⟩])) := by
  have arguments := h.parentheses
  rw [String.append_assoc, String.toList_append] at arguments
  rw [String.append_assoc, String.append_assoc, String.toList_append, String.toList_append]
  exact identifier.lexes.append_delimiter ⟨by decide, by decide⟩ arguments

theorem spells_call {args : List Operand} (identifier : IsIdentifier name)
    (h : ∀ v ∈ args, Spells Rule.Value v.render v) :
    Spells Rule.Value (Operand.call name args).render (.call (Text.upper name) args) := by
  unfold Operand.render
  by_cases none : args = []
  · subst none
    have nothing : Lexes "".toList [] := .blank rfl
    exact ⟨_, lexes_call identifier nothing, fun _ => .emptyCall⟩
  · obtain ⟨ls, lexes, read⟩ := spells_operands none h
    refine ⟨_, lexes_call identifier lexes, fun rest => ?_⟩
    simp only [List.cons_append, List.append_assoc, List.nil_append]
    exact .call (read _)

theorem spells_enum {first : String} {rest : List String} (identifier : IsIdentifier first)
    (some : rest ≠ []) (h : ∀ s ∈ rest, IsSegment s) :
    Spells Rule.Value (Operand.enum (".".intercalate (first :: rest))).render
      (.enum (".".intercalate (first :: rest))) := by
  obtain ⟨ls, lexes, read⟩ := spells_segments some h
  have written : (Operand.enum (".".intercalate (first :: rest))).render =
      first ++ "." ++ ".".intercalate rest := by
    rw [Operand.render, String.intercalate_cons_of_ne_nil some]
  rw [written]
  exact ⟨_, identifier.lexes.dotted rfl lexes, fun more => .constant (read more)⟩

theorem Operand.Printable.spells (h : v.Printable) : Spells Rule.Value v.render v := by
  induction h with
  | string s => exact spells_literal .string trivial (by simp)
  | integer low high => exact spells_literal .integer ⟨low, high⟩ (by simp)
  | decimal scaled =>
    have point := Nat.ne_of_gt scaled
    exact spells_literal .decimal (fun none => absurd none point) (by rintro _ ⟨⟩; exact point)
  | boolean b => exact spells_literal .boolean trivial (by simp)
  | null => exact spells_literal .null trivial (by simp)
  | named word => exact spells_literal .named word (by simp)
  | positional pos fits => exact spells_literal .positional ⟨pos, fits⟩ (by simp)
  | enum identifier some segments => exact spells_enum identifier some segments
  | call identifier capitals _ ih =>
    have call := spells_call identifier ih
    rwa [capitals] at call

end Operands

section Queries

variable {entity field : String} {fallback : Option String}

theorem spells_item (path : PathText field) (value : Spells Rule.Value v.render v) :
    Spells Rule.Item (field ++ " " ++ "=" ++ " " ++ v.render) ⟨field, v⟩ :=
  path.spells.around (lexes_mark .equal) value .mk

theorem spells_in (path : PathText field) (some : vs ≠ [])
    (values : ∀ v ∈ vs, Spells Rule.Value v.render v) :
    Spells Rule.Comparison (field ++ " " ++ "IN" ++ " " ++ (Operand.list vs).render)
      (.leaf field .in_ (.list vs)) := by
  obtain ⟨ls, lexes, read⟩ := spells_operands some values
  rw [Operand.render]
  refine path.spells.word (k := .in_) ⟨_, lexes.parentheses, fun rest => ?_⟩
  simp only [List.append_assoc, List.cons_append, List.nil_append]
  exact .in_ (read _)

theorem parse_set {item : Assignment} (identifier : IsIdentifier entity)
    (h : Spells Rule.Item s item) :
    parse ("UPDATE" ++ " " ++ entity ++ " " ++ "SET" ++ " " ++ s) fallback =
      .ok (.update ⟨entity, [item], none⟩) := by
  obtain ⟨ls, lexes, read⟩ := h
  have whole := (((lexes_keyword .update).spaced identifier.lexes).spaced
    (lexes_keyword .set_)).spaced lexes
  have item : Rule.Item ls item [] := ls.append_nil ▸ read []
  exact parse_eq_ok_iff.mpr ⟨_, lexemes_eq_ok_iff_lexes.mpr whole,
    .update .identifier (.last item) .omitted⟩

theorem parse_where {c : Condition Operand} (identifier : IsIdentifier entity)
    (h : Spells Rule.Comparison s c) :
    parse ("FROM" ++ " " ++ entity ++ " " ++ "WHERE" ++ " " ++ s) fallback =
      .ok (.ofCondition entity (some c.simplify)) := by
  obtain ⟨ls, lexes, read⟩ := h
  have whole := (((lexes_keyword .from_).spaced identifier.lexes).spaced
    (lexes_keyword .where_)).spaced lexes
  have comparison : Rule.Comparison ls c [] := ls.append_nil ▸ read []
  have condition : Rule.Disjunction ls c [] :=
    .mk (.last (.mk (.last (.plain (.comparison comparison))) .single)) .single
  exact parse_eq_ok_iff.mpr ⟨_, lexemes_eq_ok_iff_lexes.mpr whole,
    .select (.from_ .identifier)
      (.mk (.given (.mk condition (collapsed_simplify c))) .omitted .omitted .omitted)⟩

/-- Operands are read back from their text: one that is assigned in an update, and several that a
field is compared with. -/
theorem operands_read_back (entity field : String) (identifier : IsIdentifier entity)
    (path : PathText field) (fallback : Option String) :
    (∀ v : Operand, v.Printable →
      parse ("UPDATE " ++ entity ++ " SET " ++ field ++ " = " ++ v.render) fallback =
        .ok (.update ⟨entity, [⟨field, v⟩], none⟩)) ∧
    ∀ vs : List Operand, vs ≠ [] → (∀ v ∈ vs, v.Printable) →
      parse ("FROM " ++ entity ++ " WHERE " ++ field ++ " IN " ++ (Operand.list vs).render)
        fallback = .ok (.ofCondition entity (some (.leaf field .in_ (.list vs)))) := by
  constructor
  · intro v printable
    have words : "UPDATE " = "UPDATE" ++ " " ∧ " SET " = " " ++ "SET" ++ " " ∧
        " = " = " " ++ "=" ++ " " := by decide
    have parsed : parse _ fallback = _ := parse_set identifier (spells_item path printable.spells)
    rw [words.1, words.2.1, words.2.2]
    simpa only [String.append_assoc] using parsed
  · intro vs some printable
    have words : "FROM " = "FROM" ++ " " ∧ " WHERE " = " " ++ "WHERE" ++ " " ∧
        " IN " = " " ++ "IN" ++ " " := by decide
    have parsed : parse _ fallback = _ := parse_where identifier
      (spells_in path some fun v hv => (printable v hv).spells)
    rw [words.1, words.2.1, words.2.2]
    simpa only [String.append_assoc, Condition.simplify] using parsed

/-- A call with a call inside, and operands whose text takes some reading. -/
def Operand.coalesced : Operand :=
  .call "COALESCE" [.string "it's", .decimal ⟨true, 150, 2, by decide, by decide, by decide⟩,
    .call "NOW" [], .enum (".".intercalate ["Size", "Order", "all"])]

theorem Operand.printable_coalesced : coalesced.Printable := by
  have identifiers : IsIdentifier "COALESCE" ∧ IsIdentifier "NOW" ∧ IsIdentifier "Size" :=
    ⟨⟨.identifier "COALESCE", by decide +kernel, rfl⟩, ⟨.identifier "NOW", by decide +kernel, rfl⟩,
      ⟨.identifier "Size", by decide +kernel, rfl⟩⟩
  have segments : ∀ s ∈ ["Order", "all"], IsSegment s := by
    simp only [List.forall_mem_cons, List.not_mem_nil, false_implies, implies_true, and_true]
    exact ⟨⟨.keyword .order, by decide +kernel, rfl⟩, ⟨.identifier "all", by decide +kernel, rfl⟩⟩
  have now : Operand.Printable (.call "NOW" []) :=
    .call identifiers.2.1 (by decide +kernel) (by simp)
  apply Printable.call identifiers.1 (by decide +kernel)
  simp only [List.forall_mem_cons, List.not_mem_nil, false_implies, implies_true, and_true]
  exact ⟨.string _, .decimal (by decide), now, .enum identifiers.2.2 (by simp) segments⟩

theorem operands_read_back_coalesced :
    parse "UPDATE e SET f = COALESCE('it''s', -1.50, NOW(), Size.Order.all)" none =
        .ok (.update ⟨"e", [⟨"f", .coalesced⟩], none⟩) ∧
      parse "FROM e WHERE f IN (COALESCE('it''s', -1.50, NOW(), Size.Order.all), NULL)" none =
        .ok (.ofCondition "e" (some (.leaf "f" .in_ (.list [.coalesced, .null])))) := by
  have identifier : IsIdentifier "e" := ⟨.identifier "e", by decide +kernel, rfl⟩
  have path : PathText "f" :=
    ⟨List.forall_mem_singleton.mpr (by decide), [⟨.identifier "f", "f"⟩], "f", by decide +kernel,
      .single⟩
  have printable := Operand.printable_coalesced
  obtain ⟨update, select⟩ := operands_read_back "e" "f" identifier path none
  constructor
  · exact update .coalesced printable
  · apply select [.coalesced, .null] (by simp)
    simpa using ⟨printable, .null⟩

end Queries

end QueryTree
