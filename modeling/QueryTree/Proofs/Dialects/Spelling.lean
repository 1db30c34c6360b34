import QueryTree.Proofs.Condition.Normal
import QueryTree.Proofs.Dialects.Numbering
import QueryTree.Proofs.Dialects.Writing
import QueryTree.Proofs.Token.Spacing

/-! # What a text spells

A text spells something if a rule reads its lexemes so, whatever lexemes follow. What is written for
the parts of a statement spells the numbered parts.
-/

namespace QueryTree.Grammar

/-- The lexemes of the text stand for `a`, whatever follows. -/
def Spells {α : Type} (rule : Rule α) (s : String) (a : α) : Prop :=
  ∃ ls, Lexes s.toList ls ∧ ∀ rest, rule (ls ++ rest) a rest

/-- The text may be put after any other, and its lexemes stand for `a`, whatever follows. -/
def Continues {α : Type} (rule : Rule α) (s : String) (a : α) : Prop :=
  ∀ (front : String) (ls : List Lexeme), Lexes front.toList ls →
    ∃ more, Lexes (front ++ s).toList (ls ++ more) ∧ ∀ rest, rule (more ++ rest) a rest

structure PathText (f : String) : Prop where
  unspaced : ∀ c ∈ f.toList, ¬ Text.isBlank c
  path : ∃ ls path, lexemes f = .ok ls ∧ Rule.Path ls path []

variable {α β : Type} {rule item : Rule α} {a : α} {ls more rest : List Lexeme} {f : String}

section Path

theorem Rule.Segment.append {w : String} (h : Rule.Segment ls w rest) :
    Rule.Segment (ls ++ more) w (rest ++ more) := by
  cases h with
  | identifier => exact .identifier
  | keyword => exact .keyword

theorem Rule.Chain.append {separator : Token} {as : List α}
    (one : ∀ {ls a rest}, item ls a rest → item (ls ++ more) a (rest ++ more))
    (h : Rule.Chain separator item ls as rest) :
    Rule.Chain separator item (ls ++ more) as (rest ++ more) := by
  induction h with
  | last hi => exact .last (one hi)
  | more hi _ ih => exact .more (one hi) ih

theorem Rule.Path.append {path : String} (h : Rule.Path ls path rest) :
    Rule.Path (ls ++ more) path (rest ++ more) := by
  cases h with
  | single => exact .single
  | dotted chain => exact .dotted (chain.append Rule.Segment.append)

theorem Rule.Segment.text_append {w : String} (h : Rule.Segment ls w rest) :
    ls.flatMap (·.text.toList) = w.toList ++ rest.flatMap (·.text.toList) := by
  cases h <;> rfl

theorem Rule.Chain.text_append {ws : List String}
    (h : Rule.Chain (.mark .dot) Rule.Segment ls ws rest)
    (dots : ∀ text, ⟨.mark .dot, text⟩ ∈ ls → text = ".") :
    ls.flatMap (·.text.toList) = (".".intercalate ws).toList ++ rest.flatMap (·.text.toList) := by
  induction h with
  | last hi => rw [hi.text_append, String.intercalate_singleton]
  | @more ls w text mid ws rest hi chain ih =>
    have tail : (⟨.mark .dot, text⟩ :: mid) <:+ ls := by
      cases hi <;> exact List.suffix_cons _ _
    have dot : text = "." := dots text (tail.subset List.mem_cons_self)
    rw [hi.text_append, List.flatMap_cons, ih fun text mem =>
      dots text (tail.subset (List.mem_cons_of_mem _ mem)), dot,
      String.intercalate_cons_of_ne_nil chain.ne_nil]
    simp

theorem Rule.Path.toList_eq {path : String} (h : Rule.Path ls path [])
    (dots : ∀ text, ⟨.mark .dot, text⟩ ∈ ls → text = ".") :
    path.toList = ls.flatMap (·.text.toList) := by
  cases h with
  | single => simp
  | @dotted name text dot ls segments rest chain =>
    have same := chain.text_append fun text mem => dots text (by simp [mem])
    rw [List.flatMap_cons, List.flatMap_cons, same, dots dot (by simp),
      String.intercalate_cons_of_ne_nil chain.ne_nil]
    simp

theorem PathText.spells (h : PathText f) : Spells Rule.Path f f := by
  obtain ⟨ls, path, read, hp⟩ := h.path
  have lexes := lexemes_eq_ok_iff_lexes.mp read
  have dots : ∀ text, ⟨.mark .dot, text⟩ ∈ ls → text = "." := fun text mem => by
    have dot : ∀ s ∈ Mark.spellings, s.2 = .dot → s.1 = ['.'] := by decide
    exact String.toList_inj.mp (dot _ (lexes.spelling_of_mark mem) rfl)
  have same : path = f := String.toList_inj.mp
    ((hp.toList_eq dots).trans (lexes.flatMap_text h.unspaced))
  refine ⟨ls, lexes, fun rest => ?_⟩
  rw [← same]
  exact hp.append

end Path

section Condition

theorem lexes_joined {s t : String} {ls' : List Lexeme} (k : Keyword) (h : Lexes s.toList ls)
    (h' : Lexes t.toList ls') :
    Lexes (s ++ (" " ++ k.name ++ " ") ++ t).toList (ls ++ ⟨.keyword k, k.name⟩ :: ls') := by
  have := (h.spaced (lexes_keyword k)).spaced h'
  simpa only [String.append_assoc, List.append_assoc, List.singleton_append] using this

/-- Items with a separator between any two of them, if it may be put after each item. -/
theorem spells_chain {separator : Token} (text : String) {between : String} {written : β → String}
    {meant : β → α} {bs : List β} (some : bs ≠ [])
    (h : ∀ b ∈ bs, ∃ ls, Lexes (written b).toList ls ∧
      (∀ rest, item (ls ++ rest) (meant b) rest) ∧
      ∀ {t : String} {more}, Lexes t.toList more →
        Lexes (written b ++ between ++ t).toList (ls ++ ⟨separator, text⟩ :: more)) :
    Spells (Rule.Chain separator item) (between.intercalate (bs.map written)) (bs.map meant) := by
  induction bs with
  | nil => exact absurd rfl some
  | cons b bs ih =>
    obtain ⟨ls, lexes, read, join⟩ := h b List.mem_cons_self
    cases bs with
    | nil => exact ⟨ls, by simpa using lexes, fun rest => .last (read rest)⟩
    | cons c bs =>
      obtain ⟨more, lexes', read'⟩ := ih (by simp) fun b hb => h b (List.mem_cons_of_mem _ hb)
      refine ⟨ls ++ ⟨separator, text⟩ :: more, ?_, fun rest => ?_⟩
      · rw [List.map_cons, String.intercalate_cons_of_ne_nil (by simp)]
        exact join lexes'
      · rw [List.append_assoc, List.cons_append]
        exact .more (read _) (read' rest)

theorem Spells.chain (k : Keyword) {written : β → String} {meant : β → α} {bs : List β}
    (some : bs ≠ []) (h : ∀ b ∈ bs, Spells item (written b) (meant b)) :
    Spells (Rule.Chain (.keyword k) item) ((" " ++ k.name ++ " ").intercalate (bs.map written))
      (bs.map meant) := by
  refine spells_chain k.name some fun b hb => ?_
  obtain ⟨ls, lexes, read⟩ := h b hb
  exact ⟨ls, lexes, read, lexes_joined k lexes⟩

theorem spells_positional {name : String} {n : Nat} (pos : 0 < n) (fits : n < UInt64.size) :
    Spells Rule.Value (Operand.written (.param (.indexed name n)))
      (Operand.numbered (.param (.indexed name n))) :=
  ⟨_, lexes_positional pos fits, fun _ => .literal .positional⟩

theorem spells_boolean (b : Bool) :
    Spells Rule.Value (Operand.written (.boolean b)) (.boolean b) := by
  cases b <;>
    exact ⟨_, lexes_token (by decide) (by decide), fun _ => .literal .boolean⟩

theorem spells_null : Spells Rule.Value (Operand.written .null) .null :=
  ⟨_, lexes_token (by decide) (by decide), fun _ => .literal .null⟩

theorem Rule.Comparator.sign_eq {m : Mark} {op : Operator} (h : Rule.Comparator m op) :
    op.sign = m.name := by
  cases h <;> rfl

theorem Spells.around {γ : Type} {left : Rule α} {right : Rule β} {whole : Rule γ} {token : Token}
    {s middle t : String} {b : β} {c : γ} (h : Spells left s a)
    (lexes : Lexes middle.toList [⟨token, middle⟩]) (h' : Spells right t b)
    (join : ∀ {ls mid rest}, left ls a (⟨token, middle⟩ :: mid) → right mid b rest →
      whole ls c rest) :
    Spells whole (s ++ " " ++ middle ++ " " ++ t) c := by
  obtain ⟨ls, lexes₁, read⟩ := h
  obtain ⟨more, lexes₂, read'⟩ := h'
  refine ⟨_, (lexes₁.spaced lexes).spaced lexes₂, fun rest => ?_⟩
  rw [List.append_assoc, List.append_assoc]
  exact join (read _) (read' rest)

theorem Spells.mark {v : Operand} {m : Mark} {op : Operator} (field : Spells Rule.Path f f)
    (h : Rule.Comparator m op) (value : Spells Rule.Value v.written v.numbered) :
    Spells Rule.Comparison (Condition.leaf f op v).written (Condition.leaf f op v).numbered := by
  rw [Condition.written, Condition.numbered, h.sign_eq]
  exact field.around (lexes_mark m) value fun path value => .mark path h value

abbrev AfterWord (field : String) (k : Keyword) : Rule (Condition Operand) := fun ls c rest =>
  Rule.WordComparison field (⟨.keyword k, k.name⟩ :: ls) c rest

theorem Spells.word {k : Keyword} {c : Condition Operand} {s : String}
    (field : Spells Rule.Path f f) (h : Spells (AfterWord f k) s c) :
    Spells Rule.Comparison (f ++ " " ++ k.name ++ " " ++ s) c :=
  field.around (lexes_keyword k) h .word

theorem Spells.like {v : Operand} (field : Spells Rule.Path f f)
    (value : Spells Rule.Value v.written v.numbered) :
    Spells Rule.Comparison (Condition.leaf f .like v).written
      (Condition.leaf f .like v).numbered := by
  obtain ⟨ls, lexes, read⟩ := value
  exact field.word (k := .like) ⟨ls, lexes, fun rest => .like (read rest)⟩

theorem Spells.between {v w : Operand} (field : Spells Rule.Path f f)
    (low : Spells Rule.Value v.written v.numbered)
    (high : Spells Rule.Value w.written w.numbered) :
    Spells Rule.Comparison (Condition.leaf f .between (.list [v, w])).written
      (Condition.leaf f .between (.list [v, w])).numbered := by
  obtain ⟨ls, lexes, read⟩ := low
  obtain ⟨more, lexes', read'⟩ := high
  refine field.word (k := .between) ⟨_, lexes_joined .and lexes lexes', fun rest => ?_⟩
  rw [List.append_assoc, List.cons_append]
  exact .between (read _) (read' rest)

theorem Spells.plain {s : String} {c : Condition Operand} (h : Spells Rule.Comparison s c) :
    Spells Rule.Negation s c := by
  obtain ⟨ls, lexes, read⟩ := h
  exact ⟨ls, lexes, fun rest => .plain (.comparison (read rest))⟩

theorem Spells.not {c : Condition Operand} (h : Spells Rule.Comparison c.written c.numbered) :
    Spells Rule.Negation (Condition.node .not [c]).written (Condition.node .not [c]).numbered := by
  obtain ⟨ls, lexes, read⟩ := h
  have written : (Condition.node .not [c]).written = "NOT" ++ " " ++ c.written := by
    simp only [Condition.written, Condition.writtenAll, String.intercalate_singleton]
    rfl
  rw [written]
  exact ⟨_, (lexes_keyword .not).spaced lexes, fun rest => .not (.comparison (read rest))⟩

/-- What is written for a condition spells its numbered form, which is simple already. -/
structure ReadsBack (rule : Rule (Condition Operand)) (c : Condition Operand) : Prop where
  spells : Spells rule c.written c.numbered
  simple : c.numbered.simplify = c.numbered

theorem simplify_join {op : Operator} (h : op ≠ .not) {cs : List (Condition Operand)}
    (simple : ∀ c ∈ cs, c.simplify = c) :
    (Condition.join op cs).simplify = .join op cs := by
  have same : cs.map Condition.simplify = cs := (List.map_congr_left simple).trans (List.map_id' _)
  have node : (Condition.node op cs).simplify = .node op cs := by
    rw [Condition.simplify_node, Condition.simplifyNode_of_ne h, same]
  match cs with
  | [] => exact node
  | [c] => exact simple c (List.mem_singleton_self c)
  | c :: d :: cs => exact node

theorem ReadsBack.join {part whole : Rule (Condition Operand)} {op : Operator} {k : Keyword}
    {cs : List (Condition Operand)} (other : op ≠ .not) (name : k.name = op.name)
    (mk : ∀ {ls ds c rest}, Rule.Chain (.keyword k) part ls ds rest → Rule.Joined op ds c →
      whole ls c rest)
    (some : cs ≠ []) (h : ∀ c ∈ cs, ReadsBack part c) : ReadsBack whole (.join op cs) := by
  obtain ⟨ls, lexes, read⟩ := Spells.chain k some fun c hc => (h c hc).spells
  refine ⟨⟨ls, ?_, fun rest => mk (read rest) (joined_iff.mpr ⟨by simpa using some, ?_⟩)⟩, ?_⟩
  · rwa [Condition.written_join other, ← name]
  · rw [Condition.numbered_join]
  · rw [Condition.numbered_join]
    exact simplify_join other (List.forall_mem_map.mpr fun c hc => (h c hc).simple)

end Condition

section Clause

theorem continues_omitted {k : Keyword} {absent : α} :
    Continues (Rule.Clause k rule absent) "" absent := by
  intro front ls lexes
  refine ⟨[], ?_, fun rest => .omitted⟩
  simpa using lexes

theorem Spells.given {k : Keyword} {absent : α} {s : String} (h : Spells rule s a) :
    Continues (Rule.Clause k rule absent) (" " ++ k.name ++ " " ++ s) a := by
  obtain ⟨more, lexes', read⟩ := h
  intro front ls lexes
  refine ⟨⟨.keyword k, k.name⟩ :: more, ?_, fun rest => .given (read rest)⟩
  have := lexes_joined k lexes lexes'
  rwa [String.append_assoc] at this

theorem continues_where {condition : Option (Condition Operand)}
    (h : ∀ c ∈ condition, ReadsBack Rule.Disjunction c) :
    Continues (Rule.Clause .where_ Rule.Where none) (Statement.writtenWhere condition)
      (condition.map Condition.numbered) := by
  cases condition with
  | none => exact continues_omitted
  | some c =>
    obtain ⟨⟨ls, lexes, read⟩, simple⟩ := h c rfl
    refine Spells.given (k := .where_) ⟨ls, lexes, fun rest => ?_⟩
    have := Rule.Where.mk (read rest) (collapsed_simplify _)
    rwa [simple] at this

theorem spells_key {k : SortKey} (h : Spells Rule.Path k.property k.property) :
    ∃ ls, Lexes k.written.toList ls ∧ (∀ rest, Rule.Key (ls ++ rest) k rest) ∧
      ∀ {t : String} {more}, Lexes t.toList more →
        Lexes (k.written ++ ", " ++ t).toList (ls ++ ⟨.mark .comma, ","⟩ :: more) := by
  obtain ⟨ls, lexes, read⟩ := h
  have keyed := lexes.spaced (lexes_keyword k.direction)
  refine ⟨_, keyed, fun rest => ?_, keyed.comma⟩
  rw [List.append_assoc]
  obtain ⟨property, ascending⟩ := k
  cases ascending with
  | true => exact .asc (read _)
  | false => exact .desc (read _)

theorem spells_keys {keys : List SortKey} (some : keys ≠ [])
    (h : ∀ k ∈ keys, Spells Rule.Path k.property k.property) :
    Spells (Rule.Chain (.mark .comma) Rule.Key) (", ".intercalate (keys.map SortKey.written))
      keys := by
  have := spells_chain "," some fun k hk => spells_key (h k hk)
  rwa [List.map_id'] at this

theorem continues_order {sorts : List SortKey}
    (h : ∀ k ∈ sorts, Spells Rule.Path k.property k.property) :
    Continues (Rule.Clause .order Rule.Order []) (Statement.writtenOrder sorts) sorts := by
  unfold Statement.writtenOrder
  split
  · next none =>
    rw [none]
    exact continues_omitted
  · next some =>
    obtain ⟨ls, lexes, read⟩ := spells_keys some h
    have by_ : Spells Rule.Order ("BY " ++ ", ".intercalate (sorts.map SortKey.written)) sorts :=
      ⟨_, (lexes_keyword .by_).spaced lexes, fun rest => .mk (read rest)⟩
    have order : " ORDER BY " = " " ++ Keyword.order.name ++ " " ++ "BY " := rfl
    rw [order, String.append_assoc]
    exact by_.given

theorem continues_limit {n : Nat} (h : (n : Int) ≤ Int64.maxValue.toInt) :
    Continues (Rule.Clause .limit Rule.Rows 0) (Statement.writtenLimit n) n := by
  unfold Statement.writtenLimit
  split
  · next none =>
    rw [none]
    exact continues_omitted
  · have low : Int64.minValue.toInt ≤ n := Int.le_trans (by decide) (Int.natCast_nonneg n)
    have rows : Spells Rule.Rows n.repr n := ⟨_, lexes_integer low h, fun _ => .mk⟩
    exact rows.given (k := .limit)

end Clause

section Statement

variable {name entity : String} {fallback : Option String}

theorem lexes_count :
    Lexes "count(this)".toList
      [⟨.identifier "count", "count"⟩, ⟨.mark .opening, "("⟩, ⟨.identifier "this", "this"⟩,
        ⟨.mark .closing, ")"⟩] := by
  have this : Lexes ("this".toList ++ ")".toList)
      [⟨.identifier "this", "this"⟩, ⟨.mark .closing, ")"⟩] :=
    .token _ (by decide) (by decide) (lexes_mark .closing)
  have opening : Lexes ("(".toList ++ "this)".toList) (⟨.mark .opening, "("⟩ :: _) :=
    .token _ (by decide) (by decide) this
  exact .token "count" (by decide) (by decide) opening

theorem lexes_from (identifier : Lexes entity.toList [⟨.identifier name, entity⟩]) :
    Lexes ("FROM " ++ entity).toList [⟨.keyword .from_, "FROM"⟩, ⟨.identifier name, entity⟩] :=
  (lexes_keyword .from_).spaced identifier

theorem head_select (fallback : Option String) (count : Bool)
    (identifier : Lexes entity.toList [⟨.identifier name, entity⟩]) :
    ∃ ls, Lexes ((if count then "SELECT count(this) " else "") ++ "FROM " ++ entity).toList ls ∧
      ∀ rest, Rule.Head fallback (ls ++ rest) ([], count, entity) rest := by
  cases count with
  | false => exact ⟨_, by simpa using lexes_from identifier, fun rest => .from_ .identifier⟩
  | true =>
    have counted := ((lexes_keyword .select).spaced lexes_count).spaced (lexes_from identifier)
    have written : (if true then "SELECT count(this) " else "") ++ "FROM " ++ entity =
        "SELECT" ++ " " ++ "count(this)" ++ " " ++ ("FROM " ++ entity) :=
      String.append_assoc
    have count : sameWord "count" "count" := by decide
    have this : sameWord "this" "this" := by decide
    exact ⟨_, written ▸ counted, fun rest => .selection (.count count this) (.from_ .identifier)⟩

theorem sentence_select (fallback : Option String) {q : Select} (whole : q.fields = [])
    (unskipped : q.skip = 0) (identifier : Lexes q.entity.toList [⟨.identifier name, q.entity⟩])
    (condition : ∀ c ∈ q.condition, ReadsBack Rule.Disjunction c)
    (sorts : ∀ k ∈ q.sorts, Spells Rule.Path k.property k.property)
    (limit : (q.limit : Int) ≤ Int64.maxValue.toInt) :
    ∃ ls, Lexes (Statement.select q).written.toList ls ∧
      Rule.Sentence fallback ls (Statement.select q).numbered := by
  obtain ⟨l₁, lexes₁, head⟩ := head_select fallback q.count identifier
  obtain ⟨l₂, lexes₂, where_⟩ := continues_where condition _ _ lexes₁
  obtain ⟨l₃, lexes₃, order⟩ := continues_order sorts _ _ lexes₂
  obtain ⟨l₄, lexes₄, rows⟩ := continues_limit limit _ _ lexes₃
  have rows : Rule.Clause .limit Rule.Rows 0 l₄ q.limit [] := l₄.append_nil ▸ rows []
  have clauses : Rule.Clauses [] q.count q.entity (l₂ ++ (l₃ ++ l₄)) _ :=
    .mk (where_ (l₃ ++ l₄)) (order l₄) .omitted rows
  refine ⟨_, lexes₄, ?_⟩
  rw [List.append_assoc, List.append_assoc]
  simpa [Statement.numbered, whole, unskipped] using Rule.Sentence.select (head _) clauses

theorem sentence_delete (fallback : Option String) {q : Delete} (whole : q.fields = [])
    (identifier : Lexes q.entity.toList [⟨.identifier name, q.entity⟩])
    (condition : ∀ c ∈ q.condition, ReadsBack Rule.Disjunction c) :
    ∃ ls, Lexes (Statement.delete q).written.toList ls ∧
      Rule.Sentence fallback ls (Statement.delete q).numbered := by
  have front := (lexes_keyword .delete).spaced (lexes_from identifier)
  obtain ⟨more, lexes, where_⟩ := continues_where condition _ _ front
  have where_ : Rule.Clause .where_ Rule.Where none more _ [] := more.append_nil ▸ where_ []
  have written : "DELETE FROM " ++ q.entity = "DELETE" ++ " " ++ ("FROM " ++ q.entity) := by
    have delete : "DELETE FROM " = "DELETE" ++ " " ++ "FROM " := by decide
    rw [delete, String.append_assoc]
  refine ⟨_, by rwa [Statement.written, written], ?_⟩
  simpa [Statement.numbered, whole] using Rule.Sentence.delete .whole .identifier where_

end Statement

end QueryTree.Grammar
