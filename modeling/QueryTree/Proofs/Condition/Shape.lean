import QueryTree.Proofs.Condition.Normal
import QueryTree.Proofs.Grammar.Induction
import QueryTree.Proofs.Grammar.Parse
import QueryTree.Proofs.MethodName.Placement

/-! # The shapes of conditions

A query has conditions of one shape, a method name conditions of another. Both are in normal form,
so simplifying leaves them as they are.
-/

namespace QueryTree

namespace Operand

mutual

/-- Neither an array nor a call with an array in its arguments. -/
def isFlat : Operand → Bool
  | list _ => false
  | call _ args => areFlat args
  | _ => true

def areFlat : List Operand → Bool
  | [] => true
  | v :: rest => isFlat v && areFlat rest

end

theorem areFlat_eq_all (vs : List Operand) : areFlat vs = vs.all isFlat := by
  induction vs with
  | nil => rfl
  | cons v rest ih => simp [areFlat, ih]

theorem isFlat_call {name : String} {args : List Operand} :
    (call name args).isFlat ↔ ∀ v ∈ args, v.isFlat := by
  rw [isFlat, areFlat_eq_all, List.all_eq_true]

end Operand

namespace Condition

/-! ## Conditions of queries -/

/-- The operators that compare with a single value in a query. -/
def singleOperators : List Operator :=
  [.equals, .notEquals, .greaterThan, .greaterEqualsThan, .lesserThan, .lesserEqualsThan, .like]

/-- The shape of a condition in a query. -/
inductive WellFormed : Condition Operand → Prop where
  | single {field op v} : op ∈ singleOperators → v.isFlat → WellFormed (leaf field op v)
  | in_ {field items} : items ≠ [] → (∀ v ∈ items, v.isFlat) →
      WellFormed (leaf field .in_ (.list items))
  | between {field low high} : low.isFlat → high.isFlat →
      WellFormed (leaf field .between (.list [low, high]))
  | several {op cs} : op = .and ∨ op = .or → 2 ≤ cs.length → (∀ c ∈ cs, WellFormed c) →
      WellFormed (node op cs)
  | not {c} : WellFormed c → WellFormed (node .not [c])

theorem WellFormed.join {op : Operator} {cs : List (Condition Operand)} (hop : op = .and ∨ op = .or)
    (some : cs ≠ []) (h : ∀ c ∈ cs, c.WellFormed) : (join op cs).WellFormed := by
  match cs with
  | [c] => exact h c List.mem_cons_self
  | c :: d :: cs => exact .several hop (by simp) h

theorem WellFormed.of_mem_parts {c d : Condition Operand} (h : c.WellFormed) (hd : d ∈ c.parts) :
    d.WellFormed := by
  induction c with
  | leaf field op v =>
    obtain rfl := List.mem_singleton.mp hd
    exact h
  | node op cs ih =>
    rw [parts_node, List.mem_cons] at hd
    rcases hd with rfl | mem
    · exact h
    · obtain ⟨c, hc, mem⟩ := List.mem_flatMap.mp mem
      apply ih c hc _ mem
      cases h with
      | several _ _ formed => exact formed c hc
      | not formed => exact List.mem_singleton.mp hc ▸ formed

theorem WellFormed.simplify {c : Condition Operand} (h : c.WellFormed) : c.simplify.WellFormed := by
  induction h with
  | single hop hv => exact .single hop hv
  | in_ some flat => exact .in_ some flat
  | between hl hh => exact .between hl hh
  | @several op cs hop two _ ih =>
    have other : op ≠ .not := by rcases hop with rfl | rfl <;> decide
    rw [simplify_node, simplifyNode_of_ne other]
    exact .several hop (by simpa using two) (List.forall_mem_map.mpr ih)
  | @not c _ ih =>
    rw [simplify_node]
    obtain ⟨field, v, redex, same⟩ | ⟨-, same⟩ := simplifyNode_eq .not [c.simplify]
    · obtain ⟨-, child⟩ := node.inj redex
      rw [List.map_singleton, same]
      rw [List.singleton_inj.mp child] at ih
      cases ih with
      | single _ flat => exact .single (by decide) flat
    · rw [List.map_singleton, same]
      exact .not ih

end Condition

namespace Grammar.Rule

open Condition

theorem Value.isFlat {ls rest : List Lexeme} {v : Operand} (h : Value ls v rest) : v.isFlat := by
  refine Value.induction (P := fun _ v _ => v.isFlat) ?_ h
  constructor
  · intro t v text rest hl
    cases hl <;> rfl
  · intros
    rfl
  · intro name text opening ls args closing rest chained
    exact Operand.isFlat_call.mpr (chained.forall_mem id)
  · intros
    rfl

theorem WordComparison.wellFormed {field : String} {ls rest : List Lexeme} {c : Condition Operand}
    (h : WordComparison field ls c rest) : c.WellFormed := by
  cases h with
  | like hv => exact .single (by decide) hv.isFlat
  | in_ hi => exact .in_ hi.ne_nil (hi.forall_mem Value.isFlat)
  | between hl hh => exact .between hl.isFlat hh.isFlat

theorem Comparison.wellFormed {ls rest : List Lexeme} {c : Condition Operand}
    (h : Comparison ls c rest) : c.WellFormed := by
  cases h with
  | mark _ hm hv =>
    refine .single ?_ hv.isFlat
    cases hm <;> decide
  | word _ hw => exact hw.wellFormed
  | notWord _ hw => exact .not hw.wellFormed
  | isNull => exact .single (by decide) rfl
  | isNotNull => exact .not (.single (by decide) rfl)

theorem Disjunction.wellFormed {ls rest : List Lexeme} {c : Condition Operand}
    (h : Disjunction ls c rest) : c.WellFormed := by
  refine Disjunction.induction (P := fun _ c _ => c.WellFormed) ?_ h
  constructor
  · intro ls c rest hc
    exact hc.wellFormed
  · intro opening ls c closing rest inside
    exact inside
  · intro text ls c rest negated
    exact .not negated
  · intro ls cs rest chained
    exact .join (.inl rfl) chained.ne_nil (chained.forall_mem id)
  · intro ls cs rest chained
    exact .join (.inr rfl) chained.ne_nil (chained.forall_mem id)

theorem Sentence.simplified {fallback : Option String} {ls : List Lexeme} {s : Statement}
    (h : Sentence fallback ls s) {c : Condition Operand} (hc : c ∈ s.condition) :
    ∃ d : Condition Operand, d.WellFormed ∧ c = d.simplify := by
  obtain ⟨_, d, _, derived, same⟩ := h.exists_disjunction hc
  exact ⟨d, derived.wellFormed, same⟩

theorem Sentence.assignments_flat {fallback : Option String} {ls : List Lexeme} {s : Statement}
    (h : Sentence fallback ls s) : ∀ a ∈ s.assignments, a.value.isFlat := by
  intro a ha
  obtain ⟨_, _, derived⟩ := h.exists_value ha
  exact derived.isFlat

end Grammar.Rule

namespace Condition

/-! ## Conditions of method names -/

def paramOperators : List Operator :=
  [.equals, .greaterThan, .greaterEqualsThan, .lesserThan, .lesserEqualsThan, .like, .in_,
   .contains, .startsWith, .endsWith]

inductive Elementary : Condition Operand → Prop where
  | param {field op p} : op ∈ paramOperators → Elementary (leaf field op (.param p))
  | between {field low high} : Elementary (leaf field .between (.list [.param low, .param high]))
  | boolean {field b} : Elementary (leaf field .equals (.boolean b))
  | null {field} : Elementary (leaf field .equals .null)

/-- A condition of the layer below, or a node over such conditions. -/
inductive Layer (op : Operator) (arity : Nat → Prop) (below : Condition Operand → Prop) :
    Condition Operand → Prop where
  | bare {c} : below c → Layer op arity below c
  | wrapped {cs} : arity cs.length → (∀ c ∈ cs, below c) → Layer op arity below (node op cs)

def Cased : Condition Operand → Prop := Layer .ignoreCase (· = 1) Elementary

def Signed : Condition Operand → Prop := Layer .not (· = 1) Cased

/-- The shape of a condition in a method name. -/
def Layered : Condition Operand → Prop := Layer .or (2 ≤ ·) (Layer .and (2 ≤ ·) Signed)

variable {op : Operator} {below : Condition Operand → Prop} {c : Condition Operand}

theorem Layer.join {cs : List (Condition Operand)} (some : cs ≠ []) (h : ∀ c ∈ cs, below c) :
    Layer op (2 ≤ ·) below (join op cs) := by
  match cs with
  | [c] => exact .bare (h c List.mem_cons_self)
  | c :: d :: cs => exact .wrapped (by simp) h

theorem Layer.one (h : below c) : Layer op (· = 1) below (node op [c]) :=
  .wrapped rfl (by simpa using h)

theorem Layer.normal {arity : Nat → Prop} (h : Layer op arity below c) (other : op ≠ .not)
    (inner : ∀ d, below d → d.Normal) : c.Normal := by
  cases h with
  | bare hc => exact inner c hc
  | wrapped _ hcs =>
    rw [normal_node_iff]
    exact ⟨not_negatesDiffers_of_ne other, fun d hd => inner d (hcs d hd)⟩

/-- What stands below a layer holds the comparisons. -/
theorem Layer.leaf {arity : Nat → Prop} {P : Condition Operand → Prop} {field : String}
    {op' : Operator} {v : Operand} (h : Layer op arity below c) (mem : .leaf field op' v ∈ c.parts)
    (inner : ∀ d, below d → .leaf field op' v ∈ d.parts → P (.leaf field op' v)) :
    P (.leaf field op' v) := by
  cases h with
  | bare hc => exact inner c hc mem
  | wrapped _ hcs =>
    rw [parts_node, List.mem_cons] at mem
    rcases mem with same | mem
    · cases same
    · obtain ⟨d, hd, mem⟩ := List.mem_flatMap.mp mem
      exact inner d (hcs d hd) mem

theorem Elementary.of_mem_parts {d : Condition Operand} (h : c.Elementary) (hd : d ∈ c.parts) :
    d.Elementary := by
  have alone : c.parts = [c] := by
    cases h <;> rfl
  rw [alone] at hd
  exact List.mem_singleton.mp hd ▸ h

theorem Elementary.normal (h : c.Elementary) : c.Normal := by
  cases h <;> exact normal_leaf _ _ _

theorem Elementary.operator_ne (h : c.Elementary) : c.operator ≠ .notEquals := by
  cases h with
  | param hop =>
    rintro ⟨⟩
    revert hop
    decide
  | _ => simp [operator]

theorem Cased.normal (h : c.Cased) : c.Normal :=
  Layer.normal h (by decide) fun _ => Elementary.normal

theorem Cased.operator_ne (h : c.Cased) : c.operator ≠ .notEquals := by
  cases h with
  | bare hc => exact hc.operator_ne
  | wrapped => simp [operator]

theorem Signed.normal (h : c.Signed) : c.Normal := by
  cases h with
  | bare hc => exact hc.normal
  | wrapped _ hcs =>
    rw [normal_node_iff]
    refine ⟨?_, fun d hd => (hcs d hd).normal⟩
    rintro ⟨field, v, same⟩
    obtain ⟨-, rfl⟩ := node.inj same
    exact (hcs _ List.mem_cons_self).operator_ne rfl

/-- No comparison by "differs" comes from a method name. -/
theorem Layered.normal (h : c.Layered) : c.Normal :=
  Layer.normal h (by decide) fun _ hd => hd.normal (by decide) fun _ => Signed.normal

theorem Layered.leaf {field : String} {op' : Operator} {v : Operand} (h : c.Layered)
    (mem : .leaf field op' v ∈ c.parts) : (Condition.leaf field op' v).Elementary := by
  apply Layer.leaf h mem
  intro group hg mem
  apply Layer.leaf hg mem
  intro signed hs mem
  apply Layer.leaf hs mem
  intro cased hc mem
  apply Layer.leaf hc mem
  intro d hd mem
  exact hd.of_mem_parts mem

end Condition

namespace MethodName

open Condition

theorem Test.elementary (t : Test) (field : String) (param : Nat → Param) (n : Nat) :
    (t.comparison field (fun i => .param (param i)) n).Elementary := by
  cases t with
  | between => exact .between
  | true_ => exact .boolean
  | false_ => exact .boolean
  | null => exact .null
  | _ => exact .param (by decide)

namespace Wording

theorem Segment.signed (x : Segment) (n : Nat) : (x.condition n).Signed := by
  have cased : (if .ignoreCase ∈ x.modifiers then
      Condition.node .ignoreCase [x.test.comparison (x.field) x.param n]
      else x.test.comparison (x.field) x.param n).Cased := by
    have elementary := x.test.elementary (x.field)
      (fun i => .indexed (Text.lastSegment (x.field)) i) n
    split
    · exact .one elementary
    · exact .bare elementary
  simp only [Segment.condition]
  split
  · exact .one cased
  · exact .bare cased

theorem demand_layered {groups : List Group} (some : groups ≠ []) : (demand groups).Layered := by
  apply Layer.join
  · simpa using some
  · intro c hc
    obtain ⟨i, hi, rfl⟩ := List.mem_mapIdx.mp hc
    apply Layer.join
    · simpa using groups[i].some
    · intro d hd
      obtain ⟨j, hj, rfl⟩ := List.mem_mapIdx.mp hd
      exact Segment.signed _ _

theorem condition_layered (w : Wording) {c : Condition Operand} (hc : c ∈ w.condition) :
    c.Layered := by
  unfold Wording.condition at hc
  split at hc
  · cases hc
  · next other =>
    obtain rfl := Option.some.inj hc
    exact demand_layered fun none => other none

end Wording

end MethodName

open Grammar MethodName

theorem layered_of_derive {method entity : String} {s : Statement} {c : Condition Operand}
    (h : derive method entity = .ok s) (hc : c ∈ s.condition) : c.Layered := by
  obtain ⟨w, -, rfl⟩ := derive_eq_ok_iff.mp h
  rw [w.condition_statement] at hc
  exact w.condition_layered hc

/-- The conditions of queries and of method names have their shapes, and simplifying leaves them as
they are. What a query assigns is a single value. -/
theorem conditions_shaped :
    (∀ text fallback s, parse text fallback = .ok s →
      (∀ c ∈ s.condition, c.WellFormed ∧ c.Normal ∧ c.simplify = c) ∧
        ∀ a ∈ s.assignments, a.value.isFlat) ∧
    ∀ method entity s, derive method entity = .ok s →
      ∀ c ∈ s.condition, c.Layered ∧ c.simplify = c := by
  constructor
  · intro text fallback s parsed
    obtain ⟨ls, -, sentence⟩ := parse_eq_ok_iff.mp parsed
    refine ⟨?_, sentence.assignments_flat⟩
    intro c hc
    obtain ⟨d, formed, rfl⟩ := sentence.simplified hc
    have normal := Condition.normal_simplify d
    exact ⟨formed.simplify, normal, Condition.simplify_of_normal normal⟩
  · intro method entity s derived c hc
    have layered := layered_of_derive derived hc
    exact ⟨layered, Condition.simplify_of_normal layered.normal⟩

theorem conditions_shaped_person :
    (∃ s c, parse "FROM Person WHERE NOT (a IN (1, ?2) OR b BETWEEN 1 AND 2) AND c <> f(:x)" none =
        .ok s ∧ s.condition = some c ∧ c.WellFormed ∧ c.Normal ∧ c.simplify = c) ∧
      ∃ s c, derive "findByNameNotIgnoreCaseAndAgeBetweenOrActiveTrue" "Person" = .ok s ∧
        s.condition = some c ∧ c.Layered ∧ c.simplify = c := by
  let text := "FROM Person WHERE NOT (a IN (1, ?2) OR b BETWEEN 1 AND 2) AND c <> f(:x)"
  let method := "findByNameNotIgnoreCaseAndAgeBetweenOrActiveTrue"
  have queried : (parse text none).map (·.condition.isSome) = .ok true := by decide +kernel
  have named : (derive method "Person").map (·.condition.isSome) = .ok true := by decide +kernel
  constructor
  · obtain ⟨s, parsed, some⟩ := Except.map_eq_ok_iff.mp queried
    obtain ⟨c, hc⟩ := Option.isSome_iff_exists.mp some
    exact ⟨s, c, parsed, hc, (conditions_shaped.1 text none s parsed).1 c hc⟩
  · obtain ⟨s, derived, some⟩ := Except.map_eq_ok_iff.mp named
    obtain ⟨c, hc⟩ := Option.isSome_iff_exists.mp some
    exact ⟨s, c, derived, hc, conditions_shaped.2 method "Person" s derived c hc⟩

end QueryTree
