import QueryTree.Proofs.Binding.History
import QueryTree.Proofs.Binding.Suitable

/-! # Collections inside lists

A collection in place of a single value is reported where it is compared alone. Among the bounds of
`BETWEEN` and the items of a list that is written out it is taken as it is, for only the list itself
is looked at.
-/

namespace QueryTree

def Operand.param? : Operand → Option Param
  | param p => some p
  | _ => none

theorem Operand.param?_eq_some_iff {v : Operand} {p : Param} :
    v.param? = some p ↔ v = .param p := by
  cases v <;> simp [param?]

namespace Operand

variable {params : Params} {vs : List Operand}

/-- Flat operands are all filled with single values unless one is a parameter with a collection. -/
theorem filledAll_single_iff (flat : ∀ v ∈ vs, v.isFlat) :
    (∀ w ∈ filledAll params vs, ¬ w.isCollection) ↔
      ∀ p ∈ vs.filterMap param?, ∀ w, params.get? p = some w → ¬ w.isCollection := by
  rw [filledAll_eq_map, List.forall_mem_map]
  constructor
  · intro single p hp w found collection
    obtain ⟨v, hv, same⟩ := List.mem_filterMap.mp hp
    obtain rfl := param?_eq_some_iff.mp same
    exact single _ hv ((isCollection_filled_iff (flat _ hv)).mpr ⟨p, rfl, w, found, collection⟩)
  · intro single v hv collection
    obtain ⟨p, rfl, w, found, collection⟩ := (isCollection_filled_iff (flat v hv)).mp collection
    exact single p (List.mem_filterMap.mpr ⟨_, hv, rfl⟩) w found collection

end Operand

namespace Comparison

/-- The parameters among the bounds or the items of a list that is written out. -/
def listed (x : Comparison Operand) : List Param :=
  match x.value with
  | .list vs => vs.filterMap Operand.param?
  | _ => []

/-- There are two bounds, and neither they nor the items of a list that is written out are
collections. -/
structure HoldsSingles (x : Comparison Operand) (y : Comparison Value) : Prop where
  bounds : y.operator = .between →
    ∃ low high, y.value = .list [low, high] ∧ ¬ low.isCollection ∧ ¬ high.isCollection
  items : ∀ vs, x.operator = .in_ → x.value = .list vs →
    ∃ ws, y.value = .list ws ∧ ∀ w ∈ ws, ¬ w.isCollection

variable {params : Params} {x : Comparison Operand}

theorem listed_eq_nil {field : String} {op : Operator} {v : Operand} (flat : v.isFlat) :
    listed ⟨field, op, v⟩ = [] := by
  cases v with
  | list => cases flat
  | _ => rfl

theorem Plain.holdsSingles_iff (plain : x.Plain) :
    x.HoldsSingles ⟨x.field, x.operator, x.value.filled params⟩ ↔
      ∀ p ∈ x.listed, ∀ w, params.get? p = some w → ¬ w.isCollection := by
  cases plain with
  | single other flat =>
    -- An operand that stands alone has no bounds and no items.
    rw [listed_eq_nil flat]
    refine iff_of_true ⟨fun same => absurd same other, ?_⟩ (List.forall_mem_nil _)
    rintro vs - rfl
    cases flat
  | items flat =>
    rw [listed, ← Operand.filledAll_single_iff flat]
    constructor
    · rintro ⟨-, single⟩
      obtain ⟨ws, same, single⟩ := single _ rfl rfl
      obtain rfl := Value.list.inj same
      exact single
    · intro single
      refine ⟨nofun, ?_⟩
      rintro vs - same
      obtain rfl := Operand.list.inj same
      exact ⟨_, rfl, single⟩
  | @bounds field low high flat flat' =>
    have flat : ∀ v ∈ [low, high], v.isFlat := by simpa using ⟨flat, flat'⟩
    rw [listed, ← Operand.filledAll_single_iff flat, Operand.filledAll_eq_map, List.forall_mem_map,
      List.forall_mem_cons, List.forall_mem_singleton]
    constructor
    · rintro ⟨single, -⟩
      obtain ⟨low', high', same, single⟩ := single rfl
      obtain ⟨rfl, rest⟩ := List.cons.inj (Value.list.inj same)
      obtain rfl := List.singleton_inj.mp rest
      exact single
    · intro single
      exact ⟨fun _ => ⟨_, _, rfl, single⟩, nofun⟩

end Comparison

namespace Condition

def listed (c : Condition Operand) : List Param := c.comparisons.flatMap Comparison.listed

/-- No collection stands where a single value belongs: among bounds, or among the items of a list
that is written out. -/
def HoldsSingles (c : Condition Operand) (d : Condition Value) : Prop :=
  List.Forall₂ Comparison.HoldsSingles c.comparisons d.comparisons

theorem holdsSingles_iff {b : Binder} {c : Condition Operand} {d : Condition Value}
    (plain : ∀ x ∈ c.comparisons, x.Plain) (bound : b.condition c = .ok d) :
    c.HoldsSingles d ↔ ∀ p ∈ c.listed, ∀ w, b.params.get? p = some w → ¬ w.isCollection := by
  obtain ⟨rfl, -, -⟩ := b.condition_eq_ok_iff.mp bound
  rw [HoldsSingles, comparisons_map, List.forall₂_map_right_iff, List.forall₂_same,
    forall₂_congr fun x hx => (plain x hx).holdsSingles_iff]
  simp only [listed, List.mem_flatMap]
  exact ⟨fun h p ⟨x, hx, hp⟩ => h x hx p hp, fun h x hx p hp => h p ⟨x, hx, hp⟩⟩

end Condition

open Grammar

section Statements

variable {s : Statement} {c : Condition Operand} {x : Comparison Operand}

theorem plain_of_parse {text : String} {fallback : Option String}
    (parsed : parse text fallback = .ok s) (hc : c ∈ s.condition) (hx : x ∈ c.comparisons) :
    x.Plain := by
  obtain ⟨ls, -, sentence⟩ := parse_eq_ok_iff.mp parsed
  obtain ⟨d, formed, rfl⟩ := sentence.simplified hc
  exact (formed.simplify.of_mem_parts (Condition.condition_mem_parts_iff.mpr hx)).plain

theorem plain_of_derive {method entity : String} (derived : derive method entity = .ok s)
    (hc : c ∈ s.condition) (hx : x ∈ c.comparisons) : x.Plain :=
  ((layered_of_derive derived hc).leaf (Condition.condition_mem_parts_iff.mpr hx)).plain

end Statements

theorem exists_bound {ε : Type} (read : Except ε Statement) (binder : Statement → Binder)
    (ps : List Param)
    (ran : read.map (fun s => s.condition.map fun c =>
      (c.listed, ((binder s).condition c).map fun _ => ())) = .ok (some (ps, .ok ()))) :
    ∃ s c d, read = .ok s ∧ s.condition = some c ∧ c.listed = ps ∧
      (binder s).condition c = .ok d := by
  obtain ⟨s, made, same⟩ := Except.map_eq_ok_iff.mp ran
  obtain ⟨c, hc, same⟩ := Option.map_eq_some_iff.mp same
  obtain ⟨listed, bound⟩ := Prod.mk.inj same
  obtain ⟨d, bound, -⟩ := Except.map_eq_ok_iff.mp bound
  exact ⟨s, c, d, made, hc, listed, bound⟩

/-- A list that is written out is bound once everything in it is found, whatever that is. So what is
bound holds single values exactly if no parameter among bounds and items has a collection for its
value. Operators other than `IN` and `BETWEEN` are never bound to a collection. -/
theorem listed_collections_pass {s : Statement}
    (made : (∃ text fallback, parse text fallback = .ok s) ∨
      ∃ method entity, derive method entity = .ok s)
    {c : Condition Operand} (hc : c ∈ s.condition) (history : List Binding)
    (enums : Option EnumRegistry) :
    let params := (Params.ofStatement s).giveAll history
    let b : Binder := ⟨params, enums⟩
    (∀ x ∈ c.comparisons, ∀ vs, x.value = .list vs →
      ((∃ d, b.condition x.condition = .ok d) ↔ b.Knows x.value.params x.value.paths)) ∧
    ∀ d, b.condition c = .ok d →
      (c.HoldsSingles d ↔ ∀ p ∈ c.listed, ∀ w, params.get? p = some w → ¬ w.isCollection) ∧
        ∀ y ∈ d.comparisons, y.operator ≠ .in_ → y.operator ≠ .between →
          ¬ y.value.isCollection := by
  intro params b
  have plain : ∀ x ∈ c.comparisons, x.Plain := by
    intro x hx
    rcases made with ⟨text, fallback, parsed⟩ | ⟨method, entity, derived⟩
    · exact plain_of_parse parsed hc hx
    · exact plain_of_derive derived hc hx
  refine ⟨fun x hx vs written => (plain x hx).list_bound_iff written b, fun d bound => ?_⟩
  obtain ⟨-, -, fits⟩ := b.condition_eq_ok_iff.mp bound
  exact ⟨Condition.holdsSingles_iff plain bound, fun y hy => (fits y hy).not_isCollection⟩

/-- An item of a list can be a collection, and bounds are single values when those given are. -/
theorem listed_collections_pass_person :
    let other : List Binding := [.byName "other" (.list [.string "Bob"])]
    let bounds : List Binding := [.byPosition 2 (.integer 5), .byPosition 1 .null]
    (∃ s c d, parse "FROM Person WHERE name IN ('Ada', :other)" none = .ok s ∧
        s.condition = some c ∧
        Binder.condition ⟨(Params.ofStatement s).giveAll other, none⟩ c = .ok d ∧
          ¬ c.HoldsSingles d) ∧
      ∃ s c d, derive "findByAgeBetween" "Person" = .ok s ∧ s.condition = some c ∧
        Binder.condition ⟨(Params.ofStatement s).giveAll bounds, none⟩ c = .ok d ∧
          c.HoldsSingles d := by
  intro other bounds
  constructor
  · obtain ⟨s, c, d, parsed, hc, listed, bound⟩ := exists_bound
      (parse "FROM Person WHERE name IN ('Ada', :other)" none)
      (fun s => ⟨(Params.ofStatement s).giveAll other, none⟩) [.named "other"] (by decide +kernel)
    obtain ⟨-, passed⟩ := listed_collections_pass (.inl ⟨_, _, parsed⟩) hc other none
    refine ⟨s, c, d, parsed, hc, bound, fun single => ?_⟩
    have single := (passed d bound).1.mp single
    rw [listed] at single
    exact single _ List.mem_cons_self _ rfl rfl
  · obtain ⟨s, c, d, derived, hc, listed, bound⟩ := exists_bound
      (derive "findByAgeBetween" "Person")
      (fun s => ⟨(Params.ofStatement s).giveAll bounds, none⟩)
      [.indexed "age" 1, .indexed "age" 2] (by decide +kernel)
    obtain ⟨-, passed⟩ := listed_collections_pass (.inr ⟨_, _, derived⟩) hc bounds none
    have low : ((Params.ofStatement s).giveAll bounds).get? (.indexed "age" 1) = some .null := rfl
    have high : ((Params.ofStatement s).giveAll bounds).get? (.indexed "age" 2) =
      some (.integer 5) := rfl
    refine ⟨s, c, d, derived, hc, bound, (passed d bound).1.mpr ?_⟩
    rw [listed]
    simp [low, high, Value.isCollection]

/-- A collection that has been given for a bound is bound without an error. -/
theorem bound_given_collection :
    let history : List Binding :=
      [.byName "low" (.list [.integer 1, .integer 2]), .byName "high" (.integer 3)]
    ∃ s c d, parse "FROM Person WHERE age BETWEEN :low AND :high" none = .ok s ∧
      s.condition = some c ∧
      Binder.condition ⟨(Params.ofStatement s).giveAll history, none⟩ c = .ok d ∧
        ¬ c.HoldsSingles d := by
  intro history
  obtain ⟨s, c, d, parsed, hc, listed, bound⟩ := exists_bound
    (parse "FROM Person WHERE age BETWEEN :low AND :high" none)
    (fun s => ⟨(Params.ofStatement s).giveAll history, none⟩) [.named "low", .named "high"]
    (by decide +kernel)
  refine ⟨s, c, d, parsed, hc, bound, fun single => ?_⟩
  rw [Condition.holdsSingles_iff (fun x => plain_of_parse parsed hc) bound, listed] at single
  exact single _ List.mem_cons_self _ rfl rfl

end QueryTree
