import Mathlib.Data.List.Basic
import QueryTree.Binding.Params

/-! # Giving values one after the other

No giving of a value touches the placeholders. A target has the latest value that has been given to
it, and a parameter that of its position or else that of its name.
-/

namespace QueryTree

inductive Binding where
  | byName (name : String) (v : Value)
  | byPosition (position : Nat) (v : Value)

inductive Target where
  | name (name : String)
  | position (n : Nat)
  deriving DecidableEq

namespace Binding

def target : Binding → Target
  | byName name _ => .name name
  | byPosition n _ => .position n

def value : Binding → Value
  | byName _ v => v
  | byPosition _ v => v

end Binding

/-- What a parameter can have its value from, its position first. -/
def Param.targets (p : Param) : List Target :=
  (p.position.map Target.position).toList ++ [.name p.name]

def Given (history : List Binding) (t : Target) : Prop := ∃ g ∈ history, g.target = t

instance (history : List Binding) (t : Target) : Decidable (Given history t) :=
  inferInstanceAs (Decidable (∃ g ∈ history, g.target = t))

/-- The value is the last that is given to the target. -/
def Latest (history : List Binding) (t : Target) (v : Value) : Prop :=
  ∃ before g after, history = before ++ g :: after ∧ g.target = t ∧ g.value = v ∧ ¬ Given after t

section Histories

variable {history : List Binding} {g : Binding} {t : Target} {v : Value}

theorem not_given_nil : ¬ Given [] t := by
  rintro ⟨g, mem, -⟩
  cases mem

theorem given_cons_iff : Given (g :: history) t ↔ g.target = t ∨ Given history t := by
  simp [Given]

theorem not_latest_nil : ¬ Latest [] t v := by
  rintro ⟨before, g, after, split, -⟩
  simp at split

theorem latest_cons_iff :
    Latest (g :: history) t v ↔
      Latest history t v ∨ ¬ Given history t ∧ g.target = t ∧ g.value = v := by
  constructor
  · rintro ⟨before, g', after, split, same, value, last⟩
    cases before with
    | nil =>
      obtain ⟨rfl, rfl⟩ := List.cons.inj split
      exact .inr ⟨last, same, value⟩
    | cons _ before => exact .inl ⟨before, g', after, (List.cons.inj split).2, same, value, last⟩
  · rintro (⟨before, g', after, rfl, same, value, last⟩ | ⟨last, same, value⟩)
    · exact ⟨g :: before, g', after, rfl, same, value, last⟩
    · exact ⟨[], g, history, rfl, same, value, last⟩

theorem exists_latest_iff : (∃ v, Latest history t v) ↔ Given history t := by
  induction history with
  | nil => exact iff_of_false (fun ⟨_, h⟩ => not_latest_nil h) not_given_nil
  | cons g history ih =>
    simp only [latest_cons_iff, exists_or, ih, given_cons_iff, exists_and_left, exists_eq', and_true]
    by_cases later : Given history t <;> simp [later]

end Histories

namespace Params

variable {ps : Params} {history : List Binding} {p : Param} {t : Target} {v : Value}

def give (ps : Params) : Binding → Params
  | .byName name v => ps.bind name v
  | .byPosition n v => ps.bindPosition n v

def giveAll (ps : Params) (history : List Binding) : Params := history.foldl give ps

theorem giveAll_cons (ps : Params) (g : Binding) (history : List Binding) :
    ps.giveAll (g :: history) = (ps.give g).giveAll history :=
  rfl

theorem placeholders_give (ps : Params) (g : Binding) :
    (ps.give g).placeholders = ps.placeholders := by
  cases g <;> rfl

theorem placeholders_giveAll (ps : Params) (history : List Binding) :
    (ps.giveAll history).placeholders = ps.placeholders := by
  induction history generalizing ps with
  | nil => rfl
  | cons g history ih => rw [giveAll_cons, ih, placeholders_give]

def valueAt? (ps : Params) : Target → Option Value
  | .name name => ps.byName.lookup name
  | .position n => ps.byPosition.lookup n

theorem valueAt?_ofStatement (s : Statement) (t : Target) : (ofStatement s).valueAt? t = none := by
  cases t <;> rfl

theorem get?_eq (ps : Params) (p : Param) : ps.get? p = p.targets.findSome? ps.valueAt? := by
  obtain ⟨name, position⟩ := p
  cases position with
  | none => simp [get?, Param.targets, valueAt?]
  | some n => cases found : ps.byPosition.lookup n <;> simp [get?, Param.targets, valueAt?, found]

theorem get?_eq_none_iff : ps.get? p = none ↔ ∀ t ∈ p.targets, ps.valueAt? t = none := by
  rw [get?_eq, List.findSome?_eq_none_iff]

theorem mem_unbound_iff : p ∈ ps.unbound ↔ p ∈ ps.placeholders ∧ ps.get? p = none := by
  rw [unbound, List.mem_filter, Option.isNone_iff_eq_none]

theorem lookup_cons_eq_ite {α β : Type} [DecidableEq α] (k a : α) (b : β) (l : List (α × β)) :
    ((a, b) :: l).lookup k = if a = k then some b else l.lookup k := by
  by_cases same : a = k
  · simp [same]
  · have other : (k == a) = false := beq_eq_false_iff_ne.mpr (Ne.symm same)
    rw [List.lookup_cons, other, if_neg same]

theorem valueAt?_give (ps : Params) (g : Binding) (t : Target) :
    (ps.give g).valueAt? t = if g.target = t then some g.value else ps.valueAt? t := by
  cases g with
  | byName name v =>
    cases t with
    | name name' =>
      simp only [Binding.target, Target.name.injEq]
      exact lookup_cons_eq_ite name' name v ps.byName
    | position n => rfl
  | byPosition n v =>
    cases t with
    | name name => rfl
    | position n' =>
      simp only [Binding.target, Target.position.injEq]
      exact lookup_cons_eq_ite n' n v ps.byPosition

theorem valueAt?_giveAll_eq_some_iff :
    (ps.giveAll history).valueAt? t = some v ↔
      Latest history t v ∨ ¬ Given history t ∧ ps.valueAt? t = some v := by
  induction history generalizing ps with
  | nil => simp [giveAll, not_latest_nil, not_given_nil]
  | cons g history ih =>
    rw [giveAll_cons, ih, valueAt?_give, latest_cons_iff, given_cons_iff]
    by_cases same : g.target = t <;> simp [same]

theorem valueAt?_giveAll_eq_none_iff :
    (ps.giveAll history).valueAt? t = none ↔ ¬ Given history t ∧ ps.valueAt? t = none := by
  simp only [Option.eq_none_iff_forall_ne_some, ne_eq, valueAt?_giveAll_eq_some_iff, not_or,
    forall_and, ← not_exists, exists_latest_iff]
  constructor
  · rintro ⟨fresh, rest⟩
    exact ⟨fresh, fun ⟨v, found⟩ => rest ⟨v, fresh, found⟩⟩
  · rintro ⟨fresh, rest⟩
    exact ⟨fresh, fun ⟨v, _, found⟩ => rest ⟨v, found⟩⟩

theorem unbound_giveAll_eq_nil {ns : List Nat}
    (positions : ps.placeholders.map Param.position = ns.map some)
    (given : ∀ n ∈ ns, ∃ v, .byPosition n v ∈ history) : (ps.giveAll history).unbound = [] := by
  rw [List.eq_nil_iff_forall_not_mem]
  intro p mem
  rw [mem_unbound_iff, placeholders_giveAll, get?_eq_none_iff] at mem
  have placed : p.position ∈ ns.map some := positions ▸ List.mem_map_of_mem mem.1
  obtain ⟨n, hn, at_⟩ := List.mem_map.mp placed
  obtain ⟨v, hv⟩ := given n hn
  have target : .position n ∈ p.targets := by simp [Param.targets, ← at_]
  exact (valueAt?_giveAll_eq_none_iff.mp (mem.2 _ target)).1 ⟨_, hv, rfl⟩

end Params

end QueryTree
