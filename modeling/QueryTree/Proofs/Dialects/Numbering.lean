import QueryTree.Proofs.Binding.Sequence

/-! # Numbering parameters

A method name gives its parameters both names and positions, a query in text one of the two. As long
as values are given by position, the names make no difference.
-/

namespace QueryTree

/-- What has a position keeps nothing else. -/
def Param.numbered (p : Param) : Param := p.position.elim p .positional

namespace Operand

mutual

def numbered : Operand → Operand
  | param p => param p.numbered
  | list items => list (numberedAll items)
  | call name args => call name (numberedAll args)
  | v => v

def numberedAll : List Operand → List Operand
  | [] => []
  | v :: rest => numbered v :: numberedAll rest

end

end Operand

namespace Condition

mutual

def numbered : Condition Operand → Condition Operand
  | leaf field op v => leaf field op v.numbered
  | node op cs => node op (numberedAll cs)

def numberedAll : List (Condition Operand) → List (Condition Operand)
  | [] => []
  | c :: rest => numbered c :: numberedAll rest

end

theorem numberedAll_eq_map (cs : List (Condition Operand)) :
    numberedAll cs = cs.map numbered := by
  induction cs with
  | nil => rfl
  | cons c rest ih => simp [numberedAll, ih]

theorem numbered_join (op : Operator) (cs : List (Condition Operand)) :
    (join op cs).numbered = join op (cs.map numbered) := by
  match cs with
  | [] => rfl
  | [c] => rfl
  | c :: d :: cs => simp only [join, numbered, numberedAll_eq_map, List.map_cons]

end Condition

def Statement.numbered : Statement → Statement
  | select q => select { q with condition := q.condition.map Condition.numbered }
  | delete q => delete { q with condition := q.condition.map Condition.numbered }
  | update q =>
    update
      { q with
        items := q.items.map fun a => { a with value := a.value.numbered }
        condition := q.condition.map Condition.numbered }

theorem Statement.condition_numbered (s : Statement) :
    s.numbered.condition = s.condition.map Condition.numbered := by
  cases s <;> rfl

namespace Binder

/-- The same result, up to the name of the parameter in `missing` that has no value. -/
inductive Agree {α : Type} (missing : Param → Prop) :
    Except BindError α → Except BindError α → Prop where
  | ok {a} : Agree missing (.ok a) (.ok a)
  | unbound {p} : missing p →
      Agree missing (.error (.unboundParameter p.name)) (.error (.unboundParameter p.numbered.name))
  | error {e} : Agree missing (.error e) (.error e)

namespace Agree

variable {α β : Type} {missing more : Param → Prop} {x y : Except BindError α}

theorem mono (h : Agree missing x y) (le : ∀ p, missing p → more p) : Agree more x y := by
  cases h with
  | ok => exact .ok
  | unbound hp => exact .unbound (le _ hp)
  | error => exact .error

theorem map (h : Agree missing x y) (f : α → β) : Agree missing (x.map f) (y.map f) := by
  cases h with
  | ok => exact .ok
  | unbound hp => exact .unbound hp
  | error => exact .error

theorem bind (h : Agree missing x y) {f g : α → Except BindError β}
    (after : ∀ a, Agree missing (f a) (g a)) : Agree missing (x.bind f) (y.bind g) := by
  cases h with
  | ok => exact after _
  | unbound hp => exact .unbound hp
  | error => exact .error

end Agree

def Misses (b : Binder) (ps : List Param) (p : Param) : Prop := p ∈ ps ∧ b.params.get? p = none

theorem Misses.mono {b : Binder} {ps qs : List Param} (sub : ps ⊆ qs) (p : Param)
    (h : b.Misses ps p) : b.Misses qs p :=
  ⟨sub h.1, h.2⟩

/-- The same values by position, none by name and the same constants. -/
structure Positional (b b' : Binder) : Prop where
  byPosition : b.params.byPosition = b'.params.byPosition
  unnamed : b.params.byName = []
  unnamed' : b'.params.byName = []
  enums : b.enums = b'.enums

namespace Positional

variable {b b' : Binder}

theorem get?_numbered (h : Positional b b') (p : Param) :
    b'.params.get? p.numbered = b.params.get? p := by
  obtain ⟨name, position⟩ := p
  cases position <;>
    simp [Params.get?, Param.numbered, Param.positional, h.unnamed, h.unnamed', h.byPosition]

theorem param_numbered (h : Positional b b') (p : Param) :
    Agree (b.Misses [p]) (b.param p) (b'.param p.numbered) := by
  unfold param
  rw [h.get?_numbered]
  cases value : b.params.get? p with
  | none => exact .unbound ⟨List.mem_singleton_self p, value⟩
  | some v => exact .ok

theorem enum_eq (h : Positional b b') (path : String) : b.enum path = b'.enum path := by
  simp only [enum, h.enums]

mutual

theorem value_numbered (h : Positional b b') :
    (v : Operand) → Agree (b.Misses v.params) (b.value v) (b'.value v.numbered)
  | .string _ | .integer _ | .decimal _ | .boolean _ | .null => by
    simp only [value, Operand.numbered]
    exact .ok
  | .enum path => by
    simp only [value, Operand.numbered, h.enum_eq]
    cases b'.enum path with
    | ok => exact .ok
    | error => exact .error
  | .param p => by
    simp only [value, Operand.numbered, Operand.params]
    exact h.param_numbered p
  | .list items => by
    simp only [value, Operand.numbered, Operand.params]
    exact (values_numbered h items).map _
  | .call name args => by
    simp only [value, Operand.numbered, Operand.params]
    exact (values_numbered h args).map _

theorem values_numbered (h : Positional b b') : (vs : List Operand) →
    Agree (b.Misses (Operand.paramsAll vs)) (b.values vs) (b'.values (Operand.numberedAll vs))
  | [] => .ok
  | v :: rest => by
    rw [values_cons, Operand.numberedAll, values_cons, Operand.paramsAll]
    refine ((value_numbered h v).mono (Misses.mono (List.subset_append_left _ _))).bind fun w => ?_
    exact ((values_numbered h rest).mono (Misses.mono (List.subset_append_right _ _))).map _

end

theorem leaf_numbered (h : Positional b b') (field : String) (op : Operator) (v : Operand) :
    Agree (b.Misses v.params) (b.leaf field op v) (b'.leaf field op v.numbered) := by
  rw [leaf_eq, leaf_eq]
  refine (h.value_numbered v).bind fun w => ?_
  cases shapeError? field op w with
  | none => exact .ok
  | some e => exact .error

mutual

/-- Values by position do not tell a condition from its numbered form. -/
theorem condition_numbered (h : Positional b b') : (c : Condition Operand) →
    Agree (b.Misses c.params) (b.condition c) (b'.condition c.numbered)
  | .leaf field op v => by
    simp only [condition, Condition.numbered, Condition.params, Condition.values,
      List.flatMap_singleton]
    exact h.leaf_numbered field op v
  | .node op cs => by
    simp only [condition, Condition.numbered]
    exact (conditions_numbered h cs).map _

theorem conditions_numbered (h : Positional b b') : (cs : List (Condition Operand)) →
    Agree (b.Misses ((Condition.valuesAll cs).flatMap Operand.params)) (b.conditions cs)
      (b'.conditions (Condition.numberedAll cs))
  | [] => .ok
  | c :: rest => by
    rw [conditions_cons, Condition.numberedAll, conditions_cons, Condition.valuesAll,
      List.flatMap_append]
    refine ((condition_numbered h c).mono
      (Misses.mono (List.subset_append_left _ _))).bind fun d => ?_
    exact ((conditions_numbered h rest).mono (Misses.mono (List.subset_append_right _ _))).map _

end

end Positional

end Binder

end QueryTree
