import Mathlib.Data.List.Induction
import QueryTree.Proofs.Binding.Outcome

/-! # Binding with a registry

A registry only refuses paths. What is bound with it is bound in the same way without it, and what
goes wrong without it goes wrong with it as well. Of the types that are registered under one name
the latest counts.
-/

namespace QueryTree

def Condition.paths (c : Condition Operand) : List String := c.values.flatMap Operand.paths

namespace EnumRegistry

def registerAll (history : List (String × List String)) : EnumRegistry :=
  history.foldl (fun registry call => registry.register call.1 call.2) empty

def entry (call : String × List String) : String × List String :=
  (Text.lastSegment call.1, call.2)

/-- The latest of the types with this last segment of their names has this constant. -/
def Lists (history : List (String × List String)) (type constant : String) : Prop :=
  ∃ before name constants after, history = before ++ (name, constants) :: after ∧
    (∃ front, Text.segments name = front ++ [type]) ∧
    (∀ later ∈ after, ¬ ∃ front, Text.segments later.1 = front ++ [type]) ∧ constant ∈ constants

variable {history : List (String × List String)} {path type : String} {constants : List String}

/-- A type that is registered goes before all earlier ones. -/
theorem types_registerAll (history : List (String × List String)) :
    (registerAll history).types = (history.map entry).reverse := by
  induction history using List.reverseRecOn with
  | nil => rfl
  | append_singleton history call ih =>
    rw [List.map_append, List.reverse_append, ← ih, registerAll, List.foldl_append]
    rfl

theorem lookup_registerAll_iff :
    (registerAll history).types.lookup type = some constants ↔
      ∃ before name after, history = before ++ (name, constants) :: after ∧
        Text.lastSegment name = type ∧ ∀ later ∈ after, Text.lastSegment later.1 ≠ type := by
  rw [types_registerAll, List.lookup_eq_some_iff]
  constructor
  · rintro ⟨newer, older, split, others⟩
    rw [List.reverse_eq_append_iff, List.reverse_cons, List.append_assoc, List.singleton_append,
      List.map_eq_append_iff] at split
    obtain ⟨before, _, rfl, -, split⟩ := split
    obtain ⟨⟨name, _⟩, after, rfl, ⟨⟩, newest⟩ := List.map_eq_cons_iff.mp split
    refine ⟨before, name, after, rfl, rfl, fun later mem same => ?_⟩
    have met : entry later ∈ after.map entry := List.mem_map_of_mem mem
    rw [newest, List.mem_reverse] at met
    exact bne_iff_ne.mp (others _ met) same.symm
  · rintro ⟨before, name, after, rfl, rfl, latest⟩
    refine ⟨(after.map entry).reverse, (before.map entry).reverse, ?_, ?_⟩
    · rw [List.map_append, List.map_cons, List.reverse_append, List.reverse_cons,
        List.append_assoc, List.singleton_append]
      rfl
    · simp only [List.mem_reverse, List.mem_map, bne_iff_ne]
      rintro _ ⟨later, mem, rfl⟩
      exact (latest later mem).symm

theorem lists_iff {constant : String} :
    Lists history type constant ↔
      ∃ constants, (registerAll history).types.lookup type = some constants ∧
        constant ∈ constants := by
  simp only [Lists, lookup_registerAll_iff, ← Text.lastSegment_eq_iff]
  constructor
  · rintro ⟨before, name, constants, after, split, named, latest, mem⟩
    exact ⟨constants, ⟨before, name, after, split, named, latest⟩, mem⟩
  · rintro ⟨constants, ⟨before, name, after, split, named, latest⟩, mem⟩
    exact ⟨before, name, constants, after, split, named, latest, mem⟩

theorem lastTwo?_eq_some_iff {constant : String} :
    Text.lastTwo? path = some (type, constant) ↔
      ∃ front, Text.segments path = front ++ [type, constant] := by
  have turned (front : List String) : Text.segments path = front ++ [type, constant] ↔
      (Text.segments path).reverse = constant :: type :: front.reverse := by
    rw [List.reverse_eq_iff]
    simp
  simp only [turned, Text.lastTwo?]
  generalize (Text.segments path).reverse = segments
  constructor
  · intro h
    split at h
    · next last secondLast rest =>
      cases h
      exact ⟨rest.reverse, by rw [List.reverse_reverse]⟩
    · cases h
  · rintro ⟨front, rfl⟩
    rfl

theorem resolve?_eq_some_iff {registry : EnumRegistry} :
    (∃ v, registry.resolve? path = some v) ↔
      ∃ type constant, Text.lastTwo? path = some (type, constant) ∧
        ∃ constants, registry.types.lookup type = some constants ∧ constant ∈ constants := by
  constructor
  · rintro ⟨v, found⟩
    unfold resolve? at found
    split at found
    · cases found
    · next type constant ends =>
      split at found
      · cases found
      · next constants listed =>
        split_ifs at found with mem
        exact ⟨type, constant, ends, constants, listed, mem⟩
  · rintro ⟨type, constant, ends, constants, listed, mem⟩
    exact ⟨.enum type constant, by simp only [resolve?, ends, listed, if_pos mem]⟩

end EnumRegistry

/-- The first of two faults is the second, unless one of these paths is unknown. -/
def Stricter (paths : List String) (checked unchecked : Option BindError) : Prop :=
  checked = unchecked ∨ ∃ path ∈ paths, checked = some (.unknownEnum path)

/-- A result of binding with a registry, and one without it. -/
structure OnlyRejects {α : Type} (paths : List String) (checked unchecked : Except BindError α) :
    Prop where
  bound : ∀ a, checked = .ok a → unchecked = .ok a
  rejected : ∀ a e, unchecked = .ok a → checked = .error e → ∃ path ∈ paths, e = .unknownEnum path
  failed : ∀ e, unchecked = .error e →
    checked = .error e ∨ ∃ path ∈ paths, checked = .error (.unknownEnum path)

section Stricter

variable {α : Type} {paths : List String} {f f' g g' : Option BindError}

theorem Stricter.or (h : Stricter paths f g) (h' : Stricter paths f' g') :
    Stricter paths (f.or f') (g.or g') := by
  rcases h with rfl | ⟨path, mem, rfl⟩
  · cases f with
    | none => exact h'
    | some e => exact .inl rfl
  · exact .inr ⟨path, mem, rfl⟩

/-- The first fault stays the first, unless a path before it is unknown. -/
theorem Stricter.findSome? {l : List α} {f g : α → Option BindError}
    (h : ∀ x ∈ l, Stricter paths (f x) (g x)) :
    Stricter paths (l.findSome? f) (l.findSome? g) := by
  induction l with
  | nil => exact .inl rfl
  | cons x l ih =>
    obtain ⟨first, others⟩ := List.forall_mem_cons.mp h
    rw [← List.singleton_append, List.findSome?_append, List.findSome?_append,
      List.findSome?_singleton, List.findSome?_singleton]
    exact first.or (ih others)

theorem Stricter.settle (h : Stricter paths f g) (a : α) :
    OnlyRejects paths (settle f a) (settle g a) := by
  refine ⟨fun d bound => ?_, fun d e bound failed => ?_, fun e failed => ?_⟩
  · rw [settle_eq_ok_iff] at bound ⊢
    obtain ⟨rfl, same⟩ := bound
    rcases h with none | ⟨_, _, ⟨⟩⟩
    exact ⟨none.symm, same⟩
  · rw [settle_eq_ok_iff] at bound
    rw [settle_eq_error_iff] at failed
    subst failed
    rcases h with some | ⟨path, mem, unknown⟩
    · cases some.trans bound.1
    · exact ⟨path, mem, Option.some.inj unknown⟩
  · simp only [settle_eq_error_iff] at failed ⊢
    exact failed ▸ h

end Stricter

namespace Binder

variable {paths : List String}

theorem enum_ok_iff {params : Params} {registry : EnumRegistry} {path : String} :
    (∃ v, enum ⟨params, some registry⟩ path = .ok v) ↔ ∃ v, registry.resolve? path = some v := by
  simp only [enum]
  cases registry.resolve? path <;> simp

theorem stricter_missing? (params : Params) (registry : EnumRegistry) {r : Reference}
    (mem : ∀ path, r = .path path → path ∈ paths) :
    Stricter paths (missing? ⟨params, some registry⟩ r) (missing? ⟨params, none⟩ r) := by
  cases r with
  | param p => exact .inl rfl
  | path path =>
    cases found : registry.resolve? path with
    | none =>
      refine .inr ⟨path, mem path rfl, ?_⟩
      simp [missing?, constant?, found]
    | some w =>
      have known := ofEnumPath?_of_resolve? found
      simp [Stricter, missing?, constant?, found, known]

theorem stricter_references (params : Params) (registry : EnumRegistry) {v : Operand}
    (sub : v.paths ⊆ paths) :
    Stricter paths (v.references.findSome? (missing? ⟨params, some registry⟩))
      (v.references.findSome? (missing? ⟨params, none⟩)) := by
  refine Stricter.findSome? fun r mem => stricter_missing? params registry ?_
  rintro path rfl
  exact sub (Operand.path_mem_references_iff.mp mem)

theorem stricter_fault? (params : Params) (registry : EnumRegistry) {x : Comparison Operand}
    (sub : x.value.paths ⊆ paths) :
    Stricter paths (fault? ⟨params, some registry⟩ x) (fault? ⟨params, none⟩ x) :=
  (stricter_references params registry sub).or (.inl rfl)

theorem onlyRejects_condition (params : Params) (registry : EnumRegistry)
    (c : Condition Operand) :
    OnlyRejects c.paths (condition ⟨params, some registry⟩ c) (condition ⟨params, none⟩ c) := by
  rw [condition_eq, condition_eq]
  refine Stricter.settle (Stricter.findSome? fun x mem => stricter_fault? params registry ?_) _
  rw [Condition.paths, Condition.values_eq_map_comparisons, List.flatMap_map]
  exact fun path occurs => List.mem_flatMap.mpr ⟨x, mem, occurs⟩

theorem onlyRejects_assignments (params : Params) (registry : EnumRegistry)
    (items : List Assignment) :
    OnlyRejects (items.flatMap (·.value.paths)) (assignments ⟨params, some registry⟩ items)
      (assignments ⟨params, none⟩ items) := by
  rw [assignments_eq, assignments_eq]
  refine Stricter.settle (Stricter.findSome? fun r mem => stricter_missing? params registry ?_) _
  rintro path rfl
  obtain ⟨a, mem, occurs⟩ := List.mem_flatMap.mp mem
  exact List.mem_flatMap.mpr ⟨a, mem, Operand.path_mem_references_iff.mp occurs⟩

end Binder

/-- Binding a condition or assignments with a registry gives what it gives without one, or the fault
that it has without one, or else an unknown path that occurs in them. A path is known exactly if it
has a last segment that is among the constants of the type named by the segment before, as that type
was registered last. -/
theorem registry_only_rejects (params : Params) (history : List (String × List String)) :
    let checked : Binder := ⟨params, some (.registerAll history)⟩
    let unchecked : Binder := ⟨params, none⟩
    (∀ c, OnlyRejects c.paths (checked.condition c) (unchecked.condition c)) ∧
      (∀ items : List Assignment, OnlyRejects (items.flatMap (·.value.paths))
        (checked.assignments items) (unchecked.assignments items)) ∧
      ∀ path, (∃ v, checked.enum path = .ok v) ↔
        ∃ front type constant, Text.segments path = front ++ [type, constant] ∧
          EnumRegistry.Lists history type constant := by
  refine ⟨Binder.onlyRejects_condition params _, Binder.onlyRejects_assignments params _,
    fun path => ?_⟩
  rw [Binder.enum_ok_iff, EnumRegistry.resolve?_eq_some_iff]
  simp only [EnumRegistry.lastTwo?_eq_some_iff, ← EnumRegistry.lists_iff]
  constructor
  · rintro ⟨type, constant, ⟨front, split⟩, listed⟩
    exact ⟨front, type, constant, split, listed⟩
  · rintro ⟨front, type, constant, split, listed⟩
    exact ⟨type, constant, ⟨front, split⟩, listed⟩

/-- A type takes the place of an earlier one with the same last segment. -/
example :
    let colors := [("paint.Color", ["RED"]), ("light.Color", ["BLUE"])]
    let binder : Binder := ⟨⟨[], [], []⟩, some (.registerAll colors)⟩
    binder.enum "paint.Color.BLUE" = .ok (.enum "Color" "BLUE") ∧
      binder.enum "paint.Color.RED" = .error (.unknownEnum "paint.Color.RED") := by
  exact ⟨rfl, rfl⟩

end QueryTree
