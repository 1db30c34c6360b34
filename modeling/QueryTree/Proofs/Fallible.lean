import Mathlib.Data.List.Basic

/-! # Fallible steps

When a step succeeds, so has everything that it consists of. When it fails, one of its parts
has failed.
-/

namespace QueryTree

variable {ε α β γ : Type}

theorem Except.bind_eq_ok_iff {x : Except ε α} {f : α → Except ε β} {b : β} :
    (x >>= f) = .ok b ↔ ∃ a, x = .ok a ∧ f a = .ok b := by
  cases x <;> simp [bind, Except.bind]

theorem Except.map_eq_ok_iff {x : Except ε α} {f : α → β} {b : β} :
    x.map f = .ok b ↔ ∃ a, x = .ok a ∧ f a = b := by
  cases x <;> simp [Except.map]

theorem Except.map_eq_error_iff {x : Except ε α} {f : α → β} {e : ε} :
    x.map f = .error e ↔ x = .error e := by
  cases x <;> simp [Except.map]

theorem Except.mapError_eq_ok_iff {δ : Type} {x : Except ε α} {f : ε → δ} {a : α} :
    x.mapError f = .ok a ↔ x = .ok a := by
  cases x <;> simp [Except.mapError]

theorem exists_map_eq_ok_iff {x : Except ε α} {f : α → β} :
    (∃ b, x.map f = .ok b) ↔ ∃ a, x = .ok a := by
  cases x <;> simp [Except.map]

/-- Two steps, of which the second does not depend on the first, succeed if both do. -/
theorem exists_bind_map_eq_ok_iff {x : Except ε α} {y : Except ε β} {f : α → β → γ} :
    (∃ c, (x.bind fun a => y.map (f a)) = .ok c) ↔ (∃ a, x = .ok a) ∧ ∃ b, y = .ok b := by
  cases x <;> cases y <;> simp [Except.bind, Except.map]

def Ensures (P : α → Prop) (Q : ε → Prop) : Except ε α → Prop
  | .ok a => P a
  | .error e => Q e

section Ensures

variable {P P' : α → Prop} {Q Q' : ε → Prop} {R : β → Prop} {x : Except ε α}

theorem Ensures.error {e : ε} (h : Ensures P Q x) (failed : x = .error e) : Q e := by
  subst failed
  exact h

theorem Ensures.imp (h : Ensures P Q x) (hP : ∀ a, P a → P' a) (hQ : ∀ e, Q e → Q' e) :
    Ensures P' Q' x := by
  cases x with
  | ok a => exact hP a h
  | error e => exact hQ e h

theorem Ensures.map {f : α → β} (h : Ensures (fun a => R (f a)) Q x) : Ensures R Q (x.map f) := by
  cases x <;> exact h

theorem Ensures.bind {f : α → Except ε β} (h : Ensures P Q x)
    (next : ∀ a, P a → Ensures R Q (f a)) : Ensures R Q (x >>= f) := by
  cases x with
  | ok a => exact next a h
  | error e => exact h

theorem ensures_mapM {f : α → Except ε β} {as : List α}
    (each : ∀ a ∈ as, Ensures (fun _ => True) Q (f a)) : Ensures (fun _ => True) Q (as.mapM f) := by
  induction as with
  | nil => exact trivial
  | cons a as ih =>
    rw [List.mapM_cons]
    apply (each a List.mem_cons_self).bind
    intro b _
    apply (ih fun a' mem => each a' (List.mem_cons_of_mem a mem)).bind
    intro bs _
    exact trivial

end Ensures

def settle (fault : Option ε) (result : α) : Except ε α := fault.elim (.ok result) .error

section Settle

variable {fault fault' : Option ε} {a b : α} {e : ε}

theorem settle_eq_ok_iff : settle fault a = .ok b ↔ fault = none ∧ a = b := by
  cases fault <;> simp [settle]

theorem settle_eq_error_iff : settle fault a = .error e ↔ fault = some e := by
  cases fault <;> simp [settle]

theorem exists_settle_eq_ok_iff : (∃ b, settle fault a = .ok b) ↔ fault = none := by
  simp [settle_eq_ok_iff]

theorem map_settle (f : α → β) : (settle fault a).map f = settle fault (f a) := by
  cases fault <;> rfl

theorem mapError_settle {δ : Type} (f : ε → δ) :
    (settle fault a).mapError f = settle (fault.map f) a := by
  cases fault <;> rfl

theorem bind_settle (f : α → β → γ) (b : β) :
    ((settle fault a).bind fun a => (settle fault' b).map (f a)) =
      settle (fault.or fault') (f a b) := by
  cases fault <;> cases fault' <;> rfl

end Settle

/-- The results of a step on every element of a list, if the things that the step succeeds on are
those of the form `input x`. -/
theorem mapM_eq_ok_iff {f : α → Except ε β} (input : γ → α) (output : γ → β)
    (step : ∀ a b, f a = .ok b ↔ ∃ x, a = input x ∧ b = output x) {as : List α} {bs : List β} :
    as.mapM f = .ok bs ↔ ∃ xs : List γ, as = xs.map input ∧ bs = xs.map output := by
  induction as generalizing bs with
  | nil =>
    simp only [List.mapM_nil, pure, Except.pure, Except.ok.injEq, List.nil_eq, List.map_eq_nil_iff]
    constructor
    · rintro rfl
      exact ⟨[], rfl, rfl⟩
    · rintro ⟨xs, rfl, rfl⟩
      rfl
  | cons a as ih =>
    simp only [List.mapM_cons, Except.bind_eq_ok_iff, pure, Except.pure, Except.ok.injEq, step, ih]
    constructor
    · rintro ⟨_, ⟨x, rfl, rfl⟩, _, ⟨xs, rfl, rfl⟩, rfl⟩
      exact ⟨x :: xs, rfl, rfl⟩
    · rintro ⟨xs, h, rfl⟩
      obtain ⟨x, xs, rfl, rfl, rfl⟩ := List.map_eq_cons_iff.mp h.symm
      exact ⟨_, ⟨x, rfl, rfl⟩, _, ⟨xs, rfl, rfl⟩, rfl⟩

theorem mapM_congr {f g : α → Except ε β} {as : List α} (same : ∀ a ∈ as, f a = g a) :
    as.mapM f = as.mapM g := by
  induction as with
  | nil => rfl
  | cons a as ih =>
    obtain ⟨first, others⟩ := List.forall_mem_cons.mp same
    rw [List.mapM_cons, List.mapM_cons, first, ih others]

end QueryTree
