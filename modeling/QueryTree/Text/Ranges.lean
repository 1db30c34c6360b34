/-! # Sorted ranges

A set of numbers as an ascending list of closed ranges.
-/

namespace QueryTree.Text

/-- The search stops at the first range that ends at or after `n`. -/
def inRanges : List (Nat × Nat) → Nat → Bool
  | [], _ => false
  | (first, last) :: rest, n => if n ≤ last then decide (first ≤ n) else inRanges rest n

theorem inRanges_iff_exists {ranges : List (Nat × Nat)} {n : Nat}
    (sorted : ranges.Pairwise fun a b => a.2 < b.1) :
    inRanges ranges n ↔ ∃ r ∈ ranges, r.1 ≤ n ∧ n ≤ r.2 := by
  induction ranges with
  | nil => simp [inRanges]
  | cons r rest ih =>
    obtain ⟨first, last⟩ := r
    obtain ⟨before, sorted⟩ := List.pairwise_cons.mp sorted
    by_cases h : n ≤ last
    · have later : ∀ r ∈ rest, ¬ (r.1 ≤ n ∧ n ≤ r.2) := fun r hr ⟨h₁, _⟩ => by
        have := before r hr
        simp only at this
        omega
      simp only [inRanges, h, if_true, decide_eq_true_eq, List.mem_cons, exists_eq_or_imp, and_true]
      exact ⟨Or.inl, fun h' => h'.elim id fun ⟨r, hr, hn⟩ => absurd hn (later r hr)⟩
    · simp [inRanges, h, ih sorted]

end QueryTree.Text
