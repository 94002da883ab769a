namespace EntityModels.Unicode

/-- Closed ranges of code points, each above the one before it. -/
abbrev Ranges := List (Nat × Nat)

namespace Ranges

/-- Membership; the search ends at the first range that starts above `n`. -/
def has : Ranges → Nat → Bool
  | [], _ => false
  | (low, high) :: ranges, n => if n < low then false else decide (n ≤ high) || has ranges n

def Ascending (ranges : Ranges) : Prop :=
  (∀ r ∈ ranges, r.1 ≤ r.2) ∧ ranges.Pairwise fun r s ↦ r.2 < s.1

theorem exists_of_has {ranges : Ranges} {n : Nat} (h : ranges.has n) :
    ∃ r ∈ ranges, r.1 ≤ n ∧ n ≤ r.2 := by
  induction ranges with
  | nil => cases h
  | cons r ranges ih =>
    simp only [has] at h
    split at h
    · cases h
    · rcases Bool.or_eq_true_iff.1 h with h | h
      · exact ⟨r, by simp, by omega, of_decide_eq_true h⟩
      · obtain ⟨s, hs, hn⟩ := ih h
        exact ⟨s, by simp [hs], hn⟩

theorem has_iff {ranges : Ranges} (hr : ranges.Ascending) {n : Nat} :
    ranges.has n ↔ ∃ r ∈ ranges, r.1 ≤ n ∧ n ≤ r.2 := by
  refine ⟨exists_of_has, ?_⟩
  induction ranges with
  | nil => simp
  | cons r ranges ih =>
    obtain ⟨hle, hlt⟩ := hr
    rw [List.pairwise_cons] at hlt
    rintro ⟨s, hs, hlow, hhigh⟩
    simp only [has]
    rcases List.mem_cons.1 hs with rfl | hs
    · rw [if_neg (by omega)]
      simp [hhigh]
    · have := hlt.1 s hs
      have := hle r (by simp)
      rw [if_neg (by omega), ih ⟨fun q hq ↦ hle q (by simp [hq]), hlt.2⟩ ⟨s, hs, hlow, hhigh⟩]
      simp

end Ranges

end EntityModels.Unicode
