import EntityModels.Character

namespace EntityModels

namespace Unicode

namespace Ranges

/-- Ascending from `n` on, with nothing to be looked at twice. -/
def ascendsFrom : Nat → Ranges → Bool
  | _, [] => true
  | n, r :: ranges => decide (n ≤ r.1) && decide (r.1 ≤ r.2) && ascendsFrom (r.2 + 1) ranges

/-- No range of the one list meets a range of the other. -/
def apart : Ranges → Ranges → Bool
  | [], _ => true
  | r :: ranges, others =>
    let ahead := others.dropWhile fun s ↦ decide (s.2 < r.1)
    ahead.head?.all (fun s ↦ decide (r.2 < s.1)) && apart ranges ahead

def covered : Ranges → Ranges → Bool
  | [], _ => true
  | r :: ranges, others =>
    let ahead := others.dropWhile fun s ↦ decide (s.2 < r.1)
    ahead.head?.any (fun s ↦ decide (s.1 ≤ r.1) && decide (r.2 ≤ s.2)) && covered ranges ahead

theorem le_of_ascendsFrom {n : Nat} {ranges : Ranges} (h : ascendsFrom n ranges) :
    ∀ r ∈ ranges, n ≤ r.1 ∧ r.1 ≤ r.2 := by
  induction ranges generalizing n with
  | nil => simp
  | cons r ranges ih =>
    simp only [ascendsFrom, Bool.and_eq_true, decide_eq_true_eq] at h
    obtain ⟨⟨hn, hr⟩, hs⟩ := h
    intro s hm
    rcases List.mem_cons.1 hm with rfl | hm
    · exact ⟨hn, hr⟩
    · have := ih hs s hm
      omega

theorem ascending_of_ascendsFrom {n : Nat} {ranges : Ranges} (h : ascendsFrom n ranges) :
    ranges.Ascending := by
  refine ⟨fun r hr ↦ (le_of_ascendsFrom h r hr).2, ?_⟩
  induction ranges generalizing n with
  | nil => exact .nil
  | cons r ranges ih =>
    simp only [ascendsFrom, Bool.and_eq_true] at h
    refine List.pairwise_cons.2 ⟨fun s hs ↦ ?_, ih h.2⟩
    have := (le_of_ascendsFrom h.2 s hs).1
    omega

theorem Ascending.tail {r : Nat × Nat} {ranges : Ranges} (h : Ascending (r :: ranges)) :
    Ascending ranges :=
  ⟨fun s hs ↦ h.1 s (List.mem_cons_of_mem r hs), (List.pairwise_cons.1 h.2).2⟩

theorem Ascending.dropWhile {ranges : Ranges} (h : ranges.Ascending) (test : Nat × Nat → Bool) :
    Ascending (ranges.dropWhile test) :=
  have hs := List.dropWhile_sublist test
  ⟨fun r hr ↦ h.1 r (hs.subset hr), h.2.sublist hs⟩

theorem mem_ahead_or_lt {r s : Nat × Nat} {others : Ranges} (h : s ∈ others) :
    s ∈ others.dropWhile (fun s ↦ decide (s.2 < r.1)) ∨ s.2 < r.1 := by
  rw [← @List.takeWhile_append_dropWhile _ (fun s ↦ decide (s.2 < r.1)) others,
    List.mem_append] at h
  rcases h with h | h
  · have := List.all_eq_true.1 List.all_takeWhile s h
    exact .inr (of_decide_eq_true this)
  · exact .inl h

theorem apart_sound {ranges others : Ranges} (hr : ranges.Ascending) (ho : others.Ascending)
    (h : ranges.apart others) :
    ∀ r ∈ ranges, ∀ s ∈ others, s.2 < r.1 ∨ r.2 < s.1 := by
  induction ranges generalizing others with
  | nil => simp
  | cons q ranges ih =>
    simp only [apart, Bool.and_eq_true] at h
    obtain ⟨hhead, htail⟩ := h
    have hd := ho.dropWhile fun s ↦ decide (s.2 < q.1)
    intro r hm s hs
    rcases mem_ahead_or_lt (r := q) hs with hs | hlt
    · rcases List.mem_cons.1 hm with rfl | hm
      · -- the first range ahead lies behind `r`, and so do all the others
        cases ha : others.dropWhile fun s ↦ decide (s.2 < r.1) with
        | nil => simp [ha] at hs
        | cons first ahead =>
          rw [ha] at hhead hs hd
          have hfirst : r.2 < first.1 := by simpa using hhead
          rcases List.mem_cons.1 hs with rfl | hs
          · exact .inr hfirst
          · have := (List.pairwise_cons.1 hd.2).1 s hs
            have := hd.1 first List.mem_cons_self
            exact .inr (by omega)
      · exact ih hr.tail hd htail r hm s hs
    · rcases List.mem_cons.1 hm with rfl | hm
      · exact .inl hlt
      · have := (List.pairwise_cons.1 hr.2).1 r hm
        have := hr.1 q List.mem_cons_self
        exact .inl (by omega)

theorem not_has_of_apart {ranges others : Ranges} (hr : ranges.Ascending) (ho : others.Ascending)
    (h : ranges.apart others) {n : Nat} (hn : ranges.has n) : others.has n = false := by
  rw [Bool.eq_false_iff]
  intro hm
  obtain ⟨r, hr', hlow, hhigh⟩ := exists_of_has hn
  obtain ⟨s, hs', slow, shigh⟩ := exists_of_has hm
  have := apart_sound hr ho h r hr' s hs'
  omega

theorem covered_sound {ranges others : Ranges} (h : ranges.covered others) :
    ∀ r ∈ ranges, ∃ s ∈ others, s.1 ≤ r.1 ∧ r.2 ≤ s.2 := by
  induction ranges generalizing others with
  | nil => simp
  | cons q ranges ih =>
    simp only [covered, Bool.and_eq_true] at h
    obtain ⟨hhead, htail⟩ := h
    have hsub := (List.dropWhile_sublist (l := others) fun s ↦ decide (s.2 < q.1)).subset
    intro r hm
    rcases List.mem_cons.1 hm with rfl | hm
    · cases ha : others.dropWhile fun s ↦ decide (s.2 < r.1) with
      | nil => simp [ha] at hhead
      | cons first ahead =>
        rw [ha] at hhead hsub
        simp only [List.head?_cons, Option.any_some, Bool.and_eq_true, decide_eq_true_eq] at hhead
        exact ⟨first, hsub List.mem_cons_self, hhead⟩
    · obtain ⟨s, hs, hle⟩ := ih htail r hm
      exact ⟨s, hsub hs, hle⟩

theorem has_of_covered {ranges others : Ranges} (ho : others.Ascending) (h : ranges.covered others)
    {n : Nat} (hn : ranges.has n) : others.has n := by
  obtain ⟨r, hr, hlow, hhigh⟩ := exists_of_has hn
  obtain ⟨s, hs, hle, hge⟩ := covered_sound h r hr
  exact (has_iff ho).2 ⟨s, hs, by omega, by omega⟩

end Ranges

theorem whiteSpace_ascending : whiteSpace.Ascending :=
  Ranges.ascending_of_ascendsFrom (n := 0) (by decide +kernel)

theorem uppercase_ascending : uppercase.Ascending :=
  Ranges.ascending_of_ascendsFrom (n := 0) (by decide +kernel)

theorem lowercase_ascending : lowercase.Ascending :=
  Ranges.ascending_of_ascendsFrom (n := 0) (by decide +kernel)

theorem alphanumeric_ascending : alphanumeric.Ascending :=
  Ranges.ascending_of_ascendsFrom (n := 0) (by decide +kernel)

variable {c : Char}

theorem isLowercase_of_isUppercase (h : isUppercase c) : isLowercase c = false :=
  Ranges.not_has_of_apart uppercase_ascending lowercase_ascending (by decide +kernel) h

theorem isWhiteSpace_of_isAlphanumeric (h : isAlphanumeric c) : isWhiteSpace c = false :=
  Ranges.not_has_of_apart alphanumeric_ascending whiteSpace_ascending (by decide +kernel) h

theorem isAlphanumeric_of_isUppercase (h : isUppercase c) : isAlphanumeric c :=
  Ranges.has_of_covered alphanumeric_ascending (by decide +kernel) h

theorem isAlphanumeric_of_isLowercase (h : isLowercase c) : isAlphanumeric c :=
  Ranges.has_of_covered alphanumeric_ascending (by decide +kernel) h

theorem isAlphanumeric_of_isDigit (h : c.isDigit) : isAlphanumeric c := by
  rw [Char.isDigit_iff_toNat] at h
  exact (Ranges.has_iff alphanumeric_ascending).2 ⟨(0x30, 0x39), .head _, h⟩

end Unicode

open Unicode

variable {c : Char}

theorem isWhiteSpace_of_isIdentChar (h : isIdentChar c) : isWhiteSpace c = false := by
  rcases Bool.or_eq_true_iff.1 h with h | h
  · exact isWhiteSpace_of_isAlphanumeric h
  · rw [eq_of_beq h]
    decide

theorem isHorizontalSpace_of_isIdentChar (h : isIdentChar c) : isHorizontalSpace c = false := by
  rw [isHorizontalSpace, isWhiteSpace_of_isIdentChar h]
  rfl

theorem isIdentChar_of_isTypeStart (h : isTypeStart c) : isIdentChar c := by
  rw [isIdentChar, isAlphanumeric_of_isUppercase h]
  rfl

theorem isIdentChar_of_isFieldStart (h : isFieldStart c) : isIdentChar c := by
  rw [isFieldStart, Bool.or_eq_true] at h
  rw [isIdentChar, Bool.or_eq_true]
  exact h.imp_left isAlphanumeric_of_isLowercase

theorem isIdentChar_of_isDigit (h : c.isDigit) : isIdentChar c := by
  rw [isIdentChar, isAlphanumeric_of_isDigit h]
  rfl

theorem isFieldStart_of_isTypeStart (h : isTypeStart c) : isFieldStart c = false := by
  rw [isFieldStart, isLowercase_of_isUppercase h, Bool.false_or, beq_eq_false_iff_ne]
  rintro rfl
  exact absurd h (by decide)

theorem isHorizontalSpace_of_isTypeStart (h : isTypeStart c) : isHorizontalSpace c = false :=
  isHorizontalSpace_of_isIdentChar (isIdentChar_of_isTypeStart h)

end EntityModels
