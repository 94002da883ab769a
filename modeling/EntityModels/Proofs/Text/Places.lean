import Mathlib.Data.List.Induction
import Mathlib.Data.List.DropRight
import EntityModels.Proofs.Text.Extent

namespace EntityModels

theorem utf8ByteSize_ofList (text : List Char) :
    (String.ofList text).utf8ByteSize = byteLength text := by
  induction text with
  | nil => rfl
  | cons c text ih =>
    rw [String.ofList_cons, String.utf8ByteSize_append, String.utf8ByteSize_singleton, ih,
      byteLength_cons]

/-- The position is the place in the text that has `before` in front of it and `rest` behind it. -/
structure Position.Marks (p : Position) (text before rest : List Char) : Prop where
  text_eq : text = before ++ rest
  offset : p.offset = (String.ofList before).utf8ByteSize
  line : p.line = 1 + before.count '\n'
  column : p.column = 1 + (before.rtakeWhile (· != '\n')).length

namespace Position

theorem column_start_after (before : List Char) :
    (start.after before).column = 1 + (before.rtakeWhile (· != '\n')).length := by
  induction before using List.reverseRecOn with
  | nil => rfl
  | append_singleton before c ih =>
    rw [after_append, after_cons, after_nil, next_column, List.rtakeWhile_concat, ih]
    by_cases hc : c = '\n'
    · simp [hc]
    · simp [hc]
      omega

theorem marks_start_after (before rest : List Char) :
    (start.after before).Marks (before ++ rest) before rest where
  text_eq := rfl
  offset := by
    rw [utf8ByteSize_ofList, after_offset]
    exact Nat.zero_add _
  line := after_line start before
  column := column_start_after before

/-- In a text that is not too long the numbers stay small. -/
theorem Marks.lt {p : Position} {text before rest : List Char} (h : p.Marks text before rest)
    {n : Nat} (hn : text.length < n - 1) : p.line < n ∧ p.column < n := by
  have hlength : before.length ≤ text.length := by simp [h.text_eq]
  have hlines : before.count '\n' ≤ before.length := List.count_le_length
  have hcolumns : (before.rtakeWhile (· != '\n')).length ≤ before.length :=
    (List.rtakeWhile_suffix _ before).length_le
  have hline := h.line
  have hcolumn := h.column
  omega

theorem compare_eq (p q : Position) : compare p q =
    (compare p.line q.line).then ((compare p.column q.column).then (compare p.offset q.offset)) :=
  rfl

theorem compare_of_location {p q : Position}
    (h : p.line < q.line ∨ p.line = q.line ∧ p.column < q.column) :
    compare p q = .lt ∧ compare q p = .gt := by
  rw [compare_eq, compare_eq]
  rcases h with hline | ⟨hline, hcolumn⟩
  · rw [Nat.compare_eq_lt.2 hline, Nat.compare_eq_gt.2 hline]
    exact ⟨rfl, rfl⟩
  · rw [hline, Nat.compare_eq_eq.2 rfl, Nat.compare_eq_lt.2 hcolumn, Nat.compare_eq_gt.2 hcolumn]
    exact ⟨rfl, rfl⟩

theorem before_after (p : Position) (c : Char) (text : List Char) :
    let q := p.after (c :: text)
    (p.line < q.line ∨ p.line = q.line ∧ p.column < q.column) ∧ p.offset < q.offset := by
  intro q
  have hle : p.location ≤ q.location := p.location_le_after (c :: text)
  have hnot : ¬q.location ≤ p.location := p.not_after_le c text
  rw [Location.le_def] at hle hnot
  have hoffset : q.offset = p.offset + byteLength (c :: text) := p.after_offset (c :: text)
  have hsize := c.utf8Size_pos
  rw [byteLength_cons] at hoffset
  simp only [location] at hle hnot
  omega

/-- Of two places in a text the order is that of the bytes in front of them, and no other place has
the same line and column. -/
theorem compare_after (p : Position) (text : List Char) :
    let q := p.after text
    compare p q = compare p.offset q.offset ∧ compare q p = compare q.offset p.offset ∧
      (p.location = q.location → p.offset = q.offset) := by
  cases text with
  | nil =>
    have hself : compare p p = .eq := by simp [compare_eq]
    exact ⟨by simp [hself], by simp [hself], fun _ ↦ rfl⟩
  | cons c text =>
    obtain ⟨hbefore, hoffset⟩ := p.before_after c text
    obtain ⟨hlt, hgt⟩ := compare_of_location hbefore
    refine ⟨?_, ?_, fun heq ↦ ?_⟩
    · rw [hlt, Nat.compare_eq_lt.2 hoffset]
    · rw [hgt, Nat.compare_eq_gt.2 hoffset]
    · exact absurd (heq ▸ Location.le_refl _) (p.not_after_le c text)

end Position

namespace Cursor.LeadsTo

variable {a c d : Cursor}

/-- Of two places that are ahead of a third one, the one with fewer bytes in front of it comes
first. -/
theorem of_offset_le (hc : a.LeadsTo c) (hd : a.LeadsTo d)
    (h : c.position.offset ≤ d.position.offset) : c.LeadsTo d := by
  obtain ⟨s, hs, hps⟩ := hc
  obtain ⟨t, ht, hpt⟩ := hd
  rcases List.append_eq_append_iff.1 (hs.symm.trans ht) with ⟨u, rfl, hu⟩ | ⟨u, rfl, hu⟩
  · refine ⟨u, hu, ?_⟩
    rw [hpt, hps, Position.after_append]
  · -- nothing is left for the text in between
    rw [hps, hpt, Position.after_append, Position.after_offset _ u] at h
    cases u with
    | nil => exact ⟨[], hu.symm, by rw [hps, hpt, List.append_nil, Position.after_nil]⟩
    | cons x u =>
      have := x.utf8Size_pos
      rw [byteLength_cons] at h
      omega

theorem compare_eq (hc : a.LeadsTo c) (hd : a.LeadsTo d) :
    compare c.position d.position = compare c.position.offset d.position.offset ∧
      (c.position.location = d.position.location → c.position.offset = d.position.offset) := by
  rcases Nat.le_total c.position.offset d.position.offset with h | h
  · obtain ⟨t, -, ht⟩ := hc.of_offset_le hd h
    obtain ⟨hcompare, -, hlocation⟩ := c.position.compare_after t
    rw [ht]
    exact ⟨hcompare, hlocation⟩
  · obtain ⟨t, -, ht⟩ := hd.of_offset_le hc h
    obtain ⟨-, hcompare, hlocation⟩ := d.position.compare_after t
    rw [ht]
    exact ⟨hcompare, fun heq ↦ (hlocation heq.symm).symm⟩

end Cursor.LeadsTo

end EntityModels
