import EntityModels.Text.Position

namespace EntityModels

namespace Location

/-- A location of a text that begins at `base`. -/
def within (base l : Location) : Location :=
  if l.line ≤ 1 then ⟨base.line, base.column + l.column - 1⟩
  else ⟨base.line + l.line - 1, l.column⟩

def down (n : Nat) (l : Location) : Location := ⟨l.line + n, l.column⟩

/-- A place inside a place. The one in the middle has to be a place in a text. -/
theorem within_within (base l : Location) {middle : Location} (hl : 1 ≤ middle.line)
    (hc : 1 ≤ middle.column) :
    base.within (middle.within l) = (base.within middle).within l := by
  -- whether a place is on a first line decides how it moves, at both levels
  by_cases h : l.line ≤ 1 <;> by_cases hm : middle.line ≤ 1
  · simp only [within, if_pos h, if_pos hm]
    congr 1
    omega
  · simp only [within, if_pos h, if_neg hm]
  · have hs : ¬middle.line + l.line - 1 ≤ 1 := by omega
    simp only [within, if_neg h, if_pos hm, if_neg hs]
    congr 1
    omega
  · have hs : ¬middle.line + l.line - 1 ≤ 1 := by omega
    simp only [within, if_neg h, if_neg hm, if_neg hs]
    congr 1
    omega

theorem within_lineStart (n : Nat) (l : Location) :
    within ⟨n + 1, 1⟩ l = (within ⟨1, 1⟩ l).down n := by
  by_cases h : l.line ≤ 1
  · simp only [within, down, if_pos h]
    congr 1
    omega
  · simp only [within, down, if_neg h]
    congr 1
    omega

end Location

namespace Span

def within (base : Location) (s : Span) : Span := ⟨base.within s.start, base.within s.stop⟩

def down (n : Nat) (s : Span) : Span := ⟨s.start.down n, s.stop.down n⟩

theorem within_comp_within (base : Location) {middle : Location} (hl : 1 ≤ middle.line)
    (hc : 1 ≤ middle.column) : within base ∘ within middle = within (base.within middle) := by
  funext s
  simp only [within, Function.comp, Location.within_within base _ hl hc]

theorem within_lineStart (n : Nat) : within ⟨n + 1, 1⟩ = down n ∘ within ⟨1, 1⟩ := by
  funext s
  simp only [within, down, Function.comp, Location.within_lineStart n s.start,
    Location.within_lineStart n s.stop]

end Span

namespace Position

def within (base p : Position) : Position :=
  let l := base.location.within p.location
  ⟨l.line, l.column, base.offset + p.offset⟩

@[simp] theorem within_offset (base p : Position) :
    (base.within p).offset = base.offset + p.offset := rfl

@[simp] theorem within_start (base : Position) : base.within start = base := rfl

theorem spanTo_within (base p q : Position) :
    (base.within p).spanTo (base.within q) = (p.spanTo q).within base.location := rfl

attribute [ext] Position

theorem within_line (base : Position) {p : Position} (h : 1 ≤ p.line) :
    (base.within p).line = base.line + p.line - 1 := by
  change (if p.line ≤ 1 then Location.mk _ _ else Location.mk _ _).line = _
  split
  · simp only [location]
    omega
  · rfl

theorem within_column (base p : Position) : (base.within p).column =
    if p.line ≤ 1 then base.column + p.column - 1 else p.column := by
  change (if p.line ≤ 1 then Location.mk _ _ else Location.mk _ _).column = _
  split <;> rfl

/-- Lines and columns count from 1. -/
def Genuine (p : Position) : Prop := 1 ≤ p.line ∧ 1 ≤ p.column

theorem genuine_start : start.Genuine := by simp [Genuine, start]

theorem next_column (p : Position) (c : Char) :
    (p.next c).column = if c = '\n' then 1 else p.column + 1 := by
  by_cases hc : c = '\n' <;> simp [next, hc]

theorem Genuine.next {p : Position} (h : p.Genuine) (c : Char) : (p.next c).Genuine := by
  unfold Genuine
  rw [next_line, next_column]
  have := h.1
  split <;> omega

theorem Genuine.after {p : Position} (h : p.Genuine) (text : List Char) :
    (p.after text).Genuine := by
  induction text generalizing p with
  | nil => exact h
  | cons c text ih => exact ih (h.next c)

theorem Genuine.within {base p : Position} (hb : base.Genuine) (hp : p.Genuine) :
    (base.within p).Genuine := by
  obtain ⟨hline, hcolumn⟩ := hb
  obtain ⟨hpline, hpcolumn⟩ := hp
  unfold Genuine
  rw [within_line base hpline, within_column]
  split <;> omega

theorem within_next (base : Position) {p : Position} (h : p.Genuine) (c : Char) :
    base.within (p.next c) = (base.within p).next c := by
  have hl := (h.next c).1
  obtain ⟨hline, hcolumn⟩ := h
  ext
  · rw [within_line base hl, next_line, next_line, within_line base hline]
    omega
  · rw [within_column, next_column, next_column, next_line, within_column]
    by_cases hc : c = '\n'
    · have hs : ¬p.line + 1 ≤ 1 := by omega
      rw [if_pos hc, if_pos hc, if_pos hc, if_neg hs]
    · rw [if_neg hc, if_neg hc, if_neg hc, Nat.add_zero]
      split
      · omega
      · rfl
  · simp only [within_offset, next_offset, Nat.add_assoc]

theorem within_after (base : Position) {p : Position} (h : p.Genuine) (text : List Char) :
    base.within (p.after text) = (base.within p).after text := by
  induction text generalizing p with
  | nil => rfl
  | cons c text ih => rw [after_cons, ih (h.next c), within_next base h, after_cons]

theorem after_eq_within (base : Position) (text : List Char) :
    base.after text = base.within (start.after text) := by
  rw [within_after base genuine_start, within_start]

theorem location_after_congr {p q : Position} (h : p.location = q.location) (text : List Char) :
    (p.after text).location = (q.after text).location := by
  rw [after_eq_within p, after_eq_within q]
  exact congrArg (Location.within · (start.after text).location) h

theorem after_newline_column (p : Position) (text : List Char) :
    (p.after (text ++ ['\n'])).column = 1 := by
  simp [next]

theorem within_within {base p : Position} (hp : p.Genuine) (q : Position) :
    base.within (p.within q) = (base.within p).within q := by
  have hlocation := @Location.within_within base.location q.location p.location hp.1 hp.2
  ext
  · exact congrArg Location.line hlocation
  · exact congrArg Location.column hlocation
  · exact (Nat.add_assoc _ _ _).symm

theorem within_lineStart (n bytes : Nat) {p : Position} (hp : p.Genuine) :
    within ⟨n + 1, 1, bytes⟩ p = ⟨p.line + n, p.column, p.offset + bytes⟩ := by
  ext
  · rw [within_line _ hp.1]
    simp only
    omega
  · rw [within_column]
    simp only
    split <;> omega
  · exact Nat.add_comm _ _

end Position

end EntityModels
