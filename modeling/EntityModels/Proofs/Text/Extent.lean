import EntityModels.Proofs.Text.Relocation
import EntityModels.Text.Cursor

namespace EntityModels

instance : LE Location where
  le a b := a.line < b.line ∨ a.line = b.line ∧ a.column ≤ b.column

namespace Location

variable {a b c : Location}

theorem le_def : a ≤ b ↔ a.line < b.line ∨ a.line = b.line ∧ a.column ≤ b.column := .rfl

instance : DecidableRel ((· ≤ ·) : Location → Location → Prop) :=
  fun a b ↦ inferInstanceAs (Decidable (a.line < b.line ∨ a.line = b.line ∧ a.column ≤ b.column))

theorem le_refl (a : Location) : a ≤ a := .inr ⟨rfl, Nat.le_refl _⟩

theorem le_trans (h : a ≤ b) (k : b ≤ c) : a ≤ c := by
  rw [le_def] at *
  omega

end Location

namespace Position

theorem after_column (p : Position) {text : List Char} (h : '\n' ∉ text) :
    (p.after text).column = p.column + text.length := by
  induction text generalizing p with
  | nil => rfl
  | cons c text ih =>
    have hc : c ≠ '\n' := fun hc ↦ h (hc ▸ List.mem_cons_self)
    rw [after_cons, ih _ fun hm ↦ h (List.mem_cons_of_mem c hm), next_column, if_neg hc,
      List.length_cons]
    omega

theorem location_le_next (p : Position) (c : Char) : p.location ≤ (p.next c).location := by
  rw [Location.le_def, location, location, next_line, next_column]
  by_cases hc : c = '\n' <;> simp [hc]

theorem location_le_after (p : Position) (text : List Char) :
    p.location ≤ (p.after text).location := by
  induction text generalizing p with
  | nil => exact Location.le_refl _
  | cons c text ih => exact Location.le_trans (p.location_le_next c) (ih (p.next c))

theorem not_after_le (p : Position) (c : Char) (text : List Char) :
    ¬(p.after (c :: text)).location ≤ p.location := by
  intro h
  have hnext := Location.le_trans ((p.next c).location_le_after text) h
  rw [Location.le_def, location, location, next_line, next_column] at hnext
  by_cases hc : c = '\n'
  · simp only [hc, if_pos] at hnext
    omega
  · simp only [hc, if_false] at hnext
    omega

end Position

theorem Cursor.LeadsTo.location_le {c d : Cursor} (h : c.LeadsTo d) :
    c.position.location ≤ d.position.location := by
  obtain ⟨text, -, hp⟩ := h
  rw [hp]
  exact c.position.location_le_after text

namespace Span

/-- The characters that stand from the beginning of the span on and before its end, in a text that
begins at the position. -/
def coveredFrom (span : Span) : Position → List Char → List Char
  | _, [] => []
  | p, c :: text =>
    if span.start ≤ p.location ∧ ¬span.stop ≤ p.location then c :: coveredFrom span (p.next c) text
    else coveredFrom span (p.next c) text

/-- The part of a text between the beginning and the end of the span. -/
def covered (span : Span) (text : List Char) : List Char := span.coveredFrom .start text

variable {span : Span}

theorem coveredFrom_append (span : Span) (p : Position) (s t : List Char) :
    span.coveredFrom p (s ++ t) = span.coveredFrom p s ++ span.coveredFrom (p.after s) t := by
  induction s generalizing p with
  | nil => rfl
  | cons c s ih =>
    rw [List.cons_append, coveredFrom, coveredFrom, ih, Position.after_cons]
    split <;> rfl

theorem coveredFrom_before {p : Position} {text : List Char}
    (h : span.start = (p.after text).location) : span.coveredFrom p text = [] := by
  induction text generalizing p with
  | nil => rfl
  | cons c text ih =>
    rw [coveredFrom, if_neg fun hin ↦ p.not_after_le c text (h ▸ hin.1)]
    exact ih h

theorem coveredFrom_within {p : Position} {text : List Char} (hstart : span.start ≤ p.location)
    (hstop : span.stop = (p.after text).location) : span.coveredFrom p text = text := by
  induction text generalizing p with
  | nil => rfl
  | cons c text ih =>
    have hin : ¬span.stop ≤ p.location := hstop ▸ p.not_after_le c text
    rw [coveredFrom, if_pos ⟨hstart, hin⟩,
      ih (Location.le_trans hstart (p.location_le_next c)) hstop]

theorem coveredFrom_behind {p : Position} (h : span.stop ≤ p.location) (text : List Char) :
    span.coveredFrom p text = [] := by
  induction text generalizing p with
  | nil => rfl
  | cons c text ih =>
    rw [coveredFrom, if_neg fun hin ↦ hin.2 h]
    exact ih (Location.le_trans h (p.location_le_next c))

theorem covered_spanTo (pre text post : List Char) :
    ((Position.start.after pre).spanTo ((Position.start.after pre).after text)).covered
      (pre ++ (text ++ post)) = text := by
  rw [covered, coveredFrom_append, coveredFrom_append, coveredFrom_before rfl,
    coveredFrom_within (Location.le_refl _) rfl, coveredFrom_behind (Location.le_refl _),
    List.nil_append, List.append_nil]

end Span

end EntityModels
