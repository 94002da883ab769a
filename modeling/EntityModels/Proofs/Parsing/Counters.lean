import EntityModels.Proofs.Parsing.Agreement
import EntityModels.Proofs.Text.Places

namespace EntityModels

/-- A position of which line and column are counted in 32 bits, and begin again behind the last
number that has a place in them. -/
structure Counters where
  line : UInt32 := 1
  column : UInt32 := 1
  offset : Nat := 0
  deriving DecidableEq, Repr

namespace Counters

def start : Counters := {}

def next (w : Counters) (c : Char) : Counters :=
  if c == '\n' then ⟨w.line + 1, 1, w.offset + c.utf8Size⟩
  else ⟨w.line, w.column + 1, w.offset + c.utf8Size⟩

def after (w : Counters) (text : List Char) : Counters := text.foldl next w

instance : Ord Counters where
  compare v w :=
    (compare v.line w.line).then ((compare v.column w.column).then (compare v.offset w.offset))

def position (w : Counters) : Position := ⟨w.line.toNat, w.column.toNat, w.offset⟩

theorem toNat_add_one {n : UInt32} (h : n.toNat + 1 < UInt32.size) :
    (n + 1).toNat = n.toNat + 1 := by
  rw [UInt32.toNat_add]
  exact Nat.mod_eq_of_lt h

theorem position_next {w : Counters} {c : Char} (hline : (w.position.next c).line < UInt32.size)
    (hcolumn : (w.position.next c).column < UInt32.size) :
    (w.next c).position = w.position.next c := by
  by_cases hc : c = '\n'
  · simp only [Position.next, hc, beq_self_eq_true, if_true] at hline
    simp [next, Position.next, position, hc, toNat_add_one hline]
  · have hne : (c == '\n') = false := beq_false_of_ne hc
    simp only [Position.next, hne, Bool.false_eq_true, if_false] at hcolumn
    simp [next, Position.next, position, hc, toNat_add_one hcolumn]

theorem position_start_after {before : List Char} (h : before.length < UInt32.size - 1) :
    (start.after before).position = Position.start.after before := by
  induction before using List.reverseRecOn with
  | nil => rfl
  | append_singleton before c ih =>
    have hshort : before.length < UInt32.size - 1 := by
      rw [List.length_append] at h
      omega
    have hmarks := Position.marks_start_after (before ++ [c]) []
    obtain ⟨hline, hcolumn⟩ := hmarks.lt (by rwa [List.append_nil])
    rw [Position.after_append, Position.after_cons, Position.after_nil, ← ih hshort]
      at hline hcolumn ⊢
    rw [← position_next hline hcolumn, after, List.foldl_append]
    rfl

/-- In a text of fewer than `2 ^ 32 - 1` characters the counters are the position. -/
theorem position_eq_of_marks {p : Position} {text before rest : List Char}
    (h : p.Marks text before rest) (hshort : text.length < UInt32.size - 1) :
    (start.after before).position = p := by
  have hbefore : before.length ≤ text.length := by simp [h.text_eq]
  have hstart := Position.marks_start_after before rest
  rw [position_start_after (by omega), Position.ext_iff]
  exact ⟨hstart.line.trans h.line.symm, hstart.column.trans h.column.symm,
    hstart.offset.trans h.offset.symm⟩

/-- The counters are in the order of the positions that they stand for. -/
theorem compare_position (v w : Counters) : compare v.position w.position = compare v w := by
  have hword (m n : UInt32) : compare m.toNat n.toNat = compare m n := by
    change compareOfLessAndEq m.toNat n.toNat = compareOfLessAndEq m n
    simp only [compareOfLessAndEq, UInt32.lt_iff_toNat_lt, UInt32.toNat_inj]
  change ((compare v.line.toNat w.line.toNat).then
    ((compare v.column.toNat w.column.toNat).then (compare v.offset w.offset))) = _
  rw [hword, hword]
  rfl

end Counters

section

variable {σ α : Type} [HasCursor σ]

open HasCursor

/-- It does not matter to a repetition whether it asks for more bytes in front of the cursor or for
a later position. -/
theorem collect_apply_compare {p : EStateM Failure σ (Option α)} (hp : Forward p) (s : σ) :
    collect p hp s = match p s with
      | .error e t => .error e t
      | .ok none t => .ok [] t
      | .ok (some a) t =>
        if compare (cursor s).position (cursor t).position = .lt then
          match collect p hp t with
          | .ok as u => .ok (a :: as) u
          | .error e u => .error e u
        else .ok [] t := by
  rw [collect_apply]
  cases hr : p s with
  | error e t => rfl
  | ok found t =>
    cases found with
    | none => rfl
    | some a =>
      have horder := (Cursor.LeadsTo.refl _).compare_eq ((hp s).1 _ t hr)
      have hguard : compare (cursor s).position (cursor t).position = .lt ↔
          offset s < offset t := by
        rw [horder.1, Nat.compare_eq_lt]
        rfl
      exact if_congr hguard.symm rfl rfl

end

end EntityModels
