import Mathlib.Data.List.MinMax
import Mathlib.Data.Prod.Lex
import EntityModels.Proofs.Parsing.Place

namespace EntityModels

namespace Failure

variable {e f g : Failure}

/-- What a failure counts: how far it got and, in one place, a fatal one more than another. -/
def rank (e : Failure) : ℕ ×ₗ Bool := toLex (e.offset, e.fatal)

theorem beats_iff_rank : f.Beats e ↔ e.rank < f.rank := by
  rw [rank, rank, Prod.Lex.toLex_lt_toLex, Beats]
  cases e.fatal <;> cases f.fatal <;> simp

theorem farthest_of_rank_le (h : f.rank ≤ e.rank) : e.farthest f = e :=
  if_neg fun hbeats ↦ (beats_iff_rank.1 hbeats).not_ge h

theorem farthest_of_rank_lt (h : e.rank < f.rank) : e.farthest f = f :=
  if_pos (beats_iff_rank.2 h)

theorem argmax_concat (es : List Failure) (f : Failure) :
    (es ++ [f]).argmax rank = merge (es.argmax rank) (some f) := by
  rw [List.argmax_concat]
  cases es.argmax rank with
  | none => rfl
  | some e =>
    change (if e.rank < f.rank then some f else some e) = some (e.farthest f)
    by_cases h : e.rank < f.rank
    · rw [if_pos h, farthest_of_rank_lt h]
    · rw [if_neg h, farthest_of_rank_le (not_lt.1 h)]

theorem argmax_append (es fs : List Failure) :
    (es ++ fs).argmax rank = merge (es.argmax rank) (fs.argmax rank) := by
  induction fs using List.reverseRecOn with
  | nil => rw [List.append_nil, List.argmax_nil, merge_none]
  | append_singleton fs f ih =>
    rw [← List.append_assoc, argmax_concat, ih, argmax_concat, merge_assoc]

/-- Failures in a row, compared two groups at a time. -/
inductive Grouping where
  | one (e : Failure)
  | both (older newer : Grouping)

namespace Grouping

def failures : Grouping → List Failure
  | one e => [e]
  | both older newer => older.failures ++ newer.failures

def farthest : Grouping → Failure
  | one e => e
  | both older newer => older.farthest.farthest newer.farthest

theorem argmax_failures (group : Grouping) : group.failures.argmax rank = some group.farthest := by
  induction group with
  | one e => rfl
  | both older newer ho hn =>
    rw [failures, argmax_append, ho, hn]
    rfl

end Grouping

end Failure

namespace ParserState

/-- Of all that is noted in a row only the first that counts most is kept. -/
theorem foldl_record (s : ParserState) (es : List Failure) : es.foldl record s =
    { s with farthest := Failure.merge s.farthest (es.argmax Failure.rank) } := by
  induction es generalizing s with
  | nil =>
    rw [List.argmax_nil, Failure.merge_none]
    rfl
  | cons e es ih =>
    have hcons : (e :: es).argmax Failure.rank =
        Failure.merge (some e) (es.argmax Failure.rank) := Failure.argmax_append [e] es
    rw [List.foldl_cons, ih, record_eq, hcons, Failure.merge_assoc]

theorem farthest_foldl_record (s : ParserState) (es : List Failure) :
    (es.foldl record s).farthest = s.farthest ∨
      ∃ f ∈ es, (es.foldl record s).farthest = some f ∧ ∀ g ∈ s.farthest, g.rank < f.rank := by
  rw [foldl_record]
  cases hmax : es.argmax Failure.rank with
  | none => exact .inl (Failure.merge_none _)
  | some f =>
    have hf : f ∈ es := List.argmax_mem hmax
    cases hs : s.farthest with
    | none => exact .inr ⟨f, hf, rfl, fun g hg ↦ by cases hg⟩
    | some g =>
      change some (g.farthest f) = some g ∨
        ∃ f' ∈ es, some (g.farthest f) = some f' ∧ ∀ g' ∈ some g, g'.rank < f'.rank
      by_cases h : g.rank < f.rank
      · refine .inr ⟨f, hf, congrArg some (Failure.farthest_of_rank_lt h), fun g' hg ↦ ?_⟩
        cases hg
        exact h
      · exact .inl (congrArg some (Failure.farthest_of_rank_le (not_lt.1 h)))

variable {s : ParserState} {es : List Failure} {e : Failure}

theorem conclude_of_fatal (h : e.fatal = true) : s.conclude e = (e, s) := if_pos h

theorem conclude_of_mild (h : e.fatal = false) :
    s.conclude e = (s.farthest.elim e e.farthest, { s with farthest := none }) :=
  if_neg (by rw [h]; exact Bool.false_ne_true)

theorem conclude_of_rank_le (hs : s.farthest = es.argmax Failure.rank) (he : e.fatal = false)
    (h : ∀ f ∈ es, f.rank ≤ e.rank) : (s.conclude e).1 = e := by
  rw [conclude_of_mild he, hs]
  cases hmax : es.argmax Failure.rank with
  | none => rfl
  | some f => exact Failure.farthest_of_rank_le (h f (List.argmax_mem hmax))

theorem conclude_of_rank_lt (hs : s.farthest = es.argmax Failure.rank) (he : e.fatal = false)
    {f : Failure} (hf : f ∈ es) (h : e.rank < f.rank) : some (s.conclude e).1 = s.farthest := by
  rw [conclude_of_mild he, hs]
  cases hmax : es.argmax Failure.rank with
  | none =>
    rw [List.argmax_eq_none.1 hmax] at hf
    cases hf
  | some g =>
    have hg : f.rank ≤ g.rank := List.le_of_mem_argmax hf hmax
    exact congrArg some (Failure.farthest_of_rank_lt (h.trans_le hg))

/-- Of two failures the farther one is kept, with no regard to how they are grouped, and what is
kept of those that were noted is the first that no other one outranks. At the end of the reading it
gives way to a last failure that counts as much, and what was noted is used up; a failure with no
way back is reported as it is. -/
theorem selection_exact :
    (∀ e f g : Failure, (e.farthest f).farthest g = e.farthest (f.farthest g)) ∧
    (∀ e : Failure, e.farthest e = e) ∧
    ∀ (c : Cursor) (es : List Failure), let s := es.foldl record { cursor := c }
      (∀ f, s.farthest = some f ↔ f ∈ es ∧ (∀ e ∈ es, e.rank ≤ f.rank) ∧
        ∀ e ∈ es, f.rank ≤ e.rank → es.idxOf f ≤ es.idxOf e) ∧
      (s.farthest = none ↔ es = []) ∧
      (∀ group : Failure.Grouping, group.failures = es → s.farthest = some group.farthest) ∧
      (∀ e, e.fatal = false → (s.conclude e).2 = { s with farthest := none } ∧
        ((∀ f ∈ es, f.rank ≤ e.rank) → (s.conclude e).1 = e) ∧
        ((∃ f ∈ es, e.rank < f.rank) → some (s.conclude e).1 = s.farthest)) ∧
      ∀ e, e.fatal = true → s.conclude e = (e, s) := by
  refine ⟨Failure.farthest_assoc, Failure.farthest_self, fun c es ↦ ?_⟩
  intro s
  have hs : s.farthest = es.argmax Failure.rank := congrArg farthest (foldl_record _ es)
  refine ⟨fun f ↦ ?_, ?_, fun group hgroup ↦ ?_, fun e he ↦ ⟨?_, ?_, ?_⟩, fun e he ↦ ?_⟩
  · rw [hs]
    exact List.mem_argmax_iff
  · rw [hs]
    exact List.argmax_eq_none
  · rw [hs, ← hgroup]
    exact group.argmax_failures
  · rw [conclude_of_mild he]
  · exact conclude_of_rank_le hs he
  · rintro ⟨f, hf, hlt⟩
    exact conclude_of_rank_lt hs he hf hlt
  · exact conclude_of_fatal he

theorem selection_of_tie :
    let missing (offset : Nat) (expected : String) : Failure :=
      ⟨.structuralMismatch, expected, "end of line", ⟨1, offset + 1, offset⟩, false⟩
    let s := [missing 2 "field type", missing 7 "type name", missing 7 "class name"].foldl record
      (.ofText [])
    s.farthest = some (missing 7 "type name") ∧
      (s.conclude (missing 4 "indentation")).1 = missing 7 "type name" ∧
        (s.conclude (missing 4 "indentation")).2.farthest = none := by
  intro missing s
  let early := missing 2 "field type"
  let older := missing 7 "type name"
  let newer := missing 7 "class name"
  obtain ⟨-, -, hselect⟩ := selection_exact
  obtain ⟨-, -, hgroups, hmild, -⟩ := hselect (.ofText []) [early, older, newer]
  have hkept : s.farthest = some older :=
    hgroups (.both (.one early) (.both (.one older) (.one newer))) rfl
  obtain ⟨hspent, -, hreport⟩ := hmild (missing 4 "indentation") rfl
  have hlt : (missing 4 "indentation").rank < older.rank := by decide
  have hreported : some (s.conclude (missing 4 "indentation")).1 = s.farthest :=
    hreport ⟨older, by simp, hlt⟩
  refine ⟨hkept, Option.some.inj (hreported.trans hkept), ?_⟩
  exact congrArg farthest hspent

end ParserState

end EntityModels
