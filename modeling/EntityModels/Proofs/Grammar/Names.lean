import Mathlib.Data.List.TakeWhile
import EntityModels.Proofs.Grammar.Lexemes
import EntityModels.Proofs.Text.Lines
import EntityModels.Proofs.Unicode.Classes

namespace EntityModels

open Unicode

/-- The run is all that a name can take from the front of the text, and the rest is behind it. -/
structure IdentRun (text run rest : List Char) : Prop where
  text_eq : text = run ++ rest
  continues : ∀ x ∈ run, isIdentChar x
  longest : ∀ other, other <+: text → (∀ x ∈ other, isIdentChar x) → other <+: run

def Bounded (rest : List Char) : Prop := ∀ x ∈ rest.head?, isWhiteSpace x ∨ x = ']'

/-- The run at the front of the text is a name of the kind. -/
def IdentKind.Ahead (kind : IdentKind) (text run rest : List Char) : Prop :=
  match kind with
  | type => (∃ x ∈ text.head?, isUppercase x) ∧ Bounded rest
  | field =>
    (∃ x ∈ text.head?, isLowercase x ∨ x = '_') ∧ Bounded rest ∧ run ≠ "deriving".toList

section

variable {text run rest : List Char}

theorem identRun_takeWhile (text : List Char) :
    IdentRun text (text.takeWhile isIdentChar) (text.dropWhile isIdentChar) where
  text_eq := List.takeWhile_append_dropWhile.symm
  continues := fun _ hx ↦ List.mem_takeWhile_imp hx
  longest := by
    rintro other ⟨behind, rfl⟩ hother
    rw [List.takeWhile_append_of_pos hother]
    exact List.prefix_append other _

theorem IdentRun.eq_takeWhile (h : IdentRun text run rest) : run = text.takeWhile isIdentChar := by
  have hwhole := identRun_takeWhile text
  have hrun : run <+: text := ⟨rest, h.text_eq.symm⟩
  have htake : text.takeWhile isIdentChar <+: text := List.takeWhile_prefix _
  exact (hwhole.longest run hrun h.continues).eq_of_length_le
    (h.longest _ htake hwhole.continues).length_le

theorem IdentRun.rest_eq (h : IdentRun text run rest) : rest = text.dropWhile isIdentChar := by
  refine @List.append_cancel_left _ run _ _ ?_
  rw [← h.text_eq, h.eq_takeWhile, List.takeWhile_append_dropWhile]

theorem bounded_iff : Bounded rest ↔ isNameBoundary rest.head? := by
  cases rest with
  | nil => simp [Bounded, isNameBoundary]
  | cons x rest => simp [Bounded, isNameBoundary]

theorem IdentKind.ahead_iff (kind : IdentKind) : kind.Ahead text run rest ↔
    text.head?.any kind.starts ∧ isNameBoundary rest.head? ∧
      String.ofList run ∉ kind.reserved := by
  rw [← bounded_iff, Option.any_eq_true]
  cases kind with
  | type => simp [Ahead, starts, isTypeStart, reserved]
  | field =>
    have hword : String.ofList run = Keyword.derive ↔ run = "deriving".toList :=
      ⟨fun h ↦ by rw [← String.toList_ofList (l := run), h, Keyword.derive],
        fun h ↦ by rw [h, String.ofList_toList, Keyword.derive]⟩
    simp [Ahead, starts, isFieldStart, reserved, hword]

instance (kind : IdentKind) : Decidable (kind.Ahead text run rest) :=
  decidable_of_iff _ kind.ahead_iff.symm

/-- A name is not empty: each character that it may begin with may go on in it. -/
theorem IdentKind.Ahead.run_ne_nil {kind : IdentKind} (h : kind.Ahead text run rest)
    (hrun : IdentRun text run rest) : run ≠ [] := by
  obtain ⟨x, hx, hstarts⟩ := (Option.any_eq_true _ _).1 (kind.ahead_iff.1 h).1
  obtain ⟨behind, rfl⟩ := List.head?_eq_some_iff.1 hx
  have hident : isIdentChar x := by
    cases kind with
    | type => exact isIdentChar_of_isTypeStart hstarts
    | field => exact isIdentChar_of_isFieldStart hstarts
  rw [hrun.eq_takeWhile, List.takeWhile_cons_of_pos hident]
  exact List.cons_ne_nil _ _

theorem IdentKind.not_ahead_both :
    ¬(type.Ahead text run rest ∧ field.Ahead text run rest) := by
  rintro ⟨htype, hfield⟩
  obtain ⟨x, hx, hstarts⟩ := (Option.any_eq_true _ _).1 (type.ahead_iff.1 htype).1
  have hother := (field.ahead_iff.1 hfield).1
  rw [hx] at hother
  exact Bool.false_ne_true ((isFieldStart_of_isTypeStart hstarts).symm.trans hother)

end

namespace Reader

theorem name_eq (kind : IdentKind) {c : Cursor} {run rest : List Char}
    (h : IdentRun c.rest run rest) : name kind c =
      if kind.Ahead c.rest run rest then .ok (some (String.ofList run)) (c.past run rest)
      else .ok none c := by
  obtain rfl := h.eq_takeWhile
  obtain rfl := h.rest_eq
  have hahead : kind.Ahead c.rest (c.rest.takeWhile isIdentChar) (c.rest.dropWhile isIdentChar) ↔
      (c.next?.any kind.starts && isNameBoundary (c.skip isIdentChar).next? &&
        !kind.reserved.contains (String.ofList (c.rest.takeWhile isIdentChar))) = true := by
    rw [kind.ahead_iff]
    simp [Cursor.next?, Cursor.skip, Cursor.past, and_assoc]
  rw [name_apply]
  exact (if_congr hahead rfl rfl).symm

/-- A name is recognized just where it stands, as a whole and as far as it goes, or else nothing is
taken; and where there is a name of one kind there is none of the other. -/
theorem names_exact (c : Cursor) : ∃ run rest, IdentRun c.rest run rest ∧
    (∀ kind : IdentKind,
      (kind.Ahead c.rest run rest → run ≠ [] ∧
        name kind c = .ok (some (String.ofList run)) (c.past run rest)) ∧
      (¬kind.Ahead c.rest run rest → name kind c = .ok none c)) ∧
    ¬∃ s t d e, name .type c = .ok (some s) d ∧ name .field c = .ok (some t) e := by
  have hrun := identRun_takeWhile c.rest
  refine ⟨_, _, hrun, fun kind ↦ ⟨fun h ↦ ⟨h.run_ne_nil hrun, ?_⟩, fun h ↦ ?_⟩, ?_⟩
  · rw [name_eq kind hrun, if_pos h]
  · rw [name_eq kind hrun, if_neg h]
  · rintro ⟨s, t, d, e, htype, hfield⟩
    rw [name_eq _ hrun] at htype hfield
    split at htype
    · next ht =>
      split at hfield
      · next hf => exact IdentKind.not_ahead_both ⟨ht, hf⟩
      · cases hfield
    · cases htype

theorem names_of_list_type :
    let c := Cursor.ofText "Text] Maybe".toList
    name .type c = .ok (some "Text") (c.past "Text".toList "] Maybe".toList) ∧
      name .field c = .ok none c := by
  intro c
  obtain ⟨run, rest, hrun, hkind, -⟩ := names_exact c
  obtain rfl : run = "Text".toList := hrun.eq_takeWhile.trans (by decide +kernel)
  obtain rfl : rest = "] Maybe".toList := hrun.rest_eq.trans (by decide +kernel)
  obtain ⟨-, htype⟩ := (hkind .type).1 (by decide +kernel)
  exact ⟨htype, (hkind .field).2 (by decide +kernel)⟩

end Reader

end EntityModels
