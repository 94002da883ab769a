import EntityModels.Character
import EntityModels.Text.Position

/-!
A cursor is what is still unread together with the place where it begins. Nothing behind the cursor
is kept, so what is read from it depends on the unread text alone.
-/

namespace EntityModels

theorem isPrefixOf?_eq_some_iff {s t rest : List Char} :
    s.isPrefixOf? t = some rest ↔ t = s ++ rest := by
  induction s generalizing t with
  | nil => exact Option.some_inj
  | cons x s ih =>
    cases t with
    | nil => constructor <;> intro h <;> cases h
    | cons y t =>
      change (if x == y then s.isPrefixOf? t else none) = some rest ↔ y :: t = x :: (s ++ rest)
      by_cases h : x = y
      · simp [h, ih]
      · simp [h, Ne.symm h]

structure Cursor where
  rest : List Char
  position : Position
  deriving DecidableEq, Repr

namespace Cursor

def ofText (text : List Char) : Cursor := ⟨text, .start⟩

def next? (c : Cursor) : Option Char := c.rest.head?

/-- Moves over a piece of text, of which `rest` is what follows. -/
def past (c : Cursor) (text rest : List Char) : Cursor := ⟨rest, c.position.after text⟩

def skip (c : Cursor) (p : Char → Bool) : Cursor :=
  c.past (c.rest.takeWhile p) (c.rest.dropWhile p)

/-- What a message shows of the unread text: a word, of at most sixteen characters. -/
def describe (c : Cursor) : String :=
  match c.rest with
  | [] => "end of input"
  | x :: _ =>
    if isLineEnd x then "end of line"
    else if Unicode.isWhiteSpace x then "whitespace"
    else "`" ++ String.ofList ((c.rest.takeWhile fun y ↦ !Unicode.isWhiteSpace y).take 16) ++ "`"

/-- `d` lies ahead of `c` in the same text, or is `c` itself. -/
def LeadsTo (c d : Cursor) : Prop :=
  ∃ text, c.rest = text ++ d.rest ∧ d.position = c.position.after text

namespace LeadsTo

variable {c d e : Cursor}

@[simp] theorem refl (c : Cursor) : c.LeadsTo c := ⟨[], rfl, rfl⟩

theorem trans (h : c.LeadsTo d) (k : d.LeadsTo e) : c.LeadsTo e := by
  obtain ⟨s, hs, hp⟩ := h
  obtain ⟨t, ht, hq⟩ := k
  exact ⟨s ++ t, by rw [hs, ht, List.append_assoc], by rw [hq, hp, Position.after_append]⟩

theorem past {text rest : List Char} (h : c.rest = text ++ rest) : c.LeadsTo (c.past text rest) :=
  ⟨text, h, rfl⟩

theorem skip (c : Cursor) (p : Char → Bool) : c.LeadsTo (c.skip p) :=
  past List.takeWhile_append_dropWhile.symm

theorem length_lt (h : c.LeadsTo d) (k : c.position.offset < d.position.offset) :
    d.rest.length < c.rest.length := by
  obtain ⟨t, ht, hp⟩ := h
  cases t with
  | nil => simp [hp] at k
  | cons x t => simp only [ht, List.cons_append, List.length_cons, List.length_append]; omega

end LeadsTo

end Cursor

end EntityModels
