import EntityModels.Text.Cursor

namespace EntityModels

/-- The text behind its first `n` bytes, when these are whole characters. -/
def dropBytes : Nat → List Char → Option (List Char)
  | 0, text => some text
  | _ + 1, [] => none
  | n + 1, c :: text => if c.utf8Size ≤ n + 1 then dropBytes (n + 1 - c.utf8Size) text else none

def takeBytes : Nat → List Char → Option (List Char)
  | 0, _ => some []
  | _ + 1, [] => none
  | n + 1, c :: text =>
    if c.utf8Size ≤ n + 1 then (takeBytes (n + 1 - c.utf8Size) text).map (c :: ·) else none

/-- The text between two offsets, empty if there is none. -/
def textBetween (text : List Char) (start stop : Nat) : List Char :=
  if start ≤ stop then ((dropBytes start text).bind (takeBytes (stop - start))).getD [] else []

/-- The cursor at a position of `text`, whose line and column are taken as given. -/
def Cursor.seek (text : List Char) (p : Position) : Cursor :=
  ⟨(dropBytes p.offset text).getD [], p⟩

theorem dropBytes_zero (text : List Char) : dropBytes 0 text = some text := by
  cases text <;> rfl

theorem takeBytes_zero (text : List Char) : takeBytes 0 text = some [] := by
  cases text <;> rfl

@[simp] theorem dropBytes_append (s t : List Char) :
    dropBytes (byteLength s) (s ++ t) = some t := by
  induction s with
  | nil => exact dropBytes_zero t
  | cons c s ih =>
    obtain ⟨n, hn⟩ : ∃ n, byteLength (c :: s) = n + 1 :=
      ⟨byteLength (c :: s) - 1, by have := c.utf8Size_pos; simp; omega⟩
    have hs : n + 1 - c.utf8Size = byteLength s := by simp at hn; omega
    rw [hn, List.cons_append, dropBytes, if_pos (by simp at hn; omega), hs, ih]

@[simp] theorem takeBytes_append (s t : List Char) :
    takeBytes (byteLength s) (s ++ t) = some s := by
  induction s with
  | nil => exact takeBytes_zero t
  | cons c s ih =>
    obtain ⟨n, hn⟩ : ∃ n, byteLength (c :: s) = n + 1 :=
      ⟨byteLength (c :: s) - 1, by have := c.utf8Size_pos; simp; omega⟩
    have hs : n + 1 - c.utf8Size = byteLength s := by simp at hn; omega
    rw [hn, List.cons_append, takeBytes, if_pos (by simp at hn; omega), hs, ih, Option.map_some]

theorem Cursor.LeadsTo.seek_eq {text : List Char} {c : Cursor} (h : (ofText text).LeadsTo c) :
    seek text c.position = c := by
  obtain ⟨s, hs, hp⟩ := h
  obtain ⟨rest, position⟩ := c
  subst hp
  change text = s ++ rest at hs
  have ho : (Position.start.after s).offset = byteLength s := by
    simp [Position.after_offset, Position.start]
  simp [seek, ofText, ho, hs]

/-- What was read on the way from one cursor to the next is the text between them. -/
theorem Cursor.LeadsTo.textBetween_eq {text : List Char} {c d : Cursor}
    (hc : (ofText text).LeadsTo c) {t : List Char} (h : c.rest = t ++ d.rest)
    (hd : d.position = c.position.after t) :
    textBetween text c.position.offset d.position.offset = t := by
  obtain ⟨s, hs, hp⟩ := hc
  change text = s ++ c.rest at hs
  have hco : c.position.offset = byteLength s := by
    simp [hp, ofText, Position.after_offset, Position.start]
  have hdo : d.position.offset = byteLength s + byteLength t := by
    rw [hd, Position.after_offset, hco]
  simp [textBetween, hco, hdo, hs, h]

end EntityModels
