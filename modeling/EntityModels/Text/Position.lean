namespace EntityModels

/-- The length of a text in UTF-8. -/
def byteLength : List Char → Nat
  | [] => 0
  | c :: text => c.utf8Size + byteLength text

@[simp] theorem byteLength_nil : byteLength [] = 0 := rfl

@[simp] theorem byteLength_cons (c : Char) (text : List Char) :
    byteLength (c :: text) = c.utf8Size + byteLength text := rfl

@[simp] theorem byteLength_append (s t : List Char) :
    byteLength (s ++ t) = byteLength s + byteLength t := by
  induction s with
  | nil => simp
  | cons c s ih =>
    rw [List.cons_append, byteLength_cons, byteLength_cons, ih]
    omega

/-- A place as it is shown: line and column, both from 1. -/
structure Location where
  line : Nat
  column : Nat
  deriving DecidableEq, Repr

namespace Location

instance : ToString Location where
  toString l := toString l.line ++ ":" ++ toString l.column

end Location

structure Span where
  start : Location
  stop : Location
  deriving DecidableEq, Repr

namespace Span

def isEmpty (s : Span) : Bool := s.start == s.stop

instance : ToString Span where
  toString s := toString s.start ++ "-" ++ toString s.stop

end Span

/-- A place in a text: line and column in characters from 1, and the bytes before it in UTF-8. The
numbers have no bound here; counters of 32 bits hold the same lines and columns in every text of
fewer than `2 ^ 32 - 1` characters. -/
structure Position where
  line : Nat := 1
  column : Nat := 1
  offset : Nat := 0
  deriving DecidableEq, Repr

namespace Position

def start : Position := {}

def location (p : Position) : Location := ⟨p.line, p.column⟩

def spanTo (p q : Position) : Span := ⟨p.location, q.location⟩

def next (p : Position) (c : Char) : Position :=
  if c == '\n' then ⟨p.line + 1, 1, p.offset + c.utf8Size⟩
  else ⟨p.line, p.column + 1, p.offset + c.utf8Size⟩

def after (p : Position) (text : List Char) : Position := text.foldl next p

/-- Line first, then column, then bytes. -/
instance : Ord Position where
  compare p q :=
    (compare p.line q.line).then ((compare p.column q.column).then (compare p.offset q.offset))

@[simp] theorem after_nil (p : Position) : p.after [] = p := rfl

@[simp] theorem after_cons (p : Position) (c : Char) (text : List Char) :
    p.after (c :: text) = (p.next c).after text := rfl

@[simp] theorem after_append (p : Position) (s t : List Char) :
    p.after (s ++ t) = (p.after s).after t := List.foldl_append

@[simp] theorem next_offset (p : Position) (c : Char) :
    (p.next c).offset = p.offset + c.utf8Size := by
  unfold next; split <;> rfl

theorem after_offset (p : Position) (text : List Char) :
    (p.after text).offset = p.offset + byteLength text := by
  induction text generalizing p with
  | nil => simp
  | cons c text ih => rw [after_cons, ih, next_offset, byteLength_cons, Nat.add_assoc]

theorem next_line (p : Position) (c : Char) :
    (p.next c).line = p.line + if c = '\n' then 1 else 0 := by
  unfold next; by_cases h : c = '\n' <;> simp [h]

theorem after_line (p : Position) (text : List Char) :
    (p.after text).line = p.line + text.count '\n' := by
  induction text generalizing p with
  | nil => simp
  | cons c text ih =>
    rw [after_cons, ih, next_line, List.count_cons]
    by_cases h : c = '\n'
    · simp [h]
      omega
    · simp [h]

end Position

end EntityModels
