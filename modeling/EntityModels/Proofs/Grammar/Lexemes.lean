import EntityModels.Grammar.Modifier

namespace EntityModels.Reader

theorem literal_apply (text : String) (c : Cursor) : literal text c =
    match text.toList.isPrefixOf? c.rest with
    | some rest => .ok true (c.past text.toList rest)
    | none => .ok false c := rfl

theorem keyword_apply (text : String) (c : Cursor) : keyword text c =
    match text.toList.isPrefixOf? c.rest with
    | some rest => .ok () (c.past text.toList rest)
    | none => .error (c.mismatch ("`" ++ text ++ "`")) c := by
  change (literal text >>= fun b ↦ if b then pure () else _) c = _
  rw [bind_apply, literal_apply]
  cases text.toList.isPrefixOf? c.rest <;> rfl

theorem expectSpace_apply (purpose : String) (c : Cursor) : expectSpace purpose c =
    if c.next?.any isHorizontalSpace then .ok () (c.skip isHorizontalSpace)
    else .error ((c.skip isHorizontalSpace).mismatch purpose) (c.skip isHorizontalSpace) := by
  rw [expectSpace, bind_apply, someSpace_apply]
  cases c.next?.any isHorizontalSpace <;> rfl

theorem ident_apply (kind : IdentKind) (expected : String) (c : Cursor) : ident kind expected c =
    let text := String.ofList (c.rest.takeWhile isIdentChar)
    if c.next?.any kind.starts && isNameBoundary (c.skip isIdentChar).next? &&
      !kind.reserved.contains text
    then .ok ⟨text, c.position.spanTo (c.skip isIdentChar).position⟩ (c.skip isIdentChar)
    else .error (c.mismatch expected) c := by
  have hposition (d : Cursor) : position d = .ok d.position d := rfl
  rw [ident, bind_apply, hposition]
  simp only [bind_apply, name_apply]
  generalize (c.next?.any kind.starts && isNameBoundary (c.skip isIdentChar).next? &&
    !kind.reserved.contains (String.ofList (c.rest.takeWhile isIdentChar))) = right
  cases right <;> rfl

theorem isPrefixOf?_singleton (x : Char) (text : List Char) : [x].isPrefixOf? text =
    if text.head? = some x then some text.tail else none := by
  cases text with
  | nil => rfl
  | cons y text =>
    change (if x == y then some text else none) = if some y = some x then some text else none
    by_cases h : x = y
    · rw [if_pos (beq_iff_eq.2 h), if_pos (congrArg some h.symm)]
    · rw [if_neg (by simpa using h), if_neg (by simpa using Ne.symm h)]

theorem literal_char {text : String} {x : Char} (h : text.toList = [x]) (c : Cursor) :
    literal text c =
      if c.next? = some x then .ok true (c.past [x] c.rest.tail) else .ok false c := by
  rw [literal_apply, h, isPrefixOf?_singleton, Cursor.next?]
  by_cases hx : c.rest.head? = some x
  · rw [if_pos hx, if_pos hx]
  · rw [if_neg hx, if_neg hx]

theorem marker_apply (c : Cursor) : marker c =
    if c.next? = some '!' then .ok (some '!') (c.past ['!'] c.rest.tail)
    else if c.next? = some '~' then .ok (some '~') (c.past ['~'] c.rest.tail)
    else .ok none c := by
  have hlazy := @literal_char "~" '~' rfl c
  rw [marker, bind_apply, literal_char (x := '!') rfl]
  by_cases hs : c.next? = some '!'
  · rw [if_pos hs, if_pos hs]
    rfl
  · rw [if_neg hs, if_neg hs]
    simp only [Bool.false_eq_true, if_false, bind_apply, hlazy]
    by_cases hl : c.next? = some '~'
    · rw [if_pos hl, if_pos hl]
      rfl
    · rw [if_neg hl, if_neg hl]
      rfl

variable {c d : Cursor}

theorem expectSpace_ok {purpose : String} {u : Unit} : expectSpace purpose c = .ok u d ↔
    c.next?.any isHorizontalSpace ∧ d = c.skip isHorizontalSpace := by
  rw [expectSpace_apply]
  cases c.next?.any isHorizontalSpace <;> simp [eq_comm]

theorem keyword_ok {text : String} {u : Unit} : keyword text c = .ok u d ↔
    ∃ rest, c.rest = text.toList ++ rest ∧ d = c.past text.toList rest := by
  simp only [← isPrefixOf?_eq_some_iff]
  rw [keyword_apply]
  cases text.toList.isPrefixOf? c.rest <;> simp [eq_comm]

theorem ident_ok {kind : IdentKind} {expected : String} {a : Ident kind} :
    ident kind expected c = .ok a d ↔
      (c.next?.any kind.starts ∧ isNameBoundary (c.skip isIdentChar).next? ∧
        String.ofList (c.rest.takeWhile isIdentChar) ∉ kind.reserved) ∧
      a = ⟨String.ofList (c.rest.takeWhile isIdentChar),
        c.position.spanTo (c.skip isIdentChar).position⟩ ∧ d = c.skip isIdentChar := by
  rw [ident_apply]
  simp only
  split
  · next h =>
    simp only [Bool.and_eq_true, Bool.not_eq_true', List.contains_eq_mem, decide_eq_false_iff_not,
      and_assoc] at h
    simp [h, eq_comm]
  · next h =>
    simp only [Bool.and_eq_true, Bool.not_eq_true', List.contains_eq_mem, decide_eq_false_iff_not,
      and_assoc] at h
    simp [h]

end EntityModels.Reader

namespace EntityModels.Setting

def assigned (setting : Setting) : Reader (Option Value) := do
  let start ← Reader.position
  match ← Reader.token with
  | none => return none
  | some text =>
    match setting.value? text with
    | some value => return some value
    | none => throw (.invalidInteger text start)

theorem reader_eq (setting : Setting) : setting.reader = do
    if ← Reader.literal setting.keyword then
      let _ ← Reader.space
      if ← Reader.literal "=" then
        let _ ← Reader.space
        setting.assigned
      else return none
    else return none := rfl

theorem assigned_apply (setting : Setting) (c : Cursor) : setting.assigned c =
    if c.next?.any isIdentChar then
      match setting.value? (c.rest.takeWhile isIdentChar) with
      | some value => .ok (some value) (c.skip isIdentChar)
      | none => .error (.invalidInteger (c.rest.takeWhile isIdentChar) c.position)
          (c.skip isIdentChar)
    else .ok none (c.skip isIdentChar) := by
  have hposition : Reader.position c = .ok c.position c := rfl
  rw [assigned, bind_apply, hposition]
  simp only [bind_apply, Reader.token_apply]
  split
  · dsimp only
    cases setting.value? (c.rest.takeWhile isIdentChar) <;> rfl
  · rfl

end EntityModels.Setting
