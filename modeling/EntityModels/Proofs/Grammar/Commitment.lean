import EntityModels.Proofs.Grammar.Disjointness

namespace EntityModels

theorem Gap.head_any {gap : List Char} (h : Gap gap) (text : List Char) :
    (gap ++ text).head?.any isHorizontalSpace := by
  obtain ⟨x, gap, rfl⟩ := List.exists_cons_of_ne_nil h.1
  exact h.2 x List.mem_cons_self

theorem Gap.endsWord {gap : List Char} (h : Gap gap) (text : List Char) :
    EndsWord (gap ++ text) := by
  obtain ⟨x, gap, rfl⟩ := List.exists_cons_of_ne_nil h.1
  have hx : isHorizontalSpace x := h.2 x List.mem_cons_self
  refine .of_head (Bool.eq_false_iff.2 fun hi ↦ ?_) ?_ (gap ++ text)
  · rw [isHorizontalSpace_of_isIdentChar hi] at hx
    cases hx
  · simp [isNameBoundary, (isHorizontalSpace_iff.1 hx).1]

theorem takeWhile_ne_nil {test : Char → Bool} {text : List Char} (h : text.head?.any test) :
    text.takeWhile test ≠ [] := by
  cases text with
  | nil => cases h
  | cons x text =>
    have hx : test x := h
    simp [hx]

theorem head_dropWhile_any {test : Char → Bool} (text : List Char) :
    (text.dropWhile test).head?.any test = false := by
  have h := List.head?_dropWhile_not test text
  cases hd : (text.dropWhile test).head? with
  | none => rfl
  | some x =>
    rw [hd] at h
    exact h

theorem exists_blanks (text : List Char) : ∃ blanks body, text = blanks ++ body ∧
    (∀ x ∈ blanks, isHorizontalSpace x) ∧ Unspaced body :=
  ⟨text.takeWhile isHorizontalSpace, text.dropWhile isHorizontalSpace,
    List.takeWhile_append_dropWhile.symm, List.all_eq_true.1 List.all_takeWhile,
    head_dropWhile_any text⟩

theorem exists_gap {text : List Char} (h : text.head?.any isHorizontalSpace) :
    ∃ gap body, text = gap ++ body ∧ Gap gap ∧ Unspaced body :=
  ⟨text.takeWhile isHorizontalSpace, text.dropWhile isHorizontalSpace,
    List.takeWhile_append_dropWhile.symm,
    ⟨takeWhile_ne_nil h, List.all_eq_true.1 List.all_takeWhile⟩, head_dropWhile_any text⟩

theorem Cursor.skip_eq_past {test : Char → Bool} {c : Cursor} {text rest : List Char}
    (hc : c.rest = text ++ rest) (h : ∀ x ∈ text, test x) (hr : rest.head?.any test = false) :
    c.skip test = c.past text rest := by
  obtain ⟨ht, hd⟩ := takeWhile_append_stop h hr
  rw [skip, hc, ht, hd]

namespace Reader

variable {α : Type} {r : Reader α} {c d : Cursor}

/-- The text is refused for good. -/
def Stops (r : Reader α) (text : List Char) : Prop :=
  ∀ p, ∃ e d, r ⟨text, p⟩ = .error e d ∧ e.fatal = true

theorem committedIf_ok {b : Bool} {a : α} (h : committedIf b r c = .ok a d) : r c = .ok a d := by
  unfold committedIf at h
  split at h
  · next hr => rwa [← h]
  · cases h

theorem isIdentChar_of_starts {kind : IdentKind} {x : Char} (h : kind.starts x) :
    isIdentChar x := by
  cases kind with
  | type => exact isIdentChar_of_isTypeStart h
  | field => exact isIdentChar_of_isFieldStart h

theorem written_of_ident {kind : IdentKind} {expected : String} {a : Ident kind}
    (h : ident kind expected c = .ok a d) :
    c.rest = a.text.toList ++ d.rest ∧ d = c.past a.text.toList d.rest ∧ kind.Names a.text ∧
      EndsWord d.rest := by
  obtain ⟨⟨hstarts, hboundary, hfree⟩, rfl, rfl⟩ := ident_ok.1 h
  refine ⟨?_, ?_, ⟨?_, ?_, hfree⟩, head_dropWhile_any _, hboundary⟩
  · rw [String.toList_ofList]
    exact List.takeWhile_append_dropWhile.symm
  · rw [String.toList_ofList]
    rfl
  · rw [String.toList_ofList]
    unfold Cursor.next? at hstarts
    cases hc : c.rest with
    | nil => rw [hc] at hstarts; cases hstarts
    | cons x rest =>
      rw [hc] at hstarts
      rw [List.takeWhile_cons_of_pos (isIdentChar_of_starts hstarts)]
      exact hstarts
  · rw [String.toList_ofList]
    exact List.all_eq_true.1 List.all_takeWhile

end Reader

namespace FieldType

/-- The first character shows that a type was meant. -/
def Commits (text : List Char) : Prop := text.head?.any fun x ↦ x == '[' || x == '!' || x == '~'

/-- Perhaps a bracket and perhaps a marker, then a name that is complete where it ends, and the
other bracket if there was one. -/
def Grammatical (text : List Char) : Prop :=
  ∃ (isList : Bool) (strictness : Strictness) (name : String) (rest : List Char),
    text = (if isList then ['['] else []) ++ (strictness.render ++ (name.toList ++ rest)) ∧
      IdentKind.type.Names name ∧ EndsWord rest ∧ (isList → rest.head? = some ']')

end FieldType

end EntityModels
