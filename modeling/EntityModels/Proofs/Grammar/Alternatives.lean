import EntityModels.Grammar.Member
import EntityModels.Proofs.Grammar.Written

namespace EntityModels

open Reader

/-- The line is no member of the kind, and this is found out before it is too late for others. -/
def MemberKind.Passes (options : Options) (kind : MemberKind) (line : List Char) : Prop :=
  kind.mayStart line = false ∨ (kind.reader options).Refuses line

section

variable {body : List Char}

theorem afterIndentation_indent (h : Unspaced body) :
    afterIndentation (indent ++ body) = some body := by
  have hs : isHorizontalSpace ' ' = true := by decide
  have hd : (' ' :: body).dropWhile isHorizontalSpace = body :=
    (@takeWhile_append_stop isHorizontalSpace [' '] body (by simp [hs]) h).2
  have hunfold : afterIndentation (indent ++ body) =
      if isHorizontalSpace ' ' then some ((' ' :: body).dropWhile isHorizontalSpace)
      else none := rfl
  rw [hunfold, if_pos hs, hd]

theorem indentedChar_indent (h : Unspaced body) (p : Char → Bool) :
    indentedChar p (indent ++ body) = body.head?.any p := by
  rw [indentedChar, afterIndentation_indent h]
  rfl

theorem indentedWord_indent (h : Unspaced body) (word : String) :
    indentedWord word (indent ++ body) ↔ word.toList <+: body := by
  rw [indentedWord, afterIndentation_indent h, Option.any_some, List.isPrefixOf_iff_prefix]

theorem indentedWord_eq_false (h : Unspaced body) {word : String} (hw : ¬word.toList <+: body) :
    indentedWord word (indent ++ body) = false := by
  rw [Bool.eq_false_iff]
  exact mt (indentedWord_indent h word).1 hw

end

theorem IdentKind.Names.not_typeStart {text : String} (h : IdentKind.field.Names text)
    (rest : List Char) : (text.toList ++ rest).head?.any IdentKind.type.starts = false := by
  obtain ⟨c, cs, hc, hstarts⟩ := h.head_append rest
  rw [hc, List.head?_cons, Option.any_some, Bool.eq_false_iff]
  intro htype
  have hfield : isFieldStart c = false := isFieldStart_of_isTypeStart htype
  have hstarts' : isFieldStart c = true := hstarts
  rw [hfield] at hstarts'
  cases hstarts'

section

variable {options : Options} {line body rest : List Char}

theorem word_cut {kind : IdentKind} {name word : String} {more : List Char} (h : kind.Names name)
    (hr : EndsWord rest) (hword : ∀ c ∈ word.toList, isIdentChar c) (hne : name ≠ word)
    (hcut : name.toList ++ rest = word.toList ++ more) : Unspaced more := by
  rcases List.append_eq_append_iff.1 hcut with ⟨tail, hw, hrest⟩ | ⟨tail, hname, hmore⟩
  · cases tail with
    | nil =>
      rw [List.append_nil] at hw
      exact absurd (String.toList_injective hw).symm hne
    | cons c tail =>
      -- the rest would begin with a character of the word
      have hc := hword c (hw ▸ List.mem_append_right _ List.mem_cons_self)
      have hstop := hr.1
      rw [hrest, List.cons_append, List.head?_cons, Option.any_some, hc] at hstop
      cases hstop
  · cases tail with
    | nil =>
      rw [List.append_nil] at hname
      exact absurd (String.toList_injective hname) hne
    | cons c tail =>
      have hc := h.continues c (hname ▸ List.mem_append_right _ List.mem_cons_self)
      rw [hmore]
      exact .of_head (isHorizontalSpace_of_isIdentChar hc) _

theorem field_passes_derive (hr : EndsWord rest) :
    MemberKind.field.Passes options (indent ++ (Keyword.derive.toList ++ rest)) := by
  have hunspaced : Unspaced (Keyword.derive.toList ++ rest) := .of_head (x := 'd') (by decide) _
  have hrefuses : Field.reader.Refuses (indent ++ (Keyword.derive.toList ++ rest)) := by
    refine (reads_indentation hunspaced).bindRefuses fun _ _ ↦ ?_
    refine Reads.position.bindRefuses fun _ _ ↦ ?_
    exact (refuses_reserved "field name" (List.all_eq_true.1 (by decide)) (by decide) hr).bind
  exact .inr hrefuses.bind

section

variable {name : String} {given : List FieldName} (hoptions : options.markedNames = false)
  (hn : IdentKind.type.Names name) (h : IdentKind.NamesAll given)
include hoptions hn

theorem primary_passes_unique (hne : name ≠ Keyword.primary) :
    MemberKind.primary.Passes options
      (indent ++ (name.toList ++ (spaced Ident.render given ++ ['\n']))) := by
  have hr := endsWord_spaced Ident.render given (endsWord_newline [])
  by_cases hword : Keyword.primary.toList <+: name.toList ++ (spaced Ident.render given ++ ['\n'])
  · obtain ⟨more, hmore⟩ := hword
    have hunspaced := word_cut hn hr (List.all_eq_true.1 (by decide)) hne hmore.symm
    have hrefuses : (Primary.reader false).Refuses
        (indent ++ (name.toList ++ (spaced Ident.render given ++ ['\n']))) := by
      refine (reads_indentation (hn.unspaced _)).bindRefuses fun _ _ ↦ ?_
      refine Reads.position.bindRefuses fun _ _ ↦ ?_
      rw [← hmore]
      refine (reads_keyword Keyword.primary more).bindRefuses fun _ _ ↦ ?_
      exact ((refuses_separator _ hunspaced).bind).bind.bind
    refine .inr ?_
    rw [MemberKind.reader, hoptions]
    exact hrefuses.bind
  · exact .inl (indentedWord_eq_false (hn.unspaced _) hword)

include h

/-- A constraint may have the name that opens a foreign key. What follows is then no entity. -/
theorem foreign_passes_unique :
    MemberKind.foreign.Passes options
      (indent ++ (name.toList ++ (spaced Ident.render given ++ ['\n']))) := by
  have hr := endsWord_spaced Ident.render given (endsWord_newline [])
  by_cases hword : Keyword.foreign.toList <+: name.toList ++ (spaced Ident.render given ++ ['\n'])
  · obtain ⟨more, hmore⟩ := hword
    have hrefuses : (Foreign.reader false).Refuses
        (indent ++ (name.toList ++ (spaced Ident.render given ++ ['\n']))) := by
      refine (reads_indentation (hn.unspaced _)).bindRefuses fun _ _ ↦ ?_
      refine Reads.position.bindRefuses fun _ _ ↦ ?_
      rw [← hmore]
      refine (reads_keyword Keyword.foreign more).bindRefuses fun _ _ ↦ ?_
      by_cases hne : name = Keyword.foreign
      · subst hne
        obtain ⟨hnil, hall⟩ := h
        obtain ⟨first, others, rfl⟩ := List.exists_cons_of_ne_nil hnil
        have hfirst := hall first List.mem_cons_self
        obtain rfl := List.append_cancel_left hmore
        rw [spaced_cons]
        refine (reads_separator _ (hfirst.unspaced _)).bindRefuses fun _ _ ↦ ?_
        exact (refuses_clauseIdent _ (hfirst.not_typeStart _)).bind
      · have hunspaced := word_cut hn hr (List.all_eq_true.1 (by decide)) hne hmore.symm
        exact (refuses_separator _ hunspaced).bind
    refine .inr ?_
    rw [MemberKind.reader, hoptions]
    exact hrefuses.bind
  · exact .inl (indentedWord_eq_false (hn.unspaced _) hword)

end

end

/-- A line of a member is a member of its kind, and of no kind that is tried before. -/
structure MemberKind.Takes (options : Options) (kind : MemberKind) (line : List Char) (m : Member) :
    Prop where
  mayStart : kind.mayStart line
  reads : (kind.reader options).Reads line (fun found ↦ found.mapSpan noSpan = m.mapSpan noSpan) []
  earlier : ∃ before after, all = before ++ kind :: after ∧ ∀ k ∈ before, k.Passes options line

theorem Reader.Reads.toMember {α : Type} {r : Reader α} {line : List Char} {f : α → Member} {a : α}
    {g : α → α} (h : r.Reads line (fun found ↦ g found = g a) [])
    (hf : ∀ a, (f a).mapSpan noSpan = f (g a)) :
    Reads (do return f (← r)) line (fun m ↦ m.mapSpan noSpan = (f a).mapSpan noSpan) [] :=
  h.bind fun found hfound ↦ .pure (by rw [hf, hf, hfound])

section

variable {options : Options}

theorem Field.WellFormed.takes {f : Field} (h : f.WellFormed) :
    MemberKind.field.Takes options f.render (.field f) := by
  refine ⟨?_, h.reads.toMember fun _ ↦ rfl, [], _, rfl, by simp⟩
  simp only [render, List.append_assoc]
  exact (indentedChar_indent (h.name.unspaced _) isFieldStart).trans (h.name.head_any _)

section

variable (hoptions : options.markedNames = false)
include hoptions

theorem Derive.takes {clause : Derive} (h : IdentKind.NamesAll clause.classNames) :
    MemberKind.derive.Takes options (Member.derive clause).render (.derive clause) := by
  have hends := endsWord_spaced Ident.render clause.classNames (endsWord_newline [])
  simp only [Member.render, List.append_assoc]
  refine ⟨?_, ?_, [.field], _, rfl, fun kind hk ↦ ?_⟩
  · exact (indentedWord_indent (.of_head (x := 'd') (by decide) _) Keyword.derive).2
      (List.prefix_append _ _)
  · rw [MemberKind.reader, hoptions]
    exact (reads_rendered h).toMember fun _ ↦ rfl
  · obtain rfl := List.mem_singleton.1 hk
    exact field_passes_derive hends

theorem Primary.takes {clause : Primary} (h : IdentKind.NamesAll clause.fieldNames) :
    MemberKind.primary.Takes options (Member.primary clause).render (.primary clause) := by
  simp only [Member.render, List.append_assoc]
  have hunspaced : Unspaced (Keyword.primary.toList ++
      (spaced Ident.render clause.fieldNames ++ ['\n'])) := .of_head (x := 'P') (by decide) _
  refine ⟨?_, ?_, [.field, .derive], _, rfl, fun kind hk ↦ .inl ?_⟩
  · exact (indentedWord_indent hunspaced Keyword.primary).2 (List.prefix_append _ _)
  · rw [MemberKind.reader, hoptions]
    exact (reads_rendered h).toMember fun _ ↦ rfl
  · cases kind with
    | field => exact indentedChar_indent hunspaced isFieldStart
    | derive => exact indentedWord_eq_false hunspaced (not_prefix_of_head (by decide))
    | _ => simp at hk

theorem Foreign.takes {clause : Foreign} (ht : IdentKind.type.Names clause.target.text)
    (h : IdentKind.NamesAll clause.fieldNames) :
    MemberKind.foreign.Takes options (Member.foreign clause).render (.foreign clause) := by
  simp only [Member.render, List.append_assoc, List.cons_append]
  have hunspaced : Unspaced (Keyword.foreign.toList ++ ' ' :: (clause.target.text.toList ++
      (spaced Ident.render clause.fieldNames ++ ['\n']))) := .of_head (x := 'F') (by decide) _
  refine ⟨?_, ?_, [.field, .derive, .primary], _, rfl, fun kind hk ↦ .inl ?_⟩
  · exact (indentedWord_indent hunspaced Keyword.foreign).2 (List.prefix_append _ _)
  · rw [MemberKind.reader, hoptions]
    exact (reads_rendered ht h).toMember fun _ ↦ rfl
  · cases kind with
    | field => exact indentedChar_indent hunspaced isFieldStart
    | derive => exact indentedWord_eq_false hunspaced (not_prefix_of_head (by decide))
    | primary => exact indentedWord_eq_false hunspaced (not_prefix_of_head (by decide))
    | _ => simp at hk

theorem Unique.takes {clause : Unique} (hn : IdentKind.type.Names clause.name.text)
    (hne : clause.name.text ≠ Keyword.primary) (h : IdentKind.NamesAll clause.fieldNames) :
    MemberKind.unique.Takes options (Member.unique clause).render (.unique clause) := by
  simp only [Member.render, List.append_assoc]
  have hunspaced := hn.unspaced (spaced Ident.render clause.fieldNames ++ ['\n'])
  obtain ⟨c, cs, hc, hstarts⟩ := hn.head_append (spaced Ident.render clause.fieldNames ++ ['\n'])
  have hstarts' : isTypeStart c = true := hstarts
  refine ⟨?_, ?_, [.field, .derive, .primary, .foreign], _, rfl, fun kind hk ↦ ?_⟩
  · refine (indentedChar_indent hunspaced _).trans ?_
    rw [hc, List.head?_cons, Option.any_some, hstarts']
    rfl
  · rw [MemberKind.reader, hoptions]
    exact (reads_rendered hn h).toMember fun _ ↦ rfl
  · cases kind with
    | field =>
      refine .inl ((indentedChar_indent hunspaced isFieldStart).trans ?_)
      rw [hc]
      exact isFieldStart_of_isTypeStart hstarts'
    | derive => exact .inl (indentedWord_eq_false hunspaced (hn.begins_unlike (by decide) _ _))
    | primary => exact primary_passes_unique hoptions hn hne
    | foreign => exact foreign_passes_unique hoptions hn h
    | _ => simp at hk

end

theorem head_of_afterIndentation {blanks tail body : List Char} {x : Char}
    (h : ∀ c ∈ blanks, isHorizontalSpace c) (hx : isHorizontalSpace x = false)
    (hi : afterIndentation (blanks ++ x :: tail) = some body) : body.head? = some x := by
  cases blanks with
  | nil =>
    rw [List.nil_append, afterIndentation, hx] at hi
    cases hi
  | cons c blanks =>
    rw [List.cons_append, afterIndentation, if_pos (h c List.mem_cons_self)] at hi
    have hd := (@takeWhile_append_stop isHorizontalSpace blanks (x :: tail)
      (fun c hc ↦ h c (.tail _ hc)) hx).2
    rw [hd] at hi
    cases hi
    rfl

theorem passes_trivia {blanks tail : List Char} {x : Char} (h : ∀ c ∈ blanks, isHorizontalSpace c)
    (hx : isHorizontalSpace x = false) (hfield : isFieldStart x = false)
    (htype : isTypeStart x = false) (hstrict : x ≠ '!') (hlazy : x ≠ '~') {kind : MemberKind}
    (hblank : kind ≠ .blank) (hcomment : kind ≠ .comment) :
    kind.Passes options (blanks ++ x :: tail) :=
  .inl (MemberKind.mayStart_eq_false (fun _ ↦ head_of_afterIndentation h hx) hfield htype hstrict
    hlazy hblank hcomment)

theorem BlankLine.WellFormed.takes {line : BlankLine} (h : line.WellFormed) :
    MemberKind.blank.Takes options line.text.toList (.blank line) := by
  have hread := h.reads
  obtain ⟨blanks, hblanks, htext⟩ := h
  refine ⟨?_, hread.toMember fun _ ↦ rfl, [.field, .derive, .primary, .foreign, .unique], _, rfl,
    fun kind hk ↦ ?_⟩
  · have hd := (takeWhile_append_stop hblanks (unspaced_newline [])).2
    rw [MemberKind.mayStart, mayStart, htext, hd]
    rfl
  · rw [htext]
    refine passes_trivia hblanks (by decide) (by decide) (by decide) (by decide) (by decide) ?_ ?_
    · rintro rfl
      simp at hk
    · rintro rfl
      simp at hk

theorem CommentLine.WellFormed.takes {line : CommentLine} (h : line.WellFormed) :
    MemberKind.comment.Takes options line.text.toList (.comment line) := by
  have hread := h.reads
  obtain ⟨blanks, body, hblanks, hbody, htext⟩ := h
  have hdash : Unspaced (Keyword.comment.toList ++ (body ++ ['\n'])) :=
    .of_head (x := '-') (by decide) _
  have hd := (takeWhile_append_stop hblanks hdash).2
  refine ⟨?_, hread.toMember fun _ ↦ rfl, [.field, .derive, .primary, .foreign, .unique, .blank], _,
    rfl, fun kind hk ↦ ?_⟩
  · rw [MemberKind.mayStart, mayStart, htext, hd, List.isPrefixOf_iff_prefix]
    exact List.prefix_append _ _
  · by_cases hblank : kind = .blank
    · subst hblank
      refine .inl ?_
      rw [MemberKind.mayStart, BlankLine.mayStart, htext, hd]
      rfl
    · rw [htext]
      refine passes_trivia hblanks (by decide) (by decide) (by decide) (by decide) (by decide)
        hblank ?_
      rintro rfl
      simp at hk

end

theorem Member.WellFormed.takes {options : Options} (hoptions : options.markedNames = false)
    {m : Member} (h : m.WellFormed) : m.kind.Takes options m.render m := by
  cases m with
  | field f => exact Field.WellFormed.takes h
  | derive clause => exact Derive.takes hoptions h
  | primary clause => exact Primary.takes hoptions h
  | foreign clause => exact Foreign.takes hoptions h.1 h.2
  | unique clause => exact Unique.takes hoptions h.1 h.2.1 h.2.2
  | blank line => exact BlankLine.WellFormed.takes h
  | comment line => exact CommentLine.WellFormed.takes h

end EntityModels
