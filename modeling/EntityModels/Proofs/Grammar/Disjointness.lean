import EntityModels.Proofs.Grammar.Words
import EntityModels.Proofs.Reading.Alone

namespace EntityModels

/-- How a member begins behind its indentation. -/
inductive Lead where
  | fieldName
  | typeName
  | newline
  | dash
  deriving DecidableEq, Repr

namespace Lead

def test : Lead → Char → Bool
  | fieldName => isFieldStart
  | typeName => fun x ↦ isTypeStart x || x == '!' || x == '~'
  | newline => (· == '\n')
  | dash => (· == '-')

theorem unique {a b : Lead} {x : Char} (ha : a.test x) (hb : b.test x) : a = b := by
  have hfield (h : isFieldStart x) : (isTypeStart x || x == '!' || x == '~') = false := by
    have htype : isTypeStart x = false := Bool.eq_false_iff.2 fun ht ↦ by
      rw [isFieldStart_of_isTypeStart ht] at h
      cases h
    simp only [htype, Bool.false_or, Bool.or_eq_false_iff, beq_eq_false_iff_ne]
    constructor
    · rintro rfl
      exact absurd h (by decide)
    · rintro rfl
      exact absurd h (by decide)
  have hnewline (h : x = '\n') : isFieldStart x = false ∧
      (isTypeStart x || x == '!' || x == '~') = false ∧ x ≠ '-' := by
    subst h
    decide
  have hdash (h : x = '-') : isFieldStart x = false ∧
      (isTypeStart x || x == '!' || x == '~') = false := by
    subst h
    decide
  cases a <;> cases b <;> simp_all [test]

theorem unique_of_any {a b : Lead} {next : Option Char} (ha : next.any a.test)
    (hb : next.any b.test) : a = b := by
  cases next with
  | none => cases ha
  | some x => exact unique ha hb

end Lead

namespace MemberKind

def lead : MemberKind → Lead
  | field | derive => .fieldName
  | primary | foreign | unique => .typeName
  | blank => .newline
  | comment => .dash

end MemberKind

namespace Reader

variable {marked : Bool} {kind : IdentKind} {expected : String} {c d : Cursor}

theorem strayMarker_of_unmarked (hs : c.next? ≠ some '!') (hl : c.next? ≠ some '~')
    (marked : Bool) : strayMarker marked c = .ok () c := by
  cases marked with
  | false => rfl
  | true =>
    change (marker >>= fun _ ↦ pure ()) c = _
    rw [bind_apply, marker_apply, if_neg hs, if_neg hl]
    rfl

theorem strayMarker_cases (marked : Bool) (c : Cursor) :
    strayMarker marked c = .ok () c ∨ c.next? = some '!' ∨ c.next? = some '~' := by
  by_cases hs : c.next? = some '!'
  · exact .inr (.inl hs)
  · by_cases hl : c.next? = some '~'
    · exact .inr (.inr hl)
    · exact .inl (strayMarker_of_unmarked hs hl marked)

theorem lead_of_clauseIdent {a : TypeName} (h : clauseIdent marked .type expected c = .ok a d) :
    c.next?.any Lead.typeName.test := by
  obtain ⟨u, c', hm, hi⟩ := bind_ok h
  rcases strayMarker_cases marked c with hc | hs | hl
  · rw [hc] at hm
    cases hm
    have hstarts := (ident_ok.1 hi).1.1
    cases hn : c.next? with
    | none => rw [hn] at hstarts; cases hstarts
    | some x =>
      rw [hn] at hstarts
      have hx : isTypeStart x := hstarts
      simp [Lead.test, hx]
  · rw [hs]
    rfl
  · rw [hl]
    rfl

/-- A name of one kind is no name of the other, whatever marker stands in front of it. -/
theorem clauseIdent_exclusive {a : TypeName} {b : FieldName} {expected' : String} {d' : Cursor}
    (ha : clauseIdent marked .type expected c = .ok a d)
    (hb : clauseIdent marked .field expected' c = .ok b d') : False := by
  obtain ⟨u, c', hm, hi⟩ := bind_ok ha
  obtain ⟨u', c'', hm', hi'⟩ := bind_ok hb
  rw [hm] at hm'
  cases hm'
  have htype := (ident_ok.1 hi).1.1
  have hfield := (ident_ok.1 hi').1.1
  cases hn : c'.next? with
  | none => rw [hn] at htype; cases htype
  | some x =>
    rw [hn] at htype hfield
    have hx : isFieldStart x = false := isFieldStart_of_isTypeStart htype
    have hx' : isFieldStart x = true := hfield
    rw [hx] at hx'
    cases hx'

theorem names_ok {as : List (Ident kind)} (h : names marked kind expected c = .ok as d) :
    c.next?.any isHorizontalSpace ∧
      ∃ a d', clauseIdent marked kind expected (c.skip isHorizontalSpace) = .ok a d' := by
  obtain ⟨a, d', hfirst, -⟩ := bind_ok h
  obtain ⟨u, c', hspace, hi⟩ := bind_ok hfirst
  obtain ⟨hs, rfl⟩ := expectSpace_ok.1 hspace
  exact ⟨hs, a, d', hi⟩

theorem skip_word {word rest : List Char} (h : word.all isIdentChar)
    (hc : c.rest = word ++ rest) (hspace : rest.head?.any isHorizontalSpace) :
    c.rest.takeWhile isIdentChar = word ∧ c.skip isIdentChar = c.past word rest := by
  have hstop : rest.head?.any isIdentChar = false := by
    cases rest with
    | nil => rfl
    | cons x rest =>
      refine Bool.eq_false_iff.2 fun hx ↦ ?_
      rw [List.head?_cons, Option.any_some] at hspace hx
      rw [isHorizontalSpace_of_isIdentChar hx] at hspace
      cases hspace
  obtain ⟨ht, hd⟩ := takeWhile_append_stop (List.all_eq_true.1 h) hstop
  rw [← hc] at ht hd
  exact ⟨ht, by rw [Cursor.skip, ht, hd]⟩

theorem clauseIdent_word {word : String} {rest : List Char}
    (hstart : word.toList.head?.any isTypeStart) (h : word.toList.all isIdentChar)
    (hc : c.rest = word.toList ++ rest) (hspace : rest.head?.any isHorizontalSpace)
    (marked : Bool) (expected : String) : clauseIdent marked .type expected c =
      .ok ⟨word, c.position.spanTo (c.past word.toList rest).position⟩
        (c.past word.toList rest) := by
  obtain ⟨htake, hskip⟩ := skip_word h hc hspace
  have hhead : c.next?.any isTypeStart := by
    rw [Cursor.next?, hc]
    cases hw : word.toList with
    | nil => rw [hw] at hstart; cases hstart
    | cons x word => rwa [hw] at hstart
  have hunmarked {x : Char} (hx : isTypeStart x = false) : c.next? ≠ some x := by
    intro hn
    rw [hn, Option.any_some, hx] at hhead
    cases hhead
  have hboundary : isNameBoundary (c.skip isIdentChar).next? := by
    rw [hskip]
    change isNameBoundary rest.head?
    cases rest with
    | nil => rfl
    | cons x rest =>
      rw [List.head?_cons, isNameBoundary, (isHorizontalSpace_iff.1 hspace).1]
      rfl
  rw [clauseIdent, bind_apply,
    strayMarker_of_unmarked (hunmarked (by decide)) (hunmarked (by decide))]
  refine ident_ok.2 ⟨⟨hhead, hboundary, List.not_mem_nil⟩, ?_, hskip.symm⟩
  rw [htake, hskip, String.ofList_toList]

section

variable {α : Type} {k : Position → Reader α} {a : α}

theorem indented_ok : (indentation >>= fun _ ↦ position >>= k) c = .ok a d ↔
    c.next?.any isHorizontalSpace ∧
      k (c.skip isHorizontalSpace).position (c.skip isHorizontalSpace) = .ok a d := by
  have hposition (b : Cursor) : position b = .ok b.position b := rfl
  constructor
  · intro h
    obtain ⟨u, c₁, hindent, hstart⟩ := bind_ok h
    obtain ⟨start, c₂, hs, hk⟩ := bind_ok hstart
    obtain ⟨hspace, rfl⟩ := expectSpace_ok.1 hindent
    cases hs
    exact ⟨hspace, hk⟩
  · rintro ⟨hspace, hk⟩
    have hindent : indentation c = .ok () (c.skip isHorizontalSpace) :=
      expectSpace_ok.2 ⟨hspace, rfl⟩
    simp only [bind_apply, hindent, hposition, hk]

theorem indented_keyword_ok {word : String} :
    (indentation >>= fun _ ↦ position >>= fun start ↦ keyword word >>= fun _ ↦ k start) c =
      .ok a d ↔ c.next?.any isHorizontalSpace ∧
        ∃ rest, (c.skip isHorizontalSpace).rest = word.toList ++ rest ∧
          k (c.skip isHorizontalSpace).position
            ((c.skip isHorizontalSpace).past word.toList rest) = .ok a d := by
  rw [indented_ok, and_congr_right_iff]
  intro _
  constructor
  · intro h
    obtain ⟨u, c₁, hword, hk⟩ := bind_ok h
    obtain ⟨rest, hrest, rfl⟩ := keyword_ok.1 hword
    exact ⟨rest, hrest, hk⟩
  · rintro ⟨rest, hrest, hk⟩
    have hword : keyword word (c.skip isHorizontalSpace) =
        .ok () ((c.skip isHorizontalSpace).past word.toList rest) := keyword_ok.2 ⟨rest, hrest, rfl⟩
    rw [bind_apply, hword]
    exact hk

end

end Reader

section

variable {c d : Cursor} {marked : Bool}

def Field.Named (c : Cursor) : Prop :=
  c.next?.any isHorizontalSpace ∧
    ∃ name d, Reader.ident .field "field name" (c.skip isHorizontalSpace) = .ok name d

def Opens (word : String) (c : Cursor) (rest : List Char) : Prop :=
  c.next?.any isHorizontalSpace ∧
    (c.skip isHorizontalSpace).rest = word.toList ++ rest ∧ rest.head?.any isHorizontalSpace

theorem Field.named_of_ok {f : Field} (h : reader c = .ok f d) : Named c := by
  obtain ⟨hs, hname⟩ := Reader.indented_ok.1 h
  obtain ⟨name, c₁, hi, -⟩ := bind_ok hname
  exact ⟨hs, name, c₁, hi⟩

theorem Derive.opens_of_ok {clause : Derive} (h : reader marked c = .ok clause d) :
    ∃ rest, Opens Keyword.derive c rest := by
  obtain ⟨hs, rest, hrest, hk⟩ := Reader.indented_keyword_ok.1 h
  obtain ⟨names, c₁, hnames, -⟩ := bind_ok hk
  exact ⟨rest, hs, hrest, (Reader.names_ok hnames).1⟩

theorem Primary.opens_of_ok {clause : Primary} (h : reader marked c = .ok clause d) :
    ∃ rest, Opens Keyword.primary c rest := by
  obtain ⟨hs, rest, hrest, hk⟩ := Reader.indented_keyword_ok.1 h
  obtain ⟨names, c₁, hnames, -⟩ := bind_ok hk
  exact ⟨rest, hs, hrest, (Reader.names_ok hnames).1⟩

theorem Foreign.opens_of_ok {clause : Foreign} (h : reader marked c = .ok clause d) :
    ∃ rest, Opens Keyword.foreign c rest ∧ ∃ target d', Reader.clauseIdent marked .type
      "target entity" (((c.skip isHorizontalSpace).past Keyword.foreign.toList rest).skip
        isHorizontalSpace) = .ok target d' := by
  obtain ⟨hs, rest, hrest, hk⟩ := Reader.indented_keyword_ok.1 h
  obtain ⟨u, c₁, hsep, htarget⟩ := bind_ok hk
  obtain ⟨target, c₂, hi, -⟩ := bind_ok htarget
  obtain ⟨hspace, rfl⟩ := Reader.expectSpace_ok.1 hsep
  exact ⟨rest, ⟨hs, hrest, hspace⟩, target, c₂, hi⟩

theorem Unique.opens_of_ok {clause : Unique} (h : reader marked c = .ok clause d) :
    c.next?.any isHorizontalSpace ∧ ∃ name d' names e,
      Reader.clauseIdent marked .type "constraint name" (c.skip isHorizontalSpace) = .ok name d' ∧
        Reader.fieldNames marked d' = .ok names e := by
  obtain ⟨hs, hk⟩ := Reader.indented_ok.1 h
  obtain ⟨name, c₁, hi, hfields⟩ := bind_ok hk
  obtain ⟨names, c₂, hnames, -⟩ := bind_ok hfields
  exact ⟨hs, name, c₁, names, c₂, hi, hnames⟩

theorem Field.Named.lead (h : Named c) :
    (c.skip isHorizontalSpace).next?.any Lead.fieldName.test := by
  obtain ⟨-, name, d, hi⟩ := h
  exact (Reader.ident_ok.1 hi).1.1

theorem Field.Named.mayStart (h : Named c) : mayStart c.rest := mayStart_iff.2 ⟨h.1, h.lead⟩

theorem Opens.lead {word : String} {rest : List Char} (h : Opens word c rest) {test : Char → Bool}
    (hword : word.toList.head?.any test) : (c.skip isHorizontalSpace).next?.any test := by
  rw [Cursor.next?, h.2.1]
  cases hw : word.toList with
  | nil => rw [hw] at hword; cases hword
  | cons x word => rwa [hw] at hword

namespace MemberKind

variable {options : Options}

/-- A member begins as members of its kind do. -/
theorem lead_of_ok {kind : MemberKind} {m : Member} (h : kind.reader options c = .ok m d) :
    (c.skip isHorizontalSpace).next?.any kind.lead.test := by
  cases kind with
  | field =>
    obtain ⟨f, d', hf, -⟩ := bind_ok h
    exact (Field.named_of_ok hf).lead
  | derive =>
    obtain ⟨clause, d', hclause, -⟩ := bind_ok h
    obtain ⟨rest, hopens⟩ := Derive.opens_of_ok hclause
    exact hopens.lead (by decide)
  | primary =>
    obtain ⟨clause, d', hclause, -⟩ := bind_ok h
    obtain ⟨rest, hopens⟩ := Primary.opens_of_ok hclause
    exact hopens.lead (by decide)
  | foreign =>
    obtain ⟨clause, d', hclause, -⟩ := bind_ok h
    obtain ⟨rest, hopens, -⟩ := Foreign.opens_of_ok hclause
    exact hopens.lead (by decide)
  | unique =>
    obtain ⟨clause, d', hclause, -⟩ := bind_ok h
    obtain ⟨-, name, d₁, -, -, hname, -⟩ := Unique.opens_of_ok hclause
    exact Reader.lead_of_clauseIdent hname
  | blank =>
    obtain ⟨line, d', hline, -⟩ := bind_ok h
    rw [(BlankLine.reader_ok hline).1]
    rfl
  | comment =>
    obtain ⟨line, d', hline, -⟩ := bind_ok h
    rw [CommentLine.next?_of_mayStart (CommentLine.mayStart_of_ok hline)]
    rfl

end MemberKind

theorem Field.named_of_fatal {e : Failure} (h : reader c = .error e d) (he : e.fatal = true) :
    Named c := by
  obtain ⟨u, c₁, h₁, hstart⟩ := Mild.bind_fatal (Reader.expectSpace_mild _) h he
  obtain ⟨start, c₂, h₂, hname⟩ := Mild.bind_fatal .position hstart he
  obtain ⟨name, c₃, h₃, -⟩ := Mild.bind_fatal (Reader.ident_mild _ _) hname he
  obtain ⟨hs, rfl⟩ := Reader.expectSpace_ok.1 h₁
  cases h₂
  exact ⟨hs, name, c₃, h₃⟩

theorem Field.Named.not_derive (h : Named c) {rest : List Char}
    (hopens : Opens Keyword.derive c rest) : False := by
  obtain ⟨-, name, d, hi⟩ := h
  have htake := (Reader.skip_word (by decide) hopens.2.1 hopens.2.2).1
  have hfree := (Reader.ident_ok.1 hi).1.2.2
  rw [htake] at hfree
  exact hfree (by decide)

theorem Opens.not_foreign {rest rest' : List Char} (h : Opens Keyword.primary c rest)
    (h' : Opens Keyword.foreign c rest') : False := by
  have hwords := List.append_inj_left (h.2.1.symm.trans h'.2.1) (by decide)
  exact absurd hwords (by decide)

/-- Behind the word of a foreign key stands a type, behind the name of a constraint a field. -/
theorem Foreign.not_unique {clause : Foreign} {other : Unique} {d' : Cursor}
    (h : reader marked c = .ok clause d) (h' : Unique.reader marked c = .ok other d') : False := by
  obtain ⟨rest, ⟨-, hrest, hspace⟩, target, e, htarget⟩ := opens_of_ok h
  obtain ⟨-, name, d₁, names, d₂, hname, hnames⟩ := Unique.opens_of_ok h'
  have hword :=
    Reader.clauseIdent_word (by decide) (by decide) hrest hspace marked "constraint name"
  cases hname.symm.trans hword
  obtain ⟨-, field, e', hfield⟩ := Reader.names_ok hnames
  exact Reader.clauseIdent_exclusive htarget hfield

theorem Primary.unique_of_ok {clause : Primary} (h : reader marked c = .ok clause d) :
    ∃ other : Unique, Unique.reader marked c = .ok other d ∧ other.name.text = Keyword.primary ∧
      other.fieldNames = clause.fieldNames := by
  have hposition (b : Cursor) : Reader.position b = .ok b.position b := rfl
  obtain ⟨hs, rest, hrest, hk⟩ := Reader.indented_keyword_ok.1 h
  obtain ⟨names, c₁, hnames, hstop⟩ := bind_ok hk
  obtain ⟨stop, c₂, h₂, hfinish⟩ := bind_ok hstop
  obtain ⟨w, c₃, h₃, hnode⟩ := bind_ok hfinish
  cases h₂
  cases hnode
  -- the word of the key is read as the name of the constraint
  have hname := Reader.clauseIdent_word (by decide) (by decide) hrest (Reader.names_ok hnames).1
    marked "constraint name"
  have hfields : Reader.fieldNames marked _ = .ok names c₁ := hnames
  let inner := c.skip isHorizontalSpace
  refine ⟨⟨⟨Keyword.primary, inner.position.spanTo
    (inner.past Keyword.primary.toList rest).position⟩, names, inner.position.spanTo c₁.position⟩,
      Reader.indented_ok.2 ⟨hs, ?_⟩, rfl, rfl⟩
  simp only [bind_apply, hname, hfields, hposition, h₃]
  rfl

namespace MemberKind

variable {options : Options}

variable {m n : Member} {d' : Cursor}

theorem eq_field_of_named (h : Field.Named c) {kind : MemberKind}
    (hk : kind.reader options c = .ok m d) : kind = field := by
  have hlead : kind.lead = .fieldName := Lead.unique_of_any (lead_of_ok hk) h.lead
  cases kind with
  | field => rfl
  | derive =>
    obtain ⟨clause, d', hclause, -⟩ := bind_ok hk
    obtain ⟨rest, hopens⟩ := Derive.opens_of_ok hclause
    exact (h.not_derive hopens).elim
  | _ => cases hlead

theorem not_field_derive (h : field.reader options c = .ok m d)
    (h' : derive.reader options c = .ok n d') : False := by
  obtain ⟨f, e, hf, -⟩ := bind_ok h
  cases eq_field_of_named (Field.named_of_ok hf) h'

theorem not_primary_foreign (h : primary.reader options c = .ok m d)
    (h' : foreign.reader options c = .ok n d') : False := by
  obtain ⟨clause, e, hclause, -⟩ := bind_ok h
  obtain ⟨other, e', hother, -⟩ := bind_ok h'
  obtain ⟨rest, hopens⟩ := Primary.opens_of_ok hclause
  obtain ⟨rest', hopens', -⟩ := Foreign.opens_of_ok hother
  exact hopens.not_foreign hopens'

theorem not_foreign_unique (h : foreign.reader options c = .ok m d)
    (h' : unique.reader options c = .ok n d') : False := by
  obtain ⟨clause, e, hclause, -⟩ := bind_ok h
  obtain ⟨other, e', hother, -⟩ := bind_ok h'
  exact Foreign.not_unique hclause hother

/-- A line is a member of one kind only, except that a primary key is a constraint as well. -/
theorem eq_of_ok {k l : MemberKind} (hk : k.reader options c = .ok m d)
    (hl : l.reader options c = .ok n d') :
    k = l ∨ (k = primary ∧ l = unique) ∨ (k = unique ∧ l = primary) := by
  have hlead : k.lead = l.lead := Lead.unique_of_any (lead_of_ok hk) (lead_of_ok hl)
  -- what begins alike is left: fields and derivations, keys and constraints
  cases k with
  | field =>
    cases l with
    | field => exact .inl rfl
    | derive => exact (not_field_derive hk hl).elim
    | _ => cases hlead
  | derive =>
    cases l with
    | field => exact (not_field_derive hl hk).elim
    | derive => exact .inl rfl
    | _ => cases hlead
  | primary =>
    cases l with
    | primary => exact .inl rfl
    | foreign => exact (not_primary_foreign hk hl).elim
    | unique => exact .inr (.inl ⟨rfl, rfl⟩)
    | _ => cases hlead
  | foreign =>
    cases l with
    | primary => exact (not_primary_foreign hl hk).elim
    | foreign => exact .inl rfl
    | unique => exact (not_foreign_unique hk hl).elim
    | _ => cases hlead
  | unique =>
    cases l with
    | primary => exact .inr (.inr ⟨rfl, rfl⟩)
    | foreign => exact (not_foreign_unique hl hk).elim
    | unique => exact .inl rfl
    | _ => cases hlead
  | blank =>
    cases l with
    | blank => exact .inl rfl
    | _ => cases hlead
  | comment =>
    cases l with
    | comment => exact .inl rfl
    | _ => cases hlead

end MemberKind

end

end EntityModels
