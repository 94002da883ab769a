import Mathlib.Data.List.Basic
import EntityModels.Grammar.Document
import EntityModels.Proofs.Parsing.Agreement
import EntityModels.Proofs.Tree.Respan

namespace EntityModels

/-- Where the nodes of a text are when it stands in the place. -/
def Place.move (place : Place) : Span → Span := Span.within place.base.location

namespace Reader

variable {place : Place}

theorem space_inLine : InLine place id space space := .takeWhile isHorizontalSpace_newline

theorem someSpace_inLine : InLine place id someSpace someSpace :=
  space_inLine.bind fun _ ↦ .pure rfl

theorem token_inLine : InLine place id token token :=
  (InLine.takeWhile (by decide)).bind fun _ ↦ .pure rfl

theorem marker_inLine : InLine place id marker marker :=
  (InLine.literal (by decide)).bind fun _ ↦
    .ite (.pure rfl) ((InLine.literal (by decide)).bind fun _ ↦ .ite (.pure rfl) (.pure rfl))

theorem name_inLine (kind : IdentKind) : InLine place id (name kind) (name kind) :=
  .rewindUnless (fun _ ↦ rfl) <| InLine.next?.bind fun _ ↦
    (InLine.takeWhile (by decide)).bind fun _ ↦ InLine.next?.bind fun _ ↦ .pure rfl

theorem ident_inLine (kind : IdentKind) (expected : String) :
    InLine place (Ident.mapSpan place.move) (ident kind expected) (ident kind expected) := by
  refine InLine.position.bind fun start ↦ (name_inLine kind).bind fun text ↦ ?_
  cases text with
  | some text => exact InLine.position.bind fun stop ↦ .pure rfl
  | none => exact .mismatch expected

theorem keyword_inLine {text : String} (h : '\n' ∉ text.toList) :
    InLine place id (keyword text) (keyword text) :=
  (InLine.literal h).bind fun _ ↦ .ite (.pure rfl) (.mismatch _)

theorem expectSpace_inLine (purpose : String) :
    InLine place id (expectSpace purpose) (expectSpace purpose) :=
  someSpace_inLine.bind fun _ ↦ .ite (.pure rfl) (.mismatch _)

theorem indentation_inLine : InLine place id indentation indentation := expectSpace_inLine _

theorem separator_inLine (before : String) :
    InLine place id (separator before) (separator before) := expectSpace_inLine _

theorem lineEnd_apply (c : Cursor) : lineEnd c =
    if c.next?.all isLineEnd then .ok () c.nextLine else .error c.unterminated c := by
  obtain ⟨rest, p⟩ := c
  cases rest with
  | nil => rfl
  | cons x rest =>
    by_cases hx : x = '\n'
    · subst hx
      rfl
    · have hb : isLineEnd x = false := beq_eq_false_iff_ne.2 hx
      change (if isLineEnd x then _ else Reader.unterminated : Reader Unit) _ = _
      simp [hb, Cursor.next?, Reader.unterminated]

theorem finishLine_apply (c : Cursor) : finishLine c = .ok () c.nextLine := by
  have hstop : (c.skip fun x ↦ !isLineEnd x).next?.all isLineEnd := by
    have hnot := head?_dropWhile_any (fun x ↦ !isLineEnd x) c.rest
    change (c.rest.dropWhile _).head?.all isLineEnd
    cases hd : (c.rest.dropWhile fun x ↦ !isLineEnd x).head? with
    | none => rfl
    | some x =>
      rw [hd] at hnot
      simpa using hnot
  have htake : takeWhile (fun x ↦ !isLineEnd x) c =
      .ok (c.rest.takeWhile fun x ↦ !isLineEnd x) (c.skip fun x ↦ !isLineEnd x) := rfl
  rw [finishLine, bind_apply, htake]
  simp only [lineEnd_apply, if_pos hstop]
  rw [(Cursor.LeadsAlong.skip c (by decide)).nextLine_eq]

theorem lineEnd_endsLine : EndsLine place id lineEnd lineEnd := by
  refine ⟨fun c u d h ↦ ?_, fun c (hc : Cursor.Fits place c) ↦ ?_⟩
  · rw [lineEnd_apply] at h
    split at h
    · cases h; rfl
    · cases h
  · change lineEnd (c.within place) = _
    rw [lineEnd_apply, lineEnd_apply, hc.next?_eq]
    split
    · exact congrArg (EStateM.Result.ok ()) hc.nextLine_eq
    · rw [Cursor.unterminated, hc.describe_eq]
      rfl

theorem finishLine_endsLine : EndsLine place id finishLine finishLine :=
  (InLine.takeWhile (by decide)).bindEnds fun _ ↦ lineEnd_endsLine

section

variable {K V : Type}

theorem firstKind_inLine {read : K → Reader (Option V)}
    (h : ∀ k, InLine place id (read k) (read k)) (kinds : List K) :
    InLine place id (firstKind read kinds) (firstKind read kinds) := by
  induction kinds with
  | nil => exact .pure rfl
  | cons k kinds ih =>
    refine (InLine.rewindUnless (fun _ ↦ rfl) (h k)).bind fun v ↦ ?_
    cases v with
    | some v => exact .pure rfl
    | none => exact ih.bind fun _ ↦ .pure rfl

theorem modifiers_inLine [DecidableEq K] {read : K → Reader (Option V)}
    (h : ∀ k, InLine place id (read k) (read k)) (kinds : List K) :
    InLine place id (modifiers read kinds) (modifiers read kinds) := by
  induction hn : kinds.length using Nat.strongRecOn generalizing kinds with
  | ind n ih =>
    rw [modifiers]
    refine (InLine.rewindUnless (fun _ ↦ rfl) (someSpace_inLine.bind fun _ ↦
      .ite (firstKind_inLine h kinds) (.pure rfl))).bind fun found ↦ ?_
    obtain _ | ⟨⟨k, hk⟩, v⟩ := found
    · exact .pure rfl
    · exact (ih _ (hn ▸ length_erase_lt hk) (kinds.erase k) rfl).bind fun _ ↦ .pure rfl

end

theorem strayMarker_inLine (marked : Bool) :
    InLine place id (strayMarker marked) (strayMarker marked) :=
  .ite (marker_inLine.bind fun _ ↦ .pure rfl) (.pure rfl)

theorem clauseIdent_inLine (marked : Bool) (kind : IdentKind) (expected : String) :
    InLine place (Ident.mapSpan place.move) (clauseIdent marked kind expected)
      (clauseIdent marked kind expected) :=
  (strayMarker_inLine marked).bind fun _ ↦ ident_inLine kind expected

theorem listedIdent_inLine (marked : Bool) (kind : IdentKind) (expected : String) :
    InLine place (Ident.mapSpan place.move) (listedIdent marked kind expected)
      (listedIdent marked kind expected) :=
  (separator_inLine _).bind fun _ ↦ clauseIdent_inLine marked kind expected

theorem names_inLine (marked : Bool) (kind : IdentKind) (expected : String) :
    InLine place (List.map (Ident.mapSpan place.move)) (names marked kind expected)
      (names marked kind expected) :=
  (listedIdent_inLine marked kind expected).bind fun _ ↦
    ((listedIdent_inLine marked kind expected).orNone.collect _ _).bind fun _ ↦ .pure rfl

def namesThenEnd {α : Type} (marked : Bool) (kind : IdentKind) (expected : String)
    (node : List (Ident kind) → Position → α) : Reader α := do
  let as ← names marked kind expected
  let stop ← position
  finishLine
  return node as stop

theorem namesThenEnd_endsLine {α : Type} {f : α → α} {kind : IdentKind}
    {node node' : List (Ident kind) → Position → α}
    (hnode : ∀ as p,
      node' (as.map (Ident.mapSpan place.move)) (place.base.within p) = f (node as p))
    (marked : Bool) (expected : String) :
    EndsLine place f (namesThenEnd marked kind expected node)
      (namesThenEnd marked kind expected node') :=
  (names_inLine marked kind expected).bindEnds fun _ ↦ InLine.position.bindEnds fun _ ↦
    finishLine_endsLine.bindStays fun _ ↦ .pure (hnode _ _)

end Reader

variable {place : Place}

theorem Flag.reader_inLine (flag : Flag) : InLine place id flag.reader flag.reader :=
  (InLine.literal (by cases flag <;> decide)).bind fun _ ↦ .pure rfl

theorem Flag.group_inLine : InLine place id Flag.group Flag.group :=
  Reader.modifiers_inLine Flag.reader_inLine all

theorem Setting.reader_inLine (setting : Setting) :
    InLine place id setting.reader setting.reader := by
  refine (InLine.literal (by cases setting <;> decide)).bind fun _ ↦ .ite (Reader.space_inLine.bind
    fun _ ↦ (InLine.literal (by decide)).bind fun _ ↦ .ite (Reader.space_inLine.bind fun _ ↦
      InLine.position.bind fun start ↦ Reader.token_inLine.bind fun text ↦ ?_) (.pure rfl))
        (.pure rfl)
  cases text with
  | none => exact .pure rfl
  | some text =>
    dsimp only [id_eq]
    cases setting.value? text with
    | some value => exact .pure rfl
    | none => exact InLine.throw (.invalidInteger text start)

theorem Setting.group_inLine : InLine place id Setting.group Setting.group :=
  Reader.modifiers_inLine Setting.reader_inLine all

namespace FieldType

theorem maybeSuffix_inLine : InLine place id maybeSuffix maybeSuffix :=
  .rewindUnless (fun _ ↦ rfl) <| Reader.someSpace_inLine.bind fun _ ↦
    .ite (.literal (by decide)) (.pure rfl)

theorem closeBracket_inLine (isList : Bool) :
    InLine place id (closeBracket isList) (closeBracket isList) :=
  .ite (Reader.keyword_inLine (by decide)).committedIf (.pure rfl)

theorem reader_inLine : InLine place (mapSpan place.move) reader reader :=
  InLine.position.bind fun _ ↦ (InLine.literal (by decide)).bind fun _ ↦
    Reader.marker_inLine.bind fun _ ↦ (Reader.ident_inLine _ _).committedIf.bind fun _ ↦
      (closeBracket_inLine _).bind fun _ ↦ maybeSuffix_inLine.bind fun _ ↦
        InLine.position.bind fun _ ↦ .pure rfl

end FieldType

theorem Field.reader_endsLine : EndsLine place (mapSpan place.move) reader reader :=
  Reader.indentation_inLine.bindEnds fun _ ↦ InLine.position.bindEnds fun _ ↦
    (Reader.ident_inLine _ _).bindEnds fun _ ↦ (Reader.separator_inLine _).bindEnds fun _ ↦
      FieldType.reader_inLine.bindEnds fun _ ↦ Flag.group_inLine.bindEnds fun _ ↦
        Setting.group_inLine.bindEnds fun _ ↦ InLine.position.bindEnds fun _ ↦
          Reader.finishLine_endsLine.bindStays fun _ ↦ .pure rfl

theorem Derive.reader_endsLine (marked : Bool) :
    EndsLine place (mapSpan place.move) (reader marked) (reader marked) :=
  Reader.indentation_inLine.bindEnds fun _ ↦ InLine.position.bindEnds fun _ ↦
    (Reader.keyword_inLine (by decide)).bindEnds fun _ ↦
      Reader.namesThenEnd_endsLine (fun _ _ ↦ rfl) marked _

theorem Primary.reader_endsLine (marked : Bool) :
    EndsLine place (mapSpan place.move) (reader marked) (reader marked) :=
  Reader.indentation_inLine.bindEnds fun _ ↦ InLine.position.bindEnds fun _ ↦
    (Reader.keyword_inLine (by decide)).bindEnds fun _ ↦
      Reader.namesThenEnd_endsLine (fun _ _ ↦ rfl) marked _

theorem Foreign.reader_endsLine (marked : Bool) :
    EndsLine place (mapSpan place.move) (reader marked) (reader marked) :=
  Reader.indentation_inLine.bindEnds fun _ ↦ InLine.position.bindEnds fun _ ↦
    (Reader.keyword_inLine (by decide)).bindEnds fun _ ↦
      (Reader.separator_inLine _).bindEnds fun _ ↦
        (Reader.clauseIdent_inLine _ _ _).bindEnds fun _ ↦
          Reader.namesThenEnd_endsLine (fun _ _ ↦ rfl) marked _

theorem Unique.reader_endsLine (marked : Bool) :
    EndsLine place (mapSpan place.move) (reader marked) (reader marked) :=
  Reader.indentation_inLine.bindEnds fun _ ↦ InLine.position.bindEnds fun _ ↦
    (Reader.clauseIdent_inLine _ _ _).bindEnds fun _ ↦
      Reader.namesThenEnd_endsLine (fun _ _ ↦ rfl) marked _

theorem BlankLine.reader_endsLine : EndsLine place (mapSpan place.move) reader reader := by
  refine InLine.position.bindEnds fun _ ↦ Reader.space_inLine.bindEnds fun _ ↦
    InLine.next?.bindEnds fun c ↦ ?_
  have hfail : EndsLine place (mapSpan place.move) Reader.unterminated Reader.unterminated :=
    ⟨fun _ _ _ h ↦ (by cases h), InLine.unterminated.within⟩
  by_cases hc : c = some '\n'
  · subst hc
    exact Reader.lineEnd_endsLine.bindStays fun _ ↦ Stays.position.bind fun _ ↦ .pure rfl
  · simp only [id]
    exact hfail

theorem CommentLine.reader_endsLine : EndsLine place (mapSpan place.move) reader reader := by
  refine InLine.position.bindEnds fun _ ↦ Reader.space_inLine.bindEnds fun _ ↦
    (Reader.keyword_inLine (by decide)).bindEnds fun _ ↦
      (InLine.takeWhile (by decide)).bindEnds fun _ ↦ InLine.next?.bindEnds fun _ ↦ .ite ?_ ?_
  · exact ⟨fun _ _ _ h ↦ (by cases h), InLine.unterminated.within⟩
  · exact Reader.lineEnd_endsLine.bindStays fun _ ↦ Stays.position.bind fun _ ↦ .pure rfl

namespace Entity

def Header.mapSpan (f : Span → Span) (h : Header) : Header := { h with name := h.name.mapSpan f }

theorem jsonFlag_inLine : InLine place id jsonFlag jsonFlag :=
  .rewindUnless (fun _ ↦ rfl) <| Reader.space_inLine.bind fun _ ↦ .literal (by decide)

theorem sqlTable_inLine : InLine place id sqlTable sqlTable :=
  .rewindUnless (fun _ ↦ rfl) <| Reader.space_inLine.bind fun _ ↦
    (InLine.literal (by decide)).bind fun _ ↦ .ite (Reader.space_inLine.bind fun _ ↦
      (InLine.literal (by decide)).bind fun _ ↦ .ite (Reader.space_inLine.bind fun _ ↦
        Reader.token_inLine.bind fun _ ↦ .pure rfl) (.pure rfl)) (.pure rfl)

theorem header_endsLine : EndsLine place (Header.mapSpan place.move) header header :=
  (Reader.ident_inLine _ _).bindEnds fun _ ↦ jsonFlag_inLine.bindEnds fun _ ↦
    sqlTable_inLine.bindEnds fun _ ↦ Reader.finishLine_endsLine.bindStays fun _ ↦ .pure rfl

end Entity

/-- The test asks about the first line only. -/
def AsksLine (test : List Char → Bool) : Prop :=
  ∀ (place : Place) (c : Cursor), c.Fits place → test (c.rest ++ place.tail) = test c.rest

theorem afterIndentation_eq (c : Cursor) : afterIndentation c.rest =
    if c.next?.any isHorizontalSpace then some (c.skip isHorizontalSpace).rest else none := by
  obtain ⟨rest, p⟩ := c
  cases rest with
  | nil => rfl
  | cons x rest =>
    by_cases h : isHorizontalSpace x
    · simp [afterIndentation, Cursor.next?, Cursor.skip, Cursor.past, h]
    · simp [afterIndentation, Cursor.next?, h]

theorem asksLine_behindIndentation {test : List Char → Bool} (h : AsksLine test) :
    AsksLine fun text ↦ (afterIndentation text).any test := by
  intro place c hc
  have hs := hc.along (.skip c isHorizontalSpace_newline)
  have hw := afterIndentation_eq (c.within place)
  rw [hc.next?_eq, hc.skip_eq isHorizontalSpace_newline] at hw
  change (afterIndentation (c.within place).rest).any test = _
  simp only [hw, afterIndentation_eq c]
  split
  · exact h place _ hs
  · rfl

theorem asksLine_word {word : String} (h : '\n' ∉ word.toList) :
    AsksLine fun text ↦ word.toList.isPrefixOf text := by
  intro place c hc
  simp only [← List.isSome_isPrefixOf?_eq_isPrefixOf, hc.isPrefixOf?_eq h, Option.isSome_map]

theorem asksLine_char (p : Char → Bool) : AsksLine fun text ↦ text.head?.any p := by
  intro place c hc
  exact congrArg (·.any p) hc.next?_eq

theorem BlankLine.mayStart_asksLine : AsksLine mayStart := by
  intro place c hc
  have hd := (hc.takeWhile_eq isHorizontalSpace_newline).2
  have hs := (hc.along (.skip c isHorizontalSpace_newline)).next?_eq
  change ((c.rest.dropWhile isHorizontalSpace) ++ place.tail).head? =
    (c.rest.dropWhile isHorizontalSpace).head? at hs
  have hempty : ∀ {text : List Char}, text.isEmpty = text.head?.isNone := fun {text} ↦ by
    cases text <;> rfl
  have hn : (c.rest ++ place.tail).head? = c.rest.head? := hc.next?_eq
  simp only [mayStart, hd, hempty, hs, hn]

theorem CommentLine.mayStart_asksLine : AsksLine mayStart := by
  intro place c hc
  have hd := (hc.takeWhile_eq isHorizontalSpace_newline).2
  have hs := hc.along (.skip c isHorizontalSpace_newline)
  simp only [mayStart, hd]
  exact asksLine_word (by decide) place _ hs

namespace MemberKind

theorem mayStart_asksLine (kind : MemberKind) : AsksLine kind.mayStart := by
  cases kind with
  | field => exact asksLine_behindIndentation (asksLine_char _)
  | derive => exact asksLine_behindIndentation (asksLine_word (by decide))
  | primary => exact asksLine_behindIndentation (asksLine_word (by decide))
  | foreign => exact asksLine_behindIndentation (asksLine_word (by decide))
  | unique => exact asksLine_behindIndentation (asksLine_char _)
  | blank => exact BlankLine.mayStart_asksLine
  | comment => exact CommentLine.mayStart_asksLine

theorem reader_endsLine (options : Options) (kind : MemberKind) :
    EndsLine place (Member.mapSpan place.move) (kind.reader options) (kind.reader options) := by
  cases kind with
  | field => exact Field.reader_endsLine.bindStays fun _ ↦ .pure rfl
  | derive => exact (Derive.reader_endsLine _).bindStays fun _ ↦ .pure rfl
  | primary => exact (Primary.reader_endsLine _).bindStays fun _ ↦ .pure rfl
  | foreign => exact (Foreign.reader_endsLine _).bindStays fun _ ↦ .pure rfl
  | unique => exact (Unique.reader_endsLine _).bindStays fun _ ↦ .pure rfl
  | blank => exact BlankLine.reader_endsLine.bindStays fun _ ↦ .pure rfl
  | comment => exact CommentLine.reader_endsLine.bindStays fun _ ↦ .pure rfl

theorem choice_endsLine (options : Options) (kind : MemberKind) :
    (kind.choice options).EndsLine place (Member.mapSpan place.move) :=
  ⟨(kind.reader_endsLine options).ofReader, kind.mayStart_asksLine place⟩

end MemberKind

namespace Member

theorem parser_endsLine (options : Options) :
    EndsLine place (mapSpan place.move) (parser options) (parser options) := by
  refine Choice.firstOr_endsLine _ fun choice h ↦ ?_
  obtain ⟨kind, -, rfl⟩ := List.mem_map.1 h
  exact kind.choice_endsLine options

theorem choice_endsLine (options : Options) :
    (choice options).EndsLine place (mapSpan place.move) := by
  refine ⟨parser_endsLine options, fun c hc ↦ ?_⟩
  have h (kinds : List MemberKind) : (kinds.any fun kind ↦ kind.mayStart (c.rest ++ place.tail)) =
      kinds.any fun kind ↦ kind.mayStart c.rest := by
    induction kinds with
    | nil => rfl
    | cons kind kinds ih => rw [List.any_cons, List.any_cons, ih, kind.mayStart_asksLine place c hc]
  exact h MemberKind.all

end Member

end EntityModels
