import EntityModels.Proofs.Grammar.Trivia
import EntityModels.Proofs.Parsing.Failures
import EntityModels.Proofs.Reading.Flat

namespace EntityModels

namespace Reader

theorem space_along : Along space := .takeWhile isHorizontalSpace_newline

theorem someSpace_along : Along someSpace := space_along.bind fun _ ↦ .pure _

theorem token_along : Along token := (Along.takeWhile (by decide)).bind fun _ ↦ .pure _

theorem marker_along : Along marker :=
  (Along.literal (by decide)).bind fun _ ↦ .ite (.pure _) ((Along.literal (by decide)).bind fun _ ↦
    .ite (.pure _) (.pure _))

theorem name_along (kind : IdentKind) : Along (name kind) :=
  .rewindUnless <| Along.next?.bind fun _ ↦ (Along.takeWhile (by decide)).bind fun _ ↦
    Along.next?.bind fun _ ↦ .pure _

theorem ident_along (kind : IdentKind) (expected : String) : Along (ident kind expected) := by
  refine Along.position.bind fun _ ↦ (name_along kind).bind fun text ↦ ?_
  cases text with
  | some text => exact Along.position.bind fun _ ↦ .pure _
  | none => exact .mismatch expected

theorem keyword_along {text : String} (h : '\n' ∉ text.toList) : Along (keyword text) :=
  (Along.literal h).bind fun _ ↦ .ite (.pure _) (.mismatch _)

theorem expectSpace_along (purpose : String) : Along (expectSpace purpose) :=
  someSpace_along.bind fun _ ↦ .ite (.pure _) (.mismatch _)

theorem lineEnd_failsAlong : FailsAlong lineEnd := by
  intro c e d h
  rw [lineEnd_apply] at h
  split at h
  · cases h
  · cases h
    exact (Failure.IsAt.unterminated _).isAlong

theorem finishLine_failsAlong : FailsAlong finishLine :=
  .bind (.takeWhile (by decide)) fun _ ↦ lineEnd_failsAlong

section

variable {K V : Type}

theorem firstKind_along {read : K → Reader (Option V)} (h : ∀ k, Along (read k))
    (kinds : List K) : Along (firstKind read kinds) := by
  induction kinds with
  | nil => exact .pure _
  | cons k kinds ih =>
    refine (Along.rewindUnless (h k)).bind fun v ↦ ?_
    cases v with
    | some v => exact .pure _
    | none => exact ih.bind fun _ ↦ .pure _

theorem modifiers_along [DecidableEq K] {read : K → Reader (Option V)} (h : ∀ k, Along (read k))
    (kinds : List K) : Along (modifiers read kinds) := by
  induction hn : kinds.length using Nat.strongRecOn generalizing kinds with
  | ind n ih =>
    rw [modifiers]
    refine (Along.rewindUnless (someSpace_along.bind fun _ ↦
      .ite (firstKind_along h kinds) (.pure _))).bind fun found ↦ ?_
    obtain _ | ⟨⟨k, hk⟩, v⟩ := found
    · exact .pure _
    · exact (ih _ (hn ▸ length_erase_lt hk) (kinds.erase k) rfl).bind fun _ ↦ .pure _

end

theorem strayMarker_along (marked : Bool) : Along (strayMarker marked) :=
  .ite (marker_along.bind fun _ ↦ .pure _) (.pure _)

theorem clauseIdent_along (marked : Bool) (kind : IdentKind) (expected : String) :
    Along (clauseIdent marked kind expected) :=
  (strayMarker_along marked).bind fun _ ↦ ident_along kind expected

theorem listedIdent_along (marked : Bool) (kind : IdentKind) (expected : String) :
    Along (listedIdent marked kind expected) :=
  (expectSpace_along _).bind fun _ ↦ clauseIdent_along marked kind expected

theorem names_along (marked : Bool) (kind : IdentKind) (expected : String) :
    Along (names marked kind expected) :=
  (listedIdent_along marked kind expected).bind fun _ ↦
    ((listedIdent_along marked kind expected).orNone.collect _).bind fun _ ↦ .pure _

end Reader

/-- A length that is no number is shown as a whole, from its first character on. -/
theorem Setting.assigned_along (setting : Setting) : Reader.Along setting.assigned := by
  have hskip (c : Cursor) : c.LeadsAlong (c.skip isIdentChar) := .skip c (by decide)
  refine ⟨fun c found d h ↦ ?_, fun c e d h ↦ ?_⟩
  · rw [assigned_apply] at h
    split at h
    · split at h
      · cases h
        exact hskip c
      · cases h
    · cases h
      exact hskip c
  · rw [assigned_apply] at h
    split at h
    · split at h
      · cases h
      · cases h
        exact Failure.IsAt.isAlong ⟨rfl, rfl⟩
    · cases h

theorem Setting.reader_along (setting : Setting) : Reader.Along setting.reader := by
  rw [reader_eq]
  exact (Reader.Along.literal (by cases setting <;> decide)).bind fun _ ↦
    .ite (Reader.space_along.bind fun _ ↦ (Reader.Along.literal (by decide)).bind fun _ ↦
      .ite (Reader.space_along.bind fun _ ↦ setting.assigned_along) (.pure _)) (.pure _)

theorem Setting.group_along : Reader.Along group := Reader.modifiers_along reader_along all

theorem Flag.group_along : Reader.Along group :=
  Reader.modifiers_along (fun flag ↦
    (Reader.Along.literal (by cases flag <;> decide)).bind fun _ ↦ .pure _) all

theorem FieldType.reader_along : Reader.Along reader := by
  have hclose (isList : Bool) : Reader.Along (closeBracket isList) :=
    .ite (Reader.keyword_along (by decide)).committedIf (.pure _)
  have hmaybe : Reader.Along maybeSuffix := .rewindUnless <| Reader.someSpace_along.bind fun _ ↦
    .ite (.literal (by decide)) (.pure _)
  exact Reader.Along.position.bind fun _ ↦ (Reader.Along.literal (by decide)).bind fun _ ↦
    Reader.marker_along.bind fun _ ↦ (Reader.ident_along _ _).committedIf.bind fun _ ↦
      (hclose _).bind fun _ ↦ hmaybe.bind fun _ ↦ Reader.Along.position.bind fun _ ↦ .pure _

theorem Reader.FailsAlong.finish {α : Type} (a : α) :
    Reader.FailsAlong (Reader.finishLine >>= fun _ ↦ pure a) :=
  Reader.finishLine_failsAlong.bindOk fun _ c ↦ ⟨a, c, rfl⟩

theorem Reader.namesThenEnd_failsAlong {α : Type} {kind : IdentKind} (marked : Bool)
    (expected : String) (node : List (Ident kind) → Position → α) :
    Reader.FailsAlong (namesThenEnd marked kind expected node) :=
  .bind (names_along _ _ _) fun _ ↦ .bind .position fun _ ↦ .finish _

theorem Field.reader_failsAlong : Reader.FailsAlong reader :=
  .bind (Reader.expectSpace_along _) fun _ ↦ .bind .position fun _ ↦
    .bind (Reader.ident_along _ _) fun _ ↦ .bind (Reader.expectSpace_along _) fun _ ↦
      .bind FieldType.reader_along fun _ ↦ .bind Flag.group_along fun _ ↦
        .bind Setting.group_along fun _ ↦ .bind .position fun _ ↦ .finish _

theorem Derive.reader_failsAlong (marked : Bool) : Reader.FailsAlong (reader marked) :=
  .bind (Reader.expectSpace_along _) fun _ ↦ .bind .position fun _ ↦
    .bind (Reader.keyword_along (by decide)) fun _ ↦ Reader.namesThenEnd_failsAlong marked _ _

theorem Primary.reader_failsAlong (marked : Bool) : Reader.FailsAlong (reader marked) :=
  .bind (Reader.expectSpace_along _) fun _ ↦ .bind .position fun _ ↦
    .bind (Reader.keyword_along (by decide)) fun _ ↦ Reader.namesThenEnd_failsAlong marked _ _

theorem Foreign.reader_failsAlong (marked : Bool) : Reader.FailsAlong (reader marked) :=
  .bind (Reader.expectSpace_along _) fun _ ↦ .bind .position fun _ ↦
    .bind (Reader.keyword_along (by decide)) fun _ ↦ .bind (Reader.expectSpace_along _) fun _ ↦
      .bind (Reader.clauseIdent_along _ _ _) fun _ ↦ Reader.namesThenEnd_failsAlong marked _ _

theorem Unique.reader_failsAlong (marked : Bool) : Reader.FailsAlong (reader marked) :=
  .bind (Reader.expectSpace_along _) fun _ ↦ .bind .position fun _ ↦
    .bind (Reader.clauseIdent_along _ _ _) fun _ ↦ Reader.namesThenEnd_failsAlong marked _ _

theorem BlankLine.reader_failsAlong : Reader.FailsAlong reader := by
  intro c e d h
  rw [reader_apply] at h
  split at h
  · cases h
  · cases h
    exact (Failure.IsAt.unterminated _).isAlong.before (.skip c isHorizontalSpace_newline)

theorem CommentLine.reader_failsAlong : Reader.FailsAlong reader :=
  .bind .position fun _ ↦ .bind Reader.space_along fun _ ↦
    .bind (Reader.keyword_along (by decide)) fun _ ↦ .bind (.takeWhile (by decide)) fun _ ↦
      .bind .next? fun _ ↦ .ite .unterminated <|
        Reader.lineEnd_failsAlong.bindOk fun _ c ↦ ⟨_, c, rfl⟩

theorem Entity.header_failsAlong : Reader.FailsAlong header := by
  have hjson : Reader.Along jsonFlag := .rewindUnless <| Reader.space_along.bind fun _ ↦
    .literal (by decide)
  have hsql : Reader.Along sqlTable := .rewindUnless <| Reader.space_along.bind fun _ ↦
    (Reader.Along.literal (by decide)).bind fun _ ↦ .ite (Reader.space_along.bind fun _ ↦
      (Reader.Along.literal (by decide)).bind fun _ ↦ .ite (Reader.space_along.bind fun _ ↦
        Reader.token_along.bind fun _ ↦ .pure _) (.pure _)) (.pure _)
  exact .bind (Reader.ident_along _ _) fun _ ↦ .bind hjson fun _ ↦ .bind hsql fun _ ↦ .finish _

theorem Entity.head_failsAlong : Reader.FailsAlong head :=
  .bind .position fun _ ↦ header_failsAlong.bindOk fun _ c ↦ ⟨_, c, rfl⟩

theorem MemberKind.reader_failsAlong (options : Options) (kind : MemberKind) :
    Reader.FailsAlong (kind.reader options) := by
  cases kind with
  | field => exact Field.reader_failsAlong.bindOk fun _ c ↦ ⟨_, c, rfl⟩
  | derive => exact (Derive.reader_failsAlong _).bindOk fun _ c ↦ ⟨_, c, rfl⟩
  | primary => exact (Primary.reader_failsAlong _).bindOk fun _ c ↦ ⟨_, c, rfl⟩
  | foreign => exact (Foreign.reader_failsAlong _).bindOk fun _ c ↦ ⟨_, c, rfl⟩
  | unique => exact (Unique.reader_failsAlong _).bindOk fun _ c ↦ ⟨_, c, rfl⟩
  | blank => exact BlankLine.reader_failsAlong.bindOk fun _ c ↦ ⟨_, c, rfl⟩
  | comment => exact CommentLine.reader_failsAlong.bindOk fun _ c ↦ ⟨_, c, rfl⟩

theorem ItemKind.lineReader_failsAlong (kind : ItemKind) : Reader.FailsAlong kind.lineReader := by
  cases kind with
  | entity => exact Entity.head_failsAlong.bindOk fun _ c ↦ ⟨_, c, rfl⟩
  | blank => exact BlankLine.reader_failsAlong.bindOk fun _ c ↦ ⟨_, c, rfl⟩
  | comment => exact CommentLine.reader_failsAlong.bindOk fun _ c ↦ ⟨_, c, rfl⟩

/-- Whatever a line under an entity is tried as, the failures stand on the line. -/
theorem Member.tried_failsAlong (options : Options) : Parser.FailsAlong (choice options).tried := by
  refine Choice.tried_failsAlong (Choice.firstOr_failsAlong _ fun choice hc ↦ ?_)
  obtain ⟨kind, -, rfl⟩ := List.mem_map.1 hc
  exact .ofReader (kind.reader_failsAlong options)

theorem Item.lineParser_failsAlong : Parser.FailsAlong lineParser := by
  refine Choice.firstOr_failsAlong _ fun choice hc ↦ ?_
  obtain ⟨kind, -, rfl⟩ := List.mem_map.1 hc
  exact .ofReader kind.lineReader_failsAlong

end EntityModels
