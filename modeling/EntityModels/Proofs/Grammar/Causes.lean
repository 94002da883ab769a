import EntityModels.Grammar.Entity
import EntityModels.Proofs.Grammar.Lexemes
import EntityModels.Proofs.Grammar.Locality
import EntityModels.Proofs.Parsing.FailsWith

namespace EntityModels

variable {Q : Failure → Prop}

namespace Reader

theorem space_fails : FailsWith Q space := .takeWhile _

theorem someSpace_fails : FailsWith Q someSpace := space_fails.bind fun _ ↦ .pure _

theorem token_fails : FailsWith Q token := (FailsWith.takeWhile _).bind fun _ ↦ .pure _

theorem marker_fails : FailsWith Q marker :=
  (FailsWith.literal _).bind fun _ ↦ .ite (.pure _) ((FailsWith.literal _).bind fun _ ↦
    .ite (.pure _) (.pure _))

theorem name_fails (kind : IdentKind) : FailsWith Q (name kind) :=
  .rewindUnless <| FailsWith.next?.bind fun _ ↦ (FailsWith.takeWhile _).bind fun _ ↦
    FailsWith.next?.bind fun _ ↦ .pure _

theorem finishLine_fails : FailsWith Q finishLine := .of_ok fun c ↦ ⟨(), _, finishLine_apply c⟩

theorem strayMarker_fails (marked : Bool) : FailsWith Q (strayMarker marked) :=
  .ite (marker_fails.bind fun _ ↦ .pure _) (.pure _)

section

variable (hm : ∀ c expected, Q (Cursor.mismatch c expected))

include hm

theorem ident_fails (kind : IdentKind) (expected : String) :
    FailsWith Q (ident kind expected) := by
  refine FailsWith.position.bind fun _ ↦ (name_fails kind).bind fun text ↦ ?_
  cases text with
  | some text => exact FailsWith.position.bind fun _ ↦ .pure _
  | none => exact .mismatch (hm · expected)

theorem keyword_fails (text : String) : FailsWith Q (keyword text) :=
  (FailsWith.literal text).bind fun _ ↦ .ite (.pure _) (.mismatch (hm · _))

theorem expectSpace_fails (purpose : String) : FailsWith Q (expectSpace purpose) :=
  someSpace_fails.bind fun _ ↦ .ite (.pure _) (.mismatch (hm · _))

theorem clauseIdent_fails (marked : Bool) (kind : IdentKind) (expected : String) :
    FailsWith Q (clauseIdent marked kind expected) :=
  (strayMarker_fails marked).bind fun _ ↦ ident_fails hm kind expected

theorem names_fails (marked : Bool) (kind : IdentKind) (expected : String) :
    FailsWith Q (names marked kind expected) := by
  have hlisted : FailsWith Q (listedIdent marked kind expected) :=
    (expectSpace_fails hm _).bind fun _ ↦ clauseIdent_fails hm marked kind expected
  exact hlisted.bind fun _ ↦ (FailsWith.collect _ (.orNone _)).bind fun _ ↦ .pure _

theorem namesThenEnd_fails {α : Type} {kind : IdentKind} (marked : Bool) (expected : String)
    (node : List (Ident kind) → Position → α) :
    FailsWith Q (namesThenEnd marked kind expected node) :=
  (names_fails hm marked kind expected).bind fun _ ↦ FailsWith.position.bind fun _ ↦
    finishLine_fails.bind fun _ ↦ .pure _

end

theorem lineEnd_fails (hu : ∀ c, Q (Cursor.unterminated c)) : FailsWith Q lineEnd := by
  intro c e d h
  rw [lineEnd_apply] at h
  split at h
  · cases h
  · cases h
    exact hu c

section

variable {K V : Type}

theorem firstKind_fails {read : K → Reader (Option V)} (h : ∀ k, FailsWith Q (read k))
    (kinds : List K) : FailsWith Q (firstKind read kinds) := by
  induction kinds with
  | nil => exact .pure _
  | cons k kinds ih =>
    refine (FailsWith.rewindUnless (h k)).bind fun v ↦ ?_
    cases v with
    | some v => exact .pure _
    | none => exact ih.bind fun _ ↦ .pure _

theorem modifiers_fails [DecidableEq K] {read : K → Reader (Option V)}
    (h : ∀ k, FailsWith Q (read k)) (kinds : List K) : FailsWith Q (modifiers read kinds) := by
  induction hn : kinds.length using Nat.strongRecOn generalizing kinds with
  | ind n ih =>
    rw [modifiers]
    refine (FailsWith.rewindUnless (someSpace_fails.bind fun _ ↦
      .ite (firstKind_fails h kinds) (.pure _))).bind fun found ↦ ?_
    obtain _ | ⟨⟨k, hk⟩, v⟩ := found
    · exact .pure _
    · exact (ih _ (hn ▸ length_erase_lt hk) (kinds.erase k) rfl).bind fun _ ↦ .pure _

end

end Reader

theorem Flag.group_fails : FailsWith Q group :=
  Reader.modifiers_fails (fun _ ↦ (FailsWith.literal _).bind fun _ ↦ .pure _) all

theorem Setting.group_fails (hi : ∀ text p, Q (.invalidInteger text p)) : FailsWith Q group := by
  refine Reader.modifiers_fails (fun setting ↦ ?_) all
  have hassigned : FailsWith Q setting.assigned := by
    intro c e d h
    rw [assigned_apply] at h
    split at h
    · split at h
      · cases h
      · cases h
        exact hi _ _
    · cases h
  rw [reader_eq]
  exact (FailsWith.literal _).bind fun _ ↦ .ite (Reader.space_fails.bind fun _ ↦
    (FailsWith.literal _).bind fun _ ↦ .ite (Reader.space_fails.bind fun _ ↦ hassigned) (.pure _))
      (.pure _)

theorem Entity.jsonFlag_fails : FailsWith Q jsonFlag :=
  .rewindUnless <| Reader.space_fails.bind fun _ ↦ .literal _

theorem Entity.sqlTable_fails : FailsWith Q sqlTable :=
  .rewindUnless <| Reader.space_fails.bind fun _ ↦ (FailsWith.literal _).bind fun _ ↦
    .ite (Reader.space_fails.bind fun _ ↦ (FailsWith.literal _).bind fun _ ↦
      .ite (Reader.space_fails.bind fun _ ↦ Reader.token_fails.bind fun _ ↦ .pure _) (.pure _))
        (.pure _)

/-- Nothing but the name can be missing from the first line of an entity. -/
theorem Entity.header_stays {c d : Cursor} {e : Failure} (h : header c = .error e d) :
    d = c ∧ e = c.mismatch "entity name" := by
  rcases bind_error h with h | ⟨name, b, -, h⟩
  · simp only [Reader.ident_apply] at h
    split at h
    · cases h
    · cases h
      exact ⟨rfl, rfl⟩
  · have hrest : FailsWith (fun _ ↦ False) (jsonFlag >>= fun derivesJson ↦ sqlTable >>= fun table ↦
        Reader.finishLine >>= fun _ ↦ pure ⟨name, derivesJson, table⟩ : Reader Header) :=
      jsonFlag_fails.bind fun _ ↦ sqlTable_fails.bind fun _ ↦
        Reader.finishLine_fails.bind fun _ ↦ .pure _
    exact (hrest b e d h).elim

section

variable (hm : ∀ c expected, Q (Cursor.mismatch c expected))

include hm

theorem FieldType.reader_fails (hf : ∀ e, Q e → Q e.toFatal) : FailsWith Q reader := by
  have hclose (isList : Bool) : FailsWith Q (closeBracket isList) :=
    .ite ((Reader.keyword_fails hm _).committedIf hf) (.pure _)
  have hmaybe : FailsWith Q maybeSuffix := .rewindUnless <| Reader.someSpace_fails.bind fun _ ↦
    .ite (.literal _) (.pure _)
  exact FailsWith.position.bind fun _ ↦ (FailsWith.literal _).bind fun _ ↦
    Reader.marker_fails.bind fun _ ↦ ((Reader.ident_fails hm _ _).committedIf hf).bind fun _ ↦
      (hclose _).bind fun _ ↦ hmaybe.bind fun _ ↦ FailsWith.position.bind fun _ ↦ .pure _

theorem Field.reader_fails (hf : ∀ e, Q e → Q e.toFatal)
    (hi : ∀ text p, Q (.invalidInteger text p)) : FailsWith Q reader :=
  (Reader.expectSpace_fails hm _).bind fun _ ↦ FailsWith.position.bind fun _ ↦
    (Reader.ident_fails hm _ _).bind fun _ ↦ (Reader.expectSpace_fails hm _).bind fun _ ↦
      (FieldType.reader_fails hm hf).bind fun _ ↦ Flag.group_fails.bind fun _ ↦
        (Setting.group_fails hi).bind fun _ ↦ FailsWith.position.bind fun _ ↦
          Reader.finishLine_fails.bind fun _ ↦ .pure _

theorem Derive.reader_fails (marked : Bool) : FailsWith Q (reader marked) :=
  (Reader.expectSpace_fails hm _).bind fun _ ↦ FailsWith.position.bind fun _ ↦
    (Reader.keyword_fails hm _).bind fun _ ↦ Reader.namesThenEnd_fails hm marked _ _

theorem Primary.reader_fails (marked : Bool) : FailsWith Q (reader marked) :=
  (Reader.expectSpace_fails hm _).bind fun _ ↦ FailsWith.position.bind fun _ ↦
    (Reader.keyword_fails hm _).bind fun _ ↦ Reader.namesThenEnd_fails hm marked _ _

theorem Foreign.reader_fails (marked : Bool) : FailsWith Q (reader marked) :=
  (Reader.expectSpace_fails hm _).bind fun _ ↦ FailsWith.position.bind fun _ ↦
    (Reader.keyword_fails hm _).bind fun _ ↦ (Reader.expectSpace_fails hm _).bind fun _ ↦
      (Reader.clauseIdent_fails hm _ _ _).bind fun _ ↦ Reader.namesThenEnd_fails hm marked _ _

theorem Unique.reader_fails (marked : Bool) : FailsWith Q (reader marked) :=
  (Reader.expectSpace_fails hm _).bind fun _ ↦ FailsWith.position.bind fun _ ↦
    (Reader.clauseIdent_fails hm _ _ _).bind fun _ ↦ Reader.namesThenEnd_fails hm marked _ _

theorem CommentLine.reader_fails (hu : ∀ c, Q (Cursor.unterminated c)) : FailsWith Q reader :=
  FailsWith.position.bind fun _ ↦ Reader.space_fails.bind fun _ ↦
    (Reader.keyword_fails hm _).bind fun _ ↦ (FailsWith.takeWhile _).bind fun _ ↦
      FailsWith.next?.bind fun _ ↦ .ite (.unterminated hu) <|
        (Reader.lineEnd_fails hu).bind fun _ ↦ FailsWith.position.bind fun _ ↦ .pure _

theorem Entity.header_fails : FailsWith Q header :=
  (Reader.ident_fails hm _ _).bind fun _ ↦ jsonFlag_fails.bind fun _ ↦ sqlTable_fails.bind fun _ ↦
    Reader.finishLine_fails.bind fun _ ↦ .pure _

end

theorem BlankLine.reader_fails (hu : ∀ c, Q (Cursor.unterminated c)) : FailsWith Q reader := by
  refine FailsWith.position.bind fun _ ↦ Reader.space_fails.bind fun _ ↦
    FailsWith.next?.bind fun c ↦ ?_
  split
  · exact (Reader.lineEnd_fails hu).bind fun _ ↦ FailsWith.position.bind fun _ ↦ .pure _
  · exact .unterminated hu

/-- Why a line cannot be a member of the kind. -/
def MemberKind.causes : MemberKind → List Cause
  | field => [.structuralMismatch, .invalidInteger]
  | derive => [.structuralMismatch]
  | primary => [.structuralMismatch]
  | foreign => [.structuralMismatch]
  | unique => [.structuralMismatch]
  | blank => [.unterminatedLine]
  | comment => [.structuralMismatch, .unterminatedLine]

theorem MemberKind.reader_causes (options : Options) (kind : MemberKind) :
    FailsWith (fun e ↦ e.cause ∈ kind.causes) (kind.reader options) := by
  cases kind with
  | field =>
    exact (Field.reader_fails (by simp [causes, Cursor.mismatch]) (fun _ h ↦ h)
      (by simp [causes, Failure.invalidInteger])).bind fun _ ↦ .pure _
  | derive =>
    exact (Derive.reader_fails (by simp [causes, Cursor.mismatch]) _).bind fun _ ↦ .pure _
  | primary =>
    exact (Primary.reader_fails (by simp [causes, Cursor.mismatch]) _).bind fun _ ↦ .pure _
  | foreign =>
    exact (Foreign.reader_fails (by simp [causes, Cursor.mismatch]) _).bind fun _ ↦ .pure _
  | unique =>
    exact (Unique.reader_fails (by simp [causes, Cursor.mismatch]) _).bind fun _ ↦ .pure _
  | blank =>
    exact (BlankLine.reader_fails (by simp [causes, Cursor.unterminated])).bind fun _ ↦ .pure _
  | comment =>
    exact (CommentLine.reader_fails (by simp [causes, Cursor.mismatch])
      (by simp [causes, Cursor.unterminated])).bind fun _ ↦ .pure _

end EntityModels
