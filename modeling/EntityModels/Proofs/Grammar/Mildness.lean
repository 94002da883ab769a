import EntityModels.Proofs.Grammar.Causes
import EntityModels.Proofs.Parsing.Mild

namespace EntityModels

theorem Cursor.mismatch_fatal (c : Cursor) (expected : String) :
    (c.mismatch expected).fatal = false := rfl

theorem Cursor.unterminated_fatal (c : Cursor) : c.unterminated.fatal = false := rfl

namespace Reader

theorem ident_mild (kind : IdentKind) (expected : String) : Mild (ident kind expected) :=
  ident_fails Cursor.mismatch_fatal kind expected

theorem expectSpace_mild (purpose : String) : Mild (expectSpace purpose) :=
  expectSpace_fails Cursor.mismatch_fatal purpose

theorem finishLine_mild : Mild finishLine := finishLine_fails

end Reader

theorem Flag.group_mild : Mild group := group_fails

theorem BlankLine.reader_mild : Mild reader := reader_fails Cursor.unterminated_fatal

theorem CommentLine.reader_mild : Mild reader :=
  reader_fails Cursor.mismatch_fatal Cursor.unterminated_fatal

/-- A line under an entity that fails for good was meant as a field. -/
theorem MemberKind.reader_mild (options : Options) {kind : MemberKind} (h : kind ≠ .field) :
    Mild (kind.reader options) := by
  have hm := Cursor.mismatch_fatal
  cases kind with
  | field => exact absurd rfl h
  | derive => exact FailsWith.bind (Derive.reader_fails hm _) fun _ ↦ .pure _
  | primary => exact FailsWith.bind (Primary.reader_fails hm _) fun _ ↦ .pure _
  | foreign => exact FailsWith.bind (Foreign.reader_fails hm _) fun _ ↦ .pure _
  | unique => exact FailsWith.bind (Unique.reader_fails hm _) fun _ ↦ .pure _
  | blank => exact BlankLine.reader_mild.bind fun _ ↦ .pure _
  | comment => exact CommentLine.reader_mild.bind fun _ ↦ .pure _

end EntityModels
