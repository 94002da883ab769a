import EntityModels.Grammar.Production
import EntityModels.Proofs.Grammar.Causes
import EntityModels.Proofs.Grammar.Failures
import EntityModels.Proofs.Parsing.Account
import EntityModels.Proofs.Reading.Flat

namespace EntityModels

def MemberKind.recorder (kind : MemberKind) : Recorder (Option Member) :=
  .tried kind.mayStart <| .reading fun options ↦ kind.reader options

theorem MemberKind.recorder_accounts (kind : MemberKind) :
    kind.recorder.Accounts fun options ↦ (kind.choice options).tried :=
  .tried (.reading (kind.reader_forward ·) (kind.reader_failsAlong ·)) fun _ ↦ rfl

namespace Member

def recorder : Recorder Member := .firstOr "entity member" (MemberKind.all.map MemberKind.recorder)

theorem recorder_accounts : recorder.Accounts parser := .firstOr MemberKind.recorder_accounts _

theorem tried_accounts :
    (Recorder.tried mayStart recorder).Accounts fun options ↦ (choice options).tried :=
  .tried recorder_accounts fun _ ↦ rfl

end Member

namespace Entity

def recorder : Recorder Entity := do
  let start ← Recorder.reading fun _ ↦ Reader.position
  let header ← Recorder.reading fun _ ↦ header
  let members ← collect (Recorder.tried Member.mayStart Member.recorder)
    Member.tried_accounts.forward
  let stop ← Recorder.reading fun _ ↦ Reader.position
  return { header with members, span := start.spanTo stop }

theorem recorder_accounts : recorder.Accounts parser := by
  have hposition : Recorder.Accounts (Recorder.reading fun _ ↦ Reader.position) fun _ ↦
      (Reader.position : Parser Position) :=
    .reading (fun _ ↦ .position) fun _ ↦ Reader.Along.position.fails
  have hheader : Recorder.Accounts (Recorder.reading fun _ ↦ header) fun _ ↦
      (header : Parser Header) := .reading (fun _ ↦ header_forward) fun _ ↦ header_failsAlong
  exact hposition.bind fun _ ↦ hheader.bind fun _ ↦
    (Member.tried_accounts.collect fun options ↦ (Member.choice options).tried_forward).bind
      fun _ ↦ hposition.bind fun _ ↦ .pure _

end Entity

theorem BlankLine.recorder_accounts :
    (Recorder.reading fun _ ↦ reader).Accounts fun _ ↦ (reader : Parser BlankLine) :=
  .reading (fun _ ↦ reader_forward) fun _ ↦ reader_failsAlong

theorem CommentLine.recorder_accounts :
    (Recorder.reading fun _ ↦ reader).Accounts fun _ ↦ (reader : Parser CommentLine) :=
  .reading (fun _ ↦ reader_forward) fun _ ↦ reader_failsAlong

def ItemKind.recorder : ItemKind → Recorder Item
  | entity => return .entity (← Entity.recorder)
  | blank => return .blank (← Recorder.reading fun _ ↦ BlankLine.reader)
  | comment => return .comment (← Recorder.reading fun _ ↦ CommentLine.reader)

theorem ItemKind.recorder_accounts (kind : ItemKind) :
    kind.recorder.Accounts fun options ↦ kind.parser options := by
  cases kind with
  | entity => exact Entity.recorder_accounts.bind fun _ ↦ .pure _
  | blank => exact BlankLine.recorder_accounts.bind fun _ ↦ .pure _
  | comment => exact CommentLine.recorder_accounts.bind fun _ ↦ .pure _

namespace Item

def recorder : Recorder Item :=
  .firstOr expected (ItemKind.all.map fun kind ↦ .tried kind.mayStart kind.recorder)

theorem recorder_accounts : recorder.Accounts parser := by
  have htried (kind : ItemKind) : (Recorder.tried kind.mayStart kind.recorder).Accounts
      fun options ↦ (kind.choice options).tried := .tried kind.recorder_accounts fun _ ↦ rfl
  exact .firstOr htried expected

end Item

namespace Production

def recorder : (p : Production) → Recorder p.Node
  | blankLine => .reading fun _ ↦ BlankLine.reader
  | commentLine => .reading fun _ ↦ CommentLine.reader
  | fieldType => .reading fun _ ↦ FieldType.reader
  | field => .reading fun _ ↦ Field.reader
  | derive => .reading fun options ↦ Derive.reader options.markedNames
  | primary => .reading fun options ↦ Primary.reader options.markedNames
  | foreign => .reading fun options ↦ Foreign.reader options.markedNames
  | unique => .reading fun options ↦ Unique.reader options.markedNames
  | member => Member.recorder
  | entity => Entity.recorder
  | item => Item.recorder

theorem recorder_accounts (p : Production) :
    p.recorder.Accounts fun options ↦ p.parser options := by
  cases p with
  | blankLine => exact BlankLine.recorder_accounts
  | commentLine => exact CommentLine.recorder_accounts
  | fieldType =>
    exact .reading (fun _ ↦ FieldType.reader_forward) fun _ ↦ FieldType.reader_along.fails
  | field => exact .reading (fun _ ↦ Field.reader_forward) fun _ ↦ Field.reader_failsAlong
  | derive => exact .reading (fun _ ↦ Derive.reader_forward _) fun _ ↦ Derive.reader_failsAlong _
  | primary => exact .reading (fun _ ↦ Primary.reader_forward _) fun _ ↦ Primary.reader_failsAlong _
  | foreign => exact .reading (fun _ ↦ Foreign.reader_forward _) fun _ ↦ Foreign.reader_failsAlong _
  | unique => exact .reading (fun _ ↦ Unique.reader_forward _) fun _ ↦ Unique.reader_failsAlong _
  | member => exact Member.recorder_accounts
  | entity => exact Entity.recorder_accounts
  | item => exact Item.recorder_accounts

end Production

/-- An entity that is not given up for good lacks its name: behind the header all failures are
fatal. -/
theorem Entity.parser_stays {options : Options} {s t : ParserState} {e : Failure}
    (h : parser options s = .error e t) (he : e.fatal = false) :
    t.cursor = s.cursor ∧ e = s.cursor.mismatch "entity name" := by
  rw [parser_eq] at h
  rcases bind_error h with h | ⟨found, u, -, h⟩
  · have hhead : head s.cursor = .error e t.cursor := Parser.ofReader_error h
    rcases bind_error hhead with hposition | ⟨start, c, hposition, hrest⟩
    · cases hposition
    · cases hposition
      rcases bind_error hrest with hheader | ⟨header, d, -, hrest⟩
      · exact header_stays hheader
      · cases hrest
  · rw [body_fatal h] at he
    cases he

theorem Production.parser_stays {p : Production} (hp : p ∈ [member, entity, item])
    {options : Options} {s t : ParserState} {e : Failure}
    (h : p.parser options s = .error e t) (he : e.fatal = false) :
    t.cursor = s.cursor ∧ e.position = s.cursor.position := by
  have hstays : ∃ expected, t.cursor = s.cursor ∧ e = s.cursor.mismatch expected := by
    simp only [List.mem_cons, List.not_mem_nil, or_false] at hp
    rcases hp with rfl | rfl | rfl
    · exact ⟨_, Choice.firstOr_stays h he⟩
    · exact ⟨_, Entity.parser_stays h he⟩
    · exact ⟨_, Choice.firstOr_stays h he⟩
  obtain ⟨expected, hcursor, rfl⟩ := hstays
  exact ⟨hcursor, rfl⟩

/-- What a call of a production comes to is the same with an account as without it. Where it is one
with alternatives and leaves room for others, the cursor is back and the failure is there. Whatever
the outcome, the options are as before, the farthest failure is the one from before or one ahead
that counts more, and all failures that were noted in the call can be given up. -/
theorem Production.call_atomic (p : Production) (a : Account) :
    let b := stateBehind p.recorder a
    p.recorder.outcome a = p.parser a.context.options a.state ∧
    (p ∈ [member, entity, item] → ∀ e, p.recorder a = .error e b → e.fatal = false →
      b.cursor = a.cursor ∧ e.position = a.cursor.position) ∧
    b.context.options = a.context.options ∧
    (b.context.farthest = a.context.farthest ∨ ∃ f, b.context.farthest = some f ∧
      a.cursor.position.offset ≤ f.offset ∧ ∀ g ∈ a.context.farthest, g.rank < f.rank) ∧
    ∃ noted, b.noted = a.noted ++ noted ∧
      b.context.farthest = (noted.foldl ParserState.record a.state).farthest ∧
      ∀ e ∈ noted, e.fatal = false ∧ a.cursor.position.offset ≤ e.offset := by
  intro b
  have houtcome : p.recorder.outcome a = p.parser a.context.options a.state :=
    p.recorder_accounts.outcome_eq a
  obtain ⟨noted, s, hadds, hb⟩ : ∃ noted s, a.state.Adds noted s ∧ b = a.extend noted s :=
    p.recorder_accounts.exists_extend a
  refine ⟨houtcome, fun hp e he hmild ↦ ?_, ?_, ?_, noted, ?_, ?_, hadds.ahead⟩
  · have herror : p.parser a.context.options a.state = .error e b.state := by
      rw [← houtcome, Recorder.outcome, he]
    exact parser_stays hp herror hmild
  · rw [hb]
    rfl
  · rw [hb]
    exact hadds.farthest_cases
  · rw [hb]
    rfl
  · rw [hb]
    exact hadds.farthest

theorem Production.call_of_bad_type :
    let older : Failure := ⟨.structuralMismatch, "entity member", "`!`", ⟨1, 3, 2⟩, false⟩
    let a : Account :=
      { cursor := ⟨"  name text\n".toList, ⟨2, 1, 4⟩⟩, context.farthest := some older }
    let b := stateBehind member.recorder a
    let e := a.cursor.mismatch "entity member"
    member.recorder a = .error e b ∧ b.cursor = a.cursor ∧ e.position = ⟨2, 1, 4⟩ ∧
      ∃ f, b.context.farthest = some f ∧ f.offset = 11 ∧ older.rank < f.rank := by
  intro older a b e
  obtain ⟨-, hstays, -, hfarthest, -⟩ := member.call_atomic a
  have herror : member.recorder a = .error e b := rfl
  obtain ⟨hcursor, hposition⟩ := hstays (by decide) e herror rfl
  refine ⟨herror, hcursor, hposition, ?_⟩
  have hoffset : b.context.farthest.map Failure.offset = some 11 := by decide +kernel
  rcases hfarthest with heq | ⟨f, hf, -, hlt⟩
  · rw [heq] at hoffset
    cases hoffset
  · rw [hf] at hoffset
    exact ⟨f, hf, Option.some.inj hoffset, hlt older rfl⟩

end EntityModels
