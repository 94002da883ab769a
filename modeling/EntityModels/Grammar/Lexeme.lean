import EntityModels.Parsing.Forward
import EntityModels.Tree.Ident

namespace EntityModels.Reader

def space : Reader (List Char) := takeWhile isHorizontalSpace

def someSpace : Reader Bool := do return !(← space).isEmpty

def token : Reader (Option (List Char)) := do
  let text ← takeWhile isIdentChar
  return if text.isEmpty then none else some text

def marker : Reader (Option Char) := do
  if ← literal "!" then return some '!'
  else if ← literal "~" then return some '~'
  else return none

/-- A name of the kind: it runs as far as names can, and what follows may follow a name. -/
def name (kind : IdentKind) : Reader (Option String) :=
  rewindUnless Option.isSome do
    let first ← next?
    let text := String.ofList (← takeWhile isIdentChar)
    let after ← next?
    return if first.any kind.starts && isNameBoundary after && !kind.reserved.contains text
      then some text else none

def ident (kind : IdentKind) (expected : String) : Reader (Ident kind) := do
  let start ← position
  match ← name kind with
  | some text => return ⟨text, start.spanTo (← position)⟩
  | none => mismatch expected

def keyword (text : String) : Reader Unit := do
  if ← literal text then return () else mismatch ("`" ++ text ++ "`")

def expectSpace (purpose : String) : Reader Unit := do
  if ← someSpace then return () else mismatch purpose

def indentation : Reader Unit := expectSpace "indentation"

def separator (before : String) : Reader Unit := expectSpace ("whitespace before " ++ before)

theorem someSpace_apply (c : Cursor) :
    someSpace c = .ok (c.next?.any isHorizontalSpace) (c.skip isHorizontalSpace) := by
  change EStateM.Result.ok _ _ = _
  congr 1
  obtain ⟨rest, p⟩ := c
  cases rest with
  | nil => rfl
  | cons x rest => by_cases h : isHorizontalSpace x <;> simp [Cursor.next?, h]

theorem token_apply (c : Cursor) :
    token c = .ok (if c.next?.any isIdentChar then some (c.rest.takeWhile isIdentChar) else none)
      (c.skip isIdentChar) := by
  change EStateM.Result.ok _ _ = _
  congr 1
  obtain ⟨rest, p⟩ := c
  cases rest with
  | nil => rfl
  | cons x rest => by_cases h : isIdentChar x <;> simp [Cursor.next?, h]

/-- A name is taken whole, with everything about it right, or it is left where it is. -/
theorem name_apply (kind : IdentKind) (c : Cursor) :
    name kind c =
      let text := String.ofList (c.rest.takeWhile isIdentChar)
      if c.next?.any kind.starts && isNameBoundary (c.skip isIdentChar).next? &&
        !kind.reserved.contains text
      then .ok (some text) (c.skip isIdentChar) else .ok none c := by
  have settle : ∀ (b : Bool) (found : Option String) (d : Cursor),
      (.ok (if b then found else none) (if (if b then found else none).isSome then d else c) :
        EStateM.Result Failure Cursor (Option String)) =
      if b then .ok found (if found.isSome then d else c) else .ok none c := by
    intro b found d
    cases b <;> rfl
  exact settle _ (some _) _

def lineEnd : Reader Unit := do
  match ← next? with
  | none => return ()
  | some c =>
    if isLineEnd c then
      let _ ← advance
      return ()
    else unterminated

/-- Whatever is left of a line, which is without effect, and its end. -/
def finishLine : Reader Unit := do
  let _ ← takeWhile fun c ↦ !isLineEnd c
  lineEnd

theorem space_forward : Forward space := .takeWhile _

theorem someSpace_forward : Forward someSpace := space_forward.bind fun _ ↦ .pure _

theorem token_forward : Forward token := (Forward.takeWhile _).bind fun _ ↦ .pure _

theorem marker_forward : Forward marker :=
  (Forward.literal _).bind fun _ ↦ .ite (.pure _) ((Forward.literal _).bind fun _ ↦
    .ite (.pure _) (.pure _))

theorem name_forward (kind : IdentKind) : Forward (name kind) :=
  .rewindUnless <| Forward.next?.bind fun _ ↦ (Forward.takeWhile _).bind fun _ ↦
    Forward.next?.bind fun _ ↦ .pure _

theorem ident_forward (kind : IdentKind) (expected : String) : Forward (ident kind expected) := by
  refine Forward.position.bind fun _ ↦ (name_forward kind).bind fun text ↦ ?_
  cases text with
  | some text => exact Forward.position.bind fun _ ↦ .pure _
  | none => exact .mismatch expected

theorem keyword_forward (text : String) : Forward (keyword text) :=
  (Forward.literal text).bind fun _ ↦ .ite (.pure _) (.mismatch _)

theorem expectSpace_forward (purpose : String) : Forward (expectSpace purpose) :=
  someSpace_forward.bind fun _ ↦ .ite (.pure _) (.mismatch _)

theorem lineEnd_forward : Forward lineEnd := by
  refine Forward.next?.bind fun c ↦ ?_
  cases c with
  | none => exact .pure _
  | some c => exact .ite (Forward.advance.bind fun _ ↦ .pure _) .unterminated

theorem finishLine_forward : Forward finishLine :=
  (Forward.takeWhile _).bind fun _ ↦ lineEnd_forward

end EntityModels.Reader

namespace EntityModels

/-- The text behind the indentation of its first line, if that is indented. -/
def afterIndentation : List Char → Option (List Char)
  | [] => none
  | c :: text => if isHorizontalSpace c then some (text.dropWhile isHorizontalSpace) else none

def indentedWord (word : String) (text : List Char) : Bool :=
  (afterIndentation text).any fun trimmed ↦ word.toList.isPrefixOf trimmed

def indentedChar (p : Char → Bool) (text : List Char) : Bool :=
  (afterIndentation text).any fun trimmed ↦ trimmed.head?.any p

end EntityModels
