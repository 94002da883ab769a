import EntityModels.Parsing.Failure

/-!
Readers take something from the front of the unread text. A reader that fails leaves the cursor
where it stopped; nothing is given back unless the reader says so.
-/

namespace EntityModels

abbrev Reader := EStateM Failure Cursor

/-- The states of a reading, each of which stands somewhere in the text. -/
class HasCursor (σ : Type) where
  cursor : σ → Cursor

instance : HasCursor Cursor := ⟨id⟩

theorem bind_apply {σ α β : Type} (p : EStateM Failure σ α) (f : α → EStateM Failure σ β) (s : σ) :
    (p >>= f) s = match p s with
      | .ok a t => f a t
      | .error e t => .error e t := by
  change EStateM.bind p f s = _
  unfold EStateM.bind
  cases p s <;> rfl

namespace Reader

variable {α : Type}

def position : Reader Position := fun c ↦ .ok c.position c

def next? : Reader (Option Char) := fun c ↦ .ok c.next? c

def startsWith (text : String) : Reader Bool := fun c ↦ .ok (text.toList.isPrefixOf c.rest) c

def advance : Reader (Option Char) := fun c ↦
  match c.rest with
  | [] => .ok none c
  | x :: rest => .ok (some x) (c.past [x] rest)

def takeWhile (p : Char → Bool) : Reader (List Char) := fun c ↦
  .ok (c.rest.takeWhile p) (c.skip p)

def literal (text : String) : Reader Bool := fun c ↦
  match text.toList.isPrefixOf? c.rest with
  | some rest => .ok true (c.past text.toList rest)
  | none => .ok false c

def mismatch (expected : String) : Reader α := fun c ↦ .error (c.mismatch expected) c

def unterminated : Reader α := fun c ↦ .error c.unterminated c

/-- Gives back what was read if the result is not good. -/
def rewindUnless (good : α → Bool) (r : Reader α) : Reader α := fun c ↦
  match r c with
  | .ok a d => .ok a (if good a then d else c)
  | .error e d => .error e d

/-- Makes the failures of a reader fatal, once it is clear what the text was meant to be. -/
def committedIf (b : Bool) (r : Reader α) : Reader α := fun c ↦
  match r c with
  | .ok a d => .ok a d
  | .error e d => .error (if b then e.toFatal else e) d

/-- Nothing instead of a failure, and then what was read is given back. -/
def orNone (r : Reader α) : Reader (Option α) := fun c ↦
  match r c with
  | .ok a d => .ok (some a) d
  | .error _ _ => .ok none c

end Reader

end EntityModels
