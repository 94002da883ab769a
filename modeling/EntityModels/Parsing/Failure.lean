import EntityModels.Text.Cursor

namespace EntityModels

inductive Cause where
  | structuralMismatch
  | invalidInteger
  | unterminatedLine
  | markerNotFound
  deriving DecidableEq, Repr

def Cause.text : Cause → String
  | structuralMismatch => "syntax error"
  | invalidInteger => "invalid integer"
  | unterminatedLine => "unterminated line"
  | markerNotFound => "missing block marker"

/-- A refusal. A fatal one ends the reading: no other alternative is tried in its place. -/
structure Failure where
  cause : Cause
  expected : String
  found : String
  position : Position
  fatal : Bool := false
  deriving DecidableEq, Repr

namespace Failure

def location (e : Failure) : Location := e.position.location

def offset (e : Failure) : Nat := e.position.offset

def message (e : Failure) : String :=
  toString e.location ++ ": " ++ e.cause.text ++
    ": expected " ++ e.expected ++ ", found " ++ e.found

def toFatal (e : Failure) : Failure := { e with fatal := true }

/-- `f` got farther than `e`, or as far with no way back. -/
def Beats (f e : Failure) : Prop :=
  e.offset < f.offset ∨ e.offset = f.offset ∧ f.fatal ∧ e.fatal = false

instance (f e : Failure) : Decidable (f.Beats e) := inferInstanceAs (Decidable (_ ∨ _))

/-- The one that got farther; the first of two that got equally far. -/
def farthest (e f : Failure) : Failure := if f.Beats e then f else e

/-- An integer that is none is fatal: the key before it shows what was meant. -/
def invalidInteger (token : List Char) (p : Position) : Failure :=
  ⟨.invalidInteger, "base-10 integer", "`" ++ String.ofList token ++ "`", p, true⟩

end Failure

namespace Cursor

def mismatch (c : Cursor) (expected : String) : Failure :=
  ⟨.structuralMismatch, expected, c.describe, c.position, false⟩

def unterminated (c : Cursor) : Failure :=
  ⟨.unterminatedLine, "line terminator", c.describe, c.position, false⟩

def missingMarker (c : Cursor) (marker : String) : Failure :=
  ⟨.markerNotFound, marker, c.describe, c.position, false⟩

end Cursor

end EntityModels
