import EntityModels.Unicode.WhiteSpace
import EntityModels.Unicode.Uppercase
import EntityModels.Unicode.Lowercase
import EntityModels.Unicode.Alphanumeric

namespace EntityModels

open Unicode

/-- Ends a line. Nothing else does; a carriage return is horizontal space. -/
def isLineEnd (c : Char) : Bool := c == '\n'

def isHorizontalSpace (c : Char) : Bool := isWhiteSpace c && !isLineEnd c

/-- Continues a name, and makes up the values of modifiers. -/
def isIdentChar (c : Char) : Bool := isAlphanumeric c || c == '_'

def isTypeStart (c : Char) : Bool := isUppercase c

def isFieldStart (c : Char) : Bool := isLowercase c || c == '_'

/-- May stand right after a name: white space, a closing bracket or the end of the text. -/
def isNameBoundary : Option Char → Bool
  | none => true
  | some c => isWhiteSpace c || c == ']'

@[simp] theorem isLineEnd_iff {c : Char} : isLineEnd c ↔ c = '\n' := by simp [isLineEnd]

theorem isHorizontalSpace_iff {c : Char} :
    isHorizontalSpace c ↔ isWhiteSpace c ∧ c ≠ '\n' := by simp [isHorizontalSpace, isLineEnd]

@[simp] theorem isHorizontalSpace_newline : isHorizontalSpace '\n' = false := by
  simp [isHorizontalSpace, isLineEnd]

theorem isWhiteSpace_eq (c : Char) : isWhiteSpace c = (isHorizontalSpace c || isLineEnd c) := by
  by_cases h : c = '\n'
  · subst h; decide
  · simp [isHorizontalSpace, isLineEnd, beq_eq_false_iff_ne.2 h]

end EntityModels
