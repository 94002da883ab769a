namespace EntityModels

structure Markers where
  opening : List String
  closing : String
  deriving DecidableEq, Repr

namespace Markers

def persistLowerCase : String := "[persistLowerCase|"

def persistUpperCase : String := "[persistUpperCase|"

def blockClose : String := "|]"

instance : Inhabited Markers := ⟨⟨[persistLowerCase, persistUpperCase], blockClose⟩⟩

end Markers

structure Options where
  /-- A name in a clause may carry a strictness marker, which is without effect. -/
  markedNames : Bool := false
  markers : Markers := default
  /-- A document may end in white space without a line end. -/
  trailingBlank : Bool := true
  deriving DecidableEq, Repr

instance : Inhabited Options := ⟨{}⟩

end EntityModels
