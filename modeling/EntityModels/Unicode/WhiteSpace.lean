import EntityModels.Unicode.Ranges

/-!
The characters with the property White_Space, as of Unicode 17.0.
-/

namespace EntityModels.Unicode

def whiteSpace : Ranges :=
  [(0x9, 0xD), (0x20, 0x20), (0x85, 0x85), (0xA0, 0xA0), (0x1680, 0x1680), (0x2000, 0x200A),
    (0x2028, 0x2029), (0x202F, 0x202F), (0x205F, 0x205F), (0x3000, 0x3000)]

/-- White space of every kind, the line feed included. -/
def isWhiteSpace (c : Char) : Bool := whiteSpace.has c.toNat

end EntityModels.Unicode
