/-!
Comparison of texts without regard to the case of ASCII letters. Other characters are compared as
they are.
-/
namespace FleetSync.Text

/-- The text with its ASCII capitals made small. -/
def toAsciiLower (s : String) : String := String.ofList (s.toList.map Char.toLower)

/-- Two texts that differ at most in the case of ASCII letters. -/
def sameIgnoringCase (s t : String) : Bool := toAsciiLower s = toAsciiLower t

end FleetSync.Text
