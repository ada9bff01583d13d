import FleetSync.Digest.Sha256
import FleetSync.Identifier
import FleetSync.Json.Wire
import FleetSync.Text.Hex

/-!
Fingerprints: digests of the compact JSON text of what they stand for.

Maps and sets are written in order, so equal states have equal texts, and the text of a state reads
back as that state, so that distinct ones have distinct texts. A state without scopes has the empty
fingerprint.

A fingerprint can always be taken. A type with a JSON form writes all of its values (`Wire.encode` comes to no
fault), and the values that are held and sent here are of such types. For a type whose values may fail to be
written, taking the fingerprint of one value, and of a state, would have to be able to fail as well.
-/
namespace FleetSync

/-- The digest of a text in hexadecimal. -/
def digestText (s : String) : String :=
  String.ofList (Hex.encode (Digest.Sha256.digest s.toUTF8.toList))

/-- The fingerprint of one value. -/
def scopeFingerprint {α : Type} [Wire α] (v : α) : Fingerprint := digestText (Wire.toText v)

/-- The fingerprint of a whole state. -/
def fingerprint {α : Type} [Wire α] (scopes : OrdMap ScopeKey α) : Fingerprint :=
  if scopes.isEmpty then "" else digestText (Wire.toText scopes)

end FleetSync
