import FleetSync.Digest.Sha1
import FleetSync.Error
import FleetSync.Files
import FleetSync.Keytab.IdentityTable
import FleetSync.Text.Hex

/-!
Where secret material is found.

A data directory holds an identity table under a configured name, and the keytabs of each host in a
directory of that host, each under the digest of the path where agents install it.
-/
namespace FleetSync

/-- A source of secret material. -/
structure SecretStore where
  /-- The identity records of a data directory, one after another. -/
  records : (directory : String) → Except Fault (List (Except Fault IdentityRecord))
  /-- The content of a keytab file, if there is one. -/
  keytab : (location : String) → Except Fault (Option (List UInt8))

/-- The file of the keytab that is installed at `path` on a host. -/
def keytabLocation (directory hostname path : String) : String :=
  let name := String.ofList (Hex.encode (Digest.Sha1.digest path.toUTF8.toList))
  Path.join (Path.join directory hostname) name

namespace SecretsSettings

/-- The identity file of a data directory. -/
def identityPath (s : SecretsSettings) (directory : String) : String :=
  Path.join directory s.identityFileName

end SecretsSettings

namespace Files

/-- The content of a keytab file; a missing file is none. -/
def readKeytab (f : Files) (location : String) : Except Fault (Option (List UInt8)) :=
  match f.find location with
  | .file content => .ok (some content)
  | .missing => .ok none
  | .directory | .blocked => .error (.unreadable location)

/-- The records of an identity file; a directory has none. -/
def identityRecords (f : Files) (path : String) :
    Except Fault (List (Except Fault IdentityRecord)) :=
  match f.find path with
  | .file content =>
    .ok ((IdentityTable.records content).map fun r =>
      r.mapError fun line => .malformedRecord path line)
  | .directory => .ok []
  | .missing | .blocked => .error (.unreadable path)

/-- Files as a store of secret material. -/
def secretStore (f : Files) (s : SecretsSettings) : SecretStore where
  records directory := f.identityRecords (s.identityPath directory)
  keytab := f.readKeytab

end Files
end FleetSync
