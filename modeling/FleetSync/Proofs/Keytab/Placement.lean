import FleetSync.Keytab.Store
import FleetSync.Proofs.Path
import FleetSync.Proofs.Publisher.Containment
import Mathlib.Data.Set.Function

/-!
Where secret material is placed.

A data directory holds the identity file one step down, under a name that was checked when the settings were
(`SecretsSettings.identityPath_stays`): the check looks at the parts of the name and joining at its text, so a
name with slashes and dots behind it passes and still leads to its one part.

Each keytab of the directory has a place of its own (`keytabs_apart`). Its path is that of the directory with
the host name and a digest joined to it as one, and from these two segments both can be read off again.
-/
namespace FleetSync

/-! ### The identity file -/

namespace SecretsSettings

theorem check_eq_ok_iff {s : SecretsSettings} :
    s.check = .ok () ↔ Text.isAllBlank s.dataDirectoryParam = false ∧ Path.isFileName s.identityFileName = true := by
  rw [check, checkKey]
  cases Text.isAllBlank s.dataDirectoryParam <;> cases Path.isFileName s.identityFileName <;>
    simp [bind, Except.bind]

theorem check_of_not_fileName {s : SecretsSettings} (hparam : Text.isAllBlank s.dataDirectoryParam = false)
    (hname : Path.isFileName s.identityFileName = false) : s.check = .error (.notFileName s.identityFileName) := by
  simp [check, checkKey, hparam, hname, bind, Except.bind]

/-- The identity file of settings that are valid is one step down from any data directory. The step is the name
that is configured, less what follows it and says nothing; a name of any other parts is refused. -/
theorem identityPath_stays (s : SecretsSettings) :
    (s.check = .ok () →
      ∃ name rest, Path.segments s.identityFileName.toList = name :: rest ∧
        (∀ x ∈ rest, x = [] ∨ x = ['.']) ∧ Path.IsName name ∧
        Path.parts s.identityFileName.toList = [.normal name] ∧
        ∀ directory : String, Path.parts (s.identityPath directory).toList =
          Path.parts directory.toList ++ [.normal name]) ∧
    (Text.isAllBlank s.dataDirectoryParam = false →
      (∀ name, Path.parts s.identityFileName.toList ≠ [.normal name]) →
      s.check = .error (.notFileName s.identityFileName)) := by
  constructor
  · intro h
    obtain ⟨name, hparts⟩ := Path.isFileName_iff.1 (check_eq_ok_iff.1 h).2
    obtain ⟨hname, rest, hs, hrest⟩ := Path.parts_eq_name_iff.1 hparts
    refine ⟨name, rest, hs, hrest, hname, hparts, fun directory => ?_⟩
    rw [identityPath, Path.join, String.toList_ofList]
    exact Path.parts_join_of_parts hparts directory.toList
  · intro hparam hparts
    refine check_of_not_fileName hparam (Bool.eq_false_iff.2 fun hname => ?_)
    obtain ⟨name, h⟩ := Path.isFileName_iff.1 hname
    exact hparts name h

/-- Slashes and dots may follow the name, and the directory may have some of its own. With a dot before it the
name is refused. -/
theorem identityPath_stays_dotted :
    Path.parts (identityPath { identityFileName := "id.dat//." } "/var//lib/.").toList =
        [.root, .normal "var".toList, .normal "lib".toList, .normal "id.dat".toList] ∧
      check { identityFileName := "./id.dat" } = .error (.notFileName "./id.dat") := by
  constructor
  · obtain ⟨name, rest, hs, -, -, -, hjoin⟩ :=
      (identityPath_stays { identityFileName := "id.dat//." }).1 (by decide)
    obtain rfl : "id.dat".toList = name := (List.cons.inj hs).1
    rw [hjoin "/var//lib/."]
    decide
  · refine (identityPath_stays { identityFileName := "./id.dat" }).2 (by decide) fun name h => ?_
    have hparts : Path.parts "./id.dat".toList = [.here, .normal "id.dat".toList] := by decide
    rw [hparts] at h
    cases h

end SecretsSettings

/-! ### Keytabs -/

/-- No two of the paths have the same digest. -/
def Digest.Sha1.CollisionFree (paths : Set String) : Prop :=
  Set.InjOn (fun path : String => digest path.toUTF8.toList) paths

namespace Path

/-- What is joined to a directory by a host name and a bare name has these for its segments. -/
theorem segments_joinChars {host name : List Char} (hhost : '/' ∉ host) (hname : IsName name) :
    segments (joinChars host name) = if host = [] then [name] else [host, name] := by
  by_cases h : host = []
  · rw [if_pos h, h, joinChars_nil hname.head_ne, segments_of_not_mem hname.one]
  · have hlast : host.getLast? ≠ some '/' := fun hlast => hhost (List.mem_of_getLast? hlast)
    rw [if_neg h, joinChars_relative hname.head_ne, ahead, if_neg (not_or.2 ⟨h, hlast⟩), List.append_assoc,
      List.singleton_append, segments_append_slash, segments_of_not_mem hhost, segments_of_not_mem hname.one]
    rfl

theorem joinChars_inj {host₁ host₂ name₁ name₂ : List Char} (hhost₁ : '/' ∉ host₁) (hhost₂ : '/' ∉ host₂)
    (hname₁ : IsName name₁) (hname₂ : IsName name₂) :
    joinChars host₁ name₁ = joinChars host₂ name₂ ↔ host₁ = host₂ ∧ name₁ = name₂ := by
  constructor
  · intro h
    have hs := congrArg segments h
    rw [segments_joinChars hhost₁ hname₁, segments_joinChars hhost₂ hname₂] at hs
    by_cases h₁ : host₁ = [] <;> by_cases h₂ : host₂ = [] <;> simp_all
  · rintro ⟨rfl, rfl⟩
    rfl

end Path

/-- The location of a keytab is its directory with the host name and the digest joined to it as one. -/
theorem toList_keytabLocation (directory : String) {host : String} (hhost : '/' ∉ host.toList) (path : String) :
    (keytabLocation directory host path).toList = Path.joinChars directory.toList
      (Path.joinChars host.toList (Hex.encode (Digest.Sha1.digest path.toUTF8.toList))) := by
  have hrel : host.toList.head? ≠ some '/' := fun h => hhost (List.mem_of_mem_head? h)
  simp only [keytabLocation, Path.join, String.toList_ofList]
  exact Path.joinChars_joinChars hrel (KeytabRead.isName_digest _).head_ne _

section
variable {host₁ host₂ : String} (h₁ : '/' ∉ host₁.toList) (h₂ : '/' ∉ host₂.toList)
include h₁ h₂

theorem keytabLocation_inj (directory path₁ path₂ : String) :
    keytabLocation directory host₁ path₁ = keytabLocation directory host₂ path₂ ↔
      host₁ = host₂ ∧ Digest.Sha1.digest path₁.toUTF8.toList = Digest.Sha1.digest path₂.toUTF8.toList := by
  have hname₁ := KeytabRead.isName_digest path₁.toUTF8.toList
  have hname₂ := KeytabRead.isName_digest path₂.toUTF8.toList
  -- below the directory both start with a host name or with a digest, and never at the root
  have hbelow : ∀ {host : String} {name : List Char}, '/' ∉ host.toList → Path.IsName name →
      (Path.joinChars host.toList name).head? ≠ some '/' := by
    intro host name hhost hname habs
    obtain ⟨cs, hcs⟩ := List.head?_eq_some_iff.1 habs
    have hs := Path.segments_joinChars hhost hname
    rw [hcs, Path.segments, if_pos rfl] at hs
    split at hs
    next => exact hname.nonempty (List.cons.inj hs).1.symm
    next hne => exact hne (List.cons.inj hs).1.symm
  rw [← String.toList_inj, toList_keytabLocation directory h₁, toList_keytabLocation directory h₂,
    Path.joinChars_left_cancel (hbelow h₁ hname₁) (hbelow h₂ hname₂), Path.joinChars_inj h₁ h₂ hname₁ hname₂,
    String.toList_inj]
  exact and_congr_right fun _ => ⟨Hex.encode_injective, fun h => h ▸ rfl⟩

end

/-- Host names without slashes and paths without collisions keep the keytabs of a data directory apart: two
locations are the same text exactly if the host names are the same and so are the digests of the paths. -/
theorem keytabs_apart (directory : String) :
    (∀ host₁ host₂ path₁ path₂ : String, '/' ∉ host₁.toList → '/' ∉ host₂.toList →
      (keytabLocation directory host₁ path₁ = keytabLocation directory host₂ path₂ ↔
        host₁ = host₂ ∧ Digest.Sha1.digest path₁.toUTF8.toList = Digest.Sha1.digest path₂.toUTF8.toList)) ∧
    ∀ keytabs : Set (String × String), (∀ k ∈ keytabs, '/' ∉ k.1.toList) →
      Digest.Sha1.CollisionFree (Prod.snd '' keytabs) →
      Set.InjOn (fun k : String × String => keytabLocation directory k.1 k.2) keytabs := by
  constructor
  · intro host₁ host₂ path₁ path₂ h₁ h₂
    exact keytabLocation_inj h₁ h₂ directory path₁ path₂
  · intro keytabs hhosts hfree k hk l hl h
    obtain ⟨hhost, hdigest⟩ := (keytabLocation_inj (hhosts k hk) (hhosts l hl) directory k.2 l.2).1 h
    have hpath := hfree (Set.mem_image_of_mem _ hk) (Set.mem_image_of_mem _ hl) hdigest
    exact Prod.ext hhost hpath

/-- Below the empty directory, a host without a name and one with a name have keytabs of their own, also of the
same path. -/
theorem keytabs_apart_nameless :
    keytabLocation "" "" "/k" ≠ keytabLocation "" "h" "/k" ∧
      Set.InjOn (fun k : String × String => keytabLocation "" k.1 k.2) {("", "/k"), ("h", "/k"), ("h", "/l")} := by
  constructor
  · intro h
    have hhost := (((keytabs_apart "").1 "" "h" "/k" "/k" (by decide) (by decide)).1 h).1
    exact absurd hhost (by decide)
  · refine (keytabs_apart "").2 _ (by simp) ?_
    have hdigests : Digest.Sha1.digest "/k".toUTF8.toList ≠ Digest.Sha1.digest "/l".toUTF8.toList := by
      decide +kernel
    have himage : Prod.snd '' {("", "/k"), ("h", "/k"), ("h", "/l")} = ({"/k", "/l"} : Set String) := by
      simp [Set.image_insert_eq]
    rw [himage]
    exact Set.injOn_pair.2 fun h => absurd h hdigests

end FleetSync
