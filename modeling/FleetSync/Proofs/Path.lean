import FleetSync.Path
import FleetSync.Text.AsciiCase

/-!
What joining paths does to their parts.

A path that does not start at the root adds its parts to those of the directory that it is joined to, all but a
leading dot, which says nothing below a directory (`parts_joinChars`). So it leads downwards from there exactly
if it has no step to the parent. Under an empty directory a leading dot remains, and a path that starts at the
root takes the place of the directory altogether. These are the only ways to leave it (`within_join_iff`).

A path of a single part leads one step down, to this part, whatever stands behind it in the text
(`parts_join_of_parts`). Paths that are joined one after another are joined as one (`joinChars_joinChars`), and
the directory can be told from what is joined to it (`joinChars_left_cancel`).
-/
namespace FleetSync.Path

/-! ### Segments -/

theorem segments_ne_nil (cs : List Char) : segments cs ≠ [] := by
  cases cs with
  | nil => exact List.cons_ne_nil _ _
  | cons c cs =>
    rw [segments]
    split
    next => exact List.cons_ne_nil _ _
    next =>
      split
      next => exact List.cons_ne_nil _ _
      next => exact List.cons_ne_nil _ _

/-- A slash keeps the segments before it from those behind it. -/
theorem segments_append_slash (cs ds : List Char) :
    segments (cs ++ '/' :: ds) = segments cs ++ segments ds := by
  induction cs with
  | nil => rfl
  | cons c cs ih =>
    rw [List.cons_append, segments, segments, ih]
    split
    next => rfl
    next =>
      cases hs : segments cs with
      | nil => exact absurd hs (segments_ne_nil cs)
      | cons s rest => rfl

/-- There are no slashes in a segment. -/
theorem not_mem_of_mem_segments {cs s : List Char} (hs : s ∈ segments cs) : '/' ∉ s := by
  induction cs generalizing s with
  | nil => simp_all [segments]
  | cons c cs ih =>
    by_cases hc : c = '/'
    · simp only [segments, hc, if_true, List.mem_cons] at hs
      rcases hs with rfl | hs
      · simp
      · exact ih hs
    · obtain ⟨t, rest, ht⟩ := List.exists_cons_of_ne_nil (segments_ne_nil cs)
      simp only [segments, if_neg hc, ht, List.mem_cons] at hs ih
      rcases hs with rfl | hs
      · simp [Ne.symm hc, ih (.inl rfl)]
      · exact ih (.inr hs)

/-- The first segment is empty only in the empty path and in one that starts at the root. -/
theorem eq_nil_or_absolute {cs : List Char} {rest : List (List Char)} (hs : segments cs = [] :: rest) :
    cs = [] ∨ cs.head? = some '/' := by
  rcases cs with _ | ⟨c, cs⟩
  · exact .inl rfl
  · by_cases hc : c = '/'
    · simp [hc]
    · obtain ⟨t, rest', ht⟩ := List.exists_cons_of_ne_nil (segments_ne_nil cs)
      simp [segments, hc, ht] at hs

/-- A text without slashes is one segment. -/
theorem segments_of_not_mem {cs : List Char} (h : '/' ∉ cs) : segments cs = [cs] := by
  induction cs with
  | nil => rfl
  | cons c cs ih =>
    obtain ⟨hc, hcs⟩ := not_or.1 (mt List.mem_cons.2 h)
    rw [segments, if_neg (Ne.symm hc), ih hcs]

/-! ### Parts -/

/-- The parts that a path adds to those of a directory. -/
def innerParts (cs : List Char) : List Part := (segments cs).filterMap innerPart?

theorem innerParts_append_slash (cs ds : List Char) :
    innerParts (cs ++ '/' :: ds) = innerParts cs ++ innerParts ds := by
  rw [innerParts, segments_append_slash, List.filterMap_append, innerParts, innerParts]

theorem parts_slash (cs : List Char) : parts ('/' :: cs) = .root :: innerParts cs := rfl

/-- The parts of a path that does not start at the root. -/
theorem parts_of_relative {cs s : List Char} {rest : List (List Char)} (hcs : cs.head? ≠ some '/')
    (hs : segments cs = s :: rest) : parts cs = (firstPart? s).toList ++ rest.filterMap innerPart? := by
  rw [parts.eq_def]
  split
  next => exact absurd rfl hcs
  next => rw [hs]

theorem parts_append_slash {cs : List Char} (hcs : cs ≠ []) (ds : List Char) :
    parts (cs ++ '/' :: ds) = parts cs ++ innerParts ds := by
  obtain ⟨c, cs, rfl⟩ := List.exists_cons_of_ne_nil hcs
  by_cases hc : c = '/'
  · subst hc
    rw [List.cons_append, parts_slash, parts_slash, innerParts_append_slash, List.cons_append]
  · have hhead : (c :: cs).head? ≠ some '/' := by simpa using hc
    have hhead' : (c :: cs ++ '/' :: ds).head? ≠ some '/' := by simpa using hc
    obtain ⟨s, rest, hs⟩ := List.exists_cons_of_ne_nil (segments_ne_nil (c :: cs))
    have hs' : segments (c :: cs ++ '/' :: ds) = s :: (rest ++ segments ds) := by
      rw [segments_append_slash, hs, List.cons_append]
    rw [parts_of_relative hhead hs, parts_of_relative hhead' hs', List.filterMap_append, innerParts,
      List.append_assoc]

/-- Joined to a directory, a path that does not start at the root adds its own parts. -/
theorem parts_joinChars {dir below : List Char} (hdir : dir ≠ []) (hbelow : below.head? ≠ some '/') :
    parts (joinChars dir below) = parts dir ++ innerParts below := by
  rw [joinChars, if_neg hbelow]
  by_cases hlast : dir.getLast? = some '/'
  · rw [if_pos (.inr hlast)]
    obtain ⟨d, rfl⟩ := List.getLast?_eq_some_iff.1 hlast
    rw [List.append_assoc, List.singleton_append]
    by_cases hd : d = []
    · rw [hd]
      rfl
    · rw [parts_append_slash hd, parts_append_slash hd]
      exact congrArg (· ++ innerParts below) (List.append_nil _).symm
  · rw [if_neg (not_or.2 ⟨hdir, hlast⟩), parts_append_slash hdir]

theorem joinChars_nil {below : List Char} (hbelow : below.head? ≠ some '/') : joinChars [] below = below := by
  rw [joinChars, if_neg hbelow, if_pos (.inl rfl), List.nil_append]

theorem joinChars_absolute {below : List Char} (hbelow : below.head? = some '/') (dir : List Char) :
    joinChars dir below = below := if_pos hbelow

/-- What stands before a path that is joined to a directory. -/
def ahead (dir : List Char) : List Char :=
  if dir = [] ∨ dir.getLast? = some '/' then dir else dir ++ ['/']

theorem joinChars_relative {below : List Char} (hbelow : below.head? ≠ some '/') (dir : List Char) :
    joinChars dir below = ahead dir ++ below := by
  simp only [joinChars, if_neg hbelow, ahead]
  split <;> simp

theorem ahead_append (dir mid : List Char) : ahead (ahead dir ++ mid) = ahead dir ++ ahead mid := by
  rcases List.eq_nil_or_concat mid with rfl | ⟨cs, c, rfl⟩
  · by_cases hdir : dir = [] ∨ dir.getLast? = some '/' <;> simp [ahead, hdir]
  · by_cases hc : c = '/' <;> simp [ahead, hc]

/-- Joining two paths one after the other is joining them as one. -/
theorem joinChars_joinChars {mid below : List Char} (hmid : mid.head? ≠ some '/')
    (hbelow : below.head? ≠ some '/') (dir : List Char) :
    joinChars (joinChars dir mid) below = joinChars dir (joinChars mid below) := by
  have hjoin : (joinChars mid below).head? ≠ some '/' := by
    rcases mid with _ | ⟨c, cs⟩
    · rwa [joinChars_nil hbelow]
    · rw [joinChars_relative hbelow, ahead]
      split <;> simpa using hmid
  rw [joinChars_relative hmid, joinChars_relative hbelow, joinChars_relative hjoin, ahead_append,
    joinChars_relative hbelow, List.append_assoc]

theorem joinChars_left_cancel {a b : List Char} (ha : a.head? ≠ some '/') (hb : b.head? ≠ some '/')
    (dir : List Char) : joinChars dir a = joinChars dir b ↔ a = b := by
  rw [joinChars_relative ha, joinChars_relative hb, List.append_cancel_left_eq]

/-! ### Names -/

/-- A text that is the name of a file and nothing else. -/
structure IsName (cs : List Char) : Prop where
  nonempty : cs ≠ []
  one : '/' ∉ cs
  not_here : cs ≠ ['.']
  not_up : cs ≠ ['.', '.']

namespace IsName
variable {name : List Char} (h : IsName name)
include h

theorem innerPart?_eq : innerPart? name = some (.normal name) := by
  rw [innerPart?, if_neg (not_or.2 ⟨h.nonempty, h.not_here⟩), if_neg h.not_up]

theorem head_ne : name.head? ≠ some '/' := fun hhead => h.one (List.mem_of_mem_head? hhead)

end IsName

/-- The segments that say nothing. -/
theorem innerPart?_eq_none_iff {s : List Char} : innerPart? s = none ↔ s = [] ∨ s = ['.'] := by
  rw [innerPart?]
  split
  next h => simp [h]
  next h => split <;> simp [h]

theorem innerPart?_eq_normal_iff {s name : List Char} (hs : '/' ∉ s) :
    innerPart? s = some (.normal name) ↔ s = name ∧ IsName name := by
  constructor
  · intro h
    simp only [innerPart?] at h
    split at h
    next => cases h
    next hsilent =>
      split at h
      next => cases h
      next hup =>
        cases h
        exact ⟨rfl, fun h => hsilent (.inl h), hs, fun h => hsilent (.inr h), hup⟩
  · rintro ⟨rfl, h⟩
    exact h.innerPart?_eq

section
variable {cs name : List Char}

theorem relative_of_parts (h : parts cs = [.normal name]) : cs.head? ≠ some '/' := by
  intro habs
  obtain ⟨cs, rfl⟩ := List.head?_eq_some_iff.1 habs
  simp [parts_slash] at h

/-- A path is a single name if it is that name, and what follows it says nothing. -/
theorem parts_eq_name_iff :
    parts cs = [.normal name] ↔
      IsName name ∧ ∃ rest, segments cs = name :: rest ∧ ∀ s ∈ rest, s = [] ∨ s = ['.'] := by
  obtain ⟨s, rest, hs⟩ := List.exists_cons_of_ne_nil (segments_ne_nil cs)
  constructor
  · intro h
    have hrel := relative_of_parts h
    rw [parts_of_relative hrel hs, firstPart?] at h
    split at h
    next => simp at h
    next hdot =>
      cases hpart : innerPart? s with
      | none =>
        -- the first segment is empty, and then so is the path
        obtain rfl := (innerPart?_eq_none_iff.1 hpart).resolve_right hdot
        rcases eq_nil_or_absolute hs with rfl | habs
        · cases hs
          simp [innerPart?] at h
        · exact absurd habs hrel
      | some part =>
        rw [hpart] at h
        obtain ⟨rfl, hrest⟩ := List.cons.inj h
        have hslash : '/' ∉ s := not_mem_of_mem_segments (hs ▸ List.mem_cons_self)
        obtain ⟨rfl, hname⟩ := (innerPart?_eq_normal_iff hslash).1 hpart
        refine ⟨hname, rest, hs, fun x hx => ?_⟩
        exact innerPart?_eq_none_iff.1 (List.filterMap_eq_nil_iff.1 hrest x hx)
  · rintro ⟨hname, rest', hs', hrest⟩
    have hrel : cs.head? ≠ some '/' := by
      intro habs
      obtain ⟨cs, rfl⟩ := List.head?_eq_some_iff.1 habs
      simp only [segments, if_true, List.cons.injEq] at hs'
      exact hname.nonempty hs'.1.symm
    have hnone : rest'.filterMap innerPart? = [] :=
      List.filterMap_eq_nil_iff.2 fun x hx => innerPart?_eq_none_iff.2 (hrest x hx)
    rw [parts_of_relative hrel hs', firstPart?, if_neg hname.not_here, hname.innerPart?_eq, hnone]
    rfl

/-- Such a path leads one step down, whatever the directory. -/
theorem parts_join_of_parts (h : parts cs = [.normal name]) (dir : List Char) :
    parts (joinChars dir cs) = parts dir ++ [.normal name] := by
  have hrel := relative_of_parts h
  obtain ⟨hname, rest, hs, hrest⟩ := parts_eq_name_iff.1 h
  by_cases hdir : dir = []
  · rw [hdir, joinChars_nil hrel, h]
    rfl
  · have hnone : rest.filterMap innerPart? = [] :=
      List.filterMap_eq_nil_iff.2 fun x hx => innerPart?_eq_none_iff.2 (hrest x hx)
    rw [parts_joinChars hdir hrel, innerParts, hs, List.filterMap_cons_some hname.innerPart?_eq, hnone]

theorem IsName.parts_eq (h : IsName name) : parts name = [.normal name] :=
  parts_eq_name_iff.2 ⟨h, [], segments_of_not_mem h.one, List.forall_mem_nil _⟩

end

theorem isFileName_iff {p : String} : isFileName p = true ↔ ∃ name, parts p.toList = [.normal name] := by
  rw [isFileName]
  split
  next name h => simp [h]
  next h => simpa using h

/-! ### Leading downwards -/

/-- A path is that of a directory, or leads on from there by names alone. -/
def Within (dir path : String) : Prop :=
  ∃ names : List (List Char), parts path.toList = parts dir.toList ++ names.map .normal

/-- A path leads on from a directory by names alone, and by one at least. -/
def Inside (dir path : String) : Prop :=
  ∃ names : List (List Char), names ≠ [] ∧ parts path.toList = parts dir.toList ++ names.map .normal

/-- Joined to a directory, a path leads downwards. It starts at the root and is within the directory, or it has
no step to the parent and, if the directory is empty, no leading dot. -/
def Descends (dir path : String) : Prop :=
  if path.toList.head? = some '/' then Within dir path
  else .up ∉ parts path.toList ∧ (dir = "" → .here ∉ parts path.toList)

/-- Parts that are all names. -/
theorem exists_names_iff {l : List Part} :
    (∃ names : List (List Char), l = names.map .normal) ↔ .root ∉ l ∧ .here ∉ l ∧ .up ∉ l := by
  constructor
  · rintro ⟨names, rfl⟩
    simp
  · rintro ⟨hroot, hhere, hup⟩
    induction l with
    | nil => exact ⟨[], rfl⟩
    | cons part l ih =>
      rw [List.mem_cons, not_or] at hroot hhere hup
      obtain ⟨names, rfl⟩ := ih hroot.2 hhere.2 hup.2
      cases part with
      | root => exact absurd rfl hroot.1
      | here => exact absurd rfl hhere.1
      | up => exact absurd rfl hup.1
      | normal name => exact ⟨name :: names, rfl⟩

theorem innerPart?_ne (s : List Char) : innerPart? s ≠ some .root ∧ innerPart? s ≠ some .here := by
  rw [innerPart?]
  split
  · exact ⟨nofun, nofun⟩
  · split <;> exact ⟨nofun, nofun⟩

/-- Below a directory there is neither a root nor a dot. -/
theorem not_mem_innerParts (cs : List Char) : .root ∉ innerParts cs ∧ .here ∉ innerParts cs := by
  constructor <;> intro h <;> obtain ⟨s, -, hs⟩ := List.mem_filterMap.1 h
  · exact (innerPart?_ne s).1 hs
  · exact (innerPart?_ne s).2 hs

/-- The parts of a path that does not start at the root are those that it adds to a directory, except for a
leading dot. -/
theorem mem_parts_iff {cs : List Char} (hcs : cs.head? ≠ some '/') (part : Part) (hpart : part ≠ .here) :
    part ∈ parts cs ↔ part ∈ innerParts cs := by
  obtain ⟨s, rest, hs⟩ := List.exists_cons_of_ne_nil (segments_ne_nil cs)
  have hfirst : part ∈ (firstPart? s).toList ↔ part ∈ (innerPart? s).toList := by
    rw [firstPart?]
    split
    next hdot =>
      have hnone : innerPart? s = none := if_pos (.inr hdot)
      simp [hnone, hpart]
    next => rfl
  have hinner : innerParts cs = (innerPart? s).toList ++ rest.filterMap innerPart? := by
    rw [innerParts, hs, List.filterMap_cons]
    cases innerPart? s <;> rfl
  rw [parts_of_relative hcs hs, hinner, List.mem_append, List.mem_append, hfirst]

/-- Joining leads downwards exactly if the path that is joined does. -/
theorem within_join_iff (dir path : String) : Within dir (join dir path) ↔ Descends dir path := by
  rw [Within, Descends, join, String.toList_ofList]
  by_cases habs : path.toList.head? = some '/'
  · rw [if_pos habs, joinChars_absolute habs, Within]
  · obtain ⟨hroot, hhere⟩ := not_mem_innerParts path.toList
    rw [if_neg habs, mem_parts_iff habs .up nofun]
    by_cases hdir : dir = ""
    · -- nothing is put in front, so a leading dot counts
      subst hdir
      have hempty : parts "".toList = [] := rfl
      have hroot' : Part.root ∉ parts path.toList := mt (mem_parts_iff habs .root nofun).1 hroot
      rw [String.toList_empty, joinChars_nil habs, ← String.toList_empty, hempty]
      simp only [List.nil_append, exists_names_iff, mem_parts_iff habs .up nofun, hroot',
        not_false_eq_true, true_and, forall_const]
      exact and_comm
    · have hdir' : dir.toList ≠ [] := mt String.toList_eq_nil_iff.1 hdir
      simp only [parts_joinChars hdir' habs, List.append_cancel_left_eq, exists_names_iff, hroot, hhere,
        not_false_eq_true, true_and, hdir, false_implies, and_true]

/-- What is joined to a path by its name is inside a directory exactly if the path is within it. -/
theorem inside_join_iff {dir base name : String} (hname : IsName name.toList) :
    Inside dir (join base name) ↔ Within dir base := by
  rw [Inside, Within, join, String.toList_ofList, parts_join_of_parts hname.parts_eq]
  constructor
  · rintro ⟨names, hne, heq⟩
    rw [← List.dropLast_concat_getLast hne, List.map_append, ← List.append_assoc] at heq
    exact ⟨names.dropLast, List.append_inj_left' heq rfl⟩
  · rintro ⟨names, heq⟩
    refine ⟨names ++ [name.toList], List.append_ne_nil_of_right_ne_nil _ (List.cons_ne_nil _ _), ?_⟩
    rw [heq, List.map_append, List.append_assoc]
    rfl

/-- The name of a file leads downwards from any directory. -/
theorem descends_of_isFileName {path : String} (h : isFileName path = true) (dir : String) :
    Descends dir path := by
  obtain ⟨name, hparts⟩ := isFileName_iff.1 h
  rw [Descends, if_neg (relative_of_parts hparts), hparts]
  simp

/-! ### The case of letters -/

/-- The part with the letters of its name changed. -/
def Part.map (f : Char → Char) : Part → Part
  | normal name => normal (name.map f)
  | part => part

/-- The letters are changed only: slashes and dots remain, and there are no new ones. -/
structure KeepsMarks (f : Char → Char) : Prop where
  slash : ∀ c, f c = '/' ↔ c = '/'
  dot : ∀ c, f c = '.' ↔ c = '.'

namespace KeepsMarks
variable {f : Char → Char} (h : KeepsMarks f)
include h

theorem segments_map (cs : List Char) : segments (cs.map f) = (segments cs).map (List.map f) := by
  induction cs with
  | nil => rfl
  | cons c cs ih =>
    rw [List.map_cons, segments, segments, ih]
    by_cases hc : c = '/'
    · rw [if_pos hc, if_pos ((h.slash c).2 hc)]
      rfl
    · rw [if_neg hc, if_neg (mt (h.slash c).1 hc)]
      cases segments cs <;> rfl

theorem map_eq_here_iff (s : List Char) : s.map f = ['.'] ↔ s = ['.'] := by
  simp [List.map_eq_cons_iff, h.dot]

theorem innerPart?_map (s : List Char) : innerPart? (s.map f) = (innerPart? s).map (.map f) := by
  have hup : s.map f = ['.', '.'] ↔ s = ['.', '.'] := by simp [List.map_eq_cons_iff, h.dot]
  simp only [innerPart?, List.map_eq_nil_iff, h.map_eq_here_iff, hup]
  split
  next => rfl
  next => split <;> rfl

theorem firstPart?_map (s : List Char) : firstPart? (s.map f) = (firstPart? s).map (.map f) := by
  simp only [firstPart?, h.map_eq_here_iff, h.innerPart?_map]
  split <;> rfl

theorem filterMap_map (l : List (List Char)) :
    (l.map (List.map f)).filterMap innerPart? = (l.filterMap innerPart?).map (.map f) := by
  rw [List.filterMap_map, List.map_filterMap]
  exact congrArg (List.filterMap · l) (funext h.innerPart?_map)

/-- Each part is of the same kind as before. -/
theorem parts_map (cs : List Char) : parts (cs.map f) = (parts cs).map (.map f) := by
  cases cs with
  | nil => rfl
  | cons c cs =>
    by_cases hc : c = '/'
    · rw [List.map_cons, (h.slash c).2 hc, hc, parts_slash, parts_slash, innerParts, h.segments_map,
        h.filterMap_map]
      rfl
    · have hhead : (c :: cs).head? ≠ some '/' := by simpa using hc
      have hhead' : ((c :: cs).map f).head? ≠ some '/' := by simpa [h.slash] using hc
      obtain ⟨s, rest, hs⟩ := List.exists_cons_of_ne_nil (segments_ne_nil (c :: cs))
      have hs' : segments ((c :: cs).map f) = s.map f :: rest.map (List.map f) := by
        rw [h.segments_map, hs, List.map_cons]
      rw [parts_of_relative hhead hs, parts_of_relative hhead' hs', h.firstPart?_map, h.filterMap_map,
        List.map_append, Option.toList_map]

theorem isFileName_map (p : String) : isFileName (String.ofList (p.toList.map f)) = isFileName p := by
  rw [isFileName, isFileName, String.toList_ofList, h.parts_map]
  rcases parts p.toList with _ | ⟨_ | _ | _ | _, _ | _⟩ <;> rfl

end KeepsMarks

/-- Only letters are made small, and they are made letters. -/
theorem toLower_eq_iff {c mark : Char} (hmark : mark.val < 65) : c.toLower = mark ↔ c = mark := by
  delta Char.toLower
  split
  next hcapital =>
    have hA : 65 ≤ c.val := hcapital.1
    have hZ : c.val ≤ 90 := hcapital.2
    rw [Char.ext_iff, Char.ext_iff]
    show c.val + 32 = mark.val ↔ c.val = mark.val
    grind
  next => rfl

theorem keepsMarks_toLower : KeepsMarks Char.toLower where
  slash _ := toLower_eq_iff (by decide)
  dot _ := toLower_eq_iff (by decide)

/-- Whether a text is the name of a file does not depend on the case of its letters. -/
theorem isFileName_of_sameIgnoringCase {s t : String} (h : Text.sameIgnoringCase s t = true) :
    isFileName s = isFileName t := by
  have hlower : Text.toAsciiLower s = Text.toAsciiLower t := of_decide_eq_true h
  rw [← keepsMarks_toLower.isFileName_map s, ← keepsMarks_toLower.isFileName_map t]
  exact congrArg isFileName hlower

end FleetSync.Path
