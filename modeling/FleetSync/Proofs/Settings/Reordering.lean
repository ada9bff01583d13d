import FleetSync.Proofs.Settings.Resolving

/-!
Settings do not depend on the order of entries.

Settings are merged from tables, and these come to their entries in any order, another one each time. So each layer may
be laid in any of the orders of its entries (`Setting.Reordered`), and `Settings.Loads` is loading with any of them.
A layer that gives no field two values gives each the same one in all orders, and displaces the same sections
(`Layer.alike_of_reordered`). So whatever the orders were, settings are resolved by the layers as they are written
(`Settings.Loads.resolved`), and where no section is displaced, there are no two results (`Settings.eq_of_loads`).
-/
namespace FleetSync

open Setting (Step)

/-! ### Orders of entries -/

/-- The same entries in another order, also those of tables inside. Lists are left as they are, since no field is read
from one. -/
inductive Setting.Reordered : {κ : Type} → List (κ × Setting) → List (κ × Setting) → Prop
  | nil {κ : Type} : Reordered ([] : List (κ × Setting)) []
  | cons {κ : Type} (e : κ × Setting) {l m : List (κ × Setting)} (h : Reordered l m) : Reordered (e :: l) (e :: m)
  | table {κ : Type} (k : κ) {entries others : List (String × Setting)} {l m : List (κ × Setting)}
      (hinner : Reordered entries others) (h : Reordered l m) :
      Reordered ((k, .table entries) :: l) ((k, .table others) :: m)
  | swap {κ : Type} (a b : κ × Setting) (l : List (κ × Setting)) : Reordered (a :: b :: l) (b :: a :: l)
  | trans {κ : Type} {l m n : List (κ × Setting)} (h : Reordered l m) (h' : Reordered m n) : Reordered l n

namespace Setting.Reordered
variable {κ : Type} {l m : List (κ × Setting)}

theorem of_perm (h : l.Perm m) : Reordered l m := by
  induction h with
  | nil => exact .nil
  | cons e _ ih => exact .cons e ih
  | swap a b l => exact .swap b a l
  | trans _ _ ih ih' => exact ih.trans ih'

/-- What is read off entries one by one comes in another order, if it does so for a table with its entries in another
order. -/
theorem perm_flatMap {β : Type} (h : Reordered l m) {g : κ × Setting → List β}
    (hg : ∀ k entries others, Reordered entries others → (g (k, .table entries)).Perm (g (k, .table others))) :
    (l.flatMap g).Perm (m.flatMap g) := by
  induction h with
  | nil => exact .refl _
  | cons e _ ih => exact (ih hg).append_left _
  | table k hinner _ _ ih => exact (hg k _ _ hinner).append (ih hg)
  | swap a b l =>
    rw [List.flatMap_cons, List.flatMap_cons, List.flatMap_cons, List.flatMap_cons, ← List.append_assoc,
      ← List.append_assoc]
    exact List.perm_append_comm.append_right _
  | trans _ _ ih ih' => exact (ih hg).trans (ih' hg)

end Setting.Reordered

/-! ### Layers -/

namespace Settings.Field

/-- All values that an entry of a layer gives to a field. -/
def givens (f : Field) : List Step × Setting → List Setting
  | ([.name s, .name n], v) => if s = f.sectionName ∧ n = f.name then v.single?.toList else []
  | ([.name s], .table entries) =>
    if s = f.sectionName then entries.filterMap (Setting.givenIn? f.name) else []
  | _ => []

/-- The last of them counts. -/
theorem given?_eq (f : Field) (e : List Step × Setting) : f.given? e = (f.givens e).getLast? := by
  rw [given?.eq_def]
  split
  next s n v =>
    rw [givens]
    split
    · cases v.single? <;> rfl
    · rfl
  next s entries =>
    rw [givens]
    split
    · rw [lastGiven, Option.or_none]
    · rfl
  next hfield hsection =>
    rw [givens.eq_3 f e hfield hsection]
    rfl

/-- A table with its entries in another order gives the same values in another order. -/
theorem perm_givens (f : Field) (path : List Step) {entries others : List (String × Setting)}
    (h : Setting.Reordered entries others) :
    (f.givens (path, .table entries)).Perm (f.givens (path, .table others)) := by
  rcases path with _ | ⟨s | i, _ | ⟨n | j, _ | ⟨step, path⟩⟩⟩
  case cons.name.nil =>
    rw [givens, givens]
    split
    · rw [List.filterMap_eq_flatMap_toList, List.filterMap_eq_flatMap_toList]
      -- inside the table of a section, a table gives no value
      refine h.perm_flatMap fun name _ _ _ => ?_
      rw [Setting.givenIn?, Setting.givenIn?]
      exact .refl _
    · exact .refl _
  all_goals exact .refl _

end Settings.Field

namespace Layer
variable {l m : Layer}

/-- The same layer in another order of its entries. -/
def Reordered (l m : Layer) : Prop := Setting.Reordered l m

theorem reordered_refl (l : Layer) : l.Reordered l := .of_perm (.refl l)

/-- The layer gives no field two values. -/
def GivesOnce (l : Layer) : Prop := ∀ f : Settings.Field, (l.flatMap f.givens).length ≤ 1

/-- Two layers give the same values and displace the same sections. -/
structure Alike (l m : Layer) : Prop where
  value?_eq : ∀ f : Settings.Field, l.value? f = m.value? f
  displaces_iff : ∀ sectionName, l.Displaces sectionName ↔ m.Displaces sectionName

theorem value?_eq_getLast? (l : Layer) (f : Settings.Field) : l.value? f = (l.flatMap f.givens).getLast? := by
  rw [value?, lastGiven, Option.or_none, List.getLast?_filterMap, List.getLast?_flatMap]
  exact congrArg (l.reverse.findSome? ·) (funext f.given?_eq)

/-- Whether the entries of a table are in one order or another plays no part in displacing a section. -/
theorem displacing_table (sectionName : String) (path : List Step) (entries others : List (String × Setting)) :
    displacing sectionName (path, .table entries) = displacing sectionName (path, .table others) := by
  rcases path with _ | ⟨s | i, _ | ⟨n | j, path⟩⟩ <;> rfl

/-- A layer in another order of its entries says the same, if it gives no field two values. -/
theorem alike_of_reordered (h : l.Reordered m) (honce : l.GivesOnce) : l.Alike m where
  value?_eq f := by
    have hperm : (l.flatMap f.givens).Perm (m.flatMap f.givens) :=
      h.perm_flatMap fun path _ _ => f.perm_givens path
    have heq : l.flatMap f.givens = m.flatMap f.givens := by
      have hlength := honce f
      rcases hvalues : l.flatMap f.givens with _ | ⟨v, _ | ⟨w, rest⟩⟩ <;> rw [hvalues] at hperm hlength
      · exact hperm.nil_eq
      · exact (List.singleton_perm.1 hperm)
      · simp at hlength
    rw [value?_eq_getLast?, value?_eq_getLast?, heq]
  displaces_iff sectionName := by
    have hperm : (l.flatMap fun e => [displacing sectionName e]).Perm
        (m.flatMap fun e => [displacing sectionName e]) := h.perm_flatMap fun path entries others _ => by
      rw [displacing_table sectionName path entries others]
    have hmem : ∀ l : Layer, l.Displaces sectionName ↔ true ∈ l.flatMap fun e => [displacing sectionName e] := by
      intro l
      simp [Displaces]
    rw [hmem, hmem, hperm.mem_iff]

theorem givesOnce_ofSettings (s : Settings) : (ofSettings s).GivesOnce := by
  intro f
  cases f <;> exact Nat.le_refl 1

end Layer

/-! ### Loading -/

namespace Settings
variable {line others : List Layer} {s s' : Settings}

/-- Settings are resolved by any layers that say the same. -/
theorem Resolved.congr (h : Resolved others s) (hline : List.Forall₂ Layer.Alike line others) : Resolved line s := by
  rintro f above winner below v rfl habove hv hdisplaced
  have habove' := List.forall₂_take_append _ _ _ hline.flip
  have hpartner : ∀ m ∈ others.take above.length, ∃ l ∈ above, l.Alike m := fun m hm =>
    exists_of_mem_right habove'.flip hm
  obtain ⟨winner', below', hwinner, -, hbelow⟩ :=
    List.forall₂_cons_right_iff.1 (List.forall₂_drop_append _ _ _ hline.flip)
  refine h f (others.take above.length) winner' below' v ?_ (fun m hm => ?_) ?_ ?_
  · rw [← hbelow, List.take_append_drop]
  · obtain ⟨l, hl, halike⟩ := hpartner m hm
    rw [← halike.value?_eq, habove l hl]
  · rw [← hwinner.value?_eq, hv]
  · rw [List.forall_mem_cons] at hdisplaced ⊢
    refine ⟨fun hd => hdisplaced.1 ((hwinner.displaces_iff _).2 hd), fun m hm hd => ?_⟩
    obtain ⟨l, hl, halike⟩ := hpartner m hm
    exact hdisplaced.2 l hl ((halike.displaces_iff _).2 hd)

/-- Layers that are laid in any order of their entries resolve what comes of it. -/
theorem resolved_of_reordered (hline : List.Forall₂ Layer.Reordered line others) (honce : ∀ l ∈ line, l.GivesOnce)
    (h : ofLayers others.reverse = .ok s) : Resolved line s := by
  have hboth := (List.forall₂_and_left line others).2 ⟨honce, hline⟩
  exact (resolved_of_ofLayers h).congr (hboth.imp fun l m hlm => Layer.alike_of_reordered hlm.2 hlm.1)

section
variable {env : OrdMap String String} {files : Files} {names : List String}

/-- Settings are loaded, with files laid over them one after another, where each time the entries of the layers are
laid in some order. -/
inductive Loads (env : OrdMap String String) (files : Files) : List String → Settings → Prop
  | load {layers line : List Layer} {s : Settings} (hread : Read files (env.get? pathVariable).toList layers)
      (hline : List.Forall₂ Layer.Reordered (Layer.ofEnvironment env :: (layers ++ [.ofSettings {}])) line)
      (h : ofLayers line.reverse = .ok s) : Loads env files [] s
  | withFile {names : List String} {name : String} {s s' : Settings} {l : Layer} {line : List Layer}
      (hs : Loads env files names s) (hl : SettingsFile.layer files name = .ok l)
      (hline : List.Forall₂ Layer.Reordered [Layer.ofEnvironment env, l, .ofSettings s] line)
      (h : ofLayers line.reverse = .ok s') : Loads env files (names ++ [name]) s'

/-- Whatever the orders were, settings are resolved by the environment, the files from the last one back, and the
defaults. -/
theorem Loads.resolved (h : Loads env files names s) :
    ∃ layers, Read files (names.reverse ++ (env.get? pathVariable).toList) layers ∧
      ((∀ l ∈ Layer.ofEnvironment env :: layers, l.GivesOnce) →
        Resolved (.ofEnvironment env :: (layers ++ [.ofSettings {}])) s) := by
  induction h with
  | @load layers line s hread hline h =>
    refine ⟨layers, hread, fun honce => resolved_of_reordered hline ?_ h⟩
    rw [← List.cons_append]
    exact List.forall_mem_append.2 ⟨honce, List.forall_mem_singleton.2 (Layer.givesOnce_ofSettings {})⟩
  | @withFile names name s s' l line _ hl hline h ih =>
    obtain ⟨layers, hread, hresolved⟩ := ih
    refine ⟨l :: layers, ?_, fun honce => ?_⟩
    · rw [List.reverse_append, List.reverse_singleton, List.singleton_append, List.cons_append]
      exact .cons hl hread
    · rw [List.forall_mem_cons, List.forall_mem_cons] at honce
      obtain ⟨henvironment, hfile, hlayers⟩ := honce
      refine (hresolved (List.forall_mem_cons.2 ⟨henvironment, hlayers⟩)).withFile (resolved_of_reordered hline ?_ h)
      rw [List.forall_mem_cons, List.forall_mem_cons, List.forall_mem_singleton]
      exact ⟨henvironment, hfile, Layer.givesOnce_ofSettings s⟩

theorem Loads.withFiles {before : List String} (h : Loads env files before s)
    (hrun : names.foldlM (fun s name => s.withFile env files name) s = .ok s') :
    Loads env files (before ++ names) s' := by
  induction names generalizing before s with
  | nil =>
    cases hrun
    rwa [List.append_nil]
  | cons name names ih =>
    rw [List.foldlM_cons] at hrun
    obtain ⟨s₁, hs₁, hrun⟩ := bind_eq_ok_iff.1 hrun
    obtain ⟨l, hl, hlayers⟩ := bind_eq_ok_iff.1 hs₁
    have hstep : Loads env files (before ++ [name]) s₁ :=
      .withFile h hl (List.forall₂_same.2 fun l _ => l.reordered_refl) hlayers
    rw [List.append_cons]
    exact ih hstep hrun

/-- The order in which layers are written is one of them. -/
theorem loads_of_loadWith (h : loadWith env files names = .ok s) : Loads env files names s := by
  obtain ⟨loaded, hloaded, hrun⟩ := bind_eq_ok_iff.1 h
  have hsame : ∀ line : List Layer, List.Forall₂ Layer.Reordered line line := fun line =>
    List.forall₂_same.2 fun l _ => l.reordered_refl
  have hfirst : Loads env files [] loaded := by
    rw [load] at hloaded
    cases hname : env.get? pathVariable with
    | none =>
      rw [hname] at hloaded
      have hread : Read files (env.get? pathVariable).toList [] := by
        rw [hname]
        exact .nil
      exact .load hread (hsame _) hloaded
    | some name =>
      rw [hname] at hloaded
      obtain ⟨l, hl, hloaded⟩ := bind_eq_ok_iff.1 hloaded
      have hread : Read files (env.get? pathVariable).toList [l] := by
        rw [hname]
        exact .cons hl .nil
      exact .load hread (hsame _) hloaded
  exact hfirst.withFiles hrun

/-! ### One result -/

/-- Settings with the same values of all fields are the same. -/
theorem eq_of_fields (h : ∀ f : Field, f.of s = f.of s') : s = s' := by
  obtain ⟨⟨_⟩, ⟨_⟩, ⟨_, _, _, _⟩, ⟨_, _⟩⟩ := s
  obtain ⟨⟨_⟩, ⟨_⟩, ⟨_, _, _, _⟩, ⟨_, _⟩⟩ := s'
  cases h .topologyTopic
  cases h .configsTopic
  cases h .commandsTopic
  cases h .unassignedClusterId
  cases h .customCommandParam
  cases h .traceCommands
  cases h .identityFileName
  cases h .dataDirectoryParam
  rfl

/-- Layers in line over known settings resolve one result, if none of them displaces a section. -/
theorem Resolved.unique {known : Settings} (h : Resolved (line ++ [.ofSettings known]) s)
    (h' : Resolved (line ++ [.ofSettings known]) s')
    (hdisplaced : ∀ l ∈ line, ∀ f : Field, ¬ l.Displaces f.sectionName) : s = s' := by
  refine eq_of_fields fun f => ?_
  have hdefault : ((Layer.ofSettings known).value? f).isSome = true := by
    rw [Layer.value?_ofSettings]
    rfl
  obtain ⟨above, winner, below, v, hline, habove, hv⟩ := exists_winner hdefault line
  have hnone : ∀ l ∈ winner :: above, ¬ l.Displaces f.sectionName := by
    intro l hl
    have hmem : l ∈ line ++ [Layer.ofSettings known] := by
      rw [hline, List.mem_append, List.mem_cons]
      rcases List.mem_cons.1 hl with rfl | hl
      · exact .inr (.inl rfl)
      · exact .inl hl
    rcases List.mem_append.1 hmem with hl | hl
    · exact hdisplaced l hl f
    · rw [List.mem_singleton.1 hl]
      exact Layer.not_displaces_ofSettings known _
  exact Option.some.inj ((h f above winner below v hline habove hv hnone).symm.trans
    (h' f above winner below v hline habove hv hnone))

/-- In whatever orders the entries of layers are laid, what is loaded is the same, if no layer gives a field two values
and none displaces a section. -/
theorem loads_iff (h : loadWith env files names = .ok s)
    (hlayers : ∀ layers, Read files (names.reverse ++ (env.get? pathVariable).toList) layers →
      ∀ l ∈ Layer.ofEnvironment env :: layers, l.GivesOnce ∧ ∀ f : Field, ¬ l.Displaces f.sectionName) :
    Loads env files names s' ↔ s' = s := by
  constructor
  · intro h'
    obtain ⟨layers, hread, hresolved⟩ := (loads_of_loadWith h).resolved
    obtain ⟨layers', hread', hresolved'⟩ := h'.resolved
    have hunique : Relator.RightUnique fun name l => SettingsFile.layer files name = .ok l := fun _ _ _ hl hm =>
      Except.ok.inj (hl.symm.trans hm)
    obtain rfl : layers = layers' := List.right_unique_forall₂' hunique hread hread'
    have honce : ∀ l ∈ Layer.ofEnvironment env :: layers, l.GivesOnce := fun l hl => (hlayers layers hread l hl).1
    exact (hresolved' honce).unique (hresolved honce) fun l hl => (hlayers layers hread l hl).2
  · rintro rfl
    exact loads_of_loadWith h

end

/-- A variable that is there in two cases of its letters gives a field two values, and the order decides. -/
example :
    let twice := Layer.ofEnvironment
      (((∅ : OrdMap String String).insert "AGENT_SYNC__TOPOLOGY__DESTINATION" "/a").insert
        "agent_sync__topology__destination" "/b")
    ofLayers [twice] = .ok { topology := { destination := "/b" } } ∧
      ofLayers [twice.reverse] = .ok { topology := { destination := "/a" } } := by
  decide +kernel

end Settings
end FleetSync
