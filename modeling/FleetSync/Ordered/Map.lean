import FleetSync.Ordered.Entries
import FleetSync.Ordered.Key

/-!
Finite maps whose entries stand in strictly ascending order of their keys.

The order makes a map its own canonical form: two maps with the same entries are the same value
(`ext_get?`), so whatever is written out of one, a JSON object for instance, is determined by what
it holds. `get?` is the view; each operation says what it does to it.
-/
namespace FleetSync

/-- Entries in strictly ascending key order, hence at most one for a key. -/
structure OrdMap (κ α : Type) [LT κ] where
  toList : List (κ × α)
  ascending : toList.Pairwise (fun a b => a.1 < b.1)

namespace OrdMap
variable {κ α β : Type} [LT κ]

theorem ext_toList {m n : OrdMap κ α} (h : m.toList = n.toList) : m = n := by
  cases m; cases n; cases h; rfl

instance [DecidableEq κ] [DecidableEq α] : DecidableEq (OrdMap κ α) := fun m n =>
  if h : m.toList = n.toList then .isTrue (ext_toList h) else .isFalse fun e => h (e ▸ rfl)

/-- No entry at all. -/
def empty : OrdMap κ α := ⟨[], .nil⟩

instance : EmptyCollection (OrdMap κ α) := ⟨empty⟩
instance : Inhabited (OrdMap κ α) := ⟨empty⟩

def isEmpty (m : OrdMap κ α) : Bool := m.toList.isEmpty

def size (m : OrdMap κ α) : Nat := m.toList.length

def keys (m : OrdMap κ α) : List κ := m.toList.map (·.1)

def values (m : OrdMap κ α) : List α := m.toList.map (·.2)

/-- The value at a key. -/
def get? [DecidableEq κ] (m : OrdMap κ α) (k : κ) : Option α := m.toList.lookup k

def contains [DecidableEq κ] (m : OrdMap κ α) (k : κ) : Bool := (m.get? k).isSome

/-- Puts one entry in its place, over the one with its key if there is one. -/
def put [DecidableLT κ] (k : κ) (v : α) : List (κ × α) → List (κ × α)
  | [] => [(k, v)]
  | e :: rest =>
    if k < e.1 then (k, v) :: e :: rest
    else if e.1 < k then e :: put k v rest
    else (k, v) :: rest

theorem mem_put [DecidableLT κ] {k : κ} {v : α} {e : κ × α} {l : List (κ × α)}
    (h : e ∈ put k v l) : e = (k, v) ∨ e ∈ l := by
  induction l with
  | nil => simpa [put] using h
  | cons d rest ih => grind [put]

theorem put_ascending [DecidableLT κ] [LinearKey κ] (k : κ) (v : α) {l : List (κ × α)}
    (h : l.Pairwise (fun a b => a.1 < b.1)) : (put k v l).Pairwise (fun a b => a.1 < b.1) := by
  induction l with
  | nil => simp [put]
  | cons d rest ih =>
    obtain ⟨hd, hrest⟩ := List.pairwise_cons.1 h
    rw [put]
    split
    next hk =>
      refine List.pairwise_cons.2 ⟨fun e he => ?_, h⟩
      rcases List.mem_cons.1 he with rfl | he
      · exact hk
      · exact LinearKey.trans _ _ _ hk (hd e he)
    next hk =>
      split
      next hk' =>
        refine List.pairwise_cons.2 ⟨fun e he => ?_, ih hrest⟩
        rcases mem_put he with rfl | he
        · exact hk'
        · exact hd e he
      next hk' =>
        have e : k = d.1 := LinearKey.connected _ _ hk hk'
        exact List.pairwise_cons.2 ⟨fun x hx => by simpa [e] using hd x hx, hrest⟩

/-- Sets the value at a key. -/
def insert [DecidableLT κ] [LinearKey κ] (m : OrdMap κ α) (k : κ) (v : α) : OrdMap κ α :=
  ⟨put k v m.toList, put_ascending k v m.ascending⟩

/-- Drops the entry of a key, if there is one. -/
def erase [DecidableEq κ] (m : OrdMap κ α) (k : κ) : OrdMap κ α :=
  ⟨m.toList.filter (fun e => e.1 ≠ k), m.ascending.filter _⟩

/-- Changes every value and no key. -/
def map (f : α → β) (m : OrdMap κ α) : OrdMap κ β :=
  ⟨m.toList.map (fun e => (e.1, f e.2)), List.pairwise_map.2 m.ascending⟩

/-- The map of a list of entries; of several entries for a key the last one counts. -/
def ofList [DecidableLT κ] [LinearKey κ] (entries : List (κ × α)) : OrdMap κ α :=
  entries.foldl (fun m e => m.insert e.1 e.2) empty

/-- Every entry of `upper` set in `base`. -/
def overlay [DecidableLT κ] [LinearKey κ] (base upper : OrdMap κ α) : OrdMap κ α :=
  upper.toList.foldl (fun m e => m.insert e.1 e.2) base

@[simp] theorem toList_empty : (empty : OrdMap κ α).toList = [] := rfl

@[simp] theorem toList_map (f : α → β) (m : OrdMap κ α) :
    (m.map f).toList = m.toList.map (fun e => (e.1, f e.2)) := rfl

@[simp] theorem get?_empty [DecidableEq κ] (k : κ) : (empty : OrdMap κ α).get? k = none := rfl

theorem lookup_put [DecidableEq κ] [DecidableLT κ] [LinearKey κ] (k x : κ) (v : α)
    (l : List (κ × α)) : (put k v l).lookup x = if x = k then some v else l.lookup x := by
  induction l with
  | nil => simp [put, Entries.lookup_cons_eq]
  | cons d rest ih =>
    rw [put]
    split
    next hk => simp [Entries.lookup_cons_eq]
    next hk =>
      split
      next hk' =>
        have hne : d.1 ≠ k := fun e => LinearKey.irrefl k (by simpa [e] using hk')
        simp only [Entries.lookup_cons_eq, ih]
        grind
      next hk' =>
        have e : k = d.1 := LinearKey.connected _ _ hk hk'
        simp only [Entries.lookup_cons_eq]
        grind

@[simp] theorem get?_insert [DecidableEq κ] [DecidableLT κ] [LinearKey κ] (m : OrdMap κ α)
    (k x : κ) (v : α) : (m.insert k v).get? x = if x = k then some v else m.get? x :=
  lookup_put k x v m.toList

@[simp] theorem get?_erase [DecidableEq κ] (m : OrdMap κ α) (k x : κ) :
    (m.erase k).get? x = if x = k then none else m.get? x :=
  Entries.lookup_filter_ne k x m.toList

@[simp] theorem get?_map [DecidableEq κ] (f : α → β) (m : OrdMap κ α) (k : κ) :
    (m.map f).get? k = (m.get? k).map f :=
  Entries.lookup_map_snd f k m.toList

theorem get?_eq_some_iff [DecidableEq κ] [LinearKey κ] (m : OrdMap κ α) (k : κ) (v : α) :
    m.get? k = some v ↔ (k, v) ∈ m.toList := by
  obtain ⟨l, hl⟩ := m
  show l.lookup k = some v ↔ (k, v) ∈ l
  induction l with
  | nil => simp
  | cons d rest ih =>
    obtain ⟨hd, hrest⟩ := List.pairwise_cons.1 hl
    obtain ⟨dk, dv⟩ := d
    rw [Entries.lookup_cons_eq, List.mem_cons, ← ih hrest]
    by_cases h : k = dk
    · subst h
      have hnot : rest.lookup k ≠ some v := fun hm =>
        LinearKey.irrefl k (hd _ ((ih hrest).1 hm))
      simp [hnot, eq_comm]
    · simp [h]

@[simp] theorem length_values (m : OrdMap κ α) : m.values.length = m.size := List.length_map ..

theorem mem_values_iff [DecidableEq κ] [LinearKey κ] {m : OrdMap κ α} {v : α} :
    v ∈ m.values ↔ ∃ k, m.get? k = some v := by
  simp [values, get?_eq_some_iff]

theorem keys_ascending (m : OrdMap κ α) : m.keys.Pairwise (· < ·) := List.pairwise_map.2 m.ascending

/-- No key has two entries. -/
theorem nodup_keys [LinearKey κ] (m : OrdMap κ α) : m.keys.Nodup :=
  List.pairwise_map.2 <| m.ascending.imp fun {a b} (hlt : a.1 < b.1) (heq : a.1 = b.1) =>
    LinearKey.irrefl b.1 (heq ▸ hlt)

/-- Ascending lists with the same members are the same list. -/
theorem eq_of_mem_iff [LinearKey κ] {l r : List (κ × α)} (hl : l.Pairwise (fun a b => a.1 < b.1))
    (hr : r.Pairwise (fun a b => a.1 < b.1)) (h : ∀ e, e ∈ l ↔ e ∈ r) : l = r := by
  induction l generalizing r with
  | nil => cases r with
    | nil => rfl
    | cons e r => exact absurd ((h e).2 List.mem_cons_self) List.not_mem_nil
  | cons d l ih => cases r with
    | nil => exact absurd ((h d).1 List.mem_cons_self) List.not_mem_nil
    | cons e r =>
      obtain ⟨hd, hl'⟩ := List.pairwise_cons.1 hl
      obtain ⟨he, hr'⟩ := List.pairwise_cons.1 hr
      have hde : d = e := by
        rcases List.mem_cons.1 ((h d).1 List.mem_cons_self) with h' | h'
        · exact h'
        rcases List.mem_cons.1 ((h e).2 List.mem_cons_self) with h'' | h''
        · exact h''.symm
        · exact absurd (LinearKey.trans _ _ _ (hd e h'') (he d h')) (LinearKey.irrefl _)
      subst hde
      rw [ih hl' hr']
      intro x
      have hx := h x
      simp only [List.mem_cons] at hx
      constructor
      · intro hm
        rcases hx.1 (.inr hm) with rfl | h'
        · exact absurd (hd _ hm) (LinearKey.irrefl _)
        · exact h'
      · intro hm
        rcases hx.2 (.inr hm) with rfl | h'
        · exact absurd (he _ hm) (LinearKey.irrefl _)
        · exact h'

/-- Two maps that answer alike are the same map. -/
theorem ext_get? [DecidableEq κ] [LinearKey κ] {m n : OrdMap κ α}
    (h : ∀ k, m.get? k = n.get? k) : m = n :=
  ext_toList (eq_of_mem_iff m.ascending n.ascending fun ⟨k, v⟩ => by
    rw [← get?_eq_some_iff, ← get?_eq_some_iff, h])

theorem mem_keys_iff [DecidableEq κ] [LinearKey κ] {m : OrdMap κ α} {k : κ} :
    k ∈ m.keys ↔ (m.get? k).isSome = true := by
  simp [keys, Option.isSome_iff_exists, get?_eq_some_iff]

/-- Maps with entries for the same keys have the same keys in the same order. -/
theorem keys_eq_of_mem_iff [DecidableEq κ] [LinearKey κ] {m : OrdMap κ α} {n : OrdMap κ β}
    (h : ∀ k, k ∈ m.keys ↔ k ∈ n.keys) : m.keys = n.keys := by
  have hkeys : ∀ {γ : Type} (o : OrdMap κ γ), (o.map fun _ => ()).keys = o.keys := fun _ => List.map_map
  have hunit : (m.map fun _ => ()) = n.map fun _ => () := ext_get? fun k => by
    have hk := h k
    rw [mem_keys_iff, mem_keys_iff] at hk
    rw [get?_map, get?_map]
    cases hm : m.get? k <;> cases hn : n.get? k <;> simp_all
  rw [← hkeys m, hunit, hkeys]

theorem nodup_toList [LinearKey κ] (m : OrdMap κ α) : m.toList.Nodup :=
  m.ascending.imp fun {a b} (hlt : a.1 < b.1) (heq : a = b) => LinearKey.irrefl b.1 (heq ▸ hlt)

theorem erase_eq_self [DecidableEq κ] [LinearKey κ] {m : OrdMap κ α} {k : κ}
    (h : m.get? k = none) : m.erase k = m :=
  ext_get? fun x => by
    rw [get?_erase]
    split
    next hx => rw [hx, h]
    next => rfl

theorem insert_eq_self [DecidableEq κ] [DecidableLT κ] [LinearKey κ] {m : OrdMap κ α} {k : κ}
    {v : α} (h : m.get? k = some v) : m.insert k v = m :=
  ext_get? fun x => by
    rw [get?_insert]
    split
    next hx => rw [hx, h]
    next => rfl

/-- Of two values for one key the later one counts. -/
@[simp] theorem insert_insert [DecidableEq κ] [DecidableLT κ] [LinearKey κ] (m : OrdMap κ α) (k : κ)
    (v w : α) : (m.insert k v).insert k w = m.insert k w :=
  ext_get? fun x => by
    simp only [get?_insert]
    split <;> rfl

/-- What a map holds once an entry is set: that entry, and all it held for other keys. -/
theorem toList_insert_perm [DecidableEq κ] [DecidableLT κ] [LinearKey κ] (m : OrdMap κ α) (k : κ)
    (v : α) : (m.insert k v).toList.Perm ((k, v) :: (m.erase k).toList) := by
  have hnot : (k, v) ∉ (m.erase k).toList := by
    rw [← get?_eq_some_iff, get?_erase, if_pos rfl]
    exact nofun
  refine (List.perm_ext_iff_of_nodup (nodup_toList _)
    (List.nodup_cons.2 ⟨hnot, nodup_toList _⟩)).2 fun ⟨x, y⟩ => ?_
  rw [List.mem_cons, ← get?_eq_some_iff, ← get?_eq_some_iff, get?_insert, get?_erase, Prod.mk.injEq]
  by_cases hx : x = k
  · simp [hx, eq_comm]
  · simp [hx]

theorem isEmpty_iff {m : OrdMap κ α} : m.isEmpty = true ↔ m = ∅ := by
  constructor
  · intro h
    exact ext_toList (List.isEmpty_iff.1 h)
  · rintro rfl
    rfl

/-- A key above all others goes to the end. -/
theorem put_of_forall_lt [DecidableLT κ] [LinearKey κ] {k : κ} {v : α} {l : List (κ × α)}
    (h : ∀ e ∈ l, e.1 < k) : put k v l = l ++ [(k, v)] := by
  induction l with
  | nil => rfl
  | cons d rest ih =>
    have hd : d.1 < k := h d List.mem_cons_self
    have hn : ¬ k < d.1 := fun hk => LinearKey.irrefl _ (LinearKey.trans _ _ _ hk hd)
    rw [put, if_neg hn, if_pos hd, ih fun e he => h e (List.mem_cons_of_mem _ he)]
    rfl

/-- Entries in ascending order, all above those of a map, follow them. -/
theorem toList_foldl_insert [DecidableLT κ] [LinearKey κ] {l : List (κ × α)} {m : OrdMap κ α}
    (h : (m.toList ++ l).Pairwise (fun a b => a.1 < b.1)) :
    (l.foldl (fun m e => m.insert e.1 e.2) m).toList = m.toList ++ l := by
  induction l generalizing m with
  | nil => simp
  | cons d rest ih =>
    have hput : (m.insert d.1 d.2).toList = m.toList ++ [d] := by
      refine put_of_forall_lt fun e he => ?_
      exact (List.pairwise_append.1 h).2.2 e he d List.mem_cons_self
    have hrest : ((m.insert d.1 d.2).toList ++ rest).Pairwise (fun a b => a.1 < b.1) := by
      rw [hput, List.append_assoc]
      exact h
    rw [List.foldl_cons, ih hrest, hput, List.append_assoc]
    rfl

/-- A map is the map of its entries. -/
@[simp] theorem ofList_toList [DecidableLT κ] [LinearKey κ] (m : OrdMap κ α) :
    ofList m.toList = m := by
  refine ext_toList ?_
  rw [ofList, toList_foldl_insert] <;> simp [m.ascending]

/-- Of several entries set for a key the last one counts. -/
theorem get?_foldl_insert [DecidableEq κ] [DecidableLT κ] [LinearKey κ] (l : List (κ × α))
    (m : OrdMap κ α) (k : κ) :
    (l.foldl (fun m e => m.insert e.1 e.2) m).get? k = (l.reverse.lookup k).or (m.get? k) := by
  induction l generalizing m with
  | nil => rfl
  | cons d rest ih =>
    rw [List.foldl_cons, ih, get?_insert, List.reverse_cons, List.lookup_append, Option.or_assoc,
      Entries.lookup_cons_eq]
    split <;> rfl

/-- Where the upper map has a value it counts, and otherwise that of the lower one. -/
@[simp] theorem get?_overlay [DecidableEq κ] [DecidableLT κ] [LinearKey κ] (base upper : OrdMap κ α)
    (k : κ) : (base.overlay upper).get? k = (upper.get? k).or (base.get? k) := by
  have hupper : upper.toList.reverse.lookup k = upper.get? k := by
    have h := get?_foldl_insert upper.toList empty k
    rw [← ofList, ofList_toList, get?_empty, Option.or_none] at h
    exact h.symm
  rw [overlay, get?_foldl_insert, hupper]

theorem overlay_assoc [DecidableEq κ] [DecidableLT κ] [LinearKey κ] (m n o : OrdMap κ α) :
    (m.overlay n).overlay o = m.overlay (n.overlay o) :=
  ext_get? fun k => by simp only [get?_overlay, Option.or_assoc]

@[simp] theorem overlay_self [DecidableEq κ] [DecidableLT κ] [LinearKey κ] (m : OrdMap κ α) :
    m.overlay m = m :=
  ext_get? fun k => by rw [get?_overlay, Option.or_self]

/-- The map of entries for different keys has these entries. -/
theorem get?_ofList_eq_some_iff [DecidableEq κ] [DecidableLT κ] [LinearKey κ] {l : List (κ × α)}
    (h : (l.map (·.1)).Nodup) {k : κ} {v : α} : (ofList l).get? k = some v ↔ (k, v) ∈ l := by
  have hr : (l.reverse.map (·.1)).Nodup := by
    rw [List.map_reverse]
    exact List.pairwise_reverse.2 (h.imp Ne.symm)
  rw [ofList, get?_foldl_insert, get?_empty, Option.or_none, Entries.lookup_eq_some_iff_of_nodup hr,
    List.mem_reverse]

/-- Setting an entry so that there is one more item in it makes one more item in the map. -/
theorem flatMap_insert_perm [DecidableEq κ] [DecidableLT κ] [LinearKey κ] {items : κ × α → List β}
    {m : OrdMap κ α} {k : κ} {v : α} {x : β}
    (h : (items (k, v)).Perm (x :: ((m.get? k).elim [] fun w => items (k, w)))) :
    ((m.insert k v).toList.flatMap items).Perm (x :: m.toList.flatMap items) := by
  have hset : ((m.insert k v).toList.flatMap items).Perm
      (items (k, v) ++ (m.erase k).toList.flatMap items) :=
    (toList_insert_perm m k v).flatMap_right items
  refine hset.trans ((h.append_right _).trans (List.Perm.cons x ?_))
  cases hk : m.get? k with
  | none => rw [erase_eq_self hk]; rfl
  | some w =>
    have hw := (toList_insert_perm m k w).flatMap_right items
    rw [insert_eq_self hk] at hw
    exact hw.symm

end OrdMap
end FleetSync
