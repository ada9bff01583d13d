import FleetSync.Ordered.Key

/-!
Finite sets listed in strictly ascending order.

Host references are sets: writing one lists each member once, in order, and two sets with the same
members are the same value (`ext_mem`). Membership is the view of every operation.
-/
namespace FleetSync

/-- Members in strictly ascending order, hence each of them once. -/
structure OrdSet (κ : Type) [LT κ] where
  toList : List κ
  ascending : toList.Pairwise (· < ·)

namespace OrdSet
variable {κ : Type} [LT κ]

theorem ext_toList {s t : OrdSet κ} (h : s.toList = t.toList) : s = t := by
  cases s; cases t; cases h; rfl

instance [DecidableEq κ] : DecidableEq (OrdSet κ) := fun s t =>
  if h : s.toList = t.toList then .isTrue (ext_toList h) else .isFalse fun e => h (e ▸ rfl)

/-- No member at all. -/
def empty : OrdSet κ := ⟨[], .nil⟩

instance : EmptyCollection (OrdSet κ) := ⟨empty⟩
instance : Inhabited (OrdSet κ) := ⟨empty⟩
instance : Membership κ (OrdSet κ) := ⟨fun s k => k ∈ s.toList⟩

instance [DecidableEq κ] (k : κ) (s : OrdSet κ) : Decidable (k ∈ s) :=
  inferInstanceAs (Decidable (k ∈ s.toList))

theorem mem_def {k : κ} {s : OrdSet κ} : k ∈ s ↔ k ∈ s.toList := Iff.rfl

def isEmpty (s : OrdSet κ) : Bool := s.toList.isEmpty

/-- Puts one member in its place, unless it is there. -/
def put [DecidableLT κ] (k : κ) : List κ → List κ
  | [] => [k]
  | a :: rest => if k < a then k :: a :: rest else if a < k then a :: put k rest else a :: rest

theorem mem_put [DecidableLT κ] [LinearKey κ] {k x : κ} {l : List κ} :
    x ∈ put k l ↔ x = k ∨ x ∈ l := by
  induction l with
  | nil => simp [put]
  | cons a rest ih =>
    rw [put]
    split
    next => simp
    next hk =>
      split
      next => simp only [List.mem_cons, ih]; grind
      next hk' => simp [LinearKey.connected _ _ hk hk']

theorem put_ascending [DecidableLT κ] [LinearKey κ] (k : κ) {l : List κ}
    (h : l.Pairwise (· < ·)) : (put k l).Pairwise (· < ·) := by
  induction l with
  | nil => simp [put]
  | cons a rest ih =>
    obtain ⟨ha, hrest⟩ := List.pairwise_cons.1 h
    rw [put]
    split
    next hk =>
      refine List.pairwise_cons.2 ⟨fun x hx => ?_, h⟩
      rcases List.mem_cons.1 hx with rfl | hx
      · exact hk
      · exact LinearKey.trans _ _ _ hk (ha x hx)
    next =>
      split
      next hk' =>
        refine List.pairwise_cons.2 ⟨fun x hx => ?_, ih hrest⟩
        rcases mem_put.1 hx with rfl | hx
        · exact hk'
        · exact ha x hx
      next => exact h

/-- Adds one member. -/
def insert [DecidableLT κ] [LinearKey κ] (s : OrdSet κ) (k : κ) : OrdSet κ :=
  ⟨put k s.toList, put_ascending k s.ascending⟩

/-- The set of the members of a list. -/
def ofList [DecidableLT κ] [LinearKey κ] (l : List κ) : OrdSet κ := l.foldl insert empty

/-- The members of either set. -/
def union [DecidableLT κ] [LinearKey κ] (s t : OrdSet κ) : OrdSet κ := t.toList.foldl insert s

/-- The members of `s` that are not in `t`. -/
def diff [DecidableEq κ] (s t : OrdSet κ) : OrdSet κ :=
  ⟨s.toList.filter (fun k => k ∉ t), s.ascending.filter _⟩

@[simp] theorem toList_empty : (empty : OrdSet κ).toList = [] := rfl

@[simp] theorem isEmpty_empty : (∅ : OrdSet κ).isEmpty = true := rfl

@[simp] theorem not_mem_empty (k : κ) : k ∉ (empty : OrdSet κ) := by simp [mem_def]

@[simp] theorem mem_insert [DecidableLT κ] [LinearKey κ] {s : OrdSet κ} {k x : κ} :
    x ∈ s.insert k ↔ x = k ∨ x ∈ s := mem_put

theorem mem_foldl_insert [DecidableLT κ] [LinearKey κ] {l : List κ} {s : OrdSet κ} {x : κ} :
    x ∈ l.foldl insert s ↔ x ∈ s ∨ x ∈ l := by
  induction l generalizing s with
  | nil => simp
  | cons a rest ih => simp only [List.foldl_cons, ih, mem_insert, List.mem_cons]; grind

@[simp] theorem mem_ofList [DecidableLT κ] [LinearKey κ] {l : List κ} {x : κ} :
    x ∈ ofList l ↔ x ∈ l := by simp [ofList, mem_foldl_insert]

@[simp] theorem mem_union [DecidableLT κ] [LinearKey κ] {s t : OrdSet κ} {x : κ} :
    x ∈ s.union t ↔ x ∈ s ∨ x ∈ t := mem_foldl_insert

@[simp] theorem mem_diff [DecidableEq κ] {s t : OrdSet κ} {x : κ} :
    x ∈ s.diff t ↔ x ∈ s ∧ x ∉ t := by simp [diff, mem_def]

/-- Ascending lists with the same members are the same list. -/
theorem eq_of_mem_iff [LinearKey κ] {l r : List κ} (hl : l.Pairwise (· < ·))
    (hr : r.Pairwise (· < ·)) (h : ∀ k, k ∈ l ↔ k ∈ r) : l = r := by
  induction l generalizing r with
  | nil => cases r with
    | nil => rfl
    | cons b r => exact absurd ((h b).2 List.mem_cons_self) List.not_mem_nil
  | cons a l ih => cases r with
    | nil => exact absurd ((h a).1 List.mem_cons_self) List.not_mem_nil
    | cons b r =>
      obtain ⟨ha, hl'⟩ := List.pairwise_cons.1 hl
      obtain ⟨hb, hr'⟩ := List.pairwise_cons.1 hr
      have hab : a = b := by
        rcases List.mem_cons.1 ((h a).1 List.mem_cons_self) with h' | h'
        · exact h'
        rcases List.mem_cons.1 ((h b).2 List.mem_cons_self) with h'' | h''
        · exact h''.symm
        · exact absurd (LinearKey.trans _ _ _ (ha b h'') (hb a h')) (LinearKey.irrefl _)
      subst hab
      rw [ih hl' hr']
      intro x
      have hx := h x
      simp only [List.mem_cons] at hx
      constructor
      · intro hm
        rcases hx.1 (.inr hm) with rfl | h'
        · exact absurd (ha _ hm) (LinearKey.irrefl _)
        · exact h'
      · intro hm
        rcases hx.2 (.inr hm) with rfl | h'
        · exact absurd (hb _ hm) (LinearKey.irrefl _)
        · exact h'

/-- Two sets with the same members are the same set. -/
theorem ext_mem [LinearKey κ] {s t : OrdSet κ} (h : ∀ k, k ∈ s ↔ k ∈ t) : s = t :=
  ext_toList (eq_of_mem_iff s.ascending t.ascending h)

theorem isEmpty_iff {s : OrdSet κ} : s.isEmpty = true ↔ s = ∅ := by
  constructor
  · intro h
    exact ext_toList (List.isEmpty_iff.1 h)
  · rintro rfl
    rfl

@[simp] theorem diff_empty [DecidableEq κ] (s : OrdSet κ) : s.diff ∅ = s := by
  refine ext_toList (List.filter_eq_self.2 fun k _ => ?_)
  exact decide_eq_true (not_mem_empty k)

theorem union_assoc [DecidableLT κ] [LinearKey κ] (s t u : OrdSet κ) :
    (s.union t).union u = s.union (t.union u) :=
  ext_mem fun k => by simp only [mem_union, or_assoc]

@[simp] theorem union_self [DecidableLT κ] [LinearKey κ] (s : OrdSet κ) : s.union s = s :=
  ext_mem fun k => by simp only [mem_union, or_self]

@[simp] theorem diff_self [DecidableEq κ] [LinearKey κ] (s : OrdSet κ) : s.diff s = ∅ :=
  ext_mem fun k => iff_of_false (fun h => (mem_diff.1 h).2 (mem_diff.1 h).1) (not_mem_empty k)

@[simp] theorem diff_diff_self [DecidableEq κ] [LinearKey κ] (s t : OrdSet κ) :
    (s.diff t).diff t = s.diff t :=
  ext_mem fun k => by simp only [mem_diff, and_assoc, and_self]

/-- A set is the set of its members. -/
@[simp] theorem ofList_toList [DecidableLT κ] [LinearKey κ] (s : OrdSet κ) :
    ofList s.toList = s := by
  refine ext_mem fun k => ?_
  rw [mem_ofList, mem_def]

end OrdSet
end FleetSync
