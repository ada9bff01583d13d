/-!
Association lists: what is looked up in them, and entries that keep their places.

Every law says what an operation does to `lookup`. Setting the entry of a name changes what is looked
up under that name and nothing else (`lookup_set`).
-/
namespace FleetSync.Entries

variable {κ α β : Type} [DecidableEq κ]

theorem lookup_cons_eq (d : κ × α) (rest : List (κ × α)) (x : κ) :
    (d :: rest).lookup x = if x = d.1 then some d.2 else rest.lookup x := by
  by_cases h : x = d.1
  · rw [if_pos h, List.lookup_cons, beq_iff_eq.2 h]
  · rw [if_neg h, List.lookup_cons, beq_false_of_ne h]

theorem lookup_filter_ne (k x : κ) (l : List (κ × α)) :
    (l.filter (fun e => e.1 ≠ k)).lookup x = if x = k then none else l.lookup x := by
  induction l with
  | nil => simp
  | cons d rest ih =>
    rw [List.filter_cons]
    split <;> simp only [lookup_cons_eq, ih] <;> grind

theorem lookup_map_snd (f : α → β) (k : κ) (l : List (κ × α)) :
    (l.map (fun e => (e.1, f e.2))).lookup k = (l.lookup k).map f := by
  induction l with
  | nil => rfl
  | cons d rest ih =>
    simp only [List.map_cons, lookup_cons_eq, ih]
    split <;> rfl

/-- Where every name has one entry, what is looked up is what is there. -/
theorem lookup_eq_some_iff_of_nodup {l : List (κ × α)} (h : (l.map (·.1)).Nodup) {k : κ} {v : α} :
    l.lookup k = some v ↔ (k, v) ∈ l := by
  induction l with
  | nil => simp
  | cons d rest ih =>
    obtain ⟨hd, hrest⟩ := List.nodup_cons.1 h
    rw [lookup_cons_eq, List.mem_cons]
    by_cases hk : k = d.1
    · have hnot : (k, v) ∉ rest := fun hm => hd (List.mem_map.2 ⟨(k, v), hm, hk⟩)
      rw [if_pos hk, or_iff_left hnot, Option.some.injEq, Prod.ext_iff]
      exact ⟨fun hv => ⟨hk, hv.symm⟩, fun hv => hv.2.symm⟩
    · have hne : (k, v) ≠ d := fun hd => hk (congrArg Prod.fst hd)
      rw [if_neg hk, or_iff_right hne, ih hrest]

/-- The entries with that of a name changed, or added at the end. -/
def set (name : κ) (v : α) : List (κ × α) → List (κ × α)
  | [] => [(name, v)]
  | (k, old) :: rest => if k = name then (k, v) :: rest else (k, old) :: set name v rest

theorem lookup_set (name : κ) (v : α) (l : List (κ × α)) (x : κ) :
    (set name v l).lookup x = if x = name then some v else l.lookup x := by
  induction l with
  | nil => simp [set, lookup_cons_eq]
  | cons d rest ih =>
    rw [set]
    split <;> simp only [lookup_cons_eq, ih] <;> grind

end FleetSync.Entries
