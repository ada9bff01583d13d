import FleetSync.Operation
import Mathlib.Data.List.Forall2

/-!
Going through a list with a step that may fail.

A pass comes to results for all members (`mapM_eq_ok_iff`) or ends at the first member whose step
fails (`mapM_eq_error_iff`), and what stands behind that member plays no part. Where a step also works
on a state, `Op.Yields` says that its outcome is the same on every state and that it leaves a given
part of the state alone. What each step yields, a whole pass yields (`Op.Yields.mapM`). Where an operation
may come to different outcomes, `Op.Preserves` says what holds of the state after all of them, `Op.Passes`
and `Op.FailsAfter` which states a pass goes through, and `Op.Agrees` that two operations, on states that go
together, come to the same outcome.
-/
namespace FleetSync

variable {α β : Type}

/-- The fault of the first member that fails: those before it do not fail at all. -/
def FirstFailure (fails : α → Fault → Prop) (l : List α) (f : Fault) : Prop :=
  ∃ before x after, l = before ++ x :: after ∧ (∀ y ∈ before, ∀ g, ¬ fails y g) ∧ fails x f

namespace FirstFailure
variable {fails fails' : α → Fault → Prop} {l : List α} {f : Fault}

theorem not_nil : ¬ FirstFailure fails [] f := by
  rintro ⟨before, x, after, h, -⟩
  cases before <;> cases h

/-- A list fails with its head, or with its tail if the head does not fail. -/
theorem cons_iff {x : α} :
    FirstFailure fails (x :: l) f ↔ fails x f ∨ (∀ g, ¬ fails x g) ∧ FirstFailure fails l f := by
  constructor
  · rintro ⟨before, y, after, h, hb, hy⟩
    cases before with
    | nil =>
      obtain ⟨rfl, rfl⟩ := List.cons.inj h
      exact .inl hy
    | cons b before =>
      obtain ⟨rfl, rfl⟩ := List.cons.inj h
      exact .inr ⟨hb x List.mem_cons_self,
        before, y, after, rfl, fun z hz => hb z (List.mem_cons_of_mem _ hz), hy⟩
  · rintro (h | ⟨hx, before, y, after, rfl, hb, hy⟩)
    · exact ⟨[], x, l, rfl, nofun, h⟩
    · refine ⟨x :: before, y, after, rfl, fun z hz => ?_, hy⟩
      rcases List.mem_cons.1 hz with rfl | hz
      · exact hx
      · exact hb z hz

/-- A list with a first failure has a member that fails. -/
theorem exists_mem (h : FirstFailure fails l f) : ∃ x ∈ l, fails x f := by
  obtain ⟨before, x, after, rfl, -, hx⟩ := h
  exact ⟨x, List.mem_append_right _ List.mem_cons_self, hx⟩

/-- Lists that go together member by member, with members that fail alike, fail alike. -/
theorem forall₂_iff {γ : Type} {R : α → γ → Prop} {fails' : γ → Fault → Prop} {l' : List γ}
    (hl : List.Forall₂ R l l') (h : ∀ x y, R x y → ∀ g, fails x g ↔ fails' y g) :
    FirstFailure fails l f ↔ FirstFailure fails' l' f := by
  induction hl with
  | nil => exact iff_of_false not_nil not_nil
  | cons hxy _ ih =>
    rw [cons_iff, cons_iff, ih]
    simp only [h _ _ hxy]

/-- A list whose members do not all fail differently fails somewhere or nowhere. -/
theorem none_or_exists (fails : α → Fault → Prop) (l : List α) :
    (∀ x ∈ l, ∀ f, ¬ fails x f) ∨ ∃ f, FirstFailure fails l f := by
  induction l with
  | nil => exact .inl nofun
  | cons x l ih =>
    by_cases hx : ∃ f, fails x f
    · obtain ⟨f, hf⟩ := hx
      exact .inr ⟨f, cons_iff.2 (.inl hf)⟩
    · have hx' : ∀ f, ¬ fails x f := fun f hf => hx ⟨f, hf⟩
      rcases ih with h | ⟨f, hf⟩
      · exact .inl fun y hy => (List.mem_cons.1 hy).elim (fun e => e ▸ hx') (h y)
      · exact .inr ⟨f, cons_iff.2 (.inr ⟨hx', hf⟩)⟩

end FirstFailure

/-- Lists that go together with the same list in between go together. -/
theorem forall₂_trans {γ : Type} {R : α → β → Prop} {S : β → γ → Prop} {T : α → γ → Prop}
    (h : ∀ x y z, R x y → S y z → T x z) {l : List α} {m : List β} {n : List γ}
    (hlm : List.Forall₂ R l m) (hmn : List.Forall₂ S m n) : List.Forall₂ T l n := by
  induction hlm generalizing n with
  | nil =>
    cases hmn
    exact .nil
  | cons hxy _ ih =>
    cases hmn with
    | cons hyz hmn => exact .cons (h _ _ _ hxy hyz) (ih hmn)

theorem exists_of_mem_right {R : α → β → Prop} {l : List α} {m : List β} (h : List.Forall₂ R l m)
    {y : β} (hy : y ∈ m) : ∃ x ∈ l, R x y := by
  induction h with
  | nil => cases hy
  | @cons x _ _ _ hxy _ ih =>
    rcases List.mem_cons.1 hy with rfl | hy
    · exact ⟨x, List.mem_cons_self, hxy⟩
    · obtain ⟨x', hx', h⟩ := ih hy
      exact ⟨x', List.mem_cons_of_mem _ hx', h⟩

/-- All beginnings of a list, the empty one and those with its first member. -/
theorem forall_prefix_cons_iff {P : List α → Prop} {x : α} {l : List α} :
    (∀ past, past <+: x :: l → P past) ↔ P [] ∧ ∀ past, past <+: l → P (x :: past) := by
  constructor
  · intro h
    exact ⟨h [] List.nil_prefix, fun past hpast => h (x :: past) ((List.prefix_cons_inj x).2 hpast)⟩
  · rintro ⟨hnil, hcons⟩ past hpast
    rcases List.prefix_cons_iff.1 hpast with rfl | ⟨rest, rfl, hrest⟩
    · exact hnil
    · exact hcons rest hrest

/-! ### The last value given -/

/-- What the last delta that gives a value gives, or else the old value. -/
def lastGiven {α β : Type} (old : Option β) (value? : α → Option β) (deltas : List α) : Option β :=
  (deltas.filterMap value?).getLast?.or old

theorem lastGiven_cons {α β : Type} (old : Option β) (value? : α → Option β) (d : α) (deltas : List α) :
    lastGiven old value? (d :: deltas) = lastGiven ((value? d).or old) value? deltas := by
  rw [lastGiven, lastGiven]
  cases hd : value? d with
  | none => rw [List.filterMap_cons_none hd, Option.none_or]
  | some v =>
    rw [List.filterMap_cons_some hd, List.getLast?_cons]
    cases (deltas.filterMap value?).getLast? <;> rfl

theorem lastGiven_append (old : Option β) (value? : α → Option β) (l m : List α) :
    lastGiven old value? (l ++ m) = lastGiven (lastGiven old value? l) value? m := by
  rw [lastGiven, lastGiven, lastGiven, List.filterMap_append, List.getLast?_append, Option.or_assoc]

theorem exists_of_lastGiven {value? : α → Option β} {deltas : List α} {v : β}
    (h : lastGiven none value? deltas = some v) : ∃ d ∈ deltas, value? d = some v := by
  rw [lastGiven, Option.or_none] at h
  exact List.mem_filterMap.1 (List.mem_of_getLast? h)

theorem isSome_lastGiven {α β : Type} (old : Option β) (value? : α → Option β) (deltas : List α) :
    (lastGiven old value? deltas).isSome = true ↔
      old.isSome = true ∨ ∃ d ∈ deltas, (value? d).isSome = true := by
  induction deltas generalizing old with
  | nil => simp [lastGiven]
  | cons d deltas ih =>
    rw [lastGiven_cons, ih, Option.isSome_or, Bool.or_eq_true, List.exists_mem_cons_iff]
    tauto

theorem lastGiven_none_or (old : Option β) (value? : α → Option β) (deltas : List α) :
    lastGiven old value? deltas = (lastGiven none value? deltas).or old := by
  simp [lastGiven]

/-- Where each step makes its own value hold, and one that gives none keeps whatever value holds, the last value
given holds after all steps. -/
theorem foldl_lastGiven {σ : Type} {step : σ → α → σ} {value? : α → Option β} {P : β → σ → Prop} {deltas : List α}
    (hgive : ∀ d ∈ deltas, ∀ v s, value? d = some v → P v (step s d))
    (hkeep : ∀ d ∈ deltas, ∀ v s, value? d = none → P v s → P v (step s d)) {old : Option β} {s : σ}
    (hold : ∀ v, old = some v → P v s) {v : β} (hv : lastGiven old value? deltas = some v) :
    P v (deltas.foldl step s) := by
  induction deltas generalizing old s with
  | nil => exact hold v hv
  | cons d deltas ih =>
    rw [lastGiven_cons] at hv
    refine ih (fun e he => hgive e (List.mem_cons_of_mem _ he)) (fun e he => hkeep e (List.mem_cons_of_mem _ he))
      (fun w hw => ?_) hv
    cases hd : value? d with
    | some x =>
      rw [hd, Option.some_or] at hw
      cases hw
      exact hgive d List.mem_cons_self _ s hd
    | none =>
      rw [hd, Option.none_or] at hw
      exact hkeep d List.mem_cons_self w s hd (hold w hw)

/-- Where each step leaves the last value that its items give, all steps leave the last one that the items of all of
them give. -/
theorem view_foldl {σ δ : Type} {step : σ → δ → σ} {items : δ → List α} {value? : α → Option β}
    (view : σ → Option β) (h : ∀ s d, view (step s d) = lastGiven (view s) value? (items d)) (deltas : List δ)
    (s : σ) : view (deltas.foldl step s) = lastGiven (view s) value? (deltas.flatMap items) := by
  induction deltas generalizing s with
  | nil => simp [lastGiven]
  | cons d deltas ih => rw [List.foldl_cons, ih, h, List.flatMap_cons, lastGiven_append]

/-- So where each step itself gives a value or keeps the one that holds. -/
theorem view_foldl_each {σ : Type} {step : σ → α → σ} {value? : α → Option β} (view : σ → Option β)
    (h : ∀ s d, view (step s d) = (value? d).or (view s)) (deltas : List α) (s : σ) :
    view (deltas.foldl step s) = lastGiven (view s) value? deltas := by
  have hone : ∀ s d, view (step s d) = lastGiven (view s) value? [d] := fun s d => by
    rw [h, lastGiven_cons]
    rfl
  have hrun := view_foldl view hone deltas s
  rwa [List.flatMap_singleton'] at hrun

/-! ### Steps without a state -/

section
variable {ε γ : Type} {r : Except ε α} {next : α → Except ε γ} {g : α → γ} {f : ε} {z : γ}

theorem bind_eq_ok_iff : r >>= next = .ok z ↔ ∃ x, r = .ok x ∧ next x = .ok z := by
  cases r <;> simp [bind, Except.bind]

theorem bind_eq_error_iff :
    r >>= next = .error f ↔ r = .error f ∨ ∃ x, r = .ok x ∧ next x = .error f := by
  cases r <;> simp [bind, Except.bind]

theorem map_eq_ok_iff : r.map g = .ok z ↔ ∃ x, r = .ok x ∧ g x = z := by
  cases r <;> simp [Except.map]

theorem map_map {δ : Type} {g' : γ → δ} : (r.map g).map g' = r.map fun x => g' (g x) := by
  cases r <;> rfl

theorem map_eq_error_iff : r.map g = .error f ↔ r = .error f := by
  cases r <;> simp [Except.map]

end

/-- A pass over a list comes to results exactly when its steps do, one by one. -/
theorem mapM_eq_ok_iff {step : α → Except Fault β} {l : List α} {out : List β} :
    l.mapM step = .ok out ↔ List.Forall₂ (fun x y => step x = .ok y) l out := by
  induction l generalizing out with
  | nil => simp [pure, Except.pure, eq_comm]
  | cons x l ih =>
    rw [List.mapM_cons, List.forall₂_cons_left_iff]
    cases hx : step x with
    | error f => simp [bind, Except.bind]
    | ok y =>
      cases hl : l.mapM step with
      | error f =>
        have hno : ∀ ys, ¬ List.Forall₂ (fun x y => step x = .ok y) l ys := fun ys h => by
          rw [← ih, hl] at h
          cases h
        simp [bind, Except.bind, hno]
      | ok ys =>
        have hys : ∀ zs, List.Forall₂ (fun x y => step x = .ok y) l zs ↔ ys = zs := fun zs => by
          rw [← ih, hl, Except.ok.injEq]
        simp [bind, Except.bind, pure, Except.pure, hys, eq_comm]

/-- A pass over a list fails exactly with its first step that fails. -/
theorem mapM_eq_error_iff {step : α → Except Fault β} {l : List α} {f : Fault} :
    l.mapM step = .error f ↔ FirstFailure (fun x g => step x = .error g) l f := by
  induction l with
  | nil => exact iff_of_false nofun FirstFailure.not_nil
  | cons x l ih =>
    rw [List.mapM_cons, FirstFailure.cons_iff, ← ih]
    cases hx : step x with
    | error g => simp [bind, Except.bind]
    | ok y => cases hl : l.mapM step <;> simp [bind, Except.bind, pure, Except.pure]

/-- A pass over a list, seen from a list that goes together with it: it ends where the first member
of that one fails, or none fails and it comes to the results of all its steps. -/
theorem mapM_cases {γ : Type} {R : γ → α → Prop} {fails : γ → Fault → Prop}
    {step : α → Except Fault β} {l : List γ} {l' : List α} (hl : List.Forall₂ R l l')
    (h : ∀ x y, R x y → ∀ f, fails x f ↔ step y = .error f) :
    (∃ f, l'.mapM step = .error f ∧ FirstFailure fails l f) ∨
    ∃ out, l'.mapM step = .ok out ∧ (∀ x ∈ l, ∀ f, ¬ fails x f) ∧
      List.Forall₂ (fun y z => step y = .ok z) l' out := by
  cases hm : l'.mapM step with
  | error f => exact .inl ⟨f, rfl, (FirstFailure.forall₂_iff hl h).2 (mapM_eq_error_iff.1 hm)⟩
  | ok out =>
    refine .inr ⟨out, rfl, ?_, mapM_eq_ok_iff.1 hm⟩
    rcases FirstFailure.none_or_exists fails l with hno | ⟨f, hf⟩
    · exact hno
    · exact nomatch hm.symm.trans (mapM_eq_error_iff.2 ((FirstFailure.forall₂_iff hl h).1 hf))

/-! ### Steps on a state -/

namespace Op
variable {σ τ : Type} {keep : σ → τ}

/-- On every state the operation comes to the outcome `r`, and leaves `keep` of the state as it was. -/
def Yields (keep : σ → τ) (op : Op σ β) (r : Except Fault β) : Prop :=
  ∀ s, (op.on s).1 = r ∧ keep (op.on s).2 = keep s

theorem yields_pure (v : β) : Yields keep (pure v : Op σ β) (.ok v) := fun _ => ⟨rfl, rfl⟩

theorem yields_throw (f : Fault) : Yields keep (throw f : Op σ β) (.error f) := fun _ => ⟨rfl, rfl⟩

theorem yields_ofExcept (r : Except Fault β) : Yields keep (ofExcept r : Op σ β) r := fun s => by
  rw [on_ofExcept]
  exact ⟨rfl, rfl⟩

/-- A change of the state that `keep` does not see. -/
theorem yields_modify {g : σ → σ} (h : ∀ s, keep (g s) = keep s) :
    Yields keep (modify g : Op σ PUnit) (.ok ⟨⟩) := fun s => ⟨rfl, h s⟩

namespace Yields

/-- One operation after another. -/
theorem bind {γ : Type} {op : Op σ α} {next : α → Op σ γ} {r : Except Fault α}
    {r' : α → Except Fault γ} (h : Yields keep op r)
    (hn : ∀ v, r = .ok v → Yields keep (next v) (r' v)) : Yields keep (op >>= next) (r >>= r') := by
  intro s
  obtain ⟨h₁, h₂⟩ := h s
  rw [on_bind]
  rcases hop : op.on s with ⟨_ | v, t⟩
  · rw [hop] at h₁ h₂
    subst h₁
    exact ⟨rfl, h₂⟩
  · rw [hop] at h₁ h₂
    subst h₁
    obtain ⟨h₃, h₄⟩ := hn v rfl t
    exact ⟨h₃, h₄.trans h₂⟩

/-- An operation after one that always comes to `v`. -/
theorem after {γ : Type} {op : Op σ α} {next : α → Op σ γ} {v : α} {r : Except Fault γ}
    (h : Yields keep op (.ok v)) (hn : Yields keep (next v) r) : Yields keep (op >>= next) r := by
  have hr : (Except.ok v >>= fun _ => r) = r := rfl
  rw [← hr]
  refine h.bind fun w hw => ?_
  cases hw
  exact hn

/-- The result of an operation, changed. -/
theorem map {γ : Type} {op : Op σ α} {g : α → γ} {r : Except Fault α} (h : Yields keep op r) :
    Yields keep (op >>= fun v => pure (g v)) (r.map g) := by
  have hg : r.map g = r >>= fun v => .ok (g v) := by cases r <;> rfl
  rw [hg]
  exact h.bind fun v _ => yields_pure (g v)

theorem eq_of_on {op : Op σ β} {r r' : Except Fault β} {s t : σ} (h : Yields keep op r)
    (hrun : op.on s = (r', t)) : r = r' := by
  rw [← (h s).1, hrun]

/-- What comes after an operation that fails is not done. -/
theorem on_bind_error {γ : Type} {op : Op σ α} {f : Fault} (h : Yields keep op (.error f))
    (next : α → Op σ γ) (s : σ) :
    ∃ s', keep s' = keep s ∧ (op >>= next).on s = (.error f, s') := by
  obtain ⟨hr, hk⟩ := h s
  refine ⟨_, hk, ?_⟩
  rw [on_bind, ← Prod.eta (op.on s), hr]

/-- What comes after an operation is done on a state that looks the same to `keep`. -/
theorem on_bind_ok {γ : Type} {op : Op σ α} {v : α} (h : Yields keep op (.ok v))
    (next : α → Op σ γ) (s : σ) :
    ∃ s', keep s' = keep s ∧ (op >>= next).on s = (next v).on s' := by
  obtain ⟨hr, hk⟩ := h s
  refine ⟨_, hk, ?_⟩
  rw [on_bind, ← Prod.eta (op.on s), hr]

/-- A pass over a list yields what its steps yield. -/
theorem mapM {op : α → Op σ β} {step : α → Except Fault β}
    (h : ∀ x, Yields keep (op x) (step x)) (l : List α) :
    Yields keep (l.mapM op) (l.mapM step) := by
  induction l with
  | nil => exact yields_pure []
  | cons x l ih =>
    rw [List.mapM_cons, List.mapM_cons]
    exact bind (h x) fun y _ => bind ih fun ys _ => yields_pure (y :: ys)

end Yields

/-- The operation leads from states with a property to states with it, whatever comes of it. -/
def Preserves (P : σ → Prop) (op : Op σ β) : Prop := ∀ s, P s → P (op.on s).2

section
variable {P : σ → Prop}

theorem preserves_pure (v : β) : Preserves P (pure v : Op σ β) := fun _ h => h

theorem preserves_get : Preserves P (get : Op σ σ) := fun _ h => h

theorem preserves_ofExcept (r : Except Fault β) : Preserves P (ofExcept r : Op σ β) := by
  intro s h
  rw [on_ofExcept]
  exact h

namespace Preserves

/-- One operation after another. -/
theorem bind {γ : Type} {op : Op σ α} {next : α → Op σ γ} (h : Preserves P op)
    (hn : ∀ v, Preserves P (next v)) : Preserves P (op >>= next) := by
  intro s hs
  have hop := h s hs
  rw [on_bind]
  cases hr : op.on s with
  | mk r t =>
    rw [hr] at hop
    cases r with
    | error f => exact hop
    | ok v => exact hn v t hop

/-- An operation after one whose outcome is known. -/
theorem bind_of_yields {γ : Type} {op : Op σ α} {next : α → Op σ γ} {r : Except Fault α} (h : Preserves P op)
    (hyields : Yields keep op r) (hn : ∀ v, r = .ok v → Preserves P (next v)) :
    Preserves P (op >>= next) := by
  intro s hs
  have hop := h s hs
  rw [on_bind]
  rcases hrun : op.on s with ⟨_ | v, t⟩ <;> rw [hrun] at hop
  · exact hop
  · exact hn v (hyields.eq_of_on hrun) t hop

/-- A pass over a list preserves what its steps preserve. -/
theorem mapM_of_mem {op : α → Op σ β} {l : List α} (h : ∀ x ∈ l, Preserves P (op x)) :
    Preserves P (l.mapM op) := by
  induction l with
  | nil => exact preserves_pure []
  | cons x l ih =>
    obtain ⟨hx, hl⟩ := List.forall_mem_cons.1 h
    rw [List.mapM_cons]
    exact bind hx fun y => bind (ih hl) fun ys => preserves_pure (y :: ys)

theorem mapM {op : α → Op σ β} (h : ∀ x, Preserves P (op x)) (l : List α) :
    Preserves P (l.mapM op) :=
  mapM_of_mem fun x _ => h x

theorem forM {op : α → Op σ PUnit} (h : ∀ x, Preserves P (op x)) (l : List α) :
    Preserves P (l.forM op) := by
  induction l with
  | nil => exact preserves_pure PUnit.unit
  | cons x l ih => exact bind (h x) fun _ => ih

/-- Leaving a part of the state alone preserves every property of that part. -/
theorem of_part {part : σ → τ} {op : Op σ β} (h : ∀ x, Preserves (part · = x) op) (P : τ → Prop) :
    Preserves (fun s => P (part s)) op := by
  intro s hs
  have hsame : part (op.on s).2 = part s := h (part s) s rfl
  show P (part (op.on s).2)
  rwa [hsame]

end Preserves
end

/-- Where it succeeds, the operation leads from states with one property to states with another. -/
def Leads (P Q : σ → Prop) (op : Op σ β) : Prop := ∀ s, P s → ∀ v t, op.on s = (.ok v, t) → Q t

namespace Leads
variable {P Q : σ → Prop}

/-- What comes after has only to preserve what has been reached. -/
theorem bind_left {γ : Type} {op : Op σ α} {next : α → Op σ γ} (h : Leads P Q op)
    (hn : ∀ v, Preserves Q (next v)) : Leads P Q (op >>= next) := by
  intro s hs v t hrun
  obtain ⟨x, u, hop, hnext⟩ := of_on_bind_ok hrun
  have hu := hn x u (h s hs x u hop)
  rwa [hnext] at hu

/-- What comes before has only to preserve what is needed. -/
theorem bind_right {γ : Type} {op : Op σ α} {next : α → Op σ γ} (h : Preserves P op)
    (hn : ∀ s v t, op.on s = (.ok v, t) → Leads P Q (next v)) : Leads P Q (op >>= next) := by
  intro s hs v t hrun
  obtain ⟨x, u, hop, hnext⟩ := of_on_bind_ok hrun
  have hu := h s hs
  rw [hop] at hu
  exact hn s x u hop u hu v t hnext

/-- A pass over a list reaches what the step for one of its members reaches. -/
theorem mapM_of_mem {op : α → Op σ β} {l : List α} {x : α} (hx : x ∈ l) (h : Leads P Q (op x))
    (hbefore : ∀ y ∈ l, Preserves P (op y)) (hafter : ∀ y ∈ l, Preserves Q (op y)) :
    Leads P Q (l.mapM op) := by
  induction l with
  | nil => cases hx
  | cons y l ih =>
    obtain ⟨hy, hl⟩ := List.forall_mem_cons.1 hbefore
    obtain ⟨hy', hl'⟩ := List.forall_mem_cons.1 hafter
    rw [List.mapM_cons]
    rcases List.mem_cons.1 hx with rfl | hx
    · refine h.bind_left fun _ => ?_
      exact (Preserves.mapM_of_mem hl').bind fun _ => preserves_pure _
    · exact bind_right hy fun _ _ _ _ => (ih hx hl hl').bind_left fun _ => preserves_pure _

end Leads

/-- The operation comes to results for the members of a list, one after another, and leads from one state to
another. -/
inductive Passes (op : α → Op σ β) : List α → List β → σ → σ → Prop
  | nil {s : σ} : Passes op [] [] s s
  | cons {x : α} {l : List α} {y : β} {out : List β} {s t u : σ} (hx : (op x).on s = (.ok y, t))
      (hl : Passes op l out t u) : Passes op (x :: l) (y :: out) s u

/-- The operation comes to results for the members of a list and fails for the next one. -/
def FailsAfter (op : α → Op σ β) (before : List α) (x : α) (s : σ) (f : Fault) (t : σ) : Prop :=
  ∃ out between, Passes op before out s between ∧ (op x).on between = (.error f, t)

section
variable {op : α → Op σ β} {l : List α} {out : List β} {s t : σ}

theorem Passes.on_mapM (h : Passes op l out s t) : (l.mapM op).on s = (.ok out, t) := by
  induction h with
  | nil => rfl
  | cons hx _ ih =>
    rw [List.mapM_cons, on_bind_of_ok hx, on_bind_of_ok ih]
    rfl

theorem Passes.length_eq (h : Passes op l out s t) : out.length = l.length := by
  induction h with
  | nil => rfl
  | cons _ _ ih => rw [List.length_cons, List.length_cons, ih]

theorem FailsAfter.on_mapM {x : α} {f : Fault} (h : FailsAfter op l x s f t) (rest : List α) :
    ((l ++ x :: rest).mapM op).on s = (.error f, t) := by
  obtain ⟨out, between, hl, hx⟩ := h
  induction hl with
  | nil =>
    rw [List.nil_append, List.mapM_cons]
    exact on_bind_of_error hx
  | cons hy _ ih =>
    rw [List.cons_append, List.mapM_cons, on_bind_of_ok hy]
    exact on_bind_of_error (ih hx)

/-- An operation passes over a list, or fails after some of its members. -/
theorem passes_or_fails (op : α → Op σ β) (l : List α) (s : σ) :
    (∃ out t, Passes op l out s t) ∨
      ∃ before x rest f t, l = before ++ x :: rest ∧ FailsAfter op before x s f t := by
  induction l generalizing s with
  | nil => exact .inl ⟨[], s, .nil⟩
  | cons x l ih =>
    rcases hx : (op x).on s with ⟨f | y, t⟩
    · exact .inr ⟨[], x, l, f, t, rfl, [], s, .nil, hx⟩
    · rcases ih t with ⟨out, u, hl⟩ | ⟨before, z, rest, f, u, rfl, out, between, hl, hz⟩
      · exact .inl ⟨y :: out, u, .cons hx hl⟩
      · exact .inr ⟨x :: before, z, rest, f, u, rfl, y :: out, between, .cons hx hl, hz⟩

/-- A pass that leaves the state alone comes to the results of the members, each on its own. -/
theorem passes_of_forall₂ (h : List.Forall₂ (fun x y => (op x).on s = (.ok y, s)) l out) :
    Passes op l out s s := by
  induction h with
  | nil => exact .nil
  | cons hx _ ih => exact .cons hx ih

/-- The same with each result beside its member. -/
theorem Passes.paired (h : Passes op l out s t) :
    Passes (fun x => do let y ← op x; return (x, y)) l (l.zip out) s t := by
  induction h with
  | nil => exact .nil
  | cons hx _ ih => exact .cons (on_bind_of_ok hx) ih

theorem FailsAfter.paired {x : α} {f : Fault} (h : FailsAfter op l x s f t) :
    FailsAfter (fun x => do let y ← op x; return (x, y)) l x s f t := by
  obtain ⟨out, between, hl, hx⟩ := h
  exact ⟨_, between, hl.paired, on_bind_of_error hx⟩

/-- What each step keeps, a pass keeps. -/
theorem Passes.preserves {P : σ → Prop} (h : Passes op l out s t) (hop : ∀ x, Preserves P (op x))
    (hs : P s) : P t := by
  have hpass := Preserves.mapM hop l s hs
  rwa [h.on_mapM] at hpass

theorem FailsAfter.preserves {P : σ → Prop} {x : α} {f : Fault} (h : FailsAfter op l x s f t)
    (hop : ∀ x, Preserves P (op x)) (hs : P s) : P t := by
  have hpass := Preserves.mapM hop (l ++ [x]) s hs
  rwa [h.on_mapM] at hpass

end

/-- On states that go together the two operations come to the same outcome, and leave states that go
together. -/
def Agrees (R : σ → τ → Prop) (op : Op σ β) (op' : Op τ β) : Prop :=
  ∀ s t, R s t → (op'.on t).1 = (op.on s).1 ∧ R (op.on s).2 (op'.on t).2

section
variable {R : σ → τ → Prop}

theorem agrees_pure (v : β) : Agrees R (pure v : Op σ β) (pure v) := fun _ _ h => ⟨rfl, h⟩

theorem agrees_ofExcept (r : Except Fault β) : Agrees R (ofExcept r : Op σ β) (ofExcept r) := by
  intro s t hst
  rw [on_ofExcept, on_ofExcept]
  exact ⟨rfl, hst⟩

theorem agrees_modify {g : σ → σ} {g' : τ → τ} (h : ∀ s t, R s t → R (g s) (g' t)) :
    Agrees R (modify g : Op σ PUnit) (modify g') := fun s t hst => ⟨rfl, h s t hst⟩

/-- One operation after another. -/
theorem Agrees.bind {γ : Type} {op : Op σ α} {op' : Op τ α} {next : α → Op σ γ} {next' : α → Op τ γ}
    (h : Agrees R op op') (hn : ∀ v, Agrees R (next v) (next' v)) :
    Agrees R (op >>= next) (op' >>= next') := by
  intro s t hst
  obtain ⟨hr, hst'⟩ := h s t hst
  rw [on_bind, on_bind]
  rcases hop : op.on s with ⟨f | v, s'⟩ <;> rcases hop' : op'.on t with ⟨f' | v', t'⟩ <;>
    rw [hop, hop'] at hr hst' <;> cases hr
  · exact ⟨rfl, hst'⟩
  · exact hn v s' t' hst'

/-- A pass over a list agrees with another one if their steps do. -/
theorem Agrees.mapM {op : α → Op σ β} {op' : α → Op τ β} (h : ∀ x, Agrees R (op x) (op' x))
    (l : List α) : Agrees R (l.mapM op) (l.mapM op') := by
  induction l with
  | nil => exact agrees_pure []
  | cons x l ih =>
    rw [List.mapM_cons, List.mapM_cons]
    exact (h x).bind fun y => ih.bind fun ys => agrees_pure (y :: ys)

theorem Agrees.forM {op : α → Op σ PUnit} {op' : α → Op τ PUnit} (h : ∀ x, Agrees R (op x) (op' x))
    (l : List α) : Agrees R (l.forM op) (l.forM op') := by
  induction l with
  | nil => exact agrees_pure PUnit.unit
  | cons x l ih => exact (h x).bind fun _ => ih

end
end Op
end FleetSync
