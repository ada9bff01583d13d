import FleetSync.Holder.Basic
import FleetSync.Proofs.Traversal

/-!
Events are applied scope by scope, and all or nothing.

What an event does to a scope depends on its payload for that scope and on what is held for it, and
on nothing else: merging leaves each named scope with the verdict on it alone (`Merged.named`) and
every other scope as it was (`Merged.others`). The invariant of the merge is `Merged` for the entries
gone through; `Merged.step` extends it by one entry and `foldlM_mergeScope` carries it through an event.
Since the outcome is fixed scope by scope, the order of the entries leaves no trace in it
(`Merged.unique`), and an event may be taken apart and applied piece by piece in any order.
-/
namespace FleetSync
namespace Held
variable {α : Type} {s : Strategy α} {type : EventType} {scopes : OrdMap ScopeKey α}

/-- The verdict on the payload of one scope against what is held for that scope, other scopes aside. -/
def verdictOn (s : Strategy α) (type : EventType) (scopes : OrdMap ScopeKey α)
    (entry : ScopeKey × α) : Except Fault (Verdict α) :=
  s.merge entry.1 (scopes.get? entry.1) entry.2 type

/-- What merging entries into `scopes` has to come to, as scopes and a report of change. -/
structure Merged (s : Strategy α) (type : EventType) (scopes : OrdMap ScopeKey α)
    (entries : List (ScopeKey × α)) (result : OrdMap ScopeKey α × Bool) : Prop where
  /-- Each named scope is left with the verdict on it alone. -/
  named : ∀ p ∈ entries, ∃ v, verdictOn s type scopes p = .ok v ∧
    result.1.get? p.1 = v.resolve (scopes.get? p.1)
  /-- Every other scope is as it was. -/
  others : ∀ k, k ∉ entries.map (·.1) → result.1.get? k = scopes.get? k
  /-- A change is reported exactly if some verdict is one. -/
  changed_iff : result.2 = true ↔ ∃ p ∈ entries, ∃ v, verdictOn s type scopes p = .ok v ∧ v ≠ .unchanged

namespace Merged

theorem nil : Merged s type scopes [] (scopes, false) := ⟨nofun, fun _ _ => rfl, by simp⟩

/-- One more entry, of a scope that has not come up before. -/
theorem step {seen : List (ScopeKey × α)} {acc : OrdMap ScopeKey α × Bool} {p : ScopeKey × α}
    {v : Verdict α} (h : Merged s type scopes seen acc) (hp : p.1 ∉ seen.map (·.1))
    (hv : verdictOn s type scopes p = .ok v) :
    Merged s type scopes (seen ++ [p]) (settle acc.1 p.1 v, acc.2 || v.isChange) := by
  refine ⟨fun q hq => ?_, fun k hk => ?_, ?_⟩
  · rcases List.mem_append.1 hq with hq | hq
    · obtain ⟨w, hw, hr⟩ := h.named q hq
      have hne : q.1 ≠ p.1 := fun e => hp (e ▸ List.mem_map_of_mem hq)
      exact ⟨w, hw, by rw [get?_settle, if_neg hne, hr]⟩
    · obtain rfl := List.mem_singleton.1 hq
      exact ⟨v, hv, by rw [get?_settle, if_pos rfl, h.others _ hp]⟩
  · rw [List.map_append, List.mem_append, not_or] at hk
    have hne : k ≠ p.1 := fun e => hk.2 (by simp [e])
    rw [get?_settle, if_neg hne, h.others k hk.1]
  · have hlast : v.isChange = true ↔ ∃ w, verdictOn s type scopes p = .ok w ∧ w ≠ .unchanged := by
      simp [hv]
    simp only [Bool.or_eq_true, h.changed_iff, hlast, List.mem_append, List.mem_singleton, or_and_right,
      exists_or, exists_eq_left]

/-- Entries in another order come to the same. -/
theorem unique {entries entries' : List (ScopeKey × α)} {result result' : OrdMap ScopeKey α × Bool}
    (h : Merged s type scopes entries result) (h' : Merged s type scopes entries' result')
    (hmem : ∀ p, p ∈ entries ↔ p ∈ entries') : result = result' := by
  refine Prod.ext (OrdMap.ext_get? fun k => ?_) (Bool.eq_iff_iff.2 ?_)
  · by_cases hk : k ∈ entries.map (·.1)
    · obtain ⟨p, hp, rfl⟩ := List.mem_map.1 hk
      obtain ⟨v, hv, hr⟩ := h.named p hp
      obtain ⟨v', hv', hr'⟩ := h'.named p ((hmem p).1 hp)
      obtain rfl : v = v' := Except.ok.inj (hv.symm.trans hv')
      rw [hr, hr']
    · have hk' : k ∉ entries'.map (·.1) := fun hm => by
        obtain ⟨p, hp, rfl⟩ := List.mem_map.1 hm
        exact hk (List.mem_map_of_mem ((hmem p).2 hp))
      rw [h.others k hk, h'.others k hk']
  · rw [h.changed_iff, h'.changed_iff]
    simp only [hmem]

/-- Where no change is reported, nothing is different. -/
theorem eq_of_unchanged {entries : List (ScopeKey × α)} {result : OrdMap ScopeKey α}
    (h : Merged s type scopes entries (result, false)) : result = scopes := by
  refine OrdMap.ext_get? fun k => ?_
  by_cases hk : k ∈ entries.map (·.1)
  · obtain ⟨p, hp, rfl⟩ := List.mem_map.1 hk
    obtain ⟨v, hv, hr⟩ := h.named p hp
    by_cases hu : v = .unchanged
    · rw [hr, hu]
      rfl
    · exact absurd (h.changed_iff.2 ⟨p, hp, v, hv, hu⟩) nofun
  · exact h.others k hk

end Merged

/-- An entry ahead is for a scope of its own. -/
theorem not_mem_of_nodup_keys {p : ScopeKey × α} {seen rest : List (ScopeKey × α)}
    (hd : ((seen ++ p :: rest).map (·.1)).Nodup) : p.1 ∉ seen.map (·.1) := by
  rw [List.map_append, List.map_cons] at hd
  exact fun hm => (List.nodup_append.1 hd).2.2 _ hm _ List.mem_cons_self rfl

/-- Merging one entry is carrying out the verdict on it. -/
theorem mergeScope_eq (s : Strategy α) (type : EventType) (acc : OrdMap ScopeKey α × Bool)
    (p : ScopeKey × α) :
    mergeScope s type acc p =
      (verdictOn s type acc.1 p).map fun v => (settle acc.1 p.1 v, acc.2 || v.isChange) := by
  rw [mergeScope, verdictOn]
  cases s.merge p.1 (acc.1.get? p.1) p.2 type <;> rfl

/-- Going on with the entries of further scopes keeps to `Merged`, or fails with the first of them
that fails on its own. -/
theorem foldlM_mergeScope {rest seen : List (ScopeKey × α)} {acc : OrdMap ScopeKey α × Bool}
    (h : Merged s type scopes seen acc) (hd : ((seen ++ rest).map (·.1)).Nodup) :
    match rest.foldlM (mergeScope s type) acc with
    | .ok result => Merged s type scopes (seen ++ rest) result
    | .error f => FirstFailure (fun p g => verdictOn s type scopes p = .error g) rest f := by
  induction rest generalizing seen acc with
  | nil => simpa [pure, Except.pure] using h
  | cons p rest ih =>
    have hp := not_mem_of_nodup_keys hd
    -- the scopes gone through are not that of `p`, so the verdict on `p` is the one on it alone
    have hv : verdictOn s type acc.1 p = verdictOn s type scopes p := by
      rw [verdictOn, verdictOn, h.others _ hp]
    rw [List.foldlM_cons, mergeScope_eq, hv]
    cases hs : verdictOn s type scopes p with
    | error f => exact FirstFailure.cons_iff.2 (.inl hs)
    | ok v =>
      have hrest := ih (h.step hp hs) (by rwa [List.append_assoc, List.singleton_append])
      rw [List.append_assoc, List.singleton_append] at hrest
      simp only [Except.map, bind, Except.bind]
      split at hrest
      · exact hrest
      · have hok : ∀ g, verdictOn s type scopes p ≠ .error g := fun g hg => nomatch hs.symm.trans hg
        exact FirstFailure.cons_iff.2 (.inr ⟨hok, hrest⟩)

/-- An event is merged as a whole, or fails with the first of its scopes that fails on its own. -/
theorem mergeScopes_cases (s : Strategy α) (e : Event α) (scopes : OrdMap ScopeKey α) :
    match mergeScopes s e scopes with
    | .ok result => Merged s e.type scopes e.scopes.toList result
    | .error f => FirstFailure (fun p g => verdictOn s e.type scopes p = .error g) e.scopes.toList f :=
  foldlM_mergeScope Merged.nil e.scopes.nodup_keys

/-- The event of one scope is merged by the verdict on that scope. -/
theorem mergeScopes_single (s : Strategy α) (type : EventType) (p : ScopeKey × α)
    (scopes : OrdMap ScopeKey α) :
    mergeScopes s (.single p.1 p.2 type) scopes =
      (verdictOn s type scopes p).map fun v => (settle scopes p.1 v, v.isChange) := by
  have hl : (Event.single p.1 p.2 type).scopes.toList = [p] := rfl
  rw [mergeScopes, hl, List.foldlM_cons]
  rw [show (Event.single p.1 p.2 type).type = type from rfl, mergeScope_eq]
  cases verdictOn s type scopes p <;> rfl

section Applied
variable [Wire α] {h : Held α}

/-- What applying entries to a state has to come to: their scopes merged, and the fingerprint taken
anew if anything has changed. -/
structure Applied (s : Strategy α) (type : EventType) (h : Held α) (entries : List (ScopeKey × α))
    (result : Held α × Bool) : Prop where
  merged : Merged s type h.scopes entries (result.1.scopes, result.2)
  held : result.1 = if result.2 then ofScopes result.1.scopes else h

namespace Applied

theorem nil : Applied s type h [] (h, false) := ⟨Merged.nil, rfl⟩

theorem unique {entries entries' : List (ScopeKey × α)} {result result' : Held α × Bool}
    (ha : Applied s type h entries result) (ha' : Applied s type h entries' result')
    (hmem : ∀ p, p ∈ entries ↔ p ∈ entries') : result = result' := by
  have hm := ha.merged.unique ha'.merged hmem
  obtain ⟨hs, hc⟩ := Prod.ext_iff.1 hm
  simp only at hs hc
  exact Prod.ext (by rw [ha.held, ha'.held, hs, hc]) hc

end Applied

/-- An event is applied as a whole, or fails with the first of its scopes that fails on its own. -/
theorem apply_cases (s : Strategy α) (e : Event α) (h : Held α) :
    match apply s e h with
    | .ok result => Applied s e.type h e.scopes.toList result
    | .error f =>
      FirstFailure (fun p g => verdictOn s e.type h.scopes p = .error g) e.scopes.toList f := by
  have hm := mergeScopes_cases s e h.scopes
  rw [apply]
  cases hr : mergeScopes s e h.scopes with
  | error f => rwa [hr] at hm
  | ok result =>
    obtain ⟨after, changed⟩ := result
    rw [hr] at hm
    cases changed with
    | true => exact ⟨hm, rfl⟩
    | false =>
      obtain rfl := Merged.eq_of_unchanged hm
      exact ⟨hm, rfl⟩

/-- The fingerprint is taken anew if anything has changed, and otherwise nothing is different. -/
theorem eq_of_apply {e : Event α} {next : Held α} {changed : Bool} (happly : h.apply s e = .ok (next, changed)) :
    next = if changed then ofScopes next.scopes else h := by
  have ha := apply_cases s e h
  rw [happly] at ha
  exact ha.held

/-- One more scope, as an event of its own. -/
theorem Applied.step {seen : List (ScopeKey × α)} {now : Held α} {changed : Bool} {p : ScopeKey × α}
    {v : Verdict α} (ha : Applied s type h seen (now, changed)) (hp : p.1 ∉ seen.map (·.1))
    (hv : verdictOn s type h.scopes p = .ok v) :
    ∃ next, apply s (.single p.1 p.2 type) now = .ok (next, v.isChange) ∧
      Applied s type h (seen ++ [p]) (next, changed || v.isChange) := by
  have hv' : verdictOn s type now.scopes p = .ok v := by
    rw [← hv, verdictOn, verdictOn, ha.merged.others _ hp]
  have hm := ha.merged.step hp hv
  have happly : apply s (.single p.1 p.2 type) now =
      .ok (if v.isChange then ofScopes (settle now.scopes p.1 v) else now, v.isChange) := by
    rw [apply, mergeScopes_single, hv']
    rfl
  refine ⟨_, happly, ?_⟩
  cases hc : v.isChange with
  | true =>
    rw [hc] at hm
    exact ⟨hm, by simp [ofScopes]⟩
  | false =>
    have hu : v = .unchanged := by
      by_contra hne
      rw [Verdict.isChange_iff.2 hne] at hc
      cases hc
    rw [hc, hu] at hm
    exact ⟨hm, by simpa using ha.held⟩

end Applied
end Held

namespace Holder
open Held
variable {ω α : Type} [Wire α]

theorem on_apply (h : Holder ω α) (e : Event α) (site : Site ω α) :
    (h.apply e).on site =
      match site.held.apply h.strategy e with
      | .ok (held, changed) => (.ok changed, { site with held, tally := site.tally.count changed })
      | .error f => (.error f, site) := by
  simp only [Op.on, apply, Strategy.applyAt]
  cases site.held.apply h.strategy e <;> rfl

/-- An event is applied as a whole, or fails and leaves the site alone. -/
theorem on_apply_cases (h : Holder ω α) (e : Event α) (site : Site ω α) :
    (∃ held changed,
      (h.apply e).on site = (.ok changed, { site with held, tally := site.tally.count changed }) ∧
        Applied h.strategy e.type site.held e.scopes.toList (held, changed)) ∨
    ∃ f, (h.apply e).on site = (.error f, site) ∧
      FirstFailure (fun p g => verdictOn h.strategy e.type site.held.scopes p = .error g)
        e.scopes.toList f := by
  have hc := apply_cases h.strategy e site.held
  rw [on_apply]
  cases hr : site.held.apply h.strategy e with
  | ok result =>
    rw [hr] at hc
    exact .inl ⟨result.1, result.2, rfl, hc⟩
  | error f =>
    rw [hr] at hc
    exact .inr ⟨f, rfl, hc⟩

/-- The event of one scope is applied only if its payload can be merged. -/
theorem verdictOn_of_apply_single {h : Holder ω α} {type : EventType} {p : ScopeKey × α}
    {site after : Site ω α} {changed : Bool}
    (hok : (h.apply (.single p.1 p.2 type)).on site = (.ok changed, after)) :
    ∃ v, verdictOn h.strategy type site.held.scopes p = .ok v := by
  rw [on_apply, Held.apply, mergeScopes_single] at hok
  cases hv : verdictOn h.strategy type site.held.scopes p with
  | ok v => exact ⟨v, rfl⟩
  | error f =>
    rw [hv] at hok
    cases hok

/-- Applies payloads one at a time, each as an event of its own. -/
def applyEach (h : Holder ω α) (type : EventType) (parts : List (ScopeKey × α)) :
    Op (Site ω α) Unit :=
  parts.forM fun p => do
    let _ ← h.apply (.single p.1 p.2 type)

/-- Payloads that can be merged on their own can be applied one after another. -/
theorem on_applyEach (h : Holder ω α) {type : EventType} {start : Held α}
    {rest seen : List (ScopeKey × α)} {site : Site ω α} {changed : Bool}
    (ha : Applied h.strategy type start seen (site.held, changed))
    (hd : ((seen ++ rest).map (·.1)).Nodup)
    (hv : ∀ p ∈ rest, ∃ v, verdictOn h.strategy type start.scopes p = .ok v) :
    ∃ after changed', (h.applyEach type rest).on site = (.ok (), after) ∧
      Applied h.strategy type start (seen ++ rest) (after.held, changed') := by
  induction rest generalizing seen site changed with
  | nil => exact ⟨site, changed, rfl, by simpa using ha⟩
  | cons p rest ih =>
    have hp := not_mem_of_nodup_keys hd
    obtain ⟨v, hpv⟩ := hv p List.mem_cons_self
    obtain ⟨next, happly, hnext⟩ := ha.step hp hpv
    obtain ⟨after, changed', hrun, hafter⟩ := @ih (seen ++ [p])
      { site with held := next, tally := site.tally.count v.isChange } _ hnext
      (by rwa [List.append_assoc]) fun q hq => hv q (List.mem_cons_of_mem _ hq)
    refine ⟨after, changed', ?_, by rwa [List.append_assoc] at hafter⟩
    rw [applyEach, List.forM_eq_forM, List.forM_cons, Op.on_bind, Op.on_bind, on_apply, happly]
    exact hrun

/-- An event is applied pointwise, and all or nothing.

It is applied exactly if each of its payloads can be merged with what is held for its own scope. Then
each named scope is left with the verdict on it alone, every other scope is untouched, and a change is
reported if some verdict is one. Otherwise the fault is that of the first scope, in key order, that
fails on its own, and nothing at the site has moved. An event whose parts can each be applied on their
own may as well be applied part by part, in any order. -/
theorem apply_pointwise (h : Holder ω α) (e : Event α) (site : Site ω α) :
    ((∃ changed after, (h.apply e).on site = (.ok changed, after)) ↔
      ∀ p ∈ e.scopes.toList, ∃ v, verdictOn h.strategy e.type site.held.scopes p = .ok v) ∧
    (∀ changed after, (h.apply e).on site = (.ok changed, after) →
      Merged h.strategy e.type site.held.scopes e.scopes.toList (after.held.scopes, changed) ∧
        after = { site with held := after.held, tally := site.tally.count changed }) ∧
    (∀ f after, (h.apply e).on site = (.error f, after) →
      after = site ∧
        FirstFailure (fun p g => verdictOn h.strategy e.type site.held.scopes p = .error g)
          e.scopes.toList f) ∧
    ((∀ p ∈ e.scopes.toList,
        ∃ changed after, (h.apply (.single p.1 p.2 e.type)).on site = (.ok changed, after)) →
      ∃ changed after, (h.apply e).on site = (.ok changed, after) ∧
        ∀ order : List (ScopeKey × α), order.Perm e.scopes.toList →
          ∃ after', (h.applyEach e.type order).on site = (.ok (), after') ∧
            after'.held = after.held) := by
  rcases h.on_apply_cases e site with ⟨held, changed, hr, ha⟩ | ⟨f, hr, hf⟩
  · have hall : ∀ p ∈ e.scopes.toList,
        ∃ v, verdictOn h.strategy e.type site.held.scopes p = .ok v := by
      intro p hp
      obtain ⟨v, hv, -⟩ := ha.merged.named p hp
      exact ⟨v, hv⟩
    refine ⟨iff_of_true ⟨changed, _, hr⟩ hall, ?_, ?_, fun _ => ⟨changed, _, hr, ?_⟩⟩
    · intro changed' after hok
      rw [hr] at hok
      cases hok
      exact ⟨ha.merged, rfl⟩
    · intro f after herr
      rw [hr] at herr
      cases herr
    · intro order hperm
      have hnone : Applied h.strategy e.type site.held [] (site.held, false) := Applied.nil
      have hd : (([] ++ order).map fun p : ScopeKey × α => p.1).Nodup :=
        (hperm.map _).nodup_iff.2 e.scopes.nodup_keys
      obtain ⟨after', changed', hrun, ha'⟩ := h.on_applyEach hnone hd
        fun p hp => hall p (hperm.mem_iff.1 hp)
      exact ⟨after', hrun, congrArg Prod.fst (ha'.unique ha fun p => hperm.mem_iff)⟩
  · obtain ⟨p, hp, hpf⟩ := hf.exists_mem
    have hnot : ¬ ∃ v, verdictOn h.strategy e.type site.held.scopes p = .ok v := by
      rintro ⟨v, hv⟩
      exact nomatch hv.symm.trans hpf
    refine ⟨iff_of_false ?_ fun hall => hnot (hall p hp), ?_, ?_, fun hparts => ?_⟩
    · rintro ⟨changed, after, hok⟩
      rw [hr] at hok
      cases hok
    · intro changed after hok
      rw [hr] at hok
      cases hok
    · intro g after herr
      rw [hr] at herr
      cases herr
      exact ⟨rfl, hf⟩
    · obtain ⟨changed, after, hok⟩ := hparts p hp
      exact absurd (verdictOn_of_apply_single hok) hnot

end Holder
end FleetSync
