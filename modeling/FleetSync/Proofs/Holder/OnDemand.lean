import FleetSync.Proofs.Holder.Calls

/-!
A scope that is asked for is loaded once, and what is answered is what is held.

A scope that is held is answered from what is held, and the source is not asked. One that is not is fetched,
and while the source is at it anything may happen to the holder (`Source.amid`): updates, deletions, fresh
builds, even other loads of the same scope. The scope is looked at again once the value is there, so what was
stored meanwhile is kept, and only a scope that is still missing takes the fetched value
(`Held.get?_storeFetched`). The answer is about the value that is held then.
-/
namespace FleetSync

/-- Operations one after another, whether or not they fail. -/
def Op.inTurn {σ : Type} (ops : List (Op σ Unit)) (s : σ) : σ := ops.foldl (fun s op => (op.on s).2) s

/-- The source, with operations taking place before and after it looks a scope up. -/
def Source.amid {ω α : Type} (src : Source ω α) (before after : List (Op (Site ω α) Unit)) : Source ω α where
  scopes := src.scopes
  fetch scope := Op.focus (Op.inTurn before) (fun asked _ => Op.inTurn after asked) (src.fetch scope)

namespace Held
variable {α : Type} [Wire α]

/-- Once a fetched value is stored, or dropped for one that is held, the scope is held with the value that is
reported, and all other scopes are as they were. -/
theorem get?_storeFetched (held : Held α) (scope x : ScopeKey) (fetched : α) :
    (held.storeFetched scope fetched).1.scopes.get? x =
      if x = scope then some (held.storeFetched scope fetched).2 else held.scopes.get? x := by
  rw [storeFetched]
  split
  next value hvalue =>
    split
    next hx => rw [hx, hvalue]
    next => rfl
  next => exact OrdMap.get?_insert ..

/-- The answer about a value has nothing to say to a caller who has it, and otherwise is its creation. -/
theorem scopeAnswer_cases (scope : ScopeKey) (value : α) (prior : Fingerprint) :
    ((scopeAnswer scope value prior).isNoOp = true ↔ prior = scopeFingerprint value) ∧
    (prior ≠ scopeFingerprint value → scopeAnswer scope value prior =
      { scopes := (∅ : OrdMap ScopeKey α).insert scope value
        type := .create
        fingerprint := some (scopeFingerprint value) }) := by
  rw [scopeAnswer]
  split
  next hsame => exact ⟨iff_of_true rfl hsame.symm, fun hne => absurd hsame.symm hne⟩
  next hother =>
    refine ⟨iff_of_false ?_ (Ne.symm hother), fun _ => rfl⟩
    rw [Event.isNoOp, Event.withFingerprint, Option.isNone_some, Bool.and_false]
    exact Bool.false_ne_true

end Held

namespace Holder
variable {ω α : Type} [Wire α] {h : Holder ω α} {scope : ScopeKey} {site : Site ω α}

section
variable (hmissing : site.held.scopes.get? scope = none)
include hmissing

theorem on_scopeUpdateIfChanged_of_fetch_error {f : Fault} {left : Site ω α}
    (hfetch : (h.source.fetch scope).on site = (.error f, left)) (prior : Fingerprint) :
    (h.scopeUpdateIfChanged scope prior).on site = (.error f, left) := by
  rw [scopeUpdateIfChanged, Op.on_bind_of_ok (Op.on_get site), hmissing]
  exact Op.on_bind_of_error hfetch

theorem on_scopeUpdateIfChanged_of_fetch_ok {fetched : α} {left : Site ω α}
    (hfetch : (h.source.fetch scope).on site = (.ok fetched, left)) (prior : Fingerprint) :
    (h.scopeUpdateIfChanged scope prior).on site =
      (.ok (Held.scopeAnswer scope (left.held.storeFetched scope fetched).2 prior),
        { left with held := (left.held.storeFetched scope fetched).1 }) := by
  rw [scopeUpdateIfChanged, Op.on_bind_of_ok (Op.on_get site), hmissing]
  exact Op.on_bind_of_ok hfetch

end

/-- Asking for a scope answers about what is held of it after the call. -/
theorem held_of_scopeUpdateIfChanged_ok {prior : Fingerprint} {answer : Event α} {final : Site ω α}
    (hok : (h.scopeUpdateIfChanged scope prior).on site = (.ok answer, final)) :
    ∃ value, final.held.scopes.get? scope = some value ∧ answer = Held.scopeAnswer scope value prior := by
  cases hheld : site.held.scopes.get? scope with
  | some value =>
    cases (on_scopeUpdateIfChanged_of_held hheld prior).symm.trans hok
    exact ⟨value, hheld, rfl⟩
  | none =>
    rcases hfetch : (h.source.fetch scope).on site with ⟨f | fetched, left⟩
    · cases (on_scopeUpdateIfChanged_of_fetch_error hheld hfetch prior).symm.trans hok
    · cases (on_scopeUpdateIfChanged_of_fetch_ok hheld hfetch prior).symm.trans hok
      refine ⟨_, ?_, rfl⟩
      rw [Held.get?_storeFetched, if_pos rfl]

/-- Loading a scope on demand overwrites nothing, and the answer is about what is held.

A scope that is held is answered without asking any source, and nothing is changed. For a scope that is not,
the source may be slow, and whatever operations take place before and after it looks the scope up do so. If it
fails, its fault is the answer, and the site is the one that these operations left. If it has a value, all that
is added to what they left is that value, for this scope alone, and only if they left it missing: nothing is
sent and no update is counted. An answer is a no-op exactly if the caller has the fingerprint of what is held
for the scope after the call, and otherwise it creates just that, with that fingerprint. -/
theorem demand_answers_held (h : Holder ω α) (scope : ScopeKey) (prior : Fingerprint)
    (before after : List (Op (Site ω α) Unit)) (site : Site ω α) :
    let asked := (h.source.fetch scope).on (Op.inTurn before site)
    let left := Op.inTurn after asked.2
    let demand :=
      ({ h with source := h.source.amid before after }.scopeUpdateIfChanged scope prior).on site
    (site.held.scopes.get? scope ≠ none → ∃ answer, ∀ src,
      ({ h with source := src }.scopeUpdateIfChanged scope prior).on site = (.ok answer, site)) ∧
    (site.held.scopes.get? scope = none →
      (∀ f, asked.1 = .error f → demand = (.error f, left)) ∧
      (∀ fetched, asked.1 = .ok fetched → ∃ answer held, demand = (.ok answer, { left with held }) ∧
        (left.held.scopes.get? scope ≠ none → held = left.held) ∧
        (left.held.scopes.get? scope = none → ∀ x, held.scopes.get? x =
          if x = scope then some fetched else left.held.scopes.get? x))) ∧
    (∀ answer final, demand = (.ok answer, final) → ∃ value,
      final.held.scopes.get? scope = some value ∧
      (answer.isNoOp = true ↔ prior = scopeFingerprint value) ∧
      (prior ≠ scopeFingerprint value → answer =
        { scopes := (∅ : OrdMap ScopeKey α).insert scope value
          type := .create
          fingerprint := some (scopeFingerprint value) })) := by
  intro asked left demand
  have hamid : ((h.source.amid before after).fetch scope).on site = (asked.1, left) :=
    Op.on_focus ..
  refine ⟨fun hheld => ?_, fun hmissing => ?_, ?_⟩
  · obtain ⟨value, hvalue⟩ := Option.ne_none_iff_exists'.1 hheld
    exact ⟨_, fun src => on_scopeUpdateIfChanged_of_held hvalue prior⟩
  · refine ⟨fun f hf => ?_, fun fetched hfetched => ?_⟩
    · rw [hf] at hamid
      exact on_scopeUpdateIfChanged_of_fetch_error hmissing hamid prior
    · rw [hfetched] at hamid
      refine ⟨_, _, on_scopeUpdateIfChanged_of_fetch_ok hmissing hamid prior, fun hstored => ?_, fun hopen x => ?_⟩
      · obtain ⟨value, hvalue⟩ := Option.ne_none_iff_exists'.1 hstored
        rw [Held.storeFetched, hvalue]
      · rw [Held.storeFetched, hopen]
        exact OrdMap.get?_insert ..
  · intro answer final hok
    obtain ⟨value, hvalue, rfl⟩ := held_of_scopeUpdateIfChanged_ok hok
    exact ⟨value, hvalue, Held.scopeAnswer_cases scope value prior⟩

/-- While host 7 is looked up it gets other configurations. These are kept, and a caller who has them is up to
date, unless they are dropped again before the lookup is done. A host that is held is not looked up at all. -/
theorem demand_answers_held_meanwhile :
    let c : Controller := { configs := { table := { values := .ofList [("7", { timestamp := 1 })] } } }
    let h := c.configsHolder
    let site := c.siteOf c.configs
    let found : HostConfigs := { timestamp := 1 }
    let pushed : HostConfigs := { timestamp := 2 }
    let push : Op (Site (Surroundings HostConfigs) HostConfigs) Unit :=
      (Call.update (.single "7" pushed .update)).perform h
    let drop : Op (Site (Surroundings HostConfigs) HostConfigs) Unit :=
      (Call.update (.single "7" {} .delete)).perform h
    let demand (after : List (Op (Site (Surroundings HostConfigs) HostConfigs) Unit)) :=
      ({ h with source := h.source.amid [] after }.hostUpdateIfChanged 7 (scopeFingerprint pushed)).on site
    let held := (push.on site).2
    (∃ answer final, demand [push] = (.ok answer, final) ∧
      answer.isNoOp = true ∧ final.held.scopes.toList = [("7", pushed)] ∧ final.sent.length = 1) ∧
    (∃ answer final, demand [push, drop] = (.ok answer, final) ∧
      answer.scopes.toList = [("7", found)] ∧ final.held.scopes.get? "7" = some found ∧
      final.sent.length = 2) ∧
    ∃ answer, ∀ src,
      ({ h with source := src }.hostUpdateIfChanged 7 (scopeFingerprint pushed)).on held = (.ok answer, held) := by
  intro c h site found pushed push drop demand held
  have hasked : ((h.source.fetch "7").on (Op.inTurn [] site)).1 = .ok found := by decide +kernel
  refine ⟨?_, ?_, ?_⟩
  · obtain ⟨-, hmissing, hanswers⟩ := demand_answers_held h "7" (scopeFingerprint pushed) [] [push] site
    obtain ⟨answer, next, hdemand, hkept, -⟩ := (hmissing (by decide +kernel)).2 found hasked
    obtain rfl := hkept (by decide +kernel)
    obtain ⟨value, hvalue, hcurrent, -⟩ := hanswers _ _ hdemand
    have hpushed : (Op.inTurn [push] ((h.source.fetch "7").on (Op.inTurn [] site)).2).held.scopes.get? "7" =
        some pushed := by decide +kernel
    cases hvalue.symm.trans hpushed
    exact ⟨answer, _, hdemand, hcurrent.2 rfl, by decide +kernel, by decide +kernel⟩
  · obtain ⟨-, hmissing, hanswers⟩ := demand_answers_held h "7" (scopeFingerprint pushed) [] [push, drop] site
    obtain ⟨answer, next, hdemand, -, hloaded⟩ := (hmissing (by decide +kernel)).2 found hasked
    have hfound : next.scopes.get? "7" = some found := hloaded (by decide +kernel) "7"
    obtain ⟨value, hvalue, -, hcreated⟩ := hanswers _ _ hdemand
    cases hvalue.symm.trans hfound
    have hsent : (Op.inTurn [push, drop] ((h.source.fetch "7").on (Op.inTurn [] site)).2).sent.length = 2 := by
      decide +kernel
    have hother : scopeFingerprint pushed ≠ scopeFingerprint found := by decide +kernel
    refine ⟨answer, _, hdemand, ?_, hfound, hsent⟩
    rw [hcreated hother]
    rfl
  · exact (demand_answers_held h "7" (scopeFingerprint pushed) [] [] held).1 (by decide +kernel)

end Holder
end FleetSync
