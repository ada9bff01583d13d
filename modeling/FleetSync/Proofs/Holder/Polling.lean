import FleetSync.Proofs.Fingerprint
import FleetSync.Proofs.Holder.Coherence

/-!
Agents that poll the holder of topologies keep up with it.

An agent keeps what it was last given, together with the fingerprint that came along, and polls with
that fingerprint. The fingerprint is that of the whole held state, though the agent is given a copy
without host names. So what an agent has is at all times the copy of a state that was held when it last
took something over, or of the empty one it began with (`shows_past`). A poll that finds the fingerprint
unmoved leaves it at that, which is right because fingerprints identify held states; any other poll gives
it the copy of the state held now. An emptied holder answers without scopes but with a fingerprint, so it
is not mistaken for one that has nothing new to say.
-/
namespace FleetSync

/-- What an agent has: scopes, and the fingerprint that came with them. -/
structure Agent where
  scopes : OrdMap ScopeKey Topology := ∅
  fingerprint : Fingerprint := ""

namespace Agent

/-- An agent that is told it is up to date keeps what it has; any other answer takes its place. -/
def take (a : Agent) (answer : Event Topology) : Agent :=
  if answer.isNoOp then a
  else { scopes := answer.scopes, fingerprint := answer.fingerprint.getD a.fingerprint }

/-- The agent has the copy of a held state, under the fingerprint of that state. -/
structure Shows (a : Agent) (held : Held Topology) : Prop where
  scopes : a.scopes = held.scopes.map Topology.agentCopy
  fingerprint : a.fingerprint = held.fingerprint

end Agent

namespace Holder

/-- An agent, and the site of the holder that it polls. -/
structure Watch (ω : Type) where
  agent : Agent := {}
  site : Site ω Topology

/-- What happens next: something at the holder, or a poll. -/
inductive Turn (ω : Type) where
  | step (s : Step ω Topology)
  | poll

variable {ω : Type}

/-- One turn. A poll gives the agent's fingerprint and hands the answer to the agent. -/
def Turn.next (h : Holder ω Topology) (w : Watch ω) : Turn ω → Watch ω
  | .step s => { w with site := s.next h w.site }
  | .poll =>
    match (h.agentUpdateIfChanged w.agent.fingerprint).on w.site with
    | (.ok answer, site) => { agent := w.agent.take answer, site }
    | (.error _, site) => { w with site }

/-- The agent and the site after some turns. The agent begins with nothing. -/
def watch (h : Holder ω Topology) (start : Site ω Topology) (turns : List (Turn ω)) : Watch ω :=
  turns.foldl (Turn.next h) { site := start }

variable {h : Holder ω Topology} {start : Site ω Topology} {turns : List (Turn ω)}

theorem watch_append (h : Holder ω Topology) (start : Site ω Topology) (turns : List (Turn ω))
    (turn : Turn ω) : h.watch start (turns ++ [turn]) = Turn.next h (h.watch start turns) turn := by
  rw [watch, List.foldl_append]
  rfl

/-! ### Polls -/

/-- A caller with the fingerprint that is held is up to date. -/
theorem on_agentUpdateIfChanged_of_eq (h : Holder ω Topology) (site : Site ω Topology) :
    (h.agentUpdateIfChanged site.held.fingerprint).on site = (.ok .noOp, site) := by
  have hanswer : site.held.updateIfChanged site.held.fingerprint = .noOp := if_pos rfl
  show (Except.ok (if (site.held.updateIfChanged _).isNoOp then _ else _), site) = _
  rw [hanswer]
  rfl

/-- Any other caller is given the copy of what is held. -/
theorem on_agentUpdateIfChanged_of_ne (h : Holder ω Topology) {site : Site ω Topology}
    {prior : Fingerprint} (hne : prior ≠ site.held.fingerprint) :
    (h.agentUpdateIfChanged prior).on site =
      (.ok { scopes := site.held.scopes.map Topology.agentCopy, type := .create,
             fingerprint := some site.held.fingerprint }, site) := by
  have hanswer : site.held.updateIfChanged prior =
      { scopes := site.held.scopes, type := .create, fingerprint := some site.held.fingerprint } :=
    if_neg hne.symm
  have hno : (site.held.updateIfChanged prior).isNoOp = false := by
    rw [hanswer]
    simp [Event.isNoOp]
  show (Except.ok (if (site.held.updateIfChanged prior).isNoOp then _ else _), site) = _
  rw [hno, hanswer]
  rfl

/-- A poll leaves the site alone. The answer is a no-op exactly if the fingerprint is the one held, and
otherwise leaves the agent with the copy of what is held. -/
theorem poll_cases (h : Holder ω Topology) (w : Watch ω) :
    ∃ answer, (h.agentUpdateIfChanged w.agent.fingerprint).on w.site = (.ok answer, w.site) ∧
      Turn.next h w .poll = { agent := w.agent.take answer, site := w.site } ∧
      (answer.isNoOp = true ∧ w.agent.fingerprint = w.site.held.fingerprint ∧
          w.agent.take answer = w.agent ∨
        answer.isNoOp = false ∧ w.agent.fingerprint ≠ w.site.held.fingerprint ∧
          (w.agent.take answer).Shows w.site.held) := by
  by_cases hfp : w.agent.fingerprint = w.site.held.fingerprint
  · have hon := on_agentUpdateIfChanged_of_eq h w.site
    rw [← hfp] at hon
    refine ⟨.noOp, hon, ?_, .inl ⟨rfl, hfp, rfl⟩⟩
    rw [Turn.next, hon]
  · have hon := on_agentUpdateIfChanged_of_ne h hfp
    refine ⟨_, hon, ?_, .inr ⟨?_, hfp, ?_⟩⟩
    · rw [Turn.next, hon]
    · simp [Event.isNoOp]
    · constructor <;> simp [Agent.take, Event.isNoOp]

/-! ### Runs -/

/-- Through all turns, scopes are held with their fingerprint. -/
theorem watch_coherent (hsource : h.source.Orderly h.strategy) (hstart : start.held = {})
    (turns : List (Turn ω)) : (h.watch start turns).site.held.Coherent := by
  induction turns using List.reverseRecOn with
  | nil =>
    show start.held.Coherent
    rw [hstart]
    rfl
  | append_singleton turns turn ih =>
    rw [watch_append]
    cases turn with
    | step s => exact s.next_preserves (Held.kept_coherent h.strategy) hsource ih
    | poll =>
      obtain ⟨answer, -, hnext, -⟩ := h.poll_cases (h.watch start turns)
      rw [hnext]
      exact ih

/-- What the agent has is the copy of a state that was held before. -/
theorem shows_past (hstart : start.held = {}) (turns : List (Turn ω)) :
    ∃ past, past <+: turns ∧ (h.watch start turns).agent.Shows (h.watch start past).site.held := by
  induction turns using List.reverseRecOn with
  | nil =>
    refine ⟨[], List.prefix_refl [], ?_⟩
    show Agent.Shows {} start.held
    rw [hstart]
    exact ⟨rfl, rfl⟩
  | append_singleton turns turn ih =>
    obtain ⟨past, hpast, hshows⟩ := ih
    rw [watch_append]
    cases turn with
    | step s => exact ⟨past, hpast.trans (List.prefix_append _ _), hshows⟩
    | poll =>
      obtain ⟨answer, -, hnext, ⟨-, -, hsame⟩ | ⟨-, -, hnew⟩⟩ := h.poll_cases (h.watch start turns)
      · rw [hnext, hsame]
        exact ⟨past, hpast.trans (List.prefix_append _ _), hshows⟩
      · rw [hnext]
        exact ⟨turns, List.prefix_append _ _, hnew⟩

/-- The texts that the fingerprints of a run are taken of: those of the states held at some turn. -/
def textsHeld (h : Holder ω Topology) (start : Site ω Topology) (turns : List (Turn ω)) : Set String :=
  {text | ∃ past, past <+: turns ∧ (h.watch start past).site.held.scopes ≠ ∅ ∧
    text = Wire.toText (h.watch start past).site.held.scopes}

theorem hashedAmong_textsHeld {past : List (Turn ω)} (hpast : past <+: turns) :
    HashedAmong (h.textsHeld start turns) (h.watch start past).site.held.scopes :=
  fun hne => ⟨past, hpast, hne, rfl⟩

/-- Unless fingerprints of held states collide, an agent has after each poll what is held, apart from
host names.

The turns are anything up to a poll: calls on the holder, other things around it, and other polls. The
answer to the poll is a no-op exactly if the agent's fingerprint is the one that is held. -/
theorem polling_converges (h : Holder ω Topology) (hsource : h.source.Orderly h.strategy)
    (start : Site ω Topology) (hstart : start.held = {}) (turns : List (Turn ω))
    (hfree : Digest.Sha256.CollisionFree (h.textsHeld start turns)) :
    let before := h.watch start turns
    let after := h.watch start (turns ++ [.poll])
    ∃ answer, (h.agentUpdateIfChanged before.agent.fingerprint).on before.site =
        (.ok answer, before.site) ∧
      after = { agent := before.agent.take answer, site := before.site } ∧
      (answer.isNoOp = true ↔ before.agent.fingerprint = before.site.held.fingerprint) ∧
      after.agent.fingerprint = before.site.held.fingerprint ∧
      after.agent.scopes = before.site.held.scopes.map fun t =>
        { t with components := t.components.map fun c => { c with hostNames := ∅, publicHostNames := ∅ } } := by
  intro before after
  obtain ⟨answer, hon, hnext, hcases⟩ := h.poll_cases before
  have hafter : after = { agent := before.agent.take answer, site := before.site } := by
    rw [← hnext]
    exact watch_append h start turns .poll
  refine ⟨answer, hon, hafter, ?_⟩
  rw [hafter]
  rcases hcases with ⟨hno, hfp, hsame⟩ | ⟨hno, hfp, hshows⟩
  · -- the agent has the copy of a past state with the fingerprint that is held now
    obtain ⟨past, hpast, hshows⟩ := shows_past (h := h) hstart turns
    have hfps : fingerprint (h.watch start past).site.held.scopes = fingerprint before.site.held.scopes :=
      calc fingerprint (h.watch start past).site.held.scopes
          = (h.watch start past).site.held.fingerprint := (watch_coherent hsource hstart past).symm
        _ = before.agent.fingerprint := hshows.fingerprint.symm
        _ = before.site.held.fingerprint := hfp
        _ = fingerprint before.site.held.scopes := watch_coherent hsource hstart turns
    have hscopes : (h.watch start past).site.held.scopes = before.site.held.scopes :=
      (fingerprint_inj hfree (hashedAmong_textsHeld hpast)
        (hashedAmong_textsHeld (List.prefix_refl turns))).1 hfps
    rw [hsame]
    refine ⟨iff_of_true hno hfp, hfp, ?_⟩
    rw [← hscopes]
    exact hshows.scopes
  · refine ⟨iff_of_false (by rw [hno]; exact Bool.false_ne_true) hfp, hshows.fingerprint, hshows.scopes⟩

/-- A cluster is created, polled, and dropped. -/
def comingAndGoing : List (Turn (Surroundings Topology)) := [
  .step (.call (.update (.single "1" {} .create))),
  .poll,
  .step (.call (.update (.single "1" {} .delete)))]

/-- An agent that has a cluster learns by its next poll that no cluster is left. -/
theorem polling_converges_emptied :
    let c : Controller := {}
    let before := c.topologyHolder.watch (c.siteOf c.topology) comingAndGoing
    let after := c.topologyHolder.watch (c.siteOf c.topology) (comingAndGoing ++ [.poll])
    before.agent.scopes.toList = [("1", {})] ∧ after.agent.scopes = ∅ ∧ after.agent.fingerprint = "" := by
  intro c before after
  have hstates : ∀ past ∈ comingAndGoing.inits,
      (c.topologyHolder.watch (c.siteOf c.topology) past).site.held.scopes ∈
        [∅, (∅ : OrdMap ScopeKey Topology).insert "1" {}] := by
    decide +kernel
  have hfree : Digest.Sha256.CollisionFree
      (c.topologyHolder.textsHeld (c.siteOf c.topology) comingAndGoing) := by
    refine Set.Subsingleton.injOn ?_ _
    rintro _ ⟨past, hpast, hne, rfl⟩ _ ⟨past', hpast', hne', rfl⟩
    have hone := List.mem_cons.1 (hstates past ((List.mem_inits _ _).2 hpast))
    have hone' := List.mem_cons.1 (hstates past' ((List.mem_inits _ _).2 hpast'))
    rw [List.mem_singleton.1 (hone.resolve_left hne), List.mem_singleton.1 (hone'.resolve_left hne')]
  obtain ⟨answer, -, -, -, hfp, hscopes⟩ :=
    polling_converges c.topologyHolder c.orderly_topology (c.siteOf c.topology) rfl comingAndGoing hfree
  have hempty : before.site.held = {} := by decide +kernel
  refine ⟨by decide +kernel, ?_, ?_⟩
  · rw [hscopes, hempty]
    rfl
  · rw [hfp, hempty]

end Holder
end FleetSync
