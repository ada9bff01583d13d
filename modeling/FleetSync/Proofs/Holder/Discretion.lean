import FleetSync.Proofs.Holder.Announcing
import FleetSync.Proofs.Holder.Following
import FleetSync.Proofs.Holder.Polling

/-!
Host names stay with the controller.

What is held has host names, and what is given to the transport or to a polling agent has none. To say so of
all that the transport is given, taken or refused, a record is kept beside the world (`Holder.recorded`),
which has no effect on the holder (`Holder.abreast_recorded`). Each move of a course adds to the record the
agents' copy of what it has to announce (`Holder.Move.next_recorded`). As long as the source sees nothing
of what was sent (`Holder.Separate`), the same is held without any announcement or poll
(`Holder.Separate.alike_course`). So updates that differ in host names only look the same from outside.
-/
namespace FleetSync

/-! ### Records of what is sent -/

/-- A transport that writes down whatever it is given, taken or refused. -/
def Transport.recorded {ω : Type} (t : Transport ω) : Transport (ω × List Envelope) where
  send e := Op.focus (·.1) (fun world w => (world, w.2 ++ [e])) (t.send e)

namespace Site
variable {ω α : Type}

/-- The site with a record beside its world. -/
def beside (site : Site ω α) (record : List Envelope) : Site (ω × List Envelope) α :=
  { held := site.held, tally := site.tally, sent := site.sent, world := (site.world, record) }

/-- The site without the record. -/
def unrecorded (site : Site (ω × List Envelope) α) : Site ω α :=
  { held := site.held, tally := site.tally, sent := site.sent, world := site.world.1 }

end Site

/-- A source that does not see the record. -/
def Source.recorded {ω α : Type} (src : Source ω α) : Source (ω × List Envelope) α where
  scopes := Op.focus Site.unrecorded (fun after site => after.beside site.world.2) src.scopes
  fetch scope := Op.focus Site.unrecorded (fun after site => after.beside site.world.2) (src.fetch scope)

namespace Holder
variable {ω α : Type}

/-- The holder with a record of all that its transport is given. -/
def recorded (h : Holder ω α) : Holder (ω × List Envelope) α :=
  { strategy := h.strategy, source := h.source.recorded, transport := h.transport.recorded }

theorem agrees_unrecorded {β : Type} (op : Op (Site ω α) β) (record : List Envelope) :
    Op.Agrees (fun site seen => seen = site.beside record) op
      (Op.focus Site.unrecorded (fun after site => after.beside site.world.2) op) := by
  rintro site _ rfl
  rw [Op.on_focus]
  exact ⟨rfl, rfl⟩

/-- A record is kept without any effect on the holder. -/
theorem abreast_recorded (h : Holder ω α) (record : List Envelope) :
    Abreast (fun site seen => seen = site.beside record) h h.recorded where
  strategy := rfl
  held := by
    rintro site _ rfl
    rfl
  stored := by
    rintro site _ rfl held
    rfl
  counted := by
    rintro site _ rfl changed
    rfl
  scopes := agrees_unrecorded _ record
  fetch scope := agrees_unrecorded _ record

theorem on_publish_recorded (h : Holder ω α) (e : Envelope) (site : Site ω α) (record : List Envelope) :
    (h.recorded.publish e).on (site.beside record) =
      (((h.publish e).on site).1, ((h.publish e).on site).2.beside (record ++ [e])) := by
  have hsend : h.recorded.transport.send e (site.beside record).world =
      Op.focus (·.1) (fun world w => (world, w.2 ++ [e])) (h.transport.send e) (site.world, record) := rfl
  rw [on_publish, on_publish, hsend, Op.focus]
  cases h.transport.send e site.world <;> rfl

/-- Announcing a topology event is giving the transport one envelope, the copy for agents. -/
theorem on_announce_topology {h : Holder ω Topology} {settings : TopologySettings}
    (hstrategy : h.strategy = .topology settings) (e : Event Topology) (site : Site ω Topology) :
    (h.announce e).on site = (h.publish (announcement settings e.agentCopy)).on site := by
  have hout : h.strategy.outbound e = .ok [announcement settings e.agentCopy] := by
    rw [hstrategy]
    rfl
  rw [announce, hout]
  exact congrArg (Op.on · site) (bind_pure_unit (m := Op (Site ω Topology)))

/-- What a call gives the transport is the copy for agents of what it has to announce. -/
theorem Call.on_perform_recorded {h : Holder ω Topology} {settings : TopologySettings}
    (hstrategy : h.strategy = .topology settings) (c : Call Topology) (site : Site ω Topology)
    (record : List Envelope) :
    (c.perform h.recorded).on (site.beside record) =
      (((c.perform h).on site).1, ((c.perform h).on site).2.beside
        (record ++ (c.announces h site).toList.map fun e => announcement settings e.agentCopy)) := by
  have hside := h.abreast_recorded record
  obtain ⟨hr, hafter⟩ := hside.quiet c site _ rfl
  rw [c.on_perform h, c.on_perform h.recorded, hside.announces c rfl]
  rcases hquiet : (c.quiet.perform h).on site with ⟨f | _, after⟩ <;> rw [hquiet] at hr hafter
  · rw [Op.on_bind_of_error (Prod.ext hr hafter), Op.on_bind_of_error hquiet, c.announces_of_error hquiet,
      Option.toList_none, List.map_nil, List.append_nil]
    rfl
  · rw [Op.on_bind_of_ok (Prod.ext hr hafter), Op.on_bind_of_ok hquiet]
    cases c.announces h site with
    | none =>
      rw [Option.toList_none, List.map_nil, List.append_nil]
      rfl
    | some e =>
      show (h.recorded.announce e).on (after.beside record) = (((h.announce e).on after).1, _)
      rw [on_announce_topology (h := h.recorded) hstrategy, on_publish_recorded,
        ← on_announce_topology hstrategy]
      rfl

/-! ### Runs -/

/-- What can happen to a holder of topologies: a call, one that asks the source and keeps nothing, a poll
of an agent, or something outside of it. Dropping a cluster is an update. -/
inductive Move (ω : Type) where
  | call (c : Call Topology)
  | currentData
  | fullSnapshot (scope : ScopeKey)
  | poll (prior : Fingerprint)
  | outside (change : ω → ω)

/-- The site after something has happened. -/
def Move.next (h : Holder ω Topology) (site : Site ω Topology) : Move ω → Site ω Topology
  | call c => ((c.perform h).on site).2
  | currentData => (h.currentData.on site).2
  | fullSnapshot scope => ((h.fullSnapshot scope).on site).2
  | poll prior => ((h.agentUpdateIfChanged prior).on site).2
  | outside change => { site with world := change site.world }

/-- The site after a course of such events. -/
def course (h : Holder ω Topology) (moves : List (Move ω)) (site : Site ω Topology) : Site ω Topology :=
  moves.foldl (Move.next h) site

/-- What has to be announced of it, host names included. -/
def Move.announces (h : Holder ω Topology) (site : Site ω Topology) : Move ω → List (Event Topology)
  | call c => (c.announces h site).toList
  | currentData | fullSnapshot _ | poll _ | outside _ => []

/-- What has to be announced in a course of such events. -/
def announced (h : Holder ω Topology) : List (Move ω) → Site ω Topology → List (Event Topology)
  | [], _ => []
  | move :: moves, site => move.announces h site ++ announced h moves (move.next h site)

/-- The same with a record beside the world. -/
def Move.recorded : Move ω → Move (ω × List Envelope)
  | call c => call c
  | currentData => currentData
  | fullSnapshot scope => fullSnapshot scope
  | poll prior => poll prior
  | outside change => outside fun w => (change w.1, w.2)

/-- A poll leaves the site alone, and its answer is the copy for agents of what the holder answers. -/
theorem on_agentUpdateIfChanged (h : Holder ω Topology) (prior : Fingerprint) (site : Site ω Topology) :
    (h.agentUpdateIfChanged prior).on site = (.ok (site.held.updateIfChanged prior).agentCopy, site) := by
  by_cases hprior : prior = site.held.fingerprint
  · have hanswer : site.held.updateIfChanged site.held.fingerprint = .noOp := if_pos rfl
    rw [hprior, on_agentUpdateIfChanged_of_eq, hanswer]
    rfl
  · have hanswer : site.held.updateIfChanged prior =
        { scopes := site.held.scopes, type := .create, fingerprint := some site.held.fingerprint } :=
      if_neg (Ne.symm hprior)
    rw [on_agentUpdateIfChanged_of_ne h hprior, hanswer]
    rfl

theorem Move.next_recorded {h : Holder ω Topology} {settings : TopologySettings}
    (hstrategy : h.strategy = .topology settings) (move : Move ω) (site : Site ω Topology)
    (record : List Envelope) :
    move.recorded.next h.recorded (site.beside record) =
      (move.next h site).beside
        (record ++ (move.announces h site).map fun e => announcement settings e.agentCopy) := by
  have hside := h.abreast_recorded record
  cases move with
  | call c => exact congrArg Prod.snd (c.on_perform_recorded hstrategy site record)
  | currentData =>
    rw [announces, List.map_nil, List.append_nil]
    exact (hside.currentData site _ rfl).2
  | fullSnapshot scope =>
    rw [announces, List.map_nil, List.append_nil]
    exact (hside.fetch scope site _ rfl).2
  | poll prior =>
    rw [announces, List.map_nil, List.append_nil]
    rfl
  | outside change =>
    rw [announces, List.map_nil, List.append_nil]
    rfl

theorem course_recorded {h : Holder ω Topology} {settings : TopologySettings}
    (hstrategy : h.strategy = .topology settings) (moves : List (Move ω)) (site : Site ω Topology)
    (record : List Envelope) :
    h.recorded.course (moves.map Move.recorded) (site.beside record) =
      (h.course moves site).beside
        (record ++ (h.announced moves site).map fun e => announcement settings e.agentCopy) := by
  induction moves generalizing site record with
  | nil =>
    rw [announced, List.map_nil, List.map_nil, List.append_nil]
    rfl
  | cons move moves ih =>
    have hrest := ih (move.next h site)
      (record ++ (move.announces h site).map fun e => announcement settings e.agentCopy)
    rw [← move.next_recorded hstrategy site record, List.append_assoc, ← List.map_append] at hrest
    exact hrest

end Holder

/-! ### Without telling anyone -/

/-- The same is held at both sites, and a view of their worlds shows the same. -/
def Site.Alike {ω ν α : Type} (view : ω → ν) (s t : Site ω α) : Prop :=
  t.held = s.held ∧ view t.world = view s.world

/-- The source goes by what is held and by a view of the world. -/
structure Source.GoesBy {ω ν α : Type} (view : ω → ν) (src : Source ω α) : Prop where
  scopes : Op.Agrees (Site.Alike view) src.scopes src.scopes
  fetch : ∀ scope, Op.Agrees (Site.Alike view) (src.fetch scope) (src.fetch scope)

namespace Holder
variable {ω ν α : Type}

/-- The same without telling anyone; nothing, where someone asks. -/
def Move.quiet : Move ω → Option (Move ω)
  | call c => some (call c.quiet)
  | poll _ => none
  | move => some move

/-- The source goes by what is held and by a view of the world that the transport does not touch. -/
structure Separate (h : Holder ω α) (view : ω → ν) : Prop where
  send : ∀ e w, view ((h.transport.send e).on w).2 = view w
  source : h.source.GoesBy view

namespace Separate
variable {h : Holder ω α} {view : ω → ν} (hsep : h.Separate view)
include hsep

theorem abreast [Wire α] : Abreast (Site.Alike view) h h where
  strategy := rfl
  held _ _ hR := hR.1
  stored _ _ hR _ := ⟨rfl, hR.2⟩
  counted _ _ hR _ := hR
  scopes := hsep.source.scopes
  fetch := hsep.source.fetch

theorem publish_preserves (s : Site ω α) (e : Envelope) : (h.publish e).Preserves (Site.Alike view s) := by
  intro t hst
  have hsend := hsep.send e t.world
  rw [on_publish]
  rw [Op.on] at hsend
  cases hr : h.transport.send e t.world <;> rw [hr] at hsend <;> exact ⟨hst.1, hsend.trans hst.2⟩

end Separate

/-- A change outside of the holder that a view of the world can follow. -/
def Move.Within (view : ω → ν) : Move ω → Prop
  | outside change => ∃ g : ν → ν, ∀ w, view (change w) = g (view w)
  | _ => True

namespace Separate
variable {h : Holder ω Topology} {view : ω → ν} (hsep : h.Separate view)
include hsep

/-- Telling nobody makes no difference to what a call leaves. -/
theorem alike_call (c : Call Topology) {s t : Site ω Topology} (hst : Site.Alike view s t) :
    Site.Alike view ((c.perform h).on s).2 ((c.quiet.perform h).on t).2 := by
  obtain ⟨-, hquiet⟩ := hsep.abreast.quiet c s t hst
  rw [c.on_perform h s]
  rcases hs : (c.quiet.perform h).on s with ⟨f | _, s'⟩ <;> rw [hs] at hquiet
  · rw [Op.on_bind_of_error hs]
    exact hquiet
  · rw [Op.on_bind_of_ok hs]
    have htold : Site.Alike view s' (((c.announces h s).forM h.announce).on s').2 := by
      cases c.announces h s with
      | none => exact ⟨rfl, rfl⟩
      | some e => exact announce_preserves (hsep.publish_preserves s') e s' ⟨rfl, rfl⟩
    exact ⟨hquiet.1.trans htold.1.symm, hquiet.2.trans htold.2.symm⟩

theorem alike_course {moves : List (Move ω)} (hmoves : ∀ move ∈ moves, move.Within view)
    {s t : Site ω Topology} (hst : Site.Alike view s t) :
    Site.Alike view (h.course moves s) (h.course (moves.filterMap Move.quiet) t) := by
  induction moves generalizing s t with
  | nil => exact hst
  | cons move moves ih =>
    obtain ⟨hmove, hrest⟩ := List.forall_mem_cons.1 hmoves
    cases move with
    | call c => exact ih hrest (hsep.alike_call c hst)
    | currentData => exact ih hrest (hsep.abreast.currentData s t hst).2
    | fullSnapshot scope => exact ih hrest (hsep.source.fetch scope s t hst).2
    | poll prior =>
      refine ih hrest ?_
      rw [Move.next, on_agentUpdateIfChanged]
      exact hst
    | outside change =>
      obtain ⟨g, hg⟩ := hmove
      refine ih hrest ⟨hst.1, ?_⟩
      show view (change t.world) = view (change s.world)
      rw [hg, hg, hst.2]

end Separate
end Holder

/-! ### Updates that differ in host names -/

/-- The same components but for their host names. -/
def Component.SameButHostNames (c d : Component) : Prop :=
  ∃ hostNames publicHostNames, d = { c with hostNames, publicHostNames }

/-- The same topologies but for host names of components. -/
def Topology.SameButHostNames (t u : Topology) : Prop :=
  List.Forall₂ Component.SameButHostNames t.components u.components ∧ t.hosts = u.hosts

/-- The same changes to the same scopes but for host names of components. -/
def Event.SameButHostNames (e e' : Event Topology) : Prop :=
  e.type = e'.type ∧
    List.Forall₂ (fun p q => p.1 = q.1 ∧ p.2.SameButHostNames q.2) e.scopes.toList e'.scopes.toList

theorem Topology.SameButHostNames.agentCopy {t u : Topology} (h : t.SameButHostNames u) :
    t.agentCopy = u.agentCopy := by
  obtain ⟨hcomponents, hhosts⟩ := h
  have hcopies : t.components.map Component.withoutHostNames = u.components.map Component.withoutHostNames := by
    rw [← List.forall₂_eq_eq_eq, List.forall₂_map_left_iff, List.forall₂_map_right_iff]
    refine hcomponents.imp fun c d hcd => ?_
    obtain ⟨hostNames, publicHostNames, rfl⟩ := hcd
    rfl
  rw [Topology.agentCopy, Topology.agentCopy, hcopies, hhosts]

namespace Event.SameButHostNames
variable {e e' : Event Topology} (h : e.SameButHostNames e')
include h

theorem agentCopy (f : Fingerprint) : (e.withFingerprint f).agentCopy = (e'.withFingerprint f).agentCopy := by
  obtain ⟨htype, hscopes⟩ := h
  have hcopies : e.scopes.map Topology.agentCopy = e'.scopes.map Topology.agentCopy := by
    refine OrdMap.ext_toList ?_
    rw [OrdMap.toList_map, OrdMap.toList_map, ← List.forall₂_eq_eq_eq, List.forall₂_map_left_iff,
      List.forall₂_map_right_iff]
    exact hscopes.imp fun p q hpq => Prod.ext hpq.1 hpq.2.agentCopy
  show ({ e with scopes := e.scopes.map Topology.agentCopy, fingerprint := some f } : Event Topology) = _
  rw [hcopies, htype]
  rfl

theorem isEmpty_scopes : e'.scopes.isEmpty = e.scopes.isEmpty := by
  obtain ⟨-, hscopes⟩ := h
  rw [OrdMap.isEmpty, OrdMap.isEmpty]
  generalize e.scopes.toList = entries at hscopes
  generalize e'.scopes.toList = entries' at hscopes
  cases hscopes <;> rfl

end Event.SameButHostNames

namespace Holder
variable {ω : Type}

/-- What an update that succeeds sends, if it has anything to merge: the agents' copy of its event, with the
fingerprint that is held since. -/
theorem sent_of_update {h : Holder ω Topology} {settings : TopologySettings}
    (hstrategy : h.strategy = .topology settings) {e : Event Topology} {site after : Site ω Topology}
    {changed : Bool} (hok : (h.update e).on site = (.ok changed, after)) :
    changed = !e.scopes.isEmpty ∧ after.sent = site.sent ++
      if changed then [announcement settings (e.withFingerprint after.held.fingerprint).agentCopy] else [] := by
  obtain ⟨happly, batch, hsent, hbatch⟩ := sent_of_update_ok hok
  rw [hstrategy] at happly hbatch
  refine ⟨Held.changed_topology happly, ?_⟩
  rw [hsent]
  cases changed with
  | false => exact congrArg (site.sent ++ ·) hbatch
  | true => exact congrArg (site.sent ++ ·) (Except.ok.inj hbatch).symm

/-- Host names of components never leave the controller, and nothing else is kept back.

The copy for agents is the event itself, but for these names. All that the transport is given in any course
of calls, polls and changes outside, taken or refused, are such copies: one of each event that was to be
announced, be it an update or a fresh build. A poll leaves the site alone, and its answer is the copy of what
the holder answers. The same would be held without any announcement or poll, if the source goes by a view of
the world that the transport does not touch. Of two updates that differ in host names only and that succeed,
wherever that is, agents are told the same, apart from the fingerprint. -/
theorem host_names_stay (h : Holder ω Topology) {settings : TopologySettings}
    (hstrategy : h.strategy = .topology settings) :
    (∀ e : Event Topology, e.agentCopy = { e with scopes := e.scopes.map fun t =>
      { t with components := t.components.map fun c => { c with hostNames := ∅, publicHostNames := ∅ } } }) ∧
    (∀ (moves : List (Move ω)) (start : Site ω Topology),
      h.recorded.course (moves.map Move.recorded) (start.beside []) = (h.course moves start).beside
        ((h.announced moves start).map fun e => announcement settings e.agentCopy)) ∧
    (∀ (prior : Fingerprint) (site : Site ω Topology),
      (h.agentUpdateIfChanged prior).on site = (.ok (site.held.updateIfChanged prior).agentCopy, site)) ∧
    (∀ (ν : Type) (view : ω → ν), h.Separate view → ∀ moves, (∀ move ∈ moves, move.Within view) → ∀ start,
      (h.course (moves.filterMap Move.quiet) start).held = (h.course moves start).held) ∧
    (∀ e e' : Event Topology, e.SameButHostNames e' →
      ∀ (site site' after after' : Site ω Topology) (changed changed' : Bool),
      (h.update e).on site = (.ok changed, after) → (h.update e').on site' = (.ok changed', after') →
      changed' = changed ∧
      let told (f : Fingerprint) :=
        if changed then [announcement settings (e.agentCopy.withFingerprint f)] else []
      after.sent = site.sent ++ told after.held.fingerprint ∧
        after'.sent = site'.sent ++ told after'.held.fingerprint) := by
  refine ⟨fun e => rfl, fun moves start => ?_, h.on_agentUpdateIfChanged, ?_, ?_⟩
  · exact course_recorded hstrategy moves start []
  · intro ν view hsep moves hmoves start
    exact (hsep.alike_course hmoves ⟨rfl, rfl⟩).1
  · intro e e' hsame site site' after after' changed changed' hok hok'
    obtain ⟨hchanged, hsent⟩ := sent_of_update hstrategy hok
    obtain ⟨hchanged', hsent'⟩ := sent_of_update hstrategy hok'
    have heq : changed' = changed := by rw [hchanged', hchanged, hsame.isEmpty_scopes]
    refine ⟨heq, hsent, ?_⟩
    rw [hsent', heq, ← hsame.agentCopy]
    rfl

end Holder

/-! ### The holder of a controller -/

/-- Applying an event goes by what is held. -/
theorem Strategy.agrees_applyAt {ω α ν : Type} [Wire α] (s : Strategy α) (view : ω → ν) (e : Event α) :
    Op.Agrees (Site.Alike view) (s.applyAt e : Op (Site ω α) Bool) (s.applyAt e) := by
  intro site site' halike
  rw [Op.on, Op.on, applyAt, applyAt, halike.1]
  cases site.held.apply s e with
  | error f => exact ⟨rfl, halike⟩
  | ok r => exact ⟨rfl, rfl, halike.2⟩

/-- A registry in view is all that it takes to go by the registry. -/
theorem Source.goesBy_ofRegistry {ω ν : Type} {registry : ω → Registry} {view : ω → ν}
    (hregistry : ∀ w w', view w' = view w → registry w' = registry w) : (ofRegistry registry).GoesBy view where
  scopes := by
    intro site site' halike
    refine ⟨?_, halike⟩
    show Except.ok (registry site'.world).scopes = Except.ok (registry site.world).scopes
    rw [hregistry _ _ halike.2]
  fetch := by
    intro scope site site' halike
    simp only [Op.on, ofRegistry, hregistry _ _ halike.2]
    exact Op.agrees_ofExcept _ site site' halike

/-- A table in view is all that it takes to go by the table, if a change of it shows nothing else. -/
theorem SourceTable.goesBy_source {ω α ν : Type} [Wire α] (s : Strategy α) (get : ω → SourceTable α)
    (set : SourceTable α → ω → ω) {view : ω → ν} (hget : ∀ w w', view w' = view w → get w' = get w)
    (hset : ∀ table w w', view w' = view w → view (set table w') = view (set table w)) :
    (source s get set).GoesBy view where
  scopes := by
    intro site site' halike
    refine ⟨?_, halike⟩
    show Except.ok (get site'.world).scopes = Except.ok (get site.world).scopes
    rw [hget _ _ halike.2]
  fetch := by
    intro scope site site' halike
    simp only [Op.on, source, hget _ _ halike.2]
    cases (get site.world).arrivals.get? scope with
    | none => exact Op.agrees_ofExcept _ site site' halike
    | some e =>
      refine Op.Agrees.bind (s.agrees_applyAt view e) (fun _ => Op.agrees_ofExcept _) _ _ ?_
      exact ⟨halike.1, hset _ _ _ halike.2⟩

/-- The source of topologies goes by the registry and the table, and the channel is apart from both. -/
theorem Controller.separate_topology (c : Controller) :
    c.topologyHolder.Separate fun w => (w.registry, w.table) where
  send e w := by
    show (fun w : Surroundings Topology => (w.registry, w.table))
      ((Op.focus (·.channel) (fun channel w => { w with channel }) (Channel.send e)).on w).2 = _
    rw [Op.on_focus]
  source := by
    show (if c.topologyFromTable then _ else _ : Source _ _).GoesBy _
    cases c.topologyFromTable with
    | true =>
      refine SourceTable.goesBy_source (.topology c.settings.topology)
        (fun w : Surroundings Topology => w.table) (fun table w => { w with table })
        (fun w w' hview => (Prod.ext_iff.1 hview).2) fun table w w' hview => ?_
      exact Prod.ext (Prod.ext_iff.1 hview).1 rfl
    | false => exact Source.goesBy_ofRegistry fun w w' hview => (Prod.ext_iff.1 hview).1

namespace Holder

/-- A cluster of one component on one host of some name. -/
def clusterOn (hostName : String) : Topology :=
  { components := [{ name := "C", service := "S", hostIds := .ofList [7], hostNames := .ofList [hostName] }] }

/-- A cluster is created and polled, the channel is closed, and the cluster is updated. -/
def closing : List (Move (Surroundings Topology)) := [
  .call (.update (.single "1" (clusterOn "h") .create)),
  .poll "",
  .outside fun w => { w with channel := w.channel.close },
  .call (.update (.single "1" (clusterOn "i") .update))]

/-- Neither what was sent nor what was refused has the host names, all of which are held. -/
theorem host_names_stay_closing :
    let c : Controller := {}
    let h := c.topologyHolder
    let start := c.siteOf c.topology
    let bare : Component := { name := "C", service := "S", hostIds := .ofList [7] }
    let given := (h.recorded.course (closing.map Move.recorded) (start.beside [])).world.2
    given.length = 2 ∧
    (∀ envelope ∈ given, ∃ e : Event Topology, envelope = announcement c.settings.topology e ∧
      e.scopes.toList = [("1", { components := [bare] })]) ∧
    (h.course closing start).held.scopes.toList =
      [("1", { components := [{ bare with hostNames := .ofList ["h", "i"] }] })] ∧
    (h.course (closing.filterMap Move.quiet) start).held = (h.course closing start).held ∧
    ∃ told : Event Topology, ∀ hostName ∈ ["h", "i"],
      let after := ((h.update (.single "1" (clusterOn hostName) .create)).on start).2
      after.sent = [announcement c.settings.topology (told.withFingerprint after.held.fingerprint)] := by
  intro c h start bare given
  obtain ⟨-, hgiven, -, hquiet, hpair⟩ := host_names_stay h (rfl : h.strategy = .topology c.settings.topology)
  have hrecord : given =
      (h.announced closing start).map fun e => announcement c.settings.topology e.agentCopy :=
    congrArg (·.world.2) (hgiven closing start)
  have hwithin : ∀ move ∈ closing, move.Within fun w => (w.registry, w.table) := by
    simp only [closing, List.forall_mem_cons]
    exact ⟨trivial, trivial, ⟨id, fun w => rfl⟩, trivial, List.forall_mem_nil _⟩
  refine ⟨by decide +kernel, ?_, by decide +kernel, hquiet _ _ c.separate_topology closing hwithin start, ?_⟩
  · have hcopies : (h.announced closing start).map (·.agentCopy.scopes.toList) =
        [[("1", { components := [bare] })], [("1", { components := [bare] })]] := by decide +kernel
    rw [hrecord]
    intro envelope henvelope
    obtain ⟨e, he, rfl⟩ := List.mem_map.1 henvelope
    have hscopes := List.mem_map_of_mem (f := (·.agentCopy.scopes.toList)) he
    rw [hcopies] at hscopes
    exact ⟨e.agentCopy, rfl, by simpa using hscopes⟩
  · have hsame : (Event.single "1" (clusterOn "h") .create).SameButHostNames
        (.single "1" (clusterOn "i") .create) :=
      ⟨rfl, .cons ⟨rfl, .cons ⟨_, _, rfl⟩ .nil, rfl⟩ .nil⟩
    have hok : ((h.update (.single "1" (clusterOn "h") .create)).on start).1 = .ok true := by decide +kernel
    have hok' : ((h.update (.single "1" (clusterOn "i") .create)).on start).1 = .ok true := by decide +kernel
    obtain ⟨-, hfirst, hsecond⟩ :=
      hpair _ _ hsame start start _ _ true true (Prod.ext hok rfl) (Prod.ext hok' rfl)
    refine ⟨(Event.single "1" (clusterOn "h") .create).agentCopy, ?_⟩
    exact List.forall_mem_cons.2 ⟨hfirst, List.forall_mem_cons.2 ⟨hsecond, List.forall_mem_nil _⟩⟩

end Holder
end FleetSync
