import FleetSync.Proofs.Publisher.Grouping

/-!
What dispatching commands comes to.

The phases of a dispatch are told apart by what fails first. A command that cannot be routed is found
before anything is read, a command that cannot be given its entries before anything is sent, and then
events are sent until the transport refuses one (`dispatch_phases`). What was sent, if all was taken,
are the commands grouped by host and by cluster (`dispatch_groups`).
-/
namespace FleetSync

variable {ω : Type}

namespace Desk

/-- A desk apart from the dumps of commands. -/
def untraced (d : Desk ω) : Desk ω := { d with traced := [] }

theorem outward_of_untraced {d d' : Desk ω} (h : d'.untraced = d.untraced) :
    d'.outward = d.outward :=
  show outward d'.untraced = outward d.untraced by rw [h]

theorem eq_of_untraced {d d' : Desk ω} (h : d'.untraced = d.untraced) :
    d' = { d with traced := d'.traced } := by
  cases d
  cases d'
  cases h
  rfl

end Desk

/-! ### Sending -/

namespace Publisher
variable {p : Publisher ω} {lookups : Lookups} {store : SecretStore} {commands : Commands}

theorem on_send (p : Publisher ω) (e : CommandEvent) (desk : Desk ω) :
    (p.send e).on desk =
      match p.transport.send (p.envelope e) desk.world with
      | .ok () world => (.ok (), { desk with world, sent := desk.sent ++ [p.envelope e] })
      | .error f world => (.error f, { desk with world }) := by
  rw [Op.on, send]
  cases p.transport.send (p.envelope e) desk.world <;> rfl

/-- Sending events that are all taken. -/
theorem on_sends_of_takes {events : List CommandEvent} {desk : Desk ω} {w : ω}
    (h : p.transport.Takes (events.map p.envelope) desk.world w) :
    (events.forM p.send).on desk =
      (.ok (), { desk with world := w, sent := desk.sent ++ events.map p.envelope }) := by
  induction events generalizing desk with
  | nil =>
    cases h
    simp
  | cons e events ih =>
    cases h with
    | cons he hes =>
      rw [List.forM_eq_forM, List.forM_cons, Op.on_bind, on_send, he]
      -- the rest is sent from the desk that this event leaves
      have hrest := @ih { desk with world := _, sent := desk.sent ++ [p.envelope e] } hes
      rw [List.append_assoc] at hrest
      exact hrest

/-- Sending events of which one is refused. -/
theorem on_sends_of_refuses {before after : List CommandEvent} {e : CommandEvent} {desk : Desk ω}
    {f : Fault} {w : ω}
    (h : p.transport.RefusesAfter (before.map p.envelope) (p.envelope e) desk.world f w) :
    ((before ++ e :: after).forM p.send).on desk =
      (.error f, { desk with world := w, sent := desk.sent ++ before.map p.envelope }) := by
  obtain ⟨w₁, htakes, he⟩ := h
  rw [List.forM_eq_forM, List.forM_append, Op.on_bind, ← List.forM_eq_forM, on_sends_of_takes htakes]
  simp only [List.forM_eq_forM, List.forM_cons, Op.on_bind, on_send, he]

/-- The transport takes all events, or refuses one after those before it. -/
theorem sends_or_refuses (p : Publisher ω) (events : List CommandEvent) (w : ω) :
    (∃ w', p.transport.Takes (events.map p.envelope) w w') ∨
    ∃ before e after f w', events = before ++ e :: after ∧
      p.transport.RefusesAfter (before.map p.envelope) (p.envelope e) w f w' := by
  rcases p.transport.takes_or_refuses (events.map p.envelope) w with
    h | ⟨taken, d, rest, f, w', hsplit, h⟩
  · exact .inl h
  · obtain ⟨before, tail, rfl, rfl, htail⟩ := List.map_eq_append_iff.1 hsplit
    obtain ⟨e, after, rfl, rfl, -⟩ := List.map_eq_cons_iff.1 htail
    exact .inr ⟨before, e, after, f, w', rfl, h⟩

/-- Sending goes by what has gone out so far and by the transport only. -/
theorem on_sends_congr (events : List CommandEvent) {desk desk' : Desk ω}
    (h : desk.outward = desk'.outward) :
    ((events.forM p.send).on desk).1 = ((events.forM p.send).on desk').1 ∧
      ((events.forM p.send).on desk).2.outward = ((events.forM p.send).on desk').2.outward := by
  obtain ⟨hs, hw⟩ := Prod.mk.inj h
  rcases p.sends_or_refuses events desk.world with ⟨w, h⟩ | ⟨before, e, after, f, w, rfl, h⟩
  · rw [on_sends_of_takes h, on_sends_of_takes (hw ▸ h)]
    exact ⟨rfl, congrArg (fun s => (s ++ _, w)) hs⟩
  · rw [on_sends_of_refuses h, on_sends_of_refuses (hw ▸ h)]
    exact ⟨rfl, congrArg (fun s => (s ++ _, w)) hs⟩

theorem on_sendAll (p : Publisher ω) (events : OrdMap String CommandEvent) (desk : Desk ω) :
    (p.sendAll events).on desk =
      (((events.values.forM p.send).on desk).1.map fun _ => events.values.length,
        ((events.values.forM p.send).on desk).2) := by
  rw [sendAll, Op.on_bind, OrdMap.length_values]
  rcases (events.values.forM p.send).on desk with ⟨_ | _, desk'⟩ <;> rfl

/-! ### Routing all commands -/

theorem trace_yields (p : Publisher ω) (a : AgentCommand) :
    Op.Yields Desk.untraced (p.trace a) (.ok ()) := by
  intro desk
  refine ⟨rfl, ?_⟩
  show Desk.untraced (if p.settings.traceCommands then _ else desk) = desk.untraced
  split <;> rfl

/-- Routing commands only dumps them. -/
theorem routeAll_yields (p : Publisher ω) (lookups : Lookups) (commands : Commands) :
    Op.Yields Desk.untraced (p.routeAll lookups commands)
      (commands.mapM fun c => lookups.route p.settings.unassignedClusterId c.1 c.2) := by
  refine Op.Yields.mapM (fun c => ?_) commands
  obtain ⟨host, command⟩ := c
  exact Op.Yields.after (trace_yields p command) (Op.yields_ofExcept _)

/-! ### The phases of a dispatch -/

/-- Routing goes through all commands, or ends at the first that cannot be routed. -/
theorem routes_cases (p : Publisher ω) (lookups : Lookups) (commands : Commands) :
    (∃ f, (commands.mapM fun c => lookups.route p.settings.unassignedClusterId c.1 c.2) = .error f ∧
      FirstFailure (fun c => lookups.Unroutable c.2) commands f) ∨
    ∃ routed, (commands.mapM fun c => lookups.route p.settings.unassignedClusterId c.1 c.2) =
        .ok routed ∧ (∀ c ∈ commands, ∀ f, ¬ lookups.Unroutable c.2 f) ∧
      List.Forall₂ (lookups.RoutedAs p.settings.unassignedClusterId) commands routed := by
  have hsame : List.Forall₂ (· = ·) commands commands := List.forall₂_same.2 fun _ _ => rfl
  have hfails : ∀ c d : HostId × AgentCommand, c = d → ∀ f, lookups.Unroutable c.2 f ↔
      lookups.route p.settings.unassignedClusterId d.1 d.2 = .error f := by
    rintro c _ rfl f
    exact Lookups.route_eq_error_iff.symm
  rcases mapM_cases hsame hfails with h | ⟨routed, hm, hno, hr⟩
  · exact .inl h
  · exact .inr ⟨routed, hm, hno, hr.imp fun _ _ => Lookups.route_eq_ok_iff.1⟩

/-- Enriching goes through all orders, or ends at the one of the first command that cannot be given
its entries. -/
theorem enrichment_cases {routed : List Routed}
    (h : List.Forall₂ (lookups.RoutedAs p.settings.unassignedClusterId) commands routed) :
    (∃ f, routed.mapM (p.enrichment lookups store) = .error f ∧
      FirstFailure (p.Unserved lookups store) commands f) ∨
    ∃ orders, routed.mapM (p.enrichment lookups store) = .ok orders ∧
      (∀ c ∈ commands, ∀ f, ¬ p.Unserved lookups store c f) ∧
      List.Forall₂ (p.Goes lookups store) commands orders := by
  have hfails : ∀ c r, lookups.RoutedAs p.settings.unassignedClusterId c r → ∀ f,
      p.Unserved lookups store c f ↔ p.enrichment lookups store r = .error f := by
    rintro c r ⟨k, -, rfl⟩ f
    exact enrichment_eq_error_iff.symm
  rcases mapM_cases h hfails with h | ⟨orders, hm, hno, ho⟩
  · exact .inl h
  · refine .inr ⟨orders, hm, hno, forall₂_trans ?_ h ho⟩
    rintro c r r' ⟨k, hk, rfl⟩ hr
    obtain ⟨hhost, rfl, horder⟩ := becomes_of_enrichment hr
    exact ⟨hhost, hk, horder⟩

/-- A dispatch fails for the first command that cannot be routed, before anything is read; or for the
first that cannot be given its entries, before anything is sent; or it comes to sending. -/
theorem dispatch_cases (p : Publisher ω) (lookups : Lookups) (store : SecretStore)
    (commands : Commands) (desk : Desk ω) :
    (∃ f desk', FirstFailure (fun c => lookups.Unroutable c.2) commands f ∧
      (p.dispatch lookups store commands).on desk = (.error f, desk') ∧
      desk' = { desk with traced := desk'.traced }) ∨
    (∀ c ∈ commands, ∀ f, ¬ lookups.Unroutable c.2 f) ∧
      ((∃ f desk', FirstFailure (p.Unserved lookups store) commands f ∧
          (p.dispatch lookups store commands).on desk = (.error f, desk') ∧
          desk'.outward = desk.outward) ∨
        (∀ c ∈ commands, ∀ f, ¬ p.Unserved lookups store c f) ∧
          ∃ orders ready, List.Forall₂ (p.Goes lookups store) commands orders ∧
            ready.outward = desk.outward ∧
            (p.dispatch lookups store commands).on desk =
              (p.sendAll (Routed.bundle orders)).on ready) := by
  have hroutes := routeAll_yields p lookups commands
  rw [dispatch]
  rcases routes_cases p lookups commands with ⟨f, hm, hf⟩ | ⟨routed, hm, hno, hr⟩
  · rw [hm] at hroutes
    obtain ⟨desk', hd, hout⟩ := hroutes.on_bind_error
      (fun routed => routed.mapM (p.enrich lookups store) >>= fun orders =>
        p.sendAll (Routed.bundle orders)) desk
    exact .inl ⟨f, desk', hf, hout, Desk.eq_of_untraced hd⟩
  · rw [hm] at hroutes
    obtain ⟨desk₁, hd₁, hout₁⟩ := hroutes.on_bind_ok
      (fun routed => routed.mapM (p.enrich lookups store) >>= fun orders =>
        p.sendAll (Routed.bundle orders)) desk
    have hd₁ : desk₁.outward = desk.outward := Desk.outward_of_untraced hd₁
    have henrich := Op.Yields.mapM (enrich_yields p lookups store) routed
    refine .inr ⟨hno, ?_⟩
    rcases enrichment_cases hr with ⟨f, hm, hf⟩ | ⟨orders, hm, hno, hgoes⟩
    · rw [hm] at henrich
      obtain ⟨desk', hd, hout⟩ := henrich.on_bind_error
        (fun orders => p.sendAll (Routed.bundle orders)) desk₁
      exact .inl ⟨f, desk', hf, hout₁.trans hout, hd.trans hd₁⟩
    · rw [hm] at henrich
      obtain ⟨ready, hd, hout⟩ := henrich.on_bind_ok
        (fun orders => p.sendAll (Routed.bundle orders)) desk₁
      exact .inr ⟨hno, orders, ready, hgoes, hd.trans hd₁, hout₁.trans hout⟩

/-- A dispatch fails with what fails first, and nothing is sent that should not be.

A command whose cluster or task is not known comes before everything: nothing has been opened, read,
counted or sent, and commands are dumped at most. Otherwise a command that cannot be given its entries
comes before any sending. Otherwise the events go out in the order of their hosts up to the first that
the transport refuses, and all of them if it refuses none. -/
theorem dispatch_phases (p : Publisher ω) (lookups : Lookups) (store : SecretStore)
    (commands : Commands) (desk : Desk ω) :
    ((∃ c ∈ commands, ∃ f, lookups.Unroutable c.2 f) →
      ∃ f desk', FirstFailure (fun c => lookups.Unroutable c.2) commands f ∧
        (p.dispatch lookups store commands).on desk = (.error f, desk') ∧
        desk' = { desk with traced := desk'.traced }) ∧
    ((∀ c ∈ commands, ∀ f, ¬ lookups.Unroutable c.2 f) →
      ((∃ c ∈ commands, ∃ f, p.Unserved lookups store c f) →
        ∃ f desk', FirstFailure (p.Unserved lookups store) commands f ∧
          (p.dispatch lookups store commands).on desk = (.error f, desk') ∧
          desk'.sent = desk.sent ∧ desk'.world = desk.world) ∧
      ((∀ c ∈ commands, ∀ f, ¬ p.Unserved lookups store c f) →
        ∃ events, p.Grouped lookups store commands events ∧
          (∀ before e after f w, events = before ++ e :: after →
            p.transport.RefusesAfter (before.map p.envelope) (p.envelope e) desk.world f w →
            ∃ desk', (p.dispatch lookups store commands).on desk = (.error f, desk') ∧
              desk'.sent = desk.sent ++ before.map p.envelope ∧ desk'.world = w) ∧
          ((∀ before e after f w, events = before ++ e :: after →
              ¬ p.transport.RefusesAfter (before.map p.envelope) (p.envelope e) desk.world f w) →
            ∃ desk', (p.dispatch lookups store commands).on desk = (.ok events.length, desk') ∧
              desk'.sent = desk.sent ++ events.map p.envelope ∧
              p.transport.Takes (events.map p.envelope) desk.world desk'.world))) := by
  -- one phase decides; what is said of the others supposes that it does not fail, or that it does
  rcases dispatch_cases p lookups store commands desk with
    ⟨f, desk', hf, hout, hdesk⟩ | ⟨hrouted, hrest⟩
  · obtain ⟨c, hc, hcf⟩ := hf.exists_mem
    exact ⟨fun _ => ⟨f, desk', hf, hout, hdesk⟩, fun hno => absurd hcf (hno c hc f)⟩
  refine ⟨fun ⟨c, hc, f, hcf⟩ => absurd hcf (hrouted c hc f), fun _ => ?_⟩
  rcases hrest with ⟨f, desk', hf, hout, hd⟩ | ⟨hserved, orders, ready, hgoes, hd, hout⟩
  · obtain ⟨c, hc, hcf⟩ := hf.exists_mem
    obtain ⟨hsent, hworld⟩ := Prod.mk.inj hd
    exact ⟨fun _ => ⟨f, desk', hf, hout, hsent, hworld⟩, fun hno => absurd hcf (hno c hc f)⟩
  refine ⟨fun ⟨c, hc, f, hcf⟩ => absurd hcf (hserved c hc f), fun _ => ?_⟩
  obtain ⟨hsent, hworld⟩ := Prod.mk.inj hd
  refine ⟨_, grouped_bundle hgoes, ?_, fun hno => ?_⟩
  · intro before e after f w hsplit h
    rw [← hworld] at h
    rw [hout, on_sendAll, hsplit, on_sends_of_refuses h, hsent]
    exact ⟨_, rfl, rfl, rfl⟩
  · rcases p.sends_or_refuses (Routed.bundle orders).values ready.world with
      ⟨w, h⟩ | ⟨before, e, after, f, w, hsplit, h⟩
    · rw [hout, on_sendAll, on_sends_of_takes h, hsent]
      exact ⟨_, rfl, rfl, hworld ▸ h⟩
    · exact absurd (hworld ▸ h) (hno before e after f w hsplit)

/-- A dispatch that succeeds has come to sending. -/
theorem sends_of_dispatch {desk desk' : Desk ω} {n : Nat}
    (h : (p.dispatch lookups store commands).on desk = (.ok n, desk')) :
    (∀ c ∈ commands, ∀ f, ¬ lookups.Unroutable c.2 f) ∧
    (∀ c ∈ commands, ∀ f, ¬ p.Unserved lookups store c f) ∧
    ∃ orders ready, List.Forall₂ (p.Goes lookups store) commands orders ∧
      ready.outward = desk.outward ∧
      (p.sendAll (Routed.bundle orders)).on ready = (.ok n, desk') := by
  rcases dispatch_cases p lookups store commands desk with
    ⟨f, _, -, hout, -⟩ | ⟨hrouted, ⟨f, _, -, hout, -⟩ | ⟨hserved, orders, ready, hgoes, hd, hout⟩⟩
  · exact nomatch h.symm.trans hout
  · exact nomatch h.symm.trans hout
  · exact ⟨hrouted, hserved, orders, ready, hgoes, hd, hout.symm.trans h⟩

/-- A dispatch that succeeds has sent all that its orders come to. -/
theorem sent_of_dispatch {desk desk' : Desk ω} {n : Nat}
    (h : (p.dispatch lookups store commands).on desk = (.ok n, desk')) :
    ∃ orders, List.Forall₂ (p.Goes lookups store) commands orders ∧
      n = (Routed.bundle orders).values.length ∧
      desk'.sent = desk.sent ++ (Routed.bundle orders).values.map p.envelope ∧
      p.transport.Takes ((Routed.bundle orders).values.map p.envelope) desk.world desk'.world := by
  obtain ⟨-, -, orders, ready, hgoes, hd, hsend⟩ := sends_of_dispatch h
  obtain ⟨hsent, hworld⟩ := Prod.mk.inj hd
  refine ⟨orders, hgoes, ?_⟩
  rw [on_sendAll] at hsend
  rcases p.sends_or_refuses (Routed.bundle orders).values ready.world with
    ⟨w, htakes⟩ | ⟨before, e, after, f, w, hsplit, hrefuses⟩
  · rw [on_sends_of_takes htakes] at hsend
    cases hsend
    exact ⟨rfl, congrArg (· ++ _) hsent, hworld ▸ htakes⟩
  · rw [hsplit, on_sends_of_refuses hrefuses] at hsend
    cases hsend

/-- The same commands, with those for each cluster on each host in the same order, are dispatched
with the same outcome. -/
theorem dispatch_regrouped {commands' : Commands} {desk desk' : Desk ω} {n : Nat}
    (hre : p.Regrouped lookups commands commands')
    (h : (p.dispatch lookups store commands).on desk = (.ok n, desk')) :
    ∃ desk'', (p.dispatch lookups store commands').on desk = (.ok n, desk'') ∧
      desk''.outward = desk'.outward := by
  obtain ⟨hrouted, hserved, orders, ready, hgoes, hd, hsend⟩ := sends_of_dispatch h
  rcases dispatch_cases p lookups store commands' desk with
    ⟨f, _, hf, -, -⟩ | ⟨-, ⟨f, _, hf, -, -⟩ | ⟨-, orders', ready', hgoes', hd', hout'⟩⟩
  · obtain ⟨c, hc, hcf⟩ := hf.exists_mem
    exact absurd hcf (hrouted c (hre.perm.mem_iff.2 hc) f)
  · obtain ⟨c, hc, hcf⟩ := hf.exists_mem
    exact absurd hcf (hserved c (hre.perm.mem_iff.2 hc) f)
  · -- both lists come to the same events, and sending these depends on the desk only in what is out
    have hevents := (grouped_bundle hgoes).unique hre (grouped_bundle hgoes')
    obtain ⟨hresult, houtward⟩ :=
      on_sends_congr (p := p) (Routed.bundle orders').values (hd.trans hd'.symm)
    rw [on_sendAll, hevents] at hsend
    obtain ⟨hok, rfl⟩ := Prod.mk.inj hsend
    refine ⟨_, ?_, houtward.symm⟩
    rw [hout', on_sendAll, ← hresult, hok]

/-- What is sent by a dispatch that succeeds are the commands, grouped.

There is one envelope for each host, in ascending order of the texts of the ids, and it holds for each
cluster the commands for it, in their order. No bundle is empty, and each command is in the events once
and nowhere but where it goes. Commands in another order are sent alike, if those for each cluster on
each host keep their order, as they do where commands for different hosts are interleaved
differently. -/
theorem dispatch_groups {p : Publisher ω} {lookups : Lookups} {store : SecretStore}
    {commands : Commands} {desk desk' : Desk ω} {n : Nat}
    (h : (p.dispatch lookups store commands).on desk = (.ok n, desk')) :
    ∃ events, desk'.sent = desk.sent ++ events.map p.envelope ∧ n = events.length ∧
      p.transport.Takes (events.map p.envelope) desk.world desk'.world ∧
      p.Grouped lookups store commands events ∧
      (∀ e ∈ events, ∀ k b, e.clusters.get? k = some b → b.executions ≠ [] ∨ b.cancels ≠ []) ∧
      (∃ orders, List.Forall₂ (p.Goes lookups store) commands orders ∧
        (events.flatMap CommandEvent.routed).Perm orders) ∧
      (∀ commands', p.Regrouped lookups commands commands' →
        ∃ desk'', (p.dispatch lookups store commands').on desk = (.ok n, desk'') ∧
          desk''.sent = desk'.sent ∧ desk''.world = desk'.world) ∧
      ∀ commands' : Commands,
        (∀ host, (commands.filter fun c => c.1 = host) = commands'.filter fun c => c.1 = host) →
        p.Regrouped lookups commands commands' := by
  obtain ⟨orders, hgoes, hn, hsent, htakes⟩ := sent_of_dispatch h
  have hgrouped := grouped_bundle hgoes
  have hnonempty : ∀ e ∈ (Routed.bundle orders).values, ∀ k b, e.clusters.get? k = some b →
      b.executions ≠ [] ∨ b.cancels ≠ [] :=
    fun e he k b hb => (hgrouped.carries e he).nonempty hb
  have hagain : ∀ commands', p.Regrouped lookups commands commands' →
      ∃ desk'', (p.dispatch lookups store commands').on desk = (.ok n, desk'') ∧
        desk''.sent = desk'.sent ∧ desk''.world = desk'.world := by
    intro commands' hre
    obtain ⟨desk'', hout, houtward⟩ := dispatch_regrouped hre h
    exact ⟨desk'', hout, Prod.mk.inj houtward⟩
  exact ⟨_, hsent, hn, htakes, hgrouped, hnonempty,
    ⟨orders, hgoes, Routed.routed_bundle orders⟩, hagain, fun _ => Regrouped.of_filter_eq⟩

/-- A publisher whose transport takes everything. -/
def taker : Publisher Unit := ⟨{}, {}, ⟨fun _ _ => .ok () ()⟩⟩

/-- One cluster is known, and no host. -/
def oneCluster : Lookups := ⟨fun _ => some 7, fun _ => none, fun _ => some 7⟩

def noTables : SecretStore :=
  ⟨fun directory => .error (.unreadable directory), fun _ => .ok none⟩

/-- Commands for two hosts, of which the second comes first by the text of its id. -/
def forTwoHosts : Commands :=
  [(9, .cancel { hostname := "nine", targetTask := 5 }),
    (10, .background {
      hostname := "ten", clusterName := some "east", role := "DATANODE", roleCommand := "START"
      taskId := 1, commandId := "1-0" }),
    (9, .execution {
      hostname := "nine", role := "DATANODE", roleCommand := "STOP", taskId := 2, commandId := "1-1" })]

theorem forTwoHosts_grouped :
    ∃ desk' events, (taker.dispatch oneCluster noTables forTwoHosts).on { world := () } =
        (.ok 2, desk') ∧
      desk'.sent = events.map taker.envelope ∧ 2 = events.length ∧
      taker.Grouped oneCluster noTables forTwoHosts events := by
  have hrun : (taker.dispatch oneCluster noTables forTwoHosts).on { world := () } =
      (.ok 2, ((taker.dispatch oneCluster noTables forTwoHosts).on { world := () }).2) := rfl
  obtain ⟨events, hsent, hn, -, hgrouped, -⟩ := dispatch_groups hrun
  exact ⟨_, events, hrun, hsent, hn, hgrouped⟩

end Publisher
end FleetSync
