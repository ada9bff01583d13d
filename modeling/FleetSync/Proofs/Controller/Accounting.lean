import FleetSync.Controller.Action
import FleetSync.Controller.Counters
import FleetSync.Proofs.Holder.Announcing
import FleetSync.Proofs.Holder.Tallying
import FleetSync.Proofs.Publisher.Counting

/-!
The counters of a controller account for all that happened in a session.

Each action has its diary (`Action.diary`), made of those of holders, publisher and channel, and accounts for it
(`Controller.accounts_perform`). So does a session, action by action, whether or not they fail
(`Controller.ledger_run`). What the counters show is what the ledger says (`Controller.total_updates` and the two
after it). Unless an event arrives while a source is asked, only updates merge anything (`Action.mergesNothing`).
-/
namespace FleetSync

/-! ### Sources and transports -/

/-- How many envelopes of each kind the channel took. -/
def Channel.publishedOf (c : Channel) (kind : String) : Nat := (c.published.get? kind).getD 0

theorem Channel.publishedOf_count (c : Channel) (kind : String) :
    (c.count kind).publishedOf = fun k => c.publishedOf k + if k = kind then 1 else 0 := by
  funext k
  show ((c.published.insert kind _).get? k).getD 0 = (c.published.get? k).getD 0 + if k = kind then 1 else 0
  rw [OrdMap.get?_insert]
  split
  next hk => rw [hk]; rfl
  next => rfl

theorem Channel.counts_send : (⟨Channel.send⟩ : Transport Channel).Counts Channel.publishedOf := by
  intro e c
  simp only [send]
  by_cases hbudget : c.budget = some 0
  · rw [if_pos hbudget]
  · rw [if_neg hbudget]
    cases c.isOpen with
    | true => exact publishedOf_count _ e.payload.kind
    | false => rfl

namespace Surroundings
variable {α : Type}

/-- How many envelopes of each kind the channel around a holder took. -/
def publishedOf (w : Surroundings α) : String → Nat := w.channel.publishedOf

theorem counts_transport : (transport : Transport (Surroundings α)).Counts publishedOf := by
  intro e w
  have hchannel := Channel.counts_send e w.channel
  simp only [transport, Op.focus]
  simp only at hchannel
  cases hsend : Channel.send e w.channel <;> rw [hsend] at hchannel <;> exact hchannel

/-- What the fetch of a scope from the table of a holder comes to: the event that arrives meanwhile, if any. -/
def diaryOfArrival [Wire α] (s : Strategy α) (scope : ScopeKey) : Diary (Site (Surroundings α) α) := fun site =>
  match site.world.table.arrivals.get? scope with
  | some e => s.diaryOfApply e site
  | none => []

theorem counted_tableSource [Wire α] (s : Strategy α) :
    ({ strategy := s, source := tableSource s, transport } : Holder (Surroundings α) α).Counted publishedOf
      (diaryOfArrival s) where
  transport := counts_transport
  scopes rest := Op.accounts_nothing fun _ => rfl
  fetch rest scope := by
    intro site
    have hfound : ∀ (r : Except Fault α) (now : Site (Surroundings α) α), Site.ledger publishedOf s.name rest
        ((Op.ofExcept r : Op _ α).on now).2 = Site.ledger publishedOf s.name rest now := by
      intro r now
      rw [Op.on_ofExcept]
    simp only [Op.on, diaryOfArrival, tableSource, SourceTable.source]
    cases site.world.table.arrivals.get? scope with
    | none => exact hfound _ site
    | some e =>
      -- the event has left the table when it is applied, which is not counted
      exact (s.accounts_applyAt publishedOf rest e).followed (fun _ => hfound _) _

end Surroundings

theorem Source.counted_ofRegistry (s : Strategy Topology) :
    ({ strategy := s, source := .ofRegistry (·.registry), transport := Surroundings.transport } :
      Holder (Surroundings Topology) Topology).Counted Surroundings.publishedOf fun _ => .nothing where
  transport := Surroundings.counts_transport
  scopes rest := Op.accounts_nothing fun _ => rfl
  fetch rest scope := Op.accounts_nothing fun site => by
    show Site.ledger _ _ rest (Op.on (Op.ofExcept (site.world.registry.topology scope)) site).2 = _
    rw [Op.on_ofExcept]

/-! ### Diaries -/

namespace HolderAction
variable {α : Type} [Wire α]

/-- What an action on a holder comes to, given what fetching a scope comes to. -/
def diary (h : Holder (Surroundings α) α) (asking : ScopeKey → Diary (Site (Surroundings α) α)) :
    HolderAction α → Diary (Site (Surroundings α) α)
  | load | currentData => h.diaryOfBuild asking
  | resync => h.diaryOfResync asking
  | fullSnapshot scope => asking scope
  | scopeUpdateIfChanged scope _ => Holder.diaryOfDemand asking scope
  | apply e => h.strategy.diaryOfApply e
  | update e => h.diaryOfUpdate e
  | updateIfChanged _ | setValue _ _ | unsetValue _ | listScopes _ | expectArrival _ _ => .nothing

theorem accounts_perform {h : Holder (Surroundings α) α}
    {asking : ScopeKey → Diary (Site (Surroundings α) α)} (hcounted : h.Counted Surroundings.publishedOf asking)
    (rest : Ledger) (ofValue : α → Reply) (ofEvent : Event α → Reply) (a : HolderAction α) :
    (a.perform ofValue ofEvent h).Accounts (Site.ledger Surroundings.publishedOf h.strategy.name rest)
      (a.diary h asking) := by
  cases a with
  | load => exact (hcounted.load rest).map _
  | resync => exact (hcounted.resync rest).map _
  | currentData => exact (hcounted.currentData rest).map _
  | fullSnapshot scope => exact (hcounted.fetch rest scope).map _
  | scopeUpdateIfChanged scope prior => exact (hcounted.scopeUpdateIfChanged rest scope prior).map _
  | apply e => exact (h.strategy.accounts_applyAt _ rest e).map _
  | update e => exact (Holder.accounts_update hcounted.transport rest e).map _
  | updateIfChanged | setValue | unsetValue | listScopes | expectArrival =>
    exact Op.accounts_nothing fun _ => rfl

end HolderAction

namespace Controller

/-- What fetching a topology comes to. The registry is only looked at. -/
def askingTopology (c : Controller) : ScopeKey → Diary (Site (Surroundings Topology) Topology) :=
  if c.topologyFromTable then Surroundings.diaryOfArrival c.topologyHolder.strategy else fun _ => .nothing

/-- An envelope that is sent as it is. -/
def diaryOfPublish (e : Envelope) : Diary Controller := fun c =>
  match Channel.send e c.channel with
  | .ok _ _ => [.accepted e]
  | .error _ _ => []

/-- What is done at the site of the holder of topologies. -/
def atTopology (diary : Controller → Diary (Site (Surroundings Topology) Topology)) : Diary Controller :=
  fun c => diary c (c.siteOf c.topology)

/-- What is done at the site of the holder of configurations. -/
def atConfigs (diary : Controller → Diary (Site (Surroundings HostConfigs) HostConfigs)) : Diary Controller :=
  fun c => diary c (c.siteOf c.configs)

/-- What is done at the site of the holder of whole values. -/
def atGeneric (diary : Controller → Diary (Site (Surroundings HostConfigs) HostConfigs)) : Diary Controller :=
  fun c => diary c (c.siteOf c.generic)

/-- What is done at the desk of the publisher. -/
def atPublisher (diary : Controller → Diary (Desk Channel)) : Diary Controller := fun c =>
  diary c { traced := c.traced, injected := c.injected, sent := c.sent, world := c.channel }

/-- What fetching configurations comes to. -/
def askingConfigs (c : Controller) : ScopeKey → Diary (Site (Surroundings HostConfigs) HostConfigs) :=
  Surroundings.diaryOfArrival c.configsHolder.strategy

/-- What fetching whole values comes to. -/
def askingGeneric (c : Controller) : ScopeKey → Diary (Site (Surroundings HostConfigs) HostConfigs) :=
  Surroundings.diaryOfArrival c.genericHolder.strategy

theorem counted_topology (c : Controller) : c.topologyHolder.Counted Surroundings.publishedOf c.askingTopology := by
  rw [topologyHolder, askingTopology]
  cases c.topologyFromTable with
  | true => exact Surroundings.counted_tableSource _
  | false => exact Source.counted_ofRegistry _

theorem counted_configs (c : Controller) : c.configsHolder.Counted Surroundings.publishedOf c.askingConfigs :=
  Surroundings.counted_tableSource (.configs c.settings.configs)

theorem counted_generic (c : Controller) : c.genericHolder.Counted Surroundings.publishedOf c.askingGeneric :=
  Surroundings.counted_tableSource (.wholesale "generic" "/generic" c.skipsEqual)

end Controller

open Controller in
/-- What an action comes to. -/
def Action.diary : Action → Diary Controller
  | topology a => atTopology fun c => a.diary c.topologyHolder c.askingTopology
  | dropTopology scope => atTopology fun c =>
    c.topologyHolder.diaryOfUpdate (.single scope c.topologyHolder.strategy.emptyValue .delete)
  | configs a => atConfigs fun c => a.diary c.configsHolder c.askingConfigs
  | updateHost host value => atConfigs fun c =>
    c.configsHolder.diaryOfUpdate (.single (Decimal.idText host) value .update)
  | removeHost host => atConfigs fun c =>
    c.configsHolder.diaryOfUpdate (.single (Decimal.idText host) c.configsHolder.strategy.emptyValue .delete)
  | hostPoll host _ => atConfigs fun c => Holder.diaryOfDemand c.askingConfigs (Decimal.idText host)
  | refreshHosts cluster hosts => atConfigs fun c =>
    c.configsHolder.diaryOfRefresh c.askingConfigs c.registry cluster hosts
  | generic a => atGeneric fun c => a.diary c.genericHolder c.askingGeneric
  | dispatch commands => atPublisher fun c =>
    c.publisher.diaryOfDispatch c.registry.lookups c.secretStore commands
  | injectSecret command action host => atPublisher fun c =>
    c.publisher.diaryOfInjection c.secretStore action host command
  | publish e => diaryOfPublish e
  | upsertCluster _ | removeCluster _ | registerHost _ _ | recordTask _ _ | agentPoll _ | closeChannel
  | limitChannel _ | writeFile _ _ | makeDirectory _ | removeFile _ => .nothing

namespace Controller

/-! ### Ledgers -/

def ledger (c : Controller) : Ledger where
  published := c.channel.publishedOf
  updates := fun holder => ((c.tallies.lookup holder).getD {}).get
  injected := fun action => (c.injected.get? action).getD 0
  sent := c.sent

theorem updates_ledger (c : Controller) (holder : String) : c.ledger.updates holder =
    if holder = "configs" then c.configs.tally.get
    else if holder = "generic" then c.generic.tally.get
    else if holder = "topology" then c.topology.tally.get
    else ({} : Tally).get := by
  have hnames : c.tallies =
      [("configs", c.configs.tally), ("generic", c.generic.tally), ("topology", c.topology.tally)] := rfl
  show ((c.tallies.lookup holder).getD {}).get = _
  rw [hnames, Entries.lookup_cons_eq, Entries.lookup_cons_eq, Entries.lookup_cons_eq]
  split
  next => rfl
  next =>
    split
    next => rfl
    next => split <;> rfl

/-! ### Actions -/

/-- An operation of a holder accounts for what it does at the site of that holder, if what the holder counts is
found in the ledger under its name. -/
theorem accounts_onStation {α β : Type} {name : String} {station : Controller → Station α}
    (store : Station α → Controller → Controller)
    (hstation : ∀ c : Controller, c.ledger.updates name = (station c).tally.get)
    (hstore : ∀ (c : Controller) (s : Station α), (store s c).ledger = { c.ledger with
      updates := fun holder => if holder = name then s.tally.get else c.ledger.updates holder })
    {op : Controller → Op (Site (Surroundings α) α) β} {diary : Controller → Diary (Site (Surroundings α) α)}
    (h : ∀ c, (op c).Accounts (Site.ledger Surroundings.publishedOf name c.ledger) (diary c)) :
    Op.Accounts ledger (fun c => Op.focus (fun c : Controller => c.siteOf (station c))
      (fun site c => store (stationOf site) (c.afterSite site)) (op c) c) fun c => diary c (c.siteOf (station c)) := by
  refine Op.Accounts.focus (fun c => Ledger.ext rfl ?_ rfl rfl) (fun c site => hstore _ _) h
  funext holder
  show (if holder = name then (station c).tally.get else c.ledger.updates holder) = c.ledger.updates holder
  split
  next hholder => rw [hholder, hstation]
  next => rfl

section
variable {β : Type}

theorem accounts_onTopology
    {op : Holder (Surroundings Topology) Topology → Op (Site (Surroundings Topology) Topology) β}
    {diary : Controller → Diary (Site (Surroundings Topology) Topology)}
    (h : ∀ c : Controller, (op c.topologyHolder).Accounts
      (Site.ledger Surroundings.publishedOf c.topologyHolder.strategy.name c.ledger) (diary c)) :
    (onTopology op).Accounts ledger (atTopology diary) := by
  refine accounts_onStation (fun topology c => { c with topology }) (fun c => ?_)
    (fun c s => Ledger.ext rfl (funext fun holder => ?_) rfl rfl) h
  · rw [updates_ledger]
    rfl
  · show _ = if holder = "topology" then s.tally.get else c.ledger.updates holder
    rw [updates_ledger, updates_ledger]
    grind

section
variable {op : Holder (Surroundings HostConfigs) HostConfigs → Op (Site (Surroundings HostConfigs) HostConfigs) β}
  {diary : Controller → Diary (Site (Surroundings HostConfigs) HostConfigs)}

theorem accounts_onConfigs
    (h : ∀ c : Controller, (op c.configsHolder).Accounts
      (Site.ledger Surroundings.publishedOf c.configsHolder.strategy.name c.ledger) (diary c)) :
    (onConfigs op).Accounts ledger (atConfigs diary) := by
  refine accounts_onStation (fun configs c => { c with configs }) (fun c => ?_)
    (fun c s => Ledger.ext rfl (funext fun holder => ?_) rfl rfl) h
  · rw [updates_ledger]
    rfl
  · show _ = if holder = "configs" then s.tally.get else c.ledger.updates holder
    rw [updates_ledger, updates_ledger]
    grind

theorem accounts_onGeneric
    (h : ∀ c : Controller, (op c.genericHolder).Accounts
      (Site.ledger Surroundings.publishedOf c.genericHolder.strategy.name c.ledger) (diary c)) :
    (onGeneric op).Accounts ledger (atGeneric diary) := by
  refine accounts_onStation (fun generic c => { c with generic }) (fun c => ?_)
    (fun c s => Ledger.ext rfl (funext fun holder => ?_) rfl rfl) h
  · rw [updates_ledger]
    rfl
  · show _ = if holder = "generic" then s.tally.get else c.ledger.updates holder
    rw [updates_ledger, updates_ledger]
    grind

end

theorem accounts_onPublisher {op : Publisher Channel → Op (Desk Channel) β}
    {diary : Controller → Diary (Desk Channel)}
    (h : ∀ c : Controller, (op c.publisher).Accounts (Desk.ledger Channel.publishedOf c.ledger) (diary c)) :
    (onPublisher op).Accounts ledger (atPublisher diary) :=
  Op.Accounts.focus (fun _ => rfl) (fun _ _ => rfl) h

/-- What goes by the controller as it is accounts for what it does with any. -/
theorem accounts_get {op : Controller → Op Controller β} {diary : Controller → Diary Controller}
    (h : ∀ c, (op c).Accounts ledger (diary c)) :
    (do let c ← get; op c : Op Controller β).Accounts ledger fun c => diary c c := by
  intro c
  rw [Op.on_bind_of_ok (Op.on_get c)]
  exact h c c

end

theorem accounts_publish (e : Envelope) : (publish e).Accounts ledger (diaryOfPublish e) := by
  intro c
  have hcount := Channel.counts_send e c.channel
  rw [Op.on, publish, diaryOfPublish]
  simp only at hcount
  cases hsend : Channel.send e c.channel <;> rw [hsend] at hcount <;> exact Ledger.ext hcount rfl rfl rfl

/-- Every action accounts for what its diary says. -/
theorem accounts_perform (a : Action) : (perform a).Accounts ledger a.diary := by
  cases a <;> rw [perform, Action.diary]
  case topology a => exact accounts_onTopology fun c => a.accounts_perform c.counted_topology c.ledger _ _
  case dropTopology scope =>
    exact accounts_onTopology fun c => (Holder.accounts_update c.counted_topology.transport c.ledger _).map _
  case configs a => exact accounts_onConfigs fun c => a.accounts_perform c.counted_configs c.ledger _ _
  case updateHost host value =>
    exact accounts_onConfigs fun c => (Holder.accounts_update c.counted_configs.transport c.ledger _).map _
  case removeHost host =>
    exact accounts_onConfigs fun c => (Holder.accounts_update c.counted_configs.transport c.ledger _).map _
  case hostPoll host prior =>
    exact accounts_onConfigs fun c => (c.counted_configs.scopeUpdateIfChanged c.ledger _ prior).map _
  case refreshHosts cluster hosts =>
    have hrefresh : ∀ c : Controller,
        (onConfigs fun h => Reply.count <$> h.refreshHosts c.registry cluster hosts).Accounts ledger
          (atConfigs fun d => d.configsHolder.diaryOfRefresh d.askingConfigs c.registry cluster hosts) :=
      fun c => accounts_onConfigs fun d => (d.counted_configs.refreshHosts d.ledger c.registry cluster hosts).map _
    exact (accounts_get hrefresh :)
  case generic a => exact accounts_onGeneric fun c => a.accounts_perform c.counted_generic c.ledger _ _
  case dispatch commands =>
    have hdispatch : ∀ c : Controller,
        (onPublisher fun p => Reply.count <$> p.dispatch c.registry.lookups c.secretStore commands).Accounts ledger
          (atPublisher fun d => d.publisher.diaryOfDispatch c.registry.lookups c.secretStore commands) :=
      fun c => accounts_onPublisher fun d =>
        (Publisher.accounts_dispatch Channel.counts_send d.ledger c.registry.lookups c.secretStore commands).map _
    exact (accounts_get hdispatch :)
  case injectSecret command action host =>
    have hinject : ∀ c : Controller,
        (onPublisher fun p =>
          Reply.command <$> Op.onItem (p.injectSecret c.secretStore action host) command).Accounts ledger
          (atPublisher fun d => d.publisher.diaryOfInjection c.secretStore action host command) :=
      fun c => accounts_onPublisher fun d =>
        (d.publisher.accounts_injection Channel.publishedOf d.ledger c.secretStore action host command).map _
    have hget := accounts_get hinject
    unfold atPublisher at hget ⊢
    exact hget
  case publish e => exact (accounts_publish e).map _
  all_goals exact Op.accounts_nothing fun _ => rfl

/-- What a session comes to, action by action, whether or not they fail. -/
def diary : List Action → Diary Controller
  | [] => .nothing
  | a :: actions => fun c => a.diary c ++ diary actions ((perform a).on c).2

theorem ledger_run (actions : List Action) (c : Controller) :
    (run actions c).ledger = c.ledger.noteAll (diary actions c) := by
  induction actions generalizing c with
  | nil => rfl
  | cons a actions ih =>
    show (run actions ((perform a).on c).2).ledger = _
    rw [ih, accounts_perform, ← Ledger.noteAll_append]
    rfl

/-! ### What the counters show -/

end Controller

/-- The value that is shown under some labels, and zero if none is. -/
def Family.total (f : Family) (labels : List (String × String)) : Nat :=
  ((f.samples.find? (·.labels = labels)).map (·.value)).getD 0

/-- A map of counts that is shown under one label. -/
theorem Family.total_of_map {f : Family} {label : String} {counts : OrdMap String Nat}
    (h : f.samples = counts.toList.map fun e => ⟨[(label, e.1)], e.2⟩) (name : String) :
    f.total [(label, name)] = (counts.get? name).getD 0 := by
  have hlookup : ∀ l : List (String × Nat), ((l.map fun e => (⟨[(label, e.1)], e.2⟩ : Sample)).find?
      (·.labels = [(label, name)])).map (·.value) = l.lookup name := by
    intro l
    induction l with
    | nil => rfl
    | cons e l ih =>
      rw [List.map_cons, List.find?_cons, Entries.lookup_cons_eq]
      by_cases hname : name = e.1
      · simp [hname]
      · have hother : decide ([(label, e.1)] = [(label, name)]) = false := by simp [Ne.symm hname]
        simp only [hother, if_neg hname]
        exact ih
  rw [total, h, hlookup]
  rfl

namespace Controller

/-- The labels under which updates are shown. -/
def updateLabels (holder : String) (changed : Bool) : List (String × String) :=
  [("changed", if changed then "true" else "false"), ("holder", holder)]

theorem find_updateSamples (holder : String) (changed b : Bool) (t : String × Tally) :
    ((updateSamples b t).find? (·.labels = updateLabels holder changed)).map (·.value) =
      if b = changed ∧ t.1 = holder ∧ t.2.get b ≠ 0 then some (t.2.get b) else none := by
  have hlabels : updateLabels t.1 b = updateLabels holder changed ↔ b = changed ∧ t.1 = holder := by
    cases b <;> cases changed <;> simp [updateLabels]
  show ((if t.2.get b = 0 then [] else [(⟨updateLabels t.1 b, t.2.get b⟩ : Sample)]).find? _).map _ = _
  by_cases hzero : t.2.get b = 0
  · simp [hzero]
  · by_cases hshown : b = changed ∧ t.1 = holder <;> simp [hzero, hlabels, hshown]
    grind

/-- A tally that is zero is not shown, and comes to the same. -/
theorem total_updates (c : Controller) (holder : String) (changed : Bool) :
    c.updateFamily.total (updateLabels holder changed) = c.ledger.updates holder changed := by
  have hnames : c.tallies =
      [("configs", c.configs.tally), ("generic", c.generic.tally), ("topology", c.topology.tally)] := rfl
  rw [updates_ledger, Family.total, updateFamily, hnames]
  simp only [List.flatMap_cons, List.flatMap_nil, List.append_nil, List.find?_append, Option.map_or,
    find_updateSamples]
  cases changed <;> grind [Tally.get]

theorem total_publications (c : Controller) (kind : String) :
    c.publicationFamily.total [("kind", kind)] = c.ledger.published kind :=
  Family.total_of_map rfl kind

theorem total_injections (c : Controller) (action : String) :
    c.injectionFamily.total [("action", action)] = c.ledger.injected action :=
  Family.total_of_map rfl action

end Controller

/-! ### What merges nothing -/

/-- An action that updates a holder, apart from events that arrive while its source is asked. -/
def HolderAction.updates {α : Type} : HolderAction α → Bool
  | apply _ | update _ => true
  | _ => false

/-- An action that updates a holder, apart from events that arrive while a source is asked. -/
def Action.updates : Action → Bool
  | topology a => a.updates
  | configs a | generic a => a.updates
  | dropTopology _ | updateHost _ _ | removeHost _ | refreshHosts _ _ => true
  | _ => false

/-- No event is to arrive while the table is asked. -/
def Surroundings.Quiet {α : Type} (w : Surroundings α) : Prop := w.table.arrivals = ∅

theorem Surroundings.mergesNothing_arrival {α : Type} [Wire α] (s : Strategy α) (scope : ScopeKey) :
    (diaryOfArrival s scope).MergesNothing fun site => site.world.Quiet := by
  intro site hquiet
  rw [Quiet] at hquiet
  rw [diaryOfArrival, hquiet]
  exact fun _ _ => List.not_mem_nil

/-- No event is to arrive while a source is asked. -/
structure Controller.Quiet (c : Controller) : Prop where
  topology : c.topology.table.arrivals = ∅
  configs : c.configs.table.arrivals = ∅
  generic : c.generic.table.arrivals = ∅

/-- Builds, resyncs, snapshots and loads on demand are no updates. -/
theorem HolderAction.mergesNothing {α : Type} [Wire α] {h : Holder (Surroundings α) α}
    {asking : ScopeKey → Diary (Site (Surroundings α) α)} {P : Site (Surroundings α) α → Prop}
    (hsource : h.source.Preserves P) (hasking : ∀ scope, (asking scope).MergesNothing P) {a : HolderAction α}
    (ha : a.updates = false) : (a.diary h asking).MergesNothing P := by
  cases a with
  | apply e | update e => cases ha
  | load | currentData => exact Holder.mergesNothing_build hsource hasking
  | resync => exact Holder.mergesNothing_resync hsource hasking
  | fullSnapshot scope => exact hasking scope
  | scopeUpdateIfChanged scope prior => exact Holder.mergesNothing_demand hasking scope
  | updateIfChanged | setValue | unsetValue | listScopes | expectArrival => exact .nothing

theorem Controller.mergesNothing_askingTopology (c : Controller) (scope : ScopeKey) :
    (c.askingTopology scope).MergesNothing fun site => site.world.Quiet := by
  rw [askingTopology]
  cases c.topologyFromTable with
  | true => exact Surroundings.mergesNothing_arrival _ scope
  | false => exact .nothing

/-- Nothing but an update merges anything while no event arrives. -/
theorem Action.mergesNothing {a : Action} (ha : a.updates = false) :
    a.diary.MergesNothing Controller.Quiet := by
  intro c hquiet
  cases a with
  | dropTopology | updateHost | removeHost | refreshHosts => cases ha
  | topology a =>
    exact HolderAction.mergesNothing (c.preserves_topology fun _ hnone => hnone) c.mergesNothing_askingTopology ha _
      hquiet.topology
  | configs a =>
    exact HolderAction.mergesNothing
      (Surroundings.preserves_tableSource (.configs c.settings.configs) fun _ hnone => hnone)
      (Surroundings.mergesNothing_arrival _) ha _ hquiet.configs
  | hostPoll host prior =>
    exact Holder.mergesNothing_demand (Surroundings.mergesNothing_arrival _) _ _ hquiet.configs
  | generic a =>
    exact HolderAction.mergesNothing
      (Surroundings.preserves_tableSource (.wholesale "generic" "/generic" c.skipsEqual) fun _ hnone => hnone)
      (Surroundings.mergesNothing_arrival _) ha _ hquiet.generic
  | dispatch commands => exact c.publisher.mergesNothing_dispatch _ _ _ _ trivial
  | injectSecret command action host => exact c.publisher.mergesNothing_injection _ action host command _ trivial
  | publish e =>
    intro holder changed
    show _ ∉ Controller.diaryOfPublish e c
    rw [Controller.diaryOfPublish]
    cases Channel.send e c.channel <;> simp
  | upsertCluster | removeCluster | registerHost | recordTask | agentPoll | closeChannel | limitChannel |
    writeFile | makeDirectory | removeFile => exact fun _ _ => List.not_mem_nil

namespace Controller

/-! ### Sessions -/

/-- Nothing has been counted yet. -/
structure Zeroed (c : Controller) : Prop where
  published : c.channel.published = ∅
  injected : c.injected = ∅
  topology : c.topology.tally = {}
  configs : c.configs.tally = {}
  generic : c.generic.tally = {}

theorem Zeroed.ledger {c : Controller} (hzero : c.Zeroed) :
    c.ledger = { published := fun _ => 0, updates := fun _ _ => 0, injected := fun _ => 0, sent := c.sent } := by
  refine Ledger.ext (funext fun kind => ?_) (funext fun holder => funext fun changed => ?_)
    (funext fun action => ?_) rfl
  · show (c.channel.published.get? kind).getD 0 = 0
    rw [hzero.published]
    rfl
  · rw [updates_ledger, hzero.topology, hzero.configs, hzero.generic, ite_self, ite_self, ite_self]
    cases changed <;> rfl
  · show (c.injected.get? action).getD 0 = 0
    rw [hzero.injected]
    rfl

/-- After any session, whether or not its actions fail, the counters say what happened in it. Envelopes are counted
by kind as the channel takes them, keytab entries by action as they are given out, also in a dispatch that fails
later, and updates by holder and change: those that were merged, announced or not. Nothing else is an update, unless
a source has the holder apply an event while it is asked. -/
theorem counters_account {before : Controller} (hzero : before.Zeroed) (actions : List Action) :
    let after := run actions before
    let session := diary actions before
    (after.sent = before.sent ++ Occurrence.envelopes session ∧
      ∀ kind, after.publicationFamily.total [("kind", kind)] =
        (Occurrence.envelopes session).countP (·.payload.kind = kind)) ∧
    (∀ holder changed, after.updateFamily.total (updateLabels holder changed) =
      session.count (.merged holder changed)) ∧
    (∀ action : KeytabAction, after.injectionFamily.total [("action", action.name)] =
      Occurrence.entriesFor action session) ∧
    (∀ {ω α : Type} [Wire α] (h : Holder ω α) (e : Event α) (site : Site ω α) (holder : String)
        (changed : Bool),
      let merges := if holder = h.strategy.name ∧ ((h.apply e).on site).1.toOption = some changed then 1 else 0
      (h.strategy.diaryOfApply e site).count (.merged holder changed) = merges ∧
        (h.diaryOfUpdate e site).count (.merged holder changed) = merges) ∧
    ∀ (c : Controller) (a : Action), c.Quiet → a.updates = false →
      ∀ holder changed, .merged holder changed ∉ a.diary c := by
  intro after session
  have hledger : after.ledger = before.ledger.noteAll session := ledger_run actions before
  rw [hzero.ledger] at hledger
  refine ⟨⟨?_, fun kind => ?_⟩, fun holder changed => ?_, fun action => ?_,
    fun h e site holder changed =>
      ⟨h.count_merged_apply e site holder changed, h.count_merged_update e site holder changed⟩,
    fun c a hquiet ha => Action.mergesNothing ha c hquiet⟩
  · show after.ledger.sent = _
    rw [hledger, Ledger.sent_noteAll]
  · rw [total_publications, hledger, Ledger.published_noteAll, Nat.zero_add]
  · rw [total_updates, hledger, Ledger.updates_noteAll, Nat.zero_add]
  · rw [total_injections, hledger, Ledger.injected_noteAll, Nat.zero_add]

/-- A command that takes keytabs away from a host, as far as they are in a table. -/
def removal (host : HostId) (name : String) : HostId × AgentCommand :=
  (host, .execution {
    hostname := name, role := "R", roleCommand := "CUSTOM", taskId := 1, commandId := "c"
    params := .ofList [("custom_command", "remove_keytab"), ("data_directory", "d")] })

/-- An update arrives during a load, one is announced, the next is refused by the channel, one without scopes changes
nothing, and the last is for no host. Then a dispatch fails for its second host. -/
def mishaps : List Action := [
  .configs (.setValue "1" { timestamp := 1 }),
  .configs (.expectArrival "1" (.single "2" { timestamp := 2 } .update)),
  .configs .load,
  .limitChannel (some 1),
  .updateHost 3 { timestamp := 3 },
  .updateHost 4 { timestamp := 4 },
  .configs (.update { type := .update }),
  .configs (.update (.single "x" {} .update)),
  .writeFile "d/identity.dat" "hostname\nh\nH\nk\n".toUTF8.toList,
  .registerHost 1 "h",
  .dispatch [removal 1 "h", removal 2 "i"]]

/-- One envelope was taken, three events were merged with a change and one without, and two entries given out. -/
theorem counters_account_mishaps :
    let after := run mishaps {}
    after.publicationFamily.total [("kind", "configs")] = 1 ∧
    after.updateFamily.total (updateLabels "configs" true) = 3 ∧
    after.updateFamily.total (updateLabels "configs" false) = 1 ∧
    after.injectionFamily.total [("action", "REMOVE_KEYTAB")] = 2 := by
  intro after
  have hzero : ({} : Controller).Zeroed := ⟨rfl, rfl, rfl, rfl, rfl⟩
  obtain ⟨⟨-, hpublished⟩, hmerged, hinjected, -⟩ := counters_account hzero mishaps
  have hremoved : after.injectionFamily.total [("action", "REMOVE_KEYTAB")] = _ := hinjected .remove
  rw [hpublished, hmerged, hmerged, hremoved]
  decide +kernel

end Controller
end FleetSync
