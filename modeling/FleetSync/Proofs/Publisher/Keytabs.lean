import FleetSync.Proofs.Publisher.Dispatch

/-!
Keytab entries are exact, and no host is handed those of another.

A command that asks for an action on keytabs goes out with one entry for each wanted record of its
data directory, in their order, behind the entries it came with; every other command goes out with
just those (`Publisher.KeytabsExact`). What an entry hands out is the keytab file of the record it was
made from, and that is a record of the host (`Publisher.dispatch_keytabs`).
-/
namespace FleetSync

variable {ω : Type}

namespace SecretStore
variable {store : SecretStore} {directory : String} {action : KeytabAction} {host : String}

/-- An entry names a host, up to the case of letters, and the bytes that it hands out, if any, are those
of a keytab file of the host it names. -/
def IsOwn (store : SecretStore) (directory name : String) (e : KeytabEntry) : Prop :=
  Text.sameIgnoringCase e.hostname name ∧
    ∀ text, e.contentBase64 = some text → ∃ path bytes, e.path = some path ∧
      store.keytab (keytabLocation directory e.hostname path) = .ok (some bytes) ∧
      Base64.decode? text.toList = some bytes

/-- What tells of a record of a host is the host's own. -/
theorem isOwn_of_tells {name : String} {r : IdentityRecord} {e : KeytabEntry}
    (hr : Text.sameIgnoringCase r.hostname name) (h : store.Tells directory action r e) :
    store.IsOwn directory name e := by
  cases action with
  | remove =>
    obtain rfl : e = _ := h
    exact ⟨hr, nofun⟩
  | set =>
    obtain ⟨rfl, path, bytes, text, hp, hk, hc, hread⟩ := h
    refine ⟨hr, fun text' hc' => ?_⟩
    obtain rfl := Option.some.inj (hc.symm.trans hc')
    exact ⟨path, bytes, hp, hk, hread⟩

end SecretStore

namespace Publisher
variable {p : Publisher ω} {lookups : Lookups} {store : SecretStore} {host : HostId}

/-- A command asks for an action on the keytabs of a data directory. -/
def Asks (p : Publisher ω) (c : ExecutionCommand) (action : KeytabAction) (directory : String) :
    Prop :=
  (∃ word, c.param? p.settings.customCommandParam = some word ∧
    Text.sameIgnoringCase word action.name) ∧
  c.param? p.secrets.dataDirectoryParam = some directory

/-- A command for a host goes out with the keytab entries it has to have, and is the same otherwise. -/
structure KeytabsExact (p : Publisher ω) (lookups : Lookups) (store : SecretStore) (host : HostId)
    (c c' : ExecutionCommand) : Prop where
  rest : c' = { c with keytabs := c'.keytabs }
  /-- A command that asks for an action has one more entry for each wanted record, all of them for
  the host. -/
  asked : ∀ {action directory}, p.Asks c action directory →
    ∃ (name : String) (rs : List IdentityRecord) (entries : List KeytabEntry),
      lookups.hostName? host = some name ∧
      store.records directory = .ok (rs.map .ok) ∧ c'.keytabs = c.keytabs ++ entries ∧
      store.Lists directory action name rs entries ∧ ∀ e ∈ entries, store.IsOwn directory name e
  /-- Other commands have no more entries than they came with. -/
  unasked : (∀ action directory, ¬ p.Asks c action directory) → c'.keytabs = c.keytabs

theorem keytabAction?_eq_some_iff {c : ExecutionCommand} {action : KeytabAction} :
    p.keytabAction? c = some action ↔ ∃ word, c.param? p.settings.customCommandParam = some word ∧
      Text.sameIgnoringCase word action.name := by
  rw [keytabAction?, Option.bind_eq_some_iff]
  simp only [KeytabAction.ofCustomCommand?_eq_some_iff]

theorem Enriched.exact {c c' : ExecutionCommand} (h : p.Enriched lookups store host c c') :
    p.KeytabsExact lookups store host c c' := by
  obtain ⟨entries, he, rfl⟩ := h
  refine ⟨rfl, fun {action directory} hasks => ?_, fun hno => ?_⟩
  · rw [entriesGiven, keytabAction?_eq_some_iff.2 hasks.1] at he
    cases hn : lookups.hostName? host with
    | none =>
      rw [hn] at he
      cases he
    | some name =>
      simp only [hn, entriesFrom, hasks.2] at he
      obtain ⟨rs, hr, hlists⟩ := SecretStore.lists_of_entries he
      refine ⟨name, rs, entries, rfl, hr, rfl, hlists, fun e he => ?_⟩
      obtain ⟨r, hr, h⟩ := exists_of_mem_right hlists he
      exact SecretStore.isOwn_of_tells (SecretStore.isWanted_iff.1 (List.mem_filter.1 hr).2).1 h
  · have hnone : entries = [] := by
      rw [entriesGiven] at he
      split at he
      next => exact (Except.ok.inj he).symm
      next action ha =>
        split at he
        next => cases he
        next name hn =>
          rw [entriesFrom] at he
          split at he
          next => exact (Except.ok.inj he).symm
          next directory hd =>
            exact absurd ⟨keytabAction?_eq_some_iff.1 ha, hd⟩ (hno action directory)
    rw [hnone, List.append_nil]

/-- Keytab entries are exact, and none crosses over to another host.

In the event for a host each execution command has the keytab entries it has to have: one for each
wanted record if it asks for an action, and otherwise none but those it came with. All that were added
are the host's own. Where entries cannot be had, whatever record is the reason, the command is left as
it was, and nothing is counted or sent. -/
theorem dispatch_keytabs (p : Publisher ω) (lookups : Lookups) (store : SecretStore) :
    (∀ (commands : Commands) (desk desk' : Desk ω) (n : Nat),
      (p.dispatch lookups store commands).on desk = (.ok n, desk') →
      ∃ events : List CommandEvent, desk'.sent = desk.sent ++ events.map p.envelope ∧
        ∀ e ∈ events, ∀ k b, e.clusters.get? k = some b →
          List.Forall₂ (p.KeytabsExact lookups store e.host)
            (lookups.executionsFor p.settings.unassignedClusterId e.host k commands)
            b.executions) ∧
    ∀ (action : KeytabAction) (name : String) (desk : Desk ω) (c : ExecutionCommand) (f : Fault)
      (s : Desk ω × ExecutionCommand),
      (p.injectSecret store action name).on (desk, c) = (.error f, s) →
      s.2 = c ∧ s.1 = { desk with opened := s.1.opened, tried := s.1.tried } := by
  refine ⟨fun commands desk desk' n h => ?_, fun action name desk c f s h => ?_⟩
  · obtain ⟨orders, hgoes, -, hsent, -⟩ := sent_of_dispatch h
    refine ⟨_, hsent, fun e he k b hb => ?_⟩
    have hcarries := (grouped_bundle hgoes).carries e he
    exact (hcarries.executions hb).imp fun _ _ => Enriched.exact
  · obtain ⟨hc, hd⟩ := injectSecret_error h
    exact ⟨hc, Desk.eq_of_unread hd⟩

end Publisher
end FleetSync
