import FleetSync.Controller.Action
import FleetSync.Proofs.Publisher.Dispatch

/-!
What a dispatch can fail with.

A dispatch fails because a command cannot be routed, because the host of a command is not known, or with a fault that
the source of secret material or the transport came up with itself (`Publisher.fault_of_dispatch`). Files are never at a
loss for a host, and neither is a channel, so at a controller that fault is about the registry alone
(`Controller.hostName?_of_dispatch`).
-/
namespace FleetSync

variable {ω : Type}

/-- A source of secret material answers with a fault. -/
inductive SecretStore.Raises (store : SecretStore) (f : Fault) : Prop
  | table {directory : String} (h : store.records directory = .error f)
  | record {directory : String} {records : List (Except Fault IdentityRecord)}
      (h : store.records directory = .ok records) (hmem : .error f ∈ records)
  | keytab {location : String} (h : store.keytab location = .error f)

/-- A transport refuses some envelope with a fault. -/
def Transport.Raises (t : Transport ω) (f : Fault) : Prop := ∃ e w w', t.send e w = .error f w'

/-! ### Any source and any transport -/

namespace Publisher
variable {p : Publisher ω} {lookups : Lookups} {store : SecretStore} {commands : Commands} {f : Fault}

theorem Unenriched.fault {host : HostId} {c : ExecutionCommand} (h : p.Unenriched lookups store host c f) :
    (f = .unknownHost host ∧ lookups.hostName? host = none) ∨ store.Raises f := by
  cases h with
  | unknownHost ha hn => exact .inl ⟨rfl, hn⟩
  | noTable ha hn hd hr => exact .inr (.table hr)
  | spoilt ha hn hd hr hf =>
    obtain ⟨next, hnext, hspoils⟩ := hf.exists_mem
    cases hspoils with
    | malformed => exact .inr (.record hr hnext)
    | unreadable hh hread =>
      obtain ⟨-, path, -, hkeytab⟩ := hread
      exact .inr (.keytab hkeytab)

theorem fault_of_dispatch {desk desk' : Desk ω}
    (h : (p.dispatch lookups store commands).on desk = (.error f, desk')) :
    (∃ c ∈ commands, lookups.Unroutable c.2 f) ∨
    (∃ c ∈ commands, f = .unknownHost c.1 ∧ lookups.hostName? c.1 = none) ∨
    store.Raises f ∨ p.transport.Raises f := by
  rcases dispatch_cases p lookups store commands desk with
    ⟨g, _, hg, hout, -⟩ | ⟨-, ⟨g, _, hg, hout, -⟩ | ⟨-, orders, ready, -, -, hout⟩⟩ <;> rw [hout] at h
  · cases h
    exact .inl hg.exists_mem
  · cases h
    obtain ⟨c, hc, body, -, hbody⟩ := hg.exists_mem
    rcases hbody.fault with hhost | hraises
    · exact .inr (.inl ⟨c, hc, hhost⟩)
    · exact .inr (.inr (.inl hraises))
  · rw [on_sendAll] at h
    rcases p.sends_or_refuses (Routed.bundle orders).values ready.world with
      ⟨w, htakes⟩ | ⟨before, e, after, g, w, hsplit, hrefuses⟩
    · rw [on_sends_of_takes htakes] at h
      cases h
    · rw [hsplit, on_sends_of_refuses hrefuses] at h
      cases h
      obtain ⟨w₁, -, hsend⟩ := hrefuses
      exact .inr (.inr (.inr ⟨p.envelope e, w₁, w, hsend⟩))

/-- A host that a dispatch does not know has no name, unless the fault comes from elsewhere. -/
theorem hostName?_of_dispatch {host : HostId} {desk desk' : Desk ω}
    (h : (p.dispatch lookups store commands).on desk = (.error (.unknownHost host), desk')) :
    lookups.hostName? host = none ∨ store.Raises (.unknownHost host) ∨
      p.transport.Raises (.unknownHost host) := by
  rcases fault_of_dispatch h with ⟨⟨_, a⟩, -, hroute⟩ | ⟨c, -, hhost, hnone⟩ | hraises
  · cases hroute
  · cases hhost
    exact .inl hnone
  · exact .inr hraises

end Publisher

/-! ### Files and a channel -/

/-- Files fail for what cannot be read and for rows that are no records. -/
theorem Files.fault_of_raises {files : Files} {s : SecretsSettings} {f : Fault}
    (h : (files.secretStore s).Raises f) :
    (∃ path, f = .unreadable path) ∨ ∃ path line, f = .malformedRecord path line := by
  cases h with
  | @table directory h =>
    change files.identityRecords (s.identityPath directory) = .error f at h
    rw [identityRecords] at h
    split at h <;> cases h
    · exact .inl ⟨_, rfl⟩
    · exact .inl ⟨_, rfl⟩
  | @record directory records h hmem =>
    change files.identityRecords (s.identityPath directory) = .ok records at h
    rw [identityRecords] at h
    split at h <;> cases h
    · obtain ⟨row, -, hrow⟩ := List.mem_map.1 hmem
      cases row with
      | error line =>
        cases hrow
        exact .inr ⟨_, line, rfl⟩
      | ok record => cases hrow
    · cases hmem
  | @keytab location h =>
    change files.readKeytab location = .error f at h
    rw [readKeytab] at h
    split at h <;> cases h
    · exact .inl ⟨_, rfl⟩
    · exact .inl ⟨_, rfl⟩

theorem Channel.fault_of_raises {f : Fault} (h : (⟨Channel.send⟩ : Transport Channel).Raises f) :
    ∃ text, f = .transport text := by
  obtain ⟨e, c, c', h⟩ := h
  simp only [Channel.send] at h
  split at h
  · cases h
    exact ⟨_, rfl⟩
  · split at h <;> cases h
    exact ⟨_, rfl⟩

/-- A host that a dispatch at a controller does not know has no name in the registry. -/
theorem Controller.hostName?_of_dispatch {c : Controller} {commands : Commands} {host : HostId}
    (h : ((perform (.dispatch commands)).on c).1 = .error (.unknownHost host)) :
    c.registry.hostName? host = none := by
  let desk : Desk Channel := { traced := c.traced, injected := c.injected, sent := c.sent, world := c.channel }
  -- what is done with the reply plays no part in a fault
  have hdispatch : ((c.publisher.dispatch c.registry.lookups c.secretStore commands).on desk).1 =
      .error (.unknownHost host) := by
    rw [perform, Op.on_bind, Op.on_get] at h
    change (Op.on (Op.focus _ _ _) c).1 = _ at h
    rw [Op.on_focus] at h
    change ((Reply.count <$> c.publisher.dispatch c.registry.lookups c.secretStore commands).on desk).1 = _ at h
    rw [map_eq_pure_bind] at h
    exact congrArg Prod.fst (Op.error_of_on_bind_pure (Prod.ext h rfl))
  rcases Publisher.hostName?_of_dispatch (Prod.ext hdispatch rfl) with hnone | hraises | hraises
  · exact hnone
  · rcases Files.fault_of_raises hraises with ⟨path, hpath⟩ | ⟨path, line, hline⟩
    · cases hpath
    · cases hline
  · obtain ⟨text, htext⟩ := Channel.fault_of_raises hraises
    cases htext

end FleetSync
