import FleetSync.Proofs.Ledger
import FleetSync.Proofs.Publisher.Dispatch

/-!
The diary of a dispatch.

Entries are given out command by command, and counted as they are, so a dispatch that fails for a later command,
or in sending, has counted them all the same. Commands that fail to get theirs have counted none
(`Publisher.accounts_injection`). Events are noted as the transport takes them.
-/
namespace FleetSync

variable {ω : Type}

/-- The ledger with what is counted at the desk of a publisher. -/
def Desk.ledger (published : ω → String → Nat) (rest : Ledger) (desk : Desk ω) : Ledger where
  published := published desk.world
  updates := rest.updates
  injected := fun action => (desk.injected.get? action).getD 0
  sent := desk.sent

theorem Desk.ledger_count (published : ω → String → Nat) (rest : Ledger) (desk : Desk ω)
    (action : KeytabAction) (n : Nat) :
    (desk.count action n).ledger published rest =
      (desk.ledger published rest).note (.injected action n) := by
  refine Ledger.ext rfl rfl ?_ rfl
  funext name
  show ((desk.injected.insert action.name _).get? name).getD 0 =
    (desk.injected.get? name).getD 0 + if name = action.name then n else 0
  rw [OrdMap.get?_insert]
  split
  next hname => rw [hname]; rfl
  next => rfl

section
variable {published : ω → String → Nat} {rest : Ledger} {desk desk' : Desk ω}

theorem Desk.ledger_of_unread (h : desk'.unread = desk.unread) :
    desk'.ledger published rest = desk.ledger published rest := by
  rw [eq_of_unread h]
  rfl

theorem Desk.ledger_of_untraced (h : desk'.untraced = desk.untraced) :
    desk'.ledger published rest = desk.ledger published rest := by
  rw [eq_of_untraced h]
  rfl

end

namespace Publisher

/-! ### Diaries -/

/-- Giving a command its keytab entries: those that it has more of afterwards. -/
def diaryOfInjection (p : Publisher ω) (store : SecretStore) (action : KeytabAction) (host : String)
    (c : ExecutionCommand) : Diary (Desk ω) := fun desk =>
  match (p.injectSecret store action host).on (desk, c) with
  | (.ok _, _, given) => [.injected action (given.keytabs.length - c.keytabs.length)]
  | (.error _, _) => []

/-- Enriching an order: a keytab command for a known host is given its entries. -/
def diaryOfEnrichment (p : Publisher ω) (lookups : Lookups) (store : SecretStore) (r : Routed) :
    Diary (Desk ω) :=
  match r.order with
  | .cancel _ => .nothing
  | .execution c =>
    match p.keytabAction? c, lookups.hostName? r.host with
    | some action, some host => p.diaryOfInjection store action host c
    | _, _ => .nothing

def diaryOfSending (p : Publisher ω) (e : CommandEvent) : Diary (Desk ω) := fun desk =>
  match p.transport.send (p.envelope e) desk.world with
  | .ok _ _ => [.accepted (p.envelope e)]
  | .error _ _ => []

/-- A dispatch: every order is enriched, and then every event sent, up to whatever fails first. -/
def diaryOfDispatch (p : Publisher ω) (lookups : Lookups) (store : SecretStore) (commands : Commands) :
    Diary (Desk ω) :=
  Diary.nothing.andThen (p.routeAll lookups commands) fun routed =>
    (Diary.each (p.enrich lookups store) (p.diaryOfEnrichment lookups store) routed).andThen
      (routed.mapM (p.enrich lookups store)) fun enriched =>
        Diary.each p.send p.diaryOfSending (Routed.bundle enriched).values

/-! ### What merges nothing -/

section
variable (p : Publisher ω) (store : SecretStore)

theorem mergesNothing_injection (action : KeytabAction) (host : String) (c : ExecutionCommand) :
    (p.diaryOfInjection store action host c).MergesNothing fun _ => True := by
  intro desk _ holder changed
  rw [diaryOfInjection]
  rcases (p.injectSecret store action host).on (desk, c) with ⟨f | v, now⟩ <;> simp

theorem mergesNothing_enrichment (lookups : Lookups) (r : Routed) :
    (p.diaryOfEnrichment lookups store r).MergesNothing fun _ => True := by
  rw [diaryOfEnrichment]
  cases r.order with
  | cancel c => exact .nothing
  | execution c =>
    cases haction : p.keytabAction? c with
    | none =>
      simp only [haction]
      exact .nothing
    | some action =>
      simp only [haction]
      cases lookups.hostName? r.host with
      | none => exact .nothing
      | some host => exact p.mergesNothing_injection store action host c

/-- Neither keytab entries nor events of commands are updates. -/
theorem mergesNothing_dispatch (lookups : Lookups) (commands : Commands) :
    (p.diaryOfDispatch lookups store commands).MergesNothing fun _ => True := by
  have hsend : ∀ e, (p.diaryOfSending e).MergesNothing fun _ => True := by
    intro e desk _ holder changed
    rw [diaryOfSending]
    cases p.transport.send (p.envelope e) desk.world <;> simp
  refine Diary.MergesNothing.nothing.andThen (fun _ _ => trivial) fun routed => ?_
  refine .andThen (.each (p.mergesNothing_enrichment store lookups) (fun _ _ _ => trivial) routed)
    (fun _ _ => trivial) fun enriched => ?_
  exact .each hsend (fun _ _ _ => trivial) _

end

/-! ### Accounting -/

section
variable (p : Publisher ω) (published : ω → String → Nat) (rest : Ledger) (store : SecretStore)

theorem accounts_injection (action : KeytabAction) (host : String) (c : ExecutionCommand) :
    (Op.onItem (p.injectSecret store action host) c).Accounts (Desk.ledger published rest)
      (p.diaryOfInjection store action host c) := by
  intro desk
  rw [Op.on_onItem, diaryOfInjection, on_injectSecret]
  cases c.param? p.secrets.dataDirectoryParam with
  | none =>
    show desk.ledger published rest = (desk.ledger published rest).note (.injected action _)
    rw [Nat.sub_self, Ledger.note_injected_zero]
  | some directory =>
    obtain ⟨desk', hread, htake⟩ := on_takeEntries store directory action host desk
    simp only [htake]
    cases store.entries directory action host with
    | error f => exact Desk.ledger_of_unread hread
    | ok entries =>
      show (desk'.count action entries.length).ledger published rest =
        (desk.ledger published rest).note (.injected action _)
      rw [Desk.ledger_count, Desk.ledger_of_unread hread, List.length_append, Nat.add_sub_cancel_left]

theorem accounts_enrichment (lookups : Lookups) (r : Routed) :
    (p.enrich lookups store r).Accounts (Desk.ledger published rest)
      (p.diaryOfEnrichment lookups store r) := by
  obtain ⟨host, cluster, order⟩ := r
  rw [enrich, diaryOfEnrichment]
  cases order with
  | cancel c => exact Op.accounts_nothing fun _ => rfl
  | execution c =>
    cases haction : p.keytabAction? c with
    | none =>
      simp only [haction]
      exact Op.accounts_nothing fun _ => rfl
    | some action =>
      simp only [haction]
      cases lookups.hostName? host with
      | none => exact Op.accounts_nothing fun _ => rfl
      | some name => exact (p.accounts_injection published rest store action name c).map _

end

section
variable {p : Publisher ω} {published : ω → String → Nat} (htransport : p.transport.Counts published)
  (rest : Ledger)
include htransport

theorem accounts_sending (e : CommandEvent) :
    (p.send e).Accounts (Desk.ledger published rest) (p.diaryOfSending e) := by
  intro desk
  have hcount := htransport (p.envelope e) desk.world
  rw [on_send, diaryOfSending]
  cases hsend : p.transport.send (p.envelope e) desk.world <;> rw [hsend] at hcount <;>
    exact Ledger.ext hcount rfl rfl rfl

theorem accounts_dispatch (lookups : Lookups) (store : SecretStore) (commands : Commands) :
    (p.dispatch lookups store commands).Accounts (Desk.ledger published rest)
      (p.diaryOfDispatch lookups store commands) := by
  refine Op.Accounts.bind ?_ fun routed => Op.Accounts.bind ?_ fun enriched => ?_
  · exact Op.accounts_nothing fun desk => Desk.ledger_of_untraced (routeAll_yields p lookups commands desk).2
  · exact Op.Accounts.mapM (p.accounts_enrichment published rest store lookups) routed
  · exact (Op.Accounts.forM (accounts_sending htransport rest) _).map _

end

end Publisher
end FleetSync
