import FleetSync.Proofs.Traversal
import FleetSync.Publisher.Routing

/-!
Where commands belong, and when that cannot be told.

An execution command belongs to the cluster of its name, or to the unassigned one if it names none; a
cancel command belongs to the cluster of the stage that owns its task (`Lookups.key?`). A command is
routed there and changed only in that it is told the cluster (`route_eq_ok_iff`), or it is refused for
the name or the task that is not known (`route_eq_error_iff`).
-/
namespace FleetSync

namespace AgentCommand

/-- The execution command that goes out for a command, for a cluster and without keytab entries. -/
def execution? (cluster : String) : AgentCommand → Option ExecutionCommand
  | execution c => some { c with clusterId := some cluster }
  | background c => some { c with clusterId := some cluster, background := true }
  | cancel _ => none

/-- The cluster that a command names, if it names one. -/
def clusterName? : AgentCommand → Option String
  | execution c | background c => c.clusterName
  | cancel _ => none

/-- The execution command in a command, as it was given. -/
def body? : AgentCommand → Option ExecutionCommand
  | execution c | background c => some c
  | cancel _ => none

def cancel? : AgentCommand → Option CancelCommand
  | cancel c => some c
  | _ => none

/-- The order that goes out for a command, without keytab entries. -/
def orderFor (cluster : String) : AgentCommand → Order
  | execution c => .execution { c with clusterId := some cluster }
  | background c => .execution { c with clusterId := some cluster, background := true }
  | cancel c => .cancel c

end AgentCommand

namespace Lookups
variable {l : Lookups} {unassigned : String} {host : HostId}

/-- The key of the cluster that a command belongs to, if that is known. -/
def key? (l : Lookups) (unassigned : String) : AgentCommand → Option String
  | .execution c | .background c =>
    match c.clusterName with
    | none => some unassigned
    | some name => (l.clusterIdByName? name).map Decimal.idText
  | .cancel c => (l.taskCluster? c.targetTask).map Decimal.idText

/-- Why the cluster of a command is not known. -/
inductive Unroutable (l : Lookups) : AgentCommand → Fault → Prop
  | cluster {a : AgentCommand} {name : String} (hn : a.clusterName? = some name)
      (h : l.clusterIdByName? name = none) : Unroutable l a (.unknownCluster name)
  | task {c : CancelCommand} (h : l.taskCluster? c.targetTask = none) :
      Unroutable l (.cancel c) (.unknownTask c.targetTask)

/-- A command is refused for one reason only. -/
theorem Unroutable.unique {a : AgentCommand} {f g : Fault} (hf : Unroutable l a f)
    (hg : Unroutable l a g) : f = g := by
  cases hf with
  | cluster hn _ => cases hg with
    | cluster hn' _ => rw [Option.some.inj (hn.symm.trans hn')]
    | task _ => exact nomatch hn
  | task _ => cases hg with
    | cluster hn' _ => exact nomatch hn'
    | task _ => rfl

/-- The cluster of an execution command is known unless the command names one that is not. -/
theorem clusterOf_cases (l : Lookups) (unassigned : String) (c : ExecutionCommand) :
    (∃ k, l.clusterOf unassigned c = .ok k ∧ l.key? unassigned (.execution c) = some k ∧
      ∀ name, c.clusterName = some name → l.clusterIdByName? name ≠ none) ∨
    ∃ name, l.clusterOf unassigned c = .error (.unknownCluster name) ∧
      l.key? unassigned (.execution c) = none ∧
      c.clusterName = some name ∧ l.clusterIdByName? name = none := by
  rw [clusterOf, key?]
  cases hn : c.clusterName with
  | none => exact .inl ⟨unassigned, rfl, rfl, nofun⟩
  | some name =>
    cases hk : l.clusterIdByName? name with
    | none => exact .inr ⟨name, by simp only [hk], by simp only [hk, Option.map_none], rfl, hk⟩
    | some id =>
      refine .inl ⟨Decimal.idText id, by simp only [hk], by simp only [hk, Option.map_some], ?_⟩
      rintro _ ⟨⟩ hnone
      exact nomatch hk.symm.trans hnone

/-- An execution command is routed to its cluster and told so, or refused for its name. -/
theorem routeExecution_cases (l : Lookups) (unassigned : String) (host : HostId)
    (c : ExecutionCommand) (background : Bool) :
    (∃ k, l.routeExecution unassigned host c background =
        .ok ⟨host, k, .execution { c with
          clusterId := some k, background := c.background || background }⟩ ∧
      l.key? unassigned (.execution c) = some k ∧
      ∀ name, c.clusterName = some name → l.clusterIdByName? name ≠ none) ∨
    ∃ name, l.routeExecution unassigned host c background = .error (.unknownCluster name) ∧
      l.key? unassigned (.execution c) = none ∧
      c.clusterName = some name ∧ l.clusterIdByName? name = none := by
  rw [routeExecution]
  rcases clusterOf_cases l unassigned c with ⟨k, hc, hk⟩ | ⟨name, hc, hk⟩
  · exact .inl ⟨k, by rw [hc]; rfl, hk⟩
  · exact .inr ⟨name, by rw [hc]; rfl, hk⟩

/-- A command is routed to its cluster and told so, or refused for what is not known. -/
theorem route_cases (l : Lookups) (unassigned : String) (host : HostId) (a : AgentCommand) :
    (∃ k, l.route unassigned host a = .ok ⟨host, k, a.orderFor k⟩ ∧ l.key? unassigned a = some k ∧
      ∀ f, ¬ Unroutable l a f) ∨
    ∃ f, l.route unassigned host a = .error f ∧ l.key? unassigned a = none ∧ Unroutable l a f := by
  cases a with
  | execution c =>
    rcases routeExecution_cases l unassigned host c false with ⟨k, hr, hk, hname⟩ | ⟨name, hr, hk, hn⟩
    · refine .inl ⟨k, by rw [route, hr, Bool.or_false]; rfl, hk, ?_⟩
      rintro _ ⟨hn, hnone⟩
      exact hname _ hn hnone
    · exact .inr ⟨_, hr, hk, .cluster hn.1 hn.2⟩
  | background c =>
    rcases routeExecution_cases l unassigned host c true with ⟨k, hr, hk, hname⟩ | ⟨name, hr, hk, hn⟩
    · refine .inl ⟨k, by rw [route, hr, Bool.or_true]; rfl, hk, ?_⟩
      rintro _ ⟨hn, hnone⟩
      exact hname _ hn hnone
    · exact .inr ⟨_, hr, hk, .cluster hn.1 hn.2⟩
  | cancel c =>
    rw [route]
    cases ht : l.taskCluster? c.targetTask with
    | some id =>
      refine .inl ⟨Decimal.idText id, rfl, by simp only [key?, ht, Option.map_some], ?_⟩
      rintro _ (⟨hn, -⟩ | hnone)
      · cases hn
      · rw [ht] at hnone
        cases hnone
    | none => exact .inr ⟨_, rfl, by simp only [key?, ht, Option.map_none], .task ht⟩

/-- An order is a command, routed to the cluster it belongs to. -/
def RoutedAs (l : Lookups) (unassigned : String) (command : HostId × AgentCommand) (r : Routed) :
    Prop :=
  ∃ k, l.key? unassigned command.2 = some k ∧ r = ⟨command.1, k, command.2.orderFor k⟩

theorem route_eq_ok_iff {a : AgentCommand} {r : Routed} :
    l.route unassigned host a = .ok r ↔ l.RoutedAs unassigned (host, a) r := by
  rw [RoutedAs]
  rcases route_cases l unassigned host a with ⟨k, hr, hk, -⟩ | ⟨f, hr, hk, -⟩
  · rw [hr, hk]
    constructor
    · rintro ⟨⟩
      exact ⟨k, rfl, rfl⟩
    · rintro ⟨_, ⟨⟩, rfl⟩
      rfl
  · rw [hr, hk]
    exact iff_of_false nofun nofun

theorem route_eq_error_iff {a : AgentCommand} {f : Fault} :
    l.route unassigned host a = .error f ↔ Unroutable l a f := by
  rcases route_cases l unassigned host a with ⟨k, hr, -, hno⟩ | ⟨g, hr, -, hg⟩
  · rw [hr]
    exact iff_of_false nofun (hno f)
  · rw [hr]
    constructor
    · rintro ⟨⟩
      exact hg
    · intro hf
      rw [hg.unique hf]

end Lookups
end FleetSync
