import FleetSync.Proofs.Publisher.Dispatch

/-!
Dumps of commands.

A command is dumped as it was given, right before it is routed. So the commands that are dumped are those up to the
first that cannot be routed (`Lookups.Reached`), and all of this comes before anything is read
(`Publisher.exists_on_routeAll`). What comes after routing neither looks at the dumps nor adds to them
(`Op.DumpsNothing`). A dispatch is therefore the same with dumps and without, and the dumps are added to it
(`Publisher.exists_on_dispatch`), whatever secret material there is and whatever becomes of the commands.
-/
namespace FleetSync

variable {ω : Type}

/-! ### The commands that are dumped -/

namespace Lookups

/-- The commands that routing comes to: all of them if each can be routed, or else those up to the first that cannot,
with this one. -/
inductive Reached (l : Lookups) : Commands → Commands → Prop
  | all {commands : Commands} (h : ∀ c ∈ commands, ∀ f, ¬ l.Unroutable c.2 f) : Reached l commands commands
  | upTo {before after : Commands} {c : HostId × AgentCommand} {f : Fault}
      (hbefore : ∀ b ∈ before, ∀ g, ¬ l.Unroutable b.2 g) (hc : l.Unroutable c.2 f) :
      Reached l (before ++ c :: after) (before ++ [c])

/-- One more command in front, that can be routed. -/
theorem Reached.cons {l : Lookups} {commands reached : Commands} {c : HostId × AgentCommand}
    (hc : ∀ f, ¬ l.Unroutable c.2 f) (h : l.Reached commands reached) :
    l.Reached (c :: commands) (c :: reached) := by
  cases h with
  | all h => exact .all (List.forall_mem_cons.2 ⟨hc, h⟩)
  | @upTo before after last f hbefore hlast =>
    exact @Reached.upTo l (c :: before) after last f (List.forall_mem_cons.2 ⟨hc, hbefore⟩) hlast

end Lookups

/-- The desk with other dumps. -/
def Desk.retraced (desk : Desk ω) (dumps : List String) : Desk ω := { desk with traced := dumps }

@[simp] theorem Desk.retraced_self (desk : Desk ω) : desk.retraced desk.traced = desk := rfl

namespace Publisher

/-- The publisher that dumps commands, or the one that does not. -/
def dumping (p : Publisher ω) (on : Bool) : Publisher ω :=
  { p with settings := { p.settings with traceCommands := on } }

/-- The dumps of commands, if they are asked for. -/
def dumps (p : Publisher ω) (commands : Commands) : List String :=
  if p.settings.traceCommands then commands.map fun c => Wire.toText c.2 else []

theorem dumps_cons (p : Publisher ω) (c : HostId × AgentCommand) (commands : Commands) :
    p.dumps (c :: commands) = p.dumps [c] ++ p.dumps commands := by
  rw [dumps, dumps, dumps]
  split <;> rfl

/-- Routing goes on to the next command once one has been dumped and routed. -/
theorem on_routeAll_cons (p : Publisher ω) (lookups : Lookups) (c : HostId × AgentCommand)
    (commands : Commands) (desk : Desk ω) :
    (p.routeAll lookups (c :: commands)).on desk =
      match lookups.route p.settings.unassignedClusterId c.1 c.2 with
      | .error f => (.error f, desk.retraced (desk.traced ++ p.dumps [c]))
      | .ok r => (do
          let rs ← p.routeAll lookups commands
          return r :: rs : Op (Desk ω) _).on (desk.retraced (desk.traced ++ p.dumps [c])) := by
  have htrace : (p.trace c.2).on desk = (.ok (), desk.retraced (desk.traced ++ p.dumps [c])) := by
    rw [dumps]
    show (Except.ok (), if p.settings.traceCommands then _ else desk) = _
    split
    · rfl
    · rw [List.append_nil, Desk.retraced_self]
  rw [routeAll, List.mapM_cons]
  show Op.on ((p.trace c.2 >>= fun _ => Op.ofExcept _) >>= _) desk = _
  rw [bind_assoc, Op.on_bind_of_ok htrace, Op.on_bind, Op.on_ofExcept]
  cases lookups.route p.settings.unassignedClusterId c.1 c.2 <;> rfl

/-- Routing commands adds the dumps of those that it comes to, and for every publisher these are the same. -/
theorem exists_on_routeAll (lookups : Lookups) (commands : Commands) :
    ∃ reached, lookups.Reached commands reached ∧
      ∀ {ω : Type} (p : Publisher ω) (desk : Desk ω), (p.routeAll lookups commands).on desk =
        (commands.mapM fun c => lookups.route p.settings.unassignedClusterId c.1 c.2,
          desk.retraced (desk.traced ++ p.dumps reached)) := by
  induction commands with
  | nil =>
    refine ⟨[], .all nofun, fun p desk => ?_⟩
    rw [dumps, List.map_nil, ite_self, List.append_nil]
    rfl
  | cons c commands ih =>
    obtain ⟨reached, hreached, hrest⟩ := ih
    by_cases hc : ∃ f, lookups.Unroutable c.2 f
    · obtain ⟨f, hc⟩ := hc
      refine ⟨[c], @Lookups.Reached.upTo lookups [] commands c f nofun hc, fun p desk => ?_⟩
      rw [on_routeAll_cons, List.mapM_cons, Lookups.route_eq_error_iff.2 hc]
      rfl
    · have hno : ∀ f, ¬ lookups.Unroutable c.2 f := fun f hf => hc ⟨f, hf⟩
      refine ⟨c :: reached, hreached.cons hno, fun p desk => ?_⟩
      rw [on_routeAll_cons, List.mapM_cons, dumps_cons p c reached, ← List.append_assoc]
      cases hroute : lookups.route p.settings.unassignedClusterId c.1 c.2 with
      | error f => exact absurd (Lookups.route_eq_error_iff.1 hroute) (hno f)
      | ok r =>
        simp only [Op.on_bind, hrest]
        cases commands.mapM fun c => lookups.route p.settings.unassignedClusterId c.1 c.2 <;> rfl

end Publisher

/-! ### What comes after routing -/

/-- The operation neither looks at the dumps nor adds to them: whatever has been dumped, it does the same, and that
is still what has been dumped. -/
def Op.DumpsNothing {β : Type} (op : Op (Desk ω) β) : Prop :=
  ∀ dumps, op.Agrees (fun desk desk' => desk' = desk.retraced dumps) op

namespace Op.DumpsNothing
variable {β γ : Type} {op : Op (Desk ω) β}

theorem on_retraced (h : op.DumpsNothing) (desk : Desk ω) (dumps : List String) :
    op.on (desk.retraced dumps) = ((op.on desk).1, (op.on desk).2.retraced dumps) := by
  obtain ⟨hr, hdesk⟩ := h dumps desk _ rfl
  exact Prod.ext hr hdesk

theorem of_pure (v : β) : (pure v : Op (Desk ω) β).DumpsNothing := fun _ => Op.agrees_pure v

theorem of_except (r : Except Fault β) : (Op.ofExcept r : Op (Desk ω) β).DumpsNothing :=
  fun _ => Op.agrees_ofExcept r

/-- A change that the dumps play no part in. -/
theorem of_modify {g : Desk ω → Desk ω}
    (h : ∀ desk dumps, g (desk.retraced dumps) = (g desk).retraced dumps) :
    (modify g : Op (Desk ω) PUnit).DumpsNothing := fun dumps => Op.agrees_modify fun desk _ hdesk => by
  rw [hdesk, h]

theorem bind {next : β → Op (Desk ω) γ} (h : op.DumpsNothing) (hn : ∀ v, (next v).DumpsNothing) :
    (op >>= next).DumpsNothing := fun dumps => (h dumps).bind fun v => hn v dumps

theorem mapM {α : Type} {op : α → Op (Desk ω) β} (h : ∀ x, (op x).DumpsNothing) (l : List α) :
    (l.mapM op).DumpsNothing := fun dumps => Op.Agrees.mapM (fun x => h x dumps) l

theorem forM {α : Type} {op : α → Op (Desk ω) PUnit} (h : ∀ x, (op x).DumpsNothing) (l : List α) :
    (l.forM op).DumpsNothing := fun dumps => Op.Agrees.forM (fun x => h x dumps) l

end Op.DumpsNothing

namespace Publisher
open Op

section
variable (p : Publisher ω) (lookups : Lookups) (store : SecretStore) (directory : String)
  (action : KeytabAction) (host : String)

theorem entryOf_dumpsNothing (record : IdentityRecord) :
    DumpsNothing (entryOf store directory action record : Op (Desk ω) _) := by
  rw [entryOf.eq_def]
  cases action with
  | remove => exact .of_pure _
  | set =>
    cases record.path with
    | none => exact .of_pure _
    | some path =>
      have hread : DumpsNothing
          (readKeytab store (keytabLocation directory record.hostname path) : Op (Desk ω) _) :=
        .bind (.of_modify fun _ _ => rfl) fun _ => .of_except _
      exact hread.bind fun _ => .of_pure _

theorem entryFor_dumpsNothing (next : Except Fault IdentityRecord) :
    DumpsNothing (entryFor store directory action host next : Op (Desk ω) _) := by
  refine .bind (.of_except next) fun record => ?_
  split
  · exact entryOf_dumpsNothing store directory action record
  · exact .of_pure none

/-- Taking entries reads files and counts, and dumps nothing. -/
theorem takeEntries_dumpsNothing :
    DumpsNothing (takeEntries store directory action host : Op (Desk ω) _) := by
  have hopen : DumpsNothing (openRecords store directory : Op (Desk ω) _) :=
    .bind (.of_modify fun _ _ => rfl) fun _ => .of_except _
  refine hopen.bind fun records => .bind (.bind (.mapM ?_ records) fun _ => .of_pure _) fun entries => ?_
  · exact entryFor_dumpsNothing store directory action host
  · exact .bind (.of_modify fun _ _ => rfl) fun _ => .of_pure _

theorem injectSecret_dumpsNothing (c : ExecutionCommand) :
    DumpsNothing (onItem (p.injectSecret store action host) c) := by
  rintro dumps desk _ rfl
  rw [on_onItem, on_onItem, on_injectSecret, on_injectSecret]
  cases c.param? p.secrets.dataDirectoryParam with
  | none => exact ⟨rfl, rfl⟩
  | some directory =>
    simp only [(takeEntries_dumpsNothing store directory action host).on_retraced]
    rcases (takeEntries store directory action host).on desk with ⟨_ | entries, desk'⟩
    · exact ⟨rfl, rfl⟩
    · exact ⟨rfl, rfl⟩

theorem enrich_dumpsNothing (routed : Routed) : DumpsNothing (p.enrich lookups store routed) := by
  obtain ⟨host, cluster, order⟩ := routed
  rw [enrich]
  cases order with
  | cancel c => exact .of_pure _
  | execution c =>
    cases haction : p.keytabAction? c with
    | none => simp only [haction]; exact .of_pure _
    | some action =>
      simp only [haction]
      cases lookups.hostName? host with
      | none => exact fun _ _ _ h => ⟨rfl, h⟩
      | some name => exact .bind (p.injectSecret_dumpsNothing store action name c) fun _ => .of_pure _

theorem send_dumpsNothing (e : CommandEvent) : DumpsNothing (p.send e) := by
  rintro dumps desk _ rfl
  have hworld : (desk.retraced dumps).world = desk.world := rfl
  rw [on_send, on_send, hworld]
  cases p.transport.send (p.envelope e) desk.world <;> exact ⟨rfl, rfl⟩

/-- What is done with commands once they are routed. -/
def deliver (routed : List Routed) : Op (Desk ω) Nat := do
  let enriched ← routed.mapM (p.enrich lookups store)
  p.sendAll (Routed.bundle enriched)

theorem deliver_dumpsNothing (routed : List Routed) : DumpsNothing (p.deliver lookups store routed) :=
  .bind (.mapM (p.enrich_dumpsNothing lookups store) routed) fun _ =>
    .bind (.forM p.send_dumpsNothing _) fun _ => .of_pure _

end

/-- A dispatch does what it does without dumps, and adds those of the commands that routing comes to. -/
theorem exists_on_dispatch (lookups : Lookups) (commands : Commands) :
    ∃ reached, lookups.Reached commands reached ∧
      ∀ {ω : Type} (p : Publisher ω) (store : SecretStore) (desk : Desk ω),
        let quiet := ((p.dumping false).dispatch lookups store commands).on desk
        (p.dispatch lookups store commands).on desk =
          (quiet.1, quiet.2.retraced (desk.traced ++ p.dumps reached)) := by
  obtain ⟨reached, hreached, hroute⟩ := exists_on_routeAll lookups commands
  refine ⟨reached, hreached, fun p store desk => ?_⟩
  have hquiet : ((p.dumping false).routeAll lookups commands).on desk =
      (commands.mapM fun c => lookups.route p.settings.unassignedClusterId c.1 c.2, desk) := by
    rw [hroute]
    show (_, desk.retraced (desk.traced ++ [])) = _
    rw [List.append_nil, Desk.retraced_self]
    rfl
  show (p.routeAll lookups commands >>= p.deliver lookups store).on desk =
    ((((p.dumping false).routeAll lookups commands >>= p.deliver lookups store).on desk).1,
      (((p.dumping false).routeAll lookups commands >>= p.deliver lookups store).on desk).2.retraced _)
  rw [on_bind, on_bind, hroute, hquiet]
  cases commands.mapM fun c => lookups.route p.settings.unassignedClusterId c.1 c.2 with
  | error f => rfl
  | ok routed => exact (p.deliver_dumpsNothing lookups store routed).on_retraced desk _

/-- Dumps tell what was asked for, and no secrets.

The dumps of a dispatch are the texts of the commands as they were given, in their order: of all of them if each can be
routed, and else of those up to the first that cannot. So they are the same with any other secret material, whatever
comes of enriching the commands and of sending them. Without dumps nothing is dumped, and all else is the same: the
result, what is sent, opened, read and counted, and the state of the transport. -/
theorem dumps_tell_no_secrets (lookups : Lookups) (commands : Commands) :
    ∃ reached, lookups.Reached commands reached ∧
      ∀ {ω : Type} (p : Publisher ω) (store store' : SecretStore) (desk : Desk ω),
        let loud := ((p.dumping true).dispatch lookups store commands).on desk
        let other := ((p.dumping true).dispatch lookups store' commands).on desk
        let quiet := ((p.dumping false).dispatch lookups store commands).on desk
        loud.2.traced = desk.traced ++ reached.map (fun c => Wire.toText c.2) ∧
        other.2.traced = loud.2.traced ∧
        quiet.2.traced = desk.traced ∧ quiet.1 = loud.1 ∧ quiet.2.untraced = loud.2.untraced := by
  obtain ⟨reached, hreached, hrun⟩ := exists_on_dispatch lookups commands
  refine ⟨reached, hreached, fun p store store' desk => ?_⟩
  intro loud other quiet
  have hloud : loud = (quiet.1, quiet.2.retraced (desk.traced ++ (p.dumping true).dumps reached)) :=
    hrun (p.dumping true) store desk
  have hother : other.2.traced = desk.traced ++ (p.dumping true).dumps reached :=
    congrArg (·.2.traced) (hrun (p.dumping true) store' desk)
  have hquiet : quiet = (quiet.1, quiet.2.retraced (desk.traced ++ [])) :=
    hrun (p.dumping false) store desk
  refine ⟨?_, ?_, ?_, ?_, ?_⟩
  · rw [hloud]
    rfl
  · rw [hother, hloud]
    rfl
  · rw [hquiet, List.append_nil]
    rfl
  · rw [hloud]
  · rw [hloud]
    rfl

/-- A command that cannot be routed is the last one that is dumped: here it is the first of three. -/
example : (((taker.dumping true).dispatch ⟨fun _ => some 7, fun _ => none, fun _ => none⟩ noTables
    forTwoHosts).on { world := () }).2.traced =
      ["\x7b\"commandType\":\"CANCEL_COMMAND\",\"hostname\":\"nine\",\"targetTaskId\":5\x7d"] := by
  decide +kernel

end Publisher
end FleetSync
