import FleetSync.Proofs.Wire.Readable
import FleetSync.Proofs.Wire.Records

/-!
Nothing is lost on the wire.

What distinguishes the commands from other records is the tag. It is written under a name that no
command gives to a field of its own, so a reader that takes it away finds the fields as they were
written. With that every type of the wire is lawful, and every value of it, written to its compact
text, reads back as the value it was (`round_trips`).
-/
namespace FleetSync
namespace AgentCommand

open Json (field)

theorem tagName_not_mem (c : AgentCommand) : tagName ∉ c.toFields.map (·.1) := by
  intro h
  cases c with
  | execution c => exact absurd (c.named_toFields.subset h) (by decide)
  | background c => exact absurd (c.named_toFields.subset h) (by decide)
  | cancel c => exact absurd (c.named_toFields.subset h) (by decide)

/-- A tag in front of fields of other names is taken away again. -/
theorem splitTag_object {kind : String} {fields : Json.Fields} (h : tagName ∉ fields.map (·.1)) :
    splitTag (.object (field tagName kind ++ fields)) = some (kind, .object fields) := by
  let members : List (Json.Literal × Json) := fields.map fun m => (some m.1, m.2)
  have hne : ∀ m ∈ members, m.1 ≠ some tagName := by
    intro m hm
    obtain ⟨f, hf, rfl⟩ := List.mem_map.1 hm
    intro heq
    exact h (Option.some.inj heq ▸ List.mem_map_of_mem hf)
  have htag : members.filter (·.1 = some tagName) = [] := by
    refine List.filter_eq_nil_iff.2 fun m hm => ?_
    simpa using hne m hm
  have hrest : members.filter (·.1 ≠ some tagName) = members := by
    refine List.filter_eq_self.2 fun m hm => ?_
    simpa using hne m hm
  have hobj : Json.object (field tagName kind ++ fields) =
      .obj ((some tagName, .str (some kind)) :: members) := rfl
  rw [hobj, splitTag, List.filter_cons_of_pos (by simp), htag, List.filter_cons_of_neg (by simp),
    hrest]
  rfl

/-- The tag of a command tells how to read its fields. -/
theorem ofTag?_kind (c : AgentCommand) : ofTag? c.kind (.object c.toFields) = some c := by
  cases c with
  | execution c =>
    show (Wire.decode (Wire.encode c)).map execution = _
    simp
  | background c =>
    show (Wire.decode (Wire.encode c)).map background = _
    simp
  | cancel c =>
    show (Wire.decode (Wire.encode c)).map cancel = _
    simp

end AgentCommand

instance : Wire.Lawful AgentCommand where
  decode_encode c := by
    have hsplit : AgentCommand.splitTag (Wire.encode c) = some (c.kind, .object c.toFields) :=
      AgentCommand.splitTag_object c.tagName_not_mem
    show (if (Wire.encode c).isReadable then
      (AgentCommand.splitTag (Wire.encode c)).bind fun r => AgentCommand.ofTag? r.1 r.2 else none) = _
    rw [if_pos c.readable, hsplit]
    exact c.ofTag?_kind

namespace Wire

/-- Every value of a type is read back from the text that it is written to, the same in every
field. -/
def RoundTrips (α : Type) [Wire α] : Prop := ∀ v : α, ofText? (toText v) = some v

/-- All that is sent, stored or loaded survives being written and read. -/
theorem round_trips :
    RoundTrips Component ∧ RoundTrips Host ∧ RoundTrips Topology ∧
    RoundTrips ClusterConfigs ∧ RoundTrips HostConfigs ∧
    RoundTrips (Event Topology) ∧ RoundTrips (Event HostConfigs) ∧
    RoundTrips ExecutionCommand ∧ RoundTrips CancelCommand ∧ RoundTrips AgentCommand ∧
    RoundTrips CommandBundle ∧ RoundTrips CommandEvent ∧
    RoundTrips KeytabEntry ∧ RoundTrips IdentityRecord ∧
    RoundTrips Settings :=
  ⟨ofText?_toText, ofText?_toText, ofText?_toText, ofText?_toText, ofText?_toText,
    ofText?_toText, ofText?_toText, ofText?_toText, ofText?_toText, ofText?_toText,
    ofText?_toText, ofText?_toText, ofText?_toText, ofText?_toText, ofText?_toText⟩

/-- A rack that is named by the empty text is written, an address that is missing is not. -/
example : toText ({ id := -1, name := "h", rack := some "" } : Host) =
    "\x7b\"hostId\":-1,\"hostName\":\"h\",\"rackName\":\"\"\x7d" := by
  decide +kernel

end Wire
end FleetSync
