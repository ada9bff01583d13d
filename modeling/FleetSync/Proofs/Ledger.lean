import FleetSync.Holder.Basic
import FleetSync.Proofs.Traversal
import FleetSync.Publisher.KeytabAction

/-!
Diaries of operations, and the ledger that is kept of them.

A diary says what an operation comes to where it is performed: which envelopes are taken, which events are
merged and which keytab entries are given out, as long as nothing fails. Diaries are put together like the
operations that they are about (`Diary.andThen`, `Diary.each`). The ledger of a state has what was counted, and
an operation accounts for a diary if it leaves the ledger with just these entries noted (`Op.Accounts`). What
parts account for, the whole accounts for, whether it comes to an end or fails on the way. What a ledger says
after any number of entries can be read off them (`Ledger.sent_noteAll` and the three after it). Some operations
merge nothing, at least from certain states (`Diary.MergesNothing`).
-/
namespace FleetSync

/-! ### Occurrences -/

/-- What is counted. -/
inductive Occurrence where
  /-- The transport took an envelope. -/
  | accepted (e : Envelope)
  /-- A holder merged an event, which changed what it held or not. -/
  | merged (holder : String) (changed : Bool)
  /-- A command was given some keytab entries. -/
  | injected (action : KeytabAction) (entries : Nat)
  deriving DecidableEq

namespace Occurrence

def envelope? : Occurrence → Option Envelope
  | accepted e => some e
  | _ => none

/-- The envelopes that were taken, in their order. -/
def envelopes (diary : List Occurrence) : List Envelope := diary.filterMap envelope?

/-- How many entries were given out for an action. -/
def entriesFor (action : KeytabAction) : List Occurrence → Nat
  | [] => 0
  | injected done entries :: diary => (if done = action then entries else 0) + entriesFor action diary
  | _ :: diary => entriesFor action diary

end Occurrence

/-! ### Ledgers -/

/-- How much of what was counted, and all that was sent. -/
@[ext] structure Ledger where
  published : (kind : String) → Nat
  updates : (holder : String) → (changed : Bool) → Nat
  injected : (action : String) → Nat
  sent : List Envelope

namespace Ledger

def note (l : Ledger) : Occurrence → Ledger
  | .accepted e => { l with
      published := fun kind => l.published kind + if kind = e.payload.kind then 1 else 0
      sent := l.sent ++ [e] }
  | .merged holder changed => { l with
      updates := fun name b => l.updates name b + if name = holder ∧ b = changed then 1 else 0 }
  | .injected action entries => { l with
      injected := fun name => l.injected name + if name = action.name then entries else 0 }

def noteAll (l : Ledger) (diary : List Occurrence) : Ledger := diary.foldl note l

theorem noteAll_append (l : Ledger) (first second : List Occurrence) :
    l.noteAll (first ++ second) = (l.noteAll first).noteAll second :=
  List.foldl_append

theorem note_injected_zero (l : Ledger) (action : KeytabAction) : l.note (.injected action 0) = l := by
  refine Ledger.ext rfl rfl ?_ rfl
  funext name
  exact congrArg (l.injected name + ·) (ite_self 0)

theorem sent_noteAll (l : Ledger) (diary : List Occurrence) :
    (l.noteAll diary).sent = l.sent ++ Occurrence.envelopes diary := by
  induction diary generalizing l with
  | nil => exact (List.append_nil _).symm
  | cons o diary ih =>
    rw [noteAll, List.foldl_cons, ← noteAll, ih]
    cases o with
    | accepted e => exact List.append_assoc ..
    | merged | injected => rfl

theorem published_noteAll (l : Ledger) (diary : List Occurrence) (kind : String) :
    (l.noteAll diary).published kind =
      l.published kind + (Occurrence.envelopes diary).countP (·.payload.kind = kind) := by
  induction diary generalizing l with
  | nil => rfl
  | cons o diary ih =>
    rw [noteAll, List.foldl_cons, ← noteAll, ih]
    cases o with
    | accepted e =>
      have hcons : Occurrence.envelopes (.accepted e :: diary) = e :: Occurrence.envelopes diary := rfl
      rw [hcons, List.countP_cons]
      simp only [note, decide_eq_true_eq, eq_comm (a := kind)]
      omega
    | merged | injected => rfl

theorem updates_noteAll (l : Ledger) (diary : List Occurrence) (holder : String) (changed : Bool) :
    (l.noteAll diary).updates holder changed =
      l.updates holder changed + diary.count (.merged holder changed) := by
  induction diary generalizing l with
  | nil => rfl
  | cons o diary ih =>
    rw [noteAll, List.foldl_cons, ← noteAll, ih, List.count_cons]
    cases o with
    | merged name b =>
      simp only [note, beq_iff_eq, Occurrence.merged.injEq, eq_comm (a := holder), eq_comm (a := changed)]
      omega
    | accepted | injected => rfl

theorem injected_noteAll (l : Ledger) (diary : List Occurrence) (action : KeytabAction) :
    (l.noteAll diary).injected action.name =
      l.injected action.name + Occurrence.entriesFor action diary := by
  have hname : ∀ other : KeytabAction, action.name = other.name ↔ other = action := by
    intro other
    cases action <;> cases other <;> decide
  induction diary generalizing l with
  | nil => rfl
  | cons o diary ih =>
    rw [noteAll, List.foldl_cons, ← noteAll, ih]
    cases o with
    | injected done entries =>
      simp only [note, Occurrence.entriesFor, hname]
      omega
    | accepted | merged => rfl

end Ledger

/-- How many envelopes of each kind were taken goes up with each of them, and with nothing else. -/
def Transport.Counts {ω : Type} (t : Transport ω) (published : ω → String → Nat) : Prop :=
  ∀ e w, match t.send e w with
    | .ok _ w' => published w' = fun kind => published w kind + if kind = e.payload.kind then 1 else 0
    | .error _ w' => published w' = published w

/-! ### Diaries -/

/-- What an operation comes to, wherever it is performed. -/
abbrev Diary (σ : Type) := σ → List Occurrence

namespace Diary
variable {σ α β : Type}

def nothing : Diary σ := fun _ => []

/-- What an operation comes to, and then, if it does not fail, what comes after it. -/
def andThen (first : Diary σ) (op : Op σ α) (next : α → Diary σ) : Diary σ := fun s =>
  first s ++
    match op.on s with
    | (.ok v, t) => next v t
    | (.error _, _) => []

/-- What an operation comes to for the members of a list, up to the first for which it fails. -/
def each (op : α → Op σ β) (diary : α → Diary σ) : List α → Diary σ
  | [] => nothing
  | x :: l => (diary x).andThen (op x) fun _ => each op diary l

/-- From states with the property, what the diary is of merges nothing. -/
def MergesNothing (P : σ → Prop) (diary : Diary σ) : Prop :=
  ∀ s, P s → ∀ holder changed, .merged holder changed ∉ diary s

namespace MergesNothing
variable {P : σ → Prop}

theorem nothing : (Diary.nothing : Diary σ).MergesNothing P := fun _ _ _ _ => List.not_mem_nil

/-- One operation after another, the first of which keeps the property. -/
theorem andThen {first : Diary σ} {op : Op σ α} {next : α → Diary σ} (h : first.MergesNothing P)
    (hop : op.Preserves P) (hn : ∀ v, (next v).MergesNothing P) : (first.andThen op next).MergesNothing P := by
  intro s hs holder changed hmem
  have hafter := hop s hs
  rw [Diary.andThen, List.mem_append] at hmem
  rcases hmem with hmem | hmem
  · exact h s hs holder changed hmem
  · rcases hr : op.on s with ⟨f | v, t⟩
    · rw [hr] at hmem
      exact List.not_mem_nil hmem
    · rw [hr] at hmem hafter
      exact hn v t hafter holder changed hmem

theorem each {op : α → Op σ β} {diary : α → Diary σ} (h : ∀ x, (diary x).MergesNothing P)
    (hop : ∀ x, (op x).Preserves P) (l : List α) : (Diary.each op diary l).MergesNothing P := by
  induction l with
  | nil => exact nothing
  | cons x l ih => exact (h x).andThen (hop x) fun _ => ih

end MergesNothing
end Diary

namespace Op
variable {σ α β : Type} {view : σ → Ledger}

/-- The operation notes the entries of the diary in the ledger, and no others. -/
def Accounts (view : σ → Ledger) (op : Op σ β) (diary : Diary σ) : Prop :=
  ∀ s, view (op.on s).2 = (view s).noteAll (diary s)

/-- What leaves the ledger alone comes to nothing. -/
theorem accounts_nothing {op : Op σ β} (h : ∀ s, view (op.on s).2 = view s) :
    op.Accounts view .nothing := h

namespace Accounts

/-- One operation after another. -/
theorem bind {γ : Type} {op : Op σ α} {next : α → Op σ γ} {first : Diary σ} {rest : α → Diary σ}
    (h : op.Accounts view first) (hn : ∀ v, (next v).Accounts view (rest v)) :
    (op >>= next).Accounts view (first.andThen op rest) := by
  intro s
  have hs := h s
  rw [on_bind, Diary.andThen, Ledger.noteAll_append, ← hs]
  rcases op.on s with ⟨f | v, t⟩
  · rfl
  · exact hn v t

/-- An operation, and another one that leaves the ledger alone. -/
theorem followed {γ : Type} {op : Op σ α} {next : α → Op σ γ} {diary : Diary σ}
    (h : op.Accounts view diary) (hn : ∀ v s, view ((next v).on s).2 = view s) :
    (op >>= next).Accounts view diary := by
  intro s
  rw [← h s, on_bind]
  rcases op.on s with ⟨f | v, t⟩
  · rfl
  · exact hn v t

/-- What becomes of a result is not counted. -/
theorem map {γ : Type} {op : Op σ α} {diary : Diary σ} (h : op.Accounts view diary) (g : α → γ) :
    (op >>= fun v => pure (g v)).Accounts view diary :=
  h.followed fun _ _ => rfl

/-- A pass over a list accounts for what its steps account for, whatever becomes of their results. -/
theorem mapM_map {γ : Type} {op : α → Op σ β} {diary : α → Diary σ}
    (h : ∀ x, (op x).Accounts view (diary x)) (g : α → β → γ) (l : List α) :
    (l.mapM fun x => do let y ← op x; return g x y).Accounts view (Diary.each op diary l) := by
  induction l with
  | nil => exact accounts_nothing fun _ => rfl
  | cons x l ih =>
    have hsplit : ((x :: l).mapM fun x => do let y ← op x; return g x y) = op x >>= fun y =>
        (l.mapM fun x => do let y ← op x; return g x y) >>= fun ys => pure (g x y :: ys) := by
      rw [List.mapM_cons, bind_assoc]
      rfl
    rw [hsplit]
    exact (h x).bind fun y => ih.map fun ys => g x y :: ys

theorem mapM {op : α → Op σ β} {diary : α → Diary σ} (h : ∀ x, (op x).Accounts view (diary x))
    (l : List α) : (l.mapM op).Accounts view (Diary.each op diary l) := by
  have hmap := mapM_map h (fun _ y => y) l
  simp only [bind_pure] at hmap
  exact hmap

theorem forM {op : α → Op σ PUnit} {diary : α → Diary σ} (h : ∀ x, (op x).Accounts view (diary x))
    (l : List α) : (l.forM op).Accounts view (Diary.each op diary l) := by
  induction l with
  | nil => exact accounts_nothing fun _ => rfl
  | cons x l ih => exact (h x).bind fun _ => ih

/-- An operation on a part of a state accounts for what it does if the part has the ledger of the whole. -/
theorem focus {τ : Type} {get : σ → τ} {set : τ → σ → σ} {op : σ → Op τ β} {diary : σ → Diary τ}
    {part : σ → τ → Ledger} (hget : ∀ s, part s (get s) = view s)
    (hset : ∀ s t, view (set t s) = part s t) (h : ∀ s, (op s).Accounts (part s) (diary s)) :
    Accounts view (fun s => Op.focus get set (op s) s) fun s => diary s (get s) := by
  intro s
  show view ((Op.focus get set (op s)).on s).2 = _
  rw [on_focus, hset, h s, hget]

end Accounts
end Op
end FleetSync
