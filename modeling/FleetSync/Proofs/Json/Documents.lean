import FleetSync.Proofs.Json.Tokens

/-!
Every document reads back from its text, whatever it holds.

A written value is read with any fuel of at least twice its length and whatever stands behind it,
provided that this ends a number. The proof follows the three readers at once: an array or object
takes one unit of fuel for itself and one for each item, and each of these writes at least one
character of its own. What a value starts with tells the reader which kind it is, and is neither
white space nor a closing bracket.
-/
namespace FleetSync.Json

theorem skipBlank_cons {c : Char} (h : isBlank c = false) (cs : List Char) :
    skipBlank (c :: cs) = c :: cs := by
  simp [skipBlank, h]

/-- What a number starts with starts nothing else. -/
theorem not_blank_of_number {c : Char} (h : c = '-' ∨ c.isDigit = true) :
    isBlank c = false ∧ c ≠ ']' ∧ c ≠ 'n' ∧ c ≠ 't' ∧ c ≠ 'f' ∧ c ≠ '"' ∧ c ≠ '[' ∧ c ≠ '{' := by
  refine ⟨?_, ?_, ?_, ?_, ?_, ?_, ?_, ?_⟩
  · rw [Bool.eq_false_iff]
    intro hb
    simp only [isBlank, Bool.or_eq_true, decide_eq_true_eq] at hb
    rcases hb with ((rfl | rfl) | rfl) | rfl <;> revert h <;> decide
  all_goals rintro rfl; revert h; decide

/-! ### First characters -/

theorem render_eq_cons (j : Json) : ∃ c cs, render j = c :: cs ∧ isBlank c = false ∧ c ≠ ']' := by
  cases j with
  | null => exact ⟨_, _, rfl, by decide, by decide⟩
  | bool b => cases b <;> exact ⟨_, _, rfl, by decide, by decide⟩
  | number n =>
    obtain ⟨c, cs, hn, hc⟩ := renderNumber_eq_cons n
    have h := not_blank_of_number hc
    exact ⟨c, cs, hn, h.1, h.2.1⟩
  | str s =>
    obtain ⟨body, hb, -⟩ := readLiteral_renderLiteral s
    exact ⟨_, body, hb, by decide, by decide⟩
  | arr items => exact ⟨_, _, rfl, by decide, by decide⟩
  | obj members => exact ⟨_, _, rfl, by decide, by decide⟩

theorem renderItems_cons_cons (j k : Json) (ks : List Json) :
    renderItems (j :: k :: ks) = render j ++ ',' :: renderItems (k :: ks) := by
  rw [renderItems]
  exact List.cons_ne_nil k ks

theorem renderMembers_cons_cons (m n : Literal × Json) (ns : List (Literal × Json)) :
    renderMembers (m :: n :: ns) =
      renderLiteral m.1 ++ ':' :: render m.2 ++ ',' :: renderMembers (n :: ns) := by
  rw [renderMembers]
  exact List.cons_ne_nil n ns

theorem renderItems_eq_cons (j : Json) (js : List Json) :
    ∃ c cs, renderItems (j :: js) = c :: cs ∧ isBlank c = false ∧ c ≠ ']' := by
  obtain ⟨c, cs, hj, hb, hc⟩ := render_eq_cons j
  cases js with
  | nil => exact ⟨c, cs ++ [']'], by simp [renderItems, hj], hb, hc⟩
  | cons k ks =>
    exact ⟨c, cs ++ ',' :: renderItems (k :: ks), by simp [renderItems_cons_cons, hj], hb, hc⟩

theorem renderMembers_eq_cons (m : Literal × Json) (ms : List (Literal × Json)) :
    ∃ cs, renderMembers (m :: ms) = '"' :: cs := by
  obtain ⟨body, hb, -⟩ := readLiteral_renderLiteral m.1
  cases ms with
  | nil => exact ⟨_, by rw [renderMembers, hb]; rfl⟩
  | cons n ns => exact ⟨_, by rw [renderMembers_cons_cons, hb]; rfl⟩

/-! ### Reading back -/

theorem readValue_number (fuel : Nat) (n : Number) {rest : List Char} (hr : EndsNumber rest) :
    readValue (fuel + 1) (renderNumber n ++ rest) = some (.number n, rest) := by
  have hread := readNumber_renderNumber n hr
  obtain ⟨c, cs, hn, hc⟩ := renderNumber_eq_cons n
  obtain ⟨hb, -, hnull, htrue, hfalse, hquote, hbracket, hbrace⟩ := not_blank_of_number hc
  rw [hn, List.cons_append] at hread ⊢
  rw [readValue.eq_def]
  simp only [skipBlank_cons hb]
  split
  next h => exact absurd (List.cons.inj h).1 hnull
  next h => exact absurd (List.cons.inj h).1 htrue
  next h => exact absurd (List.cons.inj h).1 hfalse
  next h => exact absurd (List.cons.inj h).1 hquote
  next h => exact absurd (List.cons.inj h).1 hbracket
  next h => exact absurd (List.cons.inj h).1 hbrace
  next => rw [hread]; rfl

mutual
/-- A value reads back, up to where it ends. -/
theorem readValue_render : ∀ (j : Json) (fuel : Nat) (rest : List Char),
    2 * (render j).length ≤ fuel → EndsNumber rest →
      readValue fuel (render j ++ rest) = some (j, rest)
  | j, 0, _, hf, _ => by
    obtain ⟨c, cs, hj, -⟩ := render_eq_cons j
    simp [hj] at hf
  | .null, fuel + 1, rest, _, _ => by simp [render, readValue, skipBlank_cons, isBlank]
  | .bool true, fuel + 1, rest, _, _ => by simp [render, readValue, skipBlank_cons, isBlank]
  | .bool false, fuel + 1, rest, _, _ => by simp [render, readValue, skipBlank_cons, isBlank]
  | .number n, fuel + 1, rest, _, hr => readValue_number fuel n hr
  | .str s, fuel + 1, rest, _, _ => by
    obtain ⟨body, hb, hread⟩ := readLiteral_renderLiteral s
    simp [render, hb, readValue, skipBlank_cons, isBlank, hread]
  | .arr [], fuel + 1, rest, _, _ => by
    simp [render, renderItems, readValue, skipBlank_cons, isBlank]
  | .arr (j :: js), fuel + 1, rest, hf, _ => by
    have hi := readItems_renderItems j js fuel rest (by simp [render] at hf; omega)
    obtain ⟨c, cs, hj, hb, hc⟩ := renderItems_eq_cons j js
    rw [hj] at hi
    rw [render, hj, List.cons_append, readValue, skipBlank_cons (by decide)]
    simp only [List.cons_append, skipBlank_cons hb] at hi ⊢
    split
    next h => exact absurd (List.cons.inj h).1 hc
    next => rw [hi]; rfl
  | .obj [], fuel + 1, rest, _, _ => by
    simp [render, renderMembers, readValue, skipBlank_cons, isBlank]
  | .obj (m :: ms), fuel + 1, rest, hf, _ => by
    have hm := readMembers_renderMembers m ms fuel rest (by simp [render] at hf; omega)
    obtain ⟨cs, hcs⟩ := renderMembers_eq_cons m ms
    have hb : isBlank '"' = false := by decide
    rw [hcs] at hm
    rw [render, hcs, List.cons_append, readValue, skipBlank_cons (by decide)]
    simp only [List.cons_append, skipBlank_cons hb] at hm ⊢
    split
    next h => exact absurd (List.cons.inj h).1 (by decide)
    next => rw [hm]; rfl

/-- So do the items of an array. -/
theorem readItems_renderItems : ∀ (j : Json) (js : List Json) (fuel : Nat) (rest : List Char),
    2 * (renderItems (j :: js)).length ≤ fuel →
      readItems fuel (renderItems (j :: js) ++ rest) = some (j :: js, rest)
  | j, js, 0, _, hf => by
    obtain ⟨c, cs, hj, -⟩ := renderItems_eq_cons j js
    simp [hj] at hf
  | j, [], fuel + 1, rest, hf => by
    have hj := readValue_render j fuel (']' :: rest) (by simp [renderItems] at hf; omega)
      (endsNumber_cons (by simp))
    simp [renderItems, readItems, hj, skipBlank_cons, isBlank]
  | j, k :: ks, fuel + 1, rest, hf => by
    rw [renderItems_cons_cons] at hf ⊢
    simp only [List.length_append, List.length_cons] at hf
    have hj := readValue_render j fuel (',' :: (renderItems (k :: ks) ++ rest)) (by omega)
      (endsNumber_cons (by simp))
    have hk := readItems_renderItems k ks fuel rest (by omega)
    simp [readItems, hj, hk, skipBlank_cons, isBlank]

/-- And the members of an object. -/
theorem readMembers_renderMembers :
    ∀ (m : Literal × Json) (ms : List (Literal × Json)) (fuel : Nat) (rest : List Char),
      2 * (renderMembers (m :: ms)).length ≤ fuel →
        readMembers fuel (renderMembers (m :: ms) ++ rest) = some (m :: ms, rest)
  | m, ms, 0, _, hf => by
    obtain ⟨cs, hcs⟩ := renderMembers_eq_cons m ms
    simp [hcs] at hf
  | (k, j), [], fuel + 1, rest, hf => by
    obtain ⟨body, hb, hk⟩ := readLiteral_renderLiteral k
    have hj := readValue_render j fuel ('}' :: rest) (by simp [renderMembers] at hf; omega)
      (endsNumber_cons (by simp))
    simp [renderMembers, hb, readMembers, hk, hj, skipBlank_cons, isBlank]
  | (k, j), n :: ns, fuel + 1, rest, hf => by
    obtain ⟨body, hb, hk⟩ := readLiteral_renderLiteral k
    rw [renderMembers_cons_cons] at hf ⊢
    simp only [List.length_append, List.length_cons] at hf
    have hj := readValue_render j fuel (',' :: (renderMembers (n :: ns) ++ rest)) (by omega)
      (endsNumber_cons (by simp))
    have hn := readMembers_renderMembers n ns fuel rest (by omega)
    simp [hb, readMembers, hk, hj, hn, skipBlank_cons, isBlank]
end

theorem parse_render (j : Json) : parse (render j) = some j := by
  have h := readValue_render j (2 * (render j).length + 2) [] (by omega) endsNumber_nil
  rw [List.append_nil] at h
  rw [parse, h]
  rfl

/-- The text of a document holds that document. -/
theorem ofText?_toText (j : Json) : ofText? j.toText = some j := by
  rw [ofText?, toText, String.toList_ofList, parse_render]

end FleetSync.Json
