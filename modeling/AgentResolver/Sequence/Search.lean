import Mathlib.Data.List.Forall2

/-!
# Search for a first success

A loop that tries the elements of a list in order and stops at the first success visits
`visited p xs`: all of them, or those up to the first success (`visited_of_none`,
`visited_of_first`). `map_m_ok` is the loop that stops at the first failure instead.
-/

namespace Sequence

variable {α : Type}

/-- The elements of a list up to and including the first that satisfies `p`. -/
def visited (p : α → Bool) : List α → List α
  | [] => []
  | a :: rest => if p a then [a] else a :: visited p rest

variable {p : α → Bool}

@[simp] theorem visited_nil : visited p [] = [] := rfl

theorem visited_cons_pos {a : α} {rest : List α} (h : p a) : visited p (a :: rest) = [a] :=
  if_pos h

theorem visited_cons_neg {a : α} {rest : List α} (h : p a = false) :
    visited p (a :: rest) = a :: visited p rest := by
  simp [visited, h]

/-- Without a success every element is visited. -/
theorem visited_of_none {xs : List α} (h : ∀ a ∈ xs, p a = false) : visited p xs = xs := by
  induction xs with
  | nil => rfl
  | cons a rest ih =>
      rw [visited_cons_neg (h a (by simp)), ih fun b hb => h b (List.mem_cons_of_mem _ hb)]

/-- With a first success nothing after it is visited. -/
theorem visited_of_first {before after : List α} {a : α} (h : ∀ b ∈ before, p b = false)
    (ha : p a) : visited p (before ++ a :: after) = before ++ [a] := by
  induction before with
  | nil => exact visited_cons_pos ha
  | cons b before ih =>
      rw [List.cons_append, visited_cons_neg (h b (by simp)),
        ih fun c hc => h c (List.mem_cons_of_mem _ hc), List.cons_append]

/-- The first success of a list, found where the list is split. -/
theorem find_of_first {before after : List α} {a : α} (h : ∀ b ∈ before, p b = false)
    (ha : p a) : (before ++ a :: after).find? p = some a := by
  rw [List.find?_append, List.find?_eq_none.mpr (by simpa using h), Option.none_or,
    List.find?_cons_of_pos ha]

/-- An element of the right list is related to one of the left list. -/
theorem exists_left_of_mem {β : Type} {r : α → β → Prop} {xs : List α} {ys : List β} {y : β}
    (hall : List.Forall₂ r xs ys) (h : y ∈ ys) : ∃ x ∈ xs, r x y := by
  induction hall with
  | nil => cases h
  | cons hfirst _ ih =>
      rcases List.mem_cons.mp h with rfl | h
      · exact ⟨_, List.mem_cons_self, hfirst⟩
      · obtain ⟨x, hx, hr⟩ := ih h
        exact ⟨x, List.mem_cons_of_mem _ hx, hr⟩

/-- A search in two related lists, for a property that related elements share, finds nothing in
either or related elements in both. -/
theorem find_related {β : Type} {r : α → β → Prop} {q : β → Bool} {xs : List α} {ys : List β}
    (hall : List.Forall₂ r xs ys) (hpq : ∀ x y, r x y → p x = q y) :
    (xs.find? p = none ∧ ys.find? q = none) ∨
      ∃ x y, xs.find? p = some x ∧ ys.find? q = some y ∧ r x y := by
  induction hall with
  | nil => exact Or.inl ⟨rfl, rfl⟩
  | @cons x y xs ys hfirst _ ih =>
      cases hx : p x with
      | true =>
          rw [List.find?_cons_of_pos hx, List.find?_cons_of_pos ((hpq x y hfirst).symm.trans hx)]
          exact Or.inr ⟨x, y, rfl, rfl, hfirst⟩
      | false =>
          have hy : q y = false := (hpq x y hfirst).symm.trans hx
          rw [List.find?_cons_of_neg (by simp [hx]), List.find?_cons_of_neg (by simp [hy])]
          exact ih

/-- A list of fallible steps succeeds when each of them does. -/
theorem map_m_ok {β ε : Type} {f : α → Except ε β} {xs : List α} {ys : List β} :
    xs.mapM f = .ok ys ↔ List.Forall₂ (fun x y => f x = .ok y) xs ys := by
  induction xs generalizing ys with
  | nil =>
      rw [List.mapM_nil, List.forall₂_nil_left_iff]
      exact ⟨fun h => (Except.ok.inj h).symm, fun h => h ▸ rfl⟩
  | cons x rest ih =>
      rw [List.mapM_cons, List.forall₂_cons_left_iff]
      cases hx : f x with
      | error error => simp [bind, Except.bind]
      | ok y =>
          cases hrest : rest.mapM f with
          | error error =>
              constructor
              · intro h
                cases h
              · rintro ⟨y', ys', -, hall, -⟩
                rw [ih.mpr hall] at hrest
                cases hrest
          | ok more =>
              constructor
              · intro h
                cases h
                exact ⟨y, more, rfl, ih.mp hrest, rfl⟩
              · rintro ⟨y', ys', hy, hall, rfl⟩
                cases hy
                rw [ih.mpr hall] at hrest
                cases hrest
                rfl

end Sequence
