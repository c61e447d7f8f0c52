/-!
# Edits of a list

Two lists are related by `Edits p` when one comes from the other by inserting and deleting
elements that satisfy `p`, anywhere and any number of times. What is left when the elements with
`p` are dropped is an invariant of such edits, so a function that only depends on the rest cannot
tell the lists apart.
-/

namespace Sequence

variable {α : Type}

/-- The lists reached by inserting and deleting elements that satisfy `p`. -/
inductive Edits (p : α → Prop) (xs : List α) : List α → Prop where
  | refl : Edits p xs xs
  | insert {before after : List α} {a : α} (ha : p a) (h : Edits p xs (before ++ after)) :
      Edits p xs (before ++ a :: after)
  | delete {before after : List α} {a : α} (ha : p a) (h : Edits p xs (before ++ a :: after)) :
      Edits p xs (before ++ after)

variable {p : α → Prop} {q : α → Bool}

/-- Edits keep the elements that are not edited. -/
theorem Edits.filter_eq {xs ys : List α} (hq : ∀ a, p a → q a = false) (h : Edits p xs ys) :
    xs.filter q = ys.filter q := by
  induction h with
  | refl => rfl
  | insert ha _ ih =>
      rw [ih, List.filter_append, List.filter_append, List.filter_cons_of_neg (by simp [hq _ ha])]
  | delete ha _ ih =>
      rw [ih, List.filter_append, List.filter_append, List.filter_cons_of_neg (by simp [hq _ ha])]

/-- Edits through a map are edits of the images. -/
theorem Edits.map {β : Type} {r : β → Prop} {f : α → β} {xs ys : List α}
    (hr : ∀ a, p a → r (f a)) (h : Edits p xs ys) : Edits r (xs.map f) (ys.map f) := by
  induction h with
  | refl => exact .refl
  | insert ha _ ih =>
      rw [List.map_append] at ih
      rw [List.map_append, List.map_cons]
      exact .insert (hr _ ha) ih
  | delete ha _ ih =>
      rw [List.map_append, List.map_cons] at ih
      rw [List.map_append]
      exact .delete (hr _ ha) ih

end Sequence
