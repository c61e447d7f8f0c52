/-!
# Dealing out a list

`Dealt xs ys zs ws` says that the elements of `xs` are dealt out to three lists: every occurrence
goes to exactly one of them, and each list keeps the order. Filtering by three conditions of which
every element meets exactly one is such a deal (`dealt_filter`).
-/

namespace Sequence

variable {α : Type}

inductive Dealt : List α → List α → List α → List α → Prop where
  | nil : Dealt [] [] [] []
  | first {xs ys zs ws : List α} (a : α) (h : Dealt xs ys zs ws) : Dealt (a :: xs) (a :: ys) zs ws
  | second {xs ys zs ws : List α} (a : α) (h : Dealt xs ys zs ws) : Dealt (a :: xs) ys (a :: zs) ws
  | third {xs ys zs ws : List α} (a : α) (h : Dealt xs ys zs ws) : Dealt (a :: xs) ys zs (a :: ws)

variable {p q r : α → Bool}

/-- Three conditions of which every element meets exactly one deal out a list. -/
theorem dealt_filter {xs : List α}
    (h : ∀ a ∈ xs, (p a = true ∧ q a = false ∧ r a = false) ∨
      (p a = false ∧ q a = true ∧ r a = false) ∨ (p a = false ∧ q a = false ∧ r a = true)) :
    Dealt xs (xs.filter p) (xs.filter q) (xs.filter r) := by
  induction xs with
  | nil => exact .nil
  | cons a rest ih =>
      have hrest := ih fun b hb => h b (List.mem_cons_of_mem _ hb)
      rcases h a List.mem_cons_self with ⟨hp, hq, hr⟩ | ⟨hp, hq, hr⟩ | ⟨hp, hq, hr⟩
      · rw [List.filter_cons_of_pos hp, List.filter_cons_of_neg (by simp [hq]),
          List.filter_cons_of_neg (by simp [hr])]
        exact .first a hrest
      · rw [List.filter_cons_of_neg (by simp [hp]), List.filter_cons_of_pos hq,
          List.filter_cons_of_neg (by simp [hr])]
        exact .second a hrest
      · rw [List.filter_cons_of_neg (by simp [hp]), List.filter_cons_of_neg (by simp [hq]),
          List.filter_cons_of_pos hr]
        exact .third a hrest

/-- The images of some elements that come from the elements themselves. -/
theorem filter_map_eq_filter {β : Type} {f : α → Option β} {back : β → α}
    (h : ∀ a b, f a = some b → back b = a) (xs : List α) :
    (xs.filterMap f).map back = xs.filter fun a => (f a).isSome := by
  induction xs with
  | nil => rfl
  | cons a rest ih =>
      cases hf : f a with
      | none => rw [List.filterMap_cons_none hf, List.filter_cons_of_neg (by simp [hf]), ih]
      | some b =>
          rw [List.filterMap_cons_some hf, List.filter_cons_of_pos (by simp [hf]), List.map_cons,
            h a b hf, ih]

end Sequence
