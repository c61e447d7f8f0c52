/-!
# The distinct elements of a list, in first-seen order

A loop that appends an element unless the list has it builds `firstSeen`. The result has the
elements of the input without repetition, so permuting the input permutes it. `distinctBy` compares
elements by a key, and skips the keys that were seen before the loop.
-/

namespace Sequence

variable {α : Type} [DecidableEq α]

/-- Appends an element unless the list has it. -/
def insertNew (seen : List α) (a : α) : List α := if a ∈ seen then seen else seen ++ [a]

/-- The distinct elements, each at its first place. -/
def firstSeen (xs : List α) : List α := xs.foldl insertNew []

theorem mem_insert_new {seen : List α} {a b : α} : b ∈ insertNew seen a ↔ b ∈ seen ∨ b = a := by
  unfold insertNew
  split
  · rename_i ha
    refine ⟨Or.inl, fun h => h.elim id ?_⟩
    rintro rfl
    exact ha
  · simp

theorem nodup_insert_new {seen : List α} (h : seen.Nodup) (a : α) : (insertNew seen a).Nodup := by
  unfold insertNew
  split
  · exact h
  · rename_i ha
    rw [List.nodup_append]
    refine ⟨h, by simp, fun b hb c hc => ?_⟩
    obtain rfl := List.mem_singleton.mp hc
    rintro rfl
    exact ha hb

theorem mem_foldl_insert_new {xs seen : List α} {b : α} :
    b ∈ xs.foldl insertNew seen ↔ b ∈ seen ∨ b ∈ xs := by
  induction xs generalizing seen with
  | nil => simp
  | cons a rest ih => rw [List.foldl_cons, ih, mem_insert_new, List.mem_cons, or_assoc]

theorem nodup_foldl_insert_new {xs seen : List α} (h : seen.Nodup) :
    (xs.foldl insertNew seen).Nodup := by
  induction xs generalizing seen with
  | nil => exact h
  | cons a rest ih => exact ih (nodup_insert_new h a)

theorem mem_first_seen {xs : List α} {b : α} : b ∈ firstSeen xs ↔ b ∈ xs := by
  rw [firstSeen, mem_foldl_insert_new]
  simp

theorem nodup_first_seen (xs : List α) : (firstSeen xs).Nodup :=
  nodup_foldl_insert_new List.nodup_nil

/-- One more element of the list is one more step of the loop. -/
theorem first_seen_snoc (xs : List α) (a : α) :
    firstSeen (xs ++ [a]) = insertNew (firstSeen xs) a := by
  rw [firstSeen, List.foldl_append]
  rfl

/-- The distinct elements stand in the order of their first places. -/
theorem first_seen_order {β : Type} [BEq β] [LawfulBEq β] [DecidableEq β] (xs : List β) :
    (firstSeen xs).Pairwise fun a b => xs.idxOf a < xs.idxOf b := by
  suffices h : ∀ ys : List β, (firstSeen ys.reverse).Pairwise fun a b =>
      ys.reverse.idxOf a < ys.reverse.idxOf b by
    rw [← List.reverse_reverse xs]
    exact h xs.reverse
  intro ys
  induction ys with
  | nil => exact List.Pairwise.nil
  | cons c rest ih =>
      have hkept : (firstSeen rest.reverse).Pairwise fun a b =>
          (rest.reverse ++ [c]).idxOf a < (rest.reverse ++ [c]).idxOf b := by
        refine ih.imp_of_mem fun {a b} ha hb hlt => ?_
        rw [List.idxOf_append, List.idxOf_append, if_pos (mem_first_seen.mp ha),
          if_pos (mem_first_seen.mp hb)]
        exact hlt
      rw [List.reverse_cons, first_seen_snoc, insertNew]
      split
      · exact hkept
      · rename_i hnew
        rw [mem_first_seen] at hnew
        refine List.pairwise_append.mpr ⟨hkept, List.pairwise_singleton _ _, ?_⟩
        intro a ha b hb
        obtain rfl := List.mem_singleton.mp hb
        have ha := mem_first_seen.mp ha
        rw [List.idxOf_append, List.idxOf_append, if_pos ha, if_neg hnew]
        have hlt := List.idxOf_lt_length_of_mem ha
        omega

/-- Permuting a list permutes its distinct elements. -/
theorem first_seen_perm {xs ys : List α} (h : xs.Perm ys) : (firstSeen xs).Perm (firstSeen ys) := by
  refine (List.perm_ext_iff_of_nodup (nodup_first_seen xs) (nodup_first_seen ys)).mpr fun b => ?_
  rw [mem_first_seen, mem_first_seen, h.mem_iff]

/-! ## Distinct keys -/

section

variable {β κ : Type} [DecidableEq κ]

/-- The elements with new keys, each at its first place. -/
def distinctBy (key : β → κ) (seen : List κ) : List β → List β
  | [] => []
  | b :: rest =>
      if key b ∈ seen then distinctBy key seen rest
      else b :: distinctBy key (key b :: seen) rest

variable {key : β → κ}

/-- A key that was seen does not come again. -/
theorem key_of_mem_distinct_by {seen : List κ} {xs : List β} {b : β}
    (h : b ∈ distinctBy key seen xs) : key b ∉ seen := by
  induction xs generalizing seen with
  | nil => cases h
  | cons a rest ih =>
      unfold distinctBy at h
      split at h
      · exact ih h
      · rename_i hfresh
        rcases List.mem_cons.mp h with rfl | h
        · exact hfresh
        · exact fun hseen => ih h (List.mem_cons_of_mem _ hseen)

theorem distinct_by_sublist (key : β → κ) (seen : List κ) (xs : List β) :
    (distinctBy key seen xs).Sublist xs := by
  induction xs generalizing seen with
  | nil => exact List.Sublist.refl _
  | cons a rest ih =>
      unfold distinctBy
      split
      · exact (ih _).cons a
      · exact (ih _).cons_cons a

/-- Only elements of the list are kept. -/
theorem mem_of_mem_distinct_by {seen : List κ} {xs : List β} {b : β}
    (h : b ∈ distinctBy key seen xs) : b ∈ xs := by
  induction xs generalizing seen with
  | nil => cases h
  | cons a rest ih =>
      unfold distinctBy at h
      split at h
      · exact List.mem_cons_of_mem _ (ih h)
      · rcases List.mem_cons.mp h with rfl | h
        · exact List.mem_cons_self
        · exact List.mem_cons_of_mem _ (ih h)

theorem nodup_distinct_by (key : β → κ) (seen : List κ) (xs : List β) :
    ((distinctBy key seen xs).map key).Nodup := by
  induction xs generalizing seen with
  | nil => exact List.nodup_nil
  | cons a rest ih =>
      unfold distinctBy
      split
      · exact ih seen
      · rw [List.map_cons, List.nodup_cons]
        refine ⟨fun hmem => ?_, ih (key a :: seen)⟩
        obtain ⟨b, hb, hkey⟩ := List.mem_map.mp hmem
        exact key_of_mem_distinct_by hb (hkey ▸ List.mem_cons_self)

/-- Where the keys are distinct already, only the seen ones go. -/
theorem distinct_by_of_nodup {seen : List κ} {xs : List β} (h : (xs.map key).Nodup) :
    distinctBy key seen xs = xs.filter fun b => key b ∉ seen := by
  induction xs generalizing seen with
  | nil => rfl
  | cons a rest ih =>
      rw [List.map_cons, List.nodup_cons] at h
      obtain ⟨hfirst, hrest⟩ := h
      unfold distinctBy
      by_cases hseen : key a ∈ seen
      · rw [if_pos hseen, List.filter_cons_of_neg (by simpa using hseen), ih hrest]
      · rw [if_neg hseen, List.filter_cons_of_pos (by simpa using hseen), ih hrest]
        refine congrArg (a :: ·) (List.filter_congr fun b hb => ?_)
        have hne : key b ≠ key a := fun heq => hfirst (heq ▸ List.mem_map_of_mem hb)
        simp [hne]

/-- The keys of a mapped list. -/
theorem distinct_by_map {γ : Type} (f : γ → β) (seen : List κ) (xs : List γ) :
    distinctBy key seen (xs.map f) = (distinctBy (fun c => key (f c)) seen xs).map f := by
  induction xs generalizing seen with
  | nil => rfl
  | cons c rest ih =>
      rw [List.map_cons, distinctBy, distinctBy]
      by_cases hseen : key (f c) ∈ seen
      · rw [if_pos hseen, if_pos hseen, ih]
      · rw [if_neg hseen, if_neg hseen, ih, List.map_cons]

/-- Under an injective key the keys are distinct where the elements are. -/
theorem distinct_by_injective {key : α → κ} (hkey : ∀ a b, key a = key b → a = b)
    (seen : List α) (xs : List α) :
    distinctBy key (seen.map key) xs = distinctBy id seen xs := by
  induction xs generalizing seen with
  | nil => rfl
  | cons a rest ih =>
      have hmem : key a ∈ seen.map key ↔ id a ∈ seen := by
        constructor
        · intro h
          obtain ⟨b, hb, heq⟩ := List.mem_map.mp h
          exact hkey b a heq ▸ hb
        · intro h
          exact List.mem_map_of_mem h
      rw [distinctBy, distinctBy]
      by_cases hseen : id a ∈ seen
      · rw [if_pos (hmem.mpr hseen), if_pos hseen, ih]
      · rw [if_neg fun h => hseen (hmem.mp h), if_neg hseen]
        exact congrArg (a :: ·) (ih (a :: seen))

/-- The appending loop adds the elements that were not seen. -/
theorem foldl_insert_new_eq {xs seen seen' : List α} (h : ∀ a, a ∈ seen ↔ a ∈ seen') :
    xs.foldl insertNew seen = seen ++ distinctBy id seen' xs := by
  induction xs generalizing seen seen' with
  | nil => simp [distinctBy]
  | cons a rest ih =>
      rw [List.foldl_cons, distinctBy, insertNew, id_eq]
      by_cases hseen : a ∈ seen
      · rw [if_pos hseen, if_pos ((h a).mp hseen), ih h]
      · have hboth : ∀ b, b ∈ seen ++ [a] ↔ b ∈ a :: seen' := by
          intro b
          rw [List.mem_append, List.mem_singleton, List.mem_cons, h b, or_comm]
        rw [if_neg hseen, if_neg fun hmem => hseen ((h a).mpr hmem), ih hboth, List.append_assoc,
          List.singleton_append]

theorem first_seen_eq (xs : List α) : firstSeen xs = distinctBy id [] xs :=
  foldl_insert_new_eq fun _ => Iff.rfl

end

end Sequence
