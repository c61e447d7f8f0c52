import Mathlib.Data.List.Basic

/-!
# Reading a command line

A command line is a list of texts. An option that takes a value is read together with the text
behind it, whatever that text is; every other text is read on its own. A loop that looks at the
texts one after the other is a fold over the arguments (`loop_eq_fold`).
-/

namespace CommandLine

variable {τ σ χ : Type}

/-- What is read together: an option and its value, which is missing at the end of the command
line, or one text. -/
inductive Argument (τ : Type) where
  | option (name : τ) (value : Option τ)
  | word (text : τ)

/-- The value of an option. -/
def Argument.value : Argument τ → Option τ
  | .option _ value => value
  | .word _ => none

def Argument.text : Argument τ → Option τ
  | .option _ _ => none
  | .word text => some text

variable (takesValue : τ → Bool)

/-- The arguments of a command line. -/
def arguments : List τ → List (Argument τ)
  | [] => []
  | [text] => if takesValue text then [.option text none] else [.word text]
  | text :: next :: rest =>
      if takesValue text then .option text (some next) :: arguments rest
      else .word text :: arguments (next :: rest)

variable {takesValue}

/-- A loop over the texts that handles one argument in each round handles the arguments. -/
theorem loop_eq_fold {loop : σ → List τ → Except χ σ} {step : σ → Argument τ → Except χ σ}
    (hdone : ∀ state, loop state [] = .ok state)
    (hmissing : ∀ state name, takesValue name = true →
      loop state [name] = step state (.option name none))
    (hoption : ∀ state name value rest, takesValue name = true →
      loop state (name :: value :: rest) =
        step state (.option name (some value)) >>= fun state => loop state rest)
    (hword : ∀ state text rest, takesValue text = false →
      loop state (text :: rest) = step state (.word text) >>= fun state => loop state rest)
    (state : σ) (texts : List τ) :
    loop state texts = (arguments takesValue texts).foldlM step state := by
  fun_induction arguments takesValue texts generalizing state with
  | case1 => exact hdone state
  | case2 text htakes =>
      rw [hmissing state text htakes, List.foldlM_cons]
      cases step state (.option text none) <;> rfl
  | case3 text htakes =>
      rw [hword state text [] (Bool.eq_false_iff.mpr htakes), List.foldlM_cons]
      exact congrArg _ (funext hdone)
  | case4 text next rest htakes ih =>
      rw [hoption state text next rest htakes, List.foldlM_cons]
      exact congrArg _ (funext ih)
  | case5 text next rest htakes ih =>
      rw [hword state text (next :: rest) (Bool.eq_false_iff.mpr htakes), List.foldlM_cons]
      exact congrArg _ (funext ih)

/-- A fold fails at the first element that its state does not take. -/
theorem fold_error_iff {α : Type} {step : σ → α → Except χ σ} {state : σ} {elements : List α}
    {error : χ} :
    elements.foldlM step state = .error error ↔
      ∃ before element after next, elements = before ++ element :: after ∧
        before.foldlM step state = .ok next ∧ step next element = .error error := by
  induction elements generalizing state with
  | nil =>
      constructor
      · intro h
        cases h
      · rintro ⟨before, element, after, next, hsplit, -⟩
        simp at hsplit
  | cons element elements ih =>
      rw [List.foldlM_cons]
      cases h : step state element with
      | error other =>
          constructor
          · intro hother
            exact ⟨[], element, elements, state, rfl, rfl, h.trans hother⟩
          · rintro ⟨before, failing, after, next, hsplit, hbefore, hfailing⟩
            cases before with
            | nil =>
                cases hsplit
                cases hbefore
                exact h.symm.trans hfailing
            | cons first before =>
                cases hsplit
                rw [List.foldlM_cons, h] at hbefore
                cases hbefore
      | ok taken =>
          refine ih.trans ?_
          constructor
          · rintro ⟨before, failing, after, next, rfl, hbefore, hfailing⟩
            refine ⟨element :: before, failing, after, next, rfl, ?_, hfailing⟩
            rw [List.foldlM_cons, h]
            exact hbefore
          · rintro ⟨before, failing, after, next, hsplit, hbefore, hfailing⟩
            cases before with
            | nil =>
                cases hsplit
                cases hbefore
                rw [h] at hfailing
                cases hfailing
            | cons first before =>
                cases hsplit
                rw [List.foldlM_cons, h] at hbefore
                exact ⟨before, failing, after, next, rfl, hbefore, hfailing⟩

end CommandLine
