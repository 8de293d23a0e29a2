import Mathlib.Data.List.Infix

/-!
# Step machines

A component that answers one call after another, keeping a state in between:
the step function takes the state and a call to the answer and the next state.
`StepMachine.run` makes a list of calls and collects the answers.
-/

/-- **A step machine**: calls `α`, answers `β`, states `σ`. -/
abbrev StepMachine (α β σ : Type*) : Type _ := σ → α → β × σ

namespace StepMachine

variable {α β σ : Type*} (M : StepMachine α β σ) (s : σ)

/-- The answers to a list of calls, and the state after them. -/
def run (es : List α) : List β × σ :=
  es.foldl (fun p a => (p.1 ++ [(M p.2 a).1], (M p.2 a).2)) ([], s)

/-- The state after a list of calls. -/
def after (es : List α) : σ := (M.run s es).2

/-- The answers to a list of calls. -/
def answers (es : List α) : List β := (M.run s es).1

@[simp] theorem after_nil : M.after s [] = s := rfl

@[simp] theorem answers_nil : M.answers s [] = [] := rfl

variable (es : List α) (a : α)

@[simp] theorem after_snoc : M.after s (es ++ [a]) = (M (M.after s es) a).2 := by
  simp [after, run]

@[simp] theorem answers_snoc :
    M.answers s (es ++ [a]) = M.answers s es ++ [(M (M.after s es) a).1] := by
  simp [after, answers, run]

/-- Each call is answered. -/
theorem length_answers (es : List α) : (M.answers s es).length = es.length := by
  induction es using List.reverseRecOn with
  | nil => rfl
  | append_singleton es a ih =>
    rw [answers_snoc, List.length_append, List.length_append, ih, List.length_singleton,
      List.length_singleton]

/-- The answers to the first calls are the first answers. -/
theorem answers_prefix {pre es : List α} (h : pre <+: es) :
    M.answers s pre <+: M.answers s es := by
  obtain ⟨t, rfl⟩ := h
  induction t using List.reverseRecOn with
  | nil => rw [List.append_nil]
  | append_singleton t a ih =>
    rw [← List.append_assoc, answers_snoc]
    exact ih.trans (List.prefix_append _ _)

end StepMachine
