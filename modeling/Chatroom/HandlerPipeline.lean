import Mathlib.Data.List.Basic

/-!
# Pipelines of handlers

A pipeline is a list of handlers that share a state. An event enters at the
front, each handler fires what it wants the later ones to get, and what the last
one fires is dropped. A handler that throws is told of its own exception first,
by the event that stands for exceptions, and may fire that on; the handlers
before it never learn of it. An exception thrown while one is told is dropped.

`propagate` is that walk. The lemmas under it take the first handler off: it may
pass on whatever it gets (`propagate_cons_passOn`), throw or not
(`propagate_cons_of_threw`, `propagate_cons_of_not_threw`), or be the last one as
well (`propagate_last`).
-/

variable {σ ι : Type*}

/-- **What a handler makes of an event**: the state it leaves, what it fires, and
whether it throws in the end. -/
structure Handled (σ ι : Type*) where
  state : σ
  fired : List ι
  threw : Bool

/-- A handler, as the function from an event and the state to what it makes of them. -/
abbrev Handler (σ ι : Type*) : Type _ := ι → σ → Handled σ ι

/-- The handler that passes every event on and does nothing. -/
def Handler.passOn : Handler σ ι := fun ev s => ⟨s, [ev], false⟩

variable [DecidableEq ι] (exceptionCaught : ι)

/-- **An event goes along the pipeline.** -/
def propagate : List (Handler σ ι) → ι → σ → σ
  | [], _, s => s
  | h :: later, ev, s =>
    let r := h ev s
    let s' := r.fired.foldl (fun s ev => propagate later ev s) r.state
    if r.threw ∧ ev ≠ exceptionCaught then
      let r' := h exceptionCaught s'
      r'.fired.foldl (fun s ev => propagate later ev s) r'.state
    else s'

section Propagate

variable {exceptionCaught} {h : Handler σ ι} {later : List (Handler σ ι)} {ev : ι} {s : σ}

@[simp] theorem propagate_nil :
    propagate exceptionCaught ([] : List (Handler σ ι)) ev s = s := rfl

/-- What the last handler fires is lost. -/
theorem foldl_propagate_nil (evs : List ι) :
    evs.foldl (fun s ev => propagate exceptionCaught ([] : List (Handler σ ι)) ev s) s = s := by
  induction evs generalizing s with
  | nil => rfl
  | cons ev evs ih => exact ih

/-- **A handler that passes on what it gets drops out.** -/
@[simp] theorem propagate_cons_passOn :
    propagate exceptionCaught (Handler.passOn :: later) ev s
      = propagate exceptionCaught later ev s := by
  simp [propagate, Handler.passOn]

/-- A handler that does not throw. -/
theorem propagate_cons_of_not_threw (h' : (h ev s).threw = false) :
    propagate exceptionCaught (h :: later) ev s
      = (h ev s).fired.foldl (fun s ev => propagate exceptionCaught later ev s)
          (h ev s).state := by
  show (if ((h ev s).threw = true ∧ ev ≠ exceptionCaught) then _ else _) = _
  rw [h', if_neg (fun h => Bool.false_ne_true h.1)]

/-- A handler that throws is told of its exception. -/
theorem propagate_cons_of_threw (h' : (h ev s).threw = true) (hev : ev ≠ exceptionCaught) :
    propagate exceptionCaught (h :: later) ev s
      = (h exceptionCaught ((h ev s).fired.foldl
            (fun s ev => propagate exceptionCaught later ev s) (h ev s).state)).fired.foldl
          (fun s ev => propagate exceptionCaught later ev s)
          (h exceptionCaught ((h ev s).fired.foldl
            (fun s ev => propagate exceptionCaught later ev s) (h ev s).state)).state := by
  show (if ((h ev s).threw = true ∧ ev ≠ exceptionCaught) then _ else _) = _
  rw [if_pos ⟨h', hev⟩]

/-- **At the last handler** an event ends, and an exception of it as well. -/
theorem propagate_last :
    propagate exceptionCaught [h] ev s
      = if (h ev s).threw = true ∧ ev ≠ exceptionCaught then
          (h exceptionCaught (h ev s).state).state
        else (h ev s).state := by
  show (if ((h ev s).threw = true ∧ ev ≠ exceptionCaught) then _ else _) = _
  rw [foldl_propagate_nil, foldl_propagate_nil]

end Propagate
