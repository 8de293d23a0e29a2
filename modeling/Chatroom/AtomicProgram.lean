/-!
# Programs over atomic operations

A handler that works on shared data is a sequence of operations on it, each
atomic by itself, with the handler's own control flow in between. What it
computes depends on who else is running: alone, each operation finds the data
as the previous one left it; among other threads, anything may have happened
since.

`AtomicProgram` is the handler with that choice left open. It is the tree of
the operations a handler performs, branching on what each of them answers, and
ending in a result or in an exception. `AtomicProgram.run` reads the tree as a
sequential function, given what an operation does to the state. The
interleaved reading of the same tree is `AtomicSystem.Run`.

The monad instance lets a handler be written as its source is, operation by
operation, and `run_bind` with its companions evaluates what was so written.
-/

/-- **A program over atomic operations.** `ρ o` is the type of the answer to
the operation `o`; `ε` is the type of the exceptions. -/
inductive AtomicProgram {ω : Type} (ρ : ω → Type) (ε α : Type) : Type where
  /-- Return a result. -/
  | ret : α → AtomicProgram ρ ε α
  /-- Raise an exception. -/
  | raise : ε → AtomicProgram ρ ε α
  /-- Perform an operation, and go on with its answer. -/
  | call : (o : ω) → (ρ o → AtomicProgram ρ ε α) → AtomicProgram ρ ε α

namespace AtomicProgram

variable {ω : Type} {ρ : ω → Type} {ε α β σ : Type}

/-- Go on with the result of a program; an exception stops both. -/
def bind : AtomicProgram ρ ε α → (α → AtomicProgram ρ ε β) → AtomicProgram ρ ε β
  | ret a, f => f a
  | raise e, _ => raise e
  | call o k, f => call o (fun r => (k r).bind f)

instance : Monad (AtomicProgram ρ ε) where
  pure := ret
  bind := bind

/-- The program that performs one operation and returns its answer. -/
def perform (o : ω) : AtomicProgram ρ ε (ρ o) := call o ret

/-- The program that is over, with a result or with an exception. -/
def finished : Except ε α → AtomicProgram ρ ε α
  | .ok a => ret a
  | .error e => raise e

/-- The program that does the same for each element of a list, in order. -/
def forEach : List β → (β → AtomicProgram ρ ε Unit) → AtomicProgram ρ ε Unit
  | [], _ => pure ()
  | b :: bs, body => do
      body b
      forEach bs body

/-- Run a program, and go on with its exception if it raises one. -/
def tryCatch : AtomicProgram ρ ε α → (ε → AtomicProgram ρ ε α) → AtomicProgram ρ ε α
  | ret a, _ => ret a
  | raise e, f => f e
  | call o k, f => call o (fun r => (k r).tryCatch f)

@[simp] theorem bind_of_pure (a : α) (f : α → AtomicProgram ρ ε β) :
    (pure a >>= f) = f a := rfl

@[simp] theorem bind_of_raise (e : ε) (f : α → AtomicProgram ρ ε β) :
    (raise e >>= f) = raise e := rfl

/-! ## The sequential reading -/

variable (exec : (o : ω) → σ → ρ o × σ)

/-- **The sequential reading**: the result or the exception, and the state in
which the program ends. `exec` says what an operation answers and how it
changes the state. The state an exception leaves is the one reached when it is
raised. -/
def run : AtomicProgram ρ ε α → σ → Except ε α × σ
  | ret a, s => (.ok a, s)
  | raise e, s => (.error e, s)
  | call o k, s => (k (exec o s).1).run (exec o s).2

@[simp] theorem run_pure (a : α) (s : σ) :
    (pure a : AtomicProgram ρ ε α).run exec s = (.ok a, s) := rfl

@[simp] theorem run_raise (e : ε) (s : σ) :
    (raise e : AtomicProgram ρ ε α).run exec s = (.error e, s) := rfl

@[simp] theorem run_perform (o : ω) (s : σ) :
    (perform o : AtomicProgram ρ ε (ρ o)).run exec s
      = (.ok (exec o s).1, (exec o s).2) := rfl

/-- What follows a program's first part: the rest if it returned, nothing if
it raised an exception. -/
def andThen : Except ε α × σ → (α → σ → Except ε β × σ) → Except ε β × σ
  | (.ok a, s), f => f a s
  | (.error e, s), _ => (.error e, s)

@[simp] theorem andThen_ok (a : α) (s : σ) (f : α → σ → Except ε β × σ) :
    andThen (.ok a, s) f = f a s := rfl

@[simp] theorem andThen_error (e : ε) (s : σ) (f : α → σ → Except ε β × σ) :
    andThen (.error e, s) f = (.error e, s) := rfl

/-- **A sequence runs its first part, then its second** – unless the first
raised an exception. -/
@[simp] theorem run_bind (p : AtomicProgram ρ ε α) (f : α → AtomicProgram ρ ε β)
    (s : σ) :
    (p >>= f).run exec s = andThen (p.run exec s) (fun a => (f a).run exec) := by
  induction p generalizing s with
  | ret a => rfl
  | raise e => rfl
  | call o k ih => exact ih (exec o s).1 (exec o s).2

@[simp] theorem run_forEach_nil (body : β → AtomicProgram ρ ε Unit) (s : σ) :
    (forEach [] body).run exec s = (.ok (), s) := rfl

/-- A loop runs its body on the first element, then goes on with the rest. -/
theorem run_forEach_cons (body : β → AtomicProgram ρ ε Unit) (b : β)
    (bs : List β) (s : σ) :
    (forEach (b :: bs) body).run exec s
      = andThen ((body b).run exec s) (fun _ => (forEach bs body).run exec) :=
  run_bind exec (body b) (fun _ => forEach bs body) s

/-- **A guarded program** ends as it would alone, or goes on with its exception from
the state in which that was raised. -/
theorem run_tryCatch (p : AtomicProgram ρ ε α) (f : ε → AtomicProgram ρ ε α) (s : σ) :
    (p.tryCatch f).run exec s
      = match p.run exec s with
        | (.ok a, s') => (.ok a, s')
        | (.error e, s') => (f e).run exec s' := by
  induction p generalizing s with
  | ret a => rfl
  | raise e => rfl
  | call o k ih => exact ih (exec o s).1 (exec o s).2

end AtomicProgram
