import Chatroom.AtomicProgram
import Mathlib.Data.List.Infix

/-!
# Interleaved runs of atomic programs

Any number of tasks run side by side on one state. Each is an `AtomicProgram`,
and the unit of interleaving is one operation: between two operations of a task
any other task may have performed any number of its own. `AtomicSystem.Run`
generates these runs, together with their history – which tasks began, and
which operations were performed by whom and with what answer.

## Discipline

What holds of all interleavings is proved without looking at two tasks at once.
A `Discipline` fixes an invariant of the state that may speak of the history,
the operations a task is allowed to perform after a history, and what is learnt
from an answer. A task keeps the discipline (`Discipline.Safe`) if each of its
operations is allowed whenever it may come to be performed, that is, after
*every* later history; this is checked along the program of that task alone.
`Discipline.run_allowed` is the result: if all tasks keep the discipline, every operation
performed in a run was allowed at that moment.

`Safe` follows the monad: `safe_bind`, `safe_perform` and `safe_forEach` are the
rules a program is taken apart by.

## Running alone

`Run.solo` is the other end. A task that is not interrupted does what its
sequential reading says, so that a sequential run is one of the interleavings.
-/

/-- **A step of an interleaved run**, as the history records it: a task begins,
or one of its operations is performed and answered. -/
inductive AtomicAction {ω : Type} (ρ : ω → Type) (τ : Type) : Type where
  | begin (t : τ)
  | perform (t : τ) (o : ω) (answer : ρ o)

/-- A task that is under way, and what it still has to do. -/
structure Thread {ω : Type} (ρ : ω → Type) (ε τ : Type) where
  task : τ
  program : AtomicProgram ρ ε Unit

/-- **A system of tasks over one state**: what each task does, and what an
operation may answer and do. -/
structure AtomicSystem {ω : Type} (ρ : ω → Type) (ε τ σ : Type) where
  body : τ → AtomicProgram ρ ε Unit
  happens : (o : ω) → σ → ρ o → σ → Prop

namespace AtomicSystem

variable {ω : Type} {ρ : ω → Type} {ε τ σ α β : Type}

/-- **The interleaved runs** from a state: a task may begin at any time, and any
task that is under way may be the next to perform an operation. -/
inductive Run (S : AtomicSystem ρ ε τ σ) (s₀ : σ) :
    List (AtomicAction ρ τ) → List (Thread ρ ε τ) → σ → Prop
  | start : Run S s₀ [] [] s₀
  | begin {h : List (AtomicAction ρ τ)} {ts : List (Thread ρ ε τ)} {s : σ} (t : τ)
      (run : Run S s₀ h ts s) : Run S s₀ (h ++ [.begin t]) (⟨t, S.body t⟩ :: ts) s
  | perform {h : List (AtomicAction ρ τ)} {before later : List (Thread ρ ε τ)} {s s' : σ}
      {t : τ} {o : ω} {k : ρ o → AtomicProgram ρ ε Unit} {answer : ρ o}
      (run : Run S s₀ h (before ++ ⟨t, .call o k⟩ :: later) s)
      (happens : S.happens o s answer s') :
      Run S s₀ (h ++ [.perform t o answer]) (before ++ ⟨t, k answer⟩ :: later) s'

/-- **Whatever a run has come through** is a run. -/
theorem Run.of_prefix {S : AtomicSystem ρ ε τ σ} {s₀ s : σ} {h pre : List (AtomicAction ρ τ)}
    {ts : List (Thread ρ ε τ)} (run : Run S s₀ h ts s) (hpre : pre <+: h) :
    ∃ ts' s', Run S s₀ pre ts' s' := by
  induction run with
  | start =>
    rw [List.prefix_nil.mp hpre]
    exact ⟨_, _, .start⟩
  | begin t run ih =>
    obtain rfl | hpre := List.prefix_concat_iff.mp hpre
    · exact ⟨_, _, run.begin t⟩
    · exact ih hpre
  | perform run happens ih =>
    obtain rfl | hpre := List.prefix_concat_iff.mp hpre
    · exact ⟨_, _, run.perform happens⟩
    · exact ih hpre

/-- **A discipline for the tasks of a system.** -/
structure Discipline (S : AtomicSystem ρ ε τ σ) where
  /-- What holds of the state after a history. -/
  Inv : List (AtomicAction ρ τ) → σ → Prop
  /-- The operations a task may perform after a history. -/
  Allowed : τ → List (AtomicAction ρ τ) → ω → Prop
  /-- What is known after a history in which an operation was answered. -/
  Learnt : (o : ω) → ρ o → List (AtomicAction ρ τ) → Prop
  inv_begin : ∀ {h s} t, Inv h s → Inv (h ++ [.begin t]) s
  inv_perform : ∀ {h s t o answer s'}, Inv h s → Allowed t h o →
    S.happens o s answer s' → Inv (h ++ [.perform t o answer]) s'
  learnt : ∀ {h s o answer s'}, Inv h s → S.happens o s answer s' → Learnt o answer h
  learnt_mono : ∀ {o answer h h'}, h <+: h' → Learnt o answer h → Learnt o answer h'

namespace Discipline

variable {S : AtomicSystem ρ ε τ σ} (D : Discipline S) (t : τ)

/-- **A program keeps the discipline after a history**: whatever happens before
its next operation, the operation is allowed, and whatever it is answered, the
rest keeps the discipline. `Q` is what is known when it returns. -/
def Safe : AtomicProgram ρ ε α → List (AtomicAction ρ τ) →
    (α → List (AtomicAction ρ τ) → Prop) → Prop
  | .ret a, h, Q => Q a h
  | .raise _, _, _ => True
  | .call o k, h, Q => ∀ h', h <+: h' → D.Allowed t h' o
      ∧ ∀ answer, D.Learnt o answer h' → Safe (k answer) (h' ++ [.perform t o answer]) Q

/-- A task keeps the discipline from its beginning. -/
def SafeTask : Prop := ∀ h, D.Safe t (S.body t) (h ++ [.begin t]) (fun _ _ => True)

variable {D t} {h h' : List (AtomicAction ρ τ)} {Q : α → List (AtomicAction ρ τ) → Prop}
  {p : AtomicProgram ρ ε α}

/-- What keeps the discipline after a history keeps it after a later one. -/
theorem safe_mono (hh : h <+: h') (hQ : ∀ a, Q a h → Q a h') (hp : D.Safe t p h Q) :
    D.Safe t p h' Q := by
  cases p with
  | ret a => exact hQ a hp
  | raise e => trivial
  | call o k => exact fun h'' hh' => hp h'' (hh.trans hh')

/-- The conclusion may be weakened. -/
theorem safe_weaken {Q' : α → List (AtomicAction ρ τ) → Prop} (hp : D.Safe t p h Q)
    (hQ : ∀ a h', h <+: h' → Q a h' → Q' a h') : D.Safe t p h Q' := by
  induction p generalizing h with
  | ret a => exact hQ a h (List.prefix_refl h) hp
  | raise e => trivial
  | call o k ih =>
    intro h' hh
    obtain ⟨hallowed, hnext⟩ := hp h' hh
    refine ⟨hallowed, fun answer hl =>
      ih answer (hnext answer hl) (fun a h'' hh' => hQ a h'' ?_)⟩
    exact hh.trans ((List.prefix_append _ _).trans hh')

/-- **A sequence** keeps the discipline if its first part does, and its second
part does wherever the first may have got to. -/
theorem safe_bind {f : α → AtomicProgram ρ ε β} {R : β → List (AtomicAction ρ τ) → Prop}
    (hp : D.Safe t p h Q) (hf : ∀ a h', h <+: h' → Q a h' → D.Safe t (f a) h' R) :
    D.Safe t (p >>= f) h R := by
  induction p generalizing h with
  | ret a => exact hf a h (List.prefix_refl h) hp
  | raise e => trivial
  | call o k ih =>
    intro h' hh
    obtain ⟨hallowed, hnext⟩ := hp h' hh
    refine ⟨hallowed, fun answer hl =>
      ih answer (hnext answer hl) (fun a h'' hh' => hf a h'' ?_)⟩
    exact hh.trans ((List.prefix_append _ _).trans hh')

/-- **One operation** keeps the discipline if it is allowed from here on, and
what its answer says is known afterwards. -/
theorem safe_perform {o : ω} (hallowed : ∀ h', h <+: h' → D.Allowed t h' o) :
    D.Safe t (AtomicProgram.perform o : AtomicProgram ρ ε (ρ o)) h (D.Learnt o) :=
  fun h' hh => ⟨hallowed h' hh, fun _ hl => D.learnt_mono (List.prefix_append _ _) hl⟩

/-- **A loop** keeps the discipline if its body does for each element, at any
later time. -/
theorem safe_forEach {bs : List β} {body : β → AtomicProgram ρ ε Unit}
    (hbody : ∀ b ∈ bs, ∀ h', h <+: h' → D.Safe t (body b) h' (fun _ _ => True)) :
    D.Safe t (AtomicProgram.forEach bs body) h (fun _ _ => True) := by
  induction bs generalizing h with
  | nil => trivial
  | cons b bs ih =>
    refine safe_bind (hbody b List.mem_cons_self h (List.prefix_refl h)) (fun _ h' hh _ => ih ?_)
    exact fun b' hb' h'' hh' => hbody b' (List.mem_cons_of_mem b hb') h'' (hh.trans hh')

/-! ## Runs keep the discipline -/

variable {s₀ s : σ} {ts : List (Thread ρ ε τ)}

/-- Where the tasks keep the discipline, the invariant holds after every run,
what is left of each task is safe, and every operation was allowed. -/
theorem run_inv (htasks : ∀ t, D.SafeTask t) (h₀ : D.Inv [] s₀) (run : Run S s₀ h ts s) :
    D.Inv h s ∧ (∀ th ∈ ts, D.Safe th.task th.program h (fun _ _ => True))
      ∧ ∀ pre t o answer, pre ++ [.perform t o answer] <+: h → D.Allowed t pre o := by
  induction run with
  | start => exact ⟨h₀, by simp, fun pre t o answer hpre => by simp at hpre⟩
  | @begin h ts s t run ih =>
    obtain ⟨hinv, hsafe, hallowed⟩ := ih
    refine ⟨D.inv_begin t hinv, fun th hth => ?_, fun pre t' o answer hpre => ?_⟩
    · obtain rfl | hth := List.mem_cons.mp hth
      · exact htasks t h
      · exact safe_mono (List.prefix_append _ _) (fun _ _ => trivial) (hsafe th hth)
    · obtain hlast | hpre := List.prefix_concat_iff.mp hpre
      · exact absurd (List.append_inj' hlast rfl).2 (by simp)
      · exact hallowed pre t' o answer hpre
  | @perform h before later s s' t o k answer run hhappens ih =>
    obtain ⟨hinv, hsafe, hallowed⟩ := ih
    have hcall : D.Safe t (.call o k) h (fun _ _ => True) := hsafe ⟨t, .call o k⟩ (by simp)
    obtain ⟨hnow, hnext⟩ := hcall h (List.prefix_refl h)
    refine ⟨D.inv_perform hinv hnow hhappens, fun th hth => ?_, fun pre t' o' answer' hpre => ?_⟩
    · obtain hth | hth := List.mem_append.mp hth
      · exact safe_mono (List.prefix_append _ _) (fun _ _ => trivial)
          (hsafe th (List.mem_append_left _ hth))
      · obtain rfl | hth := List.mem_cons.mp hth
        · exact hnext answer (D.learnt hinv hhappens)
        · exact safe_mono (List.prefix_append _ _) (fun _ _ => trivial)
            (hsafe th (by simp [hth]))
    · obtain hlast | hpre := List.prefix_concat_iff.mp hpre
      · obtain ⟨rfl, he⟩ := List.append_inj' hlast rfl
        cases he
        exact hnow
      · exact hallowed pre t' o' answer' hpre

/-- **Every operation of a run was allowed when it was performed**, if all tasks
keep the discipline. -/
theorem run_allowed (htasks : ∀ t, D.SafeTask t) (h₀ : D.Inv [] s₀) (run : Run S s₀ h ts s)
    {pre : List (AtomicAction ρ τ)} {o : ω} {answer : ρ o}
    (hpre : pre ++ [.perform t o answer] <+: h) : D.Allowed t pre o :=
  (run_inv htasks h₀ run).2.2 pre t o answer hpre

end Discipline

/-! ## Running alone -/

variable (exec : (o : ω) → σ → ρ o × σ)

/-- The operations of a program that runs alone. -/
def trace (t : τ) : AtomicProgram ρ ε α → σ → List (AtomicAction ρ τ)
  | .ret _, _ | .raise _, _ => []
  | .call o k, s => .perform t o (exec o s).1 :: trace t (k (exec o s).1) (exec o s).2

/-- **A task that is not interrupted does what its sequential reading says.** -/
theorem Run.solo {S : AtomicSystem ρ ε τ σ}
    (hexec : ∀ o s, S.happens o s (exec o s).1 (exec o s).2)
    {s₀ s : σ} {h : List (AtomicAction ρ τ)} {ts : List (Thread ρ ε τ)} {t : τ}
    {p : AtomicProgram ρ ε Unit} (run : Run S s₀ h (⟨t, p⟩ :: ts) s) :
    Run S s₀ (h ++ trace exec t p s)
      (⟨t, .finished (p.run exec s).1⟩ :: ts) (p.run exec s).2 := by
  induction p generalizing h s with
  | ret a =>
    rw [trace, List.append_nil]
    exact run
  | raise e =>
    rw [trace, List.append_nil]
    exact run
  | call o k ih =>
    have hnext := Run.perform (show Run S s₀ h ([] ++ ⟨t, .call o k⟩ :: ts) s from run)
      (hexec o s)
    have hrest := ih (exec o s).1 hnext
    rw [List.append_assoc] at hrest
    exact hrest

/-- **A task that is not interrupted for the first part of a sequence** goes on with
the second from where the first returned. -/
theorem Run.solo_bind {S : AtomicSystem ρ ε τ σ}
    (hexec : ∀ o s, S.happens o s (exec o s).1 (exec o s).2)
    {s₀ s s' : σ} {h : List (AtomicAction ρ τ)} {before later : List (Thread ρ ε τ)} {t : τ}
    {p : AtomicProgram ρ ε α} {f : α → AtomicProgram ρ ε Unit} {a : α}
    (run : Run S s₀ h (before ++ ⟨t, p >>= f⟩ :: later) s) (hp : p.run exec s = (.ok a, s')) :
    Run S s₀ (h ++ trace exec t p s) (before ++ ⟨t, f a⟩ :: later) s' := by
  induction p generalizing h s with
  | ret b =>
    cases hp
    rw [trace, List.append_nil]
    exact run
  | raise e => cases hp
  | call o k ih =>
    have hnext : Run S s₀ (h ++ [.perform t o (exec o s).1])
        (before ++ ⟨t, k (exec o s).1 >>= f⟩ :: later) (exec o s).2 := run.perform (hexec o s)
    have hrest := ih (exec o s).1 hnext hp
    rw [List.append_assoc] at hrest
    exact hrest

end AtomicSystem
