import Chatroom.Interleaving
import Chatroom.PrefixInduction
import Mathlib.Data.List.Nodup

/-!
# What one task did, and what it did to the state

The history of an interleaved run mixes the operations of all its tasks. Two
readings of it take a run apart again.

* `ownOps t h` are the operations of one task with their answers. Where the task
  does not begin twice, they are the way it has come through its program, so that
  what is said about a program along its own operations (`Keeps`) holds of the
  task in every run (`Run.step_of_keeps`, `Run.over_of_keeps`), whoever else is
  running. Unlike a `Discipline`, `Keeps` may say that a task has *not yet* done
  something, since nobody else can do it in its place. Where it says no such
  thing, the task may also begin several times (`Run.step_of_keeps_of_mono`).
  Which of its threads did what is told by a `TracedRun`: every run can be told that
  way, and `TracedRun.over_of_keeps` is about each thread for itself.
* `replay` makes the operations of a history one after the other. Where what an
  operation does depends on the state alone, the state of a run is the replay of
  its history, and each answer was given in the replay of what came before.

`keeps_bind`, `keeps_perform` and `keeps_forEach` are the rules a program is
taken apart by; the rule for a loop carries an invariant that may speak of the
elements gone through.

`play` runs tasks by a given schedule, to look at a single run.
-/

namespace AtomicSystem

variable {ω : Type} {ρ : ω → Type} {ε τ σ α β : Type}

/-- Operations and their answers, in order. -/
abbrev Deeds (ρ : ω → Type) : Type := List (Σ o : ω, ρ o)

/-! ## The tasks of a history -/

/-- The task that begins in a step, if one does. -/
def begun : AtomicAction ρ τ → Option τ
  | .begin t => some t
  | .perform _ _ _ => none

/-- The tasks that begin in a history, in order. -/
def begins (h : List (AtomicAction ρ τ)) : List τ := h.filterMap begun

/-- A task that runs alone begins no other. -/
theorem begins_trace (exec : (o : ω) → σ → ρ o × σ) (t : τ) (p : AtomicProgram ρ ε α) (s : σ) :
    begins (trace exec t p s) = [] := by
  induction p generalizing s with
  | ret a => rfl
  | raise e => rfl
  | call o k ih => exact ih (exec o s).1 (exec o s).2

section OwnOps

variable [DecidableEq τ]

/-- What a task did in a step, if it did anything. -/
def ownOp (t : τ) : AtomicAction ρ τ → Option (Σ o : ω, ρ o)
  | .begin _ => none
  | .perform t' o a => if t' = t then some ⟨o, a⟩ else none

/-- **The operations of one task**, with their answers. -/
def ownOps (t : τ) (h : List (AtomicAction ρ τ)) : Deeds ρ := h.filterMap (ownOp t)

/-- Only a step of a task is something it did. -/
theorem ownOp_eq_some_iff {t : τ} {act : AtomicAction ρ τ} {x : Σ o : ω, ρ o} :
    ownOp t act = some x ↔ act = .perform t x.1 x.2 := by
  cases act with
  | begin t' => simp [ownOp]
  | perform t' o a =>
    show (if t' = t then some (Sigma.mk o a) else none) = some x ↔ _
    by_cases ht : t' = t
    · subst ht
      obtain ⟨o', a'⟩ := x
      simp
    · simp [ht]

variable (t t' : τ) (h : List (AtomicAction ρ τ)) (o : ω) (a : ρ o)

@[simp] theorem ownOps_nil : ownOps t ([] : List (AtomicAction ρ τ)) = [] := rfl

@[simp] theorem ownOps_begin : ownOps t (h ++ [.begin t']) = ownOps t h := by
  simp [ownOps, ownOp]

@[simp] theorem ownOps_perform_self :
    ownOps t (h ++ [.perform t o a]) = ownOps t h ++ [⟨o, a⟩] := by
  simp [ownOps, ownOp]

theorem ownOps_perform_of_ne (hne : t' ≠ t) :
    ownOps t (h ++ [.perform t' o a]) = ownOps t h := by
  simp [ownOps, ownOp, hne]

variable {t h o a}

/-- A task did what the history says it did. -/
theorem mem_ownOps {x : Σ o : ω, ρ o} : x ∈ ownOps t h ↔ .perform t x.1 x.2 ∈ h := by
  simp only [ownOps, List.mem_filterMap, ownOp_eq_some_iff, exists_eq_right]

/-- What a task had done before is the beginning of what it has done. -/
theorem ownOps_mono {h' : List (AtomicAction ρ τ)} (hh : h <+: h') :
    ownOps t h <+: ownOps t h' := by
  obtain ⟨later, rfl⟩ := hh
  rw [ownOps, ownOps, List.filterMap_append]
  exact List.prefix_append _ _

/-- **An operation of a task stands in the history** after all that the task had
done before. -/
theorem exists_of_ownOps_eq {d d' : Deeds ρ} (hd : ownOps t h = d ++ ⟨o, a⟩ :: d') :
    ∃ pre, pre ++ [.perform t o a] <+: h ∧ ownOps t pre = d := by
  obtain ⟨h₁, h₂, rfl, hpre, hrest⟩ := List.filterMap_eq_append_iff.mp hd
  obtain ⟨skip, act, h₃, rfl, hskip, hact, -⟩ := List.filterMap_eq_cons_iff.mp hrest
  obtain rfl : act = .perform t o a := ownOp_eq_some_iff.mp hact
  refine ⟨h₁ ++ skip, ⟨h₃, by simp⟩, ?_⟩
  rw [ownOps, List.filterMap_append, hpre, List.filterMap_eq_nil_iff.mpr hskip, List.append_nil]

end OwnOps

/-! ## Programs along their own operations -/

/-- The program is over: it has returned, or raised an exception. -/
def IsOver : AtomicProgram ρ ε α → Prop
  | .ret _ | .raise _ => True
  | .call _ _ => False

instance (p : AtomicProgram ρ ε α) : Decidable (IsOver p) :=
  match p with
  | .ret _ | .raise _ => isTrue trivial
  | .call _ _ => isFalse id

/-- **What holds of a program along its own operations**: `Step` of each
operation and what was done before it, `Raises` of all that was done when an
exception is raised, and `Q` when the program returns. -/
def Keeps (Step : Deeds ρ → ω → Prop) (Raises : Deeds ρ → Prop) :
    AtomicProgram ρ ε α → Deeds ρ → (α → Deeds ρ → Prop) → Prop
  | .ret a, d, Q => Q a d
  | .raise _, d, _ => Raises d
  | .call o k, d, Q => Step d o ∧ ∀ a, Keeps Step Raises (k a) (d ++ [⟨o, a⟩]) Q

section Rules

variable {Step : Deeds ρ → ω → Prop} {Raises : Deeds ρ → Prop} {d : Deeds ρ}
  {Q : α → Deeds ρ → Prop}

/-- The conclusion may be weakened. -/
theorem keeps_weaken {p : AtomicProgram ρ ε α} {Q' : α → Deeds ρ → Prop}
    (hp : Keeps Step Raises p d Q) (hQ : ∀ a d', Q a d' → Q' a d') :
    Keeps Step Raises p d Q' := by
  induction p generalizing d with
  | ret a => exact hQ a d hp
  | raise e => exact hp
  | call o k ih => exact ⟨hp.1, fun a => ih a (hp.2 a)⟩

/-- **A sequence** is gone through from where its first part returns. -/
theorem keeps_bind {p : AtomicProgram ρ ε α} {f : α → AtomicProgram ρ ε β}
    {R : β → Deeds ρ → Prop} (hp : Keeps Step Raises p d Q)
    (hf : ∀ a d', Q a d' → Keeps Step Raises (f a) d' R) : Keeps Step Raises (p >>= f) d R := by
  induction p generalizing d with
  | ret a => exact hf a d hp
  | raise e => exact hp
  | call o k ih => exact ⟨hp.1, fun a => ih a (hp.2 a)⟩

/-- **One operation** adds itself, with its answer. -/
theorem keeps_perform {o : ω} (hstep : Step d o) :
    Keeps Step Raises (AtomicProgram.perform o : AtomicProgram ρ ε (ρ o)) d
      (fun a d' => d' = d ++ [⟨o, a⟩]) :=
  ⟨hstep, fun _ => rfl⟩

/-- **A loop** keeps an invariant that speaks of the elements gone through. -/
theorem keeps_forEach {bs : List β} {body : β → AtomicProgram ρ ε Unit}
    (I : List β → Deeds ρ → Prop)
    (hbody : ∀ pre b, pre ++ [b] <+: bs → ∀ d, I pre d →
      Keeps Step Raises (body b) d (fun _ => I (pre ++ [b])))
    (h₀ : I [] d) : Keeps Step Raises (AtomicProgram.forEach bs body) d (fun _ => I bs) := by
  induction bs generalizing d I with
  | nil => exact h₀
  | cons b bs ih =>
    refine keeps_bind (hbody [] b (by simp) d h₀) (fun _ d' hd' => ?_)
    refine ih (fun pre => I (b :: pre)) (fun pre b' hpre d hd => ?_) hd'
    exact hbody (b :: pre) b' ((List.prefix_cons_inj b).mpr hpre) d hd

end Rules

/-! ## The tasks of a run -/

section Runs

variable {S : AtomicSystem ρ ε τ σ} {s₀ s : σ} {h pre : List (AtomicAction ρ τ)}
  {ts : List (Thread ρ ε τ)} {t : τ} {o : ω} {a : ρ o}

/-- The tasks under way are those that began, the latest first. -/
theorem Run.map_task (run : Run S s₀ h ts s) : ts.map Thread.task = (begins h).reverse := by
  induction run with
  | start => rfl
  | @begin h ts s t run ih =>
    rw [List.map_cons, ih]
    simp [begins, begun]
  | @perform h before later s s' t o k answer run hhappens ih =>
    simp only [List.map_append, List.map_cons, begins] at ih ⊢
    simp [ih, begun]

/-- A task that did something began. -/
theorem Run.mem_begins (run : Run S s₀ h ts s) (hmem : .perform t o a ∈ h) : t ∈ begins h := by
  induction run with
  | start => exact absurd hmem List.not_mem_nil
  | @begin h ts s t' run ih =>
    have hold := ih (by simpa using hmem)
    rw [begins, List.filterMap_append]
    exact List.mem_append_left _ hold
  | @perform h before later s s' t' o' k answer run hhappens ih =>
    rw [begins, List.filterMap_append]
    refine List.mem_append_left _ ?_
    obtain hmem | hmem := List.mem_append.mp hmem
    · exact ih hmem
    · have htask := run.map_task
      have hin : t ∈ (before ++ ⟨t', .call o' k⟩ :: later).map Thread.task := by
        cases List.mem_singleton.mp hmem
        simp
      rw [htask, List.mem_reverse] at hin
      exact hin

/-- A task that performs an operation began before. -/
theorem Run.begin_mem_of_step (run : Run S s₀ h ts s) (hpre : pre ++ [.perform t o a] <+: h) :
    .begin t ∈ pre := by
  induction run with
  | start => exact absurd (List.prefix_nil.mp hpre) (by simp)
  | begin t' run ih =>
    obtain hlast | hpre := List.prefix_concat_iff.mp hpre
    · exact absurd (List.append_inj' hlast rfl).2 (by simp)
    · exact ih hpre
  | @perform h before later s s' t' o' k answer run hhappens ih =>
    obtain hlast | hpre := List.prefix_concat_iff.mp hpre
    · obtain ⟨rfl, he⟩ := List.append_inj' hlast rfl
      cases he
      have hbegun : t ∈ begins pre := by
        rw [← List.mem_reverse, ← run.map_task]
        simp
      obtain ⟨act, hact, ht⟩ := List.mem_filterMap.mp hbegun
      cases act with
      | begin t' =>
        rw [← Option.some.inj ht]
        exact hact
      | perform t' o' a' => exact absurd ht (by simp [begun])
    · exact ih hpre

/-- **A run, with what each thread has done in it**: the operations of a thread with
their answers, in order. Where a task has begun several times, each of its threads has
its own. -/
inductive TracedRun (S : AtomicSystem ρ ε τ σ) (s₀ : σ) :
    List (AtomicAction ρ τ) → List (Thread ρ ε τ × Deeds ρ) → σ → Prop
  | start : TracedRun S s₀ [] [] s₀
  | begin {h : List (AtomicAction ρ τ)} {own : List (Thread ρ ε τ × Deeds ρ)} {s : σ} (t : τ)
      (run : TracedRun S s₀ h own s) :
      TracedRun S s₀ (h ++ [.begin t]) ((⟨t, S.body t⟩, []) :: own) s
  | perform {h : List (AtomicAction ρ τ)} {before later : List (Thread ρ ε τ × Deeds ρ)}
      {s s' : σ} {t : τ} {o : ω} {k : ρ o → AtomicProgram ρ ε Unit} {answer : ρ o} {d : Deeds ρ}
      (run : TracedRun S s₀ h (before ++ (⟨t, .call o k⟩, d) :: later) s)
      (happens : S.happens o s answer s') :
      TracedRun S s₀ (h ++ [.perform t o answer])
        (before ++ (⟨t, k answer⟩, d ++ [⟨o, answer⟩]) :: later) s'

variable {Step : Deeds ρ → ω → Prop} {Raises : Deeds ρ → Prop} {Q : Unit → Deeds ρ → Prop}
  {own : List (Thread ρ ε τ × Deeds ρ)} {p : AtomicProgram ρ ε Unit} {d : Deeds ρ}

/-- What the threads have done may be forgotten. -/
theorem TracedRun.run (run : TracedRun S s₀ h own s) : Run S s₀ h (own.map Prod.fst) s := by
  induction run with
  | start => exact .start
  | begin t run ih => exact ih.begin t
  | perform run happens ih =>
    simp only [List.map_append, List.map_cons] at ih ⊢
    exact ih.perform happens

/-- **Every run can be told with what its threads have done.** -/
theorem Run.exists_tracedRun (run : Run S s₀ h ts s) :
    ∃ own, own.map Prod.fst = ts ∧ TracedRun S s₀ h own s := by
  induction run with
  | start => exact ⟨[], rfl, .start⟩
  | begin t run ih =>
    obtain ⟨own, rfl, traced⟩ := ih
    exact ⟨_, rfl, traced.begin t⟩
  | perform run happens ih =>
    obtain ⟨own, hown, traced⟩ := ih
    obtain ⟨before, rest, rfl, rfl, hrest⟩ := List.map_eq_append_iff.mp hown
    obtain ⟨⟨th, d⟩, later, rfl, rfl, rfl⟩ := List.map_eq_cons_iff.mp hrest
    exact ⟨_, by simp, traced.perform happens⟩

/-- **A thread has come to what is left of it** by what it has done. -/
theorem TracedRun.keeps (run : TracedRun S s₀ h own s)
    (hkeeps : Keeps Step Raises (S.body t) [] Q) (hp : (⟨t, p⟩, d) ∈ own) :
    Keeps Step Raises p d Q := by
  induction run generalizing p d with
  | start => exact absurd hp List.not_mem_nil
  | begin t' run ih =>
    obtain hp | hp := List.mem_cons.mp hp
    · cases hp
      exact hkeeps
    · exact ih hp
  | @perform h before later s s' t' o' k answer d' run happens ih =>
    obtain hp | hp := List.mem_append.mp hp
    · exact ih (List.mem_append_left _ hp)
    · obtain hp | hp := List.mem_cons.mp hp
      · -- the thread that performs the operation
        cases hp
        exact (ih (p := .call o' k) (d := d') (by simp)).2 answer
      · exact ih (List.mem_append_right _ (List.mem_cons_of_mem _ hp))

/-- **A thread that is over** has done what its program says. -/
theorem TracedRun.over_of_keeps (run : TracedRun S s₀ h own s)
    (hkeeps : Keeps Step Raises (S.body t) [] Q) (hp : (⟨t, p⟩, d) ∈ own) (hover : IsOver p) :
    (p = .ret () ∧ Q () d) ∨ ((∃ e, p = .raise e) ∧ Raises d) := by
  have hdone := run.keeps hkeeps hp
  cases p with
  | ret a => exact Or.inl ⟨rfl, hdone⟩
  | raise e => exact Or.inr ⟨⟨e, rfl⟩, hdone⟩
  | call o k => exact absurd hover id

/-- A task that performs an operation has a thread that had come to it. -/
theorem Run.exists_thread_of_perform (run : Run S s₀ h ts s)
    (hpre : pre ++ [.perform t o a] <+: h) :
    ∃ own s' k d, TracedRun S s₀ pre own s' ∧ (⟨t, .call o k⟩, d) ∈ own := by
  induction run with
  | start => exact absurd (List.prefix_nil.mp hpre) (by simp)
  | begin t' run ih =>
    obtain hlast | hpre := List.prefix_concat_iff.mp hpre
    · exact absurd (List.append_inj' hlast rfl).2 (by simp)
    · exact ih hpre
  | @perform h before later s s' t' o' k answer run hhappens ih =>
    obtain hlast | hpre := List.prefix_concat_iff.mp hpre
    · obtain ⟨rfl, he⟩ := List.append_inj' hlast rfl
      cases he
      obtain ⟨own, hown, traced⟩ := run.exists_tracedRun
      have hmem : ⟨t, .call o k⟩ ∈ own.map Prod.fst := by simp [hown]
      obtain ⟨⟨th, d⟩, hd, rfl⟩ := List.mem_map.mp hmem
      exact ⟨own, _, k, d, traced, hd⟩
    · exact ih hpre

variable [DecidableEq τ]

/-- A task that began once has no other thread than the one it has. -/
theorem Run.task_ne_of_mem {before later : List (Thread ρ ε τ)} {t' : τ}
    {p p' : AtomicProgram ρ ε Unit} (run : Run S s₀ h (before ++ ⟨t', p'⟩ :: later) s)
    (hone : (begins h).count t ≤ 1) (hmem : ⟨t, p⟩ ∈ before ++ later) : t' ≠ t := by
  rintro rfl
  have htasks : ((before ++ ⟨t', p'⟩ :: later).map Thread.task).count t' ≤ 1 := by
    rwa [run.map_task, List.count_reverse]
  have hpos : 0 < ((before ++ later).map Thread.task).count t' :=
    List.count_pos_iff.mpr (List.mem_map_of_mem hmem)
  simp only [List.map_append, List.map_cons, List.count_append, List.count_cons_self]
    at htasks hpos
  omega

/-- **What a thread has done its task has done**, and where the task began once, that is
all. -/
theorem TracedRun.subset_ownOps (run : TracedRun S s₀ h own s) (hp : (⟨t, p⟩, d) ∈ own) :
    d ⊆ ownOps t h ∧ ((begins h).count t ≤ 1 → d = ownOps t h) := by
  induction run generalizing p d with
  | start => exact absurd hp List.not_mem_nil
  | @begin h own s t' run ih =>
    have hsnoc : begins (h ++ [.begin t']) = begins h ++ [t'] := by simp [begins, begun]
    rw [ownOps_begin, hsnoc, List.count_append]
    obtain hp | hp := List.mem_cons.mp hp
    · cases hp
      refine ⟨List.nil_subset _, fun hone => ?_⟩
      rw [List.count_singleton_self] at hone
      have hnew : t ∉ begins h := List.count_eq_zero.mp (by omega)
      refine (List.eq_nil_iff_forall_not_mem.mpr (fun x hx => ?_)).symm
      exact hnew (run.run.mem_begins (mem_ownOps.mp hx))
    · exact ⟨(ih hp).1, fun hone => (ih hp).2 (by omega)⟩
  | @perform h before later s s' t' o' k answer d' run happens ih =>
    have hsame : begins (h ++ [.perform t' o' answer]) = begins h := by simp [begins, begun]
    have hother : (⟨t, p⟩, d) ∈ before ++ later → d ⊆ ownOps t (h ++ [.perform t' o' answer])
        ∧ ((begins h).count t ≤ 1 → d = ownOps t (h ++ [.perform t' o' answer])) := by
      intro hin
      obtain ⟨hsub, hall⟩ := ih (List.mem_append.mpr
        ((List.mem_append.mp hin).imp_right (List.mem_cons_of_mem _)))
      refine ⟨List.Subset.trans hsub (ownOps_mono (List.prefix_append _ _)).subset,
        fun hone => ?_⟩
      have hthreads := run.run
      rw [List.map_append, List.map_cons] at hthreads
      have hmem : ⟨t, p⟩ ∈ before.map Prod.fst ++ later.map Prod.fst := by
        rw [← List.map_append]
        exact List.mem_map_of_mem hin
      rw [ownOps_perform_of_ne _ _ _ _ _ (hthreads.task_ne_of_mem hone hmem)]
      exact hall hone
    rw [hsame]
    obtain hp | hp := List.mem_append.mp hp
    · exact hother (List.mem_append_left _ hp)
    · obtain hp | hp := List.mem_cons.mp hp
      · cases hp
        obtain ⟨hsub, hall⟩ := ih (p := .call o' k) (d := d') (by simp)
        rw [ownOps_perform_self]
        refine ⟨List.append_subset.mpr ⟨?_, List.subset_append_right _ _⟩, fun hone => ?_⟩
        · exact List.Subset.trans hsub (List.subset_append_left _ _)
        · rw [hall hone]
      · exact hother (List.mem_append_right _ hp)

/-- **Every operation of a task is as its program says**, after what the task
did before. -/
theorem Run.step_of_keeps (run : Run S s₀ h ts s) (hone : (begins h).count t ≤ 1)
    (hkeeps : Keeps Step Raises (S.body t) [] Q)
    (hpre : pre ++ [.perform t o a] <+: h) : Step (ownOps t pre) o := by
  obtain ⟨own, s', k, d, traced, hd⟩ := run.exists_thread_of_perform hpre
  have hsub := (before_of_step hpre).sublist.filterMap begun
  rw [← (traced.subset_ownOps hd).2 ((hsub.count_le t).trans hone)]
  exact (traced.keeps hkeeps hd).1

/-- **A task may begin several times** where all that is said about it is that
it *has* done something. -/
theorem Run.step_of_keeps_of_mono (run : Run S s₀ h ts s)
    (hmono : ∀ {d d' : Deeds ρ} {o : ω}, d ⊆ d' → Step d o → Step d' o)
    (hkeeps : Keeps Step Raises (S.body t) [] Q)
    (hpre : pre ++ [.perform t o a] <+: h) : Step (ownOps t pre) o := by
  obtain ⟨own, s', k, d, traced, hd⟩ := run.exists_thread_of_perform hpre
  exact hmono (traced.subset_ownOps hd).1 (traced.keeps hkeeps hd).1

/-- **A task that is over** has done what its program says. -/
theorem Run.over_of_keeps (run : Run S s₀ h ts s) (hone : (begins h).count t ≤ 1)
    (hkeeps : Keeps Step Raises (S.body t) [] Q) {p : AtomicProgram ρ ε Unit}
    (hp : ⟨t, p⟩ ∈ ts) (hover : IsOver p) :
    (p = .ret () ∧ Q () (ownOps t h)) ∨ ((∃ e, p = .raise e) ∧ Raises (ownOps t h)) := by
  obtain ⟨own, rfl, traced⟩ := run.exists_tracedRun
  obtain ⟨⟨th, d⟩, hd, rfl⟩ := List.mem_map.mp hp
  rw [← (traced.subset_ownOps hd).2 hone]
  exact traced.over_of_keeps hkeeps hd hover

end Runs

/-! ## The state of a history -/

section Replay

variable (exec : (o : ω) → σ → ρ o × σ)

/-- What a step of a history does to the state. -/
def effect (s : σ) : AtomicAction ρ τ → σ
  | .begin _ => s
  | .perform _ o _ => (exec o s).2

/-- **The operations of a history, made one after the other.** -/
def replay (s₀ : σ) (h : List (AtomicAction ρ τ)) : σ := h.foldl (effect exec) s₀

variable (s₀ : σ) (h : List (AtomicAction ρ τ)) (t : τ) (o : ω) (a : ρ o)

@[simp] theorem replay_nil : replay exec s₀ ([] : List (AtomicAction ρ τ)) = s₀ := rfl

@[simp] theorem replay_begin : replay exec s₀ (h ++ [.begin t]) = replay exec s₀ h := by
  simp [replay, effect]

@[simp] theorem replay_perform :
    replay exec s₀ (h ++ [.perform t o a]) = (exec o (replay exec s₀ h)).2 := by
  simp [replay, effect]

variable {exec} {S : AtomicSystem ρ ε τ σ} {s₀ s : σ} {h : List (AtomicAction ρ τ)}
  {ts : List (Thread ρ ε τ)}

/-- **The state of a run is the replay of its history**, and each answer was
given in the replay of what came before it. -/
theorem Run.replay_eq (hexec : ∀ o s a s', S.happens o s a s' → s' = (exec o s).2)
    (run : Run S s₀ h ts s) :
    replay exec s₀ h = s
      ∧ ∀ pre t o a, pre ++ [.perform t o a] <+: h →
          S.happens o (replay exec s₀ pre) a (exec o (replay exec s₀ pre)).2 := by
  induction run with
  | start => exact ⟨rfl, fun pre t o a hpre => by simp at hpre⟩
  | @begin h ts s t run ih =>
    refine ⟨by rw [replay_begin, ih.1], fun pre t' o a hpre => ?_⟩
    obtain hlast | hpre := List.prefix_concat_iff.mp hpre
    · exact absurd (List.append_inj' hlast rfl).2 (by simp)
    · exact ih.2 pre t' o a hpre
  | @perform h before later s s' t o k answer run hhappens ih =>
    have hs' := hexec o s answer s' hhappens
    refine ⟨by rw [replay_perform, ih.1, hs'], fun pre t' o' a' hpre => ?_⟩
    obtain hlast | hpre := List.prefix_concat_iff.mp hpre
    · obtain ⟨rfl, he⟩ := List.append_inj' hlast rfl
      cases he
      rw [ih.1, ← hs']
      exact hhappens
    · exact ih.2 pre t' o' a' hpre

end Replay

/-! ## Runs by a schedule -/

section Play

variable (exec : (o : ω) → σ → ρ o × σ)

/-- A history, the tasks under way, and the state. -/
abbrev Configuration (ρ : ω → Type) (ε τ σ : Type) : Type :=
  List (AtomicAction ρ τ) × List (Thread ρ ε τ) × σ

/-- The thread at a position performs its next operation, if it has one. -/
def performAt : ℕ → Configuration ρ ε τ σ → Configuration ρ ε τ σ
  | _, (h, [], s) => (h, [], s)
  | 0, (h, ⟨t, .call o k⟩ :: ts, s) =>
      (h ++ [.perform t o (exec o s).1], ⟨t, k (exec o s).1⟩ :: ts, (exec o s).2)
  | 0, (h, th :: ts, s) => (h, th :: ts, s)
  | i + 1, (h, th :: ts, s) =>
      let c := performAt i (h, ts, s)
      (c.1, th :: c.2.1, c.2.2)

/-- **The run in which the given tasks begin**, and then perform operations as
the schedule says. -/
def play (S : AtomicSystem ρ ε τ σ) (tasks : List τ) (schedule : List ℕ) (s₀ : σ) :
    Configuration ρ ε τ σ :=
  schedule.foldl (fun c i => performAt exec i c)
    (tasks.map .begin, (tasks.map (fun t => ⟨t, S.body t⟩)).reverse, s₀)

variable {exec} {S : AtomicSystem ρ ε τ σ} {s₀ : σ}

/-- A thread may perform its next operation wherever it stands. -/
theorem run_performAt (hexec : ∀ o s, S.happens o s (exec o s).1 (exec o s).2) (i : ℕ)
    {h : List (AtomicAction ρ τ)} {before ts : List (Thread ρ ε τ)} {s : σ}
    (run : Run S s₀ h (before ++ ts) s) :
    Run S s₀ (performAt exec i (h, ts, s)).1
      (before ++ (performAt exec i (h, ts, s)).2.1) (performAt exec i (h, ts, s)).2.2 := by
  induction ts generalizing before i with
  | nil => cases i <;> exact run
  | cons th ts ih =>
    cases i with
    | zero =>
      obtain ⟨t, p⟩ := th
      cases p with
      | ret a => exact run
      | raise e => exact run
      | call o k => exact run.perform (hexec o s)
    | succ i =>
      rw [List.append_cons] at run
      have hrest := ih i run
      rw [List.append_assoc, List.singleton_append] at hrest
      rw [performAt]
      exact hrest

/-- **What is played is a run.** -/
theorem run_play (hexec : ∀ o s, S.happens o s (exec o s).1 (exec o s).2) (tasks : List τ)
    (schedule : List ℕ) (s₀ : σ) :
    Run S s₀ (play exec S tasks schedule s₀).1 (play exec S tasks schedule s₀).2.1
      (play exec S tasks schedule s₀).2.2 := by
  induction schedule using List.reverseRecOn with
  | nil =>
    induction tasks using List.reverseRecOn with
    | nil => exact .start
    | append_singleton tasks t ih =>
      have hbegin := ih.begin t
      simp only [play, List.foldl_nil, List.map_append, List.map_cons, List.map_nil,
        List.reverse_append, List.reverse_cons, List.reverse_nil, List.nil_append,
        List.singleton_append] at hbegin ⊢
      exact hbegin
  | append_singleton schedule i ih =>
    rw [play, List.foldl_append]
    rw [← List.nil_append (play exec S tasks schedule s₀).2.1] at ih
    exact run_performAt hexec i ih

/-- **In a run by a schedule** every operation is answered as it would be alone. -/
theorem answer_eq_of_play {S : AtomicSystem ρ ε τ σ} {tasks : List τ} {schedule : List ℕ}
    {pre : List (AtomicAction ρ τ)} {t : τ} {o : ω} {a : ρ o}
    (hpre : pre ++ [.perform t o a] <+: (play exec S tasks schedule s₀).1) :
    a = (exec o (replay exec s₀ pre)).1 := by
  let alone : AtomicSystem ρ ε τ σ :=
    { body := S.body, happens := fun o s a s' => exec o s = (a, s') }
  have run : Run alone s₀ (play exec alone tasks schedule s₀).1 _ _ :=
    run_play (fun _ _ => rfl) tasks schedule s₀
  have hstate : ∀ o s a s', alone.happens o s a s' → s' = (exec o s).2 :=
    fun _ _ _ _ he => (congrArg Prod.snd he).symm
  have hanswer := (Run.replay_eq hstate run).2 pre t o a hpre
  exact (congrArg Prod.fst hanswer).symm

end Play

end AtomicSystem
