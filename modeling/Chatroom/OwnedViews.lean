import Chatroom.TaskHistories

/-!
# What a task owns

Tasks that run side by side on one state often leave most of each other's data
alone. What a task can count on is then a *view* of the state: the part that only
the task itself changes, together with what the others change in a known way.
`Views` says what the views of all tasks are, what the others may make of one
(`Rely`), which operations a task may perform (`Guard`), what it may be answered
(`Reads`) and what its own operations make of its view (`next`).

`Views.Respected` is the one condition that looks at two tasks at once: an
operation that is within the guard of its task does to the task's view what
`next` says, and to the view of any other what `Rely` says. It is asked for along
a given history, so that what is known of the history as a whole – what is still
to come included – may be used for it.

`Views.Follows` reads the program of a task on its view alone, with any
interference between its operations. `follows_bind`, `follows_perform`,
`follows_forEach` and `follows_tryCatch` are the rules by which a program is
taken apart, and `Run.follows` is what they are for: **where the views are
respected and each task follows its program on its own view, every run keeps the
invariant, and a task that is over has done to its view what its program says** –
whatever the other tasks are in the middle of.
-/

namespace AtomicSystem

variable {ω : Type} {ρ : ω → Type} {ε τ σ ν α β : Type}

/-- **What the tasks see of the state**, and what they may do to it. -/
structure Views (ρ : ω → Type) (τ σ ν : Type) where
  /-- What holds of the state after a history. -/
  Inv : List (AtomicAction ρ τ) → σ → Prop
  /-- What a task sees of the state. -/
  view : τ → σ → ν
  /-- What the other tasks may make of a view. -/
  Rely : ν → ν → Prop
  /-- The operations a task may perform. -/
  Guard : τ → ν → ω → Prop
  /-- What an operation of a task may be answered. -/
  Reads : τ → ν → (o : ω) → ρ o → Prop
  /-- What an operation of a task makes of its view. -/
  next : τ → ν → ω → ν
  rely_refl : ∀ v, Rely v v
  rely_trans : ∀ {v v' v''}, Rely v v' → Rely v' v'' → Rely v v''

namespace Views

variable (V : Views ρ τ σ ν)

/-- **The views are respected** along a history: the beginning of a task, and any
operation within the guard of its task, keeps the invariant, and the others' views
change as they rely on. -/
structure Respected (S : AtomicSystem ρ ε τ σ) (h : List (AtomicAction ρ τ)) : Prop where
  inv_begin : ∀ {pre s t}, pre ++ [.begin t] <+: h → V.Inv pre s → V.Inv (pre ++ [.begin t]) s
  inv_perform : ∀ {pre s t o a s'}, pre ++ [.perform t o a] <+: h → V.Inv pre s →
    V.Guard t (V.view t s) o → S.happens o s a s' → V.Inv (pre ++ [.perform t o a]) s'
  reads : ∀ {pre s t o a s'}, pre ++ [.perform t o a] <+: h → V.Inv pre s →
    V.Guard t (V.view t s) o → S.happens o s a s' → V.Reads t (V.view t s) o a
  view_next : ∀ {pre s t o a s'}, pre ++ [.perform t o a] <+: h → V.Inv pre s →
    V.Guard t (V.view t s) o → S.happens o s a s' → V.view t s' = V.next t (V.view t s) o
  rely : ∀ {pre s t o a s'} t', t' ≠ t → pre ++ [.perform t o a] <+: h → V.Inv pre s →
    V.Guard t (V.view t s) o → S.happens o s a s' → V.Rely (V.view t' s) (V.view t' s')

/-! ## A program on its view -/

/-- **A program follows its view**: with any interference before an operation, the
operation is within the guard, and whatever it may be answered, the rest follows
the view it leaves. `Q` holds where the program returns, `R` where it raises an
exception. -/
def Follows (t : τ) : AtomicProgram ρ ε α → ν → (α → ν → Prop) → (ε → ν → Prop) → Prop
  | .ret a, v, Q, _ => Q a v
  | .raise e, v, _, R => R e v
  | .call o k, v, Q, R => ∀ v', V.Rely v v' → V.Guard t v' o
      ∧ ∀ a, V.Reads t v' o a → Follows t (k a) (V.next t v' o) Q R

section Rules

variable {V} {t : τ} {v : ν} {Q : α → ν → Prop} {R : ε → ν → Prop}

/-- What is known in the end may be weakened. -/
theorem follows_weaken {p : AtomicProgram ρ ε α} {Q' : α → ν → Prop} {R' : ε → ν → Prop}
    (hp : V.Follows t p v Q R) (hQ : ∀ a v', Q a v' → Q' a v') (hR : ∀ e v', R e v' → R' e v') :
    V.Follows t p v Q' R' := by
  induction p generalizing v with
  | ret a => exact hQ a v hp
  | raise e => exact hR e v hp
  | call o k ih =>
    intro v' hv
    obtain ⟨hguard, hnext⟩ := hp v' hv
    exact ⟨hguard, fun a ha => ih a (hnext a ha)⟩

/-- **A sequence** goes on from the view its first part leaves. -/
theorem follows_bind {p : AtomicProgram ρ ε α} {f : α → AtomicProgram ρ ε β}
    {Q' : β → ν → Prop} (hp : V.Follows t p v Q R)
    (hf : ∀ a v', Q a v' → V.Follows t (f a) v' Q' R) : V.Follows t (p >>= f) v Q' R := by
  induction p generalizing v with
  | ret a => exact hf a v hp
  | raise e => exact hp
  | call o k ih =>
    intro v' hv
    obtain ⟨hguard, hnext⟩ := hp v' hv
    exact ⟨hguard, fun a ha => ih a (hnext a ha)⟩

/-- **A guarded program** goes on from the view in which the exception was raised. -/
theorem follows_tryCatch {p : AtomicProgram ρ ε α} {f : ε → AtomicProgram ρ ε α}
    {R' : ε → ν → Prop} (hp : V.Follows t p v Q R')
    (hf : ∀ e v', R' e v' → V.Follows t (f e) v' Q R) : V.Follows t (p.tryCatch f) v Q R := by
  induction p generalizing v with
  | ret a => exact hp
  | raise e => exact hf e v hp
  | call o k ih =>
    intro v' hv
    obtain ⟨hguard, hnext⟩ := hp v' hv
    exact ⟨hguard, fun a ha => ih a (hnext a ha)⟩

/-- **One operation**, on the view as the others have left it. -/
theorem follows_perform {o : ω} (hguard : ∀ v', V.Rely v v' → V.Guard t v' o) :
    V.Follows t (AtomicProgram.perform o : AtomicProgram ρ ε (ρ o)) v
      (fun a v'' => ∃ v', V.Rely v v' ∧ V.Reads t v' o a ∧ v'' = V.next t v' o) R :=
  fun v' hv => ⟨hguard v' hv, fun _ ha => ⟨v', hv, ha, rfl⟩⟩

/-- **A loop** keeps an invariant that speaks of the elements gone through. -/
theorem follows_forEach {bs : List β} {body : β → AtomicProgram ρ ε Unit}
    (I : List β → ν → Prop)
    (hbody : ∀ pre b, pre ++ [b] <+: bs → ∀ v, I pre v →
      V.Follows t (body b) v (fun _ => I (pre ++ [b])) R)
    (h₀ : I [] v) : V.Follows t (AtomicProgram.forEach bs body) v (fun _ => I bs) R := by
  induction bs generalizing v I with
  | nil => exact h₀
  | cons b bs ih =>
    refine follows_bind (hbody [] b (by simp) v h₀) (fun _ v' hv' => ?_)
    refine ih (fun pre => I (b :: pre)) (fun pre b' hpre w hw => ?_) hv'
    exact hbody (b :: pre) b' ((List.prefix_cons_inj b).mpr hpre) w hw

end Rules

end Views

/-! ## Runs -/

section Runs

open Views

variable {S : AtomicSystem ρ ε τ σ} {V : Views ρ τ σ ν} {s₀ s s' : σ}
  {Q : τ → ν → Prop} {R : τ → ε → ν → Prop} {h pre : List (AtomicAction ρ τ)}
  {ts : List (Thread ρ ε τ)}

/-- What is left of a task follows the view the task has. -/
def OnView (V : Views ρ τ σ ν) (Q : τ → ν → Prop) (R : τ → ε → ν → Prop) (s : σ)
    (th : Thread ρ ε τ) : Prop :=
  ∃ v, V.Rely v (V.view th.task s)
    ∧ V.Follows th.task th.program v (fun _ => Q th.task) (R th.task)

/-- **A task that is over** has done to its view what its program says. -/
theorem OnView.over {th : Thread ρ ε τ} (hth : OnView V Q R s th) (hover : IsOver th.program) :
    (th.program = .ret () ∧ ∃ v, V.Rely v (V.view th.task s) ∧ Q th.task v)
      ∨ ∃ e, th.program = .raise e ∧ ∃ v, V.Rely v (V.view th.task s) ∧ R th.task e v := by
  obtain ⟨v, hv, hfollows⟩ := hth
  obtain ⟨t, p⟩ := th
  cases p with
  | ret a => exact Or.inl ⟨rfl, v, hv, hfollows⟩
  | raise e => exact Or.inr ⟨e, rfl, v, hv, hfollows⟩
  | call o k => exact absurd hover id

/-- **What a run keeps** where the views are respected: the invariant, what is left
of each task, and the views of the tasks that have not begun. -/
structure Kept (V : Views ρ τ σ ν) (Q : τ → ν → Prop) (R : τ → ε → ν → Prop) (s₀ : σ)
    (h : List (AtomicAction ρ τ)) (ts : List (Thread ρ ε τ)) (s : σ) : Prop where
  inv : V.Inv h s
  onView : ∀ th ∈ ts, OnView V Q R s th
  waiting : ∀ t ∉ begins h, V.Rely (V.view t s₀) (V.view t s)

/-- A task that begins has the view it was left. -/
theorem Kept.begin {t : τ} (hkept : Kept V Q R s₀ pre ts s) (hV : V.Respected S h)
    (hbody : ∀ v, V.Rely (V.view t s₀) v → V.Follows t (S.body t) v (fun _ => Q t) (R t))
    (hpre : pre ++ [.begin t] <+: h) (hnew : t ∉ begins pre) :
    Kept V Q R s₀ (pre ++ [.begin t]) (⟨t, S.body t⟩ :: ts) s := by
  obtain ⟨hinv, hon, hnot⟩ := hkept
  refine ⟨hV.inv_begin hpre hinv, fun th hth => ?_, fun t' ht' => hnot t' (fun hmem => ht' ?_)⟩
  · obtain rfl | hth := List.mem_cons.mp hth
    · exact ⟨_, V.rely_refl _, hbody _ (hnot t hnew)⟩
    · exact hon th hth
  · rw [begins, List.filterMap_append]
    exact List.mem_append_left _ hmem

/-- **An operation** moves its task along its view, and leaves the others on theirs. -/
theorem Kept.perform {before later : List (Thread ρ ε τ)} {t : τ} {o : ω}
    {k : ρ o → AtomicProgram ρ ε Unit} {a : ρ o}
    (hkept : Kept V Q R s₀ pre (before ++ ⟨t, .call o k⟩ :: later) s) (hV : V.Respected S h)
    (hpre : pre ++ [.perform t o a] <+: h) (hhappens : S.happens o s a s')
    (hbegun : t ∈ begins pre) (hother : ∀ th ∈ before ++ later, th.task ≠ t) :
    Kept V Q R s₀ (pre ++ [.perform t o a]) (before ++ ⟨t, k a⟩ :: later) s' := by
  obtain ⟨hinv, hon, hnot⟩ := hkept
  obtain ⟨v, hv, hfollows⟩ := hon ⟨t, .call o k⟩ (by simp)
  obtain ⟨hguard, hnext⟩ := hfollows _ hv
  have hrely : ∀ t', t' ≠ t → V.Rely (V.view t' s) (V.view t' s') :=
    fun t' hne => hV.rely t' hne hpre hinv hguard hhappens
  have hstay : ∀ th ∈ before ++ later, OnView V Q R s' th := by
    intro th hmem
    obtain ⟨w, hw, hrest⟩ := hon th (by
      rw [List.mem_append, List.mem_cons]
      exact (List.mem_append.mp hmem).imp_right Or.inr)
    exact ⟨w, V.rely_trans hw (hrely th.task (hother th hmem)), hrest⟩
  refine ⟨hV.inv_perform hpre hinv hguard hhappens, fun th hth => ?_, fun t' ht' => ?_⟩
  · obtain hth | hth := List.mem_append.mp hth
    · exact hstay th (List.mem_append_left _ hth)
    · obtain rfl | hth := List.mem_cons.mp hth
      · -- the task that performs the operation goes on from the view it leaves
        have hread := hV.reads hpre hinv hguard hhappens
        refine ⟨_, ?_, hnext a hread⟩
        rw [hV.view_next hpre hinv hguard hhappens]
        exact V.rely_refl _
      · exact hstay th (List.mem_append_right _ hth)
  · have hsame : begins (pre ++ [.perform t o a]) = begins pre := by simp [begins, begun]
    rw [hsame] at ht'
    exact V.rely_trans (hnot t' ht') (hrely t' (fun e => ht' (e ▸ hbegun)))

/-- **Where the views are respected and each task follows its program on its own
view**, a run keeps what is to be kept. Each task begins at most once. -/
theorem Run.follows [DecidableEq τ] (hV : V.Respected S h) (hone : (begins h).Nodup)
    (hstart : V.Inv [] s₀)
    (htasks : ∀ t v, V.Rely (V.view t s₀) v → V.Follows t (S.body t) v (fun _ => Q t) (R t))
    (run : Run S s₀ h ts s) : Kept V Q R s₀ h ts s := by
  suffices hall : ∀ {pre ts s}, pre <+: h → Run S s₀ pre ts s → Kept V Q R s₀ pre ts s from
    hall (List.prefix_refl h) run
  intro pre ts s hpre run
  induction run with
  | start => exact ⟨hstart, by simp, fun t _ => V.rely_refl _⟩
  | @begin pre ts s t run ih =>
    refine (ih (before_of_step hpre)).begin hV (htasks t) hpre ?_
    have hnodup : (begins (pre ++ [.begin t])).Nodup :=
      hone.sublist (hpre.sublist.filterMap begun)
    have hsnoc : begins (pre ++ [.begin t]) = begins pre ++ [t] := by simp [begins, begun]
    rw [hsnoc, List.nodup_append] at hnodup
    exact fun hmem => hnodup.2.2 t hmem t (by simp) rfl
  | @perform pre before later s s' t o k a run hhappens ih =>
    have hpre' := before_of_step hpre
    have hnodup : (begins pre).Nodup := hone.sublist (hpre'.sublist.filterMap begun)
    refine (ih hpre').perform hV hpre hhappens ?_ (fun th hth => ?_)
    · rw [← List.mem_reverse, ← run.map_task]
      simp
    · have honce := List.nodup_iff_count_le_one.mp hnodup th.task
      exact (run.task_ne_of_mem (p := th.program) honce hth).symm

end Runs

end AtomicSystem
