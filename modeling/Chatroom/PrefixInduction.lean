import Mathlib.Data.List.Infix
import Mathlib.Order.Bounds.Basic

/-!
# What holds after every prefix of a run

A run is the list of its steps, and a state of the run is what a prefix leads
to. A property of all the states of a run is then a property of the prefixes,
and so is a condition on all its steps, each taken with the prefix before it.

`forall_prefix_of_step` is the invariant rule in these terms.
`forall_prefix_iff_step` is its sharp form: where a step keeps the property
*exactly* under a condition, all the states of a run have the property exactly
if all its steps meet the condition.

The last two sections read a value that a run leaves behind off the run: that of
a cell, which is what was last written to it (`eq_some_iff_lastWrite`), and that
of a counter that goes up and down but not below zero (`isGreatest_surplus`).
-/

variable {ε : Type*} {P : List ε → Prop} {C : List ε → ε → Prop} {es : List ε}

/-- What comes before a step of a run is a prefix of the run. -/
theorem before_of_step {pre : List ε} {e : ε} (h : pre ++ [e] <+: es) : pre <+: es :=
  (List.prefix_append pre [e]).trans h

/-- A step after a prefix of a run is a step of the run. -/
theorem mem_of_step {pre : List ε} {e : ε} (h : pre ++ [e] <+: es) : e ∈ es :=
  h.subset (List.mem_append_right pre List.mem_cons_self)

/-- **The invariant rule for prefixes**: a property that holds at the start,
and is kept by every step meeting the condition, holds after every prefix of a
run whose steps all meet it. -/
theorem forall_prefix_of_step (h₀ : P [])
    (hstep : ∀ pre e, pre ++ [e] <+: es → P pre → C pre e → P (pre ++ [e]))
    (hC : ∀ pre e, pre ++ [e] <+: es → C pre e) (pre : List ε) (hpre : pre <+: es) :
    P pre := by
  induction pre using List.reverseRecOn with
  | nil => exact h₀
  | append_singleton pre e ih =>
    have hbefore : P pre := ih (before_of_step hpre)
    exact hstep pre e hpre hbefore (hC pre e hpre)

/-- **The sharp invariant rule**: if a step from a state with the property
keeps it exactly under the condition, then a run has the property after every
prefix exactly if its steps all meet the condition. -/
theorem forall_prefix_iff_step (h₀ : P [])
    (hstep : ∀ pre e, pre ++ [e] <+: es → P pre → (P (pre ++ [e]) ↔ C pre e)) :
    (∀ pre, pre <+: es → P pre) ↔ ∀ pre e, pre ++ [e] <+: es → C pre e := by
  constructor
  · intro h pre e hpre
    have hbefore : P pre := h pre (before_of_step hpre)
    exact (hstep pre e hpre hbefore).mp (h (pre ++ [e]) hpre)
  · exact fun hC => forall_prefix_of_step h₀
      (fun pre e hpre hP hc => (hstep pre e hpre hP).mpr hc) hC

/-- **The invariant rule from a prefix on**: a property that holds after a prefix,
and is kept by every step after it, holds after every longer prefix. -/
theorem forall_later_of_step {pre₀ pre₁ : List ε} (h₀ : P pre₀)
    (hstep : ∀ pre e, pre₀ <+: pre → pre ++ [e] <+: es → P pre → P (pre ++ [e]))
    (h₀₁ : pre₀ <+: pre₁) (h₁ : pre₁ <+: es) : P pre₁ := by
  obtain ⟨later, rfl⟩ := h₀₁
  induction later using List.reverseRecOn with
  | nil => rwa [List.append_nil]
  | append_singleton later e ih =>
    rw [← List.append_assoc] at h₁ ⊢
    have hbefore : P (pre₀ ++ later) := ih (before_of_step h₁)
    exact hstep (pre₀ ++ later) e (List.prefix_append _ _) h₁ hbefore

/-- A step of a run comes after some prefix of it. -/
theorem exists_prefix_of_mem {e : ε} (h : e ∈ es) : ∃ pre, pre ++ [e] <+: es := by
  obtain ⟨pre, later, rfl⟩ := List.append_of_mem h
  exact ⟨pre, later, by simp⟩

/-! ## Conditions on the steps of a given run -/

section Steps

/-- An empty run has no step. -/
theorem forall_step_nil : (∀ pre e, pre ++ [e] <+: ([] : List ε) → C pre e) ↔ True := by
  refine iff_true_intro (fun pre e h => ?_)
  exact absurd (List.prefix_nil.mp h) (by simp)

/-- **The steps of a run are its first one and the later ones**, which all have
the first before them. -/
theorem forall_step_cons {a : ε} :
    (∀ pre e, pre ++ [e] <+: a :: es → C pre e)
      ↔ C [] a ∧ ∀ pre e, pre ++ [e] <+: es → C (a :: pre) e := by
  constructor
  · intro h
    refine ⟨h [] a (by simp), fun pre e hpre => h (a :: pre) e ?_⟩
    exact (List.prefix_cons_inj a).mpr hpre
  · rintro ⟨hfirst, hlater⟩ pre e hpre
    cases pre with
    | nil =>
      obtain rfl : e = a := by simpa using hpre
      exact hfirst
    | cons b pre =>
      obtain ⟨rfl, hrest⟩ := List.cons_prefix_cons.mp hpre
      exact hlater pre e hrest

end Steps

/-! ## The last write -/

section LastWrite

variable {β : Type*} {c : List ε → Option β} {write : List ε → ε → Option (Option β)}
  {b : β}

/-- **The last step of a run that writes a cell writes the given value.** A step
writes the cell or not, told from the prefix before it, and what it writes is a
value or nothing. -/
def LastWrite (write : List ε → ε → Option (Option β)) (es : List ε) (b : β) : Prop :=
  ∃ pre e, pre ++ [e] <+: es ∧ write pre e = some (some b)
    ∧ ∀ pre' e', pre ++ [e] <+: pre' → pre' ++ [e'] <+: es → write pre' e' = none

theorem not_lastWrite_nil : ¬ LastWrite write [] b := by
  rintro ⟨pre, e, hpre, -⟩
  exact absurd (List.prefix_nil.mp hpre) (by simp)

/-- A step that does not write leaves the last write the one it was. -/
theorem lastWrite_snoc_of_none {e : ε} (h : write es e = none) :
    LastWrite write (es ++ [e]) b ↔ LastWrite write es b := by
  constructor
  · rintro ⟨pre, e', hpre, hwrite, hlater⟩
    obtain heq | hbefore := List.prefix_concat_iff.mp hpre
    · obtain ⟨rfl, he⟩ := List.append_inj' heq rfl
      obtain rfl : e' = e := by simpa using he
      exact absurd (h.symm.trans hwrite) (by simp)
    · exact ⟨pre, e', hbefore, hwrite,
        fun pre' e'' hle hstep => hlater pre' e'' hle (hstep.trans (List.prefix_append _ _))⟩
  · rintro ⟨pre, e', hpre, hwrite, hlater⟩
    refine ⟨pre, e', hpre.trans (List.prefix_append _ _), hwrite, fun pre' e'' hle hstep => ?_⟩
    obtain heq | hbefore := List.prefix_concat_iff.mp hstep
    · obtain ⟨rfl, he⟩ := List.append_inj' heq rfl
      obtain rfl : e'' = e := by simpa using he
      exact h
    · exact hlater pre' e'' hle hbefore

/-- A step that writes is the last write itself. -/
theorem lastWrite_snoc_of_some {e : ε} {v : Option β} (h : write es e = some v) :
    LastWrite write (es ++ [e]) b ↔ v = some b := by
  constructor
  · rintro ⟨pre, e', hpre, hwrite, hlater⟩
    obtain heq | hbefore := List.prefix_concat_iff.mp hpre
    · obtain ⟨rfl, he⟩ := List.append_inj' heq rfl
      obtain rfl : e' = e := by simpa using he
      exact Option.some.inj (h.symm.trans hwrite)
    · exact absurd (h.symm.trans (hlater es e hbefore (List.prefix_refl _))) (by simp)
  · rintro rfl
    refine ⟨es, e, List.prefix_refl _, h, fun pre' e' hle hstep => ?_⟩
    -- no step comes after the last one
    have hle' := hle.length_le
    have hstep' := hstep.length_le
    simp only [List.length_append, List.length_singleton] at hle' hstep'
    exact absurd (hle'.trans (Nat.le_of_succ_le_succ hstep')) (Nat.not_succ_le_self _)

/-- **What a cell holds is what was last written to it**, where it is empty at
the start and every step either writes it or leaves it. -/
theorem eq_some_iff_lastWrite (h₀ : c [] = none)
    (hstep : ∀ pre e, c (pre ++ [e]) = (write pre e).getD (c pre)) :
    c es = some b ↔ LastWrite write es b := by
  induction es using List.reverseRecOn with
  | nil => exact iff_of_false (by simp [h₀]) not_lastWrite_nil
  | append_singleton es e ih =>
    rw [hstep]
    cases h : write es e with
    | none =>
      rw [lastWrite_snoc_of_none h]
      exact ih
    | some v =>
      rw [lastWrite_snoc_of_some h]
      rfl

end LastWrite

/-! ## Counters that stop at zero -/

section Counter

variable {c : List ε → ℕ} {up down : List ε → ε → ℕ}

/-- **What a part of a run brings up, less what it takes down.** How much a step
does either is told from the prefix before it. -/
def surplus (up down : List ε → ε → ℕ) (pre : List ε) : List ε → ℤ
  | [] => 0
  | e :: later => (up pre e - down pre e : ℤ) + surplus up down (pre ++ [e]) later

theorem surplus_snoc (pre later : List ε) (e : ε) :
    surplus up down pre (later ++ [e])
      = surplus up down pre later + (up (pre ++ later) e - down (pre ++ later) e : ℤ) := by
  induction later generalizing pre with
  | nil =>
    show (up pre e - down pre e : ℤ) + 0 = 0 + (up (pre ++ []) e - down (pre ++ []) e : ℤ)
    rw [List.append_nil, Int.add_zero, Int.zero_add]
  | cons e' later ih =>
    show (up pre e' - down pre e' : ℤ) + surplus up down (pre ++ [e']) (later ++ [e]) = _
    rw [ih, List.append_cons pre e' later, surplus, Int.add_assoc]

/-- **A counter that stops at zero shows the greatest surplus of an end of the
run.** What it did not take down for want of anything there is forgotten, and
the end with the greatest surplus begins where this happened last. -/
theorem isGreatest_surplus (h₀ : c [] = 0)
    (hstep : ∀ pre e, c (pre ++ [e]) = c pre + up pre e - down pre e) (es : List ε) :
    IsGreatest {k : ℤ | ∃ pre later, es = pre ++ later ∧ k = surplus up down pre later}
      (c es) := by
  induction es using List.reverseRecOn with
  | nil =>
    rw [h₀]
    refine ⟨⟨[], [], rfl, rfl⟩, ?_⟩
    rintro k ⟨pre, later, hes, rfl⟩
    obtain ⟨rfl, rfl⟩ := List.append_eq_nil_iff.mp hes.symm
    exact le_refl _
  | append_singleton es e ih =>
    obtain ⟨⟨pre₀, later₀, hes₀, hcount⟩, hle⟩ := ih
    rw [hstep]
    constructor
    · -- the end that was the greatest goes on, unless there is nothing left
      by_cases hzero : c es + up es e ≤ down es e
      · exact ⟨es ++ [e], [], (List.append_nil _).symm, by rw [surplus]; omega⟩
      · refine ⟨pre₀, later₀ ++ [e], by rw [← List.append_assoc, ← hes₀], ?_⟩
        rw [surplus_snoc, ← hes₀, ← hcount]
        omega
    · rintro k ⟨pre, later, hes, rfl⟩
      obtain rfl | ⟨later, e', rfl⟩ := later.eq_nil_or_concat
      · rw [surplus]
        exact Int.natCast_nonneg _
      · rw [List.concat_eq_append, ← List.append_assoc] at hes
        obtain ⟨rfl, he⟩ := List.append_inj' hes rfl
        obtain rfl := List.singleton_inj.mp he
        have hbefore : surplus up down pre later ≤ c (pre ++ later) :=
          hle ⟨pre, later, rfl, rfl⟩
        rw [List.concat_eq_append, surplus_snoc]
        omega

/-- Such a counter is not zero exactly if some end of the run has a surplus. -/
theorem pos_iff_exists_surplus (h₀ : c [] = 0)
    (hstep : ∀ pre e, c (pre ++ [e]) = c pre + up pre e - down pre e) (es : List ε) :
    0 < c es ↔ ∃ pre later, es = pre ++ later ∧ 0 < surplus up down pre later := by
  obtain ⟨⟨pre, later, hes, hcount⟩, hle⟩ := isGreatest_surplus h₀ hstep es
  constructor
  · exact fun hpos => ⟨pre, later, hes, by rw [← hcount]; exact Int.natCast_pos.mpr hpos⟩
  · rintro ⟨pre', later', hes', hpos⟩
    exact Int.natCast_pos.mp (hpos.trans_le (hle ⟨pre', later', hes', rfl⟩))

end Counter
