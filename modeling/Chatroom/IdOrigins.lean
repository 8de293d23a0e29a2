import Chatroom.NodeId
import Chatroom.SequenceNumbers

/-!
# Where an id is from

`parse` takes an id apart. Here this is put together with how ids are made, over
a whole run of any number of generators: whatever the clocks did, the node id
that `parse` finds is that of the generator whose call returned the id, and the
sequence number is the one that call had come to. The time is one that the call
read, as far as its timestamp fits into 42 signed bits.

Within these bits the ids of different generators are in the order of their
timestamps, and only then of the nodes: in the order in which their machines say
they were made, which need not be the order in which they were.
-/

namespace Snowflake

variable {g h : Snowflake} {t n t' n' : Long}

/-! ## Ids of different generators -/

/-- A timestamp that fits into what an id leaves it, with the sign. -/
def FitsWord (t : Long) : Prop := -2 ^ 41 ≤ t.toInt ∧ t.toInt < 2 ^ 41

instance (t : Long) : Decidable (FitsWord t) := inferInstanceAs (Decidable (_ ∧ _))

/-- Nothing is lost of it. -/
theorem toInt_pack_of_fitsWord (ht : FitsWord t) (hn : IsSequence n) :
    (g.pack t n).toInt = t.toInt * 2 ^ 22 + (g.nodeId.toInt * 2 ^ 12 + n.toInt) := by
  obtain ⟨hnode₀, hnode⟩ := g.nodeId_range
  obtain ⟨ht₀, ht⟩ := ht
  obtain ⟨hn₀, hn'⟩ := isSequence_iff.mp hn
  rw [toInt_pack_eq_bmod g t hn]
  exact Int.bmod_eq_of_le (by omega) (by omega)

/-- **Ids are ordered by timestamp, then by node, then by sequence number.** -/
theorem pack_lt_pack_iff_of_fitsWord (ht : FitsWord t) (hn : IsSequence n) (ht' : FitsWord t')
    (hn' : IsSequence n') :
    g.pack t n < h.pack t' n'
      ↔ t < t' ∨ (t = t' ∧ (g.nodeId < h.nodeId ∨ (g.nodeId = h.nodeId ∧ n < n'))) := by
  rw [Int64.lt_iff_toInt_lt, toInt_pack_of_fitsWord ht hn, toInt_pack_of_fitsWord ht' hn',
    Int64.lt_iff_toInt_lt, Int64.lt_iff_toInt_lt, Int64.lt_iff_toInt_lt, ← Int64.toInt_inj,
    ← Int64.toInt_inj]
  obtain ⟨hnode₀, hnode⟩ := g.nodeId_range
  obtain ⟨hnode₀', hnode'⟩ := h.nodeId_range
  obtain ⟨hn₀, hn⟩ := isSequence_iff.mp hn
  obtain ⟨hn₀', hn'⟩ := isSequence_iff.mp hn'
  omega

/-- What any generator makes of the id of another. Only the epoch is its own. -/
theorem parse_pack_of_other (hn : IsSequence n) :
    (h.parse (g.pack t n)).2 = (g.nodeId, n)
      ∧ ((h.parse (g.pack t n)).1 = t + h.customEpoch ↔ FitsWord t) := by
  -- the timestamp is that of the time `w` of the first generator
  obtain ⟨w, rfl⟩ : ∃ w, g.timestamp w = t :=
    ⟨t + g.customEpoch, Int64.add_sub_cancel t g.customEpoch⟩
  refine ⟨parse_pack_snd (g := g) _ hn, ?_⟩
  have hback := parse_pack_fst_iff (g := g) w hn
  have hepoch : (h.parse (g.pack (g.timestamp w) n)).1 = g.timestamp w + h.customEpoch
      ↔ (g.parse (g.pack (g.timestamp w) n)).1 = w := by
    rw [(parse_fields (g := h) _).1, (parse_fields (g := g) _).1, Int64.add_left_inj, timestamp,
      Int64.eq_sub_iff_add_eq]
  exact hepoch.trans hback

/-! ## Runs of all generators -/

section Fleet

variable {ι : Type*} [DecidableEq ι] {g : ι → Snowflake} {es pre : List (ι × Call)} {i : ι}
  {c : Call} {m : Long}

/-- The sequence numbers fit, whatever the clocks do. -/
theorem isSequence_fleetAfter (es : List (ι × Call)) :
    ∀ i, (fleetAfter g es i).waiting = false → IsSequence (fleetAfter g es i).sequence := by
  induction es using List.reverseRecOn with
  | nil => exact fun _ _ => isSequence_zero
  | append_singleton es p ih =>
    obtain ⟨i, c⟩ := p
    rw [fleetAfter_snoc]
    refine isSequence_update ih (fun hw' => ?_)
    cases hw : (fleetAfter g es i).waiting with
    | true =>
      rw [nextId_of_waiting hw] at hw' ⊢
      exact ih i hw'
    | false =>
      have hstep := nextStep_nextId (g := g i) hw (ih i hw) c
      generalize (g i).nextId (fleetAfter g es i) c = r at hstep hw' ⊢
      cases hstep with
      | rollback _ => exact ih i hw
      | later _ => exact isSequence_zero
      | next _ n hn _ => exact hn
      | waited _ _ _ => exact isSequence_zero
      | waiting _ _ => exact isSequence_zero

/-- **The ids of a run are those its calls returned.** -/
theorem mem_fleetIds_iff :
    m ∈ fleetIds g es ↔ ∃ pre i c s, pre ++ [(i, c)] <+: es
      ∧ (g i).nextId (fleetAfter g pre i) c = (.id m, s) := by
  induction es using List.reverseRecOn with
  | nil =>
    refine iff_of_false List.not_mem_nil ?_
    rintro ⟨pre, i, c, s, hpre, -⟩
    exact absurd (mem_of_step hpre) List.not_mem_nil
  | append_singleton es p ih =>
    obtain ⟨i, c⟩ := p
    rw [fleetIds_snoc, List.mem_append, ih]
    constructor
    · rintro (⟨pre, j, c', s, hpre, hid⟩ | hm)
      · exact ⟨pre, j, c', s, hpre.trans (List.prefix_append _ _), hid⟩
      · have hid : ((g i).nextId (fleetAfter g es i) c).1 = .id m := by
          generalize ((g i).nextId (fleetAfter g es i) c).1 = r at hm
          cases r with
          | id m' =>
            rw [List.mem_singleton.mp hm]
          | illegalStateException message => exact absurd hm List.not_mem_nil
          | waiting => exact absurd hm List.not_mem_nil
        exact ⟨es, i, c, _, List.prefix_refl _, Prod.ext hid rfl⟩
    · rintro ⟨pre, j, c', s, hpre, hid⟩
      obtain hlast | hbefore := List.prefix_concat_iff.mp hpre
      · obtain ⟨rfl, hp⟩ := List.append_inj' hlast rfl
        obtain ⟨rfl, rfl⟩ := Prod.mk.inj (List.singleton_inj.mp hp)
        right
        rw [hid]
        exact List.mem_singleton_self m
      · exact Or.inl ⟨pre, j, c', s, hbefore, hid⟩

/-- **Where an id is from**: a call of the generator returned it, for a
timestamp that it read, and with this sequence number. -/
def IssuedBy (g : ι → Snowflake) (es : List (ι × Call)) (m : Long) (i : ι) (t n : Long) : Prop :=
  ∃ pre c, pre ++ [(i, c)] <+: es ∧ t ∈ (g i).readings (fleetAfter g pre i) c
    ∧ (g i).nextId (fleetAfter g pre i) c = (.id m, ⟨t, n, false⟩)

/-- A call that returns an id makes it of what it read and what it left. -/
theorem exists_of_nextId {g : Snowflake} {s s' : SnowflakeState}
    (hs : s.waiting = false → IsSequence s.sequence) (hid : g.nextId s c = (.id m, s')) :
    s' = ⟨s'.lastTimestamp, s'.sequence, false⟩ ∧ s'.lastTimestamp ∈ g.readings s c
      ∧ IsSequence s'.sequence ∧ m = g.pack s'.lastTimestamp s'.sequence := by
  cases hw : s.waiting with
  | true =>
    rw [nextId_of_waiting hw] at hid
    cases hid
  | false =>
    have hstep := nextStep_nextId (g := g) hw (hs hw) c
    rw [hid] at hstep
    cases hstep with
    | later _ => exact ⟨rfl, timestamp_mem_readings hw, isSequence_zero, rfl⟩
    | next _ n hn _ => exact ⟨rfl, timestamp_mem_readings hw, hn, rfl⟩
    | waited hex t ht => exact ⟨rfl, otherReading_mem_readings hw hex ht, isSequence_zero, rfl⟩

theorem IssuedBy.pack_eq (hm : IssuedBy g es m i t n) :
    IsSequence n ∧ m = (g i).pack t n := by
  obtain ⟨pre, c, -, -, hid⟩ := hm
  exact (exists_of_nextId (isSequence_fleetAfter pre i) hid).2.2

theorem mem_fleetIds_iff_issuedBy :
    m ∈ fleetIds g es ↔ ∃ i t n, IssuedBy g es m i t n := by
  rw [mem_fleetIds_iff]
  constructor
  · rintro ⟨pre, i, c, s, hpre, hid⟩
    obtain ⟨hs, hread, -, -⟩ := exists_of_nextId (isSequence_fleetAfter pre i) hid
    refine ⟨i, s.lastTimestamp, s.sequence, pre, c, hpre, hread, ?_⟩
    rw [hid, ← hs]
  · rintro ⟨i, t, n, pre, c, hpre, -, hid⟩
    exact ⟨pre, i, c, _, hpre, hid⟩

/-- **An id tells where it is from**, in every run of any number of generators,
whatever their clocks do. To whoever reads it – with the epoch of whoever – it
tells the node id and the sequence number, and the time if the timestamp fits.
Ids whose timestamps fit are in the order of what they tell. -/
theorem ids_traceable (g : ι → Snowflake) (es : List (ι × Call)) :
    (∀ m, m ∈ fleetIds g es ↔ ∃ i t n, IssuedBy g es m i t n)
      ∧ (∀ m i t n, IssuedBy g es m i t n → ∀ h : Snowflake,
          (h.parse m).2 = ((g i).nodeId, n)
            ∧ ((h.parse m).1 = t + h.customEpoch ↔ FitsWord t))
      ∧ ∀ m i t n m' i' t' n', IssuedBy g es m i t n → IssuedBy g es m' i' t' n' →
          FitsWord t → FitsWord t' →
          (m < m' ↔ t < t' ∨ (t = t'
            ∧ ((g i).nodeId < (g i').nodeId ∨ ((g i).nodeId = (g i').nodeId ∧ n < n')))) := by
  refine ⟨fun m => mem_fleetIds_iff_issuedBy, fun m i t n hm h => ?_,
    fun m i t n m' i' t' n' hm hm' ht ht' => ?_⟩
  · obtain ⟨hn, rfl⟩ := hm.pack_eq
    exact parse_pack_of_other hn
  · obtain ⟨hn, rfl⟩ := hm.pack_eq
    obtain ⟨hn', rfl⟩ := hm'.pack_eq
    exact pack_lt_pack_iff_of_fitsWord ht hn ht' hn'

/-- The clock of one generator is behind. Its id comes later, and is the lower
one though its node id is the higher. -/
theorem ids_traceable_behind :
    (pack ⟨6, 0, by decide, by decide⟩ 3 0 < sample.pack 4 0
      ↔ (3 : Long) < 4
        ∨ ((3 : Long) = 4 ∧ ((6 : Long) < 5 ∨ ((6 : Long) = 5 ∧ (0 : Long) < 0)))) := by
  refine (ids_traceable (fun b : Bool => if b then sample else ⟨6, 0, by decide, by decide⟩)
    [(true, ⟨4, []⟩), (false, ⟨3, []⟩)]).2.2 _ false 3 0 _ true 4 0 ?_ ?_ (by decide) (by decide)
  · exact ⟨[(true, ⟨4, []⟩)], ⟨3, []⟩, List.prefix_refl _, by decide, rfl⟩
  · exact ⟨[], ⟨4, []⟩, List.prefix_append _ _, by decide, rfl⟩

end Fleet

end Snowflake
