import Chatroom.GaplessNumbering
import Chatroom.SnowflakeParse
import Chatroom.SnowflakeRuns

/-!
# The sequence numbers of a millisecond

The generator keeps one timestamp and one sequence number, and yet the ids of
every millisecond are numbered from 0 on without a gap. The fields of the state
say how far this has come (`Counts`): of the last timestamp there is one id more
than the sequence number tells, and of a later timestamp there is none.

A call that throws changes nothing of this. Nor does one that finds all 4096
numbers used up: it goes on to a timestamp it has read, or it does not return.
`readings` lists what a call reads.
-/

namespace Snowflake

open GaplessNumbering

/-! ## The fields of an id -/

/-- The timestamp of an id, as it stands in the word. -/
def timestampField (id : Long) : Long := id >>> (nodeIdBits + sequenceBits)

/-- The sequence number of an id. -/
def sequenceField (id : Long) : Long := id &&& maxSequence

variable {g : Snowflake} {s : SnowflakeState} {c : Call} {t n : Long}

/-- These are the fields that `parse` reads. -/
theorem parse_fields (id : Long) :
    (g.parse id).1 = timestampField id + g.customEpoch ∧ (g.parse id).2.2 = sequenceField id :=
  ⟨rfl, rfl⟩

theorem timestampField_pack (ht : InEpoch t) (hn : IsSequence n) :
    timestampField (g.pack t n) = t := by
  have hshift : (timestampField (g.pack t n)).toInt = (g.pack t n).toInt / 2 ^ 22 :=
    Int64.toInt_shiftRight _ (by decide)
  obtain ⟨hnode₀, hnode⟩ := g.nodeId_range
  obtain ⟨hn₀, hn'⟩ := isSequence_iff.mp hn
  rw [← Int64.toInt_inj, hshift, toInt_pack g ht hn]
  omega

theorem sequenceField_pack (hn : IsSequence n) : sequenceField (g.pack t n) = n :=
  congrArg Prod.snd (parse_pack_snd t hn)

/-! ## What a call reads of the clock -/

variable (g)

instance (s : SnowflakeState) (c : Call) : Decidable (g.Exhausted s c) :=
  inferInstanceAs (Decidable (_ ∧ _))

/-- **The timestamps a call reads**: one when it enters, and more if it has to
wait. A call that does not get in reads none. -/
def readings (s : SnowflakeState) (c : Call) : List Long :=
  if s.waiting then
    []
  else if g.Exhausted s c then
    g.timestamp c.now :: readingsTaken s.lastTimestamp (c.later.map g.timestamp)
  else
    [g.timestamp c.now]

/-- **The clock of a call** as it should be: what is read fits into 41 bits, and
no earlier time is read while waiting. It may have gone back before the call. -/
structure FairClock (s : SnowflakeState) (c : Call) : Prop where
  inEpoch : ∀ t ∈ g.readings s c, InEpoch t
  notBack : g.WaitsNotBack s c

variable {g}

theorem timestamp_mem_readings (hw : s.waiting = false) :
    g.timestamp c.now ∈ g.readings s c := by
  unfold readings
  rw [hw, if_neg Bool.false_ne_true]
  split
  · exact List.mem_cons_self
  · exact List.mem_singleton_self _

theorem otherReading_mem_readings (hw : s.waiting = false) (hex : g.Exhausted s c)
    (ht : g.otherReading s c = some t) : t ∈ g.readings s c := by
  rw [readings, hw, if_neg Bool.false_ne_true, if_pos hex]
  exact List.mem_cons_of_mem _ (mem_readingsTaken ht)

/-- **The next id of a state**: the first of a later timestamp, or one more of
the last. -/
def Continues (s : SnowflakeState) (t n : Long) : Prop :=
  (s.lastTimestamp < t ∧ n = 0)
    ∨ (t = s.lastTimestamp ∧ IsSequence n ∧ n.toInt = s.sequence.toInt + 1)

theorem Continues.isSequence (h : Continues s t n) : IsSequence n := by
  obtain ⟨-, rfl⟩ | ⟨-, hn, -⟩ := h
  · exact isSequence_zero
  · exact hn

/-- **A call returns the next id, of a timestamp it has read, or none.** -/
theorem nextId_continues (hw : s.waiting = false) (hs : IsSequence s.sequence)
    (hwait : g.WaitsNotBack s c) :
    (∃ t n, g.nextId s c = (.id (g.pack t n), ⟨t, n, false⟩) ∧ t ∈ g.readings s c
        ∧ Continues s t n)
      ∨ (g.nextId s c).1.id? = none
        ∧ ((g.nextId s c).2 = s ∨ (g.nextId s c).2.waiting = true) := by
  have hstep := nextStep_nextId (g := g) hw hs c
  generalize g.nextId s c = r at hstep
  cases hstep with
  | rollback h => exact Or.inr ⟨rfl, Or.inl rfl⟩
  | later h => exact Or.inl ⟨_, _, rfl, timestamp_mem_readings hw, Or.inl ⟨h, rfl⟩⟩
  | next h n hn hnext =>
    exact Or.inl ⟨_, _, rfl, timestamp_mem_readings hw, Or.inr ⟨h, hn, hnext⟩⟩
  | waited h t ht =>
    exact Or.inl ⟨_, _, rfl, otherReading_mem_readings hw h ht, Or.inl ⟨hwait.lt h t ht, rfl⟩⟩
  | waiting h ht => exact Or.inr ⟨rfl, Or.inr rfl⟩

/-! ## How far the numbering has come -/

/-- **The fields count the ids**: of the last timestamp, and of later ones. -/
structure Counts (s : SnowflakeState) (ms : List Long) : Prop where
  isSequence : IsSequence s.sequence
  /-- A new generator has given out no id of its timestamp, which is none. -/
  current : InEpoch s.lastTimestamp →
    (countOf timestampField ms s.lastTimestamp : Int) = s.sequence.toInt + 1
  fresh : ∀ t, s.lastTimestamp < t → countOf timestampField ms t = 0

variable {ms : List Long}

theorem counts_new : Counts .new [] where
  isSequence := isSequence_zero
  current h := absurd h (by decide)
  fresh _ _ := rfl

/-- The next id carries the number of those there are. -/
theorem Counts.countOf_eq (hs : Counts s ms) (ht : InEpoch t) (h : Continues s t n) :
    (countOf timestampField ms t : Int) = n.toInt := by
  obtain ⟨hlt, rfl⟩ | ⟨rfl, -, hnext⟩ := h
  · rw [hs.fresh t hlt]
    rfl
  · rw [hs.current ht, hnext]

/-- The new fields count the next id too. -/
theorem Counts.snoc (hs : Counts s ms) (ht : InEpoch t) (h : Continues s t n) :
    Counts ⟨t, n, false⟩ (ms ++ [g.pack t n]) := by
  have hn := h.isSequence
  have hfield : timestampField (g.pack t n) = t := timestampField_pack ht hn
  refine ⟨hn, fun _ => ?_, fun t' (hlt : t < t') => ?_⟩
  · show (countOf timestampField (ms ++ [g.pack t n]) t : Int) = n.toInt + 1
    rw [countOf_snoc_of_eq hfield, Nat.cast_add, hs.countOf_eq ht h, Nat.cast_one]
  · have hother : timestampField (g.pack t n) ≠ t' := by
      rw [hfield]
      exact Int64.ne_of_lt hlt
    have hle : s.lastTimestamp ≤ t := by
      obtain ⟨hlt, -⟩ | ⟨rfl, -⟩ := h
      · exact Int64.le_of_lt hlt
      · exact Int64.le_refl _
    rw [countOf_snoc_of_ne hother]
    exact hs.fresh t' (Int64.lt_of_le_of_lt hle hlt)

variable (g)

/-- **What holds after a list of calls**; the last part as long as none is
waiting. -/
structure NumberingInv (es : List Call) : Prop where
  gapless : Gapless timestampField sequenceField Int64.ofNat (g.ids es)
  countOf_le : ∀ t, countOf timestampField (g.ids es) t ≤ 4096
  counts : (g.stateAfter es).waiting = false → Counts (g.stateAfter es) (g.ids es)

variable {g} {pre : List Call}

theorem numberingInv_nil : g.NumberingInv [] where
  gapless := gapless_nil
  countOf_le _ := Nat.zero_le _
  counts _ := counts_new

/-- A call that returns no id, and leaves the fields as they are or waiting. -/
theorem NumberingInv.quiet (hinv : g.NumberingInv pre)
    (hid : (g.nextId (g.stateAfter pre) c).1.id? = none)
    (hstate : (g.nextId (g.stateAfter pre) c).2 = g.stateAfter pre
      ∨ (g.nextId (g.stateAfter pre) c).2.waiting = true) :
    g.NumberingInv (pre ++ [c]) := by
  have hids : g.ids (pre ++ [c]) = g.ids pre := ids_snoc_of_none hid
  refine ⟨hids ▸ hinv.gapless, hids ▸ hinv.countOf_le, fun hw => ?_⟩
  rw [stateAfter_snoc] at hw ⊢
  obtain hsame | hwait := hstate
  · rw [hsame] at hw ⊢
    exact hids ▸ hinv.counts hw
  · exact absurd (hwait.symm.trans hw) (by decide)

/-- A call that returns the next id. -/
theorem NumberingInv.continues (hinv : g.NumberingInv pre)
    (hw : (g.stateAfter pre).waiting = false)
    (hid : g.nextId (g.stateAfter pre) c = (.id (g.pack t n), ⟨t, n, false⟩))
    (ht : InEpoch t) (h : Continues (g.stateAfter pre) t n) : g.NumberingInv (pre ++ [c]) := by
  have hs := hinv.counts hw
  have hn := h.isSequence
  have hids : g.ids (pre ++ [c]) = g.ids pre ++ [g.pack t n] := ids_snoc_of_id hid
  have hfield : timestampField (g.pack t n) = t := timestampField_pack ht hn
  have hcount := hs.countOf_eq ht h
  have hmax := (isSequence_iff.mp hn).2
  refine ⟨?_, fun t' => ?_, fun _ => ?_⟩
  · rw [hids, gapless_snoc_iff hinv.gapless, sequenceField_pack hn, hfield, ← Int64.toInt_inj,
      Int64.toInt_ofNat_of_lt (by omega), hcount]
  · rw [hids]
    by_cases hk : t = t'
    · subst hk
      rw [countOf_snoc_of_eq hfield]
      omega
    · have hother : timestampField (g.pack t n) ≠ t' := by
        rw [hfield]
        exact hk
      rw [countOf_snoc_of_ne hother]
      exact hinv.countOf_le t'
  · rw [hids, stateAfter_snoc, hid]
    exact hs.snoc ht h

theorem NumberingInv.snoc (hinv : g.NumberingInv pre) (hc : g.FairClock (g.stateAfter pre) c) :
    g.NumberingInv (pre ++ [c]) := by
  cases hw : (g.stateAfter pre).waiting with
  | true =>
    have hblocked := nextId_of_waiting (g := g) (c := c) hw
    exact hinv.quiet (by rw [hblocked]; rfl) (Or.inl (by rw [hblocked]))
  | false =>
    obtain ⟨t, n, hid, hread, hnext⟩ | ⟨hid, hstate⟩ :=
      nextId_continues hw (hinv.counts hw).isSequence hc.notBack
    · exact hinv.continues hw hid (hc.inEpoch t hread) hnext
    · exact hinv.quiet hid hstate

/-- **The ids of each timestamp are numbered from 0 on, none left out and none
given twice, 4096 at most; and a call returns an id of a later timestamp only if
it has read a later one itself**, in every run in which the clock is as it should
be at each call. -/
theorem ids_numbered (g : Snowflake) (es : List Call)
    (hclock : ∀ pre c, pre ++ [c] <+: es → g.FairClock (g.stateAfter pre) c) :
    (∀ t, ∃ k ≤ 4096, ((g.ids es).filter (fun m => timestampField m = t)).map sequenceField
        = (List.range k).map Int64.ofNat)
      ∧ ∀ pre c m s, pre ++ [c] <+: es → g.nextId (g.stateAfter pre) c = (.id m, s) →
          ∀ t, t < timestampField m → ∃ t' ∈ g.readings (g.stateAfter pre) c, t < t' := by
  have hinv : ∀ pre, pre <+: es → g.NumberingInv pre :=
    forall_prefix_of_step numberingInv_nil (fun pre c _ h hc => h.snoc hc) hclock
  constructor
  · intro t
    obtain ⟨hgapless, hle, -⟩ := hinv es (List.prefix_refl es)
    exact ⟨countOf timestampField (g.ids es) t, hle t, hgapless t⟩
  · intro pre c m s hpre hid t hlt
    have hbefore := hinv pre (before_of_step hpre)
    cases hw : (g.stateAfter pre).waiting with
    | true =>
      rw [nextId_of_waiting hw] at hid
      cases hid
    | false =>
      obtain ⟨t', n, hret, hread, hnext⟩ | ⟨hnone, -⟩ :=
        nextId_continues hw (hbefore.counts hw).isSequence (hclock pre c hpre).notBack
      · rw [hid] at hret
        obtain ⟨hm, -⟩ := Prod.mk.inj hret
        cases hm
        rw [timestampField_pack ((hclock pre c hpre).inEpoch t' hread) hnext.isSequence] at hlt
        exact ⟨t', hread, hlt⟩
      · rw [hid] at hnone
        cases hnone

theorem fairClock_of_later_nil {now : Long} (h : InEpoch (g.timestamp now)) :
    g.FairClock s ⟨now, []⟩ := by
  refine ⟨fun t ht => ?_, fun _ t ht => absurd ht List.not_mem_nil⟩
  unfold readings at ht
  split at ht
  · exact absurd ht List.not_mem_nil
  · have hnow : t = g.timestamp now := by
      split at ht <;> exact List.mem_singleton.mp ht
    rw [hnow]
    exact h

/-- All numbers of a millisecond are used up, and a call waits for the next. -/
theorem ids_numbered_busy :
    ∃ k ≤ 4096, ((sample.ids (busy 4096 ++ [⟨1, [1, 2]⟩])).filter
        (fun m => timestampField m = 1)).map sequenceField = (List.range k).map Int64.ofNat := by
  have hstate : sample.stateAfter (busy 4096) = ⟨1, 4095, false⟩ :=
    stateAfter_busy (k := 4095) (by decide)
  refine (ids_numbered sample _ (fun pre c hpre => ?_)).1 1
  obtain hlast | hbefore := List.prefix_concat_iff.mp hpre
  · obtain ⟨rfl, hc⟩ := List.append_inj' hlast rfl
    obtain rfl := List.singleton_inj.mp hc
    have hread : sample.readings ⟨1, 4095, false⟩ ⟨1, [1, 2]⟩ = [1, 1, 2] := by decide
    have hwait : readingsTaken 1 ([1, 2].map sample.timestamp) = [1, 2] := by decide
    rw [hstate]
    refine ⟨?_, fun _ => ?_⟩
    · rw [hread, List.forall_mem_cons, List.forall_mem_cons, List.forall_mem_singleton]
      decide
    · show ∀ t ∈ readingsTaken 1 ([1, 2].map sample.timestamp), 1 ≤ t
      rw [hwait, List.forall_mem_cons, List.forall_mem_singleton]
      decide
  · obtain rfl | hc := List.mem_cons.mp (mem_of_step hbefore)
    · exact fairClock_of_later_nil (by decide)
    · rw [List.eq_of_mem_replicate hc]
      exact fairClock_of_later_nil (by decide)

end Snowflake
