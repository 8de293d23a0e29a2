import Chatroom.PrefixInduction
import Chatroom.Snowflake
import Mathlib.Logic.Function.Basic

/-!
# Runs of the id generator

Between two ids of one generator the pair of timestamp and sequence number goes
up: the sequence number while the clock stands still, the timestamp when it
moves on. A clock that went back is noticed when `nextId` enters. It is not
noticed while `nextId` waits for the next millisecond, since the loop asks for
*another* millisecond and not for a later one.

`soundRun_iff` is the exact condition for one generator: its ids increase, and
it throws or returns each time, exactly if every call that has to wait comes to
read another timestamp, and the first such is later. `fleetIds_nodup` is about
any number of generators with different node ids: where no waiting call reads
an earlier time, no id is given out twice.
-/

namespace Snowflake

variable (g : Snowflake)

/-! ## What a call can do -/

/-- The timestamps a waiting call reads: up to the first that is not the last
timestamp. -/
def readingsTaken (lastTimestamp : Long) : List Long → List Long
  | [] => []
  | t :: ts => if t = lastTimestamp then t :: readingsTaken lastTimestamp ts else [t]

/-- The timestamp that ends the waiting of a call, if there is one. -/
def otherReading (s : SnowflakeState) (c : Call) : Option Long :=
  (c.later.map g.timestamp).find? (· ≠ s.lastTimestamp)

/-- A call finds the sequence numbers of its timestamp used up. -/
def Exhausted (s : SnowflakeState) (c : Call) : Prop :=
  g.timestamp c.now = s.lastTimestamp ∧ s.sequence = maxSequence

/-- **A waiting call gets on**: it comes to read another timestamp, and that is
a later one. -/
def WaitsForward (s : SnowflakeState) (c : Call) : Prop :=
  g.Exhausted s c → ∃ t, g.otherReading s c = some t ∧ s.lastTimestamp < t

/-- **A waiting call reads no earlier time.** -/
def WaitsNotBack (s : SnowflakeState) (c : Call) : Prop :=
  g.Exhausted s c →
    ∀ t ∈ readingsTaken s.lastTimestamp (c.later.map g.timestamp), s.lastTimestamp ≤ t

/-- All readings of a call are within the 41 bits of a timestamp. -/
def InBudget (c : Call) : Prop :=
  InEpoch (g.timestamp c.now) ∧ ∀ now ∈ c.later, InEpoch (g.timestamp now)

instance (c : Call) : Decidable (g.InBudget c) :=
  @instDecidableAnd _ _ _ (List.decidableBAll _ _)

variable {g}

theorem waitNextMillis_of_ne {last t : Long} (h : t ≠ last) (later : List Long) :
    g.waitNextMillis last t later = some t := by
  cases later with
  | nil => rw [waitNextMillis, if_neg h]
  | cons now later => rw [waitNextMillis, if_neg h]

/-- **The loop ends at the first reading that is not the last timestamp.** -/
theorem waitNextMillis_self (last : Long) (later : List Long) :
    g.waitNextMillis last last later = (later.map g.timestamp).find? (· ≠ last) := by
  induction later with
  | nil => rw [waitNextMillis, if_pos rfl, List.map_nil, List.find?_nil]
  | cons now later ih =>
    rw [waitNextMillis, if_pos rfl, List.map_cons]
    by_cases h : g.timestamp now = last
    · rw [h, ih, List.find?_cons_of_neg (by simp)]
    · rw [waitNextMillis_of_ne h, List.find?_cons_of_pos (by simpa using h)]

theorem mem_readingsTaken {last t : Long} {ts : List Long} (h : ts.find? (· ≠ last) = some t) :
    t ∈ readingsTaken last ts := by
  induction ts with
  | nil => exact absurd h (by simp)
  | cons t' ts ih =>
    rw [readingsTaken]
    by_cases ht : t' = last
    · rw [List.find?_cons_of_neg (by simpa using ht)] at h
      rw [if_pos ht]
      exact List.mem_cons_of_mem _ (ih h)
    · rw [List.find?_cons_of_pos (by simpa using ht)] at h
      rw [if_neg ht, Option.some.inj h]
      exact List.mem_singleton_self t

variable {s s' : SnowflakeState} {c : Call}

theorem waitNextMillis_eq_otherReading :
    g.waitNextMillis s.lastTimestamp s.lastTimestamp c.later = g.otherReading s c :=
  waitNextMillis_self s.lastTimestamp c.later

theorem otherReading_ne {t : Long} (h : g.otherReading s c = some t) : t ≠ s.lastTimestamp := by
  simpa using List.find?_some h

theorem InBudget.otherReading (hc : g.InBudget c) {t : Long} (h : g.otherReading s c = some t) :
    InEpoch t := by
  obtain ⟨now, hnow, rfl⟩ := List.mem_map.mp (List.mem_of_find?_eq_some h)
  exact hc.2 now hnow

theorem WaitsForward.lt (h : g.WaitsForward s c) :
    g.Exhausted s c → ∀ t, g.otherReading s c = some t → s.lastTimestamp < t := by
  intro hex t ht
  obtain ⟨t', ht', hlt⟩ := h hex
  obtain rfl := Option.some.inj (ht.symm.trans ht')
  exact hlt

theorem WaitsNotBack.lt (h : g.WaitsNotBack s c) :
    g.Exhausted s c → ∀ t, g.otherReading s c = some t → s.lastTimestamp < t := by
  intro hex t ht
  have hle := h hex t (mem_readingsTaken ht)
  exact Int64.lt_of_le_of_ne hle (otherReading_ne ht).symm

/-- **The five things a call can do**, when no other is waiting. -/
inductive NextStep (g : Snowflake) (s : SnowflakeState) (c : Call) :
    Result × SnowflakeState → Prop
  /-- The clock went back. -/
  | rollback (h : g.timestamp c.now < s.lastTimestamp) :
      NextStep g s c (.illegalStateException "Invalid System Clock!", s)
  /-- The clock moved on. -/
  | later (h : s.lastTimestamp < g.timestamp c.now) :
      NextStep g s c (.id (g.pack (g.timestamp c.now) 0), ⟨g.timestamp c.now, 0, false⟩)
  /-- The clock stood still, and there is another sequence number. -/
  | next (h : g.timestamp c.now = s.lastTimestamp) (n : Long) (hn : IsSequence n)
      (hnext : n.toInt = s.sequence.toInt + 1) :
      NextStep g s c (.id (g.pack (g.timestamp c.now) n), ⟨g.timestamp c.now, n, false⟩)
  /-- There was none, and the call waited. -/
  | waited (h : g.Exhausted s c) (t : Long) (ht : g.otherReading s c = some t) :
      NextStep g s c (.id (g.pack t 0), ⟨t, 0, false⟩)
  /-- There was none, and the call is waiting. -/
  | waiting (h : g.Exhausted s c) (ht : g.otherReading s c = none) :
      NextStep g s c (.waiting, ⟨s.lastTimestamp, 0, true⟩)

theorem toInt_maxSequence : maxSequence.toInt = 4095 := by decide

/-- **The sequence number counts modulo 4096.** -/
theorem toInt_succ_and_maxSequence {n : Long} (hn : IsSequence n) :
    ((n + 1) &&& maxSequence).toInt = (n.toInt + 1) % 2 ^ 12 := by
  obtain ⟨hn₀, hn⟩ := isSequence_iff.mp hn
  rw [show maxSequence = Int64.mask 12 from rfl, Int64.toInt_and_mask _ (by decide),
    Int64.toInt_add, show (1 : Int64).toInt = 1 from rfl,
    Int.bmod_eq_of_le (by omega) (by omega)]

/-- It comes back to 0 after the last one. -/
theorem succ_and_maxSequence_eq_zero {n : Long} (hn : IsSequence n)
    (hzero : (n + 1) &&& maxSequence = 0) : n = maxSequence := by
  have hseq := toInt_succ_and_maxSequence hn
  obtain ⟨hn₀, hn⟩ := isSequence_iff.mp hn
  rw [hzero, show (0 : Int64).toInt = 0 from rfl] at hseq
  rw [← Int64.toInt_inj, toInt_maxSequence]
  omega

/-- It goes up by one before. -/
theorem toInt_succ_of_ne_zero {n : Long} (hn : IsSequence n)
    (hne : (n + 1) &&& maxSequence ≠ 0) :
    ((n + 1) &&& maxSequence).toInt = n.toInt + 1 ∧ IsSequence ((n + 1) &&& maxSequence) := by
  have hseq := toInt_succ_and_maxSequence hn
  obtain ⟨hn₀, hn⟩ := isSequence_iff.mp hn
  have hpos : ((n + 1) &&& maxSequence).toInt ≠ 0 := fun h => hne (Int64.toInt_inj.mp h)
  rw [isSequence_iff]
  omega

/-- **A call does one of the five things.** -/
theorem nextStep_nextId (hw : s.waiting = false) (hs : IsSequence s.sequence) (c : Call) :
    NextStep g s c (g.nextId s c) := by
  unfold nextId
  rw [hw, if_neg Bool.false_ne_true]
  by_cases hback : g.timestamp c.now < s.lastTimestamp
  · rw [if_pos hback]
    exact .rollback hback
  rw [if_neg hback]
  by_cases hsame : g.timestamp c.now = s.lastTimestamp
  · rw [if_pos hsame]
    by_cases hzero : (s.sequence + 1) &&& maxSequence = 0
    · have hex : g.Exhausted s c := ⟨hsame, succ_and_maxSequence_eq_zero hs hzero⟩
      simp only [hzero, if_true, hsame, waitNextMillis_eq_otherReading]
      cases ht : g.otherReading s c with
      | none => exact .waiting hex ht
      | some t => exact .waited hex t ht
    · obtain ⟨hnext, hn⟩ := toInt_succ_of_ne_zero hs hzero
      simp only [if_neg hzero]
      exact .next hsame _ hn hnext
  · rw [if_neg hsame]
    exact .later (Int64.lt_of_le_of_ne (Int64.not_lt.mp hback) (Ne.symm hsame))

/-! ## What was given out -/

/-- **An id that may have been given out**: it is made of a timestamp and a
sequence number, and they come no later than those of the state – unless a call
is waiting, and no further id is given out anyway. -/
def Issued (g : Snowflake) (s : SnowflakeState) (m : Long) : Prop :=
  ∃ t n, InEpoch t ∧ IsSequence n ∧ m = g.pack t n
    ∧ (s.waiting = false → t < s.lastTimestamp ∨ (t = s.lastTimestamp ∧ n ≤ s.sequence))

/-- **A call that returned moved on**: its id is that of the new state, which
comes after the old one. -/
structure MovesTo (g : Snowflake) (s : SnowflakeState) (m : Long) (s' : SnowflakeState) :
    Prop where
  id_eq : m = g.pack s'.lastTimestamp s'.sequence
  inEpoch : InEpoch s'.lastTimestamp
  isSequence : IsSequence s'.sequence
  not_waiting : s'.waiting = false
  lt : s.lastTimestamp < s'.lastTimestamp
    ∨ (s.lastTimestamp = s'.lastTimestamp ∧ s.sequence < s'.sequence)

/-- To the first id of a later timestamp. -/
theorem movesTo_of_lt {t : Long} (ht : InEpoch t) (h : s.lastTimestamp < t) :
    MovesTo g s (g.pack t 0) ⟨t, 0, false⟩ :=
  ⟨rfl, ht, isSequence_zero, rfl, Or.inl h⟩

/-- To the next id of the last timestamp. -/
theorem movesTo_of_eq {t n : Long} (ht : InEpoch t) (h : t = s.lastTimestamp)
    (hn : IsSequence n) (hnext : n.toInt = s.sequence.toInt + 1) :
    MovesTo g s (g.pack t n) ⟨t, n, false⟩ := by
  have hlt : s.sequence < n := by
    rw [Int64.lt_iff_toInt_lt, hnext]
    exact Int.lt_succ _
  exact ⟨rfl, ht, hn, rfl, Or.inr ⟨h.symm, hlt⟩⟩

/-- **Each call throws, moves on or waits**, if a waiting call reads no earlier
time. -/
theorem nextId_cases (hw : s.waiting = false) (hs : IsSequence s.sequence) (hc : g.InBudget c)
    (hforward : g.Exhausted s c → ∀ t, g.otherReading s c = some t → s.lastTimestamp < t) :
    g.nextId s c = (.illegalStateException "Invalid System Clock!", s)
      ∨ (∃ m s', g.nextId s c = (.id m, s') ∧ MovesTo g s m s')
      ∨ g.Exhausted s c ∧ g.otherReading s c = none
        ∧ g.nextId s c = (.waiting, ⟨s.lastTimestamp, 0, true⟩) := by
  have hstep := nextStep_nextId (g := g) hw hs c
  generalize g.nextId s c = r at hstep
  cases hstep with
  | rollback h => exact Or.inl rfl
  | later h => exact Or.inr (Or.inl ⟨_, _, rfl, movesTo_of_lt hc.1 h⟩)
  | next h n hn hnext => exact Or.inr (Or.inl ⟨_, _, rfl, movesTo_of_eq hc.1 h hn hnext⟩)
  | waited h t ht =>
    exact Or.inr (Or.inl ⟨_, _, rfl, movesTo_of_lt (hc.otherReading ht) (hforward h t ht)⟩)
  | waiting h ht => exact Or.inr (Or.inr ⟨h, ht, rfl⟩)

/-- What was given out comes before the next id. -/
theorem Issued.lt {m m' : Long} (hm : g.Issued s m) (hw : s.waiting = false)
    (hmove : MovesTo g s m' s') : m < m' := by
  obtain ⟨t, n, ht, hn, rfl, hle⟩ := hm
  rw [hmove.id_eq, pack_lt_pack_iff g ht hn hmove.inEpoch hmove.isSequence]
  have hlt := hmove.lt
  simp only [Int64.lt_iff_toInt_lt, Int64.le_iff_toInt_le, ← Int64.toInt_inj] at hle hlt ⊢
  have hle := hle hw
  omega

/-- What was given out stays given out. -/
theorem Issued.moves {m m' : Long} (hm : g.Issued s m) (hw : s.waiting = false)
    (hmove : MovesTo g s m' s') : g.Issued s' m := by
  obtain ⟨t, n, ht, hn, rfl, hle⟩ := hm
  refine ⟨t, n, ht, hn, rfl, fun _ => ?_⟩
  have hlt := hmove.lt
  simp only [Int64.lt_iff_toInt_lt, Int64.le_iff_toInt_le, ← Int64.toInt_inj] at hle hlt ⊢
  have hle := hle hw
  omega

/-- The id of a move is given out. -/
theorem MovesTo.issued {m : Long} (hmove : MovesTo g s m s') : g.Issued s' m :=
  ⟨_, _, hmove.inEpoch, hmove.isSequence, hmove.id_eq, fun _ => Or.inr ⟨rfl, Int64.le_refl _⟩⟩

/-! ## One generator -/

variable (g)

/-- The fields of a generator after a list of calls. -/
def stateAfter (es : List Call) : SnowflakeState := StepMachine.after g.nextId .new es

/-- The ids a generator returned, in order. -/
def ids (es : List Call) : List Long :=
  (StepMachine.answers g.nextId .new es).filterMap Result.id?

/-- **A call keeps its promise** after a list of calls: it throws and changes
nothing, or it returns an id above all before. -/
def CallSound (pre : List Call) (c : Call) : Prop :=
  match g.nextId (g.stateAfter pre) c with
  | (.illegalStateException _, s) => s = g.stateAfter pre
  | (.id m, _) => ∀ m' ∈ g.ids pre, m' < m
  | (.waiting, _) => False

/-- **A run keeps its promises**: every call does, and no id is given out
twice. -/
def SoundRun (es : List Call) : Prop :=
  (∀ pre c, pre ++ [c] <+: es → g.CallSound pre c) ∧ (g.ids es).Nodup

/-- What holds of a generator whose calls have kept their promises. -/
structure RunInv (es : List Call) : Prop where
  not_waiting : (g.stateAfter es).waiting = false
  isSequence : IsSequence (g.stateAfter es).sequence
  issued : ∀ m ∈ g.ids es, g.Issued (g.stateAfter es) m
  /-- The fields are those of a new generator, or of the last id. -/
  last : g.stateAfter es = .new ∨ (InEpoch (g.stateAfter es).lastTimestamp
    ∧ g.pack (g.stateAfter es).lastTimestamp (g.stateAfter es).sequence ∈ g.ids es)
  increasing : (g.ids es).Pairwise (· < ·)

variable {g} {es pre : List Call}

theorem stateAfter_snoc : g.stateAfter (es ++ [c]) = (g.nextId (g.stateAfter es) c).2 :=
  StepMachine.after_snoc _ _ _ _

theorem ids_snoc :
    g.ids (es ++ [c]) = g.ids es ++ (g.nextId (g.stateAfter es) c).1.id?.toList := by
  unfold ids
  rw [StepMachine.answers_snoc, List.filterMap_append]
  show _ ++ [(g.nextId (g.stateAfter es) c).1].filterMap Result.id? = _
  cases (g.nextId (g.stateAfter es) c).1 <;> rfl

/-- A call that returns no id gives out none. -/
theorem ids_snoc_of_none (h : (g.nextId (g.stateAfter es) c).1.id? = none) :
    g.ids (es ++ [c]) = g.ids es := by
  rw [ids_snoc, h]
  exact List.append_nil _

/-- A call that returns one gives it out. -/
theorem ids_snoc_of_id {m : Long} (h : g.nextId (g.stateAfter es) c = (.id m, s')) :
    g.ids (es ++ [c]) = g.ids es ++ [m] := by
  rw [ids_snoc, h]
  rfl

theorem runInv_nil : g.RunInv [] where
  not_waiting := rfl
  isSequence := isSequence_zero
  issued _ hm := absurd hm List.not_mem_nil
  last := Or.inl rfl
  increasing := List.Pairwise.nil

/-- **A call keeps its promise exactly if, having to wait, it gets on.** -/
theorem callSound_iff (hinv : g.RunInv pre) (hc : g.InBudget c) :
    g.CallSound pre c ↔ g.WaitsForward (g.stateAfter pre) c := by
  obtain ⟨hw, hs, hissued, hlast, -⟩ := hinv
  have hstep := nextStep_nextId (g := g) hw hs c
  -- a call that does not find the numbers used up has nothing to wait for
  have hfree : ¬ g.Exhausted (g.stateAfter pre) c → g.WaitsForward (g.stateAfter pre) c :=
    fun hno hex => absurd hex hno
  unfold CallSound
  generalize g.nextId (g.stateAfter pre) c = r at hstep
  cases hstep with
  | rollback h =>
    refine iff_of_true rfl (hfree (fun hex => ?_))
    exact absurd hex.1 (Int64.ne_of_lt h)
  | later h =>
    have hmove := movesTo_of_lt (g := g) hc.1 h
    refine iff_of_true (fun m hm => (hissued m hm).lt hw hmove) (hfree (fun hex => ?_))
    exact absurd hex.1.symm (Int64.ne_of_lt h)
  | next h n hn hnext =>
    have hmove := movesTo_of_eq (g := g) hc.1 h hn hnext
    refine iff_of_true (fun m hm => (hissued m hm).lt hw hmove) (hfree (fun hex => ?_))
    rw [hex.2, toInt_maxSequence] at hnext
    have hlt := (isSequence_iff.mp hn).2
    omega
  | waited h t ht =>
    constructor
    · intro hsound _
      refine ⟨t, ht, ?_⟩
      obtain hnew | ⟨hepoch, hmem⟩ := hlast
      · exact absurd (congrArg SnowflakeState.sequence hnew ▸ h.2) (by decide)
      · -- the last id was given out, and the new one is above it
        have hlt := hsound _ hmem
        rw [pack_lt_pack_iff g hepoch hs (hc.otherReading ht) isSequence_zero] at hlt
        exact hlt.resolve_right (fun heq => otherReading_ne ht heq.1.symm)
    · intro hforward m hm
      have hmove := movesTo_of_lt (g := g) (hc.otherReading ht) (hforward.lt h t ht)
      exact (hissued m hm).lt hw hmove
  | waiting h ht =>
    refine iff_of_false id (fun hforward => ?_)
    obtain ⟨t, ht', -⟩ := hforward h
    exact absurd (ht.symm.trans ht') (by simp)

/-- **A call that gets on keeps what holds.** -/
theorem RunInv.snoc (hinv : g.RunInv pre) (hc : g.InBudget c)
    (hforward : g.WaitsForward (g.stateAfter pre) c) : g.RunInv (pre ++ [c]) := by
  obtain hthrow | ⟨m, s', hid, hmove⟩ | ⟨hex, hnone, -⟩ :=
    nextId_cases hinv.not_waiting hinv.isSequence hc hforward.lt
  · have hstate : g.stateAfter (pre ++ [c]) = g.stateAfter pre := by rw [stateAfter_snoc, hthrow]
    have hids : g.ids (pre ++ [c]) = g.ids pre := ids_snoc_of_none (by rw [hthrow]; rfl)
    refine ⟨?_, ?_, ?_, ?_, ?_⟩ <;> simp only [hstate, hids]
    · exact hinv.not_waiting
    · exact hinv.isSequence
    · exact hinv.issued
    · exact hinv.last
    · exact hinv.increasing
  · have hstate : g.stateAfter (pre ++ [c]) = s' := by rw [stateAfter_snoc, hid]
    have hids : g.ids (pre ++ [c]) = g.ids pre ++ [m] := ids_snoc_of_id hid
    refine ⟨?_, ?_, ?_, ?_, ?_⟩ <;> simp only [hstate, hids]
    · exact hmove.not_waiting
    · exact hmove.isSequence
    · intro m' hm'
      obtain hm' | hm' := List.mem_append.mp hm'
      · exact (hinv.issued m' hm').moves hinv.not_waiting hmove
      · rw [List.mem_singleton.mp hm']
        exact hmove.issued
    · refine Or.inr ⟨hmove.inEpoch, ?_⟩
      rw [← hmove.id_eq]
      exact List.mem_append_right _ (List.mem_singleton_self m)
    · refine List.pairwise_append.mpr ⟨hinv.increasing, List.pairwise_singleton _ _, ?_⟩
      intro m' hm' m'' hm''
      rw [List.mem_singleton.mp hm'']
      exact (hinv.issued m' hm').lt hinv.not_waiting hmove
  · obtain ⟨t, ht, -⟩ := hforward hex
    exact absurd (hnone.symm.trans ht) (by simp)

/-- **A run keeps its promises exactly if every call of it that has to wait gets
on**, all readings being within the 41 bits of a timestamp. -/
theorem soundRun_iff (g : Snowflake) (es : List Call) (hbudget : ∀ c ∈ es, g.InBudget c) :
    g.SoundRun es ↔ ∀ pre c, pre ++ [c] <+: es → g.WaitsForward (g.stateAfter pre) c := by
  have hmem : ∀ pre c, pre ++ [c] <+: es → g.InBudget c :=
    fun pre c hpre => hbudget c (mem_of_step hpre)
  constructor
  · intro hsound
    have hinv : ∀ pre, pre <+: es → g.RunInv pre :=
      forall_prefix_of_step runInv_nil
        (fun pre c hpre h hcall =>
          h.snoc (hmem pre c hpre) ((callSound_iff h (hmem pre c hpre)).mp hcall))
        hsound.1
    intro pre c hpre
    have hbefore := hinv pre ((List.prefix_append pre [c]).trans hpre)
    exact (callSound_iff hbefore (hmem pre c hpre)).mp (hsound.1 pre c hpre)
  · intro hforward
    have hinv : ∀ pre, pre <+: es → g.RunInv pre :=
      forall_prefix_of_step runInv_nil (fun pre c hpre h hcall => h.snoc (hmem pre c hpre) hcall)
        hforward
    refine ⟨fun pre c hpre => ?_, (hinv es (List.prefix_refl es)).increasing.imp Int64.ne_of_lt⟩
    have hbefore := hinv pre ((List.prefix_append pre [c]).trans hpre)
    exact (callSound_iff hbefore (hmem pre c hpre)).mpr (hforward pre c hpre)

/-- A generator with node id 5, for the examples. -/
def sample : Snowflake := ⟨5, 0, by decide, by decide⟩

/-- Two calls in one millisecond. -/
theorem soundRun_sample : sample.SoundRun [⟨3, []⟩, ⟨3, []⟩] := by
  refine (soundRun_iff sample _ (by decide)).mpr ?_
  simp only [forall_step_cons, forall_step_nil, and_true]
  exact ⟨fun hex => absurd hex.2 (by decide), fun hex => absurd hex.2 (by decide)⟩

/-- One call in one millisecond and `k` calls in the next. -/
def busy (k : ℕ) : List Call := ⟨0, []⟩ :: List.replicate k ⟨1, []⟩

/-- The calls in the second millisecond count up. -/
theorem stateAfter_busy {k : ℕ} (hk : k < 4096) :
    sample.stateAfter (busy (k + 1)) = ⟨1, Int64.ofNat k, false⟩ := by
  induction k with
  | zero => decide
  | succ k ih =>
    have hk' : k < 4096 := by omega
    have hseq : (Int64.ofNat k).toInt = k := Int64.toInt_ofNat_of_lt (by omega)
    have hsnoc : busy (k + 1 + 1) = busy (k + 1) ++ [⟨1, []⟩] := by
      rw [busy, List.replicate_succ', ← List.cons_append]
      rfl
    rw [hsnoc, stateAfter_snoc, ih hk']
    have hfits : IsSequence (Int64.ofNat k) := by
      rw [isSequence_iff, hseq]
      omega
    have hstep :=
      nextStep_nextId (g := sample) (s := ⟨1, Int64.ofNat k, false⟩) rfl hfits ⟨1, []⟩
    have hfree : ¬ sample.Exhausted ⟨1, Int64.ofNat k, false⟩ ⟨1, []⟩ := by
      intro hex
      have hmax := congrArg Int64.toInt hex.2
      rw [toInt_maxSequence, hseq] at hmax
      omega
    generalize sample.nextId ⟨1, Int64.ofNat k, false⟩ ⟨1, []⟩ = r at hstep ⊢
    cases hstep with
    | rollback h => exact absurd h (show ¬ sample.timestamp 1 < 1 by decide)
    | later h => exact absurd h (show ¬ 1 < sample.timestamp 1 by decide)
    | next h n hn hnext =>
      have hn' : n = Int64.ofNat (k + 1) := by
        rw [← Int64.toInt_inj, hnext, hseq, Int64.toInt_ofNat_of_lt (by omega)]
        rfl
      rw [hn']
      rfl
    | waited h => exact absurd h hfree
    | waiting h => exact absurd h hfree

/-- The id of the first millisecond was given out. -/
theorem mem_ids_busy (k : ℕ) : sample.pack 0 0 ∈ sample.ids (busy k) := by
  have hpre : [(⟨0, []⟩ : Call)] <+: busy k := List.prefix_append _ _
  refine ((StepMachine.answers_prefix sample.nextId .new hpre).filterMap Result.id?).subset ?_
  decide

/-- After 4096 calls in the second millisecond its numbers are used up. -/
theorem exists_stateAfter_busy : ∃ k, sample.stateAfter (busy k) = ⟨1, 4095, false⟩ :=
  ⟨4096, stateAfter_busy (k := 4095) (by decide)⟩

/-- All numbers of a millisecond are used up, and the call that waits for the
next one is put back to the one before: it returns an id given out then. -/
theorem not_soundRun :
    ¬ ∀ (g : Snowflake) (es : List Call), (∀ c ∈ es, g.InBudget c) → g.SoundRun es := by
  intro h
  obtain ⟨k, hstate⟩ := exists_stateAfter_busy
  have hbudget : ∀ c ∈ busy k ++ [⟨1, [0]⟩], sample.InBudget c := by
    intro c hc
    obtain hc | hc := List.mem_append.mp hc
    · obtain rfl | hc := List.mem_cons.mp hc
      · decide
      · rw [List.eq_of_mem_replicate hc]
        decide
    · rw [List.mem_singleton.mp hc]
      decide
  have hcall : sample.CallSound (busy k) ⟨1, [0]⟩ :=
    (h sample _ hbudget).1 (busy k) _ (List.prefix_refl _)
  have hlast : sample.nextId ⟨1, 4095, false⟩ ⟨1, [0]⟩
      = (.id (sample.pack 0 0), ⟨0, 0, false⟩) := by decide
  rw [CallSound, hstate, hlast] at hcall
  exact Int64.lt_irrefl (hcall _ (mem_ids_busy k))

/-! ## Several generators -/

section Fleet

variable {ι : Type*} [DecidableEq ι]

/-- **Generators side by side**: each call is made to one of them. -/
def fleet (g : ι → Snowflake) : StepMachine (ι × Call) Result (ι → SnowflakeState) :=
  fun st p => (((g p.1).nextId (st p.1) p.2).1,
    Function.update st p.1 ((g p.1).nextId (st p.1) p.2).2)

/-- The fields of the generators after a list of calls. -/
def fleetAfter (g : ι → Snowflake) (es : List (ι × Call)) : ι → SnowflakeState :=
  (fleet g).after (fun _ => .new) es

/-- The ids the generators returned, in order. -/
def fleetIds (g : ι → Snowflake) (es : List (ι × Call)) : List Long :=
  ((fleet g).answers (fun _ => .new) es).filterMap Result.id?

/-- What holds of the generators. -/
structure FleetInv (g : ι → Snowflake) (es : List (ι × Call)) : Prop where
  isSequence : ∀ i, (fleetAfter g es i).waiting = false →
    IsSequence (fleetAfter g es i).sequence
  issued : ∀ m ∈ fleetIds g es, ∃ i, (g i).Issued (fleetAfter g es i) m
  nodup : (fleetIds g es).Nodup

variable {g : ι → Snowflake} {pre : List (ι × Call)} {i : ι}

theorem fleetAfter_snoc :
    fleetAfter g (pre ++ [(i, c)])
      = Function.update (fleetAfter g pre) i ((g i).nextId (fleetAfter g pre i) c).2 :=
  StepMachine.after_snoc _ _ _ _

theorem fleetIds_snoc :
    fleetIds g (pre ++ [(i, c)])
      = fleetIds g pre ++ ((g i).nextId (fleetAfter g pre i) c).1.id?.toList := by
  unfold fleetIds
  rw [StepMachine.answers_snoc, List.filterMap_append]
  show _ ++ [((g i).nextId (fleetAfter g pre i) c).1].filterMap Result.id? = _
  cases ((g i).nextId (fleetAfter g pre i) c).1 <;> rfl

theorem fleetIds_snoc_of_none (h : ((g i).nextId (fleetAfter g pre i) c).1.id? = none) :
    fleetIds g (pre ++ [(i, c)]) = fleetIds g pre := by
  rw [fleetIds_snoc, h]
  exact List.append_nil _

theorem fleetIds_snoc_of_id {m : Long} (h : (g i).nextId (fleetAfter g pre i) c = (.id m, s')) :
    fleetIds g (pre ++ [(i, c)]) = fleetIds g pre ++ [m] := by
  rw [fleetIds_snoc, h]
  rfl

theorem nextId_of_waiting {g : Snowflake} (hw : s.waiting = true) :
    g.nextId s c = (.waiting, s) := by
  rw [nextId, if_pos hw]

/-- An id of another generator, or of this one earlier, is not the next id. -/
theorem Issued.ne {j : ι} {m m' : Long} (hinj : Function.Injective fun i => (g i).nodeId)
    (hm : (g j).Issued (fleetAfter g pre j) m) (hw : (fleetAfter g pre i).waiting = false)
    (hmove : MovesTo (g i) (fleetAfter g pre i) m' s') : m ≠ m' := by
  by_cases hij : j = i
  · subst hij
    exact Int64.ne_of_lt (hm.lt hw hmove)
  · rintro rfl
    obtain ⟨t, n, ht, hn, hpack, -⟩ := hm
    refine hij (hinj ?_)
    exact nodeId_eq_of_pack_eq (g j) ht hn hmove.inEpoch hmove.isSequence
      (hpack.symm.trans hmove.id_eq)

/-- Once a call is waiting, what was given out is given out. -/
theorem Issued.of_waiting {g : Snowflake} {m : Long} (hm : g.Issued s m)
    (hw : s'.waiting = true) : g.Issued s' m := by
  obtain ⟨t, n, ht, hn, hpack, -⟩ := hm
  exact ⟨t, n, ht, hn, hpack, fun hno => absurd (hw.symm.trans hno) (by decide)⟩

/-- The sequence numbers fit after a call, if that of its generator does. -/
theorem isSequence_update {st : ι → SnowflakeState}
    (hst : ∀ j, (st j).waiting = false → IsSequence (st j).sequence)
    (hi : s'.waiting = false → IsSequence s'.sequence) :
    ∀ j, (Function.update st i s' j).waiting = false →
      IsSequence (Function.update st i s' j).sequence :=
  (Function.forall_update_iff st
    (fun _ (s : SnowflakeState) => s.waiting = false → IsSequence s.sequence)).mpr
    ⟨hi, fun j _ => hst j⟩

/-- What was given out is given out after a call, if the generator of the call
sees to it. -/
theorem exists_issued_update {st : ι → SnowflakeState} {m : Long}
    (hm : ∃ j, (g j).Issued (st j) m) (hi : (g i).Issued (st i) m → (g i).Issued s' m) :
    ∃ j, (g j).Issued (Function.update st i s' j) m := by
  obtain ⟨j, hj⟩ := hm
  refine ⟨j, ?_⟩
  by_cases hij : j = i
  · subst hij
    rw [Function.update_self]
    exact hi hj
  · rw [Function.update_of_ne hij]
    exact hj

/-- A call that returns no id, and leaves its generator as it is or waiting. -/
theorem FleetInv.quiet (hinv : FleetInv g pre)
    (hid : ((g i).nextId (fleetAfter g pre i) c).1.id? = none)
    (hstate : ((g i).nextId (fleetAfter g pre i) c).2 = fleetAfter g pre i
      ∨ ((g i).nextId (fleetAfter g pre i) c).2.waiting = true) :
    FleetInv g (pre ++ [(i, c)]) := by
  have hids : fleetIds g (pre ++ [(i, c)]) = fleetIds g pre := fleetIds_snoc_of_none hid
  refine ⟨?_, fun m hm => ?_, hids ▸ hinv.nodup⟩
  · rw [fleetAfter_snoc]
    refine isSequence_update hinv.isSequence (fun hw => ?_)
    obtain hsame | hwait := hstate
    · rw [hsame] at hw ⊢
      exact hinv.isSequence i hw
    · exact absurd (hwait.symm.trans hw) (by decide)
  · rw [hids] at hm
    rw [fleetAfter_snoc]
    refine exists_issued_update (hinv.issued m hm) (fun hi => ?_)
    obtain hsame | hwait := hstate
    · rw [hsame]
      exact hi
    · exact hi.of_waiting hwait

/-- A call that returns an id. -/
theorem FleetInv.moves (hinj : Function.Injective fun i => (g i).nodeId) (hinv : FleetInv g pre)
    (hw : (fleetAfter g pre i).waiting = false) {m : Long}
    (hid : (g i).nextId (fleetAfter g pre i) c = (.id m, s'))
    (hmove : MovesTo (g i) (fleetAfter g pre i) m s') : FleetInv g (pre ++ [(i, c)]) := by
  have hafter : fleetAfter g (pre ++ [(i, c)]) = Function.update (fleetAfter g pre) i s' := by
    rw [fleetAfter_snoc, hid]
  have hids : fleetIds g (pre ++ [(i, c)]) = fleetIds g pre ++ [m] := fleetIds_snoc_of_id hid
  refine ⟨?_, fun m' hm' => ?_, ?_⟩
  · rw [hafter]
    exact isSequence_update hinv.isSequence (fun _ => hmove.isSequence)
  · rw [hids] at hm'
    rw [hafter]
    obtain hm' | hm' := List.mem_append.mp hm'
    · exact exists_issued_update (hinv.issued m' hm') (fun hi => hi.moves hw hmove)
    · refine ⟨i, ?_⟩
      rw [Function.update_self, List.mem_singleton.mp hm']
      exact hmove.issued
  · rw [hids, List.nodup_append]
    refine ⟨hinv.nodup, List.nodup_singleton m, fun m' hm' m'' hm'' => ?_⟩
    obtain ⟨j, hj⟩ := hinv.issued m' hm'
    rw [List.mem_singleton.mp hm'']
    exact hj.ne hinj hw hmove

/-- **A call keeps the ids of all generators distinct**, if having to wait it
reads no earlier time. -/
theorem FleetInv.snoc (hinj : Function.Injective fun i => (g i).nodeId) (hinv : FleetInv g pre)
    (hc : (g i).InBudget c) (hwait : (g i).WaitsNotBack (fleetAfter g pre i) c) :
    FleetInv g (pre ++ [(i, c)]) := by
  cases hw : (fleetAfter g pre i).waiting with
  | true =>
    have hblocked := nextId_of_waiting (g := g i) (c := c) hw
    exact hinv.quiet (by rw [hblocked]; rfl) (Or.inl (by rw [hblocked]))
  | false =>
    obtain hthrow | ⟨m, s', hid, hmove⟩ | ⟨-, -, hwaiting⟩ :=
      nextId_cases hw (hinv.isSequence i hw) hc hwait.lt
    · exact hinv.quiet (by rw [hthrow]; rfl) (Or.inl (by rw [hthrow]))
    · exact hinv.moves hinj hw hid hmove
    · exact hinv.quiet (by rw [hwaiting]; rfl) (Or.inr (by rw [hwaiting]))

/-- So the calls of a run do. -/
theorem fleetInv_of_waitsNotBack (hinj : Function.Injective fun i => (g i).nodeId)
    {es : List (ι × Call)} (hbudget : ∀ p ∈ es, (g p.1).InBudget p.2)
    (hwait : ∀ pre p, pre ++ [p] <+: es → (g p.1).WaitsNotBack (fleetAfter g pre p.1) p.2) :
    FleetInv g es := by
  refine forall_prefix_of_step ?_ (fun pre p hpre h hp => ?_) hwait es (List.prefix_refl es)
  · exact ⟨fun i _ => isSequence_zero, fun m hm => absurd hm List.not_mem_nil, List.nodup_nil⟩
  · exact h.snoc hinj (hbudget p (mem_of_step hpre)) hp

/-- **The ids of any number of generators with different node ids are pairwise
distinct, and none is negative**, in whatever order the generators are called
and whatever their clocks read – within 41 bits, and no earlier time while a
call waits. A call that throws gives out none. -/
theorem fleetIds_nodup (g : ι → Snowflake) (hinj : Function.Injective fun i => (g i).nodeId)
    (es : List (ι × Call)) (hbudget : ∀ p ∈ es, (g p.1).InBudget p.2)
    (hwait : ∀ pre p, pre ++ [p] <+: es → (g p.1).WaitsNotBack (fleetAfter g pre p.1) p.2) :
    (fleetIds g es).Nodup ∧ (∀ m ∈ fleetIds g es, 0 ≤ m)
      ∧ ∀ pre i c message s, pre ++ [(i, c)] <+: es →
          (g i).nextId (fleetAfter g pre i) c = (.illegalStateException message, s) →
          fleetIds g (pre ++ [(i, c)]) = fleetIds g pre := by
  obtain ⟨-, hissued, hnodup⟩ := fleetInv_of_waitsNotBack hinj hbudget hwait
  refine ⟨hnodup, fun m hm => ?_, fun pre i c message s _ hthrow => ?_⟩
  · obtain ⟨i, t, n, ht, hn, rfl, -⟩ := hissued m hm
    exact pack_nonneg (g i) ht hn
  · exact fleetIds_snoc_of_none (by rw [hthrow]; rfl)

/-- Two generators, one of which sees its clock go back between its calls. -/
theorem fleetIds_nodup_sample :
    (fleetIds (fun b : Bool => if b then sample else ⟨6, 0, by decide, by decide⟩)
      [(true, ⟨3, []⟩), (false, ⟨3, []⟩), (true, ⟨2, []⟩), (true, ⟨3, []⟩)]).Nodup := by
  have hinj : Function.Injective fun b : Bool =>
      (if b then sample else ⟨6, 0, by decide, by decide⟩ : Snowflake).nodeId := by
    intro b b' h
    revert h
    cases b <;> cases b' <;> decide
  refine (fleetIds_nodup _ hinj _ (by decide) ?_).1
  simp only [forall_step_cons, forall_step_nil, and_true]
  refine ⟨?_, ?_, ?_, ?_⟩ <;> exact fun hex => absurd hex.2 (by decide)

end Fleet

end Snowflake
