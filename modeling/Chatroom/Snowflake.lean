import Chatroom.Entity
import Chatroom.Int64Fields
import Chatroom.StepMachine

/-!
# The id generator

`SnowflakeGenerator.Snowflake`: an id is a timestamp of milliseconds since a
custom epoch, a node id and a sequence number, side by side in one 64-bit word.
`nextId` is synchronized, so its calls come one after the other. A generator
carries its node id's range; the constructor makes all of these generators, and
throws for every other node id (`new_eq_ok_iff`).

The clock is what the calls read of it. A call reads it once when it enters,
and again and again while it waits for the next millisecond, which is until it
reads something else than the last timestamp; `Call` lists these readings. If
the list ends before, the call is still waiting. It holds the monitor then, and
no other call gets in.
-/

namespace Snowflake

/-! ## The layout -/

/-- `EPOCH_BITS`. -/
def epochBits : Int64 := 41

/-- `NODE_ID_BITS`. -/
def nodeIdBits : Int64 := 10

/-- `SEQUENCE_BITS`. -/
def sequenceBits : Int64 := 12

def maxNodeId : Long := (1 <<< nodeIdBits) - 1

def maxSequence : Long := (1 <<< sequenceBits) - 1

/-- `DEFAULT_CUSTOM_EPOCH`, the start of the year 2015. -/
def defaultCustomEpoch : Long := 1420070400000

end Snowflake

/-- **A generator**: the two final fields. The constructor checks the node id. -/
structure Snowflake where
  nodeId : Long
  customEpoch : Long
  nodeId_nonneg : 0 ≤ nodeId
  nodeId_le : nodeId ≤ Snowflake.maxNodeId

/-- The two volatile fields, and whether a call is waiting inside `nextId`. -/
structure SnowflakeState where
  lastTimestamp : Long
  sequence : Long
  waiting : Bool
  deriving DecidableEq, Repr

/-- The fields of a new generator. -/
def SnowflakeState.new : SnowflakeState := ⟨-1, 0, false⟩

namespace Snowflake

/-- The constructor; it throws an `IllegalArgumentException` with this text. -/
def new (nodeId customEpoch : Long) : Except String Snowflake :=
  if h : nodeId < 0 ∨ nodeId > maxNodeId then
    .error ("NodeId must be between " ++ toString (0 : Int) ++ " and "
      ++ toString maxNodeId.toInt)
  else
    .ok ⟨nodeId, customEpoch, Int64.not_lt.mp (not_or.mp h).1, Int64.not_lt.mp (not_or.mp h).2⟩

/-- The constructor with the default epoch. -/
def ofNodeId (nodeId : Long) : Except String Snowflake := new nodeId defaultCustomEpoch

/-- **The constructor makes every generator there is**, and no other. -/
theorem new_eq_ok_iff {nodeId customEpoch : Long} {g : Snowflake} :
    new nodeId customEpoch = .ok g ↔ g.nodeId = nodeId ∧ g.customEpoch = customEpoch := by
  unfold new
  constructor
  · intro h
    split at h
    · cases h
    · cases h
      exact ⟨rfl, rfl⟩
  · rintro ⟨rfl, rfl⟩
    have hfits : ¬ (g.nodeId < 0 ∨ g.nodeId > maxNodeId) :=
      not_or.mpr ⟨Int64.not_lt.mpr g.nodeId_nonneg, Int64.not_lt.mpr g.nodeId_le⟩
    rw [dif_neg hfits]

/-- **The readings of one call of `nextId`**: what `Instant.now().toEpochMilli()`
is when it enters, and each time it is asked while the call waits. -/
structure Call where
  now : Long
  later : List Long
  deriving DecidableEq, Repr

/-- What a call of `nextId` comes to. -/
inductive Result where
  | id (id : Long)
  | illegalStateException (message : String)
  | waiting
  deriving DecidableEq, Repr

/-- The id a call returned, if it did. -/
def Result.id? : Result → Option Long
  | id n => some n
  | _ => none

variable (g : Snowflake)

/-- The time since the custom epoch. -/
def timestamp (now : Long) : Long := now - g.customEpoch

/-- The loop that waits for another reading than the last timestamp. -/
def waitNextMillis (lastTimestamp currentTimestamp : Long) : List Long → Option Long
  | [] => if currentTimestamp = lastTimestamp then none else some currentTimestamp
  | now :: later =>
      if currentTimestamp = lastTimestamp then
        waitNextMillis lastTimestamp (g.timestamp now) later
      else
        some currentTimestamp

/-- The id of a timestamp and a sequence number. -/
def pack (currentTimestamp sequence : Long) : Long :=
  currentTimestamp <<< (nodeIdBits + sequenceBits) ||| g.nodeId <<< sequenceBits ||| sequence

def nextId (s : SnowflakeState) (c : Call) : Result × SnowflakeState :=
  if s.waiting then
    (.waiting, s)
  else
    let currentTimestamp := g.timestamp c.now
    if currentTimestamp < s.lastTimestamp then
      (.illegalStateException "Invalid System Clock!", s)
    else if currentTimestamp = s.lastTimestamp then
      let sequence := (s.sequence + 1) &&& maxSequence
      if sequence = 0 then
        match g.waitNextMillis s.lastTimestamp currentTimestamp c.later with
        | none => (.waiting, { s with sequence := sequence, waiting := true })
        | some currentTimestamp =>
            (.id (g.pack currentTimestamp sequence), ⟨currentTimestamp, sequence, false⟩)
      else
        (.id (g.pack currentTimestamp sequence), ⟨currentTimestamp, sequence, false⟩)
    else
      (.id (g.pack currentTimestamp 0), ⟨currentTimestamp, 0, false⟩)

/-- The timestamp since 1970, the node id and the sequence number of an id. -/
def parse (id : Long) : Long × Long × Long :=
  let maskNodeId : Long := ((1 <<< nodeIdBits) - 1) <<< sequenceBits
  let maskSequence : Long := (1 <<< sequenceBits) - 1
  let timestamp := (id >>> (nodeIdBits + sequenceBits)) + g.customEpoch
  let nodeId := (id &&& maskNodeId) >>> sequenceBits
  let sequence := id &&& maskSequence
  (timestamp, nodeId, sequence)

/-! ## Ids as integers -/

/-- A timestamp that fits into its field. -/
def InEpoch (t : Long) : Prop := 0 ≤ t ∧ t < 1 <<< epochBits

/-- A sequence number that fits into its field. -/
def IsSequence (n : Long) : Prop := 0 ≤ n ∧ n ≤ maxSequence

instance (t : Long) : Decidable (InEpoch t) := inferInstanceAs (Decidable (_ ∧ _))

instance (n : Long) : Decidable (IsSequence n) := inferInstanceAs (Decidable (_ ∧ _))

theorem isSequence_zero : IsSequence 0 := by decide

theorem inEpoch_iff {t : Long} : InEpoch t ↔ 0 ≤ t.toInt ∧ t.toInt < 2 ^ 41 := by
  rw [InEpoch, Int64.le_iff_toInt_le, Int64.lt_iff_toInt_lt,
    show (1 <<< epochBits : Int64).toInt = 2 ^ 41 from rfl]
  rfl

theorem isSequence_iff {n : Long} : IsSequence n ↔ 0 ≤ n.toInt ∧ n.toInt < 2 ^ 12 := by
  rw [IsSequence, Int64.le_iff_toInt_le, Int64.le_iff_toInt_le,
    show maxSequence.toInt = 4095 from rfl, show (0 : Int64).toInt = 0 from rfl]
  exact and_congr_right (fun _ => Int.le_sub_one_iff (n := 2 ^ 12))

theorem nodeId_range : 0 ≤ g.nodeId.toInt ∧ g.nodeId.toInt < 2 ^ 10 :=
  ⟨Int64.le_iff_toInt_le.mp g.nodeId_nonneg,
    Int.lt_of_le_of_lt (Int64.le_iff_toInt_le.mp g.nodeId_le) (by decide)⟩

/-- **An id is read as its three fields**, up to what the timestamp loses where
it does not fit. -/
theorem toInt_pack_eq_bmod (t : Long) {n : Long} (hn : IsSequence n) :
    (g.pack t n).toInt
      = (t.toInt * 2 ^ 22 + (g.nodeId.toInt * 2 ^ 12 + n.toInt)).bmod (2 ^ 64) := by
  obtain ⟨hnode₀, hnode⟩ := g.nodeId_range
  obtain ⟨hn₀, hn⟩ := isSequence_iff.mp hn
  have hlow : (g.nodeId <<< sequenceBits ||| n).toInt = g.nodeId.toInt * 2 ^ 12 + n.toInt := by
    rw [show sequenceBits = Int64.ofNat 12 from rfl,
      Int64.toInt_shiftLeft_or _ _ (by decide) hn₀ hn]
    exact Int.bmod_eq_of_le (by omega) (by omega)
  unfold pack
  rw [Int64.or_assoc, show nodeIdBits + sequenceBits = Int64.ofNat 22 from rfl,
    Int64.toInt_shiftLeft_or _ _ (by decide) (by omega) (by omega), hlow]

/-- The timestamp of an id loses nothing within its field. -/
theorem toInt_pack {t n : Long} (ht : InEpoch t) (hn : IsSequence n) :
    (g.pack t n).toInt = t.toInt * 2 ^ 22 + (g.nodeId.toInt * 2 ^ 12 + n.toInt) := by
  obtain ⟨hnode₀, hnode⟩ := g.nodeId_range
  obtain ⟨ht₀, ht⟩ := inEpoch_iff.mp ht
  obtain ⟨hn₀, hn'⟩ := isSequence_iff.mp hn
  rw [toInt_pack_eq_bmod g t hn]
  exact Int.bmod_eq_of_le (by omega) (by omega)

/-- Ids of one generator are ordered by timestamp, then by sequence number. -/
theorem pack_lt_pack_iff {t n t' n' : Long} (ht : InEpoch t) (hn : IsSequence n)
    (ht' : InEpoch t') (hn' : IsSequence n') :
    g.pack t n < g.pack t' n' ↔ t < t' ∨ (t = t' ∧ n < n') := by
  rw [Int64.lt_iff_toInt_lt, toInt_pack g ht hn, toInt_pack g ht' hn', Int64.lt_iff_toInt_lt,
    Int64.lt_iff_toInt_lt, ← Int64.toInt_inj]
  obtain ⟨hn₀, hn⟩ := isSequence_iff.mp hn
  obtain ⟨hn₀', hn'⟩ := isSequence_iff.mp hn'
  omega

/-- **The node can be told from the id.** -/
theorem nodeId_eq_of_pack_eq {g' : Snowflake} {t n t' n' : Long} (ht : InEpoch t)
    (hn : IsSequence n) (ht' : InEpoch t') (hn' : IsSequence n')
    (h : g.pack t n = g'.pack t' n') : g.nodeId = g'.nodeId := by
  have hint := congrArg Int64.toInt h
  rw [toInt_pack g ht hn, toInt_pack g' ht' hn'] at hint
  obtain ⟨hnode₀, hnode⟩ := g.nodeId_range
  obtain ⟨hnode₀', hnode'⟩ := g'.nodeId_range
  obtain ⟨hn₀, hn⟩ := isSequence_iff.mp hn
  obtain ⟨hn₀', hn'⟩ := isSequence_iff.mp hn'
  refine Int64.toInt_inj.mp ?_
  omega

theorem pack_nonneg {t n : Long} (ht : InEpoch t) (hn : IsSequence n) : 0 ≤ g.pack t n := by
  have hnode₀ := g.nodeId_range.1
  have ht₀ := (inEpoch_iff.mp ht).1
  have hn₀ := (isSequence_iff.mp hn).1
  rw [Int64.le_iff_toInt_le, toInt_pack g ht hn]
  show (0 : Int) ≤ _
  omega

end Snowflake
