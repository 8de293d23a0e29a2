import Chatroom.PolynomialHash
import Chatroom.SnowflakeRuns

/-!
# The node id of a machine

A generator made without a node id takes it from the hardware addresses of the
machine: `createNodeId` writes all their bytes as hexadecimal digits into one
string, takes `hashCode` of it and keeps the lowest 10 bits. Only where the
network cannot be asked the number is random.

`hashCode` is a polynomial hash in base 31, and 31 is odd, so modulo 1024 it is
a unit. Hence it matters little that the 10 bits come from a hash of
unbounded input: if one byte is replaced, its two digits alone decide. Codes of
hexadecimal digits differ by less than 31, and so no two pairs of them have the
same hash (`hexCode_inj`). For three digits this is no longer so.
-/

/-- **A network interface**: its hardware address, which may be null, unless
asking for it throws. -/
structure NetworkInterface where
  getHardwareAddress : Except String (Option (List Int8))

namespace Snowflake

/-! ## The hash of a string -/

/-- A digit of `%X`. -/
def hexDigit (n : ℕ) : Char := if n < 10 then Char.ofNat (48 + n) else Char.ofNat (55 + n)

/-- `String.format("%02X", macPort)`. A negative byte is read without sign. -/
def format (macPort : Int8) : String :=
  String.ofList [hexDigit (macPort.toUInt8.toNat / 16), hexDigit (macPort.toUInt8.toNat % 16)]

/-- The 16-bit units a character is stored in: one, or a surrogate pair. -/
def codeUnits (c : Char) : List UInt16 :=
  if c.toNat < 0x10000 then
    [c.toNat.toUInt16]
  else
    [(0xD800 + (c.toNat - 0x10000) / 0x400).toUInt16,
      (0xDC00 + (c.toNat - 0x10000) % 0x400).toUInt16]

/-- `String.hashCode`. -/
def hashCode (s : String) : Int32 :=
  (s.toList.flatMap codeUnits).foldl (fun h c => 31 * h + Int32.ofNat c.toNat) 0

/-! ## `createNodeId` -/

/-- The loop over the bytes of an address. -/
def appendMac (sb : String) (mac : List Int8) : String :=
  mac.foldl (fun sb macPort => sb ++ format macPort) sb

/-- The loop over the interfaces. -/
def appendMacs (sb : String) : List NetworkInterface → Except String String
  | [] => .ok sb
  | networkInterface :: networkInterfaces =>
      match networkInterface.getHardwareAddress with
      | .error e => .error e
      | .ok none => appendMacs sb networkInterfaces
      | .ok (some mac) => appendMacs (appendMac sb mac) networkInterfaces

/-- **The node id of a machine**: `networkInterfaces` is what
`getNetworkInterfaces` returns or throws, and `nextInt` what a `SecureRandom`
would say. -/
def createNodeId (networkInterfaces : Except String (List NetworkInterface)) (nextInt : Int32) :
    Long :=
  let nodeId : Long :=
    match networkInterfaces.bind (appendMacs "") with
    | .ok sb => (hashCode sb).toInt64
    | .error _ => nextInt.toInt64
  nodeId &&& maxNodeId

/-- A mask leaves the 10 lowest bits. -/
theorem toInt_and_maxNodeId (n : Long) : (n &&& maxNodeId).toInt = n.toInt % 1024 :=
  Int64.toInt_and_mask n (k := 10) (by decide)

theorem createNodeId_range (networkInterfaces : Except String (List NetworkInterface))
    (nextInt : Int32) :
    0 ≤ createNodeId networkInterfaces nextInt
      ∧ createNodeId networkInterfaces nextInt ≤ 1023 := by
  unfold createNodeId
  rw [Int64.le_iff_toInt_le, Int64.le_iff_toInt_le, toInt_and_maxNodeId,
    show (0 : Int64).toInt = 0 from rfl, show (1023 : Int64).toInt = 1023 from rfl]
  omega

/-- The constructor without arguments. -/
def ofNetworkInterfaces (networkInterfaces : Except String (List NetworkInterface))
    (nextInt : Int32) : Snowflake where
  nodeId := createNodeId networkInterfaces nextInt
  customEpoch := defaultCustomEpoch
  nodeId_nonneg := (createNodeId_range networkInterfaces nextInt).1
  nodeId_le := (createNodeId_range networkInterfaces nextInt).2

theorem nodeId_ofNetworkInterfaces (networkInterfaces : Except String (List NetworkInterface))
    (nextInt : Int32) :
    (ofNetworkInterfaces networkInterfaces nextInt).nodeId
      = createNodeId networkInterfaces nextInt := rfl

/-! ## Without an exception -/

/-- An enumeration of interfaces with these addresses, none of which throws. -/
def enumeration (macs : List (Option (List Int8))) : Except String (List NetworkInterface) :=
  .ok (macs.map fun mac => ⟨.ok mac⟩)

/-- **The bytes of all addresses, in order.** An interface without an address
counts for nothing. -/
def hardwareBytes (macs : List (Option (List Int8))) : List Int8 := macs.reduceOption.flatten

theorem appendMacs_map (macs : List (Option (List Int8))) (sb : String) :
    appendMacs sb (macs.map fun mac => ⟨.ok mac⟩) = .ok (appendMac sb (hardwareBytes macs)) := by
  induction macs generalizing sb with
  | nil => rfl
  | cons mac macs ih =>
    cases mac with
    | none => exact ih sb
    | some mac =>
      show appendMacs (appendMac sb mac) _ = .ok (appendMac sb (mac ++ hardwareBytes macs))
      rw [ih]
      exact congrArg Except.ok List.foldl_append.symm

theorem createNodeId_enumeration (macs : List (Option (List Int8))) (nextInt : Int32) :
    createNodeId (enumeration macs) nextInt
      = (hashCode (appendMac "" (hardwareBytes macs))).toInt64 &&& maxNodeId := by
  have happend : (enumeration macs).bind (appendMacs "")
      = .ok (appendMac "" (hardwareBytes macs)) := appendMacs_map macs ""
  rw [createNodeId, happend]

/-! ## The hash modulo 1024 -/

/-- The codes of a string, modulo 1024. -/
def codes (s : String) : List (ZMod 1024) :=
  (s.toList.flatMap codeUnits).map fun c => (c.toNat : ZMod 1024)

theorem codes_append (s s' : String) : codes (s ++ s') = codes s ++ codes s' := by
  simp only [codes, String.toList_append, List.flatMap_append, List.map_append]

theorem codes_appendMac (sb : String) (mac : List Int8) :
    codes (appendMac sb mac)
      = codes sb ++ mac.flatMap fun macPort => codes (format macPort) := by
  induction mac generalizing sb with
  | nil => rw [List.flatMap_nil, List.append_nil]; rfl
  | cons macPort mac ih =>
    show codes (appendMac (sb ++ format macPort) mac) = _
    rw [ih, codes_append, List.append_assoc, List.flatMap_cons]

theorem intCast_hashCode (s : String) :
    ((hashCode s).toInt : ZMod 1024) = polyHash 31 0 (codes s) := by
  have hcode (c : UInt16) : ((Int32.ofNat c.toNat).toInt : ZMod 1024) = c.toNat := by
    have hlt := c.toNat_lt
    rw [Int32.toInt_ofNat_of_lt (by omega), Int.cast_natCast]
  have hwords := intCast_toInt_foldl (N := 1024) (by decide) 31 0
    ((s.toList.flatMap codeUnits).map fun c => Int32.ofNat c.toNat)
  rw [List.foldl_map, List.map_map] at hwords
  rw [hashCode, hwords, codes]
  simp only [Function.comp_def, hcode]
  rfl

/-- **Machines have one node id exactly if the hashes of their addresses agree
modulo 1024.** -/
theorem createNodeId_eq_iff (macs macs' : List (Option (List Int8))) (nextInt nextInt' : Int32) :
    createNodeId (enumeration macs) nextInt = createNodeId (enumeration macs') nextInt'
      ↔ polyHash 31 0 ((hardwareBytes macs).flatMap fun macPort => codes (format macPort))
        = polyHash 31 0
          ((hardwareBytes macs').flatMap fun macPort => codes (format macPort)) := by
  have hcodes (bytes : List Int8) : codes (appendMac "" bytes)
      = bytes.flatMap fun macPort => codes (format macPort) := codes_appendMac "" bytes
  rw [createNodeId_enumeration, createNodeId_enumeration, ← Int64.toInt_inj, toInt_and_maxNodeId,
    toInt_and_maxNodeId, Int32.toInt_toInt64, Int32.toInt_toInt64, ← hcodes, ← hcodes,
    ← intCast_hashCode, ← intCast_hashCode]
  exact (ZMod.intCast_eq_intCast_iff' _ _ 1024).symm

/-! ## One byte -/

/-- The code of a digit of `%X`. -/
def hexCode (n : ℕ) : ℕ := if n < 10 then 48 + n else 55 + n

theorem codes_format (macPort : Int8) :
    codes (format macPort) = [(hexCode (macPort.toUInt8.toNat / 16) : ZMod 1024),
      (hexCode (macPort.toUInt8.toNat % 16) : ZMod 1024)] := by
  have hunits : ∀ n < 16, codeUnits (hexDigit n) = [(hexCode n).toUInt16]
      ∧ (hexCode n).toUInt16.toNat = hexCode n := by decide
  have hlt := macPort.toUInt8.toNat_lt
  obtain ⟨hhigh, hhigh'⟩ := hunits (macPort.toUInt8.toNat / 16) (by omega)
  obtain ⟨hlow, hlow'⟩ := hunits (macPort.toUInt8.toNat % 16) (by omega)
  rw [codes, format, String.toList_ofList, List.flatMap_cons, List.flatMap_singleton, hhigh,
    hlow, List.singleton_append, List.map_cons, List.map_singleton, hhigh', hlow']

/-- **No two pairs of digits have the same hash.** -/
theorem hexCode_inj {n m n' m' : ℕ} (hn : n < 16) (hm : m < 16) (hn' : n' < 16) (hm' : m' < 16)
    (h : polyHash (31 : ZMod 1024) 0 [(hexCode n : ZMod 1024), (hexCode m : ZMod 1024)]
      = polyHash 31 0 [(hexCode n' : ZMod 1024), (hexCode m' : ZMod 1024)]) :
    n = n' ∧ m = m' := by
  have hpair (a b : ℕ) :
      polyHash (31 : ZMod 1024) 0 [(a : ZMod 1024), (b : ZMod 1024)] = (31 * a + b : ℕ) := by
    simp [polyHash]
  have hrange : ∀ k < 16, 48 ≤ hexCode k ∧ hexCode k ≤ 70 := by decide
  have hinj {k l : ℕ} (heq : hexCode k = hexCode l) : k = l := by
    unfold hexCode at heq
    split at heq <;> split at heq <;> omega
  have hn := hrange n hn
  have hm := hrange m hm
  have hn' := hrange n' hn'
  have hm' := hrange m' hm'
  rw [hpair, hpair, ZMod.natCast_eq_natCast_iff'] at h
  -- the two sums differ by 704 at most
  have hsum : 31 * hexCode n + hexCode m = 31 * hexCode n' + hexCode m' := by omega
  have hhigh : hexCode n = hexCode n' := by omega
  have hlow : hexCode m = hexCode m' := by omega
  exact ⟨hinj hhigh, hinj hlow⟩

theorem format_inj {b b' : Int8}
    (h : polyHash (31 : ZMod 1024) 0 (codes (format b)) = polyHash 31 0 (codes (format b'))) :
    b = b' := by
  have hlt := b.toUInt8.toNat_lt
  have hlt' := b'.toUInt8.toNat_lt
  rw [codes_format, codes_format] at h
  obtain ⟨hhigh, hlow⟩ := hexCode_inj (by omega) (by omega) (by omega) (by omega) h
  have hnat : b.toUInt8.toNat = b'.toUInt8.toNat := by omega
  cases b
  cases b'
  exact congrArg Int8.ofUInt8 (UInt8.toNat_inj.mp hnat)

/-- **Two lists of bytes differ in one byte**: they have one length, and differ
at exactly one place. -/
def DifferInOneByte (bytes bytes' : List Int8) : Prop :=
  bytes.length = bytes'.length ∧ ∃! i : ℕ, bytes[i]? ≠ bytes'[i]?

theorem DifferInOneByte.exists_append {bytes bytes' : List Int8}
    (h : DifferInOneByte bytes bytes') :
    ∃ before after b b', b ≠ b' ∧ bytes = before ++ b :: after
      ∧ bytes' = before ++ b' :: after := by
  obtain ⟨hlen, i, hi, hother⟩ := h
  have hsame (j : ℕ) (hj : j ≠ i) : bytes[j]? = bytes'[j]? := by
    by_contra hne
    exact hj (hother j hne)
  have hlt : i < bytes.length := by
    by_contra hge
    exact hi (by rw [List.getElem?_eq_none (by omega), List.getElem?_eq_none (by omega)])
  have hlt' : i < bytes'.length := hlen ▸ hlt
  have hbefore : bytes.take i = bytes'.take i := by
    refine List.ext_getElem? (fun j => ?_)
    rw [List.getElem?_take, List.getElem?_take]
    by_cases hj : j < i
    · rw [if_pos hj, if_pos hj, hsame j (by omega)]
    · rw [if_neg hj, if_neg hj]
  have hafter : bytes.drop (i + 1) = bytes'.drop (i + 1) := by
    refine List.ext_getElem? (fun j => ?_)
    rw [List.getElem?_drop, List.getElem?_drop]
    exact hsame (i + 1 + j) (by omega)
  refine ⟨bytes.take i, bytes.drop (i + 1), bytes[i], bytes'[i], ?_, ?_, ?_⟩
  · rw [List.getElem?_eq_getElem hlt, List.getElem?_eq_getElem hlt'] at hi
    exact fun heq => hi (congrArg some heq)
  · rw [← List.drop_eq_getElem_cons hlt, List.take_append_drop]
  · rw [hbefore, hafter, ← List.drop_eq_getElem_cons hlt', List.take_append_drop]

theorem differInOneByte_append {b b' : Int8} (hne : b ≠ b') (before after : List Int8) :
    DifferInOneByte (before ++ b :: after) (before ++ b' :: after) := by
  refine ⟨by simp, before.length, by simpa using hne, fun j hj => ?_⟩
  by_contra hother
  refine hj ?_
  obtain hlt | hgt := Nat.lt_or_gt_of_ne hother
  · rw [List.getElem?_append_left hlt, List.getElem?_append_left hlt]
  · rw [List.getElem?_append_right (by omega), List.getElem?_append_right (by omega),
      List.getElem?_cons, List.getElem?_cons, if_neg (by omega), if_neg (by omega)]

/-- That is, one byte of the first is replaced. -/
theorem differInOneByte_iff {bytes bytes' : List Int8} :
    DifferInOneByte bytes bytes' ↔ ∃ before after b b', b ≠ b'
      ∧ bytes = before ++ b :: after ∧ bytes' = before ++ b' :: after := by
  constructor
  · exact DifferInOneByte.exists_append
  · rintro ⟨before, after, b, b', hne, rfl, rfl⟩
    exact differInOneByte_append hne before after

/-- **The two digits of a byte decide**, whatever stands before and after. -/
theorem createNodeId_ne_of_differInOneByte {macs macs' : List (Option (List Int8))}
    (h : DifferInOneByte (hardwareBytes macs) (hardwareBytes macs')) (nextInt nextInt' : Int32) :
    createNodeId (enumeration macs) nextInt ≠ createNodeId (enumeration macs') nextInt' := by
  intro heq
  obtain ⟨before, after, b, b', hne, hbytes, hbytes'⟩ := differInOneByte_iff.mp h
  have hunit : IsUnit (31 : ZMod 1024) := IsUnit.of_mul_eq_one 991 (by decide)
  have hlen : (codes (format b)).length = (codes (format b')).length := by
    rw [codes_format, codes_format]
    rfl
  rw [createNodeId_eq_iff, hbytes, hbytes', List.flatMap_append, List.flatMap_append,
    List.flatMap_cons, List.flatMap_cons, ← List.append_assoc, ← List.append_assoc,
    polyHash_block_iff hunit hlen] at heq
  exact hne (format_inj heq)

/-- **Machines that differ in one byte of their addresses have different node
ids**, both within 10 bits. How the bytes are spread over the interfaces does
not matter. -/
theorem createNodeId_ne (macs macs' : List (Option (List Int8))) (nextInt nextInt' : Int32)
    (h : DifferInOneByte (hardwareBytes macs) (hardwareBytes macs')) :
    createNodeId (enumeration macs) nextInt ≠ createNodeId (enumeration macs') nextInt'
      ∧ (0 ≤ createNodeId (enumeration macs) nextInt
        ∧ createNodeId (enumeration macs) nextInt ≤ 1023)
      ∧ 0 ≤ createNodeId (enumeration macs') nextInt'
        ∧ createNodeId (enumeration macs') nextInt' ≤ 1023 :=
  ⟨createNodeId_ne_of_differInOneByte h nextInt nextInt', createNodeId_range _ _,
    createNodeId_range _ _⟩

/-- Two addresses that differ in the fourth byte, and stand behind different
interfaces. -/
theorem createNodeId_ne_sample :
    createNodeId (enumeration [none, some [0, 27, 68, 17, 58, -73]]) 0
      ≠ createNodeId (enumeration [some [0, 27, 68], some [-112, 58, -73], none]) 0 :=
  (createNodeId_ne _ _ 0 0 (differInOneByte_iff.mpr
    ⟨[0, 27, 68], [58, -73], 17, -112, by decide, rfl, rfl⟩)).1

/-- Three digits may have the hash of three others. -/
example : createNodeId (enumeration [some [0x00, 0x00]]) 0
    = createNodeId (enumeration [some [0x01, 0x21]]) 0 := by decide

/-- The generators of machines with these addresses. -/
def generators {ι : Type*} (macs : ι → List (Option (List Int8))) (nextInt : ι → Int32) (i : ι) :
    Snowflake :=
  ofNetworkInterfaces (enumeration (macs i)) (nextInt i)

/-- **The generators of any number of machines give out no id twice**, if any
two of the machines differ in one byte of their addresses. -/
theorem fleetIds_generators_nodup {ι : Type*} [DecidableEq ι]
    (macs : ι → List (Option (List Int8))) (nextInt : ι → Int32)
    (hdiffer : ∀ i j, i ≠ j → DifferInOneByte (hardwareBytes (macs i)) (hardwareBytes (macs j)))
    (es : List (ι × Call)) (hbudget : ∀ p ∈ es, (generators macs nextInt p.1).InBudget p.2)
    (hwait : ∀ pre p, pre ++ [p] <+: es → (generators macs nextInt p.1).WaitsNotBack
      (fleetAfter (generators macs nextInt) pre p.1) p.2) :
    (fleetIds (generators macs nextInt) es).Nodup := by
  have hinj : Function.Injective fun i => (generators macs nextInt i).nodeId := by
    intro i j hij
    by_contra hne
    simp only [generators, nodeId_ofNetworkInterfaces] at hij
    exact createNodeId_ne_of_differInOneByte (hdiffer i j hne) (nextInt i) (nextInt j) hij
  exact (fleetInv_of_waitsNotBack hinj hbudget hwait).nodup

/-- Two machines that differ in the last byte of their addresses, and make an id
at the same time. -/
theorem fleetIds_generators_nodup_sample :
    (fleetIds (generators (fun b : Bool => [some [0, 27, if b then 58 else -73]]) fun _ => 0)
      [(true, ⟨1420070400003, []⟩), (false, ⟨1420070400003, []⟩)]).Nodup := by
  refine fleetIds_generators_nodup _ _ (fun i j hij => ?_) _ (by decide) ?_
  · refine differInOneByte_iff.mpr ⟨[0, 27], [], _, _, ?_, rfl, rfl⟩
    revert hij
    cases i <;> cases j <;> decide
  · simp only [forall_step_cons, forall_step_nil, and_true]
    refine ⟨?_, ?_⟩ <;> exact fun hex => absurd hex.2 (by decide)

end Snowflake
