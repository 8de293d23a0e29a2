import Chatroom.Snowflake

/-!
# Taking an id apart

`parse` undoes what `nextId` puts together. Node id and sequence number always
come back. The timestamp has the 42 bits that are left of the word, with the
sign among them; the epoch is subtracted before and added after, and both may
wrap, but what one takes the other gives back. So the time comes back exactly
if the timestamp fits into 42 signed bits, twice the range that an id without a
sign has room for.

In the other direction nothing is lost at all: any word, negative or not, is
the id of what `parse` makes of it.
-/

namespace Snowflake

variable (g : Snowflake)

/-- The three results of `parse`, as integers. -/
theorem parse_timestamp_sub (id : Long) :
    ((g.parse id).1 - g.customEpoch).toInt = id.toInt / 2 ^ 22 := by
  have hshift : (g.parse id).1 - g.customEpoch = id >>> Int64.ofNat 22 :=
    Int64.add_sub_cancel (id >>> Int64.ofNat 22) g.customEpoch
  rw [hshift]
  exact Int64.toInt_shiftRight id (by decide)

theorem toInt_parse_nodeId (id : Long) :
    (g.parse id).2.1.toInt = id.toInt / 2 ^ 12 % 2 ^ 10 := by
  -- the mask stands where the node id does, and is shifted back along with it
  have hmask : (Int64.mask 10 <<< Int64.ofNat 12) >>> Int64.ofNat 12 = Int64.mask 10 := by decide
  have hshift : (g.parse id).2.1 = (id >>> Int64.ofNat 12) &&& Int64.mask 10 := by
    rw [← hmask, ← Int64.shiftRight_and]
    rfl
  rw [hshift, Int64.toInt_and_mask _ (by decide), Int64.toInt_shiftRight _ (by decide)]

theorem toInt_parse_sequence (id : Long) :
    (g.parse id).2.2.toInt = id.toInt % 2 ^ 12 := by
  have hmask : (1 <<< sequenceBits : Long) - 1 = Int64.mask 12 := rfl
  show (id &&& ((1 <<< sequenceBits : Long) - 1)).toInt = _
  rw [hmask, Int64.toInt_and_mask id (by decide)]

variable {g}

theorem isSequence_parse (id : Long) : IsSequence (g.parse id).2.2 := by
  rw [isSequence_iff, toInt_parse_sequence]
  omega

/-- The word of three fields, as far as it wraps. -/
theorem exists_toInt_pack_eq (t : Long) {n : Long} (hn : IsSequence n) :
    ∃ k : Int, (g.pack t n).toInt
      = t.toInt * 2 ^ 22 + (g.nodeId.toInt * 2 ^ 12 + n.toInt) - 2 ^ 64 * k := by
  refine ⟨Int.bdiv (t.toInt * 2 ^ 22 + (g.nodeId.toInt * 2 ^ 12 + n.toInt)) (2 ^ 64), ?_⟩
  rw [toInt_pack_eq_bmod g t hn, Int.bmod_eq_self_sub_mul_bdiv]
  norm_cast

/-- **Node id and sequence number come back.** -/
theorem parse_pack_snd (t : Long) {n : Long} (hn : IsSequence n) :
    (g.parse (g.pack t n)).2 = (g.nodeId, n) := by
  obtain ⟨k, hk⟩ := exists_toInt_pack_eq (g := g) t hn
  obtain ⟨hnode₀, hnode⟩ := g.nodeId_range
  obtain ⟨hn₀, hn⟩ := isSequence_iff.mp hn
  refine Prod.ext (Int64.toInt_inj.mp ?_) (Int64.toInt_inj.mp ?_)
  · rw [toInt_parse_nodeId, hk]
    show _ = g.nodeId.toInt
    omega
  · rw [toInt_parse_sequence, hk]
    show _ = n.toInt
    omega

/-- **The time comes back exactly if its timestamp fits into 42 signed bits.** -/
theorem parse_pack_fst_iff (w : Long) {n : Long} (hn : IsSequence n) :
    (g.parse (g.pack (g.timestamp w) n)).1 = w
      ↔ -2 ^ 41 ≤ (g.timestamp w).toInt ∧ (g.timestamp w).toInt < 2 ^ 41 := by
  obtain ⟨k, hk⟩ := exists_toInt_pack_eq (g := g) (g.timestamp w) hn
  obtain ⟨hnode₀, hnode⟩ := g.nodeId_range
  obtain ⟨hn₀, hn⟩ := isSequence_iff.mp hn
  have hepoch : (g.parse (g.pack (g.timestamp w) n)).1 = w
      ↔ (g.parse (g.pack (g.timestamp w) n)).1 - g.customEpoch = g.timestamp w := by
    rw [timestamp, Int64.sub_eq_iff_eq_add, Int64.sub_add_cancel]
  have hlower := (g.pack (g.timestamp w) n).le_toInt
  have hupper := (g.pack (g.timestamp w) n).toInt_lt
  rw [hepoch, ← Int64.toInt_inj, parse_timestamp_sub]
  omega

/-- **Any word is the id of its parts.** -/
theorem pack_parse {g' : Snowflake} (id : Long) (hnode : g'.nodeId = (g.parse id).2.1) :
    g'.pack ((g.parse id).1 - g.customEpoch) (g.parse id).2.2 = id := by
  obtain ⟨k, hk⟩ := exists_toInt_pack_eq (g := g') ((g.parse id).1 - g.customEpoch)
    (isSequence_parse (g := g) id)
  rw [parse_timestamp_sub, hnode, toInt_parse_nodeId, toInt_parse_sequence] at hk
  have hlower := (g'.pack ((g.parse id).1 - g.customEpoch) (g.parse id).2.2).le_toInt
  have hupper := (g'.pack ((g.parse id).1 - g.customEpoch) (g.parse id).2.2).toInt_lt
  have hlower' := id.le_toInt
  have hupper' := id.toInt_lt
  refine Int64.toInt_inj.mp ?_
  omega

/-- The node id of any word is one a generator may have. -/
theorem exists_nodeId_eq (id : Long) :
    ∃ g' : Snowflake, g'.nodeId = (g.parse id).2.1 ∧ g'.customEpoch = g.customEpoch := by
  have hnode := toInt_parse_nodeId g id
  refine ⟨⟨(g.parse id).2.1, g.customEpoch, ?_, ?_⟩, rfl, rfl⟩
  · rw [Int64.le_iff_toInt_le, hnode]
    exact Int.emod_nonneg _ (by decide)
  · rw [Int64.le_iff_toInt_le, hnode, show maxNodeId.toInt = 2 ^ 10 - 1 from rfl]
    omega

/-- **Packing and parsing are mutually inverse**: from parts to word and back
nothing is lost but what the timestamp has no room for, and from word to parts
and back nothing at all. -/
theorem parse_pack_pack_parse (g : Snowflake) :
    (∀ w n, IsSequence n →
        (g.parse (g.pack (g.timestamp w) n)).2 = (g.nodeId, n)
          ∧ ((g.parse (g.pack (g.timestamp w) n)).1 = w
            ↔ -2 ^ 41 ≤ (g.timestamp w).toInt ∧ (g.timestamp w).toInt < 2 ^ 41))
      ∧ ∀ id, ∃ g' : Snowflake,
          g'.nodeId = (g.parse id).2.1 ∧ g'.customEpoch = g.customEpoch
            ∧ g'.pack (g'.timestamp (g.parse id).1) (g.parse id).2.2 = id := by
  refine ⟨fun w n hn => ⟨parse_pack_snd _ hn, parse_pack_fst_iff w hn⟩, fun id => ?_⟩
  obtain ⟨g', hnode, hepoch⟩ := exists_nodeId_eq (g := g) id
  refine ⟨g', hnode, hepoch, ?_⟩
  rw [timestamp, hepoch]
  exact pack_parse id hnode

/-- A time before the epoch comes back too. -/
theorem parse_pack_pack_parse_early :
    (parse ⟨5, 1000, by decide, by decide⟩
        (pack ⟨5, 1000, by decide, by decide⟩
          (timestamp ⟨5, 1000, by decide, by decide⟩ 3) 7)).1 = 3 :=
  (((parse_pack_pack_parse ⟨5, 1000, by decide, by decide⟩).1 3 7 (by decide)).2).mpr (by decide)

end Snowflake
