import Mathlib.Data.ZMod.Basic
import Mathlib.Tactic.Ring

/-!
# Polynomial hashes

The hash of a list of codes in a base `b` is computed from left to right: what
is there so far is multiplied by `b`, and the next code is added. Where `b` is a
unit this can be run backwards. So if one block of the list is replaced by
another of its length, what stands around it plays no part: the hash changes
exactly if the hash of the block does (`polyHash_block_iff`).

On words of 32 bits the sums and products wrap. Modulo a divisor of `2 ^ 32`
nothing is seen of that.
-/

section PolyHash

variable {R : Type*} [CommRing R] (b h h' : R)

/-- **The hash of a list of codes** in the base `b`, begun with `h`. -/
def polyHash (cs : List R) : R := cs.foldl (fun h c => b * h + c) h

variable {cs cs' : List R}

theorem polyHash_append : polyHash b h (cs ++ cs') = polyHash b (polyHash b h cs) cs' :=
  List.foldl_append

/-- What the hash began with is multiplied by a power of the base. -/
theorem polyHash_sub : polyHash b h cs - polyHash b h' cs = b ^ cs.length * (h - h') := by
  induction cs generalizing h h' with
  | nil => rw [List.length_nil, pow_zero, one_mul]; rfl
  | cons c cs ih =>
    show polyHash b (b * h + c) cs - polyHash b (b * h' + c) cs = _
    rw [ih, List.length_cons, pow_succ]
    ring

variable {b h h'}

/-- **The hash can be run backwards.** -/
theorem polyHash_inj (hb : IsUnit b) : polyHash b h cs = polyHash b h' cs ↔ h = h' := by
  rw [← sub_eq_zero, polyHash_sub, (hb.pow cs.length).mul_right_eq_zero, sub_eq_zero]

/-- **What stands around a block plays no part.** -/
theorem polyHash_block_iff (hb : IsUnit b) {before after : List R}
    (hlen : cs.length = cs'.length) :
    polyHash b h (before ++ cs ++ after) = polyHash b h (before ++ cs' ++ after)
      ↔ polyHash b 0 cs = polyHash b 0 cs' := by
  have hfrom (ds : List R) (k : R) : polyHash b k ds = b ^ ds.length * k + polyHash b 0 ds := by
    rw [← sub_eq_iff_eq_add, polyHash_sub, sub_zero]
  simp only [polyHash_append]
  rw [polyHash_inj hb, hfrom cs, hfrom cs', hlen, add_right_inj]

end PolyHash

/-! ## Words that wrap -/

section Words

variable {N : ℕ}

theorem intCast_bmod {m : ℕ} (hN : N ∣ m) (x : ℤ) : ((x.bmod m : ℤ) : ZMod N) = x := by
  have hm : (m : ZMod N) = 0 := (ZMod.natCast_eq_zero_iff m N).mpr hN
  rw [Int.bmod_eq_self_sub_mul_bdiv, Int.cast_sub, Int.cast_mul, Int.cast_natCast, hm, zero_mul,
    sub_zero]

/-- **A hash of words**, modulo a divisor of their number. -/
theorem intCast_toInt_foldl (hN : N ∣ 2 ^ 32) (b h : Int32) (cs : List Int32) :
    ((cs.foldl (fun h c => b * h + c) h).toInt : ZMod N)
      = polyHash (b.toInt : ZMod N) h.toInt (cs.map fun c => (c.toInt : ZMod N)) := by
  induction cs generalizing h with
  | nil => rfl
  | cons c cs ih =>
    have hstep : ((b * h + c).toInt : ZMod N) = b.toInt * h.toInt + c.toInt := by
      rw [Int32.toInt_add, intCast_bmod hN, Int.cast_add, Int32.toInt_mul,
        intCast_bmod hN, Int.cast_mul]
    rw [List.foldl_cons, ih, hstep]
    rfl

end Words
