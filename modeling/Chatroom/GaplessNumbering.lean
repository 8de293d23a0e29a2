import Mathlib.Data.List.Basic

/-!
# Gapless numberings

Each entry of a list has a key and a number. The list is numbered without a gap
if the entries of every key carry, in their order, the numbers 0, 1, 2 and so
on. This is what comes out if each new entry is given as its number how many
entries of its key there are already, and nothing else comes out that way
(`gapless_snoc_iff`).

Numbers are taken from a type `ν`, with `enum n` the one that stands for `n`.
-/

namespace GaplessNumbering

variable {α κ ν : Type*} [DecidableEq κ] (key : α → κ) (num : α → ν) (enum : ℕ → ν)

/-- The numbers of the entries of a key, in order. -/
def numbersOf (l : List α) (k : κ) : List ν := (l.filter (fun a => key a = k)).map num

/-- How many entries a key has. -/
def countOf (l : List α) (k : κ) : ℕ := l.countP (fun a => key a = k)

/-- **Every key is numbered from zero on**, with no number left out and none
given twice. -/
def Gapless (l : List α) : Prop :=
  ∀ k, numbersOf key num l k = (List.range (countOf key l k)).map enum

variable {key num enum} {l : List α} {a : α} {k : κ}

theorem countOf_snoc_of_eq (h : key a = k) : countOf key (l ++ [a]) k = countOf key l k + 1 := by
  simp [countOf, h]

theorem countOf_snoc_of_ne (h : key a ≠ k) : countOf key (l ++ [a]) k = countOf key l k := by
  simp [countOf, h]

theorem numbersOf_snoc_self :
    numbersOf key num (l ++ [a]) (key a) = numbersOf key num l (key a) ++ [num a] := by
  simp [numbersOf]

theorem numbersOf_snoc_of_ne (h : key a ≠ k) :
    numbersOf key num (l ++ [a]) k = numbersOf key num l k := by
  simp [numbersOf, h]

theorem gapless_nil : Gapless key num enum [] := fun _ => rfl

/-- **The next entry of a key is numbered by the entries it has already.** -/
theorem gapless_snoc_iff (hl : Gapless key num enum l) :
    Gapless key num enum (l ++ [a]) ↔ num a = enum (countOf key l (key a)) := by
  have hself : numbersOf key num (l ++ [a]) (key a)
        = (List.range (countOf key (l ++ [a]) (key a))).map enum
      ↔ num a = enum (countOf key l (key a)) := by
    rw [numbersOf_snoc_self, countOf_snoc_of_eq rfl, hl, List.range_succ, List.map_append,
      List.append_cancel_left_eq, List.map_singleton, List.singleton_inj]
  constructor
  · exact fun h => hself.mp (h (key a))
  · intro h k
    by_cases hk : key a = k
    · subst hk
      exact hself.mpr h
    · rw [numbersOf_snoc_of_ne hk, countOf_snoc_of_ne hk]
      exact hl k

end GaplessNumbering
