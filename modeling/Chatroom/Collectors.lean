import Chatroom.ConcurrentHashMap

/-!
# Collecting a stream into a map

`Collectors.toMap` walks through a stream and puts one entry into a fresh map
for each element. It takes no second entry at a key and no null value, and
throws at the first element that asks for either; a null key is as good as any
other.

So a stream can be collected exactly if its keys are distinct and its values
not null (`toMap_isOk_iff`), and then the map holds the entries of the stream
and no others (`get_of_toMap`).
-/

/-- The exceptions of a collector. -/
inductive CollectorException where
  /-- A key that is there already. -/
  | illegalStateException
  /-- A null value. -/
  | nullPointerException
  deriving DecidableEq, Repr

namespace Collectors

variable {α κ ν : Type} [DecidableEq κ]

/-- Put an entry into a map, at a key that is not there yet. -/
def merge (m : ConcurrentHashMap κ ν) (k : κ) :
    Option ν → Except CollectorException (ConcurrentHashMap κ ν)
  | none => .error .nullPointerException
  | some v => if m.containsKey k then .error .illegalStateException else .ok (m.put k v)

/-- Put an entry into a map for each element of a stream. -/
def collect (keyMapper : α → κ) (valueMapper : α → Option ν) (m : ConcurrentHashMap κ ν) :
    List α → Except CollectorException (ConcurrentHashMap κ ν)
  | [] => .ok m
  | x :: xs => do
      let m ← merge m (keyMapper x) (valueMapper x)
      collect keyMapper valueMapper m xs

def toMap (keyMapper : α → κ) (valueMapper : α → Option ν) (xs : List α) :
    Except CollectorException (ConcurrentHashMap κ ν) :=
  collect keyMapper valueMapper .empty xs

variable {keyMapper : α → κ} {valueMapper : α → Option ν} {m m' : ConcurrentHashMap κ ν}
  {xs : List α}

/-- An entry is taken exactly if its key is new and its value is not null. -/
theorem merge_eq_ok_iff {k : κ} {v : Option ν} :
    merge m k v = .ok m' ↔ m.get k = none ∧ ∃ w, v = some w ∧ m' = m.put k w := by
  cases v with
  | none => simp [merge]
  | some w =>
    rw [merge, ConcurrentHashMap.containsKey_eq]
    cases hk : m.get k with
    | none => simp [eq_comm]
    | some w' => simp

/-- The first element of a stream is taken before the others. -/
theorem collect_cons_eq_ok_iff {x : α} :
    collect keyMapper valueMapper m (x :: xs) = .ok m'
      ↔ m.get (keyMapper x) = none ∧ ∃ w, valueMapper x = some w
        ∧ collect keyMapper valueMapper (m.put (keyMapper x) w) xs = .ok m' := by
  rw [collect]
  cases h : merge m (keyMapper x) (valueMapper x) with
  | error e =>
    refine iff_of_false (fun he => by cases he) ?_
    rintro ⟨hk, w, hw, -⟩
    have hok := merge_eq_ok_iff.mpr ⟨hk, w, hw, rfl⟩
    rw [h] at hok
    cases hok
  | ok m₁ =>
    obtain ⟨hk, w, hw, rfl⟩ := merge_eq_ok_iff.mp h
    show collect keyMapper valueMapper _ xs = _ ↔ _
    simp [hk, hw]

/-- A stream can be put into a map exactly if its keys are new and distinct, and
its values not null. -/
theorem exists_collect_iff :
    (∃ m', collect keyMapper valueMapper m xs = .ok m')
      ↔ (xs.map keyMapper).Nodup
        ∧ ∀ x ∈ xs, m.get (keyMapper x) = none ∧ (valueMapper x).isSome = true := by
  induction xs generalizing m with
  | nil => simp [collect]
  | cons x xs ih =>
    simp only [collect_cons_eq_ok_iff, List.map_cons, List.nodup_cons, List.forall_mem_cons]
    constructor
    · rintro ⟨m', hk, w, hw, hrest⟩
      obtain ⟨hnodup, hnew⟩ := ih.mp ⟨m', hrest⟩
      have hfresh : ∀ y ∈ xs, keyMapper y ≠ keyMapper x ∧ m.get (keyMapper y) = none := by
        intro y hy
        have hget := (hnew y hy).1
        rw [ConcurrentHashMap.get_put] at hget
        split at hget
        · exact absurd hget (by simp)
        · next hne => exact ⟨hne, hget⟩
      refine ⟨⟨fun hmem => ?_, hnodup⟩, ⟨hk, by simp [hw]⟩, fun y hy => ?_⟩
      · obtain ⟨y, hy, he⟩ := List.mem_map.mp hmem
        exact (hfresh y hy).1 he
      · exact ⟨(hfresh y hy).2, (hnew y hy).2⟩
    · rintro ⟨⟨hx, hnodup⟩, ⟨hk, hw⟩, hnew⟩
      obtain ⟨w, hw⟩ := Option.isSome_iff_exists.mp hw
      have hrest : ∃ m', collect keyMapper valueMapper (m.put (keyMapper x) w) xs = .ok m' := by
        refine ih.mpr ⟨hnodup, fun y hy => ⟨?_, (hnew y hy).2⟩⟩
        have hne : keyMapper y ≠ keyMapper x := fun he => hx (List.mem_map.mpr ⟨y, hy, he⟩)
        rw [ConcurrentHashMap.get_put, if_neg hne]
        exact (hnew y hy).1
      obtain ⟨m', hm'⟩ := hrest
      exact ⟨m', hk, w, hw, hm'⟩

/-- A map holds what it held before, and the entries of the stream. -/
theorem get_of_collect (h : collect keyMapper valueMapper m xs = .ok m') (k : κ) (v : ν) :
    m'.get k = some v
      ↔ m.get k = some v ∨ ∃ x ∈ xs, keyMapper x = k ∧ valueMapper x = some v := by
  induction xs generalizing m with
  | nil =>
    cases h
    simp
  | cons x xs ih =>
    obtain ⟨hk, w, hw, hrest⟩ := collect_cons_eq_ok_iff.mp h
    rw [ih hrest, ConcurrentHashMap.get_put]
    by_cases hx : k = keyMapper x
    · subst hx
      simp [hk, hw]
    · simp [hx, Ne.symm hx]

/-- **A stream can be collected exactly if its keys are distinct and its values
not null.** -/
theorem toMap_isOk_iff :
    (∃ m, toMap keyMapper valueMapper xs = .ok m)
      ↔ (xs.map keyMapper).Nodup ∧ ∀ x ∈ xs, (valueMapper x).isSome = true := by
  rw [toMap, exists_collect_iff]
  simp

/-- **What was collected is what the stream had.** -/
theorem get_of_toMap (h : toMap keyMapper valueMapper xs = .ok m) (k : κ) (v : ν) :
    m.get k = some v ↔ ∃ x ∈ xs, keyMapper x = k ∧ valueMapper x = some v := by
  rw [get_of_collect h]
  simp

end Collectors
