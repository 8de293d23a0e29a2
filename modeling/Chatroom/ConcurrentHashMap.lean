import Mathlib.Data.List.AList

/-!
# A concurrent hash map, as one thread at a time sees it

Each single operation of a concurrent hash map is atomic, so one operation is
an ordinary function on a finite map. A map is kept as an association list
with distinct keys (Mathlib's `AList`): it can be evaluated, it has the finite
list of keys that an iteration walks, and no two entries share a key by
construction.

The order of the list is not part of what the map promises. Nothing here
reads it beyond `keySet`, and what is proved about `keySet` – its members, and
that none is repeated – does not depend on it.
-/

/-- **A finite map with distinct keys.** -/
def ConcurrentHashMap (κ ν : Type) : Type := AList (fun _ : κ => ν)

namespace ConcurrentHashMap

variable {κ ν : Type} [DecidableEq κ]

/-- The map without entries. -/
def empty : ConcurrentHashMap κ ν := (∅ : AList _)

/-- The value at a key, if there is one. -/
def get (m : ConcurrentHashMap κ ν) (k : κ) : Option ν := AList.lookup k m

/-- Set the value at a key, whether or not it had one. -/
def put (m : ConcurrentHashMap κ ν) (k : κ) (v : ν) : ConcurrentHashMap κ ν :=
  AList.insert k v m

/-- Drop the entry of a key, if there is one. -/
def remove (m : ConcurrentHashMap κ ν) (k : κ) : ConcurrentHashMap κ ν :=
  AList.erase k m

/-- Whether a key has a value. -/
def containsKey (m : ConcurrentHashMap κ ν) (k : κ) : Bool := (m.get k).isSome

/-- The keys, in the order an iteration meets them. -/
def keySet (m : ConcurrentHashMap κ ν) : List κ := AList.keys m

@[simp] theorem get_empty (k : κ) : (empty : ConcurrentHashMap κ ν).get k = none :=
  AList.lookup_empty k

/-- **A put is seen at its key and nowhere else.** -/
@[simp] theorem get_put (m : ConcurrentHashMap κ ν) (k k' : κ) (v : ν) :
    (m.put k v).get k' = if k' = k then some v else m.get k' := by
  by_cases h : k' = k
  · subst h
    rw [if_pos rfl]
    exact AList.lookup_insert m
  · rw [if_neg h]
    exact AList.lookup_insert_ne h

/-- **A removal is seen at its key and nowhere else.** -/
@[simp] theorem get_remove (m : ConcurrentHashMap κ ν) (k k' : κ) :
    (m.remove k).get k' = if k' = k then none else m.get k' := by
  by_cases h : k' = k
  · subst h
    rw [if_pos rfl]
    exact AList.lookup_erase k' m
  · rw [if_neg h]
    exact AList.lookup_erase_ne h

/-- The keys are those that have a value. -/
@[simp] theorem mem_keySet (m : ConcurrentHashMap κ ν) (k : κ) :
    k ∈ m.keySet ↔ (m.get k).isSome = true :=
  (AList.mem_keys (s := m)).symm.trans AList.lookup_isSome.symm

omit [DecidableEq κ] in
/-- No key is met twice. -/
theorem keySet_nodup (m : ConcurrentHashMap κ ν) : m.keySet.Nodup :=
  AList.keys_nodup m

/-- A key is contained as soon as its value is known. -/
theorem containsKey_eq (m : ConcurrentHashMap κ ν) (k : κ) :
    m.containsKey k = (m.get k).isSome := rfl

/-! ## How often a value is held -/

/-- The number of keys with a given value. -/
def valueCount [DecidableEq ν] (m : ConcurrentHashMap κ ν) (v : ν) : ℕ :=
  m.keySet.countP (fun k => m.get k = some v)

section ValueCount

variable [DecidableEq ν] {m : ConcurrentHashMap κ ν} {k : κ} {v : ν}

theorem valueCount_pos_iff : 0 < m.valueCount v ↔ ∃ k, m.get k = some v := by
  unfold valueCount
  rw [List.countP_pos_iff]
  constructor
  · rintro ⟨k, -, hk⟩
    exact ⟨k, of_decide_eq_true hk⟩
  · rintro ⟨k, hk⟩
    refine ⟨k, (mem_keySet m k).mpr ?_, decide_eq_true hk⟩
    rw [hk]
    rfl

/-- **A put at a new key adds one to the count of its value.** -/
theorem valueCount_put (hk : m.get k = none) (v' : ν) :
    (m.put k v).valueCount v' = m.valueCount v' + if v' = v then 1 else 0 := by
  have hnew : k ∉ m.keySet := by
    rw [mem_keySet, hk]
    simp
  have hkeys : (m.put k v).keySet = k :: m.keySet.erase k := AList.keys_insert m
  have hothers : ∀ k' ∈ m.keySet, (m.put k v).get k' = some v' ↔ m.get k' = some v' := by
    intro k' hk'
    have hne : k' ≠ k := fun h => hnew (h ▸ hk')
    rw [get_put, if_neg hne]
  unfold valueCount
  rw [hkeys, List.erase_of_not_mem hnew, List.countP_cons, get_put, if_pos rfl]
  congr 1
  · exact List.countP_congr (fun k' hk' => by simpa using hothers k' hk')
  · simp [eq_comm]

/-- **A removal takes one from the count of the value it drops.** -/
theorem valueCount_remove (hk : m.get k = some v) (v' : ν) :
    (m.remove k).valueCount v' = m.valueCount v' - if v' = v then 1 else 0 := by
  have hmem : k ∈ m.keySet := by
    rw [mem_keySet, hk]
    rfl
  have hothers : (m.remove k).valueCount v'
      = (m.keySet.erase k).countP (fun k => m.get k = some v') := by
    show ((m.remove k).keySet).countP _ = _
    rw [show (m.remove k).keySet = m.keySet.erase k from AList.keys_erase k m]
    refine List.countP_congr (fun k' hk' => ?_)
    rw [get_remove, if_neg (m.keySet_nodup.mem_erase_iff.mp hk').1]
  have hall : m.valueCount v'
      = (m.keySet.erase k).countP (fun k => m.get k = some v') + if v' = v then 1 else 0 := by
    unfold valueCount
    rw [(List.perm_cons_erase hmem).countP_eq, List.countP_cons, hk]
    simp [eq_comm]
  rw [hothers, hall, Nat.add_sub_cancel]

end ValueCount

end ConcurrentHashMap
