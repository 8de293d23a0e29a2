import Mathlib.Data.Finset.Option

/-!
# Session tables

What a chat server keeps, seen from outside: which channel is a session of
which user, and which rooms each session is in. `κ`, `ν` and `ρ` are the types
of the channels, the users and the rooms.

A table is a function, and nothing in it says that a user has one session or a
channel one user. Where that is needed it is asked of the step that opens a
session (`Admits`).
-/

/-- **A session table**: for a channel and a user, the rooms of their session,
if there is one. -/
def SessionTable (κ ν ρ : Type*) : Type _ := κ → ν → Option (Finset ρ)

namespace SessionTable

variable {κ ν ρ : Type*} (T : SessionTable κ ν ρ) {c c' : κ} {u v : ν} {room : ρ}

/-- The table without sessions. -/
def empty : SessionTable κ ν ρ := fun _ _ => none

/-- There is a session of a user on a channel. -/
def Has (c : κ) (u : ν) : Prop := (T c u).isSome = true

/-- There is a session of a user on a channel, and it is in a room. -/
def InRoom (c : κ) (u : ν) (room : ρ) : Prop := ∃ rooms, T c u = some rooms ∧ room ∈ rooms

/-- A session may be opened, or enter a room: the user has no session
elsewhere, the channel no session of another user, and the session is not in
the room. -/
def Admits (c : κ) (u : ν) (room : Option ρ) : Prop :=
  (∀ c', T.Has c' u → c' = c) ∧ (∀ v, T.Has c v → v = u)
    ∧ ∀ r, room = some r → ¬ T.InRoom c u r

theorem not_has_empty : ¬ (empty : SessionTable κ ν ρ).Has c u := by
  simp [Has, empty]

theorem not_inRoom_empty : ¬ (empty : SessionTable κ ν ρ).InRoom c u room := by
  simp [InRoom, empty]

variable {T}

theorem InRoom.has (h : T.InRoom c u room) : T.Has c u := by
  obtain ⟨rooms, hrooms, -⟩ := h
  rw [Has, hrooms]
  rfl

section Close

variable [DecidableEq κ]

variable (T) in
/-- End the sessions of a channel. -/
def close (c : κ) : SessionTable κ ν ρ := fun c' u => if c' = c then none else T c' u

@[simp] theorem has_close : (T.close c).Has c' u ↔ c' ≠ c ∧ T.Has c' u := by
  unfold Has close
  split <;> simp [*]

@[simp] theorem inRoom_close :
    (T.close c).InRoom c' u room ↔ c' ≠ c ∧ T.InRoom c' u room := by
  unfold InRoom close
  split <;> simp [*]

/-- Ending the sessions of a channel without any changes nothing. -/
theorem close_of_forall_not_has (h : ∀ u, ¬ T.Has c u) : T.close c = T := by
  funext c' u
  unfold close
  split
  · next hc =>
    subst hc
    exact (Option.not_isSome_iff_eq_none.mp (h u)).symm
  · rfl

end Close

section Open

variable [DecidableEq κ] [DecidableEq ν] [DecidableEq ρ]

variable (T) in
/-- Open a session, if it is not there, and let it enter a room, if one is
named. -/
def openSession (c : κ) (u : ν) (room : Option ρ) : SessionTable κ ν ρ :=
  fun c' u' => if c' = c ∧ u' = u then some ((T c u).getD ∅ ∪ room.toFinset) else T c' u'

variable {roomId : Option ρ}

@[simp] theorem has_openSession :
    (T.openSession c u roomId).Has c' v ↔ T.Has c' v ∨ (c' = c ∧ v = u) := by
  unfold Has openSession
  split <;> simp [*]

@[simp] theorem inRoom_openSession :
    (T.openSession c u roomId).InRoom c' v room
      ↔ T.InRoom c' v room ∨ (c' = c ∧ v = u ∧ roomId = some room) := by
  unfold InRoom openSession
  split
  · next h =>
    obtain ⟨rfl, rfl⟩ := h
    cases T c' v <;> simp
  · next h =>
    have hno : ¬ (c' = c ∧ v = u ∧ roomId = some room) := fun hc => h ⟨hc.1, hc.2.1⟩
    rw [or_iff_left hno]

end Open

end SessionTable
