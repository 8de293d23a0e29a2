import Chatroom.Collectors
import Chatroom.Entity

/-!
# The two room queries

`RoomServiceImpl` answers two questions about one relation: which users are in
which room, and which rooms a user is in. The second is put together from ids.
The first is put together in a `RoomUserDto` per room, which are then collected
into a map from the room of each to its users – but the room is never put into
the dto. The key is null, for every room.

The users of a dto are the right ones (`mem_userList_iff`), and the rooms of a
user too (`mem_getRoomByUserId_iff`), so that before the dtos are collected the
two queries agree (`mem_getRoomByUserId_iff_mem_userList`); it is only in the map
that they have nothing to do with each other. A table with one room gives a map
from null to its users, and a table with more gives an exception
(`getRoomMap_isOk_iff`): the two queries agree if there is no room at all
(`queriesAgree_iff`).
-/

/-- What `getRoomMap` puts together for a room. -/
structure RoomUserDto where
  ruId : Option Long
  room : Option Room
  userList : Option (List (Option User))
  deriving DecidableEq, Repr

/-- The dto without content that Java's `new RoomUserDto()` makes. -/
def RoomUserDto.new : RoomUserDto := ⟨none, none, none⟩

namespace RoomTables

/-- The users that a dto lists for a room. -/
def userList (tables : RoomTables) (db : UserTable) (room : Room) : List (Option User) :=
  (tables.roomUsers.filter (fun ru => ru.roomId = room.id)).map
    (fun ru => db.getUserById ru.userId)

/-- The dto of a room. -/
def roomUserDto (tables : RoomTables) (db : UserTable) (room : Room) : RoomUserDto :=
  { RoomUserDto.new with userList := some (tables.userList db room) }

/-- `RoomServiceImpl.getRoomMap`. -/
def getRoomMap (tables : RoomTables) (db : UserTable) :
    Except CollectorException (ConcurrentHashMap (Option Room) (List (Option User))) :=
  Collectors.toMap RoomUserDto.room RoomUserDto.userList
    (tables.rooms.map (tables.roomUserDto db))

/-- **What the tables promise**: rooms have ids, no two the same, and the rows
that relate users to rooms name users that exist. -/
structure WellFormed (tables : RoomTables) (db : UserTable) : Prop where
  id_isSome : ∀ room ∈ tables.rooms, room.id.isSome = true
  ids_nodup : (tables.rooms.map Room.id).Nodup
  user_exists : ∀ ru ∈ tables.roomUsers, (db.getUserById ru.userId).isSome = true

/-- A row relates a user to a room. -/
def Related (tables : RoomTables) (u : User) (room : Room) : Prop :=
  ∃ ru ∈ tables.roomUsers, ru.userId = u.id ∧ ru.roomId = room.id

section Queries

variable {tables : RoomTables} {db : UserTable} {u : User} {room : Room}

/-- **The users of a dto** are those related to its room. -/
theorem mem_userList_iff (h : tables.WellFormed db) (v : Option User) :
    v ∈ tables.userList db room ↔ ∃ u ∈ db.rows, v = some u ∧ tables.Related u room := by
  simp only [userList, List.mem_map, List.mem_filter, decide_eq_true_eq]
  constructor
  · rintro ⟨ru, ⟨hru, hroom⟩, rfl⟩
    obtain ⟨u, hu⟩ := Option.isSome_iff_exists.mp (h.user_exists ru hru)
    exact ⟨u, UserTable.mem_of_getUserById hu, hu, ru, hru,
      (UserTable.id_eq_of_getUserById hu).symm, hroom⟩
  · rintro ⟨u, hu, rfl, ru, hru, hid, hroom⟩
    exact ⟨ru, ⟨hru, hroom⟩, by rw [hid, UserTable.getUserById_of_mem hu]⟩

/-- **The rooms of a user** are those it is related to. -/
theorem mem_getRoomByUserId_iff (h : tables.WellFormed db) (hu : u ∈ db.rows) :
    room ∈ (tables.getRoomByUserId u.id).getD []
      ↔ room ∈ tables.rooms ∧ tables.Related u room := by
  have huid : u.id ≠ none := Option.isSome_iff_ne_none.mp (db.id_isSome u hu)
  have hmem : room ∈ (tables.getRoomByUserId u.id).getD []
      ↔ room ∈ tables.rooms ∧ room.id ≠ none ∧ tables.Related u room := by
    simp only [getRoomByUserId]
    split
    · next hempty =>
      refine iff_of_false (by simp) ?_
      rintro ⟨-, -, ru, hru, hid, -⟩
      have hfilter := List.filter_eq_nil_iff.mp hempty ru hru
      simp [hid, huid] at hfilter
    · simp only [Option.getD_some, List.mem_filter, List.mem_map, decide_eq_true_eq, Related]
      refine and_congr_right (fun _ => and_congr_right (fun _ => ?_))
      refine exists_congr (fun ru => ?_)
      constructor
      · rintro ⟨⟨hru, -, hid⟩, hroom⟩
        exact ⟨hru, hid, hroom⟩
      · rintro ⟨hru, hid, hroom⟩
        exact ⟨⟨hru, by rw [hid]; exact huid, hid⟩, hroom⟩
  rw [hmem]
  refine and_congr_right (fun hroom => and_iff_right ?_)
  exact Option.isSome_iff_ne_none.mp (h.id_isSome room hroom)

/-- **A user is in a room by one query exactly if it is by the other**, before
the dtos are collected. -/
theorem mem_getRoomByUserId_iff_mem_userList (h : tables.WellFormed db) (hu : u ∈ db.rows)
    (hroom : room ∈ tables.rooms) :
    room ∈ (tables.getRoomByUserId u.id).getD [] ↔ some u ∈ tables.userList db room := by
  rw [mem_getRoomByUserId_iff h hu, mem_userList_iff h]
  simp [hroom, hu]

end Queries

/-- **A map of the rooms to their users.** -/
structure IsRoomMap (tables : RoomTables) (db : UserTable)
    (map : ConcurrentHashMap (Option Room) (List (Option User))) : Prop where
  /-- Its keys are the rooms of the table. -/
  keys : ∀ key, (map.get key).isSome = true ↔ ∃ room ∈ tables.rooms, key = some room
  /-- A room has the users that are related to it. -/
  users : ∀ room users, map.get (some room) = some users →
    ∀ v, v ∈ users ↔ ∃ u ∈ db.rows, v = some u ∧ tables.Related u room

/-- **The two queries agree**: the one returns a map of the rooms to their
users, and the other returns the rooms under which a user is in that map. -/
def QueriesAgree (tables : RoomTables) (db : UserTable) : Prop :=
  ∃ map, tables.getRoomMap db = .ok map ∧ tables.IsRoomMap db map
    ∧ ∀ u ∈ db.rows, ∀ room, room ∈ (tables.getRoomByUserId u.id).getD []
      ↔ ∃ users, map.get (some room) = some users ∧ some u ∈ users

/-- **The map has no key but null**, whenever there is one. -/
theorem key_eq_none {tables : RoomTables} {db : UserTable}
    {map : ConcurrentHashMap (Option Room) (List (Option User))}
    (hmap : tables.getRoomMap db = .ok map) {key : Option Room} {users : List (Option User)}
    (hkey : map.get key = some users) : key = none := by
  obtain ⟨dto, hdto, hroom, -⟩ := (Collectors.get_of_toMap hmap key users).mp hkey
  obtain ⟨room, -, rfl⟩ := List.mem_map.mp hdto
  exact hroom.symm

/-- A room of the table would have to be a key, but no key is a room. -/
theorem rooms_eq_nil_of_isRoomMap {tables : RoomTables} {db : UserTable}
    {map : ConcurrentHashMap (Option Room) (List (Option User))}
    (hmap : tables.getRoomMap db = .ok map) (hrooms : tables.IsRoomMap db map) :
    tables.rooms = [] := by
  refine List.eq_nil_iff_forall_not_mem.mpr (fun room hroom => ?_)
  obtain ⟨users, husers⟩ :=
    Option.isSome_iff_exists.mp ((hrooms.keys (some room)).mpr ⟨room, hroom, rfl⟩)
  exact absurd (key_eq_none hmap husers) (by simp)

/-- **The two queries agree exactly if there is no room.** -/
theorem queriesAgree_iff (tables : RoomTables) (db : UserTable) :
    tables.QueriesAgree db ↔ tables.rooms = [] := by
  constructor
  · rintro ⟨map, hmap, hrooms, -⟩
    exact rooms_eq_nil_of_isRoomMap hmap hrooms
  · intro hrooms
    refine ⟨.empty, by rw [getRoomMap, hrooms]; rfl, ⟨?_, ?_⟩, fun u _ room => ?_⟩
    · simp [hrooms]
    · simp
    · refine iff_of_false (fun hmem => ?_) (by simp)
      simp only [getRoomByUserId] at hmem
      split at hmem
      · exact absurd hmem (by simp)
      · simp [hrooms] at hmem

/-- More than one room, and the map is never made. -/
theorem getRoomMap_isOk_iff (tables : RoomTables) (db : UserTable) :
    (∃ map, tables.getRoomMap db = .ok map) ↔ tables.rooms.length ≤ 1 := by
  have hkeys : (tables.rooms.map (tables.roomUserDto db)).map RoomUserDto.room
      = List.replicate tables.rooms.length none := by
    rw [List.map_map]
    exact List.map_const'
  rw [getRoomMap, Collectors.toMap_isOk_iff, hkeys, List.nodup_replicate]
  refine and_iff_left (fun dto hdto => ?_)
  obtain ⟨room, -, rfl⟩ := List.mem_map.mp hdto
  rfl

/-- One room with one user. -/
def oneRoom : RoomTables := ⟨[⟨some 7, some "netty"⟩], [⟨some 1, some 7, some 1⟩]⟩

/-- The user is in the room by one query, and the other has no such room. -/
theorem not_queriesAgree :
    ¬ ∀ (tables : RoomTables) (db : UserTable), tables.WellFormed db →
      tables.QueriesAgree db := by
  intro h
  obtain ⟨map, hmap, hrooms, -⟩ := h oneRoom sampleTable ⟨by decide, by decide, by decide⟩
  exact absurd (rooms_eq_nil_of_isRoomMap hmap hrooms) (by decide)

end RoomTables
