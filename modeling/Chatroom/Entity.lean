import Mathlib.Data.List.Nodup

/-!
# The entities of the chat room

The records the server exchanges and stores, field by field, and the user
table with the look-ups of `UserServiceImpl`. Java references may be null, so a
field of a reference type is an `Option`; `none` is null.

`Message.timeStamp` is left out: its constructor sets it from the wall clock
and nothing in the server reads it.
-/

/-- Java's `long`, and a `Long` that is not null. -/
abbrev Long : Type := Int64

/-- Java's `Integer`. -/
abbrev Integer : Type := Int32

/-- What Java's string concatenation makes of a string that may be null. -/
def javaString : Option String → String
  | some s => s
  | none => "null"

/-- What Java's string concatenation makes of a `Long` that may be null. -/
def javaLong (n : Option Long) : String := javaString (n.map toString)

/-- **A user**, as stored and as received in a login request. Equality is that
of all the fields, as Lombok generates it. -/
structure User where
  id : Option Long
  userName : Option String
  account : Option String
  password : Option String
  deriving DecidableEq, Repr

/-- **A message**, as clients send it and as the server relays it. -/
structure Message where
  id : Option Long
  type : Option Integer
  content : Option String
  senderId : Option Long
  receiverId : Option Long
  roomId : Option Long
  deriving DecidableEq, Repr

/-- The message without content that Java's `new Message()` makes. -/
def Message.new : Message := ⟨none, none, none, none, none, none⟩

/-- The kinds of message a client sends. -/
inductive MessageType where
  /-- Come online in a room. -/
  | link
  /-- Speak to a room. -/
  | groupSend
  /-- Speak to one user. -/
  | singleSend
  deriving DecidableEq, Repr

/-- The code of a kind, as messages carry it. -/
def MessageType.getCode : MessageType → Integer
  | link => 1
  | groupSend => 2
  | singleSend => 3

namespace Message

/-- The message is of the given kind. -/
def HasType (m : Message) (t : MessageType) : Prop := m.type = some t.getCode

instance (m : Message) (t : MessageType) : Decidable (m.HasType t) :=
  inferInstanceAs (Decidable (_ = _))

/-- **The three kinds exclude each other.** -/
theorem HasType.unique {m : Message} {t t' : MessageType} (h : m.HasType t)
    (h' : m.HasType t') : t = t' := by
  have hcode : t.getCode = t'.getCode := Option.some.inj (h.symm.trans h')
  cases t <;> cases t' <;> first | rfl | exact absurd hcode (by decide)

theorem HasType.not_hasType {m : Message} {t t' : MessageType}
    (h : m.HasType t) (hne : t ≠ t') : ¬ m.HasType t' :=
  fun h' => hne (h.unique h')

theorem HasType.type_ne_none {m : Message} {t : MessageType}
    (h : m.HasType t) : m.type ≠ none :=
  fun hnone => Option.some_ne_none t.getCode (h.symm.trans hnone)

end Message

/-! ## The user table -/

/-- **The stored users**: every row has an id, and no two rows share one. -/
structure UserTable where
  rows : List User
  /-- The primary key is never null. -/
  id_isSome : ∀ u ∈ rows, u.id.isSome = true
  /-- The primary key is unique. -/
  ids_nodup : (rows.map User.id).Nodup

namespace UserTable

/-- The row with a given primary key, or null. -/
def selectById (db : UserTable) : Option Long → Option User
  | none => none
  | some id => db.rows.find? (fun u => u.id = some id)

/-- `UserServiceImpl.getUserById`. -/
def getUserById (db : UserTable) (id : Option Long) : Option User :=
  db.selectById id

/-- The rows with a given account. -/
def selectByAccount (db : UserTable) : Option String → List User
  | none => []
  | some account => db.rows.filter (fun u => u.account = some account)

variable {db : UserTable} {id id' : Option Long} {u v : User}

@[simp] theorem getUserById_none : db.getUserById none = none := rfl

/-- A user found under an id has that id. -/
theorem id_eq_of_getUserById (h : db.getUserById id = some u) : u.id = id := by
  cases id with
  | none => exact absurd h (by simp)
  | some i => simpa using List.find?_some h

/-- A user found is a row of the table. -/
theorem mem_of_getUserById (h : db.getUserById id = some u) : u ∈ db.rows := by
  cases id with
  | none => exact absurd h (by simp)
  | some i => exact List.mem_of_find?_eq_some h

/-- **A row is found under its own id.** -/
theorem getUserById_of_mem (h : u ∈ db.rows) : db.getUserById u.id = some u := by
  obtain ⟨i, hi⟩ := Option.isSome_iff_exists.mp (db.id_isSome u h)
  have hex : (db.rows.find? (fun v => v.id = some i)).isSome := by
    rw [List.find?_isSome]
    exact ⟨u, h, by simpa using hi⟩
  obtain ⟨v, hv⟩ := Option.isSome_iff_exists.mp hex
  have hid : v.id = u.id := by
    rw [hi]
    simpa using List.find?_some hv
  rw [hi]
  refine hv.trans (congrArg some ?_)
  exact List.inj_on_of_nodup_map db.ids_nodup (List.mem_of_find?_eq_some hv) h hid

/-- Two users found are equal as soon as their ids are. -/
theorem eq_of_id_eq (hu : db.getUserById id = some u)
    (hv : db.getUserById id' = some v) (h : u.id = v.id) : u = v := by
  have hu' := id_eq_of_getUserById hu
  have hv' := id_eq_of_getUserById hv
  subst hu' hv'
  rw [h, hv] at hu
  exact (Option.some.inj hu).symm

end UserTable

/-! ## Rooms -/

/-- **A room**, as stored. -/
structure Room where
  id : Option Long
  name : Option String
  deriving DecidableEq, Repr

/-- A row that relates a user to a room. -/
structure RoomUser where
  ruId : Option Long
  roomId : Option Long
  userId : Option Long
  deriving DecidableEq, Repr

/-- The rooms and the relation of users to them. -/
structure RoomTables where
  rooms : List Room
  roomUsers : List RoomUser

/-- `RoomServiceImpl.getRoomByUserId`: the rooms of a user, or null if there are
none. A comparison with null selects no row. -/
def RoomTables.getRoomByUserId (tables : RoomTables) (uid : Option Long) : Option (List Room) :=
  let roomUserList := tables.roomUsers.filter (fun ru => ru.userId ≠ none ∧ ru.userId = uid)
  if roomUserList = [] then
    none
  else
    let roomIds := roomUserList.map RoomUser.roomId
    some (tables.rooms.filter (fun room => room.id ≠ none ∧ room.id ∈ roomIds))

/-! ## A table to look at

Two of the rows the repository's tests insert. -/

/-- A stored user. -/
def aaa : User := ⟨some 1, some "aaa", some "1002", some "123456"⟩

/-- Another stored user. -/
def bbb : User := ⟨some 2, some "bbb", some "1003", some "123456"⟩

def sampleTable : UserTable where
  rows := [aaa, bbb]
  id_isSome := by decide
  ids_nodup := by decide
