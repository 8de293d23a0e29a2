import Chatroom.BroadcastDeeds
import Chatroom.EventLoops
import Chatroom.OwnedViews

/-!
# What a client owns of the registries

Among the registries there is a part that only one client changes, as long as no
two clients have a channel in common and each links as its own user: what its
channels are linked as, the context of its user, and how often its user is in each
list. The rest is shared. A fresh list that another client puts at a room replaces
the one there was, with everybody in it, and a traversal of the rooms meets what it
happens to meet.

`clientViews` is the view of a client that is kept through this. Entries are counted
only in the lists that are still those of their rooms in the end. Such a list has
been in the map without a break since it was made, so that a traversal cannot have
missed it – this is what a traversal of a concurrent map does promise
(`ValuesMeet`). How many lists have been made for a room is the one thing in the
view that others change; it only grows, and where no list replaces another it stays
as it is once there is one (`NoListReplaced`).
-/

open AtomicSystem AtomicProgram ChatroomServerHandler RegistryOp

/-! ## The lists made for a room

A list has its room and a number, and the list of a room is the one with the highest
number. So a list that is still there in the end is the one that was made last, and
whether a list is lost can be told from how many were made. -/

namespace RoomStubMap

variable (m : RoomStubMap) (r r' : Long) (us : List User) (l l' : ListRef) (u : User)

/-- The list of a room is the last one made for it. -/
theorem get_eq_ite_nextIndex :
    m.get r = if m.nextIndex r = 0 then none else some ⟨r, m.nextIndex r - 1⟩ := by
  unfold get nextIndex
  cases m.current.get r with
  | none => rfl
  | some n => simp

/-- A list that is the list of its room is the last one made for it. -/
theorem get_eq_some_iff : m.get l.roomId = some l ↔ m.nextIndex l.roomId = l.index + 1 := by
  obtain ⟨r, i⟩ := l
  show m.get r = some ⟨r, i⟩ ↔ m.nextIndex r = i + 1
  rw [get_eq_ite_nextIndex]
  split
  · next h => simp [h]
  · next h =>
    rw [Option.some_inj, ListRef.mk.injEq, and_iff_right rfl]
    omega

@[simp] theorem nextIndex_empty : empty.nextIndex r = 0 := by simp [nextIndex, empty]

/-- A fresh list is one more for its room. -/
@[simp] theorem nextIndex_put :
    (m.put r us).nextIndex r' = if r' = r then m.nextIndex r + 1 else m.nextIndex r' := by
  show ((m.current.put r (m.nextIndex r)).get r').elim 0 (· + 1) = _
  rw [ConcurrentHashMap.get_put]
  split
  · rfl
  · rfl

@[simp] theorem nextIndex_add : (m.add l u).nextIndex r = m.nextIndex r := rfl

@[simp] theorem nextIndex_remove : (m.remove l u).nextIndex r = m.nextIndex r := rfl

/-- A fresh list has the content it is put with. -/
theorem lists_put :
    (m.put r us).lists l = if l = ⟨r, m.nextIndex r⟩ then us else m.lists l :=
  Function.update_apply m.lists _ us l

/-- An addition is seen in the list it is made to. -/
theorem lists_add :
    (m.add l u).lists l' = if l' = l then m.lists l' ++ [u] else m.lists l' := by
  show Function.update m.lists l (m.lists l ++ [u]) l' = _
  rw [Function.update_apply]
  split
  · next hl => rw [hl]
  · rfl

end RoomStubMap

/-! ## Histories of the loops

The threads are the loops of the clients, one for each, and so an operation in a history
is one of a user. -/

/-- **The registries after a history** of the loops, and the frames written. -/
def stateAt (h : LoopHistory) : ServerState := replay RegistryOp.exec .empty h

@[simp] theorem stateAt_begin (h : LoopHistory) (u : User) :
    stateAt (h ++ [.begin u]) = stateAt h := replay_begin _ _ _ _

@[simp] theorem stateAt_perform (h : LoopHistory) (u : User) (o : RegistryOp) (a : o.Answer) :
    stateAt (h ++ [.perform u o a]) = (o.exec (stateAt h)).2 := replay_perform _ _ _ _ _ _

/-- How many lists have been made for a room. -/
def ServerState.made (s : ServerState) (r : Long) : ℕ := s.registries.roomStubMap.nextIndex r

/-- **What a traversal of the rooms promises**: it meets every list that is the list
of its room when it begins, and still is in the end. -/
def ValuesMeet (h : LoopHistory) : Prop :=
  ∀ pre u ls, pre ++ [.perform u roomStubMapValues ls] <+: h →
    ∀ l ∈ (stateAt pre).registries.roomStubMap.values,
      l ∈ (stateAt h).registries.roomStubMap.values → l ∈ ls

/-- **No fresh list replaces another at a room**: it is put there only while there is
none. The source tests for a list before it puts one, but not in one step; between the
two another link may have put its own. -/
def NoListReplacedAt (h : LoopHistory) (room : Long) : Prop :=
  ∀ pre u us a, pre ++ [.perform u (roomStubMapPut room us) a] <+: h →
    (stateAt pre).registries.roomStubMap.get room = none

/-- **No fresh list replaces another**, at any room. -/
def NoListReplaced (h : LoopHistory) : Prop := ∀ room, NoListReplacedAt h room

/-- An operation makes a list, for one room, or none. -/
theorem RegistryOp.made_exec (o : RegistryOp) (s : ServerState) (r : Long) :
    (o.exec s).2.made r = s.made r
      ∨ ∃ us, o = roomStubMapPut r us ∧ (o.exec s).2.made r = s.made r + 1 := by
  obtain ⟨reg, w⟩ := s
  cases o with
  | roomStubMapPut r' us =>
    show (reg.roomStubMap.put r' us).nextIndex r = _ ∨ _
    rw [RoomStubMap.nextIndex_put]
    split
    · next hr =>
      subst hr
      refine Or.inr ⟨us, rfl, ?_⟩
      show (reg.roomStubMap.put r us).nextIndex r = _
      rw [RoomStubMap.nextIndex_put, if_pos rfl]
      rfl
    · exact Or.inl rfl
  | _ => exact Or.inl rfl

section Made

variable {h pre pre' : LoopHistory} {r : Long}

/-- The lists made for a room do not become fewer, since the source never takes a list
out of the map. -/
theorem made_mono (hpre : pre <+: h) : (stateAt pre).made r ≤ (stateAt h).made r := by
  refine forall_later_of_step (P := fun p => (stateAt pre).made r ≤ (stateAt p).made r)
    (Nat.le_refl _) (fun p act _ _ hp => ?_) hpre (List.prefix_refl h)
  cases act with
  | begin u =>
    rw [stateAt_begin]
    exact hp
  | perform u o a =>
    rw [stateAt_perform]
    obtain hmade | ⟨-, -, hmade⟩ := o.made_exec (stateAt p) r
    · exact hp.trans hmade.ge
    · exact hp.trans ((Nat.le_succ _).trans hmade.ge)

/-- Where no list replaces another, a room that has a list gets no other one. -/
theorem made_eq_of_noListReplacedAt (hno : NoListReplacedAt h r) (hpre : pre <+: pre')
    (hpre' : pre' <+: h) (hmade : (stateAt pre).made r ≠ 0) :
    (stateAt pre').made r = (stateAt pre).made r := by
  refine forall_later_of_step (P := fun p => (stateAt p).made r = (stateAt pre).made r)
    rfl (fun p act _ hstep hp => ?_) hpre hpre'
  cases act with
  | begin u =>
    rw [stateAt_begin]
    exact hp
  | perform u o a =>
    rw [stateAt_perform]
    obtain hsame | ⟨us, rfl, -⟩ := o.made_exec (stateAt p) r
    · exact hsame.trans hp
    · -- a fresh list is put at a room only where there is none
      have hnone := hno p u us a hstep
      rw [RoomStubMap.get_eq_ite_nextIndex] at hnone
      split at hnone
      · next hzero => exact absurd (hp.symm.trans hzero) hmade
      · exact absurd hnone (by simp)

end Made

/-! ## The view of a client

The view is read off the registries (`ClientView.of`), and what becomes of it is told
twice: by the operations of the client itself, each of which is answered as the view
says (`Guard`, `Reads`, `next`), and by those of the others, which leave all of it alone
but the number of lists (`Rely`). That both are true is `respected_clientViews`. -/

/-- **What a client sees of the registries.** -/
@[ext] structure ClientView where
  /-- What each of its channels is linked as. -/
  channelUser : ChannelId → Option User
  /-- The context of its user. -/
  context : Option ChannelHandlerContext
  /-- How often its user is in each list that is the list of its room in the end. -/
  entries : ListRef → ℕ
  /-- How many lists have been made for each room. -/
  made : Long → ℕ

/-- The ids of the channels of a client: those that its calls are for. -/
def channelsOf (calls : User → List Event) (u : User) : List ChannelId :=
  (calls u).map (fun e => e.ctx.channelId)

/-- **No channel belongs to two clients.** -/
def ChannelsDisjoint (calls : User → List Event) : Prop :=
  ∀ u v c, c ∈ channelsOf calls u → c ∈ channelsOf calls v → u = v

/-- The list is the list of its room after a history. As the history is the whole one,
this says of a list while it is in use whether it will be lost. -/
def IsLast (h : LoopHistory) (l : ListRef) : Prop :=
  (stateAt h).registries.roomStubMap.get l.roomId = some l

instance (h : LoopHistory) (l : ListRef) : Decidable (IsLast h l) :=
  inferInstanceAs (Decidable (_ = _))

namespace ClientView

/-- **The view of a client, read off the registries.** It looks only at its own
channels, at its own user, and at the lists that are not lost in the end; an entry in
a list that is lost is one that nobody will read. -/
def of (calls : User → List Event) (h : LoopHistory) (u : User) (s : ServerState) :
    ClientView where
  channelUser c := if c ∈ channelsOf calls u then s.registries.channelId2User.get c else none
  context := s.registries.user2ChannelCtx.get u
  entries l := if IsLast h l then (s.registries.roomStubMap.lists l).count u else 0
  made := s.made

/-- **What the other clients may make of a view**: they make fresh lists, for rooms
that have none where no list replaces another. A client counts on this between any two
of its operations. -/
structure Rely (h : LoopHistory) (v v' : ClientView) : Prop where
  channelUser : v'.channelUser = v.channelUser
  context : v'.context = v.context
  entries : v'.entries = v.entries
  made_le : ∀ r, v.made r ≤ v'.made r
  made_eq : ∀ r, NoListReplacedAt h r → v.made r ≠ 0 → v'.made r = v.made r

/-- **What a client may do**: register its own user on its own channels, and enter
and remove no other. It adds its user to a list that has been made; one that has not
would be overwritten when it is. -/
def Guard (calls : User → List Event) (u : User) (v : ClientView) : RegistryOp → Prop
  | user2ChannelCtxPut w _ | user2ChannelCtxRemove w => w = u
  | channelId2UserGet c | channelId2UserPut c _ | channelId2UserRemove c =>
      c ∈ channelsOf calls u
  | roomStubMapPut _ us => us = [u]
  | usersAdd l w => w = u ∧ l.index < v.made l.roomId
  | usersRemove _ w => w = u
  | _ => True

/-- **What a client may be answered.** What it asks of its own part is answered by the
view. Of the rest it is told only what a program needs: that a missing context is a
miss, that a traversal of the rooms met the lists its user is in, and that a list it
puts or adds to is not lost where no list replaces another. -/
def Reads (h : LoopHistory) (u : User) (v : ClientView) : (o : RegistryOp) → o.Answer → Prop
  | user2ChannelCtxGet _, a => a = none → LooksUpMissing (ownOps u h)
  | channelId2UserGet c, a => a = v.channelUser c
  | roomStubMapGet r, a => a = if v.made r = 0 then none else some ⟨r, v.made r - 1⟩
  | roomStubMapPut r _, _ => NoListReplacedAt h r → v.made r = 0 ∧ IsLast h ⟨r, 0⟩
  | roomStubMapValues, a => ∀ l, 0 < v.entries l → l ∈ a
  | usersAdd l _, _ => NoListReplacedAt h l.roomId → l.index + 1 = v.made l.roomId → IsLast h l
  | _, _ => True

/-- **What an operation of a client makes of its view.** A list is entered in the view
only if it is not lost, as `ClientView.of` reads it; that the number of the new list
is the number of lists made before is how the registries name it. -/
def next (h : LoopHistory) (v : ClientView) : RegistryOp → ClientView
  | user2ChannelCtxPut _ ctx => { v with context := some ctx }
  | user2ChannelCtxRemove _ => { v with context := none }
  | channelId2UserPut c w => { v with channelUser := Function.update v.channelUser c (some w) }
  | channelId2UserRemove c => { v with channelUser := Function.update v.channelUser c none }
  | roomStubMapPut r _ =>
      { v with
        entries := fun l => if l = ⟨r, v.made r⟩ ∧ IsLast h l then 1 else v.entries l
        made := Function.update v.made r (v.made r + 1) }
  | usersAdd l _ =>
      { v with
        entries := fun l' => if l' = l ∧ IsLast h l' then v.entries l' + 1 else v.entries l' }
  | usersRemove l _ =>
      { v with entries := fun l' => if l' = l then v.entries l' - 1 else v.entries l' }
  | _ => v

/-- If the others do nothing, nothing is made of it. -/
theorem Rely.refl (h : LoopHistory) (v : ClientView) : Rely h v v :=
  ⟨rfl, rfl, rfl, fun _ => Nat.le_refl _, fun _ _ _ => rfl⟩

/-- What they make of it in two turns they may make of it in one. -/
theorem Rely.trans {h : LoopHistory} {v v' v'' : ClientView} (hv : Rely h v v')
    (hv' : Rely h v' v'') : Rely h v v'' where
  channelUser := hv'.channelUser.trans hv.channelUser
  context := hv'.context.trans hv.context
  entries := hv'.entries.trans hv.entries
  made_le r := (hv.made_le r).trans (hv'.made_le r)
  made_eq r hno hr := by
    have hstay := hv.made_eq r hno hr
    exact (hv'.made_eq r hno (hstay ▸ hr)).trans hstay

end ClientView

/-- **What holds of the registries along a history**: they are its replay, the lists
that have not been made are empty, and only channels of clients are linked. -/
structure LoopInv (calls : User → List Event) (pre : LoopHistory) (s : ServerState) : Prop where
  /-- What is known of the history is known of the registries. -/
  replay : s = stateAt pre
  /-- A fresh list has only the users it is put with. -/
  fresh : ∀ l, s.made l.roomId ≤ l.index → s.registries.roomStubMap.lists l = []
  linked : ∀ c w, s.registries.channelId2User.get c = some w → ∃ u, c ∈ channelsOf calls u

/-- **The views of the clients**, along a history that is known as a whole. It has to
be, since the view counts only what is there in the end; a run is looked at after it is
over, and its operations one by one. -/
def clientViews (calls : User → List Event) (h : LoopHistory) :
    Views RegistryOp.Answer User ServerState ClientView where
  Inv := LoopInv calls
  view := ClientView.of calls h
  Rely := ClientView.Rely h
  Guard := ClientView.Guard calls
  Reads := ClientView.Reads h
  next _ := ClientView.next h
  rely_refl := ClientView.Rely.refl h
  rely_trans := ClientView.Rely.trans

/-! ## The clients respect each other

An operation is looked at by its client, to whom it does what it should
(`of_exec_self`), and by another (`rely_exec`), for whom its guard is what counts: it is
on another channel, and of another user. -/

section Respected

variable {db : UserTable} {calls : User → List Event} {h pre : LoopHistory} {s s' : ServerState}
  {u v : User} {o : RegistryOp} {a : o.Answer}

/-- A list that is met in the end was made before it had anybody in it. -/
theorem made_of_entries_pos (hinv : LoopInv calls pre s) (hpre : pre <+: h) {l : ListRef}
    (hl : IsLast h l) (hne : s.registries.roomStubMap.lists l ≠ []) :
    s.made l.roomId = l.index + 1 := by
  have hlast : (stateAt h).made l.roomId = l.index + 1 := (RoomStubMap.get_eq_some_iff _ l).mp hl
  have hle : s.made l.roomId ≤ l.index + 1 := by
    rw [hinv.replay, ← hlast]
    exact made_mono hpre
  have hlt : ¬ s.made l.roomId ≤ l.index := fun hle' => hne (hinv.fresh l hle')
  omega

/-- A fresh list is the list of its room in the end, where no list replaces another. -/
theorem isLast_of_noListReplacedAt {l : ListRef} (hno : NoListReplacedAt h l.roomId)
    (hpre : pre <+: h) (hl : l.index + 1 = (stateAt pre).made l.roomId) : IsLast h l := by
  refine (RoomStubMap.get_eq_some_iff _ l).mpr ?_
  rw [hl]
  exact made_eq_of_noListReplacedAt hno hpre (List.prefix_refl h) (by omega)

/-- **An operation within its guard keeps the invariant.** The lists that have not been
made stay empty because a fresh one takes the next number, and an addition goes to one
that has been made. -/
theorem LoopInv.perform (hinv : LoopInv calls pre s)
    (hguard : ClientView.Guard calls u (ClientView.of calls h u s) o) :
    LoopInv calls (pre ++ [.perform u o a]) (o.exec s).2 := by
  obtain ⟨hreplay, hfresh, hlinked⟩ := hinv
  refine ⟨?_, fun l hl => ?_, fun c w hc => ?_⟩
  · rw [stateAt_perform, hreplay]
  · obtain ⟨r, wr⟩ := s
    cases o with
    | roomStubMapPut room us =>
      have hmade : (r.roomStubMap.put room us).nextIndex l.roomId ≤ l.index := hl
      show (r.roomStubMap.put room us).lists l = []
      rw [RoomStubMap.nextIndex_put] at hmade
      rw [RoomStubMap.lists_put]
      split
      · next hnew =>
        rw [hnew, if_pos rfl] at hmade
        exact absurd hmade (Nat.not_succ_le_self _)
      · refine hfresh l (le_trans ?_ hmade)
        split
        · next hroom =>
          rw [hroom]
          exact Nat.le_succ _
        · exact Nat.le_refl _
    | usersAdd l' v =>
      show (r.roomStubMap.add l' v).lists l = []
      rw [RoomStubMap.lists_add, if_neg, hfresh l hl]
      rintro rfl
      exact absurd hguard.2 (not_lt.mpr hl)
    | usersRemove l' v =>
      show (r.roomStubMap.remove l' v).lists l = []
      rw [RoomStubMap.lists_remove, hfresh l hl, List.erase_nil, ite_self]
    | _ => exact hfresh l hl
  · obtain ⟨r, wr⟩ := s
    cases o with
    | channelId2UserPut c' v =>
      have hget : (r.channelId2User.put c' v).get c = some w := hc
      rw [ConcurrentHashMap.get_put] at hget
      split at hget
      · next hcc =>
        rw [hcc]
        exact ⟨u, hguard⟩
      · exact hlinked c w hget
    | channelId2UserRemove c' =>
      have hget : (r.channelId2User.remove c').get c = some w := hc
      rw [ConcurrentHashMap.get_remove] at hget
      split at hget
      · exact absurd hget (by simp)
      · exact hlinked c w hget
    | _ => exact hlinked c w hc

/-- **What a client is answered** it may be answered. The lookups of its own part are
answered by the registries, and so by the view. For the traversal of the rooms: a list
that the view counts an entry in has been made, and is not lost, so it has stood in the
map from the traversal on. -/
theorem reads_of_happens (hmeet : ValuesMeet h) (hinv : LoopInv calls pre s)
    (hpre : pre ++ [.perform u o a] <+: h)
    (hguard : ClientView.Guard calls u (ClientView.of calls h u s) o)
    (hhappens : o.Happens s a s') : ClientView.Reads h u (ClientView.of calls h u s) o a := by
  have hpre' := before_of_step hpre
  cases o with
  | user2ChannelCtxGet w =>
    rintro rfl
    exact ⟨w, mem_ownOps.mpr (mem_of_step hpre)⟩
  | channelId2UserGet c =>
    rw [answer_of_happens id hhappens]
    exact (if_pos hguard).symm
  | roomStubMapGet r =>
    rw [answer_of_happens id hhappens]
    exact RoomStubMap.get_eq_ite_nextIndex _ r
  | roomStubMapPut r us =>
    intro hno
    have hnone := hno pre u us a hpre
    rw [RoomStubMap.get_eq_ite_nextIndex] at hnone
    split at hnone
    · next hzero =>
      rw [hinv.replay]
      refine ⟨hzero, isLast_of_noListReplacedAt hno hpre ?_⟩
      rw [stateAt_perform]
      show _ = ((stateAt pre).registries.roomStubMap.put r us).nextIndex r
      rw [RoomStubMap.nextIndex_put, if_pos rfl, hzero]
    · exact absurd hnone (by simp)
  | roomStubMapValues =>
    intro l hl
    have hpos : 0 < if IsLast h l then (s.registries.roomStubMap.lists l).count u else 0 := hl
    split at hpos
    · next hlast =>
      refine hmeet pre u a hpre l ?_ (RoomStubMap.mem_values.mpr hlast)
      rw [RoomStubMap.mem_values, RoomStubMap.get_eq_some_iff, ← hinv.replay]
      exact made_of_entries_pos hinv hpre' hlast
        (List.ne_nil_of_mem (List.count_pos_iff.mp hpos))
    · exact absurd hpos (Nat.lt_irrefl 0)
  | usersAdd l w =>
    intro hno hl
    refine isLast_of_noListReplacedAt hno hpre' ?_
    rw [← hinv.replay]
    exact hl
  | _ => trivial

/-- **An operation of a client does to its view what it should.** Each case is one
update of a map, and the parts of the view that it is not about are the same by
definition. -/
theorem of_exec_self (hinv : LoopInv calls pre s)
    (hguard : ClientView.Guard calls u (ClientView.of calls h u s) o) :
    ClientView.of calls h u (o.exec s).2 = ClientView.next h (ClientView.of calls h u s) o := by
  obtain ⟨-, hfresh, -⟩ := hinv
  obtain ⟨r, wr⟩ := s
  cases o with
  | user2ChannelCtxPut w ctx =>
    obtain rfl : w = u := hguard
    ext1
    · rfl
    · show (r.user2ChannelCtx.put w ctx).get w = some ctx
      rw [ConcurrentHashMap.get_put, if_pos rfl]
    · rfl
    · rfl
  | user2ChannelCtxRemove w =>
    obtain rfl : w = u := hguard
    ext1
    · rfl
    · show (r.user2ChannelCtx.remove w).get w = none
      rw [ConcurrentHashMap.get_remove, if_pos rfl]
    · rfl
    · rfl
  | channelId2UserPut c w =>
    have hown : c ∈ channelsOf calls u := hguard
    ext1
    · funext c'
      show (if c' ∈ channelsOf calls u then (r.channelId2User.put c w).get c' else none)
        = Function.update
            (fun c' => if c' ∈ channelsOf calls u then r.channelId2User.get c' else none)
            c (some w) c'
      rw [ConcurrentHashMap.get_put, Function.update_apply]
      split
      · rfl
      · next hnot =>
        have hne : c' ≠ c := fun e => hnot (e ▸ hown)
        rw [if_neg hne]
    · rfl
    · rfl
    · rfl
  | channelId2UserRemove c =>
    ext1
    · funext c'
      show (if c' ∈ channelsOf calls u then (r.channelId2User.remove c).get c' else none)
        = Function.update
            (fun c' => if c' ∈ channelsOf calls u then r.channelId2User.get c' else none)
            c none c'
      rw [ConcurrentHashMap.get_remove, Function.update_apply]
      split
      · rfl
      · rw [ite_self]
    · rfl
    · rfl
    · rfl
  | roomStubMapPut room us =>
    obtain rfl : us = [u] := hguard
    ext1
    · rfl
    · rfl
    · funext l
      show (if IsLast h l then ((r.roomStubMap.put room [u]).lists l).count u else 0)
        = if l = ⟨room, r.roomStubMap.nextIndex room⟩ ∧ IsLast h l then 1
          else if IsLast h l then (r.roomStubMap.lists l).count u else 0
      rw [RoomStubMap.lists_put]
      by_cases hlast : IsLast h l
      · by_cases hl : l = ⟨room, r.roomStubMap.nextIndex room⟩
        · subst hl
          simp [hlast]
        · simp [hlast, hl]
      · simp [hlast]
    · funext r'
      show (r.roomStubMap.put room [u]).nextIndex r'
        = Function.update (fun r' => r.roomStubMap.nextIndex r') room
            (r.roomStubMap.nextIndex room + 1) r'
      rw [RoomStubMap.nextIndex_put, Function.update_apply]
  | usersAdd l w =>
    obtain rfl : w = u := hguard.1
    ext1
    · rfl
    · rfl
    · funext l'
      show (if IsLast h l' then ((r.roomStubMap.add l w).lists l').count w else 0)
        = if l' = l ∧ IsLast h l' then
            (if IsLast h l' then (r.roomStubMap.lists l').count w else 0) + 1
          else if IsLast h l' then (r.roomStubMap.lists l').count w else 0
      rw [RoomStubMap.lists_add]
      by_cases hlast : IsLast h l'
      · by_cases hl : l' = l
        · subst hl
          simp [hlast]
        · simp [hlast, hl]
      · simp [hlast]
    · rfl
  | usersRemove l w =>
    obtain rfl : w = u := hguard
    ext1
    · rfl
    · rfl
    · funext l'
      show (if IsLast h l' then ((r.roomStubMap.remove l w).lists l').count w else 0)
        = if l' = l then (if IsLast h l' then (r.roomStubMap.lists l').count w else 0) - 1
          else if IsLast h l' then (r.roomStubMap.lists l').count w else 0
      rw [RoomStubMap.lists_remove]
      by_cases hlast : IsLast h l'
      · by_cases hl : l' = l
        · subst hl
          simp [hlast]
        · simp [hlast, hl]
      · simp [hlast]
    · rfl
  | _ => rfl

/-- The user of another client is in no list more often, or less. For a list that is
put this is so because nobody was in it before. -/
theorem entries_exec_of_ne (hinv : LoopInv calls pre s) (hne : v ≠ u)
    (hguard : ClientView.Guard calls u (ClientView.of calls h u s) o) (l : ListRef) :
    ((o.exec s).2.registries.roomStubMap.lists l).count v
      = (s.registries.roomStubMap.lists l).count v := by
  obtain ⟨-, hfresh, -⟩ := hinv
  obtain ⟨r, wr⟩ := s
  cases o with
  | roomStubMapPut room us =>
    obtain rfl : us = [u] := hguard
    show ((r.roomStubMap.put room [u]).lists l).count v = (r.roomStubMap.lists l).count v
    rw [RoomStubMap.lists_put]
    split
    · next hl =>
      have hempty : r.roomStubMap.lists l = [] := hfresh l (by rw [hl]; exact Nat.le_refl _)
      rw [hempty, List.count_singleton, List.count_nil, if_neg (by simpa using hne.symm)]
    · rfl
  | usersAdd l' w =>
    obtain rfl : w = u := hguard.1
    show ((r.roomStubMap.add l' w).lists l).count v = (r.roomStubMap.lists l).count v
    rw [RoomStubMap.lists_add]
    split
    · rw [List.count_append, List.count_singleton, if_neg (by simpa using hne.symm),
        Nat.add_zero]
    · rfl
  | usersRemove l' w =>
    obtain rfl : w = u := hguard
    show ((r.roomStubMap.remove l' w).lists l).count v = (r.roomStubMap.lists l).count v
    rw [RoomStubMap.lists_remove]
    split
    · exact List.count_erase_of_ne hne
    · rfl
  | _ => rfl

/-- The context of the user of another client stays, as every client registers and
removes its own user alone. -/
theorem context_exec_of_ne (hne : v ≠ u)
    (hguard : ClientView.Guard calls u (ClientView.of calls h u s) o) :
    (o.exec s).2.registries.user2ChannelCtx.get v = s.registries.user2ChannelCtx.get v := by
  obtain ⟨r, wr⟩ := s
  cases o with
  | user2ChannelCtxPut w ctx =>
    obtain rfl : w = u := hguard
    show (r.user2ChannelCtx.put w ctx).get v = r.user2ChannelCtx.get v
    rw [ConcurrentHashMap.get_put, if_neg hne]
  | user2ChannelCtxRemove w =>
    obtain rfl : w = u := hguard
    show (r.user2ChannelCtx.remove w).get v = r.user2ChannelCtx.get v
    rw [ConcurrentHashMap.get_remove, if_neg hne]
  | _ => rfl

/-- What the channels of another client are linked as stays. -/
theorem channelUser_exec_of_ne (hdisjoint : ChannelsDisjoint calls) (hne : v ≠ u)
    (hguard : ClientView.Guard calls u (ClientView.of calls h u s) o) {c : ChannelId}
    (hc : c ∈ channelsOf calls v) :
    (o.exec s).2.registries.channelId2User.get c = s.registries.channelId2User.get c := by
  have hother : ∀ c', c' ∈ channelsOf calls u → c ≠ c' := by
    rintro c' hc' rfl
    exact hne (hdisjoint v u c hc hc')
  obtain ⟨r, wr⟩ := s
  cases o with
  | channelId2UserPut c' w =>
    show (r.channelId2User.put c' w).get c = r.channelId2User.get c
    rw [ConcurrentHashMap.get_put, if_neg (hother c' hguard)]
  | channelId2UserRemove c' =>
    show (r.channelId2User.remove c').get c = r.channelId2User.get c
    rw [ConcurrentHashMap.get_remove, if_neg (hother c' hguard)]
  | _ => rfl

/-- **An operation of another client** leaves the view as it is relied on. Only the
number of lists may change, and not at a room that has one, if no list replaces another
there. -/
theorem rely_exec (hdisjoint : ChannelsDisjoint calls) (hinv : LoopInv calls pre s)
    (hpre : pre ++ [.perform u o a] <+: h) (hne : v ≠ u)
    (hguard : ClientView.Guard calls u (ClientView.of calls h u s) o) :
    ClientView.Rely h (ClientView.of calls h v s) (ClientView.of calls h v (o.exec s).2) := by
  refine ⟨?_, context_exec_of_ne hne hguard, ?_, fun r => ?_, fun r hno hr => ?_⟩
  · funext c
    show (if c ∈ channelsOf calls v then _ else none)
      = if c ∈ channelsOf calls v then _ else none
    split
    · next hc => exact channelUser_exec_of_ne hdisjoint hne hguard hc
    · rfl
  · funext l
    show (if IsLast h l then _ else 0) = if IsLast h l then _ else 0
    rw [entries_exec_of_ne hinv hne hguard]
  · show s.made r ≤ (o.exec s).2.made r
    obtain hmade | ⟨-, -, hmade⟩ := o.made_exec s r
    · exact hmade.ge
    · exact (Nat.le_succ _).trans hmade.ge
  · have hstay := made_eq_of_noListReplacedAt hno (List.prefix_append pre [.perform u o a]) hpre
      (by rw [← hinv.replay]; exact hr)
    rw [stateAt_perform, ← hinv.replay] at hstay
    exact hstay

/-- **The clients respect each other's views**, where no channel belongs to two of
them and traversals keep their promise. That each client links as its own user is not
asked here: it is the guard of the operations, which the programs have to meet. -/
theorem respected_clientViews (hdisjoint : ChannelsDisjoint calls) (hmeet : ValuesMeet h) :
    (clientViews calls h).Respected (serverSystem db calls) h where
  inv_begin {pre s t} _ hinv :=
    ⟨by rw [stateAt_begin]; exact hinv.replay, hinv.fresh, hinv.linked⟩
  inv_perform _ hinv hguard hhappens := by
    rw [eq_exec_of_happens hhappens]
    exact hinv.perform hguard
  reads hpre hinv hguard hhappens := reads_of_happens hmeet hinv hpre hguard hhappens
  view_next _ hinv hguard hhappens := by
    rw [eq_exec_of_happens hhappens]
    exact of_exec_self hinv hguard
  rely _ hne hpre hinv hguard hhappens := by
    rw [eq_exec_of_happens hhappens]
    exact rely_exec hdisjoint hinv hpre hne hguard

end Respected
