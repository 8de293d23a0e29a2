import Chatroom.ClientViews
import Chatroom.SessionRefinement

/-!
# The view of a client, and its session

What a client can count on among other threads is its view (`ClientView`). `Settled`
relates the view to the session that the client's own calls have opened, and is kept by
each of its calls, whatever the others do between the operations
(`follows_dispatchProgram`); from that `follows_eventLoop` has it for all the calls of
a client, one after the other.

A call may come out in more than one way, and `SessionsAfter` leaves open what is open.
A logout goes through all the users it found online, and may look one up who has gone
in the meantime. It then throws before it has removed anything, and the session stays.
The same exception, in a message, is answered by a logout, and ends a session whose
client did nothing wrong. Either happens only to a client that did look up somebody
who was gone.

The calls of the handler are taken apart as they are written: a lemma for each loop, for
the logout, for the entry into a room, for each kind of message, and for the call as
Netty makes it. Each says of a program what it makes of a settled view, where it returns
and where it throws.
-/

open AtomicSystem AtomicProgram Views ChatroomServerHandler RegistryOp

/-! ## The sessions of one client -/

/-- **A frame whose handling may throw of itself**: it is no message, or it names a
user who is not stored, or no room where one is needed. What others do has no part in
this, while a lookup that finds nobody is always the doing of another thread. -/
def TextWebSocketFrame.Faulty (db : UserTable) : TextWebSocketFrame → Prop
  | .unparsable | .null => True
  | .message m =>
      m.type = none
      ∨ (m.HasType .link ∧ (db.getUserById m.senderId = none ∨ m.roomId = none))
      ∨ (m.HasType .groupSend ∧ m.receiverId = none
          ∧ (m.roomId = none ∨ db.getUserById m.senderId = none))
      ∨ (m.HasType .singleSend ∧ db.getUserById m.receiverId = none)

/-- The calls that may end the session of their channel; `missed` says whether the
client looked up a user without a context. A frame is among them, because the exception
of its handling is answered by a logout. -/
def Event.MayEnd (db : UserTable) (missed : Prop) : Event → Prop
  | .channelActive _ => False
  | .channelInactive _ | .exceptionCaught _ => True
  | .channelRead0 _ f => f.Faulty db ∨ missed

/-- **The sessions that the calls of a client may leave**: what a call opens stands
from then on, or is closed by that very call. Which of the two it is may depend on the
others, and so there may be more than one table for a list of calls. -/
inductive SessionsAfter (db : UserTable) (missed : Prop) : List Event → Sessions → Prop
  | nil : SessionsAfter db missed [] SessionTable.empty
  /-- A logout leaves the session only if it threw at somebody who had gone. -/
  | kept {es : List Event} {T : Sessions} (e : Event) (before : SessionsAfter db missed es T)
      (why : e.IsLogout → missed) : SessionsAfter db missed (es ++ [e]) (T.opened db e)
  /-- A call that may end the session does so on its own channel. -/
  | ended {es : List Event} {T : Sessions} (e : Event) (before : SessionsAfter db missed es T)
      (why : e.MayEnd db missed) :
      SessionsAfter db missed (es ++ [e]) ((T.opened db e).close e.ctx)

/-- **The calls of a client are orderly**: each link is one of its own user, who has
no session elsewhere, on a channel without another session, to a room that the
session is not in. It is asked of every session there may be before the link, so that
it does not hang on how the threads take turns. -/
def Orderly (db : UserTable) (u : User) (missed : Prop) (es : List Event) : Prop :=
  ∀ pre e T, pre ++ [e] <+: es → SessionsAfter db missed pre T →
    ∀ ctx f w, e = .channelRead0 ctx f → linkSender db f = some w →
      w = u ∧ T.Admits ctx u f.roomId

/-- Opening a session and then entering a room is opening it in the room: a link does
the two one after the other, and the table does them at once. -/
theorem openSession_none_openSession (T : Sessions) (c : ChannelHandlerContext) (u : User)
    (room : Option Long) :
    (T.openSession c u none).openSession c u room = T.openSession c u room := by
  funext c' u'
  simp only [SessionTable.openSession, and_self, if_true, Option.getD_some,
    Option.toFinset_none, Finset.union_empty]
  split
  · rfl
  · rfl

/-- **The view of a client is that of its session.** Three parts of it say what the
session says: its channels are linked as the table has it, its user has the context of
the session, and is in no list twice, nor in one of a room that the session is not in.

That the user is in the list of each room of the session is asked only for rooms at
which no list replaces another. Elsewhere it may be lost with a list, and nothing that
the client does later would tell; so the other four parts must not depend on it, and
they do not. -/
structure Settled (db : UserTable) (h : LoopHistory) (u : User) (T : Sessions) (v : ClientView) :
    Prop where
  channelUser : ∀ c w, v.channelUser c.channelId = some w ↔ T.Has c w
  context : ∀ c, v.context = some c ↔ T.Has c u
  stored : ∀ c w, T.Has c w → w = u ∧ w ∈ db.rows
  entries_le : ∀ l, v.entries l ≤ 1
  entries_room : ∀ l, 0 < v.entries l → ∃ c, T.InRoom c u l.roomId
  present : ∀ c r, NoListReplacedAt h r → T.InRoom c u r →
    v.made r ≠ 0 ∧ v.entries ⟨r, v.made r - 1⟩ = 1

/-! ### What keeps a view settled

The operations of a call change a view in few ways: somebody else has done something
(`Settled.rely`), the user is registered under a channel (`Settled.register`) and put
into a list of a room (`Settled.enter`), and a logout takes away all three
(`Settled.close`). Each lemma says of the view after it what it is in terms of the view
before, so that the programs below need only read off what their operations did. -/

section Settled

variable {db : UserTable} {calls : User → List Event} {h : LoopHistory} {u : User}
  {T : Sessions} {v v' : ClientView} {ctx : ChannelHandlerContext}

/-- A client without a session sees nothing of itself. -/
theorem Settled.empty (hchannel : ∀ c, v.channelUser c = none) (hcontext : v.context = none)
    (hentries : ∀ l, v.entries l = 0) : Settled db h u SessionTable.empty v where
  channelUser c w := by simp [hchannel, SessionTable.not_has_empty]
  context c := by simp [hcontext, SessionTable.not_has_empty]
  stored c w hw := absurd hw SessionTable.not_has_empty
  entries_le l := by simp [hentries]
  entries_room l hl := by simp [hentries] at hl
  present c r _ hr := absurd hr SessionTable.not_inRoom_empty

/-- **The others leave the view of a client that of its session.** They may make lists
for other rooms, or for rooms at which some list replaces another; `present` asks
nothing of those. -/
theorem Settled.rely (hs : Settled db h u T v) (hv : ClientView.Rely h v v') :
    Settled db h u T v' where
  channelUser c w := by rw [hv.channelUser, hs.channelUser]
  context c := by rw [hv.context, hs.context]
  stored := hs.stored
  entries_le l := by
    rw [hv.entries]
    exact hs.entries_le l
  entries_room l hl := by
    rw [hv.entries] at hl
    exact hs.entries_room l hl
  present c r hno hr := by
    obtain ⟨hmade, hentry⟩ := hs.present c r hno hr
    rw [hv.made_eq r hno hmade, hv.entries]
    exact ⟨hmade, hentry⟩

/-- A client has one session, since its user has one context. -/
theorem Settled.ctx_unique (hs : Settled db h u T v) {c c' : ChannelHandlerContext}
    (hc : T.Has c u) (hc' : T.Has c' u) : c = c' :=
  Option.some.inj (((hs.context c).mpr hc).symm.trans ((hs.context c').mpr hc'))

/-- **The end of a session**: the channel is linked as nobody, the user has no
context and is in no list. The channel has to be the one of the session, for a user
whose context is taken away elsewhere would keep its channel. -/
theorem Settled.close (hs : Settled db h u T v) (hctx : T.Has ctx u)
    (hchannel : v'.channelUser = Function.update v.channelUser ctx.channelId none)
    (hcontext : v'.context = none) (hentries : ∀ l, v'.entries l = 0) :
    Settled db h u (T.close ctx) v' := by
  have hnone : ∀ c, ¬ (T.close ctx).Has c u := by
    intro c hc
    obtain ⟨hne, hc⟩ := SessionTable.has_close.mp hc
    exact hne (hs.ctx_unique hc hctx)
  refine ⟨fun c w => ?_, fun c => ?_, fun c w hw => ?_, fun l => ?_, fun l hl => ?_,
    fun c r _ hr => ?_⟩
  · rw [hchannel, Function.update_apply, SessionTable.has_close]
    split
    · next hid => exact iff_of_false (by simp) (fun hc => hc.1 (ChannelHandlerContext.ext hid))
    · next hid =>
      rw [hs.channelUser]
      exact ⟨fun hw => ⟨fun e => hid (congrArg _ e), hw⟩, And.right⟩
  · exact iff_of_false (by simp [hcontext]) (hnone c)
  · exact hs.stored c w (SessionTable.has_close.mp hw).2
  · rw [hentries]
    exact Nat.zero_le 1
  · rw [hentries] at hl
    exact absurd hl (Nat.lt_irrefl 0)
  · exact absurd hr.has (hnone c)

/-- **A registration** opens a session that is in no further room. The session may be
there already: a client links once for every room that it enters. -/
theorem Settled.register (hs : Settled db h u T v) (hu : u ∈ db.rows)
    (hadm : T.Admits ctx u none)
    (hchannel : v'.channelUser = Function.update v.channelUser ctx.channelId (some u))
    (hcontext : v'.context = some ctx) (hentries : v'.entries = v.entries)
    (hmade : ∀ r, NoListReplacedAt h r → v.made r ≠ 0 → v'.made r = v.made r) :
    Settled db h u (T.openSession ctx u none) v' := by
  obtain ⟨husers, hctxs, -⟩ := hadm
  refine ⟨fun c w => ?_, fun c => ?_, fun c w hw => ?_, fun l => ?_, fun l hl => ?_,
    fun c r hno hr => ?_⟩
  · rw [hchannel, Function.update_apply, SessionTable.has_openSession]
    split
    · next hid =>
      obtain rfl := ChannelHandlerContext.ext hid
      rw [Option.some_inj]
      refine ⟨fun e => Or.inr ⟨rfl, e.symm⟩, ?_⟩
      rintro (hw | ⟨-, hw⟩)
      · exact (hctxs w hw).symm
      · exact hw.symm
    · next hid =>
      rw [hs.channelUser, or_iff_left (fun hc => hid (congrArg _ hc.1))]
  · rw [hcontext, Option.some_inj, SessionTable.has_openSession]
    refine ⟨fun e => Or.inr ⟨e.symm, rfl⟩, ?_⟩
    rintro (hc | ⟨hc, -⟩)
    · exact (husers c hc).symm
    · exact hc.symm
  · obtain hw | ⟨-, rfl⟩ := SessionTable.has_openSession.mp hw
    · exact hs.stored c w hw
    · exact ⟨rfl, hu⟩
  · rw [hentries]
    exact hs.entries_le l
  · rw [hentries] at hl
    obtain ⟨c, hc⟩ := hs.entries_room l hl
    exact ⟨c, SessionTable.inRoom_openSession.mpr (Or.inl hc)⟩
  · obtain hr | ⟨-, -, hr⟩ := SessionTable.inRoom_openSession.mp hr
    · obtain ⟨hpos, hentry⟩ := hs.present c r hno hr
      rw [hmade r hno hpos, hentries]
      exact ⟨hpos, hentry⟩
    · exact absurd hr (by simp)

/-- **An entry into a room**: one list made for the room has the user once more, and
it is the last one where no list replaces another at this room. Where one does, the
list may be lost already when the user is added to it; the view does not count it then,
and nothing is promised of it. -/
theorem Settled.enter (hs : Settled db h u T v) {room : Long} (hctx : T.Has ctx u)
    (hout : ∀ c, ¬ T.InRoom c u room) {i : ℕ} (hchannel : v'.channelUser = v.channelUser)
    (hcontext : v'.context = v.context)
    (hentries : ∀ l, v'.entries l = if l = ⟨room, i⟩ ∧ IsLast h l then 1 else v.entries l)
    (hother : ∀ r, r ≠ room → v'.made r = v.made r)
    (hmade : NoListReplacedAt h room → IsLast h ⟨room, i⟩ ∧ v'.made room = i + 1) :
    Settled db h u (T.openSession ctx u (some room)) v' := by
  have hhas : ∀ c w, (T.openSession ctx u (some room)).Has c w ↔ T.Has c w := by
    intro c w
    rw [SessionTable.has_openSession, or_iff_left_iff_imp]
    rintro ⟨rfl, rfl⟩
    exact hctx
  refine ⟨fun c w => ?_, fun c => ?_, fun c w hw => ?_, fun l => ?_, fun l hl => ?_,
    fun c r hno hr => ?_⟩
  · rw [hchannel, hs.channelUser, hhas]
  · rw [hcontext, hs.context, hhas]
  · exact hs.stored c w ((hhas c w).mp hw)
  · rw [hentries]
    split
    · exact Nat.le_refl 1
    · exact hs.entries_le l
  · rw [hentries] at hl
    split at hl
    · next hnew =>
      rw [hnew.1]
      exact ⟨ctx, SessionTable.inRoom_openSession.mpr (Or.inr ⟨rfl, rfl, rfl⟩)⟩
    · obtain ⟨c, hc⟩ := hs.entries_room l hl
      exact ⟨c, SessionTable.inRoom_openSession.mpr (Or.inl hc)⟩
  · obtain hr | ⟨rfl, -, hr⟩ := SessionTable.inRoom_openSession.mp hr
    · have hne : r ≠ room := fun e => hout c (e ▸ hr)
      obtain ⟨hpos, hentry⟩ := hs.present c r hno hr
      rw [hother r hne, hentries, if_neg (fun e => hne (congrArg ListRef.roomId e.1))]
      exact ⟨hpos, hentry⟩
    · obtain rfl := Option.some.inj hr
      obtain ⟨hlast, hroom⟩ := hmade hno
      rw [hroom, hentries, Nat.add_sub_cancel, if_pos ⟨rfl, hlast⟩]
      exact ⟨Nat.succ_ne_zero i, rfl⟩

end Settled

/-! ## What a call does to the view of its client

The lemmas follow the handler from the inside out. Each gives two conditions: one for
the view where the program returns, and one where it throws, which also says why it
did. An exception is as much a way through a call as any other here: Netty answers it
with another logout. -/

section Calls

variable {db : UserTable} {calls : User → List Event} {h : LoopHistory} {u : User}
  {T : Sessions} {v : ClientView} {ctx : ChannelHandlerContext} {m : Message}

/-- An operation that leaves the view of its client alone: a lookup, a traversal or a
frame. What remains to be said of it is what the others did before it. -/
theorem follows_free {o : RegistryOp} {R : Throwable → ClientView → Prop}
    (hguard : ∀ v, ClientView.Guard calls u v o) (hnext : ∀ v, ClientView.next h v o = v) :
    (clientViews calls h).Follows u (perform o : HandlerProgram o.Answer) v
      (fun a v' => ClientView.Rely h v v' ∧ ClientView.Reads h u v' o a) R := by
  refine follows_weaken (follows_perform (fun v' _ => hguard v')) ?_ (fun _ _ hR => hR)
  rintro a v' ⟨v₁, hv₁, hread, rfl⟩
  have hsame : (clientViews calls h).next u v₁ o = v₁ := hnext v₁
  rw [hsame]
  exact ⟨hv₁, hread⟩

/-- One user of a loop: a lookup that finds nobody is why it throws, since the source
writes to what it has found without a look at it. -/
theorem follows_sendUnless {id : Option Long} {message : Message} {w : User} :
    (clientViews calls h).Follows u (sendUnless id message w) v
      (fun _ v' => ClientView.Rely h v v')
      (fun _ v' => ClientView.Rely h v v' ∧ LooksUpMissing (ownOps u h)) := by
  rw [sendUnless]
  split
  · exact ClientView.Rely.refl h v
  · refine follows_bind (follows_free (fun _ => trivial) (fun _ => rfl)) ?_
    rintro c v₁ ⟨hv₁, hread⟩
    cases c with
    | none => exact ⟨hv₁, hread rfl⟩
    | some c =>
      refine follows_weaken (follows_free (fun _ => trivial) (fun _ => rfl)) ?_
        (fun _ _ hR => hR)
      exact fun _ v₂ hv₂ => hv₁.trans hv₂.1

/-- A broadcast leaves the view of its client alone. -/
theorem follows_broadcast {l : ListRef} {id : Option Long} {message : Message} :
    (clientViews calls h).Follows u (broadcast l id message) v
      (fun _ v' => ClientView.Rely h v v')
      (fun _ v' => ClientView.Rely h v v' ∧ LooksUpMissing (ownOps u h)) := by
  refine follows_bind (follows_free (fun _ => trivial) (fun _ => rfl)) ?_
  rintro users v₁ ⟨hv₁, -⟩
  refine follows_forEach (fun _ v' => ClientView.Rely h v v') (fun _ w _ v₂ hv₂ => ?_) hv₁
  exact follows_weaken follows_sendUnless (fun _ _ hv₃ => hv₂.trans hv₃)
    (fun _ _ hR => ⟨hv₂.trans hR.1, hR.2⟩)

/-! ### A logout

The notices come first and may throw, and then nothing has been removed. Once they are
through nothing throws any more: the channel, the context and the entries go one after
the other, and what the others do in between cannot put any of them back, since these
parts of a view are changed by the client's own calls alone. -/

/-- **The user is taken out of the lists that were met.** The view counts the user at
most once in a list, so that one removal takes it out, and every list that it counts
the user in was met. -/
theorem follows_usersRemove {values : List ListRef} (hle : ∀ l, v.entries l ≤ 1)
    (hmet : ∀ l, 0 < v.entries l → l ∈ values) {R : Throwable → ClientView → Prop} :
    (clientViews calls h).Follows u
      (forEach values (fun l => perform (usersRemove l u)) : HandlerProgram Unit) v
      (fun _ v' => v'.channelUser = v.channelUser ∧ v'.context = v.context
        ∧ ∀ l, v'.entries l = 0) R := by
  have hloop : (clientViews calls h).Follows u
      (forEach values (fun l => perform (usersRemove l u)) : HandlerProgram Unit) v
      (fun _ (v' : ClientView) => v'.channelUser = v.channelUser ∧ v'.context = v.context
        ∧ (∀ l, v'.entries l ≤ v.entries l) ∧ ∀ l ∈ values, v'.entries l = 0) R := by
    -- after some of the lists, those have the user no more, and no list gained it
    refine follows_forEach
      (fun pre (v' : ClientView) => v'.channelUser = v.channelUser ∧ v'.context = v.context
        ∧ (∀ l, v'.entries l ≤ v.entries l) ∧ ∀ l ∈ pre, v'.entries l = 0)
      (fun pre l _ v' hv' => ?_) ⟨rfl, rfl, fun _ => Nat.le_refl _, by simp⟩
    obtain ⟨hchannel, hcontext, hless, hgone⟩ := hv'
    refine follows_weaken (follows_perform (fun _ _ => rfl)) ?_ (fun _ _ hR => hR)
    rintro - v₂ ⟨v₁, hv₁, -, rfl⟩
    have hv₁ : ClientView.Rely h v' v₁ := hv₁
    refine ⟨hv₁.channelUser.trans hchannel, hv₁.context.trans hcontext, fun l' => ?_,
      fun l' hl' => ?_⟩
    · show (if l' = l then v₁.entries l' - 1 else v₁.entries l') ≤ v.entries l'
      rw [hv₁.entries]
      have hl := hless l'
      split <;> omega
    · show (if l' = l then v₁.entries l' - 1 else v₁.entries l') = 0
      rw [hv₁.entries]
      have hl := hless l'
      have hone := hle l'
      split
      · omega
      · next hne =>
        obtain hl' | hl' := List.mem_append.mp hl'
        · exact hgone l' hl'
        · exact absurd (List.mem_singleton.mp hl') hne
  refine follows_weaken hloop ?_ (fun _ _ hR => hR)
  rintro - v' ⟨hchannel, hcontext, hless, hgone⟩
  refine ⟨hchannel, hcontext, fun l => Nat.eq_zero_of_not_pos (fun hpos => ?_)⟩
  rw [hgone l (hmet l (Nat.lt_of_lt_of_le hpos (hless l)))] at hpos
  exact absurd hpos (Nat.lt_irrefl 0)

/-- **A logout ends the session of its channel, or leaves everything as it was** – and
that only where there was no session, or the client looked up somebody who had gone.
Nothing between the two: the removals are never begun and left half done. -/
theorem follows_handleLogout (hs : Settled db h u T v)
    (hown : ctx.channelId ∈ channelsOf calls u) :
    (clientViews calls h).Follows u (handleLogout ctx) v
      (fun _ v' => Settled db h u (T.close ctx) v')
      (fun _ v' => Settled db h u T v'
        ∧ ((∀ w, ¬ T.Has ctx w) ∨ LooksUpMissing (ownOps u h))) := by
  refine follows_bind (follows_perform (fun _ _ => hown)) ?_
  rintro user v₀ ⟨_, hv₀, hread, rfl⟩
  have hv₀ : ClientView.Rely h v v₀ := hv₀
  have huser : user = v₀.channelUser ctx.channelId := hread
  refine follows_bind (follows_free (v := v₀) (fun _ => trivial) (fun _ => rfl)) ?_
  rintro keys v₁ ⟨hv₁, -⟩
  have hs₁ : Settled db h u T v₁ := (hs.rely hv₀).rely hv₁
  rw [← hv₁.channelUser] at huser
  cases user with
  | none =>
    -- nobody is linked on the channel: the null is met at the first user or at the end
    have hnone : ∀ w, ¬ T.Has ctx w := by
      intro w hw
      rw [(hs₁.channelUser ctx w).mpr hw] at huser
      exact absurd huser (by simp)
    refine follows_bind (Q := fun _ v' => ClientView.Rely h v₁ v')
      (follows_forEach (fun _ v' => ClientView.Rely h v₁ v') (fun _ w _ v₂ hv₂ => ?_)
        (ClientView.Rely.refl h v₁)) (fun _ v₂ hv₂ => ?_)
    · exact ⟨hs₁.rely hv₂, Or.inl hnone⟩
    · exact ⟨hs₁.rely hv₂, Or.inl hnone⟩
  | some w =>
    have hw : T.Has ctx w := (hs₁.channelUser ctx w).mp huser.symm
    obtain rfl : w = u := (hs₁.stored ctx w hw).1
    refine follows_bind (Q := fun _ v' => ClientView.Rely h v₁ v')
      (follows_forEach (fun _ v' => ClientView.Rely h v₁ v') (fun _ w' _ v₂ hv₂ => ?_)
        (ClientView.Rely.refl h v₁)) (fun _ v₂ hv₂ => ?_)
    · exact follows_weaken follows_sendUnless (fun _ _ hv₃ => hv₂.trans hv₃)
        (fun _ _ hR => ⟨(hs₁.rely hv₂).rely hR.1, Or.inr hR.2⟩)
    have hs₂ := hs₁.rely hv₂
    rw [nonNull_some, bind_of_pure]
    -- the context, the connected channel, the channel's user, and then the lists
    refine follows_bind (follows_perform (fun _ _ => rfl)) ?_
    rintro - v₄ ⟨v₃, hv₃, -, rfl⟩
    have hs₃ := hs₂.rely hv₃
    refine follows_bind (follows_free (fun _ => trivial) (fun _ => rfl)) ?_
    rintro - v₄ ⟨hv₄, -⟩
    refine follows_bind (follows_perform (fun _ _ => hown)) ?_
    rintro - v₆ ⟨v₅, hv₅, -, rfl⟩
    refine follows_bind (follows_free (fun _ => trivial) (fun _ => rfl)) ?_
    rintro values v₆ ⟨hv₆, hmet⟩
    -- what is left of the view before the lists are gone through
    have hchannel : v₆.channelUser = Function.update v₃.channelUser ctx.channelId none := by
      rw [hv₆.channelUser]
      show Function.update v₅.channelUser ctx.channelId none = _
      rw [hv₅.channelUser, hv₄.channelUser]
      rfl
    have hcontext : v₆.context = none := by
      rw [hv₆.context]
      show v₅.context = none
      rw [hv₅.context, hv₄.context]
      rfl
    have hentries : v₆.entries = v₃.entries := by
      rw [hv₆.entries]
      show v₅.entries = v₃.entries
      rw [hv₅.entries, hv₄.entries]
      rfl
    refine follows_weaken (follows_usersRemove (fun l => ?_) hmet) ?_ (fun _ _ hR => hR)
    · rw [hentries]
      exact hs₃.entries_le l
    · rintro - v₇ ⟨hchannel₇, hcontext₇, hnone⟩
      exact hs₃.close hw (hchannel₇.trans hchannel) (hcontext₇.trans hcontext) hnone

/-- **A logout whose exception is only logged**, as it is after a call that threw. -/
theorem follows_exceptionCaught (hs : Settled db h u T v)
    (hown : ctx.channelId ∈ channelsOf calls u) {R : Throwable → ClientView → Prop} :
    (clientViews calls h).Follows u ((handleLogout ctx).tryCatch (fun _ => pure ())) v
      (fun _ v' => Settled db h u (T.close ctx) v'
        ∨ (Settled db h u T v' ∧ ((∀ w, ¬ T.Has ctx w) ∨ LooksUpMissing (ownOps u h)))) R := by
  refine follows_tryCatch
    (follows_weaken (follows_handleLogout hs hown) (fun _ _ hs' => Or.inl hs')
      (fun _ _ hR => hR)) ?_
  exact fun _ _ hstay => Or.inr hstay

/-! ### A link

A link registers its user under the channel, enters the room and is relayed to the
members. The entry is the only step at which another thread may undo what is done:
between the test for a list and the list that is put another link may put one too, and
the later of the two stands. -/

/-- **The entry of a client into a room**, by the list it finds or by a fresh one. At a
room at which a list replaces another the entry itself may be lost, and the rest of the
view is that of the session all the same. -/
theorem follows_joinRoom (hs : Settled db h u T v) {room : Long} (hctx : T.Has ctx u)
    (hout : ∀ c, ¬ T.InRoom c u room) {R : Throwable → ClientView → Prop} :
    (clientViews calls h).Follows u (joinRoom room u) v
      (fun _ v' => Settled db h u (T.openSession ctx u (some room)) v' ∧ v'.made room ≠ 0)
      R := by
  refine follows_bind (follows_free (fun _ => trivial) (fun _ => rfl)) ?_
  rintro l v₁ ⟨hv₁, hread⟩
  have hs₁ := hs.rely hv₁
  have hl : l = if v₁.made room = 0 then none else some ⟨room, v₁.made room - 1⟩ := hread
  by_cases hmade : v₁.made room = 0
  · -- no list was found, and one is put: the first, unless another has come before it
    rw [if_pos hmade] at hl
    subst hl
    refine follows_weaken (follows_perform (fun _ _ => rfl)) ?_ (fun _ _ hR => hR)
    rintro _ v₃ ⟨v₂, hv₂, hfresh, rfl⟩
    have hs₂ := hs₁.rely hv₂
    have hnext : ((clientViews calls h).next u v₂ (roomStubMapPut room [u])).made room
        = v₂.made room + 1 := Function.update_self room _ _
    refine ⟨hs₂.enter hctx hout (i := v₂.made room) rfl rfl (fun _ => rfl)
      (fun r hr => Function.update_of_ne hr _ _) (fun hno => ?_), ?_⟩
    · obtain ⟨hzero, hlast⟩ := hfresh hno
      rw [hzero]
      refine ⟨hlast, ?_⟩
      rw [hnext, hzero]
    · rw [hnext]
      exact Nat.succ_ne_zero _
  · -- a list was found, and is asked for again; it may be replaced before the addition
    rw [if_neg hmade] at hl
    subst hl
    refine follows_bind (follows_free (fun _ => trivial) (fun _ => rfl)) ?_
    rintro l v₂ ⟨hv₂, hread₂⟩
    have hmade₂ : v₂.made room ≠ 0 :=
      Nat.pos_iff_ne_zero.mp ((Nat.pos_of_ne_zero hmade).trans_le (hv₂.made_le room))
    have hl : l = if v₂.made room = 0 then none else some ⟨room, v₂.made room - 1⟩ := hread₂
    rw [if_neg hmade₂] at hl
    subst hl
    rw [nonNull_some, bind_of_pure]
    have hstill : ∀ v', ClientView.Rely h v₂ v' → v₂.made room - 1 < v'.made room := by
      intro v' hv'
      have hle := hv'.made_le room
      omega
    refine follows_weaken (follows_perform (fun v' hv' => ⟨rfl, hstill v' hv'⟩)) ?_
      (fun _ _ hR => hR)
    rintro _ v₄ ⟨v₃, hv₃, hlast, rfl⟩
    have hv₃ : ClientView.Rely h v₂ v₃ := hv₃
    have hs₃ := (hs₁.rely hv₂).rely hv₃
    -- the user was not in the list
    have hzero : ∀ l : ListRef, l = ⟨room, v₂.made room - 1⟩ → v₃.entries l = 0 := by
      rintro l rfl
      refine Nat.eq_zero_of_not_pos (fun hpos => ?_)
      obtain ⟨c, hc⟩ := hs₃.entries_room _ hpos
      exact hout c hc
    refine ⟨hs₃.enter hctx hout (i := v₂.made room - 1) rfl rfl (fun l => ?_)
      (fun _ _ => rfl) (fun hno => ?_), ?_⟩
    · show (if l = ⟨room, v₂.made room - 1⟩ ∧ IsLast h l then v₃.entries l + 1 else v₃.entries l)
        = _
      split
      · next hl => rw [hzero l hl.1]
      · rfl
    · have hsame : v₃.made room = v₂.made room := hv₃.made_eq room hno hmade₂
      have hindex : v₂.made room - 1 + 1 = v₃.made room := by omega
      exact ⟨hlast hno hindex, hindex.symm⟩
    · have hle := hv₃.made_le room
      show v₃.made room ≠ 0
      omega

/-- **A link of the user of a client** opens the session, and throws of itself only
where it names no room. The session stands either way: the registration comes before
the room is looked at, and the relay after the entry. -/
theorem follows_link (hs : Settled db h u T v) (hown : ctx.channelId ∈ channelsOf calls u)
    (hm : m.HasType .link) (hsender : db.getUserById m.senderId = some u)
    (hadm : T.Admits ctx u m.roomId) :
    (clientViews calls h).Follows u (handleMessage db ctx m) v
      (fun _ v' => Settled db h u (T.openSession ctx u m.roomId) v')
      (fun _ v' => Settled db h u (T.openSession ctx u m.roomId) v'
        ∧ (m.roomId = none ∨ LooksUpMissing (ownOps u h))) := by
  have hcode : m.type = some MessageType.link.getCode := hm
  have hu : u ∈ db.rows := UserTable.mem_of_getUserById hsender
  have hadm' : T.Admits ctx u none := ⟨hadm.1, hadm.2.1, fun r hr => absurd hr (by simp)⟩
  simp only [handleMessage, hcode, hsender, nonNull_some, bind_of_pure, if_true]
  refine follows_bind (follows_perform (fun _ _ => rfl)) ?_
  rintro - v₁ ⟨v₀, hv₀, -, rfl⟩
  refine follows_bind (follows_perform (fun _ _ => hown)) ?_
  rintro - v₃ ⟨v₂, hv₂, -, rfl⟩
  have hv₂ :
      ClientView.Rely h ((clientViews calls h).next u v₀ (user2ChannelCtxPut u ctx)) v₂ := hv₂
  have hs₀ : Settled db h u T v₀ := hs.rely hv₀
  have hs₃ : Settled db h u (T.openSession ctx u none)
      ((clientViews calls h).next u v₂ (channelId2UserPut ctx.channelId u)) := by
    refine hs₀.register hu hadm' ?_ hv₂.context hv₂.entries hv₂.made_eq
    show Function.update v₂.channelUser ctx.channelId (some u) = _
    rw [hv₂.channelUser]
    rfl
  cases hroom : m.roomId with
  | none => exact ⟨hs₃, Or.inl rfl⟩
  | some room =>
    rw [nonNull_some, bind_of_pure]
    have hout : ∀ c, ¬ (T.openSession ctx u none).InRoom c u room := by
      intro c hc
      obtain hc | ⟨-, -, hc⟩ := SessionTable.inRoom_openSession.mp hc
      · rw [hadm.1 c hc.has] at hc
        exact hadm.2.2 room hroom hc
      · exact absurd hc (by simp)
    have hctx : (T.openSession ctx u none).Has ctx u :=
      SessionTable.has_openSession.mpr (Or.inr ⟨rfl, rfl⟩)
    refine follows_bind (follows_joinRoom hs₃ hctx hout) ?_
    rintro - v₄ ⟨hs₄, hmade⟩
    rw [openSession_none_openSession] at hs₄
    refine follows_bind (follows_free (fun _ => trivial) (fun _ => rfl)) ?_
    rintro l v₅ ⟨hv₅, hread⟩
    have hmade₅ : v₅.made room ≠ 0 :=
      Nat.pos_iff_ne_zero.mp ((Nat.pos_of_ne_zero hmade).trans_le (hv₅.made_le room))
    have hl : l = if v₅.made room = 0 then none else some ⟨room, v₅.made room - 1⟩ := hread
    rw [if_neg hmade₅] at hl
    subst hl
    rw [nonNull_some, bind_of_pure]
    exact follows_weaken follows_broadcast (fun _ _ hv₆ => (hs₄.rely hv₅).rely hv₆)
      (fun _ _ hR => ⟨(hs₄.rely hv₅).rely hR.1, Or.inr hR.2⟩)

/-! ### Frames -/

/-- A message to a room leaves the session as it is. The sender is looked up only where
the room has a list, so that a stranger's message to a room without one goes unnoticed. -/
theorem follows_groupSend (hs : Settled db h u T v) (hm : m.HasType .groupSend) :
    (clientViews calls h).Follows u (handleMessage db ctx m) v
      (fun _ v' => Settled db h u T v')
      (fun _ v' => Settled db h u T v'
        ∧ ((TextWebSocketFrame.message m).Faulty db ∨ LooksUpMissing (ownOps u h))) := by
  have hcode : m.type = some MessageType.groupSend.getCode := hm
  have hlink : MessageType.groupSend.getCode ≠ MessageType.link.getCode := by decide
  simp only [handleMessage, hcode, nonNull_some, bind_of_pure, if_neg hlink, if_true]
  split
  · next hv =>
    cases hroom : m.roomId with
    | none => exact ⟨hs, Or.inl (Or.inr (Or.inr (Or.inl ⟨hm, hv, Or.inl hroom⟩)))⟩
    | some room =>
      rw [nonNull_some, bind_of_pure]
      refine follows_bind (follows_free (fun _ => trivial) (fun _ => rfl)) ?_
      rintro l v₁ ⟨hv₁, -⟩
      have hs₁ := hs.rely hv₁
      cases l with
      | none => exact hs₁
      | some l =>
        cases hsender : db.getUserById m.senderId with
        | none => exact ⟨hs₁, Or.inl (Or.inr (Or.inr (Or.inl ⟨hm, hv, Or.inr hsender⟩)))⟩
        | some w =>
          exact follows_weaken follows_broadcast (fun _ _ hv₂ => hs₁.rely hv₂)
            (fun _ _ hR => ⟨hs₁.rely hR.1, Or.inr hR.2⟩)
  · exact hs

/-- A message to one user does so too, and looks up nobody's context: it only asks
whether there is one. -/
theorem follows_singleSend (hs : Settled db h u T v) (hm : m.HasType .singleSend) :
    (clientViews calls h).Follows u (handleMessage db ctx m) v
      (fun _ v' => Settled db h u T v')
      (fun _ v' => Settled db h u T v'
        ∧ ((TextWebSocketFrame.message m).Faulty db ∨ LooksUpMissing (ownOps u h))) := by
  have hcode : m.type = some MessageType.singleSend.getCode := hm
  have hlink : MessageType.singleSend.getCode ≠ MessageType.link.getCode := by decide
  have hgroup : MessageType.singleSend.getCode ≠ MessageType.groupSend.getCode := by decide
  simp only [handleMessage, hcode, nonNull_some, bind_of_pure, if_neg hlink, if_neg hgroup,
    if_true]
  cases hreceiver : db.getUserById m.receiverId with
  | none => exact ⟨hs, Or.inl (Or.inr (Or.inr (Or.inr ⟨hm, hreceiver⟩)))⟩
  | some w =>
    rw [nonNull_some, bind_of_pure]
    refine follows_bind (follows_free (fun _ => trivial) (fun _ => rfl)) ?_
    rintro b v₁ ⟨hv₁, -⟩
    have hs₁ := hs.rely hv₁
    cases b with
    | true => exact hs₁
    | false =>
      exact follows_weaken (follows_free (fun _ => trivial) (fun _ => rfl))
        (fun _ _ hv₂ => hs₁.rely hv₂.1) (fun _ _ hR => hR)

/-- **A frame opens the session it links**, and throws of itself only where it is
faulty. -/
theorem follows_channelRead0 {f : TextWebSocketFrame} (hs : Settled db h u T v)
    (hown : ctx.channelId ∈ channelsOf calls u)
    (hadm : ∀ w, linkSender db f = some w → w = u ∧ T.Admits ctx u f.roomId) :
    (clientViews calls h).Follows u (channelRead0 db ctx f) v
      (fun _ v' => Settled db h u (T.opened db (.channelRead0 ctx f)) v')
      (fun _ v' => Settled db h u (T.opened db (.channelRead0 ctx f)) v'
        ∧ (f.Faulty db ∨ LooksUpMissing (ownOps u h))) := by
  have hstay : linkSender db f = none → T.opened db (.channelRead0 ctx f) = T := by
    intro hnone
    show (linkSender db f).elim T _ = T
    rw [hnone]
    rfl
  cases f with
  | unparsable => exact ⟨hs, Or.inl trivial⟩
  | null => exact ⟨hs, Or.inl trivial⟩
  | message m =>
    show (clientViews calls h).Follows u (handleMessage db ctx m) v _ _
    obtain hm | hm | hm | hm | ⟨hm, hm'⟩ := m.type_cases
    · have hnot : ¬ m.HasType .link := fun hl => hl.type_ne_none hm
      rw [hstay (linkSender_of_not_link hnot)]
      simp only [handleMessage, hm]
      exact ⟨hs, Or.inl (Or.inl hm)⟩
    · cases hsender : db.getUserById m.senderId with
      | none =>
        rw [hstay ((linkSender_of_link hm).trans hsender)]
        have hcode : m.type = some MessageType.link.getCode := hm
        simp only [handleMessage, hcode, hsender, nonNull_some, bind_of_pure, if_true,
          nonNull_none, bind_of_raise]
        exact ⟨hs, Or.inl (Or.inr (Or.inl ⟨hm, Or.inl hsender⟩))⟩
      | some w =>
        have hlink : linkSender db (.message m) = some w := (linkSender_of_link hm).trans hsender
        obtain ⟨rfl, hadmits⟩ := hadm w hlink
        have hopened :
            T.opened db (.channelRead0 ctx (.message m)) = T.openSession ctx w m.roomId := by
          show (linkSender db (.message m)).elim T _ = _
          rw [hlink]
          rfl
        rw [hopened]
        refine follows_weaken (follows_link hs hown hm hsender hadmits) (fun _ _ hQ => hQ) ?_
        rintro _ v' ⟨hs', hroom | hmissed⟩
        · exact ⟨hs', Or.inl (Or.inr (Or.inl ⟨hm, Or.inr hroom⟩))⟩
        · exact ⟨hs', Or.inr hmissed⟩
    · rw [hstay (linkSender_of_not_link (hm.not_hasType (by decide)))]
      exact follows_groupSend hs hm
    · rw [hstay (linkSender_of_not_link (hm.not_hasType (by decide)))]
      exact follows_singleSend hs hm
    · rw [hstay (linkSender_of_not_link (hm' _))]
      obtain ⟨code, hcode⟩ := Option.ne_none_iff_exists'.mp hm
      have hne : ∀ t : MessageType, code ≠ t.getCode :=
        fun t ht => hm' t (hcode.trans (congrArg some ht))
      simp only [handleMessage, hcode, nonNull_some, bind_of_pure, if_neg (hne _)]
      exact hs

/-! ### The loop -/

/-- A logout that did not go through leaves a session that there may be: where the
channel has no session, to end it is to leave it. -/
theorem SessionsAfter.of_failed_logout {missed : Prop} {es : List Event} {e : Event}
    (hT : SessionsAfter db missed es T) (he : e.IsLogout)
    (hwhy : (∀ w, ¬ T.Has e.ctx w) ∨ missed) : SessionsAfter db missed (es ++ [e]) T := by
  have hopened : T.opened db e = T := by
    obtain ⟨ctx, rfl | rfl⟩ := he.eq_or_eq
    · rfl
    · rfl
  obtain hnone | hmissed := hwhy
  · have hended : SessionsAfter db missed (es ++ [e]) ((T.opened db e).close e.ctx) := by
      refine hT.ended e ?_
      obtain ⟨ctx, rfl | rfl⟩ := he.eq_or_eq
      · trivial
      · trivial
    rw [hopened, SessionTable.close_of_forall_not_has hnone] at hended
    exact hended
  · have hkept := hT.kept e (fun _ => hmissed)
    rw [hopened] at hkept
    exact hkept

/-- **A call, with what Netty makes of its exception**, leaves a view of the session
that it may leave. The exception of a message is answered by a logout of its channel,
that of a logout by another one, and that of the answer is only logged: so a session
stays open after a channel went inactive only if both logouts threw. -/
theorem follows_dispatchProgram {es : List Event} {e : Event}
    (hs : Settled db h u T v) (hT : SessionsAfter db (LooksUpMissing (ownOps u h)) es T)
    (hown : e.ctx.channelId ∈ channelsOf calls u)
    (hadm : ∀ ctx f w, e = .channelRead0 ctx f → linkSender db f = some w →
      w = u ∧ T.Admits ctx u f.roomId) {R : Throwable → ClientView → Prop} :
    (clientViews calls h).Follows u (dispatchProgram db e) v
      (fun _ v' => ∃ T', SessionsAfter db (LooksUpMissing (ownOps u h)) (es ++ [e]) T'
        ∧ Settled db h u T' v') R := by
  cases e with
  | channelActive ctx =>
    refine follows_tryCatch ?_ (fun _ _ (hR : False) => hR.elim)
    refine follows_weaken (follows_free (fun _ => trivial) (fun _ => rfl)) ?_
      (fun _ _ hR => hR)
    exact fun _ v₁ hv₁ =>
      ⟨T, hT.kept (.channelActive ctx) (fun he => absurd he id), hs.rely hv₁.1⟩
  | channelInactive ctx =>
    refine follows_tryCatch
      (follows_weaken (follows_handleLogout hs hown) ?_ (fun _ _ hR => hR)) ?_
    · exact fun _ v₁ hs₁ => ⟨_, hT.ended (.channelInactive ctx) trivial, hs₁⟩
    · -- the logout is tried a second time
      rintro _ v₁ ⟨hs₁, -⟩
      refine follows_weaken (follows_exceptionCaught hs₁ hown) ?_ (fun _ _ hR => hR)
      rintro _ v₂ (hs₂ | ⟨hs₂, hwhy⟩)
      · exact ⟨_, hT.ended (.channelInactive ctx) trivial, hs₂⟩
      · exact ⟨T, hT.of_failed_logout (e := .channelInactive ctx) trivial hwhy, hs₂⟩
  | exceptionCaught ctx =>
    refine follows_weaken (follows_exceptionCaught hs hown) ?_ (fun _ _ hR => hR)
    rintro _ v₁ (hs₁ | ⟨hs₁, hwhy⟩)
    · exact ⟨_, hT.ended (.exceptionCaught ctx) trivial, hs₁⟩
    · exact ⟨T, hT.of_failed_logout (e := .exceptionCaught ctx) trivial hwhy, hs₁⟩
  | channelRead0 ctx f =>
    have hframe := follows_channelRead0 (f := f) hs hown (fun w hw => hadm ctx f w rfl hw)
    refine follows_tryCatch (follows_weaken hframe ?_ (fun _ _ hR => hR)) ?_
    · exact fun _ v₁ hs₁ => ⟨_, hT.kept (.channelRead0 ctx f) (fun he => absurd he id), hs₁⟩
    · rintro _ v₁ ⟨hs₁, hwhy⟩
      refine follows_weaken (follows_exceptionCaught hs₁ hown) ?_ (fun _ _ hR => hR)
      rintro _ v₂ (hs₂ | ⟨hs₂, -⟩)
      · exact ⟨_, hT.ended (.channelRead0 ctx f) hwhy, hs₂⟩
      · exact ⟨_, hT.kept (.channelRead0 ctx f) (fun he => absurd he id), hs₂⟩

/-- **The calls of a client** leave its view that of its session. The induction is on
the calls that its loop has been through, and carries a session there may be together
with a view that is settled for it. -/
theorem follows_eventLoop (hs : Settled db h u SessionTable.empty v)
    (horderly : Orderly db u (LooksUpMissing (ownOps u h)) (calls u))
    {R : Throwable → ClientView → Prop} :
    (clientViews calls h).Follows u (eventLoop db (calls u)) v
      (fun _ v' => ∃ T, SessionsAfter db (LooksUpMissing (ownOps u h)) (calls u) T
        ∧ Settled db h u T v') R := by
  refine follows_forEach (fun pre v' => ∃ T,
    SessionsAfter db (LooksUpMissing (ownOps u h)) pre T ∧ Settled db h u T v') ?_
    ⟨_, .nil, hs⟩
  rintro pre e hpre v' ⟨T, hT, hs'⟩
  refine follows_dispatchProgram hs' hT ?_ (horderly pre e T hpre hT)
  exact List.mem_map_of_mem (mem_of_step hpre)

end Calls
