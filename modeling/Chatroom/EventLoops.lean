import Chatroom.ConcurrentCalls
import Mathlib.Data.List.Dedup

/-!
# The event loops of the server

Netty serves a channel from one event loop, which makes the calls for the channel
one after the other, and follows a call that throws by `exceptionCaught` before
anything else happens on that channel. `eventLoop` is that loop as a program, and
`serverSystem` has the loops of many clients side by side, to be interleaved
operation by operation. A client is known by a user, and all its calls stand in
one sequence, those for a later connection after those for an earlier one.

The sequential model is the case in which the loops take turns by whole calls:
alone, a loop does what `dispatch` says (`run_eventLoop`), and **every sequential
run of the handler is a run of the interleaved server**, with the same registries
and the same frames (`serial_run`).
-/

open AtomicSystem AtomicProgram ChatroomServerHandler RegistryOp

/-! ## The frames written do not matter to a call -/

/-- What an operation answers and does is not changed by the frames written before. -/
theorem RegistryOp.exec_append (o : RegistryOp) (r : Registries) (w w' : List Written) :
    o.exec ⟨r, w ++ w'⟩
      = ((o.exec ⟨r, w'⟩).1,
        ⟨(o.exec ⟨r, w'⟩).2.registries, w ++ (o.exec ⟨r, w'⟩).2.written⟩) := by
  cases o with
  | writeAndFlush ctx message =>
    show ((), ServerState.mk r (w ++ w' ++ [(ctx, message)])) = _
    rw [List.append_assoc]
    rfl
  | _ => rfl

/-- **A program writes after what was written before it**, and does otherwise the
same. -/
theorem run_written_append {α : Type} (p : HandlerProgram α) (r : Registries)
    (w w' : List Written) :
    p.run RegistryOp.exec ⟨r, w ++ w'⟩
      = ((p.run RegistryOp.exec ⟨r, w'⟩).1, ⟨(p.run RegistryOp.exec ⟨r, w'⟩).2.registries,
          w ++ (p.run RegistryOp.exec ⟨r, w'⟩).2.written⟩) := by
  induction p generalizing r w' with
  | ret a => rfl
  | raise e => rfl
  | call o k ih =>
    show (k (o.exec ⟨r, w ++ w'⟩).1).run RegistryOp.exec (o.exec ⟨r, w ++ w'⟩).2 = _
    rw [RegistryOp.exec_append]
    exact ih _ _ _

/-- One call, after what was written before it. -/
theorem run_handler (db : UserTable) (e : Event) (s : ServerState) :
    (handler db e).run RegistryOp.exec s
      = (((invoke db e s.registries).thrown.elim (.ok ()) .error),
          ⟨(invoke db e s.registries).registries,
            s.written ++ (invoke db e s.registries).written⟩) := by
  have happend := run_written_append (handler db e) s.registries s.written []
  rw [List.append_nil] at happend
  refine happend.trans ?_
  unfold invoke
  generalize (handler db e).run RegistryOp.exec ⟨s.registries, []⟩ = x
  obtain ⟨⟨⟩ | ⟨⟩, s'⟩ := x <;> rfl

/-! ## The loop -/

namespace ChatroomServerHandler

/-- What follows a call that throws: `exceptionCaught` on the same channel, whose own
exception is dropped, as is that of a call of `exceptionCaught`. -/
def afterThrow (db : UserTable) : Event → HandlerProgram Unit
  | .exceptionCaught _ => pure ()
  | e => (handler db (.exceptionCaught e.ctx)).tryCatch (fun _ => pure ())

/-- One call, with what Netty makes of its exception. -/
def dispatchProgram (db : UserTable) (e : Event) : HandlerProgram Unit :=
  (handler db e).tryCatch (fun _ => afterThrow db e)

/-- **The calls of one client**, one after the other. -/
def eventLoop (db : UserTable) (es : List Event) : HandlerProgram Unit :=
  forEach es (dispatchProgram db)

end ChatroomServerHandler

/-- What a call leaves of the registries and the frames, with what Netty makes of
its exception. -/
def dispatchState (db : UserTable) (s : ServerState) (e : Event) : ServerState :=
  ⟨(dispatch db e s.registries).registries, s.written ++ (dispatch db e s.registries).written⟩

/-- **A call alone does what `dispatch` says**, and its exception is caught. -/
theorem run_dispatchProgram (db : UserTable) (e : Event) (s : ServerState) :
    (dispatchProgram db e).run RegistryOp.exec s = (.ok (), dispatchState db s e) := by
  rw [dispatchProgram, run_tryCatch, run_handler]
  unfold dispatchState dispatch
  rcases invoke db e s.registries with ⟨⟨⟩ | ⟨t⟩, r', w⟩
  · rfl
  · -- the call throws
    have hcaught : ∀ ctx, ((handler db (.exceptionCaught ctx)).tryCatch (fun _ => pure ())).run
        RegistryOp.exec ⟨r', s.written ++ w⟩
          = (.ok (), ⟨(invoke db (.exceptionCaught ctx) r').registries,
              s.written ++ w ++ (invoke db (.exceptionCaught ctx) r').written⟩) := by
      intro ctx
      rw [run_tryCatch, run_handler]
      rcases invoke db (.exceptionCaught ctx) r' with ⟨⟨⟩ | ⟨t'⟩, r'', w'⟩ <;> rfl
    cases e with
    | exceptionCaught ctx => rfl
    | channelActive ctx =>
      rw [← List.append_assoc]
      exact hcaught ctx
    | channelInactive ctx =>
      rw [← List.append_assoc]
      exact hcaught ctx
    | channelRead0 ctx f =>
      rw [← List.append_assoc]
      exact hcaught ctx

/-- **A loop alone makes its calls as listed.** -/
theorem run_eventLoop (db : UserTable) (es : List Event) (s : ServerState) :
    (eventLoop db es).run RegistryOp.exec s = (.ok (), es.foldl (dispatchState db) s) := by
  induction es generalizing s with
  | nil => rfl
  | cons e es ih =>
    rw [eventLoop, run_forEach_cons, run_dispatchProgram, andThen_ok]
    exact ih (dispatchState db s e)

/-- The registries that calls leave are those of the sequential run. -/
theorem registries_foldl_dispatchState (db : UserTable) (es : List Event) :
    (es.foldl (dispatchState db) .empty).registries = afterDispatch db es := by
  induction es using List.reverseRecOn with
  | nil => rfl
  | append_singleton es e ih =>
    rw [List.foldl_append, afterDispatch_snoc, ← ih]
    rfl

/-! ## The loops side by side -/

/-- **The server**: the event loops of its clients, side by side. -/
def serverSystem (db : UserTable) (calls : User → List Event) :
    AtomicSystem RegistryOp.Answer Throwable User ServerState where
  body u := eventLoop db (calls u)
  happens := RegistryOp.Happens

/-- The history of the loops. -/
abbrev LoopHistory : Type := List (AtomicAction RegistryOp.Answer User)

section Serial

variable {db : UserTable} (client : Event → User)

/-- The calls of a client, in the order in which they stand among all. -/
def callsOf (es : List Event) (u : User) : List Event := es.filter (fun e => client e = u)

/-- The loops of some clients, each with the calls it has left. -/
def loopsOf (db : UserTable) (es : List Event) (us : List User) :
    List (Thread RegistryOp.Answer Throwable User) :=
  us.map (fun u => ⟨u, eventLoop db (callsOf client es u)⟩)

theorem callsOf_cons_self (e : Event) (es : List Event) :
    callsOf client (e :: es) (client e) = e :: callsOf client es (client e) := by
  simp [callsOf]

theorem callsOf_cons_of_ne {e : Event} {u : User} (h : u ≠ client e) (es : List Event) :
    callsOf client (e :: es) u = callsOf client es u := by
  simp [callsOf, h.symm]

/-- The loops of other clients are not concerned by a call. -/
theorem loopsOf_cons_of_not_mem {e : Event} {us : List User} (h : client e ∉ us)
    (es : List Event) : loopsOf client db (e :: es) us = loopsOf client db es us := by
  unfold loopsOf
  refine List.map_congr_left (fun u hu => ?_)
  have hne : u ≠ client e := fun e' => h (e' ▸ hu)
  rw [callsOf_cons_of_ne client hne]

/-- The loops begin, the last of the list first. -/
theorem run_begin_loops (es : List Event) (us : List User) (s : ServerState) :
    ∃ h : LoopHistory, (serverSystem db (callsOf client es)).Run s h (loopsOf client db es us) s
      ∧ begins h = us.reverse := by
  induction us with
  | nil => exact ⟨[], .start, rfl⟩
  | cons u us ih =>
    obtain ⟨h, run, hbegins⟩ := ih
    refine ⟨h ++ [.begin u], run.begin u, ?_⟩
    rw [List.reverse_cons, ← hbegins]
    simp [begins, begun]

/-- **A call, made by the loop of its client** while the others wait. -/
theorem run_call_of_client {calls : User → List Event} {e : Event} {es : List Event}
    {us : List User} (hnodup : us.Nodup) (hmem : client e ∈ us) {s₀ s : ServerState}
    {h : LoopHistory}
    (run : (serverSystem db calls).Run s₀ h (loopsOf client db (e :: es) us) s) :
    ∃ h', (serverSystem db calls).Run s₀ h' (loopsOf client db es us) (dispatchState db s e)
      ∧ begins h' = begins h := by
  obtain ⟨us₁, us₂, rfl⟩ := List.append_of_mem hmem
  obtain ⟨-, hright, hdisjoint⟩ := List.nodup_append.mp hnodup
  have hleft : client e ∉ us₁ := fun hin => hdisjoint _ hin _ List.mem_cons_self rfl
  have hright' : client e ∉ us₂ := (List.nodup_cons.mp hright).1
  have hsplit : ∀ es', loopsOf client db es' (us₁ ++ client e :: us₂)
      = loopsOf client db es' us₁
        ++ ⟨client e, eventLoop db (callsOf client es' (client e))⟩
          :: loopsOf client db es' us₂ := by
    intro es'
    simp [loopsOf]
  rw [hsplit, callsOf_cons_self, loopsOf_cons_of_not_mem client hleft,
    loopsOf_cons_of_not_mem client hright'] at run
  have hnext := Run.solo_bind RegistryOp.exec (fun _ _ => Or.inr rfl) run
    (run_dispatchProgram db e s)
  rw [hsplit]
  refine ⟨_, hnext, ?_⟩
  rw [begins, List.filterMap_append, ← begins, ← begins, begins_trace, List.append_nil]

end Serial

/-- **Every sequential run of the handler is a run of the interleaved server**: each
client's loop makes its own calls, the loops take turns as the calls are listed, all
come to an end, and the registries and the frames are those of the sequential run. -/
theorem serial_run (db : UserTable) (client : Event → User) (es : List Event) :
    ∃ (h : LoopHistory) (ts : List (Thread RegistryOp.Answer Throwable User)) (s : ServerState),
      (serverSystem db (callsOf client es)).Run .empty h ts s
        ∧ (begins h).Nodup ∧ (∀ e ∈ es, client e ∈ begins h) ∧ (∀ th ∈ ts, th.program = .ret ())
        ∧ s.registries = afterDispatch db es
        ∧ s.written = (es.foldl (dispatchState db) .empty).written := by
  have hnodup : (es.map client).dedup.Nodup := List.nodup_dedup _
  have hmem : ∀ e ∈ es, client e ∈ (es.map client).dedup := by
    intro e he
    rw [List.mem_dedup]
    exact List.mem_map_of_mem he
  generalize (es.map client).dedup = us at hnodup hmem
  obtain ⟨h₀, run₀, hbegins₀⟩ : ∃ h : LoopHistory, (serverSystem db (callsOf client es)).Run
      .empty h (loopsOf client db es us) .empty ∧ begins h = us.reverse :=
    run_begin_loops client es us .empty
  -- the calls that have been made, and those that are left
  suffices hall : ∀ rest done, es = done ++ rest → ∀ s h,
      (serverSystem db (callsOf client es)).Run .empty h (loopsOf client db rest us) s →
        ∃ h', (serverSystem db (callsOf client es)).Run .empty h' (loopsOf client db [] us)
          (rest.foldl (dispatchState db) s) ∧ begins h' = begins h by
    obtain ⟨h, run, hbegins⟩ := hall es [] rfl .empty h₀ run₀
    rw [hbegins₀] at hbegins
    refine ⟨h, _, _, run, ?_, fun e he => ?_, fun th hth => ?_,
      registries_foldl_dispatchState db es, rfl⟩
    · rw [hbegins]
      exact List.nodup_reverse.mpr hnodup
    · rw [hbegins, List.mem_reverse]
      exact hmem e he
    · obtain ⟨u, -, rfl⟩ := List.mem_map.mp hth
      rfl
  intro rest
  induction rest with
  | nil => exact fun _ _ s h run => ⟨h, run, rfl⟩
  | cons e rest ih =>
    intro done hes s h run
    have he : client e ∈ us := hmem e (by simp [hes])
    obtain ⟨h', run', hbegins⟩ := run_call_of_client client hnodup he run
    obtain ⟨h'', run'', hbegins'⟩ := ih (done ++ [e]) (by simp [hes]) _ h' run'
    exact ⟨h'', run'', hbegins'.trans hbegins⟩
