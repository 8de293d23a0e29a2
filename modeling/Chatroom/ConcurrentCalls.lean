import Chatroom.HandlerRun
import Chatroom.TaskHistories

/-!
# Calls of the handler, side by side

The channels are served by several event loops, so that calls for different
channels run at the same time, and what is atomic is the single operation on a
registry. `chatSystem` has the calls of the handler for its tasks. A call may
begin at any moment; in particular `exceptionCaught` may, after a call that
threw, and so may two calls for one channel, which the event loop of a channel
would not let happen at once. What holds of all these runs holds of the real
ones.

A traversal of a concurrent map is no atomic operation. It meets what the other
threads happen to leave it, some of it long gone when it is used. Here a
traversal may meet anything at all.
-/

open AtomicSystem ChatroomServerHandler RegistryOp

namespace RegistryOp

/-- The operations that walk through a concurrent map. -/
def IsTraversal : RegistryOp → Prop
  | user2ChannelCtxKeySet | roomStubMapValues => True
  | _ => False

/-- **What an operation may answer and do** among other threads. -/
def Happens (o : RegistryOp) (s : ServerState) (answer : o.Answer) (s' : ServerState) : Prop :=
  (o.IsTraversal ∧ s' = s) ∨ o.exec s = (answer, s')

/-- What an operation does depends on the state alone. -/
theorem eq_exec_of_happens {o : RegistryOp} {s s' : ServerState} {answer : o.Answer}
    (h : o.Happens s answer s') : s' = (o.exec s).2 := by
  obtain ⟨htrav, rfl⟩ | hexec := h
  · cases o <;> first | rfl | exact absurd htrav id
  · rw [hexec]

/-- Only a traversal may answer anything. -/
theorem answer_of_happens {o : RegistryOp} {s s' : ServerState} {answer : o.Answer}
    (ho : ¬ o.IsTraversal) (h : o.Happens s answer s') : answer = (o.exec s).1 := by
  obtain ⟨htrav, -⟩ | hexec := h
  · exact absurd htrav ho
  · rw [hexec]

end RegistryOp

/-- The state when the server starts. -/
def ServerState.empty : ServerState := ⟨Registries.empty, []⟩

/-- **The calls of the handler, side by side.** -/
def chatSystem (db : UserTable) :
    AtomicSystem RegistryOp.Answer Throwable Event ServerState where
  body := handler db
  happens := RegistryOp.Happens

/-- What has happened in a run: the calls that began, and the operations they
performed. -/
abbrev History : Type := List (AtomicAction RegistryOp.Answer Event)

/-- What a call has done, with the answers. -/
abbrev CallDeeds : Type := Deeds RegistryOp.Answer

/-- **The registries after a history**, and the frames written. -/
def stateAfter (s₀ : ServerState) (h : History) : ServerState := replay RegistryOp.exec s₀ h

section Replay

variable {db : UserTable} {s₀ s : ServerState} {h pre : History}
  {ts : List (Thread RegistryOp.Answer Throwable Event)}

/-- A run ends in the state after its history. -/
theorem stateAfter_eq (run : (chatSystem db).Run s₀ h ts s) : stateAfter s₀ h = s :=
  (Run.replay_eq (fun _ _ _ _ => eq_exec_of_happens) run).1

/-- What was answered was so at that moment, but for traversals. -/
theorem answer_eq_exec (run : (chatSystem db).Run s₀ h ts s) {e : Event} {o : RegistryOp}
    {a : o.Answer} (ho : ¬ o.IsTraversal) (hpre : pre ++ [.perform e o a] <+: h) :
    a = (o.exec (stateAfter s₀ pre)).1 :=
  answer_of_happens ho ((Run.replay_eq (fun _ _ _ _ => eq_exec_of_happens) run).2 pre e o a hpre)

/-- What a call was answered was so at some moment before. -/
theorem exists_answer_eq_exec (run : (chatSystem db).Run s₀ h ts s) (hpre : pre <+: h)
    {e : Event} {o : RegistryOp} {a : o.Answer} (ho : ¬ o.IsTraversal)
    (hmem : ⟨o, a⟩ ∈ ownOps e pre) :
    ∃ p, p ++ [.perform e o a] <+: pre ∧ a = (o.exec (stateAfter s₀ p)).1 := by
  obtain ⟨p, hp⟩ := exists_prefix_of_mem (mem_ownOps.mp hmem)
  exact ⟨p, hp, answer_eq_exec run ho (hp.trans hpre)⟩

end Replay

/-- The operations of a call that runs alone. -/
def callTrace (db : UserTable) (e : Event) (s : ServerState) : History :=
  trace RegistryOp.exec e (handler db e) s

/-- **A call that is not interrupted** leaves the state its sequential reading
leaves. -/
theorem run_call {db : UserTable} {s₀ s : ServerState} {h : History}
    {ts : List (Thread RegistryOp.Answer Throwable Event)}
    (run : (chatSystem db).Run s₀ h ts s) (e : Event) :
    (chatSystem db).Run s₀ (h ++ .begin e :: callTrace db e s)
      (⟨e, .finished ((handler db e).run RegistryOp.exec s).1⟩ :: ts)
      ((handler db e).run RegistryOp.exec s).2 := by
  have hsolo := Run.solo RegistryOp.exec (fun o s => Or.inr rfl) (run.begin e)
  rw [List.append_assoc] at hsolo
  exact hsolo
