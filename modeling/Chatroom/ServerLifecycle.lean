import Chatroom.PrefixInduction
import Chatroom.StepMachine
import Mathlib.Data.List.Count

/-!
# Starting and stopping the server

`NettyServer.start` makes two event loop groups, puts them into the fields of the
server, and binds its port; `NettyServer.shutdown` shuts down the groups that the
fields hold by then. Nothing is shut down on the way out of a start that fails, and a
second start writes over the fields. So the groups of a start are shut down by the
very next call, or never (`running_iff`), and a server that is started once more before
it is shut down listens for good.

Who calls the two is the second part. `StartLoader` starts the server when a context
without a parent is refreshed. `StopListener` would shut it down when one is stopped,
but it is no component, so Spring never makes one, and no event of a context ever
shuts a group down (`context_shuts_down_nothing`).

Groups are numbered in the order in which they are made. The quiet period of a graceful
shutdown is left out: a group that is told to shut down is gone.
-/

/-- What a start or a shutdown throws. -/
inductive ServerThrown where
  | nullPointerException
  | bindException
  deriving DecidableEq, Repr

/-- A call of the server. A start meets a port that another process has taken, or not,
and is interrupted while it waits, or not. -/
inductive ServerCall where
  | start (portTaken interrupted : Bool)
  | shutdown
  deriving DecidableEq, Repr

/-- **The server**, and what it has made: its two fields, the number of groups made so
far, those that were not told to shut down, and the boss groups that have a channel
bound to the port. -/
structure NettyServer where
  boosGroup : Option ℕ
  workerGroup : Option ℕ
  created : ℕ
  running : List ℕ
  listening : List ℕ
  deriving DecidableEq, Repr

namespace NettyServer

/-- The server before its first start. -/
def new : NettyServer := ⟨none, none, 0, [], []⟩

/-- **`start`.** An interruption is caught, and the future that was not assigned is
read all the same; the port is bound nevertheless. -/
def start (portTaken interrupted : Bool) (s : NettyServer) : Option ServerThrown × NettyServer :=
  let boosGroup := s.created
  let workerGroup := s.created + 1
  let bound := !portTaken && s.listening.isEmpty
  let s' : NettyServer :=
    { boosGroup := some boosGroup
      workerGroup := some workerGroup
      created := s.created + 2
      running := s.running ++ [boosGroup, workerGroup]
      listening := if bound then s.listening ++ [boosGroup] else s.listening }
  if interrupted then (some .nullPointerException, s')
  else if bound then (none, s')
  else (some .bindException, s')

/-- `shutdownGracefully` of a group. -/
def shutdownGracefully (group : ℕ) (s : NettyServer) : NettyServer :=
  { s with
    running := s.running.filter (· ≠ group)
    listening := s.listening.filter (· ≠ group) }

/-- **`shutdown`.** -/
def shutdown (s : NettyServer) : Option ServerThrown × NettyServer :=
  match s.boosGroup with
  | none => (some .nullPointerException, s)
  | some boosGroup =>
    let s' := s.shutdownGracefully boosGroup
    match s'.workerGroup with
    | none => (some .nullPointerException, s')
    | some workerGroup => (none, s'.shutdownGracefully workerGroup)

/-- The server as a machine that answers calls. -/
def machine : StepMachine ServerCall (Option ServerThrown) NettyServer
  | s, .start portTaken interrupted => s.start portTaken interrupted
  | s, .shutdown => s.shutdown

/-- How many of the calls are starts. The groups of a start are numbered by how many
starts there were before it, two for each. -/
def starts (es : List ServerCall) : ℕ := es.countP (· ≠ .shutdown)

/-- **A group of a start that was not followed by a shutdown at once.** -/
def RunsOn (es : List ServerCall) (g : ℕ) : Prop :=
  ∃ pre p i, pre ++ [.start p i] <+: es ∧ (g = 2 * starts pre ∨ g = 2 * starts pre + 1)
    ∧ ¬ pre ++ [.start p i, .shutdown] <+: es

section Starts

variable {es pre : List ServerCall} {p i : Bool}

@[simp] theorem starts_nil : starts [] = 0 := rfl

@[simp] theorem starts_start : starts (es ++ [.start p i]) = starts es + 1 := by
  simp [starts]

@[simp] theorem starts_shutdown : starts (es ++ [.shutdown]) = starts es := by
  simp [starts]

/-- Fewer starts come before a start than up to it. -/
theorem starts_lt (h : pre ++ [.start p i] <+: es) : starts pre < starts es := by
  obtain ⟨later, rfl⟩ := h
  unfold starts
  simp only [List.countP_append]
  simp
  omega

end Starts

section RunsOn

variable {es : List ServerCall} {p i : Bool} {g : ℕ}

theorem not_runsOn_nil : ¬ RunsOn [] g := by
  rintro ⟨pre, p, i, hpre, -⟩
  exact absurd (List.prefix_nil.mp hpre) (by simp)

/-- A start leaves the groups before it running, and adds its own. -/
theorem runsOn_start :
    RunsOn (es ++ [.start p i]) g ↔ RunsOn es g ∨ g = 2 * starts es ∨ g = 2 * starts es + 1 := by
  constructor
  · rintro ⟨pre, q, j, hpre, hg, hnot⟩
    obtain heq | hbefore := List.prefix_concat_iff.mp hpre
    · obtain ⟨rfl, -⟩ := List.append_inj' heq rfl
      exact Or.inr hg
    · exact Or.inl ⟨pre, q, j, hbefore, hg,
        fun hshut => hnot (hshut.trans (List.prefix_append _ _))⟩
  · rintro (⟨pre, q, j, hpre, hg, hnot⟩ | hg)
    · refine ⟨pre, q, j, hpre.trans (List.prefix_append _ _), hg, fun hshut => ?_⟩
      obtain heq | hbefore := List.prefix_concat_iff.mp hshut
      · have hlast := congrArg List.getLast? heq
        simp at hlast
      · exact hnot hbefore
    · refine ⟨es, p, i, List.prefix_refl _, hg, fun hshut => ?_⟩
      have hlength := hshut.length_le
      simp at hlength

/-- **A shutdown ends the groups of the start just before it**, and no others. -/
theorem runsOn_shutdown :
    RunsOn (es ++ [.shutdown]) g
      ↔ RunsOn es g ∧ ∀ pre q j, es = pre ++ [.start q j] →
          g ≠ 2 * starts pre ∧ g ≠ 2 * starts pre + 1 := by
  constructor
  · rintro ⟨pre, q, j, hpre, hg, hnot⟩
    have hbefore : pre ++ [.start q j] <+: es := by
      obtain heq | hbefore := List.prefix_concat_iff.mp hpre
      · have hlast := congrArg List.getLast? heq
        simp at hlast
      · exact hbefore
    refine ⟨⟨pre, q, j, hbefore, hg,
      fun hshut => hnot (hshut.trans (List.prefix_append _ _))⟩, ?_⟩
    rintro pre' q' j' rfl
    obtain heq | hearlier := List.prefix_concat_iff.mp hbefore
    · -- the start is the one just before
      refine absurd ?_ hnot
      rw [← heq]
      simp
    · have hlt := starts_lt hearlier
      omega
  · rintro ⟨⟨pre, q, j, hpre, hg, hnot⟩, hlast⟩
    refine ⟨pre, q, j, hpre.trans (List.prefix_append _ _), hg, fun hshut => ?_⟩
    obtain heq | hbefore := List.prefix_concat_iff.mp hshut
    · have hes : es = pre ++ [.start q j] := by
        have hsplit : (pre ++ [.start q j]) ++ [ServerCall.shutdown] = es ++ [.shutdown] := by
          rw [← heq]
          simp
        exact (List.append_cancel_right hsplit).symm
      have hne := hlast pre q j hes
      omega
    · exact hnot hbefore

end RunsOn

/-- **What is true of the server after a list of calls.** The fields speak of the last
call alone: they hold the groups of a start that has just been made, and what they hold
otherwise has been shut down. The running groups speak of all calls. -/
structure Inv (es : List ServerCall) (s : NettyServer) : Prop where
  created : s.created = 2 * starts es
  fields : s.boosGroup = none ↔ s.workerGroup = none
  /-- After a start, the fields hold its groups. -/
  started : ∀ pre p i, es = pre ++ [.start p i] →
    s.boosGroup = some (2 * starts pre) ∧ s.workerGroup = some (2 * starts pre + 1)
  /-- Otherwise, what they hold was shut down before. -/
  idle : (∀ pre p i, es ≠ pre ++ [.start p i]) →
    ∀ g, s.boosGroup = some g ∨ s.workerGroup = some g → g ∉ s.running
  running : ∀ g, g ∈ s.running ↔ RunsOn es g
  listening : ∀ g ∈ s.listening, g ∈ s.running

theorem inv_nil : Inv [] new where
  created := rfl
  fields := Iff.rfl
  started pre p i h := absurd h (by simp)
  idle _ g h := absurd h (by simp [new])
  running g := iff_of_false (by simp [new]) not_runsOn_nil
  listening g h := absurd h (by simp [new])

section Step

variable {es : List ServerCall} {s : NettyServer}

/-- **What a start does**, however it ends: it makes two groups, and may bind the port. -/
theorem start_eq (s : NettyServer) (p i : Bool) : (s.start p i).2
    = { boosGroup := some s.created, workerGroup := some (s.created + 1),
        created := s.created + 2,
        running := s.running ++ [s.created, s.created + 1],
        listening := if (!p && s.listening.isEmpty) = true then s.listening ++ [s.created]
          else s.listening } := by
  unfold NettyServer.start
  cases i with
  | true => rfl
  | false => cases (!p && s.listening.isEmpty) <;> rfl

theorem Inv.start (h : Inv es s) (p i : Bool) : Inv (es ++ [.start p i]) (s.start p i).2 := by
  rw [start_eq]
  have hcreated := h.created
  refine ⟨?_, by simp, fun pre q j he => ?_, fun hne => absurd rfl (hne es p i), fun g => ?_,
    fun g hg => ?_⟩
  · rw [starts_start]
    show s.created + 2 = _
    omega
  · obtain ⟨rfl, -⟩ := List.append_inj' he rfl
    rw [← hcreated]
    exact ⟨rfl, rfl⟩
  · rw [runsOn_start, ← h.running, ← hcreated]
    simp
  · have hls : g ∈ s.listening ∨ g = s.created := by
      have hg : g ∈ (if (!p && s.listening.isEmpty) = true then s.listening ++ [s.created]
          else s.listening) := hg
      split at hg
      · simpa using hg
      · exact Or.inl hg
    obtain hold | rfl := hls
    · exact List.mem_append_left _ (h.listening g hold)
    · simp

theorem mem_running_shutdownGracefully {g g' : ℕ} :
    g ∈ (s.shutdownGracefully g').running ↔ g ∈ s.running ∧ g ≠ g' := by
  simp [shutdownGracefully]

/-- **A shutdown**, where there was a start, ends the two groups of the fields. It leaves
the fields as they are, so that a second shutdown finds the same groups. -/
theorem shutdown_of_some {b w : ℕ} (hb : s.boosGroup = some b) (hw : s.workerGroup = some w) :
    s.shutdown = (none, (s.shutdownGracefully b).shutdownGracefully w) := by
  unfold shutdown
  rw [hb]
  show (match s.workerGroup with | none => _ | some w => _) = _
  rw [hw]

theorem shutdown_of_none (hb : s.boosGroup = none) :
    s.shutdown = (some .nullPointerException, s) := by
  unfold shutdown
  rw [hb]

theorem Inv.shutdown (h : Inv es s) : Inv (es ++ [.shutdown]) s.shutdown.2 := by
  have hnot : ∀ pre p i, es ++ [.shutdown] ≠ pre ++ [.start p i] := by
    intro pre p i heq
    have hlast := congrArg List.getLast? heq
    simp at hlast
  cases hb : s.boosGroup with
  | none =>
    -- there was no start, and nothing happens
    have hw := h.fields.mp hb
    have hnone : ∀ pre p i, es ≠ pre ++ [.start p i] := by
      intro pre p i he
      exact absurd (hb.symm.trans (h.started pre p i he).1) (by simp)
    rw [shutdown_of_none hb]
    refine ⟨by rw [starts_shutdown]; exact h.created, h.fields,
      fun pre p i he => absurd he (hnot pre p i),
      fun _ => h.idle hnone, fun g => ?_, h.listening⟩
    rw [runsOn_shutdown, h.running]
    exact ⟨fun hg => ⟨hg, fun pre p i he => absurd he (hnone pre p i)⟩, fun hg => hg.1⟩
  | some b =>
    obtain ⟨w, hw⟩ :=
      Option.ne_none_iff_exists'.mp (fun hw => absurd (h.fields.mpr hw) (by simp [hb]))
    rw [shutdown_of_some hb hw]
    refine ⟨by rw [starts_shutdown]; exact h.created, h.fields,
      fun pre p i he => absurd he (hnot pre p i),
      fun _ g hg => ?_, fun g => ?_, fun g hg => ?_⟩
    · rw [mem_running_shutdownGracefully, mem_running_shutdownGracefully]
      have hfield : b = g ∨ w = g := by
        refine hg.imp (fun hg => ?_) (fun hg => ?_)
        · exact Option.some.inj (hb.symm.trans hg)
        · exact Option.some.inj (hw.symm.trans hg)
      rintro ⟨⟨-, hgb⟩, hgw⟩
      exact hfield.elim (fun e => hgb e.symm) (fun e => hgw e.symm)
    · rw [mem_running_shutdownGracefully, mem_running_shutdownGracefully, runsOn_shutdown,
        h.running]
      by_cases hlast : ∃ pre p i, es = pre ++ [.start p i]
      · obtain ⟨pre, p, i, rfl⟩ := hlast
        obtain ⟨hb', hw'⟩ := h.started pre p i rfl
        obtain rfl := Option.some.inj (hb.symm.trans hb')
        obtain rfl := Option.some.inj (hw.symm.trans hw')
        constructor
        · rintro ⟨⟨hg, hgb⟩, hgw⟩
          refine ⟨hg, fun pre' q j he => ?_⟩
          obtain ⟨rfl, -⟩ := List.append_inj' he rfl
          exact ⟨hgb, hgw⟩
        · rintro ⟨hg, hne⟩
          exact ⟨⟨hg, (hne pre p i rfl).1⟩, (hne pre p i rfl).2⟩
      · have hnone : ∀ pre p i, es ≠ pre ++ [.start p i] :=
          fun pre p i he => hlast ⟨pre, p, i, he⟩
        constructor
        · exact fun hg => ⟨hg.1.1, fun pre p i he => absurd he (hnone pre p i)⟩
        · rintro ⟨hg, -⟩
          have hgone := h.idle hnone
          refine ⟨⟨hg, fun e => hgone b (Or.inl hb) ?_⟩, fun e => hgone w (Or.inr hw) ?_⟩
          · rw [← e, h.running]
            exact hg
          · rw [← e, h.running]
            exact hg
    · have hlist : g ∈ s.listening ∧ g ≠ w ∧ g ≠ b := by
        simpa [shutdownGracefully] using hg
      rw [mem_running_shutdownGracefully, mem_running_shutdownGracefully]
      exact ⟨⟨h.listening g hlist.1, hlist.2.2⟩, hlist.2.1⟩

end Step

theorem inv_after (es : List ServerCall) : Inv es (machine.after new es) := by
  induction es using List.reverseRecOn with
  | nil => exact inv_nil
  | append_singleton es c ih =>
    rw [StepMachine.after_snoc]
    cases c with
    | start p i => exact ih.start p i
    | shutdown => exact ih.shutdown

/-- A boss group that listens does so for as long as it runs, whatever else is started:
a start that finds the port taken fails and leaves it to the one that has it. -/
theorem listening_snoc {es : List ServerCall} {c : ServerCall} {g : ℕ}
    (h : g ∈ (machine.after new es).listening) (hruns : RunsOn (es ++ [c]) g) :
    g ∈ (machine.after new (es ++ [c])).listening := by
  have hrunning := ((inv_after (es ++ [c])).running g).mpr hruns
  rw [StepMachine.after_snoc] at hrunning ⊢
  generalize machine.after new es = s at h hrunning ⊢
  cases c with
  | start p i =>
    show g ∈ (s.start p i).2.listening
    rw [start_eq]
    show g ∈ (if _ then s.listening ++ [s.created] else s.listening)
    split
    · exact List.mem_append_left _ h
    · exact h
  | shutdown =>
    have hrunning : g ∈ s.shutdown.2.running := hrunning
    show g ∈ s.shutdown.2.listening
    unfold shutdown at hrunning ⊢
    cases hb : s.boosGroup with
    | none => exact h
    | some b =>
      rw [hb] at hrunning
      cases hw : s.workerGroup with
      | none =>
        simp only [shutdownGracefully, hw, List.mem_filter] at hrunning ⊢
        exact ⟨h, hrunning.2⟩
      | some w =>
        simp only [shutdownGracefully, hw, List.mem_filter] at hrunning ⊢
        exact ⟨⟨h, hrunning.1.2⟩, hrunning.2⟩

/-- **What a start leaves behind.** The groups that run are those of the starts that were
not followed by a shutdown at once. So a server that listens and is started once more
listens for good: no shutdown ends it, and every later start throws. -/
theorem running_iff (es : List ServerCall) :
    (∀ g, g ∈ (machine.after new es).running ↔ RunsOn es g)
      ∧ ∀ pre p i p' i', pre ++ [.start p i, .start p' i'] <+: es →
        2 * starts pre ∈ (machine.after new (pre ++ [.start p i])).listening →
          2 * starts pre ∈ (machine.after new es).listening
            ∧ ∀ q j, (machine (machine.after new es) (.start q j)).1 ≠ none := by
  refine ⟨(inv_after es).running, fun pre p i p' i' htwice hbound => ?_⟩
  have hnot : ¬ pre ++ [.start p i, .shutdown] <+: es := by
    intro hshut
    have hlength : (pre ++ [ServerCall.start p i, .shutdown]).length
        = (pre ++ [ServerCall.start p i, .start p' i']).length := by simp
    have heq := (List.prefix_of_prefix_length_le hshut htwice hlength.le).eq_of_length hlength
    exact absurd (List.append_cancel_left heq) (by simp)
  have hpre : pre ++ [.start p i] <+: pre ++ [.start p i, .start p' i'] :=
    ⟨[.start p' i'], by simp⟩
  have hlistens : 2 * starts pre ∈ (machine.after new es).listening := by
    refine forall_later_of_step
      (P := fun es => 2 * starts pre ∈ (machine.after new es).listening)
      hbound (fun later c hlater hstep h => listening_snoc h ?_) (hpre.trans htwice)
      (List.prefix_refl es)
    exact ⟨pre, p, i, hlater.trans (List.prefix_append _ _), Or.inl rfl,
      fun hshut => hnot (hshut.trans hstep)⟩
  refine ⟨hlistens, fun q j => ?_⟩
  have hbusy : (machine.after new es).listening.isEmpty = false := by
    cases hls : (machine.after new es).listening with
    | nil => exact absurd (hls ▸ hlistens) (by simp)
    | cons g gs => rfl
  show ((machine.after new es).start q j).1 ≠ none
  unfold start
  cases j with
  | true => simp
  | false => simp [hbusy]

end NettyServer

/-! ## Who calls the server -/

/-- An event of an application context. A refresh has the context start the server, if it
has no parent, and then the start meets a port and an interruption, or not. -/
inductive ContextEvent where
  | refreshed (hasParent portTaken interrupted : Bool)
  | started
  | stopped
  | closed
  deriving DecidableEq, Repr

/-- A listener of the repository: whether Spring makes it, and the call by which it
answers an event. -/
structure ApplicationListener where
  isComponent : Bool
  onApplicationEvent : ContextEvent → Option ServerCall

/-- **`StartLoader`.** -/
def StartLoader : ApplicationListener where
  isComponent := true
  onApplicationEvent
    | .refreshed false portTaken interrupted => some (.start portTaken interrupted)
    | _ => none

/-- **`StopListener`**, which no annotation makes a component. -/
def StopListener : ApplicationListener where
  isComponent := false
  onApplicationEvent
    | .stopped => some .shutdown
    | _ => none

/-- The calls that an event leads to. -/
def contextCalls (e : ContextEvent) : List ServerCall :=
  ([StartLoader, StopListener].filter ApplicationListener.isComponent).filterMap
    (fun listener => listener.onApplicationEvent e)

/-- The refresh of a context without a parent. -/
def ContextEvent.isRootRefresh : ContextEvent → Bool
  | .refreshed false _ _ => true
  | _ => false

/-- An event starts the server, or leads to no call. -/
theorem contextCalls_cases (e : ContextEvent) :
    (∃ p i, e.isRootRefresh = true ∧ contextCalls e = [.start p i])
      ∨ (e.isRootRefresh = false ∧ contextCalls e = []) := by
  cases e with
  | refreshed hasParent portTaken interrupted =>
    cases hasParent with
    | true => exact Or.inr ⟨rfl, rfl⟩
    | false => exact Or.inl ⟨portTaken, interrupted, rfl, rfl⟩
  | started => exact Or.inr ⟨rfl, rfl⟩
  | stopped => exact Or.inr ⟨rfl, rfl⟩
  | closed => exact Or.inr ⟨rfl, rfl⟩

/-- **No context shuts a group down**: whatever happens to the contexts of an application,
all the groups that were ever made are running, two for each refresh of a context
without a parent. -/
theorem context_shuts_down_nothing (es : List ContextEvent) :
    (NettyServer.machine.after .new (es.flatMap contextCalls)).running
      = List.range (2 * es.countP ContextEvent.isRootRefresh) := by
  suffices hboth : (NettyServer.machine.after .new (es.flatMap contextCalls)).running
        = List.range (2 * es.countP ContextEvent.isRootRefresh)
      ∧ (NettyServer.machine.after .new (es.flatMap contextCalls)).created
        = 2 * es.countP ContextEvent.isRootRefresh by
    exact hboth.1
  induction es using List.reverseRecOn with
  | nil => exact ⟨rfl, rfl⟩
  | append_singleton es e ih =>
    rw [List.flatMap_append, List.flatMap_singleton, List.countP_append, List.countP_singleton]
    obtain ⟨p, i, hroot, hcalls⟩ | ⟨hroot, hcalls⟩ := contextCalls_cases e
    · rw [hcalls, hroot, if_pos rfl, StepMachine.after_snoc, Nat.mul_add, List.range_succ,
        List.range_succ, ← ih.1, ← ih.2]
      generalize NettyServer.machine.after .new (es.flatMap contextCalls) = s
      show (s.start p i).2.running = _ ∧ (s.start p i).2.created = _
      rw [NettyServer.start_eq]
      exact ⟨by simp, rfl⟩
    · rw [hcalls, hroot, List.append_nil]
      exact ih
