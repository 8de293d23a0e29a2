import Chatroom.BroadcastLogouts

/-!
# A logout among other threads

Alone, a logout goes through exactly if its channel is linked. Among other threads
there is a second way for it to fail: it tells the users it found online one after
the other, and one of them may be gone when its turn comes. The exception then
leaves the logout in its first half, in which it only reads and writes frames. So
what a logout performs is still all or nothing (`logout_all_or_nothing`): it either
tells everybody it found and makes all its removals, or it makes no change at all –
and which of the two is told by what it was answered.

What its removals come to is another matter. It makes one from each list it met, so
that a user who is in a room twice stays there, and a list that took the place of
another meanwhile was not met.
-/

open AtomicSystem AtomicProgram ChatroomServerHandler RegistryOp

/-- The operations that change a registry. -/
def RegistryOp.ChangesRegistries : RegistryOp → Prop
  | user2ChannelCtxPut _ _ | user2ChannelCtxRemove _ | channelId2UserPut _ _
  | channelId2UserRemove _ | connectedChannelCtxAdd _ | connectedChannelCtxRemove _
  | roomStubMapPut _ _ | usersAdd _ _ | usersRemove _ _ => True
  | _ => False

/-- The other operations leave the registries as they are. -/
theorem RegistryOp.registries_exec {o : RegistryOp} (ho : ¬ o.ChangesRegistries)
    (s : ServerState) :
    (o.exec s).2.registries = s.registries := by
  cases o <;> first | rfl | exact absurd trivial ho

/-- **A whole logout**: it told everybody it found online but its user, and made the
removals of that user, of its context and of its channel, and one of the user from
each list that it met. -/
structure WholeLogout (ctx : ChannelHandlerContext) (d : CallDeeds) : Prop where
  exists_user : ∃ u keys values, ⟨channelId2UserGet ctx.channelId, some u⟩ ∈ d
    ∧ ⟨user2ChannelCtxKeySet, keys⟩ ∈ d
    ∧ (∀ v ∈ keys, v.id ≠ u.id → Served (offlineNotice u) d v)
    ∧ ⟨user2ChannelCtxRemove u, ()⟩ ∈ d ∧ ⟨channelId2UserRemove ctx.channelId, ()⟩ ∈ d
    ∧ ⟨roomStubMapValues, values⟩ ∈ d ∧ ∀ l ∈ values, ⟨usersRemove l u, ()⟩ ∈ d
  connected : ⟨connectedChannelCtxRemove ctx, ()⟩ ∈ d
  present : ¬ LooksUpMissing d

/-- **A logout that failed**: it has changed nothing, because its channel was not
linked, or it looked up a user who was gone. -/
structure FailedLogout (ctx : ChannelHandlerContext) (d : CallDeeds) : Prop where
  unchanged : ∀ x ∈ d, ¬ x.1.ChangesRegistries
  why : ⟨channelId2UserGet ctx.channelId, none⟩ ∈ d ∨ LooksUpMissing d

/-- What holds of a logout that is part of the way through the users it found. -/
structure TellsAt (u : User) (d₀ : CallDeeds) (pre : List User) (d : CallDeeds) : Prop where
  before : d₀ ⊆ d
  unchanged : ∀ x ∈ d, ¬ x.1.ChangesRegistries
  present : ¬ LooksUpMissing d
  served : ∀ v ∈ pre, v.id ≠ u.id → Served (offlineNotice u) d v

/-- What holds of a logout that is part of the way through the rooms. -/
structure RemovesAt (u : User) (d₀ : CallDeeds) (pre : List ListRef) (d : CallDeeds) : Prop where
  before : d₀ ⊆ d
  present : ¬ LooksUpMissing d
  removed : ∀ l ∈ pre, ⟨usersRemove l u, ()⟩ ∈ d

section Tells

variable {ctx : ChannelHandlerContext} {u v : User} {d₀ d : CallDeeds} {pre : List User}

theorem forall_unchanged_snoc {o : RegistryOp} {a : o.Answer} (ho : ¬ o.ChangesRegistries)
    (hd : ∀ x ∈ d, ¬ x.1.ChangesRegistries) : ∀ x ∈ d ++ [⟨o, a⟩], ¬ x.1.ChangesRegistries := by
  intro x hx
  obtain hx | hx := List.mem_append.mp hx
  · exact hd x hx
  · rw [List.mem_singleton.mp hx]
    exact ho

/-- **One user that was found online** is told, is passed over, or is gone. -/
theorem TellsAt.keeps_sendUnless (hd : TellsAt u d₀ pre d) :
    Keeps (fun _ _ => True) (FailedLogout ctx) (sendUnless u.id (offlineNotice u) v) d
      (fun _ => TellsAt u d₀ (pre ++ [v])) := by
  obtain ⟨hbefore, hunchanged, hpresent, hserved⟩ := hd
  rw [sendUnless]
  split
  · next hid =>
    refine ⟨hbefore, hunchanged, hpresent, fun w hw hne => ?_⟩
    obtain hw | hw := List.mem_append.mp hw
    · exact hserved w hw hne
    · rw [List.mem_singleton.mp hw] at hne
      exact absurd hid hne
  · refine keeps_bind (keeps_perform trivial) ?_
    rintro c d₁ rfl
    have hunchanged₁ := forall_unchanged_snoc (o := user2ChannelCtxGet v) (a := c) id hunchanged
    cases c with
    | none => exact ⟨hunchanged₁, Or.inr ⟨v, by simp⟩⟩
    | some c =>
      refine ⟨trivial, fun a => ?_⟩
      have hsub : d ⊆ d ++ [⟨user2ChannelCtxGet v, some c⟩]
          ++ [⟨writeAndFlush c (offlineNotice u), a⟩] := by
        rw [List.append_assoc]
        exact List.subset_append_left _ _
      refine ⟨List.Subset.trans hbefore hsub, forall_unchanged_snoc id hunchanged₁, ?_,
        fun w hw hne => ?_⟩
      · exact not_looksUpMissing_snoc (not_looksUpMissing_snoc hpresent (by simp)) (by simp)
      · obtain hw | hw := List.mem_append.mp hw
        · exact (hserved w hw hne).mono hsub
        · rw [List.mem_singleton.mp hw]
          exact ⟨c, by simp, by simp⟩

/-- The user is taken out of the lists that were met. -/
theorem keeps_removals {values : List ListRef} (hpresent : ¬ LooksUpMissing d) :
    Keeps (fun _ _ => True) (FailedLogout ctx)
      (forEach values (fun l => perform (usersRemove l u)) : HandlerProgram Unit) d
      (fun _ => RemovesAt u d values) := by
  refine keeps_forEach (RemovesAt u d) (fun pre l _ d₁ hd₁ => ?_)
    ⟨List.Subset.refl d, hpresent, by simp⟩
  obtain ⟨hbefore, hpresent₁, hremoved⟩ := hd₁
  refine ⟨trivial, fun a => ⟨?_, not_looksUpMissing_snoc hpresent₁ (by simp), fun l' hl' => ?_⟩⟩
  · exact List.Subset.trans hbefore (List.subset_append_left _ _)
  · obtain hl' | hl' := List.mem_append.mp hl'
    · exact List.mem_append_left _ (hremoved l' hl')
    · rw [List.mem_singleton.mp hl']
      simp

end Tells

/-- **A logout is whole, or has failed.** -/
theorem keeps_wholeLogout (ctx : ChannelHandlerContext) :
    Keeps (fun _ _ => True) (FailedLogout ctx) (handleLogout ctx) []
      (fun _ => WholeLogout ctx) := by
  refine keeps_bind (keeps_perform trivial) ?_
  rintro user d₁ rfl
  refine keeps_bind (keeps_perform trivial) ?_
  rintro keys d₂ rfl
  cases user with
  | none =>
    -- without a user the first key fails, and without a key the removal does
    have hfailed : FailedLogout ctx ([] ++ [⟨channelId2UserGet ctx.channelId, none⟩]
        ++ [⟨user2ChannelCtxKeySet, keys⟩]) :=
      ⟨by simp [ChangesRegistries], Or.inl (by simp)⟩
    cases keys with
    | nil => exact hfailed
    | cons v keys => exact hfailed
  | some u =>
    have hstart : TellsAt u ([] ++ [⟨channelId2UserGet ctx.channelId, some u⟩]
        ++ [⟨user2ChannelCtxKeySet, keys⟩]) [] ([] ++ [⟨channelId2UserGet ctx.channelId, some u⟩]
        ++ [⟨user2ChannelCtxKeySet, keys⟩]) := by
      refine ⟨List.Subset.refl _, by simp [ChangesRegistries], ?_, by simp⟩
      rintro ⟨v, hv⟩
      simp at hv
    refine keeps_bind (keeps_forEach _ (fun pre v _ d hd => hd.keeps_sendUnless) hstart) ?_
    rintro - d₃ ⟨hbefore, -, hpresent, hserved⟩
    rw [nonNull_some, bind_of_pure]
    refine keeps_bind (keeps_perform trivial) ?_
    rintro - d₄ rfl
    refine keeps_bind (keeps_perform trivial) ?_
    rintro - d₅ rfl
    refine keeps_bind (keeps_perform trivial) ?_
    rintro - d₆ rfl
    refine keeps_bind (keeps_perform trivial) ?_
    rintro values d₇ rfl
    refine keeps_weaken (keeps_removals ?_) ?_
    · exact not_looksUpMissing_snoc (not_looksUpMissing_snoc (not_looksUpMissing_snoc
        (not_looksUpMissing_snoc hpresent (by simp)) (by simp)) (by simp)) (by simp)
    · rintro - d₈ ⟨hbefore₈, hpresent₈, hremoved⟩
      have hsub : d₃ ⊆ d₈ := by
        refine List.Subset.trans ?_ hbefore₈
        simp only [List.append_assoc]
        exact List.subset_append_left _ _
      refine ⟨⟨u, keys, values, hsub (hbefore (by simp)), hsub (hbefore (by simp)),
        fun v hv hne => (hserved v hv hne).mono hsub, hbefore₈ (by simp), hbefore₈ (by simp),
        hbefore₈ (by simp), hremoved⟩, hbefore₈ (by simp), hpresent₈⟩

/-- **A logout is all or nothing** in what it performs, whatever the other threads do
between its operations, and however many logouts of its channel there are. When it is
over, it has either returned, after it told everybody it found online and made all its
removals; or it has thrown, and none of its operations changed a registry – because its
channel was not linked, or because it looked up a user who had gone. The operations are
those of this one call, as the trace of the run lists them; every run has a trace
(`Run.exists_tracedRun`). -/
theorem logout_all_or_nothing {db : UserTable} {s₀ s : ServerState} {h : History}
    {own : List (Thread RegistryOp.Answer Throwable Event × CallDeeds)} {e : Event}
    {p : HandlerProgram Unit} {d : CallDeeds} (run : (chatSystem db).TracedRun s₀ h own s)
    (he : e.IsLogout) (hp : (⟨e, p⟩, d) ∈ own) (hover : IsOver p) :
    (p = .ret () ∧ WholeLogout e.ctx d)
      ∨ ((∃ t, p = .raise t) ∧ FailedLogout e.ctx d
        ∧ ∀ x ∈ d, ∀ s, (x.1.exec s).2.registries = s.registries) := by
  have hprogram : handler db e = handleLogout e.ctx := by
    obtain ⟨ctx, rfl | rfl⟩ := he.eq_or_eq
    · rfl
    · rfl
  have hkeeps : Keeps (fun _ _ => True) (FailedLogout e.ctx) (handler db e) []
      (fun _ => WholeLogout e.ctx) := by
    rw [hprogram]
    exact keeps_wholeLogout e.ctx
  obtain ⟨hret, hwhole⟩ | ⟨hraise, hfailed⟩ := run.over_of_keeps hkeeps hp hover
  · exact Or.inl ⟨hret, hwhole⟩
  · exact Or.inr ⟨hraise, hfailed, fun x hx => registries_exec (hfailed.unchanged x hx)⟩

/-! ## A logout that meets another -/

/-- Two users are linked, and both go at once: the first has found the second online
when that one leaves. -/
def playTwoLogouts : Configuration RegistryOp.Answer Throwable Event ServerState :=
  play RegistryOp.exec (chatSystem sampleTable) [.channelInactive ⟨1⟩, .channelInactive ⟨2⟩]
    (List.replicate 2 1 ++ List.replicate 9 0 ++ [1]) twoInRoom

/-- The first logout fails, and its session stays. -/
theorem logout_all_or_nothing_twoLogouts :
    FailedLogout ⟨1⟩ (ownOps (.channelInactive ⟨1⟩) playTwoLogouts.1) := by
  have run : (chatSystem sampleTable).Run twoInRoom playTwoLogouts.1 playTwoLogouts.2.1
      playTwoLogouts.2.2 := run_play (fun _ _ => Or.inr rfl) _ _ _
  have hbegins : begins playTwoLogouts.1 = [.channelInactive ⟨1⟩, .channelInactive ⟨2⟩] := rfl
  have hts : playTwoLogouts.2.1 = [⟨.channelInactive ⟨2⟩, .ret ()⟩,
      ⟨.channelInactive ⟨1⟩, .raise .nullPointerException⟩] := rfl
  obtain ⟨own, hown, traced⟩ := run.exists_tracedRun
  have hfirst : ⟨.channelInactive ⟨1⟩, .raise .nullPointerException⟩ ∈ own.map Prod.fst := by
    simp [hown, hts]
  obtain ⟨⟨th, d⟩, hd, rfl⟩ := List.mem_map.mp hfirst
  rw [← (traced.subset_ownOps hd).2 (by rw [hbegins]; decide)]
  obtain ⟨hret, -⟩ | ⟨-, hfailed, -⟩ := logout_all_or_nothing (e := .channelInactive ⟨1⟩)
    (p := .raise .nullPointerException) traced trivial hd trivial
  · exact absurd hret (by simp)
  · exact hfailed
