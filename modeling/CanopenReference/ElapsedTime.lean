import CanopenReference.TimedLoop

/-!
# The elapsed time handed to the stack

The timed main loop, program by program, with the tick taken over last beside
the time that is counted from. A pass hands over the difference of two ticks,
which is the difference of their times unless a recovery has taken over a tick
later than the one its pass had sampled.
-/

set_option autoImplicit false

namespace CanopenReference.ElapsedTime
open Library.Runs Library.Statements Library.Watched BusOff Diagnostics UdsStm32 MainLoop

section Reset
variable (F : Phase) {s : App × Watch} {past : List (Watch × AppEvent)}

theorem replace_stack (stack : CoStack) (h : F.present.Holds s past) :
    F.present.Holds ({ s.1 with co := some stack },s.2) past := by
  intro hp
  obtain ⟨hexact,hn,hco,hF⟩ := h hp
  exact ⟨hexact,hn,rfl,F.onward s _ (onward_same s.2 ⟨rfl,rfl,hco.symm⟩) hF⟩

theorem present_holds (h : F.present.Holds s past) : F.Holds s past :=
  @holds_mono F.present F (fun _ hs => hs.2) s past h

theorem holds_present (h : F.Holds s past) (hco : s.1.co.isSome = true) :
    F.present.Holds s past := by
  intro hp
  obtain ⟨hexact,hn,hF⟩ := h hp
  exact ⟨hexact,hn,hco,hF⟩

theorem stop_outline (h : F.Holds s past) : Timed stopRuntime (fun _ => F.Holds) s past := by
  unfold stopRuntime Platform.stopRuntime
  apply calm_then F (calm_report ⟨by decide,by decide,rfl⟩) h
  intro _ s past h
  apply calm_then F (calm_fetch _) h
  intro nodePresent s past h
  apply when_then F h
  · exact fun s past h => timed_calm F (calm_report ⟨by decide,by decide,rfl⟩) h
  intro s past h
  apply fetch_then F h
  intro s past h
  apply timed_ite
  · intro hco
    apply assign_then F.present (holds_present F h hco)
    intro s past h
    have hr := present_holds F (replace_stack F ⟨false⟩ h)
    exact timed_calm F (calm_report ⟨by decide,by decide,rfl⟩) hr
  · exact fun _ => h

theorem fail_outline (code : UInt32) (h : F.Holds s past) :
    Timed (failRuntime code) (fun result s past => result = -code.toInt32 ∧ F.Holds s past)
      s past := by
  unfold failRuntime Platform.failRuntime
  refine calm_then F (calm_assign fun _ => ⟨rfl,rfl,rfl⟩) h ?_
  intro _ s past h
  apply calm_then F (calm_fetch _) h
  intro _ s past h
  apply calm_then F (calm_state _) h
  intro _ s past h
  apply calm_then F (calm_report ⟨by simp,by simp,rfl⟩) h
  intro _ s past h
  apply timed_bind
  apply outline_mono _ (stop_outline F h)
  exact fun _ s past h => ⟨rfl,h⟩

theorem guard_then {code : UInt32} {k : AppProgram Int32}
    {post : Int32 → App × Watch → List (Watch × AppEvent) → Prop} (hcode : -code.toInt32 ≠ 0)
    (h : F.Holds s past)
    (hpost : ∀ result s past, result ≠ 0 → F.Holds s past → post result s past)
    (hk : ∀ s past, F.Holds s past → Timed k post s past) :
    Timed (ask Answer.ok >>= fun ok => if (!ok) = true then failRuntime code else k) post s past := by
  apply calm_then F (calm_ask _) h
  intro ok s past h
  apply timed_ite
  · intro _
    apply outline_mono _ (fail_outline F code h)
    rintro result s past ⟨rfl,h⟩
    exact hpost _ s past hcode h
  · exact fun _ => hk s past h

def TakesOver (F G : Phase) : Prop :=
  ∀ a g i, F.holds (a,g) → g.normal = true →
    (a.recoveryAttemptActive = true →
      UInt32.ofNat (g.time+i.delay) = UInt32.ofNat g.sampled) →
    G.holds ({ a with lastTick := UInt32.ofNat (g.time+i.delay) },noted g i a [])

theorem running_outline {F G : Phase} (hdone : TakesOver F G) (h : (F.during true).holds s past) :
    Timed enterRunning (fun result s past => result = 0 ∧ G.Holds s past) s past := by
  unfold enterRunning
  apply perform_then (F.during true) h
  intro s past i hs
  have hg : G.Holds ({ s.1 with lastTick := UInt32.ofNat (s.2.time+i.delay) },
      noted s.2 i s.1 []) (past++[]) := by
    intro hp
    obtain ⟨hexact,hn,hF⟩ := hs (noted_punctual hp)
    rw [List.append_nil]
    refine ⟨hexact,rfl,hdone s.1 s.2 i hF hn fun ha => ?_⟩
    simpa [noted,hn,ha,noted_punctual hp] using hp
  refine calm_then G (calm_assign fun _ => ⟨rfl,rfl,rfl⟩) hg ?_
  intro _ s past h
  refine calm_then G (calm_assign fun _ => ⟨rfl,rfl,rfl⟩) h ?_
  intro _ s past h
  apply calm_then G (calm_state _) h
  intro _ s past h
  exact ⟨rfl,h⟩

theorem normal_mode {i : Moment} (h : F.present.Holds s past) :
    let next := watched clock (fun a i => ({ a with co := some ⟨i.ok⟩ },[.canNormalMode])) s i
    (F.during true).holds next.1 (past++next.2) := by
  intro next hp
  obtain ⟨hexact,hn,hco,hF⟩ := h (noted_punctual hp)
  refine ⟨?_,by rfl,?_⟩
  · intro e he
    rcases List.mem_append.mp he with he | he
    · exact hexact e he
    · rw [List.mem_singleton.mp he]
      trivial
  · refine F.onward s _ ⟨⟨rfl,rfl,hco.symm⟩,Nat.le_add_right _ _,Nat.le_succ _,?_,?_⟩ hF
    · intro hs
      simp [next,watched,clock,noted,hs]
    · simp [next,watched,clock,noted,hn,processes]

theorem reset_outline {F G : Phase} (hdone : TakesOver F G) (h : F.Holds s past) :
    Timed canopenAppResetCommunication (fun result s past =>
      result ≠ 0 ∧ F.Holds s past ∨ result = 0 ∧ G.Holds s past) s past := by
  have hpost : ∀ (result : Int32) s past, result ≠ 0 → F.present.Holds s past →
      result ≠ 0 ∧ F.Holds s past ∨ result = 0 ∧ G.Holds s past :=
    fun result s past hr h => Or.inl ⟨hr,present_holds F h⟩
  have hfail : ∀ (code : UInt32) s past, -code.toInt32 ≠ 0 → F.present.Holds s past →
      Timed (failRuntime code) (fun result s past =>
        result ≠ 0 ∧ F.Holds s past ∨ result = 0 ∧ G.Holds s past) s past := by
    intro code s past hcode h
    apply outline_mono _ (fail_outline F.present code h)
    rintro result s past ⟨rfl,h⟩
    exact hpost _ s past hcode h
  unfold canopenAppResetCommunication Platform.canopenAppResetCommunication
  apply calm_then F (calm_report ⟨by decide,by decide,rfl⟩) h
  intro _ s past h
  apply fetch_then F h
  intro s past h
  apply timed_ite
  · intro _
    apply calm_then F (calm_state _) h
    intro _ s past h
    exact Or.inl ⟨by decide,h⟩
  intro hmissing
  have hco : s.1.co.isSome = true := by
    simp only [Bool.or_eq_true,not_or] at hmissing
    simpa [Option.isSome_iff_ne_none] using hmissing.1
  replace h := holds_present F h hco
  apply calm_then F.present (calm_state _) h
  intro _ s past h
  apply calm_then F.present (calm_report ⟨by decide,by decide,rfl⟩) h
  intro _ s past h
  apply assign_then F.present h
  intro s past h
  replace h := replace_stack F ⟨false⟩ h
  apply calm_then F.present (calm_report ⟨by decide,by decide,rfl⟩) h
  intro _ s past h
  refine guard_then F.present (by decide) h hpost fun s past h => ?_
  refine guard_then F.present (by decide) h hpost fun s past h => ?_
  refine guard_then F.present (by decide) h hpost fun s past h => ?_
  refine guard_then F.present (by decide) h hpost fun s past h => ?_
  refine guard_then F.present (by decide) h hpost fun s past h => ?_
  refine guard_then F.present (by decide) h hpost fun s past h => ?_
  refine guard_then F.present (by decide) h hpost fun s past h => ?_
  apply calm_then F.present (calm_ask _) h
  intro udsTick s past h
  apply calm_then F.present (calm_ask _) h
  intro registered s past h
  refine calm_then F.present (calm_assign fun _ => ⟨rfl,rfl,rfl⟩) h ?_
  intro _ s past h
  apply timed_ite
  · exact fun _ => hfail _ s past (by decide) h
  intro _
  refine calm_then F.present trivial h fun _ s past h => ?_
  apply calm_then F.present (calm_ask _) h
  intro timer s past h
  apply timed_ite
  · intro _
    apply calm_then F.present (calm_report ⟨by decide,by decide,rfl⟩) h
    exact fun _ s past h => hfail _ s past (by decide) h
  intro _
  apply calm_then F.present (calm_report ⟨by decide,by decide,rfl⟩) h
  intro _ s past h
  apply perform_then F.present.assertion h
  intro s past i hs
  apply outline_mono _ (running_outline hdone (normal_mode F hs))
  exact fun result s past h => Or.inr h

end Reset

def Counts (s : App × Watch) : Prop :=
  s.1.lastTick = UInt32.ofNat s.2.since ∧ s.2.since ≤ s.2.time

theorem counts_onward (s s' : App × Watch) (h : Onward s s') (hc : Counts s) : Counts s' :=
  ⟨by rw [h.same.lastTick,h.since,hc.1],by rw [h.since]; exact Nat.le_trans hc.2 h.time⟩

def free : Phase := ⟨fun _ => True,fun _ _ _ h => h⟩

def counting : Phase := ⟨Counts,counts_onward⟩

def resting : Phase where
  holds s := s.1.co.isSome = true → Counts s
  onward s s' h hs hco := counts_onward s s' h (hs (h.same.co.symm.trans hco))

def absent : Phase where
  holds s := s.1.co.isSome = false
  onward _ _ h hs := h.same.co.trans hs

/-- The pass has sampled the tick `now`. -/
def sampledAt (now : UInt32) : Phase where
  holds s := 1 < s.2.place ∧ now = UInt32.ofNat s.2.sampled ∧
    s.1.lastTick = UInt32.ofNat s.2.since ∧ s.2.since ≤ s.2.sampled ∧ s.2.sampled ≤ s.2.time
  onward s s' h hs := by
    obtain ⟨hplace,hnow,hlast,hsince,htime⟩ := hs
    rw [h.sampled (by omega),h.same.lastTick,h.since]
    exact ⟨Nat.lt_of_lt_of_le hplace h.place,hnow,hlast,hsince,Nat.le_trans htime h.time⟩

def attempting (now : UInt32) : Phase where
  holds s := s.1.recoveryAttemptActive = true ∧ (sampledAt now).holds s
  onward s s' h hs := ⟨h.same.active.trans hs.1,(sampledAt now).onward s s' h hs.2⟩

def recovered (now : UInt32) : Phase where
  holds s := (sampledAt now).holds s ∨ s.1.lastTick = now ∧ Counts s
  onward s s' h hs := by
    rcases hs with hs | ⟨hlast,hc⟩
    · exact Or.inl ((sampledAt now).onward s s' h hs)
    · exact Or.inr ⟨h.same.lastTick.trans hlast,counts_onward s s' h hc⟩

theorem counts_taken {a : App} {g : Watch} (i : Moment) (hn : g.normal = true) :
    Counts ({ a with lastTick := UInt32.ofNat (g.time+i.delay) },noted g i a []) := by
  constructor
  · show UInt32.ofNat (g.time+i.delay) = UInt32.ofNat (noted g i a []).since
    simp [noted,hn]
  · simp [noted,hn]

theorem free_counting : TakesOver free counting :=
  fun _ _ i _ hn _ => counts_taken i hn

theorem attempting_recovered (now : UInt32) : TakesOver (attempting now) (recovered now) := by
  intro a g i hF hn hpunctual
  right
  refine ⟨?_,counts_taken i hn⟩
  show UInt32.ofNat (g.time+i.delay) = now
  rw [hpunctual hF.1]
  exact hF.2.2.1.symm

section Process
variable {s : App × Watch} {past : List (Watch × AppEvent)}

theorem recovery_outline (now : UInt32) (h : (sampledAt now).Holds s past) :
    Timed (processCanRecovery now) (fun _ => (recovered now).Holds) s past := by
  have hkept : ∀ s past, (sampledAt now).Holds s past → (recovered now).Holds s past :=
    fun s past h => @holds_mono (sampledAt now) (recovered now) (fun _ hs => Or.inl hs) s past h
  unfold processCanRecovery Platform.processCanRecovery
  apply calm_then _ (calm_fetch _) h
  intro pending s past h
  apply when_then _ h
  · intro s past h
    refine calm_then _ (calm_assign fun _ => ⟨rfl,rfl,rfl⟩) h ?_
    intro _ s past h
    exact timed_calm _ (calm_assign fun _ => ⟨rfl,rfl,rfl⟩) h
  intro s past h
  apply calm_then _ (calm_fetch _) h
  intro ready s past h
  apply timed_ite
  · exact fun _ => hkept s past h
  intro _
  apply assign_then _ h
  intro s past h
  have ha : (attempting now).Holds ({ s.1 with recoveryAttemptActive := true },s.2) past := by
    intro hp
    obtain ⟨hexact,hn,hs⟩ := h hp
    exact ⟨hexact,hn,rfl,hs⟩
  apply timed_bind
  apply outline_mono _ (reset_outline (attempting_recovered now) ha)
  intro result s past h
  have hr : (recovered now).Holds s past := by
    rcases h with ⟨_,h⟩ | ⟨_,h⟩
    · exact @holds_mono (attempting now) (recovered now) (fun _ hs => Or.inl hs.2) s past h
    · exact h
  apply assign_then _ hr
  intro s past h
  replace h : (recovered now).Holds ({ s.1 with recoveryAttemptActive := false },s.2) past := h
  apply calm_then _ (calm_report ⟨by simp,by simp,rfl⟩) h
  intro _ s past h
  refine calm_then _ (calm_assign fun _ => ⟨rfl,rfl,rfl⟩) h ?_
  intro _ s past h
  apply timed_ite
  · exact fun _ => h
  intro _
  apply calm_then _ (calm_fetch _) h
  intro state s past h
  apply timed_ite
  · intro _
    apply timed_bind
    apply outline_mono _ (fail_outline _ _ h)
    exact fun _ s past h => h.2
  · exact fun _ => h

theorem perform_last {f : App → Answer → App} {e : App → Answer → List AppEvent} (F : Phase)
    {post : Unit → App × Watch → List (Watch × AppEvent) → Prop} (h : F.Holds s past)
    (hk : ∀ s past i, F.Holds s past →
      post () (watched clock (fun a i => (f a i,e a i)) s i).1
        (past++(watched clock (fun a i => (f a i,e a i)) s i).2)) :
    Timed (perform f e : AppProgram Unit) post s past :=
  ⟨F.assertion,h,hk⟩

theorem mcu_reset_outline (F : Phase) (h : F.Holds s past) :
    Timed nvicSystemReset (fun _ => resting.Holds) s past := by
  apply perform_last F h
  intro s past i hs hp
  obtain ⟨hexact,_⟩ := hs (noted_punctual hp)
  refine ⟨?_,by rfl,fun hco => ?_⟩
  · intro e he
    rcases List.mem_append.mp he with he | he
    · exact hexact e he
    · rw [List.mem_singleton.mp he]
      trivial
  · cases hco

theorem absent_resting (h : absent.Holds s past) : resting.Holds s past :=
  @holds_mono absent resting (fun _ hs hco => absurd (hs.symm.trans hco) (by simp)) s past h

theorem counting_resting (h : counting.Holds s past) : resting.Holds s past :=
  @holds_mono counting resting (fun _ hs _ => hs) s past h

theorem remove_stack (F : Phase) (h : F.Holds s past) :
    absent.Holds ({ s.1 with co := none },s.2) past := by
  intro hp
  obtain ⟨hexact,hn,_⟩ := h hp
  exact ⟨hexact,hn,rfl⟩

theorem init_outline (h : free.Holds s past) :
    Timed (canopenAppInit true) (fun result s past =>
      result = 0 ∧ counting.Holds s past ∨ absent.Holds s past) s past := by
  unfold canopenAppInit Platform.canopenAppInit
  apply timed_ite
  · exact fun hc => absurd hc (by decide)
  intro _
  refine calm_then free (calm_assign fun _ => ⟨rfl,rfl,rfl⟩) h ?_
  intro _ s past h
  apply calm_then free (calm_state _) h
  intro _ s past h
  refine calm_then free (calm_assign fun _ => ⟨rfl,rfl,rfl⟩) h ?_
  intro _ s past h
  refine calm_then free (calm_assign fun _ => ⟨rfl,rfl,rfl⟩) h ?_
  intro _ s past h
  apply assign_then free h
  intro s past h
  replace h : free.Holds ({ s.1 with recoveryAttemptActive := false },s.2) past := h
  refine calm_then free (calm_assign fun _ => ⟨rfl,rfl,rfl⟩) h ?_
  intro _ s past h
  apply calm_then free (calm_report ⟨by decide,by decide,rfl⟩) h
  intro _ s past h
  apply calm_then free (calm_ask _) h
  intro created s past h
  apply assign_then free h
  intro s past h
  apply timed_ite
  · intro hcreated
    have ha : absent.Holds ({ s.1 with co := if created then some ⟨false⟩ else none },s.2) past := by
      obtain rfl : created = false := by simpa using hcreated
      exact remove_stack free h
    apply calm_then absent (calm_report ⟨by decide,by decide,rfl⟩) ha
    exact fun _ s past h => Or.inr h
  intro _
  replace h : free.Holds ({ s.1 with co := if created then some ⟨false⟩ else none },s.2) past := h
  apply timed_bind
  apply outline_mono _ (reset_outline free_counting h)
  intro result s past h
  apply timed_ite
  · intro hfailed
    have hf : free.Holds s past := by
      rcases h with ⟨_,h⟩ | ⟨h0,_⟩
      · exact h
      · exact absurd h0 hfailed
    apply timed_bind
    apply outline_mono _ (fail_outline free _ hf)
    rintro _ s past ⟨_,h⟩
    apply calm_then free (calm_report ⟨by decide,by decide,rfl⟩) h
    intro _ s past h
    apply assign_then free h
    exact fun s past h => Or.inr (remove_stack free h)
  · intro hdone
    rcases h with ⟨hr,_⟩ | ⟨_,h⟩
    · exact absurd hr hdone
    · exact Or.inl ⟨rfl,h⟩

theorem pass_outline (now : UInt32) (h : counting.Holds s past) :
    Timed (canopenAppPass now) (fun _ => resting.Holds) s past := by
  unfold canopenAppPass Platform.canopenAppPass
  apply calm_then counting (calm_ask _) h
  intro command s past h
  refine calm_then counting (framed_perform (fun _ _ => ⟨rfl,rfl,rfl⟩) fun _ _ e he => ?_) h ?_
  · rw [List.mem_singleton.mp he]
    exact ⟨by simp,by simp,rfl⟩
  intro _ s past h
  apply calm_then counting (calm_fetch _) h
  intro resetPending s past h
  apply timed_ite
  · intro _
    refine calm_then counting (calm_assign fun _ => ⟨rfl,rfl,rfl⟩) h ?_
    intro _ s past h
    apply calm_then counting (calm_report ⟨by decide,by decide,rfl⟩) h
    exact fun _ s past h => mcu_reset_outline counting h
  intro _
  apply timed_ite
  · intro _
    apply calm_then counting (calm_state _) h
    intro _ s past h
    apply calm_then counting (calm_report ⟨by decide,by decide,rfl⟩) h
    intro _ s past h
    apply assign_then counting h
    intro s past h
    have hf := @holds_mono absent free (fun _ _ => trivial) _ _ (remove_stack counting h)
    apply timed_bind
    apply outline_mono _ (init_outline hf)
    intro result s past h
    apply timed_ite
    · intro hfailed
      have ha : absent.Holds s past := by
        rcases h with ⟨h0,_⟩ | h
        · simp [h0] at hfailed
        · exact h
      apply timed_bind
      apply outline_mono _ (fail_outline absent _ ha)
      exact fun _ s past h => absent_resting h.2
    · intro _
      rcases h with ⟨_,h⟩ | h
      · exact counting_resting h
      · exact absent_resting h
  intro _
  apply timed_ite
  · intro _
    apply calm_then counting (calm_report ⟨by decide,by decide,rfl⟩) h
    exact fun _ s past h => mcu_reset_outline counting h
  · exact fun _ => counting_resting h

theorem difference_exact {since sampled : ℕ} (h : since ≤ sampled) :
    ((UInt32.ofNat sampled-UInt32.ofNat since)*1000).toNat ≤ 1000*(sampled-since) ∧
      (1000*(sampled-since) < 2^32 →
        ((UInt32.ofNat sampled-UInt32.ofNat since)*1000).toNat = 1000*(sampled-since)) := by
  have hsub : (UInt32.ofNat sampled-UInt32.ofNat since).toNat = (sampled-since)%2^32 := by
    rw [UInt32.toNat_sub,UInt32.toNat_ofNat',UInt32.toNat_ofNat']
    omega
  have hus : ((UInt32.ofNat sampled-UInt32.ofNat since)*1000).toNat =
      1000*(sampled-since)%2^32 := by
    rw [UInt32.toNat_mul,hsub,Nat.mod_mul_mod,Nat.mul_comm]
    rfl
  rw [hus]
  exact ⟨Nat.mod_le _ _,Nat.mod_eq_of_lt⟩

/-- The pass has taken over the sampled tick `now` after `lastTick`. -/
def due (now lastTick : UInt32) : Phase where
  holds s := 1 < s.2.place ∧ now = UInt32.ofNat s.2.sampled ∧ s.1.lastTick = now ∧
    lastTick = UInt32.ofNat s.2.since ∧ s.2.since ≤ s.2.sampled ∧ s.2.sampled ≤ s.2.time
  onward s s' h hs := by
    obtain ⟨hplace,hnow,htaken,hlast,hsince,htime⟩ := hs
    rw [h.sampled (by omega),h.same.lastTick,h.since]
    exact ⟨Nat.lt_of_lt_of_le hplace h.place,hnow,htaken,hlast,hsince,Nat.le_trans htime h.time⟩

/-- The tick taken over last, as the pass has read it. -/
def readAs (now lastTick : UInt32) : Phase where
  holds s := s.1.lastTick = lastTick ∧ (sampledAt now).holds s
  onward s s' h hs := ⟨h.same.lastTick.trans hs.1,(sampledAt now).onward s s' h hs.2⟩

theorem report_then {e : AppEvent} {k : Unit → AppProgram Unit} (F : Phase)
    {post : Unit → App × Watch → List (Watch × AppEvent) → Prop} (h : F.Holds s past)
    (hk : ∀ s past i, F.Holds s past →
      Timed (k ()) post (s.1,noted s.2 i s.1 [e]) (past++[(s.2,e)])) :
    Timed (report e >>= k) post s past :=
  ⟨F.assertion,h,hk⟩

theorem stack_outline (now lastTick : UInt32) (h : (readAs now lastTick).Holds s past) :
    Timed (do
      assign fun a => { a with lastTick := now }
      report (.coProcess ((now-lastTick)*1000))
      canopenAppPass now) (fun _ => resting.Holds) s past := by
  apply assign_then _ h
  intro s past h
  have hd : (due now lastTick).Holds ({ s.1 with lastTick := now },s.2) past := by
    intro hp
    obtain ⟨hexact,hn,hlast,hplace,hnow,hsince,hle,htime⟩ := h hp
    exact ⟨hexact,hn,hplace,hnow,rfl,hlast.symm.trans hsince,hle,htime⟩
  apply report_then _ hd
  intro s past i hs
  apply pass_outline
  intro hp
  obtain ⟨hexact,hn,_,hnow,htaken,hlast,hle,htime⟩ := hs (noted_punctual hp)
  refine ⟨?_,by rfl,?_,?_⟩
  · intro e he
    rcases List.mem_append.mp he with he | he
    · exact hexact e he
    · rw [List.mem_singleton.mp he,hnow,hlast]
      exact ⟨hle,difference_exact hle⟩
  · show s.1.lastTick = UInt32.ofNat (noted s.2 i s.1 [_]).since
    rw [htaken,hnow]
    simp [noted,hn,processes]
  · show (noted s.2 i s.1 [_]).since ≤ (noted s.2 i s.1 [_]).time
    simp only [noted,hn,List.any_cons,processes]
    exact Nat.le_trans htime (Nat.le_add_right _ _)

def sampling : Assertion (@watchHandler App AppEvent Watch Interrupt appHandler) :=
  still (fun s => s.2.normal = false ∧ s.2.place = 1 ∧ Counts s) fun _ _ g hs h =>
    ⟨h.1,h.2.1,counts_onward _ _ (onward_same g hs) h.2.2⟩

theorem ask_tick_then (A : Assertion (@watchHandler App AppEvent Watch Interrupt appHandler))
    {k : UInt32 → AppProgram Unit}
    {post : Unit → App × Watch → List (Watch × AppEvent) → Prop} (h : A.holds s past)
    (hk : ∀ s past i, A.holds s past →
      Timed (k (UInt32.ofNat (s.2.time+i.delay))) post (s.1,noted s.2 i s.1 []) (past++[])) :
    Timed (ask Answer.tick >>= k) post s past :=
  ⟨A,h,hk⟩

theorem sampled_outline (h : sampling.holds s past) :
    Timed (do
      let now ← ask Answer.tick
      processCanRecovery now
      let lastTick ← fetch App.lastTick
      if now = lastTick then return
      assign fun a => { a with lastTick := now }
      report (.coProcess ((now-lastTick)*1000))
      canopenAppPass now) (fun _ => resting.Holds) s past := by
  apply ask_tick_then sampling h
  intro s past i hs
  generalize hnow : UInt32.ofNat (s.2.time+i.delay) = now
  have hsampled : (sampledAt now).Holds (s.1,noted s.2 i s.1 []) (past++[]) := by
    intro hp
    obtain ⟨hexact,hn,hplace,hlast,hsince⟩ := hs (noted_punctual hp)
    rw [List.append_nil]
    refine ⟨hexact,rfl,?_,?_,?_,?_,?_⟩
    · simp [noted,hplace]
    · simp [noted,hplace,hnow]
    · simpa [noted,hn] using hlast
    · simp [noted,hplace,hn]
      omega
    · simp [noted,hplace]
  apply timed_bind
  apply outline_mono _ (recovery_outline now hsampled)
  intro _ s past h
  apply fetch_then _ h
  intro s past h
  apply timed_ite
  · intro _
    refine @holds_mono (recovered now) resting (fun s hs _ => ?_) s past h
    rcases hs with ⟨_,_,hlast,hle,htime⟩ | ⟨_,hc⟩
    · exact ⟨hlast,Nat.le_trans hle htime⟩
    · exact hc
  · intro hnew
    apply stack_outline
    intro hp
    obtain ⟨hexact,hn,hs⟩ := h hp
    rcases hs with hs | ⟨htaken,_⟩
    · exact ⟨hexact,hn,rfl,hs⟩
    · exact absurd htaken.symm hnew

theorem process_outline (h : resting.Holds s past) :
    Outline (@watchHandler App AppEvent Watch Interrupt appHandler)
      (watchCall clock canopenAppProcess) (fun _ => resting.Holds) s past := by
  refine ⟨resting.assertion,h,fun s past i hs => ?_⟩
  have hnext : Sound (fun s => s.2.normal = false ∧ s.2.place = 1 ∧ resting.holds s)
      (s.1,noted (clock.enter s.2) i s.1 []) (past++[]) := by
    intro hp
    have hbefore : (clock.enter s.2).punctual = true := noted_punctual hp
    obtain ⟨hexact,hn,hrest⟩ := hs hbefore
    rw [List.append_nil]
    refine ⟨hexact,rfl,rfl,?_⟩
    exact resting.onward (s.1,clock.enter s.2) _ (noted_onward i (same_refl s.1) hn) hrest
  show Timed (if (s.1.co.isNone || !s.1.nodePresent || s.1.safeFault) = true then _ else _) _
    (s.1,noted (clock.enter s.2) i s.1 []) _
  apply timed_ite
  · intro _ hp
    obtain ⟨hexact,hn,_,hrest⟩ := hnext hp
    exact ⟨hexact,hn,hrest⟩
  · intro hstopped
    have hco : s.1.co.isSome = true := by
      simp only [Bool.or_eq_true,not_or] at hstopped
      simpa [Option.isSome_iff_ne_none] using hstopped.1.1
    apply sampled_outline
    intro hp
    obtain ⟨hexact,hn,hplace,hrest⟩ := hnext hp
    exact ⟨hexact,hn,hplace,hrest hco⟩

theorem entry_outline (entry : Entry) (h : resting.Holds s past) :
    Outline (@watchHandler App AppEvent Watch Interrupt appHandler)
      (watchCall clock (appEntry entry)) (fun _ => resting.Holds) s past := by
  cases entry with
  | init complete =>
    refine ⟨resting.assertion,h,fun s past i hs => ?_⟩
    have hnext : resting.Holds (s.1,noted (clock.enter s.2) i s.1 [.appInit])
        (past++[(clock.enter s.2,.appInit)]) := by
      intro hp
      have hbefore : (clock.enter s.2).punctual = true := noted_punctual hp
      obtain ⟨hexact,hn,hrest⟩ := hs hbefore
      refine ⟨?_,by rfl,?_⟩
      · intro e he
        rcases List.mem_append.mp he with he | he
        · exact hexact e he
        · rw [List.mem_singleton.mp he]
          trivial
      · refine resting.onward (s.1,clock.enter s.2) _ ?_ hrest
        rw [noted_mild (clock.enter s.2) i s.1 (by simp [Mild,processes])]
        exact noted_onward i (same_refl s.1) hn
    show Timed (canopenAppInit complete >>= fun _ => pure ()) _
      (s.1,noted (clock.enter s.2) i s.1 [.appInit]) _
    apply timed_bind
    cases complete with
    | false => exact hnext
    | true =>
      apply outline_mono _ (init_outline (@holds_mono resting free (fun _ _ => trivial) _ _ hnext))
      intro result s past h
      rcases h with ⟨_,h⟩ | h
      · exact counting_resting h
      · exact absent_resting h
  | process => exact process_outline h

end Process

theorem turn_punctual {w : Machine (App × Watch) Moment (Watch × AppEvent)}
    {m : Machine App Answer AppEvent} (h : Beside clock m w) (hp : w.state.2.punctual = true)
    (t : Turn Entry Moment Interrupt) (ht : Punctual w t) :
    (timedTurn w t).1.state.2.punctual = true := by
  have hnoted : ∀ (g : Watch) (i : Moment) (a : App) (events : List AppEvent),
      g.punctual = true → (g.normal = true → a.recoveryAttemptActive = true →
        UInt32.ofNat (g.time+i.delay) = UInt32.ofNat g.sampled) →
      (noted g i a events).punctual = true := by
    intro g i a events hg hpunctual
    by_cases hn : g.normal = true
    · by_cases ha : a.recoveryAttemptActive = true
      · simp [noted,hg,hpunctual hn ha]
      · simp [noted,hg,ha]
    · simp [noted,hg,hn]
  cases t with
  | enter k => cases h <;> exact hp
  | statement i =>
    cases h with
    | idle s g => exact hp
    | within s g effect next => exact hnoted g i s _ hp ht
    | called s g effect next => exact hnoted _ i s _ hp ht
  | interrupt cause => cases h <;> exact hp

theorem run_punctual {w : Machine (App × Watch) Moment (Watch × AppEvent)}
    {m : Machine App Answer AppEvent} (h : Beside clock m w) (hp : w.state.2.punctual = true)
    (turns : List (Turn Entry Moment Interrupt)) (ht : Along timedTurn Punctual w turns) :
    (run timedTurn w turns).1.state.2.punctual = true := by
  refine (along_invariant timedTurn Punctual
    (fun w => (∃ m, Beside clock m w) ∧ w.state.2.punctual = true) ?_ w turns ⟨⟨m,h⟩,hp⟩ ht).2
  rintro w t ⟨⟨m,hm⟩,hp⟩ ht
  obtain ⟨_,hnext,_⟩ := beside_turn clock appEntry appHandler hm t
  exact ⟨⟨_,hnext⟩,turn_punctual hm hp t ht⟩

theorem punctual_answer (w : Machine (App × Watch) Moment (Watch × AppEvent)) :
    ∃ i, Punctual w (.statement i) := by
  refine ⟨⟨w.state.2.sampled+(2^32-1)*w.state.2.time,true,.resetNot,[]⟩,fun _ _ => ?_⟩
  apply UInt32.toNat_inj.mp
  rw [UInt32.toNat_ofNat',UInt32.toNat_ofNat']
  show (w.state.2.time+(w.state.2.sampled+(2^32-1)*w.state.2.time))%2^32 = _
  omega

theorem idle_exact (turns : List (Turn Entry Moment Interrupt))
    (ht : Along timedTurn Punctual timedPowerOn turns)
    (hidle : (run timedTurn timedPowerOn turns).1.current = none) :
    ∀ e ∈ (run timedTurn timedPowerOn turns).2, Exact e := by
  have hstart : resting.assertion.holds timedPowerOn.state [] :=
    fun _ => ⟨by simp,rfl,fun hco => by cases hco⟩
  have hp : Placed resting.assertion (run timedTurn timedPowerOn turns).1
      (run timedTurn timedPowerOn turns).2 :=
    run_placed (fun k => watchCall clock (appEntry k)) resting.assertion
      (fun k _ _ h => entry_outline k h) timedPowerOn.state turns hstart
  unfold Placed at hp
  rw [hidle] at hp
  exact (hp (run_punctual (.idle powerOn _) rfl turns ht)).1

/-- In a run whose recoveries take over the tick that their pass has sampled,
every difference handed to the stack is the exact elapsed time. -/
theorem elapsed_exact (turns : List (Turn Entry Moment Interrupt))
    (ht : Along timedTurn Punctual timedPowerOn turns) :
    ∀ e ∈ (run timedTurn timedPowerOn turns).2, Exact e := by
  have hunfinished : Unfinished (run timedTurn timedPowerOn turns).1 :=
    run_invariant timedTurn Unfinished (turn_unfinished _ _) _ turns (fun _ => by simp [timedPowerOn])
  obtain ⟨rest,hrest,hidle⟩ := call_returns (fun k => watchCall clock (appEntry k))
    (watchHandler appHandler) Punctual punctual_answer _ hunfinished
  have happend : run timedTurn timedPowerOn (turns++rest) =
      ((run timedTurn (run timedTurn timedPowerOn turns).1 rest).1,
        (run timedTurn timedPowerOn turns).2++
          (run timedTurn (run timedTurn timedPowerOn turns).1 rest).2) := run_append _ _ _ _
  have hexact := idle_exact (turns++rest) ((along_append _ _ _ _ _).mpr ⟨ht,hrest⟩)
    (by rw [happend]; exact hidle)
  intro e he
  apply hexact
  rw [happend]
  exact List.mem_append.mpr (Or.inl he)

def passing (delays : List ℕ) : List (Turn Entry Moment Interrupt) :=
  delays.map fun delay => .statement ⟨delay,true,.resetNot,[]⟩

def soon (count : ℕ) : List (Turn Entry Moment Interrupt) := passing (List.replicate count 0)

def timedBusOff : List (Turn Entry Moment Interrupt) :=
  .enter (.init true)::soon 40++.interrupt (.error true)::.enter .process::passing [0,1]++soon 40

/-- A recovery whose tick is read `late` milliseconds after the pass sampled
its own. -/
def timedRecovery (late : ℕ) : List (Turn Entry Moment Interrupt) :=
  timedBusOff++.enter .process::passing [0,100]++soon 22++passing [late]++soon 30

instance punctualDecidable : ∀ m t, Decidable (Punctual m t)
  | _, .statement _ => inferInstanceAs (Decidable (_ → _ → _))
  | _, .enter _ | _, .interrupt _ => isTrue trivial

def timedPass : List (Turn Entry Moment Interrupt) :=
  timedRecovery 0++.enter .process::passing [0,7]++soon 30

theorem elapsed_exact_recovery :
    (⟨108,6,108,101,false,true⟩,.coProcess 7000) ∈ (run timedTurn timedPowerOn timedPass).2 ∧
      ∀ e ∈ (run timedTurn timedPowerOn timedPass).2, Exact e :=
  ⟨by decide +kernel,elapsed_exact timedPass (by decide +kernel)⟩

/-- A millisecond later the pass hands a difference of 2^32-1000 to the stack. -/
theorem late_recovery_wraps :
    (⟨102,33,101,102,false,false⟩,.coProcess 4294966296) ∈
        (run timedTurn timedPowerOn (timedRecovery 1)).2 ∧
      ¬Exact (⟨102,33,101,102,false,false⟩,.coProcess 4294966296) := by
  refine ⟨by decide +kernel,fun h => ?_⟩
  exact absurd h.1 (by decide)

end CanopenReference.ElapsedTime
