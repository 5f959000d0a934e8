import CanopenReference.MainLoop

/-!
# The latched safe fault

Every pass that exhausts the recovery attempts goes on after it has latched the
safe fault: an attempt is never due at the tick that was processed last, so the
pass does not stop before the CANopen stack is processed.
-/

set_option autoImplicit false

namespace CanopenReference.SafeFault
open Library Library.Runs Library.Statements BusOff MainLoop

/-- The report of the failure that exhausts the recovery. -/
def exhausted : AppEvent := .reportRuntimeFault 0xCA000001

/-- The program starts afresh. -/
def Restarts : AppEvent → Prop
  | .appInit | .mcuReset => True
  | _ => False

instance restartsDecidable : DecidablePred Restarts := fun e =>
  decidable_of_iff (e = .appInit ∨ e = .mcuReset) (by cases e <;> simp [Restarts])

/-- The safe fault is latched and the program has not been restarted since. -/
def Latched (past : List AppEvent) : Prop :=
  ∃ before after, past = before++exhausted::after ∧ ∀ e ∈ after, ¬Restarts e

def Resumes : AppEvent → Prop
  | .coProcess _ | .udsProcess _ | .resetCommunication | .runtimeState .running => True
  | _ => False

/-- A latched safe fault holds until the program is restarted. -/
def Held : List AppEvent → Prop := Always fun before e => Latched before → ¬Resumes e

def NotDue (a : App) (tick : UInt32) : Prop := canRecoveryReady a.canRecovery tick = false

def Configured (a : App) : Prop := a.canRecovery.waitMs = canRecoveryWaitMs

structure SameTiming (a b : App) : Prop where
  nodePresent : b.nodePresent = a.nodePresent
  canRecovery : b.canRecovery = a.canRecovery
  lastTick : b.lastTick = a.lastTick

def Passive (e : AppEvent) : Prop := e ≠ exhausted ∧ ¬Restarts e

def Inert (effect : App → Answer → App × List AppEvent) : Prop :=
  ∀ a answer, SameTiming a (effect a answer).1 ∧ ∀ e ∈ (effect a answer).2, Passive e

structure Condition where
  events : List AppEvent → Prop
  timing : App → Prop
  append : ∀ past e, Passive e → events past → events (past++[e])
  same : ∀ a b, SameTiming a b → timing a → timing b

def Condition.Holds (C : Condition) (a : App) (past : List AppEvent) : Prop :=
  C.events past ∧ C.timing a

theorem same_refl (a : App) : SameTiming a a := ⟨rfl,rfl,rfl⟩

theorem condition_same (C : Condition) (a b : App) (past : List AppEvent) (hs : SameTiming a b)
    (h : C.Holds a past) : C.Holds b past := ⟨h.1,C.same a b hs h.2⟩

theorem condition_append (C : Condition) (a : App) (past : List AppEvent) (e : AppEvent)
    (he : Passive e) (h : C.Holds a past) : C.Holds a (past++[e]) := ⟨C.append past e he h.1,h.2⟩

theorem handler_inert (a : App) (cause : Interrupt) :
    SameTiming a (appHandler a cause).1 ∧ ∀ e ∈ (appHandler a cause).2, Passive e := by
  cases cause with
  | error busOff =>
    constructor
    · simp only [appHandler,halCanErrorCallback]
      split <;> exact ⟨rfl,rfl,rfl⟩
    · intro e he
      simp only [appHandler] at he
      split at he
      · rw [List.mem_singleton.mp he]
        exact ⟨by decide,id⟩
      · cases he
  | rxFifo1 frame => exact ⟨⟨rfl,rfl,rfl⟩,by simp [appHandler]⟩

def Condition.assertion (C : Condition) : Assertion appHandler where
  holds := C.Holds
  stable a _ cause h :=
    framed_append (condition_same C) (condition_append C) (handler_inert a cause).1
      (handler_inert a cause).2 h

section Inert
variable {α : Type}

theorem inert_fetch (f : App → α) : Every Inert (fetch f : AppProgram α) :=
  framed_fetch same_refl f

theorem inert_ask (f : Answer → α) : Every Inert (ask f : AppProgram α) :=
  framed_ask same_refl f

theorem inert_assign {f : App → App} (h : ∀ a, SameTiming a (f a)) :
    Every Inert (assign f : AppProgram Unit) :=
  framed_assign h

theorem inert_report {e : AppEvent} (h : Passive e) :
    Every Inert (report e : AppProgram Unit) :=
  framed_report same_refl h

theorem inert_perform {f : App → Answer → App} {e : AppEvent} (h : ∀ a i, SameTiming a (f a i))
    (he : Passive e) : Every Inert (perform f fun _ _ => [e] : AppProgram Unit) :=
  framed_perform h fun _ _ _ hx => List.mem_singleton.mp hx ▸ he

theorem inert_state (state : RuntimeState) : Every Inert (setRuntimeState state) :=
  inert_perform (fun _ _ => ⟨rfl,rfl,rfl⟩) ⟨by simp [exhausted],id⟩

theorem inert_stop : Every Inert stopRuntime := by
  unfold stopRuntime Platform.stopRuntime
  refine every_bind (inert_report ⟨by decide,id⟩) fun _ => ?_
  refine every_bind (inert_fetch _) fun _ => ?_
  refine every_bind (every_when (inert_report ⟨by decide,id⟩)) fun _ => ?_
  refine every_bind (inert_fetch _) fun _ => every_when ?_
  refine every_bind (inert_assign fun _ => ⟨rfl,rfl,rfl⟩) fun _ => ?_
  exact inert_report ⟨by decide,id⟩

theorem inert_fail {code : UInt32} (h : code ≠ 0xCA000001) : Every Inert (failRuntime code) := by
  unfold failRuntime Platform.failRuntime
  refine every_bind (inert_assign fun _ => ⟨rfl,rfl,rfl⟩) fun _ => ?_
  refine every_bind (inert_fetch _) fun _ => ?_
  refine every_bind (inert_state _) fun _ => ?_
  refine every_bind (inert_report ⟨by simpa [exhausted] using h,id⟩) fun _ => ?_
  exact every_bind inert_stop fun _ => trivial

end Inert
def Exposed (past : List AppEvent) : Prop := exhausted ∈ past → ¬Held past

theorem exposed_append {past : List AppEvent} {e : AppEvent} (he : e ≠ exhausted)
    (h : Exposed past) : Exposed (past++[e]) := by
  intro hm hheld
  refine h ?_ (always_front hheld)
  rcases List.mem_append.mp hm with hm | hm
  · exact hm
  · exact absurd (List.mem_singleton.mp hm).symm he

theorem latched_report (past : List AppEvent) : Latched (past++[exhausted]) :=
  ⟨past,[],rfl,by simp⟩

theorem latched_append {past : List AppEvent} {e : AppEvent} (he : ¬Restarts e)
    (h : Latched past) : Latched (past++[e]) := by
  obtain ⟨before,after,rfl,ha⟩ := h
  refine ⟨before,after++[e],by simp,fun x hx => ?_⟩
  rcases List.mem_append.mp hx with hx | hx
  · exact ha x hx
  · rwa [List.mem_singleton.mp hx]

theorem resume_exposed {past : List AppEvent} {e : AppEvent} (he : Resumes e)
    (h : Latched past) : Exposed (past++[e]) :=
  fun _ hheld => hheld past e [] rfl h he

def exposedWhile (timing : App → Prop) (same : ∀ a b, SameTiming a b → timing a → timing b) :
    Condition :=
  ⟨Exposed,timing,fun _ _ he => exposed_append he.1,same⟩

def latchedWhile (timing : App → Prop) (same : ∀ a b, SameTiming a b → timing a → timing b) :
    Condition :=
  ⟨Latched,timing,fun _ _ he => latched_append he.2,same⟩

section Rules
variable {α β : Type} (C : Condition) {post : β → App → List AppEvent → Prop} {a : App}
  {past : List AppEvent}

theorem outline_inert {p : AppProgram α} (hp : Every Inert p) (h : C.Holds a past) :
    Outline appHandler p (fun _ => C.Holds) a past :=
  outline_framed C.assertion (condition_same C) (condition_append C) hp h

theorem inert_then {p : AppProgram α} {k : α → AppProgram β} (hp : Every Inert p)
    (h : C.Holds a past)
    (hk : ∀ value a past, C.Holds a past → Outline appHandler (k value) post a past) :
    Outline appHandler (p >>= k) post a past :=
  outline_bind (outline_mono hk (outline_inert C hp h))

theorem when_then {c : Bool} {p : AppProgram Unit} {k : Unit → AppProgram β}
    (h : C.Holds a past)
    (hp : ∀ a past, C.Holds a past → Outline appHandler p (fun _ => C.Holds) a past)
    (hk : ∀ a past, C.Holds a past → Outline appHandler (k ()) post a past) :
    Outline appHandler (when c p >>= k) post a past :=
  outline_bind (outline_mono (fun _ a past h => hk a past h)
    (outline_ite (fun _ => hp a past h) fun _ => h))

theorem guard_then {code : UInt32} {k : AppProgram Int32}
    {post : Int32 → App → List AppEvent → Prop} (hcode : code ≠ 0xCA000001)
    (h : C.Holds a past) (hpost : ∀ result a past, C.Holds a past → post result a past)
    (hk : ∀ a past, C.Holds a past → Outline appHandler k post a past) :
    Outline appHandler
      (ask Answer.ok >>= fun ok => if (!ok) = true then failRuntime code else k) post a past := by
  refine inert_then C (inert_ask _) h fun ok a past h => ?_
  split
  · exact outline_mono hpost (outline_inert C (inert_fail hcode) h)
  · exact hk a past h

end Rules

def BeforeTick (F : App → Prop) (a : App) : Prop := ∃ tick, F { a with lastTick := tick }

theorem beforeTick_same {F : App → Prop} (hF : ∀ a b, SameTiming a b → F a → F b)
    (a b : App) (hab : SameTiming a b) (h : BeforeTick F a) : BeforeTick F b := by
  obtain ⟨tick,ht⟩ := h
  exact ⟨tick,hF { a with lastTick := tick } _ ⟨hab.1,hab.2,rfl⟩ ht⟩

theorem running_outline {F G : App → Prop} (hF : ∀ a b, SameTiming a b → F a → F b)
    (hG : ∀ a b, SameTiming a b → G a → G b)
    (hdone : ∀ a tick, F a → G { a with
      lastTick := tick, canRecovery := canRecoveryComplete a.canRecovery true tick })
    {a : App} {past : List AppEvent} (h : (exposedWhile F hF).Holds a past) :
    Outline appHandler enterRunning (fun result a past => result = 0 ∧
      (exposedWhile G hG).Holds a past) a past := by
  unfold enterRunning
  have hB := beforeTick_same hF
  refine outline_perform (exposedWhile F hF).assertion h fun a past answer h => ?_
  have hb : (exposedWhile (BeforeTick F) hB).Holds { a with lastTick := answer.tick } (past++[]) := by
    rw [List.append_nil]
    exact ⟨h.1,a.lastTick,h.2⟩
  refine inert_then _ (inert_assign fun _ => ⟨rfl,rfl,rfl⟩) hb fun _ a past h => ?_
  refine outline_assign (exposedWhile (BeforeTick F) hB).assertion h fun a past h => ?_
  have hg : (exposedWhile G hG).Holds
      { a with canRecovery := canRecoveryComplete a.canRecovery true a.lastTick } past := by
    obtain ⟨he,tick,ht⟩ := h
    exact ⟨he,hdone { a with lastTick := tick } a.lastTick ht⟩
  refine inert_then _ (inert_state _) hg fun _ a past h => ?_
  exact ⟨rfl,h⟩

theorem reset_outline {F : App → Prop} {G : Int32 → App → Prop}
    (hF : ∀ a b, SameTiming a b → F a → F b)
    (hG : ∀ result a b, SameTiming a b → G result a → G result b)
    (hkept : ∀ result a, F a → G result a)
    (hdone : ∀ a tick, F a → G 0 { a with
      lastTick := tick, canRecovery := canRecoveryComplete a.canRecovery true tick })
    {a : App} {past : List AppEvent} (h : (exposedWhile F hF).Holds a past) :
    Outline appHandler canopenAppResetCommunication
      (fun result => (exposedWhile (G result) (hG result)).Holds) a past := by
  have hpost : ∀ result a past, (exposedWhile F hF).Holds a past →
      (exposedWhile (G result) (hG result)).Holds a past :=
    fun result a past h => ⟨h.1,hkept result a h.2⟩
  unfold canopenAppResetCommunication Platform.canopenAppResetCommunication
  refine inert_then _ (inert_report ⟨by decide,id⟩) h fun _ a past h => ?_
  refine inert_then _ (inert_fetch _) h fun missing a past h => ?_
  refine outline_ite (fun _ => ?_) fun _ => ?_
  · refine inert_then _ (inert_state _) h fun _ a past h => ?_
    exact hpost _ a past h
  refine inert_then _ (inert_state _) h fun _ a past h => ?_
  refine inert_then _ (inert_report ⟨by decide,id⟩) h fun _ a past h => ?_
  refine inert_then _ (inert_assign fun _ => ⟨rfl,rfl,rfl⟩) h fun _ a past h => ?_
  refine inert_then _ (inert_report ⟨by decide,id⟩) h fun _ a past h => ?_
  refine guard_then _ (by decide) h hpost fun a past h => ?_
  refine guard_then _ (by decide) h hpost fun a past h => ?_
  refine guard_then _ (by decide) h hpost fun a past h => ?_
  refine guard_then _ (by decide) h hpost fun a past h => ?_
  refine guard_then _ (by decide) h hpost fun a past h => ?_
  refine guard_then _ (by decide) h hpost fun a past h => ?_
  refine guard_then _ (by decide) h hpost fun a past h => ?_
  refine inert_then _ (inert_ask _) h fun udsTick a past h => ?_
  refine inert_then _ (inert_ask _) h fun registered a past h => ?_
  refine inert_then _ (inert_assign fun _ => ⟨rfl,rfl,rfl⟩) h fun _ a past h => ?_
  refine outline_ite (fun _ => ?_) fun _ => ?_
  · exact outline_mono hpost (outline_inert _ (inert_fail (by decide)) h)
  -- the profiles have no variables here
  refine inert_then _ trivial h fun _ a past h => ?_
  refine inert_then _ (inert_ask _) h fun timer a past h => ?_
  refine outline_ite (fun _ => ?_) fun _ => ?_
  · refine inert_then _ (inert_report ⟨by decide,id⟩) h fun _ a past h => ?_
    exact outline_mono hpost (outline_inert _ (inert_fail (by decide)) h)
  refine inert_then _ (inert_report ⟨by decide,id⟩) h fun _ a past h => ?_
  refine inert_then _ (inert_perform (fun _ _ => ⟨rfl,rfl,rfl⟩) ⟨by decide,id⟩) h
    fun _ a past h => ?_
  refine outline_mono (fun result a past h => ?_) (running_outline hF (hG 0) hdone h)
  obtain ⟨rfl,hg⟩ := h
  exact hg

section Recovery
variable {context : CanRecovery} (now : UInt32)

theorem later_not_due (hw : context.waitMs = canRecoveryWaitMs) :
    Clock.reached now (now+context.waitMs) = false := by
  rw [hw]
  exact Clock.not_reached_later (by decide) now

theorem request_not_due (hw : context.waitMs = canRecoveryWaitMs) :
    canRecoveryReady (canRecoveryRequest context now) now = false := by
  unfold canRecoveryRequest
  by_cases hf : context.state = .fault
  · simp [canRecoveryReady,hf]
  · simpa [canRecoveryReady,hf] using later_not_due now hw

theorem complete_not_due (hw : context.waitMs = canRecoveryWaitMs) (success : Bool) :
    canRecoveryReady (canRecoveryComplete context success now) now = false := by
  cases success with
  | true => rfl
  | false =>
    unfold canRecoveryComplete
    by_cases hm : context.maxAttempts ≠ 0 ∧ context.maxAttempts ≤ context.attempts+1
    · simp [canRecoveryReady,hm]
    · simpa [canRecoveryReady,hm] using later_not_due now hw

theorem request_waitMs : (canRecoveryRequest context now).waitMs = context.waitMs := by
  unfold canRecoveryRequest
  split <;> rfl

theorem complete_waitMs (success : Bool) :
    (canRecoveryComplete context success now).waitMs = context.waitMs := by
  unfold canRecoveryComplete
  split
  · rfl
  · simp only
    split <;> rfl

end Recovery

def Quiet (now : UInt32) (a : App) : Prop := Configured a ∧ NotDue a now

def Attempting (now : UInt32) (a : App) : Prop := Configured a ∧ a.lastTick ≠ now

def Behind (now : UInt32) (a : App) : Prop := Quiet now a ∧ a.lastTick ≠ now

theorem quiet_same {now : UInt32} (a b : App) (hab : SameTiming a b) (h : Quiet now a) :
    Quiet now b := by
  unfold Quiet Configured NotDue at h ⊢
  rwa [hab.canRecovery]

theorem attempting_same {now : UInt32} (a b : App) (hab : SameTiming a b)
    (h : Attempting now a) : Attempting now b := by
  unfold Attempting Configured at h ⊢
  rwa [hab.canRecovery,hab.lastTick]

theorem behind_same {now : UInt32} (a b : App) (hab : SameTiming a b) (h : Behind now a) :
    Behind now b := by
  refine ⟨quiet_same a b hab h.1,?_⟩
  rw [hab.lastTick]
  exact h.2

theorem exhausted_outline {now : UInt32} {a : App} {past : List AppEvent}
    (h : (exposedWhile (Behind now) behind_same).Holds a past) :
    Outline appHandler (failRuntime 0xCA000001)
      (fun _ => (latchedWhile (Behind now) behind_same).Holds) a past := by
  unfold failRuntime Platform.failRuntime
  refine inert_then _ (inert_assign fun _ => ⟨rfl,rfl,rfl⟩) h fun _ a past h => ?_
  refine inert_then _ (inert_fetch _) h fun safeFault a past h => ?_
  refine inert_then _ (inert_state _) h fun _ a past h => ?_
  refine outline_report (exposedWhile (Behind now) behind_same).assertion h fun a past h => ?_
  have hl : (latchedWhile (Behind now) behind_same).Holds a (past++[exhausted]) :=
    ⟨latched_report past,h.2⟩
  refine inert_then _ inert_stop hl fun _ a past h => ?_
  exact h

/-- After the recovery no attempt is due, and if the safe fault has been latched
the pass goes on. -/
def Recovered (now : UInt32) : Assertion appHandler :=
  (exposedWhile (Quiet now) quiet_same).assertion.either
    (latchedWhile (Behind now) behind_same).assertion

def Waiting (now : UInt32) (a : App) : Prop :=
  Configured a ∧ (canRecoveryReady a.canRecovery now = true → a.lastTick ≠ now)

theorem waiting_same {now : UInt32} (a b : App) (hab : SameTiming a b) (h : Waiting now a) :
    Waiting now b := by
  unfold Waiting Configured at h ⊢
  rwa [hab.canRecovery,hab.lastTick]

def Attempted (now : UInt32) (result : Int32) (a : App) : Prop :=
  Configured a ∧ (result ≠ 0 → a.lastTick ≠ now)

theorem attempted_same {now : UInt32} (result : Int32) (a b : App) (hab : SameTiming a b)
    (h : Attempted now result a) : Attempted now result b := by
  unfold Attempted Configured at h ⊢
  rwa [hab.canRecovery,hab.lastTick]

theorem attempted_kept {now : UInt32} (result : Int32) (a : App) (h : Attempting now a) :
    Attempted now result a := ⟨h.1,fun _ => h.2⟩

theorem attempted_done {now : UInt32} (a : App) (tick : UInt32) (h : Attempting now a) :
    Attempted now 0 { a with
      lastTick := tick, canRecovery := canRecoveryComplete a.canRecovery true tick } :=
  ⟨(complete_waitMs tick true).trans h.1,fun h0 => absurd rfl h0⟩

theorem process_recovery_outline (now : UInt32) {a : App} {past : List AppEvent}
    (h : (exposedWhile (Waiting now) waiting_same).Holds a past) :
    Outline appHandler (processCanRecovery now) (fun _ => (Recovered now).holds) a past := by
  unfold processCanRecovery Platform.processCanRecovery
  refine inert_then _ (inert_fetch _) h fun pending a past h => ?_
  refine when_then _ h (fun a past h => ?_) fun a past h => ?_
  · refine inert_then _ (inert_assign fun _ => ⟨rfl,rfl,rfl⟩) h fun _ a past h => ?_
    refine outline_assign_last (exposedWhile (Waiting now) waiting_same).assertion h
      fun a past h => ?_
    obtain ⟨he,hw,_⟩ := h
    refine ⟨he,(request_waitMs now).trans hw,fun hr => ?_⟩
    rw [request_not_due now hw] at hr
    cases hr
  refine outline_fetch (exposedWhile (Waiting now) waiting_same).assertion h fun a past h => ?_
  refine outline_ite (fun hr => ?_) fun hr => ?_
  · left
    exact ⟨h.1,h.2.1,by simpa [NotDue] using hr⟩
  have hr : canRecoveryReady a.canRecovery now = true := by simpa using hr
  have ha : (exposedWhile (Attempting now) attempting_same).Holds a past :=
    ⟨h.1,h.2.1,h.2.2 hr⟩
  refine inert_then _ (inert_assign fun _ => ⟨rfl,rfl,rfl⟩) ha fun _ a past h => ?_
  refine outline_bind (outline_mono (fun result a past h => ?_)
    (reset_outline attempting_same (@attempted_same now) attempted_kept attempted_done h))
  refine inert_then _ (inert_assign fun _ => ⟨rfl,rfl,rfl⟩) h fun _ a past h => ?_
  refine inert_then _ (inert_report ⟨by simp [exhausted],id⟩) h fun _ a past h => ?_
  refine outline_assign (exposedWhile (Attempted now result) (attempted_same result)).assertion h
    fun a past h => ?_
  have hq : Quiet now
      { a with canRecovery := canRecoveryComplete a.canRecovery (result = 0) now } :=
    ⟨(complete_waitMs now _).trans h.2.1,complete_not_due now h.2.1 _⟩
  refine outline_ite (fun _ => ?_) fun hfailed => ?_
  · exact Or.inl ⟨h.1,hq⟩
  have hb : (exposedWhile (Behind now) behind_same).Holds
      { a with canRecovery := canRecoveryComplete a.canRecovery (result = 0) now } past :=
    ⟨h.1,hq,h.2.2 hfailed⟩
  refine inert_then _ (inert_fetch _) hb fun state a past h => ?_
  refine outline_ite (fun _ => ?_) fun _ => ?_
  · refine outline_bind (outline_mono (fun _ a past h => ?_) (exhausted_outline h))
    exact Or.inr h
  · exact Or.inl ⟨h.1,h.2.1⟩

def Settled (a : App) : Prop :=
  NotDue a a.lastTick ∧ (a.nodePresent = true → Configured a)

def Fresh (a : App) : Prop := a.canRecovery.state = .running ∧ Configured a

def Taken (now : UInt32) (a : App) : Prop := Quiet now a ∧ a.lastTick = now

theorem settled_same (a b : App) (hab : SameTiming a b) (h : Settled a) : Settled b := by
  unfold Settled NotDue Configured at h ⊢
  rwa [hab.canRecovery,hab.lastTick,hab.nodePresent]

theorem fresh_same (a b : App) (hab : SameTiming a b) (h : Fresh a) : Fresh b := by
  unfold Fresh Configured at h ⊢
  rwa [hab.canRecovery]

theorem taken_same {now : UInt32} (a b : App) (hab : SameTiming a b) (h : Taken now a) :
    Taken now b :=
  ⟨quiet_same a b hab h.1,hab.lastTick.trans h.2⟩

theorem fresh_settled {a : App} (h : Fresh a) : Settled a :=
  ⟨by simp [NotDue,canRecoveryReady,h.1],fun _ => h.2⟩

theorem taken_settled {now : UInt32} {a : App} (h : Taken now a) : Settled a :=
  ⟨by rw [h.2]; exact h.1.2,fun _ => h.1.1⟩

theorem fresh_done (a : App) (tick : UInt32) (h : Fresh a) :
    Fresh { a with lastTick := tick, canRecovery := canRecoveryComplete a.canRecovery true tick } :=
  ⟨rfl,(complete_waitMs tick true).trans h.2⟩

def Rest : Condition := exposedWhile Settled settled_same

theorem init_outline (complete : Bool) {a : App} {past : List AppEvent}
    (h : Rest.Holds a past) :
    Outline appHandler (canopenAppInit complete) (fun _ => Rest.Holds) a past := by
  unfold canopenAppInit Platform.canopenAppInit
  refine outline_ite (fun _ => h) fun _ => ?_
  have ht : (exposedWhile (fun _ => True) fun _ _ _ h => h).Holds a past := ⟨h.1,trivial⟩
  refine outline_assign (exposedWhile (fun _ => True) _).assertion ht fun a past h => ?_
  replace h : (exposedWhile (fun _ => True) fun _ _ _ h => h).Holds
    { a with nodePresent := true } past := h
  refine inert_then _ (inert_state _) h fun _ a past h => ?_
  refine inert_then _ (inert_assign fun _ => ⟨rfl,rfl,rfl⟩) h fun _ a past h => ?_
  refine inert_then _ (inert_assign fun _ => ⟨rfl,rfl,rfl⟩) h fun _ a past h => ?_
  refine inert_then _ (inert_assign fun _ => ⟨rfl,rfl,rfl⟩) h fun _ a past h => ?_
  refine outline_assign (exposedWhile (fun _ => True) _).assertion h fun a past h => ?_
  have hf : (exposedWhile Fresh fresh_same).Holds
      { a with canRecovery := canRecoveryInit canRecoveryWaitMs canRecoveryMaxAttempts } past :=
    ⟨h.1,rfl,rfl⟩
  have hrest : ∀ a past, (exposedWhile Fresh fresh_same).Holds a past → Rest.Holds a past :=
    fun a past h => ⟨h.1,fresh_settled h.2⟩
  refine inert_then _ (inert_report ⟨by decide,id⟩) hf fun _ a past h => ?_
  refine inert_then _ (inert_ask _) h fun created a past h => ?_
  refine inert_then _ (inert_assign fun _ => ⟨rfl,rfl,rfl⟩) h fun _ a past h => ?_
  refine outline_ite (fun _ => ?_) fun _ => ?_
  · refine inert_then _ (inert_report ⟨by decide,id⟩) h fun _ a past h => ?_
    exact hrest a past h
  refine outline_bind (outline_mono (fun result a past h => ?_)
    (reset_outline fresh_same (fun _ => fresh_same) (fun _ _ h => h) fresh_done h))
  refine outline_ite (fun _ => ?_) fun _ => hrest a past h
  refine inert_then _ (inert_fail (by decide)) h fun _ a past h => ?_
  refine inert_then _ (inert_report ⟨by decide,id⟩) h fun _ a past h => ?_
  refine inert_then _ (inert_assign fun _ => ⟨rfl,rfl,rfl⟩) h fun _ a past h => ?_
  exact hrest a past h

theorem mcu_reset_outline {C : Condition} (hC : ∀ past, C.events past → Exposed past)
    {a : App} {past : List AppEvent} (h : C.Holds a past) :
    Outline appHandler nvicSystemReset (fun _ => Rest.Holds) a past := by
  refine outline_perform_last C.assertion h fun a past _ h => ?_
  refine ⟨exposed_append (by decide) (hC past h.1),rfl,fun hn => ?_⟩
  cases hn

def Poised (a : App) : Prop := ∀ now, Waiting now a

theorem poised_same (a b : App) (hab : SameTiming a b) (h : Poised a) : Poised b :=
  fun now => waiting_same a b hab (h now)

theorem settled_poised {a : App} (hn : a.nodePresent = true) (h : Settled a) : Poised a := by
  intro now
  refine ⟨h.2 hn,fun hr ht => ?_⟩
  have hd : canRecoveryReady a.canRecovery a.lastTick = false := h.1
  rw [ht,hr] at hd
  cases hd

theorem pass_outline {now : UInt32} {a : App} {past : List AppEvent}
    (h : (exposedWhile (Taken now) taken_same).Holds a past) :
    Outline appHandler (canopenAppPass now) (fun _ => Rest.Holds) a past := by
  have hrest : ∀ a past, (exposedWhile (Taken now) taken_same).Holds a past →
      Rest.Holds a past := fun a past h => ⟨h.1,taken_settled h.2⟩
  unfold canopenAppPass Platform.canopenAppPass
  refine inert_then _ (inert_ask _) h fun command a past h => ?_
  refine inert_then _ (inert_perform (fun _ _ => ⟨rfl,rfl,rfl⟩) ⟨by simp [exhausted],id⟩) h
    fun _ a past h => ?_
  refine inert_then _ (inert_fetch _) h fun resetPending a past h => ?_
  refine outline_ite (fun _ => ?_) fun _ => ?_
  · refine inert_then _ (inert_assign fun _ => ⟨rfl,rfl,rfl⟩) h fun _ a past h => ?_
    refine inert_then _ (inert_report ⟨by decide,id⟩) h fun _ a past h => ?_
    exact mcu_reset_outline (fun _ => id) h
  refine outline_ite (fun _ => ?_) fun _ => ?_
  · refine inert_then _ (inert_state _) h fun _ a past h => ?_
    refine inert_then _ (inert_report ⟨by decide,id⟩) h fun _ a past h => ?_
    refine inert_then _ (inert_assign fun _ => ⟨rfl,rfl,rfl⟩) h fun _ a past h => ?_
    refine outline_bind (outline_mono (fun result a past h => ?_)
      (init_outline true (hrest a past h)))
    refine outline_inert Rest (every_when ?_) h
    exact every_bind (inert_fail (by decide)) fun _ => trivial
  refine outline_ite (fun _ => ?_) fun _ => hrest a past h
  refine inert_then _ (inert_report ⟨by decide,id⟩) h fun _ a past h => ?_
  exact mcu_reset_outline (fun _ => id) h

theorem process_outline {a : App} {past : List AppEvent} (h : Rest.Holds a past) :
    Outline appHandler canopenAppProcess (fun _ => Rest.Holds) a past := by
  unfold canopenAppProcess Platform.canopenAppProcess
  refine outline_fetch Rest.assertion h fun a past h => ?_
  refine outline_ite (fun _ => h) fun hstopped => ?_
  have hnode : a.nodePresent = true := by
    simp only [Bool.or_eq_true,not_or] at hstopped
    simpa using hstopped.1.2
  have hp : (exposedWhile Poised poised_same).Holds a past :=
    ⟨h.1,settled_poised hnode h.2⟩
  refine inert_then _ (inert_ask _) hp fun now a past h => ?_
  refine outline_bind (outline_mono (fun _ a past h => ?_)
    (process_recovery_outline now ⟨h.1,h.2 now⟩))
  refine outline_fetch (Recovered now) h fun a past h => ?_
  refine outline_ite (fun hn => ?_) fun hn => ?_
  · rcases h with ⟨he,hq⟩ | ⟨_,hb⟩
    · exact ⟨he,taken_settled ⟨hq,hn.symm⟩⟩
    · exact absurd hn.symm hb.2
  refine outline_assign (Recovered now) h fun a past h => ?_
  have ht : (((exposedWhile (Taken now) taken_same).assertion).either
      (latchedWhile (Taken now) taken_same).assertion).holds { a with lastTick := now } past := by
    rcases h with ⟨he,hq⟩ | ⟨hl,hb⟩
    · exact Or.inl ⟨he,hq,rfl⟩
    · exact Or.inr ⟨hl,hb.1,rfl⟩
  refine outline_report _ ht fun a past h => ?_
  apply pass_outline
  rcases h with ⟨he,ht⟩ | ⟨hl,ht⟩
  · exact ⟨exposed_append (by simp [exhausted]) he,ht⟩
  · exact ⟨resume_exposed trivial hl,ht⟩

theorem entry_outline (entry : Entry) (a : App) (past : List AppEvent) (h : Rest.Holds a past) :
    Outline appHandler (appEntry entry) (fun _ => Rest.assertion.holds) a past := by
  cases entry with
  | init complete =>
    refine outline_report Rest.assertion h fun a past h => ?_
    have hr : Rest.Holds a (past++[.appInit]) := ⟨exposed_append (by decide) h.1,h.2⟩
    exact outline_bind (outline_mono (fun _ _ _ h => h) (init_outline complete hr))
  | process => exact process_outline h

theorem power_on_rest : Rest.Holds powerOn [] := by
  refine ⟨fun hm => absurd hm List.not_mem_nil,rfl,fun hn => ?_⟩
  cases hn

theorem idle_exposed (turns : List (Turn Entry Answer Interrupt))
    (hidle : (run appTurn ⟨powerOn,none⟩ turns).1.current.isNone = true) :
    Exposed (run appTurn ⟨powerOn,none⟩ turns).2 := by
  have hp : Placed Rest.assertion (run appTurn ⟨powerOn,none⟩ turns).1
      (run appTurn ⟨powerOn,none⟩ turns).2 :=
    run_placed appEntry Rest.assertion entry_outline powerOn turns power_on_rest
  unfold Placed at hp
  rw [Option.isNone_iff_eq_none.mp hidle] at hp
  exact hp.1

theorem not_latched_held {events : List AppEvent} (h : exhausted ∉ events) : Held events := by
  intro before e after hsplit hl
  obtain ⟨front,back,hb,_⟩ := hl
  apply absurd _ h
  simp [hsplit,hb]

/-- Between two calls a safe fault holds exactly where none has been latched:
the pass that latches it goes on, whatever the surroundings answer. -/
theorem safe_fault_held_iff (turns : List (Turn Entry Answer Interrupt))
    (hidle : (run appTurn ⟨powerOn,none⟩ turns).1.current.isNone = true) :
    Held (run appTurn ⟨powerOn,none⟩ turns).2 ↔
      exhausted ∉ (run appTurn ⟨powerOn,none⟩ turns).2 := by
  constructor
  · intro hheld hm
    exact idle_exposed turns hidle hm hheld
  · exact not_latched_held

def statements (count : Nat) (tick : UInt32) (ok : Bool) (command : CoNmtResetCmd) :
    List (Turn Entry Answer Interrupt) :=
  List.replicate count (.statement ⟨tick,ok,command,[]⟩)

def busOffRun : List (Turn Entry Answer Interrupt) :=
  .enter (.init true)::statements 40 0 true .resetNot++
  .interrupt (.error true)::.enter .process::statements 50 1 true .resetNot

def recoveredRun : List (Turn Entry Answer Interrupt) :=
  busOffRun++.enter .process::statements 50 101 true .resetNot

theorem safe_fault_held_recovered : Held (run appTurn ⟨powerOn,none⟩ recoveredRun).2 :=
  (safe_fault_held_iff recoveredRun (by decide +kernel)).mpr (by decide +kernel)

/-- All three attempts fail, and the stack asks for a communication reset. -/
def resumedRun : List (Turn Entry Answer Interrupt) :=
  busOffRun++
  .enter .process::statements 50 101 false .resetNot++
  .enter .process::statements 50 201 false .resetNot++
  .enter .process::statements 36 301 false .resetNot++statements 50 301 true .resetComm

theorem safe_fault_resumed :
    ¬Held (run appTurn ⟨powerOn,none⟩ resumedRun).2 ∧
    (∃ before after, (run appTurn ⟨powerOn,none⟩ resumedRun).2 = before++exhausted::after ∧
      (∀ e ∈ after, ¬Restarts e) ∧ AppEvent.coProcess 100000 ∈ after ∧
      AppEvent.udsProcess 301 ∈ after ∧ AppEvent.resetCommunication ∈ after) ∧
    (run appTurn ⟨powerOn,none⟩ resumedRun).1.state.runtimeState = .running := by
  have hsplit : (run appTurn ⟨powerOn,none⟩ resumedRun).2 =
      (run appTurn ⟨powerOn,none⟩ resumedRun).2.take 48++exhausted::
        (run appTurn ⟨powerOn,none⟩ resumedRun).2.drop 49 := by
    decide +kernel
  refine ⟨idle_exposed resumedRun (by decide +kernel) (by decide +kernel),⟨_,_,hsplit,?_⟩,?_⟩
  · decide +kernel
  · decide +kernel

end CanopenReference.SafeFault
