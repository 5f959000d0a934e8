import CanopenReference.Library.History
import CanopenReference.SafeFault

/-!
# No bus-off is lost

A bus-off that finds the stack is noted in the pending flag. The flag is given
up only for a request, which takes the recovery object out of the running
state, and for an initialization, which resets the communication.
-/

set_option autoImplicit false

namespace CanopenReference.BusOffNotice
open Library.Runs Library.Statements Library.History BusOff MainLoop

def resets (e : AppEvent) : Bool := e = .resetCommunication

/-- A communication reset was started after the last bus-off. -/
def Covered (past : List AppEvent) : Prop := .busOff ∉ since resets past

def operation : AppEvent → Option Bool
  | .appInit | .mcuReset => some false
  | .runtimeState .running => some true
  | _ => none

/-- The last initialization came to its end, and `main` calls the process function. -/
def Operating (past : List AppEvent) : Prop := latest operation past = some true

instance (past : List AppEvent) : Decidable (Operating past) :=
  inferInstanceAs (Decidable (_ = _))

def Noted (a : App) (past : List AppEvent) : Prop :=
  a.canRecoveryPending = true ∨ a.canRecovery.state ≠ .running ∨ Covered past

def Present (a : App) : Prop := a.nodePresent = true ∧ a.co.isSome = true

structure SameStanding (a b : App) : Prop where
  nodePresent : b.nodePresent = a.nodePresent
  co : b.co.isSome = a.co.isSome
  pending : b.canRecoveryPending = a.canRecoveryPending
  active : b.recoveryAttemptActive = a.recoveryAttemptActive
  canRecovery : b.canRecovery = a.canRecovery

def Passive (e : AppEvent) : Prop := e ≠ .busOff ∧ operation e ≠ some true

def Inert (effect : App → Answer → App × List AppEvent) : Prop :=
  ∀ a answer, SameStanding a (effect a answer).1 ∧ ∀ e ∈ (effect a answer).2, Passive e

structure Condition where
  holds : App → List AppEvent → Prop
  same : ∀ a b past, SameStanding a b → holds a past → holds b past
  append : ∀ a past e, Passive e → holds a past → holds a (past++[e])
  notice : ∀ a past, holds a past → holds (halCanErrorCallback a true) (past++[.busOff])

def Condition.assertion (C : Condition) : Assertion appHandler where
  holds := C.holds
  stable a past cause h := by
    cases cause with
    | error busOff =>
      cases busOff with
      | true => exact C.notice a past h
      | false => simpa [appHandler,halCanErrorCallback] using h
    | rxFifo1 frame =>
      rw [show (appHandler a (.rxFifo1 frame)).2 = [] from rfl,List.append_nil]
      exact C.same a _ past ⟨rfl,rfl,rfl,rfl,rfl⟩ h

section Inert
variable {α : Type}

theorem inert_fetch (f : App → α) : Every Inert (fetch f : AppProgram α) :=
  framed_fetch (fun _ => ⟨rfl,rfl,rfl,rfl,rfl⟩) f

theorem inert_ask (f : Answer → α) : Every Inert (ask f : AppProgram α) :=
  framed_ask (fun _ => ⟨rfl,rfl,rfl,rfl,rfl⟩) f

theorem inert_assign {f : App → App} (h : ∀ a, SameStanding a (f a)) :
    Every Inert (assign f : AppProgram Unit) := framed_assign h

theorem inert_report {e : AppEvent} (h : Passive e) :
    Every Inert (report e : AppProgram Unit) :=
  framed_report (fun _ => ⟨rfl,rfl,rfl,rfl,rfl⟩) h

theorem inert_perform {f : App → Answer → App} {e : AppEvent}
    (h : ∀ a i, SameStanding a (f a i)) (he : Passive e) :
    Every Inert (perform f fun _ _ => [e] : AppProgram Unit) :=
  framed_perform h fun _ _ _ hx => List.mem_singleton.mp hx ▸ he

theorem inert_state {state : RuntimeState} (h : state ≠ .running) :
    Every Inert (setRuntimeState state) := by
  refine inert_perform (fun _ _ => ⟨rfl,rfl,rfl,rfl,rfl⟩) ⟨(fun hc => by cases hc),?_⟩
  cases state with
  | running => exact absurd rfl h
  | _ => simp [operation]

end Inert

section Rules
variable {α β : Type} (C : Condition) {post : β → App → List AppEvent → Prop} {a : App}
  {past : List AppEvent}

theorem inert_then {p : AppProgram α} {k : α → AppProgram β} (hp : Every Inert p)
    (h : C.holds a past)
    (hk : ∀ value a past, C.holds a past → Outline appHandler (k value) post a past) :
    Outline appHandler (p >>= k) post a past :=
  framed_then C.assertion C.same C.append hp h hk

def Condition.withStack (C : Condition) : Condition where
  holds a past := C.holds a past ∧ a.co.isSome = true
  same a b past hs h := ⟨C.same a b past hs h.1,hs.co.trans h.2⟩
  append a past e he h := ⟨C.append a past e he h.1,h.2⟩
  notice a past h := by
    refine ⟨C.notice a past h.1,?_⟩
    unfold halCanErrorCallback
    split <;> exact h.2

theorem stack_same (normal : Bool) (h : a.co.isSome = true) :
    SameStanding a { a with co := some ⟨normal⟩ } := ⟨rfl,h.symm,rfl,rfl,rfl⟩

theorem stop_outline (h : C.holds a past) :
    Outline appHandler stopRuntime (fun _ => C.holds) a past := by
  unfold stopRuntime Platform.stopRuntime
  refine inert_then C (inert_report ⟨by decide,by decide⟩) h fun _ a past h => ?_
  refine inert_then C (inert_fetch _) h fun nodePresent a past h => ?_
  refine inert_then C (every_when (inert_report ⟨by decide,by decide⟩)) h fun _ a past h => ?_
  refine outline_fetch C.assertion h fun a past h => ?_
  refine outline_ite (fun hstack => ?_) fun _ => h
  have hs : C.withStack.holds a past := ⟨h,hstack⟩
  refine outline_assign C.withStack.assertion hs fun a past h => ?_
  exact ⟨C.assertion,C.same a _ past (stack_same false h.2) h.1,fun a past _ h =>
    C.append a past _ ⟨by decide,by decide⟩ h⟩

theorem fail_outline (code : UInt32) (h : C.holds a past) :
    Outline appHandler (failRuntime code) (fun _ => C.holds) a past := by
  unfold failRuntime Platform.failRuntime
  refine inert_then C (inert_assign fun _ => ⟨rfl,rfl,rfl,rfl,rfl⟩) h fun _ a past h => ?_
  refine inert_then C (inert_fetch _) h fun safeFault a past h => ?_
  refine inert_then C (inert_state (by split <;> decide)) h fun _ a past h => ?_
  refine inert_then C (inert_report ⟨(fun hc => by cases hc),(fun hc => by cases hc)⟩) h
    fun _ a past h => ?_
  exact outline_bind (outline_mono (fun _ _ _ h => h) (stop_outline C h))

theorem guard_then {code : UInt32} {k : AppProgram Int32}
    {post : Int32 → App → List AppEvent → Prop} (h : C.holds a past)
    (hpost : ∀ result a past, C.holds a past → post result a past)
    (hk : ∀ a past, C.holds a past → Outline appHandler k post a past) :
    Outline appHandler
      (ask Answer.ok >>= fun ok => if (!ok) = true then failRuntime code else k) post a past := by
  refine inert_then C (inert_ask _) h fun ok a past h => ?_
  split
  · exact outline_mono hpost (fail_outline C code h)
  · exact hk a past h

end Rules

section Conditions

theorem covered_append {past : List AppEvent} {e : AppEvent} (he : e ≠ .busOff)
    (h : Covered past) : Covered (past++[e]) := by
  unfold Covered at h ⊢
  rw [since_concat]
  split
  · exact List.not_mem_nil
  · intro hm
    rcases List.mem_append.mp hm with hm | hm
    · exact h hm
    · exact he (List.mem_singleton.mp hm).symm

theorem covered_reset (past : List AppEvent) : Covered (past++[.resetCommunication]) := by
  unfold Covered
  rw [since_concat,if_pos (show resets .resetCommunication = true from rfl)]
  exact List.not_mem_nil

theorem notice_noted {a : App} (h : Present a) :
    (halCanErrorCallback a true).canRecoveryPending = true := by
  unfold halCanErrorCallback
  rw [if_pos ⟨h.1,h.2,rfl⟩]

theorem notice_same (a : App) :
    (halCanErrorCallback a true).nodePresent = a.nodePresent ∧
      (halCanErrorCallback a true).co = a.co ∧
      (halCanErrorCallback a true).recoveryAttemptActive = a.recoveryAttemptActive ∧
      (halCanErrorCallback a true).safeFault = a.safeFault := by
  unfold halCanErrorCallback
  split <;> exact ⟨rfl,rfl,rfl,rfl⟩

/-- What a stretch of the program carries along: a value of the attempt flag,
and something about the events that only the end of a reset breaks. -/
structure Load where
  active : Option Bool
  events : List AppEvent → Prop
  steady : ∀ past e, operation e ≠ some true → events past → events (past++[e])

def Load.Carried (L : Load) (a : App) (past : List AppEvent) : Prop :=
  (∀ active, L.active = some active → a.recoveryAttemptActive = active) ∧ L.events past

def unladen : Load := ⟨none,fun _ => True,fun _ _ _ _ => trivial⟩

theorem unladen_carried (a : App) (past : List AppEvent) : unladen.Carried a past :=
  ⟨fun active h => (by cases h),trivial⟩

theorem carried_same {L : Load} {a b : App} {past : List AppEvent}
    (hs : b.recoveryAttemptActive = a.recoveryAttemptActive) (h : L.Carried a past) :
    L.Carried b past :=
  ⟨fun active ha => hs.trans (h.1 active ha),h.2⟩

theorem carried_append {L : Load} {a : App} {past : List AppEvent} {e : AppEvent}
    (he : operation e ≠ some true) (h : L.Carried a past) : L.Carried a (past++[e]) :=
  ⟨h.1,L.steady past e he h.2⟩

theorem carried_notice {L : Load} {a : App} {past : List AppEvent} (h : L.Carried a past) :
    L.Carried (halCanErrorCallback a true) (past++[.busOff]) :=
  carried_append (by decide) (carried_same (notice_same a).2.2.1 h)

/-- The load, and whether there is a node and a stack. -/
def standing (nodePresent co : Option Bool) (L : Load) : Condition where
  holds a past := (∀ v, nodePresent = some v → a.nodePresent = v) ∧
    (∀ v, co = some v → a.co.isSome = v) ∧ L.Carried a past
  same a b past hs h := ⟨fun v hv => hs.nodePresent.trans (h.1 v hv),
    fun v hv => hs.co.trans (h.2.1 v hv),carried_same hs.active h.2.2⟩
  append a past e he h := ⟨h.1,h.2.1,carried_append he.2 h.2.2⟩
  notice a past h := by
    obtain ⟨hn,hc,-,-⟩ := notice_same a
    exact ⟨fun v hv => hn.trans (h.1 v hv),fun v hv => (congrArg _ hc).trans (h.2.1 v hv),
      carried_notice h.2.2⟩

def fresh (L : Load) : Condition where
  holds a past := Present a ∧ (a.canRecoveryPending = true ∨ Covered past) ∧ L.Carried a past
  same a b past hs h := ⟨⟨hs.nodePresent.trans h.1.1,hs.co.trans h.1.2⟩,
    h.2.1.imp_left hs.pending.trans,carried_same hs.active h.2.2⟩
  append a past e he h := ⟨h.1,h.2.1.imp_right (covered_append he.1),carried_append he.2 h.2.2⟩
  notice a past h := by
    obtain ⟨hn,hc,-,-⟩ := notice_same a
    exact ⟨⟨hn.trans h.1.1,(congrArg _ hc).trans h.1.2⟩,Or.inl (notice_noted h.1),
      carried_notice h.2.2⟩

def noted : Condition where
  holds a past := Present a ∧ Noted a past
  same a b past hs h := by
    refine ⟨⟨hs.nodePresent.trans h.1.1,hs.co.trans h.1.2⟩,?_⟩
    have hnoted := h.2
    unfold Noted at hnoted ⊢
    rwa [hs.pending,hs.canRecovery]
  append a past e he h := ⟨h.1,h.2.imp_right fun h => h.imp_right (covered_append he.1)⟩
  notice a past h := by
    obtain ⟨hn,hc,-,-⟩ := notice_same a
    exact ⟨⟨hn.trans h.1.1,(congrArg _ hc).trans h.1.2⟩,Or.inl (notice_noted h.1)⟩

theorem fresh_noted {L : Load} {a : App} {past : List AppEvent} (h : (fresh L).holds a past) :
    noted.holds a past := ⟨h.1,h.2.1.imp_right Or.inr⟩

end Conditions

def Reset (L : Load) (result : Int32) (a : App) (past : List AppEvent) : Prop :=
  (fresh unladen).holds a past ∧ (result ≠ 0 → L.Carried a past)

theorem running_outline {L : Load} {a : App} {past : List AppEvent}
    (h : (fresh L).holds a past) : Outline appHandler enterRunning (Reset L) a past := by
  unfold enterRunning
  refine outline_perform (fresh L).assertion h fun a past answer h => ?_
  have ht : (fresh L).holds { a with lastTick := answer.tick } (past++[]) := by
    rw [List.append_nil]
    exact (fresh L).same a _ past ⟨rfl,rfl,rfl,rfl,rfl⟩ h
  refine inert_then _ (inert_assign fun _ => ⟨rfl,rfl,rfl,rfl,rfl⟩) ht fun _ a past h => ?_
  refine outline_assign (fresh L).assertion h fun a past h => ?_
  have hc : (fresh L).holds
      { a with canRecovery := canRecoveryComplete a.canRecovery true a.lastTick } past := h
  refine outline_perform (fresh L).assertion hc fun a past answer h => ?_
  refine ⟨⟨h.1,h.2.1.imp_right (covered_append fun hc => by cases hc),unladen_carried _ _⟩,?_⟩
  exact fun hresult => absurd rfl hresult

theorem reset_outline {L : Load} {a : App} {past : List AppEvent}
    (h : (standing (some true) (some true) L).holds a past) :
    Outline appHandler canopenAppResetCommunication (Reset L) a past := by
  have hpost : ∀ (result : Int32) a past, (fresh L).holds a past → Reset L result a past :=
    fun result a past h => ⟨⟨h.1,h.2.1,unladen_carried a past⟩,fun _ => h.2.2⟩
  unfold canopenAppResetCommunication Platform.canopenAppResetCommunication
  refine outline_report (standing (some true) (some true) L).assertion h fun a past h => ?_
  have hf : (fresh L).holds a (past++[.resetCommunication]) :=
    ⟨⟨h.1 true rfl,h.2.1 true rfl⟩,Or.inr (covered_reset past),
      carried_append (by decide) h.2.2⟩
  refine inert_then _ (inert_fetch _) hf fun missing a past h => ?_
  refine outline_ite (fun _ => ?_) fun _ => ?_
  · refine inert_then _ (inert_state (by decide)) h fun _ a past h => ?_
    exact hpost _ a past h
  refine inert_then _ (inert_state (by decide)) h fun _ a past h => ?_
  refine inert_then _ (inert_report ⟨by decide,by decide⟩) h fun _ a past h => ?_
  refine outline_assign (fresh L).assertion h fun a past h => ?_
  have hs : (fresh L).holds { a with co := some ⟨false⟩ } past :=
    (fresh L).same a _ past (stack_same false h.1.2) h
  refine inert_then _ (inert_report ⟨by decide,by decide⟩) hs fun _ a past h => ?_
  refine guard_then _ h hpost fun a past h => ?_
  refine guard_then _ h hpost fun a past h => ?_
  refine guard_then _ h hpost fun a past h => ?_
  refine guard_then _ h hpost fun a past h => ?_
  refine guard_then _ h hpost fun a past h => ?_
  refine guard_then _ h hpost fun a past h => ?_
  refine guard_then _ h hpost fun a past h => ?_
  refine inert_then _ (inert_ask _) h fun udsTick a past h => ?_
  refine inert_then _ (inert_ask _) h fun registered a past h => ?_
  refine inert_then _ (inert_assign fun _ => ⟨rfl,rfl,rfl,rfl,rfl⟩) h fun _ a past h => ?_
  refine outline_ite (fun _ => ?_) fun _ => ?_
  · exact outline_mono hpost (fail_outline _ _ h)
  refine inert_then _ trivial h fun _ a past h => ?_
  refine inert_then _ (inert_ask _) h fun timer a past h => ?_
  refine outline_ite (fun _ => ?_) fun _ => ?_
  · refine inert_then _ (inert_report ⟨by decide,by decide⟩) h fun _ a past h => ?_
    exact outline_mono hpost (fail_outline _ _ h)
  refine inert_then _ (inert_report ⟨by decide,by decide⟩) h fun _ a past h => ?_
  refine outline_perform (fresh L).assertion h fun a past answer h => ?_
  have hn : (fresh L).holds { a with co := some ⟨answer.ok⟩ } past :=
    (fresh L).same a _ past (stack_same answer.ok h.1.2) h
  exact running_outline ((fresh L).append _ past _ ⟨by decide,by decide⟩ hn)

theorem recovery_outline (now : UInt32) {a : App} {past : List AppEvent}
    (h : noted.holds a past) :
    Outline appHandler (processCanRecovery now) (fun _ => noted.holds) a past := by
  unfold processCanRecovery Platform.processCanRecovery
  refine inert_then _ (inert_fetch _) h fun pending a past h => ?_
  refine outline_bind (outline_mono (fun _ a past h => ?_)
    (?_ : Outline appHandler _ (fun _ => noted.holds) a past))
  swap
  · refine outline_ite (fun _ => ?_) fun _ => h
    refine outline_assign noted.assertion h fun a past h => ?_
    have hp : (standing (some true) (some true) unladen).holds
        { a with canRecoveryPending := false } past :=
      ⟨fun v hv => by cases hv; exact h.1.1,fun v hv => by cases hv; exact h.1.2,
        unladen_carried _ _⟩
    refine outline_assign_last (standing (some true) (some true) unladen).assertion hp
      fun a past h => ?_
    refine ⟨⟨h.1 true rfl,h.2.1 true rfl⟩,Or.inr (Or.inl ?_)⟩
    show (canRecoveryRequest a.canRecovery now).state ≠ .running
    unfold canRecoveryRequest
    split
    · rename_i hf
      rw [hf]
      decide
    · exact fun hc => by cases hc
  refine inert_then _ (inert_fetch _) h fun ready a past h => ?_
  refine outline_ite (fun _ => h) fun _ => ?_
  refine outline_assign noted.assertion h fun a past h => ?_
  have hp : (standing (some true) (some true) unladen).holds
      { a with recoveryAttemptActive := true } past :=
    ⟨fun v hv => by cases hv; exact h.1.1,fun v hv => by cases hv; exact h.1.2,
      unladen_carried _ _⟩
  refine outline_bind (outline_mono (fun result a past h => ?_) (reset_outline hp))
  refine outline_assign (fresh unladen).assertion h.1 fun a past h => ?_
  have hf : (fresh unladen).holds { a with recoveryAttemptActive := false } past :=
    ⟨h.1,h.2.1,unladen_carried _ _⟩
  refine inert_then _ (inert_report ⟨(fun hc => by cases hc),fun hc => by cases hc⟩) hf
    fun _ a past h => ?_
  refine outline_assign (fresh unladen).assertion h fun a past h => ?_
  have hc : (fresh unladen).holds
      { a with canRecovery := canRecoveryComplete a.canRecovery (result = 0) now } past := h
  refine outline_ite (fun _ => fresh_noted hc) fun _ => ?_
  refine inert_then _ (inert_fetch _) hc fun state a past h => ?_
  refine outline_ite (fun _ => ?_) fun _ => fresh_noted h
  refine outline_bind (outline_mono (fun _ a past h => ?_) (fail_outline _ _ h))
  exact fresh_noted h

section Init
variable {L : Load} {a : App} {past : List AppEvent}

def gone (L : Load) : Condition := standing none (some false) { L with active := some false }

def Initialized (L : Load) (result : Int32) (a : App) (past : List AppEvent) : Prop :=
  (result = 0 → (fresh unladen).holds a past) ∧ (result ≠ 0 → (gone L).holds a past)

theorem init_outline (h : L.events past) :
    Outline appHandler (canopenAppInit true) (Initialized L) a past := by
  have hany : (standing none none { L with active := none }).holds a past :=
    ⟨fun v hv => (by cases hv),fun v hv => (by cases hv),fun v hv => (by cases hv),h⟩
  unfold canopenAppInit Platform.canopenAppInit
  refine outline_ite (fun hc => by cases hc) fun _ => ?_
  refine outline_assign (standing none none _).assertion hany fun a past h => ?_
  have hn : (standing (some true) none { L with active := none }).holds
      { a with nodePresent := true } past :=
    ⟨fun v hv => by cases hv; rfl,h.2.1,h.2.2⟩
  refine inert_then _ (inert_state (by decide)) hn fun _ a past h => ?_
  refine inert_then _ (inert_assign fun _ => ⟨rfl,rfl,rfl,rfl,rfl⟩) h fun _ a past h => ?_
  refine outline_assign (standing (some true) none _).assertion h fun a past h => ?_
  have hf : (standing (some true) none { L with active := none }).holds
      { a with canRecoveryPending := false } past := h
  refine outline_assign (standing (some true) none _).assertion hf fun a past h => ?_
  have hl : (standing (some true) none { L with active := some false }).holds
      { a with recoveryAttemptActive := false } past :=
    ⟨h.1,h.2.1,fun v hv => by cases hv; rfl,h.2.2.2⟩
  refine outline_assign (standing (some true) none _).assertion hl fun a past h => ?_
  have hr : (standing (some true) none { L with active := some false }).holds
      { a with canRecovery := canRecoveryInit canRecoveryWaitMs canRecoveryMaxAttempts } past := h
  refine inert_then _ (inert_report ⟨by decide,by decide⟩) hr fun _ a past h => ?_
  refine inert_then _ (inert_ask _) h fun created a past h => ?_
  refine outline_assign (standing (some true) none _).assertion h fun a past h => ?_
  cases created with
  | false =>
    have hg : (gone L).holds { a with co := none } past :=
      ⟨fun v hv => (by cases hv),fun v hv => (by cases hv; rfl),h.2.2⟩
    refine inert_then _ (inert_report ⟨by decide,by decide⟩) hg fun _ a past h => ?_
    exact ⟨fun hc => (by cases hc),fun _ => h⟩
  | true =>
    have hs : (standing (some true) (some true) { L with active := some false }).holds
        { a with co := some ⟨false⟩ } past := ⟨h.1,fun v hv => (by cases hv; rfl),h.2.2⟩
    refine outline_bind (outline_mono (fun result a past h => ?_) (reset_outline hs))
    refine outline_ite (fun hfailed => ?_) fun hdone => ?_
    · have hl : (fresh { L with active := some false }).holds a past :=
        ⟨h.1.1,h.1.2.1,h.2 hfailed⟩
      refine outline_bind (outline_mono (fun _ a past h => ?_) (fail_outline _ _ hl))
      refine inert_then _ (inert_report ⟨by decide,by decide⟩) h fun _ a past h => ?_
      refine outline_assign (fresh _).assertion h fun a past h => ?_
      exact ⟨fun hc => (by cases hc),fun _ =>
        ⟨fun v hv => (by cases hv),fun v hv => (by cases hv; rfl),h.2.2⟩⟩
    · exact ⟨fun _ => h.1,fun hc => absurd rfl hc⟩

def latched : Assertion appHandler where
  holds a _ := a.co.isSome = false ∧ a.safeFault = true
  stable a _ cause h := by
    cases cause with
    | error busOff =>
      simp only [appHandler,halCanErrorCallback]
      split <;> exact h
    | rxFifo1 frame => exact h

theorem latched_then {α β : Type} {p : AppProgram α} {k : α → AppProgram β}
    {post : β → App → List AppEvent → Prop}
    (hp : Every (Framed (fun a b => b.co = a.co ∧ b.safeFault = a.safeFault) fun _ => True) p)
    (h : latched.holds a past)
    (hk : ∀ value a past, latched.holds a past → Outline appHandler (k value) post a past) :
    Outline appHandler (p >>= k) post a past := by
  refine framed_then latched (fun a b past hs hl => ?_) (fun _ _ _ _ hl => hl) hp h hk
  exact ⟨(congrArg _ hs.1).trans hl.1,hs.2.trans hl.2⟩

theorem fail_latches (code : UInt32) (h : (gone L).holds a past) :
    Outline appHandler (failRuntime code) (fun _ => latched.holds) a past := by
  unfold failRuntime Platform.failRuntime
  refine outline_assign (gone L).assertion h fun a past h => ?_
  have hl : latched.holds { a with safeFault := !a.recoveryAttemptActive } past := by
    refine ⟨h.2.1 false rfl,?_⟩
    show (!a.recoveryAttemptActive) = true
    rw [h.2.2.1 false rfl]
    rfl
  refine latched_then (framed_fetch (fun _ => ⟨rfl,rfl⟩) _) hl fun safeFault a past h => ?_
  refine latched_then (framed_perform (fun _ _ => ⟨rfl,rfl⟩) fun _ _ _ _ => trivial) h
    fun _ a past h => ?_
  refine latched_then (framed_report (fun _ => ⟨rfl,rfl⟩) trivial) h fun _ a past h => ?_
  refine outline_bind ?_
  unfold Platform.stopRuntime
  refine latched_then (framed_report (fun _ => ⟨rfl,rfl⟩) trivial) h fun _ a past h => ?_
  refine latched_then (framed_fetch (fun _ => ⟨rfl,rfl⟩) _) h fun nodePresent a past h => ?_
  refine latched_then (every_when (framed_report (fun _ => ⟨rfl,rfl⟩) trivial)) h
    fun _ a past h => ?_
  refine outline_fetch latched h fun a past h => ?_
  exact outline_ite (fun hs => absurd (h.1.symm.trans hs) (by decide)) fun _ => h

end Init

def Rest (a : App) (past : List AppEvent) : Prop :=
  (Present a → Noted a past) ∧ (Operating past → a.safeFault = true ∨ Present a)

theorem noted_rest {a : App} {past : List AppEvent} (h : noted.holds a past) : Rest a past :=
  ⟨fun _ => h.2,fun _ => Or.inr h.1⟩

theorem gone_rest {a : App} {past : List AppEvent} (hgone : a.co.isSome = false)
    (h : Operating past → a.safeFault = true) : Rest a past :=
  ⟨fun hp => absurd (hgone.symm.trans hp.2) (by decide),fun ho => Or.inl (h ho)⟩

theorem operating_append {past : List AppEvent} {e : AppEvent} (he : operation e ≠ some true)
    (h : ¬Operating past) : ¬Operating (past++[e]) := by
  unfold Operating at h ⊢
  rw [latest_concat]
  cases ho : operation e with
  | none => exact h
  | some b =>
    rw [ho] at he
    exact he

theorem rest_append {a : App} {past : List AppEvent} {e : AppEvent} (he : Passive e)
    (h : Rest a past) : Rest a (past++[e]) := by
  refine ⟨fun hp => (h.1 hp).imp_right fun h => h.imp_right (covered_append he.1),fun ho => ?_⟩
  by_cases hpast : Operating past
  · exact h.2 hpast
  · exact absurd ho (operating_append he.2 hpast)

def rest : Assertion appHandler where
  holds := Rest
  stable a past cause h := by
    cases cause with
    | rxFifo1 frame =>
      show Rest _ (past++[])
      rw [List.append_nil]
      exact h
    | error busOff =>
      cases busOff with
      | false => simpa [appHandler,halCanErrorCallback] using h
      | true =>
        obtain ⟨hn,hc,-,hs⟩ := notice_same a
        have hpresent : Present (halCanErrorCallback a true) ↔ Present a := by
          unfold Present
          rw [hn,hc]
        refine ⟨fun hp => Or.inl (notice_noted (hpresent.mp hp)),fun ho => ?_⟩
        by_cases hpast : Operating past
        · exact (h.2 hpast).imp hs.trans hpresent.mpr
        · exact absurd ho (operating_append (by decide) hpast)

theorem mcu_reset_outline {a : App} {past : List AppEvent} (h : noted.holds a past) :
    Outline appHandler nvicSystemReset (fun _ => Rest) a past := by
  refine outline_perform_last noted.assertion h fun a past _ _ => ?_
  apply gone_rest rfl
  intro ho
  unfold Operating at ho
  rw [latest_concat] at ho
  cases ho

theorem pass_outline (now : UInt32) {a : App} {past : List AppEvent} (h : noted.holds a past) :
    Outline appHandler (canopenAppPass now) (fun _ => Rest) a past := by
  unfold canopenAppPass Platform.canopenAppPass
  refine inert_then _ (inert_ask _) h fun command a past h => ?_
  refine inert_then _ (inert_perform (fun _ _ => ⟨rfl,rfl,rfl,rfl,rfl⟩)
    ⟨(fun hc => by cases hc),fun hc => by cases hc⟩) h fun _ a past h => ?_
  refine inert_then _ (inert_fetch _) h fun resetPending a past h => ?_
  refine outline_ite (fun _ => ?_) fun _ => ?_
  · refine inert_then _ (inert_assign fun _ => ⟨rfl,rfl,rfl,rfl,rfl⟩) h fun _ a past h => ?_
    refine inert_then _ (inert_report ⟨by decide,by decide⟩) h fun _ a past h => ?_
    exact mcu_reset_outline h
  refine outline_ite (fun _ => ?_) fun _ => ?_
  · refine inert_then _ (inert_state (by decide)) h fun _ a past h => ?_
    refine inert_then _ (inert_report ⟨by decide,by decide⟩) h fun _ a past h => ?_
    refine outline_assign noted.assertion h fun a past h => ?_
    have hunladen : unladen.events past := trivial
    refine outline_bind (outline_mono (fun result a past h => ?_) (init_outline hunladen))
    by_cases hdone : result = 0
    · rw [hdone]
      exact noted_rest (fresh_noted (h.1 hdone))
    · refine outline_ite (fun _ => ?_) fun hc => absurd hdone (by simpa using hc)
      refine outline_bind (outline_mono (fun _ a past h => ?_) (fail_latches _ (h.2 hdone)))
      exact gone_rest h.1 fun _ => h.2
  refine outline_ite (fun _ => ?_) fun _ => noted_rest h
  refine inert_then _ (inert_report ⟨by decide,by decide⟩) h fun _ a past h => ?_
  exact mcu_reset_outline h

theorem process_outline {a : App} {past : List AppEvent} (h : Rest a past) :
    Outline appHandler canopenAppProcess (fun _ => Rest) a past := by
  unfold canopenAppProcess Platform.canopenAppProcess
  refine outline_fetch rest h fun a past h => ?_
  refine outline_ite (fun _ => h) fun hstopped => ?_
  have hpresent : Present a := by
    simp only [Bool.or_eq_true,not_or] at hstopped
    unfold Present
    constructor
    · simpa using hstopped.1.2
    · exact Option.isSome_iff_ne_none.mpr (by simpa using hstopped.1.1)
  have hn : noted.holds a past := ⟨hpresent,h.1 hpresent⟩
  refine inert_then _ (inert_ask _) hn fun now a past h => ?_
  refine outline_bind (outline_mono (fun _ a past h => ?_) (recovery_outline now h))
  refine inert_then _ (inert_fetch _) h fun lastTick a past h => ?_
  refine outline_ite (fun _ => noted_rest h) fun _ => ?_
  refine inert_then _ (inert_assign fun _ => ⟨rfl,rfl,rfl,rfl,rfl⟩) h fun _ a past h => ?_
  refine inert_then _ (inert_report ⟨(fun hc => by cases hc),fun hc => by cases hc⟩) h
    fun _ a past h => ?_
  exact pass_outline now h

theorem entry_outline (entry : Entry) (a : App) (past : List AppEvent) (h : Rest a past) :
    Outline appHandler (appEntry entry) (fun _ => Rest) a past := by
  cases entry with
  | process => exact process_outline h
  | init complete =>
    refine outline_report rest h fun a past h => ?_
    have hnot : ¬Operating (past++[.appInit]) := by
      unfold Operating
      rw [latest_concat]
      exact fun hc => by cases hc
    cases complete with
    | false => exact rest_append ⟨by decide,by decide⟩ h
    | true =>
      have hidle : (⟨none,fun past => ¬Operating past,fun _ _ => operating_append⟩ : Load).events
        (past++[.appInit]) := hnot
      refine outline_bind (outline_mono (fun result a past h => ?_) (init_outline hidle))
      by_cases hdone : result = 0
      · exact noted_rest (fresh_noted (h.1 hdone))
      · obtain ⟨-,hgone,-,hevents⟩ := h.2 hdone
        exact gone_rest (hgone false rfl) fun ho => absurd ho hevents

/-- Between two calls of a node that `main` has brought into its loop, and that
is not in safe fault, a bus-off is pending, waited for or answered by a
communication reset that was started after it. -/
theorem bus_off_kept (turns : List (Turn Entry Answer Interrupt))
    (hidle : (run appTurn ⟨powerOn,none⟩ turns).1.current.isNone = true)
    (hoperating : Operating (run appTurn ⟨powerOn,none⟩ turns).2)
    (hsafe : (run appTurn ⟨powerOn,none⟩ turns).1.state.safeFault = false)
    (hpending : (run appTurn ⟨powerOn,none⟩ turns).1.state.canRecoveryPending = false)
    (hrunning : (run appTurn ⟨powerOn,none⟩ turns).1.state.canRecovery.state = .running) :
    Covered (run appTurn ⟨powerOn,none⟩ turns).2 := by
  have hstart : Rest powerOn [] := gone_rest rfl fun ho => by cases ho
  have hp : Placed rest (run appTurn ⟨powerOn,none⟩ turns).1
      (run appTurn ⟨powerOn,none⟩ turns).2 :=
    run_placed appEntry rest entry_outline powerOn turns hstart
  unfold Placed at hp
  rw [Option.isNone_iff_eq_none.mp hidle] at hp
  have hpresent : Present (run appTurn ⟨powerOn,none⟩ turns).1.state := by
    rcases hp.2 hoperating with hs | hpresent
    · exact absurd (hsafe.symm.trans hs) (by decide)
    · exact hpresent
  rcases hp.1 hpresent with hnoted | hnoted | hnoted
  · exact absurd (hpending.symm.trans hnoted) (by decide)
  · exact absurd hrunning hnoted
  · exact hnoted

theorem bus_off_kept_recovered :
    .busOff ∈ (run appTurn ⟨powerOn,none⟩ SafeFault.recoveredRun).2 ∧
      Covered (run appTurn ⟨powerOn,none⟩ SafeFault.recoveredRun).2 :=
  ⟨by decide +kernel,bus_off_kept SafeFault.recoveredRun (by decide +kernel) (by decide +kernel)
    (by decide +kernel) (by decide +kernel) (by decide +kernel)⟩

end CanopenReference.BusOffNotice
