import CanopenReference.Dialogue
import CanopenReference.MainLoop

/-!
# The diagnostic application from one reset of the MCU to the next

Besides what a processing pass does, the main loop clears the pending reset and
initialises the application again at every communication reset. A run of the
main loop is a run of these moves since the last reset of the MCU.
-/

set_option autoImplicit false

namespace CanopenReference.Lifetime
open Library.Runs Library.Statements BusOff Diagnostics Handling Dialogue MainLoop

/-- What happens to the application. A communication reset reads the tick itself. -/
inductive LifeInput where
  | request (bytes : List UInt8)
  | tick
  | pollErase
  | clearReset
  | communicationReset (nowMs : UInt32)
  deriving DecidableEq

section Life
variable {μ : Type} (callbacks : Option (Download.UdsDownloadCallbacks μ))

def lifeStep (app : UdsApplication μ) (input : UInt32 × LifeInput) :
    UdsApplication μ × List Exchange :=
  match input.2 with
  | .request bytes => dialogueStep app (.request bytes input.1)
  | .tick => dialogueStep app (.tick input.1)
  | .pollErase => dialogueStep app (.pollErase input.1)
  | .clearReset => ({ app with server := { app.server with resetPending := false } },[])
  | .communicationReset nowMs =>
    (applicationInit callbacks app.context.download.context nowMs,[])

def lifeInput : ApplicationInput → UInt32 × LifeInput
  | .request bytes now => (now,.request bytes)
  | .tick now => (now,.tick)
  | .pollErase now => (now,.pollErase)

theorem life_input_step (app : UdsApplication μ) (input : ApplicationInput) :
    (lifeStep callbacks app (lifeInput input)).1 = (applicationStep app input).1 := by
  cases input <;> rfl

theorem life_input_run (app : UdsApplication μ) (inputs : List ApplicationInput) :
    (run (lifeStep callbacks) app (inputs.map lifeInput)).1 =
      (run applicationStep app inputs).1 := by
  induction inputs generalizing app with
  | nil => rfl
  | cons input inputs ih =>
    rw [List.map_cons,run_cons,run_cons,ih,life_input_step]

end Life

/-- The application of the main loop has come about by moves since it was
initialised. -/
def Lives (a : App) : Prop :=
  ∃ inputs, a.uds.application =
    (run (lifeStep none) (applicationInit none () 0) inputs).1

theorem lives_same {a b : App} (hb : b.uds.application = a.uds.application) (h : Lives a) :
    Lives b := by
  obtain ⟨inputs,h⟩ := h
  exact ⟨inputs,hb.trans h⟩

theorem lives_run {a b : App} (inputs : List (UInt32 × LifeInput))
    (hb : b.uds.application = (run (lifeStep none) a.uds.application inputs).1) (h : Lives a) :
    Lives b := by
  obtain ⟨past,h⟩ := h
  exact ⟨past++inputs,by rw [hb,h,run_append]⟩

theorem lives_power_on : Lives powerOn := ⟨[],rfl⟩

theorem lives_pass {a b : App} (driver : List UdsStm32.TxAnswer) (now : UInt32)
    (hb : b.uds = (canopenReferenceUdsProcess a.uds driver now).1) (h : Lives a) : Lives b := by
  obtain ⟨inputs,_,hinputs⟩ := process_application a.uds driver now
  refine lives_run (inputs.map lifeInput) ?_ h
  rw [hb,hinputs,life_input_run]

theorem lives_clear {a b : App} (hb : b.uds = canopenReferenceUdsClearReset a.uds)
    (h : Lives a) : Lives b := by
  by_cases hi : a.uds.initialized = true
  · refine lives_run [(0,.clearReset)] ?_ h
    rw [hb,canopenReferenceUdsClearReset,if_pos hi]
    rfl
  · refine lives_same ?_ h
    rw [hb,canopenReferenceUdsClearReset,if_neg hi]

theorem lives_init {a b : App} {registered : Bool} {tick : UInt32}
    (hb : b.uds = canopenReferenceUdsInit none () registered tick) (h : Lives a) : Lives b := by
  refine lives_run [(0,.communicationReset tick)] ?_ h
  rw [hb]
  rfl

section Statements
variable {α : Type}

theorem keeps_fetch (f : App → α) : Every (Keeps Lives) (fetch f : AppProgram α) :=
  framed_fetch (fun _ h => h) f

theorem keeps_ask (f : Answer → α) : Every (Keeps Lives) (ask f : AppProgram α) :=
  framed_ask (fun _ h => h) f

theorem keeps_report (e : AppEvent) : Every (Keeps Lives) (report e : AppProgram Unit) :=
  framed_report (fun _ h => h) trivial

theorem keeps_assign {f : App → App} (h : ∀ a, (f a).uds = a.uds) :
    Every (Keeps Lives) (assign f : AppProgram Unit) :=
  framed_assign fun a => lives_same (by rw [h])

theorem keeps_perform {f : App → Answer → App} {e : App → Answer → List AppEvent}
    (h : ∀ a i, (f a i).uds = a.uds) :
    Every (Keeps Lives) (perform f e : AppProgram Unit) :=
  framed_perform (fun a i => lives_same (by rw [h])) fun _ _ _ _ => trivial

theorem keeps_state (state : RuntimeState) : Every (Keeps Lives) (setRuntimeState state) :=
  keeps_perform fun _ _ => rfl

theorem keeps_stop : Every (Keeps Lives) stopRuntime := by
  refine every_bind (keeps_report _) fun _ => every_bind (keeps_fetch _) fun _ =>
    every_bind (every_when (keeps_report _)) fun _ => every_bind (keeps_fetch _) fun _ => ?_
  exact every_when (every_bind (keeps_assign fun _ => rfl) fun _ => keeps_report _)

theorem keeps_fail (code : UInt32) : Every (Keeps Lives) (failRuntime code) := by
  refine every_bind (keeps_assign fun _ => rfl) fun _ => every_bind (keeps_fetch _) fun _ =>
    every_bind (keeps_state _) fun _ => every_bind (keeps_report _) fun _ => ?_
  exact every_bind keeps_stop fun _ => trivial

theorem keeps_guard {code : UInt32} {k : AppProgram Int32} (hk : Every (Keeps Lives) k) :
    Every (Keeps Lives) (ask Answer.ok >>= fun ok =>
      if (!ok) = true then failRuntime code else k) :=
  every_bind (keeps_ask _) fun _ => every_ite (keeps_fail code) hk

theorem keeps_running : Every (Keeps Lives) enterRunning := by
  refine every_bind (keeps_perform fun _ _ => rfl) fun _ =>
    every_bind (keeps_assign fun _ => rfl) fun _ => every_bind (keeps_assign fun _ => rfl)
    fun _ => ?_
  exact every_bind (keeps_state _) fun _ => trivial

theorem keeps_reset : Every (Keeps Lives) canopenAppResetCommunication := by
  unfold canopenAppResetCommunication Platform.canopenAppResetCommunication
  apply every_bind (keeps_report _)
  intro _
  apply every_bind (keeps_fetch _)
  intro missing
  apply every_ite
  · exact every_bind (keeps_state _) fun _ => trivial
  apply every_bind (keeps_state _)
  intro _
  apply every_bind (keeps_report _)
  intro _
  refine every_bind (keeps_assign fun _ => rfl) fun _ => ?_
  apply every_bind (keeps_report _)
  intro _
  apply keeps_guard
  apply keeps_guard
  apply keeps_guard
  apply keeps_guard
  apply keeps_guard
  apply keeps_guard
  apply keeps_guard
  apply every_bind (keeps_ask _)
  intro udsTick
  apply every_bind (keeps_ask _)
  intro registered
  refine every_bind (framed_assign fun a => lives_init rfl) fun _ => ?_
  apply every_ite (keeps_fail _)
  refine every_bind trivial fun _ => ?_
  apply every_bind (keeps_ask _)
  intro timer
  apply every_ite
  · exact every_bind (keeps_report _) fun _ => keeps_fail _
  apply every_bind (keeps_report _)
  intro _
  refine every_bind (keeps_perform fun _ _ => rfl) fun _ => ?_
  exact keeps_running

theorem keeps_recovery (now : UInt32) : Every (Keeps Lives) (processCanRecovery now) := by
  unfold processCanRecovery Platform.processCanRecovery
  apply every_bind (keeps_fetch _)
  intro pending
  refine every_bind (every_when (every_bind (keeps_assign fun _ => rfl) fun _ =>
    keeps_assign fun _ => rfl)) fun _ => ?_
  apply every_bind (keeps_fetch _)
  intro ready
  apply every_ite
  · trivial
  refine every_bind (keeps_assign fun _ => rfl) fun _ => ?_
  apply every_bind keeps_reset
  intro result
  refine every_bind (keeps_assign fun _ => rfl) fun _ => ?_
  apply every_bind (keeps_report _)
  intro _
  refine every_bind (keeps_assign fun _ => rfl) fun _ => ?_
  apply every_ite
  · trivial
  apply every_bind (keeps_fetch _)
  intro state
  exact every_when (every_bind (keeps_fail _) fun _ => trivial)

theorem keeps_init (complete : Bool) : Every (Keeps Lives) (canopenAppInit complete) := by
  unfold canopenAppInit Platform.canopenAppInit
  apply every_ite
  · trivial
  refine every_bind (keeps_assign fun _ => rfl) fun _ => ?_
  apply every_bind (keeps_state _)
  intro _
  refine every_bind (keeps_assign fun _ => rfl) fun _ => ?_
  refine every_bind (keeps_assign fun _ => rfl) fun _ => ?_
  refine every_bind (keeps_assign fun _ => rfl) fun _ => ?_
  refine every_bind (keeps_assign fun _ => rfl) fun _ => ?_
  apply every_bind (keeps_report _)
  intro _
  apply every_bind (keeps_ask _)
  intro created
  refine every_bind (keeps_assign fun _ => rfl) fun _ => ?_
  apply every_ite
  · exact every_bind (keeps_report _) fun _ => trivial
  apply every_bind keeps_reset
  intro result
  apply every_ite
  · refine every_bind (keeps_fail _) fun _ => every_bind (keeps_report _) fun _ => ?_
    exact every_bind (keeps_assign fun _ => rfl) fun _ => trivial
  · trivial

theorem keeps_mcu_reset : Every (Keeps Lives) nvicSystemReset :=
  framed_perform (fun _ _ _ => lives_power_on) fun _ _ _ _ => trivial

theorem keeps_pass (now : UInt32) : Every (Keeps Lives) (canopenAppPass now) := by
  unfold canopenAppPass Platform.canopenAppPass
  apply every_bind (keeps_ask _)
  intro command
  refine every_bind (framed_perform (fun a i => lives_pass i.driver now rfl)
    fun _ _ _ _ => trivial) fun _ => ?_
  apply every_bind (keeps_fetch _)
  intro resetPending
  apply every_ite
  · refine every_bind (framed_assign fun a => lives_clear rfl) fun _ => ?_
    exact every_bind (keeps_report _) fun _ => keeps_mcu_reset
  apply every_ite
  · apply every_bind (keeps_state _)
    intro _
    apply every_bind (keeps_report _)
    intro _
    refine every_bind (keeps_assign fun _ => rfl) fun _ => ?_
    apply every_bind (keeps_init true)
    intro result
    exact every_when (every_bind (keeps_fail _) fun _ => trivial)
  apply every_ite
  · exact every_bind (keeps_report _) fun _ => keeps_mcu_reset
  · trivial

theorem keeps_process : Every (Keeps Lives) canopenAppProcess := by
  unfold canopenAppProcess Platform.canopenAppProcess
  apply every_bind (keeps_fetch _)
  intro stopped
  apply every_ite
  · trivial
  apply every_bind (keeps_ask _)
  intro now
  apply every_bind (keeps_recovery now)
  intro _
  apply every_bind (keeps_fetch _)
  intro lastTick
  apply every_ite
  · trivial
  refine every_bind (keeps_assign fun _ => rfl) fun _ => ?_
  apply every_bind (keeps_report _)
  intro _
  exact keeps_pass now

theorem keeps_entry (entry : Entry) : Every (Keeps Lives) (appEntry entry) := by
  cases entry with
  | init complete =>
    refine every_bind (keeps_report _) fun _ => ?_
    exact every_bind (keeps_init complete) fun _ => trivial
  | process => exact keeps_process

theorem handler_lives (a : App) (cause : Interrupt) (h : Lives a) :
    Lives (appHandler a cause).1 := by
  apply lives_same _ h
  cases cause with
  | error busOff =>
    simp only [appHandler,halCanErrorCallback]
    split <;> rfl
  | rxFifo1 frame =>
    show (canopenReferenceUdsRxFromIsr a.uds frame).application = a.uds.application
    unfold canopenReferenceUdsRxFromIsr
    split <;> rfl

end Statements

/-- In every run of the main loop, with interrupts between any two statements,
the application stands where some moves since its initialisation have put it. -/
theorem runtime_lives (turns : List (Turn Entry Answer Interrupt)) :
    Lives (run appTurn ⟨powerOn,none⟩ turns).1.state :=
  run_keeps appEntry keeps_entry handler_lives powerOn turns lives_power_on

end CanopenReference.Lifetime
