import CanopenReference.SafeOutputs

/-!
# Taking communication down

A take-down forces the outputs and then takes CANnormal away. In between a timer
interrupt still finds CAN in normal mode. The wait for recovery does not take
communication down at all.
-/

set_option autoImplicit false

namespace CanopenReference.TakeDown
open Library.Runs Library.Statements Library.Outlines Library.History OutputLoop SafeOutputs
open MainLoop hiding stopRuntime failRuntime canopenAppResetCommunication processCanRecovery
  canopenAppInit canopenAppPass canopenAppProcess nvicSystemReset

section Program

theorem clear_last {s : Plant} {past : List PlantEvent}
    (h : (held [.enable,.analog,.digital]).holds s past) :
    Within plantHandler Known clearCanNormal (fun _ => Known) s past := by
  refine within_perform (held _) (fun _ _ h => h.1) h fun s past i hs => ?_
  have hforced : ∀ output, Forced output past := by
    intro output
    apply hs.2
    cases output <;> simp
  have hkept : ∀ output, Forced output (past++[.canNormal false]) ↔ Forced output past := by
    intro output
    unfold Forced
    rw [latest_concat]
    rfl
  refine ⟨fun hu output _ => hs.1.forced (always_front hu) output (hforced output),fun _ => ?_,
    fun hr hw => ?_⟩
  · exact ⟨fun stack hstack => by cases hstack; rfl,fun output => (hkept output).mpr (hforced output)⟩
  · unfold Waiting at hw
    rw [latest_concat] at hw
    exact hs.1.waiting (always_front hr) hw

theorem kept_normal : Kept canSetNormalMode := by
  refine kept_perform fun s past i hs => ?_
  have hmode : Tame fun s _ => (s,[.app .canNormalMode]) :=
    ⟨fun _ _ _ h => h,fun _ _ h => h,fun _ _ e he => List.mem_singleton.mp he ▸
      app_plain fun hc => by cases hc⟩
  have htame := tame_known hmode s past i hs
  cases i.app.ok with
  | false =>
    simp only [Bool.false_eq_true,if_false]
    refine ⟨htame.forced,fun hd => ⟨fun stack hstack => by cases hstack; rfl,?_⟩,htame.waiting⟩
    exact (htame.down hd).2
  | true =>
    simp only [if_true]
    rw [show past++[.app .canNormalMode,.canNormal true] =
      (past++[.app .canNormalMode])++[.canNormal true] by simp]
    refine ⟨fun _ output hf => ?_,fun hd => ?_,fun hr hw => ?_⟩
    · unfold Forced at hf
      rw [latest_concat] at hf
      cases hf
    · unfold Down at hd
      rw [latest_concat] at hd
      cases hd
    · unfold Waiting at hw
      rw [latest_concat] at hw
      exact htame.waiting (always_front hr) hw

theorem kept_mcu_reset : Kept nvicSystemReset := by
  refine kept_perform fun s past i _ => ?_
  refine ⟨fun _ output hf => ?_,fun hd => ?_,fun _ hw => ?_⟩
  · unfold Forced at hf
    rw [latest_concat] at hf
    cases hf
  · unfold Down at hd
    rw [latest_concat] at hd
    cases hd
  · unfold Waiting at hw
    rw [latest_concat] at hw
    cases hw

theorem kept_request (now : UInt32) : Kept (requestRecovery now) := by
  refine kept_perform fun s past i hs => ?_
  split
  · refine ⟨fun hu output hf => ?_,fun hd => ?_,fun hr _ => hr past _ [] rfl⟩
    · unfold Forced at hf
      rw [latest_concat] at hf
      exact hs.forced (always_front hu) output hf
    · have hdown : Down past := by
        unfold Down at hd
        rw [latest_concat] at hd
        exact hd
      obtain ⟨hclosed,hforced⟩ := hs.down hdown
      refine ⟨hclosed,fun output => ?_⟩
      unfold Forced
      rw [latest_concat]
      exact hforced output
  · rw [List.append_nil]
    exact ⟨hs.forced,hs.down,hs.waiting⟩

theorem tame_cia401 : Every Tame (cia401ForceSafeOutputs false) := by
  refine every_bind (tame_assign (fun _ => rfl) fun _ => rfl) fun _ => ?_
  refine every_bind (tame_assign (fun _ => rfl) fun _ => rfl) fun _ => ?_
  exact every_bind (forces_tame digital_forces) fun _ => forces_tame analog_forces

theorem tame_cia402 : Every Tame (cia402ForceDisable false) := by
  refine every_bind (forces_tame enable_forces) fun _ => ?_
  refine every_bind (tame_assign (fun _ => rfl) fun _ => rfl) fun _ => ?_
  exact tame_assign (fun _ => rfl) fun _ => rfl

theorem tame_force_safe : Every Tame (forceSafeApplication false) := by
  apply every_bind (app_report fun hc => by cases hc)
  intro _
  exact every_bind tame_cia401 fun _ => tame_cia402

theorem tame_timer_start : Every Tame timerStart :=
  tame_shown (fun _ _ => rfl) (fun _ _ => rfl) fun hc => by cases hc

theorem tame_timer_stop : Every Tame timerStop :=
  tame_shown (fun _ _ => rfl) (fun _ _ => rfl) fun hc => by cases hc

theorem tame_co_process (timeDifferenceUs : UInt32) : Every Tame (coProcess timeDifferenceUs) :=
  tame_shown (fun _ _ => rfl) (fun _ _ => rfl) fun hc => by cases hc

theorem kept_stop : Kept stopRuntime := by
  intro s past h
  refine within_bind (within_mono (fun _ s past h => ?_) (take_down_within h))
  refine held_then (app_fetch _) h fun nodePresent s past h => ?_
  refine held_then (every_when tame_timer_stop) h fun _ s past h => ?_
  refine held_then (app_fetch _) h fun stack s past h => ?_
  refine within_ite (fun _ => ?_) fun _ => h.1
  refine within_bind (within_mono (fun _ s past h => ?_) (clear_last h))
  exact kept_tame (app_report fun hc => by cases hc) s past h

theorem kept_fail (code : UInt32) : Kept (failRuntime code) := by
  refine kept_bind (kept_tame (app_assign fun _ => rfl)) fun _ => ?_
  apply kept_bind (kept_tame (app_fetch _))
  intro safeFault
  apply kept_bind (kept_tame (app_state _))
  intro _
  apply kept_bind (kept_tame (app_report fun hc => by cases hc))
  intro _
  exact kept_bind kept_stop fun _ => kept_pure _

theorem kept_guard {code : UInt32} {k : PlantProgram Int32} (hk : Kept k) :
    Kept (plant.onApp (ask Answer.ok) >>= fun ok => if (!ok) = true then failRuntime code else k) :=
  kept_bind (kept_tame (app_ask _)) fun _ => kept_ite (kept_fail code) hk

theorem kept_cia402_init : Kept cia402Init := by
  apply kept_tame
  refine every_bind (tame_assign (fun _ => rfl) fun _ => rfl) fun _ => ?_
  refine every_bind (tame_assign (fun _ => rfl) fun _ => rfl) fun _ => ?_
  refine every_bind (tame_assign (fun _ => rfl) fun _ => rfl) fun _ => ?_
  exact tame_cia402

theorem kept_reset : Kept canopenAppResetCommunication := by
  unfold canopenAppResetCommunication Platform.canopenAppResetCommunication
  apply kept_bind (kept_tame (app_report fun hc => by cases hc))
  intro _
  apply kept_bind (kept_tame (app_fetch _))
  intro missing
  apply kept_ite
  · exact kept_bind (kept_tame (app_state _)) fun _ => kept_pure _
  apply kept_bind (kept_tame (app_state _))
  intro _ s past h
  refine within_bind (within_mono (fun _ s past h => ?_) (take_down_within h))
  refine within_bind (within_mono (fun _ s past h => ?_) (clear_last h))
  revert s past
  apply kept_bind (kept_tame (app_report fun hc => by cases hc))
  intro _
  apply kept_guard
  apply kept_guard
  apply kept_guard
  apply kept_guard
  apply kept_guard
  apply kept_guard
  apply kept_guard
  apply kept_bind (kept_tame (app_ask _))
  intro udsTick
  apply kept_bind (kept_tame (app_ask _))
  intro registered
  refine kept_bind (kept_tame (app_assign fun _ => rfl)) fun _ => ?_
  apply kept_ite (kept_fail _)
  apply kept_bind (kept_bind (kept_tame tame_cia401) fun _ => kept_cia402_init)
  intro _
  apply kept_bind (kept_tame (app_ask _))
  intro timer
  apply kept_ite
  · exact kept_bind (kept_tame tame_force_safe) fun _ => kept_fail _
  apply kept_bind (kept_tame tame_timer_start)
  intro _
  exact kept_bind kept_normal fun _ => kept_tame tame_running

theorem kept_recovery (now : UInt32) : Kept (processCanRecovery now) := by
  unfold processCanRecovery Platform.processCanRecovery
  apply kept_bind (kept_tame (app_fetch _))
  intro pending
  refine kept_bind (kept_when (kept_bind (kept_tame (app_assign fun _ => rfl)) fun _ =>
    kept_request now)) fun _ => ?_
  apply kept_bind (kept_tame (app_fetch _))
  intro ready
  apply kept_ite (kept_pure _)
  refine kept_bind (kept_tame (app_assign fun _ => rfl)) fun _ => ?_
  apply kept_bind kept_reset
  intro result
  refine kept_bind (kept_tame (app_assign fun _ => rfl)) fun _ => ?_
  apply kept_bind (kept_tame (app_report fun hc => by cases hc))
  intro _
  refine kept_bind (kept_tame (app_assign fun _ => rfl)) fun _ => ?_
  apply kept_ite (kept_pure _)
  apply kept_bind (kept_tame (app_fetch _))
  intro state
  exact kept_when (kept_bind (kept_fail _) fun _ => kept_pure _)

theorem kept_init (complete : Bool) : Kept (canopenAppInit complete) := by
  unfold canopenAppInit Platform.canopenAppInit
  apply kept_ite (kept_pure _)
  refine kept_bind (kept_tame (app_assign fun _ => rfl)) fun _ => ?_
  apply kept_bind (kept_tame (app_state _))
  intro _
  refine kept_bind (kept_tame (app_assign fun _ => rfl)) fun _ => ?_
  refine kept_bind (kept_tame (app_assign fun _ => rfl)) fun _ => ?_
  refine kept_bind (kept_tame (app_assign fun _ => rfl)) fun _ => ?_
  refine kept_bind (kept_tame (app_assign fun _ => rfl)) fun _ => ?_
  apply kept_bind (kept_tame tame_force_safe)
  intro _
  apply kept_bind (kept_tame (app_ask _))
  intro created
  refine kept_bind (kept_tame (app_stack fun a stack hs => ?_)) fun _ => ?_
  · cases created with
    | false => cases hs
    | true =>
      cases hs
      rfl
  apply kept_ite
  · exact kept_bind (kept_tame tame_force_safe) fun _ => kept_pure _
  apply kept_bind kept_reset
  intro result
  apply kept_ite
  · apply kept_bind (kept_fail _)
    intro _
    apply kept_bind (kept_tame tame_force_safe)
    intro _
    exact kept_bind (kept_tame (app_stack fun a stack hs => by cases hs)) fun _ => kept_pure _
  · exact kept_pure _

theorem kept_pass (now : UInt32) : Kept (canopenAppPass now) := by
  unfold canopenAppPass Platform.canopenAppPass
  apply kept_bind (kept_tame (app_ask _))
  intro command
  refine kept_bind (kept_tame (app_perform (fun _ _ => rfl) fun hc => by cases hc)) fun _ => ?_
  apply kept_bind (kept_tame (app_fetch _))
  intro resetPending
  apply kept_ite
  · refine kept_bind (kept_tame (app_assign fun _ => rfl)) fun _ => ?_
    exact kept_bind (kept_tame tame_force_safe) fun _ => kept_mcu_reset
  apply kept_ite
  · apply kept_bind (kept_tame (app_state _))
    intro _
    apply kept_bind (kept_tame tame_timer_stop)
    intro _
    refine kept_bind (kept_tame (app_stack fun a stack hs => by cases hs)) fun _ => ?_
    apply kept_bind (kept_init true)
    intro result
    exact kept_when (kept_bind (kept_fail _) fun _ => kept_pure _)
  apply kept_ite
  · exact kept_bind (kept_tame tame_force_safe) fun _ => kept_mcu_reset
  · exact kept_pure _

theorem kept_process : Kept canopenAppProcess := by
  unfold canopenAppProcess Platform.canopenAppProcess
  apply kept_bind (kept_tame (app_fetch _))
  intro stopped
  apply kept_ite (kept_pure _)
  apply kept_bind (kept_tame (app_ask _))
  intro now
  apply kept_bind (kept_recovery now)
  intro _
  apply kept_bind (kept_tame (app_fetch _))
  intro lastTick
  apply kept_ite (kept_pure _)
  refine kept_bind (kept_tame (app_assign fun _ => rfl)) fun _ => ?_
  apply kept_bind (kept_tame (tame_co_process _))
  intro _
  exact kept_pass now

theorem kept_entry (entry : Entry) : Kept (plantEntry entry) := by
  cases entry with
  | init complete =>
    apply kept_bind (kept_tame (app_report fun hc => by cases hc))
    intro _
    exact kept_bind (kept_init complete) fun _ => kept_pure _
  | process => exact kept_process

end Program

theorem power_on_known : Known powerOnPlant [] :=
  ⟨(fun _ _ hf => by cases hf),(fun hd => by cases hd),fun _ hw => by cases hw⟩

/-- What is known holds in every state of every run. -/
theorem known_run (turns : List (Turn Entry PlantAnswer PlantInterrupt)) :
    Known (run plantTurn ⟨powerOnPlant,none⟩ turns).1.state
      (run plantTurn ⟨powerOnPlant,none⟩ turns).2 :=
  run_within plantEntry known (fun _ _ h => h) kept_entry powerOnPlant turns power_on_known

/-- Outputs that a take-down has forced are safe, and all of them are while
CANnormal is away. -/
def TakenDown (s : Plant) (past : List PlantEvent) : Prop :=
  (∀ output, Forced output past → SafeAt output s.outputs) ∧
    (Down past → s.outputs = safeOutputs)

/-- Where no served timer interrupt drives a forced output before CANnormal is
taken away, the outputs are safe from their forcing until CANnormal comes back. -/
theorem taken_down_safe (turns : List (Turn Entry PlantAnswer PlantInterrupt))
    (h : Always Undisturbed (run plantTurn ⟨powerOnPlant,none⟩ turns).2) :
    TakenDown (run plantTurn ⟨powerOnPlant,none⟩ turns).1.state
      (run plantTurn ⟨powerOnPlant,none⟩ turns).2 := by
  have hknown := known_run turns
  refine ⟨hknown.forced h,fun hdown => ?_⟩
  rw [safe_iff]
  intro output
  exact hknown.forced h output ((hknown.down hdown).2 output)

def noCommands : Commands := ⟨0,0,⟨0,0,0,0,0⟩⟩

def plantStatements (count : Nat) (tick : UInt32) (ok : Bool) :
    List (Turn Entry PlantAnswer PlantInterrupt) :=
  List.replicate count (.statement ⟨⟨tick,ok,.resetNot,[]⟩,noCommands⟩)

/-- A timer interrupt behind an RPDO that writes the digital outputs. -/
def rpdoTimer (digital : UInt8) : Turn Entry PlantAnswer PlantInterrupt :=
  .interrupt (.timer
    { nodeIdUnconfigured := false
      commands := { noCommands with digital := digital }
      digitalInputs := 0
      analogInput1 := 0
      analogInput2 := 0
      feedback := ⟨0,0,0,0,false,false⟩ })

def startedRun : List (Turn Entry PlantAnswer PlantInterrupt) :=
  .enter (.init true)::plantStatements 80 0 true

/-- A bus-off, and the request for its recovery. -/
def requestRun : List (Turn Entry PlantAnswer PlantInterrupt) :=
  .interrupt (.can (.error true))::.enter .process::plantStatements 20 1 true

/-- The first attempt, up to the forcing of the outputs. -/
def forcedRun : List (Turn Entry PlantAnswer PlantInterrupt) :=
  startedRun++rpdoTimer 1::requestRun++.enter .process::plantStatements 16 101 true

theorem taken_down_safe_attempt :
    Down (run plantTurn ⟨powerOnPlant,none⟩ (forcedRun++plantStatements 10 101 true)).2 ∧
      (run plantTurn ⟨powerOnPlant,none⟩
        (forcedRun++plantStatements 10 101 true)).1.state.outputs = safeOutputs := by
  have hdown : Down
      (run plantTurn ⟨powerOnPlant,none⟩ (forcedRun++plantStatements 10 101 true)).2 := by
    decide +kernel
  have h := taken_down_safe (forcedRun++plantStatements 10 101 true) (by decide +kernel)
  exact ⟨hdown,h.2 hdown⟩

/-- An interrupt between the forcing and the end of CANnormal leaves the digital
outputs driven. -/
theorem taken_down_redriven :
    ¬TakenDown
      (run plantTurn ⟨powerOnPlant,none⟩ (forcedRun++rpdoTimer 1::plantStatements 1 101 true)).1.state
      (run plantTurn ⟨powerOnPlant,none⟩ (forcedRun++rpdoTimer 1::plantStatements 1 101 true)).2 := by
  rintro ⟨-,hdown⟩
  have hout := hdown (by decide +kernel)
  exact absurd hout (by decide +kernel)

/-- The outputs are safe while recovery is waited for. -/
def SafeWait (s : Plant) (past : List PlantEvent) : Prop :=
  Waiting past → s.outputs = safeOutputs

/-- Where the outputs are safe when recovery is requested, and no served timer
interrupt drives one until a reset has succeeded, they are safe all along. -/
theorem safe_wait (turns : List (Turn Entry PlantAnswer PlantInterrupt))
    (h : Always Restrained (run plantTurn ⟨powerOnPlant,none⟩ turns).2) :
    SafeWait (run plantTurn ⟨powerOnPlant,none⟩ turns).1.state
      (run plantTurn ⟨powerOnPlant,none⟩ turns).2 :=
  (known_run turns).waiting h

def restrainedRun : List (Turn Entry PlantAnswer PlantInterrupt) :=
  startedRun++rpdoTimer 1::rpdoTimer 0::requestRun++
  rpdoTimer 0::.enter .process::plantStatements 60 101 false

theorem safe_wait_failed :
    Waiting (run plantTurn ⟨powerOnPlant,none⟩ restrainedRun).2 ∧
      (run plantTurn ⟨powerOnPlant,none⟩ restrainedRun).1.state.outputs = safeOutputs := by
  have hwait : Waiting (run plantTurn ⟨powerOnPlant,none⟩ restrainedRun).2 := by decide +kernel
  exact ⟨hwait,safe_wait restrainedRun (by decide +kernel) hwait⟩

/-- Nothing is forced by the request: the outputs stay driven behind the call. -/
theorem wait_driven :
    (run plantTurn ⟨powerOnPlant,none⟩ (startedRun++rpdoTimer 1::requestRun)).1.current.isNone =
        true ∧
      ¬SafeWait (run plantTurn ⟨powerOnPlant,none⟩ (startedRun++rpdoTimer 1::requestRun)).1.state
        (run plantTurn ⟨powerOnPlant,none⟩ (startedRun++rpdoTimer 1::requestRun)).2 := by
  refine ⟨by decide +kernel,fun hsafe => ?_⟩
  have hout := hsafe (by decide +kernel)
  exact absurd hout (by decide +kernel)

end CanopenReference.TakeDown
