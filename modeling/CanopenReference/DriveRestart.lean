import CanopenReference.Library.History
import CanopenReference.Cia402

/-!
# The way back from a fault

A fault is left by a reset cycle alone, and from there the drive is enabled by
three further transitions in their order. The reset acts on the level of its
bit, so a bit that is held through the fault counts as well.
-/

set_option autoImplicit false

namespace CanopenReference.DriveRestart
open Library.Runs Library.History Cia402

/-- The state that the statusword names. -/
def driveState (od : OdApp) : UInt16 := od.statusword &&& statusStateMask

structure Cycle where
  before : UInt16
  written : Written
  feedback : Feedback
  after : UInt16
  deriving DecidableEq

def cycleStep (od : OdApp) (i : Written × Feedback) : OdApp × List Cycle :=
  let next := (driveStep od (.process1ms i.1 i.2)).1
  (next,[⟨driveState od,i.1,i.2,driveState next⟩])

/-- No hardware fault, and healthy interlocks. -/
def Clear (f : Feedback) : Prop := f.hardwareFault = false ∧ f.interlocksHealthy = true

def Commands (w : Written) (bits : UInt16) : Prop := w.controlword &&& bits = bits

/-- The fault-reset bit is set in a cycle without a fault. -/
def Resets (c : Cycle) : Prop := Clear c.feedback ∧ c.written.controlword &&& cwFaultReset ≠ 0

def Readies (c : Cycle) : Prop :=
  c.before = statusSwitchOnDisabled ∧ c.after = statusReadyToSwitchOn ∧
    Commands c.written (cwEnableVoltage ||| cwQuickStop)

def SwitchesOn (c : Cycle) : Prop :=
  c.before = statusReadyToSwitchOn ∧ c.after = statusSwitchedOn ∧
    Commands c.written (cwSwitchOn ||| cwEnableVoltage ||| cwQuickStop)

def Enables (c : Cycle) : Prop :=
  c.before ≠ statusOperationEnabled ∧ c.after = statusOperationEnabled ∧
    Commands c.written cwLowNibble

def FaultState (state : UInt16) : Prop := state = statusFault ∨ state = statusFaultReaction

inductive Moves (state : UInt16) (w : Written) (f : Feedback) : UInt16 → Prop
  | faults (h : ¬Clear f ∨ FaultState state ∧ w.controlword &&& cwFaultReset = 0) :
      Moves state w f statusFault
  | disables (h : Clear f) (hreset : FaultState state → w.controlword &&& cwFaultReset ≠ 0) :
      Moves state w f statusSwitchOnDisabled
  | readies (h : state = statusSwitchOnDisabled)
      (hw : Commands w (cwEnableVoltage ||| cwQuickStop)) :
      Moves state w f statusReadyToSwitchOn
  | switchesOn (h : state = statusReadyToSwitchOn)
      (hw : Commands w (cwSwitchOn ||| cwEnableVoltage ||| cwQuickStop)) :
      Moves state w f statusSwitchedOn
  | enables (h : state = statusSwitchedOn ∨ state = statusQuickStopActive)
      (hw : Commands w cwLowNibble) : Moves state w f statusOperationEnabled
  | switchesOff (h : state = statusSwitchedOn) : Moves state w f statusReadyToSwitchOn
  | stopsOperation (h : state = statusOperationEnabled ∨ state = statusQuickStopActive) :
      Moves state w f statusSwitchedOn
  | stopsQuickly (h : state = statusSwitchedOn ∨ state = statusOperationEnabled) :
      Moves state w f statusQuickStopActive
  | stays (h : state = statusReadyToSwitchOn ∨ state = statusSwitchedOn ∨
      state = statusOperationEnabled ∨ state = statusQuickStopActive) : Moves state w f state

theorem state_masked (s : UInt16) (hmask : s &&& statusStateMask = s) {w : Written} {f : Feedback}
    {state : UInt16} (h : Moves state w f s) : Moves state w f (s &&& statusStateMask) := by
  rwa [hmask]

theorem switch_moves {statusword next : UInt16} {w : Written} {f : Feedback} (hclear : Clear f)
    (hstate : ¬FaultState (statusword &&& statusStateMask))
    (h : switchStatus statusword w.controlword = some next) :
    Moves (statusword &&& statusStateMask) w f (next &&& statusStateMask) := by
  have hdisabled : Moves (statusword &&& statusStateMask) w f statusSwitchOnDisabled :=
    .disables hclear fun hf => absurd hf hstate
  cases switch_cases h with
  | readies hs hw => exact state_masked _ (by decide) (.readies hs hw)
  | switchesOn hs hw => exact state_masked _ (by decide) (.switchesOn hs hw)
  | enables hs hw => exact state_masked _ (by decide) (.enables hs hw)
  | disables => exact state_masked _ (by decide) hdisabled
  | switchesOff hs => exact state_masked _ (by decide) (.switchesOff hs)
  | stopsOperation hs => exact state_masked _ (by decide) (.stopsOperation hs)
  | stopsQuickly hs =>
    refine state_masked _ (by decide) ?_
    rcases hs with hs | hs | hs
    · exact .stopsQuickly (Or.inl hs)
    · exact .stopsQuickly (Or.inr hs)
    · rw [hs]
      exact .stays (Or.inr (Or.inr (Or.inr rfl)))
  | stays hs =>
    rcases hs with hs | hs | hs
    · rw [hs] at hdisabled ⊢
      exact hdisabled
    · exact .stays (Or.inl hs)
    · exact .stays (Or.inr (Or.inl hs))
  | staysEnabled hs _ _ _ => exact .stays (Or.inr (Or.inr (Or.inl hs)))

theorem state_eq {od : OdApp} (s : UInt16) (h : od.statusword = s)
    (hmask : s &&& statusStateMask = s) : driveState od = s := by
  rw [driveState,h,hmask]

theorem apply_state (od : OdApp) :
    driveState (applyStatus od).1 = driveState od ∨
      driveState (applyStatus od).1 = statusSwitchOnDisabled := by
  unfold applyStatus
  split
  · split
    · exact Or.inl rfl
    · exact Or.inr (state_eq statusSwitchOnDisabled rfl (by decide))
  · exact Or.inl rfl

theorem moves_fault {state : UInt16} {w : Written} {f : Feedback} {od : OdApp}
    (hs : od.statusword = statusFault)
    (h : ¬Clear f ∨ FaultState state ∧ w.controlword &&& cwFaultReset = 0) :
    Moves state w f (driveState od) := by
  rw [state_eq statusFault hs (by decide)]
  exact .faults h

theorem moves_disabled {state : UInt16} {w : Written} {f : Feedback} {od : OdApp}
    (hs : od.statusword = statusSwitchOnDisabled) (h : Clear f)
    (hreset : FaultState state → w.controlword &&& cwFaultReset ≠ 0) :
    Moves state w f (driveState od) := by
  rw [state_eq statusSwitchOnDisabled hs (by decide)]
  exact .disables h hreset

theorem cycle_moves (od : OdApp) (i : Written × Feedback) :
    Moves (driveState od) i.1 i.2 (driveState (cycleStep od i).1) := by
  obtain ⟨w,f⟩ := i
  simp only [cycleStep,driveStep,process1ms]
  split
  · rename_i hunsafe
    refine moves_fault rfl (Or.inl fun hclear => ?_)
    rw [hclear.1,hclear.2] at hunsafe
    exact absurd hunsafe (by decide)
  rename_i hsafe
  simp only [not_or,Bool.not_eq_true,Bool.not_eq_false'] at hsafe
  split
  · rename_i hfault
    split
    · rename_i hreset
      exact moves_disabled rfl hsafe fun _ => hreset
    · rename_i hreset
      exact moves_fault rfl (Or.inr ⟨hfault,not_not.mp hreset⟩)
  rename_i hstate
  have hnot : FaultState (driveState od) → w.controlword &&& cwFaultReset ≠ 0 :=
    fun h => absurd h hstate
  cases hn : switchStatus (write od w).statusword (write od w).controlword with
  | none => exact moves_disabled rfl hsafe hnot
  | some next =>
    have hmoves := switch_moves hsafe hstate hn
    rcases apply_state { write od w with
        positionActualValue := f.position, velocityActualValue := f.velocity
        torqueActualValue := f.torque, errorCode := f.errorCode, statusword := next }
      with he | he
    · rw [he]
      exact hmoves
    · rw [he]
      exact .disables hsafe hnot

/-- What must have happened since the fault in each state. -/
def stages (state : UInt16) : List (Cycle → Prop) :=
  if state = statusFault ∨ state = statusFaultReaction then []
  else if state = statusReadyToSwitchOn then [Resets,Readies]
  else if state = statusSwitchedOn ∨ state = statusQuickStopActive then
    [Resets,Readies,SwitchesOn]
  else if state = statusOperationEnabled then [Resets,Readies,SwitchesOn,Enables]
  else [Resets]

theorem stages_reset {state : UInt16} (h : ¬FaultState state) :
    ∃ later, stages state = [Resets]++later := by
  unfold FaultState at h
  unfold stages
  rw [if_neg h]
  split
  · exact ⟨_,rfl⟩
  split
  · exact ⟨_,rfl⟩
  split <;> exact ⟨_,rfl⟩

theorem cycle_stages (od : OdApp) (i : Written × Feedback) (past : List Cycle)
    (h : Passed (stages (driveState od)) past) :
    Passed (stages (driveState (cycleStep od i).1)) (past++(cycleStep od i).2) := by
  have hmoves := cycle_moves od i
  have hcycle : (cycleStep od i).2 =
      [⟨driveState od,i.1,i.2,driveState (cycleStep od i).1⟩] := rfl
  rw [hcycle]
  generalize driveState od = state at hmoves h ⊢
  generalize driveState (cycleStep od i).1 = next at hmoves ⊢
  cases hmoves with
  | faults _ => exact passed_nil
  | disables hclear hreset =>
    by_cases hfault : FaultState state
    · exact passed_next passed_nil ⟨hclear,hreset hfault⟩
    · obtain ⟨later,hl⟩ := stages_reset hfault
      rw [hl] at h
      exact passed_append _ (passed_front h)
  | readies hs hw =>
    subst hs
    show Passed ([Resets]++[Readies]) _
    exact passed_next h ⟨rfl,rfl,hw⟩
  | switchesOn hs hw =>
    subst hs
    show Passed ([Resets,Readies]++[SwitchesOn]) _
    exact passed_next h ⟨rfl,rfl,hw⟩
  | enables hs hw =>
    show Passed ([Resets,Readies,SwitchesOn]++[Enables]) _
    rcases hs with rfl | rfl
    · exact passed_next h ⟨show statusSwitchedOn ≠ statusOperationEnabled by decide,rfl,hw⟩
    · exact passed_next h ⟨show statusQuickStopActive ≠ statusOperationEnabled by decide,rfl,hw⟩
  | switchesOff hs =>
    subst hs
    have hfront : Passed ([Resets,Readies]++[SwitchesOn]) past := h
    exact passed_append _ (passed_front hfront)
  | stopsOperation hs =>
    rcases hs with rfl | rfl
    · have hfront : Passed ([Resets,Readies,SwitchesOn]++[Enables]) past := h
      exact passed_append _ (passed_front hfront)
    · exact passed_append _ h
  | stopsQuickly hs =>
    rcases hs with rfl | rfl
    · exact passed_append _ h
    · have hfront : Passed ([Resets,Readies,SwitchesOn]++[Enables]) past := h
      exact passed_append _ (passed_front hfront)
  | stays _ => exact passed_append _ h

theorem fault_kept (od : OdApp) (i : Written × Feedback) (h : driveState od = statusFault)
    (hreset : ∀ c ∈ (cycleStep od i).2, ¬Resets c) :
    driveState (cycleStep od i).1 = statusFault := by
  have hno : ¬(Clear i.2 ∧ i.1.controlword &&& cwFaultReset ≠ 0) :=
    hreset ⟨driveState od,i.1,i.2,driveState (cycleStep od i).1⟩ (List.mem_singleton.mpr rfl)
  have hmoves := cycle_moves od i
  rw [h] at hmoves
  generalize driveState (cycleStep od i).1 = next at hmoves ⊢
  cases hmoves with
  | faults _ => rfl
  | disables hclear hbit => exact absurd ⟨hclear,hbit (Or.inl rfl)⟩ hno
  | readies hs _ => exact absurd hs (by decide)
  | switchesOn hs _ => exact absurd hs (by decide)
  | enables hs _ => exact absurd hs (by decide)
  | switchesOff hs => exact absurd hs (by decide)
  | stopsOperation hs => exact absurd hs (by decide)
  | stopsQuickly hs => exact absurd hs (by decide)
  | stays hs => exact absurd hs (by decide)

/-- As long as no reset has come, the state is the fault. -/
def Latched (past : List Cycle) (c : Cycle) : Prop :=
  (∀ r ∈ past++[c], ¬Resets r) → c.after = statusFault

/-- Whoever is enabled has gone through the reset and the three transitions. -/
def Sequenced (past : List Cycle) (c : Cycle) : Prop :=
  c.after = statusOperationEnabled →
    Passed [Resets,Readies,SwitchesOn,Enables] (past++[c])

structure SinceFault (od : OdApp) (past : List Cycle) : Prop where
  passed : Passed (stages (driveState od)) past
  still : (∀ r ∈ past, ¬Resets r) → driveState od = statusFault
  latched : Always Latched past
  sequenced : Always Sequenced past

theorem since_cycle (od : OdApp) (past : List Cycle) (i : Written × Feedback)
    (h : SinceFault od past) : SinceFault (cycleStep od i).1 (past++(cycleStep od i).2) := by
  have hpassed := cycle_stages od i past h.passed
  have hstill : (∀ r ∈ past++(cycleStep od i).2, ¬Resets r) →
      driveState (cycleStep od i).1 = statusFault := by
    intro hno
    have hbefore := h.still fun r hr => hno r (List.mem_append_left _ hr)
    exact fault_kept od i hbefore fun r hr => hno r (List.mem_append_right _ hr)
  refine ⟨hpassed,hstill,always_concat h.latched hstill,always_concat h.sequenced fun he => ?_⟩
  have hstate : driveState (cycleStep od i).1 = statusOperationEnabled := he
  rw [hstate] at hpassed
  exact hpassed

theorem since_run (od : OdApp) (inputs : List (Written × Feedback))
    (h : driveState od = statusFault) :
    SinceFault (run cycleStep od inputs).1 (run cycleStep od inputs).2 := by
  have hstart : SinceFault od [] := by
    refine ⟨?_,fun _ => h,always_nil,always_nil⟩
    rw [h]
    exact passed_nil
  have hrun := along_history cycleStep (fun _ _ => True) SinceFault
    (fun od past i h _ => since_cycle od past i h) od [] inputs hstart (along_true _ _ _)
  exact hrun

def idleDrive : OdApp := (init ⟨0,0,0,0,0,0,0,0,0,0,0⟩).1

def commanded (controlword : UInt16) (hardwareFault : Bool) : Written × Feedback :=
  (⟨controlword,3,0,0,0⟩,⟨0,0,0,0,hardwareFault,true⟩)

/-- A fault is latched until a reset cycle, and an enabled drive has gone
through the whole sequence since. -/
theorem restart_sequence (od : OdApp) (inputs : List (Written × Feedback))
    (h : driveState od = statusFault) :
    Always Latched (run cycleStep od inputs).2 ∧ Always Sequenced (run cycleStep od inputs).2 :=
  ⟨(since_run od inputs h).latched,(since_run od inputs h).sequenced⟩

theorem restart_sequence_once :
    let od := (run cycleStep idleDrive [commanded 0x000F true]).1
    let cycles := (run cycleStep od [commanded 0x000F false,commanded 0x0080 true,
      commanded 0x0080 false,commanded 0x0006 false,commanded 0x0007 false,
      commanded 0x000F false]).2
    driveState od = statusFault ∧ Always Latched cycles ∧ Always Sequenced cycles :=
  ⟨by decide,restart_sequence _ _ (by decide)⟩

section Held
variable {controlword : UInt16}

theorem held_cycles (od : OdApp) (inputs : List (Written × Feedback))
    (h : ∀ i ∈ inputs, i.1.controlword = controlword) :
    ∀ c ∈ (run cycleStep od inputs).2, c.written.controlword = controlword := by
  refine along_events cycleStep (fun _ i => i.1.controlword = controlword) (fun _ => True) _
    (fun _ _ _ _ => trivial) ?_ od inputs trivial (along_forall _ od inputs h)
  intro s i _ hi c hc
  rw [List.mem_singleton.mp hc]
  exact hi

theorem nibble_part {part : UInt16} (h : cwLowNibble &&& part = part) :
    controlword &&& part = (controlword &&& cwLowNibble) &&& part := by
  rw [UInt16.and_assoc,h]

def Quiet (i : Written × Feedback) : Prop :=
  Clear i.2 ∧ modeIsSupported i.1.modesOfOperation = true

theorem clear_safe {f : Feedback} (h : Clear f) :
    ¬(f.hardwareFault = true ∨ (!f.interlocksHealthy) = true) := by
  rw [h.1,h.2]
  decide

theorem quiet_switches {od : OdApp} {i : Written × Feedback} {next : UInt16} (hi : Quiet i)
    (hstate : ¬FaultState (driveState od))
    (hn : switchStatus od.statusword i.1.controlword = some next) :
    (cycleStep od i).1.statusword = next := by
  obtain ⟨w,f⟩ := i
  simp only [cycleStep,driveStep,process1ms]
  split
  · rename_i hunsafe
    exact absurd hunsafe (clear_safe hi.1)
  split
  · rename_i hfault
    exact absurd hfault hstate
  split
  · rename_i hnone
    rw [show switchStatus (write od w).statusword (write od w).controlword = some next from hn]
      at hnone
    cases hnone
  rename_i statusword hsome
  rw [show switchStatus (write od w).statusword (write od w).controlword = some next from hn]
    at hsome
  cases hsome
  unfold applyStatus
  split
  · split
    · rfl
    · rename_i hmode
      exact absurd hi.2 hmode
  · rfl

theorem quiet_resets {od : OdApp} {i : Written × Feedback} (hi : Quiet i)
    (hstate : driveState od = statusFault) (hreset : i.1.controlword &&& cwFaultReset ≠ 0) :
    (cycleStep od i).1.statusword = statusSwitchOnDisabled := by
  obtain ⟨w,f⟩ := i
  simp only [cycleStep,driveStep,process1ms]
  split
  · rename_i hunsafe
    exact absurd hunsafe (clear_safe hi.1)
  split
  · split
    · rfl
    · rename_i hno
      exact absurd hreset hno
  · rename_i hno
    exact absurd (Or.inl hstate) hno

theorem quiet_climbs {od : OdApp} {i : Written × Feedback} (hi : Quiet i)
    (hnibble : Commands i.1 cwLowNibble) :
    (od.statusword = statusSwitchOnDisabled →
      (cycleStep od i).1.statusword = statusReadyToSwitchOn) ∧
    (od.statusword = statusReadyToSwitchOn → (cycleStep od i).1.statusword = statusSwitchedOn) ∧
    (od.statusword = statusSwitchedOn →
      (cycleStep od i).1.statusword = statusOperationEnabled) := by
  have hfour : i.1.controlword &&& cwLowNibble = cwLowNibble := hnibble
  have hpart : ∀ part, cwLowNibble &&& part = part → i.1.controlword &&& part = part := by
    intro part h
    rw [nibble_part h,hfour,h]
  have hready := hpart (cwEnableVoltage ||| cwQuickStop) (by decide)
  have hon := hpart (cwSwitchOn ||| cwEnableVoltage ||| cwQuickStop) (by decide)
  have hvoltage : i.1.controlword &&& cwEnableVoltage ≠ 0 := by
    rw [hpart cwEnableVoltage (by decide)]
    decide
  have hquick : i.1.controlword &&& cwQuickStop ≠ 0 := by
    rw [hpart cwQuickStop (by decide)]
    decide
  have hswitch : i.1.controlword &&& cwSwitchOn ≠ 0 := by
    rw [hpart cwSwitchOn (by decide)]
    decide
  refine ⟨fun hs => quiet_switches hi ?_ ?_,fun hs => quiet_switches hi ?_ ?_,
    fun hs => quiet_switches hi ?_ ?_⟩
  · rw [driveState,hs,FaultState]
    decide
  · unfold switchStatus
    simp only [hs]
    rw [if_pos (by decide),if_pos hready]
  · rw [driveState,hs,FaultState]
    decide
  · unfold switchStatus
    simp only [hs]
    rw [if_neg (by decide),if_pos (by decide),if_neg (not_not.mpr hready),if_pos hon]
  · rw [driveState,hs,FaultState]
    decide
  · unfold switchStatus
    simp only [hs]
    rw [if_neg (by decide),if_neg (by decide),if_pos (by decide),if_neg hvoltage,
      if_neg hquick,if_neg hswitch]
    exact if_pos hfour

theorem quiet_enables {od : OdApp} {i : Written × Feedback} (hi : Quiet i)
    (hstate : driveState od = statusFault) (hreset : i.1.controlword &&& cwFaultReset ≠ 0)
    (hnibble : Commands i.1 cwLowNibble) :
    isEnabled (run cycleStep od [i,i,i,i]).1 := by
  have hdisabled := quiet_resets hi hstate hreset
  have hready := (quiet_climbs hi hnibble).1 hdisabled
  have hon := (quiet_climbs hi hnibble).2.1 hready
  have henabled := (quiet_climbs hi hnibble).2.2 hon
  simp only [run_cons,run_nil]
  rw [isEnabled,henabled]
  decide

end Held

/-- The reset acts on the level of its bit: a controlword held from the fault on
enables the drive again exactly if it has the reset bit and the low nibble set. -/
theorem level_restart (od : OdApp) (h : driveState od = statusFault) :
    (∀ inputs, isEnabled (run cycleStep od inputs).1 →
      ∃ c ∈ (run cycleStep od inputs).2, Resets c) ∧
    ∀ controlword, (∃ inputs, (∀ i ∈ inputs, i.1.controlword = controlword) ∧
        isEnabled (run cycleStep od inputs).1) ↔
      controlword &&& cwFaultReset ≠ 0 ∧ controlword &&& cwLowNibble = cwLowNibble := by
  have hpassed : ∀ inputs, isEnabled (run cycleStep od inputs).1 →
      Passed [Resets,Readies,SwitchesOn,Enables] (run cycleStep od inputs).2 := by
    intro inputs he
    have hsince := (since_run od inputs h).passed
    rw [show driveState (run cycleStep od inputs).1 = statusOperationEnabled from he] at hsince
    exact hsince
  refine ⟨fun inputs he => passed_mem (hpassed inputs he) (by simp),fun controlword => ?_⟩
  constructor
  · rintro ⟨inputs,hheld,he⟩
    have hresets : ∃ c ∈ (run cycleStep od inputs).2, Resets c :=
      passed_mem (hpassed inputs he) (by simp)
    have henables : ∃ c ∈ (run cycleStep od inputs).2, Enables c :=
      passed_mem (hpassed inputs he) (by simp)
    obtain ⟨r,hr,-,hreset⟩ := hresets
    obtain ⟨e,he,-,-,hnibble⟩ := henables
    rw [held_cycles od inputs hheld r hr] at hreset
    rw [Commands,held_cycles od inputs hheld e he] at hnibble
    exact ⟨hreset,hnibble⟩
  · rintro ⟨hreset,hnibble⟩
    refine ⟨List.replicate 4 (⟨controlword,3,0,0,0⟩,⟨0,0,0,0,false,true⟩),?_,?_⟩
    · intro i hi
      rw [List.eq_of_mem_replicate hi]
    · exact quiet_enables ⟨⟨rfl,rfl⟩,show modeIsSupported 3 = true by decide⟩ h hreset hnibble

theorem level_restart_once :
    let od := (run cycleStep idleDrive [commanded 0x008F true]).1
    (∀ inputs, isEnabled (run cycleStep od inputs).1 →
      ∃ c ∈ (run cycleStep od inputs).2, Resets c) ∧
    ∀ controlword, (∃ inputs, (∀ i ∈ inputs, i.1.controlword = controlword) ∧
        isEnabled (run cycleStep od inputs).1) ↔
      controlword &&& cwFaultReset ≠ 0 ∧ controlword &&& cwLowNibble = cwLowNibble :=
  level_restart _ (by decide)

/-- A rising edge of the fault-reset bit within these cycles. -/
def ResetEdge (cycles : List Cycle) : Prop :=
  ∃ x y, [x,y].Sublist cycles ∧ x.written.controlword &&& cwFaultReset = 0 ∧
    y.written.controlword &&& cwFaultReset ≠ 0

/-- A drive that is commanded with 0x8F all along comes back after a fault. -/
theorem held_command_restarts :
    ¬∀ od inputs before between rest entry last,
      (run cycleStep (init od).1 inputs).2 = before++entry::between++last::rest →
        entry.before ≠ statusFault → entry.after = statusFault →
          last.after = statusOperationEnabled → ResetEdge (entry::between++[last]) := by
  intro hall
  let up := commanded 0x008F false
  let fault := commanded 0x008F true
  let first : Cycle := ⟨statusSwitchOnDisabled,up.1,up.2,statusReadyToSwitchOn⟩
  let second : Cycle := ⟨statusReadyToSwitchOn,up.1,up.2,statusSwitchedOn⟩
  let third : Cycle := ⟨statusSwitchedOn,up.1,up.2,statusOperationEnabled⟩
  let entry : Cycle := ⟨statusOperationEnabled,fault.1,fault.2,statusFault⟩
  let reset : Cycle := ⟨statusFault,up.1,up.2,statusSwitchOnDisabled⟩
  have hedge : ResetEdge [entry,reset,first,second,third] :=
    hall ⟨0,0,0,0,0,0,0,0,0,0,0⟩ [up,up,up,fault,up,up,up,up] [first,second,third]
      [reset,first,second] [] entry third (by decide) (by decide) (by decide) (by decide)
  obtain ⟨x,y,hsub,hx,-⟩ := hedge
  have hheld : ∀ c ∈ [entry,reset,first,second,third],
      c.written.controlword &&& cwFaultReset ≠ 0 := by decide
  exact hheld x (hsub.subset (List.mem_cons_self ..)) hx

end CanopenReference.DriveRestart
