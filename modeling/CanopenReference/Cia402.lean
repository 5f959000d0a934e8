import CanopenReference.Library.Runs

/-!
# The CiA 402 drive reference

The statusword machine of `cia402_reference.c` as built with the profile
enabled. What the hardware adapter reads is an input of each cycle; what it is
told is listed in order. Drive enable follows the masked statusword, and an
enabled statusword is at least three cycles away from switch-on-disabled.
-/

set_option autoImplicit false

namespace CanopenReference.Cia402
open Library.Runs

def statusStateMask : UInt16 := 0x006F
def statusSwitchOnDisabled : UInt16 := 0x0040
def statusReadyToSwitchOn : UInt16 := 0x0021
def statusSwitchedOn : UInt16 := 0x0023
def statusOperationEnabled : UInt16 := 0x0027
def statusQuickStopActive : UInt16 := 0x0007
def statusFaultReaction : UInt16 := 0x000F
def statusFault : UInt16 := 0x0008

def cwSwitchOn : UInt16 := 0x0001
def cwEnableVoltage : UInt16 := 0x0002
def cwQuickStop : UInt16 := 0x0004
def cwEnableOperation : UInt16 := 0x0008
def cwFaultReset : UInt16 := 0x0080
def cwLowNibble : UInt16 := 0x000F

/-- The drive objects of the object dictionary. -/
structure OdApp where
  errorCode : UInt16
  controlword : UInt16
  statusword : UInt16
  modesOfOperation : Int8
  modesOfOperationDisplay : Int8
  positionActualValue : Int32
  velocityActualValue : Int32
  torqueActualValue : Int16
  targetTorque : Int16
  targetPosition : Int32
  targetVelocity : Int32
  deriving DecidableEq

structure Feedback where
  position : Int32
  velocity : Int32
  torque : Int16
  errorCode : UInt16
  hardwareFault : Bool
  interlocksHealthy : Bool
  deriving DecidableEq

inductive DriveCall where
  | driveSetEnable (enable : Bool)
  | driveCommand (mode : Int8) (position velocity : Int32) (torque : Int16)
  deriving DecidableEq

def modeIsSupported (mode : Int8) : Bool :=
  [-3,-1,1,3,4,6,8,9,10].contains mode

def forceDisable (od : OdApp) : OdApp × List DriveCall :=
  ({ od with statusword := statusSwitchOnDisabled, modesOfOperationDisplay := 0 },
    [.driveSetEnable false])

def init (od : OdApp) : OdApp × List DriveCall :=
  forceDisable { od with errorCode := 0, controlword := 0, modesOfOperation := 0 }

/-- The switch over the masked statusword. A branch without assignment keeps
the statusword; the default branch, which forces the drive off, gives none. -/
def switchStatus (statusword controlword : UInt16) : Option UInt16 :=
  let masked := statusword &&& statusStateMask
  if masked = statusSwitchOnDisabled then
    if controlword &&& (cwEnableVoltage ||| cwQuickStop) = cwEnableVoltage ||| cwQuickStop then
      some statusReadyToSwitchOn
    else some statusword
  else if masked = statusReadyToSwitchOn then
    if controlword &&& (cwEnableVoltage ||| cwQuickStop) ≠ cwEnableVoltage ||| cwQuickStop then
      some statusSwitchOnDisabled
    else if controlword &&& (cwSwitchOn ||| cwEnableVoltage ||| cwQuickStop) =
        cwSwitchOn ||| cwEnableVoltage ||| cwQuickStop then some statusSwitchedOn
    else some statusword
  else if masked = statusSwitchedOn then
    if controlword &&& cwEnableVoltage = 0 then some statusSwitchOnDisabled
    else if controlword &&& cwQuickStop = 0 then some statusQuickStopActive
    else if controlword &&& cwSwitchOn = 0 then some statusReadyToSwitchOn
    else if controlword &&& cwLowNibble =
        cwSwitchOn ||| cwEnableVoltage ||| cwQuickStop ||| cwEnableOperation then
      some statusOperationEnabled
    else some statusword
  else if masked = statusOperationEnabled then
    if controlword &&& cwEnableVoltage = 0 then some statusSwitchOnDisabled
    else if controlword &&& cwQuickStop = 0 then some statusQuickStopActive
    else if controlword &&& cwEnableOperation = 0 then some statusSwitchedOn
    else some statusword
  else if masked = statusQuickStopActive then
    if controlword &&& cwEnableVoltage = 0 then some statusSwitchOnDisabled
    else if controlword &&& cwQuickStop = 0 then some statusQuickStopActive
    else if controlword &&& cwLowNibble =
        cwSwitchOn ||| cwEnableVoltage ||| cwQuickStop ||| cwEnableOperation then
      some statusOperationEnabled
    else some statusSwitchedOn
  else none

def isEnabled (od : OdApp) : Prop := od.statusword &&& statusStateMask = statusOperationEnabled

instance enabledDecidable (od : OdApp) : Decidable (isEnabled od) :=
  inferInstanceAs (Decidable (_ = _))

/-- The end of a cycle: the enable request follows the statusword and the mode. -/
def applyStatus (od : OdApp) : OdApp × List DriveCall :=
  if isEnabled od then
    if modeIsSupported od.modesOfOperation then
      ({ od with modesOfOperationDisplay := od.modesOfOperation },
        [.driveSetEnable true,
          .driveCommand od.modesOfOperation od.targetPosition od.targetVelocity od.targetTorque])
    else forceDisable { od with errorCode := 0xFF01 }
  else ({ od with modesOfOperationDisplay := 0 },[.driveSetEnable false])

def process1ms (od : OdApp) (f : Feedback) : OdApp × List DriveCall :=
  let read : OdApp :=
    { od with
      positionActualValue := f.position, velocityActualValue := f.velocity,
      torqueActualValue := f.torque, errorCode := f.errorCode }
  let masked := od.statusword &&& statusStateMask
  if f.hardwareFault ∨ !f.interlocksHealthy then
    ({ read with statusword := statusFault, modesOfOperationDisplay := 0 },
      [.driveSetEnable false])
  else if masked = statusFault ∨ masked = statusFaultReaction then
    if od.controlword &&& cwFaultReset ≠ 0 then
      ({ read with
          statusword := statusSwitchOnDisabled, errorCode := 0, modesOfOperationDisplay := 0 },
        [.driveSetEnable false])
    else
      ({ read with statusword := statusFault, modesOfOperationDisplay := 0 },
        [.driveSetEnable false])
  else
    match switchStatus od.statusword od.controlword with
    | none => forceDisable read
    | some statusword => applyStatus { read with statusword := statusword }

/-- What the network may write between two cycles. -/
structure Written where
  controlword : UInt16
  modesOfOperation : Int8
  targetPosition : Int32
  targetVelocity : Int32
  targetTorque : Int16
  deriving DecidableEq

def write (od : OdApp) (w : Written) : OdApp :=
  { od with
    controlword := w.controlword, modesOfOperation := w.modesOfOperation,
    targetPosition := w.targetPosition, targetVelocity := w.targetVelocity,
    targetTorque := w.targetTorque }

inductive DriveStep where
  | process1ms (written : Written) (feedback : Feedback)
  | forceDisable
  deriving DecidableEq

def driveStep (od : OdApp) : DriveStep → OdApp × List DriveCall
  | .process1ms w f => process1ms (write od w) f
  | .forceDisable => forceDisable od

/-- The last value passed to the enable hook. -/
def lastEnable (calls : List DriveCall) : Option Bool :=
  (calls.filterMap fun
    | .driveSetEnable enable => some enable
    | .driveCommand _ _ _ _ => none).getLast?

/-- A cycle without fault, with healthy interlocks and a supported mode. -/
def Permits : DriveStep → Prop
  | .process1ms w f => f.hardwareFault = false ∧ f.interlocksHealthy = true ∧
      modeIsSupported w.modesOfOperation = true
  | .forceDisable => False

def isProcess1ms : DriveStep → Bool
  | .process1ms _ _ => true
  | .forceDisable => false

def distance (statusword : UInt16) : ℕ :=
  let masked := statusword &&& statusStateMask
  if masked = statusOperationEnabled then 0
  else if masked = statusSwitchedOn ∨ masked = statusQuickStopActive then 1
  else if masked = statusReadyToSwitchOn then 2
  else 3

def Settled (od : OdApp) (s : DriveStep) (calls : List DriveCall) : Prop :=
  (isEnabled od ∧ Permits s ∧ ∃ mode position velocity torque,
    calls = [.driveSetEnable true,.driveCommand mode position velocity torque]) ∨
  (¬isEnabled od ∧ calls = [.driveSetEnable false])

theorem disabled_not_enabled (od : OdApp) : ¬isEnabled (forceDisable od).1 := by
  show ¬statusSwitchOnDisabled &&& statusStateMask = statusOperationEnabled
  decide

theorem distance_le_three (statusword : UInt16) : distance statusword ≤ 3 := by
  unfold distance
  simp only
  split
  · decide
  split
  · decide
  split <;> decide

theorem distance_disabled : distance statusSwitchOnDisabled = 3 := by decide

theorem distance_fault : distance statusFault = 3 := by decide

theorem distance_masked {statusword state : UInt16}
    (hm : statusword &&& statusStateMask = state) (hs : state &&& statusStateMask = state) :
    distance statusword = distance state := by
  unfold distance
  rw [hm,hs]

inductive Switched (statusword controlword : UInt16) : UInt16 → Prop
  | readies (h : statusword &&& statusStateMask = statusSwitchOnDisabled)
      (hw : controlword &&& (cwEnableVoltage ||| cwQuickStop) = cwEnableVoltage ||| cwQuickStop) :
      Switched statusword controlword statusReadyToSwitchOn
  | switchesOn (h : statusword &&& statusStateMask = statusReadyToSwitchOn)
      (hw : controlword &&& (cwSwitchOn ||| cwEnableVoltage ||| cwQuickStop) =
        cwSwitchOn ||| cwEnableVoltage ||| cwQuickStop) :
      Switched statusword controlword statusSwitchedOn
  | enables (h : statusword &&& statusStateMask = statusSwitchedOn ∨
        statusword &&& statusStateMask = statusQuickStopActive)
      (hw : controlword &&& cwLowNibble = cwLowNibble) :
      Switched statusword controlword statusOperationEnabled
  | disables : Switched statusword controlword statusSwitchOnDisabled
  | switchesOff (h : statusword &&& statusStateMask = statusSwitchedOn) :
      Switched statusword controlword statusReadyToSwitchOn
  | stopsOperation (h : statusword &&& statusStateMask = statusOperationEnabled ∨
        statusword &&& statusStateMask = statusQuickStopActive) :
      Switched statusword controlword statusSwitchedOn
  | stopsQuickly (h : statusword &&& statusStateMask = statusSwitchedOn ∨
        statusword &&& statusStateMask = statusOperationEnabled ∨
        statusword &&& statusStateMask = statusQuickStopActive) :
      Switched statusword controlword statusQuickStopActive
  | stays (h : statusword &&& statusStateMask = statusSwitchOnDisabled ∨
        statusword &&& statusStateMask = statusReadyToSwitchOn ∨
        statusword &&& statusStateMask = statusSwitchedOn) :
      Switched statusword controlword statusword
  | staysEnabled (h : statusword &&& statusStateMask = statusOperationEnabled)
      (hvoltage : controlword &&& cwEnableVoltage ≠ 0) (hquick : controlword &&& cwQuickStop ≠ 0)
      (hoperation : controlword &&& cwEnableOperation ≠ 0) :
      Switched statusword controlword statusword

theorem switch_cases {statusword controlword next : UInt16}
    (h : switchStatus statusword controlword = some next) :
    Switched statusword controlword next := by
  unfold switchStatus at h
  simp only at h
  split at h
  · rename_i hdisabled
    split at h
    · rename_i hw
      cases h
      exact .readies hdisabled hw
    · cases h
      exact .stays (Or.inl hdisabled)
  split at h
  · rename_i hready
    split at h
    · cases h
      exact .disables
    split at h
    · rename_i hw
      cases h
      exact .switchesOn hready hw
    · cases h
      exact .stays (Or.inr (Or.inl hready))
  split at h
  · rename_i hswitched
    split at h
    · cases h
      exact .disables
    split at h
    · cases h
      exact .stopsQuickly (Or.inl hswitched)
    split at h
    · cases h
      exact .switchesOff hswitched
    split at h
    · rename_i hw
      cases h
      exact .enables (Or.inl hswitched) hw
    · cases h
      exact .stays (Or.inr (Or.inr hswitched))
  split at h
  · rename_i henabled
    split at h
    · cases h
      exact .disables
    rename_i hvoltage
    split at h
    · cases h
      exact .stopsQuickly (Or.inr (Or.inl henabled))
    rename_i hquick
    split at h
    · cases h
      exact .stopsOperation (Or.inl henabled)
    rename_i hoperation
    cases h
    exact .staysEnabled henabled hvoltage hquick hoperation
  split at h
  · rename_i hstopping
    split at h
    · cases h
      exact .disables
    split at h
    · cases h
      exact .stopsQuickly (Or.inr (Or.inr hstopping))
    split at h
    · rename_i hw
      cases h
      exact .enables (Or.inr hstopping) hw
    · cases h
      exact .stopsOperation (Or.inr hstopping)
  · cases h

theorem switch_distance (statusword controlword next : UInt16)
    (h : switchStatus statusword controlword = some next) :
    distance statusword ≤ distance next+1 := by
  have hnear : ∀ {state : UInt16}, statusword &&& statusStateMask = state →
      state &&& statusStateMask = state → distance state ≤ distance next+1 →
        distance statusword ≤ distance next+1 := by
    intro state hs hmask hle
    rwa [distance_masked hs hmask]
  cases switch_cases h with
  | readies hs _ => exact distance_le_three statusword
  | switchesOn hs _ => exact hnear hs (by decide) (by decide)
  | enables hs _ => exact hs.elim (hnear · (by decide) (by decide)) (hnear · (by decide) (by decide))
  | disables => exact Nat.le_trans (distance_le_three statusword) (by decide)
  | switchesOff hs => exact hnear hs (by decide) (by decide)
  | stopsOperation hs =>
    exact hs.elim (hnear · (by decide) (by decide)) (hnear · (by decide) (by decide))
  | stopsQuickly hs =>
    rcases hs with hs | hs | hs
    · exact hnear hs (by decide) (by decide)
    · exact hnear hs (by decide) (by decide)
    · exact hnear hs (by decide) (by decide)
  | stays _ => exact Nat.le_succ _
  | staysEnabled _ _ _ _ => exact Nat.le_succ _

theorem enabled_distance (od : OdApp) : isEnabled od ↔ distance od.statusword = 0 := by
  unfold isEnabled distance
  simp only
  constructor
  · intro h
    rw [if_pos h]
  · intro h
    split at h
    · assumption
    split at h
    · cases h
    split at h <;> cases h

theorem apply_settled (od : OdApp) (w : Written) (f : Feedback)
    (hfault : f.hardwareFault = false) (hinterlock : f.interlocksHealthy = true)
    (hmode : od.modesOfOperation = w.modesOfOperation) :
    Settled (applyStatus od).1 (.process1ms w f) (applyStatus od).2 ∧
      distance od.statusword ≤ distance (applyStatus od).1.statusword := by
  unfold applyStatus
  by_cases he : isEnabled od
  · rw [if_pos he]
    by_cases hm : modeIsSupported od.modesOfOperation = true
    · rw [if_pos hm]
      exact ⟨Or.inl ⟨he,⟨hfault,hinterlock,hmode ▸ hm⟩,_,_,_,_,rfl⟩,Nat.le_refl _⟩
    · rw [if_neg hm]
      exact ⟨Or.inr ⟨disabled_not_enabled _,rfl⟩,distance_disabled ▸ distance_le_three _⟩
  · rw [if_neg he]
    exact ⟨Or.inr ⟨he,rfl⟩,Nat.le_refl _⟩

theorem process_settled (od : OdApp) (w : Written) (f : Feedback) :
    Settled (driveStep od (.process1ms w f)).1 (.process1ms w f)
        (driveStep od (.process1ms w f)).2 ∧
      distance od.statusword ≤ distance (driveStep od (.process1ms w f)).1.statusword+1 := by
  have hfar : ∀ od' : OdApp, distance od'.statusword = 3 →
      distance od.statusword ≤ distance od'.statusword+1 := by
    intro od' h
    have := distance_le_three od.statusword
    omega
  have hfault : ∀ od' : OdApp, od'.statusword = statusFault → ¬isEnabled od' := by
    intro od' h
    rw [isEnabled,h]
    decide
  simp only [driveStep,process1ms]
  split
  · exact ⟨Or.inr ⟨hfault _ rfl,rfl⟩,hfar _ distance_fault⟩
  rename_i hsafe
  simp only [not_or,Bool.not_eq_true,Bool.not_eq_false'] at hsafe
  split
  · split
    · exact ⟨Or.inr ⟨disabled_not_enabled od,rfl⟩,hfar _ distance_disabled⟩
    · exact ⟨Or.inr ⟨hfault _ rfl,rfl⟩,hfar _ distance_fault⟩
  cases hn : switchStatus (write od w).statusword (write od w).controlword with
  | none => exact ⟨Or.inr ⟨disabled_not_enabled _,rfl⟩,hfar _ distance_disabled⟩
  | some next =>
    obtain ⟨hs,hd⟩ := apply_settled
      { write od w with
        positionActualValue := f.position, velocityActualValue := f.velocity
        torqueActualValue := f.torque, errorCode := f.errorCode, statusword := next }
      w f hsafe.1 hsafe.2 rfl
    exact ⟨hs,Nat.le_trans (switch_distance _ _ _ hn) (Nat.succ_le_succ hd)⟩

theorem step_settled (od : OdApp) (s : DriveStep) :
    Settled (driveStep od s).1 s (driveStep od s).2 := by
  cases s with
  | process1ms w f => exact (process_settled od w f).1
  | forceDisable => exact Or.inr ⟨disabled_not_enabled od,rfl⟩

def enables (statusword : UInt16) (w : Written) (f : Feedback) : Bool :=
  !f.hardwareFault && f.interlocksHealthy &&
    statusword &&& statusStateMask ≠ statusFault &&
    statusword &&& statusStateMask ≠ statusFaultReaction &&
    modeIsSupported w.modesOfOperation &&
    (switchStatus statusword w.controlword).any fun next =>
      next &&& statusStateMask = statusOperationEnabled

theorem enables_clear {statusword : UInt16} {w : Written} {f : Feedback}
    (h : enables statusword w f = true) :
    (f.hardwareFault = false ∧ f.interlocksHealthy = true) ∧
      statusword &&& statusStateMask ≠ statusFault ∧
        statusword &&& statusStateMask ≠ statusFaultReaction := by
  simp only [enables,Bool.and_eq_true,Bool.not_eq_true',decide_eq_true_eq] at h
  obtain ⟨⟨⟨⟨⟨hfault,hhealthy⟩,hstate⟩,hreaction⟩,-⟩,-⟩ := h
  exact ⟨⟨hfault,hhealthy⟩,hstate,hreaction⟩

theorem enabled_iff (od : OdApp) (w : Written) (f : Feedback) :
    isEnabled (driveStep od (.process1ms w f)).1 ↔ enables od.statusword w f = true := by
  have hfault : ∀ od' : OdApp, od'.statusword = statusFault → ¬isEnabled od' := by
    intro od' h
    rw [isEnabled,h]
    decide
  have hoff : ∀ {od' : OdApp}, ¬isEnabled od' → enables od.statusword w f = false →
      (isEnabled od' ↔ enables od.statusword w f = true) := by
    intro od' h he
    rw [he]
    exact ⟨fun hc => absurd hc h,fun hc => absurd hc Bool.false_ne_true⟩
  simp only [driveStep,process1ms]
  split
  · rename_i hunsafe
    refine hoff (hfault _ rfl) (Bool.eq_false_iff.mpr fun he => ?_)
    obtain ⟨⟨hfine,hhealthy⟩,-⟩ := enables_clear he
    rw [hfine,hhealthy] at hunsafe
    exact absurd hunsafe (by decide)
  rename_i hsafe
  simp only [not_or,Bool.not_eq_true,Bool.not_eq_false'] at hsafe
  split
  · rename_i hmasked
    have hno : enables od.statusword w f = false := by
      refine Bool.eq_false_iff.mpr fun he => ?_
      obtain ⟨-,hstate,hreaction⟩ := enables_clear he
      exact hmasked.elim hstate hreaction
    split
    · exact hoff (disabled_not_enabled od) hno
    · exact hoff (hfault _ rfl) hno
  rename_i hmasked
  rw [not_or] at hmasked
  cases hn : switchStatus (write od w).statusword (write od w).controlword with
  | none =>
    refine hoff (disabled_not_enabled _) ?_
    simp only [write] at hn
    simp [enables,hn]
  | some next =>
    simp only [write] at hn hmasked
    have henables : enables od.statusword w f =
        (modeIsSupported w.modesOfOperation &&
          decide (next &&& statusStateMask = statusOperationEnabled)) := by
      simp [enables,hn,hsafe.1,hsafe.2,hmasked.1,hmasked.2]
    have hmode : ∀ {od' : OdApp}, od'.statusword = next →
        od'.modesOfOperation = w.modesOfOperation →
          (isEnabled (applyStatus od').1 ↔ enables od.statusword w f = true) := by
      intro od' hs hw
      unfold applyStatus
      by_cases he : next &&& statusStateMask = statusOperationEnabled
      · rw [if_pos (show isEnabled od' by rw [isEnabled,hs,he]),hw]
        by_cases hm : modeIsSupported w.modesOfOperation = true
        · rw [if_pos hm,henables]
          exact ⟨fun _ => by simp [hm,he],fun _ => by rw [isEnabled,← he,← hs]⟩
        · rw [if_neg hm]
          exact hoff (disabled_not_enabled _) (by simp [henables,hm])
      · have hnot : ¬isEnabled od' := by rwa [isEnabled,hs]
        rw [if_neg hnot]
        exact hoff hnot (by simp [henables,he])
    exact hmode rfl rfl

theorem step_distance (od : OdApp) (s : DriveStep) :
    distance od.statusword ≤
      distance (driveStep od s).1.statusword+(if isProcess1ms s then 1 else 0) := by
  cases s with
  | process1ms w f => exact (process_settled od w f).2
  | forceDisable =>
    show distance od.statusword ≤ distance statusSwitchOnDisabled+0
    rw [distance_disabled]
    exact distance_le_three od.statusword

theorem settled_last {od : OdApp} {s : DriveStep} {calls : List DriveCall}
    (h : Settled od s calls) (before : List DriveCall) :
    (lastEnable (before++calls) = some true ↔ isEnabled od) ∧
      (lastEnable (before++calls) = some true → Permits s) := by
  rcases h with ⟨he,hp,mode,position,velocity,torque,rfl⟩ | ⟨he,rfl⟩
  · have hl : lastEnable (before++[.driveSetEnable true,
        .driveCommand mode position velocity torque]) = some true := by
      simp [lastEnable]
    exact ⟨⟨fun _ => he,fun _ => hl⟩,fun _ => hp⟩
  · have hl : lastEnable (before++[.driveSetEnable false]) = some false := by
      simp [lastEnable]
    rw [hl]
    exact ⟨⟨fun hc => by simp at hc,fun hc => absurd hc he⟩,fun hc => by simp at hc⟩

theorem settled_command {od : OdApp} {s : DriveStep} {calls : List DriveCall}
    (h : Settled od s calls) {mode : Int8} {position velocity : Int32} {torque : Int16}
    (hc : .driveCommand mode position velocity torque ∈ calls) : isEnabled od ∧ Permits s := by
  rcases h with ⟨he,hp,_⟩ | ⟨_,rfl⟩
  · exact ⟨he,hp⟩
  · simp at hc

theorem settled_on {od : OdApp} {s : DriveStep} {calls : List DriveCall}
    (h : Settled od s calls) (hc : .driveSetEnable true ∈ calls) : isEnabled od := by
  rcases h with ⟨he,_⟩ | ⟨_,rfl⟩
  · exact he
  · simp at hc

theorem far_never_enabled (od : OdApp) (steps : List DriveStep)
    (h : steps.countP isProcess1ms < distance od.statusword) :
    .driveSetEnable true ∉ (run driveStep od steps).2 := by
  induction steps generalizing od with
  | nil => simp
  | cons s steps ih =>
    have hd := step_distance od s
    have hcount : steps.countP isProcess1ms < distance (driveStep od s).1.statusword := by
      rw [List.countP_cons] at h
      omega
    rw [run_cons]
    intro hc
    rcases List.mem_append.mp hc with hc | hc
    · have := (enabled_distance _).mp (settled_on (step_settled od s) hc)
      omega
    · exact ih _ hcount hc

/-- Over every run, drive enable equals the operation-enabled statusword, is
set and commanded only in permitted cycles, and needs three cycles after a
forced disable. -/
theorem drive_enable_safety (od : OdApp) (steps : List DriveStep) :
    (lastEnable (init od).2 = some false ∧ ¬isEnabled (init od).1) ∧
    (∀ s, (lastEnable ((init od).2++(run driveStep (init od).1 (steps++[s])).2) = some true ↔
        isEnabled (run driveStep (init od).1 (steps++[s])).1) ∧
      (lastEnable ((init od).2++(run driveStep (init od).1 (steps++[s])).2) = some true →
        Permits s) ∧
      ∀ mode position velocity torque, .driveCommand mode position velocity torque ∈
        (driveStep (run driveStep (init od).1 steps).1 s).2 →
        isEnabled (run driveStep (init od).1 (steps++[s])).1 ∧ Permits s) ∧
    (∀ after, after.countP isProcess1ms ≤ 2 → .driveSetEnable true ∉
      (run driveStep (run driveStep (init od).1 (steps++[.forceDisable])).1 after).2) := by
  refine ⟨⟨rfl,disabled_not_enabled _⟩,fun s => ?_,fun after hcount => ?_⟩
  · have hs := step_settled (run driveStep (init od).1 steps).1 s
    rw [run_concat,← List.append_assoc]
    obtain ⟨hiff,hpermits⟩ := settled_last hs ((init od).2++(run driveStep (init od).1 steps).2)
    exact ⟨hiff,hpermits,fun _ _ _ _ hc => settled_command hs hc⟩
  · apply far_never_enabled
    rw [run_concat]
    show after.countP isProcess1ms < distance statusSwitchOnDisabled
    rw [distance_disabled]
    exact Nat.lt_succ_of_le hcount

end CanopenReference.Cia402
