import CanopenReference.DriveRestart

/-!
# The controlword of an enabled drive

Only enable operation keeps a drive enabled, but for one coding of shutdown: the
enabled state does not look at the switch-on bit.
-/

set_option autoImplicit false

namespace CanopenReference.DriveCommands
open Library.Runs Cia402 DriveRestart

structure Outcome where
  controlword : UInt16
  enabled : Bool
  hook : Option Bool
  deriving DecidableEq

def commandStep (od : OdApp) (i : Written × Feedback) : OdApp × List Outcome :=
  let r := driveStep od (.process1ms i.1 i.2)
  (r.1,[⟨i.1.controlword,decide (isEnabled r.1),lastEnable r.2⟩])

/-- Enable operation was commanded, or the enable is removed. -/
def Obeys (o : Outcome) : Prop :=
  o.controlword &&& cwLowNibble = cwLowNibble ∨ (o.enabled = false ∧ o.hook = some false)

/-- Shutdown with the enable-operation bit set, to an enabled drive in a quiet
cycle. -/
def IgnoresShutdown (od : OdApp) (i : Written × Feedback) : Prop :=
  isEnabled od ∧ Quiet i ∧
    i.1.controlword &&& cwLowNibble = cwEnableVoltage ||| cwQuickStop ||| cwEnableOperation

theorem nibble_cases {controlword : UInt16} (hvoltage : controlword &&& cwEnableVoltage ≠ 0)
    (hquick : controlword &&& cwQuickStop ≠ 0) (hoperation : controlword &&& cwEnableOperation ≠ 0) :
    controlword &&& cwLowNibble = cwLowNibble ∨
      controlword &&& cwLowNibble = cwEnableVoltage ||| cwQuickStop ||| cwEnableOperation := by
  rw [nibble_part (by decide)] at hvoltage hquick hoperation
  have hlt : (controlword &&& cwLowNibble).toNat < 16 := by
    rw [UInt16.toNat_and]
    exact Nat.lt_succ_of_le Nat.and_le_right
  have hnibble : controlword &&& cwLowNibble =
      UInt16.ofNat (⟨(controlword &&& cwLowNibble).toNat,hlt⟩ : Fin 16) :=
    UInt16.ofNat_toNat.symm
  generalize (⟨(controlword &&& cwLowNibble).toNat,hlt⟩ : Fin 16) = n at hnibble
  rw [hnibble] at hvoltage hquick hoperation ⊢
  clear hnibble hlt
  revert n
  decide

theorem switch_enabled {statusword controlword next : UInt16}
    (h : switchStatus statusword controlword = some next)
    (he : next &&& statusStateMask = statusOperationEnabled) :
    controlword &&& cwLowNibble = cwLowNibble ∨
      statusword &&& statusStateMask = statusOperationEnabled ∧
        controlword &&& cwLowNibble =
          cwEnableVoltage ||| cwQuickStop ||| cwEnableOperation := by
  -- Every state but the enabled one asks for the whole low nibble.
  cases switch_cases h with
  | readies _ _ => exact absurd he (by decide)
  | switchesOn _ _ => exact absurd he (by decide)
  | enables _ hw => exact Or.inl hw
  | disables => exact absurd he (by decide)
  | switchesOff _ => exact absurd he (by decide)
  | stopsOperation _ => exact absurd he (by decide)
  | stopsQuickly _ => exact absurd he (by decide)
  | stays hs =>
    rw [he] at hs
    exact absurd hs (by decide)
  | staysEnabled hs hvoltage hquick hoperation =>
    exact (nibble_cases hvoltage hquick hoperation).imp id fun hn => ⟨hs,hn⟩

theorem shutdown_kept {od : OdApp} {i : Written × Feedback} (h : IgnoresShutdown od i) :
    isEnabled (commandStep od i).1 := by
  obtain ⟨he,hi,hnibble⟩ := h
  have hpart : ∀ part, cwLowNibble &&& part = part →
      i.1.controlword &&& part =
        (cwEnableVoltage ||| cwQuickStop ||| cwEnableOperation) &&& part := by
    intro part hp
    rw [nibble_part hp,hnibble]
  have hvoltage : i.1.controlword &&& cwEnableVoltage ≠ 0 := by
    rw [hpart _ (by decide)]
    decide
  have hquick : i.1.controlword &&& cwQuickStop ≠ 0 := by
    rw [hpart _ (by decide)]
    decide
  have hoperation : i.1.controlword &&& cwEnableOperation ≠ 0 := by
    rw [hpart _ (by decide)]
    decide
  have hstate : driveState od = statusOperationEnabled := he
  have hswitch : switchStatus od.statusword i.1.controlword = some od.statusword := by
    unfold isEnabled at he
    unfold switchStatus
    simp only [he]
    rw [if_neg (by decide),if_neg (by decide),if_neg (by decide),if_pos trivial,if_neg hvoltage,
      if_neg hquick,if_neg hoperation]
  have hnot : ¬FaultState (driveState od) := by
    rw [hstate,FaultState]
    decide
  have hnext : (commandStep od i).1.statusword = od.statusword := quiet_switches hi hnot hswitch
  rw [isEnabled,hnext]
  exact he

theorem enabled_command {od : OdApp} {i : Written × Feedback}
    (h : isEnabled (commandStep od i).1) :
    i.1.controlword &&& cwLowNibble = cwLowNibble ∨ IgnoresShutdown od i := by
  have henables := (enabled_iff od i.1 i.2).mp h
  obtain ⟨hclear,-⟩ := enables_clear henables
  simp only [enables,Bool.and_eq_true,Option.any_eq_true,decide_eq_true_eq] at henables
  obtain ⟨⟨-,hmode⟩,next,hnext,hmask⟩ := henables
  exact (switch_enabled hnext hmask).imp id fun hs => ⟨hs.1,⟨hclear,hmode⟩,hs.2⟩

theorem cycle_obeys (od : OdApp) (i : Written × Feedback) :
    (∀ o ∈ (commandStep od i).2, Obeys o) ↔ ¬IgnoresShutdown od i := by
  have hone : (∀ o ∈ (commandStep od i).2, Obeys o) ↔
      Obeys ⟨i.1.controlword,decide (isEnabled (commandStep od i).1),
        lastEnable (driveStep od (.process1ms i.1 i.2)).2⟩ := by
    refine ⟨fun h => h _ (List.mem_singleton.mpr rfl),fun h o ho => ?_⟩
    rw [List.mem_singleton.mp ho]
    exact h
  rw [hone]
  constructor
  · rintro (hnibble | ⟨hoff,-⟩) h
    · rw [h.2.2] at hnibble
      exact absurd hnibble (by decide)
    · exact of_decide_eq_false hoff (shutdown_kept h)
  · intro h
    by_cases he : isEnabled (commandStep od i).1
    · exact Or.inl ((enabled_command he).resolve_right h)
    · right
      refine ⟨decide_eq_false he,?_⟩
      rcases (process_settled od i.1 i.2).1 with ⟨hon,-⟩ | ⟨-,hcalls⟩
      · exact absurd hon he
      · rw [hcalls]
        rfl

/-- In every run, only enable operation keeps the drive enabled, exactly when no
cycle has that coding of shutdown for an enabled drive. -/
theorem commands_obeyed_iff (od : OdApp) (inputs : List (Written × Feedback)) :
    (∀ o ∈ (run commandStep od inputs).2, Obeys o) ↔
      Along commandStep (fun od i => ¬IgnoresShutdown od i) od inputs :=
  along_iff_events commandStep _ (fun _ => True) Obeys (fun _ _ _ _ => trivial)
    (fun od i _ => cycle_obeys od i) od inputs trivial

/-- Shutdown coded as 0x0E leaves the drive enabled. -/
theorem shutdown_ignored :
    ¬∀ od inputs, ∀ o ∈ (run commandStep (init od).1 inputs).2, Obeys o := by
  intro h
  have hlast := h ⟨0,0,0,0,0,0,0,0,0,0,0⟩
    [commanded 0x000F false,commanded 0x000F false,commanded 0x000F false,commanded 0x000E false]
    ⟨0x000E,true,some true⟩ (by decide)
  rcases hlast with hnibble | ⟨hoff,-⟩
  · exact absurd hnibble (by decide)
  · cases hoff

end CanopenReference.DriveCommands
