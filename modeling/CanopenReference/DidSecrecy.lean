import CanopenReference.Dialogue
import CanopenReference.UdsContexts

/-!
# Protected data identifiers stay secret

Two instances that differ only in values behind a security level answer every
request alike as long as the level is zero. The server respects the map that
forgets those values, so each run is the run of the same forgetful instance.
-/

set_option autoImplicit false

namespace CanopenReference.DidSecrecy
open Library Library.Runs Uds UdsDid UdsContexts Diagnostics Handling Dialogue

def forget (entry : UdsDidEntry) : UdsDidEntry :=
  if entry.minimumSecurityLevel = 0 then entry else { entry with value := none }

def withoutProtected (registry : List UdsDidEntry) : List UdsDidEntry := registry.map forget

theorem forget_did (entry : UdsDidEntry) : (forget entry).did = entry.did := by
  unfold forget
  split <;> rfl

theorem find_forget (registry : List UdsDidEntry) (did : UInt16) :
    udsDidRegistryFind (withoutProtected registry) did =
      (udsDidRegistryFind registry did).map forget := by
  unfold udsDidRegistryFind withoutProtected
  rw [List.find?_map]
  congr 2
  funext entry
  simp only [Function.comp_apply,forget_did]

theorem read_forget (registry : List UdsDidEntry) (did : UInt16) (session : UInt8)
    (capacity : UInt16) :
    udsDidRegistryRead (withoutProtected registry) did session 0 capacity =
      udsDidRegistryRead registry did session 0 capacity := by
  unfold udsDidRegistryRead
  rw [find_forget]
  cases udsDidRegistryFind registry did with
  | none => rfl
  | some entry =>
    show (if !(forget entry).readAllowed then _ else _) = _
    by_cases hlevel : entry.minimumSecurityLevel = 0
    · rw [forget,if_pos hlevel]
    · have hdenied : (0 : UInt8) < entry.minimumSecurityLevel := by
        apply UInt8.lt_iff_toNat_lt.mpr
        have hne : entry.minimumSecurityLevel.toNat ≠ 0 := fun h =>
          hlevel (UInt8.toNat_inj.mp h)
        show 0 < entry.minimumSecurityLevel.toNat
        omega
      rw [forget,if_neg hlevel]
      simp only [sessionAllowed,hdenied,if_true]

section Forgetting
variable {μ : Type}

def hide (context : UdsContext μ) : UdsContext μ :=
  { context with didRegistry := withoutProtected context.didRegistry }

def hideApplication (app : UdsApplication μ) : UdsApplication μ :=
  { app with context := hide app.context }

theorem callbacks_respect_hide (server : UdsServer) (h : server.securityLevel = 0) :
    Respects (hide (μ := μ)) server referenceCallbacks referenceCallbacks where
  readDid := .some (fun c did room => by
    simp only [udsReadDid,hide,h,read_forget]
    rfl)
  readDtc := .some (fun c subfunction request room => by
    simp only [udsReadDtc,apply_ite (Prod.map hide id)]
    rfl)
  securitySeed := .some (fun c level room => by
    unfold udsSecuritySeed
    simp only [hide]
    split <;> rfl)
  securityKey := .some (fun c level key => by
    unfold udsSecurityKey
    simp only [hide]
    split <;> rfl)
  communicationControl := .some (fun _ _ _ => rfl)
  routineControl := .some (fun _ _ _ _ _ => rfl)
  requestDownload := .some (fun c address length => by
    simp only [udsRequestDownload,apply_ite (Prod.map hide id)]
    rfl)
  transferData := .some (fun _ _ _ => rfl)
  requestTransferExit := .some (fun c request room => by
    simp only [udsTransferExit,apply_ite (Prod.map hide id)]
    rfl)
  ecuReset := .some (fun c subfunction => by
    simp only [udsEcuReset,apply_ite (Prod.map hide id)]
    rfl)
  controlDtcSetting := .some (fun _ _ => rfl)

theorem handle_hidden (app : UdsApplication μ) (request : List UInt8) (now : UInt32)
    (h : app.server.securityLevel = 0) :
    handleRequest (hideApplication app) request now =
      (hideApplication (handleRequest app request now).1,(handleRequest app request now).2) := by
  unfold handleRequest
  simp only [hideApplication]
  rw [handle_respects now (callbacks_respect_hide _ h)]
  rfl

theorem dialogue_hidden (app : UdsApplication μ) (input : ApplicationInput)
    (h : app.server.securityLevel = 0) :
    dialogueStep (hideApplication app) input =
      (hideApplication (dialogueStep app input).1,(dialogueStep app input).2) := by
  cases input with
  | request bytes now =>
    have hhandled := handle_hidden (atTime app now) bytes now h
    have hstep : dialogueStep (hideApplication app) (.request bytes now) =
        ((handleRequest (hideApplication (atTime app now)) bytes now).1,
          [⟨bytes,now,responded (handleRequest (hideApplication (atTime app now)) bytes now)⟩]) :=
      rfl
    rw [hstep,hhandled]
    rfl
  | tick now => rfl
  | pollErase now => rfl

theorem project_hidden (source : UdsProjectDidSource) (serial watchdog : UdsDidValue) :
    withoutProtected
        (udsDidRegistryInit { source with serialNumber := serial, watchdogStatus := watchdog }) =
      withoutProtected (udsDidRegistryInit source) := rfl

/-- Instances that differ only in protected values answer alike at level zero. -/
theorem protected_dids_secret (app₁ app₂ : UdsApplication μ) (inputs : List ApplicationInput)
    (hsame : hideApplication app₁ = hideApplication app₂)
    (hlevel : Along dialogueStep (fun app _ => app.server.securityLevel = 0) app₁ inputs) :
    (run dialogueStep app₁ inputs).2 = (run dialogueStep app₂ inputs).2 := by
  refine (along_alike dialogueStep (fun app _ => app.server.securityLevel = 0) hideApplication ?_
    app₁ app₂ inputs hsame hlevel).2
  intro s t input hs hlevel
  have hlevel' : t.server.securityLevel = 0 := by
    have hserver : (hideApplication s).server = (hideApplication t).server :=
      congrArg UdsApplication.server hs
    exact (congrArg UdsServer.securityLevel hserver).symm.trans hlevel
  have hequal := dialogue_hidden s input hlevel
  rw [hs,dialogue_hidden t input hlevel'] at hequal
  exact ⟨(congrArg Prod.fst hequal).symm,(congrArg Prod.snd hequal).symm⟩

end Forgetting

def withSource {μ : Type} (source : UdsProjectDidSource) (app : UdsApplication μ) :
    UdsApplication μ :=
  { app with context := { app.context with didRegistry := udsDidRegistryInit source } }

theorem protected_dids_secret_serial :
    (run dialogueStep (withSource projectDids (applicationInit none () 0))
        [.request [0x22,0xF1,0x80,0xF1,0x8C] 1,.tick 2,.request [0x22,0xF1,0xB3] 3]).2 =
      (run dialogueStep
        (withSource { projectDids with serialNumber := .data [1,2], watchdogStatus := .data [3] }
          (applicationInit none () 0))
        [.request [0x22,0xF1,0x80,0xF1,0x8C] 1,.tick 2,.request [0x22,0xF1,0xB3] 3]).2 :=
  protected_dids_secret _ _ _ rfl (by decide +kernel)

end CanopenReference.DidSecrecy
