import CanopenReference.TransferBlocks

/-!
# The end of a transfer

The server hands the parameters of RequestTransferExit to its callback without
the service identifier, as its own test expects. The adapter of the runtime
counts the identifier among them: it takes one byte for a request without and
five bytes for a request with a check value.
-/

set_option autoImplicit false

namespace CanopenReference.TransferExit
open Library Library.Runs Download DownloadSafety Uds Diagnostics Handling Dialogue
open TransferBlocks

section Exit
variable {μ : Type}

/-- The request ends the transfer with a positive response. -/
def Finishes (app : UdsApplication μ) (request : List UInt8) (now : UInt32) : Prop :=
  (∀ x ∈ (dialogueStep app (.request request now)).2, Positive x) ∧
    (dialogueStep app (.request request now)).1.context.download.state = .complete

instance finishesDecidable (app : UdsApplication μ) (request : List UInt8) (now : UInt32) :
    Decidable (Finishes app request now) :=
  inferInstanceAs (Decidable (_ ∧ _))

/-- All bytes are there, the transfer is not late, and the image verifies. -/
structure Completed (app : UdsApplication μ) (now : UInt32) : Prop where
  active : app.server.downloadActive = true
  received : AllReceived app.context.download
  inTime : timeExpired now app.context.download.deadlineMs = false
  verify : app.context.download.callbacks.verifyImage.isSome = true
  verifies : AlwaysSucceed app.context.download.callbacks

def imageCrc (d : UdsDownload μ) : UInt32 := d.crc32 ^^^ 0xFFFFFFFF

def adapterCrc (parameters : List UInt8) : UInt32 := readBeU32 ((parameters.drop 1).take 4)

theorem finish_completed {d : UdsDownload μ} {now : UInt32} (hreceived : AllReceived d)
    (htime : timeExpired now d.deadlineMs = false)
    (hverify : d.callbacks.verifyImage.isSome = true) (hok : AlwaysSucceed d.callbacks)
    (crc : UInt32) (has : Bool) :
    let finished := udsDownloadFinish d crc has now
    (has = false ∨ imageCrc d = crc) ∧ finished.2.1 = .ok ∧ finished.1.state = .complete ∨
      ¬(has = false ∨ imageCrc d = crc) ∧ finished.2.1 = .verifyError ∧
        finished.1.state = .abortedState := by
  obtain ⟨verifyImage,hv⟩ := Option.isSome_iff_exists.mp hverify
  obtain ⟨hstate,hlength⟩ := hreceived
  unfold udsDownloadFinish
  simp only [hv]
  rw [if_neg (by simp [hstate,hlength]),htime]
  simp only [Bool.false_eq_true,if_false]
  by_cases hcrc : has = false ∨ imageCrc d = crc
  · left
    have hvalid : (!has || (d.crc32 ^^^ 0xFFFFFFFF) == crc) = true := by
      rcases hcrc with h | h
      · simp [h]
      · simp [← h,imageCrc]
    rw [hvalid]
    simp only [Bool.not_true,Bool.false_eq_true,if_false]
    rw [if_neg (not_not.mpr (hok.verifyImage verifyImage hv _ _ _ _))]
    exact ⟨hcrc,rfl,rfl⟩
  · right
    have hvalid : (!has || (d.crc32 ^^^ 0xFFFFFFFF) == crc) = false := by
      rw [not_or,Bool.not_eq_false] at hcrc
      rw [hcrc.1]
      exact beq_false_of_ne hcrc.2
    rw [hvalid]
    refine ⟨hcrc,by simp,?_⟩
    simp only [Bool.not_false,if_true]
    unfold udsDownloadAbort
    split <;> rfl

theorem exit_adapter_refused (server : UdsServer) (context : UdsContext μ)
    (parameters : List UInt8) (capacity : UInt16) (hone : parameters.length ≠ 1)
    (hfive : parameters.length ≠ 5) :
    udsTransferExit server context parameters capacity = (context,⟨.error,[],0⟩) := by
  unfold udsTransferExit
  rw [if_pos (Or.inr ⟨hfive,hone⟩)]

def adapterFinish (context : UdsContext μ) (parameters : List UInt8) :
    UdsDownload μ × UdsDownloadResult × List MemoryCall :=
  udsDownloadFinish context.download
    (if decide (parameters.length = 5) then adapterCrc parameters else 0)
    (decide (parameters.length = 5)) context.nowMs

theorem exit_adapter_passed (server : UdsServer) (context : UdsContext μ)
    (parameters : List UInt8) (capacity : UInt16) (hroom : ¬capacity < 1)
    (hlength : parameters.length = 1 ∨ parameters.length = 5) :
    let finished := adapterFinish context parameters
    udsTransferExit server context parameters capacity =
      (traced server context finished.1 finished.2.2,
        if finished.2.1 = .ok then ⟨.ok,[0],1⟩ else ⟨.programmingFailure,[],0⟩) := by
  have hread : ¬(capacity < 1 ∨ parameters.length ≠ 5 ∧ parameters.length ≠ 1) := by
    rintro (h | h)
    · exact hroom h
    · omega
  intro finished
  unfold udsTransferExit
  rw [if_neg hread]
  show (if finished.2.1 ≠ .ok then _ else _) = _
  by_cases hok : finished.2.1 = .ok
  · rw [if_neg (not_not.mpr hok),if_pos hok]
    rfl
  · rw [if_pos hok,if_neg hok]
    rfl

theorem exit_refused (app : UdsApplication μ) (now : UInt32) (parameters : List UInt8)
    (hone : parameters.length ≠ 1) (hfive : parameters.length ≠ 5)
    (hlength : parameters.length < udsMaxRequestLength) :
    let stepped := dialogueStep app (.request (0x37::parameters) now)
    (¬∀ x ∈ stepped.2, Positive x) ∧ stepped.1.context.download = app.context.download := by
  have hlow : 0 < (0x37::parameters : List UInt8).length := Nat.succ_pos _
  have hrefused := exit_adapter_refused (active (atTime app now) now) (atTime app now).context
    parameters (room udsMaxResponseLength 1) hone hfive
  have hhandled : ∃ nrc : UInt8, Handled (atTime app now) (0x37::parameters) now
      (active (atTime app now) now) (atTime app now).context [0x7F,0x37,nrc] := by
    cases hactive : app.server.downloadActive with
    | false => exact ⟨_,idle_exit_handled (atTime app now) _ now rfl hlow hlength hactive⟩
    | true =>
      have hh := exit_handled (atTime app now) (0x37::parameters) now rfl hlow hlength hactive
      change (udsTransferExit _ _ parameters _).2.result ≠ .ok → Handled _ _ _ _
        (udsTransferExit _ _ parameters _).1 _ at hh
      rw [hrefused] at hh
      exact ⟨_,hh (by simp)⟩
  obtain ⟨nrc,hhandled⟩ := hhandled
  obtain ⟨_,hcontext,hpositive⟩ := handled_step app _ now hhandled
  intro stepped
  constructor
  · exact fun hall => absurd (hpositive.mp hall) (by simp [byteAt])
  · show (dialogueStep app _).1.context.download = _
    rw [hcontext]
    rfl

theorem exit_finishes_iff (app : UdsApplication μ) (now : UInt32) (parameters : List UInt8)
    (hc : Completed app now) (hlength : parameters.length < udsMaxRequestLength) :
    Finishes app (0x37::parameters) now ↔ parameters.length = 1 ∨
      parameters.length = 5 ∧ adapterCrc parameters = imageCrc app.context.download := by
  by_cases hframe : parameters.length = 1 ∨ parameters.length = 5
  · have hlow : 0 < (0x37::parameters : List UInt8).length := Nat.succ_pos _
    have hpassed := exit_adapter_passed (active (atTime app now) now) (atTime app now).context
      parameters (room udsMaxResponseLength 1) (by decide) hframe
    have haccepted := exit_accepted (atTime app now) (0x37::parameters) now rfl hlow hlength
      hc.active
    have hrefused := exit_handled (atTime app now) (0x37::parameters) now rfl hlow hlength hc.active
    change (udsTransferExit _ _ parameters _).2.result = .ok →
      (udsTransferExit _ _ parameters _).2.length = 1 → ∃ response, _ ∧
        Handled _ _ _ _ (udsTransferExit _ _ parameters _).1 _ at haccepted
    change (udsTransferExit _ _ parameters _).2.result ≠ .ok → Handled _ _ _ _
      (udsTransferExit _ _ parameters _).1 _ at hrefused
    rw [hpassed] at haccepted hrefused
    have hcrc : (decide (parameters.length = 5) = false ∨ imageCrc app.context.download =
        (if decide (parameters.length = 5) then adapterCrc parameters else 0)) ↔
          parameters.length = 1 ∨
            parameters.length = 5 ∧ adapterCrc parameters = imageCrc app.context.download := by
      rcases hframe with h | h
      · simp [h]
      · simp [h,eq_comm]
    rw [← hcrc]
    have hfinished : _ ∨ _ := finish_completed hc.received hc.inTime hc.verify hc.verifies
      (if decide (parameters.length = 5) then adapterCrc parameters else 0)
      (decide (parameters.length = 5))
    change _ ∧ (adapterFinish (atTime app now).context parameters).2.1 = _ ∧
      (adapterFinish (atTime app now).context parameters).1.state = _ ∨
      _ ∧ (adapterFinish (atTime app now).context parameters).2.1 = _ ∧
      (adapterFinish (atTime app now).context parameters).1.state = _ at hfinished
    rcases hfinished with ⟨hfits,hok,hstate⟩ | ⟨hfits,herror,_⟩
    · rw [if_pos hok] at haccepted
      obtain ⟨response,hhead,hhandled⟩ := haccepted rfl rfl
      obtain ⟨_,hcontext,hpositive⟩ := handled_step app _ now hhandled
      refine iff_of_true ⟨hpositive.mpr hhead,?_⟩ hfits
      rw [hcontext]
      exact hstate
    · rw [if_neg (by rw [herror]; decide)] at hrefused
      obtain ⟨_,_,hpositive⟩ := handled_step app _ now (hrefused (by simp))
      exact iff_of_false (fun hf => absurd (hpositive.mp hf.1) (by simp [byteAt])) hfits
  · rw [not_or] at hframe
    refine iff_of_false (fun hf => ?_) (fun hor => ?_)
    · exact (exit_refused app now parameters hframe.1 hframe.2 hlength).1 hf.1
    · rcases hor with h | ⟨h,_⟩
      · exact hframe.1 h
      · exact hframe.2 h

/-- In no state does an exit finish when it carries no parameters, nor when it
carries the four bytes of a check value. -/
theorem exit_framing_disagrees (app : UdsApplication μ) (now : UInt32) (a b c d : UInt8) :
    ¬Finishes app [0x37] now ∧ ¬Finishes app [0x37,a,b,c,d] now := by
  have halone := exit_refused app now [] (by decide) (by decide) (by decide)
  have hchecked := exit_refused app now [a,b,c,d] (by simp) (by simp) (by simp [udsMaxRequestLength])
  exact ⟨fun h => halone.1 h.1,fun h => hchecked.1 h.1⟩

end Exit

/-- A transfer of the bytes 1 to 4, whose check value is 0xB63CFBCD. -/
def completedApplication : UdsApplication Unit :=
  (run dialogueStep agreeableApplication [.request DownloadGate.stagingRequest 0,.pollErase 1,
    .request [0x36,0x01,1,2,3,4] 2]).1

/-- The completed transfer refuses both documented requests, and ends with one
byte of any value or with one such byte before the check value. -/
theorem documented_exit_refused :
    Completed completedApplication 3 ∧
      imageCrc completedApplication.context.download = 0xB63CFBCD ∧
      responded (handleRequest completedApplication [0x37] 3) = [0x7F,0x37,0x22] ∧
      responded (handleRequest completedApplication [0x37,0xB6,0x3C,0xFB,0xCD] 3) =
        [0x7F,0x37,0x22] ∧
      Finishes completedApplication [0x37,0xEE] 3 ∧
      Finishes completedApplication [0x37,0xEE,0xB6,0x3C,0xFB,0xCD] 3 := by
  have hcallbacks : completedApplication.context.download.callbacks = agreeableCallbacks := rfl
  refine ⟨?_,by decide +kernel⟩
  constructor
  · decide +kernel
  · decide +kernel
  · decide +kernel
  · decide +kernel
  · rw [hcallbacks]
    exact agreeable_succeed

end CanopenReference.TransferExit
