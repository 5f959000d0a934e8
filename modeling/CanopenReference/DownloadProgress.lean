import CanopenReference.TransferBlocks
import CanopenReference.UdsFlowControl

/-!
# The erase that nobody polls

A download leaves its erase by a poll only, and no part of the processing pass
polls it. So no download of the runtime ever receives data.
-/

set_option autoImplicit false

namespace CanopenReference.DownloadProgress
open Library Library.Runs Download DownloadSafety DownloadRecords Uds Diagnostics Handling
open Dialogue UdsFlowControl IsoTp UdsStm32

section Download
variable {σ : Type} {d : UdsDownload σ}

/-- The object is idle, waits for its erase, or was stopped. -/
def Unreceived (d : UdsDownload σ) : Prop :=
  d.state = .idle ∨ d.state = .erasing ∨ d.state = .abortedState

theorem not_receiving (h : Unreceived d) : d.state ≠ .receiving := by
  rcases h with h | h | h <;> rw [h] <;> decide

theorem operate_unreceived (h : Unreceived d) (call : DownloadCall)
    (hcall : ∀ now, call ≠ .pollErase now) : Unreceived (operate d call).1 := by
  obtain ⟨next,answers,ho,hnext⟩ := plain_outcome d call
  rw [hnext]
  generalize (operate d call).2 = result at ho
  cases ho with
  | begun c address length now hpassed hanswer => exact Or.inr (Or.inl rfl)
  | polled c now result hresult => exact absurd rfl (hcall now)
  | erased c now hstate => exact absurd rfl (hcall now)
  | programmed c block data now hreach => exact absurd hreach.2.2.2.1 (not_receiving h)
  | verified c crc has now hstate hlength => exact absurd hstate (not_receiving h)
  | stopped c _ _ _ crcValid hcall hresult hanswers => exact Or.inr (Or.inr rfl)
  | _ => exact h

theorem write_unreceived (h : Unreceived d) (block : UInt8) (data : List UInt8)
    (now : UInt32) : (udsDownloadWrite d block data now).2.1 ≠ .ok := by
  obtain ⟨next,answers,ho,_⟩ := plain_outcome d (.write block data now)
  intro hok
  have hresult : (operate d (.write block data now)).2 = some .ok := congrArg some hok
  rw [hresult] at ho
  cases ho with
  | refused c _ _ _ _ hr => exact hr.1 rfl
  | programmed c _ _ _ hreach => exact not_receiving h hreach.2.2.2.1
  | stopped c _ _ _ _ _ hr _ => exact hr rfl

end Download

section Run
variable {μ : Type}

theorem effect_download {server next : UdsServer} {context handled : UdsContext μ}
    {request : List UInt8} (h : RequestEffect server context request next handled) :
    handled.download = context.download ∨ ∃ call, (∀ now, call ≠ .pollErase now) ∧
      handled.download = (operate context.download call).1 := by
  cases h with
  | seed room _ =>
    left
    rcases seed_outcome server context (keyLevel request) room with ⟨_,_,he⟩ | he <;> rw [he]
  | key _ _ _ =>
    left
    rcases key_outcome server context (keyLevel request) (request.drop 2) with
      ⟨_,he⟩ | ⟨_,_,_,he⟩ <;> rw [he]
  | download _ _ _ _ =>
    right
    rw [request_download_context]
    exact ⟨.begin (downloadAddress request) (downloadLength request) context.nowMs,by simp,rfl⟩
  | transfer _ _ _ _ =>
    exact Or.inr ⟨.write (byteAt request 1) (request.drop 2) context.nowMs,by simp,rfl⟩
  | exit room _ _ _ _ =>
    rcases transfer_exit_context server context (request.drop 1) room with he | ⟨crc,has,he⟩
    · exact Or.inl (by rw [he])
    · right
      rw [he]
      exact ⟨.finish crc has context.nowMs,by simp,rfl⟩
  | _ => exact Or.inl rfl

def Unfed (app : UdsApplication μ) : Prop := Unreceived app.context.download

theorem step_unfed {app : UdsApplication μ} {input : ApplicationInput} {now : UInt32}
    (h : Unfed app) (hin : InPass now input) : Unfed (applicationStep app input).1 := by
  cases input with
  | request bytes t =>
    show Unreceived (handleRequest (atTime app t) bytes t).1.context.download
    rcases handle_effect (atTime app t) bytes t with ⟨_,_,hc⟩ | ⟨_,he⟩
    · rw [hc]
      exact h
    · rcases effect_download he with hd | ⟨call,hcall,hd⟩
      · rw [hd]
        exact h
      · rw [hd]
        exact operate_unreceived h call hcall
  | tick t => exact operate_unreceived h (.tick t) (by simp)
  | pollErase t => exact hin.elim

theorem pass_unfed {app : UdsApplication μ} {now : UInt32} {inputs : List ApplicationInput}
    (h : Unfed app) (hin : ∀ input ∈ inputs, InPass now input) :
    Unfed (run applicationStep app inputs).1 :=
  along_invariant applicationStep (fun _ input => InPass now input) Unfed
    (fun _ _ h hin => step_unfed h hin) app inputs h (along_forall applicationStep app inputs hin)

theorem runtime_unfed (rt : UdsRuntime μ) (input : RuntimeInput) (h : Unfed rt.application) :
    Unfed (runtimeStep rt input).1.application := by
  cases input with
  | rxFromIsr frame =>
    simp only [runtimeStep,canopenReferenceUdsRxFromIsr]
    split <;> exact h
  | process answers now =>
    obtain ⟨inputs,hin,happ⟩ := process_application rt answers now
    show Unfed (canopenReferenceUdsProcess rt answers now).1.application
    rw [happ]
    exact pass_unfed h hin
  | clearReset =>
    simp only [runtimeStep,canopenReferenceUdsClearReset]
    split <;> exact h

/-- Whatever the runtime has received and however often it was processed, no
download has left its erase, and in the next pass no transfer is accepted. -/
theorem download_never_proceeds (callbacks : Option (UdsDownloadCallbacks μ)) (memory : μ)
    (registered : Bool) (now : UInt32) (inputs : List RuntimeInput) (t : UInt32)
    (requests : List (List UInt8)) (transfer : List UInt8) :
    let rt := (run runtimeStep (canopenReferenceUdsInit callbacks memory registered now) inputs).1
    let app := (run applicationStep rt.application
      (.tick t::requests.map fun request => .request request t)).1
    Unreceived rt.application.context.download ∧
      ¬Positive ⟨0x36::transfer,t,responded (handleRequest app (0x36::transfer) t)⟩ := by
  intro rt app
  have hrt : Unfed rt.application :=
    run_invariant runtimeStep (fun rt => Unfed rt.application) runtime_unfed _ inputs (Or.inl rfl)
  have hin : ∀ input ∈ .tick t::requests.map fun request => .request request t,
      InPass t input := by
    simp [InPass]
  have happ : Unfed app := pass_unfed hrt hin
  refine ⟨hrt,fun hp => ?_⟩
  have hok := (transfer_positive app (0x36::transfer) t rfl hp).2
  exact write_unreceived happ _ _ _ ((transfer_data_ok _ _ _ _).mp hok)

end Run

/-- A runtime whose memory erases at once and accepts everything. -/
def agreeableRuntime : UdsRuntime Unit :=
  canopenReferenceUdsInit (some agreeableCallbacks) () true 0

/-- The request for the first four bytes of the staging image, in two frames,
and passes for a second after it. -/
def erasePasses : List RuntimeInput :=
  [.rxFromIsr (filledFrame udsRxCanId [0x10,0x0A,0x34,0x44,0x08,0x08,0x00,0x00]),
    .rxFromIsr (filledFrame udsRxCanId [0x21,0x00,0x00,0x00,0x04]),.process [.accepted] 10,
    .process [.accepted] 20,.process [.accepted] 1000]

/-- The first and only block of the image. -/
def firstBlock : List RuntimeInput :=
  [.rxFromIsr (filledFrame udsRxCanId [0x06,0x36,0x01,1,2,3,4]),.process [.accepted] 1001]

/-- The request is accepted and the erase is done at once, and yet the first
block is refused. -/
theorem erase_never_polled :
    let begun := (run runtimeStep agreeableRuntime (erasePasses.take 3)).1.application
    let waited := (run runtimeStep agreeableRuntime erasePasses).1.application
    let refused := (run runtimeStep agreeableRuntime (erasePasses++firstBlock)).1.application
    begun.response.front begun.responseLength.toNat = [0x74,0x20,0x01,0x00] ∧
      begun.context.download.state = .erasing ∧ waited.context.download.state = .erasing ∧
      timeExpired 1001 waited.context.download.deadlineMs = false ∧
      refused.response.front refused.responseLength.toNat = [0x7F,0x36,0x72] ∧
      refused.context.download.state = .erasing := by
  decide +kernel

end CanopenReference.DownloadProgress
