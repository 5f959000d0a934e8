import CanopenReference.DownloadGate
import CanopenReference.DownloadRecords
import CanopenReference.Lifetime

/-!
# The block counter of the server and of the download object

Both count the blocks of a transfer. While the server has a transfer open and
the object takes one in, a block that one of them counts is counted by both.
-/

set_option autoImplicit false

namespace CanopenReference.BlockCounter
open Library Library.Runs Download DownloadSafety DownloadRecords Uds Diagnostics Handling
open Dialogue Lifetime DownloadGate

section Download
variable {σ : Type} {d : UdsDownload σ}

def TakesIn (d : UdsDownload σ) : Prop := d.state = .erasing ∨ d.state = .receiving

def SameBlock (d next : UdsDownload σ) : Prop :=
  TakesIn next → TakesIn d ∧ next.expectedBlock = d.expectedBlock

theorem operate_same_block (call : DownloadCall)
    (hcall : (operate d call).2 = some .ok →
      (∀ address length now, call ≠ .begin address length now) ∧
        ∀ block data now, call ≠ .write block data now) :
    SameBlock d (operate d call).1 := by
  obtain ⟨next,answers,ho,hnext⟩ := plain_outcome d call
  rw [hnext]
  generalize (operate d call).2 = result at ho hcall
  cases ho with
  | begun c address length now _ _ => exact absurd rfl ((hcall rfl).1 address length now)
  | erased c now hstate => exact fun _ => ⟨Or.inl hstate,rfl⟩
  | programmed c block data now _ => exact absurd rfl ((hcall rfl).2 block data now)
  | verified c _ _ _ _ _ => rintro (h | h) <;> cases h
  | stopped c _ _ _ _ _ _ _ => rintro (h | h) <;> cases h
  | _ => exact fun h => ⟨h,rfl⟩

theorem begin_first_block {address length now : UInt32}
    (hok : (udsDownloadBegin d address length now).2.1 = .ok) :
    (udsDownloadBegin d address length now).1.expectedBlock = 1 ∧
      3 ≤ (udsDownloadBegin d address length now).1.memory.maxBlockLength := by
  obtain ⟨next,answers,ho,hnext⟩ := plain_outcome d (.begin address length now)
  have hresult : (operate d (.begin address length now)).2 = some .ok := congrArg some hok
  rw [show (udsDownloadBegin d address length now).1 = _ from hnext]
  rw [hresult] at ho
  cases ho with
  | refused c _ _ _ _ hr => exact absurd rfl hr.1
  | eraseFailed c _ _ _ _ _ _ hr => exact absurd rfl hr
  | begun c _ _ _ hpassed _ => exact ⟨rfl,(begin_passed hpassed).blockLow⟩
  | stopped c _ _ _ _ _ hr _ => exact absurd rfl hr

theorem write_next_block {block : UInt8} {data : List UInt8} {now : UInt32}
    (hok : (udsDownloadWrite d block data now).2.1 = .ok) :
    TakesIn d ∧ (udsDownloadWrite d block data now).1.expectedBlock = d.expectedBlock+1 := by
  obtain ⟨next,answers,ho,hnext⟩ := plain_outcome d (.write block data now)
  have hresult : (operate d (.write block data now)).2 = some .ok := congrArg some hok
  rw [show (udsDownloadWrite d block data now).1 = _ from hnext]
  rw [hresult] at ho
  cases ho with
  | refused c _ _ _ _ hr => exact absurd rfl hr.1
  | programmed c _ _ _ hreach => exact ⟨Or.inr hreach.2.2.2.1,rfl⟩
  | stopped c _ _ _ _ _ hr _ => exact absurd rfl hr

theorem sequence_error_block {block : UInt8} {data : List UInt8} {now : UInt32}
    (h : (udsDownloadWrite d block data now).2.1 = .sequenceError) :
    d.state = .receiving ∧ block ≠ d.expectedBlock := by
  unfold udsDownloadWrite at h
  split at h
  · cases h
  simp only at h
  split at h
  · cases h
  rename_i hready
  simp only [not_or,not_not] at hready
  split at h
  · cases h
  split at h
  · exact ⟨hready.2.2,‹_›⟩
  split at h
  · cases h
  split at h
  · cases h
  split at h <;> cases h

end Download

section Server
variable {σ : Type}

def Agree (server : UdsServer) (d : UdsDownload σ) : Prop :=
  server.downloadActive = true → TakesIn d → server.nextDownloadBlock = d.expectedBlock

theorem agree_same {server : UdsServer} {d next : UdsDownload σ} (h : Agree server d)
    (hnext : SameBlock d next) : Agree server next := by
  intro hactive ht
  obtain ⟨htaken,hblock⟩ := hnext ht
  exact (h hactive htaken).trans hblock.symm

end Server

section Run
variable {μ : Type}

theorem effect_agree {server next : UdsServer} {context handled : UdsContext μ}
    {request : List UInt8} (he : RequestEffect server context request next handled)
    (hbegin : byteAt request 0 = 0x34 → downloadFramed request = true →
      (udsDownloadBegin context.download (downloadAddress request) (downloadLength request)
        context.nowMs).2.1 ≠ .ok)
    (h : Agree server context.download) : Agree next handled.download := by
  cases he with
  | seed room _ =>
    have hd : (udsSecuritySeed server context (keyLevel request) room).1.download =
        context.download := by
      rcases seed_outcome server context (keyLevel request) room with ⟨_,_,hc⟩ | hc <;> rw [hc]
    rw [hd]
    exact h
  | key _ _ hnext =>
    have hd : (udsSecurityKey server context (keyLevel request)
        (request.drop 2)).1.download = context.download := by
      rcases key_outcome server context (keyLevel request) (request.drop 2) with
        ⟨_,hc⟩ | ⟨_,_,_,hc⟩ <;> rw [hc]
    rw [hd]
    rcases hnext with ⟨rfl,_⟩ | ⟨_,rfl⟩ <;> exact h
  | download _ hsid hframed hnext =>
    have hfailed := hbegin hsid hframed
    have hsame : Agree server (udsDownloadBegin context.download (downloadAddress request)
        (downloadLength request) context.nowMs).1 :=
      agree_same h (operate_same_block (.begin (downloadAddress request) (downloadLength request)
        context.nowMs) fun hok => absurd (Option.some.inj hok) hfailed)
    rw [request_download_context]
    rcases hnext with rfl | ⟨hok,_⟩
    · exact hsame
    · exact absurd hok (request_download_failed server context _ _ hfailed)
  | transfer _ _ _ hnext =>
    rcases hnext with ⟨rfl,hfailed⟩ | ⟨hok,rfl⟩
    · rw [ne_eq,transfer_data_ok] at hfailed
      exact agree_same h (operate_same_block (.write (byteAt request 1) (request.drop 2)
        context.nowMs) fun hok => absurd (Option.some.inj hok) hfailed)
    · obtain ⟨htaken,hblock⟩ := write_next_block ((transfer_data_ok _ _ _ _).mp hok)
      intro hactive _
      exact (congrArg (·+1) (h hactive htaken)).trans hblock.symm
  | exit room _ _ _ hnext =>
    have hsame : Agree server (udsTransferExit server context (request.drop 1) room).1.download := by
      rcases transfer_exit_context server context (request.drop 1) room with hc | ⟨crc,has,hc⟩
      · rw [hc]
        exact h
      · rw [hc]
        exact agree_same h (operate_same_block (.finish crc has context.nowMs)
          fun _ => ⟨by simp,by simp⟩)
    rcases hnext with rfl | ⟨_,rfl⟩
    · exact hsame
    · exact fun hactive => by cases hactive
  | _ => exact h

def CountersAgree (app : UdsApplication μ) : Prop := Agree app.server app.context.download

theorem request_agree (app : UdsApplication μ) (request : List UInt8) (now : UInt32)
    (h : CountersAgree app) : CountersAgree (handleRequest (atTime app now) request now).1 := by
  by_cases hbegin : byteAt request 0 = 0x34 ∧ downloadFramed request = true ∧
      (udsDownloadBegin app.context.download (downloadAddress request) (downloadLength request)
        now).2.1 = .ok
  · obtain ⟨hsid,hframed,hok⟩ := hbegin
    obtain ⟨hfirst,hmax⟩ := begin_first_block hok
    have hasked := request_download_ok (active (atTime app now) now) (atTime app now).context
      (downloadAddress request) (downloadLength request) hok
    have hh := download_handled (atTime app now) request now hsid hframed
    simp only [hasked] at hh
    obtain ⟨hserver,hcontext,_⟩ := hh trivial hmax
    rw [request_download_context] at hcontext
    unfold CountersAgree
    rw [hserver,hcontext]
    exact fun _ _ => hfirst.symm
  · rcases handle_effect (atTime app now) request now with ⟨_,hserver,hcontext⟩ | ⟨_,he⟩
    · unfold CountersAgree
      rw [hserver,hcontext]
      exact h
    · exact effect_agree he (fun hsid hframed hok => hbegin ⟨hsid,hframed,hok⟩) h

theorem tick_agree (app : UdsApplication μ) (now : UInt32) (h : CountersAgree app) :
    CountersAgree (tickApplication app now).1 := by
  have hsame := agree_same h (operate_same_block (.tick now) fun _ => ⟨by simp,by simp⟩)
  show Agree (udsServerTick app.server now).1 (operate app.context.download (.tick now)).1
  unfold udsServerTick
  split
  · exact fun hactive => by cases hactive
  · exact hsame

theorem step_agree (callbacks : Option (UdsDownloadCallbacks μ)) (app : UdsApplication μ)
    (input : UInt32 × LifeInput) (h : CountersAgree app) :
    CountersAgree (lifeStep callbacks app input).1 := by
  obtain ⟨now,input⟩ := input
  cases input with
  | request bytes => exact request_agree app bytes now h
  | tick => exact tick_agree app now h
  | pollErase => exact agree_same h (operate_same_block (.pollErase now) fun _ => ⟨by simp,by simp⟩)
  | clearReset => exact h
  | communicationReset nowMs => exact fun hactive => by cases hactive

/-- The application on a board with this memory map. -/
def loaded (memory : Option UdsDownloadMemoryMap) (callbacks : Option (UdsDownloadCallbacks μ))
    (context : μ) (start : UInt32) : UdsApplication μ :=
  let app := applicationInit callbacks context start
  { app with
    context := { app.context with download := udsDownloadInit memory callbacks context } }

/-- In every state that is reached the counters agree, and the write of the next
block of an open transfer is not out of sequence. -/
theorem counters_agree (memory : Option UdsDownloadMemoryMap)
    (callbacks : Option (UdsDownloadCallbacks μ)) (context : μ) (start : UInt32)
    (inputs : List (UInt32 × LifeInput)) :
    let app := (run (lifeStep callbacks) (loaded memory callbacks context start) inputs).1
    CountersAgree app ∧ ∀ block data now, app.server.downloadActive = true →
      block = app.server.nextDownloadBlock →
      (udsDownloadWrite app.context.download block data now).2.1 ≠ .sequenceError := by
  intro app
  have hagree : CountersAgree app :=
    run_invariant (lifeStep callbacks) CountersAgree (step_agree callbacks) _ inputs
      fun hactive => by cases hactive
  refine ⟨hagree,fun block data now hactive hblock hsequence => ?_⟩
  obtain ⟨hstate,hne⟩ := sequence_error_block hsequence
  exact hne (hblock.trans (hagree hactive (Or.inr hstate)))

end Run

def firstBlockInputs : List (UInt32 × LifeInput) :=
  [(0,.request stagingRequest),(1,.pollErase),(2,.request [0x36,1,0xA5,0xA5,0xA5,0xA5])]

theorem counters_agree_second_block :
    let app := (run (lifeStep (some agreeableCallbacks))
      (loaded (some referenceMemory) (some agreeableCallbacks) () 0) firstBlockInputs).1
    app.server.downloadActive = true ∧ app.context.download.state = .receiving ∧
      app.context.download.expectedBlock = 2 ∧
      app.server.nextDownloadBlock = app.context.download.expectedBlock :=
  ⟨by decide +kernel,by decide +kernel,by decide +kernel,
    (counters_agree (some referenceMemory) (some agreeableCallbacks) () 0 firstBlockInputs).1
      (by decide +kernel) (Or.inr (by decide +kernel))⟩

end CanopenReference.BlockCounter
