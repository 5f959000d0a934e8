import Mathlib.Data.List.Induction
import CanopenReference.Library.Runs
import CanopenReference.Diagnostics

/-!
# What handling a request does

The server, its callbacks and their context as one machine, driven by requests,
ticks and polls of a pending erase at arbitrary times. One inversion theorem
says everything a request can do to the server and to the context.
-/

set_option autoImplicit false

namespace CanopenReference.Handling
open Library Library.Runs Download Uds Diagnostics

def acceptsSession (request : List UInt8) : Bool :=
  byteAt request 0 = 0x10 ∧ request.length = 2 ∧
    (subfunctionOf request = udsSessionDefault ∨ subfunctionOf request = udsSessionProgramming ∨
      subfunctionOf request = udsSessionExtended)

/-- The request passes the checks that the download service makes itself. -/
def downloadFramed (request : List UInt8) : Bool :=
  let addressLength := (byteAt request 1 >>> 4).toNat
  let lengthLength := (byteAt request 1 &&& 0x0F).toNat
  3 ≤ request.length ∧ addressLength ≠ 0 ∧ addressLength ≤ 4 ∧ lengthLength ≠ 0 ∧
    lengthLength ≤ 4 ∧ request.length = 2+addressLength+lengthLength

def downloadAddress (request : List UInt8) : UInt32 :=
  readBeU32 ((request.drop 2).take (byteAt request 1 >>> 4).toNat)

def downloadLength (request : List UInt8) : UInt32 :=
  readBeU32 ((request.drop (2+(byteAt request 1 >>> 4).toNat)).take
    (byteAt request 1 &&& 0x0F).toNat)

def transferFramed (server : UdsServer) (request : List UInt8) : Bool :=
  3 ≤ request.length ∧ server.downloadActive ∧ byteAt request 1 = server.nextDownloadBlock ∧
    request.length-2 ≤ (server.maxDownloadBlockLength-2).toNat

def keyLevel (request : List UInt8) : UInt8 := (byteAt request 1+1)/2

section Effect
variable {μ : Type}

inductive RequestEffect (server : UdsServer) (context : UdsContext μ) (request : List UInt8) :
    UdsServer → UdsContext μ → Prop where
  | kept (hsession : acceptsSession request = false) :
      RequestEffect server context request server context
  | session (hsession : acceptsSession request = true) :
      RequestEffect server context request
        (udsServerResetSecurity { server with session := subfunctionOf request }) context
  | reset (hsid : byteAt request 0 = 0x11) (hlevel : server.securityLevel ≠ 0) :
      RequestEffect server context request { server with resetPending := true } context
  | seed (room : UInt16) (hsid : byteAt request 0 = 0x27) :
      RequestEffect server context request server
        (udsSecuritySeed server context (keyLevel request) room).1
  | key (next : UdsServer) (hsid : byteAt request 0 = 0x27)
      (hnext : next = server ∧
          (udsSecurityKey server context (keyLevel request) (request.drop 2)).2 ≠ .ok ∨
        (udsSecurityKey server context (keyLevel request) (request.drop 2)).2 = .ok ∧
          next = { server with securityLevel := keyLevel request }) :
      RequestEffect server context request next
        (udsSecurityKey server context (keyLevel request) (request.drop 2)).1
  | dtcSetting (enabled : Bool) (hsid : byteAt request 0 = 0x85) :
      RequestEffect server context request { server with dtcSettingEnabled := enabled } context
  | download (next : UdsServer) (hsid : byteAt request 0 = 0x34)
      (hframed : downloadFramed request = true)
      (hnext : next = server ∨
        (udsRequestDownload server context (downloadAddress request)
          (downloadLength request)).2.1 = .ok ∧
        next = { server with
          downloadActive := true, nextDownloadBlock := 1,
          maxDownloadBlockLength := (udsRequestDownload server context (downloadAddress request)
            (downloadLength request)).2.2 }) :
      RequestEffect server context request next
        (udsRequestDownload server context (downloadAddress request) (downloadLength request)).1
  | transfer (next : UdsServer) (hsid : byteAt request 0 = 0x36)
      (hframed : transferFramed server request = true)
      (hnext : next = server ∧
          (udsTransferData server context (byteAt request 1) (request.drop 2)).2 ≠ .ok ∨
        (udsTransferData server context (byteAt request 1) (request.drop 2)).2 = .ok ∧
          next = { server with nextDownloadBlock := server.nextDownloadBlock+1 }) :
      RequestEffect server context request next
        (udsTransferData server context (byteAt request 1) (request.drop 2)).1
  | exit (room : UInt16) (next : UdsServer) (hsid : byteAt request 0 = 0x37)
      (hactive : server.downloadActive = true)
      (hnext : next = server ∨
        (udsTransferExit server context (request.drop 1) room).2.result = .ok ∧
        next = { server with downloadActive := false }) :
      RequestEffect server context request next
        (udsTransferExit server context (request.drop 1) room).1

theorem accepts_sid {request : List UInt8} (h : byteAt request 0 ≠ 0x10) :
    acceptsSession request = false := by
  simp [acceptsSession,h]

section Services
variable {capacity : UInt16} (server : UdsServer) (context : UdsContext μ)
  (request : List UInt8) (reply : Reply capacity)

theorem session_effect (hsid : byteAt request 0 = 0x10) :
    let served := serviceSessionControl server context request reply
    RequestEffect server context request served.server served.context := by
  unfold serviceSessionControl
  split
  · rename_i hl
    exact .kept (by simp [acceptsSession,hl])
  rename_i hl
  simp only
  split
  · rename_i hs
    exact .kept (by simp [acceptsSession,hs])
  · rename_i hs
    refine .session ?_
    simp only [not_and_or,not_not] at hl hs
    simp [acceptsSession,hsid,hl,hs]

theorem reset_effect (hsid : byteAt request 0 = 0x11) :
    let served := serviceEcuReset referenceCallbacks server context request reply
    RequestEffect server context request served.server served.context := by
  have hkept : acceptsSession request = false := accepts_sid (by rw [hsid]; decide)
  simp only [serviceEcuReset,referenceCallbacks]
  split
  · exact .kept hkept
  split
  · exact .kept hkept
  rename_i hs
  rw [not_not] at hs
  simp only [udsEcuReset,hs]
  by_cases hlevel : server.securityLevel = 0
  · simp only [hlevel]
    exact .kept hkept
  · simp only [hlevel]
    exact .reset hsid hlevel

theorem read_dids_keeps (rest : List UInt8) :
    ∃ answered, readDids udsReadDid server request context rest reply =
      ⟨server,context,answered⟩ := by
  induction rest using List.twoStepInduction generalizing reply with
  | nil => exact ⟨_,rfl⟩
  | singleton x => exact ⟨_,rfl⟩
  | cons_cons high low rest ih _ =>
    unfold readDids
    split
    · exact ⟨_,rfl⟩
    have hread : ∀ room, ∃ filled, udsReadDid server context (readU16 high low) room =
        (context,filled) := fun room => ⟨_,rfl⟩
    simp only
    obtain ⟨filled,hfilled⟩ := hread (capacity-(reply.length+2))
    rw [hfilled]
    simp only
    split
    · exact ⟨_,rfl⟩
    · exact ih _

theorem read_data_keeps :
    ∃ answered, serviceReadData referenceCallbacks server context request reply =
      ⟨server,context,answered⟩ := by
  simp only [serviceReadData,referenceCallbacks]
  split
  · exact ⟨_,rfl⟩
  · exact read_dids_keeps server context request _ _

theorem read_dtc_keeps :
    ∃ answered, serviceReadDtc referenceCallbacks server context request reply =
      ⟨server,context,answered⟩ := by
  simp only [serviceReadDtc,referenceCallbacks]
  split
  · exact ⟨_,rfl⟩
  have hread : ∀ subfunction room, ∃ filled,
      udsReadDtc server context subfunction request room = (context,filled) := by
    intro subfunction room
    unfold udsReadDtc
    split
    · exact ⟨_,rfl⟩
    split <;> exact ⟨_,rfl⟩
  obtain ⟨filled,hfilled⟩ := hread (subfunctionOf request) (room capacity 1)
  rw [hfilled]
  exact ⟨_,rfl⟩

theorem communication_control_keeps :
    ∃ answered, serviceCommunicationControl referenceCallbacks server context request reply =
      ⟨server,context,answered⟩ := by
  simp only [serviceCommunicationControl,referenceCallbacks,udsCommunicationControl]
  split
  · exact ⟨_,rfl⟩
  · exact ⟨_,rfl⟩

theorem routine_control_keeps :
    ∃ answered, serviceRoutineControl referenceCallbacks server context request reply =
      ⟨server,context,answered⟩ := by
  simp only [serviceRoutineControl,referenceCallbacks,udsRoutineControl]
  split <;> exact ⟨_,rfl⟩

theorem tester_present_keeps :
    ∃ answered, serviceTesterPresent server context request reply =
      ⟨server,context,answered⟩ := by
  unfold serviceTesterPresent
  split
  · exact ⟨_,rfl⟩
  split <;> exact ⟨_,rfl⟩

theorem security_effect (hsid : byteAt request 0 = 0x27) :
    let served := serviceSecurityAccess referenceCallbacks server context request reply
    RequestEffect server context request served.server served.context := by
  have hkept : acceptsSession request = false := accepts_sid (by rw [hsid]; decide)
  simp only [serviceSecurityAccess,referenceCallbacks]
  split
  · exact .kept hkept
  split
  · exact .kept hkept
  split
  · have hseed := @RequestEffect.seed μ server context request (room capacity 2) hsid
    split
    · exact hseed
    split <;> exact hseed
  split
  · exact .kept hkept
  split
  · rename_i hr
    exact .key server hsid (Or.inl ⟨rfl,hr⟩)
  · rename_i hr
    exact .key _ hsid (Or.inr ⟨not_not.mp hr,rfl⟩)

theorem dtc_setting_effect (hsid : byteAt request 0 = 0x85) :
    let served := serviceDtcSetting referenceCallbacks server context request reply
    RequestEffect server context request served.server served.context := by
  have hkept : acceptsSession request = false := accepts_sid (by rw [hsid]; decide)
  simp only [serviceDtcSetting,referenceCallbacks]
  split
  · exact .kept hkept
  split
  · exact .kept hkept
  split
  · exact .kept hkept
  · exact .dtcSetting _ hsid

theorem framed_of_not_refused
    (h : ¬(request.length < 3 ∨ (byteAt request 1 >>> 4).toNat = 0 ∨
      4 < (byteAt request 1 >>> 4).toNat ∨ (byteAt request 1 &&& 0x0F).toNat = 0 ∨
      4 < (byteAt request 1 &&& 0x0F).toNat ∨ request.length ≠
        2+(byteAt request 1 >>> 4).toNat+(byteAt request 1 &&& 0x0F).toNat)) :
    downloadFramed request = true := by
  simp only [not_or,not_not,Nat.not_lt] at h
  exact decide_eq_true h

theorem download_effect (hsid : byteAt request 0 = 0x34) :
    let served := serviceDownload referenceCallbacks server context request reply
    RequestEffect server context request served.server served.context := by
  have hkept : acceptsSession request = false := accepts_sid (by rw [hsid]; decide)
  simp only [serviceDownload,referenceCallbacks]
  split
  · exact .kept hkept
  rename_i hrefused
  have hframed := framed_of_not_refused request hrefused
  split
  · exact .download server hsid hframed (Or.inl rfl)
  rename_i hok
  split
  · exact .download server hsid hframed (Or.inl rfl)
  · exact .download _ hsid hframed (Or.inr ⟨not_not.mp hok,rfl⟩)

theorem transfer_effect (hsid : byteAt request 0 = 0x36) :
    let served := serviceTransferData referenceCallbacks server context request reply
    RequestEffect server context request served.server served.context := by
  have hkept : acceptsSession request = false := accepts_sid (by rw [hsid]; decide)
  simp only [serviceTransferData,referenceCallbacks]
  split
  · exact .kept hkept
  rename_i hshort
  split
  · exact .kept hkept
  rename_i hblock
  split
  · exact .kept hkept
  rename_i hlong
  have hframed : transferFramed server request = true := by
    simp only [not_or,Nat.not_lt,Bool.not_eq_true,Bool.not_eq_false'] at hshort
    exact decide_eq_true ⟨hshort.1,hshort.2,not_not.mp hblock,Nat.not_lt.mp hlong⟩
  split
  · rename_i hr
    exact .transfer server hsid hframed (Or.inl ⟨rfl,hr⟩)
  · rename_i hr
    exact .transfer _ hsid hframed (Or.inr ⟨not_not.mp hr,rfl⟩)

theorem exit_effect (hsid : byteAt request 0 = 0x37) :
    let served := serviceTransferExit referenceCallbacks server context request reply
    RequestEffect server context request served.server served.context := by
  have hkept : acceptsSession request = false := accepts_sid (by rw [hsid]; decide)
  simp only [serviceTransferExit,referenceCallbacks]
  split
  · exact .kept hkept
  rename_i hidle
  have hactive : server.downloadActive = true := by simpa using hidle
  split
  · exact .exit _ server hsid hactive (Or.inl rfl)
  rename_i hok
  split
  · exact .exit _ server hsid hactive (Or.inl rfl)
  · exact .exit _ _ hsid hactive (Or.inr ⟨not_not.mp hok,rfl⟩)

theorem kept_effect {served : Served (UdsContext μ) capacity} (hsid : byteAt request 0 ≠ 0x10)
    (h : ∃ answered, served = ⟨server,context,answered⟩) :
    RequestEffect server context request served.server served.context := by
  obtain ⟨answered,rfl⟩ := h
  exact .kept (accepts_sid hsid)

theorem dispatch_effect :
    let served := dispatch referenceCallbacks server context request reply
    RequestEffect server context request served.server served.context := by
  have hsid : ∀ {k : UInt8}, (byteAt request 0).toNat = k.toNat → byteAt request 0 = k :=
    fun h => UInt8.toNat_inj.mp h
  have hother : ∀ {k : ℕ}, (byteAt request 0).toNat = k → k ≠ 0x10 → byteAt request 0 ≠ 0x10 := by
    rintro _ rfl hk hc
    exact hk (by rw [hc]; rfl)
  unfold dispatch
  split
  · rename_i h
    exact session_effect server context request reply (hsid h)
  · rename_i h
    exact reset_effect server context request reply (hsid h)
  · rename_i h
    exact kept_effect server context request (hother h (by decide))
      (read_dtc_keeps server context request reply)
  · rename_i h
    exact kept_effect server context request (hother h (by decide))
      (read_data_keeps server context request reply)
  · rename_i h
    exact security_effect server context request reply (hsid h)
  · rename_i h
    exact kept_effect server context request (hother h (by decide))
      (communication_control_keeps server context request reply)
  · rename_i h
    exact kept_effect server context request (hother h (by decide)) ⟨_,rfl⟩
  · rename_i h
    exact kept_effect server context request (hother h (by decide))
      (routine_control_keeps server context request reply)
  · rename_i h
    exact download_effect server context request reply (hsid h)
  · rename_i h
    exact transfer_effect server context request reply (hsid h)
  · rename_i h
    exact exit_effect server context request reply (hsid h)
  · rename_i h
    exact kept_effect server context request (hother h (by decide))
      (tester_present_keeps server context request reply)
  · rename_i h
    exact dtc_setting_effect server context request reply (hsid h)
  · rename_i h _ _ _ _ _ _ _ _ _ _ _ _
    refine kept_effect server context request (fun hc => h ?_) ⟨_,rfl⟩
    rw [hc]
    rfl

end Services

/-- A request of the wrong size is dropped; any other is dispatched after the
activity time is set. -/
theorem handle_effect (app : UdsApplication μ) (request : List UInt8) (now : UInt32) :
    let handled := (handleRequest app request now).1
    acceptsSession request = false ∧ handled.server = app.server ∧
        handled.context = app.context ∨
      request.length ≤ udsMaxRequestLength ∧
        RequestEffect { app.server with lastActivityMs := now } app.context request handled.server
          handled.context := by
  unfold handleRequest udsServerHandle
  split
  · rename_i h
    refine Or.inl ⟨?_,rfl,rfl⟩
    have hl : request.length ≠ 2 := by
      rcases h with h | h | h
      · cases h
      · omega
      · rw [udsMaxRequestLength] at h
        omega
    simp [acceptsSession,hl]
  · rename_i h
    simp only [not_or,Nat.not_lt] at h
    exact Or.inr ⟨h.2.2,dispatch_effect _ _ _ _⟩

theorem not_dropped {request : List UInt8} (hlow : 3 ≤ request.length)
    (hhigh : request.length ≤ udsMaxRequestLength) :
    ¬(udsMaxResponseLength = 0 ∨ request.length = 0 ∨ udsMaxRequestLength < request.length) := by
  rintro (h | h | h)
  · cases h
  · omega
  · omega

theorem handle_download (app : UdsApplication μ) (request : List UInt8) (now : UInt32)
    (hsid : byteAt request 0 = 0x34) (hframed : downloadFramed request = true)
    (hlength : request.length ≤ udsMaxRequestLength) :
    (handleRequest app request now).1.context =
      (udsRequestDownload { app.server with lastActivityMs := now } app.context
        (downloadAddress request) (downloadLength request)).1 := by
  have hf := of_decide_eq_true hframed
  simp only [handleRequest,udsServerHandle]
  rw [if_neg (not_dropped hf.1 hlength)]
  simp only [dispatch,hsid]
  show (serviceDownload referenceCallbacks _ _ _ _).context = _
  simp only [serviceDownload,referenceCallbacks]
  rw [if_neg (by omega)]
  split
  · rfl
  split <;> rfl

theorem handle_transfer (app : UdsApplication μ) (request : List UInt8) (now : UInt32)
    (hsid : byteAt request 0 = 0x36) (hframed : transferFramed app.server request = true)
    (hlength : request.length ≤ udsMaxRequestLength) :
    (handleRequest app request now).1.context =
      (udsTransferData { app.server with lastActivityMs := now } app.context (byteAt request 1)
        (request.drop 2)).1 := by
  obtain ⟨hlow,hactive,hblock,hfit⟩ := of_decide_eq_true hframed
  simp only [handleRequest,udsServerHandle]
  rw [if_neg (not_dropped hlow hlength)]
  simp only [dispatch,hsid]
  show (serviceTransferData referenceCallbacks _ _ _ _).context = _
  simp only [serviceTransferData,referenceCallbacks]
  rw [if_neg (by simp [hactive]; omega),if_neg (not_not.mpr hblock),if_neg (Nat.not_lt.mpr hfit)]
  split <;> rfl

section Callbacks
variable (server : UdsServer) (context : UdsContext μ)

theorem seed_outcome (level : UInt8) (room : UInt16) :
    (∃ security : SecurityProvider.UdsSecurityProvider, security.seedValid = true ∧
      (udsSecuritySeed server context level room).1 =
        { context with security := security, trace := context.trace++[.seedIssued level] }) ∨
    (udsSecuritySeed server context level room).1 = context := by
  have ho := SecurityProvider.generate_outcome context.security level room.toNat context.nowMs
  unfold udsSecuritySeed
  generalize SecurityProvider.udsSecurityProviderGenerateSeed context.security level room.toNat
    context.nowMs = generated at ho
  obtain ⟨security,result,seed⟩ := generated
  rcases ho with ⟨rfl,hvalid⟩ | ⟨hresult,rfl⟩
  · exact Or.inl ⟨security,hvalid,rfl⟩
  · right
    cases result with
    | ok => exact absurd rfl hresult
    | _ => rfl

theorem key_outcome (level : UInt8) (key : List UInt8) :
    let verified :=
      SecurityProvider.udsSecurityProviderVerifyKey context.security level key context.nowMs
    verified.2 = .ok ∧ udsSecurityKey server context level key =
        ({ context with security := verified.1, trace := context.trace++[.keyAccepted level] },
          .ok) ∨
      verified.2 ≠ .ok ∧ ∃ result, result ≠ .ok ∧ udsSecurityKey server context level key =
        ({ context with security := verified.1 },result) := by
  unfold udsSecurityKey
  generalize SecurityProvider.udsSecurityProviderVerifyKey context.security level key
    context.nowMs = verified
  obtain ⟨security,result⟩ := verified
  cases result with
  | ok => exact Or.inl ⟨rfl,rfl⟩
  | _ =>
    refine Or.inr ⟨by simp,_,?_,rfl⟩
    simp

theorem request_download_context (address length : UInt32) :
    let begun := udsDownloadBegin context.download address length context.nowMs
    (udsRequestDownload server context address length).1 =
      traced server context begun.1 begun.2.2 := by
  unfold udsRequestDownload
  simp only
  split <;> rfl

theorem request_download_ok (address length : UInt32)
    (h : (udsDownloadBegin context.download address length context.nowMs).2.1 = .ok) :
    (udsRequestDownload server context address length).2 =
      (.ok,(udsDownloadBegin context.download address length
        context.nowMs).1.memory.maxBlockLength) := by
  unfold udsRequestDownload
  simp only
  rw [if_neg (not_not.mpr h)]

theorem request_download_failed (address length : UInt32)
    (h : (udsDownloadBegin context.download address length context.nowMs).2.1 ≠ .ok) :
    (udsRequestDownload server context address length).2.1 ≠ .ok := by
  unfold udsRequestDownload
  simp only
  rw [if_pos h]
  simp

theorem transfer_data_ok (block : UInt8) (data : List UInt8) :
    (udsTransferData server context block data).2 = .ok ↔
      (udsDownloadWrite context.download block data context.nowMs).2.1 = .ok := by
  unfold udsTransferData
  generalize udsDownloadWrite context.download block data context.nowMs = written
  obtain ⟨download,result,calls⟩ := written
  cases result <;> simp

theorem transfer_exit_context (request : List UInt8) (room : UInt16) :
    (udsTransferExit server context request room).1 = context ∨
      ∃ crc has,
        let finished := udsDownloadFinish context.download crc has context.nowMs
        (udsTransferExit server context request room).1 =
          traced server context finished.1 finished.2.2 := by
  unfold udsTransferExit
  split
  · exact Or.inl rfl
  · right
    refine ⟨if decide (request.length = 5) then readBeU32 ((request.drop 1).take 4) else 0,
      decide (request.length = 5),?_⟩
    simp only
    rw [apply_ite Prod.fst,ite_self]

end Callbacks

inductive ApplicationInput where
  | request (bytes : List UInt8) (nowMs : UInt32)
  | tick (nowMs : UInt32)
  | pollErase (nowMs : UInt32)
  deriving DecidableEq

inductive ApplicationEvent where
  | callback (event : TraceEvent)
  | sessionControl
  | s3Timeout
  deriving DecidableEq

def traceSince (past now : UdsContext μ) : List ApplicationEvent :=
  (now.trace.drop past.trace.length).map .callback

def atTime (app : UdsApplication μ) (now : UInt32) : UdsApplication μ :=
  { app with context := { app.context with nowMs := now } }

/-- The application as the processing pass drives it, with a poll of a pending
erase, which the pass itself never makes. -/
def applicationStep (app : UdsApplication μ) :
    ApplicationInput → UdsApplication μ × List ApplicationEvent
  | .request bytes now =>
    let handled := (handleRequest (atTime app now) bytes now).1
    (handled,
      (if acceptsSession bytes then [.sessionControl] else [])++
        traceSince app.context handled.context)
  | .tick now =>
    let ticked := (tickApplication app now).1
    (ticked,
      (if (udsServerTick app.server now).2 = .busy then [.s3Timeout] else [])++
        traceSince app.context ticked.context)
  | .pollErase now =>
    let (download,_,calls) := udsDownloadPollErase app.context.download now
    let context := traced app.server app.context download calls
    ({ app with context := context },traceSince app.context context)

theorem trace_since_append {past now : UdsContext μ} (events : List TraceEvent)
    (h : now.trace = past.trace++events) : traceSince past now = events.map .callback := by
  rw [traceSince,h,List.drop_left]

theorem effect_now {server next : UdsServer} {context handled : UdsContext μ}
    {request : List UInt8} (h : RequestEffect server context request next handled) :
    handled.nowMs = context.nowMs := by
  cases h with
  | seed room _ =>
    rcases seed_outcome server context (keyLevel request) room with ⟨_,_,he⟩ | he <;> rw [he]
  | key _ _ _ =>
    rcases key_outcome server context (keyLevel request) (request.drop 2) with
      ⟨_,he⟩ | ⟨_,_,_,he⟩ <;> rw [he]
  | download _ _ _ _ =>
    rw [request_download_context]
    rfl
  | exit room _ _ _ _ =>
    rcases transfer_exit_context server context (request.drop 1) room with he | ⟨_,_,he⟩
    · rw [he]
    · rw [he]
      rfl
  | _ => rfl

theorem handle_now (app : UdsApplication μ) (request : List UInt8) (now : UInt32) :
    (handleRequest app request now).1.context.nowMs = app.context.nowMs := by
  rcases handle_effect app request now with ⟨_,_,hc⟩ | ⟨_,he⟩
  · rw [hc]
  · exact effect_now he

/-- A request handled within a pass is a request of the machine at the time of
the pass. -/
theorem handle_step (app : UdsApplication μ) (request : List UInt8) (now : UInt32)
    (h : app.context.nowMs = now) :
    (applicationStep app (.request request now)).1 = (handleRequest app request now).1 := by
  subst h
  rfl

/-- What a processing pass feeds to the application: requests and ticks at the
time of the pass. -/
def InPass (now : UInt32) : ApplicationInput → Prop
  | .request _ t => t = now
  | .tick t => t = now
  | .pollErase _ => False

theorem send_response_application (rt : UdsRuntime μ) (result : UdsCallbackResult)
    (now : UInt32) : (sendResponse rt result now).application = rt.application := by
  unfold sendResponse
  split
  · simp only
    split <;> rfl
  · rfl

theorem process_frame_application (rt : UdsRuntime μ) (frame : IsoTp.IsoTpCanFrame)
    (now : UInt32) (h : rt.application.context.nowMs = now) :
    ∃ inputs, (∀ input ∈ inputs, InPass now input) ∧ (processFrame rt frame now).application =
        (run applicationStep rt.application inputs).1 ∧
      (processFrame rt frame now).application.context.nowMs = now := by
  have hnone : ∀ r : UdsRuntime μ, r.application = rt.application → ∃ inputs,
      (∀ input ∈ inputs, InPass now input) ∧
        r.application = (run applicationStep rt.application inputs).1 ∧
        r.application.context.nowMs = now := fun r hr => ⟨[],by simp,hr,hr ▸ h⟩
  unfold processFrame
  split
  · simp only
    split
    · rename_i payload _ _
      have happ : (if (IsoTp.isotpRxFeed rt.isotpRx frame now).2.1 = .needFlowControl then
          ({ rt with
            isotpRx := (IsoTp.isotpRxFeed rt.isotpRx frame now).1
            can := queueTxFrames rt.can
              (IsoTp.isotpRxFeed rt.isotpRx frame now).2.2.flowControl } : UdsRuntime μ)
          else { rt with isotpRx := (IsoTp.isotpRxFeed rt.isotpRx frame now).1 }).application =
            rt.application := by split <;> rfl
      rw [send_response_application,happ]
      refine ⟨[.request payload now],by simp [InPass],?_,(handle_now _ _ _).trans h⟩
      rw [run_cons,handle_step _ _ _ h]
      rfl
    · apply hnone
      split <;> rfl
  split
  · exact hnone _ rfl
  · exact hnone _ rfl

theorem process_frames_application (rt : UdsRuntime μ) (now : UInt32) (budget : ℕ)
    (h : rt.application.context.nowMs = now) :
    ∃ inputs, (∀ input ∈ inputs, InPass now input) ∧ (processFrames rt now budget).application =
      (run applicationStep rt.application inputs).1 := by
  induction budget generalizing rt with
  | zero => exact ⟨[],by simp,rfl⟩
  | succ budget ih =>
    unfold processFrames
    simp only
    split
    · exact ⟨[],by simp,rfl⟩
    · rename_i frame _
      obtain ⟨first,hin,hfirst,hnow⟩ := process_frame_application
        { rt with can := (UdsStm32.udsStm32CanRxPop rt.can).1 } frame now h
      obtain ⟨rest,hin',hrest⟩ := ih _ hnow
      exact ⟨first++rest,List.forall_mem_append.mpr ⟨hin,hin'⟩,by rw [hrest,hfirst,run_append]⟩

theorem process_application (rt : UdsRuntime μ) (answers : List UdsStm32.TxAnswer)
    (now : UInt32) :
    ∃ inputs, (∀ input ∈ inputs, InPass now input) ∧
      (canopenReferenceUdsProcess rt answers now).1.application =
        (run applicationStep rt.application inputs).1 := by
  unfold canopenReferenceUdsProcess
  split
  · exact ⟨[],by simp,rfl⟩
  · simp only
    obtain ⟨inputs,hin,hinputs⟩ := process_frames_application
      { rt with
        application := (tickApplication rt.application now).1
        can := if (tickApplication rt.application now).2 = .timeout then
          UdsStm32.udsStm32CanNoteRxTimeout rt.can else rt.can }
      now UdsStm32.udsStm32RxBudgetPerCall rfl
    exact ⟨.tick now::inputs,List.forall_mem_cons.mpr ⟨rfl,hin⟩,hinputs⟩

end Effect
end CanopenReference.Handling
