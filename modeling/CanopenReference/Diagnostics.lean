import CanopenReference.IsoTp
import CanopenReference.Download
import CanopenReference.SecurityProvider
import CanopenReference.Uds
import CanopenReference.UdsDid
import CanopenReference.UdsStm32

/-!
# The diagnostic runtime

The composition of `canopen_reference_uds.c`: the callbacks that join the
server to the identifier registry, the security provider and the download
object, and the processing pass over the CAN adapter and ISO-TP. The memory
callbacks of the download are a parameter; the reference installs none. The
trace records what the callbacks did and is read by nothing.
-/

set_option autoImplicit false

namespace CanopenReference.Diagnostics
open Library IsoTp Download SecurityProvider Uds UdsDid UdsStm32

/-- What a callback of the server did, with the server as it stood. -/
inductive TraceEvent where
  | seedIssued (level : UInt8)
  | keyAccepted (level : UInt8)
  | memory (server : UdsServer) (call : MemoryCall)
  deriving DecidableEq

/-- The part of the runtime behind the server's context. -/
structure UdsContext (μ : Type) where
  didRegistry : List UdsDidEntry
  security : UdsSecurityProvider
  download : UdsDownload μ
  nowMs : UInt32
  trace : List TraceEvent

/-- The server with its context and its response memory. -/
structure UdsApplication (μ : Type) where
  server : UdsServer
  context : UdsContext μ
  response : Buffer UInt8 udsMaxResponseLength.toNat
  responseLength : UInt16

structure UdsRuntime (μ : Type) where
  can : UdsStm32Can
  isotpRx : IsoTpRx
  isotpTx : IsoTpTx
  application : UdsApplication μ
  initialized : Bool

def mapDidResult : UdsDidResult → UdsCallbackResult
  | .ok => .ok
  | .sessionDenied | .securityDenied => .denied
  | .notFound | .notReadable | .notWritable | .invalidWrite => .outOfRange
  | .responseTooLong => .responseTooLong
  | .argumentError => .error

section Callbacks
variable {μ : Type}

def traced (server : UdsServer) (context : UdsContext μ) (download : UdsDownload μ)
    (calls : List MemoryCall) : UdsContext μ :=
  { context with
    download := download, trace := context.trace++calls.map (TraceEvent.memory server) }

def udsReadDid (server : UdsServer) (context : UdsContext μ) (did : UInt16) (capacity : UInt16) :
    UdsContext μ × Filled :=
  let read := udsDidRegistryRead context.didRegistry did server.session server.securityLevel
    capacity
  (context,⟨mapDidResult read.result,read.bytes,read.length⟩)

def udsReadDtc (_server : UdsServer) (context : UdsContext μ) (subfunction : UInt8)
    (_request : List UInt8) (capacity : UInt16) : UdsContext μ × Filled :=
  if capacity < 3 then (context,⟨.responseTooLong,[],0⟩)
  else if subfunction ≠ 0x01 ∧ subfunction ≠ 0x02 ∧ subfunction ≠ 0x0A then
    (context,⟨.notSupported,[],0⟩)
  else (context,⟨.ok,[0,0,0],3⟩)

def udsSecuritySeed (_server : UdsServer) (context : UdsContext μ) (level : UInt8)
    (capacity : UInt16) : UdsContext μ × Filled :=
  let (security,result,seed) := udsSecurityProviderGenerateSeed context.security level
    capacity.toNat context.nowMs
  let next : UdsContext μ := { context with security := security }
  let bytes := seed.getD []
  match result with
  | .ok =>
    ({ next with trace := context.trace++[.seedIssued level] },
      ⟨.ok,bytes,UInt16.ofNat bytes.length⟩)
  | .delayActive => (next,⟨.delayActive,bytes,0⟩)
  | .bufferTooSmall => (next,⟨.responseTooLong,bytes,0⟩)
  | _ => (next,⟨.denied,bytes,0⟩)

def udsSecurityKey (_server : UdsServer) (context : UdsContext μ) (level : UInt8)
    (key : List UInt8) : UdsContext μ × UdsCallbackResult :=
  let (security,result) :=
    udsSecurityProviderVerifyKey context.security level key context.nowMs
  let next : UdsContext μ := { context with security := security }
  match result with
  | .ok => ({ next with trace := context.trace++[.keyAccepted level] },.ok)
  | .invalidKey => (next,.invalidKey)
  | .attemptsExceeded => (next,.attemptsExceeded)
  | .delayActive => (next,.delayActive)
  | _ => (next,.denied)

def udsCommunicationControl (_server : UdsServer) (context : UdsContext μ)
    (_subfunction _communicationType : UInt8) : UdsContext μ × UdsCallbackResult :=
  (context,.notSupported)

def udsRoutineControl (_server : UdsServer) (context : UdsContext μ) (_subfunction : UInt8)
    (_routineId : UInt16) (_request : List UInt8) (_capacity : UInt16) : UdsContext μ × Filled :=
  (context,⟨.notSupported,[],0⟩)

def udsEcuReset (server : UdsServer) (context : UdsContext μ) (subfunction : UInt8) :
    UdsContext μ × UdsCallbackResult :=
  if subfunction ≠ 0x01 then (context,.notSupported)
  else if server.securityLevel = 0 then (context,.denied)
  else (context,.ok)

def udsDtcSetting (_server : UdsServer) (context : UdsContext μ) (subfunction : UInt8) :
    UdsContext μ × UdsCallbackResult :=
  (context,if subfunction = 0x01 ∨ subfunction = 0x02 then .ok else .notSupported)

def udsRequestDownload (server : UdsServer) (context : UdsContext μ) (address length : UInt32) :
    UdsContext μ × UdsCallbackResult × UInt16 :=
  let (download,result,calls) :=
    udsDownloadBegin context.download address length context.nowMs
  let next := traced server context download calls
  if result ≠ .ok then (next,.outOfRange,0)
  else (next,.ok,download.memory.maxBlockLength)

def udsTransferData (server : UdsServer) (context : UdsContext μ) (block : UInt8)
    (data : List UInt8) : UdsContext μ × UdsCallbackResult :=
  let (download,result,calls) := udsDownloadWrite context.download block data context.nowMs
  (traced server context download calls,if result = .ok then .ok else .programmingFailure)

def udsTransferExit (server : UdsServer) (context : UdsContext μ) (request : List UInt8)
    (capacity : UInt16) : UdsContext μ × Filled :=
  if capacity < 1 ∨ request.length ≠ 5 ∧ request.length ≠ 1 then (context,⟨.error,[],0⟩)
  else
    let hasCrc : Bool := request.length = 5
    let expectedCrc32 := if hasCrc then readBeU32 ((request.drop 1).take 4) else 0
    let (download,result,calls) :=
      udsDownloadFinish context.download expectedCrc32 hasCrc context.nowMs
    let next := traced server context download calls
    if result ≠ .ok then (next,⟨.programmingFailure,[],0⟩)
    else (next,⟨.ok,[0],1⟩)

def referenceCallbacks : UdsCallbacks (UdsContext μ) where
  readDid := some udsReadDid
  readDtc := some udsReadDtc
  securitySeed := some udsSecuritySeed
  securityKey := some udsSecurityKey
  communicationControl := some udsCommunicationControl
  routineControl := some udsRoutineControl
  requestDownload := some udsRequestDownload
  transferData := some udsTransferData
  requestTransferExit := some udsTransferExit
  ecuReset := some udsEcuReset
  controlDtcSetting := some udsDtcSetting

end Callbacks

def ascii (chars : List Char) : List UInt8 := chars.map fun c => UInt8.ofNat c.toNat

def projectDids : UdsProjectDidSource where
  softwareVersion := .data (ascii ['u','d','s','-','r','e','f','-','1'])
  hardwareVersion := .data (ascii ['s','t','m','3','2','f','7','6','7'])
  bootloaderVersion := .data (ascii ['n','o','n','e'])
  serialNumber := .data (ascii ['r','e','f','e','r','e','n','c','e'])
  deviceIdentity := .data (ascii ['C','A','N','o','p','e','n','-','U','D','S'])
  canopenNodeId := .data [1]
  canBitrate := .data [0x00,0x07,0xA1,0x20]
  diagnosticStatus := .data [0,0,0,0]
  firmwareStatus := .data [0,0,0,0]
  resetCause := .data [0,0,0,0]
  watchdogStatus := .data [0,0,0,0]
  canErrorCounters := .data [0,0,0,0,0,0,0,0]
  canopenErrorState := .data [0,0,0,0]

def runtimeIsotpConfig : IsoTpConfig := { isotpConfigDefault with blockSize := 8, stMin := 0 }

def zeroRx : IsoTpRx := ⟨⟨0,0,0,0,0⟩,0,0,Buffer.blank _ 0,0,0,0,0,0,false⟩

def zeroTx : IsoTpTx :=
  ⟨⟨0,0,0,0,0⟩,0,0,Buffer.blank _ 0,0,0,0,0,0,0,0,0,false,false,0⟩

section Runtime
variable {μ : Type}

def applicationInit (callbacks : Option (UdsDownloadCallbacks μ)) (memory : μ) (nowMs : UInt32) :
    UdsApplication μ where
  server := udsServerInit nowMs
  context :=
    { didRegistry := udsDidRegistryInit projectDids
      security := udsSecurityProviderInit 0x13579BDF 3 10000
      download := udsDownloadInit (some referenceMemory) callbacks memory
      nowMs := nowMs
      trace := [] }
  response := Buffer.blank _ 0
  responseLength := 0

/-- `CANopenReference_UDS_Init` on a board whose driver accepts the receive
callback or not; it starts from cleared memory either way. -/
def canopenReferenceUdsInit (callbacks : Option (UdsDownloadCallbacks μ)) (memory : μ)
    (registered : Bool) (nowMs : UInt32) : UdsRuntime μ :=
  { can := udsStm32CanBind udsRxCanId udsTxCanId
    isotpRx := isotpRxInit zeroRx (some runtimeIsotpConfig) udsRxCanId udsTxCanId
    isotpTx := isotpTxInit zeroTx (some runtimeIsotpConfig) udsRxCanId udsTxCanId
    application := applicationInit callbacks memory nowMs
    initialized := registered }

def canopenReferenceUdsRxFromIsr (rt : UdsRuntime μ) (frame : IsoTpCanFrame) : UdsRuntime μ :=
  if rt.initialized then { rt with can := udsStm32CanRxFromIsr rt.can frame } else rt

def queueTxFrame (can : UdsStm32Can) (frame : IsoTpCanFrame) : UdsStm32Can :=
  let queued := udsStm32CanTxQueue can frame
  if queued.2 ≠ .queued then udsStm32CanNoteTxTimeout queued.1 else queued.1

def queueTxFrames (can : UdsStm32Can) (frames : Option IsoTpCanFrame) : UdsStm32Can :=
  match frames with
  | none => can
  | some frame => queueTxFrame can frame

/-- A complete request handed to the server. -/
def handleRequest (app : UdsApplication μ) (request : List UInt8) (nowMs : UInt32) :
    UdsApplication μ × UdsCallbackResult :=
  let served := udsServerHandle referenceCallbacks app.server app.context request
    ⟨app.response,0,.ok⟩ nowMs
  (⟨served.server,served.context,served.reply.buffer,served.reply.length⟩,served.reply.result)

/-- The start of the transfer that carries the response. -/
def sendResponse (rt : UdsRuntime μ) (result : UdsCallbackResult) (nowMs : UInt32) :
    UdsRuntime μ :=
  if result = .ok ∧ rt.application.responseLength ≠ 0 then
    let (isotpTx,status,frame) := isotpTxStart rt.isotpTx
      (rt.application.response.front rt.application.responseLength.toNat) nowMs
    let started : UdsRuntime μ := { rt with isotpTx := isotpTx }
    if status = .txFrameReady then { started with can := queueTxFrames started.can frame }
    else started
  else rt

/-- The body of the receive loop for one frame. -/
def processFrame (rt : UdsRuntime μ) (frame : IsoTpCanFrame) (nowMs : UInt32) : UdsRuntime μ :=
  if frame.canId = udsRxCanId then
    let (isotpRx,status,event) := isotpRxFeed rt.isotpRx frame nowMs
    let fed : UdsRuntime μ := { rt with isotpRx := isotpRx }
    let answered : UdsRuntime μ :=
      if status = .needFlowControl then
        { fed with can := queueTxFrames fed.can event.flowControl }
      else fed
    match status, event.payload with
    | .complete, some payload =>
      let (application,result) := handleRequest answered.application payload nowMs
      sendResponse { answered with application := application } result nowMs
    | _, _ => answered
  else if frame.canId = udsTxCanId then
    { rt with isotpTx := (isotpTxFeedFlowControl rt.isotpTx frame nowMs).1 }
  else rt

/-- The receive loop, which also ends when the queue is empty. -/
def processFrames (rt : UdsRuntime μ) (nowMs : UInt32) : ℕ → UdsRuntime μ
  | 0 => rt
  | budget+1 =>
    let (can,popped) := udsStm32CanRxPop rt.can
    match popped with
    | none => { rt with can := can }
    | some frame =>
      processFrames (processFrame { rt with can := can } frame nowMs) nowMs budget

/-- The tick of the server and of the download object. -/
def tickApplication (app : UdsApplication μ) (nowMs : UInt32) :
    UdsApplication μ × UdsDownloadResult :=
  let server := (udsServerTick app.server nowMs).1
  let (download,result,calls) := udsDownloadTick app.context.download nowMs
  ({ app with
      server := server
      context := traced server { app.context with nowMs := nowMs } download calls },
    result)

/-- One pass, with the status of the transmitter and the frames the driver took. -/
def canopenReferenceUdsProcess (rt : UdsRuntime μ) (answers : List TxAnswer) (nowMs : UInt32) :
    UdsRuntime μ × Option IsoTpStatus × List IsoTpCanFrame :=
  if !rt.initialized then (rt,none,[])
  else
    let (application,downloadState) := tickApplication rt.application nowMs
    let ticked : UdsRuntime μ :=
      { rt with
        application := application
        can := if downloadState = .timeout then udsStm32CanNoteRxTimeout rt.can else rt.can }
    let received := processFrames ticked nowMs udsStm32RxBudgetPerCall
    let (isotpTx,txStatus,frame) := isotpTxNext received.isotpTx nowMs
    let can := if txStatus = .txFrameReady then queueTxFrames received.can frame
      else received.can
    let (isotpRx,rxTimeout) := isotpRxTick received.isotpRx nowMs
    let can := if rxTimeout = .errTimeout then udsStm32CanNoteRxTimeout can else can
    let (isotpTx,txTimeout) := isotpTxTick isotpTx nowMs
    let can := if txTimeout = .errTimeout then udsStm32CanNoteTxTimeout can else can
    let (can,sent) := udsStm32CanProcessTx can udsStm32TxBudgetPerCall answers
    ({ received with can := can, isotpRx := isotpRx, isotpTx := isotpTx },some txStatus,sent)

def canopenReferenceUdsResetPending (rt : UdsRuntime μ) : Bool :=
  rt.initialized && rt.application.server.resetPending

def canopenReferenceUdsClearReset (rt : UdsRuntime μ) : UdsRuntime μ :=
  if rt.initialized then
    { rt with
      application :=
        { rt.application with
          server := { rt.application.server with resetPending := false } } }
  else rt

end Runtime
end CanopenReference.Diagnostics
