import CanopenReference.Library.Buffer
import CanopenReference.Library.Clock

/-!
# The UDS server

The service dispatcher of `uds.c` as built with its default switches, under
which I/O control is refused. Callbacks are functions on the context, any of
which may be missing. The context of the runtime contains the server, so every
callback also sees the server as it stands. A callback that fills response
memory gives the bytes it wrote and, separately, the length it reported.
-/

set_option autoImplicit false

namespace CanopenReference.Uds
open Library

def udsMaxRequestLength : ℕ := 4095
def udsMaxResponseLength : UInt16 := 4095
def udsDefaultP2ServerMs : UInt16 := 50
def udsDefaultP2StarServerMs : UInt16 := 5000
def udsDefaultS3ServerMs : UInt32 := 5000

def udsSessionDefault : UInt8 := 0x01
def udsSessionProgramming : UInt8 := 0x02
def udsSessionExtended : UInt8 := 0x03

def udsSuppressPositiveResponse : UInt8 := 0x80

def nrcServiceNotSupported : UInt8 := 0x11
def nrcSubfunctionNotSupported : UInt8 := 0x12
def nrcIncorrectMessageLengthOrInvalidFormat : UInt8 := 0x13
def nrcResponseTooLong : UInt8 := 0x14
def nrcBusyRepeatRequest : UInt8 := 0x21
def nrcConditionsNotCorrect : UInt8 := 0x22
def nrcRequestSequenceError : UInt8 := 0x24
def nrcRequestOutOfRange : UInt8 := 0x31
def nrcInvalidKey : UInt8 := 0x35
def nrcExceededNumberOfAttempts : UInt8 := 0x36
def nrcRequiredTimeDelayNotExpired : UInt8 := 0x37
def nrcUploadDownloadNotAccepted : UInt8 := 0x70
def nrcGeneralProgrammingFailure : UInt8 := 0x72
def nrcWrongBlockSequenceCounter : UInt8 := 0x73

inductive UdsCallbackResult where
  | ok
  | noResponse
  | notSupported
  | denied
  | outOfRange
  | busy
  | sequenceError
  | invalidKey
  | attemptsExceeded
  | delayActive
  | programmingFailure
  | responseTooLong
  | error
  deriving DecidableEq, Repr

structure UdsServer where
  session : UInt8
  securityLevel : UInt8
  nextDownloadBlock : UInt8
  maxDownloadBlockLength : UInt16
  p2ServerMs : UInt16
  p2StarServerMs : UInt16
  s3ServerTimeoutMs : UInt32
  lastActivityMs : UInt32
  downloadActive : Bool
  resetPending : Bool
  dtcSettingEnabled : Bool
  deriving DecidableEq

/-- What a callback wrote from its response pointer on, and what it reported. -/
structure Filled where
  result : UdsCallbackResult
  bytes : List UInt8
  length : UInt16
  deriving DecidableEq

structure UdsCallbacks (σ : Type) where
  readDid : Option (UdsServer → σ → (did : UInt16) → (capacity : UInt16) → σ × Filled)
  readDtc : Option (UdsServer → σ → (subfunction : UInt8) → (request : List UInt8) →
    (capacity : UInt16) → σ × Filled)
  securitySeed : Option (UdsServer → σ → (level : UInt8) → (capacity : UInt16) → σ × Filled)
  securityKey : Option (UdsServer → σ → (level : UInt8) → (key : List UInt8) →
    σ × UdsCallbackResult)
  communicationControl : Option (UdsServer → σ → (subfunction communicationType : UInt8) →
    σ × UdsCallbackResult)
  routineControl : Option (UdsServer → σ → (subfunction : UInt8) → (routineId : UInt16) →
    (request : List UInt8) → (capacity : UInt16) → σ × Filled)
  requestDownload : Option (UdsServer → σ → (address length : UInt32) →
    σ × UdsCallbackResult × UInt16)
  transferData : Option (UdsServer → σ → (block : UInt8) → (data : List UInt8) →
    σ × UdsCallbackResult)
  requestTransferExit : Option (UdsServer → σ → (request : List UInt8) → (capacity : UInt16) →
    σ × Filled)
  ecuReset : Option (UdsServer → σ → (subfunction : UInt8) → σ × UdsCallbackResult)
  controlDtcSetting : Option (UdsServer → σ → (subfunction : UInt8) → σ × UdsCallbackResult)

/-- The response memory with the length and the result so far. -/
structure Reply (capacity : UInt16) where
  buffer : Buffer UInt8 capacity.toNat
  length : UInt16
  result : UdsCallbackResult
  deriving DecidableEq

structure Served (σ : Type) (capacity : UInt16) where
  server : UdsServer
  context : σ
  reply : Reply capacity

def byteAt (request : List UInt8) (i : ℕ) : UInt8 := request.getD i 0

def readU16 (high low : UInt8) : UInt16 := (high.toUInt16 <<< 8) ||| low.toUInt16

def readBeU32 (data : List UInt8) : UInt32 :=
  data.foldl (fun value byte => (value <<< 8) ||| byte.toUInt32) 0

def resultToNrc : UdsCallbackResult → UInt8
  | .notSupported => nrcServiceNotSupported
  | .denied => nrcConditionsNotCorrect
  | .outOfRange => nrcRequestOutOfRange
  | .busy => nrcBusyRepeatRequest
  | .sequenceError => nrcRequestSequenceError
  | .invalidKey => nrcInvalidKey
  | .attemptsExceeded => nrcExceededNumberOfAttempts
  | .delayActive => nrcRequiredTimeDelayNotExpired
  | .programmingFailure => nrcGeneralProgrammingFailure
  | .responseTooLong => nrcResponseTooLong
  | .ok | .noResponse | .error => nrcConditionsNotCorrect

def udsServerInit (nowMs : UInt32) : UdsServer where
  session := udsSessionDefault
  securityLevel := 0
  nextDownloadBlock := 1
  maxDownloadBlockLength := 0
  p2ServerMs := udsDefaultP2ServerMs
  p2StarServerMs := udsDefaultP2StarServerMs
  s3ServerTimeoutMs := udsDefaultS3ServerMs
  lastActivityMs := nowMs
  downloadActive := false
  resetPending := false
  dtcSettingEnabled := true

def udsServerResetSecurity (server : UdsServer) : UdsServer := { server with securityLevel := 0 }

section Services
variable {σ : Type} {capacity : UInt16}

def Reply.put (reply : Reply capacity) (start : ℕ) (bytes : List UInt8) : Reply capacity :=
  { reply with buffer := reply.buffer.write start bytes }

/-- The capacity that is left behind `used` header bytes. -/
def room (capacity used : UInt16) : UInt16 := if used < capacity then capacity-used else 0

def negativeResponse (request : List UInt8) (nrc : UInt8) (reply : Reply capacity) :
    Reply capacity :=
  if capacity < 3 then { reply with result := .responseTooLong }
  else { reply.put 0 [0x7F,byteAt request 0,nrc] with length := 3, result := .ok }

def positiveResponse (bytes : List UInt8) (reply : Reply capacity) : Reply capacity :=
  { reply.put 0 bytes with length := UInt16.ofNat bytes.length, result := .ok }

def noResponse (reply : Reply capacity) : Reply capacity := { reply with result := .noResponse }

def callbackResult (result : UdsCallbackResult) (request : List UInt8) (reply : Reply capacity) :
    Reply capacity :=
  if result = .ok then { reply with result := .ok }
  else negativeResponse request (resultToNrc result) reply

def subfunctionOf (request : List UInt8) : UInt8 := byteAt request 1 &&& 0x7F

def suppressed (request : List UInt8) : Bool :=
  byteAt request 1 &&& udsSuppressPositiveResponse ≠ 0

def answer (request bytes : List UInt8) (needed : UInt16) (reply : Reply capacity) :
    Reply capacity :=
  if suppressed request then noResponse reply
  else if capacity < needed then negativeResponse request nrcResponseTooLong reply
  else positiveResponse bytes reply

def serviceSessionControl (server : UdsServer) (context : σ) (request : List UInt8)
    (reply : Reply capacity) : Served σ capacity :=
  if request.length ≠ 2 then
    ⟨server,context,negativeResponse request nrcIncorrectMessageLengthOrInvalidFormat reply⟩
  else
    let subfunction := subfunctionOf request
    if subfunction ≠ udsSessionDefault ∧ subfunction ≠ udsSessionProgramming ∧
        subfunction ≠ udsSessionExtended then
      ⟨server,context,negativeResponse request nrcSubfunctionNotSupported reply⟩
    else
      ⟨udsServerResetSecurity { server with session := subfunction },context,
        answer request
          [0x50,subfunction,(server.p2ServerMs >>> 8).toUInt8,server.p2ServerMs.toUInt8,
            ((server.p2StarServerMs/10) >>> 8).toUInt8,(server.p2StarServerMs/10).toUInt8] 6 reply⟩

def serviceEcuReset (cb : UdsCallbacks σ) (server : UdsServer) (context : σ)
    (request : List UInt8) (reply : Reply capacity) : Served σ capacity :=
  if request.length ≠ 2 then
    ⟨server,context,negativeResponse request nrcIncorrectMessageLengthOrInvalidFormat reply⟩
  else
    let subfunction := subfunctionOf request
    match cb.ecuReset with
    | none => ⟨server,context,negativeResponse request nrcSubfunctionNotSupported reply⟩
    | some ecuReset =>
      if subfunction ≠ 0x01 then
        ⟨server,context,negativeResponse request nrcSubfunctionNotSupported reply⟩
      else
        let (context,result) := ecuReset server context subfunction
        if result ≠ .ok then ⟨server,context,callbackResult result request reply⟩
        else
          ⟨{ server with resetPending := true },context,
            answer request [0x51,subfunction] 2 reply⟩

/-- The common end of the services whose callback fills the response behind a
header of `reply.length` bytes. -/
def appendFilled (filled : Filled) (request : List UInt8) (reply : Reply capacity) :
    Reply capacity :=
  let written := reply.put reply.length.toNat filled.bytes
  if filled.result ≠ .ok then callbackResult filled.result request written
  else if capacity-reply.length < filled.length then
    negativeResponse request nrcResponseTooLong written
  else { written with length := reply.length+filled.length, result := .ok }

def serviceReadDtc (cb : UdsCallbacks σ) (server : UdsServer) (context : σ)
    (request : List UInt8) (reply : Reply capacity) : Served σ capacity :=
  match cb.readDtc with
  | none =>
    ⟨server,context,negativeResponse request nrcIncorrectMessageLengthOrInvalidFormat reply⟩
  | some readDtc =>
    if request.length < 2 then
      ⟨server,context,negativeResponse request nrcIncorrectMessageLengthOrInvalidFormat reply⟩
    else
      let (context,filled) :=
        readDtc server context (subfunctionOf request) request (room capacity 1)
      ⟨server,context,appendFilled filled request { reply.put 0 [0x59] with length := 1 }⟩

/-- The loop over the data identifiers that are left of the request. -/
def readDids (readDid : UdsServer → σ → UInt16 → UInt16 → σ × Filled) (server : UdsServer)
    (request : List UInt8) : σ → List UInt8 → Reply capacity → Served σ capacity
  | context, high::low::rest, reply =>
    if capacity-reply.length < 2 then
      ⟨server,context,negativeResponse request nrcResponseTooLong reply⟩
    else
      let header : Reply capacity :=
        { reply.put reply.length.toNat [high,low] with length := reply.length+2 }
      let (context,filled) :=
        readDid server context (readU16 high low) (capacity-header.length)
      let next := appendFilled filled request header
      if filled.result ≠ .ok ∨ capacity-header.length < filled.length then
        ⟨server,context,next⟩
      else readDids readDid server request context rest next
  | context, _, reply => ⟨server,context,{ reply with result := .ok }⟩

def serviceReadData (cb : UdsCallbacks σ) (server : UdsServer) (context : σ)
    (request : List UInt8) (reply : Reply capacity) : Served σ capacity :=
  match cb.readDid with
  | none =>
    ⟨server,context,negativeResponse request nrcIncorrectMessageLengthOrInvalidFormat reply⟩
  | some readDid =>
    if request.length < 3 ∨ (request.length-1)%2 ≠ 0 then
      ⟨server,context,negativeResponse request nrcIncorrectMessageLengthOrInvalidFormat reply⟩
    else
      readDids readDid server request context (request.drop 1)
        { reply.put 0 [0x62] with length := 1 }

def serviceSecurityAccess (cb : UdsCallbacks σ) (server : UdsServer) (context : σ)
    (request : List UInt8) (reply : Reply capacity) : Served σ capacity :=
  match cb.securitySeed, cb.securityKey with
  | some securitySeed, some securityKey =>
    let subfunction := byteAt request 1
    let level := (subfunction+1)/2
    if request.length < 2 then
      ⟨server,context,negativeResponse request nrcServiceNotSupported reply⟩
    else if subfunction = 0 ∨ 0x7F < subfunction then
      ⟨server,context,negativeResponse request nrcSubfunctionNotSupported reply⟩
    else if subfunction &&& 1 ≠ 0 then
      let (context,filled) := securitySeed server context level (room capacity 2)
      let written := reply.put 2 filled.bytes
      if filled.result ≠ .ok then ⟨server,context,callbackResult filled.result request written⟩
      else if capacity < 2+filled.length then
        ⟨server,context,negativeResponse request nrcResponseTooLong written⟩
      else
        ⟨server,context,
          { written.put 0 [0x67,subfunction] with length := 2+filled.length, result := .ok }⟩
    else if request.length ≤ 2 then
      ⟨server,context,negativeResponse request nrcIncorrectMessageLengthOrInvalidFormat reply⟩
    else
      let (context,result) := securityKey server context level (request.drop 2)
      if result ≠ .ok then ⟨server,context,callbackResult result request reply⟩
      else
        ⟨{ server with securityLevel := level },context,
          if capacity < 2 then negativeResponse request nrcResponseTooLong reply
          else positiveResponse [0x67,subfunction] reply⟩
  | _, _ => ⟨server,context,negativeResponse request nrcServiceNotSupported reply⟩

def serviceCommunicationControl (cb : UdsCallbacks σ) (server : UdsServer) (context : σ)
    (request : List UInt8) (reply : Reply capacity) : Served σ capacity :=
  match cb.communicationControl with
  | none =>
    ⟨server,context,negativeResponse request nrcIncorrectMessageLengthOrInvalidFormat reply⟩
  | some communicationControl =>
    if request.length ≠ 3 then
      ⟨server,context,negativeResponse request nrcIncorrectMessageLengthOrInvalidFormat reply⟩
    else
      let subfunction := subfunctionOf request
      let (context,result) :=
        communicationControl server context subfunction (byteAt request 2)
      if result ≠ .ok then ⟨server,context,callbackResult result request reply⟩
      else ⟨server,context,answer request [0x68,subfunction,byteAt request 2] 3 reply⟩

def serviceIoControl (server : UdsServer) (context : σ) (request : List UInt8)
    (reply : Reply capacity) : Served σ capacity :=
  ⟨server,context,negativeResponse request nrcServiceNotSupported reply⟩

def serviceRoutineControl (cb : UdsCallbacks σ) (server : UdsServer) (context : σ)
    (request : List UInt8) (reply : Reply capacity) : Served σ capacity :=
  match cb.routineControl with
  | none =>
    ⟨server,context,negativeResponse request nrcIncorrectMessageLengthOrInvalidFormat reply⟩
  | some routineControl =>
    if request.length < 4 then
      ⟨server,context,negativeResponse request nrcIncorrectMessageLengthOrInvalidFormat reply⟩
    else
      let subfunction := subfunctionOf request
      let (context,filled) := routineControl server context subfunction
        (readU16 (byteAt request 2) (byteAt request 3)) (request.drop 4) (room capacity 4)
      ⟨server,context,appendFilled filled request
        { reply.put 0 [0x71,subfunction,byteAt request 2,byteAt request 3] with length := 4 }⟩

def serviceDownload (cb : UdsCallbacks σ) (server : UdsServer) (context : σ)
    (request : List UInt8) (reply : Reply capacity) : Served σ capacity :=
  match cb.requestDownload with
  | none =>
    ⟨server,context,negativeResponse request nrcIncorrectMessageLengthOrInvalidFormat reply⟩
  | some requestDownload =>
    let addressLength := (byteAt request 1 >>> 4).toNat
    let lengthLength := (byteAt request 1 &&& 0x0F).toNat
    if request.length < 3 ∨ addressLength = 0 ∨ 4 < addressLength ∨ lengthLength = 0 ∨
        4 < lengthLength ∨ request.length ≠ 2+addressLength+lengthLength then
      ⟨server,context,negativeResponse request nrcIncorrectMessageLengthOrInvalidFormat reply⟩
    else
      let address := readBeU32 ((request.drop 2).take addressLength)
      let length := readBeU32 ((request.drop (2+addressLength)).take lengthLength)
      let (context,result,maxBlockLength) := requestDownload server context address length
      if result ≠ .ok then ⟨server,context,callbackResult result request reply⟩
      else if maxBlockLength < 3 ∨ capacity < 4 then
        ⟨server,context,negativeResponse request nrcUploadDownloadNotAccepted reply⟩
      else
        ⟨{ server with
            downloadActive := true, nextDownloadBlock := 1,
            maxDownloadBlockLength := maxBlockLength },
          context,
          positiveResponse
            [0x74,0x20,(maxBlockLength >>> 8).toUInt8,maxBlockLength.toUInt8] reply⟩

def serviceTransferData (cb : UdsCallbacks σ) (server : UdsServer) (context : σ)
    (request : List UInt8) (reply : Reply capacity) : Served σ capacity :=
  match cb.transferData with
  | none => ⟨server,context,negativeResponse request nrcRequestSequenceError reply⟩
  | some transferData =>
    if request.length < 3 ∨ !server.downloadActive then
      ⟨server,context,negativeResponse request nrcRequestSequenceError reply⟩
    else if byteAt request 1 ≠ server.nextDownloadBlock then
      ⟨server,context,negativeResponse request nrcWrongBlockSequenceCounter reply⟩
    else if (server.maxDownloadBlockLength-2).toNat < request.length-2 then
      ⟨server,context,negativeResponse request nrcIncorrectMessageLengthOrInvalidFormat reply⟩
    else
      let (context,result) := transferData server context (byteAt request 1) (request.drop 2)
      if result ≠ .ok then ⟨server,context,callbackResult result request reply⟩
      else
        ⟨{ server with nextDownloadBlock := server.nextDownloadBlock+1 },context,
          if capacity < 2 then negativeResponse request nrcResponseTooLong reply
          else positiveResponse [0x76,byteAt request 1] reply⟩

def serviceTransferExit (cb : UdsCallbacks σ) (server : UdsServer) (context : σ)
    (request : List UInt8) (reply : Reply capacity) : Served σ capacity :=
  match cb.requestTransferExit with
  | none => ⟨server,context,negativeResponse request nrcRequestSequenceError reply⟩
  | some requestTransferExit =>
    if !server.downloadActive then
      ⟨server,context,negativeResponse request nrcRequestSequenceError reply⟩
    else
      let (context,filled) :=
        requestTransferExit server context (request.drop 1) (room capacity 1)
      let written : Reply capacity := { reply.put 1 filled.bytes with length := filled.length }
      if filled.result ≠ .ok then ⟨server,context,callbackResult filled.result request written⟩
      else if capacity < 1 then
        ⟨server,context,negativeResponse request nrcResponseTooLong written⟩
      else
        ⟨{ server with downloadActive := false },context,
          { written.put 0 [0x77] with length := filled.length+1, result := .ok }⟩

def serviceTesterPresent (server : UdsServer) (context : σ) (request : List UInt8)
    (reply : Reply capacity) : Served σ capacity :=
  if request.length ≠ 2 then
    ⟨server,context,negativeResponse request nrcIncorrectMessageLengthOrInvalidFormat reply⟩
  else if subfunctionOf request ≠ 0 then
    ⟨server,context,negativeResponse request nrcSubfunctionNotSupported reply⟩
  else ⟨server,context,answer request [0x7E,byteAt request 1] 2 reply⟩

def serviceDtcSetting (cb : UdsCallbacks σ) (server : UdsServer) (context : σ)
    (request : List UInt8) (reply : Reply capacity) : Served σ capacity :=
  match cb.controlDtcSetting with
  | none =>
    ⟨server,context,negativeResponse request nrcIncorrectMessageLengthOrInvalidFormat reply⟩
  | some controlDtcSetting =>
    let subfunction := subfunctionOf request
    if request.length ≠ 2 then
      ⟨server,context,negativeResponse request nrcIncorrectMessageLengthOrInvalidFormat reply⟩
    else if subfunction ≠ 0x01 ∧ subfunction ≠ 0x02 then
      ⟨server,context,negativeResponse request nrcSubfunctionNotSupported reply⟩
    else
      let (context,result) := controlDtcSetting server context subfunction
      if result ≠ .ok then ⟨server,context,callbackResult result request reply⟩
      else
        ⟨{ server with dtcSettingEnabled := subfunction = 0x01 },context,
          answer request [0xC5,subfunction] 2 reply⟩

/-- The dispatch on the service identifier. -/
def dispatch (cb : UdsCallbacks σ) (server : UdsServer) (context : σ) (request : List UInt8)
    (reply : Reply capacity) : Served σ capacity :=
  match (byteAt request 0).toNat with
  | 0x10 => serviceSessionControl server context request reply
  | 0x11 => serviceEcuReset cb server context request reply
  | 0x19 => serviceReadDtc cb server context request reply
  | 0x22 => serviceReadData cb server context request reply
  | 0x27 => serviceSecurityAccess cb server context request reply
  | 0x28 => serviceCommunicationControl cb server context request reply
  | 0x2F => serviceIoControl server context request reply
  | 0x31 => serviceRoutineControl cb server context request reply
  | 0x34 => serviceDownload cb server context request reply
  | 0x36 => serviceTransferData cb server context request reply
  | 0x37 => serviceTransferExit cb server context request reply
  | 0x3E => serviceTesterPresent server context request reply
  | 0x85 => serviceDtcSetting cb server context request reply
  | _ => ⟨server,context,negativeResponse request nrcServiceNotSupported reply⟩

def udsServerHandle (cb : UdsCallbacks σ) (server : UdsServer) (context : σ)
    (request : List UInt8) (reply : Reply capacity) (nowMs : UInt32) : Served σ capacity :=
  if capacity = 0 ∨ request.length = 0 ∨ udsMaxRequestLength < request.length then
    ⟨server,context,{ reply with result := .error }⟩
  else
    dispatch cb { server with lastActivityMs := nowMs } context request
      { reply with length := 0 }

end Services

def deadlineExpired (nowMs deadlineMs : UInt32) : Bool := Clock.reached nowMs deadlineMs

def udsServerTick (server : UdsServer) (nowMs : UInt32) : UdsServer × UdsCallbackResult :=
  if deadlineExpired nowMs (server.lastActivityMs+server.s3ServerTimeoutMs) then
    ({ udsServerResetSecurity { server with session := udsSessionDefault } with
        downloadActive := false, nextDownloadBlock := 1 },.busy)
  else (server,.ok)

end CanopenReference.Uds
