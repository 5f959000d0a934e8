import Mathlib.Data.Int.Notation
import Mathlib.Data.Nat.Notation
import Mathlib.Tactic.Common

/-!
# The host-side diagnostic model

The receiver, the encoder, the server and the node of `uds_isotp.py`. Bytes
are lists, integers are unbounded, and a raised exception is an error value;
what a method changed before it raised stays changed.
-/

set_option autoImplicit false

namespace CanopenReference.UdsIsotp

structure IsoTpError where
  message : String
  deriving DecidableEq

/-- A frame that passed its own checks. -/
structure CanFrame where
  canId : ℤ
  data : List UInt8
  idRange : 0 ≤ canId ∧ canId ≤ 0x7FF
  size : data.length ≤ 8
  deriving DecidableEq

def canFrame (canId : ℤ) (data : List UInt8) : Except IsoTpError CanFrame :=
  if hid : 0 ≤ canId ∧ canId ≤ 0x7FF then
    if hsize : data.length ≤ 8 then .ok ⟨canId,data,hid,hsize⟩
    else .error ⟨"classic CAN frame must contain 0..8 bytes"⟩
  else .error ⟨"classic CAN identifier out of range"⟩

structure IsoTpReceiver where
  maxPayload : ℕ
  expected : Option ℕ
  buffer : List UInt8
  nextSequence : ℕ
  deriving DecidableEq

def isoTpReceiver : IsoTpReceiver := ⟨4095,none,[],1⟩

abbrev Fed := Except IsoTpError (List CanFrame × Option (List UInt8))

def reset (r : IsoTpReceiver) : IsoTpReceiver :=
  { r with expected := none, buffer := [], nextSequence := 1 }

def completeIfReady (r : IsoTpReceiver) : IsoTpReceiver × Option (List UInt8) :=
  match r.expected with
  | some expected =>
    if expected ≤ r.buffer.length then (reset r,some (r.buffer.take expected)) else (r,none)
  | none => (r,none)

def raised (message : String) : Fed := .error ⟨message⟩

def pci (frame : CanFrame) : ℕ := (frame.data.getD 0 0).toNat >>> 4
def low (frame : CanFrame) : ℕ := (frame.data.getD 0 0).toNat &&& 0x0F

def feedSingle (frame : CanFrame) : Fed :=
  let length := low frame
  if 7 < length ∨ frame.data.length-1 < length then raised "invalid single-frame length"
  else .ok ([],some ((frame.data.drop 1).take length))

def firstLength (frame : CanFrame) : ℕ := (low frame <<< 8) ||| (frame.data.getD 1 0).toNat

def feedFirst (r : IsoTpReceiver) (frame : CanFrame) : IsoTpReceiver × Fed :=
  if frame.data.length < 2 then (r,raised "truncated first frame")
  else
    let length := firstLength frame
    if length ≤ 7 ∨ r.maxPayload < length then (r,raised "invalid first-frame length")
    else
      let started : IsoTpReceiver :=
        { r with expected := some length, buffer := frame.data.drop 2, nextSequence := 1 }
      match canFrame frame.canId [0x30,0x00,0x00] with
      | .error e => (started,.error e)
      | .ok flowControl =>
        let completed := completeIfReady started
        (completed.1,.ok ([flowControl],completed.2))

def feedConsecutive (r : IsoTpReceiver) (frame : CanFrame) : IsoTpReceiver × Fed :=
  if r.expected = none then (r,raised "consecutive frame without first frame")
  else if low frame ≠ r.nextSequence then
    (reset r,raised "consecutive-frame sequence mismatch")
  else
    let extended : IsoTpReceiver :=
      { r with
        buffer := r.buffer++frame.data.drop 1
        nextSequence := (r.nextSequence+1) &&& 0x0F }
    let completed := completeIfReady extended
    (completed.1,.ok ([],completed.2))

def feedFlowControl (frame : CanFrame) : Fed :=
  if low frame ≠ 0x0 ∧ low frame ≠ 0x1 ∧ low frame ≠ 0x2 then
    raised "unsupported flow-control status"
  else .ok ([],none)

def feed (r : IsoTpReceiver) (frame : CanFrame) : IsoTpReceiver × Fed :=
  if frame.data = [] then (r,raised "empty ISO-TP frame")
  else if pci frame = 0x0 then (r,feedSingle frame)
  else if pci frame = 0x1 then feedFirst r frame
  else if pci frame = 0x2 then feedConsecutive r frame
  else if pci frame = 0x3 then (r,feedFlowControl frame)
  else (r,raised "reserved ISO-TP PCI type")

/-- The encoder's loop; every turn takes at least one byte of the payload. -/
def encodeLoop (canId : ℤ) (payload : List UInt8) :
    ℕ → ℕ → ℕ → Except IsoTpError (List CanFrame)
  | 0, _, _ => .ok []
  | fuel+1, sequence, offset =>
    if offset < payload.length then do
      let chunk := (payload.drop offset).take 7
      let frame ← canFrame canId (UInt8.ofNat (0x20 ||| sequence)::chunk)
      let rest ← encodeLoop canId payload fuel ((sequence+1) &&& 0x0F) (offset+chunk.length)
      return frame::rest
    else .ok []

def isotpEncode (canId : ℤ) (payload : List UInt8) : Except IsoTpError (List CanFrame) :=
  if payload = [] then .error ⟨"empty UDS payload"⟩
  else if payload.length ≤ 7 then do
    let frame ← canFrame canId (UInt8.ofNat payload.length::payload)
    return [frame]
  else if 4095 < payload.length then
    .error ⟨"classic ISO-TP payload exceeds 4095 bytes"⟩
  else do
    let frame ← canFrame canId
      (UInt8.ofNat (0x10 ||| ((payload.length >>> 8) &&& 0x0F))::
        UInt8.ofNat (payload.length &&& 0xFF)::payload.take 6)
    let rest ← encodeLoop canId payload payload.length 1 6
    return frame::rest

def nrcServiceNotSupported : UInt8 := 0x11
def nrcSubfunctionNotSupported : UInt8 := 0x12
def nrcIncorrectLength : UInt8 := 0x13
def nrcRequestOutOfRange : UInt8 := 0x31

/-- The data identifiers behind the server are a store that its callables read
and change. -/
structure UdsServer (σ : Type) where
  readDid : σ → ℕ → σ × Option (List UInt8)
  writeDid : σ → ℕ → List UInt8 → σ × Bool
  store : σ
  session : UInt8
  resetRequested : Bool

section Server
variable {σ : Type}

def negative (service nrc : UInt8) : List UInt8 := [0x7F,service,nrc]

def didFromBytes (bytes : List UInt8) : ℕ := (bytes.getD 0 0).toNat*256+(bytes.getD 1 0).toNat

def handleSession (server : UdsServer σ) (request : List UInt8) : UdsServer σ × List UInt8 :=
  let session := request.getD 1 0
  if request.length ≠ 2 ∨ session ≠ 0x01 ∧ session ≠ 0x03 then
    (server,negative 0x10 nrcSubfunctionNotSupported)
  else ({ server with session := session },[0x50,session,0x00,0x32,0x01,0xF4])

def handleReset (server : UdsServer σ) (request : List UInt8) : UdsServer σ × List UInt8 :=
  let kind := request.getD 1 0
  if request.length ≠ 2 ∨ kind ≠ 0x01 then (server,negative 0x11 nrcSubfunctionNotSupported)
  else ({ server with resetRequested := true },[0x51,kind])

def handleTesterPresent (server : UdsServer σ) (request : List UInt8) :
    UdsServer σ × List UInt8 :=
  let kind := request.getD 1 0
  if request.length ≠ 2 ∨ kind ≠ 0x00 ∧ kind ≠ 0x80 then
    (server,negative 0x3E nrcSubfunctionNotSupported)
  else (server,[0x7E,kind])

def handleRead (server : UdsServer σ) (request : List UInt8) : UdsServer σ × List UInt8 :=
  if request.length ≠ 3 then (server,negative 0x22 nrcIncorrectLength)
  else
    let did := (request.drop 1).take 2
    let read := server.readDid server.store (didFromBytes did)
    let next : UdsServer σ := { server with store := read.1 }
    match read.2 with
    | none => (next,negative 0x22 nrcRequestOutOfRange)
    | some value => (next,0x62::did++value)

def handleWrite (server : UdsServer σ) (request : List UInt8) : UdsServer σ × List UInt8 :=
  if request.length < 4 then (server,negative 0x2E nrcIncorrectLength)
  else
    let did := (request.drop 1).take 2
    let written := server.writeDid server.store (didFromBytes did) (request.drop 3)
    let next : UdsServer σ := { server with store := written.1 }
    if written.2 then (next,0x6E::did) else (next,negative 0x2E nrcRequestOutOfRange)

def handle (server : UdsServer σ) (request : List UInt8) : UdsServer σ × List UInt8 :=
  match request with
  | [] => (server,negative 0 nrcIncorrectLength)
  | service::_ =>
    if service = 0x10 then handleSession server request
    else if service = 0x11 then handleReset server request
    else if service = 0x3E then handleTesterPresent server request
    else if service = 0x22 then handleRead server request
    else if service = 0x2E then handleWrite server request
    else (server,negative service nrcServiceNotSupported)

end Server

structure UdsIsoTpNode (σ : Type) where
  requestId : ℤ
  responseId : ℤ
  server : UdsServer σ
  receiver : IsoTpReceiver

def receive {σ : Type} (node : UdsIsoTpNode σ) (frame : CanFrame) :
    UdsIsoTpNode σ × Except IsoTpError (List CanFrame) :=
  if frame.canId ≠ node.requestId then (node,.ok [])
  else
    let fed := feed node.receiver frame
    let next : UdsIsoTpNode σ := { node with receiver := fed.1 }
    match fed.2 with
    | .error e => (next,.error e)
    | .ok (flowControl,none) => (next,.ok flowControl)
    | .ok (flowControl,some payload) =>
      let handled := handle node.server payload
      ({ next with server := handled.1 },
        (isotpEncode node.responseId handled.2).map (flowControl++·))

end CanopenReference.UdsIsotp
