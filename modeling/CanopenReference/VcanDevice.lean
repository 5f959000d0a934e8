import CanopenReference.Library.Fields
import CanopenReference.Library.Runs
import CanopenReference.MockCanopen

/-!
# The vcan device

The wire-level device of `canopen_vcan_device.py`: an SDO server with expedited
and segmented transfers both ways, the NMT state, one process image behind a
receive and a transmit PDO. What Python raises ends the device. The clock only
decides when a heartbeat is due, which comes with each turn of the loop.
-/

set_option autoImplicit false

namespace CanopenReference.VcanDevice
open Library Library.Runs MockCanopen

def abortReadonly : ℕ := 0x06010002
def abortNoObject : ℕ := 0x06020000
def abortUnsupported : ℕ := 0x05040001

inductive PyError where
  | valueError
  | overflowError
  | keyError
  deriving DecidableEq

/-- Sending refuses what is no classic frame. -/
def send (arbitrationId : ℕ) (data : List UInt8) : Except PyError Frame :=
  if hid : 0x7FF < arbitrationId then .error .valueError
  else if hdata : 8 < data.length then .error .valueError
  else .ok ⟨arbitrationId,data,Nat.le_of_not_lt hid,Nat.le_of_not_lt hdata⟩

def toBytes (length n : ℕ) : Except PyError (List UInt8) :=
  if n < 256^length then .ok (littleEndian length n) else .error .overflowError

def ljust (width : ℕ) (data : List UInt8) : List UInt8 :=
  data++List.replicate (width-data.length) 0

abbrev Key := UInt16 × UInt8

structure Device where
  nodeId : NodeId
  heartbeatMs : ℕ
  state : UInt8
  segmentUpload : Option (List UInt8)
  segmentDownload : List UInt8
  segmentIndex : Option Key
  mapping : Key → Option ℕ
  values : Key → Option (List UInt8)

/-- A handler sends at most one frame, unless it raises. -/
abbrev Handled := Except PyError (Device × List Frame)

def update {α : Type} (table : Key → Option α) (key : Key) (a : α) : Key → Option α :=
  fun other => if other = key then some a else table other

def payload : List UInt8 :=
  "CANopenNode SocketCAN segmented regression payload.".toList.map fun c => UInt8.ofNat c.toNat

def initialValues (heartbeat : List UInt8) : List (Key × List UInt8) :=
  [((0x1017,0),heartbeat),
    ((0x1018,1),littleEndian 4 0x12345678),
    ((0x1018,2),littleEndian 4 0x0000F767),
    ((0x1018,3),littleEndian 4 0x00010000),
    ((0x1018,4),littleEndian 4 0x00000001),
    ((0x2000,0),littleEndian 4 0),
    ((0x2001,0),payload),
    ((0x6000,1),[0x00,0x00]),
    ((0x6200,1),[0x00,0x00])]

def device (nodeId : NodeId) (heartbeatMs : ℕ) (heartbeat : List UInt8) : Device where
  nodeId := nodeId
  heartbeatMs := heartbeatMs
  state := 0x7F
  segmentUpload := none
  segmentDownload := []
  segmentIndex := none
  mapping := fun key => if key = (0x1600,0) then some 0 else none
  values := fun key => (initialValues heartbeat).lookup key

/-- The constructor, which sends an emergency if asked to and the boot-up message. -/
def start (nodeId : NodeId) (heartbeatMs : ℕ) (emcyOnStart : Bool) : Handled := do
  let heartbeat ← toBytes 2 heartbeatMs
  let emcy ←
    if emcyOnStart then do
      .ok [← send (0x080+nodeId.1) [0x10,0x23,0x10,0,0,0,0,0]]
    else .ok []
  let bootup ← send (0x700+nodeId.1) [0x00]
  .ok (device nodeId heartbeatMs heartbeat,emcy++[bootup])

section Handlers
variable (d : Device)

def sent (d : Device) (arbitrationId : ℕ) (data : List UInt8) : Handled :=
  (send arbitrationId data).map fun frame => (d,[frame])

def publishNmtState (state : UInt8) (bootup : Bool) : Handled :=
  sent { d with state := state } (0x700+d.nodeId.1) [if bootup then 0x00 else state]

/-- The response to an SDO request, with four bytes of data. -/
def answered (d : Device) (command : UInt8) (key : Key) (data : List UInt8) : Handled :=
  sent d (0x580+d.nodeId.1) (command::multiplexer key.1 key.2++data)

def abort (key : Key) (code : ℕ) : Handled := answered d 0x80 key (littleEndian 4 code)

def value (key : Key) : Except PyError (Option (List UInt8)) :=
  match d.mapping key with
  | some n => (toBytes (if key.2 = 0 then 1 else 4) n).map some
  | none => .ok (d.values key)

def isWritable (index : UInt16) : Bool :=
  index = 0x1017 ∨ index = 0x1600 ∨ index = 0x2000 ∨ index = 0x6200

def writeValue (key : Key) (bytes : List UInt8) : Device × Bool :=
  if !isWritable key.1 then (d,false)
  else if key.1 = 0x1600 then
    if 8 < key.2 ∨ (bytes.length ≠ 1 ∧ bytes.length ≠ 4) then (d,false)
    else ({ d with mapping := update d.mapping key (littleValue bytes) },true)
  else
    ({ d with
        values := update d.values key bytes
        heartbeatMs :=
          if key = (0x1017,0) ∧ bytes.length = 2 then littleValue bytes else d.heartbeatMs },true)

def sdoUpload (key : Key) : Handled := do
  match ← value d key with
  | none => abort d key abortNoObject
  | some bytes =>
    if bytes.length ≤ 4 then
      answered d ((0x43 : UInt8) ||| UInt8.ofNat ((4-bytes.length) <<< 2)) key (ljust 4 bytes)
    else
      answered { d with segmentUpload := some bytes } 0x41 key (← toBytes 4 bytes.length)

def sdoDownloadExpedited (command : UInt8) (key : Key) (data : List UInt8) : Handled :=
  if !isWritable key.1 then abort d key abortReadonly
  else
    let length := 4-((command >>> 2) &&& 0x03).toNat
    let written := writeValue d key (data.take length)
    if !written.2 then abort d key abortUnsupported
    else answered written.1 0x60 key [0,0,0,0]

/-- The command of a segment: its toggle bit, how many of seven bytes are unused,
and whether it is the last. -/
def segmentCommand (command : UInt8) (unused : ℕ) (last : Bool) : UInt8 :=
  (command &&& (0x10 : UInt8)) ||| UInt8.ofNat (unused <<< 1) ||| (if last then (1 : UInt8) else 0)

def uploadSegment (command : UInt8) (rest : List UInt8) : Handled :=
  let chunk := rest.take 7
  let rest := rest.drop 7
  let last := rest.isEmpty
  sent { d with segmentUpload := if last then none else some rest } (0x580+d.nodeId.1)
    (segmentCommand command (7-chunk.length) last::ljust 7 chunk)

def confirmed (d : Device) (command : UInt8) : Handled :=
  sent d (0x580+d.nodeId.1) [0x20 ||| (command &&& 0x10),0,0,0,0,0,0,0]

def downloadSegment (command : UInt8) (key : Key) (data : List UInt8) : Handled :=
  let length := 7-((command >>> 1) &&& 0x07).toNat
  let gathered := d.segmentDownload++data.take length
  if command &&& 0x01 ≠ 0 then
    let written := writeValue d key gathered
    let closed := { written.1 with segmentIndex := none, segmentDownload := [] }
    if !written.2 then abort closed key abortUnsupported else confirmed closed command
  else confirmed { d with segmentDownload := gathered } command

/-- A request for a segment, or a segment, of a transfer that is open. Any other
command is not answered. -/
def sdoSegment (command : UInt8) (data : List UInt8) : Handled :=
  if command &&& 0xE0 = 0x60 then
    match d.segmentUpload with
    | some rest => uploadSegment d command rest
    | none => .ok (d,[])
  else if command &&& 0xE0 = 0x00 then
    match d.segmentIndex with
    | some key => downloadSegment d command key data
    | none => .ok (d,[])
  else .ok (d,[])

def handleSdo (frame : Frame) : Handled :=
  let command := byteOf frame 0
  let key : Key := (indexOf frame,byteOf frame 3)
  if command = 0x40 then sdoUpload d key
  else if command &&& 0xE0 = 0x20 ∧ command &&& 0x02 ≠ 0 then
    sdoDownloadExpedited d command key ((frame.data.take 8).drop 4)
  else if command &&& 0xE0 = 0x20 then
    if !isWritable key.1 then abort d key abortReadonly
    else answered { d with segmentIndex := some key, segmentDownload := [] } 0x60 key [0,0,0,0]
  else sdoSegment d command ((frame.data.take 8).drop 1)

def handleLss (frame : Frame) : Handled :=
  if frame.data.length = 8 ∧ byteOf frame 0 = 0x51 then sent d 0x7E4 [0x4F,0,0,0,0,0,0,0]
  else .ok (d,[])

def handleNmt (command : UInt8) (target : ℕ) : Handled :=
  if target ≠ 0 ∧ target ≠ d.nodeId.1 then .ok (d,[])
  else if command = 0x01 then publishNmtState d 0x05 false
  else if command = 0x02 then publishNmtState d 0x04 false
  else if command = 0x80 then publishNmtState d 0x7F false
  else if command = 0x81 then publishNmtState d 0x7F true
  else if command = 0x82 then publishNmtState d 0x7F false
  else .ok (d,[])

def handle (frame : Frame) : Handled :=
  if frame.cobId = 0x000 ∧ frame.data.length = 2 then
    handleNmt d (byteOf frame 0) (byteOf frame 1).toNat
  else if frame.cobId = 0x600+d.nodeId.1 ∧ frame.data.length = 8 then handleSdo d frame
  else if frame.cobId = 0x200+d.nodeId.1 ∧ 2 ≤ frame.data.length then
    .ok ({ d with values := update d.values (0x6200,1) (frame.data.take 2) },[])
  else if frame.cobId = 0x080 ∧ frame.data.length = 0 ∧ d.state = 0x05 then
    match d.values (0x6200,1) with
    | none => .error .keyError
    | some bytes => sent d (0x180+d.nodeId.1) bytes
  else if frame.cobId = 0x7E5 then handleLss d frame
  else .ok (d,[])

def heartbeat : Handled := sent d (0x700+d.nodeId.1) [d.state]

end Handlers

/-- A pass of the loop sends a heartbeat when one is due, and handles a frame if
there is one. -/
inductive Input where
  | beat
  | frame (frame : Frame)

def step (d : Device) : Input → Handled
  | .beat => heartbeat d
  | .frame frame => handle d frame

structure Exchange where
  input : Input
  answers : List Frame

/-- The process, which what is raised ends. -/
def processStep (p : Except PyError Device) (input : Input) :
    Except PyError Device × List Exchange :=
  match p with
  | .error e => (.error e,[])
  | .ok d =>
    match step d input with
    | .error e => (.error e,[])
    | .ok handled => (.ok handled.1,[⟨input,handled.2⟩])

theorem process_ok {d d' : Device} {input : Input} {frames : List Frame}
    (h : step d input = .ok (d',frames)) :
    processStep (.ok d) input = (.ok d',[⟨input,frames⟩]) := by
  simp only [processStep,h]

theorem process_raised {d : Device} {input : Input} {e : PyError} (h : step d input = .error e) :
    processStep (.ok d) input = (.error e,[]) := by
  simp only [processStep,h]

theorem run_raised (e : PyError) (inputs : List Input) :
    run processStep (.error e) inputs = (.error e,[]) := by
  induction inputs with
  | nil => rfl
  | cons input inputs ih =>
    rw [run_cons]
    show ((run processStep (.error e) inputs).1,[]++(run processStep (.error e) inputs).2) = _
    rw [ih]
    rfl

section Client

def busFrames (x : Exchange) : List Frame :=
  match x.input with
  | .beat => x.answers
  | .frame frame => frame::x.answers

inductive ClientError where
  | timedOut
  | aborted
  | initialization
  | toggle
  | length
  deriving DecidableEq

/-- A request behind other traffic, and the first frame of the server that the
client then sees. -/
def exchange (p : Except PyError Device) (nodeId : NodeId) (traffic : List Input) (request : Frame) :
    Except PyError Device × Option Frame :=
  let done := run processStep p (traffic++[.frame request])
  (done.1,(done.2.flatMap busFrames).find? fun f => f.cobId = 0x580+nodeId.1)

def segmentRequest (nodeId : NodeId) (toggle : UInt8) : Frame :=
  requestFrame nodeId (0x60 ||| toggle) 0 0 (littleEndian 4 0) no_bytes

/-- The loop that asks for segments, for at most `fuel` of them. -/
def receiveSegments (nodeId : NodeId) (expected : ℕ) :
    ℕ → Except PyError Device → List (List Input) → UInt8 → List UInt8 →
      Except PyError Device × Option (Except ClientError (List UInt8))
  | 0, p, _, _, _ => (p,none)
  | fuel+1, p, traffic, toggle, received =>
    let asked := exchange p nodeId (traffic.headD []) (segmentRequest nodeId toggle)
    match asked.2 with
    | none => (asked.1,some (.error .timedOut))
    | some segment =>
      if byteOf segment 0 &&& 0x10 ≠ toggle then (asked.1,some (.error .toggle))
      else
        let length := 7-((byteOf segment 0 >>> 1) &&& 0x07).toNat
        let received := received++(segment.data.take (1+length)).drop 1
        if byteOf segment 0 &&& 0x01 ≠ 0 then
          (asked.1,
            some (if received.length = expected then .ok received else .error .length))
        else receiveSegments nodeId expected fuel asked.1 traffic.tail (toggle ^^^ 0x10) received

/-- The client's read of an object, with the traffic before each of its requests. -/
def sdoRead (fuel : ℕ) (p : Except PyError Device) (nodeId : NodeId) (key : Key)
    (traffic : List (List Input)) :
    Except PyError Device × Option (Except ClientError (List UInt8)) :=
  let asked := exchange p nodeId (traffic.headD [])
    (requestFrame nodeId 0x40 key.1 key.2 (littleEndian 4 0) no_bytes)
  match asked.2 with
  | none => (asked.1,some (.error .timedOut))
  | some response =>
    let command := byteOf response 0
    if command = 0x80 then (asked.1,some (.error .aborted))
    else if command &&& 0x02 ≠ 0 then
      let length := 4-((command >>> 2) &&& 0x03).toNat
      (asked.1,some (.ok ((response.data.take (4+length)).drop 4)))
    else if command ≠ 0x41 then (asked.1,some (.error .initialization))
    else
      receiveSegments nodeId (littleValue ((response.data.take 8).drop 4)) fuel asked.1 traffic.tail
        0 []

end Client

end CanopenReference.VcanDevice
