import CanopenReference.Library.Fields
import CanopenReference.Library.Runs

/-!
# The mock node and its bus

The user-space node of the frame mock: an object dictionary behind an SDO
server, the NMT state and the transmit PDOs, with the in-process bus and the
client that reads objects over it.
-/

set_option autoImplicit false

namespace CanopenReference.MockCanopen
open Library Library.Runs

def sdoAbortToggle : ℕ := 0x05030000
def sdoAbortUnknownObject : ℕ := 0x06020000
def sdoAbortWriteRo : ℕ := 0x06010002
def sdoAbortSubNotExist : ℕ := 0x06090011
def sdoAbortTypeMismatch : ℕ := 0x06070010

abbrev NodeId := { n : ℕ // 1 ≤ n ∧ n ≤ 0x7F }

structure Frame where
  cobId : ℕ
  data : List UInt8
  standard : cobId ≤ 0x7FF
  short : data.length ≤ 8

instance : DecidableEq Frame := fun a b =>
  decidable_of_iff (a.cobId = b.cobId ∧ a.data = b.data) (by cases a; cases b; simp)

/-- Only `ro` is looked at; the catalog also has `array`. -/
inductive Access where
  | ro
  | rw
  | array
  deriving DecidableEq

structure ObjectValue where
  width : ℕ
  access : Access
  value : List UInt8
  sized : value.length = width
  packed : width < 2^32
  deriving DecidableEq

def ObjectValue.write (o : ObjectValue) (value : List UInt8) (h : value.length = o.width) :
    ObjectValue :=
  { o with value := value, sized := h }

abbrev ObjectDictionary := UInt16 → UInt8 → Option ObjectValue

def set (od : ObjectDictionary) (index : UInt16) (subIndex : UInt8) (o : ObjectValue) :
    ObjectDictionary :=
  fun i s => if i = index ∧ s = subIndex then some o else od i s

structure MockNode where
  nodeId : NodeId
  od : ObjectDictionary
  nmtState : UInt8
  pendingUpload : Option (List UInt8)
  pendingOffset : ℕ
  pendingToggle : UInt8

def mockNode (nodeId : NodeId) (od : ObjectDictionary) : MockNode := ⟨nodeId,od,0x7F,none,0,0⟩

def byteOf (frame : Frame) (i : ℕ) : UInt8 := frame.data.getD i 0

theorem heartbeat_standard (id : NodeId) : 0x700+id.1 ≤ 0x7FF := by
  have := id.2
  omega

theorem response_standard (id : NodeId) : 0x580+id.1 ≤ 0x7FF := by
  have := id.2
  omega

theorem request_standard (id : NodeId) : 0x600+id.1 ≤ 0x7FF := by
  have := id.2
  omega

theorem single_short (x : UInt8) : [x].length ≤ 8 := Nat.le_of_ble_eq_true rfl

def bootup (node : MockNode) : Frame :=
  ⟨0x700+node.nodeId.1,[0x00],heartbeat_standard node.nodeId,single_short 0x00⟩

def heartbeat (node : MockNode) : Frame :=
  ⟨0x700+node.nodeId.1,[node.nmtState],heartbeat_standard node.nodeId,single_short node.nmtState⟩

def multiplexer (index : UInt16) (subIndex : UInt8) : List UInt8 :=
  littleEndian 2 index.toNat++[subIndex]

theorem eight_bytes (command : UInt8) (index : UInt16) (subIndex : UInt8) {data : List UInt8}
    (h : data.length ≤ 4) : (command::multiplexer index subIndex++data).length ≤ 8 := by
  simp [multiplexer]
  omega

/-- An SDO response with up to four bytes of data behind the object's address. -/
def response (node : MockNode) (command : UInt8) (index : UInt16) (subIndex : UInt8)
    (data : List UInt8) (h : data.length ≤ 4) : Frame :=
  ⟨0x580+node.nodeId.1,command::multiplexer index subIndex++data,response_standard node.nodeId,
    eight_bytes command index subIndex h⟩

theorem packed_four (n : ℕ) : (littleEndian 4 n).length ≤ 4 := Nat.le_of_eq (little_length 4 n)

def abort (node : MockNode) (index : UInt16) (subIndex : UInt8) (code : ℕ) : Frame :=
  response node 0x80 index subIndex (littleEndian 4 code) (packed_four code)

theorem padded_four {raw : List UInt8} (h : raw.length ≤ 4) :
    (raw++List.replicate (4-raw.length) (0 : UInt8)).length ≤ 4 := by
  rw [List.length_append,List.length_replicate]
  omega

def missing (subIndex : UInt8) : ℕ :=
  if subIndex = 0 then sdoAbortUnknownObject else sdoAbortSubNotExist

def sdoUploadResponse (node : MockNode) (index : UInt16) (subIndex : UInt8) :
    MockNode × List Frame :=
  match node.od index subIndex with
  | none => (node,[abort node index subIndex (missing subIndex)])
  | some obj =>
    let raw := obj.value
    if h : raw.length ≤ 4 then
      let unused := 4-raw.length
      (node,
        [response node (UInt8.ofNat (0x43 ||| (unused <<< 2))) index subIndex
          (raw++List.replicate unused 0) (padded_four h)])
    else
      ({ node with pendingUpload := some raw, pendingOffset := 0, pendingToggle := 0 },
        [response node 0x41 index subIndex (littleEndian 4 raw.length) (packed_four raw.length)])

theorem segment_short (command : UInt8) (raw : List UInt8) (offset : ℕ) :
    (command::((raw.drop offset).take 7++
      List.replicate (7-((raw.drop offset).take 7).length) 0)).length ≤ 8 := by
  simp only [List.length_cons,List.length_append,List.length_take,List.length_replicate]
  omega

def uploadSegment (id : NodeId) (raw : List UInt8) (offset : ℕ) (toggle : UInt8) : Frame :=
  let chunk := (raw.drop offset).take 7
  let unused := 7-chunk.length
  let last : UInt8 := if offset+chunk.length = raw.length then 1 else 0
  ⟨0x580+id.1,((toggle <<< 4) ||| UInt8.ofNat (unused <<< 1) ||| last)::
      (chunk++List.replicate unused 0),response_standard id,segment_short _ raw offset⟩

def sdoUploadSegment (node : MockNode) (command : UInt8) : MockNode × List Frame :=
  match node.pendingUpload with
  | none => (node,[abort node 0 0 sdoAbortToggle])
  | some raw =>
    let toggle := (command >>> 4) &&& 1
    if toggle ≠ node.pendingToggle then (node,[abort node 0 0 sdoAbortToggle])
    else
      let offset := node.pendingOffset+((raw.drop node.pendingOffset).take 7).length
      ({ node with
          pendingOffset := offset
          pendingToggle := node.pendingToggle ^^^ 1
          pendingUpload := if offset = raw.length then none else some raw },
        [uploadSegment node.nodeId raw node.pendingOffset toggle])

theorem no_bytes : (littleEndian 4 0).length ≤ 4 := packed_four 0

def sdoDownload (node : MockNode) (command : UInt8) (index : UInt16) (subIndex : UInt8)
    (payload : List UInt8) : MockNode × List Frame :=
  match node.od index subIndex with
  | none => (node,[abort node index subIndex (missing subIndex)])
  | some obj =>
    if obj.access = .ro then (node,[abort node index subIndex sdoAbortWriteRo])
    else if command &&& 0x03 ≠ 0x03 then (node,[abort node index subIndex sdoAbortTypeMismatch])
    else
      let unused := ((command >>> 2) &&& 0x03).toNat
      let size := 4-unused
      let value := payload.take size
      if h : value.length = obj.width then
        ({ node with od := set node.od index subIndex (obj.write value h) },
          [response node 0x60 index subIndex (littleEndian 4 0) no_bytes])
      else (node,[abort node index subIndex sdoAbortTypeMismatch])

/-- The NMT commands, each with the heartbeat or boot-up message it answers. -/
def receiveNmt (node : MockNode) (command : UInt8) (target : ℕ) : MockNode × List Frame :=
  let entered (state : UInt8) : MockNode := { node with nmtState := state }
  if target ≠ 0 ∧ target ≠ node.nodeId.1 then (node,[])
  else if command = 0x01 then (entered 0x05,[heartbeat (entered 0x05)])
  else if command = 0x02 then (entered 0x04,[heartbeat (entered 0x04)])
  else if command = 0x80 then (entered 0x7F,[heartbeat (entered 0x7F)])
  else if command = 0x81 ∨ command = 0x82 then (entered 0x7F,[bootup (entered 0x7F)])
  else (node,[])

def indexOf (frame : Frame) : UInt16 :=
  UInt16.ofNat (littleValue [byteOf frame 1,byteOf frame 2])

/-- The SDO server: a request by its command byte. -/
def served (node : MockNode) (command : UInt8) (index : UInt16) (subIndex : UInt8)
    (payload : List UInt8) : MockNode × List Frame :=
  if command = 0x40 then sdoUploadResponse node index subIndex
  else if command = 0x60 ∨ command = 0x70 then sdoUploadSegment node command
  else if command &&& 0xE0 = 0x20 then sdoDownload node command index subIndex payload
  else (node,[abort node index subIndex sdoAbortTypeMismatch])

def receive (node : MockNode) (frame : Frame) : MockNode × List Frame :=
  if frame.cobId = 0 ∧ 2 ≤ frame.data.length then
    receiveNmt node (byteOf frame 0) (byteOf frame 1).toNat
  else if frame.cobId ≠ 0x600+node.nodeId.1 ∨ frame.data.length ≠ 8 then (node,[])
  else served node (byteOf frame 0) (indexOf frame) (byteOf frame 3) (frame.data.drop 4)

section Bus

inductive Direction where
  | tx
  | rx
  deriving DecidableEq

structure MockBus where
  node : MockNode
  frames : List (Direction × Frame)

def transmit (bus : MockBus) (frame : Frame) : MockBus × List Frame :=
  let answered := receive bus.node frame
  (⟨answered.1,bus.frames++(.tx,frame)::answered.2.map fun f => (.rx,f)⟩,answered.2)

def requestFrame (nodeId : NodeId) (command : UInt8) (index : UInt16) (subIndex : UInt8)
    (value : List UInt8) (h : value.length ≤ 4) : Frame :=
  ⟨0x600+nodeId.1,command::multiplexer index subIndex++value,request_standard nodeId,
    eight_bytes command index subIndex h⟩

def sdoRequest (bus : MockBus) (nodeId : NodeId) (command : UInt8) (index : UInt16)
    (subIndex : UInt8) (value : List UInt8) (h : value.length ≤ 4) : MockBus × List Frame :=
  transmit bus (requestFrame nodeId command index subIndex value h)

inductive UploadError where
  | initialResponse
  | segmentResponse
  | sizeMismatch
  deriving DecidableEq

def UploadError.message : UploadError → String
  | .initialResponse => "SDO upload must return exactly one initial response"
  | .segmentResponse => "segmented SDO upload must return one segment"
  | .sizeMismatch => "segmented SDO upload size mismatch"

/-- The loop that asks for segments, for at most `fuel` of them. -/
def uploadSegments (nodeId : NodeId) : ℕ → MockBus → UInt8 → List UInt8 →
    MockBus × Option (Except UploadError (List UInt8))
  | 0, bus, _, _ => (bus,none)
  | fuel+1, bus, toggle, result =>
    let asked := sdoRequest bus nodeId ((0x60 : UInt8) ||| (toggle <<< 4)) 0 0 (littleEndian 4 0) no_bytes
    match asked.2 with
    | [segment] =>
      let last := byteOf segment 0 &&& 0x01
      let unused := ((byteOf segment 0 >>> 1) &&& 0x07).toNat
      let result := result++(segment.data.take (if last ≠ 0 then 8-unused else 8)).drop 1
      if last ≠ 0 then (asked.1,some (.ok result))
      else uploadSegments nodeId fuel asked.1 (toggle ^^^ 1) result
    | _ => (asked.1,some (.error .segmentResponse))

/-- The client's read of an object: its bytes, or nothing after an abort. -/
def sdoUpload (fuel : ℕ) (bus : MockBus) (nodeId : NodeId) (index : UInt16) (subIndex : UInt8) :
    MockBus × Option (Except UploadError (Option (List UInt8))) :=
  let asked := sdoRequest bus nodeId 0x40 index subIndex (littleEndian 4 0) no_bytes
  match asked.2 with
  | [response] =>
    let command := byteOf response 0
    if command = 0x80 then (asked.1,some (.ok none))
    else if command &&& 0x02 ≠ 0 then
      let unused := ((command >>> 2) &&& 0x03).toNat
      (asked.1,some (.ok (some ((response.data.take (8-unused)).drop 4))))
    else
      let expected := littleValue ((response.data.drop 4).take 4)
      let segments := uploadSegments nodeId fuel asked.1 0 []
      (segments.1,segments.2.map fun result =>
        match result with
        | .error e => .error e
        | .ok bytes => if bytes.length = expected then .ok (some bytes) else .error .sizeMismatch)
  | _ => (asked.1,some (.error .initialResponse))

end Bus
end CanopenReference.MockCanopen
