import CanopenReference.Library.History
import CanopenReference.SdoUpload

/-!
# The node under arbitrary traffic

What the objects and the NMT state of the node are is read from the frames that
it was sent, and what it answered to segment requests from the object that was
opened last.
-/

set_option autoImplicit false

namespace CanopenReference.SdoTraffic
open Library Library.Runs Library.History MockCanopen SdoUpload

structure Exchange where
  request : Frame
  responses : List Frame
  deriving DecidableEq

def trafficStep (node : MockNode) (frame : Frame) : MockNode × List Exchange :=
  ((receive node frame).1,[⟨frame,(receive node frame).2⟩])

section Wire
variable (id : NodeId)

def isRequest (frame : Frame) : Bool := frame.cobId = 0x600+id.1 ∧ frame.data.length = 8

/-- The NMT state that a command to the node asks for. -/
def commanded (frame : Frame) : Option UInt8 :=
  if frame.cobId = 0 ∧ 2 ≤ frame.data.length ∧
      ((byteOf frame 1).toNat = 0 ∨ (byteOf frame 1).toNat = id.1) then
    if byteOf frame 0 = 0x01 then some 0x05
    else if byteOf frame 0 = 0x02 then some 0x04
    else if byteOf frame 0 = 0x80 ∨ byteOf frame 0 = 0x81 ∨ byteOf frame 0 = 0x82 then some 0x7F
    else none
  else none

def downloaded (o : ObjectValue) (index : UInt16) (subIndex : UInt8) (frame : Frame) :
    Option (List UInt8) :=
  let command := byteOf frame 0
  let value := (frame.data.drop 4).take (4-((command >>> 2) &&& 0x03).toNat)
  if isRequest id frame ∧ indexOf frame = index ∧ byteOf frame 3 = subIndex ∧
      command &&& 0xE0 = 0x20 ∧ command &&& 0x03 = 0x03 ∧ o.access ≠ .ro ∧
      value.length = o.width then some value
  else none

/-- What an object holds after the frames: the last bytes written to it. -/
def storedValue (o : ObjectValue) (index : UInt16) (subIndex : UInt8) (frames : List Frame) :
    List UInt8 :=
  (latest (downloaded id o index subIndex) frames).getD o.value

end Wire

section Dispatch
variable {node : MockNode} {frame : Frame}

theorem received_request (h : isRequest node.nodeId frame = true) :
    receive node frame =
      served node (byteOf frame 0) (indexOf frame) (byteOf frame 3) (frame.data.drop 4) := by
  have hparts : frame.cobId = 0x600+node.nodeId.1 ∧ frame.data.length = 8 := of_decide_eq_true h
  unfold receive
  rw [if_neg (fun hn => by omega),if_neg (fun hn => by omega)]

theorem received_other (h : isRequest node.nodeId frame = false) :
    (receive node frame).1 =
      { node with nmtState := (commanded node.nodeId frame).getD node.nmtState } := by
  have hparts : ¬(frame.cobId = 0x600+node.nodeId.1 ∧ frame.data.length = 8) :=
    of_decide_eq_false h
  unfold receive commanded
  by_cases hnmt : frame.cobId = 0 ∧ 2 ≤ frame.data.length
  · rw [if_pos hnmt]
    unfold receiveNmt
    by_cases htarget : (byteOf frame 1).toNat ≠ 0 ∧ (byteOf frame 1).toNat ≠ node.nodeId.1
    · have hother : ¬(frame.cobId = 0 ∧ 2 ≤ frame.data.length ∧
          ((byteOf frame 1).toNat = 0 ∨ (byteOf frame 1).toNat = node.nodeId.1)) := by omega
      rw [if_pos htarget,if_neg hother]
      rfl
    · have hto : frame.cobId = 0 ∧ 2 ≤ frame.data.length ∧
          ((byteOf frame 1).toNat = 0 ∨ (byteOf frame 1).toNat = node.nodeId.1) := by omega
      rw [if_neg htarget,if_pos hto]
      by_cases h1 : byteOf frame 0 = 0x01
      · simp [h1]
      · by_cases h2 : byteOf frame 0 = 0x02
        · simp [h2]
        · by_cases h80 : byteOf frame 0 = 0x80
          · simp [h80]
          · by_cases h81 : byteOf frame 0 = 0x81 ∨ byteOf frame 0 = 0x82
            · simp [h1,h2,h80,h81]
            · simp [h1,h2,h80,h81]
  · rw [if_neg hnmt,if_pos (by omega),if_neg (fun hc => hnmt ⟨hc.1,hc.2.1⟩)]
    rfl

theorem request_quiet (h : isRequest node.nodeId frame = true) :
    commanded node.nodeId frame = none := by
  have hparts : frame.cobId = 0x600+node.nodeId.1 ∧ frame.data.length = 8 := of_decide_eq_true h
  unfold commanded
  rw [if_neg (fun hc => by omega)]

theorem segment_frame (node : MockNode) (command : UInt8) :
    (sdoUploadSegment node command).1.od = node.od ∧
      (sdoUploadSegment node command).1.nmtState = node.nmtState ∧
      (sdoUploadSegment node command).1.nodeId = node.nodeId := by
  unfold sdoUploadSegment
  cases node.pendingUpload with
  | none => exact ⟨rfl,rfl,rfl⟩
  | some raw => dsimp only; split <;> exact ⟨rfl,rfl,rfl⟩

theorem upload_frame (node : MockNode) (index : UInt16) (subIndex : UInt8) :
    (sdoUploadResponse node index subIndex).1.od = node.od ∧
      (sdoUploadResponse node index subIndex).1.nmtState = node.nmtState ∧
      (sdoUploadResponse node index subIndex).1.nodeId = node.nodeId := by
  unfold sdoUploadResponse
  cases node.od index subIndex with
  | none => exact ⟨rfl,rfl,rfl⟩
  | some o => dsimp only; split <;> exact ⟨rfl,rfl,rfl⟩

end Dispatch

structure Rewritten (o : ObjectValue) (value : List UInt8) (o' : ObjectValue) : Prop where
  width : o'.width = o.width
  access : o'.access = o.access
  value : o'.value = value

theorem rewritten_self (o : ObjectValue) : Rewritten o o.value o := ⟨rfl,rfl,rfl⟩

theorem download_object (node : MockNode) (command : UInt8) (index : UInt16) (subIndex : UInt8)
    (payload : List UInt8) {i : UInt16} {s : UInt8} {o : ObjectValue}
    (ho : node.od i s = some o) :
    ∃ o', (sdoDownload node command index subIndex payload).1.od i s = some o' ∧
      Rewritten o
        (if index = i ∧ subIndex = s ∧ command &&& 0x03 = 0x03 ∧ o.access ≠ .ro ∧
            (payload.take (4-((command >>> 2) &&& 0x03).toNat)).length = o.width
          then payload.take (4-((command >>> 2) &&& 0x03).toNat) else o.value) o' := by
  by_cases hat : index = i ∧ subIndex = s
  · obtain ⟨rfl,rfl⟩ := hat
    unfold sdoDownload
    rw [ho]
    dsimp only
    by_cases hro : o.access = .ro
    · rw [if_pos hro,if_neg (fun h => h.2.2.2.1 hro)]
      exact ⟨o,ho,rewritten_self o⟩
    · rw [if_neg hro]
      by_cases hbits : command &&& 0x03 = 0x03
      · rw [if_neg (fun h => h hbits)]
        by_cases hsize : (payload.take (4-((command >>> 2) &&& 0x03).toNat)).length = o.width
        · rw [dif_pos hsize,if_pos ⟨rfl,rfl,hbits,hro,hsize⟩]
          exact ⟨o.write _ hsize,if_pos ⟨rfl,rfl⟩,rfl,rfl,rfl⟩
        · rw [dif_neg hsize,if_neg (fun h => hsize h.2.2.2.2)]
          exact ⟨o,ho,rewritten_self o⟩
      · rw [if_pos hbits,if_neg (fun h => hbits h.2.2.1)]
        exact ⟨o,ho,rewritten_self o⟩
  · rw [if_neg (fun h => hat ⟨h.1,h.2.1⟩)]
    refine ⟨o,?_,rewritten_self o⟩
    rw [← ho]
    unfold sdoDownload
    split
    · rfl
    · dsimp only
      repeat' split
      · rfl
      · rfl
      · exact if_neg (fun h => hat ⟨h.1.symm,h.2.symm⟩)
      · rfl

theorem download_absent (node : MockNode) (command : UInt8) (index : UInt16) (subIndex : UInt8)
    (payload : List UInt8) {i : UInt16} {s : UInt8} (ho : node.od i s = none) :
    (sdoDownload node command index subIndex payload).1.od i s = none := by
  unfold sdoDownload
  cases hat : node.od index subIndex with
  | none => exact ho
  | some o =>
    have hother : ¬(i = index ∧ s = subIndex) := by
      rintro ⟨rfl,rfl⟩
      rw [ho] at hat
      cases hat
    dsimp only
    repeat' split
    · exact ho
    · exact ho
    · exact (if_neg hother).trans ho
    · exact ho

theorem download_frame (node : MockNode) (command : UInt8) (index : UInt16) (subIndex : UInt8)
    (payload : List UInt8) :
    (sdoDownload node command index subIndex payload).1.nmtState = node.nmtState ∧
      (sdoDownload node command index subIndex payload).1.nodeId = node.nodeId ∧
      (sdoDownload node command index subIndex payload).1.pendingUpload = node.pendingUpload ∧
      (sdoDownload node command index subIndex payload).1.pendingOffset = node.pendingOffset ∧
      (sdoDownload node command index subIndex payload).1.pendingToggle = node.pendingToggle := by
  unfold sdoDownload
  cases node.od index subIndex with
  | none => exact ⟨rfl,rfl,rfl,rfl,rfl⟩
  | some o =>
    dsimp only
    repeat' split
    all_goals exact ⟨rfl,rfl,rfl,rfl,rfl⟩

section Receive
variable (node : MockNode) (frame : Frame)

theorem download_class {command : UInt8} (h : command &&& 0xE0 = 0x20) :
    command ≠ 0x40 ∧ ¬(command = 0x60 ∨ command = 0x70) := by
  refine ⟨?_,?_⟩
  · rintro rfl
    revert h
    decide
  · rintro (rfl | rfl) <;> revert h <;> decide

theorem received_state :
    (receive node frame).1.nodeId = node.nodeId ∧
      (receive node frame).1.nmtState = (commanded node.nodeId frame).getD node.nmtState := by
  cases hr : isRequest node.nodeId frame with
  | false =>
    rw [received_other hr]
    exact ⟨rfl,rfl⟩
  | true =>
    rw [received_request hr,request_quiet hr]
    unfold served
    split
    · exact ⟨(upload_frame node _ _).2.2,(upload_frame node _ _).2.1⟩
    · split
      · exact ⟨(segment_frame node _).2.2,(segment_frame node _).2.1⟩
      · split
        · exact ⟨(download_frame node _ _ _ _).2.1,(download_frame node _ _ _ _).1⟩
        · exact ⟨rfl,rfl⟩

theorem received_absent {i : UInt16} {s : UInt8} (ho : node.od i s = none) :
    (receive node frame).1.od i s = none := by
  cases hr : isRequest node.nodeId frame with
  | false =>
    rw [received_other hr]
    exact ho
  | true =>
    rw [received_request hr]
    unfold served
    split
    · rw [(upload_frame node _ _).1]
      exact ho
    · split
      · rw [(segment_frame node _).1]
        exact ho
      · split
        · exact download_absent node _ _ _ _ ho
        · exact ho

theorem received_object {i : UInt16} {s : UInt8} {o : ObjectValue} (ho : node.od i s = some o) :
    ∃ o', (receive node frame).1.od i s = some o' ∧
      Rewritten o ((downloaded node.nodeId o i s frame).getD o.value) o' := by
  have hquiet (h : ¬(isRequest node.nodeId frame = true ∧ byteOf frame 0 &&& 0xE0 = 0x20)) :
      downloaded node.nodeId o i s frame = none := by
    unfold downloaded
    exact if_neg fun hc => h ⟨hc.1,hc.2.2.2.1⟩
  cases hr : isRequest node.nodeId frame with
  | false =>
    rw [received_other hr,hquiet (fun h => by rw [hr] at h; cases h.1)]
    exact ⟨o,ho,rewritten_self o⟩
  | true =>
    rw [received_request hr]
    by_cases hdown : byteOf frame 0 &&& 0xE0 = 0x20
    · obtain ⟨h40,h60⟩ := download_class hdown
      unfold served
      rw [if_neg h40,if_neg h60,if_pos hdown]
      obtain ⟨o',ho',hkept⟩ := download_object node (byteOf frame 0) (indexOf frame)
        (byteOf frame 3) (frame.data.drop 4) ho
      refine ⟨o',ho',hkept.width,hkept.access,hkept.value.trans ?_⟩
      unfold downloaded
      by_cases hwrite : indexOf frame = i ∧ byteOf frame 3 = s ∧ byteOf frame 0 &&& 0x03 = 0x03 ∧
          o.access ≠ .ro ∧ ((frame.data.drop 4).take
            (4-((byteOf frame 0 >>> 2) &&& 0x03).toNat)).length = o.width
      · rw [if_pos hwrite,
          if_pos ⟨hr,hwrite.1,hwrite.2.1,hdown,hwrite.2.2.1,hwrite.2.2.2.1,hwrite.2.2.2.2⟩]
        rfl
      · rw [if_neg hwrite,
          if_neg fun h => hwrite ⟨h.2.1,h.2.2.1,h.2.2.2.2.1,h.2.2.2.2.2.1,h.2.2.2.2.2.2⟩]
        rfl
    · rw [hquiet (fun h => hdown h.2)]
      refine ⟨o,?_,rewritten_self o⟩
      unfold served
      split
      · rw [(upload_frame node _ _).1]
        exact ho
      · split
        · rw [(segment_frame node _).1]
          exact ho
        · exact ho

end Receive

section Traffic
variable (id : NodeId) (od : ObjectDictionary)

theorem downloaded_shape {o o' : ObjectValue} {value : List UInt8} (h : Rewritten o value o')
    (index : UInt16) (subIndex : UInt8) (frame : Frame) :
    downloaded id o' index subIndex frame = downloaded id o index subIndex frame := by
  unfold downloaded
  rw [h.width,h.access]

theorem traffic_node (frames : List Frame) :
    (run trafficStep (mockNode id od) frames).1.nodeId = id ∧
      (run trafficStep (mockNode id od) frames).1.nmtState =
        (latest (commanded id) frames).getD 0x7F := by
  induction frames using List.reverseRecOn with
  | nil => exact ⟨rfl,rfl⟩
  | append_singleton frames frame ih =>
    obtain ⟨hid,hstate⟩ := ih
    obtain ⟨hkept,hentered⟩ := received_state (run trafficStep (mockNode id od) frames).1 frame
    rw [run_concat,latest_concat]
    refine ⟨hkept.trans hid,hentered.trans ?_⟩
    rw [hid,hstate]
    cases commanded id frame <;> rfl

theorem traffic_object {i : UInt16} {s : UInt8} {o : ObjectValue} (ho : od i s = some o)
    (frames : List Frame) :
    ∃ o', (run trafficStep (mockNode id od) frames).1.od i s = some o' ∧
      Rewritten o (storedValue id o i s frames) o' := by
  induction frames using List.reverseRecOn with
  | nil => exact ⟨o,ho,rewritten_self o⟩
  | append_singleton frames frame ih =>
    obtain ⟨o₁,ho₁,h₁⟩ := ih
    obtain ⟨o₂,ho₂,h₂⟩ := received_object (run trafficStep (mockNode id od) frames).1 frame ho₁
    rw [run_concat]
    refine ⟨o₂,ho₂,h₂.width.trans h₁.width,h₂.access.trans h₁.access,h₂.value.trans ?_⟩
    rw [(traffic_node id od frames).1,downloaded_shape id h₁,h₁.value]
    unfold storedValue
    rw [latest_concat]
    cases downloaded id o i s frame <;> rfl

/-- The bus after frames of any kind. -/
def carried (bus : MockBus) (frames : List Frame) : MockBus :=
  frames.foldl (fun bus frame => (transmit bus frame).1) bus

theorem carried_node (bus : MockBus) (frames : List Frame) :
    (carried bus frames).node = (run trafficStep bus.node frames).1 := by
  induction frames generalizing bus with
  | nil => rfl
  | cons frame frames ih => exact ih (transmit bus frame).1

theorem downloads_fit {o : ObjectValue} {i : UInt16} {s : UInt8} {frame : Frame}
    {value : List UInt8} (h : downloaded id o i s frame = some value) :
    value.length = o.width ∧ o.width ≤ 4 := by
  unfold downloaded at h
  dsimp only at h
  split at h
  · rename_i hc
    cases h
    refine ⟨hc.2.2.2.2.2.2,?_⟩
    rw [← hc.2.2.2.2.2.2,List.length_take]
    omega
  · cases h

theorem stored_length {o : ObjectValue} {i : UInt16} {s : UInt8} (frames : List Frame) :
    (storedValue id o i s frames).length = o.width := by
  unfold storedValue
  cases hl : latest (downloaded id o i s) frames with
  | none => exact o.sized
  | some value =>
    obtain ⟨frame,-,hd⟩ := latest_mem _ hl
    exact (downloads_fit id hd).1

/-- The node read from the frames alone. After any traffic a read returns the
last bytes that a valid download wrote to the object, or its initial value, and
the heartbeat shows the state that the last NMT command asked for. -/
theorem traffic_read_back (frames : List Frame) {i : UInt16} {s : UInt8} {o : ObjectValue}
    (ho : od i s = some o) (hpos : 0 < o.width) {fuel : ℕ} (hfuel : o.width ≤ 7*fuel) :
    (sdoUpload fuel (carried ⟨mockNode id od,[]⟩ frames) id i s).2 =
        some (.ok (some (storedValue id o i s frames))) ∧
      (heartbeat (carried ⟨mockNode id od,[]⟩ frames).node).data =
        [(latest (commanded id) frames).getD 0x7F] := by
  obtain ⟨o',ho',hkept⟩ := traffic_object id od ho frames
  obtain ⟨hid,hstate⟩ := traffic_node id od frames
  have hnode := carried_node ⟨mockNode id od,[]⟩ frames
  rw [← hnode] at ho' hid hstate
  have hlength : o'.value.length = o.width := hkept.value ▸ stored_length id frames
  constructor
  · rw [← hkept.value]
    rcases Nat.lt_or_ge 4 o'.value.length with hlong | hshort
    · have hread := (long_read _ i s fuel ho' hlong (hlength ▸ hfuel)).1
      rw [hid] at hread
      exact hread
    · have hread := (short_read _ i s fuel ho' hshort).1
      rw [hid] at hread
      have hfull : readBack o' = o'.value :=
        if_neg (List.ne_nil_of_length_pos (hlength ▸ hpos))
      rw [hread,hfull]
  · show [_] = [_]
    rw [hstate]

def sleepCommand : ObjectValue := ⟨2,.rw,[0,0],rfl,by decide⟩

def sleepWrite : Frame :=
  requestFrame namedNode 0x2B 0x4819 0 [1,0,0,0] (by decide)

theorem traffic_read_back_sleep :
    (sdoUpload 1 (carried ⟨mockNode namedNode fun _ _ => some sleepCommand,[]⟩ [sleepWrite])
        namedNode 0x4819 0).2 = some (.ok (some [1,0])) :=
  (traffic_read_back namedNode (fun _ _ => some sleepCommand) [sleepWrite] rfl
    (by decide) (by decide)).1

end Traffic
end CanopenReference.SdoTraffic
