import CanopenReference.MockCanopen

/-!
# Reading an object over the bus

The client's read of an object returns the bytes of the object, in one frame or
in segments under an alternating toggle bit, whatever transfer the node had
pending before.
-/

set_option autoImplicit false

namespace CanopenReference.SdoUpload
open Library MockCanopen

theorem index_read (index : UInt16) :
    UInt16.ofNat (littleValue (littleEndian 2 index.toNat)) = index := by
  rw [little_value,Nat.mod_eq_of_lt (show index.toNat < 256^2 from index.toNat_lt)]
  exact UInt16.ofNat_toNat

theorem receive_request (node : MockNode) (command : UInt8) (index : UInt16) (subIndex : UInt8)
    (value : List UInt8) (h : value.length ≤ 4) (h4 : value.length = 4) :
    receive node (requestFrame node.nodeId command index subIndex value h) =
      served node command index subIndex value := by
  have hid : (requestFrame node.nodeId command index subIndex value h).cobId =
      0x600+node.nodeId.1 := rfl
  have hdata : (requestFrame node.nodeId command index subIndex value h).data =
      command::littleEndian 2 index.toNat++subIndex::value := by
    simp [requestFrame,multiplexer]
  have hlen : (requestFrame node.nodeId command index subIndex value h).data.length = 8 := by
    rw [hdata]
    simp [h4]
  have hindex : indexOf (requestFrame node.nodeId command index subIndex value h) = index :=
    index_read index
  unfold receive
  rw [if_neg (fun hn => by rw [hid] at hn; omega),if_neg (fun hn => by rw [hid,hlen] at hn; omega)]
  rw [hindex]
  rfl

theorem response_command (node : MockNode) (command : UInt8) (index : UInt16) (subIndex : UInt8)
    (data : List UInt8) (h : data.length ≤ 4) :
    byteOf (response node command index subIndex data h) 0 = command := rfl

theorem response_bytes (node : MockNode) (command : UInt8) (index : UInt16) (subIndex : UInt8)
    (data : List UInt8) (h : data.length ≤ 4) (k : ℕ) :
    ((response node command index subIndex data h).data.take (k+4)).drop 4 = data.take k := by
  rw [Nat.add_comm,← List.take_drop]
  rfl

theorem request_asked (bus : MockBus) (command : UInt8) (index : UInt16) (subIndex : UInt8)
    (value : List UInt8) (h : value.length ≤ 4) (h4 : value.length = 4) :
    (sdoRequest bus bus.node.nodeId command index subIndex value h).1.node =
        (served bus.node command index subIndex value).1 ∧
      (sdoRequest bus bus.node.nodeId command index subIndex value h).2 =
        (served bus.node command index subIndex value).2 := by
  rw [← receive_request bus.node command index subIndex value h h4]
  exact ⟨rfl,rfl⟩

section Segments

theorem segment_command {toggle : UInt8} (ht : toggle = 0 ∨ toggle = 1) {unused : ℕ}
    (hu : unused ≤ 7) {last : UInt8} (hl : last = 0 ∨ last = 1) :
    ((toggle <<< 4) ||| UInt8.ofNat (unused <<< 1) ||| last) &&& 0x01 = last ∧
      ((((toggle <<< 4) ||| UInt8.ofNat (unused <<< 1) ||| last) >>> 1) &&& 0x07).toNat =
        unused := by
  have hall : ∀ n : Fin 8, ∀ t ∈ [(0 : UInt8),1], ∀ l ∈ [(0 : UInt8),1],
      ((t <<< 4) ||| UInt8.ofNat (n.1 <<< 1) ||| l) &&& 0x01 = l ∧
        ((((t <<< 4) ||| UInt8.ofNat (n.1 <<< 1) ||| l) >>> 1) &&& 0x07).toNat = n.1 := by
    decide +kernel
  exact hall ⟨unused,by omega⟩ toggle (by simpa using ht) last (by simpa using hl)

theorem segment_no_abort (id : NodeId) (raw : List UInt8) (offset : ℕ) {toggle : UInt8}
    (ht : toggle = 0 ∨ toggle = 1) : byteOf (uploadSegment id raw offset toggle) 0 ≠ 0x80 := by
  have hall : ∀ n : Fin 8, ∀ t ∈ [(0 : UInt8),1], ∀ l ∈ [(0 : UInt8),1],
      ((t <<< 4) ||| UInt8.ofNat (n.1 <<< 1) ||| l) ≠ 0x80 := by
    decide +kernel
  refine hall ⟨7-((raw.drop offset).take 7).length,by omega⟩ toggle (by simpa using ht)
    (if offset+((raw.drop offset).take 7).length = raw.length then 1 else 0) ?_
  split <;> decide

theorem request_toggle {toggle : UInt8} (ht : toggle = 0 ∨ toggle = 1) :
    (((0x60 : UInt8) ||| (toggle <<< 4)) = 0x60 ∨ ((0x60 : UInt8) ||| (toggle <<< 4)) = 0x70) ∧
      (((0x60 : UInt8) ||| (toggle <<< 4)) >>> 4) &&& 1 = toggle := by
  rcases ht with rfl | rfl <;> decide

theorem toggle_next {toggle : UInt8} (ht : toggle = 0 ∨ toggle = 1) :
    toggle ^^^ 1 = 0 ∨ toggle ^^^ 1 = 1 := by
  rcases ht with rfl | rfl <;> decide

variable {raw : List UInt8} {offset : ℕ}

theorem segment_taken (id : NodeId) {toggle : UInt8} (ht : toggle = 0 ∨ toggle = 1)
    (hoffset : offset ≤ raw.length) :
    (byteOf (uploadSegment id raw offset toggle) 0 &&& 0x01 ≠ 0 ↔
        offset+((raw.drop offset).take 7).length = raw.length) ∧
      ((uploadSegment id raw offset toggle).data.take
        (if byteOf (uploadSegment id raw offset toggle) 0 &&& 0x01 ≠ 0
          then 8-((byteOf (uploadSegment id raw offset toggle) 0 >>> 1) &&& 0x07).toNat else 8)).drop 1 =
        (raw.drop offset).take 7 := by
  have hchunk : ((raw.drop offset).take 7).length ≤ 7 := List.length_take_le 7 _
  by_cases hlast : offset+((raw.drop offset).take 7).length = raw.length
  · have hfields := segment_command ht (Nat.sub_le 7 ((raw.drop offset).take 7).length)
      (Or.inr rfl)
    have hbyte : byteOf (uploadSegment id raw offset toggle) 0 =
        (toggle <<< 4) ||| UInt8.ofNat ((7-((raw.drop offset).take 7).length) <<< 1) ||| 1 := by
      unfold uploadSegment byteOf
      simp only [if_pos hlast]
      rfl
    have hone : byteOf (uploadSegment id raw offset toggle) 0 &&& 0x01 ≠ 0 := by
      rw [hbyte,hfields.1]
      decide
    refine ⟨⟨fun _ => hlast,fun _ => hone⟩,?_⟩
    rw [if_pos hone,hbyte,hfields.2]
    have hkept : 8-(7-((raw.drop offset).take 7).length) = ((raw.drop offset).take 7).length+1 := by
      omega
    rw [hkept]
    unfold uploadSegment
    rw [List.take_succ_cons,List.take_left,List.drop_one,List.tail_cons]
  · have hfields := segment_command ht (Nat.sub_le 7 ((raw.drop offset).take 7).length)
      (Or.inl rfl)
    have hzero : ¬(byteOf (uploadSegment id raw offset toggle) 0 &&& 0x01 ≠ 0) := by
      have hbyte : byteOf (uploadSegment id raw offset toggle) 0 =
          (toggle <<< 4) ||| UInt8.ofNat ((7-((raw.drop offset).take 7).length) <<< 1) ||| 0 := by
        unfold uploadSegment byteOf
        simp only [if_neg hlast]
        rfl
      rw [hbyte,hfields.1]
      decide
    refine ⟨⟨fun h => absurd h hzero,fun h => absurd h hlast⟩,?_⟩
    rw [if_neg hzero]
    have hfull : ((raw.drop offset).take 7).length = 7 := by
      rw [List.length_take,List.length_drop] at hlast ⊢
      omega
    unfold uploadSegment
    simp only [hfull]
    rw [List.take_succ_cons,List.drop_one,List.tail_cons,Nat.sub_self,List.replicate_zero,
      List.append_nil,List.take_take,Nat.min_self]

def advanced (node : MockNode) (raw : List UInt8) : MockNode :=
  { node with
    pendingOffset := node.pendingOffset+((raw.drop node.pendingOffset).take 7).length
    pendingToggle := node.pendingToggle ^^^ 1
    pendingUpload :=
      if node.pendingOffset+((raw.drop node.pendingOffset).take 7).length = raw.length
        then none else some raw }

theorem segment_served {node : MockNode} (command : UInt8) (index : UInt16) (subIndex : UInt8)
    (payload : List UInt8) (hcommand : command = 0x60 ∨ command = 0x70)
    (hraw : node.pendingUpload = some raw) (htoggle : (command >>> 4) &&& 1 = node.pendingToggle) :
    served node command index subIndex payload =
      (advanced node raw,[uploadSegment node.nodeId raw node.pendingOffset node.pendingToggle]) := by
  have h40 : command ≠ 0x40 := by rcases hcommand with rfl | rfl <;> decide
  unfold served
  rw [if_neg h40,if_pos hcommand]
  unfold sdoUploadSegment
  simp only [hraw]
  rw [if_neg (fun hn => hn htoggle),htoggle]
  rfl

theorem segment_asked (bus : MockBus) (ht : bus.node.pendingToggle = 0 ∨ bus.node.pendingToggle = 1)
    (hraw : bus.node.pendingUpload = some raw) :
    (sdoRequest bus bus.node.nodeId ((0x60 : UInt8) ||| (bus.node.pendingToggle <<< 4)) 0 0
        (littleEndian 4 0) no_bytes).1.node = advanced bus.node raw ∧
      (sdoRequest bus bus.node.nodeId ((0x60 : UInt8) ||| (bus.node.pendingToggle <<< 4)) 0 0
        (littleEndian 4 0) no_bytes).2 =
        [uploadSegment bus.node.nodeId raw bus.node.pendingOffset bus.node.pendingToggle] := by
  obtain ⟨hcommand,hbit⟩ := request_toggle ht
  have hasked := request_asked bus ((0x60 : UInt8) ||| (bus.node.pendingToggle <<< 4)) 0 0
    (littleEndian 4 0) no_bytes (little_length 4 0)
  rw [segment_served _ 0 0 _ hcommand hraw hbit] at hasked
  exact hasked

theorem segments_read (fuel : ℕ) (bus : MockBus) (result : List UInt8)
    (ht : bus.node.pendingToggle = 0 ∨ bus.node.pendingToggle = 1)
    (hraw : bus.node.pendingUpload = some raw) (hleft : bus.node.pendingOffset < raw.length)
    (hfuel : raw.length ≤ bus.node.pendingOffset+7*fuel) :
    (uploadSegments bus.node.nodeId fuel bus bus.node.pendingToggle result).2 =
        some (.ok (result++raw.drop bus.node.pendingOffset)) ∧
      (uploadSegments bus.node.nodeId fuel bus bus.node.pendingToggle result).1.node.od =
        bus.node.od ∧
      (uploadSegments bus.node.nodeId fuel bus bus.node.pendingToggle result).1.node.nmtState =
        bus.node.nmtState := by
  induction fuel generalizing bus result with
  | zero => omega
  | succ fuel ih =>
    obtain ⟨hnode,hanswer⟩ := segment_asked bus ht hraw
    obtain ⟨hlast,htaken⟩ := segment_taken bus.node.nodeId ht (Nat.le_of_lt hleft)
    have hchunk : ((raw.drop bus.node.pendingOffset).take 7).length =
        min 7 (raw.length-bus.node.pendingOffset) := by
      rw [List.length_take,List.length_drop]
    unfold uploadSegments
    simp only [hanswer,htaken]
    by_cases hend : bus.node.pendingOffset+((raw.drop bus.node.pendingOffset).take 7).length =
        raw.length
    · rw [if_pos (hlast.mpr hend)]
      refine ⟨?_,(congrArg MockNode.od hnode).trans rfl,(congrArg MockNode.nmtState hnode).trans rfl⟩
      have hall : (raw.drop bus.node.pendingOffset).take 7 = raw.drop bus.node.pendingOffset := by
        apply List.take_of_length_le
        rw [List.length_drop]
        omega
      rw [hall]
    · rw [if_neg (fun h => hend (hlast.mp h))]
      have hnext := ih
        (sdoRequest bus bus.node.nodeId ((0x60 : UInt8) ||| (bus.node.pendingToggle <<< 4)) 0 0
          (littleEndian 4 0) no_bytes).1
        (result++(raw.drop bus.node.pendingOffset).take 7)
      simp only [hnode] at hnext
      have hlength : ((raw.drop bus.node.pendingOffset).take 7).length = 7 := by omega
      obtain ⟨hread,hod,hnmt⟩ := hnext (toggle_next ht) (if_neg hend)
        (by simp only [advanced]; omega) (by simp only [advanced]; omega)
      refine ⟨hread.trans ?_,hod,hnmt⟩
      have hrest : (raw.drop bus.node.pendingOffset).take 7++
          raw.drop (advanced bus.node raw).pendingOffset = raw.drop bus.node.pendingOffset := by
        simp only [advanced,hlength]
        rw [← List.drop_drop]
        exact List.take_append_drop 7 _
      rw [List.append_assoc,hrest]

end Segments

/-- What a read of an object returns. Four zero bytes stand for an empty value,
for which the length field has no room. -/
def readBack (o : ObjectValue) : List UInt8 :=
  if o.value = [] then [0,0,0,0] else o.value

theorem expedited_command {unused : ℕ} (hu : unused ≤ 4) :
    UInt8.ofNat (0x43 ||| (unused <<< 2)) ≠ 0x80 ∧ UInt8.ofNat (0x43 ||| (unused <<< 2)) ≠ 0x41 ∧
      UInt8.ofNat (0x43 ||| (unused <<< 2)) &&& 0x02 ≠ 0 ∧
      ((UInt8.ofNat (0x43 ||| (unused <<< 2)) >>> 2) &&& 0x03).toNat = unused%4 := by
  have hall : ∀ n : Fin 5, UInt8.ofNat (0x43 ||| (n.1 <<< 2)) ≠ 0x80 ∧
      UInt8.ofNat (0x43 ||| (n.1 <<< 2)) ≠ 0x41 ∧
      UInt8.ofNat (0x43 ||| (n.1 <<< 2)) &&& 0x02 ≠ 0 ∧
      ((UInt8.ofNat (0x43 ||| (n.1 <<< 2)) >>> 2) &&& 0x03).toNat = n.1%4 := by
    decide
  exact hall ⟨unused,by omega⟩

theorem expedited_read (o : ObjectValue) (h : o.value.length ≤ 4) :
    (o.value++List.replicate (4-o.value.length) (0 : UInt8)).take (4-(4-o.value.length)%4) =
      readBack o := by
  unfold readBack
  by_cases hempty : o.value = []
  · rw [if_pos hempty,hempty]
    rfl
  · rw [if_neg hempty]
    have hpos := List.length_pos_iff.mpr hempty
    rw [Nat.mod_eq_of_lt (by omega),show 4-(4-o.value.length) = o.value.length by omega]
    exact List.take_left

theorem long_read (bus : MockBus) (index : UInt16) (subIndex : UInt8) {o : ObjectValue} (fuel : ℕ)
    (ho : bus.node.od index subIndex = some o) (hlong : 4 < o.value.length)
    (hfuel : o.value.length ≤ 7*fuel) :
    (sdoUpload fuel bus bus.node.nodeId index subIndex).2 = some (.ok (some o.value)) ∧
      (sdoUpload fuel bus bus.node.nodeId index subIndex).1.node.od = bus.node.od ∧
      (sdoUpload fuel bus bus.node.nodeId index subIndex).1.node.nmtState =
        bus.node.nmtState := by
  obtain ⟨hnode,hanswer⟩ := request_asked bus 0x40 index subIndex (littleEndian 4 0) no_bytes
    (little_length 4 0)
  have hserved : served bus.node 0x40 index subIndex (littleEndian 4 0) =
      ({ bus.node with pendingUpload := some o.value, pendingOffset := 0, pendingToggle := 0 },
        [response bus.node 0x41 index subIndex (littleEndian 4 o.value.length)
          (packed_four o.value.length)]) := by
    unfold served sdoUploadResponse
    rw [if_pos rfl]
    simp only [ho]
    rw [dif_neg (Nat.not_le.mpr hlong)]
  rw [hserved] at hnode hanswer
  have hread := segments_read fuel
    (sdoRequest bus bus.node.nodeId 0x40 index subIndex (littleEndian 4 0) no_bytes).1 []
    (by rw [hnode]; exact Or.inl rfl) (by rw [hnode])
    (by rw [hnode]; exact Nat.lt_trans (Nat.succ_pos 3) hlong)
    (by rw [hnode,Nat.zero_add]; exact hfuel)
  simp only [hnode,List.nil_append,List.drop_zero] at hread
  obtain ⟨hbytes,hod,hnmt⟩ := hread
  have hexpected : littleValue (((response bus.node 0x41 index subIndex
      (littleEndian 4 o.value.length) (packed_four o.value.length)).data.drop 4).take 4) =
      o.value.length := by
    have hsize : o.value.length < 256^4 := o.sized ▸ o.packed
    have hdrop : (response bus.node 0x41 index subIndex (littleEndian 4 o.value.length)
        (packed_four o.value.length)).data.drop 4 = littleEndian 4 o.value.length := rfl
    rw [hdrop,List.take_of_length_le (packed_four _),little_value,Nat.mod_eq_of_lt hsize]
  unfold sdoUpload
  simp only [hanswer]
  rw [response_command,if_neg (by decide),if_neg (by decide)]
  refine ⟨?_,hod,hnmt⟩
  simp only [hbytes,hexpected,Option.map_some,if_true]

theorem short_read (bus : MockBus) (index : UInt16) (subIndex : UInt8) {o : ObjectValue} (fuel : ℕ)
    (ho : bus.node.od index subIndex = some o) (hshort : o.value.length ≤ 4) :
    (sdoUpload fuel bus bus.node.nodeId index subIndex).2 = some (.ok (some (readBack o))) ∧
      (sdoUpload fuel bus bus.node.nodeId index subIndex).1.node = bus.node := by
  obtain ⟨hnode,hanswer⟩ := request_asked bus 0x40 index subIndex (littleEndian 4 0) no_bytes
    (little_length 4 0)
  have hserved : served bus.node 0x40 index subIndex (littleEndian 4 0) =
      (bus.node,
        [response bus.node (UInt8.ofNat (0x43 ||| ((4-o.value.length) <<< 2))) index subIndex
          (o.value++List.replicate (4-o.value.length) 0) (padded_four hshort)]) := by
    unfold served sdoUploadResponse
    rw [if_pos rfl]
    simp only [ho]
    rw [dif_pos hshort]
  rw [hserved] at hnode hanswer
  obtain ⟨hfirst,-,hexpedited,hunused⟩ := expedited_command (Nat.sub_le 4 o.value.length)
  unfold sdoUpload
  simp only [hanswer]
  rw [response_command,if_neg hfirst,if_pos hexpedited,hunused,
    show 8-(4-o.value.length)%4 = 4-(4-o.value.length)%4+4 by omega,response_bytes,
    expedited_read o hshort]
  exact ⟨rfl,hnode⟩

theorem absent_read (bus : MockBus) (index : UInt16) (subIndex : UInt8) (fuel : ℕ)
    (ho : bus.node.od index subIndex = none) :
    (sdoUpload fuel bus bus.node.nodeId index subIndex).2 = some (.ok none) ∧
      (sdoUpload fuel bus bus.node.nodeId index subIndex).1.node = bus.node := by
  obtain ⟨hnode,hanswer⟩ := request_asked bus 0x40 index subIndex (littleEndian 4 0) no_bytes
    (little_length 4 0)
  have hserved : served bus.node 0x40 index subIndex (littleEndian 4 0) =
      (bus.node,[abort bus.node index subIndex (missing subIndex)]) := by
    unfold served sdoUploadResponse
    rw [if_pos rfl]
    simp only [ho]
  rw [hserved] at hnode hanswer
  unfold sdoUpload
  simp only [hanswer,abort]
  rw [response_command,if_pos rfl]
  exact ⟨rfl,hnode⟩

/-- Every read is answered and leaves the objects alone; what it returns are the
bytes of the object exactly unless these are none. -/
theorem upload_exact (bus : MockBus) (index : UInt16) (subIndex : UInt8) (fuel : ℕ)
    (hfuel : ∀ o, bus.node.od index subIndex = some o → o.width ≤ 7*fuel) :
    (sdoUpload fuel bus bus.node.nodeId index subIndex).1.node.od = bus.node.od ∧
      (sdoUpload fuel bus bus.node.nodeId index subIndex).1.node.nmtState = bus.node.nmtState ∧
      ∃ result, (sdoUpload fuel bus bus.node.nodeId index subIndex).2 = some (.ok result) ∧
        (result = (bus.node.od index subIndex).map ObjectValue.value ↔
          (bus.node.od index subIndex).map ObjectValue.value ≠ some []) := by
  cases ho : bus.node.od index subIndex with
  | none =>
    obtain ⟨hread,hnode⟩ := absent_read bus index subIndex fuel ho
    exact ⟨congrArg MockNode.od hnode,congrArg MockNode.nmtState hnode,none,hread,by simp⟩
  | some o =>
    rcases Nat.lt_or_ge 4 o.value.length with hlong | hshort
    · obtain ⟨hread,hod,hnmt⟩ := long_read bus index subIndex fuel ho hlong
        (o.sized ▸ hfuel o ho)
      have hfull : o.value ≠ [] := List.ne_nil_of_length_pos (by omega)
      exact ⟨hod,hnmt,some o.value,hread,by simp [hfull]⟩
    · obtain ⟨hread,hnode⟩ := short_read bus index subIndex fuel ho hshort
      refine ⟨congrArg MockNode.od hnode,congrArg MockNode.nmtState hnode,_,hread,?_⟩
      unfold readBack
      by_cases hempty : o.value = [] <;> simp [hempty]

def deviceName : ObjectValue :=
  ⟨8,.ro,[1,2,3,4,5,6,7,8],rfl,by decide⟩

def namedNode : NodeId := ⟨0x23,by decide⟩

def namedBus : MockBus :=
  ⟨mockNode namedNode fun index _ => if index = 0x1008 then some deviceName else none,[]⟩

theorem upload_exact_name :
    ∃ result, (sdoUpload 2 namedBus namedBus.node.nodeId 0x1008 0).2 = some (.ok result) ∧
      (result = some [1,2,3,4,5,6,7,8] ↔ some [1,2,3,4,5,6,7,8] ≠ some ([] : List UInt8)) :=
  (upload_exact namedBus 0x1008 0 2 (by
    intro o ho
    have hname : some deviceName = some o := ho
    cases hname
    decide)).2.2

end CanopenReference.SdoUpload
