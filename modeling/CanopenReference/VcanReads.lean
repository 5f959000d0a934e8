import CanopenReference.SdoUpload
import CanopenReference.VcanDevice

/-!
# Reading an object between other traffic

A client reads the bytes that an object has when its first request is handled,
however the segments are spread over heartbeats, process data, NMT commands and
the frames of others; or the device is ended by an exception and the client
waits in vain.
-/

set_option autoImplicit false

namespace CanopenReference.VcanReads
open Library Library.Runs MockCanopen VcanDevice

/-- Traffic that is neither for the SDO server nor under its answers. -/
def Foreign (nodeId : NodeId) : Input → Prop
  | .beat => True
  | .frame frame => frame.cobId ≠ 0x600+nodeId.1 ∧ frame.cobId ≠ 0x580+nodeId.1

/-- The transfers and all objects but the process image are kept. -/
structure Undisturbed (d d' : Device) : Prop where
  nodeId : d'.nodeId = d.nodeId
  upload : d'.segmentUpload = d.segmentUpload
  download : d'.segmentDownload = d.segmentDownload
  index : d'.segmentIndex = d.segmentIndex
  mapping : d'.mapping = d.mapping
  values : ∀ key, key ≠ (0x6200,1) → d'.values key = d.values key

theorem undisturbed_trans {a b c : Device} (h : Undisturbed a b) (h' : Undisturbed b c) :
    Undisturbed a c where
  nodeId := h'.nodeId.trans h.nodeId
  upload := h'.upload.trans h.upload
  download := h'.download.trans h.download
  index := h'.index.trans h.index
  mapping := h'.mapping.trans h.mapping
  values key hkey := (h'.values key hkey).trans (h.values key hkey)

section Sending
variable {d d' : Device} {arbitrationId : ℕ} {data : List UInt8} {frames : List Frame}

theorem sent_frames (h : sent d arbitrationId data = .ok (d',frames)) :
    d' = d ∧ ∀ f ∈ frames, f.cobId = arbitrationId := by
  unfold sent send at h
  split at h
  · cases h
  split at h
  · cases h
  · cases h
    exact ⟨rfl,fun f hf => by rw [List.mem_singleton.mp hf]⟩

theorem sent_ok (d : Device) (hid : arbitrationId ≤ 0x7FF) (hdata : data.length ≤ 8) :
    ∃ f : Frame, sent d arbitrationId data = .ok (d,[f]) ∧ f.cobId = arbitrationId ∧ f.data = data := by
  refine ⟨⟨arbitrationId,data,hid,hdata⟩,?_,rfl,rfl⟩
  unfold sent send
  rw [dif_neg (Nat.not_lt.mpr hid),dif_neg (Nat.not_lt.mpr hdata)]
  rfl

theorem node_bound (id : NodeId) : 1 ≤ id.1 ∧ id.1 ≤ 127 := id.2

end Sending

section Foreign
variable {d d' : Device} {frames : List Frame}

theorem publish_kept {state : UInt8} {bootup : Bool}
    (h : publishNmtState d state bootup = .ok (d',frames)) :
    Undisturbed d d' ∧ ∀ f ∈ frames, f.cobId = 0x700+d.nodeId.1 := by
  obtain ⟨rfl,hframes⟩ := sent_frames h
  exact ⟨⟨rfl,rfl,rfl,rfl,rfl,fun _ _ => rfl⟩,hframes⟩

theorem nmt_kept {command : UInt8} {target : ℕ} (h : handleNmt d command target = .ok (d',frames)) :
    Undisturbed d d' ∧ ∀ f ∈ frames, f.cobId = 0x700+d.nodeId.1 := by
  have hsame : (.ok (d,[]) : Handled) = .ok (d',frames) →
      Undisturbed d d' ∧ ∀ f ∈ frames, f.cobId = 0x700+d.nodeId.1 := by
    rintro ⟨⟩
    exact ⟨⟨rfl,rfl,rfl,rfl,rfl,fun _ _ => rfl⟩,fun f hf => by cases hf⟩
  unfold handleNmt at h
  split at h
  · exact hsame h
  split at h
  · exact publish_kept h
  split at h
  · exact publish_kept h
  split at h
  · exact publish_kept h
  split at h
  · exact publish_kept h
  split at h
  · exact publish_kept h
  · exact hsame h

theorem step_foreign {input : Input} (hinput : Foreign d.nodeId input)
    (h : step d input = .ok (d',frames)) :
    Undisturbed d d' ∧ ∀ f ∈ frames, f.cobId ≠ 0x580+d.nodeId.1 := by
  have hid := node_bound d.nodeId
  have hbeat : Undisturbed d d' ∧ (∀ f ∈ frames, f.cobId = 0x700+d.nodeId.1) →
      Undisturbed d d' ∧ ∀ f ∈ frames, f.cobId ≠ 0x580+d.nodeId.1 :=
    fun hk => ⟨hk.1,fun f hf hc => by rw [hk.2 f hf] at hc; omega⟩
  have hself : Undisturbed d d := ⟨rfl,rfl,rfl,rfl,rfl,fun _ _ => rfl⟩
  have hsame : (.ok (d,[]) : Handled) = .ok (d',frames) →
      Undisturbed d d' ∧ ∀ f ∈ frames, f.cobId ≠ 0x580+d.nodeId.1 := by
    rintro ⟨⟩
    exact ⟨hself,fun f hf => by cases hf⟩
  cases input with
  | beat =>
    obtain ⟨rfl,hframes⟩ := sent_frames h
    exact hbeat ⟨hself,hframes⟩
  | frame frame =>
    change handle d frame = _ at h
    unfold handle at h
    split at h
    · exact hbeat (nmt_kept h)
    split at h
    · rename_i hsdo
      exact absurd hsdo.1 hinput.1
    split at h
    · cases h
      refine ⟨⟨rfl,rfl,rfl,rfl,rfl,fun key hkey => ?_⟩,fun f hf => by cases hf⟩
      exact if_neg hkey
    split at h
    · split at h
      · cases h
      · obtain ⟨rfl,hframes⟩ := sent_frames h
        exact ⟨hself,fun f hf hc => by rw [hframes f hf] at hc; omega⟩
    split at h
    · unfold handleLss at h
      split at h
      · obtain ⟨rfl,hframes⟩ := sent_frames h
        exact ⟨hself,fun f hf hc => by rw [hframes f hf] at hc; omega⟩
      · exact hsame h
    · exact hsame h

/-- A run over foreign traffic: the device is ended or undisturbed, and no frame
passes for an answer of the server. -/
theorem run_foreign (d : Device) (inputs : List Input) (h : ∀ i ∈ inputs, Foreign d.nodeId i) :
    ((∃ e, (run processStep (.ok d) inputs).1 = .error e) ∨
      ∃ d', (run processStep (.ok d) inputs).1 = .ok d' ∧ Undisturbed d d') ∧
      ∀ f ∈ (run processStep (.ok d) inputs).2.flatMap busFrames, f.cobId ≠ 0x580+d.nodeId.1 := by
  induction inputs generalizing d with
  | nil => exact ⟨Or.inr ⟨d,rfl,rfl,rfl,rfl,rfl,rfl,fun _ _ => rfl⟩,fun f hf => by cases hf⟩
  | cons input inputs ih =>
    obtain ⟨hinput,hinputs⟩ := List.forall_mem_cons.mp h
    rw [run_cons]
    cases hs : step d input with
    | error e =>
      rw [process_raised hs,run_raised]
      exact ⟨Or.inl ⟨e,rfl⟩,fun f hf => by cases hf⟩
    | ok done =>
      obtain ⟨d',frames⟩ := done
      obtain ⟨hkept,hframes⟩ := step_foreign hinput hs
      obtain ⟨hrun,hrest⟩ := ih d' (fun i hi => by rw [hkept.nodeId]; exact hinputs i hi)
      rw [hkept.nodeId] at hrest
      rw [process_ok hs]
      refine ⟨hrun.imp id fun ⟨d'',hd,hk⟩ => ⟨d'',hd,undisturbed_trans hkept hk⟩,fun f hf => ?_⟩
      rw [List.flatMap_append,List.mem_append] at hf
      rcases hf with hf | hf
      · rw [List.flatMap_singleton] at hf
        cases input with
        | beat => exact hframes f hf
        | frame frame =>
          rcases List.mem_cons.mp hf with rfl | hf
          · exact hinput.2
          · exact hframes f hf
      · exact hrest f hf

end Foreign

section Requests
variable {d d' : Device} {request : Frame} {frames : List Frame} {traffic : List Input}

inductive Asked (d : Device) (traffic : List Input) (request : Frame) :
    Except PyError Device × Option Frame → Prop where
  | lost (e : PyError) : Asked d traffic request (.error e,none)
  | answered (d₀ d' : Device) (frames : List Frame)
      (hrun : (run processStep (.ok d) traffic).1 = .ok d₀) (hkept : Undisturbed d d₀)
      (hstep : handle d₀ request = .ok (d',frames)) :
      Asked d traffic request (.ok d',frames.find? fun f => f.cobId = 0x580+d.nodeId.1)

theorem exchange_asked (hrequest : request.cobId = 0x600+d.nodeId.1)
    (h : ∀ i ∈ traffic, Foreign d.nodeId i) :
    Asked d traffic request (exchange (.ok d) d.nodeId traffic request) := by
  obtain ⟨hrun,hquiet⟩ := run_foreign d traffic h
  have hnone : ((run processStep (.ok d) traffic).2.flatMap busFrames).find?
      (fun f => f.cobId = 0x580+d.nodeId.1) = none :=
    List.find?_eq_none.mpr fun f hf => by simpa using hquiet f hf
  unfold exchange
  rw [run_concat]
  dsimp only
  rw [List.flatMap_append,List.find?_append,hnone,Option.none_or]
  rcases hrun with ⟨e,he⟩ | ⟨d₀,hd,hkept⟩
  · rw [he]
    exact .lost e
  · rw [hd]
    cases hs : step d₀ (.frame request) with
    | error e =>
      rw [process_raised hs]
      exact .lost e
    | ok done =>
      obtain ⟨d',frames⟩ := done
      rw [process_ok hs,List.flatMap_singleton]
      have hskipped : (request::frames).find? (fun f => f.cobId = 0x580+d.nodeId.1) =
          frames.find? fun f => f.cobId = 0x580+d.nodeId.1 :=
        List.find?_cons_of_neg (by simp [hrequest])
      show Asked d traffic request (.ok d',List.find? _ (request::frames))
      rw [hskipped]
      exact .answered d₀ d' frames hd hkept hs

theorem sent_found (d : Device) {data : List UInt8} (hdata : data.length ≤ 8) :
    ∃ f : Frame, sent d (0x580+d.nodeId.1) data = .ok (d,[f]) ∧ f.data = data ∧
      [f].find? (fun f => f.cobId = 0x580+d.nodeId.1) = some f := by
  have hid := node_bound d.nodeId
  obtain ⟨f,hsent,hcob,hbytes⟩ := sent_ok d (show 0x580+d.nodeId.1 ≤ 0x7FF by omega) hdata
  exact ⟨f,hsent,hbytes,List.find?_cons_of_pos (by simp [hcob])⟩

theorem ljust_length {width : ℕ} {data : List UInt8} (h : data.length ≤ width) :
    (ljust width data).length = width := by
  rw [ljust,List.length_append,List.length_replicate]
  omega

theorem ljust_take (width : ℕ) (data : List UInt8) : (ljust width data).take data.length = data := by
  rw [ljust,List.take_left]

theorem handle_request (d : Device) (command : UInt8) (key : Key) (value : List UInt8)
    (h : value.length ≤ 4) (h4 : value.length = 4) :
    handle d (requestFrame d.nodeId command key.1 key.2 value h) =
      handleSdo d (requestFrame d.nodeId command key.1 key.2 value h) ∧
    byteOf (requestFrame d.nodeId command key.1 key.2 value h) 0 = command ∧
    indexOf (requestFrame d.nodeId command key.1 key.2 value h) = key.1 ∧
    byteOf (requestFrame d.nodeId command key.1 key.2 value h) 3 = key.2 := by
  have hid : (requestFrame d.nodeId command key.1 key.2 value h).cobId = 0x600+d.nodeId.1 := rfl
  have hlen : (requestFrame d.nodeId command key.1 key.2 value h).data.length = 8 := by
    simp [requestFrame,multiplexer,h4]
  refine ⟨?_,rfl,SdoUpload.index_read key.1,rfl⟩
  unfold handle
  rw [if_neg (fun hn => by rw [hid] at hn; omega),if_pos ⟨hid,hlen⟩]

end Requests

section Segments
variable {d : Device} {raw received rest : List UInt8} {toggle : UInt8}

theorem segment_fields (ht : toggle = 0 ∨ toggle = 0x10) {unused : ℕ} (hu : unused ≤ 7) (last : Bool) :
    segmentCommand (0x60 ||| toggle) unused last &&& 0x10 = toggle ∧
      (segmentCommand (0x60 ||| toggle) unused last &&& 0x01 ≠ 0 ↔ last = true) ∧
        ((segmentCommand (0x60 ||| toggle) unused last >>> 1) &&& 0x07).toNat = unused := by
  have hall : ∀ n : Fin 8, ∀ t ∈ [(0 : UInt8),0x10], ∀ l : Bool,
      segmentCommand (0x60 ||| t) n.1 l &&& 0x10 = t ∧
        (segmentCommand (0x60 ||| t) n.1 l &&& 0x01 ≠ 0 ↔ l = true) ∧
          ((segmentCommand (0x60 ||| t) n.1 l >>> 1) &&& 0x07).toNat = n.1 := by
    decide +kernel
  exact hall ⟨unused,by omega⟩ toggle (by simpa using ht) last

theorem toggle_next (ht : toggle = 0 ∨ toggle = 0x10) :
    toggle ^^^ 0x10 = 0 ∨ toggle ^^^ 0x10 = 0x10 := by
  rcases ht with rfl | rfl <;> decide

theorem toggle_classes (ht : toggle = 0 ∨ toggle = 0x10) :
    (0x60 : UInt8) ||| toggle ≠ 0x40 ∧ ¬((0x60 : UInt8) ||| toggle) &&& 0xE0 = 0x20 ∧
      ((0x60 : UInt8) ||| toggle) &&& 0xE0 = 0x60 := by
  rcases ht with rfl | rfl <;> decide

theorem segment_asked (hopen : d.segmentUpload = some rest) (ht : toggle = 0 ∨ toggle = 0x10) :
    handle d (segmentRequest d.nodeId toggle) = uploadSegment d ((0x60 : UInt8) ||| toggle) rest := by
  obtain ⟨hread,hexpedited,hclass⟩ := toggle_classes ht
  obtain ⟨hsdo,hcommand,-,-⟩ := handle_request d ((0x60 : UInt8) ||| toggle) (0,0)
    (littleEndian 4 0) no_bytes (little_length 4 0)
  refine hsdo.trans ?_
  unfold handleSdo
  dsimp only
  dsimp only at hcommand
  rw [hcommand,if_neg hread,if_neg fun hn => hexpedited hn.1,if_neg hexpedited,sdoSegment,
    if_pos hclass,hopen]

def advanced (d : Device) (rest : List UInt8) : Device :=
  { d with segmentUpload := if (rest.drop 7).isEmpty then none else some (rest.drop 7) }

theorem segment_taken (d : Device) (rest : List UInt8) (ht : toggle = 0 ∨ toggle = 0x10) :
    ∃ f : Frame, uploadSegment d ((0x60 : UInt8) ||| toggle) rest = .ok (advanced d rest,[f]) ∧
      [f].find? (fun f => f.cobId = 0x580+d.nodeId.1) = some f ∧
      byteOf f 0 &&& 0x10 = toggle ∧
      (byteOf f 0 &&& 0x01 ≠ 0 ↔ rest.drop 7 = []) ∧
      (f.data.take (1+(7-((byteOf f 0 >>> 1) &&& 0x07).toNat))).drop 1 = rest.take 7 := by
  have hchunk : (rest.take 7).length ≤ 7 := List.length_take_le 7 rest
  obtain ⟨htoggle,hflag,hunused⟩ :=
    segment_fields ht (Nat.sub_le 7 (rest.take 7).length) (rest.drop 7).isEmpty
  have hdata : (segmentCommand ((0x60 : UInt8) ||| toggle) (7-(rest.take 7).length)
      (rest.drop 7).isEmpty::ljust 7 (rest.take 7)).length ≤ 8 := by
    exact Nat.le_of_eq (congrArg (·+1) (ljust_length hchunk))
  obtain ⟨f,hsent,hbytes,hfound⟩ := sent_found (advanced d rest) hdata
  have hbyte : byteOf f 0 = segmentCommand ((0x60 : UInt8) ||| toggle) (7-(rest.take 7).length)
      (rest.drop 7).isEmpty := by
    rw [byteOf,hbytes]
    rfl
  refine ⟨f,hsent,hfound,?_,?_,?_⟩
  · rw [hbyte]
    exact htoggle
  · rw [hbyte,hflag,List.isEmpty_iff]
  · rw [hbyte,hunused,hbytes,Nat.add_comm,List.take_succ_cons,List.drop_one,List.tail_cons,
      show 7-(7-(rest.take 7).length) = (rest.take 7).length by omega]
    exact ljust_take 7 (rest.take 7)

/-- How a read ends: the device is gone and the client waits in vain, or it has
the bytes. -/
def ReadOf (raw : List UInt8) :
    Except PyError Device × Option (Except ClientError (List UInt8)) → Prop
  | (.error _,result) => result = some (.error .timedOut)
  | (.ok _,result) => result = some (.ok raw)

theorem segments_received {nodeId : NodeId} (fuel : ℕ) (d : Device) (hid : d.nodeId = nodeId)
    (traffic : List (List Input)) (h : ∀ inputs ∈ traffic, ∀ i ∈ inputs, Foreign nodeId i)
    (received rest : List UInt8) (toggle : UInt8) (hopen : d.segmentUpload = some rest)
    (hrest : rest ≠ []) (hfuel : rest.length ≤ 7*fuel) (ht : toggle = 0 ∨ toggle = 0x10) :
    ReadOf (received++rest)
      (receiveSegments nodeId (received++rest).length fuel (.ok d) traffic toggle received) := by
  induction fuel generalizing d traffic received rest toggle with
  | zero => exact absurd (List.length_eq_zero_iff.mp (Nat.le_zero.mp hfuel)) hrest
  | succ fuel ih =>
    subst hid
    have hfirst : ∀ i ∈ traffic.headD [], Foreign d.nodeId i := by
      cases traffic with
      | nil => exact fun i hi => by cases hi
      | cons inputs traffic => exact h inputs List.mem_cons_self
    have hasked := @exchange_asked d (segmentRequest d.nodeId toggle) _ rfl hfirst
    unfold receiveSegments
    dsimp only
    generalize exchange (.ok d) d.nodeId (traffic.headD []) (segmentRequest d.nodeId toggle) = asked
      at hasked ⊢
    cases hasked with
    | lost e => rfl
    | answered d₀ d' frames _ hkept hstep =>
      obtain ⟨f,hsegment,hfound,htoggle,hflag,htaken⟩ := segment_taken d₀ rest ht
      have hhandled := segment_asked (d := d₀) (hkept.upload.trans hopen) ht
      rw [hkept.nodeId] at hhandled hfound
      rw [hhandled,hsegment] at hstep
      cases hstep
      rw [hfound]
      dsimp only
      rw [if_neg (not_not.mpr htoggle),htaken]
      by_cases hlast : rest.drop 7 = []
      · rw [if_pos (hflag.mpr hlast)]
        have hwhole : rest.take 7 = rest := by
          rw [List.take_of_length_le (List.drop_eq_nil_iff.mp hlast)]
        rw [hwhole,if_pos rfl]
        rfl
      · rw [if_neg fun hc => hlast (hflag.mp hc)]
        have hadvanced : (advanced d₀ rest).segmentUpload = some (rest.drop 7) := by
          rw [advanced]
          exact if_neg fun hc => hlast (List.isEmpty_iff.mp hc)
        have hnext := ih (advanced d₀ rest) hkept.nodeId traffic.tail
          (fun inputs hi => h inputs (List.mem_of_mem_tail hi)) (received++rest.take 7)
          (rest.drop 7) (toggle ^^^ 0x10) hadvanced hlast (by rw [List.length_drop]; omega)
          (toggle_next ht)
        rw [List.append_assoc,List.take_append_drop] at hnext
        exact hnext

end Segments

section Read
variable {d : Device}

def readValue : Option (List UInt8) → Except ClientError (List UInt8)
  | none => .error .aborted
  | some [] => .ok [0,0,0,0]
  | some bytes => .ok bytes

theorem short_fields {n : ℕ} (hn : n ≤ 4) :
    let command := (0x43 : UInt8) ||| UInt8.ofNat ((4-n) <<< 2)
    command ≠ 0x80 ∧ command &&& 0x02 ≠ 0 ∧
      4-((command >>> 2) &&& 0x03).toNat = if n = 0 then 4 else n := by
  have hall : ∀ n : Fin 5, (0x43 : UInt8) ||| UInt8.ofNat ((4-n.1) <<< 2) ≠ 0x80 ∧
      ((0x43 : UInt8) ||| UInt8.ofNat ((4-n.1) <<< 2)) &&& 0x02 ≠ 0 ∧
        4-((((0x43 : UInt8) ||| UInt8.ofNat ((4-n.1) <<< 2)) >>> 2) &&& 0x03).toNat =
          if n.1 = 0 then 4 else n.1 := by
    decide +kernel
  exact hall ⟨n,by omega⟩

theorem answered_found (d : Device) (command : UInt8) (key : Key) {data : List UInt8}
    (h : data.length = 4) :
    ∃ f : Frame, answered d command key data = .ok (d,[f]) ∧
      [f].find? (fun f => f.cobId = 0x580+d.nodeId.1) = some f ∧ byteOf f 0 = command ∧
      f.data.drop 4 = data := by
  have hdata : (command::multiplexer key.1 key.2++data).length ≤ 8 :=
    eight_bytes command key.1 key.2 (Nat.le_of_eq h)
  obtain ⟨f,hsent,hbytes,hfound⟩ := sent_found d hdata
  refine ⟨f,hsent,hfound,?_,?_⟩
  · rw [byteOf,hbytes]
    rfl
  · rw [hbytes]
    rfl

inductive Uploaded (d : Device) (key : Key) : Handled → Prop where
  | raised (e : PyError) : Uploaded d key (.error e)
  | absent (f : Frame) (hvalue : value d key = .ok none)
      (hfound : [f].find? (fun f => f.cobId = 0x580+d.nodeId.1) = some f)
      (hcommand : byteOf f 0 = 0x80) : Uploaded d key (.ok (d,[f]))
  | short (bytes : List UInt8) (f : Frame) (hvalue : value d key = .ok (some bytes))
      (hfound : [f].find? (fun f => f.cobId = 0x580+d.nodeId.1) = some f)
      (hlength : bytes.length ≤ 4)
      (hcommand : byteOf f 0 = (0x43 : UInt8) ||| UInt8.ofNat ((4-bytes.length) <<< 2))
      (hdata : f.data.drop 4 = ljust 4 bytes) : Uploaded d key (.ok (d,[f]))
  | long (bytes : List UInt8) (f : Frame) (hvalue : value d key = .ok (some bytes))
      (hfound : [f].find? (fun f => f.cobId = 0x580+d.nodeId.1) = some f)
      (hlength : 4 < bytes.length) (hcommand : byteOf f 0 = 0x41)
      (hdata : f.data.drop 4 = littleEndian 4 bytes.length) (hfits : bytes.length < 256^4) :
      Uploaded d key (.ok ({ d with segmentUpload := some bytes },[f]))

theorem upload_effect (d : Device) (key : Key) : Uploaded d key (VcanDevice.sdoUpload d key) := by
  unfold VcanDevice.sdoUpload
  cases hvalue : value d key with
  | error e => exact .raised e
  | ok v =>
    cases v with
    | none =>
      obtain ⟨f,habort,hfound,hcommand,-⟩ :=
        answered_found d 0x80 key (little_length 4 abortNoObject)
      show Uploaded d key (answered d 0x80 key (littleEndian 4 abortNoObject))
      rw [habort]
      exact .absent f hvalue hfound hcommand
    | some bytes =>
      show Uploaded d key (if bytes.length ≤ 4 then _ else _)
      by_cases hlength : bytes.length ≤ 4
      · rw [if_pos hlength]
        obtain ⟨f,hsent,hfound,hcommand,hdata⟩ := answered_found d
          ((0x43 : UInt8) ||| UInt8.ofNat ((4-bytes.length) <<< 2)) key (ljust_length hlength)
        rw [hsent]
        exact .short bytes f hvalue hfound hlength hcommand hdata
      · rw [if_neg hlength]
        unfold toBytes
        by_cases hfits : bytes.length < 256^4
        · obtain ⟨f,hsent,hfound,hcommand,hdata⟩ := answered_found
            { d with segmentUpload := some bytes } 0x41 key (little_length 4 bytes.length)
          rw [if_pos hfits]
          show Uploaded d key (answered _ _ _ _)
          rw [hsent]
          exact .long bytes f hvalue hfound (Nat.lt_of_not_le hlength) hcommand hdata hfits
        · rw [if_neg hfits]
          exact .raised .overflowError

theorem read_asked (d : Device) (key : Key) :
    handle d (requestFrame d.nodeId 0x40 key.1 key.2 (littleEndian 4 0) no_bytes) =
      VcanDevice.sdoUpload d key := by
  obtain ⟨hsdo,hcommand,hindex,hsub⟩ := handle_request d 0x40 key (littleEndian 4 0) no_bytes
    (little_length 4 0)
  rw [hsdo]
  unfold handleSdo
  dsimp only
  rw [hcommand,if_pos rfl,hindex,hsub]

/-- How a read ends: the device is gone and the client waits in vain, or the
client has the value that the object had when its request was handled. Only the
process image can have changed until then. -/
def ReadBack (d : Device) (key : Key) (traffic : List Input) :
    Except PyError Device × Option (Except ClientError (List UInt8)) → Prop
  | (.error _,result) => result = some (.error .timedOut)
  | (.ok _,result) => ∃ d₀ v, (run processStep (.ok d) traffic).1 = .ok d₀ ∧ value d₀ key = .ok v ∧
      (key ≠ (0x6200,1) → value d key = .ok v) ∧ result = some (readValue v)

theorem value_kept {d₀ : Device} (h : Undisturbed d d₀) {key : Key} (hkey : key ≠ (0x6200,1)) :
    value d₀ key = value d key := by
  unfold value
  rw [h.mapping,h.values key hkey]

theorem short_read {bytes : List UInt8} {f : Frame} (hlength : bytes.length ≤ 4)
    (hcommand : byteOf f 0 = (0x43 : UInt8) ||| UInt8.ofNat ((4-bytes.length) <<< 2))
    (hdata : f.data.drop 4 = ljust 4 bytes) :
    (.ok ((f.data.take (4+(4-((byteOf f 0 >>> 2) &&& 0x03).toNat))).drop 4) :
      Except ClientError (List UInt8)) = readValue (some bytes) := by
  obtain ⟨-,-,hfield⟩ := short_fields hlength
  rw [hcommand,hfield,← List.take_drop,hdata]
  cases bytes with
  | nil => rfl
  | cons b bytes =>
    rw [if_neg (show (b::bytes).length ≠ 0 from Nat.succ_ne_zero bytes.length),ljust_take]
    rfl

/-- Every read ends, and whatever foreign traffic comes between its requests, it
returns what the object held at the first of them, or the device has died. -/
theorem read_snapshot (d : Device) (key : Key) (traffic : List (List Input))
    (h : ∀ inputs ∈ traffic, ∀ i ∈ inputs, Foreign d.nodeId i) :
    ∃ bound, ∀ fuel, bound ≤ fuel →
      ReadBack d key (traffic.headD []) (sdoRead fuel (.ok d) d.nodeId key traffic) := by
  have hfirst : ∀ i ∈ traffic.headD [], Foreign d.nodeId i := by
    cases traffic with
    | nil => exact fun i hi => by cases hi
    | cons inputs traffic => exact h inputs List.mem_cons_self
  have hasked := @exchange_asked d
    (requestFrame d.nodeId 0x40 key.1 key.2 (littleEndian 4 0) no_bytes) _ rfl hfirst
  unfold sdoRead
  dsimp only
  generalize exchange (.ok d) d.nodeId (traffic.headD [])
    (requestFrame d.nodeId 0x40 key.1 key.2 (littleEndian 4 0) no_bytes) = asked at hasked ⊢
  cases hasked with
  | lost e => exact ⟨0,fun fuel _ => rfl⟩
  | answered d₀ d' frames hrun hkept hstep =>
    have hhandled := read_asked d₀ key
    rw [hkept.nodeId] at hhandled
    rw [hhandled] at hstep
    have heffect := upload_effect d₀ key
    rw [hstep] at heffect
    cases heffect with
    | absent f hvalue hfound hcommand =>
      rw [hkept.nodeId] at hfound
      refine ⟨0,fun fuel _ => ?_⟩
      rw [hfound]
      dsimp only
      rw [if_pos hcommand]
      exact ⟨d₀,none,hrun,hvalue,fun hkey => (value_kept hkept hkey).symm.trans hvalue,rfl⟩
    | short bytes f hvalue hfound hlength hcommand hdata =>
      rw [hkept.nodeId] at hfound
      obtain ⟨hno,hbit,-⟩ := short_fields hlength
      refine ⟨0,fun fuel _ => ?_⟩
      rw [hfound]
      dsimp only
      have hresult := short_read hlength hcommand hdata
      rw [if_neg (by rw [hcommand]; exact hno),if_pos (by rw [hcommand]; exact hbit),hresult]
      exact ⟨d₀,some bytes,hrun,hvalue,fun hkey => (value_kept hkept hkey).symm.trans hvalue,rfl⟩
    | long bytes f hvalue hfound hlength hcommand hdata hfits =>
      rw [hkept.nodeId] at hfound
      refine ⟨bytes.length,fun fuel hfuel => ?_⟩
      have hexpected : littleValue ((f.data.take 8).drop 4) = bytes.length := by
        rw [show 8 = 4+4 from rfl,← List.take_drop,hdata,
          List.take_of_length_le (Nat.le_of_eq (little_length 4 bytes.length)),little_value,
          Nat.mod_eq_of_lt hfits]
      have hne : bytes ≠ [] := by
        rintro rfl
        cases hlength
      have hreceived := segments_received fuel { d₀ with segmentUpload := some bytes } hkept.nodeId
        traffic.tail (fun inputs hi => h inputs (List.mem_of_mem_tail hi)) [] bytes 0 rfl hne
        (by omega) (Or.inl rfl)
      rw [List.nil_append] at hreceived
      rw [hfound]
      dsimp only
      rw [hcommand,if_neg (by decide),if_neg (by decide),if_neg (by decide),hexpected]
      generalize receiveSegments d.nodeId bytes.length fuel
        (.ok { d₀ with segmentUpload := some bytes }) traffic.tail 0 [] = done at hreceived ⊢
      obtain ⟨p,result⟩ := done
      cases p with
      | error e => exact hreceived
      | ok last =>
        have hread : readValue (some bytes) = .ok bytes := by
          cases bytes with
          | nil => exact absurd rfl hne
          | cons b bytes => rfl
        refine ⟨d₀,some bytes,hrun,hvalue,fun hkey => (value_kept hkept hkey).symm.trans hvalue,?_⟩
        rw [hread]
        exact hreceived

def tenth : NodeId := ⟨10,by decide⟩

def startedDevice : Device := device tenth 100 [100,0]

def startFrame : Frame := ⟨0x000,[0x01,0x00],by decide,by decide⟩

def outputFrame : Frame := ⟨0x20A,[0x34,0x12],by decide,by decide⟩

def syncFrame : Frame := ⟨0x080,[],by decide,by decide⟩

def betweenSegments : List (List Input) :=
  [[.beat,.frame startFrame],[.frame outputFrame],[.frame syncFrame,.beat]]

theorem read_snapshot_payload :
    (∃ bound, ∀ fuel, bound ≤ fuel → ReadBack startedDevice (0x2001,0) [.beat,.frame startFrame]
      (sdoRead fuel (.ok startedDevice) tenth (0x2001,0) betweenSegments)) ∧
      (sdoRead 8 (.ok startedDevice) tenth (0x2001,0) betweenSegments).2 = some (.ok payload) := by
  refine ⟨read_snapshot startedDevice (0x2001,0) betweenSegments ?_,?_⟩
  · intro inputs hinputs i hi
    simp only [betweenSegments,List.mem_cons,List.not_mem_nil,or_false] at hinputs
    rcases hinputs with rfl | rfl | rfl
    all_goals
      simp only [List.mem_cons,List.not_mem_nil,or_false] at hi
      rcases hi with rfl | rfl
      all_goals trivial
  · decide +kernel

end Read

end CanopenReference.VcanReads
