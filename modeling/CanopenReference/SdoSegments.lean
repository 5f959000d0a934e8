import CanopenReference.SdoTraffic

/-!
# Segmented uploads under arbitrary traffic

What the node answered to segment requests is read from the exchanges: it is the
front of the segments of the object that was opened last.
-/

set_option autoImplicit false

namespace CanopenReference.SdoSegments
open Library Library.Runs Library.History MockCanopen SdoUpload SdoTraffic

section Wire
variable (id : NodeId)

def opened (x : Exchange) : Option (UInt16 × UInt8) :=
  if isRequest id x.request ∧ byteOf x.request 0 = 0x40 ∧
      x.responses.map (fun f => byteOf f 0) = [0x41] then
    some (indexOf x.request,byteOf x.request 3)
  else none

def delivered (x : Exchange) : List Frame :=
  if isRequest id x.request ∧ (byteOf x.request 0 = 0x60 ∨ byteOf x.request 0 = 0x70) then
    x.responses.filter fun f => byteOf f 0 ≠ 0x80
  else []

def fetched (past : List Exchange) : List Frame :=
  (since (fun x => (opened id x).isSome) past).flatMap (delivered id)

def nthSegment (raw : List UInt8) (n : ℕ) : Frame :=
  uploadSegment id raw (7*n) (if n%2 = 0 then 0 else 1)

end Wire

section Traffic
variable (id : NodeId) (od : ObjectDictionary)

/-- The segments since the last opening are the first ones of the object that it
named, and there are none before the first opening. -/
def FetchedInOrder (past : List Exchange) : Prop :=
  match latest (opened id) past with
  | none => fetched id past = []
  | some (i,s) => ∃ o, od i s = some o ∧ ∃ n, 7*n < o.width+7 ∧
      fetched id past = (List.range n).map (nthSegment id o.value)

structure Pending (node : MockNode) (past : List Exchange) (raw : List UInt8) (n : ℕ) :
    Prop where
  offset : node.pendingOffset = 7*n
  toggle : node.pendingToggle = if n%2 = 0 then 0 else 1
  left : 7*n < raw.length
  answered : fetched id past = (List.range n).map (nthSegment id raw)
  source : ∃ i s o, latest (opened id) past = some (i,s) ∧ od i s = some o ∧ o.value = raw

structure Transfer (node : MockNode) (past : List Exchange) : Prop where
  nodeId : node.nodeId = id
  long : ∀ i s o, 4 < o.width → (node.od i s = some o ↔ od i s = some o)
  pending : ∀ raw, node.pendingUpload = some raw → ∃ n, Pending id od node past raw n
  ordered : FetchedInOrder id od past

section Step
variable {id : NodeId} {od : ObjectDictionary} {node : MockNode} {past : List Exchange}

theorem rewritten_eq {o o' : ObjectValue} (h : Rewritten o o.value o') : o' = o := by
  obtain ⟨width,access,value,sized,packed⟩ := o
  obtain ⟨width',access',value',sized',packed'⟩ := o'
  obtain ⟨rfl,rfl,rfl⟩ := h
  rfl

theorem long_kept (frame : Frame) (i : UInt16) (s : UInt8) (o : ObjectValue) (h : 4 < o.width) :
    (receive node frame).1.od i s = some o ↔ node.od i s = some o := by
  cases hn : node.od i s with
  | none =>
    rw [received_absent node frame hn]
  | some o₁ =>
    obtain ⟨o₂,ho₂,h₂⟩ := received_object node frame hn
    rw [ho₂]
    constructor
    · intro heq
      cases heq
      cases hd : downloaded node.nodeId o₁ i s frame with
      | none =>
        rw [hd] at h₂
        rw [rewritten_eq h₂]
      | some value =>
        have hfit := (downloads_fit node.nodeId hd).2
        have hwidth := h₂.width
        omega
    · intro heq
      cases heq
      cases hd : downloaded node.nodeId o i s frame with
      | none =>
        rw [hd] at h₂
        rw [rewritten_eq h₂]
      | some value =>
        have hfit := (downloads_fit node.nodeId hd).2
        omega

theorem fetched_concat (x : Exchange) :
    fetched id (past++[x]) =
      if (opened id x).isSome then [] else fetched id past++delivered id x := by
  unfold fetched
  rw [since_concat]
  split
  · rfl
  · rw [List.flatMap_append,List.flatMap_singleton]

theorem transfer_quiet {next : MockNode} {x : Exchange} (h : Transfer id od node past)
    (hid : next.nodeId = node.nodeId)
    (hlong : ∀ i s o, 4 < o.width → (next.od i s = some o ↔ node.od i s = some o))
    (hpending : next.pendingUpload = node.pendingUpload ∧
      next.pendingOffset = node.pendingOffset ∧ next.pendingToggle = node.pendingToggle)
    (hopened : opened id x = none) (hdelivered : delivered id x = []) :
    Transfer id od next (past++[x]) := by
  have hfetched : fetched id (past++[x]) = fetched id past := by
    rw [fetched_concat,hopened,hdelivered,List.append_nil]
    rfl
  have hlatest : latest (opened id) (past++[x]) = latest (opened id) past := by
    rw [latest_concat,hopened,Option.none_or]
  refine ⟨hid.trans h.nodeId,fun i s o ho => (hlong i s o ho).trans (h.long i s o ho),?_,?_⟩
  · intro raw hraw
    obtain ⟨n,hn⟩ := h.pending raw (hpending.1 ▸ hraw)
    exact ⟨n,hpending.2.1.trans hn.offset,hpending.2.2.trans hn.toggle,hn.left,
      hfetched.trans hn.answered,hlatest ▸ hn.source⟩
  · have hordered := h.ordered
    unfold FetchedInOrder at hordered ⊢
    rw [hlatest,hfetched]
    exact hordered

theorem opened_quiet {x : Exchange} (h : byteOf x.request 0 ≠ 0x40) : opened id x = none :=
  if_neg fun hc => h hc.2.1

theorem delivered_quiet {x : Exchange}
    (h : ¬(byteOf x.request 0 = 0x60 ∨ byteOf x.request 0 = 0x70)) : delivered id x = [] :=
  if_neg fun hc => h hc.2

theorem opened_answered {frame f : Frame} (h : byteOf f 0 ≠ 0x41) :
    opened id ⟨frame,[f]⟩ = none :=
  if_neg fun hc => h (List.singleton_inj.mp hc.2.2)

theorem abort_quiet {command : UInt8} {node : MockNode} {frame : Frame} {index : UInt16}
    {subIndex : UInt8} {code : ℕ} (h : byteOf frame 0 = command) (hne : command ≠ 0x40) :
    opened id ⟨frame,[abort node index subIndex code]⟩ = none ∧
      delivered id ⟨frame,[abort node index subIndex code]⟩ = [] := by
  refine ⟨opened_quiet (fun hc => hne (h.symm.trans hc)),?_⟩
  unfold delivered
  split
  · rfl
  · rfl

section Request
variable {frame : Frame} (hr : isRequest node.nodeId frame = true) (h : Transfer id od node past)
include hr h

theorem upload_step (hcommand : byteOf frame 0 = 0x40) :
    Transfer id od (sdoUploadResponse node (indexOf frame) (byteOf frame 3)).1
      (past++[⟨frame,(sdoUploadResponse node (indexOf frame) (byteOf frame 3)).2⟩]) := by
  have hdelivered (responses : List Frame) : delivered id ⟨frame,responses⟩ = [] :=
    delivered_quiet (by rw [hcommand]; decide)
  unfold sdoUploadResponse
  cases ho : node.od (indexOf frame) (byteOf frame 3) with
  | none =>
    exact transfer_quiet h rfl (fun _ _ _ _ => Iff.rfl) ⟨rfl,rfl,rfl⟩
      (opened_answered (by unfold abort; rw [response_command]; decide)) (hdelivered _)
  | some o =>
    dsimp only
    by_cases hshort : o.value.length ≤ 4
    · rw [dif_pos hshort]
      exact transfer_quiet h rfl (fun _ _ _ _ => Iff.rfl) ⟨rfl,rfl,rfl⟩
        (opened_answered (expedited_command (Nat.sub_le 4 o.value.length)).2.1) (hdelivered _)
    · rw [dif_neg hshort]
      have hopened : opened id ⟨frame,[response node 0x41 (indexOf frame) (byteOf frame 3)
          (littleEndian 4 o.value.length) (packed_four o.value.length)]⟩ =
          some (indexOf frame,byteOf frame 3) := by
        unfold opened
        rw [if_pos ⟨h.nodeId ▸ hr,hcommand,rfl⟩]
      have hwide : 4 < o.width := o.sized ▸ Nat.lt_of_not_le hshort
      have hsource := (h.long _ _ o hwide).mp ho
      have hfetched (x : Exchange) (hx : opened id x = some (indexOf frame,byteOf frame 3)) :
          fetched id (past++[x]) = [] := by
        rw [fetched_concat,hx]
        rfl
      have hlatest (x : Exchange) (hx : opened id x = some (indexOf frame,byteOf frame 3)) :
          latest (opened id) (past++[x]) = some (indexOf frame,byteOf frame 3) := by
        rw [latest_concat,hx,Option.some_or]
      refine ⟨h.nodeId,h.long,?_,?_⟩
      · intro raw hraw
        cases hraw
        exact ⟨0,rfl,rfl,by omega,hfetched _ hopened,_,_,o,hlatest _ hopened,hsource,rfl⟩
      · unfold FetchedInOrder
        rw [hlatest _ hopened,hfetched _ hopened]
        exact ⟨o,hsource,0,by omega,rfl⟩

theorem segment_step (hcommand : byteOf frame 0 = 0x60 ∨ byteOf frame 0 = 0x70) :
    Transfer id od (sdoUploadSegment node (byteOf frame 0)).1
      (past++[⟨frame,(sdoUploadSegment node (byteOf frame 0)).2⟩]) := by
  have h40 : byteOf frame 0 ≠ 0x40 := by rcases hcommand with hc | hc <;> rw [hc] <;> decide
  unfold sdoUploadSegment
  cases hraw : node.pendingUpload with
  | none =>
    exact transfer_quiet h rfl (fun _ _ _ _ => Iff.rfl) ⟨rfl,rfl,rfl⟩ (abort_quiet rfl h40).1
      (abort_quiet rfl h40).2
  | some raw =>
    dsimp only
    by_cases htoggle : (byteOf frame 0 >>> 4) &&& 1 ≠ node.pendingToggle
    · rw [if_pos htoggle]
      exact transfer_quiet h rfl (fun _ _ _ _ => Iff.rfl) ⟨rfl,rfl,rfl⟩ (abort_quiet rfl h40).1
        (abort_quiet rfl h40).2
    · rw [if_neg htoggle,not_not.mp htoggle]
      obtain ⟨n,hn⟩ := h.pending raw hraw
      have hbit : node.pendingToggle = 0 ∨ node.pendingToggle = 1 := by
        rw [hn.toggle]
        split
        · exact Or.inl rfl
        · exact Or.inr rfl
      have hopened : opened id ⟨frame,[uploadSegment node.nodeId raw node.pendingOffset
          node.pendingToggle]⟩ = none := opened_quiet h40
      have hdelivered : delivered id ⟨frame,[uploadSegment node.nodeId raw node.pendingOffset
          node.pendingToggle]⟩ = [nthSegment id raw n] := by
        unfold delivered
        rw [if_pos ⟨h.nodeId ▸ hr,hcommand⟩,List.filter_cons_of_pos
          (by simpa using segment_no_abort node.nodeId raw node.pendingOffset hbit)]
        rw [h.nodeId,hn.offset,hn.toggle]
        rfl
      have hfetched (x : Exchange) (ho : opened id x = none)
          (hd : delivered id x = [nthSegment id raw n]) :
          fetched id (past++[x]) = (List.range (n+1)).map (nthSegment id raw) := by
        rw [fetched_concat,ho,hd,hn.answered,List.range_succ,List.map_append]
        rfl
      have hlatest (x : Exchange) (ho : opened id x = none) :
          latest (opened id) (past++[x]) = latest (opened id) past := by
        rw [latest_concat,ho,Option.none_or]
      have hleft := hn.left
      have hchunk : ((raw.drop node.pendingOffset).take 7).length = min 7 (raw.length-7*n) := by
        rw [List.length_take,List.length_drop,hn.offset]
      obtain ⟨i,s,o,hsource,hobject,rfl⟩ := hn.source
      refine ⟨h.nodeId,h.long,?_,?_⟩
      · intro raw' hraw'
        have hmore : node.pendingOffset+((o.value.drop node.pendingOffset).take 7).length ≠
            o.value.length := by
          intro hc
          simp only [hc,if_true] at hraw'
          cases hraw'
        simp only [if_neg hmore] at hraw'
        cases hraw'
        rw [hn.offset] at hmore
        refine ⟨n+1,?_,?_,?_,hfetched _ hopened hdelivered,i,s,o,(hlatest _ hopened).trans hsource,
          hobject,rfl⟩
        · show node.pendingOffset+((o.value.drop node.pendingOffset).take 7).length = _
          rw [hchunk,hn.offset]
          rw [hn.offset] at hchunk
          omega
        · show node.pendingToggle ^^^ 1 = _
          rw [hn.toggle]
          rcases Nat.mod_two_eq_zero_or_one n with he | he
          · rw [if_pos he,if_neg (by omega)]
            rfl
          · rw [if_neg (by omega),if_pos (by omega)]
            rfl
        · rw [hn.offset] at hchunk
          omega
      · unfold FetchedInOrder
        rw [hlatest _ hopened,hsource,hfetched _ hopened hdelivered]
        refine ⟨o,hobject,n+1,?_,rfl⟩
        rw [← o.sized]
        omega

theorem request_step : Transfer id od (receive node frame).1
    (past++[⟨frame,(receive node frame).2⟩]) := by
  have hlong : ∀ i s o, 4 < o.width →
      ((receive node frame).1.od i s = some o ↔ node.od i s = some o) := long_kept frame
  rw [received_request hr] at hlong ⊢
  unfold served at hlong ⊢
  by_cases h40 : byteOf frame 0 = 0x40
  · rw [if_pos h40]
    exact upload_step hr h h40
  · rw [if_neg h40] at hlong ⊢
    by_cases h60 : byteOf frame 0 = 0x60 ∨ byteOf frame 0 = 0x70
    · rw [if_pos h60]
      exact segment_step hr h h60
    · rw [if_neg h60] at hlong ⊢
      by_cases h20 : byteOf frame 0 &&& 0xE0 = 0x20
      · rw [if_pos h20] at hlong ⊢
        have hframe := download_frame node (byteOf frame 0) (indexOf frame) (byteOf frame 3)
          (frame.data.drop 4)
        exact transfer_quiet h hframe.2.1 hlong hframe.2.2 (opened_quiet h40) (delivered_quiet h60)
      · rw [if_neg h20] at hlong ⊢
        exact transfer_quiet h rfl hlong ⟨rfl,rfl,rfl⟩ (opened_quiet h40) (delivered_quiet h60)

end Request

theorem transfer_step (frame : Frame) (h : Transfer id od node past) :
    Transfer id od (trafficStep node frame).1 (past++(trafficStep node frame).2) := by
  cases hr : isRequest node.nodeId frame with
  | true => exact request_step hr h
  | false =>
    have hid : isRequest id frame = false := h.nodeId ▸ hr
    have hopened : opened id ⟨frame,(receive node frame).2⟩ = none :=
      if_neg fun hc => by rw [hid] at hc; cases hc.1
    have hdelivered : delivered id ⟨frame,(receive node frame).2⟩ = [] :=
      if_neg fun hc => by rw [hid] at hc; cases hc.1
    have hnode := received_other hr
    refine transfer_quiet h ?_ (fun i s o ho => long_kept frame i s o ho) ?_ hopened hdelivered
    · exact (congrArg MockNode.nodeId hnode).trans rfl
    · exact ⟨(congrArg MockNode.pendingUpload hnode).trans rfl,
        (congrArg MockNode.pendingOffset hnode).trans rfl,
        (congrArg MockNode.pendingToggle hnode).trans rfl⟩

end Step

/-- Whatever traffic comes between its segments, and whatever toggle bits the
requests have, an upload delivers the segments of the object that was opened,
each once and in order. -/
theorem segments_in_order (frames : List Frame) :
    FetchedInOrder id od (run trafficStep (mockNode id od) frames).2 := by
  have hfresh : Transfer id od (mockNode id od) [] :=
    ⟨rfl,fun _ _ _ _ => Iff.rfl,(fun _ hraw => nomatch hraw),rfl⟩
  exact (along_history trafficStep (fun _ _ => True) (Transfer id od)
    (fun _ _ frame h _ => transfer_step frame h) (mockNode id od) [] frames hfresh
    (along_true _ _ _)).ordered

end Traffic
end CanopenReference.SdoSegments
