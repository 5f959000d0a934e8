import CanopenReference.IsoTpAgreement

/-!
# A tester and the host-side node

The tester sends a First Frame, listens on the response identifier, and sends
the consecutive frames once it has heard a Clear-To-Send frame there. The node
puts its flow control on the identifier of the frame it answers.
-/

set_option autoImplicit false

namespace CanopenReference.UdsIsotpNode
open Library Library.Runs IsoTp IsoTpReceiver IsoTpDelivery IsoTpEncoding IsoTpAgreement UdsIsotp

structure NodeReport where
  request : Option (List UInt8)
  emitted : List CanFrame
  deriving DecidableEq

section Node
variable {σ : Type}

def udsIsoTpNode (requestId responseId : ℤ) (server : UdsServer σ) : UdsIsoTpNode σ :=
  ⟨requestId,responseId,server,isoTpReceiver⟩

def emittedFrames : Except IsoTpError (List CanFrame) → List CanFrame
  | .ok frames => frames
  | .error _ => []

def obtained (node : UdsIsoTpNode σ) (frame : CanFrame) : Option (List UInt8) :=
  if frame.canId = node.requestId then delivered (feed node.receiver frame).2 else none

def nodeStep (node : UdsIsoTpNode σ) (frame : CanFrame) : UdsIsoTpNode σ × List NodeReport :=
  let received := receive node frame
  (received.1,[⟨obtained node frame,emittedFrames received.2⟩])

def clearsToSend (frame : CanFrame) : Bool := pci frame = 3 ∧ low frame = 0

def heard (node : UdsIsoTpNode σ) (reports : List NodeReport) : List CanFrame :=
  (reports.flatMap NodeReport.emitted).filter fun f => f.canId = node.responseId

def testerSends (node : UdsIsoTpNode σ) : List CanFrame → List CanFrame
  | [] => []
  | first::rest =>
    if (heard node (nodeStep node first).2).any clearsToSend then first::rest else [first]

def exchange (node : UdsIsoTpNode σ) (frames : List CanFrame) : List NodeReport :=
  (run nodeStep node (testerSends node frames)).2

def Completes (node : UdsIsoTpNode σ) (p : List UInt8) : Prop :=
  ∀ frames, isotpEncode node.requestId p = .ok frames →
    (exchange node frames).filterMap NodeReport.request = [p] ∧
      ∃ response, isotpEncode node.responseId (handle node.server p).2 = .ok response ∧
        response <:+ heard node (exchange node frames)

/-- Every multi-frame request completes, after whatever came before, and all
that is ever emitted is on the response identifier. -/
def Serves (node : UdsIsoTpNode σ) : Prop :=
  (∀ before p, 8 ≤ p.length → p.length ≤ 4095 → Completes (run nodeStep node before).1 p) ∧
    ∀ frames, ∀ report ∈ (run nodeStep node frames).2, ∀ f ∈ report.emitted,
      f.canId = node.responseId

section Segments
variable {p : List UInt8} {f : CanFrame}

theorem byte_pci (x : UInt8) (t : ℕ) (h : x >>> 4 = UInt8.ofNat t) (ht : t < 256) :
    x.toNat >>> 4 = t := by
  have hs : (x >>> 4).toNat = x.toNat >>> 4 := UInt8.toNat_shiftRight x 4
  rw [← hs,h]
  exact Nat.mod_eq_of_lt ht

theorem first_segment (h8 : 8 ≤ p.length) (hm : p.length ≤ 4095) (hd : f.data = segmentBytes p 0) :
    pci f = 1 ∧ firstLength f = p.length ∧ f.data.length = 8 ∧ f.data.drop 2 = p.take 6 := by
  obtain ⟨ht,hl⟩ := first_pci (p.length/256) (by omega)
  rw [segmentBytes,if_neg (by omega)] at hd
  have hlow : low f = p.length/256 := by
    rw [UInt8.toNat_and] at hl
    rw [low,hd,List.getD_cons_zero]
    exact hl
  have hbyte : (UInt8.ofNat (p.length%256)).toNat = p.length%256 :=
    Nat.mod_eq_of_lt (Nat.mod_lt _ (by decide))
  refine ⟨?_,?_,?_,?_⟩
  · rw [pci,hd,List.getD_cons_zero]
    exact byte_pci _ 1 ht (by decide)
  · have hlt : p.length%256 < 2^8 := Nat.mod_lt _ (by decide)
    rw [firstLength,hlow,hd,List.getD_cons_succ,List.getD_cons_zero,hbyte,
      ← Nat.shiftLeft_add_eq_or_of_lt hlt,Nat.shiftLeft_eq]
    omega
  · rw [hd]
    simp only [List.length_cons,List.length_take]
    omega
  · rw [hd]
    rfl

theorem next_segment {k : ℕ} (hd : f.data = segmentBytes p (k+1)) :
    pci f = 2 ∧ low f = (k+1)%16 ∧ f.data.drop 1 = (p.drop (6+7*k)).take 7 := by
  obtain ⟨ht,hl⟩ := next_pci ((k+1)%16) (Nat.mod_lt _ (by decide))
  rw [segmentBytes] at hd
  refine ⟨?_,?_,by rw [hd]; rfl⟩
  · rw [pci,hd,List.getD_cons_zero]
    exact byte_pci _ 2 ht (by decide)
  · have hn := congrArg UInt8.toNat hl
    rw [UInt8.toNat_and] at hn
    rw [low,hd,List.getD_cons_zero]
    exact hn.trans (Nat.mod_eq_of_lt (by omega))

/-- The receiver has taken the First Frame and `k` consecutive frames. -/
structure Received (p : List UInt8) (r : IsoTpReceiver) (k : ℕ) : Prop where
  expected : r.expected = some p.length
  buffer : r.buffer = p.take (carried p k)
  nextSequence : r.nextSequence = (k+1)%16

theorem feed_first_segment {r : IsoTpReceiver} (h8 : 8 ≤ p.length) (hm : p.length ≤ 4095)
    (hmax : r.maxPayload = 4095) (hd : f.data = segmentBytes p 0) :
    feed r f = (opened r f,.ok ([hostFlowControl f],none)) ∧ Received p (opened r f) 0 := by
  obtain ⟨hpci,hfirst,hlen,hdrop⟩ := first_segment h8 hm hd
  have hne : f.data ≠ [] := by
    intro he
    rw [he] at hlen
    cases hlen
  refine ⟨?_,?_,?_,rfl⟩
  · rw [feed,if_neg hne,if_neg (by omega),if_pos hpci]
    exact first_taken (by omega) (by omega) (by omega)
  · rw [opened,hfirst]
  · simp only [opened]
    rw [hdrop,List.take_eq_take_iff,carried]
    omega

theorem feed_next_segment {r : IsoTpReceiver} {k : ℕ} (hp : 7 < p.length)
    (h : Received p r k) (hk : k < consecutives p) (hd : f.data = segmentBytes p (k+1)) :
    ∃ r', feed r f = (r',.ok ([],if k+1 = consecutives p then some p else none)) ∧
      (k+1 < consecutives p → Received p r' (k+1)) := by
  obtain ⟨hpci,hlow,hdrop⟩ := next_segment hd
  have hne : f.data ≠ [] := by
    intro he
    rw [he,segmentBytes] at hd
    cases hd
  have hbuffer : (grown r f).buffer = p.take (carried p (k+1)) := by
    have hlt := (carried_lt hp k).mpr hk
    have heq := carried_eq hp k hk
    rw [grown,hdrop,h.buffer,heq,← List.take_add]
    rw [List.take_eq_take_iff,carried]
    omega
  have hlast := carried_lt hp (k+1)
  have hle : carried p (k+1) ≤ p.length := Nat.min_le_left _ _
  have htaken := consecutive_taken (f := f) h.expected (hlow.trans h.nextSequence.symm)
  rw [hbuffer,List.length_take,Nat.min_eq_left hle] at htaken
  rw [feed,if_neg hne,if_neg (by omega),if_neg (by omega),if_pos hpci,htaken]
  by_cases hend : k+1 = consecutives p
  · rw [if_pos (by omega),if_pos hend]
    refine ⟨reset (grown r f),?_,fun hlt => by omega⟩
    rw [List.take_of_length_le (by rw [List.length_take]; exact Nat.min_le_right _ _),List.take_of_length_le (by omega)]
  · rw [if_neg (by omega),if_neg hend]
    refine ⟨_,rfl,fun _ => ⟨h.expected,hbuffer,?_⟩⟩
    rw [grown,h.nextSequence]
    exact sequence_next (k+1)

end Segments

theorem long_response (server : UdsServer σ) (p : List UInt8) (h : 4 ≤ p.length) :
    (handle server p).2.length = 3 := by
  cases p with
  | nil => cases h
  | cons service rest =>
    rw [handle]
    split
    · rw [handleSession,if_pos (Or.inl (by omega))]
      rfl
    split
    · rw [handleReset,if_pos (Or.inl (by omega))]
      rfl
    split
    · rw [handleTesterPresent,if_pos (Or.inl (by omega))]
      rfl
    split
    · rw [handleRead,if_pos (by omega)]
      rfl
    split
    · have hdid : (((service::rest).drop 1).take 2).length = 2 := by
        rw [List.length_take,List.length_drop]
        omega
      rw [handleWrite,if_neg (by omega)]
      simp only
      split
      · rw [List.length_cons,hdid]
      · rfl
    · rfl

theorem bind_ok {α β : Type} {x : Except IsoTpError α} {g : α → Except IsoTpError β} {b : β}
    (h : (x >>= g) = .ok b) : ∃ a, x = .ok a ∧ g a = .ok b := by
  cases x with
  | error e => cases h
  | ok a => exact ⟨a,rfl,h⟩

theorem can_frame_id {canId : ℤ} {data : List UInt8} {frame : CanFrame}
    (h : canFrame canId data = .ok frame) :
    (0 ≤ canId ∧ canId ≤ 0x7FF) ∧ frame.canId = canId := by
  unfold canFrame at h
  split at h
  · rename_i hid
    split at h
    · cases h
      exact ⟨hid,rfl⟩
    · cases h
  · cases h

theorem encode_loop_ids (canId : ℤ) (p : List UInt8) (fuel sequence offset : ℕ)
    {frames : List CanFrame} (h : encodeLoop canId p fuel sequence offset = .ok frames) :
    ∀ f ∈ frames, f.canId = canId := by
  induction fuel generalizing sequence offset frames with
  | zero =>
    cases h
    simp
  | succ fuel ih =>
    unfold encodeLoop at h
    split at h
    · obtain ⟨frame,hframe,h⟩ := bind_ok h
      obtain ⟨rest,hrest,h⟩ := bind_ok h
      cases h
      intro f hf
      rcases List.mem_cons.mp hf with rfl | hf
      · exact (can_frame_id hframe).2
      · exact ih _ _ hrest f hf
    · cases h
      simp

theorem encode_ids {canId : ℤ} {p : List UInt8} {frames : List CanFrame}
    (h : isotpEncode canId p = .ok frames) :
    (0 ≤ canId ∧ canId ≤ 0x7FF) ∧ ∀ f ∈ frames, f.canId = canId := by
  unfold isotpEncode at h
  split at h
  · cases h
  split at h
  · obtain ⟨frame,hframe,h⟩ := bind_ok h
    cases h
    obtain ⟨hrange,hid⟩ := can_frame_id hframe
    exact ⟨hrange,fun f hf => List.mem_singleton.mp hf ▸ hid⟩
  split at h
  · cases h
  · obtain ⟨frame,hframe,h⟩ := bind_ok h
    obtain ⟨rest,hrest,h⟩ := bind_ok h
    cases h
    obtain ⟨hrange,hid⟩ := can_frame_id hframe
    refine ⟨hrange,fun f hf => ?_⟩
    rcases List.mem_cons.mp hf with rfl | hf
    · exact hid
    · exact encode_loop_ids canId p _ _ _ hrest f hf

theorem feed_flow_ids {r : IsoTpReceiver} {f : CanFrame} {flow : List CanFrame}
    {payload : Option (List UInt8)} (h : (feed r f).2 = .ok (flow,payload)) :
    ∀ g ∈ flow, g.canId = f.canId := by
  unfold feed at h
  split at h
  · cases h
  split at h
  · unfold feedSingle at h
    simp only at h
    split at h
    · cases h
    · cases h
      simp
  split at h
  · unfold feedFirst at h
    simp only at h
    split at h
    · cases h
    split at h
    · cases h
    split at h
    · cases h
    · rename_i flowControl hflow
      cases h
      intro g hg
      rw [List.mem_singleton.mp hg]
      exact (can_frame_id hflow).2
  split at h
  · unfold feedConsecutive at h
    simp only at h
    split at h
    · cases h
    split at h
    · cases h
    · cases h
      simp
  split at h
  · unfold feedFlowControl at h
    split at h
    · cases h
    · cases h
      simp
  · cases h

theorem step_ids (node : UdsIsoTpNode σ) (frame : CanFrame) :
    ∀ report ∈ (nodeStep node frame).2, ∀ f ∈ report.emitted,
      frame.canId = node.requestId ∧
        (f.canId = node.requestId ∨ f.canId = node.responseId) := by
  intro report hr f hf
  rw [List.mem_singleton.mp hr] at hf
  simp only [receive] at hf
  by_cases hid : frame.canId = node.requestId
  · rw [if_neg (not_not.mpr hid)] at hf
    refine ⟨hid,?_⟩
    cases hfed : (feed node.receiver frame).2 with
    | error e =>
      rw [hfed] at hf
      cases hf
    | ok fed =>
      obtain ⟨flow,payload⟩ := fed
      have hflow := feed_flow_ids hfed
      rw [hfed] at hf
      cases payload with
      | none => exact Or.inl ((hflow f hf).trans hid)
      | some p =>
        simp only at hf
        cases hresponse : isotpEncode node.responseId (handle node.server p).2 with
        | error e =>
          rw [hresponse] at hf
          cases hf
        | ok response =>
          rw [hresponse] at hf
          rcases List.mem_append.mp hf with hf | hf
          · exact Or.inl ((hflow f hf).trans hid)
          · exact Or.inr ((encode_ids hresponse).2 f hf)
  · rw [if_pos hid] at hf
    cases hf

theorem step_kept (node : UdsIsoTpNode σ) (frame : CanFrame) :
    (nodeStep node frame).1.requestId = node.requestId ∧
      (nodeStep node frame).1.responseId = node.responseId ∧
      (nodeStep node frame).1.receiver.maxPayload = node.receiver.maxPayload := by
  simp only [nodeStep,receive]
  split
  · exact ⟨rfl,rfl,rfl⟩
  split
  · exact ⟨rfl,rfl,feed_max_payload _ _⟩
  · exact ⟨rfl,rfl,feed_max_payload _ _⟩
  · exact ⟨rfl,rfl,feed_max_payload _ _⟩

theorem run_kept (node : UdsIsoTpNode σ) (frames : List CanFrame) :
    (run nodeStep node frames).1.requestId = node.requestId ∧
      (run nodeStep node frames).1.responseId = node.responseId ∧
      (run nodeStep node frames).1.receiver.maxPayload = node.receiver.maxPayload := by
  induction frames generalizing node with
  | nil => exact ⟨rfl,rfl,rfl⟩
  | cons frame frames ih =>
    obtain ⟨hq,hr,hm⟩ := ih (nodeStep node frame).1
    obtain ⟨hq',hr',hm'⟩ := step_kept node frame
    exact ⟨hq.trans hq',hr.trans hr',hm.trans hm'⟩

section Exchange
variable {node : UdsIsoTpNode σ} {p : List UInt8}

theorem step_first {first : CanFrame} (h8 : 8 ≤ p.length) (hm : p.length ≤ 4095)
    (hmax : node.receiver.maxPayload = 4095) (hid : first.canId = node.requestId)
    (hd : first.data = segmentBytes p 0) :
    nodeStep node first = ({ node with receiver := opened node.receiver first },
        [⟨none,[hostFlowControl first]⟩]) ∧
      Received p (opened node.receiver first) 0 := by
  obtain ⟨hfeed,hreceived⟩ := feed_first_segment h8 hm hmax hd
  refine ⟨?_,hreceived⟩
  simp [nodeStep,receive,obtained,hid,hfeed,delivered,emittedFrames]

theorem step_next {f : CanFrame} {k : ℕ} (hp : 7 < p.length) (hid : f.canId = node.requestId)
    (h : Received p node.receiver k) (hk : k+1 < consecutives p)
    (hd : f.data = segmentBytes p (k+1)) :
    ∃ r', nodeStep node f = ({ node with receiver := r' },[⟨none,[]⟩]) ∧ Received p r' (k+1) := by
  obtain ⟨r',hfeed,hreceived⟩ := feed_next_segment hp h (by omega) hd
  rw [if_neg (by omega)] at hfeed
  refine ⟨r',?_,hreceived hk⟩
  simp [nodeStep,receive,obtained,hid,hfeed,delivered,emittedFrames]

theorem step_last {f : CanFrame} {k : ℕ} {response : List CanFrame} (hp : 7 < p.length)
    (hid : f.canId = node.requestId) (h : Received p node.receiver k)
    (hk : k+1 = consecutives p) (hd : f.data = segmentBytes p (k+1))
    (hresponse : isotpEncode node.responseId (handle node.server p).2 = .ok response) :
    (nodeStep node f).2 = [⟨some p,response⟩] := by
  obtain ⟨r',hfeed,_⟩ := feed_next_segment hp h (by omega) hd
  rw [if_pos hk] at hfeed
  simp [nodeStep,receive,obtained,hid,hfeed,delivered,hresponse,emittedFrames,Except.map]

theorem rest_completes (node : UdsIsoTpNode σ) (rest : List CanFrame) {k : ℕ} {response : List CanFrame}
    (hp : 7 < p.length) (hids : ∀ f ∈ rest, f.canId = node.requestId)
    (hdata : rest.map CanFrame.data = (List.range' (k+1) (consecutives p-k)).map (segmentBytes p))
    (h : Received p node.receiver k) (hk : k < consecutives p)
    (hresponse : isotpEncode node.responseId (handle node.server p).2 = .ok response) :
    (run nodeStep node rest).2.filterMap NodeReport.request = [p] ∧
      (run nodeStep node rest).2.flatMap NodeReport.emitted = response := by
  induction rest generalizing node k with
  | nil =>
    rw [show consecutives p-k = consecutives p-(k+1)+1 by omega] at hdata
    cases hdata
  | cons f rest ih =>
    rw [show consecutives p-k = consecutives p-(k+1)+1 by omega,List.range'_succ,List.map_cons,
      List.map_cons,List.cons.injEq] at hdata
    obtain ⟨hd,hrest⟩ := hdata
    have hid := hids f (List.mem_cons_self ..)
    by_cases hlast : k+1 = consecutives p
    · rw [hlast,Nat.sub_self] at hrest
      rw [List.map_eq_nil_iff.mp hrest,run_cons,step_last hp hid h hlast hd hresponse]
      simp
    · obtain ⟨r',hstep,hreceived⟩ := step_next hp hid h (by omega) hd
      obtain ⟨hrequests,hemitted⟩ := ih { node with receiver := r' }
        (fun g hg => hids g (List.mem_cons_of_mem _ hg)) hrest hreceived (by omega) hresponse
      rw [run_cons,hstep]
      exact ⟨hrequests,hemitted⟩

theorem request_frames {canId : ℤ} (hid : 0 ≤ canId ∧ canId ≤ 0x7FF) (h8 : 8 ≤ p.length)
    (hm : p.length ≤ 4095) {frames : List CanFrame} (h : isotpEncode canId p = .ok frames) :
    ∃ first rest, frames = first::rest ∧ first.data = segmentBytes p 0 ∧
      rest.map CanFrame.data = (List.range' 1 (consecutives p)).map (segmentBytes p) := by
  obtain ⟨frames',h',hdata⟩ := encode_segments hid p (by omega) hm
  rw [h] at h'
  rw [← Except.ok.inj h',List.range_eq_range',List.range'_succ,List.map_cons] at hdata
  cases frames with
  | nil => cases hdata
  | cons first rest =>
    obtain ⟨hfirst,hrest⟩ := List.cons.inj hdata
    exact ⟨first,rest,rfl,hfirst,hrest⟩

theorem clear_answer (f : CanFrame) : clearsToSend (hostFlowControl f) = true := by
  simp [clearsToSend,hostFlowControl,pci,low]

theorem one_id_completes (h8 : 8 ≤ p.length) (hm : p.length ≤ 4095)
    (hmax : node.receiver.maxPayload = 4095) (hsame : node.requestId = node.responseId) :
    Completes node p := by
  intro frames hframes
  obtain ⟨hid,hids⟩ := encode_ids hframes
  obtain ⟨first,rest,rfl,hfirst,hrest⟩ := request_frames hid h8 hm hframes
  have hfid := hids first (List.mem_cons_self ..)
  obtain ⟨hstep,hreceived⟩ := step_first h8 hm hmax hfid hfirst
  have hflow : (hostFlowControl first).canId = node.responseId := hfid.trans hsame
  have hsends : testerSends node (first::rest) = first::rest := by
    simp [testerSends,hstep,heard,hflow,clear_answer]
  have hlength := long_response node.server p (by omega)
  obtain ⟨response,hresponse,_⟩ := encode_segments (hsame ▸ hid) (handle node.server p).2
    (by omega) (by omega)
  have hpos : 0 < consecutives p := by
    rw [consecutives,if_neg (by omega)]
    omega
  obtain ⟨hrequests,hemitted⟩ := rest_completes
    { node with receiver := opened node.receiver first } rest (k := 0) (by omega)
    (fun f hf => hids f (List.mem_cons_of_mem _ hf)) hrest hreceived hpos hresponse
  have hheard : response.filter (fun f => decide (f.canId = node.responseId)) = response :=
    List.filter_eq_self.mpr fun f hf => decide_eq_true ((encode_ids hresponse).2 f hf)
  rw [exchange,hsends,run_cons,hstep]
  refine ⟨hrequests,response,hresponse,?_⟩
  simp only [heard,List.flatMap_append,List.filter_append,hemitted,hheard]
  exact List.suffix_append _ _

theorem two_ids_incomplete (h8 : 8 ≤ p.length) (hm : p.length ≤ 4095)
    (hmax : node.receiver.maxPayload = 4095)
    (hid : 0 ≤ node.requestId ∧ node.requestId ≤ 0x7FF)
    (hne : node.requestId ≠ node.responseId) : ¬Completes node p := by
  intro hc
  obtain ⟨frames,hframes,_⟩ := encode_segments hid p (by omega) hm
  obtain ⟨hrequests,_⟩ := hc frames hframes
  obtain ⟨first,rest,rfl,hfirst,_⟩ := request_frames hid h8 hm hframes
  have hfid := (encode_ids hframes).2 first (List.mem_cons_self ..)
  obtain ⟨hstep,_⟩ := step_first h8 hm hmax hfid hfirst
  have hflow : (hostFlowControl first).canId ≠ node.responseId :=
    fun h => hne (hfid.symm.trans h)
  have hsends : testerSends node (first::rest) = [first] := by
    simp [testerSends,hstep,heard,hflow]
  rw [exchange,hsends,run_cons,hstep] at hrequests
  cases hrequests

end Exchange

theorem run_ids (node : UdsIsoTpNode σ)
    (h : 0 ≤ node.requestId ∧ node.requestId ≤ 0x7FF → node.requestId = node.responseId)
    (frames : List CanFrame) :
    ∀ report ∈ (run nodeStep node frames).2, ∀ f ∈ report.emitted,
      f.canId = node.responseId := by
  induction frames generalizing node with
  | nil => simp
  | cons frame frames ih =>
    obtain ⟨hq,hr,_⟩ := step_kept node frame
    intro report hreport f hf
    rcases List.mem_append.mp hreport with hreport | hreport
    · obtain ⟨hframe,hf⟩ := step_ids node frame report hreport f hf
      have hsame := h (hframe ▸ frame.idRange)
      exact hf.elim (fun hf => hf.trans hsame) id
    · exact (ih _ (by rw [hq,hr]; exact h) report hreport f hf).trans hr

/-- The node serves its testers exactly when its two identifiers are the same,
or no classic frame can carry the request identifier at all. -/
theorem serves_iff (requestId responseId : ℤ) (server : UdsServer σ) :
    Serves (udsIsoTpNode requestId responseId server) ↔
      (0 ≤ requestId ∧ requestId ≤ 0x7FF → requestId = responseId) := by
  have hkept := run_kept (udsIsoTpNode requestId responseId server)
  constructor
  · intro h hid
    by_contra hne
    obtain ⟨hq,hr,hm⟩ := hkept []
    exact two_ids_incomplete (p := List.replicate 8 0) (by simp) (by simp) hm hid hne
      (h.1 [] _ (by simp) (by simp))
  · intro h
    refine ⟨fun before p h8 hm => ?_,fun frames => ?_⟩
    · obtain ⟨hq,hr,hmax⟩ := hkept before
      by_cases hid : 0 ≤ requestId ∧ requestId ≤ 0x7FF
      · exact one_id_completes h8 hm hmax (hq.trans ((h hid).trans hr.symm))
      · intro sent hsent
        have hrange := (encode_ids hsent).1
        rw [hq] at hrange
        exact absurd hrange hid
    · exact run_ids _ h frames

end Node

/-- A node without data identifiers, on the identifiers of the repository's tests. -/
def testedNode : UdsIsoTpNode Unit :=
  udsIsoTpNode 0x600 0x580 ⟨fun _ _ => ((),none),fun _ _ _ => ((),false),(),0x01,false⟩

/-- A write request of eight bytes. -/
def eightByteRequest : List UInt8 := [0x2E,0xF1,0x87,1,2,3,4,5]

theorem tested_node_fails :
    ((isotpEncode testedNode.requestId eightByteRequest).map fun frames =>
        (frames.length,exchange testedNode frames)) =
      .ok (2,[⟨none,[⟨0x600,[0x30,0x00,0x00],by decide,by decide⟩]⟩]) ∧
      ¬Serves testedNode := by
  refine ⟨by decide +kernel,fun h => ?_⟩
  have hnot := (h.1 [] eightByteRequest (by decide) (by decide))
  exact two_ids_incomplete (by decide) (by decide) rfl (by decide) (by decide) hnot

end CanopenReference.UdsIsotpNode
