import CanopenReference.UdsIsotpNode

/-!
# Encoding and decoding on the host

The frames of the host encoder are fed to a host receiver that may have been
fed anything before. What an earlier reception has left is overwritten by the
First Frame, and a single frame does not look at it.
-/

set_option autoImplicit false

namespace CanopenReference.HostRoundTrip
open Library.Runs IsoTpDelivery IsoTpEncoding IsoTpAgreement UdsIsotp UdsIsotpNode

def feedStep (r : IsoTpReceiver) (f : CanFrame) : IsoTpReceiver × List Fed :=
  let fed := feed r f
  (fed.1,[fed.2])

/-- The last answer is the payload, and those before are neither payloads nor errors. -/
def YieldsLast (p : List UInt8) (answers : List Fed) : Prop :=
  ∃ silent flow, answers = silent++[.ok (flow,some p)] ∧
    ∀ answer ∈ silent, ∃ flow, answer = .ok (flow,none)

section Frames
variable {p : List UInt8} {r : IsoTpReceiver}

theorem yields_cons {flow : List CanFrame} {answers : List Fed} (h : YieldsLast p answers) :
    YieldsLast p (.ok (flow,none)::answers) := by
  obtain ⟨silent,last,rfl,hsilent⟩ := h
  exact ⟨.ok (flow,none)::silent,last,rfl,List.forall_mem_cons.mpr ⟨⟨flow,rfl⟩,hsilent⟩⟩

theorem feed_single_segment {f : CanFrame} (h1 : 1 ≤ p.length) (h7 : p.length ≤ 7)
    (hd : f.data = segmentBytes p 0) : feed r f = (r,.ok ([],some p)) := by
  obtain ⟨htype,hlow⟩ := single_pci p.length (by omega)
  rw [segmentBytes,if_pos h7] at hd
  have hpci : pci f = 0 := by
    rw [pci,hd,List.getD_cons_zero]
    exact byte_pci _ 0 htype (by decide)
  have hlength : low f = p.length := by
    rw [UInt8.toNat_and] at hlow
    rw [low,hd,List.getD_cons_zero]
    exact hlow
  have hsize : f.data.length = p.length+1 := by
    rw [hd]
    rfl
  have hdrop : (f.data.drop 1).take p.length = p := by
    rw [hd]
    exact List.take_length
  rw [feed,if_neg (fun he => by rw [he] at hsize; cases hsize),if_pos hpci,feedSingle,hlength,
    if_neg (by omega),hdrop]

theorem rest_yields (frames : List CanFrame) (k : ℕ) (hp : 7 < p.length) (h : Received p r k)
    (hk : k < consecutives p)
    (hdata : frames.map CanFrame.data =
      (List.range' (k+1) (consecutives p-k)).map (segmentBytes p)) :
    YieldsLast p (run feedStep r frames).2 := by
  induction frames generalizing r k with
  | nil =>
    rw [show consecutives p-k = consecutives p-(k+1)+1 by omega] at hdata
    cases hdata
  | cons f frames ih =>
    rw [show consecutives p-k = consecutives p-(k+1)+1 by omega,List.range'_succ,List.map_cons,
      List.map_cons,List.cons.injEq] at hdata
    obtain ⟨hd,hrest⟩ := hdata
    obtain ⟨r',hfed,hnext⟩ := feed_next_segment hp h hk hd
    have hstep : feedStep r f = (r',[.ok ([],if k+1 = consecutives p then some p else none)]) := by
      rw [feedStep,hfed]
    rw [run_cons,hstep]
    by_cases hlast : k+1 = consecutives p
    · rw [hlast,Nat.sub_self] at hrest
      rw [if_pos hlast,List.map_eq_nil_iff.mp hrest]
      exact ⟨[],[],rfl,fun x hx => by cases hx⟩
    · rw [if_neg hlast]
      exact yields_cons (ih (k+1) (hnext (by omega)) (by omega) hrest)

theorem segments_yield (frames : List CanFrame) (h1 : 1 ≤ p.length) (hm : p.length ≤ 4095)
    (hmax : r.maxPayload = 4095)
    (hdata : frames.map CanFrame.data = (List.range (consecutives p+1)).map (segmentBytes p)) :
    YieldsLast p (run feedStep r frames).2 := by
  cases frames with
  | nil =>
    rw [List.range_succ_eq_map] at hdata
    cases hdata
  | cons f frames =>
    rw [List.range_eq_range',List.range'_succ,List.map_cons,List.map_cons,List.cons.injEq] at hdata
    obtain ⟨hd,hrest⟩ := hdata
    rw [run_cons]
    by_cases h7 : p.length ≤ 7
    · have hnone : consecutives p = 0 := if_pos h7
      rw [hnone] at hrest
      rw [feedStep,feed_single_segment h1 h7 hd,List.map_eq_nil_iff.mp hrest]
      exact ⟨[],[],rfl,fun x hx => by cases hx⟩
    · obtain ⟨hfed,hreceived⟩ := feed_first_segment (by omega) hm hmax hd
      have hstep : feedStep r f = (opened r f,[.ok ([hostFlowControl f],none)]) := by
        rw [feedStep,hfed]
      have hpos : 0 < consecutives p := by
        rw [consecutives,if_neg h7]
        omega
      rw [hstep]
      exact yields_cons (rest_yields frames 0 (by omega) hreceived hpos hrest)

end Frames

theorem run_max_payload (r : IsoTpReceiver) (frames : List CanFrame) :
    (run feedStep r frames).1.maxPayload = r.maxPayload := by
  induction frames generalizing r with
  | nil => rfl
  | cons f frames ih =>
    rw [run_cons]
    exact (ih _).trans (feed_max_payload r f)

/-- Whatever frames came before, the encoded frames of a payload raise nothing,
yield nothing up to the last one, and there yield the payload. -/
theorem payload_round_trip (canId : ℤ) (p : List UInt8) (r : IsoTpReceiver)
    (before : List CanFrame) (hid : 0 ≤ canId ∧ canId ≤ 0x7FF) (h1 : 1 ≤ p.length)
    (hm : p.length ≤ 4095) (hmax : r.maxPayload = 4095) :
    ∃ frames, isotpEncode canId p = .ok frames ∧
      YieldsLast p (run feedStep (run feedStep r before).1 frames).2 := by
  obtain ⟨frames,hencode,hdata⟩ := encode_segments hid p h1 hm
  exact ⟨frames,hencode,segments_yield frames h1 hm ((run_max_payload r before).trans hmax) hdata⟩

theorem payload_round_trip_interrupted : ∃ frames, isotpEncode 0x7E0 [9,8,7,6,5,4,3,2] = .ok frames ∧
    YieldsLast [9,8,7,6,5,4,3,2] (run feedStep
      (run feedStep isoTpReceiver [⟨0x7E0,[0x10,0x08,1,2,3,4,5,6],by decide,by decide⟩]).1
      frames).2 :=
  payload_round_trip 0x7E0 [9,8,7,6,5,4,3,2] isoTpReceiver _ (by decide) (by decide) (by decide) rfl

end CanopenReference.HostRoundTrip
