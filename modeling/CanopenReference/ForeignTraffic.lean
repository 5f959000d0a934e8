import CanopenReference.IsoTpDeadlines
import CanopenReference.IsoTpDelivery

/-!
# Reception amid foreign traffic

The frames of one payload arrive in order, and anything that the receiver must
not take comes between them. Such frames change nothing and report nothing, so
the payload is received as if they had not been there.
-/

set_option autoImplicit false

namespace CanopenReference.ForeignTraffic
open Library Library.Runs IsoTp IsoTpReceiver IsoTpDelivery IsoTpDeadlines

/-- Another identifier, no data, flow control, a malformed single frame, a First
Frame without its length, or a reserved PCI type. -/
def Foreign (id : UInt32) (f : IsoTpCanFrame) : Prop :=
  f.canId ≠ id ∨ f.dlc = 0 ∨ pciType f = 3 ∨
    pciType f = 0 ∧ (pciLow f = 0 ∨ 7 < pciLow f ∨ f.dlc < pciLow f+1) ∨
    pciType f = 1 ∧ f.dlc < 2 ∨ 4 ≤ pciType f

instance foreignDecidable (id : UInt32) (f : IsoTpCanFrame) : Decidable (Foreign id f) :=
  inferInstanceAs (Decidable (_ ∨ _))

/-- The calls that feed a frame which is not foreign. -/
def ownCall (id : UInt32) : RxCall → Bool
  | .feed f _ => !decide (Foreign id f)
  | .tick _ => false

structure RxReport where
  call : RxCall
  status : IsoTpStatus
  event : IsoTpRxEvent
  deriving DecidableEq

def reportStep (rx : IsoTpRx) : RxCall → IsoTpRx × List RxReport
  | .feed f now =>
    let r := isotpRxFeed rx f now
    (r.1,[⟨.feed f now,r.2.1,r.2.2⟩])
  | .tick now =>
    let r := isotpRxTick rx now
    (r.1,[⟨.tick now,r.2,noEvent⟩])

/-- No clock tick finds the reception late. -/
def TicksInTime (rx : IsoTpRx) : RxCall → Prop
  | .feed _ _ => True
  | .tick now => rxLate rx now = false

def fedFrame : RxCall → Option IsoTpCanFrame
  | .feed f _ => some f
  | .tick _ => none

section Foreign
variable {rx : IsoTpRx} {f : IsoTpCanFrame} {now : UInt32}

theorem foreign_single (h : Foreign rx.requestId f) : ¬ValidSingle rx.requestId f := by
  rintro ⟨⟨hid,_⟩,htype,hlow,hhigh,hdlc⟩
  rcases h with h | h | h | ⟨_,h⟩ | ⟨h,_⟩ | h
  · exact h hid
  · omega
  · exact absurd (htype.symm.trans h) (by decide)
  · omega
  · exact absurd (htype.symm.trans h) (by decide)
  · rw [htype] at h
    exact absurd h (by decide)

theorem foreign_first (h : Foreign rx.requestId f) : ¬FirstFrame rx.requestId f := by
  rintro ⟨⟨hid,_⟩,hdlc,htype⟩
  rcases h with h | h | h | ⟨h,_⟩ | ⟨_,h⟩ | h
  · exact h hid
  · omega
  · exact absurd (htype.symm.trans h) (by decide)
  · exact absurd (htype.symm.trans h) (by decide)
  · omega
  · rw [htype] at h
    exact absurd h (by decide)

theorem foreign_consecutive (h : Foreign rx.requestId f) : ¬Consecutive rx.requestId f := by
  rintro ⟨⟨hid,_⟩,hdlc,htype⟩
  rcases h with h | h | h | ⟨h,_⟩ | ⟨h,_⟩ | h
  · exact h hid
  · omega
  · exact absurd (htype.symm.trans h) (by decide)
  · exact absurd (htype.symm.trans h) (by decide)
  · exact absurd (htype.symm.trans h) (by decide)
  · rw [htype] at h
    exact absurd h (by decide)

theorem foreign_ignored (now : UInt32) (h : Foreign rx.requestId f) :
    ∃ status, isotpRxFeed rx f now = (rx,status,noEvent) := by
  have ho := rx_outcome rx f now
  generalize isotpRxFeed rx f now = r at ho
  cases ho with
  | ignored status _ _ _ _ => exact ⟨status,rfl⟩
  | single hsingle => exact absurd hsingle (foreign_single h)
  | refused _ _ hfirst _ => exact absurd hfirst (foreign_first h)
  | started hfirst _ _ => exact absurd hfirst (foreign_first h)
  | outOfSequence hnext _ _ => exact absurd hnext (foreign_consecutive h)
  | extended hnext _ _ _ _ => exact absurd hnext (foreign_consecutive h)
  | blockEnd hnext _ _ _ _ => exact absurd hnext (foreign_consecutive h)
  | finished hnext _ _ _ => exact absurd hnext (foreign_consecutive h)

theorem feed_side : SameSide rx (isotpRxFeed rx f now).1 := by
  have ho := rx_outcome rx f now
  generalize isotpRxFeed rx f now = r at ho ⊢
  cases ho <;> exact ⟨rfl,rfl,rfl⟩

theorem tick_side : SameSide rx (isotpRxTick rx now).1 := by
  rw [rx_tick_eq]
  by_cases hl : rxLate rx now = true
  · rw [if_pos hl]
    exact ⟨rfl,rfl,rfl⟩
  · rw [if_neg hl]
    exact ⟨rfl,rfl,rfl⟩

end Foreign

theorem stray_ignored {rx : IsoTpRx} {call : RxCall} (hin : TicksInTime rx call)
    (h : ownCall rx.requestId call = false) :
    (reportStep rx call).1 = rx ∧ ∀ r ∈ (reportStep rx call).2, r.event = noEvent := by
  cases call with
  | feed f now =>
    have hf : Foreign rx.requestId f := by simpa [ownCall] using h
    obtain ⟨status,hfeed⟩ := foreign_ignored now hf
    simp [reportStep,hfeed]
  | tick now =>
    have hl : rxLate rx now = false := hin
    simp [reportStep,rx_tick_eq,hl]

theorem report_call (rx : IsoTpRx) (call : RxCall) : ∀ r ∈ (reportStep rx call).2, r.call = call := by
  intro r hr
  cases call with
  | feed f now => rw [List.mem_singleton.mp hr]
  | tick now => rw [List.mem_singleton.mp hr]

theorem report_side (rx : IsoTpRx) (call : RxCall) : SameSide rx (reportStep rx call).1 := by
  cases call with
  | feed f now => exact feed_side
  | tick now => exact tick_side

/-- The answer to frame `k` of a payload. -/
def reply (p : List UInt8) (rx : IsoTpRx) (k : ℕ) : IsoTpStatus × IsoTpRxEvent :=
  if k = consecutives p then (.complete,⟨some p,none⟩)
  else if Boundary p rx k then (.needFlowControl,⟨none,some (rxMakeFlowControl rx)⟩)
  else (.ok,noEvent)

theorem side_reply {rx rx' : IsoTpRx} (h : SameSide rx rx') (p : List UInt8) :
    reply p rx' = reply p rx := by
  funext k
  simp only [reply,side_boundary h,side_flow h]

theorem reception_one (status : IsoTpStatus) (payload : Option (List UInt8)) :
    receptions [.receiver status payload] = if status = .complete then [payload] else [] := by
  cases status <;> rfl

theorem taken_reply {p : List UInt8} {rx : IsoTpRx} {k : ℕ} {f : IsoTpCanFrame} {now : UInt32}
    (h : Taken p rx k (isotpRxFeed rx f now)) : (isotpRxFeed rx f now).2 = reply p rx k := by
  have ho := rx_outcome rx f now
  obtain ⟨_,_,hfine,hdelivers,hflow⟩ := h
  generalize isotpRxFeed rx f now = r at ho hfine hdelivers hflow ⊢
  rw [reception_one] at hdelivers
  unfold reply
  by_cases hlast : k = consecutives p
  · rw [if_pos hlast] at hdelivers ⊢
    rw [hlast,if_neg (boundary_last p rx)] at hflow
    obtain ⟨rx',status,payload,flow⟩ := r
    by_cases hs : status = .complete
    · rw [if_pos hs] at hdelivers
      have hp := (List.cons.inj hdelivers).1
      simp only at hp hflow
      rw [hs,hp,hflow]
    · rw [if_neg hs] at hdelivers
      cases hdelivers
  · rw [if_neg hlast] at hdelivers ⊢
    have hopen : Boundary p rx k ∨ ¬Boundary p rx k := Classical.em _
    cases ho with
    | ignored status hstatus _ _ _ =>
      rcases hopen with hb | hb
      · rw [if_pos hb] at hflow
        cases hflow
      · rw [if_neg hb]
        rcases hstatus with rfl | rfl | rfl | rfl
        · rfl
        all_goals cases hfine
    | single _ => cases hdelivers
    | refused status hstatus _ _ => rcases hstatus with rfl | rfl <;> cases hfine
    | started _ _ _ =>
      rcases hopen with hb | hb
      · rw [if_pos hb]
      · rw [if_neg hb] at hflow
        cases hflow
    | outOfSequence _ _ _ => cases hfine
    | extended _ _ _ _ _ =>
      rcases hopen with hb | hb
      · rw [if_pos hb] at hflow
        cases hflow
      · rw [if_neg hb]
    | blockEnd _ _ _ _ _ =>
      rcases hopen with hb | hb
      · rw [if_pos hb]
      · rw [if_neg hb] at hflow
        cases hflow
    | finished _ _ _ _ => cases hdelivers

theorem own_replies {p : List UInt8} (h8 : 8 ≤ p.length) (hm : p.length ≤ 4095) (rx : IsoTpRx)
    (k : ℕ) (calls : List RxCall) (hk : k = 0 ∨ RxAt p rx k)
    (hown : ∀ call ∈ calls, ownCall rx.requestId call = true)
    (hframes : calls.filterMap fedFrame =
      (List.range' k (consecutives p+1-k)).map (wire rx.requestId p)) :
    (run reportStep rx calls).2.map (fun r => (r.status,r.event)) =
      (List.range' k (consecutives p+1-k)).map (reply p rx) := by
  induction calls generalizing rx k with
  | nil =>
    have hnone := congrArg List.length hframes
    simp only [List.filterMap_nil,List.length_nil,List.length_map,List.length_range'] at hnone
    rw [← hnone]
    rfl
  | cons call calls ih =>
    obtain ⟨hfirst,hrest⟩ := List.forall_mem_cons.mp hown
    cases call with
    | tick now => cases hfirst
    | feed f now =>
      by_cases hle : k ≤ consecutives p
      · have hsplit : consecutives p+1-k = (consecutives p+1-(k+1))+1 := by omega
        rw [hsplit,List.range'_succ,List.map_cons] at hframes ⊢
        obtain ⟨hf,htail⟩ := List.cons.inj hframes
        have htaken : Taken p rx k (isotpRxFeed rx f now) := by
          have hf' : f = wire rx.requestId p k := hf
          rcases hk with rfl | hat
          · rw [hf',wire,if_neg (by omega)]
            exact rx_takes_first now h8 hm
          · rw [hf']
            exact rx_takes now (by omega) hm hat hle
        have hside : SameSide rx (reportStep rx (.feed f now)).1 := htaken.side
        have hstep : (reportStep rx (.feed f now)).1.requestId = rx.requestId := hside.2.1
        have htail' := ih (reportStep rx (.feed f now)).1 (k+1) (Or.inr htaken.rxAt)
          (hstep ▸ hrest) (hstep ▸ htail)
        rw [run_cons,List.map_append,htail',side_reply hside]
        show (isotpRxFeed rx f now).2::_ = _
        rw [taken_reply htaken]
        rfl
      · have hnone : consecutives p+1-k = 0 := by omega
        rw [hnone] at hframes
        cases hframes

/-- However many foreign frames and clock ticks in time come between them, the
own frames of a payload are answered as they are without the others: with the
payload at the last of them, and with flow control at the same ones. -/
theorem foreign_traffic_tolerated (rx : IsoTpRx) (p : List UInt8) (calls : List RxCall)
    (h8 : 8 ≤ p.length) (hm : p.length ≤ 4095)
    (hframes : (calls.filter (ownCall rx.requestId)).filterMap fedFrame =
      (List.range (consecutives p+1)).map (wire rx.requestId p))
    (hin : Along reportStep TicksInTime rx calls) :
    let reports := (run reportStep rx calls).2
    let own := reports.filter (fun r => ownCall rx.requestId r.call)
    own = (run reportStep rx (calls.filter (ownCall rx.requestId))).2 ∧
      own.map (fun r => (r.status,r.event)) = (List.range (consecutives p+1)).map (reply p rx) ∧
      ∀ r ∈ reports, ownCall rx.requestId r.call = false → r.event = noEvent := by
  intro reports own
  have hside : ∀ s call, s.requestId = rx.requestId →
      (reportStep s call).1.requestId = rx.requestId :=
    fun s call hs => (report_side s call).2.1.trans hs
  have hstray : ∀ s call, s.requestId = rx.requestId → TicksInTime s call →
      ownCall rx.requestId call = false →
      (reportStep s call).1 = s ∧ ∀ r ∈ (reportStep s call).2, r.event = noEvent := by
    intro s call hs hc hstray
    exact stray_ignored hc (hs ▸ hstray)
  have hquiet : Along reportStep
      (fun s call => ownCall rx.requestId call = false → (reportStep s call).1 = s) rx calls := by
    have hboth := (along_congr reportStep (fun s => s.requestId = rx.requestId) hside
      (fun s call hs => (⟨fun hc => ⟨hc,fun ho => (hstray s call hs hc ho).1⟩,fun h => h.1⟩ :
        TicksInTime s call ↔ TicksInTime s call ∧
          (ownCall rx.requestId call = false → (reportStep s call).1 = s))) rx calls rfl).mp hin
    exact along_mono reportStep (fun _ _ h => h.2) rx calls hboth
  obtain ⟨_,hsame⟩ := run_without reportStep (ownCall rx.requestId)
    (fun r => ownCall rx.requestId r.call)
    (fun s call hk r hr => by rw [report_call s call r hr]; exact hk)
    (fun s call hk r hr => by rw [report_call s call r hr]; exact hk) rx calls hquiet
  have hreplies := own_replies h8 hm rx 0 (calls.filter (ownCall rx.requestId)) (Or.inl rfl)
    (fun call hcall => (List.mem_filter.mp hcall).2) (by rw [hframes,List.range_eq_range']; rfl)
  refine ⟨hsame.symm,?_,?_⟩
  · rw [show own = _ from hsame.symm,hreplies,List.range_eq_range']
    rfl
  · exact along_events reportStep TicksInTime (fun s => s.requestId = rx.requestId)
      (fun r => ownCall rx.requestId r.call = false → r.event = noEvent)
      (fun s call hs _ => hside s call hs)
      (fun s call hs hc r hr ho => (hstray s call hs hc (report_call s call r hr ▸ ho)).2 r hr)
      rx calls rfl hin

/-- Eight bytes amid an empty frame, flow control, a reserved type, a short First
Frame, a single frame of no bytes, another identifier and a tick. -/
def mixedCalls : List RxCall :=
  [.feed (filledFrame 0x7E8 []) 0,.feed (wire 0x7E8 [1,2,3,4,5,6,7,8] 0) 1,
    .feed (filledFrame 0x7E8 [0x30,0,0]) 2,.feed (filledFrame 0x7E8 [0x90,1]) 3,.tick 4,
    .feed (filledFrame 0x7E8 [0x10]) 5,.feed (filledFrame 0x7E8 [0x00]) 6,
    .feed (filledFrame 0x123 [0x21,7,8]) 7,.feed (wire 0x7E8 [1,2,3,4,5,6,7,8] 1) 8]

theorem foreign_traffic_tolerated_eight :
    ((run reportStep testerRx mixedCalls).2.filter
      (fun r => ownCall testerRx.requestId r.call)).map (fun r => (r.status,r.event)) =
      [(.needFlowControl,⟨none,some (rxMakeFlowControl testerRx)⟩),
        (.complete,⟨some [1,2,3,4,5,6,7,8],none⟩)] := by
  have h := (foreign_traffic_tolerated testerRx [1,2,3,4,5,6,7,8] mixedCalls (by decide)
    (by decide) (by decide +kernel)
    ⟨trivial,trivial,trivial,trivial,by show rxLate _ 4 = false; decide +kernel,trivial,trivial,
      trivial,trivial,trivial⟩).2.1
  exact h

end CanopenReference.ForeignTraffic
