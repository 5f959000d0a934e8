import CanopenReference.ForeignTraffic
import CanopenReference.Reception

/-!
# A request on its way to the server

The frames of one request arrive in order, at any moments between the stages of
the passes and amid other frames. The server is handed the request once.
-/

set_option autoImplicit false

namespace CanopenReference.RequestDelivery
open Library Library.Runs IsoTp IsoTpReceiver IsoTpDelivery IsoTpDeadlines ForeignTraffic Uds
  UdsStm32 Diagnostics ResponseTransmission Reception

/-- A frame that the receiver may have to take. -/
def own (frame : IsoTpCanFrame) : Bool := !decide (Foreign udsRxCanId frame)

def received : Stage → Option IsoTpCanFrame
  | .receive frame => some (trimmed frame)
  | _ => none

/-- The frames of a request, in order. -/
def requestFrames (p : List UInt8) : List IsoTpCanFrame :=
  (List.range (consecutives p+1)).map (wire udsRxCanId p)

section Delivery
variable {μ : Type} {p : List UInt8}

/-- A frame that matters finds room in the queue, and no tick finds the
reception late. -/
def Smooth (s : ReceivePath μ) : Stage → Prop
  | .receive frame => own (trimmed frame) = true → queues s.waiting frame = true
  | .tick now => rxLate s.receiver now = false
  | _ => True

instance smoothDecidable (s : ReceivePath μ) : ∀ a, Decidable (Smooth s a)
  | .receive frame =>
    inferInstanceAs (Decidable (own (trimmed frame) = true → queues s.waiting frame = true))
  | .tick now => inferInstanceAs (Decidable (rxLate s.receiver now = false))
  | .begin _ | .frame _ | .poll _ | .send _ | .clearReset => inferInstanceAs (Decidable True)

theorem wire_addressed (id : UInt32) (p : List UInt8) (k : ℕ) : (wire id p k).canId = id := by
  cases k with
  | zero =>
    dsimp only [wire]
    split <;> rfl
  | succ k => rfl

theorem takes_wire {rx : IsoTpRx} {k : ℕ} (now : UInt32) (h1 : 1 ≤ p.length)
    (hm : p.length ≤ 4095) (hat : k = 0 ∨ RxAt p rx k) (hk : k ≤ consecutives p) :
    Taken p rx k (isotpRxFeed rx (wire rx.requestId p k) now) := by
  rcases hat with rfl | hat
  · by_cases h7 : p.length ≤ 7
    · rw [wire,if_pos h7]
      exact rx_takes_single now h1 h7
    · rw [wire,if_neg h7]
      exact rx_takes_first now (by omega) hm
  · exact rx_takes now h1 hm hat hk

theorem taken_completes {rx : IsoTpRx} {frame : IsoTpCanFrame} {now : UInt32} {k : ℕ}
    (hid : frame.canId = udsRxCanId) (h : Taken p rx k (isotpRxFeed rx frame now)) :
    completes rx frame now = if k = consecutives p then some p else none := by
  have hdelivers := h.delivers
  rw [reception_one] at hdelivers
  rw [completes,if_pos hid]
  by_cases hs : (isotpRxFeed rx frame now).2.1 = .complete
  · rw [if_pos hs] at hdelivers
    rw [hs]
    split at hdelivers
    · rename_i hk
      rw [if_pos hk]
      exact (List.cons.inj hdelivers).1
    · cases hdelivers
  · rw [if_neg hs] at hdelivers
    split at hdelivers
    · cases hdelivers
    · rename_i hk
      rw [if_neg hk]
      cases hstatus : (isotpRxFeed rx frame now).2.1 <;> first | rfl | exact absurd hstatus hs

theorem foreign_passes {rx : IsoTpRx} {frame : IsoTpCanFrame} (now : UInt32)
    (hid : rx.requestId = udsRxCanId) (h : own frame = false) :
    fed rx frame now = rx ∧ completes rx frame now = none := by
  have hforeign : Foreign rx.requestId frame := by
    rw [hid]
    simpa [own] using h
  obtain ⟨status,hfeed⟩ := foreign_ignored now hforeign
  unfold fed completes
  rw [hfeed]
  split
  · refine ⟨rfl,?_⟩
    cases status <;> rfl
  · exact ⟨rfl,rfl⟩

/-- Of the request's frames, `k` were taken from the queue, those up to `m` wait
in it, and the others are yet to come. -/
structure Underway (p : List UInt8) (s : ReceivePath μ) (stages : List Stage) (k m : ℕ) :
    Prop where
  order : k ≤ m
  bound : m ≤ consecutives p+1
  requestId : s.receiver.requestId = udsRxCanId
  receiver : k = 0 ∨ RxAt p s.receiver k
  waiting : s.waiting.filter own = (List.range' k (m-k)).map (wire udsRxCanId p)
  coming : (stages.filterMap received).filter own =
    (List.range' m (consecutives p+1-m)).map (wire udsRxCanId p)

theorem received_underway {s : ReceivePath μ} {frame : IsoTpCanFrame} {stages : List Stage}
    {k m : ℕ} (h : Underway p s (.receive frame::stages) k m) (hsmooth : Smooth s (.receive frame)) :
    ∃ m', Underway p (pathStep s (.receive frame)).1 stages k m' := by
  have hcoming : (trimmed frame::stages.filterMap received).filter own =
      (List.range' m (consecutives p+1-m)).map (wire udsRxCanId p) := h.coming
  have hwaiting := h.waiting
  cases hown : own (trimmed frame) with
  | true =>
    rw [List.filter_cons_of_pos hown] at hcoming
    have hm : m ≤ consecutives p := by
      by_contra hm
      have hzero : consecutives p+1-m = 0 := by omega
      rw [hzero] at hcoming
      cases hcoming
    have hsplit : consecutives p+1-m = (consecutives p+1-(m+1))+1 := by omega
    rw [hsplit,List.range'_succ,List.map_cons] at hcoming
    obtain ⟨hframe,hrest⟩ := List.cons.inj hcoming
    refine ⟨m+1,Nat.le_succ_of_le h.order,Nat.succ_le_succ hm,h.requestId,h.receiver,?_,hrest⟩
    have horder := h.order
    dsimp only [pathStep]
    rw [if_pos (hsmooth hown),List.filter_append,hwaiting,List.filter_cons_of_pos hown,hframe,
      show m+1-k = (m-k)+1 by omega,List.range'_concat,List.map_append]
    simp only [List.filter_nil,List.map_cons,List.map_nil,Nat.one_mul]
    rw [Nat.add_sub_cancel' horder]
  | false =>
    rw [List.filter_cons_of_neg (by rw [hown]; exact Bool.false_ne_true)] at hcoming
    refine ⟨m,h.order,h.bound,h.requestId,h.receiver,?_,hcoming⟩
    dsimp only [pathStep]
    split
    · rw [List.filter_append,List.filter_cons_of_neg (by rw [hown]; exact Bool.false_ne_true),
        List.filter_nil,List.append_nil]
      exact hwaiting
    · exact hwaiting

theorem taken_underway {s : ReceivePath μ} {stages : List Stage} {k m : ℕ} (now : UInt32)
    (h1 : 1 ≤ p.length) (hm : p.length ≤ 4095) (h : Underway p s (.frame now::stages) k m) :
    ∃ k', Underway p (pathStep s (.frame now)).1 stages k' m ∧
      (pathStep s (.frame now)).2++(if k' ≤ consecutives p then [p] else []) =
        if k ≤ consecutives p then [p] else [] := by
  have hwaiting := h.waiting
  have hcoming : (stages.filterMap received).filter own =
      (List.range' m (consecutives p+1-m)).map (wire udsRxCanId p) := h.coming
  cases hw : s.waiting with
  | nil =>
    have hstay : pathStep s (.frame now) = (s,[]) := by
      unfold pathStep
      dsimp only
      rw [hw]
    rw [hstay]
    exact ⟨k,⟨h.order,h.bound,h.requestId,h.receiver,hwaiting,hcoming⟩,rfl⟩
  | cons frame rest =>
    have hstep : pathStep s (.frame now) =
        (⟨rest,fed s.receiver frame now,
            handled s.application (completes s.receiver frame now) now⟩,
          (completes s.receiver frame now).toList) := by
      unfold pathStep
      dsimp only
      rw [hw]
    rw [hw] at hwaiting
    rw [hstep]
    cases hown : own frame with
    | false =>
      rw [List.filter_cons_of_neg (by rw [hown]; exact Bool.false_ne_true)] at hwaiting
      obtain ⟨hfed,hnone⟩ := foreign_passes now h.requestId hown
      rw [hfed,hnone]
      exact ⟨k,⟨h.order,h.bound,h.requestId,h.receiver,hwaiting,hcoming⟩,rfl⟩
    | true =>
      rw [List.filter_cons_of_pos hown] at hwaiting
      have hkm : k < m := by
        by_contra hkm
        rw [show m-k = 0 by omega] at hwaiting
        cases hwaiting
      rw [show m-k = (m-(k+1))+1 by omega,List.range'_succ,List.map_cons] at hwaiting
      obtain ⟨hframe,hrest⟩ := List.cons.inj hwaiting
      have hbound := h.bound
      have hk : k ≤ consecutives p := by omega
      have hid : frame.canId = udsRxCanId := by rw [hframe,wire_addressed]
      have htaken : Taken p s.receiver k (isotpRxFeed s.receiver frame now) := by
        rw [hframe,← h.requestId]
        exact takes_wire now h1 hm h.receiver hk
      have hfed : fed s.receiver frame now = (isotpRxFeed s.receiver frame now).1 := if_pos hid
      rw [hfed,taken_completes hid htaken]
      refine ⟨k+1,⟨hkm,h.bound,htaken.side.2.1.trans h.requestId,Or.inr htaken.rxAt,hrest,hcoming⟩,
        ?_⟩
      rw [if_pos hk]
      by_cases hlast : k = consecutives p
      · rw [if_pos hlast,if_neg (by omega)]
        rfl
      · rw [if_neg hlast,if_pos (by omega)]
        rfl

theorem other_underway {s s' : ReceivePath μ} {a : Stage} {stages : List Stage} {k m : ℕ}
    (h : Underway p s (a::stages) k m) (ha : received a = none) (hwaiting : s'.waiting = s.waiting)
    (hreceiver : s'.receiver = s.receiver) : Underway p s' stages k m := by
  have hcoming := h.coming
  rw [List.filterMap_cons_none ha] at hcoming
  refine ⟨h.order,h.bound,?_,?_,?_,hcoming⟩
  · rw [hreceiver]
    exact h.requestId
  · rw [hreceiver]
    exact h.receiver
  · rw [hwaiting]
    exact h.waiting

/-- From any point of the way on, the rest of the stages hands over the request
once, or not again. -/
theorem path_delivers (h1 : 1 ≤ p.length) (hm : p.length ≤ 4095) {s : ReceivePath μ}
    (stages : List Stage) {k m : ℕ} (h : Underway p s stages k m)
    (hsmooth : Along pathStep Smooth s stages) (hend : (run pathStep s stages).1.waiting = []) :
    (run pathStep s stages).2 = if k ≤ consecutives p then [p] else [] := by
  induction stages generalizing s k m with
  | nil =>
    have hwaiting := congrArg List.length h.waiting
    have hcoming := congrArg List.length h.coming
    have hnone : s.waiting = [] := hend
    rw [hnone] at hwaiting
    simp only [List.filter_nil,List.length_nil,List.length_map,List.length_range',
      List.filterMap_nil] at hwaiting hcoming
    have horder := h.order
    rw [if_neg (by omega)]
    rfl
  | cons a stages ih =>
    obtain ⟨hthis,hlater⟩ := hsmooth
    rw [run_cons] at hend ⊢
    cases a with
    | receive frame =>
      obtain ⟨m',hnext⟩ := received_underway h hthis
      exact ih hnext hlater hend
    | frame now =>
      obtain ⟨k',hnext,hevents⟩ := taken_underway now h1 hm h
      rw [ih hnext hlater hend]
      exact hevents
    | tick now =>
      have hsame : (isotpRxTick s.receiver now).1 = s.receiver := by
        rw [rx_tick_eq,hthis]
        rfl
      exact ih (other_underway h rfl rfl hsame) hlater hend
    | begin now => exact ih (other_underway h rfl rfl rfl) hlater hend
    | poll now => exact ih (other_underway h rfl rfl rfl) hlater hend
    | send answers => exact ih (other_underway h rfl rfl rfl) hlater hend
    | clearReset => exact ih (other_underway h rfl rfl rfl) hlater hend

theorem along_path {rt : UdsRuntime μ} (h : Receiving rt.can) (hinit : rt.initialized = true)
    (C : ReceivePath μ → Stage → Prop) (stages : List Stage)
    (hall : Along receptionStep (fun rt a => C (view rt) a) rt stages) :
    Along pathStep C (view rt) stages := by
  induction stages generalizing rt with
  | nil => trivial
  | cons a stages ih =>
    obtain ⟨hreceiving,hnext,hview,_⟩ := stage_path h hinit a
    have hstep : (receptionStep rt a).1 = (stageRuntime rt a).1 := by
      rw [receptionStep,hinit]
      rfl
    refine ⟨hall.1,?_⟩
    rw [← hview]
    exact ih hreceiving hnext (hstep ▸ hall.2)

/-- A request of any length whose frames arrive in order is handed to the server
exactly once and as it was sent, however its frames fall between the stages of
the passes and whatever foreign frames come with them. -/
theorem request_delivered (rt : UdsRuntime μ) (p : List UInt8) (stages : List Stage)
    (h1 : 1 ≤ p.length) (hm : p.length ≤ 4095) (hinit : rt.initialized = true)
    (hcan : Receiving rt.can) (hid : rt.isotpRx.requestId = udsRxCanId)
    (hempty : waitingFrames rt.can = [])
    (hframes : (stages.filterMap received).filter own = requestFrames p)
    (hsmooth : Along receptionStep (fun rt a => Smooth (view rt) a) rt stages)
    (hend : waitingFrames (run receptionStep rt stages).1.can = []) :
    (run receptionStep rt stages).2 = [p] := by
  obtain ⟨hview,hhandled⟩ := run_path hcan hinit stages
  have hstart : Underway p (view rt) stages 0 0 := by
    refine ⟨Nat.le_refl 0,Nat.zero_le _,hid,Or.inl rfl,?_,?_⟩
    · rw [view,hempty]
      rfl
    · rw [hframes,requestFrames,List.range_eq_range',Nat.sub_zero]
  rw [hhandled,path_delivers h1 hm stages hstart (along_path hcan hinit Smooth stages hsmooth)
    ((congrArg ReceivePath.waiting hview).symm.trans hend),if_pos (Nat.zero_le _)]

end Delivery

def scatteredStages : List Stage :=
  [.begin 1,.receive (wire udsRxCanId [0x22,0xF1,0x80,0xF1,0x81,0xF1,0x82,0xF1] 0),.frame 1,.poll 1,
    .receive (filledFrame udsRxCanId [0x30,0,0]),.tick 1,.send [.accepted],.begin 2,.frame 2,
    .receive (wire udsRxCanId [0x22,0xF1,0x80,0xF1,0x81,0xF1,0x82,0xF1] 1),.frame 2,.tick 2]

theorem request_delivered_scattered :
    (run receptionStep (canopenReferenceUdsInit none () true 0) scatteredStages).2 =
      [[0x22,0xF1,0x80,0xF1,0x81,0xF1,0x82,0xF1]] :=
  request_delivered (canopenReferenceUdsInit none () true 0)
    [0x22,0xF1,0x80,0xF1,0x81,0xF1,0x82,0xF1] scatteredStages (by decide) (by decide) rfl
    (init_receiving none () true 0) rfl rfl (by decide +kernel) (by decide +kernel)
    (by decide +kernel)

end CanopenReference.RequestDelivery
