import CanopenReference.IsoTpTransmitter

/-!
# End-to-end delivery of an ISO-TP payload

Both endpoints and both queues agree on how far a transfer has come. Every
step keeps the agreement, every effective step lowers what is left, and a fair
schedule leaves nothing.
-/

set_option autoImplicit false

namespace CanopenReference.IsoTpDelivery
open Library Library.Runs IsoTp IsoTpReceiver
open IsoTpTransmitter (Awaited Due FillsBlock chunk_end chunk_frame flow_computes more_iff
  next_computes)

section Transmitter
variable {p : List UInt8} {rx : IsoTpRx} {tx : IsoTpTx} {k : ℕ}

theorem block_ends {w : Bool} (h : TxAt p rx tx k w) (hw : w = false) (hk : k < consecutives p) :
    FillsBlock tx ↔ Boundary p rx (k+1) := by
  obtain ⟨hbs,hcount⟩ := h.block hw
  rw [FillsBlock,chunk_end h.payloadLen h.offset,h.payloadLen,carried_lt h.long,hbs,Boundary]
  by_cases hz : rx.config.blockSize = 0
  · simp [hz]
  · rw [(block_count_step _ _ k hz (hcount hk hz)).1]
    simp [hz]

theorem tx_sends (now : UInt32) (h : TxAt p rx tx k false) (hk : k < consecutives p)
    (htime : deadlineExpired now tx.deadlineMs = false)
    (hdue : deadlineExpired now tx.nextFrameMs = true) :
    ∃ tx', isotpTxNext tx now = (tx',.txFrameReady,some (nextFrameOf rx.requestId p k)) ∧
      TxAt p rx tx' (k+1) (decide (Boundary p rx (k+1))) := by
  obtain ⟨hbs,hcount⟩ := h.block rfl
  have hd : Due tx now := ⟨h.active,h.waits,htime,hdue⟩
  have hmore := (more_iff h.long h.payloadLen h.offset).mpr hk
  have hfull := block_ends h rfl hk
  have hend := chunk_end h.payloadLen h.offset
  have hseq : (tx.nextSequence+1) &&& 0x0F = UInt8.ofNat ((k+1+1)%16) :=
    h.nextSequence ▸ next_sequence_nat (k+1)
  rw [← h.responseId,← chunk_frame h.long h.payloadLen h.offset h.nextSequence h.buffer hk]
  by_cases hb : Boundary p rx (k+1)
  · refine ⟨_,next_computes (.blockEnd hd hmore (hfull.mpr hb)),?_⟩
    rw [decide_eq_true hb]
    exact ⟨h.responseId,h.requestId,h.stMin,h.long,h.active,rfl,h.payloadLen,hend,hseq,h.buffer,
      fun hw => by cases hw⟩
  · refine ⟨_,next_computes (.sends hd hmore (hfull.not.mpr hb)),?_⟩
    rw [decide_eq_false hb]
    refine ⟨h.responseId,h.requestId,h.stMin,h.long,h.active,h.waits,h.payloadLen,hend,hseq,
      h.buffer,fun _ => ⟨hbs,fun hk1 hz => ?_⟩⟩
    exact (block_count_step _ _ k hz (hcount hk hz)).2 fun hd => hb ⟨hd,hk1⟩

theorem tx_ends (now : UInt32) (h : TxAt p rx tx (consecutives p) false)
    (htime : deadlineExpired now tx.deadlineMs = false)
    (hdue : deadlineExpired now tx.nextFrameMs = true) :
    isotpTxNext tx now = (isotpTxReset tx,.complete,none) := by
  have hend := (more_iff h.long h.payloadLen h.offset).not.mpr (Nat.lt_irrefl _)
  exact next_computes (.completes ⟨h.active,h.waits,htime,hdue⟩ (Nat.not_lt.mp hend))

theorem tx_rests {w : Bool} (now : UInt32) (h : TxAt p rx tx k w)
    (htime : w = false → deadlineExpired now tx.deadlineMs = false)
    (hdue : ¬(w = false ∧ deadlineExpired now tx.nextFrameMs = true)) :
    isotpTxNext tx now = (tx,.ok,none) := by
  refine next_computes (.rests fun _ hw => ?_)
  have hfree := h.waits.symm.trans hw
  exact ⟨htime hfree,Bool.eq_false_iff.mpr fun hd => hdue ⟨hfree,hd⟩⟩

theorem tx_released (now : UInt32) (h : TxAt p rx tx k true) (hb : Boundary p rx k) :
    ∃ tx', isotpTxFeedFlowControl tx (rxMakeFlowControl rx) now = (tx',.ok) ∧
      TxAt p rx tx' k false := by
  obtain ⟨hid,hdlc,h0,h1,h2⟩ := flow_frame rx
  have hf : Awaited tx (rxMakeFlowControl rx) := by
    refine ⟨by rw [hdlc]; decide,hid.trans h.requestId,h.active,h.waits,Nat.le_of_eq hdlc.symm,?_⟩
    rw [pciType,h0]
    decide
  have hcts : IsoTpTransmitter.flowStatus (rxMakeFlowControl rx) = isotpFcCts := by
    rw [IsoTpTransmitter.flowStatus,h0]
    decide
  refine ⟨_,flow_computes (.clears hf hcts (h2 ▸ h.stMin)),h.responseId,h.requestId,h.stMin,h.long,
    h.active,rfl,h.payloadLen,h.offset,h.nextSequence,h.buffer,fun _ => ⟨h1,fun _ _ => ?_⟩⟩
  exact (Nat.mod_eq_zero_of_dvd hb.1).symm

end Transmitter

/-- How far a transfer has come: the consecutive frames sent, all frames
taken, whether the transmitter waits, and whether it has ended. -/
structure Progress where
  sent : ℕ
  taken : ℕ
  waiting : Bool
  done : Bool

def Progress.rank (p : List UInt8) (g : Progress) : ℕ :=
  2*(consecutives p-g.sent)+g.waiting.toNat+(consecutives p+1-g.taken)+(!g.done).toNat

/-- Both endpoints, both queues and the history so far stand at `g`. -/
structure Agrees (p : List UInt8) (l : Link) (events : List LinkEvent) (g : Progress) : Prop where
  sentLe : g.sent ≤ consecutives p
  takenLe : g.taken ≤ g.sent+1
  rxAt : RxAt p l.rx g.taken
  txAt : g.done = false → TxAt p l.rx l.tx g.sent g.waiting
  ended : g.done = true → l.tx.active = false ∧ g.sent = consecutives p ∧ g.waiting = false
  waits : g.waiting = true → Boundary p l.rx g.sent
  forward : l.forward = (List.range' g.taken (g.sent+1-g.taken)).map (wire l.rx.requestId p)
  back : l.back =
    if g.waiting = true ∧ g.taken = g.sent+1 then [rxMakeFlowControl l.rx] else []
  passed : ∀ b, Boundary p l.rx b → b < g.sent ∨ b = g.sent ∧ g.waiting = false → b < g.taken
  fine : ∀ e ∈ events, isError e.status = false
  received : receptions events = if consecutives p < g.taken then [some p] else []
  completed : completions events = if 7 < p.length ∧ g.done = true then 1 else 0

def Effective (l : Link) : LinkStep → Prop
  | .poll now => l.tx.active = true ∧ l.tx.waitingFlowControl = false ∧
      deadlineExpired now l.tx.nextFrameMs = true
  | .deliver _ => l.forward ≠ []
  | .flow _ => l.back ≠ []

/-- The transfer rests at `g` under a step without work, and advances otherwise. -/
def Follows (p : List UInt8) (l : Link) (a : LinkStep) (g g' : Progress) : Prop :=
  (g' = g ∧ ¬Effective l a) ∨ g'.rank p < g.rank p

theorem receptions_append (xs ys : List LinkEvent) :
    receptions (xs++ys) = receptions xs++receptions ys := List.filterMap_append

theorem completions_append (xs ys : List LinkEvent) :
    completions (xs++ys) = completions xs+completions ys := List.count_append

theorem fine_append {xs : List LinkEvent} {e : LinkEvent}
    (h : ∀ x ∈ xs, isError x.status = false) (he : isError e.status = false) :
    ∀ x ∈ xs++[e], isError x.status = false := by
  intro x hx
  rcases List.mem_append.mp hx with hx | hx
  · exact h x hx
  · rw [List.mem_singleton.mp hx]
    exact he

theorem poll_nothing {p : List UInt8} {l : Link} {events : List LinkEvent} {g : Progress}
    (now : UInt32) (h : Agrees p l events g) (hn : isotpTxNext l.tx now = (l.tx,.ok,none)) :
    Agrees p (linkStep l (.poll now)).1 (events++(linkStep l (.poll now)).2) g := by
  simp only [linkStep,hn,Option.toList_none,List.append_nil]
  refine ⟨h.sentLe,h.takenLe,h.rxAt,h.txAt,h.ended,h.waits,h.forward,h.back,h.passed,
    fine_append h.fine rfl,?_,?_⟩
  · rw [receptions_append,h.received]
    simp [receptions]
  · rw [completions_append,h.completed]
    rfl

theorem poll_sends {p : List UInt8} {l : Link} {events : List LinkEvent} {g : Progress}
    (now : UInt32) (h : Agrees p l events g) (hd : g.done = false) (hw : g.waiting = false)
    (hn : g.sent < consecutives p) (htime : deadlineExpired now l.tx.deadlineMs = false)
    (hdue : deadlineExpired now l.tx.nextFrameMs = true) :
    ∃ g', Agrees p (linkStep l (.poll now)).1 (events++(linkStep l (.poll now)).2) g' ∧
      g'.rank p < g.rank p := by
  have htx := h.txAt hd
  rw [hw] at htx
  obtain ⟨tx',hnext,htx'⟩ := tx_sends now htx hn htime hdue
  have htake := h.takenLe
  refine ⟨⟨g.sent+1,g.taken,decide (Boundary p l.rx (g.sent+1)),false⟩,?_,?_⟩
  · simp only [linkStep,hnext,Option.toList_some]
    refine ⟨hn,Nat.le_succ_of_le htake,h.rxAt,fun _ => htx',(fun hc => by cases hc),
      (fun hb => by simpa using hb),?_,?_,?_,fine_append h.fine rfl,?_,?_⟩
    · have hr : g.sent+1+1-g.taken = (g.sent+1-g.taken)+1 := by omega
      rw [h.forward,hr,List.range'_concat,List.map_append]
      have he : g.taken+1*(g.sent+1-g.taken) = g.sent+1 := by omega
      rw [he]
      rfl
    · have hne : ¬g.taken = g.sent+1+1 := by omega
      rw [h.back,if_neg (by simp [hw]),if_neg (fun hc => hne hc.2)]
    · intro b hb hcase
      rcases hcase with hlt | ⟨rfl,hf⟩
      · rcases Nat.lt_or_eq_of_le (Nat.le_of_lt_succ hlt) with hlt | heq
        · exact h.passed b hb (Or.inl hlt)
        · exact h.passed b hb (Or.inr ⟨heq,hw⟩)
      · simp [hb] at hf
    · rw [receptions_append,h.received]
      simp [receptions]
    · rw [completions_append,h.completed]
      simp [hd,completions]
  · have hle := Bool.toNat_le (decide (Boundary p l.rx (g.sent+1)))
    simp only [Progress.rank,hw,hd,Bool.not_false,Bool.toNat_false]
    omega

theorem poll_ends {p : List UInt8} {l : Link} {events : List LinkEvent} {g : Progress}
    (now : UInt32) (h : Agrees p l events g) (hd : g.done = false) (hw : g.waiting = false)
    (hend : g.sent = consecutives p) (htime : deadlineExpired now l.tx.deadlineMs = false)
    (hdue : deadlineExpired now l.tx.nextFrameMs = true) :
    ∃ g', Agrees p (linkStep l (.poll now)).1 (events++(linkStep l (.poll now)).2) g' ∧
      g'.rank p < g.rank p := by
  have htx := h.txAt hd
  rw [hw,hend] at htx
  have hnext := tx_ends now htx htime hdue
  refine ⟨{ g with done := true },?_,?_⟩
  · simp only [linkStep,hnext,Option.toList_none,List.append_nil]
    refine ⟨h.sentLe,h.takenLe,h.rxAt,(fun hc => by cases hc),fun _ => ⟨rfl,hend,hw⟩,h.waits,
      h.forward,h.back,h.passed,fine_append h.fine rfl,?_,?_⟩
    · rw [receptions_append,h.received]
      simp [receptions]
    · rw [completions_append,h.completed]
      simp [hd,completions,htx.long]
  · simp only [Progress.rank,hd,Bool.not_true,Bool.not_false,Bool.toNat_true,Bool.toNat_false]
    omega

theorem poll_agrees {p : List UInt8} {l : Link} {events : List LinkEvent} {g : Progress}
    (now : UInt32) (h : Agrees p l events g) (ht : Timely l (.poll now)) :
    ∃ g', Agrees p (linkStep l (.poll now)).1 (events++(linkStep l (.poll now)).2) g' ∧
      Follows p l (.poll now) g g' := by
  cases hd : g.done with
  | true =>
    obtain ⟨hoff,_,_⟩ := h.ended hd
    refine ⟨g,poll_nothing now h (by simp [isotpTxNext,hoff]),Or.inl ⟨rfl,?_⟩⟩
    rintro ⟨hon,_⟩
    exact Bool.false_ne_true (hoff.symm.trans hon)
  | false =>
    have htx := h.txAt hd
    have htime : g.waiting = false → deadlineExpired now l.tx.deadlineMs = false :=
      fun hw => ht htx.active (htx.waits.trans hw)
    by_cases hdue : g.waiting = false ∧ deadlineExpired now l.tx.nextFrameMs = true
    · obtain ⟨hw,hdue⟩ := hdue
      by_cases hn : g.sent < consecutives p
      · obtain ⟨g',ha,hlow⟩ := poll_sends now h hd hw hn (htime hw) hdue
        exact ⟨g',ha,Or.inr hlow⟩
      · have hend := Nat.le_antisymm h.sentLe (Nat.le_of_not_lt hn)
        obtain ⟨g',ha,hlow⟩ := poll_ends now h hd hw hend (htime hw) hdue
        exact ⟨g',ha,Or.inr hlow⟩
    · refine ⟨g,poll_nothing now h (tx_rests now htx htime hdue),Or.inl ⟨rfl,?_⟩⟩
      rintro ⟨_,hw,he⟩
      exact hdue ⟨htx.waits.symm.trans hw,he⟩

theorem deliver_agrees {p : List UInt8} {l : Link} {events : List LinkEvent} {g : Progress}
    (now : UInt32) (h1 : 1 ≤ p.length) (hm : p.length ≤ 4095) (h : Agrees p l events g) :
    ∃ g', Agrees p (linkStep l (.deliver now)).1 (events++(linkStep l (.deliver now)).2) g' ∧
      Follows p l (.deliver now) g g' := by
  have hforward := h.forward
  have htake := h.takenLe
  have hsent := h.sentLe
  by_cases hc : g.taken ≤ g.sent
  · have hr : g.sent+1-g.taken = (g.sent+1-(g.taken+1))+1 := by omega
    rw [hr,List.range'_succ,List.map_cons] at hforward
    obtain ⟨hside,hrx,hfine,hdel,hflow⟩ := rx_takes now h1 hm h.rxAt (Nat.le_trans hc hsent)
    refine ⟨{ g with taken := g.taken+1 },?_,Or.inr ?_⟩
    · simp only [linkStep,hforward]
      generalize isotpRxFeed l.rx (wire l.rx.requestId p g.taken) now = r at *
      refine ⟨hsent,Nat.succ_le_succ hc,hrx,fun hd => side_tx hside (h.txAt hd),h.ended,
        fun hw => (side_boundary hside p _).mpr (h.waits hw),?_,?_,?_,fine_append h.fine hfine,?_,?_⟩
      · rw [hside.2.1]
      · rw [h.back,if_neg (by omega),hflow,side_flow hside]
        by_cases hb : Boundary p l.rx g.taken
        · have hlast : g.waiting = true ∧ g.taken = g.sent := by
            rcases Nat.lt_or_eq_of_le hc with hlt | heq
            · exact absurd (h.passed _ hb (Or.inl hlt)) (Nat.lt_irrefl _)
            · cases hw : g.waiting with
              | false => exact absurd (h.passed _ hb (Or.inr ⟨heq,hw⟩)) (Nat.lt_irrefl _)
              | true => exact ⟨rfl,heq⟩
          rw [if_pos hb,if_pos ⟨hlast.1,by simp [hlast.2]⟩]
          rfl
        · rw [if_neg hb,if_neg]
          · rfl
          · rintro ⟨hw,he⟩
            have he' : g.taken = g.sent := Nat.succ.inj he
            exact hb (he' ▸ h.waits hw)
      · intro b hb hcase
        have := h.passed b ((side_boundary hside p b).mp hb) hcase
        exact Nat.lt_succ_of_lt this
      · rw [receptions_append,h.received,hdel,if_neg (by omega),List.nil_append]
        by_cases he : g.taken = consecutives p
        · rw [if_pos he,if_pos (by simp [he])]
        · rw [if_neg he,if_neg (by simp; omega)]
      · rw [completions_append,h.completed]
        rfl
    · simp only [Progress.rank]
      omega
  · have hr : g.sent+1-g.taken = 0 := by omega
    rw [hr] at hforward
    refine ⟨g,?_,Or.inl ⟨rfl,fun hn => hn hforward⟩⟩
    simp only [linkStep,hforward,List.range'_zero,List.map_nil,List.append_nil]
    exact h

theorem flow_agrees {p : List UInt8} {l : Link} {events : List LinkEvent} {g : Progress}
    (now : UInt32) (h : Agrees p l events g) :
    ∃ g', Agrees p (linkStep l (.flow now)).1 (events++(linkStep l (.flow now)).2) g' ∧
      Follows p l (.flow now) g g' := by
  have hback := h.back
  by_cases hc : g.waiting = true ∧ g.taken = g.sent+1
  · rw [if_pos hc] at hback
    have hd : g.done = false := by
      cases hd : g.done with
      | false => rfl
      | true => exact absurd ((h.ended hd).2.2.symm.trans hc.1) Bool.false_ne_true
    obtain ⟨tx',hnext,htx'⟩ := tx_released now (hc.1 ▸ h.txAt hd) (h.waits hc.1)
    refine ⟨{ g with waiting := false },?_,Or.inr ?_⟩
    · simp only [linkStep,hback,hnext]
      refine ⟨h.sentLe,h.takenLe,h.rxAt,fun _ => htx',(fun hc => by simp [hd] at hc),
        (fun hb => by cases hb),h.forward,by simp,?_,fine_append h.fine rfl,?_,?_⟩
      · intro b _ hcase
        have := hc.2
        simp only at hcase ⊢
        omega
      · rw [receptions_append,h.received]
        simp [receptions]
      · rw [completions_append,h.completed]
        rfl
    · simp [Progress.rank,hc.1]
  · rw [if_neg hc] at hback
    refine ⟨g,?_,Or.inl ⟨rfl,fun hn => hn hback⟩⟩
    simp only [linkStep,hback,List.append_nil]
    exact h

theorem step_agrees {p : List UInt8} {l : Link} {events : List LinkEvent} {g : Progress}
    (a : LinkStep) (h1 : 1 ≤ p.length) (hm : p.length ≤ 4095) (h : Agrees p l events g)
    (ht : Timely l a) :
    ∃ g', Agrees p (linkStep l a).1 (events++(linkStep l a).2) g' ∧ Follows p l a g g' := by
  cases a with
  | poll now => exact poll_agrees now h ht
  | deliver now => exact deliver_agrees now h1 hm h
  | flow now => exact flow_agrees now h

theorem start_agrees (tx : IsoTpTx) (rx : IsoTpRx) (p : List UInt8) (now : UInt32)
    (h1 : 1 ≤ p.length) (hm : p.length ≤ 4095) (hout : tx.responseId = rx.requestId)
    (hin : rx.responseId = tx.requestId) (hst : ValidStMin rx.config.stMin) :
    (isotpTxStart tx p now).2.1 = .txFrameReady ∧
      ∃ g, Agrees p (linkStart tx rx p now) [] g := by
  have hlow : ¬p.length = 0 := by omega
  have hhigh : ¬isotpMaxPayload < p.length := Nat.not_lt.mpr hm
  have hrx : RxAt p (isotpRxReset rx) 0 := ⟨fun _ => rfl,fun _ => rfl,by omega⟩
  by_cases h7 : p.length ≤ 7
  · have hn : consecutives p = 0 := if_pos h7
    simp only [linkStart,isotpTxStart,if_neg hlow,if_neg hhigh,if_pos h7,true_and]
    refine ⟨⟨0,0,false,true⟩,Nat.zero_le _,Nat.zero_le _,hrx,(fun hc => by cases hc),
      fun _ => ⟨rfl,hn.symm,rfl⟩,(fun hc => by cases hc),?_,by simp,?_,by simp,by simp [receptions],
      by simp [h7,completions]⟩
    · simp only [Option.toList_some,hout]
      simp [wire,h7,singleFrameOf,isotpRxReset]
    · intro b hb
      exact absurd hb.2 (by omega)
  · have hn : 0 < consecutives p := by
      rw [consecutives,if_neg h7]
      omega
    simp only [linkStart,isotpTxStart,if_neg hlow,if_neg hhigh,if_neg h7,true_and]
    refine ⟨⟨0,0,true,false⟩,Nat.zero_le _,Nat.zero_le _,hrx,fun _ => ?_,(fun hc => by cases hc),
      fun _ => ⟨Nat.dvd_zero _,hn⟩,?_,by simp,?_,by simp,by simp [receptions],
      by simp [completions]⟩
    · refine ⟨hout,hin,hst,by omega,rfl,rfl,rfl,?_,rfl,?_,fun hc => by cases hc⟩
      · show 6 = carried p 0
        unfold carried
        omega
      · exact Buffer.front_write_zero tx.buffer p hm
    · simp only [Option.toList_some,hout]
      simp [wire,h7,firstFrameOf,isotpRxReset]
    · intro b _ hc
      simp at hc

/-- Every frame and every flow control is eventually consumed, and a
transmitter ready to go on is eventually polled when the next frame is due. -/
structure Fair (l : Link) (sched : ℕ → LinkStep) : Prop where
  timely : ∀ n, Timely (orbit linkStep l sched n) (sched n)
  polled : ∀ n, (orbit linkStep l sched n).tx.active = true →
    (orbit linkStep l sched n).tx.waitingFlowControl = false →
    ∃ m now, n ≤ m ∧ sched m = .poll now ∧
      deadlineExpired now (orbit linkStep l sched m).tx.nextFrameMs = true
  delivered : ∀ n, (orbit linkStep l sched n).forward ≠ [] →
    ∃ m now, n ≤ m ∧ sched m = .deliver now
  flowed : ∀ n, (orbit linkStep l sched n).back ≠ [] → ∃ m now, n ≤ m ∧ sched m = .flow now

theorem forward_nonempty {p : List UInt8} {l : Link} {events : List LinkEvent} {g : Progress}
    (h : Agrees p l events g) (hc : g.taken ≤ g.sent) : l.forward ≠ [] := by
  have hr : g.sent+1-g.taken = (g.sent-g.taken)+1 := by omega
  rw [h.forward,hr]
  simp [List.range'_succ]

theorem unfinished_work {p : List UInt8} {l : Link} {events : List LinkEvent} {g : Progress}
    (h : Agrees p l events g) (hn : ¬(g.done = true ∧ consecutives p < g.taken)) :
    g.taken ≤ g.sent ∨ (g.waiting = true ∧ g.taken = g.sent+1) ∨
      (g.done = false ∧ g.waiting = false) := by
  have htake := h.takenLe
  by_cases hc : g.taken ≤ g.sent
  · exact Or.inl hc
  · have he : g.taken = g.sent+1 := by omega
    right
    cases hw : g.waiting with
    | true => exact Or.inl ⟨rfl,he⟩
    | false =>
      cases hd : g.done with
      | false => exact Or.inr ⟨rfl,rfl⟩
      | true =>
        have hs := (h.ended hd).2.1
        exact absurd ⟨hd,by omega⟩ hn

theorem effective_lowers {p : List UInt8} {l : Link} {a : LinkStep} {g g' : Progress}
    (hf : Follows p l a g g') (he : Effective l a) : g'.rank p < g.rank p := by
  rcases hf with ⟨_,hn⟩ | hl
  · exact absurd he hn
  · exact hl

/-- Whenever the transmitter waits with nothing under way to the receiver, a
flow control is under way back. -/
theorem waiting_has_flow {p : List UInt8} {l : Link} {events : List LinkEvent} {g : Progress}
    (h : Agrees p l events g) (hactive : l.tx.active = true)
    (hwait : l.tx.waitingFlowControl = true) (hnone : l.forward = []) : l.back ≠ [] := by
  have hd : g.done = false := by
    cases hd : g.done with
    | false => rfl
    | true => exact absurd ((h.ended hd).1.symm.trans hactive) Bool.false_ne_true
  have hw := (h.txAt hd).waits.symm.trans hwait
  have htaken : g.taken = g.sent+1 := by
    by_contra hc
    have := h.takenLe
    exact forward_nonempty h (by omega) hnone
  rw [h.back,if_pos ⟨hw,htaken⟩]
  exact List.cons_ne_nil _ _

section Schedule
variable {p : List UInt8} {l : Link} {sched : ℕ → LinkStep} {G : ℕ → Progress}

structure Companion (p : List UInt8) (l : Link) (sched : ℕ → LinkStep) (G : ℕ → Progress) :
    Prop where
  agrees : ∀ n, Agrees p (orbit linkStep l sched n) (reported linkStep l sched n) (G n)
  follows : ∀ n, Follows p (orbit linkStep l sched n) (sched n) (G n) (G (n+1))

theorem companion_exists {g : Progress} (h1 : 1 ≤ p.length) (hm : p.length ≤ 4095)
    (hfair : Fair l sched) (h : Agrees p l [] g) : ∃ G, Companion p l sched G := by
  obtain ⟨G,_,hG⟩ := exists_companion
    (fun n g => Agrees p (orbit linkStep l sched n) (reported linkStep l sched n) g)
    (fun n g g' => Follows p (orbit linkStep l sched n) (sched n) g g') g h
    (fun n g h => step_agrees (sched n) h1 hm h (hfair.timely n))
  exact ⟨G,fun n => (hG n).1,fun n => (hG n).2⟩

theorem companion_ends (hfair : Fair l sched) (hG : Companion p l sched G) :
    ∃ k, (G k).done = true ∧ consecutives p < (G k).taken := by
  apply eventually_of_fair G (Progress.rank p) (fun g => g.done = true ∧ consecutives p < g.taken)
  · intro n
    exact (hG.follows n).imp_left And.left
  · intro n hn
    have ha := hG.agrees n
    rcases unfinished_work ha hn with hc | hc | hc
    · obtain ⟨m,t,hle,hs⟩ := hfair.delivered n (forward_nonempty ha hc)
      refine ⟨m,hle,fun he => effective_lowers (hG.follows m) ?_⟩
      rw [hs]
      exact forward_nonempty (hG.agrees m) (he ▸ hc)
    · obtain ⟨m,t,hle,hs⟩ := hfair.flowed n (by rw [ha.back,if_pos hc]; simp)
      refine ⟨m,hle,fun he => effective_lowers (hG.follows m) ?_⟩
      rw [hs]
      show (orbit linkStep l sched m).back ≠ []
      rw [(hG.agrees m).back,if_pos (he ▸ hc)]
      simp
    · have htx := ha.txAt hc.1
      obtain ⟨m,t,hle,hs,hdue⟩ := hfair.polled n htx.active (htx.waits.trans hc.2)
      refine ⟨m,hle,fun he => effective_lowers (hG.follows m) ?_⟩
      have htx' := (hG.agrees m).txAt (he ▸ hc.1)
      rw [hs]
      exact ⟨htx'.active,htx'.waits.trans (he ▸ hc.2),hdue⟩

theorem companion_rests (hG : Companion p l sched G) {k : ℕ} (hdone : (G k).done = true)
    (htaken : consecutives p < (G k).taken) (d : ℕ) : G (k+d) = G k := by
  have hz : (G k).rank p = 0 := by
    obtain ⟨_,hs,hw⟩ := (hG.agrees k).ended hdone
    simp only [Progress.rank,hs,hw,hdone,Nat.sub_self,Nat.mul_zero,Bool.not_true,
      Bool.toNat_false]
    omega
  induction d with
  | zero => rfl
  | succ d ih =>
    rcases hG.follows (k+d) with ⟨he,_⟩ | hlow
    · exact he.trans ih
    · rw [ih,hz] at hlow
      exact absurd hlow (Nat.not_lt_zero _)

end Schedule

/-- Under a fair schedule whose polls of a transfer in progress all come before
the pending deadline, the payload arrives once and unchanged. -/
theorem payload_delivered (tx : IsoTpTx) (rx : IsoTpRx) (p : List UInt8) (now : UInt32)
    (sched : ℕ → LinkStep) (h1 : 1 ≤ p.length) (hm : p.length ≤ 4095)
    (hout : tx.responseId = rx.requestId) (hin : rx.responseId = tx.requestId)
    (hst : ValidStMin rx.config.stMin) (hfair : Fair (linkStart tx rx p now) sched) :
    (isotpTxStart tx p now).2.1 = .txFrameReady ∧
    (∀ n, ∀ e ∈ reported linkStep (linkStart tx rx p now) sched n, isError e.status = false) ∧
    (∀ n, receptions (reported linkStep (linkStart tx rx p now) sched n) = [] ∨
      receptions (reported linkStep (linkStart tx rx p now) sched n) = [some p]) ∧
    (∀ n, (orbit linkStep (linkStart tx rx p now) sched n).tx.active = true →
      (orbit linkStep (linkStart tx rx p now) sched n).tx.waitingFlowControl = true →
      (orbit linkStep (linkStart tx rx p now) sched n).forward = [] →
      (orbit linkStep (linkStart tx rx p now) sched n).back ≠ []) ∧
    ∃ k, ∀ n, k ≤ n →
      receptions (reported linkStep (linkStart tx rx p now) sched n) = [some p] ∧
      completions (reported linkStep (linkStart tx rx p now) sched n) =
        if 7 < p.length then 1 else 0 := by
  obtain ⟨hready,g,h⟩ := start_agrees tx rx p now h1 hm hout hin hst
  obtain ⟨G,hG⟩ := companion_exists h1 hm hfair h
  refine ⟨hready,fun n => (hG.agrees n).fine,fun n => ?_,
    fun n => waiting_has_flow (hG.agrees n),?_⟩
  · rw [(hG.agrees n).received]
    split
    · exact Or.inr rfl
    · exact Or.inl rfl
  · obtain ⟨k,hdone,htaken⟩ := companion_ends hfair hG
    refine ⟨k,fun n hle => ?_⟩
    have hn := companion_rests hG hdone htaken (n-k)
    rw [Nat.add_sub_cancel' hle] at hn
    have ha := hG.agrees n
    rw [hn] at ha
    rw [ha.received,ha.completed,if_pos htaken,hdone]
    simp

def serverTx : IsoTpTx :=
  isotpTxInit ⟨isotpConfigDefault,0,0,Buffer.blank _ 0,0,0,0,0,0,0,0,0,false,false,0⟩ none
    0x7E0 0x7E8

def testerRx : IsoTpRx :=
  isotpRxInit ⟨isotpConfigDefault,0,0,Buffer.blank _ 0,0,0,0,0,0,false⟩ none 0x7E8 0x7E0

def eightByteLink : Link := linkStart serverTx testerRx [1,2,3,4,5,6,7,8] 0

def eightByteSchedule (n : ℕ) : LinkStep :=
  [LinkStep.deliver 0,.flow 0,.poll 0,.deliver 0].getD n (.poll 0)

theorem poll_idle {l : Link} (h : l.tx.active = false) (now : UInt32) :
    (linkStep l (.poll now)).1 = l := by
  simp [linkStep,isotpTxNext,h]

theorem eight_bytes_end :
    (orbit linkStep eightByteLink eightByteSchedule 5).tx.active = false ∧
      (orbit linkStep eightByteLink eightByteSchedule 5).forward = [] ∧
      (orbit linkStep eightByteLink eightByteSchedule 5).back = [] := by
  decide +kernel

theorem eight_bytes_rest (d : ℕ) :
    orbit linkStep eightByteLink eightByteSchedule (5+d) =
      orbit linkStep eightByteLink eightByteSchedule 5 := by
  induction d with
  | zero => rfl
  | succ d ih =>
    have hs : eightByteSchedule (5+d) = .poll 0 := by
      rw [eightByteSchedule,List.getD_eq_getElem?_getD,List.getElem?_eq_none (by simp; omega)]
      rfl
    show (linkStep (orbit linkStep eightByteLink eightByteSchedule (5+d))
      (eightByteSchedule (5+d))).1 = _
    rw [ih,hs]
    exact poll_idle eight_bytes_end.1 0

theorem eight_bytes_cases (P : ℕ → Link → Prop)
    (h0 : ∀ n : Fin 5, P n (orbit linkStep eightByteLink eightByteSchedule n))
    (h5 : ∀ d, P (5+d) (orbit linkStep eightByteLink eightByteSchedule 5)) (n : ℕ) :
    P n (orbit linkStep eightByteLink eightByteSchedule n) := by
  by_cases hn : n < 5
  · exact h0 ⟨n,hn⟩
  · have hd := h5 (n-5)
    rw [← eight_bytes_rest,Nat.add_sub_cancel' (by omega)] at hd
    exact hd

theorem eight_bytes_fair : Fair eightByteLink eightByteSchedule := by
  obtain ⟨hoff,hforward,hback⟩ := eight_bytes_end
  refine ⟨?_,?_,?_,?_⟩
  · apply eight_bytes_cases (fun n l => Timely l (eightByteSchedule n))
    · decide +kernel
    · intro d
      cases eightByteSchedule (5+d) with
      | poll now => exact fun hon => absurd (hoff.symm.trans hon) Bool.false_ne_true
      | deliver now => trivial
      | flow now => trivial
  · have hdue : deadlineExpired 0
        (orbit linkStep eightByteLink eightByteSchedule 4).tx.nextFrameMs = true := by
      decide +kernel
    apply eight_bytes_cases (fun n l => l.tx.active = true → l.tx.waitingFlowControl = false →
      ∃ m now, n ≤ m ∧ eightByteSchedule m = .poll now ∧
        deadlineExpired now (orbit linkStep eightByteLink eightByteSchedule m).tx.nextFrameMs = true)
    · intro n _ _
      exact ⟨4,0,Nat.le_of_lt_succ n.isLt,rfl,hdue⟩
    · intro d hon
      exact absurd (hoff.symm.trans hon) Bool.false_ne_true
  · have hlast : (orbit linkStep eightByteLink eightByteSchedule 4).forward = [] := by
      decide +kernel
    apply eight_bytes_cases (fun n l => l.forward ≠ [] →
      ∃ m now, n ≤ m ∧ eightByteSchedule m = .deliver now)
    · intro n hne
      by_cases hn : n.val ≤ 3
      · exact ⟨3,0,hn,rfl⟩
      · have h4 : n.val = 4 := by omega
        rw [h4] at hne
        exact absurd hlast hne
    · intro d hne
      exact absurd hforward hne
  · have hnone : ∀ n : Fin 5, 2 ≤ n.val →
        (orbit linkStep eightByteLink eightByteSchedule n).back = [] := by decide +kernel
    apply eight_bytes_cases (fun n l => l.back ≠ [] →
      ∃ m now, n ≤ m ∧ eightByteSchedule m = .flow now)
    · intro n hne
      by_cases hn : n.val ≤ 1
      · exact ⟨1,0,hn,rfl⟩
      · exact absurd (hnone n (by omega)) hne
    · intro d hne
      exact absurd hback hne

theorem payload_delivered_eight_bytes :
    ∃ k, ∀ n, k ≤ n →
      receptions (reported linkStep eightByteLink eightByteSchedule n) =
        [some [1,2,3,4,5,6,7,8]] ∧
      completions (reported linkStep eightByteLink eightByteSchedule n) = 1 :=
  (payload_delivered serverTx testerRx [1,2,3,4,5,6,7,8] 0 eightByteSchedule (by decide)
    (by decide) rfl rfl (Or.inl (by decide)) eight_bytes_fair).2.2.2.2

/-- The only late call is the poll that would report completion. -/
theorem late_completion_times_out :
    Along linkStep FramesTimely eightByteLink
        [.deliver 0,.flow 0,.poll 0,.deliver 0,.poll 1000] ∧
      LinkEvent.transmitter .errTimeout ∈ (run linkStep eightByteLink
        [.deliver 0,.flow 0,.poll 0,.deliver 0,.poll 1000]).2 ∧
      completions (run linkStep eightByteLink
        [.deliver 0,.flow 0,.poll 0,.deliver 0,.poll 1000]).2 = 0 ∧
      (run linkStep eightByteLink
        [.deliver 0,.flow 0,.poll 0,.deliver 0,.poll 1000]).1.tx.active = false := by
  decide +kernel

end CanopenReference.IsoTpDelivery
