import CanopenReference.IsoTpReceiver

/-!
# A transmitter and a receiver on a link

A transmitter and a receiver with paired identifiers are joined by two
lossless, ordered queues. Polls, deliveries and flow-control feeds interleave
in any order; a poll at every moment between two frames is allowed. The
position of either state machine is a frame count, from which every field of
its state follows.
-/

set_option autoImplicit false

namespace CanopenReference.IsoTpDelivery
open Library Library.Runs IsoTp IsoTpReceiver

structure Link where
  tx : IsoTpTx
  rx : IsoTpRx
  forward : List IsoTpCanFrame
  back : List IsoTpCanFrame
  deriving DecidableEq

inductive LinkStep where
  | poll (nowMs : UInt32)
  | deliver (nowMs : UInt32)
  | flow (nowMs : UInt32)
  deriving DecidableEq

inductive LinkEvent where
  | transmitter (status : IsoTpStatus)
  | receiver (status : IsoTpStatus) (payload : Option (List UInt8))
  | flowControl (status : IsoTpStatus)
  deriving DecidableEq

def linkStep (l : Link) : LinkStep → Link × List LinkEvent
  | .poll now =>
    let r := isotpTxNext l.tx now
    ({ l with tx := r.1, forward := l.forward++r.2.2.toList },[.transmitter r.2.1])
  | .deliver now =>
    match l.forward with
    | [] => (l,[])
    | f::rest =>
      let r := isotpRxFeed l.rx f now
      ({ l with rx := r.1, forward := rest, back := l.back++r.2.2.flowControl.toList },
        [.receiver r.2.1 r.2.2.payload])
  | .flow now =>
    match l.back with
    | [] => (l,[])
    | f::rest =>
      let r := isotpTxFeedFlowControl l.tx f now
      ({ l with tx := r.1, back := rest },[.flowControl r.2])

def linkStart (tx : IsoTpTx) (rx : IsoTpRx) (payload : List UInt8) (now : UInt32) : Link :=
  let r := isotpTxStart tx payload now
  ⟨r.1,isotpRxReset rx,r.2.2.toList,[]⟩

def isError : IsoTpStatus → Bool
  | .ok | .complete | .needFlowControl | .txFrameReady => false
  | _ => true

def LinkEvent.status : LinkEvent → IsoTpStatus
  | .transmitter s | .receiver s _ | .flowControl s => s

/-- The receptions of the receiver's completions, in order. -/
def receptions (events : List LinkEvent) : List (Option (List UInt8)) :=
  events.filterMap fun
    | .receiver .complete p => some p
    | _ => none

/-- How often the transmitter reported completion. -/
def completions (events : List LinkEvent) : ℕ := events.count (.transmitter .complete)

def Timely (l : Link) : LinkStep → Prop
  | .poll now => l.tx.active = true → l.tx.waitingFlowControl = false →
      deadlineExpired now l.tx.deadlineMs = false
  | _ => True

instance timelyDecidable (l : Link) : (a : LinkStep) → Decidable (Timely l a)
  | .poll now => inferInstanceAs (Decidable (l.tx.active = true →
      l.tx.waitingFlowControl = false → deadlineExpired now l.tx.deadlineMs = false))
  | .deliver _ => inferInstanceAs (Decidable True)
  | .flow _ => inferInstanceAs (Decidable True)

/-- A poll that has a frame left to send comes before the pending deadline. -/
def FramesTimely (l : Link) (a : LinkStep) : Prop := l.tx.offset < l.tx.payloadLen → Timely l a

instance framesTimelyDecidable (l : Link) (a : LinkStep) : Decidable (FramesTimely l a) :=
  inferInstanceAs (Decidable (_ → _))

def ValidStMin (st : UInt8) : Prop := st ≤ 0x7F ∨ 0xF1 ≤ st ∧ st ≤ 0xF9

theorem filled_cells (id : UInt32) (bytes : List UInt8) (h : bytes.length ≤ 8) :
    (filledFrame id bytes).data.cells = bytes++List.replicate (8-bytes.length) 0 := by
  have hw := Buffer.write_cells (Buffer.blank isotpMaxFrameData (0:UInt8)) 0 bytes
    (by simpa [isotpMaxFrameData] using h)
  simp only [filledFrame,clearFrame]
  rw [hw]
  simp only [Buffer.blank,List.take_zero,List.nil_append,Nat.zero_add,List.drop_replicate,
    isotpMaxFrameData]

theorem filled_byte (id : UInt32) (bytes : List UInt8) (i : ℕ) (h : bytes.length ≤ 8)
    (hi : i < bytes.length) : (filledFrame id bytes).byte i = bytes.getD i 0 := by
  simp [IsoTpCanFrame.byte,Buffer.cell,filled_cells id bytes h,hi,List.getElem?_append_left]

theorem filled_slice (id : UInt32) (bytes : List UInt8) (start len : ℕ) (h : bytes.length ≤ 8)
    (hs : start+len ≤ bytes.length) :
    (filledFrame id bytes).data.slice start len = (bytes.drop start).take len := by
  rw [Buffer.slice,filled_cells id bytes h,List.drop_append_of_le_length (by omega),
    List.take_append_of_le_length (by simp; omega)]

def firstFrameOf (id : UInt32) (p : List UInt8) : IsoTpCanFrame :=
  filledFrame id ((0x10 ||| (UInt8.ofNat (p.length/256) &&& 0x0F))::
    UInt8.ofNat (p.length%256)::p.take 6)

/-- The consecutive frame that follows `k` others. -/
def nextFrameOf (id : UInt32) (p : List UInt8) (k : ℕ) : IsoTpCanFrame :=
  filledFrame id ((0x20 ||| UInt8.ofNat ((k+1)%16))::(p.drop (6+7*k)).take 7)

def singleFrameOf (id : UInt32) (p : List UInt8) : IsoTpCanFrame :=
  filledFrame id (UInt8.ofNat p.length::p)

/-- The frames of a payload in the order they are sent. -/
def wire (id : UInt32) (p : List UInt8) : ℕ → IsoTpCanFrame
  | 0 => if p.length ≤ 7 then singleFrameOf id p else firstFrameOf id p
  | k+1 => nextFrameOf id p k

/-- The number of consecutive frames the payload needs. -/
def consecutives (p : List UInt8) : ℕ := if p.length ≤ 7 then 0 else p.length/7

/-- The number of payload bytes in the First Frame and `k` consecutive frames. -/
def carried (p : List UInt8) (k : ℕ) : ℕ := min p.length (6+7*k)

theorem first_pci (x : ℕ) (hx : x < 16) :
    (0x10 ||| (UInt8.ofNat x &&& 0x0F)) >>> 4 = (1:UInt8) ∧
      ((0x10 ||| (UInt8.ofNat x &&& 0x0F)) &&& (0x0F:UInt8)).toNat = x := by
  have h : ∀ i : Fin 16, (0x10 ||| (UInt8.ofNat i.val &&& 0x0F)) >>> 4 = (1:UInt8) ∧
      ((0x10 ||| (UInt8.ofNat i.val &&& 0x0F)) &&& (0x0F:UInt8)).toNat = i.val := by decide
  exact h ⟨x,hx⟩

theorem next_pci (x : ℕ) (hx : x < 16) :
    (0x20 ||| UInt8.ofNat x) >>> 4 = (2:UInt8) ∧
      (0x20 ||| UInt8.ofNat x) &&& (0x0F:UInt8) = UInt8.ofNat x := by
  have h : ∀ i : Fin 16, (0x20 ||| UInt8.ofNat i.val) >>> 4 = (2:UInt8) ∧
      (0x20 ||| UInt8.ofNat i.val) &&& (0x0F:UInt8) = UInt8.ofNat i.val := by decide
  exact h ⟨x,hx⟩

theorem single_pci (x : ℕ) (hx : x < 8) :
    UInt8.ofNat x >>> 4 = (0:UInt8) ∧ (UInt8.ofNat x &&& (0x0F:UInt8)).toNat = x := by
  have h : ∀ i : Fin 8, UInt8.ofNat i.val >>> 4 = (0:UInt8) ∧
      (UInt8.ofNat i.val &&& (0x0F:UInt8)).toNat = i.val := by decide
  exact h ⟨x,hx⟩

section Frames
variable (id : UInt32) (p : List UInt8)

theorem first_frame (h8 : 8 ≤ p.length) (hm : p.length ≤ 4095) :
    FirstFrame id (firstFrameOf id p) ∧ firstFrameLength (firstFrameOf id p) = p.length ∧
      (firstFrameOf id p).dlc = 8 ∧ firstData (firstFrameOf id p) = p.take 6 := by
  have hlen : ((0x10 ||| (UInt8.ofNat (p.length/256) &&& 0x0F))::
      UInt8.ofNat (p.length%256)::p.take 6).length = 8 := by
    simp only [List.length_cons,List.length_take]
    omega
  have hdlc : (firstFrameOf id p).dlc = 8 := hlen
  obtain ⟨ht,hl⟩ := first_pci (p.length/256) (by omega)
  have hb0 := filled_byte id _ 0 (Nat.le_of_eq hlen) (by simp)
  have hb1 := filled_byte id _ 1 (Nat.le_of_eq hlen) (by simp)
  refine ⟨⟨⟨rfl,Nat.le_of_eq hdlc⟩,by omega,?_⟩,?_,hdlc,?_⟩
  · rw [pciType,firstFrameOf,hb0]
    exact ht
  · rw [firstFrameLength,pciLow,firstFrameOf,hb0,hb1]
    simp only [List.getD_cons_zero,List.getD_cons_succ,hl,UInt8.toNat_ofNat']
    omega
  · rw [firstData,hdlc,firstFrameOf,filled_slice id _ 2 6 (Nat.le_of_eq hlen) (Nat.le_of_eq hlen.symm)]
    simp [List.take_take]

theorem next_frame (k : ℕ) :
    Consecutive id (nextFrameOf id p k) ∧
      (nextFrameOf id p k).byte 0 &&& 0x0F = UInt8.ofNat ((k+1)%16) ∧
      (nextFrameOf id p k).dlc = 1+min 7 (p.length-(6+7*k)) ∧
      ∀ n ≤ min 7 (p.length-(6+7*k)),
        (nextFrameOf id p k).data.slice 1 n = (p.drop (6+7*k)).take n := by
  have hlen : ((0x20 ||| UInt8.ofNat ((k+1)%16))::(p.drop (6+7*k)).take 7).length =
      1+min 7 (p.length-(6+7*k)) := by
    simp only [List.length_cons,List.length_take,List.length_drop]
    omega
  have hdlc : (nextFrameOf id p k).dlc = 1+min 7 (p.length-(6+7*k)) := hlen
  obtain ⟨ht,hl⟩ := next_pci ((k+1)%16) (Nat.mod_lt _ (by decide))
  have hb0 := filled_byte id _ 0 (by rw [hlen]; omega) (by simp)
  have hmax : (nextFrameOf id p k).dlc ≤ isotpMaxFrameData := by
    rw [hdlc,isotpMaxFrameData]
    omega
  refine ⟨⟨⟨rfl,hmax⟩,by omega,?_⟩,?_,hdlc,?_⟩
  · rw [pciType,nextFrameOf,hb0]
    exact ht
  · rw [nextFrameOf,hb0]
    exact hl
  · intro n hn
    rw [nextFrameOf,filled_slice id _ 1 n (by rw [hlen]; omega) (by rw [hlen]; omega)]
    simp only [List.drop_succ_cons,List.drop_zero,List.take_take]
    congr 1
    omega

theorem single_frame (h1 : 1 ≤ p.length) (h7 : p.length ≤ 7) :
    ValidSingle id (singleFrameOf id p) ∧ singleData (singleFrameOf id p) = p := by
  have hlen : (UInt8.ofNat p.length::p).length = p.length+1 := rfl
  obtain ⟨ht,hl⟩ := single_pci p.length (by omega)
  have hb0 := filled_byte id (UInt8.ofNat p.length::p) 0 (by omega) (by simp)
  have hlow : pciLow (singleFrameOf id p) = p.length := by
    rw [pciLow,singleFrameOf,hb0]
    exact hl
  refine ⟨⟨⟨rfl,?_⟩,?_,by omega,by omega,?_⟩,?_⟩
  · change p.length+1 ≤ 8
    omega
  · rw [pciType,singleFrameOf,hb0]
    exact ht
  · rw [hlow]
    exact Nat.le_refl _
  · rw [singleData,hlow,singleFrameOf,filled_slice id _ 1 p.length (by omega) (by omega)]
    simp

end Frames

theorem carried_lt {p : List UInt8} (hp : 7 < p.length) (k : ℕ) :
    carried p k < p.length ↔ k < consecutives p := by
  rw [carried,consecutives,if_neg (by omega)]
  omega

theorem carried_succ (p : List UInt8) (k : ℕ) :
    carried p (k+1) = carried p k+min 7 (p.length-carried p k) := by
  unfold carried
  omega

theorem carried_eq {p : List UInt8} (hp : 7 < p.length) (k : ℕ) (h : k < consecutives p) :
    carried p k = 6+7*k := by
  have := (carried_lt hp k).mpr h
  unfold carried at this ⊢
  omega

theorem carried_slice {p : List UInt8} {b : Buffer UInt8 isotpMaxPayload} {k : ℕ}
    (hp : 7 < p.length) (hb : b.front p.length = p) (hk : k < consecutives p) :
    b.slice (carried p k) (min 7 (p.length-carried p k)) = (p.drop (6+7*k)).take 7 := by
  have hlt := (carried_lt hp k).mpr hk
  rw [Buffer.front_slice b hb _ _ (by omega),carried_eq hp k hk]
  by_cases h7 : 7 ≤ p.length-(6+7*k)
  · rw [Nat.min_eq_left h7]
  · rw [Nat.min_eq_right (by omega),List.take_of_length_le (by simp),
      List.take_of_length_le (by simp; omega)]

/-- The transmitter has emitted the First Frame and `k` consecutive frames. -/
structure TxAt (p : List UInt8) (rx : IsoTpRx) (tx : IsoTpTx) (k : ℕ) (waiting : Bool) :
    Prop where
  responseId : tx.responseId = rx.requestId
  requestId : rx.responseId = tx.requestId
  stMin : ValidStMin rx.config.stMin
  long : 7 < p.length
  active : tx.active = true
  waits : tx.waitingFlowControl = waiting
  payloadLen : tx.payloadLen = p.length
  offset : tx.offset = carried p k
  nextSequence : tx.nextSequence = UInt8.ofNat ((k+1)%16)
  buffer : tx.buffer.front p.length = p
  block : waiting = false → tx.remoteBlockSize = rx.config.blockSize ∧
    (k < consecutives p → rx.config.blockSize ≠ 0 →
      tx.blockCount.toNat = k%rx.config.blockSize.toNat)

/-- The receiver has taken `c` frames of the payload. -/
structure RxAt (p : List UInt8) (rx : IsoTpRx) (c : ℕ) : Prop where
  fresh : c = 0 → rx.active = false
  done : consecutives p < c → rx.active = false
  active : 0 < c → c ≤ consecutives p → rx.active = true ∧ rx.expectedLen = p.length ∧
    rx.receivedLen = carried p (c-1) ∧ rx.nextSequence = UInt8.ofNat (c%16) ∧
    rx.buffer.front rx.receivedLen = p.take rx.receivedLen ∧
    (rx.config.blockSize ≠ 0 → rx.blockCount.toNat = (c-1)%rx.config.blockSize.toNat)

/-- The receiver ends a block after `k` consecutive frames. -/
def Boundary (p : List UInt8) (rx : IsoTpRx) (k : ℕ) : Prop :=
  rx.config.blockSize.toNat ∣ k ∧ k < consecutives p

theorem block_size_pos {b : UInt8} (h : b ≠ 0) : 0 < b.toNat := by
  rcases Nat.eq_zero_or_pos b.toNat with h0 | h0
  · exact absurd (UInt8.toNat_inj.mp h0) h
  · exact h0

theorem block_count_step (b count : UInt8) (k : ℕ) (hb : b ≠ 0)
    (hc : count.toNat = k%b.toNat) :
    (b ≤ count+1 ↔ b.toNat ∣ k+1) ∧ (¬b.toNat ∣ k+1 → (count+1).toNat = (k+1)%b.toNat) := by
  have hpos := block_size_pos hb
  have hlt := Nat.mod_lt k hpos
  have hbb : b.toNat < 256 := b.toNat_lt
  have hadd : (count+1).toNat = k%b.toNat+1 := by
    rw [UInt8.toNat_add,hc]
    exact Nat.mod_eq_of_lt (by simp; omega)
  have hmod : (k+1)%b.toNat = if k%b.toNat+1 = b.toNat then 0 else k%b.toNat+1 := by
    rw [Nat.add_mod]
    split
    · rename_i h
      by_cases h1 : b.toNat = 1
      · simp [h1,Nat.mod_one]
      · rw [Nat.mod_eq_of_lt (by omega : 1 < b.toNat),h,Nat.mod_self]
    · rename_i h
      rw [Nat.mod_eq_of_lt (by omega : 1 < b.toNat),Nat.mod_eq_of_lt (by omega)]
  rw [UInt8.le_iff_toNat_le,hadd,Nat.dvd_iff_mod_eq_zero,hmod]
  constructor
  · split <;> omega
  · intro h
    rw [if_neg (by intro he; simp [he] at h)]

instance boundaryDecidable (p : List UInt8) (rx : IsoTpRx) (k : ℕ) : Decidable (Boundary p rx k) :=
  inferInstanceAs (Decidable (_ ∧ _))

theorem flow_frame (rx : IsoTpRx) :
    (rxMakeFlowControl rx).canId = rx.responseId ∧ (rxMakeFlowControl rx).dlc = 3 ∧
      (rxMakeFlowControl rx).byte 0 = 0x30 ∧
      (rxMakeFlowControl rx).byte 1 = rx.config.blockSize ∧
      (rxMakeFlowControl rx).byte 2 = rx.config.stMin := by
  refine ⟨rfl,rfl,?_,?_,?_⟩ <;> exact filled_byte _ _ _ (by simp) (by simp)

def SameSide (rx rx' : IsoTpRx) : Prop :=
  rx'.config = rx.config ∧ rx'.requestId = rx.requestId ∧ rx'.responseId = rx.responseId

/-- What taking frame `c` of the payload leaves and reports. -/
structure Taken (p : List UInt8) (rx : IsoTpRx) (c : ℕ)
    (r : IsoTpRx × IsoTpStatus × IsoTpRxEvent) : Prop where
  side : SameSide rx r.1
  rxAt : RxAt p r.1 (c+1)
  fine : isError r.2.1 = false
  delivers : receptions [.receiver r.2.1 r.2.2.payload] = if c = consecutives p then [some p] else []
  flow : r.2.2.flowControl = if Boundary p rx c then some (rxMakeFlowControl rx) else none

theorem boundary_last (p : List UInt8) (rx : IsoTpRx) : ¬Boundary p rx (consecutives p) :=
  fun h => Nat.lt_irrefl _ h.2

theorem rx_takes_single {p : List UInt8} {rx : IsoTpRx} (now : UInt32) (h1 : 1 ≤ p.length)
    (h7 : p.length ≤ 7) :
    Taken p rx 0 (isotpRxFeed rx (singleFrameOf rx.requestId p) now) := by
  obtain ⟨hf,hdata⟩ := single_frame rx.requestId p h1 h7
  have hn : consecutives p = 0 := if_pos h7
  have ho := rx_outcome rx (singleFrameOf rx.requestId p) now
  generalize isotpRxFeed rx (singleFrameOf rx.requestId p) now = r at ho ⊢
  cases ho with
  | ignored _ _ hsingle _ _ => exact absurd hf hsingle
  | single _ =>
    refine ⟨⟨rfl,rfl,rfl⟩,⟨fun _ => rfl,fun _ => rfl,fun _ hc => by omega⟩,rfl,?_,?_⟩
    · simp [hn,hdata,receptions]
    · simp [Boundary,hn]
  | refused _ _ hfirst _ => exact absurd (hfirst.2.2.symm.trans hf.2.1) (by decide)
  | started hfirst _ _ => exact absurd (hfirst.2.2.symm.trans hf.2.1) (by decide)
  | outOfSequence hnext _ _ => exact absurd (hnext.2.2.symm.trans hf.2.1) (by decide)
  | extended hnext _ _ _ _ => exact absurd (hnext.2.2.symm.trans hf.2.1) (by decide)
  | blockEnd hnext _ _ _ _ => exact absurd (hnext.2.2.symm.trans hf.2.1) (by decide)
  | finished hnext _ _ _ => exact absurd (hnext.2.2.symm.trans hf.2.1) (by decide)

theorem rx_takes_first {p : List UInt8} {rx : IsoTpRx} (now : UInt32) (h8 : 8 ≤ p.length)
    (hm : p.length ≤ 4095) :
    Taken p rx 0 (isotpRxFeed rx (firstFrameOf rx.requestId p) now) := by
  obtain ⟨hf,hlen,hdlc,hdata⟩ := first_frame rx.requestId p h8 hm
  have hpos : 0 < consecutives p := by
    rw [consecutives,if_neg (by omega)]
    omega
  have ho := rx_outcome rx (firstFrameOf rx.requestId p) now
  generalize isotpRxFeed rx (firstFrameOf rx.requestId p) now = r at ho ⊢
  cases ho with
  | ignored _ _ _ hfirst _ => exact absurd hf hfirst
  | single hsingle => exact absurd (hsingle.2.1.symm.trans hf.2.2) (by decide)
  | refused _ _ _ hlength =>
    rw [hlen,isotpMaxPayload] at hlength
    omega
  | started _ hlow hhigh =>
    refine ⟨⟨rfl,rfl,rfl⟩,⟨by omega,by omega,fun _ _ => ?_⟩,rfl,?_,?_⟩
    · have hfront := Buffer.front_write_zero rx.buffer (p.take 6)
        (by rw [List.length_take,isotpMaxPayload]; omega)
      rw [List.length_take,Nat.min_eq_left (by omega)] at hfront
      refine ⟨rfl,hlen,?_,rfl,?_,fun _ => (Nat.zero_mod _).symm⟩
      · simp only [begun,hdlc,carried]
        omega
      · simp only [begun,hdlc,hdata]
        exact hfront
    · rw [if_neg (by omega)]
      rfl
    · simp [Boundary,hpos]
  | outOfSequence hnext _ _ => exact absurd (hnext.2.2.symm.trans hf.2.2) (by decide)
  | extended hnext _ _ _ _ => exact absurd (hnext.2.2.symm.trans hf.2.2) (by decide)
  | blockEnd hnext _ _ _ _ => exact absurd (hnext.2.2.symm.trans hf.2.2) (by decide)
  | finished hnext _ _ _ => exact absurd (hnext.2.2.symm.trans hf.2.2) (by decide)

theorem extend_at {p : List UInt8} {rx : IsoTpRx} {k : ℕ} (now : UInt32) (count : UInt8)
    (hp : 7 < p.length) (hm : p.length ≤ 4095) (h : RxAt p rx (k+1)) (hk : k < consecutives p) :
    rx.receivedLen+min ((nextFrameOf rx.requestId p k).dlc-1) (rx.expectedLen-rx.receivedLen) =
        carried p (k+1) ∧
      (extend rx (nextFrameOf rx.requestId p k) now count).receivedLen = carried p (k+1) ∧
      (extend rx (nextFrameOf rx.requestId p k) now count).nextSequence =
        UInt8.ofNat ((k+2)%16) ∧
      (extend rx (nextFrameOf rx.requestId p k) now count).buffer.front (carried p (k+1)) =
        p.take (carried p (k+1)) := by
  obtain ⟨_,hexp,hrec,hseq,hbuf,_⟩ := h.active (Nat.succ_pos k) hk
  obtain ⟨hf,_,hdlc,hslice⟩ := next_frame rx.requestId p k
  have heq := carried_eq hp k hk
  have hsucc := carried_succ p k
  have hrec' : rx.receivedLen = 6+7*k := hrec.trans heq
  rw [heq] at hsucc
  have hlen : rx.receivedLen+min ((nextFrameOf rx.requestId p k).dlc-1)
      (rx.expectedLen-rx.receivedLen) = carried p (k+1) := by
    rw [hdlc,hexp,hrec']
    omega
  refine ⟨hlen,hlen,?_,?_⟩
  · simp only [extend,hseq]
    exact next_sequence_nat (k+1)
  · have hcopy : min ((nextFrameOf rx.requestId p k).dlc-1) (rx.expectedLen-rx.receivedLen) =
        min 7 (p.length-(6+7*k)) := by omega
    have hs := hslice _ (Nat.le_refl _)
    have hsl := slice_length (nextFrameOf rx.requestId p k) 1 (min 7 (p.length-(6+7*k)))
      (by omega)
    have hfit : 6+7*k+min 7 (p.length-(6+7*k)) ≤ 4095 := by
      rw [← hsucc]
      exact Nat.le_trans (Nat.min_le_left _ _) hm
    have hw := Buffer.front_write rx.buffer rx.receivedLen
      ((nextFrameOf rx.requestId p k).data.slice 1 (min 7 (p.length-(6+7*k))))
      (by rw [hsl,isotpMaxPayload,hrec']; exact hfit)
    rw [hsl,hbuf,hs,hrec',← List.take_add,← hsucc] at hw
    simp only [extend,hcopy,hs]
    rw [hrec']
    exact hw

theorem rx_takes_next {p : List UInt8} {rx : IsoTpRx} {k : ℕ} (now : UInt32)
    (hp : 7 < p.length) (hm : p.length ≤ 4095) (h : RxAt p rx (k+1)) (hk : k < consecutives p) :
    Taken p rx (k+1) (isotpRxFeed rx (nextFrameOf rx.requestId p k) now) := by
  obtain ⟨hactive,hexp,_,hseq,_,hcount⟩ := h.active (Nat.succ_pos k) hk
  obtain ⟨hf,hlow,_,_⟩ := next_frame rx.requestId p k
  have hlast := carried_lt hp (k+1)
  have ho := rx_outcome rx (nextFrameOf rx.requestId p k) now
  generalize isotpRxFeed rx (nextFrameOf rx.requestId p k) now = r at ho ⊢
  cases ho with
  | ignored _ _ _ _ hnext =>
    exact absurd ((hnext hf).1.symm.trans hactive) Bool.false_ne_true
  | single hsingle => exact absurd (hsingle.2.1.symm.trans hf.2.2) (by decide)
  | refused _ _ hfirst _ => exact absurd (hfirst.2.2.symm.trans hf.2.2) (by decide)
  | started hfirst _ _ => exact absurd (hfirst.2.2.symm.trans hf.2.2) (by decide)
  | outOfSequence _ _ hsequence => exact absurd (hlow.trans hseq.symm) hsequence
  | extended _ _ _ hmore hblock =>
    obtain ⟨hlen,hrec,hnext,hbuf⟩ := extend_at now (rx.blockCount+1) hp hm h hk
    rw [hlen,hexp,hlast] at hmore
    refine ⟨⟨rfl,rfl,rfl⟩,⟨by omega,by omega,fun _ _ => ?_⟩,rfl,?_,?_⟩
    · refine ⟨hactive,hexp,hrec,hnext,hrec ▸ hbuf,fun hz => ?_⟩
      have hb := block_count_step _ _ k hz (hcount hz)
      exact hb.2 fun hd => hblock ⟨hz,hb.1.mpr hd⟩
    · rw [if_neg (by omega)]
      rfl
    · refine (if_neg fun hd => ?_).symm
      by_cases hz : rx.config.blockSize = 0
      · have hd0 := hd.1
        rw [hz] at hd0
        simp at hd0
      · exact hblock ⟨hz,(block_count_step _ _ k hz (hcount hz)).1.mpr hd.1⟩
  | blockEnd _ _ _ hmore hblock =>
    obtain ⟨hlen,hrec,hnext,hbuf⟩ := extend_at now 0 hp hm h hk
    rw [hlen,hexp,hlast] at hmore
    have hd := (block_count_step _ _ k hblock.1 (hcount hblock.1)).1.mp hblock.2
    refine ⟨⟨rfl,rfl,rfl⟩,⟨by omega,by omega,fun _ _ => ?_⟩,rfl,?_,?_⟩
    · exact ⟨hactive,hexp,hrec,hnext,hrec ▸ hbuf,fun _ => (Nat.mod_eq_zero_of_dvd hd).symm⟩
    · rw [if_neg (by omega)]
      rfl
    · rw [if_pos ⟨hd,hmore⟩]
  | finished _ _ _ hdone =>
    obtain ⟨hlen,hrec,hnext,hbuf⟩ := extend_at now (rx.blockCount+1) hp hm h hk
    rw [hlen,hexp] at hdone
    have hend : k+1 = consecutives p := by
      have := hlast.not.mp (Nat.not_lt.mpr hdone)
      omega
    have hall : carried p (k+1) = p.length := Nat.le_antisymm (Nat.min_le_left _ _) hdone
    rw [hall,List.take_length] at hbuf
    refine ⟨⟨rfl,rfl,rfl⟩,⟨by omega,fun _ => rfl,by omega⟩,rfl,?_,?_⟩
    · rw [if_pos hend]
      simp [receptions,hexp,hbuf]
    · rw [hend,if_neg (boundary_last p rx)]

theorem rx_takes {p : List UInt8} {rx : IsoTpRx} {c : ℕ} (now : UInt32) (h1 : 1 ≤ p.length)
    (hm : p.length ≤ 4095) (h : RxAt p rx c) (hc : c ≤ consecutives p) :
    Taken p rx c (isotpRxFeed rx (wire rx.requestId p c) now) := by
  cases c with
  | zero =>
    by_cases h7 : p.length ≤ 7
    · rw [wire,if_pos h7]
      exact rx_takes_single now h1 h7
    · rw [wire,if_neg h7]
      exact rx_takes_first now (by omega) hm
  | succ k =>
    have hp : 7 < p.length := by
      by_contra hn
      rw [consecutives,if_pos (by omega)] at hc
      omega
    exact rx_takes_next now hp hm h hc

theorem side_boundary {rx rx' : IsoTpRx} (h : SameSide rx rx') (p : List UInt8) (k : ℕ) :
    Boundary p rx' k ↔ Boundary p rx k := by
  simp only [Boundary,h.1]

theorem side_flow {rx rx' : IsoTpRx} (h : SameSide rx rx') :
    rxMakeFlowControl rx' = rxMakeFlowControl rx := by
  simp only [rxMakeFlowControl,h.1,h.2.2]

theorem side_tx {p : List UInt8} {rx rx' : IsoTpRx} {tx : IsoTpTx} {k : ℕ} {w : Bool}
    (hs : SameSide rx rx') (h : TxAt p rx tx k w) : TxAt p rx' tx k w := by
  obtain ⟨hc,hq,hr⟩ := hs
  refine ⟨h.responseId.trans hq.symm,hr.trans h.requestId,?_,h.long,h.active,h.waits,
    h.payloadLen,h.offset,h.nextSequence,h.buffer,?_⟩
  · rw [hc]
    exact h.stMin
  · rw [hc]
    exact h.block

end CanopenReference.IsoTpDelivery
