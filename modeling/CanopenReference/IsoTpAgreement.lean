import CanopenReference.IsoTpEncoding

/-!
# Reassembly on the target and on the host

The same frames are fed to both receivers. While the target is receiving, the
host holds the same message. A single frame or a First Frame of an illegal
length ends the reception on the target only; what the host then still holds
shows when a later consecutive frame completes it.
-/

set_option autoImplicit false

namespace CanopenReference.IsoTpAgreement
open Library Library.Runs IsoTp IsoTpReceiver IsoTpDelivery IsoTpEncoding UdsIsotp

/-- One frame with the given identifier, as the target and the host see it. -/
structure WireFrame (id : UInt32) where
  target : IsoTpCanFrame
  host : CanFrame
  addressed : target.canId = id
  sameId : host.canId = target.canId.toNat
  sameData : host.data = frameData target
  dlcLow : 1 ≤ target.dlc
  dlcHigh : target.dlc ≤ isotpMaxFrameData

structure Receivers where
  target : IsoTpRx
  host : IsoTpReceiver

structure Delivery where
  target : Option (List UInt8)
  host : Option (List UInt8)
  deriving DecidableEq

def delivered : Fed → Option (List UInt8)
  | .ok (_,payload) => payload
  | .error _ => none

section Wire
variable {id : UInt32}

def feedBoth (s : Receivers) (input : WireFrame id × UInt32) : Receivers × List Delivery :=
  let target := isotpRxFeed s.target input.1.target input.2
  let host := feed s.host input.1.host
  (⟨target.1,host.1⟩,[⟨target.2.2.payload,delivered host.2⟩])

theorem host_length (f : WireFrame id) : f.host.data.length = f.target.dlc := by
  have hs := f.target.data.size
  have hd := f.dlcHigh
  rw [f.sameData,frameData,Buffer.front,List.length_take,hs]
  exact Nat.min_eq_left hd

theorem host_byte (f : WireFrame id) (i : ℕ) (h : i < f.target.dlc) :
    f.host.data.getD i 0 = f.target.byte i := by
  rw [f.sameData,frameData,IsoTpCanFrame.byte,Buffer.cell_front _ i f.target.dlc 0 h]

theorem host_pci (f : WireFrame id) : pci f.host = (pciType f.target).toNat := by
  rw [pci,host_byte f 0 f.dlcLow,pciType,UInt8.toNat_shiftRight]
  rfl

theorem host_low (f : WireFrame id) : low f.host = pciLow f.target := by
  rw [low,host_byte f 0 f.dlcLow,pciLow,UInt8.toNat_and]
  rfl

theorem host_first_length (f : WireFrame id) (h : 2 ≤ f.target.dlc) :
    firstLength f.host = firstFrameLength f.target := by
  have hb : (f.target.byte 1).toNat < 2^8 := UInt8.toNat_lt _
  rw [firstLength,host_low,host_byte f 1 h,firstFrameLength,
    ← Nat.shiftLeft_add_eq_or_of_lt hb,Nat.shiftLeft_eq]

theorem host_drop (f : WireFrame id) (k : ℕ) :
    f.host.data.drop k = f.target.data.slice k (f.target.dlc-k) := by
  rw [f.sameData,frameData,Buffer.front,List.drop_take,Buffer.slice]

theorem host_nonempty (f : WireFrame id) : f.host.data ≠ [] := by
  intro h
  have hl := host_length f
  have hd := f.dlcLow
  rw [h,List.length_nil] at hl
  omega

theorem pci_cases (f : WireFrame id) (n : ℕ) (h : n < 16) :
    pci f.host = n ↔ pciType f.target = UInt8.ofNat n := by
  rw [host_pci,← UInt8.toNat_inj,UInt8.toNat_ofNat_of_lt' (Nat.lt_trans h (by decide))]

theorem feed_single (r : IsoTpReceiver) {f : WireFrame id} (h : pciType f.target = 0) :
    feed r f.host = (r,feedSingle f.host) := by
  rw [feed,if_neg (host_nonempty f),if_pos ((pci_cases f 0 (by decide)).mpr h)]

theorem feed_first (r : IsoTpReceiver) {f : WireFrame id} (h : pciType f.target = 1) :
    feed r f.host = feedFirst r f.host := by
  have hp : pci f.host = 1 := (pci_cases f 1 (by decide)).mpr h
  rw [feed,if_neg (host_nonempty f),if_neg (by omega),if_pos hp]

theorem feed_consecutive (r : IsoTpReceiver) {f : WireFrame id} (h : pciType f.target = 2) :
    feed r f.host = feedConsecutive r f.host := by
  have hp : pci f.host = 2 := (pci_cases f 2 (by decide)).mpr h
  rw [feed,if_neg (host_nonempty f),if_neg (by omega),if_neg (by omega),if_pos hp]

theorem feed_other (r : IsoTpReceiver) {f : WireFrame id} (h0 : pciType f.target ≠ 0)
    (h1 : pciType f.target ≠ 1) (h2 : pciType f.target ≠ 2) :
    (feed r f.host).1 = r ∧ delivered (feed r f.host).2 = none := by
  rw [feed,if_neg (host_nonempty f),if_neg ((pci_cases f 0 (by decide)).not.mpr h0),
    if_neg ((pci_cases f 1 (by decide)).not.mpr h1),
    if_neg ((pci_cases f 2 (by decide)).not.mpr h2)]
  by_cases h3 : pci f.host = 3
  · rw [if_pos h3,feedFlowControl]
    split <;> exact ⟨rfl,rfl⟩
  · rw [if_neg h3]
    exact ⟨rfl,rfl⟩

end Wire

def EmptySingle (f : CanFrame) : Prop := pci f = 0 ∧ low f = 0

/-- The frame is the last one of the message that the receiver holds. -/
def Finishes (r : IsoTpReceiver) (f : CanFrame) : Prop :=
  pci f = 2 ∧ low f = r.nextSequence ∧
    ∃ n, r.expected = some n ∧ n ≤ r.buffer.length+(f.data.length-1)

/-- No empty single frame comes, and no end of a message that the host still
holds after the target has given it up. -/
def Alike {id : UInt32} (s : Receivers) (input : WireFrame id × UInt32) : Prop :=
  ¬EmptySingle input.1.host ∧ ¬(s.target.active = false ∧ Finishes s.host input.1.host)

structure Holds (c : IsoTpRx) (h : IsoTpReceiver) : Prop where
  expected : h.expected = some c.expectedLen
  buffer : h.buffer = c.buffer.front c.receivedLen
  nextSequence : h.nextSequence = c.nextSequence.toNat
  short : c.receivedLen < c.expectedLen
  bounded : c.expectedLen ≤ isotpMaxPayload

structure Matches (id : UInt32) (s : Receivers) : Prop where
  requestId : s.target.requestId = id
  maxPayload : s.host.maxPayload = isotpMaxPayload
  holds : s.target.active = true → Holds s.target s.host

section Steps
variable {id : UInt32}

def grown (r : IsoTpReceiver) (f : CanFrame) : IsoTpReceiver :=
  { r with buffer := r.buffer++f.data.drop 1, nextSequence := (r.nextSequence+1) &&& 0x0F }

theorem consecutive_taken {r : IsoTpReceiver} {f : CanFrame} {n : ℕ} (he : r.expected = some n)
    (hs : low f = r.nextSequence) :
    feedConsecutive r f =
      if n ≤ (grown r f).buffer.length then
        (reset (grown r f),.ok ([],some ((grown r f).buffer.take n)))
      else (grown r f,.ok ([],none)) := by
  have hexp : (grown r f).expected = some n := he
  rw [feedConsecutive,if_neg (by rw [he]; simp),if_neg (by simp [hs])]
  show ((completeIfReady (grown r f)).1,Except.ok ([],(completeIfReady (grown r f)).2)) = _
  simp only [completeIfReady,hexp]
  split <;> rfl

theorem grown_length (r : IsoTpReceiver) (f : CanFrame) :
    (grown r f).buffer.length = r.buffer.length+(f.data.length-1) := by
  simp [grown]

theorem consecutive_delivers {r : IsoTpReceiver} {f : CanFrame} (hp : pci f = 2) :
    delivered (feedConsecutive r f).2 = none ↔ ¬Finishes r f := by
  cases he : r.expected with
  | none =>
    have hraise : feedConsecutive r f = (r,raised "consecutive frame without first frame") := by
      rw [feedConsecutive,if_pos he]
    rw [hraise]
    simp [Finishes,he,delivered,raised]
  | some n =>
    by_cases hs : low f = r.nextSequence
    · rw [consecutive_taken he hs,grown_length]
      by_cases hn : n ≤ r.buffer.length+(f.data.length-1)
      · simp [hn,Finishes,hp,hs,he,delivered]
      · simp [hn,Finishes,he,delivered]
    · rw [feedConsecutive,if_neg (by rw [he]; simp),if_pos hs]
      simp [Finishes,hs,delivered,raised]

theorem feed_max_payload (r : IsoTpReceiver) (f : CanFrame) :
    (feed r f).1.maxPayload = r.maxPayload := by
  have hready : ∀ q : IsoTpReceiver, (completeIfReady q).1.maxPayload = q.maxPayload := by
    intro q
    unfold completeIfReady
    split
    · split <;> rfl
    · rfl
  unfold feed
  split
  · rfl
  split
  · rfl
  split
  · unfold feedFirst
    simp only
    split
    · rfl
    split
    · rfl
    split
    · rfl
    · exact hready _
  split
  · unfold feedConsecutive
    split
    · rfl
    split
    · rfl
    · exact hready _
  split <;> rfl

def opened (r : IsoTpReceiver) (f : CanFrame) : IsoTpReceiver :=
  { r with expected := some (firstLength f), buffer := f.data.drop 2, nextSequence := 1 }

def hostFlowControl (f : CanFrame) : CanFrame := ⟨f.canId,[0x30,0x00,0x00],f.idRange,by decide⟩

theorem first_taken {r : IsoTpReceiver} {f : CanFrame} (hlen : 2 ≤ f.data.length)
    (h8 : 8 ≤ firstLength f) (hmax : firstLength f ≤ r.maxPayload) :
    feedFirst r f = (opened r f,.ok ([hostFlowControl f],none)) := by
  have hsize := f.size
  have hready : completeIfReady (opened r f) = (opened r f,none) := by
    have hexp : (opened r f).expected = some (firstLength f) := rfl
    rw [completeIfReady,hexp]
    simp only
    rw [if_neg (by simp only [opened,List.length_drop]; omega)]
  have hflow : canFrame f.canId [0x30,0x00,0x00] = .ok (hostFlowControl f) :=
    can_frame_ok f.idRange (hostFlowControl f).size
  rw [feedFirst,if_neg (by omega)]
  simp only
  rw [if_neg (by omega),hflow]
  show ((completeIfReady (opened r f)).1,Except.ok (_,(completeIfReady (opened r f)).2)) = _
  rw [hready]

theorem first_refused {r : IsoTpReceiver} {f : CanFrame}
    (h : f.data.length < 2 ∨ firstLength f ≤ 7 ∨ r.maxPayload < firstLength f) :
    (feedFirst r f).1 = r ∧ delivered (feedFirst r f).2 = none := by
  unfold feedFirst
  split
  · exact ⟨rfl,rfl⟩
  · rename_i hlen
    simp only
    rw [if_pos (by omega)]
    exact ⟨rfl,rfl⟩

theorem single_fed (f : WireFrame id) :
    delivered (feedSingle f.host) =
      if 7 < pciLow f.target ∨ f.target.dlc-1 < pciLow f.target then none
      else some (singleData f.target) := by
  unfold feedSingle
  simp only [host_low,host_length]
  split
  · rfl
  · rename_i hl
    rw [host_drop f 1,singleData,slice_take f.target 1 _ _ (by omega)]
    rfl

theorem sequence_agrees (x : UInt8) : ((x+1) &&& 0x0F).toNat = (x.toNat+1) &&& 0x0F := by
  have h15 : (0x0F:UInt8).toNat = 2^4-1 := rfl
  rw [UInt8.toNat_and,UInt8.toNat_add,h15,show (0x0F:ℕ) = 2^4-1 by rfl,
    Nat.and_two_pow_sub_one_eq_mod,Nat.and_two_pow_sub_one_eq_mod]
  exact Nat.mod_mod_of_dvd _ (by decide)

theorem extend_holds {c : IsoTpRx} {h : IsoTpReceiver} {f : WireFrame id} (now : UInt32)
    (count : UInt8) (hh : Holds c h)
    (hmore : c.receivedLen+min (f.target.dlc-1) (c.expectedLen-c.receivedLen) < c.expectedLen) :
    Holds (extend c f.target now count) (grown h f.host) := by
  have hmin : min (f.target.dlc-1) (c.expectedLen-c.receivedLen) = f.target.dlc-1 := by
    have := hh.short
    omega
  rw [hmin] at hmore
  have hlen := slice_length f.target 1 (f.target.dlc-1) (by
    have hlow := f.dlcLow
    have hhigh : f.target.dlc ≤ 8 := f.dlcHigh
    omega)
  have hw := Buffer.front_write c.buffer c.receivedLen (f.target.data.slice 1 (f.target.dlc-1))
    (by
      have := hh.bounded
      rw [hlen]
      omega)
  rw [hlen] at hw
  refine ⟨hh.expected,?_,?_,?_,hh.bounded⟩
  · simp only [grown,extend,hmin]
    rw [host_drop f 1,hh.buffer,hw]
  · simp only [grown,extend]
    rw [hh.nextSequence,sequence_agrees]
  · simp only [extend,hmin]
    exact hmore

theorem finish_agrees {c : IsoTpRx} {h : IsoTpReceiver} {f : WireFrame id} (now : UInt32)
    (count : UInt8) (hh : Holds c h)
    (hdone : c.expectedLen ≤
      c.receivedLen+min (f.target.dlc-1) (c.expectedLen-c.receivedLen)) :
    (extend c f.target now count).buffer.front c.expectedLen =
      (grown h f.host).buffer.take c.expectedLen := by
  have hshort := hh.short
  have hbound := hh.bounded
  have hmin : min (f.target.dlc-1) (c.expectedLen-c.receivedLen) =
      c.expectedLen-c.receivedLen := by omega
  have hhigh : f.target.dlc ≤ 8 := f.dlcHigh
  have hlen := slice_length f.target 1 (c.expectedLen-c.receivedLen) (by omega)
  have hw := Buffer.front_write c.buffer c.receivedLen
    (f.target.data.slice 1 (c.expectedLen-c.receivedLen)) (by rw [hlen]; omega)
  rw [hlen,Nat.add_sub_cancel' (Nat.le_of_lt hshort)] at hw
  have hfront := Buffer.front_length c.buffer c.receivedLen (by omega)
  simp only [grown,extend,hmin]
  rw [hw,hh.buffer,host_drop f 1,List.take_append,hfront,
    List.take_of_length_le (by rw [hfront]; omega),slice_take f.target 1 _ _ (by omega)]

theorem alike_single {s : Receivers} {f : WireFrame id} {now : UInt32}
    (h0 : pciType f.target = 0) : Alike s (f,now) ↔ pciLow f.target ≠ 0 := by
  have hp : pci f.host = 0 := (pci_cases f 0 (by decide)).mpr h0
  simp [Alike,EmptySingle,Finishes,hp,host_low]

theorem alike_other {s : Receivers} {f : WireFrame id} {now : UInt32}
    (h0 : pciType f.target ≠ 0) (h2 : pciType f.target = 2 → s.target.active = true) :
    Alike s (f,now) := by
  refine ⟨fun he => h0 ((pci_cases f 0 (by decide)).mp he.1),fun hf => ?_⟩
  have hactive := h2 ((pci_cases f 2 (by decide)).mp hf.2.1)
  exact Bool.false_ne_true (hf.1.symm.trans hactive)

theorem alike_idle {s : Receivers} {f : WireFrame id} {now : UInt32}
    (h2 : pciType f.target = 2) (hidle : s.target.active = false) :
    Alike s (f,now) ↔ ¬Finishes s.host f.host := by
  have hp : pci f.host = 2 := (pci_cases f 2 (by decide)).mpr h2
  simp [Alike,EmptySingle,hp,hidle]

def Agreed (s : Receivers) (f : WireFrame id) (now : UInt32)
    (r : IsoTpRx × IsoTpStatus × IsoTpRxEvent) : Prop :=
  Matches id ⟨r.1,(feed s.host f.host).1⟩ ∧
    (r.2.2.payload = delivered (feed s.host f.host).2 ↔ Alike s (f,now))

variable {s : Receivers} {f : WireFrame id} {now : UInt32}

theorem ignored_agreed {status : IsoTpStatus} (h : Matches id s)
    (hsingle : ¬ValidSingle s.target.requestId f.target)
    (hfirst : ¬FirstFrame s.target.requestId f.target)
    (hnext : Consecutive s.target.requestId f.target → s.target.active = false) :
    Agreed s f now (s.target,status,noEvent) := by
  have haddr : Addressed s.target.requestId f.target := ⟨f.addressed.trans h.requestId.symm,f.dlcHigh⟩
  have hdlc := f.dlcLow
  by_cases h0 : pciType f.target = 0
  · have hbad : ¬(1 ≤ pciLow f.target ∧ pciLow f.target ≤ 7 ∧ pciLow f.target+1 ≤ f.target.dlc) :=
      fun hl => hsingle ⟨haddr,h0,hl⟩
    rw [Agreed,feed_single _ h0,alike_single h0,single_fed]
    refine ⟨h,?_⟩
    split
    · rename_i hl
      simp only [noEvent,true_iff]
      omega
    · rename_i hl
      simp only [noEvent,reduceCtorEq,false_iff]
      omega
  by_cases h1 : pciType f.target = 1
  · have hshort : f.host.data.length < 2 := by
      rw [host_length]
      by_contra hlen
      exact hfirst ⟨haddr,by omega,h1⟩
    obtain ⟨hstate,hnone⟩ := first_refused (r := s.host) (Or.inl hshort)
    rw [Agreed,feed_first _ h1,hstate,hnone]
    exact ⟨h,iff_of_true rfl (alike_other h0 (fun h2 => by rw [h1] at h2; cases h2))⟩
  by_cases h2 : pciType f.target = 2
  · have hidle := hnext ⟨haddr,hdlc,h2⟩
    have hp : pci f.host = 2 := (pci_cases f 2 (by decide)).mpr h2
    rw [Agreed,alike_idle h2 hidle,← consecutive_delivers hp,feed_consecutive _ h2]
    refine ⟨⟨h.requestId,?_,fun ha => ?_⟩,eq_comm⟩
    · rw [← feed_consecutive _ h2,feed_max_payload]
      exact h.maxPayload
    · exact absurd (hidle.symm.trans ha) Bool.false_ne_true
  · obtain ⟨hstate,hnone⟩ := feed_other s.host h0 h1 h2
    rw [Agreed,hstate,hnone]
    exact ⟨h,iff_of_true rfl (alike_other h0 fun h => absurd h h2)⟩

theorem idle_matches {c : IsoTpRx} (h : Matches id s) (hid : c.requestId = s.target.requestId)
    (hidle : c.active = false) : Matches id ⟨c,(feed s.host f.host).1⟩ :=
  ⟨hid.trans h.requestId,(feed_max_payload s.host f.host).trans h.maxPayload,
    fun ha => absurd (hidle.symm.trans ha) Bool.false_ne_true⟩

theorem grown_ends (hh : Holds s.target s.host) :
    s.target.expectedLen ≤ (grown s.host f.host).buffer.length ↔
      s.target.expectedLen ≤ s.target.receivedLen+
        min (f.target.dlc-1) (s.target.expectedLen-s.target.receivedLen) := by
  have hshort := hh.short
  have hbound := hh.bounded
  have hfront := Buffer.front_length s.target.buffer s.target.receivedLen (by omega)
  rw [grown_length,host_length,hh.buffer,hfront]
  omega

theorem open_agreed {status : IsoTpStatus} {flow : Option IsoTpCanFrame} (count : UInt8)
    (h : Matches id s) (hactive : s.target.active = true) (h2 : pciType f.target = 2)
    (hsequence : f.target.byte 0 &&& 0x0F = s.target.nextSequence)
    (hmore : s.target.receivedLen+
      min (f.target.dlc-1) (s.target.expectedLen-s.target.receivedLen) < s.target.expectedLen) :
    Agreed s f now (extend s.target f.target now count,status,⟨none,flow⟩) := by
  have hh := h.holds hactive
  have htaken := consecutive_taken (f := f.host) hh.expected
    (by rw [host_low,hh.nextSequence,pciLow,hsequence])
  rw [if_neg (by rw [grown_ends hh]; omega)] at htaken
  rw [Agreed,feed_consecutive _ h2,htaken]
  exact ⟨⟨h.requestId,h.maxPayload,fun _ => extend_holds now count hh hmore⟩,
    iff_of_true rfl (alike_other (fun h0 => by rw [h0] at h2; cases h2) fun _ => hactive)⟩

theorem outcome_agreed {r : IsoTpRx × IsoTpStatus × IsoTpRxEvent}
    (ho : RxOutcome s.target f.target now r) (h : Matches id s) : Agreed s f now r := by
  have hactive_alike : pciType f.target = 2 → s.target.active = true → Alike s (f,now) :=
    fun h2 ha => alike_other (fun h0 => by rw [h0] at h2; cases h2) fun _ => ha
  cases ho with
  | ignored status _ hsingle hfirst hnext =>
    exact ignored_agreed h hsingle hfirst fun hc => (hnext hc).1
  | single hsingle =>
    obtain ⟨_,h0,h1,h7,hs⟩ := hsingle
    refine ⟨idle_matches h rfl rfl,?_⟩
    rw [feed_single _ h0,single_fed,alike_single h0,if_neg (by omega)]
    exact iff_of_true rfl (by omega)
  | refused _ _ hfirst hlength =>
    refine ⟨idle_matches h rfl rfl,?_⟩
    have hlen := host_first_length f hfirst.2.1
    obtain ⟨_,hnone⟩ := first_refused (r := s.host) (f := f.host)
      (Or.inr (by rw [hlen,h.maxPayload]; exact hlength))
    rw [feed_first _ hfirst.2.2,hnone]
    exact iff_of_true rfl (alike_other (fun h0 => by rw [hfirst.2.2] at h0; cases h0)
      fun h2 => by rw [hfirst.2.2] at h2; cases h2)
  | started hfirst hlow hhigh =>
    have hlen := host_first_length f hfirst.2.1
    have htaken := first_taken (r := s.host) (f := f.host)
      (by rw [host_length]; exact hfirst.2.1) (by rw [hlen]; exact hlow)
      (by rw [hlen,h.maxPayload]; exact hhigh)
    rw [Agreed,feed_first _ hfirst.2.2,htaken]
    refine ⟨⟨h.requestId,h.maxPayload,fun _ => ⟨?_,?_,rfl,?_,hhigh⟩⟩,iff_of_true rfl ?_⟩
    · simp only [opened,begun,hlen]
    · have hmax : f.target.dlc ≤ 8 := f.dlcHigh
      have hdata := slice_length f.target 2 (f.target.dlc-2) (by omega)
      have hfront := Buffer.front_write_zero s.target.buffer (firstData f.target)
        (by rw [firstData,hdata,isotpMaxPayload]; omega)
      rw [firstData,hdata] at hfront
      simp only [opened,begun,firstData]
      rw [hfront,host_drop]
    · have hmax : f.target.dlc ≤ 8 := f.dlcHigh
      simp only [begun]
      omega
    · exact alike_other (fun h0 => by rw [hfirst.2.2] at h0; cases h0)
        fun h2 => by rw [hfirst.2.2] at h2; cases h2
  | outOfSequence hnext hactive hsequence =>
    have hh := h.holds hactive
    refine ⟨idle_matches h rfl rfl,?_⟩
    have hlow : low f.host ≠ s.host.nextSequence := by
      rw [host_low,hh.nextSequence]
      exact fun he => hsequence (UInt8.toNat_inj.mp he)
    rw [feed_consecutive _ hnext.2.2,feedConsecutive,if_neg (by rw [hh.expected]; simp),
      if_pos hlow]
    exact iff_of_true rfl (hactive_alike hnext.2.2 hactive)
  | extended hnext hactive hsequence hmore _ =>
    exact open_agreed _ h hactive hnext.2.2 hsequence hmore
  | blockEnd hnext hactive hsequence hmore _ =>
    exact open_agreed _ h hactive hnext.2.2 hsequence hmore
  | finished hnext hactive hsequence hdone =>
    have hh := h.holds hactive
    have htaken := consecutive_taken (f := f.host) hh.expected
      (by rw [host_low,hh.nextSequence,pciLow,hsequence])
    refine ⟨idle_matches h rfl rfl,?_⟩
    rw [if_pos ((grown_ends hh).mpr hdone)] at htaken
    rw [feed_consecutive _ hnext.2.2,htaken,
      finish_agrees now (s.target.blockCount+1) hh hdone]
    exact iff_of_true rfl (hactive_alike hnext.2.2 hactive)

theorem both_step (s : Receivers) (input : WireFrame id × UInt32) (h : Matches id s) :
    Matches id (feedBoth s input).1 ∧
      ((∀ d ∈ (feedBoth s input).2, d.target = d.host) ↔ Alike s input) := by
  have ho := rx_outcome s.target input.1.target input.2
  obtain ⟨hm,hd⟩ := outcome_agreed ho h
  exact ⟨hm,by simpa [feedBoth] using hd⟩

end Steps

/-- An initialised target receiver and a new host receiver. -/
def freshReceivers (rx : IsoTpRx) (config : Option IsoTpConfig) (requestId responseId : UInt32) :
    Receivers := ⟨isotpRxInit rx config requestId responseId,isoTpReceiver⟩

theorem fresh_matches (rx : IsoTpRx) (config : Option IsoTpConfig)
    (requestId responseId : UInt32) :
    Matches requestId (freshReceivers rx config requestId responseId) :=
  ⟨rfl,rfl,fun ha => by cases ha⟩

/-- Both receivers deliver the same payloads at the same frames exactly when
all frames of the run are alike to them. -/
theorem receivers_agree (rx : IsoTpRx) (config : Option IsoTpConfig)
    (requestId responseId : UInt32) (inputs : List (WireFrame requestId × UInt32)) :
    let start := freshReceivers rx config requestId responseId
    let deliveries := (run feedBoth start inputs).2
    deliveries.map Delivery.target = deliveries.map Delivery.host ↔
      Along feedBoth Alike start inputs := by
  simp only
  rw [List.map_inj_left]
  exact along_iff_events feedBoth Alike (Matches requestId) (fun d => d.target = d.host)
    (fun s input h _ => (both_step s input h).1) (fun s input h => (both_step s input h).2)
    _ inputs (fresh_matches rx config requestId responseId)

/-- No empty single frame comes, and while the target is receiving no valid
single frame and no First Frame of an illegal length. -/
def Undisturbed {id : UInt32} (s : Receivers) (input : WireFrame id × UInt32) : Prop :=
  ¬EmptySingle input.1.host ∧ (s.target.active = true →
    ¬ValidSingle s.target.requestId input.1.target ∧
      ¬(FirstFrame s.target.requestId input.1.target ∧
        (firstFrameLength input.1.target ≤ 7 ∨
          isotpMaxPayload < firstFrameLength input.1.target)))

structure InStep (id : UInt32) (s : Receivers) : Prop where
  matched : Matches id s
  idle : s.target.active = false → s.host.expected = none

theorem in_step_alike {id : UInt32} {s : Receivers} {input : WireFrame id × UInt32}
    (h : InStep id s) (hu : Undisturbed s input) : Alike s input := by
  refine ⟨hu.1,fun ⟨hidle,_,_,n,hn,_⟩ => ?_⟩
  rw [h.idle hidle] at hn
  cases hn

theorem outcome_idle {id : UInt32} {s : Receivers} {f : WireFrame id} {now : UInt32}
    {r : IsoTpRx × IsoTpStatus × IsoTpRxEvent} (ho : RxOutcome s.target f.target now r)
    (h : InStep id s) (hu : Undisturbed s (f,now)) (hidle : r.1.active = false) :
    (feed s.host f.host).1.expected = none := by
  have hbefore : (ValidSingle s.target.requestId f.target ∨
      FirstFrame s.target.requestId f.target ∧ (firstFrameLength f.target ≤ 7 ∨
        isotpMaxPayload < firstFrameLength f.target)) → s.target.active = false := by
    intro hv
    by_contra ha
    obtain ⟨hsingle,hfirst⟩ := hu.2 (by simpa using ha)
    exact hv.elim hsingle hfirst
  cases ho with
  | ignored status _ hsingle hfirst hnext =>
    have haddr : Addressed s.target.requestId f.target :=
      ⟨f.addressed.trans h.matched.requestId.symm,f.dlcHigh⟩
    have hnone := h.idle hidle
    by_cases h0 : pciType f.target = 0
    · rw [feed_single _ h0]
      exact hnone
    by_cases h1 : pciType f.target = 1
    · have hshort : f.host.data.length < 2 := by
        rw [host_length]
        by_contra hlen
        exact hfirst ⟨haddr,by omega,h1⟩
      rw [feed_first _ h1,(first_refused (Or.inl hshort)).1]
      exact hnone
    by_cases h2 : pciType f.target = 2
    · rw [feed_consecutive _ h2,feedConsecutive,if_pos hnone]
      exact hnone
    · rw [(feed_other s.host h0 h1 h2).1]
      exact hnone
  | single hsingle =>
    rw [feed_single _ hsingle.2.1]
    exact h.idle (hbefore (Or.inl hsingle))
  | refused _ _ hfirst hlength =>
    have hlen := host_first_length f hfirst.2.1
    have hbad : firstLength f.host ≤ 7 ∨ s.host.maxPayload < firstLength f.host := by
      rw [hlen,h.matched.maxPayload]
      exact hlength
    rw [feed_first _ hfirst.2.2,(first_refused (Or.inr hbad)).1]
    exact h.idle (hbefore (Or.inr ⟨hfirst,hlength⟩))
  | started _ _ _ => cases hidle
  | outOfSequence hnext hactive hsequence =>
    have hh := h.matched.holds hactive
    have hlow : low f.host ≠ s.host.nextSequence := by
      rw [host_low,hh.nextSequence]
      exact fun he => hsequence (UInt8.toNat_inj.mp he)
    rw [feed_consecutive _ hnext.2.2,feedConsecutive,if_neg (by rw [hh.expected]; simp),
      if_pos hlow]
    rfl
  | extended _ hactive _ _ _ => exact absurd (hidle.symm.trans hactive) Bool.false_ne_true
  | blockEnd _ hactive _ _ _ => exact absurd (hidle.symm.trans hactive) Bool.false_ne_true
  | finished hnext hactive hsequence hdone =>
    have hh := h.matched.holds hactive
    have htaken := consecutive_taken (f := f.host) hh.expected
      (by rw [host_low,hh.nextSequence,pciLow,hsequence])
    rw [if_pos ((grown_ends hh).mpr hdone)] at htaken
    rw [feed_consecutive _ hnext.2.2,htaken]
    rfl

theorem undisturbed_alike {id : UInt32} {s : Receivers} (inputs : List (WireFrame id × UInt32))
    (h : InStep id s) (hu : Along feedBoth Undisturbed s inputs) :
    Along feedBoth Alike s inputs := by
  induction inputs generalizing s with
  | nil => trivial
  | cons input inputs ih =>
    refine ⟨in_step_alike h hu.1,ih ⟨(both_step s input h.matched).1,fun hidle => ?_⟩ hu.2⟩
    exact outcome_idle (rx_outcome s.target input.1.target input.2) h hu.1 hidle

def onWire (id : UInt32) (hid : id.toNat ≤ 0x7FF) (bytes : List UInt8)
    (h : 1 ≤ bytes.length ∧ bytes.length ≤ 8) : WireFrame id where
  target := filledFrame id bytes
  host := ⟨id.toNat,bytes,⟨Int.natCast_nonneg _,Int.ofNat_le.mpr hid⟩,h.2⟩
  addressed := rfl
  sameId := rfl
  sameData := (filled_data id bytes h.2).symm
  dlcLow := h.1
  dlcHigh := h.2

/-- A First Frame of eight bytes, a request within one frame, the rest of the
eight bytes, and an empty single frame. -/
def disturbedFrames : List (WireFrame 0x7E0 × UInt32) :=
  [(onWire 0x7E0 (by decide) [0x10,0x08,0x2E,0xF1,0x90,0x01,0x02,0x03] (by decide),0),
    (onWire 0x7E0 (by decide) [0x02,0x3E,0x00] (by decide),1),
    (onWire 0x7E0 (by decide) [0x21,0x04,0x05] (by decide),2),
    (onWire 0x7E0 (by decide) [0x00] (by decide),3)]

theorem disturbed_disagree :
    let start := freshReceivers testerRx none 0x7E0 0x7E8
    let deliveries := (run feedBoth start disturbedFrames).2
    deliveries.map Delivery.target = [none,some [0x3E,0x00],none,none] ∧
      deliveries.map Delivery.host = [none,some [0x3E,0x00],
        some [0x2E,0xF1,0x90,0x01,0x02,0x03,0x04,0x05],some []] ∧
      deliveries.map Delivery.target ≠ deliveries.map Delivery.host := by
  decide +kernel

end CanopenReference.IsoTpAgreement
