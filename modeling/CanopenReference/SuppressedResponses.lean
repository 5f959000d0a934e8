import CanopenReference.UdsResponses

/-!
# Suppressed positive responses

A request and the same request that asks for no positive response, served side
by side. Five of the seven services with a subfunction honour the wish. The
other two read the subfunction without it and answer all the same.
-/

set_option autoImplicit false

namespace CanopenReference.SuppressedResponses
open Library Uds UdsReplies UdsResponses Diagnostics

/-- The services that read the subfunction without bit 7. -/
def subfunctionServices : List UInt8 := [0x10,0x11,0x19,0x28,0x31,0x3E,0x85]

def clearBit7 (request : List UInt8) : List UInt8 := request.set 1 (byteAt request 1 &&& 0x7F)

def setBit7 (request : List UInt8) : List UInt8 := request.set 1 (byteAt request 1 ||| 0x80)

structure Suppressing (request quiet : List UInt8) : Prop where
  length : quiet.length = request.length
  sid : byteAt quiet 0 = byteAt request 0
  subfunction : subfunctionOf quiet = subfunctionOf request
  rest : quiet.drop 2 = request.drop 2
  loud : suppressed request = false
  quiet : 2 ≤ request.length → suppressed quiet = true

theorem or_and (x y z : UInt8) : (x ||| y) &&& z = (x &&& z) ||| (y &&& z) := by
  apply UInt8.toNat_inj.mp
  simp only [UInt8.toNat_and,UInt8.toNat_or]
  exact Nat.and_or_distrib_right _ _ _

theorem or_bit_ne (x : UInt8) : (x ||| 0x80) &&& 0x80 ≠ 0 := by
  intro h
  rw [or_and,UInt8.or_eq_zero_iff] at h
  exact absurd h.2 (by decide)

theorem set_byte (request : List UInt8) (x : UInt8) (h : 2 ≤ request.length) :
    byteAt (request.set 1 x) 1 = x := by
  unfold byteAt
  rw [List.getD_eq_getElem?_getD,List.getElem?_set_self (by omega)]
  rfl

theorem set_head (request : List UInt8) (x : UInt8) :
    byteAt (request.set 1 x) 0 = byteAt request 0 := by
  unfold byteAt
  rw [List.getD_eq_getElem?_getD,List.getElem?_set_ne (by decide),List.getD_eq_getElem?_getD]

theorem bits_suppressing (request : List UInt8) :
    Suppressing (clearBit7 request) (setBit7 request) := by
  have hlength : ∀ x, (request.set 1 x).length = request.length := fun x => List.length_set
  have hrest : ∀ x, (request.set 1 x).drop 2 = request.drop 2 :=
    fun x => List.drop_set_of_lt (by decide)
  by_cases hshort : 2 ≤ request.length
  · refine ⟨by rw [setBit7,clearBit7,hlength,hlength],by rw [setBit7,clearBit7,set_head,set_head],?_,
      by rw [setBit7,clearBit7,hrest,hrest],?_,fun _ => ?_⟩
    · unfold subfunctionOf setBit7 clearBit7
      rw [set_byte request _ hshort,set_byte request _ hshort,or_and,UInt8.and_assoc]
      exact UInt8.or_zero
    · unfold suppressed clearBit7
      rw [set_byte request _ hshort,UInt8.and_assoc]
      exact decide_eq_false (not_not.mpr UInt8.and_zero)
    · unfold suppressed setBit7
      rw [set_byte request _ hshort]
      exact decide_eq_true (or_bit_ne _)
  · have hsame : ∀ x, request.set 1 x = request :=
      fun x => List.set_eq_of_length_le (by omega)
    have hbyte : byteAt request 1 = 0 := by
      unfold byteAt
      rw [List.getD_eq_getElem?_getD,List.getElem?_eq_none (by omega)]
      rfl
    rw [setBit7,clearBit7,hsame,hsame]
    refine ⟨rfl,rfl,rfl,rfl,?_,fun h => absurd h hshort⟩
    unfold suppressed
    rw [hbyte]
    rfl

theorem rest_byte {request quiet : List UInt8} (h : Suppressing request quiet) (i : ℕ)
    (hi : 2 ≤ i) : byteAt quiet i = byteAt request i := by
  have hdrop : ∀ bytes : List UInt8, byteAt bytes i = byteAt (bytes.drop 2) (i-2) := by
    intro bytes
    unfold byteAt
    rw [List.getD_eq_getElem?_getD,List.getD_eq_getElem?_getD,List.getElem?_drop,
      Nat.add_sub_cancel' hi]
  rw [hdrop,hdrop request,h.rest]

/-- The second reply is silent where the first one is positive and the same elsewhere,
with the same server and the same context behind it. -/
structure Transparent {σ : Type} {capacity : UInt16} (request : List UInt8)
    (loud quiet : Served σ capacity) : Prop where
  server : quiet.server = loud.server
  context : quiet.context = loud.context
  silent : quiet.reply.result = .noResponse ↔ Grants request loud.reply
  refused : ¬Grants request loud.reply → quiet.reply = loud.reply

section Replies
variable {σ : Type} {capacity : UInt16} {request quiet : List UInt8}

theorem negative_not_granted (request : List UInt8) (nrc : UInt8) (reply : Reply capacity)
    (hsid : byteAt request 0 ≠ 0x3F) : ¬Grants request (negativeResponse request nrc reply) := by
  unfold negativeResponse
  split
  · rintro ⟨hresult,-⟩
    cases hresult
  · rename_i hcap
    rintro ⟨-,-,-,hhead⟩
    have hpos : 0 < capacity.toNat :=
      Nat.lt_of_lt_of_le (by decide : 0 < (3 : UInt16).toNat)
        (UInt16.le_iff_toNat_le.mp (UInt16.not_lt.mp hcap))
    exact shift_ne _ hsid (hhead.symm.trans (Buffer.cell_write_head reply.buffer _ _ _ hpos))

theorem negative_loud (request : List UInt8) (nrc : UInt8) (reply : Reply capacity) :
    (negativeResponse request nrc reply).result ≠ .noResponse := by
  unfold negativeResponse
  split <;> nofun

theorem negative_same (h : Suppressing request quiet) (nrc : UInt8) (reply : Reply capacity) :
    negativeResponse quiet nrc reply = negativeResponse request nrc reply := by
  unfold negativeResponse
  rw [h.sid]

theorem negative_transparent (h : Suppressing request quiet) (hsid : byteAt request 0 ≠ 0x3F)
    (server : UdsServer) (c : σ) (nrc : UInt8) (reply : Reply capacity) :
    Transparent request ⟨server,c,negativeResponse request nrc reply⟩
      ⟨server,c,negativeResponse quiet nrc reply⟩ := by
  have hrefused := negative_not_granted request nrc reply hsid
  rw [negative_same h]
  exact ⟨rfl,rfl,iff_of_false (negative_loud request nrc reply) hrefused,fun _ => rfl⟩

theorem failed_transparent (h : Suppressing request quiet) (hsid : byteAt request 0 ≠ 0x3F)
    (server : UdsServer) (c : σ) {result : UdsCallbackResult} (hr : result ≠ .ok)
    (reply : Reply capacity) :
    Transparent request ⟨server,c,callbackResult result request reply⟩
      ⟨server,c,callbackResult result quiet reply⟩ := by
  unfold callbackResult
  rw [if_neg hr,if_neg hr]
  exact negative_transparent h hsid server c _ reply

theorem answer_transparent (h : Suppressing request quiet) (hlow : 2 ≤ request.length)
    (server : UdsServer) (c : σ) (first : UInt8) (rest other : List UInt8) (needed : UInt16)
    (reply : Reply capacity) (hfirst : first = byteAt request 0+0x40)
    (hlength : UInt16.ofNat (rest.length+1) = needed) (hpos : 1 ≤ needed)
    (hfits : needed ≤ capacity) :
    Transparent request ⟨server,c,answer request (first::rest) needed reply⟩
      ⟨server,c,answer quiet other needed reply⟩ := by
  have hcap : 0 < capacity.toNat :=
    Nat.lt_of_lt_of_le (by decide : 0 < (1 : UInt16).toNat)
      (UInt16.le_iff_toNat_le.mp (UInt16.le_trans hpos hfits))
  have hgranted : Grants request (answer request (first::rest) needed reply) := by
    rw [answer_positive request _ reply h.loud needed (UInt16.not_lt.mpr hfits)]
    refine ⟨rfl,?_,?_,?_⟩
    · show 1 ≤ UInt16.ofNat (rest.length+1)
      rw [hlength]
      exact hpos
    · show UInt16.ofNat (rest.length+1) ≤ capacity
      rw [hlength]
      exact hfits
    · rw [← hfirst]
      exact Buffer.cell_write_head reply.buffer _ _ _ hcap
  rw [answer_silent quiet other reply (h.quiet hlow)]
  exact ⟨rfl,rfl,iff_of_true rfl hgranted,fun hc => absurd hgranted hc⟩

theorem unseen_transparent_iff {loud silent : Served σ capacity} (hsame : silent = loud)
    (hloud : loud.reply.result ≠ .noResponse) :
    Transparent request loud silent ↔ ¬Grants request loud.reply := by
  rw [hsame]
  constructor
  · intro h hgranted
    exact hloud (h.silent.mpr hgranted)
  · intro hrefused
    exact ⟨rfl,rfl,iff_of_false hloud hrefused,fun _ => rfl⟩

theorem append_loud (filled : Filled) (request : List UInt8) (reply : Reply capacity) :
    (appendFilled filled request reply).result ≠ .noResponse := by
  by_cases h : filled.result ≠ .ok ∨ capacity-reply.length < filled.length
  · obtain ⟨nrc,earlier,-,heq⟩ := append_refused request reply filled h
    rw [heq]
    exact negative_loud request nrc earlier
  · rw [(append_length request reply filled h).1]
    nofun

theorem append_granted_iff (filled : Filled) (reply : Reply capacity)
    (hsid : byteAt request 0 ≠ 0x3F) (hlow : 1 ≤ reply.length) (hhigh : reply.length ≤ capacity)
    (hhead : reply.buffer.cell 0 0 = byteAt request 0+0x40) :
    Grants request (appendFilled filled request reply) ↔
      filled.result = .ok ∧ filled.length ≤ capacity-reply.length := by
  by_cases h : filled.result ≠ .ok ∨ capacity-reply.length < filled.length
  · obtain ⟨nrc,earlier,-,heq⟩ := append_refused request reply filled h
    rw [heq]
    refine iff_of_false (negative_not_granted request nrc earlier hsid) ?_
    rintro ⟨hok,hfits⟩
    rcases h with h | h
    · exact h hok
    · exact UInt16.not_lt.mpr hfits h
  · have hcell := append_cell request reply filled h hlow
    obtain ⟨hone,hfit⟩ := append_fits request reply filled h hlow hhigh
    refine iff_of_true ⟨(append_length request reply filled h).1,hone,hfit,hcell.trans hhead⟩ ?_
    rw [not_or,not_not,UInt16.not_lt] at h
    exact h

theorem headed_granted_iff (filled : Filled) (reply : Reply capacity) (first : UInt8)
    (rest : List UInt8) (used : UInt16) (hsid : byteAt request 0 ≠ 0x3F)
    (hfirst : first = byteAt request 0+0x40) (hused : 1 ≤ used) (hcap : used ≤ capacity) :
    Grants request (appendFilled filled request
        { reply.put 0 (first::rest) with length := used }) ↔
      filled.result = .ok ∧ filled.length ≤ capacity-used := by
  have hpos : 0 < capacity.toNat :=
    Nat.lt_of_lt_of_le (by decide : 0 < (1 : UInt16).toNat)
      (UInt16.le_iff_toNat_le.mp (UInt16.le_trans hused hcap))
  apply append_granted_iff filled _ hsid hused hcap
  rw [← hfirst]
  exact Buffer.cell_write_head reply.buffer _ _ _ hpos

end Replies

section Services
variable {σ : Type} {capacity : UInt16} (cb : UdsCallbacks σ) (server : UdsServer) (context : σ)
  {request quiet : List UInt8} (reply : Reply capacity)

theorem session_transparent (h : Suppressing request quiet) (hsid : byteAt request 0 = 0x10)
    (hcap : 6 ≤ capacity) :
    Transparent request (serviceSessionControl server context request reply)
      (serviceSessionControl server context quiet reply) := by
  have hsid' : byteAt request 0 ≠ 0x3F := by rw [hsid]; decide
  unfold serviceSessionControl
  rw [h.length,h.subfunction]
  split
  · exact negative_transparent h hsid' server context _ reply
  rename_i hlength
  simp only
  split
  · exact negative_transparent h hsid' server context _ reply
  · exact answer_transparent h (by omega) _ context _ _ _ 6 reply (by rw [hsid]; rfl) rfl
      (by decide) hcap

theorem reset_transparent (h : Suppressing request quiet) (hsid : byteAt request 0 = 0x11)
    (hcap : 6 ≤ capacity) :
    Transparent request (serviceEcuReset cb server context request reply)
      (serviceEcuReset cb server context quiet reply) := by
  have hsid' : byteAt request 0 ≠ 0x3F := by rw [hsid]; decide
  unfold serviceEcuReset
  rw [h.length,h.subfunction]
  split
  · exact negative_transparent h hsid' server context _ reply
  rename_i hlength
  cases cb.ecuReset with
  | none => exact negative_transparent h hsid' server context _ reply
  | some ecuReset =>
    simp only
    split
    · exact negative_transparent h hsid' server context _ reply
    split
    · rename_i hr
      exact failed_transparent h hsid' server _ hr reply
    · exact answer_transparent h (by omega) _ _ _ _ _ 2 reply (by rw [hsid]; rfl) rfl
        (by decide) (UInt16.le_trans (by decide) hcap)

theorem communication_transparent (h : Suppressing request quiet)
    (hsid : byteAt request 0 = 0x28) (hcap : 6 ≤ capacity) :
    Transparent request (serviceCommunicationControl cb server context request reply)
      (serviceCommunicationControl cb server context quiet reply) := by
  have hsid' : byteAt request 0 ≠ 0x3F := by rw [hsid]; decide
  unfold serviceCommunicationControl
  cases cb.communicationControl with
  | none => exact negative_transparent h hsid' server context _ reply
  | some communicationControl =>
    simp only
    rw [h.length,h.subfunction,rest_byte h 2 (by decide)]
    split
    · exact negative_transparent h hsid' server context _ reply
    rename_i hlength
    split
    · rename_i hr
      exact failed_transparent h hsid' server _ hr reply
    · exact answer_transparent h (by omega) _ _ _ _ _ 3 reply (by rw [hsid]; rfl) rfl
        (by decide) (UInt16.le_trans (by decide) hcap)

theorem tester_transparent (h : Suppressing request quiet) (hsid : byteAt request 0 = 0x3E)
    (hcap : 6 ≤ capacity) :
    Transparent request (serviceTesterPresent server context request reply)
      (serviceTesterPresent server context quiet reply) := by
  have hsid' : byteAt request 0 ≠ 0x3F := by rw [hsid]; decide
  unfold serviceTesterPresent
  rw [h.length,h.subfunction]
  split
  · exact negative_transparent h hsid' server context _ reply
  rename_i hlength
  split
  · exact negative_transparent h hsid' server context _ reply
  · exact answer_transparent h (by omega) _ _ _ _ _ 2 reply (by rw [hsid]; rfl) rfl
      (by decide) (UInt16.le_trans (by decide) hcap)

theorem dtc_setting_transparent (h : Suppressing request quiet) (hsid : byteAt request 0 = 0x85)
    (hcap : 6 ≤ capacity) :
    Transparent request (serviceDtcSetting cb server context request reply)
      (serviceDtcSetting cb server context quiet reply) := by
  have hsid' : byteAt request 0 ≠ 0x3F := by rw [hsid]; decide
  unfold serviceDtcSetting
  cases cb.controlDtcSetting with
  | none => exact negative_transparent h hsid' server context _ reply
  | some controlDtcSetting =>
    simp only
    rw [h.length,h.subfunction]
    split
    · exact negative_transparent h hsid' server context _ reply
    rename_i hlength
    split
    · exact negative_transparent h hsid' server context _ reply
    split
    · rename_i hr
      exact failed_transparent h hsid' server _ hr reply
    · exact answer_transparent h (by omega) _ _ _ _ _ 2 reply (by rw [hsid]; rfl) rfl
        (by decide) (UInt16.le_trans (by decide) hcap)

def DtcAnswered (capacity : UInt16) (request : List UInt8) : Prop :=
  byteAt request 0 = 0x19 ∧ 2 ≤ request.length ∧
    ∃ readDtc, cb.readDtc = some readDtc ∧
      let filled := (readDtc server context (subfunctionOf request) request (room capacity 1)).2
      filled.result = .ok ∧ filled.length ≤ capacity-1

def RoutineAnswered (capacity : UInt16) (request : List UInt8) : Prop :=
  byteAt request 0 = 0x31 ∧ 4 ≤ request.length ∧
    ∃ routine, cb.routineControl = some routine ∧
      let filled := (routine server context (subfunctionOf request)
        (readU16 (byteAt request 2) (byteAt request 3)) (request.drop 4) (room capacity 4)).2
      filled.result = .ok ∧ filled.length ≤ capacity-4

/-- The request succeeds in a service that does not see the wish. -/
def Answered (capacity : UInt16) (request : List UInt8) : Prop :=
  DtcAnswered cb server context capacity request ∨
    RoutineAnswered cb server context capacity request

theorem append_same (h : Suppressing request quiet) (filled : Filled) (reply : Reply capacity) :
    appendFilled filled quiet reply = appendFilled filled request reply := by
  unfold appendFilled callbackResult
  simp only [negative_same h]

theorem read_dtc_unseen (h : Suppressing request quiet)
    (hblind : ∀ readDtc ∈ cb.readDtc, ∀ s c subfunction room,
      readDtc s c subfunction quiet room = readDtc s c subfunction request room) :
    serviceReadDtc cb server context quiet reply =
      serviceReadDtc cb server context request reply := by
  unfold serviceReadDtc
  cases hdtc : cb.readDtc with
  | none =>
    simp only
    rw [negative_same h]
  | some readDtc =>
    simp only
    rw [h.length,h.subfunction,hblind readDtc hdtc,negative_same h,append_same h]

theorem routine_unseen (h : Suppressing request quiet) :
    serviceRoutineControl cb server context quiet reply =
      serviceRoutineControl cb server context request reply := by
  have hdrop : quiet.drop 4 = request.drop 4 := by
    rw [← List.drop_drop (i := 2) (j := 2),h.rest,List.drop_drop]
  unfold serviceRoutineControl
  cases cb.routineControl with
  | none =>
    simp only
    rw [negative_same h]
  | some routine =>
    simp only
    rw [h.length,h.subfunction,rest_byte h 2 (by decide),rest_byte h 3 (by decide),hdrop,
      negative_same h,append_same h]

theorem read_dtc_loud :
    (serviceReadDtc cb server context request reply).reply.result ≠ .noResponse := by
  unfold serviceReadDtc
  split
  · exact negative_loud request _ reply
  split
  · exact negative_loud request _ reply
  · exact append_loud _ request _

theorem routine_loud :
    (serviceRoutineControl cb server context request reply).reply.result ≠ .noResponse := by
  unfold serviceRoutineControl
  split
  · exact negative_loud request _ reply
  split
  · exact negative_loud request _ reply
  · exact append_loud _ request _

theorem read_dtc_granted_iff (hsid : byteAt request 0 = 0x19) (hcap : 6 ≤ capacity) :
    Grants request (serviceReadDtc cb server context request reply).reply ↔
      DtcAnswered cb server context capacity request := by
  have hsid' : byteAt request 0 ≠ 0x3F := by rw [hsid]; decide
  unfold serviceReadDtc DtcAnswered
  cases cb.readDtc with
  | none =>
    refine iff_of_false (negative_not_granted request _ reply hsid') ?_
    rintro ⟨-,-,readDtc,hc,-⟩
    cases hc
  | some readDtc =>
    by_cases hshort : request.length < 2
    · simp only [if_pos hshort]
      exact iff_of_false (negative_not_granted request _ reply hsid') (fun hc => by omega)
    simp only [if_neg hshort]
    rw [headed_granted_iff _ reply 0x59 [] 1 hsid' (by rw [hsid]; rfl) (by decide)
      (UInt16.le_trans (by decide) hcap)]
    simp only [hsid,true_and,Option.some.injEq,exists_eq_left']
    exact (and_iff_right (by omega)).symm

theorem routine_granted_iff (hsid : byteAt request 0 = 0x31) (hcap : 6 ≤ capacity) :
    Grants request (serviceRoutineControl cb server context request reply).reply ↔
      RoutineAnswered cb server context capacity request := by
  have hsid' : byteAt request 0 ≠ 0x3F := by rw [hsid]; decide
  unfold serviceRoutineControl RoutineAnswered
  cases cb.routineControl with
  | none =>
    refine iff_of_false (negative_not_granted request _ reply hsid') ?_
    rintro ⟨-,-,routine,hc,-⟩
    cases hc
  | some routine =>
    by_cases hshort : request.length < 4
    · simp only [if_pos hshort]
      exact iff_of_false (negative_not_granted request _ reply hsid') (fun hc => by omega)
    simp only [if_neg hshort]
    rw [headed_granted_iff _ reply 0x71 _ 4 hsid' (by rw [hsid]; rfl) (by decide)
      (UInt16.le_trans (by decide) hcap)]
    simp only [hsid,true_and,Option.some.injEq,exists_eq_left']
    exact (and_iff_right (by omega)).symm

end Services

section Server
variable {σ : Type} (cb : UdsCallbacks σ) (server : UdsServer) (context : σ)
  (request : List UInt8) (reply : Reply udsMaxResponseLength) (now : UInt32)

/-- No callback looks at bit 7 of the subfunction. The report of trouble codes is
the only one that is given it. -/
def BitBlind : Prop :=
  ∀ readDtc ∈ cb.readDtc, ∀ s c subfunction request room,
    readDtc s c subfunction (setBit7 request) room =
      readDtc s c subfunction (clearBit7 request) room

theorem answered_sid {capacity : UInt16} {request : List UInt8}
    (h : Answered cb server context capacity request) :
    byteAt request 0 = 0x19 ∨ byteAt request 0 = 0x31 :=
  h.imp And.left And.left

theorem dispatch_transparent_iff (hblind : BitBlind cb)
    (hsid : byteAt (clearBit7 request) 0 ∈ subfunctionServices) :
    Transparent (clearBit7 request) (dispatch cb server context (clearBit7 request) reply)
        (dispatch cb server context (setBit7 request) reply) ↔
      ¬Answered cb server context udsMaxResponseLength (clearBit7 request) := by
  have h := bits_suppressing request
  have hcap : 6 ≤ udsMaxResponseLength := by decide
  have hhonoured : ∀ {v w : Served σ udsMaxResponseLength},
      byteAt (clearBit7 request) 0 ≠ 0x19 → byteAt (clearBit7 request) 0 ≠ 0x31 →
        Transparent (clearBit7 request) v w →
          (Transparent (clearBit7 request) v w ↔
            ¬Answered cb server context udsMaxResponseLength (clearBit7 request)) := by
    intro v w hdtc hroutine htransparent
    refine iff_of_true htransparent fun hanswered => ?_
    exact (answered_sid cb server context hanswered).elim hdtc hroutine
  unfold dispatch
  rw [h.sid]
  simp only [subfunctionServices,List.mem_cons,List.not_mem_nil,or_false] at hsid
  rcases hsid with hs | hs | hs | hs | hs | hs | hs
  · simp only [hs]
    exact hhonoured (by rw [hs]; decide) (by rw [hs]; decide)
      (session_transparent server context reply h hs hcap)
  · simp only [hs]
    exact hhonoured (by rw [hs]; decide) (by rw [hs]; decide)
      (reset_transparent cb server context reply h hs hcap)
  · simp only [hs]
    show Transparent _ (serviceReadDtc cb server context (clearBit7 request) reply)
      (serviceReadDtc cb server context (setBit7 request) reply) ↔ _
    rw [unseen_transparent_iff (read_dtc_unseen cb server context reply h
        fun readDtc hdtc s c subfunction room => hblind readDtc hdtc s c subfunction request room)
      (read_dtc_loud cb server context reply),read_dtc_granted_iff cb server context reply hs hcap]
    refine not_congr ⟨Or.inl,?_⟩
    rintro (hanswered | hanswered)
    · exact hanswered
    · exact absurd (hs.symm.trans hanswered.1) (by decide)
  · simp only [hs]
    exact hhonoured (by rw [hs]; decide) (by rw [hs]; decide)
      (communication_transparent cb server context reply h hs hcap)
  · simp only [hs]
    show Transparent _ (serviceRoutineControl cb server context (clearBit7 request) reply)
      (serviceRoutineControl cb server context (setBit7 request) reply) ↔ _
    rw [unseen_transparent_iff (routine_unseen cb server context reply h)
      (routine_loud cb server context reply),routine_granted_iff cb server context reply hs hcap]
    refine not_congr ⟨Or.inr,?_⟩
    rintro (hanswered | hanswered)
    · exact absurd (hs.symm.trans hanswered.1) (by decide)
    · exact hanswered
  · simp only [hs]
    exact hhonoured (by rw [hs]; decide) (by rw [hs]; decide)
      (tester_transparent server context reply h hs hcap)
  · simp only [hs]
    exact hhonoured (by rw [hs]; decide) (by rw [hs]; decide)
      (dtc_setting_transparent cb server context reply h hs hcap)

/-- The wish is honoured unless it reaches one of the two services that do not see
it and succeeds there. -/
theorem suppression_transparent_iff (hblind : BitBlind cb)
    (hsid : byteAt request 0 ∈ subfunctionServices) :
    Transparent (clearBit7 request)
        (udsServerHandle cb server context (clearBit7 request) reply now)
        (udsServerHandle cb server context (setBit7 request) reply now) ↔
      ¬(request.length ≤ udsMaxRequestLength ∧
        Answered cb (activeServer server now) context udsMaxResponseLength
          (clearBit7 request)) := by
  have hlength : (clearBit7 request).length = request.length := List.length_set
  have hset : (setBit7 request).length = request.length := List.length_set
  have hsid' : byteAt (clearBit7 request) 0 ∈ subfunctionServices := by
    rw [clearBit7,set_head]
    exact hsid
  by_cases hdropped :
      udsMaxResponseLength = 0 ∨ request.length = 0 ∨ udsMaxRequestLength < request.length
  · rw [handle_dropped _ _ _ _ _ _ (by rw [hlength]; exact hdropped),
      handle_dropped _ _ _ _ _ _ (by rw [hset]; exact hdropped)]
    refine iff_of_true ⟨rfl,rfl,iff_of_false nofun (fun hc => ?_),fun _ => rfl⟩ ?_
    · cases hc.1
    · rintro ⟨hfits,-⟩
      rcases hdropped with hc | hc | hc
      · exact absurd hc (by decide)
      · rw [List.eq_nil_of_length_eq_zero hc] at hsid
        exact absurd hsid (by decide)
      · omega
  have hhandle : ∀ bytes : List UInt8, bytes.length = request.length →
      udsServerHandle cb server context bytes reply now =
        dispatch cb (activeServer server now) context bytes { reply with length := 0 } := by
    intro bytes hbytes
    unfold udsServerHandle
    rw [if_neg (by rw [hbytes]; exact hdropped)]
    rfl
  rw [hhandle _ hlength,hhandle _ hset,
    dispatch_transparent_iff cb (activeServer server now) context request _ hblind hsid']
  rw [not_or,not_or] at hdropped
  exact not_congr (and_iff_right (Nat.not_lt.mp hdropped.2.2)).symm

end Server

/-- A report of trouble codes is sent although it was to be suppressed. -/
theorem report_not_suppressed :
    ¬Transparent [0x19,0x02,0xFF]
        (udsServerHandle (referenceCallbacks (μ := Unit)) (udsServerInit 0)
          (applicationInit none () 0).context [0x19,0x02,0xFF]
          (blankReply udsMaxResponseLength) 5)
        (udsServerHandle (referenceCallbacks (μ := Unit)) (udsServerInit 0)
          (applicationInit none () 0).context [0x19,0x82,0xFF]
          (blankReply udsMaxResponseLength) 5) := by
  intro h
  have hsilent := h.silent.mpr ⟨rfl,by decide +kernel,by decide +kernel,by decide +kernel⟩
  exact absurd hsilent (by decide +kernel)

theorem suppression_transparent_reset :
    Transparent (clearBit7 [0x11,0x01])
        (udsServerHandle (referenceCallbacks (μ := Unit)) (udsServerInit 0)
          (applicationInit none () 0).context (clearBit7 [0x11,0x01])
          (blankReply udsMaxResponseLength) 5)
        (udsServerHandle (referenceCallbacks (μ := Unit)) (udsServerInit 0)
          (applicationInit none () 0).context (setBit7 [0x11,0x01])
          (blankReply udsMaxResponseLength) 5) := by
  have hblind : BitBlind (referenceCallbacks (μ := Unit)) := by
    rintro _ ⟨⟩ _ _ _ _ _
    rfl
  refine (suppression_transparent_iff referenceCallbacks (udsServerInit 0)
    (applicationInit none () 0).context [0x11,0x01] (blankReply udsMaxResponseLength) 5 hblind
    (by decide)).mpr ?_
  rintro ⟨-,hanswered⟩
  rcases answered_sid _ _ _ hanswered with hsid | hsid
  · exact absurd hsid (by decide)
  · exact absurd hsid (by decide)

end CanopenReference.SuppressedResponses
