import CanopenReference.Handling
import CanopenReference.UdsContexts

/-!
# The shapes of a reply

A reply is a refusal, a silence or a positive response. One theorem says which,
with the state of the server after a refusal and the length of a positive
response, for arbitrary callbacks and every response memory that is not empty.
-/

set_option autoImplicit false

namespace CanopenReference.UdsReplies
open Library Uds UdsContexts Handling

section Slips
variable {σ : Type} (cb : UdsCallbacks σ) (server : UdsServer) (context : σ)
  (request : List UInt8) (capacity : UInt16)

def seedAsked : Bool :=
  2 ≤ request.length ∧ byteAt request 1 ≠ 0 ∧ byteAt request 1 ≤ 0x7F ∧ byteAt request 1 &&& 1 ≠ 0

theorem seed_asked_iff : seedAsked request = true ↔
    2 ≤ request.length ∧ byteAt request 1 ≠ 0 ∧ byteAt request 1 ≤ 0x7F ∧
      byteAt request 1 &&& 1 ≠ 0 := decide_eq_true_iff

def SeedWraps : Prop :=
  byteAt request 0 = 0x27 ∧ seedAsked request ∧ cb.securityKey.isSome ∧
    ∃ seed, cb.securitySeed = some seed ∧
      let filled := (seed server context (keyLevel request) (room capacity 2)).2
      filled.result = .ok ∧ 0xFFFE ≤ filled.length

/-- A routine succeeds where its header has no room, with a length that the
difference below zero lets through. -/
def RoutineUnderflows : Prop :=
  byteAt request 0 = 0x31 ∧ 4 ≤ request.length ∧ capacity < 4 ∧
    ∃ routine, cb.routineControl = some routine ∧
      let filled := (routine server context (subfunctionOf request)
        (readU16 (byteAt request 2) (byteAt request 3)) (request.drop 4) (room capacity 4)).2
      filled.result = .ok ∧ filled.length ≤ capacity-4

def ExitUnchecked : Prop :=
  byteAt request 0 = 0x37 ∧ server.downloadActive ∧
    ∃ exit, cb.requestTransferExit = some exit ∧
      let filled := (exit server context (request.drop 1) (room capacity 1)).2
      filled.result = .ok ∧ capacity ≤ filled.length

/-- The requests whose reported length is not checked against the memory. -/
def Unchecked : Prop :=
  SeedWraps cb server context request capacity ∨
    RoutineUnderflows cb server context request capacity ∨
    ExitUnchecked cb server context request capacity

/-- A session request is refused for want of memory after it has taken effect. -/
def lateRefusal : Bool := acceptsSession request ∧ !suppressed request ∧ capacity < 6

def refusedServer : UdsServer :=
  if lateRefusal request capacity then
    udsServerResetSecurity { server with session := subfunctionOf request }
  else server

end Slips

inductive Shape {σ : Type} {capacity : UInt16} (request : List UInt8) (before : UdsServer)
    (unchecked : Prop) (v : Served (σ × List Report) capacity) : Prop where
  | refused (nrc : UInt8) (earlier : Reply capacity) (hnrc : nrc ≠ 0)
      (hreply : v.reply = negativeResponse request nrc earlier)
      (hserver : 3 ≤ capacity → v.server = refusedServer before request capacity)
      (hchecked : ¬unchecked)
  | silent (hresult : v.reply.result = .noResponse) (hlength : v.reply.length = 0)
      (hlate : lateRefusal request capacity = false) (hchecked : ¬unchecked)
  | positive (hsid : byteAt request 0 ≠ 0x3F) (hresult : v.reply.result = .ok)
      (hhead : v.reply.buffer.cell 0 0 = byteAt request 0+0x40)
      (hlate : lateRefusal request capacity = false)
      (hfit : ¬unchecked → 1 ≤ v.reply.length ∧ v.reply.length ≤ capacity ∧
        ∀ r ∈ v.context.2, ¬Excessive r)
      (hover : unchecked → capacity < v.reply.length ∨ ∃ r ∈ v.context.2, Excessive r)

theorem result_nrc_ne_zero (result : UdsCallbackResult) : resultToNrc result ≠ 0 := by
  cases result <;> decide

theorem room_toNat (capacity used : UInt16) :
    (room capacity used).toNat = capacity.toNat-used.toNat := by
  unfold room
  split
  · rename_i h
    exact UInt16.toNat_sub_of_le _ _ (UInt16.le_of_lt h)
  · rename_i h
    have := UInt16.le_iff_toNat_le.mp (UInt16.not_lt.mp h)
    show 0 = _
    omega

section Replies
variable {capacity : UInt16} (request bytes : List UInt8) (reply : Reply capacity)

theorem answer_silent (h : suppressed request = true) (needed : UInt16) :
    answer request bytes needed reply = noResponse reply := if_pos h

theorem answer_refused (h : suppressed request = false) (needed : UInt16)
    (hc : capacity < needed) :
    answer request bytes needed reply = negativeResponse request nrcResponseTooLong reply := by
  unfold answer
  rw [if_neg (by simp [h]),if_pos hc]

theorem answer_positive (h : suppressed request = false) (needed : UInt16)
    (hc : ¬capacity < needed) :
    answer request bytes needed reply = positiveResponse bytes reply := by
  unfold answer
  rw [if_neg (by simp [h]),if_neg hc]

theorem append_refused (filled : Filled)
    (h : filled.result ≠ .ok ∨ capacity-reply.length < filled.length) :
    ∃ nrc earlier, nrc ≠ 0 ∧
      appendFilled filled request reply = negativeResponse request nrc earlier := by
  unfold appendFilled callbackResult
  by_cases hr : filled.result = .ok
  · have hl : capacity-reply.length < filled.length := h.resolve_left (fun hc => hc hr)
    simp only [hr,ne_eq,not_true,if_false,if_pos hl]
    exact ⟨_,_,by decide,rfl⟩
  · simp only [ne_eq,hr,not_false_eq_true,if_true,if_false]
    exact ⟨_,_,result_nrc_ne_zero _,rfl⟩

theorem append_length (filled : Filled)
    (h : ¬(filled.result ≠ .ok ∨ capacity-reply.length < filled.length)) :
    (appendFilled filled request reply).result = .ok ∧
      (appendFilled filled request reply).length = reply.length+filled.length := by
  simp only [not_or,not_not] at h
  unfold appendFilled
  simp only [h.1,ne_eq,not_true,if_false,if_neg h.2]
  exact ⟨trivial,trivial⟩

theorem append_cell (filled : Filled)
    (h : ¬(filled.result ≠ .ok ∨ capacity-reply.length < filled.length))
    (hlow : 1 ≤ reply.length) :
    (appendFilled filled request reply).buffer.cell 0 0 = reply.buffer.cell 0 0 := by
  simp only [not_or,not_not] at h
  unfold appendFilled
  simp only [h.1,ne_eq,not_true,if_false,if_neg h.2]
  exact Buffer.cell_write_before _ _ _ _ _ (UInt16.le_iff_toNat_le.mp hlow)

theorem append_fits (filled : Filled)
    (h : ¬(filled.result ≠ .ok ∨ capacity-reply.length < filled.length))
    (hlow : 1 ≤ reply.length) (hhigh : reply.length ≤ capacity) :
    1 ≤ (appendFilled filled request reply).length ∧
      (appendFilled filled request reply).length ≤ capacity := by
  rw [(append_length request reply filled h).2]
  rw [not_or,UInt16.not_lt] at h
  have hroom := UInt16.toNat_sub_of_le _ _ hhigh
  have hfit := UInt16.le_iff_toNat_le.mp h.2
  have hlow' : 1 ≤ reply.length.toNat := UInt16.le_iff_toNat_le.mp hlow
  have hhigh' := UInt16.le_iff_toNat_le.mp hhigh
  have hsum : (reply.length+filled.length).toNat = reply.length.toNat+filled.length.toNat := by
    have hc := capacity.toNat_lt
    rw [UInt16.toNat_add]
    omega
  constructor
  · apply UInt16.le_iff_toNat_le.mpr
    show 1 ≤ (reply.length+filled.length).toNat
    omega
  · apply UInt16.le_iff_toNat_le.mpr
    omega

end Replies

theorem late_sid {request : List UInt8} {capacity : UInt16} (h : byteAt request 0 ≠ 0x10) :
    lateRefusal request capacity = false := by
  simp [lateRefusal,accepts_sid h]

theorem refusedServer_kept {request : List UInt8} {capacity : UInt16} (server : UdsServer)
    (h : lateRefusal request capacity = false) : refusedServer server request capacity = server :=
  if_neg (by rw [h]; exact Bool.false_ne_true)

section Shapes
variable {σ : Type} {capacity : UInt16} {server : UdsServer} {request : List UInt8}

theorem refuse_shape {unchecked : Prop} (nrc : UInt8) (earlier : Reply capacity)
    (c : σ × List Report) (hlate : lateRefusal request capacity = false) (hnrc : nrc ≠ 0)
    (hchecked : ¬unchecked) :
    Shape request server unchecked ⟨server,c,negativeResponse request nrc earlier⟩ :=
  .refused nrc earlier hnrc rfl (fun _ => (refusedServer_kept server hlate).symm) hchecked

theorem failed_shape {unchecked : Prop} {result : UdsCallbackResult} (hr : result ≠ .ok)
    (earlier : Reply capacity) (c : σ × List Report)
    (hlate : lateRefusal request capacity = false) (hchecked : ¬unchecked) :
    Shape request server unchecked ⟨server,c,callbackResult result request earlier⟩ := by
  unfold callbackResult
  rw [if_neg hr]
  exact refuse_shape _ earlier c hlate (result_nrc_ne_zero result) hchecked

theorem fixed_shape (next : UdsServer) (c : σ × List Report) (first : UInt8) (rest : List UInt8)
    (needed : UInt16) (reply : Reply capacity) (hlate : lateRefusal request capacity = false)
    (hcap : 1 ≤ capacity) (hsid : byteAt request 0 ≠ 0x3F) (hfirst : first = byteAt request 0+0x40)
    (hlength : UInt16.ofNat (rest.length+1) = needed) (hlow : 1 ≤ needed) (hhigh : needed ≤ 3)
    (hlog : ∀ r ∈ c.2, ¬Excessive r) :
    Shape request server False ⟨next,c,
      if capacity < needed then negativeResponse request nrcResponseTooLong reply
      else positiveResponse (first::rest) reply⟩ := by
  by_cases hc : capacity < needed
  · refine .refused nrcResponseTooLong reply (by decide) (if_pos hc) (fun h => ?_) not_false
    exact absurd (UInt16.lt_of_lt_of_le hc (UInt16.le_trans hhigh h)) (UInt16.lt_irrefl _)
  · simp only [if_neg hc]
    refine .positive hsid rfl ?_ hlate (fun _ => ⟨?_,?_,hlog⟩) (fun h => h.elim)
    · rw [← hfirst]
      exact Buffer.cell_write_head _ _ _ _ (UInt16.le_iff_toNat_le.mp hcap)
    · show 1 ≤ UInt16.ofNat (rest.length+1)
      rw [hlength]
      exact hlow
    · show UInt16.ofNat (rest.length+1) ≤ capacity
      rw [hlength]
      exact UInt16.not_lt.mp hc

theorem answer_shape (next : UdsServer) (c : σ × List Report) (first : UInt8) (rest : List UInt8)
    (needed : UInt16) (reply : Reply capacity) (hreply : reply.length = 0)
    (hlate : lateRefusal request capacity = false)
    (hcap : 1 ≤ capacity) (hsid : byteAt request 0 ≠ 0x3F) (hfirst : first = byteAt request 0+0x40)
    (hlength : UInt16.ofNat (rest.length+1) = needed) (hlow : 1 ≤ needed) (hhigh : needed ≤ 3)
    (hlog : ∀ r ∈ c.2, ¬Excessive r) :
    Shape request server False ⟨next,c,answer request (first::rest) needed reply⟩ := by
  by_cases hs : suppressed request = true
  · rw [answer_silent request _ reply hs]
    exact .silent rfl hreply hlate not_false
  · unfold answer
    rw [if_neg hs]
    exact fixed_shape next c first rest needed reply hlate hcap hsid hfirst hlength hlow hhigh hlog

end Shapes

section Services
variable {σ : Type} {capacity : UInt16} (cb : UdsCallbacks σ) (server : UdsServer) (context : σ)
  (request : List UInt8) (reply : Reply capacity) (hcap : 1 ≤ capacity)
  (hreply : reply.length = 0)

theorem session_shape (hcap : 1 ≤ capacity) (hreply : reply.length = 0)
    (hsid : byteAt request 0 = 0x10) : Shape request server False
      (serviceSessionControl server (context,([] : List Report)) request reply) := by
  unfold serviceSessionControl
  by_cases hl : request.length = 2
  · rw [if_neg (not_not.mpr hl)]
    simp only
    split
    · rename_i hs
      refine refuse_shape _ reply _ ?_ (by decide) not_false
      simp [lateRefusal,acceptsSession,hs]
    · rename_i hs
      have haccepts : acceptsSession request = true := by
        simp only [not_and_or,not_not] at hs
        simp [acceptsSession,hsid,hl,hs]
      by_cases hq : suppressed request = true
      · rw [answer_silent request _ reply hq]
        exact .silent rfl hreply (by simp [lateRefusal,hq]) not_false
      · rw [Bool.not_eq_true] at hq
        by_cases hc : capacity < 6
        · rw [answer_refused request _ reply hq 6 hc]
          refine .refused _ reply (by decide) rfl (fun _ => ?_) not_false
          unfold refusedServer
          rw [if_pos (by simp [lateRefusal,haccepts,hq,hc])]
        · rw [answer_positive request _ reply hq 6 hc]
          refine .positive (by rw [hsid]; decide) rfl ?_ (by simp [lateRefusal,hc])
            (fun _ => ⟨by show (1 : UInt16) ≤ 6; decide,UInt16.not_lt.mp hc,?_⟩) (fun h => h.elim)
          · rw [hsid]
            exact Buffer.cell_write_head _ _ _ _ (UInt16.le_iff_toNat_le.mp hcap)
          · intro r hr
            cases hr
  · rw [if_pos hl]
    exact refuse_shape _ reply _ (by simp [lateRefusal,acceptsSession,hl]) (by decide) not_false

theorem reset_shape (hcap : 1 ≤ capacity) (hreply : reply.length = 0)
    (hsid : byteAt request 0 = 0x11) : Shape request server False
      (serviceEcuReset (recording cb) server (context,[]) request reply) := by
  have hlate : lateRefusal request capacity = false := late_sid (by rw [hsid]; decide)
  unfold serviceEcuReset
  split
  · exact refuse_shape _ reply _ hlate (by decide) not_false
  cases h : cb.ecuReset with
  | none =>
    simp only [recording,h,Option.map_none]
    exact refuse_shape _ reply _ hlate (by decide) not_false
  | some ecuReset =>
    simp only [recording,h,Option.map_some]
    split
    · exact refuse_shape _ reply _ hlate (by decide) not_false
    rename_i hs
    rw [not_not] at hs
    split
    · rename_i hr
      exact failed_shape hr reply _ hlate not_false
    · apply answer_shape _ _ _ _ 2 reply hreply hlate hcap (by rw [hsid]; decide)
        (by rw [hsid]; rfl) rfl (by decide) (by decide)
      intro r hr
      cases hr

theorem append_shape (c : σ × List Report) (filled : Filled) (before : List Report)
    (hlog : c.2 = before++[⟨capacity-reply.length,filled.length⟩])
    (hbefore : ∀ r ∈ before, ¬Excessive r) (hlate : lateRefusal request capacity = false)
    (hsid : byteAt request 0 ≠ 0x3F) (hlow : 1 ≤ reply.length) (hhigh : reply.length ≤ capacity)
    (hhead : reply.buffer.cell 0 0 = byteAt request 0+0x40) :
    Shape request server False ⟨server,c,appendFilled filled request reply⟩ := by
  by_cases h : filled.result ≠ .ok ∨ capacity-reply.length < filled.length
  · obtain ⟨nrc,earlier,hnrc,he⟩ := append_refused request reply filled h
    rw [he]
    exact refuse_shape nrc earlier c hlate hnrc not_false
  · have hcell := append_cell request reply filled h hlow
    obtain ⟨hone,hfit⟩ := append_fits request reply filled h hlow hhigh
    have hok := (append_length request reply filled h).1
    rw [not_or,UInt16.not_lt] at h
    refine .positive hsid hok (hcell.trans hhead) hlate (fun _ => ⟨hone,hfit,?_⟩)
      (fun h => h.elim)
    intro r hr
    rw [hlog,List.mem_append,List.mem_singleton] at hr
    rcases hr with hr | rfl
    · exact hbefore r hr
    · exact UInt16.not_lt.mpr h.2

theorem read_dtc_shape (hcap : 1 ≤ capacity) (hsid : byteAt request 0 = 0x19) :
    Shape request server False
      (serviceReadDtc (recording cb) server (context,[]) request reply) := by
  have hlate : lateRefusal request capacity = false := late_sid (by rw [hsid]; decide)
  unfold serviceReadDtc
  cases h : cb.readDtc with
  | none =>
    simp only [recording,h,Option.map_none]
    exact refuse_shape _ reply _ hlate (by decide) not_false
  | some readDtc =>
    simp only [recording,h,Option.map_some]
    split
    · exact refuse_shape _ reply _ hlate (by decide) not_false
    have hroom : room capacity 1 = capacity-1 := by
      unfold room
      split
      · rfl
      · rename_i hc
        rw [UInt16.le_antisymm (UInt16.not_lt.mp hc) hcap]
        rfl
    apply append_shape server request _ _ _ [] (by rw [hroom]; rfl) (by simp) hlate
      (by rw [hsid]; decide) (by show (1 : UInt16) ≤ 1; decide) hcap
    rw [hsid]
    exact Buffer.cell_write_head _ _ _ _ (UInt16.le_iff_toNat_le.mp hcap)

def addressed (reply : Reply capacity) (high low : UInt8) : Reply capacity :=
  { reply.put reply.length.toNat [high,low] with length := reply.length+2 }

theorem read_dids_round {readDid : UdsServer → σ → UInt16 → UInt16 → σ × Filled}
    {high low : UInt8} {rest : List UInt8} {next : σ} {filled : Filled}
    (hspace : ¬capacity-reply.length < 2)
    (hread : readDid server context (readU16 high low)
      (capacity-(addressed reply high low).length) = (next,filled)) :
    readDids readDid server request context (high::low::rest) reply =
      if filled.result ≠ .ok ∨ capacity-(addressed reply high low).length < filled.length then
        ⟨server,next,appendFilled filled request (addressed reply high low)⟩
      else
        readDids readDid server request next rest
          (appendFilled filled request (addressed reply high low)) := by
  unfold addressed at hread ⊢
  rw [readDids,if_neg hspace]
  simp only [hread]

theorem read_dids_shape (readDid : UdsServer → σ → UInt16 → UInt16 → σ × Filled)
    (rest : List UInt8) (log : List Report) (hlog : ∀ r ∈ log, ¬Excessive r)
    (hsid : byteAt request 0 = 0x22) (hlow : 1 ≤ reply.length) (hhigh : reply.length ≤ capacity)
    (hhead : reply.buffer.cell 0 0 = byteAt request 0+0x40) :
    Shape request server False
      (readDids (fun s c did room => noting c.2 room (readDid s c.1 did room)) server request
        (context,log) rest reply) := by
  have hlate : lateRefusal request capacity = false := late_sid (by rw [hsid]; decide)
  have hsid' : byteAt request 0 ≠ 0x3F := by rw [hsid]; decide
  have hfinal : Shape request server False
      (⟨server,(context,log),{ reply with result := .ok }⟩ : Served (σ × List Report) capacity) :=
    .positive hsid' rfl hhead hlate (fun _ => ⟨hlow,hhigh,hlog⟩) (fun h => h.elim)
  induction rest using List.twoStepInduction generalizing context reply log with
  | nil => exact hfinal
  | singleton x => exact hfinal
  | cons_cons high low rest ih _ =>
    by_cases hspace : capacity-reply.length < 2
    · unfold readDids
      rw [if_pos hspace]
      exact refuse_shape _ reply _ hlate (by decide) not_false
    generalize hheader : addressed reply high low = header
    have hlength : header.length = reply.length+2 := by rw [← hheader]; rfl
    rcases hread : readDid server context (readU16 high low) (capacity-header.length)
      with ⟨next,filled⟩
    rw [← hheader] at hread
    have hnoted : noting log (capacity-(addressed reply high low).length)
        (readDid server context (readU16 high low)
          (capacity-(addressed reply high low).length)) =
          ((next,log++[⟨capacity-header.length,filled.length⟩]),filled) := by
      rw [hread,← hheader]
      rfl
    rw [read_dids_round server (context,log) request reply hspace hnoted,hheader]
    have hsub := UInt16.toNat_sub_of_le _ _ hhigh
    have hspace' : 2 ≤ (capacity-reply.length).toNat :=
      UInt16.le_iff_toNat_le.mp (UInt16.not_lt.mp hspace)
    have hlow' : 1 ≤ reply.length.toNat := UInt16.le_iff_toNat_le.mp hlow
    have htwo : header.length.toNat = reply.length.toNat+2 := by
      have hc := capacity.toNat_lt
      rw [hlength,UInt16.toNat_add]
      show (reply.length.toNat+2)%2^16 = _
      omega
    have hlow₂ : 1 ≤ header.length := by
      apply UInt16.le_iff_toNat_le.mpr
      show 1 ≤ header.length.toNat
      omega
    have hhigh₂ : header.length ≤ capacity := by
      apply UInt16.le_iff_toNat_le.mpr
      omega
    have hhead₂ : header.buffer.cell 0 0 = byteAt request 0+0x40 := by
      rw [← hheader,← hhead]
      exact Buffer.cell_write_before _ _ _ _ _ hlow'
    by_cases hgood : filled.result ≠ .ok ∨ capacity-header.length < filled.length
    · rw [if_pos hgood]
      exact append_shape server request header (next,_) filled log rfl hlog hlate hsid' hlow₂ hhigh₂
        hhead₂
    rw [if_neg hgood]
    have hcell := append_cell request header filled hgood hlow₂
    obtain ⟨hone,hfit⟩ := append_fits request header filled hgood hlow₂ hhigh₂
    rw [not_or,UInt16.not_lt] at hgood
    have hlog' : ∀ r ∈ log++[⟨capacity-header.length,filled.length⟩], ¬Excessive r := by
      intro r hr
      rw [List.mem_append,List.mem_singleton] at hr
      rcases hr with hr | rfl
      · exact hlog r hr
      · exact UInt16.not_lt.mpr hgood.2
    exact ih next _ _ hlog' hone hfit (hcell.trans hhead₂)
      (.positive hsid' rfl (hcell.trans hhead₂) hlate (fun _ => ⟨hone,hfit,hlog'⟩)
        (fun h => h.elim))

theorem read_data_shape (hcap : 1 ≤ capacity) (hsid : byteAt request 0 = 0x22) :
    Shape request server False
      (serviceReadData (recording cb) server (context,[]) request reply) := by
  have hlate : lateRefusal request capacity = false := late_sid (by rw [hsid]; decide)
  unfold serviceReadData
  cases h : cb.readDid with
  | none =>
    simp only [recording,h,Option.map_none]
    exact refuse_shape _ reply _ hlate (by decide) not_false
  | some readDid =>
    simp only [recording,h,Option.map_some]
    split
    · exact refuse_shape _ reply _ hlate (by decide) not_false
    have hhead : (reply.put 0 [0x62]).buffer.cell 0 0 = byteAt request 0+0x40 := by
      rw [hsid]
      exact Buffer.cell_write_head _ _ _ _ (UInt16.le_iff_toNat_le.mp hcap)
    exact read_dids_shape server context request { reply.put 0 [0x62] with length := 1 } readDid
      (request.drop 1) [] (fun r hr => by cases hr) hsid (UInt16.le_refl 1) hcap hhead

theorem seed_shape (c : σ × List Report) (filled : Filled) {unchecked : Prop}
    (hlog : c.2 = [⟨room capacity 2,filled.length⟩])
    (hunchecked : unchecked ↔ filled.result = .ok ∧ 0xFFFE ≤ filled.length) (hcap : 1 ≤ capacity)
    (hsid : byteAt request 0 = 0x27) :
    Shape request server unchecked
      (if filled.result ≠ .ok then
        ⟨server,c,callbackResult filled.result request (reply.put 2 filled.bytes)⟩
      else if capacity < 2+filled.length then
        ⟨server,c,negativeResponse request nrcResponseTooLong (reply.put 2 filled.bytes)⟩
      else
        ⟨server,c,{ (reply.put 2 filled.bytes).put 0 [0x67,byteAt request 1] with
          length := 2+filled.length, result := .ok }⟩) := by
  have hlate : lateRefusal request capacity = false := late_sid (by rw [hsid]; decide)
  by_cases hr : filled.result = .ok
  · rw [if_neg (not_not.mpr hr)]
    have hcap' : 1 ≤ capacity.toNat := UInt16.le_iff_toNat_le.mp hcap
    have hc := capacity.toNat_lt
    have hf := filled.length.toNat_lt
    have hsum : (2+filled.length).toNat = (2+filled.length.toNat)%2^16 := UInt16.toNat_add _ _
    have hbig : unchecked ↔ 0xFFFE ≤ filled.length.toNat := by
      rw [hunchecked,UInt16.le_iff_toNat_le]
      exact and_iff_right hr
    have hroom := room_toNat capacity 2
    by_cases hover : capacity < 2+filled.length
    · rw [if_pos hover]
      refine refuse_shape _ _ _ hlate (by decide) (fun hu => ?_)
      have hover' := UInt16.lt_iff_toNat_lt.mp hover
      have := hbig.mp hu
      omega
    · rw [if_neg hover]
      rw [UInt16.not_lt,UInt16.le_iff_toNat_le] at hover
      refine .positive (by rw [hsid]; decide) rfl ?_ hlate (fun hu => ?_) (fun hu => Or.inr ?_)
      · rw [hsid]
        exact Buffer.cell_write_head _ _ _ _ hcap'
      · rw [hbig] at hu
        refine ⟨UInt16.le_iff_toNat_le.mpr ?_,UInt16.le_iff_toNat_le.mpr hover,?_⟩
        · show 1 ≤ (2+filled.length).toNat
          omega
        · intro r hmem
          rw [hlog,List.mem_singleton] at hmem
          subst hmem
          apply UInt16.not_lt.mpr
          apply UInt16.le_iff_toNat_le.mpr
          rw [hroom]
          show filled.length.toNat ≤ capacity.toNat-2
          omega
      · rw [hlog]
        refine ⟨_,List.mem_singleton_self _,UInt16.lt_iff_toNat_lt.mpr ?_⟩
        have := hbig.mp hu
        rw [hroom]
        show capacity.toNat-2 < filled.length.toNat
        omega
  · rw [if_pos hr]
    exact failed_shape hr _ _ hlate (fun hu => hr (hunchecked.mp hu).1)

theorem security_shape (hcap : 1 ≤ capacity) (hsid : byteAt request 0 = 0x27) :
    Shape request server (SeedWraps cb server context request capacity)
      (serviceSecurityAccess (recording cb) server (context,[]) request reply) := by
  have hlate : lateRefusal request capacity = false := late_sid (by rw [hsid]; decide)
  have hsid' : byteAt request 0 ≠ 0x3F := by rw [hsid]; decide
  unfold serviceSecurityAccess
  cases hs : cb.securitySeed with
  | none =>
    simp only [recording,hs,Option.map_none]
    exact refuse_shape _ reply _ hlate (by decide)
      fun ⟨_,_,_,seed,hseed,_⟩ => by cases hs.symm.trans hseed
  | some seed =>
    cases hk : cb.securityKey with
    | none =>
      simp only [recording,hs,hk,Option.map_none,Option.map_some]
      exact refuse_shape _ reply _ hlate (by decide) fun ⟨_,_,hkey,_⟩ => by simp [hk] at hkey
    | some key =>
      simp only [recording,hs,hk,Option.map_some]
      split
      · rename_i hlow
        exact refuse_shape _ reply _ hlate (by decide) fun h =>
          Nat.not_le.mpr hlow ((seed_asked_iff request).mp h.2.1).1
      rename_i hlow
      split
      · rename_i hrange
        refine refuse_shape _ reply _ hlate (by decide) fun h => ?_
        have hasked := (seed_asked_iff request).mp h.2.1
        rcases hrange with hrange | hrange
        · exact hasked.2.1 hrange
        · exact UInt8.not_le.mpr hrange hasked.2.2.1
      rename_i hrange
      rw [not_or,UInt8.not_lt] at hrange
      split
      · rename_i hodd
        apply seed_shape server request reply _ _ rfl _ hcap hsid
        constructor
        · rintro ⟨-,-,-,seed',hseed,hfilled⟩
          cases hs.symm.trans hseed
          exact hfilled
        · have hasked := (seed_asked_iff request).mpr ⟨Nat.not_lt.mp hlow,hrange.1,hrange.2,hodd⟩
          exact fun hfilled => ⟨hsid,hasked,by rw [hk]; rfl,seed,hs,hfilled⟩
      rename_i hodd
      have hnot : ¬SeedWraps cb server context request capacity := fun h =>
        hodd ((seed_asked_iff request).mp h.2.1).2.2.2
      rw [eq_false hnot]
      split
      · exact refuse_shape _ reply _ hlate (by decide) not_false
      split
      · rename_i hr
        exact failed_shape hr reply _ hlate not_false
      · apply fixed_shape _ _ _ _ 2 reply hlate hcap hsid' (by rw [hsid]; rfl) rfl (by decide)
          (by decide)
        intro r hr
        cases hr

theorem communication_shape (hcap : 1 ≤ capacity) (hreply : reply.length = 0)
    (hsid : byteAt request 0 = 0x28) : Shape request server False
      (serviceCommunicationControl (recording cb) server (context,[]) request reply) := by
  have hlate : lateRefusal request capacity = false := late_sid (by rw [hsid]; decide)
  unfold serviceCommunicationControl
  cases h : cb.communicationControl with
  | none =>
    simp only [recording,h,Option.map_none]
    exact refuse_shape _ reply _ hlate (by decide) not_false
  | some communicationControl =>
    simp only [recording,h,Option.map_some]
    split
    · exact refuse_shape _ reply _ hlate (by decide) not_false
    split
    · rename_i hr
      exact failed_shape hr reply _ hlate not_false
    · apply answer_shape _ _ _ _ 3 reply hreply hlate hcap (by rw [hsid]; decide)
        (by rw [hsid]; rfl) rfl (by decide) (by decide)
      intro r hr
      cases hr

theorem routine_append (c : σ × List Report) (filled : Filled) {unchecked : Prop}
    (hlog : c.2 = [⟨room capacity 4,filled.length⟩])
    (hunchecked : unchecked ↔
      capacity < 4 ∧ filled.result = .ok ∧ filled.length ≤ capacity-4)
    (hsid : byteAt request 0 = 0x31) (hlength : reply.length = 4)
    (hhead : reply.buffer.cell 0 0 = 0x71) :
    Shape request server unchecked ⟨server,c,appendFilled filled request reply⟩ := by
  have hlate : lateRefusal request capacity = false := late_sid (by rw [hsid]; decide)
  have hsid' : byteAt request 0 ≠ 0x3F := by rw [hsid]; decide
  have hhead' : reply.buffer.cell 0 0 = byteAt request 0+0x40 := by
    rw [hhead,hsid]
    rfl
  by_cases hc : capacity < 4
  · by_cases h : filled.result ≠ .ok ∨ capacity-reply.length < filled.length
    · obtain ⟨nrc,earlier,hnrc,he⟩ := append_refused request reply filled h
      rw [he]
      refine refuse_shape nrc earlier c hlate hnrc (fun hu => ?_)
      rw [hlength] at h
      rcases h with h | h
      · exact h (hunchecked.mp hu).2.1
      · exact absurd (UInt16.lt_of_lt_of_le h (hunchecked.mp hu).2.2) (UInt16.lt_irrefl _)
    · have hcell := append_cell request reply filled h (by rw [hlength]; decide)
      have happended := append_length request reply filled h
      rw [hlength] at h happended
      rw [not_or,not_not,UInt16.not_lt] at h
      have hu : unchecked := hunchecked.mpr ⟨hc,h⟩
      refine .positive hsid' happended.1 (hcell.trans hhead') hlate (fun hn => absurd hu hn)
        (fun _ => ?_)
      by_cases hz : filled.length = 0
      · left
        show capacity < (appendFilled filled request reply).length
        rw [happended.2,hz]
        exact hc
      · right
        refine ⟨_,by rw [hlog]; exact List.mem_singleton_self _,UInt16.lt_iff_toNat_lt.mpr ?_⟩
        have hc' := UInt16.lt_iff_toNat_lt.mp hc
        have hz' : filled.length.toNat ≠ 0 := fun h0 => hz (UInt16.toNat_inj.mp h0)
        have hroom := room_toNat capacity 4
        have hfour : (4 : UInt16).toNat = 4 := rfl
        show (room capacity 4).toNat < filled.length.toNat
        omega
  · have hnot : ¬unchecked := fun hu => hc (hunchecked.mp hu).1
    rw [eq_false hnot]
    rw [UInt16.not_lt] at hc
    have hroom : room capacity 4 = capacity-reply.length := by
      apply UInt16.toNat_inj.mp
      rw [room_toNat,hlength,UInt16.toNat_sub_of_le _ _ hc]
    rw [hroom] at hlog
    apply append_shape server request reply c filled [] hlog (by simp) hlate hsid' _ _ hhead'
    · rw [hlength]
      decide
    · rw [hlength]
      exact hc

theorem routine_shape (hcap : 1 ≤ capacity) (hsid : byteAt request 0 = 0x31) :
    Shape request server (RoutineUnderflows cb server context request capacity)
      (serviceRoutineControl (recording cb) server (context,[]) request reply) := by
  have hlate : lateRefusal request capacity = false := late_sid (by rw [hsid]; decide)
  unfold serviceRoutineControl
  cases h : cb.routineControl with
  | none =>
    simp only [recording,h,Option.map_none]
    exact refuse_shape _ reply _ hlate (by decide)
      fun ⟨_,_,_,routine,hroutine,_⟩ => by cases h.symm.trans hroutine
  | some routine =>
    simp only [recording,h,Option.map_some]
    split
    · rename_i hlow
      exact refuse_shape _ reply _ hlate (by decide) fun hu => Nat.not_le.mpr hlow hu.2.1
    · rename_i hlow
      apply routine_append server request _ _ _ rfl _ hsid rfl
      · exact Buffer.cell_write_head _ _ _ _ (UInt16.le_iff_toNat_le.mp hcap)
      · constructor
        · rintro ⟨-,-,hcap,routine',hroutine,hfilled⟩
          cases h.symm.trans hroutine
          exact ⟨hcap,hfilled⟩
        · exact fun hfilled => ⟨hsid,Nat.not_lt.mp hlow,hfilled.1,routine,h,hfilled.2⟩

theorem download_shape (hcap : 1 ≤ capacity) (hsid : byteAt request 0 = 0x34) :
    Shape request server False
      (serviceDownload (recording cb) server (context,[]) request reply) := by
  have hlate : lateRefusal request capacity = false := late_sid (by rw [hsid]; decide)
  unfold serviceDownload
  cases h : cb.requestDownload with
  | none =>
    simp only [recording,h,Option.map_none]
    exact refuse_shape _ reply _ hlate (by decide) not_false
  | some requestDownload =>
    simp only [recording,h,Option.map_some]
    split
    · exact refuse_shape _ reply _ hlate (by decide) not_false
    split
    · rename_i hr
      exact failed_shape hr reply _ hlate not_false
    split
    · exact refuse_shape _ reply _ hlate (by decide) not_false
    rename_i hroom
    rw [not_or,UInt16.not_lt,UInt16.not_lt] at hroom
    refine .positive (by rw [hsid]; decide) rfl ?_ hlate
      (fun _ => ⟨by show (1 : UInt16) ≤ 4; decide,hroom.2,?_⟩) (fun h => h.elim)
    · rw [hsid]
      exact Buffer.cell_write_head _ _ _ _ (UInt16.le_iff_toNat_le.mp hcap)
    · intro r hr
      cases hr

theorem transfer_shape (hcap : 1 ≤ capacity) (hsid : byteAt request 0 = 0x36) :
    Shape request server False
      (serviceTransferData (recording cb) server (context,[]) request reply) := by
  have hlate : lateRefusal request capacity = false := late_sid (by rw [hsid]; decide)
  unfold serviceTransferData
  cases h : cb.transferData with
  | none =>
    simp only [recording,h,Option.map_none]
    exact refuse_shape _ reply _ hlate (by decide) not_false
  | some transferData =>
    simp only [recording,h,Option.map_some]
    split
    · exact refuse_shape _ reply _ hlate (by decide) not_false
    split
    · exact refuse_shape _ reply _ hlate (by decide) not_false
    split
    · exact refuse_shape _ reply _ hlate (by decide) not_false
    split
    · rename_i hr
      exact failed_shape hr reply _ hlate not_false
    · apply fixed_shape _ _ _ _ 2 reply hlate hcap (by rw [hsid]; decide) (by rw [hsid]; rfl) rfl
        (by decide) (by decide)
      intro r hr
      cases hr

theorem exit_answered (next : UdsServer) (c : σ × List Report) (filled : Filled)
    {unchecked : Prop} (hlog : c.2 = [⟨room capacity 1,filled.length⟩])
    (hunchecked : unchecked ↔ capacity ≤ filled.length) (hcap : 1 ≤ capacity)
    (hsid : byteAt request 0 = 0x37) :
    Shape request server unchecked
      ⟨next,c,{ (reply.put 1 filled.bytes).put 0 [0x77] with
        length := filled.length+1, result := .ok }⟩ := by
  have hlate : lateRefusal request capacity = false := late_sid (by rw [hsid]; decide)
  have hcap' : 1 ≤ capacity.toNat := UInt16.le_iff_toNat_le.mp hcap
  have hc := capacity.toNat_lt
  have hroom := room_toNat capacity 1
  have hsum : (filled.length+1).toNat = (filled.length.toNat+1)%2^16 := UInt16.toNat_add _ _
  have hone : (1 : UInt16).toNat = 1 := rfl
  rw [UInt16.le_iff_toNat_le] at hunchecked
  refine .positive (by rw [hsid]; decide) rfl ?_ hlate (fun hu => ?_) (fun hu => Or.inr ?_)
  · rw [hsid]
    exact Buffer.cell_write_head _ _ _ _ hcap'
  · rw [hunchecked,Nat.not_le] at hu
    refine ⟨UInt16.le_iff_toNat_le.mpr ?_,UInt16.le_iff_toNat_le.mpr ?_,?_⟩
    · show 1 ≤ (filled.length+1).toNat
      omega
    · show (filled.length+1).toNat ≤ capacity.toNat
      omega
    · intro r hmem
      rw [hlog,List.mem_singleton] at hmem
      subst hmem
      apply UInt16.not_lt.mpr
      apply UInt16.le_iff_toNat_le.mpr
      show filled.length.toNat ≤ (room capacity 1).toNat
      omega
  · rw [hlog]
    refine ⟨_,List.mem_singleton_self _,UInt16.lt_iff_toNat_lt.mpr ?_⟩
    have := hunchecked.mp hu
    show (room capacity 1).toNat < filled.length.toNat
    omega

theorem exit_shape (hcap : 1 ≤ capacity) (hsid : byteAt request 0 = 0x37) :
    Shape request server (ExitUnchecked cb server context request capacity)
      (serviceTransferExit (recording cb) server (context,[]) request reply) := by
  have hlate : lateRefusal request capacity = false := late_sid (by rw [hsid]; decide)
  unfold serviceTransferExit
  cases h : cb.requestTransferExit with
  | none =>
    simp only [recording,h,Option.map_none]
    exact refuse_shape _ reply _ hlate (by decide)
      fun ⟨_,_,exit,hexit,_⟩ => by cases h.symm.trans hexit
  | some exit =>
    simp only [recording,h,Option.map_some]
    split
    · rename_i hactive
      rw [Bool.not_eq_true'] at hactive
      exact refuse_shape _ reply _ hlate (by decide) fun hu =>
        Bool.false_ne_true (hactive.symm.trans hu.2.1)
    rename_i hactive
    simp only [Bool.not_eq_true',Bool.not_eq_false] at hactive
    split
    · rename_i hr
      refine failed_shape hr _ _ hlate ?_
      rintro ⟨-,-,exit',hexit,hfilled⟩
      cases h.symm.trans hexit
      exact hr hfilled.1
    rename_i hr
    rw [if_neg (UInt16.not_lt.mpr hcap)]
    apply exit_answered server request reply _ _ _ rfl _ hcap hsid
    constructor
    · rintro ⟨-,-,exit',hexit,hfilled⟩
      cases h.symm.trans hexit
      exact hfilled.2
    · exact fun hfilled => ⟨hsid,hactive,exit,h,not_not.mp hr,hfilled⟩

theorem tester_shape (hcap : 1 ≤ capacity) (hreply : reply.length = 0)
    (hsid : byteAt request 0 = 0x3E) : Shape request server False
      (serviceTesterPresent server (context,([] : List Report)) request reply) := by
  have hlate : lateRefusal request capacity = false := late_sid (by rw [hsid]; decide)
  unfold serviceTesterPresent
  split
  · exact refuse_shape _ reply _ hlate (by decide) not_false
  split
  · exact refuse_shape _ reply _ hlate (by decide) not_false
  · apply answer_shape _ _ _ _ 2 reply hreply hlate hcap (by rw [hsid]; decide)
      (by rw [hsid]; rfl) rfl (by decide) (by decide)
    intro r hr
    cases hr

theorem dtc_setting_shape (hcap : 1 ≤ capacity) (hreply : reply.length = 0)
    (hsid : byteAt request 0 = 0x85) : Shape request server False
      (serviceDtcSetting (recording cb) server (context,[]) request reply) := by
  have hlate : lateRefusal request capacity = false := late_sid (by rw [hsid]; decide)
  unfold serviceDtcSetting
  cases h : cb.controlDtcSetting with
  | none =>
    simp only [recording,h,Option.map_none]
    exact refuse_shape _ reply _ hlate (by decide) not_false
  | some controlDtcSetting =>
    simp only [recording,h,Option.map_some]
    split
    · exact refuse_shape _ reply _ hlate (by decide) not_false
    split
    · exact refuse_shape _ reply _ hlate (by decide) not_false
    split
    · rename_i hr
      exact failed_shape hr reply _ hlate not_false
    · apply answer_shape _ _ _ _ 2 reply hreply hlate hcap (by rw [hsid]; decide)
        (by rw [hsid]; rfl) rfl (by decide) (by decide)
      intro r hr
      cases hr

theorem unchecked_sid (h : Unchecked cb server context request capacity) :
    byteAt request 0 = 0x27 ∨ byteAt request 0 = 0x31 ∨ byteAt request 0 = 0x37 := by
  rcases h with h | h | h
  · exact Or.inl h.1
  · exact Or.inr (Or.inl h.1)
  · exact Or.inr (Or.inr h.1)

theorem unchecked_seed (hsid : byteAt request 0 = 0x27) :
    Unchecked cb server context request capacity =
      SeedWraps cb server context request capacity := by
  apply propext
  constructor
  · rintro (h | h | h)
    · exact h
    · exact absurd (hsid.symm.trans h.1) (by decide)
    · exact absurd (hsid.symm.trans h.1) (by decide)
  · exact Or.inl

theorem unchecked_routine (hsid : byteAt request 0 = 0x31) :
    Unchecked cb server context request capacity =
      RoutineUnderflows cb server context request capacity := by
  apply propext
  constructor
  · rintro (h | h | h)
    · exact absurd (hsid.symm.trans h.1) (by decide)
    · exact h
    · exact absurd (hsid.symm.trans h.1) (by decide)
  · exact fun h => Or.inr (Or.inl h)

theorem unchecked_exit (hsid : byteAt request 0 = 0x37) :
    Unchecked cb server context request capacity =
      ExitUnchecked cb server context request capacity := by
  apply propext
  constructor
  · rintro (h | h | h)
    · exact absurd (hsid.symm.trans h.1) (by decide)
    · exact absurd (hsid.symm.trans h.1) (by decide)
    · exact h
  · exact fun h => Or.inr (Or.inr h)

theorem checked_shape {v : Served (σ × List Report) capacity} (h27 : byteAt request 0 ≠ 0x27)
    (h31 : byteAt request 0 ≠ 0x31) (h37 : byteAt request 0 ≠ 0x37)
    (h : Shape request server False v) :
    Shape request server (Unchecked cb server context request capacity) v := by
  have hnot : ¬Unchecked cb server context request capacity := by
    intro hu
    rcases unchecked_sid cb server context request hu with hs | hr | he
    · exact h27 hs
    · exact h31 hr
    · exact h37 he
  rw [eq_false hnot]
  exact h

theorem dispatch_shape (hcap : 1 ≤ capacity) (hreply : reply.length = 0) :
    Shape request server (Unchecked cb server context request capacity)
      (dispatch (recording cb) server (context,[]) request reply) := by
  have hsid : ∀ {k : UInt8}, (byteAt request 0).toNat = k.toNat → byteAt request 0 = k :=
    fun h => UInt8.toNat_inj.mp h
  have hne : ∀ k : UInt8, (byteAt request 0).toNat ≠ k.toNat → byteAt request 0 ≠ k := by
    rintro _ h rfl
    exact h rfl
  have hchecked : ∀ {k : ℕ} {v : Served (σ × List Report) capacity},
      (byteAt request 0).toNat = k → k ≠ 0x27 → k ≠ 0x31 → k ≠ 0x37 →
        Shape request server False v →
          Shape request server (Unchecked cb server context request capacity) v := by
    rintro _ v rfl h27 h31 h37 h
    exact checked_shape cb server context request (hne 0x27 h27) (hne 0x31 h31) (hne 0x37 h37) h
  unfold dispatch
  split
  · rename_i h
    exact hchecked h (by decide) (by decide) (by decide)
      (session_shape server context request reply hcap hreply (hsid h))
  · rename_i h
    exact hchecked h (by decide) (by decide) (by decide)
      (reset_shape cb server context request reply hcap hreply (hsid h))
  · rename_i h
    exact hchecked h (by decide) (by decide) (by decide)
      (read_dtc_shape cb server context request reply hcap (hsid h))
  · rename_i h
    exact hchecked h (by decide) (by decide) (by decide)
      (read_data_shape cb server context request reply hcap (hsid h))
  · rename_i h
    have hs : byteAt request 0 = 0x27 := hsid h
    rw [unchecked_seed cb server context request hs]
    exact security_shape cb server context request reply hcap hs
  · rename_i h
    exact hchecked h (by decide) (by decide) (by decide)
      (communication_shape cb server context request reply hcap hreply (hsid h))
  · rename_i h
    exact hchecked h (by decide) (by decide) (by decide)
      (refuse_shape _ reply _ (late_sid (by rw [show byteAt request 0 = 0x2F from hsid h]; decide))
        (by decide) not_false)
  · rename_i h
    have hs : byteAt request 0 = 0x31 := hsid h
    rw [unchecked_routine cb server context request hs]
    exact routine_shape cb server context request reply hcap hs
  · rename_i h
    exact hchecked h (by decide) (by decide) (by decide)
      (download_shape cb server context request reply hcap (hsid h))
  · rename_i h
    exact hchecked h (by decide) (by decide) (by decide)
      (transfer_shape cb server context request reply hcap (hsid h))
  · rename_i h
    have hs : byteAt request 0 = 0x37 := hsid h
    rw [unchecked_exit cb server context request hs]
    exact exit_shape cb server context request reply hcap hs
  · rename_i h
    exact hchecked h (by decide) (by decide) (by decide)
      (tester_shape server context request reply hcap hreply (hsid h))
  · rename_i h
    exact hchecked h (by decide) (by decide) (by decide)
      (dtc_setting_shape cb server context request reply hcap hreply (hsid h))
  · rename_i h₁ _ _ _ h₅ _ _ h₈ _ _ h₁₁ _ _
    exact checked_shape cb server context request (hne 0x27 h₅) (hne 0x31 h₈) (hne 0x37 h₁₁)
      (refuse_shape _ reply _ (late_sid (hne 0x10 h₁)) (by decide) not_false)

end Services
end CanopenReference.UdsReplies
