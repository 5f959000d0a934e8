import CanopenReference.UdsReplies

/-!
# Responses of the server

Every response is well formed while the callbacks keep to the room they are
offered. Without that promise the response memory is kept except where a
reported length goes unchecked, and a refusal leaves the server alone except
where a session request finds too little memory for its answer.
-/

set_option autoImplicit false

namespace CanopenReference.UdsResponses
open Library Uds UdsContexts UdsReplies Handling

section Replies
variable {capacity : UInt16}

/-- The reply is a negative response to this request. -/
def Refuses (request : List UInt8) (reply : Reply capacity) : Prop :=
  reply.result = .ok ∧ reply.length = 3 ∧
    ∃ nrc, nrc ≠ 0 ∧ reply.buffer.front 3 = [0x7F,byteAt request 0,nrc]

def Grants (request : List UInt8) (reply : Reply capacity) : Prop :=
  reply.result = .ok ∧ 1 ≤ reply.length ∧ reply.length ≤ capacity ∧
    reply.buffer.cell 0 0 = byteAt request 0+0x40

def WellFormed (request : List UInt8) (reply : Reply capacity) : Prop :=
  reply.result = .noResponse ∧ reply.length = 0 ∨ Grants request reply ∨ Refuses request reply

theorem negative_refuses (request : List UInt8) (nrc : UInt8) (reply : Reply capacity)
    (hnrc : nrc ≠ 0) (hcap : 3 ≤ capacity) :
    Refuses request (negativeResponse request nrc reply) := by
  unfold negativeResponse
  rw [if_neg (UInt16.not_lt.mpr hcap)]
  exact ⟨rfl,rfl,nrc,hnrc,Buffer.front_write_zero reply.buffer [0x7F,byteAt request 0,nrc]
    (UInt16.le_iff_toNat_le.mp hcap)⟩

theorem negative_small (request : List UInt8) (nrc : UInt8) (reply : Reply capacity)
    (hcap : capacity < 3) : (negativeResponse request nrc reply).result = .responseTooLong := by
  unfold negativeResponse
  rw [if_pos hcap]

theorem refuses_head {request : List UInt8} {reply : Reply capacity}
    (h : Refuses request reply) : reply.buffer.cell 0 0 = 0x7F := by
  obtain ⟨-,-,nrc,-,hfront⟩ := h
  rw [Buffer.cell_front _ 0 3 _ (by decide),hfront]
  rfl

theorem shift_ne (sid : UInt8) (h : sid ≠ 0x3F) : sid+0x40 ≠ 0x7F := by
  intro hc
  apply h
  rw [← UInt8.add_sub_cancel sid 0x40,hc]
  rfl

end Replies

section Server
variable {σ : Type} {capacity : UInt16} (cb : UdsCallbacks σ) (server : UdsServer) (context : σ)
  (request : List UInt8) (reply : Reply capacity) (now : UInt32)

/-- The server as the callbacks of a request see it. -/
def activeServer : UdsServer := { server with lastActivityMs := now }

theorem handle_shape (hcap : 1 ≤ capacity) (hlow : 1 ≤ request.length)
    (hhigh : request.length ≤ udsMaxRequestLength) :
    Shape request (activeServer server now)
      (Unchecked cb (activeServer server now) context request capacity)
      (udsServerHandle (recording cb) server (context,[]) request reply now) := by
  have hn : ¬(capacity = 0 ∨ request.length = 0 ∨ udsMaxRequestLength < request.length) := by
    rintro (h | h | h)
    · rw [h] at hcap
      exact absurd hcap (by decide)
    · omega
    · omega
  unfold udsServerHandle
  rw [if_neg hn]
  exact dispatch_shape cb (activeServer server now) context request _ hcap rfl

theorem handle_dropped
    (h : capacity = 0 ∨ request.length = 0 ∨ udsMaxRequestLength < request.length) :
    udsServerHandle cb server context request reply now =
      ⟨server,context,{ reply with result := .error }⟩ := if_pos h

/-- The callbacks report at most the room they are offered. -/
structure Bounded : Prop where
  readDid : ∀ g ∈ cb.readDid, ∀ s c did room, (g s c did room).2.length ≤ room
  readDtc : ∀ g ∈ cb.readDtc, ∀ s c subfunction bytes room,
    (g s c subfunction bytes room).2.length ≤ room
  securitySeed : ∀ g ∈ cb.securitySeed, ∀ s c level room, (g s c level room).2.length ≤ room
  routineControl : ∀ g ∈ cb.routineControl, ∀ s c subfunction routineId bytes room,
    (g s c subfunction routineId bytes room).2.length ≤ room
  requestTransferExit : ∀ g ∈ cb.requestTransferExit, ∀ s c bytes room,
    (g s c bytes room).2.length ≤ room

variable {cb} in
theorem bounded_checked (h : Bounded cb) (hcap : 4 ≤ capacity) :
    ¬Unchecked cb server context request capacity := by
  have hc := capacity.toNat_lt
  have hcap' : 4 ≤ capacity.toNat := UInt16.le_iff_toNat_le.mp hcap
  have htwo : (2 : UInt16).toNat = 2 := rfl
  have hone : (1 : UInt16).toNat = 1 := rfl
  rintro (⟨-,-,-,seed,hs,-,hlong⟩ | ⟨-,-,hsmall,-⟩ | ⟨-,-,exit,he,-,hlong⟩)
  · have hle := UInt16.le_iff_toNat_le.mp
      (h.securitySeed seed hs server context (keyLevel request) (room capacity 2))
    have hlong' : 0xFFFE ≤ _ := UInt16.le_iff_toNat_le.mp hlong
    rw [room_toNat] at hle
    omega
  · exact absurd (UInt16.lt_of_lt_of_le hsmall hcap) (UInt16.lt_irrefl _)
  · have hle := UInt16.le_iff_toNat_le.mp
      (h.requestTransferExit exit he server context (request.drop 1) (room capacity 1))
    have hlong' := UInt16.le_iff_toNat_le.mp hlong
    rw [room_toNat] at hle
    omega

end Server

/-- Callbacks that succeed with a length of their own and write nothing. -/
def reporting (length : UInt16 → UInt16) : UdsCallbacks Unit where
  readDid := none
  readDtc := none
  securitySeed := some fun _ c _ room => (c,⟨.ok,[],length room⟩)
  securityKey := some fun _ c _ _ => (c,.ok)
  communicationControl := none
  routineControl := some fun _ c _ _ _ room => (c,⟨.ok,[],length room⟩)
  requestDownload := none
  transferData := none
  requestTransferExit := some fun _ c _ room => (c,⟨.ok,[],length room⟩)
  ecuReset := none
  controlDtcSetting := none

theorem reporting_bounded {length : UInt16 → UInt16} (h : ∀ room, length room ≤ room) :
    Bounded (reporting length) where
  readDid := fun _ hg => by cases hg
  readDtc := fun _ hg => by cases hg
  securitySeed := by
    rintro _ ⟨⟩ _ _ _ room
    exact h room
  routineControl := by
    rintro _ ⟨⟩ _ _ _ _ _ room
    exact h room
  requestTransferExit := by
    rintro _ ⟨⟩ _ _ _ room
    exact h room

def blankReply (capacity : UInt16) : Reply capacity := ⟨Buffer.blank _ 0,0,.ok⟩

def downloadingServer : UdsServer := { udsServerInit 0 with downloadActive := true }

section Answers
variable {σ : Type} {capacity : UInt16} (cb : UdsCallbacks σ) (server : UdsServer) (context : σ)
  (request : List UInt8) (reply : Reply capacity) (now : UInt32)

variable {cb} in
theorem response_well_formed (hcb : Bounded cb) (hcap : 4 ≤ capacity)
    (hlow : 1 ≤ request.length) (hhigh : request.length ≤ udsMaxRequestLength) :
    WellFormed request (udsServerHandle cb server context request reply now).reply := by
  have hone : 1 ≤ capacity := UInt16.le_trans (by decide) hcap
  have hthree : 3 ≤ capacity := UInt16.le_trans (by decide) hcap
  rw [handle_recording]
  show WellFormed request (udsServerHandle (recording cb) server (context,[]) request reply now).reply
  cases handle_shape cb server context request reply now hone hlow hhigh with
  | refused nrc earlier hnrc hreply _ _ =>
    rw [hreply]
    exact Or.inr (Or.inr (negative_refuses request nrc earlier hnrc hthree))
  | silent hresult hlength _ _ => exact Or.inl ⟨hresult,hlength⟩
  | positive _ hresult hhead _ hfit _ =>
    obtain ⟨hlong,hfits,-⟩ := hfit (bounded_checked _ context request hcb hcap)
    exact Or.inr (Or.inl ⟨hresult,hlong,hfits,hhead⟩)

theorem response_well_formed_exit :
    WellFormed [0x37] (udsServerHandle (reporting id) downloadingServer () [0x37]
      (blankReply 8) 5).reply :=
  response_well_formed _ _ _ _ _ (reporting_bounded fun room => UInt16.le_refl room) (by decide)
    (by decide) (by decide)

/-- No response leaves the memory, and a length over its room is refused. -/
def Contained : Prop :=
  let answered := (udsServerHandle cb server context request reply now).reply
  (answered.result = .ok → answered.length ≤ capacity) ∧
    ((∃ r ∈ reports cb server context request reply now, Excessive r) → answered.result = .ok →
      Refuses request answered)

variable {cb server context request reply now} in
theorem unanswered_contained
    (h : (udsServerHandle cb server context request reply now).reply.result ≠ .ok) :
    Contained cb server context request reply now :=
  ⟨fun hc => absurd hc h,fun _ hc => absurd hc h⟩

theorem dropped_contained
    (h : capacity = 0 ∨ request.length = 0 ∨ udsMaxRequestLength < request.length) :
    Contained cb server context request reply now := by
  apply unanswered_contained
  rw [handle_dropped cb server context request reply now h]
  exact fun hc => by cases hc

/-- A request that the server serves is answered within the capacity unless it
is one of the unchecked ones. -/
theorem served_contained_iff (hcap : 1 ≤ capacity) (hlow : 1 ≤ request.length)
    (hhigh : request.length ≤ udsMaxRequestLength) :
    Contained cb server context request reply now ↔
      ¬Unchecked cb (activeServer server now) context request capacity := by
  have hreply : (udsServerHandle cb server context request reply now).reply =
      (udsServerHandle (recording cb) server (context,[]) request reply now).reply := by
    rw [handle_recording]
    rfl
  cases handle_shape cb server context request reply now hcap hlow hhigh with
  | refused nrc earlier hnrc hrefused _ hchecked =>
    refine iff_of_true ?_ hchecked
    by_cases hthree : 3 ≤ capacity
    · have h := negative_refuses request nrc earlier hnrc hthree
      rw [← hrefused,← hreply] at h
      exact ⟨fun _ => by rw [h.2.1]; exact hthree,fun _ _ => h⟩
    · apply unanswered_contained
      rw [hreply,hrefused,negative_small request nrc earlier (UInt16.not_le.mp hthree)]
      exact fun hc => by cases hc
  | silent hresult hlength _ hchecked =>
    refine iff_of_true ?_ hchecked
    apply unanswered_contained
    rw [hreply,hresult]
    exact fun hc => by cases hc
  | positive hsid hresult hhead _ hfit hover =>
    unfold Contained reports
    rw [hreply]
    constructor
    · rintro ⟨hfits,hrefused⟩ hu
      rcases hover hu with hlong | hexcess
      · exact absurd (UInt16.lt_of_lt_of_le hlong (hfits hresult)) (UInt16.lt_irrefl _)
      · have h := refuses_head (hrefused hexcess hresult)
        exact shift_ne _ hsid (hhead.symm.trans h)
    · intro hu
      obtain ⟨-,hfits,hlog⟩ := hfit hu
      refine ⟨fun _ => hfits,?_⟩
      rintro ⟨r,hr,hexcess⟩
      exact absurd hexcess (hlog r hr)

theorem response_contained_iff (hcap : 1 ≤ capacity) :
    Contained cb server context request reply now ↔
      ¬(request.length ≤ udsMaxRequestLength ∧
        Unchecked cb (activeServer server now) context request capacity) := by
  by_cases hlow : 1 ≤ request.length
  swap
  · have hempty : request = [] := List.eq_nil_of_length_eq_zero (by omega)
    have hsid : byteAt request 0 = 0 := by rw [hempty]; rfl
    have hnot : ¬Unchecked cb (activeServer server now) context request capacity := by
      intro hu
      have hknown := unchecked_sid cb (activeServer server now) context request hu
      rw [hsid] at hknown
      exact absurd hknown (by decide)
    exact iff_of_true (dropped_contained cb server context request reply now (by omega))
      (fun h => hnot h.2)
  by_cases hhigh : request.length ≤ udsMaxRequestLength
  swap
  · exact iff_of_true (dropped_contained cb server context request reply now (by omega))
      (fun h => hhigh h.1)
  have hiff : ¬(request.length ≤ udsMaxRequestLength ∧
      Unchecked cb (activeServer server now) context request capacity) ↔
        ¬Unchecked cb (activeServer server now) context request capacity :=
    not_congr (and_iff_right hhigh)
  rw [hiff]
  exact served_contained_iff cb server context request reply now hcap hlow hhigh

/-- An exit over the memory, a seed that wraps and a routine without its header. -/
theorem unchecked_lengths_escape :
    ¬Contained (reporting fun _ => 100) downloadingServer () [0x37] (blankReply 8) 5 ∧
    ¬Contained (reporting fun _ => 65535) downloadingServer () [0x27,0x01] (blankReply 8) 5 ∧
    ¬Contained (reporting fun _ => 0) downloadingServer () [0x31,0x01,0x02,0x03]
      (blankReply 2) 5 := by
  refine ⟨?_,?_,?_⟩
  · rintro ⟨h,-⟩
    exact absurd (h (by decide)) (by decide)
  · rintro ⟨-,h⟩
    have hreport : (⟨6,65535⟩ : Report) ∈
        reports (reporting fun _ => 65535) downloadingServer () [0x27,0x01] (blankReply 8) 5 := by
      decide
    exact absurd (h ⟨_,hreport,by decide⟩ (by decide)).2.1 (by decide)
  · rintro ⟨h,-⟩
    exact absurd (h (by decide)) (by decide)

theorem response_contained_exit :
    ¬Contained (reporting fun _ => 100) downloadingServer () [0x37] (blankReply 8) 5 := by
  rw [response_contained_iff _ _ _ _ _ _ (by decide),not_not]
  exact ⟨by decide,Or.inr (Or.inr ⟨rfl,rfl,_,rfl,rfl,by decide⟩)⟩

end Answers

/-- The fields that a refusal must keep. -/
structure SameState (before after : UdsServer) : Prop where
  session : after.session = before.session
  securityLevel : after.securityLevel = before.securityLevel
  dtcSettingEnabled : after.dtcSettingEnabled = before.dtcSettingEnabled
  resetPending : after.resetPending = before.resetPending
  downloadActive : after.downloadActive = before.downloadActive
  nextDownloadBlock : after.nextDownloadBlock = before.nextDownloadBlock
  maxDownloadBlockLength : after.maxDownloadBlockLength = before.maxDownloadBlockLength

section Refusals
variable {σ : Type} {capacity : UInt16} (cb : UdsCallbacks σ) (server : UdsServer) (context : σ)
  (request : List UInt8) (reply : Reply capacity) (now : UInt32)

theorem refused_same (now : UInt32) :
    SameState server (refusedServer (activeServer server now) request capacity) ↔
      ¬(lateRefusal request capacity = true ∧
        (server.session ≠ subfunctionOf request ∨ server.securityLevel ≠ 0)) := by
  unfold refusedServer
  by_cases hl : lateRefusal request capacity = true
  · rw [if_pos hl]
    constructor
    · rintro h ⟨-,hs | hs⟩
      · exact hs h.session.symm
      · exact hs h.securityLevel.symm
    · intro h
      simp only [hl,true_and,not_or,not_not] at h
      exact ⟨h.1.symm,h.2.symm,rfl,rfl,rfl,rfl,rfl⟩
  · rw [if_neg hl]
    exact iff_of_true ⟨rfl,rfl,rfl,rfl,rfl,rfl,rfl⟩ (fun h => hl h.1)

theorem refusal_keeps_iff (hcap : 3 ≤ capacity) :
    (Refuses request (udsServerHandle cb server context request reply now).reply →
        SameState server (udsServerHandle cb server context request reply now).server) ↔
      ¬(lateRefusal request capacity = true ∧
        (server.session ≠ subfunctionOf request ∨ server.securityLevel ≠ 0)) := by
  have hone : 1 ≤ capacity := UInt16.le_trans (by decide) hcap
  by_cases hdropped : capacity = 0 ∨ request.length = 0 ∨ udsMaxRequestLength < request.length
  · rw [handle_dropped cb server context request reply now hdropped]
    refine iff_of_true (fun h => by cases h.1) (fun h => ?_)
    have hlength : request.length = 2 := by
      have := h.1
      simp only [lateRefusal,acceptsSession,Bool.decide_and,Bool.and_eq_true,
        decide_eq_true_eq] at this
      exact this.1.2.1
    rcases hdropped with hd | hd | hd
    · rw [hd] at hcap
      exact absurd hcap (by decide)
    · omega
    · rw [hlength] at hd
      exact absurd hd (by decide)
  rw [not_or,not_or] at hdropped
  rw [handle_recording]
  cases handle_shape cb server context request reply now hone (by omega) (by omega) with
  | refused nrc earlier hnrc hreply hserver _ =>
    simp only [mapContext,hreply,hserver hcap,refused_same]
    exact imp_iff_right (negative_refuses request nrc earlier hnrc hcap)
  | silent hresult _ hlate _ =>
    refine iff_of_true (fun h => ?_) (fun h => ?_)
    · have hc := hresult.symm.trans h.1
      cases hc
    · rw [hlate] at h
      exact absurd h.1 Bool.false_ne_true
  | positive hsid hresult hhead hlate _ _ =>
    refine iff_of_true (fun h => ?_) (fun h => ?_)
    · exact absurd (hhead.symm.trans (refuses_head h)) (shift_ne _ hsid)
    · rw [hlate] at h
      exact absurd h.1 Bool.false_ne_true

/-- The default session becomes the extended one behind a refusal. -/
theorem late_session_moves :
    ¬(Refuses [0x10,0x03] (udsServerHandle (reporting id) (udsServerInit 0) () [0x10,0x03]
          (blankReply 4) 5).reply →
        SameState (udsServerInit 0) (udsServerHandle (reporting id) (udsServerInit 0) () [0x10,0x03]
          (blankReply 4) 5).server) := by
  intro h
  have hrefused : Refuses [0x10,0x03] (udsServerHandle (reporting id) (udsServerInit 0) ()
      [0x10,0x03] (blankReply 4) 5).reply := ⟨rfl,rfl,0x14,by decide,rfl⟩
  exact absurd (h hrefused).session (by decide)

theorem refusal_keeps_session :
    Refuses [0x10,0x07] (udsServerHandle (reporting id) (udsServerInit 0) () [0x10,0x07]
        (blankReply 4) 5).reply ∧
      SameState (udsServerInit 0) (udsServerHandle (reporting id) (udsServerInit 0) () [0x10,0x07]
        (blankReply 4) 5).server := by
  have hrefused : Refuses [0x10,0x07] (udsServerHandle (reporting id) (udsServerInit 0) ()
      [0x10,0x07] (blankReply 4) 5).reply := ⟨rfl,rfl,0x12,by decide,rfl⟩
  exact ⟨hrefused,(refusal_keeps_iff _ _ _ _ _ _ (by decide)).mpr (by decide) hrefused⟩

end Refusals
end CanopenReference.UdsResponses
