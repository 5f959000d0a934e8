import CanopenReference.SecurityLevels

/-!
# The server as its history

What the server has to know of the past: an automaton over the requests that it
accepts and the clock. The server and its callbacks follow it.
-/

set_option autoImplicit false

namespace CanopenReference.ServerHistory
open Library Library.Runs Download Uds Diagnostics Handling Dialogue SecurityAnswers SecurityLevels

structure Standing where
  session : UInt8
  securityLevel : UInt8
  dtcSettingEnabled : Bool
  resetPending : Bool
  lastActivityMs : UInt32
  deriving DecidableEq

inductive ServerEvent where
  | active (nowMs : UInt32)
  | session (subfunction : UInt8)
  | unlocked (level : UInt8)
  | dtcSetting (enabled : Bool)
  | reset
  | ticked (nowMs : UInt32)
  | cleared
  deriving DecidableEq

def initial (nowMs : UInt32) : Standing := ⟨udsSessionDefault,0,true,false,nowMs⟩

/-- A change of the session, asked for or after the S3 time, locks the server; a
reset is noted only while it is unlocked. -/
def standingStep (s : Standing) : ServerEvent → Standing
  | .active now => { s with lastActivityMs := now }
  | .session subfunction => { s with session := subfunction, securityLevel := 0 }
  | .unlocked level => { s with securityLevel := level }
  | .dtcSetting enabled => { s with dtcSettingEnabled := enabled }
  | .reset => if s.securityLevel = 0 then s else { s with resetPending := true }
  | .ticked now =>
    if Clock.reached now (s.lastActivityMs+udsDefaultS3ServerMs) then
      { s with session := udsSessionDefault, securityLevel := 0 }
    else s
  | .cleared => { s with resetPending := false }

inductive ServerInput where
  | handle (request : List UInt8) (nowMs : UInt32)
  | tick (nowMs : UInt32)
  | clearReset

def acceptsReset (request : List UInt8) : Bool :=
  byteAt request 0 = 0x11 ∧ request.length = 2 ∧ subfunctionOf request = 0x01

def acceptsDtcSetting (request : List UInt8) : Bool :=
  byteAt request 0 = 0x85 ∧ request.length = 2 ∧
    (subfunctionOf request = 0x01 ∨ subfunctionOf request = 0x02)

section Server
variable {μ : Type}

def keyTaken (app : UdsApplication μ) (request : List UInt8) (now : UInt32) : Bool :=
  keyFramed request &&
    (udsSecurityKey (active app now) app.context (keyLevel request) (request.drop 2)).2 = .ok

def serviceEvents (app : UdsApplication μ) (request : List UInt8) (now : UInt32) :
    List ServerEvent :=
  if acceptsSession request then [.session (subfunctionOf request)]
  else if acceptsReset request then [.reset]
  else if acceptsDtcSetting request then [.dtcSetting (subfunctionOf request = 0x01)]
  else if keyTaken app request now then [.unlocked (keyLevel request)]
  else []

def requestEvents (app : UdsApplication μ) (request : List UInt8) (now : UInt32) :
    List ServerEvent :=
  if request.length = 0 ∨ udsMaxRequestLength < request.length then []
  else .active now::serviceEvents app request now

def serverStep (app : UdsApplication μ) : ServerInput → UdsApplication μ × List ServerEvent
  | .handle request now =>
    ((handleRequest (atTime app now) request now).1,requestEvents (atTime app now) request now)
  | .tick now => ((tickApplication app now).1,[.ticked now])
  | .clearReset =>
    ({ app with server := { app.server with resetPending := false } },[.cleared])

def standing (server : UdsServer) : Standing :=
  ⟨server.session,server.securityLevel,server.dtcSettingEnabled,server.resetPending,
    server.lastActivityMs⟩

section Request
variable (app : UdsApplication μ) {request : List UInt8} (now : UInt32)

theorem session_sid (h : acceptsSession request = true) : byteAt request 0 = 0x10 :=
  (of_decide_eq_true h).1

theorem reset_sid (h : acceptsReset request = true) : byteAt request 0 = 0x11 :=
  (of_decide_eq_true h).1

theorem dtc_sid (h : acceptsDtcSetting request = true) : byteAt request 0 = 0x85 :=
  (of_decide_eq_true h).1

theorem key_sid (h : keyTaken app request now = true) : byteAt request 0 = 0x27 := by
  rw [keyTaken,Bool.and_eq_true] at h
  exact (of_decide_eq_true h.1).1

theorem false_of_sid {b : Bool} {sid : UInt8} (hb : b = true → byteAt request 0 = sid)
    (h : byteAt request 0 ≠ sid) : b = false :=
  Bool.eq_false_iff.mpr fun hc => h (hb hc)

def served (server : UdsServer) (request : List UInt8) : Standing :=
  (serviceEvents app request now).foldl standingStep (standing server)

theorem session_standing (server : UdsServer) {capacity : UInt16} (reply : Reply capacity)
    (hsid : byteAt request 0 = 0x10) :
    standing (serviceSessionControl server app.context request reply).server =
      served app now server request := by
  have hother : serviceEvents app request now =
      if acceptsSession request then [.session (subfunctionOf request)] else [] := by
    unfold serviceEvents
    rw [false_of_sid reset_sid (by rw [hsid]; decide),false_of_sid dtc_sid (by rw [hsid]; decide),
      false_of_sid (key_sid app now) (by rw [hsid]; decide)]
    rfl
  unfold served
  rw [hother]
  unfold serviceSessionControl
  split
  · rename_i hl
    rw [if_neg (by simp [acceptsSession,hl])]
    rfl
  rename_i hl
  dsimp only
  split
  · rename_i hs
    rw [if_neg (by simp [acceptsSession,hs])]
    rfl
  · rename_i hs
    have haccepts : acceptsSession request = true := by
      simp only [not_and_or,not_not] at hl hs
      simp [acceptsSession,hsid,hl,hs]
    rw [if_pos haccepts]
    rfl

theorem reset_standing (server : UdsServer) {capacity : UInt16} (reply : Reply capacity)
    (hsid : byteAt request 0 = 0x11) :
    standing (serviceEcuReset referenceCallbacks server app.context request reply).server =
      served app now server request := by
  have hother : serviceEvents app request now = if acceptsReset request then [.reset] else [] := by
    unfold serviceEvents
    rw [false_of_sid session_sid (by rw [hsid]; decide),false_of_sid dtc_sid (by rw [hsid]; decide),
      false_of_sid (key_sid app now) (by rw [hsid]; decide)]
    rfl
  unfold served
  rw [hother]
  simp only [serviceEcuReset,referenceCallbacks]
  split
  · rename_i hl
    rw [if_neg (by simp [acceptsReset,hl])]
    rfl
  rename_i hl
  split
  · rename_i hs
    rw [if_neg (by simp [acceptsReset,hs])]
    rfl
  rename_i hs
  rw [not_not] at hl hs
  have haccepts : acceptsReset request = true := decide_eq_true ⟨hsid,hl,hs⟩
  rw [haccepts]
  simp only [udsEcuReset,hs]
  by_cases hlevel : server.securityLevel = 0
  · simp [hlevel,standing,standingStep]
  · simp [hlevel,standing,standingStep]

theorem dtc_standing (server : UdsServer) {capacity : UInt16} (reply : Reply capacity)
    (hsid : byteAt request 0 = 0x85) :
    standing (serviceDtcSetting referenceCallbacks server app.context request reply).server =
      served app now server request := by
  have hother : serviceEvents app request now =
      if acceptsDtcSetting request then [.dtcSetting (subfunctionOf request = 0x01)] else [] := by
    unfold serviceEvents
    rw [false_of_sid session_sid (by rw [hsid]; decide),
      false_of_sid reset_sid (by rw [hsid]; decide),
      false_of_sid (key_sid app now) (by rw [hsid]; decide)]
    rfl
  unfold served
  rw [hother]
  simp only [serviceDtcSetting,referenceCallbacks]
  split
  · rename_i hl
    rw [if_neg (by simp [acceptsDtcSetting,hl])]
    rfl
  rename_i hl
  split
  · rename_i hs
    rw [if_neg (by simp [acceptsDtcSetting,hs])]
    rfl
  rename_i hs
  simp only [not_and_or,not_not] at hl hs
  have haccepts : acceptsDtcSetting request = true := decide_eq_true ⟨hsid,hl,hs⟩
  have hok : (udsDtcSetting server app.context (subfunctionOf request)).2 = .ok := if_pos hs
  rw [haccepts,if_neg (not_not.mpr hok)]
  rfl

theorem security_standing (hhigh : request.length ≤ udsMaxRequestLength) {capacity : UInt16}
    (reply : Reply capacity) (hsid : byteAt request 0 = 0x27) :
    standing (serviceSecurityAccess referenceCallbacks (active app now) app.context request
        reply).server = served app now (active app now) request := by
  have hother : serviceEvents app request now =
      if keyTaken app request now then [.unlocked (keyLevel request)] else [] := by
    unfold serviceEvents
    rw [false_of_sid session_sid (by rw [hsid]; decide),
      false_of_sid reset_sid (by rw [hsid]; decide),false_of_sid dtc_sid (by rw [hsid]; decide)]
    rfl
  have hunframed : keyFramed request = false → served app now (active app now) request =
      standing (active app now) := by
    intro hframed
    unfold served
    rw [hother,keyTaken,hframed]
    rfl
  simp only [serviceSecurityAccess,referenceCallbacks]
  split
  · rename_i hl
    rw [hunframed (by simp [keyFramed]; omega)]
  split
  · rename_i hl hsub
    rw [hunframed (by
      simp only [keyFramed,decide_eq_false_iff_not]
      rintro ⟨_,_,_,hzero,hrange,_⟩
      rcases hsub with h | h
      · exact hzero h
      · exact absurd hrange (UInt8.not_le.mpr h))]
  split
  · rename_i hodd
    have hnone := hunframed (by simp [keyFramed,hodd])
    split
    · rw [hnone]
    split <;> rw [hnone]
  split
  · rename_i hshort
    rw [hunframed (by simp [keyFramed]; omega)]
  rename_i hlow hsub heven hlong
  have hframed : keyFramed request = true := by
    simp only [not_or,UInt8.not_lt,not_not] at hsub heven
    exact decide_eq_true ⟨hsid,by omega,hhigh,hsub.1,hsub.2,heven⟩
  unfold served
  rw [hother,keyTaken,hframed,Bool.true_and]
  split
  · rename_i hr
    have hrefused : (udsSecurityKey (active app now) app.context (keyLevel request)
        (request.drop 2)).2 ≠ .ok := hr
    rw [decide_eq_false hrefused]
    rfl
  · rename_i hr
    have htaken : (udsSecurityKey (active app now) app.context (keyLevel request)
        (request.drop 2)).2 = .ok := not_not.mp hr
    rw [decide_eq_true htaken,if_pos rfl]
    split
    · rfl
    · rfl

theorem other_standing (server : UdsServer) {capacity : UInt16} (reply : Reply capacity)
    (hsession : byteAt request 0 ≠ 0x10) (hreset : byteAt request 0 ≠ 0x11)
    (hsecurity : byteAt request 0 ≠ 0x27) (hdtc : byteAt request 0 ≠ 0x85) :
    standing (dispatch referenceCallbacks server app.context request reply).server =
      served app now server request := by
  have hnone : serviceEvents app request now = [] := by
    unfold serviceEvents
    rw [false_of_sid session_sid hsession,false_of_sid reset_sid hreset,
      false_of_sid dtc_sid hdtc,false_of_sid (key_sid app now) hsecurity]
    rfl
  unfold served
  rw [hnone]
  have he := dispatch_effect server app.context request reply
  dsimp only at he
  generalize (dispatch referenceCallbacks server app.context request reply).server = next at he ⊢
  generalize (dispatch referenceCallbacks server app.context request reply).context = context' at he
  cases he with
  | kept _ => rfl
  | session h => exact absurd (session_sid h) hsession
  | reset hsid _ => exact absurd hsid hreset
  | seed room hsid => exact absurd hsid hsecurity
  | key next hsid _ => exact absurd hsid hsecurity
  | dtcSetting enabled hsid => exact absurd hsid hdtc
  | download next _ _ hnext =>
    rcases hnext with rfl | ⟨_,rfl⟩
    · rfl
    · rfl
  | transfer next _ _ hnext =>
    rcases hnext with ⟨rfl,_⟩ | ⟨_,rfl⟩
    · rfl
    · rfl
  | exit room next _ _ hnext =>
    rcases hnext with rfl | ⟨_,rfl⟩
    · rfl
    · rfl

theorem dispatch_standing (hhigh : request.length ≤ udsMaxRequestLength) {capacity : UInt16}
    (reply : Reply capacity) :
    standing (dispatch referenceCallbacks (active app now) app.context request reply).server =
      served app now (active app now) request := by
  by_cases hsession : byteAt request 0 = 0x10
  · rw [← session_standing app now _ reply hsession]
    unfold dispatch
    rw [hsession]
    rfl
  by_cases hreset : byteAt request 0 = 0x11
  · rw [← reset_standing app now _ reply hreset]
    unfold dispatch
    rw [hreset]
    rfl
  by_cases hsecurity : byteAt request 0 = 0x27
  · rw [← security_standing app now hhigh reply hsecurity]
    unfold dispatch
    rw [hsecurity]
    rfl
  by_cases hdtc : byteAt request 0 = 0x85
  · rw [← dtc_standing app now _ reply hdtc]
    unfold dispatch
    rw [hdtc]
    rfl
  exact other_standing app now _ reply hsession hreset hsecurity hdtc

theorem handle_standing :
    standing (handleRequest app request now).1.server =
      (requestEvents app request now).foldl standingStep (standing app.server) := by
  unfold requestEvents handleRequest udsServerHandle
  by_cases hbad : request.length = 0 ∨ udsMaxRequestLength < request.length
  · rw [if_pos hbad,if_pos (Or.inr hbad)]
    rfl
  · have hn : ¬(udsMaxResponseLength = 0 ∨ request.length = 0 ∨
        udsMaxRequestLength < request.length) := by
      rintro (h | h)
      · cases h
      · exact hbad h
    rw [if_neg hbad,if_neg hn]
    exact dispatch_standing app now (Nat.not_lt.mp fun h => hbad (Or.inr h)) _

end Request

theorem tick_standing (app : UdsApplication μ) (now : UInt32)
    (hs3 : app.server.s3ServerTimeoutMs = udsDefaultS3ServerMs) :
    standing (tickApplication app now).1.server =
      standingStep (standing app.server) (.ticked now) := by
  show standing (udsServerTick app.server now).1 = _
  have hdue : deadlineExpired now (app.server.lastActivityMs+app.server.s3ServerTimeoutMs) =
      Clock.reached now ((standing app.server).lastActivityMs+udsDefaultS3ServerMs) := by
    rw [hs3]
    rfl
  unfold udsServerTick
  rw [hdue]
  by_cases h : Clock.reached now ((standing app.server).lastActivityMs+udsDefaultS3ServerMs) = true
  · rw [if_pos h,standingStep,if_pos h]
    rfl
  · rw [if_neg h,standingStep,if_neg h]

theorem step_s3 (app : UdsApplication μ) (input : ServerInput)
    (hs3 : app.server.s3ServerTimeoutMs = udsDefaultS3ServerMs) :
    (serverStep app input).1.server.s3ServerTimeoutMs = udsDefaultS3ServerMs := by
  cases input with
  | clearReset => exact hs3
  | tick now =>
    show (udsServerTick app.server now).1.s3ServerTimeoutMs = _
    unfold udsServerTick
    split
    · exact hs3
    · exact hs3
  | handle request now =>
    have he := handle_effect (atTime app now) request now
    dsimp only at he
    show (handleRequest (atTime app now) request now).1.server.s3ServerTimeoutMs = _
    generalize (handleRequest (atTime app now) request now).1.server = next at he ⊢
    generalize (handleRequest (atTime app now) request now).1.context = context at he
    rcases he with ⟨_,rfl,_⟩ | ⟨_,he⟩
    · exact hs3
    cases he with
    | kept _ => exact hs3
    | session _ => exact hs3
    | reset _ _ => exact hs3
    | seed _ _ => exact hs3
    | key next _ hnext => rcases hnext with ⟨rfl,_⟩ | ⟨_,rfl⟩ <;> exact hs3
    | dtcSetting _ _ => exact hs3
    | download next _ _ hnext => rcases hnext with rfl | ⟨_,rfl⟩ <;> exact hs3
    | transfer next _ _ hnext => rcases hnext with ⟨rfl,_⟩ | ⟨_,rfl⟩ <;> exact hs3
    | exit _ next _ _ hnext => rcases hnext with rfl | ⟨_,rfl⟩ <;> exact hs3

theorem step_standing (app : UdsApplication μ) (input : ServerInput)
    (hs3 : app.server.s3ServerTimeoutMs = udsDefaultS3ServerMs) :
    standing (serverStep app input).1.server =
      (serverStep app input).2.foldl standingStep (standing app.server) := by
  cases input with
  | clearReset => rfl
  | tick now => exact tick_standing app now hs3
  | handle request now => exact handle_standing (atTime app now) now

theorem run_standing (app : UdsApplication μ) (inputs : List ServerInput)
    (hs3 : app.server.s3ServerTimeoutMs = udsDefaultS3ServerMs) :
    standing (run serverStep app inputs).1.server =
      (run serverStep app inputs).2.foldl standingStep (standing app.server) := by
  induction inputs generalizing app with
  | nil => rfl
  | cons input inputs ih =>
    rw [run_cons]
    dsimp only
    rw [ih _ (step_s3 app input hs3),List.foldl_append,step_standing app input hs3]

/-- Whatever the requests, the clock and the application do, what the server
holds of its session, its lock, its fault recording and the reset to come is
what the history says. -/
theorem server_follows_history (callbacks : Option (UdsDownloadCallbacks μ)) (memory : μ)
    (now : UInt32) (inputs : List ServerInput) :
    let final := run serverStep (applicationInit callbacks memory now) inputs
    standing final.1.server = final.2.foldl standingStep (initial now) :=
  run_standing (applicationInit callbacks memory now) inputs rfl

end Server
end CanopenReference.ServerHistory
