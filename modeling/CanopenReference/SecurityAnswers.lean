import CanopenReference.Dialogue
import CanopenReference.SecurityAttempts

/-!
# Requests to SecurityAccess

What one request to SecurityAccess does to the provider, and what its response
tells about it. Requests to other services do not reach the provider.
-/

set_option autoImplicit false

namespace CanopenReference.SecurityAnswers
open Library Library.Attempts Download SecurityProvider Uds Diagnostics Handling Dialogue
open SecurityAttempts

def securityVerdict (x : Exchange) : Verdict :=
  if x.response = [0x7F,0x27,nrcExceededNumberOfAttempts] then .exceeded
  else if x.response = [0x7F,0x27,nrcInvalidKey] then .wrong
  else if x.response.head? ≠ some 0x67 then .refused
  else if byteAt x.request 1 &&& 1 = 0 then .accepted
  else .issued

section Answer
variable {μ : Type} (server : UdsServer) (context : UdsContext μ) (request : List UInt8)

def refusalVerdict (result : UdsCallbackResult) (now : UInt32) : Verdict :=
  securityVerdict ⟨request,now,[0x7F,0x27,resultToNrc result]⟩

theorem seed_filled (level : UInt8) (room : UInt16) (now : UInt32) :
    let generated :=
      udsSecurityProviderGenerateSeed context.security level room.toNat context.nowMs
    let asked := udsSecuritySeed server context level room
    asked.1.security = generated.1 ∧
      (asked.2.result = .ok → seedVerdict generated.2.1 = .issued ∧ asked.2.length = 4) ∧
      (asked.2.result ≠ .ok →
        refusalVerdict request asked.2.result now = seedVerdict generated.2.1) := by
  have hissued := @generate_issued context.security level room.toNat context.nowMs
  unfold udsSecuritySeed
  generalize udsSecurityProviderGenerateSeed context.security level room.toNat context.nowMs =
    generated at hissued
  obtain ⟨security,result,seed⟩ := generated
  cases result with
  | ok =>
    refine ⟨rfl,fun _ => ⟨rfl,?_⟩,fun h => absurd rfl h⟩
    show UInt16.ofNat (seed.getD []).length = 4
    rw [(hissued rfl).2.2]
    rfl
  | _ => exact ⟨rfl,(fun h => by cases h),fun _ => rfl⟩

theorem key_answered (level : UInt8) (key : List UInt8) (now : UInt32) :
    let verified := udsSecurityProviderVerifyKey context.security level key context.nowMs
    let asked := udsSecurityKey server context level key
    asked.1.security = verified.1 ∧ (asked.2 = .ok ↔ verified.2 = .ok) ∧
      (asked.2 ≠ .ok → refusalVerdict request asked.2 now = keyVerdict verified.2) := by
  unfold udsSecurityKey
  generalize udsSecurityProviderVerifyKey context.security level key context.nowMs = verified
  obtain ⟨security,result⟩ := verified
  cases result with
  | ok => exact ⟨rfl,iff_of_true rfl rfl,fun h => absurd rfl h⟩
  | _ => exact ⟨rfl,by simp,fun _ => rfl⟩

theorem verdict_negative {nrc : UInt8} {now : UInt32} (hinvalid : nrc ≠ nrcInvalidKey)
    (hexceeded : nrc ≠ nrcExceededNumberOfAttempts) :
    securityVerdict ⟨request,now,[0x7F,0x27,nrc]⟩ = .refused := by
  simp [securityVerdict,hexceeded,hinvalid]

theorem verdict_positive {response : List UInt8} {now : UInt32}
    (h : response.head? = some 0x67) : securityVerdict ⟨request,now,response⟩ =
      if byteAt request 1 &&& 1 = 0 then .accepted else .issued := by
  have hne : ∀ nrc : UInt8, response ≠ [0x7F,0x27,nrc] := by
    rintro nrc rfl
    cases h
  simp only [securityVerdict,if_neg (hne _)]
  rw [if_neg (not_not.mpr h)]

/-- What one request to SecurityAccess did: nothing, a call for a seed, or a
call with a key, and the response says how it went. -/
inductive Answered (p : UdsSecurityProvider) (now : UInt32) : UdsSecurityProvider → Verdict →
    Prop where
  | refused : Answered p now p .refused
  | seed (level : UInt8) (capacity : ℕ) :
      Answered p now (udsSecurityProviderGenerateSeed p level capacity now).1
        (seedVerdict (udsSecurityProviderGenerateSeed p level capacity now).2.1)
  | key (level : UInt8) (key : List UInt8) :
      Answered p now (udsSecurityProviderVerifyKey p level key now).1
        (keyVerdict (udsSecurityProviderVerifyKey p level key now).2)

theorem security_served (reply : Reply udsMaxResponseLength) (hsid : byteAt request 0 = 0x27) :
    let served := serviceSecurityAccess referenceCallbacks server context request reply
    Answered context.security context.nowMs served.context.security
      (securityVerdict ⟨request,context.nowMs,sent served.reply⟩) := by
  have hnegative : ∀ nrc : UInt8, nrc ≠ nrcInvalidKey → nrc ≠ nrcExceededNumberOfAttempts →
      Answered context.security context.nowMs context.security
        (securityVerdict ⟨request,context.nowMs,sent (negativeResponse request nrc reply)⟩) := by
    intro nrc h1 h2
    rw [sent_negative _ _ _ (by decide),hsid,verdict_negative request h1 h2]
    exact .refused
  have hhead : ∀ written : Reply udsMaxResponseLength,
      (sent { written.put 0 [0x67,byteAt request 1] with
        length := 2+4, result := .ok }).head? = some 0x67 := fun written =>
    Buffer.head_write_zero written.buffer 0x67 [byteAt request 1] 6 (by decide)
      (by show 1 < 4095; decide)
  have hcallback : ∀ (result : UdsCallbackResult) (written : Reply udsMaxResponseLength),
      result ≠ .ok → securityVerdict
          ⟨request,context.nowMs,sent (callbackResult result request written)⟩ =
        refusalVerdict request result context.nowMs := by
    intro result written hr
    rw [sent_callback _ _ _ (by decide) hr,hsid,refusalVerdict]
  simp only [serviceSecurityAccess,referenceCallbacks]
  split
  · exact hnegative _ (by decide) (by decide)
  split
  · exact hnegative _ (by decide) (by decide)
  split
  · rename_i hodd
    obtain ⟨hsecurity,hok,hfailed⟩ := seed_filled server context request ((byteAt request 1+1)/2)
      (room udsMaxResponseLength 2) context.nowMs
    have hseed := @Answered.seed context.security context.nowMs ((byteAt request 1+1)/2)
      (room udsMaxResponseLength 2).toNat
    rw [← hsecurity] at hseed
    split
    · rename_i hr
      rw [hcallback _ _ hr,hfailed hr]
      exact hseed
    · rename_i hr
      obtain ⟨hv,hlength⟩ := hok (not_not.mp hr)
      rw [hlength,if_neg (by decide),verdict_positive request (hhead _),if_neg hodd,← hv]
      exact hseed
  rename_i heven
  split
  · exact hnegative _ (by decide) (by decide)
  · obtain ⟨hsecurity,hok,hfailed⟩ := key_answered server context request
      ((byteAt request 1+1)/2) (request.drop 2) context.nowMs
    have hkey := @Answered.key context.security context.nowMs ((byteAt request 1+1)/2)
      (request.drop 2)
    rw [← hsecurity] at hkey
    split
    · rename_i hr
      rw [hcallback _ _ hr,hfailed hr]
      exact hkey
    · rename_i hr
      rw [hok.mp (not_not.mp hr)] at hkey
      rw [if_neg (by decide),sent_positive _ _ (by show 2 ≤ 4095; decide),
        verdict_positive _ (by rfl),if_pos (not_not.mp heven)]
      exact hkey

theorem dispatch_security (app : UdsApplication μ) (hsid : byteAt request 0 = 0x27) :
    dispatch referenceCallbacks server app.context request ⟨app.response,0,.ok⟩ =
      serviceSecurityAccess referenceCallbacks server app.context request
        ⟨app.response,0,.ok⟩ := by
  unfold dispatch
  rw [hsid]
  rfl

theorem request_nonempty {request : List UInt8} (hsid : byteAt request 0 = 0x27) :
    0 < request.length := by
  apply Nat.pos_of_ne_zero
  intro hl
  rw [List.eq_nil_of_length_eq_zero hl] at hsid
  cases hsid

theorem security_handled (app : UdsApplication μ) (now : UInt32)
    (hnow : app.context.nowMs = now) (hsid : byteAt request 0 = 0x27) :
    let handled := handleRequest app request now
    Answered app.context.security now handled.1.context.security
      (securityVerdict ⟨request,now,responded handled⟩) := by
  intro handled
  by_cases hhigh : request.length ≤ udsMaxRequestLength
  · obtain ⟨_,hcontext,hresponse⟩ := handled_served app request now
      (request_nonempty hsid) hhigh (dispatch_security (active app now) request app hsid)
    have hs := security_served (active app now) app.context request ⟨app.response,0,.ok⟩ hsid
    simp only at hs
    rw [← hcontext,← hresponse,hnow] at hs
    exact hs
  · obtain ⟨_,hcontext,hresponse⟩ := dropped_handled app request now (Nat.lt_of_not_le hhigh)
    rw [hcontext,hresponse]
    exact .refused

theorem other_effect {next : UdsServer} {handled : UdsContext μ}
    (he : RequestEffect server context request next handled) (hsid : byteAt request 0 ≠ 0x27) :
    handled.security = context.security := by
  cases he with
  | seed room h => exact absurd h hsid
  | key _ h _ => exact absurd h hsid
  | download _ _ _ _ =>
    rw [request_download_context]
    rfl
  | exit room _ _ _ _ =>
    rcases transfer_exit_context server context (request.drop 1) room with he | ⟨_,_,he⟩
    · rw [he]
    · rw [he]
      rfl
  | _ => rfl

theorem other_keeps (app : UdsApplication μ) (now : UInt32) (hsid : byteAt request 0 ≠ 0x27) :
    (handleRequest app request now).1.context.security = app.context.security := by
  rcases handle_effect app request now with ⟨_,_,hc⟩ | ⟨_,he⟩
  · rw [hc]
  · exact other_effect _ _ request he hsid

end Answer

end CanopenReference.SecurityAnswers
