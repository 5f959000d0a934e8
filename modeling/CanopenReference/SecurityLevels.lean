import CanopenReference.Lifetime
import CanopenReference.SecurityAnswers
import CanopenReference.UdsSession

/-!
# The two copies of the security level

The server and the provider each keep the level that has been unlocked. A
session change and an S3 timeout reset the copy of the server only, and a wrong
key resets the copy of the provider only.
-/

set_option autoImplicit false

namespace CanopenReference.SecurityLevels
open Library Library.Runs Download SecurityProvider Uds Diagnostics Handling Dialogue Lifetime
open SecurityAttempts SecurityAnswers UdsSession

def keyFramed (request : List UInt8) : Bool :=
  byteAt request 0 = 0x27 ∧ 3 ≤ request.length ∧ request.length ≤ udsMaxRequestLength ∧
    byteAt request 1 ≠ 0 ∧ byteAt request 1 ≤ 0x7F ∧ byteAt request 1 &&& 1 = 0

def WrongKey (p : UdsSecurityProvider) (request : List UInt8) (now : UInt32) : Prop :=
  keyFramed request = true ∧ Compares p (keyLevel request) (request.drop 2) now ∧
    constantTimeEqual (request.drop 2) p.key.cells p.keyLength.toNat = false

section Request
variable {μ : Type} (app : UdsApplication μ) (request : List UInt8) (now : UInt32)

inductive LevelMove : UInt8 → UInt8 → Prop where
  | kept (hsession : acceptsSession request = false)
      (hkey : ¬WrongKey app.context.security request now) :
      LevelMove app.server.securityLevel app.context.security.securityLevel
  | session (hsession : acceptsSession request = true) :
      LevelMove 0 app.context.security.securityLevel
  | unlocked (level : UInt8) (hsession : acceptsSession request = false)
      (hkey : ¬WrongKey app.context.security request now) : LevelMove level level
  | wrong (hkey : WrongKey app.context.security request now) :
      LevelMove app.server.securityLevel 0

theorem generate_level (p : UdsSecurityProvider) (level : UInt8) (capacity : ℕ) (t : UInt32) :
    (udsSecurityProviderGenerateSeed p level capacity t).1.securityLevel = p.securityLevel := by
  rcases generate_outcome p level capacity t with ⟨hok,_⟩ | ⟨_,hsame⟩
  · obtain ⟨_,⟨state,seed,key,length,hnext⟩,_⟩ := generate_issued hok
    rw [hnext]
  · rw [hsame]

theorem other_move {context handled : UdsContext μ} {server next : UdsServer}
    (he : RequestEffect server context request next handled) (hsid : byteAt request 0 ≠ 0x27) :
    acceptsSession request = true ∧ next.securityLevel = 0 ∨
      acceptsSession request = false ∧ next.securityLevel = server.securityLevel := by
  cases he with
  | kept hsession => exact Or.inr ⟨hsession,rfl⟩
  | session hsession => exact Or.inl ⟨hsession,rfl⟩
  | reset h _ => exact Or.inr ⟨accepts_sid (by rw [h]; decide),rfl⟩
  | seed room h => exact absurd h hsid
  | key _ h _ => exact absurd h hsid
  | dtcSetting _ h => exact Or.inr ⟨accepts_sid (by rw [h]; decide),rfl⟩
  | download _ h _ hnext =>
    refine Or.inr ⟨accepts_sid (by rw [h]; decide),?_⟩
    rcases hnext with rfl | ⟨_,rfl⟩ <;> rfl
  | transfer _ h _ hnext =>
    refine Or.inr ⟨accepts_sid (by rw [h]; decide),?_⟩
    rcases hnext with ⟨rfl,_⟩ | ⟨_,rfl⟩ <;> rfl
  | exit _ _ h _ hnext =>
    refine Or.inr ⟨accepts_sid (by rw [h]; decide),?_⟩
    rcases hnext with rfl | ⟨_,rfl⟩ <;> rfl

theorem key_handled (hframed : keyFramed request = true) :
    let asked := udsSecurityKey (active app now) app.context (keyLevel request) (request.drop 2)
    let handled := (handleRequest app request now).1
    handled.context = asked.1 ∧ handled.server.securityLevel =
      if asked.2 = .ok then keyLevel request else app.server.securityLevel := by
  obtain ⟨hsid,hlow,hhigh,hzero,hrange,heven⟩ := of_decide_eq_true hframed
  have hn : ¬(byteAt request 1 = 0 ∨ 0x7F < byteAt request 1) := by
    rintro (h | h)
    · exact hzero h
    · exact absurd hrange (UInt8.not_le.mpr h)
  intro asked handled
  have hd : ∃ reply reply' : Reply udsMaxResponseLength,
      dispatch referenceCallbacks (active app now) app.context request ⟨app.response,0,.ok⟩ =
        if asked.2 ≠ .ok then ⟨active app now,asked.1,reply⟩
        else ⟨{ active app now with securityLevel := keyLevel request },asked.1,reply'⟩ := by
    rw [dispatch_security (active app now) request app hsid]
    simp only [serviceSecurityAccess,referenceCallbacks]
    rw [if_neg (by omega),if_neg hn,if_neg (not_not.mpr heven),if_neg (by omega)]
    exact ⟨_,_,rfl⟩
  obtain ⟨reply,reply',hd⟩ := hd
  obtain ⟨hserver,hcontext,_⟩ := handled_served app request now (by omega) hhigh hd
  rw [show handled.context = _ from hcontext,show handled.server = _ from hserver]
  by_cases hok : asked.2 = .ok
  · rw [if_neg (not_not.mpr hok),if_pos hok]
    exact ⟨rfl,rfl⟩
  · rw [if_pos hok,if_neg hok]
    exact ⟨rfl,rfl⟩

theorem unframed_handled (hsid : byteAt request 0 = 0x27) (hframed : keyFramed request = false) :
    let handled := (handleRequest app request now).1
    handled.server.securityLevel = app.server.securityLevel ∧
      handled.context.security.securityLevel = app.context.security.securityLevel := by
  have hlow := request_nonempty hsid
  by_cases hhigh : request.length ≤ udsMaxRequestLength
  · obtain ⟨hserver,hcontext,_⟩ := handled_served app request now hlow hhigh
      (dispatch_security (active app now) request app hsid)
    intro handled
    rw [show handled.context = _ from hcontext,show handled.server = _ from hserver]
    simp only [serviceSecurityAccess,referenceCallbacks]
    split
    · exact ⟨rfl,rfl⟩
    split
    · exact ⟨rfl,rfl⟩
    rename_i hsub
    split
    · obtain ⟨hsecurity,_⟩ := seed_filled (active app now) app.context request
        ((byteAt request 1+1)/2) (room udsMaxResponseLength 2) now
      have hlevel := generate_level app.context.security ((byteAt request 1+1)/2)
        (room udsMaxResponseLength 2).toNat app.context.nowMs
      rw [← hsecurity] at hlevel
      split
      · exact ⟨rfl,hlevel⟩
      split <;> exact ⟨rfl,hlevel⟩
    rename_i heven
    split
    · exact ⟨rfl,rfl⟩
    rename_i hlength
    rw [not_or,UInt8.not_lt] at hsub
    rw [keyFramed,decide_eq_false_iff_not] at hframed
    exact absurd ⟨hsid,by omega,hhigh,hsub.1,hsub.2,not_not.mp heven⟩ hframed
  · obtain ⟨hserver,hcontext,_⟩ := dropped_handled app request now (Nat.lt_of_not_le hhigh)
    intro handled
    rw [show handled.context = _ from hcontext,show handled.server = _ from hserver]
    exact ⟨rfl,rfl⟩

theorem key_move (hnow : app.context.nowMs = now) (hframed : keyFramed request = true) :
    let handled := (handleRequest app request now).1
    LevelMove app request now handled.server.securityLevel
      handled.context.security.securityLevel := by
  obtain ⟨hsid,_⟩ := of_decide_eq_true hframed
  have hsession : acceptsSession request = false := accepts_sid (by rw [hsid]; decide)
  obtain ⟨hcontext,hserver⟩ := key_handled app request now hframed
  obtain ⟨hsecurity,hok,_⟩ := key_answered (active app now) app.context request
    (keyLevel request) (request.drop 2) now
  intro handled
  rw [show handled.context = _ from hcontext,hsecurity]
  rw [show handled.server.securityLevel = _ from hserver]
  rw [hnow] at hok ⊢
  have ho := verify_outcome app.context.security (keyLevel request) (request.drop 2) now
  generalize udsSecurityProviderVerifyKey app.context.security (keyLevel request)
    (request.drop 2) now = verified at ho hok
  cases ho with
  | refused result hresult hopen =>
    rw [if_neg (mt hok.mp (by rcases hresult with rfl | rfl | rfl <;> simp))]
    exact .kept hsession fun hw => hopen hw.2.1
  | exceeded hopen hkey hlast =>
    rw [if_neg (mt hok.mp (by simp))]
    exact .wrong ⟨hframed,hopen,hkey⟩
  | wrong hopen hkey hmore =>
    rw [if_neg (mt hok.mp (by simp))]
    exact .wrong ⟨hframed,hopen,hkey⟩
  | accepted hopen hkey =>
    rw [if_pos (hok.mpr rfl)]
    exact .unlocked _ hsession fun hw => Bool.false_ne_true (hw.2.2.symm.trans hkey)

theorem level_move (hnow : app.context.nowMs = now) :
    let handled := (handleRequest app request now).1
    LevelMove app request now handled.server.securityLevel
      handled.context.security.securityLevel := by
  by_cases hsid : byteAt request 0 = 0x27
  · cases hframed : keyFramed request with
    | true => exact key_move app request now hnow hframed
    | false =>
      obtain ⟨hserver,hprovider⟩ := unframed_handled app request now hsid hframed
      intro handled
      rw [hserver,hprovider]
      refine .kept (accepts_sid (by rw [hsid]; decide)) fun hw => ?_
      exact Bool.false_ne_true (hframed.symm.trans hw.1)
  · have hkey : ¬WrongKey app.context.security request now := fun hw =>
      hsid (of_decide_eq_true hw.1).1
    intro handled
    rw [show handled.context.security = _ from other_keeps request app now hsid]
    rcases handle_effect app request now with ⟨hsession,hserver,_⟩ | ⟨_,he⟩
    · rw [show handled.server = _ from hserver]
      exact .kept hsession hkey
    · rcases other_move request he hsid with ⟨hsession,hserver⟩ | ⟨hsession,hserver⟩
      · rw [show handled.server.securityLevel = _ from hserver]
        exact .session hsession
      · rw [show handled.server.securityLevel = _ from hserver]
        exact .kept hsession hkey

end Request

section Run
variable {μ : Type}

/-- The server and the provider have the same level. -/
def LevelsAgree (app : UdsApplication μ) : Prop :=
  app.server.securityLevel = app.context.security.securityLevel

instance agreeDecidable (app : UdsApplication μ) : Decidable (LevelsAgree app) :=
  inferInstanceAs (Decidable (_ = _))

/-- Nothing is unlocked when the session changes or times out, or when a wrong
key is compared. -/
def LevelSettled (app : UdsApplication μ) (input : UInt32 × LifeInput) : Prop :=
  match input.2 with
  | .request bytes =>
    acceptsSession bytes = true ∨ WrongKey app.context.security bytes input.1 →
      app.server.securityLevel = 0
  | .tick =>
    deadlineExpired input.1 (app.server.lastActivityMs+app.server.s3ServerTimeoutMs) = true →
      app.server.securityLevel = 0
  | _ => True

theorem request_agree (app : UdsApplication μ) (bytes : List UInt8) (now : UInt32)
    (h : LevelsAgree app) :
    LevelsAgree (handleRequest (atTime app now) bytes now).1 ↔
      (acceptsSession bytes = true ∨ WrongKey app.context.security bytes now →
        app.server.securityLevel = 0) := by
  have hm := level_move (atTime app now) bytes now rfl
  simp only at hm
  unfold LevelsAgree at h ⊢
  generalize (handleRequest (atTime app now) bytes now).1.server.securityLevel = level at hm ⊢
  generalize (handleRequest (atTime app now) bytes now).1.context.security.securityLevel =
    provided at hm ⊢
  cases hm with
  | kept hsession hkey =>
    refine iff_of_true h fun hc => ?_
    rcases hc with hc | hc
    · exact absurd hc (by rw [hsession]; decide)
    · exact absurd hc hkey
  | session hsession =>
    constructor
    · exact fun h0 _ => h.trans h0.symm
    · exact fun hc => (hc (Or.inl hsession)).symm.trans h
  | unlocked _ hsession hkey =>
    refine iff_of_true rfl fun hc => ?_
    rcases hc with hc | hc
    · exact absurd hc (by rw [hsession]; decide)
    · exact absurd hc hkey
  | wrong hkey =>
    constructor
    · exact fun h0 _ => h0
    · exact fun hc => hc (Or.inr hkey)

theorem tick_agree (app : UdsApplication μ) (now : UInt32) (h : LevelsAgree app) :
    LevelsAgree (tickApplication app now).1 ↔
      (deadlineExpired now (app.server.lastActivityMs+app.server.s3ServerTimeoutMs) = true →
        app.server.securityLevel = 0) := by
  show (udsServerTick app.server now).1.securityLevel = app.context.security.securityLevel ↔ _
  rw [← h]
  unfold udsServerTick
  split
  · rename_i hexpired
    constructor
    · exact fun h0 _ => h0.symm
    · exact fun hc => (hc hexpired).symm
  · rename_i hrunning
    exact iff_of_true rfl fun hc => absurd hc hrunning

theorem step_agree (callbacks : Option (UdsDownloadCallbacks μ)) (app : UdsApplication μ)
    (input : UInt32 × LifeInput) (h : LevelsAgree app) :
    LevelsAgree (lifeStep callbacks app input).1 ↔ LevelSettled app input := by
  obtain ⟨now,input⟩ := input
  cases input with
  | request bytes => exact request_agree app bytes now h
  | tick => exact tick_agree app now h
  | pollErase => exact iff_of_true h trivial
  | clearReset => exact iff_of_true h trivial
  | communicationReset nowMs => exact iff_of_true rfl trivial

/-- The two levels agree throughout a run exactly when every session change,
every S3 timeout and every wrong key comes while nothing is unlocked. -/
theorem levels_agree_iff (callbacks : Option (UdsDownloadCallbacks μ)) (memory : μ)
    (start : UInt32) (inputs : List (UInt32 × LifeInput)) :
    (∀ n, LevelsAgree (run (lifeStep callbacks) (applicationInit callbacks memory start)
        (inputs.take n)).1) ↔
      Along (lifeStep callbacks) LevelSettled (applicationInit callbacks memory start) inputs :=
  along_iff_states (lifeStep callbacks) LevelSettled (fun _ _ => True) (fun app _ => LevelsAgree app)
    (fun _ _ _ _ => trivial) (fun app _ input _ h => step_agree callbacks app input h) _ [] inputs
    trivial rfl

end Run

def unlockInputs : List (UInt32 × LifeInput) :=
  [(0,.request seedRequest),(1,.request keyRequest)]

/-- The application after the unlocking and some more inputs. -/
def unlocked (inputs : List (UInt32 × LifeInput)) : UdsApplication Unit :=
  (run (lifeStep none) quietApplication (unlockInputs++inputs)).1

/-- A session change and an S3 timeout leave the level of the provider behind,
and a wrong key that of the server, which still grants a reset of the MCU. -/
theorem levels_disagree :
    ¬LevelsAgree (unlocked [(2,.request [0x10,0x03])]) ∧
      ¬LevelsAgree (unlocked [(5001,.tick)]) ∧
      ¬LevelsAgree (unlocked [(2,.request seedRequest),(3,.request [0x27,0x02,0,0,0,0])]) ∧
      (unlocked [(2,.request seedRequest),(3,.request [0x27,0x02,0,0,0,0]),
        (4,.request [0x11,0x01])]).server.resetPending = true := by
  decide +kernel

end CanopenReference.SecurityLevels
