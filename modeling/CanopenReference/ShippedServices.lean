import CanopenReference.Dialogue
import CanopenReference.Reception

/-!
# The services of the shipped node

The reference installs no memory callbacks and leaves communication control, I/O
control and routines to the product. What is left of the services is the same in
every state, and nothing that arrives ever reaches the image memory.
-/

set_option autoImplicit false

namespace CanopenReference.ShippedServices
open Library Library.Runs IsoTp IsoTpReceiver Download Uds Diagnostics Handling Dialogue
  ResponseTransmission
open Reception (ReceivePath Receiving completes fed handled pathStep requestsHandled view)

def offeredServices : List UInt8 := [0x10,0x11,0x19,0x22,0x27,0x3E,0x85]

/-- Why a service that is not offered is refused. -/
def refusal (request : List UInt8) : UInt8 :=
  match (byteAt request 0).toNat with
  | 0x28 =>
    if request.length ≠ 3 then nrcIncorrectMessageLengthOrInvalidFormat
    else nrcServiceNotSupported
  | 0x31 =>
    if request.length < 4 then nrcIncorrectMessageLengthOrInvalidFormat
    else nrcServiceNotSupported
  | 0x34 =>
    if downloadFramed request then nrcRequestOutOfRange
    else nrcIncorrectMessageLengthOrInvalidFormat
  | 0x36 | 0x37 => nrcRequestSequenceError
  | _ => nrcServiceNotSupported

def Refused (x : Exchange) : Prop :=
  byteAt x.request 0 ∉ offeredServices →
    x.response = [0x7F,byteAt x.request 0,refusal x.request]

section Application
variable {μ : Type}

structure Untouched (memory : μ) (app : UdsApplication μ) : Prop where
  download : app.context.download = udsDownloadInit (some referenceMemory) none memory
  inactive : app.server.downloadActive = false
  trace : ∀ e ∈ app.context.trace, ∃ level, e = .seedIssued level ∨ e = .keyAccepted level

variable {memory : μ} {app : UdsApplication μ} {request : List UInt8} {now : UInt32}

theorem begin_refused (server : UdsServer) (context : UdsContext μ) (address length : UInt32)
    (h : context.download = udsDownloadInit (some referenceMemory) none memory) :
    udsRequestDownload server context address length = (context,.outOfRange,0) := by
  have hbegin : udsDownloadBegin context.download address length context.nowMs =
      (context.download,.invalidArgument,[]) := by
    rw [h]
    rfl
  unfold udsRequestDownload
  rw [hbegin]
  have hsame : traced server context context.download [] = context := by
    simp [traced]
  dsimp only
  rw [hsame]
  rfl

theorem effect_untouched {server next : UdsServer} {context after : UdsContext μ}
    (h : RequestEffect server context request next after)
    (hdownload : context.download = udsDownloadInit (some referenceMemory) none memory)
    (hinactive : server.downloadActive = false)
    (htrace : ∀ e ∈ context.trace, ∃ level, e = .seedIssued level ∨ e = .keyAccepted level) :
    after.download = context.download ∧ next.downloadActive = false ∧
      ∀ e ∈ after.trace, ∃ level, e = .seedIssued level ∨ e = .keyAccepted level := by
  have hmore : ∀ x level, x = TraceEvent.seedIssued level ∨ x = .keyAccepted level →
      ∀ e ∈ context.trace++[x], ∃ level, e = .seedIssued level ∨ e = .keyAccepted level := by
    intro x level hx e he
    rcases List.mem_append.mp he with he | he
    · exact htrace e he
    · rw [List.mem_singleton.mp he]
      exact ⟨level,hx⟩
  cases h with
  | kept _ => exact ⟨rfl,hinactive,htrace⟩
  | session _ => exact ⟨rfl,hinactive,htrace⟩
  | reset _ _ => exact ⟨rfl,hinactive,htrace⟩
  | dtcSetting _ _ => exact ⟨rfl,hinactive,htrace⟩
  | seed room _ =>
    rcases seed_outcome server context (keyLevel request) room with ⟨_,_,he⟩ | he
    · rw [he]
      exact ⟨rfl,hinactive,hmore _ _ (Or.inl rfl)⟩
    · rw [he]
      exact ⟨rfl,hinactive,htrace⟩
  | key next _ hnext =>
    have hidle : next.downloadActive = false := by
      rcases hnext with ⟨rfl,_⟩ | ⟨_,rfl⟩ <;> exact hinactive
    rcases key_outcome server context (keyLevel request) (request.drop 2) with
      ⟨_,he⟩ | ⟨_,_,_,he⟩
    · rw [he]
      exact ⟨rfl,hidle,hmore _ _ (Or.inr rfl)⟩
    · rw [he]
      exact ⟨rfl,hidle,htrace⟩
  | download next _ _ hnext =>
    rw [begin_refused server context _ _ hdownload] at hnext ⊢
    rcases hnext with rfl | ⟨hok,_⟩
    · exact ⟨rfl,hinactive,htrace⟩
    · cases hok
  | transfer next _ hframed _ =>
    have hactive := (of_decide_eq_true hframed).2.1
    rw [hinactive] at hactive
    cases hactive
  | exit _ next _ hactive _ =>
    rw [hinactive] at hactive
    cases hactive

theorem handle_untouched (h : Untouched memory app) (request : List UInt8) (now : UInt32) :
    Untouched memory (handleRequest app request now).1 := by
  rcases handle_effect app request now with ⟨_,hserver,hcontext⟩ | ⟨_,he⟩
  · refine ⟨?_,?_,?_⟩
    · rw [hcontext]
      exact h.download
    · rw [hserver]
      exact h.inactive
    · rw [hcontext]
      exact h.trace
  · obtain ⟨hdownload,hinactive,htrace⟩ := effect_untouched he h.download h.inactive h.trace
    exact ⟨hdownload.trans h.download,hinactive,htrace⟩

theorem tick_untouched (h : Untouched memory app) (now : UInt32) :
    Untouched memory (tickApplication app now).1 := by
  have htick : udsDownloadTick app.context.download now = (app.context.download,.ok,[]) := by
    rw [h.download]
    rfl
  have hserver : (udsServerTick app.server now).1.downloadActive = false := by
    unfold udsServerTick
    split
    · rfl
    · exact h.inactive
  unfold tickApplication
  rw [htick]
  refine ⟨h.download,hserver,?_⟩
  show ∀ e ∈ app.context.trace++[],_
  rw [List.append_nil]
  exact h.trace

theorem refused_handled (h : Untouched memory app) (hlow : 1 ≤ request.length)
    (hhigh : request.length ≤ udsMaxRequestLength) (hsid : byteAt request 0 ∉ offeredServices) :
    Handled app request now (active app now) app.context
      [0x7F,byteAt request 0,refusal request] := by
  have hne : ∀ {sid : ℕ}, (byteAt request 0).toNat = sid → UInt8.ofNat sid ∉ offeredServices := by
    rintro sid rfl
    rwa [UInt8.ofNat_toNat]
  have hnegative : ∀ nrc (reply : Reply udsMaxResponseLength),
      sent (negativeResponse request nrc reply) = [0x7F,byteAt request 0,nrc] :=
    fun nrc reply => sent_negative request nrc reply (by decide)
  have hcallback : ∀ result (reply : Reply udsMaxResponseLength), result ≠ .ok →
      sent (callbackResult result request reply) = [0x7F,byteAt request 0,resultToNrc result] :=
    fun result reply => sent_callback result request reply (by decide)
  have hd : ∃ reply, dispatch referenceCallbacks (active app now) app.context request
      ⟨app.response,0,.ok⟩ = ⟨active app now,app.context,reply⟩ ∧
        sent reply = [0x7F,byteAt request 0,refusal request] := by
    unfold dispatch
    split
    case h_1 heq => exact absurd (by decide) (hne heq)
    case h_2 heq => exact absurd (by decide) (hne heq)
    case h_3 heq => exact absurd (by decide) (hne heq)
    case h_4 heq => exact absurd (by decide) (hne heq)
    case h_5 heq => exact absurd (by decide) (hne heq)
    case h_12 heq => exact absurd (by decide) (hne heq)
    case h_13 heq => exact absurd (by decide) (hne heq)
    case h_6 heq =>
      simp only [refusal,heq,serviceCommunicationControl,referenceCallbacks,
        udsCommunicationControl]
      split
      · exact ⟨_,rfl,hnegative _ _⟩
      · exact ⟨_,rfl,hcallback .notSupported _ (by decide)⟩
    case h_7 heq =>
      simp only [refusal,heq]
      exact ⟨_,rfl,hnegative _ _⟩
    case h_8 heq =>
      simp only [refusal,heq,serviceRoutineControl,referenceCallbacks,udsRoutineControl]
      split
      · exact ⟨_,rfl,hnegative _ _⟩
      · exact ⟨_,rfl,hcallback .notSupported _ (by decide)⟩
    case h_9 heq =>
      simp only [refusal,heq,serviceDownload,referenceCallbacks]
      cases hframed : downloadFramed request with
      | false =>
        have hbad := of_decide_eq_false hframed
        rw [if_pos (by omega)]
        exact ⟨_,rfl,hnegative _ _⟩
      | true =>
        have hgood := of_decide_eq_true hframed
        rw [if_neg (by omega),begin_refused _ _ _ _ h.download]
        exact ⟨_,rfl,hcallback .outOfRange _ (by decide)⟩
    case h_10 heq =>
      simp only [refusal,heq,serviceTransferData,referenceCallbacks]
      rw [if_pos (Or.inr (by simp [active,h.inactive]))]
      exact ⟨_,rfl,hnegative _ _⟩
    case h_11 heq =>
      simp only [refusal,heq,serviceTransferExit,referenceCallbacks]
      rw [if_pos (by simp [active,h.inactive])]
      exact ⟨_,rfl,hnegative _ _⟩
    case h_14 _ _ _ _ _ hcommunication _ hroutine hdownload htransfer hexit _ _ =>
      have hunknown : refusal request = nrcServiceNotSupported := by
        unfold refusal
        split
        · exact absurd ‹_› hcommunication
        · exact absurd ‹_› hroutine
        · exact absurd ‹_› hdownload
        · exact absurd ‹_› htransfer
        · exact absurd ‹_› hexit
        · rfl
      rw [hunknown]
      exact ⟨_,rfl,hnegative _ _⟩
  obtain ⟨reply,hd,hsent⟩ := hd
  rw [← hsent]
  exact handled_served app request now hlow hhigh hd

end Application

def Sized (rx : IsoTpRx) : Prop := rx.active = true → 8 ≤ rx.expectedLen ∧ rx.expectedLen ≤ 4095

section Sizes
variable {rx : IsoTpRx} {frame : IsoTpCanFrame} {now : UInt32}

theorem feed_sized (h : Sized rx) :
    Sized (isotpRxFeed rx frame now).1 ∧
      ∀ p, (isotpRxFeed rx frame now).2.2.payload = some p → 1 ≤ p.length ∧ p.length ≤ 4095 := by
  have hnone : ∀ p : List UInt8, none = some p → 1 ≤ p.length ∧ p.length ≤ 4095 :=
    fun p hp => absurd hp.symm (Option.some_ne_none p)
  have hstopped : ∀ {P : Prop}, false = true → P := fun hfalse => absurd hfalse Bool.false_ne_true
  have ho := rx_outcome rx frame now
  generalize isotpRxFeed rx frame now = r at ho ⊢
  cases ho with
  | ignored _ _ _ _ _ => exact ⟨h,hnone⟩
  | single hsingle =>
    refine ⟨hstopped,?_⟩
    rintro p ⟨⟩
    obtain ⟨⟨_,hdlc⟩,_,hlow,hhigh,hfits⟩ := hsingle
    rw [singleData,slice_length frame 1 _ (by omega)]
    omega
  | refused _ _ _ _ => exact ⟨hstopped,hnone⟩
  | started _ hlow hhigh => exact ⟨fun _ => ⟨hlow,hhigh⟩,hnone⟩
  | outOfSequence _ _ _ => exact ⟨hstopped,hnone⟩
  | extended _ hactive _ _ _ => exact ⟨fun _ => h hactive,hnone⟩
  | blockEnd _ hactive _ _ _ => exact ⟨fun _ => h hactive,hnone⟩
  | finished _ hactive _ _ =>
    obtain ⟨hlow,hhigh⟩ := h hactive
    refine ⟨hstopped,?_⟩
    rintro p ⟨⟩
    have hlength := Buffer.front_length (extend rx frame now (rx.blockCount+1)).buffer
      rx.expectedLen (by rw [isotpMaxPayload]; exact hhigh)
    rw [hlength]
    exact ⟨by omega,hhigh⟩

theorem completes_sized (h : Sized rx) {p : List UInt8} (hp : completes rx frame now = some p) :
    1 ≤ p.length ∧ p.length ≤ 4095 := by
  unfold completes at hp
  split at hp
  · split at hp
    · exact (feed_sized h).2 p hp
    · cases hp
  · cases hp

theorem fed_sized (h : Sized rx) (frame : IsoTpCanFrame) (now : UInt32) :
    Sized (fed rx frame now) := by
  unfold fed
  split
  · exact (feed_sized h).1
  · exact h

theorem tick_sized (h : Sized rx) (now : UInt32) : Sized (isotpRxTick rx now).1 := by
  rw [IsoTpDeadlines.rx_tick_eq]
  split
  · exact fun hactive => (nomatch hactive)
  · exact h

end Sizes

section Run
variable {μ : Type} {memory : μ}

def exchanges (rt : UdsRuntime μ) : Stage → List Exchange
  | .frame now => (requestsHandled rt (.frame now)).map fun request =>
      ⟨request,now,responded (handleRequest rt.application request now)⟩
  | _ => []

def exchangeStep (rt : UdsRuntime μ) (a : Stage) : UdsRuntime μ × List Exchange :=
  if !rt.initialized then (rt,[]) else ((stageRuntime rt a).1,exchanges rt a)

structure Shipped (memory : μ) (rt : UdsRuntime μ) : Prop where
  initialized : rt.initialized = true
  receiving : Receiving rt.can
  sized : Sized rt.isotpRx
  untouched : Untouched memory rt.application

theorem path_shipped {s : ReceivePath μ} (hsized : Sized s.receiver)
    (h : Untouched memory s.application) (a : Stage) :
    Sized (pathStep s a).1.receiver ∧ Untouched memory (pathStep s a).1.application := by
  cases a with
  | begin now => exact ⟨hsized,tick_untouched h now⟩
  | frame now =>
    dsimp only [pathStep]
    split
    · exact ⟨hsized,h⟩
    · refine ⟨fed_sized hsized _ _,?_⟩
      unfold handled
      dsimp only
      split
      · exact h
      · exact handle_untouched h _ _
  | tick now => exact ⟨tick_sized hsized now,h⟩
  | clearReset => exact ⟨hsized,h.download,h.inactive,h.trace⟩
  | _ => exact ⟨hsized,h⟩

theorem stage_shipped {rt : UdsRuntime μ} (h : Shipped memory rt) (a : Stage) :
    Shipped memory (stageRuntime rt a).1 := by
  obtain ⟨hreceiving,hinit,hview,_⟩ := Reception.stage_path h.receiving h.initialized a
  obtain ⟨hsized,huntouched⟩ := @path_shipped μ memory (view rt) h.sized h.untouched a
  rw [← hview] at hsized huntouched
  exact ⟨hinit,hreceiving,hsized,huntouched⟩

theorem requests_sized {rt : UdsRuntime μ} (h : Shipped memory rt) {now : UInt32}
    {request : List UInt8} (hr : request ∈ requestsHandled rt (.frame now)) :
    1 ≤ request.length ∧ request.length ≤ 4095 := by
  obtain ⟨_,_,_,hrequests⟩ := Reception.stage_path h.receiving h.initialized (.frame now)
  rw [hrequests] at hr
  unfold pathStep at hr
  dsimp only at hr
  split at hr
  · cases hr
  · exact completes_sized h.sized (Option.mem_toList.mp hr)

theorem exchanges_refused {rt : UdsRuntime μ} (h : Shipped memory rt) (a : Stage) :
    ∀ x ∈ exchanges rt a, Refused x := by
  intro x hx hsid
  cases a with
  | frame now =>
    obtain ⟨request,hr,rfl⟩ := List.mem_map.mp hx
    obtain ⟨hlow,hhigh⟩ := requests_sized h hr
    exact (refused_handled h.untouched hlow hhigh hsid).2.2
  | _ => cases hx

theorem exchange_step {rt : UdsRuntime μ} (h : Shipped memory rt) (a : Stage) :
    exchangeStep rt a = ((stageRuntime rt a).1,exchanges rt a) := by
  rw [exchangeStep,h.initialized]
  rfl

theorem init_shipped (memory : μ) (now : UInt32) :
    Shipped memory (canopenReferenceUdsInit none memory true now) where
  initialized := rfl
  receiving := Reception.init_receiving none memory true now
  sized hactive := nomatch hactive
  untouched := ⟨rfl,rfl,fun _ he => nomatch he⟩

/-- Whatever arrives, every request for a service that is not offered is refused
with its code, no memory callback is ever called, and the download object stays
as it was set up. -/
theorem shipped_services (memory : μ) (now : UInt32) (stages : List Stage) :
    let rt := canopenReferenceUdsInit none memory true now
    let final := run exchangeStep rt stages
    (∀ x ∈ final.2, Refused x) ∧
    final.1.application.context.download = rt.application.context.download ∧
    ∀ e ∈ final.1.application.context.trace, ∃ level,
      e = .seedIssued level ∨ e = .keyAccepted level := by
  intro rt final
  have hkept : ∀ (rt : UdsRuntime μ) a, Shipped memory rt → True →
      Shipped memory (exchangeStep rt a).1 := by
    intro rt a h _
    rw [exchange_step h a]
    exact stage_shipped h a
  have hevents : ∀ (rt : UdsRuntime μ) a, Shipped memory rt → True →
      ∀ x ∈ (exchangeStep rt a).2, Refused x := by
    intro rt a h _
    rw [exchange_step h a]
    exact exchanges_refused h a
  have hall := along_true exchangeStep rt stages
  have hshipped := along_invariant exchangeStep (fun _ _ => True) (Shipped memory) hkept rt stages
    (init_shipped memory now) hall
  exact ⟨along_events exchangeStep (fun _ _ => True) (Shipped memory) Refused hkept hevents rt
    stages (init_shipped memory now) hall,hshipped.untouched.download,hshipped.untouched.trace⟩

end Run
end CanopenReference.ShippedServices
