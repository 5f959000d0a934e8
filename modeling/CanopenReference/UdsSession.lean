import CanopenReference.Handling

/-!
# Keys and sessions

A key is accepted only against a pending seed. The keys of a run are therefore
fresh whenever no session ends while a seed is pending.
-/

set_option autoImplicit false

namespace CanopenReference.UdsSession
open Library Library.Runs Download SecurityProvider Uds Diagnostics Handling

def EndsSession : ApplicationEvent → Prop
  | .sessionControl | .s3Timeout => True
  | .callback _ => False

def SeedFresh (history : List ApplicationEvent) : Prop :=
  ∃ before level after, history = before++.callback (.seedIssued level)::after ∧
    ∀ e ∈ after, ¬EndsSession e

/-- Every accepted key answers a seed of the session it is accepted in. -/
def KeysFresh : List ApplicationEvent → Prop :=
  Always fun before e => ∀ level, e = .callback (.keyAccepted level) → SeedFresh before

section Run
variable {μ : Type}

/-- No session ends while a seed is pending. -/
def SeedSettled (app : UdsApplication μ) : ApplicationInput → Prop
  | .request bytes _ => acceptsSession bytes = true → app.context.security.seedValid = false
  | .tick now =>
    (udsServerTick app.server now).2 = .busy → app.context.security.seedValid = false
  | .pollErase _ => True

instance settledDecidable (app : UdsApplication μ) :
    ∀ input, Decidable (SeedSettled app input)
  | .request bytes _ => inferInstanceAs
      (Decidable (acceptsSession bytes = true → app.context.security.seedValid = false))
  | .tick now => inferInstanceAs (Decidable
      ((udsServerTick app.server now).2 = .busy → app.context.security.seedValid = false))
  | .pollErase _ => inferInstanceAs (Decidable True)

inductive SeedEffect (past next : UdsContext μ) : List ApplicationEvent → Prop where
  | memory (events : List ApplicationEvent) (hsecurity : next.security = past.security)
      (hevents : ∀ e ∈ events, ∃ server call, e = .callback (.memory server call)) :
      SeedEffect past next events
  | issued (level : UInt8) (hvalid : next.security.seedValid = true) :
      SeedEffect past next [.callback (.seedIssued level)]
  | accepted (level : UInt8) (hpast : past.security.seedValid = true)
      (hnext : next.security.seedValid = false) :
      SeedEffect past next [.callback (.keyAccepted level)]
  | refused (hvalid : next.security.seedValid = true → past.security.seedValid = true) :
      SeedEffect past next []

theorem seed_fresh_append {history events : List ApplicationEvent} (h : SeedFresh history)
    (he : ∀ e ∈ events, ¬EndsSession e) : SeedFresh (history++events) := by
  obtain ⟨before,level,after,rfl,ha⟩ := h
  refine ⟨before,level,after++events,by simp,fun e hm => ?_⟩
  rcases List.mem_append.mp hm with hm | hm
  · exact ha e hm
  · exact he e hm

theorem not_seed_fresh {history : List ApplicationEvent} {e : ApplicationEvent}
    (he : EndsSession e) : ¬SeedFresh (history++[e]) := by
  rintro ⟨before,level,after,hsplit,ha⟩
  rcases concat_split hsplit with ⟨_,hx,_⟩ | ⟨after',rfl,_⟩
  · rw [← hx] at he
    exact he.elim
  · exact ha e (List.mem_append.mpr (Or.inr (List.mem_singleton_self e))) he

theorem kept_effect {past next : UdsContext μ} (h : next.security = past.security)
    (htrace : next.trace = past.trace) : SeedEffect past next (traceSince past next) := by
  rw [trace_since_append [] (by simpa using htrace)]
  exact .memory [] h (by simp)

theorem traced_effect (server : UdsServer) (past context : UdsContext μ)
    (download : UdsDownload μ) (calls : List MemoryCall)
    (h : context.security = past.security) (htrace : context.trace = past.trace) :
    SeedEffect past (traced server context download calls)
      (traceSince past (traced server context download calls)) := by
  rw [trace_since_append (calls.map (.memory server)) (by simp [traced,htrace])]
  refine .memory _ h fun e he => ?_
  simp only [List.map_map,List.mem_map] at he
  obtain ⟨call,_,rfl⟩ := he
  exact ⟨server,call,rfl⟩

theorem verified_seed (p : UdsSecurityProvider) (level : UInt8) (key : List UInt8)
    (now : UInt32) :
    let verified := udsSecurityProviderVerifyKey p level key now
    (verified.2 = .ok → p.seedValid = true ∧ verified.1.seedValid = false) ∧
      (verified.1.seedValid = true → p.seedValid = true) := by
  have ho := verify_outcome p level key now
  generalize udsSecurityProviderVerifyKey p level key now = verified at ho
  cases ho with
  | refused result hresult _ =>
    refine ⟨fun h => ?_,id⟩
    rcases hresult with rfl | rfl | rfl <;> cases h
  | exceeded hopen _ _ => exact ⟨(fun h => by cases h),fun _ => hopen.2.2.1⟩
  | wrong hopen _ _ => exact ⟨(fun h => by cases h),fun _ => hopen.2.2.1⟩
  | accepted hopen _ => exact ⟨fun _ => ⟨hopen.2.2.1,rfl⟩,fun _ => hopen.2.2.1⟩

theorem key_effect (server : UdsServer) (context : UdsContext μ) (level : UInt8)
    (key : List UInt8) :
    SeedEffect context (udsSecurityKey server context level key).1
      (traceSince context (udsSecurityKey server context level key).1) := by
  have hseed := verified_seed context.security level key context.nowMs
  rcases key_outcome server context level key with ⟨hok,hkey⟩ | ⟨_,result,_,hkey⟩
  · rw [hkey,trace_since_append [.keyAccepted level] rfl]
    exact .accepted level (hseed.1 hok).1 (hseed.1 hok).2
  · rw [hkey,trace_since_append [] (by simp)]
    exact .refused hseed.2

theorem issue_effect (server : UdsServer) (context : UdsContext μ) (level : UInt8)
    (room : UInt16) :
    SeedEffect context (udsSecuritySeed server context level room).1
      (traceSince context (udsSecuritySeed server context level room).1) := by
  rcases seed_outcome server context level room with ⟨security,hvalid,hseed⟩ | hseed
  · rw [hseed,trace_since_append [.seedIssued level] rfl]
    exact .issued level hvalid
  · rw [hseed]
    exact kept_effect rfl rfl

theorem request_effect (server next : UdsServer) (context handled : UdsContext μ)
    (request : List UInt8) (h : RequestEffect server context request next handled) :
    SeedEffect context handled (traceSince context handled) ∧
      (acceptsSession request = true → handled = context) := by
  have hsid : ∀ {k : UInt8}, byteAt request 0 = k → k ≠ 0x10 → acceptsSession request = true →
      handled = context := by
    rintro k rfl hk hs
    rw [accepts_sid hk] at hs
    cases hs
  cases h with
  | kept hsession => exact ⟨kept_effect rfl rfl,fun _ => rfl⟩
  | session hsession => exact ⟨kept_effect rfl rfl,fun _ => rfl⟩
  | reset h _ => exact ⟨kept_effect rfl rfl,hsid h (by decide)⟩
  | seed room h => exact ⟨issue_effect _ _ _ _,hsid h (by decide)⟩
  | key _ h _ => exact ⟨key_effect _ _ _ _,hsid h (by decide)⟩
  | dtcSetting _ h => exact ⟨kept_effect rfl rfl,hsid h (by decide)⟩
  | download _ h _ _ =>
    rw [request_download_context]
    exact ⟨traced_effect _ _ _ _ _ rfl rfl,request_download_context server context _ _ ▸
      hsid h (by decide)⟩
  | transfer _ h _ _ => exact ⟨traced_effect _ _ _ _ _ rfl rfl,hsid h (by decide)⟩
  | exit room _ h _ _ =>
    refine ⟨?_,hsid h (by decide)⟩
    rcases transfer_exit_context server context (request.drop 1) room with he | ⟨_,_,he⟩
    · rw [he]
      exact kept_effect rfl rfl
    · rw [he]
      exact traced_effect _ _ _ _ _ rfl rfl

structure Bound (context : UdsContext μ) (history : List ApplicationEvent) : Prop where
  keys : KeysFresh history
  pending : context.security.seedValid = true → SeedFresh history

theorem effect_bound {past next : UdsContext μ} {history events : List ApplicationEvent}
    (h : Bound past history) (he : SeedEffect past next events) :
    Bound next (history++events) := by
  cases he with
  | memory _ hsecurity hevents =>
    constructor
    · refine always_append h.keys fun e hm before level hk => ?_
      obtain ⟨server,call,rfl⟩ := hevents e hm
      cases hk
    · intro hv
      refine seed_fresh_append (h.pending (hsecurity ▸ hv)) fun e hm => ?_
      obtain ⟨server,call,rfl⟩ := hevents e hm
      exact id
  | issued level _ =>
    constructor
    · exact always_concat h.keys fun _ hk => by cases hk
    · exact fun _ => ⟨history,level,[],rfl,by simp⟩
  | accepted level hpast hnext =>
    constructor
    · exact always_concat h.keys fun _ _ => h.pending hpast
    · intro hv
      rw [hnext] at hv
      cases hv
  | refused hvalid =>
    rw [List.append_nil]
    exact ⟨h.keys,fun hv => h.pending (hvalid hv)⟩

theorem end_bound {context : UdsContext μ} {history : List ApplicationEvent}
    {e : ApplicationEvent} (h : Bound context history) (he : EndsSession e)
    (hsettled : context.security.seedValid = false) : Bound context (history++[e]) := by
  constructor
  · refine always_concat h.keys fun level hk => ?_
    rw [hk] at he
    exact he.elim
  · intro hv
    rw [hsettled] at hv
    cases hv

theorem request_bound (app : UdsApplication μ) (history : List ApplicationEvent)
    (request : List UInt8) (now : UInt32) (h : Bound app.context history)
    (hc : SeedSettled app (.request request now)) :
    Bound (applicationStep app (.request request now)).1.context
      (history++(applicationStep app (.request request now)).2) := by
  have hh := handle_effect (atTime app now) request now
  simp only [applicationStep]
  generalize (handleRequest (atTime app now) request now).1 = handled at hh
  have hnow : Bound (atTime app now).context history := ⟨h.keys,h.pending⟩
  rcases hh with ⟨hrefused,_,hcontext⟩ | ⟨_,heffect⟩
  · rw [if_neg (by simp [hrefused]),List.nil_append,hcontext]
    exact effect_bound hnow (kept_effect rfl rfl)
  · obtain ⟨hseed,hsession⟩ := request_effect _ _ _ _ _ heffect
    by_cases ha : acceptsSession request = true
    · rw [if_pos ha,← List.append_assoc]
      exact effect_bound (end_bound hnow trivial (hc ha)) hseed
    · rw [if_neg ha,List.nil_append]
      exact effect_bound hnow hseed

theorem step_bound (app : UdsApplication μ) (history : List ApplicationEvent)
    (input : ApplicationInput) (h : Bound app.context history) (hc : SeedSettled app input) :
    Bound (applicationStep app input).1.context (history++(applicationStep app input).2) := by
  cases input with
  | request request now => exact request_bound app history request now h hc
  | tick now =>
    have hnow : Bound (atTime app now).context history := ⟨h.keys,h.pending⟩
    simp only [applicationStep,tickApplication]
    split
    · rename_i hbusy
      rw [← List.append_assoc]
      exact effect_bound (end_bound hnow trivial (hc hbusy)) (traced_effect _ _ _ _ _ rfl rfl)
    · rw [List.nil_append]
      exact effect_bound hnow (traced_effect _ _ _ _ _ rfl rfl)
  | pollErase now => exact effect_bound h (traced_effect _ _ _ _ _ rfl rfl)

/-- In every run in which no session ends while a seed is pending, every key
unlocks against a seed of its own session. -/
theorem keys_fresh (callbacks : Option (UdsDownloadCallbacks μ)) (memory : μ) (now : UInt32)
    (inputs : List ApplicationInput)
    (h : Along applicationStep SeedSettled (applicationInit callbacks memory now) inputs) :
    KeysFresh (run applicationStep (applicationInit callbacks memory now) inputs).2 := by
  have hb := along_history applicationStep SeedSettled (fun app history => Bound app.context history)
    step_bound _ [] inputs ⟨always_nil,fun hv => by cases hv⟩ h
  simpa using hb.keys

end Run

def quietApplication : UdsApplication Unit := applicationInit none () 0

/-- The seed request of level 1. -/
def seedRequest : List UInt8 := [0x27,0x01]

/-- The key request that answers the first seed of level 1. -/
def keyRequest : List UInt8 :=
  0x27::0x02::(udsSecurityProviderGenerateSeed
    (udsSecurityProviderInit 0x13579BDF 3 10000) 1 4 0).1.key.cells.take 4

theorem keys_fresh_unlock :
    KeysFresh (run applicationStep quietApplication
      [.request [0x10,0x03] 0,.request seedRequest 1,.request keyRequest 2]).2 :=
  keys_fresh none () 0 [.request [0x10,0x03] 0,.request seedRequest 1,.request keyRequest 2]
    (by decide +kernel)

/-- A seed of the default session unlocks the extended session, and one from
before an S3 timeout the session after it. -/
theorem stale_seed_unlocks :
    ¬KeysFresh (run applicationStep quietApplication
      [.request seedRequest 0,.request [0x10,0x03] 1,.request keyRequest 2]).2 ∧
    ¬KeysFresh (run applicationStep quietApplication
      [.request seedRequest 0,.tick 5000,.request keyRequest 5001]).2 := by
  have hstale : ∀ e, EndsSession e → ¬SeedFresh ([.callback (.seedIssued 1)]++[e]) :=
    fun e he => not_seed_fresh he
  constructor
  · intro h
    exact hstale .sessionControl trivial
      (h _ (.callback (.keyAccepted 1)) [] (by decide +kernel) 1 rfl)
  · intro h
    exact hstale .s3Timeout trivial
      (h _ (.callback (.keyAccepted 1)) [] (by decide +kernel) 1 rfl)

end CanopenReference.UdsSession
