import CanopenReference.Handling

/-!
# Requests and their responses

The application as a tester sees it: each request of a run with the bytes that
are sent back for it, and what those bytes are for the transfer services.
-/

set_option autoImplicit false

namespace CanopenReference.Dialogue
open Library Library.Runs Download Uds Diagnostics Handling

structure Exchange where
  request : List UInt8
  nowMs : UInt32
  response : List UInt8
  deriving DecidableEq

/-- The response carries the identifier of the service, moved by 0x40. -/
def Positive (x : Exchange) : Prop := x.response.head? = some (byteAt x.request 0+0x40)

instance positiveDecidable (x : Exchange) : Decidable (Positive x) :=
  inferInstanceAs (Decidable (_ = _))

/-- The block length that a response to RequestDownload announces. -/
def announcedLength (response : List UInt8) : UInt16 :=
  readU16 (byteAt response 2) (byteAt response 3)

theorem read_split (x : UInt16) : readU16 (x >>> 8).toUInt8 x.toUInt8 = x := by
  apply UInt16.toNat_inj.mp
  have hx := x.toNat_lt
  have hhigh : x.toNat >>> 8 % 2^8 = x.toNat/256 := by
    rw [Nat.shiftRight_eq_div_pow]
    omega
  simp only [readU16,UInt16.toNat_or,UInt16.toNat_shiftLeft,UInt8.toNat_toUInt16,
    UInt16.toNat_toUInt8,UInt16.toNat_shiftRight]
  show (x.toNat >>> 8 % 2^8) <<< 8 % 2^16 ||| x.toNat % 2^8 = x.toNat
  rw [hhigh,Nat.mod_eq_of_lt (by rw [Nat.shiftLeft_eq]; omega),
    ← Nat.shiftLeft_add_eq_or_of_lt (Nat.mod_lt _ (by decide)),Nat.shiftLeft_eq]
  omega

section Replies
variable {capacity : UInt16}

def sent (reply : Reply capacity) : List UInt8 :=
  if reply.result = .ok then reply.buffer.front reply.length.toNat else []

theorem sent_negative (request : List UInt8) (nrc : UInt8) (reply : Reply capacity)
    (h : 3 ≤ capacity) : sent (negativeResponse request nrc reply) = [0x7F,byteAt request 0,nrc] := by
  unfold negativeResponse
  rw [if_neg (UInt16.not_lt.mpr h)]
  exact Buffer.front_write_zero reply.buffer [0x7F,byteAt request 0,nrc]
    (UInt16.le_iff_toNat_le.mp h)

theorem sent_positive (bytes : List UInt8) (reply : Reply capacity)
    (h : bytes.length ≤ capacity.toNat) : sent (positiveResponse bytes reply) = bytes := by
  have hl : (UInt16.ofNat bytes.length).toNat = bytes.length :=
    UInt16.toNat_ofNat_of_lt' (Nat.lt_of_le_of_lt h capacity.toNat_lt)
  show (reply.buffer.write 0 bytes).front (UInt16.ofNat bytes.length).toNat = bytes
  rw [hl]
  exact Buffer.front_write_zero reply.buffer bytes h

theorem sent_callback (result : UdsCallbackResult) (request : List UInt8)
    (reply : Reply capacity) (h : 3 ≤ capacity) (hr : result ≠ .ok) :
    sent (callbackResult result request reply) =
      [0x7F,byteAt request 0,resultToNrc result] := by
  unfold callbackResult
  rw [if_neg hr]
  exact sent_negative request _ reply h

end Replies

section Dialogue
variable {μ : Type}

def responded (handled : UdsApplication μ × UdsCallbackResult) : List UInt8 :=
  if handled.2 = .ok then handled.1.response.front handled.1.responseLength.toNat else []

/-- The steps of the application, reporting exchanges. -/
def dialogueStep (app : UdsApplication μ) (input : ApplicationInput) :
    UdsApplication μ × List Exchange :=
  ((applicationStep app input).1,
    match input with
    | .request bytes now => [⟨bytes,now,responded (handleRequest (atTime app now) bytes now)⟩]
    | _ => [])

/-- The application as a request finds it. -/
def active (app : UdsApplication μ) (now : UInt32) : UdsServer :=
  { app.server with lastActivityMs := now }

section Services
variable (app : UdsApplication μ) (request : List UInt8) (now : UInt32)

def Handled (server : UdsServer) (context : UdsContext μ) (response : List UInt8) : Prop :=
  let handled := handleRequest app request now
  handled.1.server = server ∧ handled.1.context = context ∧ responded handled = response

theorem handled_step {server : UdsServer} {context : UdsContext μ} {response : List UInt8}
    (h : Handled (atTime app now) request now server context response) :
    let stepped := dialogueStep app (.request request now)
    stepped.1.server = server ∧ stepped.1.context = context ∧
      ((∀ x ∈ stepped.2, Positive x) ↔ response.head? = some (byteAt request 0+0x40)) := by
  obtain ⟨hserver,hcontext,rfl⟩ := h
  exact ⟨hserver,hcontext,List.forall_mem_singleton⟩

theorem handled_served {served : Served (UdsContext μ) udsMaxResponseLength}
    (hlow : 0 < request.length) (hhigh : request.length ≤ udsMaxRequestLength)
    (h : dispatch referenceCallbacks (active app now) app.context request ⟨app.response,0,.ok⟩ =
      served) : Handled app request now served.server served.context (sent served.reply) := by
  have hn : ¬(udsMaxResponseLength = 0 ∨ request.length = 0 ∨
      udsMaxRequestLength < request.length) := by
    rintro (h | h | h)
    · cases h
    · omega
    · omega
  have hs : udsServerHandle referenceCallbacks app.server app.context request
      ⟨app.response,0,.ok⟩ now = served := by
    unfold udsServerHandle
    rw [if_neg hn,← h]
    rfl
  unfold Handled handleRequest
  rw [hs]
  exact ⟨rfl,rfl,rfl⟩

theorem dropped_handled (hlong : udsMaxRequestLength < request.length) :
    Handled app request now app.server app.context [] := by
  unfold Handled handleRequest udsServerHandle
  rw [if_pos (Or.inr (Or.inr hlong))]
  exact ⟨rfl,rfl,rfl⟩

theorem dispatch_transfer (server : UdsServer) (hsid : byteAt request 0 = 0x36) :
    dispatch referenceCallbacks server app.context request ⟨app.response,0,.ok⟩ =
      serviceTransferData referenceCallbacks server app.context request ⟨app.response,0,.ok⟩ := by
  unfold dispatch
  rw [hsid]
  rfl

theorem transfer_handled (hsid : byteAt request 0 = 0x36)
    (hframed : transferFramed app.server request = true)
    (hlength : request.length ≤ udsMaxRequestLength) :
    let written := udsTransferData (active app now) app.context (byteAt request 1)
      (request.drop 2)
    written.2 = .ok ∧ Handled app request now
        { active app now with nextDownloadBlock := app.server.nextDownloadBlock+1 } written.1
        [0x76,byteAt request 1] ∨
      written.2 ≠ .ok ∧
        Handled app request now (active app now) written.1 [0x7F,0x36,resultToNrc written.2] := by
  obtain ⟨hlow,hactive,hblock,hfit⟩ := of_decide_eq_true hframed
  have hshort : ¬(request.length < 3 ∨ (!(active app now).downloadActive) = true) := by
    simp only [active,hactive]
    simpa using hlow
  have hblock' : ¬byteAt request 1 ≠ (active app now).nextDownloadBlock := not_not.mpr hblock
  have hfit' : ¬((active app now).maxDownloadBlockLength-2).toNat < request.length-2 :=
    Nat.not_lt.mpr hfit
  intro written
  have hd : dispatch referenceCallbacks (active app now) app.context request
      ⟨app.response,0,.ok⟩ =
        if written.2 ≠ .ok then
          ⟨active app now,written.1,callbackResult written.2 request ⟨app.response,0,.ok⟩⟩
        else
          ⟨{ active app now with nextDownloadBlock := app.server.nextDownloadBlock+1 },written.1,
            positiveResponse [0x76,byteAt request 1] ⟨app.response,0,.ok⟩⟩ := by
    rw [dispatch_transfer app request _ hsid]
    simp only [serviceTransferData,referenceCallbacks]
    rw [if_neg hshort,if_neg hblock',if_neg hfit']
    rfl
  by_cases hok : written.2 = .ok
  · left
    rw [if_neg (not_not.mpr hok)] at hd
    have hh := handled_served app request now (by omega) hlength hd
    rw [sent_positive _ _ (by show 2 ≤ 4095; decide)] at hh
    exact ⟨hok,hh⟩
  · right
    rw [if_pos hok] at hd
    have hh := handled_served app request now (by omega) hlength hd
    rw [sent_callback _ _ _ (by decide) hok,hsid] at hh
    exact ⟨hok,hh⟩

theorem transfer_stopped (hsid : byteAt request 0 = 0x36)
    (hframed : ¬transferFramed app.server request = true) (hlow : 0 < request.length)
    (hhigh : request.length ≤ udsMaxRequestLength) :
    ∃ nrc, Handled app request now (active app now) app.context [0x7F,0x36,nrc] := by
  have hserved : ∃ nrc, dispatch referenceCallbacks (active app now) app.context request
      ⟨app.response,0,.ok⟩ =
        ⟨active app now,app.context,negativeResponse request nrc ⟨app.response,0,.ok⟩⟩ := by
    rw [dispatch_transfer app request _ hsid]
    simp only [serviceTransferData,referenceCallbacks]
    split
    · exact ⟨_,rfl⟩
    rename_i hshort
    split
    · exact ⟨_,rfl⟩
    rename_i hblock
    split
    · exact ⟨_,rfl⟩
    rename_i hlong
    apply absurd _ hframed
    simp only [not_or,Nat.not_lt,Bool.not_eq_true,Bool.not_eq_false'] at hshort
    exact decide_eq_true ⟨hshort.1,hshort.2,not_not.mp hblock,Nat.not_lt.mp hlong⟩
  obtain ⟨nrc,hd⟩ := hserved
  have hh := handled_served app request now hlow hhigh hd
  rw [sent_negative _ _ _ (by decide),hsid] at hh
  exact ⟨nrc,hh⟩

theorem transfer_positive (hsid : byteAt request 0 = 0x36)
    (hp : Positive ⟨request,now,responded (handleRequest app request now)⟩) :
    transferFramed app.server request = true ∧
      (udsTransferData (active app now) app.context (byteAt request 1) (request.drop 2)).2 =
        .ok := by
  have hnone : request.length ≠ 0 := by
    intro hl
    rw [List.eq_nil_of_length_eq_zero hl] at hsid
    cases hsid
  by_cases hhigh : request.length ≤ udsMaxRequestLength
  · have hnegative : ∀ {server context nrc},
        ¬Handled app request now server context [0x7F,0x36,nrc] := by
      rintro server context nrc ⟨_,_,hresponse⟩
      rw [Positive,hresponse,hsid] at hp
      cases hp
    by_cases hframed : transferFramed app.server request = true
    · rcases transfer_handled app request now hsid hframed hhigh with ⟨hok,_⟩ | ⟨_,hh⟩
      · exact ⟨hframed,hok⟩
      · exact absurd hh hnegative
    · obtain ⟨nrc,hh⟩ :=
        transfer_stopped app request now hsid hframed (Nat.pos_of_ne_zero hnone) hhigh
      exact absurd hh hnegative
  · obtain ⟨_,_,hresponse⟩ := dropped_handled app request now (Nat.lt_of_not_le hhigh)
    rw [Positive,hresponse] at hp
    cases hp

theorem dispatch_download (server : UdsServer) (hsid : byteAt request 0 = 0x34) :
    dispatch referenceCallbacks server app.context request ⟨app.response,0,.ok⟩ =
      serviceDownload referenceCallbacks server app.context request ⟨app.response,0,.ok⟩ := by
  unfold dispatch
  rw [hsid]
  rfl

theorem download_handled (hsid : byteAt request 0 = 0x34)
    (hframed : downloadFramed request = true) :
    let begun := udsRequestDownload (active app now) app.context (downloadAddress request)
      (downloadLength request)
    begun.2.1 = .ok → 3 ≤ begun.2.2 → Handled app request now
      { active app now with
        downloadActive := true, nextDownloadBlock := 1, maxDownloadBlockLength := begun.2.2 }
      begun.1 [0x74,0x20,(begun.2.2 >>> 8).toUInt8,begun.2.2.toUInt8] := by
  intro begun hok hmax
  have hf := of_decide_eq_true hframed
  have hroom : ¬(begun.2.2 < 3 ∨ udsMaxResponseLength < 4) := by
    rintro (h | h)
    · exact UInt16.not_lt.mpr hmax h
    · exact absurd h (by decide)
  have hd : dispatch referenceCallbacks (active app now) app.context request
      ⟨app.response,0,.ok⟩ =
        ⟨{ active app now with
            downloadActive := true, nextDownloadBlock := 1, maxDownloadBlockLength := begun.2.2 },
          begun.1,
          positiveResponse [0x74,0x20,(begun.2.2 >>> 8).toUInt8,begun.2.2.toUInt8]
            ⟨app.response,0,.ok⟩⟩ := by
    rw [dispatch_download app request _ hsid]
    simp only [serviceDownload,referenceCallbacks]
    rw [if_neg (by omega)]
    show (if begun.2.1 ≠ .ok then _ else
      if begun.2.2 < 3 ∨ udsMaxResponseLength < 4 then _ else _) = _
    rw [if_neg (not_not.mpr hok),if_neg hroom]
    rfl
  have hlength : request.length ≤ udsMaxRequestLength := by
    show request.length ≤ 4095
    omega
  have hh := handled_served app request now (by omega) hlength hd
  rw [sent_positive _ _ (by show 4 ≤ 4095; decide)] at hh
  exact hh

theorem dispatch_exit (server : UdsServer) (hsid : byteAt request 0 = 0x37) :
    dispatch referenceCallbacks server app.context request ⟨app.response,0,.ok⟩ =
      serviceTransferExit referenceCallbacks server app.context request
        ⟨app.response,0,.ok⟩ := by
  unfold dispatch
  rw [hsid]
  rfl

theorem idle_exit_handled (hsid : byteAt request 0 = 0x37) (hlow : 0 < request.length)
    (hhigh : request.length ≤ udsMaxRequestLength) (hidle : app.server.downloadActive = false) :
    Handled app request now (active app now) app.context [0x7F,0x37,nrcRequestSequenceError] := by
  have hd : dispatch referenceCallbacks (active app now) app.context request
      ⟨app.response,0,.ok⟩ = ⟨active app now,app.context,
        negativeResponse request nrcRequestSequenceError ⟨app.response,0,.ok⟩⟩ := by
    rw [dispatch_exit app request _ hsid]
    simp only [serviceTransferExit,referenceCallbacks]
    rw [if_pos (by simp [active,hidle])]
  have hh := handled_served app request now hlow hhigh hd
  rw [sent_negative _ _ _ (by decide),hsid] at hh
  exact hh

theorem exit_handled (hsid : byteAt request 0 = 0x37) (hlow : 0 < request.length)
    (hhigh : request.length ≤ udsMaxRequestLength) (hactive : app.server.downloadActive = true) :
    let finished := udsTransferExit (active app now) app.context (request.drop 1)
      (room udsMaxResponseLength 1)
    finished.2.result ≠ .ok → Handled app request now (active app now) finished.1
      [0x7F,0x37,resultToNrc finished.2.result] := by
  intro finished hr
  have hd : dispatch referenceCallbacks (active app now) app.context request
      ⟨app.response,0,.ok⟩ = ⟨active app now,finished.1,
        callbackResult finished.2.result request
          { Reply.put ⟨app.response,0,.ok⟩ 1 finished.2.bytes with
            length := finished.2.length }⟩ := by
    rw [dispatch_exit app request _ hsid]
    simp only [serviceTransferExit,referenceCallbacks]
    rw [if_neg (by simp [active,hactive])]
    show (if finished.2.result ≠ .ok then _ else if _ then _ else _) = _
    rw [if_pos hr]
  have hh := handled_served app request now hlow hhigh hd
  rw [sent_callback _ _ _ (by decide) hr,hsid] at hh
  exact hh

theorem exit_accepted (hsid : byteAt request 0 = 0x37) (hlow : 0 < request.length)
    (hhigh : request.length ≤ udsMaxRequestLength) (hactive : app.server.downloadActive = true) :
    let finished := udsTransferExit (active app now) app.context (request.drop 1)
      (room udsMaxResponseLength 1)
    finished.2.result = .ok → finished.2.length = 1 →
      ∃ response, response.head? = some 0x77 ∧ Handled app request now
        { active app now with downloadActive := false } finished.1 response := by
  intro finished hr hl
  let written : Reply udsMaxResponseLength :=
    { Reply.put ⟨app.response,0,.ok⟩ 1 finished.2.bytes with length := finished.2.length }
  have hd : dispatch referenceCallbacks (active app now) app.context request
      ⟨app.response,0,.ok⟩ = ⟨{ active app now with downloadActive := false },finished.1,
        { written.put 0 [0x77] with length := finished.2.length+1, result := .ok }⟩ := by
    rw [dispatch_exit app request _ hsid]
    simp only [serviceTransferExit,referenceCallbacks]
    rw [if_neg (by simp [active,hactive])]
    show (if finished.2.result ≠ .ok then _ else if udsMaxResponseLength < 1 then _ else _) = _
    rw [if_neg (not_not.mpr hr),if_neg (by decide)]
  refine ⟨_,?_,handled_served app request now hlow hhigh hd⟩
  show ((written.buffer.write 0 [0x77]).front (finished.2.length+1).toNat).head? = some 0x77
  rw [hl]
  exact Buffer.head_write_zero written.buffer 0x77 [] 2 (by decide) (by decide)

end Services
end Dialogue
end CanopenReference.Dialogue
