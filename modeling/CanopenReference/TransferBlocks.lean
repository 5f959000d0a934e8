import CanopenReference.Library.Pieces
import CanopenReference.Dialogue
import CanopenReference.DownloadGate
import CanopenReference.DownloadRecords

/-!
# Blocks of the announced size

A tester cuts the image into blocks of the announced length. The announced
length counts the two header bytes of a request, while the alignment applies to
the data alone, so the blocks are accepted exactly when the data of a full
block is aligned as well, or one block holds the whole image.
-/

set_option autoImplicit false

namespace CanopenReference.TransferBlocks
open Library Library.Runs Download DownloadSafety DownloadRecords Uds Diagnostics Handling
open Dialogue

/-- The requests that transfer `blocks`, with counters from `block` on. -/
def transferRequests : UInt8 → List (List UInt8) → List (List UInt8)
  | _, [] => []
  | block, data::rest => (0x36::block::data)::transferRequests (block+1) rest

def requestsOf : List ApplicationInput → List (List UInt8)
  | [] => []
  | .request bytes _::rest => bytes::requestsOf rest
  | .tick _::rest => requestsOf rest
  | .pollErase _::rest => requestsOf rest

/-- The length of the data in a full block of the announced length. -/
def blockData (announced : UInt16) : ℕ := announced.toNat-2

/-- Full blocks are aligned, or one block holds the image, which is aligned. -/
def BlocksFit (m : UdsDownloadMemoryMap) (length : UInt32) : Prop :=
  length.toNat%m.programAlignment.toNat = 0 ∧ (length.toNat ≤ blockData m.maxBlockLength ∨
    blockData m.maxBlockLength%m.programAlignment.toNat = 0)

instance blocksFitDecidable (m : UdsDownloadMemoryMap) (length : UInt32) :
    Decidable (BlocksFit m length) :=
  inferInstanceAs (Decidable (_ ∧ _))

/-- The callbacks of the memory report success whenever they are called. -/
structure AlwaysSucceed {σ : Type} (callbacks : UdsDownloadCallbacks σ) : Prop where
  eraseStart : ∀ f ∈ callbacks.eraseStart, ∀ c address length, (f c address length).2 = .ok
  erasePoll : ∀ f ∈ callbacks.erasePoll, ∀ c, (f c).2 = .ok
  program : ∀ f ∈ callbacks.program, ∀ c address data, (f c address data).2 = .ok
  verifyImage : ∀ f ∈ callbacks.verifyImage, ∀ c metadata crc has, (f c metadata crc has).2 = .ok

section Download
variable {σ : Type} {d : UdsDownload σ}

theorem kick_context (d : UdsDownload σ) : ∃ c, (kickWatchdog d).1 = { d with context := c } := by
  unfold kickWatchdog
  cases d.callbacks.watchdogKick with
  | none => exact ⟨d.context,rfl⟩
  | some watchdogKick => exact ⟨watchdogKick d.context,rfl⟩

theorem begin_succeeds (h : AlwaysSucceed d.callbacks) {address length : UInt32} (now : UInt32)
    (hpassed : beginRefusal d address length = none) :
    ∃ c, (udsDownloadBegin d address length now).1 = started d c address length now ∧
      (udsDownloadBegin d address length now).2.1 = .ok := by
  cases he : d.callbacks.eraseStart with
  | none => simp [beginRefusal,he] at hpassed
  | some eraseStart =>
    have hok := h.eraseStart eraseStart he d.context address length
    unfold udsDownloadBegin
    simp only [hpassed,he]
    rw [if_neg (not_not.mpr hok)]
    exact ⟨_,rfl,rfl⟩

theorem tick_in_time {now : UInt32} (htime : timeExpired now d.deadlineMs = false) :
    ∃ c, (udsDownloadTick d now).1 = { d with context := c } := by
  unfold udsDownloadTick
  split
  · exact ⟨d.context,rfl⟩
  · rw [htime]
    exact kick_context d

theorem poll_in_time (h : AlwaysSucceed d.callbacks) (hpoll : d.callbacks.erasePoll.isSome = true)
    {now : UInt32} (hstate : d.state = .erasing ∨ d.state = .receiving)
    (htime : timeExpired now d.deadlineMs = false) :
    ∃ c deadline, (udsDownloadPollErase d now).1 =
      { d with context := c, state := .receiving, deadlineMs := deadline } := by
  obtain ⟨erasePoll,he⟩ := Option.isSome_iff_exists.mp hpoll
  unfold udsDownloadPollErase
  simp only [he]
  rcases hstate with hs | hs
  · obtain ⟨c,hk⟩ := kick_context d
    have hok := h.erasePoll erasePoll he c
    rw [if_neg (not_not.mpr hs),htime,hk]
    simp only [Bool.false_eq_true,if_false]
    rw [if_pos hok]
    exact ⟨_,_,rfl⟩
  · rw [if_pos (by rw [hs]; decide)]
    exact ⟨d.context,d.deadlineMs,by rw [← hs]⟩

theorem write_reached (h : AlwaysSucceed d.callbacks) {block : UInt8} {data : List UInt8}
    {now : UInt32} (hreach : ReachesAlignment d block data now)
    (hreceived : d.metadata.receivedLength%d.memory.programAlignment = 0) :
    let written := udsDownloadWrite d block data now
    (UInt32.ofNat data.length%d.memory.programAlignment = 0 ∧ written.2.1 = .ok ∧
      ∃ c, written.1 = chunkTaken d c data now) ∨
    (UInt32.ofNat data.length%d.memory.programAlignment ≠ 0 ∧ written.2.1 = .alignmentError) := by
  obtain ⟨hprogram,hlow,hhigh,hstate,htime,hblock,hroom⟩ := hreach
  obtain ⟨program,hp⟩ := Option.isSome_iff_exists.mp hprogram
  unfold udsDownloadWrite
  simp only [hp]
  rw [if_neg (by simp [hlow,hstate]; omega),htime]
  simp only [Bool.false_eq_true,if_false]
  rw [if_neg (not_not.mpr hblock),if_neg (UInt32.not_lt.mpr hroom)]
  by_cases ha : UInt32.ofNat data.length%d.memory.programAlignment = 0
  · left
    have hok := h.program program hp d.context
      (d.metadata.imageAddress+d.metadata.receivedLength) data
    rw [if_neg (by rw [chunk_misaligned]; simp [hreceived,ha]),if_neg (not_not.mpr hok)]
    obtain ⟨c,hk⟩ := kick_context (chunkTaken d (program d.context
      (d.metadata.imageAddress+d.metadata.receivedLength) data).1 data now)
    exact ⟨ha,rfl,c,hk⟩
  · right
    rw [if_pos ((chunk_misaligned _ _ _).mpr (Or.inr ha))]
    exact ⟨ha,rfl⟩

end Download

section Transfer
variable {μ : Type}

/-- Neither the transfer nor the session times out at this input. -/
def InTime (app : UdsApplication μ) : ApplicationInput → Prop
  | .request _ now => timeExpired now app.context.download.deadlineMs = false
  | .tick now =>
    timeExpired now app.context.download.deadlineMs = false ∧
      (udsServerTick app.server now).2 ≠ .busy
  | .pollErase now => timeExpired now app.context.download.deadlineMs = false

instance inTimeDecidable (app : UdsApplication μ) : ∀ input, Decidable (InTime app input)
  | .request _ now =>
    inferInstanceAs (Decidable (timeExpired now app.context.download.deadlineMs = false))
  | .tick now => inferInstanceAs (Decidable
      (timeExpired now app.context.download.deadlineMs = false ∧
        (udsServerTick app.server now).2 ≠ .busy))
  | .pollErase now =>
    inferInstanceAs (Decidable (timeExpired now app.context.download.deadlineMs = false))

/-- A transfer of an image of `length` bytes is under way, its next block is
`block`, and `taken` bytes of it have been taken. -/
structure Transferring (m : UdsDownloadMemoryMap) (length : UInt32) (server : UdsServer)
    (d : UdsDownload μ) (block : UInt8) (taken : ℕ) : Prop where
  callbacks : AlwaysSucceed d.callbacks
  poll : d.callbacks.erasePoll.isSome = true
  program : d.callbacks.program.isSome = true
  memory : d.memory = m
  active : server.downloadActive = true
  next : server.nextDownloadBlock = block
  longest : server.maxDownloadBlockLength = m.maxBlockLength
  state : d.state = .erasing ∨ d.state = .receiving
  expected : d.expectedBlock = block
  image : d.metadata.imageLength = length
  received : d.metadata.receivedLength.toNat = taken
  aligned : d.metadata.receivedLength%m.programAlignment = 0

variable {m : UdsDownloadMemoryMap} {length : UInt32} {app : UdsApplication μ} {block : UInt8}
  {taken : ℕ}

theorem tick_transferring (h : Transferring m length app.server app.context.download block taken)
    {now : UInt32} (ht : InTime app (.tick now)) :
    let ticked := (dialogueStep app (.tick now)).1
    Transferring m length ticked.server ticked.context.download block taken ∧
      ticked.context.download.state = app.context.download.state := by
  obtain ⟨htime,hsession⟩ := ht
  obtain ⟨c,hd⟩ := tick_in_time htime
  have hs : (udsServerTick app.server now).1 = app.server := by
    unfold udsServerTick at hsession ⊢
    split
    · rename_i hexpired
      rw [if_pos hexpired] at hsession
      exact absurd rfl hsession
    · rfl
  simp only [dialogueStep,applicationStep,tickApplication,traced]
  rw [hd,hs]
  exact ⟨⟨h.callbacks,h.poll,h.program,h.memory,h.active,h.next,h.longest,h.state,h.expected,
    h.image,h.received,h.aligned⟩,rfl⟩

theorem poll_transferring (h : Transferring m length app.server app.context.download block taken)
    {now : UInt32} (ht : InTime app (.pollErase now)) :
    let polled := (dialogueStep app (.pollErase now)).1
    Transferring m length polled.server polled.context.download block taken ∧
      polled.context.download.state = .receiving := by
  obtain ⟨c,deadline,hd⟩ := poll_in_time h.callbacks h.poll h.state ht
  simp only [dialogueStep,applicationStep,traced]
  rw [hd]
  exact ⟨⟨h.callbacks,h.poll,h.program,h.memory,h.active,h.next,h.longest,Or.inr rfl,h.expected,
    h.image,h.received,h.aligned⟩,rfl⟩

theorem idle_transferring (inputs : List ApplicationInput)
    (h : Transferring m length app.server app.context.download block taken)
    (hidle : requestsOf inputs = []) (ht : Along dialogueStep InTime app inputs) :
    let r := run dialogueStep app inputs
    Transferring m length r.1.server r.1.context.download block taken ∧ r.2 = [] := by
  induction inputs generalizing app with
  | nil => exact ⟨h,rfl⟩
  | cons input inputs ih =>
    cases input with
    | request bytes now => cases hidle
    | tick now => exact ih (tick_transferring h ht.1).1 hidle ht.2
    | pollErase now => exact ih (poll_transferring h ht.1).1 hidle ht.2

theorem begin_transferring (app : UdsApplication μ) (request : List UInt8) (now : UInt32)
    (hcallbacks : AlwaysSucceed app.context.download.callbacks)
    (hsid : byteAt request 0 = 0x34) (hframed : downloadFramed request = true)
    (hpassed : beginRefusal app.context.download (downloadAddress request)
      (downloadLength request) = none) :
    let response := responded (handleRequest (atTime app now) request now)
    let begun := (dialogueStep app (.request request now)).1
    Transferring app.context.download.memory (downloadLength request) begun.server
        begun.context.download 1 0 ∧
      Positive ⟨request,now,response⟩ ∧
      announcedLength response = app.context.download.memory.maxBlockLength := by
  have hp := begin_passed hpassed
  obtain ⟨c,hd,hok⟩ := begin_succeeds hcallbacks now hpassed
  have hmax := request_download_ok (active (atTime app now) now) (atTime app now).context _ _ hok
  have hd' : (udsDownloadBegin (atTime app now).context.download (downloadAddress request)
      (downloadLength request) (atTime app now).context.nowMs).1 =
        started app.context.download c (downloadAddress request) (downloadLength request) now := hd
  rw [hd'] at hmax
  have hh := download_handled (atTime app now) request now hsid hframed
  simp only [hmax] at hh
  obtain ⟨hserver,hcontext,hresponse⟩ := hh trivial hp.blockLow
  rw [request_download_context] at hcontext
  have hdown : (handleRequest (atTime app now) request now).1.context.download =
      started app.context.download c (downloadAddress request) (downloadLength request) now := by
    rw [hcontext]
    exact hd
  intro response begun
  have hr : response = _ := hresponse
  have hs : begun.server = _ := hserver
  have hc : begun.context.download = _ := hdown
  refine ⟨?_,?_,?_⟩
  · rw [hs,hc]
    exact ⟨hcallbacks,hp.erasePoll,hp.program,rfl,rfl,rfl,rfl,Or.inl rfl,rfl,rfl,rfl,
      UInt32.zero_mod⟩
  · rw [Positive,hr,hsid]
    rfl
  · rw [hr]
    exact read_split _

theorem block_framed (h : Transferring m length app.server app.context.download block taken)
    {data : List UInt8} (hdata : data ≠ []) (hfit : data.length ≤ blockData m.maxBlockLength) :
    transferFramed app.server (0x36::block::data) = true := by
  have hpos := List.length_pos_iff.mpr hdata
  have hmax : (app.server.maxDownloadBlockLength-2).toNat = blockData m.maxBlockLength := by
    rw [h.longest,blockData]
    apply UInt16.toNat_sub_of_le
    rw [UInt16.le_iff_toNat_le]
    show 2 ≤ m.maxBlockLength.toNat
    rw [blockData] at hfit
    omega
  apply decide_eq_true
  rw [hmax,h.next,List.length_cons,List.length_cons]
  exact ⟨by omega,h.active,rfl,by omega⟩

section Block
variable {data : List UInt8}

theorem block_length (hmax : m.maxBlockLength.toNat ≤ udsDownloadMaxChunkLength)
    (hfit : data.length ≤ blockData m.maxBlockLength) :
    data.length ≤ udsDownloadMaxChunkLength ∧
      (UInt32.ofNat data.length).toNat = data.length := by
  have hchunk : data.length ≤ udsDownloadMaxChunkLength := by
    rw [blockData] at hfit
    omega
  refine ⟨hchunk,UInt32.toNat_ofNat_of_lt' ?_⟩
  rw [udsDownloadMaxChunkLength] at hchunk
  show data.length < 4294967296
  omega

theorem aligned_length {alignment : UInt32}
    (hlength : (UInt32.ofNat data.length).toNat = data.length) :
    UInt32.ofNat data.length%alignment = 0 ↔ data.length%alignment.toNat = 0 := by
  rw [← UInt32.toNat_inj,UInt32.toNat_mod,hlength]
  rfl

theorem block_reaches (h : Transferring m length app.server app.context.download block taken)
    (hstate : app.context.download.state = .receiving) (hdata : data ≠ [])
    (hchunk : data.length ≤ udsDownloadMaxChunkLength)
    (hlength : (UInt32.ofNat data.length).toNat = data.length)
    (hroom : taken+data.length ≤ length.toNat) {now : UInt32}
    (ht : timeExpired now app.context.download.deadlineMs = false) :
    ReachesAlignment app.context.download block data now := by
  have hpos := List.length_pos_iff.mpr hdata
  have hreceived := h.received
  have hleft : UInt32.ofNat data.length ≤ app.context.download.metadata.imageLength-
      app.context.download.metadata.receivedLength := by
    rw [UInt32.le_iff_toNat_le,hlength,UInt32.toNat_sub_of_le,h.image]
    · omega
    · rw [UInt32.le_iff_toNat_le,h.image]
      omega
  exact ⟨h.program,by omega,hchunk,hstate,ht,h.expected.symm,hleft⟩

theorem chunk_transferring
    (h : Transferring m length app.server app.context.download block taken)
    (hstate : app.context.download.state = .receiving)
    (hlength : (UInt32.ofNat data.length).toNat = data.length)
    (hroom : taken+data.length ≤ length.toNat)
    (haligned : data.length%m.programAlignment.toNat = 0) (c : μ) (now : UInt32) :
    Transferring m length
      { active (atTime app now) now with nextDownloadBlock := app.server.nextDownloadBlock+1 }
      (chunkTaken app.context.download c data now) (block+1) (taken+data.length) := by
  have hreceived := h.received
  have hsum : (app.context.download.metadata.receivedLength+UInt32.ofNat data.length).toNat =
      taken+data.length := by
    rw [UInt32.toNat_add,hlength,hreceived]
    have hsize := length.toNat_lt
    exact Nat.mod_eq_of_lt (by omega)
  refine ⟨h.callbacks,h.poll,h.program,h.memory,h.active,congrArg (·+1) h.next,h.longest,
    Or.inr hstate,congrArg (·+1) h.expected,h.image,hsum,?_⟩
  rw [← UInt32.toNat_inj,UInt32.toNat_mod]
  show (app.context.download.metadata.receivedLength+UInt32.ofNat data.length).toNat%_ = 0
  rw [hsum,Nat.add_mod,haligned,← hreceived,← UInt32.toNat_mod,h.aligned]
  simp

theorem block_transferring (h : Transferring m length app.server app.context.download block taken)
    (hstate : app.context.download.state = .receiving)
    (hmax : m.maxBlockLength.toNat ≤ udsDownloadMaxChunkLength)
    (hdata : data ≠ []) (hfit : data.length ≤ blockData m.maxBlockLength)
    (hroom : taken+data.length ≤ length.toNat) {now : UInt32}
    (ht : InTime app (.request (0x36::block::data) now)) :
    let stepped := dialogueStep app (.request (0x36::block::data) now)
    data.length%m.programAlignment.toNat = 0 ∧ (∀ x ∈ stepped.2, Positive x) ∧
        Transferring m length stepped.1.server stepped.1.context.download (block+1)
          (taken+data.length) ∧ stepped.1.context.download.state = .receiving ∨
      data.length%m.programAlignment.toNat ≠ 0 ∧ ¬∀ x ∈ stepped.2, Positive x := by
  obtain ⟨hchunk,hlength⟩ := block_length hmax hfit
  have hw := write_reached h.callbacks (block_reaches h hstate hdata hchunk hlength hroom ht)
    (h.memory ▸ h.aligned)
  have haligned := @aligned_length data m.programAlignment hlength
  rw [h.memory] at hw
  have hshort : (0x36::block::data).length ≤ udsMaxRequestLength := by
    rw [List.length_cons,List.length_cons,udsMaxRequestLength]
    rw [udsDownloadMaxChunkLength] at hchunk
    omega
  have hresult := transfer_data_ok (active (atTime app now) now) (atTime app now).context block data
  intro stepped
  rcases transfer_handled (atTime app now) (0x36::block::data) now rfl (block_framed h hdata hfit)
    hshort with ⟨hok,hh⟩ | ⟨hfailed,hh⟩
  · obtain ⟨hserver,hcontext,hpositive⟩ := handled_step app _ now hh
    rcases hw with ⟨ha,_,c,hd⟩ | ⟨_,herror⟩
    · have hdown : stepped.1.context.download = chunkTaken app.context.download c data now :=
        (congrArg UdsContext.download hcontext).trans hd
      left
      refine ⟨haligned.mp ha,hpositive.mpr rfl,?_,?_⟩
      · rw [show stepped.1.server = _ from hserver,hdown]
        exact chunk_transferring h hstate hlength hroom (haligned.mp ha) c now
      · rw [hdown]
        exact hstate
    · exact absurd ((hresult.mp hok).symm.trans herror) (by decide)
  · obtain ⟨_,_,hpositive⟩ := handled_step app _ now hh
    rcases hw with ⟨_,hok,_⟩ | ⟨ha,_⟩
    · exact absurd (hresult.mpr hok) hfailed
    · refine Or.inr ⟨fun hc => ha (haligned.mpr hc),fun hall => ?_⟩
      cases hpositive.mp hall

end Block

/-- The transfer has everything: it is open and no byte of the image is missing. -/
def AllReceived (d : UdsDownload μ) : Prop :=
  d.state = .receiving ∧ d.metadata.receivedLength = d.metadata.imageLength

instance allReceivedDecidable (d : UdsDownload μ) : Decidable (AllReceived d) :=
  inferInstanceAs (Decidable (_ ∧ _))

/-- The blocks of a transfer, whatever runs between them, are all accepted
exactly when all their data is aligned. -/
theorem blocks_transferring (hmax : m.maxBlockLength.toNat ≤ udsDownloadMaxChunkLength)
    (inputs : List ApplicationInput) (blocks : List (List UInt8))
    (h : Transferring m length app.server app.context.download block taken)
    (hstate : app.context.download.state = .receiving)
    (hrequests : requestsOf inputs = transferRequests block blocks)
    (hblocks : ∀ data ∈ blocks, data ≠ [] ∧ data.length ≤ blockData m.maxBlockLength)
    (hsum : taken+blocks.flatten.length = length.toNat)
    (ht : Along dialogueStep InTime app inputs) :
    let r := run dialogueStep app inputs
    ((∀ x ∈ r.2, Positive x) ∧ AllReceived r.1.context.download) ↔
      ∀ data ∈ blocks, data.length%m.programAlignment.toNat = 0 := by
  induction inputs generalizing app block taken blocks with
  | nil =>
    cases blocks with
    | cons data blocks => cases hrequests
    | nil =>
      refine iff_of_true ⟨by simp,hstate,?_⟩ (by simp)
      show app.context.download.metadata.receivedLength =
        app.context.download.metadata.imageLength
      rw [← UInt32.toNat_inj,h.received,h.image]
      exact hsum
  | cons input inputs ih =>
    cases input with
    | tick now =>
      obtain ⟨hnext,hs⟩ := tick_transferring h ht.1
      exact ih blocks hnext (hs.trans hstate) hrequests hblocks hsum ht.2
    | pollErase now =>
      obtain ⟨hnext,hs⟩ := poll_transferring h ht.1
      exact ih blocks hnext hs hrequests hblocks hsum ht.2
    | request bytes now =>
      cases blocks with
      | nil => cases hrequests
      | cons data blocks =>
        obtain ⟨hbytes,hrest⟩ := List.cons.inj hrequests
        subst hbytes
        obtain ⟨⟨hdata,hfit⟩,hblocks⟩ := List.forall_mem_cons.mp hblocks
        rw [List.flatten_cons,List.length_append] at hsum
        rw [run_cons]
        simp only [List.forall_mem_append,List.forall_mem_cons]
        rcases block_transferring h hstate hmax hdata hfit (by omega) ht.1 with
          ⟨ha,hpositive,hnext,hs⟩ | ⟨ha,hnegative⟩
        · have hrun := ih blocks hnext hs hrest hblocks (by omega) ht.2
          constructor
          · rintro ⟨⟨_,hall⟩,hreceived⟩
            exact ⟨ha,hrun.mp ⟨hall,hreceived⟩⟩
          · rintro ⟨_,hall⟩
            exact ⟨⟨hpositive,(hrun.mpr hall).1⟩,(hrun.mpr hall).2⟩
        · exact iff_of_false (fun hc => hnegative hc.1.1) (fun hc => ha hc.1)

/-- A tester that cuts the image into blocks of the announced length, and is
never late, has all of them accepted exactly when the blocks fit the alignment. -/
theorem announced_blocks_accepted (app : UdsApplication μ) (request : List UInt8)
    (t₀ t₁ : UInt32) (image : List UInt8) (idle rest : List ApplicationInput)
    (hcallbacks : AlwaysSucceed app.context.download.callbacks)
    (hsid : byteAt request 0 = 0x34) (hframed : downloadFramed request = true)
    (hpassed : beginRefusal app.context.download (downloadAddress request)
      (downloadLength request) = none)
    (himage : image.length = (downloadLength request).toNat)
    (hidle : requestsOf idle = [])
    (hrest : requestsOf rest = transferRequests 1 (pieces (blockData (announcedLength
      (responded (handleRequest (atTime app t₀) request t₀)))) image))
    (htime : Along dialogueStep InTime (dialogueStep app (.request request t₀)).1
      (idle++.pollErase t₁::rest)) :
    let r := run dialogueStep app (.request request t₀::(idle++.pollErase t₁::rest))
    ((∀ x ∈ r.2, Positive x) ∧ AllReceived r.1.context.download) ↔
      BlocksFit app.context.download.memory (downloadLength request) := by
  have hp := begin_passed hpassed
  obtain ⟨hbegun,hpositive,hannounced⟩ := begin_transferring app request t₀ hcallbacks hsid hframed
    hpassed
  rw [hannounced] at hrest
  rw [along_append] at htime
  obtain ⟨hwaited,hquiet⟩ := idle_transferring idle hbegun hidle htime.1
  obtain ⟨hopen,hstate⟩ := poll_transferring hwaited htime.2.1
  have hsize : 0 < blockData app.context.download.memory.maxBlockLength := by
    have hlow := UInt16.le_iff_toNat_le.mp hp.blockLow
    change 3 ≤ app.context.download.memory.maxBlockLength.toNat at hlow
    rw [blockData]
    omega
  have hrun := blocks_transferring hp.blockHigh rest _ hopen hstate hrest
    (pieces_mem _ image hsize) (by rw [pieces_flatten _ image hsize]; omega) htime.2.2
  rw [pieces_aligned _ image hsize,himage] at hrun
  intro r
  have hr : r = _ := run_cons dialogueStep app (.request request t₀) (idle++.pollErase t₁::rest)
  rw [run_append,hquiet,run_cons] at hr
  rw [hr]
  refine Iff.trans ?_ hrun
  constructor
  · rintro ⟨hall,hreceived⟩
    exact ⟨fun x hx => hall x (by simp [hx]),hreceived⟩
  · rintro ⟨hall,hreceived⟩
    refine ⟨fun x hx => ?_,hreceived⟩
    rcases List.mem_append.mp hx with hx | hx
    · rw [List.mem_singleton.mp hx]
      exact hpositive
    · exact hall x (by simpa [dialogueStep] using hx)

end Transfer

theorem agreeable_succeed : AlwaysSucceed agreeableCallbacks := by
  constructor <;>
  · intro f hf
    cases hf
    intros
    rfl

def agreeableApplication : UdsApplication Unit :=
  applicationInit (some agreeableCallbacks) () 0

def sixByteBlocks : UdsApplication Unit :=
  { agreeableApplication with
    context :=
      { agreeableApplication.context with
        download :=
          { agreeableApplication.context.download with
            memory := { referenceMemory with maxBlockLength := 6 } } } }

def wordsRequest : List UInt8 := [0x34,0x44,0x08,0x08,0x00,0x00,0x00,0x00,0x00,0x08]

def wordsBlocks : List ApplicationInput :=
  [.tick 3,.request [0x36,0x01,1,2,3,4] 4,.pollErase 5,.request [0x36,0x02,5,6,7,8] 6]

theorem announced_blocks_accepted_two :
    let r := run dialogueStep sixByteBlocks
      (.request wordsRequest 0::([.tick 1]++.pollErase 2::wordsBlocks))
    (∀ x ∈ r.2, Positive x) ∧ AllReceived r.1.context.download :=
  (announced_blocks_accepted sixByteBlocks wordsRequest 0 2 [1,2,3,4,5,6,7,8] [.tick 1] wordsBlocks
    agreeable_succeed rfl rfl (by decide +kernel) (by decide +kernel) rfl (by decide +kernel)
    (by decide +kernel)).mpr (by decide +kernel)

/-- A request for the first 256 bytes of the staging image. -/
def pageRequest : List UInt8 := [0x34,0x44,0x08,0x08,0x00,0x00,0x00,0x00,0x01,0x00]

def pageImage : List UInt8 := List.replicate 256 0xA5

/-- The blocks of the page, as the announced 256 bytes cut it. -/
def pageInputs : List ApplicationInput :=
  [.pollErase 1,.request (0x36::0x01::List.replicate 254 0xA5) 2,
    .request [0x36,0x02,0xA5,0xA5] 3]

/-- On the reference memory a full block carries 254 bytes, which the program
alignment of 4 refuses. -/
theorem full_block_refused :
    let begun := dialogueStep agreeableApplication (.request pageRequest 0)
    let r := run dialogueStep begun.1 pageInputs
    AlwaysSucceed agreeableApplication.context.download.callbacks ∧
      pageImage.length = (downloadLength pageRequest).toNat ∧
      begun.2.map (·.response) = [[0x74,0x20,0x01,0x00]] ∧
      requestsOf pageInputs = transferRequests 1 (pieces (blockData 0x0100) pageImage) ∧
      Along dialogueStep InTime begun.1 pageInputs ∧
      r.2.map (·.response) = [[0x7F,0x36,0x72],[0x7F,0x36,0x73]] ∧
      r.1.context.download.metadata.receivedLength = 0 := by
  refine ⟨agreeable_succeed,?_⟩
  decide +kernel

end CanopenReference.TransferBlocks
