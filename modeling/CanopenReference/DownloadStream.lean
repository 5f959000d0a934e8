import CanopenReference.Library.Crc
import CanopenReference.Library.History
import CanopenReference.DownloadRecords
import CanopenReference.Storage

/-!
# The stream behind a download

The blocks accepted since the last begin, with the checksum that the object
keeps of them. The running register is the complement of the checksum of the
whole image, whatever the blocks are, and it is the register that the metadata
carries. An error leaves the stream alone or ends it.
-/

set_option autoImplicit false

namespace CanopenReference.DownloadStream
open Library Library.Runs Library.History Download DownloadSafety DownloadRecords Storage
open Library.Crc hiding shift

def crc32Generator : BitVec 32 := 0xEDB88320

/-- The value is the reflected CRC-32 of the image: the register starts with ones, the
image is divided by the generator, and the remainder is complemented. -/
def IsCrc32 (image : List UInt8) (value : UInt32) : Prop :=
  registerPoly (~~~value).toBitVec =
    (Polynomial.X^(8*image.length)*registerPoly (0xFFFFFFFF : BitVec 32)+
      Polynomial.X^32*messagePoly (image.map UInt8.toBitVec)) %ₘ generator crc32Generator

theorem bit_shift (value : UInt32) :
    (crc32Bit value).toBitVec = Crc.shift crc32Generator value.toBitVec := by
  have hlow : value &&& 1 ≠ 0 ↔ value.toBitVec.getLsbD 0 = true := by
    rw [ne_eq,← UInt32.toBitVec_inj,UInt32.toBitVec_and]
    show ¬value.toBitVec &&& 1#32 = 0#32 ↔ _
    rw [BitVec.and_one_eq_setWidth_ofBool_getLsbD]
    cases value.toBitVec.getLsbD 0 <;> simp
  unfold crc32Bit Crc.shift
  by_cases h : value.toBitVec.getLsbD 0 = true
  · rw [if_pos (hlow.mpr h),if_pos h]
    rfl
  · rw [if_neg (mt hlow.mp h),if_neg h]
    exact BitVec.xor_zero.symm

theorem update_absorb (crc : UInt32) (data : List UInt8) :
    (crc32Update crc data).toBitVec =
      (data.map UInt8.toBitVec).foldl (absorb crc32Generator) crc.toBitVec := by
  have hbits : ∀ (n : ℕ) (value : UInt32), (Nat.repeat crc32Bit n value).toBitVec =
      Nat.repeat (Crc.shift crc32Generator) n value.toBitVec := by
    intro n value
    induction n with
    | zero => rfl
    | succ n ih =>
      show (crc32Bit (Nat.repeat crc32Bit n value)).toBitVec = _
      rw [bit_shift,ih]
      rfl
  induction data generalizing crc with
  | nil => rfl
  | cons byte rest ih =>
    show (crc32Update (Nat.repeat crc32Bit 8 (crc ^^^ byte.toUInt32)) rest).toBitVec = _
    rw [ih,hbits]
    rfl

theorem is_crc32_iff (image : List UInt8) (value : UInt32) :
    IsCrc32 image value ↔ crc32Update 0xFFFFFFFF image ^^^ 0xFFFFFFFF = value := by
  have hmessage := absorb_message crc32Generator (0xFFFFFFFF : UInt32).toBitVec
    (image.map UInt8.toBitVec) (by decide)
  rw [← update_absorb,List.length_map] at hmessage
  have hnot : crc32Update 0xFFFFFFFF image ^^^ 0xFFFFFFFF = ~~~crc32Update 0xFFFFFFFF image :=
    UInt32.xor_neg_one
  unfold IsCrc32
  rw [hnot]
  constructor
  · intro h
    have hregister := register_injective (hmessage.trans h.symm)
    rw [UInt32.toBitVec_inj.mp hregister,UInt32.not_not]
  · rintro rfl
    rw [UInt32.not_not]
    exact hmessage

theorem update_storage (image : List UInt8) :
    crc32Update 0xFFFFFFFF image ^^^ 0xFFFFFFFF = storageCrc32 image :=
  UInt32.xor_neg_one

theorem update_blocks (crc : UInt32) (blocks : List (List UInt8)) :
    blocks.foldl crc32Update crc = crc32Update crc blocks.flatten := by
  induction blocks generalizing crc with
  | nil => rfl
  | cons block rest ih =>
    rw [List.foldl_cons,ih,List.flatten_cons]
    exact List.foldl_append.symm

theorem xor_ones_ne (x : UInt32) : x ≠ x ^^^ 0xFFFFFFFF := by
  intro h
  have hzero : (0xFFFFFFFF : UInt32) = 0 := by
    have hcancel := congrArg (x ^^^ ·) h
    simp only [← UInt32.xor_assoc,UInt32.xor_self,UInt32.zero_xor] at hcancel
    exact hcancel.symm
  exact absurd hzero (by decide)

section Stream
variable {σ : Type}

abbrev Answered := DownloadCall × Option UdsDownloadResult

/-- The operations on the object, each reported with its result. -/
def answeredStep (d : UdsDownload σ) (call : DownloadCall) : UdsDownload σ × List Answered :=
  ((operate d call).1,[(call,(operate d call).2)])

def streamed (blocks : Option (List (List UInt8))) : Answered → Option (List (List UInt8))
  | (.begin _ _ _,some .ok) => some []
  | (.write _ data _,some .ok) => blocks.map fun blocks => blocks++[data]
  | _ => blocks

/-- The blocks accepted since the last successful begin. -/
def acceptedBlocks (history : List Answered) : Option (List (List UInt8)) :=
  history.foldl streamed none

theorem accepted_concat (history : List Answered) (event : Answered) :
    acceptedBlocks (history++[event]) = streamed (acceptedBlocks history) event := by
  simp [acceptedBlocks]

theorem streamed_failed (blocks : Option (List (List UInt8))) (call : DownloadCall)
    {result : Option UdsDownloadResult} (h : result ≠ some .ok) :
    streamed blocks (call,result) = blocks := by
  unfold streamed
  split
  · rename_i heq
    exact absurd (Prod.mk.inj heq).2 h
  · rename_i heq
    exact absurd (Prod.mk.inj heq).2 h
  · rfl

structure Keeps (d : UdsDownload σ) (blocks : List (List UInt8)) : Prop where
  register : d.crc32 = crc32Update 0xFFFFFFFF blocks.flatten
  metadata : d.metadata.crc32 = crc32Update 0xFFFFFFFF blocks.flatten
  received : d.metadata.receivedLength.toNat = blocks.flatten.length
  fits : d.metadata.receivedLength.toNat ≤ d.metadata.imageLength.toNat

structure Streams (d : UdsDownload σ) (history : List Answered) : Prop where
  begun : d.state ≠ .idle → d.state ≠ .abortedState → (acceptedBlocks history).isSome = true
  keeps : ∀ blocks, acceptedBlocks history = some blocks → Keeps d blocks

theorem streams_kept {d e : UdsDownload σ} {history : List Answered} {event : Answered}
    (h : Streams d history) (hevent : streamed (acceptedBlocks history) event = acceptedBlocks history)
    (hregister : e.crc32 = d.crc32) (hmetadata : e.metadata.crc32 = d.metadata.crc32)
    (hreceived : e.metadata.receivedLength = d.metadata.receivedLength)
    (hlength : e.metadata.imageLength = d.metadata.imageLength)
    (hstate : e.state ≠ .idle → e.state ≠ .abortedState →
      d.state ≠ .idle ∧ d.state ≠ .abortedState) : Streams e (history++[event]) := by
  constructor
  · intro hidle haborted
    rw [accepted_concat,hevent]
    exact h.begun (hstate hidle haborted).1 (hstate hidle haborted).2
  · intro blocks hblocks
    rw [accepted_concat,hevent] at hblocks
    have hk := h.keeps blocks hblocks
    exact ⟨hregister.trans hk.register,hmetadata.trans hk.metadata,by rw [hreceived,hk.received],
      by rw [hreceived,hlength]; exact hk.fits⟩

theorem streams_block {d e : UdsDownload σ} {history : List Answered} {block : UInt8}
    {data : List UInt8} {now : UInt32} (h : Streams d history)
    (hreach : ReachesAlignment d block data now)
    (hregister : e.crc32 = crc32Update d.crc32 data)
    (hmetadata : e.metadata.crc32 = crc32Update d.crc32 data)
    (hreceived : e.metadata.receivedLength = d.metadata.receivedLength+UInt32.ofNat data.length)
    (hlength : e.metadata.imageLength = d.metadata.imageLength) :
    Streams e (history++[(.write block data now,some .ok)]) := by
  obtain ⟨-,-,hmax,hstate,-,-,hroom⟩ := hreach
  have hsome := h.begun (by rw [hstate]; decide) (by rw [hstate]; decide)
  obtain ⟨before,hbefore⟩ := Option.isSome_iff_exists.mp hsome
  have hk := h.keeps before hbefore
  obtain ⟨hnext,hfits⟩ := chunk_fits hmax hk.fits (UInt32.not_lt.mpr hroom)
  have hflat : (before++[data]).flatten = before.flatten++data := by simp
  have hcrc : crc32Update d.crc32 data = crc32Update 0xFFFFFFFF (before++[data]).flatten := by
    rw [hk.register,hflat]
    exact List.foldl_append.symm
  constructor
  · intro _ _
    rw [accepted_concat,hbefore]
    rfl
  · intro blocks hblocks
    rw [accepted_concat,hbefore] at hblocks
    obtain rfl : before++[data] = blocks := Option.some.inj hblocks
    refine ⟨hregister.trans hcrc,hmetadata.trans hcrc,?_,?_⟩
    · rw [hreceived,hnext,hflat,List.length_append,hk.received]
    · rw [hreceived,hlength,hnext]
      exact hfits

theorem streams_step {d : UdsDownload σ} {history : List Answered} (h : Streams d history)
    (call : DownloadCall) :
    Streams (answeredStep d call).1 (history++(answeredStep d call).2) := by
  obtain ⟨next,answers,ho,hnext⟩ := plain_outcome d call
  unfold answeredStep
  simp only
  rw [hnext]
  generalize (operate d call).2 = result at ho
  have hkept := fun hidle haborted => And.intro (a := d.state ≠ .idle) (b := d.state ≠ .abortedState)
    hidle haborted
  cases ho with
  | refused c _ result _ _ hresult =>
    exact streams_kept h (streamed_failed _ call (by simp [hresult])) rfl rfl rfl rfl hkept
  | ticked c now => exact streams_kept h rfl rfl rfl rfl rfl hkept
  | eraseFailed c address length now result _ _ hresult =>
    exact streams_kept h (streamed_failed _ _ (by simp [hresult])) rfl rfl rfl rfl hkept
  | begun c address length now _ _ =>
    constructor
    · intro _ _
      rw [accepted_concat]
      rfl
    · intro blocks hblocks
      rw [accepted_concat] at hblocks
      obtain rfl : [] = blocks := Option.some.inj hblocks
      exact ⟨rfl,rfl,rfl,Nat.zero_le _⟩
  | polled c now result hresult => exact streams_kept h rfl rfl rfl rfl rfl hkept
  | erased c now hstate =>
    refine streams_kept h rfl rfl rfl rfl rfl fun _ _ => ?_
    have hstate' : d.state = .erasing := hstate
    rw [hstate']
    exact ⟨by decide,by decide⟩
  | programFailed c block data now result _ _ =>
    exact streams_kept h (streamed_failed _ _ (by decide)) rfl rfl rfl rfl hkept
  | programmed c block data now hreach =>
    have hprogram : d.callbacks.program.isSome = true := by
      simpa [recorded,logged] using hreach.1
    exact streams_block h ⟨hprogram,hreach.2⟩ rfl rfl rfl rfl
  | verified c crc has now hstate _ =>
    refine streams_kept h rfl rfl rfl rfl rfl fun _ _ => ?_
    have hstate' : d.state = .receiving := hstate
    rw [hstate']
    exact ⟨by decide,by decide⟩
  | stopped c _ _ _ crcValid _ hresult _ =>
    exact streams_kept h (streamed_failed _ call hresult) rfl rfl rfl rfl fun _ hc => absurd rfl hc

theorem streams_run (memory : Option UdsDownloadMemoryMap)
    (callbacks : Option (UdsDownloadCallbacks σ)) (context : σ) (calls : List DownloadCall) :
    let r := run answeredStep (udsDownloadInit memory callbacks context) calls
    Streams r.1 r.2 := by
  have hinit : Streams (udsDownloadInit memory callbacks context) [] :=
    ⟨fun hc _ => absurd rfl hc,fun _ hc => by cases hc⟩
  have h := along_history answeredStep (fun _ _ => True) Streams
    (fun _ _ call h _ => streams_step h call) _ [] calls hinit (along_true _ _ _)
  rwa [List.nil_append] at h

def announced : Answered → Option UInt32
  | (.begin _ length _,some .ok) => some length
  | _ => none

def blockTime : Answered → Option UInt32
  | (.write _ _ now,some .ok) => some now
  | _ => none

/-- What ends a transfer whose blocks are all in: an abort, a finish, or a write or a
tick that comes too late. -/
def ending : Answered → Bool
  | (.abort,_) => true
  | (.finish _ _ _,_) => true
  | (.write _ _ _,some .timeout) => true
  | (.tick _,some .timeout) => true
  | _ => false

def sinceBlock (history : List Answered) : List Answered :=
  since (fun e => (blockTime e).isSome) history

/-- The answers tell that all of an image is in: the blocks accepted since the last begin
make up the length that it announced, the last of them came at `last`, and nothing has
ended the transfer behind it. -/
structure AllIn (history : List Answered) (blocks : List (List UInt8)) (last : UInt32) : Prop where
  accepted : acceptedBlocks history = some blocks
  total : (latest announced history).map UInt32.toNat = some blocks.flatten.length
  time : latest blockTime history = some last
  unended : ∀ e ∈ sinceBlock history, ending e = false

/-- The object behind the answers: the length is the one announced, and it receives from
the first block on until something ends the transfer. -/
structure Tells (d : UdsDownload σ) (history : List Answered) : Prop where
  length : ∀ blocks, acceptedBlocks history = some blocks →
    latest announced history = some d.metadata.imageLength ∧ d.metadata.imageLength ≠ 0
  receiving : ∀ blocks last, acceptedBlocks history = some blocks → blocks ≠ [] →
    (∀ e ∈ sinceBlock history, ending e = false) → latest blockTime history = some last →
      d.state = .receiving ∧ d.deadlineMs = last+udsDownloadTimeoutMs

theorem answer_failed (call : DownloadCall) {result : Option UdsDownloadResult}
    (h : result ≠ some .ok) : announced (call,result) = none ∧ blockTime (call,result) = none := by
  unfold announced blockTime
  constructor
  · split
    · rename_i heq
      exact absurd (Prod.mk.inj heq).2 h
    · rfl
  · split
    · rename_i heq
      exact absurd (Prod.mk.inj heq).2 h
    · rfl

theorem kick_state (d : UdsDownload σ) : (kickWatchdog d).1.state = d.state := by
  unfold kickWatchdog
  split
  · rfl
  · rfl

theorem stopped_ends {d : UdsDownload σ} (call : DownloadCall) (h : d.state = .receiving)
    (hstopped : (operate d call).1.state = .abortedState) :
    ending (call,(operate d call).2) = true := by
  have hself : d.state ≠ .abortedState := by
    rw [h]
    decide
  cases call with
  | begin address length now =>
    change (udsDownloadBegin d address length now).1.state = _ at hstopped
    unfold udsDownloadBegin at hstopped
    split at hstopped
    · exact absurd hstopped hself
    · exact absurd hstopped hself
    · dsimp only at hstopped
      split at hstopped
      · exact absurd hstopped hself
      · cases hstopped
  | pollErase now =>
    change (udsDownloadPollErase d now).1.state = _ at hstopped
    have hidle : d.state ≠ .erasing := by
      rw [h]
      decide
    unfold udsDownloadPollErase at hstopped
    split at hstopped
    · exact absurd hstopped hself
    · rw [if_pos hidle] at hstopped
      exact absurd hstopped hself
  | write block data now =>
    change (udsDownloadWrite d block data now).1.state = _ at hstopped
    change ending (.write block data now,some (udsDownloadWrite d block data now).2.1) = true
    unfold udsDownloadWrite at hstopped ⊢
    split at hstopped
    · exact absurd hstopped hself
    dsimp only at hstopped ⊢
    split at hstopped
    · exact absurd hstopped hself
    rename_i hready
    rw [if_neg hready]
    split at hstopped
    · rename_i hlate
      rw [if_pos hlate]
      rfl
    split at hstopped
    · exact absurd hstopped hself
    split at hstopped
    · exact absurd hstopped hself
    split at hstopped
    · exact absurd hstopped hself
    split at hstopped
    · exact absurd hstopped hself
    · rw [kick_state] at hstopped
      exact absurd hstopped hself
  | finish crc has now => rfl
  | tick now =>
    change (udsDownloadTick d now).1.state = _ at hstopped
    change ending (.tick now,some (udsDownloadTick d now).2.1) = true
    unfold udsDownloadTick at hstopped ⊢
    rw [if_neg (by rw [h]; decide)] at hstopped ⊢
    split at hstopped
    · rename_i hlate
      rw [if_pos hlate]
      rfl
    · exact absurd ((kick_state d).symm.trans hstopped) hself
  | abort => rfl

theorem tells_kept {d e : UdsDownload σ} {history : List Answered} {event : Answered}
    (h : Tells d history) (hevent : streamed (acceptedBlocks history) event = acceptedBlocks history)
    (hannounced : announced event = none) (hblock : blockTime event = none)
    (hlength : e.metadata.imageLength = d.metadata.imageLength)
    (hstate : d.state = .receiving → ending event = false →
      e.state = .receiving ∧ e.deadlineMs = d.deadlineMs) : Tells e (history++[event]) := by
  have hsince : sinceBlock (history++[event]) = sinceBlock history++[event] := by
    unfold sinceBlock
    rw [since_concat,hblock,if_neg]
    exact Bool.false_ne_true
  constructor
  · intro blocks hblocks
    rw [accepted_concat,hevent] at hblocks
    rw [latest_concat,hannounced,Option.none_or,hlength]
    exact h.length blocks hblocks
  · intro blocks last hblocks hsome hquiet hlast
    rw [accepted_concat,hevent] at hblocks
    rw [latest_concat,hblock,Option.none_or] at hlast
    rw [hsince] at hquiet
    obtain ⟨hreceiving,hdeadline⟩ := h.receiving blocks last hblocks hsome
      (fun e he => hquiet e (List.mem_append_left _ he)) hlast
    have hlive : ending event = false :=
      hquiet event (List.mem_append_right _ (List.mem_singleton.mpr rfl))
    obtain ⟨hnext,hsame⟩ := hstate hreceiving hlive
    exact ⟨hnext,hsame.trans hdeadline⟩

theorem tells_step {d : UdsDownload σ} {history : List Answered} (h : Tells d history)
    (call : DownloadCall) : Tells (answeredStep d call).1 (history++(answeredStep d call).2) := by
  obtain ⟨next,answers,ho,hnext⟩ := plain_outcome d call
  have hends := @stopped_ends σ d call
  unfold answeredStep
  simp only
  rw [hnext] at hends ⊢
  generalize (operate d call).2 = result at ho hends
  cases ho with
  | refused c _ result _ _ hresult =>
    have hfailed : some result ≠ some .ok := fun hc => hresult.1 (Option.some.inj hc)
    obtain ⟨hannounced,hblock⟩ := answer_failed call hfailed
    exact tells_kept h (streamed_failed _ call hfailed) hannounced hblock rfl
      fun hreceiving _ => ⟨hreceiving,rfl⟩
  | ticked c now => exact tells_kept h rfl rfl rfl rfl fun hreceiving _ => ⟨hreceiving,rfl⟩
  | eraseFailed c address length now result _ _ hresult =>
    have hfailed : some result ≠ some .ok := fun hc => hresult (Option.some.inj hc)
    obtain ⟨hannounced,hblock⟩ := answer_failed (.begin address length now) hfailed
    exact tells_kept h (streamed_failed _ _ hfailed) hannounced hblock rfl
      fun hreceiving _ => ⟨hreceiving,rfl⟩
  | begun c address length now hpassed _ =>
    have hlength : length ≠ 0 := by
      intro hc
      unfold beginRefusal at hpassed
      simp only [hc,true_or,if_true] at hpassed
      split at hpassed
      · cases hpassed
      · cases hpassed
    constructor
    · intro blocks _
      rw [latest_concat]
      exact ⟨rfl,hlength⟩
    · intro blocks last hblocks hsome _ _
      rw [accepted_concat] at hblocks
      exact absurd (Option.some.inj hblocks).symm hsome
  | polled c now result hresult =>
    have hfailed : some result ≠ some .ok := fun hc => hresult (Option.some.inj hc)
    obtain ⟨hannounced,hblock⟩ := answer_failed (.pollErase now) hfailed
    exact tells_kept h (streamed_failed _ _ hfailed) hannounced hblock rfl
      fun hreceiving _ => ⟨hreceiving,rfl⟩
  | erased c now hstate =>
    refine tells_kept h rfl rfl rfl rfl fun hreceiving _ => ?_
    have hstate' : d.state = .erasing := hstate
    rw [hstate'] at hreceiving
    cases hreceiving
  | programFailed c block data now result _ _ =>
    exact tells_kept h (streamed_failed _ _ (by decide)) rfl rfl rfl
      fun hreceiving _ => ⟨hreceiving,rfl⟩
  | programmed c block data now hreach =>
    constructor
    · intro blocks hblocks
      rw [accepted_concat] at hblocks
      obtain ⟨before,hbefore,-⟩ := Option.map_eq_some_iff.mp hblocks
      rw [latest_concat]
      exact h.length before hbefore
    · intro blocks last _ _ _ hlast
      rw [latest_concat] at hlast
      obtain rfl : now = last := Option.some.inj hlast
      exact ⟨hreach.2.2.2.1,rfl⟩
  | verified c crc has now _ _ =>
    exact tells_kept h rfl rfl rfl rfl fun _ hlive => by cases hlive
  | stopped c _ _ _ crcValid _ hresult _ =>
    obtain ⟨hannounced,hblock⟩ := answer_failed call hresult
    refine tells_kept h (streamed_failed _ call hresult) hannounced hblock rfl
      fun hreceiving hlive => ?_
    rw [hends hreceiving rfl] at hlive
    cases hlive

theorem tells_run (memory : Option UdsDownloadMemoryMap)
    (callbacks : Option (UdsDownloadCallbacks σ)) (context : σ) (calls : List DownloadCall) :
    let r := run answeredStep (udsDownloadInit memory callbacks context) calls
    Tells r.1 r.2 := by
  have hinit : Tells (udsDownloadInit memory callbacks context) [] :=
    ⟨fun _ hc => (Option.some_ne_none _ hc.symm).elim,fun _ _ hc => (Option.some_ne_none _ hc.symm).elim⟩
  have h := along_history answeredStep (fun _ _ => True) Tells
    (fun _ _ call h _ => tells_step h call) _ [] calls hinit (along_true _ _ _)
  rwa [List.nil_append] at h

theorem run_callbacks (d : UdsDownload σ) (calls : List DownloadCall) :
    (run answeredStep d calls).1.callbacks = d.callbacks := by
  refine run_invariant answeredStep (fun e => e.callbacks = d.callbacks) (fun e call he => ?_) d calls
    rfl
  obtain ⟨next,-,-,hnext⟩ := plain_outcome e call
  show (operate e call).1.callbacks = _
  rw [hnext,← he]
  rfl

/-- The verify callback, if it were asked now, accepts the image. -/
def Verifies (d : UdsDownload σ) (expected : UInt32) : Prop :=
  ∃ verifyImage, d.callbacks.verifyImage = some verifyImage ∧
    (verifyImage d.context { d.metadata with crcValid := true } expected true).2 = .ok

theorem finish_compares {d : UdsDownload σ} {expected now : UInt32} (hstate : d.state = .receiving)
    (hfull : d.metadata.receivedLength = d.metadata.imageLength)
    (htime : timeExpired now d.deadlineMs = false) (hverifies : Verifies d expected) :
    (udsDownloadFinish d expected true now).2.1 = .ok ↔ d.crc32 ^^^ 0xFFFFFFFF = expected := by
  obtain ⟨verifyImage,hverify,hok⟩ := hverifies
  have hready : ¬(d.state ≠ .receiving ∨ d.metadata.receivedLength ≠ d.metadata.imageLength) := by
    rw [not_or,not_not,not_not]
    exact ⟨hstate,hfull⟩
  unfold udsDownloadFinish
  simp only [hverify,if_neg hready,htime,Bool.false_eq_true,if_false,Bool.not_true,
    Bool.false_or]
  by_cases hcrc : d.crc32 ^^^ 0xFFFFFFFF = expected
  · simp [hcrc,hok]
  · simp [hcrc]

/-- Once the accepted blocks make up the announced image, a finish in time succeeds for
exactly the CRC-32 of the image, if the callback accepts it. However the image is cut,
streaming it gives the checksum of the storage module. -/
theorem finish_checks_crc32 (memory : Option UdsDownloadMemoryMap)
    (callbacks : Option (UdsDownloadCallbacks σ)) (context : σ) (calls : List DownloadCall)
    (blocks : List (List UInt8)) (last expected now : UInt32) :
    let r := run answeredStep (udsDownloadInit memory callbacks context) calls
    AllIn r.2 blocks last → timeExpired now (last+udsDownloadTimeoutMs) = false →
      Verifies r.1 expected →
        ((udsDownloadFinish r.1 expected true now).2.1 = .ok ↔ IsCrc32 blocks.flatten expected) ∧
        ∀ split : List (List UInt8), split.flatten = blocks.flatten →
          split.foldl crc32Update 0xFFFFFFFF ^^^ 0xFFFFFFFF = storageCrc32 blocks.flatten := by
  intro r hin htime hverifies
  have hstreams : Streams r.1 r.2 := streams_run memory callbacks context calls
  have htells : Tells r.1 r.2 := tells_run memory callbacks context calls
  have hk := hstreams.keeps blocks hin.accepted
  obtain ⟨hannounced,hnonzero⟩ := htells.length blocks hin.accepted
  have htotal : r.1.metadata.imageLength.toNat = blocks.flatten.length := by
    have htotal := hin.total
    rw [hannounced] at htotal
    exact Option.some.inj htotal
  have hsome : blocks ≠ [] := by
    rintro rfl
    exact hnonzero (UInt32.toNat_inj.mp htotal)
  obtain ⟨hstate,hdeadline⟩ :=
    htells.receiving blocks last hin.accepted hsome hin.unended hin.time
  have hfull : r.1.metadata.receivedLength = r.1.metadata.imageLength :=
    UInt32.toNat_inj.mp (hk.received.trans htotal.symm)
  rw [← hdeadline] at htime
  refine ⟨?_,fun split hsplit => ?_⟩
  · rw [finish_compares hstate hfull htime hverifies,is_crc32_iff,hk.register]
  · rw [update_blocks,hsplit,update_storage]

theorem finish_hands {d : UdsDownload σ} {expected now : UInt32} {has : Bool}
    (h : (udsDownloadFinish d expected has now).2.1 = .ok) :
    d.state = .receiving ∧
      (udsDownloadFinish d expected has now).2.2 =
        [.verifyImage { d.metadata with crcValid := true }] ∧
      (udsDownloadMetadata (udsDownloadFinish d expected has now).1).crc32 = d.metadata.crc32 := by
  unfold udsDownloadFinish at h ⊢
  cases hverify : d.callbacks.verifyImage with
  | none => simp [hverify] at h
  | some verifyImage =>
    simp only [hverify] at h ⊢
    by_cases hready : d.state ≠ .receiving ∨ d.metadata.receivedLength ≠ d.metadata.imageLength
    · simp [hready] at h
    rw [if_neg hready] at h ⊢
    by_cases htime : timeExpired now d.deadlineMs = true
    · simp [htime] at h
    rw [if_neg htime] at h ⊢
    generalize (!has || (d.crc32 ^^^ 0xFFFFFFFF) == expected) = crcValid at h ⊢
    cases crcValid with
    | false => simp at h
    | true =>
      simp only [Bool.not_true,Bool.false_eq_true,if_false] at h ⊢
      by_cases hok :
          (verifyImage d.context { d.metadata with crcValid := true } expected has).2 ≠ .ok
      · simp only [if_pos hok] at h
        exact absurd h hok
      · simp only [if_neg hok]
        exact ⟨not_not.mp (not_or.mp hready).1,trivial,rfl⟩

/-- The metadata of a completed download never carries the CRC-32 of its image: it
carries the register, which is the complement. -/
theorem metadata_crc32_never (memory : Option UdsDownloadMemoryMap)
    (callbacks : Option (UdsDownloadCallbacks σ)) (context : σ) (calls : List DownloadCall)
    (expected now : UInt32) (has : Bool) :
    let r := run answeredStep (udsDownloadInit memory callbacks context) calls
    let finished := udsDownloadFinish r.1 expected has now
    finished.2.1 = .ok →
      ∃ blocks handed, acceptedBlocks r.2 = some blocks ∧
        finished.2.2 = [.verifyImage handed] ∧
        ∀ value, IsCrc32 blocks.flatten value →
          handed.crc32 ≠ value ∧ (udsDownloadMetadata finished.1).crc32 ≠ value := by
  intro r finished hok
  have h : Streams r.1 r.2 := streams_run memory callbacks context calls
  obtain ⟨hstate,hhanded,hreturned⟩ := finish_hands hok
  have hsome := h.begun (by rw [hstate]; decide) (by rw [hstate]; decide)
  obtain ⟨blocks,hblocks⟩ := Option.isSome_iff_exists.mp hsome
  refine ⟨blocks,_,hblocks,hhanded,fun value hvalue => ?_⟩
  have hne : r.1.metadata.crc32 ≠ value := by
    rw [(h.keeps blocks hblocks).metadata,← (is_crc32_iff _ _).mp hvalue]
    exact xor_ones_ne _
  exact ⟨hne,by rw [hreturned]; exact hne⟩

end Stream

/-- Eight bytes in two blocks. -/
def twoBlocks : List DownloadCall :=
  [.begin 0x08080000 8 0,.pollErase 1,.write 1 [1,2,3,4] 2,.write 2 [5,6,7,8] 3]

def disturbedBlocks : List DownloadCall :=
  [.begin 0x08080000 8 0,.pollErase 1,.write 1 [1,2,3,4] 2,.finish 0 true 2,.write 1 [5,6,7,8] 3,
    .tick 4,.write 2 [5,6,7,8] 5,.write 3 [9,9,9,9] 6]

def disturbedRun : UdsDownload Unit × List Answered :=
  run answeredStep (udsDownloadInit (some referenceMemory) (some agreeableCallbacks) ())
    disturbedBlocks

theorem finish_checks_crc32_two :
    AllIn disturbedRun.2 [[1,2,3,4],[5,6,7,8]] 5 ∧
      (udsDownloadFinish disturbedRun.1 0x3FCA88C5 true 5000).2.1 = .ok ∧
      IsCrc32 [1,2,3,4,5,6,7,8] 0x3FCA88C5 ∧
      [[1],[2,3,4,5,6,7,8]].foldl crc32Update 0xFFFFFFFF ^^^ 0xFFFFFFFF =
        storageCrc32 [1,2,3,4,5,6,7,8] := by
  have hin : AllIn disturbedRun.2 [[1,2,3,4],[5,6,7,8]] 5 :=
    ⟨by decide +kernel,by decide +kernel,by decide +kernel,by decide +kernel⟩
  have hok : (udsDownloadFinish disturbedRun.1 0x3FCA88C5 true 5000).2.1 = .ok := by
    decide +kernel
  have hcallbacks : disturbedRun.1.callbacks = agreeableCallbacks :=
    run_callbacks _ disturbedBlocks
  have hverifies : Verifies disturbedRun.1 0x3FCA88C5 := by
    unfold Verifies
    rw [hcallbacks]
    exact ⟨_,rfl,rfl⟩
  have hchecks := finish_checks_crc32 (some referenceMemory) (some agreeableCallbacks) ()
    disturbedBlocks [[1,2,3,4],[5,6,7,8]] 5 0x3FCA88C5 5000
  rw [← disturbedRun] at hchecks
  obtain ⟨hiff,hsplit⟩ := hchecks hin (by decide) hverifies
  exact ⟨hin,hok,hiff.mp hok,hsplit [[1],[2,3,4,5,6,7,8]] rfl⟩

/-- The field of a completed download is not the CRC-32 of the eight bytes. -/
theorem metadata_carries_register :
    let r := run answeredStep (udsDownloadInit (some referenceMemory)
      (some agreeableCallbacks) ()) twoBlocks
    let finished := udsDownloadFinish r.1 0x3FCA88C5 true 4
    finished.2.1 = .ok ∧ acceptedBlocks r.2 = some [[1,2,3,4],[5,6,7,8]] ∧
      IsCrc32 [1,2,3,4,5,6,7,8] 0x3FCA88C5 ∧
      (udsDownloadMetadata finished.1).crc32 = 0xC035773A := by
  refine ⟨by decide +kernel,by decide +kernel,?_,by decide +kernel⟩
  exact (is_crc32_iff _ _).mpr (by decide +kernel)

theorem metadata_crc32_never_two :
    let r := run answeredStep (udsDownloadInit (some referenceMemory)
      (some agreeableCallbacks) ()) twoBlocks
    let finished := udsDownloadFinish r.1 0 false 4
    ∃ blocks handed, acceptedBlocks r.2 = some blocks ∧
      finished.2.2 = [.verifyImage handed] ∧
      ∀ value, IsCrc32 blocks.flatten value →
        handed.crc32 ≠ value ∧ (udsDownloadMetadata finished.1).crc32 ≠ value :=
  metadata_crc32_never (some referenceMemory) (some agreeableCallbacks) () twoBlocks 0 4 false
    (by decide +kernel)

section Errors
variable {σ : Type} (d : UdsDownload σ)

/-- The two objects are at the same point of the same transfer. -/
structure SamePoint (before after : UdsDownload σ) : Prop where
  state : after.state = before.state
  imageAddress : after.metadata.imageAddress = before.metadata.imageAddress
  imageLength : after.metadata.imageLength = before.metadata.imageLength
  receivedLength : after.metadata.receivedLength = before.metadata.receivedLength
  expectedBlock : after.expectedBlock = before.expectedBlock
  crc32 : after.crc32 = before.crc32

def Stopped (d : UdsDownload σ) : Prop :=
  d.state = .abortedState ∧ d.metadata.activationPending = false

/-- An operation that reports an error moves nothing or stops the transfer, so it never
leaves data half taken where more data is accepted. -/
theorem error_atomic (call : DownloadCall) (result : UdsDownloadResult)
    (hresult : (operate d call).2 = some result) (herror : result ≠ .ok) :
    (SamePoint d (operate d call).1 ∨ Stopped (operate d call).1) ∧
      ((operate d call).1.state = .erasing ∨ (operate d call).1.state = .receiving →
        SamePoint d (operate d call).1) := by
  have houtcome : SamePoint d (operate d call).1 ∨ Stopped (operate d call).1 := by
    obtain ⟨next,answers,ho,hnext⟩ := plain_outcome d call
    rw [hnext]
    rw [hresult] at ho
    cases ho with
    | refused | eraseFailed | polled | programFailed =>
      exact Or.inl ⟨rfl,rfl,rfl,rfl,rfl,rfl⟩
    | ticked | begun | erased | programmed | verified => exact absurd rfl herror
    | stopped => exact Or.inr ⟨rfl,rfl⟩
  refine ⟨houtcome,fun haccepts => ?_⟩
  rcases houtcome with hsame | hstopped
  · exact hsame
  · rw [hstopped.1] at haccepts
    rcases haccepts with hc | hc <;> cases hc

def firstBlockIn : UdsDownload Unit :=
  (run answeredStep (udsDownloadInit (some referenceMemory) (some agreeableCallbacks) ())
    (twoBlocks.take 3)).1

theorem error_atomic_midway :
    firstBlockIn.state = .receiving ∧ firstBlockIn.metadata.receivedLength = 4 ∧
      SamePoint firstBlockIn (operate firstBlockIn (.write 1 [5,6,7,8] 3)).1 ∧
      Stopped (operate firstBlockIn (.write 2 [5,6,7,8] 5002)).1 := by
  have hsame := error_atomic firstBlockIn (.write 1 [5,6,7,8] 3) .sequenceError
    (by decide +kernel) (by decide)
  have hlate := error_atomic firstBlockIn (.write 2 [5,6,7,8] 5002) .timeout
    (by decide +kernel) (by decide)
  refine ⟨by decide +kernel,by decide +kernel,hsame.2 (Or.inr (by decide +kernel)),?_⟩
  refine hlate.1.resolve_left fun hmoved => ?_
  exact absurd hmoved.state (by decide +kernel)

end Errors
end CanopenReference.DownloadStream
