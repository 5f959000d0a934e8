import CanopenReference.DownloadSafety

/-!
# Operations on record

The download object with a log of what its callbacks answered. Logging changes
nothing else, and one inversion theorem says everything an operation can do to
the object and what it leaves on record.
-/

set_option autoImplicit false

namespace CanopenReference.DownloadRecords
open Library Library.Runs Download DownloadSafety

inductive MemoryAnswer where
  | eraseStart (address length : UInt32) (result : UdsDownloadResult)
  | erasePoll (result : UdsDownloadResult)
  | program (address : UInt32) (data : List UInt8) (result : UdsDownloadResult)
  | verifyImage (result : UdsDownloadResult)
  deriving DecidableEq

abbrev Logged (σ : Type) := σ × List MemoryAnswer

section Logging
variable {σ : Type}

def logged (callbacks : UdsDownloadCallbacks σ) : UdsDownloadCallbacks (Logged σ) where
  eraseStart := callbacks.eraseStart.map fun eraseStart c address length =>
    let r := eraseStart c.1 address length
    ((r.1,c.2++[.eraseStart address length r.2]),r.2)
  erasePoll := callbacks.erasePoll.map fun erasePoll c =>
    let r := erasePoll c.1
    ((r.1,c.2++[.erasePoll r.2]),r.2)
  program := callbacks.program.map fun program c address data =>
    let r := program c.1 address data
    ((r.1,c.2++[.program address data r.2]),r.2)
  verifyImage := callbacks.verifyImage.map fun verifyImage c metadata crc has =>
    let r := verifyImage c.1 metadata crc has
    ((r.1,c.2++[.verifyImage r.2]),r.2)
  abort := callbacks.abort.map fun abort c => (abort c.1,c.2)
  watchdogKick := callbacks.watchdogKick.map fun watchdogKick c => (watchdogKick c.1,c.2)

/-- One operation with its result; the explicit abort has none. -/
def operate (d : UdsDownload σ) : DownloadCall → UdsDownload σ × Option UdsDownloadResult
  | .begin address length now =>
    let r := udsDownloadBegin d address length now
    (r.1,some r.2.1)
  | .pollErase now =>
    let r := udsDownloadPollErase d now
    (r.1,some r.2.1)
  | .write block data now =>
    let r := udsDownloadWrite d block data now
    (r.1,some r.2.1)
  | .finish crc has now =>
    let r := udsDownloadFinish d crc has now
    (r.1,some r.2.1)
  | .tick now =>
    let r := udsDownloadTick d now
    (r.1,some r.2.1)
  | .abort => ((udsDownloadAbort d).1,none)

theorem operate_step (d : UdsDownload σ) (call : DownloadCall) :
    (operate d call).1 = (downloadStep d call).1 := by
  cases call <;> rfl

def forget (callbacks : UdsDownloadCallbacks σ) (d : UdsDownload (Logged σ)) : UdsDownload σ where
  memory := d.memory
  callbacks := callbacks
  context := d.context.1
  state := d.state
  metadata := d.metadata
  expectedBlock := d.expectedBlock
  deadlineMs := d.deadlineMs
  crc32 := d.crc32

end Logging

def ReachesAlignment {σ : Type} (d : UdsDownload σ) (block : UInt8) (data : List UInt8)
    (now : UInt32) : Prop :=
  d.callbacks.program.isSome = true ∧ data.length ≠ 0 ∧
    data.length ≤ udsDownloadMaxChunkLength ∧ d.state = .receiving ∧
    timeExpired now d.deadlineMs = false ∧ block = d.expectedBlock ∧
    UInt32.ofNat data.length ≤ d.metadata.imageLength-d.metadata.receivedLength

instance reachesAlignmentDecidable {σ : Type} (d : UdsDownload σ) (block : UInt8)
    (data : List UInt8) (now : UInt32) : Decidable (ReachesAlignment d block data now) :=
  inferInstanceAs (Decidable (_ ∧ _))

def pastAlignment (result : UdsDownloadResult) : Bool :=
  result = .alignmentError ∨ result = .programError ∨ result = .ok

/-- The divisors of the remainders that an operation computes: those of the test in a
write that has come to it, and of the test in a begin in any case. -/
def divisors {σ : Type} (d : UdsDownload σ) : DownloadCall → List UInt32
  | .begin address length _ => (imageMisaligned d.memory address length).divisors
  | .write block data now =>
    if pastAlignment (udsDownloadWrite d block data now).2.1 then
      (chunkMisaligned d.memory d.metadata.receivedLength (UInt32.ofNat data.length)).divisors
    else []
  | _ => []

theorem past_alignment {σ : Type} {d : UdsDownload σ} {block : UInt8} {data : List UInt8}
    {now : UInt32} (h : pastAlignment (udsDownloadWrite d block data now).2.1 = true) :
    ReachesAlignment d block data now := by
  unfold udsDownloadWrite at h
  split at h
  · cases h
  rename_i program hprogram
  dsimp only at h
  split at h
  · cases h
  rename_i hready
  simp only [not_or,Nat.not_lt,not_not] at hready
  split at h
  · cases h
  rename_i htime
  split at h
  · cases h
  rename_i hblock
  split at h
  · cases h
  rename_i hroom
  exact ⟨by simp [hprogram],hready.1,hready.2.1,hready.2.2,Bool.eq_false_of_not_eq_true htime,
    not_not.mp hblock,UInt32.not_lt.mp hroom⟩

structure DownloadRecord where
  call : DownloadCall
  result : Option UdsDownloadResult
  answers : List MemoryAnswer
  divisors : List UInt32

section Recording
variable {σ : Type}

def recordStep (d : UdsDownload (Logged σ)) (call : DownloadCall) :
    UdsDownload (Logged σ) × List DownloadRecord :=
  let cleared : UdsDownload (Logged σ) := { d with context := (d.context.1,[]) }
  let r := operate cleared call
  (r.1,[⟨call,r.2,r.1.context.2,divisors d call⟩])

/-- The object once a begin has succeeded. -/
def started (d : UdsDownload σ) (c : σ) (address length now : UInt32) : UdsDownload σ :=
  { d with
    context := c
    metadata :=
      { d.metadata with
        magic := udsDownloadMetadataMagic, imageAddress := address, imageLength := length,
        receivedLength := 0, crc32 := 0xFFFFFFFF, crcValid := false, hashValid := false,
        activationPending := false }
    crc32 := 0xFFFFFFFF
    expectedBlock := 1
    deadlineMs := now+udsDownloadTimeoutMs
    state := .erasing }

def chunkTaken (d : UdsDownload σ) (c : σ) (data : List UInt8) (now : UInt32) : UdsDownload σ :=
  { d with
    context := c
    metadata :=
      { d.metadata with
        receivedLength := d.metadata.receivedLength+UInt32.ofNat data.length
        crc32 := crc32Update d.crc32 data }
    crc32 := crc32Update d.crc32 data
    expectedBlock := d.expectedBlock+1
    deadlineMs := now+udsDownloadTimeoutMs }

def completed (d : UdsDownload σ) (c : σ) : UdsDownload σ :=
  { d with
    context := c
    metadata :=
      { d.metadata with
        crcValid := true, activationPending := !d.memory.activationSupported }
    state := .complete }

/-- What `erase_start` answers when it is called now. -/
def eraseAnswer (d : UdsDownload (Logged σ)) (address length : UInt32) :
    Option UdsDownloadResult :=
  d.callbacks.eraseStart.map fun eraseStart => (eraseStart (d.context.1,[]) address length).2

/-- Everything an operation can do to the object, with the result and the
answers that go on record. -/
inductive DownloadOutcome (d : UdsDownload (Logged σ)) : DownloadCall → UdsDownload (Logged σ) →
    Option UdsDownloadResult → List MemoryAnswer → Prop where
  | refused (c : Logged σ) (call : DownloadCall) (result : UdsDownloadResult)
      (hcall : call ≠ .abort)
      (hbegin : ∀ address length now, call = .begin address length now →
        beginRefusal d address length ≠ none)
      (hresult : result ≠ .ok ∧ result ≠ .timeout ∧ result ≠ .verifyError) :
      DownloadOutcome d call { d with context := c } (some result) []
  | ticked (c : Logged σ) (now : UInt32) :
      DownloadOutcome d (.tick now) { d with context := c } (some .ok) []
  | eraseFailed (c : Logged σ) (address length now : UInt32) (result : UdsDownloadResult)
      (hpassed : beginRefusal d address length = none)
      (hanswer : eraseAnswer d address length = some result) (hresult : result ≠ .ok) :
      DownloadOutcome d (.begin address length now) { d with context := c } (some result)
        [.eraseStart address length result]
  | begun (c : Logged σ) (address length now : UInt32)
      (hpassed : beginRefusal d address length = none)
      (hanswer : eraseAnswer d address length = some .ok) :
      DownloadOutcome d (.begin address length now) (started d c address length now)
        (some .ok) [.eraseStart address length .ok]
  | polled (c : Logged σ) (now : UInt32) (result : UdsDownloadResult) (hresult : result ≠ .ok) :
      DownloadOutcome d (.pollErase now) { d with context := c } (some result)
        [.erasePoll result]
  | erased (c : Logged σ) (now : UInt32) (hstate : d.state = .erasing) :
      DownloadOutcome d (.pollErase now)
        { d with context := c, state := .receiving, deadlineMs := now+udsDownloadTimeoutMs }
        (some .ok) [.erasePoll .ok]
  | programFailed (c : Logged σ) (block : UInt8) (data : List UInt8) (now : UInt32)
      (result : UdsDownloadResult) (hreach : ReachesAlignment d block data now)
      (hresult : result ≠ .ok) :
      DownloadOutcome d (.write block data now) { d with context := c } (some .programError)
        [.program (d.metadata.imageAddress+d.metadata.receivedLength) data result]
  | programmed (c : Logged σ) (block : UInt8) (data : List UInt8) (now : UInt32)
      (hreach : ReachesAlignment d block data now) :
      DownloadOutcome d (.write block data now) (chunkTaken d c data now)
        (some .ok) [.program (d.metadata.imageAddress+d.metadata.receivedLength) data .ok]
  | verified (c : Logged σ) (crc : UInt32) (has : Bool) (now : UInt32)
      (hstate : d.state = .receiving)
      (hlength : d.metadata.receivedLength = d.metadata.imageLength) :
      DownloadOutcome d (.finish crc has now) (completed d c) (some .ok) [.verifyImage .ok]
  | stopped (c : Logged σ) (call : DownloadCall) (result : Option UdsDownloadResult)
      (answers : List MemoryAnswer) (crcValid : Bool)
      (hcall : ∀ address length now, call ≠ .begin address length now)
      (hresult : result ≠ some .ok)
      (hanswers : answers = [] ∨ ∃ r, r ≠ .ok ∧ answers = [.verifyImage r]) :
      DownloadOutcome d call
        { d with
          context := c
          state := .abortedState
          metadata := { d.metadata with crcValid := crcValid, activationPending := false } }
        result answers

/-- Each callback that reports a result puts it on the log; the others leave
the log alone. -/
structure Logs (callbacks : UdsDownloadCallbacks (Logged σ)) : Prop where
  eraseStart : ∀ f, callbacks.eraseStart = some f → ∀ c address length,
    (f c address length).1.2 = c.2++[.eraseStart address length (f c address length).2]
  erasePoll : ∀ f, callbacks.erasePoll = some f → ∀ c, (f c).1.2 = c.2++[.erasePoll (f c).2]
  program : ∀ f, callbacks.program = some f → ∀ c address data,
    (f c address data).1.2 = c.2++[.program address data (f c address data).2]
  verifyImage : ∀ f, callbacks.verifyImage = some f → ∀ c metadata crc has,
    (f c metadata crc has).1.2 = c.2++[.verifyImage (f c metadata crc has).2]
  abort : ∀ f, callbacks.abort = some f → ∀ c, (f c).2 = c.2
  watchdogKick : ∀ f, callbacks.watchdogKick = some f → ∀ c, (f c).2 = c.2

theorem logged_logs (callbacks : UdsDownloadCallbacks σ) : Logs (logged callbacks) := by
  constructor
  · intro f hf
    obtain ⟨g,_,rfl⟩ := Option.map_eq_some_iff.mp hf
    exact fun _ _ _ => rfl
  · intro f hf
    obtain ⟨g,_,rfl⟩ := Option.map_eq_some_iff.mp hf
    exact fun _ => rfl
  · intro f hf
    obtain ⟨g,_,rfl⟩ := Option.map_eq_some_iff.mp hf
    exact fun _ _ _ => rfl
  · intro f hf
    obtain ⟨g,_,rfl⟩ := Option.map_eq_some_iff.mp hf
    exact fun _ _ _ _ => rfl
  · intro f hf
    obtain ⟨g,_,rfl⟩ := Option.map_eq_some_iff.mp hf
    exact fun _ => rfl
  · intro f hf
    obtain ⟨g,_,rfl⟩ := Option.map_eq_some_iff.mp hf
    exact fun _ => rfl

theorem init_logs (memory : Option UdsDownloadMemoryMap)
    (callbacks : Option (UdsDownloadCallbacks σ)) (context : σ) :
    Logs (udsDownloadInit memory (callbacks.map logged) (context,[])).callbacks := by
  cases callbacks with
  | none => exact logged_logs (noCallbacks σ)
  | some callbacks => exact logged_logs callbacks

variable {d : UdsDownload (Logged σ)}

theorem kick_logged (h : Logs d.callbacks) :
    ∃ c, (kickWatchdog d).1 = { d with context := c } ∧ c.2 = d.context.2 := by
  unfold kickWatchdog
  cases hk : d.callbacks.watchdogKick with
  | none => exact ⟨d.context,rfl,rfl⟩
  | some watchdogKick => exact ⟨watchdogKick d.context,rfl,h.watchdogKick _ hk _⟩

theorem abort_logged (h : Logs d.callbacks) :
    ∃ c, (udsDownloadAbort d).1 =
        { d with
          context := c
          state := .abortedState
          metadata := { d.metadata with activationPending := false } } ∧
      c.2 = d.context.2 := by
  unfold udsDownloadAbort
  cases ha : d.callbacks.abort with
  | none => exact ⟨d.context,rfl,rfl⟩
  | some abort => exact ⟨abort d.context,rfl,h.abort _ ha _⟩

theorem refusal_result {σ : Type} {d : UdsDownload σ} {address length : UInt32}
    {result : UdsDownloadResult} (h : beginRefusal d address length = some result) :
    result ≠ .ok ∧ result ≠ .timeout ∧ result ≠ .verifyError := by
  simp only [beginRefusal] at h
  repeat' split at h
  all_goals cases h
  all_goals exact ⟨by simp,by simp,by simp⟩

structure BeginPassed {σ : Type} (d : UdsDownload σ) (address length : UInt32) : Prop where
  program : d.callbacks.program.isSome = true
  erasePoll : d.callbacks.erasePoll.isSome = true
  verifyImage : d.callbacks.verifyImage.isSome = true
  positive : length ≠ 0
  noWrap : ¬address+length < address
  lengthAligned : aligned length d.memory.eraseAlignment = true
  addressAligned : aligned address d.memory.programAlignment = true
  blockLow : 3 ≤ d.memory.maxBlockLength
  blockHigh : d.memory.maxBlockLength.toNat ≤ udsDownloadMaxChunkLength

theorem begin_passed {σ : Type} {d : UdsDownload σ} {address length : UInt32}
    (h : beginRefusal d address length = none) : BeginPassed d address length := by
  simp only [beginRefusal] at h
  repeat' split at h
  all_goals try cases h
  rename_i hcallbacks hrange haligned hblock
  rw [image_misaligned] at haligned
  simp only [not_or,not_not,Bool.not_eq_true,Bool.not_eq_true',Bool.not_eq_false,Nat.not_lt,
    UInt16.not_lt,Option.isNone_eq_false_iff] at hcallbacks hrange haligned hblock
  exact ⟨hcallbacks.2.2.1,hcallbacks.2.1,hcallbacks.2.2.2,hrange.1,hrange.2.1,haligned.2.1,
    haligned.2.2,hblock.1,hblock.2⟩

theorem begin_outcome (h : Logs d.callbacks) (hlog : d.context.2 = [])
    (address length now : UInt32) :
    let r := udsDownloadBegin d address length now
    DownloadOutcome d (.begin address length now) r.1 (some r.2.1) r.1.context.2 := by
  unfold udsDownloadBegin
  cases hr : beginRefusal d address length with
  | some refusal =>
    simp only
    rw [hlog]
    refine .refused d.context _ refusal (by simp) ?_ (refusal_result hr)
    rintro _ _ _ ⟨⟩
    simp [hr]
  | none =>
    cases he : d.callbacks.eraseStart with
    | none => simp [beginRefusal,he] at hr
    | some eraseStart =>
      have hanswer := h.eraseStart _ he d.context address length
      rw [hlog,List.nil_append] at hanswer
      have herase : eraseAnswer d address length =
          some (eraseStart d.context address length).2 := by
        rw [eraseAnswer,he,← hlog]
        rfl
      simp only
      split
      · rename_i hresult
        rw [hanswer]
        exact .eraseFailed _ address length now _ hr herase hresult
      · rename_i hresult
        simp only
        rw [hanswer,not_not.mp hresult]
        exact .begun _ address length now hr (by rw [herase,not_not.mp hresult])

theorem poll_outcome (h : Logs d.callbacks) (hlog : d.context.2 = []) (now : UInt32) :
    let r := udsDownloadPollErase d now
    DownloadOutcome d (.pollErase now) r.1 (some r.2.1) r.1.context.2 := by
  have hrefused := @DownloadOutcome.refused σ d d.context (.pollErase now) .notReady (by simp)
    (by simp) ⟨by simp,by simp,by simp⟩
  unfold udsDownloadPollErase
  cases he : d.callbacks.erasePoll with
  | none =>
    simp only
    rw [hlog]
    exact hrefused
  | some erasePoll =>
    simp only
    split
    · rw [hlog]
      exact hrefused
    rename_i hstate
    split
    · obtain ⟨c,ha,hc⟩ := abort_logged h
      simp only
      rw [ha,hc,hlog]
      exact .stopped c _ _ _ d.metadata.crcValid (by simp) (by simp) (Or.inl rfl)
    · obtain ⟨c,hk,hc⟩ := kick_logged h
      have hanswer := h.erasePoll _ he c
      rw [hc,hlog,List.nil_append] at hanswer
      simp only
      rw [hk]
      by_cases hresult : (erasePoll c).2 = .ok
      · rw [if_pos hresult,hanswer,hresult]
        exact .erased _ now (not_not.mp hstate)
      · rw [if_neg hresult,hanswer]
        exact .polled _ now _ hresult

theorem write_outcome (h : Logs d.callbacks) (hlog : d.context.2 = []) (block : UInt8)
    (data : List UInt8) (now : UInt32) :
    let r := udsDownloadWrite d block data now
    DownloadOutcome d (.write block data now) r.1 (some r.2.1) r.1.context.2 := by
  have hrefused : ∀ result : UdsDownloadResult,
      result ≠ .ok ∧ result ≠ .timeout ∧ result ≠ .verifyError →
      DownloadOutcome d (.write block data now) d (some result) d.context.2 := by
    intro result hresult
    rw [hlog]
    exact .refused d.context _ result (by simp) (by simp) hresult
  unfold udsDownloadWrite
  cases hp : d.callbacks.program with
  | none => exact hrefused .notReady (by simp)
  | some program =>
    simp only
    split
    · exact hrefused .notReady (by simp)
    rename_i hready
    simp only [not_or,Nat.not_lt,not_not] at hready
    split
    · obtain ⟨c,ha,hc⟩ := abort_logged h
      simp only
      rw [ha,hc,hlog]
      exact .stopped c _ _ _ d.metadata.crcValid (by simp) (by simp) (Or.inl rfl)
    rename_i htime
    split
    · exact hrefused .sequenceError (by simp)
    rename_i hblock
    split
    · exact hrefused .overflow (by simp)
    rename_i hroom
    have hreach : ReachesAlignment d block data now :=
      ⟨by simp [hp],hready.1,hready.2.1,hready.2.2,by simpa using htime,not_not.mp hblock,
        UInt32.not_lt.mp hroom⟩
    split
    · exact hrefused .alignmentError (by simp)
    have hanswer := h.program _ hp d.context (d.metadata.imageAddress+d.metadata.receivedLength)
      data
    rw [hlog,List.nil_append] at hanswer
    split
    · rename_i hresult
      rw [hanswer]
      exact .programFailed _ block data now _ hreach hresult
    · rename_i hresult
      rw [not_not.mp hresult] at hanswer
      let taken := chunkTaken d (program d.context
        (d.metadata.imageAddress+d.metadata.receivedLength) data).1 data now
      obtain ⟨c,hk,hc⟩ := @kick_logged σ taken h
      show DownloadOutcome d _ (kickWatchdog taken).1 _ (kickWatchdog taken).1.context.2
      rw [hk,hc]
      show DownloadOutcome d _ (chunkTaken d c data now) _ (program d.context _ data).1.2
      rw [hanswer]
      exact .programmed c block data now hreach

theorem finish_outcome (h : Logs d.callbacks) (hlog : d.context.2 = []) (crc : UInt32)
    (has : Bool) (now : UInt32) :
    let r := udsDownloadFinish d crc has now
    DownloadOutcome d (.finish crc has now) r.1 (some r.2.1) r.1.context.2 := by
  have hrefused := @DownloadOutcome.refused σ d d.context (.finish crc has now) .notReady
    (by simp) (by simp) ⟨by simp,by simp,by simp⟩
  unfold udsDownloadFinish
  cases hv : d.callbacks.verifyImage with
  | none =>
    simp only
    rw [hlog]
    exact hrefused
  | some verifyImage =>
    simp only
    split
    · rw [hlog]
      exact hrefused
    rename_i hready
    simp only [not_or,not_not] at hready
    split
    · obtain ⟨c,ha,hc⟩ := abort_logged h
      simp only
      rw [ha,hc,hlog]
      exact .stopped c _ _ _ d.metadata.crcValid (by simp) (by simp) (Or.inl rfl)
    generalize hcrc : (!has || (d.crc32 ^^^ 0xFFFFFFFF) == crc) = crcValid
    let checked : UdsDownload (Logged σ) :=
      { d with state := .verifying, metadata := { d.metadata with crcValid := crcValid } }
    split
    · obtain ⟨c,ha,hc⟩ := @abort_logged σ checked h
      show DownloadOutcome d _ (udsDownloadAbort checked).1 _ (udsDownloadAbort checked).1.context.2
      rw [ha,hc]
      show DownloadOutcome d _ _ _ d.context.2
      rw [hlog]
      exact .stopped c _ _ _ crcValid (by simp) (by simp) (Or.inl rfl)
    rename_i hvalid
    have hanswer := h.verifyImage _ hv d.context checked.metadata crc has
    rw [hlog,List.nil_append] at hanswer
    split
    · rename_i hresult
      let verified : UdsDownload (Logged σ) :=
        { checked with context := (verifyImage d.context checked.metadata crc has).1 }
      obtain ⟨c,ha,hc⟩ := @abort_logged σ verified h
      show DownloadOutcome d _ (udsDownloadAbort verified).1 _
        (udsDownloadAbort verified).1.context.2
      rw [ha,hc]
      show DownloadOutcome d _ _ _ (verifyImage d.context checked.metadata crc has).1.2
      rw [hanswer]
      exact .stopped c _ _ _ crcValid (by simp) (fun hc => hresult (Option.some.inj hc))
        (Or.inr ⟨_,hresult,rfl⟩)
    · rename_i hresult
      rw [not_not.mp hresult] at hanswer
      obtain rfl : crcValid = true := by simpa using hvalid
      show DownloadOutcome d _ (completed d _) _ (verifyImage d.context checked.metadata crc has).1.2
      rw [hanswer]
      exact .verified _ crc has now hready.1 hready.2

theorem tick_outcome (h : Logs d.callbacks) (hlog : d.context.2 = []) (now : UInt32) :
    let r := udsDownloadTick d now
    DownloadOutcome d (.tick now) r.1 (some r.2.1) r.1.context.2 := by
  unfold udsDownloadTick
  split
  · simp only
    rw [hlog]
    exact .ticked d.context now
  split
  · obtain ⟨c,ha,hc⟩ := abort_logged h
    simp only
    rw [ha,hc,hlog]
    exact .stopped c _ _ _ d.metadata.crcValid (by simp) (by simp) (Or.inl rfl)
  · obtain ⟨c,hk,hc⟩ := kick_logged h
    simp only
    rw [hk,hc,hlog]
    exact .ticked c now

theorem operate_outcome (h : Logs d.callbacks) (hlog : d.context.2 = []) (call : DownloadCall) :
    DownloadOutcome d call (operate d call).1 (operate d call).2 (operate d call).1.context.2 := by
  cases call with
  | begin address length now => exact begin_outcome h hlog address length now
  | pollErase now => exact poll_outcome h hlog now
  | write block data now => exact write_outcome h hlog block data now
  | finish crc has now => exact finish_outcome h hlog crc has now
  | tick now => exact tick_outcome h hlog now
  | abort =>
    obtain ⟨c,ha,hc⟩ := abort_logged h
    simp only [operate]
    rw [ha,hc,hlog]
    exact .stopped c .abort none [] d.metadata.crcValid (by simp) (by simp) (Or.inl rfl)

section Transparent
variable {callbacks : UdsDownloadCallbacks σ}

theorem forget_refusal (h : d.callbacks = logged callbacks) (address length : UInt32) :
    beginRefusal (forget callbacks d) address length = beginRefusal d address length := by
  have h1 : d.callbacks.eraseStart.isNone = callbacks.eraseStart.isNone := by simp [h,logged]
  have h2 : d.callbacks.erasePoll.isNone = callbacks.erasePoll.isNone := by simp [h,logged]
  have h3 : d.callbacks.program.isNone = callbacks.program.isNone := by simp [h,logged]
  have h4 : d.callbacks.verifyImage.isNone = callbacks.verifyImage.isNone := by simp [h,logged]
  unfold beginRefusal
  rw [h1,h2,h3,h4]
  rfl

theorem forget_abort (h : d.callbacks = logged callbacks) :
    forget callbacks (udsDownloadAbort d).1 = (udsDownloadAbort (forget callbacks d)).1 := by
  obtain ⟨_,_,_,_,_,_,_,_⟩ := d
  obtain rfl := h
  unfold udsDownloadAbort
  cases ha : callbacks.abort with
  | none => simp [logged,forget,ha]
  | some abort => simp [logged,forget,ha]

theorem forget_kick (h : d.callbacks = logged callbacks) :
    forget callbacks (kickWatchdog d).1 = (kickWatchdog (forget callbacks d)).1 := by
  obtain ⟨_,_,_,_,_,_,_,_⟩ := d
  obtain rfl := h
  unfold kickWatchdog
  cases hk : callbacks.watchdogKick with
  | none => simp [logged,forget,hk]
  | some watchdogKick => simp [logged,forget,hk]

def Forgets (callbacks : UdsDownloadCallbacks σ)
    (r : UdsDownload (Logged σ) × UdsDownloadResult × List MemoryCall)
    (p : UdsDownload σ × UdsDownloadResult × List MemoryCall) : Prop :=
  forget callbacks r.1 = p.1 ∧ r.2.1 = p.2.1

theorem forget_begin (h : d.callbacks = logged callbacks) (address length now : UInt32) :
    Forgets callbacks (udsDownloadBegin d address length now)
      (udsDownloadBegin (forget callbacks d) address length now) := by
  unfold udsDownloadBegin
  rw [forget_refusal h]
  generalize beginRefusal d address length = refusal
  obtain ⟨_,_,c,_,_,_,_,_⟩ := d
  obtain rfl := h
  cases refusal with
  | some refusal => exact ⟨rfl,rfl⟩
  | none =>
    cases hs : callbacks.eraseStart with
    | none => simp [Forgets,logged,forget,hs]
    | some eraseStart =>
      by_cases hok : (eraseStart c.1 address length).2 = .ok
      · simp [Forgets,logged,forget,hs,hok]
      · simp [Forgets,logged,forget,hs,hok]

theorem forgets_ite {p : Prop} [Decidable p]
    {r r' : UdsDownload (Logged σ) × UdsDownloadResult × List MemoryCall}
    {q q' : UdsDownload σ × UdsDownloadResult × List MemoryCall}
    (h : p → Forgets callbacks r q) (h' : ¬p → Forgets callbacks r' q') :
    Forgets callbacks (if p then r else r') (if p then q else q') := by
  split
  · exact h ‹_›
  · exact h' ‹_›

theorem forget_poll (h : d.callbacks = logged callbacks) (now : UInt32) :
    Forgets callbacks (udsDownloadPollErase d now)
      (udsDownloadPollErase (forget callbacks d) now) := by
  have ha := forget_abort h
  have hk := forget_kick h
  unfold udsDownloadPollErase
  cases hs : callbacks.erasePoll with
  | none => simp [Forgets,logged,forget,hs,h]
  | some erasePoll =>
    have hs1 : d.callbacks.erasePoll = some fun c =>
        (((erasePoll c.1).1,c.2++[.erasePoll (erasePoll c.1).2]),(erasePoll c.1).2) := by
      simp [h,logged,hs]
    have hs2 : (forget callbacks d).callbacks.erasePoll = some erasePoll := hs
    rw [hs1,hs2]
    apply forgets_ite
    · exact fun _ => ⟨rfl,rfl⟩
    intro _
    apply forgets_ite
    · exact fun _ => ⟨ha,rfl⟩
    intro _
    simp only
    rw [← hk]
    by_cases hok : (erasePoll (kickWatchdog d).1.context.1).2 = .ok
    · simp [Forgets,forget,hok]
    · simp [Forgets,forget,hok]

theorem forget_write (h : d.callbacks = logged callbacks) (block : UInt8) (data : List UInt8)
    (now : UInt32) :
    Forgets callbacks (udsDownloadWrite d block data now)
      (udsDownloadWrite (forget callbacks d) block data now) := by
  have ha := forget_abort h
  unfold udsDownloadWrite
  cases hs : callbacks.program with
  | none => simp [Forgets,logged,forget,hs,h]
  | some program =>
    have hs1 : d.callbacks.program = some fun c address data =>
        (((program c.1 address data).1,
          c.2++[.program address data (program c.1 address data).2]),
          (program c.1 address data).2) := by simp [h,logged,hs]
    have hs2 : (forget callbacks d).callbacks.program = some program := hs
    rw [hs1,hs2]
    apply forgets_ite
    · exact fun _ => ⟨rfl,rfl⟩
    intro _
    apply forgets_ite
    · exact fun _ => ⟨ha,rfl⟩
    intro _
    apply forgets_ite
    · exact fun _ => ⟨rfl,rfl⟩
    intro _
    apply forgets_ite
    · exact fun _ => ⟨rfl,rfl⟩
    intro _
    apply forgets_ite
    · exact fun _ => ⟨rfl,rfl⟩
    intro _
    apply forgets_ite
    · exact fun _ => ⟨rfl,rfl⟩
    intro _
    exact ⟨@forget_kick σ (chunkTaken d _ data now) callbacks h,rfl⟩

theorem forget_finish (h : d.callbacks = logged callbacks) (crc : UInt32) (has : Bool)
    (now : UInt32) :
    Forgets callbacks (udsDownloadFinish d crc has now)
      (udsDownloadFinish (forget callbacks d) crc has now) := by
  have ha := forget_abort h
  unfold udsDownloadFinish
  cases hs : callbacks.verifyImage with
  | none => simp [Forgets,logged,forget,hs,h]
  | some verifyImage =>
    have hs1 : d.callbacks.verifyImage = some fun c metadata crc has =>
        (((verifyImage c.1 metadata crc has).1,
          c.2++[.verifyImage (verifyImage c.1 metadata crc has).2]),
          (verifyImage c.1 metadata crc has).2) := by simp [h,logged,hs]
    have hs2 : (forget callbacks d).callbacks.verifyImage = some verifyImage := hs
    rw [hs1,hs2]
    apply forgets_ite
    · exact fun _ => ⟨rfl,rfl⟩
    intro _
    apply forgets_ite
    · exact fun _ => ⟨ha,rfl⟩
    intro _
    apply forgets_ite
    · exact fun _ => ⟨@forget_abort σ { d with state := .verifying, metadata := _ } callbacks h,rfl⟩
    intro _
    apply forgets_ite
    · exact fun _ => ⟨@forget_abort σ { d with context := _, state := .verifying, metadata := _ }
        callbacks h,rfl⟩
    · exact fun _ => ⟨rfl,rfl⟩

theorem forget_tick (h : d.callbacks = logged callbacks) (now : UInt32) :
    Forgets callbacks (udsDownloadTick d now) (udsDownloadTick (forget callbacks d) now) := by
  unfold udsDownloadTick
  apply forgets_ite
  · exact fun _ => ⟨rfl,rfl⟩
  intro _
  apply forgets_ite
  · exact fun _ => ⟨forget_abort h,rfl⟩
  · exact fun _ => ⟨forget_kick h,rfl⟩

theorem forget_operate (h : d.callbacks = logged callbacks) (call : DownloadCall) :
    forget callbacks (operate d call).1 = (operate (forget callbacks d) call).1 ∧
      (operate d call).2 = (operate (forget callbacks d) call).2 := by
  have hsome : ∀ {r : UdsDownload (Logged σ) × UdsDownloadResult × List MemoryCall}
      {p : UdsDownload σ × UdsDownloadResult × List MemoryCall}, Forgets callbacks r p →
      forget callbacks r.1 = p.1 ∧ some r.2.1 = some p.2.1 := fun h => ⟨h.1,congrArg some h.2⟩
  cases call with
  | begin address length now => exact hsome (forget_begin h address length now)
  | pollErase now => exact hsome (forget_poll h now)
  | write block data now => exact hsome (forget_write h block data now)
  | finish crc has now => exact hsome (forget_finish h crc has now)
  | tick now => exact hsome (forget_tick h now)
  | abort => exact ⟨forget_abort h,rfl⟩

theorem outcome_fixed {next : UdsDownload (Logged σ)} {call : DownloadCall}
    {result : Option UdsDownloadResult} {answers : List MemoryAnswer}
    (h : DownloadOutcome d call next result answers) :
    next.memory = d.memory ∧ next.callbacks = d.callbacks := by
  cases h <;> exact ⟨rfl,rfl⟩

theorem outcome_cleared {next : UdsDownload (Logged σ)} {call : DownloadCall}
    {result : Option UdsDownloadResult} {answers : List MemoryAnswer}
    (h : DownloadOutcome { d with context := (d.context.1,[]) } call next result answers) :
    DownloadOutcome d call next result answers := by
  cases h with
  | refused c _ result hcall hbegin hresult => exact .refused c call result hcall hbegin hresult
  | ticked c now => exact .ticked c now
  | eraseFailed c address length now result hpassed hanswer hresult =>
    exact .eraseFailed c address length now result hpassed hanswer hresult
  | begun c address length now hpassed hanswer =>
    exact .begun c address length now hpassed hanswer
  | polled c now result hresult => exact .polled c now result hresult
  | erased c now hstate => exact .erased c now hstate
  | programFailed c block data now result hreach hresult =>
    exact .programFailed c block data now result hreach hresult
  | programmed c block data now hreach => exact .programmed c block data now hreach
  | verified c crc has now hstate hlength => exact .verified c crc has now hstate hlength
  | stopped c _ _ _ crcValid hcall hresult hanswers =>
    exact .stopped c call result answers crcValid hcall hresult hanswers

theorem record_outcome (h : Logs d.callbacks) (call : DownloadCall) :
    ∃ result answers, (recordStep d call).2 = [⟨call,result,answers,divisors d call⟩] ∧
      DownloadOutcome d call (recordStep d call).1 result answers :=
  ⟨_,_,rfl,outcome_cleared (@operate_outcome σ { d with context := (d.context.1,[]) } h rfl call)⟩

theorem record_fixed (h : Logs d.callbacks) (call : DownloadCall) :
    (recordStep d call).1.memory = d.memory ∧ (recordStep d call).1.callbacks = d.callbacks := by
  obtain ⟨_,_,_,ho⟩ := record_outcome h call
  exact outcome_fixed ho

/-- The recorded machine runs as the machine it records. -/
theorem forget_run (h : d.callbacks = logged callbacks) (calls : List DownloadCall) :
    forget callbacks (run recordStep d calls).1 = (run downloadStep (forget callbacks d) calls).1 := by
  induction calls generalizing d with
  | nil => rfl
  | cons call calls ih =>
    have hfixed := (record_fixed (h ▸ logged_logs callbacks) call).2
    have hstep := (@forget_operate σ { d with context := (d.context.1,[]) } callbacks h call).1
    rw [run_cons,run_cons,ih (hfixed.trans h)]
    show (run downloadStep (forget callbacks (operate _ call).1) calls).1 = _
    rw [hstep,operate_step]
    rfl

end Transparent

def recorded {σ : Type} (d : UdsDownload σ) : UdsDownload (Logged σ) where
  memory := d.memory
  callbacks := logged d.callbacks
  context := (d.context,[])
  state := d.state
  metadata := d.metadata
  expectedBlock := d.expectedBlock
  deadlineMs := d.deadlineMs
  crc32 := d.crc32

theorem plain_outcome {σ : Type} (d : UdsDownload σ) (call : DownloadCall) :
    ∃ next answers, DownloadOutcome (recorded d) call next (operate d call).2 answers ∧
      (operate d call).1 = forget d.callbacks next := by
  have ho := @operate_outcome σ (recorded d) (logged_logs d.callbacks) rfl call
  obtain ⟨hnext,hresult⟩ := @forget_operate σ (recorded d) d.callbacks rfl call
  rw [hresult] at ho
  exact ⟨_,_,ho,hnext.symm⟩

end Recording
end CanopenReference.DownloadRecords
