import CanopenReference.DownloadRecords

/-!
# What a completed download has delivered

The records since the last successful begin are read as one transfer. Its
programmed chunks tile the announced range, they are the accepted blocks, and
no chunk is programmed once a transfer has been aborted.
-/

set_option autoImplicit false

namespace CanopenReference.DownloadIntegrity
open Library Library.Runs Download DownloadSafety DownloadRecords

structure Transfer where
  address : UInt32
  length : UInt32
  records : List DownloadRecord

def begins (r : DownloadRecord) : Option (UInt32 × UInt32) :=
  match r.call, r.result with
  | .begin address length _, some .ok => some (address,length)
  | _, _ => none

def continued (t : Option Transfer) (r : DownloadRecord) : Option Transfer :=
  match begins r with
  | some (address,length) => some ⟨address,length,[]⟩
  | none => t.map fun t => { t with records := t.records++[r] }

/-- The transfer that the last successful begin opened. -/
def sinceBegin (history : List DownloadRecord) : Option Transfer :=
  history.foldl continued none

theorem since_begin_concat (history : List DownloadRecord) (r : DownloadRecord) :
    sinceBegin (history++[r]) = continued (sinceBegin history) r := by
  simp [sinceBegin]

def programmedChunk : MemoryAnswer → Option (UInt32 × List UInt8)
  | .program address data .ok => some (address,data)
  | _ => none

def programmed (records : List DownloadRecord) : List (UInt32 × List UInt8) :=
  (records.flatMap fun r => r.answers).filterMap programmedChunk

def acceptedBlock (r : DownloadRecord) : Option (UInt8 × List UInt8) :=
  match r.call, r.result with
  | .write block data _, some .ok => some (block,data)
  | _, _ => none

/-- The blocks that write calls have accepted, with their counters. -/
def accepted (records : List DownloadRecord) : List (UInt8 × List UInt8) :=
  records.filterMap acceptedBlock

/-- Chunks one behind the other from `start` to `stop`, none of them empty. -/
def Tiles : ℕ → List (UInt32 × List UInt8) → ℕ → Prop
  | start, [], stop => start = stop
  | start, chunk::chunks, stop =>
    chunk.1.toNat = start ∧ chunk.2 ≠ [] ∧ Tiles (start+chunk.2.length) chunks stop

def countersTo (n : ℕ) : List UInt8 := (List.range n).map fun k => UInt8.ofNat (k+1)

/-- The accepted blocks, counted from 1, have been programmed from `start` up
to `stop`. -/
structure Written (start stop : ℕ) (records : List DownloadRecord) : Prop where
  covered : Tiles start (programmed records) stop
  content : (programmed records).map Prod.snd = (accepted records).map Prod.snd
  counters : (accepted records).map Prod.fst = countersTo (accepted records).length

structure Delivered (t : Transfer) : Prop where
  written : Written t.address.toNat (t.address.toNat+t.length.toNat) t.records
  verified : ∃ before r after, t.records = before++r::after ∧
    MemoryAnswer.verifyImage .ok ∈ r.answers ∧ programmed (r::after) = []

/-- The operation aborts: on request, at the deadline, on a wrong checksum or
on a failed verification. -/
def Aborts (r : DownloadRecord) : Prop :=
  r.call = .abort ∨
    (r.result = some .timeout ∨ r.result = some .verifyError) ∧ r.answers = [] ∨
    ∃ result, result ≠ .ok ∧ r.answers = [.verifyImage result]

def Programs (r : DownloadRecord) : Prop :=
  ∃ address data result, MemoryAnswer.program address data result ∈ r.answers

/-- A begin has succeeded and nothing has aborted since. -/
def Opened (history : List DownloadRecord) : Prop :=
  ∃ earlier b later, history = earlier++b::later ∧ (begins b).isSome = true ∧
    ∀ x ∈ later, ¬Aborts x

theorem programmed_append (a b : List DownloadRecord) :
    programmed (a++b) = programmed a++programmed b := by
  simp [programmed]

theorem accepted_append (a b : List DownloadRecord) :
    accepted (a++b) = accepted a++accepted b :=
  List.filterMap_append

theorem tiles_concat {start mid stop : ℕ} {chunks : List (UInt32 × List UInt8)}
    {chunk : UInt32 × List UInt8} (h : Tiles start chunks mid) (hstart : chunk.1.toNat = mid)
    (hdata : chunk.2 ≠ []) (hstop : mid+chunk.2.length = stop) :
    Tiles start (chunks++[chunk]) stop := by
  induction chunks generalizing start with
  | nil =>
    obtain rfl : start = mid := h
    exact ⟨hstart,hdata,hstop⟩
  | cons c chunks ih => exact ⟨h.1,h.2.1,ih h.2.2⟩

theorem counters_concat (n : ℕ) : countersTo n++[UInt8.ofNat (n+1)] = countersTo (n+1) := by
  simp [countersTo,List.range_succ]

theorem opened_concat {history : List DownloadRecord} {r : DownloadRecord} (h : Opened history)
    (hr : ¬Aborts r) : Opened (history++[r]) := by
  obtain ⟨earlier,b,later,rfl,hb,hlater⟩ := h
  refine ⟨earlier,b,later++[r],by simp,hb,fun x hx => ?_⟩
  rcases List.mem_append.mp hx with hx | hx
  · exact hlater x hx
  · rw [List.mem_singleton.mp hx]
    exact hr

section Invariant
variable {σ : Type}

structure Underway (metadata : UdsDownloadMetadata) (expectedBlock : UInt8)
    (programAlignment : UInt32) (t : Transfer) : Prop where
  address : t.address = metadata.imageAddress
  length : t.length = metadata.imageLength
  fits : t.address.toNat+t.length.toNat < 2^32
  received : metadata.receivedLength.toNat ≤ metadata.imageLength.toNat
  written : Written t.address.toNat (t.address.toNat+metadata.receivedLength.toNat) t.records
  expected : expectedBlock = UInt8.ofNat ((accepted t.records).length+1)
  alignment : programAlignment ≠ 0

structure Tracks (d : UdsDownload (Logged σ)) (history : List DownloadRecord) : Prop where
  logs : Logs d.callbacks
  underway : d.state = .erasing ∨ d.state = .receiving → Opened history ∧
    ∃ t, sinceBegin history = some t ∧
      Underway d.metadata d.expectedBlock d.memory.programAlignment t
  complete : d.state = .complete → ∃ t, sinceBegin history = some t ∧ Delivered t
  divisors : ∀ r ∈ history, 0 ∉ r.divisors
  order : Always (fun before r => Programs r → Opened before) history

structure Idle (r : DownloadRecord) : Prop where
  begins : begins r = none
  accepted : acceptedBlock r = none
  programmed : programmed [r] = []

theorem idle_programmed {r : DownloadRecord} (h : Idle r) (records : List DownloadRecord) :
    programmed (records++[r]) = programmed records := by
  rw [programmed_append,h.programmed,List.append_nil]

theorem idle_accepted {r : DownloadRecord} (h : Idle r) (records : List DownloadRecord) :
    accepted (records++[r]) = accepted records := by
  rw [accepted_append,show accepted [r] = [] by simp [accepted,h.accepted],List.append_nil]

theorem idle_written {start stop : ℕ} {records : List DownloadRecord} {r : DownloadRecord}
    (h : Written start stop records) (hr : Idle r) : Written start stop (records++[r]) := by
  have hp := idle_programmed hr records
  have ha := idle_accepted hr records
  constructor
  · rw [hp]
    exact h.covered
  · rw [hp,ha]
    exact h.content
  · rw [ha]
    exact h.counters

theorem idle_underway {metadata : UdsDownloadMetadata} {block : UInt8} {alignment : UInt32}
    {t : Transfer} {r : DownloadRecord} (h : Underway metadata block alignment t) (hr : Idle r) :
    Underway metadata block alignment { t with records := t.records++[r] } := by
  refine ⟨h.address,h.length,h.fits,h.received,idle_written h.written hr,?_,h.alignment⟩
  rw [h.expected,idle_accepted hr]

theorem idle_delivered {t : Transfer} {r : DownloadRecord} (h : Delivered t) (hr : Idle r) :
    Delivered { t with records := t.records++[r] } := by
  obtain ⟨before,x,after,hsplit,hx,hrest⟩ := h.verified
  refine ⟨idle_written h.written hr,before,x,after++[r],by simp [hsplit],hx,?_⟩
  rw [← List.cons_append,idle_programmed hr,hrest]

theorem idle_continued {t : Transfer} {history : List DownloadRecord} {r : DownloadRecord}
    (h : sinceBegin history = some t) (hr : Idle r) :
    sinceBegin (history++[r]) = some { t with records := t.records++[r] } := by
  rw [since_begin_concat,continued,h,hr.begins]
  rfl

theorem not_begins {r : DownloadRecord} (h : r.result ≠ some .ok) :
    begins r = none := by
  unfold begins
  split
  · rename_i hr
    exact absurd hr h
  · rfl

theorem not_accepted {r : DownloadRecord} (h : r.result ≠ some .ok) : acceptedBlock r = none := by
  unfold acceptedBlock
  split
  · rename_i hr
    exact absurd hr h
  · rfl

theorem not_chunk {address : UInt32} {data : List UInt8} {result : UdsDownloadResult}
    (h : result ≠ .ok) : programmedChunk (.program address data result) = none := by
  cases result with
  | ok => exact absurd rfl h
  | _ => rfl

def blockRecord (d : UdsDownload (Logged σ)) (block : UInt8) (data : List UInt8) (now : UInt32)
    (divisors : List UInt32) : DownloadRecord :=
  ⟨.write block data now,some .ok,
    [.program (d.metadata.imageAddress+d.metadata.receivedLength) data .ok],divisors⟩

theorem block_underway {d : UdsDownload (Logged σ)} {t : Transfer} {block : UInt8}
    {data : List UInt8} {now : UInt32}
    (h : Underway d.metadata d.expectedBlock d.memory.programAlignment t)
    (hreach : ReachesAlignment d block data now) (c : Logged σ) (divisors : List UInt32) :
    Underway (chunkTaken d c data now).metadata (chunkTaken d c data now).expectedBlock
      (chunkTaken d c data now).memory.programAlignment
      { t with records := t.records++[blockRecord d block data now divisors] } := by
  obtain ⟨_,hpos,hmax,_,_,hblock,hroom⟩ := hreach
  obtain ⟨hnext,hfit⟩ := chunk_fits hmax h.received (UInt32.not_lt.mpr hroom)
  have hstart : (d.metadata.imageAddress+d.metadata.receivedLength).toNat =
      t.address.toNat+d.metadata.receivedLength.toNat := by
    rw [UInt32.toNat_add,← h.address]
    apply Nat.mod_eq_of_lt
    have := h.fits
    have := congrArg UInt32.toNat h.length
    omega
  have hp : programmed [blockRecord d block data now divisors] =
      [(d.metadata.imageAddress+d.metadata.receivedLength,data)] := rfl
  have ha : accepted [blockRecord d block data now divisors] = [(block,data)] := rfl
  refine ⟨h.address,h.length,h.fits,?_,⟨?_,?_,?_⟩,?_,h.alignment⟩
  · show (d.metadata.receivedLength+UInt32.ofNat data.length).toNat ≤ _
    rw [hnext]
    exact hfit
  · show Tiles _ (programmed (t.records++[_]))
      (t.address.toNat+(d.metadata.receivedLength+UInt32.ofNat data.length).toNat)
    rw [programmed_append,hp,hnext,← Nat.add_assoc]
    exact tiles_concat h.written.covered hstart
      (fun hd => hpos (List.length_eq_zero_iff.mpr hd)) rfl
  · rw [programmed_append,hp,accepted_append,ha,List.map_append,List.map_append,
      h.written.content]
    rfl
  · rw [accepted_append,ha,List.map_append,h.written.counters,List.length_append,hblock,
      h.expected]
    exact counters_concat _
  · rw [accepted_append,ha,List.length_append]
    show d.expectedBlock+1 = _
    rw [h.expected]
    simp

theorem verified_delivered {metadata : UdsDownloadMetadata} {block : UInt8} {alignment : UInt32}
    {t : Transfer} {r : DownloadRecord} (h : Underway metadata block alignment t) (hr : Idle r)
    (hfull : metadata.receivedLength = metadata.imageLength)
    (hverify : MemoryAnswer.verifyImage .ok ∈ r.answers) :
    Delivered { t with records := t.records++[r] } := by
  have hw := h.written
  rw [hfull,← h.length] at hw
  exact ⟨idle_written hw hr,t.records,r,[],rfl,hverify,hr.programmed⟩

theorem tracks_idle {d : UdsDownload (Logged σ)} {history : List DownloadRecord}
    {r : DownloadRecord} (h : Tracks d history) (hr : Idle r) (hstays : ¬Aborts r)
    (hdivisors : 0 ∉ r.divisors) (horder : Programs r → Opened history) (c : Logged σ) :
    Tracks { d with context := c } (history++[r]) := by
  refine ⟨h.logs,fun hs => ?_,fun hs => ?_,fun x hx => ?_,always_concat h.order horder⟩
  · obtain ⟨hopened,t,ht,hu⟩ := h.underway hs
    exact ⟨opened_concat hopened hstays,_,idle_continued ht hr,idle_underway hu hr⟩
  · obtain ⟨t,ht,hd⟩ := h.complete hs
    exact ⟨_,idle_continued ht hr,idle_delivered hd hr⟩
  · rcases List.mem_append.mp hx with hx | hx
    · exact h.divisors x hx
    · rw [List.mem_singleton.mp hx]
      exact hdivisors

theorem either_divisors {t u : Test} (ht : 0 ∉ t.divisors) (hu : 0 ∉ u.divisors) :
    0 ∉ (t.either u).divisors := by
  unfold Test.either
  split
  · exact ht
  · rw [List.mem_append,not_or]
    exact ⟨ht,hu⟩

theorem divisors_nonzero {d : UdsDownload (Logged σ)} {history : List DownloadRecord}
    (h : Tracks d history) (call : DownloadCall) : 0 ∉ divisors d call := by
  have haligned : ∀ value alignment, 0 ∉ (Test.aligned value alignment).divisors := by
    intro value alignment
    unfold Test.aligned
    split
    · rename_i hne
      exact fun hz => hne (List.mem_singleton.mp hz).symm
    · simp
  cases call with
  | begin address length now =>
    exact either_divisors (haligned _ _) (either_divisors (haligned _ _) (haligned _ _))
  | write block data now =>
    simp only [divisors]
    split
    · rename_i hpast
      obtain ⟨_,t,_,hu⟩ := h.underway (Or.inr (past_alignment hpast).2.2.2.1)
      have hdivisor : 0 ∉ [d.memory.programAlignment] :=
        fun hz => hu.alignment (List.mem_singleton.mp hz).symm
      exact either_divisors hdivisor hdivisor
    · simp
  | pollErase _ | finish _ _ _ | tick _ | abort => simp [divisors]

theorem passed_underway {d : UdsDownload (Logged σ)} {address length : UInt32}
    (hpassed : beginRefusal d address length = none) (c : Logged σ) (now : UInt32) :
    Underway (started d c address length now).metadata (started d c address length now).expectedBlock
      (started d c address length now).memory.programAlignment ⟨address,length,[]⟩ := by
  have hp := begin_passed hpassed
  have hfits : (address+length).toNat = address.toNat+length.toNat := no_wrap hp.noWrap
  refine ⟨rfl,rfl,?_,Nat.zero_le _,⟨?_,rfl,rfl⟩,rfl,?_⟩
  · show address.toNat+length.toNat < 2^32
    rw [← hfits]
    exact (address+length).toNat_lt
  · show address.toNat = address.toNat+(0:UInt32).toNat
    simp
  · show d.memory.programAlignment ≠ 0
    exact ((aligned_iff _ _).mp hp.addressAligned).1

theorem tracks_step {d : UdsDownload (Logged σ)} {history : List DownloadRecord}
    (h : Tracks d history) (call : DownloadCall) :
    Tracks (recordStep d call).1 (history++(recordStep d call).2) := by
  have hdivisors := divisors_nonzero h call
  obtain ⟨result,answers,hr,ho⟩ := record_outcome h.logs call
  rw [hr]
  generalize (recordStep d call).1 = next at ho
  have hall : ∀ {r : DownloadRecord}, 0 ∉ r.divisors → ∀ x ∈ history++[r], 0 ∉ x.divisors := by
    intro r hd x hx
    rcases List.mem_append.mp hx with hx | hx
    · exact h.divisors x hx
    · rw [List.mem_singleton.mp hx]
      exact hd
  cases ho with
  | refused c _ result hcall hbegin hresult =>
    refine tracks_idle h ⟨?_,?_,rfl⟩ ?_ hdivisors (by simp [Programs]) c
    · exact not_begins (by simp [hresult])
    · exact not_accepted (by simp [hresult])
    · simp [Aborts,hcall,hresult]
  | ticked c now =>
    exact tracks_idle h ⟨rfl,rfl,rfl⟩ (by simp [Aborts]) hdivisors (by simp [Programs]) c
  | eraseFailed c address length now result hpassed hanswer hresult =>
    refine tracks_idle h ⟨?_,rfl,rfl⟩ (by simp [Aborts]) hdivisors (by simp [Programs]) c
    exact not_begins (by simp [hresult])
  | begun c address length now hpassed hanswer =>
    refine ⟨h.logs,fun _ => ⟨?_,?_⟩,by simp [started],hall hdivisors,
      always_concat h.order (by simp [Programs])⟩
    · exact ⟨history,_,[],rfl,rfl,by simp⟩
    · refine ⟨⟨address,length,[]⟩,?_,passed_underway hpassed c now⟩
      rw [since_begin_concat]
      rfl
  | polled c now result hresult =>
    exact tracks_idle h ⟨rfl,rfl,rfl⟩ (by simp [Aborts]) hdivisors (by simp [Programs]) c
  | erased c now hstate =>
    obtain ⟨hopened,t,ht,hu⟩ := h.underway (Or.inl hstate)
    refine ⟨h.logs,fun _ => ⟨opened_concat hopened (by simp [Aborts]),?_⟩,by simp,hall hdivisors,
      always_concat h.order (by simp [Programs])⟩
    exact ⟨_,idle_continued ht ⟨rfl,rfl,rfl⟩,idle_underway hu ⟨rfl,rfl,rfl⟩⟩
  | programFailed c block data now result hreach hresult =>
    have hopened := (h.underway (Or.inr hreach.2.2.2.1)).1
    refine tracks_idle h ⟨rfl,rfl,?_⟩ (by simp [Aborts]) hdivisors (fun _ => hopened) c
    simp [programmed,not_chunk hresult]
  | programmed c block data now hreach =>
    obtain ⟨hopened,t,ht,hu⟩ := h.underway (Or.inr hreach.2.2.2.1)
    refine ⟨h.logs,fun _ => ⟨opened_concat hopened (by simp [Aborts]),?_⟩,?_,hall hdivisors,
      always_concat h.order (fun _ => hopened)⟩
    · refine ⟨_,?_,block_underway hu hreach c (divisors d (.write block data now))⟩
      rw [since_begin_concat,ht]
      rfl
    · intro hs
      exact absurd (hreach.2.2.2.1.symm.trans hs) (by simp)
  | verified c crc has now hstate hlength =>
    obtain ⟨_,t,ht,hu⟩ := h.underway (Or.inr hstate)
    refine ⟨h.logs,by simp [completed],fun _ => ?_,hall hdivisors,
      always_concat h.order (by simp [Programs])⟩
    exact ⟨_,idle_continued ht ⟨rfl,rfl,rfl⟩,
      verified_delivered hu ⟨rfl,rfl,rfl⟩ hlength (List.mem_singleton_self _)⟩
  | stopped c _ _ _ crcValid hcall hresult hanswers =>
    refine ⟨h.logs,by simp,by simp,hall hdivisors,always_concat h.order ?_⟩
    rintro ⟨address,data,result,hmem⟩
    rcases hanswers with rfl | ⟨_,_,rfl⟩
    · cases hmem
    · simp at hmem

theorem init_tracks (memory : Option UdsDownloadMemoryMap)
    (callbacks : Option (UdsDownloadCallbacks σ)) (context : σ) :
    Tracks (udsDownloadInit memory (callbacks.map logged) (context,[])) [] := by
  exact ⟨init_logs memory callbacks context,by simp [udsDownloadInit],by simp [udsDownloadInit],
    by simp,always_nil⟩

/-- Whatever is called and whatever the callbacks answer: a completed download
has delivered what its begin announced, no remainder is taken by zero, and
nothing is programmed between an abort and the next successful begin. -/
theorem download_integrity (memory : Option UdsDownloadMemoryMap)
    (callbacks : Option (UdsDownloadCallbacks σ)) (context : σ) (calls : List DownloadCall) :
    let r := run recordStep (udsDownloadInit memory (callbacks.map logged) (context,[])) calls
    (r.1.state = .complete → ∃ t, sinceBegin r.2 = some t ∧ Delivered t) ∧
      (∀ x ∈ r.2, 0 ∉ x.divisors) ∧ Always (fun before x => Programs x → Opened before) r.2 := by
  have h := along_history recordStep (fun _ _ => True) Tracks
    (fun _ _ call h _ => tracks_step h call) _ [] calls (init_tracks memory callbacks context)
    (along_true _ _ _)
  rw [List.nil_append] at h
  exact ⟨h.complete,h.divisors,h.order⟩

end Invariant
end CanopenReference.DownloadIntegrity
