import CanopenReference.DownloadRecords

/-!
# Pending activation and the staged image

A pending activation refers to an intact image when nothing was erased or
programmed since the finish that set it. A begin calls `erase_start` before it
clears the flag, and returns early when the erase does not start.
-/

set_option autoImplicit false

namespace CanopenReference.DownloadActivation
open Library Library.Runs Download DownloadSafety DownloadRecords

/-- The operation has called `erase_start` or `program`. -/
def Touches (r : DownloadRecord) : Prop :=
  (∃ address length result, MemoryAnswer.eraseStart address length result ∈ r.answers) ∨
    ∃ address data result, MemoryAnswer.program address data result ∈ r.answers

/-- A successful finish, with a successful verification. -/
def Finishes (r : DownloadRecord) : Prop :=
  (∃ crc has now, r.call = .finish crc has now) ∧ r.result = some .ok ∧
    r.answers = [.verifyImage .ok]

section Invariant
variable {σ : Type}

/-- While activation is pending, the staging memory has not been touched since
a successful finish. -/
def Intact (d : UdsDownload (Logged σ)) (history : List DownloadRecord) : Prop :=
  d.metadata.activationPending = true → ∃ before r after, history = before++r::after ∧
    Finishes r ∧ ∀ x ∈ after, ¬Touches x

/-- A begin that passes its checks while activation is pending gets its erase. -/
def ErasesPending (d : UdsDownload (Logged σ)) : DownloadCall → Prop
  | .begin address length _ =>
    d.metadata.activationPending = true → beginRefusal d address length = none →
      eraseAnswer d address length = some .ok
  | _ => True

structure Settled (d : UdsDownload (Logged σ)) : Prop where
  logs : Logs d.callbacks
  pending : d.state = .erasing ∨ d.state = .receiving → d.metadata.activationPending = false

theorem settled_step {d : UdsDownload (Logged σ)} (h : Settled d) (call : DownloadCall) :
    Settled (recordStep d call).1 := by
  obtain ⟨_,_,_,ho⟩ := record_outcome h.logs call
  generalize (recordStep d call).1 = next at ho
  cases ho with
  | begun c address length now hpassed hanswer => exact ⟨h.logs,fun _ => rfl⟩
  | erased c now hstate => exact ⟨h.logs,fun _ => h.pending (Or.inl hstate)⟩
  | verified c crc has now hstate hlength => exact ⟨h.logs,by simp [completed]⟩
  | stopped c _ _ _ crcValid hcall hresult hanswers => exact ⟨h.logs,by simp⟩
  | _ => exact ⟨h.logs,h.pending⟩

theorem intact_untouched {d : UdsDownload (Logged σ)} {history : List DownloadRecord}
    {r : DownloadRecord} (h : Intact d history) (hr : ¬Touches r) : Intact d (history++[r]) := by
  intro hp
  obtain ⟨before,x,after,rfl,hx,hafter⟩ := h hp
  refine ⟨before,x,after++[r],by simp,hx,fun y hy => ?_⟩
  rcases List.mem_append.mp hy with hy | hy
  · exact hafter y hy
  · rw [List.mem_singleton.mp hy]
    exact hr

theorem touched_not_intact {d : UdsDownload (Logged σ)} {history : List DownloadRecord}
    {r : DownloadRecord} (hp : d.metadata.activationPending = true) (hr : Touches r)
    (hfinish : ¬Finishes r) : ¬Intact d (history++[r]) := by
  intro h
  obtain ⟨before,x,after,hsplit,hx,hafter⟩ := h hp
  rcases concat_split hsplit with ⟨_,rfl,_⟩ | ⟨after',rfl,_⟩
  · exact hfinish hx
  · exact hafter r (by simp) hr

theorem intact_step {d : UdsDownload (Logged σ)} {history : List DownloadRecord}
    (hs : Settled d) (h : Intact d history) (call : DownloadCall) :
    Intact (recordStep d call).1 (history++(recordStep d call).2) ↔ ErasesPending d call := by
  obtain ⟨result,answers,hr,ho⟩ := record_outcome hs.logs call
  rw [hr]
  generalize (recordStep d call).1 = next at ho
  cases ho with
  | refused c _ result hcall hbegin hresult =>
    refine iff_of_true (intact_untouched h (by simp [Touches])) ?_
    cases call with
    | begin address length now => exact fun _ hn => absurd hn (hbegin _ _ _ rfl)
    | _ => trivial
  | ticked c now => exact iff_of_true (intact_untouched h (by simp [Touches])) trivial
  | eraseFailed c address length now result hpassed hanswer hresult =>
    by_cases hp : d.metadata.activationPending = true
    · refine iff_of_false (touched_not_intact hp ?_ (by simp [Finishes])) fun hc => ?_
      · exact Or.inl ⟨address,length,result,List.mem_singleton_self _⟩
      · exact hresult (Option.some.inj (hanswer.symm.trans (hc hp hpassed)))
    · exact iff_of_true (fun hn => absurd hn hp) (fun hn => absurd hn hp)
  | begun c address length now hpassed hanswer =>
    exact iff_of_true (fun hn => by simp [started] at hn) (fun _ _ => hanswer)
  | polled c now result hresult =>
    exact iff_of_true (intact_untouched h (by simp [Touches])) trivial
  | erased c now hstate =>
    exact iff_of_true (intact_untouched h (by simp [Touches])) trivial
  | programFailed c block data now result hreach hresult =>
    have hp := hs.pending (Or.inr hreach.2.2.2.1)
    exact iff_of_true (fun hn => by simp [hp] at hn) trivial
  | programmed c block data now hreach =>
    have hp := hs.pending (Or.inr hreach.2.2.2.1)
    exact iff_of_true (fun hn => by simp [chunkTaken,hp] at hn) trivial
  | verified c crc has now hstate hlength =>
    refine iff_of_true (fun _ => ?_) trivial
    exact ⟨history,_,[],rfl,⟨⟨crc,has,now,rfl⟩,rfl,rfl⟩,by simp⟩
  | stopped c _ _ _ crcValid hcall hresult hanswers =>
    refine iff_of_true (fun hn => by simp at hn) ?_
    cases call with
    | begin address length now => exact absurd rfl (hcall address length now)
    | _ => trivial

theorem init_settled (memory : Option UdsDownloadMemoryMap)
    (callbacks : Option (UdsDownloadCallbacks σ)) (context : σ) :
    Settled (udsDownloadInit memory (callbacks.map logged) (context,[])) :=
  ⟨init_logs memory callbacks context,fun _ => rfl⟩

/-- A pending activation refers to an intact image in every state of a run
exactly when each begin that passes its checks meanwhile gets its erase. -/
theorem activation_intact (memory : Option UdsDownloadMemoryMap)
    (callbacks : Option (UdsDownloadCallbacks σ)) (context : σ) (calls : List DownloadCall) :
    (∀ n, Intact
      (run recordStep (udsDownloadInit memory (callbacks.map logged) (context,[]))
        (calls.take n)).1
      (run recordStep (udsDownloadInit memory (callbacks.map logged) (context,[]))
        (calls.take n)).2) ↔
    Along recordStep ErasesPending (udsDownloadInit memory (callbacks.map logged) (context,[]))
      calls :=
  along_iff_states recordStep ErasesPending (fun d _ => Settled d) Intact
    (fun _ _ call h => settled_step h call) (fun _ _ call hs h => intact_step hs h call) _ [] calls
    (init_settled memory callbacks context) (fun hp => by simp [udsDownloadInit,noMetadata] at hp)

end Invariant

/-- A memory that starts one erase and refuses every later one. -/
def onceErased : UdsDownloadCallbacks Bool where
  eraseStart := some fun worn _ _ => (true,if worn then .eraseError else .ok)
  erasePoll := some fun worn => (worn,.ok)
  program := some fun worn _ _ => (worn,.ok)
  verifyImage := some fun worn _ _ _ => (worn,.ok)
  abort := none
  watchdogKick := none

/-- A complete download of four bytes and a second begin, whose erase fails. -/
def refusedErase : List DownloadCall :=
  [.begin 0x08080000 4 0,.pollErase 0,.write 1 [1,2,3,4] 0,.finish 0 false 0,
    .begin 0x08080000 4 0]

/-- After the failed begin the activation is still pending, and the last call
recorded is its `erase_start`. -/
theorem pending_after_failed_begin :
    let r := run recordStep (udsDownloadInit (some referenceMemory)
      (some (logged onceErased)) (false,[])) refusedErase
    r.1.metadata.activationPending = true ∧ ¬Intact r.1 r.2 := by
  have hp : (run recordStep (udsDownloadInit (some referenceMemory) (some (logged onceErased))
      (false,[])) refusedErase).1.metadata.activationPending = true := by decide +kernel
  refine ⟨hp,?_⟩
  rw [refusedErase,show ∀ a b c d e : DownloadCall, [a,b,c,d,e] = [a,b,c,d]++[e] from
    fun _ _ _ _ _ => rfl,run_concat] at hp ⊢
  refine touched_not_intact hp (Or.inl ⟨0x08080000,4,.eraseError,?_⟩) ?_
  · decide +kernel
  · rintro ⟨⟨_,_,_,hc⟩,_⟩
    cases hc

end CanopenReference.DownloadActivation
