import CanopenReference.PortQueue

/-!
# The HAL under the CAN facade

Which handle the HAL is called with, and what it is asked for.
-/

set_option autoImplicit false

namespace CanopenReference.PortHandle
open Library Library.Runs RxRings PortLifecycle PortQueue

/-- The HAL is called with the handle that the port holds, and another one is
refused exactly while it holds one. -/
def Owned (before : List PortRecord) (r : PortRecord) : Prop :=
  (∀ a ∈ r.actions, a.Uses (held before)) ∧
    ∀ handle, r.input = .call (.bind (some handle)) →
      (r.actions = [.returned (.error .ebusy)] ↔ (held before).isSome)

def apb1Clock : ℕ := 54000000

def rateError (bitrate : UInt32) (cycles : ℕ) : ℕ :=
  ((apb1Clock : ℤ)-bitrate.toNat*cycles).natAbs

/-- No other number of cycles comes closer to the bit rate, and it is met within
one per cent, and except for 800 kbit/s exactly. -/
structure Timed (bitrate : UInt32) (fields : CanInit) : Prop where
  closest : ∀ cycles, rateError bitrate fields.cycles*cycles ≤ rateError bitrate cycles*fields.cycles
  near : 100*rateError bitrate fields.cycles ≤ apb1Clock
  exact : bitrate ≠ 800000 → rateError bitrate fields.cycles = 0

theorem timed_exact {bitrate : UInt32} {fields : CanInit}
    (h : bitrate.toNat*fields.cycles = apb1Clock) : Timed bitrate fields := by
  have hzero : rateError bitrate fields.cycles = 0 := by
    unfold rateError
    rw [← h]
    omega
  refine ⟨?_,?_,fun _ => hzero⟩
  · intro cycles
    rw [hzero]
    omega
  · rw [hzero]
    omega

theorem table_timed : ∀ timing ∈ sTimingTable, Timed timing.bitrate (initFields timing) := by
  intro timing ht
  simp only [sTimingTable,List.mem_cons,List.not_mem_nil,or_false] at ht
  rcases ht with rfl | rfl | rfl | rfl | rfl | rfl | rfl | rfl
  case inr.inr.inr.inr.inr.inr.inl =>
    refine ⟨?_,by decide,fun h => absurd rfl h⟩
    intro cycles
    have herror : rateError 800000 (initFields ⟨800000,4,13,3⟩).cycles = 400000 := by decide
    have hcycles : (initFields ⟨800000,4,13,3⟩).cycles = 68 := by decide
    dsimp only
    rw [herror,hcycles]
    unfold rateError apb1Clock
    show _ ≤ ((54000000 : ℕ)-(800000 : ℕ)*(cycles : ℤ)).natAbs*68
    omega
  all_goals exact timed_exact (by decide)

/-- What the HAL is asked for: a bit rate as it was requested, and frames with
standard identifiers and at most eight bytes. -/
def Sound (r : PortRecord) : Prop :=
  ∀ a ∈ r.actions,
    match a with
    | .init _ fields => ∃ bitrate hal, r.input = .call (.init bitrate hal) ∧ Timed bitrate fields
    | .addTxMessage _ stdId dlc _ => stdId ≤ 0x7FF ∧ dlc ≤ 8
    | _ => True

section Lifecycle
variable {p : CanPort} {past : List PortRecord}

theorem call_owned (h : p.hcan = held past) {c : PortCall} {actions : List PortAction}
    (hbind : ∀ handle, c ≠ .bind (some handle)) (hactions : ∀ a ∈ actions, a.Uses p.hcan) :
    Owned past ⟨.call c,actions⟩ := by
  refine ⟨?_,?_⟩
  · rw [← h]
    exact hactions
  · intro handle hi
    injection hi with hi
    exact absurd hi (hbind handle)

theorem bind_owned (h : p.hcan = held past) (hcan : Option ℕ) :
    Owned past ⟨.call (.bind hcan),(stm32Bind p hcan).2⟩ ∧
      Sound ⟨.call (.bind hcan),(stm32Bind p hcan).2⟩ := by
  unfold stm32Bind
  cases hcan with
  | none =>
    refine ⟨call_owned h (fun handle => by simp) ?_,by simp [Sound]⟩
    simp [PortAction.Uses,PortAction.handle]
  | some handle =>
    dsimp only
    rw [h]
    split
    · rename_i hheld
      refine ⟨⟨?_,fun _ _ => iff_of_true rfl hheld⟩,by simp [Sound]⟩
      simp [PortAction.Uses,PortAction.handle]
    · rename_i hfree
      refine ⟨⟨?_,fun _ _ => iff_of_false (by simp) hfree⟩,by simp [Sound]⟩
      simp [PortAction.Uses,PortAction.handle]

theorem init_uses (p : CanPort) (bitrate : UInt32) (hal : InitAnswers) :
    ∀ a ∈ (canPortInit p bitrate hal).2, a.Uses p.hcan := by
  unfold canPortInit
  split
  · simp [PortAction.Uses,PortAction.handle]
  rename_i handle hp
  rw [hp]
  split
  · simp [PortAction.Uses,PortAction.handle]
  split
  · simp [PortAction.Uses,PortAction.handle]
  split
  · simp [PortAction.Uses,PortAction.handle]
  split
  · simp [PortAction.Uses,PortAction.handle]
  · simp [PortAction.Uses,PortAction.handle]

theorem init_sound (p : CanPort) (bitrate : UInt32) (hal : InitAnswers) :
    Sound ⟨.call (.init bitrate hal),(canPortInit p bitrate hal).2⟩ := by
  unfold canPortInit
  split
  · simp [Sound]
  split
  · simp [Sound]
  rename_i timing htiming
  have hmem := List.mem_of_find?_eq_some htiming
  have hrate : timing.bitrate = bitrate := by simpa using List.find?_some htiming
  have htimed : ∃ b h, PortInput.call (.init bitrate hal) = .call (.init b h) ∧
      Timed b (initFields timing) := ⟨bitrate,hal,rfl,hrate ▸ table_timed timing hmem⟩
  split
  · simpa [Sound] using htimed
  split
  · simpa [Sound] using htimed
  split
  · simpa [Sound] using htimed
  · simpa [Sound] using htimed

theorem send_owned (p : CanPort) (id : UInt32) (data : Option (Buffer UInt8 canPortMaxDlc))
    (len : UInt8) (freeLevel : ℕ) (added : Bool) :
    (∀ a ∈ canPortSend p id data len freeLevel added, a.Uses p.hcan) ∧
      Sound ⟨.call (.send id data len freeLevel added),
        canPortSend p id data len freeLevel added⟩ := by
  unfold canPortSend
  split
  · rename_i handle data hp
    rw [hp]
    split
    · simp [PortAction.Uses,PortAction.handle,Sound]
    rename_i hvalid
    split
    · simp [PortAction.Uses,PortAction.handle,Sound]
    · refine ⟨by simp [PortAction.Uses,PortAction.handle],?_⟩
      have hid : id ≤ 0x7FF := UInt32.not_lt.mp fun hlong => hvalid (Or.inr hlong)
      have hlen : len ≤ 8 := UInt8.le_iff_toNat_le.mpr (Nat.not_lt.mp fun hlong => hvalid (Or.inl hlong))
      simpa [Sound] using ⟨hid,hlen⟩
  · simp [PortAction.Uses,PortAction.handle,Sound]

theorem plain_owned {r : PortRecord} (hbind : ∀ handle, r.input ≠ .call (.bind (some handle)))
    (h : r.Plain) : Owned past r ∧ Sound r := by
  refine ⟨⟨?_,fun handle hi => absurd hi (hbind handle)⟩,?_⟩
  · intro a ha handle hhandle
    rw [h a ha] at hhandle
    cases hhandle
  · intro a ha
    have hnone := h a ha
    cases a <;> trivial

theorem poll_plain (p : CanPort) (input : PortInput) (timeoutMs tick : UInt32) :
    (PortRecord.mk input (canPortPoll p timeoutMs tick).2).Plain := by
  unfold PortRecord.Plain canPortPoll canPortPollOne
  split
  · split <;> simp [PortAction.handle]
  · simp [PortAction.handle]

theorem pass_plain (p : CanPort) (input : PortInput) (timeoutMs startTick tick : UInt32) :
    (PortRecord.mk input (pollPass p timeoutMs startTick tick).2).Plain := by
  unfold PortRecord.Plain pollPass canPortPollOne
  split
  · split <;> simp [PortAction.handle]
  · simp [PortAction.handle]

theorem deinit_uses (p : CanPort) : ∀ a ∈ (canPortDeinit p).2, a.Uses p.hcan := by
  unfold canPortDeinit
  cases p.hcan <;> simp [PortAction.Uses,PortAction.handle]

theorem deinit_sound (p : CanPort) (input : PortInput) :
    Sound ⟨input,(canPortDeinit p).2⟩ := by
  unfold canPortDeinit
  cases p.hcan <;> simp [Sound]

theorem answer_owned (h : p.hcan = held past) (c : PortCall) :
    Owned past ⟨.call c,(answer p c).2⟩ ∧ Sound ⟨.call c,(answer p c).2⟩ := by
  cases c with
  | bind hcan => exact bind_owned h hcan
  | init bitrate hal =>
    exact ⟨call_owned h (fun _ => by simp) (init_uses p bitrate hal),init_sound p bitrate hal⟩
  | send id data len freeLevel added =>
    obtain ⟨huses,hsound⟩ := send_owned p id data len freeLevel added
    exact ⟨call_owned h (fun _ => by simp) huses,hsound⟩
  | registerRx callback => exact plain_owned (fun _ => by simp) fun a ha => nomatch ha
  | poll timeoutMs tick => exact plain_owned (fun _ => by simp) (poll_plain p _ timeoutMs tick)
  | deinit => exact ⟨call_owned h (fun _ => by simp) (deinit_uses p),deinit_sound p _⟩
  | rxDropped =>
    refine plain_owned (fun _ => by simp) fun a ha => ?_
    rw [List.mem_singleton.mp ha]
    rfl

theorem step_owned (h : Reflects p past) (i : PortInput)
    (hall : Always (fun before r => Owned before r ∧ Sound r) past) :
    Always (fun before r => Owned before r ∧ Sound r) (past++(portStep p i).2) := by
  cases i with
  | interrupt id data len =>
    exact always_concat hall (plain_owned (fun _ => by simp) fun a ha => nomatch ha)
  | call c =>
    unfold portStep
    cases p.waiting with
    | some wait =>
      rw [List.append_nil]
      exact hall
    | none => exact always_concat hall (answer_owned h.handle c)
  | pass tick =>
    unfold portStep
    cases p.waiting with
    | none =>
      rw [List.append_nil]
      exact hall
    | some wait =>
      exact always_concat hall (plain_owned (fun _ => by simp) (pass_plain p _ wait.1 wait.2 tick))

end Lifecycle

/-- Over any calls, every call of the HAL has the handle that was bound last and
is still held, a second bind is refused exactly while one is held, and what the
HAL is asked for is a bit rate as requested or a standard frame. -/
theorem hal_calls_owned (inputs : List PortInput) :
    Always (fun before r => Owned before r ∧ Sound r) (run portStep canPort inputs).2 :=
  (along_history portStep (fun _ _ => True)
    (fun p past => Reflects p past ∧ Always (fun before r => Owned before r ∧ Sound r) past)
    (fun _ _ i h _ => ⟨(step_reflects h.1 i).1,step_owned h.1 i h.2⟩) canPort [] inputs
    ⟨starts_reflects,always_nil⟩ (along_true _ _ _)).2

end CanopenReference.PortHandle
