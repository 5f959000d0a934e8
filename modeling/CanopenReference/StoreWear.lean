import CanopenReference.Library.Clock
import CanopenReference.StorageRestore

/-!
# Store rate and wear

The store callback as the only user of the flash, on a clock of real
milliseconds. The minimum interval counts from the last store that succeeded; an
erase whose store failed is not counted.
-/

set_option autoImplicit false

namespace CanopenReference.StoreWear
open Library Library.Runs Storage StorageRestore

/-- A request comes `wait` after the one before. The flash reaches the erase
after `unlocked` and is done after `busy` more. -/
structure StoreRequest (n : ℕ) where
  entry : Option CoStorageEntry
  data : Buffer UInt32 n
  wait : ℕ
  unlocked : ℕ
  busy : ℕ
  cut : Interruption

structure WearState (n : ℕ) where
  storage : StorageState n
  clock : ℕ

structure SectorErase where
  time : ℕ
  stored : Bool
  deriving DecidableEq

def erases : Interruption → Bool
  | .none => true
  | .unlock => false
  | .beforeErase => false
  | .erase erased => erased
  | .programmed _ => true

section Device
variable {n : ℕ} (minInterval : UInt32)

def loaded (s : WearState n) (r : StoreRequest n) : StorageState n :=
  { s.storage with odPersistComm := r.data }

def storeCall (s : WearState n) (r : StoreRequest n) : StorageState n × OdResult × Bool :=
  let now := s.clock+r.wait
  storageStore minInterval (loaded s r) r.entry (UInt32.ofNat now)
    (UInt32.ofNat (now+r.unlocked+r.busy)) r.cut

def eraseTime (s : WearState n) (r : StoreRequest n) : ℕ := s.clock+r.wait+r.unlocked

def wearStep (s : WearState n) (r : StoreRequest n) : WearState n × List SectorErase :=
  let (storage,result,attempted) := storeCall minInterval s r
  (⟨storage,s.clock+r.wait+r.unlocked+r.busy⟩,
    if attempted && erases r.cut then [⟨eraseTime s r,result = .ok⟩] else [])

/-- The request comes to an erase. -/
def Reaches (s : WearState n) (r : StoreRequest n) : Prop :=
  badEntry n r.entry = false ∧
    storageStoreRateAllowed minInterval s.storage (UInt32.ofNat (s.clock+r.wait)) = true ∧
    erases r.cut = true

instance (s : WearState n) (r : StoreRequest n) : Decidable (Reaches minInterval s r) :=
  inferInstanceAs (Decidable (_ ∧ _ ∧ _))

/-- An erase is the minimum interval away from those before it. -/
def Spaced (past : List SectorErase) (e : SectorErase) : Prop :=
  ∀ earlier ∈ past, earlier.time+minInterval.toNat ≤ e.time

/-- An erase of the request is the minimum interval away from the erases whose
stores failed. -/
def ClearOfFailures (s : WearState n) (past : List SectorErase) (r : StoreRequest n) : Prop :=
  Reaches minInterval s r →
    ∀ earlier ∈ past, earlier.stored = false → earlier.time+minInterval.toNat ≤ eraseTime s r

theorem store_cases (s : StorageState n) (entry : Option CoStorageEntry) (now done : UInt32)
    (cut : Interruption) :
    let r := storageStore minInterval s entry now done cut
    let accepted := badEntry n entry = false ∧ storageStoreRateAllowed minInterval s now = true
    (¬accepted ∧ r.1 = s ∧ r.2.2 = false) ∨
    (accepted ∧ r.1.lastStoreTick = s.lastStoreTick ∧ r.1.storeTickValid = s.storeTickValid ∧
      r.2 = (.hw,true)) ∨
    (accepted ∧ r.1.lastStoreTick = done ∧ r.1.storeTickValid = true ∧ r.2 = (.ok,true)) := by
  intro r accepted
  simp only [r,accepted,storageStore]
  cases hbad : badEntry n entry with
  | true => exact Or.inl ⟨by simp,rfl,rfl⟩
  | false =>
    cases hrate : storageStoreRateAllowed minInterval s now with
    | false => exact Or.inl ⟨by simp,rfl,rfl⟩
    | true =>
      right
      cases hstored : (storageFlashStore s.flash s.odPersistComm.cells cut).2 with
      | false => exact Or.inl ⟨⟨rfl,rfl⟩,rfl,rfl,rfl⟩
      | true => exact Or.inr ⟨⟨rfl,rfl⟩,rfl,rfl,rfl⟩

variable {minInterval : UInt32} {s : WearState n} {past : List SectorErase}

theorem accepted_erase (s : WearState n) (r : StoreRequest n) (stored : Bool)
    (haccepted : badEntry n r.entry = false ∧
      storageStoreRateAllowed minInterval s.storage (UInt32.ofNat (s.clock+r.wait)) = true) :
    let events := if erases r.cut then [SectorErase.mk (eraseTime s r) stored] else []
    ¬Reaches minInterval s r ∧ events = [] ∨
      Reaches minInterval s r ∧ events = [⟨eraseTime s r,stored⟩] := by
  cases herases : erases r.cut with
  | false => exact Or.inl ⟨fun h => absurd (herases.symm.trans h.2.2) Bool.false_ne_true,rfl⟩
  | true => exact Or.inr ⟨⟨haccepted.1,haccepted.2,herases⟩,rfl⟩

theorem wear_cases (minInterval : UInt32) (s : WearState n) (r : StoreRequest n) :
    let next := (wearStep minInterval s r).1
    let events := (wearStep minInterval s r).2
    next.clock = s.clock+r.wait+r.unlocked+r.busy ∧
    ((¬Reaches minInterval s r ∧ events = [] ∨
        Reaches minInterval s r ∧ events = [⟨eraseTime s r,false⟩]) ∧
      next.storage.lastStoreTick = s.storage.lastStoreTick ∧
      next.storage.storeTickValid = s.storage.storeTickValid ∨
    (¬Reaches minInterval s r ∧ events = [] ∨
        Reaches minInterval s r ∧ events = [⟨eraseTime s r,true⟩]) ∧
      next.storage.lastStoreTick = UInt32.ofNat next.clock ∧
      next.storage.storeTickValid = true) := by
  intro next events
  refine ⟨rfl,?_⟩
  have hcases := store_cases minInterval (loaded s r) r.entry (UInt32.ofNat (s.clock+r.wait))
    (UInt32.ofNat (s.clock+r.wait+r.unlocked+r.busy)) r.cut
  simp only [next,events,wearStep,storeCall]
  rcases hcases with ⟨hrefused,hs,hattempt⟩ | ⟨haccepted,htick,hvalid,hresult⟩ |
    ⟨haccepted,htick,hvalid,hresult⟩
  · refine Or.inl ⟨Or.inl ⟨fun h => hrefused ⟨h.1,h.2.1⟩,?_⟩,?_,?_⟩
    · simp only [hattempt,Bool.false_and,Bool.false_eq_true,if_false]
    · rw [hs]
      rfl
    · rw [hs]
      rfl
  · refine Or.inl ⟨?_,htick,hvalid⟩
    simp only [hresult,Bool.true_and]
    exact accepted_erase s r false haccepted
  · refine Or.inr ⟨?_,htick,hvalid⟩
    simp only [hresult,Bool.true_and]
    exact accepted_erase s r true haccepted

theorem erase_time {r : StoreRequest n} {e : SectorErase}
    (he : e ∈ (wearStep minInterval s r).2) : e.time = eraseTime s r := by
  rcases (wear_cases minInterval s r).2 with ⟨⟨-,h⟩ | ⟨-,h⟩,-⟩ | ⟨⟨-,h⟩ | ⟨-,h⟩,-⟩ <;> rw [h] at he
  · cases he
  · rw [List.mem_singleton.mp he]
  · cases he
  · rw [List.mem_singleton.mp he]

/-- The erases lie in the past, and the limiter counts from one that comes no
earlier than those whose stores succeeded. -/
structure Limited (s : WearState n) (past : List SectorErase) : Prop where
  gone : ∀ e ∈ past, e.time ≤ s.clock
  counted : ∀ e ∈ past, e.stored = true → s.storage.storeTickValid = true ∧
    ∃ done, e.time ≤ done ∧ done ≤ s.clock ∧ s.storage.lastStoreTick = UInt32.ofNat done

theorem limited_step (h : Limited s past) (r : StoreRequest n) :
    Limited (wearStep minInterval s r).1 (past++(wearStep minInterval s r).2) := by
  obtain ⟨hclock,hcases⟩ := wear_cases minInterval s r
  have htime : eraseTime s r ≤ (wearStep minInterval s r).1.clock := by
    rw [hclock,eraseTime]
    omega
  have hold : s.clock ≤ (wearStep minInterval s r).1.clock := by
    rw [hclock]
    omega
  have hgone : ∀ e ∈ past++(wearStep minInterval s r).2,
      e.time ≤ (wearStep minInterval s r).1.clock := by
    intro e he
    rcases List.mem_append.mp he with he | he
    · exact Nat.le_trans (h.gone e he) hold
    · rw [erase_time he]
      exact htime
  refine ⟨hgone,fun e he hstored => ?_⟩
  rcases hcases with ⟨hevents,htick,hvalid⟩ | ⟨-,htick,hvalid⟩
  · have hpast : e ∈ past := by
      rcases List.mem_append.mp he with he | he
      · exact he
      · rcases hevents with ⟨-,hevents⟩ | ⟨-,hevents⟩ <;> rw [hevents] at he
        · cases he
        · cases List.mem_singleton.mp he
          cases hstored
    obtain ⟨hvalid',done,hle,hdone,htick'⟩ := h.counted e hpast hstored
    exact ⟨hvalid.trans hvalid',done,hle,Nat.le_trans hdone hold,htick.trans htick'⟩
  · exact ⟨hvalid,_,hgone e he,Nat.le_refl _,htick⟩

theorem limiter_spaces (h : Limited s past) {r : StoreRequest n} (hreaches : Reaches minInterval s r)
    {earlier : SectorErase} (hearlier : earlier ∈ past) (hstored : earlier.stored = true) :
    earlier.time+minInterval.toNat ≤ eraseTime s r := by
  obtain ⟨hvalid,done,hle,hdone,htick⟩ := h.counted earlier hearlier hstored
  have hrate := hreaches.2.1
  have helapsed := @Clock.elapsed_le done (s.clock+r.wait) (by omega)
  unfold storageStoreRateAllowed at hrate
  rw [htick,hvalid] at hrate
  split at hrate
  · rename_i hzero
    rw [hzero,eraseTime]
    show earlier.time+0 ≤ _
    omega
  · simp only [Bool.not_true,Bool.false_eq_true,if_false,decide_eq_true_eq] at hrate
    rw [UInt32.le_iff_toNat_le] at hrate
    rw [eraseTime]
    omega

theorem step_spaced (h : Limited s past) (hpast : Always (Spaced minInterval) past)
    (r : StoreRequest n) :
    Always (Spaced minInterval) (past++(wearStep minInterval s r).2) ↔
      ClearOfFailures minInterval s past r := by
  have hone : Reaches minInterval s r → ∀ stored : Bool,
      (Always (Spaced minInterval) (past++[⟨eraseTime s r,stored⟩]) ↔
        ClearOfFailures minInterval s past r) := by
    intro hreaches stored
    constructor
    · intro hall _ earlier hearlier _
      exact hall past _ [] rfl earlier hearlier
    · intro hclear
      refine always_concat hpast fun earlier hearlier => ?_
      cases hstored : earlier.stored with
      | false => exact hclear hreaches earlier hearlier hstored
      | true => exact limiter_spaces h hreaches hearlier hstored
  have hnone : ¬Reaches minInterval s r →
      (Always (Spaced minInterval) (past++[]) ↔ ClearOfFailures minInterval s past r) := by
    intro hrefused
    rw [List.append_nil]
    exact ⟨fun _ hreaches => absurd hreaches hrefused,fun _ => hpast⟩
  rcases (wear_cases minInterval s r).2 with ⟨⟨hr,hevents⟩ | ⟨hr,hevents⟩,-⟩ |
    ⟨⟨hr,hevents⟩ | ⟨hr,hevents⟩,-⟩ <;> rw [hevents]
  · exact hnone hr
  · exact hone hr false
  · exact hnone hr
  · exact hone hr true

/-- The device after a boot at a real time. -/
def booted (defaults : Buffer UInt32 n) (flash : Flash n) (ready : Bool)
    (registered : CoReturnError) (clock : ℕ) : WearState n :=
  ⟨(canopenReferenceStorageInit (reloaded defaults flash) ready registered).1,clock⟩

theorem limited_booted (defaults : Buffer UInt32 n) (flash : Flash n) (ready : Bool)
    (registered : CoReturnError) (clock : ℕ) :
    Limited (booted defaults flash ready registered clock) [] := by
  constructor
  · intro e he
    cases he
  · intro e he
    cases he

/-- From a boot on, any two erases are the minimum interval apart exactly when no
request comes to an erase within the interval after one whose store failed. -/
theorem erases_spaced_iff (defaults : Buffer UInt32 n) (flash : Flash n) (ready : Bool)
    (registered : CoReturnError) (clock : ℕ) (minInterval : UInt32)
    (requests : List (StoreRequest n)) :
    let s := booted defaults flash ready registered clock
    Always (Spaced minInterval) (run (wearStep minInterval) s requests).2 ↔
      AlongPast (wearStep minInterval) (ClearOfFailures minInterval) s [] requests := by
  intro s
  have h := along_past_iff_always (wearStep minInterval) (ClearOfFailures minInterval) Limited
    (Spaced minInterval) (fun _ _ r h => limited_step h r)
    (fun _ _ r h hpast => step_spaced h hpast r) s [] requests
    (limited_booted defaults flash ready registered clock) always_nil
  rwa [List.nil_append] at h

theorem failed_store {s : StorageState n} {entry : Option CoStorageEntry} {now : UInt32}
    (done : UInt32) {cut : Interruption} (hentry : badEntry n entry = false)
    (hrate : storageStoreRateAllowed minInterval s now = true)
    (hstored : (storageFlashStore s.flash s.odPersistComm.cells cut).2 = false) :
    storageStore minInterval s entry now done cut =
      ({ s with flash := (storageFlashStore s.flash s.odPersistComm.cells cut).1 },.hw,true) := by
  simp only [storageStore,hentry,hrate,hstored,Bool.not_true,Bool.not_false,Bool.false_eq_true,
    if_false,if_true]

theorem programmed_fails {r : StoreRequest n} {words : ℕ} (hcut : r.cut = .programmed words)
    (hreaches : Reaches minInterval s r) :
    (wearStep minInterval s r).2 = [⟨eraseTime s r,false⟩] ∧
      (wearStep minInterval s r).1.storage.storeTickValid = s.storage.storeTickValid := by
  have hstored : (storageFlashStore s.storage.flash r.data.cells r.cut).2 = false := by
    rw [hcut]
    unfold storageFlashStore
    split <;> rfl
  obtain ⟨hentry,hrate,herases⟩ := hreaches
  have hcall := @failed_store n minInterval (loaded s r) r.entry
    (UInt32.ofNat (s.clock+r.wait)) (UInt32.ofNat (s.clock+r.wait+r.unlocked+r.busy)) r.cut hentry
    hrate hstored
  simp only [wearStep,storeCall,hcall,herases]
  exact ⟨rfl,rfl⟩

end Device

/-- A store that fails at the fourth word, 10 ms after the call before. -/
def failingStore : StoreRequest 126 :=
  ⟨registeredEntry,communicationDefaults,10,1,5,.programmed 3⟩

/-- Two failing stores erase the sector twice within the interval of a second. -/
theorem failing_stores_erase :
    let s := booted communicationDefaults (erasedFlash 126) true .no 0
    (run (wearStep 1000) s [failingStore,failingStore]).2 = [⟨11,false⟩,⟨27,false⟩] ∧
      ¬Always (Spaced 1000) (run (wearStep 1000) s [failingStore,failingStore]).2 := by
  intro s
  have hfirst : Reaches 1000 s failingStore := ⟨by decide,rfl,rfl⟩
  obtain ⟨hevents,hvalid⟩ := programmed_fails rfl hfirst
  have hsecond : Reaches 1000 (wearStep 1000 s failingStore).1 failingStore := by
    refine ⟨by decide,?_,rfl⟩
    rw [storageStoreRateAllowed,hvalid]
    rfl
  obtain ⟨hevents',-⟩ := programmed_fails rfl hsecond
  have hclock : (wearStep 1000 s failingStore).1.clock = 16 := (wear_cases 1000 s failingStore).1
  have hrun : (run (wearStep 1000) s [failingStore,failingStore]).2 =
      [⟨11,false⟩,⟨27,false⟩] := by
    rw [run_cons,run_cons,hevents,hevents',eraseTime,eraseTime,hclock]
    rfl
  refine ⟨hrun,fun hall => ?_⟩
  rw [hrun] at hall
  exact absurd (hall [⟨11,false⟩] ⟨27,false⟩ [] rfl ⟨11,false⟩ (by simp)) (by decide)

end CanopenReference.StoreWear
