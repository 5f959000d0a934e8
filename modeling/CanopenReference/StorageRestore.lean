import CanopenReference.Storage

/-!
# Restoring the defaults

The store and restore callbacks of objects 1010h and 1011h and the
initialization at boot, over the flash backend. The flash keeps its newest image
through a restore, and every boot loads it again.
-/

set_option autoImplicit false

namespace CanopenReference.StorageRestore
open Library Library.Runs Storage

inductive OdResult where
  | ok
  | hw
  | devIncompat
  deriving DecidableEq

inductive CoReturnError where
  | no
  | illegalArgument
  | initFailed
  deriving DecidableEq

/-- An entry whose address, where it has one, is that of OD_PERSIST_COMM. -/
structure CoStorageEntry where
  addr : Bool
  len : ℕ

structure StorageState (n : ℕ) where
  flash : Flash n
  odPersistComm : Buffer UInt32 n
  factoryDefaults : Option (Buffer UInt32 n)
  entries : CoStorageEntry
  storeCount : UInt32
  lastStoreTick : UInt32
  storeTickValid : Bool
  enabled : Bool

section Device
variable {n : ℕ}

def badEntry (n : ℕ) : Option CoStorageEntry → Bool
  | none => true
  | some entry => !entry.addr || entry.len != 4*n

def storageStoreRateAllowed (minInterval : UInt32) (s : StorageState n) (now : UInt32) : Bool :=
  if minInterval = 0 then true
  else if !s.storeTickValid then true
  else minInterval ≤ now-s.lastStoreTick

/-- The store callback, with whether it came to a store in the flash. The flash
is busy from `now` to `done`. -/
def storageStore (minInterval : UInt32) (s : StorageState n) (entry : Option CoStorageEntry)
    (now done : UInt32) (cut : Interruption) : StorageState n × OdResult × Bool :=
  if badEntry n entry then (s,.devIncompat,false)
  else if !storageStoreRateAllowed minInterval s now then (s,.hw,false)
  else
    let stored := storageFlashStore s.flash s.odPersistComm.cells cut
    if !stored.2 then ({ s with flash := stored.1 },.hw,true)
    else
      ({ s with
          flash := stored.1, storeCount := s.storeCount+1, lastStoreTick := done,
          storeTickValid := true },.ok,true)

def storageRestore (s : StorageState n) (entry : Option CoStorageEntry) :
    StorageState n × OdResult :=
  if badEntry n entry then (s,.devIncompat)
  else
    match storageFlashRestore s.flash (4*n) with
    | some payload => ({ s with odPersistComm := s.odPersistComm.write 0 payload },.ok)
    | none =>
      match s.factoryDefaults with
      | none => (s,.hw)
      | some defaults => ({ s with odPersistComm := defaults },.ok)

/-- The initialization. The arguments are in order when `ready`, and
`registered` is what the stack returns for the two objects. -/
def canopenReferenceStorageInit (s : StorageState n) (ready : Bool)
    (registered : CoReturnError) : StorageState n × CoReturnError :=
  if !ready then (s,.illegalArgument)
  else
    ({ s with
        factoryDefaults := some (s.factoryDefaults.getD s.odPersistComm)
        odPersistComm := match storageFlashRestore s.flash (4*n) with
          | some payload => s.odPersistComm.write 0 payload
          | none => s.odPersistComm
        entries := ⟨true,4*n⟩
        enabled := if registered = .no then true else s.enabled },registered)

/-- The memory after a device reset, before the initialization. -/
def reloaded (defaults : Buffer UInt32 n) (flash : Flash n) : StorageState n where
  flash := flash
  odPersistComm := defaults
  factoryDefaults := none
  entries := ⟨false,0⟩
  storeCount := 0
  lastStoreTick := 0
  storeTickValid := false
  enabled := false

inductive StorageInput (n : ℕ) where
  | write (data : Buffer UInt32 n)
  | store (entry : Option CoStorageEntry) (now done : UInt32) (cut : Interruption)
  | restore (entry : Option CoStorageEntry)
  | init (ready : Bool) (registered : CoReturnError)
  | reset (ready : Bool) (registered : CoReturnError)

inductive StorageEvent where
  | stored (record : StoreRecord)
  | refused (result : OdResult)
  | restored (result : OdResult)
  | booted (odPersistComm : List UInt32)
  deriving DecidableEq

def storageStep (defaults : Buffer UInt32 n) (minInterval : UInt32) (s : StorageState n) :
    StorageInput n → StorageState n × List StorageEvent
  | .write data => ({ s with odPersistComm := data },[])
  | .store entry now done cut =>
    let (s',result,attempted) := storageStore minInterval s entry now done cut
    (s',if attempted then [.stored ⟨s.odPersistComm.cells,cut,result = .ok⟩] else [.refused result])
  | .restore entry =>
    let (s',result) := storageRestore s entry
    (s',[.restored result])
  | .init ready registered => ((canopenReferenceStorageInit s ready registered).1,[])
  | .reset ready registered =>
    let s' := (canopenReferenceStorageInit (reloaded defaults s.flash) ready registered).1
    (s',[.booted s'.odPersistComm.cells])

def Successful (n : ℕ) : StorageEvent → Prop
  | .stored record => AllWritten n record.data record.cut
  | _ => False

/-- A restore that reports success shows the defaults at every boot before the
next successful store. -/
def RestoreEffective (defaults : Buffer UInt32 n) (minInterval : UInt32) (s : StorageState n)
    (entry : Option CoStorageEntry) : Prop :=
  (storageRestore s entry).2 = .ok → ∀ after : List (StorageInput n),
    let later := run (storageStep defaults minInterval) (storageRestore s entry).1 after
    (∀ e ∈ later.2, ¬Successful n e) →
      ∀ odPersistComm, .booted odPersistComm ∈ later.2 → odPersistComm = defaults.cells

/-- The flash holds no valid image, or the newest one holds the defaults. -/
def NothingElseStored (defaults : Buffer UInt32 n) (flash : Flash n) : Prop :=
  newestPayload flash = none ∨ newestPayload flash = some defaults.cells

theorem restore_payload (flash : Flash n) :
    storageFlashRestore flash (4*n) = newestPayload flash := by
  rw [storageFlashRestore,if_neg (not_not.mpr rfl),newestPayload]

theorem payload_length {flash : Flash n} {payload : List UInt32}
    (h : newestPayload flash = some payload) : payload.length = n := by
  obtain ⟨image,himage,rfl⟩ := Option.map_eq_some_iff.mp h
  obtain ⟨slot,_,rfl⟩ := Option.map_eq_some_iff.mp himage
  have hsize := (flash.read slot).size
  simp only [storageFlashImage,Buffer.slice,List.length_take,List.length_drop,hsize,imageWords]
  omega

theorem copied {flash : Flash n} {payload : List UInt32} (b : Buffer UInt32 n)
    (h : newestPayload flash = some payload) : (b.write 0 payload).cells = payload := by
  have hlen := payload_length h
  have hfront := Buffer.front_write_zero b payload (Nat.le_of_eq hlen)
  rw [hlen,Buffer.front_size] at hfront
  exact hfront

/-- What a boot shows: the newest image, or the defaults where there is none
or the initialization is refused. -/
theorem boot_shows (defaults : Buffer UInt32 n) (flash : Flash n) (ready : Bool)
    (registered : CoReturnError) :
    (canopenReferenceStorageInit (reloaded defaults flash) ready registered).1.odPersistComm.cells =
      if ready then (newestPayload flash).getD defaults.cells else defaults.cells := by
  unfold canopenReferenceStorageInit
  cases ready with
  | false => rfl
  | true =>
    simp only [Bool.not_true,Bool.false_eq_true,if_false,if_true,reloaded,restore_payload]
    cases h : newestPayload flash with
    | none => rfl
    | some payload => exact copied defaults h

theorem init_flash (s : StorageState n) (ready : Bool) (registered : CoReturnError) :
    (canopenReferenceStorageInit s ready registered).1.flash = s.flash := by
  unfold canopenReferenceStorageInit
  split <;> rfl

theorem restore_flash (s : StorageState n) (entry : Option CoStorageEntry) :
    (storageRestore s entry).1.flash = s.flash := by
  unfold storageRestore
  split
  · rfl
  split
  · rfl
  split <;> rfl

theorem reported_store_written (minInterval : UInt32) (s : StorageState n)
    (entry : Option CoStorageEntry) (now done : UInt32) (cut : Interruption)
    (h : (storageStore minInterval s entry now done cut).2.1 = .ok) :
    AllWritten n s.odPersistComm.cells cut := by
  have hok := (store_effect s.flash s.odPersistComm.cells cut).2.2
  unfold storageStore at h
  split at h
  · cases h
  split at h
  · cases h
  simp only at h
  split at h
  · cases h
  · rename_i hstored
    obtain ⟨hlen,hcut⟩ := hok.mp (by simpa using hstored)
    exact ⟨hlen,Or.inl hcut⟩

theorem complete_store (defaults : Buffer UInt32 n) {minInterval : UInt32} {s : StorageState n}
    {entry : Option CoStorageEntry} {now : UInt32} (done : UInt32) (hentry : badEntry n entry = false)
    (hrate : storageStoreRateAllowed minInterval s now = true) :
    newestPayload (storageStep defaults minInterval s (.store entry now done .none)).1.flash =
      some s.odPersistComm.cells := by
  have hnew := (store_effect s.flash s.odPersistComm.cells .none).1
    ⟨s.odPersistComm.size,Or.inl rfl⟩
  have hflash : newestPayload (storageFlashStore s.flash s.odPersistComm.cells .none).1 =
      some s.odPersistComm.cells := by
    rw [newest_payload_current,hnew]
    rfl
  simp only [storageStep,storageStore,hentry,hrate,Bool.not_true,Bool.false_eq_true,if_false]
  split <;> exact hflash

theorem reported_stores_successful (defaults : Buffer UInt32 n) (minInterval : UInt32)
    (s : StorageState n) (inputs : List (StorageInput n)) (record : StoreRecord)
    (h : .stored record ∈ (run (storageStep defaults minInterval) s inputs).2)
    (hok : record.ok = true) : Successful n (.stored record) := by
  induction inputs generalizing s with
  | nil => cases h
  | cons a inputs ih =>
    rw [run_cons] at h
    rcases List.mem_append.mp h with h | h
    · cases a with
      | store entry now done cut =>
        simp only [storageStep] at h
        split at h
        · cases List.mem_singleton.mp h
          exact reported_store_written minInterval s entry now done cut (of_decide_eq_true hok)
        · cases List.mem_singleton.mp h
      | restore entry => cases List.mem_singleton.mp h
      | reset ready registered => cases List.mem_singleton.mp h
      | _ => cases h
    · exact ih _ h

theorem store_keeps_newest (minInterval : UInt32) (s : StorageState n)
    (entry : Option CoStorageEntry) (now done : UInt32) (cut : Interruption)
    (h : (storageStore minInterval s entry now done cut).2.2 = true →
      ¬AllWritten n s.odPersistComm.cells cut) :
    newestPayload (storageStore minInterval s entry now done cut).1.flash =
      newestPayload s.flash := by
  have hold := (store_effect s.flash s.odPersistComm.cells cut).2.1
  unfold storageStore at h ⊢
  split
  · rfl
  rename_i hentry
  split
  · rfl
  rename_i hrate
  rw [if_neg hentry,if_neg hrate] at h
  have hflash : newestPayload (storageFlashStore s.flash s.odPersistComm.cells cut).1 =
      newestPayload s.flash := by
    rw [newest_payload_current,newest_payload_current,hold (h (by simp only; split <;> rfl))]
  simp only
  split <;> exact hflash

theorem step_keeps_newest (defaults : Buffer UInt32 n) (minInterval : UInt32)
    (s : StorageState n) (a : StorageInput n)
    (h : ∀ e ∈ (storageStep defaults minInterval s a).2, ¬Successful n e) :
    newestPayload (storageStep defaults minInterval s a).1.flash = newestPayload s.flash := by
  cases a with
  | write data => rfl
  | store entry now done cut =>
    refine store_keeps_newest minInterval s entry now done cut fun hattempt => ?_
    simp only [storageStep,hattempt,if_true] at h
    exact h _ (List.mem_singleton_self _)
  | restore entry => exact congrArg newestPayload (restore_flash s entry)
  | init ready registered => exact congrArg newestPayload (init_flash s ready registered)
  | reset ready registered =>
    exact congrArg newestPayload (init_flash (reloaded defaults s.flash) ready registered)

theorem boot_defaults {defaults : Buffer UInt32 n} {flash : Flash n}
    (h : NothingElseStored defaults flash) (ready : Bool) (registered : CoReturnError) :
    (canopenReferenceStorageInit (reloaded defaults flash) ready registered).1.odPersistComm.cells =
      defaults.cells := by
  rw [boot_shows]
  split
  · rcases h with h | h
    · rw [h]
      rfl
    · rw [h]
      rfl
  · rfl

theorem step_boots {defaults : Buffer UInt32 n} {minInterval : UInt32} {s : StorageState n}
    {a : StorageInput n} {odPersistComm : List UInt32} (h : NothingElseStored defaults s.flash)
    (hb : .booted odPersistComm ∈ (storageStep defaults minInterval s a).2) :
    odPersistComm = defaults.cells := by
  cases a with
  | write data => cases hb
  | store entry now done cut =>
    simp only [storageStep] at hb
    split at hb <;> cases List.mem_singleton.mp hb
  | restore entry => cases List.mem_singleton.mp hb
  | init ready registered => cases hb
  | reset ready registered =>
    cases List.mem_singleton.mp hb
    exact boot_defaults h ready registered

theorem run_boots {defaults : Buffer UInt32 n} {minInterval : UInt32} {s : StorageState n}
    {after : List (StorageInput n)} (h : NothingElseStored defaults s.flash)
    (hquiet : ∀ e ∈ (run (storageStep defaults minInterval) s after).2, ¬Successful n e) :
    ∀ odPersistComm, .booted odPersistComm ∈ (run (storageStep defaults minInterval) s after).2 →
      odPersistComm = defaults.cells := by
  intro odPersistComm hb
  induction after generalizing s with
  | nil => cases hb
  | cons a after ih =>
    rw [run_cons] at hquiet hb
    obtain ⟨hfirst,hrest⟩ := List.forall_mem_append.mp hquiet
    rcases List.mem_append.mp hb with hb | hb
    · exact step_boots h hb
    · refine ih ?_ hrest hb
      rw [NothingElseStored,step_keeps_newest defaults minInterval s a hfirst]
      exact h

theorem restore_ok {s : StorageState n} {entry : Option CoStorageEntry} {payload : List UInt32}
    (hentry : badEntry n entry = false) (h : newestPayload s.flash = some payload) :
    (storageRestore s entry).2 = .ok := by
  simp [storageRestore,hentry,restore_payload,h]

theorem restore_entry {s : StorageState n} {entry : Option CoStorageEntry}
    (h : (storageRestore s entry).2 = .ok) : badEntry n entry = false := by
  cases hbad : badEntry n entry with
  | false => rfl
  | true => simp [storageRestore,hbad] at h

theorem restored_boot (defaults : Buffer UInt32 n) (minInterval : UInt32) {s : StorageState n}
    (entry : Option CoStorageEntry) {payload : List UInt32}
    (h : newestPayload s.flash = some payload) :
    (run (storageStep defaults minInterval) (storageRestore s entry).1 [.reset true .no]).2 =
      [.booted payload] := by
  have hboot := boot_shows defaults (storageRestore s entry).1.flash true .no
  rw [restore_flash s entry,h,if_pos rfl,Option.getD_some,← restore_flash s entry] at hboot
  exact congrArg (fun cells => [StorageEvent.booted cells]) hboot

theorem effective_payload {defaults : Buffer UInt32 n} {minInterval : UInt32} {s : StorageState n}
    {entry : Option CoStorageEntry} {payload : List UInt32}
    (heffective : RestoreEffective defaults minInterval s entry)
    (hentry : badEntry n entry = false) (h : newestPayload s.flash = some payload) :
    payload = defaults.cells := by
  have hboot := restored_boot defaults minInterval entry h
  refine heffective (restore_ok hentry h) [.reset true .no] (fun e he => ?_) payload ?_
  · rw [hboot] at he
    rw [List.mem_singleton.mp he]
    exact not_false
  · rw [hboot]
    exact List.mem_singleton_self _

/-- After any inputs, a restore takes effect exactly when, the entry being the
registered one, no other image than the defaults is the newest in the flash. -/
theorem restore_effective_iff (defaults : Buffer UInt32 n) (minInterval : UInt32)
    (start : StorageState n) (before : List (StorageInput n)) (entry : Option CoStorageEntry) :
    let s := (run (storageStep defaults minInterval) start before).1
    RestoreEffective defaults minInterval s entry ↔
      (badEntry n entry = false → NothingElseStored defaults s.flash) := by
  intro s
  constructor
  · intro heffective hentry
    cases h : newestPayload s.flash with
    | none => exact Or.inl h
    | some payload =>
      right
      rw [h,effective_payload heffective hentry h]
  · intro hstored hok after later hquiet
    have hrestored : NothingElseStored defaults (storageRestore s entry).1.flash := by
      rw [restore_flash]
      exact hstored (restore_entry hok)
    exact run_boots hrestored hquiet

end Device

def communicationWords : List UInt32 :=
  [0,0x80,0,0,0x100,0x80,0x80000]++List.replicate 9 0++[4,0,0,0,0,0,3,0x80000000,0x80000000,1]++
    [5,0x80000200,0xFE,5,0x80000300,0xFE,5,0x80000400,0xFE,5,0x80000500,0xFE]++
    List.replicate 36 0++
    [6,0xC0000180,0xFE,0,6,0xC0000280,0xFE,0,6,0xC0000380,0xFE,0,6,0xC0000480,0xFE,0]++
    List.replicate 36 0

/-- The initial values of OD_PERSIST_COMM in the reference object dictionary. -/
def communicationDefaults : Buffer UInt32 126 := ⟨communicationWords,rfl⟩

/-- A producer heartbeat time of one second. -/
def heartbeatSet : Buffer UInt32 126 := communicationDefaults.write 15 [1000]

def registeredEntry : Option CoStorageEntry := some ⟨true,504⟩

/-- The heartbeat time that was stored is there again after the restore and the
reset. -/
theorem restore_ineffective :
    let step := storageStep communicationDefaults 0
    let s := (run step (reloaded communicationDefaults (erasedFlash 126))
      [.reset true .no,.write heartbeatSet,.store registeredEntry 10 20 .none]).1
    (storageRestore s registeredEntry).2 = .ok ∧
      (run step (storageRestore s registeredEntry).1 [.reset true .no]).2 =
        [.booted heartbeatSet.cells] ∧
      ¬RestoreEffective communicationDefaults 0 s registeredEntry := by
  intro step s
  have hentry : badEntry 126 registeredEntry = false := by decide
  have hnewest : newestPayload s.flash = some heartbeatSet.cells := by
    simp only [s,step,run_cons,run_nil]
    exact complete_store communicationDefaults 20 hentry rfl
  refine ⟨restore_ok hentry hnewest,restored_boot communicationDefaults 0 registeredEntry hnewest,
    fun heffective => ?_⟩
  exact absurd (effective_payload heffective hentry hnewest) (by decide)

end CanopenReference.StorageRestore
