import CanopenReference.Cia418
import CanopenReference.Library.History
import CanopenReference.Library.Runs

/-!
# The battery personality over time

`cia418_reference.c` publishes measurements in the object dictionary, and the
adapter and the stack write to the same memory. The SDO server and the io
functions belong to the stack: the server is a parameter, and the io functions
copy bytes. The attributes are those of the generated dictionary.
-/

set_option autoImplicit false

namespace CanopenReference.BatteryPersonality
open Library Library.Runs Library.History Cia418

/-- The application objects, by index and sub-index. -/
abbrev Memory := UInt16 → UInt8 → List UInt8

structure OdObject where
  index : UInt16
  subIndex : UInt8
  dataLength : ℕ
  sdoWritable : Bool

def arrayObjects (index : UInt16) (count dataLength : ℕ) (sdoWritable : Bool) : List OdObject :=
  ⟨index,0,1,false⟩::(List.range count).map fun n =>
    ⟨index,UInt8.ofNat (n+1),dataLength,sdoWritable⟩

/-- The application objects of `cia418_OD.c`. -/
def cia418Objects : List OdObject :=
  [⟨0x6000,0,1,false⟩,⟨0x6001,0,1,true⟩,⟨0x6010,0,2,false⟩,⟨0x6050,0,4,false⟩,
    ⟨0x6051,0,2,false⟩,⟨0x6052,0,2,true⟩,⟨0x6053,0,2,true⟩,⟨0x6060,0,4,false⟩,
    ⟨0x6070,0,2,false⟩,⟨0x6080,0,1,true⟩,⟨0x6081,0,1,false⟩,⟨0x6090,0,1,false⟩,
    ⟨0x6020,0,1,false⟩,⟨0x6020,1,1,false⟩,⟨0x6020,2,2,false⟩,⟨0x6020,3,2,false⟩,
    ⟨0x6020,4,2,false⟩]++arrayObjects 0x6030 3 4 false++arrayObjects 0x6031 5 4 false++
    arrayObjects 0x6040 5 4 false++arrayObjects 0x6041 5 4 false++arrayObjects 0x6054 2 2 true

def objectAt (index : UInt16) (subIndex : UInt8) : Option OdObject :=
  cia418Objects.find? fun o => o.index = index ∧ o.subIndex = subIndex

def cia418StatusReady : UInt8 := 0x01
def cia418StatusFault : UInt8 := 0x80

structure PersonalityState where
  safeFault : Bool
  memory : Memory

def assign (m : Memory) (index : UInt16) (subIndex : UInt8) (bytes : List UInt8) : Memory :=
  fun i s => if i = index ∧ s = subIndex then bytes else m i s

/-- The application objects are set to zero. -/
def cleared (m : Memory) : Memory := fun i s =>
  match objectAt i s with
  | some o => List.replicate o.dataLength 0
  | none => m i s

def cia418ReferenceInit (m : Memory) : PersonalityState where
  safeFault := false
  memory := assign (assign (assign (assign (assign (assign (assign (cleared m) 0x6020 0 [4])
    0x6030 0 [3]) 0x6031 0 [5]) 0x6040 0 [5]) 0x6041 0 [5]) 0x6054 0 [2])
    0x6000 0 [cia418StatusReady]

def assignStatus (m : Memory) (f : UInt8 → UInt8) : Memory :=
  assign m 0x6000 0 [f ((m 0x6000 0).headD 0)]

def cia418ReferenceForceSafe (s : PersonalityState) : PersonalityState where
  safeFault := true
  memory := assign (assign (assignStatus s.memory (· ||| cia418StatusFault))
    0x6070 0 [0,0]) 0x6001 0 [0]

structure Measurement where
  batteryVoltage : UInt32
  temperature : Int16
  batteryStateOfCharge : UInt8
  chargeCurrentRequested : UInt16

def cia418ReferenceUpdateMeasurements (s : PersonalityState) (x : Measurement) :
    PersonalityState × Bool :=
  if 100 < x.batteryStateOfCharge then (cia418ReferenceForceSafe s,false)
  else
    ({ safeFault := false
       memory := assignStatus (assign (assign (assign (assign s.memory
          0x6060 0 (littleEndian 4 x.batteryVoltage.toNat))
          0x6010 0 (littleEndian 2 x.temperature.toUInt16.toNat))
          0x6081 0 [x.batteryStateOfCharge])
          0x6070 0 (littleEndian 2 x.chargeCurrentRequested.toNat))
        (· &&& ~~~cia418StatusFault) },true)

/-- What the SDO server makes of a client's write. -/
abbrev ServerWrite := Memory → UInt16 → UInt8 → List UInt8 → Memory

inductive PersonalityInput where
  | init
  | forceSafe
  | updateMeasurements (x : Measurement)
  | writeObject (index : UInt16) (subIndex : UInt8) (value : UInt32)
  | serverWrite (index : UInt16) (subIndex : UInt8) (bytes : List UInt8)

inductive PersonalityEvent where
  | initialized
  | forced
  | measured (x : Measurement)
  | written

def personalityStep (serverWrite : ServerWrite) (entries : ObjectDictionary Memory)
    (s : PersonalityState) : PersonalityInput → PersonalityState × List PersonalityEvent
  | .init => (cia418ReferenceInit s.memory,[.initialized])
  | .forceSafe => (cia418ReferenceForceSafe s,[.forced])
  | .updateMeasurements x =>
    let updated := cia418ReferenceUpdateMeasurements s x
    (updated.1,[if updated.2 then .measured x else .forced])
  | .writeObject index subIndex value =>
    ({ s with
        memory := (cia418ReferenceWriteObject (some entries) s.memory index subIndex true value).1 },
      [.written])
  | .serverWrite index subIndex bytes =>
    ({ s with memory := serverWrite s.memory index subIndex bytes },[.written])

/-- The io functions of the stack copy the bytes of their own object, and the
application objects have the lengths and attributes that were generated. -/
structure OriginalIo (entries : ObjectDictionary Memory) : Prop where
  copies : Copies entries fun m => m
  confined : ∀ index subIndex io write, entries index subIndex = some io → io.write = some write →
    ∀ m bytes, bytes.length = io.dataLength → ∀ i s, ¬(i = index ∧ s = subIndex) →
      (write m bytes).1 i s = m i s
  generated : ∀ index subIndex io o, entries index subIndex = some io →
    objectAt index subIndex = some o → io.dataLength = o.dataLength ∧
      io.sdoWritable = o.sdoWritable

/-- The objects that the application publishes. -/
inductive Published where
  | batteryStatus
  | temperature
  | batteryVoltage
  | chargeCurrentRequested
  | batteryStateOfCharge

namespace Published

def index : Published → UInt16
  | batteryStatus => 0x6000
  | temperature => 0x6010
  | batteryVoltage => 0x6060
  | chargeCurrentRequested => 0x6070
  | batteryStateOfCharge => 0x6081

def dataLength : Published → ℕ
  | batteryStatus => 1
  | temperature => 2
  | batteryVoltage => 4
  | chargeCurrentRequested => 2
  | batteryStateOfCharge => 1

/-- What an event makes of the object. A forced fault withdraws the request for
a current and leaves the measurements. -/
def told : Published → PersonalityEvent → Option ℕ
  | batteryStatus, .initialized => some 0x01
  | batteryStatus, .forced => some 0x81
  | batteryStatus, .measured _ => some 0x01
  | chargeCurrentRequested, .initialized => some 0
  | chargeCurrentRequested, .forced => some 0
  | chargeCurrentRequested, .measured x => some x.chargeCurrentRequested.toNat
  | _, .initialized => some 0
  | temperature, .measured x => some x.temperature.toUInt16.toNat
  | batteryVoltage, .measured x => some x.batteryVoltage.toNat
  | batteryStateOfCharge, .measured x => some x.batteryStateOfCharge.toNat
  | _, _ => none

def value (o : Published) (past : List PersonalityEvent) : ℕ := (latest o.told past).getD 0

end Published

def faultOf : PersonalityEvent → Option Bool
  | .initialized => some false
  | .forced => some true
  | .measured _ => some false
  | .written => none

def faulted (past : List PersonalityEvent) : Bool := (latest faultOf past).getD false

section Values
variable (past : List PersonalityEvent) (e : PersonalityEvent)

theorem value_concat (o : Published) : o.value (past++[e]) = (o.told e).getD (o.value past) := by
  unfold Published.value
  rw [latest_concat]
  cases o.told e <;> rfl

theorem faulted_concat : faulted (past++[e]) = (faultOf e).getD (faulted past) := by
  unfold faulted
  rw [latest_concat]
  cases faultOf e <;> rfl

theorem told_fits {o : Published} {e : PersonalityEvent} {n : ℕ} (h : o.told e = some n) :
    n < 256^o.dataLength := by
  cases e with
  | initialized => cases o <;> cases h <;> decide
  | forced => cases o <;> cases h <;> decide
  | measured x =>
    cases o with
    | batteryStatus => cases h; decide
    | temperature => cases h; exact UInt16.toNat_lt _
    | batteryVoltage => cases h; exact UInt32.toNat_lt _
    | chargeCurrentRequested => cases h; exact UInt16.toNat_lt _
    | batteryStateOfCharge => cases h; exact UInt8.toNat_lt _
  | written => cases o <;> cases h

theorem value_fits (o : Published) : o.value past < 256^o.dataLength := by
  unfold Published.value
  cases h : latest o.told past with
  | none => exact Nat.pow_pos (by decide)
  | some n =>
    obtain ⟨e,-,htold⟩ := latest_mem o.told h
    exact told_fits htold

end Values

/-- The status byte, the request and the measurements are those of the events so
far. -/
structure Follows (s : PersonalityState) (past : List PersonalityEvent) : Prop where
  fault : s.safeFault = faulted past
  status : Published.batteryStatus.value past = if faulted past then 0x81 else 0x01
  request : faulted past = true → Published.chargeCurrentRequested.value past = 0
  charge : Published.batteryStateOfCharge.value past ≤ 100
  bytes : ∀ o : Published, s.memory o.index 0 = littleEndian o.dataLength (o.value past)

section Steps
variable {s : PersonalityState} {past : List PersonalityEvent}

theorem init_follows (m : Memory) (past : List PersonalityEvent) :
    Follows (cia418ReferenceInit m) (past++[.initialized]) where
  fault := by rw [faulted_concat]; rfl
  status := by rw [value_concat,faulted_concat]; rfl
  request _ := by rw [value_concat]; rfl
  charge := by rw [value_concat]; exact Nat.zero_le _
  bytes o := by
    rw [value_concat]
    cases o with
    | batteryStatus => rfl
    | temperature => exact (little_zero 2).symm
    | batteryVoltage => exact (little_zero 4).symm
    | chargeCurrentRequested => exact (little_zero 2).symm
    | batteryStateOfCharge => exact (little_zero 1).symm

theorem status_byte (h : Follows s past) :
    s.memory 0x6000 0 = [if faulted past then 0x81 else 0x01] := by
  have hbytes := h.bytes .batteryStatus
  rw [h.status] at hbytes
  rw [show s.memory 0x6000 0 = _ from hbytes]
  cases faulted past <;> rfl

theorem force_follows (h : Follows s past) :
    Follows (cia418ReferenceForceSafe s) (past++[.forced]) where
  fault := by rw [faulted_concat]; rfl
  status := by rw [value_concat,faulted_concat]; rfl
  request _ := by rw [value_concat]; rfl
  charge := by rw [value_concat]; exact h.charge
  bytes o := by
    rw [value_concat]
    cases o with
    | batteryStatus =>
      show [(s.memory 0x6000 0).headD 0 ||| cia418StatusFault] = [0x81]
      rw [status_byte h]
      cases faulted past <;> decide
    | temperature => exact h.bytes .temperature
    | batteryVoltage => exact h.bytes .batteryVoltage
    | chargeCurrentRequested => exact (little_zero 2).symm
    | batteryStateOfCharge => exact h.bytes .batteryStateOfCharge

theorem update_follows (h : Follows s past) (x : Measurement) :
    let updated := cia418ReferenceUpdateMeasurements s x
    Follows updated.1 (past++[if updated.2 then .measured x else .forced]) := by
  intro updated
  by_cases hcharge : 100 < x.batteryStateOfCharge
  · have hupdated : updated = (cia418ReferenceForceSafe s,false) := if_pos hcharge
    rw [hupdated]
    exact force_follows h
  · have hupdated : updated = _ := if_neg hcharge
    rw [hupdated]
    refine ⟨?_,?_,fun hfault => ?_,?_,fun o => ?_⟩
    · rw [faulted_concat]
      rfl
    · rw [value_concat,faulted_concat]
      rfl
    · rw [faulted_concat] at hfault
      cases hfault
    · rw [value_concat]
      exact UInt8.le_iff_toNat_le.mp (UInt8.not_lt.mp hcharge)
    · rw [value_concat]
      cases o with
      | batteryStatus =>
        show [(s.memory 0x6000 0).headD 0 &&& ~~~cia418StatusFault] = [0x01]
        rw [status_byte h]
        cases faulted past <;> decide
      | temperature => rfl
      | batteryVoltage => rfl
      | chargeCurrentRequested => rfl
      | batteryStateOfCharge => exact (little_byte _).symm

end Steps

/-- The memory after the io function of an object that may be written, or the
one before. -/
def Wrote (entries : ObjectDictionary Memory) (m : Memory) (index : UInt16) (subIndex : UInt8)
    (m' : Memory) : Prop :=
  m' = m ∨ ∃ io write bytes, entries index subIndex = some io ∧ io.write = some write ∧
    io.sdoWritable = true ∧ bytes.length = io.dataLength ∧ m' = (write m bytes).1

/-- The SDO server of the stack writes whole objects that clients may write, through
their io functions, and refuses everything else. -/
def ServerWrites (serverWrite : ServerWrite) (entries : ObjectDictionary Memory) : Prop :=
  ∀ m index subIndex bytes, Wrote entries m index subIndex (serverWrite m index subIndex bytes)

section Writes
variable {entries : ObjectDictionary Memory} {m : Memory} {index : UInt16} {subIndex : UInt8}

theorem reference_wrote (value : UInt32) :
    Wrote entries m index subIndex
      (cia418ReferenceWriteObject (some entries) m index subIndex true value).1 := by
  by_cases h : ∃ io, Accepted entries index subIndex value io
  · obtain ⟨io,hio,hlength,hwrite,hwritable,hvalue⟩ := h
    obtain ⟨write,hwrite⟩ := Option.ne_none_iff_exists'.mp hwrite
    have hle : io.dataLength ≤ 4 := by
      simp only [badLength,decide_eq_false_iff_not] at hlength
      omega
    refine Or.inr ⟨io,write,_,hio,hwrite,hwritable,little_length _ value.toNat,?_⟩
    simp only [cia418ReferenceWriteObject,cia418WriteIo,odEntry,Option.bind_some,hio,hlength,
      hwrite,hwritable,little_take hle,Bool.not_true,Bool.false_eq_true,if_false,if_neg hvalue]
  · rw [write_refused m (not_exists.mp h)]
    exact Or.inl rfl

theorem published_object (o : Published) :
    objectAt o.index 0 = some ⟨o.index,0,o.dataLength,false⟩ := by
  cases o <;> rfl

theorem wrote_elsewhere (hio : OriginalIo entries) {m' : Memory}
    (h : Wrote entries m index subIndex m') (o : Published) : m' o.index 0 = m o.index 0 := by
  rcases h with rfl | ⟨io,write,bytes,hentry,hwrite,hwritable,hlength,rfl⟩
  · rfl
  refine hio.confined index subIndex io write hentry hwrite m bytes hlength o.index 0 ?_
  rintro ⟨rfl,rfl⟩
  have hattributes := (hio.generated _ _ io _ hentry (published_object o)).2
  rw [hwritable] at hattributes
  cases hattributes

theorem wrote_follows (hio : OriginalIo entries) {s : PersonalityState}
    {past : List PersonalityEvent} (h : Follows s past) {m' : Memory}
    (hwrote : Wrote entries s.memory index subIndex m') :
    Follows { s with memory := m' } (past++[.written]) where
  fault := by rw [faulted_concat]; exact h.fault
  status := by rw [value_concat,faulted_concat]; exact h.status
  request hfault := by
    rw [faulted_concat] at hfault
    rw [value_concat]
    exact h.request hfault
  charge := by rw [value_concat]; exact h.charge
  bytes o := by
    have htold : o.told .written = none := by cases o <;> rfl
    rw [value_concat,htold]
    exact (wrote_elsewhere hio hwrote o).trans (h.bytes o)

theorem step_follows {serverWrite : ServerWrite} (hio : OriginalIo entries)
    (hserver : ServerWrites serverWrite entries) {s : PersonalityState}
    {past : List PersonalityEvent} (h : Follows s past) (input : PersonalityInput) :
    Follows (personalityStep serverWrite entries s input).1
      (past++(personalityStep serverWrite entries s input).2) := by
  cases input with
  | init => exact init_follows _ _
  | forceSafe => exact force_follows h
  | updateMeasurements x => exact update_follows h x
  | writeObject index subIndex value => exact wrote_follows hio h (reference_wrote value)
  | serverWrite index subIndex bytes => exact wrote_follows hio h (hserver _ index subIndex bytes)

theorem published_read (hio : OriginalIo entries) {s : PersonalityState}
    {past : List PersonalityEvent} (h : Follows s past) {o : Published} {io : OdIo Memory}
    (hentry : entries o.index 0 = some io) :
    cia418ReferenceReadObject (some entries) s.memory o.index 0 true =
      some (UInt32.ofNat (o.value past)) := by
  have hdata : io.dataLength = o.dataLength :=
    (hio.generated _ _ io _ hentry (published_object o)).1
  have hlength : badLength io = false := by
    unfold badLength
    rw [hdata]
    cases o <;> rfl
  have hbytes : s.memory o.index 0 = littleEndian io.dataLength (o.value past) := by
    rw [hdata]
    exact h.bytes o
  rw [read_stored hio.copies hentry hlength hbytes,hdata,Nat.mod_eq_of_lt (value_fits past o)]

end Writes

/-- Whatever the adapter and its clients write, a published object reads as the
last initialization, measurement or forced fault left it. A fault shows in the
status and withdraws the request until measurements are accepted. -/
theorem readers_see_history (entries : ObjectDictionary Memory) (hio : OriginalIo entries)
    (serverWrite : ServerWrite) (hserver : ServerWrites serverWrite entries)
    (memory : Memory) (inputs : List PersonalityInput) :
    let final := run (personalityStep serverWrite entries) (cia418ReferenceInit memory) inputs
    let past := .initialized::final.2
    final.1.safeFault = faulted past ∧
    Published.batteryStatus.value past = (if faulted past then 0x81 else 0x01) ∧
    (faulted past = true → Published.chargeCurrentRequested.value past = 0) ∧
    Published.batteryStateOfCharge.value past ≤ 100 ∧
    ∀ (o : Published) io, entries o.index 0 = some io →
      cia418ReferenceReadObject (some entries) final.1.memory o.index 0 true =
        some (UInt32.ofNat (o.value past)) := by
  intro final past
  have h : Follows final.1 past :=
    along_history (personalityStep serverWrite entries) (fun _ _ => True) Follows
      (fun _ _ input h _ => step_follows hio hserver h input) (cia418ReferenceInit memory)
      [.initialized] inputs (init_follows memory []) (along_true _ _ _)
  exact ⟨h.fault,h.status,h.request,h.charge,fun o io hentry => published_read hio h hentry⟩

/-- The io functions of the stack over the generated objects. -/
def generatedEntries : ObjectDictionary Memory := fun index subIndex =>
  (objectAt index subIndex).map fun o =>
    { dataLength := o.dataLength
      sdoWritable := o.sdoWritable
      read := some fun m count => (.ok,m index subIndex,count)
      write := some fun m bytes => (assign m index subIndex bytes,.ok,bytes.length) }

theorem generated_original : OriginalIo generatedEntries where
  copies := by
    constructor
    · intro index subIndex io hentry
      obtain ⟨o,-,rfl⟩ := Option.map_eq_some_iff.mp hentry
      exact ⟨_,rfl,fun m => rfl⟩
    · intro index subIndex io write hentry hwrite m bytes hlength
      obtain ⟨o,-,rfl⟩ := Option.map_eq_some_iff.mp hentry
      cases hwrite
      exact ⟨Prod.ext rfl hlength,if_pos ⟨rfl,rfl⟩⟩
  confined := by
    intro index subIndex io write hentry hwrite m bytes _ i s hother
    obtain ⟨o,-,rfl⟩ := Option.map_eq_some_iff.mp hentry
    cases hwrite
    exact if_neg hother
  generated := by
    intro index subIndex io o hentry hobject
    obtain ⟨o',hobject',rfl⟩ := Option.map_eq_some_iff.mp hentry
    cases hobject.symm.trans hobject'
    exact ⟨rfl,rfl⟩

def checkedWrite (entries : ObjectDictionary Memory) : ServerWrite :=
  fun m index subIndex bytes =>
    match entries index subIndex with
    | none => m
    | some io =>
      match io.write with
      | none => m
      | some write =>
        if io.sdoWritable ∧ bytes.length = io.dataLength then (write m bytes).1 else m

theorem checked_writes (entries : ObjectDictionary Memory) :
    ServerWrites (checkedWrite entries) entries := by
  intro m index subIndex bytes
  unfold checkedWrite
  split
  · exact Or.inl rfl
  rename_i io hio
  split
  · exact Or.inl rfl
  rename_i write hwrite
  split
  · rename_i h
    exact Or.inr ⟨io,write,bytes,hio,hwrite,h.1,h.2,rfl⟩
  · exact Or.inl rfl

theorem readers_see_history_generated :
    let inputs : List PersonalityInput :=
      [.updateMeasurements ⟨48000,-5,80,120⟩,.writeObject 0x6001 0 3,.writeObject 0x6081 0 7,
        .forceSafe,.serverWrite 0x6001 0 [1],.serverWrite 0x6000 0 [0]]
    let final := run (personalityStep (checkedWrite generatedEntries) generatedEntries)
      (cia418ReferenceInit fun _ _ => []) inputs
    final.1.memory 0x6001 0 = [1] ∧
    cia418ReferenceReadObject (some generatedEntries) final.1.memory 0x6000 0 true = some 0x81 ∧
    cia418ReferenceReadObject (some generatedEntries) final.1.memory 0x6081 0 true = some 80 ∧
    cia418ReferenceReadObject (some generatedEntries) final.1.memory 0x6070 0 true = some 0 := by
  intro inputs final
  have h := readers_see_history generatedEntries generated_original (checkedWrite generatedEntries)
    (checked_writes generatedEntries) (fun _ _ => []) inputs
  have hread := h.2.2.2.2
  exact ⟨rfl,hread .batteryStatus _ rfl,hread .batteryStateOfCharge _ rfl,
    hread .chargeCurrentRequested _ rfl⟩

end CanopenReference.BatteryPersonality
