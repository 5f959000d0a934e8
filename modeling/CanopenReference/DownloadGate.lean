import CanopenReference.DownloadSafety
import CanopenReference.Handling

/-!
# The gate before the staging memory

Neither the download services nor their callbacks look at the session or at the
security level. A run erases and programs behind the gate exactly when the
requests that get through the remaining checks all arrive behind it.
-/

set_option autoImplicit false

namespace CanopenReference.DownloadGate
open Library Library.Runs Download DownloadSafety Uds Diagnostics Handling

def Gated (server : UdsServer) : Prop :=
  server.session = udsSessionProgramming ∧ server.securityLevel ≠ 0

instance gatedDecidable (server : UdsServer) : Decidable (Gated server) :=
  inferInstanceAs (Decidable (_ ∧ _))

def Writes : MemoryCall → Prop
  | .eraseStart _ _ | .program _ _ => True
  | _ => False

/-- Erasing and programming happen behind the gate only. -/
def GatedEvent : ApplicationEvent → Prop
  | .callback (.memory server call) => Writes call → Gated server
  | _ => True

instance writesDecidable : ∀ call, Decidable (Writes call)
  | .eraseStart _ _ | .program _ _ => isTrue trivial
  | .erasePoll | .verifyImage _ | .abort | .watchdogKick => isFalse id

instance gatedEventDecidable : ∀ e, Decidable (GatedEvent e)
  | .callback (.memory server call) => inferInstanceAs (Decidable (Writes call → Gated server))
  | .callback (.seedIssued _) | .callback (.keyAccepted _) | .sessionControl | .s3Timeout =>
    isTrue trivial

section Calls
variable {σ : Type} (d : UdsDownload σ)

def WriteAdmitted (block : UInt8) (data : List UInt8) (now : UInt32) : Prop :=
  let length := UInt32.ofNat data.length
  d.callbacks.program.isSome = true ∧ data.length ≠ 0 ∧ data.length ≤ udsDownloadMaxChunkLength ∧
    d.state = .receiving ∧ timeExpired now d.deadlineMs = false ∧ block = d.expectedBlock ∧
    length ≤ d.metadata.imageLength-d.metadata.receivedLength ∧
    d.metadata.receivedLength%d.memory.programAlignment = 0 ∧
    length%d.memory.programAlignment = 0

theorem kick_quiet : ∀ call ∈ (kickWatchdog d).2, ¬Writes call := by
  unfold kickWatchdog
  cases d.callbacks.watchdogKick with
  | none => simp
  | some watchdogKick => simp [Writes]

theorem abort_quiet : ∀ call ∈ (udsDownloadAbort d).2, ¬Writes call := by
  unfold udsDownloadAbort
  cases d.callbacks.abort with
  | none => simp
  | some abort => simp [Writes]

theorem tick_quiet (now : UInt32) : ∀ call ∈ (udsDownloadTick d now).2.2, ¬Writes call := by
  unfold udsDownloadTick
  split
  · simp
  split
  · exact abort_quiet d
  · exact kick_quiet d

theorem poll_quiet (now : UInt32) :
    ∀ call ∈ (udsDownloadPollErase d now).2.2, ¬Writes call := by
  unfold udsDownloadPollErase
  cases d.callbacks.erasePoll with
  | none => simp
  | some erasePoll =>
    simp only
    split
    · simp
    split
    · exact abort_quiet d
    · intro call hc
      rcases List.mem_append.mp hc with hc | hc
      · exact kick_quiet d call hc
      · rw [List.mem_singleton.mp hc]
        exact id

theorem finish_quiet (crc : UInt32) (has : Bool) (now : UInt32) :
    ∀ call ∈ (udsDownloadFinish d crc has now).2.2, ¬Writes call := by
  unfold udsDownloadFinish
  cases d.callbacks.verifyImage with
  | none => simp
  | some verifyImage =>
    simp only
    split
    · simp
    split
    · exact abort_quiet d
    split
    · exact abort_quiet _
    split
    · intro call hc
      rcases List.mem_cons.mp hc with rfl | hc
      · exact id
      · exact abort_quiet _ call hc
    · simp [Writes]

theorem begin_writes (address length now : UInt32) :
    (∃ call ∈ (udsDownloadBegin d address length now).2.2, Writes call) ↔
      beginRefusal d address length = none := by
  unfold udsDownloadBegin
  cases hr : beginRefusal d address length with
  | some refusal => simp
  | none =>
    cases he : d.callbacks.eraseStart with
    | none => simp [beginRefusal,he] at hr
    | some eraseStart =>
      simp only
      split <;> simp [Writes]

theorem write_writes (block : UInt8) (data : List UInt8) (now : UInt32) :
    (∃ call ∈ (udsDownloadWrite d block data now).2.2, Writes call) ↔
      WriteAdmitted d block data now := by
  have hquiet : ∀ {calls : List MemoryCall}, (∀ call ∈ calls, ¬Writes call) →
      ¬WriteAdmitted d block data now →
      ((∃ call ∈ calls, Writes call) ↔ WriteAdmitted d block data now) := by
    intro calls hq ha
    constructor
    · rintro ⟨call,hc,hw⟩
      exact absurd hw (hq call hc)
    · exact fun h => absurd h ha
  unfold udsDownloadWrite
  cases hp : d.callbacks.program with
  | none =>
    exact hquiet (by simp) fun ⟨h,_⟩ => by simp [hp] at h
  | some program =>
    simp only
    split
    · rename_i h
      exact hquiet (by simp) fun ⟨_,h1,h2,h3,_⟩ => by
        rcases h with h | h | h
        · exact h1 h
        · exact Nat.not_lt.mpr h2 h
        · exact h h3
    rename_i hready
    simp only [not_or,Nat.not_lt,not_not] at hready
    split
    · rename_i h
      exact hquiet (abort_quiet d) fun ⟨_,_,_,_,hc,_⟩ => by simp [h] at hc
    rename_i htime
    split
    · rename_i h
      exact hquiet (by simp) fun ⟨_,_,_,_,_,hc,_⟩ => h hc
    rename_i hblock
    split
    · rename_i h
      exact hquiet (by simp) fun ⟨_,_,_,_,_,_,hc,_⟩ => UInt32.not_le.mpr h hc
    rename_i hroom
    split
    · rename_i h
      exact hquiet (by simp) fun ⟨_,_,_,_,_,_,_,hc,hd⟩ => by
        rcases (chunk_misaligned _ _ _).mp h with h | h
        · exact h hc
        · exact h hd
    rename_i halign
    rw [chunk_misaligned,not_or,not_not,not_not] at halign
    have hadmitted : WriteAdmitted d block data now :=
      ⟨by simp [hp],hready.1,hready.2.1,hready.2.2,by simpa using htime,not_not.mp hblock,
        UInt32.not_lt.mp hroom,halign.1,halign.2⟩
    refine iff_of_true ?_ hadmitted
    split
    · exact ⟨_,List.mem_singleton_self _,trivial⟩
    · exact ⟨_,List.mem_cons_self ..,trivial⟩

end Calls

section Run
variable {μ : Type}

def ReachesMemory (app : UdsApplication μ) (request : List UInt8) (now : UInt32) : Prop :=
  request.length ≤ udsMaxRequestLength ∧
    (byteAt request 0 = 0x34 ∧ downloadFramed request = true ∧
        beginRefusal app.context.download (downloadAddress request) (downloadLength request) =
          none ∨
      byteAt request 0 = 0x36 ∧ transferFramed app.server request = true ∧
        WriteAdmitted app.context.download (byteAt request 1) (request.drop 2) now)

/-- Requests get through to the memory only behind the gate. -/
def OnlyGated (app : UdsApplication μ) : ApplicationInput → Prop
  | .request request now => ReachesMemory app request now → Gated app.server
  | _ => True

theorem traced_gated {past context : UdsContext μ} (server : UdsServer)
    (download : UdsDownload μ) (calls : List MemoryCall) (h : context.trace = past.trace) :
    (∀ e ∈ traceSince past (traced server context download calls), GatedEvent e) ↔
      ((∃ call ∈ calls, Writes call) → Gated server) := by
  rw [trace_since_append (calls.map (.memory server)) (by simp [traced,h])]
  simp only [List.map_map,List.mem_map]
  constructor
  · rintro hall ⟨call,hc,hw⟩
    exact hall _ ⟨call,hc,rfl⟩ hw
  · rintro hg e ⟨call,hc,rfl⟩ hw
    exact hg ⟨call,hc,hw⟩

theorem quiet_gated {past context : UdsContext μ} (server : UdsServer)
    (download : UdsDownload μ) (calls : List MemoryCall) (h : context.trace = past.trace)
    (hq : ∀ call ∈ calls, ¬Writes call) :
    ∀ e ∈ traceSince past (traced server context download calls), GatedEvent e :=
  (traced_gated server download calls h).mpr fun ⟨call,hc,hw⟩ => absurd hw (hq call hc)

theorem untraced_gated {past next : UdsContext μ} (h : next.trace = past.trace) :
    ∀ e ∈ traceSince past next, GatedEvent e := by
  rw [trace_since_append [] (by simpa using h)]
  simp

theorem effect_gated {past context handled : UdsContext μ} {server next : UdsServer}
    {request : List UInt8} (htrace : context.trace = past.trace)
    (h : RequestEffect server context request next handled)
    (hdownload : byteAt request 0 = 0x34 → downloadFramed request = true →
      beginRefusal context.download (downloadAddress request) (downloadLength request) = none →
      Gated server)
    (htransfer : byteAt request 0 = 0x36 → transferFramed server request = true →
      WriteAdmitted context.download (byteAt request 1) (request.drop 2) context.nowMs →
      Gated server) :
    ∀ e ∈ traceSince past handled, GatedEvent e := by
  cases h with
  | seed room _ =>
    rcases seed_outcome server context (keyLevel request) room with ⟨security,_,he⟩ | he
    · rw [he,trace_since_append [.seedIssued (keyLevel request)] (by simp [htrace])]
      simp [GatedEvent]
    · rw [he]
      exact untraced_gated htrace
  | key _ _ _ =>
    rcases key_outcome server context (keyLevel request) (request.drop 2) with
      ⟨_,he⟩ | ⟨_,_,_,he⟩
    · rw [he,trace_since_append [.keyAccepted (keyLevel request)] (by simp [htrace])]
      simp [GatedEvent]
    · rw [he]
      exact untraced_gated htrace
  | download _ hsid hframed _ =>
    rw [request_download_context]
    refine (traced_gated server _ _ htrace).mpr fun hw => ?_
    exact hdownload hsid hframed ((begin_writes _ _ _ _).mp hw)
  | transfer _ hsid hframed _ =>
    refine (traced_gated server _ _ htrace).mpr fun hw => ?_
    exact htransfer hsid hframed ((write_writes _ _ _ _).mp hw)
  | exit room _ _ _ _ =>
    rcases transfer_exit_context server context (request.drop 1) room with he | ⟨_,_,he⟩
    · rw [he]
      exact untraced_gated htrace
    · rw [he]
      exact quiet_gated server _ _ htrace (finish_quiet _ _ _ _)
  | _ => exact untraced_gated htrace

theorem reach_gated {app : UdsApplication μ} {request : List UInt8} {now : UInt32}
    (h : ReachesMemory app request now)
    (hall : ∀ e ∈ traceSince app.context (handleRequest (atTime app now) request now).1.context,
      GatedEvent e) : Gated app.server := by
  obtain ⟨hlength,⟨hsid,hframed,hadmitted⟩ | ⟨hsid,hframed,hadmitted⟩⟩ := h
  · rw [handle_download _ _ _ hsid hframed hlength,request_download_context] at hall
    have hg := (traced_gated _ _ _ (by rfl)).mp hall
    exact hg ((begin_writes _ _ _ _).mpr hadmitted)
  · rw [handle_transfer (atTime app now) _ _ hsid hframed hlength] at hall
    have hg := (traced_gated _ _ _ (by rfl)).mp hall
    exact hg ((write_writes _ _ _ _).mpr hadmitted)

theorem request_gated (app : UdsApplication μ) (request : List UInt8) (now : UInt32) :
    (∀ e ∈ (applicationStep app (.request request now)).2, GatedEvent e) ↔
      OnlyGated app (.request request now) := by
  have hh := handle_effect (atTime app now) request now
  simp only [applicationStep]
  constructor
  · intro hall hreach
    exact reach_gated hreach fun e he => hall e (List.mem_append.mpr (Or.inr he))
  · intro hc e he
    rcases List.mem_append.mp he with he | he
    · split at he
      · rw [List.mem_singleton.mp he]
        trivial
      · cases he
    rcases hh with ⟨_,_,hcontext⟩ | ⟨hlength,heffect⟩
    · rw [hcontext] at he
      exact untraced_gated rfl e he
    · refine effect_gated rfl heffect (fun h1 h2 h3 => ?_) (fun h1 h2 h3 => ?_) e he
      · exact hc ⟨hlength,Or.inl ⟨h1,h2,h3⟩⟩
      · exact hc ⟨hlength,Or.inr ⟨h1,h2,h3⟩⟩

theorem step_gated (app : UdsApplication μ) (input : ApplicationInput) :
    (∀ e ∈ (applicationStep app input).2, GatedEvent e) ↔ OnlyGated app input := by
  cases input with
  | request request now => exact request_gated app request now
  | tick now =>
    refine iff_of_true (fun e he => ?_) trivial
    rcases List.mem_append.mp he with he | he
    · split at he
      · rw [List.mem_singleton.mp he]
        trivial
      · cases he
    · exact quiet_gated (udsServerTick app.server now).1 (udsDownloadTick app.context.download now).1
        _ rfl (tick_quiet app.context.download now) e he
  | pollErase now =>
    exact iff_of_true (quiet_gated _ _ _ rfl (poll_quiet _ _)) trivial

/-- A run erases and programs behind the gate only, exactly when every request
that gets through to the memory arrives behind the gate. -/
theorem writes_gated (callbacks : UdsDownloadCallbacks μ) (memory : μ) (now : UInt32)
    (inputs : List ApplicationInput) :
    (∀ e ∈ (run applicationStep (applicationInit (some callbacks) memory now) inputs).2,
      GatedEvent e) ↔
    Along applicationStep OnlyGated (applicationInit (some callbacks) memory now) inputs :=
  along_iff_events applicationStep OnlyGated (fun _ => True) GatedEvent (fun _ _ _ _ => trivial)
    (fun app input _ => step_gated app input) _ inputs trivial

end Run

/-- A request for the first four bytes of the staging image. -/
def stagingRequest : List UInt8 := [0x34,0x44,0x08,0x08,0x00,0x00,0x00,0x00,0x00,0x04]

/-- A fresh server in the default session starts an erase, and a transfer goes
on to program after the session has been left. -/
theorem default_session_writes :
    (∃ e ∈ (run applicationStep (applicationInit (some agreeableCallbacks) () 0)
      [.request stagingRequest 0]).2, ¬GatedEvent e) ∧
    ∃ e ∈ (run applicationStep (applicationInit (some agreeableCallbacks) () 0)
      [.request stagingRequest 0,.pollErase 0,.request [0x10,0x01] 0,
        .request [0x36,0x01,1,2,3,4] 0]).2.drop 2, ¬GatedEvent e := by
  constructor <;> decide +kernel

end CanopenReference.DownloadGate
