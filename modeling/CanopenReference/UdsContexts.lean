import Mathlib.Data.List.Induction
import CanopenReference.Uds

/-!
# A server behind two contexts

The server hands its context to the callbacks and never looks inside. A map
between two contexts that the callbacks respect is therefore respected by the
whole server. One such map forgets a record that the callbacks keep.
-/

set_option autoImplicit false

namespace CanopenReference.UdsContexts
open Uds

section Respected
variable {σ τ : Type} {capacity : UInt16}

def mapContext (f : σ → τ) (served : Served σ capacity) : Served τ capacity :=
  ⟨served.server,f served.context,served.reply⟩

/-- The second callbacks do behind `f` what the first ones do, for this server. -/
structure Respects (f : σ → τ) (server : UdsServer) (cb : UdsCallbacks σ)
    (cb' : UdsCallbacks τ) : Prop where
  readDid : Option.Rel (fun g g' => ∀ c did room,
    g' server (f c) did room = Prod.map f id (g server c did room)) cb.readDid cb'.readDid
  readDtc : Option.Rel (fun g g' => ∀ c subfunction request room,
    g' server (f c) subfunction request room =
      Prod.map f id (g server c subfunction request room)) cb.readDtc cb'.readDtc
  securitySeed : Option.Rel (fun g g' => ∀ c level room,
    g' server (f c) level room = Prod.map f id (g server c level room))
    cb.securitySeed cb'.securitySeed
  securityKey : Option.Rel (fun g g' => ∀ c level key,
    g' server (f c) level key = Prod.map f id (g server c level key))
    cb.securityKey cb'.securityKey
  communicationControl : Option.Rel (fun g g' => ∀ c subfunction communicationType,
    g' server (f c) subfunction communicationType =
      Prod.map f id (g server c subfunction communicationType))
    cb.communicationControl cb'.communicationControl
  routineControl : Option.Rel (fun g g' => ∀ c subfunction routineId request room,
    g' server (f c) subfunction routineId request room =
      Prod.map f id (g server c subfunction routineId request room))
    cb.routineControl cb'.routineControl
  requestDownload : Option.Rel (fun g g' => ∀ c address length,
    g' server (f c) address length = Prod.map f id (g server c address length))
    cb.requestDownload cb'.requestDownload
  transferData : Option.Rel (fun g g' => ∀ c block data,
    g' server (f c) block data = Prod.map f id (g server c block data))
    cb.transferData cb'.transferData
  requestTransferExit : Option.Rel (fun g g' => ∀ c request room,
    g' server (f c) request room = Prod.map f id (g server c request room))
    cb.requestTransferExit cb'.requestTransferExit
  ecuReset : Option.Rel (fun g g' => ∀ c subfunction,
    g' server (f c) subfunction = Prod.map f id (g server c subfunction))
    cb.ecuReset cb'.ecuReset
  controlDtcSetting : Option.Rel (fun g g' => ∀ c subfunction,
    g' server (f c) subfunction = Prod.map f id (g server c subfunction))
    cb.controlDtcSetting cb'.controlDtcSetting

theorem rel_cases {α β : Type} {r : α → β → Prop} {a : Option α} {b : Option β}
    (h : Option.Rel r a b) : a = none ∧ b = none ∨ ∃ x y, a = some x ∧ b = some y ∧ r x y := by
  cases h with
  | none => exact Or.inl ⟨rfl,rfl⟩
  | some h => exact Or.inr ⟨_,_,rfl,rfl,h⟩

theorem mapContext_ite (f : σ → τ) (p : Prop) [Decidable p] (x y : Served σ capacity) :
    mapContext f (if p then x else y) = if p then mapContext f x else mapContext f y :=
  apply_ite (mapContext f) p x y

section Services
variable {f : σ → τ} {server : UdsServer} {cb : UdsCallbacks σ} {cb' : UdsCallbacks τ}
  (h : Respects f server cb cb') (c : σ) (request : List UInt8) (reply : Reply capacity)
include h

theorem ecu_reset_respects : serviceEcuReset cb' server (f c) request reply =
    mapContext f (serviceEcuReset cb server c request reply) := by
  rcases rel_cases h.ecuReset with ⟨h₁,h₂⟩ | ⟨g,g',h₁,h₂,hg⟩
  · simp only [serviceEcuReset,h₁,h₂,mapContext_ite]
    rfl
  · simp only [serviceEcuReset,h₁,h₂,hg,mapContext_ite]
    rfl

theorem read_dtc_respects : serviceReadDtc cb' server (f c) request reply =
    mapContext f (serviceReadDtc cb server c request reply) := by
  rcases rel_cases h.readDtc with ⟨h₁,h₂⟩ | ⟨g,g',h₁,h₂,hg⟩
  · simp only [serviceReadDtc,h₁,h₂]
    rfl
  · simp only [serviceReadDtc,h₁,h₂,hg,mapContext_ite]
    rfl

omit h in
theorem read_dids_respects {g : UdsServer → σ → UInt16 → UInt16 → σ × Filled}
    {g' : UdsServer → τ → UInt16 → UInt16 → τ × Filled}
    (hg : ∀ c did room, g' server (f c) did room = Prod.map f id (g server c did room))
    (rest : List UInt8) :
    readDids g' server request (f c) rest reply =
      mapContext f (readDids g server request c rest reply) := by
  induction rest using List.twoStepInduction generalizing c reply with
  | nil => rfl
  | singleton x => rfl
  | cons_cons high low rest ih _ =>
    simp only [readDids,hg,mapContext_ite,Prod.map_fst,Prod.map_snd,id_eq,ih]
    rfl

theorem read_data_respects : serviceReadData cb' server (f c) request reply =
    mapContext f (serviceReadData cb server c request reply) := by
  rcases rel_cases h.readDid with ⟨h₁,h₂⟩ | ⟨g,g',h₁,h₂,hg⟩
  · simp only [serviceReadData,h₁,h₂]
    rfl
  · simp only [serviceReadData,h₁,h₂,read_dids_respects c request _ hg,mapContext_ite]
    rfl

theorem security_access_respects : serviceSecurityAccess cb' server (f c) request reply =
    mapContext f (serviceSecurityAccess cb server c request reply) := by
  rcases rel_cases h.securitySeed with ⟨h₁,h₂⟩ | ⟨g,g',h₁,h₂,hg⟩
  · simp only [serviceSecurityAccess,h₁,h₂]
    rfl
  rcases rel_cases h.securityKey with ⟨h₃,h₄⟩ | ⟨k,k',h₃,h₄,hk⟩
  · simp only [serviceSecurityAccess,h₁,h₂,h₃,h₄]
    rfl
  · simp only [serviceSecurityAccess,h₁,h₂,h₃,h₄,hg,hk,mapContext_ite]
    rfl

theorem communication_control_respects :
    serviceCommunicationControl cb' server (f c) request reply =
      mapContext f (serviceCommunicationControl cb server c request reply) := by
  rcases rel_cases h.communicationControl with ⟨h₁,h₂⟩ | ⟨g,g',h₁,h₂,hg⟩
  · simp only [serviceCommunicationControl,h₁,h₂]
    rfl
  · simp only [serviceCommunicationControl,h₁,h₂,hg,mapContext_ite]
    rfl

theorem routine_control_respects : serviceRoutineControl cb' server (f c) request reply =
    mapContext f (serviceRoutineControl cb server c request reply) := by
  rcases rel_cases h.routineControl with ⟨h₁,h₂⟩ | ⟨g,g',h₁,h₂,hg⟩
  · simp only [serviceRoutineControl,h₁,h₂]
    rfl
  · simp only [serviceRoutineControl,h₁,h₂,hg,mapContext_ite]
    rfl

theorem download_respects : serviceDownload cb' server (f c) request reply =
    mapContext f (serviceDownload cb server c request reply) := by
  rcases rel_cases h.requestDownload with ⟨h₁,h₂⟩ | ⟨g,g',h₁,h₂,hg⟩
  · simp only [serviceDownload,h₁,h₂]
    rfl
  · simp only [serviceDownload,h₁,h₂,hg,mapContext_ite]
    rfl

theorem transfer_data_respects : serviceTransferData cb' server (f c) request reply =
    mapContext f (serviceTransferData cb server c request reply) := by
  rcases rel_cases h.transferData with ⟨h₁,h₂⟩ | ⟨g,g',h₁,h₂,hg⟩
  · simp only [serviceTransferData,h₁,h₂]
    rfl
  · simp only [serviceTransferData,h₁,h₂,hg,mapContext_ite]
    rfl

theorem transfer_exit_respects : serviceTransferExit cb' server (f c) request reply =
    mapContext f (serviceTransferExit cb server c request reply) := by
  rcases rel_cases h.requestTransferExit with ⟨h₁,h₂⟩ | ⟨g,g',h₁,h₂,hg⟩
  · simp only [serviceTransferExit,h₁,h₂]
    rfl
  · simp only [serviceTransferExit,h₁,h₂,hg,mapContext_ite]
    rfl

theorem dtc_setting_respects : serviceDtcSetting cb' server (f c) request reply =
    mapContext f (serviceDtcSetting cb server c request reply) := by
  rcases rel_cases h.controlDtcSetting with ⟨h₁,h₂⟩ | ⟨g,g',h₁,h₂,hg⟩
  · simp only [serviceDtcSetting,h₁,h₂]
    rfl
  · simp only [serviceDtcSetting,h₁,h₂,hg,mapContext_ite]
    rfl

omit h in
theorem session_control_respects : serviceSessionControl server (f c) request reply =
    mapContext f (serviceSessionControl server c request reply) := by
  simp only [serviceSessionControl,mapContext_ite]
  rfl

omit h in
theorem tester_present_respects : serviceTesterPresent server (f c) request reply =
    mapContext f (serviceTesterPresent server c request reply) := by
  simp only [serviceTesterPresent,mapContext_ite]
  rfl

theorem dispatch_respects : dispatch cb' server (f c) request reply =
    mapContext f (dispatch cb server c request reply) := by
  unfold dispatch
  split
  · exact session_control_respects c request reply
  · exact ecu_reset_respects h c request reply
  · exact read_dtc_respects h c request reply
  · exact read_data_respects h c request reply
  · exact security_access_respects h c request reply
  · exact communication_control_respects h c request reply
  · rfl
  · exact routine_control_respects h c request reply
  · exact download_respects h c request reply
  · exact transfer_data_respects h c request reply
  · exact transfer_exit_respects h c request reply
  · exact tester_present_respects c request reply
  · exact dtc_setting_respects h c request reply
  · rfl

end Services

theorem handle_respects {f : σ → τ} {server : UdsServer} {cb : UdsCallbacks σ}
    {cb' : UdsCallbacks τ} (now : UInt32)
    (h : Respects f { server with lastActivityMs := now } cb cb') (c : σ)
    (request : List UInt8) (reply : Reply capacity) :
    udsServerHandle cb' server (f c) request reply now =
      mapContext f (udsServerHandle cb server c request reply now) := by
  unfold udsServerHandle
  rw [mapContext_ite,dispatch_respects h]
  rfl

end Respected

section Recording
variable {σ : Type} {capacity : UInt16}

structure Report where
  offered : UInt16
  length : UInt16
  deriving DecidableEq

def Excessive (r : Report) : Prop := r.offered < r.length

instance excessiveDecidable (r : Report) : Decidable (Excessive r) :=
  inferInstanceAs (Decidable (_ < _))

def quietly {α : Type} (log : List Report) (p : σ × α) : (σ × List Report) × α := ((p.1,log),p.2)

def noting (log : List Report) (offered : UInt16) (p : σ × Filled) :
    (σ × List Report) × Filled := ((p.1,log++[⟨offered,p.2.length⟩]),p.2)

def recording (cb : UdsCallbacks σ) : UdsCallbacks (σ × List Report) where
  readDid := cb.readDid.map fun g server c did room => noting c.2 room (g server c.1 did room)
  readDtc := cb.readDtc.map fun g server c subfunction request room =>
    noting c.2 room (g server c.1 subfunction request room)
  securitySeed := cb.securitySeed.map fun g server c level room =>
    noting c.2 room (g server c.1 level room)
  securityKey := cb.securityKey.map fun g server c level key =>
    quietly c.2 (g server c.1 level key)
  communicationControl := cb.communicationControl.map fun g server c subfunction type =>
    quietly c.2 (g server c.1 subfunction type)
  routineControl := cb.routineControl.map fun g server c subfunction routineId request room =>
    noting c.2 room (g server c.1 subfunction routineId request room)
  requestDownload := cb.requestDownload.map fun g server c address length =>
    quietly c.2 (g server c.1 address length)
  transferData := cb.transferData.map fun g server c block data =>
    quietly c.2 (g server c.1 block data)
  requestTransferExit := cb.requestTransferExit.map fun g server c request room =>
    noting c.2 room (g server c.1 request room)
  ecuReset := cb.ecuReset.map fun g server c subfunction =>
    quietly c.2 (g server c.1 subfunction)
  controlDtcSetting := cb.controlDtcSetting.map fun g server c subfunction =>
    quietly c.2 (g server c.1 subfunction)

theorem rel_map {α β : Type} {r : β → α → Prop} (m : α → β) (h : ∀ a, r (m a) a)
    (o : Option α) : Option.Rel r (o.map m) o := by
  cases o with
  | none => exact .none
  | some a => exact .some (h a)

theorem recording_respects (cb : UdsCallbacks σ) (server : UdsServer) :
    Respects Prod.fst server (recording cb) cb where
  readDid := rel_map _ (fun _ _ _ _ => rfl) _
  readDtc := rel_map _ (fun _ _ _ _ _ => rfl) _
  securitySeed := rel_map _ (fun _ _ _ _ => rfl) _
  securityKey := rel_map _ (fun _ _ _ _ => rfl) _
  communicationControl := rel_map _ (fun _ _ _ _ => rfl) _
  routineControl := rel_map _ (fun _ _ _ _ _ _ => rfl) _
  requestDownload := rel_map _ (fun _ _ _ _ => rfl) _
  transferData := rel_map _ (fun _ _ _ _ => rfl) _
  requestTransferExit := rel_map _ (fun _ _ _ _ => rfl) _
  ecuReset := rel_map _ (fun _ _ _ => rfl) _
  controlDtcSetting := rel_map _ (fun _ _ _ => rfl) _

/-- What the callbacks of one request were offered and reported. -/
def reports (cb : UdsCallbacks σ) (server : UdsServer) (context : σ) (request : List UInt8)
    (reply : Reply capacity) (nowMs : UInt32) : List Report :=
  (udsServerHandle (recording cb) server (context,[]) request reply nowMs).context.2

theorem handle_recording (cb : UdsCallbacks σ) (server : UdsServer) (context : σ)
    (request : List UInt8) (reply : Reply capacity) (now : UInt32) :
    udsServerHandle cb server context request reply now =
      mapContext Prod.fst
        (udsServerHandle (recording cb) server (context,[]) request reply now) :=
  handle_respects now (recording_respects cb _) (context,[]) request reply

end Recording
end CanopenReference.UdsContexts
