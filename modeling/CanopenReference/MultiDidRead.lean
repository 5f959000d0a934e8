import CanopenReference.Dialogue
import CanopenReference.UdsResponses

/-!
# Reads of several data identifiers

The request of a list of identifiers is answered with all their values or with
one refusal. The loop is followed by what it has written so far; the first
identifier that fails in the room left to it gives the refusal its code.
-/

set_option autoImplicit false

namespace CanopenReference.MultiDidRead
open Library Uds UdsDid UdsReplies UdsResponses Diagnostics Dialogue

def didBytes (did : UInt16) : List UInt8 := [(did >>> 8).toUInt8,did.toUInt8]

/-- The request for a list of identifiers. -/
def readRequest (dids : List UInt16) : List UInt8 := 0x22::dids.flatMap didBytes

def present : UdsDidValue → Option (List UInt8)
  | .data bytes => some bytes
  | .noData length => if length = 0 then some [] else none

section Registry
variable (registry : List UdsDidEntry) (session level : UInt8)

structure Readable (entry : UdsDidEntry) (value : List UInt8) : Prop where
  allowed : entry.readAllowed = true
  session : sessionAllowed entry session = true
  level : entry.minimumSecurityLevel ≤ level
  present : entry.value.bind present = some value
  length : value.length ≤ entry.maximumLength.toNat

def Offered (did : UInt16) (value : List UInt8) : Prop :=
  ∃ entry, udsDidRegistryFind registry did = some entry ∧ Readable session level entry value

def stored (did : UInt16) : List UInt8 :=
  ((udsDidRegistryFind registry did).bind fun entry => entry.value.bind present).getD []

/-- Each identifier with its value. -/
def readout (dids : List UInt16) : List UInt8 :=
  dids.flatMap fun did => didBytes did++stored registry did

/-- The code that an identifier is refused with in the room left for it. -/
def refusal (did : UInt16) (room : ℕ) : Option UInt8 :=
  if room < 2 then some nrcResponseTooLong
  else
    let read := udsDidRegistryRead registry did session level (UInt16.ofNat (room-2))
    if read.result = .ok then none else some (resultToNrc (mapDidResult read.result))

variable {registry session level}

theorem offered_stored {did : UInt16} {value : List UInt8}
    (h : Offered registry session level did value) : stored registry did = value := by
  obtain ⟨entry,hfind,hread⟩ := h
  unfold stored
  rw [hfind,Option.bind_some,hread.present]
  rfl

theorem value_read {value : UdsDidValue} {bytes : List UInt8} {room : UInt16}
    (h : present value = some bytes) (hfit : bytes.length ≤ room.toNat) :
    readValue (some value) room = ⟨.ok,bytes,UInt16.ofNat bytes.length⟩ := by
  cases value with
  | data given =>
    cases h
    exact if_neg (Nat.not_lt.mpr hfit)
  | noData length =>
    simp only [present,Option.ite_none_right_eq_some,Option.some.injEq] at h
    obtain ⟨rfl,rfl⟩ := h
    simp [readValue,noRead]

theorem value_read_ok {value : Option UdsDidValue} {room : UInt16}
    (h : (readValue value room).result = .ok) :
    ∃ bytes, value.bind present = some bytes ∧ bytes.length ≤ room.toNat := by
  unfold readValue at h
  split at h
  · cases h
  · rename_i bytes
    split at h
    · cases h
    · rename_i hfit
      exact ⟨bytes,rfl,Nat.not_lt.mp hfit⟩
  · rename_i length
    split at h
    · cases h
    split at h
    · cases h
    · rename_i hzero
      exact ⟨[],if_pos (not_not.mp hzero),Nat.zero_le _⟩

theorem read_offered {did room : UInt16} {value : List UInt8}
    (h : Offered registry session level did value) (hfit : value.length ≤ room.toNat) :
    udsDidRegistryRead registry did session level room =
      ⟨.ok,value,UInt16.ofNat value.length⟩ := by
  obtain ⟨entry,hfind,hread⟩ := h
  obtain ⟨given,hgiven,hpresent⟩ := Option.bind_eq_some_iff.mp hread.present
  have hlength : (UInt16.ofNat value.length).toNat = value.length :=
    UInt16.toNat_ofNat_of_lt' (Nat.lt_of_le_of_lt hfit room.toNat_lt)
  have hshort : ¬entry.maximumLength < UInt16.ofNat value.length := by
    rw [UInt16.lt_iff_toNat_lt,hlength]
    exact Nat.not_lt.mpr hread.length
  unfold udsDidRegistryRead
  simp only [hfind,hread.allowed,hread.session,UInt8.not_lt.mpr hread.level,hgiven,
    value_read hpresent hfit,hshort,Bool.not_true,Bool.false_eq_true,if_false,and_false]

theorem read_ok_offered {did room : UInt16}
    (h : (udsDidRegistryRead registry did session level room).result = .ok) :
    ∃ value, Offered registry session level did value ∧ value.length ≤ room.toNat := by
  unfold udsDidRegistryRead at h
  split at h
  · cases h
  rename_i entry hfind
  split at h
  · cases h
  rename_i hallowed
  split at h
  · cases h
  rename_i hsession
  split at h
  · cases h
  rename_i hlevel
  simp only at h
  split at h
  · cases h
  rename_i hlong
  obtain ⟨value,hvalue,hfit⟩ := value_read_ok h
  obtain ⟨given,hgiven,hpresent⟩ := Option.bind_eq_some_iff.mp hvalue
  refine ⟨value,⟨entry,hfind,?_,?_,UInt8.not_lt.mp hlevel,hvalue,?_⟩,hfit⟩
  · simpa using hallowed
  · simpa using hsession
  · rw [hgiven,value_read hpresent hfit] at hlong
    have hshort := mt (And.intro rfl) hlong
    rw [UInt16.lt_iff_toNat_lt,
      UInt16.toNat_ofNat_of_lt' (Nat.lt_of_le_of_lt hfit room.toNat_lt)] at hshort
    exact Nat.not_lt.mp hshort

theorem refusal_none_iff (did : UInt16) {room : ℕ} (hroom : room < 2^16) :
    refusal registry session level did room = none ↔
      ∃ value, Offered registry session level did value ∧ 2+value.length ≤ room := by
  have hsmall : (UInt16.ofNat (room-2)).toNat = room-2 :=
    UInt16.toNat_ofNat_of_lt' (Nat.lt_of_le_of_lt (Nat.sub_le _ _) hroom)
  unfold refusal
  by_cases htwo : room < 2
  · rw [if_pos htwo]
    refine iff_of_false (by simp) ?_
    rintro ⟨value,-,hfit⟩
    omega
  rw [if_neg htwo]
  simp only [ite_eq_left_iff,reduceCtorEq,imp_false,not_not]
  constructor
  · intro h
    obtain ⟨value,hoffered,hfit⟩ := read_ok_offered h
    exact ⟨value,hoffered,by omega⟩
  · rintro ⟨value,hoffered,hfit⟩
    rw [read_offered hoffered (by omega)]

end Registry

theorem bytes_of_read (high low : UInt8) : didBytes (readU16 high low) = [high,low] := by
  have hh := high.toNat_lt
  have hl := low.toNat_lt
  have hword : (readU16 high low).toNat = high.toNat*2^8+low.toNat := by
    simp only [readU16,UInt16.toNat_or,UInt16.toNat_shiftLeft,UInt8.toNat_toUInt16]
    show high.toNat <<< 8 % 2^16 ||| low.toNat = _
    rw [Nat.mod_eq_of_lt (by rw [Nat.shiftLeft_eq]; omega),
      ← Nat.shiftLeft_add_eq_or_of_lt hl,Nat.shiftLeft_eq]
  have hhigh : (readU16 high low >>> 8).toUInt8 = high := by
    apply UInt8.toNat_inj.mp
    rw [UInt16.toNat_toUInt8,UInt16.toNat_shiftRight,hword]
    show (high.toNat*2^8+low.toNat) >>> 8 % 2^8 = _
    rw [Nat.shiftRight_eq_div_pow]
    omega
  have hlow : (readU16 high low).toUInt8 = low := by
    apply UInt8.toNat_inj.mp
    rw [UInt16.toNat_toUInt8,hword]
    omega
  rw [didBytes,hhigh,hlow]

theorem dids_length (dids : List UInt16) : (dids.flatMap didBytes).length = 2*dids.length := by
  induction dids with
  | nil => rfl
  | cons did rest ih =>
    rw [List.flatMap_cons,List.length_append,ih,List.length_cons]
    show 2+_ = _
    omega

theorem dids_of_even (bytes : List UInt8) (h : bytes.length%2 = 0) :
    ∃ dids : List UInt16, bytes = dids.flatMap didBytes := by
  induction bytes using List.twoStepInduction with
  | nil => exact ⟨[],rfl⟩
  | singleton byte => cases h
  | cons_cons high low rest ih _ =>
    rw [List.length_cons,List.length_cons] at h
    obtain ⟨dids,hdids⟩ := ih (by omega)
    refine ⟨readU16 high low::dids,?_⟩
    rw [List.flatMap_cons,bytes_of_read,← hdids]
    rfl

theorem well_formed_iff {request : List UInt8} (hlow : 1 ≤ request.length)
    (hsid : byteAt request 0 = 0x22) :
    ¬(request.length < 3 ∨ (request.length-1)%2 ≠ 0) ↔
      ∃ dids, dids ≠ [] ∧ request = readRequest dids := by
  cases request with
  | nil => exact absurd hlow (by decide)
  | cons sid bytes =>
    have hsid' : sid = 0x22 := hsid
    rw [List.length_cons]
    constructor
    · intro h
      obtain ⟨dids,hdids⟩ := dids_of_even bytes (by omega)
      refine ⟨dids,?_,by rw [readRequest,hsid',hdids]⟩
      rintro rfl
      rw [hdids] at h
      exact h (Or.inl (by decide))
    · rintro ⟨dids,hsome,hrequest⟩
      have hlength := dids_length dids
      have hpos := List.length_pos_iff.mpr hsome
      cases hrequest
      omega

theorem request_injective {dids dids' : List UInt16} (h : readRequest dids = readRequest dids') :
    dids = dids' := by
  have hbytes : dids.flatMap didBytes = dids'.flatMap didBytes := (List.cons.inj h).2
  clear h
  induction dids generalizing dids' with
  | nil =>
    cases dids' with
    | nil => rfl
    | cons did rest => cases hbytes
  | cons did rest ih =>
    cases dids' with
    | nil => cases hbytes
    | cons did' rest' =>
      obtain ⟨hhigh,htail⟩ := List.cons.inj hbytes
      obtain ⟨hlow,hrest⟩ := List.cons.inj htail
      rw [ih hrest,← read_split did,← read_split did',hhigh,hlow]

theorem mapped_failure {result : UdsDidResult} (h : result ≠ .ok) :
    mapDidResult result ≠ .ok := by
  cases result with
  | ok => exact absurd rfl h
  | _ => decide

section Loop
variable {capacity : UInt16}

/-- The reply carries these bytes. -/
structure Carries (reply : Reply capacity) (bytes : List UInt8) : Prop where
  result : reply.result = .ok
  length : reply.length.toNat = bytes.length
  front : reply.buffer.front bytes.length = bytes

theorem negative_carries (request : List UInt8) (nrc : UInt8) (reply : Reply capacity)
    (hcap : 3 ≤ capacity) :
    Carries (negativeResponse request nrc reply) [0x7F,byteAt request 0,nrc] := by
  unfold negativeResponse
  rw [if_neg (UInt16.not_lt.mpr hcap)]
  exact ⟨rfl,rfl,Buffer.front_write_zero reply.buffer [0x7F,byteAt request 0,nrc]
    (UInt16.le_iff_toNat_le.mp hcap)⟩

structure Filling (reply : Reply capacity) (written : List UInt8) : Prop where
  length : reply.length.toNat = written.length
  front : reply.buffer.front written.length = written
  fits : written.length ≤ capacity.toNat

variable {reply : Reply capacity} {written : List UInt8}

theorem room_left (h : Filling reply written) :
    (capacity-reply.length).toNat = capacity.toNat-written.length := by
  rw [UInt16.toNat_sub_of_le _ _ (UInt16.le_iff_toNat_le.mpr (by rw [h.length]; exact h.fits)),
    h.length]

theorem header_filling (h : Filling reply written) (did : UInt16)
    (hroom : written.length+2 ≤ capacity.toNat) :
    Filling (addressed reply (did >>> 8).toUInt8 did.toUInt8) (written++didBytes did) := by
  have hc := capacity.toNat_lt
  have hlength : (written++didBytes did).length = written.length+2 := by
    rw [List.length_append]
    rfl
  refine ⟨?_,?_,by rw [hlength]; exact hroom⟩
  · show (reply.length+2).toNat = _
    rw [UInt16.toNat_add,hlength,h.length]
    show (written.length+2)%2^16 = _
    omega
  · show (reply.buffer.write reply.length.toNat (didBytes did)).front _ = _
    rw [hlength,h.length]
    exact (Buffer.front_write reply.buffer written.length (didBytes did) hroom).trans
      (by rw [h.front])

theorem value_filling (h : Filling reply written) (request value : List UInt8)
    (hroom : written.length+value.length ≤ capacity.toNat) :
    Filling (appendFilled ⟨.ok,value,UInt16.ofNat value.length⟩ request reply)
      (written++value) := by
  have hc := capacity.toNat_lt
  have hvalue : (UInt16.ofNat value.length).toNat = value.length :=
    UInt16.toNat_ofNat_of_lt' (Nat.lt_of_le_of_lt (Nat.le_of_add_left_le hroom) hc)
  have hgood : ¬((UdsCallbackResult.ok ≠ .ok) ∨
      capacity-reply.length < UInt16.ofNat value.length) := by
    rw [not_or,UInt16.lt_iff_toNat_lt,room_left h,hvalue]
    exact ⟨not_not.mpr rfl,by omega⟩
  have hlength : (written++value).length = written.length+value.length := List.length_append
  refine ⟨?_,?_,by rw [hlength]; exact hroom⟩
  · rw [(append_length request reply _ hgood).2,UInt16.toNat_add,hvalue,h.length,hlength]
    exact Nat.mod_eq_of_lt (by omega)
  · simp only [appendFilled,ne_eq,not_true,if_false,if_neg (not_or.mp hgood).2]
    show (reply.buffer.write reply.length.toNat value).front _ = _
    rw [hlength,h.length,Buffer.front_write reply.buffer written.length value hroom,h.front]

end Loop

section Outcome
variable {μ : Type} {capacity : UInt16} (server : UdsServer) (context : UdsContext μ)

def Available (did : UInt16) : Prop :=
  ∃ value, Offered context.didRegistry server.session server.securityLevel did value

inductive Outcome (request : List UInt8) (dids : List UInt16) (written : List UInt8)
    (reply : Reply capacity) : Prop where
  | complete (havailable : ∀ did ∈ dids, Available server context did)
      (hfits : (written++readout context.didRegistry dids).length ≤ capacity.toNat)
      (hreply : Carries reply (written++readout context.didRegistry dids))
  | refused (done rest : List UInt16) (did : UInt16) (nrc : UInt8) (hdids : dids = done++did::rest)
      (havailable : ∀ did ∈ done, Available server context did)
      (hfits : (written++readout context.didRegistry done).length ≤ capacity.toNat)
      (hnrc : refusal context.didRegistry server.session server.securityLevel did
        (capacity.toNat-(written++readout context.didRegistry done).length) = some nrc)
      (hreply : Carries reply [0x7F,byteAt request 0,nrc])

theorem refused_first {request written : List UInt8} {reply : Reply capacity} {did : UInt16}
    {nrc : UInt8} (rest : List UInt16) (hfits : written.length ≤ capacity.toNat)
    (hnrc : refusal context.didRegistry server.session server.securityLevel did
      (capacity.toNat-written.length) = some nrc)
    (hreply : Carries reply [0x7F,byteAt request 0,nrc]) :
    Outcome server context request (did::rest) written reply := by
  have hnone : written++readout context.didRegistry [] = written := List.append_nil written
  refine .refused [] rest did nrc rfl (by simp) ?_ ?_ hreply
  · rw [hnone]
    exact hfits
  · rw [hnone]
    exact hnrc

theorem outcome_cons {request written value : List UInt8} {reply : Reply capacity}
    {did : UInt16} {dids : List UInt16}
    (hoffered : Offered context.didRegistry server.session server.securityLevel did value)
    (h : Outcome server context request dids (written++didBytes did++value) reply) :
    Outcome server context request (did::dids) written reply := by
  have hstored := offered_stored hoffered
  have hcons : ∀ later, written++readout context.didRegistry (did::later) =
      written++didBytes did++value++readout context.didRegistry later := by
    intro later
    simp only [readout,List.flatMap_cons,hstored,List.append_assoc]
  have havail : ∀ later, (∀ d ∈ later, Available server context d) →
      ∀ d ∈ did::later, Available server context d := by
    intro later hlater d hd
    rcases List.mem_cons.mp hd with rfl | hd
    · exact ⟨value,hoffered⟩
    · exact hlater d hd
  cases h with
  | complete havailable hfits hreply =>
    rw [← hcons] at hfits hreply
    exact .complete (havail dids havailable) hfits hreply
  | refused done rest last nrc hdids havailable hfits hnrc hreply =>
    rw [← hcons] at hfits hnrc
    exact .refused (did::done) rest last nrc (by rw [hdids]; rfl) (havail done havailable) hfits
      hnrc hreply

theorem read_dids_step (request : List UInt8) (did : UInt16) (rest written : List UInt8)
    (reply : Reply capacity) (hcap : 3 ≤ capacity) (hfill : Filling reply written) :
    (∃ nrc, refusal context.didRegistry server.session server.securityLevel did
          (capacity.toNat-written.length) = some nrc ∧
        Carries (readDids udsReadDid server request context (didBytes did++rest) reply).reply
          [0x7F,byteAt request 0,nrc]) ∨
    ∃ value next, Offered context.didRegistry server.session server.securityLevel did value ∧
      Filling next (written++didBytes did++value) ∧
      readDids udsReadDid server request context (didBytes did++rest) reply =
        readDids udsReadDid server request context rest next := by
  have hleft := room_left hfill
  have hbytes : didBytes did++rest = (did >>> 8).toUInt8::did.toUInt8::rest := rfl
  rw [hbytes]
  by_cases hspace : capacity-reply.length < 2
  · have hroom : capacity.toNat-written.length < 2 := by
      rw [← hleft]
      exact UInt16.lt_iff_toNat_lt.mp hspace
    refine Or.inl ⟨nrcResponseTooLong,if_pos hroom,?_⟩
    rw [readDids,if_pos hspace]
    exact negative_carries request _ reply hcap
  have htwo : 2 ≤ capacity.toNat-written.length := by
    rw [← hleft]
    exact UInt16.le_iff_toNat_le.mp (UInt16.not_lt.mp hspace)
  have hheader := header_filling hfill did (by omega)
  have hheaderLength : (written++didBytes did).length = written.length+2 := List.length_append
  generalize hreply : addressed reply (did >>> 8).toUInt8 did.toUInt8 = header at hheader
  have hsmall : capacity.toNat-written.length-2 < 2^16 :=
    Nat.lt_of_le_of_lt (by omega : _ ≤ capacity.toNat) capacity.toNat_lt
  have hroom : capacity-header.length = UInt16.ofNat (capacity.toNat-written.length-2) := by
    apply UInt16.toNat_inj.mp
    rw [room_left hheader,hheaderLength,UInt16.toNat_ofNat_of_lt' hsmall]
    omega
  generalize hread : udsDidRegistryRead context.didRegistry did server.session
    server.securityLevel (UInt16.ofNat (capacity.toNat-written.length-2)) = read
  have hcall : udsReadDid server context (readU16 (did >>> 8).toUInt8 did.toUInt8)
      (capacity-(addressed reply (did >>> 8).toUInt8 did.toUInt8).length) =
        (context,⟨mapDidResult read.result,read.bytes,read.length⟩) := by
    rw [read_split,hreply,hroom]
    unfold udsReadDid
    rw [hread]
  rw [read_dids_round server context request reply hspace hcall,hreply]
  by_cases hok : read.result = .ok
  · rw [← hread] at hok
    obtain ⟨value,hoffered,hfit⟩ := read_ok_offered hok
    rw [read_offered hoffered hfit] at hread
    subst hread
    rw [UInt16.toNat_ofNat_of_lt' hsmall] at hfit
    have hlength : (UInt16.ofNat value.length).toNat = value.length :=
      UInt16.toNat_ofNat_of_lt' (Nat.lt_of_le_of_lt hfit hsmall)
    have hgood : ¬(mapDidResult .ok ≠ .ok ∨
        capacity-header.length < UInt16.ofNat value.length) := by
      rw [not_or,UInt16.lt_iff_toNat_lt,room_left hheader,hheaderLength,hlength]
      exact ⟨not_not.mpr rfl,by omega⟩
    rw [if_neg hgood]
    exact Or.inr ⟨value,_,hoffered,
      value_filling hheader request value (by rw [hheaderLength]; omega),rfl⟩
  · have hmapped := mapped_failure hok
    rw [if_pos (Or.inl hmapped)]
    refine Or.inl ⟨resultToNrc (mapDidResult read.result),?_,?_⟩
    · unfold refusal
      rw [if_neg (Nat.not_lt.mpr htwo),hread]
      exact if_neg hok
    · unfold appendFilled callbackResult
      simp only [ne_eq,hmapped,not_false_eq_true,if_true,if_false]
      exact negative_carries request _ _ hcap

theorem read_dids_outcome (request : List UInt8) (dids : List UInt16) (written : List UInt8)
    (reply : Reply capacity) (hcap : 3 ≤ capacity) (hfill : Filling reply written) :
    Outcome server context request dids written
      (readDids udsReadDid server request context (dids.flatMap didBytes) reply).reply := by
  induction dids generalizing written reply with
  | nil =>
    have hnone : written++readout context.didRegistry [] = written := List.append_nil written
    refine .complete (by simp) ?_ ?_
    · rw [hnone]
      exact hfill.fits
    · rw [hnone]
      exact ⟨rfl,hfill.length,hfill.front⟩
  | cons did dids ih =>
    rw [List.flatMap_cons]
    rcases read_dids_step server context request did (dids.flatMap didBytes) written reply hcap hfill
      with ⟨nrc,hnrc,hrefused⟩ | ⟨value,next,hoffered,hnext,hrest⟩
    · exact refused_first server context dids hfill.fits hnrc hrefused
    · rw [hrest]
      exact outcome_cons server context hoffered (ih _ next hnext)

end Outcome

section Reading
variable {μ : Type} {capacity : UInt16} (cb : UdsCallbacks (UdsContext μ)) (server : UdsServer)
  (context : UdsContext μ) (request : List UInt8) (reply : Reply capacity) (now : UInt32)

/-- The response memory after a request, whatever the other callbacks are. -/
def readReply : Reply capacity :=
  (udsServerHandle { cb with readDid := some udsReadDid } server context request reply now).reply

/-- The request lists identifiers that are all available and fit together. -/
def Complete (capacity : UInt16) (dids : List UInt16) : Prop :=
  dids ≠ [] ∧ request = readRequest dids ∧ (∀ did ∈ dids, Available server context did) ∧
    1+(readout context.didRegistry dids).length ≤ capacity.toNat

/-- The code of the first identifier that fails in the room left to it. -/
def FirstFailing (capacity : UInt16) (nrc : UInt8) : Prop :=
  ∃ done did rest, request = readRequest (done++did::rest) ∧
    (∀ did ∈ done, Available server context did) ∧
    1+(readout context.didRegistry done).length ≤ capacity.toNat ∧
    refusal context.didRegistry server.session server.securityLevel did
      (capacity.toNat-(1+(readout context.didRegistry done).length)) = some nrc

theorem carries_head {reply : Reply capacity} {bytes rest : List UInt8}
    (h : Carries reply (0x62::bytes)) (h' : Carries reply (0x7F::rest)) : False := by
  have hfront := h.front
  rw [← h.length,h'.length,h'.front] at hfront
  exact absurd (List.cons.inj hfront).1 (by decide)

theorem failing_incomplete {nrc : UInt8}
    (h : FirstFailing server context request capacity nrc) (dids : List UInt16) :
    ¬Complete server context request capacity dids := by
  obtain ⟨done,did,rest,hrequest,-,-,hnrc⟩ := h
  rintro ⟨-,hsame,havailable,hfits⟩
  cases request_injective (hsame.symm.trans hrequest)
  obtain ⟨value,hoffered⟩ := havailable did (by simp)
  have hlength : (readout context.didRegistry (done++did::rest)).length =
      (readout context.didRegistry done).length+(2+value.length)+
        (readout context.didRegistry rest).length := by
    simp only [readout,List.flatMap_append,List.flatMap_cons,List.length_append,
      offered_stored hoffered]
    show _+((2+_)+_) = _
    omega
  have hc := capacity.toNat_lt
  rw [(refusal_none_iff did (by omega)).mpr ⟨value,hoffered,by omega⟩] at hnrc
  cases hnrc

theorem read_outcome (hcap : 3 ≤ capacity) (hsid : byteAt request 0 = 0x22)
    (hhigh : request.length ≤ udsMaxRequestLength) :
    (∃ dids, Complete server context request capacity dids ∧
      Carries (readReply cb server context request reply now)
        (0x62::readout context.didRegistry dids)) ∨
    ∃ nrc, Carries (readReply cb server context request reply now) [0x7F,0x22,nrc] ∧
      ((¬∃ dids, dids ≠ [] ∧ request = readRequest dids) ∧
          nrc = nrcIncorrectMessageLengthOrInvalidFormat ∨
        FirstFailing server context request capacity nrc) := by
  have hlow : 1 ≤ request.length := by
    cases request with
    | nil => cases hsid
    | cons => exact Nat.succ_pos _
  have hn : ¬(capacity = 0 ∨ request.length = 0 ∨ udsMaxRequestLength < request.length) := by
    rintro (h | h | h)
    · rw [h] at hcap
      exact absurd hcap (by decide)
    · omega
    · omega
  have hdispatch : readReply cb server context request reply now =
      (serviceReadData { cb with readDid := some udsReadDid } { server with lastActivityMs := now }
        context request { reply with length := 0 }).reply := by
    unfold readReply udsServerHandle dispatch
    rw [if_neg hn,hsid]
    rfl
  rw [hdispatch]
  unfold serviceReadData
  by_cases hform : request.length < 3 ∨ (request.length-1)%2 ≠ 0
  · simp only [if_pos hform]
    refine Or.inr ⟨nrcIncorrectMessageLengthOrInvalidFormat,?_,Or.inl ⟨?_,rfl⟩⟩
    · rw [← hsid]
      exact negative_carries request _ _ hcap
    · exact fun h => (well_formed_iff hlow hsid).mpr h hform
  simp only [if_neg hform]
  obtain ⟨dids,hsome,hrequest⟩ := (well_formed_iff hlow hsid).mp hform
  have htail : request.drop 1 = dids.flatMap didBytes := by rw [hrequest]; rfl
  have hone : 1 ≤ capacity.toNat :=
    Nat.le_trans (by decide : 1 ≤ (3 : UInt16).toNat) (UInt16.le_iff_toNat_le.mp hcap)
  have hfill : Filling { reply.put 0 [0x62] with length := 1 } [0x62] :=
    ⟨rfl,Buffer.front_write_zero reply.buffer [0x62] hone,hone⟩
  rw [htail]
  have hcons : ∀ dids, [0x62]++readout context.didRegistry dids =
      0x62::readout context.didRegistry dids := fun _ => rfl
  cases read_dids_outcome { server with lastActivityMs := now } context request dids [0x62] _ hcap
    hfill with
  | complete havailable hfits hreply =>
    refine Or.inl ⟨dids,⟨hsome,hrequest,havailable,?_⟩,hreply⟩
    rw [hcons,List.length_cons] at hfits
    omega
  | refused done rest did nrc hdids havailable hfits hnrc hreply =>
    rw [hsid] at hreply
    rw [hcons,List.length_cons,Nat.add_comm] at hfits hnrc
    exact Or.inr ⟨nrc,hreply,Or.inr ⟨done,did,rest,by rw [hrequest,hdids],havailable,hfits,hnrc⟩⟩

/-- A positive response to exactly the complete requests, with all their values;
every other request is refused with the code of its first failing identifier. -/
theorem multi_read_exact (hcap : 3 ≤ capacity) (hsid : byteAt request 0 = 0x22)
    (hhigh : request.length ≤ udsMaxRequestLength) :
    let answered := readReply cb server context request reply now
    ((∃ bytes, Carries answered (0x62::bytes)) ↔
      ∃ dids, Complete server context request capacity dids) ∧
    (∀ dids, Complete server context request capacity dids →
      Carries answered (0x62::readout context.didRegistry dids)) ∧
    ((¬∃ dids, Complete server context request capacity dids) →
      ∃ nrc, Carries answered [0x7F,0x22,nrc] ∧
        ((¬∃ dids, dids ≠ [] ∧ request = readRequest dids) ∧
            nrc = nrcIncorrectMessageLengthOrInvalidFormat ∨
          FirstFailing server context request capacity nrc)) := by
  intro answered
  rcases read_outcome cb server context request reply now hcap hsid hhigh with
    ⟨dids,hcomplete,hreply⟩ | ⟨nrc,hreply,hcause⟩
  · have hsame : ∀ dids', Complete server context request capacity dids' → dids' = dids :=
      fun dids' h => request_injective (h.2.1.symm.trans hcomplete.2.1)
    refine ⟨iff_of_true ⟨_,hreply⟩ ⟨dids,hcomplete⟩,?_,fun h => absurd ⟨dids,hcomplete⟩ h⟩
    intro dids' h
    rw [hsame dids' h]
    exact hreply
  · have hincomplete : ∀ dids, ¬Complete server context request capacity dids := by
      intro dids h
      rcases hcause with ⟨hform,-⟩ | hfailing
      · exact hform ⟨dids,h.1,h.2.1⟩
      · exact failing_incomplete server context request hfailing dids h
    refine ⟨iff_of_false ?_ ?_,fun dids h => absurd h (hincomplete dids),fun _ => ⟨nrc,hreply,hcause⟩⟩
    · rintro ⟨bytes,h⟩
      exact carries_head h hreply
    · rintro ⟨dids,h⟩
      exact hincomplete dids h

end Reading

def projectContext : UdsContext Unit := (applicationInit none () 0).context

theorem multi_read_exact_two :
    Carries (readReply referenceCallbacks (udsServerInit 0) projectContext
        (readRequest [didCanopenNodeId,didCanBitrate]) (blankReply 16) 5)
      [0x62,0xF1,0xA0,0x01,0xF1,0xA1,0x00,0x07,0xA1,0x20] := by
  have hnode : Available (udsServerInit 0) projectContext didCanopenNodeId :=
    ⟨[0x01],_,rfl,⟨rfl,rfl,by decide,rfl,by decide⟩⟩
  have hbitrate : Available (udsServerInit 0) projectContext didCanBitrate :=
    ⟨[0x00,0x07,0xA1,0x20],_,rfl,⟨rfl,rfl,by decide,rfl,by decide⟩⟩
  exact (multi_read_exact referenceCallbacks (udsServerInit 0) projectContext _ (blankReply 16) 5
    (by decide) (by decide) (by decide)).2.1 [didCanopenNodeId,didCanBitrate]
      ⟨by decide,rfl,by simp [hnode,hbitrate],by decide⟩

/-- Half an identifier behind an unknown one is refused for the format, and a request
over the request length gets no response at all. -/
theorem formats_before_identifiers :
    (Carries (readReply referenceCallbacks (udsServerInit 0) projectContext
        [0x22,0x00,0x01,0xFF] (blankReply 8) 5) [0x7F,0x22,0x13] ∧
      refusal projectContext.didRegistry udsSessionDefault 0 0x0001 7 = some 0x31) ∧
    ¬∃ response, Carries (readReply referenceCallbacks (udsServerInit 0) projectContext
      (List.replicate 4097 0x22) (blankReply 8) 5) response := by
  refine ⟨⟨⟨by decide,by decide,by decide⟩,by decide⟩,?_⟩
  rintro ⟨response,hresult,-,-⟩
  unfold readReply at hresult
  rw [handle_dropped _ _ _ _ _ _ (by rw [List.length_replicate]; decide)] at hresult
  cases hresult

end CanopenReference.MultiDidRead
