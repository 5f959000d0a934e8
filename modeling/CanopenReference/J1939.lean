import CanopenReference.Library.Fields

/-!
# J1939 identifiers

`make_j1939_id` and `parse_j1939_id` of the gateway model. The integers of the
source have no bound; past the range checks they are natural numbers.
-/

set_option autoImplicit false

namespace CanopenReference.J1939
open Library

inductive Nmea2000Error where
  | extendedIdentifier
  | framePayload
  | identifierFields
  | destinationAddress
  | missingDestination
  | identifierRange
  | batteryInstance
  | batteryMeasurement
  deriving DecidableEq

def Nmea2000Error.message : Nmea2000Error → String
  | .extendedIdentifier => "NMEA 2000 frame requires an extended CAN identifier"
  | .framePayload => "single-frame gateway payload must be 0..8 bytes"
  | .identifierFields => "invalid J1939 identifier fields"
  | .destinationAddress => "invalid destination address"
  | .missingDestination => "PDU1 PGNs require a destination"
  | .identifierRange => "extended CAN identifier out of range"
  | .batteryInstance => "battery instance out of range"
  | .batteryMeasurement => "battery measurement cannot be represented"

structure ExtendedCanFrame where
  canId : ℤ
  data : List UInt8
  extended : 0x800 ≤ canId ∧ canId ≤ 0x1FFFFFFF
  payload : data.length ≤ 8

def extendedCanFrame (canId : ℤ) (data : List UInt8) : Except Nmea2000Error ExtendedCanFrame :=
  if hid : 0x800 ≤ canId ∧ canId ≤ 0x1FFFFFFF then
    if hdata : data.length ≤ 8 then .ok ⟨canId,data,hid,hdata⟩ else .error .framePayload
  else .error .extendedIdentifier

structure J1939Id where
  priority : ℤ
  pgn : ℤ
  source : ℤ
  destination : Option ℤ
  deriving DecidableEq

def validFields (priority pgn source : ℤ) : Bool :=
  (0 ≤ priority ∧ priority ≤ 7) ∧ (0 ≤ source ∧ source ≤ 0xFF) ∧ 0 ≤ pgn ∧ pgn ≤ 0x3FFFF

def validDestination : Option ℤ → Bool
  | none => true
  | some destination => 0 ≤ destination ∧ destination ≤ 0xFF

def pduFormat (pgn : ℕ) : ℕ := (pgn >>> 8) &&& 0xFF

def makeJ1939Id (priority pgn source : ℤ) (destination : Option ℤ) : Except Nmea2000Error ℤ :=
  if !validFields priority pgn source then .error .identifierFields
  else if !validDestination destination then .error .destinationAddress
  else if 240 ≤ pduFormat pgn.toNat then
    .ok ↑((priority.toNat <<< 26) ||| (pgn.toNat <<< 8) ||| source.toNat)
  else
    match destination with
    | none => .error .missingDestination
    | some destination =>
      .ok ↑((priority.toNat <<< 26) ||| ((pgn.toNat &&& 0x3FF00) <<< 8) |||
        (destination.toNat <<< 8) ||| source.toNat)

def parseJ1939Id (canId : ℤ) : Except Nmea2000Error J1939Id :=
  if !(0 ≤ canId ∧ canId ≤ 0x1FFFFFFF : Bool) then .error .identifierRange
  else
    let id := canId.toNat
    let priority := (id >>> 26) &&& 0x7
    let pf := (id >>> 16) &&& 0xFF
    let ps := (id >>> 8) &&& 0xFF
    let source := id &&& 0xFF
    let dataPage := (id >>> 24) &&& 0x1
    if pf < 240 then .ok ⟨priority,↑((dataPage <<< 16) ||| (pf <<< 8)),source,some ↑ps⟩
    else .ok ⟨priority,↑((dataPage <<< 16) ||| (pf <<< 8) ||| ps),source,none⟩

/-- A PGN whose format field leaves no room for a destination. -/
def Pdu2 (pgn : ℤ) : Prop := 240 ≤ pgn/256%256

instance (pgn : ℤ) : Decidable (Pdu2 pgn) := inferInstanceAs (Decidable (240 ≤ _))

/-- The PGN without the byte that holds a destination. -/
def group (pgn : ℤ) : ℤ := if Pdu2 pgn then pgn else pgn/256*256

def identifier (priority pgn source destination : ℤ) : ℤ :=
  priority*2^26+group pgn*2^8+(if Pdu2 pgn then 0 else destination*2^8)+source

def readPgn (canId : ℤ) : ℤ := canId/2^24%2*2^16+canId/2^8%2^16

theorem format_iff (n : ℕ) : 240 ≤ pduFormat n ↔ Pdu2 (n : ℤ) := by
  have h : pduFormat n = n/2^8%2^8 := field_read n 8 8
  rw [h,Pdu2]
  omega

theorem valid_fields {priority pgn source : ℤ} (h : validFields priority pgn source = true) :
    (0 ≤ priority ∧ priority ≤ 7) ∧ (0 ≤ source ∧ source ≤ 0xFF) ∧ 0 ≤ pgn ∧ pgn ≤ 0x3FFFF :=
  of_decide_eq_true h

theorem pdu2_word {p g s : ℕ} (hg : g ≤ 0x3FFFF) (hs : s ≤ 0xFF) :
    (p <<< 26) ||| (g <<< 8) ||| s = p*2^26+g*2^8+s := by
  have hgroup : p*2^26 ||| g*2^8 = p*2^26+g*2^8 := @field_join _ _ 26 (by omega) (by omega)
  rw [Nat.shiftLeft_eq,Nat.shiftLeft_eq,hgroup]
  exact @field_join _ _ 8 (by omega) (by omega)

theorem pdu1_word {p g d s : ℕ} (hg : g ≤ 0x3FFFF) (hd : d ≤ 0xFF) (hs : s ≤ 0xFF) :
    (p <<< 26) ||| ((g &&& 0x3FF00) <<< 8) ||| (d <<< 8) ||| s =
      p*2^26+g/2^8*2^8*2^8+d*2^8+s := by
  have hmask : g &&& 0x3FF00 = g/2^8%2^10*2^8 := field_mask g 8 10
  have hwide : g/2^8%2^10 = g/2^8 := by omega
  have hgroup : p*2^26 ||| g/2^8*2^8*2^8 = p*2^26+g/2^8*2^8*2^8 :=
    @field_join _ _ 26 (by omega) (by omega)
  have hdest : p*2^26+g/2^8*2^8*2^8 ||| d*2^8 = p*2^26+g/2^8*2^8*2^8+d*2^8 :=
    @field_join _ _ 16 (by omega) (by omega)
  rw [hmask,hwide,Nat.shiftLeft_eq,Nat.shiftLeft_eq,Nat.shiftLeft_eq,hgroup,hdest]
  exact @field_join _ _ 8 (by omega) (by omega)

theorem make_iff (priority pgn source : ℤ) (destination : Option ℤ) (canId : ℤ) :
    makeJ1939Id priority pgn source destination = .ok canId ↔
      validFields priority pgn source = true ∧ validDestination destination = true ∧
        (Pdu2 pgn ∨ destination ≠ none) ∧
        canId = identifier priority pgn source (destination.getD 0) := by
  unfold makeJ1939Id
  cases hf : validFields priority pgn source with
  | false => simp
  | true =>
    obtain ⟨⟨hp,-⟩,⟨hs,hs'⟩,hg,hg'⟩ := valid_fields hf
    lift priority to ℕ using hp
    lift source to ℕ using hs
    lift pgn to ℕ using hg
    cases hd : validDestination destination with
    | false => simp
    | true =>
      simp only [Bool.not_true,Bool.false_eq_true,if_false,true_and,Int.toNat_natCast,format_iff]
      by_cases hpdu : Pdu2 (pgn : ℤ)
      · rw [if_pos hpdu,pdu2_word (by omega) (by omega)]
        simp only [identifier,group,hpdu,if_true,true_or,true_and,Except.ok.injEq]
        omega
      · rw [if_neg hpdu]
        cases destination with
        | none => simp [hpdu]
        | some destination =>
          obtain ⟨hd0,hd'⟩ : 0 ≤ destination ∧ destination ≤ 0xFF := of_decide_eq_true hd
          lift destination to ℕ using hd0
          simp only [Int.toNat_natCast,pdu1_word (show pgn ≤ 0x3FFFF by omega)
            (show destination ≤ 0xFF by omega) (show source ≤ 0xFF by omega)]
          simp only [identifier,group,hpdu,if_false,ne_eq,reduceCtorEq,not_false_eq_true,
            or_true,true_and,Except.ok.injEq,Option.getD_some]
          omega

theorem parse_fields {canId : ℤ} (h : 0 ≤ canId ∧ canId ≤ 0x1FFFFFFF) :
    parseJ1939Id canId = .ok
      ⟨canId/2^26%8,group (readPgn canId),canId%256,
        if Pdu2 (readPgn canId) then none else some (canId/2^8%256)⟩ := by
  obtain ⟨h0,hmax⟩ := h
  lift canId to ℕ using h0
  have hpriority : (canId >>> 26) &&& 0x7 = canId/2^26%2^3 := field_read canId 26 3
  have hpf : (canId >>> 16) &&& 0xFF = canId/2^16%2^8 := field_read canId 16 8
  have hps : (canId >>> 8) &&& 0xFF = canId/2^8%2^8 := field_read canId 8 8
  have hsource : canId &&& 0xFF = canId/2^0%2^8 := field_read canId 0 8
  have hpage : (canId >>> 24) &&& 0x1 = canId/2^24%2^1 := field_read canId 24 1
  have hgroup : (canId/2^24%2^1) <<< 16 ||| (canId/2^16%2^8) <<< 8 =
      canId/2^24%2^1*2^16+canId/2^16%2^8*2^8 := by
    rw [Nat.shiftLeft_eq,Nat.shiftLeft_eq,@field_join _ _ 16 (by omega) (by omega)]
  have hpgn : canId/2^24%2^1*2^16+canId/2^16%2^8*2^8 ||| canId/2^8%2^8 =
      canId/2^24%2^1*2^16+canId/2^16%2^8*2^8+canId/2^8%2^8 :=
    @field_join _ _ 8 (by omega) (by omega)
  have hformat : canId/2^16%2^8 < 240 ↔ ¬Pdu2 (readPgn canId) := by
    unfold Pdu2 readPgn
    omega
  unfold parseJ1939Id
  rw [if_neg (by simp; omega)]
  simp only [Int.toNat_natCast,hpriority,hpf,hps,hsource,hpage,hformat,hgroup,hpgn]
  by_cases hpdu : Pdu2 (readPgn canId)
  · rw [if_neg (not_not.mpr hpdu),group,if_pos hpdu,if_pos hpdu,readPgn]
    simp only [Except.ok.injEq,J1939Id.mk.injEq,and_true]
    omega
  · rw [if_pos hpdu,group,if_neg hpdu,if_neg hpdu,readPgn]
    simp only [Except.ok.injEq,J1939Id.mk.injEq,Option.some.injEq]
    omega

theorem pdu2_read (pgn : ℤ) : Pdu2 (pgn%2^17) ↔ Pdu2 pgn := by
  unfold Pdu2
  omega

theorem identifier_fields {priority pgn source destination : ℤ}
    (hp : 0 ≤ priority ∧ priority ≤ 7) (hs : 0 ≤ source ∧ source ≤ 0xFF)
    (hg : 0 ≤ pgn ∧ pgn ≤ 0x3FFFF) (hd : 0 ≤ destination ∧ destination ≤ 0xFF) :
    let canId := identifier priority pgn source destination
    (0 ≤ canId ∧ canId ≤ 0x1FFFFFFF) ∧ canId/2^26%8 = priority ∧ canId%256 = source ∧
      group (readPgn canId) = group (pgn%2^17) ∧ (Pdu2 (readPgn canId) ↔ Pdu2 pgn) ∧
      (¬Pdu2 pgn → canId/2^8%256 = destination) := by
  intro canId
  by_cases hpdu : Pdu2 pgn
  · have hid : canId = priority*2^26+pgn*2^8+source := by
      simp [canId,identifier,group,hpdu]
    have hread : readPgn canId = pgn%2^17 := by
      rw [hid,readPgn]
      omega
    rw [hread,pdu2_read]
    exact ⟨by omega,by omega,by omega,rfl,Iff.rfl,fun h => absurd hpdu h⟩
  · have hid : canId = priority*2^26+pgn/256*256*2^8+destination*2^8+source := by
      simp [canId,identifier,group,hpdu]
    have hread : readPgn canId = pgn%2^17/256*256+destination := by
      rw [hid,readPgn]
      omega
    have hformat : Pdu2 (readPgn canId) ↔ Pdu2 pgn := by
      rw [hread]
      unfold Pdu2
      omega
    have hgroup : group (readPgn canId) = group (pgn%2^17) := by
      rw [group,group,if_neg (hformat.not.mpr hpdu),if_neg ((pdu2_read pgn).not.mpr hpdu),hread]
      omega
    exact ⟨by omega,by omega,by omega,hgroup,hformat,fun _ => by omega⟩

theorem parse_make {priority pgn source canId : ℤ} {destination : Option ℤ}
    (h : makeJ1939Id priority pgn source destination = .ok canId) :
    parseJ1939Id canId = .ok
      ⟨priority,group (pgn%2^17),source,if Pdu2 pgn then none else destination⟩ := by
  obtain ⟨hf,hd,hpdu,rfl⟩ := (make_iff _ _ _ _ _).mp h
  obtain ⟨hp,hs,hg⟩ := valid_fields hf
  have hdest : 0 ≤ destination.getD 0 ∧ destination.getD 0 ≤ 0xFF := by
    cases destination with
    | none => decide
    | some destination => exact of_decide_eq_true hd
  obtain ⟨hrange,hpriority,hsource,hgroup,hformat,hps⟩ := identifier_fields hp hs hg hdest
  rw [parse_fields hrange,hpriority,hsource,hgroup]
  simp only [hformat]
  by_cases hpdu2 : Pdu2 pgn
  · rw [if_pos hpdu2,if_pos hpdu2]
  · obtain ⟨destination,rfl⟩ := Option.ne_none_iff_exists'.mp (hpdu.resolve_left hpdu2)
    rw [if_neg hpdu2,if_neg hpdu2,hps hpdu2]
    rfl

theorem make_parse {canId : ℤ} {f : J1939Id} (h : parseJ1939Id canId = .ok f) :
    makeJ1939Id f.priority f.pgn f.source f.destination = .ok (canId-canId/2^25%2*2^25) := by
  have hrange : 0 ≤ canId ∧ canId ≤ 0x1FFFFFFF := by
    by_contra hout
    simp [parseJ1939Id,hout] at h
  rw [parse_fields hrange] at h
  cases h
  obtain ⟨h0,hmax⟩ := hrange
  have hread : 0 ≤ readPgn canId ∧ readPgn canId ≤ 0x1FFFF := by
    unfold readPgn
    omega
  by_cases hpdu : Pdu2 (readPgn canId)
  · have hgroup : group (readPgn canId) = readPgn canId := if_pos hpdu
    refine (make_iff _ _ _ _ _).mpr ⟨?_,?_,?_,?_⟩
    · simp only [hgroup,validFields]
      exact decide_eq_true (by omega)
    · simp only [hpdu,if_true]
      rfl
    · simp only [hgroup,hpdu,true_or]
    · simp only [hgroup,identifier,hpdu,if_true]
      unfold readPgn
      omega
  · have hgroup : group (readPgn canId) = readPgn canId/256*256 := if_neg hpdu
    have hformat : ¬Pdu2 (readPgn canId/256*256) := by
      unfold Pdu2 at hpdu ⊢
      omega
    have hagain : group (readPgn canId/256*256) = readPgn canId/256*256 := by
      rw [group,if_neg hformat]
      omega
    refine (make_iff _ _ _ _ _).mpr ⟨?_,?_,?_,?_⟩
    · simp only [hgroup,validFields]
      exact decide_eq_true (by omega)
    · simp only [hpdu,if_false]
      exact decide_eq_true (by omega)
    · simp only [hpdu,if_false]
      exact Or.inr (by simp)
    · simp only [hgroup,identifier,hformat,hpdu,hagain,if_false,Option.getD_some]
      unfold readPgn
      omega

/-- Fields that make an identifier come back from it, the PGN without the byte
that holds a destination. An identifier with bit 25 clear comes back from its
fields. -/
theorem identifier_round_trip :
    (∀ (priority pgn source canId : ℤ) (destination : Option ℤ),
      makeJ1939Id priority pgn source destination = .ok canId →
      ∃ f, parseJ1939Id canId = .ok f ∧ f.priority = priority ∧ f.source = source ∧
        f.destination = (if Pdu2 pgn then none else destination) ∧
        (pgn < 2^17 → f.pgn = group pgn)) ∧
    (∀ canId : ℤ, 0 ≤ canId ∧ canId ≤ 0x1FFFFFFF → canId/2^25%2 = 0 →
      ∃ f, parseJ1939Id canId = .ok f ∧
        makeJ1939Id f.priority f.pgn f.source f.destination = .ok canId) := by
  constructor
  · intro priority pgn source canId destination h
    obtain ⟨hf,-⟩ := (make_iff _ _ _ _ _).mp h
    obtain ⟨-,-,hg,-⟩ := valid_fields hf
    refine ⟨_,parse_make h,rfl,rfl,rfl,fun hpgn => ?_⟩
    rw [Int.emod_eq_of_lt hg hpgn]
  · intro canId hrange hbit
    refine ⟨_,parse_fields hrange,?_⟩
    have h := make_parse (parse_fields hrange)
    rw [hbit,Int.zero_mul,Int.sub_zero] at h
    exact h

theorem battery_status_round_trip :
    makeJ1939Id 6 127508 42 none = .ok 0x19F2142A ∧
      (∃ f, parseJ1939Id 0x19F2142A = .ok f ∧ f.priority = 6 ∧ f.source = 42 ∧
        f.destination = none ∧ f.pgn = 127508) ∧
      ∃ f, parseJ1939Id 0x19F2142A = .ok f ∧
        makeJ1939Id f.priority f.pgn f.source f.destination = .ok 0x19F2142A := by
  have hmake : makeJ1939Id 6 127508 42 none = .ok 0x19F2142A := by rfl
  obtain ⟨f,hf,hp,hs,hd,hg⟩ := identifier_round_trip.1 6 127508 42 _ none hmake
  refine ⟨hmake,⟨f,hf,hp,hs,by simpa using hd,?_⟩,
    identifier_round_trip.2 0x19F2142A (by decide) (by decide)⟩
  rw [hg (by decide)]
  decide

/-- A request whose PGN has a byte below the format loses it. Bit 17 of a PGN is
lost as well, and with it bit 25 of an identifier. -/
theorem group_byte_lost :
    (∃ canId f, makeJ1939Id 6 0xEA01 16 (some 32) = .ok canId ∧ parseJ1939Id canId = .ok f ∧
      f.pgn ≠ 0xEA01) ∧
    (∃ canId f, makeJ1939Id 6 0x3F214 42 none = .ok canId ∧ parseJ1939Id canId = .ok f ∧
      f.pgn ≠ 0x3F214) ∧
    ∃ f, parseJ1939Id 0x1BF2142A = .ok f ∧
      makeJ1939Id f.priority f.pgn f.source f.destination = .ok 0x19F2142A :=
  ⟨⟨0x18EA2010,⟨6,0xEA00,16,some 32⟩,rfl,rfl,by decide⟩,
    ⟨0x1BF2142A,⟨6,0x1F214,42,none⟩,rfl,rfl,by decide⟩,⟨6,0x1F214,42,none⟩,rfl,rfl⟩

end CanopenReference.J1939
