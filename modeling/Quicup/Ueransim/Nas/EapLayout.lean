import Quicup.Ueransim.Nas.Spans

/-!
# How an EAP packet is laid out

The span of `DecodeEapPdu`. The packet tells its own length, and decoding is left at the first
octet that is not known.
-/

namespace Quicup.Ueransim

open Span

variable {lo : Nat}

namespace Eap

/-- Outside the range of the codes, of the subtypes of EAP-AKA' or of the attributes. -/
def UnknownCode (octet : UInt8) : Prop := octet.toNat < firstCode ∨ octet.toNat > lastCode

instance (octet : UInt8) : Decidable (UnknownCode octet) := inferInstanceAs (Decidable (_ ∨ _))

def UnknownSubType (octet : UInt8) : Prop :=
  octet.toNat < firstSubType ∨ octet.toNat > lastSubType

instance (octet : UInt8) : Decidable (UnknownSubType octet) := inferInstanceAs (Decidable (_ ∨ _))

def UnknownAttribute (octet : UInt8) : Prop :=
  octet.toNat < firstAttribute ∨ octet.toNat > lastAttribute

instance (octet : UInt8) : Decidable (UnknownAttribute octet) :=
  inferInstanceAs (Decidable (_ ∨ _))

/-- An attribute counts its octets by four, its first two included. -/
def attributeSpan : Span := .head fun t =>
  if UnknownAttribute t then .stop .exception
  else .head fun attributeLength =>
    if attributeLength.toNat < 2 then .stop .exception
    else .checked (4 * attributeLength.toNat - 2)

/-- Where the loop over the attributes is left at one that is not known or too short. -/
def leftAt (s : OctetString) (k : Nat) : Option Nat :=
  match s.drop k with
  | [] => none
  | t :: others =>
    if UnknownAttribute t then some (k + 1)
    else match others with
      | [] => none
      | attributeLength :: _ => if attributeLength.toNat < 2 then some (k + 2) else none

def attributesFrom (bound : Int) (s : OctetString) : Nat → Nat → Except Fault Nat
  | 0, _ => .error .hang
  | fuel + 1, k =>
    if (k : Int) < bound then
      match leftAt s k with
      | some n => .ok n
      | none => do
        let n ← attributeSpan (s.drop k)
        attributesFrom bound s fuel (k + n)
    else if (k : Int) ≠ bound then .error .exception
    else .ok k

/-- The attributes up to the bound. -/
def attributesSpan (bound : Int) : Span := fun s => attributesFrom bound s (s.length + 1) 0

/-- The octets behind the length of the packet. -/
def dataSpan (length : Nat) : Span :=
  if length = 4 then .octets 0
  else .head fun type =>
    if type.toNat = akaPrimeType then .head fun subType =>
      if UnknownSubType subType then .octets 0
      else (Span.octets 2).andThen (attributesSpan ((length : Int) - 8))
    else if type.toNat = notificationType ∨ type.toNat = identityType then
      .checked ((length : Int) - 5)
    else .octets 0

def span : Span := .head fun code =>
  if UnknownCode code then .octets 0
  else .head fun _ => .head fun x => .head fun y => dataSpan (x.toNat * 256 + y.toNat)

section Attributes

variable {bound readBytes : Int} {s others : OctetString} {i k fuel n : Nat}
  {t attributeLength : UInt8} {α : Type} {run : Except Fault (α × Cursor)} {walk : Except Fault Nat}

private theorem attributesFrom_left (hk : (k : Int) < bound) (hleft : leftAt s k = some n) :
    attributesFrom bound s (fuel + 1) k = .ok n := by
  rw [attributesFrom, if_pos hk, hleft]

private theorem attributesFrom_next (hk : (k : Int) < bound) (hleft : leftAt s k = none) :
    attributesFrom bound s (fuel + 1) k =
      (attributeSpan (s.drop k) >>= fun n => attributesFrom bound s fuel (k + n)) := by
  rw [attributesFrom, if_pos hk, hleft]

private theorem decodeEapAttributes_unknown (hk : readBytes < bound) (ht : UnknownAttribute t) :
    decodeEapAttributes bound (fuel + 1) readBytes ⟨i, t :: others⟩ = .ok (none, ⟨i + 1, others⟩) := by
  rw [decodeEapAttributes, if_pos hk]
  change (if _ then _ else _ : Read _) ⟨i + 1, others⟩ = _
  unfold UnknownAttribute at ht
  rw [if_pos ht]
  rfl

private theorem decodeEapAttributes_short (hk : readBytes < bound) (ht : ¬UnknownAttribute t)
    (hlength : attributeLength.toNat < 2) :
    decodeEapAttributes bound (fuel + 1) readBytes ⟨i, t :: attributeLength :: others⟩ =
      .ok (none, ⟨i + 2, others⟩) := by
  rw [decodeEapAttributes, if_pos hk]
  change (if _ then _ else _ : Read _) ⟨i + 1, attributeLength :: others⟩ = _
  unfold UnknownAttribute at ht
  rw [if_neg ht]
  change (if _ then _ else _ : Read _) ⟨i + 2, others⟩ = _
  rw [if_pos hlength]
  rfl

private theorem decodeEapAttributes_next (hk : readBytes < bound) (ht : ¬UnknownAttribute t)
    (hlength : ¬attributeLength.toNat < 2) :
    decodeEapAttributes bound (fuel + 1) readBytes ⟨i, t :: attributeLength :: others⟩ =
      (do
        let r ← readOctetString (4 * attributeLength.toNat - 2) ⟨i + 2, others⟩
        let r' ← decodeEapAttributes bound fuel
          (readBytes + 1 + 1 + (4 * attributeLength.toNat - 2)) r.2
        return (r'.1.map ((t.toNat, r.1) :: ·), r'.2)) := by
  rw [decodeEapAttributes, if_pos hk]
  change (if _ then _ else _ : Read _) ⟨i + 1, attributeLength :: others⟩ = _
  unfold UnknownAttribute at ht
  rw [if_neg ht]
  change (if _ then _ else _ : Read _) ⟨i + 2, others⟩ = _
  rw [if_neg hlength]
  rfl

private theorem attributeSpan_cons (ht : ¬UnknownAttribute t) (hlength : ¬attributeLength.toNat < 2) :
    attributeSpan (t :: attributeLength :: others) =
      (checked (4 * attributeLength.toNat - 2) others).map (· + 2) := by
  simp only [attributeSpan, head, if_neg ht, if_neg hlength]
  cases checked (4 * attributeLength.toNat - 2) others <;> rfl

/-- A run over the attributes goes as far as the layout tells, or fails where it does. -/
private def Follows {α : Type} (i : Nat) (s : OctetString) (run : Except Fault (α × Cursor)) :
    Except Fault Nat → Prop
  | .ok n => n ≤ s.length ∧ ∃ r, run = .ok (r, ⟨i + n, s.drop n⟩)
  | .error f => run = .error f

private theorem Follows.passes (h : Follows i s run walk) (hn : walk = .ok n) :
    n ≤ s.length ∧ ∃ r, run = .ok (r, ⟨i + n, s.drop n⟩) := by
  rwa [hn] at h

private theorem Follows.stops {f : Fault} (h : Follows i s run walk) (hf : walk = .error f) :
    run = .error f := by
  rwa [hf] at h

private theorem Follows.map {β : Type} (g : α → β) (h : Follows i s run walk) :
    Follows i s (run >>= fun r => pure (g r.1, r.2)) walk := by
  cases walk with
  | ok n =>
    obtain ⟨hle, r, hrun⟩ := h
    rw [hrun]
    exact ⟨hle, g r, rfl⟩
  | error f =>
    have hrun : run = .error f := h
    rw [hrun]
    rfl

/-- Attribute by attribute, the decoder goes over what the layout tells. -/
private theorem decodeEapAttributes_walk (fuel : Nat) (hk : k ≤ s.length) :
    Follows i s (decodeEapAttributes (bound + 3) fuel (3 + k) ⟨i + k, s.drop k⟩)
      (attributesFrom bound s fuel k) := by
  induction fuel generalizing k with
  | zero => exact rfl
  | succ fuel ih =>
    by_cases hbound : (k : Int) < bound
    · have hread : (3 : Int) + k < bound + 3 := by omega
      have hlen := List.length_drop (i := k) (l := s)
      cases hd : s.drop k with
      | nil =>
        have hleft : leftAt s k = none := by rw [leftAt, hd]
        rw [attributesFrom_next hbound hleft, hd, decodeEapAttributes, if_pos hread]
        exact rfl
      | cons t others =>
        rw [hd, List.length_cons] at hlen
        have hone : s.drop (k + 1) = others := by rw [← List.drop_drop, hd, List.drop_one, List.tail_cons]
        by_cases ht : UnknownAttribute t
        · have hleft : leftAt s k = some (k + 1) := by
            rw [leftAt, hd]
            exact if_pos ht
          rw [attributesFrom_left hbound hleft, decodeEapAttributes_unknown hread ht]
          exact ⟨by omega, none, by rw [hone, Nat.add_assoc]⟩
        · cases others with
          | nil =>
            have hleft : leftAt s k = none := by
              rw [leftAt, hd]
              exact if_neg ht
            have hspan : attributeSpan [t] = .error .outOfBounds := by
              simp only [attributeSpan, head, if_neg ht]
              rfl
            rw [attributesFrom_next hbound hleft, hd, hspan, decodeEapAttributes, if_pos hread]
            change (if _ then _ else _ : Read _) ⟨i + k + 1, []⟩ = _
            unfold UnknownAttribute at ht
            rw [if_neg ht]
            rfl
          | cons attributeLength others =>
            rw [List.length_cons] at hlen
            have htwo : s.drop (k + 2) = others := by
              rw [← List.drop_drop, hd, List.drop_succ_cons, List.drop_succ_cons, List.drop_zero]
            by_cases hlength : attributeLength.toNat < 2
            · have hleft : leftAt s k = some (k + 2) := by
                rw [leftAt, hd]
                simp only [if_neg ht, if_pos hlength]
              rw [attributesFrom_left hbound hleft, decodeEapAttributes_short hread ht hlength]
              exact ⟨by omega, none, by rw [htwo, Nat.add_assoc]⟩
            · have hleft : leftAt s k = none := by
                rw [leftAt, hd]
                simp only [if_neg ht, if_neg hlength]
              rw [attributesFrom_next hbound hleft, hd, attributeSpan_cons ht hlength,
                decodeEapAttributes_next hread ht hlength]
              have hvalue := @SpansFrom.readOctetString 0 (4 * attributeLength.toNat - 2)
              cases hm : checked (4 * attributeLength.toNat - 2) others with
              | error e =>
                rw [hvalue.stops (Nat.zero_le _) hm]
                exact rfl
              | ok m =>
                obtain ⟨hle, value, hrun⟩ := hvalue.passes (i := i + k + 2) (Nat.zero_le _) hm
                obtain ⟨hm, -⟩ := checked_eq_ok.mp hm
                have hdrop : s.drop (k + (m + 2)) = others.drop m := by
                  rw [Nat.add_comm m 2, ← Nat.add_assoc, ← List.drop_drop, htwo]
                have hread' : (3 : Int) + k + 1 + 1 + (4 * attributeLength.toNat - 2) =
                    3 + ((k + (m + 2) : Nat) : Int) := by
                  push_cast
                  omega
                have hindex : i + k + 2 + m = i + (k + (m + 2)) := by omega
                have hnext := (ih (k := k + (m + 2)) (by omega)).map
                  fun attributes => attributes.map ((t.toNat, value) :: ·)
                rw [hrun, hread', hindex, ← hdrop]
                exact hnext
    · have hread : ¬(3 : Int) + k < bound + 3 := by omega
      rw [attributesFrom, if_neg hbound, decodeEapAttributes, if_neg hread]
      by_cases hends : (k : Int) = bound
      · rw [if_neg (by omega), if_neg (by omega)]
        exact ⟨hk, some [], rfl⟩
      · rw [if_pos (by omega), if_pos (by omega)]
        exact rfl

end Attributes

/-! ## Where the attributes end -/

section Ends

variable {bound : Int} {s : OctetString} {k n : Nat} {f : Fault}

theorem attributeSpan_bounded : attributeSpan.Bounded := by
  refine head_bounded fun t => ?_
  split
  · exact stop_bounded _
  · refine head_bounded fun attributeLength => ?_
    split
    · exact stop_bounded _
    · exact checked_bounded _

/-- An attribute that is gone over is known, long enough and some octets long. -/
theorem leftAt_of_passed (h : attributeSpan (s.drop k) = .ok n) : leftAt s k = none ∧ 0 < n := by
  obtain ⟨t, others, m, hd, hm, rfl⟩ := head_eq_ok.mp h
  by_cases ht : UnknownAttribute t
  · rw [if_pos ht] at hm
    cases hm
  rw [if_neg ht] at hm
  obtain ⟨attributeLength, others, l, rfl, hl, rfl⟩ := head_eq_ok.mp hm
  by_cases hlength : attributeLength.toNat < 2
  · rw [if_pos hlength] at hl
    cases hl
  refine ⟨?_, Nat.succ_pos _⟩
  rw [leftAt, hd]
  simp only [if_neg ht, if_neg hlength]

private theorem attributes_walk_eq (h : Reaches attributeSpan bound.toNat s k) :
    ∃ fuel, s.length < fuel + k ∧ attributesSpan bound s = attributesFrom bound s fuel k := by
  induction h with
  | start => exact ⟨s.length + 1, by omega, rfl⟩
  | @step k n before below passed ih =>
    obtain ⟨fuel, hfuel, heq⟩ := ih
    have hle := before.le attributeSpan_bounded
    obtain ⟨hleft, hpos⟩ := leftAt_of_passed passed
    obtain ⟨fuel, rfl⟩ : ∃ fuel', fuel = fuel' + 1 := ⟨fuel - 1, by omega⟩
    refine ⟨fuel, by omega, ?_⟩
    rw [heq, attributesFrom_next (by omega) hleft, passed]
    rfl

private theorem attributesFrom_ends (fuel : Nat) (h : Reaches attributeSpan bound.toNat s k)
    (hfuel : s.length < fuel + k) :
    (∀ n, attributesFrom bound s fuel k = .ok n → ∃ k, Reaches attributeSpan bound.toNat s k ∧
      ((k : Int) = bound ∧ n = k ∨ (k : Int) < bound ∧ leftAt s k = some n)) ∧
    ∀ f, attributesFrom bound s fuel k = .error f → ∃ k, Reaches attributeSpan bound.toNat s k ∧
      ((k : Int) > bound ∧ f = .exception ∨
        (k : Int) < bound ∧ leftAt s k = none ∧ attributeSpan (s.drop k) = .error f) := by
  induction fuel generalizing k with
  | zero =>
    have hle := h.le attributeSpan_bounded
    omega
  | succ fuel ih =>
    by_cases hk : (k : Int) < bound
    · cases hleft : leftAt s k with
      | some m =>
        rw [attributesFrom_left hk hleft]
        refine ⟨fun n hn => ?_, fun f hf => ?_⟩
        · cases hn
          exact ⟨k, h, .inr ⟨hk, hleft⟩⟩
        · cases hf
      | none =>
        rw [attributesFrom_next hk hleft]
        cases hstep : attributeSpan (s.drop k) with
        | error e =>
          refine ⟨fun n hn => ?_, fun f hf => ?_⟩
          · cases hn
          · cases hf
            exact ⟨k, h, .inr ⟨hk, hleft, hstep⟩⟩
        | ok m =>
          have hpos := (leftAt_of_passed hstep).2
          exact ih (h.step (by omega) hstep) (by omega)
    · rw [attributesFrom, if_neg hk]
      by_cases hends : (k : Int) = bound
      · rw [if_neg (by omega)]
        refine ⟨fun n hn => ?_, fun f hf => ?_⟩
        · cases hn
          exact ⟨k, h, .inl ⟨hends, rfl⟩⟩
        · cases hf
      · rw [if_pos hends]
        refine ⟨fun n hn => ?_, fun f hf => ?_⟩
        · cases hn
        · cases hf
          exact ⟨k, h, .inl ⟨by omega, rfl⟩⟩

/-- The attributes end at the bound, or where they are left. -/
theorem attributesSpan_eq_ok_iff : attributesSpan bound s = .ok n ↔
    ∃ k, Reaches attributeSpan bound.toNat s k ∧
      ((k : Int) = bound ∧ n = k ∨ (k : Int) < bound ∧ leftAt s k = some n) := by
  constructor
  · intro h
    exact (attributesFrom_ends (s.length + 1) .start (by omega)).1 n h
  · rintro ⟨k, h, hends⟩
    obtain ⟨fuel, hfuel, heq⟩ := attributes_walk_eq h
    have hle := h.le attributeSpan_bounded
    obtain ⟨fuel, rfl⟩ : ∃ fuel', fuel = fuel' + 1 := ⟨fuel - 1, by omega⟩
    rw [heq]
    rcases hends with ⟨hk, rfl⟩ | ⟨hk, hleft⟩
    · rw [attributesFrom, if_neg (by omega), if_neg (by omega)]
    · exact attributesFrom_left hk hleft

/-- The attributes fail over the bound, or at one that does not fit. -/
theorem attributesSpan_eq_error_iff : attributesSpan bound s = .error f ↔
    ∃ k, Reaches attributeSpan bound.toNat s k ∧
      ((k : Int) > bound ∧ f = .exception ∨
        (k : Int) < bound ∧ leftAt s k = none ∧ attributeSpan (s.drop k) = .error f) := by
  constructor
  · intro h
    exact (attributesFrom_ends (s.length + 1) .start (by omega)).2 f h
  · rintro ⟨k, h, hends⟩
    obtain ⟨fuel, hfuel, heq⟩ := attributes_walk_eq h
    have hle := h.le attributeSpan_bounded
    obtain ⟨fuel, rfl⟩ : ∃ fuel', fuel = fuel' + 1 := ⟨fuel - 1, by omega⟩
    rw [heq]
    rcases hends with ⟨hk, rfl⟩ | ⟨hk, hleft, hstep⟩
    · rw [attributesFrom, if_neg (by omega), if_pos (by omega)]
    · rw [attributesFrom_next hk hleft, hstep]
      rfl

end Ends

theorem decodeEapAttributes_spans (innerLength : Int) :
    SpansFrom lo (fun c => decodeEapAttributes innerLength (c.rest.length + 1) 3 c)
      (attributesSpan (innerLength - 3)) where
  passes := by
    intro i s n _ hn
    have hwalk := (decodeEapAttributes_walk (i := i) (s.length + 1) (Nat.zero_le _)).passes hn
    rwa [Int.sub_add_cancel] at hwalk
  stops := by
    intro i s f _ hf
    have hwalk := (decodeEapAttributes_walk (i := i) (s.length + 1) (Nat.zero_le _)).stops hf
    rwa [Int.sub_add_cancel] at hwalk

end Eap

open Eap

theorem decodeEapPdu_spans : SpansFrom lo decodeEapPdu Eap.span := by
  refine .bind_readI fun code => .ite (fun _ => .pure _) fun _ => .bind_readI fun _ => ?_
  refine SpansFrom.bind_read2I (τ := dataSpan) fun length _ => ?_
  refine .ite (fun _ => .pure _) fun _ => .bind_readI fun type => ?_
  have hinner : (length : Int) - 1 - 1 - 2 - 1 = length - 5 := by omega
  refine .ite (fun _ => ?_) fun _ => ?_
  · refine .bind_readI fun subType => .ite (fun _ => .pure _) fun _ => .bind .read2I fun _ => ?_
    refine .bind_pure ((decodeEapAttributes_spans _).congr ?_) _
    rw [hinner, Int.sub_sub]
    rfl
  · by_cases hnotification : type.toNat = notificationType
    · rw [if_pos hnotification, if_pos (.inl hnotification), hinner]
      exact .bind_pure (.readOctetString _) _
    · by_cases hidentity : type.toNat = identityType
      · rw [if_neg hnotification, if_pos hidentity, if_pos (.inr hidentity), hinner]
        exact .bind_pure (.readOctetString _) _
      · rw [if_neg hnotification, if_neg hidentity, if_neg (not_or.mpr ⟨hnotification, hidentity⟩)]
        exact .pure _

end Quicup.Ueransim
