import Quicup.Ueransim.Nas.Ie6

/-!
# The octets that a decoder goes over

The spans of the reads of an octet view and of the values in information elements. A checked read
raises, and what is read or looked at with no check runs over the end.
-/

namespace Quicup

namespace Span

/-- The octets of a checked read. -/
def checked (length : Int) : Span := fun s =>
  if 0 ≤ length ∧ length ≤ s.length then .ok length.toNat else .error .exception

variable {length : Int} {s : List UInt8} {n offset : Nat}

@[simp] theorem checked_eq_ok : checked length s = .ok n ↔ length = n ∧ n ≤ s.length := by
  unfold checked
  split
  · simp only [Except.ok.injEq]
    omega
  · simp only [reduceCtorEq, false_iff]
    omega

@[simp] theorem checked_eq_error {f : Fault} :
    checked length s = .error f ↔ (length < 0 ∨ length > s.length) ∧ f = .exception := by
  unfold checked
  split
  · simp only [reduceCtorEq, false_iff]
    omega
  · rw [Except.error.injEq, eq_comm]
    exact ⟨fun h => ⟨by omega, h⟩, fun h => h.2⟩

theorem checked_bounded (length : Int) : (checked length).Bounded :=
  fun h => (checked_eq_ok.mp h).2

theorem checked_terminates (length : Int) : (checked length).Terminates := fun s h => by
  obtain ⟨-, habsurd⟩ := checked_eq_error.mp h
  cases habsurd

theorem checked_guarded (length : Int) (s : List UInt8) : Guarded (checked length) s :=
  fun _ h => (checked_eq_error.mp h).2

/-- Behind octets that are there, if they are. -/
theorem checked_andThen_guarded_iff {τ : Span} :
    Guarded ((checked n).andThen τ) s ↔ (n ≤ s.length → Guarded τ (s.drop n)) := by
  rw [andThen_guarded_iff]
  constructor
  · rintro ⟨-, hsecond⟩ hle
    exact hsecond n (checked_eq_ok.mpr ⟨rfl, hle⟩)
  · intro h
    refine ⟨checked_guarded _ _, fun m hm => ?_⟩
    obtain ⟨heq, hle⟩ := checked_eq_ok.mp hm
    obtain rfl : n = m := by omega
    exact h hle

theorem checked_zero : checked 0 = octets 0 := by
  ext1 s
  unfold checked octets
  rw [if_pos ⟨le_refl 0, by omega⟩, if_pos (Nat.zero_le _)]
  rfl

/-- An octet ahead decides, and is not passed. -/
def ahead (offset : Nat) (τ : UInt8 → Span) : Span := fun s =>
  match s[offset]? with
  | none => .error .outOfBounds
  | some x => τ x s

/-- Looking ahead at octets that are passed anyway changes nothing. -/
theorem ahead_andThen (h : offset < n) (τ : Span) :
    ahead offset (fun _ => (octets n).andThen τ) = (octets n).andThen τ := by
  ext1 s
  unfold ahead
  cases hx : s[offset]? with
  | none =>
    have hshort : octets n s = .error .outOfBounds :=
      octets_eq_error.mpr ⟨(List.getElem?_eq_none_iff.mp hx).trans_lt h, rfl⟩
    exact (andThen_eq_error.mpr (.inl hshort)).symm
  | some x => rfl

theorem ahead_octets (h : offset < n) : ahead offset (fun _ => octets n) = octets n := by
  have hzero : (octets n).andThen (octets 0) = octets n := octets_andThen n 0
  rw [← hzero]
  exact ahead_andThen h _

/-- The octets of a string. A negative length raises. -/
def string (length : Int) : Span := if length < 0 then stop .exception else octets length.toNat

theorem string_terminates (length : Int) : (string length).Terminates := by
  unfold string
  split
  · exact stop_terminates (by decide)
  · exact octets_terminates _

theorem string_guarded_iff : Guarded (string length) s ↔ length ≤ s.length := by
  unfold string
  split
  · exact iff_of_true (stop_guarded s) (by omega)
  · rw [octets_guarded_iff]
    omega

end Span

open Span Ueransim

namespace SpansFrom

variable {α β : Type} {lo : Nat} {τ : UInt8 → Span} {f : Nat → Read β} {p : Read α} {σ : Span}
  {decode : Int → Read α}

theorem readI : SpansFrom lo readI (.octets 1) := .bind_pure .readOctet _

theorem read2US : SpansFrom lo read2US (.octets 2) := .bind_pure (.readBE 2) _

theorem read2I : SpansFrom lo read2I (.octets 2) := .readBE 2

theorem read3I : SpansFrom lo read3I (.octets 3) := .readBE 3

theorem read4UI : SpansFrom lo read4UI (.octets 4) := .bind_pure (.readBE 4) _

theorem readOctetString (length : Int) :
    SpansFrom lo (Ueransim.readOctetString length) (.checked length) where
  passes := by
    intro i s n _ hn
    obtain ⟨rfl, hle⟩ := checked_eq_ok.mp hn
    have hread := readOctetString_takes n (i := i) (s.take n) (by rw [List.length_take]; omega)
    obtain ⟨a, ha⟩ := hread
    have hrun := ha (s.drop n)
    rw [List.take_append_drop, List.length_take, Nat.min_eq_left hle] at hrun
    exact ⟨hle, a, hrun⟩
  stops := by
    intro i s f _ hf
    obtain ⟨hout, rfl⟩ := checked_eq_error.mp hf
    unfold Ueransim.readOctetString
    rw [if_neg (by omega)]
    have hraise : length < 0 ∨ (i : Int) + length > (Cursor.size ⟨i, s⟩ : Nat) := by
      unfold Cursor.size
      push_cast
      omega
    change (if length < 0 ∨ (i : Int) + length > (Cursor.size ⟨i, s⟩ : Nat) then
      Read.fault Fault.exception else Quicup.readOctets length.toNat : Read OctetString) _ = _
    rw [if_pos hraise]
    rfl

/-- The next octet decides how to go on. -/
theorem bind_peek {f : UInt8 → Read β} (hf : ∀ x, SpansFrom lo (f x) (τ x)) :
    SpansFrom lo (peek >>= f) (.look τ) where
  passes := by
    intro i s n hi hn
    cases s with
    | nil => cases hn
    | cons x xs => exact (hf x).passes hi hn
  stops := by
    intro i s e hi he
    cases s with
    | nil =>
      cases he
      rfl
    | cons x xs => exact (hf x).stops hi he

theorem bind_peekI (hf : ∀ x : UInt8, SpansFrom lo (f x.toNat) (τ x)) :
    SpansFrom lo (peekI >>= f) (.look τ) := by
  have hrun : (peekI >>= f) = peek >>= fun x => f x.toNat := by
    rw [peekI, bind_assoc]
    simp only [pure_bind]
  rw [hrun]
  exact .bind_peek hf

theorem bind_peekAt {f : UInt8 → Read β} (offset : Nat) (hf : ∀ x, SpansFrom lo (f x) (τ x)) :
    SpansFrom lo (peekAt offset >>= f) (.ahead offset τ) where
  passes := by
    intro i s n hi hn
    unfold ahead at hn
    cases hx : s[offset]? with
    | none =>
      rw [hx] at hn
      cases hn
    | some x =>
      rw [hx] at hn
      have hlook : peekAt offset ⟨i, s⟩ = .ok (x, ⟨i, s⟩) := by
        unfold peekAt
        simp only [hx]
      have hrun : (peekAt offset >>= f) ⟨i, s⟩ = (peekAt offset ⟨i, s⟩ >>= fun r => f r.1 r.2) := rfl
      rw [hrun, hlook]
      exact (hf x).passes hi hn
  stops := by
    intro i s e hi he
    have hrun : (peekAt offset >>= f) ⟨i, s⟩ = (peekAt offset ⟨i, s⟩ >>= fun r => f r.1 r.2) := rfl
    unfold ahead at he
    cases hx : s[offset]? with
    | none =>
      rw [hx] at he
      cases he
      have hlook : peekAt offset ⟨i, s⟩ = .error .outOfBounds := by
        unfold peekAt
        simp only [hx]
      rw [hrun, hlook]
      rfl
    | some x =>
      rw [hx] at he
      have hlook : peekAt offset ⟨i, s⟩ = .ok (x, ⟨i, s⟩) := by
        unfold peekAt
        simp only [hx]
      rw [hrun, hlook]
      exact (hf x).stops hi he

theorem bind_readI (hf : ∀ x : UInt8, SpansFrom (lo + 1) (f x.toNat) (τ x)) :
    SpansFrom lo (Ueransim.readI >>= f) (.head τ) := by
  have hrun : (Ueransim.readI >>= f) = Quicup.readOctet >>= fun x => f x.toNat := by
    rw [Ueransim.readI, bind_assoc]
    simp only [pure_bind]
  rw [hrun]
  exact .bind_octet hf

/-- Two octets tell a length. -/
theorem bind_read2I {τ : Nat → Span} (hf : ∀ n < 65536, SpansFrom (lo + 2) (f n) (τ n)) :
    SpansFrom lo (Ueransim.read2I >>= f)
      (.head fun x => .head fun y => τ (x.toNat * 256 + y.toNat)) := by
  have hrun : (Ueransim.read2I >>= f) = Quicup.readOctet >>= fun x =>
      Quicup.readOctet >>= fun y => f (natBE [x, y]) := by
    simp only [Ueransim.read2I, Quicup.readBE, Quicup.readOctets, bind_assoc, pure_bind]
  rw [hrun]
  refine .bind_octet fun x => .bind_octet fun y => ?_
  have hnat : natBE [x, y] = x.toNat * 256 + y.toNat := by simp [natBE]
  rw [hnat]
  have hx := x.toNat_lt
  have hy := y.toNat_lt
  exact hf _ (by omega)

theorem map (g : α → β) (hp : SpansFrom lo p σ) : SpansFrom lo (g <$> p) σ := hp.bind_pure g

theorem decodeTimes (hp : SpansFrom lo p σ) (count : Nat) :
    SpansFrom lo (Ueransim.decodeTimes p count) (.times σ count) := by
  induction count with
  | zero => exact .pure []
  | succ count ih => exact hp.bind fun _ => ih.bind_pure _

theorem decodeIe4 {τ : Nat → Span}
    (hf : ∀ length : Nat, length < 256 → SpansFrom (lo + 1) (decode length) (τ length)) :
    SpansFrom lo (Ueransim.decodeIe4 decode) (.head fun x => τ x.toNat) :=
  .bind_readI fun x => hf x.toNat x.toNat_lt

theorem decodeIe6 {τ : Nat → Span}
    (hf : ∀ length : Nat, length < 65536 → SpansFrom (lo + 2) (decode length) (τ length)) :
    SpansFrom lo (Ueransim.decodeIe6 decode)
      (.head fun x => .head fun y => τ (x.toNat * 256 + y.toNat)) :=
  .bind_read2I hf

/-! ## Lists -/

section Lists

variable {p : Read α} {σ : Span} {bound i k fuel : Nat} {s : List UInt8} {a : α}

private theorem decodeList_step (hk : k < bound) (fuel : Nat) :
    decodeList p bound (fuel + 1) k ⟨i, s⟩ = (do
      let r ← p ⟨i, s⟩
      let r' ← decodeList p bound fuel (k + (r.2.index - i)) r.2
      Pure.pure ((r'.1.1, r.1 :: r'.1.2), r'.2)) := by
  rw [decodeList, if_pos hk]
  rfl

theorem decodeList_succ {n : Nat} (hk : k < bound) (hp : p ⟨i, s⟩ = .ok (a, ⟨i + n, s.drop n⟩)) :
    decodeList p bound (fuel + 1) k ⟨i, s⟩ =
      (decodeList p bound fuel (k + n) ⟨i + n, s.drop n⟩).map
        fun r => ((r.1.1, a :: r.1.2), r.2) := by
  rw [decodeList_step hk, hp]
  change (decodeList p bound fuel (k + (i + n - i)) ⟨i + n, s.drop n⟩ >>= fun r' =>
    Pure.pure ((r'.1.1, a :: r'.1.2), r'.2)) = _
  rw [Nat.add_sub_cancel_left]
  cases decodeList p bound fuel (k + n) ⟨i + n, s.drop n⟩ <;> rfl

private theorem decodeList_error {f : Fault} (hk : k < bound) (hp : p ⟨i, s⟩ = .error f) :
    decodeList p bound (fuel + 1) k ⟨i, s⟩ = .error f := by
  rw [decodeList_step hk, hp]
  rfl

/-- An element that takes nothing is decoded until the iterations are used up. -/
private theorem decodeList_stuck (hk : k < bound) (hp : p ⟨i, s⟩ = .ok (a, ⟨i, s⟩)) (fuel : Nat) :
    decodeList p bound fuel k ⟨i, s⟩ = .error .hang := by
  induction fuel with
  | zero => rfl
  | succ fuel ih =>
    have hstep : decodeList p bound (fuel + 1) k ⟨i, s⟩ = (decodeList p bound fuel k ⟨i, s⟩).map
        fun r => ((r.1.1, a :: r.1.2), r.2) :=
      decodeList_succ (n := 0) hk hp
    rw [hstep, ih]
    rfl

private theorem decodeList_walk (hp : SpansFrom lo p σ) (hi : lo ≤ i) (fuel : Nat)
    (hk : k ≤ s.length) :
    (∀ n, walkFrom σ bound s fuel k = .ok n → n ≤ s.length ∧
      ∃ r, decodeList p bound fuel k ⟨i + k, s.drop k⟩ = .ok (r, ⟨i + n, s.drop n⟩)) ∧
    ∀ f, walkFrom σ bound s fuel k = .error f →
      decodeList p bound fuel k ⟨i + k, s.drop k⟩ = .error f := by
  induction fuel generalizing k with
  | zero =>
    refine ⟨fun n hn => ?_, fun f hf => ?_⟩
    · cases hn
    · cases hf
      rfl
  | succ fuel ih =>
    by_cases hbound : k < bound
    · rw [walkFrom, if_pos hbound]
      cases hn : σ (s.drop k) with
      | error e =>
        refine ⟨fun n h => ?_, fun f h => ?_⟩
        · cases h
        · cases h
          exact decodeList_error hbound (hp.stops (by omega) hn)
      | ok n =>
        obtain ⟨hle, a, ha⟩ := hp.passes (i := i + k) (by omega) hn
        rw [List.length_drop] at hle
        rcases Nat.eq_zero_or_pos n with rfl | hpos
        · refine ⟨fun n h => ?_, fun f h => ?_⟩
          · cases h
          · cases h
            exact decodeList_stuck hbound ha _
        · have hnext : (do
              let n ← (Except.ok n : Except Fault Nat)
              if n = 0 then .error .hang else walkFrom σ bound s fuel (k + n)) =
                walkFrom σ bound s fuel (k + n) := if_neg (by omega)
          rw [hnext, decodeList_succ hbound ha, List.drop_drop, Nat.add_assoc]
          obtain ⟨hok, herr⟩ := ih (k := k + n) (by omega)
          refine ⟨fun m hm => ?_, fun f hf => ?_⟩
          · obtain ⟨hle', r, hr⟩ := hok m hm
            exact ⟨hle', (r.1, a :: r.2), by rw [hr]; rfl⟩
          · rw [herr f hf]
            rfl
    · rw [walkFrom, if_neg hbound]
      refine ⟨fun n h => ?_, fun f h => ?_⟩
      · cases h
        refine ⟨hk, (!decide (k > bound), []), ?_⟩
        rw [decodeList, if_neg hbound]
        rfl
      · cases h

/-- A list is a walk over its elements up to the length. -/
theorem decodeListVal (hp : SpansFrom lo p σ) (length : Int) :
    SpansFrom lo (Ueransim.decodeListVal p length) (.walk σ (sizeT length)) where
  passes := by
    intro i s n hi hn
    exact (decodeList_walk hp hi (s.length + 1) (Nat.zero_le _)).1 n hn
  stops := by
    intro i s f hi hf
    exact (decodeList_walk hp hi (s.length + 1) (Nat.zero_le _)).2 f hf

/-- A list that is not over with an iteration for each octet at hand is never over. -/
theorem decodeListVal_eq_hang_iff (hp : SpansFrom lo p σ) (hi : lo ≤ i) (length : Int) :
    Ueransim.decodeListVal p length ⟨i, s⟩ = .error .hang ↔
      ∀ fuel, decodeList p (sizeT length) fuel 0 ⟨i, s⟩ = .error .hang := by
  constructor
  · intro h fuel
    have hwalk : walk σ (sizeT length) s = .error .hang := by
      cases hr : walk σ (sizeT length) s with
      | ok n =>
        obtain ⟨-, r, hok⟩ := (decodeListVal hp length).passes hi hr
        rw [hok] at h
        cases h
      | error f =>
        have hstop := (decodeListVal hp length).stops hi hr
        rw [hstop] at h
        exact congrArg Except.error (Except.error.inj h)
    exact (decodeList_walk hp hi fuel (Nat.zero_le _)).2 _
      (walkFrom_eq_hang hp.bounded hwalk fuel)
  · intro h
    exact h (s.length + 1)

end Lists

/-! ## Decimal digits -/

variable {length : Int}

/-- The last octet is looked at before the first one is read. -/
theorem decodeBcdString (skipFirst : Bool) (hlength : 0 ≤ length) :
    SpansFrom lo (Ueransim.decodeBcdString length skipFirst) (.octets length.toNat) := by
  unfold Ueransim.decodeBcdString
  by_cases hz : length = 0
  · subst hz
    exact .pure []
  · rw [if_neg hz, if_neg (by omega)]
    have hspan : SpansFrom lo (peekAt (length - 1).toNat >>= fun last => do
        let stringLength := 2 * length.toNat - if last >>> 4 = 0xF then 1 else 0
        let octets ← Quicup.readOctets length.toNat
        let str := bcdChars skipFirst octets
        Pure.pure (str ++ List.replicate (stringLength - str.length) 48)) _ :=
      .bind_peekAt (length - 1).toNat fun _ => (SpansFrom.readOctets length.toNat).bind_pure _
    exact hspan.congr (ahead_octets (by omega))

/-- A negative length raises wherever there is an octet for each of its steps back. -/
theorem decodeBcdString_string (skipFirst : Bool) (hlo : 1 ≤ lo + length) :
    SpansFrom lo (Ueransim.decodeBcdString length skipFirst) (.string length) := by
  unfold string
  by_cases hlength : length < 0
  · rw [if_pos hlength]
    constructor
    · intro i s n _ hn
      cases hn
    · intro i s f hi hf
      cases hf
      unfold Ueransim.decodeBcdString
      rw [if_neg (by omega), if_pos hlength]
      change (Read.fault (if (i : Int) + (length - 1) < 0 then .outOfBounds else .exception) :
        Read OctetString) ⟨i, s⟩ = _
      rw [if_neg (by omega)]
      rfl
  · rw [if_neg hlength]
    exact decodeBcdString skipFirst (by omega)

theorem readUtf8String (length : Int) :
    SpansFrom lo (Ueransim.readUtf8String length) (.string length) :=
  .ite (fun _ => .fault _) fun _ => .readOctets _

end SpansFrom

end Quicup
