import Mathlib.Algebra.Order.Field.Rat
import Mathlib.Tactic.Positivity
import Quicup.Ueransim.Gtp.Refill

/-!
# What a bucket admits in a window of time

The doubles are exact rational numbers here. A run of a bucket keeps a record of its
calls, and a window is a stretch of the record under one capacity.
-/

namespace Quicup.Ueransim

namespace TokenLevel

variable {level : TokenLevel ℚ} {byteCapacity : UInt64} {now time : Int}

theorem refill_availableTokens_le_capacity
    (h : now > level.lastRefillTimestamp ∨ level.availableTokens ≤ byteCapacity.toNat) :
    (level.refill now byteCapacity).availableTokens ≤ byteCapacity.toNat := by
  by_cases hlast : now > level.lastRefillTimestamp
  · simp only [refill, if_pos hlast, stdMin]
    split
    · rename_i hlt
      exact hlt.le
    · exact le_rfl
  · rw [refill_of_le (by omega)]
    exact h.resolve_left hlast

/-- A refill adds at most what flows in behind a time the bucket has seen. -/
theorem refill_availableTokens_le
    (hrate : level.refillTokensPerOneMillis = byteCapacity.toNat / 1000)
    (hseen : time ≤ level.lastRefillTimestamp) (hnow : time ≤ now) :
    (level.refill now byteCapacity).availableTokens ≤
      level.availableTokens + byteCapacity.toNat * ((now : ℚ) - time) / 1000 := by
  have hcap : (0 : ℚ) ≤ byteCapacity.toNat := Nat.cast_nonneg _
  have htime : (time : ℚ) ≤ level.lastRefillTimestamp := by exact_mod_cast hseen
  have hle : (time : ℚ) ≤ now := by exact_mod_cast hnow
  by_cases hlast : now > level.lastRefillTimestamp
  · simp only [refill, if_pos hlast, stdMin, hrate]
    have hflow : ((now - level.lastRefillTimestamp : Int) : ℚ) * (byteCapacity.toNat / 1000) ≤
        byteCapacity.toNat * ((now : ℚ) - time) / 1000 := by
      push_cast
      nlinarith
    split
    · linarith
    · linarith
  · rw [refill_of_le (by omega)]
    have hflow : 0 ≤ byteCapacity.toNat * ((now : ℚ) - time) / 1000 := by
      have := sub_nonneg.mpr hle
      positivity
    linarith

theorem refill_availableTokens_nonneg
    (hrate : level.refillTokensPerOneMillis = byteCapacity.toNat / 1000)
    (h : 0 ≤ level.availableTokens) :
    0 ≤ (level.refill now byteCapacity).availableTokens := by
  by_cases hlast : now > level.lastRefillTimestamp
  · simp only [refill, if_pos hlast, stdMin, hrate]
    have hmillis : (0 : ℚ) ≤ (now - level.lastRefillTimestamp : Int) := by
      exact_mod_cast (by omega : 0 ≤ now - level.lastRefillTimestamp)
    split
    · positivity
    · positivity
  · rw [refill_of_le (by omega)]
    exact h

end TokenLevel

/-! ## Runs of a bucket -/

inductive BucketCall
  | tryConsume (numberOfTokens : UInt64)
  | updateCapacity (newByteCapacity : UInt64)

/-- A call as it went: when, the capacity behind it, and the octets it admitted. -/
structure CallRecord where
  time : Int
  byteCapacity : UInt64
  admitted : Nat
  deriving DecidableEq

/-- A bucket, the time of its latest call and the record of them all. -/
structure MeteredBucket where
  bucket : TokenBucket (TokenLevel ℚ)
  time : Int
  record : List CallRecord

namespace MeteredBucket

/-- One call when the clock shows `now`. -/
def call (uninitialised : TokenLevel ℚ) (now : Int) (metered : MeteredBucket) :
    BucketCall → MeteredBucket
  | .tryConsume numberOfTokens =>
    let (allowed, bucket) := metered.bucket.tryConsume (uninitialised.clock now) numberOfTokens
    ⟨bucket, now, metered.record ++
      [⟨now, bucket.byteCapacity, if allowed then numberOfTokens.toNat else 0⟩]⟩
  | .updateCapacity newByteCapacity =>
    let bucket := metered.bucket.updateCapacity (uninitialised.clock now) newByteCapacity
    ⟨bucket, now, metered.record ++ [⟨now, bucket.byteCapacity, 0⟩]⟩

/-- The runs of a bucket that is made with a capacity, at times that do not decrease. -/
def system (uninitialised : TokenLevel ℚ) (byteCapacity : Int64) :
    System MeteredBucket (Int × BucketCall) where
  init metered := ∃ now, metered = ⟨.new (uninitialised.clock now) byteCapacity, now, []⟩
  step metered event after :=
    metered.time ≤ event.1 ∧ after = metered.call uninitialised event.1 event.2

/-- A packet does not meet more tokens than the capacity, unless they are clipped first. -/
def Clipped (metered : MeteredBucket) (event : Int × BucketCall) : Prop :=
  ∀ numberOfTokens, event.2 = .tryConsume numberOfTokens → metered.bucket.byteCapacity > 0 →
    event.1 > metered.bucket.tokens.lastRefillTimestamp ∨
      metered.bucket.tokens.availableTokens ≤ metered.bucket.byteCapacity.toNat

end MeteredBucket

/-! ## Windows -/

def octets (window : List CallRecord) : Nat := (window.map CallRecord.admitted).sum

/-- What a capacity allows between two times. -/
def allowance (byteCapacity : UInt64) (start finish : Int) : ℚ :=
  byteCapacity.toNat + byteCapacity.toNat * ((finish : ℚ) - start) / 1000

/-- In every window under one capacity no more is admitted than the capacity allows. -/
def WithinAllowance (record : List CallRecord) : Prop :=
  ∀ before window after, record = before ++ window ++ after →
    ∀ byteCapacity : UInt64, byteCapacity > 0 → (∀ r ∈ window, r.byteCapacity = byteCapacity) →
      ∀ start finish : Int, start ≤ finish →
        (∀ r ∈ window, start ≤ r.time ∧ r.time ≤ finish) →
          octets window ≤ allowance byteCapacity start finish

/-- The window has admitted nothing, or what it admitted and what is left fit what is
allowed up to one of its calls. -/
def Spent (level : TokenLevel ℚ) (byteCapacity : UInt64) (start : Int)
    (window : List CallRecord) : Prop :=
  octets window = 0 ∨
    ∃ r ∈ window, r.time ≤ level.lastRefillTimestamp ∧ 0 ≤ level.availableTokens ∧
      octets window + level.availableTokens ≤ allowance byteCapacity start r.time

section

variable {window : List CallRecord} {r : CallRecord} {byteCapacity : UInt64}
  {start finish time now : Int} {level : TokenLevel ℚ}

@[simp] theorem octets_nil : octets [] = 0 := rfl

@[simp] theorem octets_concat : octets (window ++ [r]) = octets window + r.admitted := by
  simp [octets]

theorem capacity_le_allowance (h : start ≤ finish) :
    byteCapacity.toNat ≤ allowance byteCapacity start finish := by
  have hle : (start : ℚ) ≤ finish := by exact_mod_cast h
  have hnonneg := sub_nonneg.mpr hle
  rw [allowance]
  have : (0 : ℚ) ≤ byteCapacity.toNat * ((finish : ℚ) - start) / 1000 := by positivity
  linarith

theorem allowance_mono (h : time ≤ finish) :
    allowance byteCapacity start time ≤ allowance byteCapacity start finish := by
  have hle : (time : ℚ) ≤ finish := by exact_mod_cast h
  have hcap : (0 : ℚ) ≤ byteCapacity.toNat := Nat.cast_nonneg _
  rw [allowance, allowance]
  nlinarith

theorem allowance_add :
    allowance byteCapacity start time + byteCapacity.toNat * ((finish : ℚ) - time) / 1000 =
      allowance byteCapacity start finish := by
  rw [allowance, allowance]
  ring

/-- What is spent is within what is allowed. -/
theorem Spent.octets_le (h : Spent level byteCapacity start window) (hle : start ≤ finish)
    (htimes : ∀ r ∈ window, start ≤ r.time ∧ r.time ≤ finish) :
    octets window ≤ allowance byteCapacity start finish := by
  rcases h with hzero | ⟨r, hmem, _, hleft, hsum⟩
  · rw [hzero, Nat.cast_zero]
    exact (Nat.cast_nonneg _).trans (capacity_le_allowance hle)
  · have hmono := @allowance_mono byteCapacity start finish r.time (htimes r hmem).2
    linarith

/-- A call that admits nothing and leaves the tokens alone. -/
theorem Spent.concat_of_same {after : TokenLevel ℚ} (h : Spent level byteCapacity start window)
    (hadmitted : r.admitted = 0) (hlast : after.lastRefillTimestamp = level.lastRefillTimestamp)
    (hleft : after.availableTokens = level.availableTokens) :
    Spent after byteCapacity start (window ++ [r]) := by
  rw [Spent, octets_concat, hadmitted, Nat.add_zero, hlast, hleft]
  rcases h with hzero | ⟨seen, hmem, hrest⟩
  · exact .inl hzero
  · exact .inr ⟨seen, List.mem_append_left _ hmem, hrest⟩

/-- A refill keeps a window within what is allowed up to the time of the refill. -/
theorem Spent.refill (h : Spent level byteCapacity start window)
    (hrate : level.refillTokensPerOneMillis = byteCapacity.toNat / 1000)
    (hpast : ∀ r ∈ window, r.time ≤ now) :
    octets window = 0 ∨
      0 ≤ (level.refill now byteCapacity).availableTokens ∧
        octets window + (level.refill now byteCapacity).availableTokens ≤
          allowance byteCapacity start now := by
  rcases h with hzero | ⟨seen, hmem, hlast, hleft, hsum⟩
  · exact .inl hzero
  · refine .inr ⟨TokenLevel.refill_availableTokens_nonneg hrate hleft, ?_⟩
    have hrefill := TokenLevel.refill_availableTokens_le hrate hlast (hpast seen hmem)
    have hadd := @allowance_add byteCapacity start now seen.time
    linarith

/-- A packet leaves the window within what is allowed. -/
theorem Spent.consume {numberOfTokens : UInt64} (h : Spent level byteCapacity start window)
    (hrate : level.refillTokensPerOneMillis = byteCapacity.toNat / 1000)
    (hpast : ∀ r ∈ window, r.time ≤ now) (hstart : start ≤ now)
    (hclipped : now > level.lastRefillTimestamp ∨ level.availableTokens ≤ byteCapacity.toNat)
    (htime : r.time = now) (hadmitted : r.admitted =
      if (level.consume now byteCapacity numberOfTokens).1 then numberOfTokens.toNat else 0) :
    Spent (level.consume now byteCapacity numberOfTokens).2 byteCapacity start (window ++ [r]) := by
  have hkept := h.refill hrate hpast
  have hseen := @TokenLevel.le_refill_lastRefillTimestamp ℚ _ _ _ _ _ _ now byteCapacity level
  have hmem : r ∈ window ++ [r] := by simp
  rw [Spent, octets_concat, hadmitted]
  by_cases hlt : (level.refill now byteCapacity).availableTokens < (numberOfTokens.toNat : ℚ)
  · simp only [TokenLevel.consume_of_lt hlt, Bool.false_eq_true, if_false, Nat.add_zero]
    rcases hkept with hzero | ⟨hleft, hsum⟩
    · exact .inl hzero
    · exact .inr ⟨r, hmem, htime ▸ hseen, hleft, htime ▸ hsum⟩
  · simp only [TokenLevel.consume_of_not_lt hlt, if_true]
    have hfull := TokenLevel.refill_availableTokens_le_capacity hclipped
    have hallowed := @capacity_le_allowance byteCapacity start now hstart
    refine .inr ⟨r, hmem, htime ▸ hseen, by simpa using not_lt.mp hlt, ?_⟩
    push_cast
    rw [htime]
    rcases hkept with hzero | ⟨_, hsum⟩
    · rw [hzero, Nat.cast_zero]
      linarith
    · linarith

end

namespace MeteredBucket

variable {uninitialised : TokenLevel ℚ} {byteCapacity : Int64} {metered : MeteredBucket} {now : Int}
  {r : CallRecord}

/-- What holds of a bucket that was never asked above its capacity. -/
structure Steady (metered : MeteredBucket) : Prop where
  rate : metered.bucket.byteCapacity > 0 →
    metered.bucket.tokens.refillTokensPerOneMillis = metered.bucket.byteCapacity.toNat / 1000
  past : ∀ r ∈ metered.record, r.time ≤ metered.time
  spent : ∀ before window, metered.record = before ++ window →
    ∀ byteCapacity : UInt64, byteCapacity > 0 → (∀ r ∈ window, r.byteCapacity = byteCapacity) →
      ∀ start : Int, (∀ r ∈ window, start ≤ r.time) →
        Spent metered.bucket.tokens byteCapacity start window
  within : WithinAllowance metered.record

theorem withinAllowance_nil : WithinAllowance [] := by
  intro before window after hsplit byteCapacity _ _ start finish hle _
  obtain rfl : window = [] := by
    simp only [List.nil_eq, List.append_eq_nil_iff] at hsplit
    exact hsplit.1.2
  exact (Nat.cast_nonneg _).trans (capacity_le_allowance hle)

/-- A window of a longer record is one of the record before, or ends with the last call. -/
theorem withinAllowance_concat {record : List CallRecord} {level : TokenLevel ℚ}
    (h : WithinAllowance record) (hspent : ∀ before window, record ++ [r] = before ++ window →
      ∀ byteCapacity : UInt64, byteCapacity > 0 → (∀ r ∈ window, r.byteCapacity = byteCapacity) →
        ∀ start : Int, (∀ r ∈ window, start ≤ r.time) → Spent level byteCapacity start window) :
    WithinAllowance (record ++ [r]) := by
  intro before window after hsplit byteCapacity hpos hcap start finish hle htimes
  rcases List.eq_nil_or_concat after with rfl | ⟨rest, last, rfl⟩
  · rw [List.append_nil] at hsplit
    have hwindow := hspent before window hsplit byteCapacity hpos hcap start
      fun r hr => (htimes r hr).1
    exact hwindow.octets_le hle htimes
  · have hbefore : record = before ++ window ++ rest := by
      rw [List.concat_eq_append, ← List.append_assoc] at hsplit
      exact (List.append_inj' hsplit rfl).1
    exact h before window rest hbefore byteCapacity hpos hcap start finish hle htimes

/-- A call keeps the bucket steady when it keeps every window that ends with it. -/
theorem Steady.concat {bucket : TokenBucket (TokenLevel ℚ)} (h : metered.Steady)
    (hnow : metered.time ≤ now) (htime : r.time = now) (hrate : bucket.byteCapacity > 0 →
      bucket.tokens.refillTokensPerOneMillis = bucket.byteCapacity.toNat / 1000)
    (hspent : ∀ window : List CallRecord, (∀ seen ∈ window, seen.time ≤ metered.time) →
      r.byteCapacity > 0 → ∀ start ≤ now,
        Spent metered.bucket.tokens r.byteCapacity start window →
          Spent bucket.tokens r.byteCapacity start (window ++ [r])) :
    Steady ⟨bucket, now, metered.record ++ [r]⟩ := by
  have hall : ∀ before window, metered.record ++ [r] = before ++ window →
      ∀ byteCapacity : UInt64, byteCapacity > 0 → (∀ r ∈ window, r.byteCapacity = byteCapacity) →
        ∀ start : Int, (∀ r ∈ window, start ≤ r.time) →
          Spent bucket.tokens byteCapacity start window := by
    intro before window hsplit byteCapacity hpos hcap start hstart
    rcases List.eq_nil_or_concat window with rfl | ⟨rest, last, rfl⟩
    · exact .inl rfl
    rw [List.concat_eq_append, ← List.append_assoc] at hsplit
    obtain ⟨hrecord, hlast⟩ := List.append_inj' hsplit rfl
    obtain rfl : r = last := by simpa using hlast
    rw [List.concat_eq_append] at hcap hstart ⊢
    obtain rfl : r.byteCapacity = byteCapacity := hcap r (by simp)
    have hbefore := h.spent before rest hrecord r.byteCapacity hpos
      (fun seen hseen => hcap seen (by simp [hseen])) start
      (fun seen hseen => hstart seen (by simp [hseen]))
    refine hspent rest (fun seen hseen => h.past seen ?_) hpos start ?_ hbefore
    · rw [hrecord]
      exact List.mem_append_right _ hseen
    · exact htime ▸ hstart r (by simp)
  refine ⟨hrate, ?_, hall, withinAllowance_concat h.within hall⟩
  intro seen hseen
  rcases List.mem_append.mp hseen with hseen | hseen
  · exact (h.past seen hseen).trans hnow
  · obtain rfl := List.mem_singleton.mp hseen
    exact htime.le

theorem toNat_toUInt64 (h : 0 ≤ byteCapacity) :
    (byteCapacity.toUInt64.toNat : Int) = byteCapacity.toInt := by
  have hle : 0 ≤ byteCapacity.toInt := by simpa [Int64.le_iff_toInt_le] using h
  have hcond := byteCapacity.toBitVec.toInt_eq_toNat_cond
  have hlt := byteCapacity.toBitVec.isLt
  change (byteCapacity.toBitVec.toNat : Int) = byteCapacity.toBitVec.toInt
  change 0 ≤ byteCapacity.toBitVec.toInt at hle
  split at hcond <;> omega

theorem steady_new (h : 0 ≤ byteCapacity) :
    Steady ⟨.new (uninitialised.clock now) byteCapacity, now, []⟩ where
  rate := by
    intro hpos
    have hcap : byteCapacity > 0 := by
      by_contra hnot
      have hzero : byteCapacity = 0 := Int64.le_antisymm (Int64.not_lt.mp hnot) h
      rw [hzero] at hpos
      exact absurd hpos (UInt64.not_lt.mpr (UInt64.zero_le))
    have hcast : ((byteCapacity.toUInt64.toNat : Int) : ℚ) = byteCapacity.toInt := by
      rw [toNat_toUInt64 h]
    simp only [TokenBucket.new, TokenLevel.clock, TokenLevel.new, if_pos hcap, refillPeriod]
    rw [← hcast]
    norm_num
  past := by simp
  spent := by
    intro before window hsplit _ _ _ _ _
    obtain rfl : window = [] := by
      simp only [List.nil_eq, List.append_eq_nil_iff] at hsplit
      exact hsplit.2
    exact .inl rfl
  within := withinAllowance_nil

theorem Steady.updateCapacity (h : metered.Steady) (hnow : metered.time ≤ now)
    (newByteCapacity : UInt64) :
    (metered.call uninitialised now (.updateCapacity newByteCapacity)).Steady := by
  refine h.concat hnow rfl ?_ ?_
  · intro hpos
    have hnew : newByteCapacity > 0 := by simpa using hpos
    simp [TokenBucket.updateCapacity, hnew, TokenLevel.updateRate, refillPeriod]
  · intro window _ _ start _ hwindow
    refine hwindow.concat_of_same rfl ?_ ?_
    · rw [TokenBucket.updateCapacity]
      split <;> rfl
    · rw [TokenBucket.updateCapacity]
      split <;> rfl

theorem Steady.tryConsume (h : metered.Steady) (hnow : metered.time ≤ now)
    (numberOfTokens : UInt64)
    (hclipped : metered.Clipped (now, .tryConsume numberOfTokens)) :
    (metered.call uninitialised now (.tryConsume numberOfTokens)).Steady := by
  by_cases hpos : metered.bucket.byteCapacity > 0
  · have hrate := h.rate hpos
    have hmeets := hclipped numberOfTokens rfl hpos
    have hcall : metered.bucket.tryConsume (uninitialised.clock now) numberOfTokens =
        ((metered.bucket.tokens.consume now metered.bucket.byteCapacity numberOfTokens).1,
          ⟨metered.bucket.byteCapacity,
            (metered.bucket.tokens.consume now metered.bucket.byteCapacity numberOfTokens).2⟩) := by
      simp [TokenBucket.tryConsume, hpos]
    rw [call, hcall]
    refine h.concat hnow rfl (fun _ => ?_) ?_
    · rw [← hrate]
      exact TokenLevel.consume_refillTokensPerOneMillis
    · intro window hpast _ start hstart hwindow
      exact hwindow.consume hrate (fun seen hseen => (hpast seen hseen).trans hnow) hstart hmeets
        rfl rfl
  · have hcall : metered.bucket.tryConsume (uninitialised.clock now) numberOfTokens =
        (true, metered.bucket) := by
      simp [TokenBucket.tryConsume, hpos]
    rw [call, hcall]
    exact h.concat hnow rfl h.rate fun window _ hcap => absurd hcap hpos

/-- In every window under one capacity a bucket admits no more than the capacity allows,
as long as no packet meets tokens above the capacity. -/
theorem run_withinAllowance (hcapacity : 0 ≤ byteCapacity) {events : List (Int × BucketCall)}
    (h : (system uninitialised byteCapacity).Run Clipped events metered) :
    WithinAllowance metered.record := by
  have hsteady : metered.Steady := by
    apply h.invariant
    · rintro _ ⟨now, rfl⟩
      exact steady_new hcapacity
    · rintro before ⟨now, call⟩ _ hsteady hclipped ⟨hnow, rfl⟩
      cases call with
      | tryConsume numberOfTokens => exact hsteady.tryConsume hnow numberOfTokens hclipped
      | updateCapacity newByteCapacity => exact hsteady.updateCapacity hnow newByteCapacity
  exact hsteady.within

/-- A bucket of a million octets. -/
def fresh : MeteredBucket :=
  ⟨.new (TokenLevel.clock ⟨0, 0, 0⟩ 0) 1000000, 0, []⟩

/-- The bucket behind a lower capacity and a packet at the given time. -/
def lowered (now : Int) (numberOfTokens : UInt64) : MeteredBucket :=
  (fresh.call ⟨0, 0, 0⟩ 0 (.updateCapacity 1000)).call ⟨0, 0, 0⟩ now (.tryConsume numberOfTokens)

/-- One millisecond behind the change the tokens are clipped. -/
theorem run_withinAllowance_lowered : WithinAllowance (lowered 1 700).record := by
  have hlower : (system ⟨0, 0, 0⟩ 1000000).Run Clipped ([] ++ [(0, .updateCapacity 1000)])
      (fresh.call ⟨0, 0, 0⟩ 0 (.updateCapacity 1000)) :=
    .snoc (.nil ⟨0, rfl⟩) (fun _ h => BucketCall.noConfusion h) ⟨le_rfl, rfl⟩
  have hrun : (system ⟨0, 0, 0⟩ 1000000).Run Clipped
      ([] ++ [(0, .updateCapacity 1000)] ++ [(1, .tryConsume 700)]) (lowered 1 700) :=
    .snoc hlower (fun _ _ _ => .inl (by decide)) ⟨by decide, rfl⟩
  exact run_withinAllowance (by decide) hrun

/-- At once it admits a million octets under a capacity of thousand. -/
theorem not_run_withinAllowance :
    ¬ ∀ (uninitialised : TokenLevel ℚ) (byteCapacity : Int64) (events : List (Int × BucketCall))
      (metered : MeteredBucket),
      (system uninitialised byteCapacity).Run System.unrestricted events metered →
        WithinAllowance metered.record := by
  intro h
  have hrun : (system ⟨0, 0, 0⟩ 1000000).Run System.unrestricted
      ([] ++ [(0, .updateCapacity 1000)] ++ [(0, .tryConsume 1000000)]) (lowered 0 1000000) :=
    .snoc (.snoc (.nil ⟨0, rfl⟩) trivial ⟨le_rfl, rfl⟩) trivial ⟨le_rfl, rfl⟩
  have hrecord : (lowered 0 1000000).record =
      [⟨0, 1000, 0⟩] ++ [⟨0, 1000, 1000000⟩] ++ [] := by
    decide
  have hwithin := h _ _ _ _ hrun [⟨0, 1000, 0⟩] [⟨0, 1000, 1000000⟩] [] hrecord 1000 (by decide)
    (by simp) 0 0 le_rfl (by simp)
  have hcapacity : UInt64.toNat 1000 = 1000 := rfl
  norm_num [octets, allowance, hcapacity] at hwithin

end MeteredBucket

end Quicup.Ueransim
