import Quicup.Ueransim.Gtp.RateLimiter

/-!
# The tokens of a bucket

The doubles of a bucket and how they follow the clock. Their arithmetic is that of any
type with the operations of the source, so that it can be read as that of exact rational
numbers too. The clock counts milliseconds.
-/

namespace Quicup.Ueransim

def refillPeriod : Int := 1000

/-- `std::min` gives its first argument when neither is smaller. -/
def stdMin {δ : Type} [LT δ] [DecidableLT δ] (a b : δ) : δ := if b < a then b else a

/-- The members of a bucket that the limiter leaves open. -/
structure TokenLevel (δ : Type) where
  refillTokensPerOneMillis : δ
  availableTokens : δ
  lastRefillTimestamp : Int
  deriving DecidableEq

namespace TokenLevel

variable {δ : Type} [NatCast δ] [IntCast δ] [Add δ] [Mul δ] [LT δ] [DecidableLT δ]

def refill (now : Int) (byteCapacity : UInt64) (level : TokenLevel δ) : TokenLevel δ :=
  if now > level.lastRefillTimestamp then
    let millisSinceLastRefill := now - level.lastRefillTimestamp
    let refill := (millisSinceLastRefill : δ) * level.refillTokensPerOneMillis
    { level with
      availableTokens := stdMin (byteCapacity.toNat : δ) (level.availableTokens + refill)
      lastRefillTimestamp := now }
  else level

section

variable {now : Int} {byteCapacity : UInt64} {level : TokenLevel δ}

@[simp] theorem refill_refillTokensPerOneMillis :
    (level.refill now byteCapacity).refillTokensPerOneMillis = level.refillTokensPerOneMillis := by
  rw [refill]
  split <;> rfl

theorem le_refill_lastRefillTimestamp :
    now ≤ (level.refill now byteCapacity).lastRefillTimestamp := by
  rw [refill]
  split
  · exact le_rfl
  · omega

theorem refill_of_le (h : now ≤ level.lastRefillTimestamp) :
    level.refill now byteCapacity = level := by
  rw [refill, if_neg (by omega)]

/-- Nothing is left to refill at once after a refill. -/
@[simp] theorem refill_refill :
    (level.refill now byteCapacity).refill now byteCapacity = level.refill now byteCapacity :=
  refill_of_le le_refill_lastRefillTimestamp

end

variable [Sub δ]

def consume (now : Int) (byteCapacity numberOfTokens : UInt64) (level : TokenLevel δ) :
    Bool × TokenLevel δ :=
  let level := level.refill now byteCapacity
  if level.availableTokens < (numberOfTokens.toNat : δ) then (false, level)
  else
    (true, { level with availableTokens := level.availableTokens - (numberOfTokens.toNat : δ) })

section

variable {now : Int} {byteCapacity numberOfTokens : UInt64} {level : TokenLevel δ}

theorem consume_of_lt
    (h : (level.refill now byteCapacity).availableTokens < (numberOfTokens.toNat : δ)) :
    level.consume now byteCapacity numberOfTokens = (false, level.refill now byteCapacity) := by
  simp [consume, h]

theorem consume_of_not_lt
    (h : ¬ (level.refill now byteCapacity).availableTokens < (numberOfTokens.toNat : δ)) :
    level.consume now byteCapacity numberOfTokens =
      (true, { level.refill now byteCapacity with
        availableTokens :=
          (level.refill now byteCapacity).availableTokens - (numberOfTokens.toNat : δ) }) := by
  simp [consume, h]

@[simp] theorem consume_refillTokensPerOneMillis :
    (level.consume now byteCapacity numberOfTokens).2.refillTokensPerOneMillis =
      level.refillTokensPerOneMillis := by
  rw [consume]
  split <;> exact refill_refillTokensPerOneMillis

end

variable [Div δ]

/-- A bucket that is made without a capacity keeps what its memory held. -/
def new (uninitialised : TokenLevel δ) (now : Int) (byteCapacity : Int64) : TokenLevel δ :=
  if byteCapacity > 0 then
    { refillTokensPerOneMillis := (byteCapacity.toInt : δ) / (refillPeriod : δ)
      availableTokens := (byteCapacity.toInt : δ)
      lastRefillTimestamp := now }
  else uninitialised

/-- The tokens themselves stay, also above a capacity that went down. -/
def updateRate (newByteCapacity : UInt64) (level : TokenLevel δ) : TokenLevel δ :=
  { level with
    refillTokensPerOneMillis := (newByteCapacity.toNat : δ) / (refillPeriod : δ) }

/-- What the limiter does to the tokens when the clock shows `now`. -/
def clock (uninitialised : TokenLevel δ) (now : Int) : Tokens (TokenLevel δ) where
  fresh      := new uninitialised now
  updateRate := updateRate
  consume    := consume now

variable (uninitialised : TokenLevel δ) (now : Int) (byteCapacity : UInt64) (level : TokenLevel δ)

@[simp] theorem clock_consume (numberOfTokens : UInt64) :
    (clock uninitialised now).consume byteCapacity numberOfTokens level =
      level.consume now byteCapacity numberOfTokens := rfl

@[simp] theorem clock_updateRate :
    (clock uninitialised now).updateRate byteCapacity level = level.updateRate byteCapacity := rfl

end TokenLevel

/-! ## What a refused packet costs -/

namespace TokenBucket

variable {δ : Type} [NatCast δ] [IntCast δ] [Add δ] [Mul δ] [LT δ] [DecidableLT δ]

/-- What a bucket holds when nothing but time passes up to `now`. -/
def levelAt (bucket : TokenBucket (TokenLevel δ)) (now : Int) : TokenLevel δ :=
  if bucket.byteCapacity > 0 then bucket.tokens.refill now bucket.byteCapacity else bucket.tokens

/-- The bucket holds too few tokens for a packet. -/
def Short (bucket : TokenBucket (TokenLevel δ)) (now : Int) (numberOfTokens : UInt64) : Prop :=
  bucket.byteCapacity > 0 ∧ (bucket.levelAt now).availableTokens < (numberOfTokens.toNat : δ)

variable [Sub δ]

/-- The bucket holds enough tokens for a packet, and the packet makes them less. -/
def Charged (bucket : TokenBucket (TokenLevel δ)) (now : Int) (numberOfTokens : UInt64) : Prop :=
  bucket.byteCapacity > 0 ∧
    ¬ (bucket.levelAt now).availableTokens < (numberOfTokens.toNat : δ) ∧
      (bucket.levelAt now).availableTokens - (numberOfTokens.toNat : δ) ≠
        (bucket.levelAt now).availableTokens

variable {bucket : TokenBucket (TokenLevel δ)} {now : Int} {numberOfTokens : UInt64}

theorem not_charged_of_short (h : bucket.Short now numberOfTokens) :
    ¬ bucket.Charged now numberOfTokens := fun hcharged => hcharged.2.1 h.2

variable [Div δ] {uninitialised : TokenLevel δ}

/-- A bucket refuses exactly what it holds too few tokens for. -/
theorem tryConsume_eq_false_iff :
    (bucket.tryConsume (TokenLevel.clock uninitialised now) numberOfTokens).1 = false ↔
      bucket.Short now numberOfTokens := by
  by_cases hpos : bucket.byteCapacity > 0
  · by_cases hlt : (bucket.tokens.refill now bucket.byteCapacity).availableTokens <
      (numberOfTokens.toNat : δ)
    · simp [tryConsume, hpos, TokenLevel.consume_of_lt hlt, Short, levelAt, hlt]
    · simp [tryConsume, hpos, TokenLevel.consume_of_not_lt hlt, Short, levelAt, hlt]
  · simp [tryConsume, hpos, Short]

/-- A packet leaves the level of a bucket alone unless it is charged. -/
theorem levelAt_tryConsume_iff :
    (bucket.tryConsume (TokenLevel.clock uninitialised now) numberOfTokens).2.levelAt now =
      bucket.levelAt now ↔ ¬ bucket.Charged now numberOfTokens := by
  by_cases hpos : bucket.byteCapacity > 0
  · by_cases hlt : (bucket.tokens.refill now bucket.byteCapacity).availableTokens <
      (numberOfTokens.toNat : δ)
    · simp [tryConsume, hpos, TokenLevel.consume_of_lt hlt, Charged, levelAt, hlt]
    · have hlast : now ≤ (bucket.tokens.refill now bucket.byteCapacity).lastRefillTimestamp :=
        TokenLevel.le_refill_lastRefillTimestamp
      simp only [tryConsume, hpos, TokenLevel.clock_consume, TokenLevel.consume_of_not_lt hlt,
        Charged, levelAt, hlt, if_true, true_and, not_false_eq_true, not_not, ne_eq]
      rw [TokenLevel.refill_of_le (by exact hlast)]
      constructor
      · intro h
        exact congrArg TokenLevel.availableTokens h
      · intro h
        rw [h]
  · simp [tryConsume, hpos, Charged]

end TokenBucket

namespace Buckets

variable {κ δ : Type} [DecidableEq κ] [NatCast δ] [IntCast δ] [Add δ] [Mul δ] [LT δ]
  [DecidableLT δ]

/-- What the bucket of a key holds when nothing but time passes up to `now`. -/
def levelAt (buckets : Buckets κ (TokenLevel δ)) (key : κ) (now : Int) :
    Option (TokenLevel δ) :=
  (buckets.lookup key).map (·.levelAt now)

/-- There is a bucket, with too few tokens for a packet. -/
def Short (buckets : Buckets κ (TokenLevel δ)) (key : κ) (now : Int) (size : UInt64) : Prop :=
  ∃ bucket, buckets.lookup key = some bucket ∧ bucket.Short now size

variable [Sub δ]

/-- There is a bucket, with enough tokens for a packet, which makes them less. -/
def Charged (buckets : Buckets κ (TokenLevel δ)) (key : κ) (now : Int) (size : UInt64) : Prop :=
  ∃ bucket, buckets.lookup key = some bucket ∧ bucket.Charged now size

variable {buckets : Buckets κ (TokenLevel δ)} {key : κ} {now : Int} {size : UInt64}

theorem not_charged_of_short (h : buckets.Short key now size) :
    ¬ buckets.Charged key now size := by
  rintro ⟨bucket, hlookup, hcharged⟩
  obtain ⟨_, hother, hshort⟩ := h
  obtain rfl := Option.some.inj (hother.symm.trans hlookup)
  exact TokenBucket.not_charged_of_short hshort hcharged

variable [Div δ] {uninitialised : TokenLevel δ}

theorem tryConsume_eq_false_iff :
    (buckets.tryConsume (TokenLevel.clock uninitialised now) key size).1 = false ↔
      buckets.Short key now size := by
  rw [Short, tryConsume]
  cases hlookup : buckets.lookup key with
  | none => simp
  | some bucket => simp [TokenBucket.tryConsume_eq_false_iff]

theorem levelAt_tryConsume_iff :
    (buckets.tryConsume (TokenLevel.clock uninitialised now) key size).2.levelAt key now =
      buckets.levelAt key now ↔ ¬ buckets.Charged key now size := by
  rw [Charged, levelAt, levelAt, tryConsume]
  cases hlookup : buckets.lookup key with
  | none => simp [hlookup]
  | some bucket => simp [TokenBucket.levelAt_tryConsume_iff]

end Buckets

namespace RateLimiter

variable {δ : Type} [NatCast δ] [IntCast δ] [Add δ] [Sub δ] [Mul δ] [Div δ] [LT δ] [DecidableLT δ]

/-- When the packet is refused, the buckets of its UE and of its session hold what they
would hold had only time passed. -/
def RefusalIsFree (now : Int) (pduSession : UInt64) (before : Buckets Int32 (TokenLevel δ))
    (beforeBySession : Buckets UInt64 (TokenLevel δ)) (allowed : Bool)
    (after : Buckets Int32 (TokenLevel δ)) (afterBySession : Buckets UInt64 (TokenLevel δ)) :
    Prop :=
  allowed = false →
    after.levelAt (getUeId pduSession) now = before.levelAt (getUeId pduSession) now ∧
      afterBySession.levelAt pduSession now = beforeBySession.levelAt pduSession now

def DownlinkRefusalIsFree (uninitialised : TokenLevel δ) (now : Int)
    (pduSession packetSize : UInt64) (limiter : RateLimiter (TokenLevel δ)) : Prop :=
  let (allowed, after) :=
    limiter.allowDownlinkPacket (TokenLevel.clock uninitialised now) pduSession packetSize
  RefusalIsFree now pduSession limiter.downlinkByUe limiter.downlinkBySession allowed
    after.downlinkByUe after.downlinkBySession

def UplinkRefusalIsFree (uninitialised : TokenLevel δ) (now : Int)
    (pduSession packetSize : UInt64) (limiter : RateLimiter (TokenLevel δ)) : Prop :=
  let (allowed, after) :=
    limiter.allowUplinkPacket (TokenLevel.clock uninitialised now) pduSession packetSize
  RefusalIsFree now pduSession limiter.uplinkByUe limiter.uplinkBySession allowed
    after.uplinkByUe after.uplinkBySession

variable {uninitialised : TokenLevel δ} {now : Int} {pduSession packetSize : UInt64}
  {byUe : Buckets Int32 (TokenLevel δ)} {bySession : Buckets UInt64 (TokenLevel δ)}

/-- The UE refuses: the session is not asked, and what refuses is not charged. -/
theorem refusalIsFree_of_ue
    (h : (byUe.tryConsume (TokenLevel.clock uninitialised now) (getUeId pduSession)
      packetSize).1 = false) {allowed : Bool} :
    RefusalIsFree now pduSession byUe bySession allowed
      (byUe.tryConsume (TokenLevel.clock uninitialised now) (getUeId pduSession) packetSize).2
      bySession := by
  intro _
  have hshort := Buckets.tryConsume_eq_false_iff.mp h
  exact ⟨Buckets.levelAt_tryConsume_iff.mpr (Buckets.not_charged_of_short hshort), rfl⟩

/-- The session refuses: what the UE was charged is not given back. -/
theorem refusalIsFree_of_session_iff :
    RefusalIsFree now pduSession byUe bySession
      (bySession.tryConsume (TokenLevel.clock uninitialised now) pduSession packetSize).1
      (byUe.tryConsume (TokenLevel.clock uninitialised now) (getUeId pduSession) packetSize).2
      (bySession.tryConsume (TokenLevel.clock uninitialised now) pduSession packetSize).2 ↔
    ¬ (byUe.Charged (getUeId pduSession) now packetSize ∧
      bySession.Short pduSession now packetSize) := by
  rw [RefusalIsFree, Buckets.tryConsume_eq_false_iff, Buckets.levelAt_tryConsume_iff,
    Buckets.levelAt_tryConsume_iff]
  constructor
  · rintro h ⟨hcharged, hshort⟩
    exact (h hshort).1 hcharged
  · intro h hshort
    exact ⟨fun hcharged => h ⟨hcharged, hshort⟩, Buckets.not_charged_of_short hshort⟩

/-- The two buckets asked in turn, as both directions do it. -/
theorem refusalIsFree_asked_iff (uninitialised : TokenLevel δ)
    (byUe : Buckets Int32 (TokenLevel δ)) (bySession : Buckets UInt64 (TokenLevel δ)) :
    (bif (byUe.tryConsume (TokenLevel.clock uninitialised now) (getUeId pduSession)
        packetSize).1 then
      RefusalIsFree now pduSession byUe bySession
        (bySession.tryConsume (TokenLevel.clock uninitialised now) pduSession packetSize).1
        (byUe.tryConsume (TokenLevel.clock uninitialised now) (getUeId pduSession) packetSize).2
        (bySession.tryConsume (TokenLevel.clock uninitialised now) pduSession packetSize).2
    else
      RefusalIsFree now pduSession byUe bySession false
        (byUe.tryConsume (TokenLevel.clock uninitialised now) (getUeId pduSession) packetSize).2
        bySession) ↔
    ¬ (byUe.Charged (getUeId pduSession) now packetSize ∧
      bySession.Short pduSession now packetSize) := by
  cases hallowed : (byUe.tryConsume (TokenLevel.clock uninitialised now) (getUeId pduSession)
    packetSize).1 with
  | false =>
    have hnot := Buckets.not_charged_of_short (Buckets.tryConsume_eq_false_iff.mp hallowed)
    exact iff_of_true (refusalIsFree_of_ue hallowed) fun h => hnot h.1
  | true => exact refusalIsFree_of_session_iff

/-- A packet is refused for free, unless the bucket of its UE is charged before the bucket
of its session refuses. -/
theorem refusalIsFree_iff (uninitialised : TokenLevel δ) (now : Int)
    (pduSession packetSize : UInt64) (limiter : RateLimiter (TokenLevel δ)) :
    (DownlinkRefusalIsFree uninitialised now pduSession packetSize limiter ↔
      ¬ (limiter.downlinkByUe.Charged (getUeId pduSession) now packetSize ∧
        limiter.downlinkBySession.Short pduSession now packetSize)) ∧
    (UplinkRefusalIsFree uninitialised now pduSession packetSize limiter ↔
      ¬ (limiter.uplinkByUe.Charged (getUeId pduSession) now packetSize ∧
        limiter.uplinkBySession.Short pduSession now packetSize)) := by
  constructor
  · rw [← refusalIsFree_asked_iff uninitialised, DownlinkRefusalIsFree, allowDownlinkPacket]
    obtain ⟨allowed, downlinkByUe⟩ := limiter.downlinkByUe.tryConsume
      (TokenLevel.clock uninitialised now) (getUeId pduSession) packetSize
    cases allowed <;> rfl
  · rw [← refusalIsFree_asked_iff uninitialised, UplinkRefusalIsFree, allowUplinkPacket]
    obtain ⟨allowed, uplinkByUe⟩ := limiter.uplinkByUe.tryConsume
      (TokenLevel.clock uninitialised now) (getUeId pduSession) packetSize
    cases allowed <;> rfl

/-- A UE with two thousand tokens, and a session of five hundred. -/
def sessionRefuses : RateLimiter (TokenLevel ℚ) where
  downlinkByUe      := AList.singleton 1 ⟨2000, ⟨2, 2000, 5⟩⟩
  downlinkBySession := AList.singleton 0x100000005 ⟨500, ⟨1 / 2, 500, 5⟩⟩

/-- The session refuses thousand octets, which the UE has paid for. -/
theorem refusal_not_free :
    ¬ DownlinkRefusalIsFree ⟨0, 0, 0⟩ 5 0x100000005 1000 sessionRefuses := by
  intro h
  have hrefused : (sessionRefuses.allowDownlinkPacket (TokenLevel.clock ⟨0, 0, 0⟩ 5)
      0x100000005 1000).1 = false := by
    decide
  have hpaid : (sessionRefuses.allowDownlinkPacket (TokenLevel.clock ⟨0, 0, 0⟩ 5)
      0x100000005 1000).2.downlinkByUe.levelAt 1 5 ≠ sessionRefuses.downlinkByUe.levelAt 1 5 := by
    decide +kernel
  exact hpaid (h hrefused).1

end RateLimiter

end Quicup.Ueransim
