import Quicup.Ueransim.Gtp.Sessions

/-!
# The rate limiter of the gNB

Token buckets in four tables, two by UE and two by session. The tokens of a bucket
are floating point numbers that follow the clock. They are a parameter here, as are
the decisions taken from them, while the capacities are those of the source.
-/

namespace Quicup.Ueransim

/-- How the tokens of a bucket start, how they follow a change of its capacity, and
how a packet consumes them. -/
structure Tokens (τ : Type) where
  fresh : Int64 → τ
  updateRate : UInt64 → τ → τ
  consume : UInt64 → UInt64 → τ → Bool × τ

structure TokenBucket (τ : Type) where
  byteCapacity : UInt64
  tokens : τ

namespace TokenBucket

variable {τ : Type} (clock : Tokens τ)

def new (byteCapacity : Int64) : TokenBucket τ :=
  ⟨byteCapacity.toUInt64, clock.fresh byteCapacity⟩

/-- A bucket of no capacity lets everything pass. -/
def tryConsume (bucket : TokenBucket τ) (numberOfTokens : UInt64) : Bool × TokenBucket τ :=
  if bucket.byteCapacity > 0 then
    let (allowed, tokens) := clock.consume bucket.byteCapacity numberOfTokens bucket.tokens
    (allowed, { bucket with tokens })
  else
    (true, bucket)

def updateCapacity (bucket : TokenBucket τ) (newByteCapacity : UInt64) : TokenBucket τ :=
  if newByteCapacity > 0 then
    ⟨newByteCapacity, clock.updateRate newByteCapacity bucket.tokens⟩
  else
    { bucket with byteCapacity := newByteCapacity }

@[simp] theorem new_byteCapacity (limit : UInt64) :
    (new clock limit.toInt64).byteCapacity = limit := rfl

@[simp] theorem tryConsume_byteCapacity (bucket : TokenBucket τ) (numberOfTokens : UInt64) :
    (bucket.tryConsume clock numberOfTokens).2.byteCapacity = bucket.byteCapacity := by
  rw [tryConsume]
  split <;> rfl

@[simp] theorem updateCapacity_byteCapacity (bucket : TokenBucket τ) (newByteCapacity : UInt64) :
    (bucket.updateCapacity clock newByteCapacity).byteCapacity = newByteCapacity := by
  rw [updateCapacity]
  split <;> rfl

end TokenBucket

/-! ## Tables of buckets -/

/-- The buckets of one direction, by UE or by session. -/
abbrev Buckets (κ τ : Type) := AList fun _ : κ => TokenBucket τ

namespace Buckets

variable {κ τ : Type} [DecidableEq κ] (clock : Tokens τ) (buckets : Buckets κ τ) (key : κ)

/-- What the four updates of the source do to their tables. Zero takes the bucket out. -/
def updateLimit (limit : UInt64) : Buckets κ τ :=
  if limit ≤ 0 then buckets.erase key
  else
    match buckets.lookup key with
    | some bucket => buckets.insert key (bucket.updateCapacity clock limit)
    | none => buckets.insert key (.new clock limit.toInt64)

/-- Ask the bucket of a key, when there is one. -/
def tryConsume (size : UInt64) : Bool × Buckets κ τ :=
  match buckets.lookup key with
  | none => (true, buckets)
  | some bucket =>
    let (allowed, bucket) := bucket.tryConsume clock size
    (allowed, buckets.insert key bucket)

/-- The capacity of the bucket of a key. -/
def capacity : Option UInt64 := (buckets.lookup key).map TokenBucket.byteCapacity

/-- The capacity that a configured bit rate asks for. -/
def ofAmbr (ambr : UInt64) : Option UInt64 := if ambr = 0 then none else some ambr

variable {buckets key} {other : κ}

@[simp] theorem ofAmbr_zero : ofAmbr 0 = none := rfl

@[simp] theorem ofAmbr_eq_none {ambr : UInt64} : ofAmbr ambr = none ↔ ambr = 0 := by
  simp [ofAmbr]

@[simp] theorem capacity_empty : capacity (∅ : Buckets κ τ) key = none := rfl

theorem capacity_eq_none : buckets.capacity key = none ↔ buckets.lookup key = none := by
  simp [capacity]

@[simp] theorem capacity_updateLimit (limit : UInt64) :
    (buckets.updateLimit clock key limit).capacity key = ofAmbr limit := by
  by_cases hzero : limit = 0
  · simp [updateLimit, capacity, hzero]
  have hle : ¬ limit ≤ 0 := fun h => hzero (UInt64.le_antisymm h (UInt64.zero_le ..))
  rw [updateLimit, if_neg hle, ofAmbr, if_neg hzero]
  split <;> simp [capacity]

theorem lookup_updateLimit_ne (limit : UInt64) (h : other ≠ key) :
    (buckets.updateLimit clock key limit).lookup other = buckets.lookup other := by
  rw [updateLimit]
  split
  · exact AList.lookup_erase_ne h
  · split <;> exact AList.lookup_insert_ne h

theorem capacity_updateLimit_ne (limit : UInt64) (h : other ≠ key) :
    (buckets.updateLimit clock key limit).capacity other = buckets.capacity other := by
  rw [capacity, lookup_updateLimit_ne clock limit h, capacity]

/-- A packet changes the tokens of a bucket and nothing else. -/
@[simp] theorem capacity_tryConsume (size : UInt64) :
    (buckets.tryConsume clock key size).2.capacity other = buckets.capacity other := by
  rw [tryConsume]
  split
  · rfl
  · rename_i bucket hbucket
    by_cases h : other = key
    · subst h
      simp [capacity, hbucket]
    · simp [capacity, AList.lookup_insert_ne h]

end Buckets

structure RateLimiter (τ : Type) where
  downlinkByUe : Buckets Int32 τ := ∅
  downlinkBySession : Buckets UInt64 τ := ∅
  uplinkByUe : Buckets Int32 τ := ∅
  uplinkBySession : Buckets UInt64 τ := ∅

namespace RateLimiter

variable {τ : Type} (clock : Tokens τ)

/-- The session is not asked when the UE refuses. -/
def allowDownlinkPacket (pduSession packetSize : UInt64) (limiter : RateLimiter τ) :
    Bool × RateLimiter τ :=
  let (allowed, downlinkByUe) :=
    limiter.downlinkByUe.tryConsume clock (getUeId pduSession) packetSize
  if !allowed then (false, { limiter with downlinkByUe })
  else
    let (allowed, downlinkBySession) :=
      limiter.downlinkBySession.tryConsume clock pduSession packetSize
    (allowed, { limiter with downlinkByUe, downlinkBySession })

def allowUplinkPacket (pduSession packetSize : UInt64) (limiter : RateLimiter τ) :
    Bool × RateLimiter τ :=
  let (allowed, uplinkByUe) :=
    limiter.uplinkByUe.tryConsume clock (getUeId pduSession) packetSize
  if !allowed then (false, { limiter with uplinkByUe })
  else
    let (allowed, uplinkBySession) :=
      limiter.uplinkBySession.tryConsume clock pduSession packetSize
    (allowed, { limiter with uplinkByUe, uplinkBySession })

def updateUeUplinkLimit (ueId : Int32) (limit : UInt64) (limiter : RateLimiter τ) :
    RateLimiter τ :=
  { limiter with uplinkByUe := limiter.uplinkByUe.updateLimit clock ueId limit }

def updateUeDownlinkLimit (ueId : Int32) (limit : UInt64) (limiter : RateLimiter τ) :
    RateLimiter τ :=
  { limiter with downlinkByUe := limiter.downlinkByUe.updateLimit clock ueId limit }

def updateSessionUplinkLimit (pduSession limit : UInt64) (limiter : RateLimiter τ) :
    RateLimiter τ :=
  { limiter with uplinkBySession := limiter.uplinkBySession.updateLimit clock pduSession limit }

def updateSessionDownlinkLimit (pduSession limit : UInt64) (limiter : RateLimiter τ) :
    RateLimiter τ :=
  { limiter with
    downlinkBySession := limiter.downlinkBySession.updateLimit clock pduSession limit }

/-- The limiter as the task uses it. -/
def interface : IRateLimiter (RateLimiter τ) where
  allowDownlinkPacket        := allowDownlinkPacket clock
  allowUplinkPacket          := allowUplinkPacket clock
  updateUeUplinkLimit        := updateUeUplinkLimit clock
  updateUeDownlinkLimit      := updateUeDownlinkLimit clock
  updateSessionUplinkLimit   := updateSessionUplinkLimit clock
  updateSessionDownlinkLimit := updateSessionDownlinkLimit clock

end RateLimiter

end Quicup.Ueransim
