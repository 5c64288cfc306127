import Quicup.Core.ByteOrder
import Quicup.Core.System

/-!
# Transactions of GTP-C

`xact.c` of the GTP library: the ids of the transactions that a process starts. Both versions
of GTP-C count with the same variable, each in a range of its own.
-/

namespace Quicup.Open5gs.Gtp

open System

/-! ## Ids -/

def gtpMinXactId : UInt32 := 1

/-- The bit of the sequence numbers of commands, which is also the last id of GTPv2. -/
def gtpCmdXactId : UInt32 := 0x800000

def gtp1MinXactId : UInt32 := 0

def gtp1MaxXactId : UInt32 := 65535

/-- `OGS_NEXT_ID` -/
def nextId (id min max : UInt32) : UInt32 := if id = max then min else id + 1

/-- `OGS_GTP1_XID_TO_SQN` -/
def gtp1XidToSqn (xid : UInt32) : UInt16 := swap16 xid.toUInt16

/-- `OGS_GTP1_SQN_TO_XID` -/
def gtp1SqnToXid (sqn : UInt16) : UInt32 := (swap16 sqn).toUInt32

def modifyBearerCommandType : UInt8 := 64

def deleteBearerCommandType : UInt8 := 66

def bearerResourceCommandType : UInt8 := 68

/-- Whether a message of GTPv2 is a command. -/
def isCommand (type : UInt8) : Bool :=
  type = modifyBearerCommandType ∨ type = deleteBearerCommandType ∨ type = bearerResourceCommandType

/-! ## Creation -/

inductive GtpVersion
  | gtp1
  | gtp2
  deriving DecidableEq

/-- A call that creates a transaction for a message to a node, and whether the pool has a
transaction left. -/
structure LocalCreate where
  gtpVersion : GtpVersion
  type : UInt8
  gnode : Nat
  alloc : Bool := true
  deriving DecidableEq

/-- `ogs_gtp_xact_t`, as far as the id depends on it or is used with it. -/
structure GtpXact where
  gtpVersion : GtpVersion
  type : UInt8
  gnode : Nat
  xid : UInt32
  deriving DecidableEq

/-- The counter `g_xact_id` and all transactions that have got an id, the last one first. A
transaction that is deleted because a timer or its message fails has got one, too. -/
structure XactState where
  xactId : UInt32 := 0
  created : List GtpXact := []
  deriving DecidableEq

/-- The next value of the counter for a version. -/
def XactState.next (st : XactState) : GtpVersion → UInt32
  | .gtp1 => nextId st.xactId gtp1MinXactId gtp1MaxXactId
  | .gtp2 => nextId st.xactId gtpMinXactId gtpCmdXactId

/-- The id that a transaction gets at a value of the counter. -/
def LocalCreate.xid (call : LocalCreate) (xactId : UInt32) : UInt32 :=
  match call.gtpVersion with
  | .gtp1 => xactId
  | .gtp2 => if isCommand call.type then xactId ||| gtpCmdXactId else xactId

/-- `ogs_gtp1_xact_local_create` and `ogs_gtp_xact_local_create` -/
def localCreate (call : LocalCreate) (st : XactState) : XactState :=
  if call.alloc then
    let xactId := st.next call.gtpVersion
    let xact : GtpXact :=
      { gtpVersion := call.gtpVersion
        type := call.type
        gnode := call.gnode
        xid := call.xid xactId }
    { xactId, created := xact :: st.created }
  else st

/-- A process that creates transactions. -/
def xactSystem : System XactState LocalCreate where
  init st := st = {}
  step st call st' := st' = localCreate call st

/-! ## Usable ids -/

/-- How many ids there are before the first one comes again. -/
def cycle : GtpVersion → Nat
  | .gtp1 => 65536
  | .gtp2 => 0x800000

/-- An id of GTPv1 comes back with the sequence number of an answer, and one of GTPv2 has the
bit of commands if its message is a command. -/
def GtpXact.Usable (xact : GtpXact) : Prop :=
  match xact.gtpVersion with
  | .gtp1 => gtp1SqnToXid (gtp1XidToSqn xact.xid) = xact.xid
  | .gtp2 => xact.xid &&& gtpCmdXactId ≠ 0 ↔ isCommand xact.type

/-- All ids are usable, and those of a version at a node that are less than a cycle apart
are different. -/
structure IdsUsable (st : XactState) : Prop where
  usable : ∀ xact ∈ st.created, xact.Usable
  distinct : ∀ i j xact xact', st.created[i]? = some xact → st.created[j]? = some xact' → i < j →
    j - i < cycle xact.gtpVersion → xact.gtpVersion = xact'.gtpVersion →
    xact.gnode = xact'.gnode → xact.xid ≠ xact'.xid

/-- The calls that find the counter in their own range: one of GTPv1 finds it in 16 bits, and
starts it again only if GTPv2 has used none of the ids before. A call of GTPv2 that is not for a
command does not find it before the bit of commands. -/
def InRange (st : XactState) (call : LocalCreate) : Prop :=
  match call.gtpVersion with
  | .gtp1 => st.xactId ≤ gtp1MaxXactId ∧
      (st.xactId = gtp1MaxXactId → ∀ xact ∈ st.created.take 65535, xact.gtpVersion = .gtp1)
  | .gtp2 => st.xactId = gtpCmdXactId - 1 → isCommand call.type

/-- A call that gets no transaction leaves the counter. -/
def CallInRange (st : XactState) (call : LocalCreate) : Prop := call.alloc = true → InRange st call

/-! ## Positions of the counter -/

/-- A transaction has got its id when the counter was at `p`. -/
def GtpXact.At (xact : GtpXact) (p : Nat) : Prop :=
  match xact.gtpVersion with
  | .gtp1 => p ≤ 65535 ∧ xact.xid.toNat = p
  | .gtp2 =>
    1 ≤ p ∧ p ≤ 0x800000 ∧
      if isCommand xact.type then xact.xid.toNat = if p < 0x800000 then p + 0x800000 else p
      else p < 0x800000 ∧ xact.xid.toNat = p

variable {xid : UInt32} {p : Nat}

/-- An id of 16 bits comes back from its sequence number. -/
theorem gtp1SqnToXid_xidToSqn (h : xid.toNat ≤ 65535) : gtp1SqnToXid (gtp1XidToSqn xid) = xid := by
  apply UInt32.toNat.inj
  rw [gtp1SqnToXid, gtp1XidToSqn, swap16_swap16, UInt16.toNat_toUInt32, UInt32.toNat_toUInt16]
  omega

theorem and_gtpCmdXactId_ne_zero : xid &&& gtpCmdXactId ≠ 0 ↔ xid.toNat / 0x800000 % 2 = 1 := by
  change _ ↔ xid.toNat / 2 ^ 23 % 2 = 1
  rw [← and_two_pow_ne_zero]
  apply not_congr
  rw [← UInt32.toNat_inj, UInt32.toNat_and]
  rfl

theorem GtpXact.At.usable {xact : GtpXact} (h : xact.At p) : xact.Usable := by
  unfold At at h
  unfold Usable
  split
  · next hversion =>
    rw [hversion] at h
    exact gtp1SqnToXid_xidToSqn (by omega)
  · next hversion =>
    rw [hversion] at h
    obtain ⟨hlow, hhigh, h⟩ := h
    rw [and_gtpCmdXactId_ne_zero]
    split at h
    · next hcommand =>
      apply iff_of_true _ hcommand
      split at h <;> omega
    · next hcommand =>
      apply iff_of_false _ hcommand
      omega

/-- Transactions of a version that have got the same id have got it at the same position. -/
theorem GtpXact.At.inj {xact xact' : GtpXact} {p' : Nat} (h : xact.At p) (h' : xact'.At p')
    (hversion : xact.gtpVersion = xact'.gtpVersion) (hxid : xact.xid = xact'.xid) : p = p' := by
  unfold At at h h'
  rw [← hversion, ← hxid] at h'
  cases hv : xact.gtpVersion with
  | gtp1 =>
    rw [hv] at h h'
    exact h.2.symm.trans h'.2
  | gtp2 =>
    rw [hv] at h h'
    grind

/-- With the counter at `c`, the transaction that is `i` places back has got its id that many
steps before, or a whole cycle more. -/
def Counted (c i : Nat) (xact : GtpXact) : Prop :=
  ∃ p, xact.At p ∧ (c = p + i ∨ c + cycle xact.gtpVersion ≤ p + i)

/-- What a call in range does to the counter: it goes on, GTPv1 starts it again, or GTPv2
does. -/
inductive Advance (st : XactState) : Nat → Prop
  | next : st.xactId.toNat < 0x800000 → Advance st (st.xactId.toNat + 1)
  | gtp1 : st.xactId.toNat = 65535 →
      (∀ xact ∈ st.created.take 65535, xact.gtpVersion = .gtp1) → Advance st 0
  | gtp2 : st.xactId.toNat = 0x800000 → Advance st 1

theorem toNat_nextId {id min max : UInt32} (hle : id.toNat ≤ 0x800000) :
    (nextId id min max).toNat = if id.toNat = max.toNat then min.toNat else id.toNat + 1 := by
  unfold nextId
  by_cases hlast : id = max
  · rw [if_pos hlast, if_pos (congrArg UInt32.toNat hlast)]
  · rw [if_neg hlast, if_neg fun heq => hlast (UInt32.toNat.inj heq), UInt32.toNat_add]
    change (id.toNat + 1) % 4294967296 = id.toNat + 1
    omega

variable {st : XactState} {call : LocalCreate} {c : Nat}

theorem advance (hle : st.xactId.toNat ≤ 0x800000) (h : InRange st call) :
    Advance st (st.next call.gtpVersion).toNat := by
  unfold InRange at h
  unfold XactState.next
  cases hversion : call.gtpVersion with
  | gtp1 =>
    rw [hversion] at h
    obtain ⟨hrange, hwrap⟩ := h
    have hrange : st.xactId.toNat ≤ 65535 := hrange
    simp only [toNat_nextId hle]
    split
    · next hlast => exact .gtp1 hlast (hwrap (UInt32.toNat.inj hlast))
    · exact .next (by omega)
  | gtp2 =>
    simp only [toNat_nextId hle]
    split
    · next hlast => exact .gtp2 hlast
    · next hlast =>
      have hlast : st.xactId.toNat ≠ 0x800000 := hlast
      exact .next (by omega)

theorem Advance.le (h : Advance st c) : c ≤ 0x800000 := by
  cases h with
  | next => omega
  | gtp1 => omega
  | gtp2 => omega

/-- A step of the counter moves every transaction one place back. -/
theorem Counted.advance {i : Nat} {xact : GtpXact} (hc : Advance st c)
    (hi : st.created[i]? = some xact) (h : Counted st.xactId.toNat i xact) :
    Counted c (i + 1) xact := by
  obtain ⟨p, hat, hpos⟩ := h
  refine ⟨p, hat, ?_⟩
  unfold GtpXact.At at hat
  cases hversion : xact.gtpVersion with
  | gtp1 =>
    rw [hversion] at hat hpos
    simp only [cycle] at hpos ⊢
    cases hc with
    | next => omega
    | gtp1 hlast => omega
    | gtp2 hlast => omega
  | gtp2 =>
    rw [hversion] at hat hpos
    simp only [cycle] at hpos ⊢
    cases hc with
    | next => omega
    | gtp2 hlast => omega
    | gtp1 hlast hnone =>
      apply Or.inr
      rcases hpos with hpos | hpos
      · -- GTPv2 has used the id `p` in this round, which `hnone` excludes.
        have hmem : xact ∈ st.created.take 65535 := by
          apply List.mem_of_getElem? (i := i)
          rw [List.getElem?_take_of_lt (by omega)]
          exact hi
        have hversion' := hnone xact hmem
        rw [hversion] at hversion'
        cases hversion'
      · omega

/-- The transaction that a call creates. -/
def LocalCreate.xact (call : LocalCreate) (st : XactState) : GtpXact where
  gtpVersion := call.gtpVersion
  type := call.type
  gnode := call.gnode
  xid := call.xid (st.next call.gtpVersion)

/-- A new transaction has got its id at the counter. -/
theorem at_counter (hle : st.xactId.toNat ≤ 0x800000) (h : InRange st call) :
    (call.xact st).At (st.next call.gtpVersion).toNat := by
  unfold InRange at h
  unfold GtpXact.At LocalCreate.xact LocalCreate.xid XactState.next
  cases hversion : call.gtpVersion with
  | gtp1 =>
    rw [hversion] at h
    have hrange : st.xactId.toNat ≤ 65535 := h.1
    simp only [toNat_nextId hle, and_true]
    split
    · exact Nat.zero_le _
    · next hlast =>
      have hlast : st.xactId.toNat ≠ 65535 := hlast
      omega
  | gtp2 =>
    rw [hversion] at h
    have hnext : (nextId st.xactId gtpMinXactId gtpCmdXactId).toNat = _ := toNat_nextId hle
    have hlast : gtpCmdXactId.toNat = 0x800000 := rfl
    have hfirst : gtpMinXactId.toNat = 1 := rfl
    rw [hlast, hfirst] at hnext
    simp only
    refine ⟨?_, ?_, ?_⟩
    · split at hnext <;> omega
    · split at hnext <;> omega
    · split
      · rw [UInt32.toNat_or, hlast]
        split
        · next hbelow => exact or_two_pow_of_lt (i := 23) hbelow
        · next hbelow =>
          have htop : (nextId st.xactId gtpMinXactId gtpCmdXactId).toNat = 0x800000 := by
            split at hnext <;> omega
          rw [htop]
          rfl
      · next hcommand =>
        have hbefore : st.xactId.toNat ≠ 0x7fffff :=
          fun heq => hcommand (h (UInt32.toNat.inj heq))
        refine ⟨?_, rfl⟩
        split at hnext <;> omega

/-! ## Runs -/

/-- What holds in a run whose calls find the counter in their range. -/
structure Counting (st : XactState) : Prop where
  range : st.xactId.toNat ≤ 0x800000
  counted : ∀ i xact, st.created[i]? = some xact → Counted st.xactId.toNat i xact
  ids : IdsUsable st

theorem Counting.initial : Counting {} where
  range := Nat.zero_le _
  counted i xact h := by cases h
  ids :=
    { usable xact h := by cases h
      distinct i j xact xact' h := by cases h }

/-- A new transaction has another id than those of its version less than a cycle before. -/
theorem Counting.fresh {j : Nat} {xact : GtpXact} (h : Counting st) (hcall : InRange st call)
    (hj : st.created[j]? = some xact) (hcycle : j + 1 < cycle xact.gtpVersion)
    (hversion : call.gtpVersion = xact.gtpVersion) : (call.xact st).xid ≠ xact.xid := by
  intro hxid
  obtain ⟨p, hat, hpos⟩ := (h.counted j xact hj).advance (advance h.range hcall) hj
  have hsame := (at_counter h.range hcall).inj hat hversion hxid
  omega

theorem Counting.localCreate (h : Counting st) (hcall : CallInRange st call) :
    Counting (localCreate call st) := by
  unfold Gtp.localCreate
  split
  · next halloc =>
    replace hcall := hcall halloc
    have hadvance := advance h.range hcall
    have hnew := at_counter h.range hcall
    constructor
    · exact hadvance.le
    · intro i xact hi
      cases i with
      | zero =>
        obtain rfl : call.xact st = xact := Option.some.inj hi
        exact ⟨_, hnew, .inl rfl⟩
      | succ i => exact (h.counted i xact hi).advance hadvance hi
    · constructor
      · intro xact hmem
        rcases List.mem_cons.mp hmem with rfl | hmem
        · exact hnew.usable
        · exact h.ids.usable xact hmem
      · intro i j xact xact' hi hj hlt hcycle hversion hgnode
        obtain ⟨j, rfl⟩ : ∃ j', j = j' + 1 := ⟨j - 1, by omega⟩
        cases i with
        | zero =>
          obtain rfl : call.xact st = xact := Option.some.inj hi
          rw [hversion] at hcycle
          exact h.fresh hcall hj hcycle hversion
        | succ i =>
          exact h.ids.distinct i j xact xact' hi hj (by omega) (by omega) hversion hgnode
  · exact h

/-- As long as every call finds the counter in its range, the ids are usable. -/
theorem usable_of_inRange {calls : List LocalCreate} {st : XactState}
    (h : Run xactSystem CallInRange calls st) : IdsUsable st := by
  have hcounting : Counting st := by
    apply h.invariant
    · rintro st rfl
      exact .initial
    · rintro st call st' hst hcall rfl
      exact hst.localCreate hcall
  exact hcounting.ids

/-- A Create Session Request of GTPv2. -/
def createSession : LocalCreate where
  gtpVersion := .gtp2
  type := 32
  gnode := 0

/-- A Create PDP Context Request of GTPv1. -/
def createPdpContext : LocalCreate where
  gtpVersion := .gtp1
  type := 16
  gnode := 0

/-- What a process has done after some calls. -/
def process (calls : List LocalCreate) (st : XactState) : XactState :=
  calls.foldl (fun st call => localCreate call st) st

/-- Both versions may count in turn below 65535. -/
theorem usable_of_inRange_mixed : IdsUsable (process [createSession, createPdpContext] {}) := by
  have hnone : Run xactSystem CallInRange [] {} := .nil rfl
  have hfirst : CallInRange {} createSession := by
    intro _ hlast
    cases hlast
  have hsecond : CallInRange (localCreate createSession {}) createPdpContext := by
    intro _
    constructor
    · decide
    · intro hlast
      cases hlast
  exact usable_of_inRange ((hnone.snoc hfirst rfl).snoc hsecond rfl)

/-! ## Calls out of range -/

/-- The last value of the counter for a version. -/
def lastId : GtpVersion → Nat
  | .gtp1 => 65535
  | .gtp2 => 0x800000

/-- Calls of one kind count up to the last id. -/
theorem process_replicate (call : LocalCreate) (halloc : call.alloc = true) (n : Nat)
    (st : XactState) (h : st.xactId.toNat + n ≤ lastId call.gtpVersion) :
    (process (List.replicate n call) st).xactId.toNat = st.xactId.toNat + n ∧
      ∃ xacts, xacts.length = n ∧
        (process (List.replicate n call) st).created = xacts ++ st.created := by
  induction n generalizing st with
  | zero => exact ⟨rfl, [], rfl, rfl⟩
  | succ n ih =>
    have hcreate : localCreate call st =
        { xactId := st.next call.gtpVersion, created := call.xact st :: st.created } :=
      if_pos halloc
    have hnext : (st.next call.gtpVersion).toNat = st.xactId.toNat + 1 := by
      unfold XactState.next
      unfold lastId at h
      cases hversion : call.gtpVersion with
      | gtp1 =>
        rw [hversion] at h
        have hlast : gtp1MaxXactId.toNat = 65535 := rfl
        simp only at h ⊢
        rw [toNat_nextId (by omega), if_neg (by omega)]
      | gtp2 =>
        rw [hversion] at h
        have hlast : gtpCmdXactId.toNat = 0x800000 := rfl
        simp only at h ⊢
        rw [toNat_nextId (by omega), if_neg (by omega)]
    obtain ⟨hcount, xacts, hlength, hcreated⟩ := ih (localCreate call st) (by
      rw [hcreate]
      change (st.next call.gtpVersion).toNat + n ≤ _
      omega)
    have hprocess : process (List.replicate (n + 1) call) st =
        process (List.replicate n call) (localCreate call st) := rfl
    rw [hprocess]
    constructor
    · rw [hcount, hcreate]
      change (st.next call.gtpVersion).toNat + n = _
      omega
    · refine ⟨xacts ++ [call.xact st], ?_, ?_⟩
      · simp [hlength]
      · rw [hcreated, hcreate]
        simp

theorem xid_createSession (st : XactState) :
    (createSession.xact st).xid = nextId st.xactId gtpMinXactId gtpCmdXactId := rfl

theorem xid_createPdpContext (st : XactState) :
    (createPdpContext.xact st).xid = nextId st.xactId gtp1MinXactId gtp1MaxXactId := rfl

theorem process_append (calls calls' : List LocalCreate) (st : XactState) :
    process (calls ++ calls') st = process calls' (process calls st) :=
  List.foldl_append

/-- GTPv2 alone reaches the bit of commands without a command. GTPv1 leaves its 16 bits when
it comes behind 65536 transactions of GTPv2. An id of GTPv2 comes again when GTPv1 starts the
counter again. -/
theorem ids_not_usable :
    ¬IdsUsable (process (List.replicate 0x7fffff createSession ++ [createSession]) {}) ∧
      ¬IdsUsable (process (List.replicate 65536 createSession ++ [createPdpContext]) {}) ∧
      ¬IdsUsable (process ([createSession] ++ List.replicate 65534 createPdpContext ++
        [createPdpContext, createSession]) {}) := by
  refine ⟨?_, ?_, ?_⟩
  · intro h
    obtain ⟨hcount, -⟩ := process_replicate createSession rfl 0x7fffff {} (by decide)
    rw [process_append] at h
    generalize process (List.replicate 0x7fffff createSession) {} = st at hcount h
    have hid : st.xactId = 0x7fffff := UInt32.toNat.inj hcount
    have husable : (createSession.xact st).xid &&& gtpCmdXactId ≠ 0 ↔ isCommand createSession.type :=
      h.usable (createSession.xact st) (List.mem_cons_self ..)
    have hxid : (createSession.xact st).xid = 0x800000 := by
      rw [xid_createSession, hid]
      rfl
    rw [hxid] at husable
    exact absurd husable (by decide)
  · intro h
    obtain ⟨hcount, -⟩ := process_replicate createSession rfl 65536 {} (by decide)
    rw [process_append] at h
    generalize process (List.replicate 65536 createSession) {} = st at hcount h
    have hid : st.xactId = 65536 := UInt32.toNat.inj hcount
    have husable : gtp1SqnToXid (gtp1XidToSqn (createPdpContext.xact st).xid) =
        (createPdpContext.xact st).xid :=
      h.usable (createPdpContext.xact st) (List.mem_cons_self ..)
    have hxid : (createPdpContext.xact st).xid = 65537 := by
      rw [xid_createPdpContext, hid]
      rfl
    rw [hxid] at husable
    exact absurd husable (by decide)
  · intro h
    obtain ⟨hcount, xacts, hlength, hcreated⟩ := process_replicate createPdpContext rfl
      65534 (process [createSession] {}) (by decide)
    rw [process_append, process_append] at h
    generalize process (List.replicate 65534 createPdpContext) _ = st at hcount hcreated h
    have hid : st.xactId = 65535 := UInt32.toNat.inj hcount
    have hfirst : (createSession.xact (localCreate createPdpContext st) ::
        createPdpContext.xact st :: st.created)[65536]? = some (createSession.xact {}) := by
      rw [hcreated, List.getElem?_cons_succ, List.getElem?_cons_succ,
        List.getElem?_append_right hlength.le, hlength]
      rfl
    have hxid : (createSession.xact (localCreate createPdpContext st)).xid = 1 := by
      have hnext : (localCreate createPdpContext st).xactId = 0 := by
        change nextId st.xactId _ _ = 0
        rw [hid]
        rfl
      rw [xid_createSession, hnext]
      rfl
    have hcycle : 65536 - 0 < cycle createSession.gtpVersion := by decide
    exact h.distinct 0 65536 _ _ rfl hfirst (by decide) hcycle rfl rfl hxid

end Quicup.Open5gs.Gtp
