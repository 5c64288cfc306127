import Mathlib.Tactic.IntervalCases
import Quicup.Core.System
import Quicup.Open5gs.Core.HashIndex
import Quicup.Open5gs.Gtp.Signalling

/-!
# FARs by their remote F-TEIDs

`far_f_teid_hash` of `lib/pfcp/context.c` leads from the F-TEID of a GTP-U error indication to
a FAR. Every FAR keeps the key that it was entered under. FARs to one tunnel have one key, and
with it one entry.
-/

namespace Quicup.Open5gs

open Pkbuf Fallible OgsHash Function

/-! ## Keys -/

/-- The address of a GTP-U peer, with its family where it is neither of IPv4 nor of IPv6. -/
inductive NodeAddr
  | inet (addr : UInt32)
  | inet6 (addr : Vector UInt32 4)
  | other (family : UInt16)
  deriving DecidableEq

def NodeAddr.peer : NodeAddr → Option PeerAddress
  | .inet addr => some (.ipv4 addr)
  | .inet6 addr => some (.ipv6 addr)
  | .other _ => none

def wordOctets (word : UInt32) : List UInt8 := octetsBE 4 word.toNat

def PeerAddress.octets : PeerAddress → List UInt8
  | .ipv4 addr => wordOctets addr
  | .ipv6 addr => addr.toList.flatMap wordOctets

/-- The memory of a key as far as it is written, a TEID and an address. -/
def FarFTeid.octets (key : FarFTeid) : List UInt8 := wordOctets key.teid ++ key.addr.octets

/-! ## FARs -/

/-- What the index uses of a FAR: `outer_header_creation.teid`, the address of `gnode`, and
`hash.f_teid`. -/
structure IndexedFar where
  teid : UInt32 := 0
  gnode : Option NodeAddr := none
  hashKey : List UInt8 := List.replicate 20 0
  hashLen : Nat := 0
  deriving DecidableEq

/-- The remote F-TEID. -/
def IndexedFar.fTeid (far : IndexedFar) : Option FarFTeid :=
  (far.gnode.bind NodeAddr.peer).map (⟨far.teid, ·⟩)

/-- A key is written over the front of the old one. -/
def IndexedFar.enter (far : IndexedFar) (key : FarFTeid) : IndexedFar :=
  { far with
    hashKey := key.octets ++ far.hashKey.drop key.octets.length
    hashLen := key.octets.length }

/-- The FARs in the slots of the pool, those that are live, and `far_f_teid_hash`. -/
structure FarIndex where
  far : Nat → IndexedFar
  farList : List Nat := []
  fTeidHash : OgsHash Nat Nat

namespace FarIndex

variable (st : FarIndex)

/-- `far->hash.f_teid.key` -/
def mem (n : Nat) : List UInt8 := (st.far n).hashKey

def withFar (n : Nat) (far : IndexedFar) : FarIndex :=
  { st with far := update st.far n far }

/-- The key that a FAR was entered under is deleted. -/
def deleteKey (n : Nat) : Except Fault FarIndex :=
  if (st.far n).hashLen ≠ 0 then do
    let fTeidHash ← st.fTeidHash.set st.mem n (st.far n).hashLen none
    return { st with fTeidHash }
  else .ok st

/-- A FAR is entered under a key. -/
def enterKey (n : Nat) (key : FarFTeid) : Except Fault FarIndex := do
  let written := st.withFar n ((st.far n).enter key)
  let fTeidHash ← written.fTeidHash.set written.mem n key.octets.length (some n)
  return { written with fTeidHash }

/-- `ogs_pfcp_far_f_teid_hash_set` -/
def fTeidHashSet (n : Nat) : Except Fault FarIndex :=
  match (st.far n).gnode with
  | none => .error .assertion
  | some addr => do
    let st ← st.deleteKey n
    match addr.peer with
    | none => .error .assertion
    | some addr => st.enterKey n ⟨(st.far n).teid, addr⟩

/-- `ogs_pfcp_far_add`, for a slot that the pool yields. -/
def farAdd (n : Nat) : FarIndex :=
  { st.withFar n {} with farList := n :: st.farList }

/-- `ogs_pfcp_far_remove` -/
def farRemove (n : Nat) : Except Fault FarIndex :=
  { st with farList := st.farList.erase n }.deleteKey n

/-- `ogs_pfcp_far_find_by_gtpu_error_indication` -/
def findByGtpuErrorIndication (pkbuf : Pkbuf) : Except Fault (Option Nat) := do
  match ← errorIndicationKey pkbuf with
  | none => return none
  | some key => st.fTeidHash.get st.mem key.octets

end FarIndex

/-- A FAR is added, is set to a TEID and a peer and entered under them, or is removed. -/
inductive FarEvent
  | add (n : Nat)
  | set (n : Nat) (teid : UInt32) (gnode : NodeAddr)
  | remove (n : Nat)
  deriving DecidableEq

/-- The calls, each for a FAR that is live. -/
inductive FarStep (st : FarIndex) : FarEvent → FarIndex → Prop
  | add {n} : n ∉ st.farList → FarStep st (.add n) (st.farAdd n)
  | set {n teid gnode st'} : n ∈ st.farList →
      (st.withFar n { st.far n with teid, gnode := some gnode }).fTeidHashSet n = .ok st' →
      FarStep st (.set n teid gnode) st'
  | remove {n st'} : n ∈ st.farList → st.farRemove n = .ok st' → FarStep st (.remove n) st'

/-- The system starts without FARs. -/
def farSystem : System FarIndex FarEvent where
  init st := st.farList = [] ∧ ∃ seed, st.fTeidHash = OgsHash.make seed
  step := FarStep

/-! ## What is asked of the index -/

/-- A FAR is live and has a remote F-TEID. -/
def FarIndex.Has (st : FarIndex) (n : Nat) (key : FarFTeid) : Prop :=
  n ∈ st.farList ∧ (st.far n).fTeid = some key

/-- An error indication finds a live FAR with the F-TEID that it names or finds nothing. -/
def FarIndex.FindsLive (st : FarIndex) : Prop :=
  ∀ packet key, ErrorIndication packet (some key) →
    ∃ found, st.findByGtpuErrorIndication (ofData packet) = .ok found ∧
      ∀ n, found = some n → st.Has n key

/-- An error indication finds a live FAR with the F-TEID that it names if there is one. -/
def FarIndex.Finds (st : FarIndex) : Prop :=
  st.FindsLive ∧ ∀ packet key, ErrorIndication packet (some key) → (∃ n, st.Has n key) →
    ∃ n, st.findByGtpuErrorIndication (ofData packet) = .ok (some n)

/-- No other live FAR has the F-TEID that a FAR has. -/
def FarIndex.Unshared (st : FarIndex) (n : Nat) : Prop :=
  ∀ key, (st.far n).fTeid = some key → ∀ other, other ≠ n → ¬st.Has other key

/-- A FAR that is removed or gets another F-TEID has a F-TEID for itself. -/
def UnsharedLeaves (st : FarIndex) : FarEvent → Prop
  | .add _ => True
  | .set n teid gnode => (st.far n).fTeid = gnode.peer.map (⟨teid, ·⟩) ∨ st.Unshared n
  | .remove n => st.Unshared n

/-! ## Contents of keys -/

theorem wordOctets_eq (word : UInt32) :
    ∃ a b c d, wordOctets word = [a, b, c, d] ∧ UInt32.ofNat (natBE [a, b, c, d]) = word := by
  have hvalue : natBE (wordOctets word) = word.toNat := by
    rw [wordOctets, natBE_octetsBE]
    exact Nat.mod_eq_of_lt word.toNat_lt
  refine ⟨_, _, _, _, rfl, ?_⟩
  change UInt32.ofNat (natBE (wordOctets word)) = word
  rw [hvalue, UInt32.ofNat_toNat]

theorem wordOctets_injective {word word' : UInt32} (h : wordOctets word = wordOctets word') :
    word = word' := by
  obtain ⟨a, b, c, d, hword, rfl⟩ := wordOctets_eq word
  obtain ⟨a', b', c', d', hword', rfl⟩ := wordOctets_eq word'
  rw [hword, hword'] at h
  rw [h]

@[simp] theorem length_wordOctets (word : UInt32) : (wordOctets word).length = 4 :=
  length_octetsBE 4 _

theorem flatMap_wordOctets_injective {words words' : List UInt32}
    (hlength : words.length = words'.length)
    (h : words.flatMap wordOctets = words'.flatMap wordOctets) : words = words' := by
  induction words generalizing words' with
  | nil => exact (List.eq_nil_of_length_eq_zero hlength.symm).symm
  | cons word words ih =>
    obtain ⟨word', words', rfl⟩ := List.exists_cons_of_length_eq_add_one hlength.symm
    rw [List.flatMap_cons, List.flatMap_cons] at h
    obtain ⟨hfirst, hrest⟩ := List.append_inj h (by simp)
    rw [wordOctets_injective hfirst, ih (Nat.succ.inj hlength) hrest]

theorem PeerAddress.octets_injective {addr addr' : PeerAddress} (h : addr.octets = addr'.octets) :
    addr = addr' := by
  have hlength := congrArg List.length h
  cases addr with
  | ipv4 addr =>
    cases addr' with
    | ipv4 addr' => exact congrArg _ (wordOctets_injective h)
    | ipv6 addr' => simp [PeerAddress.octets] at hlength
  | ipv6 addr =>
    cases addr' with
    | ipv4 addr' => simp [PeerAddress.octets] at hlength
    | ipv6 addr' =>
      have hwords := flatMap_wordOctets_injective (by simp) h
      exact congrArg _ (Vector.toList_inj.mp hwords)

theorem FarFTeid.octets_injective {key key' : FarFTeid} (h : key.octets = key'.octets) :
    key = key' := by
  obtain ⟨hteid, haddr⟩ := List.append_inj h (by simp)
  obtain ⟨teid, addr⟩ := key
  obtain ⟨teid', addr'⟩ := key'
  obtain rfl : teid = teid' := wordOctets_injective hteid
  obtain rfl : addr = addr' := PeerAddress.octets_injective haddr
  rfl

theorem FarFTeid.octets_ne_nil (key : FarFTeid) : key.octets.length ≠ 0 := by
  rw [FarFTeid.octets, List.length_append, length_wordOctets]
  omega

/-- The information elements of an error indication for a F-TEID. -/
def FarFTeid.errorIndication (key : FarFTeid) : List UInt8 :=
  16 :: (wordOctets key.teid ++ 133 :: (octetsBE 2 key.addr.octets.length ++ key.addr.octets))

/-- Every F-TEID has an error indication. -/
theorem FarFTeid.errorIndication_reads (key : FarFTeid) :
    ErrorIndication key.errorIndication (some key) := by
  obtain ⟨teid, addr⟩ := key
  obtain ⟨a, b, c, d, hteid, hteidAt⟩ := wordOctets_eq teid
  cases addr with
  | ipv4 addr =>
    obtain ⟨e, f, g, h, haddr, haddrAt⟩ := wordOctets_eq addr
    have hlen : octetsBE 2 4 = [0, 4] := by decide
    have hlenAt : UInt16.ofNat (natBE [0, 4]) = 4 := by decide
    have hpacket : FarFTeid.errorIndication ⟨teid, .ipv4 addr⟩ =
        [16, a, b, c, d, 133, 0, 4, e, f, g, h] := by
      rw [errorIndication, hteid, PeerAddress.octets, haddr]
      change 16 :: ([a, b, c, d] ++ 133 :: (octetsBE 2 4 ++ [e, f, g, h])) = _
      rw [hlen]
      rfl
    have hread : ErrorIndication [16, a, b, c, d, 133, 0, 4, e, f, g, h]
        (some ⟨.ofNat (natBE [a, b, c, d]), .ipv4 (.ofNat (natBE [e, f, g, h]))⟩) :=
      .ipv4 (by simp) rfl rfl hlenAt
    rw [hpacket, ← hteidAt, ← haddrAt]
    exact hread
  | ipv6 addr =>
    obtain ⟨e, f, g, h, hfirst, hfirstAt⟩ := wordOctets_eq addr[0]
    obtain ⟨i, j, k, l, hsecond, hsecondAt⟩ := wordOctets_eq addr[1]
    obtain ⟨m, n, o, p, hthird, hthirdAt⟩ := wordOctets_eq addr[2]
    obtain ⟨q, r, s, t, hfourth, hfourthAt⟩ := wordOctets_eq addr[3]
    have hwords : addr.toList = [addr[0], addr[1], addr[2], addr[3]] := by
      refine List.ext_getElem (by simp) fun i hi _ => ?_
      rw [Vector.length_toList] at hi
      interval_cases i <;> simp
    have hlen : octetsBE 2 16 = [0, 16] := by decide
    have hlenAt : UInt16.ofNat (natBE [0, 16]) = 16 := by decide
    have hpacket : FarFTeid.errorIndication ⟨teid, .ipv6 addr⟩ =
        [16, a, b, c, d, 133, 0, 16, e, f, g, h, i, j, k, l, m, n, o, p, q, r, s, t] := by
      rw [errorIndication, hteid, PeerAddress.octets, hwords, List.flatMap_cons, List.flatMap_cons,
        List.flatMap_cons, List.flatMap_cons, hfirst, hsecond, hthird, hfourth]
      change 16 :: ([a, b, c, d] ++ 133 :: (octetsBE 2 16 ++
        [e, f, g, h, i, j, k, l, m, n, o, p, q, r, s, t])) = _
      rw [hlen]
      rfl
    have haddr : addr = #v[.ofNat (natBE [e, f, g, h]), .ofNat (natBE [i, j, k, l]),
        .ofNat (natBE [m, n, o, p]), .ofNat (natBE [q, r, s, t])] := by
      rw [hfirstAt, hsecondAt, hthirdAt, hfourthAt]
      refine Vector.ext fun i hi => ?_
      interval_cases i <;> rfl
    have hread : ErrorIndication
        [16, a, b, c, d, 133, 0, 16, e, f, g, h, i, j, k, l, m, n, o, p, q, r, s, t]
        (some ⟨.ofNat (natBE [a, b, c, d]), .ipv6 #v[.ofNat (natBE [e, f, g, h]),
          .ofNat (natBE [i, j, k, l]), .ofNat (natBE [m, n, o, p]),
          .ofNat (natBE [q, r, s, t])]⟩) :=
      .ipv6 (by simp) rfl rfl hlenAt
    rw [hpacket, ← hteidAt, haddr]
    exact hread

/-! ## The index of a table -/

def keyOctets : Option FarFTeid → List UInt8
  | none => []
  | some key => key.octets

theorem keyOctets_injective {key key' : Option FarFTeid} (h : keyOctets key = keyOctets key') :
    key = key' := by
  cases key with
  | none =>
    cases key' with
    | none => rfl
    | some key' => exact absurd (congrArg List.length h).symm key'.octets_ne_nil
  | some key =>
    cases key' with
    | none => exact absurd (congrArg List.length h) key.octets_ne_nil
    | some key' => exact congrArg some (FarFTeid.octets_injective h)

/-- The key in a FAR is its remote F-TEID. -/
structure IndexedFar.Entered (far : IndexedFar) : Prop where
  key : far.hashKey.take far.hashLen = keyOctets far.fTeid
  len : far.hashLen = (keyOctets far.fTeid).length

namespace FarIndex

variable {st st' : FarIndex} {n : Nat} {key : FarFTeid} {klen : Nat → Nat} {far : IndexedFar}

/-- The octets of the key that a live FAR was entered under. -/
def keyLen (st : FarIndex) (n : Nat) : Nat := if n ∈ st.farList then (st.far n).hashLen else 0

/-- The index has entries of live FARs only, and these keep their remote F-TEIDs as keys. -/
structure Sound (st : FarIndex) : Prop where
  keyed : st.fTeidHash.Keyed st.mem st.keyLen
  nodup : st.farList.Nodup
  own : ∀ n ∈ st.farList, (st.far n).Entered

theorem keyLen_of_mem (hn : n ∈ st.farList) : st.keyLen n = (st.far n).hashLen := if_pos hn

theorem Sound.ownKey_eq (h : st.Sound) (hn : n ∈ st.farList) :
    ownKey st.mem st.keyLen n = keyOctets (st.far n).fTeid := by
  rw [ownKey, keyLen_of_mem hn]
  exact (h.own n hn).key

theorem Sound.has_iff (h : st.Sound) :
    st.Has n key ↔ st.keyLen n ≠ 0 ∧ ownKey st.mem st.keyLen n = key.octets := by
  constructor
  · rintro ⟨hn, hfTeid⟩
    rw [h.ownKey_eq hn, keyLen_of_mem hn, (h.own n hn).len, hfTeid]
    exact ⟨key.octets_ne_nil, rfl⟩
  · rintro ⟨hklen, hkey⟩
    have hn : n ∈ st.farList := by
      by_contra hn
      exact hklen (if_neg hn)
    rw [h.ownKey_eq hn] at hkey
    exact ⟨hn, keyOctets_injective (hkey.trans (rfl : _ = keyOctets (some key)))⟩

/-- An owner of a key is a live FAR with a F-TEID. -/
theorem Sound.exists_has (h : st.Sound) (hklen : st.keyLen n ≠ 0) :
    ∃ key, st.Has n key ∧ ownKey st.mem st.keyLen n = key.octets := by
  have hn : n ∈ st.farList := by
    by_contra hn
    exact hklen (if_neg hn)
  have hown := h.ownKey_eq hn
  cases hfTeid : (st.far n).fTeid with
  | none =>
    rw [keyLen_of_mem hn, (h.own n hn).len, hfTeid] at hklen
    exact absurd rfl hklen
  | some key =>
    rw [hfTeid] at hown
    exact ⟨key, ⟨hn, hfTeid⟩, hown⟩

/-- An error indication searches for the key that it names. -/
theorem findByGtpuErrorIndication_eq {packet : List UInt8}
    (h : ErrorIndication packet (some key)) :
    st.findByGtpuErrorIndication (ofData packet) =
      .ok ((st.fTeidHash.findEntry st.mem key.octets).map HashEntry.val) := by
  rw [findByGtpuErrorIndication, errorIndicationKey_ofData_iff.mpr h, ok_bind]
  exact if_neg key.octets_ne_nil

theorem Sound.findsLive (h : st.Sound) : st.FindsLive := by
  intro packet key hpacket
  refine ⟨_, findByGtpuErrorIndication_eq hpacket, fun n hfound => ?_⟩
  exact h.has_iff.mpr (h.keyed.owner_of_find hfound)

/-- Every FAR is found just when every key has an entry. -/
theorem Sound.finds_iff (h : st.Sound) :
    st.Finds ↔ st.fTeidHash.Covers st.mem st.keyLen := by
  constructor
  · rintro ⟨-, hfinds⟩ n hklen
    obtain ⟨key, hhas, hown⟩ := h.exists_has hklen
    have hpacket := key.errorIndication_reads
    obtain ⟨m, hfound⟩ := hfinds _ key hpacket ⟨n, hhas⟩
    rw [findByGtpuErrorIndication_eq hpacket] at hfound
    rw [hown]
    exact h.keyed.exists_find_iff.mp ⟨m, Except.ok.inj hfound⟩
  · refine fun hcovers => ⟨h.findsLive, ?_⟩
    rintro packet key hpacket ⟨n, hhas⟩
    obtain ⟨hklen, hown⟩ := h.has_iff.mp hhas
    have hholds := hcovers n hklen
    rw [hown] at hholds
    obtain ⟨m, hfound⟩ := h.keyed.exists_find_iff.mpr hholds
    exact ⟨m, (findByGtpuErrorIndication_eq hpacket).trans (congrArg _ hfound)⟩

/-! ## Calls -/

theorem deleteKey_spec (st : FarIndex) (h : st.fTeidHash.Keyed st.mem klen)
    (hklen : klen n = (st.far n).hashLen) :
    ∃ ht, st.deleteKey n = .ok { st with fTeidHash := ht } ∧
      ht.Keyed st.mem (update klen n 0) ∧
      ∀ k, ht.Holds st.mem k ↔ st.fTeidHash.Holds st.mem k ∧ k ≠ ownKey st.mem klen n := by
  by_cases hlen : (st.far n).hashLen = 0
  · refine ⟨st.fTeidHash, if_neg (not_not.mpr hlen), ?_, fun k => (and_iff_left_of_imp ?_).symm⟩
    · rw [← hlen, ← hklen, update_eq_self]
      exact h
    · rintro ⟨e, he, rfl⟩ hnil
      rw [ownKey, hklen, hlen, List.take_zero] at hnil
      have hzero := (h.wellFormed.keyed e he).2
      rw [hnil] at hzero
      exact h.klen_ne_zero e he hzero
  · obtain ⟨ht, hset, hkeyed, hholds⟩ := h.set_none (hklen.trans_ne hlen)
    rw [hklen] at hset
    refine ⟨ht, ?_, hkeyed, hholds⟩
    rw [deleteKey, if_pos hlen, hset]
    rfl

theorem enterKey_spec (st : FarIndex) (h : st.fTeidHash.Keyed st.mem klen) (hklen : klen n = 0)
    (key : FarFTeid) :
    ∃ ht, st.enterKey n key =
        .ok { st.withFar n ((st.far n).enter key) with fTeidHash := ht } ∧
      ht.Keyed (st.withFar n ((st.far n).enter key)).mem
        (update klen n key.octets.length) ∧
      ∀ k, ht.Holds (st.withFar n ((st.far n).enter key)).mem k ↔
        st.fTeidHash.Holds st.mem k ∨ k = key.octets := by
  generalize hwritten : st.withFar n ((st.far n).enter key) = written
  have hfar : written.far n = (st.far n).enter key := by
    rw [← hwritten]
    exact update_self ..
  have hsame (w : Nat) (hw : klen w ≠ 0) : written.mem w = st.mem w ∧
      update klen n key.octets.length w = klen w := by
    have hne : w ≠ n := by
      rintro rfl
      exact hw hklen
    refine ⟨?_, update_of_ne hne ..⟩
    rw [mem, mem, ← hwritten]
    exact congrArg IndexedFar.hashKey (update_of_ne hne ..)
  have hlen : update klen n key.octets.length n = key.octets.length :=
    update_self ..
  have hmem : written.mem n = key.octets ++ (st.far n).hashKey.drop key.octets.length :=
    congrArg IndexedFar.hashKey hfar
  have hown : ownKey written.mem (update klen n key.octets.length) n = key.octets := by
    rw [ownKey, hlen, hmem, List.take_left]
  have hsize : update klen n key.octets.length n ≤ (written.mem n).length := by
    rw [hlen, hmem, List.length_append]
    exact Nat.le_add_right _ _
  obtain ⟨ht, hset, hkeyed, hholds⟩ :=
    (h.congr hsame).set_some (by rw [hlen]; exact key.octets_ne_nil) hsize
  rw [hlen] at hset
  refine ⟨ht, ?_, hkeyed, fun k => ?_⟩
  · have hhash : written.fTeidHash = st.fTeidHash := by rw [← hwritten]; rfl
    rw [enterKey, hwritten, hhash, hset]
    rfl
  · rw [hholds, hown, h.holds_congr hsame]

/-! ## Steps -/

/-- A step changes the key of one FAR in the index. -/
def Rekeys (st st' : FarIndex) (n : Nat) : Prop :=
  Rekeyed st.mem st.keyLen st.fTeidHash st'.mem st'.keyLen st'.fTeidHash n

theorem Sound.add (h : st.Sound) (hn : n ∉ st.farList) :
    (st.farAdd n).Sound ∧ st.Rekeys (st.farAdd n) n ∧ (st.farAdd n).keyLen n = 0 := by
  have hfar : (st.farAdd n).far n = {} := update_self ..
  have hother {w : Nat} (hw : w ≠ n) : (st.farAdd n).far w = st.far w :=
    update_of_ne hw ..
  have hfree : st.keyLen n = 0 := if_neg hn
  have hfresh : (st.farAdd n).keyLen n = 0 := by
    rw [keyLen_of_mem List.mem_cons_self, hfar]
  have hlen {w : Nat} (hw : w ≠ n) : (st.farAdd n).keyLen w = st.keyLen w := by
    have hmem : w ∈ (st.farAdd n).farList ↔ w ∈ st.farList :=
      List.mem_cons.trans (or_iff_right hw)
    rw [keyLen, keyLen, hother hw]
    simp only [hmem]
  have hmem {w : Nat} (hw : w ≠ n) : (st.farAdd n).mem w = st.mem w :=
    congrArg IndexedFar.hashKey (hother hw)
  have hsame (w : Nat) (hklen : st.keyLen w ≠ 0) :
      (st.farAdd n).mem w = st.mem w ∧ (st.farAdd n).keyLen w = st.keyLen w := by
    have hw : w ≠ n := by
      rintro rfl
      exact hklen hfree
    exact ⟨hmem hw, hlen hw⟩
  have hkeyed : (st.farAdd n).fTeidHash.Keyed (st.farAdd n).mem (st.farAdd n).keyLen :=
    h.keyed.congr hsame
  refine ⟨⟨hkeyed, List.nodup_cons.mpr ⟨hn, h.nodup⟩, fun w hw => ?_⟩,
    ⟨hkeyed, fun w hw => ?_, fun k => ?_⟩, hfresh⟩
  · by_cases hwn : w = n
    · rw [hwn, hfar]
      exact ⟨rfl, rfl⟩
    · rw [hother hwn]
      exact h.own w (List.mem_of_ne_of_mem hwn hw)
  · exact ⟨hlen hw, by rw [ownKey, ownKey, hmem hw, hlen hw]⟩
  · have hholds : (st.farAdd n).fTeidHash.Holds (st.farAdd n).mem k ↔
        st.fTeidHash.Holds st.mem k := h.keyed.holds_congr hsame
    rw [hholds, hfresh, ownKey, hfree, List.take_zero]
    constructor
    · rintro ⟨e, he, rfl⟩
      refine .inl ⟨⟨e, he, rfl⟩, fun hnil => h.keyed.klen_ne_zero e he ?_⟩
      rw [(h.keyed.wellFormed.keyed e he).2, hnil, List.length_nil]
    · rintro (⟨hholds, -⟩ | ⟨hne, -⟩)
      · exact hholds
      · exact absurd rfl hne

theorem Sound.remove (h : st.Sound) (hn : n ∈ st.farList) (hremove : st.farRemove n = .ok st') :
    st'.Sound ∧ st.Rekeys st' n ∧ st'.keyLen n = 0 := by
  obtain ⟨ht, hdelete, hkeyed, hholds⟩ :=
    deleteKey_spec { st with farList := st.farList.erase n } h.keyed (keyLen_of_mem hn)
  obtain rfl := Except.ok.inj (hdelete.symm.trans hremove)
  have hlen : keyLen { st with farList := st.farList.erase n, fTeidHash := ht } =
      update st.keyLen n 0 := by
    funext w
    rw [update_apply, keyLen, keyLen]
    by_cases hw : w = n <;> simp [h.nodup.mem_erase_iff, hw]
  have hgone : keyLen { st with farList := st.farList.erase n, fTeidHash := ht } n = 0 := by
    rw [hlen, update_self]
  rw [← hlen] at hkeyed
  refine ⟨⟨hkeyed, h.nodup.erase n, fun w hw => h.own w (List.mem_of_mem_erase hw)⟩,
    ⟨hkeyed, fun w hw => ?_, fun k => ?_⟩, hgone⟩
  · have hsame : keyLen { st with farList := st.farList.erase n, fTeidHash := ht } w =
        st.keyLen w := by rw [hlen, update_of_ne hw]
    exact ⟨hsame, by rw [ownKey, ownKey, hsame]; rfl⟩
  · rw [hgone]
    refine (hholds k).trans ⟨.inl, ?_⟩
    rintro (hold | ⟨hne, -⟩)
    · exact hold
    · exact absurd rfl hne

theorem entered_enter (hfTeid : far.fTeid = some key) :
    (far.enter key).Entered ∧ (far.enter key).fTeid = some key := by
  have hsame : (far.enter key).fTeid = some key := hfTeid
  refine ⟨⟨?_, ?_⟩, hsame⟩
  · rw [hsame, IndexedFar.enter, List.take_left]
    rfl
  · rw [hsame]
    rfl

/-- A FAR is entered under its F-TEID in place of the key that it was entered under. -/
theorem fTeidHashSet_spec (st : FarIndex) (h : st.fTeidHash.Keyed st.mem klen)
    (hklen : klen n = (st.far n).hashLen) (hset : st.fTeidHashSet n = .ok st') :
    ∃ key ht, (st.far n).fTeid = some key ∧
      st' = { st.withFar n ((st.far n).enter key) with fTeidHash := ht } ∧
      ht.Keyed st'.mem (update klen n key.octets.length) ∧
      ∀ k, ht.Holds st'.mem k ↔
        (st.fTeidHash.Holds st.mem k ∧ k ≠ ownKey st.mem klen n) ∨ k = key.octets := by
  obtain ⟨deleted, hdelete, hdeleted, hdeletedHolds⟩ := deleteKey_spec st h hklen
  cases hgnode : (st.far n).gnode with
  | none =>
    rw [fTeidHashSet, hgnode] at hset
    exact nomatch hset
  | some gnode =>
    rw [fTeidHashSet, hgnode] at hset
    dsimp only at hset
    rw [hdelete, ok_bind] at hset
    cases hpeer : gnode.peer with
    | none =>
      rw [hpeer] at hset
      exact nomatch hset
    | some addr =>
      rw [hpeer] at hset
      have hfTeid : (st.far n).fTeid = some ⟨(st.far n).teid, addr⟩ := by
        rw [IndexedFar.fTeid, hgnode, Option.bind_some, hpeer]
        rfl
      obtain ⟨ht, henter, hentered, henteredHolds⟩ :=
        enterKey_spec { st with fTeidHash := deleted } hdeleted (update_self ..)
          ⟨(st.far n).teid, addr⟩
      obtain rfl := Except.ok.inj (henter.symm.trans hset)
      rw [update_idem] at hentered
      exact ⟨_, ht, hfTeid, rfl, hentered, fun k =>
        (henteredHolds k).trans (or_congr_left (hdeletedHolds k))⟩

/-- The tunnel of a FAR is no part of the index. -/
theorem mem_withFar (hkey : far.hashKey = (st.far n).hashKey) :
    (st.withFar n far).mem = st.mem := by
  funext w
  by_cases hw : w = n
  · rw [hw, mem, mem, ← hkey]
    exact congrArg IndexedFar.hashKey (update_self ..)
  · exact congrArg IndexedFar.hashKey (update_of_ne hw ..)

theorem keyLen_withFar (hn : n ∈ st.farList) (far : IndexedFar) :
    (st.withFar n far).keyLen = update st.keyLen n far.hashLen := by
  funext w
  by_cases hw : w = n
  · subst hw
    have hlive : w ∈ (st.withFar w far).farList := hn
    rw [update_self, keyLen_of_mem hlive]
    exact congrArg IndexedFar.hashLen (update_self ..)
  · have hfar : (st.withFar n far).far w = st.far w := update_of_ne hw ..
    rw [update_of_ne hw, keyLen, keyLen, hfar]
    rfl

theorem Sound.set (h : st.Sound) (hn : n ∈ st.farList) {teid : UInt32} {gnode : NodeAddr}
    (hset : (st.withFar n { st.far n with teid, gnode := some gnode }).fTeidHashSet n = .ok st') :
    st'.Sound ∧ st.Rekeys st' n ∧ n ∈ st'.farList ∧ (st'.far n).fTeid ≠ none ∧
      (st'.far n).fTeid = gnode.peer.map (⟨teid, ·⟩) := by
  generalize htarget : st.withFar n { st.far n with teid, gnode := some gnode } = target at hset
  have hfar : target.far n = { st.far n with teid, gnode := some gnode } := by
    rw [← htarget]
    exact update_self ..
  have hmem : target.mem = st.mem := by
    rw [← htarget]
    exact mem_withFar rfl
  have htable : target.fTeidHash = st.fTeidHash ∧ target.farList = st.farList := by
    rw [← htarget]
    exact ⟨rfl, rfl⟩
  have hlen : target.keyLen = st.keyLen := by
    rw [← htarget, keyLen_withFar hn, update_eq_iff]
    exact ⟨(keyLen_of_mem hn).symm, fun _ _ => rfl⟩
  have hkeyed : target.fTeidHash.Keyed target.mem st.keyLen := by
    rw [hmem, htable.1]
    exact h.keyed
  obtain ⟨key, ht, hfTeid, hst, hkeyed', hholds⟩ :=
    fTeidHashSet_spec target hkeyed (by rw [hfar, keyLen_of_mem hn]) hset
  have hfar' : st'.far n = (target.far n).enter key := by
    rw [hst]
    exact update_self ..
  have hother {w : Nat} (hw : w ≠ n) : st'.far w = st.far w := by
    rw [hst, ← htarget]
    exact (update_of_ne hw ..).trans (update_of_ne hw ..)
  have hlist : st'.farList = st.farList := by
    rw [hst]
    exact htable.2
  have hlen' : st'.keyLen = update st.keyLen n key.octets.length := by
    rw [hst, ← hlen]
    exact keyLen_withFar (by rwa [htable.2]) _
  obtain ⟨hown, hsame⟩ := entered_enter hfTeid
  rw [← hfar'] at hown hsame
  have hn' : n ∈ st'.farList := by rwa [hlist]
  have hownKey : ownKey st'.mem st'.keyLen n = key.octets := by
    rw [ownKey, keyLen_of_mem hn']
    exact hown.key.trans (congrArg keyOctets hsame)
  rw [← hlen'] at hkeyed'
  have hhash : st'.fTeidHash = ht := by rw [hst]
  rw [← hhash] at hkeyed' hholds
  refine ⟨⟨hkeyed', ?_, fun w hw => ?_⟩, ⟨hkeyed', fun w hw => ?_, fun k => ?_⟩, hn', ?_, ?_⟩
  · rw [hlist]
    exact h.nodup
  · by_cases hwn : w = n
    · rw [hwn]
      exact hown
    · rw [hother hwn]
      rw [hlist] at hw
      exact h.own w hw
  · have hsameLen : st'.keyLen w = st.keyLen w := by rw [hlen', update_of_ne hw]
    have hsameMem : st'.mem w = st.mem w := congrArg IndexedFar.hashKey (hother hw)
    exact ⟨hsameLen, by rw [ownKey, ownKey, hsameLen, hsameMem]⟩
  · have hne : st'.keyLen n ≠ 0 := by
      rw [hlen', update_self]
      exact key.octets_ne_nil
    rw [hholds, hownKey, and_iff_right hne, hmem, htable.1]
  · rw [hsame]
    exact Option.some_ne_none key
  · rw [hsame, ← hfTeid, hfar]
    rfl

end FarIndex

/-! ## Runs -/

section Runs

variable {st st' : FarIndex} {e : FarEvent}

theorem FarIndex.Sound.init (h : farSystem.init st) : st.Sound := by
  obtain ⟨hlist, seed, hhash⟩ := h
  refine ⟨?_, ?_, fun n hn => ?_⟩
  · rw [hhash]
    exact Keyed.make seed
  · rw [hlist]
    exact List.nodup_nil
  · rw [hlist] at hn
    exact nomatch hn

theorem FarIndex.Sound.step (h : st.Sound) (hstep : FarStep st e st') : st'.Sound := by
  cases hstep with
  | add hn => exact (h.add hn).1
  | set hn hset => exact (h.set hn hset).1
  | remove hn hremove => exact (h.remove hn hremove).1

/-- A FAR gives up a F-TEID without harm when no other live FAR has it. -/
theorem FarIndex.Sound.unshared_iff (h : st.Sound) {n : Nat}
    (hkey : ownKey st.mem st.keyLen n = keyOctets (st.far n).fTeid) :
    st.Unshared n ↔ ∀ w, w ≠ n → st.keyLen w ≠ 0 →
      ownKey st.mem st.keyLen w ≠ ownKey st.mem st.keyLen n := by
  constructor
  · intro hunshared w hw hlen hsame
    obtain ⟨key, hhas, hown⟩ := h.exists_has hlen
    rw [hsame, hkey] at hown
    exact hunshared key (keyOctets_injective (hown.trans (rfl : _ = keyOctets (some key)))) w hw
      hhas
  · intro hdistinct key hfTeid other hne hhas
    obtain ⟨hlen, hown⟩ := h.has_iff.mp hhas
    refine hdistinct other hne hlen (hown.trans ?_)
    rw [hkey, hfTeid]
    rfl

/-- A step keeps every FAR in the index just when it takes no F-TEID that FARs share. -/
theorem FarIndex.Sound.finds_step_iff (h : st.Sound) (hfinds : st.Finds)
    (hstep : FarStep st e st') : st'.Finds ↔ UnsharedLeaves st e := by
  have hcovers := h.finds_iff.mp hfinds
  rw [(h.step hstep).finds_iff]
  cases hstep with
  | @add n hn =>
    obtain ⟨-, hrekeys, hlen⟩ := h.add hn
    rw [hrekeys.covers_iff hcovers]
    refine iff_of_true (fun w _ hklen hsame => ?_) trivial
    obtain ⟨key, -, hown⟩ := h.exists_has hklen
    have hfree : st.keyLen n = 0 := if_neg hn
    have hnil : ownKey st.mem st.keyLen n = [] := by
      rw [ownKey, hfree, List.take_zero]
    rw [hsame, hnil] at hown
    exact absurd (congrArg List.length hown).symm key.octets_ne_nil
  | @set n teid gnode st' hn hset =>
    obtain ⟨hsound, hrekeys, hn', hsome, hfTeid⟩ := h.set hn hset
    obtain ⟨key, hkey⟩ := Option.ne_none_iff_exists'.mp hsome
    have hlen : st'.keyLen n ≠ 0 := (hsound.has_iff.mp ⟨hn', hkey⟩).1
    have hsame : ownKey st'.mem st'.keyLen n = ownKey st.mem st.keyLen n ↔
        (st.far n).fTeid = gnode.peer.map (⟨teid, ·⟩) := by
      rw [hsound.ownKey_eq hn', h.ownKey_eq hn, hfTeid]
      exact ⟨fun heq => (keyOctets_injective heq).symm, fun heq => congrArg keyOctets heq.symm⟩
    rw [hrekeys.covers_iff hcovers, UnsharedLeaves, h.unshared_iff (h.ownKey_eq hn), ← hsame]
    constructor
    · intro hshared
      by_contra! hleaves
      obtain ⟨hgone, w, hw, hklen, hboth⟩ := hleaves
      exact hgone (hshared w hw hklen hboth).2
    · rintro (heq | hdistinct) w hw hklen hboth
      · exact ⟨hlen, heq⟩
      · exact absurd hboth (hdistinct w hw hklen)
  | @remove n st' hn hremove =>
    obtain ⟨-, hrekeys, hlen⟩ := h.remove hn hremove
    rw [hrekeys.covers_iff hcovers, UnsharedLeaves, h.unshared_iff (h.ownKey_eq hn)]
    refine forall₃_congr fun w hw hklen => imp_congr_right fun _ => ?_
    exact iff_of_false (fun h => h.1 hlen) id

/-- The step that an event leads to. -/
def FarIndex.next (st : FarIndex) : FarEvent → Option FarIndex
  | .add n => if n ∈ st.farList then none else some (st.farAdd n)
  | .set n teid gnode =>
    if n ∈ st.farList then
      ((st.withFar n { st.far n with teid, gnode := some gnode }).fTeidHashSet n).toOption
    else none
  | .remove n => if n ∈ st.farList then (st.farRemove n).toOption else none

theorem FarIndex.step_of_next (h : st.next e = some st') : FarStep st e st' := by
  cases e with
  | add n =>
    rw [next] at h
    split_ifs at h with hn
    obtain rfl := Option.some.inj h
    exact .add hn
  | set n teid gnode =>
    rw [next] at h
    split_ifs at h with hn
    exact .set hn (toOption_eq_some.mp h)
  | remove n =>
    rw [next] at h
    split_ifs at h with hn
    exact .remove hn (toOption_eq_some.mp h)

/-- An error indication never finds a FAR that was removed. The runs in which it finds a live
FAR whenever there is one are those in which no FAR leaves a F-TEID that another live FAR
has. -/
theorem error_indication_finds_iff (events : List FarEvent) (st : FarIndex) :
    (farSystem.Run System.unrestricted events st → st.FindsLive) ∧
      (farSystem.RunWithin FarIndex.Finds events st ↔ farSystem.Run UnsharedLeaves events st) := by
  constructor
  · intro hrun
    exact (hrun.invariant (fun _ => FarIndex.Sound.init) fun _ _ _ h _ => h.step).findsLive
  · refine @System.Run.within_iff _ _ farSystem UnsharedLeaves FarIndex.Finds
      (fun st => st.Sound ∧ st.Finds) (fun st hinit => ?_) (fun _ h => h.2)
      (fun st e st' h hleaves hstep => ?_) (fun st e st' h hstep hfinds => ?_) events st
    · have hsound := FarIndex.Sound.init hinit
      refine ⟨hsound, hsound.finds_iff.mpr fun n hlen => absurd ?_ hlen⟩
      rw [FarIndex.keyLen, hinit.1]
      rfl
    · exact ⟨h.1.step hstep, (h.1.finds_step_iff h.2 hstep).mpr hleaves⟩
    · exact (h.1.finds_step_iff h.2 hstep).mp hfinds

/-- A FAR without key, and one that is set to a tunnel of its own, are found. -/
theorem error_indication_finds_first :
    ∃ st, farSystem.RunWithin FarIndex.Finds [.add 0, .set 0 1 (.inet 0x0a000001)] st := by
  let start : FarIndex := ⟨fun _ => {}, [], OgsHash.make 0⟩
  have hstart : farSystem.Run UnsharedLeaves [] start := .nil ⟨rfl, 0, rfl⟩
  have hadd : FarStep start (.add 0) (start.farAdd 0) := .add (by decide)
  have hadded : farSystem.Run UnsharedLeaves [.add 0] (start.farAdd 0) :=
    hstart.snoc (trivial : UnsharedLeaves start (.add 0)) hadd
  have hnext : ((start.farAdd 0).next (.set 0 1 (.inet 0x0a000001))).isSome = true := by decide
  obtain ⟨st, hst⟩ := Option.isSome_iff_exists.mp hnext
  have hleaves : UnsharedLeaves (start.farAdd 0) (.set 0 1 (.inet 0x0a000001)) := .inr nofun
  have hset : farSystem.Run UnsharedLeaves [.add 0, .set 0 1 (.inet 0x0a000001)] st :=
    hadded.snoc hleaves (FarIndex.step_of_next hst)
  exact ⟨st, (error_indication_finds_iff _ st).2.mpr hset⟩

/-- Two FARs are set to one tunnel, and the second is removed. -/
def sharedTunnel : List FarEvent :=
  [.add 0, .set 0 1 (.inet 0x0a000001), .add 1, .set 1 1 (.inet 0x0a000001), .remove 1]

/-- The first FAR is not found any more. -/
theorem not_error_indication_finds :
    ¬∀ events st, farSystem.Run System.unrestricted events st → st.Finds := by
  intro hall
  let key : FarFTeid := ⟨1, .ipv4 0x0a000001⟩
  let start : FarIndex := ⟨fun _ => {}, [], OgsHash.make 0⟩
  have hlost : (sharedTunnel.foldlM FarIndex.next start).map (fun st =>
      (decide (0 ∈ st.farList), (st.far 0).fTeid,
        (st.findByGtpuErrorIndication (ofData key.errorIndication)).toOption)) =
      some (true, some key, some none) := by decide
  obtain ⟨st, hrun, hst⟩ := Option.map_eq_some_iff.mp hlost
  have hinit : farSystem.init start := ⟨rfl, 0, rfl⟩
  have hreached : farSystem.Run System.unrestricted sharedTunnel st :=
    System.run_foldlM (fun _ _ _ hnext => And.intro trivial (FarIndex.step_of_next hnext))
      hinit hrun
  have hfinds := hall sharedTunnel st hreached
  obtain ⟨hlive, hrest⟩ := Prod.mk.inj hst
  obtain ⟨hfTeid, hnone⟩ := Prod.mk.inj hrest
  have hhas : st.Has 0 key := ⟨of_decide_eq_true hlive, hfTeid⟩
  obtain ⟨n, hfound⟩ := hfinds.2 _ key key.errorIndication_reads ⟨0, hhas⟩
  rw [hfound] at hnone
  exact absurd hnone (by simp [Except.toOption])

end Runs

end Quicup.Open5gs
