import Quicup.Ueransim.Gtp.Layout

/-!
# Alignment with the extension chain

In a well-formed chain every header occupies four octets for each unit of its
length. The extension loop visits these headers and finds the payload behind
them exactly when each header is one whose own decoder happens to take all of
its content.
-/

namespace Quicup.Ueransim

/-- A header of a type the decoder accepts that occupies `4 * len` octets from its
length octet to the next type octet. -/
structure WireHeader.WellFormed (h : WireHeader) : Prop where
  accepted : h.type.toNat ∈ acceptedTypes
  length : h.content.length + 2 = 4 * h.len.toNat

/-- A framed datagram with a well-formed chain and nothing behind its payload. -/
structure Datagram.WellFormed (d : Datagram) : Prop extends d.Framed where
  headers : ∀ h ∈ d.chain, h.WellFormed
  whole : d.trailing = []

/-- The decoder visits exactly the headers of the chain, each at its position, and
returns the octets behind the last one as payload. -/
def Datagram.Aligned (d : Datagram) : Prop :=
  ∃ m t, decodeGtpMessageVisited (Cursor.start d.octets) =
    .ok (some (m, chainVisited 12 d.chain), t) ∧ m.payload = d.payload

/-- A port or PDCP number of one length unit, or a container of a known PDU type
whose length is the one announced by its flags. -/
def WireHeader.Followed (h : WireHeader) : Prop :=
  (h.type.toNat = 0b01000000 ∨ h.type.toNat = 0b11000000) ∧ h.len.toNat = 1 ∨
    h.type.toNat = 0b10000101 ∧ bitRange8 4 7 (h.content.getD 0 0) ≤ 1 ∧
      h.content.length = containerSize h.content

/-- The headers whose whole content is consumed. -/
theorem WireHeader.WellFormed.consumed_iff {h : WireHeader} (hw : h.WellFormed) :
    h.Consumed ↔ h.Followed := by
  have hacc := hw.accepted
  have hlen := hw.length
  simp only [WireHeader.Consumed, WireHeader.Followed, hacc, true_and]
  simp only [acceptedTypes, List.mem_cons, List.not_mem_nil, or_false] at hacc
  rcases hacc with ht | ht | ht | ht | ht | ht | ht <;> simp only [ht, contentSize]
  case inr.inr.inr.inl =>
    -- a container of another PDU type takes one octet, an odd number
    by_cases hn : bitRange8 4 7 (h.content.getD 0 0) ≤ 1
    · simp only [hn, true_and, Nat.reduceEqDiff, or_self, false_and, false_or]
    · have hone : containerSize h.content = 1 := by simp only [containerSize, if_neg hn]
      simp only [hn, hone, false_and, and_false, or_false]
      omega
  case inr.inl => split <;> omega
  case inl | inr.inr.inr.inr.inl =>
    simp only [true_or, or_true, true_and]
    split <;> omega
  all_goals omega

/-! ## The chain is determined by what is visited -/

variable {i : Nat} {a b : List WireHeader} {d e : Datagram}

private theorem content_length_eq {x y : WireHeader}
    (hv : chainVisited (i + 1 + x.content.length + 1) a =
      chainVisited (i + 1 + y.content.length + 1) b)
    (ho : x.content ++ chainType a :: chainOctets a = y.content ++ chainType b :: chainOctets b) :
    x.content.length = y.content.length := by
  cases a with
  | nil =>
    cases b with
    | nil => rw [List.append_cancel_right ho]
    | cons v b => cases hv
  | cons u a =>
    cases b with
    | nil => cases hv
    | cons v b =>
      have hp := (Prod.mk.inj (List.cons.inj hv).1).1
      omega

/-- Two chains with the same octets and the same visited positions are one chain. -/
theorem chain_unique (hv : chainVisited i a = chainVisited i b) (ho : chainOctets a = chainOctets b) :
    a = b := by
  induction a generalizing b i with
  | nil =>
    cases b with
    | nil => rfl
    | cons y b => cases hv
  | cons x a ih =>
    cases b with
    | nil => cases hv
    | cons y b =>
      obtain ⟨hp, hv⟩ := List.cons.inj hv
      have htype := UInt8.toNat_inj.mp (Prod.mk.inj hp).2
      obtain ⟨hlen, ho⟩ := List.cons.inj ho
      obtain ⟨hcontent, ho⟩ := List.append_inj ho (content_length_eq hv ho)
      obtain ⟨-, ho⟩ := List.cons.inj ho
      have hx : x = y := by
        obtain ⟨_, _, _⟩ := x
        exact WireHeader.mk.injEq .. ▸ ⟨htype, hlen, hcontent⟩
      rw [hcontent] at hv
      rw [hx, ih hv ho]

/-! ## Aligned datagrams -/

/-- Datagrams of one octet string with payloads of one length have one optional part. -/
private theorem optional_eq (hd : d.Framed) (he : e.Framed) (h : d.octets = e.octets)
    (hp : d.payload.length = e.payload.length) : d.flags = e.flags ∧ d.optional = e.optional := by
  simp only [Datagram.octets, Datagram.announced, List.append_assoc] at h
  obtain ⟨hflags, h⟩ := List.append_inj h rfl
  obtain ⟨-, h⟩ := List.append_inj h rfl
  obtain ⟨hlength, h⟩ := List.append_inj h (by simp only [length_octetsBE])
  obtain ⟨-, h⟩ := List.append_inj h (by simp only [length_octetsBE])
  have hnat := congrArg natBE hlength
  have hld := hd.length
  have hle := he.length
  rw [natBE_octetsBE, natBE_octetsBE] at hnat
  exact ⟨(List.cons.inj hflags).1, (List.append_inj h (by omega)).1⟩

/-- Datagrams with one optional part have chains of the same octets. -/
private theorem chainOctets_eq (hd : d.Framed) (he : e.Framed) (hflags : d.flags = e.flags)
    (h : d.optional = e.optional) : chainOctets d.chain = chainOctets e.chain := by
  cases h2 : bitAt 2 d.flags with
  | false => rw [hd.chain h2, he.chain (hflags ▸ h2)]
  | true =>
    rw [Datagram.optional_of_any (by rw [h2, Bool.or_true]),
      Datagram.optional_of_any (by rw [← hflags, h2, Bool.or_true])] at h
    have h := (List.append_inj h (by simp only [length_octetsBE])).2
    have h := (List.append_inj h rfl).2
    exact (List.append_inj h rfl).2

/-- A well-formed datagram is decoded in step with its chain exactly when every
header is one the decoder takes whole. -/
theorem aligned_iff (d : Datagram) (hd : d.WellFormed) :
    d.Aligned ↔ ∀ h ∈ d.chain, h.Followed := by
  have hconsumed : (∀ h ∈ d.chain, h.Consumed) ↔ ∀ h ∈ d.chain, h.Followed :=
    forall₂_congr fun h hh => (hd.headers h hh).consumed_iff
  rw [← hconsumed]
  constructor
  · rintro ⟨m, t, hrun, hpayload⟩
    obtain ⟨e, he, hchain, hs, -, -, hp, hv⟩ := decodeGtpMessageVisited_ok hrun
    obtain ⟨hflags, hopt⟩ := optional_eq hd.toFramed he hs (by rw [← hpayload, hp])
    rwa [chain_unique hv (chainOctets_eq hd.toFramed he hflags hopt)]
  · intro h
    obtain ⟨headers, hreads⟩ := hd.toFramed.reads (i := 0) h
    have hrun := hreads.run []
    rw [List.append_nil, Nat.zero_add] at hrun
    refine ⟨d.message headers, ⟨0 + d.announced.length, []⟩, ?_, rfl⟩
    rw [Datagram.octets, hd.whole, List.append_nil]
    exact hrun

/-- A G-PDU with a port header and a downlink container. -/
def alignedDatagram : Datagram where
  flags := 0x34
  msgType := GtpMessage.mtGPdu
  teid := 7
  seq := 0
  nPduNum := 0
  spare := 0
  chain := [⟨0b01000000, 1, [8, 104]⟩, ⟨0b10000101, 1, [0, 9]⟩]
  payload := [0x45, 0]
  trailing := []

theorem aligned_port_container :
    alignedDatagram.Aligned ↔ ∀ h ∈ alignedDatagram.chain, h.Followed :=
  aligned_iff alignedDatagram
    { version := by decide, protocolType := by decide, chain := by decide, length := by decide,
      headers := by
        intro h hh
        simp only [alignedDatagram, List.mem_cons, List.not_mem_nil, or_false] at hh
        rcases hh with rfl | rfl <;> exact ⟨by decide, by decide⟩
      whole := rfl }

/-- A G-PDU with an NR RAN container of one length unit and no payload. -/
def nrRanDatagram : Datagram where
  flags := 0x34
  msgType := GtpMessage.mtGPdu
  teid := 7
  seq := 0
  nPduNum := 0
  spare := 0
  chain := [⟨0b10000100, 1, [0, 42]⟩]
  payload := []
  trailing := []

theorem nrRanDatagram_misaligned : nrRanDatagram.WellFormed ∧
    nrRanDatagram.octets = [0x34, 255, 0, 8, 0, 0, 0, 7, 0, 0, 0, 132, 1, 0, 42, 0] ∧
    (decode nrRanDatagram.octets).map (Option.map GtpMessage.payload) = .ok (some [42, 0]) ∧
    ¬ nrRanDatagram.Aligned := by
  refine ⟨?_, by decide, by decide, ?_⟩
  · constructor
    · constructor <;> decide
    · intro h hh
      simp only [nrRanDatagram, List.mem_singleton] at hh
      subst hh
      exact ⟨by decide, by decide⟩
    · rfl
  · rintro ⟨m, t, hrun, hpayload⟩
    have hdecode : decodeGtpMessageVisited (Cursor.start nrRanDatagram.octets) =
        .ok (some ({ msgType := 255, teid := 7, payload := [42, 0] }, [(12, 132)]), ⟨16, []⟩) := by
      decide
    rw [hdecode] at hrun
    have hm := (Prod.mk.inj (Option.some.inj (Prod.mk.inj (Except.ok.inj hrun)).1)).1
    rw [← hm] at hpayload
    cases hpayload

end Quicup.Ueransim
