import Quicup.Ueransim.Rlc.Coverage

/-!
# Submission of segments

The segments stay a cover of the open SDUs when SDUs are accepted and segments are cut and
submitted.
-/

namespace Quicup.Ueransim.Rlc

open Circular

namespace AmTransmitter

variable {c : AmConfig} {sdus : List OctetString} {e a n i : Nat} {t t' : AmTransmitter}
  {s : RlcSduSegment}

theorem sdu_addRefs (hi : i < t.heap.length) (k j : Nat) :
    (t.addRefs i k).sdu j =
      if i = j then { t.sdu j with refCount := (t.sdu j).refCount + k } else t.sdu j :=
  sdu_modify hi j

theorem sdu_assignSn (hi : i < t.heap.length) (j : Nat) :
    (t.assignSn i).sdu j = if i = j then { t.sdu j with sn := t.txNext } else t.sdu j :=
  sdu_modify hi j

/-- The SDU of a held segment that is cut has more segments. -/
theorem Covered.cut (h : Covered c sdus e a n [s] t) {front : RlcSduSegment}
    {next : List RlcSduSegment} (hcut : Cut s front next) :
    Covered c sdus e a n (front :: next) (t.addRefs s.sdu next.length) := by
  have hheld : s ∈ [s] ++ t.segments := List.mem_append_left _ (List.mem_singleton_self s)
  obtain ⟨hs, hlength⟩ := h.submitted s (List.mem_append_left _ (List.mem_singleton_self s))
  have hsdu := sdu_addRefs (t := t) (h.length_eq ▸ hlength) next.length
  have hpart {x : RlcSduSegment} (hx : x ∈ front :: next) : x.sdu = s.sdu := by
    rcases List.mem_cons.mp hx with rfl | hx
    · exact hcut.front_sdu
    · exact hcut.next_sdu x hx
  have hdata := map_modify RlcSdu.data (f := fun sdu : RlcSdu =>
    { sdu with refCount := sdu.refCount + next.length }) (fun _ => rfl) t.heap s.sdu
  refine ⟨⟨h.epoch_le, h.le, h.window, h.txNext_eq, h.txNextAck_eq⟩, hdata.trans h.data_eq,
    h.le_length, ?_, ?_, ?_, ?_, ?_, h.ack_sorted, h.reported_iff, h.size_pos, h.size_eq,
    h.size_le⟩
  · intro x hx
    have hold : ∃ y ∈ [s] ++ (t.waitBuffer ++ t.retBuffer ++ t.ackBuffer), y.sdu = x.sdu := by
      rcases List.mem_append.mp hx with hx | hx
      · exact ⟨s, List.mem_append_left _ (List.mem_singleton_self s), (hpart hx).symm⟩
      · exact ⟨x, List.mem_append_right _ hx, rfl⟩
    obtain ⟨y, hy, hyx⟩ := hold
    obtain ⟨⟨hge, hle, hlt, hysn⟩, hylength⟩ := h.submitted y hy
    rw [hyx] at hge hle hlt hysn hylength
    refine ⟨⟨hge, hle, hlt, ?_⟩, hylength⟩
    rw [hsdu]
    split_ifs <;> exact hysn
  · intro x hx
    rcases List.mem_append.mp hx with hx | hx
    · exact hcut.pos (h.pos s hheld) x hx
    · exact h.pos x (List.mem_append_right _ hx)
  · intro x hx
    rcases List.mem_append.mp hx with hx | hx
    · obtain ⟨hfirst, hlast⟩ := h.shape s hheld
      refine ⟨hcut.first_iff hfirst x hx, ?_⟩
      rw [hpart hx]
      exact hcut.last_iff hlast (h.stop_le hheld hs.ge hlength) x hx
    · exact h.shape x (List.mem_append_right _ hx)
  · intro i hge hlt b
    rw [← h.coverage_eq i hge hlt b, coverage_append, coverage_append, hcut.coverage_eq]
    rfl
  · intro i hge hlt
    have hrefs := h.refCount_eq i hge hlt
    have hparts := hcut.refs_eq i
    have hsame : (t.addRefs s.sdu next.length).segments = t.segments := rfl
    rw [refs_append] at hrefs
    rw [hsdu, refs_append, hparts, hsame]
    split_ifs
    · rw [hrefs]
      push_cast
      ring
    · exact hrefs

namespace Covering

variable {rest : List RlcSduSegment}

/-- A segment that is to be retransmitted is taken from the buffer, which keeps the rest of it. -/
theorem takeRet (h : Covering c sdus e a n [] t) {front : RlcSduSegment} {next : List RlcSduSegment}
    (hret : t.retBuffer = s :: rest) (hcut : Cut s front next) :
    Covering c sdus e a n [front]
      ({ t with retBuffer := next ++ rest }.addRefs s.sdu next.length) := by
  have hheld : Covering c sdus e a n [s] { t with retBuffer := rest } := by
    refine h.rearranged (.of_eq ?_ rfl rfl rfl rfl rfl rfl) h.ack_sorted
    refine List.perm_iff_count.mpr fun x => ?_
    simp only [segments, hret, List.count_append, List.count_cons, List.count_nil]
    omega
  have hparts : Covering c sdus e a n (front :: next)
      ({ t with retBuffer := rest }.addRefs s.sdu next.length) :=
    ⟨hheld.toCovered.cut hcut, h.queue, h.queue_last⟩
  refine hparts.rearranged (.of_eq ?_ rfl rfl rfl rfl rfl rfl) h.ack_sorted
  refine List.perm_iff_count.mpr fun x => ?_
  simp only [segments, AmTransmitter.addRefs, List.count_append, List.count_cons, List.count_nil]
  omega

/-- The first segment of the transmission buffer belongs to the SDU `n`. -/
theorem queue_cons (h : Covering c sdus e a n [] t) (htx : t.txBuffer = s :: rest) :
    s.sdu = n ∧ n < sdus.length ∧
      rest.map RlcSduSegment.sdu = List.range' (n + 1) (sdus.length - (n + 1)) := by
  have hqueue := h.queue
  rw [htx, List.map_cons] at hqueue
  rcases hcount : sdus.length - n with _ | k
  · rw [hcount] at hqueue
    cases hqueue
  · rw [hcount, List.range'_succ, List.cons.injEq] at hqueue
    have hk : sdus.length - (n + 1) = k := by omega
    exact ⟨hqueue.1, by omega, hk ▸ hqueue.2⟩

/-- A segment that is to be submitted for the first time gets its SN. -/
theorem holdTx (h : Covering c sdus e a n [] t) (htx : t.txBuffer = s :: rest)
    (hwindow : (n : Int) - a < c.windowSize) :
    Covered c sdus e a n [s] { t.assignSn s.sdu with txBuffer := rest } := by
  obtain ⟨hsdu, hn, _⟩ := h.queue_cons htx
  have hle := h.le
  have hassign := sdu_assignSn (t := t) (i := s.sdu) (by rw [h.length_eq]; omega)
  have hperm : ([s] ++ { t.assignSn s.sdu with txBuffer := rest }.segments).Perm
      ([] ++ t.segments) := by
    refine List.perm_iff_count.mpr fun x => ?_
    simp only [segments, assignSn, htx, List.count_append, List.count_cons, List.count_nil]
    omega
  have hdata := map_modify RlcSdu.data (f := fun sdu : RlcSdu => { sdu with sn := t.txNext })
    (fun _ => rfl) t.heap s.sdu
  refine ⟨⟨h.epoch_le, h.le, h.window, h.txNext_eq, h.txNextAck_eq⟩, hdata.trans h.data_eq,
    h.le_length, ?_, fun x hx => h.pos x (hperm.subset hx),
    fun x hx => h.shape x (hperm.subset hx), ?_, ?_, h.ack_sorted, h.reported_iff, h.size_pos,
    h.size_eq, h.size_le⟩
  · intro x hx
    have hnumber : a ≤ x.sdu ∧ x.sdu ≤ n ∧ (x.sdu : Int) - a < c.windowSize ∧
        (x.sdu ≠ n → (t.sdu x.sdu).sn = ((x.sdu : Int) - e) % c.snModulus) := by
      rcases List.mem_append.mp hx with hx | hx
      · obtain rfl := List.mem_singleton.mp hx
        exact ⟨by omega, by omega, by omega, fun hne => absurd hsdu hne⟩
      · obtain ⟨⟨hge, hle, hlt, hsn⟩, _⟩ := h.submitted x (List.mem_append_right _ hx)
        exact ⟨hge, hle, hlt, fun _ => hsn⟩
    refine ⟨⟨hnumber.1, hnumber.2.1, hnumber.2.2.1, ?_⟩, by omega⟩
    refine (congrArg RlcSdu.sn (hassign x.sdu)).trans ?_
    split_ifs with hx
    · rw [← hx, hsdu, ← h.txNext_eq]
    · exact hnumber.2.2.2 fun hxn => hx (hsdu.trans hxn.symm)
  · intro i hge hlt b
    rw [coverage_perm hperm]
    exact h.coverage_eq i hge hlt b
  · intro i hge hlt
    rw [refs_perm hperm, ← h.refCount_eq i hge hlt]
    refine (congrArg RlcSdu.refCount (hassign i)).trans ?_
    split_ifs <;> rfl

end Covering

variable {front : RlcSduSegment}

/-- The rest of a segment stays in front of the transmission buffer. -/
theorem Covered.returnTx {next : List RlcSduSegment} (h : Covered c sdus e a n (front :: next) t) :
    Covered c sdus e a n [front] { t with txBuffer := next ++ t.txBuffer } := by
  have hperm : ([front] ++ { t with txBuffer := next ++ t.txBuffer }.segments).Perm
      (front :: next ++ t.segments) := by
    refine List.perm_iff_count.mpr fun x => ?_
    simp only [segments, List.count_append, List.count_cons, List.count_nil]
    omega
  refine ⟨⟨h.epoch_le, h.le, h.window, h.txNext_eq, h.txNextAck_eq⟩, h.data_eq, h.le_length, ?_,
    fun x hx => h.pos x (hperm.subset hx), fun x hx => h.shape x (hperm.subset hx), ?_, ?_,
    h.ack_sorted, h.reported_iff, h.size_pos, h.size_eq, h.size_le⟩
  · intro x hx
    have hheld : x ∈ front :: next ++ (t.waitBuffer ++ t.retBuffer ++ t.ackBuffer) := by
      simp only [List.mem_append, List.mem_cons, List.not_mem_nil, or_false] at hx ⊢
      exact hx.imp_left .inl
    obtain ⟨⟨hge, hle, hlt, hsn⟩, hlength⟩ := h.submitted x hheld
    exact ⟨⟨hge, hle, hlt, hsn⟩, hlength⟩
  · intro i hge hlt b
    rw [coverage_perm hperm]
    exact h.coverage_eq i hge hlt b
  · intro i hge hlt
    rw [refs_perm hperm]
    exact h.refCount_eq i hge hlt

/-- The SDU whose last segment is submitted has been submitted completely. -/
theorem Covered.countNew (h : Covered c sdus e a n [front] t)
    (hlength : front.si.hasLast = true → n < sdus.length) (hwindow : (n : Int) - a < c.windowSize) :
    Covered c sdus e a (if front.si.hasLast then n + 1 else n) [front] (t.countNew c front) := by
  have hle := h.le
  refine ⟨⟨h.epoch_le, by split_ifs <;> omega, by split_ifs <;> omega, ?_, h.txNextAck_eq⟩,
    h.data_eq, ?_, ?_, h.pos, h.shape, h.coverage_eq, h.refCount_eq, h.ack_sorted,
    h.reported_iff, h.size_pos, h.size_eq, h.size_le⟩
  · have hnext : (t.countNew c front).txNext =
        if front.si.hasLast then (t.txNext + 1) % c.snModulus else t.txNext := rfl
    rw [hnext]
    split_ifs
    · rw [h.txNext_eq, Int.emod_add_emod]
      congr 1
      push_cast
      ring
    · exact h.txNext_eq
  · split_ifs with hlast
    · exact hlength hlast
    · exact h.le_length
  · intro x hx
    obtain ⟨⟨hge, hxn, hlt, hsn⟩, hlength⟩ := h.submitted x hx
    exact ⟨⟨hge, by split_ifs <;> omega, hlt, hsn⟩, hlength⟩

theorem Numbering.window_open (h : Numbering c e a n t) (hopen : t.windowStalling c = false) :
    (n : Int) - a < c.windowSize := by
  have hm := c.snModulus_eq
  have hlarge := c.two_lt_windowSize
  rw [windowStalling, decide_eq_false_iff_not, not_not, snCompareTx, snCompareTx, h.txNext_eq,
    h.modulusTx_number h.le le_rfl, modulusTx_eq, modulusTx_eq,
    distance_base_advance h.nextAck_on (by omega) (by omega)] at hopen
  omega

namespace Covering

/-- A segment that is submitted for the first time is taken from the buffer, which keeps the
rest of it. -/
theorem takeTx (h : Covering c sdus e a n [] t) {front : RlcSduSegment}
    {next rest : List RlcSduSegment} (htx : t.txBuffer = s :: rest) (hcut : Cut s front next)
    (hopen : t.windowStalling c = false) :
    Covering c sdus e a (if front.si.hasLast then n + 1 else n) [front]
      (({ t.assignSn s.sdu with txBuffer := next ++ rest }.addRefs s.sdu next.length).countNew c
        front) := by
  obtain ⟨hsdu, hn, hrest⟩ := h.queue_cons htx
  have hwindow := h.window_open hopen
  have hparts := ((h.holdTx htx hwindow).cut hcut).returnTx
  have hslast := h.queue_last s (htx ▸ List.mem_cons_self ..)
  have hlast := hcut.last hslast
  refine ⟨hparts.countNew (fun _ => hn) hwindow, ?_, ?_⟩
  · change (next ++ rest).map RlcSduSegment.sdu = _
    rw [List.map_append, hrest]
    split_ifs with hfront
    · rw [hlast.1 hfront]
      rfl
    · obtain ⟨x, hx, _⟩ := hlast.2 (Bool.eq_false_iff.mpr hfront)
      have hxsdu := hcut.next_sdu x (hx ▸ List.mem_singleton_self x)
      have hk : sdus.length - n = sdus.length - (n + 1) + 1 := by omega
      rw [hx, hk, List.range'_succ, List.map_singleton, hxsdu, hsdu]
      rfl
  · intro x hx
    rcases List.mem_append.mp hx with hx | hx
    · cases hfront : front.si.hasLast with
      | true =>
        rw [hlast.1 hfront] at hx
        exact absurd hx List.not_mem_nil
      | false =>
        obtain ⟨y, hy, hylast⟩ := hlast.2 hfront
        rw [hy] at hx
        exact List.mem_singleton.mp hx ▸ hylast
    · exact h.queue_last x (htx ▸ List.mem_cons_of_mem _ hx)

/-- A PDU that is built has the octets of a segment that waits. -/
def Sends (t : AmTransmitter) (pdu : Option (Nat × AmdPdu)) : Prop :=
  ∀ built, pdu = some built → ∃ s ∈ t.waitBuffer, ∃ p, built = (s.sdu, t.amdPduOf s p)

theorem submit (h : Covering c sdus e a n [s] t) (p : Bool) :
    Covering c sdus e a n [] (t.submit c s p).1 ∧ Sends (t.submit c s p).1 (t.submit c s p).2 := by
  have hwait : Covering c sdus e a n [] { t with waitBuffer := t.insertToList c t.waitBuffer s } := by
    refine h.rearranged (.of_eq ?_ rfl rfl rfl rfl rfl rfl) h.ack_sorted
    have hperm := Sorted.perm_insert (t.sduListCompare c) s t.waitBuffer
    refine List.perm_iff_count.mpr fun x => ?_
    have := hperm.count_eq x
    simp only [segments, insertToList, List.count_append, List.count_cons,
      List.count_nil] at this ⊢
    omega
  have hmem : s ∈ t.insertToList c t.waitBuffer s := Sorted.mem_insert.mpr (.inl rfl)
  rw [AmTransmitter.submit, generateAmdForSdu]
  dsimp only
  split_ifs
  · refine ⟨hwait.rearranged (.of_eq (.refl _) rfl rfl rfl rfl rfl rfl) hwait.ack_sorted, ?_⟩
    exact fun built hbuilt => ⟨s, hmem, _, (Option.some.inj hbuilt).symm⟩
  · refine ⟨hwait.rearranged (.of_eq (.refl _) rfl rfl rfl rfl rfl rfl) hwait.ack_sorted, ?_⟩
    exact fun built hbuilt => ⟨s, hmem, _, (Option.some.inj hbuilt).symm⟩

theorem createRetPdu (h : Covering c sdus e a n [] t) (maxSize : Nat) :
    Covering c sdus e a n [] (t.createRetPdu c maxSize).1 ∧
      Sends (t.createRetPdu c maxSize).1 (t.createRetPdu c maxSize).2 := by
  rw [AmTransmitter.createRetPdu]
  split
  · exact ⟨h, fun built hbuilt => by cases hbuilt⟩
  · next segment rest hret =>
    split_ifs with hgrant
    · exact ⟨h, fun built hbuilt => by cases hbuilt⟩
    · have hpos : 0 < segment.size := h.pos segment (by simp [segments, hret])
      obtain ⟨front, next, hfit, hcut⟩ := segmentToFit_cut hpos hgrant
      rw [hfit]
      exact (h.takeRet hret hcut).submit false

theorem createTxPdu (h : Covering c sdus e a n [] t) (maxSize : Nat) :
    ∃ n' ≥ n, Covering c sdus e a n' [] (t.createTxPdu c maxSize).1 ∧
      Sends (t.createTxPdu c maxSize).1 (t.createTxPdu c maxSize).2 := by
  rw [AmTransmitter.createTxPdu]
  split_ifs with hstalls
  · exact ⟨n, le_rfl, h, fun built hbuilt => by cases hbuilt⟩
  · split
    · exact ⟨n, le_rfl, h, fun built hbuilt => by cases hbuilt⟩
    · next segment rest htx =>
      split_ifs with hgrant
      · exact ⟨n, le_rfl, h, fun built hbuilt => by cases hbuilt⟩
      · have hpos : 0 < segment.size := h.pos segment (by simp [segments, htx])
        obtain ⟨front, next, hfit, hcut⟩ := segmentToFit_cut hpos hgrant
        rw [hfit]
        have htaken := h.takeTx htx hcut (Bool.eq_false_iff.mpr hstalls)
        exact ⟨_, by split_ifs <;> omega, htaken.submit _⟩

theorem createAmdPdu (h : Covering c sdus e a n [] t) (maxSize : Nat) :
    ∃ n' ≥ n, Covering c sdus e a n' [] (t.createAmdPdu c maxSize).1 ∧
      Sends (t.createAmdPdu c maxSize).1 (t.createAmdPdu c maxSize).2 := by
  obtain ⟨hret, hsends⟩ := h.createRetPdu maxSize
  rw [AmTransmitter.createAmdPdu]
  rcases hresult : t.createRetPdu c maxSize with ⟨t', _ | pdu⟩
  · rw [hresult] at hret
    exact hret.createTxPdu maxSize
  · rw [hresult] at hret hsends
    exact ⟨n, le_rfl, hret, hsends⟩

/-! ## SDUs of the upper layer -/

/-- The data of the accepted SDUs, after one more has come. -/
def accepted (c : AmConfig) (t : AmTransmitter) (sdus : List OctetString) (data : OctetString) :
    List OctetString :=
  if data.length = 0 ∨ t.txCurrentSize + data.length > c.txMaxSize then sdus
  else sdus ++ [data]

/-- The SDU that is accepted is the next one on the heap. -/
theorem receiveSdu (h : Covering c sdus e a n [] t) (data : OctetString) (sduId : Int) :
    Covering c (accepted c t sdus data) e a n [] (t.receiveSdu c data sduId) := by
  rw [AmTransmitter.receiveSdu, accepted]
  split_ifs with hrejects
  · exact h
  rw [not_or, not_lt] at hrejects
  have hle := h.le_length
  have han := h.le
  have hnew : refs t.segments sdus.length = 0 := by
    rw [refs, List.countP_eq_zero]
    intro x hx hsdu
    exact absurd (h.sdu_lt hx).2 (of_decide_eq_true hsdu).not_lt
  rw [h.length_eq]
  obtain ⟨t', ht'⟩ : ∃ t' : AmTransmitter, t' = { t with
      heap := t.heap ++ [{ sduId, data, refCount := 1 }]
      txBuffer := t.txBuffer ++
        [{ sdu := sdus.length, size := data.length, so := 0, si := .full }]
      txCurrentSize := t.txCurrentSize + data.length } := ⟨_, rfl⟩
  rw [← ht']
  have hold {i : Nat} (hi : i < sdus.length) : t'.sdu i = t.sdu i := by
    rw [← h.length_eq] at hi
    rw [ht', AmTransmitter.sdu, List.getD_eq_getElem?_getD, List.getElem?_append_left hi,
      AmTransmitter.sdu, List.getD_eq_getElem?_getD]
  have hlast : t'.sdu sdus.length = { sduId, data, refCount := 1 } := by
    rw [ht', AmTransmitter.sdu, List.getD_eq_getElem?_getD, ← h.length_eq,
      List.getElem?_concat_length, Option.getD_some]
  have hget {i : Nat} (hi : i < sdus.length) :
      (sdus ++ [data]).getD i [] = sdus.getD i [] := by
    rw [List.getD_eq_getElem?_getD, List.getElem?_append_left hi, List.getD_eq_getElem?_getD]
  have hgetlast : (sdus ++ [data]).getD sdus.length [] = data := by
    rw [List.getD_eq_getElem?_getD, List.getElem?_concat_length, Option.getD_some]
  have hperm : ([] ++ t'.segments).Perm
      ({ sdu := sdus.length, size := data.length, so := 0, si := .full } :: t.segments) := by
    rw [ht']
    refine List.perm_iff_count.mpr fun x => ?_
    simp only [segments, List.count_append, List.count_cons, List.count_nil]
    omega
  have hcases {i : Nat} (hi : i < (sdus ++ [data]).length) : i < sdus.length ∨ i = sdus.length := by
    rw [List.length_append, List.length_singleton] at hi
    omega
  refine ⟨⟨⟨h.epoch_le, h.le, h.window, by rw [ht']; exact h.txNext_eq,
    by rw [ht']; exact h.txNextAck_eq⟩, ?_, ?_, ?_, ?_, ?_, ?_, ?_, by rw [ht']; exact h.ack_sorted,
    by rw [ht']; exact h.reported_iff, ?_, ?_, by rw [ht']; exact hrejects.2⟩, ?_, ?_⟩
  · rw [ht', List.map_append, h.data_eq]
    rfl
  · rw [List.length_append]
    omega
  · intro x hx
    rw [ht'] at hx
    obtain ⟨⟨hge, hle, hxlt, hsn⟩, hlength⟩ := h.submitted x hx
    refine ⟨⟨hge, hle, hxlt, by rwa [hold hlength]⟩, ?_⟩
    rw [List.length_append]
    omega
  · intro x hx
    rcases List.mem_cons.mp (hperm.subset hx) with rfl | hx
    · exact Nat.pos_of_ne_zero hrejects.1
    · exact h.pos x hx
  · intro x hx
    rcases List.mem_cons.mp (hperm.subset hx) with rfl | hx
    · exact ⟨iff_of_true rfl rfl, iff_of_true rfl (by rw [hgetlast, zero_add])⟩
    · obtain ⟨hfirst, hlast⟩ := h.shape x hx
      exact ⟨hfirst, by rwa [hget (h.sdu_lt hx).2]⟩
  · intro i hge hi b
    rw [coverage_perm hperm, coverage_cons]
    simp only [RlcSduSegment.covers_iff]
    rcases hcases hi with hi | rfl
    · have hcoverage := h.coverage_eq i hge hi b
      rw [List.nil_append] at hcoverage
      rw [hcoverage, hget hi]
      simp [hi.ne']
    · rw [coverage_eq_zero_of_refs hnew, hgetlast]
      simp
  · intro i hge hi
    rw [refs_perm hperm, refs_cons]
    rcases hcases hi with hi | rfl
    · have hrefs := h.refCount_eq i hge hi
      rw [List.nil_append] at hrefs
      rw [hold hi, hrefs, if_neg hi.ne', add_zero]
    · rw [hnew, hlast, if_pos rfl]
      rfl
  · intro i hi
    rcases hcases hi with hi | rfl
    · exact (hget hi).symm ▸ h.size_pos i hi
    · exact hgetlast.symm ▸ Nat.pos_of_ne_zero hrejects.1
  · rw [ht']
    dsimp only
    rw [h.size_eq, totalSize, totalSize, List.drop_append_of_le_length (by omega), List.map_append,
      List.sum_append]
    simp
  · have hk : (sdus ++ [data]).length - n = sdus.length - n + 1 := by
      rw [List.length_append, List.length_singleton]
      omega
    have hn : n + 1 * (sdus.length - n) = sdus.length := by omega
    rw [hk, List.range'_concat, hn, ← h.queue, ht', List.map_append]
    rfl
  · intro x hx
    rw [ht'] at hx
    rcases List.mem_append.mp hx with hx | hx
    · exact h.queue_last x hx
    · obtain rfl := List.mem_singleton.mp hx
      rfl

end Covering

end AmTransmitter

end Quicup.Ueransim.Rlc
