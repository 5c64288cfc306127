import Mathlib.Algebra.Order.BigOperators.Group.List
import Mathlib.Data.List.TakeWhile
import Quicup.Ueransim.Rlc.Receiver

/-!
# Sorted reception buffers

What the functions on the reception buffer and the loops of the receiver do on a buffer
that is sorted by SN and offset. The items of an SN are the same under a change of the
others.
-/

namespace Quicup.Ueransim.Rlc

open Circular

/-! ## Sorted buffers -/

theorem itemsWithSn_cons_self (item : AmdPdu) (rest : List AmdPdu) :
    itemsWithSn (item :: rest) item.sn =
      item :: rest.takeWhile fun other => decide (other.sn = item.sn) := by
  rw [itemsWithSn, firstItemWithSn, List.dropWhile_cons_of_neg (by simp),
    List.takeWhile_cons_of_pos (by simp)]

/-- The order of the buffer, by SN from a base on and by offset. -/
def Precedes (m base : Int) (a b : AmdPdu) : Prop :=
  distance m base a.sn < distance m base b.sn ∨ a.sn = b.sn ∧ a.so ≤ b.so

structure SortedFrom (m base : Int) (list : List AmdPdu) : Prop where
  on : ∀ item ∈ list, On m item.sn
  sorted : list.Pairwise (Precedes m base)

namespace SortedFrom

variable {m base sn k : Int} {list : List AmdPdu} {pdu : AmdPdu} {snCompare : Int → Int → Int}

theorem keys (h : SortedFrom m base list) :
    list.Pairwise fun a b => distance m base a.sn ≤ distance m base b.sn := by
  refine h.sorted.imp fun {a b} hab => ?_
  rcases hab with hlt | ⟨heq, _⟩
  · exact hlt.le
  · rw [heq]

theorem same_sn (h : SortedFrom m base list) (hsn : On m sn) :
    ∀ item ∈ list, decide (item.sn = sn) = true ↔
      distance m base item.sn = distance m base sn := by
  intro item hitem
  rw [decide_eq_true_iff, distance_inj (h.on item hitem) hsn]

theorem sublist {list' : List AmdPdu} (h : SortedFrom m base list) (hsub : list'.Sublist list) :
    SortedFrom m base list' :=
  ⟨fun item hitem => h.on item (hsub.subset hitem), h.sorted.sublist hsub⟩

/-- The items with an SN are consecutive. -/
theorem itemsWithSn_eq (h : SortedFrom m base list) (hsn : On m sn) :
    itemsWithSn list sn = list.filter fun item => decide (item.sn = sn) :=
  Sorted.takeWhile_dropWhile_eq_filter h.keys (h.same_sn hsn)

/-- The items with an SN are sorted by their offsets. -/
theorem itemsWithSn_sorted (h : SortedFrom m base list) (hsn : On m sn) :
    (itemsWithSn list sn).Pairwise fun a b => a.so ≤ b.so := by
  rw [h.itemsWithSn_eq hsn]
  refine (h.sorted.filter _).imp_of_mem fun {a b} ha hb hab => ?_
  have ha := of_decide_eq_true (List.mem_filter.mp ha).2
  have hb := of_decide_eq_true (List.mem_filter.mp hb).2
  rcases hab with hlt | ⟨_, hso⟩
  · rw [ha, hb] at hlt
    exact absurd hlt (lt_irrefl _)
  · exact hso

theorem itemsWithSn_filter (h : SortedFrom m base list) (hsn : On m sn) {q : AmdPdu → Bool}
    (hq : ∀ item ∈ list, item.sn = sn → q item = true) :
    itemsWithSn (list.filter q) sn = itemsWithSn list sn := by
  rw [(h.sublist List.filter_sublist).itemsWithSn_eq hsn, h.itemsWithSn_eq hsn,
    List.filter_filter]
  refine List.filter_congr fun item hitem => ?_
  by_cases heq : item.sn = sn
  · simp [heq, hq item hitem heq]
  · simp [heq]

theorem markProcessed_eq (h : SortedFrom m base list) (hsn : On m sn) :
    markProcessed list sn =
      list.map fun item => if item.sn = sn then item.processed else item := by
  refine (Sorted.map_block AmdPdu.processed h.keys (h.same_sn hsn)).trans ?_
  simp only [decide_eq_true_eq]

theorem markProcessed (h : SortedFrom m base list) (hsn : On m sn) :
    SortedFrom m base (markProcessed list sn) := by
  have hsame (item : AmdPdu) :
      (if item.sn = sn then item.processed else item).sn = item.sn ∧
        (if item.sn = sn then item.processed else item).so = item.so := by
    split <;> exact ⟨rfl, rfl⟩
  rw [h.markProcessed_eq hsn]
  refine ⟨fun item hitem => ?_, List.pairwise_map.mpr (h.sorted.imp fun {a b} hab => ?_)⟩
  · obtain ⟨before, hbefore, rfl⟩ := List.mem_map.mp hitem
    rw [(hsame before).1]
    exact h.on before hbefore
  · simpa only [Precedes, hsame] using hab

theorem itemsWithSn_markProcessed {sn' : Int} (h : SortedFrom m base list) (hsn : On m sn)
    (hsn' : On m sn') :
    itemsWithSn (Rlc.markProcessed list sn) sn' =
      if sn' = sn then (itemsWithSn list sn).map AmdPdu.processed else itemsWithSn list sn' := by
  have hmap : (fun item : AmdPdu => decide (item.sn = sn')) ∘
      (fun item => if item.sn = sn then item.processed else item) =
        fun item => decide (item.sn = sn') := by
    funext item
    simp only [Function.comp]
    split <;> rfl
  rw [(h.markProcessed hsn).itemsWithSn_eq hsn', h.markProcessed_eq hsn, List.filter_map, hmap,
    h.itemsWithSn_eq hsn, h.itemsWithSn_eq hsn']
  split_ifs with hsame
  · rw [hsame]
    refine List.map_congr_left fun item hitem => ?_
    rw [if_pos (of_decide_eq_true (List.mem_filter.mp hitem).2)]
  · refine (List.map_congr_left fun item hitem => ?_).trans (List.map_id _)
    rw [if_neg fun heq => hsame ((of_decide_eq_true (List.mem_filter.mp hitem).2).symm.trans heq),
      id]

/-- The comparison of the buffer decides its order. -/
theorem compareRx_iff {a b : AmdPdu} (ha : On m a.sn) (hb : On m b.sn)
    (hcompare : ∀ x y, snCompare x y = distance m base x - distance m base y) :
    0 < compareRx snCompare a b ↔ ¬ Precedes m base a b := by
  have hinj : distance m base a.sn = distance m base b.sn ↔ _ := distance_inj ha hb
  rw [compareRx, Precedes, hcompare]
  by_cases hsn : a.sn = b.sn
  · rw [if_pos hsn, hsn]
    omega
  · rw [if_neg hsn]
    have := mt hinj.mp hsn
    omega

theorem insertToRxBuffer (h : SortedFrom m base list) (hpdu : On m pdu.sn)
    (hcompare : ∀ x y, snCompare x y = distance m base x - distance m base y) :
    SortedFrom m base (insertToRxBuffer list pdu snCompare) := by
  refine ⟨fun item hitem => ?_, Sorted.pairwise_insert ?_ ?_ ?_ h.sorted⟩
  · rcases Sorted.mem_insert.mp hitem with rfl | hitem
    · exact hpdu
    · exact h.on item hitem
  · rintro a b d (hab | ⟨hab, hso⟩) (hbd | ⟨hbd, hso'⟩)
    · exact .inl (hab.trans hbd)
    · exact .inl (hbd ▸ hab)
    · exact .inl (hab ▸ hbd)
    · exact .inr ⟨hab.trans hbd, hso.trans hso'⟩
  · intro item hitem hgreater
    have hnot := (compareRx_iff (h.on item hitem) hpdu hcompare).mp hgreater
    have hinj : distance m base item.sn = distance m base pdu.sn ↔ _ :=
      distance_inj (h.on item hitem) hpdu
    unfold Precedes at hnot ⊢
    omega
  · intro item hitem hless
    exact not_not.mp (mt (compareRx_iff (h.on item hitem) hpdu hcompare).mpr hless)

/-- The items of an SN after an insertion. -/
theorem itemsWithSn_insertToRxBuffer (h : SortedFrom m base list) (hpdu : On m pdu.sn)
    (hsn : On m sn) (hcompare : ∀ x y, snCompare x y = distance m base x - distance m base y) :
    itemsWithSn (Rlc.insertToRxBuffer list pdu snCompare) sn =
      if pdu.sn = sn then Sorted.insert (compareRx snCompare) pdu (itemsWithSn list sn)
      else itemsWithSn list sn := by
  rw [(h.insertToRxBuffer hpdu hcompare).itemsWithSn_eq hsn, h.itemsWithSn_eq hsn,
    Rlc.insertToRxBuffer, Sorted.filter_insert (R := fun a b => On m a.sn ∧ On m b.sn ∧
      Precedes m base a b)]
  · simp only [decide_eq_true_eq]
  · refine h.sorted.imp_of_mem fun {a b} ha hb hab => ⟨h.on a ha, h.on b hb, hab⟩
  · rintro a b ⟨ha, hb, hab⟩ hgreater
    rw [compareRx_iff ha hpdu hcompare] at hgreater
    rw [compareRx_iff hb hpdu hcompare]
    have hinj : distance m base a.sn = distance m base pdu.sn ↔ _ := distance_inj ha hpdu
    have hinj' : distance m base b.sn = distance m base pdu.sn ↔ _ := distance_inj hb hpdu
    have hsame : distance m base a.sn = distance m base b.sn ↔ _ := distance_inj ha hb
    unfold Precedes at *
    omega

/-- The base moves up to the first item. -/
theorem rebase (h : SortedFrom m base list) (hbase : On m base) (hk : 0 ≤ k)
    (hle : ∀ item ∈ list, k ≤ distance m base item.sn) :
    SortedFrom m ((base + k) % m) list := by
  refine ⟨h.on, h.sorted.imp_of_mem fun {a b} ha hb hab => ?_⟩
  rw [Precedes, distance_of_base_advance hbase (h.on a ha) hk (hle a ha),
    distance_of_base_advance hbase (h.on b hb) hk (hle b hb)]
  unfold Precedes at hab
  omega

end SortedFrom

/-! ## Delivered SDUs -/

variable {list list' : List AmdPdu} {sn m base n : Int} {item : AmdPdu}

/-- Whether an SDU is delivered is seen from the items of its SN. -/
theorem isDelivered_congr {sn' : Int} (h : itemsWithSn list sn = itemsWithSn list' sn') :
    isDelivered list sn = isDelivered list' sn' := by
  rw [isDelivered, isDelivered, h]

/-- Under an SN with a processed item the first one is processed, and starts the SDU. -/
def HeadFirst (list : List AmdPdu) : Prop :=
  ∀ item ∈ list, item.isProcessed = true → ∃ first rest,
    itemsWithSn list item.sn = first :: rest ∧ first.isProcessed = true ∧ first.so = 0

theorem mem_itemsWithSn (h : item ∈ itemsWithSn list sn) : item ∈ list ∧ item.sn = sn := by
  refine ⟨?_, by simpa using List.mem_takeWhile_imp h⟩
  exact (List.dropWhile_suffix _).subset ((List.takeWhile_prefix _).subset h)

/-- Items that are filtered by their distance from the base leave the SNs behind. -/
theorem SortedFrom.isDelivered_filter (h : SortedFrom m base list) (hsn : On m sn) (k : Int) :
    isDelivered (list.filter fun item => decide (k ≤ distance m base item.sn)) sn = true ↔
      k ≤ distance m base sn ∧ isDelivered list sn = true := by
  by_cases hk : k ≤ distance m base sn
  · have hsame := h.itemsWithSn_filter hsn (q := fun item => decide (k ≤ distance m base item.sn))
      fun item _ heq => decide_eq_true (heq ▸ hk)
    rw [isDelivered_congr hsame, and_iff_right hk]
  · refine iff_of_false (fun hdelivered => ?_) fun hboth => hk hboth.1
    rcases hitems : itemsWithSn (list.filter fun item => decide (k ≤ distance m base item.sn)) sn
      with _ | ⟨first, rest⟩
    · simp [isDelivered, hitems] at hdelivered
    · obtain ⟨hmem, rfl⟩ := mem_itemsWithSn (hitems ▸ List.mem_cons_self (a := first) (l := rest))
      exact hk (of_decide_eq_true (List.mem_filter.mp hmem).2)

/-- An SDU that is complete has not been delivered. -/
theorem isDelivered_of_isAllSegmentsReceived (h : isAllSegmentsReceived list sn = true) :
    isDelivered list sn = false := by
  rw [isAllSegmentsReceived] at h
  rw [isDelivered]
  split at h
  · cases h
  · split_ifs at h with hprocessed
    exact Bool.eq_false_iff.mpr hprocessed

theorem reachesLast_of_isAllSegmentsReceived (h : isAllSegmentsReceived list sn = true) :
    reachesLast (itemsWithSn list sn) (-1) = true := by
  rw [isAllSegmentsReceived] at h
  split at h
  · cases h
  · next item rest hitems =>
    split_ifs at h
    rw [hitems]
    exact h

theorem exists_last_of_reachesLast {items : List AmdPdu} {last : Int}
    (h : reachesLast items last = true) : ∃ item ∈ items, item.si.hasLast = true := by
  induction items generalizing last with
  | nil => exact absurd h Bool.false_ne_true
  | cons item rest ih =>
    rw [reachesLast] at h
    split_ifs at h with hgap hlast
    · exact ⟨item, List.mem_cons_self .., hlast⟩
    · obtain ⟨other, hother, hlast⟩ := ih h
      exact ⟨other, List.mem_cons_of_mem _ hother, hlast⟩

/-- Marking as processed changes nothing else. -/
theorem exists_of_mem_markProcessed (h : item ∈ markProcessed list sn) :
    ∃ other ∈ list, item = other ∨ item = other.processed := by
  have hsuffix := List.dropWhile_suffix (l := list) fun item => !decide (item.sn = sn)
  rcases List.mem_append.mp h with h | h
  · rcases List.mem_append.mp h with h | h
    · exact ⟨item, (List.takeWhile_prefix _).subset h, .inl rfl⟩
    · obtain ⟨other, hother, rfl⟩ := List.mem_map.mp h
      exact ⟨other, (mem_itemsWithSn hother).1, .inr rfl⟩
  · exact ⟨item, hsuffix.subset ((List.dropWhile_suffix _).subset h), .inl rfl⟩

theorem HeadFirst.isDelivered_iff (h : HeadFirst list) (sn : Int) :
    isDelivered list sn = true ↔ ∃ item ∈ list, item.sn = sn ∧ item.isProcessed = true := by
  constructor
  · intro hdelivered
    rcases hitems : itemsWithSn list sn with _ | ⟨first, rest⟩
    · simp [isDelivered, hitems] at hdelivered
    · obtain ⟨hmem, hsn⟩ := mem_itemsWithSn (hitems ▸ List.mem_cons_self (a := first) (l := rest))
      exact ⟨first, hmem, hsn, by simpa [isDelivered, hitems] using hdelivered⟩
  · rintro ⟨item, hitem, rfl, hprocessed⟩
    obtain ⟨first, rest, hitems, hfirst, _⟩ := h item hitem hprocessed
    simpa [isDelivered, hitems] using hfirst

/-! ## Loops over delivered SNs -/

/-- The loop ends at the first SN that is not delivered, if there is one. -/
theorem skipDelivered_eq {rxBuffer : List AmdPdu} (turns : Nat) {j : Nat} (hn : On m n)
    (hj : j < turns) (hnot : isDelivered rxBuffer ((n + j) % m) = false) :
    ∃ k : Nat, k ≤ j ∧ skipDelivered m rxBuffer turns n = .ok ((n + k) % m) ∧
      isDelivered rxBuffer ((n + k) % m) = false ∧
      ∀ i < k, isDelivered rxBuffer ((n + (i : Nat)) % m) = true := by
  induction turns generalizing n j with
  | zero => exact absurd hj (Nat.not_lt_zero j)
  | succ turns ih =>
    have hzero : (n + (0 : Nat)) % m = n := advance_zero hn
    rw [skipDelivered]
    by_cases hdelivered : isDelivered rxBuffer n = true
    · rcases j with _ | j
      · rw [hzero, hdelivered] at hnot
        exact absurd hnot Bool.true_eq_false.mp
      have hstep (i : Nat) : ((n + 1) % m + i) % m = (n + (i + 1 : Nat)) % m := by
        rw [advance_advance]
        congr 2
        push_cast
        ring
      obtain ⟨k, hk, hrun, hend, hbefore⟩ := ih (.advance hn.pos n 1) (Nat.lt_of_succ_lt_succ hj)
        (by rw [hstep]; exact hnot)
      rw [hstep] at hrun hend
      refine ⟨k + 1, Nat.succ_le_succ hk, by rw [if_pos hdelivered, hrun], hend, fun i hi => ?_⟩
      rcases i with _ | i
      · rw [hzero, hdelivered]
      · rw [← hstep]
        exact hbefore i (Nat.lt_of_succ_lt_succ hi)
    · refine ⟨0, Nat.zero_le j, by rw [if_neg hdelivered, hzero], ?_, fun i hi => ?_⟩
      · rw [hzero]
        exact Bool.eq_false_iff.mpr hdelivered
      · exact absurd hi (Nat.not_lt_zero i)

/-- Deleting the items of one SN leaves the other SNs as delivered as they were. -/
theorem SortedFrom.isDelivered_filter_ne (h : SortedFrom m base list) (hsn : On m sn)
    (hne : sn ≠ n) :
    isDelivered (list.filter fun item => !decide (item.sn = n)) sn = isDelivered list sn := by
  refine isDelivered_congr (h.itemsWithSn_filter hsn fun x _ hx => ?_)
  simp [hx, hne]

/-- An SN up to the first item is not delivered unless this item says so. -/
theorem SortedFrom.isDelivered_first {rest : List AmdPdu} (h : SortedFrom m base (item :: rest))
    (hn : On m n) (hitem : distance m base n ≤ distance m base item.sn)
    (hnot : ¬(item.isProcessed = true ∧ item.sn = n)) : isDelivered (item :: rest) n = false := by
  rw [isDelivered]
  rcases hitems : itemsWithSn (item :: rest) n with _ | ⟨first, others⟩
  · rfl
  -- an item with the least SN is the first one of the buffer
  · obtain ⟨hmem, hsn⟩ := mem_itemsWithSn (hitems ▸ List.mem_cons_self (a := first) (l := others))
    have hkey : distance m base item.sn = distance m base n := by
      rcases List.mem_cons.mp hmem with rfl | hmem
      · rw [hsn]
      · have hfirst := (List.pairwise_cons.mp h.keys).1 first hmem
        rw [hsn] at hfirst
        exact hfirst.antisymm hitem
    have hitemsn : item.sn = n := (distance_inj (h.on item (List.mem_cons_self ..)) hn).mp hkey
    have hhead : first = item := by
      rw [← hitemsn, itemsWithSn_cons_self] at hitems
      exact (List.cons.inj hitems).1.symm
    rw [hhead]
    exact Bool.eq_false_iff.mpr fun hprocessed => hnot ⟨hprocessed, hitemsn⟩

/-- The items of the delivered SNs in front are deleted, up to the first SN that is not
delivered. -/
theorem deleteDelivered_eq {turns k : Nat} (hbase : On m base) (h : SortedFrom m base list)
    (hk : ∀ item ∈ list, k ≤ distance m base item.sn) (hkm : k < m)
    (hlast : ∀ item ∈ list, distance m base item.sn + 1 < m) (hturns : list.length ≤ turns) :
    ∃ k' : Nat, k ≤ k' ∧ k' < m ∧
      deleteDelivered m turns list ((base + k) % m) =
        (list.filter fun item => decide (k' ≤ distance m base item.sn), (base + k') % m) ∧
      (∀ j : Nat, k ≤ j → j < k' → isDelivered list ((base + j) % m) = true) ∧
      isDelivered list ((base + k') % m) = false := by
  induction turns generalizing list k with
  | zero =>
    obtain rfl := List.length_eq_zero_iff.mp (Nat.le_zero.mp hturns)
    refine ⟨k, le_rfl, hkm, rfl, fun j hj hlt => ?_, rfl⟩
    omega
  | succ turns ih =>
    rcases list with _ | ⟨item, rest⟩
    · refine ⟨k, le_rfl, hkm, rfl, fun j hj hlt => ?_, rfl⟩
      omega
    have hn : On m ((base + k) % m) := .advance hbase.pos base k
    have hdist : distance m base ((base + k) % m) = k :=
      distance_base_advance hbase (Int.natCast_nonneg k) hkm
    have hitem := hk item (List.mem_cons_self ..)
    rw [deleteDelivered]
    by_cases hdelete : item.isProcessed = true ∧ item.sn = (base + k) % m
    · obtain ⟨hprocessed, hsn⟩ := hdelete
      have hitemk : distance m base item.sn = k := by rw [hsn, hdist]
      have hrest := h.sublist (List.sublist_cons_self item rest)
      have hleft : (rest.dropWhile fun item => decide (item.sn = (base + k) % m)) =
          rest.filter fun item => !decide (item.sn = (base + k) % m) :=
        Sorted.dropWhile_eq_filter hrest.keys (hrest.same_sn hn)
          fun x hx => hdist.trans_le (hk x (List.mem_cons_of_mem _ hx))
      have hbeyond : ∀ x ∈ rest.filter fun item => !decide (item.sn = (base + k) % m),
          x ∈ rest ∧ (k + 1 : Nat) ≤ distance m base x.sn := by
        intro x hx
        obtain ⟨hmem, hne⟩ := List.mem_filter.mp hx
        have hne : distance m base x.sn ≠ k := by
          rw [← hdist, Ne, distance_inj (hrest.on x hmem) hn]
          simpa using hne
        have := hk x (List.mem_cons_of_mem _ hmem)
        exact ⟨hmem, by omega⟩
      have hnext : (((base + k) % m + 1) % m) = (base + (k + 1 : Nat)) % m := by
        rw [advance_advance]
        norm_cast
      have hk1 := hlast item (List.mem_cons_self ..)
      obtain ⟨k', hle, hk'm, hrun, hbefore, hend⟩ := ih (k := k + 1)
        (hrest.sublist List.filter_sublist)
        (fun x hx => (hbeyond x hx).2) (by omega)
        (fun x hx => hlast x (List.mem_cons_of_mem _ (hbeyond x hx).1))
        ((List.length_filter_le ..).trans (Nat.le_of_succ_le_succ hturns))
      -- an SN behind the deleted one has the same items before and after
      have hsame (j : Nat) (hj : k + 1 ≤ j) (hjm : j < m) :
          isDelivered (rest.filter fun item => !decide (item.sn = (base + k) % m))
            ((base + j) % m) = isDelivered (item :: rest) ((base + j) % m) := by
        have hon : On m ((base + j) % m) := .advance hbase.pos base j
        have hdistj : distance m base ((base + j) % m) = j :=
          distance_base_advance hbase (Int.natCast_nonneg j) hjm
        have hne : (base + j) % m ≠ (base + k) % m := by
          intro he
          rw [he] at hdistj
          omega
        have hfilter := h.isDelivered_filter_ne hon hne
        rwa [List.filter_cons_of_neg (by simp [hsn])] at hfilter
      rw [if_pos ⟨hprocessed, hsn⟩, hleft, hnext, hrun]
      refine ⟨k', by omega, hk'm, ?_, fun j hj hlt => ?_, (hsame k' hle hk'm) ▸ hend⟩
      · rw [List.filter_filter, List.filter_cons_of_neg (by simp; omega)]
        refine Prod.ext (List.filter_congr fun x hx => ?_) rfl
        by_cases hx' : (k' : Int) ≤ distance m base x.sn
        · have hne : x.sn ≠ (base + k) % m := by
            intro he
            rw [he] at hx'
            omega
          simp [hx', hne]
        · simp [hx']
      · rcases hj.eq_or_lt with rfl | hj
        · rw [isDelivered, ← hsn, itemsWithSn_cons_self]
          exact hprocessed
        · rw [← hsame j hj (by omega)]
          exact hbefore j hj hlt
    · refine ⟨k, le_rfl, hkm, ?_, fun j hj hlt => absurd hlt (Nat.not_lt.mpr hj), ?_⟩
      · rw [if_neg hdelete, List.filter_eq_self.mpr fun x hx => decide_eq_true (hk x hx)]
      · exact h.isDelivered_first hn (hdist.trans_le hitem) hdelete

/-! ## Sizes -/

/-- The total size of the PDUs that are not processed. -/
def unprocessedSize (list : List AmdPdu) : Nat :=
  (list.map fun item => if item.isProcessed then 0 else item.size).sum

theorem unprocessedSize_perm (h : list.Perm list') : unprocessedSize list = unprocessedSize list' :=
  (h.map _).sum_eq

theorem unprocessedSize_filter (list : List AmdPdu) (q : AmdPdu → Bool) :
    unprocessedSize list =
      unprocessedSize (list.filter q) + unprocessedSize (list.filter fun item => !q item) := by
  have hsplit := List.filter_append_perm q list
  rw [← unprocessedSize_perm hsplit, unprocessedSize, List.map_append, List.sum_append]
  rfl

/-- Nothing is left to process when every PDU that has a size is processed. -/
theorem unprocessedSize_eq_zero (h : ∀ item ∈ list, 0 < item.size) :
    unprocessedSize list = 0 ↔ ∀ item ∈ list, item.isProcessed = true := by
  rw [unprocessedSize, List.sum_eq_zero_iff]
  constructor
  · intro hzero item hitem
    have hsize := h item hitem
    have := hzero _ (List.mem_map.mpr ⟨item, hitem, rfl⟩)
    by_contra hnot
    rw [if_neg hnot] at this
    omega
  · intro hall n hn
    obtain ⟨item, hitem, rfl⟩ := List.mem_map.mp hn
    rw [if_pos (hall item hitem)]

theorem unprocessedSize_insertToRxBuffer (list : List AmdPdu) {pdu : AmdPdu}
    (snCompare : Int → Int → Int) (hpdu : pdu.isProcessed = false) :
    unprocessedSize (insertToRxBuffer list pdu snCompare) = unprocessedSize list + pdu.size := by
  have hperm : (insertToRxBuffer list pdu snCompare).Perm (pdu :: list) := Sorted.perm_insert ..
  rw [unprocessedSize_perm hperm, unprocessedSize, List.map_cons, List.sum_cons,
    if_neg (by simp [hpdu]), add_comm]
  rfl

/-- What is reassembled was not processed. -/
theorem SortedFrom.unprocessedSize_markProcessed (h : SortedFrom m base list) (hsn : On m sn)
    (hfresh : ∀ item ∈ list, item.sn = sn → item.isProcessed = false) :
    unprocessedSize (Rlc.markProcessed list sn) + (reassembled list sn).length =
      unprocessedSize list := by
  rw [h.markProcessed_eq hsn, reassembled, h.itemsWithSn_eq hsn]
  clear h
  induction list with
  | nil => rfl
  | cons item rest ih =>
    have hrest := ih fun other hother => hfresh other (List.mem_cons_of_mem _ hother)
    simp only [unprocessedSize, List.map_cons, List.sum_cons] at hrest ⊢
    by_cases hitem : item.sn = sn
    · have hitemfresh := hfresh item (List.mem_cons_self ..) hitem
      rw [List.filter_cons_of_pos (by simp [hitem]), List.flatMap_cons, List.length_append]
      simp only [if_pos hitem, AmdPdu.processed, hitemfresh, AmdPdu.size] at hrest ⊢
      simp only [if_true, Bool.false_eq_true, if_false] at hrest ⊢
      omega
    · rw [List.filter_cons_of_neg (by simp [hitem]), if_neg hitem]
      omega

end Quicup.Ueransim.Rlc
