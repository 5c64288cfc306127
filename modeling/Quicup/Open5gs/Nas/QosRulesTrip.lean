import Mathlib.Data.List.Forall2
import Quicup.Open5gs.Nas.QosRules

/-!
# The QoS rules that are parsed again

A rule that is written in the layout of its own code is parsed again. In the layout of another code
it is parsed again only where the two layouts happen to be the same octets, or where what differs is
not looked at. In all other cases the builder asserts or the parser stops or reads something else.
-/

namespace Quicup.Open5gs

open Quicup.Fallible

theorem length_flatMap_le {α β : Type} {f : α → List β} {xs : List α} {n : Nat}
    (h : ∀ x ∈ xs, (f x).length ≤ n) : (xs.flatMap f).length ≤ n * xs.length := by
  induction xs with
  | nil => simp
  | cons x xs ih =>
    have hx := h x List.mem_cons_self
    have hxs := ih fun y hy => h y (List.mem_cons_of_mem _ hy)
    rw [List.flatMap_cons, List.length_append, List.length_cons, Nat.mul_succ]
    omega

/-! ## Reading back what is written -/

/-- Wherever there is room for the octets, they are copied to the value. -/
def Copies {α : Type} (p : BoundedRead α) (c : List UInt8) (a : α) : Prop :=
  ∀ rest room, c.length ≤ room → p ⟨c ++ rest, room⟩ = .ok (a, ⟨rest, room - c.length⟩)

section Rules

variable {α β : Type} {p : BoundedRead α} {f : α → BoundedRead β} {c d : List UInt8} {a : α} {b : β}

theorem BoundedRead.bind_run {v w : BoundedView} (h : p v = .ok (a, w)) : (p >>= f) v = f a w := by
  change (p v >>= fun x => f x.1 x.2) = _
  rw [h, ok_bind]

theorem Copies.pure (a : α) : Copies (Pure.pure a) [] a := fun _ _ _ => rfl

theorem Copies.bind (hp : Copies p c a) (hf : Copies (f a) d b) : Copies (p >>= f) (c ++ d) b := by
  intro rest room hroom
  rw [List.length_append] at hroom
  have hfirst := hp (d ++ rest) room (by omega)
  have hsecond := hf rest (room - c.length) (by omega)
  rw [← List.append_assoc] at hfirst
  rw [List.length_append, Nat.sub_add_eq, ← hsecond]
  exact BoundedRead.bind_run hfirst

theorem Copies.bind_end (hp : Copies p c a) (hf : Copies (f a) [] b) : Copies (p >>= f) c b := by
  simpa only [List.append_nil] using hp.bind hf

/-- A part of which all is left is read from its front. -/
theorem Copies.whole (hp : Copies p c a) (rest : List UInt8) :
    p (.whole (c ++ rest)) = .ok (a, .whole rest) := by
  have hread := hp rest (c ++ rest).length (by simp)
  rw [List.length_append, Nat.add_sub_cancel_left] at hread
  rw [BoundedView.whole, List.length_append]
  exact hread

theorem Copies.whole_cons {x : UInt8} (hp : Copies p [x] a) (rest : List UInt8) :
    p (.whole (x :: rest)) = .ok (a, .whole rest) := hp.whole rest

end Rules

theorem copyOctets_copies {n : Nat} (xs : Vector UInt8 n) :
    Copies (copyOctets n) xs.toList xs := by
  intro rest room hroom
  have hn : xs.toList.length = n := by simp
  have htake : (xs.toList ++ rest).take n = xs.toList := by
    rw [List.take_append_of_le_length hn.ge, List.take_of_length_le hn.le]
  have hdrop : (xs.toList ++ rest).drop n = rest := by
    rw [List.drop_append_of_le_length hn.ge, List.drop_of_length_le hn.le, List.nil_append]
  rw [hn] at hroom
  unfold copyOctets
  dsimp only
  rw [if_neg (by omega), dif_pos (by rw [htake, hn])]
  simp only [htake, hdrop, hn]
  rfl

theorem copyOctet_copies (x : UInt8) : Copies copyOctet [x] x :=
  (copyOctets_copies #v[x]).bind_end (Copies.pure _)

theorem copyBe16_copies (port : UInt16) : Copies copyBe16 (PfComponent.htobe16 port) port := by
  have hlen : (PfComponent.htobe16 port).toArray.size = 2 := by simp [PfComponent.htobe16]
  have hread := (copyOctets_copies ⟨_, hlen⟩).bind_end
    (f := fun octets => Pure.pure (UInt16.ofNat (natBE octets.toList)))
    (Copies.pure (UInt16.ofNat (natBE (PfComponent.htobe16 port))))
  have hvalue : UInt16.ofNat (natBE (PfComponent.htobe16 port)) = port := by
    have hport : port.toNat % 256 ^ 2 = port.toNat := Nat.mod_eq_of_lt port.toNat_lt
    rw [PfComponent.htobe16, natBE_octetsBE, hport, UInt16.ofNat_toNat]
  rw [hvalue] at hread
  exact hread

theorem htobe16_ofNat_natBE (x y : UInt8) : PfComponent.htobe16 (.ofNat (natBE [x, y])) = [x, y] := by
  have hlt : natBE [x, y] < 2 ^ 16 := by simpa using natBE_lt [x, y]
  rw [PfComponent.htobe16, UInt16.toNat_ofNat', Nat.mod_eq_of_lt hlt]
  exact octetsBE_natBE [x, y]

/-! ## Readers with less room than octets, or more -/

/-- A part for which there is room is there. -/
def PartFits (n : Nat) (v : BoundedView) : Prop := n ≤ v.room → n ≤ v.octets.length

/-- A reader returns what the octets at the front spell for which there is room, and faults where
something does not fit. -/
structure Walks {α : Type} (p : BoundedRead α) (spelling : α → List UInt8 → Prop)
    (fits : BoundedView → Prop) : Prop where
  ok_iff : ∀ {v a w}, p v = .ok (a, w) ↔
    ∃ octets, spelling a octets ∧ v.octets = octets ++ w.octets ∧ v.room = octets.length + w.room
  fault_iff : ∀ {v}, (∃ f, p v = .error (.fault f)) ↔ ¬fits v

namespace Walks

variable {α β : Type} {p : BoundedRead α} {f : α → BoundedRead β}
variable {c c' : α → List UInt8 → Prop} {d : α → β → List UInt8 → Prop}
variable {fits fits' : BoundedView → Prop} {next : α → BoundedView → Prop}

theorem pure (a : α) : Walks (Pure.pure a) (fun b octets => b = a ∧ octets = []) fun _ => True where
  ok_iff {v b w} := by
    obtain ⟨s, room⟩ := v
    obtain ⟨t, left⟩ := w
    constructor
    · intro h
      cases h
      exact ⟨[], ⟨rfl, rfl⟩, rfl, by simp⟩
    · rintro ⟨_, ⟨rfl, rfl⟩, hs, hroom⟩
      simp only [List.nil_append, List.length_nil, Nat.zero_add] at hs hroom
      subst hs hroom
      rfl
  fault_iff := by
    refine iff_of_false ?_ (not_not.mpr trivial)
    rintro ⟨f, h⟩
    cases h

theorem bind (hp : Walks p c fits) (hf : ∀ a, Walks (f a) (d a) (next a)) :
    Walks (p >>= f)
      (fun b octets => ∃ a first second, c a first ∧ d a b second ∧ octets = first ++ second)
      (fun v => fits v ∧ ∀ a octets rest, c a octets → v.octets = octets ++ rest →
        octets.length ≤ v.room → next a ⟨rest, v.room - octets.length⟩) where
  ok_iff {v b w} := by
    constructor
    · intro h
      obtain ⟨⟨a, u⟩, hfirst, hsecond⟩ := bind_eq_ok.mp h
      obtain ⟨first, hc, hs, hroom⟩ := hp.ok_iff.mp hfirst
      obtain ⟨second, hd, ht, hleft⟩ := (hf a).ok_iff.mp hsecond
      refine ⟨first ++ second, ⟨a, first, second, hc, hd, rfl⟩, ?_, ?_⟩
      · rw [hs, ht, List.append_assoc]
      · rw [hroom, hleft, List.length_append, Nat.add_assoc]
    · rintro ⟨_, ⟨a, first, second, hc, hd, rfl⟩, hs, hroom⟩
      rw [List.append_assoc] at hs
      rw [List.length_append, Nat.add_assoc] at hroom
      have hfirst : p v = .ok (a, ⟨second ++ w.octets, second.length + w.room⟩) :=
        hp.ok_iff.mpr ⟨first, hc, hs, hroom⟩
      have hsecond : f a ⟨second ++ w.octets, second.length + w.room⟩ = .ok (b, w) :=
        (hf a).ok_iff.mpr ⟨second, hd, rfl, rfl⟩
      rw [BoundedRead.bind_run hfirst, hsecond]
  fault_iff {v} := by
    change (∃ fault, (p v >>= fun x => f x.1 x.2) = _) ↔ _
    rw [not_and_or]
    constructor
    · rintro ⟨fault, h⟩
      cases hrun : p v with
      | error stop =>
        rw [hrun] at h
        cases h
        exact .inl (hp.fault_iff.mp ⟨fault, hrun⟩)
      | ok x =>
        obtain ⟨a, u⟩ := x
        rw [hrun] at h
        obtain ⟨octets, hc, hs, hroom⟩ := hp.ok_iff.mp hrun
        refine .inr fun hnext => (hf a).fault_iff.mp ⟨fault, h⟩ ?_
        have hu := hnext a octets u.octets hc hs (by omega)
        rwa [hroom, Nat.add_sub_cancel_left] at hu
    · rintro (hfits | hnext)
      · obtain ⟨fault, hrun⟩ := hp.fault_iff.mpr hfits
        exact ⟨fault, by rw [hrun]; rfl⟩
      · push Not at hnext
        obtain ⟨a, octets, rest, hc, hs, hroom, hnext⟩ := hnext
        obtain ⟨fault, hfault⟩ := (hf a).fault_iff.mpr hnext
        have hrun : p v = .ok (a, ⟨rest, v.room - octets.length⟩) :=
          hp.ok_iff.mpr ⟨octets, hc, hs, (Nat.add_sub_of_le hroom).symm⟩
        exact ⟨fault, by rw [hrun]; exact hfault⟩

theorem congr (hp : Walks p c fits) (hc : ∀ a octets, c a octets ↔ c' a octets)
    (hfits : ∀ v, fits v ↔ fits' v) : Walks p c' fits' where
  ok_iff {v a w} := by
    simp only [← hc]
    exact hp.ok_iff
  fault_iff {v} := by
    rw [← hfits]
    exact hp.fault_iff

/-- What is spelled is read from its octets. -/
theorem copies {a : α} {octets : List UInt8} (hp : Walks p c fits) (h : c a octets) :
    Copies p octets a :=
  fun _ _ hroom => hp.ok_iff.mpr ⟨octets, h, rfl, (Nat.add_sub_of_le hroom).symm⟩

end Walks

theorem copyOctets_walks (n : Nat) :
    Walks (copyOctets n) (fun xs octets => octets = xs.toList) (PartFits n) where
  ok_iff {v xs w} := by
    constructor
    · intro h
      unfold copyOctets at h
      split_ifs at h with hroom hlength
      cases h
      refine ⟨v.octets.take n, rfl, (List.take_append_drop n v.octets).symm, ?_⟩
      dsimp only
      omega
    · rintro ⟨_, rfl, hs, hroom⟩
      have hcopy := copyOctets_copies xs w.octets v.room (by omega)
      rw [← hs, hroom, Nat.add_sub_cancel_left] at hcopy
      obtain ⟨s, room⟩ := v
      obtain rfl : room = xs.toList.length + w.room := hroom
      exact hcopy
  fault_iff {v} := by
    unfold copyOctets PartFits
    constructor
    · rintro ⟨f, h⟩
      split_ifs at h with hroom hlength
      · cases h
      · rw [List.length_take] at hlength
        omega
    · intro h
      rw [if_neg (by omega), dif_neg (by rw [List.length_take]; omega)]
      exact ⟨_, rfl⟩

theorem copyOctet_walks :
    Walks copyOctet (fun x octets => octets = [x]) (PartFits 1) := by
  refine ((copyOctets_walks 1).bind fun xs => Walks.pure xs[0]).congr (fun x octets => ?_) fun v => by
    simp
  constructor
  · rintro ⟨⟨⟨xs⟩, hsize⟩, first, _, rfl, ⟨rfl, rfl⟩, rfl⟩
    obtain ⟨y, rfl⟩ := List.length_eq_one_iff.mp hsize
    rfl
  · rintro rfl
    exact ⟨#v[x], [x], [], rfl, ⟨rfl, rfl⟩, rfl⟩

theorem copyBe16_walks :
    Walks copyBe16 (fun x octets => octets = PfComponent.htobe16 x) (PartFits 2) := by
  refine ((copyOctets_walks 2).bind fun xs => Walks.pure (UInt16.ofNat (natBE xs.toList))).congr
    (fun x octets => ?_) fun v => by simp
  constructor
  · rintro ⟨⟨⟨xs⟩, hsize⟩, first, _, rfl, ⟨rfl, rfl⟩, rfl⟩
    obtain ⟨y, z, rfl⟩ := List.length_eq_two.mp hsize
    exact (htobe16_ofNat_natBE y z).symm
  · rintro rfl
    have hlength : (PfComponent.htobe16 x).toArray.size = 2 := by simp [PfComponent.htobe16]
    have hx : x.toNat % 256 ^ 2 = x.toNat := Nat.mod_eq_of_lt x.toNat_lt
    refine ⟨⟨_, hlength⟩, _, [], rfl, ⟨?_, rfl⟩, (List.append_nil _).symm⟩
    change x = .ofNat (natBE (octetsBE 2 x.toNat))
    rw [natBE_octetsBE, hx, UInt16.ofNat_toNat]

/-- One octet, and what is read behind it. -/
theorem Walks.octet {α : Type} {f : UInt8 → BoundedRead α} {d : UInt8 → α → List UInt8 → Prop}
    {next : UInt8 → BoundedView → Prop} (hf : ∀ x, Walks (f x) (d x) (next x)) :
    Walks (copyOctet >>= f) (fun a octets => ∃ x second, d x a second ∧ octets = x :: second)
      fun v => 1 ≤ v.room → ∃ x rest, v.octets = x :: rest ∧ next x ⟨rest, v.room - 1⟩ := by
  refine (copyOctet_walks.bind hf).congr (fun a octets => ⟨?_, ?_⟩) fun v => ⟨?_, fun h => ⟨?_, ?_⟩⟩
  · rintro ⟨x, _, second, rfl, hd, rfl⟩
    exact ⟨x, second, hd, rfl⟩
  · rintro ⟨x, second, hd, rfl⟩
    exact ⟨x, [x], second, rfl, hd, rfl⟩
  · rintro ⟨hfits, hnext⟩ hroom
    obtain ⟨x, rest, hs⟩ := List.exists_cons_of_length_pos (hfits hroom)
    exact ⟨x, rest, hs, hnext x [x] rest rfl hs hroom⟩
  · intro hroom
    obtain ⟨x, rest, hs, -⟩ := h hroom
    simp [hs]
  · rintro x _ rest rfl hs hroom
    obtain ⟨y, t, ht, hnext⟩ := h hroom
    cases hs.symm.trans ht
    exact hnext

/-! ## Components -/

/-- Every kind of component is read back behind its type. -/
theorem parseFields_copies (c : PfComponent) : Copies (parseFields c.type) c.fields c := by
  cases c with
  | matchAll => exact Copies.pure _
  | protocolIdentifierNextHeader proto => exact (copyOctet_copies _).bind_end (Copies.pure _)
  | ipv4RemoteAddress addr mask =>
    exact (copyOctets_copies _).bind ((copyOctets_copies _).bind_end (Copies.pure _))
  | ipv4LocalAddress addr mask =>
    exact (copyOctets_copies _).bind ((copyOctets_copies _).bind_end (Copies.pure _))
  | ipv6RemoteAddress addr mask =>
    exact (copyOctets_copies _).bind ((copyOctets_copies _).bind_end (Copies.pure _))
  | ipv6RemoteAddressPrefixLength addr prefixlen =>
    exact (copyOctets_copies _).bind ((copyOctet_copies _).bind_end (Copies.pure _))
  | ipv6LocalAddress addr mask =>
    exact (copyOctets_copies _).bind ((copyOctets_copies _).bind_end (Copies.pure _))
  | ipv6LocalAddressPrefixLength addr prefixlen =>
    exact (copyOctets_copies _).bind ((copyOctet_copies _).bind_end (Copies.pure _))
  | singleLocalPort low => exact (copyBe16_copies _).bind_end (Copies.pure _)
  | localPortRange low high =>
    exact (copyBe16_copies _).bind ((copyBe16_copies _).bind_end (Copies.pure _))
  | singleRemotePort low => exact (copyBe16_copies _).bind_end (Copies.pure _)
  | remotePortRange low high =>
    exact (copyBe16_copies _).bind ((copyBe16_copies _).bind_end (Copies.pure _))

/-- Where the fields of a component end that is of the type. -/
def fieldEnds (type : UInt8) : List Nat :=
  match type.toNat with
  | 48 => [1]
  | 16 => [4, 8]
  | 17 => [4, 8]
  | 35 => [16, 17]
  | 33 => [16, 17]
  | 34 => [16, 32]
  | 32 => [16, 32]
  | 64 => [2]
  | 80 => [2]
  | 65 => [2, 4]
  | 81 => [2, 4]
  | _ => []

def FieldsFit (type : UInt8) (v : BoundedView) : Prop := ∀ n ∈ fieldEnds type, PartFits n v

theorem PfComponent.toNat_type_mem (c : PfComponent) :
    c.type.toNat ∈ [1, 48, 16, 17, 35, 33, 34, 32, 64, 80, 65, 81] := by
  cases c <;> simp [type]

/-- A component whose type is read. The other octets of the type lead to its fields. -/
theorem parseFields_walks (type : UInt8) :
    Walks (parseFields type) (fun c octets => c.type = type ∧ octets = c.fields)
      (FieldsFit type) := by
  have hback {v w : BoundedView} {c : PfComponent} {octets : List UInt8}
      (hc : c.type = type ∧ octets = c.fields) (hs : v.octets = octets ++ w.octets)
      (hroom : v.room = octets.length + w.room) : parseFields type v = .ok (c, w) := by
    obtain ⟨rfl, rfl⟩ := hc
    have hcopy := parseFields_copies c w.octets v.room (by omega)
    rw [← hs, hroom, Nat.add_sub_cancel_left] at hcopy
    obtain ⟨s, room⟩ := v
    obtain rfl : room = c.fields.length + w.room := hroom
    exact hcopy
  have hone {α : Type} {p : BoundedRead α} {e : α → List UInt8} {n : Nat} (g : α → PfComponent)
      (hp : Walks p (fun a octets => octets = e a) (PartFits n))
      (hrun : parseFields type = do let a ← p; return g a)
      (hg : ∀ a, (g a).type = type ∧ (g a).fields = e a) (hends : fieldEnds type = [n]) :
      Walks (do let a ← p; return g a) (fun c octets => c.type = type ∧ octets = c.fields)
        (FieldsFit type) := by
    have hwalk := hp.bind fun a => Walks.pure (g a)
    rw [← hrun] at hwalk ⊢
    refine ⟨⟨fun h => ?_, fun ⟨_, hc, hs, hroom⟩ => hback hc hs hroom⟩, ?_⟩
    · obtain ⟨_, ⟨a, _, _, rfl, ⟨rfl, rfl⟩, rfl⟩, hs, hroom⟩ := hwalk.ok_iff.mp h
      exact ⟨_, ⟨(hg a).1, by rw [(hg a).2, List.append_nil]⟩, hs, hroom⟩
    · intro v
      rw [hwalk.fault_iff]
      simp [FieldsFit, hends]
  have htwo {α β : Type} {p : BoundedRead α} {q : BoundedRead β} {e : α → List UInt8}
      {e' : β → List UInt8} {m n : Nat} (g : α → β → PfComponent)
      (hp : Walks p (fun a octets => octets = e a) (PartFits m))
      (hq : Walks q (fun b octets => octets = e' b) (PartFits n)) (hm : ∀ a, (e a).length = m)
      (hall : ∀ octets, octets.length = m → ∃ a, e a = octets)
      (hrun : parseFields type = do let a ← p; let b ← q; return g a b)
      (hg : ∀ a b, (g a b).type = type ∧ (g a b).fields = e a ++ e' b)
      (hends : fieldEnds type = [m, m + n]) :
      Walks (do let a ← p; let b ← q; return g a b)
        (fun c octets => c.type = type ∧ octets = c.fields) (FieldsFit type) := by
    have hwalk := hp.bind fun a => hq.bind fun b => Walks.pure (g a b)
    rw [← hrun] at hwalk ⊢
    refine ⟨⟨fun h => ?_, fun ⟨_, hc, hs, hroom⟩ => hback hc hs hroom⟩, ?_⟩
    · obtain ⟨_, ⟨a, _, _, rfl, ⟨b, _, _, rfl, ⟨rfl, rfl⟩, rfl⟩, rfl⟩, hs, hroom⟩ :=
        hwalk.ok_iff.mp h
      exact ⟨_, ⟨(hg a b).1, by rw [(hg a b).2, List.append_nil]⟩, hs, hroom⟩
    · intro v
      rw [hwalk.fault_iff, not_iff_not, FieldsFit, hends, List.forall_mem_cons,
        List.forall_mem_singleton]
      refine and_congr_right fun hfits => ⟨fun h hroom => ?_, ?_⟩
      · obtain ⟨a, ha⟩ := hall (v.octets.take m) (by
          rw [List.length_take, Nat.min_eq_left (hfits (by omega))])
        obtain ⟨hnext, -⟩ := h a _ (v.octets.drop m) ha.symm (List.take_append_drop m v.octets).symm
          (by rw [← ha, hm]; omega)
        have hlength := hnext (by rw [← ha, hm]; dsimp only; omega)
        rw [List.length_drop] at hlength
        have := hfits (by omega)
        omega
      · rintro h a _ rest rfl hs hroom
        refine ⟨fun hnext => ?_, by simp⟩
        rw [hm] at hroom hnext
        have hlength := h (by dsimp only at hnext; omega)
        rw [hs, List.length_append, hm] at hlength
        dsimp only
        omega
  have hvector (n : Nat) (octets : List UInt8) (h : octets.length = n) :
      ∃ xs : Vector UInt8 n, xs.toList = octets := ⟨⟨octets.toArray, h⟩, rfl⟩
  have hport (octets : List UInt8) (h : octets.length = 2) :
      ∃ x, PfComponent.htobe16 x = octets := by
    obtain ⟨y, z, rfl⟩ := List.length_eq_two.mp h
    exact ⟨_, htobe16_ofNat_natBE y z⟩
  have hlength (x : UInt16) : (PfComponent.htobe16 x).length = 2 := length_octetsBE ..
  have htype {n : Nat} (h : type.toNat = n) : UInt8.ofNat n = type := by
    rw [← h, UInt8.ofNat_toNat]
  have hvectors (m n : Nat) (g : Vector UInt8 m → Vector UInt8 n → PfComponent) :=
    htwo g (copyOctets_walks m) (copyOctets_walks n) (fun _ => Vector.length_toList) (hvector m)
  have hprefix (g : Vector UInt8 16 → UInt8 → PfComponent) :=
    htwo g (copyOctets_walks 16) copyOctet_walks (fun _ => Vector.length_toList) (hvector 16)
  have hports (g : UInt16 → UInt16 → PfComponent) :=
    htwo g copyBe16_walks copyBe16_walks hlength hport
  unfold parseFields
  split
  case h_1 h =>
    refine (Walks.pure PfComponent.matchAll).congr (fun c octets => ⟨?_, ?_⟩) fun v => ?_
    · rintro ⟨rfl, rfl⟩
      exact ⟨htype h, rfl⟩
    · rintro ⟨rfl, rfl⟩
      cases c <;> first | exact ⟨rfl, rfl⟩ | simp [PfComponent.type] at h
    · simp [FieldsFit, fieldEnds, h]
  case h_2 h =>
    exact hone _ copyOctet_walks (by simp only [parseFields, h]) (fun _ => ⟨htype h, rfl⟩)
      (by simp only [fieldEnds, h])
  case h_3 h =>
    exact hvectors 4 4 _ (by simp only [parseFields, h]) (fun _ _ => ⟨htype h, rfl⟩)
      (by simp only [fieldEnds, h])
  case h_4 h =>
    exact hvectors 4 4 _ (by simp only [parseFields, h]) (fun _ _ => ⟨htype h, rfl⟩)
      (by simp only [fieldEnds, h])
  case h_5 h =>
    exact hprefix _ (by simp only [parseFields, h]) (fun _ _ => ⟨htype h, rfl⟩)
      (by simp only [fieldEnds, h])
  case h_6 h =>
    exact hprefix _ (by simp only [parseFields, h]) (fun _ _ => ⟨htype h, rfl⟩)
      (by simp only [fieldEnds, h])
  case h_7 h =>
    exact hvectors 16 16 _ (by simp only [parseFields, h]) (fun _ _ => ⟨htype h, rfl⟩)
      (by simp only [fieldEnds, h])
  case h_8 h =>
    exact hvectors 16 16 _ (by simp only [parseFields, h]) (fun _ _ => ⟨htype h, rfl⟩)
      (by simp only [fieldEnds, h])
  case h_9 h =>
    exact hone _ copyBe16_walks (by simp only [parseFields, h]) (fun _ => ⟨htype h, rfl⟩)
      (by simp only [fieldEnds, h])
  case h_10 h =>
    exact hone _ copyBe16_walks (by simp only [parseFields, h]) (fun _ => ⟨htype h, rfl⟩)
      (by simp only [fieldEnds, h])
  case h_11 h =>
    exact hports _ (by simp only [parseFields, h]) (fun _ _ => ⟨htype h, rfl⟩)
      (by simp only [fieldEnds, h])
  case h_12 h =>
    exact hports _ (by simp only [parseFields, h]) (fun _ _ => ⟨htype h, rfl⟩)
      (by simp only [fieldEnds, h])
  case h_13 h1 h2 h3 h4 h5 h6 h7 h8 h9 h10 h11 h12 =>
    have hends : fieldEnds type = [] := by
      unfold fieldEnds
      split <;> rename_i h
      exacts [(h2 h).elim, (h3 h).elim, (h4 h).elim, (h5 h).elim, (h6 h).elim, (h7 h).elim,
        (h8 h).elim, (h9 h).elim, (h10 h).elim, (h11 h).elim, (h12 h).elim, rfl]
    refine ⟨⟨fun h => ?_, ?_⟩, iff_of_false ?_ (by simp [FieldsFit, hends])⟩
    · cases h
    · rintro ⟨_, ⟨hc, -⟩, -, -⟩
      have htypes := congrArg UInt8.toNat hc ▸ PfComponent.toNat_type_mem _
      simp only [List.mem_cons, List.not_mem_nil, or_false] at htypes
      rcases htypes with h | h | h | h | h | h | h | h | h | h | h | h
      exacts [(h1 h).elim, (h2 h).elim, (h3 h).elim, (h4 h).elim, (h5 h).elim, (h6 h).elim,
        (h7 h).elim, (h8 h).elim, (h9 h).elim, (h10 h).elim, (h11 h).elim, (h12 h).elim]
    · rintro ⟨f, h⟩
      cases h

def componentLengths (cs : List PfComponent) : Nat := (cs.flatMap PfComponent.octets).length

/-- The components from position `len` on reach the end of the content with the last of them. -/
def ReachEnd (contentLength : Nat) : Nat → List PfComponent → Prop
  | len, [] => contentLength ≤ len
  | len, c :: cs => len < contentLength ∧ ReachEnd contentLength (len + c.octets.length) cs

/-- If there is room for a type, an entry is left for it, and it and its fields are there as far as
there is room for them. -/
def ComponentFits (entryLeft : Prop) (v : BoundedView) : Prop :=
  1 ≤ v.room → entryLeft ∧
    ∃ type rest, v.octets = type :: rest ∧ FieldsFit type ⟨rest, v.room - 1⟩

/-- Wherever a component begins before the end of the content, it fits. -/
def ContentFits (contentLength slots len : Nat) (v : BoundedView) : Prop :=
  ∀ (cs : List PfComponent) (rest : List UInt8), v.octets = cs.flatMap PfComponent.octets ++ rest →
    componentLengths cs ≤ v.room → len + componentLengths cs < contentLength →
    ComponentFits (cs.length < slots) ⟨rest, v.room - componentLengths cs⟩

@[simp] theorem componentLengths_cons (c : PfComponent) (cs : List PfComponent) :
    componentLengths (c :: cs) = c.octets.length + componentLengths cs := by
  simp [componentLengths]

theorem ComponentFits.mono {p q : Prop} {v : BoundedView} (hpq : p → q)
    (h : ComponentFits p v) : ComponentFits q v := fun hroom => ⟨hpq (h hroom).1, (h hroom).2⟩

variable {contentLength len slots : Nat} {code : QosCode}

theorem contentFits_succ (hlen : len < contentLength) (v : BoundedView) :
    ContentFits contentLength (slots + 1) len v ↔ ComponentFits True v ∧
      ∀ (c : PfComponent) (rest : List UInt8), v.octets = c.octets ++ rest →
        c.octets.length ≤ v.room →
        ContentFits contentLength slots (len + c.octets.length) ⟨rest, v.room - c.octets.length⟩ := by
  constructor
  · intro h
    refine ⟨(h [] v.octets rfl (Nat.zero_le _) hlen).mono fun _ => trivial,
      fun c rest hs hroom cs t ht hleft hend => ?_⟩
    dsimp only at ht hleft ⊢
    have hlater := h (c :: cs) t (by rw [List.flatMap_cons, List.append_assoc, ← ht, hs])
      (by rw [componentLengths_cons]; omega) (by rw [componentLengths_cons]; omega)
    rw [componentLengths_cons, Nat.sub_add_eq] at hlater
    exact hlater.mono Nat.lt_of_succ_lt_succ
  · rintro ⟨hfirst, hlater⟩ cs rest hs hroom hend
    cases cs with
    | nil =>
      obtain rfl : v.octets = rest := hs
      exact hfirst.mono fun _ => Nat.succ_pos _
    | cons c cs =>
      rw [componentLengths_cons] at hroom hend ⊢
      rw [List.flatMap_cons, List.append_assoc] at hs
      have h := hlater c _ hs (by omega) cs rest rfl (by dsimp only; omega) (by omega)
      rw [Nat.sub_add_eq]
      exact h.mono Nat.succ_lt_succ

theorem contentFits_done (hlen : ¬len < contentLength) (v : BoundedView) :
    ContentFits contentLength slots len v :=
  fun _ _ _ _ hend => absurd (Nat.lt_of_le_of_lt (Nat.le_add_right ..) hend) hlen

theorem reachEnd_done (hlen : ¬len < contentLength) (cs : List PfComponent) :
    ReachEnd contentLength len cs ↔ cs = [] := by
  cases cs with
  | nil => exact iff_of_true (Nat.le_of_not_lt hlen) rfl
  | cons c cs => exact iff_of_false (fun h => hlen h.1) (by simp)

/-- Where the length counts the components, the last of them reaches the end. -/
theorem reachEnd_of_eq {cs : List PfComponent} (h : len + componentLengths cs = contentLength) :
    ReachEnd contentLength len cs := by
  induction cs generalizing len with
  | nil => exact h.ge
  | cons c cs ih =>
    rw [componentLengths_cons] at h
    have hpos : 0 < c.octets.length := Nat.succ_pos _
    exact ⟨by omega, ih (by omega)⟩

theorem parseComponents_walks (contentLength slots len : Nat) :
    Walks (parseComponents contentLength slots len)
      (fun cs octets => (cs.length ≤ slots ∧ ReachEnd contentLength len cs) ∧
        octets = cs.flatMap PfComponent.octets)
      (ContentFits contentLength slots len) := by
  have hdone (slots len : Nat) (hlen : ¬len < contentLength) :
      Walks (Pure.pure []) (fun cs octets => (cs.length ≤ slots ∧ ReachEnd contentLength len cs) ∧
        octets = cs.flatMap PfComponent.octets) (ContentFits contentLength slots len) := by
    refine (Walks.pure []).congr (fun cs octets => ?_)
      fun v => iff_of_true trivial (contentFits_done hlen v)
    rw [reachEnd_done hlen]
    constructor
    · rintro ⟨rfl, rfl⟩
      simp
    · rintro ⟨⟨-, rfl⟩, rfl⟩
      exact ⟨rfl, rfl⟩
  induction slots generalizing len with
  | zero =>
    rw [parseComponents]
    split_ifs with hlen
    · have hfault (x : UInt8) : Walks (fun _ => .error (.fault .outOfBounds) :
          BoundedRead (List PfComponent)) (fun _ _ => False) fun _ => False :=
        ⟨iff_of_false (fun h => by cases h) (by simp), iff_of_true ⟨_, rfl⟩ not_false⟩
      refine (Walks.octet hfault).congr (fun cs octets => ?_) fun v => ?_
      · refine iff_of_false (by simp) ?_
        rintro ⟨⟨hslots, hend⟩, rfl⟩
        obtain rfl := List.length_eq_zero_iff.mp (Nat.le_zero.mp hslots)
        exact absurd hlen (Nat.not_lt.mpr hend)
      · refine ⟨fun h cs rest _ hleft _ hroom => ?_, fun h hroom => ?_⟩
        · obtain ⟨_, _, _, hfalse⟩ := h (by dsimp only at hroom; omega)
          exact hfalse.elim
        · exact absurd (h [] v.octets rfl (Nat.zero_le _) hlen hroom).1 (Nat.lt_irrefl _)
    · exact hdone 0 len hlen
  | succ slots ih =>
    rw [parseComponents]
    split_ifs with hlen
    · refine (Walks.octet fun type => (parseFields_walks type).bind fun c =>
        (ih (len + c.octets.length)).bind fun rest => Walks.pure (c :: rest)).congr
          (fun cs octets => ?_) fun v => ?_
      · constructor
        · rintro ⟨_, _, ⟨c, _, _, ⟨rfl, rfl⟩,
            ⟨cs, _, _, ⟨⟨hslots, hend⟩, rfl⟩, ⟨rfl, rfl⟩, rfl⟩, rfl⟩, rfl⟩
          exact ⟨⟨Nat.succ_le_succ hslots, hlen, hend⟩, by simp [PfComponent.octets]⟩
        · rintro ⟨⟨hslots, hend⟩, rfl⟩
          cases cs with
          | nil => exact absurd hlen (Nat.not_lt.mpr hend)
          | cons c cs =>
            exact ⟨c.type, _, ⟨c, c.fields, _, ⟨rfl, rfl⟩,
              ⟨cs, _, [], ⟨⟨Nat.le_of_succ_le_succ hslots, hend.2⟩, rfl⟩, ⟨rfl, rfl⟩, rfl⟩, rfl⟩,
              by simp [PfComponent.octets]⟩
      · rw [contentFits_succ hlen]
        refine ⟨fun h => ⟨fun hroom => ?_, fun c rest hs hroom => ?_⟩, fun h hroom => ?_⟩
        · obtain ⟨type, rest, hs, hfields, -⟩ := h hroom
          exact ⟨trivial, type, rest, hs, hfields⟩
        · obtain ⟨type, t, ht, -, hnext⟩ := h (Nat.le_trans (Nat.succ_pos _) hroom)
          cases ht.symm.trans hs
          have hlater := (hnext c c.fields rest ⟨rfl, rfl⟩ rfl (Nat.le_sub_of_add_le hroom)).1
          rw [Nat.sub_sub, Nat.add_comm 1] at hlater
          exact hlater
        · obtain ⟨-, type, rest, hs, hfields⟩ := h.1 hroom
          refine ⟨type, rest, hs, hfields, ?_⟩
          rintro c _ t ⟨rfl, rfl⟩ rfl hleft
          refine ⟨?_, by simp⟩
          have hlater := h.2 c t hs (by
            rw [PfComponent.octets, List.length_cons]
            dsimp only at hleft
            omega)
          rw [Nat.sub_sub, Nat.add_comm 1]
          exact hlater
    · exact hdone _ len hlen

/-! ## Packet filters -/

/-- The components fit their array, and the content ends inside the last one or behind it. -/
def QosPacketFilter.Taken (code : QosCode) (pf : QosPacketFilter) : Prop :=
  if code.hasBareFilters then pf.content = {}
  else pf.content.component.length ≤ maxNumOfPacketFilterComponent ∧
    ReachEnd pf.content.length.toNat 0 pf.content.component

/-- The flags are there if there is room for them, likewise the length of the content, and what
begins in the content fits. -/
def FilterFits (code : QosCode) (v : BoundedView) : Prop :=
  1 ≤ v.room → ∃ flags rest, v.octets = flags :: rest ∧
    (¬code.hasBareFilters → 1 ≤ v.room - 1 → ∃ length t, rest = length :: t ∧
      ContentFits length.toNat maxNumOfPacketFilterComponent 0 ⟨t, v.room - 1 - 1⟩)

/-- Wherever one of the `n` packet filters begins, it fits. -/
def FiltersFit (code : QosCode) (n : Nat) (v : BoundedView) : Prop :=
  ∀ (pfs : List QosPacketFilter) (rest : List UInt8),
    v.octets = pfs.flatMap (QosPacketFilter.build code) ++ rest → (∀ pf ∈ pfs, pf.Taken code) →
    pfs.length < n → (pfs.flatMap (QosPacketFilter.build code)).length ≤ v.room →
    FilterFits code ⟨rest, v.room - (pfs.flatMap (QosPacketFilter.build code)).length⟩

/-- What is read of one packet filter. -/
def parsePacketFilter (code : QosCode) : BoundedRead QosPacketFilter := do
  let flags ← copyOctet
  if code.hasBareFilters then return ⟨flags, {}⟩
  else do
    let length ← copyOctet
    let component ← parseComponents length.toNat maxNumOfPacketFilterComponent 0
    return ⟨flags, ⟨length, component⟩⟩

theorem parsePacketFilters_succ (code : QosCode) (n : Nat) :
    parsePacketFilters code (n + 1) = (do
      let pf ← parsePacketFilter code
      let rest ← parsePacketFilters code n
      return pf :: rest) := by
  rw [parsePacketFilters, parsePacketFilter]
  split_ifs <;> simp

theorem parsePacketFilter_walks (code : QosCode) :
    Walks (parsePacketFilter code) (fun pf octets => pf.Taken code ∧ octets = pf.build code)
      (FilterFits code) := by
  unfold parsePacketFilter
  by_cases hcode : code.hasBareFilters
  · simp only [if_pos hcode]
    refine (Walks.octet fun flags => Walks.pure (QosPacketFilter.mk flags {})).congr
      (fun pf octets => ?_) fun v => ?_
    · simp only [QosPacketFilter.Taken, QosPacketFilter.build, if_pos hcode]
      constructor
      · rintro ⟨flags, _, ⟨rfl, rfl⟩, rfl⟩
        exact ⟨rfl, rfl⟩
      · obtain ⟨flags, content⟩ := pf
        rintro ⟨rfl, rfl⟩
        exact ⟨flags, [], ⟨rfl, rfl⟩, rfl⟩
    · simp [FilterFits, hcode]
  · simp only [if_neg hcode]
    refine (Walks.octet fun flags => Walks.octet fun length =>
      (parseComponents_walks length.toNat maxNumOfPacketFilterComponent 0).bind fun component =>
        Walks.pure (QosPacketFilter.mk flags ⟨length, component⟩)).congr (fun pf octets => ?_)
        fun v => ?_
    · simp only [QosPacketFilter.Taken, QosPacketFilter.build, if_neg hcode]
      constructor
      · rintro ⟨flags, _, ⟨length, _, ⟨cs, _, _, ⟨hcs, rfl⟩, ⟨rfl, rfl⟩, rfl⟩, rfl⟩, rfl⟩
        exact ⟨hcs, by simp⟩
      · obtain ⟨flags, length, cs⟩ := pf
        rintro ⟨hcs, rfl⟩
        exact ⟨flags, _, ⟨length, _, ⟨cs, _, [], ⟨hcs, rfl⟩, ⟨rfl, rfl⟩, rfl⟩, rfl⟩, by simp⟩
    · simp [FilterFits, hcode]

theorem parsePacketFilters_walks (code : QosCode) (n : Nat) :
    Walks (parsePacketFilters code n)
      (fun pfs octets => (pfs.length = n ∧ ∀ pf ∈ pfs, pf.Taken code) ∧
        octets = pfs.flatMap (QosPacketFilter.build code)) (FiltersFit code n) := by
  induction n with
  | zero =>
    refine (Walks.pure []).congr (fun pfs octets => ⟨?_, ?_⟩) fun v => ?_
    · rintro ⟨rfl, rfl⟩
      simp
    · rintro ⟨⟨hlength, -⟩, rfl⟩
      obtain rfl := List.length_eq_zero_iff.mp hlength
      exact ⟨rfl, rfl⟩
    · exact iff_of_true trivial fun pfs rest _ _ hlength => absurd hlength (Nat.not_lt_zero _)
  | succ n ih =>
    rw [parsePacketFilters_succ]
    refine ((parsePacketFilter_walks code).bind fun pf => ih.bind fun rest =>
      Walks.pure (pf :: rest)).congr (fun pfs octets => ⟨?_, ?_⟩) fun v => ?_
    · rintro ⟨pf, _, _, ⟨hpf, rfl⟩, ⟨pfs, _, _, ⟨⟨hlength, hpfs⟩, rfl⟩, ⟨rfl, rfl⟩, rfl⟩, rfl⟩
      exact ⟨⟨by rw [List.length_cons, hlength], List.forall_mem_cons.mpr ⟨hpf, hpfs⟩⟩, by simp⟩
    · rintro ⟨⟨hlength, hpfs⟩, rfl⟩
      cases pfs with
      | nil => cases hlength
      | cons pf pfs =>
        obtain ⟨hpf, hpfs⟩ := List.forall_mem_cons.mp hpfs
        exact ⟨pf, _, _, ⟨hpf, rfl⟩, ⟨pfs, _, [], ⟨⟨Nat.succ.inj hlength, hpfs⟩, rfl⟩,
          ⟨rfl, rfl⟩, rfl⟩, by simp⟩
    · constructor
      · rintro ⟨hfirst, hlater⟩ pfs rest hs hpfs hlength hroom
        cases pfs with
        | nil =>
          obtain rfl : v.octets = rest := hs
          exact hfirst
        | cons pf pfs =>
          obtain ⟨hpf, hpfs⟩ := List.forall_mem_cons.mp hpfs
          rw [List.flatMap_cons, List.append_assoc] at hs
          rw [List.flatMap_cons, List.length_append] at hroom ⊢
          rw [Nat.sub_add_eq]
          exact (hlater pf _ _ ⟨hpf, rfl⟩ hs (by omega)).1 pfs rest rfl hpfs
            (Nat.lt_of_succ_lt_succ hlength) (by dsimp only; omega)
      · intro h
        refine ⟨h [] v.octets rfl (by simp) (Nat.succ_pos _) (Nat.zero_le _), ?_⟩
        rintro pf _ rest ⟨hpf, rfl⟩ hs hroom
        refine ⟨fun pfs t ht hpfs hlength hleft => ?_, by simp⟩
        dsimp only at ht hleft ⊢
        have hlater := h (pf :: pfs) t (by rw [hs, ht, List.flatMap_cons, List.append_assoc])
          (List.forall_mem_cons.mpr ⟨hpf, hpfs⟩) (Nat.succ_lt_succ hlength)
          (by rw [List.flatMap_cons, List.length_append]; omega)
        rwa [List.flatMap_cons, List.length_append, Nat.sub_add_eq] at hlater

/-- The components fit their array, and their octets are counted. -/
structure QosPacketFilter.WellFormed (pf : QosPacketFilter) : Prop where
  count : pf.content.component.length ≤ maxNumOfPacketFilterComponent
  consistent :
    pf.content.length.toNat = (pf.content.component.flatMap PfComponent.octets).length

theorem parsePacketFilters_copies (code : QosCode) (pfs : List QosPacketFilter)
    (hgood : ∀ pf ∈ pfs, pf.WellFormed)
    (hbare : code.hasBareFilters → ∀ pf ∈ pfs, pf.content = {}) :
    Copies (parsePacketFilters code pfs.length) (pfs.flatMap (QosPacketFilter.build code)) pfs := by
  refine (parsePacketFilters_walks code pfs.length).copies ⟨⟨rfl, fun pf hpf => ?_⟩, rfl⟩
  rw [QosPacketFilter.Taken]
  split_ifs with hcode
  · exact hbare hcode pf hpf
  · have hgood := hgood pf hpf
    exact ⟨hgood.count, reachEnd_of_eq ((Nat.zero_add _).trans hgood.consistent.symm)⟩

theorem length_flatMap_bare (hcode : code.hasBareFilters) (pfs : List QosPacketFilter) :
    (pfs.flatMap (QosPacketFilter.build code)).length = pfs.length := by
  unfold QosPacketFilter.build
  simp [hcode, List.length_flatMap]

/-- With contents there are two octets of each packet filter, and its components. -/
theorem le_length_flatMap_build (hcode : ¬code.hasBareFilters) (pfs : List QosPacketFilter) :
    2 * pfs.length ≤ (pfs.flatMap (QosPacketFilter.build code)).length := by
  induction pfs with
  | nil => simp
  | cons pf pfs ih =>
    rw [List.flatMap_cons, List.length_append, QosPacketFilter.build, if_neg hcode]
    simp only [List.length_cons]
    omega

/-! ## One rule -/

/-- What the operation of a rule asks of it. -/
structure QosRule.WellFormed (r : QosRule) : Prop where
  notReserved : r.code ≠ 0 ∧ r.code ≠ 7
  count : r.pf.length ≤ maxNumOfFlowInNas
  filters : ∀ pf ∈ r.pf, pf.WellFormed
  noFilters : r.code.hasNoFilters → r.pf = []
  bareFilters : r.code.hasBareFilters → ∀ pf ∈ r.pf, pf.content = {}

/-- The fields that the octets of a rule carry. -/
structure QosRule.Same (r parsed : QosRule) : Prop where
  identifier : parsed.identifier = r.identifier
  code : parsed.code = r.code
  dqrBit : parsed.dqrBit = r.dqrBit
  pf : parsed.pf = r.pf
  precedence : r.code.carriesFlow → parsed.precedence = r.precedence
  flow : r.code.carriesFlow → parsed.flow = r.flow

/-- In the layout of the code `first` nothing is lost of the rule. -/
def QosRule.Fits (first : QosCode) (r : QosRule) : Prop :=
  if first.carriesFlow then
    r.code.carriesFlow ∨ r.code = .modifyExistingQosRuleWithoutModifyingPacketFilters ∨
      r.code.hasBareFilters ∧ r.pf = []
  else if r.code.carriesFlow then
    r.code ≠ .createNewQosRule ∧ r.pf = [] ∧ r.precedence = 0 ∧ r.flow = 0
  else first.hasBareFilters ∨ r.pf = []

theorem QosCode.carriesFlow_iff (code : QosCode) :
    code.carriesFlow ↔ ¬code.hasNoFilters ∧ ¬code.hasBareFilters := by
  decide +revert

/-- A code without precedence and flow has no packet filters or bare ones, and not both. -/
theorem QosCode.not_carriesFlow_iff (code : QosCode) :
    ¬code.carriesFlow ↔ code.hasNoFilters ∧ ¬code.hasBareFilters ∨
      code.hasBareFilters ∧ ¬code.hasNoFilters := by
  decide +revert

theorem QosCode.hasNoFilters_iff (code : QosCode) :
    code.hasNoFilters ↔ code = deleteExistingQosRule ∨
      code = modifyExistingQosRuleWithoutModifyingPacketFilters := by
  decide +revert

theorem flags_fields (code : QosCode) (dqrBit : Bool) (n : Fin 16) :
    let flags := UInt8.ofNat (code.val <<< 5 ||| (dqrBit.toNat <<< 4 ||| n.val))
    flags.toNat >>> 5 = code.val ∧ flags.toNat &&& 0xf = n.val ∧
      decide (flags.toNat >>> 4 &&& 1 ≠ 0) = dqrBit := by
  decide +revert

section Rule

variable {r : QosRule} {first : QosCode} {octets rest : List UInt8}

/-- The octets of the packet filters. -/
def QosRule.filterOctets (first : QosCode) (r : QosRule) : List UInt8 :=
  r.pf.flatMap (QosPacketFilter.build first)

/-- The octets `m + 1` and `m + 2`. -/
def QosRule.trailing (first : QosCode) (r : QosRule) : List UInt8 :=
  if first.carriesFlow then [r.precedence, r.flow] else []

theorem QosRule.body_eq : r.body first = r.flags :: (r.filterOctets first ++ r.trailing first) := rfl

theorem QosRule.length_trailing_le : (r.trailing first).length ≤ 2 := by
  rw [trailing]
  split_ifs <;> simp

theorem QosRule.WellFormed.length_filterOctets_le (hgood : r.WellFormed) :
    (r.filterOctets first).length ≤ 257 * r.pf.length := by
  have hone : ∀ pf ∈ r.pf, (QosPacketFilter.build first pf).length ≤ 257 := by
    intro pf hpf
    have hlen := (hgood.filters pf hpf).consistent
    have hmax := pf.content.length.toNat_lt
    rw [QosPacketFilter.build]
    split_ifs
    · simp
    · simp only [List.length_cons]
      omega
  exact length_flatMap_le hone

theorem QosRule.WellFormed.length_body_le (hgood : r.WellFormed) :
    (r.body first).length ≤ 3858 := by
  have hfilters : (r.filterOctets first).length ≤ 257 * r.pf.length := hgood.length_filterOctets_le
  have htrailing : (r.trailing first).length ≤ 2 := length_trailing_le
  have hcount : r.pf.length ≤ 15 := hgood.count
  rw [body_eq, List.length_cons, List.length_append]
  omega

/-- Behind the flags the code and the number of packet filters are those of the rule. -/
theorem parseBody_flags (hgood : r.WellFormed) (length : UInt16) (octets : List UInt8) :
    parseBody r.identifier length r.flags octets = (do
      let (pf, v) ← parsePacketFilters r.code r.pf.length ⟨octets, length.toNat - 1⟩
      let ((precedence, flow), v) ←
        parseTrailing r.code length.toNat (length.toNat - 1 - v.room) (.whole v.octets)
      return (⟨r.identifier, length, r.code, r.dqrBit, pf, precedence, flow⟩, v.octets)) := by
  obtain ⟨hcode, hcount, hdqr⟩ :=
    flags_fields r.code r.dqrBit ⟨r.pf.length, Nat.lt_succ_of_le hgood.count⟩
  change r.flags.toNat >>> 5 = _ at hcode
  change r.flags.toNat &&& 0xf = _ at hcount
  change decide (r.flags.toNat >>> 4 &&& 1 ≠ 0) = _ at hdqr
  have hfilters : ¬(r.code.hasNoFilters = true ∧ r.pf.length ≠ 0) := by
    rintro ⟨hnone, hlen⟩
    exact hlen (by rw [hgood.noFilters hnone, List.length_nil])
  have hreserved : ¬(r.code = 0 ∨ r.code = 7) := by
    rintro (h | h)
    · exact hgood.notReserved.1 h
    · exact hgood.notReserved.2 h
  unfold parseBody
  simp only [hcode, hcount, hdqr, Fin.eta, if_neg hreserved, if_neg hfilters]

theorem QosRule.length_filterOctets_of_bare (hfirst : ¬first.hasBareFilters)
    (hpf : ∀ pf ∈ r.pf, pf.content = {}) : (r.filterOctets first).length = 2 * r.pf.length := by
  rw [filterOctets]
  generalize r.pf = pfs at hpf ⊢
  induction pfs with
  | nil => rfl
  | cons pf pfs ih =>
    rw [List.flatMap_cons, List.length_append, ih fun x hx => hpf x (List.mem_cons_of_mem _ hx),
      QosPacketFilter.build, if_neg hfirst, hpf pf List.mem_cons_self, List.flatMap_nil]
    simp only [List.length_cons, List.length_nil]
    omega

/-- The header of a rule is read back, whatever the layout behind it is. -/
theorem parseQosRule_header (hgood : r.WellFormed) (rest : List UInt8) :
    parseQosRule (r.identifier :: octetsBE 2 (r.body first).length ++ r.body first ++ rest) = (do
      let (pf, v) ← parsePacketFilters r.code r.pf.length
        ⟨r.filterOctets first ++ (r.trailing first ++ rest), (r.body first).length - 1⟩
      let ((precedence, flow), v) ← parseTrailing r.code (r.body first).length
        ((r.body first).length - 1 - v.room) (.whole v.octets)
      return (⟨r.identifier, .ofNat (r.body first).length, r.code, r.dqrBit, pf, precedence, flow⟩,
        v.octets)) := by
  have hmax : (r.body first).length ≤ 3858 := hgood.length_body_le
  have hpos : 0 < (r.body first).length := Nat.succ_pos _
  generalize hlen : (r.body first).length = len at hmax hpos ⊢
  have hvalue : (UInt16.ofNat len).toNat = len := by
    rw [UInt16.toNat_ofNat']
    omega
  have hzero : UInt16.ofNat len ≠ 0 := by
    intro h
    rw [h] at hvalue
    have : (0 : UInt16).toNat = 0 := rfl
    omega
  have hlength := (copyBe16_copies (.ofNat len)).whole (r.body first ++ rest)
  rw [PfComponent.htobe16, hvalue] at hlength
  have hbody := parseBody_flags hgood (.ofNat len)
    (r.filterOctets first ++ (r.trailing first ++ rest))
  rw [hvalue] at hbody
  rw [← hbody, List.cons_append, List.cons_append, List.append_assoc]
  unfold parseQosRule
  rw [(copyOctet_copies r.identifier).whole_cons, ok_bind]
  dsimp only
  rw [hlength, ok_bind]
  dsimp only
  rw [if_neg hzero, QosRule.body_eq, List.cons_append, (copyOctet_copies r.flags).whole_cons,
    ok_bind, List.append_assoc]
  rfl

theorem parseTrailing_none (code : QosCode) (rc : Nat) (octets : List UInt8) :
    parseTrailing code (1 + rc) rc (.whole octets) =
      if code = .createNewQosRule then .error .cleanup else .ok ((0, 0), .whole octets) := by
  unfold parseTrailing
  rw [if_pos rfl]
  split_ifs <;> rfl

theorem parseTrailing_both (code : QosCode) (rc : Nat) (precedence flow : UInt8)
    (rest : List UInt8) :
    parseTrailing code (1 + rc + 1 + 1) rc (.whole (precedence :: flow :: rest)) =
      if code = .deleteExistingQosRule then .error .cleanup
      else .ok ((precedence, flow), .whole rest) := by
  unfold parseTrailing
  rw [if_neg (by omega), if_neg (by omega), if_pos rfl]
  rw [BoundedRead.bind_run ((copyOctet_copies precedence).whole_cons (flow :: rest))]
  by_cases hcode : code = .deleteExistingQosRule
  · rw [if_pos hcode, if_pos hcode]
    rfl
  · rw [if_neg hcode, if_neg hcode,
      BoundedRead.bind_run ((copyOctet_copies flow).whole_cons rest)]
    rfl

/-- Where the packet filters are laid out as the code of the rule has them, they are read back. -/
theorem parseQosRule_aligned (hgood : r.WellFormed)
    (hpf : r.pf = [] ∨ r.code.hasBareFilters = first.hasBareFilters) (rest : List UInt8) :
    parseQosRule (r.identifier :: octetsBE 2 (r.body first).length ++ r.body first ++ rest) =
      if first.carriesFlow then
        if r.code = .deleteExistingQosRule then .error .cleanup
        else .ok (⟨r.identifier, .ofNat (r.body first).length, r.code, r.dqrBit, r.pf,
          r.precedence, r.flow⟩, rest)
      else if r.code = .createNewQosRule then .error .cleanup
      else .ok (⟨r.identifier, .ofNat (r.body first).length, r.code, r.dqrBit, r.pf, 0, 0⟩, rest)
    := by
  have hsame : r.filterOctets first = r.filterOctets r.code := by
    rcases hpf with hnil | hbare
    · rw [QosRule.filterOctets, QosRule.filterOctets, hnil, List.flatMap_nil, List.flatMap_nil]
    · unfold QosRule.filterOctets QosPacketFilter.build
      rw [hbare]
  have hlen : (r.body first).length =
      1 + (r.filterOctets first).length + (r.trailing first).length := by
    rw [QosRule.body_eq, List.length_cons, List.length_append]
    omega
  have hfilters := parsePacketFilters_copies r.code r.pf hgood.filters hgood.bareFilters
    (r.trailing first ++ rest) ((r.body first).length - 1)
  change (r.filterOctets r.code).length ≤ _ → parsePacketFilters _ _ ⟨r.filterOctets r.code ++ _, _⟩
    = .ok (_, ⟨_, _ - (r.filterOctets r.code).length⟩) at hfilters
  rw [← hsame] at hfilters
  rw [parseQosRule_header hgood, hfilters (by omega), ok_bind]
  dsimp only
  have hrc : (r.body first).length - 1 - ((r.body first).length - 1 - (r.filterOctets first).length)
      = (r.filterOctets first).length := by omega
  rw [hrc]
  by_cases hflow : first.carriesFlow
  · have htrailing : r.trailing first = [r.precedence, r.flow] := if_pos hflow
    have htotal : (r.body first).length = 1 + (r.filterOctets first).length + 1 + 1 := by
      rw [hlen, htrailing, List.length_cons, List.length_cons, List.length_nil]
    rw [if_pos hflow, htrailing, htotal]
    change (parseTrailing _ _ _ (.whole (r.precedence :: r.flow :: rest)) >>= fun x => _) = _
    rw [parseTrailing_both]
    split_ifs <;> rfl
  · have htrailing : r.trailing first = [] := if_neg hflow
    have htotal : (r.body first).length = 1 + (r.filterOctets first).length := by
      rw [hlen, htrailing, List.length_nil, Nat.add_zero]
    rw [if_neg hflow, htrailing, htotal, List.nil_append, parseTrailing_none]
    split_ifs <;> rfl

/-- Packet filters without content where content is expected, or content where none is. -/
theorem parseQosRule_misaligned (hgood : r.WellFormed) (hpf : r.pf ≠ [])
    (hbare : r.code.hasBareFilters ≠ first.hasBareFilters) (hfirst : ¬first.hasNoFilters)
    {parsed : QosRule × List UInt8} :
    parseQosRule (r.identifier :: octetsBE 2 (r.body first).length ++ r.body first ++ rest) ≠
      .ok parsed := by
  intro h
  rw [parseQosRule_header hgood] at h
  obtain ⟨⟨pf, v⟩, hparse, h⟩ := bind_eq_ok.mp h
  obtain ⟨_, ⟨⟨hcount, -⟩, rfl⟩, -, hroom⟩ := (parsePacketFilters_walks _ _).ok_iff.mp hparse
  dsimp only at hroom h
  have hn : 0 < r.pf.length := List.length_pos_iff.mpr hpf
  have hlen : (r.body first).length =
      1 + (r.filterOctets first).length + (r.trailing first).length := by
    rw [QosRule.body_eq, List.length_cons, List.length_append]
    omega
  by_cases hown : r.code.hasBareFilters
  · have hother : ¬first.hasBareFilters := fun h => hbare (hown.trans h.symm)
    have hflow : first.carriesFlow := first.carriesFlow_iff.mpr ⟨hfirst, hother⟩
    have hfilters := QosRule.length_filterOctets_of_bare hother (hgood.bareFilters hown)
    have htrailing : (r.trailing first).length = 2 := by
      rw [QosRule.trailing, if_pos hflow]
      rfl
    rw [length_flatMap_bare hown, hcount] at hroom
    -- The octet count says `2 n + 3`, the packet filters have taken `n`.
    have hrc : (r.body first).length - 1 - v.room = r.pf.length := by omega
    have htotal : (r.body first).length = 2 * r.pf.length + 3 := by omega
    rw [hrc, htotal, parseTrailing, if_neg (by omega), if_neg (by omega), if_neg (by omega)] at h
    cases h
  · have hother : first.hasBareFilters := by
      cases hf : first.hasBareFilters with
      | true => rfl
      | false => exact absurd (hf.trans (Bool.eq_false_iff.mpr hown).symm).symm hbare
    have hfilters : (r.filterOctets first).length = _ := length_flatMap_bare hother r.pf
    have htrailing : (r.trailing first).length = 0 := by
      have hflow : ¬first.carriesFlow := fun h => (first.carriesFlow_iff.mp h).2 hother
      rw [QosRule.trailing, if_neg hflow]
      rfl
    have hspent := le_length_flatMap_build hown pf
    omega

theorem QosRule.build_ok_iff :
    r.build first = .ok octets ↔ (first.hasNoFilters → r.pf = []) ∧
      octets = r.identifier :: octetsBE 2 (r.body first).length ++ r.body first := by
  rw [build]
  split_ifs with h
  · simp [h.1, h.2]
  · simp only [not_and, not_not] at h
    constructor
    · intro hok
      exact ⟨h, (Except.ok.inj hok).symm⟩
    · rintro ⟨-, rfl⟩
      rfl

/-- A rule that fits is written with its packet filters as its own code has them. -/
theorem QosRule.Fits.aligned (hgood : r.WellFormed) (hfits : r.Fits first) :
    (first.hasNoFilters → r.pf = []) ∧
      (r.pf = [] ∨ r.code.hasBareFilters = first.hasBareFilters) := by
  by_cases hpf : r.pf = []
  · exact ⟨fun _ => hpf, .inl hpf⟩
  have hown : ¬r.code.hasNoFilters := fun h => hpf (hgood.noFilters h)
  unfold QosRule.Fits at hfits
  split_ifs at hfits with hfirst hflow
  · obtain ⟨hfilters, hbare⟩ := first.carriesFlow_iff.mp hfirst
    rcases hfits with hflow | hcode | ⟨-, hnil⟩
    · obtain ⟨-, hbare'⟩ := r.code.carriesFlow_iff.mp hflow
      exact ⟨fun h => absurd h hfilters, .inr (by simp only [hbare, hbare'])⟩
    · exact absurd (r.code.hasNoFilters_iff.mpr (.inr hcode)) hown
    · exact absurd hnil hpf
  · exact absurd hfits.2.1 hpf
  · rcases hfits with hbare | hnil
    · rcases r.code.not_carriesFlow_iff.mp hflow with ⟨h, -⟩ | ⟨hbare', -⟩
      · exact absurd h hown
      · rcases first.not_carriesFlow_iff.mp hfirst with ⟨-, h⟩ | ⟨-, hfilters⟩
        · exact absurd hbare h
        · exact ⟨fun h => absurd h hfilters, .inr (hbare'.trans hbare.symm)⟩
    · exact absurd hnil hpf

/-- A rule that fits is written and read back, and nothing behind it is touched. -/
theorem QosRule.Fits.kept (hgood : r.WellFormed) (hfits : r.Fits first) :
    ∃ octets, r.build first = .ok octets ∧ ∀ rest, ∃ parsed,
      parseQosRule (octets ++ rest) = .ok (parsed, rest) ∧ r.Same parsed := by
  obtain ⟨hnone, haligned⟩ := hfits.aligned hgood
  refine ⟨_, build_ok_iff.mpr ⟨hnone, rfl⟩, fun rest => ?_⟩
  rw [parseQosRule_aligned hgood haligned]
  unfold QosRule.Fits at hfits
  split_ifs at hfits with hfirst hflow
  · have hdelete : r.code ≠ .deleteExistingQosRule := by
      intro h
      rw [h] at hfits
      rcases hfits with hflow | hcode | ⟨hbare, -⟩
      · exact absurd hflow (by decide)
      · exact absurd hcode (by decide)
      · exact absurd hbare (by decide)
    rw [if_pos hfirst, if_neg hdelete]
    exact ⟨_, rfl, rfl, rfl, rfl, rfl, fun _ => rfl, fun _ => rfl⟩
  · obtain ⟨hcreate, -, hprecedence, hzero⟩ := hfits
    rw [if_neg hfirst, if_neg hcreate]
    exact ⟨_, rfl, rfl, rfl, rfl, rfl, fun _ => hprecedence.symm, fun _ => hzero.symm⟩
  · have hcreate : r.code ≠ .createNewQosRule := by
      intro h
      rw [h] at hflow
      exact hflow rfl
    rw [if_neg hfirst, if_neg hcreate]
    exact ⟨_, rfl, rfl, rfl, rfl, rfl, fun h => absurd h hflow, fun h => absurd h hflow⟩

/-- What is read back from the octets of a rule fits. -/
theorem QosRule.fits_of_kept (hgood : r.WellFormed) {rest' : List UInt8} {parsed : QosRule}
    (hbuild : r.build first = .ok octets)
    (hparse : parseQosRule (octets ++ rest) = .ok (parsed, rest')) (hsame : r.Same parsed) :
    r.Fits first := by
  obtain ⟨hnone, rfl⟩ := build_ok_iff.mp hbuild
  by_cases haligned : r.pf = [] ∨ r.code.hasBareFilters = first.hasBareFilters
  · rw [parseQosRule_aligned hgood haligned] at hparse
    unfold QosRule.Fits
    split_ifs at hparse ⊢ with hfirst hcode hflow hcode hflow
    · by_cases hflow : r.code.carriesFlow
      · exact .inl hflow
      rcases r.code.not_carriesFlow_iff.mp hflow with ⟨h, -⟩ | ⟨hbare, -⟩
      · exact .inr (.inl ((r.code.hasNoFilters_iff.mp h).resolve_left hcode))
      · refine .inr (.inr ⟨hbare, haligned.resolve_right fun h => ?_⟩)
        exact (first.carriesFlow_iff.mp hfirst).2 (h.symm.trans hbare)
    · cases hparse
      refine ⟨hcode, ?_, (hsame.precedence hflow).symm, (hsame.flow hflow).symm⟩
      rcases first.not_carriesFlow_iff.mp hfirst with ⟨h, -⟩ | ⟨hbare, -⟩
      · exact hnone h
      · exact haligned.resolve_right fun h =>
          (r.code.carriesFlow_iff.mp hflow).2 (h.trans hbare)
    · rcases first.not_carriesFlow_iff.mp hfirst with ⟨h, -⟩ | ⟨hbare, -⟩
      · exact .inr (hnone h)
      · exact .inl hbare
  · rw [not_or] at haligned
    exact absurd hparse (parseQosRule_misaligned hgood haligned.1 haligned.2 fun h =>
      haligned.1 (hnone h))

theorem QosRule.WellFormed.length_build (hgood : r.WellFormed) (hbuild : r.build first = .ok octets) :
    0 < octets.length ∧ octets.length ≤ 3861 := by
  obtain ⟨-, rfl⟩ := build_ok_iff.mp hbuild
  have hmax : (r.body first).length ≤ 3858 := hgood.length_body_le
  rw [List.cons_append, List.length_cons, List.length_append, length_octetsBE]
  omega

end Rule

/-! ## Lists of rules -/

/-- The octets of each of the rules, in the layout of one code. -/
abbrev BuiltFrom (code : QosCode) : List QosRule → List (List UInt8) → Prop :=
  List.Forall₂ fun r octets => r.build code = .ok octets

variable {code : QosCode} {rules : List QosRule} {blocks : List (List UInt8)}

theorem appendQosRules_eq_ok {buffer out : List UInt8}
    (h : appendQosRules code rules buffer = .ok out) :
    ∃ blocks, BuiltFrom code rules blocks ∧ out = buffer ++ blocks.flatten := by
  induction rules generalizing buffer with
  | nil =>
    cases h
    exact ⟨[], .nil, by simp⟩
  | cons r rules ih =>
    obtain ⟨octets, hbuild, h⟩ := bind_eq_ok.mp h
    split_ifs at h
    obtain ⟨blocks, hblocks, rfl⟩ := ih h
    exact ⟨octets :: blocks, .cons hbuild hblocks, by simp⟩

/-- With room for all the octets nothing is asserted on the way. -/
theorem BuiltFrom.append (h : BuiltFrom code rules blocks) (buffer : List UInt8)
    (hroom : buffer.length + blocks.flatten.length ≤ maxQosRulesLen) :
    appendQosRules code rules buffer = .ok (buffer ++ blocks.flatten) := by
  induction h generalizing buffer with
  | nil => simp [appendQosRules]
  | @cons r octets rules blocks hbuild _ ih =>
    rw [List.flatten_cons, List.length_append] at hroom
    rw [appendQosRules, hbuild, ok_bind, if_neg (by omega), ih _ (by
      rw [List.length_append]
      omega), List.append_assoc, List.flatten_cons]

theorem BuiltFrom.length_le (h : BuiltFrom code rules blocks) (hgood : ∀ r ∈ rules, r.WellFormed) :
    blocks.flatten.length ≤ 3861 * rules.length := by
  induction h with
  | nil => simp
  | @cons r octets rules blocks hbuild _ ih =>
    have hone := ((hgood r List.mem_cons_self).length_build hbuild).2
    have hrest := ih fun x hx => hgood x (List.mem_cons_of_mem _ hx)
    rw [List.flatten_cons, List.length_append, List.length_cons]
    omega

/-- The blocks of rules that fit. -/
theorem exists_builtFrom (hgood : ∀ r ∈ rules, r.WellFormed) (hfits : ∀ r ∈ rules, r.Fits code) :
    ∃ blocks, BuiltFrom code rules blocks := by
  induction rules with
  | nil => exact ⟨[], .nil⟩
  | cons r rules ih =>
    obtain ⟨octets, hbuild, -⟩ :=
      (hfits r List.mem_cons_self).kept (hgood r List.mem_cons_self)
    obtain ⟨blocks, hblocks⟩ := ih (fun x hx => hgood x (List.mem_cons_of_mem _ hx))
      (fun x hx => hfits x (List.mem_cons_of_mem _ hx))
    exact ⟨octets :: blocks, .cons hbuild hblocks⟩

/-- The parser goes through the blocks up to the first rule that does not fit. -/
theorem BuiltFrom.parse_iff (h : BuiltFrom code rules blocks) (hgood : ∀ r ∈ rules, r.WellFormed)
    (turns : Nat) (hturns : blocks.flatten.length < turns) :
    (∃ parsed, parseLoop turns blocks.flatten = .ok parsed ∧
      List.Forall₂ QosRule.Same rules parsed) ↔ ∀ r ∈ rules, r.Fits code := by
  induction h generalizing turns with
  | nil =>
    obtain ⟨turns, rfl⟩ := Nat.exists_eq_add_one.mpr hturns
    simp [parseLoop]
  | @cons r octets rules blocks hbuild _ ih =>
    have hr := hgood r List.mem_cons_self
    have hpos := (hr.length_build hbuild).1
    rw [List.flatten_cons, List.length_append] at hturns
    obtain ⟨turns, rfl⟩ := Nat.exists_eq_add_one.mpr (Nat.zero_lt_of_lt hturns)
    have hsome : (octets :: blocks).flatten ≠ [] := by
      rw [List.flatten_cons]
      exact List.append_ne_nil_of_left_ne_nil (List.length_pos_iff.mp hpos) _
    rw [parseLoop, if_neg hsome, List.flatten_cons, List.forall_mem_cons]
    have ih := ih (fun x hx => hgood x (List.mem_cons_of_mem _ hx)) turns (by omega)
    constructor
    · rintro ⟨parsed, hparse, hall⟩
      cases hq : parseQosRule (octets ++ blocks.flatten) with
      | error stop =>
        rw [hq] at hparse
        cases stop with
        | cleanup =>
          cases hparse
          cases hall
        | fault f => cases hparse
      | ok result =>
        obtain ⟨p, rest⟩ := result
        rw [hq] at hparse
        obtain ⟨ps, hps, hparse⟩ := bind_eq_ok.mp hparse
        cases hparse
        obtain _ | ⟨hsame, hrest⟩ := hall
        have hfits := QosRule.fits_of_kept hr hbuild hq hsame
        -- A rule that fits leaves exactly the blocks behind it.
        obtain ⟨octets', hbuild', hkept⟩ := hfits.kept hr
        obtain rfl := Except.ok.inj (hbuild.symm.trans hbuild')
        obtain ⟨p', hp', -⟩ := hkept blocks.flatten
        cases hq.symm.trans hp'
        exact ⟨hfits, ih.mp ⟨ps, hps, hrest⟩⟩
    · rintro ⟨hfits, hall⟩
      obtain ⟨octets', hbuild', hparse⟩ := hfits.kept hr
      obtain rfl := Except.ok.inj (hbuild.symm.trans hbuild')
      obtain ⟨p, hp, hsame⟩ := hparse blocks.flatten
      obtain ⟨ps, hps, hrest⟩ := ih.mpr hall
      refine ⟨p :: ps, ?_, .cons hsame hrest⟩
      rw [hp]
      dsimp only
      rw [hps, ok_bind]
      rfl

def maxNumOfQosRule : Nat := 8

/-- What `ogs_nas_parse_qos_rules` makes of the octets from `ogs_nas_build_qos_rules` are the rules
again. -/
def QosRulesKept (rules : List QosRule) : Prop :=
  ∃ buffer parsed, buildQosRules rules = .ok buffer ∧ parseQosRules buffer = .ok parsed ∧
    List.Forall₂ QosRule.Same rules parsed

section Kept

variable {first : QosRule} {rest : List QosRule}

theorem QosRulesKept.fits (hgood : ∀ r ∈ first :: rest, r.WellFormed)
    (h : QosRulesKept (first :: rest)) : ∀ r ∈ first :: rest, r.Fits first.code := by
  obtain ⟨buffer, parsed, hbuild, hparse, hall⟩ := h
  obtain ⟨blocks, hblocks, rfl⟩ := appendQosRules_eq_ok hbuild
  exact (hblocks.parse_iff hgood _ (Nat.lt_succ_self _)).mp ⟨parsed, hparse, hall⟩

theorem QosRulesKept.of_fits (hcount : (first :: rest).length ≤ maxNumOfQosRule)
    (hgood : ∀ r ∈ first :: rest, r.WellFormed) (hfits : ∀ r ∈ first :: rest, r.Fits first.code) :
    QosRulesKept (first :: rest) := by
  obtain ⟨blocks, hblocks⟩ := exists_builtFrom hgood hfits
  have hlen := hblocks.length_le hgood
  have hroom : ([] : List UInt8).length + blocks.flatten.length ≤ maxQosRulesLen := by
    simp only [List.length_nil, maxQosRulesLen, maxNumOfQosRule] at hcount ⊢
    omega
  obtain ⟨parsed, hparse, hall⟩ := (hblocks.parse_iff hgood _ (Nat.lt_succ_self _)).mpr hfits
  exact ⟨blocks.flatten, parsed, hblocks.append [] hroom, hparse, hall⟩

end Kept

/-- The rules of a list are kept exactly if each of them fits the layout of the code of the first,
which is the code that the loop of the builder asks. -/
theorem qosRules_kept_iff (first : QosRule) (rest : List QosRule)
    (hcount : (first :: rest).length ≤ maxNumOfQosRule)
    (hgood : ∀ r ∈ first :: rest, r.WellFormed) :
    QosRulesKept (first :: rest) ↔ ∀ r ∈ first :: rest, r.Fits first.code :=
  ⟨fun h => h.fits hgood, .of_fits hcount hgood⟩

/-- A new rule that matches all and one that is deleted. -/
def createdRule : QosRule :=
  ⟨1, 0, .createNewQosRule, true, [⟨0x31, ⟨1, [.matchAll]⟩⟩], 255, 9⟩

def deletedRule : QosRule := ⟨2, 0, .deleteExistingQosRule, false, [], 0, 0⟩

theorem createdRule_wellFormed : createdRule.WellFormed where
  notReserved := by decide
  count := by decide
  filters := by
    intro pf hpf
    rw [List.mem_singleton.mp hpf]
    exact ⟨by decide, by decide⟩
  noFilters := by decide
  bareFilters := by decide

theorem deletedRule_wellFormed : deletedRule.WellFormed where
  notReserved := by decide
  count := by decide
  filters := by
    intro pf hpf
    cases hpf
  noFilters := fun _ => rfl
  bareFilters := by decide

theorem qosRules_kept_iff_created :
    QosRulesKept [createdRule, createdRule] ↔
      ∀ r ∈ [createdRule, createdRule], r.Fits createdRule.code :=
  qosRules_kept_iff createdRule [createdRule] (by decide) fun r hr => by
    rcases List.mem_cons.mp hr with rfl | hr
    · exact createdRule_wellFormed
    · rw [List.mem_singleton.mp hr]
      exact createdRule_wellFormed

/-- Behind a new rule the deleted one is written with precedence and flow, at which the parser
stops. -/
theorem qosRules_not_kept :
    ∃ rules : List QosRule, rules ≠ [] ∧ rules.length ≤ maxNumOfQosRule ∧
      (∀ r ∈ rules, r.WellFormed) ∧ ¬QosRulesKept rules := by
  refine ⟨[createdRule, deletedRule], by decide, by decide, fun r hr => ?_, ?_⟩
  · rcases List.mem_cons.mp hr with rfl | hr
    · exact createdRule_wellFormed
    · rw [List.mem_singleton.mp hr]
      exact deletedRule_wellFormed
  · rintro ⟨buffer, parsed, hbuild, hparse, hall⟩
    have hbuffer : buildQosRules [createdRule, deletedRule] =
        .ok [1, 0, 6, 0x31, 0x31, 1, 1, 255, 9, 2, 0, 3, 0x40, 0, 0] := by decide
    obtain rfl := Except.ok.inj (hbuffer.symm.trans hbuild)
    have hone : (parseQosRules [1, 0, 6, 0x31, 0x31, 1, 1, 255, 9, 2, 0, 3, 0x40, 0, 0]).map
        List.length = .ok 1 := by decide
    rw [hparse] at hone
    have hparsed : parsed.length = 1 := Except.ok.inj hone
    have hlen := List.Forall₂.length_eq hall
    rw [hparsed] at hlen
    exact absurd hlen (by decide)

end Quicup.Open5gs
