import Mathlib.Data.List.Basic
import Mathlib.Tactic.Linarith
import Mathlib.Tactic.Ring

/-!
# Octet strings and unchecked cursors

A cursor walks an octet string from the front. Its primitive reads carry no
bound of their own, so a read past the end is a fault of the program and not a
value. `Reads` is the composable specification of a reader on exactly the
octets it consumes, and `Local` says that a reader has no other way to return.
Together they characterise every successful run by a split of the input.
-/

namespace Quicup

/-- The ways in which a run of the program text ends without returning. -/
inductive Fault
  /-- An octet outside the buffer is read. -/
  | outOfBounds
  /-- An absent object is dereferenced. -/
  | nullDeref
  /-- An assertion of the program fails. -/
  | assertion
  /-- An exception leaves the function. -/
  | exception
  /-- The function never returns. -/
  | hang
  deriving DecidableEq

/-! ## Big-endian numbers -/

/-- The `n` low octets of a number, most significant first. -/
def octetsBE : Nat → Nat → List UInt8
  | 0, _ => []
  | n + 1, v => UInt8.ofNat (v / 256 ^ n) :: octetsBE n v

/-- The number written by an octet string, most significant octet first. -/
def natBE (octets : List UInt8) : Nat :=
  octets.foldl (fun acc x => acc * 256 + x.toNat) 0

@[simp] theorem length_octetsBE (n v : Nat) : (octetsBE n v).length = n := by
  induction n with
  | zero => rfl
  | succ n ih => simp [octetsBE, ih]

private theorem natBE_foldl (octets : List UInt8) (acc : Nat) :
    octets.foldl (fun a x => a * 256 + x.toNat) acc = acc * 256 ^ octets.length + natBE octets := by
  induction octets generalizing acc with
  | nil => simp [natBE]
  | cons x xs ih =>
    have hx : natBE (x :: xs) = (0 * 256 + x.toNat) * 256 ^ xs.length + natBE xs :=
      ih (0 * 256 + x.toNat)
    rw [List.foldl_cons, ih, hx, List.length_cons, pow_succ]
    ring

/-- The leading octet carries the weight of all the octets after it. -/
theorem natBE_cons (x : UInt8) (xs : List UInt8) :
    natBE (x :: xs) = x.toNat * 256 ^ xs.length + natBE xs := by
  rw [natBE, List.foldl_cons, natBE_foldl, Nat.zero_mul, Nat.zero_add]

@[simp] theorem natBE_nil : natBE [] = 0 := rfl

/-- Reading back `n` octets of a number recovers it modulo their range. -/
theorem natBE_octetsBE (n v : Nat) : natBE (octetsBE n v) = v % 256 ^ n := by
  induction n with
  | zero => simp [octetsBE, Nat.mod_one]
  | succ n ih =>
    rw [octetsBE, natBE_cons, length_octetsBE, ih, Nat.mod_pow_succ (b := 256), UInt8.toNat_ofNat',
      Nat.mul_comm, Nat.add_comm]

/-- No octet string of length `n` writes a number out of its range. -/
theorem natBE_lt (octets : List UInt8) : natBE octets < 256 ^ octets.length := by
  induction octets with
  | nil => simp
  | cons x xs ih =>
    have hx : x.toNat + 1 ≤ 256 := x.toNat_lt
    have hm : (x.toNat + 1) * 256 ^ xs.length ≤ 256 * 256 ^ xs.length :=
      Nat.mul_le_mul_right _ hx
    rw [natBE_cons, List.length_cons, pow_succ]
    nlinarith

private theorem octetsBE_add_mul (n v w : Nat) : octetsBE n (v * 256 ^ n + w) = octetsBE n w := by
  induction n generalizing v with
  | zero => rfl
  | succ n ih =>
    have hpow : v * 256 ^ (n + 1) + w = v * 256 * 256 ^ n + w := by rw [pow_succ]; ring
    have hhead : UInt8.ofNat ((v * 256 * 256 ^ n + w) / 256 ^ n) = UInt8.ofNat (w / 256 ^ n) := by
      apply UInt8.toNat_inj.mp
      rw [UInt8.toNat_ofNat', UInt8.toNat_ofNat', Nat.add_comm, Nat.add_mul_div_right _ _ (by positivity)]
      omega
    rw [octetsBE, octetsBE, hpow, ih, hhead]

/-- An octet string is the octets of the number it writes. -/
theorem octetsBE_natBE (octets : List UInt8) : octetsBE octets.length (natBE octets) = octets := by
  induction octets with
  | nil => rfl
  | cons x xs ih =>
    have hdiv : natBE (x :: xs) / 256 ^ xs.length = x.toNat := by
      rw [natBE_cons, Nat.add_comm, Nat.add_mul_div_right _ _ (by positivity),
        Nat.div_eq_of_lt (natBE_lt xs), Nat.zero_add]
    rw [List.length_cons, octetsBE, hdiv, UInt8.ofNat_toNat, natBE_cons, octetsBE_add_mul, ih]

/-! ## Cursors -/

/-- An octet string being read: how many octets were read, and the octets left. -/
structure Cursor where
  /-- Position of the next octet. -/
  index : Nat
  /-- The octets from that position on. -/
  rest : List UInt8
  deriving DecidableEq

/-- A cursor at the first octet. -/
def Cursor.start (octets : List UInt8) : Cursor := ⟨0, octets⟩

/-- Length of the whole octet string below a cursor. -/
def Cursor.size (c : Cursor) : Nat := c.index + c.rest.length

/-- A reader moves the cursor and may fault. -/
abbrev Read (α : Type) := StateT Cursor (Except Fault) α

/-- A fault as a reader. -/
def Read.fault {α : Type} (f : Fault) : Read α := fun _ => .error f

/-- Position of the next octet. -/
def currentIndex : Read Nat := fun c => .ok (c.index, c)

/-- Length of the octet string being read. -/
def viewSize : Read Nat := fun c => .ok (c.size, c)

/-- Read one octet, with no bound check. -/
def readOctet : Read UInt8 := fun c =>
  match c.rest with
  | [] => .error .outOfBounds
  | x :: xs => .ok (x, ⟨c.index + 1, xs⟩)

/-- Read `n` octets, one after the other. -/
def readOctets : Nat → Read (List UInt8)
  | 0 => pure []
  | n + 1 => do
    let x ← readOctet
    let xs ← readOctets n
    return x :: xs

/-- Read a big-endian number of `n` octets. -/
def readBE (n : Nat) : Read Nat := do
  let octets ← readOctets n
  return natBE octets

/-- On the octets `c` at position `i`, whatever follows them, the reader returns
`a` and leaves the cursor after them. -/
def Reads {α : Type} (p : Read α) (i : Nat) (c : List UInt8) (a : α) : Prop :=
  ∀ rest, p ⟨i, c ++ rest⟩ = .ok (a, ⟨i + c.length, rest⟩)

/-- Any `n` octets at position `i` are consumed. -/
def Takes {α : Type} (p : Read α) (i n : Nat) : Prop :=
  ∀ c : List UInt8, c.length = n → ∃ a, Reads p i c a

/-- The reader returns or fails, wherever it is started. -/
def Halts {α : Type} (p : Read α) : Prop := ∀ c, p c ≠ .error .hang

/-- Every result of the reader is owed to the octets it consumed alone. -/
def Local {α : Type} (p : Read α) : Prop :=
  ∀ i s a t, p ⟨i, s⟩ = .ok (a, t) → ∃ c, s = c ++ t.rest ∧ t.index = i + c.length ∧ Reads p i c a

/-- A reader that halts, and whose results are owed to what it consumes alone. -/
structure Regular {α : Type} (p : Read α) : Prop where
  halts : Halts p
  owed : Local p

section Rules

variable {α β : Type} {p q : Read α} {f : α → Read β} {i n m : Nat} {c d s : List UInt8} {a a' : α}
  {b : β} {t : Cursor} {e : Fault} {x : UInt8} {P : Prop}

theorem Reads.run (h : Reads p i c a) (rest : List UInt8) :
    p ⟨i, c ++ rest⟩ = .ok (a, ⟨i + c.length, rest⟩) := h rest

theorem Reads.pure (a : α) : Reads (Pure.pure a) i [] a := fun _ => rfl

theorem Reads.bind (hp : Reads p i c a) (hf : Reads (f a) (i + c.length) d b) :
    Reads (p >>= f) i (c ++ d) b := by
  intro rest
  have h : (p >>= f) ⟨i, c ++ d ++ rest⟩ = (p ⟨i, c ++ (d ++ rest)⟩ >>= fun r => f r.1 r.2) := by
    rw [List.append_assoc]
    rfl
  rw [h, hp (d ++ rest)]
  exact (hf rest).trans (by rw [List.length_append, Nat.add_assoc])

/-- A reader that consumes nothing hands its value on. -/
theorem Reads.bind_nil (hp : Reads p i [] a) (hf : Reads (f a) i d b) :
    Reads (p >>= f) i d b := hp.bind hf

/-- The last octets consumed may be followed by readers that consume nothing. -/
theorem Reads.bind_end (hp : Reads p i c a) (hf : Reads (f a) (i + c.length) [] b) :
    Reads (p >>= f) i c b := by
  simpa only [List.append_nil] using hp.bind hf

theorem Reads.map (g : α → β) (hp : Reads p i c a) : Reads (g <$> p) i c (g a) := by
  intro rest
  have h : (g <$> p) ⟨i, c ++ rest⟩ = (p ⟨i, c ++ rest⟩ >>= fun r => Pure.pure (g r.1, r.2)) := rfl
  rw [h, hp rest]
  rfl

/-- Knowing the size is harmless when every large enough size gives the same run. -/
theorem Reads.bind_viewSize {g : Nat → Read β}
    (h : ∀ n, i + c.length ≤ n → Reads (g n) i c b) : Reads (viewSize >>= g) i c b := by
  intro rest
  have hn : i + c.length ≤ i + (c ++ rest).length := by
    rw [List.length_append]
    omega
  exact h _ hn rest

/-- The octets consumed determine the value. -/
theorem Reads.det (h : Reads p i c a) (h' : Reads p i c a') : a = a' := by
  have he := (h []).symm.trans (h' [])
  exact (Prod.mk.inj (Except.ok.inj he)).1

theorem currentIndex_reads : Reads currentIndex i [] i := fun _ => rfl

theorem readOctet_reads (x : UInt8) : Reads readOctet i [x] x := fun _ => rfl

theorem readOctets_reads (c : List UInt8) : Reads (readOctets c.length) i c c := by
  induction c generalizing i with
  | nil => exact Reads.pure []
  | cons x xs ih =>
    have ht : Reads (readOctets xs.length >>= fun ys => Pure.pure (x :: ys)) (i + 1) xs
        (x :: xs) := by
      simpa only [List.append_nil] using
        (ih (i := i + 1)).bind (f := fun ys => Pure.pure (x :: ys)) (Reads.pure (x :: xs))
    exact (readOctet_reads x).bind ht

/-- Reading `n` octets of a number back recovers it modulo their range. -/
theorem readBE_reads (n v : Nat) : Reads (readBE n) i (octetsBE n v) (v % 256 ^ n) := by
  have h := readOctets_reads (i := i) (octetsBE n v)
  rw [length_octetsBE] at h
  have hb := h.bind (f := fun octets => Pure.pure (natBE octets)) (Reads.pure _)
  rw [natBE_octetsBE, List.append_nil] at hb
  exact hb

/-- A run of two readers is a run of the first and then one of the second. -/
theorem Read.bind_ok {c : Cursor} (h : (p >>= f) c = .ok (b, t)) :
    ∃ a u, p c = .ok (a, u) ∧ f a u = .ok (b, t) := by
  cases hp : p c with
  | error e =>
    have he : (p >>= f) c = (p c >>= fun r => f r.1 r.2) := rfl
    rw [he, hp] at h
    cases h
  | ok r =>
    have he : (p >>= f) c = (p c >>= fun r => f r.1 r.2) := rfl
    rw [he, hp] at h
    exact ⟨r.1, r.2, rfl, h⟩

/-- A run of two readers fails in the first or in the second. -/
theorem Read.bind_error {c : Cursor} (h : (p >>= f) c = .error e) :
    p c = .error e ∨ ∃ a u, p c = .ok (a, u) ∧ f a u = .error e := by
  have he : (p >>= f) c = (p c >>= fun r => f r.1 r.2) := rfl
  cases hp : p c with
  | error e' =>
    rw [he, hp] at h
    cases h
    exact .inl rfl
  | ok r =>
    rw [he, hp] at h
    exact .inr ⟨r.1, r.2, rfl, h⟩

/-! ## Readers that consume a fixed number of octets -/

theorem Takes.pure (a : α) : Takes (Pure.pure a) i 0 := by
  intro c hc
  obtain rfl := List.length_eq_zero_iff.mp hc
  exact ⟨a, Reads.pure a⟩

theorem Takes.bind (hp : Takes p i m) (hf : ∀ a, Takes (f a) (i + m) n) :
    Takes (p >>= f) i (m + n) := by
  intro c hc
  obtain ⟨a, ha⟩ := hp (c.take m) (by rw [List.length_take]; omega)
  obtain ⟨b, hb⟩ := hf a (c.drop m) (by rw [List.length_drop]; omega)
  refine ⟨b, ?_⟩
  have hm : (c.take m).length = m := by rw [List.length_take]; omega
  have hr := ha.bind (f := f) (by rwa [hm])
  rwa [List.take_append_drop] at hr

theorem readOctet_takes : Takes readOctet i 1 := by
  intro c hc
  obtain ⟨x, rfl⟩ := List.length_eq_one_iff.mp hc
  exact ⟨x, readOctet_reads x⟩

theorem readBE_takes (n : Nat) : Takes (readBE n) i n := by
  intro c hc
  have hr := readBE_reads (i := i) n (natBE c)
  rw [← hc, octetsBE_natBE] at hr
  exact ⟨_, hc ▸ hr⟩

theorem Takes.congr (hn : n = m) (h : Takes p i n) : Takes p i m := hn ▸ h

/-- One octet decides which octets the rest of the reader takes. -/
theorem Takes.reads_cons {g : UInt8 → Read β} (h : Takes (g x) (i + 1) c.length) :
    ∃ b, Reads (readOctet >>= g) i (x :: c) b := by
  obtain ⟨b, hb⟩ := h c rfl
  exact ⟨b, (readOctet_reads x).bind hb⟩

/-! ## Readers that halt -/

theorem Halts.pure (a : α) : Halts (Pure.pure a) := by
  intro c h
  cases h

theorem Halts.bind (hp : Halts p) (hf : ∀ a, Halts (f a)) : Halts (p >>= f) := by
  intro c h
  rcases Read.bind_error h with h | ⟨a, u, -, h⟩
  · exact hp c h
  · exact hf a u h

theorem Halts.ite [Decidable P] (hp : Halts p) (hq : Halts q) : Halts (if P then p else q) := by
  split
  · exact hp
  · exact hq

theorem Halts.fault (he : e ≠ .hang) : Halts (Read.fault e : Read α) := by
  intro c h
  exact he (Except.error.inj h)

theorem currentIndex_halts : Halts currentIndex := by
  intro c h
  cases h

theorem viewSize_halts : Halts viewSize := by
  intro c h
  cases h

/-! ## Readers that depend on what they consume alone -/

theorem Regular.pure (a : α) : Regular (Pure.pure a) where
  halts := .pure a
  owed := by
    intro i s a' t h
    obtain ⟨rfl, rfl⟩ := Prod.mk.inj (Except.ok.inj h)
    exact ⟨[], rfl, rfl, Reads.pure a⟩

theorem Regular.bind (hp : Regular p) (hf : ∀ a, Regular (f a)) : Regular (p >>= f) where
  halts := hp.halts.bind fun a => (hf a).halts
  owed := by
    intro i s b t h
    obtain ⟨a, u, hpa, hfb⟩ := Read.bind_ok h
    obtain ⟨c, rfl, hu, hc⟩ := hp.owed i s a u hpa
    obtain ⟨d, hd, ht, hr⟩ := (hf a).owed u.index u.rest b t hfb
    refine ⟨c ++ d, by rw [hd, List.append_assoc],
      by rw [ht, hu, List.length_append, Nat.add_assoc], hc.bind ?_⟩
    rwa [← hu]

theorem Regular.map (g : α → β) (hp : Regular p) : Regular (g <$> p) :=
  hp.bind fun a => .pure (g a)

theorem Regular.ite [Decidable P] (hp : Regular p) (hq : Regular q) :
    Regular (if P then p else q) := by
  split
  · exact hp
  · exact hq

theorem currentIndex_regular : Regular currentIndex where
  halts := currentIndex_halts
  owed := by
    intro i s a t h
    obtain ⟨rfl, rfl⟩ := Prod.mk.inj (Except.ok.inj h)
    exact ⟨[], rfl, rfl, currentIndex_reads⟩

theorem readOctet_regular : Regular readOctet where
  halts := by
    rintro ⟨i, s⟩ h
    cases s <;> cases h
  owed := by
    intro i s a t h
    cases s with
    | nil => cases h
    | cons x xs =>
      obtain ⟨rfl, rfl⟩ := Prod.mk.inj (Except.ok.inj h)
      exact ⟨[x], rfl, rfl, readOctet_reads x⟩

theorem readOctets_regular (n : Nat) : Regular (readOctets n) := by
  induction n with
  | zero => exact .pure []
  | succ n ih => exact readOctet_regular.bind fun x => ih.bind fun xs => .pure (x :: xs)

theorem readBE_regular (n : Nat) : Regular (readBE n) :=
  (readOctets_regular n).bind fun octets => .pure (natBE octets)

/-- Reading `n` octets returns the first `n` octets. -/
theorem readOctets_ok {i : Nat} {xs : List UInt8} (h : readOctets n ⟨i, s⟩ = .ok (xs, t)) :
    xs.length = n ∧ s = xs ++ t.rest ∧ t.index = i + n := by
  induction n generalizing i s xs with
  | zero =>
    obtain ⟨rfl, rfl⟩ := Prod.mk.inj (Except.ok.inj h)
    exact ⟨rfl, rfl, rfl⟩
  | succ n ih =>
    obtain ⟨x, u, hx, h⟩ := Read.bind_ok h
    obtain ⟨ys, v, hys, h⟩ := Read.bind_ok h
    obtain ⟨rfl, rfl⟩ := Prod.mk.inj (Except.ok.inj h)
    cases s with
    | nil => cases hx
    | cons y s =>
      obtain ⟨rfl, rfl⟩ := Prod.mk.inj (Except.ok.inj hx)
      obtain ⟨hl, hs, ht⟩ := ih hys
      refine ⟨by rw [List.length_cons, hl], by rw [hs, List.cons_append], ?_⟩
      simp only at ht
      omega

/-- A number read stands in the octets it was read from. -/
theorem readBE_ok {v i : Nat} (h : readBE n ⟨i, s⟩ = .ok (v, t)) :
    v < 256 ^ n ∧ s = octetsBE n v ++ t.rest ∧ t.index = i + n := by
  obtain ⟨octets, u, hu, h⟩ := Read.bind_ok h
  obtain ⟨rfl, rfl⟩ := Prod.mk.inj (Except.ok.inj h)
  obtain ⟨rfl, hs, hi⟩ := readOctets_ok hu
  exact ⟨natBE_lt octets, by rw [octetsBE_natBE, hs], hi⟩

theorem readOctet_ok {i : Nat} (h : readOctet ⟨i, s⟩ = .ok (x, t)) :
    s = x :: t.rest ∧ t.index = i + 1 := by
  cases s with
  | nil => cases h
  | cons y s =>
    obtain ⟨rfl, rfl⟩ := Prod.mk.inj (Except.ok.inj h)
    exact ⟨rfl, rfl⟩

/-- Two consumptions of one reader from one position that agree as far as both go
are equal. -/
theorem Reads.prefix_eq {t : List UInt8} (h : Reads p i c a) (h' : Reads p i d a')
    (hs : c ++ s = d ++ t) : c = d := by
  have he : (Except.ok (a, ⟨i + c.length, s⟩) : Except Fault (α × Cursor)) =
      .ok (a', ⟨i + d.length, t⟩) := by
    rw [← h s, ← h' t, hs]
  have hi := congrArg Cursor.index (Prod.mk.inj (Except.ok.inj he)).2
  simp only at hi
  exact (List.append_inj hs (by omega)).1

end Rules

end Quicup
