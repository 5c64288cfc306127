import Quicup.Core.Cursor
import Quicup.Core.Fallible

/-!
# Packet buffers

What the UPF reads of a packet buffer: the octets of the packet, and behind them
what is left of the memory block. A header that is laid over the front of the
packet may reach into that memory, and beyond it into memory of something else.
-/

namespace Quicup.Open5gs

structure Pkbuf where
  data : List UInt8
  room : List UInt8
  deriving DecidableEq

namespace Pkbuf

/-- `ogs_pkbuf_alloc`, `ogs_pkbuf_reserve` and `ogs_pkbuf_put_data` for a block that
has just the headroom and the packet. -/
def ofData (data : List UInt8) : Pkbuf := ⟨data, []⟩

/-- `len` of the buffer. -/
def len (pkbuf : Pkbuf) : Nat := pkbuf.data.length

/-- The octets from the front of the packet to the end of the memory block. -/
def size (pkbuf : Pkbuf) : Nat := (pkbuf.data ++ pkbuf.room).length

/-- The octet at an offset from the front of the packet. -/
def octet (pkbuf : Pkbuf) (i : Nat) : Except Fault UInt8 :=
  match (pkbuf.data ++ pkbuf.room)[i]? with
  | some x => .ok x
  | none => .error .outOfBounds

theorem lt_size {pkbuf : Pkbuf} {i : Nat} {x : UInt8} (h : pkbuf.octet i = .ok x) :
    i < pkbuf.size := by
  rw [octet] at h
  by_contra hsize
  rw [List.getElem?_eq_none (Nat.le_of_not_lt hsize)] at h
  exact nomatch h

/-- `be16toh` of the two octets at an offset. -/
def half (pkbuf : Pkbuf) (i : Nat) : Except Fault UInt16 := do
  return UInt16.ofNat (natBE [← pkbuf.octet i, ← pkbuf.octet (i + 1)])

/-- `be32toh` of the four octets at an offset. -/
def word (pkbuf : Pkbuf) (i : Nat) : Except Fault UInt32 := do
  return UInt32.ofNat (natBE [← pkbuf.octet i, ← pkbuf.octet (i + 1), ← pkbuf.octet (i + 2),
    ← pkbuf.octet (i + 3)])

/-- The four words at an offset. -/
def words (pkbuf : Pkbuf) (i : Nat) : Except Fault (Vector UInt32 4) := do
  return #v[← pkbuf.word i, ← pkbuf.word (i + 4), ← pkbuf.word (i + 8), ← pkbuf.word (i + 12)]

/-! ## Functions that stay inside the packet

What a function returns for a block without memory behind the packet, it returns
for every block. -/

section Stable

variable {α β : Type} {f : Pkbuf → Except Fault α}

def Stable (f : Pkbuf → Except Fault α) : Prop :=
  ∀ data room a, f (ofData data) = .ok a → f ⟨data, room⟩ = .ok a

theorem stable_const (x : Except Fault α) : Stable fun _ => x := fun _ _ _ h => h

theorem stable_bind {g : Pkbuf → α → Except Fault β} (hf : Stable f)
    (hg : ∀ a, Stable fun pkbuf => g pkbuf a) : Stable fun pkbuf => f pkbuf >>= g pkbuf := by
  intro data room b h
  obtain ⟨a, ha, hb⟩ := Fallible.bind_eq_ok.mp h
  exact Fallible.bind_eq_ok.mpr ⟨a, hf data room a ha, hg a data room b hb⟩

theorem stable_map (g : α → β) (hf : Stable f) :
    Stable fun pkbuf => f pkbuf >>= fun a => pure (g a) :=
  stable_bind hf fun a => stable_const (pure (g a))

theorem stable_ite {c : Prop} [Decidable c] {g : Pkbuf → Except Fault α} (hf : Stable f)
    (hg : Stable g) : Stable fun pkbuf => if c then f pkbuf else g pkbuf := by
  split
  · exact hf
  · exact hg

theorem stable_findM? {test : Pkbuf → α → Except Fault Bool}
    (htest : ∀ x, Stable fun pkbuf => test pkbuf x) (xs : List α) :
    Stable fun pkbuf => xs.findM? (test pkbuf) :=
  fun data room _ => Fallible.findM?_mono fun x b => htest x data room b

theorem stable_octet (i : Nat) : Stable fun pkbuf => pkbuf.octet i := by
  intro data room x h
  have hi : i < data.length := by simpa [size, ofData] using lt_size h
  simp only [octet, ofData, List.append_nil] at h ⊢
  rw [List.getElem?_append_left hi]
  exact h

theorem stable_half (i : Nat) : Stable fun pkbuf => pkbuf.half i :=
  stable_bind (stable_octet i) fun _ => stable_map _ (stable_octet (i + 1))

theorem stable_word (i : Nat) : Stable fun pkbuf => pkbuf.word i :=
  stable_bind (stable_octet i) fun _ => stable_bind (stable_octet (i + 1)) fun _ =>
    stable_bind (stable_octet (i + 2)) fun _ => stable_map _ (stable_octet (i + 3))

theorem stable_words (i : Nat) : Stable fun pkbuf => pkbuf.words i :=
  stable_bind (stable_word i) fun _ => stable_bind (stable_word (i + 4)) fun _ =>
    stable_bind (stable_word (i + 8)) fun _ => stable_map _ (stable_word (i + 12))

end Stable

end Pkbuf

end Quicup.Open5gs
