import Mathlib.Data.List.AList
import Quicup.Ueransim.Utils.Octets

/-!
# Messages of the radio link simulation

The message types of `lib/rls`. A type octet of a PDU is decoded without a check. The
tasks of the link take several keys out of their tables at a time.
-/

namespace Quicup.Ueransim

structure Vector3 where
  x : Int32 := 0
  y : Int32 := 0
  z : Int32 := 0
  deriving DecidableEq

inductive EPduType
  | reserved
  | rrc
  | data
  | unknown (value : UInt8)
  deriving DecidableEq

/-- A message and the temporary identifier of its sender. -/
inductive RlsMessage
  | heartBeat (sti : UInt64) (simPos : Vector3)
  | heartBeatAck (sti : UInt64) (dbm : Int)
  | pduTransmission (sti : UInt64) (pduType : EPduType) (pduId payload : UInt32)
      (pdu : OctetString)
  | pduTransmissionAck (sti : UInt64) (pduIds : List UInt32)
  deriving DecidableEq

namespace RlsMessage

def sti : RlsMessage → UInt64
  | heartBeat sti _ | heartBeatAck sti _ | pduTransmission sti .. | pduTransmissionAck sti _ => sti

end RlsMessage

/-- A table without some of its keys. -/
theorem lookup_foldl_erase {κ ν : Type} [DecidableEq κ] (keys : List κ)
    (map : AList fun _ : κ => ν) (key : κ) :
    (keys.foldl (fun map key => map.erase key) map).lookup key =
      if key ∈ keys then none else map.lookup key := by
  induction keys generalizing map with
  | nil => simp
  | cons first rest ih =>
    rw [List.foldl_cons, ih]
    by_cases hrest : key ∈ rest
    · simp [hrest]
    · by_cases hfirst : key = first
      · subst hfirst
        simp
      · simp [hrest, hfirst, AList.lookup_erase_ne hfirst]

end Quicup.Ueransim
