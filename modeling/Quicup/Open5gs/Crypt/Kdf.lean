import Mathlib.Data.List.TakeWhile
import Quicup.Core.Cursor
import Quicup.Core.Fallible

/-!
# Key derivation of the core

`ogs-kdf.c` over an HMAC. Strings are without their null octet, and a parameter is a buffer with
a length of 16 bits.
-/

namespace Quicup.Open5gs

/-- HMAC-SHA-256 of a key and data. -/
abbrev HmacSha256 := List UInt8 → List UInt8 → Vector UInt8 32

structure KdfParam where
  buf : List UInt8
  len : UInt16

namespace KdfParam

def ofOctets (buf : List UInt8) : KdfParam := ⟨buf, .ofNat buf.length⟩

/-- What goes into the HMAC for a parameter. -/
def octets (param : KdfParam) : List UInt8 :=
  param.buf.take param.len.toNat ++ octetsBE 2 param.len.toNat

end KdfParam

/-- `ogs_kdf_common`. The parameters end in front of the first one without a length. -/
def ogsKdfCommon (hmac : HmacSha256) (key : List UInt8) (fc : UInt8) (param : List KdfParam) :
    Except Fault (List UInt8) :=
  if key = [] ∨ fc = 0 ∨ param.head?.all (·.len == 0) then .error .assertion
  else
    .ok (hmac key (fc :: (param.takeWhile (·.len != 0)).flatMap KdfParam.octets)).toList

variable (hmac : HmacSha256)

/-- `ogs_kdf_kausf` -/
def ogsKdfKausf (ck ik : Vector UInt8 16) (servingNetworkName : List UInt8)
    (autn : Vector UInt8 16) : Except Fault (List UInt8) :=
  ogsKdfCommon hmac (ck.toList ++ ik.toList) 0x6A
    [.ofOctets servingNetworkName, ⟨autn.toList, 6⟩]

/-- `ogs_kdf_xres_star` -/
def ogsKdfXresStar (ck ik : Vector UInt8 16) (servingNetworkName : List UInt8)
    (rand : Vector UInt8 16) (xres : List UInt8) : Except Fault (List UInt8) :=
  if xres = [] then .error .assertion
  else do
    let output ← ogsKdfCommon hmac (ck.toList ++ ik.toList) 0x6B
      [.ofOctets servingNetworkName, ⟨rand.toList, 16⟩, .ofOctets xres]
    return (output.drop 16).take 16

/-- `ogs_kdf_kseaf` -/
def ogsKdfKseaf (servingNetworkName kausf : List UInt8) : Except Fault (List UInt8) :=
  ogsKdfCommon hmac kausf 0x6C [.ofOctets servingNetworkName]

/-- `ogs_id_get_value`: what is between the first hyphen and the next one. -/
def ogsIdGetValue (str : List UInt8) : Option (List UInt8) :=
  match str.dropWhile (· != 0x2D) with
  | [] => none
  | _ :: rest => some (rest.takeWhile (· != 0x2D))

/-- `ogs_kdf_kamf` -/
def ogsKdfKamf (supi abba kseaf : List UInt8) : Except Fault (List UInt8) :=
  if abba = [] then .error .assertion
  else
    match ogsIdGetValue supi with
    | none => .error .assertion
    | some val => ogsKdfCommon hmac kseaf 0x6D [.ofOctets val, .ofOctets abba]

/-- `ogs_kdf_nas_5gs` -/
def ogsKdfNas5gs (algorithmTypeDistinguishers algorithmIdentity : UInt8) (kamf : List UInt8) :
    Except Fault (List UInt8) := do
  let output ← ogsKdfCommon hmac kamf 0x69
    [.ofOctets [algorithmTypeDistinguishers], .ofOctets [algorithmIdentity]]
  return (output.drop 16).take 16

variable {hmac}

/-- Where no parameter is empty, all of them go into the HMAC. -/
theorem ogsKdfCommon_eq {key : List UInt8} {fc : UInt8} {params : List KdfParam} (hkey : key ≠ [])
    (hfc : fc ≠ 0) (hparams : params ≠ []) (hlen : ∀ param ∈ params, param.len ≠ 0) :
    ogsKdfCommon hmac key fc params = .ok (hmac key (fc :: params.flatMap KdfParam.octets)).toList := by
  have hall : params.takeWhile (·.len != 0) = params := by
    rw [List.takeWhile_eq_self_iff]
    exact fun param hmem => bne_iff_ne.mpr (hlen param hmem)
  have hfirst : ¬params.head?.all (·.len == 0) = true := by
    cases params with
    | nil => exact absurd rfl hparams
    | cons param rest => simpa using hlen param (List.mem_cons_self ..)
  rw [ogsKdfCommon, if_neg (not_or.mpr ⟨hkey, not_or.mpr ⟨hfc, hfirst⟩⟩), hall]

namespace KdfParam

variable {buf : List UInt8}

theorem len_ofOctets (h : buf.length < 2 ^ 16) : (ofOctets buf).len.toNat = buf.length :=
  UInt16.toNat_ofNat_of_lt' h

end KdfParam

end Quicup.Open5gs
