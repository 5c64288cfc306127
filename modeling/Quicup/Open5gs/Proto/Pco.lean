import Quicup.Core.Asserted

/-!
# Protocol configuration options

`ogs_pco_parse` and `ogs_pco_build` of `lib/proto/types.c`. The parser keeps a pointer to the
contents of each container. It asserts that the id and the length are there, and goes over the
contents without a look at what is left.
-/

namespace Quicup.Open5gs

open Fallible

def ogsMaxNumOfProtocolOrContainerId : Nat := 32

/-- A container, with the memory from its pointer on. -/
structure PcoId where
  id : UInt16
  len : UInt8
  data : List UInt8
  deriving DecidableEq

namespace PcoId

/-- The contents lie in the memory that the pointer is to. -/
def Inside (id : PcoId) : Prop := id.len.toNat ≤ id.data.length

def contents (id : PcoId) : List UInt8 := id.data.take id.len.toNat

end PcoId

/-- The options, whose list has as many entries as `num_of_id` says. -/
structure Pco where
  ext : Fin 2 := 0
  spare : Fin 16 := 0
  configurationProtocol : Fin 8 := 0
  ids : List PcoId := []
  deriving DecidableEq

/-- The octet that the bit fields are in. -/
def Pco.octet0 (pco : Pco) : UInt8 :=
  .ofNat (pco.ext.val * 128 + pco.spare.val * 8 + pco.configurationProtocol.val)

/-! ## Parsing -/

/-- The loop of `ogs_pco_parse` with the entries that are left, and `size` behind it. -/
def pcoParseIds (data : List UInt8) : Nat → Nat → Except Fault (List PcoId × Nat)
  | 0, size => .ok ([], size)
  | left + 1, size =>
    match data.drop size with
    | [] => .ok ([], size)
    | high :: low :: len :: rest => do
      let (ids, size) ← pcoParseIds data left (size + 3 + len.toNat)
      return (⟨.ofNat (natBE [high, low]), len, rest⟩ :: ids, size)
    | _ => .error .assertion

/-- `ogs_pco_parse`, which returns the size that it went over. -/
def pcoParse (data : List UInt8) : Except Fault (Pco × Nat) :=
  match data with
  | [] => .error .assertion
  | octet0 :: _ => do
    let (ids, size) ← pcoParseIds data ogsMaxNumOfProtocolOrContainerId 1
    return ({ ext := Fin.ofNat 2 (octet0.toNat / 128),
              configurationProtocol := ⟨octet0.toNat % 8, Nat.mod_lt _ (by decide)⟩, ids }, size)

/-! ## Building -/

/-- The body of the loop of `ogs_pco_build`. -/
def PcoId.build (dataLen : Nat) (target : List UInt8) (id : PcoId) : Except Fault (List UInt8) := do
  let target ← putOctets dataLen target (octetsBE 2 id.id.toNat)
  let target ← putOctets dataLen target [id.len]
  if target.length + id.len.toNat ≤ dataLen then
    if id.len.toNat ≤ id.data.length then return target ++ id.contents
    else .error .outOfBounds
  else .error .assertion

/-- `ogs_pco_build`. The octets that are written have the size that is returned. -/
def Pco.build (pco : Pco) (dataLen : Nat) : Except Fault (List UInt8) :=
  if dataLen = 0 then .error .assertion
  else do
    let target ← putOctets dataLen [] [pco.octet0]
    if pco.ids.length ≤ ogsMaxNumOfProtocolOrContainerId then
      pco.ids.foldlM (PcoId.build dataLen) target
    else .error .assertion

/-! ## Containers in a string -/

/-- The octets of a container whose contents are there. -/
def PcoId.octets (id : PcoId) : List UInt8 := octetsBE 2 id.id.toNat ++ id.len :: id.contents

/-- The string is one octet and complete containers, behind which nothing is left unless they are as
many as the options hold. -/
def CompleteOptions (data : List UInt8) : Prop :=
  ∃ (octet0 : UInt8) (ids : List PcoId) (rest : List UInt8),
    data = octet0 :: (ids.flatMap PcoId.octets ++ rest) ∧
    (∀ id ∈ ids, id.Inside) ∧ ids.length ≤ ogsMaxNumOfProtocolOrContainerId ∧
    (rest = [] ∨ ids.length = ogsMaxNumOfProtocolOrContainerId)

/-- The parser returns, and the contents of each container lie in the string. -/
def OptionsInside (data : List UInt8) : Prop :=
  ∃ pco size, pcoParse data = .ok (pco, size) ∧ ∀ id ∈ pco.ids, id.Inside

/-- Two containers that a reader cannot tell apart. -/
def PcoId.value (id : PcoId) : UInt16 × UInt8 × List UInt8 := (id.id, id.len, id.contents)

/-- The options fit: each pointer is to contents of its length, and all has room in the buffer. -/
structure Pco.Fits (pco : Pco) (dataLen : Nat) : Prop where
  ids : ∀ id ∈ pco.ids, id.Inside
  few : pco.ids.length ≤ ogsMaxNumOfProtocolOrContainerId
  room : 1 + (pco.ids.flatMap PcoId.octets).length ≤ dataLen

section Options

variable {data rest target : List UInt8} {left size dataLen : Nat} {id : PcoId} {ids : List PcoId}
  {pco : Pco}

theorem PcoId.Inside.length_contents (h : id.Inside) : id.contents.length = id.len.toNat := by
  rw [PcoId.contents, List.length_take, Nat.min_eq_left h]

theorem PcoId.Inside.length_octets (h : id.Inside) : id.octets.length = 3 + id.len.toNat := by
  rw [PcoId.octets, List.length_append, length_octetsBE, List.length_cons, h.length_contents]
  omega

/-- One turn of the loop, in front of a container. -/
theorem pcoParseIds_octets (left : Nat) (h : id.Inside) (hdata : data.drop size = id.octets ++ rest) :
    pcoParseIds data (left + 1) size = (do
      let (ids, stop) ← pcoParseIds data left (size + 3 + id.len.toNat)
      return (⟨id.id, id.len, id.contents ++ rest⟩ :: ids, stop)) ∧
      data.drop (size + 3 + id.len.toNat) = rest := by
  have hoctets : id.octets ++ rest = UInt8.ofNat (id.id.toNat / 256) :: UInt8.ofNat id.id.toNat ::
      id.len :: (id.contents ++ rest) := by
    simp [PcoId.octets, octetsBE]
  have hid : UInt16.ofNat (natBE [UInt8.ofNat (id.id.toNat / 256), UInt8.ofNat id.id.toNat]) =
      id.id := by
    have hlt : id.id.toNat < 256 ^ 2 := id.id.toNat_lt
    have hvalue := natBE_octetsBE 2 id.id.toNat
    simp only [octetsBE, Nat.pow_one, Nat.pow_zero, Nat.div_one] at hvalue
    rw [hvalue, Nat.mod_eq_of_lt hlt, UInt16.ofNat_toNat]
  constructor
  · rw [pcoParseIds, hdata, hoctets]
    dsimp only
    rw [hid]
  · rw [Nat.add_assoc, ← List.drop_drop, hdata, ← h.length_octets, List.drop_left]

/-- Complete containers are read as they are. -/
theorem pcoParseIds_complete (hinside : ∀ id ∈ ids, id.Inside)
    (hdata : data.drop size = ids.flatMap PcoId.octets ++ rest)
    (hend : rest = [] ∧ ids.length ≤ left ∨ ids.length = left) :
    ∃ parsed, pcoParseIds data left size =
        .ok (parsed, size + (ids.flatMap PcoId.octets).length) ∧
      (∀ id ∈ parsed, id.Inside) ∧ parsed.map PcoId.value = ids.map PcoId.value := by
  induction ids generalizing left size with
  | nil =>
    refine ⟨[], ?_, nofun, rfl⟩
    cases left with
    | zero => rfl
    | succ left =>
      obtain ⟨rfl, -⟩ | h := hend
      · rw [pcoParseIds, hdata]
        rfl
      · exact nomatch h
  | cons id ids ih =>
    rw [List.length_cons] at hend
    obtain ⟨left, rfl⟩ : ∃ n, left = n + 1 := Nat.exists_eq_add_one.mpr (by omega)
    obtain ⟨hid, hids⟩ := List.forall_mem_cons.mp hinside
    rw [List.flatMap_cons, List.append_assoc] at hdata
    obtain ⟨hturn, hrest⟩ := pcoParseIds_octets left hid hdata
    have hend : rest = [] ∧ ids.length ≤ left ∨ ids.length = left := by
      simpa only [Nat.add_le_add_iff_right, Nat.add_right_cancel_iff] using hend
    obtain ⟨parsed, hparsed, hinside, hvalue⟩ := ih hids hrest hend
    refine ⟨⟨id.id, id.len, id.contents ++ (ids.flatMap PcoId.octets ++ rest)⟩ :: parsed, ?_, ?_, ?_⟩
    · rw [hturn, hparsed, ok_bind, List.flatMap_cons, List.length_append, hid.length_octets]
      exact congrArg (fun n => Except.ok (_, n)) (by omega)
    · refine List.forall_mem_cons.mpr ⟨?_, hinside⟩
      change id.len.toNat ≤ (id.contents ++ _).length
      rw [List.length_append, hid.length_contents]
      exact Nat.le_add_right _ _
    · rw [List.map_cons, List.map_cons, hvalue]
      refine congrArg (fun contents => (id.id, id.len, contents) :: _) ?_
      exact List.take_left' hid.length_contents

/-- What is read as containers that lie inside is complete. -/
theorem complete_of_pcoParseIds {parsed : List PcoId} {stop : Nat}
    (h : pcoParseIds data left size = .ok (parsed, stop)) (hinside : ∀ id ∈ parsed, id.Inside) :
    ∃ rest, data.drop size = parsed.flatMap PcoId.octets ++ rest ∧
      (rest = [] ∧ parsed.length ≤ left ∨ parsed.length = left) := by
  induction left generalizing size parsed with
  | zero =>
    cases h
    exact ⟨_, rfl, .inr rfl⟩
  | succ left ih =>
    rw [pcoParseIds] at h
    split at h
    · rename_i hnil
      cases h
      exact ⟨[], hnil, .inl ⟨rfl, Nat.zero_le _⟩⟩
    · rename_i high low len more hdata
      obtain ⟨⟨ids, stop'⟩, hids, h⟩ := bind_eq_ok.mp h
      cases h
      obtain ⟨hid, hmore⟩ := List.forall_mem_cons.mp hinside
      obtain ⟨rest, hrest, hend⟩ := ih hids hmore
      have hoctets : PcoId.octets ⟨.ofNat (natBE [high, low]), len, more⟩ =
          high :: low :: len :: more.take len.toNat := by
        have hlt : natBE [high, low] < 2 ^ 16 := by simpa using natBE_lt [high, low]
        have hoctets := octetsBE_natBE [high, low]
        rw [PcoId.octets, UInt16.toNat_ofNat', Nat.mod_eq_of_lt hlt]
        exact congrArg (· ++ len :: more.take len.toNat) hoctets
      have hdrop : data.drop (size + 3 + len.toNat) = more.drop len.toNat := by
        rw [Nat.add_assoc, ← List.drop_drop, hdata, ← List.drop_drop]
        rfl
      refine ⟨rest, ?_, ?_⟩
      · rw [hdata, List.flatMap_cons, hoctets, List.append_assoc, ← hrest, hdrop]
        simp
      · simpa only [List.length_cons, Nat.add_le_add_iff_right, Nat.add_right_cancel_iff] using hend
    · cases h

theorem optionsInside_iff (data : List UInt8) : OptionsInside data ↔ CompleteOptions data := by
  constructor
  · rintro ⟨pco, size, h, hinside⟩
    cases data with
    | nil => cases h
    | cons octet0 data =>
      obtain ⟨⟨ids, stop⟩, hids, h⟩ := bind_eq_ok.mp h
      cases h
      obtain ⟨rest, hrest, hend⟩ := complete_of_pcoParseIds hids hinside
      exact ⟨octet0, ids, rest, congrArg (octet0 :: ·) hrest, hinside,
        hend.elim And.right le_of_eq, hend.imp And.left id⟩
  · rintro ⟨octet0, ids, rest, rfl, hinside, hfew, hend⟩
    have hdata : (octet0 :: (ids.flatMap PcoId.octets ++ rest)).drop 1 =
        ids.flatMap PcoId.octets ++ rest := rfl
    obtain ⟨parsed, hparsed, hinside, -⟩ :=
      pcoParseIds_complete hinside hdata (hend.imp (⟨·, hfew⟩) id)
    refine ⟨{ ext := Fin.ofNat 2 (octet0.toNat / 128),
              configurationProtocol := Fin.ofNat 8 octet0.toNat, ids := parsed },
      1 + (ids.flatMap PcoId.octets).length, ?_, hinside⟩
    rw [pcoParse, hparsed]
    rfl

/-! ## Options that are read back -/

theorem PcoId.Inside.build_eq (h : id.Inside) (hroom : target.length + id.octets.length ≤ dataLen) :
    id.build dataLen target = .ok (target ++ id.octets) := by
  rw [h.length_octets] at hroom
  rw [PcoId.build, putOctets_eq (by rw [length_octetsBE]; omega), ok_bind,
    putOctets_eq (by simp only [List.length_append, length_octetsBE, List.length_singleton]; omega),
    ok_bind, if_pos (by simp only [List.length_append, length_octetsBE, List.length_singleton]; omega),
    if_pos (show id.len.toNat ≤ id.data.length from h)]
  refine congrArg Except.ok ?_
  simp [PcoId.octets]

theorem build_ids_eq (hinside : ∀ id ∈ ids, id.Inside)
    (hroom : target.length + (ids.flatMap PcoId.octets).length ≤ dataLen) :
    ids.foldlM (PcoId.build dataLen) target = .ok (target ++ ids.flatMap PcoId.octets) := by
  induction ids generalizing target with
  | nil =>
    rw [List.flatMap_nil, List.append_nil]
    rfl
  | cons id ids ih =>
    obtain ⟨hid, hids⟩ := List.forall_mem_cons.mp hinside
    rw [List.flatMap_cons, List.length_append] at hroom
    rw [List.foldlM_cons, hid.build_eq (by omega), ok_bind,
      ih hids (by rw [List.length_append]; omega), List.flatMap_cons, List.append_assoc]

theorem Pco.Fits.build_eq (h : pco.Fits dataLen) :
    pco.build dataLen = .ok (pco.octet0 :: pco.ids.flatMap PcoId.octets) := by
  have hroom := h.room
  have hfirst : ([] : List UInt8).length + [pco.octet0].length ≤ dataLen := by
    simp only [List.length_nil, List.length_singleton]
    omega
  rw [Pco.build, if_neg (by omega), putOctets_eq hfirst, ok_bind, if_pos h.few,
    build_ids_eq h.ids hroom]
  rfl

/-- The bit fields are read back from their octet. -/
theorem Pco.octet0_fields (pco : Pco) : Fin.ofNat 2 (pco.octet0.toNat / 128) = pco.ext ∧
    Fin.ofNat 8 pco.octet0.toNat = pco.configurationProtocol := by
  obtain ⟨⟨ext, hext⟩, ⟨spare, hspare⟩, ⟨protocol, hprotocol⟩, ids⟩ := pco
  rw [Pco.octet0, UInt8.toNat_ofNat', Fin.ext_iff, Fin.ext_iff]
  simp only [Fin.val_ofNat]
  omega

/-- Options that fit are read back, but for their spare bits. -/
theorem Pco.Fits.parse_build (h : pco.Fits dataLen) :
    ∃ octets parsed, pco.build dataLen = .ok octets ∧ pcoParse octets = .ok (parsed, octets.length) ∧
      parsed.ext = pco.ext ∧ parsed.configurationProtocol = pco.configurationProtocol ∧
      parsed.ids.map PcoId.value = pco.ids.map PcoId.value := by
  obtain ⟨hext, hprotocol⟩ := pco.octet0_fields
  have hdata : (pco.octet0 :: pco.ids.flatMap PcoId.octets).drop 1 =
      pco.ids.flatMap PcoId.octets ++ [] := (List.append_nil _).symm
  obtain ⟨ids, hids, -, hvalue⟩ := pcoParseIds_complete h.ids hdata (.inl ⟨rfl, h.few⟩)
  refine ⟨_, { ext := Fin.ofNat 2 (pco.octet0.toNat / 128),
               configurationProtocol := Fin.ofNat 8 pco.octet0.toNat, ids }, h.build_eq, ?_, hext,
    hprotocol, hvalue⟩
  rw [pcoParse, hids, ok_bind, List.length_cons, Nat.add_comm]
  rfl

/-- A string of a UE is read safely just when its containers are complete, and options that fit are
read back. -/
theorem options_read_iff (data : List UInt8) (pco : Pco) (dataLen : Nat) :
    (OptionsInside data ↔ CompleteOptions data) ∧
      (pco.Fits dataLen → ∃ octets parsed, pco.build dataLen = .ok octets ∧
        pcoParse octets = .ok (parsed, octets.length) ∧ parsed.ext = pco.ext ∧
        parsed.configurationProtocol = pco.configurationProtocol ∧
        parsed.ids.map PcoId.value = pco.ids.map PcoId.value) :=
  ⟨optionsInside_iff data, fun h => h.parse_build⟩

theorem options_read_dns : OptionsInside [0x80, 0, 13, 0] ∧
    ∃ octets parsed, Pco.build { ext := 1, ids := [⟨13, 4, [10, 45, 0, 1, 7]⟩] } 512 = .ok octets ∧
      pcoParse octets = .ok (parsed, octets.length) ∧ parsed.ext = 1 ∧
      parsed.configurationProtocol = 0 ∧ parsed.ids.map PcoId.value = [(13, 4, [10, 45, 0, 1])] := by
  obtain ⟨hinside, hback⟩ := options_read_iff [0x80, 0, 13, 0]
    { ext := 1, ids := [⟨13, 4, [10, 45, 0, 1, 7]⟩] } 512
  constructor
  · refine hinside.mpr ⟨0x80, [⟨13, 0, []⟩], [], rfl, ?_, by decide, .inl rfl⟩
    exact List.forall_mem_singleton.mpr (Nat.le_refl 0)
  · refine hback ⟨?_, by decide, by decide⟩
    exact List.forall_mem_singleton.mpr (show 4 ≤ 5 by decide)

/-- A length octet without contents behind it, and an id of one octet. -/
theorem not_optionsInside : ¬OptionsInside [0x80, 0, 13, 4] ∧ ¬OptionsInside [0x80, 0] := by
  constructor
  · rintro ⟨pco, size, h, hinside⟩
    cases h
    exact absurd (hinside _ List.mem_cons_self) (by decide : ¬(4 ≤ 0))
  · rintro ⟨pco, size, h, -⟩
    cases h

end Options

end Quicup.Open5gs
