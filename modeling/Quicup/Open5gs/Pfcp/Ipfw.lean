import Quicup.Open5gs.Pfcp.Rules

/-!
# Compiled flow descriptions

`ogs-ipfw.c`: `compile_rule` turns a flow description into instructions, from which
`ogs_ipfw_compile_rule` takes the protocol, the addresses and the ports. The addresses that
the instructions name are masked already.
-/

namespace Quicup.Open5gs

/-- The instructions that `ogs_ipfw_compile_rule` takes something from. -/
inductive IpfwInsn
  | proto (arg1 : UInt16)
  | ipSrc (addr : UInt32)
  | ipSrcMask (addr mask : UInt32)
  | ipDst (addr : UInt32)
  | ipDstMask (addr mask : UInt32)
  | ip6Src (addr : Vector UInt32 4)
  | ip6SrcMask (addr mask : Vector UInt32 4)
  | ip6Dst (addr : Vector UInt32 4)
  | ip6DstMask (addr mask : Vector UInt32 4)
  | ipSrcport (low high : UInt16)
  | ipDstport (low high : UInt16)
  | other
  deriving DecidableEq

/-- `ogs_ipfw_rule_t`, with the families of the addresses that it names. -/
structure CompiledRule extends IpfwRule where
  ipv4Src : Bool
  ipv4Dst : Bool
  ipv6Src : Bool
  ipv6Dst : Bool
  deriving DecidableEq

/-- The rule as a detection rule keeps it, which is never asked for the families. -/
def CompiledRule.toPfcpRule (rule : CompiledRule) : PfcpRule := ⟨rule.toIpfwRule⟩

def IpfwAddr.zero : IpfwAddr := ⟨.replicate 4 0, .replicate 4 0⟩

/-- The rule that `memset` leaves. -/
def CompiledRule.zero : CompiledRule where
  proto := 0
  ipSrc := .zero
  ipDst := .zero
  portSrc := ⟨0, 0⟩
  portDst := ⟨0, 0⟩
  ipv4Src := false
  ipv4Dst := false
  ipv6Src := false
  ipv6Dst := false

/-- `n2mask` of 128 -/
def fullMask : Vector UInt32 4 := .replicate 4 0xffffffff

/-- An address of IPv4 is written over the first word. -/
def IpfwAddr.setFirst (ip : IpfwAddr) (addr mask : UInt32) : IpfwAddr :=
  ⟨ip.addr.setIfInBounds 0 addr, ip.mask.setIfInBounds 0 mask⟩

/-- The body of the loop over the instructions. -/
def CompiledRule.take (rule : CompiledRule) : IpfwInsn → CompiledRule
  | .proto arg1 => { rule with proto := arg1.toUInt8 }
  | .ipSrc addr => { rule with ipv4Src := true, ipSrc := rule.ipSrc.setFirst addr 0xffffffff }
  | .ipSrcMask addr mask => { rule with ipv4Src := true, ipSrc := rule.ipSrc.setFirst addr mask }
  | .ipDst addr => { rule with ipv4Dst := true, ipDst := rule.ipDst.setFirst addr 0xffffffff }
  | .ipDstMask addr mask => { rule with ipv4Dst := true, ipDst := rule.ipDst.setFirst addr mask }
  | .ip6Src addr => { rule with ipv6Src := true, ipSrc := ⟨addr, fullMask⟩ }
  | .ip6SrcMask addr mask => { rule with ipv6Src := true, ipSrc := ⟨addr, mask⟩ }
  | .ip6Dst addr => { rule with ipv6Dst := true, ipDst := ⟨addr, fullMask⟩ }
  | .ip6DstMask addr mask => { rule with ipv6Dst := true, ipDst := ⟨addr, mask⟩ }
  | .ipSrcport low high => { rule with portSrc := ⟨low, high⟩ }
  | .ipDstport low high => { rule with portDst := ⟨low, high⟩ }
  | .other => rule

/-- `ogs_ipfw_compile_rule`, of the instructions that `compile_rule` writes. -/
def ipfwCompileRule (cmds : List IpfwInsn) : CompiledRule := cmds.foldl CompiledRule.take .zero

/-- `ogs_ipfw_copy_and_swap` -/
def ipfwCopyAndSwap (rule : CompiledRule) : CompiledRule where
  toIpfwRule := Pfcp.ipfwRuleSwap rule.toIpfwRule
  ipv4Src := rule.ipv4Dst
  ipv4Dst := rule.ipv4Src
  ipv6Src := rule.ipv6Dst
  ipv6Dst := rule.ipv6Src

/-! ## Masked addresses -/

/-- No bit of an address lies outside its mask. -/
def IpfwAddr.Masked (ip : IpfwAddr) : Prop :=
  ∀ i (hi : i < 4), ip.addr[i] &&& ip.mask[i] = ip.addr[i]

/-- `fill_ip` and `fill_ip6` mask the address of an instruction that has a mask. -/
def IpfwInsn.Masked : IpfwInsn → Prop
  | .ipSrcMask addr mask => addr &&& mask = addr
  | .ipDstMask addr mask => addr &&& mask = addr
  | .ip6SrcMask addr mask => (IpfwAddr.mk addr mask).Masked
  | .ip6DstMask addr mask => (IpfwAddr.mk addr mask).Masked
  | _ => True

/-- The rules that the handlers make of flow descriptions and of one another. -/
inductive CompiledRule.Made : CompiledRule → Prop
  | compiled {cmds} : (∀ cmd ∈ cmds, cmd.Masked) → Made (ipfwCompileRule cmds)
  | swapped {rule} : Made rule → Made (ipfwCopyAndSwap rule)

theorem word_and_full (x : UInt32) : x &&& 0xffffffff = x := by
  have hfull : (0xffffffff : UInt32) = -1 := rfl
  rw [hfull, UInt32.and_neg_one]

theorem IpfwAddr.masked_zero : IpfwAddr.zero.Masked := by
  intro i hi
  simp [IpfwAddr.zero]

theorem IpfwAddr.masked_full (addr : Vector UInt32 4) : (IpfwAddr.mk addr fullMask).Masked := by
  intro i hi
  simp only [fullMask, Vector.getElem_replicate]
  exact word_and_full _

theorem IpfwAddr.Masked.setFirst {ip : IpfwAddr} (h : ip.Masked) {addr mask : UInt32}
    (hmask : addr &&& mask = addr) : (ip.setFirst addr mask).Masked := by
  intro i hi
  simp only [IpfwAddr.setFirst, Vector.getElem_setIfInBounds]
  split
  · exact hmask
  · exact h i hi

variable {rule : CompiledRule}

/-- An instruction with a masked address leaves the addresses of a rule masked. -/
theorem CompiledRule.masked_take {cmd : IpfwInsn} (hcmd : cmd.Masked) (hsrc : rule.ipSrc.Masked)
    (hdst : rule.ipDst.Masked) : (rule.take cmd).ipSrc.Masked ∧ (rule.take cmd).ipDst.Masked := by
  cases cmd with
  | ipSrc addr => exact ⟨hsrc.setFirst (word_and_full addr), hdst⟩
  | ipSrcMask addr mask => exact ⟨hsrc.setFirst hcmd, hdst⟩
  | ipDst addr => exact ⟨hsrc, hdst.setFirst (word_and_full addr)⟩
  | ipDstMask addr mask => exact ⟨hsrc, hdst.setFirst hcmd⟩
  | ip6Src addr => exact ⟨IpfwAddr.masked_full addr, hdst⟩
  | ip6SrcMask addr mask => exact ⟨hcmd, hdst⟩
  | ip6Dst addr => exact ⟨hsrc, IpfwAddr.masked_full addr⟩
  | ip6DstMask addr mask => exact ⟨hsrc, hcmd⟩
  | proto | ipSrcport | ipDstport | other => exact ⟨hsrc, hdst⟩

theorem CompiledRule.masked_foldl {cmds : List IpfwInsn} (hcmds : ∀ cmd ∈ cmds, cmd.Masked)
    (hsrc : rule.ipSrc.Masked) (hdst : rule.ipDst.Masked) :
    (cmds.foldl CompiledRule.take rule).ipSrc.Masked ∧
      (cmds.foldl CompiledRule.take rule).ipDst.Masked := by
  induction cmds generalizing rule with
  | nil => exact ⟨hsrc, hdst⟩
  | cons cmd cmds ih =>
    obtain ⟨hcmd, hcmds⟩ := List.forall_mem_cons.mp hcmds
    obtain ⟨hsrc, hdst⟩ := masked_take hcmd hsrc hdst
    exact ih hcmds hsrc hdst

theorem CompiledRule.Made.masked (h : rule.Made) : rule.ipSrc.Masked ∧ rule.ipDst.Masked := by
  induction h with
  | compiled hcmds => exact CompiledRule.masked_foldl hcmds IpfwAddr.masked_zero IpfwAddr.masked_zero
  | swapped _ ih => exact ⟨ih.2, ih.1⟩

end Quicup.Open5gs
