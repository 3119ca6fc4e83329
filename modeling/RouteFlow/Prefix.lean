import RouteFlow.Lib.Bits
import RouteFlow.Client
import RouteFlow.Packet

/-!
# Prefixes

A netmask of `IPAddress(version, prefix_len)` has its ones in front, `toPrefixLen` counts them, and the
match of a prefix accepts the addresses that the prefix covers.
-/

namespace RouteFlow

open Bits

/-! ## Netmasks -/

namespace IPAddress

/-- The byte of a netmask with `k` ones at the top. -/
def lastByte (k : Nat) : Byte := BitVec.ofNat 8 (((1 <<< k) - 1) <<< (8 - k))

theorem lastByte_bit : ∀ k < 8, ∀ i < 8, (lastByte k).getMsbD i = decide (i < k) := by decide

theorem leadingOnes_lastByte : ∀ k < 8, leadingOnes (lastByte k) 8 = k ∧ lastByte k ≠ 0xff := by decide

theorem ff_bit : ∀ i < 8, (0xff : Byte).getMsbD i = true := by decide

theorem maskBytes_last (n : Nat) {k : Nat} (hk : k < 8) :
    maskBytes (n + 1) k = lastByte k :: maskBytes n 0 := by
  rw [maskBytes, if_neg (by omega)]
  split
  · rename_i h0
    subst h0
    rfl
  · rfl

theorem maskBytes_full (n k : Nat) : maskBytes (n + 1) (k + 8) = 0xff :: maskBytes n k := by
  rw [maskBytes, if_pos (by omega), Nat.add_sub_cancel]

theorem maskBytes_bit (n k : Nat) {i : Nat} (hi : i < 8 * n) : bit (maskBytes n k) i = decide (i < k) := by
  induction n generalizing k i with
  | zero => omega
  | succ n ih =>
    by_cases hk : k < 8
    · rw [maskBytes_last n hk]
      by_cases hi8 : i < 8
      · rw [bit_cons_lt _ _ hi8]
        exact lastByte_bit k hk i hi8
      · obtain ⟨j, rfl⟩ : ∃ j, i = j + 8 := ⟨i - 8, by omega⟩
        rw [bit_cons_add, ih 0 (by omega)]
        simp only [decide_eq_decide]
        omega
    · obtain ⟨m, rfl⟩ : ∃ m, k = m + 8 := ⟨k - 8, by omega⟩
      rw [maskBytes_full]
      by_cases hi8 : i < 8
      · rw [bit_cons_lt _ _ hi8, ff_bit i hi8]
        simp only [true_eq_decide_iff]
        omega
      · obtain ⟨j, rfl⟩ : ∃ j, i = j + 8 := ⟨i - 8, by omega⟩
        rw [bit_cons_add, ih m (by omega)]
        simp only [decide_eq_decide]
        omega

theorem countPrefix_maskBytes (n k : Nat) (hk : k ≤ 8 * n) : countPrefix (maskBytes n k) = k := by
  induction n generalizing k with
  | zero =>
    obtain rfl : k = 0 := by omega
    rfl
  | succ n ih =>
    by_cases hk8 : k < 8
    · obtain ⟨hones, hne⟩ := leadingOnes_lastByte k hk8
      rw [maskBytes_last n hk8, countPrefix, if_neg hne, hones]
    · obtain ⟨m, rfl⟩ : ∃ m, k = m + 8 := ⟨k - 8, by omega⟩
      rw [maskBytes_full, countPrefix, if_pos rfl, ih m (by omega), Nat.add_comm]

theorem toPrefixLen_ofPrefixLen (v : IPVersion) {k : Nat} (hk : k ≤ 8 * v.length) :
    (ofPrefixLen v k).toPrefixLen = k :=
  countPrefix_maskBytes v.length k hk

end IPAddress

/-! ## Prefixes -/

/-- A prefix whose address is masked already. -/
structure Prefix where
  addr : IPAddress
  len : Nat
  len_le : len ≤ 8 * addr.version.length
  masked : ∀ i, len ≤ i → bit addr.data i = false

namespace Prefix

def netmask (p : Prefix) : IPAddress := .ofPrefixLen p.addr.version p.len

/-- The addresses that begin with the same bits. -/
def Covers (p : Prefix) (dst : IPAddress) : Prop :=
  dst.version = p.addr.version ∧ ∀ i < p.len, bit dst.data i = bit p.addr.data i

def host (addr : IPAddress) : Prefix where
  addr := addr
  len := 8 * addr.version.length
  len_le := le_rfl
  masked := by
    intro i hi
    apply bit_eq_false
    rw [addr.length_eq]
    exact hi

theorem netmask_toPrefixLen (p : Prefix) : p.netmask.toPrefixLen = p.len :=
  IPAddress.toPrefixLen_ofPrefixLen _ p.len_le

theorem len_le_128 (p : Prefix) : p.len ≤ 128 := by
  have h := p.len_le
  cases hv : p.addr.version <;> simp [hv, IPVersion.length] at h <;> omega

theorem accepts_iff (p : Prefix) {pkt : Packet} {dst : IPAddress} (hdst : pkt.nwDst = some dst) :
    (Match.ip p.addr p.netmask).accepts pkt = true ↔ p.Covers dst := by
  simp only [Match.accepts, hdst, Bool.and_eq_true, beq_iff_eq, Covers]
  refine and_congr_right fun hv => ?_
  have hmask : p.netmask.data.length = p.addr.version.length := p.netmask.length_eq
  apply zipWith_and_eq_iff
  · rw [dst.length_eq, hmask, hv]
  · rw [p.addr.length_eq, hmask]
  · rw [hmask]
    exact p.len_le
  · intro i hi
    rw [hmask] at hi
    exact IPAddress.maskBytes_bit _ _ hi

theorem eq_of_covers {p q : Prefix} {dst : IPAddress} (hp : p.Covers dst) (hq : q.Covers dst)
    (hlen : p.len = q.len) : p.addr = q.addr ∧ p.netmask = q.netmask := by
  have hv : p.addr.version = q.addr.version := hp.1.symm.trans hq.1
  have hdata : p.addr.data = q.addr.data := by
    apply ext_bit
    · rw [p.addr.length_eq, q.addr.length_eq, hv]
    · intro i _
      by_cases hi : i < p.len
      · rw [← hp.2 i hi, hq.2 i (by omega)]
      · rw [p.masked i (by omega), q.masked i (by omega)]
  have haddr : p.addr = q.addr := by
    obtain ⟨⟨v, d, h⟩, _⟩ := p
    obtain ⟨⟨v', d', h'⟩, _⟩ := q
    obtain rfl : v = v' := hv
    obtain rfl : d = d' := hdata
    rfl
  exact ⟨haddr, by rw [netmask, netmask, haddr, hlen]⟩

end Prefix

/-! ## The RouteMods of a client -/

/-- A route of the kernel, or a neighbour. -/
inductive Destination where
  | route (p : Prefix)
  | host (addr : IPAddress)

namespace Destination

/-- A host is a prefix of full length. -/
def toPrefix : Destination → Prefix
  | route p => p
  | host addr => .host addr

def routeMod (vmId : Nat) (mod : RouteModType) (iface : Interface) (gateway : Mac) : Destination → RouteMod
  | route p => FlowTable.sendToHw vmId mod p.addr p.netmask iface gateway
  | host addr => FlowTable.sendHostToHw vmId mod addr iface gateway

theorem routeMod_eq (vmId : Nat) (mod : RouteModType) (iface : Interface) (gateway : Mac) (d : Destination) :
    d.routeMod vmId mod iface gateway =
      FlowTable.sendToHw vmId mod d.toPrefix.addr d.toPrefix.netmask iface gateway := by
  cases d with
  | route p => rfl
  | host addr =>
    unfold routeMod FlowTable.sendHostToHw
    cases hv : addr.version <;>
      simp [toPrefix, Prefix.host, Prefix.netmask, hv, IPVersion.length, FULL_IPV4_PREFIX, FULL_IPV6_PREFIX]

end Destination

/-- The priority of a route with that length. -/
def prefixPriority (len : Nat) : Nat := PRIORITY_LOW + len * PRIORITY_BAND

theorem prefixPriority_lt {len : Nat} (h : len ≤ 128) : prefixPriority len < 2 ^ 16 := by
  simp only [prefixPriority, PRIORITY_LOW, PRIORITY_BAND]
  omega

theorem prefixPriority_le_iff (k n : Nat) : prefixPriority k ≤ prefixPriority n ↔ k ≤ n := by
  simp only [prefixPriority, PRIORITY_LOW, PRIORITY_BAND]
  omega

section SendToHw

variable (vmId : Nat) (mod : RouteModType) (p : Prefix) (iface : Interface) (gateway : Mac)

theorem sendToHw_fields :
    let rm := FlowTable.sendToHw vmId mod p.addr p.netmask iface gateway
    rm.mod = mod ∧ rm.id = vmId ∧ rm.vmPort = iface.port ∧ rm.table = 0 := by
  unfold FlowTable.sendToHw
  dsimp only
  split <;> exact ⟨rfl, rfl, rfl, rfl⟩

theorem sendToHw_matchList :
    (FlowTable.sendToHw vmId mod p.addr p.netmask iface gateway).matchList = [.ip p.addr p.netmask] := by
  unfold FlowTable.sendToHw
  dsimp only
  split <;> rfl

theorem sendToHw_options :
    (FlowTable.sendToHw vmId mod p.addr p.netmask iface gateway).options =
      [.priority (prefixPriority p.len)] := by
  have hlt := prefixPriority_lt p.len_le_128
  have hprio : (PRIORITY_LOW + p.netmask.toPrefixLen * PRIORITY_BAND) % 2 ^ 16 = prefixPriority p.len := by
    rw [p.netmask_toPrefixLen]
    exact Nat.mod_eq_of_lt hlt
  unfold FlowTable.sendToHw FlowTable.setIP
  rw [hprio]
  dsimp only
  split <;> rfl

theorem sendToHw_actions_output (port : Nat) :
    Action.output port ∉ (FlowTable.sendToHw vmId mod p.addr p.netmask iface gateway).actions := by
  unfold FlowTable.sendToHw
  dsimp only
  split <;> simp [FlowTable.setIP, FlowTable.setEthernet, RouteMod.addMatch, RouteMod.addOption,
    RouteMod.addAction]

end SendToHw

end RouteFlow
