import Stmmac.Rx.State

/-!
# Receive side: socket buffer helpers

The kernel helpers that the receive path applies to a buffer. `skb_put` takes an unsigned length;
added to the 32-bit `tail` and `len` it acts as a signed one, so a negative length moves the tail
back without hitting the check of `skb_over_panic`.
-/

namespace Stmmac

def ethHlen : Nat := 14

def ethFcsLen : Int := 4

/-- `none` is `skb_over_panic`. -/
def skbPut (skb : RxSkb) (len : Int) : Option RxSkb :=
  if skb.tail + len > skb.end_ then none
  else some { skb with tail := skb.tail + len, len := skb.len + BitVec.ofInt 32 len }

/-- `skb_pull_inline`: nothing is pulled from a buffer that is too short. -/
def skbPullInline (skb : RxSkb) (len : Nat) : RxSkb :=
  if len > skb.len.toNat then skb
  else { skb with data := skb.data + len, len := skb.len - BitVec.ofNat 32 len }

/-- Bytes 12 and 13 of the Ethernet header, as a little-endian load reads them. -/
def hProto (skb : RxSkb) : BitVec 16 :=
  skb.buf (skb.macHeader + 13) ++ skb.buf (skb.macHeader + 12)

/-- The first four bytes of the source address, as a little-endian load reads them. -/
def hSourceWord (skb : RxSkb) : BitVec 32 :=
  skb.buf (skb.macHeader + 9) ++ skb.buf (skb.macHeader + 8) ++ skb.buf (skb.macHeader + 7) ++
    skb.buf (skb.macHeader + 6)

def ntohs (x : BitVec 16) : BitVec 16 := x.extractLsb' 0 8 ++ x.extractLsb' 8 8

/-- `eth_type_trans`, with the protocol it returns stored in the buffer as its callers do. -/
def ethTypeTrans (skb : RxSkb) : RxSkb :=
  let skb := { skb with macHeader := skb.data }
  let skb := skbPullInline skb ethHlen
  let proto :=
    if ntohs (hProto skb) ≥ 1536 then hProto skb
    else if skb.len ≥ 2 ∧ skb.buf skb.data ++ skb.buf (skb.data + 1) = 0xffff#16 then ntohs 1
    else ntohs 4
  { skb with protocol := proto }

section

variable {skb skb' : RxSkb} {len : Int}

theorem skbPut_eq (h : skbPut skb len = some skb') :
    skb' = { skb with tail := skb.tail + len, len := skb.len + BitVec.ofInt 32 len } := by
  unfold skbPut at h
  split at h
  · cases h
  · exact (Option.some.inj h).symm

@[simp] theorem skbPullInline_buf (n : Nat) : (skbPullInline skb n).buf = skb.buf := by
  unfold skbPullInline; split <;> rfl

@[simp] theorem ethTypeTrans_buf : (ethTypeTrans skb).buf = skb.buf := by
  simp [ethTypeTrans]

theorem ethTypeTrans_data :
    (ethTypeTrans skb).data = (skbPullInline skb ethHlen).data := by
  unfold ethTypeTrans skbPullInline
  dsimp only
  split_ifs <;> rfl

theorem ethTypeTrans_len :
    (ethTypeTrans skb).len = (skbPullInline skb ethHlen).len := by
  unfold ethTypeTrans skbPullInline
  dsimp only
  split_ifs <;> rfl

/-- What is pulled stays in front of the data: the tail does not move. -/
theorem skbPullInline_end (n : Nat) :
    (skbPullInline skb n).data + (skbPullInline skb n).len.toNat = skb.data + skb.len.toNat := by
  unfold skbPullInline
  split
  · rfl
  · have hlen := skb.len.isLt
    have hsub : (skb.len - BitVec.ofNat 32 n).toNat = skb.len.toNat - n := by
      rw [BitVec.toNat_sub_of_le] <;> simp [BitVec.le_def] <;> omega
    dsimp only
    omega

theorem ethTypeTrans_end :
    (ethTypeTrans skb).data + (ethTypeTrans skb).len.toNat = skb.data + skb.len.toNat := by
  rw [ethTypeTrans_data, ethTypeTrans_len, skbPullInline_end]

end

end Stmmac
