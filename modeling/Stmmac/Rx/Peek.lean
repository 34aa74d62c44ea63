import Stmmac.Rx.Receive

/-!
# Receive side: peeking

`stmmac_peek_packet` looks at the frames from `cur_rx` on without consuming them. It waits for a
reception first, which only reads registers, and then walks over the ring; but `cur_rx` stays where
it is, so from its second round on it looks at the same slot again and again. A walk need not end:
`fuel` bounds its rounds, and `none` stands for one that runs out of it or stops the kernel.
-/

namespace Stmmac

/-- How a round of the walk ends. -/
inductive PeekRound where
  | stop
  | count
  | pass
  deriving DecidableEq

/-- An EtherCAT frame from the address that is looked for. -/
def RxSkb.isAprd (skb : RxSkb) : Bool := skb.protocol == 0xa488 && hSourceWord skb == 2

/-- The copy to the caller's buffer. A negative length is a huge one for `memcpy`, which does not
return from it; the test before it compares unsigned numbers. -/
def peekCopy (length : BitVec 32) (frameLen : Int) (skb : RxSkb) (s : RxState) : Option RxState :=
  if length ≥ BitVec.ofInt 32 (frameLen - ethHlen) then
    if frameLen < ethHlen then none
    else some (s.call (.memcpy
      ((List.range (frameLen - ethHlen).toNat).map fun i => skb.buf (skb.data + i))))
  else some s

/-- One round of the walk, on a descriptor the DMA does not own. -/
def peekRound (c : Conf) (length : BitVec 32) (s : RxState) (entry : Nat) :
    Option (RxState × PeekRound) :=
  let p := s.ring entry
  let (stats, status) := c.readRxStatus s.stats p
  let s := { s with stats := stats }.call (.rxStatus entry p.desc)
  if status = .discardFrame then some (s, .pass)
  else
    let frameLen := c.rxFrameLen p status
    match p.skb with
    | none =>
      some ({ s with stats := { s.stats with
        dev := { s.stats.dev with rxDropped := s.stats.dev.rxDropped + 1 } } }, .stop)
    | some skb =>
      let s := s.call (.skbPut entry frameLen)
      match skbPut skb frameLen with
      | none => none
      | some skb =>
        let skb := ethTypeTrans skb
        let s := s.modify entry ({ · with skb := some skb })
        if skb.isAprd then (peekCopy length frameLen skb s).map (·, .count)
        else some (s, .pass)

/-- The loop of `stmmac_peek_packet`, with the frames counted so far. -/
def peekLoop (c : Conf) (length limit : BitVec 32) : Nat → Nat → Nat → RxState →
    Option (RxState × Nat)
  | 0, _, _, _ => none
  | fuel + 1, entry, count, s =>
    if ¬ count < limit.toNat then some (s, count)
    else if c.rxOwned (s.ring entry) then some (s, count)
    else
      match peekRound c length s entry with
      | none => none
      | some (s, .stop) => some (s, count)
      | some (s, .count) => peekLoop c length limit fuel (c.rxEntry (s.curRx + 1)) (count + 1) s
      | some (s, .pass) => peekLoop c length limit fuel (c.rxEntry (s.curRx + 1)) count s

/-- `limit` is compared as an unsigned number. -/
def stmmacPeekPacket (c : Conf) (length limit : BitVec 32) (fuel : Nat) (s : RxState) :
    Option (RxState × Nat) :=
  peekLoop c length limit fuel (c.rxEntry s.curRx) 0 s

end Stmmac
