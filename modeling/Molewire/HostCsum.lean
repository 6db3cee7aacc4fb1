/-
# Frames from the host

`fix_host_checksums` of `usb_net.c`: the third copy of the restorer, for frames
that come from the host. It clamps the MSS option of a SYN before it looks at
the checksum, and it fills in the path MTU of a fragmentation-needed message
that the stack has made. Every access is checked against the buffer here too.
-/

import Molewire.EthCsum
import Molewire.MssClamp

namespace Molewire

open ByteBuffer OnesComplement

/-- The option walk of `clamp_tcp_mss`, at option offset `off` of the `doff`-byte header at `l4`.
Whether the option was rewritten comes with the frame. -/
def clampTcpMssLoop (mss : UInt16) (f : Bytes) (l4 doff off : Nat) : Option (Bytes × Bool) :=
  if off + 1 < doff then
    match f[l4 + off]? with
    | none => none
    | some kind =>
      if kind = 0 then some (f, false)
      else if kind = 1 then clampTcpMssLoop mss f l4 doff (off + 1)
      else
        match f[l4 + off + 1]? with
        | none => none
        | some olen =>
          if olen.toNat < 2 ∨ doff < off + olen.toNat then some (f, false)
          else if kind = 2 ∧ olen.toNat = 4 then do
            let value ← readSpan f (l4 + off + 2) 2
            if mss.toNat < be16 value 0 then
              let f ← write16 f (l4 + off + 2) mss.toNat
              return (f, true)
            else return (f, false)
          else clampTcpMssLoop mss f l4 doff (off + olen.toNat)
  else some (f, false)
termination_by doff - off

/-- `clamp_tcp_mss` on the `l4len` bytes of a TCP segment at `l4`. -/
def clampTcpMss (mss : UInt16) (f : Bytes) (l4 l4len : Nat) : Option (Bytes × Bool) := do
  if mss = 0 ∨ l4len < 20 then return (f, false)
  let flags ← f[l4 + 13]?
  if flags &&& 0x02 = 0 then return (f, false)
  let dataOff ← f[l4 + 12]?
  let doff := dataOff.toNat / 16 * 4
  if doff < 24 ∨ l4len < doff then return (f, false)
  clampTcpMssLoop mss f l4 doff 20

/-- The path MTU in a fragmentation-needed message that has none. -/
def stampPathMtu (mtu : UInt16) (f : Bytes) (l4 : Nat) : Option Bytes := do
  let type ← f[l4]?
  if type ≠ 3 then return f
  let code ← f[l4 + 1]?
  if code ≠ 4 then return f
  if ← isZero16 f (l4 + 6) then write16 f (l4 + 6) mtu.toNat
  else return f

/-- The transport part of `fix_host_checksums`. -/
def fixHostTransport (mss mtu : UInt16) (f : Bytes) (ip ihl tot : Nat) : Option Bytes := do
  let fragHi ← f[ip + 6]?
  if fragHi &&& 0x3F != 0 then return f
  let fragLo ← f[ip + 7]?
  if fragLo != 0 then return f
  let proto ← f[ip + 9]?
  let l4 := ip + ihl
  let l4len := tot - ihl
  if proto = 1 ∧ 8 ≤ l4len then
    if ← isZero16 f (l4 + 2) then
      -- a zero checksum marks it as our own
      let f ← stampPathMtu mtu f l4
      let seg ← readSpan f l4 l4len
      write16 f (l4 + 2) (csumFinish (csumAdd 0 seg))
    else return f
  else if proto = 6 ∧ 20 ≤ l4len then
    let (f, rewrote) ← clampTcpMss mss f l4 l4len
    -- a rewritten option forces the checksum to be computed anew
    let f ← if rewrote then write16 f (l4 + 16) 0 else some f
    restoreAt f (l4 + 16) do
      let sum ← pseudoSum f ip l4 l4len proto
      return csumFinish sum
  else if proto = 17 ∧ 8 ≤ l4len then
    restoreAt f (l4 + 6) do
      let sum ← pseudoSum f ip l4 l4len proto
      return if csumFinish sum = 0 then 0xFFFF else csumFinish sum
  else return f

/-- `fix_host_checksums` on a frame of the host, with the clamp that is set and the path MTU of the
tunnel. -/
def fixHostChecksums (mss mtu : UInt16) (f : Bytes) : Option Bytes := do
  if f.length < 34 then return f
  let ty ← readSpan f 12 2
  if ty ≠ [0x08, 0x00] then return f
  let hdr ← readSpan f 14 4
  let ihl := ipHeaderLen hdr
  let tot := ipTotalLen hdr
  if ipVersion hdr ≠ 4 ∨ ihl < 20 ∨ tot < ihl ∨ f.length < (14 + tot) % 65536 then return f
  let f ← restoreHeader f 14 ihl
  fixHostTransport mss mtu f 14 ihl tot

theorem fixHostChecksums_eq_guard (mss mtu : UInt16) (f : Bytes) :
    fixHostChecksums mss mtu f = frameGuard f fun ihl tot =>
      (restoreHeader f 14 ihl).bind fun q => fixHostTransport mss mtu q 14 ihl tot := rfl

/-! ### The clamp -/

theorem getElem?_eq_byte {f : Bytes} {k : Nat} (h : k < f.length) : f[k]? = some (byte f k) := by
  simp [byte, List.getD_eq_getElem?_getD, List.getElem?_eq_getElem h]

/-- In a header that is there the walk finds what the NAT's walk finds. -/
theorem clampTcpMssLoop_eq (mss : UInt16) {f : Bytes} {l4 doff : Nat} (off : Nat)
    (h : l4 + doff ≤ f.length) :
    clampTcpMssLoop mss f l4 doff off =
      some (match mssOption f l4 doff off with
        | some j =>
          if mss.toNat < be16 f (l4 + j + 2) then
            (splice f (l4 + j + 2) (bytes mss.toNat), true)
          else (f, false)
        | none => (f, false)) := by
  fun_induction mssOption f l4 doff off with
  | case1 i hi kind h0 =>
    rw [clampTcpMssLoop, if_pos hi, getElem?_eq_byte (by omega)]
    exact if_pos h0
  | case2 i hi kind h0 h1 ih =>
    rw [clampTcpMssLoop, if_pos hi, getElem?_eq_byte (by omega)]
    dsimp only
    rw [if_neg h0, if_pos h1, ih]
  | case3 i hi kind h0 h1 olen hlen =>
    rw [clampTcpMssLoop, if_pos hi, getElem?_eq_byte (by omega), getElem?_eq_byte (by omega)]
    dsimp only
    rw [if_neg h0, if_neg h1, if_pos hlen]
  | case4 i hi kind h0 h1 olen hlen hkind =>
    have hfour : olen = 4 := hkind.2
    have hval : readSpan f (l4 + i + 2) 2 = some (span f (l4 + i + 2) 2) := if_pos (by omega)
    have hword : be16 (span f (l4 + i + 2) 2) 0 = be16 f (l4 + i + 2) := by
      rw [span_two (by omega)]
      rfl
    have hwrite : write16 f (l4 + i + 2) mss.toNat =
        some (splice f (l4 + i + 2) (bytes mss.toNat)) := if_pos (by omega)
    rw [clampTcpMssLoop, if_pos hi, getElem?_eq_byte (by omega), getElem?_eq_byte (by omega)]
    dsimp only
    rw [if_neg h0, if_neg h1, if_neg hlen, if_pos hkind, hval]
    simp only [Option.bind_eq_bind, Option.bind_some, hword, hwrite]
    split_ifs <;> rfl
  | case5 i hi kind h0 h1 olen hlen hkind ih =>
    rw [clampTcpMssLoop, if_pos hi, getElem?_eq_byte (by omega), getElem?_eq_byte (by omega)]
    dsimp only
    rw [if_neg h0, if_neg h1, if_neg hlen, if_neg hkind, ih]
  | case6 i hi => rw [clampTcpMssLoop, if_neg hi]

/-- In a segment that is there the clamp lowers the value that exceeds it, and nothing else. -/
theorem clampTcpMss_eq (mss : UInt16) {f : Bytes} {l4 l4len : Nat} (h20 : 20 ≤ l4len)
    (h : l4 + l4len ≤ f.length) :
    clampTcpMss mss f l4 l4len =
      some (match exceedingMss mss f l4 l4len with
        | some k => (splice f k (bytes mss.toNat), true)
        | none => (f, false)) := by
  rw [clampTcpMss, exceedingMss, getElem?_eq_byte (by omega), getElem?_eq_byte (by omega)]
  have hdoff : (byte f (l4 + 12)).toNat / 16 * 4 = tcpHeaderLen f l4 := rfl
  simp only [Option.bind_eq_bind, Option.bind_some, hdoff]
  by_cases hoff : mss = 0 ∨ l4len < 20
  · rw [if_pos hoff, if_neg fun hc => hoff.elim hc.1 fun hlt => absurd hlt (by omega)]
    rfl
  rw [if_neg hoff]
  by_cases hsyn : byte f (l4 + 13) &&& 0x02 = 0
  · rw [if_pos hsyn, if_neg fun hc => hc.2.1 hsyn]
    rfl
  rw [if_neg hsyn]
  -- a header length is a multiple of four
  have hfour : tcpHeaderLen f l4 % 4 = 0 := by
    rw [tcpHeaderLen]
    omega
  by_cases hlen : tcpHeaderLen f l4 < 24 ∨ l4len < tcpHeaderLen f l4
  · rw [if_pos hlen, if_neg fun hc => by omega]
    rfl
  · rw [if_neg hlen, clampTcpMssLoop_eq mss 20 (by omega),
      if_pos ⟨fun h0 => hoff (.inl h0), hsyn, by omega, by omega⟩]
    cases mssOption f l4 (tcpHeaderLen f l4) 20 with
    | none => rfl
    | some j =>
      dsimp only
      split_ifs <;> rfl

end Molewire
