/-
# The MSS option

Both clamps walk the options of a SYN the same way: over what precedes it to an
MSS option of length four, or to the end of the options, to one that ends them
or to one whose length is not possible. What the walk comes to does not depend
on anything that is rewritten before it.
-/

import Molewire.NaptChecksum

namespace Molewire

open ByteBuffer OnesComplement

/-- Where the walk over the options of the `off`-byte TCP header at `l4` finds the MSS option. -/
def mssOption (pkt : Bytes) (l4 off i : Nat) : Option Nat :=
  if i + 1 < off then
    let kind := byte pkt (l4 + i)
    if kind = 0 then none
    else if kind = 1 then mssOption pkt l4 off (i + 1)
    else
      let olen := (byte pkt (l4 + i + 1)).toNat
      if olen < 2 ∨ off < i + olen then none
      else if kind = 2 ∧ olen = 4 then some i
      else mssOption pkt l4 off (i + olen)
  else none
termination_by off - i

/-- The option that is found lies in the header and is what it should be. -/
theorem mssOption_spec {pkt : Bytes} {l4 off i j : Nat} (h : mssOption pkt l4 off i = some j) :
    i ≤ j ∧ j + 4 ≤ off ∧ byte pkt (l4 + j) = 2 ∧ byte pkt (l4 + j + 1) = 4 := by
  fun_induction mssOption pkt l4 off i with
  | case1 => cases h
  | case2 i hi kind h0 h1 ih =>
    obtain ⟨hle, hrest⟩ := ih h
    exact ⟨by omega, hrest⟩
  | case3 => cases h
  | case4 i hi kind h0 h1 olen hlen hkind =>
    obtain rfl := Option.some.inj h
    have hfour : (byte pkt (l4 + i + 1)).toNat = 4 := hkind.2
    exact ⟨Nat.le_refl i, by omega, hkind.1, UInt8.toNat_inj.mp hfour⟩
  | case5 i hi kind h0 h1 olen hlen hkind ih =>
    obtain ⟨hle, hrest⟩ := ih h
    exact ⟨by omega, hrest⟩
  | case6 => cases h

/-- The walk reads the options only. -/
theorem mssOption_congr {p q : Bytes} {l4 off i : Nat}
    (h : ∀ k, l4 + i ≤ k → k < l4 + off → byte q k = byte p k) :
    mssOption q l4 off i = mssOption p l4 off i := by
  fun_induction mssOption p l4 off i with
  | case1 i hi kind h0 =>
    rw [mssOption, if_pos hi, h _ (by omega) (by omega)]
    exact if_pos h0
  | case2 i hi kind h0 h1 ih =>
    rw [mssOption, if_pos hi, h _ (by omega) (by omega)]
    dsimp only
    rw [if_neg h0, if_pos h1, ih fun k hk => h k (by omega)]
  | case3 i hi kind h0 h1 olen hlen =>
    rw [mssOption, if_pos hi, h _ (by omega) (by omega), h _ (by omega) (by omega)]
    dsimp only
    rw [if_neg h0, if_neg h1, if_pos hlen]
  | case4 i hi kind h0 h1 olen hlen hkind =>
    rw [mssOption, if_pos hi, h _ (by omega) (by omega), h _ (by omega) (by omega)]
    dsimp only
    rw [if_neg h0, if_neg h1, if_neg hlen, if_pos hkind]
  | case5 i hi kind h0 h1 olen hlen hkind ih =>
    rw [mssOption, if_pos hi, h _ (by omega) (by omega), h _ (by omega) (by omega)]
    dsimp only
    rw [if_neg h0, if_neg h1, if_neg hlen, if_neg hkind, ih fun k hk => h k (by omega)]
  | case6 i hi => rw [mssOption, if_neg hi]

/-- The walk of the NAT's clamp. -/
theorem clampMssLoop_eq (mss : Nat) (pkt : Bytes) (l4 off i : Nat) :
    clampMssLoop mss pkt l4 off i =
      match mssOption pkt l4 off i with
      | some j =>
        if mss < be16 pkt (l4 + j + 2) then
          csumAdjustNz (splice pkt (l4 + j + 2) (bytes mss)) (l4 + 16)
            (span pkt (l4 + j + 2) 2) (bytes mss)
        else pkt
      | none => pkt := by
  fun_induction mssOption pkt l4 off i with
  | case1 i hi kind h0 => rw [clampMssLoop, if_pos hi]; exact if_pos h0
  | case2 i hi kind h0 h1 ih =>
    rw [clampMssLoop, if_pos hi]
    dsimp only
    rw [if_neg h0, if_pos h1, ih]
  | case3 i hi kind h0 h1 olen hlen =>
    rw [clampMssLoop, if_pos hi]
    dsimp only
    rw [if_neg h0, if_neg h1, if_pos hlen]
  | case4 i hi kind h0 h1 olen hlen hkind =>
    rw [clampMssLoop, if_pos hi]
    dsimp only
    rw [if_neg h0, if_neg h1, if_neg hlen, if_pos hkind]
  | case5 i hi kind h0 h1 olen hlen hkind ih =>
    rw [clampMssLoop, if_pos hi]
    dsimp only
    rw [if_neg h0, if_neg h1, if_neg hlen, if_neg hkind, ih]
  | case6 i hi => rw [clampMssLoop, if_neg hi]

/-- The length of the TCP header at `l4`. -/
def tcpHeaderLen (pkt : Bytes) (l4 : Nat) : Nat := (byte pkt (l4 + 12)).toNat / 16 * 4

/-- The packet opens a connection. -/
def isSyn (pkt : Bytes) (l4 : Nat) : Prop := byte pkt (l4 + 13) &&& 0x02 ≠ 0

instance (pkt : Bytes) (l4 : Nat) : Decidable (isSyn pkt l4) :=
  inferInstanceAs (Decidable (_ ≠ _))

/-- Where the MSS value of a SYN is that exceeds the clamp, in a TCP header of which `room` bytes
are there. -/
def exceedingMss (mss : UInt16) (pkt : Bytes) (l4 room : Nat) : Option Nat :=
  if mss ≠ 0 ∧ isSyn pkt l4 ∧ 20 < tcpHeaderLen pkt l4 ∧ tcpHeaderLen pkt l4 ≤ room then
    match mssOption pkt l4 (tcpHeaderLen pkt l4) 20 with
    | some j => if mss.toNat < be16 pkt (l4 + j + 2) then some (l4 + j + 2) else none
    | none => none
  else none

/-- It is the value of an MSS option inside the header. -/
theorem exceedingMss_spec {mss : UInt16} {pkt : Bytes} {l4 room k : Nat}
    (h : exceedingMss mss pkt l4 room = some k) :
    mss ≠ 0 ∧ isSyn pkt l4 ∧ l4 + 22 ≤ k ∧ k + 2 ≤ l4 + tcpHeaderLen pkt l4 ∧
      tcpHeaderLen pkt l4 ≤ room ∧ byte pkt (k - 2) = 2 ∧ byte pkt (k - 1) = 4 ∧
      mss.toNat < be16 pkt k := by
  unfold exceedingMss at h
  split_ifs at h with hsyn
  split at h
  next j hj =>
    split_ifs at h with hexc
    obtain rfl := Option.some.inj h
    obtain ⟨hle, hoff, hkind, hlen⟩ := mssOption_spec hj
    refine ⟨hsyn.1, hsyn.2.1, by omega, by omega, hsyn.2.2.2, ?_, ?_, hexc⟩
    · rwa [show l4 + j + 2 - 2 = l4 + j by omega]
    · rwa [show l4 + j + 2 - 1 = l4 + j + 1 by omega]
  next => cases h

/-- The clamp lowers just that value, and adjusts the checksum for it. -/
theorem clampMss_eq (mss : UInt16) (pkt : Bytes) (v : PktView) :
    clampMss mss pkt v =
      match exceedingMss mss pkt v.ihl v.l4avail with
      | some k =>
        csumAdjustNz (splice pkt k (bytes mss.toNat)) (v.ihl + 16) (span pkt k 2)
          (bytes mss.toNat)
      | none => pkt := by
  rw [clampMss, exceedingMss, ← tcpHeaderLen]
  by_cases hsyn : mss = 0 ∨ byte pkt (v.ihl + 13) &&& 0x02 = 0
  · rw [if_pos hsyn, if_neg fun h => hsyn.elim h.1 h.2.1]
  · rw [if_neg hsyn]
    by_cases hlen : tcpHeaderLen pkt v.ihl ≤ 20 ∨ v.l4avail < tcpHeaderLen pkt v.ihl
    · rw [if_pos hlen, if_neg fun h => by omega]
    · rw [if_neg hlen, clampMssLoop_eq,
        if_pos ⟨fun h => hsyn (.inl h), fun h => hsyn (.inr h), by omega, by omega⟩]
      cases mssOption pkt v.ihl (tcpHeaderLen pkt v.ihl) 20 with
      | none => rfl
      | some j =>
        dsimp only
        split_ifs <;> rfl

/-- What decides is in the TCP header, behind the ports and apart from the checksum. -/
theorem exceedingMss_congr {mss : UInt16} {p q : Bytes} {l4 room : Nat}
    (h : ∀ k, l4 + 12 ≤ k → (k < l4 + 16 ∨ l4 + 18 ≤ k) → byte q k = byte p k) :
    exceedingMss mss q l4 room = exceedingMss mss p l4 room := by
  have hlen : tcpHeaderLen q l4 = tcpHeaderLen p l4 := by
    rw [tcpHeaderLen, tcpHeaderLen, h (l4 + 12) (by omega) (by omega)]
  have hsyn : isSyn q l4 ↔ isSyn p l4 := by
    rw [isSyn, isSyn, h (l4 + 13) (by omega) (by omega)]
  have hopt : mssOption q l4 (tcpHeaderLen p l4) 20 = mssOption p l4 (tcpHeaderLen p l4) 20 :=
    mssOption_congr fun k hk _ => h k (by omega) (by omega)
  simp only [exceedingMss, hlen, hsyn, hopt]
  split_ifs
  · cases hj : mssOption p l4 (tcpHeaderLen p l4) 20 with
    | none => rfl
    | some j =>
      have hle := (mssOption_spec hj).1
      dsimp only
      rw [be16, be16, h _ (by omega) (by omega), h _ (by omega) (by omega)]
  · rfl

end Molewire
