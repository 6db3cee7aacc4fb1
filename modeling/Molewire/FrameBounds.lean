/-
# Accesses of the frame restorers

The frame restorers compare the frame length with a 16-bit sum. Where the
Ethernet header takes the total length past 16 bits the sum starts over, every
frame passes, and the checksums are computed over bytes behind the frame. What
then still saves a frame is that nothing has to be computed.
-/

import Mathlib.Logic.Relation
import Molewire.HostCsum

namespace Molewire

open ByteBuffer OnesComplement Relation

/-! ### Accesses -/

theorem byte_drop (f : Bytes) (n k : Nat) : byte (f.drop n) k = byte f (n + k) := by
  rw [byte, byte, List.getD_eq_getElem?_getD, List.getD_eq_getElem?_getD, List.getElem?_drop]

theorem byte_of_le {f : Bytes} {k : Nat} (h : f.length ≤ k) : byte f k = 0 := by
  rw [byte, List.getD_eq_getElem?_getD, List.getElem?_eq_none h]
  rfl

theorem readSpan_isSome_iff {f : Bytes} {off n : Nat} :
    (readSpan f off n).isSome ↔ off + n ≤ f.length := by
  rw [readSpan]
  split_ifs with h <;> simp [h]

theorem write16_isSome_iff {f : Bytes} {off w : Nat} :
    (write16 f off w).isSome ↔ off + 2 ≤ f.length := by
  rw [write16]
  split_ifs with h <;> simp [h]

/-- The test for a mark stays inside the frame where it fails: a byte behind the frame is never
read after one that is not zero. -/
theorem isZero16_cases (f : Bytes) (off : Nat) :
    (be16 f off ≠ 0 ∧ isZero16 f off = some false) ∨
      (be16 f off = 0 ∧ off + 2 ≤ f.length ∧ isZero16 f off = some true) ∨
      (be16 f off = 0 ∧ f.length < off + 2 ∧ isZero16 f off = none) := by
  by_cases hin : off + 2 ≤ f.length
  · rw [isZero16_eq hin]
    by_cases h0 : be16 f off = 0
    · exact .inr (.inl ⟨h0, hin, by simp [h0]⟩)
    · exact .inl ⟨h0, by simp [h0]⟩
  have hlo : byte f (off + 1) = 0 := byte_of_le (by omega)
  rcases Nat.lt_or_ge off f.length with hlt | hge
  · rw [isZero16, getElem?_eq_byte hlt, be16, hlo, word_eq_zero_iff, Ne, word_eq_zero_iff]
    by_cases hhi : byte f off = 0
    · exact .inr (.inr ⟨⟨hhi, rfl⟩, by omega, by
        simp [hhi, List.getElem?_eq_none (show f.length ≤ off + 1 by omega)]⟩)
    · exact .inl ⟨fun hc => hhi hc.1, by simp [hhi]⟩
  · refine .inr (.inr ⟨?_, by omega, ?_⟩)
    · rw [be16, hlo, byte_of_le hge]
      rfl
    · rw [isZero16, List.getElem?_eq_none hge]
      rfl

theorem restoreAt_isSome_iff {f : Bytes} {off : Nat} {csum : Option Nat} :
    (restoreAt f off csum).isSome ↔ be16 f off ≠ 0 ∨ (off + 2 ≤ f.length ∧ csum.isSome) := by
  rw [restoreAt]
  rcases isZero16_cases f off with ⟨h0, hz⟩ | ⟨h0, hin, hz⟩ | ⟨h0, hout, hz⟩ <;> rw [hz]
  · simp [h0]
  · cases csum with
    | none => simp [h0]
    | some c => simp [h0, hin, write16]
  · simp [h0]
    omega

theorem pseudoSum_isSome_iff {f : Bytes} {ip l4 len : Nat} {proto : UInt8}
    (h : ip + 20 ≤ f.length) : (pseudoSum f ip l4 len proto).isSome ↔ l4 + len ≤ f.length := by
  have haddrs : readSpan f (ip + 12) 8 = some (span f (ip + 12) 8) := if_pos (by omega)
  rw [pseudoSum, haddrs, ← readSpan_isSome_iff (f := f)]
  cases readSpan f l4 len <;> simp

/-- Where the sum reads up to `e`, past the field it is for, the restorer does so unless the field
is already set. -/
theorem restoreAt_segment {α : Type*} {f : Bytes} {off e : Nat} {sum : Option α} {k : α → Nat}
    (hsum : sum.isSome ↔ e ≤ f.length) (hoff : off + 2 ≤ e) :
    (restoreAt f off (sum.bind fun x => some (k x))).isSome ↔ be16 f off ≠ 0 ∨ e ≤ f.length := by
  have hread : (sum.bind fun x => some (k x)).isSome ↔ e ≤ f.length := by
    rw [← hsum]
    cases sum <;> simp
  rw [restoreAt_isSome_iff, hread]
  refine or_congr_right ⟨fun h => h.2, fun h => ⟨by omega, h⟩⟩

/-! ### The header -/

theorem restoreHeader_isSome_iff {f : Bytes} {ihl : Nat} (hihl : 20 ≤ ihl) :
    (restoreHeader f 14 ihl).isSome ↔ be16 f 24 ≠ 0 ∨ 14 + ihl ≤ f.length := by
  exact restoreAt_segment readSpan_isSome_iff (show 14 + 10 + 2 ≤ 14 + ihl by omega)

/-- The header restorer writes its field alone. -/
theorem agreeOff_restoreHeader {f q : Bytes} {ihl : Nat} (h : restoreHeader f 14 ihl = some q) :
    AgreeOff f q 24 2 := by
  rw [restoreHeader, restoreAt] at h
  rcases isZero16_cases f (14 + 10) with ⟨-, hz⟩ | ⟨-, hin, hz⟩ | ⟨-, -, hz⟩ <;> rw [hz] at h
  · cases h
    exact .refl _ _ _
  · cases hspan : readSpan f 14 ihl with
    | none => simp [hspan] at h
    | some hdr =>
      have hq : q = splice f (14 + 10) (bytes (csumFinish (csumAdd 0 hdr))) := by
        simpa [hspan, write16, hin] using h.symm
      rw [hq]
      exact agreeOff_splice _ _ _
  · cases h

/-! ### The transport -/

/-- The protocols whose checksum is looked at, with room for their header. -/
def Summed (proto : UInt8) (len : Nat) : Prop :=
  (proto = 1 ∧ 8 ≤ len) ∨ (proto = 6 ∧ 20 ≤ len) ∨ (proto = 17 ∧ 8 ≤ len)

section Transport

variable {q : Bytes} {ihl tot : Nat}

theorem isFragment_drop (q : Bytes) :
    isFragment (q.drop 14) = (byte q 20 &&& 0x3F != 0 || byte q 21 != 0) := by
  rw [isFragment, byte_drop, byte_drop]

/-- Both transport restorers let a fragment pass and go by the protocol otherwise. -/
theorem transport_isSome (hlong : 34 ≤ q.length) {rest : UInt8 → Option Bytes} :
    (do
      let fragHi ← q[14 + 6]?
      if fragHi &&& 0x3F != 0 then return q
      let fragLo ← q[14 + 7]?
      if fragLo != 0 then return q
      let proto ← q[14 + 9]?
      rest proto).isSome ↔ (isFragment (q.drop 14) = false → (rest (byte q 23)).isSome) := by
  rw [isFragment_drop, getElem?_eq_byte (by omega), getElem?_eq_byte (by omega),
    getElem?_eq_byte (by omega)]
  simp only [Option.bind_eq_bind, Option.bind_some]
  by_cases hhi : byte q 20 &&& 0x3F != 0
  · simp [hhi]
  by_cases hlo : byte q 21 != 0
  · simp [hlo]
  rw [if_neg hhi, if_neg hlo]
  have hwhole : (byte q 20 &&& 0x3F != 0 || byte q 21 != 0) = false := by
    rw [Bool.or_eq_false_iff]
    exact ⟨by simpa using hhi, by simpa using hlo⟩
  rw [hwhole]
  exact ⟨fun h _ => h, fun h => h rfl⟩

theorem restoreTransport_isSome_iff (hlong : 34 ≤ q.length) :
    (restoreTransport q 14 ihl tot).isSome ↔
      (isFragment (q.drop 14) = false → Summed (byte q 23) (tot - ihl) →
        be16 q (14 + ihl + l4CsumOff (byte q 23)) ≠ 0 ∨ 14 + ihl + (tot - ihl) ≤ q.length) := by
  refine (transport_isSome hlong).trans (imp_congr_right fun _ => ?_)
  dsimp only
  have hpseudo : (pseudoSum q 14 (14 + ihl) (tot - ihl) (byte q 23)).isSome ↔
      14 + ihl + (tot - ihl) ≤ q.length := pseudoSum_isSome_iff hlong
  by_cases h1 : byte q 23 = 1 ∧ 8 ≤ tot - ihl
  · rw [if_pos h1, forall_prop_of_true (.inl h1), h1.1]
    exact restoreAt_segment readSpan_isSome_iff (by omega)
  rw [if_neg h1]
  by_cases h6 : byte q 23 = 6 ∧ 20 ≤ tot - ihl
  · rw [if_pos h6, forall_prop_of_true (.inr (.inl h6))]
    rw [h6.1] at hpseudo ⊢
    exact restoreAt_segment hpseudo (by omega)
  rw [if_neg h6]
  by_cases h17 : byte q 23 = 17 ∧ 8 ≤ tot - ihl
  · rw [if_pos h17, forall_prop_of_true (.inr (.inr h17))]
    rw [h17.1] at hpseudo ⊢
    exact restoreAt_segment hpseudo (by omega)
  · rw [if_neg h17]
    refine iff_of_true rfl fun hsum => ?_
    rcases hsum with h | h | h
    · exact absurd h h1
    · exact absurd h h6
    · exact absurd h h17

end Transport

/-! ### The option walk -/

/-- The length an option has behind its kind. -/
def optionLen (f : Bytes) (l4 off : Nat) : Nat := (byte f (l4 + off + 1)).toNat

/-- From the option at one offset of a TCP header to the next. -/
def OptionStep (f : Bytes) (l4 doff off next : Nat) : Prop :=
  off + 1 < doff ∧
    ((byte f (l4 + off) = 1 ∧ next = off + 1) ∨
      (byte f (l4 + off) ≠ 0 ∧ byte f (l4 + off) ≠ 1 ∧ 2 ≤ optionLen f l4 off ∧
        off + optionLen f l4 off ≤ doff ∧ ¬(byte f (l4 + off) = 2 ∧ optionLen f l4 off = 4) ∧
        next = off + optionLen f l4 off))

/-- What is read of the option at an offset lies inside the frame, and the clamp does not change
it. -/
def OptionInside (mss : UInt16) (f : Bytes) (l4 doff off : Nat) : Prop :=
  off + 1 < doff →
    l4 + off < f.length ∧
      (byte f (l4 + off) ≠ 0 → byte f (l4 + off) ≠ 1 →
        l4 + off + 1 < f.length ∧
          (byte f (l4 + off) = 2 → optionLen f l4 off = 4 → off + 4 ≤ doff →
            l4 + off + 4 ≤ f.length ∧ be16 f (l4 + off + 2) ≤ mss.toNat))

/-- At the last option of a walk. -/
theorem forall_options_last {f : Bytes} {l4 doff off : Nat} {P : Nat → Prop}
    (h : ∀ next, ¬OptionStep f l4 doff off next) :
    (∀ o, ReflTransGen (OptionStep f l4 doff) off o → P o) ↔ P off := by
  refine ⟨fun hall => hall off .refl, fun hp o ho => ?_⟩
  rcases ReflTransGen.cases_head_iff.mp ho with rfl | ⟨next, hstep, -⟩
  · exact hp
  · exact absurd hstep (h next)

/-- And before the next one. -/
theorem forall_options_step {f : Bytes} {l4 doff off next : Nat} {P : Nat → Prop}
    (hstep : OptionStep f l4 doff off next)
    (hdet : ∀ next', OptionStep f l4 doff off next' → next' = next) :
    (∀ o, ReflTransGen (OptionStep f l4 doff) off o → P o) ↔
      P off ∧ ∀ o, ReflTransGen (OptionStep f l4 doff) next o → P o := by
  refine ⟨fun hall => ⟨hall off .refl, fun o ho => hall o (.head hstep ho)⟩, fun hp o ho => ?_⟩
  rcases ReflTransGen.cases_head_iff.mp ho with rfl | ⟨next', hstep', hrest⟩
  · exact hp.1
  · rw [hdet next' hstep'] at hrest
    exact hp.2 o hrest

theorem byte_of_getElem? {f : Bytes} {k : Nat} {x : UInt8} (h : f[k]? = some x) :
    k < f.length ∧ byte f k = x := by
  obtain ⟨hlt, -⟩ := List.getElem?_eq_some_iff.mp h
  rw [getElem?_eq_byte hlt] at h
  exact ⟨hlt, Option.some.inj h⟩

/-- The walk leaves the frame alone where, and only where, all the options it comes by allow it. -/
theorem clampTcpMssLoop_unchanged_iff (mss : UInt16) (f : Bytes) (l4 doff off : Nat) :
    clampTcpMssLoop mss f l4 doff off = some (f, false) ↔
      ∀ o, ReflTransGen (OptionStep f l4 doff) off o → OptionInside mss f l4 doff o := by
  fun_induction clampTcpMssLoop mss f l4 doff off with
  | case1 off hoff hget =>
    refine iff_of_false (by simp) fun hall => ?_
    have hin := (hall off .refl hoff).1
    rw [List.getElem?_eq_none_iff] at hget
    omega
  | case2 off hoff hget =>
    obtain ⟨hlt, hkind⟩ := byte_of_getElem? hget
    rw [forall_options_last fun next hstep => ?_]
    · exact iff_of_true rfl fun _ => ⟨hlt, fun h0 => absurd hkind h0⟩
    · rw [OptionStep, hkind] at hstep
      simp at hstep
  | case3 off hoff hget h0 ih =>
    obtain ⟨hlt, hkind⟩ := byte_of_getElem? hget
    rw [ih, forall_options_step ⟨hoff, .inl ⟨hkind, rfl⟩⟩ fun next hstep => ?_]
    · exact (and_iff_right fun _ => ⟨hlt, fun _ h1 => absurd hkind h1⟩).symm
    · rcases hstep.2 with hnop | hskip
      · exact hnop.2
      · exact absurd hkind hskip.2.1
  | case4 off hoff kind hget h0 h1 hlen =>
    obtain ⟨hlt, hkind⟩ := byte_of_getElem? hget
    refine iff_of_false (by simp) fun hall => ?_
    have hin := (hall off .refl hoff).2 (by rwa [hkind]) (by rwa [hkind])
    rw [List.getElem?_eq_none_iff] at hlen
    omega
  | case5 off hoff kind hget h0 h1 olen hlen hbad =>
    obtain ⟨hlt, hkind⟩ := byte_of_getElem? hget
    obtain ⟨hlt', hbyte⟩ := byte_of_getElem? hlen
    have holen : optionLen f l4 off = olen.toNat := by rw [optionLen, hbyte]
    rw [forall_options_last fun next hstep => ?_]
    · refine iff_of_true rfl fun _ => ⟨hlt, fun _ _ => ⟨hlt', fun _ hfour hdoff => ?_⟩⟩
      omega
    · rcases hstep.2 with hnop | hskip
      · exact absurd (hkind.symm.trans hnop.1) h1
      · rw [holen] at hskip
        omega
  | case6 off hoff kind hget h0 h1 olen hlen hgood hmss =>
    obtain ⟨hlt, hkind⟩ := byte_of_getElem? hget
    obtain ⟨hlt', hbyte⟩ := byte_of_getElem? hlen
    have holen : optionLen f l4 off = olen.toNat := by rw [optionLen, hbyte]
    rw [forall_options_last fun next hstep => ?_]
    · by_cases hin : l4 + off + 4 ≤ f.length
      · have hval : readSpan f (l4 + off + 2) 2 = some (span f (l4 + off + 2) 2) :=
          if_pos (by omega)
        have hword : be16 (span f (l4 + off + 2) 2) 0 = be16 f (l4 + off + 2) := by
          rw [span_two (by omega)]
          rfl
        rw [hval]
        simp only [Option.bind_eq_bind, Option.bind_some, hword]
        by_cases hlt : mss.toNat < be16 f (l4 + off + 2)
        · rw [if_pos hlt, write16, if_pos (by omega)]
          refine iff_of_false (by simp) fun hinside => ?_
          have hle := (((hinside hoff).2 (by rwa [hkind]) (by rwa [hkind])).2
            (hkind.trans hmss.1) (holen.trans hmss.2) (by omega)).2
          omega
        · rw [if_neg hlt]
          exact iff_of_true rfl fun _ => ⟨by omega, fun _ _ => ⟨hlt', fun _ _ _ =>
            ⟨hin, by omega⟩⟩⟩
      · have hval : readSpan f (l4 + off + 2) 2 = none := if_neg (by omega)
        rw [hval]
        refine iff_of_false (by simp) fun hinside => ?_
        exact hin (((hinside hoff).2 (by rwa [hkind]) (by rwa [hkind])).2
          (hkind.trans hmss.1) (holen.trans hmss.2) (by omega)).1
    · rcases hstep.2 with hnop | hskip
      · exact absurd (hkind.symm.trans hnop.1) h1
      · exact hskip.2.2.2.2.1 ⟨hkind.trans hmss.1, holen.trans hmss.2⟩
  | case7 off hoff kind hget h0 h1 olen hlen hgood hmss ih =>
    obtain ⟨hlt, hkind⟩ := byte_of_getElem? hget
    obtain ⟨hlt', hbyte⟩ := byte_of_getElem? hlen
    have holen : optionLen f l4 off = olen.toNat := by rw [optionLen, hbyte]
    rw [ih, forall_options_step ⟨hoff, .inr ⟨by rwa [hkind], by rwa [hkind], by omega, by omega,
      by rwa [hkind, holen], congrArg (off + ·) holen.symm⟩⟩ fun next hstep => ?_]
    · exact (and_iff_right fun _ => ⟨hlt, fun _ _ => ⟨hlt', fun h2 h4 _ =>
        absurd ⟨hkind.symm.trans h2, holen.symm.trans h4⟩ hmss⟩⟩).symm
    · rcases hstep.2 with hnop | hskip
      · exact absurd (hkind.symm.trans hnop.1) h1
      · rw [hskip.2.2.2.2.2, holen]
  | case8 off hoff =>
    rw [forall_options_last fun next hstep => hoff hstep.1]
    exact iff_of_true rfl fun h => absurd h hoff

/-- The clamp changes no option of a SYN, and reads none outside the frame. -/
def OptionsInside (mss : UInt16) (f : Bytes) (l4 : Nat) : Prop :=
  mss ≠ 0 → byte f (l4 + 13) &&& 0x02 ≠ 0 → 24 ≤ tcpHeaderLen f l4 →
    ∀ o, ReflTransGen (OptionStep f l4 (tcpHeaderLen f l4)) 20 o →
      OptionInside mss f l4 (tcpHeaderLen f l4) o

theorem clampTcpMss_unchanged_iff (mss : UInt16) {f : Bytes} {l4 len : Nat} (hlen : 60 ≤ len)
    (hin : l4 + 13 < f.length) :
    clampTcpMss mss f l4 len = some (f, false) ↔ OptionsInside mss f l4 := by
  have hdoff : (byte f (l4 + 12)).toNat / 16 * 4 = tcpHeaderLen f l4 := rfl
  have hle : tcpHeaderLen f l4 ≤ 60 := by
    have hbyte := (byte f (l4 + 12)).toNat_lt
    rw [tcpHeaderLen]
    omega
  rw [clampTcpMss, getElem?_eq_byte (by omega), getElem?_eq_byte (by omega)]
  simp only [Option.bind_eq_bind, Option.bind_some, hdoff]
  by_cases h0 : mss = 0 ∨ len < 20
  · rw [if_pos h0]
    exact iff_of_true rfl fun hne => absurd (h0.resolve_right (by omega)) hne
  rw [if_neg h0]
  by_cases hsyn : byte f (l4 + 13) &&& 0x02 = 0
  · rw [if_pos hsyn]
    exact iff_of_true rfl fun _ hne => absurd hsyn hne
  rw [if_neg hsyn]
  by_cases hopt : tcpHeaderLen f l4 < 24 ∨ len < tcpHeaderLen f l4
  · rw [if_pos hopt]
    exact iff_of_true rfl fun _ _ h24 => by omega
  · rw [if_neg hopt, clampTcpMssLoop_unchanged_iff]
    exact ⟨fun h _ _ _ => h, fun h => h (fun hz => h0 (.inl hz)) hsyn (by omega)⟩

theorem clampTcpMssLoop_some {mss : UInt16} {f g : Bytes} {l4 doff off : Nat} {rewrote : Bool}
    (h : clampTcpMssLoop mss f l4 doff off = some (g, rewrote)) :
    g.length = f.length ∧ (rewrote = false → g = f) := by
  fun_induction clampTcpMssLoop mss f l4 doff off with
  | case1 => cases h
  | case2 => cases h; exact ⟨rfl, fun _ => rfl⟩
  | case3 off hoff hget h0 ih => exact ih h
  | case4 => cases h
  | case5 => cases h; exact ⟨rfl, fun _ => rfl⟩
  | case6 off hoff kind hget h0 h1 olen hlen hgood hmss =>
    cases hval : readSpan f (l4 + off + 2) 2 with
    | none => simp [hval] at h
    | some value =>
      by_cases hlt : mss.toNat < be16 value 0
      · cases hwrite : write16 f (l4 + off + 2) mss.toNat with
        | none => simp [hval, hlt, hwrite] at h
        | some f' =>
          obtain ⟨rfl, rfl⟩ : f' = g ∧ true = rewrote := by
            simpa [hval, hlt, hwrite] using h
          rw [write16] at hwrite
          split_ifs at hwrite
          cases hwrite
          exact ⟨length_splice _ _ _, fun hc => by cases hc⟩
      · obtain ⟨rfl, rfl⟩ : f = g ∧ false = rewrote := by simpa [hval, hlt] using h
        exact ⟨rfl, fun _ => rfl⟩
  | case7 off hoff kind hget h0 h1 olen hlen hgood hmss ih => exact ih h
  | case8 => cases h; exact ⟨rfl, fun _ => rfl⟩

theorem clampTcpMss_some {mss : UInt16} {f g : Bytes} {l4 len : Nat} {rewrote : Bool}
    (h : clampTcpMss mss f l4 len = some (g, rewrote)) :
    g.length = f.length ∧ (rewrote = false → g = f) := by
  rw [clampTcpMss] at h
  split_ifs at h with h0
  · cases h
    exact ⟨rfl, fun _ => rfl⟩
  cases hflags : f[l4 + 13]? with
  | none => simp [hflags] at h
  | some flags =>
    cases hoff : f[l4 + 12]? with
    | none =>
      simp only [hflags, hoff, Option.bind_eq_bind, Option.bind_some] at h
      split_ifs at h
      · cases h
        exact ⟨rfl, fun _ => rfl⟩
      · cases h
    | some dataOff =>
      simp only [hflags, hoff, Option.bind_eq_bind, Option.bind_some] at h
      split_ifs at h
      · cases h
        exact ⟨rfl, fun _ => rfl⟩
      · cases h
        exact ⟨rfl, fun _ => rfl⟩
      · exact clampTcpMssLoop_some h

section HostTransport

variable {mss mtu : UInt16} {q : Bytes} {ihl tot : Nat}

/-- Where the segment reaches behind the frame, the TCP branch computes no sum: the field is set
and the clamp leaves the options alone. -/
theorem fixHostTcp_isSome_iff (hlen : 60 ≤ tot - ihl)
    (hshort : q.length < 14 + ihl + (tot - ihl)) :
    (do
      let (f, rewrote) ← clampTcpMss mss q (14 + ihl) (tot - ihl)
      let f ← if rewrote then write16 f (14 + ihl + 16) 0 else some f
      restoreAt f (14 + ihl + 16) do
        let sum ← pseudoSum f 14 (14 + ihl) (tot - ihl) 6
        return csumFinish sum).isSome ↔
      be16 q (14 + ihl + 16) ≠ 0 ∧ OptionsInside mss q (14 + ihl) := by
  -- a field that is set is inside, and so are the flags before it
  have hunchanged : be16 q (14 + ihl + 16) ≠ 0 →
      (clampTcpMss mss q (14 + ihl) (tot - ihl) = some (q, false) ↔
        OptionsInside mss q (14 + ihl)) := by
    intro hne
    refine clampTcpMss_unchanged_iff mss hlen ?_
    by_contra hout
    refine hne ?_
    rw [be16, byte_of_le (by omega), byte_of_le (by omega)]
    rfl
  -- no sum over the segment has a result
  have hsum : ∀ g : Bytes, g.length = q.length →
      pseudoSum g 14 (14 + ihl) (tot - ihl) 6 = none := by
    intro g hg
    rw [pseudoSum, show readSpan g (14 + ihl) (tot - ihl) = none from if_neg (by omega)]
    cases readSpan g (14 + 12) 8 <;> rfl
  cases hclamp : clampTcpMss mss q (14 + ihl) (tot - ihl) with
  | none =>
    refine iff_of_false (by simp) fun h => ?_
    rw [← hunchanged h.1, hclamp] at h
    cases h.2
  | some res =>
    obtain ⟨g, rewrote⟩ := res
    obtain ⟨hg, hsame⟩ := clampTcpMss_some hclamp
    cases rewrote with
    | true =>
      refine iff_of_false ?_ fun h => ?_
      · simp only [Option.bind_eq_bind, Option.bind_some, if_true]
        rw [write16]
        split_ifs with hin
        · rw [Option.bind_some, hsum _ ((length_splice _ _ _).trans hg), restoreAt_isSome_iff]
          have hzero : be16 (splice g (14 + ihl + 16) (bytes 0)) (14 + ihl + 16) = 0 :=
            be16_splice_self hin
          simp [hzero]
        · simp
      · rw [← hunchanged h.1, hclamp] at h
        cases h.2
    | false =>
      obtain rfl := hsame rfl
      simp only [Option.bind_eq_bind, Option.bind_some, Bool.false_eq_true, if_false]
      rw [hsum g rfl, restoreAt_isSome_iff]
      constructor
      · intro h
        have hne := h.resolve_right (by simp)
        exact ⟨hne, (hunchanged hne).mp hclamp⟩
      · exact fun h => .inl h.1

theorem length_stampPathMtu {f g : Bytes} {l4 : Nat} (h : stampPathMtu mtu f l4 = some g) :
    g.length = f.length := by
  rw [stampPathMtu] at h
  cases htype : f[l4]? with
  | none => simp [htype] at h
  | some type =>
    cases hcode : f[l4 + 1]? with
    | none =>
      simp only [htype, hcode, Option.bind_eq_bind, Option.bind_some] at h
      split_ifs at h
      · cases h
        rfl
      · cases h
    | some code =>
      simp only [htype, hcode, Option.bind_eq_bind, Option.bind_some] at h
      split_ifs at h
      · cases h
        rfl
      · cases h
        rfl
      · rcases isZero16_cases f (l4 + 6) with ⟨-, hz⟩ | ⟨-, hin, hz⟩ | ⟨-, -, hz⟩
        · obtain rfl : f = g := by simpa [hz] using h
          rfl
        · have hg : splice f (l4 + 6) (bytes mtu.toNat) = g := by
            simpa [hz, write16, hin] using h
          rw [← hg, length_splice]
        · simp [hz] at h

theorem fixHostIcmp_isSome_iff (hshort : q.length < 14 + ihl + (tot - ihl)) :
    (do
      if ← isZero16 q (14 + ihl + 2) then
        let f ← stampPathMtu mtu q (14 + ihl)
        let seg ← readSpan f (14 + ihl) (tot - ihl)
        write16 f (14 + ihl + 2) (csumFinish (csumAdd 0 seg))
      else return q).isSome ↔ be16 q (14 + ihl + 2) ≠ 0 := by
  rcases isZero16_cases q (14 + ihl + 2) with ⟨h0, hz⟩ | ⟨h0, -, hz⟩ | ⟨h0, -, hz⟩ <;> rw [hz]
  · simp [h0]
  · refine iff_of_false ?_ fun hne => hne h0
    cases hstamp : stampPathMtu mtu q (14 + ihl) with
    | none => simp
    | some g =>
      have hlen := length_stampPathMtu hstamp
      have hseg : readSpan g (14 + ihl) (tot - ihl) = none := if_neg (by omega)
      simp [hseg]
  · simp [h0]

/-- In a frame that ends before the segment does, the copy for the host touches nothing outside
where the other restorer does not and the clamp leaves the options alone. -/
theorem fixHostTransport_isSome_iff (hlong : 34 ≤ q.length) (hlen : 60 ≤ tot - ihl)
    (hshort : q.length < 14 + ihl + (tot - ihl)) :
    (fixHostTransport mss mtu q 14 ihl tot).isSome ↔
      (restoreTransport q 14 ihl tot).isSome ∧
        (isFragment (q.drop 14) = false → byte q 23 = 6 → OptionsInside mss q (14 + ihl)) := by
  rw [restoreTransport_isSome_iff hlong]
  refine (transport_isSome hlong).trans ?_
  rw [← forall_and]
  refine forall_congr' fun hwhole => ?_
  dsimp only
  have hout : ¬14 + ihl + (tot - ihl) ≤ q.length := by omega
  by_cases h1 : byte q 23 = 1 ∧ 8 ≤ tot - ihl
  · rw [if_pos h1, fixHostIcmp_isSome_iff hshort, forall_prop_of_true (.inl h1), h1.1]
    simp [hout, l4CsumOff]
  rw [if_neg h1]
  by_cases h6 : byte q 23 = 6 ∧ 20 ≤ tot - ihl
  · rw [if_pos h6, forall_prop_of_true (.inr (.inl h6)), h6.1, fixHostTcp_isSome_iff hlen hshort]
    simp [hout, l4CsumOff]
  have hnot : byte q 23 ≠ 6 := fun hc => h6 ⟨hc, by omega⟩
  rw [if_neg h6]
  by_cases h17 : byte q 23 = 17 ∧ 8 ≤ tot - ihl
  · rw [if_pos h17, forall_prop_of_true (.inr (.inr h17))]
    have hpseudo : (pseudoSum q 14 (14 + ihl) (tot - ihl) 17).isSome ↔
        14 + ihl + (tot - ihl) ≤ q.length := pseudoSum_isSome_iff hlong
    rw [h17.1]
    refine (restoreAt_segment hpseudo
      (show 14 + ihl + 6 + 2 ≤ 14 + ihl + (tot - ihl) by omega)).trans ?_
    simp [l4CsumOff]
  · rw [if_neg h17]
    refine iff_of_true rfl ⟨fun hsum => ?_, fun hc => absurd hc hnot⟩
    rcases hsum with h | h | h
    · exact absurd h h1
    · exact absurd h h6
    · exact absurd h h17

theorem stampPathMtu_inside {f : Bytes} {l4 : Nat} (hin : l4 + 8 ≤ f.length) :
    ∃ g, stampPathMtu mtu f l4 = some g ∧ g.length = f.length := by
  obtain ⟨g, hg⟩ : ∃ g, stampPathMtu mtu f l4 = some g := by
    rw [stampPathMtu, getElem?_eq_byte (by omega), getElem?_eq_byte (by omega),
      isZero16_eq (by omega)]
    simp only [Option.bind_eq_bind, Option.bind_some, decide_eq_true_eq]
    have hwrite : write16 f (l4 + 6) mtu.toNat = some (splice f (l4 + 6) (bytes mtu.toNat)) :=
      if_pos (by omega)
    rw [hwrite]
    split_ifs <;> exact ⟨_, rfl⟩
  exact ⟨g, hg, length_stampPathMtu hg⟩

/-- And in one that holds the whole segment it never does. -/
theorem fixHostTransport_inside (hlong : 34 ≤ q.length)
    (hin : 14 + ihl + (tot - ihl) ≤ q.length) :
    (fixHostTransport mss mtu q 14 ihl tot).isSome := by
  refine (transport_isSome hlong).mpr fun _ => ?_
  dsimp only
  by_cases h1 : byte q 23 = 1 ∧ 8 ≤ tot - ihl
  · rw [if_pos h1, isZero16_eq (by omega)]
    obtain ⟨g, hg, hglen⟩ : ∃ g, stampPathMtu mtu q (14 + ihl) = some g ∧
        g.length = q.length := stampPathMtu_inside (by omega)
    have hseg : readSpan g (14 + ihl) (tot - ihl) = some (span g (14 + ihl) (tot - ihl)) :=
      if_pos (by omega)
    simp only [Option.bind_eq_bind, Option.bind_some, decide_eq_true_eq, hg, hseg]
    split_ifs
    · exact write16_isSome_iff.mpr (by omega)
    · rfl
  rw [if_neg h1]
  by_cases h6 : byte q 23 = 6 ∧ 20 ≤ tot - ihl
  · rw [if_pos h6, clampTcpMss_eq mss h6.2 hin, h6.1]
    -- with or without the rewriting, the field is tested in a frame of the same length
    have hrestore : ∀ g : Bytes, g.length = q.length →
        (restoreAt g (14 + ihl + 16) do
          let sum ← pseudoSum g 14 (14 + ihl) (tot - ihl) 6
          return csumFinish sum).isSome := by
      intro g hg
      have hpseudo : (pseudoSum g 14 (14 + ihl) (tot - ihl) 6).isSome ↔
          14 + ihl + (tot - ihl) ≤ g.length := pseudoSum_isSome_iff (by omega)
      exact (restoreAt_segment hpseudo
        (show 14 + ihl + 16 + 2 ≤ 14 + ihl + (tot - ihl) by omega)).mpr (.inr (by omega))
    cases exceedingMss mss q (14 + ihl) (tot - ihl) with
    | none => exact hrestore q rfl
    | some k =>
      have hwrite : write16 (splice q k (bytes mss.toNat)) (14 + ihl + 16) 0 =
          some (splice (splice q k (bytes mss.toNat)) (14 + ihl + 16) (bytes 0)) :=
        if_pos (by rw [length_splice]; omega)
      simp only [Option.bind_eq_bind, Option.bind_some, if_true, hwrite]
      exact hrestore _ (by rw [length_splice, length_splice])
  rw [if_neg h6]
  by_cases h17 : byte q 23 = 17 ∧ 8 ≤ tot - ihl
  · rw [if_pos h17]
    have hpseudo : (pseudoSum q 14 (14 + ihl) (tot - ihl) 17).isSome ↔
        14 + ihl + (tot - ihl) ≤ q.length := pseudoSum_isSome_iff hlong
    rw [h17.1]
    exact (restoreAt_segment hpseudo
      (show 14 + ihl + 6 + 2 ≤ 14 + ihl + (tot - ihl) by omega)).mpr (.inr hin)
  · rw [if_neg h17]
    rfl

end HostTransport

/-! ### Whole frames -/

/-- An IPv4 frame whose total length, with the Ethernet header, is past 16 bits. -/
structure LengthWraps (f : Bytes) : Prop where
  long : 34 ≤ f.length
  type : span f 12 2 = [0x08, 0x00]
  version : ipVersion (f.drop 14) = 4
  twenty_le : 20 ≤ ipHeaderLen (f.drop 14)
  wraps : 65536 ≤ 14 + ipTotalLen (f.drop 14)

/-- The header checksum is set, or the header it is computed over is there. -/
def HeaderInside (f : Bytes) : Prop :=
  be16 f 24 ≠ 0 ∨ 14 + ipHeaderLen (f.drop 14) ≤ f.length

/-- No transport checksum has to be computed. What lies behind the frame reads as zero here, so
that a checksum that is set is one in the frame. -/
def TransportSet (f : Bytes) : Prop :=
  isFragment (f.drop 14) = false → byte f 23 = 1 ∨ byte f 23 = 6 ∨ byte f 23 = 17 →
    be16 f (14 + ipHeaderLen (f.drop 14) + l4CsumOff (byte f 23)) ≠ 0

/-- Nor has the clamp anything to do. -/
def ClampInside (mss : UInt16) (f : Bytes) : Prop :=
  isFragment (f.drop 14) = false → byte f 23 = 6 →
    OptionsInside mss f (14 + ipHeaderLen (f.drop 14))

theorem LengthWraps.accepted {f : Bytes} (h : LengthWraps f) (hlen : f.length ≤ 65535) :
    Accepted f ∧ f.length < 14 + ipTotalLen (f.drop 14) ∧
      60 ≤ ipTotalLen (f.drop 14) - ipHeaderLen (f.drop 14) := by
  have hlong := h.long
  have hwraps := h.wraps
  have htot : ipTotalLen (f.drop 14) < 65536 := word_lt _ _
  have hihl : ipHeaderLen (f.drop 14) ≤ 60 := by
    rw [ipHeaderLen]
    omega
  exact ⟨⟨hlong, h.type, h.version, h.twenty_le, by omega, by omega⟩, by omega, by omega⟩

/-- An accepted frame holds its packet, unless its length is past 16 bits. -/
theorem Accepted.fits_of_not_wraps {f : Bytes} (h : Accepted f) (hw : ¬LengthWraps f) :
    14 + ipTotalLen (f.drop 14) ≤ f.length := by
  have hfits := h.fits
  by_contra hlt
  exact hw ⟨h.long, h.type, h.version, h.twenty_le, by omega⟩

theorem OptionsInside.congr {mss : UInt16} {f q : Bytes} {l4 : Nat}
    (h : ∀ k, l4 ≤ k → byte q k = byte f k) (hlen : q.length = f.length) :
    OptionsInside mss q l4 ↔ OptionsInside mss f l4 := by
  have hstep : ∀ doff, OptionStep q l4 doff = OptionStep f l4 doff := by
    intro doff
    funext off next
    simp only [OptionStep, optionLen, h _ (show l4 ≤ l4 + off by omega),
      h _ (show l4 ≤ l4 + off + 1 by omega)]
  have hinside : ∀ doff off, OptionInside mss q l4 doff off ↔ OptionInside mss f l4 doff off := by
    intro doff off
    simp only [OptionInside, optionLen, be16, hlen, h _ (show l4 ≤ l4 + off by omega),
      h _ (show l4 ≤ l4 + off + 1 by omega), h _ (show l4 ≤ l4 + off + 2 by omega),
      h _ (show l4 ≤ l4 + off + 2 + 1 by omega)]
  simp only [OptionsInside, tcpHeaderLen, h _ (show l4 ≤ l4 + 12 by omega),
    h _ (show l4 ≤ l4 + 13 by omega), hstep, hinside]

/-- What the transport restorers look at is not what the header restorer writes. -/
theorem transportSet_congr {f q : Bytes} (hihl : 20 ≤ ipHeaderLen (f.drop 14))
    (h : AgreeOff f q 24 2) :
    isFragment (q.drop 14) = isFragment (f.drop 14) ∧ byte q 23 = byte f 23 ∧
      (∀ k, 14 + ipHeaderLen (f.drop 14) ≤ k → byte q k = byte f k) := by
  refine ⟨?_, h.byte_eq 23 (by omega), fun k hk => h.byte_eq k (by omega)⟩
  rw [isFragment_drop, isFragment_drop, h.byte_eq 20 (by omega), h.byte_eq 21 (by omega)]

theorem summed_iff {proto : UInt8} {len : Nat} (h : 60 ≤ len) :
    Summed proto len ↔ proto = 1 ∨ proto = 6 ∨ proto = 17 := by
  rw [Summed, and_iff_left (by omega), and_iff_left (by omega), and_iff_left (by omega)]

/-- **When the frame restorers stay inside the frame**: always, as long as 16 bits hold the
Ethernet header and the total length. Otherwise where no checksum is computed past the end of the
frame and, for frames from the host, no option behind it is read and none is clamped. -/
theorem frame_restorers_inside_iff {f : Bytes} (hlen : f.length ≤ 65535) (mss mtu : UInt16) :
    ((ethCsumRestore f).isSome ↔ (LengthWraps f → HeaderInside f ∧ TransportSet f)) ∧
      ((fixHostChecksums mss mtu f).isSome ↔
        (LengthWraps f → HeaderInside f ∧ TransportSet f ∧ ClampInside mss f)) := by
  rw [ethCsumRestore_eq_guard, fixHostChecksums_eq_guard]
  by_cases hacc : Accepted f
  swap
  · rw [frameGuard_rejected hacc, frameGuard_rejected hacc]
    exact ⟨iff_of_true rfl fun hw => absurd (hw.accepted hlen).1 hacc,
      iff_of_true rfl fun hw => absurd (hw.accepted hlen).1 hacc⟩
  have hlong := hacc.long
  have hihl := hacc.twenty_le
  have hle := hacc.header_le
  rw [frameGuard_accepted hacc, frameGuard_accepted hacc, restoreFields]
  have hheader := restoreHeader_isSome_iff (f := f) hihl
  by_cases hw : LengthWraps f
  · obtain ⟨-, hshort, hroom⟩ := hw.accepted hlen
    simp only [hw, true_implies]
    cases hq : restoreHeader f 14 (ipHeaderLen (f.drop 14)) with
    | none =>
      rw [hq] at hheader
      have hnot : ¬HeaderInside f := fun hc => by simpa using hheader.mpr hc
      exact ⟨iff_of_false (by simp) fun hc => hnot hc.1,
        iff_of_false (by simp) fun hc => hnot hc.1⟩
    | some q =>
      rw [hq] at hheader
      have hin : HeaderInside f := hheader.mp rfl
      have hagree := agreeOff_restoreHeader hq
      have hqlen := hagree.length_eq
      obtain ⟨hfrag, hproto, hbytes⟩ := transportSet_congr hihl hagree
      have hout : ¬14 + ipHeaderLen (f.drop 14) +
          (ipTotalLen (f.drop 14) - ipHeaderLen (f.drop 14)) ≤ q.length := by omega
      have hword : be16 q (14 + ipHeaderLen (f.drop 14) + l4CsumOff (byte f 23)) =
          be16 f (14 + ipHeaderLen (f.drop 14) + l4CsumOff (byte f 23)) := by
        rw [be16, be16, hbytes _ (by omega), hbytes _ (by omega)]
      have htransport : (restoreTransport q 14 (ipHeaderLen (f.drop 14))
          (ipTotalLen (f.drop 14))).isSome ↔ TransportSet f := by
        rw [restoreTransport_isSome_iff (by omega), hfrag, hproto, hword, TransportSet]
        simp only [summed_iff hroom, hout, or_false]
      have hclamp : (isFragment (q.drop 14) = false → byte q 23 = 6 →
          OptionsInside mss q (14 + ipHeaderLen (f.drop 14))) ↔ ClampInside mss f := by
        rw [hfrag, hproto, OptionsInside.congr hbytes hqlen, ClampInside]
      simp only [Option.bind_eq_bind, Option.bind_some, htransport, hin, true_and,
        fixHostTransport_isSome_iff (show 34 ≤ q.length by omega) hroom
          (show q.length < _ by omega), hclamp, and_self]
  · -- the packet is there, and everything with it
    have hfits := hacc.fits_of_not_wraps hw
    simp only [hw, false_implies, iff_true]
    obtain ⟨q, hq⟩ := Option.isSome_iff_exists.mp (hheader.mpr (.inr (by omega)))
    have hqlen := (agreeOff_restoreHeader hq).length_eq
    rw [hq]
    exact ⟨(restoreTransport_isSome_iff (by omega)).mpr fun _ _ => .inr (by omega),
      fixHostTransport_inside (by omega) (by omega)⟩

/-- A DNS query whose checksum is set, with a total length of 65535 in a frame of 44 bytes. -/
theorem frame_restorers_inside_iff_set :
    let f : Bytes := [2, 0, 0, 0, 0, 1, 2, 0, 0, 0, 0, 2, 0x08, 0x00,
      0x45, 0, 0xFF, 0xFF, 0, 0, 0, 0, 64, 17, 0x12, 0x34, 10, 0, 0, 1, 10, 0, 0, 2,
      0, 53, 0, 53, 0, 10, 0x43, 0x21, 0, 0]
    (ethCsumRestore f).isSome ∧ (fixHostChecksums 1360 1420 f).isSome := by
  intro f
  obtain ⟨hrestore, hfix⟩ :=
    frame_restorers_inside_iff (show f.length ≤ 65535 by decide) 1360 1420
  have hheader : HeaderInside f := .inl (by decide)
  have hset : TransportSet f := fun _ _ => by decide
  exact ⟨hrestore.mpr fun _ => ⟨hheader, hset⟩,
    hfix.mpr fun _ => ⟨hheader, hset, fun _ h6 => absurd h6 (by decide)⟩⟩

/-- The same query with a checksum still to be computed is summed past the end of the frame. -/
theorem frame_restorers_overrun :
    let f : Bytes := [2, 0, 0, 0, 0, 1, 2, 0, 0, 0, 0, 2, 0x08, 0x00,
      0x45, 0, 0xFF, 0xFF, 0, 0, 0, 0, 64, 17, 0x12, 0x34, 10, 0, 0, 1, 10, 0, 0, 2,
      0, 53, 0, 53, 0, 10, 0, 0, 0, 0]
    ethCsumRestore f = none ∧ fixHostChecksums 0 1420 f = none := by
  decide

end Molewire
