/-
# X25519: the value

The loop of `x25519_core` is the Montgomery ladder over the bits of the clamped
scalar, and the power chain divides, so the bytes that come out are those of the
coordinate of a scalar multiple. All 256 bits of the bytes that come in count, and
any of them are a coordinate: of the curve or of one with another factor. The answer
is -1 where the result is zero. Hence two scalars may be applied in either order,
which is what makes the two ends of a handshake agree.
-/

import Mathlib.FieldTheory.Finite.Basic
import Molewire.Library.MontgomeryLadder
import Molewire.Wireguard
import Molewire.X25519Field

namespace Molewire

open ByteBuffer LittleEndian MontgomeryLadder

/-! ### Rounds -/

namespace Ladder

/-- The second members of the two pairs are reduced, the first ones may be any limbs. -/
structure Ok (s : Ladder) : Prop where
  x2 : s.x2.length = 8
  z2 : s.z2.Reduced
  x3 : s.x3.length = 8
  z3 : s.z3.Reduced

/-- The two pairs of the ladder. -/
def value (s : Ladder) :
    (ZMod curvePrime × ZMod curvePrime) × (ZMod curvePrime × ZMod curvePrime) :=
  ((s.x2.val, s.z2.val), (s.x3.val, s.z3.val))

end Ladder

/-- One addition and one doubling. -/
theorem ladderParts_spec {s : Ladder} (h : s.Ok) {x1 : Fe} (hx : x1.length = 8) :
    (ladderPart2 (ladderPart1 s) x1).Ok ∧
      (ladderPart2 (ladderPart1 s) x1).value =
        (dbl 121665 s.value.1, diffAdd x1.val s.value.1 s.value.2) := by
  obtain ⟨ra, va⟩ := Fe.add_spec h.x2 h.z2.length
  obtain ⟨rb, vb⟩ := Fe.sub_spec h.x2 h.z2
  obtain ⟨rc, vc⟩ := Fe.add_spec h.x3 h.z3.length
  obtain ⟨rd, vd⟩ := Fe.sub_spec h.x3 h.z3
  obtain ⟨rda, vda⟩ := Fe.mul_spec ra.length rd.length.le
  obtain ⟨rcb, vcb⟩ := Fe.mul_spec rb.length rc.length.le
  obtain ⟨rsum, vsum⟩ := Fe.add_spec rda.length rcb.length
  obtain ⟨rdiff, vdiff⟩ := Fe.sub_spec rda.length rcb
  obtain ⟨raa, vaa⟩ := Fe.mul_spec ra.length ra.length.le
  obtain ⟨rbb, vbb⟩ := Fe.mul_spec rb.length rb.length.le
  obtain ⟨re, ve⟩ := Fe.sub_spec raa.length rbb
  obtain ⟨rf, vf⟩ := Fe.mul_spec (b := [121665]) re.length (by decide)
  obtain ⟨rg, vg⟩ := Fe.add_spec rf.length raa.length
  obtain ⟨rh, vh⟩ := Fe.mul_spec rdiff.length rdiff.length.le
  obtain ⟨rz3, vz3⟩ := Fe.mul_spec hx rh.length.le
  obtain ⟨rx3, vx3⟩ := Fe.mul_spec rsum.length rsum.length.le
  obtain ⟨rz2, vz2⟩ := Fe.mul_spec re.length rg.length.le
  obtain ⟨rk, vk⟩ := Fe.sub_spec raa.length re
  obtain ⟨rx2, vx2⟩ := Fe.mul_spec raa.length rk.length.le
  have factor : Fe.val [121665] = 121665 := by
    rw [Fe.val, limbsVal, limbsVal, Nat.mul_zero, Nat.add_zero]
    rfl
  dsimp only [ladderPart2, ladderPart1]
  constructor
  · constructor
    all_goals dsimp only
    · exact rx2.length
    · exact rz2
    · exact rx3.length
    · exact rz3
  dsimp only [Ladder.value]
  rw [vx2, vz2, vx3, vz3, vk, vg, vsum, vh, vdiff, vf, factor, ve, vaa, vbb, vda, vcb, va, vb, vc,
    vd]
  apply Prod.ext
  · apply Prod.ext
    · simp only [dbl]
      ring
    · simp only [dbl]
      ring
  · apply Prod.ext
    · simp only [diffAdd]
      ring
    · simp only [diffAdd]
      ring

/-- The word of `doswap` for a bit. -/
def maskOf (bit : Bool) : UInt32 := if bit then 0xffffffff else 0

theorem maskOf_xor (a b : Bool) : maskOf a ^^^ maskOf b = maskOf (a ^^ b) := by
  cases a <;> cases b <;> rfl

theorem condswapFe_maskOf (bit : Bool) {a b : Fe} (h : a.length = b.length) :
    condswapFe (maskOf bit) a b = if bit then (b, a) else (a, b) := by
  rw [condswapFe]
  induction a generalizing b with
  | nil =>
    obtain rfl := List.length_eq_zero_iff.mp h.symm
    cases bit <;> rfl
  | cons x a ih =>
    cases b with
    | nil => cases h
    | cons y b =>
      have rest := ih (Nat.succ.inj h)
      rw [Prod.ext_iff] at rest
      dsimp only [List.zipWith_cons_cons] at rest ⊢
      rw [rest.1, rest.2]
      cases bit with
      | false =>
        have none : (x ^^^ y) &&& maskOf false = 0 := UInt32.and_zero
        rw [none, UInt32.xor_zero, UInt32.xor_zero]
        rfl
      | true =>
        have all : (x ^^^ y) &&& maskOf true = x ^^^ y := UInt32.and_neg_one
        rw [all, ← UInt32.xor_assoc, UInt32.xor_self, UInt32.zero_xor, UInt32.xor_comm x y,
          ← UInt32.xor_assoc, UInt32.xor_self, UInt32.zero_xor]
        rfl

/-- The pairs exchanged where the bit is set. -/
def swapped {F : Type} (bit : Bool) (s : (F × F) × (F × F)) : (F × F) × (F × F) :=
  if bit then (s.2, s.1) else s

theorem Ladder.Ok.condswap {s : Ladder} (h : s.Ok) (bit : Bool) :
    (s.condswap (maskOf bit)).Ok ∧ (s.condswap (maskOf bit)).value = swapped bit s.value := by
  rw [Ladder.condswap, condswapFe_maskOf bit (h.x2.trans h.x3.symm),
    condswapFe_maskOf bit (h.z2.length.trans h.z3.length.symm)]
  cases bit with
  | false => exact ⟨⟨h.x2, h.z2, h.x3, h.z3⟩, rfl⟩
  | true => exact ⟨⟨h.x3, h.z3, h.x2, h.z2⟩, rfl⟩

/-- The bit of the scalar in round `i`. -/
def scalarBit (scalar : Bytes) (clamp : Bool) (i : Nat) : Bool :=
  (clampedByte scalar clamp (i / 8)).toNat.testBit (i % 8)

theorem swapMask_eq (scalar : Bytes) (clamp : Bool) (i : Nat) :
    swapMask scalar clamp i = maskOf (scalarBit scalar clamp i) := by
  rw [swapMask, scalarBit]
  generalize clampedByte scalar clamp (i / 8) = x
  have small : i % 8 < 8 := Nat.mod_lt i (by decide)
  have bit : ((x >>> UInt8.ofNat (i % 8)) &&& 1).toNat = (x.toNat.testBit (i % 8)).toNat := by
    have place : (UInt8.ofNat (i % 8)).toNat % 8 = i % 8 := by
      rw [UInt8.toNat_ofNat']
      omega
    rw [UInt8.toNat_and, UInt8.toNat_shiftRight, place, Nat.toNat_testBit,
      Nat.shiftRight_eq_div_pow]
    exact Nat.and_one_is_mod _
  cases h : x.toNat.testBit (i % 8) with
  | false =>
    rw [h] at bit
    rw [UInt8.toNat_inj.mp (bit.trans (show _ = (0 : UInt8).toNat from rfl))]
    rfl
  | true =>
    rw [h] at bit
    rw [UInt8.toNat_inj.mp (bit.trans (show _ = (1 : UInt8).toNat from rfl))]
    rfl

/-- The bits that `n` rounds look at, the highest first. -/
def scalarBits (scalar : Bytes) (clamp : Bool) (n : Nat) : List Bool :=
  (List.range n).reverse.map (scalarBit scalar clamp)

theorem scalarBits_succ (scalar : Bytes) (clamp : Bool) (n : Nat) :
    scalarBits scalar clamp (n + 1) = scalarBit scalar clamp n :: scalarBits scalar clamp n := by
  rw [scalarBits, List.range_succ, List.reverse_append]
  rfl

/-- A round keeps the pairs in the order that its own bit asks for. -/
theorem round_spec {s : Ladder} (h : s.Ok) {x1 : Fe} (hx : x1.length = 8) (swap bit : Bool) :
    let s' := ladderPart2 (ladderPart1 (s.condswap (maskOf (swap ^^ bit)))) x1
    s'.Ok ∧ swapped bit s'.value = step 121665 x1.val (swapped swap s.value) bit := by
  obtain ⟨ordered, order⟩ := h.condswap (swap ^^ bit)
  obtain ⟨ok, value⟩ := ladderParts_spec ordered hx
  refine ⟨ok, ?_⟩
  rw [value, order]
  cases swap <;> cases bit
  · rfl
  · exact Prod.ext (diffAdd_comm _ _ _) rfl
  · rfl
  · exact Prod.ext (diffAdd_comm _ _ _) rfl

/-- The rounds are the ladder over their bits. -/
theorem coreLoop_spec (scalar : Bytes) (clamp : Bool) {x1 : Fe} (hx : x1.length = 8) (n : Nat)
    (swap : Bool) {s : Ladder} (h : s.Ok) :
    ∃ swap' s', coreLoop scalar clamp x1 n (maskOf swap) s = (maskOf swap', s') ∧ s'.Ok ∧
      swapped swap' s'.value =
        (scalarBits scalar clamp n).foldl (step 121665 x1.val) (swapped swap s.value) := by
  induction n generalizing swap s with
  | zero => exact ⟨swap, s, rfl, h, rfl⟩
  | succ n ih =>
    obtain ⟨ok, value⟩ := round_spec h hx swap (scalarBit scalar clamp n)
    obtain ⟨swap', s', same, ok', value'⟩ := ih (scalarBit scalar clamp n) ok
    refine ⟨swap', s', ?_, ok', ?_⟩
    · rw [coreLoop, swapMask_eq, maskOf_xor]
      exact same
    · rw [value', value, scalarBits_succ, List.foldl_cons]

/-! ### Bytes -/

theorem length_swapin (b : Bytes) : (swapin b).length = 8 := by
  rw [swapin, List.length_map, List.length_range]

theorem limbsVal_swapin {b : Bytes} (h : b.length = 32) : limbsVal (swapin b) = leVal b := by
  have limbs (n : Nat) : limbsVal ((List.range n).map fun i => u8to32Little b (4 * i)) =
      leVal b % 256 ^ (4 * n) := by
    induction n with
    | zero => exact (Nat.mod_one _).symm
    | succ n ih =>
      have places : 2 ^ (32 * n) = 256 ^ (4 * n) := by
        rw [show 256 = 2 ^ 8 from rfl, ← Nat.pow_mul, ← Nat.mul_assoc]
      rw [List.range_succ, List.map_append, limbsVal_append, ih, List.length_map,
        List.length_range, List.map_singleton, limbsVal, limbsVal, u8to32Little_toNat, places,
        Nat.mul_zero, Nat.add_zero, Nat.mul_succ, Nat.pow_add, Nat.mod_mul]
      rfl
  have bound := leVal_lt b
  rw [swapin, limbs]
  rw [h] at bound
  exact Nat.mod_eq_of_lt bound

theorem swapout_eq (x : Fe) : swapout x = leBytes (4 * x.length) (limbsVal x) := by
  rw [swapout]
  induction x with
  | nil => rfl
  | cons w x ih =>
    have hw := w.toNat_lt
    have low : leBytes 4 (w.toNat + 2 ^ 32 * limbsVal x) = leBytes 4 w.toNat := by
      rw [← leBytes_mod 4, ← leBytes_mod 4 w.toNat]
      congr 1
      omega
    have high : (w.toNat + 2 ^ 32 * limbsVal x) / 256 ^ 4 = limbsVal x := by omega
    rw [List.flatMap_cons, ih, u32to8Little_eq, List.length_cons, Nat.mul_succ, Nat.add_comm,
      limbsVal, leBytes_add, low, high]

theorem Fe.ofWord_spec {w : UInt32} : Reduced (ofWord w) ∧ (ofWord w).val = (w.toNat : Nat) := by
  have value : limbsVal (ofWord w) = w.toNat := by
    rw [ofWord, limbsVal, limbsVal_replicate_zero]
    rfl
  have small := w.toNat_lt
  refine ⟨⟨rfl, ?_⟩, ?_⟩
  · rw [value]
    omega
  · rw [val, value]

theorem x25519Core_spec (scalar point : Bytes) (clamp : Bool) :
    (x25519Core scalar point clamp).Ok ∧
      (x25519Core scalar point clamp).value =
        pairs 121665 (swapin point).val (scalarBits scalar clamp 256) := by
  obtain ⟨reduced0, zero⟩ := Fe.ofWord_spec (w := 0)
  obtain ⟨reduced1, one⟩ := Fe.ofWord_spec (w := 1)
  have start : Ladder.Ok ⟨Fe.ofWord 1, Fe.ofWord 0, swapin point, Fe.ofWord 1, Fe.ofWord 0⟩ :=
    ⟨rfl, reduced0, length_swapin point, reduced1⟩
  obtain ⟨swap, s, same, ok, value⟩ :=
    coreLoop_spec scalar clamp (length_swapin point) 256 false start
  have last := ok.condswap swap
  rw [show maskOf false = 0 from rfl] at same
  rw [x25519Core, same]
  refine ⟨last.1, last.2.trans (value.trans ?_)⟩
  rw [pairs, swapped, Ladder.value]
  dsimp only
  rw [zero, one]
  rw [if_neg Bool.false_ne_true, show (1 : UInt32).toNat = 1 from rfl,
    show (0 : UInt32).toNat = 0 from rfl, Nat.cast_one, Nat.cast_zero]

/-! ### The power chain -/

/-- A power of `z`. -/
structure Fe.Power (z : ZMod curvePrime) (n : Nat) (x : Fe) : Prop where
  length : x.length = 8
  value : x.val = z ^ n

theorem Fe.Power.sqr {z : ZMod curvePrime} {n : Nat} {x : Fe} (h : Power z n x) (k : Nat) :
    Power z (n * 2 ^ k) (Fe.sqr^[k] x) := by
  induction k with
  | zero =>
    rw [Nat.pow_zero, Nat.mul_one]
    exact h
  | succ k ih =>
    obtain ⟨reduced, value⟩ := Fe.mul_spec ih.length ih.length.le
    rw [Function.iterate_succ_apply']
    refine ⟨reduced.length, value.trans ?_⟩
    rw [ih.value, ← pow_add, Nat.pow_succ, ← Nat.mul_assoc, Nat.mul_two]

private theorem getD_set {α : Type} (l : List α) (i j : Nat) (a fallback : α) :
    (l.set i a).getD j fallback = if i = j ∧ j < l.length then a else l.getD j fallback := by
  rw [List.getD_eq_getElem?_getD, List.getD_eq_getElem?_getD, List.getElem?_set]
  by_cases same : i = j
  · subst same
    by_cases inside : i < l.length
    · rw [if_pos rfl, if_pos inside, if_pos ⟨rfl, inside⟩, Option.getD_some]
    · rw [if_pos rfl, if_neg inside, if_neg (fun h => inside h.2),
        List.getElem?_eq_none (Nat.le_of_not_lt inside)]
  · rw [if_neg same, if_neg (fun h => same h.1)]

/-- The exponents of the five elements and of `prev`, where they are powers of the second one. -/
def powerExponents (es : List (Option Nat) × Option Nat) (step : Nat × Nat × Nat) :
    List (Option Nat) × Option Nat :=
  let e := do
    let n ← es.2
    let m ← es.1.getD step.2.1 none
    pure (m + n * 2 ^ step.2.2)
  (es.1.set step.1 e, e)

/-- The elements are the powers that the exponents say. -/
structure Powers (z : ZMod curvePrime) (es : List (Option Nat) × Option Nat)
    (s : List Fe × Fe) : Prop where
  length : es.1.length = s.1.length
  element : ∀ i n, es.1.getD i none = some n → Fe.Power z n (s.1.getD i [])
  prev : ∀ n, es.2 = some n → Fe.Power z n s.2

theorem Powers.step {z : ZMod curvePrime} {es : List (Option Nat) × Option Nat}
    {s : List Fe × Fe} (h : Powers z es s) (row : Nat × Nat × Nat) :
    Powers z (powerExponents es row) (powerStep s row) := by
  have product (n : Nat) (hn : (powerExponents es row).2 = some n) :
      Fe.Power z n (powerStep s row).2 := by
    rw [powerExponents] at hn
    simp only [Option.bind_eq_bind, Option.bind_eq_some_iff, Option.pure_def,
      Option.some.injEq] at hn
    obtain ⟨e, he, m, hm, rfl⟩ := hn
    have squared := (h.prev e he).sqr row.2.2
    have factor := h.element _ m hm
    obtain ⟨reduced, value⟩ := Fe.mul_spec factor.length squared.length.le
    refine ⟨reduced.length, value.trans ?_⟩
    rw [factor.value, squared.value, pow_add]
  refine ⟨?_, fun i n hi => ?_, product⟩
  · rw [powerExponents, powerStep, List.length_set, List.length_set, h.length]
  · have exponents : (powerExponents es row).1 = es.1.set row.1 (powerExponents es row).2 := rfl
    have elements : (powerStep s row).1 = s.1.set row.1 (powerStep s row).2 := rfl
    rw [exponents, getD_set] at hi
    rw [elements, getD_set, ← h.length]
    by_cases written : row.1 = i ∧ i < es.1.length
    · rw [if_pos written] at hi ⊢
      exact product n hi
    · rw [if_neg written] at hi ⊢
      exact h.element i n hi

theorem Powers.steps {z : ZMod curvePrime} {es : List (Option Nat) × Option Nat}
    {s : List Fe × Fe} (h : Powers z es s) (rows : List (Nat × Nat × Nat)) :
    Powers z (rows.foldl powerExponents es) (rows.foldl powerStep s) := by
  induction rows generalizing es s with
  | nil => exact h
  | cons row rows ih => exact ih (h.step row)

/-- The exponent of the last row is the one that inverts. -/
theorem powerSteps_exponent :
    (powerSteps.foldl powerExponents ([none, some 1, none, none, none], some 1)).1.getD 3 none =
      some (curvePrime - 2) := rfl

theorem inv_eq_pow (z : ZMod curvePrime) : z⁻¹ = z ^ (curvePrime - 2) := by
  by_cases zero : z = 0
  · rw [zero, inv_zero, zero_pow (by decide)]
  · have next : curvePrime - 1 = curvePrime - 2 + 1 := by decide
    have fermat := ZMod.pow_card_sub_one_eq_one zero
    rw [next, pow_succ] at fermat
    exact inv_eq_of_mul_eq_one_left fermat

/-! ### The value -/

/-- The power chain inverts the second element. -/
theorem powerChain_spec {s : Ladder} (h : s.Ok) :
    Fe.Power s.z2.val (curvePrime - 2)
      ((powerSteps.foldl powerStep ([s.x2, s.z2, s.x3, s.z3, s.t1], s.z2)).1.getD 3 []) := by
  have first : Fe.Power s.z2.val 1 s.z2 := ⟨h.z2.length, (pow_one _).symm⟩
  have start : Powers s.z2.val ([none, some 1, none, none, none], some 1)
      ([s.x2, s.z2, s.x3, s.z3, s.t1], s.z2) := by
    refine ⟨rfl, fun i n hi => ?_, fun n hn => ?_⟩
    · rcases i with _ | _ | _ | _ | _ | i
      all_goals cases hi
      exact first
    · cases hn
      exact first
  exact (start.steps powerSteps).element 3 _ powerSteps_exponent

/-- The bytes that come out are those of the ladder's coordinate. -/
theorem x25519_eq_ladder {point : Bytes} (h : point.length = 32) (scalar : Bytes) (clamp : Bool) :
    x25519 scalar point clamp =
      let u := ladder 121665 (scalarBits scalar clamp 256) (leVal point : ZMod curvePrime)
      (leBytes 32 u.val, clamp && u == 0) := by
  obtain ⟨ok, value⟩ := x25519Core_spec scalar point clamp
  have power := powerChain_spec ok
  obtain ⟨reduced, quotient⟩ := Fe.mul_spec power.length ok.x2.le
  have start : (swapin point).val = (leVal point : ZMod curvePrime) := by
    rw [Fe.val, limbsVal_swapin h]
  have coordinate : ladder 121665 (scalarBits scalar clamp 256) (leVal point : ZMod curvePrime) =
      (x25519Core scalar point clamp).value.1.1 / (x25519Core scalar point clamp).value.1.2 := by
    rw [value, start, ladder]
  rw [power.value, ← inv_eq_pow, mul_comm, ← div_eq_mul_inv] at quotient
  obtain ⟨length, least, zero⟩ := Fe.canon_spec reduced
  rw [quotient] at least zero
  rw [x25519]
  dsimp only
  rw [swapout_eq, length, least, zero, coordinate]
  rfl

/-! ### Multiples of a point -/

private theorem byte_set (b : Bytes) (i j : Nat) (a : UInt8) :
    byte (b.set i a) j = if i = j ∧ j < b.length then a else byte b j := getD_set b i j a 0

theorem byte_clamp_zero {k : Bytes} (h : k.length = 32) :
    byte (wireguardClampPrivateKey k) 0 = byte k 0 &&& 248 := by
  rw [wireguardClampPrivateKey, byte_set, if_neg (fun h => absurd h.1 (by decide)), byte_set,
    if_pos ⟨rfl, by omega⟩]

theorem byte_clamp_last {k : Bytes} (h : k.length = 32) :
    byte (wireguardClampPrivateKey k) 31 = byte k 31 &&& 127 ||| 64 := by
  rw [wireguardClampPrivateKey, byte_set, if_pos ⟨rfl, by rw [List.length_set]; omega⟩]

/-- The loop clamps as `wireguard_clamp_private_key` does. -/
theorem clampedByte_eq {scalar : Bytes} (h : scalar.length = 32) (k : Nat) :
    clampedByte scalar true k = byte (wireguardClampPrivateKey scalar) k := by
  rw [clampedByte, if_pos rfl, wireguardClampPrivateKey, byte_set, byte_set, List.length_set, h]
  by_cases first : k = 0
  · subst first
    rfl
  · rw [if_neg first]
    by_cases last : k = 31
    · subst last
      rfl
    · rw [if_neg last, if_neg (fun h => last h.1.symm), if_neg (fun h => first h.1.symm)]

theorem ofBits_scalarBits {scalar : Bytes} (h : scalar.length = 32) :
    ofBits (scalarBits scalar true 256) = leVal (wireguardClampPrivateKey scalar) := by
  have bits : scalarBits scalar true 256 =
      (List.range 256).reverse.map (leVal (wireguardClampPrivateKey scalar)).testBit := by
    rw [scalarBits]
    apply List.map_congr_left
    intro i hi
    rw [List.mem_reverse, List.mem_range] at hi
    have place : i % 8 < 8 := Nat.mod_lt i (by decide)
    rw [scalarBit, clampedByte_eq h, byte, toNat_getD, show 256 = 2 ^ 8 from rfl,
      ← Nat.pow_mul, Nat.testBit_mod_two_pow, Nat.testBit_div_two_pow, decide_eq_true place,
      Bool.true_and, Nat.mod_add_div]
  have length : (wireguardClampPrivateKey scalar).length = 32 := by
    rw [wireguardClampPrivateKey, List.length_set, List.length_set, h]
  have bound := leVal_lt (wireguardClampPrivateKey scalar)
  rw [length] at bound
  rw [bits, ofBits_testBit]
  exact Nat.mod_eq_of_lt bound

/-- A small number is not zero in the field. -/
theorem natCast_ne_zero {n : Nat} (positive : 0 < n) (small : n < curvePrime) :
    (n : ZMod curvePrime) ≠ 0 := by
  intro zero
  exact absurd (Nat.le_of_dvd positive ((ZMod.natCast_eq_zero_iff n curvePrime).mp zero))
    (Nat.not_le_of_lt small)

/-- The curves of the ladder have no singular points. -/
theorem smooth_curve : Smooth (121665 : ZMod curvePrime) where
  two := natCast_ne_zero (n := 2) (by decide) (by decide)
  low := natCast_ne_zero (n := 121665) (by decide) (by decide)
  high := by
    rw [show (121665 + 1 : ZMod curvePrime) = ((121666 : Nat) : ZMod curvePrime) by norm_num]
    exact natCast_ne_zero (by decide) (by decide)

theorem length_wireguardX25519 {point : Bytes} (h : point.length = 32) (scalar : Bytes) :
    (wireguardX25519 scalar point).1.length = 32 := by
  rw [wireguardX25519, x25519_eq_ladder h]
  exact length_leBytes 32 _

theorem leVal_leBytes_val (u : ZMod curvePrime) : leVal (leBytes 32 u.val) = u.val := by
  have small : curvePrime < 256 ^ 32 := by decide
  rw [leVal_leBytes, Nat.mod_eq_of_lt (lt_trans (ZMod.val_lt u) small)]

/-- The bytes of the result are read back as the coordinate. -/
theorem leVal_wireguardX25519 {point : Bytes} (h : point.length = 32) (scalar : Bytes) :
    (leVal (wireguardX25519 scalar point).1 : ZMod curvePrime) =
      ladder 121665 (scalarBits scalar true 256) (leVal point : ZMod curvePrime) := by
  rw [wireguardX25519, x25519_eq_ladder h]
  dsimp only
  rw [leVal_leBytes_val, ZMod.natCast_zmod_val]

/-- The key exchange takes the multiple that the clamped scalar says. -/
theorem wireguardX25519_eq_multiple {point scalar : Bytes} (h : point.length = 32)
    (hs : scalar.length = 32) {d : ZMod curvePrime} (hd : d ≠ 0) {B : (curve 121665 d).Point}
    (hB : coordinate B = leVal point) :
    wireguardX25519 scalar point =
      (leBytes 32 (coordinate (leVal (wireguardClampPrivateKey scalar) • B)).val,
        coordinate (leVal (wireguardClampPrivateKey scalar) • B) == 0) := by
  rw [wireguardX25519, x25519_eq_ladder h, ← hB, ladder_coordinate smooth_curve hd,
    ofBits_scalarBits hs]
  rfl

/-- Any 32 bytes are the coordinate of a point, and the key exchange takes the multiple of it that
the clamped scalar says; it answers -1 where the coordinate is zero, as that of the zero of the
curve is taken to be. -/
theorem wireguardX25519_smul {point : Bytes} (h : point.length = 32) :
    (∃ d : ZMod curvePrime, d ≠ 0 ∧ ∃ B : (curve 121665 d).Point, coordinate B = leVal point) ∧
      ∀ d : ZMod curvePrime, d ≠ 0 → ∀ B : (curve 121665 d).Point, coordinate B = leVal point →
        ∀ scalar : Bytes, scalar.length = 32 →
          let u := coordinate (leVal (wireguardClampPrivateKey scalar) • B)
          wireguardX25519 scalar point = (leBytes 32 u.val, u == 0) := by
  refine ⟨exists_coordinate smooth_curve _, fun d hd B hB scalar hs => ?_⟩
  exact wireguardX25519_eq_multiple h hs hd hB

/-- The base point, which is on the curve itself. -/
theorem nonsingular_basepoint :
    (curve (121665 : ZMod curvePrime) 1).Nonsingular 9
      14781619447589544791020593568409986887264606134616475288964881837755586237401 := by
  rw [WeierstrassCurve.Affine.nonsingular_iff', curve_equation_iff]
  refine ⟨?_, .inr ?_⟩
  · have cast := (ZMod.natCast_eq_natCast_iff'
      (14781619447589544791020593568409986887264606134616475288964881837755586237401 ^ 2)
      (9 ^ 3 + (4 * 121665 + 2) * 9 ^ 2 + 9) curvePrime).mpr (by rw [curvePrime]; norm_num)
    push_cast at cast
    linear_combination cast
  · simp only [curve, zero_mul, add_zero]
    exact mul_ne_zero smooth_curve.two (natCast_ne_zero
      (n := 14781619447589544791020593568409986887264606134616475288964881837755586237401)
      (by decide) (by decide))

/-- The least of the clamped scalars. -/
theorem wireguardX25519_smul_basepoint :
    let B := WeierstrassCurve.Affine.Point.some _ _ nonsingular_basepoint
    wireguardX25519 zeroKey basepoint =
      (leBytes 32 (coordinate (2 ^ 254 • B)).val, coordinate (2 ^ 254 • B) == 0) := by
  have nine : (leVal basepoint : ZMod curvePrime) = 9 := by
    rw [show leVal basepoint = 9 from rfl]
    exact Nat.cast_ofNat
  have least : leVal (wireguardClampPrivateKey zeroKey) = 2 ^ 254 := rfl
  have multiple := (@wireguardX25519_smul basepoint rfl).2 1 one_ne_zero
    (.some _ _ nonsingular_basepoint) ((div_one 9).trans nine.symm) zeroKey rfl
  rw [least] at multiple
  exact multiple

private theorem x25519_comm {point : Bytes} (h : point.length = 32) (a b : Bytes) :
    wireguardX25519 a (wireguardX25519 b point).1 =
      wireguardX25519 b (wireguardX25519 a point).1 := by
  have first := x25519_eq_ladder (length_wireguardX25519 h b) a true
  have second := x25519_eq_ladder (length_wireguardX25519 h a) b true
  rw [leVal_wireguardX25519 h] at first second
  rw [ladder_comm smooth_curve] at first
  exact first.trans second.symm

/-- Two scalars may be applied in either order, to any 32 bytes. -/
theorem wireguardX25519_comm {point : Bytes} (h : point.length = 32) (a b : Bytes) :
    wireguardX25519 a (wireguardX25519 b point).1 =
      wireguardX25519 b (wireguardX25519 a point).1 :=
  x25519_comm h a b

theorem wireguardX25519_comm_basepoint :
    wireguardX25519 zeroKey (wireguardX25519 basepoint basepoint).1 =
      wireguardX25519 basepoint (wireguardX25519 zeroKey basepoint).1 :=
  @wireguardX25519_comm basepoint rfl zeroKey basepoint

/-- A public key is the multiple of the base point. -/
theorem generated_eq {k key : Bytes} (h : wireguardGeneratePublicKey k = some key) :
    key = (wireguardX25519 k basepoint).1 := by
  rw [wireguardGeneratePublicKey] at h
  split at h
  case isTrue => cases h
  case isFalse =>
    dsimp only at h
    split at h
    case isTrue => cases h
    case isFalse => exact (Option.some.inj h).symm

/-- Two ends compute one secret from their own private key and the other's public key. -/
theorem wireguardX25519_publicKey {a b publicA publicB : Bytes}
    (ha : wireguardGeneratePublicKey a = some publicA)
    (hb : wireguardGeneratePublicKey b = some publicB) :
    wireguardX25519 a publicB = wireguardX25519 b publicA := by
  rw [generated_eq ha, generated_eq hb]
  exact x25519_comm rfl a b

end Molewire
