/-
# The Montgomery ladder

Multiples of a point of a Montgomery curve, computed from the first coordinates
alone. A pair `(x, z)` stands for the coordinate `x / z`; two pairs, for a multiple
of the point and the next one, are doubled and added until the scalar is used
up. The curves are taken with a factor `d`, so that over any field every value is
the coordinate of a point on one of them. What the ladder computes is then a scalar
multiple for every value whatever, and two ladders commute.
-/

import Mathlib.Algebra.Field.ZMod
import Mathlib.AlgebraicGeometry.EllipticCurve.Affine.Point
import Mathlib.Tactic.FieldSimp
import Mathlib.Tactic.LinearCombination

namespace MontgomeryLadder

open WeierstrassCurve

variable {F : Type*} [Field F]

/-! ### The ladder -/

/-- The pair of twice the point; the coefficient of the curve is `4 * a24 + 2`. -/
def dbl (a24 : F) (p : F × F) : F × F :=
  let aa := (p.1 + p.2) ^ 2
  let bb := (p.1 - p.2) ^ 2
  let e := aa - bb
  (aa * bb, e * (aa + a24 * e))

/-- The pair of a sum, from the pairs of two points whose difference has the coordinate `x`. -/
def diffAdd (x : F) (p q : F × F) : F × F :=
  let da := (q.1 - q.2) * (p.1 + p.2)
  let cb := (q.1 + q.2) * (p.1 - p.2)
  ((da + cb) ^ 2, x * (da - cb) ^ 2)

/-- One bit of the scalar. -/
def step (a24 x : F) (s : (F × F) × (F × F)) (bit : Bool) : (F × F) × (F × F) :=
  if bit then (diffAdd x s.1 s.2, dbl a24 s.2) else (dbl a24 s.1, diffAdd x s.1 s.2)

/-- The two pairs after the bits of the scalar, the highest first. -/
def pairs (a24 x : F) (bits : List Bool) : (F × F) × (F × F) :=
  bits.foldl (step a24 x) ((1, 0), (x, 1))

/-- The coordinate of the multiple. -/
def ladder (a24 : F) (bits : List Bool) (x : F) : F :=
  (pairs a24 x bits).1.1 / (pairs a24 x bits).1.2

/-- The number with these bits, the highest first. -/
def ofBits (bits : List Bool) : Nat := bits.foldl (fun k bit => 2 * k + bit.toNat) 0

@[simp] theorem pairs_append (a24 x : F) (bits : List Bool) (bit : Bool) :
    pairs a24 x (bits ++ [bit]) = step a24 x (pairs a24 x bits) bit := by
  rw [pairs, List.foldl_append]
  rfl

@[simp] theorem ofBits_append (bits : List Bool) (bit : Bool) :
    ofBits (bits ++ [bit]) = 2 * ofBits bits + bit.toNat := by
  rw [ofBits, List.foldl_append]
  rfl

/-- The points of a sum may be exchanged. -/
theorem diffAdd_comm (x : F) (p q : F × F) : diffAdd x p q = diffAdd x q p := by
  apply Prod.ext
  · simp only [diffAdd]
    ring
  · simp only [diffAdd]
    ring

theorem ofBits_cons (bit : Bool) (bits : List Bool) :
    ofBits (bit :: bits) = 2 ^ bits.length * bit.toNat + ofBits bits := by
  induction bits using List.reverseRecOn with
  | nil =>
    rw [show [bit] = [] ++ [bit] from rfl, ofBits_append, List.length_nil, Nat.pow_zero,
      Nat.one_mul, Nat.add_comm]
    rfl
  | append_singleton bits last ih =>
    rw [← List.cons_append, ofBits_append, ih, ofBits_append, List.length_append,
      List.length_singleton, Nat.pow_succ']
    ring

/-- The low bits of a number make its residue. -/
theorem ofBits_testBit (n k : Nat) :
    ofBits ((List.range n).reverse.map k.testBit) = k % 2 ^ n := by
  induction n with
  | zero => exact (Nat.mod_one k).symm
  | succ n ih =>
    rw [List.range_succ, List.reverse_append, List.reverse_singleton, List.singleton_append,
      List.map_cons, ofBits_cons, ih, List.length_map, List.length_reverse, List.length_range,
      Nat.mod_pow_succ, Nat.toNat_testBit, Nat.add_comm]

/-- From the coordinate zero, the pair of the multiple keeps the second member zero. -/
private theorem ladder_zero (a24 : F) (bits : List Bool) : ladder a24 bits 0 = 0 := by
  have zeros : (pairs a24 0 bits).1.2 = 0 ∧ (pairs a24 0 bits).2.1 * (pairs a24 0 bits).2.2 = 0 := by
    induction bits using List.reverseRecOn with
    | nil => exact ⟨rfl, zero_mul 1⟩
    | append_singleton bits bit ih =>
      rw [pairs_append, step]
      generalize pairs a24 0 bits = s at ih ⊢
      obtain ⟨hp, hq⟩ := ih
      cases bit with
      | false =>
        rw [if_neg Bool.false_ne_true]
        refine ⟨?_, ?_⟩
        · simp only [dbl, hp]
          ring
        · simp only [diffAdd, zero_mul, mul_zero]
      | true =>
        rw [if_pos rfl]
        refine ⟨?_, ?_⟩
        · simp only [diffAdd, zero_mul]
        · simp only [dbl]
          linear_combination 4 * ((s.2.1 + s.2.2) ^ 2 * (s.2.1 - s.2.2) ^ 2 *
            ((s.2.1 + s.2.2) ^ 2 + 4 * a24 * (s.2.1 * s.2.2))) * hq
  rw [ladder, zeros.1, div_zero]

/-! ### The curve -/

/-- `y ^ 2 = x ^ 3 + d * (4 * a24 + 2) * x ^ 2 + d ^ 2 * x`. -/
def curve (a24 d : F) : Affine F := ⟨0, d * (4 * a24 + 2), 0, d ^ 2, 0⟩

/-- A pair of zeros stands for nothing; else `(x, 0)` stands for the zero of the curve and `(x, z)`
for the points whose first coordinate is `d * (x / z)`. -/
def Represents {a24 d : F} (p : F × F) : (curve a24 d).Point → Prop
  | .zero => p.1 ≠ 0 ∧ p.2 = 0
  | .some x _ _ => p.2 ≠ 0 ∧ d * p.1 = x * p.2

/-- The coordinate of a point, up to `d`. -/
def coordinate {a24 d : F} : (curve a24 d).Point → F
  | .zero => 0
  | .some x _ _ => x / d

variable {a24 d : F}

theorem Represents.coordinate_eq (hd : d ≠ 0) {p : F × F} {P : (curve a24 d).Point}
    (h : Represents p P) : p.1 / p.2 = coordinate P := by
  cases P with
  | zero => rw [h.2, div_zero, coordinate]
  | some x y _ => rw [coordinate, div_eq_div_iff h.1 hd, mul_comm, h.2]

theorem Represents.neg {p : F × F} {P : (curve a24 d).Point} (h : Represents p P) :
    Represents p (-P) := by
  cases P with
  | zero => exact h
  | some x y _ => exact h

/-- The coefficient is neither 2 nor -2, and two is not zero. -/
structure Smooth (a24 : F) : Prop where
  two : (2 : F) ≠ 0
  low : a24 ≠ 0
  high : a24 + 1 ≠ 0

theorem curve_equation_iff (x y : F) :
    (curve a24 d).Equation x y ↔ y ^ 2 = x ^ 3 + d * (4 * a24 + 2) * x ^ 2 + d ^ 2 * x := by
  rw [Affine.equation_iff]
  simp only [curve]
  ring_nf

theorem curve_negY (x y : F) : (curve a24 d).negY x y = -y := by
  simp only [Affine.negY, curve]
  ring

theorem Smooth.four (hs : Smooth a24) : (4 : F) ≠ 0 := by
  rw [show (4 : F) = 2 * 2 by norm_num]
  exact mul_ne_zero hs.two hs.two

/-- Every value is the coordinate of a point on one of the curves. -/
theorem exists_coordinate (hs : Smooth a24) (x : F) :
    ∃ d : F, d ≠ 0 ∧ ∃ B : (curve a24 d).Point, coordinate B = x := by
  by_cases cubic : x ^ 3 + (4 * a24 + 2) * x ^ 2 + x = 0
  · refine ⟨1, one_ne_zero, .some x 0 ?_, div_one x⟩
    rw [Affine.nonsingular_iff', curve_equation_iff]
    refine ⟨by linear_combination -cubic, .inl fun tangent => ?_⟩
    simp only [curve] at tangent
    -- a double root of the cubic makes the coefficient 2 or -2
    rcases mul_eq_zero.mp (show x * (x ^ 2 + (4 * a24 + 2) * x + 1) = 0 by
      linear_combination cubic) with origin | quadratic
    · rw [origin] at tangent
      exact one_ne_zero (by linear_combination -tangent)
    · rcases mul_eq_zero.mp (show x * (2 * x + (4 * a24 + 2)) = 0 by
        linear_combination -tangent - quadratic) with origin | vertex
      · rw [origin] at quadratic
        exact one_ne_zero (by linear_combination quadratic)
      · have product : 4 * (4 * (a24 * (a24 + 1))) = 0 := by
          linear_combination ((4 * a24 + 2) + 2 * x) * vertex - 4 * quadratic
        exact mul_ne_zero hs.four (mul_ne_zero hs.four (mul_ne_zero hs.low hs.high)) product
  · refine ⟨x ^ 3 + (4 * a24 + 2) * x ^ 2 + x, cubic, ?_⟩
    generalize hc : x ^ 3 + (4 * a24 + 2) * x ^ 2 + x = c at cubic
    refine ⟨.some (c * x) (c ^ 2) ?_, mul_div_cancel_left₀ x cubic⟩
    rw [Affine.nonsingular_iff', curve_equation_iff]
    refine ⟨by linear_combination -c ^ 3 * hc, .inr ?_⟩
    simp only [curve, zero_mul, add_zero]
    exact mul_ne_zero hs.two (pow_ne_zero 2 cubic)

/-- What a representing pair is made of: the coordinate and a scale. -/
private theorem Represents.scaled {p : F × F} {x y : F} {h : (curve a24 d).Nonsingular x y}
    (hp : Represents p (.some x y h)) :
    ∃ t z, z ≠ 0 ∧ p = (t * z, z) ∧ x = d * t ∧
      y ^ 2 = d ^ 3 * (t ^ 3 + (4 * a24 + 2) * t ^ 2 + t) := by
  obtain ⟨hz, hx⟩ := hp
  have coordinate : x = d * (p.1 / p.2) := by
    rw [mul_div_assoc', hx, mul_div_cancel_right₀ _ hz]
  refine ⟨p.1 / p.2, p.2, hz, ?_, coordinate, ?_⟩
  · rw [div_mul_cancel₀ _ hz]
  · rw [(curve_equation_iff _ _).mp h.1, coordinate]
    ring

variable [DecidableEq F]

/-! ### One bit -/

/-- Where the second coordinate is zero, the point is its own negative. -/
private theorem double_eq_zero {x : F} {h : (curve a24 d).Nonsingular x 0} :
    Affine.Point.some x 0 h + Affine.Point.some x 0 h = 0 := by
  apply Affine.Point.add_self_of_Y_eq
  rw [curve_negY, neg_zero]

/-- The double of a point with coordinate `d * t`. -/
private theorem double_coordinate (hs : Smooth a24) (hd : d ≠ 0) {t y : F} (hy : y ≠ 0)
    (h : y ^ 2 = d ^ 3 * (t ^ 3 + (4 * a24 + 2) * t ^ 2 + t)) :
    (curve a24 d).addX (d * t) (d * t) ((curve a24 d).slope (d * t) (d * t) y y) =
      d * ((t ^ 2 - 1) ^ 2 / (4 * (t ^ 3 + (4 * a24 + 2) * t ^ 2 + t))) := by
  have twoY : y ≠ (curve a24 d).negY (d * t) y := by
    rw [curve_negY]
    intro same
    have : 2 * y = 0 := by linear_combination same
    rcases mul_eq_zero.mp this with two | zero
    · exact hs.two two
    · exact hy zero
  have cubic : t ^ 3 + (4 * a24 + 2) * t ^ 2 + t ≠ 0 := by
    intro zero
    rw [zero, mul_zero] at h
    exact hy (pow_eq_zero_iff two_ne_zero |>.mp h)
  have four := hs.four
  have tangent : (curve a24 d).slope (d * t) (d * t) y y * (2 * y) =
      3 * (d * t) ^ 2 + 2 * (d * (4 * a24 + 2)) * (d * t) + d ^ 2 := by
    rw [Affine.slope_of_Y_ne rfl twoY, curve_negY, show y - -y = 2 * y by ring,
      div_mul_cancel₀ _ (mul_ne_zero hs.two hy)]
    simp only [curve]
    ring
  generalize (curve a24 d).slope (d * t) (d * t) y y = l at tangent ⊢
  rw [Affine.addX, mul_div_assoc', eq_div_iff (mul_ne_zero four cubic)]
  apply mul_left_cancel₀ (pow_ne_zero 3 hd)
  simp only [curve]
  linear_combination (l * (2 * y) +
    (3 * (d * t) ^ 2 + 2 * (d * (4 * a24 + 2)) * (d * t) + d ^ 2)) * tangent - 4 * l ^ 2 * h

/-- A pair is doubled as its point is. -/
theorem Represents.dbl (hs : Smooth a24) (hd : d ≠ 0) {p : F × F} {P : (curve a24 d).Point}
    (hp : Represents p P) : Represents (dbl a24 p) (P + P) := by
  have four := hs.four
  cases P with
  | zero =>
    obtain ⟨hx, hz⟩ := hp
    refine ⟨?_, ?_⟩
    · simp only [MontgomeryLadder.dbl, hz, add_zero, sub_zero]
      exact mul_ne_zero (pow_ne_zero 2 hx) (pow_ne_zero 2 hx)
    · simp only [MontgomeryLadder.dbl, hz]
      ring
  | some x y h =>
    obtain ⟨t, z, hz, rfl, rfl, hy⟩ := hp.scaled
    have first : (MontgomeryLadder.dbl a24 (t * z, z)).1 = z ^ 4 * (t ^ 2 - 1) ^ 2 := by
      simp only [MontgomeryLadder.dbl]
      ring
    have second : (MontgomeryLadder.dbl a24 (t * z, z)).2 =
        z ^ 4 * (4 * (t ^ 3 + (4 * a24 + 2) * t ^ 2 + t)) := by
      simp only [MontgomeryLadder.dbl]
      ring
    by_cases zero : y = 0
    · -- a point of order two
      subst zero
      have cubic : t * (t ^ 2 + (4 * a24 + 2) * t + 1) = 0 := by
        have : d ^ 3 * (t * (t ^ 2 + (4 * a24 + 2) * t + 1)) = 0 := by linear_combination -hy
        exact (mul_eq_zero.mp this).resolve_left (pow_ne_zero 3 hd)
      rw [double_eq_zero]
      refine ⟨?_, ?_⟩
      · rw [first]
        refine mul_ne_zero (pow_ne_zero 4 hz) (pow_ne_zero 2 fun one => ?_)
        -- the coordinate would be 1 or -1
        rcases mul_eq_zero.mp cubic with origin | quadratic
        · rw [origin] at one
          exact one_ne_zero (by linear_combination -one)
        · have product : 4 * (4 * (a24 * (a24 + 1))) = 0 := by
            linear_combination ((4 * a24 + 2) * t - 2) * quadratic -
              ((4 * a24 + 2) * t - 2 + (4 * a24 + 2) ^ 2) * one
          exact mul_ne_zero four (mul_ne_zero four (mul_ne_zero hs.low hs.high)) product
      · rw [second]
        linear_combination 4 * z ^ 4 * cubic
    · have cubic : t ^ 3 + (4 * a24 + 2) * t ^ 2 + t ≠ 0 := by
        intro none
        rw [none, mul_zero] at hy
        exact zero (pow_eq_zero_iff two_ne_zero |>.mp hy)
      have twoY : y ≠ (curve a24 d).negY (d * t) y := by
        rw [curve_negY]
        intro same
        rcases mul_eq_zero.mp (show 2 * y = 0 by linear_combination same) with two | none
        · exact hs.two two
        · exact zero none
      rw [Affine.Point.add_self_of_Y_ne twoY]
      refine ⟨?_, ?_⟩
      · rw [second]
        exact mul_ne_zero (pow_ne_zero 4 hz) (mul_ne_zero four cubic)
      · rw [double_coordinate hs hd zero hy, first, second]
        generalize t ^ 3 + (4 * a24 + 2) * t ^ 2 + t = c at cubic ⊢
        field_simp

/-- The coordinates of a sum and of a difference. -/
private theorem sum_coordinate (hd : d ≠ 0) {t t' y y' : F} (ht : t ≠ t')
    (hy : y ^ 2 = d ^ 3 * (t ^ 3 + (4 * a24 + 2) * t ^ 2 + t))
    (hy' : y' ^ 2 = d ^ 3 * (t' ^ 3 + (4 * a24 + 2) * t' ^ 2 + t')) :
    (curve a24 d).addX (d * t) (d * t') ((curve a24 d).slope (d * t) (d * t') y y') *
        (curve a24 d).addX (d * t') (d * t) ((curve a24 d).slope (d * t') (d * t) y' (-y)) *
        (t - t') ^ 2 =
      d ^ 2 * (t * t' - 1) ^ 2 := by
  have apart : d * t - d * t' ≠ 0 := by
    rw [← mul_sub]
    exact mul_ne_zero hd (sub_ne_zero.mpr ht)
  have apart' : d * t' - d * t ≠ 0 := by
    rw [← neg_sub]
    exact neg_ne_zero.mpr apart
  have chord : (curve a24 d).slope (d * t) (d * t') y y' * (d * (t - t')) = y - y' := by
    rw [Affine.slope_of_X_ne (sub_ne_zero.mp apart), mul_sub, div_mul_cancel₀ _ apart]
  have chord' : (curve a24 d).slope (d * t') (d * t) y' (-y) * (d * (t - t')) = -(y' + y) := by
    rw [Affine.slope_of_X_ne (sub_ne_zero.mp apart'), show d * (t - t') = -(d * t' - d * t) by ring,
      mul_neg, div_mul_cancel₀ _ apart']
    ring
  generalize (curve a24 d).slope (d * t) (d * t') y y' = l at chord ⊢
  generalize (curve a24 d).slope (d * t') (d * t) y' (-y) = l' at chord' ⊢
  simp only [Affine.addX, curve, zero_mul, add_zero]
  have scale : d ^ 4 * (t - t') ^ 2 ≠ 0 :=
    mul_ne_zero (pow_ne_zero 4 hd) (pow_ne_zero 2 (sub_ne_zero.mpr ht))
  apply mul_right_cancel₀ scale
  calc (l ^ 2 - d * (4 * a24 + 2) - d * t - d * t') * (l' ^ 2 - d * (4 * a24 + 2) - d * t' - d * t) *
        (t - t') ^ 2 * (d ^ 4 * (t - t') ^ 2)
      = ((l * (d * (t - t'))) ^ 2 - (4 * a24 + 2 + t + t') * d ^ 3 * (t - t') ^ 2) *
          ((l' * (d * (t - t'))) ^ 2 - (4 * a24 + 2 + t + t') * d ^ 3 * (t - t') ^ 2) := by ring
    _ = (y ^ 2 - y' ^ 2) ^ 2 -
          2 * ((4 * a24 + 2 + t + t') * d ^ 3 * (t - t') ^ 2) * (y ^ 2 + y' ^ 2) +
          ((4 * a24 + 2 + t + t') * d ^ 3 * (t - t') ^ 2) ^ 2 := by
        rw [chord, chord']
        ring
    _ = d ^ 2 * (t * t' - 1) ^ 2 * (d ^ 4 * (t - t') ^ 2) := by
        rw [hy, hy']
        ring

/-- Two pairs are added as their points are, if the difference is a point whose coordinate is not
zero. -/
theorem Represents.diffAdd (hs : Smooth a24) (hd : d ≠ 0) {x : F} (hx : x ≠ 0) {p q : F × F}
    {P Q B : (curve a24 d).Point} (hp : Represents p P) (hq : Represents q Q)
    (hB : Represents (x, 1) B) (difference : Q = P + B) :
    Represents (diffAdd x p q) (P + Q) := by
  have four := hs.four
  have nonzero : B ≠ 0 := by
    rintro rfl
    exact one_ne_zero hB.2
  have first : (MontgomeryLadder.diffAdd x p q).1 = 4 * (p.1 * q.1 - p.2 * q.2) ^ 2 := by
    simp only [MontgomeryLadder.diffAdd]
    ring
  have second : (MontgomeryLadder.diffAdd x p q).2 = x * (4 * (p.1 * q.2 - p.2 * q.1) ^ 2) := by
    simp only [MontgomeryLadder.diffAdd]
    ring
  cases P with
  | zero =>
    obtain rfl : Q = B := difference.trans (zero_add B)
    obtain ⟨hx1, hz1⟩ := hp
    cases Q with
    | zero => exact absurd rfl nonzero
    | some X Y h =>
      obtain ⟨hz2, here⟩ := hq
      obtain ⟨_, there⟩ := hB
      rw [mul_one] at there
      have same : q.1 = x * q.2 := by
        apply mul_left_cancel₀ hd
        rw [here, ← there, mul_assoc]
      show Represents _ (0 + Affine.Point.some X Y h)
      rw [zero_add]
      refine ⟨?_, ?_⟩
      · rw [second, hz1, zero_mul, sub_zero]
        exact mul_ne_zero hx (mul_ne_zero four (pow_ne_zero 2 (mul_ne_zero hx1 hz2)))
      · rw [first, second, hz1, same, ← there]
        ring
  | some X Y h =>
    obtain ⟨t, z, hz, rfl, rfl, hy⟩ := hp.scaled
    cases Q with
    | zero =>
      obtain ⟨hx2, hz2⟩ := hq
      have opposite : B = -Affine.Point.some (d * t) Y h := by
        rw [eq_neg_iff_add_eq_zero, add_comm]
        exact difference.symm
      obtain rfl : x = t := by
        rw [opposite] at hB
        have there := hB.2
        rw [mul_one] at there
        exact mul_left_cancel₀ hd there
      show Represents _ (Affine.Point.some (d * x) Y h + 0)
      rw [add_zero]
      refine ⟨?_, ?_⟩
      · rw [second, hz2, mul_zero, zero_sub, neg_sq]
        exact mul_ne_zero hx (mul_ne_zero four (pow_ne_zero 2 (mul_ne_zero hz hx2)))
      · rw [first, second, hz2]
        ring
    | some X' Y' h' =>
      have doubled := Represents.dbl hs hd hq
      obtain ⟨t', z', hz', rfl, rfl, hy'⟩ := hq.scaled
      simp only at first second
      have minus : B = Affine.Point.some (d * t') Y' h' + -Affine.Point.some (d * t) Y h := by
        rw [difference]
        abel
      by_cases same : t = t'
      · -- two points with one coordinate are opposite, since they are not the same
        subst same
        have either : Affine.Point.some (d * t) Y' h' = Affine.Point.some (d * t) Y h ∨
            Affine.Point.some (d * t) Y' h' = -Affine.Point.some (d * t) Y h :=
          Affine.Point.X_eq_iff.mp rfl
        rcases either with equal | opposite
        · rw [equal] at minus
          exact absurd (minus.trans (add_neg_cancel _)) nonzero
        · rw [← opposite] at minus
          rw [← minus] at doubled
          rw [opposite, add_neg_cancel]
          refine ⟨?_, ?_⟩
          · -- otherwise the difference would have the coordinate zero
            have double : (MontgomeryLadder.dbl a24 (t * z', z')).1 =
                x * (MontgomeryLadder.dbl a24 (t * z', z')).2 := by
              cases B with
              | zero => exact absurd rfl nonzero
              | some X'' Y'' h'' =>
                have there := hB.2
                rw [mul_one] at there
                apply mul_left_cancel₀ hd
                rw [doubled.2, ← there, mul_assoc]
            have nonzero' : (MontgomeryLadder.dbl a24 (t * z', z')).1 ≠ 0 := by
              rw [double]
              cases B with
              | zero => exact absurd rfl nonzero
              | some X'' Y'' h'' => exact mul_ne_zero hx doubled.1
            have value : (MontgomeryLadder.dbl a24 (t * z', z')).1 =
                z' ^ 4 * (t ^ 2 - 1) ^ 2 := by
              simp only [MontgomeryLadder.dbl]
              ring
            rw [value] at nonzero'
            rw [first, show t * z * (t * z') - z * z' = z * z' * (t ^ 2 - 1) by ring]
            refine mul_ne_zero four (pow_ne_zero 2 (mul_ne_zero (mul_ne_zero hz hz') ?_))
            intro one
            rw [one] at nonzero'
            exact nonzero' (by ring)
          · rw [second]
            ring
      · have sum := sum_coordinate hd same hy hy'
        have apart : d * t ≠ d * t' := fun h => same (mul_left_cancel₀ hd h)
        rw [minus, Affine.Point.neg_some, Affine.Point.add_of_X_ne apart.symm] at hB
        have there := hB.2
        rw [mul_one, curve_negY] at there
        rw [← there] at sum
        rw [Affine.Point.add_of_X_ne apart]
        have gap : t - t' ≠ 0 := sub_ne_zero.mpr same
        refine ⟨?_, ?_⟩
        · rw [second, show t * z * z' - z * (t' * z') = z * z' * (t - t') by ring]
          exact mul_ne_zero hx (mul_ne_zero four (pow_ne_zero 2 (mul_ne_zero (mul_ne_zero hz hz')
            gap)))
        · rw [first, second]
          apply mul_left_cancel₀ hd
          linear_combination -4 * z ^ 2 * z' ^ 2 * sum

/-! ### All bits -/

/-- The two pairs stand for the multiple that the bits so far make, and for the next one. -/
theorem pairs_represent (hs : Smooth a24) (hd : d ≠ 0) {x : F} (hx : x ≠ 0)
    {B : (curve a24 d).Point} (hB : Represents (x, 1) B) (bits : List Bool) :
    Represents (pairs a24 x bits).1 (ofBits bits • B) ∧
      Represents (pairs a24 x bits).2 ((ofBits bits + 1) • B) := by
  induction bits using List.reverseRecOn with
  | nil =>
    refine ⟨?_, ?_⟩
    · rw [show ofBits [] = 0 from rfl, zero_smul]
      exact ⟨one_ne_zero, rfl⟩
    · rw [show ofBits [] = 0 from rfl, zero_add, one_smul]
      exact hB
  | append_singleton bits bit ih =>
    obtain ⟨hp, hq⟩ := ih
    have next : (ofBits bits + 1) • B = ofBits bits • B + B := succ_nsmul B _
    have sum := hp.diffAdd hs hd hx hq hB next
    rw [pairs_append, ofBits_append, step]
    cases bit with
    | false =>
      refine ⟨?_, ?_⟩
      · rw [Bool.toNat_false, add_zero, two_mul, add_smul]
        exact hp.dbl hs hd
      · rw [Bool.toNat_false, add_zero, two_mul, add_assoc, add_smul]
        exact sum
    | true =>
      refine ⟨?_, ?_⟩
      · rw [Bool.toNat_true, two_mul, add_assoc, add_smul]
        exact sum
      · rw [Bool.toNat_true, show 2 * ofBits bits + 1 + 1 = (ofBits bits + 1) + (ofBits bits + 1) by
          omega, add_smul]
        exact hq.dbl hs hd

/-- Only the zero of the curve and a point of order two have the coordinate zero. -/
theorem add_self_of_coordinate (hd : d ≠ 0) {B : (curve a24 d).Point} (h : coordinate B = 0) :
    B + B = 0 := by
  cases B with
  | zero => exact zero_add _
  | some X Y hB =>
    have first : X = 0 := (div_eq_zero_iff.mp h).resolve_right hd
    subst first
    have second : Y = 0 := by
      have := (curve_equation_iff _ _).mp hB.1
      exact pow_eq_zero_iff two_ne_zero |>.mp (this.trans (by ring))
    subst second
    exact double_eq_zero

/-- The multiples of a point with coordinate zero have the coordinate zero. -/
private theorem coordinate_smul_zero (hd : d ≠ 0) {B : (curve a24 d).Point}
    (h : coordinate B = 0) (k : Nat) : coordinate (k • B) = 0 := by
  have order := add_self_of_coordinate hd h
  have multiple : k • B = 0 ∨ k • B = B := by
    induction k with
    | zero => exact .inl (zero_smul _ B)
    | succ k ih =>
      rw [succ_nsmul]
      rcases ih with zero | one
      · rw [zero, zero_add]
        exact .inr rfl
      · rw [one]
        exact .inl order
  rcases multiple with zero | one
  · rw [zero]
    rfl
  · rw [one]
    exact h

/-- The ladder computes the coordinate of the multiple. -/
theorem ladder_coordinate (hs : Smooth a24) (hd : d ≠ 0) (B : (curve a24 d).Point)
    (bits : List Bool) : ladder a24 bits (coordinate B) = coordinate (ofBits bits • B) := by
  by_cases zero : coordinate B = 0
  · rw [zero, ladder_zero, coordinate_smul_zero hd zero]
  · have hB : Represents (coordinate B, 1) B := by
      cases B with
      | zero => exact absurd rfl zero
      | some X Y h =>
        refine ⟨one_ne_zero, ?_⟩
        rw [coordinate, mul_one, mul_div_cancel₀ _ hd]
    exact (pairs_represent hs hd zero hB bits).1.coordinate_eq hd

/-- Two ladders commute, whatever the value they start from. -/
theorem ladder_comm (hs : Smooth a24) (bits bits' : List Bool) (x : F) :
    ladder a24 bits (ladder a24 bits' x) = ladder a24 bits' (ladder a24 bits x) := by
  obtain ⟨d, hd, B, rfl⟩ := exists_coordinate hs x
  rw [ladder_coordinate hs hd, ladder_coordinate hs hd, ladder_coordinate hs hd,
    ladder_coordinate hs hd, smul_comm]

omit [DecidableEq F]

/-! ### Residues -/

/-- `dbl` on residues modulo `p`. -/
def dblMod (p a24 : Nat) (s : Nat × Nat) : Nat × Nat :=
  let aa := (s.1 + s.2) ^ 2 % p
  let bb := (s.1 + (p - 1) * s.2) ^ 2 % p
  let e := (aa + (p - 1) * bb) % p
  (aa * bb % p, e * (aa + a24 * e) % p)

/-- `diffAdd` on residues modulo `p`. -/
def diffAddMod (p x : Nat) (s q : Nat × Nat) : Nat × Nat :=
  let da := (q.1 + (p - 1) * q.2) * (s.1 + s.2) % p
  let cb := (q.1 + q.2) * (s.1 + (p - 1) * s.2) % p
  ((da + cb) ^ 2 % p, x * (da + (p - 1) * cb) ^ 2 % p)

/-- `pairs` on residues modulo `p`. -/
def pairsMod (p a24 x : Nat) (bits : List Bool) : (Nat × Nat) × (Nat × Nat) :=
  bits.foldl (fun s bit =>
    if bit then (diffAddMod p x s.1 s.2, dblMod p a24 s.2)
    else (dblMod p a24 s.1, diffAddMod p x s.1 s.2)) ((1, 0), (x, 1))

/-- The pair of the residue classes. -/
def residues (p : Nat) (s : Nat × Nat) : ZMod p × ZMod p := (s.1, s.2)

variable {p : Nat} [Fact p.Prime]

private theorem cast_pred : ((p - 1 : Nat) : ZMod p) = -1 := by
  rw [Nat.cast_pred (Fact.out : p.Prime).pos, ZMod.natCast_self, zero_sub]

theorem residues_dblMod (a24 : Nat) (s : Nat × Nat) :
    residues p (dblMod p a24 s) = dbl (a24 : ZMod p) (residues p s) := by
  apply Prod.ext
  · simp only [residues, dblMod, dbl, ZMod.natCast_mod, Nat.cast_mul, Nat.cast_add, Nat.cast_pow,
      cast_pred]
    ring
  · simp only [residues, dblMod, dbl, ZMod.natCast_mod, Nat.cast_mul, Nat.cast_add, Nat.cast_pow,
      cast_pred]
    ring

theorem residues_diffAddMod (x : Nat) (s q : Nat × Nat) :
    residues p (diffAddMod p x s q) = diffAdd (x : ZMod p) (residues p s) (residues p q) := by
  apply Prod.ext
  · simp only [residues, diffAddMod, diffAdd, ZMod.natCast_mod, Nat.cast_mul, Nat.cast_add,
      Nat.cast_pow, cast_pred]
    ring
  · simp only [residues, diffAddMod, diffAdd, ZMod.natCast_mod, Nat.cast_mul, Nat.cast_add,
      Nat.cast_pow, cast_pred]
    ring

/-- The ladder may be run on residues. -/
theorem residues_pairsMod (a24 x : Nat) (bits : List Bool) :
    (residues p (pairsMod p a24 x bits).1, residues p (pairsMod p a24 x bits).2) =
      pairs (a24 : ZMod p) x bits := by
  induction bits using List.reverseRecOn with
  | nil =>
    simp only [residues, pairsMod, pairs, List.foldl_nil, Nat.cast_one, Nat.cast_zero]
  | append_singleton bits bit ih =>
    rw [pairs_append, ← ih, pairsMod, List.foldl_append]
    cases bit with
    | false => exact Prod.ext (residues_dblMod a24 _) (residues_diffAddMod x _ _)
    | true => exact Prod.ext (residues_diffAddMod x _ _) (residues_dblMod a24 _)

end MontgomeryLadder
