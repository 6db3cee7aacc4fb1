/-
# JSON texts

The grammar of RFC 8259 as a parser of bytes, and a printer whose texts it
reads back. Strings are byte strings: an escape stands for its bytes, and
nothing asks the others to be UTF-8. A text that opens an object or an array is
no longer read as one when any of its end is missing.
-/

import Mathlib.Data.List.TakeWhile
import Molewire.Library.ByteBuffer

namespace Json

open ByteBuffer

/-- A JSON value. A number is kept as it is written. -/
inductive Value
  | null
  | bool (b : Bool)
  | num (text : Bytes)
  | str (s : Bytes)
  | arr (items : List Value)
  | obj (members : List (Bytes × Value))

/-- The bytes of an ASCII text. -/
def bytes (s : String) : Bytes := s.toList.map fun c => c.toNat.toUInt8

namespace Value

/-- The member of an object with a name, the first if there are several. -/
def field (name : String) : Value → Option Value
  | .obj ms => (ms.find? fun m => m.1 = bytes name).map (·.2)
  | _ => none

/-- The values of an array. -/
def elements : Value → Option (List Value)
  | .arr vs => some vs
  | _ => none

/-- What a member that is an array has for a name, element by element. -/
def column (list name : String) (v : Value) : Option (List (Option Value)) :=
  ((v.field list).bind elements).map fun vs => vs.map (field name)

end Value

/-! ### Tokens -/

/-- White space between tokens. -/
def isWs (c : UInt8) : Bool := c == 32 || c == 9 || c == 10 || c == 13

/-- The next character that is no white space, and what follows it. -/
def token (b : Bytes) : Option (UInt8 × Bytes) :=
  match b.dropWhile isWs with
  | [] => none
  | c :: r => some (c, r)

def isDigit (c : UInt8) : Bool := 48 ≤ c && c ≤ 57

/-- A character of a number or of a literal name. -/
def isScalar (c : UInt8) : Bool :=
  isDigit c || 97 ≤ c && c ≤ 122 || 65 ≤ c && c ≤ 90 || c == 43 || c == 45 || c == 46

/-! ### Numbers -/

/-- The exponent of a number, or its end. -/
def isExponent : Bytes → Bool
  | [] => true
  | c :: b =>
    let digits := if b.head? = some 43 ∨ b.head? = some 45 then b.tail else b
    (c == 101 || c == 69) && digits != [] && digits.all isDigit

/-- What may follow the integer part. -/
def isFraction : Bytes → Bool
  | 46 :: b => b.takeWhile isDigit != [] && isExponent (b.dropWhile isDigit)
  | b => isExponent b

/-- A number: no plus sign and no superfluous zeros in front. -/
def isNumber (b : Bytes) : Bool :=
  let b := if b.head? = some 45 then b.tail else b
  let int := b.takeWhile isDigit
  int != [] && (int.head? != some 48 || int.length == 1) && isFraction (b.dropWhile isDigit)

/-- A value that is one word. -/
def scalar (b : Bytes) : Option (Value × Bytes) :=
  let word := b.takeWhile isScalar
  let rest := b.dropWhile isScalar
  if word = bytes "true" then some (.bool true, rest)
  else if word = bytes "false" then some (.bool false, rest)
  else if word = bytes "null" then some (.null, rest)
  else if isNumber word then some (.num word, rest)
  else none

/-! ### Strings -/

/-- The value of a hexadecimal digit. -/
def hexValue (c : UInt8) : Option Nat :=
  if isDigit c then some (c.toNat - 48)
  else if 97 ≤ c ∧ c ≤ 102 then some (c.toNat - 87)
  else if 65 ≤ c ∧ c ≤ 70 then some (c.toNat - 55)
  else none

/-- The code unit of four hexadecimal digits. -/
def codeUnit (a b c d : UInt8) : Option Nat := do
  let a ← hexValue a
  let b ← hexValue b
  let c ← hexValue c
  let d ← hexValue d
  return ((a * 16 + b) * 16 + c) * 16 + d

/-- The bytes of a code unit. -/
def utf8 (n : Nat) : Bytes :=
  if n < 0x80 then [n.toUInt8]
  else if n < 0x800 then [(0xC0 + n / 64).toUInt8, (0x80 + n % 64).toUInt8]
  else [(0xE0 + n / 4096).toUInt8, (0x80 + n / 64 % 64).toUInt8, (0x80 + n % 64).toUInt8]

/-- The escapes of one letter. -/
def letterEscape (c : UInt8) : Option UInt8 :=
  if c = 34 ∨ c = 92 ∨ c = 47 then some c
  else if c = 98 then some 8
  else if c = 102 then some 12
  else if c = 110 then some 10
  else if c = 114 then some 13
  else if c = 116 then some 9
  else none

/-- A string behind its opening quote. -/
def string : Bytes → Option (Bytes × Bytes)
  | [] => none
  | 34 :: r => some ([], r)
  | 92 :: 117 :: a :: b :: c :: d :: r => do
    let n ← codeUnit a b c d
    let (s, rest) ← string r
    return (utf8 n ++ s, rest)
  | 92 :: e :: r => do
    let c ← letterEscape e
    let (s, rest) ← string r
    return (c :: s, rest)
  | c :: r =>
    if c < 0x20 ∨ c = 92 then none
    else do
      let (s, rest) ← string r
      return (c :: s, rest)

/-! ### Values -/

mutual

/-- A value and what follows it. The number bounds the steps. -/
def value : Nat → Bytes → Option (Value × Bytes)
  | 0, _ => none
  | n + 1, b => do
    let (c, r) ← token b
    if c = 123 then
      let (c', r') ← token r
      if c' = 125 then some (.obj [], r')
      else
        let (ms, rest) ← members n r
        return (.obj ms, rest)
    else if c = 91 then
      let (c', r') ← token r
      if c' = 93 then some (.arr [], r')
      else
        let (vs, rest) ← items n r
        return (.arr vs, rest)
    else if c = 34 then
      let (s, rest) ← string r
      return (.str s, rest)
    else scalar (c :: r)

/-- The values of an array that has some, with its end. -/
def items : Nat → Bytes → Option (List Value × Bytes)
  | 0, _ => none
  | n + 1, b => do
    let (v, r) ← value n b
    let (c, r) ← token r
    if c = 44 then
      let (vs, rest) ← items n r
      return (v :: vs, rest)
    else if c = 93 then some ([v], r)
    else none

/-- The members of an object that has some, with its end. -/
def members : Nat → Bytes → Option (List (Bytes × Value) × Bytes)
  | 0, _ => none
  | n + 1, b => do
    let (q, r) ← token b
    if q ≠ 34 then none
    else
      let (k, r) ← string r
      let (colon, r) ← token r
      if colon ≠ 58 then none
      else
        let (v, r) ← value n r
        let (c, r) ← token r
        if c = 44 then
          let (ms, rest) ← members n r
          return ((k, v) :: ms, rest)
        else if c = 125 then some ([(k, v)], r)
        else none

end

/-- A text that is one value, and nothing else. -/
def parse (b : Bytes) : Option Value :=
  match value b.length b with
  | some (v, rest) => if rest.dropWhile isWs = [] then some v else none
  | none => none

/-! ### Printing -/

/-- A digit of a hexadecimal number. -/
def hexDigit (n : Nat) : UInt8 := if n < 10 then (48 + n).toUInt8 else (87 + n).toUInt8

/-- A byte in a string. -/
def escapeByte (c : UInt8) : Bytes :=
  if c = 34 ∨ c = 92 then [92, c]
  else if c < 0x20 then bytes "\\u00" ++ [hexDigit (c.toNat / 16), hexDigit (c.toNat % 16)]
  else [c]

/-- A string without its quotes. -/
def escape (s : Bytes) : Bytes := s.flatMap escapeByte

def quote (s : Bytes) : Bytes := 34 :: escape s ++ [34]

mutual

def render : Value → Bytes
  | .null => bytes "null"
  | .bool b => bytes (if b then "true" else "false")
  | .num text => text
  | .str s => quote s
  | .arr vs => 91 :: renderItems vs ++ [93]
  | .obj ms => 123 :: renderMembers ms ++ [125]

def renderItems : List Value → Bytes
  | [] => []
  | [v] => render v
  | v :: vs => render v ++ 44 :: renderItems vs

def renderMembers : List (Bytes × Value) → Bytes
  | [] => []
  | [(k, v)] => quote k ++ 58 :: render v
  | (k, v) :: ms => quote k ++ 58 :: render v ++ 44 :: renderMembers ms

end

mutual

/-- Every number in a value is one. -/
def Numeric : Value → Prop
  | .num text => isNumber text ∧ text.all isScalar
  | .arr vs => NumericItems vs
  | .obj ms => NumericMembers ms
  | _ => True

def NumericItems : List Value → Prop
  | [] => True
  | v :: vs => Numeric v ∧ NumericItems vs

def NumericMembers : List (Bytes × Value) → Prop
  | [] => True
  | (_, v) :: ms => Numeric v ∧ NumericMembers ms

end

theorem numericItems_iff {vs : List Value} : NumericItems vs ↔ ∀ v ∈ vs, Numeric v := by
  induction vs with
  | nil => simp [NumericItems]
  | cons v vs ih => simp [NumericItems, ih]

/-! ### What follows a text does not change how it is read -/

theorem token_append {b r y : Bytes} {c : UInt8} (h : token b = some (c, r)) :
    token (b ++ y) = some (c, r ++ y) := by
  unfold token at h ⊢
  cases hd : b.dropWhile isWs with
  | nil => simp [hd] at h
  | cons c' r' =>
    simp only [hd, Option.some.injEq, Prod.mk.injEq] at h
    obtain ⟨rfl, rfl⟩ := h
    simp [List.dropWhile_append, hd]

theorem string_append {b s r : Bytes} (y : Bytes) (h : string b = some (s, r)) :
    string (b ++ y) = some (s, r ++ y) := by
  fun_induction string b generalizing s r with
  | case1 => simp at h
  | case2 r' => simp_all [string]
  | case3 a b c d r' ih =>
    simp only [Option.bind_eq_bind, Option.bind_eq_some_iff] at h
    obtain ⟨n, hn, ⟨s', rest⟩, hs, he⟩ := h
    simp only [Option.pure_def, Option.some.injEq, Prod.mk.injEq] at he
    obtain ⟨rfl, rfl⟩ := he
    simp [string, hn, ih hs]
  | case4 e r' hne ih =>
    simp only [Option.bind_eq_bind, Option.bind_eq_some_iff] at h
    obtain ⟨c, hc, ⟨s', rest⟩, hs, he⟩ := h
    simp only [Option.pure_def, Option.some.injEq, Prod.mk.injEq] at he
    obtain ⟨rfl, rfl⟩ := he
    have hne117 : e ≠ 117 := by
      rintro rfl
      exact Option.some_ne_none c (hc.symm.trans (by decide))
    rw [List.cons_append, List.cons_append, string]
    · simp [hc, ih hs]
    · rintro a b c d r rfl
      exact absurd rfl hne117
  | case5 c r' _ _ _ hbad => simp at h
  | case6 c r' h1 h2 h3 hok ih =>
    simp only [Option.bind_eq_bind, Option.bind_eq_some_iff] at h
    obtain ⟨⟨s', rest⟩, hs, he⟩ := h
    simp only [Option.pure_def, Option.some.injEq, Prod.mk.injEq] at he
    obtain ⟨rfl, rfl⟩ := he
    have hne92 : c ≠ 92 := fun hc => hok (.inr hc)
    rw [List.cons_append, string]
    · simp [hok, ih hs]
    · exact h1
    · exact fun _ _ _ _ _ hc => absurd hc hne92
    · exact fun _ _ hc => absurd hc hne92

theorem scalar_append {b r : Bytes} {v : Value} (y : Bytes) (h : scalar b = some (v, r))
    (hr : r ≠ []) : scalar (b ++ y) = some (v, r ++ y) := by
  have hrest : b.dropWhile isScalar = r := by
    unfold scalar at h
    grind
  have hword : (b ++ y).takeWhile isScalar = b.takeWhile isScalar := by
    have hlen : (b.takeWhile isScalar).length ≠ b.length := by
      intro hlen
      have hsum := congrArg List.length (List.takeWhile_append_dropWhile (p := isScalar) (l := b))
      rw [List.length_append, hlen, hrest] at hsum
      exact hr (List.length_eq_zero_iff.mp (by omega))
    rw [List.takeWhile_append, if_neg hlen]
  have hdrop : (b ++ y).dropWhile isScalar = b.dropWhile isScalar ++ y := by
    rw [List.dropWhile_append, hrest, if_neg (by simpa using hr)]
  unfold scalar at h ⊢
  rw [hword, hdrop]
  grind

/-- A value that shows its own end: no more text can belong to it. -/
def Value.closed : Value → Bool
  | .null | .bool _ | .num _ => false
  | .str _ | .arr _ | .obj _ => true

theorem scalar_open {b r : Bytes} {v : Value} (h : scalar b = some (v, r)) :
    v.closed = false := by
  unfold scalar at h
  grind [Value.closed]

/-- Reading goes on in the same way when more text follows, and with more fuel. A word has to be
followed by something, or it could go on itself. -/
theorem values_append (n : Nat) :
    (∀ {b r v}, value n b = some (v, r) → r ≠ [] ∨ v.closed →
      ∀ m, n ≤ m → ∀ y, value m (b ++ y) = some (v, r ++ y)) ∧
    (∀ {b r vs}, items n b = some (vs, r) →
      ∀ m, n ≤ m → ∀ y, items m (b ++ y) = some (vs, r ++ y)) ∧
    ∀ {b r ms}, members n b = some (ms, r) →
      ∀ m, n ≤ m → ∀ y, members m (b ++ y) = some (ms, r ++ y) := by
  induction n with
  | zero => exact ⟨by simp [value], by simp [items], by simp [members]⟩
  | succ n ih =>
    obtain ⟨ihValue, ihItems, ihMembers⟩ := ih
    refine ⟨?_, ?_, ?_⟩
    · intro b r v h hr m hm y
      obtain ⟨m, rfl⟩ := Nat.exists_eq_add_of_le' (Nat.one_le_of_lt hm)
      rw [value] at h ⊢
      simp only [Option.bind_eq_bind, Option.bind_eq_some_iff, Prod.exists] at h ⊢
      obtain ⟨c, r₁, hc, h⟩ := h
      refine ⟨c, _, token_append hc, ?_⟩
      split_ifs at h ⊢ with hobj harr hstr
      · simp only [Option.bind_eq_some_iff, Prod.exists] at h ⊢
        obtain ⟨c', r₂, hc', h⟩ := h
        refine ⟨c', _, token_append hc', ?_⟩
        split_ifs at h ⊢ with hend
        · simp_all
        · simp only [Option.bind_eq_some_iff, Prod.exists] at h ⊢
          obtain ⟨ms, rest, hms, he⟩ := h
          simp only [Option.pure_def, Option.some.injEq, Prod.mk.injEq] at he
          obtain ⟨rfl, rfl⟩ := he
          exact ⟨ms, _, ihMembers hms m (by omega) y, rfl⟩
      · simp only [Option.bind_eq_some_iff, Prod.exists] at h ⊢
        obtain ⟨c', r₂, hc', h⟩ := h
        refine ⟨c', _, token_append hc', ?_⟩
        split_ifs at h ⊢ with hend
        · simp_all
        · simp only [Option.bind_eq_some_iff, Prod.exists] at h ⊢
          obtain ⟨vs, rest, hvs, he⟩ := h
          simp only [Option.pure_def, Option.some.injEq, Prod.mk.injEq] at he
          obtain ⟨rfl, rfl⟩ := he
          exact ⟨vs, _, ihItems hvs m (by omega) y, rfl⟩
      · simp only [Option.bind_eq_some_iff, Prod.exists] at h ⊢
        obtain ⟨s, rest, hs, he⟩ := h
        simp only [Option.pure_def, Option.some.injEq, Prod.mk.injEq] at he
        obtain ⟨rfl, rfl⟩ := he
        exact ⟨s, _, string_append y hs, rfl⟩
      · have hopen : v.closed = false := scalar_open h
        exact scalar_append y h (hr.resolve_right (by simp [hopen]))
    · intro b r vs h m hm y
      obtain ⟨m, rfl⟩ := Nat.exists_eq_add_of_le' (Nat.one_le_of_lt hm)
      rw [items] at h ⊢
      simp only [Option.bind_eq_bind, Option.bind_eq_some_iff, Prod.exists] at h ⊢
      obtain ⟨v, r₁, hv, c, r₂, hc, h⟩ := h
      have hne : r₁ ≠ [] := by
        rintro rfl
        simp [token] at hc
      refine ⟨v, _, ihValue hv (.inl hne) m (by omega) y, c, _, token_append hc, ?_⟩
      split_ifs at h ⊢ with hcomma
      · simp only [Option.bind_eq_some_iff, Prod.exists] at h ⊢
        obtain ⟨vs', rest, hvs, he⟩ := h
        simp only [Option.pure_def, Option.some.injEq, Prod.mk.injEq] at he
        obtain ⟨rfl, rfl⟩ := he
        exact ⟨vs', _, ihItems hvs m (by omega) y, rfl⟩
      · simp only [Option.some.injEq, Prod.mk.injEq] at h ⊢
        exact ⟨h.1, by rw [h.2]⟩
    · intro b r ms h m hm y
      obtain ⟨m, rfl⟩ := Nat.exists_eq_add_of_le' (Nat.one_le_of_lt hm)
      rw [members] at h ⊢
      simp only [Option.bind_eq_bind, Option.bind_eq_some_iff, Prod.exists] at h ⊢
      obtain ⟨q, r₁, hq, h⟩ := h
      refine ⟨q, _, token_append hq, ?_⟩
      split_ifs at h ⊢ with hquote
      simp only [Option.bind_eq_some_iff, Prod.exists] at h ⊢
      obtain ⟨k, r₂, hk, colon, r₃, hcolon, h⟩ := h
      refine ⟨k, _, string_append y hk, colon, _, token_append hcolon, ?_⟩
      split_ifs at h ⊢ with hcol
      simp only [Option.bind_eq_some_iff, Prod.exists] at h ⊢
      obtain ⟨v, r₄, hv, c, r₅, hc, h⟩ := h
      have hne : r₄ ≠ [] := by
        rintro rfl
        simp [token] at hc
      refine ⟨v, _, ihValue hv (.inl hne) m (by omega) y, c, _, token_append hc, ?_⟩
      split_ifs at h ⊢ with hcomma
      · simp only [Option.bind_eq_some_iff, Prod.exists] at h ⊢
        obtain ⟨ms', rest, hms, he⟩ := h
        simp only [Option.pure_def, Option.some.injEq, Prod.mk.injEq] at he
        obtain ⟨rfl, rfl⟩ := he
        exact ⟨ms', _, ihMembers hms m (by omega) y, rfl⟩
      · simp only [Option.some.injEq, Prod.mk.injEq] at h ⊢
        exact ⟨h.1, by rw [h.2]⟩

/-! ### Printed strings and lists -/

/-- A byte that a string holds as it is. -/
def isPlain (c : UInt8) : Bool := 0x20 ≤ c && c != 34 && c != 92

theorem escape_plain {s : Bytes} (h : s.all isPlain) : escape s = s := by
  induction s with
  | nil => rfl
  | cons c s ih =>
    simp only [List.all_cons, Bool.and_eq_true, isPlain, decide_eq_true_eq, bne_iff_ne] at h
    obtain ⟨⟨⟨hctl, hquote⟩, hslash⟩, hs⟩ := h
    have hc : escapeByte c = [c] := by
      rw [escapeByte, if_neg (by simp [hquote, hslash]), if_neg (UInt8.not_lt.mpr hctl)]
    rw [show escape (c :: s) = escapeByte c ++ escape s by simp [escape], hc, ih hs]
    rfl

/-- No byte takes more than the six of `\u00xx`. -/
theorem length_escape_le (s : Bytes) : (escape s).length ≤ 6 * s.length := by
  induction s with
  | nil => simp [escape]
  | cons c s ih =>
    have hc : (escapeByte c).length ≤ 6 := by
      unfold escapeByte
      split_ifs <;> simp [bytes]
    rw [show escape (c :: s) = escapeByte c ++ escape s by simp [escape], List.length_append,
      List.length_cons]
    omega

theorem renderItems_eq (v : Value) (vs : List Value) :
    renderItems (v :: vs) = render v ++ vs.flatMap fun v => 44 :: render v := by
  induction vs generalizing v with
  | nil => simp [renderItems]
  | cons v' vs ih =>
    rw [renderItems, ih, List.flatMap_cons, List.cons_append]
    exact List.cons_ne_nil v' vs

theorem length_renderItems (vs : List Value) :
    (renderItems vs).length = (vs.map fun v => (render v).length).sum + (vs.length - 1) := by
  cases vs with
  | nil => rfl
  | cons v vs =>
    have hbehind : (vs.flatMap fun v => 44 :: render v).length =
        (vs.map fun v => (render v).length).sum + vs.length := by
      induction vs with
      | nil => rfl
      | cons v vs ih =>
        simp only [List.flatMap_cons, List.length_append, List.length_cons, ih, List.map_cons,
          List.sum_cons]
        omega
    rw [renderItems_eq, List.length_append, hbehind, List.map_cons, List.sum_cons,
      List.length_cons]
    omega

/-! ### A printed value is read back -/

theorem hexValue_hexDigit : ∀ {n : Nat}, n < 16 → hexValue (hexDigit n) = some n := by
  decide

theorem string_escape (s rest : Bytes) : string (escape s ++ 34 :: rest) = some (s, rest) := by
  induction s with
  | nil => simp [escape, string]
  | cons c s ih =>
    have hsplit : escape (c :: s) = escapeByte c ++ escape s := by simp [escape]
    rw [hsplit, List.append_assoc]
    unfold escapeByte
    split_ifs with hquote hctl
    · have hplain : letterEscape c = some c := by
        rcases hquote with rfl | rfl <;> rfl
      have hc117 : c ≠ 117 := by
        rcases hquote with rfl | rfl <;> decide
      rw [List.cons_append, List.cons_append, List.nil_append, string]
      · simp [hplain, ih]
      · rintro a b c d r rfl
        exact absurd rfl hc117
    · have hlt : c.toNat < 32 := hctl
      have hunit : codeUnit 48 48 (hexDigit (c.toNat / 16)) (hexDigit (c.toNat % 16)) =
          some c.toNat := by
        rw [codeUnit, hexValue_hexDigit (by omega), hexValue_hexDigit (by omega),
          show hexValue 48 = some 0 from rfl]
        simp
        omega
      have hutf8 : utf8 c.toNat = [c] := by
        rw [utf8, if_pos (by omega)]
        simp
      rw [show bytes "\\u00" = [92, 117, 48, 48] from rfl]
      simp [string, hunit, hutf8, ih]
    · have h34 : c ≠ 34 := fun h => hquote (.inl h)
      have h92 : c ≠ 92 := fun h => hquote (.inr h)
      rw [List.cons_append, List.nil_append, string]
      · simp [hctl, h92, ih]
      · exact h34
      · exact fun _ _ _ _ _ h => absurd h h92
      · exact fun _ _ h => absurd h h92

theorem token_cons {c : UInt8} (r : Bytes) (h : isWs c = false) : token (c :: r) = some (c, r) := by
  simp [token, h]

/-- The text does not go on with a word. -/
def WordEnds (rest : Bytes) : Prop := ∀ c ∈ rest.head?, isScalar c = false

theorem scalar_word {word rest : Bytes} (hword : word.all isScalar) (hrest : WordEnds rest) :
    (word ++ rest).takeWhile isScalar = word ∧ (word ++ rest).dropWhile isScalar = rest := by
  have hall : ∀ c ∈ word, isScalar c = true := by simpa using hword
  cases rest with
  | nil =>
    rw [List.append_nil]
    exact ⟨List.takeWhile_eq_self_iff.mpr hall, List.dropWhile_eq_nil_iff.mpr hall⟩
  | cons c rest =>
    have hc : isScalar c = false := hrest c rfl
    simp [List.takeWhile_append_of_pos hall, List.dropWhile_append_of_pos hall, hc]

/-- A number starts with a digit or a minus sign. -/
theorem isNumber_head {text : Bytes} (h : isNumber text) :
    ∃ c r, text = c :: r ∧ (c = 45 ∨ isDigit c) := by
  cases text with
  | nil => exact absurd h (by decide)
  | cons c r =>
    refine ⟨c, r, rfl, ?_⟩
    by_cases hminus : c = 45
    · exact .inl hminus
    · refine .inr ?_
      by_contra hdigit
      simp [isNumber, hminus, hdigit] at h

/-- A character that starts a word. -/
def startsWord (c : UInt8) : Bool :=
  !isWs c && c != 123 && c != 125 && c != 91 && c != 93 && c != 34

theorem startsWord_number {c : UInt8} (h : c = 45 ∨ isDigit c) : startsWord c := by
  rcases h with rfl | hdigit
  · decide
  · simp only [isDigit, Bool.and_eq_true, decide_eq_true_eq] at hdigit
    grind [startsWord, isWs]

/-- A word is read as it is without what follows. -/
theorem value_word {n : Nat} {c : UInt8} {r rest : Bytes} {v : Value} (hc : startsWord c)
    (hword : (c :: r).all isScalar) (hrest : WordEnds rest)
    (hv : scalar (c :: r) = some (v, [])) :
    value (n + 1) (c :: r ++ rest) = some (v, rest) := by
  simp only [startsWord, Bool.and_eq_true, Bool.not_eq_true', bne_iff_ne] at hc
  have hnil : WordEnds [] := by simp [WordEnds]
  obtain ⟨htake, hdrop⟩ := scalar_word hword hnil
  obtain ⟨htake', hdrop'⟩ := scalar_word hword hrest
  rw [List.append_nil] at htake hdrop
  have hscalar : scalar (c :: r ++ rest) = some (v, rest) := by
    unfold scalar at hv ⊢
    rw [htake, hdrop] at hv
    rw [htake', hdrop']
    grind
  rw [List.cons_append] at hscalar ⊢
  simp [value, token_cons _ hc.1.1.1.1.1, hc, hscalar]

theorem scalar_number {text : Bytes} (hnum : isNumber text) (hword : text.all isScalar) :
    scalar text = some (.num text, []) := by
  obtain ⟨htake, hdrop⟩ := scalar_word hword (show WordEnds [] by simp [WordEnds])
  rw [List.append_nil] at htake hdrop
  have hno : ∀ word, isNumber word = false → text ≠ word := by
    rintro word hword rfl
    simp [hnum] at hword
  rw [scalar, htake, hdrop, if_neg (hno (bytes "true") (by decide)),
    if_neg (hno (bytes "false") (by decide)), if_neg (hno (bytes "null") (by decide)), if_pos hnum]

/-- A printed value starts with a character that is no white space. -/
theorem render_head {v : Value} (h : Numeric v) :
    ∃ c r, render v = c :: r ∧ isWs c = false ∧ c ≠ 93 := by
  cases v with
  | null => exact ⟨110, _, rfl, by decide⟩
  | bool b => cases b <;> exact ⟨_, _, rfl, by decide⟩
  | num text =>
    obtain ⟨c, r, rfl, hc⟩ := isNumber_head h.1
    have hstarts := startsWord_number hc
    simp only [startsWord, Bool.and_eq_true, Bool.not_eq_true', bne_iff_ne] at hstarts
    exact ⟨c, r, rfl, hstarts.1.1.1.1.1, hstarts.1.2⟩
  | str s => exact ⟨34, _, rfl, by decide⟩
  | arr vs => exact ⟨91, _, rfl, by decide⟩
  | obj ms => exact ⟨123, _, rfl, by decide⟩

theorem renderItems_cons (v : Value) (vs : List Value) :
    renderItems (v :: vs) = render v ++ (if vs = [] then [] else 44 :: renderItems vs) := by
  cases vs <;> simp [renderItems]

theorem renderMembers_cons (k : Bytes) (v : Value) (ms : List (Bytes × Value)) :
    renderMembers ((k, v) :: ms) =
      quote k ++ 58 :: render v ++ (if ms = [] then [] else 44 :: renderMembers ms) := by
  cases ms <;> simp [renderMembers]

theorem renderItems_head {vs : List Value} (h : NumericItems vs) (hne : vs ≠ []) :
    ∃ c r, renderItems vs = c :: r ∧ isWs c = false ∧ c ≠ 93 := by
  obtain ⟨v, vs, rfl⟩ := List.exists_cons_of_ne_nil hne
  obtain ⟨c, r, hr, hplain⟩ := render_head h.1
  exact ⟨c, _, by rw [renderItems_cons, hr, List.cons_append], hplain⟩

theorem renderMembers_head {ms : List (Bytes × Value)} (hne : ms ≠ []) :
    ∃ r, renderMembers ms = 34 :: r := by
  obtain ⟨⟨k, v⟩, ms, rfl⟩ := List.exists_cons_of_ne_nil hne
  exact ⟨_, by rw [renderMembers_cons, quote, List.cons_append, List.cons_append,
    List.cons_append]⟩

/-- Enough fuel to read a printed value: one for each of its bytes. -/
theorem values_render (n : Nat) :
    (∀ v rest, Numeric v → (render v).length ≤ n → WordEnds rest →
      value n (render v ++ rest) = some (v, rest)) ∧
    (∀ vs rest, NumericItems vs → vs ≠ [] → (renderItems vs).length < n →
      items n (renderItems vs ++ 93 :: rest) = some (vs, rest)) ∧
    ∀ ms rest, NumericMembers ms → ms ≠ [] → (renderMembers ms).length < n →
      members n (renderMembers ms ++ 125 :: rest) = some (ms, rest) := by
  induction n with
  | zero =>
    refine ⟨?_, by simp, by simp⟩
    intro v rest hv hlen
    obtain ⟨c, r, hr, -⟩ := render_head hv
    simp [hr] at hlen
  | succ n ih =>
    obtain ⟨ihValue, ihItems, ihMembers⟩ := ih
    refine ⟨?_, ?_, ?_⟩
    · intro v rest hv hlen hrest
      cases v with
      | null => exact value_word rfl rfl hrest rfl
      | bool b => cases b <;> exact value_word rfl rfl hrest rfl
      | num text =>
        obtain ⟨c, r, rfl, hc⟩ := isNumber_head hv.1
        exact value_word (startsWord_number hc) hv.2 hrest (scalar_number hv.1 hv.2)
      | str s =>
        have hstr := string_escape s rest
        simp [render, quote, value, token_cons, isWs, hstr]
      | arr vs =>
        simp only [render, List.cons_append, List.append_assoc, List.nil_append,
          List.length_cons, List.length_append, List.length_nil] at hlen ⊢
        by_cases hvs : vs = []
        · subst hvs
          simp [renderItems, value, token, isWs]
        · obtain ⟨c, r, hr, hws, hc⟩ := renderItems_head hv hvs
          have hitems := ihItems vs rest hv hvs (by omega)
          rw [hr, List.cons_append] at hitems ⊢
          simp [value, token_cons _ hws, token_cons _ (show isWs 91 = false by decide), hc, hitems]
      | obj ms =>
        simp only [render, List.cons_append, List.append_assoc, List.nil_append,
          List.length_cons, List.length_append, List.length_nil] at hlen ⊢
        by_cases hms : ms = []
        · subst hms
          simp [renderMembers, value, token, isWs]
        · obtain ⟨r, hr⟩ := renderMembers_head hms
          have hmembers := ihMembers ms rest hv hms (by omega)
          rw [hr, List.cons_append] at hmembers ⊢
          simp [value, token_cons, isWs, hmembers]
    · intro vs rest hvs hne hlen
      obtain ⟨v, vs, rfl⟩ := List.exists_cons_of_ne_nil hne
      rw [renderItems_cons] at hlen ⊢
      simp only [List.length_append] at hlen
      rw [List.append_assoc, items]
      by_cases hlast : vs = []
      · subst hlast
        rw [ihValue v _ hvs.1 (by omega) (by simp [WordEnds, isScalar, isDigit])]
        simp [token_cons, isWs]
      · rw [if_neg hlast, List.length_cons] at hlen
        have hitems := ihItems vs rest hvs.2 hlast (by omega)
        rw [if_neg hlast, List.cons_append,
          ihValue v _ hvs.1 (by omega) (by simp [WordEnds, isScalar, isDigit])]
        simp [token_cons, isWs, hitems]
    · intro ms rest hms hne hlen
      obtain ⟨⟨k, v⟩, ms, rfl⟩ := List.exists_cons_of_ne_nil hne
      rw [renderMembers_cons] at hlen ⊢
      simp only [quote, List.cons_append, List.append_assoc, List.nil_append, List.length_cons,
        List.length_append] at hlen ⊢
      rw [members]
      have hkey := string_escape k
      by_cases hlast : ms = []
      · subst hlast
        have hvalue := ihValue v (125 :: rest) hms.1 (by omega)
          (by simp [WordEnds, isScalar, isDigit])
        simp [token_cons, isWs, hkey, hvalue]
      · rw [if_neg hlast, List.length_cons] at hlen
        have hmembers := ihMembers ms rest hms.2 hlast (by omega)
        have hvalue := ihValue v (44 :: (renderMembers ms ++ 125 :: rest)) hms.1 (by omega)
          (by simp [WordEnds, isScalar, isDigit])
        simp [token_cons, isWs, hkey, hvalue, hmembers, hlast]

/-- A printed value is the whole of its text. -/
theorem parse_render {v : Value} (h : Numeric v) : parse (render v) = some v := by
  have hread := (values_render (render v).length).1 v [] h le_rfl (by simp [WordEnds])
  rw [List.append_nil] at hread
  simp [parse, hread]

theorem closed_of_head {n : Nat} {c : UInt8} {b r : Bytes} {v : Value}
    (hc : c = 34 ∨ c = 91 ∨ c = 123) (h : value n (c :: b) = some (v, r)) : v.closed := by
  cases n with
  | zero => simp [value] at h
  | succ n =>
    have hws : isWs c = false := by rcases hc with rfl | rfl | rfl <;> decide
    simp only [value, token_cons b hws, Option.bind_eq_bind, Option.bind_some] at h
    split_ifs at h with hobj harr hstr
    · obtain ⟨_, _, h⟩ := Option.bind_eq_some_iff.mp h
      split_ifs at h
      · cases h
        rfl
      · obtain ⟨_, _, h⟩ := Option.bind_eq_some_iff.mp h
        cases h
        rfl
    · obtain ⟨_, _, h⟩ := Option.bind_eq_some_iff.mp h
      split_ifs at h
      · cases h
        rfl
      · obtain ⟨_, _, h⟩ := Option.bind_eq_some_iff.mp h
        cases h
        rfl
    · obtain ⟨_, _, h⟩ := Option.bind_eq_some_iff.mp h
      cases h
      rfl
    · exact absurd hc (by simp [hobj, harr, hstr])

/-- A string, an array or an object whose end is missing is not read as a value. -/
theorem parse_cut {v : Value} (h : Numeric v) (hv : v.closed) {cut rest : Bytes}
    (hsplit : render v = cut ++ rest) (hrest : rest ≠ []) : parse cut = none := by
  unfold parse
  split
  next v' r hcut =>
    exfalso
    -- what starts like this is read to an end of its own, and so is the same text with more
    have hclosed : v'.closed := by
      cases cut with
      | nil => simp [value] at hcut
      | cons c b =>
        refine closed_of_head ?_ hcut
        cases v <;> simp_all [Value.closed, render, quote]
    have hmore := (values_append _).1 hcut (.inr hclosed) (cut.length + rest.length) (by omega) rest
    have hall := (values_render (render v).length).1 v [] h le_rfl (by simp [WordEnds])
    rw [List.append_nil, hsplit, List.length_append, hmore] at hall
    simp_all
  next => rfl

end Json
