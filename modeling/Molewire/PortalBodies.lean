/-
# What the portal's bodies say

The text the calls of a generator add up to is a printed JSON value. The
longest status fits into the buffer. The networks of a scan choose their own
names, and a byte of a name can take six in a string.
-/

import Molewire.ConfigDomain
import Molewire.PortalBuffer

namespace Molewire

open ByteBuffer Json Transition

/-! ### Numbers -/

theorem decimal_eq (n : Nat) : decimal n = (Nat.toDigits 10 n).map fun c => c.toNat.toUInt8 := by
  rw [decimal, ascii]
  simp [toString, Nat.toList_repr]

theorem decimal_isDigit (n : Nat) : (decimal n).all Json.isDigit := by
  rw [decimal_eq, List.all_map, List.all_eq_true]
  intro c hc
  have hdigit := Nat.isDigit_of_mem_toDigits (by decide) le_rfl hc
  rw [Char.isDigit_iff_toNat] at hdigit
  have hlo : 48 ≤ c.toNat := hdigit.1
  have hhi : c.toNat ≤ 57 := hdigit.2
  have hbyte : (c.toNat.toUInt8).toNat = c.toNat := by
    rw [Nat.toUInt8, UInt8.toNat_ofNat']
    omega
  simp only [Function.comp_apply, Json.isDigit, Bool.and_eq_true, decide_eq_true_eq,
    UInt8.le_iff_toNat_le, hbyte]
  exact hdigit

/-- A positive number does not start with a zero. -/
theorem decimal_head {n : Nat} (h : 0 < n) : (decimal n).head? ≠ some 48 := by
  induction n using Nat.strong_induction_on with
  | _ n ih =>
    rcases Nat.lt_or_ge n 10 with hlt | hge
    · have hsmall : ∀ k < 10, 0 < k → (decimal k).head? ≠ some 48 := by decide
      exact hsmall n hlt h
    · have hrest := ih (n / 10) (by omega) (by omega)
      rw [decimal_eq] at hrest ⊢
      rw [Nat.toDigits_of_base_le (by decide) hge, List.map_append]
      rwa [List.head?_append_of_ne_nil]
      simp [Nat.toDigits_ne_nil]

theorem isNumber_digits {s : Bytes} (hall : s.all Json.isDigit) (hne : s ≠ [])
    (hhead : s.head? ≠ some 48 ∨ s.length = 1) (sign : Bool) :
    isNumber (if sign then 45 :: s else s) := by
  have hdigits : ∀ c ∈ s, Json.isDigit c := by simpa using hall
  have htake : s.takeWhile Json.isDigit = s := List.takeWhile_eq_self_iff.mpr hdigits
  have hdrop : s.dropWhile Json.isDigit = [] := List.dropWhile_eq_nil_iff.mpr hdigits
  have hunsigned : s.head? ≠ some 45 := by
    intro h
    obtain ⟨c, r, rfl⟩ := List.exists_cons_of_ne_nil hne
    obtain rfl : c = 45 := by simpa using h
    exact absurd (hdigits 45 (by simp)) (by decide)
  cases sign <;> simp [isNumber, hunsigned, htake, hdrop, hne, hhead, isFraction, isExponent]

theorem decimal_isNumber (n : Nat) (sign : Bool) :
    isNumber (if sign then 45 :: decimal n else decimal n) := by
  refine isNumber_digits (decimal_isDigit n) ?_ ?_ sign
  · rw [decimal_eq]
    simp [Nat.toDigits_ne_nil]
  · rcases Nat.eq_zero_or_pos n with rfl | hpos
    · exact .inr (by decide)
    · exact .inl (decimal_head hpos)

theorem decimal_isScalar (n : Nat) : (decimal n).all isScalar := by
  have hdigits := decimal_isDigit n
  rw [List.all_eq_true] at hdigits ⊢
  intro c hc
  simp [isScalar, hdigits c hc]

/-- What `%lu` and `%ld` print are numbers. -/
theorem numeric_decimal (n : Nat) : Numeric (.num (decimal n)) :=
  ⟨decimal_isNumber n false, decimal_isScalar n⟩

theorem numeric_decimalInt (z : Int) : Numeric (.num (decimalInt z)) := by
  unfold decimalInt
  split_ifs
  · exact ⟨decimal_isNumber z.natAbs true, by simpa [isScalar] using decimal_isScalar z.natAbs⟩
  · exact numeric_decimal z.natAbs

theorem decimal_length {n k : Nat} (hk : 0 < k) (h : n < 10 ^ k) : (decimal n).length ≤ k := by
  rw [decimal_eq, List.length_map]
  exact (Nat.length_toDigits_le_iff (by decide) hk).mpr h

theorem decimalInt_length {z : Int} {k : Nat} (hk : 0 < k) (h : z.natAbs < 10 ^ k) :
    (decimalInt z).length ≤ k + 1 := by
  have hlen := decimal_length hk h
  unfold decimalInt
  split_ifs
  · simpa using hlen
  · omega

theorem decimal_isPlain (n : Nat) : (decimal n).all isPlain := by
  have hdigits := decimal_isDigit n
  rw [List.all_eq_true] at hdigits ⊢
  intro c hc
  have hc := hdigits c hc
  simp only [Json.isDigit, Bool.and_eq_true, decide_eq_true_eq] at hc
  grind [isPlain]

theorem ntoa_isPlain (a : Ip4) : (ip4addrNtoa a).all isPlain := by
  simp only [ip4addrNtoa, List.all_append, List.all_cons, decimal_isPlain]
  decide

theorem fmtIp4_isPlain (a : Ip4) : (fmtIp4OrEmpty a).all isPlain := by
  unfold fmtIp4OrEmpty
  split_ifs
  · rfl
  · exact ntoa_isPlain a

theorem ntoa_length (a : Ip4) : (ip4addrNtoa a).length ≤ 15 := by
  have hoctet (o : UInt8) : (decimal o.toNat).length ≤ 3 :=
    decimal_length (by decide) (by have := o.toNat_lt; omega)
  have h0 := hoctet a.o0
  have h1 := hoctet a.o1
  have h2 := hoctet a.o2
  have h3 := hoctet a.o3
  simp only [ip4addrNtoa, List.length_append, List.length_cons]
  omega

theorem fmtIp4_length (a : Ip4) : (fmtIp4OrEmpty a).length ≤ 15 := by
  unfold fmtIp4OrEmpty
  split_ifs
  · simp
  · exact ntoa_length a

/-! ### The scan results -/

/-- The object of one result. -/
def netValue (n : Net) : Value :=
  .obj ([(bytes "ssid", .str n.ssid), (bytes "rssi", .num (decimalInt n.rssi.toInt)),
      (bytes "ch", .num (decimal n.channel.toNat)), (bytes "open", .bool n.isOpen),
      (bytes "saved", .bool n.saved)] ++
    (if n.connected then [(bytes "connected", .bool true)] else []) ++
    (if n.badpass then [(bytes "badpass", .bool true)] else []))

/-- The body of `/api/scan` that a table of results asks for. -/
def scanValue (scanning : Bool) (age : Int) (nets : List Net) : Value :=
  .obj [(bytes "scanning", .bool scanning), (bytes "age_s", .num (decimalInt age)),
    (bytes "nets", .arr (nets.map netValue))]

theorem boolText_eq (b : Bool) : boolText b = render (.bool b) := by
  cases b <;> rfl

theorem netPieces_bytes (n : Net) (i : Nat) :
    pieceBytes (netPieces n i) = comma i ++ render (netValue n) := by
  cases n with
  | mk ssid rssi channel isOpen saved connected badpass =>
    cases connected <;> cases badpass <;>
    · simp only [netPieces, netValue, pieceBytes, Piece.bytes, List.flatMap_cons, List.flatMap_nil,
        boolText_eq, render, renderMembers, List.append_assoc, if_true,
        if_false, Bool.false_eq_true, List.cons_append, List.nil_append, quote]
      rfl

@[simp] theorem pieceBytes_append (ps qs : List Piece) :
    pieceBytes (ps ++ qs) = pieceBytes ps ++ pieceBytes qs := List.flatMap_append

/-- The turns of a loop that separates what it prints are the items of an array. -/
theorem pieceBytes_items {α : Type*} (f : α → Nat → List Piece) (g : α → Nat → Value)
    (h : ∀ x i, pieceBytes (f x i) = comma i ++ render (g x i)) (xs : List α) :
    pieceBytes (xs.zipIdx.flatMap fun (x, i) => f x i) =
      renderItems (xs.zipIdx.map fun (x, i) => g x i) := by
  have hbehind (ys : List α) (k : Nat) :
      pieceBytes ((ys.zipIdx (k + 1)).flatMap fun (x, i) => f x i) =
        ((ys.zipIdx (k + 1)).map fun (x, i) => g x i).flatMap fun v => 44 :: render v := by
    induction ys generalizing k with
    | nil => rfl
    | cons y ys ih =>
      rw [List.zipIdx_cons, List.flatMap_cons, pieceBytes_append, ih, List.map_cons,
        List.flatMap_cons, h]
      rfl
  cases xs with
  | nil => rfl
  | cons x xs =>
    rw [List.zipIdx_cons, List.flatMap_cons, pieceBytes_append, List.map_cons, renderItems_eq,
      hbehind, h]
    rfl

/-- In particular where no item depends on its place. -/
theorem pieceBytes_values {α : Type*} (f : α → Nat → List Piece) (g : α → Value)
    (h : ∀ x i, pieceBytes (f x i) = comma i ++ render (g x)) (xs : List α) :
    pieceBytes (xs.zipIdx.flatMap fun (x, i) => f x i) = renderItems (xs.map g) := by
  rw [pieceBytes_items f (fun x _ => g x) h]
  congr 1
  conv_rhs => rw [← List.zipIdx_map_fst 0 xs, List.map_map]
  rfl

theorem scanPieces_bytes (scanning : Bool) (age : Int) (nets : List Net) :
    pieceBytes (scanPieces scanning age nets) = render (scanValue scanning age nets) := by
  rw [scanPieces, pieceBytes_append, pieceBytes_append,
    pieceBytes_values netPieces netValue netPieces_bytes]
  simp only [scanValue, pieceBytes, Piece.bytes, List.flatMap_cons, List.flatMap_nil, boolText_eq,
    render, renderMembers, quote, List.append_assoc, List.cons_append, List.nil_append]
  rfl

/-! ### What a full buffer leaves of the scan -/

theorem forall₂_append_left {α β : Type*} {R : α → β → Prop} {a b : List α} {c : List β}
    (h : List.Forall₂ R (a ++ b) c) :
    ∃ a' b', c = a' ++ b' ∧ List.Forall₂ R a a' ∧ List.Forall₂ R b b' := by
  induction a generalizing c with
  | nil => exact ⟨[], c, rfl, .nil, h⟩
  | cons x a ih =>
    cases h with
    | cons hx h =>
      obtain ⟨a', b', rfl, ha, hb⟩ := ih h
      exact ⟨_ :: a', b', rfl, .cons hx ha, hb⟩

/-- A result whose name lost its end. -/
def Net.Cut (n n' : Net) : Prop := ∃ j, n' = { n with ssid := n.ssid.take j }

theorem cut_same {nets nets' : List Net} (h : List.Forall₂ Net.Cut nets nets')
    (hnames : nets'.map Net.ssid = nets.map Net.ssid) : nets' = nets := by
  induction h with
  | nil => rfl
  | cons hn _ ih =>
    obtain ⟨j, rfl⟩ := hn
    obtain ⟨hname, hrest⟩ := List.cons.inj hnames
    dsimp only at hname
    rw [hname, ih hrest]

theorem cut_texts {ps qs : List Piece} (h : List.Forall₂ Piece.Cut ps qs)
    (htext : ∀ p ∈ ps, ∃ t, p = .text t) : qs = ps := by
  induction h with
  | nil => rfl
  | cons hp _ ih =>
    obtain ⟨t, rfl⟩ := htext _ List.mem_cons_self
    cases hp
    rw [ih fun p hp => htext p (List.mem_cons_of_mem _ hp)]

/-- Nothing but texts stands behind the name of a network. -/
theorem netTexts (n : Net) (head : CStr) :
    ∀ p ∈ Piece.text head :: ((if n.connected then [.text (ascii ",\"connected\":true")] else []) ++
      ((if n.badpass then [.text (ascii ",\"badpass\":true")] else []) ++
        [.text (ascii "\x7d")])), ∃ t, p = .text t := by
  intro p hp
  simp only [List.mem_cons, List.mem_append, List.mem_ite_nil_right, List.not_mem_nil,
    or_false] at hp
  rcases hp with rfl | ⟨-, rfl⟩ | ⟨-, rfl⟩ | rfl <;> exact ⟨_, rfl⟩

theorem netPieces_cut {n : Net} {i : Nat} {qs : List Piece}
    (h : List.Forall₂ Piece.Cut (netPieces n i) qs) : ∃ n', n.Cut n' ∧ qs = netPieces n' i := by
  simp only [netPieces, List.append_assoc, List.cons_append, List.nil_append] at h
  -- the text in front of the name, the name, and the texts behind it
  obtain ⟨_, _, hopen, htail, rfl⟩ := List.forall₂_cons_left_iff.mp h
  obtain ⟨q, _, hname, hbehind, rfl⟩ := List.forall₂_cons_left_iff.mp htail
  cases hopen
  have hrest := cut_texts hbehind (netTexts n _)
  obtain ⟨j, rfl⟩ : ∃ j, q = .str (n.ssid.take j) := by
    cases hname with
    | whole => exact ⟨n.ssid.length, by rw [List.take_length]⟩
    | str x j => exact ⟨j, rfl⟩
  refine ⟨_, ⟨j, rfl⟩, ?_⟩
  rw [hrest]
  simp only [netPieces, List.append_assoc, List.cons_append, List.nil_append]

theorem netsPieces_cut {nets : List Net} (k : Nat) {qs : List Piece}
    (h : List.Forall₂ Piece.Cut ((nets.zipIdx k).flatMap fun (n, i) => netPieces n i) qs) :
    ∃ nets', List.Forall₂ Net.Cut nets nets' ∧
      qs = (nets'.zipIdx k).flatMap fun (n, i) => netPieces n i := by
  induction nets generalizing k qs with
  | nil =>
    cases h
    exact ⟨[], .nil, rfl⟩
  | cons n nets ih =>
    rw [List.zipIdx_cons, List.flatMap_cons] at h
    obtain ⟨a, b, rfl, ha, hb⟩ := forall₂_append_left h
    obtain ⟨n', hn, rfl⟩ := netPieces_cut ha
    obtain ⟨nets', hnets, rfl⟩ := ih (k + 1) hb
    exact ⟨n' :: nets', .cons hn hnets, by rw [List.zipIdx_cons, List.flatMap_cons]⟩

theorem scanPieces_cut {scanning : Bool} {age : Int} {nets : List Net} {qs : List Piece}
    (h : List.Forall₂ Piece.Cut (scanPieces scanning age nets) qs) :
    ∃ nets', List.Forall₂ Net.Cut nets nets' ∧ qs = scanPieces scanning age nets' := by
  unfold scanPieces at h ⊢
  obtain ⟨_, last, rfl, hfront, hlast⟩ := forall₂_append_left h
  obtain ⟨head, _, rfl, hhead, hc⟩ := forall₂_append_left hfront
  obtain ⟨nets', hnets, rfl⟩ := netsPieces_cut 0 hc
  rw [cut_texts hhead (by simp), cut_texts hlast (by simp)]
  exact ⟨nets', hnets, rfl⟩

theorem Spaced.append {ps qs : List Piece} (hp : Spaced ps) (hq : Spaced qs) :
    Spaced (ps ++ qs) := by
  induction ps with
  | nil => exact hq
  | cons p ps ih =>
    cases p with
    | text t => exact ih hp
    | str x =>
      refine ⟨?_, ih hp.2⟩
      have hroom := hp.1
      have hbytes : (pieceBytes (ps ++ qs)).length =
          (pieceBytes ps).length + (pieceBytes qs).length := by
        rw [pieceBytes_append, List.length_append]
      exact hroom.trans (hbytes ▸ Nat.le_add_right _ _)

theorem Spaced.flatMap {α : Type*} {f : α → List Piece} {xs : List α}
    (h : ∀ x ∈ xs, Spaced (f x)) : Spaced (xs.flatMap f) := by
  induction xs with
  | nil => trivial
  | cons x xs ih =>
    rw [List.flatMap_cons]
    exact (h x List.mem_cons_self).append (ih fun y hy => h y (List.mem_cons_of_mem _ hy))

/-- Nothing but texts. -/
theorem Spaced.of_texts {ps : List Piece} (h : ∀ p ∈ ps, ∃ t, p = .text t) : Spaced ps := by
  induction ps with
  | nil => trivial
  | cons p ps ih =>
    obtain ⟨t, rfl⟩ := h p List.mem_cons_self
    exact ih fun q hq => h q (List.mem_cons_of_mem _ hq)

theorem netPieces_spaced (n : Net) (i : Nat) : Spaced (netPieces n i) := by
  simp only [netPieces, List.append_assoc, List.cons_append, List.nil_append]
  refine ⟨?_, .of_texts (netTexts n _)⟩
  simp [pieceBytes, Piece.bytes, ascii]

theorem scanPieces_spaced (scanning : Bool) (age : Int) (nets : List Net) :
    Spaced (scanPieces scanning age nets) := by
  refine Spaced.append (Spaced.append trivial ?_) trivial
  exact Spaced.flatMap fun x _ => netPieces_spaced x.1 x.2

theorem length_boolText (b : Bool) : (boolText b).length ≤ 5 := by
  cases b <;> decide

theorem length_comma (i : Nat) : (comma i).length ≤ 1 := by
  unfold comma
  split_ifs <;> simp

theorem length_decimal_uint16 (n : UInt16) : (decimal n.toNat).length ≤ 5 :=
  decimal_length (by decide) (by have := n.toNat_lt; omega)

theorem length_decimalInt_int16 (z : Int16) : (decimalInt z.toInt).length ≤ 6 :=
  decimalInt_length (by decide) (by have := z.toInt_lt; have := z.le_toInt; omega)

section Short

variable {cap : Nat} {ps qs : List Piece} {t x : CStr}

@[simp] theorem short_nil : Short cap [] := nofun

@[simp] theorem short_text :
    Short cap (.text t :: ps) ↔ cap + t.length < 2 ^ 16 ∧ Short cap ps := by
  simp [Short, or_imp, forall_and]

@[simp] theorem short_str : Short cap (.str x :: ps) ↔ Short cap ps := by
  simp [Short]

@[simp] theorem short_append : Short cap (ps ++ qs) ↔ Short cap ps ∧ Short cap qs := by
  simp [Short, or_imp, forall_and]

theorem Short.flatMap {α : Type*} {f : α → List Piece} {xs : List α}
    (h : ∀ x ∈ xs, Short cap (f x)) : Short cap (xs.flatMap f) := by
  intro t ht
  obtain ⟨x, hx, ht⟩ := List.mem_flatMap.mp ht
  exact h x hx t ht

theorem Short.of_length (h : cap + (pieceBytes ps).length < 2 ^ 16) : Short cap ps := by
  induction ps with
  | nil => exact short_nil
  | cons p ps ih =>
    have hbytes : (pieceBytes (p :: ps)).length = p.bytes.length + (pieceBytes ps).length := by
      simp [pieceBytes]
    have hrest := ih (by omega)
    cases p with
    | text t => exact short_text.mpr ⟨by simp only [Piece.bytes] at hbytes; omega, hrest⟩
    | str x => exact short_str.mpr hrest

end Short

theorem netPieces_short (n : Net) (i : Nat) : Short bodyMax (netPieces n i) := by
  have hmax : bodyMax = 3840 := rfl
  have hcomma := length_comma i
  have hrssi := length_decimalInt_int16 n.rssi
  have hch := length_decimal_uint16 n.channel
  have hopen := length_boolText n.isOpen
  have hsaved := length_boolText n.saved
  cases hconn : n.connected <;> cases hbad : n.badpass <;>
    simp [netPieces, ascii, hconn, hbad] <;> omega

theorem scanPieces_short {scanning : Bool} {age : Int} (hage : age.natAbs < 10000000000)
    (nets : List Net) : Short bodyMax (scanPieces scanning age nets) := by
  have hmax : bodyMax = 3840 := rfl
  have hscanning := length_boolText scanning
  have hlen : (decimalInt age).length ≤ 11 := decimalInt_length (by decide) (by omega)
  have hnets : Short bodyMax (nets.zipIdx.flatMap fun (n, i) => netPieces n i) := by
    apply Short.flatMap
    rintro ⟨n, i⟩ -
    exact netPieces_short n i
  simp only [scanPieces, short_append, short_text, short_nil, and_true, hnets]
  simp only [ascii, List.length_append, List.length_map]
  simp
  omega

theorem numeric_netValue (n : Net) : Numeric (netValue n) := by
  have hrssi := numeric_decimalInt n.rssi.toInt
  have hch := numeric_decimal n.channel.toNat
  unfold netValue
  cases n.connected <;> cases n.badpass <;>
    exact ⟨trivial, hrssi, hch, trivial, trivial, by simp [NumericMembers, Numeric]⟩

theorem numeric_scanValue (scanning : Bool) (age : Int) (nets : List Net) :
    Numeric (scanValue scanning age nets) := by
  have hnets : NumericItems (nets.map netValue) := by
    rw [numericItems_iff]
    intro v hv
    obtain ⟨n, -, rfl⟩ := List.mem_map.mp hv
    exact numeric_netValue n
  exact ⟨trivial, numeric_decimalInt age, hnets, trivial⟩

/-- What the table asks for, as long as the buffer can hold it: with names that lost their ends
where it cannot. -/
theorem scanJson_body (c : Control) {o : Bytes} (ho : o.length = bodyMax) :
    ∃ s nets', c.scanJson o bodyMax = some s ∧ s.n < bodyMax ∧
      List.Forall₂ Net.Cut (c.scan.entries.map c.scanNet) nets' ∧
      s.body = (render (scanValue c.anyScanning c.scanAge nets')).take (bodyMax - 1) ∧
      ((render (scanValue c.anyScanning c.scanAge (c.scan.entries.map c.scanNet))).length <
        bodyMax → nets' = c.scan.entries.map c.scanNet) := by
  have hage : c.scanAge.natAbs < 10000000000 := by
    unfold Control.scanAge
    split_ifs
    · decide
    · have := (c.scanAgeMs / 1000).toNat_lt
      omega
  obtain ⟨s, ps', hs, hlt, hcuts, hbody, hall⟩ := emitAll_body
    (scanPieces c.anyScanning c.scanAge (c.scan.entries.map c.scanNet)) ho
    (by rw [scanPieces, List.getLast?_append]; rfl) (by decide) (by decide)
    (scanPieces_short hage _)
  by_cases hfits : (render (scanValue c.anyScanning c.scanAge
      (c.scan.entries.map c.scanNet))).length < bodyMax
  · have hwhole := hall (scanPieces_spaced _ _ _) (by rwa [scanPieces_bytes])
    refine ⟨s, _, hs, hlt, ?_, ?_, fun _ => rfl⟩
    · exact List.forall₂_same.mpr fun n _ => ⟨n.ssid.length, by rw [List.take_length]⟩
    · rw [Out.body, hbody, hwhole, scanPieces_bytes]
  · obtain ⟨nets', hnets, rfl⟩ := scanPieces_cut hcuts
    exact ⟨s, nets', hs, hlt, hnets, by rw [Out.body, hbody, scanPieces_bytes],
      fun h => absurd h hfits⟩

/-- A body is one JSON value that lists networks by exactly these names. -/
def ScanSays (names : List CStr) (body : Bytes) : Prop :=
  ∃ v, Json.parse body = some v ∧ v.column "nets" "ssid" = some (names.map fun x => some (.str x))

theorem scanValue_column (scanning : Bool) (age : Int) (nets : List Net) :
    (scanValue scanning age nets).column "nets" "ssid" =
      some ((nets.map Net.ssid).map fun x => some (.str x)) := by
  have hfield (n : Net) : (netValue n).field "ssid" = some (.str n.ssid) := rfl
  have hnets : (scanValue scanning age nets).field "nets" = some (.arr (nets.map netValue)) := rfl
  simp only [Value.column, hnets, Option.bind_some, Value.elements, Option.map_some, List.map_map]
  exact congrArg some (List.map_congr_left fun n _ => hfield n)

/-- The body says what the table holds exactly when it fits in front of the last byte. -/
theorem scanSays_iff (c : Control) {o : Bytes} (ho : o.length = bodyMax) :
    (∃ s, c.scanJson o bodyMax = some s ∧ ScanSays (c.scan.entries.map (·.ssid)) s.body) ↔
      (render (scanValue c.anyScanning c.scanAge (c.scan.entries.map c.scanNet))).length <
        bodyMax := by
  obtain ⟨s, nets', hs, -, hcut, hbody, hall⟩ := scanJson_body c ho
  constructor
  · rintro ⟨s', hs', v, hparse, hnames⟩
    obtain rfl : s = s' := Option.some.inj (hs.symm.trans hs')
    -- a body that ends too early is no value
    have hshort : (render (scanValue c.anyScanning c.scanAge nets')).length ≤ bodyMax - 1 := by
      by_contra hlong
      have hsplit := List.take_append_drop (bodyMax - 1)
        (render (scanValue c.anyScanning c.scanAge nets'))
      have hnone := parse_cut (numeric_scanValue _ _ _) rfl hsplit.symm (by simp; omega)
      rw [hbody, hnone] at hparse
      cases hparse
    rw [hbody, List.take_of_length_le hshort, parse_render (numeric_scanValue _ _ _)] at hparse
    obtain rfl := Option.some.inj hparse
    have hsame : nets' = c.scan.entries.map c.scanNet := by
      have hinj : Function.Injective fun x : CStr => some (Value.str x) := by
        intro x y hxy
        simpa using hxy
      rw [scanValue_column] at hnames
      refine cut_same hcut (List.map_injective_iff.mpr hinj (Option.some.inj hnames) |>.trans ?_)
      rw [List.map_map]
      rfl
    rw [← hsame]
    exact Nat.lt_of_le_of_lt hshort (by decide)
  · intro hfits
    obtain rfl := hall hfits
    refine ⟨s, hs, scanValue c.anyScanning c.scanAge (c.scan.entries.map c.scanNet), ?_, ?_⟩
    · rw [hbody, List.take_of_length_le (by omega)]
      exact parse_render (numeric_scanValue _ _ _)
    · rw [scanValue_column, List.map_map (f := c.scanNet)]
      rfl

/-! ### How long the scan gets -/

/-- The bytes that one result takes. -/
def netLength (n : Net) : Nat :=
  42 + (escape n.ssid).length + (decimalInt n.rssi.toInt).length +
    (decimal n.channel.toNat).length + (boolText n.isOpen).length + (boolText n.saved).length +
    (if n.connected then 17 else 0) + (if n.badpass then 15 else 0)

/-- The bytes that all of the results take, with the commas between them. -/
def scanLength (scanning : Bool) (age : Int) (nets : List Net) : Nat :=
  32 + (boolText scanning).length + (decimalInt age).length + (nets.map netLength).sum +
    (nets.length - 1)

theorem length_netValue (n : Net) : (render (netValue n)).length = netLength n := by
  have hbytes := netPieces_bytes n 0
  rw [show comma 0 = [] from rfl, List.nil_append] at hbytes
  rw [← hbytes, netLength]
  cases hconn : n.connected <;> cases hbad : n.badpass <;>
    simp [netPieces, pieceBytes, Piece.bytes, quote, ascii, comma, hconn, hbad] <;> omega

theorem length_scanValue (scanning : Bool) (age : Int) (nets : List Net) :
    (render (scanValue scanning age nets)).length = scanLength scanning age nets := by
  have hnets : (nets.map netValue).map (fun v => (render v).length) = nets.map netLength := by
    rw [List.map_map]
    exact List.map_congr_left fun n _ => length_netValue n
  have hitems := length_renderItems (nets.map netValue)
  rw [hnets, List.length_map] at hitems
  simp [scanValue, render, renderMembers, quote, escape, escapeByte, bytes, boolText_eq, scanLength,
    hitems]
  omega

end Molewire
