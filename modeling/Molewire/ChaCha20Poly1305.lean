/-
# ChaCha20-Poly1305

The authenticated encryption of `chacha20poly1305.c`. The first block of the
stream is the one-time key of the authenticator, which sees the additional data
and the ciphertext, each filled up to whole blocks, and their lengths. A
ciphertext is deciphered only behind the comparison of its tag, so what is
accepted under a key, a nonce and additional data is what encryption under them
writes, and nothing else.
-/

import Molewire.ChaCha20
import Molewire.Poly1305Value

namespace Molewire

open ByteBuffer LittleEndian BlockBuffer

/-! ### The code -/

/-- `generate_poly1305_key`: the authenticator, and the cipher behind its first block. -/
def generatePoly1305Key (key : Bytes) (nonce : UInt64) : Poly1305State × ChaCha20Ctx :=
  let chacha20State := chacha20Init key nonce
  let block := chacha20 chacha20State (List.replicate 32 0)
  (poly1305Init block.2, block.1)

/-- The zeros that fill `padded_len` up, `(len + 15) & 0xFFFFFFF0` in 32 bits. -/
def padding (len : Nat) : Bytes :=
  let paddedLen := (UInt32.ofNat len + 15) &&& 0xFFFFFFF0
  List.replicate (paddedLen - UInt32.ofNat len).toNat 0

/-- The calls of the authenticator that encryption and decryption share. -/
def aeadMac (poly1305State : Poly1305State) (ad ciphertext : Bytes) : Bytes :=
  let st := poly1305Update poly1305State ad
  let st := poly1305Update st (padding ad.length)
  let st := poly1305Update st ciphertext
  let st := poly1305Update st (padding ciphertext.length)
  let st := poly1305Update st (u64to8Little (UInt64.ofNat ad.length))
  let st := poly1305Update st (u64to8Little (UInt64.ofNat ciphertext.length))
  poly1305Finish st

/-- `chacha20poly1305_encrypt`: what is written to `dst`. -/
def chacha20poly1305Encrypt (src ad : Bytes) (nonce : UInt64) (key : Bytes) : Bytes :=
  let keys := generatePoly1305Key key nonce
  let dst := (chacha20 keys.2 src).2
  dst ++ aeadMac keys.1 ad dst

/-- `chacha20poly1305_decrypt`: what is written to `dst`, if the tag is right. -/
def chacha20poly1305Decrypt (src ad : Bytes) (nonce : UInt64) (key : Bytes) : Option Bytes :=
  if 16 ≤ src.length then
    let dstLen := src.length - 16
    let keys := generatePoly1305Key key nonce
    let mac := aeadMac keys.1 ad (src.take dstLen)
    if cryptoEqual mac (src.drop dstLen) then some (chacha20 keys.2 (src.take dstLen)).2 else none
  else none

/-- `xchacha20poly1305_encrypt`. -/
def xchacha20poly1305Encrypt (src ad nonce key : Bytes) : Bytes :=
  chacha20poly1305Encrypt src ad (u8to64Little nonce 16) (hchacha20 nonce key)

/-- `xchacha20poly1305_decrypt`. -/
def xchacha20poly1305Decrypt (src ad nonce key : Bytes) : Option Bytes :=
  chacha20poly1305Decrypt src ad (u8to64Little nonce 16) (hchacha20 nonce key)

/-! ### What is accepted -/

@[simp] theorem length_poly1305Finish (st : Poly1305State) : (poly1305Finish st).length = 16 := rfl

@[simp] theorem length_aeadMac (st : Poly1305State) (ad ciphertext : Bytes) :
    (aeadMac st ad ciphertext).length = 16 := rfl

@[simp] theorem length_chacha20poly1305Encrypt (src ad : Bytes) (nonce : UInt64) (key : Bytes) :
    (chacha20poly1305Encrypt src ad nonce key).length = src.length + 16 := by
  rw [chacha20poly1305Encrypt, List.length_append, length_chacha20, length_aeadMac]

/-- What encryption writes is accepted and deciphered. -/
theorem decrypt_encrypt (src ad : Bytes) (nonce : UInt64) (key : Bytes) :
    chacha20poly1305Decrypt (chacha20poly1305Encrypt src ad nonce key) ad nonce key = some src := by
  have front : (chacha20poly1305Encrypt src ad nonce key).length - 16 =
      (chacha20 (generatePoly1305Key key nonce).2 src).2.length := by
    rw [length_chacha20poly1305Encrypt, length_chacha20, Nat.add_sub_cancel]
  rw [chacha20poly1305Decrypt, if_pos (by rw [length_chacha20poly1305Encrypt]; omega), front]
  simp only [chacha20poly1305Encrypt, List.take_left, List.drop_left]
  rw [if_pos ((cryptoEqual_iff rfl).mpr rfl), chacha20_chacha20]

theorem chacha20poly1305Encrypt_inj {m m' ad : Bytes} {nonce : UInt64} {key : Bytes}
    (h : chacha20poly1305Encrypt m ad nonce key = chacha20poly1305Encrypt m' ad nonce key) :
    m = m' := by
  have opened := decrypt_encrypt m ad nonce key
  rw [h, decrypt_encrypt] at opened
  exact (Option.some.inj opened).symm

/-- What is accepted is what encryption writes. -/
theorem encrypt_of_decrypt {src ad m : Bytes} {nonce : UInt64} {key : Bytes}
    (h : chacha20poly1305Decrypt src ad nonce key = some m) :
    src = chacha20poly1305Encrypt m ad nonce key := by
  rw [chacha20poly1305Decrypt] at h
  split at h
  case isFalse => cases h
  case isTrue long =>
    dsimp only at h
    split at h
    case isFalse => cases h
    case isTrue tag =>
      have lengths : (aeadMac (generatePoly1305Key key nonce).1 ad
          (src.take (src.length - 16))).length = (src.drop (src.length - 16)).length := by
        rw [length_aeadMac, List.length_drop]
        omega
      have mac := (cryptoEqual_iff lengths).mp tag
      have plain := (Option.some.inj h).symm
      simp only [chacha20poly1305Encrypt, plain, chacha20_chacha20, mac, List.take_append_drop]

/-- Under a key, a nonce and additional data, the accepted inputs and their plaintexts are exactly
the encryptions. -/
theorem chacha20poly1305Decrypt_eq_some_iff (src ad m : Bytes) (nonce : UInt64) (key : Bytes) :
    chacha20poly1305Decrypt src ad nonce key = some m ↔
      src = chacha20poly1305Encrypt m ad nonce key := by
  constructor
  · exact encrypt_of_decrypt
  · rintro rfl
    exact decrypt_encrypt m ad nonce key

/-- The ciphertext determines the tag. -/
theorem chacha20poly1305Encrypt_of_take {m m' ad : Bytes} {nonce : UInt64} {key : Bytes}
    (h : (chacha20poly1305Encrypt m ad nonce key).take m.length =
      (chacha20poly1305Encrypt m' ad nonce key).take m'.length) :
    chacha20poly1305Encrypt m ad nonce key = chacha20poly1305Encrypt m' ad nonce key := by
  have front (m : Bytes) : (chacha20poly1305Encrypt m ad nonce key).take m.length =
      (chacha20 (generatePoly1305Key key nonce).2 m).2 := by
    rw [chacha20poly1305Encrypt, List.take_left' (length_chacha20 _ m)]
  rw [front, front] at h
  rw [chacha20poly1305Encrypt, chacha20poly1305Encrypt, h]

/-- What is sealed is not sealed any more when one byte of its tag is changed. -/
theorem chacha20poly1305Encrypt_modify_tag_ne {m ad : Bytes} {nonce : UInt64} {key : Bytes}
    {i : Nat} {f : UInt8 → UInt8} (hf : ∀ x, f x ≠ x) (low : m.length ≤ i) (high : i < m.length + 16)
    (m' : Bytes) :
    (chacha20poly1305Encrypt m ad nonce key).modify i f ≠
      chacha20poly1305Encrypt m' ad nonce key := by
  intro h
  have lengths := congrArg List.length h
  rw [List.length_modify, length_chacha20poly1305Encrypt, length_chacha20poly1305Encrypt,
    Nat.add_right_cancel_iff] at lengths
  have same : chacha20poly1305Encrypt m' ad nonce key = chacha20poly1305Encrypt m ad nonce key := by
    apply chacha20poly1305Encrypt_of_take
    rw [← h, ← lengths]
    apply List.ext_getElem?
    intro j
    rw [List.getElem?_take, List.getElem?_take]
    split
    case isTrue front =>
      exact List.getElem?_modify_ne f _ (Nat.ne_of_gt (Nat.lt_of_lt_of_le front low))
    case isFalse => rfl
  rw [same] at h
  have changed := congrArg (·[i]?) h
  have room : i < (chacha20poly1305Encrypt m ad nonce key).length := by
    rw [length_chacha20poly1305Encrypt]
    exact high
  simp only [List.getElem?_modify_eq, List.getElem?_eq_getElem room] at changed
  exact hf _ (Option.some.inj changed)

/-! ### The construction of the standard -/

/-- The fill to a multiple of 16. -/
theorem length_padding (len : Nat) (h : len < 2 ^ 32) :
    (padding len).length = (16 - len % 16) % 16 := by
  have low (x : UInt32) : (x &&& 0xFFFFFFF0).toNat = x.toNat / 16 * 16 := by
    have mask : (0xFFFFFFF0 : UInt32).toNat = (2 ^ 28 - 1) * 2 ^ 4 := rfl
    have split : x.toNat &&& (2 ^ 28 - 1) * 2 ^ 4 = x.toNat / 2 ^ 4 * 2 ^ 4 := by
      have hx := x.toNat_lt
      conv_lhs => rw [← Nat.div_add_mod (x.toNat &&& (2 ^ 28 - 1) * 2 ^ 4) (2 ^ 4)]
      rw [Nat.and_div_two_pow, Nat.and_mod_two_pow, Nat.mul_mod_left, Nat.and_zero, Nat.add_zero,
        Nat.mul_div_cancel _ (by decide), Nat.and_two_pow_sub_one_eq_mod, Nat.mul_comm,
        Nat.mod_eq_of_lt (by omega)]
    rw [UInt32.toNat_and, mask, split, show (2 : Nat) ^ 4 = 16 from rfl]
  have here : (UInt32.ofNat len).toNat = len := Nat.mod_eq_of_lt h
  rw [padding, List.length_replicate, UInt32.toNat_sub, low, UInt32.toNat_add, here,
    show (15 : UInt32).toNat = 15 from rfl]
  omega

/-- What the authenticator sees, as one message. -/
def aeadMessage (ad ciphertext : Bytes) : Bytes :=
  ad ++ List.replicate ((16 - ad.length % 16) % 16) 0 ++ ciphertext ++
    List.replicate ((16 - ciphertext.length % 16) % 16) 0 ++ leBytes 8 ad.length ++
    leBytes 8 ciphertext.length

private theorem aeadMac_eq_foldl (st : Poly1305State) (ad ciphertext : Bytes) :
    aeadMac st ad ciphertext = poly1305Finish ([ad, padding ad.length, ciphertext,
      padding ciphertext.length, u64to8Little (UInt64.ofNat ad.length),
      u64to8Little (UInt64.ofNat ciphertext.length)].foldl poly1305Update st) := by
  simp only [aeadMac, List.foldl_cons, List.foldl_nil]

private theorem padding_eq {len : Nat} (h : len < 2 ^ 32) :
    padding len = List.replicate ((16 - len % 16) % 16) 0 := by
  rw [← length_padding len h, padding, List.length_replicate]

/-- The construction of the standard on numbers: the stream's first block is the one-time key, the
plaintext is added to the stream from the second block on, and the tag is the polynomial's. -/
def aeadSpec (src ad : Bytes) (nonce : UInt64) (key : Bytes) : Bytes :=
  let stream := keystream (chacha20Init key nonce) (1 + blocksFor src.length)
  let ciphertext := List.zipWith (· ^^^ ·) src (stream.drop 64)
  ciphertext ++ polyTag (stream.take 32) (aeadMessage ad ciphertext)

/-- The code computes it, for every message and additional data of 32-bit length. -/
theorem chacha20poly1305Encrypt_eq_aeadSpec {src ad : Bytes} (hsrc : src.length < 2 ^ 32)
    (had : ad.length < 2 ^ 32) (nonce : UInt64) (key : Bytes) :
    chacha20poly1305Encrypt src ad nonce key = aeadSpec src ad nonce key := by
  have first : (chacha20 (chacha20Init key nonce) (List.replicate 32 0)) =
      ((chacha20Init key nonce).next, (chacha20Block (chacha20Init key nonce)).take 32) := by
    have one : blocksFor 32 = 1 := by decide
    have xorZero {k : Nat} {s : Bytes} (hk : k ≤ s.length) :
        List.zipWith (· ^^^ ·) (List.replicate k 0) s = s.take k := by
      induction k generalizing s with
      | zero => simp
      | succ k ih =>
        cases s with
        | nil => cases hk
        | cons x s =>
          rw [List.replicate_succ, List.zipWith_cons_cons, ih (Nat.le_of_succ_le_succ hk),
            List.take_succ_cons, UInt8.zero_xor]
    rw [chacha20_eq, List.length_replicate, one, Function.iterate_one, keystream, keystream,
      List.append_nil, xorZero (by rw [length_chacha20Block]; decide)]
  have block := length_chacha20Block (chacha20Init key nonce)
  have streamTake : (keystream (chacha20Init key nonce) (1 + blocksFor src.length)).take 32 =
      (chacha20Block (chacha20Init key nonce)).take 32 := by
    rw [Nat.add_comm, keystream, List.take_append_of_le_length (by rw [block]; decide)]
  have streamDrop : (keystream (chacha20Init key nonce) (1 + blocksFor src.length)).drop 64 =
      keystream (chacha20Init key nonce).next (blocksFor src.length) := by
    rw [Nat.add_comm, keystream, ← block, List.drop_left]
  have cipher : (chacha20 (chacha20Init key nonce).next src).2 =
      List.zipWith (· ^^^ ·) src
        (keystream (chacha20Init key nonce).next (blocksFor src.length)) := by
    rw [chacha20_eq]
  have small : (List.zipWith (· ^^^ ·) src
      (keystream (chacha20Init key nonce).next (blocksFor src.length))).length < 2 ^ 32 := by
    rw [← cipher, length_chacha20]
    exact hsrc
  have wide (k : Nat) (hk : k < 2 ^ 32) : u64to8Little (UInt64.ofNat k) = leBytes 8 k := by
    rw [u64to8Little_eq, UInt64.toNat_ofNat', Nat.mod_eq_of_lt (by omega)]
  have keyLength : ((chacha20Block (chacha20Init key nonce)).take 32).length = 32 := by
    rw [List.length_take, block]
    decide
  obtain ⟨rSmall, clamped⟩ := poly1305Init_r ((chacha20Block (chacha20Init key nonce)).take 32)
  simp only [chacha20poly1305Encrypt, generatePoly1305Key, first, aeadSpec, streamTake, streamDrop,
    cipher]
  rw [aeadMac_eq_foldl, poly1305Finish_of_fresh rSmall rfl rfl, clamped,
    padVal_poly1305Init keyLength, padding_eq had, padding_eq small, wide _ had, wide _ small]
  simp only [polyTag, aeadMessage, List.flatten_cons, List.flatten_nil, List.append_nil,
    List.append_assoc]

/-- For instance two bytes with one byte of additional data. -/
theorem encrypt_two_bytes_eq_aeadSpec :
    chacha20poly1305Encrypt [1, 2] [3] 7 (List.replicate 32 0) =
      aeadSpec [1, 2] [3] 7 (List.replicate 32 0) :=
  chacha20poly1305Encrypt_eq_aeadSpec (by decide) (by decide) 7 (List.replicate 32 0)

end Molewire
