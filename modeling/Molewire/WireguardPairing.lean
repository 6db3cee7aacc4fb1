/-
# WireGuard: paired devices

Two devices are paired when each was given the other's public key and both the same
preshared key. What follows from that is kept by every call but the one that removes
the peer, whatever arrives and whatever the clocks say: no datagram and no timer
touches the keys of the device or of its peer, and a cookie that is taken has the
size of a cookie.
-/

import Molewire.WireguardTransport

namespace Molewire

open ByteBuffer

/-- The first device was given the public key of the second, and what follows from it. -/
structure Paired (a b : WireguardDevice) : Prop where
  known : a.peer.valid = true
  own : wireguardGeneratePublicKey a.privateKey = some a.publicKey
  peerKey : a.peer.publicKey = b.publicKey
  peerDh : a.peer.publicKeyDh = (wireguardX25519 a.privateKey b.publicKey).1
  ownMac : a.labelMac1Key = wireguardMacKey a.publicKey labelMac1
  peerMac : a.peer.labelMac1Key = wireguardMacKey b.publicKey labelMac1
  psk : a.peer.presharedKey = b.peer.presharedKey
  cookie : a.peer.cookie.length = 16

variable {a a' b : WireguardDevice}

/-- What a handshake goes by is kept, so both stay paired. -/
theorem Paired.frame (hab : Paired a b) (hba : Paired b a) {cookie t : Bytes}
    (same : a'.longTerm = { a.longTerm with cookie := cookie, greatestTimestamp := t })
    (hcookie : cookie.length = 16) : Paired a' b ∧ Paired b a' := by
  simp only [WireguardDevice.longTerm, LongTerm.mk.injEq] at same
  obtain ⟨privateKey, publicKey, ownMac, valid, peerKey, peerDh, peerMac, psk, taken, -⟩ := same
  constructor
  · refine ⟨valid.trans hab.known, ?_, peerKey.trans hab.peerKey, ?_, ?_,
      peerMac.trans hab.peerMac, psk.trans hab.psk, ?_⟩
    · rw [privateKey, publicKey]
      exact hab.own
    · rw [peerDh, privateKey]
      exact hab.peerDh
    · rw [ownMac, publicKey]
      exact hab.ownMac
    · rw [taken]
      exact hcookie
  · refine ⟨hba.known, hba.own, hba.peerKey.trans publicKey.symm, ?_, hba.ownMac, ?_,
      hba.psk.trans psk.symm, hba.cookie⟩
    · rw [publicKey]
      exact hba.peerDh
    · rw [publicKey]
      exact hba.peerMac

/-- Where nothing of it changed at all. -/
theorem Paired.of_longTerm (hab : Paired a b) (hba : Paired b a)
    (same : a'.longTerm = a.longTerm) : Paired a' b ∧ Paired b a' :=
  hab.frame hba same hab.cookie

/-! ### Runs -/

/-- No call touches the private key. -/
theorem WireguardDevice.call_privateKey (d : WireguardDevice) (c : WireguardifCall) :
    (d.call c).1.privateKey = d.privateKey := by
  by_cases kept : c.keepsPeer = true
  · rcases d.call_longTerm kept with ⟨-, cookie, -, same⟩ | ⟨data, t, -, -, -, same⟩
    · exact congrArg LongTerm.privateKey same
    · exact congrArg LongTerm.privateKey same
  · cases c with
    | addPeer p =>
      rw [call, wireguardifAddPeer]
      split
      · rfl
      · dsimp only
        split_ifs <;> rfl
    | removePeer =>
      rw [call, wireguardifRemovePeer]
      split_ifs <;> rfl
    | _ => exact absurd rfl kept

theorem WireguardDevice.calls_privateKey (d : WireguardDevice) (cs : List WireguardifCall) :
    (d.calls cs).1.privateKey = d.privateKey := by
  induction cs generalizing d with
  | nil => rfl
  | cons c cs ih => exact (ih (d.call c).1).trans (d.call_privateKey c)

/-- A device that has a peer is given no other. -/
theorem wireguardifAddPeer_of_valid {d : WireguardDevice} (known : d.peer.valid = true)
    (p : WireguardifPeer) : (wireguardifAddPeer d p).1 = d := by
  rw [wireguardifAddPeer]
  split
  · rfl
  · split
    case isFalse => rfl
    case isTrue =>
      split
      case isTrue => rfl
      case isFalse => rfl

/-- A call other than the removal of the peer. -/
theorem Paired.call (hab : Paired a b) (hba : Paired b a) {c : WireguardifCall}
    (hc : c ≠ .removePeer) : Paired (a.call c).1 b ∧ Paired b (a.call c).1 := by
  by_cases kept : c.keepsPeer = true
  · rcases a.call_longTerm kept with ⟨-, cookie, length, same⟩ | ⟨data, t, -, -, -, same⟩
    · refine hab.frame hba same ?_
      rcases length with rfl | length
      · exact hab.cookie
      · exact length
    · exact hab.frame hba same hab.cookie
  · cases c with
    | addPeer p =>
      rw [WireguardDevice.call, wireguardifAddPeer_of_valid hab.known]
      exact ⟨hab, hba⟩
    | removePeer => exact absurd rfl hc
    | _ => exact absurd rfl kept

/-- Paired devices stay so, whatever each of them does, until one removes its peer. -/
theorem Paired.calls (hab : Paired a b) (hba : Paired b a) {cs : List WireguardifCall}
    (kept : ∀ c ∈ cs, c ≠ .removePeer) : Paired (a.calls cs).1 b ∧ Paired b (a.calls cs).1 := by
  induction cs generalizing a with
  | nil => exact ⟨hab, hba⟩
  | cons c cs ih =>
    obtain ⟨hab', hba'⟩ := hab.call hba (kept c List.mem_cons_self)
    exact ih hab' hba' fun c' hc' => kept c' (List.mem_cons_of_mem c hc')

end Molewire
