import Kademlia.Proofs.Token

namespace Kademlia

/-!
# How the tokens of two hosts differ

A token is a checksum, and a checksum is no seal.  The tokens of two hosts under the same secret differ
by a mask that can be computed from their addresses, without the secret (`Token.mask`).  It is not
zero, so that no host is handed the token of another one.  But a host that was handed its own has
only to put on the mask: what comes out is accepted from the other host exactly as long as its own
token is from itself (`masked_of_hosts`).
-/

namespace Token

/-- What the tokens of two hosts differ by. -/
def mask (a b : Ip) : BitVec 32 :=
  (List.zipWith (· ^^^ ·) a.octets b.octets).foldl Crc32c.octet 0

/-- A token with some of its bits turned over. -/
def masked (token : Token) (mask : BitVec 32) : Token :=
  ⟨token.word ^^^ mask⟩

variable {a b : Ip}

/-- The secret does not show in the difference between the tokens of two hosts of one family. -/
theorem ofSecret_xor (family : a.octets.length = b.octets.length) (secret : BitVec 32) :
    (ofSecret secret a).word ^^^ (ofSecret secret b).word = mask a b :=
  Crc32c.append_xor_append family _

theorem masked_ofSecret (family : a.octets.length = b.octets.length) (secret : BitVec 32) :
    (ofSecret secret a).masked (mask a b) = ofSecret secret b := by
  rw [masked, ← ofSecret_xor family secret, ← BitVec.xor_assoc, BitVec.xor_self, BitVec.zero_xor]

theorem masked_injective (mask : BitVec 32) : Function.Injective (masked · mask) := by
  intro first second same
  exact congrArg Token.mk ((BitVec.xor_left_inj mask).mp (congrArg word same))

theorem length_octets_v4 (host : BitVec 32) : (Ip.v4 host).octets.length = 4 :=
  BigEndian.length_encode 4 host.toNat

/-- Under one secret, no two hosts of the first family have the same token. -/
theorem ofSecret_v4_injective (secret : BitVec 32) :
    Function.Injective fun host => ofSecret secret (.v4 host) := by
  intro a b same
  have hOctets : (Ip.v4 a).octets = (Ip.v4 b).octets :=
    Crc32c.append_inj _ (Nat.le_of_eq (length_octets_v4 a))
      ((length_octets_v4 a).trans (length_octets_v4 b).symm) (congrArg word same)
  have hIp := congrArg Ip.ofOctets? hOctets
  rw [Ip.ofOctets?_octets, Ip.ofOctets?_octets] at hIp
  exact Ip.v4.inj (Option.some.inj hIp)

theorem mask_v4_eq_zero_iff {a b : BitVec 32} : mask (.v4 a) (.v4 b) = 0 ↔ a = b := by
  have hFamily : (Ip.v4 a).octets.length = (Ip.v4 b).octets.length :=
    (length_octets_v4 a).trans (length_octets_v4 b).symm
  rw [← ofSecret_xor hFamily 0]
  constructor
  · intro none
    exact ofSecret_v4_injective 0 (congrArg Token.mk (BitVec.xor_eq_zero_iff.mp none))
  · rintro rfl
    exact BitVec.xor_self

end Token

namespace TokenStore

open Token (mask)

variable {a b : Ip}

/-- With the mask on, a token is to another host what it was to the first one. -/
theorem checkin_masked (family : a.octets.length = b.octets.length) (store : TokenStore)
    (now : Instant) (token : Token) :
    (store.checkin now b (token.masked (mask a b)).toBytes).1 =
      (store.checkin now a token.toBytes).1 := by
  have hSame : ∀ secret, token.masked (mask a b) = Token.ofSecret secret b ↔
      token = Token.ofSecret secret a := by
    intro secret
    rw [← Token.masked_ofSecret family secret]
    exact (Token.masked_injective (mask a b)).eq_iff
  unfold checkin
  dsimp only
  rw [Token.ofBytes?_toBytes, Token.ofBytes?_toBytes]
  dsimp only
  exact decide_eq_decide.mpr (or_congr (hSame _) (hSame _))

/-- The tokens of two hosts of the first family differ by their mask under every secret, and the mask
makes a valid token of the one out of a valid token of the other. -/
theorem masked_of_hosts (a b : BitVec 32) :
    (mask (.v4 a) (.v4 b) = 0 ↔ a = b) ∧
      (∀ secret, (Token.ofSecret secret (.v4 a)).word ^^^ (Token.ofSecret secret (.v4 b)).word =
        mask (.v4 a) (.v4 b)) ∧
      ∀ (store : TokenStore) (now : Instant) (token : Token),
        (store.checkin now (.v4 b) (token.masked (mask (.v4 a) (.v4 b))).toBytes).1 =
          (store.checkin now (.v4 a) token.toBytes).1 := by
  have hFamily : (Ip.v4 a).octets.length = (Ip.v4 b).octets.length :=
    (Token.length_octets_v4 a).trans (Token.length_octets_v4 b).symm
  exact ⟨Token.mask_v4_eq_zero_iff, Token.ofSecret_xor hFamily, checkin_masked hFamily⟩

/-- Two distinct hosts whose tokens differ by the same mask under all secrets.  With it, the one that
was handed the token of the second secret is taken for the other. -/
theorem same_mask_of_neighbours :
    (0x7f000001 : BitVec 32) ≠ 0x7f000002 ∧
      (∀ secret, (Token.ofSecret secret (.v4 0x7f000001)).word ^^^
        (Token.ofSecret secret (.v4 0x7f000002)).word = 0x1350f3f4) ∧
      let issue := (start 0 (.cycle [1, 2, 3])).checkout (Duration.minutes 10) (.v4 0x7f000001)
      (issue.2.checkin (Duration.minutes 10) (.v4 0x7f000002)
        (issue.1.masked 0x1350f3f4).toBytes).1 = true := by
  have hMask : mask (.v4 0x7f000001) (.v4 0x7f000002) = 0x1350f3f4 := by
    decide +kernel
  refine ⟨by decide, fun secret => ?_, by decide +kernel⟩
  rw [← hMask]
  exact Token.ofSecret_xor (a := .v4 0x7f000001) (b := .v4 0x7f000002) rfl secret

end TokenStore
end Kademlia
