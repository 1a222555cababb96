import Kademlia.Proofs.Token.Mask
import Mathlib.Data.FinEnum

namespace Kademlia

/-!
# Whose token it is

There are as many tokens as there are secrets, and as there are hosts of the first family.  Since
the tokens of a host tell the secrets apart, and those of a secret the hosts of the first family,
none is left out: every token is the one of a host under exactly one secret, and under a secret the
one of exactly one such host.  A store goes by two secrets.  So a token that it has just issued to a
host of the first family is accepted from one other of them at most, the one that would have been
handed the same token under the previous secret (`separated_of_issue`).
-/

namespace Token

/-- Tokens that tell words apart leave out no token, since there are no more tokens than words. -/
theorem bijective_of_injective {token : BitVec 32 → Token} (injective : Function.Injective token) :
    Function.Bijective token := by
  have hWords : Function.Injective fun w => (token w).word := by
    intro first second same
    apply injective
    exact congrArg Token.mk same
  refine ⟨injective, fun found => ?_⟩
  rcases Finite.surjective_of_injective hWords found.word with ⟨w, same⟩
  exact ⟨w, congrArg Token.mk same⟩

theorem ofSecret_bijective (host : Ip) : Function.Bijective (ofSecret · host) :=
  bijective_of_injective (ofSecret_injective host)

theorem ofSecret_v4_bijective (secret : BitVec 32) :
    Function.Bijective fun host => ofSecret secret (.v4 host) :=
  bijective_of_injective (ofSecret_v4_injective secret)

theorem toBytes_injective : Function.Injective toBytes := by
  intro first second same
  have hRead := congrArg ofBytes? same
  rw [ofBytes?_toBytes, ofBytes?_toBytes] at hRead
  exact Option.some.inj hRead

end Token

namespace TokenStore

variable {a b : BitVec 32}

/-- A store that was just called does not change its secrets. -/
theorem refresh_refresh (store : TokenStore) (now : Instant) :
    (store.refresh now).refresh now = store.refresh now :=
  refresh_of_lt (recent_refresh store now).lt

/-- The octets of a token are accepted from the hosts that have it under one of the two secrets. -/
theorem checkin_toBytes_iff (store : TokenStore) (now : Instant) (host : Ip) (token : Token) :
    (store.checkin now host token.toBytes).1 = true ↔
      token = .ofSecret (store.refresh now).current host ∨
        token = .ofSecret (store.refresh now).previous host := by
  unfold checkin
  dsimp only
  rw [Token.ofBytes?_toBytes]
  exact decide_eq_true_iff

/-- No two hosts of the first family are handed the same octets at the same time. -/
theorem checkout_v4_eq_iff (store : TokenStore) (now : Instant) :
    (store.checkout now (.v4 a)).1.toBytes = (store.checkout now (.v4 b)).1.toBytes ↔ a = b :=
  (Token.toBytes_injective.comp (Token.ofSecret_v4_injective _)).eq_iff

/-- A token that a host of the first family has just been handed is accepted from one other of them
at most: the one that has it under the previous secret. -/
theorem exists_other_of_checkout (store : TokenStore) (now : Instant) (a : BitVec 32) :
    let issue := store.checkout now (.v4 a)
    ∃ other, Token.ofSecret issue.2.previous (.v4 other) = issue.1 ∧
      ∀ b, (issue.2.checkin now (.v4 b) issue.1.toBytes).1 = true ↔ b = a ∨ b = other := by
  intro issue
  rcases (Token.ofSecret_v4_bijective issue.2.previous).2 issue.1 with ⟨other, same⟩
  refine ⟨other, same, fun b => ?_⟩
  have hRefresh : issue.2.refresh now = issue.2 := refresh_refresh store now
  have hPresent : issue.1 = .ofSecret issue.2.current (.v4 b) ↔ b = a :=
    eq_comm.trans (Token.ofSecret_v4_injective issue.2.current).eq_iff
  have hPrevious : issue.1 = .ofSecret issue.2.previous (.v4 b) ↔ b = other := by
    rw [← same]
    exact eq_comm.trans (Token.ofSecret_v4_injective issue.2.previous).eq_iff
  rw [checkin_toBytes_iff, hRefresh, hPresent, hPrevious]

/-- The token of a host tells the secret, and under one secret the host of the first family, and
every token is such a token.  So hosts of the first family are handed tokens of their own, and what
one of them has just been handed is accepted from one other at most. -/
theorem separated_of_issue :
    (∀ host, Function.Bijective (Token.ofSecret · host)) ∧
      (∀ secret, Function.Bijective fun host => Token.ofSecret secret (.v4 host)) ∧
      ∀ (store : TokenStore) (now : Instant) (a : BitVec 32),
        let issue := store.checkout now (.v4 a)
        (∀ b, issue.1.toBytes = (store.checkout now (.v4 b)).1.toBytes ↔ a = b) ∧
          ∃ other, Token.ofSecret issue.2.previous (.v4 other) = issue.1 ∧
            ∀ b, (issue.2.checkin now (.v4 b) issue.1.toBytes).1 = true ↔ b = a ∨ b = other := by
  refine ⟨Token.ofSecret_bijective, Token.ofSecret_v4_bijective, fun store now a => ⟨?_, ?_⟩⟩
  · intro b
    exact checkout_v4_eq_iff store now
  · exact exists_other_of_checkout store now a

end TokenStore
end Kademlia
