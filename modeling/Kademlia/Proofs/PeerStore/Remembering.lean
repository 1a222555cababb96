import Kademlia.Proofs.PeerStore.Operations

namespace Kademlia
namespace PeerStore

/-!
# How long a peer is remembered

A node uses its store in three ways: it leaves it alone, it announces a peer to it, or it lets it
expire (`Used`).  An announcement that is not refused is remembered for a lifetime, in whatever way
the store is used in the meantime: another announcement of the peer only starts its time again, and
nobody else's touches it.  A refused announcement leaves nothing to be remembered, now or later.
-/

variable {store after : PeerStore} {now next since : Instant} {hash other : InfoHash}
  {address : Address}

/-- What a store is used for at a time. -/
inductive Used (now : Instant) (store : PeerStore) : PeerStore → Prop
  | kept : Used now store store
  | announced (hash : InfoHash) (address : Address) : Used now store (store.add now hash address).2
  | expired : Used now store (store.expire now).2

/-- The last announcement of the peer is from that time or after it. -/
def Remembers (store : PeerStore) (hash : InfoHash) (address : Address) (since : Instant) : Prop :=
  ∃ peer ∈ store.under hash, peer.address = address ∧ since ≤ peer.announcedAt

theorem Used.tidy (used : Used now store after) (tidy : store.Tidy) : after.Tidy := by
  cases used with
  | kept => exact tidy
  | announced hash address => exact (added_add tidy now hash address).tidy
  | expired => exact (swept_expire tidy now).tidy

theorem Used.limits (used : Used now store after) (tidy : store.Tidy) :
    after.limits = store.limits := by
  cases used with
  | kept => rfl
  | announced hash address => exact (added_add tidy now hash address).limits
  | expired => rfl

/-- A peer is live until a lifetime after it was announced. -/
theorem isLive_of_young {peer : AnnouncedPeer} (announced : since ≤ peer.announcedAt)
    (order : since ≤ now) (young : now < since + store.lifetime) :
    store.isLive now peer = true := by
  apply decide_eq_true
  calc
    now - peer.announcedAt ≤ now - since := Nat.sub_le_sub_left announced now
    _ < store.lifetime := Nat.sub_lt_left_of_lt_add order young

theorem Remembers.mem_find (remembers : store.Remembers hash address since) (order : since ≤ now)
    (young : now < since + store.lifetime) : address ∈ store.find now hash := by
  rcases remembers with ⟨peer, stored, rfl, announced⟩
  exact List.mem_map_of_mem (List.mem_filter.mpr ⟨stored, isLive_of_young announced order young⟩)

theorem remembers_of_live {peer : AnnouncedPeer} (lives : peer ∈ store.live now hash)
    (announced : since ≤ peer.announcedAt) : store.Remembers hash peer.address since :=
  ⟨peer, (List.mem_filter.mp lives).1, rfl, announced⟩

/-- An announcement that is not refused is remembered. -/
theorem remembers_add (tidy : store.Tidy) (lasting : 0 < store.lifetime)
    (accepted : (store.add now hash address).1 ≠ .full) :
    (store.add now hash address).2.Remembers hash address now := by
  have hLive := ((added_add tidy now hash address).mem_live accepted tidy).mpr
    (.inl ⟨rfl, isLive_new store lasting⟩)
  exact remembers_of_live hLive (Nat.le_refl now)

/-- Another announcement leaves a live peer alone, and one of its own only starts its time again. -/
theorem remembers_of_add {peer : AnnouncedPeer} (tidy : store.Tidy)
    (lives : peer ∈ store.live now other) (announced : since ≤ peer.announcedAt)
    (order : since ≤ now) :
    (store.add now hash address).2.Remembers other peer.address since := by
  have hAdded := added_add tidy now hash address
  by_cases refused : (store.add now hash address).1 = .full
  · rw [← (swept_add_of_full tidy refused).live] at lives
    exact remembers_of_live lives announced
  by_cases here : other = hash
  · subst here
    by_cases same : peer.address = address
    · have hLasting := lifetime_pos (List.mem_filter.mp lives).2
      rcases remembers_add tidy hLasting refused with ⟨renewed, stored, again, fresh⟩
      exact ⟨renewed, stored, again.trans same.symm, Nat.le_trans order fresh⟩
    · have hLive := (hAdded.mem_live refused tidy).mpr (.inr ⟨lives, same⟩)
      exact remembers_of_live hLive announced
  · rw [← hAdded.live_other here] at lives
    exact remembers_of_live lives announced

/-- A peer is not forgotten before its time, whatever the store is used for. -/
theorem Remembers.used (remembers : store.Remembers hash address since) (used : Used now store after)
    (tidy : store.Tidy) (order : since ≤ now) (young : now < since + store.lifetime) :
    after.Remembers hash address since := by
  rcases remembers with ⟨peer, stored, rfl, announced⟩
  have hLive : peer ∈ store.live now hash :=
    List.mem_filter.mpr ⟨stored, isLive_of_young announced order young⟩
  cases used with
  | kept => exact remembers_of_live hLive announced
  | announced => exact remembers_of_add tidy hLive announced order
  | expired =>
    rw [← (swept_expire tidy now).live] at hLive
    exact remembers_of_live hLive announced

end PeerStore
end Kademlia
