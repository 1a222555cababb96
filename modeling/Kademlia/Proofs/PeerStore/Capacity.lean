import Kademlia.Proofs.PeerStore.Accounting

namespace Kademlia
namespace PeerStore

/-!
# How many peers a key holds

A peer is compared with the limit of its key only where the key has an entry.  A key without one is
new, and its first peer is taken whatever the limit is.  That matters only if the limit is zero: the
key then holds one peer, until that dies, and refuses all others as long as the entry is kept.  With
any other limit no key ever holds more than it may, dead peers included.
-/

variable {store : PeerStore} {now : Instant} {hash other : InfoHash} {address : Address}

/-- Every key is within its limit or has a single peer, and there is one way only to get over the
limit. -/
structure Limited (maxPerHash maxTotal : Nat) (store : PeerStore) : Prop where
  within : ∀ hash, (store.under hash).length ≤ max maxPerHash 1
  /-- The limit is zero, the key has no entry, and there is room in the whole store. -/
  exceeded : ∀ now request hash, (store.under hash).length ≤ maxPerHash →
    (maxPerHash < ((store.serve now request).2.under hash).length ↔
      maxPerHash = 0 ∧ (∃ address, request = .announce hash address) ∧ store.get? hash = none ∧
        (store.livePairs now).length < maxTotal)

/-! ## What one request adds -/

theorem length_live_le (store : PeerStore) (now : Instant) (hash : InfoHash) :
    (store.live now hash).length ≤ (store.under hash).length :=
  List.length_filter_le _ _

theorem length_under_sweepKey_le (store : PeerStore) (now : Instant) (hash other : InfoHash) :
    ((store.sweepKey now hash).under other).length ≤ (store.under other).length := by
  rw [under_sweepKey]
  split
  next same =>
    rw [same]
    exact length_live_le store now hash
  next => exact Nat.le_refl _

theorem length_under_expire_le (tidy : store.Tidy) (now : Instant) (hash : InfoHash) :
    ((store.expire now).2.under hash).length ≤ (store.under hash).length := by
  rw [under_expire tidy.keys]
  exact length_live_le store now hash

theorem sweepKey_of_get?_none (new : store.get? hash = none) (now : Instant) :
    store.sweepKey now hash = store := by
  unfold sweepKey
  rw [new]

/-- A key keeps its entry when it is swept, if nothing is left under it even. -/
theorem get?_sweepKey_eq_none (swept : (store.sweepKey now hash).get? hash = none) :
    store.get? hash = none := by
  cases found : store.get? hash with
  | none => rfl
  | some list =>
    have hPut : (store.sweepKey now hash).get? hash = some (list.filter (store.isLive now)) := by
      unfold sweepKey
      rw [found]
      exact get?_put.trans (if_pos rfl)
    rw [hPut] at swept
    cases swept

/-- A peer is put behind those of its key if there is room in the whole store. -/
theorem length_under_addWithinTotal (tidy : store.Tidy) :
    ((store.addWithinTotal now hash address).2.under other).length ≤ (store.under other).length ∨
      other = hash ∧ (store.livePairs now).length < store.maxTotal ∧
        ((store.addWithinTotal now hash address).2.under other).length ≤
          (store.under hash).length + 1 := by
  unfold addWithinTotal
  dsimp only
  generalize hSwept : (if store.maxTotal ≤ store.count then (store.expire now).2 else store) = swept
  have hFull := full_iff tidy hSwept
  have hFewer : ∀ key, (swept.under key).length ≤ (store.under key).length := by
    intro key
    rw [← hSwept]
    split
    · exact length_under_expire_le tidy now key
    · exact Nat.le_refl _
  split
  next => exact .inl (hFewer other)
  next free =>
    have hPush : (swept.push now hash address).under other =
        if other = hash then swept.under hash ++ [⟨address, now⟩] else swept.under other := under_put
    rw [hPush]
    by_cases same : other = hash
    · refine .inr ⟨same, Nat.lt_of_not_le (mt hFull.mpr free), ?_⟩
      rw [if_pos same, List.length_append, List.length_singleton]
      exact Nat.succ_le_succ (hFewer hash)
    · rw [if_neg same]
      exact .inl (hFewer other)

/-- A key that an announcement adds a peer to is new, or the peer is within its limit. -/
theorem length_under_add (tidy : store.Tidy) :
    ((store.add now hash address).2.under other).length ≤ (store.under other).length ∨
      ((store.add now hash address).2.under other).length ≤ store.maxPerHash ∨
      other = hash ∧ store.get? hash = none ∧ (store.livePairs now).length < store.maxTotal ∧
        ((store.add now hash address).2.under other).length ≤ 1 := by
  have hSweep := swept_sweepKey tidy now hash
  have hMaxPerHash := maxPerHash_of_limits hSweep.limits
  have hMaxTotal := maxTotal_of_limits hSweep.limits
  have hPairs := hSweep.tidy.length_livePairs tidy hSweep.live
  have hFewer := length_under_sweepKey_le store now hash
  have hNew := @get?_sweepKey_eq_none store now hash
  unfold add
  dsimp only
  generalize store.sweepKey now hash = swept at hSweep hMaxPerHash hMaxTotal hPairs hFewer hNew ⊢
  have hAdd := @length_under_addWithinTotal swept now hash other address hSweep.tidy
  cases found : swept.get? hash with
  | none =>
    have hEmpty : swept.under hash = [] := under_of_get? found
    rw [hEmpty, hPairs, hMaxTotal] at hAdd
    rcases hAdd with fewer | ⟨same, room, one⟩
    · exact .inl (Nat.le_trans fewer (hFewer other))
    · exact .inr (.inr ⟨same, hNew found, room, one⟩)
  | some list =>
    have hList : swept.under hash = list := under_of_get? found
    dsimp only
    split
    next =>
      have hLength : (renew list now address).length = list.length := by
        rw [renew_eq_modifyFirst, length_modifyFirst]
      rw [under_put]
      split
      next same =>
        rw [hLength, ← hList, same]
        exact .inl (hFewer hash)
      next => exact .inl (hFewer other)
    next =>
      split
      next => exact .inl (hFewer other)
      next few =>
        rw [hList] at hAdd
        rcases hAdd with fewer | ⟨_, _, more⟩
        · exact .inl (Nat.le_trans fewer (hFewer other))
        · exact .inr (.inl (by omega))

/-- The first peer of a new key is taken if there is room in the whole store. -/
theorem length_under_add_of_new (tidy : store.Tidy) (new : store.get? hash = none)
    (room : (store.livePairs now).length < store.maxTotal) :
    0 < ((store.add now hash address).2.under hash).length := by
  unfold add
  rw [sweepKey_of_get?_none new]
  dsimp only
  rw [new]
  dsimp only
  unfold addWithinTotal
  dsimp only
  generalize hSwept : (if store.maxTotal ≤ store.count then (store.expire now).2 else store) = swept
  rw [if_neg (mt (full_iff tidy hSwept).mp (Nat.not_le_of_lt room))]
  have hPush : (swept.push now hash address).under hash =
      swept.under hash ++ [⟨address, now⟩] := under_put.trans (if_pos rfl)
  rw [hPush, List.length_append]
  exact Nat.succ_pos _

/-! ## Every store -/

/-- Every key is within its limit or has a single peer. -/
def Capped (store : PeerStore) : Prop :=
  ∀ hash, (store.under hash).length ≤ max store.maxPerHash 1

theorem capped_new (maxPerHash maxTotal : Nat) (lifetime : Duration) :
    (new maxPerHash maxTotal lifetime).Capped :=
  fun _ => Nat.zero_le _

theorem Capped.serve (capped : store.Capped) (tidy : store.Tidy) (now : Instant)
    (request : Request) : (store.serve now request).2.Capped := by
  intro other
  have hBefore := capped other
  rw [maxPerHash_of_limits (limits_serve tidy now request)]
  cases request with
  | announce hash address =>
    change ((store.add now hash address).2.under other).length ≤ max store.maxPerHash 1
    rcases @length_under_add store now hash other address tidy with
      fewer | within | ⟨_, _, _, one⟩ <;> omega
  | list hash => exact hBefore
  | expire => exact Nat.le_trans (length_under_expire_le tidy now other) hBefore

theorem Capped.run (capped : store.Capped) (booked : store.Booked)
    (requests : List (Instant × Request)) : (store.run requests).2.Capped := by
  induction requests generalizing store with
  | nil => exact capped
  | cons first rest ih =>
    exact ih (capped.serve booked.tidy first.1 first.2) (booked.serve first.1 first.2)

/-- A key within its limit is over it after a request if that is the announcement of a first peer that
the key has no room for. -/
theorem exceeded_serve_iff (tidy : store.Tidy) (request : Request)
    (within : (store.under hash).length ≤ store.maxPerHash) :
    store.maxPerHash < ((store.serve now request).2.under hash).length ↔
      store.maxPerHash = 0 ∧ (∃ address, request = .announce hash address) ∧
        store.get? hash = none ∧ (store.livePairs now).length < store.maxTotal := by
  constructor
  · intro exceeded
    cases request with
    | announce key address =>
      change store.maxPerHash < ((store.add now key address).2.under hash).length at exceeded
      rcases @length_under_add store now key hash address tidy with
        fewer | below | ⟨rfl, new, room, one⟩
      · omega
      · omega
      · exact ⟨by omega, ⟨address, rfl⟩, new, room⟩
    | list => exact absurd within (Nat.not_le_of_lt exceeded)
    | expire =>
      have hFewer := length_under_expire_le tidy now hash
      exact absurd (Nat.le_trans hFewer within) (Nat.not_le_of_lt exceeded)
  · rintro ⟨zero, ⟨address, rfl⟩, new, room⟩
    rw [zero]
    exact length_under_add_of_new tidy new room

/-- Whatever a store was asked, and at whatever times, no key holds more peers than its limit, but for
the one peer of a key that was new and has no room for any. -/
theorem limited_run (maxPerHash maxTotal : Nat) (lifetime : Duration)
    (requests : List (Instant × Request)) :
    Limited maxPerHash maxTotal ((new maxPerHash maxTotal lifetime).run requests).2 := by
  have hNew := Booked.new maxPerHash maxTotal lifetime
  rcases hNew.run requests with ⟨booked, limits⟩
  have hCapped := (capped_new maxPerHash maxTotal lifetime).run hNew requests
  have hMaxPerHash : _ = maxPerHash := maxPerHash_of_limits limits
  have hMaxTotal : _ = maxTotal := maxTotal_of_limits limits
  refine ⟨fun hash => ?_, fun now request hash within => ?_⟩
  · have hHash := hCapped hash
    rw [hMaxPerHash] at hHash
    exact hHash
  · have hExceeded := @exceeded_serve_iff _ now hash booked.tidy request (hMaxPerHash.symm ▸ within)
    rw [hMaxPerHash, hMaxTotal] at hExceeded
    exact hExceeded

/-- A key that has room for nobody holds the peer that was announced first. -/
theorem exceeded_by_first_peer :
    ((new 0 1 10).run [(0, .announce .zero ⟨.v4 1, 1⟩)]).1.map (·.reply) =
        [.announced .inserted] ∧
      ((new 0 1 10).run [(0, .announce .zero ⟨.v4 1, 1⟩)]).2.find 0 .zero = [⟨.v4 1, 1⟩] ∧
      ¬ (((new 0 1 10).run [(0, .announce .zero ⟨.v4 1, 1⟩)]).2.under .zero).length ≤ 0 := by
  refine ⟨?_, ?_, ?_⟩ <;> decide +kernel

end PeerStore
end Kademlia
