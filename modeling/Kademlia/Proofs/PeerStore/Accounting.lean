import Kademlia.Proofs.PeerStore.History

namespace Kademlia
namespace PeerStore

/-!
# What a store counts

A store counts its peers as they come and go, and never looks at its lists to find out how many they
are.  The count is right all the same, whatever the limits and the lifetime are, and even if the
times go back.  That no subtraction goes below zero is said by sums: what is left and what was
removed make up what was there.

A key that all peers of have died may be left empty in the middle of an announcement.  If it has room
for a peer at all, it gets one then, or is removed when the store is swept.
-/

variable {store : PeerStore} {now : Instant} {hash : InfoHash} {address : Address}
  {list : List AnnouncedPeer} {entry : InfoHash × List AnnouncedPeer}

/-- The sum of the lengths of all lists. -/
def held (store : PeerStore) : Nat :=
  store.peers.foldr (fun entry total => entry.2.length + total) 0

/-- The books of a store are in order. -/
structure Audited (maxPerHash maxTotal : Nat) (store : PeerStore) : Prop where
  count : store.count = store.held
  bounded : store.count ≤ maxTotal
  keys : (store.peers.map (·.1)).Nodup
  distinct : ∀ entry ∈ store.peers, (entry.2.map (·.address)).Nodup
  /-- To expire tells how many peers it removes, and there were that many. -/
  expires : ∀ now, (store.expire now).2.count + (store.expire now).1 = store.count
  /-- What an announcement removes of the key was there. -/
  sweeps : ∀ now hash,
    (store.sweepKey now hash).count +
      ((store.under hash).length - (store.live now hash).length) = store.count
  /-- What it may have to expire after that was still there. -/
  expiresSwept : ∀ now later hash,
    ((store.sweepKey now hash).expire later).2.count + ((store.sweepKey now hash).expire later).1 =
      (store.sweepKey now hash).count
  /-- No key is kept for nothing, if it has room for a peer. -/
  occupied : 1 ≤ maxPerHash → ∀ entry ∈ store.peers, entry.2 ≠ []
  size : 1 ≤ maxPerHash → store.size = {hash | store.under hash ≠ []}.ncard

/-! ## Sums -/

theorem held_eq_length_stored (store : PeerStore) : store.held = store.stored.length := by
  unfold held stored
  induction store.peers with
  | nil => rfl
  | cons entry rest ih =>
    rw [List.foldr_cons, List.flatMap_cons, List.length_append, List.length_map, ih]

theorem Tidy.length_under_le (tidy : store.Tidy) (hash : InfoHash) :
    (store.under hash).length ≤ store.count := by
  have hPut := @length_stored_put store hash [] tidy.keys
  rw [List.length_nil] at hPut
  rw [tidy.count]
  omega

theorem Tidy.count_expire (tidy : store.Tidy) (now : Instant) :
    (store.expire now).2.count + (store.expire now).1 = store.count := by
  have hRemoved : (store.expire now).1 ≤ (store.peers.flatMap (·.2)).length := List.countP_le_length
  rw [← map_stored, List.length_map, ← tidy.count] at hRemoved
  exact Nat.sub_add_cancel hRemoved

theorem Tidy.count_sweepKey (tidy : store.Tidy) (now : Instant) (hash : InfoHash) :
    (store.sweepKey now hash).count +
      ((store.under hash).length - (store.live now hash).length) = store.count := by
  have hUnder := tidy.length_under_le hash
  unfold live sweepKey
  cases found : store.get? hash with
  | none =>
    rw [under_of_get? found]
    rfl
  | some list =>
    rw [under_of_get? found] at hUnder ⊢
    exact Nat.sub_add_cancel (Nat.le_trans (Nat.sub_le _ _) hUnder)

/-! ## The limit -/

theorem count_addWithinTotal_le (bounded : store.count ≤ store.maxTotal) :
    (store.addWithinTotal now hash address).2.count ≤ store.maxTotal := by
  unfold addWithinTotal
  dsimp only
  generalize hSwept : (if store.maxTotal ≤ store.count then (store.expire now).2 else store) = swept
  have hCount : swept.count ≤ store.count := by
    rw [← hSwept]
    split
    · exact Nat.sub_le _ _
    · exact Nat.le_refl _
  have hMaxTotal : swept.maxTotal = store.maxTotal := by
    rw [← hSwept]
    split <;> rfl
  rw [← hMaxTotal]
  split
  next => exact Nat.le_trans hCount (hMaxTotal ▸ bounded)
  next room => exact Nat.lt_of_not_le room

theorem count_put : (store.put hash list).count = store.count := by
  unfold put
  split <;> rfl

theorem count_add_le (tidy : store.Tidy) (bounded : store.count ≤ store.maxTotal) :
    (store.add now hash address).2.count ≤ store.maxTotal := by
  have hSwept := tidy.count_sweepKey now hash
  have hMaxTotal := maxTotal_of_limits (swept_sweepKey tidy now hash).limits
  have hBounded : (store.sweepKey now hash).count ≤ (store.sweepKey now hash).maxTotal := by omega
  rw [← hMaxTotal]
  unfold add
  dsimp only
  generalize store.sweepKey now hash = swept at hBounded
  cases swept.get? hash with
  | none => exact count_addWithinTotal_le hBounded
  | some list =>
    dsimp only
    split
    · exact Nat.le_trans (Nat.le_of_eq count_put) hBounded
    · split
      · exact hBounded
      · exact count_addWithinTotal_le hBounded

/-! ## No empty lists -/

/-- No key is kept for nothing, but for one at most. -/
def OccupiedBut (store : PeerStore) (hash : InfoHash) : Prop :=
  ∀ entry ∈ store.peers, entry.1 ≠ hash → entry.2 ≠ []

/-- No key is kept for nothing. -/
def Occupied (store : PeerStore) : Prop :=
  ∀ entry ∈ store.peers, entry.2 ≠ []

theorem Occupied.but (occupied : store.Occupied) (hash : InfoHash) : store.OccupiedBut hash :=
  fun entry member _ => occupied entry member

theorem mem_peers_put (member : entry ∈ (store.put hash list).peers) :
    entry = (hash, list) ∨ entry ∈ store.peers ∧ entry.1 ≠ hash := by
  unfold put at member
  split at member
  next =>
    rcases List.mem_map.mp member with ⟨old, among, changed⟩
    split at changed
    next => exact .inl changed.symm
    next other => exact .inr (changed ▸ ⟨among, other⟩)
  next unknown =>
    rcases List.mem_append.mp member with old | new
    · refine .inr ⟨old, fun same => unknown ?_⟩
      exact List.any_eq_true.mpr ⟨entry, old, decide_eq_true same⟩
    · exact .inl (List.mem_singleton.mp new)

/-- What is put under a key does not matter to the others. -/
theorem OccupiedBut.put (occupied : store.OccupiedBut hash) (list : List AnnouncedPeer) :
    (store.put hash list).OccupiedBut hash := by
  intro entry member other
  rcases mem_peers_put member with rfl | ⟨old, _⟩
  · exact absurd rfl other
  · exact occupied entry old other

theorem OccupiedBut.occupied_put (occupied : store.OccupiedBut hash) (nonempty : list ≠ []) :
    (store.put hash list).Occupied := by
  intro entry member
  rcases mem_peers_put member with rfl | ⟨old, other⟩
  · exact nonempty
  · exact occupied entry old other

theorem OccupiedBut.sweepKey (occupied : store.OccupiedBut hash) (now : Instant) :
    (store.sweepKey now hash).OccupiedBut hash := by
  unfold PeerStore.sweepKey
  split
  · exact occupied
  · exact occupied.put _

theorem occupied_expire (store : PeerStore) (now : Instant) : (store.expire now).2.Occupied := by
  intro entry member
  rcases entry with ⟨key, list⟩
  have hKept := (List.mem_filter.mp member).2
  rintro rfl
  cases hKept

theorem OccupiedBut.addWithinTotal (occupied : store.OccupiedBut hash) :
    (store.addWithinTotal now hash address).2.Occupied := by
  have hPush : ∀ {store : PeerStore}, store.OccupiedBut hash →
      (store.push now hash address).Occupied := fun occupied =>
    occupied.occupied_put (List.concat_ne_nil _ _)
  unfold PeerStore.addWithinTotal
  dsimp only
  by_cases full : store.maxTotal ≤ store.count
  · rw [if_pos full]
    have hExpired := occupied_expire store now
    split
    · exact hExpired
    · exact hPush (hExpired.but hash)
  · rw [if_neg full, if_neg full]
    exact hPush occupied

theorem Occupied.add (occupied : store.Occupied) (tidy : store.Tidy)
    (positive : 1 ≤ store.maxPerHash) : (store.add now hash address).2.Occupied := by
  have hSwept := (occupied.but hash).sweepKey now
  have hTidy := (swept_sweepKey tidy now hash).tidy
  have hPositive := positive_of_limits (swept_sweepKey tidy now hash).limits positive
  unfold PeerStore.add
  dsimp only
  generalize store.sweepKey now hash = swept at hSwept hTidy hPositive
  cases found : swept.get? hash with
  | none => exact hSwept.addWithinTotal
  | some list =>
    dsimp only
    split
    next known =>
      have hSame := congrArg List.length (addresses_renew list now address)
      refine hSwept.occupied_put fun empty => ?_
      rw [empty, List.map_nil, List.length_map] at hSame
      rw [List.length_eq_zero_iff.mp hSame.symm] at known
      cases known
    next =>
      split
      next many =>
        -- the list that is full is the one that may have been emptied
        intro entry member
        by_cases same : entry.1 = hash
        · have hEntry := under_of_mem hTidy.keys member
          rw [same, under_of_get? found, Option.getD_some] at hEntry
          rintro empty
          rw [hEntry, empty, List.length_nil] at many
          omega
        · exact hSwept entry member same
      next => exact hSwept.addWithinTotal

/-! ## The books -/

/-- What requests preserve. -/
structure Booked (store : PeerStore) : Prop where
  tidy : store.Tidy
  bounded : store.count ≤ store.maxTotal
  occupied : 1 ≤ store.maxPerHash → store.Occupied

theorem Booked.new (maxPerHash maxTotal : Nat) (lifetime : Duration) :
    (new maxPerHash maxTotal lifetime).Booked where
  tidy := (Recorded.start maxPerHash maxTotal lifetime 0).tidy
  bounded := Nat.zero_le _
  occupied := fun _ _ member => absurd member List.not_mem_nil

theorem Booked.serve (booked : store.Booked) (now : Instant) (request : Request) :
    (store.serve now request).2.Booked := by
  cases request with
  | announce hash address =>
    have hAdded := added_add booked.tidy now hash address
    have hLimits : (store.add now hash address).2.limits = store.limits := hAdded.limits
    refine ⟨hAdded.tidy, ?_, fun positive => booked.occupied ?_ |>.add booked.tidy ?_⟩
    · exact (maxTotal_of_limits hLimits).symm ▸ count_add_le booked.tidy booked.bounded
    · exact positive_of_limits hLimits.symm positive
    · exact positive_of_limits hLimits.symm positive
  | list hash => exact booked
  | expire =>
    refine ⟨(swept_expire booked.tidy now).tidy, ?_, fun _ => occupied_expire store now⟩
    exact Nat.le_trans (Nat.sub_le _ _) booked.bounded

theorem Booked.run (booked : store.Booked) (requests : List (Instant × Request)) :
    (store.run requests).2.Booked ∧ (store.run requests).2.limits = store.limits := by
  induction requests generalizing store with
  | nil => exact ⟨booked, rfl⟩
  | cons first rest ih =>
    rcases ih (booked.serve first.1 first.2) with ⟨hBooked, hLimits⟩
    exact ⟨hBooked, hLimits.trans (limits_serve booked.tidy first.1 first.2)⟩

theorem Booked.size (booked : store.Booked) (positive : 1 ≤ store.maxPerHash) :
    store.size = {hash | store.under hash ≠ []}.ncard := by
  have hKeys := booked.tidy.keys
  rw [ncard_setOf hKeys, List.length_map]
  · rfl
  intro hash
  constructor
  · intro known
    rcases List.mem_map.mp known with ⟨⟨key, list⟩, member, rfl⟩
    rw [under_of_mem hKeys member]
    exact booked.occupied positive _ member
  · intro nonempty
    by_contra unknown
    exact nonempty (under_of_not_mem unknown)

theorem Booked.audited (booked : store.Booked) :
    Audited store.maxPerHash store.maxTotal store where
  count := booked.tidy.count.trans store.held_eq_length_stored.symm
  bounded := booked.bounded
  keys := booked.tidy.keys
  distinct := by
    intro entry member
    have hDistinct := booked.tidy.addresses entry.1
    rw [under_of_mem booked.tidy.keys member] at hDistinct
    exact hDistinct
  expires := booked.tidy.count_expire
  sweeps := booked.tidy.count_sweepKey
  expiresSwept := fun now later hash =>
    (swept_sweepKey booked.tidy now hash).tidy.count_expire later
  occupied := booked.occupied
  size := booked.size

/-- Whatever a store was asked, and at whatever times, its books are in order. -/
theorem audited_run (maxPerHash maxTotal : Nat) (lifetime : Duration)
    (requests : List (Instant × Request)) :
    Audited maxPerHash maxTotal ((new maxPerHash maxTotal lifetime).run requests).2 := by
  rcases (Booked.new maxPerHash maxTotal lifetime).run requests with ⟨hBooked, hLimits⟩
  have hAudited := hBooked.audited
  rw [maxPerHash_of_limits hLimits, maxTotal_of_limits hLimits] at hAudited
  exact hAudited

/-- A key that has no room for a peer is not held to that while it is new, and is kept when its
first peer has died. -/
example : ((new 0 1 10).run [(0, .announce .zero ⟨.v4 1, 1⟩),
    (10, .announce .zero ⟨.v4 1, 1⟩)]).2.peers = [(.zero, [])] := by decide +kernel

end PeerStore
end Kademlia
