import Kademlia.Proofs.PeerStore.Stored

namespace Kademlia
namespace PeerStore

/-!
# What the operations do to the live peers

Sweeping and expiring leave the live peers of all keys as they are, so that it makes no difference
when a store is swept.  An announcement changes at most its own peer, and what becomes of it is
decided by the live peers alone (`Added`), although the store compares its limits with numbers that
count dead peers too: where dead peers could make a difference, they are swept out before.
-/

variable {store swept : PeerStore} {now next : Instant} {hash other : InfoHash} {address : Address}
  {list : List AnnouncedPeer} {peer : AnnouncedPeer}

/-- The limits that a store was set up with. -/
def limits (store : PeerStore) : Nat × Nat × Duration :=
  (store.maxPerHash, store.maxTotal, store.lifetime)

theorem maxPerHash_of_limits {store other : PeerStore} (same : other.limits = store.limits) :
    other.maxPerHash = store.maxPerHash :=
  congrArg (fun limits => limits.1) same

theorem maxTotal_of_limits {store other : PeerStore} (same : other.limits = store.limits) :
    other.maxTotal = store.maxTotal :=
  congrArg (fun limits => limits.2.1) same

theorem isLive_eq_of_limits {store other : PeerStore} (same : store.limits = other.limits) :
    store.isLive = other.isLive := by
  have hLifetime : store.lifetime = other.lifetime := congrArg (fun limits => limits.2.2) same
  unfold isLive
  rw [hLifetime]

theorem live_eq_of_limits {store other : PeerStore} (same : other.limits = store.limits) :
    other.live now hash = (other.under hash).filter (store.isLive now) := by
  unfold live
  rw [isLive_eq_of_limits same]

theorem limits_put : (store.put hash list).limits = store.limits := by
  unfold put
  split <;> rfl

/-! ## Sweeping -/

/-- What a sweep leaves: a store in order with the same limits and the same live peers. -/
structure Swept (store : PeerStore) (now : Instant) (swept : PeerStore) : Prop where
  tidy : swept.Tidy
  limits : swept.limits = store.limits
  live : ∀ hash, swept.live now hash = store.live now hash

theorem Swept.refl (tidy : store.Tidy) : Swept store now store :=
  ⟨tidy, rfl, fun _ => rfl⟩

theorem Swept.trans {middle : PeerStore} (first : Swept store now middle)
    (second : Swept middle now swept) : Swept store now swept :=
  ⟨second.tidy, second.limits.trans first.limits, fun hash =>
    (second.live hash).trans (first.live hash)⟩

theorem Swept.symm (sweep : Swept store now swept) (tidy : store.Tidy) : Swept swept now store :=
  ⟨tidy, sweep.limits.symm, fun hash => (sweep.live hash).symm⟩

theorem Swept.later (sweep : Swept store now swept) (order : now ≤ next) :
    Swept store next swept where
  tidy := sweep.tidy
  limits := sweep.limits
  live := by
    intro hash
    rw [live_later swept order, live_later store order, sweep.live,
      isLive_eq_of_limits sweep.limits]

theorem Swept.filter_under (sweep : Swept store now swept) (hash : InfoHash) :
    (swept.under hash).filter (store.isLive now) = store.live now hash := by
  rw [← live_eq_of_limits sweep.limits]
  exact sweep.live hash

theorem live_live (store : PeerStore) (now : Instant) (hash : InfoHash) :
    (store.live now hash).filter (store.isLive now) = store.live now hash := by
  unfold live
  rw [List.filter_filter]
  apply List.filter_congr
  intro peer _
  exact Bool.and_self _

theorem swept_expire (tidy : store.Tidy) (now : Instant) :
    Swept store now (store.expire now).2 where
  tidy := by
    refine ⟨?_, ?_, ?_⟩
    · have hKeys : ((store.peers.map fun entry =>
          (entry.1, entry.2.filter (store.isLive now))).map (·.1)).Nodup := by
        rw [List.map_map]
        exact tidy.keys
      exact hKeys.sublist (List.filter_sublist.map _)
    · intro hash
      rw [under_expire tidy.keys]
      exact (tidy.addresses hash).sublist (List.filter_sublist.map _)
    · have hDead : (store.expire now).1 =
          store.stored.countP fun entry => !store.isLive now entry.2 := by
        unfold expire
        dsimp only
        rw [← map_stored, List.countP_map]
        rfl
      have hSplit := List.length_eq_countP_add_countP
        (fun entry : InfoHash × AnnouncedPeer => store.isLive now entry.2) (l := store.stored)
      have hCount : (store.expire now).2.count = store.count - (store.expire now).1 := rfl
      rw [hCount, hDead, tidy.count, stored_expire, ← List.countP_eq_length_filter]
      simp only [Bool.not_eq_true, Bool.decide_eq_false] at hSplit
      omega
  limits := rfl
  live := by
    intro hash
    unfold live
    rw [under_expire tidy.keys]
    exact live_live store now hash

theorem under_sweepKey (store : PeerStore) (now : Instant) (hash other : InfoHash) :
    (store.sweepKey now hash).under other =
      if other = hash then store.live now hash else store.under other := by
  unfold sweepKey
  cases found : store.get? hash with
  | none =>
    have hUnder : store.under hash = [] := under_of_get? found
    dsimp only
    split
    next same =>
      unfold live
      rw [same, hUnder]
      rfl
    next => rfl
  | some list =>
    have hUnder : store.under hash = list := under_of_get? found
    have hLive : store.live now hash = list.filter (store.isLive now) := by
      unfold live
      rw [hUnder]
    rw [hLive]
    exact under_put

theorem swept_sweepKey (tidy : store.Tidy) (now : Instant) (hash : InfoHash) :
    Swept store now (store.sweepKey now hash) := by
  have hUnder := under_sweepKey store now hash
  have hLimits : (store.sweepKey now hash).limits = store.limits := by
    unfold sweepKey
    split
    · rfl
    · exact limits_put
  refine ⟨⟨?_, ?_, ?_⟩, hLimits, ?_⟩
  · unfold sweepKey
    split
    · exact tidy.keys
    · exact keys_put tidy.keys
  · intro other
    rw [hUnder]
    split
    · exact (tidy.addresses hash).sublist (List.filter_sublist.map _)
    · exact tidy.addresses other
  · unfold sweepKey
    cases found : store.get? hash with
    | none => exact tidy.count
    | some list =>
      have hList : store.under hash = list := under_of_get? found
      have hPut := @length_stored_put store hash (list.filter (store.isLive now)) tidy.keys
      have hFewer := List.length_filter_le (store.isLive now) list
      change store.count - (list.length - (list.filter (store.isLive now)).length) =
        (store.put hash (list.filter (store.isLive now))).stored.length
      rw [hList] at hPut
      rw [tidy.count]
      omega
  · intro other
    rw [live_eq_of_limits hLimits, hUnder]
    split
    next same =>
      rw [same]
      exact live_live store now hash
    next => rfl

/-! ## Announcing -/

theorem renew_eq_modifyFirst (list : List AnnouncedPeer) (now : Instant) (address : Address) :
    renew list now address =
      modifyFirst (·.address = address) ({ · with announcedAt := now }) list := by
  induction list with
  | nil => rfl
  | cons peer rest ih =>
    unfold renew modifyFirst
    rw [ih]
    by_cases same : peer.address = address
    · rw [if_pos same, if_pos (decide_eq_true same)]
    · rw [if_neg same, if_neg (by simp [same])]

theorem addresses_renew (list : List AnnouncedPeer) (now : Instant) (address : Address) :
    (renew list now address).map (·.address) = list.map (·.address) := by
  rw [renew_eq_modifyFirst]
  exact map_modifyFirst fun _ _ => rfl

/-- A peer that is announced is live, unless no peer ever is. -/
theorem isLive_new (store : PeerStore) (positive : 0 < store.lifetime) :
    store.isLive now ⟨address, now⟩ = true := by
  apply decide_eq_true
  rw [Nat.sub_self]
  exact positive

theorem lifetime_pos (lives : store.isLive now peer = true) : 0 < store.lifetime :=
  Nat.lt_of_le_of_lt (Nat.zero_le _) (of_decide_eq_true lives)

/-- There is no room for another peer of the key: it has too many live ones, or all keys have. -/
def Exhausted (store : PeerStore) (now : Instant) (hash : InfoHash) : Prop :=
  store.maxPerHash ≤ (store.find now hash).length ∨
    store.maxTotal ≤ (store.livePairs now).length

/-- What becomes of an announcement, and what it does to the live peers.  A key without an entry is not
held to its limit, so that there is room for a first peer even if the limit is zero. -/
inductive Added (store : PeerStore) (now : Instant) (hash : InfoHash) (address : Address) :
    AddOutcome × PeerStore → Prop
  | refreshed {later : PeerStore} (known : address ∈ store.find now hash) (tidy : later.Tidy)
      (limits : later.limits = store.limits)
      (live : ∀ other, later.live now other =
        if other = hash then renew (store.live now hash) now address else store.live now other) :
      Added store now hash address (.refreshed, later)
  | full {later : PeerStore} (unknown : address ∉ store.find now hash)
      (exhausted : store.Exhausted now hash)
      (swept : Swept store now later) : Added store now hash address (.full, later)
  | inserted {later : PeerStore} (unknown : address ∉ store.find now hash)
      (room : 1 ≤ store.maxPerHash → ¬ store.Exhausted now hash) (tidy : later.Tidy)
      (limits : later.limits = store.limits)
      (live : ∀ other, later.live now other =
        if other = hash then
          List.filter (store.isLive now) (store.live now hash ++ [⟨address, now⟩])
        else store.live now other) : Added store now hash address (.inserted, later)

/-- A store that seems full is swept before it is taken to be full. -/
theorem full_iff (tidy : store.Tidy) {later : PeerStore}
    (swept : (if store.maxTotal ≤ store.count then (store.expire now).2 else store) = later) :
    later.maxTotal ≤ later.count ↔ store.maxTotal ≤ (store.livePairs now).length := by
  have hPairs : (store.livePairs now).length =
      (store.stored.filter fun entry => store.isLive now entry.2).length := List.length_map _
  rw [← swept, hPairs]
  split
  next =>
    have hCount := (swept_expire tidy now).tidy.count
    rw [stored_expire] at hCount
    rw [hCount]
    rfl
  next room =>
    have hFewer := List.length_filter_le
      (fun entry : InfoHash × AnnouncedPeer => store.isLive now entry.2) store.stored
    have hCount := tidy.count
    omega

/-- A new peer is put behind the live ones of its key. -/
theorem Added.push {swept : PeerStore} (sweep : Swept store now swept)
    (under : swept.under hash = store.live now hash) (unknown : address ∉ store.find now hash)
    (room : 1 ≤ store.maxPerHash → ¬ store.Exhausted now hash) :
    Added store now hash address (.inserted, swept.push now hash address) := by
  have hUnder : ∀ other, (swept.push now hash address).under other =
      if other = hash then store.live now hash ++ [⟨address, now⟩] else swept.under other := by
    intro other
    rw [← under]
    exact under_put
  have hPut : (swept.put hash (swept.under hash ++ [⟨address, now⟩])).limits = swept.limits :=
    limits_put
  have hLimits : (swept.push now hash address).limits = store.limits := hPut.trans sweep.limits
  refine .inserted unknown room ⟨keys_put sweep.tidy.keys, ?_, ?_⟩ hLimits ?_
  · intro other
    rw [hUnder]
    split
    next =>
      have hOld := sweep.tidy.addresses hash
      rw [under] at hOld
      rw [List.map_append, List.map_singleton]
      exact (List.perm_append_singleton _ _).symm.nodup (List.nodup_cons.mpr ⟨unknown, hOld⟩)
    next => exact sweep.tidy.addresses other
  · have hPut := @length_stored_put swept hash (swept.under hash ++ [⟨address, now⟩])
      sweep.tidy.keys
    have hCount : (swept.push now hash address).count = swept.count + 1 := rfl
    have hStored : (swept.push now hash address).stored =
        (swept.put hash (swept.under hash ++ [⟨address, now⟩])).stored := rfl
    rw [List.length_append, List.length_singleton] at hPut
    rw [hCount, hStored, sweep.tidy.count]
    omega
  · intro other
    rw [live_eq_of_limits hLimits, hUnder]
    split
    next => rfl
    next => exact sweep.filter_under other

theorem Added.addWithinTotal {swept : PeerStore} (sweep : Swept store now swept)
    (under : swept.under hash = store.live now hash) (unknown : address ∉ store.find now hash)
    (room : 1 ≤ store.maxPerHash → ¬ store.maxPerHash ≤ (store.find now hash).length)
    (tidy : store.Tidy) :
    Added store now hash address (swept.addWithinTotal now hash address) := by
  unfold PeerStore.addWithinTotal
  dsimp only
  generalize hLater : (if swept.maxTotal ≤ swept.count then (swept.expire now).2 else swept) = later
  have hSwept : Swept swept now later := by
    rw [← hLater]
    split
    · exact swept_expire sweep.tidy now
    · exact .refl sweep.tidy
  have hUnder : later.under hash = store.live now hash := by
    rw [← hLater]
    split
    · rw [under_expire sweep.tidy.keys]
      exact sweep.live hash
    · exact under
  have hMaxTotal : swept.maxTotal = store.maxTotal := maxTotal_of_limits sweep.limits
  have hFull : later.maxTotal ≤ later.count ↔ store.maxTotal ≤ (store.livePairs now).length := by
    rw [full_iff sweep.tidy hLater, hMaxTotal, sweep.tidy.length_livePairs tidy sweep.live]
  split
  next full => exact .full unknown (.inr (hFull.mp full)) (sweep.trans hSwept)
  next free =>
    refine .push (sweep.trans hSwept) hUnder unknown fun positive => ?_
    rintro (many | full)
    · exact room positive many
    · exact free (hFull.mpr full)

/-- A known peer starts its time again at the place where it stands. -/
theorem Added.renew {swept : PeerStore} (sweep : Swept store now swept)
    (under : swept.under hash = store.live now hash) (known : address ∈ store.find now hash) :
    Added store now hash address
      (.refreshed, swept.put hash (renew (store.live now hash) now address)) := by
  have hLimits : (swept.put hash (PeerStore.renew (store.live now hash) now address)).limits =
      store.limits := limits_put.trans sweep.limits
  refine .refreshed known ⟨keys_put sweep.tidy.keys, ?_, ?_⟩ hLimits ?_
  · intro other
    rw [under_put]
    split
    next =>
      rw [addresses_renew, ← under]
      exact sweep.tidy.addresses hash
    next => exact sweep.tidy.addresses other
  · have hPut := @length_stored_put swept hash
      (PeerStore.renew (store.live now hash) now address) sweep.tidy.keys
    have hLength : (PeerStore.renew (store.live now hash) now address).length =
        (store.live now hash).length := by
      rw [renew_eq_modifyFirst, length_modifyFirst]
    have hCount : (swept.put hash (PeerStore.renew (store.live now hash) now address)).count =
        swept.count := by
      unfold put
      split <;> rfl
    rw [hLength, under] at hPut
    rw [hCount, sweep.tidy.count]
    omega
  · intro other
    rw [live_eq_of_limits hLimits, under_put]
    split
    next =>
      apply List.filter_eq_self.mpr
      intro peer member
      rw [renew_eq_modifyFirst] at member
      rcases mem_modifyFirst member with old | ⟨old, among, same, rfl⟩
      · exact (List.mem_filter.mp old).2
      · exact isLive_new store (lifetime_pos (List.mem_filter.mp among).2)
    next => exact sweep.filter_under other

theorem added_add (tidy : store.Tidy) (now : Instant) (hash : InfoHash) (address : Address) :
    Added store now hash address (store.add now hash address) := by
  have hSweep := swept_sweepKey tidy now hash
  have hUnder := under_sweepKey store now hash hash
  have hMaxPerHash : (store.sweepKey now hash).maxPerHash = store.maxPerHash :=
    maxPerHash_of_limits hSweep.limits
  rw [if_pos rfl] at hUnder
  unfold add
  dsimp only
  generalize store.sweepKey now hash = swept at hSweep hUnder hMaxPerHash ⊢
  have hFind : store.find now hash = (swept.under hash).map (·.address) := by
    rw [hUnder]
    rfl
  cases found : swept.get? hash with
  | none =>
    have hNone : swept.under hash = [] := under_of_get? found
    rw [hNone] at hFind
    apply Added.addWithinTotal hSweep hUnder _ _ tidy
    · rw [hFind]
      exact List.not_mem_nil
    · intro positive
      rw [hFind, List.map_nil, List.length_nil]
      omega
  | some list =>
    have hList : swept.under hash = list := under_of_get? found
    have hKnown : list.any (·.address = address) = true ↔ address ∈ store.find now hash := by
      rw [hFind, hList, List.any_eq_true, List.mem_map]
      simp only [decide_eq_true_eq]
    have hLength : list.length = (store.find now hash).length := by
      rw [hFind, hList, List.length_map]
    dsimp only
    split
    next known =>
      rw [← hList, hUnder]
      exact .renew hSweep hUnder (hKnown.mp known)
    next unknown =>
      have hUnknown : address ∉ store.find now hash := fun known => unknown (hKnown.mpr known)
      rw [hMaxPerHash, hLength]
      split
      next many => exact .full hUnknown (.inl many) hSweep
      next room => exact .addWithinTotal hSweep hUnder hUnknown (fun _ => room) tidy

/-- A refused announcement does no more than a sweep. -/
theorem swept_add_of_full (tidy : store.Tidy) (refused : (store.add now hash address).1 = .full) :
    Swept store now (store.add now hash address).2 := by
  have hAdded := added_add tidy now hash address
  generalize store.add now hash address = added at hAdded refused ⊢
  cases hAdded with
  | refreshed => cases refused
  | full _ _ swept => exact swept
  | inserted => cases refused

/-- What stores a sweep apart list is the same, now and later. -/
theorem Swept.find (sweep : Swept store now swept) (order : now ≤ next) (hash : InfoHash) :
    swept.find next hash = store.find next hash :=
  congrArg (List.map AnnouncedPeer.address) ((sweep.later order).live hash)

section Added

variable {outcome : AddOutcome} {after : PeerStore}

theorem Added.tidy (added : Added store now hash address (outcome, after)) : after.Tidy := by
  cases added with
  | refreshed _ tidy _ _ => exact tidy
  | full _ _ swept => exact swept.tidy
  | inserted _ _ tidy _ _ => exact tidy

theorem Added.limits (added : Added store now hash address (outcome, after)) :
    after.limits = store.limits := by
  cases added with
  | refreshed _ _ limits _ => exact limits
  | full _ _ swept => exact swept.limits
  | inserted _ _ _ limits _ => exact limits

/-- The live peers alone decide what becomes of an announcement. -/
theorem Added.outcome_iff {result : AddOutcome × PeerStore}
    (added : Added store now hash address result) (positive : 1 ≤ store.maxPerHash) :
    (result.1 = .refreshed ↔ address ∈ store.find now hash) ∧
    (result.1 = .full ↔ address ∉ store.find now hash ∧ store.Exhausted now hash) ∧
    (result.1 = .inserted ↔ address ∉ store.find now hash ∧ ¬ store.Exhausted now hash) := by
  cases added with
  | refreshed known => simp [known]
  | full unknown exhausted => simp [unknown, exhausted]
  | inserted unknown room => simp [unknown, room positive]

/-- The other keys are left alone. -/
theorem Added.live_other (added : Added store now hash address (outcome, after))
    (another : other ≠ hash) : after.live now other = store.live now other := by
  cases added with
  | refreshed _ _ _ live => rw [live, if_neg another]
  | full _ _ swept => exact swept.live other
  | inserted _ _ _ _ live => rw [live, if_neg another]

/-- An announcement that is not refused takes the place of an older one of the peer. -/
theorem Added.mem_live (added : Added store now hash address (outcome, after))
    (accepted : outcome ≠ .full) (tidy : store.Tidy) :
    peer ∈ after.live now hash ↔
      peer = ⟨address, now⟩ ∧ store.isLive now peer = true ∨
        peer ∈ store.live now hash ∧ peer.address ≠ address := by
  cases added with
  | refreshed known _ _ live =>
    have hDistinct : ((store.live now hash).map (·.address)).Nodup := tidy.nodup_find now hash
    rw [live, if_pos rfl, renew_eq_modifyFirst, mem_modifyFirst_iff hDistinct, or_comm]
    refine or_congr_left ?_
    constructor
    · intro renewed
      rcases renewed with ⟨old, among, rfl, rfl⟩
      exact ⟨rfl, isLive_new store (lifetime_pos (List.mem_filter.mp among).2)⟩
    · intro fresh
      rcases fresh with ⟨rfl, -⟩
      rcases List.mem_map.mp known with ⟨old, among, same⟩
      exact ⟨old, among, same, by rw [← same]⟩
  | full => exact absurd rfl accepted
  | inserted unknown _ _ _ live =>
    rw [live, if_pos rfl, List.mem_filter, List.mem_append, List.mem_singleton, or_comm,
      or_and_right]
    refine or_congr_right ?_
    constructor
    · intro old
      refine ⟨old.1, ?_⟩
      rintro rfl
      exact unknown (List.mem_map_of_mem old.1)
    · intro old
      exact ⟨old.1, (List.mem_filter.mp old.1).2⟩

end Added

/-- A sweep makes no difference to an announcement. -/
theorem Swept.add (sweep : Swept store now swept) (tidy : store.Tidy)
    (positive : 1 ≤ store.maxPerHash) (hash : InfoHash) (address : Address) :
    (store.add now hash address).1 = (swept.add now hash address).1 ∧
      Swept (store.add now hash address).2 now (swept.add now hash address).2 := by
  have hMaxPerHash : swept.maxPerHash = store.maxPerHash := maxPerHash_of_limits sweep.limits
  have hMaxTotal : swept.maxTotal = store.maxTotal := maxTotal_of_limits sweep.limits
  have hFind : swept.find now hash = store.find now hash := sweep.find (Nat.le_refl now) hash
  have hExhausted : swept.Exhausted now hash ↔ store.Exhausted now hash := by
    unfold Exhausted
    rw [hMaxPerHash, hMaxTotal, hFind, sweep.tidy.length_livePairs tidy sweep.live]
  have hStore := added_add tidy now hash address
  have hSwept := added_add sweep.tidy now hash address
  generalize store.add now hash address = first at hStore ⊢
  generalize swept.add now hash address = second at hSwept ⊢
  rcases first with ⟨outcome, after⟩
  rcases second with ⟨outcome', after'⟩
  have hOutcome : outcome = outcome' := by
    have hFirst := hStore.outcome_iff positive
    have hSecond := hSwept.outcome_iff (hMaxPerHash ▸ positive)
    rw [hFind, hExhausted] at hSecond
    cases outcome with
    | refreshed => exact (hSecond.1.mpr (hFirst.1.mp rfl)).symm
    | full => exact (hSecond.2.1.mpr (hFirst.2.1.mp rfl)).symm
    | inserted => exact (hSecond.2.2.mpr (hFirst.2.2.mp rfl)).symm
  subst hOutcome
  have hLimits : after'.limits = after.limits :=
    hSwept.limits.trans (sweep.limits.trans hStore.limits.symm)
  refine ⟨rfl, hSwept.tidy, hLimits, fun other => ?_⟩
  cases hStore with
  | refreshed _ _ _ live =>
    cases hSwept with
    | refreshed _ _ _ live' => rw [live, live', sweep.live, sweep.live]
  | full _ _ same =>
    cases hSwept with
    | full _ _ same' => rw [same.live, same'.live, sweep.live]
  | inserted _ _ _ _ live =>
    cases hSwept with
    | inserted _ _ _ _ live' =>
      rw [live, live', sweep.live, sweep.live, isLive_eq_of_limits sweep.limits]

end PeerStore
end Kademlia
