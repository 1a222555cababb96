import Kademlia.PeerStore
import Kademlia.Proofs.Sequence
import Mathlib.Data.List.Nodup
import Mathlib.Data.Prod.Basic

namespace Kademlia
namespace PeerStore

/-!
# What is stored and what is live

A store holds dead peers along with the live ones, counts both, and sweeps in passing.  What can be
seen from the outside depends on the live peers of each key alone (`live`): the operations are
described by what they do to these, and a store that is in order (`Tidy`) counts what it holds.
-/

variable {store : PeerStore} {now later : Instant} {hash other : InfoHash} {address : Address}
  {list : List AnnouncedPeer} {peer : AnnouncedPeer}

/-- What is stored under a key, dead peers included; nothing if the key is unknown. -/
def under (store : PeerStore) (hash : InfoHash) : List AnnouncedPeer :=
  (store.get? hash).getD []

/-- The live peers of a key as they are stored. -/
def live (store : PeerStore) (now : Instant) (hash : InfoHash) : List AnnouncedPeer :=
  (store.under hash).filter (store.isLive now)

/-- All that is stored, each peer with its key. -/
def stored (store : PeerStore) : List (InfoHash × AnnouncedPeer) :=
  store.peers.flatMap fun entry => entry.2.map (Prod.mk entry.1)

/-- The live peers under all keys together, each with its key. -/
def livePairs (store : PeerStore) (now : Instant) : List (InfoHash × Address) :=
  (store.stored.filter fun entry => store.isLive now entry.2).map fun entry =>
    (entry.1, entry.2.address)

/-- The store counts what it holds, and holds no peer of a key twice. -/
structure Tidy (store : PeerStore) : Prop where
  keys : (store.peers.map (·.1)).Nodup
  addresses : ∀ hash, ((store.under hash).map (·.address)).Nodup
  count : store.count = store.stored.length

/-! ## Keys -/

theorem any_key_iff : store.peers.any (·.1 = hash) = true ↔ hash ∈ store.peers.map (·.1) := by
  rw [List.any_eq_true, List.mem_map]
  simp only [decide_eq_true_eq]

theorem under_of_get? {found : Option (List AnnouncedPeer)} (same : store.get? hash = found) :
    store.under hash = found.getD [] :=
  congrArg (fun found => found.getD []) same

theorem under_of_not_mem (unknown : hash ∉ store.peers.map (·.1)) : store.under hash = [] :=
  under_of_get? (Option.map_eq_none_iff.mpr (find?_of_not_mem unknown))

theorem under_of_mem (keys : (store.peers.map (·.1)).Nodup) (member : (hash, list) ∈ store.peers) :
    store.under hash = list := by
  unfold under get?
  rw [find?_of_mem keys member]
  rfl

theorem mem_stored (keys : (store.peers.map (·.1)).Nodup) :
    (hash, peer) ∈ store.stored ↔ peer ∈ store.under hash := by
  unfold stored
  rw [List.mem_flatMap]
  constructor
  · rintro ⟨⟨key, list⟩, member, among⟩
    rcases List.mem_map.mp among with ⟨inside, stands, same⟩
    rcases Prod.mk.inj same with ⟨rfl, rfl⟩
    rw [under_of_mem keys member]
    exact stands
  · intro stands
    unfold under get? at stands
    cases found : store.peers.find? (·.1 = hash) with
    | none =>
      rw [found] at stands
      cases stands
    | some entry =>
      rcases of_find?_eq found with ⟨among, rfl⟩
      rw [found] at stands
      exact ⟨entry, among, List.mem_map_of_mem stands⟩

theorem map_stored (store : PeerStore) : store.stored.map (·.2) = store.peers.flatMap (·.2) := by
  unfold stored
  simp [List.map_flatMap, Function.comp_def]

/-- No peer is stored under its key twice. -/
theorem Tidy.nodup_stored (tidy : store.Tidy) :
    (store.stored.map fun entry => (entry.1, entry.2.address)).Nodup := by
  unfold stored
  rw [List.map_flatMap, List.nodup_flatMap]
  constructor
  · rintro ⟨key, list⟩ member
    have hList := tidy.addresses key
    rw [under_of_mem tidy.keys member] at hList
    have hPairs := hList.map (Prod.mk_right_injective key)
    rw [List.map_map] at hPairs ⊢
    exact hPairs
  · apply (List.pairwise_map.mp tidy.keys).imp
    intro first second apart pair here there
    dsimp only at here there
    rw [List.map_map] at here there
    rcases List.mem_map.mp here with ⟨_, -, rfl⟩
    rcases List.mem_map.mp there with ⟨_, -, same⟩
    exact apart (Prod.mk.inj same).1.symm

/-! ## Replacing what is under a key -/

theorem get?_put : (store.put hash list).get? other =
    if other = hash then some list else store.get? other := by
  have hKey : (fun entry : InfoHash × List AnnouncedPeer =>
      decide ((if entry.1 = hash then (hash, list) else entry).1 = other)) =
        fun entry => decide (entry.1 = other) := by
    funext entry
    split
    next same => rw [same]
    next => rfl
  unfold put
  by_cases known : hash ∈ store.peers.map (·.1)
  · rw [if_pos (any_key_iff.mpr known)]
    unfold get?
    rw [List.find?_map, Function.comp_def, hKey, Option.map_map]
    by_cases same : other = hash
    · rw [if_pos same, same]
      cases found : store.peers.find? (·.1 = hash) with
      | none =>
        rcases List.mem_map.mp known with ⟨entry, member, here⟩
        exact absurd (decide_eq_true here) (List.find?_eq_none.mp found entry member)
      | some entry => simp [(of_find?_eq found).2]
    · rw [if_neg same]
      cases found : store.peers.find? (·.1 = other) with
      | none => rfl
      | some entry => simp [(of_find?_eq found).2, same]
  · rw [if_neg (mt any_key_iff.mp known)]
    unfold get?
    rw [List.find?_append, Option.map_or]
    by_cases same : other = hash
    · rw [if_pos same, same, find?_of_not_mem known]
      simp
    · rw [if_neg same]
      simp [Ne.symm same]

theorem under_put : (store.put hash list).under other =
    if other = hash then list else store.under other := by
  unfold under
  rw [get?_put]
  split <;> rfl

theorem keys_put (keys : (store.peers.map (·.1)).Nodup) :
    ((store.put hash list).peers.map (·.1)).Nodup := by
  unfold put
  by_cases known : hash ∈ store.peers.map (·.1)
  · rw [if_pos (any_key_iff.mpr known)]
    have hKeys : (store.peers.map fun entry => if entry.1 = hash then (hash, list) else entry).map
        (·.1) = store.peers.map (·.1) := by
      rw [List.map_map]
      apply List.map_congr_left
      intro entry _
      dsimp only [Function.comp]
      split
      next same => exact same.symm
      next => rfl
    rw [hKeys]
    exact keys
  · rw [if_neg (mt any_key_iff.mp known), List.map_append, List.map_singleton]
    apply (List.perm_append_singleton _ _).symm.nodup
    exact List.nodup_cons.mpr ⟨known, keys⟩

/-- The other keys keep what they have. -/
theorem length_stored_put (keys : (store.peers.map (·.1)).Nodup) :
    (store.put hash list).stored.length + (store.under hash).length =
      store.stored.length + list.length := by
  by_cases known : hash ∈ store.peers.map (·.1)
  · rcases List.mem_map.mp known with ⟨⟨key, old⟩, member, rfl⟩
    have hPerm := perm_cons_filter_ne keys member
    dsimp only at hPerm
    have hOthers : (store.peers.filter (·.1 ≠ key)).map
        (fun entry => if entry.1 = key then (key, list) else entry) =
          store.peers.filter (·.1 ≠ key) := by
      refine (List.map_congr_left ?_).trans (List.map_id _)
      intro entry among
      exact if_neg (of_decide_eq_true (List.mem_filter.mp among).2)
    have hOld := hPerm.flatMap_right fun entry => entry.2.map (Prod.mk entry.1)
    have hNew := (hPerm.map fun entry => if entry.1 = key then (key, list) else entry).flatMap_right
      fun entry => entry.2.map (Prod.mk entry.1)
    rw [List.map_cons, if_pos rfl, hOthers] at hNew
    unfold put stored
    rw [if_pos (any_key_iff.mpr known), under_of_mem keys member, hOld.length_eq, hNew.length_eq,
      List.flatMap_cons, List.flatMap_cons, List.length_append, List.length_append,
      List.length_map, List.length_map]
    dsimp only
    omega
  · unfold put stored
    rw [if_neg (mt any_key_iff.mp known), under_of_not_mem known]
    simp

/-! ## Sweeping -/

theorem isLive_later {store : PeerStore} (order : now ≤ later) (lives : store.isLive later peer = true) :
    store.isLive now peer = true := by
  apply decide_eq_true
  exact Nat.lt_of_le_of_lt (Nat.sub_le_sub_right order _) (of_decide_eq_true lives)

/-- Time does nothing but make live peers die. -/
theorem live_later (store : PeerStore) (order : now ≤ later) (hash : InfoHash) :
    store.live later hash = (store.live now hash).filter (store.isLive later) := by
  unfold live
  rw [List.filter_filter]
  apply List.filter_congr
  intro peer _
  cases lives : store.isLive later peer with
  | false => rfl
  | true => rw [isLive_later order lives]; rfl

theorem stored_expire (store : PeerStore) (now : Instant) :
    (store.expire now).2.stored = store.stored.filter fun entry => store.isLive now entry.2 := by
  unfold expire stored
  dsimp only
  generalize store.isLive now = isLive
  induction store.peers with
  | nil => rfl
  | cons entry rest ih =>
    rcases entry with ⟨key, list⟩
    have hHead : (list.map (Prod.mk key)).filter (fun entry => isLive entry.2) =
        (list.filter isLive).map (Prod.mk key) := List.filter_map
    rw [List.map_cons, List.filter_cons, List.flatMap_cons, List.filter_append, ← ih, hHead]
    split
    · rw [List.flatMap_cons]
    next empty =>
      have hNone : list.filter isLive = [] := by simpa using empty
      rw [hNone]
      rfl

/-- Only live peers are left, and they keep their order. -/
theorem under_expire (keys : (store.peers.map (·.1)).Nodup) (now : Instant) (hash : InfoHash) :
    (store.expire now).2.under hash = store.live now hash := by
  unfold live under expire get?
  dsimp only
  generalize store.isLive now = isLive
  generalize store.peers = peers at keys ⊢
  induction peers with
  | nil => rfl
  | cons entry rest ih =>
    rcases entry with ⟨key, list⟩
    rw [List.map_cons] at keys
    rcases List.nodup_cons.mp keys with ⟨apart, distinct⟩
    have hRest := ih distinct
    rw [List.map_cons, List.filter_cons, List.find?_cons]
    by_cases same : key = hash
    · rw [same] at apart
      rw [find?_of_not_mem apart] at hRest
      rw [decide_eq_true same]
      split
      · rw [List.find?_cons, decide_eq_true same]
        rfl
      next empty =>
        have hNone : list.filter isLive = [] := by simpa using empty
        rw [hRest]
        exact hNone.symm
    · rw [decide_eq_false same]
      split
      · rw [List.find?_cons, decide_eq_false same]
        exact hRest
      · exact hRest

/-! ## Live peers -/

theorem mem_livePairs (keys : (store.peers.map (·.1)).Nodup) {pair : InfoHash × Address} :
    pair ∈ store.livePairs now ↔ pair.2 ∈ store.find now pair.1 := by
  rcases pair with ⟨hash, address⟩
  unfold livePairs
  constructor
  · intro member
    rcases List.mem_map.mp member with ⟨⟨key, peer⟩, among, same⟩
    rcases Prod.mk.inj same with ⟨rfl, rfl⟩
    rcases List.mem_filter.mp among with ⟨stands, lives⟩
    have hUnder := (mem_stored keys).mp stands
    exact List.mem_map_of_mem (List.mem_filter.mpr ⟨hUnder, lives⟩)
  · intro found
    rcases List.mem_map.mp found with ⟨peer, among, rfl⟩
    rcases List.mem_filter.mp among with ⟨stands, lives⟩
    have hStored := (mem_stored keys).mpr stands
    exact List.mem_map.mpr ⟨(hash, peer), List.mem_filter.mpr ⟨hStored, lives⟩, rfl⟩

theorem Tidy.nodup_livePairs (tidy : store.Tidy) (now : Instant) :
    (store.livePairs now).Nodup :=
  tidy.nodup_stored.sublist (List.filter_sublist.map _)

theorem Tidy.nodup_find (tidy : store.Tidy) (now : Instant) (hash : InfoHash) :
    (store.find now hash).Nodup :=
  (tidy.addresses hash).sublist (List.filter_sublist.map _)

/-- Stores with the same live peers have the same number of them. -/
theorem Tidy.length_livePairs {store other : PeerStore} (tidy : store.Tidy) (tidy' : other.Tidy)
    (same : ∀ hash, store.live now hash = other.live now hash) :
    (store.livePairs now).length = (other.livePairs now).length := by
  apply List.Perm.length_eq
  rw [List.perm_ext_iff_of_nodup (tidy.nodup_livePairs now) (tidy'.nodup_livePairs now)]
  intro pair
  rw [mem_livePairs tidy.keys, mem_livePairs tidy'.keys]
  unfold find
  have hSame := same pair.1
  unfold live under at hSame
  rw [hSame]

end PeerStore
end Kademlia
