import Kademlia.Proofs.Routing.Entries

namespace Kademlia
namespace Routing

/-!
What becomes of a newcomer, and of those that were there before it.  A full bucket makes room by
giving up a worse node; if it has none, it is split, as often as that is possible.  Since no node of
a bucket that is split is worse than the newcomer, none is bad, so that the split loses nobody; and
since the nodes move into emptier buckets, none is driven out by the others.  After it, there is
still nobody to give way to the newcomer.  Therefore it comes in at no one's expense, or it takes
the place of a single node without any split, or everything stays as it was but for the splits.
-/

variable {own id : NodeId} {t after : Table} {bucket : Bucket} {now : Instant}
  {newcomer node victim : Node}

/-! ## Who gives way -/

theorem Status.rank_inj {a b : Status} : a.rank = b.rank ↔ a = b := by
  cases a <;> cases b <;> decide

namespace Bucket

/-- The node of a bucket that gives way to a newcomer: it is worse than the newcomer, and of all that
are, it is the worst, and among the worst the one that was not seen for the longest time. -/
structure GivesWay (now : Instant) (newcomer : Node) (bucket : Bucket) (victim : Node) : Prop where
  member : victim ∈ bucket
  worse : (victim.status now).rank < (newcomer.status now).rank
  least : ∀ other ∈ bucket, (other.status now).rank < (newcomer.status now).rank →
    (victim.status now).rank < (other.status now).rank ∨
      (victim.status now).rank = (other.status now).rank ∧ victim.lastSeen ≤ other.lastSeen

/-- No node of a bucket is worse than a newcomer. -/
def Resists (now : Instant) (newcomer : Node) (bucket : Bucket) : Prop :=
  ∀ node ∈ bucket, (newcomer.status now).rank ≤ (node.status now).rank

/-- The place of a node in the order in which nodes give way. -/
def precedence (now : Instant) (node : Node) : Nat × Nat :=
  ((node.status now).rank, node.lastSeen)

theorem givesWayBefore_eq_false_iff {a b : Node} :
    givesWayBefore now a b = false ↔
      (precedence now b).1 < (precedence now a).1 ∨
        (precedence now b).1 = (precedence now a).1 ∧ (precedence now b).2 ≤ (precedence now a).2 := by
  rw [givesWayBefore, Status.worseThan, Bool.or_eq_false_iff, Bool.and_eq_false_iff,
    beq_eq_false_iff_ne, decide_eq_false_iff_not, decide_eq_false_iff_not, Ne, ← Status.rank_inj]
  change ¬ (precedence now a).1 < (precedence now b).1 ∧
    (¬ (precedence now a).1 = (precedence now b).1 ∨
      ¬ (precedence now a).2 < (precedence now b).2) ↔ _
  omega

/-- Who is found to give way, does. -/
theorem givesWay_of_victim? (found : bucket.victim? now (newcomer.status now) = some victim) :
    GivesWay now newcomer bucket victim := by
  rcases List.mem_filter.mp (mem_of_firstLeast? found) with ⟨member, worse⟩
  refine ⟨member, of_decide_eq_true worse, fun other among worse => ?_⟩
  apply givesWayBefore_eq_false_iff.mp
  refine not_less_of_firstLeast? (fun a b => ?_) (fun a b c => ?_) found
    (List.mem_filter.mpr ⟨among, decide_eq_true worse⟩)
  · rw [← Bool.not_eq_false, givesWayBefore_eq_false_iff, givesWayBefore_eq_false_iff]
    omega
  · simp only [givesWayBefore_eq_false_iff]
    omega

theorem resists_of_victim? (found : bucket.victim? now (newcomer.status now) = none) :
    Resists now newcomer bucket := by
  intro node member
  have hNone : (bucket.filter fun n => (n.status now).worseThan (newcomer.status now)) = [] := by
    unfold victim? at found
    generalize List.filter _ bucket = worse at found ⊢
    cases worse with
    | nil => rfl
    | cons => cases found
  have hNot := List.filter_eq_nil_iff.mp hNone node member
  rw [Status.worseThan, decide_eq_true_eq] at hNot
  exact Nat.le_of_not_lt hNot

theorem not_mem_ids_append (unknown : id ∉ bucket.ids) (other : id ≠ node.contact.id) :
    id ∉ ids (bucket ++ [node]) := by
  rw [ids, List.map_append, List.map_singleton, List.mem_append, List.mem_singleton]
  exact not_or.mpr ⟨unknown, other⟩

/-- What a bucket does with a newcomer that it does not know. -/
theorem add?_cases (useful : newcomer.status now ≠ .bad) (unknown : newcomer.contact.id ∉ bucket.ids)
    (few : bucket.length ≤ capacity) :
    bucket.length < capacity ∧ bucket.add? now newcomer = some (bucket ++ [newcomer]) ∨
    (∃ victim, GivesWay now newcomer bucket victim ∧ bucket.add? now newcomer =
      some (modifyFirst (·.contact = victim.contact) (fun _ => newcomer) bucket)) ∨
    bucket.add? now newcomer = none ∧ bucket.length = capacity ∧ Resists now newcomer bucket := by
  rw [Bucket.add?, if_neg useful, if_neg fun known => unknown (any_id_iff.mp known)]
  by_cases room : bucket.length < capacity
  · rw [if_pos room]
    exact .inl ⟨room, rfl⟩
  · rw [if_neg room]
    cases found : bucket.victim? now (newcomer.status now) with
    | none =>
      exact .inr (.inr ⟨rfl, Nat.le_antisymm few (Nat.le_of_not_lt room), resists_of_victim? found⟩)
    | some victim => exact .inr (.inl ⟨victim, givesWay_of_victim? found, rfl⟩)

theorem resists_of_add? (useful : newcomer.status now ≠ .bad)
    (unknown : newcomer.contact.id ∉ bucket.ids) (few : bucket.length ≤ capacity)
    (full : bucket.add? now newcomer = none) :
    bucket.length = capacity ∧ Resists now newcomer bucket := by
  rcases add?_cases useful unknown few with ⟨_, entered⟩ | ⟨_, _, replaced⟩ | ⟨_, resists⟩
  · rw [entered] at full
    cases full
  · rw [replaced] at full
    cases full
  · exact resists

/-- Whoever is no worse than a newcomer that is not bad, is not bad either. -/
theorem Resists.isPingable (resists : Resists now newcomer bucket)
    (useful : newcomer.status now ≠ .bad) (member : node ∈ bucket) :
    node.isPingable now = true := by
  have hNode := resists node member
  rw [Node.isPingable, decide_eq_true_eq]
  intro bad
  rw [bad] at hNode
  exact useful (Status.rank_inj.mp (Nat.le_zero.mp hNode))

end Bucket

/-! ## The table -/

namespace Table

/-- All buckets, with one node in the place of another. -/
def exchanged (t : Table) (old new : Node) : List Bucket :=
  t.buckets.map fun bucket => bucket.map fun node => if node = old then new else node

/-- The bucket that an identifier belongs to can be split: it is the last one, and there may be
more. -/
def Splittable (t : Table) (id : NodeId) : Prop :=
  t.front.length ≤ t.own.commonBits id ∧ t.front.length + 1 < maxBuckets

/-- Makes two buckets of the last one: all of its nodes are taken in anew, one after another. -/
def pour (t : Table) (now : Instant) : Table :=
  t.last.foldl (fun t node => t.add now node) { t with front := t.front ++ [[]], last := [] }

/-- The last bucket is divided again and again, as long as an identifier belongs to it and it is
full. -/
inductive Divided (now : Instant) (id : NodeId) : Table → Table → Prop
  | refl (t : Table) : Divided now id t t
  | step {t after : Table} : (t.bucketOf id).length = 8 → t.Splittable id →
    Divided now id (t.pour now) after → Divided now id t after

/-- What can become of a table that a newcomer comes to. -/
inductive Admission (now : Instant) (newcomer : Node) (t : Table) : Table → Prop
  /-- The newcomer comes in, and nobody goes. -/
  | entered {divided after : Table} : Divided now newcomer.contact.id t divided →
    (divided.bucketOf newcomer.contact.id).length < 8 →
    after = divided.modifyBucket newcomer.contact.id (· ++ [newcomer]) →
    after.nodes.Perm (newcomer :: t.nodes) → Admission now newcomer t after
  /-- The newcomer takes the place of one node of its bucket, and all else stays where it is. -/
  | displaced {after : Table} (victim : Node) :
    (t.bucketOf newcomer.contact.id).GivesWay now newcomer victim → t.nodes.count victim = 1 →
    after.buckets = t.exchanged victim newcomer → Admission now newcomer t after
  /-- The newcomer does not come in, and nobody goes: its bucket has no room for it, nobody to give
  way, and cannot be split. -/
  | refused {after : Table} : Divided now newcomer.contact.id t after → after.nodes.Perm t.nodes →
    (after.bucketOf newcomer.contact.id).length = 8 →
    (after.bucketOf newcomer.contact.id).Resists now newcomer →
    ¬ after.Splittable newcomer.contact.id → Admission now newcomer t after

/-! ### Within one bucket -/

/-- What happens to a node in its bucket, happens to it in the table. -/
theorem Sorted.buckets_modifyBucket_eq_exchanged {change : Bucket → Bucket} {old new : Node}
    (sorted : Sorted own t) (known : old ∈ t.bucketOf id)
    (changes : change (t.bucketOf id) =
      (t.bucketOf id).map fun node => if node = old then new else node) :
    (t.modifyBucket id change).buckets = t.exchanged old new := by
  have hHome := getElem?_placement t id
  have hOld := ((sorted.inOrder _ _ hHome).member _ (Bucket.mem_ids known)).2
  rw [buckets_modifyBucket, exchanged]
  apply List.ext_getElem?
  intro i
  rw [List.getElem?_map]
  by_cases here : placement t.own t.buckets.length id = i
  · rw [← here, List.getElem?_modify_eq, hHome]
    exact congrArg some changes
  · rw [List.getElem?_modify_ne _ _ here]
    cases place : t.buckets[i]? with
    | none => rfl
    | some bucket =>
      -- a node stands in one bucket only
      have hAbsent : ∀ node ∈ bucket, node ≠ old := by
        rintro node member rfl
        have hNode := ((sorted.inOrder i bucket place).member _ (Bucket.mem_ids member)).2
        exact here (hOld.symm.trans hNode)
      rw [Option.map_some]
      congr 1
      refine ((List.map_congr_left fun node member => ?_).trans (List.map_id _)).symm
      exact if_neg (hAbsent node member)

theorem modifyBucket_congr {change other : Bucket → Bucket}
    (same : change (t.bucketOf id) = other (t.bucketOf id)) :
    t.modifyBucket id change = t.modifyBucket id other := by
  rw [modifyBucket, modifyBucket]
  by_cases front : t.own.commonBits id < t.front.length
  · rw [bucketOf, List.getD_eq_getElem?_getD, List.getElem?_eq_getElem front,
      Option.getD_some] at same
    rw [if_pos front, if_pos front, List.modify_eq_take_cons_drop front,
      List.modify_eq_take_cons_drop front, same]
  · rw [bucketOf_of_back (Nat.le_of_not_lt front)] at same
    rw [if_neg front, if_neg front, same]

theorem modifyBucket_eq_self {change : Bucket → Bucket}
    (same : change (t.bucketOf id) = t.bucketOf id) : t.modifyBucket id change = t := by
  rw [@modifyBucket_congr id t change (fun bucket => bucket) same, modifyBucket]
  by_cases front : t.own.commonBits id < t.front.length
  · rw [if_pos front]
    exact congrArg (fun buckets => { t with front := buckets }) (List.modify_id _ _)
  · rw [if_neg front]

theorem Sorted.nodup_contacts (sorted : Sorted own t) (id : NodeId) :
    ((t.bucketOf id).map (·.contact)).Nodup := by
  have hDistinct := (sorted.inOrder _ _ (getElem?_placement t id)).distinct
  rw [Bucket.ids, List.Nodup, List.pairwise_map] at hDistinct
  rw [List.Nodup, List.pairwise_map]
  exact hDistinct.imp fun apart same => apart (congrArg Contact.id same)

/-- What becomes of a newcomer whose bucket is not split. -/
theorem Sorted.admission_fit (sorted : Sorted own t) (useful : newcomer.status now ≠ .bad)
    (unknown : newcomer.contact.id ∉ (t.bucketOf newcomer.contact.id).ids)
    (stays : (t.bucketOf newcomer.contact.id).add? now newcomer = none →
      ¬ t.Splittable newcomer.contact.id) :
    Admission now newcomer t (t.fit now newcomer) := by
  have hHome := getElem?_placement t newcomer.contact.id
  rcases Bucket.add?_cases useful unknown (sorted.inOrder _ _ hHome).room with
    ⟨room, entered⟩ | ⟨victim, gives, replaced⟩ | ⟨full, eight, resists⟩
  · have hFit : t.fit now newcomer = t.modifyBucket newcomer.contact.id (· ++ [newcomer]) := by
      apply modifyBucket_congr
      rw [entered, Option.getD_some]
    refine .entered (.refl t) room hFit ?_
    rw [hFit, nodes, buckets_modifyBucket]
    exact @perm_flatten_modify _ _ _ _ [newcomer] (· ++ [newcomer]) hHome
      List.perm_append_comm
  · have hNodes : t.nodes.Nodup := (List.pairwise_map.mp sorted.nodup_ids).imp
      fun apart same => apart (congrArg (·.contact.id) same)
    have hOnce : t.nodes.count victim = 1 :=
      hNodes.count.trans (if_pos (mem_nodes_of_bucketOf gives.member))
    refine .displaced victim gives hOnce ?_
    apply sorted.buckets_modifyBucket_eq_exchanged gives.member
    rw [replaced, Option.getD_some]
    exact modifyFirst_eq_map (sorted.nodup_contacts _) gives.member
  · have hSame : t.fit now newcomer = t := by
      apply modifyBucket_eq_self
      rw [full, Option.getD_none]
    rw [hSame]
    exact .refused (.refl t) (.refl _) eight resists (stays full)

/-! ### Splits -/

/-- The last bucket is divided between two. -/
theorem mem_bucketOf_split (back : t.front.length ≤ t.own.commonBits id)
    (member : node ∈ (t.split now).bucketOf id) : node ∈ t.bucketOf id := by
  rw [bucketOf_of_back back]
  rw [bucketOf, split, List.getD_eq_getElem?_getD] at member
  dsimp only at member
  rw [List.getElem?_append_right back] at member
  cases further : t.own.commonBits id - t.front.length with
  | zero =>
    rw [further, List.getElem?_cons_zero, Option.getD_some] at member
    exact (List.mem_filter.mp (List.mem_filter.mp member).1).1
  | succ =>
    rw [further, List.getElem?_cons_succ, List.getElem?_nil, Option.getD_none] at member
    exact (List.mem_filter.mp (List.mem_filter.mp member).1).1

/-- A bucket without bad nodes is split without loss. -/
theorem perm_nodes_split (pingable : ∀ node ∈ t.last, node.isPingable now = true) :
    (t.split now).nodes.Perm t.nodes := by
  rw [nodes, nodes, buckets, buckets, split]
  dsimp only
  rw [List.filter_eq_self.mpr pingable]
  simp only [List.flatten_append, List.flatten_singleton, List.append_assoc]
  exact (List.filter_append_perm _ _).append_left _

theorem place_of_splittable (full : (t.bucketOf node.contact.id).add? now node = none)
    (splittable : t.Splittable node.contact.id) :
    t.place now node = (t.split now).place now node := by
  rw [bucketOf_of_back splittable.1] at full
  rw [Table.place, if_neg (Nat.not_lt_of_le splittable.1), full]
  dsimp only
  rw [if_pos splittable.2]

theorem place_eq_fit (stays : (t.bucketOf node.contact.id).add? now node = none →
      ¬ t.Splittable node.contact.id) : t.place now node = t.fit now node := by
  rw [Table.place, Table.fit, modifyBucket]
  by_cases front : t.own.commonBits node.contact.id < t.front.length
  · rw [if_pos front, if_pos front]
  · have hBack := Nat.le_of_not_lt front
    rw [bucketOf_of_back hBack] at stays
    rw [if_neg front, if_neg front]
    cases added : t.last.add? now node with
    | some bucket => rfl
    | none => exact if_neg fun more => stays added ⟨hBack, more⟩

/-! ### Whoever is poured out finds room -/

/-- A node that is not known and whose bucket is not full stands at its end afterwards. -/
theorem add_of_room (useful : node.status now ≠ .bad) (other : node.contact.id ≠ t.own)
    (unknown : node.contact.id ∉ (t.bucketOf node.contact.id).ids)
    (room : (t.bucketOf node.contact.id).length < 8) :
    t.add now node = t.modifyBucket node.contact.id (· ++ [node]) := by
  have hAdded : (t.bucketOf node.contact.id).add? now node =
      some (t.bucketOf node.contact.id ++ [node]) := by
    rw [Bucket.add?, if_neg useful, if_neg fun known => unknown (Bucket.any_id_iff.mp known)]
    exact if_pos room
  have hFit : t.place now node = t.fit now node := by
    apply place_eq_fit
    intro full
    rw [hAdded] at full
    cases full
  rw [Table.add, if_neg (not_or.mpr ⟨useful, other⟩), hFit]
  apply modifyBucket_congr
  rw [hAdded, Option.getD_some]

/-- A table with two new buckets, while they fill up. -/
private def opened (own : NodeId) (front : List Bucket) (far near : Bucket) : Table :=
  { own, front := front ++ [far], last := near }

private theorem bucketOf_opened {front : List Bucket} {far near : Bucket}
    (deep : front.length ≤ own.commonBits id) :
    (opened own front far near).bucketOf id =
      if own.commonBits id ≤ front.length then far else near := by
  rw [bucketOf, opened, List.getD_eq_getElem?_getD, List.getElem?_append_right deep]
  split
  next here => rw [Nat.sub_eq_zero_of_le here, List.getElem?_cons_zero, Option.getD_some]
  next further =>
    rw [List.getElem?_eq_none, Option.getD_none]
    rw [List.length_singleton]
    omega

private theorem modifyBucket_opened {front : List Bucket} {far near : Bucket}
    (change : Bucket → Bucket) (deep : front.length ≤ own.commonBits id) :
    (opened own front far near).modifyBucket id change =
      if own.commonBits id ≤ front.length then opened own front (change far) near
      else opened own front far (change near) := by
  rw [modifyBucket, opened, List.length_append, List.length_singleton]
  simp only [Nat.lt_succ_iff]
  split
  next here =>
    rw [Nat.le_antisymm here deep, List.modify_eq_take_drop, List.take_left, List.drop_left]
    rfl
  next further => rfl

private theorem add_opened {front : List Bucket} {far near : Bucket}
    (pingable : node.isPingable now = true) (other : node.contact.id ≠ own)
    (deep : front.length ≤ own.commonBits node.contact.id)
    (unknown : node.contact.id ∉ far.ids ∧ node.contact.id ∉ near.ids)
    (few : far.length + near.length < 8) :
    (opened own front far near).add now node =
      if own.commonBits node.contact.id ≤ front.length then opened own front (far ++ [node]) near
      else opened own front far (near ++ [node]) := by
  refine Eq.trans (add_of_room (of_decide_eq_true pingable) other ?_ ?_)
    (modifyBucket_opened (· ++ [node]) deep)
  · rw [bucketOf_opened deep]
    split
    · exact unknown.1
    · exact unknown.2
  · rw [bucketOf_opened deep]
    split <;> omega

/-- The induction is on those that are still to be poured out.  Neither of the two new buckets is
full before they are through, since all came out of one, and none of them is there yet. -/
private theorem foldl_add_opened {front : List Bucket} {rest near far : Bucket}
    (pingable : ∀ node ∈ rest, node.isPingable now = true)
    (others : ∀ node ∈ rest, node.contact.id ≠ own)
    (deep : ∀ node ∈ rest, front.length ≤ own.commonBits node.contact.id)
    (few : far.length + near.length + rest.length ≤ 8)
    (distinct : rest.Pairwise fun a b => b.contact.id ≠ a.contact.id)
    (apart : ∀ node ∈ rest, node.contact.id ∉ far.ids ∧ node.contact.id ∉ near.ids) :
    rest.foldl (fun (t : Table) node => t.add now node) (opened own front far near) =
      opened own front
        (far ++ rest.filter fun node => own.commonBits node.contact.id ≤ front.length)
        (near ++ rest.filter fun node =>
          !decide (own.commonBits node.contact.id ≤ front.length)) := by
  induction rest generalizing far near with
  | nil => rw [List.foldl_nil, List.filter_nil, List.filter_nil, List.append_nil, List.append_nil]
  | cons node rest ih =>
    rcases List.forall_mem_cons.mp pingable with ⟨hPingable, pingables⟩
    rcases List.forall_mem_cons.mp others with ⟨hOther, others⟩
    rcases List.forall_mem_cons.mp deep with ⟨hDeep, deep⟩
    rcases List.forall_mem_cons.mp apart with ⟨hUnknown, apart⟩
    rcases List.pairwise_cons.mp distinct with ⟨hNew, distinct⟩
    rw [List.length_cons] at few
    rw [List.foldl_cons, add_opened hPingable hOther hDeep hUnknown (by omega)]
    by_cases here : own.commonBits node.contact.id ≤ front.length
    · have hFew : (far ++ [node]).length + near.length + rest.length ≤ 8 := by
        rw [List.length_append, List.length_singleton]
        omega
      have hApart := fun n (member : n ∈ rest) =>
        And.intro (Bucket.not_mem_ids_append (apart n member).1 (hNew n member)) (apart n member).2
      rw [if_pos here, ih pingables others deep hFew distinct hApart]
      simp [here]
    · have hFew : far.length + (near ++ [node]).length + rest.length ≤ 8 := by
        rw [List.length_append, List.length_singleton]
        omega
      have hApart := fun n (member : n ∈ rest) =>
        And.intro (apart n member).1 (Bucket.not_mem_ids_append (apart n member).2 (hNew n member))
      rw [if_neg here, ih pingables others deep hFew distinct hApart]
      simp [here]

/-- Bad nodes are not taken in. -/
theorem foldl_add_pingable (nodes : List Node) :
    nodes.foldl (fun (t : Table) node => t.add now node) t =
      (nodes.filter (·.isPingable now)).foldl (fun (t : Table) node => t.add now node) t := by
  induction nodes generalizing t with
  | nil => rfl
  | cons node nodes ih =>
    rw [List.foldl_cons, List.filter_cons]
    split
    next => exact ih
    next bad =>
      rw [Node.isPingable, decide_eq_true_eq, Decidable.not_not] at bad
      rw [Table.add, if_pos (.inl bad)]
      exact ih

/-- A split is nothing else than to take all nodes of the last bucket in anew: each of them finds
room. -/
theorem Sorted.pour_eq_split (sorted : Sorted own t) : t.pour now = t.split now := by
  have hLast : t.buckets[t.front.length]? = some t.last := List.getElem?_concat_length
  have hBucket := (sorted.inOrder _ _ hLast).sublist
    (List.filter_sublist (p := fun node : Node => node.isPingable now))
  have hBelongs : ∀ node ∈ t.last.filter (·.isPingable now),
      node.contact.id ≠ t.own ∧ t.front.length ≤ t.own.commonBits node.contact.id := by
    intro node member
    have hNode := hBucket.member _ (Bucket.mem_ids member)
    rw [Belongs, placement, length_buckets, ← sorted.same] at hNode
    exact ⟨hNode.1, by omega⟩
  have hDistinct := hBucket.distinct
  rw [Bucket.ids, List.Nodup, List.pairwise_map] at hDistinct
  have hPoured := @foldl_add_opened t.own now t.front _ [] []
    (fun node member => (List.mem_filter.mp member).2) (fun node member => (hBelongs node member).1)
    (fun node member => (hBelongs node member).2) (by simpa using hBucket.room)
    (hDistinct.imp fun apart => apart.symm) (fun _ _ => ⟨List.not_mem_nil, List.not_mem_nil⟩)
  rw [pour, foldl_add_pingable]
  exact hPoured

/-- What becomes of a newcomer, however often its bucket is split. -/
theorem Sorted.admission_place (sorted : Sorted own t) (useful : newcomer.status now ≠ .bad)
    (unknown : ∀ node ∈ t.nodes, node.contact.id ≠ newcomer.contact.id) :
    Admission now newcomer t (t.place now newcomer) := by
  induction rooms : maxBuckets - t.front.length generalizing t with
  | zero => exact absurd sorted.few (Nat.not_lt_of_le (Nat.le_of_sub_eq_zero rooms))
  | succ rooms ih =>
    have hHome := getElem?_placement t newcomer.contact.id
    have hUnknown : newcomer.contact.id ∉ (t.bucketOf newcomer.contact.id).ids := by
      intro known
      rcases List.mem_map.mp known with ⟨node, member, same⟩
      exact unknown node (mem_nodes_of_bucketOf member) same
    by_cases splits : (t.bucketOf newcomer.contact.id).add? now newcomer = none ∧
        t.Splittable newcomer.contact.id
    · rcases splits with ⟨full, splittable⟩
      rcases Bucket.resists_of_add? useful hUnknown (sorted.inOrder _ _ hHome).room full with
        ⟨eight, resists⟩
      have hSame := @perm_nodes_split t now fun node member =>
        resists.isPingable useful (bucketOf_of_back splittable.1 ▸ member)
      have hSplit : Sorted own (t.split now) := sorted.split splittable.2
      have hRest := ih hSplit
        (fun node member => unknown node (mem_of_mem_split member))
        (by rw [length_front_split]; omega)
      rw [place_of_splittable full splittable]
      generalize (t.split now).place now newcomer = after at hRest ⊢
      rw [← sorted.pour_eq_split] at hRest hSame
      cases hRest with
      | entered divided room enters gains =>
        exact .entered (.step eight splittable divided) room enters (gains.trans (hSame.cons _))
      | displaced victim gives =>
        have hVictim : victim ∈ t.bucketOf newcomer.contact.id := by
          apply mem_bucketOf_split splittable.1
          rw [← sorted.pour_eq_split]
          exact gives.member
        exact absurd gives.worse (Nat.not_lt_of_le (resists victim hVictim))
      | refused divided keeps eightLeft resistsLeft whole =>
        exact .refused (.step eight splittable divided) (keeps.trans hSame) eightLeft resistsLeft
          whole
    · rw [place_eq_fit (not_and.mp splits)]
      exact sorted.admission_fit useful hUnknown (not_and.mp splits)

/-- A newcomer comes in at no one's expense, or in place of the one node of its bucket that gives way
to it, or not at all; whoever is not displaced is still known, and nothing else is known of it. -/
theorem admission_add (reachable : Reachable own t) (useful : newcomer.status now ≠ .bad)
    (unknown : ∀ node ∈ t.nodes, node.contact.id ≠ newcomer.contact.id)
    (other : newcomer.contact.id ≠ own) : Admission now newcomer t (t.add now newcomer) := by
  have hSorted := reachable.sorted
  rw [Table.add, if_neg (not_or.mpr ⟨useful, hSorted.same ▸ other⟩)]
  exact hSorted.admission_place useful unknown

/-- The case of a node that has eight neighbours by hearsay, which fill a bucket that could still be
split, and then comes to know a ninth one that is good. -/
theorem admission_add_ninth :
    Admission 0 (.good 0 ⟨⟨9⟩, ⟨.v4 9, 1⟩⟩)
      (({ own := .zero } : Table).learnAll 0
        ([1, 2, 3, 4, 5, 6, 7, 8].map fun i => ⟨⟨BitVec.ofNat 160 i⟩, ⟨.v4 1, 1⟩⟩))
      ((({ own := .zero } : Table).learnAll 0
        ([1, 2, 3, 4, 5, 6, 7, 8].map fun i => ⟨⟨BitVec.ofNat 160 i⟩, ⟨.v4 1, 1⟩⟩)).add 0
        (.good 0 ⟨⟨9⟩, ⟨.v4 9, 1⟩⟩)) :=
  admission_add (.learnAll 0 _ .new) (by decide) (by decide +kernel) (by decide)

end Table
end Routing
end Kademlia
