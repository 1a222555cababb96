import Kademlia.Proofs.LocalNode.Course
import Kademlia.Proofs.LocalNode.Findings
import Mathlib.Data.List.Induction

namespace Kademlia

/-!
# Every peer is reported once

A lookup for peers takes up what the responses to its queries bring, whichever they are and in
whatever order they come.  What it has found agrees with what has happened to it
(`Findings.Recalled`), so that a peer is new to it if and only if nobody has brought it before.  The
application is told about those that are new, and so is the search that waits for them
(`Findings.Carries`).  A stream that is opened once never serves two lookups
(`Findings.Exclusive`).
-/

namespace Findings

variable {pursued : LookupId → Errand → Prop} {brought : LookupId → Address → Prop}
  {f g : Findings} {asked : List StreamId} {o : Offer}

/-! ## What a lookup remembers -/

/-- The findings agree with what has happened: with the errands that lookups were seen on, and the
peers that they were brought. -/
structure Recalled (pursued : LookupId → Errand → Prop) (brought : LookupId → Address → Prop)
    (f : Findings) : Prop where
  distinct : (f.searches.map (·.1)).Nodup
  started : ∀ entry ∈ f.searches, entry.1.number < f.started
  began : ∀ k errand, pursued k errand → k.number < f.started
  sole : ∀ k errand other, pursued k errand → pursued k other → errand = other
  same : ∀ entry ∈ f.searches, ∀ errand, pursued entry.1 errand → errand = entry.2.errand
  heard : ∀ k peer, brought k peer → ∃ errand, pursued k errand
  known : ∀ entry ∈ f.searches, entry.2.errand.kind = .getPeers →
    ∀ peer, peer ∈ entry.2.found ↔ brought entry.1 peer

namespace Recalled

/-- What was passed on does not matter. -/
theorem elsewhere (recalled : Recalled pursued brought f) (yields : List (StreamId × Address))
    (notices : List (InfoHash × Address)) :
    Recalled pursued brought { f with yields, notices } :=
  ⟨recalled.distinct, recalled.started, recalled.began, recalled.sole, recalled.same,
    recalled.heard, recalled.known⟩

/-- A lookup that begins was never seen before. -/
theorem launch (recalled : Recalled pursued brought f) (errand : Errand) :
    Recalled pursued brought (f.launch errand) where
  distinct := by
    refine nodup_keys_append recalled.distinct fun before => ?_
    rcases List.mem_map.mp before with ⟨entry, member, same⟩
    have hBefore := recalled.started entry member
    rw [same] at hBefore
    exact Nat.lt_irrefl _ hBefore
  started entry member := by
    rcases List.mem_append.mp member with before | new
    · exact Nat.lt_succ_of_lt (recalled.started entry before)
    · rw [List.mem_singleton.mp new]
      exact Nat.lt_succ_self _
  began k errand before := Nat.lt_succ_of_lt (recalled.began k errand before)
  sole := recalled.sole
  same entry member other before := by
    rcases List.mem_append.mp member with old | new
    · exact recalled.same entry old other before
    · rw [List.mem_singleton.mp new] at before
      exact absurd (recalled.began _ other before) (Nat.lt_irrefl _)
  heard := recalled.heard
  known entry member kind peer := by
    rcases List.mem_append.mp member with old | new
    · exact recalled.known entry old kind peer
    · rw [List.mem_singleton.mp new]
      refine iff_of_false List.not_mem_nil fun before => ?_
      rcases recalled.heard _ peer before with ⟨other, seen⟩
      exact Nat.lt_irrefl _ (recalled.began _ other seen)

theorem drop (recalled : Recalled pursued brought f) {searches : List (LookupId × Search)}
    (queued : List Sink) (fewer : List.Sublist searches f.searches) :
    Recalled pursued brought { f with searches, queued } where
  distinct := recalled.distinct.sublist (fewer.map _)
  started entry member := recalled.started entry (fewer.subset member)
  began := recalled.began
  sole := recalled.sole
  same entry member := recalled.same entry (fewer.subset member)
  heard := recalled.heard
  known entry member := recalled.known entry (fewer.subset member)

theorem moved (recalled : Recalled pursued brought f) (moved : Moved f asked g) :
    Recalled pursued brought g := by
  induction moved with
  | refl => exact recalled
  | ask _ _ ih => exact ih.drop _ (List.Sublist.refl _)
  | launch errand _ _ ih => exact (ih.drop _ (List.Sublist.refl _)).launch errand
  | drop _ fewer _ ih => exact ih.drop _ fewer

/-- The lookups in progress are seen on their errands. -/
theorem note (recalled : Recalled pursued brought f) :
    Recalled (fun k errand => pursued k errand ∨
      ∃ search, (k, search) ∈ f.searches ∧ search.errand = errand) brought f where
  distinct := recalled.distinct
  started := recalled.started
  began k errand seen := by
    rcases seen with before | ⟨search, member, -⟩
    · exact recalled.began k errand before
    · exact recalled.started _ member
  sole := by
    rintro k errand other (before | ⟨search, member, rfl⟩) (earlier | ⟨search', member', rfl⟩)
    · exact recalled.sole k errand other before earlier
    · exact recalled.same _ member' errand before
    · exact (recalled.same _ member other earlier).symm
    · rw [Prod.mk.inj (eq_of_nodup_map recalled.distinct member member' rfl) |>.2]
  same entry member errand seen := by
    rcases seen with before | ⟨search, member', rfl⟩
    · exact recalled.same entry member errand before
    · rw [← eq_of_nodup_map recalled.distinct member' member rfl]
  heard k peer before := by
    rcases recalled.heard k peer before with ⟨errand, seen⟩
    exact ⟨errand, .inl seen⟩
  known := recalled.known

/-- A lookup that takes up an offer has found what was brought to it. -/
theorem report (recalled : Recalled pursued brought f) (among : (o.id, o.search) ∈ f.searches)
    (seen : pursued o.id o.search.errand) :
    Recalled pursued (fun k peer => brought k peer ∨ k = o.id ∧ peer ∈ o.values) (f.report o) := by
  have hKeys : (f.report o).searches.map (·.1) = f.searches.map (·.1) :=
    map_modifyFirst fun _ _ => rfl
  have hChanged : ∀ entry ∈ (f.report o).searches, (entry ∈ f.searches ∧ entry.1 ≠ o.id) ∨
      entry = (o.id, { o.search with found := o.search.found ++ o.news }) := fun _ =>
    mem_modifyFirst_of_entered (fun search => { search with found := search.found ++ o.news })
      recalled.distinct among
  have hDistinct := recalled.distinct
  rw [← hKeys] at hDistinct
  refine ⟨hDistinct, fun entry member => ?_, recalled.began, recalled.sole,
    fun entry member errand before => ?_, fun k peer bring => ?_, fun entry member kind peer => ?_⟩
  · rcases hChanged entry member with ⟨old, -⟩ | rfl
    · exact recalled.started entry old
    · exact recalled.started (o.id, o.search) among
  · rcases hChanged entry member with ⟨old, -⟩ | rfl
    · exact recalled.same entry old errand before
    · exact recalled.same _ among errand before
  · rcases bring with before | ⟨rfl, -⟩
    · exact recalled.heard k peer before
    · exact ⟨_, seen⟩
  · rcases hChanged entry member with ⟨old, another⟩ | rfl
    · rw [recalled.known entry old kind]
      exact (or_iff_left fun bring => another bring.1).symm
    · have hKnown := recalled.known _ among kind peer
      change o.search.errand.kind = .getPeers at kind
      rw [List.mem_append, hKnown, Offer.news, kind, Lookup.news, Lookup.mem_newPeers, hKnown]
      by_cases before : brought o.id peer <;> simp [before]

/-- What is new to a lookup was not brought to it before. -/
theorem new (recalled : Recalled pursued brought f) (among : (o.id, o.search) ∈ f.searches)
    {peer : Address} (new : peer ∈ o.news) :
    o.search.errand.kind = .getPeers ∧ peer ∈ o.values ∧ ¬ brought o.id peer := by
  cases kind : o.search.errand.kind with
  | findNode =>
    rw [Offer.news, kind] at new
    cases new
  | getPeers =>
    rw [Offer.news, kind, Lookup.news, Lookup.mem_newPeers, recalled.known _ among kind] at new
    exact ⟨rfl, new⟩

end Recalled
/-! ## Streams -/

/-- Where the results of the lookups in progress go. -/
def sinks (f : Findings) : List (LookupId × Sink) :=
  f.searches.map fun entry => (entry.1, entry.2.errand.sink)

/-- A stream that was opened some times is in as many hands at most, and once a lookup was seen that
serves it, no other is about to. -/
structure Exclusive (stream : StreamId) (pursued : LookupId → Errand → Prop) (opened : Nat)
    (f : Findings) : Prop where
  few : f.queued.count (.peers stream) + (f.sinks.map (·.2)).count (.peers stream) ≤ opened
  spent : ∀ k errand, pursued k errand → errand.sink = .peers stream → 0 < opened ∧
    .peers stream ∉ f.queued ∧ ∀ entry ∈ f.sinks, entry.2 = .peers stream → entry.1 = k
  sole : ∀ k other errand errand', pursued k errand → errand.sink = .peers stream →
    pursued other errand' → errand'.sink = .peers stream → k = other

namespace Exclusive

variable {stream : StreamId} {opened : Nat}

theorem elsewhere (exclusive : Exclusive stream pursued opened f)
    (yields : List (StreamId × Address)) (notices : List (InfoHash × Address)) :
    Exclusive stream pursued opened { f with yields, notices } :=
  ⟨exclusive.few, exclusive.spent, exclusive.sole⟩

/-- Another stream may be asked for at any time, but this one only if it was not opened before. -/
theorem ask (exclusive : Exclusive stream pursued opened f) (sink : Sink)
    (once : opened + sink.stream?.toList.count stream ≤ 1) :
    Exclusive stream pursued (opened + sink.stream?.toList.count stream)
      { f with queued := f.queued ++ [sink] } := by
  have hCount : sink.stream?.toList.count stream = [sink].count (.peers stream) := by
    cases sink <;> simp [Sink.stream?, List.count_singleton]
  have hFew := exclusive.few
  rw [hCount] at once ⊢
  refine ⟨?_, fun k errand seen serves => ?_, exclusive.sole⟩
  · rw [List.count_append]
    change _ + _ + (f.sinks.map (·.2)).count (.peers stream) ≤ _
    omega
  · rcases exclusive.spent k errand seen serves with ⟨before, gone, only⟩
    refine ⟨Nat.lt_of_lt_of_le before (Nat.le_add_right ..), fun queued => ?_, only⟩
    rcases List.mem_append.mp queued with old | new
    · exact gone old
    · have hNew := List.count_pos_iff.mpr new
      omega

/-- A lookup begins to serve a stream that was kept waiting, and nobody has done so before. -/
theorem launch (exclusive : Exclusive stream pursued opened f) {before after : List Sink}
    (errand : Errand) (queued : f.queued = before ++ errand.sink :: after) :
    Exclusive stream pursued opened
      (Findings.launch { f with queued := before ++ after } errand) := by
  have hSinks : (Findings.launch { f with queued := before ++ after } errand).sinks =
      f.sinks ++ [(⟨f.started⟩, errand.sink)] := by
    rw [sinks, Findings.launch, List.map_append]
    rfl
  have hMember : ∀ sink ∈ before ++ after, sink ∈ f.queued := by
    intro sink among
    rw [queued, List.mem_append, List.mem_cons]
    exact (List.mem_append.mp among).imp_right .inr
  refine ⟨?_, fun k other seen serves => ?_, exclusive.sole⟩
  · have hFew := exclusive.few
    have hQueued : (Findings.launch { f with queued := before ++ after } errand).queued =
        before ++ after := rfl
    rw [hSinks, hQueued]
    simp only [queued, List.map_append, List.map_cons, List.map_nil, List.count_append,
      List.count_cons, List.count_nil] at hFew ⊢
    omega
  · rcases exclusive.spent k other seen serves with ⟨opened, gone, only⟩
    refine ⟨opened, fun among => gone (hMember _ among), fun entry member same => ?_⟩
    rw [hSinks] at member
    rcases List.mem_append.mp member with old | new
    · exact only entry old same
    · rw [List.mem_singleton.mp new] at same
      rw [queued, ← same] at gone
      exact absurd (List.mem_append_right before List.mem_cons_self) gone

theorem drop (exclusive : Exclusive stream pursued opened f)
    {searches : List (LookupId × Search)} {queued : List Sink}
    (fewer : List.Sublist searches f.searches) (less : List.Sublist queued f.queued) :
    Exclusive stream pursued opened { f with searches, queued } := by
  have hSinks : List.Sublist (sinks { f with searches, queued }) f.sinks := fewer.map _
  refine ⟨?_, fun k errand seen serves => ?_, exclusive.sole⟩
  · have hQueued := less.count_le (.peers stream)
    have hServed := (hSinks.map (·.2)).count_le (.peers stream)
    have hFew := exclusive.few
    dsimp only
    omega
  · rcases exclusive.spent k errand seen serves with ⟨opened, gone, only⟩
    exact ⟨opened, fun among => gone (less.subset among), fun entry member =>
      only entry (hSinks.subset member)⟩

theorem moved (exclusive : Exclusive stream pursued opened f) (moved : Moved f asked g)
    (once : opened + asked.count stream ≤ 1) :
    Exclusive stream pursued (opened + asked.count stream) g := by
  induction moved with
  | refl => exact exclusive
  | ask sink _ ih =>
    rw [List.count_append, ← Nat.add_assoc] at once ⊢
    exact (ih (Nat.le_trans (Nat.le_add_right ..) once)).ask sink once
  | launch errand _ queued ih => exact (ih once).launch errand queued
  | drop _ fewer less ih => exact (ih once).drop fewer less

/-- The one lookup in progress that serves the stream is seen to do so. -/
theorem note (exclusive : Exclusive stream pursued opened f) (once : opened ≤ 1) :
    Exclusive stream (fun k errand => pursued k errand ∨
      ∃ search, (k, search) ∈ f.searches ∧ search.errand = errand) opened f := by
  have hServes : ∀ k search, (k, search) ∈ f.searches → search.errand.sink = .peers stream →
      (k, Sink.peers stream) ∈ f.sinks := by
    intro k search member serves
    exact List.mem_map.mpr ⟨(k, search), member, by rw [← serves]⟩
  have hFew := exclusive.few
  refine ⟨hFew, ?_, ?_⟩
  · rintro k errand (before | ⟨search, member, rfl⟩) serves
    · exact exclusive.spent k errand before serves
    · have hMember := hServes k search member serves
      have hServed : 0 < (f.sinks.map (·.2)).count (.peers stream) :=
        List.count_pos_iff.mpr (List.mem_map_of_mem hMember)
      refine ⟨by omega, fun queued => ?_, ?_⟩
      · have hQueued := List.count_pos_iff.mpr queued
        omega
      · rintro ⟨other, sink⟩ among rfl
        exact key_eq_of_count_le_one (by omega) among hMember
  · rintro k other errand errand' (before | ⟨search, member, rfl⟩) serves
      (earlier | ⟨search', member', rfl⟩) serves'
    · exact exclusive.sole k other errand errand' before serves earlier serves'
    · exact ((exclusive.spent k errand before serves).2.2 _
        (hServes other search' member' serves') rfl).symm
    · exact (exclusive.spent other errand' earlier serves').2.2 _ (hServes k search member serves) rfl
    · exact key_eq_of_count_le_one (by omega) (hServes k search member serves)
        (hServes other search' member' serves')

theorem report (exclusive : Exclusive stream pursued opened f) :
    Exclusive stream pursued opened (f.report o) := by
  have hSinks : (f.report o).sinks = f.sinks := map_modifyFirst fun _ _ => rfl
  refine ⟨?_, ?_, exclusive.sole⟩
  · rw [hSinks]
    exact exclusive.few
  · rw [hSinks]
    exact exclusive.spent

end Exclusive

/-! ## What is passed on -/

/-- The peers that were passed on, from certain lookups: each was brought to one of them and is not
the node itself, and none was left out. -/
structure Carries (fed : LookupId → Errand → Bool) (pursued : LookupId → Errand → Prop)
    (brought : LookupId → Address → Prop) (own : Address → Bool) (peers : List Address) : Prop where
  sound : ∀ peer ∈ peers, own peer = false ∧
    ∃ k errand, fed k errand = true ∧ pursued k errand ∧ brought k peer
  complete : ∀ k errand peer, fed k errand = true → pursued k errand →
    errand.kind = .getPeers → brought k peer → own peer = false → peer ∈ peers
  /-- If they are from one lookup, none was passed on twice. -/
  once : (∀ k other errand errand', fed k errand = true → pursued k errand →
    fed other errand' = true → pursued other errand' → k = other) → peers.Nodup

namespace Carries

variable {fed : LookupId → Errand → Bool} {own : Address → Bool} {peers : List Address}

/-- Nothing was brought to a lookup before it was seen. -/
theorem note {seen : LookupId → Errand → Prop} (carries : Carries fed pursued brought own peers)
    (recalled : Recalled pursued brought f) (more : Recalled seen brought g)
    (wider : ∀ k errand, pursued k errand → seen k errand) :
    Carries fed seen brought own peers where
  sound peer among := by
    rcases carries.sound peer among with ⟨other, k, errand, feeds, before, brings⟩
    exact ⟨other, k, errand, feeds, wider k errand before, brings⟩
  complete k errand peer feeds now kind brings := by
    rcases recalled.heard k peer brings with ⟨errand', before⟩
    rcases more.sole k errand errand' now (wider k errand' before) with rfl
    exact carries.complete k errand peer feeds before kind brings
  once one := carries.once fun k other errand errand' feeds before feeds' before' =>
    one k other errand errand' feeds (wider k errand before) feeds' (wider other errand' before')

/-- What is new in an offer is passed on. -/
theorem report (carries : Carries fed pursued brought own peers)
    (recalled : Recalled pursued brought f) (among : (o.id, o.search) ∈ f.searches)
    (seen : pursued o.id o.search.errand) :
    Carries fed pursued (fun k peer => brought k peer ∨ k = o.id ∧ peer ∈ o.values) own
      (peers ++ if fed o.id o.search.errand then o.news.filter fun peer => !own peer else []) := by
  have hNew : ∀ peer ∈ (if fed o.id o.search.errand then o.news.filter fun peer => !own peer
      else []), fed o.id o.search.errand = true ∧ peer ∈ o.news ∧ own peer = false := by
    intro peer member
    split at member
    next feeds =>
      rcases List.mem_filter.mp member with ⟨new, other⟩
      exact ⟨feeds, new, Bool.not_eq_true' _ ▸ other⟩
    next => cases member
  refine ⟨fun peer member => ?_, fun k errand peer feeds before kind brings other => ?_,
    fun one => ?_⟩
  · rcases List.mem_append.mp member with old | new
    · rcases carries.sound peer old with ⟨other, k, errand, feeds, before, brings⟩
      exact ⟨other, k, errand, feeds, before, .inl brings⟩
    · rcases hNew peer new with ⟨feeds, fresh, other⟩
      exact ⟨other, o.id, o.search.errand, feeds, seen, .inr ⟨rfl, (recalled.new among fresh).2.1⟩⟩
  · by_cases earlier : brought k peer
    · exact List.mem_append_left _ (carries.complete k errand peer feeds before kind earlier other)
    · rcases brings.resolve_left earlier with ⟨rfl, value⟩
      rcases recalled.sole o.id errand o.search.errand before seen with rfl
      have hFresh : peer ∈ o.news := by
        rw [Offer.news, kind, Lookup.news, Lookup.mem_newPeers, recalled.known _ among kind]
        exact ⟨value, earlier⟩
      rw [if_pos feeds]
      exact List.mem_append_right _ (List.mem_filter.mpr ⟨hFresh, by rw [other]; rfl⟩)
  · refine List.nodup_append.mpr ⟨carries.once one, ?_, ?_⟩
    · split
      · exact (Lookup.nodup_news ..).filter _
      · exact List.nodup_nil
    · rintro peer old _ new rfl
      rcases hNew peer new with ⟨feeds, fresh, -⟩
      rcases carries.sound peer old with ⟨-, k, errand, feeds', before, brings⟩
      rcases one k o.id errand _ feeds' before feeds seen with rfl
      exact (recalled.new among fresh).2.2 brings

/-- What is passed on from one lookup for peers alone. -/
theorem exact_of_one {k : LookupId} {errand : Errand}
    (carries : Carries fed pursued brought own peers) (feeds : fed k errand = true)
    (seen : pursued k errand) (kind : errand.kind = .getPeers)
    (one : ∀ other errand', fed other errand' = true → pursued other errand' → other = k) :
    peers.Nodup ∧ ∀ peer, peer ∈ peers ↔ brought k peer ∧ own peer = false := by
  refine ⟨carries.once fun first second errand' other feeds' seen' feeds'' seen'' => ?_,
    fun peer => ⟨fun among => ?_, fun brings => ?_⟩⟩
  · exact (one first errand' feeds' seen').trans (one second other feeds'' seen'').symm
  · rcases carries.sound peer among with ⟨notOwn, other, errand', feeds', seen', brings⟩
    rw [one other errand' feeds' seen'] at brings
    exact ⟨brings, notOwn⟩
  · exact carries.complete k errand peer feeds seen kind brings.1 brings.2

end Carries
end Findings

namespace LocalNode

open Findings (Recalled Exclusive Carries)

variable {n : LocalNode} {env : Surroundings} {pursued : LookupId → Errand → Prop}
  {brought : LookupId → Address → Prop}

/-! ## One event -/

/-- A lookup is in progress, on an errand. -/
def Pursues (k : LookupId) (errand : Errand) (n : LocalNode) (_ : Surroundings) (_ : Event) : Prop :=
  ∃ active, (k, active) ∈ n.lookups ∧ active.errand = errand

/-- A response to a query of a lookup, which waits for it, brings a peer. -/
def Brings (k : LookupId) (peer : Address) (n : LocalNode) (_ : Surroundings) (event : Event) :
    Prop :=
  ∃ o, n.offer? event = some o ∧ o.id = k ∧ peer ∈ o.values

theorem pursues_iff {k : LookupId} {errand : Errand} {event : Event} :
    Pursues k errand n env event ↔
      ∃ search, (k, search) ∈ n.findings.searches ∧ search.errand = errand := by
  constructor
  · rintro ⟨active, member, same⟩
    exact ⟨active.search, List.mem_map_of_mem member, same⟩
  · rintro ⟨search, member, same⟩
    rcases List.mem_map.mp member with ⟨⟨k', active⟩, entered, pair⟩
    rcases Prod.mk.inj pair with ⟨rfl, rfl⟩
    exact ⟨active, entered, same⟩

theorem brings_iff_of_offer {k : LookupId} {peer : Address} {event : Event} {o : Offer}
    (offered : n.offer? event = some o) :
    Brings k peer n env event ↔ k = o.id ∧ peer ∈ o.values := by
  constructor
  · rintro ⟨other, same, rfl, value⟩
    rcases Option.some.inj (offered.symm.trans same) with rfl
    exact ⟨rfl, value⟩
  · rintro ⟨rfl, value⟩
    exact ⟨o, offered, rfl, value⟩

theorem not_brings {k : LookupId} {peer : Address} {event : Event} (none : n.offer? event = none) :
    ¬ Brings k peer n env event := by
  rintro ⟨o, offered, -⟩
  rw [none] at offered
  cases offered

/-- The peers that are passed on at an event, from certain lookups. -/
def passedOn (fed : LookupId → Errand → Bool) (n : LocalNode) (_ : Surroundings) (event : Event) :
    List Address :=
  (n.offer? event).elim [] fun o =>
    if fed o.id o.search.errand then o.news.filter fun peer => !n.isOwnEndpoint peer else []

theorem recalled_seen (recalled : Recalled pursued brought n.findings) (event : Event) :
    Recalled (fun k errand => pursued k errand ∨ Pursues k errand n env event) brought
      n.findings := by
  simp only [pursues_iff]
  exact recalled.note

theorem recalled_step (recalled : Recalled pursued brought n.findings) (event : Event) :
    Recalled (fun k errand => pursued k errand ∨ Pursues k errand n env event)
      (fun k peer => brought k peer ∨ Brings k peer n env event)
      (n.step env event).findings := by
  have hSeen := @recalled_seen n env _ _ recalled event
  cases heeded_step env n event with
  | offered o offered moved =>
    have hAmong := mem_searches_of_offer? offered
    have hReported := (hSeen.elsewhere [] []).report hAmong
      (.inr (pursues_iff.mpr ⟨o.search, hAmong, rfl⟩))
    simp only [brings_iff_of_offer offered]
    exact hReported.moved moved
  | passed notices none moved =>
    simp only [not_brings none, or_false]
    exact (hSeen.elsewhere [] notices).moved moved

theorem exclusive_step {stream : StreamId} {opened : Nat}
    (exclusive : Exclusive stream pursued opened n.findings) (event : Event)
    (once : opened + event.streams.count stream ≤ 1) :
    Exclusive stream (fun k errand => pursued k errand ∨ Pursues k errand n env event)
      (opened + event.streams.count stream) (n.step env event).findings := by
  have hSeen := exclusive.note (Nat.le_trans (Nat.le_add_right ..) once)
  simp only [pursues_iff]
  cases heeded_step env n event with
  | offered o offered moved => exact (hSeen.elsewhere [] []).report.moved moved once
  | passed notices none moved => exact (hSeen.elsewhere [] notices).moved moved once

theorem carries_step {fed : LookupId → Errand → Bool} {peers : List Address}
    (carries : Carries fed pursued brought n.isOwnEndpoint peers)
    (recalled : Recalled pursued brought n.findings) (event : Event) :
    Carries fed (fun k errand => pursued k errand ∨ Pursues k errand n env event)
      (fun k peer => brought k peer ∨ Brings k peer n env event) n.isOwnEndpoint
      (peers ++ passedOn fed n env event) := by
  have hSeen := @recalled_seen n env _ _ recalled event
  have hNoted := carries.note recalled hSeen fun _ _ => .inl
  cases offered : n.offer? event with
  | some o =>
    have hAmong := mem_searches_of_offer? offered
    simp only [passedOn, offered, brings_iff_of_offer offered]
    exact hNoted.report hSeen hAmong (.inr (pursues_iff.mpr ⟨o.search, hAmong, rfl⟩))
  | none =>
    simp only [passedOn, offered, not_brings offered, or_false]
    rw [Option.elim_none, List.append_nil]
    exact hNoted

/-! ## Who is told -/

/-- The peers that the application is told about at an event, if it brings a response to a lookup. -/
def noticesOf (k : LookupId) (n : LocalNode) (env : Surroundings) (event : Event) :
    List (InfoHash × Address) :=
  if (n.offer? event).map (·.id) = some k then
    (n.step env event).outbox.filterMap Effect.peerFound?
  else []

theorem map_noticesOf (k : LookupId) (n : LocalNode) (env : Surroundings) (event : Event) :
    (noticesOf k n env event).map (·.2) = passedOn (fun other _ => other = k) n env event := by
  rw [noticesOf, passedOn]
  cases heeded_step env n event with
  | offered o offered moved =>
    have hNotices : (n.step env event).outbox.filterMap Effect.peerFound? = _ := moved.same.2.2
    rw [offered, hNotices]
    by_cases here : o.id = k <;>
      simp [here, Findings.report, Findings.tell, findings, Function.comp_def]
  | passed notices none moved => simp [none]

/-- The application is told what the peers were looked for under. -/
theorem target_of_noticesOf {k : LookupId} {event : Event} {infoHash : InfoHash} {peer : Address}
    (told : (infoHash, peer) ∈ noticesOf k n env event) :
    ∃ errand, Pursues k errand n env event ∧ infoHash = errand.target := by
  rw [noticesOf] at told
  cases heeded_step env n event with
  | offered o offered moved =>
    have hNotices : (n.step env event).outbox.filterMap Effect.peerFound? = _ := moved.same.2.2
    rw [offered, hNotices] at told
    split at told
    next here =>
      rcases Option.some.inj here with rfl
      refine ⟨o.search.errand, pursues_iff.mpr ⟨o.search, mem_searches_of_offer? offered, rfl⟩, ?_⟩
      rcases List.mem_map.mp told with ⟨other, -, same⟩
      exact (Prod.mk.inj same).1.symm
    next => cases told
  | passed notices none moved =>
    rw [none] at told
    cases told

theorem yielded_step (stream : StreamId) (n : LocalNode) (env : Surroundings) (event : Event) :
    (n.step env event).outbox.filterMap (Effect.yieldedTo? stream) =
      passedOn (fun _ errand => errand.sink = .peers stream) n env event := by
  have hFilter : (n.step env event).outbox.filterMap (Effect.yieldedTo? stream) =
      (n.step env event).findings.yields.filterMap
        fun yield => if yield.1 = stream then some yield.2 else none :=
    List.filterMap_filterMap.symm
  rw [hFilter, passedOn]
  cases heeded_step env n event with
  | offered o offered moved =>
    rw [offered, moved.same.2.1]
    have hStream : ∀ peer : Address, (o.search.errand.sink.stream?.map (·, peer)).bind
        (fun yield => if yield.1 = stream then some yield.2 else none) =
          if o.search.errand.sink = .peers stream then some peer else none := by
      intro peer
      cases o.search.errand.sink <;> simp [Sink.stream?]
    simp only [Findings.report, Findings.tell, List.nil_append, List.filterMap_filterMap, hStream]
    split <;> simp [findings, *]
  | passed notices none moved => simp [none, moved.same.2.1]

/-! ## All events -/

/-- What there is at each of the events that a node goes through, one after another. -/
def gather {α : Type} (what : LocalNode → Surroundings → Event → List α) (n : LocalNode) :
    List (Surroundings × Event) → List α
  | [] => []
  | (env, event) :: events => what n env event ++ gather what (n.step env event) events

theorem gather_append {α : Type} (what : LocalNode → Surroundings → Event → List α)
    (n : LocalNode) (events : List (Surroundings × Event)) (env : Surroundings) (event : Event) :
    n.gather what (events ++ [(env, event)]) =
      n.gather what events ++ what (n.run events).2 env event := by
  induction events generalizing n with
  | nil => simp [gather, run]
  | cons first events ih =>
    rcases first with ⟨env', event'⟩
    rw [List.cons_append, gather, gather, ih, List.append_assoc, snd_run, snd_run, List.foldl_cons]

theorem map_gather {α β : Type} (project : α → β)
    (what : LocalNode → Surroundings → Event → List α) (n : LocalNode)
    (events : List (Surroundings × Event)) :
    (n.gather what events).map project =
      n.gather (fun n env event => (what n env event).map project) events := by
  induction events generalizing n with
  | nil => rfl
  | cons first events ih => rw [gather, gather, List.map_append, ih]

/-- What is told of all that a node has done is told event by event. -/
theorem filterMap_run {α : Type} (tell : Effect → Option α) (n : LocalNode)
    (events : List (Surroundings × Event)) :
    (n.run events).1.filterMap tell =
      n.gather (fun n env event => (n.step env event).outbox.filterMap tell) events := by
  induction events using List.reverseRecOn with
  | nil => rfl
  | append_singleton events last ih =>
    rcases last with ⟨env, event⟩
    rw [run_append, advance, List.filterMap_append, ih, gather_append]

theorem happened_of_mem_gather {α : Type} {what : LocalNode → Surroundings → Event → List α}
    {n : LocalNode} {events : List (Surroundings × Event)} {item : α}
    (among : item ∈ n.gather what events) :
    Happened (fun n env event => item ∈ what n env event) n events := by
  induction events using List.reverseRecOn with
  | nil => cases among
  | append_singleton events last ih =>
    rcases last with ⟨env, event⟩
    rw [gather_append] at among
    exact happened_append.mpr ((List.mem_append.mp among).imp_left ih)

theorem own_run (n : LocalNode) (events : List (Surroundings × Event)) :
    (n.run events).2.isOwnEndpoint = n.isOwnEndpoint := by
  induction events using List.reverseRecOn with
  | nil => rfl
  | append_singleton events last ih =>
    rcases last with ⟨env, event⟩
    rw [run_append, ← ih]
    cases heeded_step env (n.run events).2 event with
    | offered o _ moved => exact moved.same.1
    | passed notices _ moved => exact moved.same.1

/-- The peers that a node has passed on through a stream. -/
def yields (stream : StreamId) (n : LocalNode) (events : List (Surroundings × Event)) :
    List Address :=
  (n.run events).1.filterMap (Effect.yieldedTo? stream)

section Runs

variable (options : Options) (localAddress : Address) (now : Instant)
  (secrets : Draws (BitVec 32)) (firstTransaction : TransactionId)
  (events : List (Surroundings × Event))

theorem recalled_run :
    let n := start options localAddress now secrets firstTransaction
    Recalled (fun k errand => Happened (Pursues k errand) n events)
      (fun k peer => Happened (Brings k peer) n events) (n.run events).2.findings := by
  intro n
  induction events using List.reverseRecOn with
  | nil =>
    exact ⟨List.nodup_nil, nofun, fun _ _ seen => absurd seen not_happened_nil,
      fun _ _ _ seen => absurd seen not_happened_nil, nofun,
      fun _ _ brings => absurd brings not_happened_nil, nofun⟩
  | append_singleton events last ih =>
    rcases last with ⟨env, event⟩
    rw [run_append]
    simp only [happened_append]
    exact recalled_step ih event

theorem carries_run (fed : LookupId → Errand → Bool) :
    let n := start options localAddress now secrets firstTransaction
    Carries fed (fun k errand => Happened (Pursues k errand) n events)
      (fun k peer => Happened (Brings k peer) n events) n.isOwnEndpoint
      (n.gather (passedOn fed) events) := by
  intro n
  induction events using List.reverseRecOn with
  | nil =>
    exact ⟨nofun, fun _ _ _ _ seen => absurd seen not_happened_nil, fun _ => List.nodup_nil⟩
  | append_singleton events last ih =>
    rcases last with ⟨env, event⟩
    have hRecalled := recalled_run options localAddress now secrets firstTransaction events
    rw [← own_run n events] at ih
    have hCarried := @carries_step _ env _ _ fed _ ih hRecalled event
    rw [own_run] at hCarried
    rw [gather_append]
    simp only [happened_append]
    exact hCarried

theorem exclusive_run (stream : StreamId)
    (once : (events.flatMap (·.2.streams)).count stream ≤ 1) :
    let n := start options localAddress now secrets firstTransaction
    Exclusive stream (fun k errand => Happened (Pursues k errand) n events)
      ((events.flatMap (·.2.streams)).count stream) (n.run events).2.findings := by
  intro n
  induction events using List.reverseRecOn with
  | nil =>
    exact ⟨Nat.le_refl _, fun _ _ seen => absurd seen not_happened_nil,
      fun _ _ _ _ seen => absurd seen not_happened_nil⟩
  | append_singleton events last ih =>
    rcases last with ⟨env, event⟩
    rw [List.flatMap_append, List.count_append, List.flatMap_singleton] at once ⊢
    rw [run_append]
    simp only [happened_append]
    exact exclusive_step (ih (Nat.le_trans (Nat.le_add_right ..) once)) event once

variable {k : LookupId} {errand : Errand}

/-- The application is told about the peers that are brought to a lookup. -/
theorem notices_of_run
    (pursued : Happened (Pursues k errand)
      (start options localAddress now secrets firstTransaction) events)
    (kind : errand.kind = .getPeers) :
    let n := start options localAddress now secrets firstTransaction
    ((n.gather (noticesOf k) events).map (·.2)).Nodup ∧
      ∀ infoHash peer, (infoHash, peer) ∈ n.gather (noticesOf k) events ↔
        infoHash = errand.target ∧ Happened (Brings k peer) n events ∧
          n.isOwnEndpoint peer = false := by
  intro n
  have hRecalled := recalled_run options localAddress now secrets firstTransaction events
  have hCarries := (carries_run options localAddress now secrets firstTransaction events
    fun other _ => other = k).exact_of_one (decide_eq_true rfl) pursued kind
      fun _ _ same _ => of_decide_eq_true same
  have hPeers : (n.gather (noticesOf k) events).map (·.2) =
      n.gather (passedOn fun other _ => other = k) events := by
    rw [map_gather]
    simp only [map_noticesOf]
  have hTarget : ∀ infoHash peer, (infoHash, peer) ∈ n.gather (noticesOf k) events →
      infoHash = errand.target := by
    intro infoHash peer told
    rcases happened_of_mem_gather told with ⟨before, env, event, after, split, held⟩
    rcases target_of_noticesOf held with ⟨other, pursues, rfl⟩
    rw [hRecalled.sole k errand other pursued ⟨before, env, event, after, split, pursues⟩]
  change _ ∧ ∀ peer, peer ∈ n.gather (passedOn fun other _ => other = k) events ↔ _ at hCarries
  rw [← hPeers] at hCarries
  refine ⟨hCarries.1, fun infoHash peer => ⟨fun told => ?_, fun brings => ?_⟩⟩
  · exact ⟨hTarget infoHash peer told, (hCarries.2 peer).mp (List.mem_map_of_mem told)⟩
  · rcases List.mem_map.mp ((hCarries.2 peer).mpr brings.2) with ⟨⟨other, _⟩, told, rfl⟩
    rw [brings.1, ← hTarget other _ told]
    exact told

/-- A stream that is opened once carries the peers that are brought to its lookup. -/
theorem yields_of_run {stream : StreamId}
    (pursued : Happened (Pursues k errand)
      (start options localAddress now secrets firstTransaction) events)
    (kind : errand.kind = .getPeers) (serves : errand.sink = .peers stream)
    (once : (events.flatMap (·.2.streams)).count stream ≤ 1) :
    let n := start options localAddress now secrets firstTransaction
    (n.yields stream events).Nodup ∧ ∀ peer, peer ∈ n.yields stream events ↔
      Happened (Brings k peer) n events ∧ n.isOwnEndpoint peer = false := by
  intro n
  have hExclusive := exclusive_run options localAddress now secrets firstTransaction events
    stream once
  have hYields : n.yields stream events =
      n.gather (passedOn fun _ errand => errand.sink = .peers stream) events := by
    rw [yields, filterMap_run]
    simp only [yielded_step]
  rw [hYields]
  exact (carries_run options localAddress now secrets firstTransaction events
    fun _ errand => errand.sink = .peers stream).exact_of_one (decide_eq_true serves) pursued kind
      fun other errand' serves' pursued' =>
        hExclusive.sole other k errand' errand pursued' (of_decide_eq_true serves') pursued serves

end Runs

/-- A lookup for peers returns the peers that the answers to its queries list, each of them once.  The
node passes every one on but itself: it tells the application, and yields the peer to the stream of
the search that the lookup is for.  A stream that two searches shared would carry the peers of both. -/
theorem reported_of_run (options : Options) (localAddress : Address) (now : Instant)
    (secrets : Draws (BitVec 32)) (firstTransaction : TransactionId)
    (events : List (Surroundings × Event)) :
    let n := start options localAddress now secrets firstTransaction
    (∀ target announce concurrency maxRounds contacts seeds calls,
      let l := Lookup.start target .getPeers announce concurrency maxRounds contacts seeds
      (Lookup.gather Lookup.returned l calls).Nodup ∧
        ∀ peer, peer ∈ Lookup.gather Lookup.returned l calls ↔
          peer ∈ Lookup.gather Lookup.offered l calls) ∧
    ∀ k errand, Happened (Pursues k errand) n events → errand.kind = .getPeers →
      ((n.gather (noticesOf k) events).map (·.2)).Nodup ∧
      (∀ infoHash peer, (infoHash, peer) ∈ n.gather (noticesOf k) events ↔
        infoHash = errand.target ∧ Happened (Brings k peer) n events ∧
          n.isOwnEndpoint peer = false) ∧
      ∀ stream, errand.sink = .peers stream → (events.flatMap (·.2.streams)).count stream ≤ 1 →
        (n.yields stream events).Nodup ∧
          ∀ peer, peer ∈ n.yields stream events ↔
            Happened (Brings k peer) n events ∧ n.isOwnEndpoint peer = false := by
  intro n
  refine ⟨Lookup.returned_of_start, fun k errand pursued kind => ?_⟩
  have hNotices := notices_of_run options localAddress now secrets firstTransaction events pursued
    kind
  exact ⟨hNotices.1, hNotices.2, fun stream serves once =>
    yields_of_run options localAddress now secrets firstTransaction events pursued kind serves once⟩

/-- A node that looks for peers from a single address, and is known to others by another one than it
sees itself. -/
def finder : LocalNode :=
  start { id := ⟨5⟩, publicEndpoint := some ⟨.v4 9, 9⟩, startingNodes := [⟨.v4 1, 1⟩] }
    ⟨.v4 2, 2⟩ 0 default ⟨0⟩

/-- Two nodes answer.  Both list one peer, one of them twice, and both addresses of the node. -/
def repetition : List (Surroundings × Event) :=
  [(.reliable 0,
      .command (.lookup ⟨⟨1⟩, .getPeers, false, .peers ⟨0⟩⟩)),
    (.reliable 1, .datagram ⟨.v4 1, 1⟩
      (Message.ofBody (TransactionId.mk 0).toBytes
        (.response {
          sender := ⟨4⟩
          nodes := [⟨⟨6⟩, ⟨.v4 3, 3⟩⟩]
          values := [⟨.v4 7, 7⟩, ⟨.v4 2, 2⟩, ⟨.v4 7, 7⟩] })).encode),
    (.reliable 2, .datagram ⟨.v4 3, 3⟩
      (Message.ofBody (TransactionId.mk 1).toBytes
        (.response {
          sender := ⟨6⟩
          values := [⟨.v4 9, 9⟩, ⟨.v4 7, 7⟩, ⟨.v4 8, 8⟩] })).encode)]

theorem reported_of_repetition :
    finder.yields ⟨0⟩ repetition = [⟨.v4 7, 7⟩, ⟨.v4 8, 8⟩] ∧
      finder.gather (noticesOf ⟨0⟩) repetition = [(⟨1⟩, ⟨.v4 7, 7⟩), (⟨1⟩, ⟨.v4 8, 8⟩)] ∧
      ∀ peer, peer ∈ finder.yields ⟨0⟩ repetition ↔
        Happened (Brings ⟨0⟩ peer) finder repetition ∧ finder.isOwnEndpoint peer = false := by
  have hSearch : ∃ entry ∈ (finder.run (repetition.take 1)).2.lookups,
      entry.1 = ⟨0⟩ ∧ entry.2.errand = ⟨⟨1⟩, .getPeers, .peers ⟨0⟩⟩ := by
    decide +kernel
  rcases hSearch with ⟨⟨k, active⟩, member, rfl, same⟩
  have hReported := (reported_of_run _ _ _ _ _ repetition).2 ⟨0⟩ ⟨⟨1⟩, .getPeers, .peers ⟨0⟩⟩
    ⟨repetition.take 1, _, _, repetition.drop 2, rfl, active, member, same⟩ rfl
  refine ⟨by decide +kernel, by decide +kernel, ?_⟩
  exact (hReported.2.2 ⟨0⟩ rfl (by decide +kernel)).2

end LocalNode
end Kademlia
