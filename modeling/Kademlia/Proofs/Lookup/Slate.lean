import Kademlia.Proofs.Lookup.Rounds

namespace Kademlia
namespace Lookup

/-!
The nodes that a lookup has on its list, whatever it has found out about them.  Asking them and
noting what became of that does not change the list (`slate`); only an answer does.  The node that
answers comes onto the list under the identifier that it claims, and so do the nodes that it names.
A node that was put on the list once stays, unless sixty-four others are nearer (`Slate.Covers`).
-/

/-- Whom a lookup has on its list, and whose neighbours it looks for. -/
structure Slate where
  target : NodeId
  contacts : List Contact

def slate (l : Lookup) : Slate :=
  ⟨l.target, l.candidates.map (·.contact)⟩

namespace Slate

variable {s : Slate} {id : NodeId}

def ids (s : Slate) : List NodeId :=
  s.contacts.map (·.id)

def InOrder (s : Slate) : Prop :=
  s.ids.Pairwise fun a b => s.target.cmpDistance a b = .lt

/-- A node is on the list, or as many as the list holds are nearer. -/
def Covers (s : Slate) (id : NodeId) : Prop :=
  id ∈ s.ids ∨
    maxCandidates ≤ s.contacts.length ∧ ∀ other ∈ s.ids, s.target.cmpDistance other id = .lt

/-- Cutting the list leaves out nobody but the farthest. -/
theorem covers_take (inOrder : s.InOrder) (known : id ∈ s.ids) :
    Covers { s with contacts := s.contacts.take maxCandidates } id := by
  by_cases near : id ∈ (s.contacts.take maxCandidates).map (·.id)
  · exact .inl near
  have hFar : id ∈ (s.contacts.drop maxCandidates).map (·.id) := by
    rw [ids, ← List.take_append_drop maxCandidates s.contacts, List.map_append] at known
    exact (List.mem_append.mp known).resolve_left near
  have hMore : maxCandidates < s.contacts.length := by
    refine Nat.lt_of_not_le fun few => ?_
    rw [List.drop_eq_nil_of_le few] at hFar
    cases hFar
  refine .inr ⟨?_, fun other among => ?_⟩
  · rw [List.length_take]
    exact Nat.le_min.mpr ⟨Nat.le_refl _, Nat.le_of_lt hMore⟩
  · rw [InOrder, ids, ← List.take_append_drop maxCandidates s.contacts, List.map_append] at inOrder
    exact (List.pairwise_append.mp inOrder).2.2 other among id hFar

end Slate

variable {l : Lookup} {id : NodeId} {contact : Contact}

@[simp]
theorem ids_slate (l : Lookup) : l.slate.ids = l.candidateIds :=
  List.map_map

theorem inOrder_slate_iff : l.slate.InOrder ↔ l.Sorted := by
  rw [Slate.InOrder, ids_slate]
  rfl

/-! ## What leaves the list as it is -/

/-- A lookup has asked somebody, or has taken note of what became of that, and is the same
otherwise. -/
structure Alike (l next : Lookup) : Prop where
  announce : next.announce = l.announce
  kind : next.kind = l.kind
  slate : next.slate = l.slate
  found : next.found = l.found

theorem Alike.refl (l : Lookup) : Alike l l :=
  ⟨rfl, rfl, rfl, rfl⟩

theorem Alike.trans {next last : Lookup} (first : Alike l next) (second : Alike next last) :
    Alike l last :=
  ⟨second.announce.trans first.announce, second.kind.trans first.kind,
    second.slate.trans first.slate, second.found.trans first.found⟩

theorem alike_setState (l : Lookup) (id : NodeId) (state : CandidateState) :
    Alike l (l.setState id state) := by
  have hContacts : (l.setState id state).candidates.map (·.contact) =
      l.candidates.map (·.contact) := map_modifyFirst fun _ _ => rfl
  refine ⟨rfl, rfl, ?_, rfl⟩
  rw [slate, hContacts]
  rfl

theorem alike_beginRound (l : Lookup) (count : Nat) : Alike l (l.beginRound count).2 := by
  have hMarked : ∀ (contacts : List Contact) (l : Lookup),
      Alike l (contacts.foldl (fun l contact => l.setState contact.id .queried) l) := by
    intro contacts
    induction contacts with
    | nil => exact Alike.refl
    | cons contact contacts ih => exact fun l => (alike_setState ..).trans (ih _)
  rcases hMarked (l.picks count) l with ⟨announce, kind, slate, found⟩
  exact ⟨announce, kind, slate, found⟩

theorem alike_step (l : Lookup) : Alike l l.step.2 := by
  have hStepped := stepped_step l
  generalize l.step = result at hStepped ⊢
  cases hStepped with
  | wait => exact .refl l
  | again => exact .refl l
  | finished => exact ⟨rfl, rfl, rfl, rfl⟩
  | round last count =>
    rcases alike_beginRound { l with finalRound := last } count with ⟨announce, kind, slate, found⟩
    exact ⟨announce, kind, slate, found⟩

theorem alike_sent (l : Lookup) (id : TransactionId) (nodeId : Option NodeId) :
    Alike l (l.sent id nodeId) :=
  ⟨rfl, rfl, rfl, rfl⟩

theorem alike_sendFailed (l : Lookup) (nodeId : Option NodeId) : Alike l (l.sendFailed nodeId) := by
  cases nodeId with
  | none => exact .refl l
  | some id => exact alike_setState ..

theorem alike_onFailure (l : Lookup) (id : TransactionId) : Alike l (l.onFailure id) := by
  have hSettled : Alike l (l.settle id) := ⟨rfl, rfl, rfl, rfl⟩
  exact hSettled.trans (alike_sendFailed ..)

/-! ## What comes onto the list -/

/-- A list has become longer: certain contacts may have come onto it. -/
structure Enlarged (newcomers : Contact → Prop) (l next : Lookup) : Prop where
  target : next.target = l.target
  sorted : l.Sorted → next.Sorted
  contacts : ∀ contact ∈ next.slate.contacts, contact ∈ l.slate.contacts ∨ newcomers contact
  covers : l.Sorted → ∀ id, l.slate.Covers id → next.slate.Covers id

namespace Enlarged

variable {newcomers : Contact → Prop} {next last : Lookup}

theorem of_slate (same : next.slate = l.slate) : Enlarged newcomers l next where
  target := congrArg Slate.target same
  sorted sorted := inOrder_slate_iff.mp (same ▸ inOrder_slate_iff.mpr sorted)
  contacts _ listed := .inl (same ▸ listed)
  covers _ _ covers := same ▸ covers

theorem trans (first : Enlarged newcomers l next) (second : Enlarged newcomers next last) :
    Enlarged newcomers l last where
  target := second.target.trans first.target
  sorted sorted := second.sorted (first.sorted sorted)
  contacts contact listed := by
    rcases second.contacts contact listed with before | new
    · exact first.contacts contact before
    · exact .inr new
  covers sorted id covers :=
    second.covers (first.sorted sorted) id (first.covers sorted id covers)

theorem mono {wider : Contact → Prop} (enlarged : Enlarged newcomers l next)
    (weaker : ∀ contact, newcomers contact → wider contact) : Enlarged wider l next where
  target := enlarged.target
  sorted := enlarged.sorted
  contacts contact listed := (enlarged.contacts contact listed).imp_right (weaker contact)
  covers := enlarged.covers

end Enlarged

theorem slate_addCandidate (l : Lookup) (contact : Contact) :
    (l.addCandidate contact).slate = { l.slate with
      contacts := ((insertCandidate l.target { contact } l.candidates).map (·.contact)).take
        maxCandidates } := by
  rw [slate, addCandidate, List.map_take]
  rfl

theorem covers_addCandidate_of_mem (sorted : l.Sorted)
    (known : id ∈ (insertCandidate l.target { contact } l.candidates).map (·.contact.id)) :
    (l.addCandidate contact).slate.Covers id := by
  have hInserted : Slate.InOrder
      ⟨l.target, (insertCandidate l.target { contact } l.candidates).map (·.contact)⟩ := by
    rw [Slate.InOrder, Slate.ids, List.map_map]
    exact sorted_insertCandidate { contact } sorted
  have hKnown : id ∈ Slate.ids
      ⟨l.target, (insertCandidate l.target { contact } l.candidates).map (·.contact)⟩ := by
    rw [Slate.ids, List.map_map]
    exact known
  rw [slate_addCandidate]
  exact Slate.covers_take hInserted hKnown

/-- A candidate farther than all others comes last. -/
theorem insertCandidate_farthest {target : NodeId} {new : Candidate} {candidates : List Candidate}
    (farthest : ∀ c ∈ candidates, target.cmpDistance c.contact.id new.contact.id = .lt) :
    insertCandidate target new candidates = candidates ++ [new] := by
  induction candidates with
  | nil => rfl
  | cons c rest ih =>
    rw [insertCandidate, farthest c List.mem_cons_self]
    dsimp only
    rw [ih fun other among => farthest other (List.mem_cons_of_mem c among), List.cons_append]

theorem length_le_length_insertCandidate (target : NodeId) (new : Candidate)
    (candidates : List Candidate) :
    candidates.length ≤ (insertCandidate target new candidates).length := by
  induction candidates with
  | nil => exact Nat.zero_le _
  | cons c rest ih =>
    rw [insertCandidate]
    split
    · exact Nat.succ_le_succ ih
    · exact Nat.le_refl _
    · exact Nat.le_succ _

/-- Where enough others are nearer than a node, a newcomer either is as well or finds no room. -/
theorem covers_addCandidate_of_crowded (crowded : maxCandidates ≤ l.candidates.length)
    (nearer : ∀ other ∈ l.candidateIds, l.target.cmpDistance other id = .lt) :
    (l.addCandidate contact).slate.Covers id := by
  have hLength : maxCandidates ≤ (insertCandidate l.target { contact } l.candidates).length :=
    Nat.le_trans crowded (length_le_length_insertCandidate ..)
  refine .inr ⟨?_, fun other listed => ?_⟩
  · rw [slate_addCandidate, List.length_take, List.length_map]
    exact Nat.le_min.mpr ⟨Nat.le_refl _, hLength⟩
  rw [slate_addCandidate, Slate.ids, List.map_take, List.map_map] at listed
  by_cases nearby : l.target.cmpDistance contact.id id = .lt
  · rcases mem_insertCandidate (List.mem_of_mem_take listed) with rfl | old
    · exact nearby
    · exact nearer other old
  have hFarthest : ∀ c ∈ l.candidates, l.target.cmpDistance c.contact.id contact.id = .lt := by
    intro c among
    have hNearer := nearer c.contact.id (List.mem_map_of_mem among)
    cases order : l.target.cmpDistance contact.id id with
    | lt => exact absurd order nearby
    | eq =>
      rw [NodeId.cmpDistance_eq_iff.mp order]
      exact hNearer
    | gt => exact NodeId.cmpDistance_lt_trans hNearer (NodeId.cmpDistance_gt_iff.mp order)
  have hLast : insertCandidate l.target { contact } l.candidates =
      l.candidates ++ [{ contact := contact }] := insertCandidate_farthest hFarthest
  rw [hLast, List.map_append,
    List.take_append_of_le_length (by rw [List.length_map]; exact crowded)] at listed
  exact nearer other (List.mem_of_mem_take listed)

theorem enlarged_addCandidate (l : Lookup) (contact : Contact) :
    Enlarged (· = contact) l (l.addCandidate contact) where
  target := rfl
  sorted := Sorted.addCandidate
  contacts other listed := by
    rw [slate_addCandidate] at listed
    rcases List.mem_map.mp (List.mem_of_mem_take listed) with ⟨c, among, rfl⟩
    rcases eq_or_mem_of_mem_insertCandidate among with rfl | old
    · exact .inr rfl
    · exact .inl (List.mem_map_of_mem old)
  covers sorted id covers := by
    rcases covers with known | ⟨crowded, nearer⟩
    · refine covers_addCandidate_of_mem sorted ?_
      rw [ids_slate] at known
      rcases List.mem_map.mp known with ⟨c, among, rfl⟩
      exact List.mem_map_of_mem (mem_insertCandidate_of_mem among)
    · rw [slate, List.length_map] at crowded
      rw [ids_slate] at nearer
      exact covers_addCandidate_of_crowded crowded nearer

theorem enlarged_addCandidates (l : Lookup) (contacts : List Contact) :
    Enlarged (· ∈ contacts) l (l.addCandidates contacts) := by
  unfold addCandidates
  induction contacts generalizing l with
  | nil => exact .of_slate rfl
  | cons contact contacts ih =>
    refine .trans ((enlarged_addCandidate l contact).mono ?_) ((ih _).mono ?_)
    · rintro _ rfl
      exact List.mem_cons_self
    · exact fun _ => List.mem_cons_of_mem contact

/-- The node that answers a query in flight comes onto the list, and so may the nodes that it
names. -/
theorem enlarged_onResponse {id : TransactionId} (asked : l.isPending id = true) (sender : Contact)
    (response : Response) (nodes : List Contact) :
    Enlarged (fun contact => contact = sender ∨ contact ∈ nodes) l
      (l.onResponse id sender response nodes).2 ∧
    (l.Sorted → (l.onResponse id sender response nodes).2.slate.Covers sender.id) := by
  rw [onResponse, asked, Bool.not_true, if_neg Bool.false_ne_true]
  dsimp only
  generalize hMarked :
    ({ (l.settle id).addCandidate sender with candidates := _ } : Lookup) = marked
  have hSame : marked.slate = ((l.settle id).addCandidate sender).slate := by
    have hContacts : marked.candidates.map (·.contact) =
        ((l.settle id).addCandidate sender).candidates.map (·.contact) := by
      rw [← hMarked]
      exact map_modifyFirst fun _ _ => rfl
    rw [slate, hContacts, ← hMarked]
    rfl
  have hSettled : Enlarged (· = sender) l (l.settle id) := .of_slate rfl
  have hMet : Enlarged (· = sender) l marked :=
    (hSettled.trans (enlarged_addCandidate _ sender)).trans (.of_slate hSame)
  have hListed := enlarged_addCandidates marked nodes
  have hEnlarged : Enlarged (fun contact => contact = sender ∨ contact ∈ nodes) l
      (marked.addCandidates nodes) :=
    (hMet.mono fun _ => .inl).trans (hListed.mono fun _ => .inr)
  have hCovers : l.Sorted → (marked.addCandidates nodes).slate.Covers sender.id := by
    intro sorted
    refine hListed.covers (hMet.sorted sorted) sender.id ?_
    rw [hSame]
    rcases exists_mem_insertCandidate l.target { contact := sender } l.candidates with
      ⟨c, among, same⟩
    exact covers_addCandidate_of_mem (sorted.of_eq rfl rfl) (List.mem_map.mpr ⟨c, among, same⟩)
  split
  · exact ⟨hEnlarged, hCovers⟩
  · exact ⟨hEnlarged.trans (.of_slate rfl), hCovers⟩

/-- An answer that no query in flight waits for changes nothing. -/
theorem onResponse_of_late {id : TransactionId} (late : l.isPending id = false) (sender : Contact)
    (response : Response) (nodes : List Contact) :
    l.onResponse id sender response nodes = ([], l) := by
  rw [onResponse, late]
  rfl

theorem mem_slate_start {target : NodeId} {kind : LookupKind} {announce : Bool}
    {concurrency maxRounds : Nat} {contacts : List Contact} {seeds : List Destination}
    (listed : contact ∈
      (start target kind announce concurrency maxRounds contacts seeds).slate.contacts) :
    contact ∈ contacts := by
  rcases (enlarged_addCandidates _ contacts).contacts contact listed with before | named
  · cases before
  · exact named

/-! ## Who is passed on -/

theorem mem_slate_of_closest (found : contact ∈ l.finish.closest) : contact ∈ l.slate.contacts := by
  rcases List.mem_map.mp found with ⟨c, among, rfl⟩
  exact List.mem_map_of_mem (List.mem_filter.mp (List.mem_of_mem_take among)).1

theorem mem_slate_of_announceTargets {token : Bytes}
    (chosen : (contact, token) ∈ l.finish.announceTargets) : contact ∈ l.slate.contacts := by
  rcases List.mem_filterMap.mp (List.mem_of_mem_take chosen) with ⟨c, among, same⟩
  rcases Option.map_eq_some_iff.mp same with ⟨_, _, pair⟩
  cases pair
  exact List.mem_map_of_mem (List.mem_filter.mp among).1

end Lookup
end Kademlia
