import Kademlia.Proofs.Lookup.Slate

namespace Kademlia
namespace Lookup

/-!
# The peers that a lookup finds

A lookup for peers remembers the peers that it has found, and returns of each answer only those that
are new.  Whatever answers come, in whatever order, and however often they repeat a peer, it returns
the peers of all the answers that it accepts, each of them once (`returned_of_start`).
-/

variable {l : Lookup} {found values : List Address} {peer : Address}

/-! ## New peers -/

@[simp]
theorem mem_newPeers : peer ∈ newPeers found values ↔ peer ∈ values ∧ peer ∉ found := by
  induction values generalizing found with
  | nil => simp [newPeers]
  | cons first rest ih =>
    by_cases known : first ∈ found
    · rw [newPeers, if_pos known, ih, List.mem_cons]
      constructor
      · rintro ⟨later, unknown⟩
        exact ⟨.inr later, unknown⟩
      · rintro ⟨rfl | later, unknown⟩
        · exact absurd known unknown
        · exact ⟨later, unknown⟩
    · by_cases same : peer = first
      · simp [newPeers, same, known]
      · simp [newPeers, known, ih, same]

theorem nodup_newPeers (found values : List Address) : (newPeers found values).Nodup := by
  induction values generalizing found with
  | nil => exact List.nodup_nil
  | cons first rest ih =>
    rw [newPeers]
    split
    · exact ih found
    · exact List.nodup_cons.mpr ⟨by simp, ih _⟩

/-- The peers of an answer that are new to a lookup.  A lookup for nodes takes no interest in
them. -/
def news (kind : LookupKind) (found values : List Address) : List Address :=
  match kind with
  | .findNode => []
  | .getPeers => newPeers found values

theorem nodup_news (kind : LookupKind) (found values : List Address) :
    (news kind found values).Nodup := by
  cases kind with
  | findNode => exact List.nodup_nil
  | getPeers => exact nodup_newPeers found values

/-! ## An answer -/

/-- The peers of a response, if a query of the lookup waits for it. -/
def accepted (l : Lookup) (id : TransactionId) (response : Response) : List Address :=
  if l.isPending id then response.values else []

theorem addCandidates_same (l : Lookup) (contacts : List Contact) :
    (l.addCandidates contacts).kind = l.kind ∧ (l.addCandidates contacts).found = l.found := by
  have hOne : ∀ (l : Lookup) (contact : Contact),
      ((l.addCandidate contact).kind, (l.addCandidate contact).found) = (l.kind, l.found) :=
    fun _ _ => rfl
  exact Prod.mk.inj (foldl_keeps (fun l => (l.kind, l.found)) hOne l contacts)

/-- A lookup has taken up an answer with certain peers: those that are new are returned. -/
structure Answered (l : Lookup) (values peers : List Address) (next : Lookup) : Prop where
  announce : next.announce = l.announce
  target : next.target = l.target
  kind : next.kind = l.kind
  returned : peers = news l.kind l.found values
  found : next.found = l.found ++ peers

theorem answered_onResponse (l : Lookup) (id : TransactionId) (sender : Contact)
    (response : Response) (nodes : List Contact) :
    Answered l (l.accepted id response) (l.onResponse id sender response nodes).1
      (l.onResponse id sender response nodes).2 := by
  have hTold := Told.onResponse l id sender response nodes
  suffices hPeers : (l.onResponse id sender response nodes).2.kind = l.kind ∧
      (l.onResponse id sender response nodes).1 = news l.kind l.found (l.accepted id response) ∧
      (l.onResponse id sender response nodes).2.found =
        l.found ++ (l.onResponse id sender response nodes).1 by
    exact ⟨hTold.announce, hTold.target, hPeers.1, hPeers.2.1, hPeers.2.2⟩
  cases asked : l.isPending id with
  | false =>
    rw [accepted, asked, onResponse_of_late asked]
    cases l.kind <;> simp [news, newPeers]
  | true =>
    rw [accepted, asked, onResponse, asked, Bool.not_true, if_neg Bool.false_ne_true]
    dsimp only
    generalize hMarked :
      ({ (l.settle id).addCandidate sender with candidates := _ } : Lookup) = marked
    have hKind : (marked.addCandidates nodes).kind = l.kind := by
      rw [(addCandidates_same marked nodes).1, ← hMarked]
      rfl
    have hFound : (marked.addCandidates nodes).found = l.found := by
      rw [(addCandidates_same marked nodes).2, ← hMarked]
      rfl
    rw [← hKind, ← hFound]
    cases kind : (marked.addCandidates nodes).kind with
    | findNode => simp [news, kind]
    | getPeers => simp [news]

/-! ## All calls -/

/-- The peers that a call brings to a lookup. -/
def offered (l : Lookup) : Call → List Address
  | .response id _ response _ => l.accepted id response
  | _ => []

/-- The peers that a lookup returns from a call. -/
def returned (l : Lookup) : Call → List Address
  | .response id sender response nodes => (l.onResponse id sender response nodes).1
  | _ => []

/-- What there is at each of some calls, one after another. -/
def gather {α : Type} (what : Lookup → Call → List α) (l : Lookup) : List Call → List α
  | [] => []
  | call :: calls => what l call ++ gather what (l.call call).2 calls

/-- A call for anything but an answer leaves the peers as they are. -/
theorem answered_call (l : Lookup) (call : Call) :
    (l.call call).2.kind = l.kind ∧ l.returned call = news l.kind l.found (l.offered call) ∧
      (l.call call).2.found = l.found ++ l.returned call := by
  have hOther : ∀ next : Lookup, Alike l next → next.kind = l.kind ∧
      [] = news l.kind l.found [] ∧ next.found = l.found ++ [] := by
    rintro next ⟨-, kind, -, found⟩
    refine ⟨kind, ?_, found.trans (List.append_nil _).symm⟩
    cases l.kind <;> rfl
  cases call with
  | step => exact hOther _ (alike_step l)
  | sent id nodeId => exact hOther _ (alike_sent l id nodeId)
  | sendFailed nodeId => exact hOther _ (alike_sendFailed l nodeId)
  | response id sender response nodes =>
    have hAnswered := answered_onResponse l id sender response nodes
    exact ⟨hAnswered.kind, hAnswered.returned, hAnswered.found⟩
  | failure id => exact hOther _ (alike_onFailure l id)

/-- A lookup for peers returns whatever it is brought and did not find before. -/
theorem returned_of_calls (calls : List Call) (kind : l.kind = .getPeers)
    (distinct : l.found.Nodup) :
    (l.found ++ gather returned l calls).Nodup ∧
      ∀ peer, peer ∈ l.found ++ gather returned l calls ↔
        peer ∈ l.found ∨ peer ∈ gather offered l calls := by
  induction calls generalizing l with
  | nil => simp [gather, distinct]
  | cons call calls ih =>
    rcases answered_call l call with ⟨same, returns, found⟩
    rw [kind, news] at returns
    have hDistinct : (l.call call).2.found.Nodup := by
      rw [found, returns]
      refine List.nodup_append.mpr ⟨distinct, nodup_newPeers _ _, ?_⟩
      rintro peer before other new rfl
      exact (mem_newPeers.mp new).2 before
    rcases ih (same.trans kind) hDistinct with ⟨once, exactly⟩
    rw [found, List.append_assoc] at once exactly
    refine ⟨once, fun peer => (exactly peer).trans ?_⟩
    rw [gather, List.mem_append, List.mem_append, returns, mem_newPeers]
    by_cases known : peer ∈ l.found <;> simp [known]

/-- A lookup for peers returns those that the answers to its queries list, and nobody twice. -/
theorem returned_of_start (target : NodeId) (announce : Bool) (concurrency maxRounds : Nat)
    (contacts : List Contact) (seeds : List Destination) (calls : List Call) :
    let l := start target .getPeers announce concurrency maxRounds contacts seeds
    (gather returned l calls).Nodup ∧
      ∀ peer, peer ∈ gather returned l calls ↔ peer ∈ gather offered l calls := by
  intro l
  rcases addCandidates_same
    { target, kind := .getPeers, announce, concurrency := max concurrency 1, maxRounds, seeds }
    contacts with ⟨kind, found⟩
  have hFound : l.found = [] := found
  have hReturned := returned_of_calls calls (l := l) kind (hFound ▸ List.nodup_nil)
  rw [hFound] at hReturned
  simpa using hReturned

end Lookup
end Kademlia
