import Kademlia.Proofs.LocalNode.Driving

namespace Kademlia
namespace LocalNode

/-!
Driving an announcement on keeps the books in balance.  In the end it waits for an answer, or
nothing is left to do and it is over.
-/

variable {stale : List Transaction} {w : Wrapping} {n : LocalNode} {b : Books} {k : LookupId}
  {a : Announce} {rounds : Nat} {env : Surroundings} {t : Transaction} {contact : Contact}
  {picked : List Contact} {own : NodeId}

/-! ## Queries -/

theorem Balanced.announceSent
    (balanced : Balanced stale [] (.announce k rounds (contact :: picked)) w b)
    (found : b.announce? k = some a) (owner : t.owner = .announce k)
    (method : t.query.method? = some .announcePeer) (isTo : IsTo t contact)
    (unused : b.timer.hasTimeout t.id = false) :
    Balanced stale [] (.announce k rounds picked) w
      ((b.send t).changeAnnounce k (·.sent contact t.id)) where
  ledger := balanced.ledger.send unused
  searches := by
    apply balanced.searches.add fun _ => owed_send
    rw [owner]
    exact nofun
  announcing := balanced.announcing.sent found owner method isTo (fun _ => owed_send)
    (@updates_changeAnnounce (b.send t) k a found _)
  numbered := (balanced.numbered.send t).changeAnnounce _

theorem Balanced.announceSendFailed
    (balanced : Balanced stale [] (.announce k rounds (contact :: picked)) w b)
    (found : b.announce? k = some a) :
    Balanced stale [] (.announce k rounds picked) w
      (b.changeAnnounce k (·.onReply contact false)) where
  ledger := balanced.ledger
  searches := balanced.searches
  announcing := balanced.announcing.sendFailed found (updates_changeAnnounce found _)
  numbered := balanced.numbered.changeAnnounce _

theorem InBalance.announceTo {query : Query}
    (balance : InBalance stale [] (.announce k rounds (contact :: picked)) w n)
    (method : query.method? = some .announcePeer) :
    InBalance stale [] (.announce k rounds picked) w (announceTo env k n (contact, query)) := by
  unfold LocalNode.announceTo
  have hSent := sendQuery_cases env n contact.address (some contact.id) query (.announce k)
  generalize n.sendQuery env contact.address (some contact.id) query (.announce k) = sent
    at hSent ⊢
  cases hSent with
  | lost lost =>
    intro once
    rcases lost once with ⟨before, same⟩
    rw [books_modifyAnnounce, same]
    rcases (balance before).announcing.driven k rounds _ rfl with ⟨a, found, -, -⟩
    exact (balance before).announceSendFailed found
  | out t same_destination same_node same_query owner sent =>
    intro once
    rcases sent once with ⟨before, unused, same⟩
    rw [books_modifyAnnounce, same]
    rcases (balance before).announcing.driven k rounds _ rfl with ⟨a, found, -, -⟩
    rw [← same_query] at method
    have hTo : IsTo t contact := ⟨same_node, congrArg Destination.address same_destination⟩
    exact (balance before).announceSent found owner method hTo unused

theorem InBalance.announceToAll {picks : List (Contact × Query)}
    (balance : InBalance stale [] (.announce k rounds (picks.map (·.1))) w n)
    (methods : ∀ pick ∈ picks, pick.2.method? = some .announcePeer) :
    InBalance stale [] (.announce k rounds []) w (picks.foldl (LocalNode.announceTo env k) n) := by
  induction picks generalizing n with
  | nil => exact balance
  | cons pick picks ih =>
    apply ih
    · exact InBalance.announceTo balance (methods pick List.mem_cons_self)
    · exact fun other member => methods other (List.mem_cons_of_mem _ member)

theorem method?_of_mem_pick {pick : Contact × Query} (member : pick ∈ (a.pick own).1) :
    pick.2.method? = some .announcePeer := by
  rcases List.mem_map.mp member with ⟨target, -, rfl⟩
  rfl

/-! ## Rounds -/

theorem Balanced.announceRound (balanced : Balanced stale [] (.announce k (rounds + 1) []) w b)
    (found : b.announce? k = some a) (some_chosen : (a.pick own).1 ≠ []) :
    Balanced stale [] (.announce k rounds ((a.pick own).1.map (·.1))) w
      (b.changeAnnounce k fun _ => (a.pick own).2) where
  ledger := balanced.ledger
  searches := balanced.searches
  announcing := balanced.announcing.round found some_chosen (updates_changeAnnounce found _)
  numbered := balanced.numbered.changeAnnounce _

/-- An announcement that has nobody left to choose is yet to be looked at. -/
def AnnounceRests (stale : List Transaction) (w : Wrapping) (k : LookupId) (b : Books) : Prop :=
  ∃ a rounds own, b.announce? k = some a ∧ (a.pick own).1 = [] ∧
    Balanced stale [] (.announce k rounds []) w b

theorem InBalance.announceRounds (balance : InBalance stale [] (.announce k rounds []) w n) :
    (n.announceRounds env k rounds).reused = false →
      AnnounceRests stale w k (n.announceRounds env k rounds).books := by
  induction rounds generalizing n with
  | zero =>
    intro once
    rcases (balance once).announcing.driven k 0 _ rfl with ⟨a, -, enough, -⟩
    exact absurd enough (Nat.not_lt_zero _)
  | succ rounds ih =>
    rw [LocalNode.announceRounds]
    cases entered : n.announces.lookup k with
    | none =>
      intro once
      rcases (balance once).announcing.driven k _ _ rfl with ⟨a, found, -, -⟩
      exact absurd found (not_announce? entered)
    | some active =>
      have found := announce?_of_entered entered
      have hMethods := @method?_of_mem_pick active.announce n.id
      have hRound : n.reused = false → (active.announce.pick n.id).1 ≠ [] → _ := fun once =>
        (balance once).announceRound found
      dsimp only
      cases picks : (active.announce.pick n.id).1 with
      | nil => exact fun once => ⟨_, _, n.id, found, picks, balance once⟩
      | cons pick others =>
        apply ih
        rw [picks] at hMethods hRound
        refine InBalance.announceToAll ?_ fun _ => hMethods
        exact fun once => hRound once (List.cons_ne_nil _ _)

/-! ## Coming to rest -/

theorem Numbered.endAnnounce (numbered : Numbered w b) :
    Numbered w { b with announces := b.announces.filter (·.1 ≠ k) } := by
  have hKeys : List.Sublist ((b.announces.filter (·.1 ≠ k)).map (·.1)) (b.announces.map (·.1)) :=
    List.filter_sublist.map _
  refine ⟨numbered.lookups, ?_, numbered.lookups_below, ?_, numbered.completed_below, ?_, ?_,
    numbered.work⟩
  · exact List.Nodup.sublist hKeys numbered.announces
  · exact fun other known => numbered.announces_below other (hKeys.subset known)
  · exact fun other known announced => numbered.apart other known (hKeys.subset announced)
  · intro other contacts retired
    rcases numbered.retired other contacts retired with ⟨distinct, below, absent, unannounced⟩
    exact ⟨distinct, below, absent, fun announced => unannounced (hKeys.subset announced)⟩

theorem updates_endAnnounce (b : Books) (k : LookupId) :
    Updates b.announce? k none
      ({ b with announces := b.announces.filter (·.1 ≠ k) } : Books).announce? := by
  intro other
  unfold Books.announce?
  rw [lookup_filter_ne]
  split <;> rfl

/-- An announcement that has nothing left to do is over. -/
theorem InBalance.completeAnnounce
    (balance : n.reused = false → ∃ a rounds picked, n.books.announce? k = some a ∧
      (∀ target ∈ a.targets, target.state.isInFlight = false) ∧
        Balanced stale [] (.announce k rounds picked) w n.books) :
    InBalance stale [] .nothing w (n.completeAnnounce k) := by
  unfold LocalNode.completeAnnounce
  cases entered : n.announces.lookup k with
  | none =>
    intro once
    rcases balance once with ⟨a, rounds, picked, found, -, -⟩
    exact absurd found (not_announce? entered)
  | some active =>
    dsimp only
    apply InBalance.congr _ (books_endStream _ _)
    intro once
    rcases balance once with ⟨a, rounds, picked, found, ended, hBalanced⟩
    exact ⟨hBalanced.ledger, hBalanced.searches,
      hBalanced.announcing.remove found ended (updates_endAnnounce n.books k),
      hBalanced.numbered.endAnnounce⟩

/-- An announcement that is driven on comes to wait for an answer, or is over. -/
theorem InBalance.continueAnnounce
    (balance : n.reused = false → ∃ rounds,
      Balanced stale [] (.announce k rounds []) w n.books) :
    InBalance stale [] .nothing w (n.continueAnnounce env k) := by
  unfold LocalNode.continueAnnounce
  cases entered : n.announces.lookup k with
  | none =>
    intro once
    rcases balance once with ⟨rounds, hBalanced⟩
    rcases hBalanced.announcing.driven k _ _ rfl with ⟨a, found, -, -⟩
    exact absurd found (not_announce? entered)
  | some active =>
    have found := announce?_of_entered entered
    dsimp only
    have hStart : InBalance stale [] (.announce k (active.announce.count (· = .unused) + 1) []) w
        n := by
      intro once
      rcases balance once with ⟨rounds, hBalanced⟩
      exact ⟨hBalanced.ledger, hBalanced.searches,
        hBalanced.announcing.restep found (Nat.lt_succ_self _), hBalanced.numbered⟩
    have hRests := @InBalance.announceRounds _ _ _ _ _ env hStart
    generalize n.announceRounds env k (active.announce.count (· = .unused) + 1) = m at hRests ⊢
    cases left : m.announces.lookup k with
    | none =>
      intro once
      rcases hRests once with ⟨a, rounds, own, found, -, -⟩
      exact absurd found (not_announce? left)
    | some rest =>
      have found := announce?_of_entered left
      dsimp only
      cases progress : rest.announce.progress with
      | completed =>
        apply InBalance.completeAnnounce
        intro once
        rcases hRests once with ⟨a, rounds, own, -, -, hBalanced⟩
        exact ⟨_, rounds, [], found, fun _ => Announce.settled_of_completed progress, hBalanced⟩
      | ongoing =>
        intro once
        rcases hRests once with ⟨a, rounds, own, found_too, none_chosen, hBalanced⟩
        rw [found] at found_too
        rw [← Option.some.inj found_too] at none_chosen
        have hWaits := Announce.inFlight_of_ongoing progress none_chosen
        exact ⟨hBalanced.ledger, hBalanced.searches, hBalanced.announcing.waits found hWaits,
          hBalanced.numbered⟩

/-! ## Starting announcements -/

theorem announce?_eq_none (absent : k ∉ b.announces.map (·.1)) : b.announce? k = none := by
  cases found : b.announce? k with
  | none => rfl
  | some a => exact absurd (announce_mem_keys found) absent

/-- An announcement takes over the number of the lookup that it follows. -/
theorem Numbered.startAnnounce {active : ActiveAnnounce} {contacts : List Contact}
    (numbered : Numbered { w with retired := some (k, contacts) } b) :
    Numbered { w with retired := none } { b with announces := b.announces ++ [(k, active)] } := by
  rcases numbered.retired k contacts rfl with ⟨-, below, absent, unannounced⟩
  have hKeys : (b.announces ++ [(k, active)]).map (·.1) = b.announces.map (·.1) ++ [k] := by
    rw [List.map_append, List.map_singleton]
  refine ⟨numbered.lookups, ?_, numbered.lookups_below, ?_, numbered.completed_below, ?_, nofun,
    numbered.work⟩
  · change ((b.announces ++ [(k, active)]).map (·.1)).Nodup
    rw [hKeys]
    exact (List.perm_append_singleton _ _).symm.nodup
      (List.nodup_cons.mpr ⟨unannounced, numbered.announces⟩)
  · intro other known
    change other ∈ (b.announces ++ [(k, active)]).map (·.1) at known
    rw [hKeys] at known
    rcases List.mem_append.mp known with old | new
    · exact numbered.announces_below other old
    · rw [List.mem_singleton.mp new]
      exact below
  · intro other known announced
    change other ∈ (b.announces ++ [(k, active)]).map (·.1) at announced
    rw [hKeys] at announced
    rcases List.mem_append.mp announced with old | new
    · exact numbered.apart other known old
    · rw [List.mem_singleton.mp new] at known
      exact absent known

theorem updates_startAnnounce (absent : b.announce? k = none) (active : ActiveAnnounce) :
    Updates b.announce? k (some active.announce)
      ({ b with announces := b.announces ++ [(k, active)] } : Books).announce? := by
  intro other
  unfold Books.announce? at absent ⊢
  rw [lookup_append_singleton _ (Option.map_eq_none_iff.mp absent)]
  split <;> rfl

theorem Balanced.startAnnounce {infoHash : InfoHash} {targets : List (Contact × Bytes)}
    {port : Option UInt16} {stream : Option StreamId}
    (balanced : Balanced stale [] .nothing { w with retired := some (k, targets.map (·.1)) } b) :
    Balanced stale []
      (.announce k ((Announce.start infoHash targets port).count (· = .unused) + 1) [])
      { w with retired := none }
      { b with announces := b.announces ++ [(k, ⟨.start infoHash targets port, stream⟩)] } where
  ledger := balanced.ledger
  searches := balanced.searches
  announcing := by
    rcases balanced.numbered.retired k _ rfl with ⟨distinct, -, -, unannounced⟩
    have hAbsent := announce?_eq_none unannounced
    exact balanced.announcing.launch hAbsent distinct (updates_startAnnounce hAbsent _)
  numbered := balanced.numbered.startAnnounce

theorem InBalance.startAnnounce {infoHash : InfoHash} {targets : List (Contact × Bytes)}
    {stream : Option StreamId}
    (balance : InBalance stale [] .nothing { w with retired := some (k, targets.map (·.1)) } n) :
    InBalance stale [] .nothing { w with retired := none }
      (n.startAnnounce env k infoHash targets stream) := by
  apply InBalance.continueAnnounce
  exact fun once => ⟨_, (balance once).startAnnounce⟩

/-! ## Answers -/

theorem Balanced.announceSettled (balanced : Balanced stale [t] .nothing w b)
    (found : b.announce? k = some a) (owner : t.owner = .announce k) (isTo : IsTo t contact)
    (success : Bool) :
    Balanced stale [] (.announce k ((a.onReply contact success).count (· = .unused) + 1) []) w
      (b.changeAnnounce k (·.onReply contact success)) where
  ledger := balanced.ledger.settle
  searches := by
    apply balanced.searches.drop fun _ => owed_settled balanced.ledger
    rw [owner]
    exact nofun
  announcing := balanced.announcing.settled found owner owed_loose isTo
    (fun _ owes same => balanced.ledger.eq_of_id owes owed_loose same)
    (fun _ => owed_settled balanced.ledger) (updates_changeAnnounce found _)
  numbered := balanced.numbered.changeAnnounce _

theorem InBalance.announceReply {success : Bool} (balance : InBalance stale [t] .nothing w n)
    (owner : t.owner = .announce k) (isTo : n.reused = false → IsTo t contact) :
    InBalance stale [] .nothing w (n.announceReply env k contact success) := by
  unfold LocalNode.announceReply
  cases entered : n.announces.lookup k with
  | none =>
    intro once
    rcases ((balance once).announcing.owner t k owed_loose owner).1 with ⟨a, found⟩
    exact absurd found (not_announce? entered)
  | some active =>
    have found := announce?_of_entered entered
    have hSettled : n.reused = false → _ := fun once =>
      (balance once).announceSettled found owner (isTo once) success
    dsimp only
    cases progress : (active.announce.onReply contact success).progress with
    | ongoing => exact InBalance.continueAnnounce fun once => ⟨_, hSettled once⟩
    | completed =>
      apply InBalance.completeAnnounce
      intro once
      have hFound := (updates_changeAnnounce found (·.onReply contact success)).self
      exact ⟨_, _, [], hFound, fun _ => Announce.settled_of_completed progress, hSettled once⟩

end LocalNode
end Kademlia
