import Mathlib
import PeerDiscovery.Proofs.KnownNode.Numbering
import PeerDiscovery.Proofs.Search.Explains

/-!
# When a question may be repeated

A node that was asked for the peers of a content is not asked again before it answered, and then not
before the cooldown is over (`Run.asked_again`). Two records of the node carry this. Until the
answer comes the first question is open; from then on it is in the past, and the node was last heard
of no earlier than it was asked. The past forgets a question when its number is used again, which
takes more than 65536 queries to that node; only then may the cooldown be missed.
-/

namespace PeerDiscovery

open Selection (isEligible isEligible_iff silence)

/-! ## One node -/

namespace Life

variable {limits : SelectionLimits} {first : UInt16} {address : Address} {node : KnownNode}
  {before between : List Occurrence} {asked now : Moment} {query : Query} {infoHash : InfoHash}

/-- Only an eligible node is asked for the peers of a content. -/
theorem isEligible_of_allows {history : List Occurrence}
    (allowed : Allows limits node history (.asked now address query))
    (asks : query.asksPeersOf infoHash = true) : isEligible limits infoHash now node = true := by
  simp only [Query.asksPeersOf, Bool.and_eq_true, decide_eq_true_eq] at asks
  obtain ⟨-, ⟨-, ping, -⟩ | ⟨content, -, same, eligible⟩⟩ := allowed
  · rw [asks.1] at ping
    cases ping
  · rw [asks.2] at same
    rwa [Option.some.inj same]

/-- A node that may be asked about a content again answered the question before. -/
theorem answered_of_isEligible
    (life : Life limits first address node (before ++ .asked asked address query :: between))
    (asks : query.asksPeersOf infoHash = true)
    (eligible : isEligible limits infoHash now node = true) :
    ∃ quiet time rest, between = quiet ++ .answered time address query :: rest ∧
      Quiet address query.transaction quiet := by
  have idle := (isEligible_iff.mp eligible).2.1
  refine life.answered_of_not_pending fun waiting => ?_
  rw [KnownNode.awaitsPeersOf_iff.mpr ⟨_, query, waiting, asks⟩] at idle
  cases idle

/-- It is a cooldown since the question before, as long as the past is complete. -/
theorem cooldown_of_isEligible
    (life : Life limits first address node (before ++ .asked asked address query :: between))
    (asks : query.asksPeersOf infoHash = true)
    (eligible : isEligible limits infoHash now node = true)
    (order : (before ++ .asked asked address query :: between).Pairwise
      fun earlier later => earlier.now ≤ later.now)
    (forward : asked ≤ now)
    (few : (queriesAt address (before ++ .asked asked address query :: between)).length ≤
      KnownNode.transactionCount) :
    asked + limits.cooldown ≤ now := by
  obtain ⟨quiet, time, rest, split, -⟩ := life.answered_of_isEligible asks eligible
  have answered :
      .answered time address query ∈ before ++ .asked asked address query :: between := by
    rw [split]
    simp
  have remembered := life.dealings.past_of_answered few (mem_answersAt.mpr ⟨time, answered⟩)
  have cooled := (isEligible_iff.mp eligible).2.2
    (KnownNode.askedPeersOf_iff.mpr ⟨_, query, remembered, asks⟩)
  obtain ⟨last, contact, heard⟩ :=
    life.dealings.lastContact_of_answered order answered
  have later : asked ≤ time := by
    have after := (List.pairwise_append.mp order).2.1
    refine (List.pairwise_cons.mp after).1 (.answered time address query) ?_
    rw [split]
    simp
  have since : silence now node = now - last := by
    rw [silence, contact]
    rfl
  rw [since] at cooled
  have apart : asked + limits.cooldown ≤ last + (now - last) :=
    Nat.add_le_add (Nat.le_trans later heard) cooled
  rcases Nat.le_total last now with past | ahead
  · rwa [Nat.add_sub_cancel' past] at apart
  · rw [Nat.sub_eq_zero_of_le ahead] at cooled
    rwa [Nat.le_zero.mp cooled, Nat.add_zero]

end Life

/-! ## All nodes -/

variable {setup : Setup} {resolve : Resolver} {journal : List Entry} {search : Search}

/-- Between two questions for the peers of a content that one node is asked, a response is matched
to the first. If the clock never goes back, they are also a cooldown apart, unless more than 65536
queries were recorded at the node before the second. -/
theorem Run.asked_again (run : Run setup resolve journal search)
    {before between after : List Occurrence} {first second : Moment} {address : Address}
    {query repeated : Query} {infoHash : InfoHash}
    (split : history journal = before ++ .asked first address query ::
      (between ++ .asked second address repeated :: after))
    (asks : query.asksPeersOf infoHash = true) (asksAgain : repeated.asksPeersOf infoHash = true) :
    (∃ quiet time rest, between = quiet ++ .answered time address query :: rest ∧
        Quiet address query.transaction quiet) ∧
      (InOrder journal →
        first + setup.settings.cooldown ≤ second ∨
          KnownNode.transactionCount <
            (queriesAt address (before ++ .asked first address query :: between)).length) := by
  -- the node just before it was asked again
  rw [← List.cons_append, ← List.append_assoc] at split
  obtain ⟨node, life, allowed⟩ := run.explains.before_occurrence split
  change Life _ (setup.chance.firstTransaction address) address node (occurrencesAt address _)
    at life
  have own : occurrencesAt address (before ++ .asked first address query :: between) =
      occurrencesAt address before ++ .asked first address query ::
        occurrencesAt address between := by
    rw [occurrencesAt_append, occurrencesAt_asked_cons]
  rw [own] at life
  have eligible := Life.isEligible_of_allows allowed asksAgain
  constructor
  · obtain ⟨quiet, time, rest, shown, silent⟩ := life.answered_of_isEligible asks eligible
    obtain ⟨quiet, rest, rfl, rfl⟩ := split_of_occurrencesAt shown
    exact ⟨quiet, time, rest, rfl, quiet_occurrencesAt.mp silent⟩
  · intro order
    have moments := order.history
    rw [split] at moments
    obtain ⟨past, -, apart⟩ := List.pairwise_append.mp moments
    have forward : first ≤ second :=
      apart (.asked first address query) (by simp) _ List.mem_cons_self
    have ordered : (occurrencesAt address
        (before ++ .asked first address query :: between)).Pairwise
          fun earlier later => earlier.now ≤ later.now := past.sublist List.filter_sublist
    rw [← queriesAt_occurrencesAt]
    rw [own] at ordered ⊢
    rcases Nat.lt_or_ge KnownNode.transactionCount (queriesAt address
        (occurrencesAt address before ++ .asked first address query ::
          occurrencesAt address between)).length with many | few
    · exact Or.inr many
    · exact Or.inl (life.cooldown_of_isEligible asks eligible ordered forward few)

namespace Sample

/-- A node is asked and refers to two others. Following the first reference takes 1, and following
the second takes 6. -/
def slowReferral : List Search.Event :=
  [.undisturbed 0 (.hint ⟨identifier 2, node⟩), .undisturbed 0 (.request content),
    { Search.Event.undisturbed 2 (referral node 0 [neighbour 4, neighbour 5]) with
      clock := .paced 2 [1, 6] }]

/-- The first reference starts a round at 3, when the node may not be asked again yet. The second
starts one at 9, when it may. -/
def slowOccurrences : List Occurrence :=
  [.asked 0 node ⟨65535, .ping, none⟩, .asked 0 node ⟨0, .getPeers, some content⟩,
    .answered 2 node ⟨0, .getPeers, some content⟩,
    .asked 3 (neighbour 4).address ⟨65535, .getPeers, some content⟩,
    .asked 9 node ⟨1, .getPeers, some content⟩,
    .asked 9 (neighbour 5).address ⟨65535, .getPeers, some content⟩]

end Sample

/-- In the sample the content is asked for at 0 and 9, and answered at 2. The cooldown is 5. -/
theorem Run.asked_again_sample :
    ∃ journal search, Run Sample.setup .literal journal search ∧
      history journal = Sample.slowOccurrences ∧ InOrder journal ∧
      (∃ quiet time rest,
        [.answered 2 Sample.node ⟨0, .getPeers, some Sample.content⟩,
            .asked 3 (Sample.neighbour 4).address ⟨65535, .getPeers, some Sample.content⟩] =
          quiet ++ .answered time Sample.node ⟨0, .getPeers, some Sample.content⟩ :: rest ∧
          Quiet Sample.node 0 quiet) ∧
      0 + Sample.setup.settings.cooldown ≤ 9 := by
  -- the kernel does not run the merge sort of a selection, and `cbv`, which does, takes equations
  -- from all over the library
  have told : (Search.start.journal? Sample.setup Sample.slowReferral).map
      (fun recorded => (history recorded.1, decide (InOrder recorded.1))) =
        some (Sample.slowOccurrences, true) := by cbv
  obtain ⟨journal, search, run, same⟩ := Run.of_map_journal? told
  obtain ⟨story, ordered⟩ := Prod.mk.inj same
  have order : InOrder journal := of_decide_eq_true ordered
  have split : history journal =
      [.asked 0 Sample.node ⟨65535, .ping, none⟩] ++
        .asked 0 Sample.node ⟨0, .getPeers, some Sample.content⟩ ::
          ([.answered 2 Sample.node ⟨0, .getPeers, some Sample.content⟩,
              .asked 3 (Sample.neighbour 4).address ⟨65535, .getPeers, some Sample.content⟩] ++
            .asked 9 Sample.node ⟨1, .getPeers, some Sample.content⟩ ::
              [.asked 9 (Sample.neighbour 5).address ⟨65535, .getPeers, some Sample.content⟩]) :=
    story
  have asks : Query.asksPeersOf ⟨0, .getPeers, some Sample.content⟩ Sample.content = true := by
    decide
  have asksAgain : Query.asksPeersOf ⟨1, .getPeers, some Sample.content⟩ Sample.content = true := by
    decide
  obtain ⟨answered, apart⟩ := run.asked_again split asks asksAgain
  refine ⟨journal, search, run, story, order, answered, ?_⟩
  exact (apart order).resolve_right (by decide)

end PeerDiscovery
