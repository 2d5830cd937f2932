import Synergy.Answers

set_option autoImplicit false

namespace Synergy

-- blckcmp_str is 0 for the request and search_request of match_blocking_requests.
def matching (env : Platform) (tuple : SngTuple) (request : BlockingRequest) : Bool :=
  decide (blckcmpStr env request (searchFor tuple) = .ok 0)

theorem matching_accepts (env : Platform) (tuple : SngTuple) (request : BlockingRequest) (waiting : request.Waiting)
    (named : ∃ stored, tuple.name = .str stored) : matching env tuple request = accepts env tuple request := by
  obtain ⟨stored, isStr⟩ := named
  obtain ⟨order, compared⟩ := blckcmp_total env request (searchFor tuple) stored waiting isStr
  have decided := blckcmp_accepts env request (searchFor tuple) tuple order waiting ⟨stored, isStr⟩ rfl compared
  rw [matching, compared, Bool.eq_iff_iff, ← decided, decide_eq_true_eq, Except.ok.injEq]

def givenTo (env : Platform) (tuple : SngTuple) (requests : List BlockingRequest) : List BlockingRequest :=
  Waiters.throughFirst destructive (requests.filter (matching env tuple))

theorem serve_given (env : Platform) (tuple : SngTuple) (requests : List BlockingRequest)
    (named : ∃ stored, tuple.name = .str stored) (waiting : ∀ request ∈ requests, request.Waiting) :
    (Waiters.serve (accepts env tuple) destructive requests).answered = givenTo env tuple requests := by
  have same : requests.filter (accepts env tuple) = requests.filter (matching env tuple) :=
    List.filter_congr fun request member => (matching_accepts env tuple request (waiting request member) named).symm
  rw [Waiters.serve_answered, same]
  rfl

theorem put_given (env : Platform) (self : Tsd) (space : TsdElement) (tuple : SngTuple) (stored : Bytes)
    (named : tuple.name = .str stored) (nonempty : tuple.data ≠ [])
    (waiting : ∀ request ∈ space.namedQueueRequests, request.Waiting) (single : space.tsMode ≠ .p2p) :
    ∃ after frames, matchBlockingRequests env self space tuple .tsPut = .ok (0, after, frames.flatten) ∧
      (givenTo env tuple space.namedQueueRequests).mapM (answer env tuple) = .ok frames ∧
      after.namedQueue =
        if (givenTo env tuple space.namedQueueRequests).any destructive then space.namedQueue
        else space.namedQueue ++ [tuple] := by
  obtain ⟨final, looped⟩ := match_loop_total env tuple stored named nonempty (space.namedQueueRequests.length + 1)
    { requests := space.namedQueueRequests, needAppend := true, sent := [], history := space.history } waiting (Nat.lt_succ_self _)
  have returned : ∃ after sent, matchBlockingRequests env self space tuple .tsPut = .ok (0, after, sent) := by
    simp only [matchBlockingRequests, TsdElement.opQueue, looped, bind, Except.bind, pure, Except.pure, Bool.not_true,
      Bool.false_eq_true, if_false, single]
    split <;> exact ⟨_, _, rfl⟩
  obtain ⟨after, sent, done⟩ := returned
  obtain ⟨frames, answered, flat, left⟩ := match_put env self space after tuple 0 sent ⟨stored, named⟩ waiting single done
  subst flat
  refine ⟨after, frames, done, ?_, ?_⟩
  · rw [← serve_given env tuple space.namedQueueRequests ⟨stored, named⟩ waiting]
    exact answered
  · rw [← serve_given env tuple space.namedQueueRequests ⟨stored, named⟩ waiting, Waiters.serve_answered_taken, left]

-- A reader, one who pops and another reader, who gets nothing.
def sampleQueue : TsdElement :=
  { sampleSpace with
    namedQueueRequests :=
      [⟨.str [97], .str [67], .tsReadBlocking, 0, true, 1⟩, ⟨.null, .str [68], .tsPopBlocking, 0, false, 2⟩,
        ⟨.str [97], .str [69], .tsReadBlocking, 0, true, 3⟩] }

theorem put_given_queue :
    ∃ after frames, matchBlockingRequests samplePlatform sampleStart.self sampleQueue ⟨.str [97], 0, [7], 4⟩ .tsPut =
        .ok (0, after, frames.flatten) ∧
      (givenTo samplePlatform ⟨.str [97], 0, [7], 4⟩ sampleQueue.namedQueueRequests).mapM
        (answer samplePlatform ⟨.str [97], 0, [7], 4⟩) = .ok frames ∧
      after.namedQueue =
        if (givenTo samplePlatform ⟨.str [97], 0, [7], 4⟩ sampleQueue.namedQueueRequests).any destructive then
          sampleQueue.namedQueue
        else sampleQueue.namedQueue ++ [⟨.str [97], 0, [7], 4⟩] := by
  have waiting : ∀ request ∈ sampleQueue.namedQueueRequests, request.Waiting := by
    intro request member
    simp only [sampleQueue, List.mem_cons, List.not_mem_nil, or_false] at member
    rcases member with same | same | same
    · exact same ▸ ⟨⟨_, rfl⟩, Or.inl ⟨Or.inr rfl, _, rfl⟩, rfl⟩
    · exact same ▸ ⟨⟨_, rfl⟩, Or.inr ⟨Or.inl rfl, rfl⟩, rfl⟩
    · exact same ▸ ⟨⟨_, rfl⟩, Or.inl ⟨Or.inr rfl, _, rfl⟩, rfl⟩
  exact put_given samplePlatform sampleStart.self sampleQueue ⟨.str [97], 0, [7], 4⟩ [97] rfl (by simp) waiting
    (fun same => by cases same)

end Synergy
