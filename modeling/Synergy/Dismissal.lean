import Synergy.Answers
import Synergy.Closing
import Synergy.Lib.Loops

set_option autoImplicit false

namespace Synergy

open Loops

inductive RequestQueue where
  | named
  | bcast

def TsdElement.waits (space : TsdElement) : RequestQueue → List BlockingRequest
  | .named => space.namedQueueRequests
  | .bcast => space.bcastQueueRequests

def TsdElement.setWaits (space : TsdElement) (requests : List BlockingRequest) : RequestQueue → TsdElement
  | .named => { space with namedQueueRequests := requests }
  | .bcast => { space with bcastQueueRequests := requests }

-- What the loops of ts_term_clear_requests work on.
structure Clearing where
  space : TsdElement
  sent : List Out

def blckfreeG (blck : BlockingRequest) : Except Stop Unit :=
  if blck.name = .freed ∨ blck.clientid = .freed then .error .undefined else .ok ()

-- The body of the first loop and of the second.
def dismiss (env : Platform) (queue : RequestQueue) (clearing : Clearing) : Except Stop Clearing := do
  match zlistxDetach (clearing.space.waits queue) none with
  | (none, _) => throw .undefined
  | (some blck, rest) =>
      let message ← sendTerm env blck
      blckfreeG blck
      return { space := (clearing.space.setWaits rest queue).record (.terminated blck), sent := clearing.sent ++ message }

-- tplfree_g(zlistx_detach(named_queue, NULL)), the body of the third loop and of the fourth.
def discard (clearing : Clearing) : Except Stop Clearing :=
  match zlistxDetach clearing.space.namedQueue none with
  | (none, _) => .ok clearing
  | (some tuple, rest) =>
      .ok { clearing with space := ({ clearing.space with namedQueue := rest } : TsdElement).record (.discarded tuple) }

-- ts_term_clear_requests with its four loops.
def clearRequests (env : Platform) (fuel : Nat) (space : TsdElement) : Except Stop (TsdElement × List Out) := do
  let clearing ← whileSize .diverges (fun c => (c.space.waits .named).length) (dismiss env .named) fuel ⟨space, []⟩
  let clearing ← whileSize .diverges (fun c => (c.space.waits .bcast).length) (dismiss env .bcast) fuel clearing
  let clearing ← whileSize .diverges (fun c => c.space.namedQueue.length) discard fuel clearing
  let clearing ← whileSize .diverges (fun c => c.space.bcastQueue.length) discard fuel clearing
  return (clearing.space, clearing.sent)

-- Neither string of the request has been freed, and its client is known.
structure BlockingRequest.Live (request : BlockingRequest) : Prop where
  client : ∃ clientid, request.clientid = .str clientid
  name : request.name ≠ .freed

theorem term_sent (env : Platform) (request : BlockingRequest) (clientid : Bytes) (client : request.clientid = .str clientid) :
    sendTerm env request = .ok [.frame request.isLocal request.ticket clientid true,
      sendUint32 env request.isLocal request.ticket TupleCommand.tsTerm.code false] := by
  rw [sendTerm, client]
  rfl

theorem term_client (env : Platform) (request : BlockingRequest) (message : List Out) (done : sendTerm env request = .ok message) :
    ∃ clientid, request.clientid = .str clientid := by
  obtain ⟨header, identity, _⟩ := bind_ok _ _ _ done
  cases client : request.clientid with
  | str clientid => exact ⟨clientid, rfl⟩
  | null =>
      rw [client] at identity
      cases identity
  | freed =>
      rw [client] at identity
      cases identity

theorem dismiss_cases (env : Platform) (queue : RequestQueue) (clearing next : Clearing)
    (done : dismiss env queue clearing = .ok next) :
    ∃ blck rest message, clearing.space.waits queue = blck :: rest ∧ blck.Live ∧ sendTerm env blck = .ok message ∧
      next = ⟨(clearing.space.setWaits rest queue).record (.terminated blck), clearing.sent ++ message⟩ := by
  cases waiting : clearing.space.waits queue with
  | nil =>
      rw [dismiss, waiting] at done
      cases done
  | cons blck rest =>
      rw [dismiss, waiting] at done
      obtain ⟨message, told, done⟩ := bind_ok _ _ _ done
      obtain ⟨_, freed, done⟩ := bind_ok _ _ _ done
      cases done
      refine ⟨blck, rest, message, rfl, ⟨term_client env blck message told, fun gone => ?_⟩, told, rfl⟩
      rw [blckfreeG, if_pos (Or.inl gone)] at freed
      cases freed

theorem dismiss_live (env : Platform) (queue : RequestQueue) (clearing : Clearing) (blck : BlockingRequest)
    (rest : List BlockingRequest) (waiting : clearing.space.waits queue = blck :: rest) (live : blck.Live) :
    ∃ next, dismiss env queue clearing = .ok next ∧ next.space.waits queue = rest := by
  obtain ⟨clientid, client⟩ := live.client
  have kept : ¬ (blck.name = .freed ∨ blck.clientid = .freed) := by simp [live.name, client]
  have told := term_sent env blck clientid client
  rw [dismiss, waiting]
  simp only [zlistxDetach, Option.getD_none, List.getElem?_cons_zero, List.eraseIdx_zero, List.tail_cons, told, blckfreeG, kept,
    if_false, bind, Except.bind, pure, Except.pure]
  refine ⟨_, rfl, ?_⟩
  cases queue <;> rfl

structure DismissedUpTo (env : Platform) (queue : RequestQueue) (start clearing : Clearing) (front : List BlockingRequest)
    (messages : List (List Out)) : Prop where
  split : start.space.waits queue = front ++ clearing.space.waits queue
  live : ∀ request ∈ front, request.Live
  told : front.mapM (sendTerm env) = .ok messages
  state : clearing =
    ⟨{ start.space.setWaits (clearing.space.waits queue) queue with history := start.space.history ++ front.map .terminated },
      start.sent ++ messages.flatten⟩

theorem set_waits (space : TsdElement) (requests : List BlockingRequest) (queue : RequestQueue) (history : List Event) :
    ({ space.setWaits requests queue with history := history } : TsdElement).waits queue = requests := by
  cases queue <;> rfl

theorem dismiss_advances (env : Platform) (queue : RequestQueue) (start clearing next : Clearing) (front : List BlockingRequest)
    (messages : List (List Out)) (reached : DismissedUpTo env queue start clearing front messages)
    (done : dismiss env queue clearing = .ok next) :
    ∃ blck message, DismissedUpTo env queue start next (front ++ [blck]) (messages ++ [message]) := by
  obtain ⟨blck, rest, message, waiting, live, told, same⟩ := dismiss_cases env queue clearing next done
  have left : next.space.waits queue = rest := by
    rw [same]
    exact set_waits clearing.space rest queue _
  refine ⟨blck, message, ?_, ?_, ?_, ?_⟩
  · rw [left, reached.split, waiting, List.append_assoc, List.singleton_append]
  · intro request member
    rcases List.mem_append.mp member with before | last
    · exact reached.live request before
    · rwa [List.mem_singleton.mp last]
  · simp only [List.mapM_append, reached.told, List.mapM_cons, List.mapM_nil, told, bind, Except.bind, pure, Except.pure]
  · rw [left, same, reached.state]
    cases queue <;>
      simp [TsdElement.setWaits, TsdElement.record, TsdElement.waits]

-- What the first two loops leave, and the third.
def Clearing.dismissed (clearing : Clearing) (queue : RequestQueue) (messages : List (List Out)) : Clearing :=
  ⟨{ clearing.space.setWaits [] queue with
      history := clearing.space.history ++ (clearing.space.waits queue).map .terminated },
    clearing.sent ++ messages.flatten⟩

def Clearing.discarded (clearing : Clearing) : Clearing :=
  { clearing with space := { clearing.space with
      namedQueue := []
      history := clearing.space.history ++ clearing.space.namedQueue.map .discarded } }

theorem dismissing_done (env : Platform) (queue : RequestQueue) (fuel : Nat) (start last : Clearing)
    (done : whileSize .diverges (fun c => (c.space.waits queue).length) (dismiss env queue) fuel start = .ok last) :
    ∃ messages, (∀ request ∈ start.space.waits queue, request.Live) ∧
      (start.space.waits queue).mapM (sendTerm env) = .ok messages ∧
      last = start.dismissed queue messages := by
  have begun : DismissedUpTo env queue start start [] [] := by
    refine ⟨rfl, by simp, rfl, ?_⟩
    cases queue <;> simp [TsdElement.setWaits, TsdElement.waits]
  obtain ⟨⟨front, messages, reached⟩, empty⟩ := while_result .diverges (fun c : Clearing => (c.space.waits queue).length)
    (dismiss env queue) (fun clearing => ∃ front messages, DismissedUpTo env queue start clearing front messages)
    (fun clearing next ⟨front, messages, reached⟩ _ done =>
      have ⟨blck, message, further⟩ := dismiss_advances env queue start clearing next front messages reached done
      ⟨_, _, further⟩)
    fuel start last ⟨[], [], begun⟩ done
  have none : last.space.waits queue = [] := List.length_eq_zero_iff.mp empty
  have whole := reached.split
  rw [none, List.append_nil] at whole
  have final := reached.state
  rw [none] at final
  refine ⟨messages, whole ▸ reached.live, whole ▸ reached.told, ?_⟩
  unfold Clearing.dismissed
  rw [whole]
  exact final

theorem dismissing_ends (env : Platform) (queue : RequestQueue) (fuel : Nat) (start : Clearing)
    (live : ∀ request ∈ start.space.waits queue, request.Live) (enough : (start.space.waits queue).length < fuel) :
    ∃ last, whileSize .diverges (fun c => (c.space.waits queue).length) (dismiss env queue) fuel start = .ok last := by
  refine while_ends .diverges (fun c : Clearing => (c.space.waits queue).length) (dismiss env queue)
    (fun clearing => ∀ request ∈ clearing.space.waits queue, request.Live) ?_ fuel start enough live
  intro clearing live some
  cases waiting : clearing.space.waits queue with
  | nil => exact absurd (by rw [waiting]; rfl) some
  | cons blck rest =>
      rw [waiting] at live
      obtain ⟨next, done, left⟩ := dismiss_live env queue clearing blck rest waiting (live blck List.mem_cons_self)
      refine ⟨next, done, ?_, ?_⟩
      · rw [left]
        exact fun request member => live request (List.mem_cons_of_mem _ member)
      · rw [left, List.length_cons]
        exact Nat.lt_succ_self _

theorem discard_cases (clearing : Clearing) :
    (clearing.space.namedQueue = [] ∧ discard clearing = .ok clearing) ∨
      ∃ tuple rest, clearing.space.namedQueue = tuple :: rest ∧
        discard clearing =
          .ok { clearing with space := ({ clearing.space with namedQueue := rest } : TsdElement).record (.discarded tuple) } := by
  cases queue : clearing.space.namedQueue with
  | nil => exact Or.inl ⟨rfl, by rw [discard, queue]; rfl⟩
  | cons tuple rest => exact Or.inr ⟨tuple, rest, rfl, by rw [discard, queue]; rfl⟩

theorem discarding_done (fuel : Nat) (start : Clearing) (enough : start.space.namedQueue.length < fuel) :
    whileSize .diverges (fun c => c.space.namedQueue.length) discard fuel start = .ok start.discarded := by
  induction fuel generalizing start with
  | zero => exact absurd enough (Nat.not_lt_zero _)
  | succ fuel ih =>
      rcases discard_cases start with ⟨empty, _⟩ | ⟨tuple, rest, queue, done⟩
      · have nothing : start.space.namedQueue.map Event.discarded = [] := by rw [empty]; rfl
        rw [whileSize, if_pos (by rw [empty]; rfl), Clearing.discarded, nothing, List.append_nil, ← empty]
      · rw [queue] at enough
        have later := ih { start with space := ({ start.space with namedQueue := rest } : TsdElement).record (.discarded tuple) }
          (Nat.lt_of_succ_lt_succ enough)
        have more : ¬ start.space.namedQueue.length = 0 := by simp [queue]
        rw [whileSize, if_neg more, done]
        simpa [Clearing.discarded, queue, TsdElement.record] using later

-- The fourth has nothing to take from named_queue, and never comes to an end.
theorem discarding_stuck (fuel : Nat) (start last : Clearing) (named : start.space.namedQueue = []) (stored : start.space.bcastQueue ≠ []) :
    whileSize .diverges (fun c => c.space.bcastQueue.length) discard fuel start ≠ .ok last := by
  refine while_stuck .diverges (fun c : Clearing => c.space.bcastQueue.length) discard (fun clearing => clearing = start) ?_ ?_ fuel
    start last rfl
  · intro clearing same
    rw [same]
    exact fun empty => stored (List.length_eq_zero_iff.mp empty)
  · intro clearing next same done
    rcases discard_cases clearing with ⟨_, unchanged⟩ | ⟨tuple, rest, queue, _⟩
    · rw [unchanged] at done
      cases done
      exact same
    · rw [same, named] at queue
      cases queue

-- Everyone who was pending is told, in queue order, and nothing is left.
def ClearsAll (env : Platform) (space : TsdElement) : Prop :=
  ∃ least, ∀ fuel, least ≤ fuel → ∃ after messages, clearRequests env fuel space = .ok (after, messages.flatten) ∧
    space.pending.mapM (sendTerm env) = .ok messages ∧ after.Bare

theorem clear_requests_done (env : Platform) (fuel : Nat) (space after : TsdElement) (sent : List Out)
    (done : clearRequests env fuel space = .ok (after, sent)) :
    space.bcastQueue = [] ∧ ∀ request ∈ space.pending, request.Live := by
  obtain ⟨first, named, done⟩ := bind_ok _ _ _ done
  obtain ⟨second, bcast, done⟩ := bind_ok _ _ _ done
  obtain ⟨third, discarded, done⟩ := bind_ok _ _ _ done
  obtain ⟨fourth, ended, done⟩ := bind_ok _ _ _ done
  obtain ⟨namedMessages, namedLive, _, firstIs⟩ := dismissing_done env .named fuel ⟨space, []⟩ first named
  obtain ⟨bcastMessages, bcastLive, _, secondIs⟩ := dismissing_done env .bcast fuel first second bcast
  rw [firstIs] at secondIs bcastLive
  obtain ⟨kept, empty⟩ := while_result .diverges (fun c : Clearing => c.space.namedQueue.length) discard
    (fun clearing => clearing.space.bcastQueue = space.bcastQueue)
    (fun clearing next same _ done => by
      rcases discard_cases clearing with ⟨_, unchanged⟩ | ⟨tuple, rest, queue, taken⟩
      · rw [unchanged] at done
        cases done
        exact same
      · rw [taken] at done
        cases done
        exact same)
    fuel second third (by rw [secondIs]; rfl) discarded
  constructor
  · by_contra stored
    rw [← kept] at stored
    exact discarding_stuck fuel third fourth (List.length_eq_zero_iff.mp empty) stored ended
  · intro request member
    rcases List.mem_append.mp member with inNamed | inBcast
    · exact namedLive request inNamed
    · exact bcastLive request inBcast

-- The loops come to what the handler of TsTerm is modelled with.
theorem clear_requests_live (env : Platform) (fuel : Nat) (space : TsdElement) (empty : space.bcastQueue = [])
    (live : ∀ request ∈ space.pending, request.Live) (enough : space.pending.length + space.namedQueue.length < fuel) :
    ∃ after messages, clearRequests env fuel space = .ok (after, messages.flatten) ∧
      tsTermClearRequests env space = .ok (after, messages.flatten) ∧
      space.pending.mapM (sendTerm env) = .ok messages ∧ after.Bare := by
  rw [TsdElement.pending, List.length_append] at enough
  let start : Clearing := ⟨space, []⟩
  obtain ⟨first, named⟩ := dismissing_ends env .named fuel start (fun request member => live request (List.mem_append_left _ member))
    (by change space.namedQueueRequests.length < fuel; omega)
  obtain ⟨namedMessages, _, namedTold, firstIs⟩ := dismissing_done env .named fuel start first named
  have bcastSame : first.space.waits .bcast = space.bcastQueueRequests := by rw [firstIs]; rfl
  obtain ⟨second, bcast⟩ := dismissing_ends env .bcast fuel first
    (fun request member => live request (List.mem_append_right _ (bcastSame ▸ member))) (by rw [bcastSame]; omega)
  obtain ⟨bcastMessages, _, bcastTold, secondIs⟩ := dismissing_done env .bcast fuel first second bcast
  have discarded := discarding_done fuel second (by rw [secondIs, firstIs]; change space.namedQueue.length < fuel; omega)
  have ended : whileSize .diverges (fun c : Clearing => c.space.bcastQueue.length) discard fuel second.discarded = .ok second.discarded := by
    have bare : second.discarded.space.bcastQueue = [] := by rw [secondIs, firstIs]; exact empty
    obtain ⟨less, same⟩ : ∃ less, fuel = less + 1 := ⟨fuel - 1, by omega⟩
    rw [same, whileSize, if_pos (by rw [bare]; rfl)]
  change space.namedQueueRequests.mapM (sendTerm env) = .ok namedMessages at namedTold
  rw [bcastSame] at bcastTold
  subst firstIs secondIs
  have both : space.pending.mapM (sendTerm env) = .ok (namedMessages ++ bcastMessages) := by
    simp only [TsdElement.pending, List.mapM_append, namedTold, bcastTold, bind, Except.bind, pure, Except.pure]
  refine ⟨((start.dismissed .named namedMessages).dismissed .bcast bcastMessages).discarded.space, namedMessages ++ bcastMessages, ?_, ?_,
    both, ⟨rfl, empty, rfl, rfl⟩⟩
  · have started : (⟨space, []⟩ : Clearing) = start := rfl
    simp only [clearRequests, started, named, bcast, discarded, ended, bind, Except.bind, pure, Except.pure]
    rw [List.flatten_append]
    rfl
  · simp only [tsTermClearRequests, namedTold, bcastTold, empty, bind, Except.bind, pure, Except.pure, ne_eq, not_true_eq_false,
      if_false, List.flatten_append]
    simp [start, Clearing.discarded, Clearing.dismissed, TsdElement.setWaits, TsdElement.waits, empty]

theorem space_cleared_iff (env : Platform) (space : TsdElement) :
    ClearsAll env space ↔ space.bcastQueue = [] ∧ ∀ request ∈ space.pending, request.Live := by
  constructor
  · rintro ⟨least, each⟩
    obtain ⟨after, messages, done, _⟩ := each least (Nat.le_refl _)
    exact clear_requests_done env least space after _ done
  · rintro ⟨empty, live⟩
    refine ⟨space.pending.length + space.namedQueue.length + 1, fun fuel enough => ?_⟩
    obtain ⟨after, messages, done, _, told, bare⟩ := clear_requests_live env fuel space empty live enough
    exact ⟨after, messages, done, told, bare⟩

-- The request that a blocking broadcast read leaves holds a client id that has been freed, and a broadcast tuple keeps the
-- fourth loop going.
theorem broadcast_never_cleared :
    (∃ acted, bcastReadTuple samplePlatform ⟨.str [67], .tsBCastReadBlocking, true, 0⟩ { sampleSpace with isActivated := true } [97] =
        .ok acted ∧ ¬ ClearsAll samplePlatform acted.space) ∧
      ¬ ClearsAll samplePlatform { sampleSpace with bcastQueue := [⟨.str [97], 0, [7], 1⟩] } := by
  constructor
  · refine ⟨_, rfl, fun ⟨least, each⟩ => ?_⟩
    obtain ⟨after, messages, done, _⟩ := each least (Nat.le_refl _)
    obtain ⟨clientid, client⟩ := ((clear_requests_done samplePlatform least _ after _ done).2 _ List.mem_cons_self).client
    cases client
  · rintro ⟨least, each⟩
    obtain ⟨after, messages, done, _⟩ := each least (Nat.le_refl _)
    have stored := (clear_requests_done samplePlatform least _ after _ done).1
    cases stored

end Synergy
