import Synergy.Delivery

set_option autoImplicit false

namespace Synergy

def Out.ticket : Out → Option Nat
  | .frame _ ticket _ _ => some ticket
  | .chunk ticket _ => some ticket
  | _ => none

-- Something has been sent to the client of the request with the ticket.
def sentTo (sent : List Out) (ticket : Nat) : Bool := sent.any fun out => out.ticket = some ticket

theorem send_str_ticket (env : Platform) (isLocal : Bool) (ticket : Nat) (str : CString) (more : Bool) (frames : List Out)
    (sent : sendStr env isLocal ticket str more = .ok frames) : ∀ out ∈ frames, out.ticket = some ticket := by
  obtain ⟨chars, _, sent⟩ := bind_ok _ _ _ sent
  cases sent
  simp [Out.ticket]

theorem send_item_ticket (ticket : Nat) (data : Bytes) (chunks : List Out) (sent : sendItemOut ticket data = .ok chunks) :
    ∀ out ∈ chunks, out.ticket = some ticket := by
  obtain ⟨pieces, _, sent⟩ := bind_ok _ _ _ sent
  cases sent
  simp [Out.ticket]

theorem answer_ticket (env : Platform) (tuple : SngTuple) (request : BlockingRequest) (outs : List Out)
    (answered : answer env tuple request = .ok outs) :
    sentTo outs request.ticket = true ∧ ∀ out ∈ outs, out.ticket = some request.ticket := by
  obtain ⟨header, identity, answered⟩ := bind_ok _ _ _ answered
  obtain ⟨reply, responded, answered⟩ := bind_ok _ _ _ answered
  cases answered
  obtain ⟨chars, _, identity⟩ := bind_ok _ _ _ identity
  cases identity
  have every : ∀ out ∈ reply, out.ticket = some request.ticket := by
    obtain ⟨name, named, responded⟩ := bind_ok _ _ _ responded
    have nameTicket := send_str_ticket _ _ _ _ _ _ named
    split at responded
    · obtain ⟨item, passed, responded⟩ := bind_ok _ _ _ responded
      have itemTicket := send_item_ticket _ _ _ passed
      cases responded
      intro out member
      rcases List.mem_cons.mp member with same | member
      · exact same ▸ rfl
      · exact (List.mem_append.mp member).elim (nameTicket out) (itemTicket out)
    · cases responded
      intro out member
      rcases List.mem_cons.mp member with same | member
      · exact same ▸ rfl
      · rcases List.mem_append.mp member with front | back
        · exact nameTicket out front
        · simp only [List.mem_cons, List.not_mem_nil, or_false] at back
          rcases back with same | same <;> exact same ▸ rfl
  exact ⟨by simp [sentTo, Out.ticket], fun out member =>
    (List.mem_cons.mp member).elim (fun same => same ▸ rfl) (every out)⟩

theorem sent_to_answered (env : Platform) (tuple : SngTuple) (answered : List BlockingRequest) (frames : List (List Out))
    (done : answered.mapM (answer env tuple) = .ok frames) (ticket : Nat) :
    sentTo frames.flatten ticket = answered.any fun request => request.ticket = ticket := by
  induction answered generalizing frames with
  | nil =>
      cases done
      rfl
  | cons request later ih =>
      rw [List.mapM_cons] at done
      obtain ⟨outs, first, done⟩ := bind_ok _ _ _ done
      obtain ⟨others, rest, done⟩ := bind_ok _ _ _ done
      cases done
      obtain ⟨reached, every⟩ := answer_ticket env tuple request outs first
      have head : sentTo outs ticket = decide (request.ticket = ticket) := by
        by_cases same : request.ticket = ticket
        · rw [← same, reached]
          simp
        · have none : sentTo outs ticket = false := by
            rw [sentTo, List.any_eq_false]
            intro out member
            simp [every out member, same]
          simp [none, same]
      have split : sentTo (outs :: others).flatten ticket = (sentTo outs ticket || sentTo others.flatten ticket) := by
        simp only [sentTo, List.flatten_cons, List.any_append]
      rw [split, head, ih others rest, List.any_cons]

theorem unsent_requests (env : Platform) (self : Tsd) (space after : TsdElement) (tuple : SngTuple) (rt : Int)
    (sent : List Out) (tickets : Nat) (sound : space.Sound tickets) (named : ∃ stored, tuple.name = .str stored)
    (done : matchBlockingRequests env self space tuple .tsPut = .ok (rt, after, sent)) :
    after.namedQueueRequests = space.namedQueueRequests.filter (fun request => !sentTo sent request.ticket) ↔
      Waiters.lastTaker (accepts env tuple) destructive space.namedQueueRequests = true := by
  obtain ⟨frames, answered, sentFrames, result⟩ := match_put env self space after tuple rt sent named sound.waiting sound.single done
  have distinct : space.namedQueueRequests.Nodup := List.Nodup.of_map _ sound.distinct
  have rest := Waiters.serve_rest_filter (accepts env tuple) destructive space.namedQueueRequests distinct
  have fewer := (Waiters.serve_perm (accepts env tuple) destructive space.namedQueueRequests).subset
  have same : space.namedQueueRequests.filter (fun request => !sentTo sent request.ticket) =
      (Waiters.serve (accepts env tuple) destructive space.namedQueueRequests).rest := by
    rw [rest]
    refine List.filter_congr fun request member => ?_
    rw [sentFrames, sent_to_answered env tuple _ frames answered request.ticket, Bool.eq_iff_iff]
    simp only [Bool.not_eq_true', List.any_eq_false, decide_eq_true_eq]
    constructor
    · intro unsent answeredIt
      exact unsent request answeredIt rfl
    · intro unanswered other otherAnswered ticket
      have both := List.inj_on_of_nodup_map sound.distinct (fewer (List.mem_append_left _ otherAnswered)) member ticket
      exact unanswered (both ▸ otherAnswered)
  rw [same, result]
  exact Waiters.extra_removal_iff (accepts env tuple) destructive space.namedQueueRequests

-- Every request that was enqueued is still there or has been answered with a tuple or with TsTerm.
def TsdElement.Kept (space : TsdElement) : Prop :=
  ∀ request, Event.waits request ∈ space.history → request ∈ space.namedQueueRequests ∨
    (∃ tuple, Event.replied request.ticket request.command tuple ∈ space.history) ∨ Event.terminated request ∈ space.history

structure TsdElement.Recorded (tickets : Nat) (space : TsdElement) : Prop where
  known : ∀ request ∈ space.namedQueueRequests, Event.waits request ∈ space.history
  unanswered : ∀ request ∈ space.namedQueueRequests,
    (∀ command tuple, Event.replied request.ticket command tuple ∉ space.history) ∧ Event.terminated request ∉ space.history
  past : ∀ ticket command tuple, Event.replied ticket command tuple ∈ space.history → ticket < tickets
  gone : ∀ request, Event.terminated request ∈ space.history → request.ticket < tickets

theorem created_recorded (config : SngNamespace) : (createElement config).Recorded 0 where
  known := by simp [createElement]
  unanswered := by simp [createElement]
  past := by simp [createElement]
  gone := by simp [createElement]

theorem recorded_later (count : Nat) (space : TsdElement) (recorded : space.Recorded count) : space.Recorded (count + 1) :=
  { recorded with
    past := fun ticket command tuple member => Nat.lt_succ_of_lt (recorded.past ticket command tuple member)
    gone := fun request member => Nat.lt_succ_of_lt (recorded.gone request member) }

theorem offer_apart (env : Platform) (space : TsdElement) (tuple : SngTuple) (tickets : Nat) (sound : space.Sound tickets)
    (left answered : BlockingRequest) (stays : left ∈ (offer env space tuple).rest)
    (replied : answered ∈ (offer env space tuple).answered) : left.ticket ≠ answered.ticket := by
  have order := Waiters.serve_perm (accepts env tuple) destructive space.namedQueueRequests
  have distinct := (order.map BlockingRequest.ticket).nodup_iff.mpr sound.distinct
  rw [List.map_append] at distinct
  obtain ⟨_, _, apart⟩ := List.nodup_append.mp distinct
  exact fun same => apart _ (List.mem_map_of_mem replied) _ (List.mem_map_of_mem stays) same.symm

theorem offer_kept (env : Platform) (space : TsdElement) (tuple : SngTuple) (request : BlockingRequest)
    (member : request ∈ if (offer env space tuple).taken then (offer env space tuple).rest.eraseP (accepts env tuple)
      else (offer env space tuple).rest) : request ∈ (offer env space tuple).rest := by
  split at member
  · exact List.mem_of_mem_eraseP member
  · exact member

theorem enqueue_recorded (args : HandlerArg) (query : CString) (space : TsdElement) (recorded : space.Recorded args.ticket) :
    (space.enqueue args query).Recorded (args.ticket + 1) := by
  have later := recorded_later args.ticket space recorded
  have history := enqueue_history space args query
  have requests := enqueue_requests space args query
  cases blocks : isBlocking args.action with
  | false =>
      rw [blocks] at history requests
      simp only [Bool.false_eq_true, if_false, List.append_nil] at history requests
      exact ⟨by rw [requests, history]; exact later.known, by rw [requests, history]; exact later.unanswered,
        by rw [history]; exact later.past, by rw [history]; exact later.gone⟩
  | true =>
      rw [blocks] at history requests
      simp only [if_true] at history requests
      refine ⟨fun request member => ?_, fun request member => ⟨fun command tuple => ?_, ?_⟩, fun ticket command tuple member => ?_,
        fun request member => ?_⟩
      · rw [requests] at member
        rw [history]
        rcases List.mem_append.mp member with old | new
        · exact List.mem_append_left _ (recorded.known request old)
        · rw [List.mem_singleton.mp new]
          simp
      · rw [requests] at member
        rw [history]
        simp only [List.mem_append, List.mem_singleton, reduceCtorEq, or_false]
        rcases List.mem_append.mp member with old | new
        · exact (recorded.unanswered request old).1 command tuple
        · rw [List.mem_singleton.mp new]
          exact fun replied => Nat.lt_irrefl _ (recorded.past _ command tuple replied)
      · rw [requests] at member
        rw [history]
        simp only [List.mem_append, List.mem_singleton, reduceCtorEq, or_false]
        rcases List.mem_append.mp member with old | new
        · exact (recorded.unanswered request old).2
        · rw [List.mem_singleton.mp new]
          exact fun ended => Nat.lt_irrefl _ (recorded.gone _ ended)
      · rw [history] at member
        exact later.past ticket command tuple (by simpa using member)
      · rw [history] at member
        exact later.gone request (by simpa using member)

theorem change_recorded (env : Platform) (args : HandlerArg) (call : Call) (bytes : Bytes) (space after : TsdElement)
    (postings : List Posting) (sound : space.Sound args.ticket) (recorded : space.Recorded args.ticket)
    (change : Change env args call bytes space after postings) : after.Recorded (args.ticket + 1) := by
  have later := recorded_later args.ticket space recorded
  cases change with
  | connected after word endpoint asked queue requests history mode bcast active plain =>
      exact ⟨by rw [requests, history]; exact recorded.known, by rw [requests, history]; exact recorded.unanswered,
        by rw [history]; exact later.past, by rw [history]; exact later.gone⟩
  | put tuple written =>
      have fewer := put_requests_sublist env space tuple
      have before := Waiters.serve_perm (accepts env tuple) destructive space.namedQueueRequests
      refine ⟨fun request member => ?_, fun request member => ⟨fun command other => ?_, ?_⟩, fun ticket command other member => ?_,
        fun request member => ?_⟩
      · exact List.mem_append_left _ (List.mem_append_left _ (recorded.known request (fewer.subset member)))
      · have stays := offer_kept env space tuple request member
        simp only [List.mem_append, List.mem_singleton, List.mem_map, reduceCtorEq, or_false, not_or, not_exists, not_and]
        refine ⟨(recorded.unanswered request (fewer.subset member)).1 command other, fun answered replied same => ?_⟩
        exact offer_apart env space tuple args.ticket sound request answered stays replied (by injection same with ticket; exact ticket.symm)
      · simp only [List.mem_append, List.mem_singleton, List.mem_map, reduceCtorEq, and_false, exists_false, or_false]
        exact (recorded.unanswered request (fewer.subset member)).2
      · simp only [List.mem_append, List.mem_singleton, List.mem_map, reduceCtorEq, or_false] at member
        rcases member with old | ⟨answered, replied, same⟩
        · exact later.past ticket command other old
        · injection same with sameTicket
          rw [← sameTicket]
          exact Nat.lt_succ_of_lt (sound.older answered (before.subset (List.mem_append_left _ replied)))
      · simp only [List.mem_append, List.mem_singleton, List.mem_map, reduceCtorEq, and_false, exists_false, or_false] at member
        exact later.gone request member
  | missed query unwanted asked waiting =>
      have kept : (space.record (.notFound args.ticket query space.namedQueue)).Recorded args.ticket := by
        refine ⟨fun request member => List.mem_append_left _ (recorded.known request member),
          fun request member => ⟨fun command other => ?_, ?_⟩, fun ticket command other member => ?_, fun request member => ?_⟩
        · simpa [TsdElement.record] using (recorded.unanswered request member).1 command other
        · simpa [TsdElement.record] using (recorded.unanswered request member).2
        · exact recorded.past ticket command other (by simpa [TsdElement.record] using member)
        · exact recorded.gone request (by simpa [TsdElement.record] using member)
      exact enqueue_recorded args query _ kept
  | found query before rest tuple asked split wanted skipped =>
      refine ⟨fun request member => List.mem_append_left _ (recorded.known request member),
        fun request member => ⟨fun command other => ?_, ?_⟩, fun ticket command other member => ?_, fun request member => ?_⟩
      · simp only [List.mem_append, List.mem_singleton, not_or]
        refine ⟨(recorded.unanswered request member).1 command other, fun same => ?_⟩
        injection same with sameTicket
        exact absurd (sound.older request member) (by omega)
      · simp only [List.mem_append, List.mem_singleton, reduceCtorEq, or_false]
        exact (recorded.unanswered request member).2
      · rcases List.mem_append.mp member with old | new
        · exact later.past ticket command other old
        · injection List.mem_singleton.mp new with sameTicket
          omega
      · simp only [List.mem_append, List.mem_singleton, reduceCtorEq, or_false] at member
        exact later.gone request member
  | closed after asked queue requests history mode bcast inactive =>
      refine ⟨by simp [requests], by simp [requests], fun ticket command other member => ?_, fun request member => ?_⟩
      · rw [history] at member
        exact later.past ticket command other (by simpa using member)
      · rw [history, sound.bcast, List.append_nil] at member
        simp only [List.mem_append, List.mem_map, reduceCtorEq, and_false, exists_false, or_false] at member
        rcases member with old | ⟨waiting, pending, same⟩
        · exact later.gone request old
        · injection same with same
          exact same ▸ Nat.lt_succ_of_lt (sound.older waiting pending)

theorem kept_of_subset (space after : TsdElement) (kept : space.Kept)
    (waits : ∀ request, Event.waits request ∈ after.history →
      Event.waits request ∈ space.history ∨ request ∈ after.namedQueueRequests)
    (past : space.history ⊆ after.history)
    (pending : ∀ request ∈ space.namedQueueRequests, request ∈ after.namedQueueRequests ∨
      (∃ tuple, Event.replied request.ticket request.command tuple ∈ after.history) ∨
        Event.terminated request ∈ after.history) : after.Kept := by
  intro request member
  rcases waits request member with old | new
  · rcases kept request old with still | ⟨tuple, replied⟩ | ended
    · exact pending request still
    · exact Or.inr (Or.inl ⟨tuple, past replied⟩)
    · exact Or.inr (Or.inr (past ended))
  · exact Or.inl new

theorem put_kept_iff (env : Platform) (args : HandlerArg) (space after : TsdElement) (tuple : SngTuple)
    (sound : space.Sound args.ticket) (recorded : space.Recorded args.ticket) (kept : space.Kept)
    (requests : after.namedQueueRequests = if (offer env space tuple).taken then (offer env space tuple).rest.eraseP (accepts env tuple)
      else (offer env space tuple).rest)
    (history : after.history = (space.history ++ [.accepted tuple]) ++
      (offer env space tuple).answered.map fun request => .replied request.ticket request.command tuple) :
    after.Kept ↔ Waiters.lastTaker (accepts env tuple) destructive space.namedQueueRequests = true := by
  have order := Waiters.serve_perm (accepts env tuple) destructive space.namedQueueRequests
  have removal := Waiters.extra_removal_iff (accepts env tuple) destructive space.namedQueueRequests
  change (if (offer env space tuple).taken then (offer env space tuple).rest.eraseP (accepts env tuple)
    else (offer env space tuple).rest) = (offer env space tuple).rest ↔ _ at removal
  rw [← removal, ← requests]
  have distinct : (offer env space tuple).rest.Nodup := by
    have whole := (order.nodup_iff).mpr (List.Nodup.of_map _ sound.distinct)
    exact (List.nodup_append.mp whole).2.1
  constructor
  · intro keptAfter
    by_contra different
    -- somebody is missing who was not answered
    obtain ⟨lost, stays, missing⟩ : ∃ lost ∈ (offer env space tuple).rest, lost ∉ after.namedQueueRequests := by
      rw [requests] at different ⊢
      split at different
      · rename_i taken
        rw [if_pos taken]
        obtain ⟨lost, member, accepted⟩ : ∃ lost ∈ (offer env space tuple).rest, accepts env tuple lost = true := by
          by_contra none
          exact different (List.eraseP_of_forall_not fun request member accepted => none ⟨request, member, accepted⟩)
        obtain ⟨first, before, rest, _, _, split, erased⟩ := List.exists_of_eraseP member accepted
        refine ⟨first, by simp [split], ?_⟩
        rw [erased]
        rw [split] at distinct
        exact (List.nodup_middle.mp distinct).notMem
      · exact absurd rfl different
    have was : lost ∈ space.namedQueueRequests := order.subset (List.mem_append_right _ stays)
    have waits : Event.waits lost ∈ after.history := by
      rw [history]
      exact List.mem_append_left _ (List.mem_append_left _ (recorded.known lost was))
    rcases keptAfter lost waits with still | ⟨other, replied⟩ | ended
    · exact missing still
    · rw [history] at replied
      simp only [List.mem_append, List.mem_singleton, List.mem_map, reduceCtorEq, or_false] at replied
      rcases replied with old | ⟨answered, member, same⟩
      · exact (recorded.unanswered lost was).1 _ _ old
      · injection same with ticket
        exact offer_apart env space tuple args.ticket sound lost answered stays member ticket.symm
    · rw [history] at ended
      simp only [List.mem_append, List.mem_singleton, List.mem_map, reduceCtorEq, and_false, exists_false, or_false] at ended
      exact (recorded.unanswered lost was).2 ended
  · intro all
    refine kept_of_subset space after kept (fun request member => ?_) ?_ fun request member => ?_
    · rw [history] at member
      simp only [List.mem_append, List.mem_singleton, List.mem_map, reduceCtorEq, and_false, exists_false, or_false] at member
      exact Or.inl member
    · rw [history]
      exact fun event member => List.mem_append_left _ (List.mem_append_left _ member)
    · rcases List.mem_append.mp (order.symm.subset member) with answered | rest
      · refine Or.inr (Or.inl ⟨tuple, ?_⟩)
        rw [history]
        exact List.mem_append_right _ (List.mem_map.mpr ⟨request, answered, rfl⟩)
      · exact Or.inl (all ▸ rest)

theorem change_kept (env : Platform) (args : HandlerArg) (call : Call) (bytes : Bytes) (space after : TsdElement)
    (postings : List Posting) (kept : space.Kept) (notPut : call.written args.ticket bytes = none)
    (change : Change env args call bytes space after postings) : after.Kept := by
  cases change with
  | connected after word endpoint asked queue requests history mode bcast active plain =>
      exact kept_of_subset space after kept (fun request member => Or.inl (history ▸ member)) (by rw [history]; exact List.Subset.refl _)
        fun request member => Or.inl (requests ▸ member)
  | put tuple written =>
      rw [notPut] at written
      cases written
  | missed query unwanted asked waiting =>
      have history := enqueue_history (space.record (.notFound args.ticket query space.namedQueue)) args query
      have requests := enqueue_requests (space.record (.notFound args.ticket query space.namedQueue)) args query
      refine kept_of_subset space _ kept (fun request member => ?_) ?_ fun request member => ?_
      · rw [history] at member
        rcases List.mem_append.mp member with old | new
        · exact Or.inl (by simpa [TsdElement.record] using old)
        · right
          rw [requests]
          split at new
          · injection List.mem_singleton.mp new with same
            exact List.mem_append_right _ (by simp [*])
          · cases new
      · rw [history]
        exact fun event member => List.mem_append_left _ (List.mem_append_left _ member)
      · rw [requests]
        exact Or.inl (List.mem_append_left _ member)
  | found query before rest tuple asked split wanted skipped =>
      refine kept_of_subset space _ kept (fun request member => Or.inl (by simpa using member))
        (fun event member => List.mem_append_left _ member) fun request member => Or.inl member
  | closed after asked queue requests history mode bcast inactive =>
      refine kept_of_subset space after kept (fun request member => ?_) ?_ fun request member => ?_
      · rw [history] at member
        simp only [List.mem_append, List.mem_map, reduceCtorEq, and_false, exists_false, or_false] at member
        exact Or.inl member
      · rw [history]
        exact fun event member => List.mem_append_left _ (List.mem_append_left _ member)
      · refine Or.inr (Or.inr ?_)
        rw [history]
        exact List.mem_append_left _ (List.mem_append_right _ (List.mem_map.mpr ⟨request, List.mem_append_left _ member, rfl⟩))

-- The put of this arrival finds nobody who accepts its tuple behind the first who takes it.
def Arrival.SparesWaiters (env : Platform) (spaceName : Bytes) (daemon : Daemon) (arrival : Arrival) : Prop :=
  ∀ space name data, daemon.self.spaceTable spaceName = some space → space.isActivated = true →
    arrival.ts.tsname.chars = spaceName → arrival.call = .tsInPut name data →
    Waiters.lastTaker (accepts env { name := .str name.chars, anonId := 0, data := data.bytes, origin := 0 }) destructive
      space.namedQueueRequests = true

theorem accepts_name (env : Platform) (first second : SngTuple) (same : first.name = second.name) :
    accepts env first = accepts env second := by
  funext request
  simp only [accepts, wants, same]

theorem step_kept_iff (env : Platform) (spaceName : Bytes) (daemon next : Daemon) (arrival : Arrival)
    (named : arrival.ts.tsname.chars = spaceName → arrival.call.named = true)
    (holds : ∀ space, daemon.self.spaceTable spaceName = some space →
      space.Sound daemon.clients.length ∧ space.Recorded daemon.clients.length)
    (kept : ∀ space, daemon.self.spaceTable spaceName = some space → space.Kept)
    (taken : daemon.step env arrival = some next) :
    (∀ space, next.self.spaceTable spaceName = some space → space.Kept) ↔ arrival.SparesWaiters env spaceName daemon := by
  cases left : next.self.spaceTable spaceName with
  | none =>
      have missing := step_keeps_spaces env daemon next arrival spaceName taken left
      exact ⟨fun _ space name data found => by simp [missing] at found, fun _ space found => by simp at found⟩
  | some after =>
      obtain ⟨before, there, change⟩ := step_space env daemon next arrival spaceName after taken left
      obtain ⟨sound, recorded⟩ := holds before there
      have keptBefore := kept before there
      rcases change with ⟨unchanged, refused⟩ | ⟨here, active, bytes, rest, acted, _, done, result⟩
      · subst unchanged
        refine ⟨fun _ space name data found running member call => ?_, fun _ space same => Option.some.inj same ▸ keptBefore⟩
        have off := (refused member).2
        rw [Option.some.inj (there.symm.trans found), running] at off
        cases off
      · obtain ⟨postings, change, _⟩ := act_change env daemon.self (arrival.args daemon.clients.length) before arrival.call bytes acted
          daemon.clients.length arrival.client.chars sound (named_plain arrival.call (named here)) rfl rfl active done
        cases call : arrival.call with
        | tsInPut name data =>
            have running : before.isActivated = true := by
              rcases active with connect | running
              · simp [call, Call.command] at connect
              · exact running
            rw [call] at change
            obtain ⟨requests, history⟩ := change_put env _ name data bytes before acted.space postings change
            have decided := put_kept_iff env (arrival.args daemon.clients.length) before acted.space
              ⟨.str name.chars, 0, bytes, daemon.clients.length⟩ sound recorded keptBefore requests history
            constructor
            · intro good other otherName otherData found _ _ otherCall
              rw [call] at otherCall
              injection otherCall with sameName sameData
              rw [Option.some.inj (found.symm.trans there), ← sameName]
              have held := decided.mp (result ▸ good after rfl)
              rwa [accepts_name env ⟨.str name.chars, 0, bytes, daemon.clients.length⟩
                { name := .str name.chars, anonId := 0, data := otherData.bytes, origin := 0 } rfl] at held
            · intro spares other same
              rw [← Option.some.inj same, result]
              refine decided.mpr ?_
              have held := spares before name data there running here call
              rwa [accepts_name env ⟨.str name.chars, 0, bytes, daemon.clients.length⟩
                { name := .str name.chars, anonId := 0, data := data.bytes, origin := 0 } rfl]
        | _ =>
            refine ⟨fun _ space name data _ _ _ put => by simp [call] at put, fun _ space same => ?_⟩
            have notAdd := named here
            rw [← Option.some.inj same, result]
            refine change_kept env _ arrival.call bytes before acted.space postings keptBefore ?_ change
            rw [call] at notAdd ⊢
            first | rfl | cases notAdd

theorem calls_keep_recorded (env : Platform) :
    KeptByCalls env (fun call => call.named = true) fun tickets space => space.Sound tickets ∧ space.Recorded tickets where
  later := fun count space ⟨sound, recorded⟩ => ⟨sound_later count space sound, recorded_later count space recorded⟩
  signals := by
    rintro count before after signalled ⟨sound, recorded⟩
    have kept := signalled_sound count before after signalled sound
    obtain ⟨direct, requests, active, same⟩ := signalled
    subst same
    exact ⟨kept, { recorded with }⟩
  acts := by
    rintro self args clientid call space bytes acted named client action active ⟨sound, recorded⟩ done
    obtain ⟨postings, change, _⟩ :=
      act_change env self args space call bytes acted args.ticket clientid.chars sound (named_plain call named) client action active done
    exact ⟨change_sound env args call bytes space acted.space postings sound change,
      change_recorded env args call bytes space acted.space postings sound recorded change⟩

def Turn.SparesWaiters (env : Platform) (spaceName : Bytes) (daemon : Daemon) : Turn → Prop
  | .receives arrival => arrival.SparesWaiters env spaceName daemon
  | .activates _ => True
  | .decomissions _ => True

theorem heard_kept (daemon next : Daemon) (spaceName : Bytes)
    (spaces : next.clients = daemon.clients ∧ ∀ after, next.self.spaceTable spaceName = some after →
      ∃ before, daemon.self.spaceTable spaceName = some before ∧ before.Signalled after)
    (kept : daemon.SpaceHolds spaceName fun _ space => space.Kept) : next.SpaceHolds spaceName fun _ space => space.Kept := by
  intro after found
  obtain ⟨before, there, direct, requests, active, same⟩ := spaces.2 after found
  subst same
  exact kept before there

theorem turn_kept_iff (env : Platform) (spaceName : Bytes) (daemon next : Daemon) (turn : Turn)
    (named : turn.Only spaceName fun call => call.named = true)
    (holds : daemon.SpaceHolds spaceName fun tickets space => space.Sound tickets ∧ space.Recorded tickets)
    (kept : daemon.SpaceHolds spaceName fun _ space => space.Kept) (taken : daemon.turn env turn = some next) :
    next.SpaceHolds spaceName (fun _ space => space.Kept) ↔ turn.SparesWaiters env spaceName daemon := by
  cases turn with
  | receives arrival => exact step_kept_iff env spaceName daemon next arrival named holds kept taken
  | activates tk =>
      exact ⟨fun _ => trivial, fun _ => heard_kept daemon next spaceName (heard_space daemon next _ spaceName
        (fun self sent after done found => connect_token_space env daemon.self self tk sent spaceName after done found) taken) kept⟩
  | decomissions tk =>
      exact ⟨fun _ => trivial, fun _ => heard_kept daemon next spaceName (heard_space daemon next _ spaceName
        (fun self sent after done found => term_token_space daemon.self self tk sent spaceName after done found) taken) kept⟩

-- A put leaves just those waiting whom it has sent nothing, and nobody is ever lost, exactly when no
-- request that accepts the tuple stands behind the first that takes it.
theorem pending_requests_kept (env : Platform) (endpoint : Bytes) (replicationFactor : UInt32) (spaces : List SngNamespace)
    (spaceName : Bytes) (turns : List Turn)
    (single : ∀ config ∈ spaces, config.name = spaceName → config.tsMode ≠ .p2p)
    (only : ∀ turn ∈ turns, turn.Only spaceName fun call => call.named = true) :
    (∀ daemon space tuple rt after sent,
      Runs.run (Daemon.turn env) (Daemon.start endpoint replicationFactor spaces) turns = some daemon →
      daemon.self.spaceTable spaceName = some space → (∃ stored, tuple.name = .str stored) →
      matchBlockingRequests env daemon.self space tuple .tsPut = .ok (rt, after, sent) →
      (after.namedQueueRequests = space.namedQueueRequests.filter (fun request => !sentTo sent request.ticket) ↔
        Waiters.lastTaker (accepts env tuple) destructive space.namedQueueRequests = true)) ∧
      (Runs.Throughout (Daemon.turn env) (Daemon.SpaceHolds spaceName fun _ space => space.Kept)
          (Daemon.start endpoint replicationFactor spaces) turns ↔
        Runs.Meets (Daemon.turn env) (fun daemon turn => turn.SparesWaiters env spaceName daemon)
          (Daemon.start endpoint replicationFactor spaces) turns) := by
  have initial := start_holds endpoint replicationFactor spaces spaceName
    (fun tickets space => space.Sound tickets ∧ space.Recorded tickets) fun config member here =>
      ⟨created_sound config (single config member here), created_recorded config⟩
  constructor
  · intro daemon space tuple rt after sent ran found named done
    obtain ⟨sound, _⟩ :=
      run_holds env spaceName _ _ (calls_keep_recorded env) _ daemon turns initial only ran space found
    exact unsent_requests env daemon.self space after tuple rt sent daemon.clients.length sound named done
  · refine Runs.throughout_iff_meets (Daemon.turn env) (fun turn => turn.Only spaceName fun call => call.named = true)
      _ _ (Daemon.SpaceHolds spaceName fun tickets space => space.Sound tickets ∧ space.Recorded tickets) ?_ ?_ _ turns only initial ?_
    · intro daemon turn next permitted holds taken
      exact turn_holds env spaceName _ _ (calls_keep_recorded env) daemon turn next permitted holds taken
    · intro daemon turn next permitted holds kept taken
      exact turn_kept_iff env spaceName daemon next turn permitted holds kept taken
    · exact start_holds endpoint replicationFactor spaces spaceName (fun _ space => space.Kept) fun config _ _ request member => by
        simp [createElement] at member

-- Two clients wait for names of their own.
def sampleWaits : List Turn :=
  [sampleTurn sampleClient false (.tsOutQuery true true sampleName), sampleTurn otherClient false (.tsOutQuery true true otherName)]

def samplePutting : Turn := sampleTurn ⟨⟨[69], by decide⟩, by decide⟩ false (.tsInPut sampleName samplePayload)

theorem sample_putting_spares : Runs.Meets (Daemon.turn samplePlatform)
    (fun daemon turn => turn.SparesWaiters samplePlatform [115] daemon) sampleStart (sampleWaits ++ [samplePutting]) := by
  intro first taken
  cases taken
  refine ⟨fun space name data _ _ _ puts => (nomatch puts), fun second taken => ?_⟩
  cases taken
  refine ⟨fun space name data _ _ _ puts => (nomatch puts), fun third taken => ⟨fun space name data found _ _ puts => ?_, trivial⟩⟩
  cases puts
  cases found
  rfl

-- A third client puts the name that the first waits for, and the second goes on waiting.
theorem pending_requests_kept_two_waiters :
    Runs.Throughout (Daemon.turn samplePlatform) (Daemon.SpaceHolds [115] fun _ space => space.Kept) sampleStart
        (sampleWaits ++ [samplePutting]) ∧
      ∃ daemon space after sent, Runs.run (Daemon.turn samplePlatform) sampleStart sampleWaits = some daemon ∧
        daemon.self.spaceTable [115] = some space ∧ space.namedQueueRequests.length = 2 ∧
        matchBlockingRequests samplePlatform daemon.self space ⟨.str [97], 0, [7], 2⟩ .tsPut = .ok (0, after, sent) ∧
        after.namedQueueRequests = space.namedQueueRequests.filter (fun request => !sentTo sent request.ticket) := by
  refine ⟨(pending_requests_kept samplePlatform [101] 1 sampleSpaces [115] (sampleWaits ++ [samplePutting]) sample_single
    (by decide)).2.mpr sample_putting_spares, ?_⟩
  obtain ⟨daemon, space, after, sent, ran, found, waiting, done, last⟩ : ∃ daemon space after sent,
      Runs.run (Daemon.turn samplePlatform) sampleStart sampleWaits = some daemon ∧ daemon.self.spaceTable [115] = some space ∧
      space.namedQueueRequests.length = 2 ∧
      matchBlockingRequests samplePlatform daemon.self space ⟨.str [97], 0, [7], 2⟩ .tsPut = .ok (0, after, sent) ∧
      Waiters.lastTaker (accepts samplePlatform ⟨.str [97], 0, [7], 2⟩) destructive space.namedQueueRequests = true :=
    ⟨_, _, _, _, rfl, rfl, rfl, rfl, rfl⟩
  exact ⟨daemon, space, after, sent, ran, found, waiting, done,
    ((pending_requests_kept samplePlatform [101] 1 sampleSpaces [115] sampleWaits sample_single (by decide)).1
      daemon space _ 0 after sent ran found ⟨[97], rfl⟩ done).mpr last⟩

-- Two clients wait for the same name, and a third puts it: the first gets it, the second is forgotten.
theorem pending_request_lost :
    ∃ daemon space after sent, Runs.run (Daemon.turn samplePlatform) sampleStart
        [sampleTurn sampleClient false (.tsOutQuery true true sampleName),
          sampleTurn otherClient false (.tsOutQuery true true sampleName)] = some daemon ∧
      daemon.self.spaceTable [115] = some space ∧
      matchBlockingRequests samplePlatform daemon.self space ⟨.str [97], 0, [7], 2⟩ .tsPut = .ok (0, after, sent) ∧
      after.namedQueueRequests ≠ space.namedQueueRequests.filter (fun request => !sentTo sent request.ticket) ∧
      ¬ after.Kept := by
  have reached : ∃ daemon space after sent, Runs.run (Daemon.turn samplePlatform) sampleStart
      [sampleTurn sampleClient false (.tsOutQuery true true sampleName),
        sampleTurn otherClient false (.tsOutQuery true true sampleName)] = some daemon ∧
      daemon.self.spaceTable [115] = some space ∧
      matchBlockingRequests samplePlatform daemon.self space ⟨.str [97], 0, [7], 2⟩ .tsPut = .ok (0, after, sent) ∧
      after.namedQueueRequests = [] ∧
      space.namedQueueRequests.filter (fun request => !sentTo sent request.ticket) =
        [⟨.str [97], .str [68], .tsGetBlocking, 0, false, 1⟩] ∧
      after.history =
        [.notFound 0 (.str [97]) [], .waits ⟨.str [97], .str [67], .tsGetBlocking, 0, false, 0⟩, .notFound 1 (.str [97]) [],
          .waits ⟨.str [97], .str [68], .tsGetBlocking, 0, false, 1⟩, .replied 0 .tsGetBlocking ⟨.str [97], 0, [7], 2⟩] :=
    ⟨_, _, _, _, rfl, rfl, rfl, rfl, rfl, rfl⟩
  obtain ⟨daemon, space, after, sent, ran, found, done, empty, unsent, history⟩ := reached
  refine ⟨daemon, space, after, sent, ran, found, done, by simp [empty, unsent], fun kept => ?_⟩
  have lost := kept ⟨.str [97], .str [68], .tsGetBlocking, 0, false, 1⟩ (by simp [history])
  simp [empty, history] at lost

end Synergy
