import Synergy.Delivery

set_option autoImplicit false

namespace Synergy

-- No pending request accepts a stored tuple.
def TsdElement.Settled (env : Platform) (space : TsdElement) : Prop :=
  Waiters.Settled (fun request tuple => accepts env tuple request) space.namedQueue space.namedQueueRequests

theorem change_settled (env : Platform) (args : HandlerArg) (call : Call) (bytes : Bytes) (space after : TsdElement)
    (postings : List Posting) (settled : space.Settled env) (change : Change env args call bytes space after postings) :
    after.Settled env := by
  cases change with
  | connected after word endpoint asked queue requests history mode bcast active plain =>
      unfold TsdElement.Settled
      rw [queue, requests]
      exact settled
  | put tuple written =>
      cases taken : (offer env space tuple).taken with
      | true =>
          have kept := put_requests_sublist env space tuple
          rw [taken, if_pos rfl] at kept
          simp only [TsdElement.Settled, if_true]
          exact Waiters.settled_fewer _ _ _ _ _ settled (List.Subset.refl _) kept.subset
      | false =>
          simp only [TsdElement.Settled, Bool.false_eq_true, if_false]
          exact Waiters.settled_offer _ destructive space.namedQueue space.namedQueueRequests tuple settled taken
  | missed query unwanted asked waiting =>
      unfold TsdElement.Settled
      rw [enqueue_queue, enqueue_requests]
      split
      · exact Waiters.settled_wait _ space.namedQueue space.namedQueueRequests (args.request query) settled unwanted
      · rw [List.append_nil]
        exact settled
  | found query before rest tuple asked split wanted skipped =>
      refine Waiters.settled_fewer _ space.namedQueue _ space.namedQueueRequests _ settled ?_ (List.Subset.refl _)
      split
      · rw [split]
        exact ((List.sublist_cons_self tuple rest).append_left before).subset
      · exact List.Subset.refl _
  | closed after asked queue requests history mode bcast inactive =>
      intro request member
      rw [requests] at member
      cases member

def TsdElement.Named (space : TsdElement) : Prop := ∀ tuple ∈ space.namedQueue, ∃ stored, tuple.name = .str stored

theorem change_named (env : Platform) (args : HandlerArg) (call : Call) (bytes : Bytes) (space after : TsdElement)
    (postings : List Posting) (plain : call.named = true) (named : space.Named)
    (change : Change env args call bytes space after postings) : after.Named := by
  cases change with
  | connected after word endpoint asked queue requests history mode bcast active plain =>
      unfold TsdElement.Named
      rw [queue]
      exact named
  | put tuple written =>
      intro other member
      simp only at member
      split at member
      · exact named other member
      · rcases List.mem_append.mp member with old | new
        · exact named other old
        · rw [List.mem_singleton.mp new]
          exact (named_written call args.ticket bytes tuple plain written).2
  | missed query unwanted asked waiting =>
      unfold TsdElement.Named
      rw [enqueue_queue]
      exact named
  | found query before rest tuple asked split wanted skipped =>
      intro other member
      simp only at member
      split at member
      · refine named other ?_
        rw [split]
        exact ((List.sublist_cons_self tuple rest).append_left before).subset member
      · exact named other member
  | closed after asked queue requests history mode bcast inactive =>
      intro other member
      rw [queue] at member
      cases member

theorem calls_keep_settled (env : Platform) :
    KeptByCalls env (fun call => call.named = true) fun tickets space => space.Sound tickets ∧ space.Named ∧ space.Settled env where
  later := fun count space ⟨sound, named, settled⟩ => ⟨sound_later count space sound, named, settled⟩
  signals := by
    rintro count before after signalled ⟨sound, named, settled⟩
    have kept := signalled_sound count before after signalled sound
    obtain ⟨direct, requests, active, same⟩ := signalled
    subst same
    exact ⟨kept, named, settled⟩
  acts := by
    rintro self args clientid call space bytes acted plain client action active ⟨sound, named, settled⟩ done
    obtain ⟨postings, change, _⟩ :=
      act_change env self args space call bytes acted args.ticket clientid.chars sound (named_plain call plain) client action active done
    exact ⟨change_sound env args call bytes space acted.space postings sound change,
      change_named env args call bytes space acted.space postings plain named change,
      change_settled env args call bytes space acted.space postings settled change⟩

-- Whoever waits waits for something that is not there.
theorem no_lost_wakeup (env : Platform) (endpoint : Bytes) (replicationFactor : UInt32) (spaces : List SngNamespace)
    (spaceName : Bytes) (turns : List Turn) (daemon : Daemon) (space : TsdElement)
    (single : ∀ config ∈ spaces, config.name = spaceName → config.tsMode ≠ .p2p)
    (only : ∀ turn ∈ turns, turn.Only spaceName fun call => call.named = true)
    (ran : Runs.run (Daemon.turn env) (Daemon.start endpoint replicationFactor spaces) turns = some daemon)
    (found : daemon.self.spaceTable spaceName = some space) :
    (∀ request ∈ space.namedQueueRequests, request.command = .tsGetBlocking ∨ request.command = .tsReadBlocking →
      ∃ asked, request.name = .str asked ∧ ∀ tuple ∈ space.namedQueue, ∃ stored order, tuple.name = .str stored ∧
        tplcmp env tuple { name := .str asked, anonId := 0, data := [], origin := 0 } = .ok order ∧ order ≠ 0) ∧
      ((∃ request ∈ space.namedQueueRequests, request.command = .tsPopBlocking ∨ request.command = .tsPeekBlocking) →
        space.namedQueue = []) := by
  have initial := start_holds endpoint replicationFactor spaces spaceName
    (fun tickets space => space.Sound tickets ∧ space.Named ∧ space.Settled env) fun config member here =>
      ⟨created_sound config (single config member here), by simp [TsdElement.Named, createElement],
        by simp [TsdElement.Settled, Waiters.Settled, createElement]⟩
  obtain ⟨sound, allNamed, settled⟩ :=
    run_holds env spaceName _ _ (calls_keep_settled env) _ daemon turns initial only ran space found
  constructor
  · intro request member query
    have notFetch : fetches request.command = false := by
      rcases query with get | read <;> simp [fetches, *]
    obtain ⟨asked, isStr⟩ : ∃ asked, request.name = .str asked := by
      rcases (sound.waiting request member).kind with ⟨_, named⟩ | ⟨pop | peek, _⟩
      · exact named
      · rcases query with get | read <;> simp [*] at pop
      · rcases query with get | read <;> simp [*] at peek
    refine ⟨asked, isStr, fun tuple present => ?_⟩
    obtain ⟨stored, named⟩ := allNamed tuple present
    have compared := tplcmp_named env tuple { name := .str asked, anonId := 0, data := [], origin := 0 } stored asked named rfl
    refine ⟨stored, nameCmp env stored asked, named, compared, fun zero => ?_⟩
    have wanted := (tplcmp_wants env request.command asked tuple _ _ notFetch (Or.inl ⟨stored, named⟩) rfl rfl compared).mp zero
    have refused := settled request member tuple present
    simp only [accepts, isStr, wanted, Bool.true_eq_false] at refused
  · rintro ⟨request, member, fetch⟩
    cases queue : space.namedQueue with
    | nil => rfl
    | cons first later =>
        have whole : fetches request.command = true := by
          rcases fetch with pop | peek <;> simp [fetches, *]
        have refused := settled request member first (by simp [queue])
        simp [accepts, wants, whole] at refused

theorem no_lost_wakeup_waiting :
    ∃ daemon space, Runs.run (Daemon.turn samplePlatform) sampleStart
        [sampleTurn sampleClient false (.tsOutQuery true true otherName),
          sampleTurn otherClient true (.tsInPut sampleName samplePayload)] = some daemon ∧
      daemon.self.spaceTable [115] = some space ∧ space.namedQueue.length = 1 ∧ space.namedQueueRequests.length = 1 ∧
      ¬ ∃ request ∈ space.namedQueueRequests, request.command = .tsPopBlocking ∨ request.command = .tsPeekBlocking := by
  have reached : ∃ daemon space, Runs.run (Daemon.turn samplePlatform) sampleStart
      [sampleTurn sampleClient false (.tsOutQuery true true otherName),
        sampleTurn otherClient true (.tsInPut sampleName samplePayload)] = some daemon ∧
      daemon.self.spaceTable [115] = some space ∧ space.namedQueue.length = 1 ∧ space.namedQueueRequests.length = 1 :=
    ⟨_, _, rfl, rfl, rfl, rfl⟩
  obtain ⟨daemon, space, ran, found, stored, pending⟩ := reached
  refine ⟨daemon, space, ran, found, stored, pending, fun fetch => ?_⟩
  have empty := (no_lost_wakeup samplePlatform [101] 1 sampleSpaces [115] _ daemon space sample_single (by decide) ran found).2 fetch
  simp [empty] at stored

def Event.put : Event → Option SngTuple
  | .accepted tuple => some tuple
  | _ => none

def Event.carries : Event → Option SngTuple
  | .replied _ command tuple => if takes command then some tuple else none
  | _ => none

def Event.discards : Event → Option SngTuple
  | .discarded tuple => some tuple
  | _ => none

def TsdElement.puts (space : TsdElement) : List SngTuple := space.history.filterMap Event.put

-- What the Get and Pop replies so far have carried.
def TsdElement.carried (space : TsdElement) : List SngTuple := space.history.filterMap Event.carries

def TsdElement.discards (space : TsdElement) : List SngTuple := space.history.filterMap Event.discards

structure TsdElement.Conserved (tickets : Nat) (space : TsdElement) : Prop where
  places : space.puts.Perm (space.namedQueue ++ (space.carried ++ space.discards))
  origins : (space.puts.map SngTuple.origin).Nodup
  older : ∀ tuple ∈ space.puts, tuple.origin < tickets

theorem filter_map_replicate {α β : Type} (choose : α → Bool) (item : β) (list : List α) :
    (list.filterMap fun element => if choose element then some item else none) = List.replicate (list.countP choose) item := by
  induction list with
  | nil => rfl
  | cons element later ih =>
      cases chosen : choose element with
      | true => simp [chosen, ih, List.replicate_succ]
      | false => simp [chosen, ih]

def replies (tuple : SngTuple) (answered : List BlockingRequest) : List Event :=
  answered.map fun request => .replied request.ticket request.command tuple

theorem replies_put (tuple : SngTuple) (answered : List BlockingRequest) : (replies tuple answered).filterMap Event.put = [] := by
  simp [replies, List.filterMap_map, Event.put]

theorem replies_discards (tuple : SngTuple) (answered : List BlockingRequest) :
    (replies tuple answered).filterMap Event.discards = [] := by
  simp [replies, List.filterMap_map, Event.discards]

theorem offer_carries (env : Platform) (space : TsdElement) (tuple : SngTuple) :
    (replies tuple (offer env space tuple).answered).filterMap Event.carries =
      if (offer env space tuple).taken then [tuple] else [] := by
  have once := Waiters.serve_takers (accepts env tuple) destructive space.namedQueueRequests
  have each := filter_map_replicate destructive tuple (offer env space tuple).answered
  simp only [replies, List.filterMap_map]
  refine Eq.trans each ?_
  unfold offer
  rw [once]
  split <;> rfl

theorem replied_carries (ticket : Nat) (command : TupleCommand) (tuple : SngTuple) :
    [Event.replied ticket command tuple].filterMap Event.carries = if takes command then [tuple] else [] := by
  cases taken : takes command <;> simp [Event.carries, taken]

-- Where the tuples of a space are after a change.
inductive Moved (env : Platform) (args : HandlerArg) (space after : TsdElement) : Prop where
  | stays (puts : after.puts = space.puts) (queue : after.namedQueue = space.namedQueue)
      (carried : after.carried = space.carried) (discards : after.discards = space.discards)
  | put (tuple : SngTuple) (action : args.action = .tsPut) (origin : tuple.origin = args.ticket)
      (puts : after.puts = space.puts ++ [tuple])
      (queue : after.namedQueue = if (offer env space tuple).taken then space.namedQueue else space.namedQueue ++ [tuple])
      (carried : after.carried = space.carried ++ if (offer env space tuple).taken then [tuple] else [])
      (discards : after.discards = space.discards)
  | found (before rest : List SngTuple) (tuple : SngTuple) (split : space.namedQueue = before ++ tuple :: rest)
      (puts : after.puts = space.puts)
      (queue : after.namedQueue = if takes args.action then before ++ rest else space.namedQueue)
      (carried : after.carried = space.carried ++ if takes args.action then [tuple] else [])
      (discards : after.discards = space.discards)
  | closed (action : args.action = .tsTerm) (puts : after.puts = space.puts)
      (queue : after.namedQueue = []) (carried : after.carried = space.carried)
      (discards : after.discards = space.discards ++ space.namedQueue)

theorem change_moved (env : Platform) (args : HandlerArg) (call : Call) (bytes : Bytes) (space after : TsdElement)
    (postings : List Posting) (named : call.named = true) (action : args.action = call.command)
    (change : Change env args call bytes space after postings) : Moved env args space after := by
  cases change with
  | connected after word endpoint asked queue requests history mode bcast active plain =>
      exact Moved.stays (by rw [TsdElement.puts, history, TsdElement.puts]) queue
        (by rw [TsdElement.carried, history, TsdElement.carried]) (by rw [TsdElement.discards, history, TsdElement.discards])
  | put tuple written =>
      refine Moved.put tuple (action.trans (named_written call args.ticket bytes tuple named written).1)
        (written_stored call args.ticket bytes tuple written).2.1 ?_ rfl ?_ ?_
      · change ((space.history ++ [Event.accepted tuple]) ++ replies tuple _).filterMap Event.put = _
        rw [List.filterMap_append, List.filterMap_append, replies_put, List.append_nil]
        rfl
      · change ((space.history ++ [Event.accepted tuple]) ++ replies tuple (offer env space tuple).answered).filterMap Event.carries = _
        rw [List.filterMap_append, List.filterMap_append, offer_carries]
        simp [TsdElement.carried, Event.carries]
      · change ((space.history ++ [Event.accepted tuple]) ++ replies tuple _).filterMap Event.discards = _
        rw [List.filterMap_append, List.filterMap_append, replies_discards, List.append_nil]
        simp [TsdElement.discards, Event.discards]
  | missed query unwanted asked waiting =>
      refine Moved.stays ?_ (by rw [enqueue_queue]; rfl) ?_ ?_
      · unfold TsdElement.puts
        rw [enqueue_history]
        split <;> simp [TsdElement.record, Event.put]
      · unfold TsdElement.carried
        rw [enqueue_history]
        split <;> simp [TsdElement.record, Event.carries]
      · unfold TsdElement.discards
        rw [enqueue_history]
        split <;> simp [TsdElement.record, Event.discards]
  | found query before rest tuple asked split wanted skipped =>
      refine Moved.found before rest tuple split ?_ rfl ?_ ?_
      · simp [TsdElement.puts, Event.put]
      · rw [TsdElement.carried, List.filterMap_append, replied_carries]
        rfl
      · simp [TsdElement.discards, Event.discards]
  | closed after asked queue requests history mode bcast inactive =>
      refine Moved.closed (by rw [action, asked]; rfl) ?_ queue ?_ ?_
      · simp [TsdElement.puts, history, List.filterMap_map, Function.comp_def, Event.put]
      · simp [TsdElement.carried, history, List.filterMap_map, Function.comp_def, Event.carries]
      · simp [TsdElement.discards, history, List.filterMap_map, Function.comp_def, Event.discards]

theorem moved_conserved (env : Platform) (args : HandlerArg) (space after : TsdElement)
    (conserved : space.Conserved args.ticket) (moved : Moved env args space after) : after.Conserved (args.ticket + 1) := by
  obtain ⟨places, origins, older⟩ := conserved
  have later : ∀ tuple ∈ space.puts, tuple.origin < args.ticket + 1 := fun tuple member => Nat.lt_succ_of_lt (older tuple member)
  cases moved with
  | stays puts queue carried discards => exact ⟨by rwa [puts, queue, carried, discards], by rwa [puts], by rwa [puts]⟩
  | put tuple action origin puts queue carried discards =>
      refine ⟨?_, ?_, ?_⟩
      · rw [puts, queue, carried, discards]
        have added := (places.append_right [tuple])
        cases (offer env space tuple).taken with
        | true =>
            refine added.trans ?_
            simp only [if_true, List.append_assoc]
            have swap : (space.discards ++ [tuple]).Perm ([tuple] ++ space.discards) := List.perm_append_comm
            exact (swap.append_left _).append_left _
        | false =>
            refine added.trans ?_
            simp only [Bool.false_eq_true, if_false, List.append_nil, List.append_assoc]
            refine List.Perm.append_left _ ?_
            rw [← List.append_assoc]
            exact List.perm_append_comm
      · rw [puts, List.map_append]
        refine List.nodup_append.mpr ⟨origins, by simp, fun first old second new => ?_⟩
        obtain ⟨other, member, same⟩ := List.mem_map.mp old
        have before := older other member
        have fresh : second = args.ticket := by simpa [origin] using new
        omega
      · intro other member
        rw [puts] at member
        rcases List.mem_append.mp member with old | new
        · exact later other old
        · rw [List.mem_singleton.mp new, origin]
          exact Nat.lt_succ_self _
  | found before rest tuple split puts queue carried discards =>
      refine ⟨?_, by rwa [puts], by rwa [puts]⟩
      rw [puts, queue, carried, discards]
      cases takes args.action with
      | true =>
          refine places.trans ?_
          rw [split]
          simp only [if_true, List.append_assoc, List.cons_append]
          refine List.Perm.append_left _ (List.Perm.trans ?_ (List.Perm.append_left rest (List.Perm.symm List.perm_middle)))
          exact List.perm_middle.symm
      | false => simpa only [Bool.false_eq_true, if_false, List.append_nil] using places
  | closed action puts queue carried discards =>
      refine ⟨?_, by rwa [puts], by rwa [puts]⟩
      rw [puts, queue, carried, discards, List.nil_append, ← List.append_assoc]
      exact places.trans List.perm_append_comm

theorem calls_keep_conserved (env : Platform) :
    KeptByCalls env (fun call => call.named = true) fun tickets space => space.Sound tickets ∧ space.Conserved tickets where
  later := fun count space ⟨sound, conserved⟩ => ⟨sound_later count space sound,
    { conserved with older := fun tuple member => Nat.lt_succ_of_lt (conserved.older tuple member) }⟩
  signals := by
    rintro count before after signalled ⟨sound, conserved⟩
    have kept := signalled_sound count before after signalled sound
    obtain ⟨direct, requests, active, same⟩ := signalled
    subst same
    exact ⟨kept, { conserved with }⟩
  acts := by
    rintro self args clientid call space bytes acted named client action active ⟨sound, conserved⟩ done
    obtain ⟨postings, change, _⟩ :=
      act_change env self args space call bytes acted args.ticket clientid.chars sound (named_plain call named) client action active done
    exact ⟨change_sound env args call bytes space acted.space postings sound change, moved_conserved env args space acted.space conserved
      (change_moved env args call bytes space acted.space postings named action change)⟩

theorem created_conserved (config : SngNamespace) : (createElement config).Conserved 0 :=
  ⟨List.Perm.refl [], List.nodup_nil, by simp [TsdElement.puts, createElement]⟩

theorem one_of_three {α : Type} [DecidableEq α] (first second third : List α) (item : α)
    (distinct : (first ++ (second ++ third)).Nodup) (member : item ∈ first ++ (second ++ third)) :
    (first.count item = 1 ∧ item ∉ second ∧ item ∉ third) ∨ (item ∉ first ∧ second.count item = 1 ∧ item ∉ third) ∨
      (item ∉ first ∧ item ∉ second ∧ third.count item = 1) := by
  obtain ⟨one, others, apart⟩ := List.nodup_append.mp distinct
  obtain ⟨two, three, apartOthers⟩ := List.nodup_append.mp others
  rcases List.mem_append.mp member with here | there
  · exact Or.inl ⟨List.count_eq_one_of_mem one here, fun other => apart item here item (List.mem_append_left _ other) rfl,
      fun other => apart item here item (List.mem_append_right _ other) rfl⟩
  · have notFirst : item ∉ first := fun here => apart item here item there rfl
    rcases List.mem_append.mp there with inSecond | inThird
    · exact Or.inr (Or.inl ⟨notFirst, List.count_eq_one_of_mem two inSecond, fun other => apartOthers item inSecond item other rfl⟩)
    · exact Or.inr (Or.inr ⟨notFirst, fun other => apartOthers item other item inThird rfl, List.count_eq_one_of_mem three inThird⟩)

theorem conserved_places (tickets : Nat) (space : TsdElement) (conserved : space.Conserved tickets) (tuple : SngTuple)
    (put : tuple ∈ space.puts) :
    (space.namedQueue.count tuple = 1 ∧ tuple ∉ space.carried ∧ tuple ∉ space.discards) ∨
      (tuple ∉ space.namedQueue ∧ space.carried.count tuple = 1 ∧ tuple ∉ space.discards) ∨
      (tuple ∉ space.namedQueue ∧ tuple ∉ space.carried ∧ space.discards.count tuple = 1) :=
  one_of_three _ _ _ tuple (conserved.places.nodup_iff.mp (List.Nodup.of_map _ conserved.origins)) (conserved.places.subset put)

theorem moved_looks (env : Platform) (args : HandlerArg) (space after : TsdElement) (moved : Moved env args space after)
    (looks : takes args.action = false) (notPut : args.action ≠ .tsPut) (notTerm : args.action ≠ .tsTerm) :
    after.namedQueue = space.namedQueue ∧ after.carried = space.carried ∧ after.discards = space.discards := by
  cases moved with
  | stays puts queue carried discards => exact ⟨queue, carried, discards⟩
  | put tuple action origin puts queue carried discards => exact absurd action notPut
  | found before rest tuple split puts queue carried discards =>
      rw [looks] at queue carried
      exact ⟨queue, by simpa using carried, discards⟩
  | closed action puts queue carried discards => exact absurd action notTerm

theorem moved_put (env : Platform) (args : HandlerArg) (space after : TsdElement) (moved : Moved env args space after)
    (tuple : SngTuple) (puts : after.puts = space.puts ++ [tuple]) :
    after.discards = space.discards ∧
      if space.namedQueueRequests.any fun request => accepts env tuple request && destructive request then
        after.namedQueue = space.namedQueue ∧ after.carried = space.carried ++ [tuple]
      else after.namedQueue = space.namedQueue ++ [tuple] ∧ after.carried = space.carried := by
  cases moved with
  | stays same queue carried discards => simp [same] at puts
  | put other action origin added queue carried discards =>
      have same : other = tuple := by simpa [added] using puts
      subst same
      have taken := Waiters.serve_taken (accepts env other) destructive space.namedQueueRequests
      refine ⟨discards, ?_⟩
      rw [← taken]
      change if (offer env space other).taken then _ else _
      cases consumed : (offer env space other).taken with
      | true => exact ⟨by simpa [consumed] using queue, by simpa [consumed] using carried⟩
      | false => exact ⟨by simpa [consumed] using queue, by simpa [consumed] using carried⟩
  | found before rest other split same queue carried discards => simp [same] at puts
  | closed action same queue carried discards => simp [same] at puts

theorem step_moved (env : Platform) (daemon next : Daemon) (arrival : Arrival) (spaceName : Bytes) (space after : TsdElement)
    (found : daemon.self.spaceTable spaceName = some space) (sound : space.Sound daemon.clients.length)
    (named : arrival.ts.tsname.chars = spaceName → arrival.call.named = true) (taken : daemon.step env arrival = some next)
    (left : next.self.spaceTable spaceName = some after) :
    after = space ∨ (arrival.ts.tsname.chars = spaceName ∧ Moved env (arrival.args daemon.clients.length) space after) := by
  obtain ⟨before, there, change⟩ := step_space env daemon next arrival spaceName after taken left
  have same : space = before := Option.some.inj (found.symm.trans there)
  subst same
  rcases change with ⟨unchanged, _⟩ | ⟨here, active, bytes, rest, acted, _, done, result⟩
  · exact Or.inl unchanged
  · obtain ⟨postings, change, _⟩ := act_change env daemon.self (arrival.args daemon.clients.length) space arrival.call bytes acted
      daemon.clients.length arrival.client.chars sound (named_plain arrival.call (named here)) rfl rfl active done
    exact Or.inr ⟨here, result ▸ change_moved env _ _ bytes space acted.space postings (named here) rfl change⟩

-- Every put is stored, or has been carried away by one reply, or was discarded, and just one of these.
theorem tuple_conservation (env : Platform) (endpoint : Bytes) (replicationFactor : UInt32) (spaces : List SngNamespace)
    (spaceName : Bytes) (turns : List Turn) (daemon : Daemon) (space : TsdElement)
    (single : ∀ config ∈ spaces, config.name = spaceName → config.tsMode ≠ .p2p)
    (only : ∀ turn ∈ turns, turn.Only spaceName fun call => call.named = true)
    (ran : Runs.run (Daemon.turn env) (Daemon.start endpoint replicationFactor spaces) turns = some daemon)
    (found : daemon.self.spaceTable spaceName = some space) :
    (space.puts.map SngTuple.origin).Nodup ∧ space.puts.Perm (space.namedQueue ++ (space.carried ++ space.discards)) ∧
      (∀ tuple ∈ space.puts,
        (space.namedQueue.count tuple = 1 ∧ tuple ∉ space.carried ∧ tuple ∉ space.discards) ∨
          (tuple ∉ space.namedQueue ∧ space.carried.count tuple = 1 ∧ tuple ∉ space.discards) ∨
          (tuple ∉ space.namedQueue ∧ tuple ∉ space.carried ∧ space.discards.count tuple = 1)) ∧
      ∀ arrival next after, (arrival.ts.tsname.chars = spaceName → arrival.call.named = true) →
        daemon.step env arrival = some next → next.self.spaceTable spaceName = some after →
        (takes arrival.call.command = false → arrival.call.command ≠ .tsPut → arrival.call.command ≠ .tsTerm →
          after.namedQueue = space.namedQueue ∧ after.carried = space.carried ∧ after.discards = space.discards) ∧
          ∀ tuple, after.puts = space.puts ++ [tuple] → after.discards = space.discards ∧
            if space.namedQueueRequests.any fun request => accepts env tuple request && destructive request then
              after.namedQueue = space.namedQueue ∧ after.carried = space.carried ++ [tuple]
            else after.namedQueue = space.namedQueue ++ [tuple] ∧ after.carried = space.carried := by
  have initial := start_holds endpoint replicationFactor spaces spaceName
    (fun tickets space => space.Sound tickets ∧ space.Conserved tickets) fun config member here =>
      ⟨created_sound config (single config member here), created_conserved config⟩
  obtain ⟨sound, conserved⟩ :=
    run_holds env spaceName _ _ (calls_keep_conserved env) _ daemon turns initial only ran space found
  refine ⟨conserved.origins, conserved.places, conserved_places _ space conserved, ?_⟩
  intro arrival next after named taken left
  rcases step_moved env daemon next arrival spaceName space after found sound named taken left with same | ⟨_, moved⟩
  · subst same
    exact ⟨fun _ _ _ => ⟨rfl, rfl, rfl⟩, fun tuple puts => absurd puts (by simp)⟩
  · exact ⟨moved_looks env _ space after moved, moved_put env _ space after moved⟩

theorem tuple_conservation_delivered :
    ∃ daemon space, Runs.run (Daemon.turn samplePlatform) sampleStart
        [sampleTurn sampleClient false (.tsOutQuery true true sampleName), sampleTurn otherClient true (.tsInPut sampleName samplePayload),
          sampleTurn otherClient false (.tsInPut otherName samplePayload)] = some daemon ∧
      daemon.self.spaceTable [115] = some space ∧ space.puts.length = 2 ∧ space.carried.length = 1 ∧
      space.puts.Perm (space.namedQueue ++ (space.carried ++ space.discards)) := by
  have reached : ∃ daemon space, Runs.run (Daemon.turn samplePlatform) sampleStart
      [sampleTurn sampleClient false (.tsOutQuery true true sampleName), sampleTurn otherClient true (.tsInPut sampleName samplePayload),
        sampleTurn otherClient false (.tsInPut otherName samplePayload)] = some daemon ∧
      daemon.self.spaceTable [115] = some space ∧ space.puts.length = 2 ∧ space.carried.length = 1 :=
    ⟨_, _, rfl, rfl, rfl, rfl⟩
  obtain ⟨daemon, space, ran, found, puts, carried⟩ := reached
  exact ⟨daemon, space, ran, found, puts, carried,
    (tuple_conservation samplePlatform [101] 1 sampleSpaces [115] _ daemon space sample_single (by decide) ran found).2.1⟩

end Synergy
