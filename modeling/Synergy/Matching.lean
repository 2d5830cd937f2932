import Synergy.Requests

set_option autoImplicit false

namespace Synergy

theorem zlistx_find_none {α : Type} (comparator : α → Except Stop Int) (list : List α)
    (missed : zlistxFind comparator list = .ok none) : ∀ element ∈ list, ∃ order, comparator element = .ok order ∧ order ≠ 0 := by
  induction list with
  | nil => simp
  | cons head later ih =>
      obtain ⟨order, compared, searched⟩ := bind_ok _ _ _ missed
      by_cases equal : order = 0
      · rw [if_pos equal] at searched
        cases searched
      · rw [if_neg equal] at searched
        obtain ⟨handle, found, result⟩ := bind_ok _ _ _ searched
        cases handle with
        | some i => cases result
        | none =>
            intro element member
            rcases List.mem_cons.mp member with same | inLater
            · exact ⟨order, same ▸ compared, equal⟩
            · exact ih found element inLater

theorem zlistx_find_some {α : Type} (comparator : α → Except Stop Int) (list : List α) (handle : Nat)
    (hit : zlistxFind comparator list = .ok (some handle)) :
    ∃ before element after, list = before ++ element :: after ∧ before.length = handle ∧
      comparator element = .ok 0 ∧ ∀ other ∈ before, ∃ order, comparator other = .ok order ∧ order ≠ 0 := by
  induction list generalizing handle with
  | nil => cases hit
  | cons head later ih =>
      obtain ⟨order, compared, searched⟩ := bind_ok _ _ _ hit
      by_cases equal : order = 0
      · rw [if_pos equal] at searched
        cases searched
        exact ⟨[], head, later, rfl, rfl, equal ▸ compared, by simp⟩
      · rw [if_neg equal] at searched
        obtain ⟨found, searchedLater, result⟩ := bind_ok _ _ _ searched
        cases found with
        | none => cases result
        | some i =>
            cases result
            obtain ⟨before, element, after, split, position, zero, skipped⟩ := ih i searchedLater
            refine ⟨head :: before, element, after, by simp [split], by simp [position], zero, ?_⟩
            intro other member
            rcases List.mem_cons.mp member with same | inBefore
            · exact ⟨order, same ▸ compared, equal⟩
            · exact skipped other inBefore

theorem zlistx_find_first {α : Type} (comparator : α → Except Stop Int) (before after : List α) (element : α)
    (zero : comparator element = .ok 0) (skipped : ∀ other ∈ before, ∃ order, comparator other = .ok order ∧ order ≠ 0) :
    zlistxFind comparator (before ++ element :: after) = .ok (some before.length) := by
  induction before with
  | nil =>
      rw [List.nil_append, zlistxFind, zero]
      rfl
  | cons head later ih =>
      obtain ⟨order, compared, different⟩ := skipped head List.mem_cons_self
      have rest := ih fun other member => skipped other (List.mem_cons_of_mem _ member)
      simp only [List.cons_append, zlistxFind, compared, rest, different, bind, Except.bind, pure, Except.pure, if_false,
        Option.map_some, List.length_cons]

theorem zlistx_detach_split {α : Type} (before after : List α) (element : α) :
    zlistxDetach (before ++ element :: after) (some before.length) = (some element, before ++ after) := by
  simp [zlistxDetach, List.eraseIdx_append_of_length_le]

-- TsPop and TsPeek take whatever comes first.
def fetches (command : TupleCommand) : Bool :=
  command = .tsPop ∨ command = .tsPopBlocking ∨ command = .tsPeek ∨ command = .tsPeekBlocking

def takes (command : TupleCommand) : Bool :=
  command = .tsGet ∨ command = .tsGetBlocking ∨ command = .tsPop ∨ command = .tsPopBlocking

-- What a request asks for, whether it comes before the tuple or after it.
def wants (env : Platform) (command : TupleCommand) (query : CString) (tuple : SngTuple) : Bool :=
  fetches command ||
    match query, tuple.name with
    | .str asked, .str stored => nameCmp env asked stored = 0
    | _, _ => false

def accepts (env : Platform) (tuple : SngTuple) (request : BlockingRequest) : Bool :=
  wants env request.command request.name tuple

def destructive (request : BlockingRequest) : Bool := takes request.command

-- A request as named_queue_read_handler and named_queue_fetch_handler enqueue it.
structure BlockingRequest.Waiting (request : BlockingRequest) : Prop where
  client : ∃ clientid, request.clientid = .str clientid
  kind : ((request.command = .tsGetBlocking ∨ request.command = .tsReadBlocking) ∧ ∃ asked, request.name = .str asked) ∨
    ((request.command = .tsPopBlocking ∨ request.command = .tsPeekBlocking) ∧ request.name = .null)
  extra : request.extra = 0

theorem waiting_consumes (request : BlockingRequest) (waiting : request.Waiting) :
    consumes request.command = destructive request := by
  rcases waiting.kind with ⟨get | read, _⟩ | ⟨pop | peek, _⟩ <;> simp [consumes, destructive, takes, *]

theorem blckcmp_accepts (env : Platform) (request search : BlockingRequest) (tuple : SngTuple) (order : Int)
    (waiting : request.Waiting) (named : ∃ stored, tuple.name = .str stored) (name : search.name = tuple.name)
    (compared : blckcmpStr env request search = .ok order) : order = 0 ↔ accepts env tuple request = true := by
  obtain ⟨stored, named⟩ := named
  rcases waiting.kind with ⟨query, asked, isStr⟩ | ⟨fetch, _⟩
  · have ordinary : ¬ (request.command = .tsPopBlocking ∨ request.command = .tsPeekBlocking) := by
      rcases query with get | read <;> simp [*]
    have notFetch : fetches request.command = false := by
      rcases query with get | read <;> simp [fetches, *]
    rw [blckcmpStr, if_neg ordinary, tplcmp_named env _ _ asked stored isStr (name.trans named)] at compared
    simp only [accepts, wants, notFetch, isStr, named, Bool.false_or, decide_eq_true_eq]
    rw [← Except.ok.inj compared]
  · rw [blckcmpStr, if_pos fetch] at compared
    have whole : fetches request.command = true := by
      rcases fetch with pop | peek <;> simp [fetches, *]
    simp [accepts, wants, whole, ← Except.ok.inj compared]

-- The message match_blocking_requests sends to a request it has matched.
def answer (env : Platform) (tuple : SngTuple) (request : BlockingRequest) : Except Stop (List Out) := do
  let clientid ← sendClientid request.isLocal request.ticket request.clientid
  let reply ← handleNamedQueueReadResponse env request.isLocal request.ticket tuple
  return clientid :: reply

def searchFor (tuple : SngTuple) : BlockingRequest :=
  { name := tuple.name, clientid := .null, command := .tsNone, extra := tuple.anonId.toNat, isLocal := false, ticket := 0 }

theorem find_request_none (env : Platform) (tuple : SngTuple) (requests : List BlockingRequest)
    (named : ∃ stored, tuple.name = .str stored) (waiting : ∀ request ∈ requests, request.Waiting)
    (missed : zlistxFind (fun request => blckcmpStr env request (searchFor tuple)) requests = .ok none) :
    ∀ request ∈ requests, accepts env tuple request = false := by
  intro request member
  obtain ⟨order, compared, different⟩ := zlistx_find_none _ _ missed request member
  have decided := blckcmp_accepts env request (searchFor tuple) tuple order (waiting request member) named rfl compared
  exact Bool.eq_false_iff.mpr fun accepted => different (decided.mpr accepted)

theorem find_request_some (env : Platform) (tuple : SngTuple) (requests : List BlockingRequest) (handle : Nat)
    (named : ∃ stored, tuple.name = .str stored) (waiting : ∀ request ∈ requests, request.Waiting)
    (hit : zlistxFind (fun request => blckcmpStr env request (searchFor tuple)) requests = .ok (some handle)) :
    ∃ before matched after, requests = before ++ matched :: after ∧ accepts env tuple matched = true ∧
      zlistxDetach requests (some handle) = (some matched, before ++ after) ∧
      ∀ request ∈ before, accepts env tuple request = false := by
  obtain ⟨before, matched, after, split, position, zero, skipped⟩ := zlistx_find_some _ _ _ hit
  refine ⟨before, matched, after, split, ?_, ?_, ?_⟩
  · exact (blckcmp_accepts env matched (searchFor tuple) tuple 0 (waiting matched (by simp [split])) named rfl zero).mp rfl
  · rw [split, ← position]
    exact zlistx_detach_split before after matched
  · intro request member
    obtain ⟨order, compared, different⟩ := skipped request member
    have decided := blckcmp_accepts env request (searchFor tuple) tuple order
      (waiting request (by simp [split, member])) named rfl compared
    exact Bool.eq_false_iff.mpr fun accepted => different (decided.mpr accepted)

theorem bcast_response_same (env : Platform) (isLocal : Bool) (ticket : Nat) (tuple : SngTuple) :
    handleBcastQueueReadResponse env isLocal ticket tuple = handleNamedQueueReadResponse env isLocal ticket tuple := by
  cases isLocal <;> rfl

theorem match_reply_cases (env : Platform) (tuple : SngTuple) (matched : BlockingRequest) :
    matchReply env tuple matched =
        (do let reply ← handleNamedQueueReadResponse env matched.isLocal matched.ticket tuple
            return some reply) ∨
      matchReply env tuple matched = .ok none := by
  unfold matchReply
  split
  · exact Or.inl rfl
  · exact Or.inl rfl
  · exact Or.inl rfl
  · exact Or.inl rfl
  · rw [bcast_response_same]
    exact Or.inl rfl
  · exact Or.inr rfl

theorem match_reply_waiting (env : Platform) (tuple : SngTuple) (matched : BlockingRequest) (waiting : matched.Waiting) :
    matchReply env tuple matched =
      (do let reply ← handleNamedQueueReadResponse env matched.isLocal matched.ticket tuple
          return some reply) := by
  rcases waiting.kind with ⟨get | read, _⟩ | ⟨pop | peek, _⟩ <;> simp only [matchReply, *]

-- Once the tuple is consumed, the next request that wants it is detached without an answer.
theorem match_loop_consumed (env : Platform) (tuple : SngTuple) (rounds : Nat) (state final : Matching) (finished : Bool)
    (named : ∃ stored, tuple.name = .str stored) (waiting : ∀ request ∈ state.requests, request.Waiting)
    (consumed : state.needAppend = false) (done : matchLoop env tuple rounds state = .ok (final, finished)) :
    final = { state with requests := state.requests.eraseP (accepts env tuple) } ∧ finished = true := by
  cases rounds with
  | zero => cases done
  | succ rounds =>
      obtain ⟨handle, found, done⟩ := bind_ok _ _ _ done
      cases handle with
      | none =>
          cases done
          have refuse := find_request_none env tuple state.requests named waiting found
          exact ⟨by rw [List.eraseP_of_forall_not fun request member => by simp [refuse request member]], rfl⟩
      | some handle =>
          obtain ⟨before, matched, after, split, accepted, detached, refuse⟩ :=
            find_request_some env tuple state.requests handle named waiting found
          simp only [detached, consumed, Bool.not_false, if_true] at done
          cases done
          have erased : state.requests.eraseP (accepts env tuple) = before ++ after := by
            rw [split, List.eraseP_append_right _ fun request member => by simp [refuse request member],
              List.eraseP_cons_of_pos accepted]
          exact ⟨by rw [erased, consumed], rfl⟩

theorem match_loop_serves (env : Platform) (tuple : SngTuple) (rounds : Nat) (state final : Matching) (finished : Bool)
    (named : ∃ stored, tuple.name = .str stored) (waiting : ∀ request ∈ state.requests, request.Waiting)
    (fresh : state.needAppend = true) (done : matchLoop env tuple rounds state = .ok (final, finished)) :
    let served := Waiters.serve (accepts env tuple) destructive state.requests
    ∃ frames, served.answered.mapM (answer env tuple) = .ok frames ∧ finished = true ∧
      final =
        { requests := if served.taken then served.rest.eraseP (accepts env tuple) else served.rest
          needAppend := !served.taken
          sent := state.sent ++ frames.flatten
          history := state.history ++ served.answered.map fun request => .replied request.ticket request.command tuple } := by
  induction rounds generalizing state with
  | zero => cases done
  | succ rounds ih =>
      obtain ⟨handle, found, done⟩ := bind_ok _ _ _ done
      cases handle with
      | none =>
          have refuse := find_request_none env tuple state.requests named waiting found
          rw [Waiters.serve_none _ _ _ refuse]
          cases done
          have same : final = { final with needAppend := true } := by rw [← fresh]
          exact ⟨[], rfl, rfl, by simpa using same⟩
      | some handle =>
          obtain ⟨before, matched, after, split, accepted, detached, refuse⟩ :=
            find_request_some env tuple state.requests handle named waiting found
          have matchedWaiting := waiting matched (by simp [split])
          have restWaiting : ∀ request ∈ before ++ after, request.Waiting := fun request member =>
            waiting request (split ▸ (List.mem_append.mp member).elim (by simp +contextual) (by simp +contextual))
          simp only [detached, fresh, Bool.not_true, Bool.false_eq_true, if_false] at done
          obtain ⟨clientid, identity, done⟩ := bind_ok _ _ _ done
          obtain ⟨reply, replied, done⟩ := bind_ok _ _ _ done
          rw [match_reply_waiting env tuple matched matchedWaiting] at replied
          obtain ⟨frames, built, same⟩ := bind_ok _ _ _ replied
          cases same
          have answered : answer env tuple matched = .ok (clientid :: frames) := by
            simp only [answer, identity, built, bind, Except.bind, pure, Except.pure]
          simp only [waiting_consumes matched matchedWaiting] at done
          cases takesIt : destructive matched with
          | true =>
              simp only [takesIt, Bool.not_true] at done
              obtain ⟨last, ended⟩ := match_loop_consumed env tuple rounds _ final finished named restWaiting rfl done
              rw [split, Waiters.serve_take _ _ before after matched refuse accepted takesIt]
              exact ⟨[clientid :: frames], by simp [answered, bind, Except.bind, pure, Except.pure], ended, by simp [last]⟩
          | false =>
              simp only [takesIt, Bool.not_false] at done
              obtain ⟨others, mapped, ended, last⟩ := ih _ restWaiting rfl done
              rw [split, Waiters.serve_look _ _ before after matched refuse accepted takesIt]
              refine ⟨(clientid :: frames) :: others, ?_, ended, ?_⟩
              · simp only [List.mapM_cons, answered, mapped, bind, Except.bind, pure, Except.pure]
              · simpa only [List.flatten_cons, List.map_cons, List.append_assoc, List.cons_append, List.nil_append] using last

theorem match_put (env : Platform) (self : Tsd) (space after : TsdElement) (tuple : SngTuple) (rt : Int) (sent : List Out)
    (named : ∃ stored, tuple.name = .str stored) (waiting : ∀ request ∈ space.namedQueueRequests, request.Waiting)
    (single : space.tsMode ≠ .p2p)
    (done : matchBlockingRequests env self space tuple .tsPut = .ok (rt, after, sent)) :
    let served := Waiters.serve (accepts env tuple) destructive space.namedQueueRequests
    ∃ frames, served.answered.mapM (answer env tuple) = .ok frames ∧ sent = frames.flatten ∧
      after =
        { space with
          namedQueue := if served.taken then space.namedQueue else space.namedQueue ++ [tuple]
          namedQueueRequests := if served.taken then served.rest.eraseP (accepts env tuple) else served.rest
          history := space.history ++ served.answered.map fun request => .replied request.ticket request.command tuple } := by
  intro served
  obtain ⟨⟨state, finished⟩, looped, done⟩ := bind_ok _ _ _ done
  obtain ⟨frames, answered, ended, final⟩ :=
    match_loop_serves env tuple _ { requests := space.namedQueueRequests, needAppend := true, sent := [], history := space.history }
      state finished named waiting rfl looped
  refine ⟨frames, answered, ?_⟩
  change state = _ at final
  subst ended
  have put : ¬ TupleCommand.tsPut = .tsBCastWrite := by decide
  cases taken : (Waiters.serve (accepts env tuple) destructive space.namedQueueRequests).taken with
  | true =>
      simp only [final, taken, Bool.not_true, Bool.not_false, Bool.false_eq_true, if_false, if_true, List.nil_append] at done
      cases done
      exact ⟨rfl, by simp [served, TsdElement.setOpQueue, put]⟩
  | false =>
      simp only [final, taken, Bool.not_true, Bool.not_false, Bool.false_eq_true, if_false, List.nil_append, single] at done
      cases done
      exact ⟨rfl, by simp [served, TsdElement.setOpQueue, TsdElement.addEnd, put]⟩

-- A waiting request cannot be compared with an anonymous tuple, or is sent the name it has not.
theorem waiting_compared (env : Platform) (request search : BlockingRequest) (order : Int) (waiting : request.Waiting)
    (anonymous : search.name = .null) (compared : blckcmpStr env request search = .ok order) : order = 0 := by
  cases waiting.kind with
  | inl query =>
      obtain ⟨command, asked, isStr⟩ := query
      have ordinary : ¬ (request.command = .tsPopBlocking ∨ request.command = .tsPeekBlocking) := by
        rcases command with get | read <;> simp [*]
      rw [blckcmpStr, if_neg ordinary, waiting.extra, isStr, anonymous, tplcmp, if_neg (by simp)] at compared
      obtain ⟨name, named, compared⟩ := bind_ok _ _ _ compared
      cases named
      by_cases star : strcmp asked ['*'.toUInt8] = 0
      · rw [if_pos star] at compared
        exact (Except.ok.inj compared).symm
      · rw [if_neg star] at compared
        obtain ⟨other, unnamed, _⟩ := bind_ok _ _ _ compared
        cases unnamed
  | inr fetch =>
      rw [blckcmpStr, if_pos fetch.1] at compared
      exact (Except.ok.inj compared).symm

theorem match_loop_anonymous (env : Platform) (tuple : SngTuple) (rounds : Nat) (state final : Matching) (finished : Bool)
    (anonymous : tuple.name = .null) (waiting : ∀ request ∈ state.requests, request.Waiting) (fresh : state.needAppend = true)
    (done : matchLoop env tuple (rounds + 1) state = .ok (final, finished)) :
    state.requests = [] ∧ final = state ∧ finished = true := by
  obtain ⟨handle, found, done⟩ := bind_ok _ _ _ done
  cases handle with
  | some handle =>
      obtain ⟨before, matched, behind, split, position, _, _⟩ := zlistx_find_some _ _ _ found
      have detached : zlistxDetach state.requests (some handle) = (some matched, before ++ behind) := by
        rw [split, ← position, zlistx_detach_split]
      simp only [detached, fresh, Bool.not_true, Bool.false_eq_true, if_false] at done
      obtain ⟨header, _, done⟩ := bind_ok _ _ _ done
      obtain ⟨reply, replied, _⟩ := bind_ok _ _ _ done
      rw [match_reply_waiting env tuple matched (waiting matched (by simp [split]))] at replied
      obtain ⟨frames, built, _⟩ := bind_ok _ _ _ replied
      obtain ⟨name, named, _⟩ := bind_ok _ _ _ built
      rw [anonymous] at named
      cases named
  | none =>
      cases done
      refine ⟨?_, rfl, rfl⟩
      cases requests : state.requests with
      | nil => rfl
      | cons request later =>
          rw [requests] at found waiting
          obtain ⟨order, compared, different⟩ := zlistx_find_none _ _ found request List.mem_cons_self
          exact absurd (waiting_compared env request _ order (waiting request List.mem_cons_self) anonymous compared) different

-- match_blocking_requests on an anonymous tuple: nobody may wait.
theorem match_add (env : Platform) (self : Tsd) (space after : TsdElement) (tuple : SngTuple) (rt : Int) (sent : List Out)
    (anonymous : tuple.name = .null) (waiting : ∀ request ∈ space.namedQueueRequests, request.Waiting)
    (single : space.tsMode ≠ .p2p) (done : matchBlockingRequests env self space tuple .tsAdd = .ok (rt, after, sent)) :
    (∀ request ∈ space.namedQueueRequests, accepts env tuple request = false) ∧ sent = [] ∧
      after = { space with namedQueue := space.namedQueue ++ [tuple] } := by
  obtain ⟨⟨state, finished⟩, looped, done⟩ := bind_ok _ _ _ done
  obtain ⟨alone, final, ended⟩ := match_loop_anonymous env tuple _ _ state finished anonymous waiting rfl looped
  subst final ended
  simp only [Bool.not_true, Bool.false_eq_true, if_false, single] at done
  cases done
  refine ⟨fun request member => ?_, rfl, rfl⟩
  dsimp only at alone
  rw [alone] at member
  cases member

-- A tuple as TsPut and TsAdd leave it: with a name, or anonymous with an id.
def SngTuple.Stored (tuple : SngTuple) : Prop :=
  (∃ stored, tuple.name = .str stored) ∨ (tuple.name = .null ∧ tuple.anonId ≠ 0)

-- How named_queue_read_handler and named_queue_fetch_handler end: nothing there is wanted, or the first
-- that is wanted is sent. respond is the reply builder.
inductive Searched (env : Platform) (args : HandlerArg) (clientid : Bytes) (query : CString)
    (respond : SngTuple → Except Stop (List Out)) (space : TsdElement) : Acted → Prop where
  | miss (unwanted : ∀ tuple ∈ space.namedQueue, wants env args.action query tuple = false) :
      Searched env args clientid query respond space
        { rt := some 2
          space := (space.record (.notFound args.ticket query space.namedQueue)).enqueue args query
          sent := [.frame args.isLocal args.ticket clientid true, sendEnf env args] }
  | hit (before after : List SngTuple) (tuple : SngTuple) (reply : List Out)
      (split : space.namedQueue = before ++ tuple :: after) (wanted : wants env args.action query tuple = true)
      (skipped : ∀ other ∈ before, wants env args.action query other = false) (responded : respond tuple = .ok reply) :
      Searched env args clientid query respond space
        { rt := some 0
          space := { space with
              namedQueue := if takes args.action then before ++ after else space.namedQueue
              history := space.history ++ [.replied args.ticket args.action tuple] }
          sent := .frame args.isLocal args.ticket clientid true :: reply }

theorem tplcmp_wants (env : Platform) (command : TupleCommand) (asked : Bytes) (tuple search : SngTuple) (order : Int)
    (query : fetches command = false) (stored : tuple.Stored) (named : search.name = .str asked) (plain : search.anonId = 0)
    (compared : tplcmp env tuple search = .ok order) : order = 0 ↔ wants env command (.str asked) tuple = true := by
  rcases stored with ⟨name, isStr⟩ | ⟨isNull, nonzero⟩
  · rw [tplcmp_named env tuple search name asked isStr named] at compared
    simp only [wants, query, isStr, Bool.false_or, decide_eq_true_eq]
    rw [← Except.ok.inj compared]
    exact name_cmp_symm env name asked
  · have anonymous : (tuple.name = .null ∧ tuple.anonId ≠ 0) ∨ (search.name = .null ∧ search.anonId ≠ 0) :=
      Or.inl ⟨isNull, nonzero⟩
    have above : 0 < tuple.anonId := UInt32.pos_iff_ne_zero.mpr nonzero
    have notBelow : ¬ tuple.anonId < 0 := by
      intro below
      exact absurd (UInt32.lt_iff_toNat_lt.mp below) (by simp)
    rw [tplcmp, if_pos anonymous, tplicmp, plain, if_neg notBelow, if_pos above] at compared
    simp [wants, query, isNull, ← Except.ok.inj compared]

theorem read_searched (env : Platform) (args : HandlerArg) (space : TsdElement) (clientid asked : Bytes) (acted : Acted)
    (client : args.clientid = .str clientid) (query : fetches args.action = false)
    (getOrRead : takes args.action = decide (args.action = .tsGet ∨ args.action = .tsGetBlocking))
    (stored : ∀ tuple ∈ space.namedQueue, tuple.Stored) (active : space.isActivated = true)
    (done : readTuple env args space asked = .ok acted) :
    Searched env args clientid (.str asked) (handleNamedQueueReadResponse env args.isLocal args.ticket) space acted := by
  have open_ : ¬ ((!args.isLocal) = true ∧ (!space.isActivated) = true) := by simp [active]
  obtain ⟨header, identity, done⟩ := bind_ok _ _ _ done
  rw [client] at identity
  cases identity
  rw [if_neg open_] at done
  obtain ⟨handle, found, done⟩ := bind_ok _ _ _ done
  cases handle with
  | none =>
      cases done
      refine Searched.miss fun tuple member => ?_
      obtain ⟨order, compared, different⟩ := zlistx_find_none _ _ found tuple member
      exact Bool.eq_false_iff.mpr fun wanted =>
        different ((tplcmp_wants env args.action asked tuple _ order query (stored tuple member) rfl rfl compared).mpr wanted)
  | some handle =>
      obtain ⟨before, tuple, after, split, position, zero, skipped⟩ := zlistx_find_some _ _ _ found
      have here : space.namedQueue[handle]? = some tuple := by
        rw [split, ← position]
        simp
      simp only [Option.bind_some, here] at done
      obtain ⟨order, _, done⟩ := bind_ok _ _ _ done
      by_cases fails : order ≠ 0
      · rw [if_pos fails] at done
        cases done
      rw [if_neg fails] at done
      obtain ⟨reply, responded, done⟩ := bind_ok _ _ _ done
      cases done
      have rest : (zlistxDetach space.namedQueue (some handle)).2 = before ++ after := by
        rw [split, ← position, zlistx_detach_split]
      have wanted := (tplcmp_wants env args.action asked tuple _ 0 query (stored tuple (by simp [split])) rfl rfl zero).mp rfl
      have unwanted : ∀ other ∈ before, wants env args.action (.str asked) other = false := fun other member => by
        obtain ⟨order, compared, different⟩ := skipped other member
        exact Bool.eq_false_iff.mpr fun wanted =>
          different ((tplcmp_wants env args.action asked other _ order query (stored other (by simp [split, member])) rfl rfl
            compared).mpr wanted)
      have hit : Searched env args clientid (.str asked) (handleNamedQueueReadResponse env args.isLocal args.ticket) space _ :=
        .hit before after tuple reply split wanted unwanted responded
      simpa only [TsdElement.record, rest, getOrRead, decide_eq_true_eq] using hit

theorem fetch_searched (env : Platform) (args : HandlerArg) (space : TsdElement) (clientid : Bytes) (acted : Acted)
    (client : args.clientid = .str clientid) (fetch : fetches args.action = true)
    (done : fetchTuple env args space = .ok acted) :
    Searched env args clientid .null (handleNamedQueueFetchResponse env args.isLocal args.ticket) space acted := by
  obtain ⟨header, identity, done⟩ := bind_ok _ _ _ done
  rw [client] at identity
  cases identity
  cases queue : space.namedQueue with
  | nil =>
      simp only [queue] at done
      cases done
      have miss : Searched env args clientid .null (handleNamedQueueFetchResponse env args.isLocal args.ticket) space _ :=
        .miss (by simp [queue])
      simpa only [queue] using miss
  | cons first later =>
      simp only [queue] at done
      obtain ⟨reply, responded, done⟩ := bind_ok _ _ _ done
      cases done
      have wanted : wants env args.action .null first = true := by simp [wants, fetch]
      have pops : decide (args.action = .tsPop ∨ args.action = .tsPopBlocking) = takes args.action := by
        simp only [fetches, decide_eq_true_eq] at fetch
        rcases fetch with pop | pop | peek | peek <;> simp [takes, *]
      have hit : Searched env args clientid .null (handleNamedQueueFetchResponse env args.isLocal args.ticket) space _ :=
        .hit [] later first reply queue wanted (by simp) responded
      simpa only [TsdElement.record, queue, List.nil_append, ← pops, decide_eq_true_eq] using hit

end Synergy
