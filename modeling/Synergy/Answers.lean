import Synergy.Pending

set_option autoImplicit false

namespace Synergy

-- What a tuple stored by ts_in is.
inductive Content where
  | named (name : Name) (data : Payload)
  | anonymous (anonId : UInt32) (nonzero : anonId ≠ 0) (data : Payload)

def Content.tuple (origin : Nat) : Content → SngTuple
  | .named name data => ⟨.str name.chars, 0, data.bytes, origin⟩
  | .anonymous anonId _ data => ⟨.null, anonId, data.bytes, origin⟩

def Content.action : Content → TupleCommand
  | .named _ _ => .tsPut
  | .anonymous _ _ _ => .tsAdd

def Content.isNamed : Content → Bool
  | .named _ _ => true
  | .anonymous _ _ _ => false

theorem send_item_total (ticket : Nat) (data : Bytes) (nonempty : data ≠ []) : ∃ outs, sendItemOut ticket data = .ok outs := by
  obtain ⟨chunks, sent, _⟩ := send_item_chunks data nonempty
  refine ⟨chunks.map (Out.chunk ticket), ?_⟩
  rw [sendItemOut, sent]
  rfl

theorem read_response_total (env : Platform) (isLocal : Bool) (ticket : Nat) (tuple : SngTuple) (stored : Bytes)
    (named : tuple.name = .str stored) (nonempty : tuple.data ≠ []) :
    ∃ outs, handleNamedQueueReadResponse env isLocal ticket tuple = .ok outs := by
  obtain ⟨item, passed⟩ := send_item_total ticket tuple.data nonempty
  rw [handleNamedQueueReadResponse, named]
  cases isLocal with
  | true =>
      simp only [if_true, passed]
      exact ⟨_, rfl⟩
  | false => exact ⟨_, rfl⟩

theorem zlistx_find_total {α : Type} (comparator : α → Except Stop Int) (list : List α)
    (total : ∀ element ∈ list, ∃ order, comparator element = .ok order) : ∃ handle, zlistxFind comparator list = .ok handle := by
  induction list with
  | nil => exact ⟨none, rfl⟩
  | cons head later ih =>
      obtain ⟨order, compared⟩ := total head (by simp)
      obtain ⟨handle, found⟩ := ih fun element member => total element (by simp [member])
      by_cases equal : order = 0
      · exact ⟨some 0, by simp only [zlistxFind, compared, bind, Except.bind, equal, if_true, pure, Except.pure]⟩
      · exact ⟨handle.map (· + 1), by simp only [zlistxFind, compared, found, bind, Except.bind, equal, if_false, pure, Except.pure]⟩

theorem blckcmp_total (env : Platform) (request search : BlockingRequest) (stored : Bytes) (waiting : request.Waiting)
    (named : search.name = .str stored) : ∃ order, blckcmpStr env request search = .ok order := by
  rcases waiting.kind with ⟨query, asked, isStr⟩ | ⟨fetch, _⟩
  · have ordinary : ¬ (request.command = .tsPopBlocking ∨ request.command = .tsPeekBlocking) := by
      rcases query with get | read <;> simp [*]
    exact ⟨_, by rw [blckcmpStr, if_neg ordinary, tplcmp_named env _ _ asked stored isStr named]⟩
  · exact ⟨0, by rw [blckcmpStr, if_pos fetch]⟩

theorem match_loop_total (env : Platform) (tuple : SngTuple) (stored : Bytes) (named : tuple.name = .str stored)
    (nonempty : tuple.data ≠ []) (rounds : Nat) (state : Matching) (waiting : ∀ request ∈ state.requests, request.Waiting)
    (enough : state.requests.length < rounds) : ∃ final, matchLoop env tuple rounds state = .ok (final, true) := by
  induction rounds generalizing state with
  | zero => exact absurd enough (Nat.not_lt_zero _)
  | succ rounds ih =>
      obtain ⟨handle, found⟩ := zlistx_find_total (fun request => blckcmpStr env request (searchFor tuple)) state.requests
        fun request member => blckcmp_total env request (searchFor tuple) stored (waiting request member) named
      have search : zlistxFind (fun request => blckcmpStr env request
          { name := tuple.name, clientid := .null, command := .tsNone, extra := tuple.anonId.toNat, isLocal := false, ticket := 0 })
          state.requests = .ok handle := found
      cases handle with
      | none => exact ⟨state, by simp only [matchLoop, search, bind, Except.bind, pure, Except.pure]⟩
      | some handle =>
          obtain ⟨before, matched, after, split, position, _, _⟩ := zlistx_find_some _ _ _ found
          have detached : zlistxDetach state.requests (some handle) = (some matched, before ++ after) := by
            rw [split, ← position, zlistx_detach_split]
          have matchedWaiting := waiting matched (by simp [split])
          have rest : ∀ request ∈ before ++ after, request.Waiting := fun request member =>
            waiting request (split ▸ (List.mem_append.mp member).elim (by simp +contextual) (by simp +contextual))
          have shorter : (before ++ after).length < rounds := by
            rw [split] at enough
            simp only [List.length_append, List.length_cons] at enough ⊢
            omega
          obtain ⟨clientid, identity⟩ := matchedWaiting.client
          obtain ⟨reply, replied⟩ := read_response_total env matched.isLocal matched.ticket tuple stored named nonempty
          have built := match_reply_waiting env tuple matched matchedWaiting
          rw [replied] at built
          by_cases fresh : state.needAppend = true
          · obtain ⟨final, looped⟩ := ih
              { requests := before ++ after
                needAppend := !consumes matched.command
                sent := state.sent ++ .frame matched.isLocal matched.ticket clientid true :: reply
                history := state.history ++ [.replied matched.ticket matched.command tuple] } rest shorter
            refine ⟨final, ?_⟩
            simpa only [matchLoop, search, detached, fresh, sendClientid, identity, CString.chars, built, bind, Except.bind, pure,
              Except.pure, Bool.not_true, Bool.false_eq_true, if_false] using looped
          · exact ⟨{ state with requests := before ++ after }, by
              simp only [matchLoop, search, detached, fresh, bind, Except.bind, pure, Except.pure, Bool.not_false, if_true]⟩

theorem answers_filter (env : Platform) (tuple : SngTuple) (answered : List BlockingRequest) (frames : List (List Out))
    (request : BlockingRequest) (outs : List Out) (mapped : answered.mapM (answer env tuple) = .ok frames)
    (distinct : (answered.map BlockingRequest.ticket).Nodup) (member : request ∈ answered)
    (one : answer env tuple request = .ok outs) :
    frames.flatten.filter (fun out => out.ticket = some request.ticket) = outs := by
  induction answered generalizing frames with
  | nil => cases member
  | cons head later ih =>
      rw [List.mapM_cons] at mapped
      obtain ⟨first, built, mapped⟩ := bind_ok _ _ _ mapped
      obtain ⟨others, rest, mapped⟩ := bind_ok _ _ _ mapped
      cases mapped
      obtain ⟨fresh, distinctLater⟩ := List.nodup_cons.mp distinct
      obtain ⟨_, every⟩ := answer_ticket env tuple head first built
      rw [List.flatten_cons, List.filter_append]
      rcases List.mem_cons.mp member with same | inLater
      · subst same
        have whole : first = outs := Except.ok.inj (built.symm.trans one)
        have unsent := sent_to_answered env tuple later others rest request.ticket
        have nobody : later.any (fun other => other.ticket = request.ticket) = false := by
          rw [List.any_eq_false]
          intro other there same
          rw [decide_eq_true_eq] at same
          exact fresh (same ▸ List.mem_map_of_mem there)
        rw [nobody, sentTo, List.any_eq_false] at unsent
        rw [List.filter_eq_self.mpr fun out there => by simp [every out there],
          List.filter_eq_nil_iff.mpr fun out there => unsent out there, List.append_nil, whole]
      · have different : head.ticket ≠ request.ticket := fun same => fresh (same ▸ List.mem_map_of_mem inLater)
        rw [List.filter_eq_nil_iff.mpr fun out there => by simp [every out there, different], List.nil_append]
        exact ih others rest distinctLater inLater

theorem delayed_named (env : Platform) (self : Tsd) (space : TsdElement) (tuple : SngTuple) (stored : Bytes) (data : Payload)
    (ahead behind : List BlockingRequest) (request : BlockingRequest) (named : tuple.name = .str stored)
    (payload : tuple.data = data.bytes) (pending : space.namedQueueRequests = ahead ++ request :: behind)
    (waiting : ∀ other ∈ space.namedQueueRequests, other.Waiting)
    (distinct : (space.namedQueueRequests.map BlockingRequest.ticket).Nodup) (accepted : accepts env tuple request = true)
    (reached : ∀ other ∈ ahead, accepts env tuple other = true → destructive other = false) :
    ∃ rt after sent outs, matchBlockingRequests env self space tuple .tsPut = .ok (rt, after, sent) ∧
      answer env tuple request = .ok outs ∧ sent.filter (fun out => out.ticket = some request.ticket) = outs := by
  have nonempty : tuple.data ≠ [] := payload ▸ data.nonempty
  obtain ⟨final, looped⟩ := match_loop_total env tuple stored named nonempty (space.namedQueueRequests.length + 1)
    { requests := space.namedQueueRequests, needAppend := true, sent := [], history := space.history } waiting (Nat.lt_succ_self _)
  obtain ⟨frames, answered, _, shape⟩ := match_loop_serves env tuple _ _ final true ⟨stored, named⟩ waiting rfl looped
  have inside := Waiters.serve_reaches (accepts env tuple) destructive ahead behind request accepted reached
  rw [← pending] at inside
  have order := Waiters.serve_perm (accepts env tuple) destructive space.namedQueueRequests
  have apart := ((order.map BlockingRequest.ticket).nodup_iff.mpr distinct)
  rw [List.map_append] at apart
  obtain ⟨reply, responded⟩ := read_response_total env request.isLocal request.ticket tuple stored named nonempty
  obtain ⟨clientid, identity⟩ := (waiting request (by simp [pending])).client
  have one : answer env tuple request = .ok (.frame request.isLocal request.ticket clientid true :: reply) := by
    rw [answer, responded, identity]
    rfl
  have parts := answers_filter env tuple _ frames request _ answered (List.nodup_append.mp apart).1 inside one
  have token : ∀ token : GenericToken, (frames.flatten ++ [Out.token token]).filter (fun out => out.ticket = some request.ticket) =
      .frame request.isLocal request.ticket clientid true :: reply := fun token => by
    rw [List.filter_append, parts]
    simp [Out.ticket]
  have sent : final.sent = frames.flatten := by rw [shape]; rfl
  have put : ¬ TupleCommand.tsPut = .tsAdd := by decide
  simp only [matchBlockingRequests, TsdElement.opQueue, looped, bind, Except.bind, Bool.not_true, Bool.false_eq_true, if_false, sent]
  split
  · exact ⟨_, _, _, _, rfl, one, parts⟩
  · split
    · simp only [replicationToken, put, if_false, named, CString.chars, bind, Except.bind, pure, Except.pure]
      exact ⟨_, _, _, _, rfl, one, token _⟩
    · exact ⟨_, _, _, _, rfl, one, parts⟩

theorem delayed_anonymous (env : Platform) (self : Tsd) (space : TsdElement) (tuple : SngTuple) (ahead behind : List BlockingRequest)
    (request : BlockingRequest) (anonymous : tuple.name = .null)
    (pending : space.namedQueueRequests = ahead ++ request :: behind)
    (waiting : ∀ other ∈ space.namedQueueRequests, other.Waiting)
    (accepted : blckcmpStr env request (searchFor tuple) = .ok 0) (result : Int × TsdElement × List Out) :
    matchBlockingRequests env self space tuple .tsAdd ≠ .ok result := by
  intro done
  obtain ⟨⟨state, finished⟩, looped, _⟩ := bind_ok _ _ _ done
  obtain ⟨handle, found, looped⟩ := bind_ok _ _ _ looped
  cases handle with
  | none =>
      obtain ⟨order, compared, different⟩ := zlistx_find_none _ _ found request (by simp [pending])
      exact different (Except.ok.inj (compared.symm.trans accepted))
  | some handle =>
      obtain ⟨before, matched, after, split, position, _, _⟩ := zlistx_find_some _ _ _ found
      simp only at split
      have detached : zlistxDetach space.namedQueueRequests (some handle) = (some matched, before ++ after) := by
        rw [split, ← position, zlistx_detach_split]
      have matchedWaiting := waiting matched (by simp [split])
      simp only [detached, Bool.not_true, Bool.false_eq_true, if_false] at looped
      obtain ⟨header, _, looped⟩ := bind_ok _ _ _ looped
      obtain ⟨reply, replied, _⟩ := bind_ok _ _ _ looped
      rw [match_reply_waiting env tuple matched matchedWaiting] at replied
      obtain ⟨frames, built, _⟩ := bind_ok _ _ _ replied
      obtain ⟨name, sent, _⟩ := bind_ok _ _ _ built
      rw [anonymous] at sent
      cases sent

theorem first_wanted (wanted : SngTuple → Bool) (before after early late : List SngTuple) (tuple other : SngTuple)
    (same : before ++ tuple :: after = early ++ other :: late) (accepted : wanted tuple = true) (found : wanted other = true)
    (skipped : ∀ one ∈ before, wanted one = false) (passed : ∀ one ∈ early, wanted one = false) : tuple = other := by
  have first : ∀ (front back : List SngTuple) (one : SngTuple), wanted one = true → (∀ two ∈ front, wanted two = false) →
      (front ++ one :: back).find? wanted = some one := fun front back one hit miss => by
    rw [List.find?_append, List.find?_eq_none.mpr fun two member => by simp [miss two member]]
    simp [hit]
  have both := first before after tuple accepted skipped
  rw [same, first early late other found passed] at both
  exact (Option.some.inj both).symm

theorem tplcmp_total (env : Platform) (tuple search : SngTuple) (asked : Bytes) (stored : tuple.Stored)
    (named : search.name = .str asked) : ∃ order, tplcmp env tuple search = .ok order := by
  rcases stored with ⟨name, isStr⟩ | ⟨isNull, nonzero⟩
  · exact ⟨_, tplcmp_named env tuple search name asked isStr named⟩
  · exact ⟨_, by rw [tplcmp, if_pos (Or.inl ⟨isNull, nonzero⟩)]⟩

theorem immediate_query (env : Platform) (args : HandlerArg) (space : TsdElement) (clientid asked : Bytes)
    (before after : List SngTuple) (tuple : SngTuple) (stored : Bytes) (data : Payload) (client : args.clientid = .str clientid)
    (query : fetches args.action = false)
    (getOrRead : takes args.action = decide (args.action = .tsGet ∨ args.action = .tsGetBlocking))
    (queue : space.namedQueue = before ++ tuple :: after) (wellFormed : ∀ other ∈ space.namedQueue, other.Stored)
    (active : space.isActivated = true) (named : tuple.name = .str stored) (payload : tuple.data = data.bytes)
    (wanted : wants env args.action (.str asked) tuple = true)
    (skipped : ∀ other ∈ before, wants env args.action (.str asked) other = false) :
    ∃ acted reply, readTuple env args space asked = .ok acted ∧
      handleNamedQueueReadResponse env args.isLocal args.ticket tuple = .ok reply ∧
      acted.sent = .frame args.isLocal args.ticket clientid true :: reply := by
  obtain ⟨reply, responded⟩ := read_response_total env args.isLocal args.ticket tuple stored named (payload ▸ data.nonempty)
  have exists_ : ∃ acted, readTuple env args space asked = .ok acted := by
    have open_ : ¬ ((!args.isLocal) = true ∧ (!space.isActivated) = true) := by simp [active]
    obtain ⟨handle, found⟩ := zlistx_find_total
      (fun other => tplcmp env other { name := .str asked, anonId := 0, data := [], origin := 0 }) space.namedQueue
      fun other member => tplcmp_total env other _ asked (wellFormed other member) rfl
    simp only [readTuple, client, sendClientid, CString.chars, bind, Except.bind, pure, Except.pure, open_, if_false, found]
    cases handle with
    | none => exact ⟨_, rfl⟩
    | some handle =>
        obtain ⟨early, other, late, split, position, zero, passed⟩ := zlistx_find_some _ _ _ found
        have here : space.namedQueue[handle]? = some other := by
          rw [split, ← position]
          simp
        have accepts_ := (tplcmp_wants env args.action asked other _ 0 query (wellFormed other (by simp [split])) rfl rfl zero).mp rfl
        have refused : ∀ one ∈ early, wants env args.action (.str asked) one = false := fun one member => by
          obtain ⟨order, compared, different⟩ := passed one member
          exact Bool.eq_false_iff.mpr fun wanted =>
            different ((tplcmp_wants env args.action asked one _ order query (wellFormed one (by simp [split, member])) rfl rfl
              compared).mpr wanted)
        have same := first_wanted (wants env args.action (.str asked)) before after early late tuple other
          (queue.symm.trans split) wanted accepts_ skipped refused
        subst same
        have zeroBack : tplcmp env { name := .str asked, anonId := 0, data := [], origin := 0 } tuple = .ok 0 := by
          rw [tplcmp_named env tuple _ stored asked named rfl] at zero
          rw [tplcmp_named env _ tuple asked stored rfl named, (name_cmp_symm env asked stored).mpr (Except.ok.inj zero)]
        simp only [Option.bind_some, here, zeroBack, ne_eq, not_true_eq_false, if_false, responded]
        exact ⟨_, rfl⟩
  obtain ⟨acted, done⟩ := exists_
  have searched := read_searched env args space clientid asked acted client query getOrRead wellFormed active done
  cases searched with
  | miss unwanted =>
      have refused := unwanted tuple (by simp [queue])
      rw [wanted] at refused
      cases refused
  | hit early late other answered split found passed response =>
      have same := first_wanted (wants env args.action (.str asked)) before after early late tuple other
        (queue.symm.trans split) wanted found skipped passed
      subst same
      exact ⟨_, answered, done, response, rfl⟩

theorem responses_same_iff (env : Platform) (isLocal : Bool) (ticket : Nat) (tuple : SngTuple) (stored : Bytes)
    (read fetch : List Out) (named : tuple.name = .str stored)
    (readResponse : handleNamedQueueReadResponse env isLocal ticket tuple = .ok read)
    (fetchResponse : handleNamedQueueFetchResponse env isLocal ticket tuple = .ok fetch) : read = fetch ↔ isLocal = false := by
  have ordinary : ¬ (tuple.name = .null ∧ tuple.anonId ≠ 0) := by simp [named]
  rw [handleNamedQueueFetchResponse, if_neg ordinary, named] at fetchResponse
  rw [handleNamedQueueReadResponse, named] at readResponse
  cases isLocal with
  | false =>
      cases readResponse
      cases fetchResponse
      exact ⟨fun _ => rfl, fun _ => rfl⟩
  | true =>
      obtain ⟨name, last, readResponse⟩ := bind_ok _ _ _ readResponse
      obtain ⟨item, _, readResponse⟩ := bind_ok _ _ _ readResponse
      obtain ⟨name', more, fetchResponse⟩ := bind_ok _ _ _ fetchResponse
      obtain ⟨item', _, fetchResponse⟩ := bind_ok _ _ _ fetchResponse
      cases last
      cases more
      cases readResponse
      cases fetchResponse
      simp

theorem fetch_response_total (env : Platform) (isLocal : Bool) (ticket : Nat) (tuple : SngTuple) (stored : Bytes)
    (named : tuple.name = .str stored) (nonempty : tuple.data ≠ []) :
    ∃ outs, handleNamedQueueFetchResponse env isLocal ticket tuple = .ok outs := by
  have ordinary : ¬ (tuple.name = .null ∧ tuple.anonId ≠ 0) := by simp [named]
  obtain ⟨item, passed⟩ := send_item_total ticket tuple.data nonempty
  rw [handleNamedQueueFetchResponse, if_neg ordinary, named]
  cases isLocal with
  | true =>
      simp only [if_true, passed]
      exact ⟨_, rfl⟩
  | false => exact ⟨_, rfl⟩

theorem immediate_fetch (env : Platform) (args : HandlerArg) (space : TsdElement) (clientid : Bytes) (after : List SngTuple)
    (tuple : SngTuple) (stored : Bytes) (data : Payload) (client : args.clientid = .str clientid)
    (queue : space.namedQueue = tuple :: after) (named : tuple.name = .str stored) (payload : tuple.data = data.bytes) :
    ∃ acted reply, fetchTuple env args space = .ok acted ∧
      handleNamedQueueFetchResponse env args.isLocal args.ticket tuple = .ok reply ∧
      acted.sent = .frame args.isLocal args.ticket clientid true :: reply := by
  obtain ⟨reply, responded⟩ := fetch_response_total env args.isLocal args.ticket tuple stored named (payload ▸ data.nonempty)
  simp only [fetchTuple, client, queue, responded]
  exact ⟨_, reply, rfl, rfl, rfl⟩

def Call.sought (call : Call) : CString := call.query.getD .null

theorem blocking_call_waiting (args : HandlerArg) (call : Call) (clientid : Bytes) (client : args.clientid = .str clientid)
    (action : args.action = call.command) (blocks : isBlocking call.command = true) : (args.request call.sought).Waiting := by
  cases call with
  | tsOutQuery takesIt blocking name =>
      exact query_request_waiting args takesIt blocking name clientid client action (action ▸ blocks)
  | tsOutFetch takesIt blocking => exact fetch_request_waiting args takesIt blocking clientid client action (action ▸ blocks)
  | tsBcastRead blocking name => cases blocking <;> cases blocks
  | _ => cases blocks

-- A tuple that comes after a blocking request that accepts it, and one that is there already as the first that it
-- accepts: the client gets the same frames and chunks exactly when the tuple has a name and the client is remote
-- or asks by name.
theorem delayed_answer_iff (env : Platform) (self other : Tsd) (args : HandlerArg) (clientid : Bytes) (call : Call)
    (content : Content) (origin : Nat) (early late : TsdElement) (ahead behind : List BlockingRequest)
    (before after : List SngTuple) (client : args.clientid = .str clientid) (action : args.action = call.command)
    (blocks : isBlocking call.command = true)
    (accepted : blckcmpStr env (args.request call.sought) (searchFor (content.tuple origin)) = .ok 0)
    (pending : early.namedQueueRequests = ahead ++ args.request call.sought :: behind)
    (waiting : ∀ request ∈ early.namedQueueRequests, request.Waiting)
    (distinct : (early.namedQueueRequests.map BlockingRequest.ticket).Nodup)
    (reached : ∀ request ∈ ahead, accepts env (content.tuple origin) request = true → destructive request = false)
    (active : late.isActivated = true) (queue : late.namedQueue = before ++ content.tuple origin :: after)
    (stored : ∀ tuple ∈ late.namedQueue, tuple.Stored)
    (skipped : ∀ tuple ∈ before, wants env call.command call.sought tuple = false) :
    (∃ rt left sent acted,
      matchBlockingRequests env self early (content.tuple origin) content.action = .ok (rt, left, sent) ∧
      call.act env other args late [] = .ok acted ∧
      sent.filter (fun out => out.ticket = some args.ticket) = acted.sent) ↔
      content.isNamed = true ∧ (args.isLocal = false ∨ fetches call.command = false) := by
  have requestWaiting := blocking_call_waiting args call clientid client action blocks
  cases content with
  | anonymous anonId nonzero data =>
      refine ⟨?_, fun ⟨named, _⟩ => absurd named (by simp [Content.isNamed])⟩
      rintro ⟨rt, left, sent, acted, matched, _⟩
      exact absurd matched (delayed_anonymous env self early _ ahead behind _ rfl pending waiting accepted _)
  | named name data =>
      have wanted := (blckcmp_accepts env (args.request call.sought) (searchFor ((Content.named name data).tuple origin))
        ((Content.named name data).tuple origin) 0 requestWaiting ⟨name.chars, rfl⟩ rfl accepted).mp rfl
      obtain ⟨rt, left, sent, outs, matched, answered, filtered⟩ := delayed_named env self early
        ((Content.named name data).tuple origin) name.chars data ahead behind (args.request call.sought) rfl rfl pending waiting
        distinct wanted reached
      obtain ⟨header, identity, answered⟩ := bind_ok _ _ _ answered
      obtain ⟨reply, responded, answered⟩ := bind_ok _ _ _ answered
      cases answered
      have sameId : sendClientid args.isLocal args.ticket args.clientid = .ok header := identity
      rw [client] at sameId
      cases sameId
      have onlyThis : ∀ acted, call.act env other args late [] = .ok acted →
          ((∃ rt left sent acted,
            matchBlockingRequests env self early ((Content.named name data).tuple origin) .tsPut = .ok (rt, left, sent) ∧
            call.act env other args late [] = .ok acted ∧
            sent.filter (fun out => out.ticket = some args.ticket) = acted.sent) ↔
          .frame args.isLocal args.ticket clientid true :: reply = acted.sent) := fun acted performed => by
        constructor
        · rintro ⟨rt', left', sent', acted', matched', performed', same⟩
          have sameMatch := Except.ok.inj (matched.symm.trans matched')
          have sameActed := Except.ok.inj (performed.symm.trans performed')
          injection sameMatch with _ sameRest
          injection sameRest with _ sameSent
          subst sameSent sameActed
          exact filtered.symm.trans same
        · exact fun same => ⟨rt, left, sent, acted, matched, performed, filtered.trans same⟩
      cases call with
      | tsOutQuery takesIt blocking asked =>
          obtain ⟨query, getOrRead⟩ := query_command takesIt blocking asked
          rw [← action] at query getOrRead skipped
          have wantedNow : wants env args.action (.str asked.chars) ((Content.named name data).tuple origin) = true := wanted
          obtain ⟨acted, response, performed, built, sentNow⟩ := immediate_query env args late clientid asked.chars before after
            ((Content.named name data).tuple origin) name.chars data client query getOrRead queue stored active rfl rfl wantedNow skipped
          have sameReply : reply = response := Except.ok.inj (responded.symm.trans built)
          rw [action] at query
          exact (onlyThis acted performed).trans
            ⟨fun _ => ⟨rfl, Or.inr query⟩, fun _ => by rw [sentNow, sameReply]⟩
      | tsOutFetch takesIt blocking =>
          have fetch := fetch_command takesIt blocking
          have nothing : before = [] := by
            apply List.eq_nil_iff_forall_not_mem.mpr
            intro tuple member
            have refused := skipped tuple member
            simp [wants, fetch] at refused
          rw [nothing, List.nil_append] at queue
          obtain ⟨acted, response, performed, built, sentNow⟩ := immediate_fetch env args late clientid after
            ((Content.named name data).tuple origin) name.chars data client queue rfl rfl
          have decided := responses_same_iff env args.isLocal args.ticket _ name.chars reply response rfl responded built
          refine (onlyThis acted performed).trans ?_
          rw [sentNow, List.cons.injEq]
          simp only [true_and, decided, fetch, Bool.true_eq_false, or_false, Content.isNamed]
      | tsBcastRead blocking asked => cases blocking <;> cases blocks
      | tsOpen mode => cases blocks
      | tsInPut put payload => cases blocks
      | tsInAdd anonId nonzero payload => cases blocks
      | tsClose => cases blocks

def sampleSpace : TsdElement :=
  createElement { name := [115], directEndpoint := List.replicate 256 0, tsMode := .master, tsdMode := .direct }

def sampleArgs (isLocal : Bool) (call : Call) : HandlerArg := ⟨.str [67], call.command, isLocal, 0⟩

theorem delayed_answer_iff_get :
    ∃ rt left sent acted,
      matchBlockingRequests samplePlatform sampleStart.self
        { sampleSpace with namedQueueRequests := [(sampleArgs true (.tsOutQuery true true sampleName)).request (.str [97])] }
        ⟨.str [97], 0, [7], 1⟩ .tsPut = .ok (rt, left, sent) ∧
      (Call.tsOutQuery true true sampleName).act samplePlatform sampleStart.self (sampleArgs true (.tsOutQuery true true sampleName))
        { sampleSpace with namedQueue := [⟨.str [97], 0, [7], 1⟩] } [] = .ok acted ∧
      sent.filter (fun out => out.ticket = some 0) = acted.sent :=
  (delayed_answer_iff samplePlatform sampleStart.self sampleStart.self (sampleArgs true (.tsOutQuery true true sampleName)) [67]
    (.tsOutQuery true true sampleName) (.named sampleName samplePayload) 1
    { sampleSpace with namedQueueRequests := [(sampleArgs true (.tsOutQuery true true sampleName)).request (.str [97])] }
    { sampleSpace with namedQueue := [⟨.str [97], 0, [7], 1⟩] } [] [] [] [] rfl rfl rfl rfl rfl
    (fun request member => List.mem_singleton.mp member ▸ ⟨⟨[67], rfl⟩, Or.inl ⟨Or.inl rfl, [97], rfl⟩, rfl⟩) (by decide)
    (by simp) rfl rfl (fun tuple member => List.mem_singleton.mp member ▸ Or.inl ⟨[97], rfl⟩) (by simp)).mpr
    ⟨rfl, Or.inr rfl⟩

-- A local TsPop_Blocking: the frame of the name ends the message only when the tuple comes later. A remote one, and
-- a tuple without a name: what comes later is not answered at all.
theorem delayed_pop_differs :
    (∃ rt left sent acted,
      matchBlockingRequests samplePlatform sampleStart.self
        { sampleSpace with namedQueueRequests := [(sampleArgs true (.tsOutFetch true true)).request .null] }
        ⟨.str [97], 0, [7], 1⟩ .tsPut = .ok (rt, left, sent) ∧
      (Call.tsOutFetch true true).act samplePlatform sampleStart.self (sampleArgs true (.tsOutFetch true true))
        { sampleSpace with namedQueue := [⟨.str [97], 0, [7], 1⟩] } [] = .ok acted ∧
      sent.filter (fun out => out.ticket = some 0) ≠ acted.sent) ∧
    matchBlockingRequests samplePlatform sampleStart.self
      { sampleSpace with namedQueueRequests := [(sampleArgs false (.tsOutFetch true true)).request .null] }
      ⟨.null, 5, [7], 1⟩ .tsAdd = .error .undefined ∧
    ∃ acted, (Call.tsOutFetch true true).act samplePlatform sampleStart.self (sampleArgs false (.tsOutFetch true true))
      { sampleSpace with namedQueue := [⟨.null, 5, [7], 1⟩] } [] = .ok acted := by
  have reached : ∃ rt left sent acted,
      matchBlockingRequests samplePlatform sampleStart.self
        { sampleSpace with namedQueueRequests := [(sampleArgs true (.tsOutFetch true true)).request .null] }
        ⟨.str [97], 0, [7], 1⟩ .tsPut = .ok (rt, left, sent) ∧
      (Call.tsOutFetch true true).act samplePlatform sampleStart.self (sampleArgs true (.tsOutFetch true true))
        { sampleSpace with namedQueue := [⟨.str [97], 0, [7], 1⟩] } [] = .ok acted ∧
      (sent.filter fun out => out.ticket = some 0)[3]? = some (.frame true 0 [97, 0] false) ∧
      acted.sent[3]? = some (.frame true 0 [97, 0] true) := ⟨_, _, _, _, rfl, rfl, rfl, rfl⟩
  obtain ⟨rt, left, sent, acted, matched, performed, delayed, immediate⟩ := reached
  refine ⟨⟨rt, left, sent, acted, matched, performed, fun same => ?_⟩, rfl, _, rfl⟩
  rw [same, immediate] at delayed
  cases delayed

end Synergy
