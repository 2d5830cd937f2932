import Synergy.Daemon

set_option autoImplicit false

namespace Synergy

-- TsPut, TsGet, TsRead, TsPop, TsPeek, their blocking forms, TsTerm and TsConnect.
def Call.named : Call → Bool
  | .tsInAdd _ _ _ => false
  | .tsBcastRead _ _ => false
  | _ => true

-- The same and TsAdd.
def Call.plain : Call → Bool
  | .tsBcastRead _ _ => false
  | _ => true

theorem named_plain (call : Call) (named : call.named = true) : call.plain = true := by
  cases call with
  | tsBcastRead blocking name => cases named
  | _ => rfl

-- What a space that is not replicated keeps over such calls; tickets counts the messages so far.
structure TsdElement.Sound (tickets : Nat) (space : TsdElement) : Prop where
  single : space.tsMode ≠ .p2p
  stored : ∀ tuple ∈ space.namedQueue, tuple.Stored
  waiting : ∀ request ∈ space.namedQueueRequests, request.Waiting
  older : ∀ request ∈ space.namedQueueRequests, request.ticket < tickets
  distinct : (space.namedQueueRequests.map BlockingRequest.ticket).Nodup
  bcast : space.bcastQueueRequests = []

-- What a ts_out asks for.
def Call.query : Call → Option CString
  | .tsOutQuery _ _ name => some (.str name.chars)
  | .tsOutFetch _ _ => some .null
  | _ => none

def HandlerArg.request (args : HandlerArg) (query : CString) : BlockingRequest :=
  { name := query, clientid := args.clientid, command := args.action, extra := 0, isLocal := args.isLocal, ticket := args.ticket }

def offer (env : Platform) (space : TsdElement) (tuple : SngTuple) : Waiters.Served BlockingRequest :=
  Waiters.serve (accepts env tuple) destructive space.namedQueueRequests

def Call.written (ticket : Nat) (bytes : Bytes) : Call → Option SngTuple
  | .tsInPut name _ => some ⟨.str name.chars, 0, bytes, ticket⟩
  | .tsInAdd anonId _ _ => some ⟨.null, anonId, bytes, ticket⟩
  | _ => none

theorem written_stored (call : Call) (ticket : Nat) (bytes : Bytes) (tuple : SngTuple)
    (written : call.written ticket bytes = some tuple) : tuple.Stored ∧ tuple.origin = ticket ∧ tuple.data = bytes := by
  cases call with
  | tsInPut name data =>
      cases written
      exact ⟨Or.inl ⟨name.chars, rfl⟩, rfl, rfl⟩
  | tsInAdd anonId nonzero data =>
      cases written
      exact ⟨Or.inr ⟨rfl, nonzero⟩, rfl, rfl⟩
  | _ => cases written

theorem named_written (call : Call) (ticket : Nat) (bytes : Bytes) (tuple : SngTuple) (named : call.named = true)
    (written : call.written ticket bytes = some tuple) : call.command = .tsPut ∧ ∃ stored, tuple.name = .str stored := by
  cases call with
  | tsInPut name data =>
      cases written
      exact ⟨rfl, name.chars, rfl⟩
  | tsInAdd anonId nonzero data => cases named
  | _ => cases written

-- All that a call can do to what a space stores, who waits there and what is on record, and whom it sends what.
inductive Change (env : Platform) (args : HandlerArg) (call : Call) (bytes : Bytes) (space : TsdElement) :
    TsdElement → List Posting → Prop where
  | connected (after : TsdElement) (word : UInt32) (endpoint : Option CString) (asked : ∃ mode, call = .tsOpen mode)
      (queue : after.namedQueue = space.namedQueue) (requests : after.namedQueueRequests = space.namedQueueRequests)
      (history : after.history = space.history) (mode : after.tsMode = space.tsMode)
      (bcast : after.bcastQueueRequests = space.bcastQueueRequests)
      (active : after.isActivated = true ∨ after.isActivated = space.isActivated)
      (plain : space.tsMode = .master → endpoint = none) :
      Change env args call bytes space after [args.posting (.mode word endpoint)]
  | put (tuple : SngTuple) (written : call.written args.ticket bytes = some tuple) :
      Change env args call bytes space
        { space with
          namedQueue := if (offer env space tuple).taken then space.namedQueue else space.namedQueue ++ [tuple]
          namedQueueRequests :=
            if (offer env space tuple).taken then (offer env space tuple).rest.eraseP (accepts env tuple)
            else (offer env space tuple).rest
          history := (space.history ++ [.accepted tuple]) ++
            (offer env space tuple).answered.map fun request => .replied request.ticket request.command tuple }
        ((offer env space tuple).answered.map fun request => request.posting (.found tuple))
  | missed (query : CString) (unwanted : ∀ tuple ∈ space.namedQueue, wants env args.action query tuple = false)
      (asked : call.query = some query) (waiting : isBlocking args.action = true → (args.request query).Waiting) :
      Change env args call bytes space ((space.record (.notFound args.ticket query space.namedQueue)).enqueue args query)
        [args.posting .enf]
  | found (query : CString) (before after : List SngTuple) (tuple : SngTuple) (asked : call.query = some query)
      (split : space.namedQueue = before ++ tuple :: after) (wanted : wants env args.action query tuple = true)
      (skipped : ∀ other ∈ before, wants env args.action query other = false) :
      Change env args call bytes space
        { space with
          namedQueue := if takes args.action then before ++ after else space.namedQueue
          history := space.history ++ [.replied args.ticket args.action tuple] }
        [args.posting (if fetches args.action then .fetched tuple else .found tuple)]
  | closed (after : TsdElement) (asked : call = .tsClose) (queue : after.namedQueue = []) (requests : after.namedQueueRequests = [])
      (history : after.history = space.history ++ (space.namedQueueRequests ++ space.bcastQueueRequests).map .terminated ++
        space.namedQueue.map .discarded) (mode : after.tsMode = space.tsMode) (bcast : after.bcastQueueRequests = [])
      (inactive : after.isActivated = false) :
      Change env args call bytes space after (space.namedQueueRequests.map fun request => request.posting .term)

theorem change_put (env : Platform) (args : HandlerArg) (name : Name) (payload : Payload) (bytes : Bytes) (space after : TsdElement)
    (postings : List Posting) (change : Change env args (.tsInPut name payload) bytes space after postings) :
    after.namedQueueRequests =
        (if (offer env space ⟨.str name.chars, 0, bytes, args.ticket⟩).taken then
          (offer env space ⟨.str name.chars, 0, bytes, args.ticket⟩).rest.eraseP (accepts env ⟨.str name.chars, 0, bytes, args.ticket⟩)
        else (offer env space ⟨.str name.chars, 0, bytes, args.ticket⟩).rest) ∧
      after.history = (space.history ++ [.accepted ⟨.str name.chars, 0, bytes, args.ticket⟩]) ++
        (offer env space ⟨.str name.chars, 0, bytes, args.ticket⟩).answered.map fun request =>
          .replied request.ticket request.command ⟨.str name.chars, 0, bytes, args.ticket⟩ := by
  cases change with
  | connected after word endpoint asked => obtain ⟨mode, asked⟩ := asked; cases asked
  | put tuple written =>
      cases written
      exact ⟨rfl, rfl⟩
  | missed query unwanted asked waiting => cases asked
  | found query before rest tuple asked split wanted skipped => cases asked
  | closed after asked => cases asked

theorem sends_one (env : Platform) (posting : Posting) (sent outs : List Out) (built : posting.outs env = .ok outs)
    (frames : ∀ isLocal, framesOn isLocal sent = framesOn isLocal outs) (chunks : chunksIn sent = chunksIn outs) :
    Sends env sent [posting] := by
  refine ⟨[outs], ?_, fun isLocal => ?_, ?_⟩
  · rw [List.mapM_cons, built]
    rfl
  · rw [frames isLocal, List.flatten_singleton]
  · rw [chunks, List.flatten_singleton]

theorem activate_signal (self : Tsd) (space : TsdElement) :
    (sendActivateSignal self space).1 = { space with isActivated := true } ∧
      (∀ isLocal, framesOn isLocal (sendActivateSignal self space).2 = []) ∧ chunksIn (sendActivateSignal self space).2 = [] := by
  unfold sendActivateSignal
  split
  · rename_i active
    refine ⟨?_, fun _ => rfl, rfl⟩
    simp only [← active]
  · exact ⟨rfl, fun _ => rfl, rfl⟩

theorem connect_change (env : Platform) (self : Tsd) (args : HandlerArg) (bytes : Bytes) (space : TsdElement) (mode : UInt32)
    (acted : Acted) (done : connectMode env self args space mode = .ok acted) :
    ∃ postings, Change env args (.tsOpen mode) bytes space acted.space postings ∧ Sends env acted.sent postings := by
  obtain ⟨clientid, identity, done⟩ := bind_ok _ _ _ done
  have plain : ∀ word, Sends env [clientid, sendUint32 env args.isLocal args.ticket word false]
      [args.posting (.mode word none)] := fun word => by
    refine sends_one env _ _ [clientid, sendUint32 env args.isLocal args.ticket word false] ?_ (fun _ => rfl) rfl
    simp only [Posting.outs, HandlerArg.posting, identity, Reply.outs, bind, Except.bind, pure, Except.pure]
  have signalled : ∀ before word, Sends env (clientid :: (sendActivateSignal self before).2 ++
      [sendUint32 env args.isLocal args.ticket word false]) [args.posting (.mode word none)] := fun before word => by
    obtain ⟨_, frames, chunks⟩ := activate_signal self before
    obtain ⟨outs, built, same, sameChunks⟩ := plain word
    refine ⟨outs, built, fun isLocal => ?_, ?_⟩
    · rw [← same isLocal, ← List.singleton_append, frames_on_append, frames_on_append, frames isLocal, List.append_nil,
        ← frames_on_append]
      rfl
    · rw [← sameChunks]
      rw [← List.singleton_append, chunks_in_append, chunks_in_append, chunks, List.append_nil, ← chunks_in_append]
      rfl
  cases tsMode : space.tsMode with
  | master =>
      simp only [tsMode] at done
      split at done
      · obtain ⟨_, _, done⟩ := bind_ok _ _ _ done
        cases done
        exact ⟨_, Change.connected _ _ none ⟨mode, rfl⟩ (by rw [(activate_signal self _).1]) (by rw [(activate_signal self _).1])
          (by rw [(activate_signal self _).1]) (by rw [(activate_signal self _).1]; exact tsMode.symm)
          (by rw [(activate_signal self _).1]) (Or.inl rfl) fun _ => rfl, signalled _ _⟩
      · split at done
        · cases done
          exact ⟨_, Change.connected _ _ none ⟨mode, rfl⟩ (by rw [(activate_signal self _).1]) (by rw [(activate_signal self _).1])
            (by rw [(activate_signal self _).1]) (by rw [(activate_signal self _).1]; exact tsMode.symm)
            (by rw [(activate_signal self _).1]) (Or.inl rfl) fun _ => rfl, signalled _ _⟩
        · cases done
          exact ⟨_, Change.connected _ _ none ⟨mode, rfl⟩ rfl rfl rfl tsMode.symm rfl (Or.inr rfl) fun _ => rfl, plain _⟩
  | worker =>
      have notMaster : space.tsMode ≠ .master := by simp [tsMode]
      simp only [tsMode] at done
      split at done
      · cases done
        exact ⟨_, Change.connected _ _ none ⟨mode, rfl⟩ rfl rfl rfl tsMode.symm rfl (Or.inr rfl) fun _ => rfl, plain _⟩
      · split at done
        · obtain ⟨direct, _, done⟩ := bind_ok _ _ _ done
          obtain ⟨endpoint, named, done⟩ := bind_ok _ _ _ done
          cases done
          refine ⟨_, Change.connected _ tsModeClient (some direct) ⟨mode, rfl⟩ rfl rfl rfl tsMode.symm rfl (Or.inr rfl)
            (fun master => absurd master notMaster), sends_one env _ _ _ ?_ (fun _ => rfl) rfl⟩
          simp only [Posting.outs, HandlerArg.posting, identity, Reply.outs, named, bind, Except.bind, pure, Except.pure]
        · cases done
          exact ⟨_, Change.connected _ _ none ⟨mode, rfl⟩ rfl rfl rfl tsMode.symm rfl (Or.inr rfl) fun _ => rfl, plain _⟩
  | p2p =>
      simp only [tsMode] at done
      split at done
      · cases done
        exact ⟨_, Change.connected _ _ none ⟨mode, rfl⟩ rfl rfl rfl tsMode.symm rfl (Or.inr rfl) fun _ => rfl, plain _⟩
      · cases done
        exact ⟨_, Change.connected _ _ none ⟨mode, rfl⟩ rfl rfl rfl tsMode.symm rfl (Or.inr rfl) fun _ => rfl, plain _⟩

theorem answers_send (env : Platform) (tuple : SngTuple) (answered : List BlockingRequest) (frames : List (List Out))
    (done : answered.mapM (answer env tuple) = .ok frames) :
    Sends env frames.flatten (answered.map fun request => request.posting (.found tuple)) := by
  refine ⟨frames, ?_, fun _ => rfl, rfl⟩
  rw [List.mapM_map]
  exact done

theorem put_change (env : Platform) (self : Tsd) (args : HandlerArg) (space : TsdElement) (name : Name) (payload : Payload)
    (data : Bytes) (acted : Acted) (tickets : Nat) (sound : space.Sound tickets) (action : args.action = .tsPut)
    (done : putTuple env self args space name.chars data = .ok acted) :
    ∃ postings, Change env args (.tsInPut name payload) data space acted.space postings ∧ Sends env acted.sent postings := by
  have single : ¬ (space.record (.accepted ⟨.str name.chars, 0, data, args.ticket⟩)).tsMode = .p2p := sound.single
  rw [putTuple, if_neg single, action] at done
  obtain ⟨⟨rt, after, sent⟩, matched, done⟩ := bind_ok _ _ _ done
  obtain ⟨frames, answered, sends, result⟩ :=
    match_put env self (space.record (.accepted ⟨.str name.chars, 0, data, args.ticket⟩)) after
      ⟨.str name.chars, 0, data, args.ticket⟩ rt sent ⟨name.chars, rfl⟩ sound.waiting single matched
  cases done
  exact ⟨_, result ▸ Change.put ⟨.str name.chars, 0, data, args.ticket⟩ rfl, sends ▸ answers_send env _ _ frames answered⟩

theorem add_change (env : Platform) (self : Tsd) (args : HandlerArg) (space : TsdElement) (anonId : UInt32) (nonzero : anonId ≠ 0)
    (payload : Payload) (data : Bytes) (received : Nat) (acted : Acted) (tickets : Nat) (sound : space.Sound tickets)
    (action : args.action = .tsAdd) (done : addTuple env self args space anonId data received = .ok acted) :
    ∃ postings, Change env args (.tsInAdd anonId nonzero payload) data space acted.space postings ∧ Sends env acted.sent postings := by
  have single : ¬ ((!args.isLocal) = true ∧ (space.record (.accepted ⟨.null, anonId, data, args.ticket⟩)).tsMode = .p2p) :=
    fun both => sound.single both.2
  rw [addTuple, if_neg single, action] at done
  obtain ⟨⟨rt, after, sent⟩, matched, done⟩ := bind_ok _ _ _ done
  obtain ⟨refused, nothing, result⟩ := match_add env self (space.record (.accepted ⟨.null, anonId, data, args.ticket⟩)) after
    ⟨.null, anonId, data, args.ticket⟩ rt sent rfl sound.waiting sound.single matched
  cases done
  have nobody : offer env space ⟨.null, anonId, data, args.ticket⟩ = ⟨[], space.namedQueueRequests, false⟩ :=
    Waiters.serve_none _ _ _ refused
  have put : Change env args (.tsInAdd anonId nonzero payload) data space _ _ := Change.put ⟨.null, anonId, data, args.ticket⟩ rfl
  simp only [nobody, Bool.false_eq_true, if_false, List.map_nil, List.append_nil] at put
  refine ⟨[], result ▸ put, [], rfl, fun isLocal => ?_, ?_⟩
  · rw [nothing]
    rfl
  · rw [nothing]
    rfl

theorem searched_change (env : Platform) (args : HandlerArg) (call : Call) (bytes clientid : Bytes) (query : CString)
    (space : TsdElement) (acted : Acted) (client : args.clientid = .str clientid) (asked : call.query = some query)
    (waiting : isBlocking args.action = true → (args.request query).Waiting)
    (searched : Searched env args clientid query
      (fun tuple => Reply.outs env args.isLocal args.ticket (if fetches args.action then .fetched tuple else .found tuple)) space acted) :
    ∃ postings, Change env args call bytes space acted.space postings ∧ Sends env acted.sent postings := by
  cases searched with
  | miss unwanted =>
      refine ⟨_, Change.missed query unwanted asked waiting, sends_one env _ _ _ ?_ (fun _ => rfl) rfl⟩
      rw [Posting.outs, HandlerArg.posting, client]
      rfl
  | hit before after tuple reply split wanted skipped responded =>
      refine ⟨_, Change.found query before after tuple asked split wanted skipped, sends_one env _ _ _ ?_ (fun _ => rfl) rfl⟩
      simp only [Posting.outs, HandlerArg.posting, client, responded, sendClientid, CString.chars, bind, Except.bind, pure, Except.pure]

theorem decomission_space (self : Tsd) (space : TsdElement) :
    (sendDecomissionSignal self space).1 = { space with isActivated := false } := by
  unfold sendDecomissionSignal
  split
  · rfl
  · rename_i inactive
    have off : space.isActivated = false := by simpa using inactive
    simp only [← off]

theorem decomission_frames (self : Tsd) (space : TsdElement) :
    (∀ isLocal, framesOn isLocal (sendDecomissionSignal self space).2 = []) ∧ chunksIn (sendDecomissionSignal self space).2 = [] := by
  unfold sendDecomissionSignal
  split <;> exact ⟨fun _ => rfl, rfl⟩

theorem term_change (env : Platform) (self : Tsd) (args : HandlerArg) (bytes : Bytes) (space : TsdElement) (acted : Acted)
    (bcast : space.bcastQueueRequests = []) (done : termSpace env self space = .ok acted) :
    ∃ postings, Change env args .tsClose bytes space acted.space postings ∧ Sends env acted.sent postings := by
  have stopped := decomission_space self space
  obtain ⟨noFrames, noChunks⟩ := decomission_frames self space
  unfold termSpace at done
  generalize sendDecomissionSignal self space = signal at done stopped noFrames noChunks
  obtain ⟨off, token⟩ := signal
  simp only at stopped noFrames noChunks
  subst stopped
  obtain ⟨⟨cleared, sent⟩, clear, done⟩ := bind_ok _ _ _ done
  cases done
  obtain ⟨named, told, clear⟩ := bind_ok _ _ _ clear
  obtain ⟨others, none, clear⟩ := bind_ok _ _ _ clear
  rw [bcast] at none
  cases none
  split at clear
  · cases clear
  · cases clear
    refine ⟨_, Change.closed _ rfl rfl rfl (by simp only [bcast]) rfl rfl rfl, named, ?_, fun isLocal => ?_, ?_⟩
    · rw [List.mapM_map]
      exact told
    · rw [frames_on_append, noFrames isLocal]
      simp
    · rw [chunks_in_append, noChunks]
      simp

theorem query_command (takesIt blocking : Bool) (name : Name) :
    fetches (Call.tsOutQuery takesIt blocking name).command = false ∧
      takes (Call.tsOutQuery takesIt blocking name).command = decide ((Call.tsOutQuery takesIt blocking name).command = .tsGet ∨
        (Call.tsOutQuery takesIt blocking name).command = .tsGetBlocking) := by
  cases takesIt <;> cases blocking <;> exact ⟨rfl, rfl⟩

theorem fetch_command (takesIt blocking : Bool) : fetches (Call.tsOutFetch takesIt blocking).command = true := by
  cases takesIt <;> cases blocking <;> decide

theorem query_request_waiting (args : HandlerArg) (takesIt blocking : Bool) (name : Name) (clientid : Bytes)
    (client : args.clientid = .str clientid) (action : args.action = (Call.tsOutQuery takesIt blocking name).command)
    (blocks : isBlocking args.action = true) : (args.request (.str name.chars)).Waiting where
  client := ⟨clientid, client⟩
  kind := by
    rw [action] at blocks
    cases takesIt <;> cases blocking <;> simp [Call.command, isBlocking] at blocks <;>
      simp [HandlerArg.request, action, Call.command]
  extra := rfl

theorem fetch_request_waiting (args : HandlerArg) (takesIt blocking : Bool) (clientid : Bytes)
    (client : args.clientid = .str clientid) (action : args.action = (Call.tsOutFetch takesIt blocking).command)
    (blocks : isBlocking args.action = true) : (args.request .null).Waiting where
  client := ⟨clientid, client⟩
  kind := by
    rw [action] at blocks
    cases takesIt <;> cases blocking <;> simp [Call.command, isBlocking] at blocks <;>
      simp [HandlerArg.request, action, Call.command]
  extra := rfl

theorem act_change (env : Platform) (self : Tsd) (args : HandlerArg) (space : TsdElement) (call : Call) (bytes : Bytes)
    (acted : Acted) (tickets : Nat) (clientid : Bytes) (sound : space.Sound tickets) (plain : call.plain = true)
    (client : args.clientid = .str clientid) (action : args.action = call.command)
    (active : call.command = .tsConnect ∨ space.isActivated = true) (done : call.act env self args space bytes = .ok acted) :
    ∃ postings, Change env args call bytes space acted.space postings ∧ Sends env acted.sent postings := by
  cases call with
  | tsOpen mode => exact connect_change env self args bytes space mode acted done
  | tsInPut name data => exact put_change env self args space name data bytes acted tickets sound action done
  | tsInAdd anonId nonzero data => exact add_change env self args space anonId nonzero data bytes _ acted tickets sound action done
  | tsOutQuery takesIt blocking name =>
      obtain ⟨query, getOrRead⟩ := query_command takesIt blocking name
      rw [← action] at query getOrRead
      have running : space.isActivated = true := by
        rcases active with connect | running
        · cases takesIt <;> cases blocking <;> cases connect
        · exact running
      have searched := read_searched env args space clientid name.chars acted client query getOrRead sound.stored running done
      refine searched_change env args _ bytes clientid (.str name.chars) space acted client rfl
        (query_request_waiting args takesIt blocking name clientid client action) ?_
      simp only [query, Bool.false_eq_true, if_false]
      exact searched
  | tsOutFetch takesIt blocking =>
      have fetch := fetch_command takesIt blocking
      rw [← action] at fetch
      have searched := fetch_searched env args space clientid acted client fetch done
      refine searched_change env args _ bytes clientid .null space acted client rfl
        (fetch_request_waiting args takesIt blocking clientid client action) ?_
      simp only [fetch, if_true]
      exact searched
  | tsBcastRead blocking name => cases plain
  | tsClose => exact term_change env self args bytes space acted sound.bcast done

theorem created_sound (config : SngNamespace) (single : config.tsMode ≠ .p2p) : (createElement config).Sound 0 where
  single := single
  stored := by simp [createElement]
  waiting := by simp [createElement]
  older := by simp [createElement]
  distinct := by simp [createElement]
  bcast := rfl

theorem sound_later (count : Nat) (space : TsdElement) (sound : space.Sound count) : space.Sound (count + 1) :=
  { sound with older := fun request member => Nat.lt_succ_of_lt (sound.older request member) }

theorem signalled_sound (count : Nat) (before after : TsdElement) (signalled : before.Signalled after) (sound : before.Sound count) :
    after.Sound count := by
  obtain ⟨direct, requests, active, same⟩ := signalled
  subst same
  exact { sound with }

theorem put_requests_sublist (env : Platform) (space : TsdElement) (tuple : SngTuple) :
    (if (offer env space tuple).taken then (offer env space tuple).rest.eraseP (accepts env tuple)
      else (offer env space tuple).rest).Sublist space.namedQueueRequests := by
  have rest := Waiters.serve_rest_sublist (accepts env tuple) destructive space.namedQueueRequests
  split
  · exact List.eraseP_sublist.trans rest
  · exact rest

theorem enqueue_requests (space : TsdElement) (args : HandlerArg) (query : CString) :
    (space.enqueue args query).namedQueueRequests =
      space.namedQueueRequests ++ if isBlocking args.action then [args.request query] else [] := by
  unfold TsdElement.enqueue
  split <;> simp [*, HandlerArg.request]

theorem enqueue_history (space : TsdElement) (args : HandlerArg) (query : CString) :
    (space.enqueue args query).history =
      space.history ++ if isBlocking args.action then [.waits (args.request query)] else [] := by
  unfold TsdElement.enqueue
  split <;> simp [*, HandlerArg.request]

theorem enqueue_queue (space : TsdElement) (args : HandlerArg) (query : CString) :
    (space.enqueue args query).namedQueue = space.namedQueue := by
  unfold TsdElement.enqueue
  split <;> rfl

theorem enqueue_bcast (space : TsdElement) (args : HandlerArg) (query : CString) :
    (space.enqueue args query).bcastQueueRequests = space.bcastQueueRequests := by
  unfold TsdElement.enqueue
  split <;> rfl

theorem enqueue_mode (space : TsdElement) (args : HandlerArg) (query : CString) :
    (space.enqueue args query).tsMode = space.tsMode := by
  unfold TsdElement.enqueue
  split <;> rfl

theorem change_sound (env : Platform) (args : HandlerArg) (call : Call) (bytes : Bytes) (space after : TsdElement)
    (postings : List Posting) (sound : space.Sound args.ticket) (change : Change env args call bytes space after postings) :
    after.Sound (args.ticket + 1) := by
  have later := sound_later args.ticket space sound
  cases change with
  | connected after word endpoint asked queue requests history mode bcast active plain =>
      exact ⟨by rw [mode]; exact sound.single, by rw [queue]; exact sound.stored, by rw [requests]; exact sound.waiting,
        by rw [requests]; exact later.older, by rw [requests]; exact sound.distinct, bcast.trans sound.bcast⟩
  | put tuple written =>
      have kept := put_requests_sublist env space tuple
      refine ⟨sound.single, fun other member => ?_, fun request member => sound.waiting request (kept.subset member),
        fun request member => later.older request (kept.subset member), (kept.map _).nodup sound.distinct, sound.bcast⟩
      simp only at member
      split at member
      · exact sound.stored other member
      · rcases List.mem_append.mp member with old | new
        · exact sound.stored other old
        · rw [List.mem_singleton.mp new]
          exact (written_stored call args.ticket bytes tuple written).1
  | missed query unwanted asked waiting =>
      have requests := enqueue_requests (space.record (.notFound args.ticket query space.namedQueue)) args query
      refine ⟨by rw [enqueue_mode]; exact sound.single, by rw [enqueue_queue]; exact sound.stored, ?_, ?_, ?_,
        by rw [enqueue_bcast]; exact sound.bcast⟩
      · intro request member
        rw [requests] at member
        rcases List.mem_append.mp member with old | new
        · exact sound.waiting request old
        · split at new
          · rename_i blocks
            rw [List.mem_singleton.mp new]
            exact waiting blocks
          · cases new
      · intro request member
        rw [requests] at member
        rcases List.mem_append.mp member with old | new
        · exact later.older request old
        · split at new
          · rw [List.mem_singleton.mp new]
            exact Nat.lt_succ_self _
          · cases new
      · rw [requests, List.map_append]
        split
        · refine List.nodup_append.mpr ⟨sound.distinct, by simp, fun ticket old other new => ?_⟩
          obtain ⟨request, member, same⟩ := List.mem_map.mp old
          have before := sound.older request member
          have fresh : other = args.ticket := by simpa [HandlerArg.request] using new
          omega
        · simpa [TsdElement.record] using sound.distinct
  | found query before rest tuple asked split wanted skipped =>
      refine ⟨sound.single, fun other member => sound.stored other ?_, sound.waiting, later.older, sound.distinct, sound.bcast⟩
      simp only at member
      split at member
      · rw [split]
        rcases List.mem_append.mp member with front | back
        · simp [front]
        · simp [back]
      · exact member
  | closed after asked queue requests history mode bcast inactive =>
      exact ⟨by rw [mode]; exact sound.single, by simp [queue], by simp [requests], by simp [requests], by simp [requests], bcast⟩

end Synergy
