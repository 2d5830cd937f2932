import Synergy.System
import Synergy.Lib.Outcome
import Synergy.Lib.Run

set_option autoImplicit false

namespace Synergy

-- It goes through, or stops for another reason than that something has still to come.
def NeverWaits {α : Type} (computation : Except Stop α) : Prop :=
  Outcomes.Holds (fun stop => stop ≠ .blocked) (fun _ => True) computation

theorem never_ok {α : Type} (result : α) : NeverWaits (.ok result) := trivial

theorem never_pure {α : Type} (result : α) : NeverWaits (pure result : Except Stop α) := trivial

theorem never_undefined {α : Type} : NeverWaits (.error .undefined : Except Stop α) := by
  intro same
  cases same

theorem never_aborted {α : Type} : NeverWaits (.error .aborted : Except Stop α) := by
  intro same
  cases same

theorem never_diverges {α : Type} : NeverWaits (.error .diverges : Except Stop α) := by
  intro same
  cases same

theorem never_bind {α β : Type} (one : Except Stop α) (two : α → Except Stop β) (first : NeverWaits one)
    (rest : ∀ result, NeverWaits (two result)) : NeverWaits (one >>= two) :=
  Outcomes.holds_bind _ (fun _ => True) _ one two first fun result _ => rest result

theorem never_map {α β : Type} (list : List α) (step : α → Except Stop β) (each : ∀ element, NeverWaits (step element)) :
    NeverWaits (list.mapM step) := by
  induction list with
  | nil => exact never_pure []
  | cons element later ih =>
      rw [List.mapM_cons]
      exact never_bind _ _ (each element) fun first => never_bind _ _ ih fun rest => never_pure (first :: rest)

theorem chars_never (str : CString) : NeverWaits str.chars := by
  cases str with
  | str chars => exact never_ok chars
  | null => exact never_undefined
  | freed => exact never_undefined

theorem send_clientid_never (isLocal : Bool) (ticket : Nat) (clientid : CString) : NeverWaits (sendClientid isLocal ticket clientid) :=
  never_bind _ _ (chars_never clientid) fun _ => never_pure _

theorem send_str_never (env : Platform) (isLocal : Bool) (ticket : Nat) (str : CString) (more : Bool) :
    NeverWaits (sendStr env isLocal ticket str more) :=
  never_bind _ _ (chars_never str) fun _ => never_pure _

theorem chunk_of_never (data : Bytes) (id : UInt32) (total : UInt64) : NeverWaits (chunkOf data id total) := by
  unfold chunkOf
  split
  · exact never_ok _
  · exact never_aborted

theorem send_item_never (ticket : Nat) (data : Bytes) : NeverWaits (sendItemOut ticket data) :=
  never_bind _ _ (never_map _ _ fun _ => chunk_of_never _ _ _) fun _ => never_pure _

theorem read_response_never (env : Platform) (isLocal : Bool) (ticket : Nat) (tuple : SngTuple) :
    NeverWaits (handleNamedQueueReadResponse env isLocal ticket tuple) := by
  refine never_bind _ _ (send_str_never env isLocal ticket tuple.name (!isLocal)) fun name => ?_
  split
  · exact never_bind _ _ (send_item_never ticket tuple.data) fun _ => never_pure _
  · exact never_pure _

theorem fetch_response_never (env : Platform) (isLocal : Bool) (ticket : Nat) (tuple : SngTuple) :
    NeverWaits (handleNamedQueueFetchResponse env isLocal ticket tuple) := by
  unfold handleNamedQueueFetchResponse
  dsimp only
  split
  · split
    · exact never_bind _ _ (send_item_never _ _) fun _ => never_pure _
    · exact never_pure _
  · split
    · exact never_bind _ _ (send_str_never _ _ _ _ _) fun _ => never_bind _ _ (send_item_never _ _) fun _ => never_pure _
    · exact never_bind _ _ (send_str_never _ _ _ _ _) fun _ => never_pure _

theorem tplcmp_never (env : Platform) (tuple1 tuple2 : SngTuple) : NeverWaits (tplcmp env tuple1 tuple2) := by
  unfold tplcmp
  split
  · exact never_ok _
  · refine never_bind _ _ (chars_never _) fun name1 => ?_
    dsimp only
    split
    · exact never_pure _
    · refine never_bind _ _ (chars_never _) fun name2 => ?_
      split_ifs <;> exact never_pure _

theorem find_never {α : Type} (comparator : α → Except Stop Int) (list : List α) (each : ∀ element, NeverWaits (comparator element)) :
    NeverWaits (zlistxFind comparator list) := by
  induction list with
  | nil => exact never_ok none
  | cons element later ih =>
      refine never_bind _ _ (each element) fun order => ?_
      split
      · exact never_pure _
      · exact never_bind _ _ ih fun _ => never_pure _

theorem match_reply_never (env : Platform) (tuple : SngTuple) (matched : BlockingRequest) : NeverWaits (matchReply env tuple matched) := by
  rcases match_reply_cases env tuple matched with answered | silent
  · rw [answered]
    exact never_bind _ _ (read_response_never _ _ _ _) fun _ => never_pure _
  · rw [silent]
    exact never_ok none

theorem match_loop_never (env : Platform) (tuple : SngTuple) (rounds : Nat) (state : Matching) :
    NeverWaits (matchLoop env tuple rounds state) := by
  induction rounds generalizing state with
  | zero => exact never_diverges
  | succ rounds ih =>
      have compared : ∀ request search, NeverWaits (blckcmpStr env request search) := by
        intro request search
        unfold blckcmpStr
        dsimp only
        split
        · exact never_ok 0
        · exact tplcmp_never _ _ _
      refine never_bind _ _ (find_never _ _ fun request => compared request _) fun handle => ?_
      cases handle with
      | none => exact never_pure _
      | some found =>
          dsimp only
          split
          · exact never_undefined
          · split
            · exact never_pure _
            · refine never_bind _ _ (send_clientid_never _ _ _) fun _ => never_bind _ _ (match_reply_never _ _ _) fun reply => ?_
              cases reply with
              | none => exact never_pure _
              | some frames => exact ih _

theorem match_never (env : Platform) (self : Tsd) (space : TsdElement) (tuple : SngTuple) (action : TupleCommand) :
    NeverWaits (matchBlockingRequests env self space tuple action) := by
  unfold matchBlockingRequests
  split
  · exact never_pure _
  · refine never_bind _ _ (match_loop_never _ _ _ _) fun result => ?_
    dsimp only
    split
    · exact never_pure _
    · split
      · exact never_pure _
      · split
        · refine never_bind _ _ ?_ fun _ => never_pure _
          unfold replicationToken
          dsimp only
          split
          · exact never_pure _
          · exact never_bind _ _ (chars_never _) fun _ => never_pure _
        · exact never_pure _

theorem put_never (env : Platform) (self : Tsd) (args : HandlerArg) (space : TsdElement) (name data : Bytes) :
    NeverWaits (putTuple env self args space name data) := by
  unfold putTuple
  dsimp only
  split
  · exact never_pure _
  · exact never_bind _ _ (match_never _ _ _ _ _) fun _ => never_pure _

theorem add_never (env : Platform) (self : Tsd) (args : HandlerArg) (space : TsdElement) (anonId : UInt32) (data : Bytes)
    (received : Nat) : NeverWaits (addTuple env self args space anonId data received) := by
  unfold addTuple
  dsimp only
  split
  · exact never_pure _
  · exact never_bind _ _ (match_never _ _ _ _ _) fun _ => never_pure _

theorem fetch_never (env : Platform) (args : HandlerArg) (space : TsdElement) : NeverWaits (fetchTuple env args space) := by
  refine never_bind _ _ (send_clientid_never _ _ _) fun clientid => ?_
  split
  · exact never_pure _
  · exact never_bind _ _ (fetch_response_never _ _ _ _) fun _ => never_pure _

theorem read_never (env : Platform) (args : HandlerArg) (space : TsdElement) (name : Bytes) :
    NeverWaits (readTuple env args space name) := by
  refine never_bind _ _ (send_clientid_never _ _ _) fun clientid => ?_
  split
  · exact never_pure _
  · refine never_bind _ _ (find_never _ _ fun tuple => tplcmp_never _ _ _) fun handle => ?_
    dsimp only
    split
    · exact never_pure _
    · refine never_bind _ _ (tplcmp_never _ _ _) fun order => ?_
      split
      · exact never_aborted
      · exact never_bind _ _ (read_response_never _ _ _ _) fun _ => never_pure _

theorem bcast_never (env : Platform) (args : HandlerArg) (space : TsdElement) (name : Bytes) :
    NeverWaits (bcastReadTuple env args space name) := by
  refine never_bind _ _ (send_clientid_never _ _ _) fun clientid => ?_
  split
  · exact never_pure _
  · refine never_bind _ _ (find_never _ _ fun tuple => tplcmp_never _ _ _) fun handle => ?_
    dsimp only
    split
    · exact never_pure _
    · rw [bcast_response_same]
      exact never_bind _ _ (read_response_never _ _ _ _) fun _ => never_pure _

theorem connect_never (env : Platform) (self : Tsd) (args : HandlerArg) (space : TsdElement) (mode : UInt32) :
    NeverWaits (connectMode env self args space mode) := by
  have copied : ∀ direct endpoint, NeverWaits (copyEndpoint direct endpoint) := by
    intro direct endpoint
    unfold copyEndpoint
    split
    · exact never_ok _
    · exact never_undefined
  have terminated : ∀ direct, NeverWaits (endpointStr direct) := by
    intro direct
    unfold endpointStr
    split
    · exact never_ok _
    · exact never_undefined
  refine never_bind _ _ (send_clientid_never _ _ _) fun clientid => ?_
  dsimp only
  split
  · split
    · exact never_bind _ _ (copied _ _) fun _ => never_pure _
    · split <;> exact never_pure _
  · split
    · exact never_pure _
    · split
      · exact never_bind _ _ (terminated _) fun _ => never_bind _ _ (send_str_never _ _ _ _ _) fun _ => never_pure _
      · exact never_pure _
  · split <;> exact never_pure _

theorem term_never (env : Platform) (self : Tsd) (space : TsdElement) : NeverWaits (termSpace env self space) := by
  have told : ∀ request, NeverWaits (sendTerm env request) := fun request =>
    never_bind _ _ (send_clientid_never _ _ _) fun _ => never_pure _
  refine never_bind _ _ ?_ fun _ => never_pure _
  refine never_bind _ _ (never_map _ _ told) fun _ => never_bind _ _ (never_map _ _ told) fun _ => ?_
  dsimp only
  split
  · exact never_diverges
  · exact never_pure _

-- ts_in.
def Call.writes : Call → Bool
  | .tsInPut _ _ => true
  | .tsInAdd _ _ _ => true
  | _ => false

theorem recv_name_never {α : Type} (sender receiver : HostOrder) (str : Name) (more rcvmore : Bool) (later : List Frame)
    (chunks : List Chunk) (two : Bytes × Input → Except Stop α) (rest : NeverWaits (two (str.chars, ⟨later, more, chunks⟩))) :
    NeverWaits (recvStr receiver ⟨sendStrFrames sender str more ++ later, rcvmore, chunks⟩ >>= two) := by
  have first := recv_uint32_frame sender receiver (UInt32.ofNat (str.chars.length + 1)) true rcvmore
    (⟨str.chars ++ [0], more⟩ :: later) chunks
  simp only [sendUint32Frame] at first
  simp only [recvStr, sendStrFrames, p2pmSendStr, List.cons_append, List.nil_append, first, zmqRecv, bind, Except.bind]
  rcases recv_send_str str.chars str.clean with arrives | lost
  · simp only [arrives, pure, Except.pure]
    exact rest
  · simp only [lost]
    exact never_undefined

theorem returns_never (computation : Except Stop Acted) (later : List Frame) (chunks : List Chunk) (acts : NeverWaits computation) :
    NeverWaits (computation >>= fun acted => safeReturn acted ⟨later, false, chunks⟩) :=
  never_bind _ _ acts fun acted => by
    rw [safe_return_end]
    exact never_ok _

theorem put_dispatch_never (env : Platform) (self : Tsd) (args : HandlerArg) (space : TsdElement) (ts : Ts) (name : Name)
    (data : Payload) (later : List Frame) (chunks : List Chunk) (action : args.action = .tsPut) (place : args.isLocal = false)
    (side : ts.isLocal = false) :
    NeverWaits (namedQueueWriteHandler env self args space ⟨(Call.tsInPut name data).arguments ts ++ later, true, chunks⟩) := by
  rw [namedQueueWriteHandler, if_pos action]
  simp only [Call.arguments, List.append_assoc]
  refine recv_name_never ts.host env.host name _ true _ chunks _ ?_
  simp only [place, side, tsInData, Bool.false_eq_true, if_false, List.cons_append, List.nil_append, Bool.not_false, recv_uint64_frame,
    payload_len_nonzero data, recv_data_frame data.bytes _ (payload_len data), bind, Except.bind]
  exact returns_never _ later chunks (put_never env self args space name.chars data.bytes)

theorem add_dispatch_never (env : Platform) (self : Tsd) (args : HandlerArg) (space : TsdElement) (ts : Ts) (anonId : UInt32)
    (nonzero : anonId ≠ 0) (data : Payload) (later : List Frame) (chunks : List Chunk) (action : args.action = .tsAdd)
    (place : args.isLocal = false) (side : ts.isLocal = false) :
    NeverWaits (namedQueueWriteHandler env self args space
      ⟨(Call.tsInAdd anonId nonzero data).arguments ts ++ later, true, chunks⟩) := by
  have notPut : ¬ args.action = .tsPut := by simp [action]
  rw [namedQueueWriteHandler, if_neg notPut]
  simp only [Call.arguments, place, side, tsInData, Bool.false_eq_true, if_false, List.cons_append, List.nil_append, Bool.not_false,
    recv_uint32_frame, recv_uint64_frame, nonzero, recv_data_frame data.bytes _ (payload_len data), bind, Except.bind]
  exact returns_never _ later chunks (add_never env self args space anonId data.bytes data.bytes.length)

theorem dispatch_never (env : Platform) (self : Tsd) (args : HandlerArg) (space : TsdElement) (ts : Ts) (call : Call)
    (later : List Frame) (chunks : List Chunk) (action : args.action = call.command) (place : args.isLocal = ts.isLocal)
    (whole : ¬ (ts.isLocal = true ∧ call.writes = true)) :
    NeverWaits (dispatch env self args space ⟨call.arguments ts ++ later, !call.commandIsLast, chunks⟩) := by
  have remote : call.writes = true → ts.isLocal = false := fun writes => by
    cases side : ts.isLocal with
    | true => exact absurd ⟨side, writes⟩ whole
    | false => rfl
  cases call with
  | tsOpen mode =>
      simp only [dispatch, action, Call.command, tsConnectHandler, Call.arguments, List.cons_append, List.nil_append, recv_uint32_frame,
        bind, Except.bind]
      exact returns_never _ later chunks (connect_never env self args space mode)
  | tsInPut name data =>
      simp only [dispatch, action, Call.command]
      exact put_dispatch_never env self args space ts name data later chunks action (place.trans (remote rfl)) (remote rfl)
  | tsInAdd anonId nonzero data =>
      simp only [dispatch, action, Call.command]
      exact add_dispatch_never env self args space ts anonId nonzero data later chunks action (place.trans (remote rfl)) (remote rfl)
  | tsOutQuery takesIt blocking name =>
      have read : NeverWaits (namedQueueReadHandler env args space
          ⟨sendStrFrames ts.host name false ++ later, true, chunks⟩) :=
        recv_name_never ts.host env.host name false true later chunks _
          (returns_never _ later chunks (read_never env args space name.chars))
      cases takesIt <;> cases blocking <;> simp only [dispatch, action, Call.command] <;> exact read
  | tsOutFetch takesIt blocking =>
      have fetch : NeverWaits (namedQueueFetchHandler env args space ⟨later, false, chunks⟩) :=
        returns_never _ later chunks (fetch_never env args space)
      cases takesIt <;> cases blocking <;> simp only [dispatch, action, Call.command] <;> exact fetch
  | tsBcastRead blocking name =>
      have read : NeverWaits (bcastQueueReadHandler env args space
          ⟨sendStrFrames ts.host name false ++ later, true, chunks⟩) :=
        recv_name_never ts.host env.host name false true later chunks _
          (returns_never _ later chunks (bcast_never env args space name.chars))
      cases blocking <;> simp only [dispatch, action, Call.command] <;> exact read
  | tsClose =>
      simp only [dispatch, action, Call.command]
      exact never_bind _ _ (term_never env self space) fun _ => never_pure _

theorem handler_waits (env : Platform) (self : Tsd) (ticket : Nat) (arrival : Arrival)
    (waits : handler env self arrival.ts.isLocal ticket arrival.input = .error .blocked) :
    arrival.ts.isLocal = true ∧ arrival.call.writes = true ∧
      ∃ space, self.spaceTable arrival.ts.tsname.chars = some space ∧ space.isActivated = true := by
  have input : arrival.input = ⟨⟨arrival.client.chars, true⟩ :: (arrival.call.frames arrival.ts ++ []), false, arrival.chunks⟩ := by
    rw [Arrival.input, List.append_nil]
  rw [input] at waits
  rcases handler_reaches env self arrival.ts arrival.client ticket arrival.call [] false arrival.chunks with
    ⟨refused, _⟩ | ⟨space, found, active, reached⟩
  · rw [refused] at waits
    cases waits
  · rw [reached] at waits
    by_cases whole : arrival.ts.isLocal = true ∧ arrival.call.writes = true
    · refine ⟨whole.1, whole.2, space, found, active.resolve_left fun connect => ?_⟩
      cases same : arrival.call <;> simp [same, Call.writes, Call.command] at whole connect
    · have never := never_bind _ (fun result : Acted × Input =>
          (.ok ⟨{ self with spaceTable := Function.update self.spaceTable arrival.ts.tsname.chars (some result.1.space) },
            result.1.sent, result.2⟩ : Except Stop Handled))
        (dispatch_never env self ⟨.str arrival.client.chars, arrival.call.command, arrival.ts.isLocal, ticket⟩ space arrival.ts
          arrival.call [] arrival.chunks rfl rfl whole) fun _ => never_ok _
      exact absurd rfl (Outcomes.holds_stop (fun stop => stop ≠ Stop.blocked) _ _ _ never waits)

variable {ι : Type} [DecidableEq ι]

omit [DecidableEq ι] in
theorem attempt_handler (env : Platform) (parties : Parties ι) (system next : System ι) (request : Receiving ι)
    (taken : system.attempt env parties request = some next) :
    (∃ handled, handler env system.daemon.self (parties.isLocal request.handle) system.daemon.clients.length
        (request.arrival parties).input = .ok handled ∧ next = system.handled parties request handled) ∨
      handler env system.daemon.self (parties.isLocal request.handle) system.daemon.clients.length
        (request.arrival parties).input = .error .blocked ∧ next = { system with receiving := some request } := by
  cases done : handler env system.daemon.self (parties.isLocal request.handle) system.daemon.clients.length
      (request.arrival parties).input with
  | ok handled =>
      simp only [System.attempt, done, Option.some.injEq] at taken
      exact Or.inl ⟨handled, rfl, taken.symm⟩
  | error stop =>
      cases stop with
      | blocked =>
          simp only [System.attempt, done, Option.some.injEq] at taken
          exact Or.inr ⟨rfl, taken.symm⟩
      | undefined => simp [System.attempt, done] at taken
      | aborted => simp [System.attempt, done] at taken
      | diverges => simp [System.attempt, done] at taken
      | outside slot => simp [System.attempt, done] at taken

omit [DecidableEq ι] in
-- What handler makes of a message, with the chunks it has so far.
theorem attempt_cases (env : Platform) (parties : Parties ι) (system next : System ι) (request : Receiving ι)
    (taken : system.attempt env parties request = some next) :
    (∃ handled, Served env system.daemon.self (parties.ts request.handle) (parties.identity request.handle)
        system.daemon.clients.length request.call [] request.chunks handled ∧ next = system.handled parties request handled) ∨
      parties.isLocal request.handle = true ∧ request.call.writes = true ∧
        (∃ space, system.daemon.self.spaceTable parties.spaceName.chars = some space ∧ space.isActivated = true) ∧
        next = { system with receiving := some request } := by
  cases attempt_handler env parties system next request taken with
  | inl here =>
      obtain ⟨handled, done, same⟩ := here
      refine Or.inl ⟨handled, ?_, same⟩
      apply handler_call env system.daemon.self (parties.ts request.handle) (parties.identity request.handle)
        system.daemon.clients.length request.call [] false request.chunks handled
      simpa only [Arrival.input, Receiving.arrival, Parties.ts, List.append_nil] using done
  | inr waits =>
      obtain ⟨blocked, same⟩ := waits
      obtain ⟨side, writes, active⟩ := handler_waits env system.daemon.self system.daemon.clients.length (request.arrival parties) blocked
      exact Or.inr ⟨side, writes, active, same⟩

-- What its caller has still to write, and what is in the pipe of it.
def Stage.unwritten : Stage → List Chunk
  | .passing chunks => chunks
  | _ => []

def Session.unwritten (session : Session) (number : Nat) : List Chunk :=
  if number + 1 = session.made then session.stage.unwritten else []

def inPipe (slot : Option (Passed ι)) (i : ι) (number : Nat) : List Chunk :=
  match slot with
  | some passed => if passed.handle = i ∧ passed.number = number then [passed.chunk] else []
  | none => []

-- When handler takes a ts_in whose payload it is going to read, the pipe is empty or holds a chunk of that call, and while it
-- reads it no other call writes.
def Motion.InTurn (parties : Parties ι) (system : System ι) : Motion ι → Prop
  | .takes i => ∀ number call later space passed, (system.sessions i).up = (number, call) :: later → parties.isLocal i = true →
      call.writes = true → system.daemon.self.spaceTable parties.spaceName.chars = some space → space.isActivated = true →
      system.slot = some passed → passed.handle = i ∧ passed.number = number
  | .writes i => ∀ request, system.receiving = some request → request.handle = i ∧ request.number + 1 = (system.sessions i).made
  | _ => True

-- The message that handler is at, with what it has read of its payload.
structure Receiving.Fits (parties : Parties ι) (slot : Option (Passed ι)) (request : Receiving ι) (session : Session) : Prop where
  here : parties.isLocal request.handle = true
  writes : request.call.writes = true
  begun : request.number < session.made
  earlier : ∀ message ∈ session.up, request.number < message.1
  passes : request.call.passes (parties.ts request.handle) =
    .ok (request.chunks ++ (inPipe slot request.handle request.number ++ session.unwritten request.number))
  own : ∀ passed, slot = some passed → passed.handle = request.handle ∧ passed.number = request.number

-- Of the payloads whose messages handler has not taken yet nothing is lost.
structure Session.Matched (parties : Parties ι) (slot : Option (Passed ι)) (i : ι) (session : Session) : Prop where
  fresh : session.made = 0 → session.stage = .idle
  numbered : session.up.Pairwise fun first second => first.1 < second.1
  made : ∀ message ∈ session.up, message.1 < session.made
  passed : ∀ passed, slot = some passed → passed.handle = i → passed.number < session.made
  waiting : ∀ number call, (number, call) ∈ session.up →
    call.passes (parties.ts i) = .ok (inPipe slot i number ++ session.unwritten number)
  plain : ∀ message ∈ session.up, message.2.plain = true

structure System.Matched (parties : Parties ι) (system : System ι) : Prop where
  sessions : ∀ i, (system.sessions i).Matched parties system.slot i
  current : ∀ request, system.receiving = some request → request.Fits parties system.slot (system.sessions request.handle)

theorem start_matched (parties : Parties ι) (self : Tsd) : (System.start self : System ι).Matched parties where
  sessions := fun _ => ⟨fun _ => rfl, List.Pairwise.nil, (fun _ member => by cases member), (fun _ full => by cases full),
    (fun _ _ member => by cases member), fun _ member => by cases member⟩
  current := fun _ reading => by cases reading

theorem update_holds (good : ι → Session → Prop) (sessions : ι → Session) (i : ι) (session : Session) (this : good i session)
    (others : ∀ j, j ≠ i → good j (sessions j)) (j : ι) : good j (Function.update sessions i session j) := by
  by_cases here : j = i
  · subst here
    rw [Function.update_self]
    exact this
  · rw [Function.update_of_ne here]
    exact others j here

theorem stage_unwritten (ts : Ts) (call : Call) (chunks : List Chunk) (passes : call.passes ts = .ok chunks) :
    (call.stage chunks).unwritten = chunks := by
  cases call with
  | tsInPut name data => cases chunks <;> rfl
  | tsInAdd anonId nonzero data => cases chunks <;> rfl
  | tsOpen mode => cases passes; rfl
  | tsOutQuery takesIt blocking name => cases passes; rfl
  | tsOutFetch takesIt blocking => cases passes; rfl
  | tsBcastRead blocking name => cases passes; rfl
  | tsClose => cases passes; rfl

theorem can_call_plain (session : Session) (call : Call) (can : session.canCall call = true) : call.plain = true := by
  cases call with
  | tsBcastRead blocking name => cases stage : session.stage <;> simp [Session.canCall, stage] at can
  | _ => rfl

theorem call_matched (parties : Parties ι) (system next : System ι) (i : ι) (call : Call) (matched : system.Matched parties)
    (taken : system.call parties i call = some next) : next.Matched parties := by
  obtain ⟨chunks, can, passes, same⟩ := call_cases parties system next i call taken
  have idle := can_call_idle (system.sessions i) call can
  have before := matched.sessions i
  -- a call that is not the last one has nothing left to write
  have kept : ∀ number, number < (system.sessions i).made →
      ({ system.sessions i with
        stage := call.stage chunks
        made := (system.sessions i).made + 1
        up := (system.sessions i).up ++ [((system.sessions i).made, call)] } : Session).unwritten number =
      (system.sessions i).unwritten number := by
    intro number earlier
    have past : ¬ number + 1 = (system.sessions i).made + 1 := by omega
    rw [Session.unwritten, Session.unwritten, if_neg past, idle]
    exact (ite_self []).symm
  subst same
  refine ⟨update_holds _ _ i _ ?_ fun j _ => matched.sessions j, fun request reading => ?_⟩
  · refine ⟨fun zero => absurd zero (Nat.succ_ne_zero _), ?_, fun message member => ?_,
      fun passed full mine => Nat.lt_succ_of_lt (before.passed passed full mine), fun number other member => ?_, fun message member => ?_⟩
    · refine List.pairwise_append.mpr ⟨before.numbered, List.pairwise_singleton _ _, fun first early second last => ?_⟩
      rw [List.mem_singleton.mp last]
      exact before.made first early
    · rcases List.mem_append.mp member with early | last
      · exact Nat.lt_succ_of_lt (before.made message early)
      · rw [List.mem_singleton.mp last]
        exact Nat.lt_succ_self _
    · rcases List.mem_append.mp member with early | last
      · rw [kept number (before.made _ early)]
        exact before.waiting number other early
      · cases List.mem_singleton.mp last
        have none : inPipe system.slot i (system.sessions i).made = [] := by
          cases full : system.slot with
          | none => rfl
          | some passed => exact if_neg fun both => absurd both.2 (Nat.ne_of_lt (before.passed passed full both.1))
        have rest := stage_unwritten _ call chunks passes
        rw [Session.unwritten, if_pos rfl, rest]
        exact (congrArg (fun first => call.passes (parties.ts i) = .ok (first ++ chunks)) none).mpr passes
    · rcases List.mem_append.mp member with early | last
      · exact before.plain message early
      · rw [List.mem_singleton.mp last]
        exact can_call_plain _ call can
  · have fits := matched.current request reading
    refine update_holds (fun j session => j = request.handle → request.Fits parties system.slot session) _ i _ ?_
      (fun j _ mine => mine ▸ fits) request.handle rfl
    intro mine
    subst mine
    refine ⟨fits.here, fits.writes, Nat.lt_succ_of_lt fits.begun, fun message member => ?_, ?_, fits.own⟩
    · rcases List.mem_append.mp member with early | last
      · exact fits.earlier message early
      · rw [List.mem_singleton.mp last]
        exact fits.begun
    · rw [kept request.number fits.begun]
      exact fits.passes

theorem write_matched (parties : Parties ι) (system next : System ι) (i : ι) (matched : system.Matched parties)
    (turn : (Motion.writes i).InTurn parties system) (taken : system.write i = some next) : next.Matched parties := by
  obtain ⟨chunk, later, stage, free, same⟩ := write_cases system next i taken
  have before := matched.sessions i
  have begun : (system.sessions i).made ≠ 0 := by
    intro zero
    rw [before.fresh zero] at stage
    cases stage
  have left : (if later = [] then Stage.idle else .passing later).unwritten = later := by
    split
    · rename_i none
      rw [none]
      rfl
    · rfl
  -- the chunk goes from the caller into the pipe
  have moves : ∀ number, inPipe (some ⟨i, (system.sessions i).made - 1, chunk⟩) i number ++
      ({ system.sessions i with stage := if later = [] then .idle else .passing later } : Session).unwritten number =
        inPipe system.slot i number ++ (system.sessions i).unwritten number := by
    intro number
    rw [free, inPipe, inPipe, Session.unwritten, Session.unwritten, stage, left]
    by_cases last : number + 1 = (system.sessions i).made
    · have now : (system.sessions i).made - 1 = number := by omega
      simp only [last, now, if_true, and_self, Stage.unwritten, List.nil_append, List.singleton_append]
    · have other : ¬ (system.sessions i).made - 1 = number := by omega
      simp only [last, other, if_false, and_false, List.nil_append]
  subst same
  refine ⟨update_holds _ _ i _ ?_ fun j other => ?_, fun request reading => ?_⟩
  · refine ⟨fun zero => absurd zero begun, before.numbered, before.made, fun passed full _ => ?_, fun number call member => ?_, ?_⟩
    · cases full
      exact Nat.sub_one_lt begun
    · exact (before.waiting number call member).trans (congrArg Except.ok (moves number).symm)
    · exact before.plain
  · have apart : ∀ number, inPipe (some ⟨i, (system.sessions i).made - 1, chunk⟩) j number = inPipe system.slot j number := by
      intro number
      rw [free, inPipe, inPipe, if_neg fun both => other both.1.symm]
    have old := matched.sessions j
    refine ⟨old.fresh, old.numbered, old.made, fun passed full mine => ?_, fun number call member => ?_, old.plain⟩
    · cases full
      exact absurd mine.symm other
    · exact (old.waiting number call member).trans
        (congrArg (fun front => Except.ok (front ++ (system.sessions j).unwritten number)) (apart number).symm)
  · have fits := matched.current request reading
    obtain ⟨mine, last⟩ := turn request reading
    subst mine
    have now : request.number = (system.sessions request.handle).made - 1 := by omega
    refine update_holds (fun j session => j = request.handle → request.Fits parties _ session) _ request.handle _ ?_
      (fun j other mine => absurd mine other) request.handle rfl
    refine fun _ => ⟨fits.here, fits.writes, fits.begun, fits.earlier, ?_, fun passed full => ?_⟩
    · exact fits.passes.trans (congrArg (fun rest => Except.ok (request.chunks ++ rest)) (moves request.number).symm)
    · cases full
      exact ⟨rfl, now.symm⟩

theorem hear_matched (parties : Parties ι) (system next : System ι) (i : ι) (matched : system.Matched parties)
    (taken : system.hear parties i = some next) : next.Matched parties := by
  obtain ⟨call, first, later, out, input, stage, _, _, same⟩ := hear_cases parties system next i taken
  have before := matched.sessions i
  have nothing : (call.stageAfter (system.sessions i).stage out).unwritten = (system.sessions i).stage.unwritten := by
    rw [stage]
    cases out with
    | none => rfl
    | some out =>
        cases call with
        | tsOpen mode =>
            rw [Call.stageAfter]
            split <;> rfl
        | _ => rfl
  have kept : ∀ (down : List Sent) number,
      ({ system.sessions i with stage := call.stageAfter (system.sessions i).stage out, down := down } : Session).unwritten number =
        (system.sessions i).unwritten number := by
    intro down number
    rw [Session.unwritten, Session.unwritten, nothing]
  subst same
  refine ⟨update_holds _ _ i _ ?_ fun j _ => matched.sessions j, fun request reading => ?_⟩
  · refine ⟨fun zero => ?_, before.numbered, before.made, before.passed, fun number other member => ?_, before.plain⟩
    · rw [before.fresh zero] at stage
      cases stage
    · rw [kept]
      exact before.waiting number other member
  · have fits := matched.current request reading
    refine update_holds (fun j session => j = request.handle → request.Fits parties system.slot session) _ i _ ?_
      (fun j _ mine => mine ▸ fits) request.handle rfl
    intro mine
    subst mine
    refine ⟨fits.here, fits.writes, fits.begun, fits.earlier, ?_, fits.own⟩
    rw [kept]
    exact fits.passes

theorem handled_matched (parties : Parties ι) (system : System ι) (request : Receiving ι) (handled : Handled)
    (sessions : ∀ i, (system.sessions i).Matched parties system.slot i) : (system.handled parties request handled).Matched parties where
  sessions := fun i => ⟨(sessions i).fresh, (sessions i).numbered, (sessions i).made, (sessions i).passed, (sessions i).waiting,
    (sessions i).plain⟩
  current := fun _ reading => by cases reading

theorem take_matched (env : Platform) (parties : Parties ι) (system next : System ι) (i : ι) (matched : system.Matched parties)
    (turn : (Motion.takes i).InTurn parties system) (taken : system.take env parties i = some next) : next.Matched parties := by
  obtain ⟨number, call, later, _, up, attempted⟩ := take_cases env parties system next i taken
  have before := matched.sessions i
  have numbered := before.numbered
  have first : (number, call) ∈ (system.sessions i).up := by simp [up]
  have others : ∀ message ∈ later, message ∈ (system.sessions i).up := fun message member => by simp [up, member]
  rw [up, List.pairwise_cons] at numbered
  have rest : ({ system.sessions i with up := later } : Session).Matched parties system.slot i :=
    ⟨before.fresh, numbered.2, fun message member => before.made message (others message member), before.passed,
      (fun other call member => before.waiting other call (others _ member)),
        fun message member => before.plain message (others message member)⟩
  have sessions := update_holds (fun j session => session.Matched parties system.slot j) system.sessions i _ rest
    fun j _ => matched.sessions j
  rcases attempt_cases env parties _ next _ attempted with ⟨handled, _, same⟩ | ⟨side, writes, ⟨space, found, active⟩, same⟩
  · subst same
    exact handled_matched parties _ _ handled sessions
  · subst same
    refine ⟨sessions, fun request reading => ?_⟩
    cases reading
    have own : ∀ passed, system.slot = some passed → passed.handle = i ∧ passed.number = number := fun passed full =>
      turn number call later space passed up side writes found active full
    simp only [System.setSession, Function.update_self]
    exact ⟨side, writes, before.made _ first, numbered.1, before.waiting number call first, own⟩

theorem read_matched (env : Platform) (parties : Parties ι) (system next : System ι) (matched : system.Matched parties)
    (taken : system.read env parties = some next) : next.Matched parties := by
  obtain ⟨request, passed, reading, full, attempted⟩ := read_cases env parties system next taken
  have fits := matched.current request reading
  obtain ⟨mine, now⟩ := fits.own passed full
  -- the chunk is not one of a message that is still to be taken
  have sessions : ∀ i, (system.sessions i).Matched parties none i := by
    intro i
    have before := matched.sessions i
    refine ⟨before.fresh, before.numbered, before.made, (fun _ full => by cases full), fun number call member => ?_, before.plain⟩
    have other : ¬ (passed.handle = i ∧ passed.number = number) := by
      rintro ⟨here, same⟩
      have later := fits.earlier (number, call) (by rw [← mine, here]; exact member)
      exact Nat.lt_irrefl _ (lt_of_lt_of_eq later (same.symm.trans now))
    have passes := before.waiting number call member
    rw [full, inPipe, if_neg other] at passes
    exact passes
  rcases attempt_cases env parties _ next _ attempted with ⟨handled, _, same⟩ | ⟨_, _, _, same⟩
  · subst same
    exact handled_matched parties _ _ handled sessions
  · subst same
    refine ⟨sessions, fun other reading => ?_⟩
    cases reading
    have passes := fits.passes
    rw [full, inPipe, if_pos ⟨mine, now⟩, ← List.append_assoc] at passes
    exact ⟨fits.here, fits.writes, fits.begun, fits.earlier, passes, fun _ full => by cases full⟩

theorem step_matched (env : Platform) (parties : Parties ι) (system next : System ι) (motion : Motion ι)
    (matched : system.Matched parties) (turn : motion.InTurn parties system) (taken : system.step env parties motion = some next) :
    next.Matched parties := by
  cases motion with
  | calls i call => exact call_matched parties system next i call matched taken
  | writes i => exact write_matched parties system next i matched turn taken
  | takes i => exact take_matched env parties system next i matched turn taken
  | reads => exact read_matched env parties system next matched taken
  | hears i => exact hear_matched parties system next i matched taken

theorem recv_item_more (chunks rest more : List Chunk) (data : Bytes) (done : recvItem chunks = .ok (data, rest)) :
    recvItem (chunks ++ more) = .ok (data, rest ++ more) := by
  obtain ⟨used, split, _, frame, _⟩ := recv_item_frame data chunks rest done
  rw [split, List.append_assoc]
  exact frame (rest ++ more)

-- The payload a ts_in is called with.
def Call.bytes : Call → Bytes
  | .tsInPut _ data => data.bytes
  | .tsInAdd _ _ data => data.bytes
  | _ => []

theorem item_own (data : Payload) (chunks later rest : List Chunk) (bytes : Bytes) (sent : sendItem data.bytes = .ok (chunks ++ later))
    (received : recvItem chunks = .ok (bytes, rest)) : bytes = data.bytes := by
  obtain ⟨all, sends, receives⟩ := recv_send_item data.bytes data.nonempty data.bounded
  cases sends.symm.trans sent
  have more := recv_item_more chunks rest later bytes received
  have same := more.symm.trans receives
  simp only [Except.ok.injEq, Prod.mk.injEq] at same
  exact same.1

theorem payload_own (ts : Ts) (call : Call) (chunks later rest : List Chunk) (bytes : Bytes) (writes : call.writes = true)
    (passes : ts.isLocal = true → call.passes ts = .ok (chunks ++ later)) (received : call.payload ts.isLocal chunks = .ok (bytes, rest)) :
    bytes = call.bytes := by
  cases side : ts.isLocal with
  | false =>
      rw [side] at received
      cases call with
      | tsInPut name data => cases received; rfl
      | tsInAdd anonId nonzero data => cases received; rfl
      | _ => cases writes
  | true =>
      have sent := passes side
      rw [side] at received
      cases call with
      | tsInPut name data =>
          simp only [Call.passes, side, if_true] at sent
          simp only [Call.payload, if_true] at received
          exact item_own data chunks later rest bytes sent received
      | tsInAdd anonId nonzero data =>
          simp only [Call.passes, side, if_true] at sent
          simp only [Call.payload, if_true] at received
          exact item_own data chunks later rest bytes sent received
      | _ => cases writes

-- The tuple is the one that the call of its ticket has written, name and payload.
def Written (taken : List (Intake ι)) (tuple : SngTuple) : Prop :=
  ∃ intake, taken[tuple.origin]? = some intake ∧ intake.call.written tuple.origin intake.call.bytes = some tuple

structure TsdElement.Owned (taken : List (Intake ι)) (space : TsdElement) : Prop where
  sound : space.Sound taken.length
  mode : space.tsMode = .master
  stored : ∀ tuple ∈ space.namedQueue, Written taken tuple
  delivered : ∀ ticket command tuple, Event.replied ticket command tuple ∈ space.history → Written taken tuple

structure System.Owned (parties : Parties ι) (system : System ι) : Prop where
  tickets : system.taken.length = system.daemon.clients.length
  space : ∃ space, system.daemon.self.spaceTable parties.spaceName.chars = some space ∧ space.Owned system.taken

omit [DecidableEq ι] in
theorem written_later (taken more : List (Intake ι)) (tuple : SngTuple) (written : Written taken tuple) :
    Written (taken ++ more) tuple := by
  obtain ⟨intake, there, same⟩ := written
  exact ⟨intake, List.getElem?_append_left (List.getElem?_eq_some_iff.mp there).1 ▸ there, same⟩

omit [DecidableEq ι] in
theorem written_now (taken : List (Intake ι)) (intake : Intake ι) (bytes : Bytes) (tuple : SngTuple)
    (own : intake.call.writes = true → bytes = intake.call.bytes) (written : intake.call.written taken.length bytes = some tuple) :
    Written (taken ++ [intake]) tuple := by
  obtain ⟨_, origin, _⟩ := written_stored intake.call taken.length bytes tuple written
  have writes : intake.call.writes = true := by
    cases same : intake.call <;> simp [same, Call.written, Call.writes] at written ⊢
  refine ⟨intake, ?_, ?_⟩
  · rw [origin, List.getElem?_concat_length]
  · rw [origin, ← own writes]
    exact written

omit [DecidableEq ι] in
theorem change_owned (env : Platform) (args : HandlerArg) (bytes : Bytes) (space after : TsdElement)
    (postings : List Posting) (taken : List (Intake ι)) (intake : Intake ι) (ticket : args.ticket = taken.length)
    (own : intake.call.writes = true → bytes = intake.call.bytes) (owned : space.Owned taken)
    (change : Change env args intake.call bytes space after postings) : after.Owned (taken ++ [intake]) := by
  have stored := fun tuple member => written_later taken [intake] tuple (owned.stored tuple member)
  have delivered := fun ticket command tuple member => written_later taken [intake] tuple (owned.delivered ticket command tuple member)
  have sound := change_sound env args intake.call bytes space after postings (ticket ▸ owned.sound) change
  rw [ticket] at sound
  have count : after.Sound (taken ++ [intake]).length := by
    simpa only [List.length_append, List.length_singleton] using sound
  cases change with
  | connected after word endpoint asked queue requests history mode bcast active plain =>
      exact ⟨count, mode.trans owned.mode, queue ▸ stored, history ▸ delivered⟩
  | put tuple written =>
      have new := written_now taken intake bytes tuple own (ticket ▸ written)
      refine ⟨count, owned.mode, fun other member => ?_, fun answered command other member => ?_⟩
      · simp only at member
        split at member
        · exact stored other member
        · rcases List.mem_append.mp member with old | last
          · exact stored other old
          · rw [List.mem_singleton.mp last]
            exact new
      · rcases List.mem_append.mp member with old | last
        · rcases List.mem_append.mp old with old | accepted
          · exact delivered answered command other old
          · cases List.mem_singleton.mp accepted
        · obtain ⟨request, _, same⟩ := List.mem_map.mp last
          cases same
          exact new
  | missed query unwanted asked waiting =>
      refine ⟨count, (enqueue_mode _ _ _).trans owned.mode, ?_, fun answered command tuple member => ?_⟩
      · rw [enqueue_queue]
        exact stored
      · rw [enqueue_history] at member
        rcases List.mem_append.mp member with old | last
        · rcases List.mem_append.mp old with old | searched
          · exact delivered answered command tuple old
          · cases List.mem_singleton.mp searched
        · split at last
          · cases List.mem_singleton.mp last
          · cases last
  | found query before rest tuple asked split wanted skipped =>
      have here := stored tuple (by simp [split])
      refine ⟨count, owned.mode, fun other member => stored other ?_, fun answered command other member => ?_⟩
      · simp only at member
        split at member
        · rw [split]
          rcases List.mem_append.mp member with front | back
          · simp [front]
          · simp [back]
        · exact member
      · rcases List.mem_append.mp member with old | last
        · exact delivered answered command other old
        · cases List.mem_singleton.mp last
          exact here
  | closed after asked queue requests history mode bcast inactive =>
      refine ⟨count, mode.trans owned.mode, by simp [queue], fun answered command tuple member => ?_⟩
      rw [history] at member
      rcases List.mem_append.mp member with old | discarded
      · rcases List.mem_append.mp old with old | gone
        · exact delivered answered command tuple old
        · obtain ⟨_, _, same⟩ := List.mem_map.mp gone
          cases same
      · obtain ⟨_, _, same⟩ := List.mem_map.mp discarded
        cases same

omit [DecidableEq ι] in
theorem owned_later (taken : List (Intake ι)) (intake : Intake ι) (space : TsdElement) (owned : space.Owned taken) :
    space.Owned (taken ++ [intake]) where
  sound := by
    have later := sound_later taken.length space owned.sound
    simpa only [List.length_append, List.length_singleton] using later
  mode := owned.mode
  stored := fun tuple member => written_later taken [intake] tuple (owned.stored tuple member)
  delivered := fun ticket command tuple member => written_later taken [intake] tuple (owned.delivered ticket command tuple member)

omit [DecidableEq ι] in
theorem handled_owned (env : Platform) (parties : Parties ι) (system : System ι) (request : Receiving ι) (handled : Handled)
    (owned : system.Owned parties) (plain : request.call.plain = true)
    (own : request.call.writes = true → ∀ bytes rest,
      request.call.payload (parties.isLocal request.handle) request.chunks = .ok (bytes, rest) → bytes = request.call.bytes)
    (served : Served env system.daemon.self (parties.ts request.handle) (parties.identity request.handle)
      system.daemon.clients.length request.call [] request.chunks handled) :
    (system.handled parties request handled).Owned parties := by
  obtain ⟨space, found, fine⟩ := owned.space
  refine ⟨by simp [System.handled, owned.tickets], ?_⟩
  cases served with
  | refused closed => exact ⟨space, found, owned_later _ _ space fine⟩
  | acted other bytes rest acted there active payload done =>
      cases Option.some.inj (there.symm.trans found)
      have sound := owned.tickets ▸ fine.sound
      obtain ⟨postings, change, _⟩ := act_change env system.daemon.self
        ⟨.str (parties.identity request.handle).chars, request.call.command, parties.isLocal request.handle, system.daemon.clients.length⟩
        space request.call bytes acted _ (parties.identity request.handle).chars sound plain rfl rfl active done
      exact ⟨acted.space, by simp [System.handled, Parties.ts], change_owned env _ bytes space acted.space postings system.taken
        ⟨request.handle, request.number, request.call, system.daemon.self⟩ owned.tickets.symm
        (fun writes => own writes bytes rest payload) fine change⟩

theorem step_owned (env : Platform) (parties : Parties ι) (system next : System ι) (motion : Motion ι) (matched : system.Matched parties)
    (owned : system.Owned parties) (taken : system.step env parties motion = some next) : next.Owned parties := by
  cases motion with
  | calls i call =>
      obtain ⟨chunks, _, _, same⟩ := call_cases parties system next i call taken
      exact same ▸ ⟨owned.tickets, owned.space⟩
  | writes i =>
      obtain ⟨chunk, later, _, _, same⟩ := write_cases system next i taken
      exact same ▸ ⟨owned.tickets, owned.space⟩
  | hears i =>
      obtain ⟨call, first, later, out, input, _, _, _, same⟩ := hear_cases parties system next i taken
      exact same ▸ ⟨owned.tickets, owned.space⟩
  | takes i =>
      obtain ⟨number, call, later, _, up, attempted⟩ := take_cases env parties system next i taken
      have plain := (matched.sessions i).plain (number, call) (by simp [up])
      rcases attempt_cases env parties _ next _ attempted with ⟨handled, served, same⟩ | ⟨_, _, _, same⟩
      · subst same
        refine handled_owned env parties _ _ handled ⟨owned.tickets, owned.space⟩ plain (fun writes bytes rest received => ?_) served
        have passes := (matched.sessions i).waiting number call (by simp [up])
        exact payload_own (parties.ts i) call [] _ rest bytes writes (fun _ => passes) received
      · exact same ▸ ⟨owned.tickets, owned.space⟩
  | reads =>
      obtain ⟨request, passed, reading, full, attempted⟩ := read_cases env parties system next taken
      have fits := matched.current request reading
      have plain : request.call.plain = true := by
        cases same : request.call <;> simp [Call.plain]
        have writes := fits.writes
        simp [same, Call.writes] at writes
      rcases attempt_cases env parties _ next _ attempted with ⟨handled, served, same⟩ | ⟨_, _, _, same⟩
      · subst same
        refine handled_owned env parties _ _ handled ⟨owned.tickets, owned.space⟩ plain (fun writes bytes rest received => ?_) served
        have passes := fits.passes
        rw [full, inPipe, if_pos (fits.own passed full), ← List.append_assoc] at passes
        exact payload_own (parties.ts request.handle) request.call _ _ rest bytes writes (fun _ => passes) received
      · exact same ▸ ⟨owned.tickets, owned.space⟩

-- A space in master mode where nothing is stored and nobody waits.
def Tsd.Fresh (self : Tsd) (spaceName : Bytes) : Prop :=
  ∃ space, self.spaceTable spaceName = some space ∧ space.tsMode = .master ∧ space.namedQueue = [] ∧ space.namedQueueRequests = [] ∧
    space.bcastQueueRequests = [] ∧ space.history = []

omit [DecidableEq ι] in
theorem start_owned (parties : Parties ι) (self : Tsd) (fresh : self.Fresh parties.spaceName.chars) :
    (System.start self : System ι).Owned parties := by
  obtain ⟨space, found, mode, queue, requests, bcast, history⟩ := fresh
  refine ⟨rfl, space, found, ⟨by simp [mode], by simp [queue], by simp [requests], by simp [requests], by simp [requests], bcast⟩, mode,
    by simp [queue], by simp [history]⟩

theorem run_matched (env : Platform) (parties : Parties ι) (start final : System ι) (motions : List (Motion ι))
    (matched : start.Matched parties) (owned : start.Owned parties)
    (turns : Runs.Meets (System.step env parties) (fun system motion => motion.InTurn parties system) start motions)
    (ran : Runs.run (System.step env parties) start motions = some final) : final.Matched parties ∧ final.Owned parties :=
  Runs.run_guarded_invariant (System.step env parties) (fun system motion => motion.InTurn parties system)
    (fun system => system.Matched parties ∧ system.Owned parties)
    (fun system motion next both turn taken =>
      ⟨step_matched env parties system next motion both.1 turn taken, step_owned env parties system next motion both.1 both.2 taken⟩)
    start final motions ⟨matched, owned⟩ turns ran

-- Whatever is stored or delivered has the name and the payload of one call.
theorem payloads_paired (env : Platform) (parties : Parties ι) (self : Tsd) (fresh : self.Fresh parties.spaceName.chars)
    (motions : List (Motion ι)) (final : System ι)
    (turns : Runs.Meets (System.step env parties) (fun system motion => motion.InTurn parties system) (System.start self) motions)
    (ran : Runs.run (System.step env parties) (System.start self) motions = some final) (space : TsdElement)
    (found : final.daemon.self.spaceTable parties.spaceName.chars = some space) (tuple : SngTuple)
    (kept : tuple ∈ space.namedQueue ∨ ∃ ticket command, Event.replied ticket command tuple ∈ space.history) :
    ∃ intake, final.taken[tuple.origin]? = some intake ∧ intake.call.written tuple.origin intake.call.bytes = some tuple := by
  obtain ⟨_, owned⟩ := run_matched env parties (System.start self) final motions (start_matched parties self)
    (start_owned parties self fresh) turns ran
  obtain ⟨other, there, fine⟩ := owned.space
  cases Option.some.inj (there.symm.trans found)
  rcases kept with stored | ⟨ticket, command, delivered⟩
  · exact fine.stored tuple stored
  · exact fine.delivered ticket command tuple delivered

-- Three local handles and a daemon whose space is open.
def sampleHandles : Parties (Fin 3) where
  spaceName := sampleSpaceName
  identity := fun i => ⟨⟨[UInt8.ofNat (67 + i.val)], by revert i; decide⟩, by simp⟩
  host := fun _ => .big
  isLocal := fun _ => true
  distinct := by
    intro i j _ same
    have apart : ∀ i j : Fin 3, [UInt8.ofNat (67 + i.val)] = [UInt8.ofNat (67 + j.val)] → i = j := by decide
    exact apart i j (congrArg (fun identity : Identity => identity.chars) same)

def sampleTsd : Tsd := tsdCreate [101] 1 sampleSpaces

theorem sample_fresh : sampleTsd.Fresh sampleHandles.spaceName.chars := ⟨_, rfl, rfl, rfl, rfl, rfl, rfl⟩

def otherPayload : Payload := ⟨[8], by decide, by decide⟩

-- A call whose chunk is in the pipe before its message is taken.
def sampleDeposit : List (Motion (Fin 3)) :=
  [.calls 0 (.tsInPut sampleName samplePayload), .writes 0, .takes 0, .reads]

set_option maxRecDepth 20000 in
theorem payloads_paired_sample : ∃ final : System (Fin 3),
    Runs.run (System.step samplePlatform sampleHandles) (System.start sampleTsd) sampleDeposit = some final ∧
      ∃ intake, final.taken[0]? = some intake ∧ intake.call.written 0 intake.call.bytes = some ⟨.str [97], 0, [7], 0⟩ := by
  obtain ⟨final, ran, space, found, stored⟩ : ∃ final : System (Fin 3),
      Runs.run (System.step samplePlatform sampleHandles) (System.start sampleTsd) sampleDeposit = some final ∧
        ∃ space, final.daemon.self.spaceTable sampleHandles.spaceName.chars = some space ∧
          space.namedQueue = [⟨.str [97], 0, [7], 0⟩] := ⟨_, rfl, _, rfl, rfl⟩
  have turns : Runs.Meets (System.step samplePlatform sampleHandles) (fun system motion => motion.InTurn sampleHandles system)
      (System.start sampleTsd) sampleDeposit :=
    Runs.meets_cons _ _ _ _ _ _ rfl trivial <|
      Runs.meets_cons _ _ _ _ _ _ rfl (fun _ reading => by cases reading) <|
        Runs.meets_cons _ _ _ _ _ _ rfl (fun _ _ _ _ _ up _ _ _ _ full => by cases up; cases full; exact ⟨rfl, rfl⟩) <|
          Runs.meets_cons _ _ _ _ _ _ rfl trivial trivial
  exact ⟨final, ran, payloads_paired samplePlatform sampleHandles sampleTsd sample_fresh sampleDeposit final turns ran space found
    ⟨.str [97], 0, [7], 0⟩ (Or.inl (by simp [stored]))⟩

-- The space is closed and opened again between two calls of one client.
def sampleReopening : List (Motion (Fin 3)) :=
  [.calls 1 .tsClose, .takes 1, .calls 0 (.tsInPut sampleName samplePayload), .takes 0, .writes 0, .calls 2 (.tsOpen tsModeMaster), .takes 2,
    .calls 0 (.tsInPut otherName otherPayload), .takes 0, .reads]

set_option maxRecDepth 20000 in
-- The payload of the call that was refused stays in the pipe.
theorem payload_of_another_call : ¬ ∀ (parties : Parties (Fin 3)) (self : Tsd), self.Fresh parties.spaceName.chars →
    ∀ (motions : List (Motion (Fin 3))) (final : System (Fin 3)),
      Runs.run (System.step samplePlatform parties) (System.start self) motions = some final →
        ∀ space, final.daemon.self.spaceTable parties.spaceName.chars = some space → ∀ tuple ∈ space.namedQueue,
          ∃ intake, final.taken[tuple.origin]? = some intake ∧ intake.call.written tuple.origin intake.call.bytes = some tuple := by
  intro claim
  obtain ⟨final, ran, space, found, stored, taken⟩ : ∃ final : System (Fin 3),
      Runs.run (System.step samplePlatform sampleHandles) (System.start sampleTsd) sampleReopening = some final ∧
        ∃ space, final.daemon.self.spaceTable sampleHandles.spaceName.chars = some space ∧
          space.namedQueue = [⟨.str [98], 0, [7], 3⟩] ∧
          final.taken.map (fun intake => intake.call) =
            [.tsClose, .tsInPut sampleName samplePayload, .tsOpen tsModeMaster, .tsInPut otherName otherPayload] :=
    ⟨_, rfl, _, rfl, rfl, rfl⟩
  obtain ⟨intake, there, written⟩ := claim sampleHandles sampleTsd sample_fresh _ final ran space found
    ⟨.str [98], 0, [7], 3⟩ (by simp [stored])
  have call : (final.taken.map fun intake => intake.call)[3]? = some intake.call := by
    rw [List.getElem?_map, there]
    rfl
  rw [taken] at call
  rw [← Option.some.inj call] at written
  exact absurd written (by decide)

end Synergy
