import Synergy.Closing
import Synergy.Lookup
import Synergy.Lib.Outcome

set_option autoImplicit false

namespace Synergy

-- strcmp, strlen and an index are undefined on a NULL name, and nothing else in the matching is.
def NoNull {α : Type} (computation : Except Stop α) : Prop :=
  Outcomes.Holds (fun stop => stop ≠ .undefined) (fun _ => True) computation

theorem no_null_ok {α : Type} (result : α) : NoNull (.ok result) := trivial

theorem no_null_pure {α : Type} (result : α) : NoNull (pure result : Except Stop α) := trivial

theorem no_null_aborted {α : Type} : NoNull (.error .aborted : Except Stop α) := by
  intro same
  cases same

theorem no_null_bind {α β : Type} (one : Except Stop α) (two : α → Except Stop β) (first : NoNull one)
    (rest : ∀ result, one = .ok result → NoNull (two result)) : NoNull (one >>= two) :=
  Outcomes.holds_bind_ok _ _ one two first rest

theorem no_null_iff {α : Type} (computation : Except Stop α) : NoNull computation ↔ computation ≠ .error .undefined := by
  cases computation with
  | ok result => simp [NoNull, Outcomes.Holds]
  | error stop => simp [NoNull, Outcomes.Holds]

theorem no_null_map {α β : Type} (list : List α) (step : α → Except Stop β) (each : ∀ element, NoNull (step element)) :
    NoNull (list.mapM step) := by
  induction list with
  | nil => exact no_null_pure []
  | cons element later ih =>
      rw [List.mapM_cons]
      exact no_null_bind _ _ (each element) fun first _ => no_null_bind _ _ ih fun rest _ => no_null_pure (first :: rest)

theorem chunk_of_no_null (data : Bytes) (id : UInt32) (total : UInt64) : NoNull (chunkOf data id total) := by
  unfold chunkOf
  split
  · exact no_null_ok _
  · exact no_null_aborted

theorem send_item_no_null (ticket : Nat) (data : Bytes) : NoNull (sendItemOut ticket data) :=
  no_null_bind _ _ (no_null_map _ _ fun _ => chunk_of_no_null _ _ _) fun _ _ => no_null_pure _

theorem send_str_no_null (env : Platform) (isLocal : Bool) (ticket : Nat) (chars : Bytes) (more : Bool) :
    NoNull (sendStr env isLocal ticket (.str chars) more) := no_null_pure _

theorem read_response_no_null (env : Platform) (isLocal : Bool) (ticket : Nat) (tuple : SngTuple)
    (named : ∃ stored, tuple.name = .str stored) : NoNull (handleNamedQueueReadResponse env isLocal ticket tuple) := by
  obtain ⟨stored, named⟩ := named
  rw [handleNamedQueueReadResponse, named]
  refine no_null_bind _ _ (send_str_no_null env isLocal ticket stored (!isLocal)) fun name _ => ?_
  split
  · exact no_null_bind _ _ (send_item_no_null ticket tuple.data) fun item _ => no_null_pure _
  · exact no_null_pure _

-- An anonymous tuple is sent with its id instead of a name.
theorem fetch_response_no_null (env : Platform) (isLocal : Bool) (ticket : Nat) (tuple : SngTuple) (stored : tuple.Stored) :
    NoNull (handleNamedQueueFetchResponse env isLocal ticket tuple) := by
  rcases stored with ⟨name, named⟩ | anonymous
  · have ordinary : ¬ (tuple.name = .null ∧ tuple.anonId ≠ 0) := by simp [named]
    rw [handleNamedQueueFetchResponse, if_neg ordinary, named]
    split
    · exact no_null_bind _ _ (send_str_no_null env isLocal ticket name true) fun _ _ =>
        no_null_bind _ _ (send_item_no_null ticket tuple.data) fun item _ => no_null_pure _
    · exact no_null_bind _ _ (send_str_no_null env isLocal ticket name true) fun _ _ => no_null_pure _
  · rw [handleNamedQueueFetchResponse, if_pos anonymous]
    split
    · exact no_null_bind _ _ (send_item_no_null ticket tuple.data) fun item _ => no_null_pure _
    · exact no_null_pure _

theorem match_loop_no_null (env : Platform) (tuple : SngTuple) (stored : Bytes) (named : tuple.name = .str stored) (rounds : Nat)
    (state : Matching) (waiting : ∀ request ∈ state.requests, request.Waiting) : NoNull (matchLoop env tuple rounds state) := by
  induction rounds generalizing state with
  | zero =>
      intro same
      cases same
  | succ rounds ih =>
      obtain ⟨handle, found⟩ := zlistx_find_total (fun request => blckcmpStr env request (searchFor tuple)) state.requests
        fun request member => blckcmp_total env request (searchFor tuple) stored (waiting request member) named
      have search : zlistxFind (fun request => blckcmpStr env request
          { name := tuple.name, clientid := .null, command := .tsNone, extra := tuple.anonId.toNat, isLocal := false, ticket := 0 })
          state.requests = .ok handle := found
      rw [matchLoop, search]
      cases handle with
      | none => exact no_null_pure _
      | some handle =>
          obtain ⟨before, matched, after, split, position, _, _⟩ := zlistx_find_some _ _ _ found
          have detached : zlistxDetach state.requests (some handle) = (some matched, before ++ after) := by
            rw [split, ← position, zlistx_detach_split]
          have matchedWaiting := waiting matched (by simp [split])
          have rest : ∀ request ∈ before ++ after, request.Waiting := fun request member =>
            waiting request (split ▸ (List.mem_append.mp member).elim (by simp +contextual) (by simp +contextual))
          obtain ⟨clientid, identity⟩ := matchedWaiting.client
          simp only [bind, Except.bind, detached, sendClientid, identity, CString.chars, pure, Except.pure]
          split
          · exact no_null_ok _
          · have reply := match_reply_waiting env tuple matched matchedWaiting
            have answered := read_response_no_null env matched.isLocal matched.ticket tuple ⟨stored, named⟩
            rw [reply]
            cases built : handleNamedQueueReadResponse env matched.isLocal matched.ticket tuple with
            | error stop =>
                rw [built] at answered
                exact answered
            | ok frames => exact ih _ rest

theorem match_loop_null (env : Platform) (tuple : SngTuple) (anonymous : tuple.name = .null) (rounds : Nat) (state : Matching)
    (request : BlockingRequest) (later : List BlockingRequest) (fresh : state.needAppend = true) (waits : state.requests = request :: later)
    (waiting : request.Waiting) : matchLoop env tuple (rounds + 1) state = .error .undefined := by
  obtain ⟨clientid, identity⟩ := waiting.client
  have unnamed : handleNamedQueueReadResponse env request.isLocal request.ticket tuple = .error .undefined := by
    rw [handleNamedQueueReadResponse, anonymous]
    rfl
  have answered : ∀ search, blckcmpStr env request search = .ok 0 →
      zlistxFind (fun other => blckcmpStr env other search) (request :: later) = .ok (some 0) := by
    intro search zero
    rw [zlistxFind, zero]
    rfl
  have refused : ∀ search, blckcmpStr env request search = .error .undefined →
      zlistxFind (fun other => blckcmpStr env other search) (request :: later) = .error .undefined := by
    intro search stopped
    rw [zlistxFind, stopped]
    rfl
  have compared : ∀ search : BlockingRequest, search.name = .null →
      blckcmpStr env request search = .ok 0 ∨ blckcmpStr env request search = .error .undefined := by
    intro search null
    cases waiting.kind with
    | inl query =>
        obtain ⟨command, asked, isStr⟩ := query
        have ordinary : ¬ (request.command = .tsPopBlocking ∨ request.command = .tsPeekBlocking) := by
          rcases command with get | read <;> simp [*]
        rw [blckcmpStr, if_neg ordinary, waiting.extra, isStr, null, tplcmp, if_neg (by simp)]
        by_cases star : strcmp asked ['*'.toUInt8] = 0
        · exact Or.inl (by simp only [CString.chars, bind, Except.bind, star, if_true, pure, Except.pure])
        · exact Or.inr (by simp only [CString.chars, bind, Except.bind, star, if_false])
    | inr fetch => exact Or.inl (by rw [blckcmpStr, if_pos fetch.1])
  rcases compared (searchFor tuple) anonymous with zero | stopped
  · have found := answered (searchFor tuple) zero
    have detached : zlistxDetach (request :: later) (some 0) = (some request, later) := rfl
    simp only [searchFor] at found
    rw [matchLoop, waits, found]
    simp only [bind, Except.bind, detached, fresh, Bool.not_true, Bool.false_eq_true, if_false, sendClientid, identity, CString.chars,
      pure, Except.pure]
    rw [match_reply_waiting env tuple request waiting, unnamed]
    rfl
  · have missed := refused (searchFor tuple) stopped
    simp only [searchFor] at missed
    rw [matchLoop, waits, missed]
    rfl

theorem put_no_null (env : Platform) (self : Tsd) (args : HandlerArg) (space : TsdElement) (name data : Bytes)
    (action : args.action = .tsPut) (waiting : ∀ request ∈ space.namedQueueRequests, request.Waiting)
    (single : space.tsMode ≠ .p2p) : NoNull (putTuple env self args space name data) := by
  have plain : ¬ (space.record (.accepted ⟨.str name, 0, data, args.ticket⟩)).tsMode = .p2p := single
  rw [putTuple, if_neg plain, action]
  refine no_null_bind _ _ ?_ fun _ _ => no_null_pure _
  unfold matchBlockingRequests
  refine no_null_bind _ _ (match_loop_no_null env _ name rfl _ _ waiting) fun looped _ => ?_
  dsimp only
  split_ifs <;> exact no_null_pure _

theorem add_no_null_iff (env : Platform) (self : Tsd) (args : HandlerArg) (space : TsdElement) (anonId : UInt32) (data : Bytes)
    (received : Nat) (action : args.action = .tsAdd) (waiting : ∀ request ∈ space.namedQueueRequests, request.Waiting)
    (single : space.tsMode ≠ .p2p) : NoNull (addTuple env self args space anonId data received) ↔ space.namedQueueRequests = [] := by
  have plain : ¬ ((!args.isLocal) = true ∧ (space.record (.accepted ⟨.null, anonId, data, args.ticket⟩)).tsMode = .p2p) :=
    fun both => single both.2
  rw [addTuple, if_neg plain, action]
  constructor
  · intro safe
    cases requests : space.namedQueueRequests with
    | nil => rfl
    | cons request later =>
        have stopped := match_loop_null env ⟨.null, anonId, data, args.ticket⟩ rfl (later.length + 1)
          ⟨request :: later, true, [], space.history ++ [.accepted ⟨.null, anonId, data, args.ticket⟩]⟩ request later rfl rfl
          (waiting request (by simp [requests]))
        have whole : matchBlockingRequests env self (space.record (.accepted ⟨.null, anonId, data, args.ticket⟩))
            ⟨.null, anonId, data, args.ticket⟩ .tsAdd = .error .undefined := by
          simp only [matchBlockingRequests, TsdElement.opQueue, TsdElement.record, requests, List.length_cons, stopped, bind,
            Except.bind]
        rw [whole] at safe
        exact absurd rfl safe
  · intro alone
    refine no_null_bind _ _ ?_ fun _ _ => no_null_pure _
    simp only [matchBlockingRequests, TsdElement.opQueue, TsdElement.record, alone, matchLoop, zlistxFind, bind,
      Except.bind, pure, Except.pure, Bool.not_true, Bool.false_eq_true, if_false]
    split_ifs
    · exact absurd ‹_› single
    · exact no_null_ok _

theorem fetch_no_null (env : Platform) (args : HandlerArg) (space : TsdElement) (clientid : Bytes)
    (client : args.clientid = .str clientid) (stored : ∀ tuple ∈ space.namedQueue, tuple.Stored) :
    NoNull (fetchTuple env args space) := by
  rw [fetchTuple, client]
  refine no_null_bind _ _ (no_null_pure _) fun header _ => ?_
  cases queue : space.namedQueue with
  | nil => exact no_null_pure _
  | cons first later =>
      exact no_null_bind _ _ (fetch_response_no_null env args.isLocal args.ticket first (stored first (by simp [queue])))
        fun _ _ => no_null_pure _

theorem query_no_null (env : Platform) (args : HandlerArg) (space : TsdElement) (clientid asked : Bytes)
    (client : args.clientid = .str clientid) (stored : ∀ tuple ∈ space.namedQueue, tuple.Stored)
    (active : space.isActivated = true) : NoNull (readTuple env args space asked) := by
  rcases query_found env asked space.namedQueue stored with ⟨search, _⟩ | ⟨before, tuple, after, oldest, _⟩
  · obtain ⟨acted, done, _⟩ := read_absent env args space clientid asked client (Or.inr active) search
    rw [done]
    exact no_null_ok acted
  · obtain ⟨name, named, _⟩ := matched_named env asked tuple (stored tuple (by simp [oldest.split])) oldest.found
    rw [read_oldest env args space clientid asked before after tuple client (Or.inr active) stored oldest]
    exact no_null_bind _ _ (read_response_no_null env args.isLocal args.ticket tuple ⟨name, named⟩) fun _ _ => no_null_pure _

-- TsPut, TsAdd, TsGet, TsRead, TsPop, TsPeek and their blocking forms.
def Call.queued : Call → Bool
  | .tsInPut _ _ => true
  | .tsInAdd _ _ _ => true
  | .tsOutQuery _ _ _ => true
  | .tsOutFetch _ _ => true
  | _ => false

def Call.anonymous : Call → Bool
  | .tsInAdd _ _ _ => true
  | _ => false

-- Such a call of some client, and the payload received with it.
structure QueueCall where
  clientid : Bytes
  isLocal : Bool
  call : Call
  queued : call.queued = true
  data : Bytes

def QueueCall.args (asked : QueueCall) (ticket : Nat) : HandlerArg := ⟨.str asked.clientid, asked.call.command, asked.isLocal, ticket⟩

def serveCalls (env : Platform) (self : Tsd) : Nat → TsdElement → List QueueCall → Except Stop TsdElement
  | _, space, [] => .ok space
  | ticket, space, asked :: later => do
      let acted ← asked.call.act env self (asked.args ticket) space asked.data
      serveCalls env self (ticket + 1) acted.space later

-- Whenever a TsAdd is served, no request waits in named_queue_requests.
def AddsMeetNobody (env : Platform) (self : Tsd) : Nat → TsdElement → List QueueCall → Prop
  | _, _, [] => True
  | ticket, space, asked :: later =>
      (asked.call.anonymous = true → space.namedQueueRequests = []) ∧
        ∀ acted, asked.call.act env self (asked.args ticket) space asked.data = .ok acted →
          AddsMeetNobody env self (ticket + 1) acted.space later

theorem call_no_null_iff (env : Platform) (self : Tsd) (ticket : Nat) (space : TsdElement) (asked : QueueCall)
    (sound : space.Sound ticket) (active : space.isActivated = true) :
    NoNull (asked.call.act env self (asked.args ticket) space asked.data) ↔
      (asked.call.anonymous = true → space.namedQueueRequests = []) := by
  obtain ⟨clientid, isLocal, call, queued, data⟩ := asked
  cases call with
  | tsInAdd anonId nonzero payload =>
      have decided := add_no_null_iff env self ⟨.str clientid, .tsAdd, isLocal, ticket⟩ space anonId data
        (if isLocal then 0 else data.length) rfl sound.waiting sound.single
      exact decided.trans ⟨fun alone _ => alone, fun alone => alone rfl⟩
  | tsInPut name payload =>
      have safe := put_no_null env self ⟨.str clientid, .tsPut, isLocal, ticket⟩ space name.chars data rfl sound.waiting sound.single
      exact ⟨fun _ other => (by cases other), fun _ => safe⟩
  | tsOutQuery takesIt blocking name =>
      have safe := query_no_null env ⟨.str clientid, (Call.tsOutQuery takesIt blocking name).command, isLocal, ticket⟩ space clientid
        name.chars rfl sound.stored active
      exact ⟨fun _ other => (by cases other), fun _ => safe⟩
  | tsOutFetch takesIt blocking =>
      have safe := fetch_no_null env ⟨.str clientid, (Call.tsOutFetch takesIt blocking).command, isLocal, ticket⟩ space clientid rfl
        sound.stored
      exact ⟨fun _ other => (by cases other), fun _ => safe⟩
  | tsOpen mode => cases queued
  | tsBcastRead blocking name => cases queued
  | tsClose => cases queued

theorem call_keeps (env : Platform) (self : Tsd) (ticket : Nat) (space : TsdElement) (asked : QueueCall) (acted : Acted)
    (sound : space.Sound ticket) (active : space.isActivated = true)
    (done : asked.call.act env self (asked.args ticket) space asked.data = .ok acted) :
    acted.space.Sound (ticket + 1) ∧ acted.space.isActivated = true := by
  obtain ⟨clientid, isLocal, call, queued, data⟩ := asked
  have plain : call.plain = true := by
    cases call with
    | tsBcastRead blocking name => cases queued
    | _ => rfl
  constructor
  · obtain ⟨postings, change, _⟩ := act_change env self _ space call data acted ticket clientid sound plain rfl rfl (Or.inr active) done
    exact change_sound env _ call data space acted.space postings sound change
  · have open_ : space.StaysOpen acted.space := by
      cases call with
      | tsInPut name payload => exact put_stays_open env self _ space name.chars data acted (by simp [QueueCall.args, Call.command]) done
      | tsInAdd anonId nonzero payload =>
          exact add_stays_open env self _ space anonId data _ acted (by simp [QueueCall.args, Call.command]) done
      | tsOutQuery takesIt blocking name => exact read_stays_open env _ space name.chars acted done
      | tsOutFetch takesIt blocking => exact fetch_stays_open env _ space acted done
      | tsOpen mode => cases queued
      | tsBcastRead blocking name => cases queued
      | tsClose => cases queued
    exact open_.active.trans active

theorem serve_no_null_iff (env : Platform) (self : Tsd) (ticket : Nat) (space : TsdElement) (calls : List QueueCall)
    (sound : space.Sound ticket) (active : space.isActivated = true) :
    NoNull (serveCalls env self ticket space calls) ↔ AddsMeetNobody env self ticket space calls := by
  induction calls generalizing ticket space with
  | nil => exact ⟨fun _ => trivial, fun _ => trivial⟩
  | cons asked later ih =>
      have first := call_no_null_iff env self ticket space asked sound active
      rw [serveCalls, AddsMeetNobody]
      cases done : asked.call.act env self (asked.args ticket) space asked.data with
      | error stop =>
          rw [done] at first
          constructor
          · intro safe
            exact ⟨first.mp safe, fun acted other => by cases other⟩
          · rintro ⟨alone, _⟩
            exact first.mpr alone
      | ok acted =>
          rw [done] at first
          obtain ⟨soundLater, activeLater⟩ := call_keeps env self ticket space asked acted sound active done
          have rest := ih (ticket + 1) acted.space soundLater activeLater
          constructor
          · intro safe
            exact ⟨first.mp (no_null_ok acted), fun other same => by cases same; exact rest.mp safe⟩
          · rintro ⟨_, each⟩
            exact rest.mpr (each acted rfl)

def openedElement (config : SngNamespace) : TsdElement := { createElement config with isActivated := true }

theorem names_never_null (env : Platform) (self : Tsd) (config : SngNamespace) (calls : List QueueCall)
    (single : config.tsMode ≠ .p2p) :
    serveCalls env self 0 (openedElement config) calls ≠ .error .undefined ↔
      AddsMeetNobody env self 0 (openedElement config) calls := by
  have sound : (openedElement config).Sound 0 := { created_sound config single with }
  exact (no_null_iff _).symm.trans (serve_no_null_iff env self 0 (openedElement config) calls sound rfl)

def sampleMaster : SngNamespace := { name := [115], directEndpoint := List.replicate 256 0, tsMode := .master, tsdMode := .direct }

def samplePopper : QueueCall := ⟨[67], true, .tsOutFetch true true, rfl, []⟩
def sampleAdder : QueueCall := ⟨[68], true, .tsInAdd 8 (by decide) samplePayload, rfl, [7]⟩

-- An anonymous tuple is added and popped again.
theorem names_never_null_popped :
    serveCalls samplePlatform sampleStart.self 0 (openedElement sampleMaster) [sampleAdder, samplePopper] ≠ .error .undefined := by
  apply (names_never_null samplePlatform sampleStart.self sampleMaster [sampleAdder, samplePopper] (fun same => by cases same)).mpr
  exact ⟨fun _ => rfl, fun acted _ => ⟨nofun, fun _ _ => trivial⟩⟩

-- The other way round the popper is sent the name the tuple has not.
theorem waiter_meets_anonymous :
    ¬ ∀ (env : Platform) (self : Tsd) (config : SngNamespace) (calls : List QueueCall), config.tsMode ≠ .p2p →
      serveCalls env self 0 (openedElement config) calls ≠ .error .undefined := by
  intro claim
  exact claim samplePlatform sampleStart.self sampleMaster [samplePopper, sampleAdder] (fun same => by cases same) rfl

end Synergy
