import Synergy.Responses

set_option autoImplicit false

namespace Synergy

theorem writes_silent (call : Call) (writes : call.writes = true) : call.asks = false := by
  cases call with
  | tsInPut name data => rfl
  | tsInAdd anonId nonzero data => rfl
  | _ => cases writes

theorem query_sought (call : Call) (query : CString) (asked : call.query = some query) : call.sought = query := by
  rw [Call.sought, asked]
  rfl

theorem query_asks (call : Call) (query : CString) (asked : call.query = some query) : call.asks = true := by
  cases call with
  | tsOutQuery takesIt blocking name => rfl
  | tsOutFetch takesIt blocking => rfl
  | _ => cases asked

theorem acts_open (call : Call) (kind : call.asks = false ∨ call.query ≠ none) : call.command ≠ .tsConnect := by
  cases call with
  | tsOpen mode => cases kind <;> contradiction
  | tsOutQuery takesIt blocking name => cases takesIt <;> cases blocking <;> exact fun same => by cases same
  | tsOutFetch takesIt blocking => cases takesIt <;> cases blocking <;> exact fun same => by cases same
  | tsBcastRead blocking name => cases blocking <;> exact fun same => by cases same
  | _ => exact fun same => by cases same

theorem enqueue_active (space : TsdElement) (event : Event) (args : HandlerArg) (query : CString) :
    ((space.record event).enqueue args query).isActivated = space.isActivated := by
  unfold TsdElement.enqueue
  split <;> rfl

variable {ι : Type} [DecidableEq ι]

def Intake.FoundNothing (env : Platform) (spaceName : Bytes) (intake : Intake ι) : Prop :=
  ∀ space, intake.before.spaceTable spaceName = some space →
    ∀ tuple ∈ space.namedQueue, wants env intake.call.command intake.call.sought tuple = false

-- The response was sent for the request of the call that has read it.
def Heard.Own (env : Platform) (spaceName : Bytes) (taken : List (Intake ι)) (heard : Heard ι) : Prop :=
  ∃ intake, taken[heard.ticket]? = some intake ∧ intake.handle = heard.handle ∧ intake.number = heard.number ∧ intake.call = heard.call ∧
    ∀ read, heard.out = some read → read.rt = 1 → intake.FoundNothing env spaceName

-- What is in tsd_ts_pipe is for the one local client.
def System.due (parties : Parties ι) (system : System ι) (i : ι) : List Chunk := if parties.isLocal i then system.answers else []

def BlockingRequest.Of (parties : Parties ι) (i : ι) (request : BlockingRequest) : Prop :=
  request.isLocal = parties.isLocal i ∧ request.clientid = .str (parties.identity i).chars

def Alone (parties : Parties ι) (requests : List BlockingRequest) (i : ι) : Prop := ∀ request ∈ requests, ¬ request.Of parties i

def Stage.between : Stage → Bool
  | .idle => true
  | .passing _ => true
  | _ => false

-- A call whose request the daemon has taken; told is the TsEnf that a blocking call skips.
structure Awaits (env : Platform) (parties : Parties ι) (taken : List (Intake ι)) (i : ι) (session : Session) (intake : Intake ι)
    (ticket : Nat) (told : List Sent) : Prop where
  stage : session.stage = .awaiting intake.call
  there : taken[ticket]? = some intake
  handle : intake.handle = i
  number : intake.number = session.made - 1
  up : session.up = []
  notice : told = [] ∨ told = Reply.enf.frames env (parties.isLocal i) ticket ∧ intake.call.query ≠ none ∧ intake.call.blocks = true

-- The answer that such a call returns with is there.
structure Answered (env : Platform) (parties : Parties ι) (taken : List (Intake ι)) (requests : List BlockingRequest) (i : ι)
    (session : Session) (due : List Chunk) (intake : Intake ι) (ticket : Nat) (told : List Sent) (reply : Reply) : Prop where
  asked : Awaits env parties taken i session intake ticket told
  down : session.down = told ++ reply.frames env (parties.isLocal i) ticket
  due : due = reply.chunks env (parties.isLocal i) ticket
  settles : reply.Settles (intake.FoundNothing env parties.spaceName.chars) (parties.isLocal i) intake.call
  alone : Alone parties requests i

-- Where a client stands: between two calls, behind ts_close, with a request the daemon has not taken yet behind writes that get no
-- answer, with one that is pending, or with one that is answered.
inductive Standing (env : Platform) (parties : Parties ι) (taken : List (Intake ι)) (requests : List BlockingRequest) (i : ι)
    (session : Session) (due : List Chunk) : Prop where
  | idle (stage : session.stage.between = true) (down : session.down = []) (up : ∀ message ∈ session.up, message.2.writes = true)
      (alone : Alone parties requests i) (nothing : due = [])
  | closed (stage : session.stage = .closed) (up : ∀ message ∈ session.up, message.2.asks = false) (alone : Alone parties requests i)
      (nothing : due = [])
  | sent (call : Call) (writes : List (Nat × Call)) (stage : session.stage = .awaiting call) (asks : call.asks = true)
      (fits : fetches call.command = true → parties.isLocal i = false) (up : session.up = writes ++ [(session.made - 1, call)])
      (before : ∀ message ∈ writes, message.2.writes = true) (down : session.down = []) (alone : Alone parties requests i)
      (nothing : due = [])
  | pending (intake : Intake ι) (ticket : Nat) (told : List Sent) (asked : Awaits env parties taken i session intake ticket told)
      (down : session.down = told) (query : intake.call.query ≠ none)
      (own : ∀ request ∈ requests, request.Of parties i → request.ticket = ticket) (nothing : due = [])
  | answered (intake : Intake ι) (ticket : Nat) (told : List Sent) (reply : Reply)
      (answer : Answered env parties taken requests i session due intake ticket told reply)

omit [DecidableEq ι] in
theorem asked_kept (env : Platform) (parties : Parties ι) (taken more : List (Intake ι)) (i : ι) (session : Session) (intake : Intake ι)
    (ticket : Nat) (told : List Sent) (asked : Awaits env parties taken i session intake ticket told) :
    Awaits env parties (taken ++ more) i session intake ticket told :=
  { asked with there := (List.getElem?_append_left (List.getElem?_eq_some_iff.mp asked.there).1).trans asked.there }

omit [DecidableEq ι] in
theorem alone_fewer (parties : Parties ι) (requests left : List BlockingRequest) (i : ι) (alone : Alone parties requests i)
    (fewer : ∀ request ∈ left, request.Of parties i → request ∈ requests) : Alone parties left i :=
  fun request member mine => alone request (fewer request member mine) mine

omit [DecidableEq ι] in
theorem answered_kept (env : Platform) (parties : Parties ι) (taken more : List (Intake ι)) (requests left : List BlockingRequest) (i : ι)
    (session : Session) (due : List Chunk) (intake : Intake ι) (ticket : Nat) (told : List Sent) (reply : Reply)
    (answer : Answered env parties taken requests i session due intake ticket told reply)
    (fewer : ∀ request ∈ left, request.Of parties i → request ∈ requests) :
    Answered env parties (taken ++ more) left i session due intake ticket told reply :=
  { answer with
    asked := asked_kept env parties taken more i session intake ticket told answer.asked
    alone := alone_fewer parties requests left i answer.alone fewer }

omit [DecidableEq ι] in
theorem standing_kept (env : Platform) (parties : Parties ι) (taken more : List (Intake ι)) (requests left : List BlockingRequest) (i : ι)
    (session : Session) (due : List Chunk) (standing : Standing env parties taken requests i session due)
    (fewer : ∀ request ∈ left, request.Of parties i → request ∈ requests) :
    Standing env parties (taken ++ more) left i session due := by
  have alone := fun before => alone_fewer parties requests left i before fewer
  cases standing with
  | idle stage down up unasked nothing => exact .idle stage down up (alone unasked) nothing
  | closed stage up unasked nothing => exact .closed stage up (alone unasked) nothing
  | sent call writes stage asks fits up before down unasked nothing =>
      exact .sent call writes stage asks fits up before down (alone unasked) nothing
  | pending intake ticket told asked down query own nothing =>
      exact .pending intake ticket told (asked_kept env parties taken more i session intake ticket told asked) down query
        (fun request member mine => own request (fewer request member mine) mine) nothing
  | answered intake ticket told reply answer =>
      exact .answered intake ticket told reply
        (answered_kept env parties taken more requests left i session due intake ticket told reply answer fewer)

omit [DecidableEq ι] in
theorem standing_pending (env : Platform) (parties : Parties ι) (taken : List (Intake ι)) (requests : List BlockingRequest) (i : ι)
    (session : Session) (due : List Chunk) (request : BlockingRequest) (standing : Standing env parties taken requests i session due)
    (member : request ∈ requests) (mine : request.Of parties i) :
    ∃ intake told, Awaits env parties taken i session intake request.ticket told ∧ session.down = told ∧ intake.call.query ≠ none ∧
      (∀ other ∈ requests, other.Of parties i → other.ticket = request.ticket) ∧ due = [] := by
  cases standing with
  | idle stage down up alone nothing => exact absurd mine (alone request member)
  | closed stage up alone nothing => exact absurd mine (alone request member)
  | sent call writes stage asks fits up before down alone nothing => exact absurd mine (alone request member)
  | answered intake ticket told reply answer => exact absurd mine (answer.alone request member)
  | pending intake ticket told asked down query own nothing =>
      have same := own request member mine
      subst same
      exact ⟨intake, told, asked, down, query, own, nothing⟩

omit [DecidableEq ι] in
theorem pending_answered (env : Platform) (parties : Parties ι) (taken more : List (Intake ι))
    (requests left : List BlockingRequest) (i : ι)
    (session : Session) (due : List Chunk) (request : BlockingRequest) (reply : Reply)
    (standing : Standing env parties taken requests i session due) (member : request ∈ requests) (mine : request.Of parties i)
    (settles : ∀ nothing side (call : Call), call.query ≠ none → reply.Settles nothing side call) (gone : Alone parties left i) :
    ∃ intake told, Answered env parties (taken ++ more) left i
      { session with down := session.down ++ reply.frames env (parties.isLocal i) request.ticket }
      (due ++ reply.chunks env (parties.isLocal i) request.ticket) intake request.ticket told reply := by
  obtain ⟨intake, told, asked, down, query, _, nothing⟩ :=
    standing_pending env parties taken requests i session due request standing member mine
  have kept := asked_kept env parties taken more i session intake request.ticket told asked
  refine ⟨intake, told, ⟨kept.stage, kept.there, kept.handle, kept.number, kept.up, kept.notice⟩, ?_, ?_, settles _ _ _ query, gone⟩
  · rw [down]
  · rw [nothing, List.nil_append]

omit [DecidableEq ι] in
theorem standing_front (env : Platform) (parties : Parties ι) (taken : List (Intake ι)) (requests : List BlockingRequest) (i : ι)
    (session : Session) (due : List Chunk) (number : Nat) (call : Call) (later : List (Nat × Call))
    (standing : Standing env parties taken requests i session due) (up : session.up = (number, call) :: later) :
    Alone parties requests i ∧ due = [] ∧
      ((call.asks = true ∧ session.stage = .awaiting call ∧ number = session.made - 1 ∧ later = [] ∧ session.down = [] ∧
          (fetches call.command = true → parties.isLocal i = false)) ∨
        (call.asks = false ∧ (call.writes = true ∨ session.stage = .closed) ∧
          Standing env parties taken requests i { session with up := later } due)) := by
  cases standing with
  | idle stage down writes alone nothing =>
      rw [up] at writes
      have first := writes (number, call) List.mem_cons_self
      exact ⟨alone, nothing, Or.inr ⟨writes_silent call first, Or.inl first,
        .idle stage down (fun message member => writes message (List.mem_cons_of_mem _ member)) alone nothing⟩⟩
  | closed stage silent alone nothing =>
      rw [up] at silent
      exact ⟨alone, nothing, Or.inr ⟨silent (number, call) List.mem_cons_self, Or.inr stage,
        .closed stage (fun message member => silent message (List.mem_cons_of_mem _ member)) alone nothing⟩⟩
  | sent asked writes stage asks fits whole before down alone nothing =>
      rw [up] at whole
      cases writes with
      | nil =>
          cases whole
          exact ⟨alone, nothing, Or.inl ⟨asks, stage, rfl, rfl, down, fits⟩⟩
      | cons message writes =>
          rw [List.cons_append] at whole
          cases whole
          have first := before (number, call) List.mem_cons_self
          exact ⟨alone, nothing, Or.inr ⟨writes_silent call first, Or.inl first, .sent asked writes stage asks fits rfl
            (fun message member => before message (List.mem_cons_of_mem _ member)) down alone nothing⟩⟩
  | pending intake ticket told asked down query own nothing =>
      rw [asked.up] at up
      cases up
  | answered intake ticket told reply answer =>
      rw [answer.asked.up] at up
      cases up

def Heard.Returned (env : Platform) (parties : Parties ι) (reply : Reply) (heard : Heard ι) : Prop :=
  (∃ nothing, reply.Settles nothing (parties.isLocal heard.handle) heard.call) ∧
    ∃ read rest, heard.out = some read ∧ heard.call.heard env (parties.ts heard.handle) heard.ticket reply = .ok (some read, rest)

-- The response was sent for the request of this call, and where the call has returned, with an answer to it.
def Heard.Settled (env : Platform) (parties : Parties ι) (taken : List (Intake ι)) (heard : Heard ι) : Prop :=
  ∃ intake, taken[heard.ticket]? = some intake ∧ intake.handle = heard.handle ∧ intake.number = heard.number ∧ intake.call = heard.call ∧
    (heard.out ≠ none → ∃ reply : Reply,
      reply.Settles (intake.FoundNothing env parties.spaceName.chars) (parties.isLocal heard.handle) heard.call ∧
        heard.Returned env parties reply)

def Reply.Gives (tuple : SngTuple) (reply : Reply) : Prop := reply = .found tuple ∨ reply = .fetched tuple

-- The answer with this ticket has been read, or is there for one of these clients.
def System.Placed (env : Platform) (parties : Parties ι) (settled : ι → Prop) (system : System ι) (requests : List BlockingRequest)
    (ticket : Nat) (reply : Reply) : Prop :=
  (∃ heard ∈ system.heard, heard.ticket = ticket ∧ heard.Returned env parties reply) ∨
    ∃ i intake told, settled i ∧
      Answered env parties system.taken requests i (system.sessions i) (system.due parties i) intake ticket told reply

-- Between two messages, what all is there but for the clients that are not settled.
structure System.Orderly (env : Platform) (parties : Parties ι) (settled : ι → Prop) (system : System ι) (space : TsdElement) : Prop where
  whole : ∀ side, system.unfinished side = []
  found : system.daemon.self.spaceTable parties.spaceName.chars = some space
  empty : space.isActivated = false → space.namedQueue = []
  known : ∀ request ∈ space.namedQueueRequests, ∃ i, request.Of parties i
  heard : ∀ heard ∈ system.heard, heard.Settled env parties system.taken
  placed : ∀ ticket command tuple, Event.replied ticket command tuple ∈ space.history →
    ∃ reply : Reply, reply.Gives tuple ∧ system.Placed env parties settled space.namedQueueRequests ticket reply
  standings : ∀ i, settled i → Standing env parties system.taken space.namedQueueRequests i (system.sessions i) (system.due parties i)

-- With at most one local handle, and none that fetches there.
structure System.InStep (env : Platform) (parties : Parties ι) (system : System ι) : Prop where
  reading : ∀ request, system.receiving = some request →
    request.call.writes = true ∧ ∃ space, system.daemon.self.spaceTable parties.spaceName.chars = some space ∧ space.isActivated = true
  space : ∃ space, system.Orderly env parties (fun _ => True) space

theorem session_orderly (env : Platform) (parties : Parties ι) (settled : ι → Prop) (system : System ι) (space : TsdElement) (i : ι)
    (session : Session) (orderly : system.Orderly env parties (fun _ => True) space) (others : ∀ j, j ≠ i → settled j)
    (here : settled i → Standing env parties system.taken space.namedQueueRequests i session (system.due parties i))
    (busy : ∀ intake ticket told reply, ¬ Answered env parties system.taken space.namedQueueRequests i (system.sessions i)
      (system.due parties i) intake ticket told reply) :
    (system.setSession i session).Orderly env parties settled space := by
  refine ⟨orderly.whole, orderly.found, orderly.empty, orderly.known, orderly.heard, fun ticket command tuple event => ?_, fun j told => ?_⟩
  · obtain ⟨reply, gives, placed⟩ := orderly.placed ticket command tuple event
    refine ⟨reply, gives, ?_⟩
    cases placed with
    | inl heard => exact Or.inl heard
    | inr waits =>
        obtain ⟨j, intake, told, _, answer⟩ := waits
        have apart : j ≠ i := fun same => busy intake ticket told reply (same ▸ answer)
        refine Or.inr ⟨j, intake, told, others j apart, ?_⟩
        rw [set_session_other system i j session apart]
        exact answer
  · by_cases apart : j = i
    · subst apart
      rw [set_session_self]
      exact here told
    · rw [set_session_other system i j session apart]
      exact orderly.standings j trivial

theorem passes_local (ts : Ts) (call : Call) (chunks : List Chunk) (passes : call.passes ts = .ok chunks) (some_ : chunks ≠ []) :
    ts.isLocal = true ∧ call.writes = true := by
  cases side : ts.isLocal with
  | true =>
      refine ⟨rfl, ?_⟩
      cases call with
      | tsInPut name data => rfl
      | tsInAdd anonId nonzero data => rfl
      | _ =>
          cases passes
          exact absurd rfl some_
  | false =>
      cases call <;> simp [Call.passes, side] at passes <;> exact absurd passes some_

-- No local client calls ts_out with TsPop or TsPeek.
def Motion.Apart (parties : Parties ι) : Motion ι → Prop
  | .calls i call => fetches call.command = true → parties.isLocal i = false
  | _ => True

theorem call_in_step (env : Platform) (parties : Parties ι) (system next : System ι) (i : ι) (call : Call)
    (inStep : system.InStep env parties) (apart : (Motion.calls i call).Apart parties)
    (taken : system.call parties i call = some next) : next.InStep env parties := by
  obtain ⟨chunks, can, passes, same⟩ := call_cases parties system next i call taken
  have idle := can_call_idle (system.sessions i) call can
  have plain := can_call_plain (system.sessions i) call can
  obtain ⟨space, orderly⟩ := inStep.space
  subst same
  refine ⟨inStep.reading, space, session_orderly env parties _ system space i _ orderly (fun _ _ => trivial) (fun _ => ?_)
    fun intake ticket told reply answer => ?_⟩
  · cases orderly.standings i trivial with
    | closed stage up alone nothing =>
        rw [idle] at stage
        cases stage
    | sent asked writes stage asks fits up before down alone nothing =>
        rw [idle] at stage
        cases stage
    | pending intake ticket told asked down query own nothing =>
        have stage := asked.stage
        rw [idle] at stage
        cases stage
    | answered intake ticket told reply answer =>
        have stage := answer.asked.stage
        rw [idle] at stage
        cases stage
    | idle stage down up alone nothing =>
        have later : ∀ message ∈ (system.sessions i).up ++ [((system.sessions i).made, call)], call.writes = true →
            message.2.writes = true := by
          intro message member writes
          cases List.mem_append.mp member with
          | inl early => exact up message early
          | inr last =>
              rw [List.mem_singleton.mp last]
              exact writes
        have silent : ∀ message ∈ (system.sessions i).up ++ [((system.sessions i).made, call)], call.asks = false →
            message.2.asks = false := by
          intro message member silent
          cases List.mem_append.mp member with
          | inl early => exact writes_silent message.2 (up message early)
          | inr last =>
              rw [List.mem_singleton.mp last]
              exact silent
        have between : call.writes = true → (call.stage chunks).between = true := by
          intro writes
          cases call <;> cases chunks <;> first | rfl | cases writes
        cases call with
        | tsInPut name data => exact .idle (between rfl) down (fun message member => later message member rfl) alone nothing
        | tsInAdd anonId nonzero data => exact .idle (between rfl) down (fun message member => later message member rfl) alone nothing
        | tsClose => exact .closed rfl (fun message member => silent message member rfl) alone nothing
        | tsBcastRead blocking name => cases plain
        | tsOpen mode => exact .sent _ (system.sessions i).up rfl rfl apart rfl up down alone nothing
        | tsOutQuery takesIt blocking name => exact .sent _ (system.sessions i).up rfl rfl apart rfl up down alone nothing
        | tsOutFetch takesIt blocking => exact .sent _ (system.sessions i).up rfl rfl apart rfl up down alone nothing
  · have stage := answer.asked.stage
    rw [idle] at stage
    cases stage

theorem write_in_step (env : Platform) (parties : Parties ι) (system next : System ι) (i : ι) (inStep : system.InStep env parties)
    (taken : system.write i = some next) : next.InStep env parties := by
  obtain ⟨chunk, later, stage, _, same⟩ := write_cases system next i taken
  obtain ⟨space, orderly⟩ := inStep.space
  have filled : ({ system with slot := some ⟨i, (system.sessions i).made - 1, chunk⟩ } : System ι).Orderly env parties (fun _ => True) space :=
    ⟨orderly.whole, orderly.found, orderly.empty, orderly.known, orderly.heard, orderly.placed, orderly.standings⟩
  subst same
  refine ⟨inStep.reading, space, session_orderly env parties _ _ space i _ filled (fun _ _ => trivial) (fun _ => ?_)
    fun intake ticket told reply answer => ?_⟩
  · cases orderly.standings i trivial with
    | closed other up alone nothing =>
        rw [stage] at other
        cases other
    | sent asked writes other asks fits up before down alone nothing =>
        rw [stage] at other
        cases other
    | pending intake ticket told asked down query own nothing =>
        have other := asked.stage
        rw [stage] at other
        cases other
    | answered intake ticket told reply answer =>
        have other := answer.asked.stage
        rw [stage] at other
        cases other
    | idle _ down up alone nothing =>
        refine .idle ?_ down up alone nothing
        dsimp only
        split <;> rfl
  · have other := answer.asked.stage
    rw [show ({ system with slot := some ⟨i, (system.sessions i).made - 1, chunk⟩ } : System ι).sessions i = system.sessions i from rfl,
      stage] at other
    cases other

omit [DecidableEq ι] in
theorem settled_later (env : Platform) (parties : Parties ι) (taken more : List (Intake ι)) (heard : Heard ι)
    (settled : heard.Settled env parties taken) : heard.Settled env parties (taken ++ more) := by
  obtain ⟨intake, there, rest⟩ := settled
  exact ⟨intake, (List.getElem?_append_left (List.getElem?_eq_some_iff.mp there).1).trans there, rest⟩

-- A call skips the TsEnf that says it has to wait.
omit [DecidableEq ι] in
theorem hear_told (env : Platform) (parties : Parties ι) (taken : List (Intake ι)) (i : ι) (session : Session) (intake : Intake ι)
    (ticket : Nat) (told behind : List Sent) (chunks : List Chunk) (out : Option TsOut) (input : Input)
    (asked : Awaits env parties taken i session intake ticket told) (some_ : told ≠ [])
    (heard : intake.call.hear (parties.ts i) chunks ((told ++ behind).map Sent.frame) = .ok (out, input)) :
    out = none ∧ input = ⟨behind.map Sent.frame, false, chunks⟩ ∧ ∀ frame ∈ told, frame.ticket = ticket := by
  obtain ⟨enf, query, blocks⟩ := asked.notice.resolve_left some_
  subst enf
  rw [List.map_append] at heard
  cases (enf_waits env (parties.ts i) intake.call (parties.isLocal i) ticket chunks (behind.map Sent.frame) query blocks).symm.trans heard
  exact ⟨rfl, rfl, reply_tickets env (parties.isLocal i) ticket .enf rfl⟩

theorem heard_orderly (env : Platform) (parties : Parties ι) (one : ∀ i j, parties.isLocal i = true → parties.isLocal j = true → i = j)
    (system : System ι) (space : TsdElement) (i : ι) (entry : Heard ι) (session : Session) (chunks : List Chunk)
    (orderly : system.Orderly env parties (fun _ => True) space) (settled : entry.Settled env parties system.taken)
    (here : Standing env parties system.taken space.namedQueueRequests i session (if parties.isLocal i then chunks else []))
    (goes : ∀ intake ticket told reply,
      Answered env parties system.taken space.namedQueueRequests i (system.sessions i) (system.due parties i) intake ticket told reply →
        (entry.ticket = ticket ∧ entry.Returned env parties reply) ∨
          Answered env parties system.taken space.namedQueueRequests i session (if parties.isLocal i then chunks else []) intake ticket []
            reply) :
    (({ system with
        answers := if parties.isLocal i then chunks else system.answers
        heard := system.heard ++ [entry] } : System ι).setSession i session).Orderly env parties (fun _ => True) space := by
  generalize shape : (({ system with
      answers := if parties.isLocal i then chunks else system.answers
      heard := system.heard ++ [entry] } : System ι).setSession i session) = next
  have mine : next.sessions i = session := by
    subst shape
    exact set_session_self ..
  have others : ∀ j, j ≠ i → next.sessions j = system.sessions j := fun j apart => by
    subst shape
    exact set_session_other _ i j session apart
  have due : next.due parties i = if parties.isLocal i then chunks else [] := by
    subst shape
    cases side : parties.isLocal i with
    | true => simp [System.due, System.setSession, side]
    | false => simp [System.due, side]
  have dues : ∀ j, j ≠ i → next.due parties j = system.due parties j := fun j apart => by
    subst shape
    cases side : parties.isLocal i with
    | false => simp [System.due, System.setSession]
    | true =>
        have remote : parties.isLocal j = false := by
          cases other : parties.isLocal j with
          | false => rfl
          | true => exact absurd (one j i other side) apart
        simp [System.due, remote]
  have taken : next.taken = system.taken := by
    subst shape
    rfl
  have heard : next.heard = system.heard ++ [entry] := by
    subst shape
    rfl
  refine ⟨by subst shape; exact orderly.whole, by subst shape; exact orderly.found, orderly.empty, orderly.known, fun other member => ?_,
    fun ticket command tuple event => ?_, fun j _ => ?_⟩
  · rw [heard] at member
    rw [taken]
    cases List.mem_append.mp member with
    | inl early => exact orderly.heard other early
    | inr last =>
        rw [List.mem_singleton.mp last]
        exact settled
  · obtain ⟨reply, gives, placed⟩ := orderly.placed ticket command tuple event
    refine ⟨reply, gives, ?_⟩
    rw [System.Placed, heard, taken]
    cases placed with
    | inl early =>
        obtain ⟨other, member, rest⟩ := early
        exact Or.inl ⟨other, List.mem_append_left _ member, rest⟩
    | inr waits =>
        obtain ⟨j, intake, told, _, answer⟩ := waits
        by_cases apart : j = i
        · subst apart
          cases goes intake ticket told reply answer with
          | inl returned => exact Or.inl ⟨entry, List.mem_append_right _ List.mem_cons_self, returned⟩
          | inr still =>
              refine Or.inr ⟨j, intake, [], trivial, ?_⟩
              rw [mine, due]
              exact still
        · refine Or.inr ⟨j, intake, told, trivial, ?_⟩
          rw [others j apart, dues j apart]
          exact answer
  · rw [taken]
    by_cases apart : j = i
    · subst apart
      rw [mine, due]
      exact here
    · rw [others j apart, dues j apart]
      exact orderly.standings j trivial

omit [DecidableEq ι] in
theorem stage_after_returned (call : Call) (stage : Stage) (read : TsOut) :
    (call.stageAfter stage (some read)).between = true ∨ call.stageAfter stage (some read) = .closed := by
  cases call with
  | tsOpen mode =>
      rw [Call.stageAfter]
      by_cases zero : read.rt = 0
      · rw [if_pos zero]
        exact Or.inl rfl
      · exact Or.inr (if_neg zero)
  | _ => exact Or.inl rfl

omit [DecidableEq ι] in
theorem answer_heard (env : Platform) (parties : Parties ι) (taken : List (Intake ι)) (requests : List BlockingRequest) (i : ι)
    (session : Session) (due : List Chunk) (intake : Intake ι) (ticket : Nat) (reply : Reply) (out : Option TsOut) (input : Input)
    (answer : Answered env parties taken requests i session due intake ticket [] reply)
    (heard : intake.call.hear (parties.ts i) due (session.down.map Sent.frame) = .ok (out, input)) :
    intake.call.heard env (parties.ts i) ticket reply = .ok (out, input) ∧ input.frames = [] ∧ input.chunks = [] ∧
      ∃ read, out = some read := by
  rw [answer.due, answer.down, List.nil_append] at heard
  obtain ⟨frames, chunks, read, same, _⟩ := settles_heard env (parties.ts i) intake.call ticket _ reply out input answer.settles heard
  exact ⟨heard, frames, chunks, read, same⟩

omit [DecidableEq ι] in
theorem drop_front {α : Type} (front behind : List α) (count : Nat) (same : count = behind.length) :
    (front ++ behind).drop ((front ++ behind).length - count) = behind := by
  rw [same, List.length_append, Nat.add_sub_cancel, List.drop_left]

omit [DecidableEq ι] in
theorem awaits_behind (env : Platform) (parties : Parties ι) (taken : List (Intake ι)) (i : ι) (session : Session) (intake : Intake ι)
    (ticket : Nat) (told behind : List Sent) (asked : Awaits env parties taken i session intake ticket told) :
    Awaits env parties taken i { session with down := behind } intake ticket [] :=
  ⟨asked.stage, asked.there, asked.handle, asked.number, asked.up, Or.inl rfl⟩

theorem hear_in_step (env : Platform) (parties : Parties ι) (one : ∀ i j, parties.isLocal i = true → parties.isLocal j = true → i = j)
    (system next : System ι) (i : ι) (inStep : system.InStep env parties) (taken : system.hear parties i = some next) :
    next.InStep env parties := by
  obtain ⟨call, first, later, out, input, stage, down, heard, same⟩ := hear_cases parties system next i taken
  obtain ⟨space, orderly⟩ := inStep.space
  have due : (if parties.isLocal i then system.answers else []) = system.due parties i := rfl
  rw [due] at heard
  -- what is in tsd_ts_pipe for this client afterwards
  have left : ∀ chunks, input.chunks = chunks → (parties.isLocal i = false → chunks = []) →
      (if parties.isLocal i then input.chunks else []) = chunks := by
    intro chunks same remote
    cases side : parties.isLocal i with
    | true => exact same
    | false => exact (remote side).symm
  have remote : parties.isLocal i = false → system.due parties i = [] := fun side => by rw [System.due, side]; rfl
  -- behind a TsEnf
  have told_ : ∀ (intake : Intake ι) ticket told behind,
      Awaits env parties system.taken i (system.sessions i) intake ticket told → told ≠ [] → (system.sessions i).down = told ++ behind →
        out = none ∧ first.ticket = ticket ∧ (if parties.isLocal i then input.chunks else []) = system.due parties i ∧
          { system.sessions i with
            stage := call.stageAfter (system.sessions i).stage out
            down := (system.sessions i).down.drop ((system.sessions i).down.length - input.frames.length) } =
          { system.sessions i with down := behind } := by
    intro intake ticket told behind asked some_ whole
    cases stage.symm.trans asked.stage
    rw [whole] at heard
    obtain ⟨nothing, read, mine⟩ := hear_told env parties system.taken i (system.sessions i) intake
        ticket told behind _ out input asked some_ heard
    subst nothing read
    refine ⟨rfl, ?_, left _ rfl remote, ?_⟩
    · cases told with
      | nil => exact absurd rfl some_
      | cons head rest =>
          rw [down, List.cons_append] at whole
          cases whole
          exact mine first List.mem_cons_self
    · rw [Call.stageAfter, whole, drop_front told behind _ (List.length_map ..)]
  -- with an answer
  have answer_ : ∀ (intake : Intake ι) ticket reply,
      Answered env parties system.taken space.namedQueueRequests i (system.sessions i) (system.due parties i) intake ticket [] reply →
        first.ticket = ticket ∧ intake.call = call ∧ call.heard env (parties.ts i) ticket reply = .ok (out, input) ∧ input.frames = [] ∧
          input.chunks = [] ∧ ∃ read, out = some read := by
    intro intake ticket reply answer
    cases stage.symm.trans answer.asked.stage
    obtain ⟨same, rest⟩ := answer_heard env parties _ _ i _ _ intake ticket reply out input answer heard
    have whole := answer.down
    rw [down, List.nil_append] at whole
    refine ⟨?_, rfl, same, rest⟩
    exact reply_tickets env (parties.isLocal i) ticket reply (settles_plain _ _ _ _ answer.settles) first
      (by rw [← whole]; exact List.mem_cons_self)
  obtain ⟨settled, here⟩ : (⟨i, (system.sessions i).made - 1, call, first.ticket, out⟩ : Heard ι).Settled env parties system.taken ∧
      Standing env parties system.taken space.namedQueueRequests i
        { system.sessions i with
          stage := call.stageAfter (system.sessions i).stage out
          down := (system.sessions i).down.drop ((system.sessions i).down.length - input.frames.length) }
        (if parties.isLocal i then input.chunks else []) := by
    cases orderly.standings i trivial with
    | idle stays none up alone nothing =>
        rw [none] at down
        cases down
    | closed stays up alone nothing =>
        rw [stage] at stays
        cases stays
    | sent asked writes stays asks fits up before none alone nothing =>
        rw [none] at down
        cases down
    | pending intake ticket told asked whole query own nothing =>
        have some_ : told ≠ [] := by
          rw [← whole, down]
          exact List.cons_ne_nil _ _
        obtain ⟨none, mine, chunks, session⟩ := told_ intake ticket told [] asked some_ (by rw [whole, List.append_nil])
        rw [chunks, session]
        cases stage.symm.trans asked.stage
        exact ⟨⟨intake, mine ▸ asked.there, asked.handle, asked.number, rfl, fun returned => absurd none returned⟩,
          .pending intake ticket [] (awaits_behind env parties system.taken i _ intake ticket told [] asked) rfl query own nothing⟩
    | answered intake ticket told reply answer =>
        have asked := answer.asked
        by_cases none : told = []
        · subst none
          obtain ⟨mine, same, read, drained, chunks, value, some_⟩ := answer_ intake ticket reply answer
          subst same some_
          refine ⟨⟨intake, mine ▸ asked.there, asked.handle, asked.number, rfl,
            fun _ => ⟨reply, answer.settles, ⟨_, answer.settles⟩, value, input, rfl, by rw [mine]; exact read⟩⟩, ?_⟩
          have behind : (system.sessions i).down.drop ((system.sessions i).down.length - input.frames.length) = [] := by
            rw [drained, List.length_nil, Nat.sub_zero, List.drop_length]
          rw [left [] chunks fun _ => rfl, behind]
          cases stage_after_returned intake.call (system.sessions i).stage value with
          | inl between => exact .idle between rfl (by simp [asked.up]) answer.alone rfl
          | inr closed => exact .closed closed (by simp [asked.up]) answer.alone rfl
        · obtain ⟨nothing, mine, chunks, session⟩ := told_ intake ticket told _ asked none answer.down
          rw [chunks, session]
          cases stage.symm.trans asked.stage
          exact ⟨⟨intake, mine ▸ asked.there, asked.handle, asked.number, rfl, fun returned => absurd nothing returned⟩,
            .answered intake ticket [] reply ⟨awaits_behind env parties system.taken i _ intake ticket told _ asked, rfl, answer.due,
              answer.settles, answer.alone⟩⟩
  subst same
  refine ⟨inStep.reading, space, heard_orderly env parties one system space i _ _ input.chunks orderly settled here ?_⟩
  intro intake ticket told reply answer
  by_cases none : told = []
  · subst none
    obtain ⟨mine, same, read, _, _, value, some_⟩ := answer_ intake ticket reply answer
    subst same some_
    exact Or.inl ⟨mine, ⟨_, answer.settles⟩, value, input, rfl, by rw [mine]; exact read⟩
  · obtain ⟨_, _, chunks, session⟩ := told_ intake ticket told _ answer.asked none answer.down
    rw [chunks, session]
    exact Or.inr ⟨awaits_behind env parties system.taken i _ intake ticket told _ answer.asked, rfl, answer.due, answer.settles, answer.alone⟩

def Session.given (env : Platform) (parties : Parties ι) (i : ι) (postings : List Posting) (session : Session) : Session :=
  { session with down := session.down ++ postings.flatMap (Posting.framesFor env (parties.isLocal i) (parties.identity i)) }

def passedOn (env : Platform) (parties : Parties ι) (i : ι) (postings : List Posting) : List Chunk :=
  postings.flatMap (Posting.chunksFor env (parties.isLocal i) (parties.identity i))

omit [DecidableEq ι] in
theorem given_nothing (env : Platform) (parties : Parties ι) (i : ι) (postings : List Posting) (session : Session)
    (none : ∀ posting ∈ postings, ¬ posting.For (parties.isLocal i) (parties.identity i)) :
    session.given env parties i postings = session ∧ passedOn env parties i postings = [] := by
  have frames : postings.flatMap (Posting.framesFor env (parties.isLocal i) (parties.identity i)) = [] :=
    List.flatMap_eq_nil_iff.mpr fun posting member => if_neg (none posting member)
  have chunks : passedOn env parties i postings = [] := List.flatMap_eq_nil_iff.mpr fun posting member => if_neg (none posting member)
  refine ⟨?_, chunks⟩
  rw [Session.given, frames, List.append_nil]

omit [DecidableEq ι] in
theorem handled_session (env : Platform) (parties : Parties ι) (system : System ι) (request : Receiving ι) (handled : Handled)
    (postings : List Posting) (whole : ∀ side, system.unfinished side = []) (clear : ∀ posting ∈ postings, posting.Clear)
    (sends : Sends env handled.sent postings) (i : ι) :
    (system.handled parties request handled).sessions i = (system.sessions i).given env parties i postings := by
  obtain ⟨_, routed⟩ := sends_routed env handled.sent postings clear sends (parties.isLocal i)
  simp only [System.handled, Session.given, whole, routed]

omit [DecidableEq ι] in
theorem handled_due (env : Platform) (parties : Parties ι) (one : ∀ i j, parties.isLocal i = true → parties.isLocal j = true → i = j)
    (system : System ι) (request : Receiving ι) (handled : Handled) (postings : List Posting) (clear : ∀ posting ∈ postings, posting.Clear)
    (addressed : ∀ posting ∈ postings, ∃ i, posting.For (parties.isLocal i) (parties.identity i)) (sends : Sends env handled.sent postings)
    (i : ι) : (system.handled parties request handled).due parties i = system.due parties i ++ passedOn env parties i postings := by
  cases side : parties.isLocal i with
  | true =>
      have chunks := sends_chunks env handled.sent postings clear sends (parties.identity i) fun posting member here => by
        obtain ⟨j, mine, client⟩ := addressed posting member
        rw [client, one i j side (mine.symm.trans here)]
      rw [System.due, System.due, side, passedOn, side]
      simp only [if_true, System.handled, chunks]
  | false =>
      have nothing : passedOn env parties i postings = [] := List.flatMap_eq_nil_iff.mpr fun posting _ => by
        rw [Posting.chunksFor, side, remote_chunks, ite_self]
      rw [nothing, System.due, System.due, side]
      rfl

theorem identity_chars (one two : Identity) (same : one.chars = two.chars) : one = two := by
  obtain ⟨⟨chars, clean⟩, short⟩ := one
  obtain ⟨⟨others, otherClean⟩, otherShort⟩ := two
  cases same
  rfl

omit [DecidableEq ι] in
theorem for_one (parties : Parties ι) (i j : ι) (posting : Posting) (one : posting.For (parties.isLocal i) (parties.identity i))
    (two : posting.For (parties.isLocal j) (parties.identity j)) : i = j :=
  parties.distinct i j (one.1.symm.trans two.1) (identity_chars _ _ (CString.str.inj (one.2.symm.trans two.2)))

omit [DecidableEq ι] in
theorem handled_in_step (env : Platform) (parties : Parties ι) (one : ∀ i j, parties.isLocal i = true → parties.isLocal j = true → i = j)
    (settled : ι → Prop) (system : System ι) (request : Receiving ι) (handled : Handled) (space after : TsdElement) (postings : List Posting)
    (orderly : system.Orderly env parties settled space) (clear : ∀ posting ∈ postings, posting.Clear)
    (addressed : ∀ posting ∈ postings, ∃ i, posting.For (parties.isLocal i) (parties.identity i)) (sends : Sends env handled.sent postings)
    (found : handled.self.spaceTable parties.spaceName.chars = some after) (empty : after.isActivated = false → after.namedQueue = [])
    (known : ∀ pending ∈ after.namedQueueRequests, ∃ i, pending.Of parties i)
    (fewer : ∀ i, settled i → ∀ pending ∈ after.namedQueueRequests, pending.Of parties i → pending ∈ space.namedQueueRequests)
    (calm : ∀ i, settled i → Alone parties space.namedQueueRequests i →
      ∀ posting ∈ postings, ¬ posting.For (parties.isLocal i) (parties.identity i))
    (standings : ∀ i, Standing env parties (system.taken ++ [⟨request.handle, request.number, request.call, system.daemon.self⟩])
      after.namedQueueRequests i ((system.sessions i).given env parties i postings)
      (system.due parties i ++ passedOn env parties i postings))
    (placed : ∀ ticket command tuple, Event.replied ticket command tuple ∈ after.history →
      Event.replied ticket command tuple ∈ space.history ∨ ∃ reply : Reply, reply.Gives tuple ∧ ∃ i intake told,
        Answered env parties (system.taken ++ [⟨request.handle, request.number, request.call, system.daemon.self⟩]) after.namedQueueRequests i
          ((system.sessions i).given env parties i postings) (system.due parties i ++ passedOn env parties i postings) intake ticket told
          reply) :
    (system.handled parties request handled).InStep env parties := by
  have sessions := handled_session env parties system request handled postings orderly.whole clear sends
  have dues := handled_due env parties one system request handled postings clear addressed sends
  refine ⟨(fun _ reading => by cases reading), after, fun side => ?_, found, empty, known,
    fun heard member => settled_later env parties _ _ heard (orderly.heard heard member), fun ticket command tuple event => ?_, fun i _ => ?_⟩
  · obtain ⟨kept, _⟩ := sends_routed env handled.sent postings clear sends side
    simp only [System.handled, orderly.whole, kept]
  · have new : ∀ (reply : Reply) i intake told,
        Answered env parties (system.taken ++ [⟨request.handle, request.number, request.call, system.daemon.self⟩]) after.namedQueueRequests i
          ((system.sessions i).given env parties i postings) (system.due parties i ++ passedOn env parties i postings) intake ticket told
          reply →
        (system.handled parties request handled).Placed env parties (fun _ => True) after.namedQueueRequests ticket reply := by
      intro reply i intake told answer
      refine Or.inr ⟨i, intake, told, trivial, ?_⟩
      rw [sessions, dues]
      exact answer
    cases placed ticket command tuple event with
    | inr here =>
        obtain ⟨reply, gives, i, intake, told, answer⟩ := here
        exact ⟨reply, gives, new reply i intake told answer⟩
    | inl old =>
        obtain ⟨reply, gives, before⟩ := orderly.placed ticket command tuple old
        refine ⟨reply, gives, ?_⟩
        cases before with
        | inl heard => exact Or.inl heard
        | inr waits =>
            obtain ⟨i, intake, told, rest, answer⟩ := waits
            obtain ⟨same, nothing⟩ := given_nothing env parties i postings (system.sessions i) (calm i rest answer.alone)
            have kept := answered_kept env parties system.taken [⟨request.handle, request.number, request.call, system.daemon.self⟩] _
              after.namedQueueRequests i _ _ intake ticket told reply answer (fewer i rest)
            refine new reply i intake told ?_
            rw [same, nothing, List.append_nil]
            exact kept
  · rw [sessions, dues]
    exact standings i

theorem flat_map_one {α β : Type} (list : List α) (each : α → List β) (element : α) (member : element ∈ list) (once : list.Nodup)
    (others : ∀ other ∈ list, other ≠ element → each other = []) : list.flatMap each = each element := by
  obtain ⟨before, after, split⟩ := List.append_of_mem member
  subst split
  have apart := (List.nodup_append.mp once).2.2
  have fresh := (List.nodup_cons.mp (List.nodup_append.mp once).2.1).1
  have front : before.flatMap each = [] := List.flatMap_eq_nil_iff.mpr fun other inside =>
    others other (List.mem_append_left _ inside) (apart other inside element List.mem_cons_self)
  have back : after.flatMap each = [] := List.flatMap_eq_nil_iff.mpr fun other inside =>
    others other (List.mem_append_right _ (List.mem_cons_of_mem _ inside)) fun same => fresh (same ▸ inside)
  rw [List.flatMap_append, front, List.flatMap_cons, back, List.nil_append, List.append_nil]

omit [DecidableEq ι] in
theorem told_answered (env : Platform) (parties : Parties ι) (taken more : List (Intake ι)) (requests answered left : List BlockingRequest)
    (i : ι) (session : Session) (due : List Chunk) (reply : Reply) (request : BlockingRequest)
    (standing : Standing env parties taken requests i session due) (tickets : (requests.map BlockingRequest.ticket).Nodup)
    (once : answered.Nodup) (inside : ∀ request ∈ answered, request ∈ requests)
    (fewer : ∀ request ∈ left, request ∈ requests ∧ request ∉ answered)
    (settles : ∀ nothing side (call : Call), call.query ≠ none → reply.Settles nothing side call) (member : request ∈ answered)
    (mine : request.Of parties i) :
    ∃ intake told, Answered env parties (taken ++ more) left i
      (session.given env parties i (answered.map fun request => request.posting reply))
      (due ++ passedOn env parties i (answered.map fun request => request.posting reply)) intake request.ticket told reply := by
  obtain ⟨_, _, _, _, _, own, _⟩ :=
    standing_pending env parties taken requests i session due request standing (inside request member) mine
  have same : ∀ other ∈ requests, other.Of parties i → other = request := fun other pending also =>
    List.inj_on_of_nodup_map tickets pending (inside request member) (own other pending also)
  have frames := flat_map_one answered
    (fun request => (request.posting reply).framesFor env (parties.isLocal i) (parties.identity i)) request member once
    fun other pending differs => if_neg fun also => differs (same other (inside other pending) also)
  have chunks := flat_map_one answered
    (fun request => (request.posting reply).chunksFor env (parties.isLocal i) (parties.identity i)) request member once
    fun other pending differs => if_neg fun also => differs (same other (inside other pending) also)
  have here : (request.posting reply).For (parties.isLocal i) (parties.identity i) := mine
  rw [Session.given, passedOn, List.flatMap_map, List.flatMap_map, frames, chunks,
    Posting.framesFor, Posting.chunksFor, if_pos here, if_pos here]
  refine pending_answered env parties taken more requests left i session due request reply standing (inside request member) mine settles ?_
  intro other pending also
  obtain ⟨kept, gone⟩ := fewer other pending
  exact gone (same other kept also ▸ member)

omit [DecidableEq ι] in
theorem told_in_step (env : Platform) (parties : Parties ι) (one : ∀ i j, parties.isLocal i = true → parties.isLocal j = true → i = j)
    (system : System ι) (request : Receiving ι) (handled : Handled) (space after : TsdElement) (reply : Reply)
    (answered : List BlockingRequest) (orderly : system.Orderly env parties (fun _ => True) space)
    (tickets : (space.namedQueueRequests.map BlockingRequest.ticket).Nodup) (once : answered.Nodup)
    (inside : ∀ pending ∈ answered, pending ∈ space.namedQueueRequests)
    (fewer : ∀ pending ∈ after.namedQueueRequests, pending ∈ space.namedQueueRequests ∧ pending ∉ answered)
    (sends : Sends env handled.sent (answered.map fun pending => pending.posting reply))
    (found : handled.self.spaceTable parties.spaceName.chars = some after) (empty : after.isActivated = false → after.namedQueue = [])
    (plain : ∀ side, reply.plain side = true)
    (settles : ∀ nothing side (call : Call), call.query ≠ none → reply.Settles nothing side call)
    (history : ∀ ticket command tuple, Event.replied ticket command tuple ∈ after.history →
      Event.replied ticket command tuple ∈ space.history ∨ reply.Gives tuple ∧ ∃ pending ∈ answered, pending.ticket = ticket) :
    (system.handled parties request handled).InStep env parties := by
  have mail : ∀ posting ∈ answered.map (fun pending => pending.posting reply), ∃ pending ∈ answered, posting = pending.posting reply :=
    fun posting member => by
      obtain ⟨pending, told, same⟩ := List.mem_map.mp member
      exact ⟨pending, told, same.symm⟩
  refine handled_in_step env parties one (fun _ => True) system request handled space after _ orderly (fun posting member => ?_)
    (fun posting member => ?_) sends found empty (fun pending member => orderly.known pending (fewer pending member).1)
    (fun _ _ pending member _ => (fewer pending member).1) (fun i _ alone posting member mine => ?_) (fun i => ?_)
    fun ticket command tuple event => ?_
  · obtain ⟨pending, told, same⟩ := mail posting member
    obtain ⟨i, mine⟩ := orderly.known pending (inside pending told)
    exact same ▸ ⟨⟨_, mine.2⟩, plain _⟩
  · obtain ⟨pending, told, same⟩ := mail posting member
    exact same ▸ orderly.known pending (inside pending told)
  · obtain ⟨pending, told, same⟩ := mail posting member
    subst same
    exact alone pending (inside pending told) mine
  · have standing := orderly.standings i trivial
    by_cases told : ∃ pending ∈ answered, pending.Of parties i
    · obtain ⟨pending, member, mine⟩ := told
      obtain ⟨intake, notice, answer⟩ := told_answered env parties system.taken _ _ answered after.namedQueueRequests i _ _ reply pending
        standing tickets once inside fewer settles member mine
      exact .answered intake pending.ticket notice reply answer
    · obtain ⟨same, nothing⟩ := given_nothing env parties i (answered.map fun pending => pending.posting reply) (system.sessions i)
        fun posting member mine => by
          obtain ⟨pending, inside, same⟩ := mail posting member
          subst same
          exact told ⟨pending, inside, mine⟩
      rw [same, nothing, List.append_nil]
      exact standing_kept env parties system.taken _ _ _ i _ _ standing fun pending member _ => (fewer pending member).1
  · cases history ticket command tuple event with
    | inl old => exact Or.inl old
    | inr new =>
        obtain ⟨gives, pending, member, same⟩ := new
        obtain ⟨i, mine⟩ := orderly.known pending (inside pending member)
        obtain ⟨intake, notice, answer⟩ := told_answered env parties system.taken _ _ answered after.namedQueueRequests i _ _ reply pending
          (orderly.standings i trivial) tickets once inside fewer settles member mine
        exact Or.inr ⟨reply, gives, i, intake, notice, same ▸ answer⟩

omit [DecidableEq ι] in
theorem given_own (env : Platform) (parties : Parties ι) (i : ι) (ticket : Nat) (reply : Reply) (session : Session) :
    session.given env parties i [⟨parties.isLocal i, .str (parties.identity i).chars, ticket, reply⟩] =
        { session with down := session.down ++ reply.frames env (parties.isLocal i) ticket } ∧
      passedOn env parties i [⟨parties.isLocal i, .str (parties.identity i).chars, ticket, reply⟩] =
        reply.chunks env (parties.isLocal i) ticket := by
  rw [Session.given, passedOn, List.flatMap_singleton, List.flatMap_singleton, Posting.framesFor, Posting.chunksFor]
  exact ⟨by rw [if_pos ⟨rfl, rfl⟩], if_pos ⟨rfl, rfl⟩⟩

omit [DecidableEq ι] in
theorem own_in_step (env : Platform) (parties : Parties ι) (one : ∀ i j, parties.isLocal i = true → parties.isLocal j = true → i = j)
    (system : System ι) (request : Receiving ι) (handled : Handled) (space after : TsdElement) (ticket : Nat) (reply : Reply)
    (orderly : system.Orderly env parties (fun i => i ≠ request.handle) space) (plain : reply.plain (parties.isLocal request.handle) = true)
    (sends : Sends env handled.sent
      [⟨parties.isLocal request.handle, .str (parties.identity request.handle).chars, ticket, reply⟩])
    (found : handled.self.spaceTable parties.spaceName.chars = some after) (empty : after.isActivated = false → after.namedQueue = [])
    (fewer : ∀ pending ∈ after.namedQueueRequests, pending ∈ space.namedQueueRequests ∨ pending.Of parties request.handle)
    (own : Standing env parties (system.taken ++ [⟨request.handle, request.number, request.call, system.daemon.self⟩])
      after.namedQueueRequests request.handle
      { system.sessions request.handle with
        down := (system.sessions request.handle).down ++ reply.frames env (parties.isLocal request.handle) ticket }
      (system.due parties request.handle ++ reply.chunks env (parties.isLocal request.handle) ticket))
    (history : ∀ number command tuple, Event.replied number command tuple ∈ after.history →
      Event.replied number command tuple ∈ space.history ∨ reply.Gives tuple ∧ ∃ intake told,
        Answered env parties (system.taken ++ [⟨request.handle, request.number, request.call, system.daemon.self⟩]) after.namedQueueRequests
          request.handle
          { system.sessions request.handle with
            down := (system.sessions request.handle).down ++ reply.frames env (parties.isLocal request.handle) ticket }
          (system.due parties request.handle ++ reply.chunks env (parties.isLocal request.handle) ticket) intake number told reply) :
    (system.handled parties request handled).InStep env parties := by
  obtain ⟨session, chunks⟩ := given_own env parties request.handle ticket reply (system.sessions request.handle)
  rw [← session, ← chunks] at own history
  have apart : ∀ i, i ≠ request.handle → ∀ posting : Posting,
      posting ∈ [(⟨parties.isLocal request.handle, .str (parties.identity request.handle).chars, ticket, reply⟩ : Posting)] →
        ¬ posting.For (parties.isLocal i) (parties.identity i) := by
    intro i other posting member mine
    rw [List.mem_singleton.mp member] at mine
    exact other (for_one parties i request.handle _ mine ⟨rfl, rfl⟩)
  have elsewhere : ∀ i, i ≠ request.handle → ∀ pending ∈ after.namedQueueRequests, pending.Of parties i →
      pending ∈ space.namedQueueRequests := by
    intro i other pending member mine
    refine (fewer pending member).resolve_right fun also => ?_
    exact other (for_one parties i request.handle (pending.posting reply) mine also)
  refine handled_in_step env parties one (fun i => i ≠ request.handle) system request handled space after _ orderly (fun posting member => ?_)
    (fun posting member => ?_) sends found empty (fun pending member => ?_) elsewhere (fun i other _ => apart i other) (fun i => ?_)
    fun number command tuple event => ?_
  · rw [List.mem_singleton.mp member]
    exact ⟨⟨_, rfl⟩, plain⟩
  · rw [List.mem_singleton.mp member]
    exact ⟨request.handle, rfl, rfl⟩
  · cases fewer pending member with
    | inl old => exact orderly.known pending old
    | inr mine => exact ⟨request.handle, mine⟩
  · by_cases here : i = request.handle
    · rw [here]
      exact own
    · obtain ⟨same, nothing⟩ := given_nothing env parties i _ (system.sessions i) (apart i here)
      rw [same, nothing, List.append_nil]
      exact standing_kept env parties system.taken _ _ _ i _ _ (orderly.standings i here) (elsewhere i here)
  · cases history number command tuple event with
    | inl old => exact Or.inl old
    | inr new =>
        obtain ⟨gives, intake, told, answer⟩ := new
        exact Or.inr ⟨reply, gives, request.handle, intake, told, answer⟩

-- The daemon is at the request of a client that waits for the answer.
structure Asking (env : Platform) (parties : Parties ι) (system : System ι) (space : TsdElement) (request : Receiving ι) : Prop where
  orderly : system.Orderly env parties (fun i => i ≠ request.handle) space
  stage : (system.sessions request.handle).stage = .awaiting request.call
  number : request.number = (system.sessions request.handle).made - 1
  up : (system.sessions request.handle).up = []
  down : (system.sessions request.handle).down = []
  nothing : system.due parties request.handle = []
  alone : Alone parties space.namedQueueRequests request.handle
  fits : fetches request.call.command = true → parties.isLocal request.handle = false

def Receiving.intake (system : System ι) (request : Receiving ι) : Intake ι :=
  ⟨request.handle, request.number, request.call, system.daemon.self⟩

omit [DecidableEq ι] in
theorem asking_awaits (env : Platform) (parties : Parties ι) (system : System ι) (space : TsdElement) (request : Receiving ι)
    (told : List Sent) (down : List Sent) (asking : Asking env parties system space request)
    (notice : told = [] ∨ told = Reply.enf.frames env (parties.isLocal request.handle) system.taken.length ∧ request.call.query ≠ none ∧
      request.call.blocks = true) :
    Awaits env parties (system.taken ++ [request.intake system]) request.handle { system.sessions request.handle with down := down }
      (request.intake system) system.taken.length told :=
  ⟨asking.stage, List.getElem?_concat_length, rfl, asking.number, asking.up, notice⟩

omit [DecidableEq ι] in
theorem asking_answered (env : Platform) (parties : Parties ι) (system : System ι) (space : TsdElement) (request : Receiving ι)
    (left : List BlockingRequest) (reply : Reply) (asking : Asking env parties system space request)
    (settles : reply.Settles ((request.intake system).FoundNothing env parties.spaceName.chars) (parties.isLocal request.handle) request.call)
    (alone : Alone parties left request.handle) :
    Answered env parties (system.taken ++ [request.intake system]) left request.handle
      { system.sessions request.handle with
        down := (system.sessions request.handle).down ++ reply.frames env (parties.isLocal request.handle) system.taken.length }
      (system.due parties request.handle ++ reply.chunks env (parties.isLocal request.handle) system.taken.length) (request.intake system)
      system.taken.length [] reply := by
  refine ⟨asking_awaits env parties system space request [] _ asking (Or.inl rfl), ?_, ?_, settles, alone⟩
  · rw [asking.down]
  · rw [asking.nothing, List.nil_append]

omit [DecidableEq ι] in
theorem asking_enf (env : Platform) (parties : Parties ι) (system : System ι) (space : TsdElement) (request : Receiving ι)
    (left : List BlockingRequest) (asking : Asking env parties system space request) (query : request.call.query ≠ none)
    (waits : request.call.blocks = true → ∀ pending ∈ left, pending.Of parties request.handle → pending.ticket = system.taken.length)
    (returns : request.call.blocks = false →
      (request.intake system).FoundNothing env parties.spaceName.chars ∧ Alone parties left request.handle) :
    Standing env parties (system.taken ++ [request.intake system]) left request.handle
      { system.sessions request.handle with
        down := (system.sessions request.handle).down ++ Reply.enf.frames env (parties.isLocal request.handle) system.taken.length }
      (system.due parties request.handle ++ Reply.enf.chunks env (parties.isLocal request.handle) system.taken.length) := by
  cases blocks : request.call.blocks with
  | false =>
      obtain ⟨missed, alone⟩ := returns blocks
      exact .answered _ _ [] .enf (asking_answered env parties system space request left .enf asking (.enf query blocks missed) alone)
  | true =>
      refine .pending (request.intake system) system.taken.length _
        (asking_awaits env parties system space request _ _ asking (Or.inr ⟨rfl, query, blocks⟩)) ?_ query (waits blocks) ?_
      · rw [asking.down, List.nil_append]
      · rw [asking.nothing, List.nil_append]
        rfl

omit [DecidableEq ι] in
theorem refused_in_step (env : Platform) (parties : Parties ι) (one : ∀ i j, parties.isLocal i = true → parties.isLocal j = true → i = j)
    (system : System ι) (request : Receiving ι) (space : TsdElement) (owned : system.Owned parties)
    (front : Asking env parties system space request ∧ request.call.asks = true ∨
      system.Orderly env parties (fun i => i ≠ request.handle) space ∧ (system.sessions request.handle).stage = .closed ∧
        (∀ message ∈ (system.sessions request.handle).up, message.2.asks = false) ∧
        Alone parties space.namedQueueRequests request.handle ∧ system.due parties request.handle = [])
    (closed : request.call.command ≠ .tsConnect ∧ space.isActivated = false) :
    (system.handled parties request
      { self := system.daemon.self
        sent := [.frame (parties.isLocal request.handle) system.daemon.clients.length (parties.identity request.handle).chars true,
          sendUint32 env (parties.isLocal request.handle) system.daemon.clients.length TupleCommand.tsEnf.code false]
        input := ⟨[], false, request.chunks⟩ }).InStep env parties := by
  have orderly : system.Orderly env parties (fun i => i ≠ request.handle) space := by
    cases front with
    | inl asks => exact asks.1.orderly
    | inr silent => exact silent.1
  rw [← owned.tickets]
  refine own_in_step env parties one system request _ space space system.taken.length .enf orderly rfl
    (sends_one env _ _ _ rfl (fun _ => rfl) rfl) orderly.found orderly.empty (fun _ member => Or.inl member) ?_
    fun _ _ _ event => Or.inl event
  cases front with
  | inl asks =>
      obtain ⟨asking, asks⟩ := asks
      have query : request.call.query ≠ none := by
        cases same : request.call with
        | tsOpen mode => exact absurd (by rw [same]; rfl) closed.1
        | tsOutQuery takesIt blocking name => exact fun no => by cases no
        | tsOutFetch takesIt blocking => exact fun no => by cases no
        | _ => simp [same, Call.asks] at asks
      refine asking_enf env parties system space request space.namedQueueRequests asking query
        (fun _ pending member mine => absurd mine (asking.alone pending member)) fun _ => ⟨fun here there tuple member => ?_, asking.alone⟩
      cases Option.some.inj (orderly.found.symm.trans there)
      rw [orderly.empty closed.2] at member
      cases member
  | inr silent =>
      obtain ⟨_, stage, up, alone, nothing⟩ := silent
      refine .closed stage up alone ?_
      rw [nothing, List.nil_append]
      rfl

theorem enqueued_requests (args : HandlerArg) (space : TsdElement) (event : Event) (query : CString) (pending : BlockingRequest)
    (member : pending ∈ ((space.record event).enqueue args query).namedQueueRequests) :
    pending ∈ space.namedQueueRequests ∨ isBlocking args.action = true ∧ pending = args.request query := by
  rw [enqueue_requests] at member
  cases List.mem_append.mp member with
  | inl old => exact Or.inl old
  | inr new =>
      split at new
      · rename_i blocks
        exact Or.inr ⟨blocks, List.mem_singleton.mp new⟩
      · cases new

theorem enqueued_replied (args : HandlerArg) (space : TsdElement) (query : CString) (ticket : Nat) (command : TupleCommand)
    (tuple : SngTuple) (queue : List SngTuple)
    (event : Event.replied ticket command tuple ∈ ((space.record (.notFound args.ticket query queue)).enqueue args query).history) :
    Event.replied ticket command tuple ∈ space.history := by
  rw [enqueue_history] at event
  cases List.mem_append.mp event with
  | inl early =>
      cases List.mem_append.mp early with
      | inl old => exact old
      | inr new => cases List.mem_singleton.mp new
  | inr new =>
      split at new
      · cases List.mem_singleton.mp new
      · cases new

omit [DecidableEq ι] in
theorem acted_in_step (env : Platform) (parties : Parties ι) (one : ∀ i j, parties.isLocal i = true → parties.isLocal j = true → i = j)
    (system : System ι) (request : Receiving ι) (space : TsdElement) (acted : Acted) (bytes : Bytes) (rest : List Chunk)
    (front : Asking env parties system space request ∧ request.call.asks = true ∨
      request.call.asks = false ∧ system.Orderly env parties (fun _ => True) space)
    (owned : system.Owned parties) (plain : request.call.plain = true) (own : request.call.writes = true → bytes = request.call.bytes)
    (active : request.call.command = .tsConnect ∨ space.isActivated = true)
    (done : request.call.act env system.daemon.self
      ⟨.str (parties.identity request.handle).chars, request.call.command, parties.isLocal request.handle, system.daemon.clients.length⟩
      space bytes = .ok acted) :
    (system.handled parties request
      { self := { system.daemon.self with
          spaceTable := Function.update system.daemon.self.spaceTable parties.spaceName.chars (some acted.space) }
        sent := acted.sent
        input := ⟨[], false, rest⟩ }).InStep env parties := by
  have found : system.daemon.self.spaceTable parties.spaceName.chars = some space := by
    cases front with
    | inl asks => exact asks.1.orderly.found
    | inr silent => exact silent.2.found
  obtain ⟨other, there, fine⟩ := owned.space
  cases Option.some.inj (there.symm.trans found)
  rw [← owned.tickets] at done
  have left : ({ system.daemon.self with
      spaceTable := Function.update system.daemon.self.spaceTable parties.spaceName.chars (some acted.space) } : Tsd).spaceTable
        parties.spaceName.chars = some acted.space := Function.update_self ..
  obtain ⟨postings, change, sends⟩ := act_change env system.daemon.self
    ⟨.str (parties.identity request.handle).chars, request.call.command, parties.isLocal request.handle, system.taken.length⟩
      space request.call
    bytes acted _ (parties.identity request.handle).chars fine.sound plain rfl rfl active done
  have sized : ∀ tuple ∈ space.namedQueue, tuple.Sized := by
    intro tuple member
    obtain ⟨intake, _, written⟩ := fine.stored tuple member
    exact written_sized intake.call tuple.origin tuple written
  have asking : ∀ query, request.call.query = some query → Asking env parties system space request := by
    intro query asked
    cases front with
    | inl asks => exact asks.1
    | inr silent =>
        have asks := query_asks request.call query asked
        rw [silent.1] at asks
        cases asks
  have running : ∀ query, request.call.query = some query → space.isActivated = true := fun query asked =>
    active.resolve_left (acts_open request.call (Or.inr (by simp [asked])))
  generalize acted.space = after at change left
  cases change with
  | connected after word endpoint opens queue requests history mode bcast active master =>
      obtain ⟨mode, opens⟩ := opens
      rw [master fine.mode] at sends
      have asking : Asking env parties system space request := by
        cases front with
        | inl asks => exact asks.1
        | inr silent =>
            have asks := silent.1
            rw [opens] at asks
            cases asks
      have answer := asking_answered env parties system space request after.namedQueueRequests (.mode word none) asking
        (.mode mode word opens) (by rw [requests]; exact asking.alone)
      refine own_in_step env parties one system request _ space after system.taken.length (.mode word none) asking.orderly rfl sends left
        (fun inactive => ?_) (fun pending member => Or.inl (requests ▸ member)) (.answered _ _ [] _ answer)
        fun _ _ _ event => Or.inl (history ▸ event)
      rw [queue]
      cases active with
      | inl up =>
          rw [inactive] at up
          cases up
      | inr same => exact asking.orderly.empty (same.symm.trans inactive)
  | put tuple written =>
      have writes : request.call.writes = true := by
        cases same : request.call <;> simp [same, Call.written, Call.writes] at written ⊢
      have silent := writes_silent request.call writes
      have open_ := active.resolve_left (acts_open request.call (Or.inl silent))
      have orderly : system.Orderly env parties (fun _ => True) space := by
        cases front with
        | inl asks =>
            rw [silent] at asks
            cases asks.2
        | inr silent => exact silent.2
      rw [own writes] at written
      have small := written_sized request.call _ tuple written
      have distinct := List.Nodup.of_map BlockingRequest.ticket fine.sound.distinct
      have served := Waiters.serve_perm (accepts env tuple) destructive space.namedQueueRequests
      refine told_in_step env parties one system request _ space _ (.found tuple) (offer env space tuple).answered orderly fine.sound.distinct
        (List.nodup_append.mp (served.nodup_iff.mpr distinct)).1 (fun pending member => served.subset (List.mem_append_left _ member))
        (fun pending member => ⟨(put_requests_sublist env space tuple).subset member, fun told => ?_⟩) sends left
        (fun inactive => by rw [open_] at inactive; cases inactive) (fun _ => rfl) (fun _ _ _ query => .found tuple query small)
        fun ticket command other event => ?_
      · have behind : pending ∈ (offer env space tuple).rest := by
          dsimp only at member
          split at member
          · exact List.mem_of_mem_eraseP member
          · exact member
        exact offer_apart env space tuple system.taken.length fine.sound pending pending behind told rfl
      · cases List.mem_append.mp event with
        | inl early =>
            cases List.mem_append.mp early with
            | inl old => exact Or.inl old
            | inr accepted => cases List.mem_singleton.mp accepted
        | inr new =>
            obtain ⟨pending, member, same⟩ := List.mem_map.mp new
            cases same
            exact Or.inr ⟨Or.inl rfl, pending, member, rfl⟩
  | missed query unwanted asked waiting =>
      have asking := asking query asked
      refine own_in_step env parties one system request _ space _ system.taken.length .enf asking.orderly rfl sends left
        (fun inactive => ?_) (fun pending member => ?_) ?_ fun ticket command tuple event =>
          Or.inl (enqueued_replied _ space query _ _ _ _ event)
      · rw [enqueue_active, running query asked] at inactive
        cases inactive
      · refine (enqueued_requests _ space _ query pending member).imp id fun new => ?_
        rw [new.2]
        exact ⟨rfl, rfl⟩
      · refine asking_enf env parties system space request _ asking (by simp [asked]) (fun _ pending member mine => ?_)
            fun returns => ⟨?_, ?_⟩
        · cases enqueued_requests _ space _ query pending member with
          | inl old => exact absurd mine (asking.alone pending old)
          | inr new => rw [new.2]; rfl
        · intro here there tuple member
          cases Option.some.inj (found.symm.trans there)
          rw [show (request.intake system).call = request.call from rfl, query_sought request.call query asked]
          exact unwanted tuple member
        · intro pending member mine
          cases enqueued_requests _ space _ query pending member with
          | inl old => exact asking.alone pending old mine
          | inr new =>
              have blocks := new.1
              rw [blocks_command request.call (query_asks request.call query asked), returns] at blocks
              cases blocks
  | found query before behind tuple asked split wanted skipped =>
      have asking := asking query asked
      have small := sized tuple (by simp [split])
      have asks : request.call.query ≠ none := by simp [asked]
      have settles : (if fetches request.call.command then Reply.fetched tuple else Reply.found tuple).Settles
          ((request.intake system).FoundNothing env parties.spaceName.chars) (parties.isLocal request.handle) request.call := by
        cases fetch : fetches request.call.command with
        | true => exact .fetched tuple asks small (asking.fits fetch)
        | false => exact .found tuple asks small
      have answer := asking_answered env parties system space request space.namedQueueRequests _ asking settles asking.alone
      refine own_in_step env parties one system request _ space _ system.taken.length _ asking.orderly
        (settles_plain _ _ _ _ settles) sends left
        (fun inactive => ?_) (fun pending member => Or.inl member) (.answered _ _ [] _ answer) fun ticket command other event => ?_
      · rw [show space.isActivated = false from inactive] at running
        cases running query asked
      · cases List.mem_append.mp event with
        | inl old => exact Or.inl old
        | inr new =>
            cases List.mem_singleton.mp new
            refine Or.inr ⟨?_, _, _, answer⟩
            cases fetches request.call.command with
            | true => exact Or.inr rfl
            | false => exact Or.inl rfl
  | closed after closes queue requests history mode bcast inactive =>
      have silent : request.call.asks = false := by
        rw [closes]
        rfl
      have orderly : system.Orderly env parties (fun _ => True) space := by
        cases front with
        | inl asks =>
            rw [silent] at asks
            cases asks.2
        | inr silent => exact silent.2
      refine told_in_step env parties one system request _ space after .term space.namedQueueRequests orderly fine.sound.distinct
        (List.Nodup.of_map BlockingRequest.ticket fine.sound.distinct) (fun pending member => member)
        (fun pending member => by rw [requests] at member; cases member) sends left
          (fun _ => queue) (fun _ => rfl) (fun _ _ _ query => .term query)
        fun ticket command tuple event => Or.inl ?_
      rw [history, List.mem_append, List.mem_append] at event
      rcases event with (old | gone) | discarded
      · exact old
      · obtain ⟨_, _, same⟩ := List.mem_map.mp gone
        cases same
      · obtain ⟨_, _, same⟩ := List.mem_map.mp discarded
        cases same

-- handler takes a ts_in while the space is open.
def Motion.TakenOpen (parties : Parties ι) (system : System ι) : Motion ι → Prop
  | .takes i => ∀ number call later, (system.sessions i).up = (number, call) :: later → call.writes = true →
      ∃ space, system.daemon.self.spaceTable parties.spaceName.chars = some space ∧ space.isActivated = true
  | _ => True

theorem taken_front (env : Platform) (parties : Parties ι) (system : System ι) (space : TsdElement) (i : ι) (number : Nat) (call : Call)
    (later : List (Nat × Call)) (chunks : List Chunk) (orderly : system.Orderly env parties (fun _ => True) space)
    (up : (system.sessions i).up = (number, call) :: later) :
    Asking env parties (system.setSession i { system.sessions i with up := later }) space ⟨i, number, call, chunks⟩ ∧ call.asks = true ∨
      call.asks = false ∧ (call.writes = true ∨ (system.sessions i).stage = .closed) ∧
        (system.setSession i { system.sessions i with up := later }).Orderly env parties (fun _ => True) space := by
  have busy : ∀ intake ticket told reply, ¬ Answered env parties system.taken space.namedQueueRequests i (system.sessions i)
      (system.due parties i) intake ticket told reply := by
    intro intake ticket told reply answer
    have none := answer.asked.up
    rw [up] at none
    cases none
  obtain ⟨alone, nothing, front⟩ := standing_front env parties system.taken space.namedQueueRequests i (system.sessions i) _ number call later
    (orderly.standings i trivial) up
  cases front with
  | inl asks =>
      obtain ⟨asks, stage, last, none, drained, fits⟩ := asks
      refine Or.inl ⟨⟨session_orderly env parties _ system space i _ orderly (fun _ other => other) (fun other => absurd rfl other) busy,
        ?_, ?_, ?_, ?_, nothing, alone, fits⟩, asks⟩
      · rw [set_session_self]
        exact stage
      · rw [set_session_self]
        exact last
      · rw [set_session_self]
        exact none
      · rw [set_session_self]
        exact drained
  | inr silent =>
      obtain ⟨silent, kind, standing⟩ := silent
      exact Or.inr ⟨silent, kind, session_orderly env parties _ system space i _ orderly (fun _ _ => trivial) (fun _ => standing) busy⟩

omit [DecidableEq ι] in
theorem closed_front (env : Platform) (parties : Parties ι) (system : System ι) (space : TsdElement) (i : ι)
    (orderly : system.Orderly env parties (fun _ => True) space) (stage : (system.sessions i).stage = .closed) :
    system.Orderly env parties (fun j => j ≠ i) space ∧ (system.sessions i).stage = .closed ∧
      (∀ message ∈ (system.sessions i).up, message.2.asks = false) ∧ Alone parties space.namedQueueRequests i ∧
        system.due parties i = [] := by
  refine ⟨{ orderly with placed := fun ticket command tuple event => ?_, standings := fun j _ => orderly.standings j trivial }, stage, ?_⟩
  · obtain ⟨reply, gives, placed⟩ := orderly.placed ticket command tuple event
    refine ⟨reply, gives, placed.imp id fun waits => ?_⟩
    obtain ⟨j, intake, told, _, answer⟩ := waits
    refine ⟨j, intake, told, fun here => ?_, answer⟩
    have other := answer.asked.stage
    rw [here, stage] at other
    cases other
  · cases orderly.standings i trivial with
    | closed _ up alone nothing => exact ⟨up, alone, nothing⟩
    | idle between down up alone nothing =>
        rw [stage] at between
        cases between
    | sent asked writes other asks fits up before down alone nothing =>
        rw [stage] at other
        cases other
    | pending intake ticket told asked down query own nothing =>
        have other := asked.stage
        rw [stage] at other
        cases other
    | answered intake ticket told reply answer =>
        have other := answer.asked.stage
        rw [stage] at other
        cases other

theorem take_in_step (env : Platform) (parties : Parties ι) (one : ∀ i j, parties.isLocal i = true → parties.isLocal j = true → i = j)
    (system next : System ι) (i : ι) (inStep : system.InStep env parties) (matched : system.Matched parties) (owned : system.Owned parties)
    (open_ : (Motion.takes i).TakenOpen parties system) (taken : system.take env parties i = some next) : next.InStep env parties := by
  obtain ⟨number, call, later, free, up, attempted⟩ := take_cases env parties system next i taken
  obtain ⟨space, orderly⟩ := inStep.space
  have front := taken_front env parties system space i number call later [] orderly up
  have still : (system.setSession i { system.sessions i with up := later }).Owned parties := ⟨owned.tickets, owned.space⟩
  cases attempt_cases env parties _ next _ attempted with
  | inl served =>
      obtain ⟨handled, served, same⟩ := served
      subst same
      cases served with
      | refused closed =>
          have silent : call.writes = false := by
            cases writes : call.writes with
            | false => rfl
            | true =>
                obtain ⟨other, found, active⟩ := open_ number call later up writes
                rw [(closed other found).2] at active
                cases active
          refine refused_in_step env parties one _ ⟨i, number, call, []⟩ space still ?_ (closed space orderly.found)
          refine front.imp id fun quiet => closed_front env parties _ space i quiet.2.2 ?_
          rw [set_session_self]
          exact quiet.2.1.resolve_left (by simp [silent])
      | acted other bytes rest acted found active payload done =>
          cases Option.some.inj (orderly.found.symm.trans found)
          have passes := (matched.sessions i).waiting number call (by simp [up])
          exact acted_in_step env parties one _ ⟨i, number, call, []⟩ space acted bytes rest
            (front.imp id fun quiet => ⟨quiet.1, quiet.2.2⟩) still
            ((matched.sessions i).plain (number, call) (by simp [up]))
            (fun writes => payload_own (parties.ts i) call [] _ rest bytes writes (fun _ => passes) payload) active done
  | inr waits =>
      obtain ⟨_, writes, open_, same⟩ := waits
      subst same
      cases front with
      | inl asks =>
          have silent := writes_silent call writes
          rw [asks.2] at silent
          cases silent
      | inr quiet =>
          obtain ⟨_, _, orderly⟩ := quiet
          refine ⟨fun request reading => ?_, space, orderly.whole, orderly.found, orderly.empty, orderly.known, orderly.heard, orderly.placed,
            orderly.standings⟩
          cases reading
          exact ⟨writes, open_⟩

theorem read_in_step (env : Platform) (parties : Parties ι) (one : ∀ i j, parties.isLocal i = true → parties.isLocal j = true → i = j)
    (system next : System ι) (inStep : system.InStep env parties) (matched : system.Matched parties) (owned : system.Owned parties)
    (taken : system.read env parties = some next) : next.InStep env parties := by
  obtain ⟨request, passed, reading, full, attempted⟩ := read_cases env parties system next taken
  obtain ⟨space, orderly⟩ := inStep.space
  obtain ⟨writes, other, found, active⟩ := inStep.reading request reading
  cases Option.some.inj (orderly.found.symm.trans found)
  have emptied : ({ system with slot := none, receiving := none } : System ι).Orderly env parties (fun _ => True) space :=
    ⟨orderly.whole, orderly.found, orderly.empty, orderly.known, orderly.heard, orderly.placed, orderly.standings⟩
  cases attempt_cases env parties _ next _ attempted with
  | inl served =>
      obtain ⟨handled, served, same⟩ := served
      subst same
      cases served with
      | refused closed =>
          have inactive := (closed space found).2
          rw [active] at inactive
          cases inactive
      | acted other bytes rest acted there active payload done =>
          cases Option.some.inj (found.symm.trans there)
          have fits := matched.current request reading
          have passes := fits.passes
          rw [full, inPipe, if_pos (fits.own passed full), ← List.append_assoc] at passes
          have plain : request.call.plain = true := by
            cases same : request.call <;> simp [same, Call.writes, Call.plain] at writes ⊢
          exact acted_in_step env parties one _ { request with chunks := request.chunks ++ [passed.chunk] } space acted bytes rest
            (Or.inr ⟨writes_silent request.call writes, emptied⟩) ⟨owned.tickets, owned.space⟩ plain
            (fun writes => payload_own (parties.ts request.handle) request.call _ _ rest bytes writes (fun _ => passes) payload) active done
  | inr waits =>
      obtain ⟨_, _, open_, same⟩ := waits
      subst same
      refine ⟨fun other still => ?_, space, emptied.whole, emptied.found, emptied.empty, emptied.known, emptied.heard, emptied.placed,
        emptied.standings⟩
      cases still
      exact ⟨writes, open_⟩

theorem step_in_step (env : Platform) (parties : Parties ι) (one : ∀ i j, parties.isLocal i = true → parties.isLocal j = true → i = j)
    (system next : System ι) (motion : Motion ι) (inStep : system.InStep env parties) (matched : system.Matched parties)
    (owned : system.Owned parties) (apart : motion.Apart parties) (open_ : motion.TakenOpen parties system)
    (taken : system.step env parties motion = some next) : next.InStep env parties := by
  cases motion with
  | calls i call => exact call_in_step env parties system next i call inStep apart taken
  | writes i => exact write_in_step env parties system next i inStep taken
  | takes i => exact take_in_step env parties one system next i inStep matched owned open_ taken
  | reads => exact read_in_step env parties one system next inStep matched owned taken
  | hears i => exact hear_in_step env parties one system next i inStep taken

omit [DecidableEq ι] in
theorem start_in_step (env : Platform) (parties : Parties ι) (self : Tsd) (fresh : self.Fresh parties.spaceName.chars) :
    (System.start self : System ι).InStep env parties := by
  obtain ⟨space, found, _, queue, requests, _, history⟩ := fresh
  refine ⟨(fun _ reading => by cases reading), space, fun _ => rfl, found, fun _ => queue, by simp [requests],
    (fun heard member => by cases member),
    by simp [history], fun i _ => ?_⟩
  refine .idle rfl rfl (fun message member => by cases member) (fun request member => ?_) (ite_self [])
  rw [requests] at member
  cases member

theorem remote_in_turn (parties : Parties ι) (remote : ∀ i, parties.isLocal i = false) (system : System ι)
    (matched : system.Matched parties)
    (motion : Motion ι) : motion.InTurn parties system := by
  cases motion with
  | takes i =>
      intro number call later space passed _ here
      rw [remote i] at here
      cases here
  | writes i =>
      intro request reading
      have here := (matched.current request reading).here
      rw [remote request.handle] at here
      cases here
  | calls i call => trivial
  | reads => trivial
  | hears i => trivial

omit [DecidableEq ι] in
theorem remote_apart (parties : Parties ι) (remote : ∀ i, parties.isLocal i = false) (motion : Motion ι) : motion.Apart parties := by
  cases motion with
  | calls i call => exact fun _ => remote i
  | takes i => trivial
  | writes i => trivial
  | reads => trivial
  | hears i => trivial

omit [DecidableEq ι] in
theorem settled_own (env : Platform) (parties : Parties ι) (taken : List (Intake ι)) (heard : Heard ι)
    (remote : parties.isLocal heard.handle = false)
    (settled : heard.Settled env parties taken) : heard.Own env parties.spaceName.chars taken := by
  obtain ⟨intake, there, handle, number, call, returned⟩ := settled
  refine ⟨intake, there, handle, number, call, fun read some_ one => ?_⟩
  obtain ⟨reply, settles, _, other, rest, same, answer⟩ := returned (by simp [some_])
  cases Option.some.inj (some_.symm.trans same)
  have side : (parties.ts heard.handle).isLocal = parties.isLocal heard.handle := rfl
  rw [← side] at settles
  obtain ⟨_, _, value, is, missed⟩ := settles_heard env (parties.ts heard.handle) heard.call heard.ticket _ reply _ rest settles answer
  cases is
  refine (missed one).resolve_right fun here => ?_
  rw [side, remote] at here
  cases here

-- Every response is the answer to the request of the call that reads it, as long as no ts_in is refused.
theorem responses_answer_their_call (env : Platform) (parties : Parties ι) (remote : ∀ i, parties.isLocal i = false) (self : Tsd)
    (fresh : self.Fresh parties.spaceName.chars) (motions : List (Motion ι)) (final : System ι)
    (open_ : Runs.Meets (System.step env parties) (fun system motion => motion.TakenOpen parties system) (System.start self) motions)
    (ran : Runs.run (System.step env parties) (System.start self) motions = some final) (heard : Heard ι) (member : heard ∈ final.heard) :
    heard.Own env parties.spaceName.chars final.taken := by
  have one : ∀ i j, parties.isLocal i = true → parties.isLocal j = true → i = j := fun i _ here => by
    rw [remote i] at here
    cases here
  have held := Runs.run_guarded_invariant (System.step env parties) (fun system motion => motion.TakenOpen parties system)
    (fun system => system.InStep env parties ∧ system.Matched parties ∧ system.Owned parties)
    (fun system motion next ⟨inStep, matched, owned⟩ taken stepped =>
      ⟨step_in_step env parties one system next motion inStep matched owned (remote_apart parties remote motion) taken stepped,
        step_matched env parties system next motion matched (remote_in_turn parties remote system matched motion) stepped,
        step_owned env parties system next motion matched owned stepped⟩)
    (System.start self) final motions
    ⟨start_in_step env parties self fresh, start_matched parties self, start_owned parties self fresh⟩ open_ ran
  obtain ⟨space, orderly⟩ := held.1.space
  exact settled_own env parties final.taken heard (remote heard.handle) (orderly.heard heard member)

def sampleRemotes : Parties (Fin 3) where
  spaceName := sampleHandles.spaceName
  identity := sampleHandles.identity
  host := sampleHandles.host
  isLocal := fun _ => false
  distinct := fun i j _ same => sampleHandles.distinct i j rfl same

def sampleCaller : Fin 3 := (Fin.last 2).rev
def sampleCloser : Fin 3 := Fin.castSucc (Fin.last 1)
def sampleOpener : Fin 3 := Fin.last 2

-- A put that gets no answer, and a get that finds nothing under the other name.
def sampleDialogue : List (Motion (Fin 3)) :=
  [.calls sampleCaller (.tsInPut sampleName samplePayload), .takes sampleCaller,
    .calls sampleCaller (.tsOutQuery true false otherName), .takes sampleCaller, .hears sampleCaller]

set_option maxRecDepth 20000 in
theorem responses_answer_their_call_sample : ∃ final : System (Fin 3),
    Runs.run (System.step samplePlatform sampleRemotes) (System.start sampleTsd) sampleDialogue = some final ∧
      ∃ heard ∈ final.heard, heard.out.map TsOut.rt = some 1 ∧ heard.Own samplePlatform [115] final.taken := by
  obtain ⟨final, ran, heard, whole, one⟩ : ∃ final : System (Fin 3),
      Runs.run (System.step samplePlatform sampleRemotes) (System.start sampleTsd) sampleDialogue = some final ∧
        ∃ heard, final.heard = [heard] ∧ heard.out.map TsOut.rt = some 1 := ⟨_, rfl, _, rfl, rfl⟩
  have open_ : Runs.Meets (System.step samplePlatform sampleRemotes) (fun system motion => motion.TakenOpen sampleRemotes system)
      (System.start sampleTsd) sampleDialogue :=
    Runs.meets_cons _ _ _ _ _ _ rfl trivial <|
      Runs.meets_cons _ _ _ _ _ _ rfl (fun _ _ _ _ _ => ⟨_, rfl, rfl⟩) <|
        Runs.meets_cons _ _ _ _ _ _ rfl trivial <|
          Runs.meets_cons _ _ _ _ _ _ rfl (fun _ _ _ _ _ => ⟨_, rfl, rfl⟩) <|
            Runs.meets_cons _ _ _ _ _ _ rfl trivial trivial
  have member : heard ∈ final.heard := by simp [whole]
  exact ⟨final, ran, heard, member, one,
    responses_answer_their_call samplePlatform sampleRemotes (fun _ => rfl) sampleTsd sample_fresh
      sampleDialogue final open_ ran heard member⟩

-- The space is closed when the put is taken, and open again, with a tuple of the name, when the get is.
def sampleRefusal : List (Motion (Fin 3)) :=
  [.calls sampleCaller (.tsInPut sampleName samplePayload), .calls sampleCloser .tsClose, .takes sampleCloser, .takes sampleCaller,
    .calls sampleOpener (.tsOpen tsModeMaster), .takes sampleOpener, .hears sampleOpener,
    .calls sampleOpener (.tsInPut sampleName samplePayload), .takes sampleOpener,
    .calls sampleCaller (.tsOutQuery true false sampleName), .takes sampleCaller, .hears sampleCaller]

set_option maxRecDepth 20000 in
-- The get returns 1 with the answer to the put.
theorem response_of_earlier_call : ¬ ∀ (parties : Parties (Fin 3)), (∀ i, parties.isLocal i = false) → ∀ self : Tsd,
    self.Fresh parties.spaceName.chars → ∀ (motions : List (Motion (Fin 3))) (final : System (Fin 3)),
      Runs.run (System.step samplePlatform parties) (System.start self) motions = some final →
        ∀ heard ∈ final.heard, heard.Own samplePlatform parties.spaceName.chars final.taken := by
  intro claim
  obtain ⟨final, ran, first, heard, whole, ticket, handle, number, taken⟩ : ∃ final : System (Fin 3),
      Runs.run (System.step samplePlatform sampleRemotes) (System.start sampleTsd) sampleRefusal = some final ∧
        ∃ first heard, final.heard = [first, heard] ∧ heard.ticket = 1 ∧ heard.handle = 0 ∧ heard.number = 1 ∧
          (final.taken.map fun intake => intake.number) = [0, 0, 0, 1, 1] := ⟨_, rfl, _, _, rfl, rfl, rfl, rfl, rfl⟩
  obtain ⟨intake, there, _, same, _⟩ := claim sampleRemotes (fun _ => rfl) sampleTsd sample_fresh
    sampleRefusal final ran heard (by simp [whole])
  have asked : (final.taken.map fun intake => intake.number)[1]? = some intake.number := by
    rw [List.getElem?_map, ← ticket, there]
    rfl
  rw [taken] at asked
  rw [← Option.some.inj asked, number] at same
  cases same

end Synergy
