import Synergy.Delivery

set_option autoImplicit false

namespace Synergy

-- What ts_out does with one response: none where it goes back to _handle_reply.
def tsOutResponse (ts : Ts) (block : Bool) (chunks : List Chunk) : List Frame → Except Stop (Option TsOut × Input)
  | [] => .error .blocked
  | frame :: later => do
      let input : Input := { frames := later, rcvmore := frame.more, chunks := chunks }
      let response ← p2pmRecvUint32 ts.host frame.bytes
      if response = TupleCommand.tsAck.code then
        let (name, input) ← recvStr ts.host input
        let (out, input) ← tsOutData ts (some name) none input
        return (some out, input)
      else if response = TupleCommand.tsAnon.code then
        let (anonId, input) ← recvUint32 ts.host input
        let (out, input) ← tsOutData ts none (some anonId) input
        return (some out, input)
      else if response = TupleCommand.tsEnf.code ∧ block then return (none, input)
      else if response = TupleCommand.tsTerm.code then
        return (some { rt := -1, name := none, anonId := none, data := none }, input)
      else return (some { rt := 1, name := none, anonId := none, data := none }, input)

theorem ts_out_reply_response (ts : Ts) (block : Bool) (chunks : List Chunk) (frames : List Frame) :
    tsOutReply ts block chunks frames =
      tsOutResponse ts block chunks frames >>= fun read =>
        match read.1 with
        | some out => .ok (out, read.2)
        | none => tsOutReply ts block chunks read.2.frames := by
  cases frames with
  | nil => rfl
  | cons frame later =>
      rw [tsOutReply, tsOutResponse]
      cases word : p2pmRecvUint32 ts.host frame.bytes with
      | error stop => rfl
      | ok response =>
          simp only [bind, Except.bind]
          by_cases ack : response = TupleCommand.tsAck.code
          · simp only [ack, if_true]
            cases recvStr ts.host ⟨later, frame.more, chunks⟩ with
            | error stop => rfl
            | ok received =>
                simp only
                cases tsOutData ts (some received.1) none received.2 <;> rfl
          · by_cases anon : response = TupleCommand.tsAnon.code
            · simp only [anon, if_true]
              cases recvUint32 ts.host ⟨later, frame.more, chunks⟩ with
              | error stop => rfl
              | ok received =>
                  simp only
                  cases tsOutData ts none (some received.1) received.2 <;> rfl
            · simp only [ack, anon, if_false]
              split
              · rfl
              · split <;> rfl

-- ts_open on a space in master mode: the mode comes back. On _socket anything but that of the master fails.
def tsOpenReply (ts : Ts) (chunks : List Chunk) (frames : List Frame) : Except Stop (Option TsOut × Input) := do
  let (mode, input) ← recvUint32 ts.host { frames := frames, rcvmore := false, chunks := chunks }
  return (some { rt := if ts.isLocal ∧ mode ≠ tsModeMaster then 1 else 0, name := none, anonId := none, data := none }, input)

def Call.hear (ts : Ts) (chunks : List Chunk) (frames : List Frame) : Call → Except Stop (Option TsOut × Input)
  | .tsOpen _ => tsOpenReply ts chunks frames
  | .tsOutQuery _ block _ => tsOutResponse ts block chunks frames
  | .tsOutFetch _ block => tsOutResponse ts block chunks frames
  | _ => .error .blocked

-- The handles that clients have of one space. A ROUTER socket has no two peers with one identity.
structure Parties (ι : Type) where
  spaceName : SpaceName
  identity : ι → Identity
  host : ι → HostOrder
  isLocal : ι → Bool
  distinct : ∀ i j, isLocal i = isLocal j → identity i = identity j → i = j

-- Where the caller of a handle stands: between two calls, in send_item with the chunks still to write, in front of
-- _handle_reply or the mode ts_open gets, behind ts_close.
inductive Stage where
  | idle
  | passing (chunks : List Chunk)
  | awaiting (call : Call)
  | closed

-- up: the messages on their way to the daemon, by the number of the call. down: the frames on their way back.
structure Session where
  stage : Stage
  made : Nat
  up : List (Nat × Call)
  down : List Sent

-- A chunk in ts_tsd_pipe; whose it is is ghost.
structure Passed (ι : Type) where
  handle : ι
  number : Nat
  chunk : Chunk

-- A message in handler, and the chunks that recv_item has read for it.
structure Receiving (ι : Type) where
  handle : ι
  number : Nat
  call : Call
  chunks : List Chunk

-- Ghost: a message the daemon has handled, and the spaces as it found them.
structure Intake (ι : Type) where
  handle : ι
  number : Nat
  call : Call
  before : Tsd

-- Ghost: a response that a call has read, the ticket it was sent for and what the call returned then.
structure Heard (ι : Type) where
  handle : ι
  number : Nat
  call : Call
  ticket : Nat
  out : Option TsOut

-- unfinished is what the daemon has sent on a socket of a message that goes on. answers is what is in tsd_ts_pipe: where it
-- holds more than a chunk, the daemon still waits to write the others. taken (by ticket) and heard are ghost.
structure System (ι : Type) where
  daemon : Daemon
  unfinished : Bool → List Sent
  receiving : Option (Receiving ι)
  slot : Option (Passed ι)
  answers : List Chunk
  sessions : ι → Session
  taken : List (Intake ι)
  heard : List (Heard ι)

variable {ι : Type} [DecidableEq ι]

def System.start (self : Tsd) : System ι where
  daemon := { self := self, clients := [], sent := [] }
  unfinished := fun _ => []
  receiving := none
  slot := none
  answers := []
  sessions := fun _ => { stage := .idle, made := 0, up := [], down := [] }
  taken := []
  heard := []

def Parties.ts (parties : Parties ι) (i : ι) : Ts :=
  { host := parties.host i, isLocal := parties.isLocal i, tsname := parties.spaceName }

def Sent.frame (sent : Sent) : Frame := ⟨sent.bytes, sent.more⟩

-- A ROUTER socket takes the identity off a message.
def routedTo (identity : Identity) (messages : List (List Sent)) : List Sent :=
  messages.flatMap fun message =>
    match message with
    | [] => []
    | head :: rest => if head.bytes = identity.chars then rest else []

def System.setSession (system : System ι) (i : ι) (session : Session) : System ι :=
  { system with sessions := Function.update system.sessions i session }

@[simp] theorem set_session_self (system : System ι) (i : ι) (session : Session) : (system.setSession i session).sessions i = session :=
  Function.update_self ..

theorem set_session_other (system : System ι) (i j : ι) (session : Session) (other : j ≠ i) :
    (system.setSession i session).sessions j = system.sessions j := Function.update_of_ne other _ _

def Receiving.arrival (parties : Parties ι) (request : Receiving ι) : Arrival :=
  { client := parties.identity request.handle, ts := parties.ts request.handle, call := request.call, chunks := request.chunks }

def System.handled (parties : Parties ι) (system : System ι) (request : Receiving ι) (handled : Handled) : System ι :=
  let received := fun side => Multipart.receive Sent.more (system.unfinished side) (framesOn side handled.sent)
  { system with
    daemon :=
      { self := handled.self
        clients := system.daemon.clients ++ [parties.identity request.handle]
        sent := system.daemon.sent ++ handled.sent }
    unfinished := fun side => (received side).2
    receiving := none
    answers := system.answers ++ chunksIn handled.sent
    sessions := fun i =>
      { system.sessions i with
        down := (system.sessions i).down ++ routedTo (parties.identity i) (received (parties.isLocal i)).1 }
    taken := system.taken ++ [⟨request.handle, request.number, request.call, system.daemon.self⟩] }

-- handler goes on until it waits for a chunk that is not there.
def System.attempt (env : Platform) (parties : Parties ι) (system : System ι) (request : Receiving ι) : Option (System ι) :=
  match handler env system.daemon.self (parties.isLocal request.handle) system.daemon.clients.length
      (request.arrival parties).input with
  | .ok handled => some (system.handled parties request handled)
  | .error .blocked => some { system with receiving := some request }
  | .error _ => none

-- A caller makes a call, write_shared_memory passes a chunk, the daemon receives a message or reads a chunk, a caller
-- receives a response.
inductive Motion (ι : Type) where
  | calls (i : ι) (call : Call)
  | writes (i : ι)
  | takes (i : ι)
  | reads
  | hears (i : ι)

def Call.stage (chunks : List Chunk) (call : Call) : Stage :=
  match call, chunks with
  | .tsInPut _ _, [] | .tsInAdd _ _ _, [] => .idle
  | .tsInPut _ _, chunks | .tsInAdd _ _ _, chunks => .passing chunks
  | .tsClose, _ => .closed
  | call, _ => .awaiting call

-- ts_open comes first on its sockets. The broadcast calls are left out.
def Session.canCall (session : Session) (call : Call) : Bool :=
  match session.stage, call with
  | .idle, .tsOpen _ => session.made = 0
  | .idle, .tsBcastRead _ _ => false
  | .idle, _ => true
  | _, _ => false

def System.call (parties : Parties ι) (system : System ι) (i : ι) (call : Call) : Option (System ι) :=
  let session := system.sessions i
  match session.canCall call, call.passes (parties.ts i) with
  | true, .ok chunks =>
      some (system.setSession i
        { session with stage := call.stage chunks, made := session.made + 1, up := session.up ++ [(session.made, call)] })
  | _, _ => none

def System.write (system : System ι) (i : ι) : Option (System ι) :=
  let session := system.sessions i
  match session.stage, system.slot with
  | .passing (chunk :: later), none =>
      some ({ system with slot := some ⟨i, session.made - 1, chunk⟩ }.setSession i
        { session with stage := if later = [] then .idle else .passing later })
  | _, _ => none

def System.take (env : Platform) (parties : Parties ι) (system : System ι) (i : ι) : Option (System ι) :=
  let session := system.sessions i
  match system.receiving, session.up with
  | none, (number, call) :: later =>
      (system.setSession i { session with up := later }).attempt env parties ⟨i, number, call, []⟩
  | _, _ => none

def System.read (env : Platform) (parties : Parties ι) (system : System ι) : Option (System ι) :=
  match system.receiving, system.slot with
  | some request, some passed =>
      { system with slot := none, receiving := none }.attempt env parties
        { request with chunks := request.chunks ++ [passed.chunk] }
  | _, _ => none

-- A ts_open that fails closes its socket.
def Call.stageAfter (stage : Stage) (call : Call) : Option TsOut → Stage
  | none => stage
  | some out =>
      match call with
      | .tsOpen _ => if out.rt = 0 then .idle else .closed
      | _ => .idle

def System.hear (parties : Parties ι) (system : System ι) (i : ι) : Option (System ι) :=
  let session := system.sessions i
  match session.stage, session.down with
  | .awaiting call, first :: _ =>
      match call.hear (parties.ts i) (if parties.isLocal i then system.answers else []) (session.down.map Sent.frame) with
      | .error _ => none
      | .ok (out, input) =>
          some ({ system with
            answers := if parties.isLocal i then input.chunks else system.answers
            heard := system.heard ++ [(⟨i, session.made - 1, call, first.ticket, out⟩ : Heard ι)] }.setSession i
              { session with
                stage := call.stageAfter session.stage out
                down := session.down.drop (session.down.length - input.frames.length) })
  | _, _ => none

def System.step (env : Platform) (parties : Parties ι) (system : System ι) : Motion ι → Option (System ι)
  | .calls i call => system.call parties i call
  | .writes i => system.write i
  | .takes i => system.take env parties i
  | .reads => system.read env parties
  | .hears i => system.hear parties i

theorem call_cases (parties : Parties ι) (system next : System ι) (i : ι) (call : Call) (taken : system.call parties i call = some next) :
    ∃ chunks, (system.sessions i).canCall call = true ∧ call.passes (parties.ts i) = .ok chunks ∧
      next = system.setSession i
        { system.sessions i with
          stage := call.stage chunks
          made := (system.sessions i).made + 1
          up := (system.sessions i).up ++ [((system.sessions i).made, call)] } := by
  unfold System.call at taken
  dsimp only at taken
  split at taken
  · rename_i chunks can passes
    exact ⟨chunks, can, passes, (Option.some.inj taken).symm⟩
  · cases taken

theorem can_call_idle (session : Session) (call : Call) (can : session.canCall call = true) : session.stage = .idle := by
  cases stage : session.stage with
  | idle => rfl
  | passing chunks => simp [Session.canCall, stage] at can
  | awaiting other => simp [Session.canCall, stage] at can
  | closed => simp [Session.canCall, stage] at can

theorem write_cases (system next : System ι) (i : ι) (taken : system.write i = some next) :
    ∃ chunk later, (system.sessions i).stage = .passing (chunk :: later) ∧ system.slot = none ∧
      next = { system with slot := some ⟨i, (system.sessions i).made - 1, chunk⟩ }.setSession i
        { system.sessions i with stage := if later = [] then .idle else .passing later } := by
  unfold System.write at taken
  dsimp only at taken
  split at taken
  · rename_i chunk later stage free
    exact ⟨chunk, later, stage, free, (Option.some.inj taken).symm⟩
  · cases taken

theorem take_cases (env : Platform) (parties : Parties ι) (system next : System ι) (i : ι)
    (taken : system.take env parties i = some next) :
    ∃ number call later, system.receiving = none ∧ (system.sessions i).up = (number, call) :: later ∧
      (system.setSession i { system.sessions i with up := later }).attempt env parties ⟨i, number, call, []⟩ = some next := by
  unfold System.take at taken
  dsimp only at taken
  split at taken
  · rename_i number call later free up
    exact ⟨number, call, later, free, up, taken⟩
  · cases taken

omit [DecidableEq ι] in
theorem read_cases (env : Platform) (parties : Parties ι) (system next : System ι) (taken : system.read env parties = some next) :
    ∃ request passed, system.receiving = some request ∧ system.slot = some passed ∧
      { system with slot := none, receiving := none }.attempt env parties
        { request with chunks := request.chunks ++ [passed.chunk] } = some next := by
  unfold System.read at taken
  split at taken
  · rename_i request passed current full
    exact ⟨request, passed, current, full, taken⟩
  · cases taken

theorem hear_cases (parties : Parties ι) (system next : System ι) (i : ι) (taken : system.hear parties i = some next) :
    ∃ call first later out input, (system.sessions i).stage = .awaiting call ∧ (system.sessions i).down = first :: later ∧
      call.hear (parties.ts i) (if parties.isLocal i then system.answers else []) ((system.sessions i).down.map Sent.frame) =
        .ok (out, input) ∧
      next = { system with
        answers := if parties.isLocal i then input.chunks else system.answers
        heard := system.heard ++ [(⟨i, (system.sessions i).made - 1, call, first.ticket, out⟩ : Heard ι)] }.setSession i
          { system.sessions i with
            stage := call.stageAfter (system.sessions i).stage out
            down := (system.sessions i).down.drop ((system.sessions i).down.length - input.frames.length) } := by
  unfold System.hear at taken
  dsimp only at taken
  split at taken
  · rename_i call first later stage down
    split at taken
    · cases taken
    · rename_i out input read
      exact ⟨call, first, later, out, input, stage, down, read, (Option.some.inj taken).symm⟩
  · cases taken

end Synergy
