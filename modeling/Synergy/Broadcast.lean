import Synergy.Closing

set_option autoImplicit false

namespace Synergy

-- The message of ts_bcast_write.
def tsBcastWrite (ts : Ts) (name : Name) (data : Payload) : List Frame :=
  initRequest ts ++ sendUint32Frame ts.host TupleCommand.tsBCastWrite.code true ::
    (sendStrFrames ts.host name (!ts.isLocal) ++ tsInData ts data)

-- A ts_bcast_write whose payload arrives, for a local client through the pipe.
structure Broadcast where
  client : Identity
  ts : Ts
  name : Name
  data : Payload
  chunks : List Chunk
  later : List Chunk
  passed : ts.isLocal = true → recvItem chunks = .ok (data.bytes, later)

def Broadcast.round (broadcast : Broadcast) : Round :=
  .message broadcast.ts.isLocal
    { frames := ⟨broadcast.client.chars, true⟩ :: tsBcastWrite broadcast.ts broadcast.name broadcast.data
      rcvmore := false
      chunks := broadcast.chunks }

def Arrival.round (arrival : Arrival) : Round := .message arrival.ts.isLocal arrival.input

-- A listener, and the rounds it has been through, each with the number of messages before it.
structure Audience where
  listener : Listener
  past : List (Nat × Round)

def Audience.start (endpoint : Bytes) (replicationFactor : UInt32) (spaces : List SngNamespace) : Audience :=
  { listener := Listener.start endpoint replicationFactor spaces, past := [] }

def Audience.step (env : Platform) (spaceName : Bytes) (audience : Audience) (round : Round) : Option Audience :=
  (audience.listener.step env spaceName round).map fun next =>
    { listener := next, past := audience.past ++ [(audience.listener.messages, round)] }

-- The round writes a broadcast tuple to the space while it is active.
structure Audience.Writes (spaceName : Bytes) (audience : Audience) (round : Round) (broadcast : Broadcast) (space : TsdElement) :
    Prop where
  round : round = broadcast.round
  here : broadcast.ts.tsname.chars = spaceName
  there : audience.listener.self.spaceTable spaceName = some space
  active : space.isActivated = true

-- The round asks the space for a broadcast tuple while it is active.
structure Audience.Reads (spaceName : Bytes) (audience : Audience) (round : Round) (reader : Arrival) (name : Name)
    (space : TsdElement) : Prop where
  round : round = reader.round
  call : ∃ blocking, reader.call = .tsBcastRead blocking name
  here : reader.ts.tsname.chars = spaceName
  there : audience.listener.self.spaceTable spaceName = some space
  active : space.isActivated = true

def bcastAnswer (env : Platform) (reader : Arrival) (ticket : Nat) (tuple : SngTuple) : Except Stop (List Out) := do
  let reply ← handleBcastQueueReadResponse env reader.ts.isLocal ticket tuple
  return .frame reader.ts.isLocal ticket reader.client.chars true :: reply

-- A broadcast tuple is stored as it was written, and every reader that waits for it gets it. A waiting request stands for the
-- message it was made from.
def Audience.Stores (env : Platform) (spaceName : Bytes) (audience : Audience) (round : Round) : Prop :=
  ∀ broadcast space, audience.Writes spaceName round broadcast space →
    ∃ next after tuple now, audience.step env spaceName round = some next ∧ next.listener.self.spaceTable spaceName = some after ∧
      next.listener.sent = audience.listener.sent ++ now ∧ tuple.name = .str broadcast.name.chars ∧
      tuple.data = broadcast.data.bytes ∧ after.bcastQueue = space.bcastQueue ++ [tuple] ∧
      ∀ request ∈ space.bcastQueueRequests, ∀ (reader : Arrival) blocking name, (request.ticket, reader.round) ∈ audience.past →
        reader.call = .tsBcastRead blocking name → nameCmp env name.chars broadcast.name.chars = 0 →
        ∃ message, bcastAnswer env reader request.ticket tuple = .ok message ∧ message <:+: now

-- A reader gets the first broadcast tuple it wants, and the tuple stays.
def Audience.Shows (env : Platform) (spaceName : Bytes) (audience : Audience) (round : Round) : Prop :=
  ∀ reader name space before tuple later, audience.Reads spaceName round reader name space →
    space.bcastQueue = before ++ tuple :: later → wants env reader.call.command (.str name.chars) tuple = true →
    (∀ other ∈ before, wants env reader.call.command (.str name.chars) other = false) →
    ∃ next after message, audience.step env spaceName round = some next ∧ next.listener.self.spaceTable spaceName = some after ∧
      after.bcastQueue = space.bcastQueue ∧ bcastAnswer env reader audience.listener.messages tuple = .ok message ∧
      next.listener.sent = audience.listener.sent ++ message

-- Whatever the message, the tuple added would be read from the bytes of a function.
theorem bcast_write_undefined (env : Platform) (args : HandlerArg) (space : TsdElement) (ts : Ts) (name : Name) (data : Payload)
    (chunks : List Chunk) (place : args.isLocal = ts.isLocal) (result : Acted × Input) :
    bcastQueueWriteHandler env args space
      ⟨sendStrFrames ts.host name (!ts.isLocal) ++ tsInData ts data, true, chunks⟩ ≠ .ok result := by
  intro done
  obtain ⟨⟨chars, middle⟩, received, done⟩ := bind_ok _ _ _ done
  obtain ⟨sameName, sameInput⟩ := recv_str_frames ts.host env.host name _ true _ chunks chars middle received
  subst sameName sameInput
  cases here : ts.isLocal with
  | true =>
      simp only [place, here, if_true] at done
      obtain ⟨item, _, done⟩ := bind_ok _ _ _ done
      cases done
  | false =>
      simp only [place, here, tsInData, Bool.not_false, Bool.false_eq_true, if_false] at done
      obtain ⟨⟨len, last⟩, arrived, done⟩ := bind_ok _ _ _ done
      rw [recv_uint64_frame] at arrived
      cases arrived
      dsimp only at done
      rw [if_neg (payload_len_nonzero data)] at done
      obtain ⟨frame, _, done⟩ := bind_ok _ _ _ done
      cases done

theorem write_never_taken (env : Platform) (spaceName : Bytes) (audience : Audience) (round : Round) (broadcast : Broadcast)
    (space : TsdElement) (writes : audience.Writes spaceName round broadcast space) (next : Audience) :
    audience.step env spaceName round ≠ some next := by
  intro taken
  obtain ⟨listened, listener, _⟩ := Option.map_eq_some_iff.mp taken
  have there := writes.there
  rw [← writes.here] at there
  rw [writes.round] at listener
  simp only [Broadcast.round, Listener.step] at listener
  split at listener
  · rename_i handled done
    have identity := buffer_string_short 50 broadcast.client.chars broadcast.client.clean broadcast.client.short
    have reached := handler_dispatches env audience.listener.self broadcast.ts _ _ audience.listener.messages .tsBCastWrite true
      broadcast.ts.tsname.chars
      (sendStrFrames broadcast.ts.host broadcast.name (!broadcast.ts.isLocal) ++ tsInData broadcast.ts broadcast.data) false
      broadcast.chunks space identity (Or.inl rfl) there (Or.inr writes.active)
    rw [tsBcastWrite, initRequest, List.cons_append, List.cons_append, List.nil_append, reached] at done
    obtain ⟨result, dispatched, _⟩ := bind_ok _ _ _ done
    exact bcast_write_undefined env _ space broadcast.ts broadcast.name broadcast.data broadcast.chunks rfl result dispatched
  · cases listener

def Audience.NothingStored (spaceName : Bytes) (audience : Audience) : Prop :=
  ∀ space, audience.listener.self.spaceTable spaceName = some space → space.bcastQueue = []

theorem left_bcast_empty (env : Platform) (before after : TsdElement) (sent : List Out) (left : Left env before after sent)
    (empty : before.bcastQueue = []) : after.bcastQueue = [] := by
  cases left with
  | active is bcast => exact bcast empty
  | shut bare told => exact bare.bcast
  | same inactive named bcast namedRequests bcastRequests => exact bcast.trans empty

theorem rounded_bcast_empty (env : Platform) (spaceName : Bytes) (self next : Tsd) (sent : List Out)
    (empty : ∀ space, self.spaceTable spaceName = some space → space.bcastQueue = []) (rounded : Rounded env self next sent) :
    ∀ space, next.spaceTable spaceName = some space → space.bcastQueue = [] := by
  intro space found
  cases rounded with
  | unchanged same => exact empty space (by rw [← same]; exact found)
  | reached name before after there left same =>
      rw [same] at found
      cases update_at _ name spaceName after space found with
      | inl here =>
          rw [← here.2]
          exact left_bcast_empty env before after sent left (empty before (here.1 ▸ there))
      | inr elsewhere => exact empty space elsewhere.2

theorem taken_bcast_empty (spaceName : Bytes) (self next : Tsd) (tk : GenericToken) (tokens : List GenericToken)
    (empty : ∀ space, self.spaceTable spaceName = some space → space.bcastQueue = []) (taken : Taken self tk next tokens) :
    ∀ space, next.spaceTable spaceName = some space → space.bcastQueue = [] := by
  intro space found
  cases taken with
  | activates name element waiting id named there =>
      cases update_at _ name spaceName _ space found with
      | inl here =>
          rw [← here.2]
          exact empty element (here.1 ▸ there)
      | inr elsewhere => exact empty space elsewhere.2
  | decomissions name element id named there =>
      cases update_at _ name spaceName _ space found with
      | inl here =>
          rw [← here.2]
          exact empty element (here.1 ▸ there)
      | inr elsewhere => exact empty space elsewhere.2
  | _ => exact empty space found

theorem nothing_stored_step (env : Platform) (spaceName : Bytes) (audience next : Audience) (round : Round)
    (nothing : audience.NothingStored spaceName) (taken : audience.step env spaceName round = some next) :
    next.NothingStored spaceName := by
  obtain ⟨listened, listener, same⟩ := Option.map_eq_some_iff.mp taken
  subst same
  cases round with
  | message isLocal input =>
      simp only [Listener.step] at listener
      split at listener
      · rename_i handled done
        cases listener
        exact rounded_bcast_empty env spaceName _ _ _ nothing (handler_rounded env _ isLocal _ input handled done)
      · cases listener
  | token stray tk =>
      simp only [Listener.step] at listener
      split at listener
      · rename_i self sent done
        cases listener
        exact taken_bcast_empty spaceName _ _ tk _ nothing (token_handler_taken env stray _ self tk sent done)
      · cases listener

-- In a run of any messages and tokens every broadcast tuple is stored as written, wakes its readers and is shown to each later one,
-- exactly as long as nobody writes one.
theorem broadcasts_served (env : Platform) (endpoint : Bytes) (replicationFactor : UInt32) (spaces : List SngNamespace)
    (spaceName : Bytes) (rounds : List Round) :
    Runs.Obeys (Audience.step env spaceName)
        (fun audience round => audience.Stores env spaceName round ∧ audience.Shows env spaceName round)
        (Audience.start endpoint replicationFactor spaces) rounds ↔
      Runs.Obeys (Audience.step env spaceName)
        (fun audience round => ¬ ∃ broadcast space, audience.Writes spaceName round broadcast space)
        (Audience.start endpoint replicationFactor spaces) rounds := by
  apply Runs.obeys_iff_obeys (Audience.step env spaceName) _ _ (Audience.NothingStored spaceName)
  · intro audience round nothing
    constructor
    · rintro ⟨stores, _⟩ ⟨broadcast, space, writes⟩
      obtain ⟨next, _, _, _, taken, _⟩ := stores broadcast space writes
      exact write_never_taken env spaceName audience round broadcast space writes next taken
    · intro unwritten
      refine ⟨fun broadcast space writes => absurd ⟨broadcast, space, writes⟩ unwritten, ?_⟩
      intro reader name space before tuple later reads split _ _
      rw [nothing space reads.there] at split
      exact absurd split.symm (by simp)
  · exact fun audience round next nothing taken => nothing_stored_step env spaceName audience next round nothing taken
  · intro space found
    obtain ⟨config, _, _, same⟩ := created_space endpoint replicationFactor spaces spaceName space found
    rw [same]
    rfl

def sampleBroadcast : Broadcast where
  client := sampleClient
  ts := { host := .big, isLocal := true, tsname := sampleSpaceName }
  name := sampleName
  data := samplePayload
  chunks := [sampleChunk]
  later := []
  passed := fun _ => rfl

theorem broadcast_not_stored :
    ¬ Runs.Obeys (Audience.step samplePlatform [115])
      (fun audience round => audience.Stores samplePlatform [115] round ∧ audience.Shows samplePlatform [115] round)
      (Audience.start [101] 1 sampleSpaces) [sampleBroadcast.round] := by
  intro obeys
  have writes : (Audience.start [101] 1 sampleSpaces).Writes [115] sampleBroadcast.round sampleBroadcast
      (createElement { name := [115], directEndpoint := List.replicate 256 0, tsMode := .master, tsdMode := .direct }) :=
    ⟨rfl, rfl, rfl, rfl⟩
  obtain ⟨next, _, _, _, taken, _⟩ := obeys.1.1 sampleBroadcast _ writes
  exact write_never_taken samplePlatform [115] _ _ sampleBroadcast _ writes next taken

def Out.clientFrame : Out → Option Frame
  | .frame _ _ bytes more => some ⟨bytes, more⟩
  | _ => none

-- The frames of one message that a client gets: the ROUTER socket takes off the identity.
def clientFrames (sent : List Out) : List Frame := (sent.filterMap Out.clientFrame).tail

-- What ts_bcast_read leaves behind: its value, tuple->len, and what it has received into tuple->data.
structure TsBcastRead where
  rt : Int
  len : UInt64
  data : Option Bytes

-- A zmq_recv over a word: a frame that is shorter leaves the rest of its bytes as they were.
def recvUint64Over (host : HostOrder) (old : UInt64) (input : Input) : Except Stop (UInt64 × Input) := do
  let (frame, input) ← zmqRecv input
  let bytes := frame.take 8 ++ (store host 8 old.toNat).drop frame.length
  return (UInt64.ofNat (ntohll host (load host bytes)), input)

-- _restart of ts_bcast_read, once for every response it goes back for. len is what the caller has left in the tuple.
def tsBcastReadReply (ts : Ts) (blocking : Bool) (len : UInt64) (chunks : List Chunk) :
    List Frame → Except Stop (TsBcastRead × Input)
  | [] => .error .blocked
  | frame :: later => do
      let input : Input := { frames := later, rcvmore := frame.more, chunks := chunks }
      let cmd ← p2pmRecvUint32 ts.host frame.bytes
      if cmd = TupleCommand.tsTerm.code then return ({ rt := -1, len := len, data := none }, input)
      else if cmd = TupleCommand.tsEnf.code then
        if blocking then tsBcastReadReply ts blocking len chunks later
        else return ({ rt := 1, len := len, data := none }, input)
      else if cmd = TupleCommand.tsAck.code then
        if ts.isLocal then
          let (data, input) ← recvItemPipe input
          return ({ rt := 0, len := UInt64.ofNat data.length, data := some data }, input)
        else
          let (len, input) ← recvUint64Over ts.host len input
          if len = 0 then return ({ rt := 1, len := len, data := none }, input)
          let (data, input) ← zmqRecv input
          return ({ rt := 0, len := len, data := some (data.take len.toNat) }, input)
      else return ({ rt := 1, len := len, data := none }, input)

-- The caller of ts_bcast_read, and the daemon that it reaches.
structure BcastReader where
  client : Identity
  ts : Ts
  blocking : Bool
  name : Name
  len : UInt64

def BcastReader.arrival (reader : BcastReader) : Arrival :=
  { client := reader.client, ts := reader.ts, call := .tsBcastRead reader.blocking reader.name, chunks := [] }

-- The whole call: the request to the daemon, and its answer back.
def BcastReader.call (env : Platform) (daemon : Tsd) (ticket : Nat) (reader : BcastReader) : Except Stop (TsBcastRead × Input) := do
  let handled ← handler env daemon reader.ts.isLocal ticket reader.arrival.input
  tsBcastReadReply reader.ts reader.blocking reader.len (chunksIn handled.sent) (clientFrames handled.sent)

def BcastReader.wants (env : Platform) (reader : BcastReader) (tuple : SngTuple) : Bool :=
  Synergy.wants env reader.arrival.call.command (.str reader.name.chars) tuple

-- The two sides agree on a broadcast read.
structure BcastReader.Agrees (env : Platform) (daemon : Tsd) (ticket : Nat) (reader : BcastReader) (space : TsdElement) : Prop where
  mode : reader.arrival.call.command = .tsBCastReadBlocking ↔ reader.blocking = true
  hit : ∀ before tuple later, space.bcastQueue = before ++ tuple :: later → reader.wants env tuple = true →
    (∀ other ∈ before, reader.wants env other = false) →
    ∃ rest, reader.call env daemon ticket =
      .ok ({ rt := 0, len := UInt64.ofNat tuple.data.length, data := some tuple.data }, rest)
  miss : reader.blocking = false → (∀ tuple ∈ space.bcastQueue, reader.wants env tuple = false) →
    ∃ read rest, reader.call env daemon ticket = .ok (read, rest) ∧ read.rt = 1
  drained : ∀ read rest, reader.call env daemon ticket = .ok (read, rest) → rest.frames = []

-- The commands are exchanged.
theorem bcast_read_disagrees (env : Platform) (daemon : Tsd) (ticket : Nat) (reader : BcastReader) (space : TsdElement) :
    ¬ reader.Agrees env daemon ticket space := by
  intro agrees
  have mode := agrees.mode
  cases blocking : reader.blocking with
  | true =>
      rw [BcastReader.arrival, blocking] at mode
      have asked : TupleCommand.tsBCastRead = .tsBCastReadBlocking := mode.mpr rfl
      cases asked
  | false =>
      rw [BcastReader.arrival, blocking] at mode
      have waits : false = true := mode.mp rfl
      cases waits

def sampleReader : BcastReader where
  client := sampleClient
  ts := { host := .big, isLocal := true, tsname := sampleSpaceName }
  blocking := true
  name := sampleName
  len := 0

theorem blocking_read_sent_as_other : ¬ sampleReader.Agrees samplePlatform (tsdCreate [101] 1 sampleSpaces) 0
    (createElement { name := [115], directEndpoint := List.replicate 256 0, tsMode := .master, tsdMode := .direct }) := by
  intro agrees
  have asked : TupleCommand.tsBCastRead = .tsBCastReadBlocking := agrees.mode.mpr rfl
  cases asked

end Synergy
