import Synergy.Tuple
import Synergy.SharedMemory
import Synergy.Lib.Waiters

set_option autoImplicit false

namespace Synergy

inductive TsMode where
  | master
  | worker
  | p2p
deriving DecidableEq, Repr

inductive TsdMode where
  | direct
  | token
deriving DecidableEq, Repr

-- generic_token_t. A byte of buf1 that no memcpy has written is none.
structure GenericToken where
  id : UInt32
  ttl : Int
  buf1 : List (Option UInt8)
  buf2 : Bytes
  len1 : Nat
  len2 : Nat
deriving DecidableEq

-- What a daemon sends: frames on local_socket or server_socket with ZMQ_SNDMORE or not, chunks into
-- tsd_ts_pipe, tokens to p2pmd, messages to a peer daemon. ticket is ghost: the request being answered.
inductive Out where
  | frame (isLocal : Bool) (ticket : Nat) (bytes : Bytes) (more : Bool)
  | chunk (ticket : Nat) (chunk : Chunk)
  | token (token : GenericToken)
  | peer (endpoint : Bytes) (frames : List Bytes)
deriving DecidableEq

-- Ghost: what has become of the requests and tuples of a space.
inductive Event where
  | accepted (tuple : SngTuple)
  | waits (request : BlockingRequest)
  | replied (ticket : Nat) (command : TupleCommand) (tuple : SngTuple)
  | notFound (ticket : Nat) (query : CString) (stored : List SngTuple)
  | terminated (request : BlockingRequest)
  | discarded (tuple : SngTuple)
deriving DecidableEq

-- tsd_element_t. directEndpoint is the char array, history is ghost.
structure TsdElement where
  name : Bytes
  directEndpoint : Bytes
  namedQueue : List SngTuple
  bcastQueue : List SngTuple
  namedQueueRequests : List BlockingRequest
  bcastQueueRequests : List BlockingRequest
  connectRequests : List BlockingRequest
  expectQueue : List Bytes
  tsMode : TsMode
  tsdMode : TsdMode
  isActivated : Bool
  isRequested : Bool
  history : List Event

def TsdElement.record (space : TsdElement) (event : Event) : TsdElement :=
  { space with history := space.history ++ [event] }

-- tsd_t without its sockets. The key of the table is the name of the space.
structure Tsd where
  endpoint : Bytes
  replicationFactor : UInt32
  spaceTable : Bytes → Option TsdElement

-- The handle of the first element for which the comparator yields 0.
def zlistxFind {α : Type} (comparator : α → Except Stop Int) : List α → Except Stop (Option Nat)
  | [] => .ok none
  | element :: later => do
      let order ← comparator element
      if order = 0 then return some 0
      let handle ← zlistxFind comparator later
      return handle.map (· + 1)

-- Without a handle the first element is detached.
def zlistxDetach {α : Type} (list : List α) (handle : Option Nat) : Option α × List α :=
  (list[handle.getD 0]?, list.eraseIdx (handle.getD 0))

def sendUint32 (env : Platform) (isLocal : Bool) (ticket : Nat) (word : UInt32) (more : Bool) : Out :=
  .frame isLocal ticket (p2pmSendUint32 env.host word) more

def sendUint64 (env : Platform) (isLocal : Bool) (ticket : Nat) (word : UInt64) (more : Bool) : Out :=
  .frame isLocal ticket (p2pmSendUint64 env.host word) more

def sendStr (env : Platform) (isLocal : Bool) (ticket : Nat) (str : CString) (more : Bool) : Except Stop (List Out) := do
  let chars ← str.chars
  let (len, body) := p2pmSendStr env.host chars
  return [.frame isLocal ticket len true, .frame isLocal ticket body more]

def sendItemOut (ticket : Nat) (data : Bytes) : Except Stop (List Out) := do
  let chunks ← sendItem data
  return chunks.map (Out.chunk ticket)

-- The identity frame that a ROUTER socket routes the rest of the message by.
def sendClientid (isLocal : Bool) (ticket : Nat) (clientid : CString) : Except Stop Out := do
  let chars ← clientid.chars
  return .frame isLocal ticket chars true

def handleNamedQueueReadResponse (env : Platform) (isLocal : Bool) (ticket : Nat) (tuple : SngTuple) :
    Except Stop (List Out) := do
  let ack := sendUint32 env isLocal ticket TupleCommand.tsAck.code true
  let name ← sendStr env isLocal ticket tuple.name (!isLocal)
  if isLocal then
    let item ← sendItemOut ticket tuple.data
    return ack :: name ++ item
  else
    return ack :: name ++ [sendUint64 env false ticket (UInt64.ofNat tuple.data.length) true,
      .frame false ticket tuple.data false]

def handleNamedQueueFetchResponse (env : Platform) (isLocal : Bool) (ticket : Nat) (tuple : SngTuple) :
    Except Stop (List Out) := do
  if tuple.name = .null ∧ tuple.anonId ≠ 0 then
    let anon := sendUint32 env isLocal ticket TupleCommand.tsAnon.code true
    if isLocal then
      let item ← sendItemOut ticket tuple.data
      return anon :: sendUint32 env isLocal ticket tuple.anonId false :: item
    else
      return [anon, sendUint32 env isLocal ticket tuple.anonId true,
        sendUint64 env isLocal ticket (UInt64.ofNat tuple.data.length) true, .frame false ticket tuple.data false]
  else
    let ack := sendUint32 env isLocal ticket TupleCommand.tsAck.code true
    if isLocal then
      let name ← sendStr env isLocal ticket tuple.name true
      let item ← sendItemOut ticket tuple.data
      return ack :: name ++ item
    else
      let name ← sendStr env isLocal ticket tuple.name true
      return ack :: name ++ [sendUint64 env isLocal ticket (UInt64.ofNat tuple.data.length) true,
        .frame isLocal ticket tuple.data false]

def handleBcastQueueReadResponse (env : Platform) (isLocal : Bool) (ticket : Nat) (tuple : SngTuple) :
    Except Stop (List Out) := do
  let ack := sendUint32 env isLocal ticket TupleCommand.tsAck.code true
  if isLocal then
    let name ← sendStr env isLocal ticket tuple.name false
    let item ← sendItemOut ticket tuple.data
    return ack :: name ++ item
  else
    let name ← sendStr env isLocal ticket tuple.name true
    return ack :: name ++ [sendUint64 env isLocal ticket (UInt64.ofNat tuple.data.length) true,
      .frame isLocal ticket tuple.data false]

-- dest[++len1] = 'N' is written where the name then goes; the byte before it is never written.
def generateNamedTupleTokenStr (namespaceName tupleName : Bytes) : List (Option UInt8) :=
  (namespaceName ++ [0]).map some ++ [none] ++ (tupleName ++ [0]).map some

def generateAnonTupleTokenStr (env : Platform) (namespaceName : Bytes) (anonId : UInt32) : List (Option UInt8) :=
  (namespaceName ++ [0]).map some ++ [none] ++ (store env.host 8 anonId.toNat).map some

structure Matching where
  requests : List BlockingRequest
  needAppend : Bool
  sent : List Out
  history : List Event

-- A destructive request consumes the tuple.
def consumes (command : TupleCommand) : Bool := command = .tsPopBlocking ∨ command = .tsGetBlocking

def matchReply (env : Platform) (tuple : SngTuple) (matched : BlockingRequest) : Except Stop (Option (List Out)) :=
  match matched.command with
  | .tsGetBlocking | .tsReadBlocking | .tsPopBlocking | .tsPeekBlocking => do
      let reply ← handleNamedQueueReadResponse env matched.isLocal matched.ticket tuple
      return some reply
  | .tsBCastReadBlocking => do
      let reply ← handleBcastQueueReadResponse env matched.isLocal matched.ticket tuple
      return some reply
  | _ => return none

-- The do loop of match_blocking_requests up to its break, or its return -1: then the Bool is false.
-- Every round detaches a request, so rounds = length + 1 is never used up.
def matchLoop (env : Platform) (tuple : SngTuple) : Nat → Matching → Except Stop (Matching × Bool)
  | 0, _ => .error .diverges
  | rounds + 1, state => do
      let search : BlockingRequest :=
        { name := tuple.name, clientid := .null, command := .tsNone, extra := tuple.anonId.toNat, isLocal := false, ticket := 0 }
      let handle ← zlistxFind (fun request => blckcmpStr env request search) state.requests
      match handle with
      | none => return (state, true)
      | some found =>
          match zlistxDetach state.requests (some found) with
          | (none, _) => throw .undefined
          | (some matched, requests) =>
              -- the tuple has been consumed already, and one more request that wants it goes too
              if !state.needAppend then return ({ state with requests := requests }, true)
              let clientid ← sendClientid matched.isLocal matched.ticket matched.clientid
              let reply ← matchReply env tuple matched
              match reply with
              | none => return ({ state with requests := requests, sent := state.sent ++ [clientid] }, false)
              | some frames =>
                  matchLoop env tuple rounds
                    { requests := requests
                      needAppend := !consumes matched.command
                      sent := state.sent ++ clientid :: frames
                      history := state.history ++ [.replied matched.ticket matched.command tuple] }

def replicationToken (env : Platform) (self : Tsd) (space : TsdElement) (tuple : SngTuple) (action : TupleCommand) :
    Except Stop GenericToken := do
  -- .len2 is initialised twice and .len1 never
  let buf1 ←
    if action = .tsAdd then pure (generateAnonTupleTokenStr env space.name tuple.anonId)
    else do
      let name ← tuple.name.chars
      pure (generateNamedTupleTokenStr space.name name)
  return { id := 3, ttl := self.replicationFactor.toInt32.toInt, buf1 := buf1, buf2 := self.endpoint ++ [0], len1 := 0,
           len2 := self.endpoint.length + 1 }

-- op_queue and _queue, by the write action.
def TsdElement.opQueue (space : TsdElement) : TupleCommand → Option (List BlockingRequest)
  | .tsPut | .tsAdd => some space.namedQueueRequests
  | .tsBCastWrite => some space.bcastQueueRequests
  | _ => none

def TsdElement.setOpQueue (space : TsdElement) (action : TupleCommand) (requests : List BlockingRequest) : TsdElement :=
  if action = .tsBCastWrite then { space with bcastQueueRequests := requests }
  else { space with namedQueueRequests := requests }

def TsdElement.addEnd (space : TsdElement) (action : TupleCommand) (tuple : SngTuple) : TsdElement :=
  if action = .tsBCastWrite then { space with bcastQueue := space.bcastQueue ++ [tuple] }
  else { space with namedQueue := space.namedQueue ++ [tuple] }

def matchBlockingRequests (env : Platform) (self : Tsd) (space : TsdElement) (tuple : SngTuple) (action : TupleCommand) :
    Except Stop (Int × TsdElement × List Out) := do
  match space.opQueue action with
  | none => return (1, space, [])
  | some requests =>
      let (state, finished) ← matchLoop env tuple (requests.length + 1)
        { requests := requests, needAppend := true, sent := [], history := space.history }
      let matched := { space.setOpQueue action state.requests with history := state.history }
      if !finished then return (-1, matched, state.sent)
      if !state.needAppend then return (0, matched, state.sent)
      if space.tsMode = .p2p then
        let token ← replicationToken env self space tuple action
        return (0, matched.addEnd action tuple, state.sent ++ [.token token])
      return (0, matched.addEnd action tuple, state.sent)

end Synergy
