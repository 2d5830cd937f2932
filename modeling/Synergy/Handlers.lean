import Synergy.Space
import Synergy.Socket
import Mathlib.Logic.Function.Basic

set_option autoImplicit false

namespace Synergy

-- struct _tsd_handler_arg, and the ghost ticket of the request.
structure HandlerArg where
  clientid : CString
  action : TupleCommand
  isLocal : Bool
  ticket : Nat

-- What a handler returns (none where it ends without a value), the space it leaves and what it has sent.
structure Acted where
  rt : Option Int
  space : TsdElement
  sent : List Out

def safeReturn (acted : Acted) (input : Input) : Except Stop (Acted × Input) := do
  let input ← if acted.rt = some 1 then tsFail input else pure input
  return (acted, input)

def writeToken (self : Tsd) (buf1 : List (Option UInt8)) (len2 : Nat) : Out :=
  .token { id := 2, ttl := -1, buf1 := buf1, buf2 := self.endpoint ++ [0], len1 := buf1.length, len2 := len2 }

-- The part of named_queue_write_handler after a TsPut has its tuple.
def putTuple (env : Platform) (self : Tsd) (args : HandlerArg) (space : TsdElement) (name data : Bytes) :
    Except Stop Acted := do
  let tuple : SngTuple := { name := .str name, anonId := 0, data := data, origin := args.ticket }
  let space := space.record (.accepted tuple)
  if space.tsMode = .p2p then
    let token := writeToken self (generateNamedTupleTokenStr space.name name) (self.endpoint.length + 1)
    return { rt := some 0, space := { space with namedQueue := space.namedQueue ++ [tuple] }, sent := [token] }
  else
    let (_, space, sent) ← matchBlockingRequests env self space tuple args.action
    return { rt := some 0, space := space, sent := sent }

-- The part after a TsAdd has its tuple. received is what zmq_recv returned for the data of a remote one.
def addTuple (env : Platform) (self : Tsd) (args : HandlerArg) (space : TsdElement) (anonId : UInt32) (data : Bytes)
    (received : Nat) : Except Stop Acted := do
  let tuple : SngTuple := { name := .null, anonId := anonId, data := data, origin := args.ticket }
  let space := space.record (.accepted tuple)
  if !args.isLocal ∧ space.tsMode = .p2p then
    -- strlen(self->endpoint + 1)
    let token := writeToken self (generateAnonTupleTokenStr env space.name anonId) (self.endpoint.drop 1).length
    return { rt := some received, space := space, sent := [token] }
  else
    let (rt, space, sent) ← matchBlockingRequests env self space tuple args.action
    return { rt := some rt, space := space, sent := sent }

def namedQueueWriteHandler (env : Platform) (self : Tsd) (args : HandlerArg) (space : TsdElement) (input : Input) :
    Except Stop (Acted × Input) := do
  if args.action = .tsPut then
    let (name, input) ← recvStr env.host input
    if args.isLocal then
      let (data, input) ← recvItemPipe input
      let acted ← putTuple env self args space name data
      safeReturn acted input
    else
      let (len, input) ← recvUint64 env.host input
      if len = 0 then safeReturn { rt := some 1, space := space, sent := [] } input
      else
        let (data, _, input) ← recvData len input
        let acted ← putTuple env self args space name data
        safeReturn acted input
  else
    let (anonId, input) ← recvUint32 env.host input
    if anonId = 0 then safeReturn { rt := some 1, space := space, sent := [] } input
    else if args.isLocal then
      let (data, input) ← recvItemPipe input
      let acted ← addTuple env self args space anonId data 0
      return (acted, input)
    else
      let (len, input) ← recvUint64 env.host input
      let (data, received, input) ← recvData len input
      let acted ← addTuple env self args space anonId data received
      safeReturn acted input

def isBlocking (action : TupleCommand) : Bool :=
  action = .tsGetBlocking ∨ action = .tsReadBlocking ∨ action = .tsPopBlocking ∨ action = .tsPeekBlocking

-- A blocking request keeps the name and the client id for later.
def TsdElement.enqueue (space : TsdElement) (args : HandlerArg) (name : CString) : TsdElement :=
  let request : BlockingRequest :=
    { name := name, clientid := args.clientid, command := args.action, extra := 0, isLocal := args.isLocal, ticket := args.ticket }
  if isBlocking args.action then
    { space with namedQueueRequests := space.namedQueueRequests ++ [request], history := space.history ++ [.waits request] }
  else space

def sendEnf (env : Platform) (args : HandlerArg) : Out := sendUint32 env args.isLocal args.ticket TupleCommand.tsEnf.code false

def fetchTuple (env : Platform) (args : HandlerArg) (space : TsdElement) : Except Stop Acted := do
  let clientid ← sendClientid args.isLocal args.ticket args.clientid
  match space.namedQueue with
  | [] =>
      let missed := space.record (.notFound args.ticket .null [])
      return { rt := some 2, space := missed.enqueue args .null, sent := [clientid, sendEnf env args] }
  | first :: later => do
      let isPop := args.action = .tsPop ∨ args.action = .tsPopBlocking
      let reply ← handleNamedQueueFetchResponse env args.isLocal args.ticket first
      let left := { space with namedQueue := if isPop then later else first :: later }
      return { rt := some 0, space := left.record (.replied args.ticket args.action first), sent := clientid :: reply }

def namedQueueFetchHandler (env : Platform) (args : HandlerArg) (space : TsdElement) (input : Input) :
    Except Stop (Acted × Input) := do
  let acted ← fetchTuple env args space
  safeReturn acted input

-- The part of named_queue_read_handler after the name has been received.
def readTuple (env : Platform) (args : HandlerArg) (space : TsdElement) (name : Bytes) : Except Stop Acted := do
  let search : SngTuple := { name := .str name, anonId := 0, data := [], origin := 0 }
  let clientid ← sendClientid args.isLocal args.ticket args.clientid
  if !args.isLocal ∧ !space.isActivated then
    return { rt := some 1, space := space, sent := [clientid, sendEnf env args] }
  else
    let isGet := args.action = .tsGet ∨ args.action = .tsGetBlocking
    let handle ← zlistxFind (fun tuple => tplcmp env tuple search) space.namedQueue
    match handle.bind fun found => space.namedQueue[found]? with
    | none =>
        let missed := space.record (.notFound args.ticket (.str name) space.namedQueue)
        return { rt := some 2, space := missed.enqueue args (.str name), sent := [clientid, sendEnf env args] }
    | some result => do
        let order ← tplcmp env search result
        if order ≠ 0 then throw .aborted
        let reply ← handleNamedQueueReadResponse env args.isLocal args.ticket result
        let left := { space with namedQueue := if isGet then (zlistxDetach space.namedQueue handle).2 else space.namedQueue }
        return { rt := some 0, space := left.record (.replied args.ticket args.action result), sent := clientid :: reply }

def namedQueueReadHandler (env : Platform) (args : HandlerArg) (space : TsdElement) (input : Input) :
    Except Stop (Acted × Input) := do
  let (name, input) ← recvStr env.host input
  let acted ← readTuple env args space name
  safeReturn acted input

-- The tuple added is read from the bytes of the function recv, and on the remote path the data is
-- received over the pointer to it.
def bcastQueueWriteHandler (env : Platform) (args : HandlerArg) (space : TsdElement) (input : Input) :
    Except Stop (Acted × Input) := do
  let (_, input) ← recvStr env.host input
  if args.isLocal then
    let _ ← recvItemPipe input
    throw .undefined
  else
    let (len, input) ← recvUint64 env.host input
    if len = 0 then safeReturn { rt := some 2, space := space, sent := [] } input
    else
      let _ ← zmqRecv input
      throw .undefined

-- The request added on a miss keeps a name and a client id that are freed before the handler returns.
def bcastReadTuple (env : Platform) (args : HandlerArg) (space : TsdElement) (name : Bytes) : Except Stop Acted := do
  let clientid ← sendClientid args.isLocal args.ticket args.clientid
  if !space.isActivated then
    return { rt := some 1, space := space, sent := [clientid, sendEnf env args] }
  else
    let search : SngTuple := { name := .str name, anonId := 0, data := [], origin := 0 }
    let handle ← zlistxFind (fun tuple => tplcmp env tuple search) space.bcastQueue
    match handle.bind fun found => space.bcastQueue[found]? with
    | none =>
        let request : BlockingRequest :=
          { name := .freed, clientid := .freed, command := args.action, extra := 0, isLocal := args.isLocal, ticket := args.ticket }
        let waiting := if args.action = .tsBCastReadBlocking then space.bcastQueueRequests ++ [request] else space.bcastQueueRequests
        return { rt := some 1, space := { space with bcastQueueRequests := waiting }, sent := [clientid, sendEnf env args] }
    | some result => do
        let reply ← handleBcastQueueReadResponse env args.isLocal args.ticket result
        return { rt := some 0, space := space, sent := clientid :: reply }

def bcastQueueReadHandler (env : Platform) (args : HandlerArg) (space : TsdElement) (input : Input) :
    Except Stop (Acted × Input) := do
  let (name, input) ← recvStr env.host input
  let acted ← bcastReadTuple env args space name
  safeReturn acted input

def tsModeMaster : UInt32 := 0
def tsModeClient : UInt32 := 1
def tsModeBlock : UInt32 := 2
def tsModeP2P : UInt32 := 3
def tsModeErr : UInt32 := 4

def sendActivateSignal (self : Tsd) (space : TsdElement) : TsdElement × List Out :=
  if space.isActivated then (space, [])
  else
    ({ space with isActivated := true },
      [.token { id := 0, ttl := -1, buf1 := (space.name ++ [0]).map some, buf2 := self.endpoint ++ [0],
                len1 := space.name.length + 1, len2 := self.endpoint.length + 1 }])

-- memcpy over the front of direct_endpoint.
def copyEndpoint (direct endpoint : Bytes) : Except Stop Bytes :=
  if endpoint.length + 1 ≤ direct.length then .ok (endpoint ++ 0 :: direct.drop (endpoint.length + 1)) else .error .undefined

def endpointStr (direct : Bytes) : Except Stop CString :=
  if 0 ∈ direct then .ok (.str (cstr direct)) else .error .undefined

-- The part of ts_connect_handler after the mode has been received. In master mode it ends without a value.
def connectMode (env : Platform) (self : Tsd) (args : HandlerArg) (space : TsdElement) (mode : UInt32) :
    Except Stop Acted := do
  let clientid ← sendClientid args.isLocal args.ticket args.clientid
  let answer := fun word more => sendUint32 env args.isLocal args.ticket word more
  let space := { space with isRequested := true }
  match space.tsMode with
  | .master =>
      let (activated, token) := sendActivateSignal self space
      if mode = tsModeMaster then do
        let direct ← copyEndpoint space.directEndpoint self.endpoint
        return { rt := none, space := { activated with directEndpoint := direct, isActivated := true },
                 sent := clientid :: token ++ [answer tsModeMaster false] }
      else if mode = tsModeClient then
        return { rt := none, space := { activated with isActivated := true },
                 sent := clientid :: token ++ [answer tsModeMaster false] }
      else return { rt := none, space := space, sent := [clientid, answer tsModeErr false] }
  | .worker =>
      if mode ≠ tsModeMaster ∧ mode ≠ tsModeClient then
        return { rt := some 1, space := space, sent := [clientid, answer tsModeErr false] }
      else if space.isActivated then do
        let direct ← endpointStr space.directEndpoint
        let endpoint ← sendStr env args.isLocal args.ticket direct false
        return { rt := some 0, space := space, sent := clientid :: answer tsModeClient true :: endpoint }
      else
        let request : BlockingRequest :=
          { name := .null, clientid := args.clientid, command := args.action, extra := mode.toNat, isLocal := args.isLocal,
            ticket := args.ticket }
        return { rt := some 0, space := { space with connectRequests := space.connectRequests ++ [request] },
                 sent := [clientid, answer tsModeBlock false] }
  | .p2p =>
      if mode ≠ tsModeP2P then return { rt := some 1, space := space, sent := [clientid, answer tsModeErr false] }
      else return { rt := some 0, space := space, sent := [clientid, answer tsModeP2P false] }

def tsConnectHandler (env : Platform) (self : Tsd) (args : HandlerArg) (space : TsdElement) (input : Input) :
    Except Stop (Acted × Input) := do
  let (mode, input) ← recvUint32 env.host input
  let acted ← connectMode env self args space mode
  safeReturn acted input

def sendDecomissionSignal (self : Tsd) (space : TsdElement) : TsdElement × List Out :=
  if space.isActivated then
    ({ space with isActivated := false },
      [.token { id := 1, ttl := -1, buf1 := (space.name ++ [0]).map some, buf2 := self.endpoint ++ [0],
                len1 := space.name.length + 1, len2 := self.endpoint.length + 1 }])
  else (space, [])

def sendTerm (env : Platform) (request : BlockingRequest) : Except Stop (List Out) := do
  let clientid ← sendClientid request.isLocal request.ticket request.clientid
  return [clientid, sendUint32 env request.isLocal request.ticket TupleCommand.tsTerm.code false]

-- The loop that clears bcast_queue detaches from named_queue, which is empty by then.
def tsTermClearRequests (env : Platform) (space : TsdElement) : Except Stop (TsdElement × List Out) := do
  let named ← space.namedQueueRequests.mapM (sendTerm env)
  let bcast ← space.bcastQueueRequests.mapM (sendTerm env)
  if space.bcastQueue ≠ [] then throw .diverges
  let gone := (space.namedQueueRequests ++ space.bcastQueueRequests).map Event.terminated
  let cleared :=
    { space with
      namedQueueRequests := []
      bcastQueueRequests := []
      namedQueue := []
      history := space.history ++ gone ++ space.namedQueue.map Event.discarded }
  return (cleared, named.flatten ++ bcast.flatten)

-- The TsTerm case of handler.
def termSpace (env : Platform) (self : Tsd) (space : TsdElement) : Except Stop Acted := do
  let (stopped, token) := sendDecomissionSignal self space
  let (cleared, sent) ← tsTermClearRequests env stopped
  return { rt := none, space := { cleared with isActivated := false }, sent := token ++ sent }

def tsdAddExpect (env : Platform) (space : TsdElement) (input : Input) : Except Stop (Acted × Input) := do
  let (pattern, input) ← recvStr env.host input
  return ({ rt := none, space := { space with expectQueue := space.expectQueue ++ [pattern] }, sent := [] }, input)

def isSpace (c : UInt8) : Bool := c = 32 ∨ (9 ≤ c ∧ c ≤ 13)
def isDigit (c : UInt8) : Bool := 48 ≤ c ∧ c ≤ 57

-- strtoul(str, NULL, 10).
def strtoul (str : Bytes) : UInt64 :=
  let trimmed := str.dropWhile isSpace
  let sign := trimmed.head?
  let digits := (if sign = some '-'.toUInt8 ∨ sign = some '+'.toUInt8 then trimmed.drop 1 else trimmed).takeWhile isDigit
  let magnitude := digits.foldl (fun value digit => value * 10 + (digit.toNat - 48)) 0
  if magnitude ≥ 2 ^ 64 then UInt64.ofNat (2 ^ 64 - 1)
  else if sign = some '-'.toUInt8 then -UInt64.ofNat magnitude
  else UInt64.ofNat magnitude

-- A tuple identity is a kind character and a name or a number. The queue is chosen by the character after the kind.
def tsdAsClient (env : Platform) (args : HandlerArg) (space : TsdElement) (input : Input) :
    Except Stop (Acted × Input) := do
  let (endpoint, input) ← recvStr env.host input
  let (identity, input) ← recvStr env.host input
  if !env.connects endpoint then safeReturn { rt := some 0, space := space, sent := [] } input
  else
    let isAnon := identity.head? = some 'A'.toUInt8
    if identity = [] then throw .undefined
    let search : SngTuple :=
      { name := if isAnon then .null else .str (identity.drop 1)
        anonId := if isAnon then UInt32.ofNat (strtoul (identity.drop 1)).toNat else 0
        data := []
        origin := 0 }
    let isBcast := identity[1]? = some 'B'.toUInt8
    let queue := if isBcast then space.bcastQueue else space.namedQueue
    let handle ← zlistxFind (fun tuple => tplcmp env tuple search) queue
    match handle.bind fun found => queue[found]? with
    | none => safeReturn { rt := some 0, space := space, sent := [] } input
    | some reply =>
        let (len, body) := p2pmSendStr env.host identity
        let rest := (zlistxDetach queue handle).2
        let taken := if isBcast then { space with bcastQueue := rest } else { space with namedQueue := rest }
        let frames :=
          [p2pmSendUint32 env.host (UInt32.ofNat (space.name.length + 1)), space.name ++ [0],
            p2pmSendUint32 env.host TupleCommand.tsTransmit.code, len, body,
            p2pmSendUint64 env.host (UInt64.ofNat reply.data.length), reply.data]
        let left := if args.action = .tsTake then taken else space
        safeReturn { rt := some 0, space := left, sent := [.peer endpoint frames] } input

-- For a named tuple the kind is read again after tuple_identity has been freed.
def tsdAcceptTransmit (env : Platform) (self : Tsd) (args : HandlerArg) (space : TsdElement) (input : Input) :
    Except Stop (Acted × Input) := do
  if args.isLocal then throw .aborted
  let (identity, input) ← recvStr env.host input
  let (len, input) ← recvUint64 env.host input
  if len = 0 then safeReturn { rt := some 1, space := space, sent := [] } input
  else
    let (data, _, input) ← recvData len input
    if identity.head? = some 'N'.toUInt8 then throw .undefined
    else if identity.head? = some 'A'.toUInt8 then
      let tuple : SngTuple :=
        { name := .null, anonId := UInt32.ofNat (strtoul (identity.drop 1)).toNat, data := data, origin := args.ticket }
      let (_, space, sent) ← matchBlockingRequests env self (space.record (.accepted tuple)) tuple .tsAdd
      safeReturn { rt := some 0, space := space, sent := sent } input
    else safeReturn { rt := some 1, space := space, sent := [] } input

-- The dispatch of handler. What no case takes is left on the socket.
def dispatch (env : Platform) (self : Tsd) (args : HandlerArg) (space : TsdElement) (input : Input) :
    Except Stop (Acted × Input) :=
  match args.action with
  | .tsExpect => tsdAddExpect env space input
  | .tsGetBlocking | .tsReadBlocking | .tsRead | .tsGet => namedQueueReadHandler env args space input
  | .tsPeek | .tsPop | .tsPopBlocking | .tsPeekBlocking => namedQueueFetchHandler env args space input
  | .tsPut | .tsAdd => namedQueueWriteHandler env self args space input
  | .tsConnect => tsConnectHandler env self args space input
  | .tsBCastWrite => bcastQueueWriteHandler env args space input
  | .tsBCastRead | .tsBCastReadBlocking => bcastQueueReadHandler env args space input
  | .tsTerm => do
      let acted ← termSpace env self space
      return (acted, input)
  | .tsTransmit => tsdAcceptTransmit env self args space input
  | .tsRequest | .tsTake => tsdAsClient env args space input
  | .tsDeposit | .tsMigrate | .tsReplicate => .ok ({ rt := none, space := space, sent := [] }, input)
  | .tsNone | .tsEnf | .tsAck | .tsAnon => .ok ({ rt := some (-1), space := space, sent := [] }, input)

structure Handled where
  self : Tsd
  sent : List Out
  input : Input

-- handle_second_error: the client is told TsEnf and the rest of its message dropped.
def handleSecondError (env : Platform) (self : Tsd) (isLocal : Bool) (ticket : Nat) (clientid : Bytes) (input : Input) :
    Except Stop Handled := do
  let input ← tsFail input
  return { self := self
           sent := [.frame isLocal ticket clientid true, sendUint32 env isLocal ticket TupleCommand.tsEnf.code false]
           input := input }

def handler (env : Platform) (self : Tsd) (isLocal : Bool) (ticket : Nat) (input : Input) : Except Stop Handled := do
  let (frame, input) ← zmqRecv input
  let clientid ← bufferString 50 frame
  let (bufLen, input) ← recvUint32 env.host input
  if bufLen = 0 ∨ bufLen > 50 then handleSecondError env self isLocal ticket clientid input
  else
    let (frame, input) ← zmqRecv input
    -- namespace_buffer[buf_len - 1] = '\0'
    let spaceName := cstr ((frame.take 50).take (bufLen.toNat - 1))
    match self.spaceTable spaceName with
    | none => handleSecondError env self isLocal ticket clientid input
    | some space =>
        let (code, input) ← recvUint32 env.host input
        if code ≠ TupleCommand.tsConnect.code ∧ !space.isActivated then
          handleSecondError env self isLocal ticket clientid input
        else
          match TupleCommand.ofCode code with
          | none => return { self := self, sent := [], input := input }
          | some action =>
              let args : HandlerArg := { clientid := .str clientid, action := action, isLocal := isLocal, ticket := ticket }
              let (acted, input) ← dispatch env self args space input
              return { self := { self with spaceTable := Function.update self.spaceTable spaceName (some acted.space) }
                       sent := acted.sent
                       input := input }

-- sng_namespace_t, as the configuration describes a space.
structure SngNamespace where
  name : Bytes
  directEndpoint : Bytes
  tsMode : TsMode
  tsdMode : TsdMode

def createElement (space : SngNamespace) : TsdElement :=
  { name := space.name, directEndpoint := space.directEndpoint, namedQueue := [], bcastQueue := [],
    namedQueueRequests := [], bcastQueueRequests := [], connectRequests := [], expectQueue := [],
    tsMode := space.tsMode, tsdMode := space.tsdMode,
    isActivated := space.tsdMode = .direct ∨ space.tsMode = .p2p, isRequested := false, history := [] }

-- HashInsert overwrites the item of a key it has already.
def tsdCreate (endpoint : Bytes) (replicationFactor : UInt32) (spaces : List SngNamespace) : Tsd :=
  { endpoint := endpoint
    replicationFactor := replicationFactor
    spaceTable := spaces.foldl (fun table space => Function.update table space.name (some (createElement space)))
      fun _ => none }

theorem update_at {α : Type} (table : Bytes → Option α) (name spaceName : Bytes) (element found : α)
    (there : Function.update table name (some element) spaceName = some found) :
    (name = spaceName ∧ element = found) ∨ (name ≠ spaceName ∧ table spaceName = some found) := by
  by_cases here : name = spaceName
  · subst here
    rw [Function.update_self, Option.some.injEq] at there
    exact Or.inl ⟨rfl, there⟩
  · rw [Function.update_of_ne (Ne.symm here)] at there
    exact Or.inr ⟨here, there⟩

theorem update_each (table : Bytes → Option TsdElement) (here : Bytes) (after : TsdElement) (good : Bytes → TsdElement → Prop)
    (kept : ∀ name space, table name = some space → good name space) (now : good here after) (name : Bytes) (space : TsdElement)
    (found : Function.update table here (some after) name = some space) : good name space := by
  obtain ⟨rfl, rfl⟩ | ⟨_, there⟩ := update_at table here name after space found
  · exact now
  · exact kept name space there

end Synergy
