import Synergy.NodeInfo
import Synergy.Tokens

set_option autoImplicit false

namespace Synergy

inductive P2pmReqtypes where
  | getReq | joinReq | joinAbrt | joinCmt | predJoinCmt | predJoinAbrt | customPayloadReq | pingReq | stabilizeReq | stabilizeSynReq
  | stabilizeNsynReq | syncSlist | oneRingJoinReq | findHead | findTail | token
deriving DecidableEq, Repr

-- 67 is left out.
def P2pmReqtypes.code (request : P2pmReqtypes) : UInt32 :=
  if request.ctorIdx ≤ 11 then UInt32.ofNat (55 + request.ctorIdx) else UInt32.ofNat (56 + request.ctorIdx)

inductive P2pmReptypes where
  | pongRep | customPayloadRep | invalidRep | joinAck1 | joinAck2 | stabilizeAck | stabilizeNack | getAck | getNack
  | getContactedOneRing | syncSlistAck | headFound | tailFound
deriving DecidableEq, Repr

def P2pmReptypes.code : P2pmReptypes → UInt32
  | .pongRep => 7
  | reply => UInt32.ofNat (62 + reply.ctorIdx)

inductive P2pmExpectedActions where
  | noXpv | joinCmt | joinOnering | triggerJoin | triggerStabilize | pingAndStabilizeReq | pingAndStabilizeReq1
  | pingAndStabilizeReq2 | stabilizeFailure | stabilizeAck | nxtSuccessor | performJoin | replicateBackwards
  | replicateBackwardsPinged | relayBackwards | relayBackwardsPinged | predRepPing1 | predRepPing2 | predRepPing3 | predFailure
  | stabilizeFindTail | stabilizeRelayFindHead | stabilizeRelayFindTail | stabilizeFindHead | stabilizeFindHeadPinged
deriving DecidableEq, Repr

inductive P2pmStatus where
  | alone | oneRing | joining | member | appendage | live | dead | boundedWait | findingHead | findingTail | handlingJoin
  | handlingStabilize | busy
deriving DecidableEq, Repr

inductive P2pmOpcodes where
  | failure | success | tryagain | invalid | needOneRing
deriving DecidableEq, Repr

-- One part of a message. A byte that its sender has not written is none.
structure MsgPart where
  bytes : List (Option UInt8)
  more : Bool
deriving DecidableEq

-- The fields send_token_* and recv_token_*; a buffer that is NULL or was given away is empty.
structure Token where
  id : UInt32
  ttl : Int32
  buf1 : List (Option UInt8)
  buf2 : List (Option UInt8)
  len1 : UInt64
  len2 : UInt64
deriving DecidableEq

def Token.none : Token := { id := 0, ttl := 0, buf1 := [], buf2 := [], len1 := 0, len2 := 0 }

-- A dealer socket, numbered as they are opened: where it is connected to and what has come in.
structure Dealer where
  id : Nat
  connected : List Bytes
  inbox : List MsgPart
deriving DecidableEq

-- p2pm_node_info_t; addresses without what their buffers hold behind the NUL.
structure P2pmNodeInfo extends NodeInfo where
  predecessor : Bytes
  successor : Bytes
  tempPredecessor : Bytes
  tempSuccessor : Bytes

structure Revents where
  server : Bool
  successor : Bool
  predecessor : Bool
  pipe : Bool
deriving DecidableEq

-- What a p2pmd process finds: its host, its endpoint and configuration, the addresses that zmq_connect takes, what the calls of
-- zclock_mono return one after the other, what memory holds that nobody has written, the room its stack has for recursion.
structure P2pmEnv where
  host : HostOrder
  endpoint : Bytes
  wait : UInt32
  stabilizeInterval : Int
  connects : Bytes → Bool
  clock : Nat → Int
  stray : Nat → UInt8
  strayWord : UInt32
  depth : Nat
  clean : NulFree endpoint
  short : endpoint.length < maxIdLen

-- p2pm_t. serverSent, successorSent and predecessorSent are ghost: all that has been sent on server_socket and on the sockets
-- that were successor_socket and predecessor_socket at the time.
structure P2pm where
  nodeList : P2pmNodeInfo
  currentStatus : P2pmStatus
  predecessorSocketExpectedActions : P2pmExpectedActions
  successorSocketExpectedActions : P2pmExpectedActions
  serverTriggeredActions : P2pmExpectedActions
  predecessorTriggeredActions : P2pmExpectedActions
  predecessorLastpollTime : Int
  successorLastpollTime : Int
  lastStabilizeTime : Int
  ticks : Nat
  lastTtl : UInt32
  clientid : Bytes
  serverInbox : List MsgPart
  serverSent : List MsgPart
  successorSocket : Dealer
  successorSent : List MsgPart
  predecessorSocket : Dealer
  predecessorSent : List MsgPart
  opened : Nat
  closed : List Nat
  successorPoller : Nat
  predecessorPoller : Nat
  revents : Revents
  sendHasToken : Bool
  sendToken : Token
  recvHasToken : Bool
  recvToken : Token

def zclockMono (env : P2pmEnv) (self : P2pm) : Int × P2pm := (env.clock self.ticks, { self with ticks := self.ticks + 1 })

def wordPart (host : HostOrder) (word : UInt32) (more : Bool) : MsgPart := ⟨(p2pmSendUint32 host word).map some, more⟩

def longPart (host : HostOrder) (word : UInt64) (more : Bool) : MsgPart := ⟨(p2pmSendUint64 host word).map some, more⟩

def strParts (host : HostOrder) (str : Bytes) : List MsgPart :=
  [⟨(p2pmSendStr host str).1.map some, true⟩, ⟨(p2pmSendStr host str).2.map some, false⟩]

def partWord (host : HostOrder) (part : MsgPart) : Except Stop UInt32 :=
  match Pieces.written (part.bytes.take 4) with
  | none => .error .undefined
  | some bytes => p2pmRecvUint32 host bytes

def partLong (host : HostOrder) (part : MsgPart) : Except Stop UInt64 :=
  match Pieces.written (part.bytes.take 8) with
  | none => .error .undefined
  | some bytes => p2pmRecvUint64 host bytes

-- p2pm_recv_uint32 and p2pm_recv_uint64: with nothing to receive they fail in the end and leave the word alone.
def recvWord (host : HostOrder) : List MsgPart → Except Stop (Option UInt32 × List MsgPart)
  | [] => .ok (none, [])
  | part :: later => do
      let word ← partWord host part
      return (some word, later)

def recvLong (host : HostOrder) : List MsgPart → Except Stop (Option UInt64 × List MsgPart)
  | [] => .ok (none, [])
  | part :: later => do
      let word ← partLong host part
      return (some word, later)

-- p2pm_recv_str: it fails before it has set *str, or after it has freed it.
inductive RecvStr where
  | str (chars : Bytes)
  | missing
  | freed
deriving DecidableEq

def recvString (host : HostOrder) (inbox : List MsgPart) : Except Stop (RecvStr × List MsgPart) := do
  let (announced, inbox) ← recvWord host inbox
  match announced, inbox with
  | none, inbox => return (.missing, inbox)
  | some _, [] => return (.freed, [])
  | some announced, part :: later =>
      match Pieces.written part.bytes with
      | none => throw .undefined
      | some bytes =>
          let chars ← p2pmRecvStr announced bytes
          return (.str chars, later)

-- A block of the given size from malloc, after a zmq_recv into it.
def filled (env : P2pmEnv) (size : Nat) (bytes : List (Option UInt8)) : Bytes :=
  (List.range size).map fun i => (bytes[i]?.join).getD (env.stray i)

def NodeInfo.slots (self : NodeInfo) : Nat := self.successorList.length / maxIdLen

-- memcpy from and to successor_list + P2PM_MAX_ID_LEN * k.
def readSlot (list : Bytes) (k : Nat) : Except Stop Bytes :=
  if list.length < (k + 1) * maxIdLen then .error (.outside k) else .ok (Pieces.piece maxIdLen k list)

def writeSlot (list : Bytes) (k : Nat) (block : Bytes) : Except Stop Bytes :=
  if list.length < (k + 1) * maxIdLen then .error (.outside k)
  else .ok (list.take (k * maxIdLen) ++ block ++ list.drop ((k + 1) * maxIdLen))

-- An address buffer of P2PM_MAX_ID_LEN bytes.
def addressBlock (env : P2pmEnv) (chars : Bytes) : Bytes := filled env maxIdLen ((chars ++ [0]).map some)

-- PSTRLEN bytes into the first slot; those behind stay.
def writeAddress (list chars : Bytes) : Except Stop Bytes :=
  if list.length < maxIdLen then .error (.outside 0) else .ok (chars ++ 0 :: list.drop (chars.length + 1))

def clearSlots (list : Bytes) (count : UInt32) : Except Stop Bytes :=
  let len := (shiftId count).toNat
  if list.length < len then .error (.outside (list.length / maxIdLen)) else .ok (List.replicate len 0 ++ list.drop len)

-- The first r slots, as they are sent.
def NodeInfo.firstSlots (self : NodeInfo) : Except Stop MsgPart :=
  let len := (shiftId self.r).toNat
  if self.successorList.length < len then .error (.outside self.slots) else .ok ⟨(self.successorList.take len).map some, false⟩

-- The loop of _p2pm_ni_condense_successor_list: it tests ptr where it means the byte there, and copies to ptr from eptr.
def condenseLoop : Nat → Nat → Bool → Bytes → Except Stop Bytes
  | 0, _, _, list => .ok list
  | rounds + 1, ptr, ok, list =>
      if ptr = 0 then condenseLoop rounds (ptr + 1) true list
      else if ok then do
        let block ← readSlot list 0
        let list ← writeSlot list ptr block
        let list ← writeSlot list ptr (List.replicate maxIdLen 0)
        condenseLoop rounds (ptr + 1) false list
      else condenseLoop rounds (ptr + 1) false list

-- ptr and eptr count slots; eptr is never anything but 0.
def p2pmNiFixSuccessorList (self : NodeInfo) : Except Stop NodeInfo :=
  if self.r ≥ self.rMax then .ok self
  else do
    let condensed ← condenseLoop ((shiftId self.rMax).toNat / maxIdLen) 0 false self.successorList
    return { self with successorList := condensed }

-- p2pm_ni_set_predecessor and p2pm_ni_set_successor, whose result codes nobody looks at.
def p2pmNiSetPredecessor (self : P2pmNodeInfo) (predecessor : Bytes) : P2pmNodeInfo :=
  if predecessor.length + 1 > maxIdLen then self else { self with predecessor := predecessor }

def p2pmNiSetSuccessor (self : P2pmNodeInfo) (successor : Bytes) : Except Stop P2pmNodeInfo :=
  if successor.length + 1 > maxIdLen then .ok self
  else do
    let list ← writeAddress self.successorList successor
    return { self with successor := successor, successorList := list }

-- zmq_connect on a socket that has been closed fails, as on an address it does not take.
def zmqConnect (env : P2pmEnv) (closed : List Nat) (socket : Dealer) (address : Bytes) : Bool × Dealer :=
  if socket.id ∈ closed ∨ env.connects address = false then (false, socket)
  else (true, { socket with connected := socket.connected ++ [address] })

def zmqDisconnect (socket : Dealer) (address : Bytes) : Dealer := { socket with connected := socket.connected.erase address }

def zmqSocket (id : Nat) : Dealer := { id := id, connected := [], inbox := [] }

-- zmq_send of clientid, up to its first NUL.
def sendClientidPart (self : P2pm) (more : Bool) : Except Stop P2pm :=
  if 0 ∈ self.clientid then .ok { self with serverSent := self.serverSent ++ [⟨(cstr self.clientid).map some, more⟩] }
  else .error .undefined

def serverSend (self : P2pm) (parts : List MsgPart) : P2pm := { self with serverSent := self.serverSent ++ parts }

def successorSend (self : P2pm) (parts : List MsgPart) : P2pm := { self with successorSent := self.successorSent ++ parts }

def predecessorSend (self : P2pm) (parts : List MsgPart) : P2pm := { self with predecessorSent := self.predecessorSent ++ parts }

def p2pmFormOneRing (env : P2pmEnv) (self : P2pm) : Except Stop P2pm := do
  let list ← writeAddress self.nodeList.successorList env.endpoint
  return { self with
    nodeList := { self.nodeList with successor := env.endpoint, predecessor := env.endpoint, successorList := list }
    closed := self.predecessorSocket.id :: self.successorSocket.id :: self.closed
    predecessorSocket := zmqSocket self.opened
    successorSocket := zmqSocket (self.opened + 1)
    opened := self.opened + 2
    currentStatus := .oneRing }

end Synergy
