import Synergy.P2pmActor
import Mathlib.Logic.Function.Basic
import Mathlib.Data.List.FinRange

set_option autoImplicit false

namespace Synergy

-- The socket of the joining node that a call is about.
inductive Side where
  | predecessor | successor
deriving DecidableEq, Repr

-- What surrounds a p2pm_join: the identities of its sockets, the daemons of the ring and, by call of p2pm_try_live, what its
-- rt holds before anything is received.
structure JoinSetting (n : Nat) where
  env : P2pmEnv
  identity : Side → Bytes
  members : Fin n → P2pmEnv
  rt : Nat → UInt32

structure Joining (n : Nat) where
  node : P2pm
  ring : Fin n → P2pm
  tries : Nat

abbrev JoinM (n : Nat) := StateT (Joining n) (Except Stop)

variable {n : Nat}

def Joining.socket (state : Joining n) : Side → Dealer
  | .predecessor => state.node.predecessorSocket
  | .successor => state.node.successorSocket

def Joining.setSocket (state : Joining n) (socket : Dealer) : Side → Joining n
  | .predecessor => { state with node := { state.node with predecessorSocket := socket } }
  | .successor => { state with node := { state.node with successorSocket := socket } }

def JoinSetting.at (setting : JoinSetting n) (address : Bytes) : Option (Fin n) :=
  (List.finRange n).find? fun i => (setting.members i).endpoint = address

-- What a ROUTER socket gives the peer with the identity of what has been sent on it.
def routed (identity : Bytes) : List MsgPart → List MsgPart
  | [] => []
  | first :: rest => if first.bytes = identity.map some then rest else []

-- The member with the request on its server_socket runs p2pm_loop_server once.
def memberServes (env : P2pmEnv) (member : P2pm) (identity : Bytes) (parts : List MsgPart) : Except Stop P2pm := do
  let (_, served) ← p2pmLoopServer env
    { member with
      revents := { server := true, successor := false, predecessor := false, pipe := false }
      serverInbox := member.serverInbox ++ ⟨identity.map some, true⟩ :: parts }
  return served

-- A message of the joining node, with what its receiver answers.
def sendOn (setting : JoinSetting n) (side : Side) (parts : List MsgPart) : JoinM n Unit := do
  let state ← get
  match (state.socket side).connected.head?.bind setting.at with
  | none => return ()
  | some i =>
      let served ← memberServes (setting.members i) (state.ring i) (setting.identity side) parts
      let reply := routed (setting.identity side) (served.serverSent.drop (state.ring i).serverSent.length)
      let socket := state.socket side
      set ({ state with ring := Function.update state.ring i served }.setSocket { socket with inbox := socket.inbox ++ reply } side)

def recvOn (setting : JoinSetting n) (side : Side) : JoinM n (Option UInt32) := do
  let state ← get
  let socket := state.socket side
  let (word, inbox) ← recvWord setting.env.host socket.inbox
  set (state.setSocket { socket with inbox := inbox } side)
  return word

def connectOn (setting : JoinSetting n) (side : Side) (address : Bytes) : JoinM n Bool := do
  let state ← get
  let (accepted, socket) := zmqConnect setting.env state.node.closed (state.socket side) address
  set (state.setSocket socket side)
  return accepted

def disconnectOn (side : Side) (address : Bytes) : JoinM n Unit :=
  modify fun state => state.setSocket (zmqDisconnect (state.socket side) address) side

-- The do loop of p2pm_try_live. What would send P2PM_PING_REQ is between #if 0 and #endif.
def tryLiveLoop (setting : JoinSetting n) (side : Side) : Nat → UInt32 → JoinM n Bool
  | 0, _ => return false
  | rounds + 1, rt => do
      let word ← recvOn setting side
      let rt := word.getD rt
      if rt = P2pmReptypes.pongRep.code then return true else tryLiveLoop setting side rounds rt

-- True for P2PM_OP_LIVE. while (i--) with i = 3 makes four rounds.
def p2pmTryLive (setting : JoinSetting n) (side : Side) : JoinM n Bool := do
  let state ← get
  set { state with tries := state.tries + 1 }
  tryLiveLoop setting side 4 (setting.rt state.tries)

-- zmq_send returns the number of bytes, and p2pm_send_uint32 what zmq_send returns.
def sentUint32 : Nat := 4

def p2pmJoinOneRing (setting : JoinSetting n) : JoinM n P2pmOpcodes := do
  sendOn setting .predecessor [wordPart setting.env.host P2pmReqtypes.oneRingJoinReq.code false]
  if sentUint32 ≠ 0 then return .failure
  else
    let state ← get
    let address := state.node.nodeList.predecessor
    let list ← writeSlot state.node.nodeList.successorList 0 (addressBlock setting.env address)
    set { state with node := { state.node with nodeList := { state.node.nodeList with successor := address, successorList := list } } }
    match ← recvOn setting .predecessor with
    | none => return .failure
    | some word =>
        if word ≠ P2pmReqtypes.joinCmt.code then return .failure
        else if !(← connectOn setting .successor address) then return .failure
        else
          modify fun state => { state with node := { state.node with currentStatus := .member } }
          return .success

-- predecessor_connected.
def predecessorConnected : JoinM n P2pmOpcodes := do
  let state ← get
  disconnectOn .predecessor state.node.nodeList.predecessor
  return .failure

-- successor_connected.
def successorConnected (setting : JoinSetting n) : JoinM n P2pmOpcodes := do
  sendOn setting .predecessor [wordPart setting.env.host P2pmReqtypes.joinAbrt.code false]
  sendOn setting .successor [wordPart setting.env.host P2pmReqtypes.predJoinAbrt.code false]
  let state ← get
  disconnectOn .successor state.node.nodeList.successor
  disconnectOn .predecessor state.node.nodeList.predecessor
  return .failure

-- From the second p2pm_try_live of the predecessor on.
def joinCommits (setting : JoinSetting n) : JoinM n P2pmOpcodes := do
  if !(← p2pmTryLive setting .predecessor) then successorConnected setting
  else
    let state ← get
    let list ← state.node.nodeList.firstSlots
    sendOn setting .predecessor
      [wordPart setting.env.host P2pmReqtypes.joinCmt.code true, wordPart setting.env.host state.node.nodeList.r true, list]
    match ← recvOn setting .predecessor with
    | none => successorConnected setting
    | some word =>
        if word ≠ P2pmReptypes.joinAck2.code then successorConnected setting
        else
          sendOn setting .successor [wordPart setting.env.host P2pmReqtypes.predJoinCmt.code false]
          modify fun state => { state with node := { state.node with currentStatus := .member } }
          return .success

-- From the request to the successor on. What JOIN_ACK1 should be is not looked at.
def joinRequests (setting : JoinSetting n) : JoinM n P2pmOpcodes := do
  sendOn setting .successor (wordPart setting.env.host P2pmReqtypes.joinReq.code true :: strParts setting.env.host setting.env.endpoint)
  match ← recvOn setting .successor with
  | none => successorConnected setting
  | some _ =>
      modify fun state => { state with node := { state.node with currentStatus := .appendage } }
      match ← recvOn setting .successor with
      | none => successorConnected setting
      | some r =>
          modify fun state => { state with node := { state.node with nodeList := { state.node.nodeList with r := r } } }
          let state ← get
          if r = 0 ∨ r > state.node.nodeList.rMax then successorConnected setting
          else
            match state.node.successorSocket.inbox with
            | [] => successorConnected setting
            | part :: later =>
                let buf := filled setting.env (shiftId state.node.nodeList.rMax).toNat part.bytes
                let copied ← p2pmNiCopySuccessorList state.node.nodeList.toNodeInfo buf r
                set { state with node := { state.node with
                  successorSocket := { state.node.successorSocket with inbox := later }
                  nodeList := { state.node.nodeList with toNodeInfo := copied } } }
                joinCommits setting

-- From GET_ACK on: the address of the successor comes. P2PM_MAX_ID_LEN bytes are copied out of a block of its own length.
def joinAcked (setting : JoinSetting n) : JoinM n P2pmOpcodes := do
  let state ← get
  let (received, inbox) ← recvString setting.env.host state.node.predecessorSocket.inbox
  set (state.setSocket { state.node.predecessorSocket with inbox := inbox } .predecessor)
  match received with
  | .missing => predecessorConnected
  | .freed => throw .undefined
  | .str chars =>
      if chars.length + 1 ≠ maxIdLen then throw .undefined
      let state ← get
      let list ← writeSlot state.node.nodeList.successorList 0 (addressBlock setting.env chars)
      set { state with node := { state.node with nodeList := { state.node.nodeList with successor := chars, successorList := list } } }
      if !(← connectOn setting .successor chars) then predecessorConnected
      else if !(← p2pmTryLive setting .successor) then successorConnected setting
      else joinRequests setting

def p2pmJoin (setting : JoinSetting n) : JoinM n P2pmOpcodes := do
  let state ← get
  if state.node.currentStatus ≠ .joining then throw .aborted
  else
    let _ ← connectOn setting .predecessor state.node.nodeList.predecessor
    if !(← p2pmTryLive setting .predecessor) then predecessorConnected
    else
      sendOn setting .predecessor (wordPart setting.env.host P2pmReqtypes.getReq.code true :: strParts setting.env.host setting.env.endpoint)
      match ← recvOn setting .predecessor with
      | none => predecessorConnected
      | some word =>
          if word = P2pmReptypes.getContactedOneRing.code then p2pmJoinOneRing setting
          else if word = P2pmReptypes.getNack.code then return .needOneRing
          else if word ≠ P2pmReptypes.getAck.code then predecessorConnected
          else joinAcked setting

end Synergy
