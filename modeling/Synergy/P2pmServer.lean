import Synergy.P2pm

set_option autoImplicit false

namespace Synergy

-- Most replies are one word.
def reply (env : P2pmEnv) (self : P2pm) (code : UInt32) : P2pm := serverSend self [wordPart env.host code false]

-- A word that announces r and the first r slots.
def replySlist (env : P2pmEnv) (self : P2pm) (code : UInt32) : Except Stop P2pm := do
  let list ← self.nodeList.firstSlots
  return serverSend self [wordPart env.host code true, wordPart env.host self.nodeList.r true, list]

-- Where p2pm_recv_str has freed the buffer already, it is freed again.
def getReqHandler (env : P2pmEnv) (self : P2pm) : Except Stop (P2pmOpcodes × P2pm) := do
  let self ← sendClientidPart self true
  let (buf, inbox) ← recvString env.host self.serverInbox
  let self := { self with serverInbox := inbox }
  match buf with
  | .freed => throw .undefined
  | .missing => return (.failure, reply env self P2pmReptypes.getNack.code)
  | .str chars =>
      if maxIdLen ≤ chars.length then throw .undefined
      -- before it is known whether the node can be joined
      let self := { self with nodeList := { self.nodeList with tempSuccessor := chars } }
      if self.currentStatus = .oneRing then return (.needOneRing, reply env self P2pmReptypes.getContactedOneRing.code)
      else if self.currentStatus = .member then
        let self := serverSend self (wordPart env.host P2pmReptypes.getAck.code true :: strParts env.host self.nodeList.successor)
        return (.success, { self with currentStatus := .handlingJoin })
      else return (.failure, reply env self P2pmReptypes.getNack.code)

-- Where nothing was received, buf is freed without ever having been set.
def joinReqHandler (env : P2pmEnv) (self : P2pm) : Except Stop (P2pmOpcodes × P2pm) := do
  let self ← sendClientidPart self true
  let (buf, inbox) ← recvString env.host self.serverInbox
  match buf with
  | .missing | .freed => throw .undefined
  | .str chars =>
      if maxIdLen ≤ chars.length then throw .undefined
      let self := { self with serverInbox := inbox, nodeList := { self.nodeList with tempPredecessor := chars } }
      if self.currentStatus = .oneRing then return (.needOneRing, reply env self P2pmReptypes.getContactedOneRing.code)
      else if self.currentStatus = .member then
        let self ← replySlist env self P2pmReptypes.joinAck1.code
        return (.success, self)
      else return (.failure, reply env self P2pmReptypes.invalidRep.code)

def invalidRep (env : P2pmEnv) (self : P2pm) : P2pmOpcodes × P2pm := (.failure, reply env self P2pmReptypes.invalidRep.code)

-- What _JOIN_CMT_handler does once it has r and the list.
def joinCommit (env : P2pmEnv) (self : P2pm) (r : UInt32) (buf : Bytes) : Except Stop P2pm := do
  let self := reply env self P2pmReptypes.joinAck2.code
  let disconnected := zmqDisconnect self.successorSocket self.nodeList.successor
  let successor := self.nodeList.tempSuccessor
  let list ← writeSlot self.nodeList.successorList 0 (addressBlock env successor)
  let nodeList := { self.nodeList with successor := successor, successorList := list, tempSuccessor := [] }
  let copied ← p2pmNiCopySuccessorList nodeList.toNodeInfo buf r
  let (_, connected) := zmqConnect env self.closed disconnected successor
  let self := { self with nodeList := { nodeList with toNodeInfo := copied }, successorSocket := connected }
  if self.currentStatus = .member then
    let (now, self) := zclockMono env self
    if now - self.lastStabilizeTime ≤ env.stabilizeInterval then return { self with serverTriggeredActions := .replicateBackwards }
    else return self
  else if self.currentStatus = .handlingJoin then return { self with currentStatus := .member }
  else return self

def joinCmtHandler (env : P2pmEnv) (self : P2pm) : Except Stop (P2pmOpcodes × P2pm) := do
  let self ← sendClientidPart self true
  let (word, inbox) ← recvWord env.host self.serverInbox
  let self := { self with serverInbox := inbox }
  match word with
  | none => return invalidRep env self
  | some r =>
      if r = 0 then return invalidRep env self
      else
        let self := { self with nodeList := { self.nodeList with r := r } }
        match self.serverInbox with
        | [] => return invalidRep env self
        | part :: later =>
            let buf := filled env (shiftId self.nodeList.rMax).toNat part.bytes
            let self ← joinCommit env { self with serverInbox := later } r buf
            return (.success, self)

-- Back from one of two states that a request leads to.
def endHandling (handling current : P2pmStatus) : P2pmStatus := if current = handling then .member else current

def stabilizeNsynReqHandler (self : P2pm) : Except Stop (P2pmOpcodes × P2pm) := do
  let self := { self with
    nodeList := { self.nodeList with tempPredecessor := [] }
    currentStatus := endHandling .handlingStabilize self.currentStatus }
  let self ← sendClientidPart self false
  return (.success, self)

def joinAbrtHandler (self : P2pm) : P2pmOpcodes × P2pm :=
  (.success, { self with
    currentStatus := endHandling .handlingJoin self.currentStatus
    nodeList := { self.nodeList with tempSuccessor := [] } })

def predJoinCmtHandler (env : P2pmEnv) (self : P2pm) : P2pmOpcodes × P2pm :=
  let disconnected := zmqDisconnect self.predecessorSocket self.nodeList.predecessor
  let (_, connected) := zmqConnect env self.closed disconnected self.nodeList.tempPredecessor
  (.success, { self with
    nodeList := { self.nodeList with predecessor := self.nodeList.tempPredecessor, tempPredecessor := [] }
    predecessorSocket := connected
    currentStatus := endHandling .handlingJoin self.currentStatus })

def predJoinAbrtHandler (self : P2pm) : P2pmOpcodes × P2pm :=
  (.success, { self with
    nodeList := { self.nodeList with tempPredecessor := [] }
    currentStatus := endHandling .handlingJoin self.currentStatus })

def pingReqHandler (env : P2pmEnv) (self : P2pm) : Except Stop (P2pmOpcodes × P2pm) := do
  let self ← sendClientidPart self true
  return (.success, reply env self P2pmReptypes.pongRep.code)

-- In another status the reply has no client id, and what the message still holds is not received.
def stabilizeReqHandler (env : P2pmEnv) (self : P2pm) : Except Stop (P2pmOpcodes × P2pm) := do
  if self.currentStatus ≠ .member ∧ self.currentStatus ≠ .handlingStabilize then
    return (.failure, reply env self P2pmReptypes.stabilizeNack.code)
  else
    let self ← sendClientidPart { self with currentStatus := .handlingStabilize } true
    let (addr, inbox) ← recvString env.host self.serverInbox
    let self := { self with serverInbox := inbox }
    match addr with
    | .freed => throw .undefined
    | .missing => return (.failure, reply env { self with currentStatus := .member } P2pmReptypes.stabilizeNack.code)
    | .str chars =>
        if maxIdLen ≤ chars.length then throw .undefined
        let self := { self with nodeList := { self.nodeList with tempPredecessor := chars } }
        let self ← replySlist env self P2pmReptypes.stabilizeAck.code
        return (.success, self)

def stabilizeSynReqHandler (env : P2pmEnv) (self : P2pm) : P2pmOpcodes × P2pm :=
  if self.currentStatus ≠ .handlingStabilize then
    (.failure, { self with nodeList := { self.nodeList with tempPredecessor := [] } })
  else if self.nodeList.predecessor = self.nodeList.tempPredecessor then
    (.success, { self with
      nodeList := { self.nodeList with tempPredecessor := [] }
      serverTriggeredActions := .noXpv
      currentStatus := .member })
  else
    let disconnected := zmqDisconnect self.predecessorSocket self.nodeList.predecessor
    let (_, connected) := zmqConnect env self.closed disconnected self.nodeList.tempPredecessor
    (.success, { self with
      nodeList := { self.nodeList with predecessor := self.nodeList.tempPredecessor, tempPredecessor := [] }
      predecessorSocket := connected
      serverTriggeredActions := .noXpv
      currentStatus := .member })

-- What fails to be received has no reply.
def p2pmSyncSlistHandler (env : P2pmEnv) (self : P2pm) : Except Stop (P2pmOpcodes × P2pm) := do
  let self ← sendClientidPart self true
  let (ttl, inbox) ← recvWord env.host self.serverInbox
  match ttl with
  | none => return (.failure, { self with serverInbox := inbox })
  | some ttl =>
      let (nr, inbox) ← recvWord env.host inbox
      let self := { self with serverInbox := inbox }
      match nr, inbox with
      | none, _ => return (.failure, self)
      | some nr, inbox =>
          if nr = 0 ∨ nr > self.nodeList.rMax then return (.failure, self)
          else
            match inbox with
            | [] => return (.failure, self)
            | part :: later =>
                let self := { self with serverInbox := later }
                let ttl := ttl - 1
                if ttl > 0 then
                  let copied ← p2pmNiCopySuccessorList self.nodeList.toNodeInfo (filled env (shiftId nr).toNat part.bytes) nr
                  let self := { self with
                    nodeList := { self.nodeList with toNodeInfo := copied }
                    lastTtl := ttl
                    serverTriggeredActions := .relayBackwards }
                  return (.success, reply env self P2pmReptypes.syncSlistAck.code)
                else return (.success, reply env self P2pmReptypes.syncSlistAck.code)

-- The reply to a node that joins a ring of one has the code of a request.
def oneRingJoinReqHandler (env : P2pmEnv) (self : P2pm) : Except Stop (P2pmOpcodes × P2pm) := do
  let self ← sendClientidPart self true
  if self.currentStatus ≠ .oneRing then return invalidRep env self
  else
    let (buf, inbox) ← recvString env.host self.serverInbox
    match buf with
    | .missing | .freed => throw .undefined
    | .str chars =>
        let nodeList ← p2pmNiSetSuccessor (p2pmNiSetPredecessor self.nodeList chars) chars
        let cleared ← clearSlots nodeList.successorList nodeList.rMax
        let list ← writeSlot cleared 0 (addressBlock env nodeList.successor)
        let self := { self with
          serverInbox := inbox
          currentStatus := .handlingJoin
          nodeList := { nodeList with successorList := list } }
        let (accepted, connected) := zmqConnect env self.closed self.successorSocket self.nodeList.successor
        let self := { self with successorSocket := connected }
        if !accepted then return invalidRep env self
        else
          let (accepted, connected) := zmqConnect env self.closed self.predecessorSocket self.nodeList.predecessor
          let self := { self with predecessorSocket := connected }
          if !accepted then return invalidRep env self
          else return (.success, reply env { self with currentStatus := .member } P2pmReqtypes.joinCmt.code)

def formOneRingAfter (env : P2pmEnv) (self : P2pm) : Except Stop (P2pmOpcodes × P2pm) := do
  let self ← p2pmFormOneRing env self
  return (.failure, self)

-- It closes predecessor_socket and opens successor_socket, and connects what it has closed.
def tailFoundHandler (env : P2pmEnv) (self : P2pm) : Except Stop (P2pmOpcodes × P2pm) := do
  let (endpoint, inbox) ← recvString env.host self.serverInbox
  let self := { self with serverInbox := inbox }
  match endpoint with
  | .missing | .freed => formOneRingAfter env self
  | .str chars =>
      let self := { self with
        closed := self.predecessorSocket.id :: self.closed
        successorSocket := zmqSocket self.opened
        opened := self.opened + 1 }
      if self.currentStatus ≠ .findingTail then formOneRingAfter env self
      else
        let (accepted, connected) := zmqConnect env self.closed self.predecessorSocket chars
        if !accepted then formOneRingAfter env self
        else
          if maxIdLen ≤ chars.length then throw .undefined
          return (.success, { self with
            predecessorSocket := connected
            nodeList := { self.nodeList with predecessor := chars } })

def headFoundHandler (env : P2pmEnv) (self : P2pm) : Except Stop (P2pmOpcodes × P2pm) := do
  let (endpoint, inbox) ← recvString env.host self.serverInbox
  let self := { self with serverInbox := inbox }
  match endpoint with
  | .missing | .freed => formOneRingAfter env self
  | .str chars =>
      let self := { self with
        closed := self.successorSocket.id :: self.closed
        successorSocket := zmqSocket self.opened
        opened := self.opened + 1 }
      if self.currentStatus ≠ .findingTail then formOneRingAfter env self
      else
        let (accepted, connected) := zmqConnect env self.closed self.predecessorSocket chars
        if !accepted then formOneRingAfter env self
        else
          let cleared ← clearSlots self.nodeList.successorList self.nodeList.rMax
          if maxIdLen ≤ chars.length then throw .undefined
          let list ← writeAddress cleared chars
          return (.success, { self with
            predecessorSocket := connected
            nodeList := { self.nodeList with successor := chars, successorList := list } })

-- A block of len bytes from malloc after a zmq_recv into it, as a token carries it.
def recvTokenBuf (len : UInt64) : List MsgPart → List (Option UInt8) × List MsgPart
  | [] => (List.replicate len.toNat none, [])
  | part :: later => (part.bytes.take len.toNat ++ List.replicate (len.toNat - part.bytes.length) none, later)

-- A field that is not there keeps its value.
def recvToken (host : HostOrder) (before : Token) (inbox : List MsgPart) : Except Stop (Token × List MsgPart) := do
  let (id, inbox) ← recvWord host inbox
  let (ttl, inbox) ← recvWord host inbox
  let (len1, inbox) ← recvLong host inbox
  let (len2, inbox) ← recvLong host inbox
  let len1 := len1.getD before.len1
  let len2 := len2.getD before.len2
  let (buf1, inbox) := recvTokenBuf len1 inbox
  let (buf2, inbox) := recvTokenBuf len2 inbox
  return ({ id := id.getD before.id, ttl := (ttl.map UInt32.toInt32).getD before.ttl, buf1 := buf1, buf2 := buf2,
            len1 := len1, len2 := len2 }, inbox)

def p2pmTokenHandler (env : P2pmEnv) (self : P2pm) : Except Stop (P2pmOpcodes × P2pm) := do
  let (token, inbox) ← recvToken env.host self.recvToken self.serverInbox
  return (.success, { self with serverInbox := inbox, recvToken := token, recvHasToken := true })

inductive ServerCase where
  | getReq | joinReq | joinCmt | stabilizeNsynReq | joinAbrt | predJoinCmt | predJoinAbrt | pingReq | stabilizeReq
  | stabilizeSynReq | syncSlist | oneRingJoinReq | tailFound | headFound | token | ignored
deriving DecidableEq, Repr

-- switch (ubuf) of p2pm_loop_server.
def ServerCase.ofCode (ubuf : UInt32) : ServerCase :=
  if ubuf = P2pmReqtypes.getReq.code then .getReq
  else if ubuf = P2pmReqtypes.joinReq.code then .joinReq
  else if ubuf = P2pmReqtypes.joinCmt.code then .joinCmt
  else if ubuf = P2pmReqtypes.stabilizeNsynReq.code then .stabilizeNsynReq
  else if ubuf = P2pmReqtypes.joinAbrt.code then .joinAbrt
  else if ubuf = P2pmReqtypes.predJoinCmt.code then .predJoinCmt
  else if ubuf = P2pmReqtypes.predJoinAbrt.code then .predJoinAbrt
  else if ubuf = P2pmReqtypes.pingReq.code then .pingReq
  else if ubuf = P2pmReqtypes.stabilizeReq.code then .stabilizeReq
  else if ubuf = P2pmReqtypes.stabilizeSynReq.code then .stabilizeSynReq
  else if ubuf = P2pmReqtypes.syncSlist.code then .syncSlist
  else if ubuf = P2pmReqtypes.oneRingJoinReq.code then .oneRingJoinReq
  else if ubuf = P2pmReptypes.tailFound.code then .tailFound
  else if ubuf = P2pmReptypes.headFound.code then .headFound
  else if ubuf = P2pmReqtypes.token.code then .token
  else .ignored

def serve (env : P2pmEnv) (self : P2pm) : ServerCase → Except Stop (P2pmOpcodes × P2pm)
  | .getReq => getReqHandler env self
  | .joinReq => joinReqHandler env self
  | .joinCmt => joinCmtHandler env self
  | .stabilizeNsynReq => stabilizeNsynReqHandler self
  | .joinAbrt => .ok (joinAbrtHandler self)
  | .predJoinCmt => .ok (predJoinCmtHandler env self)
  | .predJoinAbrt => .ok (predJoinAbrtHandler self)
  | .pingReq => pingReqHandler env self
  | .stabilizeReq => stabilizeReqHandler env self
  | .stabilizeSynReq => .ok (stabilizeSynReqHandler env self)
  | .syncSlist => p2pmSyncSlistHandler env self
  | .oneRingJoinReq => oneRingJoinReqHandler env self
  | .tailFound => tailFoundHandler env self
  | .headFound => headFoundHandler env self
  | .token => p2pmTokenHandler env self
  | .ignored => .ok (.success, self)

-- zmq_recv into clientid leaves what stands behind the bytes received.
def putClientid (clientid : Bytes) (identity : List (Option UInt8)) : Except Stop Bytes :=
  match Pieces.written (identity.take maxIdLen) with
  | none => .error .undefined
  | some bytes => .ok (bytes ++ clientid.drop bytes.length)

-- One message of server_socket. Where the action does not come, ubuf is what it was.
def serveMessage (env : P2pmEnv) (self : P2pm) (identity : MsgPart) (later : List MsgPart) : Except Stop (P2pmOpcodes × P2pm) := do
  let clientid ← putClientid self.clientid identity.bytes
  let (ubuf, inbox) ← recvWord env.host later
  serve env { self with clientid := clientid, serverInbox := inbox } (ServerCase.ofCode (ubuf.getD env.strayWord))

end Synergy
