import Synergy.P2pmServer

set_option autoImplicit false

namespace Synergy

def pingPart (env : P2pmEnv) : MsgPart := wordPart env.host P2pmReqtypes.pingReq.code false

-- The reply to a ping that opens a stabilisation.
def stabilizePinged (env : P2pmEnv) (self : P2pm) (sRecv : UInt32) : P2pm :=
  if sRecv = P2pmReptypes.pongRep.code then
    { successorSend self (wordPart env.host P2pmReqtypes.stabilizeReq.code true :: strParts env.host env.endpoint) with
      successorSocketExpectedActions := .stabilizeAck }
  else { successorSend self [pingPart env] with successorSocketExpectedActions := .stabilizeFailure }

-- handle_recv_failure_in_ack.
def stabilizeAckFailed (env : P2pmEnv) (self : P2pm) : P2pm :=
  { successorSend self [wordPart env.host P2pmReqtypes.stabilizeNsynReq.code false] with
    successorSocketExpectedActions := .stabilizeFailure }

-- It goes on for as long as the word is P2PM_PONG_REP, also when nothing more has come.
def skipPongs (host : HostOrder) (sRecv : UInt32) : List MsgPart → Except Stop (UInt32 × List MsgPart)
  | [] => if sRecv = P2pmReptypes.pongRep.code then .error .diverges else .ok (sRecv, [])
  | part :: later =>
      if sRecv = P2pmReptypes.pongRep.code then do
        let next ← partWord host part
        skipPongs host next later
      else .ok (sRecv, part :: later)

def stabilizeAcked (env : P2pmEnv) (self : P2pm) (sRecv : UInt32) : Except Stop P2pm := do
  let (sRecv, inbox) ← skipPongs env.host sRecv self.successorSocket.inbox
  let self := { self with successorSocket := { self.successorSocket with inbox := inbox } }
  if sRecv ≠ P2pmReptypes.stabilizeAck.code then return stabilizeAckFailed env self
  else
    let (word, inbox) ← recvWord env.host inbox
    let self := { self with successorSocket := { self.successorSocket with inbox := inbox } }
    match word, inbox with
    | none, _ => return stabilizeAckFailed env self
    | some r, inbox =>
        if r < 1 ∨ r > self.nodeList.rMax then return stabilizeAckFailed env self
        else
          let self := { self with nodeList := { self.nodeList with r := r } }
          match inbox with
          | [] => return stabilizeAckFailed env self
          | part :: later =>
              let temp := filled env (shiftId r).toNat part.bytes
              let copied ← p2pmNiCopySuccessorList self.nodeList.toNodeInfo temp r
              let self := { self with
                successorSocket := { self.successorSocket with inbox := later }
                nodeList := { self.nodeList with toNodeInfo := copied }
                serverTriggeredActions := .replicateBackwards
                successorSocketExpectedActions := .noXpv
                currentStatus := .member }
              return successorSend self [wordPart env.host P2pmReqtypes.stabilizeSynReq.code false]

def successorReadable (env : P2pmEnv) (self : P2pm) : Except Stop P2pm := do
  let (now, self) := zclockMono env self
  match self.successorSocket.inbox with
  | [] => throw .diverges
  | part :: later =>
      let sRecv ← partWord env.host part
      let self := { self with
        successorLastpollTime := now
        successorSocket := { self.successorSocket with inbox := later } }
      match self.successorSocketExpectedActions with
      | .pingAndStabilizeReq | .pingAndStabilizeReq1 | .pingAndStabilizeReq2 => return stabilizePinged env self sRecv
      | .stabilizeAck => stabilizeAcked env self sRecv
      | _ => return self

-- The step to the next entry of successor_list. An address without its NUL is read beyond its buffer.
def failOver (env : P2pmEnv) (self : P2pm) : Except Stop P2pm := do
  let next ← readSlot self.nodeList.successorList 1
  if next.head? ≠ some 0 then
    let disconnected := zmqDisconnect self.successorSocket self.nodeList.successor
    let list ← writeSlot self.nodeList.successorList 0 next
    let fixed ← p2pmNiFixSuccessorList { self.nodeList.toNodeInfo with successorList := list }
    let first ← readSlot fixed.successorList 0
    if 0 ∉ first then throw .undefined
    let successor := cstr first
    let (_, connected) := zmqConnect env self.closed disconnected successor
    return { self with
      nodeList := { self.nodeList with toNodeInfo := fixed, successor := successor }
      successorSocket := connected
      successorSocketExpectedActions := .pingAndStabilizeReq }
  else
    return { self with
      serverTriggeredActions := .stabilizeFindHead
      currentStatus := .findingHead
      successorSocketExpectedActions := .noXpv }

def pingAgain (env : P2pmEnv) (self : P2pm) (expected : P2pmExpectedActions) : P2pm :=
  let (now, self) := zclockMono env self
  { successorSend self [pingPart env] with successorSocketExpectedActions := expected, successorLastpollTime := now }

-- The first case has no break.
def successorTimeout (env : P2pmEnv) (self : P2pm) : Except Stop P2pm :=
  let (now, self) := zclockMono env self
  let self := { self with successorLastpollTime := now }
  match self.successorSocketExpectedActions with
  | .pingAndStabilizeReq => .ok (pingAgain env (pingAgain env self .pingAndStabilizeReq1) .pingAndStabilizeReq2)
  | .pingAndStabilizeReq1 => .ok (pingAgain env self .pingAndStabilizeReq2)
  | .pingAndStabilizeReq2 | .stabilizeFailure => failOver env self
  | _ => .ok self

def triggerStabilize (env : P2pmEnv) (self : P2pm) : P2pm :=
  let (stabilized, self) := zclockMono env self
  let (polled, self) := zclockMono env self
  { successorSend self [pingPart env] with
    lastStabilizeTime := stabilized
    successorLastpollTime := polled
    successorSocketExpectedActions := .pingAndStabilizeReq
    serverTriggeredActions := .noXpv }

-- Two thirds of _successor_socket_handler: what it does before it looks at the token.
def successorEvent (env : P2pmEnv) (self : P2pm) : Except Stop P2pm :=
  if self.revents.successor then successorReadable env self
  else
    let (now, self) := zclockMono env self
    if (now - self.successorLastpollTime ≥ env.wait.toNat ∧ self.successorSocketExpectedActions ≠ .noXpv) ∨
        self.successorSocketExpectedActions = .stabilizeFailure then successorTimeout env self
    else if self.serverTriggeredActions = .triggerStabilize then .ok (triggerStabilize env self)
    else
      let (now, self) := zclockMono env self
      if now - self.successorLastpollTime ≥ env.wait.toNat then
        let (now, self) := zclockMono env self
        .ok { self with successorLastpollTime := now }
      else .ok self

def Token.parts (host : HostOrder) (token : Token) : List MsgPart :=
  [wordPart host P2pmReqtypes.token.code true, wordPart host token.id true, wordPart host token.ttl.toUInt32 true,
    longPart host token.len1 true, longPart host token.len2 true, ⟨token.buf1.take token.len1.toNat, true⟩,
    ⟨token.buf2.take token.len2.toNat, false⟩]

def flushToken (env : P2pmEnv) (self : P2pm) : Except Stop P2pm :=
  if self.sendHasToken then
    let (now, self) := zclockMono env self
    if self.sendToken.buf1.length < self.sendToken.len1.toNat ∨ self.sendToken.buf2.length < self.sendToken.len2.toNat then
      .error .undefined
    else
      .ok { successorSend self (self.sendToken.parts env.host) with
        successorLastpollTime := now
        sendHasToken := false
        sendToken := { self.sendToken with id := 0, ttl := 0, buf1 := [], buf2 := [] } }
  else .ok self

def successorSocketHandler (env : P2pmEnv) (self : P2pm) : Except Stop P2pm := do
  let self ← successorEvent env self
  flushToken env self

-- SYNC_SLIST with the list of this node.
def sendSlist (env : P2pmEnv) (self : P2pm) (ttl : UInt32) : Except Stop P2pm := do
  let list ← self.nodeList.firstSlots
  return predecessorSend self
    [wordPart env.host P2pmReqtypes.syncSlist.code true, wordPart env.host ttl true, wordPart env.host self.nodeList.r true, list]

def predecessorAnswered (env : P2pmEnv) (self : P2pm) : Except Stop P2pm :=
  match self.predecessorTriggeredActions with
  | .stabilizeFindHeadPinged =>
      .ok { predecessorSend self [wordPart env.host P2pmReqtypes.findHead.code false] with
        predecessorTriggeredActions := .noXpv
        predecessorSocketExpectedActions := .stabilizeFindHead
        currentStatus := .findingHead }
  | .replicateBackwardsPinged => do
      let self ← sendSlist env self self.nodeList.rMax
      return { self with
        predecessorTriggeredActions := .noXpv
        predecessorSocketExpectedActions := .replicateBackwards }
  | .relayBackwardsPinged => do
      let self ← sendSlist env self self.lastTtl
      return { self with
        predecessorTriggeredActions := .noXpv
        serverTriggeredActions := .noXpv
        predecessorSocketExpectedActions := .relayBackwards }
  | _ => .ok { self with predecessorSocketExpectedActions := .noXpv, predecessorTriggeredActions := .noXpv }

def backwardsDone (self : P2pm) : P2pm :=
  { self with predecessorSocketExpectedActions := .noXpv, serverTriggeredActions := .noXpv }

-- Where nothing comes in time, predecessor_buf is what it was. A reply to a ping that is no pong falls through.
def predecessorReadable (env : P2pmEnv) (self : P2pm) : Except Stop P2pm := do
  let (word, inbox) ← recvWord env.host self.predecessorSocket.inbox
  let predecessorBuf := word.getD env.strayWord
  let (now, self) := zclockMono env self
  let self := { self with
    predecessorSocket := { self.predecessorSocket with inbox := inbox }
    predecessorLastpollTime := now }
  match self.predecessorSocketExpectedActions with
  | .predRepPing1 | .predRepPing2 | .predRepPing3 =>
      if predecessorBuf = P2pmReptypes.pongRep.code then predecessorAnswered env self
      else return backwardsDone self
  | .relayBackwards | .replicateBackwards => return backwardsDone self
  | _ => return self

def pingPredecessor (env : P2pmEnv) (self : P2pm) (expected : P2pmExpectedActions) : P2pm :=
  let (now, self) := zclockMono env self
  { predecessorSend self [pingPart env] with predecessorLastpollTime := now, predecessorSocketExpectedActions := expected }

def predecessorFailed (env : P2pmEnv) (self : P2pm) : Except Stop P2pm :=
  if self.currentStatus = .member then
    .ok { self with serverTriggeredActions := .stabilizeFindHead, predecessorSocketExpectedActions := .noXpv }
  else
    p2pmFormOneRing env { self with
      predecessorSocketExpectedActions := .noXpv
      serverTriggeredActions := .noXpv
      successorSocketExpectedActions := .noXpv
      predecessorTriggeredActions := .noXpv }

-- The action a ping goes out for, by the one the server has triggered.
def P2pmExpectedActions.pinged : P2pmExpectedActions → Option P2pmExpectedActions
  | .stabilizeFindHead => some .stabilizeFindHeadPinged
  | .replicateBackwards => some .replicateBackwardsPinged
  | .relayBackwards => some .relayBackwardsPinged
  | _ => none

def predecessorIdle (env : P2pmEnv) (self : P2pm) : P2pm :=
  let (now, self) := zclockMono env self
  if now - self.predecessorLastpollTime > env.wait.toNat ∧ self.predecessorSocketExpectedActions = .noXpv then
    let (now, self) := zclockMono env self
    { self with predecessorLastpollTime := now }
  else
    match self.serverTriggeredActions.pinged with
    | some pinged =>
        pingPredecessor env { self with predecessorTriggeredActions := pinged, serverTriggeredActions := .noXpv } .predRepPing1
    | none => self

-- _predecessor_socket_handler; depth is the room for its recursion.
def predecessorSocketHandler (env : P2pmEnv) : Nat → P2pm → Except Stop P2pm
  | 0, _ => .error .diverges
  | depth + 1, self =>
      if self.revents.predecessor then predecessorReadable env self
      else
        let (now, self) := zclockMono env self
        if now - self.predecessorLastpollTime > env.wait.toNat ∧ self.predecessorSocketExpectedActions ≠ .noXpv then
          let (now, self) := zclockMono env self
          let self := { self with predecessorLastpollTime := now }
          match self.predecessorSocketExpectedActions with
          | .predRepPing1 => .ok (pingPredecessor env self .predRepPing2)
          | .predRepPing2 => .ok (pingPredecessor env self .predRepPing3)
          | .predRepPing3 | .predFailure => predecessorFailed env self
          | .relayBackwards => predecessorSocketHandler env depth { self with serverTriggeredActions := .relayBackwards }
          | .replicateBackwards => predecessorSocketHandler env depth { self with serverTriggeredActions := .replicateBackwards }
          | _ => .ok self
        else .ok (predecessorIdle env self)

end Synergy
