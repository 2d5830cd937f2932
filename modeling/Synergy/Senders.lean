import Synergy.Receiving
import Synergy.Broadcast
import Synergy.Peers

set_option autoImplicit false

namespace Synergy

-- The message of ts_expect, which is sent in p2p mode only.
def tsExpect (ts : Ts) (pattern : Name) : List Frame :=
  initRequest ts ++ sendUint32Frame ts.host TupleCommand.tsExpect.code true :: sendStrFrames ts.host pattern false

-- What tsd_as_client sends with the tuple it has found.
def transmitFrames (host : HostOrder) (spaceName identity data : Bytes) : List Bytes :=
  [p2pmSendUint32 host (UInt32.ofNat (spaceName.length + 1)), spaceName ++ [0], p2pmSendUint32 host TupleCommand.tsTransmit.code,
    (p2pmSendStr host identity).1, (p2pmSendStr host identity).2, p2pmSendUint64 host (UInt64.ofNat data.length), data]

def Out.toPeer : Out → Option (List Frame)
  | .peer _ frames => some (peerMessage frames)
  | _ => none

-- What sends to a ROUTER socket of a daemon: the calls of a client, and the two functions of a daemon that send to a peer.
inductive Sender where
  | client (call : Call)
  | bcastWrite (name : Name) (data : Payload)
  | expect (pattern : Name)
  | asClient (identity : Name) (data : Bytes) (bounded : data.length < 2 ^ 63)
  | matchToken (peer : Platform) (node : Tsd) (destination identity : Bytes)

-- The messages that are sent, for the namespace of ts and in its host order.
def Sender.messages (ts : Ts) : Sender → List (List Frame)
  | .client call => [call.frames ts]
  | .bcastWrite name data => [tsBcastWrite ts name data]
  | .expect pattern => [tsExpect ts pattern]
  | .asClient identity data _ => [peerMessage (transmitFrames ts.host ts.tsname.chars identity.chars data)]
  | .matchToken peer node destination identity => (requestTuple peer node destination ts.tsname.chars identity).filterMap Out.toPeer

-- A peer sends to server_socket.
def Sender.isLocal (ts : Ts) : Sender → Bool
  | .asClient _ _ _ | .matchToken _ _ _ _ => false
  | _ => ts.isLocal

def Sender.command : Sender → TupleCommand
  | .client call => call.command
  | .bcastWrite _ _ => .tsBCastWrite
  | .expect _ => .tsExpect
  | .asClient _ _ _ => .tsTransmit
  | .matchToken _ _ _ _ => .tsRequest

def Sender.arguments (ts : Ts) : Sender → List Argument
  | .client (.tsOpen mode) => [.word mode]
  | .client (.tsInPut name data) => .str name.chars :: sizedArguments ts.isLocal data.bytes
  | .client (.tsInAdd anonId _ data) => .word anonId :: sizedArguments ts.isLocal data.bytes
  | .client (.tsOutQuery _ _ name) | .client (.tsBcastRead _ name) => [.str name.chars]
  | .client (.tsOutFetch _ _) | .client .tsClose => []
  | .bcastWrite name data => .str name.chars :: sizedArguments ts.isLocal data.bytes
  | .expect pattern => [.str pattern.chars]
  | .asClient identity data _ => [.str identity.chars, .long (UInt64.ofNat data.length), .data data data.length]
  | .matchToken _ node _ identity => [.str node.endpoint, .str identity]

def Sender.passes (ts : Ts) : Sender → Except Stop (List Chunk)
  | .client call => call.passes ts
  | .bcastWrite _ data => if ts.isLocal then sendItem data.bytes else .ok []
  | _ => .ok []

structure Request where
  clientid : Bytes
  spaceName : Bytes
  action : TupleCommand
  arguments : List Argument

-- All that handler receives of a message for a space that is there and open to the command.
def receiveRequest (env : Platform) (isLocal : Bool) (input : Input) : Except Stop (Option Request × Input) := do
  let (frame, input) ← zmqRecv input
  let clientid ← bufferString 50 frame
  let (bufLen, input) ← recvUint32 env.host input
  if bufLen = 0 ∨ bufLen > 50 then return (none, input)
  else
    let (frame, input) ← zmqRecv input
    let (code, input) ← recvUint32 env.host input
    match TupleCommand.ofCode code with
    | none => return (none, input)
    | some action =>
        let (arguments, input) ← receiveArguments env action isLocal input
        let spaceName := cstr ((frame.take 50).take (bufLen.toNat - 1))
        return (some { clientid := clientid, spaceName := spaceName, action := action, arguments := arguments }, input)

theorem handler_receives (env : Platform) (self : Tsd) (isLocal : Bool) (ticket : Nat) (input rest : Input) (request : Request)
    (space : TsdElement) (received : receiveRequest env isLocal input = .ok (some request, rest))
    (there : self.spaceTable request.spaceName = some space) (active : request.action = .tsConnect ∨ space.isActivated = true) :
    handler env self isLocal ticket input = (do
      let acted ← act env self ⟨.str request.clientid, request.action, isLocal, ticket⟩ space request.arguments
      let (acted, input) ← safeReturn acted rest
      return { self := { self with spaceTable := Function.update self.spaceTable request.spaceName (some acted.space) }
               sent := acted.sent
               input := input }) := by
  obtain ⟨⟨frame, one⟩, identity, received⟩ := bind_ok _ _ _ received
  obtain ⟨clientid, who, received⟩ := bind_ok _ _ _ received
  obtain ⟨⟨bufLen, two⟩, len, received⟩ := bind_ok _ _ _ received
  dsimp only at who received
  split at received
  · cases received
  · rename_i good
    obtain ⟨⟨name, three⟩, named, received⟩ := bind_ok _ _ _ received
    obtain ⟨⟨code, four⟩, command, received⟩ := bind_ok _ _ _ received
    dsimp only at received
    split at received
    · cases received
    · rename_i action decoded
      obtain ⟨⟨arguments, five⟩, got, received⟩ := bind_ok _ _ _ received
      cases received
      have open_ : ¬ (code ≠ TupleCommand.tsConnect.code ∧ (!space.isActivated) = true) := by
        rintro ⟨other, closed⟩
        rcases active with connects | is
        · exact other (by rw [← code_of_code code action decoded, show action = .tsConnect from connects])
        · simp [is] at closed
      simp only [handler, identity, who, len, if_neg good, named, there, command, if_neg open_, decoded, dispatch_receives, got, bind,
        Except.bind]
      cases done : act env self ⟨.str clientid, action, isLocal, ticket⟩ space arguments with
      | error stop => rfl
      | ok acted => rfl

-- What p2pm_send_str can announce to p2pm_recv_str.
def Name.Short (name : Name) : Prop := name.chars.length + 1 < 2 ^ 31

-- The senders whose message gets there. match_token_next ends its message with the endpoint, and announces the namespace without its
-- terminator; what a remote ts_bcast_write sends is received over a pointer; an empty tuple is no tuple to tsd_accept_transmit.
def Sender.Matched (ts : Ts) : Sender → Prop
  | .client (.tsInPut name _) | .client (.tsOutQuery _ _ name) | .client (.tsBcastRead _ name) => name.Short
  | .client _ => True
  | .bcastWrite name _ => ts.isLocal = true ∧ name.Short
  | .expect pattern => pattern.Short
  | .asClient identity data _ => identity.Short ∧ data ≠ []
  | .matchToken _ _ _ _ => False

-- A message gets to a daemon as it was sent, whatever waits behind it and in the pipe.
structure Sender.Gets (env : Platform) (ts : Ts) (sender : Sender) (message : List Frame) : Prop where
  whole : Multipart.Message Frame.more message
  received : ∀ who clientid later rcvmore passed chunks, bufferString 50 who = .ok clientid → sender.passes ts = .ok passed →
    receiveRequest env (sender.isLocal ts) ⟨⟨who, true⟩ :: (message ++ later), rcvmore, passed ++ chunks⟩ =
      .ok (some ⟨clientid, ts.tsname.chars, sender.command, sender.arguments ts⟩, ⟨later, false, chunks⟩)
  handled : ∀ self space ticket who clientid later rcvmore passed chunks, bufferString 50 who = .ok clientid →
    sender.passes ts = .ok passed → self.spaceTable ts.tsname.chars = some space →
      (sender.command = .tsConnect ∨ space.isActivated = true) →
        handler env self (sender.isLocal ts) ticket ⟨⟨who, true⟩ :: (message ++ later), rcvmore, passed ++ chunks⟩ = (do
          let acted ← act env self ⟨.str clientid, sender.command, sender.isLocal ts, ticket⟩ space (sender.arguments ts)
          return { self := { self with spaceTable := Function.update self.spaceTable ts.tsname.chars (some acted.space) }
                   sent := acted.sent
                   input := ⟨later, false, chunks⟩ })

def Sender.Agrees (env : Platform) (ts : Ts) (sender : Sender) : Prop := ∀ message ∈ sender.messages ts, sender.Gets env ts message

-- A string that is too long for its announced length never gets there.
theorem recv_send_str_long (str : Name) (long : ¬ str.Short) :
    p2pmRecvStr (UInt32.ofNat (str.chars.length + 1)) (str.chars ++ [0]) = .error .undefined := by
  have long : 2 ^ 31 ≤ str.chars.length + 1 := Nat.le_of_not_lt long
  by_cases big : 2 ^ 31 ≤ (UInt32.ofNat (str.chars.length + 1)).toNat
  · rw [p2pmRecvStr, if_pos (Or.inl big)]
  · have cut : 0 ∉ (str.chars ++ [0]).take (UInt32.ofNat (str.chars.length + 1)).toNat := by
      rw [List.take_append_of_le_length (by omega)]
      exact fun member => str.clean (List.mem_of_mem_take member)
    simp only [p2pmRecvStr, cut, if_false, ite_self]

theorem str_received_short (sender receiver : HostOrder) (str : Name) (more rcvmore : Bool) (later : List Frame) (chunks : List Chunk)
    (result : Bytes × Input)
    (received : recvStr receiver ⟨sendStrFrames sender str more ++ later, rcvmore, chunks⟩ = .ok result) : str.Short := by
  by_contra long
  rw [recv_str_sent, recv_send_str_long str long] at received
  cases received

theorem header_received (env : Platform) (isLocal : Bool) (ts : Ts) (who clientid frame : Bytes) (command : TupleCommand) (more : Bool)
    (rest : List Frame) (rcvmore : Bool) (chunks : List Chunk) (identity : bufferString 50 who = .ok clientid)
    (sent : frame = ts.tsname.chars ∨ frame = ts.tsname.chars ++ [0]) :
    receiveRequest env isLocal
        ⟨⟨who, true⟩ :: sendUint32Frame ts.host (tsnamelen ts) true :: ⟨frame, true⟩ ::
          sendUint32Frame ts.host command.code more :: rest, rcvmore, chunks⟩ =
      receiveArguments env command isLocal ⟨rest, more, chunks⟩ >>= fun result =>
        .ok (some ⟨clientid, ts.tsname.chars, command, result.1⟩, result.2) := by
  simp only [receiveRequest, zmqRecv, identity, recv_uint32_frame, bind, Except.bind, tsnamelen_accepted ts, if_false,
    space_name_received ts frame sent, of_code_code]
  rfl

def Sender.commandIsLast : Sender → Bool
  | .client call => call.commandIsLast
  | _ => false

-- The frames behind the command, match_token_next apart.
def Sender.behind (ts : Ts) : Sender → List Frame
  | .client call => call.arguments ts
  | .bcastWrite name data => sendStrFrames ts.host name (!ts.isLocal) ++ tsInData ts data
  | .expect pattern => sendStrFrames ts.host pattern false
  | .asClient identity data _ =>
      sendStrFrames ts.host identity true ++ [sendUint64Frame ts.host (UInt64.ofNat data.length) true, ⟨data, false⟩]
  | .matchToken _ _ _ _ => []

def requestFrames (ts : Ts) (frame : Bytes) (sender : Sender) : List Frame :=
  sendUint32Frame ts.host (tsnamelen ts) true :: ⟨frame, true⟩ ::
    sendUint32Frame ts.host sender.command.code (!sender.commandIsLast) :: sender.behind ts

theorem sender_message (ts : Ts) (sender : Sender)
    (other : ∀ peer node destination identity, sender ≠ .matchToken peer node destination identity) :
    ∃ frame, (frame = ts.tsname.chars ∨ frame = ts.tsname.chars ++ [0]) ∧ sender.messages ts = [requestFrames ts frame sender] := by
  cases sender with
  | client call =>
      cases call with
      | tsOpen mode => exact ⟨_, Or.inr rfl, rfl⟩
      | _ => exact ⟨_, Or.inl rfl, rfl⟩
  | bcastWrite name data => exact ⟨_, Or.inl rfl, rfl⟩
  | expect pattern => exact ⟨_, Or.inl rfl, rfl⟩
  | asClient identity data bounded => exact ⟨_, Or.inr rfl, rfl⟩
  | matchToken peer node destination identity => exact absurd rfl (other peer node destination identity)

theorem str_sized_whole (ts : Ts) (name : Name) (data : Payload) :
    Multipart.Message Frame.more (sendStrFrames ts.host name (!ts.isLocal) ++ tsInData ts data) := by
  cases near : ts.isLocal with
  | true =>
      simp only [sendStrFrames, tsInData, near, Bool.not_true, if_true, List.append_nil]
      exact Multipart.message_cons _ _ _ rfl (Multipart.message_last _ _ rfl)
  | false =>
      simp only [sendStrFrames, tsInData, near, Bool.not_false, Bool.false_eq_true, if_false, List.cons_append, List.nil_append]
      exact Multipart.message_cons _ _ _ rfl (Multipart.message_cons _ _ _ rfl
        (Multipart.message_cons _ _ _ rfl (Multipart.message_last _ _ rfl)))

theorem str_whole (host : HostOrder) (name : Name) : Multipart.Message Frame.more (sendStrFrames host name false) :=
  Multipart.message_cons _ _ _ rfl (Multipart.message_last _ _ rfl)

theorem behind_whole (ts : Ts) (sender : Sender)
    (other : ∀ peer node destination identity, sender ≠ .matchToken peer node destination identity)
    (more : sender.commandIsLast = false) : Multipart.Message Frame.more (sender.behind ts) := by
  cases sender with
  | client call =>
      cases call with
      | tsOpen mode => exact Multipart.message_last _ _ rfl
      | tsInPut name data => exact str_sized_whole ts name data
      | tsInAdd anonId nonzero data =>
          simp only [Sender.behind, Call.arguments, tsInData]
          cases near : ts.isLocal with
          | true => exact Multipart.message_last _ _ rfl
          | false => exact Multipart.message_cons _ _ _ rfl (Multipart.message_cons _ _ _ rfl (Multipart.message_last _ _ rfl))
      | tsOutQuery takes blocking name => exact str_whole ts.host name
      | tsOutFetch takes blocking => cases more
      | tsBcastRead blocking name => exact str_whole ts.host name
      | tsClose => cases more
  | bcastWrite name data => exact str_sized_whole ts name data
  | expect pattern => exact str_whole ts.host pattern
  | asClient identity data bounded =>
      exact Multipart.message_cons _ _ _ rfl (Multipart.message_cons _ _ _ rfl
        (Multipart.message_cons _ _ _ rfl (Multipart.message_last _ _ rfl)))
  | matchToken peer node destination identity => exact absurd rfl (other peer node destination identity)

theorem behind_nothing (ts : Ts) (sender : Sender) (ends : sender.commandIsLast = true) : sender.behind ts = [] := by
  cases sender with
  | client call =>
      cases call with
      | tsOutFetch takes blocking => rfl
      | tsClose => rfl
      | _ => cases ends
  | _ => cases ends

theorem request_whole (ts : Ts) (frame : Bytes) (sender : Sender)
    (other : ∀ peer node destination identity, sender ≠ .matchToken peer node destination identity) :
    Multipart.Message Frame.more (requestFrames ts frame sender) := by
  refine Multipart.message_cons _ _ _ rfl (Multipart.message_cons _ _ _ rfl ?_)
  cases last : sender.commandIsLast with
  | true =>
      rw [behind_nothing ts sender last]
      exact Multipart.message_last _ _ rfl
  | false => exact Multipart.message_cons _ _ _ rfl (behind_whole ts sender other last)

theorem item_passed (data : Payload) (passed chunks : List Chunk) (passes : sendItem data.bytes = .ok passed) :
    recvItem (passed ++ chunks) = .ok (data.bytes, chunks) := by
  obtain ⟨all, sends, receives⟩ := recv_send_item data.bytes data.nonempty data.bounded
  cases sends.symm.trans passes
  obtain ⟨used, same, _, frame, _⟩ := recv_item_frame data.bytes passed [] receives
  rw [List.append_nil] at same
  rw [same]
  exact frame chunks

theorem payload_passed (ts : Ts) (data : Payload) (passed chunks : List Chunk)
    (passes : (if ts.isLocal then sendItem data.bytes else .ok []) = .ok passed) :
    (if ts.isLocal then recvItem (passed ++ chunks) else .ok (data.bytes, passed ++ chunks)) = .ok (data.bytes, chunks) := by
  cases near : ts.isLocal with
  | true =>
      simp only [near, if_true] at passes ⊢
      exact item_passed data passed chunks passes
  | false =>
      simp only [near, Bool.false_eq_true, if_false, Except.ok.injEq] at passes ⊢
      rw [← passes, List.nil_append]

theorem call_payload (ts : Ts) (call : Call) (passed chunks : List Chunk) (chars : Bytes) (passes : call.passes ts = .ok passed)
    (read : call.nameRead = .ok chars) :
    ∃ bytes, call.payload ts.isLocal (passed ++ chunks) = .ok (bytes, chunks) ∧
      call.received ts.isLocal chars bytes = Sender.arguments ts (.client call) := by
  cases call with
  | tsInPut name data =>
      exact ⟨data.bytes, payload_passed ts data passed chunks passes, by rw [name_read name chars read]; rfl⟩
  | tsInAdd anonId nonzero data =>
      exact ⟨data.bytes, payload_passed ts data passed chunks passes, rfl⟩
  | tsOutQuery takes blocking name =>
      cases passes
      exact ⟨[], rfl, by rw [name_read name chars read]; rfl⟩
  | tsBcastRead blocking name =>
      cases passes
      exact ⟨[], rfl, by rw [name_read name chars read]; rfl⟩
  | _ =>
      cases passes
      exact ⟨[], rfl, rfl⟩

theorem name_reads (ts : Ts) (call : Call) (matched : Sender.Matched ts (.client call)) : ∃ chars, call.nameRead = .ok chars := by
  cases call with
  | tsInPut name data => exact ⟨_, recv_send_str_short name.chars name.clean matched⟩
  | tsOutQuery takes blocking name => exact ⟨_, recv_send_str_short name.chars name.clean matched⟩
  | tsBcastRead blocking name => exact ⟨_, recv_send_str_short name.chars name.clean matched⟩
  | _ => exact ⟨_, rfl⟩

-- Only a local ts_bcast_write has its tuple received.
theorem bcast_write_received (env : Platform) (ts : Ts) (name : Name) (data : Payload) (passed chunks : List Chunk) (later : List Frame)
    (near : ts.isLocal = true) (short : name.Short) (passes : (if ts.isLocal then sendItem data.bytes else .ok []) = .ok passed) :
    receiveArguments env .tsBCastWrite ts.isLocal
        ⟨sendStrFrames ts.host name (!ts.isLocal) ++ tsInData ts data ++ later, true, passed ++ chunks⟩ =
      .ok (.str name.chars :: sizedArguments ts.isLocal data.bytes, ⟨later, false, chunks⟩) := by
  simp only [near, if_true] at passes
  simp only [receiveArguments, List.append_assoc, recv_str_short ts.host env.host name _ _ _ _ short, bind, Except.bind, near, if_true,
    sizedArguments, tsInData, List.nil_append, Bool.not_true, recvItemPipe, item_passed data passed chunks passes]
  rfl

theorem transmit_received (env : Platform) (host : HostOrder) (identity : Name) (data : Payload) (chunks : List Chunk)
    (later : List Frame) (short : identity.Short) :
    receiveArguments env .tsTransmit false
        ⟨sendStrFrames host identity true ++
          [sendUint64Frame host (UInt64.ofNat data.bytes.length) true, ⟨data.bytes, false⟩] ++ later, true, chunks⟩ =
      .ok ([.str identity.chars, .long (UInt64.ofNat data.bytes.length), .data data.bytes data.bytes.length],
        ⟨later, false, chunks⟩) := by
  simp only [receiveArguments, List.append_assoc, recv_str_short host env.host identity _ _ _ _ short, bind, Except.bind,
    Bool.false_eq_true, if_false, List.cons_append, List.nil_append, sized_data_received env host data]
  rfl

theorem arguments_received (env : Platform) (ts : Ts) (sender : Sender) (passed chunks : List Chunk) (later : List Frame)
    (matched : sender.Matched ts) (passes : sender.passes ts = .ok passed) :
    receiveArguments env sender.command (sender.isLocal ts) ⟨sender.behind ts ++ later, !sender.commandIsLast, passed ++ chunks⟩ =
      .ok (sender.arguments ts, ⟨later, false, chunks⟩) := by
  cases sender with
  | client call =>
      obtain ⟨chars, read⟩ := name_reads ts call matched
      obtain ⟨bytes, payload, same⟩ := call_payload ts call passed chunks chars passes read
      refine (call_receives env ts call later (passed ++ chunks)).trans ?_
      simp only [read, payload, bind, Except.bind, same]
  | bcastWrite name data => exact bcast_write_received env ts name data passed chunks later matched.1 matched.2 passes
  | expect pattern =>
      cases passes
      refine (name_receives env ts.isLocal ts.host .tsExpect pattern later chunks (by simp)).trans ?_
      rw [recv_send_str_short pattern.chars pattern.clean matched]
      rfl
  | asClient identity data bounded =>
      cases passes
      exact transmit_received env ts.host identity ⟨data, matched.2, bounded⟩ chunks later matched.1
  | matchToken peer node destination identity => exact matched.elim

theorem matched_one (ts : Ts) (sender : Sender) (matched : sender.Matched ts) (peer : Platform) (node : Tsd)
    (destination identity : Bytes) :
    sender ≠ .matchToken peer node destination identity := by
  intro same
  rw [same] at matched
  exact matched

theorem matched_agrees (env : Platform) (ts : Ts) (sender : Sender) (matched : sender.Matched ts) : sender.Agrees env ts := by
  have other := matched_one ts sender matched
  obtain ⟨frame, sent, one⟩ := sender_message ts sender other
  have received : ∀ who clientid later rcvmore passed chunks, bufferString 50 who = .ok clientid → sender.passes ts = .ok passed →
      receiveRequest env (sender.isLocal ts) ⟨⟨who, true⟩ :: (requestFrames ts frame sender ++ later), rcvmore, passed ++ chunks⟩ =
        .ok (some ⟨clientid, ts.tsname.chars, sender.command, sender.arguments ts⟩, ⟨later, false, chunks⟩) := by
    intro who clientid later rcvmore passed chunks identity passes
    simp only [requestFrames, List.cons_append]
    rw [header_received env _ ts who clientid frame sender.command _ _ rcvmore _ identity sent,
      arguments_received env ts sender passed chunks later matched passes]
    rfl
  intro message member
  rw [one, List.mem_singleton] at member
  subst member
  refine ⟨request_whole ts frame sender other, received, ?_⟩
  intro self space ticket who clientid later rcvmore passed chunks identity passes there active
  rw [handler_receives env self (sender.isLocal ts) ticket _ _ _ space (received who clientid later rcvmore passed chunks identity passes)
    there active]
  cases act env self ⟨.str clientid, sender.command, sender.isLocal ts, ticket⟩ space (sender.arguments ts) with
  | error stop => rfl
  | ok acted =>
      simp only [bind, Except.bind, safe_return_end]

theorem sender_passes (ts : Ts) (sender : Sender) : ∃ passed, sender.passes ts = .ok passed := by
  have items : ∀ data : Payload, ∃ passed, (if ts.isLocal then sendItem data.bytes else .ok []) = .ok passed := by
    intro data
    obtain ⟨all, sends, _⟩ := recv_send_item data.bytes data.nonempty data.bounded
    by_cases near : ts.isLocal = true
    · exact ⟨all, by rw [if_pos near, sends]⟩
    · exact ⟨[], by rw [if_neg near]⟩
  cases sender with
  | client call =>
      cases call with
      | tsInPut name data => exact items data
      | tsInAdd anonId nonzero data => exact items data
      | _ => exact ⟨[], rfl⟩
  | bcastWrite name data => exact items data
  | _ => exact ⟨[], rfl⟩

def Sender.Reached (env : Platform) (ts : Ts) (sender : Sender) (passed : List Chunk) : Prop :=
  ∃ rest, receiveArguments env sender.command (sender.isLocal ts) ⟨sender.behind ts ++ [], !sender.commandIsLast, passed ++ []⟩ =
    .ok (sender.arguments ts, rest)

theorem agrees_reached (env : Platform) (ts : Ts) (sender : Sender) (passed : List Chunk) (agrees : sender.Agrees env ts)
    (other : ∀ peer node destination identity, sender ≠ .matchToken peer node destination identity)
    (passes : sender.passes ts = .ok passed) : sender.Reached env ts passed := by
  obtain ⟨frame, sent, one⟩ := sender_message ts sender other
  have gets := agrees (requestFrames ts frame sender) (by rw [one]; exact List.mem_singleton_self _)
  have received := gets.received [] [] [] false passed [] rfl passes
  simp only [requestFrames, List.cons_append] at received
  rw [header_received env _ ts [] [] frame sender.command _ _ false _ rfl sent] at received
  obtain ⟨⟨arguments, rest⟩, got, received⟩ := bind_ok _ _ _ received
  cases received
  exact ⟨_, got⟩

theorem name_short (env : Platform) (isLocal : Bool) (host : HostOrder) (command : TupleCommand) (name : Name) (more : Bool)
    (later : List Frame) (chunks : List Chunk) (result : List Argument × Input)
    (begins : command ∈ [.tsExpect, .tsGetBlocking, .tsReadBlocking, .tsRead, .tsGet, .tsBCastRead, .tsBCastReadBlocking, .tsPut,
      .tsBCastWrite, .tsTransmit])
    (received : receiveArguments env command isLocal ⟨sendStrFrames host name more ++ later, true, chunks⟩ = .ok result) :
    name.Short := by
  have reads : ∃ got, recvStr env.host ⟨sendStrFrames host name more ++ later, true, chunks⟩ = .ok got := by
    cases got : recvStr env.host ⟨sendStrFrames host name more ++ later, true, chunks⟩ with
    | ok read => exact ⟨read, rfl⟩
    | error stop =>
        simp only [List.mem_cons, List.not_mem_nil, or_false] at begins
        rcases begins with rfl | rfl | rfl | rfl | rfl | rfl | rfl | rfl | rfl | rfl
        all_goals
          simp only [receiveArguments, got, bind, Except.bind] at received
          try split at received
        all_goals cases received
  obtain ⟨read, got⟩ := reads
  exact str_received_short host env.host name more true later chunks read got

-- The namespace of match_token_next loses its last character.
theorem token_request_cut (env : Platform) (ts : Ts) (peer : Platform) (node : Tsd) (destination identity : Bytes) :
    ¬ Sender.Gets env ts (.matchToken peer node destination identity)
      (peerMessage [p2pmSendUint32 peer.host (UInt32.ofNat ts.tsname.chars.length), ts.tsname.chars,
        p2pmSendUint32 peer.host TupleCommand.tsRequest.code, (p2pmSendStr peer.host node.endpoint).1,
        (p2pmSendStr peer.host node.endpoint).2]) := by
  intro gets
  have received := gets.received [] [] [] false [] [] rfl rfl
  have word := recv_uint32_frame peer.host env.host (UInt32.ofNat ts.tsname.chars.length) true true
  simp only [sendUint32Frame] at word
  have short := ts.tsname.short
  have len : (UInt32.ofNat ts.tsname.chars.length).toNat = ts.tsname.chars.length := by
    rw [UInt32.toNat_ofNat']
    omega
  obtain ⟨⟨frame, one⟩, identity_, received⟩ := bind_ok _ _ _ received
  cases identity_
  obtain ⟨clientid, _, received⟩ := bind_ok _ _ _ received
  obtain ⟨⟨bufLen, two⟩, announced, received⟩ := bind_ok _ _ _ received
  simp only [peerMessage, List.cons_append, word] at announced
  cases announced
  dsimp only at received
  split at received
  · cases received
  · rename_i good
    have some_ : ts.tsname.chars.length ≠ 0 := by
      intro zero
      apply good
      rw [zero]
      exact Or.inl rfl
    obtain ⟨⟨name, three⟩, named, received⟩ := bind_ok _ _ _ received
    cases named
    obtain ⟨⟨code, four⟩, _, received⟩ := bind_ok _ _ _ received
    dsimp only at received
    split at received
    · cases received
    · obtain ⟨⟨arguments, rest⟩, _, received⟩ := bind_ok _ _ _ received
      have same : cstr ((ts.tsname.chars.take 50).take ((UInt32.ofNat ts.tsname.chars.length).toNat - 1)) = ts.tsname.chars := by
        simpa using congrArg Request.spaceName (Option.some.inj (congrArg Prod.fst (Except.ok.inj received)))
      have fewer := congrArg List.length same
      have taken : (cstr ((ts.tsname.chars.take 50).take ((UInt32.ofNat ts.tsname.chars.length).toNat - 1))).length ≤
          (UInt32.ofNat ts.tsname.chars.length).toNat - 1 :=
        Nat.le_trans (List.Sublist.length_le (List.takeWhile_sublist _)) (List.length_take_le _ _)
      rw [len] at taken fewer
      omega

theorem agrees_matched (env : Platform) (ts : Ts) (sender : Sender) (agrees : sender.Agrees env ts) : sender.Matched ts := by
  obtain ⟨passed, passes⟩ := sender_passes ts sender
  cases sender with
  | matchToken peer node destination identity =>
      exact token_request_cut env ts peer node destination identity (agrees _ List.mem_cons_self)
  | client call =>
      obtain ⟨rest, got⟩ := agrees_reached env ts _ passed agrees (by simp) passes
      cases call with
      | tsInPut name data =>
          simp only [Sender.behind, Call.arguments, List.append_assoc] at got
          exact name_short env _ ts.host .tsPut name _ _ _ _ (by simp) got
      | tsOutQuery takes blocking name =>
          refine name_short env _ ts.host _ name _ _ _ _ ?_ got
          cases takes <;> cases blocking <;> simp [Sender.command, Call.command]
      | tsBcastRead blocking name =>
          refine name_short env _ ts.host _ name _ _ _ _ ?_ got
          cases blocking <;> simp [Sender.command, Call.command]
      | _ => trivial
  | bcastWrite name data =>
      obtain ⟨rest, got⟩ := agrees_reached env ts _ passed agrees (by simp) passes
      simp only [Sender.behind, List.append_assoc] at got
      have short := name_short env _ ts.host .tsBCastWrite name _ _ _ _ (by simp) got
      refine ⟨?_, short⟩
      by_contra far
      have far : ts.isLocal = false := by simpa using far
      have some_ := payload_len_nonzero data
      simp only [Sender.command, Sender.isLocal, far, receiveArguments, recv_str_short ts.host env.host name _ _ _ _ short, bind, Except.bind,
        Bool.false_eq_true, if_false, tsInData, List.cons_append, recv_uint64_frame, if_neg some_, zmqRecv] at got
      cases got
  | expect pattern =>
      obtain ⟨rest, got⟩ := agrees_reached env ts _ passed agrees (by simp) passes
      exact name_short env _ ts.host .tsExpect pattern _ _ _ _ (by simp) got
  | asClient identity data bounded =>
      obtain ⟨rest, got⟩ := agrees_reached env ts _ passed agrees (by simp) passes
      simp only [Sender.behind, List.append_assoc] at got
      have short := name_short env _ ts.host .tsTransmit identity _ _ _ _ (by simp) got
      refine ⟨short, ?_⟩
      rintro rfl
      simp only [Sender.command, Sender.isLocal, receiveArguments, recv_str_short ts.host env.host identity _ _ _ _ short, bind, Except.bind,
        Bool.false_eq_true, if_false, List.cons_append, receiveSized, recv_uint64_frame, List.length_nil] at got
      cases got

-- A sender and the daemon agree exactly when it is not match_token_next nor a remote ts_bcast_write, its strings can be announced,
-- and the tuple of a tsd_as_client is not empty.
theorem senders_agree (env : Platform) (ts : Ts) (sender : Sender) : sender.Agrees env ts ↔ sender.Matched ts :=
  ⟨agrees_matched env ts sender, matched_agrees env ts sender⟩

-- What match_token_next sends for the space s.
theorem token_request_disagrees : ¬ ∀ (env : Platform) (ts : Ts) (sender : Sender), sender.Agrees env ts := by
  intro claim
  have gets := claim samplePlatform { host := .big, isLocal := false, tsname := sampleSpaceName }
    (.matchToken samplePlatform (tsdCreate [101] 1 sampleSpaces) [102] [78, 97]) _ List.mem_cons_self
  exact token_request_cut samplePlatform _ samplePlatform (tsdCreate [101] 1 sampleSpaces) [102] [78, 97] gets

end Synergy
