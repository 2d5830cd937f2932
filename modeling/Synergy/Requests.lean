import Synergy.Receiving
import Synergy.Client

set_option autoImplicit false

namespace Synergy

-- The identity s_set_id gives a socket.
structure Identity extends Name where
  short : chars.length < 50

theorem recv_uint32_frame (sender receiver : HostOrder) (word : UInt32) (more rcvmore : Bool) (later : List Frame)
    (chunks : List Chunk) :
    recvUint32 receiver ⟨sendUint32Frame sender word more :: later, rcvmore, chunks⟩ = .ok (word, ⟨later, more, chunks⟩) := by
  simp [recvUint32, zmqRecv, sendUint32Frame, bind, Except.bind, pure, Except.pure]

theorem recv_uint64_frame (sender receiver : HostOrder) (word : UInt64) (more rcvmore : Bool) (later : List Frame)
    (chunks : List Chunk) :
    recvUint64 receiver ⟨sendUint64Frame sender word more :: later, rcvmore, chunks⟩ = .ok (word, ⟨later, more, chunks⟩) := by
  simp [recvUint64, zmqRecv, sendUint64Frame, bind, Except.bind, pure, Except.pure]

theorem recv_data_frame (data : Bytes) (len : UInt64) (exact : len.toNat = data.length) (more rcvmore : Bool)
    (later : List Frame) (chunks : List Chunk) :
    recvData len ⟨⟨data, more⟩ :: later, rcvmore, chunks⟩ = .ok (data, data.length, ⟨later, more, chunks⟩) := by
  simp [recvData, zmqRecv, exact, bind, Except.bind, pure, Except.pure]

theorem recv_str_sent (sender receiver : HostOrder) (str : Name) (more rcvmore : Bool) (later : List Frame) (chunks : List Chunk) :
    recvStr receiver ⟨sendStrFrames sender str more ++ later, rcvmore, chunks⟩ =
      p2pmRecvStr (UInt32.ofNat (str.chars.length + 1)) (str.chars ++ [0]) >>= fun chars => .ok (chars, ⟨later, more, chunks⟩) := by
  have first := recv_uint32_frame sender receiver (UInt32.ofNat (str.chars.length + 1)) true rcvmore
    (⟨str.chars ++ [0], more⟩ :: later) chunks
  simp only [sendUint32Frame] at first
  simp only [recvStr, sendStrFrames, p2pmSendStr, List.cons_append, List.nil_append, first, zmqRecv, bind, Except.bind, pure,
    Except.pure]

theorem name_read (name : Name) (chars : Bytes)
    (read : p2pmRecvStr (UInt32.ofNat (name.chars.length + 1)) (name.chars ++ [0]) = .ok chars) : chars = name.chars := by
  rcases recv_send_str name.chars name.clean with arrives | lost
  · exact Except.ok.inj (read.symm.trans arrives)
  · rw [lost] at read
    cases read

theorem recv_str_frames (sender receiver : HostOrder) (str : Name) (more rcvmore : Bool) (later : List Frame)
    (chunks : List Chunk) (chars : Bytes) (input : Input)
    (received : recvStr receiver ⟨sendStrFrames sender str more ++ later, rcvmore, chunks⟩ = .ok (chars, input)) :
    chars = str.chars ∧ input = ⟨later, more, chunks⟩ := by
  rw [recv_str_sent] at received
  obtain ⟨read, arrives, received⟩ := bind_ok _ _ _ received
  cases received
  exact ⟨name_read str chars arrives, rfl⟩

theorem safe_return_end (acted : Acted) (later : List Frame) (chunks : List Chunk) :
    safeReturn acted ⟨later, false, chunks⟩ = .ok (acted, ⟨later, false, chunks⟩) := by
  unfold safeReturn
  split <;> cases later <;> rfl

-- What the payload of a ts_in is, once it has all arrived.
def Call.payload (isLocal : Bool) (chunks : List Chunk) : Call → Except Stop (Bytes × List Chunk)
  | .tsInPut _ data => if isLocal then recvItem chunks else .ok (data.bytes, chunks)
  | .tsInAdd _ _ data => if isLocal then recvItem chunks else .ok (data.bytes, chunks)
  | _ => .ok ([], chunks)

-- What the daemon does for a call once it has received the request and its payload.
def Call.act (env : Platform) (self : Tsd) (args : HandlerArg) (space : TsdElement) (data : Bytes) :
    Call → Except Stop Acted
  | .tsOpen mode => connectMode env self args space mode
  | .tsInPut name _ => putTuple env self args space name.chars data
  | .tsInAdd anonId _ _ => addTuple env self args space anonId data (if args.isLocal then 0 else data.length)
  | .tsOutQuery _ _ name => readTuple env args space name.chars
  | .tsOutFetch _ _ => fetchTuple env args space
  | .tsBcastRead _ name => bcastReadTuple env args space name.chars
  | .tsClose => termSpace env self space

theorem payload_len (data : Payload) : (UInt64.ofNat data.bytes.length).toNat = data.bytes.length := by
  have bound := data.bounded
  rw [UInt64.toNat_ofNat']
  omega

theorem payload_len_nonzero (data : Payload) : ¬ UInt64.ofNat data.bytes.length = 0 := by
  intro zero
  have positive := List.length_pos_iff.mpr data.nonempty
  have exact := payload_len data
  rw [zero] at exact
  simp at exact
  omega

-- What p2pm_recv_str makes of the name in a call.
def Call.nameRead : Call → Except Stop Bytes
  | .tsInPut name _ | .tsOutQuery _ _ name | .tsBcastRead _ name =>
      p2pmRecvStr (UInt32.ofNat (name.chars.length + 1)) (name.chars ++ [0])
  | _ => .ok []

def sizedArguments (isLocal : Bool) (bytes : Bytes) : List Argument :=
  if isLocal then [.item bytes] else [.long (UInt64.ofNat bytes.length), .data bytes bytes.length]

-- The arguments of a call whose name and payload have been received as that.
def Call.received (isLocal : Bool) (chars bytes : Bytes) : Call → List Argument
  | .tsOpen mode => [.word mode]
  | .tsInPut _ _ => .str chars :: sizedArguments isLocal bytes
  | .tsInAdd anonId _ _ => .word anonId :: sizedArguments isLocal bytes
  | .tsOutQuery _ _ _ | .tsBcastRead _ _ => [.str chars]
  | .tsOutFetch _ _ | .tsClose => []

theorem sized_data_received (env : Platform) (host : HostOrder) (data : Payload) (rcvmore : Bool) (later : List Frame)
    (chunks : List Chunk) :
    receiveSized env ⟨sendUint64Frame host (UInt64.ofNat data.bytes.length) true :: ⟨data.bytes, false⟩ :: later, rcvmore, chunks⟩ =
      .ok ([.long (UInt64.ofNat data.bytes.length), .data data.bytes data.bytes.length], ⟨later, false, chunks⟩) := by
  simp only [receiveSized, recv_uint64_frame, bind, Except.bind, if_neg (payload_len_nonzero data),
    recv_data_frame data.bytes _ (payload_len data)]
  rfl

theorem name_receives (env : Platform) (isLocal : Bool) (host : HostOrder) (command : TupleCommand) (name : Name) (later : List Frame)
    (chunks : List Chunk)
    (reads : command ∈ [.tsExpect, .tsGetBlocking, .tsReadBlocking, .tsRead, .tsGet, .tsBCastRead, .tsBCastReadBlocking]) :
    receiveArguments env command isLocal ⟨sendStrFrames host name false ++ later, true, chunks⟩ =
      p2pmRecvStr (UInt32.ofNat (name.chars.length + 1)) (name.chars ++ [0]) >>= fun chars =>
        .ok ([.str chars], ⟨later, false, chunks⟩) := by
  have sent := recv_str_sent host env.host name false true later chunks
  simp only [List.mem_cons, List.not_mem_nil, or_false] at reads
  rcases reads with rfl | rfl | rfl | rfl | rfl | rfl | rfl
  all_goals
    simp only [receiveArguments, sent]
    cases p2pmRecvStr (UInt32.ofNat (name.chars.length + 1)) (name.chars ++ [0]) with
    | error stop => rfl
    | ok chars => rfl

theorem call_receives (env : Platform) (ts : Ts) (call : Call) (later : List Frame) (chunks : List Chunk) :
    receiveArguments env call.command ts.isLocal ⟨call.arguments ts ++ later, !call.commandIsLast, chunks⟩ =
      call.nameRead >>= fun chars => call.payload ts.isLocal chunks >>= fun item =>
        .ok (call.received ts.isLocal chars item.1, ⟨later, false, item.2⟩) := by
  cases call with
  | tsOpen mode =>
      simp only [Call.command, receiveArguments, Call.arguments, List.cons_append, recv_uint32_frame, bind, Except.bind]
      rfl
  | tsInPut name data =>
      simp only [Call.command, receiveArguments, Call.arguments, List.append_assoc, Call.commandIsLast, recv_str_sent, Call.nameRead]
      cases p2pmRecvStr (UInt32.ofNat (name.chars.length + 1)) (name.chars ++ [0]) with
      | error stop => rfl
      | ok chars =>
          cases near : ts.isLocal with
          | true =>
              simp only [Call.payload, tsInData, near, if_true, recvItemPipe, bind, Except.bind, List.nil_append, Bool.not_true]
              cases recvItem chunks with
              | error stop => rfl
              | ok item => rfl
          | false =>
              simp only [Call.payload, tsInData, near, Bool.false_eq_true, if_false, bind, Except.bind, List.cons_append, List.nil_append,
                sized_data_received]
              rfl
  | tsInAdd anonId nonzero data =>
      simp only [Call.command, receiveArguments, Call.arguments, List.cons_append, recv_uint32_frame, bind, Except.bind, if_neg nonzero]
      cases near : ts.isLocal with
      | true =>
          simp only [Call.nameRead, Call.payload, tsInData, near, if_true, recvItemPipe, bind, Except.bind, List.nil_append, Bool.not_true]
          cases recvItem chunks with
          | error stop => rfl
          | ok item => rfl
      | false =>
          simp only [Call.nameRead, Call.payload, tsInData, near, Bool.false_eq_true, if_false, List.cons_append, List.nil_append,
            recv_uint64_frame, recv_data_frame data.bytes _ (payload_len data)]
          rfl
  | tsOutQuery takes blocking name =>
      simp only [Call.arguments, Call.commandIsLast, Bool.not_false]
      rw [name_receives env ts.isLocal ts.host _ name later chunks (by cases takes <;> cases blocking <;> simp [Call.command])]
      rfl
  | tsOutFetch takes blocking => cases takes <;> cases blocking <;> rfl
  | tsBcastRead blocking name =>
      simp only [Call.arguments, Call.commandIsLast, Bool.not_false]
      rw [name_receives env ts.isLocal ts.host _ name later chunks (by cases blocking <;> simp [Call.command])]
      rfl
  | tsClose => rfl

theorem dispatch_sent (env : Platform) (self : Tsd) (args : HandlerArg) (space : TsdElement) (ts : Ts) (call : Call)
    (later : List Frame) (chunks : List Chunk) (action : args.action = call.command) (place : args.isLocal = ts.isLocal) :
    dispatch env self args space ⟨call.arguments ts ++ later, !call.commandIsLast, chunks⟩ =
      call.nameRead >>= fun chars => call.payload args.isLocal chunks >>= fun item =>
        act env self args space (call.received args.isLocal chars item.1) >>= fun acted => .ok (acted, ⟨later, false, item.2⟩) := by
  rw [dispatch_receives, action, place, call_receives]
  cases call.nameRead with
  | error stop => rfl
  | ok chars =>
      cases call.payload ts.isLocal chunks with
      | error stop => rfl
      | ok item =>
          simp only [bind, Except.bind]
          cases act env self args space (call.received ts.isLocal chars item.1) with
          | error stop => rfl
          | ok acted => exact safe_return_end acted later item.2

theorem act_call (env : Platform) (self : Tsd) (args : HandlerArg) (space : TsdElement) (call : Call) (chars bytes : Bytes)
    (action : args.action = call.command) (read : call.nameRead = .ok chars) :
    act env self args space (call.received args.isLocal chars bytes) = call.act env self args space bytes := by
  cases call with
  | tsOpen mode => simp only [Call.received, act, action, Call.command, if_true, Call.act]
  | tsInPut name data =>
      rw [name_read name chars read]
      cases near : args.isLocal <;> simp only [Call.received, sizedArguments, Bool.false_eq_true, if_false, if_true, act, action,
        Call.command, Call.act]
  | tsInAdd anonId nonzero data =>
      cases near : args.isLocal <;> simp only [Call.received, sizedArguments, Bool.false_eq_true, if_false, if_true, act, near, Call.act]
  | tsOutQuery takes blocking name =>
      rw [name_read name chars read]
      cases takes <;> cases blocking <;> simp only [Call.received, act, action, Call.command, Call.act]
  | tsOutFetch takes blocking =>
      cases takes <;> cases blocking <;> simp only [Call.received, act, action, Call.command, Call.act]
  | tsBcastRead blocking name =>
      rw [name_read name chars read]
      cases blocking <;> simp only [Call.received, act, action, Call.command, Call.act]
  | tsClose => simp only [Call.received, act, action, Call.command, Call.act]

theorem dispatch_call (env : Platform) (self : Tsd) (args : HandlerArg) (space : TsdElement) (ts : Ts) (call : Call)
    (later : List Frame) (chunks : List Chunk) (acted : Acted) (input : Input) (action : args.action = call.command)
    (place : args.isLocal = ts.isLocal)
    (handled : dispatch env self args space ⟨call.arguments ts ++ later, !call.commandIsLast, chunks⟩ = .ok (acted, input)) :
    ∃ bytes rest, call.payload args.isLocal chunks = .ok (bytes, rest) ∧ call.act env self args space bytes = .ok acted ∧
      input = ⟨later, false, rest⟩ := by
  rw [dispatch_sent env self args space ts call later chunks action place] at handled
  obtain ⟨chars, read, handled⟩ := bind_ok _ _ _ handled
  obtain ⟨⟨bytes, rest⟩, payload, handled⟩ := bind_ok _ _ _ handled
  obtain ⟨served, acts, handled⟩ := bind_ok _ _ _ handled
  cases handled
  rw [act_call env self args space call chars bytes action read] at acts
  exact ⟨bytes, rest, payload, acts, rfl⟩

-- What one message does to the daemon: it is refused, or dispatched with what was sent.
inductive Served (env : Platform) (self : Tsd) (ts : Ts) (clientid : Identity) (ticket : Nat) (call : Call)
    (later : List Frame) (chunks : List Chunk) : Handled → Prop where
  | refused (closed : ∀ space, self.spaceTable ts.tsname.chars = some space →
      call.command ≠ .tsConnect ∧ space.isActivated = false) :
      Served env self ts clientid ticket call later chunks
        { self := self
          sent := [.frame ts.isLocal ticket clientid.chars true,
            sendUint32 env ts.isLocal ticket TupleCommand.tsEnf.code false]
          input := ⟨later, false, chunks⟩ }
  | acted (space : TsdElement) (bytes : Bytes) (rest : List Chunk) (acted : Acted)
      (found : self.spaceTable ts.tsname.chars = some space)
      (active : call.command = .tsConnect ∨ space.isActivated = true)
      (payload : call.payload ts.isLocal chunks = .ok (bytes, rest))
      (done : call.act env self ⟨.str clientid.chars, call.command, ts.isLocal, ticket⟩ space bytes = .ok acted) :
      Served env self ts clientid ticket call later chunks
        { self := { self with spaceTable := Function.update self.spaceTable ts.tsname.chars (some acted.space) }
          sent := acted.sent
          input := ⟨later, false, rest⟩ }

theorem drain_arguments (ts : Ts) (call : Call) (later : List Frame) :
    drainFrames (call.arguments ts ++ later) (!call.commandIsLast) = .ok later := by
  cases here : ts.isLocal <;> cases call <;> cases later <;>
    simp [Call.arguments, Call.commandIsLast, drainFrames, sendStrFrames, tsInData, sendUint32Frame, sendUint64Frame, here]

theorem space_name_received (ts : Ts) (frame : Bytes) (sent : frame = ts.tsname.chars ∨ frame = ts.tsname.chars ++ [0]) :
    cstr ((frame.take 50).take ((tsnamelen ts).toNat - 1)) = ts.tsname.chars := by
  have short := ts.tsname.short
  have len : (tsnamelen ts).toNat - 1 = ts.tsname.chars.length := by
    rw [tsnamelen, UInt32.toNat_ofNat']
    omega
  have front : (frame.take 50).take ts.tsname.chars.length = ts.tsname.chars := by
    rw [List.take_take, Nat.min_eq_left (by omega)]
    rcases sent with bare | terminated
    · rw [bare, List.take_length]
    · rw [terminated, List.take_left']
      rfl
  rw [len, front]
  exact (cstr_eq_self _).mpr ts.tsname.clean

theorem refuse_request (env : Platform) (self : Tsd) (isLocal : Bool) (ticket : Nat) (clientid : Bytes) (frames later : List Frame)
    (rcvmore : Bool) (chunks : List Chunk) (drained : drainFrames frames rcvmore = .ok later) :
    handleSecondError env self isLocal ticket clientid ⟨frames, rcvmore, chunks⟩ =
      .ok ⟨self, [.frame isLocal ticket clientid true, sendUint32 env isLocal ticket TupleCommand.tsEnf.code false],
        ⟨later, false, chunks⟩⟩ := by
  simp only [handleSecondError, tsFail, drained, bind, Except.bind, pure, Except.pure]

theorem tsnamelen_accepted (ts : Ts) : ¬ (tsnamelen ts = 0 ∨ tsnamelen ts > 50) := by
  have short := ts.tsname.short
  have len : (tsnamelen ts).toNat = ts.tsname.chars.length + 1 := by
    rw [tsnamelen, UInt32.toNat_ofNat']
    omega
  rintro (zero | large)
  · simp [zero] at len
  · have bound := UInt32.lt_iff_toNat_lt.mp large
    simp at bound
    omega

theorem handler_dispatches (env : Platform) (self : Tsd) (ts : Ts) (who clientid : Bytes) (ticket : Nat) (command : TupleCommand)
    (more : Bool) (frame : Bytes) (rest : List Frame) (rcvmore : Bool) (chunks : List Chunk) (space : TsdElement)
    (identity : bufferString 50 who = .ok clientid) (sent : frame = ts.tsname.chars ∨ frame = ts.tsname.chars ++ [0])
    (found : self.spaceTable ts.tsname.chars = some space) (active : command = .tsConnect ∨ space.isActivated = true) :
    handler env self ts.isLocal ticket
        ⟨⟨who, true⟩ :: sendUint32Frame ts.host (tsnamelen ts) true :: ⟨frame, true⟩ ::
          sendUint32Frame ts.host command.code more :: rest, rcvmore, chunks⟩ =
      dispatch env self ⟨.str clientid, command, ts.isLocal, ticket⟩ space ⟨rest, more, chunks⟩ >>= fun result =>
        .ok ⟨{ self with spaceTable := Function.update self.spaceTable ts.tsname.chars (some result.1.space) }, result.1.sent,
          result.2⟩ := by
  have reached : ¬ (command.code ≠ TupleCommand.tsConnect.code ∧ (!space.isActivated) = true) := by
    rintro ⟨other, closed⟩
    cases active with
    | inl connects => exact other (by rw [connects])
    | inr is => simp [is] at closed
  simp only [handler, zmqRecv, identity, recv_uint32_frame, bind, Except.bind, tsnamelen_accepted ts, if_false,
    space_name_received ts frame sent, found, of_code_code, if_neg reached]
  rfl

theorem handler_reaches (env : Platform) (self : Tsd) (ts : Ts) (clientid : Identity) (ticket : Nat) (call : Call)
    (later : List Frame) (rcvmore : Bool) (chunks : List Chunk) :
    (handler env self ts.isLocal ticket ⟨⟨clientid.chars, true⟩ :: (call.frames ts ++ later), rcvmore, chunks⟩ =
        .ok ⟨self, [.frame ts.isLocal ticket clientid.chars true, sendUint32 env ts.isLocal ticket TupleCommand.tsEnf.code false],
          ⟨later, false, chunks⟩⟩ ∧
      ∀ space, self.spaceTable ts.tsname.chars = some space → call.command ≠ .tsConnect ∧ space.isActivated = false) ∨
    ∃ space, self.spaceTable ts.tsname.chars = some space ∧ (call.command = .tsConnect ∨ space.isActivated = true) ∧
      handler env self ts.isLocal ticket ⟨⟨clientid.chars, true⟩ :: (call.frames ts ++ later), rcvmore, chunks⟩ =
        dispatch env self ⟨.str clientid.chars, call.command, ts.isLocal, ticket⟩ space
          ⟨call.arguments ts ++ later, !call.commandIsLast, chunks⟩ >>= fun result =>
            .ok ⟨{ self with spaceTable := Function.update self.spaceTable ts.tsname.chars (some result.1.space) }, result.1.sent,
              result.2⟩ := by
  obtain ⟨frame, sent, frames⟩ : ∃ frame, (frame = ts.tsname.chars ∨ frame = ts.tsname.chars ++ [0]) ∧
      call.frames ts = sendUint32Frame ts.host (tsnamelen ts) true :: ⟨frame, true⟩ ::
        sendUint32Frame ts.host call.command.code (!call.commandIsLast) :: call.arguments ts := by
    cases call with
    | tsOpen mode => exact ⟨_, Or.inr rfl, rfl⟩
    | _ => exact ⟨_, Or.inl rfl, rfl⟩
  have drained := drain_arguments ts call later
  simp only [handler, zmqRecv, buffer_string_short 50 clientid.chars clientid.clean clientid.short, frames, List.cons_append,
    recv_uint32_frame, bind, Except.bind, tsnamelen_accepted ts, if_false, space_name_received ts frame sent]
  cases found : self.spaceTable ts.tsname.chars with
  | none =>
      have whole : drainFrames (sendUint32Frame ts.host call.command.code (!call.commandIsLast) ::
          (call.arguments ts ++ later)) true = .ok later := drained
      exact Or.inl ⟨refuse_request env self ts.isLocal ticket clientid.chars _ later true chunks whole, by simp⟩
  | some space =>
      simp only [of_code_code]
      by_cases closed : call.command.code ≠ TupleCommand.tsConnect.code ∧ (!space.isActivated) = true
      · left
        rw [if_pos closed]
        refine ⟨refuse_request env self ts.isLocal ticket clientid.chars _ later _ chunks drained, fun other member => ?_⟩
        have same : space = other := Option.some.inj member
        exact ⟨fun connect => closed.1 (by rw [connect]), by simpa [same] using closed.2⟩
      · right
        have active : call.command = .tsConnect ∨ space.isActivated = true := by
          by_cases connect : call.command.code = TupleCommand.tsConnect.code
          · exact Or.inl (code_injective _ _ connect)
          · right
            by_contra inactive
            exact closed ⟨connect, by simpa using inactive⟩
        refine ⟨space, rfl, active, ?_⟩
        rw [if_neg closed]
        rfl

theorem handler_call (env : Platform) (self : Tsd) (ts : Ts) (clientid : Identity) (ticket : Nat) (call : Call)
    (later : List Frame) (rcvmore : Bool) (chunks : List Chunk) (handled : Handled)
    (done : handler env self ts.isLocal ticket
      ⟨⟨clientid.chars, true⟩ :: (call.frames ts ++ later), rcvmore, chunks⟩ = .ok handled) :
    Served env self ts clientid ticket call later chunks handled := by
  rcases handler_reaches env self ts clientid ticket call later rcvmore chunks with ⟨refused, closed⟩ | ⟨space, found, active, reached⟩
  · rw [refused] at done
    cases done
    exact Served.refused closed
  · rw [reached] at done
    obtain ⟨⟨acted, input⟩, dispatched, done⟩ := bind_ok _ _ _ done
    obtain ⟨bytes, rest, payload, performed, left⟩ := dispatch_call env self
      ⟨.str clientid.chars, call.command, ts.isLocal, ticket⟩ space ts call later chunks acted input rfl rfl dispatched
    subst left
    cases done
    exact Served.acted space bytes rest acted found active payload performed

end Synergy
