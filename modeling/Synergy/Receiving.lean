import Synergy.Handlers

set_option autoImplicit false

namespace Synergy

-- What a handler receives behind the command. data: a block of the announced size, and what zmq_recv has returned for it; item: through
-- ts_tsd_pipe.
inductive Argument where
  | word (word : UInt32)
  | long (word : UInt64)
  | str (chars : Bytes)
  | data (bytes : Bytes) (received : Nat)
  | item (bytes : Bytes)
deriving DecidableEq

def Argument.frames : Argument → Nat
  | .word _ | .long _ | .data _ _ => 1
  | .str _ => 2
  | .item _ => 0

-- A length, and as much data where it is not 0.
def receiveSized (env : Platform) (input : Input) : Except Stop (List Argument × Input) := do
  let (len, input) ← recvUint64 env.host input
  if len = 0 then return ([.long len], input)
  else
    let (bytes, received, input) ← recvData len input
    return ([.long len, .data bytes received], input)

-- All that the handler of a command receives, in its order.
def receiveArguments (env : Platform) (action : TupleCommand) (isLocal : Bool) (input : Input) : Except Stop (List Argument × Input) :=
  match action with
  | .tsExpect | .tsGetBlocking | .tsReadBlocking | .tsRead | .tsGet | .tsBCastRead | .tsBCastReadBlocking => do
      let (name, input) ← recvStr env.host input
      return ([.str name], input)
  | .tsConnect => do
      let (mode, input) ← recvUint32 env.host input
      return ([.word mode], input)
  | .tsPut => do
      let (name, input) ← recvStr env.host input
      if isLocal then
        let (bytes, input) ← recvItemPipe input
        return ([.str name, .item bytes], input)
      else
        let (sized, input) ← receiveSized env input
        return (.str name :: sized, input)
  | .tsAdd => do
      let (anonId, input) ← recvUint32 env.host input
      if anonId = 0 then return ([.word anonId], input)
      else if isLocal then
        let (bytes, input) ← recvItemPipe input
        return ([.word anonId, .item bytes], input)
      else
        let (len, input) ← recvUint64 env.host input
        let (bytes, received, input) ← recvData len input
        return ([.word anonId, .long len, .data bytes received], input)
  | .tsBCastWrite => do
      let (name, input) ← recvStr env.host input
      if isLocal then
        let (bytes, input) ← recvItemPipe input
        return ([.str name, .item bytes], input)
      else
        let (len, input) ← recvUint64 env.host input
        if len = 0 then return ([.str name, .long len], input)
        else
          -- zmq_recv over the pointer to the data
          let _ ← zmqRecv input
          throw .undefined
  | .tsTransmit => do
      if isLocal then throw .aborted
      let (identity, input) ← recvStr env.host input
      let (sized, input) ← receiveSized env input
      return (.str identity :: sized, input)
  | .tsRequest | .tsTake => do
      let (endpoint, input) ← recvStr env.host input
      let (identity, input) ← recvStr env.host input
      return ([.str endpoint, .str identity], input)
  | _ => .ok ([], input)

-- The rest of tsd_as_client.
def answerPeer (env : Platform) (args : HandlerArg) (space : TsdElement) (endpoint identity : Bytes) : Except Stop Acted :=
  if !env.connects endpoint then .ok { rt := some 0, space := space, sent := [] }
  else do
    let isAnon := identity.head? = some 'A'.toUInt8
    if identity = [] then throw .undefined
    let search : SngTuple :=
      { name := if isAnon then .null else .str (identity.drop 1)
        anonId := if isAnon then UInt32.ofNat (strtoul (identity.drop 1)).toNat else 0
        data := []
        origin := 0 }
    let isBcast := identity[1]? = some 'B'.toUInt8
    let queue := if isBcast then space.bcastQueue else space.namedQueue
    let handle ← zlistxFind (fun tuple => tplcmp env tuple search) queue
    match handle.bind fun found => queue[found]? with
    | none => return { rt := some 0, space := space, sent := [] }
    | some reply =>
        let (len, body) := p2pmSendStr env.host identity
        let rest := (zlistxDetach queue handle).2
        let taken := if isBcast then { space with bcastQueue := rest } else { space with namedQueue := rest }
        let frames :=
          [p2pmSendUint32 env.host (UInt32.ofNat (space.name.length + 1)), space.name ++ [0],
            p2pmSendUint32 env.host TupleCommand.tsTransmit.code, len, body,
            p2pmSendUint64 env.host (UInt64.ofNat reply.data.length), reply.data]
        let left := if args.action = .tsTake then taken else space
        return { rt := some 0, space := left, sent := [.peer endpoint frames] }

-- The rest of tsd_accept_transmit.
def acceptTuple (env : Platform) (self : Tsd) (args : HandlerArg) (space : TsdElement) (identity data : Bytes) : Except Stop Acted :=
  if identity.head? = some 'N'.toUInt8 then .error .undefined
  else if identity.head? = some 'A'.toUInt8 then do
    let tuple : SngTuple :=
      { name := .null, anonId := UInt32.ofNat (strtoul (identity.drop 1)).toNat, data := data, origin := args.ticket }
    let (_, space, sent) ← matchBlockingRequests env self (space.record (.accepted tuple)) tuple .tsAdd
    return { rt := some 0, space := space, sent := sent }
  else .ok { rt := some 1, space := space, sent := [] }

def act (env : Platform) (self : Tsd) (args : HandlerArg) (space : TsdElement) : List Argument → Except Stop Acted
  | [.str name] =>
      match args.action with
      | .tsExpect => .ok { rt := none, space := { space with expectQueue := space.expectQueue ++ [name] }, sent := [] }
      | .tsBCastRead | .tsBCastReadBlocking => bcastReadTuple env args space name
      | _ => readTuple env args space name
  | [.word word] =>
      if args.action = .tsConnect then connectMode env self args space word else .ok { rt := some 1, space := space, sent := [] }
  | [.str name, .item data] => if args.action = .tsPut then putTuple env self args space name data else .error .undefined
  | [.word anonId, .item data] => addTuple env self args space anonId data 0
  | [.word anonId, .long _, .data data received] => addTuple env self args space anonId data received
  | [.str _, .long _] =>
      if args.action = .tsBCastWrite then .ok { rt := some 2, space := space, sent := [] }
      else .ok { rt := some 1, space := space, sent := [] }
  | [.str name, .long _, .data data _] =>
      if args.action = .tsPut then putTuple env self args space name data else acceptTuple env self args space name data
  | [.str endpoint, .str identity] => answerPeer env args space endpoint identity
  | _ =>
      match args.action with
      | .tsPeek | .tsPop | .tsPopBlocking | .tsPeekBlocking => fetchTuple env args space
      | .tsTerm => termSpace env self space
      | .tsDeposit | .tsMigrate | .tsReplicate => .ok { rt := none, space := space, sent := [] }
      | _ => .ok { rt := some (-1), space := space, sent := [] }

theorem safe_return_plain (acted : Acted) (input : Input) (plain : acted.rt ≠ some 1) : safeReturn acted input = .ok (acted, input) := by
  rw [safeReturn, if_neg plain]
  rfl

-- match_blocking_requests returns 1 for no command that gets to it.
theorem match_returns (env : Platform) (self : Tsd) (space left : TsdElement) (tuple : SngTuple) (rt : Int) (sent : List Out)
    (done : matchBlockingRequests env self space tuple .tsAdd = .ok (rt, left, sent)) : rt ≠ 1 := by
  unfold matchBlockingRequests at done
  simp only [TsdElement.opQueue] at done
  obtain ⟨⟨state, finished⟩, _, done⟩ := bind_ok _ _ _ done
  dsimp only at done
  split at done
  · cases done
    decide
  · split at done
    · cases done
      decide
    · split at done
      · obtain ⟨token, _, done⟩ := bind_ok _ _ _ done
        cases done
        decide
      · cases done
        decide

theorem add_returns (env : Platform) (self : Tsd) (args : HandlerArg) (space : TsdElement) (anonId : UInt32) (data : Bytes)
    (received : Nat) (acted : Acted) (add : args.action = .tsAdd) (done : addTuple env self args space anonId data received = .ok acted) :
    acted.rt = some 1 ↔ args.isLocal = false ∧ space.tsMode = .p2p ∧ received = 1 := by
  unfold addTuple at done
  dsimp only at done
  split at done
  · rename_i remote
    cases done
    have far : args.isLocal = false := by simpa using remote.1
    have peers : space.tsMode = .p2p := remote.2
    refine ⟨fun one => ⟨far, peers, ?_⟩, fun one => by rw [one.2.2]; rfl⟩
    have one : (received : Int) = 1 := Option.some.inj one
    omega
  · rename_i near
    obtain ⟨⟨rt, left, sent⟩, matched, done⟩ := bind_ok _ _ _ done
    cases done
    rw [add] at matched
    have other := match_returns env self _ left _ rt sent matched
    refine ⟨fun one => absurd (Option.some.inj one) other, fun remote => absurd ⟨?_, remote.2.1⟩ near⟩
    simpa using remote.1

theorem put_receives (env : Platform) (self : Tsd) (args : HandlerArg) (space : TsdElement) (input : Input) (put : args.action = .tsPut) :
    namedQueueWriteHandler env self args space input = (do
      let (arguments, input) ← receiveArguments env .tsPut args.isLocal input
      let acted ← act env self args space arguments
      safeReturn acted input) := by
  simp only [namedQueueWriteHandler, receiveArguments, receiveSized, put, if_true, bind, Except.bind]
  cases recvStr env.host input with
  | error stop => rfl
  | ok received =>
      obtain ⟨name, input⟩ := received
      dsimp only
      cases args.isLocal with
      | true =>
          simp only [if_true]
          cases recvItemPipe input with
          | error stop => rfl
          | ok received => simp only [act, put, if_true, pure, Except.pure]
      | false =>
          simp only [Bool.false_eq_true, if_false]
          cases recvUint64 env.host input with
          | error stop => rfl
          | ok received =>
              obtain ⟨len, input⟩ := received
              dsimp only
              by_cases zero : len = 0
              · simp only [if_pos zero, pure, Except.pure, act, put, reduceCtorEq, if_false]
              · simp only [if_neg zero]
                cases recvData len input with
                | error stop => rfl
                | ok received => simp only [act, put, if_true, pure, Except.pure]

theorem add_receives (env : Platform) (self : Tsd) (args : HandlerArg) (space : TsdElement) (input : Input) (add : args.action = .tsAdd) :
    namedQueueWriteHandler env self args space input = (do
      let (arguments, input) ← receiveArguments env .tsAdd args.isLocal input
      let acted ← act env self args space arguments
      safeReturn acted input) := by
  have notPut : ¬ args.action = .tsPut := by simp [add]
  simp only [namedQueueWriteHandler, receiveArguments, if_neg notPut, bind, Except.bind]
  cases recvUint32 env.host input with
  | error stop => rfl
  | ok received =>
      obtain ⟨anonId, input⟩ := received
      dsimp only
      by_cases zero : anonId = 0
      · simp only [if_pos zero, pure, Except.pure, act, add, reduceCtorEq, if_false]
      · simp only [if_neg zero]
        cases near : args.isLocal with
        | true =>
            simp only [if_true]
            cases recvItemPipe input with
            | error stop => rfl
            | ok received =>
                obtain ⟨bytes, input⟩ := received
                simp only [pure, Except.pure, act]
                cases done : addTuple env self args space anonId bytes 0 with
                | error stop => rfl
                | ok acted =>
                    have plain : acted.rt ≠ some 1 := by
                      rw [ne_eq, add_returns env self args space anonId bytes 0 acted add done]
                      simp [near]
                    exact (safe_return_plain acted input plain).symm
        | false =>
            simp only [Bool.false_eq_true, if_false]
            cases recvUint64 env.host input with
            | error stop => rfl
            | ok received =>
                obtain ⟨len, input⟩ := received
                dsimp only
                cases recvData len input with
                | error stop => rfl
                | ok received => simp only [act, pure, Except.pure]

theorem bcast_write_receives (env : Platform) (self : Tsd) (args : HandlerArg) (space : TsdElement) (input : Input)
    (write : args.action = .tsBCastWrite) :
    bcastQueueWriteHandler env args space input = (do
      let (arguments, input) ← receiveArguments env .tsBCastWrite args.isLocal input
      let acted ← act env self args space arguments
      safeReturn acted input) := by
  simp only [bcastQueueWriteHandler, receiveArguments, bind, Except.bind]
  cases recvStr env.host input with
  | error stop => rfl
  | ok received =>
      obtain ⟨name, input⟩ := received
      dsimp only
      cases args.isLocal with
      | true =>
          simp only [if_true]
          cases recvItemPipe input with
          | error stop => rfl
          | ok received => simp only [act, write, reduceCtorEq, if_false, pure, Except.pure, throw, throwThe, MonadExceptOf.throw]
      | false =>
          simp only [Bool.false_eq_true, if_false]
          cases recvUint64 env.host input with
          | error stop => rfl
          | ok received =>
              obtain ⟨len, input⟩ := received
              dsimp only
              by_cases zero : len = 0
              · simp only [if_pos zero, pure, Except.pure, act, write, if_true]
              · simp only [if_neg zero]
                cases zmqRecv input with
                | error stop => rfl
                | ok received => rfl

theorem as_client_receives (env : Platform) (self : Tsd) (args : HandlerArg) (space : TsdElement) (input : Input) :
    tsdAsClient env args space input = (do
      let (arguments, input) ← receiveArguments env .tsTake args.isLocal input
      let acted ← act env self args space arguments
      safeReturn acted input) := by
  simp only [tsdAsClient, receiveArguments, bind, Except.bind]
  cases recvStr env.host input with
  | error stop => rfl
  | ok received =>
      obtain ⟨endpoint, input⟩ := received
      dsimp only
      cases recvStr env.host input with
      | error stop => rfl
      | ok received =>
          obtain ⟨identity, input⟩ := received
          simp only [pure, Except.pure, act, answerPeer, bind, Except.bind]
          split
          · rfl
          · split
            · rfl
            · generalize zlistxFind _ _ = handle
              cases handle with
              | error stop => rfl
              | ok handle =>
                  dsimp only
                  generalize Option.bind handle _ = reply
                  cases reply with
                  | none => rfl
                  | some reply => rfl

theorem transmit_receives (env : Platform) (self : Tsd) (args : HandlerArg) (space : TsdElement) (input : Input)
    (transmit : args.action = .tsTransmit) :
    tsdAcceptTransmit env self args space input = (do
      let (arguments, input) ← receiveArguments env .tsTransmit args.isLocal input
      let acted ← act env self args space arguments
      safeReturn acted input) := by
  simp only [tsdAcceptTransmit, receiveArguments, receiveSized, bind, Except.bind]
  cases args.isLocal with
  | true => rfl
  | false =>
      simp only [Bool.false_eq_true, if_false]
      cases recvStr env.host input with
      | error stop => rfl
      | ok received =>
          obtain ⟨identity, input⟩ := received
          dsimp only
          cases recvUint64 env.host input with
          | error stop => rfl
          | ok received =>
              obtain ⟨len, input⟩ := received
              dsimp only
              by_cases zero : len = 0
              · simp only [if_pos zero, pure, Except.pure, act, transmit, reduceCtorEq, if_false]
              · simp only [if_neg zero]
                cases recvData len input with
                | error stop => rfl
                | ok received =>
                    obtain ⟨data, size, input⟩ := received
                    simp only [pure, Except.pure, act, transmit, reduceCtorEq, if_false, acceptTuple, bind, Except.bind]
                    split
                    · rfl
                    · split
                      · generalize matchBlockingRequests _ _ _ _ _ = matched
                        cases matched with
                        | error stop => rfl
                        | ok matched => rfl
                      · rfl

-- A handler receives its arguments, does its work, and drains the rest of the message where it returns 1.
theorem dispatch_receives (env : Platform) (self : Tsd) (args : HandlerArg) (space : TsdElement) (input : Input) :
    dispatch env self args space input = (do
      let (arguments, input) ← receiveArguments env args.action args.isLocal input
      let acted ← act env self args space arguments
      safeReturn acted input) := by
  cases action : args.action with
  | tsPut =>
      simp only [dispatch, action]
      exact put_receives env self args space input action
  | tsAdd =>
      simp only [dispatch, action]
      exact add_receives env self args space input action
  | tsBCastWrite =>
      simp only [dispatch, action]
      exact bcast_write_receives env self args space input action
  | tsTransmit =>
      simp only [dispatch, action]
      exact transmit_receives env self args space input action
  | tsRequest | tsTake =>
      simp only [dispatch, action]
      exact as_client_receives env self args space input
  | tsTerm =>
      simp only [dispatch, action, receiveArguments, act, bind, Except.bind]
      cases done : termSpace env self space with
      | error stop => rfl
      | ok acted =>
          have plain : acted.rt ≠ some 1 := by
            obtain ⟨⟨cleared, sent⟩, _, done⟩ := bind_ok _ _ _ done
            cases done
            simp
          exact (safe_return_plain acted input plain).symm
  | tsConnect =>
      simp only [dispatch, action, receiveArguments, tsConnectHandler, bind, Except.bind]
      cases recvUint32 env.host input with
      | error stop => rfl
      | ok received => simp only [act, action, if_true, pure, Except.pure]
  | tsPeek | tsPop | tsPopBlocking | tsPeekBlocking =>
      simp only [dispatch, action, receiveArguments, act]
      rfl
  | tsNone | tsEnf | tsAck | tsAnon | tsDeposit | tsMigrate | tsReplicate =>
      simp only [dispatch, action, receiveArguments, act]
      rfl
  | tsExpect =>
      simp only [dispatch, action, receiveArguments, tsdAddExpect, bind, Except.bind]
      cases recvStr env.host input with
      | error stop => rfl
      | ok received =>
          simp only [act, action, pure, Except.pure]
          rfl
  | _ =>
      simp only [dispatch, action, receiveArguments, namedQueueReadHandler, bcastQueueReadHandler, bind, Except.bind]
      cases recvStr env.host input with
      | error stop => rfl
      | ok received => simp only [act, action, pure, Except.pure]

end Synergy
