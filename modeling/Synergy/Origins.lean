import Synergy.TokenRing

set_option autoImplicit false

namespace Synergy

-- The five tokens a daemon makes, by the command it makes them for.
inductive Origin (env : Platform) (daemon : Tsd) : TupleCommand → GenericToken → Prop where
  | activation (spaceName : Bytes) : Origin env daemon .tsConnect (activationToken daemon.endpoint spaceName)
  | termination (spaceName : Bytes) : Origin env daemon .tsTerm (decomissionToken daemon.endpoint spaceName)
  | named (spaceName name : Bytes) (buf1 : List (Option UInt8)) (built : buf1 = generateNamedTupleTokenStr spaceName name) :
      Origin env daemon .tsPut
        { id := 2, ttl := -1, buf1 := buf1, buf2 := daemon.endpoint ++ [0], len1 := buf1.length, len2 := daemon.endpoint.length + 1 }
  | anonymous (spaceName : Bytes) (anonId : UInt32) (buf1 : List (Option UInt8))
      (built : buf1 = generateAnonTupleTokenStr env spaceName anonId) :
      Origin env daemon .tsAdd
        { id := 2, ttl := -1, buf1 := buf1, buf2 := daemon.endpoint ++ [0], len1 := buf1.length, len2 := (daemon.endpoint.drop 1).length }
  | replication (action : TupleCommand) (spaceName : Bytes) (anonId : UInt32) (buf1 : List (Option UInt8))
      (adds : action = .tsAdd ∨ action = .tsTransmit) (built : buf1 = generateAnonTupleTokenStr env spaceName anonId) :
      Origin env daemon action
        { id := 3, ttl := daemon.replicationFactor.toInt32.toInt, buf1 := buf1, buf2 := daemon.endpoint ++ [0], len1 := 0,
          len2 := daemon.endpoint.length + 1 }

def Originates (env : Platform) (daemon : Tsd) (action : TupleCommand) (sent : List Out) : Prop :=
  ∀ tk ∈ tokensIn sent, Origin env daemon action tk

theorem silent_originates (env : Platform) (self : Tsd) (action : TupleCommand) (sent : List Out) (silent : tokensIn sent = []) :
    Originates env self action sent := by
  intro tk member
  rw [silent] at member
  cases member

theorem token_originates (env : Platform) (self : Tsd) (action : TupleCommand) (tk : GenericToken) (origin : Origin env self action tk) :
    Originates env self action [.token tk] := by
  intro other member
  rw [tokens_in_token, tokens_in_nil, List.mem_singleton] at member
  rw [member]
  exact origin

theorem remote_tuple_tokens (env : Platform) (isLocal : Bool) (ticket : Nat) (tuple : SngTuple) (word : UInt32) (outs : List Out)
    (responded : (do
      let name ← sendStr env isLocal ticket tuple.name true
      return sendUint32 env isLocal ticket word true :: name ++ [sendUint64 env isLocal ticket (UInt64.ofNat tuple.data.length) true,
        .frame isLocal ticket tuple.data false]) = .ok outs) : tokensIn outs = [] := by
  obtain ⟨chars, _, same⟩ := remote_tuple_outs env isLocal ticket tuple word outs responded
  rw [same]
  rfl

theorem local_tuple_tokens (env : Platform) (isLocal : Bool) (ticket : Nat) (tuple : SngTuple) (word : UInt32) (more : Bool)
    (outs : List Out)
    (responded : (do
      let name ← sendStr env isLocal ticket tuple.name more
      let item ← sendItemOut ticket tuple.data
      return sendUint32 env isLocal ticket word true :: name ++ item) = .ok outs) : tokensIn outs = [] := by
  obtain ⟨chars, chunks, _, _, same⟩ := local_tuple_outs env isLocal ticket tuple word more outs responded
  rw [same, tokens_in_append, tokens_in_chunks]
  rfl

theorem read_response_tokens (env : Platform) (isLocal : Bool) (ticket : Nat) (tuple : SngTuple) (outs : List Out)
    (responded : handleNamedQueueReadResponse env isLocal ticket tuple = .ok outs) : tokensIn outs = [] := by
  cases isLocal with
  | true => exact local_tuple_tokens env true ticket tuple TupleCommand.tsAck.code false outs responded
  | false => exact remote_tuple_tokens env false ticket tuple TupleCommand.tsAck.code outs responded

theorem fetch_response_tokens (env : Platform) (isLocal : Bool) (ticket : Nat) (tuple : SngTuple) (outs : List Out)
    (responded : handleNamedQueueFetchResponse env isLocal ticket tuple = .ok outs) : tokensIn outs = [] := by
  rw [handleNamedQueueFetchResponse] at responded
  by_cases anonymous : tuple.name = .null ∧ tuple.anonId ≠ 0
  · rw [if_pos anonymous] at responded
    cases isLocal with
    | true =>
        obtain ⟨item, passed, responded⟩ := bind_ok _ _ _ responded
        obtain ⟨chunks, same⟩ := send_item_chunks_out _ _ _ passed
        cases responded
        rw [tokens_in_uint32, tokens_in_uint32, same, tokens_in_chunks]
    | false =>
        cases responded
        rfl
  · rw [if_neg anonymous] at responded
    cases isLocal with
    | true => exact local_tuple_tokens env true ticket tuple TupleCommand.tsAck.code true outs responded
    | false => exact remote_tuple_tokens env false ticket tuple TupleCommand.tsAck.code outs responded

theorem match_reply_tokens (env : Platform) (tuple : SngTuple) (matched : BlockingRequest) (frames : List Out)
    (replied : matchReply env tuple matched = .ok (some frames)) : tokensIn frames = [] := by
  rcases match_reply_cases env tuple matched with answered | silent
  · rw [answered] at replied
    obtain ⟨reply, responded, replied⟩ := bind_ok _ _ _ replied
    cases replied
    exact read_response_tokens env _ _ tuple _ responded
  · rw [silent] at replied
    cases replied

theorem match_loop_tokens (env : Platform) (tuple : SngTuple) (rounds : Nat) (state final : Matching) (finished : Bool)
    (done : matchLoop env tuple rounds state = .ok (final, finished)) : tokensIn final.sent = tokensIn state.sent := by
  induction rounds generalizing state with
  | zero => cases done
  | succ rounds ih =>
      obtain ⟨handle, _, done⟩ := bind_ok _ _ _ done
      cases handle with
      | none =>
          cases done
          rfl
      | some found =>
          dsimp only at done
          split at done
          · cases done
          · split at done
            · cases done
              rfl
            · obtain ⟨clientid, identity, done⟩ := bind_ok _ _ _ done
              obtain ⟨reply, replied, done⟩ := bind_ok _ _ _ done
              have silent := send_clientid_tokens _ _ _ _ identity
              cases reply with
              | none =>
                  cases done
                  dsimp only
                  rw [tokens_in_append, silent, tokens_in_nil, List.append_nil]
              | some frames =>
                  have kept := ih _ done
                  rw [kept]
                  dsimp only
                  rw [tokens_in_append, silent, match_reply_tokens env tuple _ frames replied, List.append_nil]

theorem match_replicates (env : Platform) (self : Tsd) (space : TsdElement) (tuple : SngTuple) (action : TupleCommand) (rt : Int)
    (after : TsdElement) (sent : List Out) (done : matchBlockingRequests env self space tuple action = .ok (rt, after, sent))
    (tk : GenericToken) (member : tk ∈ tokensIn sent) :
    space.tsMode = .p2p ∧ replicationToken env self space tuple action = .ok tk := by
  have silent : ∀ state : Matching, tokensIn state.sent = [] → tk ∉ tokensIn state.sent := by
    intro state none_ member
    rw [none_] at member
    cases member
  unfold matchBlockingRequests at done
  split at done
  · cases done
    cases member
  · obtain ⟨⟨state, finished⟩, looped, done⟩ := bind_ok _ _ _ done
    have none_ : tokensIn state.sent = [] := match_loop_tokens env tuple _ _ state finished looped
    dsimp only at done
    split at done
    · cases done
      exact absurd member (silent state none_)
    · split at done
      · cases done
        exact absurd member (silent state none_)
      · split at done
        · rename_i p2p
          obtain ⟨token, built, done⟩ := bind_ok _ _ _ done
          cases done
          rw [tokens_in_append, none_, tokens_in_token, tokens_in_nil, List.nil_append, List.mem_singleton] at member
          rw [member]
          exact ⟨p2p, built⟩
        · cases done
          exact absurd member (silent state none_)

theorem add_match_originates (env : Platform) (self : Tsd) (space : TsdElement) (tuple : SngTuple) (action : TupleCommand) (rt : Int)
    (after : TsdElement) (sent : List Out) (adds : action = .tsAdd ∨ action = .tsTransmit)
    (done : matchBlockingRequests env self space tuple .tsAdd = .ok (rt, after, sent)) : Originates env self action sent := by
  intro tk member
  obtain ⟨_, built⟩ := match_replicates env self space tuple .tsAdd rt after sent done tk member
  rw [replicationToken, if_pos rfl] at built
  cases built
  exact Origin.replication action space.name tuple.anonId _ adds rfl

theorem safe_return_same (acted result : Acted) (input later : Input) (done : safeReturn acted input = .ok (result, later)) :
    result = acted := by
  unfold safeReturn at done
  split at done
  · obtain ⟨drained, _, done⟩ := bind_ok _ _ _ done
    cases done
    rfl
  · cases done
    rfl

theorem put_originates (env : Platform) (self : Tsd) (args : HandlerArg) (space : TsdElement) (name data : Bytes) (acted : Acted)
    (done : putTuple env self args space name data = .ok acted) : Originates env self .tsPut acted.sent := by
  unfold putTuple at done
  dsimp only at done
  split at done
  · cases done
    exact token_originates env self _ _ (Origin.named space.name name _ rfl)
  · rename_i other
    obtain ⟨⟨rt, after, sent⟩, matched, done⟩ := bind_ok _ _ _ done
    cases done
    intro tk member
    exact absurd (match_replicates env self _ _ _ rt after sent matched tk member).1 other

theorem add_originates (env : Platform) (self : Tsd) (args : HandlerArg) (space : TsdElement) (anonId : UInt32) (data : Bytes)
    (received : Nat) (acted : Acted) (action : args.action = .tsAdd)
    (done : addTuple env self args space anonId data received = .ok acted) : Originates env self .tsAdd acted.sent := by
  unfold addTuple at done
  dsimp only at done
  split at done
  · cases done
    exact token_originates env self _ _ (Origin.anonymous space.name anonId _ rfl)
  · obtain ⟨⟨rt, after, sent⟩, matched, done⟩ := bind_ok _ _ _ done
    cases done
    rw [action] at matched
    exact add_match_originates env self _ _ .tsAdd rt after sent (Or.inl rfl) matched

theorem write_handler_originates (env : Platform) (self : Tsd) (args : HandlerArg) (space : TsdElement) (input later : Input)
    (acted : Acted) (writes : args.action = .tsPut ∨ args.action = .tsAdd)
    (done : namedQueueWriteHandler env self args space input = .ok (acted, later)) : Originates env self args.action acted.sent := by
  have returned : ∀ (before : Acted) (here : Input), Originates env self args.action before.sent →
      safeReturn before here = .ok (acted, later) → Originates env self args.action acted.sent := by
    intro before here originates done
    rw [safe_return_same before acted here later done]
    exact originates
  have silent : Originates env self args.action [] := silent_originates env self _ _ rfl
  unfold namedQueueWriteHandler at done
  by_cases puts : args.action = .tsPut
  · rw [if_pos puts] at done
    have put : ∀ name data before, putTuple env self args space name data = .ok before → Originates env self args.action before.sent := by
      intro name data before done
      rw [puts]
      exact put_originates env self args space name data before done
    obtain ⟨⟨name, input1⟩, _, done⟩ := bind_ok _ _ _ done
    dsimp only at done
    split at done
    · obtain ⟨⟨data, input2⟩, _, done⟩ := bind_ok _ _ _ done
      obtain ⟨before, accepted, done⟩ := bind_ok _ _ _ done
      exact returned before _ (put _ _ before accepted) done
    · obtain ⟨⟨len, input2⟩, _, done⟩ := bind_ok _ _ _ done
      dsimp only at done
      split at done
      · exact returned _ _ silent done
      · obtain ⟨⟨data, received, input3⟩, _, done⟩ := bind_ok _ _ _ done
        obtain ⟨before, accepted, done⟩ := bind_ok _ _ _ done
        exact returned before _ (put _ _ before accepted) done
  · rw [if_neg puts] at done
    have adds := writes.resolve_left puts
    have add : ∀ anonId data received before, addTuple env self args space anonId data received = .ok before →
        Originates env self args.action before.sent := by
      intro anonId data received before done
      rw [adds]
      exact add_originates env self args space anonId data received before adds done
    obtain ⟨⟨anonId, input1⟩, _, done⟩ := bind_ok _ _ _ done
    dsimp only at done
    split at done
    · exact returned _ _ silent done
    · split at done
      · obtain ⟨⟨data, input2⟩, _, done⟩ := bind_ok _ _ _ done
        obtain ⟨before, added, done⟩ := bind_ok _ _ _ done
        cases done
        exact add _ _ _ _ added
      · obtain ⟨⟨len, input2⟩, _, done⟩ := bind_ok _ _ _ done
        obtain ⟨⟨data, received, input3⟩, _, done⟩ := bind_ok _ _ _ done
        obtain ⟨before, added, done⟩ := bind_ok _ _ _ done
        exact returned before _ (add _ _ _ before added) done

theorem fetch_tokens (env : Platform) (args : HandlerArg) (space : TsdElement) (acted : Acted)
    (done : fetchTuple env args space = .ok acted) : tokensIn acted.sent = [] := by
  obtain ⟨clientid, identity, done⟩ := bind_ok _ _ _ done
  have silent := send_clientid_tokens _ _ _ _ identity
  split at done
  · cases done
    dsimp only
    rw [silent]
    rfl
  · obtain ⟨reply, responded, done⟩ := bind_ok _ _ _ done
    cases done
    dsimp only
    rw [silent, fetch_response_tokens env _ _ _ _ responded]

theorem read_tokens (env : Platform) (args : HandlerArg) (space : TsdElement) (name : Bytes) (acted : Acted)
    (done : readTuple env args space name = .ok acted) : tokensIn acted.sent = [] := by
  obtain ⟨clientid, identity, done⟩ := bind_ok _ _ _ done
  have silent := send_clientid_tokens _ _ _ _ identity
  split at done
  · cases done
    dsimp only
    rw [silent]
    rfl
  · obtain ⟨handle, _, done⟩ := bind_ok _ _ _ done
    split at done
    · cases done
      dsimp only
      rw [silent]
      rfl
    · obtain ⟨order, _, done⟩ := bind_ok _ _ _ done
      by_cases differs : order ≠ 0
      · rw [if_pos differs] at done
        cases done
      · rw [if_neg differs] at done
        obtain ⟨reply, responded, done⟩ := bind_ok _ _ _ done
        cases done
        dsimp only
        rw [silent, read_response_tokens env _ _ _ _ responded]

theorem bcast_read_tokens (env : Platform) (args : HandlerArg) (space : TsdElement) (name : Bytes) (acted : Acted)
    (done : bcastReadTuple env args space name = .ok acted) : tokensIn acted.sent = [] := by
  obtain ⟨clientid, identity, done⟩ := bind_ok _ _ _ done
  have silent := send_clientid_tokens _ _ _ _ identity
  split at done
  · cases done
    dsimp only
    rw [silent]
    rfl
  · obtain ⟨handle, _, done⟩ := bind_ok _ _ _ done
    split at done
    · cases done
      dsimp only
      rw [silent]
      rfl
    · obtain ⟨reply, responded, done⟩ := bind_ok _ _ _ done
      cases done
      rw [bcast_response_same] at responded
      dsimp only
      rw [silent, read_response_tokens env _ _ _ _ responded]

theorem bcast_write_tokens (env : Platform) (args : HandlerArg) (space : TsdElement) (input later : Input) (acted : Acted)
    (done : bcastQueueWriteHandler env args space input = .ok (acted, later)) : tokensIn acted.sent = [] := by
  obtain ⟨⟨name, input1⟩, _, done⟩ := bind_ok _ _ _ done
  dsimp only at done
  split at done
  · obtain ⟨item, _, done⟩ := bind_ok _ _ _ done
    cases done
  · obtain ⟨⟨len, input2⟩, _, done⟩ := bind_ok _ _ _ done
    dsimp only at done
    split at done
    · rw [safe_return_same _ acted _ later done]
      rfl
    · obtain ⟨frame, _, done⟩ := bind_ok _ _ _ done
      cases done

theorem as_client_tokens (env : Platform) (args : HandlerArg) (space : TsdElement) (input later : Input) (acted : Acted)
    (done : tsdAsClient env args space input = .ok (acted, later)) : tokensIn acted.sent = [] := by
  obtain ⟨⟨endpoint, input1⟩, _, done⟩ := bind_ok _ _ _ done
  obtain ⟨⟨identity, input2⟩, _, done⟩ := bind_ok _ _ _ done
  dsimp only at done
  split at done
  · rw [safe_return_same _ acted _ later done]
    rfl
  · split at done
    · cases done
    · obtain ⟨handle, _, done⟩ := bind_ok _ _ _ done
      split at done
      · rw [safe_return_same _ acted _ later done]
        rfl
      · rw [safe_return_same _ acted _ later done]
        rfl

theorem transmit_originates (env : Platform) (self : Tsd) (args : HandlerArg) (space : TsdElement) (input later : Input) (acted : Acted)
    (action : args.action = .tsTransmit) (done : tsdAcceptTransmit env self args space input = .ok (acted, later)) :
    Originates env self args.action acted.sent := by
  unfold tsdAcceptTransmit at done
  split at done
  · cases done
  · obtain ⟨⟨identity, input1⟩, _, done⟩ := bind_ok _ _ _ done
    obtain ⟨⟨len, input2⟩, _, done⟩ := bind_ok _ _ _ done
    dsimp only at done
    split at done
    · rw [safe_return_same _ acted _ later done]
      exact silent_originates env self _ _ rfl
    · obtain ⟨⟨data, received, input3⟩, _, done⟩ := bind_ok _ _ _ done
      dsimp only at done
      split at done
      · cases done
      · split at done
        · obtain ⟨⟨rt, after, sent⟩, matched, done⟩ := bind_ok _ _ _ done
          rw [safe_return_same _ acted _ later done]
          exact add_match_originates env self _ _ args.action rt after sent (Or.inr action) matched
        · rw [safe_return_same _ acted _ later done]
          exact silent_originates env self _ _ rfl

theorem connect_originates (env : Platform) (self : Tsd) (args : HandlerArg) (space : TsdElement) (input later : Input) (acted : Acted)
    (clientid : Bytes) (client : args.clientid = .str clientid)
    (done : tsConnectHandler env self args space input = .ok (acted, later)) : Originates env self .tsConnect acted.sent := by
  obtain ⟨⟨mode, input1⟩, _, done⟩ := bind_ok _ _ _ done
  obtain ⟨before, connected, done⟩ := bind_ok _ _ _ done
  rw [safe_return_same before acted _ later done]
  have effect := connect_mode_connected env self args space mode before clientid client connected
  intro tk member
  rw [effect.sent] at member
  split at member
  · rw [List.mem_singleton.mp member]
    exact Origin.activation space.name
  · cases member

theorem term_originates (env : Platform) (self : Tsd) (space : TsdElement) (acted : Acted)
    (done : termSpace env self space = .ok acted) : Originates env self .tsTerm acted.sent := by
  obtain ⟨_, _, _, _, sent⟩ := term_space_closed env self space acted done
  intro tk member
  rw [sent] at member
  split at member
  · rw [List.mem_singleton.mp member]
    exact Origin.termination space.name
  · cases member

theorem dispatch_originates (env : Platform) (self : Tsd) (args : HandlerArg) (space : TsdElement) (input later : Input) (acted : Acted)
    (clientid : Bytes) (client : args.clientid = .str clientid)
    (done : dispatch env self args space input = .ok (acted, later)) : Originates env self args.action acted.sent := by
  have silent : tokensIn acted.sent = [] → Originates env self args.action acted.sent := silent_originates env self _ _
  have read : namedQueueReadHandler env args space input = .ok (acted, later) → tokensIn acted.sent = [] := fun done => by
    obtain ⟨⟨name, input1⟩, _, done⟩ := bind_ok _ _ _ done
    obtain ⟨before, answered, done⟩ := bind_ok _ _ _ done
    rw [safe_return_same before acted _ later done]
    exact read_tokens env args space name before answered
  have fetch : namedQueueFetchHandler env args space input = .ok (acted, later) → tokensIn acted.sent = [] := fun done => by
    obtain ⟨before, answered, done⟩ := bind_ok _ _ _ done
    rw [safe_return_same before acted _ later done]
    exact fetch_tokens env args space before answered
  have bcastRead : bcastQueueReadHandler env args space input = .ok (acted, later) → tokensIn acted.sent = [] := fun done => by
    obtain ⟨⟨name, input1⟩, _, done⟩ := bind_ok _ _ _ done
    obtain ⟨before, answered, done⟩ := bind_ok _ _ _ done
    rw [safe_return_same before acted _ later done]
    exact bcast_read_tokens env args space name before answered
  have write := write_handler_originates env self args space input later acted
  unfold dispatch at done
  split at done
  · obtain ⟨⟨pattern, input1⟩, _, done⟩ := bind_ok _ _ _ done
    cases done
    exact silent rfl
  · exact silent (read done)
  · exact silent (read done)
  · exact silent (read done)
  · exact silent (read done)
  · exact silent (fetch done)
  · exact silent (fetch done)
  · exact silent (fetch done)
  · exact silent (fetch done)
  · rename_i action
    exact write (Or.inl action) done
  · rename_i action
    exact write (Or.inr action) done
  · rename_i action
    rw [action]
    exact connect_originates env self args space input later acted clientid client done
  · exact silent (bcast_write_tokens env args space input later acted done)
  · exact silent (bcastRead done)
  · exact silent (bcastRead done)
  · rename_i action
    obtain ⟨before, closed, done⟩ := bind_ok _ _ _ done
    cases done
    rw [action]
    exact term_originates env self space _ closed
  · rename_i action
    exact transmit_originates env self args space input later acted action done
  · exact silent (as_client_tokens env args space input later acted done)
  · exact silent (as_client_tokens env args space input later acted done)
  · cases done
    exact silent rfl
  · cases done
    exact silent rfl
  · cases done
    exact silent rfl
  · cases done
    exact silent rfl
  · cases done
    exact silent rfl
  · cases done
    exact silent rfl
  · cases done
    exact silent rfl

theorem second_error_tokens (env : Platform) (self : Tsd) (isLocal : Bool) (ticket : Nat) (clientid : Bytes) (input : Input)
    (handled : Handled) (done : handleSecondError env self isLocal ticket clientid input = .ok handled) : tokensIn handled.sent = [] := by
  obtain ⟨drained, _, done⟩ := bind_ok _ _ _ done
  cases done
  rfl

def commandOf (host : HostOrder) (input : Input) : Except Stop (Option TupleCommand) := do
  let (_, input) ← zmqRecv input
  let (_, input) ← recvUint32 host input
  let (_, input) ← zmqRecv input
  let (code, _) ← recvUint32 host input
  return TupleCommand.ofCode code

theorem handler_origin (env : Platform) (self : Tsd) (isLocal : Bool) (ticket : Nat) (input : Input) (handled : Handled)
    (done : handler env self isLocal ticket input = .ok handled) (tk : GenericToken) (member : tk ∈ tokensIn handled.sent) :
    ∃ action, commandOf env.host input = .ok (some action) ∧ Origin env self action tk := by
  have silent : tokensIn handled.sent = [] → ∃ action, commandOf env.host input = .ok (some action) ∧ Origin env self action tk := by
    intro none_
    rw [none_] at member
    cases member
  obtain ⟨⟨frame, input1⟩, identity, done⟩ := bind_ok _ _ _ done
  obtain ⟨clientid, _, done⟩ := bind_ok _ _ _ done
  obtain ⟨⟨bufLen, input2⟩, len, done⟩ := bind_ok _ _ _ done
  dsimp only at done
  split at done
  · exact silent (second_error_tokens env self isLocal ticket clientid input2 handled done)
  · obtain ⟨⟨frame, input3⟩, name, done⟩ := bind_ok _ _ _ done
    dsimp only at done
    split at done
    · exact silent (second_error_tokens env self isLocal ticket clientid _ handled done)
    · obtain ⟨⟨code, input4⟩, word, done⟩ := bind_ok _ _ _ done
      dsimp only at done
      split at done
      · exact silent (second_error_tokens env self isLocal ticket clientid _ handled done)
      · split at done
        · cases done
          exact silent rfl
        · rename_i action known
          obtain ⟨⟨acted, input5⟩, dispatched, done⟩ := bind_ok _ _ _ done
          cases done
          have origin := dispatch_originates env self _ _ _ _ acted clientid rfl dispatched tk member
          refine ⟨action, ?_, origin⟩
          simp only [commandOf, identity, len, name, word, known, bind, Except.bind, pure, Except.pure]

end Synergy
