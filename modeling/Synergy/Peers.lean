import Synergy.Localities
import Synergy.Lib.Decimals

set_option autoImplicit false

namespace Synergy

-- What a peer asks for by: N and a name, or A and a number.
inductive TupleIdentity where
  | named (name : Name)
  | anonymous (anonId : UInt32) (nonzero : anonId ≠ 0)

def TupleIdentity.name : TupleIdentity → CString
  | .named name => .str name.chars
  | .anonymous _ _ => .null

def TupleIdentity.anonId : TupleIdentity → UInt32
  | .named _ => 0
  | .anonymous anonId _ => anonId

theorem numeral_clean (number : Nat) : NulFree (Decimals.numeral number) := by
  intro member
  have range := Decimals.numeral_characters number 0 member
  exact absurd range.1 (by decide)

def TupleIdentity.str : TupleIdentity → Name
  | .named name => ⟨'N'.toUInt8 :: name.chars, fun member => name.clean ((List.mem_cons.mp member).resolve_left (by decide))⟩
  | .anonymous anonId _ =>
      ⟨'A'.toUInt8 :: Decimals.numeral anonId.toNat, fun member =>
        numeral_clean anonId.toNat ((List.mem_cons.mp member).resolve_left (by decide))⟩

-- The tuple is one that the identity stands for.
def TupleIdentity.fits (env : Platform) (identity : TupleIdentity) (tuple : SngTuple) : Bool :=
  match identity with
  | .named name => wants env .tsGet (.str name.chars) tuple
  | .anonymous anonId _ => tuple.anonId = anonId

-- The request of a peer, TsTake or TsRequest.
def peerRequest (ts : Ts) (command : TupleCommand) (endpoint : Name) (identity : TupleIdentity) : List Frame :=
  initRequest ts ++ sendUint32Frame ts.host command.code true ::
    (sendStrFrames ts.host endpoint true ++ sendStrFrames ts.host identity.str false)

def peerMessage : List Bytes → List Frame
  | [] => []
  | [last] => [⟨last, false⟩]
  | frame :: next :: later => ⟨frame, true⟩ :: peerMessage (next :: later)

theorem strtoul_numeral (number : Nat) (positive : number ≠ 0) (small : number < 2 ^ 64) :
    strtoul (Decimals.numeral number) = UInt64.ofNat number := by
  have digit : ∀ c ∈ Decimals.numeral number, isDigit c = true := by
    intro c member
    have range := Decimals.numeral_characters number c member
    simpa only [isDigit, decide_eq_true_eq] using range
  obtain ⟨first, later, split⟩ := List.exists_cons_of_ne_nil (Decimals.numeral_nonempty number positive)
  have head := Decimals.numeral_characters number first (by rw [split]; exact List.mem_cons_self)
  have notSpace : isSpace first = false := by
    simp only [isSpace, decide_eq_false_iff_not, not_or, not_and]
    refine ⟨fun same => ?_, fun _ high => ?_⟩
    · rw [same] at head
      exact absurd head.1 (by decide)
    · have never : ¬ (48 : UInt8) ≤ 13 := by decide
      exact never (UInt8.le_trans head.1 high)
  have trimmed : (Decimals.numeral number).dropWhile isSpace = Decimals.numeral number := by
    rw [split, List.dropWhile_cons_of_neg (by simp [notSpace])]
  have unsigned : ∀ sign : UInt8, ¬ 48 ≤ sign → ¬ some first = some sign := by
    intro sign below same
    cases same
    exact below head.1
  have whole : (Decimals.numeral number).takeWhile isDigit = Decimals.numeral number := List.takeWhile_eq_self_iff.mpr digit
  have value : (Decimals.numeral number).foldl (fun value digit => value * 10 + (digit.toNat - 48)) 0 = number :=
    Decimals.numeral_value number
  have minus := unsigned '-'.toUInt8 (by decide)
  have plus := unsigned '+'.toUInt8 (by decide)
  have sign : (Decimals.numeral number).head? = some first := by
    rw [split]
    rfl
  unfold strtoul
  dsimp only
  rw [trimmed, sign, if_neg (not_or.mpr ⟨minus, plus⟩), whole, value, if_neg (by omega), if_neg minus]

theorem anonymous_number (anonId : UInt32) (nonzero : anonId ≠ 0) :
    UInt32.ofNat (strtoul (Decimals.numeral anonId.toNat)).toNat = anonId := by
  have positive : anonId.toNat ≠ 0 := fun zero => nonzero (UInt32.toNat_inj.mp zero)
  have bound := anonId.toNat_lt
  rw [strtoul_numeral anonId.toNat positive (by omega), UInt64.toNat_ofNat', Nat.mod_eq_of_lt (by omega), UInt32.ofNat_toNat]

-- The TsTransmit message of a tuple.
def transmit (env : Platform) (spaceName : Bytes) (identity : TupleIdentity) (data : Bytes) : List Bytes :=
  [p2pmSendUint32 env.host (UInt32.ofNat (spaceName.length + 1)), spaceName ++ [0], p2pmSendUint32 env.host TupleCommand.tsTransmit.code,
    (p2pmSendStr env.host identity.str.chars).1, (p2pmSendStr env.host identity.str.chars).2,
    p2pmSendUint64 env.host (UInt64.ofNat data.length), data]

theorem tplicmp_zero (tuple search : SngTuple) : tplicmp tuple search = 0 ↔ tuple.anonId = search.anonId := by
  unfold tplicmp
  by_cases below : tuple.anonId < search.anonId
  · rw [if_pos below]
    refine ⟨fun never => absurd never (by decide), fun same => ?_⟩
    rw [same] at below
    exact absurd below (UInt32.lt_irrefl _)
  · rw [if_neg below]
    by_cases above : tuple.anonId > search.anonId
    · rw [if_pos above]
      refine ⟨fun never => absurd never (by decide), fun same => ?_⟩
      rw [same] at above
      exact absurd above (UInt32.lt_irrefl _)
    · rw [if_neg above]
      refine ⟨fun _ => UInt32.toNat_inj.mp ?_, fun _ => rfl⟩
      have notBelow : ¬ tuple.anonId.toNat < search.anonId.toNat := fun less => below (UInt32.lt_iff_toNat_lt.mpr less)
      have notAbove : ¬ search.anonId.toNat < tuple.anonId.toNat := fun less => above (UInt32.lt_iff_toNat_lt.mpr less)
      omega

theorem tplcmp_number (env : Platform) (tuple search : SngTuple) (name : search.name = .null) (nonzero : search.anonId ≠ 0) :
    tplcmp env tuple search = .ok (tplicmp tuple search) := by
  rw [tplcmp, if_pos (Or.inr ⟨name, nonzero⟩)]

theorem recv_str_short (sender receiver : HostOrder) (str : Name) (more rcvmore : Bool) (later : List Frame) (chunks : List Chunk)
    (short : str.chars.length + 1 < 2 ^ 31) :
    recvStr receiver ⟨sendStrFrames sender str more ++ later, rcvmore, chunks⟩ = .ok (str.chars, ⟨later, more, chunks⟩) := by
  rw [recv_str_sent, recv_send_str_short str.chars str.clean short]
  rfl

theorem anonymous_short (anonId : UInt32) (nonzero : anonId ≠ 0) :
    (TupleIdentity.anonymous anonId nonzero).str.chars.length + 1 < 2 ^ 31 := by
  have bound := anonId.toNat_lt
  have digits := Decimals.numeral_short anonId.toNat 10 (by omega)
  simp only [TupleIdentity.str, List.length_cons]
  omega

-- A number never begins with the character of the broadcast queue.
theorem anonymous_not_bcast (anonId : UInt32) (nonzero : anonId ≠ 0) :
    ¬ (TupleIdentity.anonymous anonId nonzero).str.chars[1]? = some 'B'.toUInt8 := by
  intro same
  have first : 'B'.toUInt8 ∈ Decimals.numeral anonId.toNat := List.mem_of_getElem? (by simpa [TupleIdentity.str] using same)
  have range := Decimals.numeral_characters anonId.toNat _ first
  exact absurd range.2 (by decide)

theorem as_client_anonymous (env : Platform) (args : HandlerArg) (space : TsdElement) (host : HostOrder) (endpoint : Name)
    (anonId : UInt32) (nonzero : anonId ≠ 0) (chunks : List Chunk) (before after : List SngTuple) (tuple : SngTuple)
    (short : endpoint.chars.length + 1 < 2 ^ 31) (connects : env.connects endpoint.chars = true)
    (split : space.namedQueue = before ++ tuple :: after) (fits : tuple.anonId = anonId)
    (skipped : ∀ other ∈ before, other.anonId ≠ anonId) :
    tsdAsClient env args space
        ⟨sendStrFrames host endpoint true ++ sendStrFrames host (TupleIdentity.anonymous anonId nonzero).str false, true, chunks⟩ =
      .ok ({ rt := some 0
             space := if args.action = .tsTake then { space with namedQueue := before ++ after } else space
             sent := [.peer endpoint.chars (transmit env space.name (.anonymous anonId nonzero) tuple.data)] },
        ⟨[], false, chunks⟩) := by
  have endpointRead := recv_str_short host env.host endpoint true true
    (sendStrFrames host (TupleIdentity.anonymous anonId nonzero).str false) chunks short
  have identityRead := recv_str_short host env.host (TupleIdentity.anonymous anonId nonzero).str false true [] chunks
    (anonymous_short anonId nonzero)
  rw [List.append_nil] at identityRead
  have head : (TupleIdentity.anonymous anonId nonzero).str.chars.head? = some 'A'.toUInt8 := rfl
  have nonempty : ¬ (TupleIdentity.anonymous anonId nonzero).str.chars = [] := List.cons_ne_nil _ _
  have number : UInt32.ofNat (strtoul ((TupleIdentity.anonymous anonId nonzero).str.chars.drop 1)).toNat = anonId :=
    anonymous_number anonId nonzero
  have zero : tplcmp env tuple { name := .null, anonId := anonId, data := [], origin := 0 } = .ok 0 := by
    rw [tplcmp_number env tuple _ rfl nonzero, (tplicmp_zero tuple _).mpr fits]
  have skips : ∀ other ∈ before, ∃ order,
      tplcmp env other { name := .null, anonId := anonId, data := [], origin := 0 } = .ok order ∧ order ≠ 0 := fun other member =>
    ⟨_, tplcmp_number env other _ rfl nonzero, fun same => skipped other member ((tplicmp_zero other _).mp same)⟩
  have found := zlistx_find_first (fun tuple => tplcmp env tuple { name := .null, anonId := anonId, data := [], origin := 0 })
    before after tuple zero skips
  have here : (before ++ tuple :: after)[before.length]? = some tuple := by simp
  have taken := congrArg Prod.snd (zlistx_detach_split before after tuple)
  unfold tsdAsClient
  simp only [endpointRead, identityRead, bind, Except.bind, connects, Bool.not_true, Bool.false_eq_true, if_false, nonempty, head,
    if_true, number, anonymous_not_bcast anonId nonzero, split, found, Option.bind_some, here, safe_return_end, taken]
  rfl

theorem as_client_sent (env : Platform) (args : HandlerArg) (space : TsdElement) (host : HostOrder) (endpoint : Name)
    (identity : TupleIdentity) (chunks : List Chunk) (acted : Acted) (input : Input)
    (done : tsdAsClient env args space
      ⟨sendStrFrames host endpoint true ++ sendStrFrames host identity.str false, true, chunks⟩ = .ok (acted, input)) :
    acted.sent = [] ∨ env.connects endpoint.chars = true ∧ ∃ reply ∈ space.bcastQueue ++ space.namedQueue,
      acted.sent = [.peer endpoint.chars (transmit env space.name identity reply.data)] := by
  obtain ⟨⟨chars, middle⟩, received, done⟩ := bind_ok _ _ _ done
  obtain ⟨sameEndpoint, sameInput⟩ := recv_str_frames host env.host endpoint true true _ chunks chars middle received
  subst sameEndpoint sameInput
  obtain ⟨⟨chars, middle⟩, received, done⟩ := bind_ok _ _ _ done
  rw [← List.append_nil (sendStrFrames host identity.str false)] at received
  obtain ⟨sameIdentity, sameInput⟩ := recv_str_frames host env.host identity.str false true [] chunks chars middle received
  subst sameIdentity sameInput
  dsimp only at done
  by_cases connects : env.connects endpoint.chars = true
  · rw [if_neg (by simp [connects])] at done
    split at done
    · cases done
    · obtain ⟨handle, _, done⟩ := bind_ok _ _ _ done
      split at done
      · rw [safe_return_same _ acted _ input done]
        exact Or.inl rfl
      · rename_i reply located
        rw [safe_return_same _ acted _ input done]
        refine Or.inr ⟨connects, reply, ?_, rfl⟩
        obtain ⟨position, _, there⟩ := Option.bind_eq_some_iff.mp located
        have member := List.mem_of_getElem? there
        split at member
        · exact List.mem_append_left _ member
        · exact List.mem_append_right _ member
  · rw [if_pos (by simp [connects])] at done
    rw [safe_return_same _ acted _ input done]
    exact Or.inl rfl

-- A tuple as the peer that is sent it sets it up.
def TupleIdentity.moved (identity : TupleIdentity) (data : Bytes) (ticket : Nat) : SngTuple :=
  ⟨identity.name, identity.anonId, data, ticket⟩

theorem accept_transmit_takes (env : Platform) (self : Tsd) (args : HandlerArg) (space : TsdElement) (host : HostOrder)
    (identity : TupleIdentity) (data : Bytes) (chunks : List Chunk) (acted : Acted) (input : Input)
    (sized : data.length < 2 ^ 63)
    (done : tsdAcceptTransmit env self args space
      ⟨sendStrFrames host identity.str true ++ [sendUint64Frame host (UInt64.ofNat data.length) true, ⟨data, false⟩], true, chunks⟩ =
        .ok (acted, input)) :
    (acted.space = space ∧ acted.sent = []) ∨
      data ≠ [] ∧ (∃ anonId nonzero, identity = .anonymous anonId nonzero) ∧ ∃ rt,
        matchBlockingRequests env self (space.record (.accepted (identity.moved data args.ticket))) (identity.moved data args.ticket)
          .tsAdd = .ok (rt, acted.space, acted.sent) := by
  unfold tsdAcceptTransmit at done
  split at done
  · cases done
  · obtain ⟨⟨chars, middle⟩, received, done⟩ := bind_ok _ _ _ done
    obtain ⟨sameIdentity, sameInput⟩ := recv_str_frames host env.host identity.str true true _ chunks chars middle received
    subst sameIdentity sameInput
    obtain ⟨⟨len, middle⟩, received, done⟩ := bind_ok _ _ _ done
    rw [recv_uint64_frame] at received
    cases received
    dsimp only at done
    have exact : (UInt64.ofNat data.length).toNat = data.length := by
      rw [UInt64.toNat_ofNat']
      omega
    by_cases empty : UInt64.ofNat data.length = 0
    · rw [if_pos empty] at done
      rw [safe_return_same _ acted _ input done]
      exact Or.inl ⟨rfl, rfl⟩
    · rw [if_neg empty] at done
      obtain ⟨⟨bytes, count, middle⟩, received, done⟩ := bind_ok _ _ _ done
      rw [recv_data_frame data _ exact] at received
      cases received
      have nonempty : data ≠ [] := by
        intro none
        rw [none] at empty
        exact empty rfl
      cases identity with
      | named name =>
          have head : (TupleIdentity.named name).str.chars.head? = some 'N'.toUInt8 := rfl
          dsimp only at done
          rw [if_pos head] at done
          cases done
      | anonymous anonId nonzero =>
          have head : (TupleIdentity.anonymous anonId nonzero).str.chars.head? = some 'A'.toUInt8 := rfl
          have other : ¬ (TupleIdentity.anonymous anonId nonzero).str.chars.head? = some 'N'.toUInt8 := by
            rw [head]
            decide
          have number : UInt32.ofNat (strtoul ((TupleIdentity.anonymous anonId nonzero).str.chars.drop 1)).toNat = anonId :=
            anonymous_number anonId nonzero
          dsimp only at done
          rw [if_neg other, if_pos head, number] at done
          obtain ⟨⟨rt, after, sent⟩, matched, done⟩ := bind_ok _ _ _ done
          rw [safe_return_same _ acted _ input done]
          exact Or.inr ⟨nonempty, ⟨anonId, nonzero, rfl⟩, rt, matched⟩

-- An anonymous tuple is stored if nobody waits, and otherwise match_blocking_requests does not come to an end.
theorem anonymous_stored_alone (env : Platform) (self : Tsd) (space after : TsdElement) (tuple : SngTuple) (rt : Int) (sent : List Out)
    (anonymous : tuple.name = .null) (waiting : ∀ request ∈ space.namedQueueRequests, request.Waiting)
    (done : matchBlockingRequests env self space tuple .tsAdd = .ok (rt, after, sent)) : space.namedQueueRequests = [] := by
  obtain ⟨⟨state, finished⟩, looped, _⟩ := bind_ok _ _ _ done
  exact (match_loop_anonymous env tuple _ _ state finished anonymous waiting rfl looped).1

theorem anonymous_stored (env : Platform) (self : Tsd) (space : TsdElement) (tuple : SngTuple)
    (alone : space.namedQueueRequests = []) :
    ∃ sent, matchBlockingRequests env self space tuple .tsAdd =
      .ok (0, { space with namedQueue := space.namedQueue ++ [tuple] }, sent) := by
  obtain ⟨name, direct, queue, bcast, requests, waiting, connects, expects, tsMode, tsdMode, active, asked, history⟩ := space
  dsimp only at alone
  subst alone
  cases tsMode with
  | p2p => exact ⟨_, rfl⟩
  | master => exact ⟨_, rfl⟩
  | worker => exact ⟨_, rfl⟩

-- A peer asks a daemon for a tuple. who and peer are the identity frames that the two messages get from ROUTER sockets.
structure Exchange where
  ts : Ts
  take : Bool
  who : Bytes
  asker : Bytes
  asked : bufferString 50 who = .ok asker
  endpoint : Name
  short : endpoint.chars.length + 1 < 2 ^ 31
  identity : TupleIdentity
  peer : Bytes
  sender : Bytes
  transmits : bufferString 50 peer = .ok sender

def Exchange.command (exchange : Exchange) : TupleCommand := if exchange.take then .tsTake else .tsRequest

def Exchange.request (exchange : Exchange) : Input :=
  { frames := ⟨exchange.who, true⟩ :: peerRequest exchange.ts exchange.command exchange.endpoint exchange.identity
    rcvmore := false
    chunks := [] }

def Exchange.arrives (exchange : Exchange) (frames : List Bytes) : Input :=
  { frames := ⟨exchange.peer, true⟩ :: peerMessage frames, rcvmore := false, chunks := [] }

-- The daemon that is asked, and the one that is sent the tuple.
structure Peers where
  xEnv : Platform
  yEnv : Platform
  x : Tsd
  y : Tsd
  xTicket : Nat
  yTicket : Nat

-- The first gives up the first tuple that fits, or shows it, and the second has it then: stored, or as the answer to a request.
def Exchange.Moves (exchange : Exchange) (peers : Peers) (source target : TsdElement) : Prop :=
  ∃ before tuple after frames given got left,
    source.namedQueue = before ++ tuple :: after ∧ exchange.identity.fits peers.xEnv tuple = true ∧
    (∀ other ∈ before, exchange.identity.fits peers.xEnv other = false) ∧
    handler peers.xEnv peers.x exchange.ts.isLocal peers.xTicket exchange.request = .ok given ∧
    given.self.spaceTable exchange.ts.tsname.chars =
      some (if exchange.take then { source with namedQueue := before ++ after } else source) ∧
    given.sent = [.peer exchange.endpoint.chars frames] ∧
    handler peers.yEnv peers.y false peers.yTicket (exchange.arrives frames) = .ok got ∧
    got.self.spaceTable exchange.ts.tsname.chars = some left ∧
    (left.namedQueue = target.namedQueue ++ [exchange.identity.moved tuple.data peers.yTicket] ∨
      ∃ request ∈ target.namedQueueRequests, ∃ message,
        answer peers.yEnv (exchange.identity.moved tuple.data peers.yTicket) request = .ok message ∧ message <:+: got.sent)

-- The space at both ends, and what C objects and the handlers allow in it.
structure Exchange.Set (exchange : Exchange) (peers : Peers) (source target : TsdElement) : Prop where
  here : peers.x.spaceTable exchange.ts.tsname.chars = some source
  active : source.isActivated = true
  named : source.name = exchange.ts.tsname.chars
  sized : ∀ tuple ∈ source.bcastQueue ++ source.namedQueue, tuple.data.length < 2 ^ 63
  there : peers.y.spaceTable exchange.ts.tsname.chars = some target
  reached : target.isActivated = true
  waiting : ∀ request ∈ target.namedQueueRequests, request.Waiting

theorem exchange_given (exchange : Exchange) (peers : Peers) (source target : TsdElement) (set : exchange.Set peers source target) :
    handler peers.xEnv peers.x exchange.ts.isLocal peers.xTicket exchange.request =
      tsdAsClient peers.xEnv ⟨.str exchange.asker, exchange.command, exchange.ts.isLocal, peers.xTicket⟩ source
          ⟨sendStrFrames exchange.ts.host exchange.endpoint true ++ sendStrFrames exchange.ts.host exchange.identity.str false, true, []⟩ >>=
        fun result => .ok ⟨{ peers.x with
          spaceTable := Function.update peers.x.spaceTable exchange.ts.tsname.chars (some result.1.space) }, result.1.sent, result.2⟩ := by
  have dispatched := handler_dispatches peers.xEnv peers.x exchange.ts exchange.who exchange.asker peers.xTicket exchange.command true
    exchange.ts.tsname.chars
    (sendStrFrames exchange.ts.host exchange.endpoint true ++ sendStrFrames exchange.ts.host exchange.identity.str false) false []
    source exchange.asked (Or.inl rfl) set.here (Or.inr set.active)
  have client : dispatch peers.xEnv peers.x ⟨.str exchange.asker, exchange.command, exchange.ts.isLocal, peers.xTicket⟩ source =
      tsdAsClient peers.xEnv ⟨.str exchange.asker, exchange.command, exchange.ts.isLocal, peers.xTicket⟩ source := by
    funext input
    unfold dispatch Exchange.command
    cases exchange.take with
    | true => rfl
    | false => rfl
  rw [← client]
  exact dispatched

theorem exchange_arrives (exchange : Exchange) (peers : Peers) (source target : TsdElement) (set : exchange.Set peers source target)
    (data : Bytes) :
    handler peers.yEnv peers.y false peers.yTicket (exchange.arrives (transmit peers.xEnv source.name exchange.identity data)) =
      tsdAcceptTransmit peers.yEnv peers.y ⟨.str exchange.sender, .tsTransmit, false, peers.yTicket⟩ target
          ⟨sendStrFrames peers.xEnv.host exchange.identity.str true ++
            [sendUint64Frame peers.xEnv.host (UInt64.ofNat data.length) true, ⟨data, false⟩], true, []⟩ >>=
        fun result => .ok ⟨{ peers.y with
          spaceTable := Function.update peers.y.spaceTable exchange.ts.tsname.chars (some result.1.space) }, result.1.sent, result.2⟩ := by
  have dispatched := handler_dispatches peers.yEnv peers.y { exchange.ts with host := peers.xEnv.host, isLocal := false } exchange.peer
    exchange.sender peers.yTicket .tsTransmit true (exchange.ts.tsname.chars ++ [0])
    (sendStrFrames peers.xEnv.host exchange.identity.str true ++
      [sendUint64Frame peers.xEnv.host (UInt64.ofNat data.length) true, ⟨data, false⟩]) false []
    target exchange.transmits (Or.inr rfl) set.there (Or.inr set.reached)
  rw [set.named]
  exact dispatched

theorem accept_transmit_anonymous (env : Platform) (self : Tsd) (args : HandlerArg) (space : TsdElement) (host : HostOrder)
    (anonId : UInt32) (nonzero : anonId ≠ 0) (data : Bytes) (chunks : List Chunk) (sized : data.length < 2 ^ 63) (nonempty : data ≠ [])
    (remote : args.isLocal = false) (alone : space.namedQueueRequests = []) :
    ∃ acted input, tsdAcceptTransmit env self args space
        ⟨sendStrFrames host (TupleIdentity.anonymous anonId nonzero).str true ++
          [sendUint64Frame host (UInt64.ofNat data.length) true, ⟨data, false⟩], true, chunks⟩ = .ok (acted, input) ∧
      acted.space.namedQueue = space.namedQueue ++ [(TupleIdentity.anonymous anonId nonzero).moved data args.ticket] := by
  have identityRead := recv_str_short host env.host (TupleIdentity.anonymous anonId nonzero).str true true
    [sendUint64Frame host (UInt64.ofNat data.length) true, ⟨data, false⟩] chunks (anonymous_short anonId nonzero)
  have exact : (UInt64.ofNat data.length).toNat = data.length := by
    rw [UInt64.toNat_ofNat']
    omega
  have positive := List.length_pos_iff.mpr nonempty
  have some_ : ¬ UInt64.ofNat data.length = 0 := by
    intro zero
    rw [zero] at exact
    change 0 = data.length at exact
    omega
  have head : (TupleIdentity.anonymous anonId nonzero).str.chars.head? = some 'A'.toUInt8 := rfl
  have other : ¬ (TupleIdentity.anonymous anonId nonzero).str.chars.head? = some 'N'.toUInt8 := by
    rw [head]
    decide
  have number : UInt32.ofNat (strtoul ((TupleIdentity.anonymous anonId nonzero).str.chars.drop 1)).toNat = anonId :=
    anonymous_number anonId nonzero
  obtain ⟨sent, matched⟩ := anonymous_stored env self (space.record (.accepted ⟨.null, anonId, data, args.ticket⟩))
    ⟨.null, anonId, data, args.ticket⟩ alone
  refine ⟨{ rt := some 0
            space := { space.record (.accepted ⟨.null, anonId, data, args.ticket⟩) with
              namedQueue := space.namedQueue ++ [⟨.null, anonId, data, args.ticket⟩] }
            sent := sent }, ⟨[], false, chunks⟩, ?_, rfl⟩
  unfold tsdAcceptTransmit
  simp only [remote, Bool.false_eq_true, if_false, identityRead, recv_uint64_frame, some_, recv_data_frame data _ exact,
    head, if_true, number, matched, bind, Except.bind, safe_return_end]
  rfl

theorem find_first {α : Type} (good : α → Bool) (before after : List α) (element : α) (is : good element = true)
    (skipped : ∀ other ∈ before, good other = false) : (before ++ element :: after).find? good = some element := by
  rw [List.find?_append, List.find?_eq_none.mpr fun other member => by simp [skipped other member], Option.none_or,
    List.find?_cons_of_pos is]

theorem answer_nonempty (env : Platform) (tuple : SngTuple) (request : BlockingRequest) (message : List Out)
    (built : answer env tuple request = .ok message) : message ≠ [] := by
  obtain ⟨clientid, _, built⟩ := bind_ok _ _ _ built
  obtain ⟨reply, _, built⟩ := bind_ok _ _ _ built
  cases built
  exact List.cons_ne_nil _ _

theorem anonymous_given (env : Platform) (args : HandlerArg) (space : TsdElement) (host : HostOrder) (endpoint : Name)
    (identity : TupleIdentity) (before after : List SngTuple) (tuple : SngTuple) (short : endpoint.chars.length + 1 < 2 ^ 31)
    (connects : env.connects endpoint.chars = true) (anonymous : ∃ anonId nonzero, identity = .anonymous anonId nonzero)
    (split : space.namedQueue = before ++ tuple :: after) (fits : identity.fits env tuple = true)
    (skipped : ∀ other ∈ before, identity.fits env other = false) :
    tsdAsClient env args space ⟨sendStrFrames host endpoint true ++ sendStrFrames host identity.str false, true, []⟩ =
      .ok ({ rt := some 0
             space := if args.action = .tsTake then { space with namedQueue := before ++ after } else space
             sent := [.peer endpoint.chars (transmit env space.name identity tuple.data)] },
        ⟨[], false, []⟩) := by
  obtain ⟨anonId, nonzero, is⟩ := anonymous
  subst is
  exact as_client_anonymous env args space host endpoint anonId nonzero [] before after tuple short connects split
    (by simpa [TupleIdentity.fits] using fits) fun other member => by simpa [TupleIdentity.fits] using skipped other member

theorem transmit_data (env : Platform) (spaceName : Bytes) (identity : TupleIdentity) (one two : Bytes)
    (same : transmit env spaceName identity one = transmit env spaceName identity two) : one = two := by
  have last := congrArg List.getLast? same
  exact Option.some.inj last

-- What gets a tuple across.
structure Exchange.Carries (exchange : Exchange) (peers : Peers) (source target : TsdElement) : Prop where
  connects : peers.xEnv.connects exchange.endpoint.chars = true
  anonymous : ∃ anonId nonzero, exchange.identity = .anonymous anonId nonzero
  payload : ∀ tuple, source.namedQueue.find? (exchange.identity.fits peers.xEnv) = some tuple → tuple.data ≠ []
  alone : target.namedQueueRequests = []

theorem moved_carries (exchange : Exchange) (peers : Peers) (source target : TsdElement) (set : exchange.Set peers source target)
    (moved : exchange.Moves peers source target) : exchange.Carries peers source target := by
  obtain ⟨before, tuple, after, frames, given, got, left, split, fits, skipped, asked, _, sent, accepted, found, arrived⟩ := moved
  rw [exchange_given exchange peers source target set] at asked
  obtain ⟨⟨acted, input⟩, client, asked⟩ := bind_ok _ _ _ asked
  cases asked
  dsimp only at sent
  cases as_client_sent _ _ _ _ _ _ _ _ _ client with
  | inl silent =>
      rw [silent] at sent
      cases sent
  | inr answered =>
      obtain ⟨connects, reply, member, message⟩ := answered
      rw [message] at sent
      have same := (Out.peer.inj (List.cons.inj sent).1).2
      rw [← same, exchange_arrives exchange peers source target set] at accepted
      obtain ⟨⟨took, input⟩, transmitted, accepted⟩ := bind_ok _ _ _ accepted
      cases accepted
      simp only [Function.update_self, Option.some.injEq] at found
      subst found
      cases accept_transmit_takes _ _ _ _ _ _ _ _ _ _ (set.sized reply member) transmitted with
      | inl nothing =>
          exfalso
          rw [nothing.1, nothing.2] at arrived
          cases arrived with
          | inl stays =>
              have lengths := congrArg List.length stays
              rw [List.length_append, List.length_singleton] at lengths
              omega
          | inr delivered =>
              obtain ⟨request, _, told, built, inside⟩ := delivered
              exact answer_nonempty _ _ _ _ built (List.infix_nil.mp inside)
      | inr matched =>
          obtain ⟨nonempty, anonymous, rt, matched⟩ := matched
          have alone : target.namedQueueRequests = [] := by
            obtain ⟨anonId, nonzero, is⟩ := anonymous
            rw [is] at matched
            exact anonymous_stored_alone _ _ (target.record _) _ _ rt _ rfl set.waiting matched
          refine ⟨connects, anonymous, fun first hit => ?_, alone⟩
          rw [split, find_first _ before after tuple fits skipped] at hit
          cases hit
          have given := anonymous_given peers.xEnv ⟨.str exchange.asker, exchange.command, exchange.ts.isLocal, peers.xTicket⟩ source
            exchange.ts.host exchange.endpoint exchange.identity before after tuple exchange.short connects anonymous split fits skipped
          rw [client] at given
          have left := congrArg (fun result => result.1.sent) (Except.ok.inj given)
          dsimp only at left
          rw [message] at left
          rw [← transmit_data _ _ _ _ _ (Out.peer.inj (List.cons.inj left).1).2]
          exact nonempty

theorem carries_moved (exchange : Exchange) (peers : Peers) (source target : TsdElement) (set : exchange.Set peers source target)
    (stored : ∃ tuple ∈ source.namedQueue, exchange.identity.fits peers.xEnv tuple = true)
    (carries : exchange.Carries peers source target) : exchange.Moves peers source target := by
  obtain ⟨connects, anonymous, payload, alone⟩ := carries
  obtain ⟨first, member, suits⟩ := stored
  obtain ⟨tuple, hit⟩ := Option.isSome_iff_exists.mp (List.find?_isSome.mpr ⟨first, member, suits⟩)
  obtain ⟨fits, before, after, split, skipped⟩ := List.find?_eq_some_iff_append.mp hit
  have skips : ∀ other ∈ before, exchange.identity.fits peers.xEnv other = false := fun other inside => by
    simpa using skipped other inside
  have given := anonymous_given peers.xEnv ⟨.str exchange.asker, exchange.command, exchange.ts.isLocal, peers.xTicket⟩ source
    exchange.ts.host exchange.endpoint exchange.identity before after tuple exchange.short connects anonymous split fits skips
  have sized : tuple.data.length < 2 ^ 63 := set.sized tuple (by simp [split])
  obtain ⟨acted, input, accepted, grown⟩ : ∃ acted input,
      tsdAcceptTransmit peers.yEnv peers.y ⟨.str exchange.sender, .tsTransmit, false, peers.yTicket⟩ target
          ⟨sendStrFrames peers.xEnv.host exchange.identity.str true ++
            [sendUint64Frame peers.xEnv.host (UInt64.ofNat tuple.data.length) true, ⟨tuple.data, false⟩], true, []⟩ =
        .ok (acted, input) ∧
      acted.space.namedQueue = target.namedQueue ++ [exchange.identity.moved tuple.data peers.yTicket] := by
    obtain ⟨anonId, nonzero, is⟩ := anonymous
    rw [is]
    exact accept_transmit_anonymous peers.yEnv peers.y _ target peers.xEnv.host anonId nonzero tuple.data [] sized
      (payload tuple hit) rfl alone
  refine ⟨before, tuple, after, transmit peers.xEnv source.name exchange.identity tuple.data, _,
    ⟨{ peers.y with spaceTable := Function.update peers.y.spaceTable exchange.ts.tsname.chars (some acted.space) }, acted.sent, input⟩,
    acted.space, split, fits, skips, (exchange_given exchange peers source target set).trans (by rw [given]; rfl), ?_, ?_, ?_, ?_,
    Or.inl grown⟩
  · refine (Function.update_self ..).trans ?_
    cases takes : exchange.take with
    | true => simp [Exchange.command, takes]
    | false => simp [Exchange.command, takes]
  · rfl
  · rw [exchange_arrives exchange peers source target set, accepted]
    rfl
  · exact Function.update_self ..

-- A tuple moves exactly where it is anonymous, has a payload and nobody waits at the other end.
theorem peer_take_moves (exchange : Exchange) (peers : Peers) (source target : TsdElement) (set : exchange.Set peers source target)
    (stored : ∃ tuple ∈ source.namedQueue, exchange.identity.fits peers.xEnv tuple = true) :
    exchange.Moves peers source target ↔
      peers.xEnv.connects exchange.endpoint.chars = true ∧ (∃ anonId nonzero, exchange.identity = .anonymous anonId nonzero) ∧
        (∀ tuple, source.namedQueue.find? (exchange.identity.fits peers.xEnv) = some tuple → tuple.data ≠ []) ∧
        target.namedQueueRequests = [] :=
  ⟨fun moved =>
    let carries := moved_carries exchange peers source target set moved
    ⟨carries.connects, carries.anonymous, carries.payload, carries.alone⟩,
  fun carries => carries_moved exchange peers source target set stored
    ⟨carries.1, carries.2.1, carries.2.2.1, carries.2.2.2⟩⟩

def sampleExchange (identity : TupleIdentity) : Exchange where
  ts := { host := .big, isLocal := false, tsname := sampleSpaceName }
  take := true
  who := [67]
  asker := [67]
  asked := rfl
  endpoint := ⟨[121], by decide⟩
  short := by decide
  identity := identity
  peer := [120]
  sender := [120]
  transmits := rfl

def sampleTarget : TsdElement :=
  createElement { name := [115], directEndpoint := List.replicate 256 0, tsMode := .master, tsdMode := .direct }

def sampleSource (identity : TupleIdentity) : TsdElement := { sampleTarget with namedQueue := [identity.moved [7] 0] }

def samplePeers (identity : TupleIdentity) : Peers where
  xEnv := samplePlatform
  yEnv := samplePlatform
  x := { tsdCreate [120] 1 [] with spaceTable := fun _ => some (sampleSource identity) }
  y := { tsdCreate [121] 1 [] with spaceTable := fun _ => some sampleTarget }
  xTicket := 1
  yTicket := 0

theorem sample_set (identity : TupleIdentity) :
    (sampleExchange identity).Set (samplePeers identity) (sampleSource identity) sampleTarget where
  here := rfl
  active := rfl
  named := rfl
  sized := by
    intro tuple member
    cases List.mem_singleton.mp member
    exact (by decide : 1 < 2 ^ 63)
  there := rfl
  reached := rfl
  waiting := fun _ member => by cases member

theorem peer_take_moves_sample :
    (sampleExchange (.anonymous 5 (by decide))).Moves (samplePeers (.anonymous 5 (by decide)))
      (sampleSource (.anonymous 5 (by decide))) sampleTarget :=
  (peer_take_moves _ _ _ _ (sample_set (.anonymous 5 (by decide))) ⟨_, List.mem_singleton.mpr rfl, rfl⟩).mpr
    ⟨rfl, ⟨5, by decide, rfl⟩, fun tuple hit => by cases hit; exact List.cons_ne_nil _ _, rfl⟩

-- The tuple a is taken from the one and does not get to the other.
theorem named_tuple_not_moved :
    (TupleIdentity.named sampleName).fits samplePlatform ((TupleIdentity.named sampleName).moved [7] 0) = true ∧
      ¬ (sampleExchange (.named sampleName)).Moves (samplePeers (.named sampleName)) (sampleSource (.named sampleName))
        sampleTarget := by
  refine ⟨rfl, fun moved => ?_⟩
  obtain ⟨anonId, nonzero, is⟩ := (moved_carries _ _ _ _ (sample_set (.named sampleName)) moved).anonymous
  cases is

-- A block of a token as match_token_next takes it apart: the namespace, the kind and what follows it. stray is what a byte holds that has not
-- been written.
def parseTupleTokenStr (stray : UInt8) (block : List (Option UInt8)) : Except Stop (Bytes × UInt8 × Bytes) := do
  let identity ← blockString block
  let tupleName ← blockString (block.drop (identity.length + 2))
  match block[identity.length + 1]? with
  | none => throw .undefined
  | some byte => return (identity, byte.getD stray, tupleName)

def TupleIdentity.announcement (env : Platform) (spaceName : Name) : TupleIdentity → List (Option UInt8)
  | .named name => generateNamedTupleTokenStr spaceName.chars name.chars
  | .anonymous anonId _ => generateAnonTupleTokenStr env spaceName.chars anonId

-- What tsd_as_client and tsd_accept_transmit make of the kind and of what follows it.
def TupleIdentity.ReadFrom (identity : TupleIdentity) (who : UInt8) (follows : Bytes) : Prop :=
  match identity with
  | .named name => who = 'N'.toUInt8 ∧ follows = name.chars
  | .anonymous anonId _ => who = 'A'.toUInt8 ∧ UInt32.ofNat (strtoul follows).toNat = anonId

def TupleIdentity.Decodes (env : Platform) (spaceName : Name) (identity : TupleIdentity) : Prop :=
  ∀ stray, ∃ who follows,
    parseTupleTokenStr stray (identity.announcement env spaceName) = .ok (spaceName.chars, who, follows) ∧ identity.ReadFrom who follows

def TupleIdentity.Determined (env : Platform) (spaceName : Name) (identity : TupleIdentity) : Prop :=
  ∀ byte ∈ identity.announcement env spaceName, byte ≠ none

-- What follows the namespace in both blocks: the byte that is skipped, and the name or the number.
theorem announcement_parsed (stray : UInt8) (spaceName : Name) (follows : List (Option UInt8)) :
    parseTupleTokenStr stray ((spaceName.chars ++ [0]).map some ++ [none] ++ follows) =
      (blockString follows).map fun text => (spaceName.chars, stray, text) := by
  have named : blockString ((spaceName.chars ++ [0]).map some ++ ([none] ++ follows)) = .ok spaceName.chars :=
    block_string_terminated spaceName.chars _ spaceName.clean
  have length : ((spaceName.chars ++ [0]).map some).length = spaceName.chars.length + 1 := by
    rw [List.length_map, List.length_append, List.length_singleton]
  have rest : ((spaceName.chars ++ [0]).map some ++ ([none] ++ follows)).drop (spaceName.chars.length + 2) = follows := by
    rw [List.drop_append, length, List.drop_eq_nil_of_le (by omega)]
    have one : spaceName.chars.length + 2 - (spaceName.chars.length + 1) = 1 := by omega
    rw [one]
    rfl
  have kind : ((spaceName.chars ++ [0]).map some ++ ([none] ++ follows))[spaceName.chars.length + 1]? = some none := by
    rw [List.getElem?_append_right (by omega), length, Nat.sub_self]
    rfl
  unfold parseTupleTokenStr
  rw [List.append_assoc, named]
  simp only [bind, Except.bind, rest, kind]
  cases blockString follows with
  | error stop => rfl
  | ok text => rfl

theorem named_announcement_parsed (stray : UInt8) (spaceName name : Name) :
    parseTupleTokenStr stray (generateNamedTupleTokenStr spaceName.chars name.chars) = .ok (spaceName.chars, stray, name.chars) := by
  have text : blockString ((name.chars ++ [0]).map some) = .ok name.chars := by
    have terminated := block_string_terminated name.chars [] name.clean
    rwa [List.append_nil] at terminated
  rw [generateNamedTupleTokenStr, announcement_parsed, text]
  rfl

theorem announcement_kind (env : Platform) (stray who : UInt8) (spaceName : Name) (identity : TupleIdentity) (chars follows : Bytes)
    (parsed : parseTupleTokenStr stray (identity.announcement env spaceName) = .ok (chars, who, follows)) : who = stray := by
  cases identity with
  | named name =>
      rw [TupleIdentity.announcement, named_announcement_parsed] at parsed
      cases parsed
      rfl
  | anonymous anonId nonzero =>
      rw [TupleIdentity.announcement, generateAnonTupleTokenStr, announcement_parsed] at parsed
      cases read : blockString ((store env.host 8 anonId.toNat).map some) with
      | error stop =>
          rw [read] at parsed
          cases parsed
      | ok text =>
          rw [read] at parsed
          cases parsed
          rfl

-- The kind is written where the name or the number then goes, and the byte that is read for it is not written.
theorem announcement_not_read (env : Platform) (spaceName : Name) (identity : TupleIdentity) :
    ¬ identity.Decodes env spaceName ∧ ¬ identity.Determined env spaceName := by
  constructor
  · intro decodes
    obtain ⟨who, follows, parsed, reads⟩ := decodes 0
    have kind := announcement_kind env 0 who spaceName identity _ _ parsed
    subst kind
    cases identity with
    | named name => exact absurd reads.1 (by decide)
    | anonymous anonId nonzero => exact absurd reads.1 (by decide)
  · intro determined
    cases identity with
    | named name => exact determined none (by simp [TupleIdentity.announcement, generateNamedTupleTokenStr]) rfl
    | anonymous anonId nonzero => exact determined none (by simp [TupleIdentity.announcement, generateAnonTupleTokenStr]) rfl

-- The announcement of a in the space s.
theorem named_announcement_not_read :
    ¬ (TupleIdentity.named sampleName).Decodes samplePlatform ⟨[115], by decide⟩ := by
  intro decodes
  obtain ⟨who, follows, parsed, reads⟩ := decodes 0
  have kind := announcement_kind samplePlatform 0 who _ (.named sampleName) _ _ parsed
  rw [reads.1] at kind
  exact absurd kind (by decide)

end Synergy
