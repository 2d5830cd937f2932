import Synergy.Activation
import Synergy.Origins
import Synergy.TokenSlots

set_option autoImplicit false

namespace Synergy

-- generic_token_t as p2pmd is given it.
def GenericToken.handed (tk : GenericToken) : Token :=
  { id := tk.id, ttl := Int32.ofInt tk.ttl, buf1 := tk.buf1, buf2 := tk.buf2.map some, len1 := UInt64.ofNat tk.len1,
    len2 := UInt64.ofNat tk.len2 }

-- What is left of a token at the next node: as many bytes of its buffers as it announces.
def Token.carried (token : Token) : Token :=
  { token with
    buf1 := token.buf1.take token.len1.toNat ++ List.replicate (token.len1.toNat - token.buf1.length) Option.none
    buf2 := token.buf2.take token.len2.toNat ++ List.replicate (token.len2.toNat - token.buf2.length) Option.none }

theorem recv_buf_carried (len : UInt64) (buf : List (Option UInt8)) (more : Bool) (later : List MsgPart) :
    recvTokenBuf len (⟨buf.take len.toNat, more⟩ :: later) =
      (buf.take len.toNat ++ List.replicate (len.toNat - buf.length) none, later) := by
  have missing : len.toNat - min len.toNat buf.length = len.toNat - buf.length := by omega
  simp only [recvTokenBuf, List.take_take, Nat.min_self, List.length_take, missing]

theorem recv_token_carried (sender receiver : HostOrder) (token before : Token) (rest : List MsgPart) :
    recvToken receiver before ((token.parts sender).tail ++ rest) = .ok (token.carried, rest) := by
  simp only [recvToken, Token.parts, List.tail_cons, List.cons_append, List.nil_append, recv_word_part, recv_long_part, bind,
    Except.bind, pure, Except.pure, Option.getD_some, Option.map_some, recv_buf_carried, Token.carried, Int32.toInt32_toUInt32]

-- A token on its way to the next node: the pass that takes it from the pipe and sends its message, and the pass of the next
-- node that receives this message and has something to pass up.
structure TokenHop (sender receiver : P2pmEnv) (token arrived : Token) where
  giver : P2pmdActor
  given : P2pmdActor
  arrivals : Arrivals
  revents : Revents
  readable : revents.pipe = true
  idle : giver.node.recvHasToken = false
  whole : Whole giver.node.successorSent
  gives : giver.step sender (.polls arrivals revents (.sendToken token)) = some given
  message : List MsgPart
  sends : tokenMessages sender.host given.node.successorSent = tokenMessages sender.host giver.node.successorSent ++ [message]
  taker : P2pmdActor
  taken : P2pmdActor
  turn : ActorTurn
  identity : MsgPart
  later : List MsgPart
  notified : (taker.polled turn).node.revents.server = true
  incoming : (taker.polled turn).node.serverInbox = identity :: (message ++ later)
  takes : taker.step receiver turn = some taken
  up : tokensUp taken.pipe = tokensUp taker.pipe ++ [arrived]

theorem actor_step_ok (env : P2pmEnv) (actor next : P2pmdActor) (turn : ActorTurn) (taken : actor.step env turn = some next) :
    actor.terminated = false ∧
      (((actor.polled turn).terminated = true ∧ next = actor.polled turn) ∨
        ((actor.polled turn).terminated = false ∧ processTimeo env (actor.polled turn) = .ok next)) := by
  unfold P2pmdActor.step at taken
  split at taken
  · cases taken
  · rename_i allowed
    have running : actor.terminated = false := by
      by_contra ended
      exact allowed (Or.inl (by simpa using ended))
    refine ⟨running, ?_⟩
    dsimp only at taken
    split at taken
    · rename_i ended
      cases taken
      exact Or.inl ⟨ended, rfl⟩
    · rename_i going
      cases passed : processTimeo env (actor.polled turn) with
      | error stop =>
          rw [passed] at taken
          cases taken
      | ok result =>
          rw [passed] at taken
          cases taken
          exact Or.inr ⟨by simpa using going, rfl⟩

theorem command_taken (actor : P2pmdActor) (arrivals : Arrivals) (revents : Revents) (token : Token) (readable : revents.pipe = true)
    (going : (actor.polled (.polls arrivals revents (.sendToken token))).terminated = false) :
    takenIn actor (.polls arrivals revents (.sendToken token)) = [token] := by
  simp only [P2pmdActor.polled] at going
  simp only [takenIn]
  split at going
  · cases going
  · rename_i open_
    rw [if_neg open_, if_pos readable]
    rfl

theorem hop_message (sender receiver : P2pmEnv) (token arrived : Token) (hop : TokenHop sender receiver token arrived) :
    hop.message = token.parts sender.host := by
  have nothing : ∀ sent : List MsgPart, sent = hop.giver.node.successorSent → sent ≠ hop.given.node.successorSent := by
    intro sent same added
    have sends := hop.sends
    rw [← added, same] at sends
    exact absurd (congrArg List.length sends) (by simp)
  obtain ⟨running, passed⟩ := actor_step_ok sender _ _ _ hop.gives
  have frame := polled_frame hop.giver (.polls hop.arrivals hop.revents (.sendToken token)) running
  rcases passed with ⟨_, same⟩ | ⟨going, passed⟩
  · exact absurd (congrArg (fun actor => actor.node.successorSent) same).symm (nothing _ frame.sent)
  · obtain ⟨code, node, loop, _, sent, _⟩ := process_timeo_frame sender _ _ passed
    have empty := frame.received.trans hop.idle
    rcases loop_server_tokens sender _ node code empty loop with ⟨_, _, idle⟩ | ⟨_, sends, _⟩
    · rw [idle] at sent
      exact absurd sent.symm (nothing _ frame.sent)
    · rw [frame.sent] at sends
      have slot : (hop.giver.polled (.polls hop.arrivals hop.revents (.sendToken token))).node.sendHasToken = true ∧
          (hop.giver.polled (.polls hop.arrivals hop.revents (.sendToken token))).node.sendToken = token := by
        have one := command_taken hop.giver hop.arrivals hop.revents token hop.readable going
        rcases frame.slot with ⟨none_, _⟩ | ⟨other, same, _, full, filled⟩
        · rw [one] at none_
          cases none_
        · rw [one] at same
          cases same
          exact ⟨full, filled⟩
      rw [slot.1, slot.2, if_pos rfl] at sends
      have tokens := (sends_tokens sender.host _ _ _ hop.whole sends).2
      have same := hop.sends
      rw [sent, tokens] at same
      exact (List.cons.inj (List.append_cancel_left same)).1.symm

theorem served_carried (sender : HostOrder) (env : P2pmEnv) (self next : P2pm) (identity : MsgPart) (token : Token) (later : List MsgPart)
    (code : P2pmOpcodes) (done : serveMessage env self identity (token.parts sender ++ later) = .ok (code, next)) :
    next.recvHasToken = true ∧ next.recvToken = token.carried := by
  obtain ⟨clientid, ubuf, inbox, _, received, served⟩ := serve_message_served env self next identity _ code done
  have first := recv_word_part sender env.host P2pmReqtypes.token.code true ((token.parts sender).tail ++ later)
  obtain ⟨word, rest⟩ := Prod.mk.inj (Except.ok.inj (received.symm.trans first))
  have case_ : ServerCase.ofCode (ubuf.getD env.strayWord) = .token := by
    rw [word]
    rfl
  rw [case_] at served
  obtain ⟨taken, frame⟩ := token_frame env _ next code served
  refine ⟨congrArg (fun node => node.recvHasToken) frame, ?_⟩
  dsimp only at taken
  rw [rest, recv_token_carried sender env.host token _ later] at taken
  exact congrArg Prod.fst (Except.ok.inj taken).symm

theorem hop_carried (sender receiver : P2pmEnv) (token arrived : Token) (hop : TokenHop sender receiver token arrived) :
    arrived = token.carried := by
  have message := hop_message sender receiver token arrived hop
  obtain ⟨running, passed⟩ := actor_step_ok receiver _ _ _ hop.takes
  have frame := polled_frame hop.taker hop.turn running
  have up := hop.up
  rcases passed with ⟨_, same⟩ | ⟨going, passed⟩
  · rw [same, frame.up] at up
    exact absurd (congrArg List.length up) (by simp)
  · obtain ⟨code, node, loop, _, _, _, _, raised⟩ := process_timeo_frame receiver _ _ passed
    have incoming := hop.incoming
    rw [message] at incoming
    unfold p2pmLoopServer at loop
    rw [if_pos hop.notified, incoming] at loop
    obtain ⟨⟨answer, served⟩, serve, loop⟩ := bind_ok _ _ _ loop
    obtain ⟨looped, last, loop⟩ := bind_ok _ _ _ loop
    cases loop
    obtain ⟨full, carried⟩ := served_carried sender.host receiver _ served hop.identity token hop.later answer serve
    have same := (loop_sockets_frame receiver served node last).same
    have has : node.recvHasToken = true := (congrArg (fun node => node.recvHasToken) same).trans full
    have received : node.recvToken = token.carried := (congrArg (fun node => node.recvToken) same).trans carried
    rw [raised, frame.up, has, received] at up
    exact (List.cons.inj (List.append_cancel_left up)).1.symm

-- What token_handler of the next node has to see of a token of this daemon.
structure Intact (endpoint : Bytes) (tk : GenericToken) (arrived : Token) : Prop where
  id : arrived.id = tk.id
  ttl : arrived.ttl.toInt = tk.ttl
  block : arrived.buf1 = tk.buf1
  origin : arrived.buf2 = (endpoint ++ [0]).map some

theorem announced_length (len : Nat) (size : len < 2 ^ 64) : (UInt64.ofNat len).toNat = len := by
  rw [UInt64.toNat_ofNat']
  exact Nat.mod_eq_of_lt size

theorem whole_intact (endpoint : Bytes) (tk : GenericToken) (ttl : tk.ttl = -1) (origin : tk.buf2 = endpoint ++ [0])
    (len1 : tk.len1 = tk.buf1.length) (len2 : tk.len2 = endpoint.length + 1) (size1 : tk.buf1.length < 2 ^ 64)
    (size2 : tk.buf2.length < 2 ^ 64) : Intact endpoint tk tk.handed.carried := by
  have count2 : tk.buf2.length = endpoint.length + 1 := by rw [origin, List.length_append, List.length_singleton]
  have announced1 : (UInt64.ofNat tk.len1).toNat = tk.buf1.length := by rw [len1, announced_length _ size1]
  have announced2 : (UInt64.ofNat tk.len2).toNat = tk.buf2.length := by rw [len2, ← count2, announced_length _ size2]
  refine ⟨rfl, ?_, ?_, ?_⟩
  · rw [ttl]
    change (Int32.ofInt tk.ttl).toInt = -1
    rw [ttl]
    decide
  · simp only [Token.carried, GenericToken.handed, announced1, List.take_length, Nat.sub_self, List.replicate_zero, List.append_nil]
  · rw [← origin]
    simp only [Token.carried, GenericToken.handed, announced2, List.length_map, Nat.sub_self, List.replicate_zero, List.append_nil]
    exact List.take_of_length_le (by rw [List.length_map])

theorem carried_block_length (token : Token) : token.carried.buf1.length = token.len1.toNat := by
  simp only [Token.carried, List.length_append, List.length_take, List.length_replicate]
  omega

theorem carried_origin_length (token : Token) : token.carried.buf2.length = token.len2.toNat := by
  simp only [Token.carried, List.length_append, List.length_take, List.length_replicate]
  omega

-- A token reaches token_handler of the next node as it has been made exactly when it has been made for a TsConnect, a TsTerm
-- or a TsPut. Its buffers are no longer than a size_t can say.
theorem tokens_arrive_intact (env : Platform) (self : Tsd) (isLocal : Bool) (ticket : Nat) (input : Input) (handled : Handled)
    (tk : GenericToken) (sender receiver : P2pmEnv) (arrived : Token)
    (done : handler env self isLocal ticket input = .ok handled) (member : tk ∈ tokensIn handled.sent)
    (size1 : tk.buf1.length < 2 ^ 64) (size2 : tk.buf2.length < 2 ^ 64) (hop : TokenHop sender receiver tk.handed arrived) :
    Intact self.endpoint tk arrived ↔
      ∃ action, commandOf env.host input = .ok (some action) ∧ (action = .tsConnect ∨ action = .tsTerm ∨ action = .tsPut) := by
  rw [hop_carried sender receiver _ arrived hop]
  obtain ⟨action, command, origin⟩ := handler_origin env self isLocal ticket input handled done tk member
  have named : ∀ other, commandOf env.host input = .ok (some other) → other = action := by
    intro other same
    rw [command] at same
    exact (Option.some.inj (Except.ok.inj same)).symm
  cases origin with
  | activation spaceName =>
      exact ⟨fun _ => ⟨_, command, Or.inl rfl⟩, fun _ =>
        whole_intact _ _ rfl rfl (by simp [activationToken]) rfl size1 size2⟩
  | termination spaceName =>
      exact ⟨fun _ => ⟨_, command, Or.inr (Or.inl rfl)⟩, fun _ =>
        whole_intact _ _ rfl rfl (by simp [decomissionToken, activationToken]) rfl size1 size2⟩
  | named spaceName name buf1 built =>
      exact ⟨fun _ => ⟨_, command, Or.inr (Or.inr rfl)⟩, fun _ => whole_intact _ _ rfl rfl rfl rfl size1 size2⟩
  | anonymous spaceName anonId buf1 built =>
      constructor
      · intro intact
        exfalso
        have length := carried_origin_length (GenericToken.handed
          { id := 2, ttl := -1, buf1 := buf1, buf2 := self.endpoint ++ [0], len1 := buf1.length, len2 := (self.endpoint.drop 1).length })
        rw [intact.origin] at length
        simp only [GenericToken.handed, List.length_map, List.length_append, List.length_singleton, List.length_drop] at length
        rw [List.length_append, List.length_singleton] at size2
        rw [announced_length _ (by omega)] at length
        omega
      · rintro ⟨other, same, kind⟩
        rw [named other same] at kind
        rcases kind with kind | kind | kind
        all_goals cases kind
  | replication action spaceName anonId buf1 adds built =>
      constructor
      · intro intact
        exfalso
        have length := carried_block_length (GenericToken.handed
          { id := 3, ttl := self.replicationFactor.toInt32.toInt, buf1 := buf1, buf2 := self.endpoint ++ [0], len1 := 0,
            len2 := self.endpoint.length + 1 })
        rw [intact.block] at length
        rw [built] at length
        simp [GenericToken.handed, generateAnonTupleTokenStr] at length
      · rintro ⟨other, same, kind⟩
        rw [named other same] at kind
        rcases adds with adds | adds
        · rw [adds] at kind
          rcases kind with kind | kind | kind
          all_goals cases kind
        · rw [adds] at kind
          rcases kind with kind | kind | kind
          all_goals cases kind

def sampleIdle : P2pmdActor := { node := sampleP2pm, pipe := [], again := false, nextTimeo := 0, terminated := false }

def bigP2pmEnv : P2pmEnv := { sampleP2pmEnv with host := .big }

def sampleHopTurn (message : List MsgPart) : ActorTurn :=
  .polls { server := ⟨[some 7], true⟩ :: message, successor := [], predecessor := [] }
    { server := true, successor := false, predecessor := false, pipe := true } .getSuccessorEndpt

def sampleAnnouncement : GenericToken :=
  { id := 2, ttl := -1, buf1 := generateAnonTupleTokenStr samplePlatform [115] 9, buf2 := [65, 0], len1 := 11, len2 := 0 }

set_option maxRecDepth 20000 in
theorem sample_hops : Nonempty (TokenHop sampleP2pmEnv bigP2pmEnv (activationToken [65] [115]).handed
      (activationToken [65] [115]).handed.carried) ∧
    Nonempty (TokenHop sampleP2pmEnv bigP2pmEnv sampleAnnouncement.handed sampleAnnouncement.handed.carried) := by
  have quiet : Whole sampleP2pm.successorSent := ⟨[], rfl, by simp⟩
  exact ⟨⟨{
      giver := sampleIdle, given := _, arrivals := ⟨[], [], []⟩, revents := ⟨false, false, false, true⟩, readable := rfl, idle := rfl
      whole := quiet, gives := rfl, message := (activationToken [65] [115]).handed.parts .little, sends := rfl
      taker := sampleIdle, taken := _, turn := sampleHopTurn ((activationToken [65] [115]).handed.parts .little)
      identity := ⟨[some 7], true⟩, later := [], notified := rfl, incoming := rfl, takes := rfl, up := rfl }⟩,
    ⟨{
      giver := sampleIdle, given := _, arrivals := ⟨[], [], []⟩, revents := ⟨false, false, false, true⟩, readable := rfl, idle := rfl
      whole := quiet, gives := rfl, message := sampleAnnouncement.handed.parts .little, sends := rfl
      taker := sampleIdle, taken := _, turn := sampleHopTurn (sampleAnnouncement.handed.parts .little)
      identity := ⟨[some 7], true⟩, later := [], notified := rfl, incoming := rfl, takes := rfl, up := rfl }⟩⟩

set_option maxRecDepth 20000 in
theorem tokens_arrive_intact_sample : ∃ (handled : Handled) (tk : GenericToken) (arrived : Token),
    handler samplePlatform (tsdCreate [65] 1 (sampleRingSpaces 0)) false 0 (sampleConnect sampleClient 0).input = .ok handled ∧
      tk ∈ tokensIn handled.sent ∧ Nonempty (TokenHop sampleP2pmEnv bigP2pmEnv tk.handed arrived) ∧ Intact [65] tk arrived := by
  obtain ⟨handled, done, made⟩ : ∃ handled : Handled,
      handler samplePlatform (tsdCreate [65] 1 (sampleRingSpaces 0)) false 0 (sampleConnect sampleClient 0).input = .ok handled ∧
        tokensIn handled.sent = [activationToken [65] [115]] := ⟨_, rfl, rfl⟩
  have member : activationToken [65] [115] ∈ tokensIn handled.sent := by
    rw [made]
    exact List.mem_singleton.mpr rfl
  obtain ⟨hop⟩ := sample_hops.1
  have result := tokens_arrive_intact samplePlatform (tsdCreate [65] 1 (sampleRingSpaces 0)) false 0 (sampleConnect sampleClient 0).input
    handled _ sampleP2pmEnv bigP2pmEnv _ done member (by decide) (by decide) hop
  exact ⟨handled, _, _, done, member, ⟨hop⟩, result.mpr ⟨.tsConnect, rfl, Or.inl rfl⟩⟩

def sampleP2pSpaces : List SngNamespace :=
  [{ name := [115], directEndpoint := List.replicate 256 0, tsMode := .p2p, tsdMode := .token }]

def sampleAdd : Arrival := { sampleConnect sampleClient 0 with call := .tsInAdd 9 (by decide) samplePayload }

set_option maxRecDepth 20000 in
-- strlen(self->endpoint + 1) cuts the endpoint of an anonymous announcement.
theorem announced_endpoint_cut : ¬ ∀ (env : Platform) (self : Tsd) (isLocal : Bool) (ticket : Nat) (input : Input) (handled : Handled)
    (tk : GenericToken) (sender receiver : P2pmEnv) (arrived : Token),
    handler env self isLocal ticket input = .ok handled → tk ∈ tokensIn handled.sent →
      Nonempty (TokenHop sender receiver tk.handed arrived) → Intact self.endpoint tk arrived := by
  intro claim
  obtain ⟨handled, done, made⟩ : ∃ handled : Handled,
      handler samplePlatform (tsdCreate [65] 1 sampleP2pSpaces) false 0 sampleAdd.input = .ok handled ∧
        tokensIn handled.sent = [sampleAnnouncement] := ⟨_, rfl, rfl⟩
  have member : sampleAnnouncement ∈ tokensIn handled.sent := by
    rw [made]
    exact List.mem_singleton.mpr rfl
  have intact := claim samplePlatform (tsdCreate [65] 1 sampleP2pSpaces) false 0 sampleAdd.input handled _ sampleP2pmEnv bigP2pmEnv _
    done member sample_hops.2
  exact absurd intact.origin (by decide)

end Synergy
