import Synergy.Pairing
import Synergy.Answers

set_option autoImplicit false

namespace Synergy

-- The frames of an answer on the socket of its client, and the chunks that follow through tsd_ts_pipe.
def Reply.frames (env : Platform) (isLocal : Bool) (ticket : Nat) (reply : Reply) : List Sent :=
  match reply.outs env isLocal ticket with
  | .ok outs => framesOn isLocal outs
  | .error _ => []

def Reply.chunks (env : Platform) (isLocal : Bool) (ticket : Nat) (reply : Reply) : List Chunk :=
  match reply.outs env isLocal ticket with
  | .ok outs => chunksIn outs
  | .error _ => []

-- What the daemon of a space in master mode answers, where no local client fetches.
def Reply.plain (isLocal : Bool) : Reply → Bool
  | .mode _ (some _) => false
  | .fetched _ => !isLocal
  | _ => true

theorem reply_frames (env : Platform) (isLocal : Bool) (ticket : Nat) (reply : Reply) (outs : List Out)
    (built : reply.outs env isLocal ticket = .ok outs) : reply.frames env isLocal ticket = framesOn isLocal outs := by
  rw [Reply.frames, built]

theorem reply_chunks (env : Platform) (isLocal : Bool) (ticket : Nat) (reply : Reply) (outs : List Out)
    (built : reply.outs env isLocal ticket = .ok outs) : reply.chunks env isLocal ticket = chunksIn outs := by
  rw [Reply.chunks, built]

theorem reply_body (env : Platform) (isLocal : Bool) (ticket : Nat) (reply : Reply) (outs : List Out) (plain : reply.plain isLocal = true)
    (built : reply.outs env isLocal ticket = .ok outs) : Body isLocal ticket outs := by
  cases reply with
  | enf =>
      cases built
      exact body_frames isLocal ticket [] _ []
  | term =>
      cases built
      exact body_frames isLocal ticket [] _ []
  | mode word endpoint =>
      cases endpoint with
      | none =>
          cases built
          exact body_frames isLocal ticket [] _ []
      | some endpoint => cases plain
  | found tuple => exact read_response_body env isLocal ticket tuple outs built
  | fetched tuple =>
      have body := fetch_response_body env isLocal ticket tuple outs built
      cases isLocal with
      | true => cases plain
      | false => rwa [if_neg (by simp)] at body

theorem reply_tickets (env : Platform) (isLocal : Bool) (ticket : Nat) (reply : Reply) (plain : reply.plain isLocal = true) (frame : Sent)
    (member : frame ∈ reply.frames env isLocal ticket) : frame.ticket = ticket := by
  cases built : reply.outs env isLocal ticket with
  | error stop => simp [Reply.frames, built] at member
  | ok outs =>
      rw [reply_frames env isLocal ticket reply outs built] at member
      exact (reply_body env isLocal ticket reply outs plain built).ours frame member

theorem send_str_chunks (env : Platform) (isLocal : Bool) (ticket : Nat) (name : CString) (more : Bool) (frames : List Out)
    (sent : sendStr env isLocal ticket name more = .ok frames) : chunksIn frames = [] := by
  obtain ⟨len, body, same⟩ := send_str_frames env isLocal ticket name more frames sent
  rw [same]
  rfl

theorem remote_chunks (env : Platform) (ticket : Nat) (reply : Reply) : reply.chunks env false ticket = [] := by
  cases built : reply.outs env false ticket with
  | error stop => rw [Reply.chunks, built]
  | ok outs =>
      rw [reply_chunks env false ticket reply outs built]
      have named : ∀ tuple, handleNamedQueueReadResponse env false ticket tuple = .ok outs → chunksIn outs = [] := by
        intro tuple done
        obtain ⟨name, sent, done⟩ := bind_ok _ _ _ done
        cases done
        rw [List.cons_append, ← List.singleton_append, chunks_in_append, chunks_in_append, send_str_chunks _ _ _ _ _ _ sent]
        rfl
      cases reply with
      | enf =>
          cases built
          rfl
      | term =>
          cases built
          rfl
      | mode word endpoint =>
          cases endpoint with
          | none =>
              cases built
              rfl
          | some endpoint =>
              obtain ⟨name, sent, built⟩ := bind_ok _ _ _ built
              cases built
              rw [← List.singleton_append, chunks_in_append, send_str_chunks _ _ _ _ _ _ sent]
              rfl
      | found tuple => exact named tuple built
      | fetched tuple =>
          change handleNamedQueueFetchResponse env false ticket tuple = .ok outs at built
          rw [handleNamedQueueFetchResponse] at built
          by_cases anonymous : tuple.name = .null ∧ tuple.anonId ≠ 0
          · rw [if_pos anonymous] at built
            cases built
            rfl
          · rw [if_neg anonymous] at built
            exact named tuple built

-- The client a message is for, by its socket and its identity.
def Posting.For (side : Bool) (identity : Identity) (posting : Posting) : Prop :=
  posting.isLocal = side ∧ posting.clientid = .str identity.chars

instance (side : Bool) (identity : Identity) (posting : Posting) : Decidable (posting.For side identity) :=
  inferInstanceAs (Decidable (_ ∧ _))

def Posting.framesFor (env : Platform) (side : Bool) (identity : Identity) (posting : Posting) : List Sent :=
  if posting.For side identity then posting.reply.frames env side posting.ticket else []

def Posting.chunksFor (env : Platform) (side : Bool) (identity : Identity) (posting : Posting) : List Chunk :=
  if posting.For side identity then posting.reply.chunks env side posting.ticket else []

-- A message whose answer the client can take apart.
structure Posting.Clear (posting : Posting) : Prop where
  client : ∃ chars, posting.clientid = .str chars
  plain : posting.reply.plain posting.isLocal = true

theorem posting_message (env : Platform) (posting : Posting) (outs : List Out) (clear : posting.Clear)
    (built : posting.outs env = .ok outs) :
    Multipart.Message Sent.more (framesOn posting.isLocal outs) ∧ framesOn (!posting.isLocal) outs = [] ∧
      (∀ identity, routedTo identity [framesOn posting.isLocal outs] = posting.framesFor env posting.isLocal identity) ∧
      chunksIn outs = posting.reply.chunks env posting.isLocal posting.ticket := by
  obtain ⟨isLocal, clientid, ticket, reply⟩ := posting
  obtain ⟨⟨chars, client⟩, plain⟩ := clear
  dsimp only at client plain ⊢
  subst client
  obtain ⟨out, addressed, built⟩ := bind_ok _ _ _ built
  obtain ⟨outs, answered, built⟩ := bind_ok _ _ _ built
  cases addressed
  cases built
  have body := reply_body env isLocal ticket reply outs plain answered
  obtain ⟨front, last, same, announce, ends⟩ := body.here
  rw [frames_on_here, frames_on_elsewhere, body.elsewhere, reply_chunks env isLocal ticket reply outs answered]
  refine ⟨⟨⟨ticket, chars, true⟩ :: front, last, by rw [same]; rfl, fun frame member => ?_, ends⟩, rfl, fun identity => ?_, rfl⟩
  · cases List.mem_cons.mp member with
    | inl head => rw [head]
    | inr later => exact announce frame later
  · rw [Posting.framesFor]
    by_cases here : chars = identity.chars
    · simp [routedTo, Posting.For, here, reply_frames env isLocal ticket reply outs answered]
    · simp [routedTo, Posting.For, here]

theorem routed_cons (identity : Identity) (message : List Sent) (later : List (List Sent)) :
    routedTo identity (message :: later) = routedTo identity [message] ++ routedTo identity later := by
  simp [routedTo]

theorem postings_messages (env : Platform) (side : Bool) (postings : List Posting) (outs : List (List Out))
    (clear : ∀ posting ∈ postings, posting.Clear) (built : postings.mapM (Posting.outs env) = .ok outs) :
    (Multipart.receive Sent.more [] (framesOn side outs.flatten)).2 = [] ∧
      (∀ identity, routedTo identity (Multipart.receive Sent.more [] (framesOn side outs.flatten)).1 =
        postings.flatMap (Posting.framesFor env side identity)) ∧
      chunksIn outs.flatten = postings.flatMap fun posting => posting.reply.chunks env posting.isLocal posting.ticket := by
  induction postings generalizing outs with
  | nil =>
      cases built
      exact ⟨rfl, fun _ => rfl, rfl⟩
  | cons posting later ih =>
      rw [List.mapM_cons] at built
      obtain ⟨first, one, built⟩ := bind_ok _ _ _ built
      obtain ⟨others, rest, built⟩ := bind_ok _ _ _ built
      cases built
      obtain ⟨whole, elsewhere, routed, chunks⟩ := posting_message env posting first (clear posting (by simp)) one
      obtain ⟨kept, routes, behind⟩ := ih others (fun other member => clear other (by simp [member])) rest
      rw [List.flatten_cons, frames_on_append, chunks_in_append, chunks, behind, List.flatMap_cons]
      by_cases here : posting.isLocal = side
      · subst here
        rw [Multipart.receive_message Sent.more _ _ whole]
        refine ⟨kept, fun identity => ?_, rfl⟩
        rw [routed_cons, routed identity, routes identity, List.flatMap_cons]
      · have other : framesOn side first = [] := by
          rw [← Bool.eq_not_of_ne (Ne.symm here)] at elsewhere
          exact elsewhere
        rw [other, List.nil_append]
        refine ⟨kept, fun identity => ?_, rfl⟩
        rw [List.flatMap_cons, Posting.framesFor, if_neg fun both => here both.1, routes identity, List.nil_append]

theorem sends_routed (env : Platform) (sent : List Out) (postings : List Posting) (clear : ∀ posting ∈ postings, posting.Clear)
    (sends : Sends env sent postings) (side : Bool) :
    (Multipart.receive Sent.more [] (framesOn side sent)).2 = [] ∧
      ∀ identity, routedTo identity (Multipart.receive Sent.more [] (framesOn side sent)).1 =
        postings.flatMap (Posting.framesFor env side identity) := by
  obtain ⟨outs, built, frames, _⟩ := sends
  rw [frames side]
  obtain ⟨kept, routed, _⟩ := postings_messages env side postings outs clear built
  exact ⟨kept, routed⟩

theorem sends_chunks (env : Platform) (sent : List Out) (postings : List Posting) (clear : ∀ posting ∈ postings, posting.Clear)
    (sends : Sends env sent postings) (identity : Identity)
    (one : ∀ posting ∈ postings, posting.isLocal = true → posting.clientid = .str identity.chars) :
    chunksIn sent = postings.flatMap (Posting.chunksFor env true identity) := by
  obtain ⟨outs, built, _, chunks⟩ := sends
  obtain ⟨_, _, passed⟩ := postings_messages env true postings outs clear built
  rw [chunks, passed]
  refine List.flatMap_congr fun posting member => ?_
  cases side : posting.isLocal with
  | true => rw [Posting.chunksFor, if_pos ⟨side, one posting member side⟩]
  | false =>
      have apart : ¬ posting.For true identity := fun both => by
        rw [both.1] at side
        cases side
      rw [Posting.chunksFor, if_neg apart, remote_chunks]

-- ts_open and ts_out read a response.
def Call.asks : Call → Bool
  | .tsOpen _ => true
  | .tsOutQuery _ _ _ => true
  | .tsOutFetch _ _ => true
  | _ => false

def Call.blocks : Call → Bool
  | .tsOutQuery _ blocking _ => blocking
  | .tsOutFetch _ blocking => blocking
  | _ => false

theorem blocks_command (call : Call) (asks : call.asks = true) : isBlocking call.command = call.blocks := by
  cases call with
  | tsOutQuery takesIt blocking name => cases takesIt <;> cases blocking <;> rfl
  | tsOutFetch takesIt blocking => cases takesIt <;> cases blocking <;> rfl
  | tsOpen mode => rfl
  | _ => cases asks

-- A tuple that ts_in has written.
structure SngTuple.Sized (tuple : SngTuple) : Prop where
  nonempty : tuple.data ≠ []
  bounded : tuple.data.length < 2 ^ 63

theorem written_sized (call : Call) (ticket : Nat) (tuple : SngTuple) (written : call.written ticket call.bytes = some tuple) :
    tuple.Sized := by
  cases call with
  | tsInPut name data =>
      cases written
      exact ⟨data.nonempty, data.bounded⟩
  | tsInAdd anonId nonzero data =>
      cases written
      exact ⟨data.nonempty, data.bounded⟩
  | _ => cases written

-- The answers a call of a client on this socket can get. TsEnf ends it only where the daemon had nothing for it.
inductive Reply.Settles (nothing : Prop) (isLocal : Bool) (call : Call) : Reply → Prop where
  | enf (asked : call.query ≠ none) (returns : call.blocks = false) (missed : nothing) : Settles nothing isLocal call .enf
  | term (asked : call.query ≠ none) : Settles nothing isLocal call .term
  | mode (mode word : UInt32) (opens : call = .tsOpen mode) : Settles nothing isLocal call (.mode word none)
  | found (tuple : SngTuple) (asked : call.query ≠ none) (sized : tuple.Sized) : Settles nothing isLocal call (.found tuple)
  | fetched (tuple : SngTuple) (asked : call.query ≠ none) (sized : tuple.Sized) (remote : isLocal = false) :
      Settles nothing isLocal call (.fetched tuple)

theorem settles_plain (nothing : Prop) (isLocal : Bool) (call : Call) (reply : Reply) (settles : reply.Settles nothing isLocal call) :
    reply.plain isLocal = true := by
  cases settles with
  | enf asked returns missed => rfl
  | term asked => rfl
  | mode mode word opens => rfl
  | found tuple asked sized => rfl
  | fetched tuple asked sized remote =>
      rw [remote]
      rfl

-- What the call makes of the frames and chunks of an answer.
def Call.heard (env : Platform) (ts : Ts) (ticket : Nat) (reply : Reply) (call : Call) : Except Stop (Option TsOut × Input) :=
  call.hear ts (reply.chunks env ts.isLocal ticket) ((reply.frames env ts.isLocal ticket).map Sent.frame)

theorem hear_word (env : Platform) (ts : Ts) (block : Bool) (chunks : List Chunk) (code : UInt32) (more : Bool) (later : List Frame)
    (ack : code ≠ TupleCommand.tsAck.code) (anon : code ≠ TupleCommand.tsAnon.code) :
    tsOutResponse ts block chunks (sendUint32Frame env.host code more :: later) =
      if code = TupleCommand.tsEnf.code ∧ block = true then .ok (none, ⟨later, more, chunks⟩)
      else if code = TupleCommand.tsTerm.code then
        .ok (some { rt := -1, name := none, anonId := none, data := none }, ⟨later, more, chunks⟩)
      else .ok (some { rt := 1, name := none, anonId := none, data := none }, ⟨later, more, chunks⟩) := by
  simp only [tsOutResponse, sendUint32Frame, recv_send_uint32, bind, Except.bind, ack, anon, if_false, pure, Except.pure]

theorem hear_response (ts : Ts) (call : Call) (chunks : List Chunk) (frames : List Frame) (asked : call.query ≠ none) :
    call.hear ts chunks frames = tsOutResponse ts call.blocks chunks frames := by
  cases call with
  | tsOutQuery takesIt blocking name => rfl
  | tsOutFetch takesIt blocking => rfl
  | _ => exact absurd rfl asked

theorem word_frames (env : Platform) (isLocal : Bool) (ticket : Nat) (word : UInt32) :
    (framesOn isLocal [sendUint32 env isLocal ticket word false]).map Sent.frame = [sendUint32Frame env.host word false] := by
  rw [sendUint32, frames_on_here]
  rfl

theorem enf_waits (env : Platform) (ts : Ts) (call : Call) (isLocal : Bool) (ticket : Nat) (chunks : List Chunk) (later : List Frame)
    (asked : call.query ≠ none) (blocks : call.blocks = true) :
    call.hear ts chunks ((Reply.enf.frames env isLocal ticket).map Sent.frame ++ later) = .ok (none, ⟨later, false, chunks⟩) := by
  rw [hear_response ts call chunks _ asked, reply_frames env isLocal ticket .enf _ rfl, word_frames]
  exact (hear_word env ts call.blocks chunks TupleCommand.tsEnf.code false later (by decide) (by decide)).trans
    (by rw [if_pos ⟨rfl, blocks⟩])

theorem enf_returns (env : Platform) (ts : Ts) (call : Call) (ticket : Nat) (asked : call.query ≠ none) (returns : call.blocks = false) :
    call.heard env ts ticket .enf = .ok (some { rt := 1, name := none, anonId := none, data := none }, ⟨[], false, []⟩) := by
  rw [Call.heard, hear_response ts call _ _ asked, reply_frames env ts.isLocal ticket .enf _ rfl,
    reply_chunks env ts.isLocal ticket .enf _ rfl,
    word_frames]
  have word := hear_word env ts call.blocks [] TupleCommand.tsEnf.code false [] (by decide) (by decide)
  rwa [if_neg (by simp [returns]), if_neg (by decide)] at word

theorem term_returns (env : Platform) (ts : Ts) (call : Call) (ticket : Nat) (asked : call.query ≠ none) :
    call.heard env ts ticket .term = .ok (some { rt := -1, name := none, anonId := none, data := none }, ⟨[], false, []⟩) := by
  rw [Call.heard, hear_response ts call _ _ asked, reply_frames env ts.isLocal ticket .term _ rfl,
    reply_chunks env ts.isLocal ticket .term _ rfl, word_frames]
  have word := hear_word env ts call.blocks [] TupleCommand.tsTerm.code false [] (by decide) (by decide)
  have other : ¬ (TupleCommand.tsTerm.code = TupleCommand.tsEnf.code ∧ call.blocks = true) := fun both => absurd both.1 (by decide)
  rwa [if_neg other, if_pos rfl] at word

theorem mode_returns (env : Platform) (ts : Ts) (mode : UInt32) (ticket : Nat) (word : UInt32) :
    (Call.tsOpen mode).heard env ts ticket (.mode word none) =
      .ok (some { rt := if ts.isLocal ∧ word ≠ tsModeMaster then 1 else 0, name := none, anonId := none, data := none },
        ⟨[], false, []⟩) := by
  rw [Call.heard, reply_frames env ts.isLocal ticket (.mode word none) _ rfl, reply_chunks env ts.isLocal ticket (.mode word none) _ rfl,
    word_frames]
  have read := recv_uint32_frame env.host ts.host word false false [] []
  simp only [Call.hear, tsOpenReply, bind, Except.bind, pure, Except.pure]
  rw [show recvUint32 ts.host ⟨[sendUint32Frame env.host word false], false, chunksIn [sendUint32 env ts.isLocal ticket word false]⟩ =
    .ok (word, ⟨[], false, []⟩) from read]

theorem out_data_remote (ts : Ts) (host : HostOrder) (name : Option Bytes) (anonId : Option UInt32) (data : Bytes) (rcvmore : Bool)
    (chunks : List Chunk) (remote : ts.isLocal = false) (some_ : data ≠ []) (bounded : data.length < 2 ^ 63) :
    tsOutData ts name anonId
        ⟨[sendUint64Frame host (UInt64.ofNat data.length) true, ⟨data, false⟩], rcvmore, chunks⟩ =
      .ok ({ rt := 0, name := name, anonId := anonId, data := some data }, ⟨[], false, chunks⟩) := by
  have exact := payload_len ⟨data, some_, bounded⟩
  have nonzero := payload_len_nonzero ⟨data, some_, bounded⟩
  dsimp only at exact nonzero
  simp only [tsOutData, remote, Bool.false_eq_true, if_false, recv_uint64_frame, nonzero, recv_data_frame data _ exact, bind, Except.bind,
    pure, Except.pure]

theorem out_data_local (ts : Ts) (name : Option Bytes) (anonId : Option UInt32) (data : Bytes) (chunks : List Chunk)
    (here : ts.isLocal = true) (some_ : data ≠ []) (bounded : data.length < 2 ^ 63) (sent : sendItem data = .ok chunks) :
    tsOutData ts name anonId ⟨[], false, chunks⟩ =
      .ok ({ rt := 0, name := name, anonId := anonId, data := some data }, ⟨[], false, []⟩) := by
  obtain ⟨others, same, received⟩ := recv_send_item data some_ bounded
  cases sent.symm.trans same
  simp only [tsOutData, here, if_true, recvItemPipe, received, bind, Except.bind, pure, Except.pure]

theorem found_outs (env : Platform) (isLocal : Bool) (ticket : Nat) (tuple : SngTuple) (outs : List Out)
    (built : handleNamedQueueReadResponse env isLocal ticket tuple = .ok outs) :
    ∃ chars, tuple.name = .str chars ∧ (framesOn isLocal outs).map Sent.frame =
        sendUint32Frame env.host TupleCommand.tsAck.code true :: ⟨(p2pmSendStr env.host chars).1, true⟩ ::
          ⟨(p2pmSendStr env.host chars).2, !isLocal⟩ ::
          (if isLocal then [] else [sendUint64Frame env.host (UInt64.ofNat tuple.data.length) true, ⟨tuple.data, false⟩]) ∧
      if isLocal then sendItem tuple.data = .ok (chunksIn outs) else chunksIn outs = [] := by
  cases isLocal with
  | false =>
      obtain ⟨chars, named, same⟩ := remote_tuple_outs env false ticket tuple TupleCommand.tsAck.code outs built
      rw [same]
      exact ⟨chars, named, rfl, rfl⟩
  | true =>
      obtain ⟨chars, chunks, named, sent, same⟩ := local_tuple_outs env true ticket tuple TupleCommand.tsAck.code false outs built
      refine ⟨chars, named, ?_, ?_⟩
      · rw [same, frames_on_append, frames_on_chunks]
        rfl
      · rw [if_pos rfl, sent, same]
        simp [chunksIn, sendUint32, List.filterMap_map]

theorem found_heard (env : Platform) (ts : Ts) (call : Call) (ticket : Nat) (tuple : SngTuple) (outs : List Out)
    (asked : call.query ≠ none) (sized : tuple.Sized) (built : handleNamedQueueReadResponse env ts.isLocal ticket tuple = .ok outs) :
    ∃ chars, tuple.name = .str chars ∧ call.hear ts (chunksIn outs) ((framesOn ts.isLocal outs).map Sent.frame) =
      p2pmRecvStr (UInt32.ofNat (chars.length + 1)) (chars ++ [0]) >>= fun name =>
        .ok (some { rt := 0, name := some name, anonId := none, data := some tuple.data }, ⟨[], false, []⟩) := by
  obtain ⟨chars, named, frames, chunks⟩ := found_outs env ts.isLocal ticket tuple outs built
  refine ⟨chars, named, ?_⟩
  rw [hear_response ts call _ _ asked, frames]
  have announced := fun more later rest => recv_uint32_frame env.host ts.host (UInt32.ofNat (chars.length + 1)) true true
    (⟨chars ++ [0], more⟩ :: later) rest
  simp only [sendUint32Frame] at announced
  simp only [tsOutResponse, sendUint32Frame, recv_send_uint32, recvStr, p2pmSendStr, announced, zmqRecv, bind, Except.bind, if_true]
  cases p2pmRecvStr (UInt32.ofNat (chars.length + 1)) (chars ++ [0]) with
  | error stop => rfl
  | ok name =>
      dsimp only [pure, Except.pure]
      cases side : ts.isLocal with
      | true =>
          simp only [side, if_true] at chunks ⊢
          rw [show tsOutData ts (some name) none ⟨[], !true, chunksIn outs⟩ = _ from
            out_data_local ts (some name) none tuple.data (chunksIn outs) side sized.nonempty sized.bounded chunks]
      | false =>
          simp only [side, Bool.false_eq_true, if_false] at chunks ⊢
          rw [chunks, show tsOutData ts (some name) none _ = _ from
            out_data_remote ts env.host (some name) none tuple.data (!false) [] side sized.nonempty sized.bounded]

theorem fetched_heard (env : Platform) (ts : Ts) (call : Call) (ticket : Nat) (tuple : SngTuple) (outs : List Out)
    (remote : ts.isLocal = false)
    (asked : call.query ≠ none) (sized : tuple.Sized) (built : handleNamedQueueFetchResponse env ts.isLocal ticket tuple = .ok outs) :
    (tuple.name = .null ∧ call.hear ts (chunksIn outs) ((framesOn ts.isLocal outs).map Sent.frame) =
        .ok (some { rt := 0, name := none, anonId := some tuple.anonId, data := some tuple.data }, ⟨[], false, []⟩)) ∨
      ∃ chars, tuple.name = .str chars ∧ call.hear ts (chunksIn outs) ((framesOn ts.isLocal outs).map Sent.frame) =
        p2pmRecvStr (UInt32.ofNat (chars.length + 1)) (chars ++ [0]) >>= fun name =>
          .ok (some { rt := 0, name := some name, anonId := none, data := some tuple.data }, ⟨[], false, []⟩) := by
  by_cases anonymous : tuple.name = .null ∧ tuple.anonId ≠ 0
  · refine Or.inl ⟨anonymous.1, ?_⟩
    rw [handleNamedQueueFetchResponse, if_pos anonymous, remote] at built
    cases built
    have other : ¬ TupleCommand.tsAnon.code = TupleCommand.tsAck.code := by decide
    have id := recv_uint32_frame env.host ts.host tuple.anonId true true
      [sendUint64Frame env.host (UInt64.ofNat tuple.data.length) true, ⟨tuple.data, false⟩] []
    have data := out_data_remote ts env.host none (some tuple.anonId) tuple.data true [] remote sized.nonempty sized.bounded
    rw [hear_response ts call _ _ asked, remote]
    change tsOutResponse ts call.blocks [] [sendUint32Frame env.host TupleCommand.tsAnon.code true,
      sendUint32Frame env.host tuple.anonId true, sendUint64Frame env.host (UInt64.ofNat tuple.data.length) true, ⟨tuple.data, false⟩] = _
    simp only [sendUint32Frame] at id
    simp only [tsOutResponse, sendUint32Frame, recv_send_uint32, other, id, data, bind, Except.bind, if_false, if_true, pure, Except.pure]
  · right
    have same : handleNamedQueueReadResponse env ts.isLocal ticket tuple = .ok outs := by
      rw [handleNamedQueueFetchResponse, if_neg anonymous, remote] at built
      rw [remote]
      exact built
    exact found_heard env ts call ticket tuple outs asked sized same

theorem unbuilt_blocks (env : Platform) (ts : Ts) (call : Call) (ticket : Nat) (reply : Reply) (stop : Stop) (asked : call.query ≠ none)
    (unbuilt : reply.outs env ts.isLocal ticket = .error stop) : call.heard env ts ticket reply = .error .blocked := by
  rw [Call.heard, Reply.frames, Reply.chunks, unbuilt]
  exact hear_response ts call [] [] asked

-- With an answer that settles it a call is over: it has read all of it, and returns 1 only where the daemon had nothing for it or
-- a local ts_open gets another mode.
theorem settles_heard (env : Platform) (ts : Ts) (call : Call) (ticket : Nat) (nothing : Prop) (reply : Reply) (out : Option TsOut)
    (input : Input) (settles : reply.Settles nothing ts.isLocal call) (heard : call.heard env ts ticket reply = .ok (out, input)) :
    input.frames = [] ∧ input.chunks = [] ∧ ∃ read, out = some read ∧ (read.rt = 1 → nothing ∨ ts.isLocal = true) := by
  have zero : ¬ (0 : Int) = 1 := by decide
  have name : ∀ (chars data : Bytes), call.heard env ts ticket reply =
      p2pmRecvStr (UInt32.ofNat (chars.length + 1)) (chars ++ [0]) >>= (fun name =>
        .ok (some { rt := 0, name := some name, anonId := none, data := some data }, ⟨[], false, []⟩)) →
      input.frames = [] ∧ input.chunks = [] ∧ ∃ read, out = some read ∧ (read.rt = 1 → nothing ∨ ts.isLocal = true) := by
    intro chars data same
    obtain ⟨name, _, read⟩ := bind_ok _ _ _ (same.symm.trans heard)
    cases read
    exact ⟨rfl, rfl, _, rfl, fun one => absurd one zero⟩
  cases settles with
  | enf asked returns missed =>
      cases (enf_returns env ts call ticket asked returns).symm.trans heard
      exact ⟨rfl, rfl, _, rfl, fun _ => Or.inl missed⟩
  | term asked =>
      cases (term_returns env ts call ticket asked).symm.trans heard
      exact ⟨rfl, rfl, _, rfl, fun one => absurd (show (-1 : Int) = 1 from one) (by decide)⟩
  | mode mode word opens =>
      subst opens
      cases (mode_returns env ts mode ticket word).symm.trans heard
      refine ⟨rfl, rfl, _, rfl, fun one => Or.inr ?_⟩
      by_contra remote
      rw [if_neg fun both => remote both.1] at one
      exact zero one
  | found tuple asked sized =>
      cases built : handleNamedQueueReadResponse env ts.isLocal ticket tuple with
      | error stop => cases (unbuilt_blocks env ts call ticket (.found tuple) stop asked built).symm.trans heard
      | ok outs =>
          obtain ⟨chars, _, same⟩ := found_heard env ts call ticket tuple outs asked sized built
          rw [← reply_frames env ts.isLocal ticket (.found tuple) outs built,
            ← reply_chunks env ts.isLocal ticket (.found tuple) outs built] at same
          exact name chars tuple.data same
  | fetched tuple asked sized remote =>
      cases built : handleNamedQueueFetchResponse env ts.isLocal ticket tuple with
      | error stop => cases (unbuilt_blocks env ts call ticket (.fetched tuple) stop asked built).symm.trans heard
      | ok outs =>
          have read := fetched_heard env ts call ticket tuple outs remote asked sized built
          rw [← reply_frames env ts.isLocal ticket (.fetched tuple) outs built,
            ← reply_chunks env ts.isLocal ticket (.fetched tuple) outs built] at read
          cases read with
          | inl anonymous =>
              cases anonymous.2.symm.trans heard
              exact ⟨rfl, rfl, _, rfl, fun one => absurd one zero⟩
          | inr named =>
              obtain ⟨chars, _, same⟩ := named
              exact name chars tuple.data same

end Synergy
