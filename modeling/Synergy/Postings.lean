import Synergy.Matching
import Synergy.Lib.Multipart

set_option autoImplicit false

namespace Synergy

-- A frame the daemon has sent on one of its sockets, and the request it answers.
structure Sent where
  ticket : Nat
  bytes : Bytes
  more : Bool

def Out.sentOn (isLocal : Bool) : Out → Option Sent
  | .frame side ticket bytes more => if side = isLocal then some ⟨ticket, bytes, more⟩ else none
  | _ => none

-- The frames sent on local_socket, or on server_socket.
def framesOn (isLocal : Bool) (sent : List Out) : List Sent := sent.filterMap (Out.sentOn isLocal)

@[simp] theorem frames_on_nil (isLocal : Bool) : framesOn isLocal [] = [] := rfl

@[simp] theorem frames_on_append (isLocal : Bool) (first second : List Out) :
    framesOn isLocal (first ++ second) = framesOn isLocal first ++ framesOn isLocal second := List.filterMap_append

@[simp] theorem frames_on_here (isLocal : Bool) (ticket : Nat) (bytes : Bytes) (more : Bool) (later : List Out) :
    framesOn isLocal (.frame isLocal ticket bytes more :: later) = ⟨ticket, bytes, more⟩ :: framesOn isLocal later := by
  simp [framesOn, Out.sentOn]

@[simp] theorem frames_on_elsewhere (isLocal : Bool) (ticket : Nat) (bytes : Bytes) (more : Bool) (later : List Out) :
    framesOn (!isLocal) (.frame isLocal ticket bytes more :: later) = framesOn (!isLocal) later := by
  simp [framesOn, Out.sentOn]

@[simp] theorem frames_on_token (isLocal : Bool) (token : GenericToken) (later : List Out) :
    framesOn isLocal (.token token :: later) = framesOn isLocal later := rfl

@[simp] theorem frames_on_chunks (isLocal : Bool) (ticket : Nat) (chunks : List Chunk) :
    framesOn isLocal (chunks.map (Out.chunk ticket)) = [] := by
  simp [framesOn, Out.sentOn]

-- What follows the identity: on this socket the rest of one message, on the other one nothing.
structure Body (isLocal : Bool) (ticket : Nat) (outs : List Out) : Prop where
  here : Multipart.Message Sent.more (framesOn isLocal outs)
  ours : ∀ frame ∈ framesOn isLocal outs, frame.ticket = ticket
  elsewhere : framesOn (!isLocal) outs = []

theorem body_frames (isLocal : Bool) (ticket : Nat) (front : List Bytes) (last : Bytes) (chunks : List Chunk) :
    Body isLocal ticket (front.map (fun bytes => .frame isLocal ticket bytes true) ++
      .frame isLocal ticket last false :: chunks.map (Out.chunk ticket)) := by
  have here : framesOn isLocal (front.map fun bytes => .frame isLocal ticket bytes true) = front.map fun bytes => ⟨ticket, bytes, true⟩ := by
    simp [framesOn, Out.sentOn, List.filterMap_map, Function.comp_def]
  have elsewhere : framesOn (!isLocal) (front.map fun bytes => .frame isLocal ticket bytes true) = [] := by
    simp [framesOn, Out.sentOn]
  refine ⟨⟨front.map fun bytes => ⟨ticket, bytes, true⟩, ⟨ticket, last, false⟩, ?_, by simp, rfl⟩, ?_, ?_⟩
  · rw [frames_on_append, here, frames_on_here, frames_on_chunks]
  · rw [frames_on_append, here, frames_on_here, frames_on_chunks]
    intro frame member
    rcases List.mem_append.mp member with early | final
    · obtain ⟨bytes, _, same⟩ := List.mem_map.mp early
      rw [← same]
    · rw [List.mem_singleton.mp final]
  · rw [frames_on_append, elsewhere, frames_on_elsewhere, frames_on_chunks, List.nil_append]

theorem send_str_frames (env : Platform) (isLocal : Bool) (ticket : Nat) (str : CString) (more : Bool) (frames : List Out)
    (sent : sendStr env isLocal ticket str more = .ok frames) :
    ∃ len body, frames = [.frame isLocal ticket len true, .frame isLocal ticket body more] := by
  obtain ⟨chars, _, sent⟩ := bind_ok _ _ _ sent
  cases sent
  exact ⟨_, _, rfl⟩

theorem send_item_chunks_out (ticket : Nat) (data : Bytes) (outs : List Out) (sent : sendItemOut ticket data = .ok outs) :
    ∃ chunks : List Chunk, outs = chunks.map (Out.chunk ticket) := by
  obtain ⟨chunks, _, sent⟩ := bind_ok _ _ _ sent
  cases sent
  exact ⟨chunks, rfl⟩

theorem chars_str (str : CString) (chars : Bytes) (is : str.chars = .ok chars) : str = .str chars := by
  cases str with
  | str other =>
      cases is
      rfl
  | null => cases is
  | freed => cases is

theorem local_tuple_outs (env : Platform) (isLocal : Bool) (ticket : Nat) (tuple : SngTuple) (word : UInt32) (more : Bool)
    (outs : List Out)
    (responded : (do
      let name ← sendStr env isLocal ticket tuple.name more
      let item ← sendItemOut ticket tuple.data
      return sendUint32 env isLocal ticket word true :: name ++ item) = .ok outs) :
    ∃ chars chunks, tuple.name = .str chars ∧ sendItem tuple.data = .ok chunks ∧
      outs = [sendUint32 env isLocal ticket word true, .frame isLocal ticket (p2pmSendStr env.host chars).1 true,
        .frame isLocal ticket (p2pmSendStr env.host chars).2 more] ++ chunks.map (Out.chunk ticket) := by
  obtain ⟨name, named, responded⟩ := bind_ok _ _ _ responded
  obtain ⟨chars, is, named⟩ := bind_ok _ _ _ named
  obtain ⟨item, passed, responded⟩ := bind_ok _ _ _ responded
  obtain ⟨chunks, sent, passed⟩ := bind_ok _ _ _ passed
  cases named
  cases passed
  cases responded
  exact ⟨chars, chunks, chars_str _ chars is, sent, rfl⟩

theorem remote_tuple_outs (env : Platform) (isLocal : Bool) (ticket : Nat) (tuple : SngTuple) (word : UInt32) (outs : List Out)
    (responded : (do
      let name ← sendStr env isLocal ticket tuple.name true
      return sendUint32 env isLocal ticket word true :: name ++ [sendUint64 env isLocal ticket (UInt64.ofNat tuple.data.length) true,
        .frame isLocal ticket tuple.data false]) = .ok outs) :
    ∃ chars, tuple.name = .str chars ∧
      outs = [sendUint32 env isLocal ticket word true, .frame isLocal ticket (p2pmSendStr env.host chars).1 true,
        .frame isLocal ticket (p2pmSendStr env.host chars).2 true, sendUint64 env isLocal ticket (UInt64.ofNat tuple.data.length) true,
        .frame isLocal ticket tuple.data false] := by
  obtain ⟨name, named, responded⟩ := bind_ok _ _ _ responded
  obtain ⟨chars, is, named⟩ := bind_ok _ _ _ named
  cases named
  cases responded
  exact ⟨chars, chars_str _ chars is, rfl⟩

theorem remote_tuple_body (env : Platform) (isLocal : Bool) (ticket : Nat) (tuple : SngTuple) (word : UInt32) (outs : List Out)
    (responded : (do
      let name ← sendStr env isLocal ticket tuple.name true
      return sendUint32 env isLocal ticket word true :: name ++ [sendUint64 env isLocal ticket (UInt64.ofNat tuple.data.length) true,
        .frame isLocal ticket tuple.data false]) = .ok outs) : Body isLocal ticket outs := by
  obtain ⟨chars, _, same⟩ := remote_tuple_outs env isLocal ticket tuple word outs responded
  rw [same]
  exact body_frames isLocal ticket [_, _, _, _] tuple.data []

theorem read_response_body (env : Platform) (isLocal : Bool) (ticket : Nat) (tuple : SngTuple) (outs : List Out)
    (responded : handleNamedQueueReadResponse env isLocal ticket tuple = .ok outs) : Body isLocal ticket outs := by
  cases isLocal with
  | true =>
      obtain ⟨chars, chunks, _, _, same⟩ := local_tuple_outs env true ticket tuple TupleCommand.tsAck.code false outs responded
      rw [same]
      exact body_frames true ticket [_, _] _ chunks
  | false => exact remote_tuple_body env false ticket tuple TupleCommand.tsAck.code outs responded

-- The last frame on the socket announces another one.
def LeftOpen (isLocal : Bool) (outs : List Out) : Prop := ∃ front last, framesOn isLocal outs = front ++ [last] ∧ last.more = true

theorem fetch_response_body (env : Platform) (isLocal : Bool) (ticket : Nat) (tuple : SngTuple) (outs : List Out)
    (responded : handleNamedQueueFetchResponse env isLocal ticket tuple = .ok outs) :
    if isLocal = true ∧ tuple.name ≠ .null then LeftOpen isLocal outs else Body isLocal ticket outs := by
  rw [handleNamedQueueFetchResponse] at responded
  by_cases anonymous : tuple.name = .null ∧ tuple.anonId ≠ 0
  · rw [if_pos anonymous] at responded
    rw [if_neg fun named => named.2 anonymous.1]
    cases isLocal with
    | true =>
        obtain ⟨item, passed, responded⟩ := bind_ok _ _ _ responded
        obtain ⟨chunks, same⟩ := send_item_chunks_out _ _ _ passed
        subst same
        cases responded
        exact body_frames true ticket [_] _ chunks
    | false =>
        cases responded
        exact body_frames false ticket [_, _, _] tuple.data []
  · rw [if_neg anonymous] at responded
    cases isLocal with
    | true =>
        obtain ⟨chars, chunks, named, _, same⟩ := local_tuple_outs env true ticket tuple TupleCommand.tsAck.code true outs responded
        have stored : tuple.name ≠ .null := by
          rw [named]
          simp
        rw [if_pos ⟨rfl, stored⟩, same]
        exact ⟨[⟨ticket, p2pmSendUint32 env.host TupleCommand.tsAck.code, true⟩, ⟨ticket, (p2pmSendStr env.host chars).1, true⟩],
          ⟨ticket, (p2pmSendStr env.host chars).2, true⟩, by simp [sendUint32], rfl⟩
    | false =>
        rw [if_neg (by simp)]
        exact remote_tuple_body env false ticket tuple TupleCommand.tsAck.code outs responded

-- What a client is told: there is nothing, the space is closed, the mode of the space and for another daemon's
-- space its endpoint, a tuple from one of the two builders.
inductive Reply where
  | enf
  | term
  | mode (word : UInt32) (endpoint : Option CString)
  | found (tuple : SngTuple)
  | fetched (tuple : SngTuple)

def Reply.outs (env : Platform) (isLocal : Bool) (ticket : Nat) : Reply → Except Stop (List Out)
  | .enf => .ok [sendUint32 env isLocal ticket TupleCommand.tsEnf.code false]
  | .term => .ok [sendUint32 env isLocal ticket TupleCommand.tsTerm.code false]
  | .mode word none => .ok [sendUint32 env isLocal ticket word false]
  | .mode word (some endpoint) => do
      let str ← sendStr env isLocal ticket endpoint false
      return sendUint32 env isLocal ticket word true :: str
  | .found tuple => handleNamedQueueReadResponse env isLocal ticket tuple
  | .fetched tuple => handleNamedQueueFetchResponse env isLocal ticket tuple

-- A message of the daemon: the client it goes to, the request it answers and the answer.
structure Posting where
  isLocal : Bool
  clientid : CString
  ticket : Nat
  reply : Reply

def Posting.outs (env : Platform) (posting : Posting) : Except Stop (List Out) := do
  let clientid ← sendClientid posting.isLocal posting.ticket posting.clientid
  let reply ← posting.reply.outs env posting.isLocal posting.ticket
  return clientid :: reply

def BlockingRequest.posting (request : BlockingRequest) (reply : Reply) : Posting :=
  ⟨request.isLocal, request.clientid, request.ticket, reply⟩

def HandlerArg.posting (args : HandlerArg) (reply : Reply) : Posting := ⟨args.isLocal, args.clientid, args.ticket, reply⟩

-- The chunks passed through tsd_ts_pipe.
def chunksIn (sent : List Out) : List Chunk :=
  sent.filterMap fun out =>
    match out with
    | .chunk _ chunk => some chunk
    | _ => none

@[simp] theorem chunks_in_append (first second : List Out) : chunksIn (first ++ second) = chunksIn first ++ chunksIn second :=
  List.filterMap_append

def Sends (env : Platform) (sent : List Out) (postings : List Posting) : Prop :=
  ∃ outs, postings.mapM (Posting.outs env) = .ok outs ∧ (∀ isLocal, framesOn isLocal sent = framesOn isLocal outs.flatten) ∧
    chunksIn sent = chunksIn outs.flatten

end Synergy
