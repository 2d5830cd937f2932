import Synergy.Receiving
import Synergy.Daemon
import Synergy.Lib.Multipart

set_option autoImplicit false

namespace Synergy

-- The word, the long and the string that stand at a place of a message.
def wordAt (host : HostOrder) (message : List Frame) (place : Nat) : Option UInt32 :=
  message[place]?.bind fun frame => (p2pmRecvUint32 host frame.bytes).toOption

def longAt (host : HostOrder) (message : List Frame) (place : Nat) : Option UInt64 :=
  message[place]?.bind fun frame => (p2pmRecvUint64 host frame.bytes).toOption

def strAt (host : HostOrder) (message : List Frame) (place : Nat) : Option Bytes :=
  (wordAt host message place).bind fun announced =>
    message[place + 1]?.bind fun frame => (p2pmRecvStr announced frame.bytes).toOption

-- The space a message names, whose name comes third.
def spaceAt (self : Tsd) (message : List Frame) (bufLen : UInt32) : Option TsdElement :=
  message[2]?.bind fun frame => self.spaceTable (cstr ((frame.bytes.take 50).take (bufLen.toNat - 1)))

-- How many frames a handler receives behind the command, which comes fourth.
def argumentFrames (host : HostOrder) (action : TupleCommand) (isLocal : Bool) (message : List Frame) : Nat :=
  match action with
  | .tsExpect | .tsGetBlocking | .tsReadBlocking | .tsRead | .tsGet | .tsBCastRead | .tsBCastReadBlocking => 2
  | .tsConnect => 1
  | .tsPut => if isLocal then 2 else if longAt host message 6 = some 0 then 3 else 4
  | .tsAdd => if isLocal ∨ wordAt host message 4 = some 0 then 1 else 3
  | .tsBCastWrite => if isLocal then 2 else 3
  | .tsTransmit => if longAt host message 6 = some 0 then 3 else 4
  | .tsRequest | .tsTake => 4
  | _ => 0

-- The modes that ts_connect_handler answers with TS_MODE_ERR and a return code of 1.
def modeRefused (tsMode : TsMode) (mode : UInt32) : Bool :=
  match tsMode with
  | .master => false
  | .worker => mode ≠ tsModeMaster ∧ mode ≠ tsModeClient
  | .p2p => mode ≠ tsModeP2P

def bcastMissing (env : Platform) (space : TsdElement) (name : Bytes) : Bool :=
  match zlistxFind (fun tuple => tplcmp env tuple { name := .str name, anonId := 0, data := [], origin := 0 }) space.bcastQueue with
  | .ok none => true
  | _ => false

-- The messages whose handler returns 1, the only code on which _SAFE_RETURN drops the rest.
def drops (env : Platform) (space : TsdElement) (action : TupleCommand) (isLocal : Bool) (message : List Frame) : Bool :=
  match action with
  | .tsPut => !isLocal && longAt env.host message 6 = some 0
  | .tsAdd => wordAt env.host message 4 = some 0 ||
      (!isLocal && space.tsMode = .p2p && message[6]?.map (fun frame => frame.bytes.length) = some 1)
  | .tsTransmit => longAt env.host message 6 = some 0 || (strAt env.host message 4).bind List.head? ≠ some 'A'.toUInt8
  | .tsConnect => (wordAt env.host message 4).any (modeRefused space.tsMode)
  | .tsBCastRead | .tsBCastReadBlocking => (strAt env.host message 4).any (bcastMissing env space)
  | _ => false

-- How many frames handler receives of a message that names a space, and whether it drops what is behind them.
def spaceTakes (env : Platform) (space : TsdElement) (isLocal : Bool) (message : List Frame) : Nat × Bool :=
  match wordAt env.host message 3 with
  | none => (4, true)
  | some code =>
      if code ≠ TupleCommand.tsConnect.code ∧ !space.isActivated then (4, true)
      else
        match TupleCommand.ofCode code with
        | none => (4, false)
        | some action => (4 + argumentFrames env.host action isLocal message, drops env space action isLocal message)

def handlerTakes (env : Platform) (self : Tsd) (isLocal : Bool) (message : List Frame) : Nat × Bool :=
  match wordAt env.host message 1 with
  | none => (2, true)
  | some bufLen =>
      if bufLen = 0 ∨ bufLen > 50 then (2, true)
      else
        match spaceAt self message bufLen with
        | none => (3, true)
        | some space => spaceTakes env space isLocal message

-- A message has the frames that handler receives of it, and more only where handler drops the rest.
def Framed (env : Platform) (self : Tsd) (isLocal : Bool) (message : List Frame) : Prop :=
  let takes := handlerTakes env self isLocal message
  if takes.2 then takes.1 ≤ message.length else takes.1 = message.length

instance (env : Platform) (self : Tsd) (isLocal : Bool) (message : List Frame) : Decidable (Framed env self isLocal message) :=
  inferInstanceAs (Decidable (if (handlerTakes env self isLocal message).2 then (handlerTakes env self isLocal message).1 ≤ message.length
    else (handlerTakes env self isLocal message).1 = message.length))

-- That many frames have been received.
structure Behind (frames : List Frame) (count : Nat) (input : Input) : Prop where
  left : input.frames = frames.drop count
  within : count ≤ frames.length
  rcvmore : ∀ place frame, count = place + 1 → frames[place]? = some frame → input.rcvmore = frame.more

theorem recv_behind (frames : List Frame) (count : Nat) (input next : Input) (bytes : Bytes) (behind : Behind frames count input)
    (received : zmqRecv input = .ok (bytes, next)) :
    Behind frames (count + 1) next ∧ ∃ frame, frames[count]? = some frame ∧ frame.bytes = bytes := by
  unfold zmqRecv at received
  split at received
  · cases received
  · rename_i frame later waiting
    cases received
    have rest := behind.left.symm.trans waiting
    have short : count < frames.length := by
      by_contra beyond
      rw [List.drop_eq_nil_of_le (by omega)] at rest
      cases rest
    rw [List.drop_eq_getElem_cons short, List.cons.injEq] at rest
    have here : frames[count]? = some frame := by rw [List.getElem?_eq_getElem short, rest.1]
    refine ⟨⟨rest.2.symm, short, ?_⟩, frame, here, rfl⟩
    intro place other same there
    cases Nat.succ.inj same
    rw [here] at there
    rw [Option.some.inj there]

theorem word_behind (host : HostOrder) (frames : List Frame) (count : Nat) (input next : Input) (word : UInt32)
    (behind : Behind frames count input) (received : recvUint32 host input = .ok (word, next)) :
    Behind frames (count + 1) next ∧ wordAt host frames count = some word := by
  obtain ⟨⟨bytes, rest⟩, taken, received⟩ := bind_ok _ _ _ received
  obtain ⟨read, is, received⟩ := bind_ok _ _ _ received
  cases received
  obtain ⟨after, frame, here, same⟩ := recv_behind frames count input next bytes behind taken
  have read : p2pmRecvUint32 host bytes = .ok word := is
  refine ⟨after, ?_⟩
  rw [wordAt, here, Option.bind_some, same, read]
  rfl

theorem long_behind (host : HostOrder) (frames : List Frame) (count : Nat) (input next : Input) (long : UInt64)
    (behind : Behind frames count input) (received : recvUint64 host input = .ok (long, next)) :
    Behind frames (count + 1) next ∧ longAt host frames count = some long := by
  obtain ⟨⟨bytes, rest⟩, taken, received⟩ := bind_ok _ _ _ received
  obtain ⟨read, is, received⟩ := bind_ok _ _ _ received
  cases received
  obtain ⟨after, frame, here, same⟩ := recv_behind frames count input next bytes behind taken
  have read : p2pmRecvUint64 host bytes = .ok long := is
  refine ⟨after, ?_⟩
  rw [longAt, here, Option.bind_some, same, read]
  rfl

theorem str_behind (host : HostOrder) (frames : List Frame) (count : Nat) (input next : Input) (str : Bytes)
    (behind : Behind frames count input) (received : recvStr host input = .ok (str, next)) :
    Behind frames (count + 2) next ∧ strAt host frames count = some str := by
  obtain ⟨⟨announced, middle⟩, word, received⟩ := bind_ok _ _ _ received
  obtain ⟨⟨bytes, rest⟩, taken, received⟩ := bind_ok _ _ _ received
  obtain ⟨read, is, received⟩ := bind_ok _ _ _ received
  cases received
  obtain ⟨first, said⟩ := word_behind host frames count input middle announced behind word
  obtain ⟨after, frame, here, same⟩ := recv_behind frames (count + 1) middle next bytes first taken
  have read : p2pmRecvStr announced bytes = .ok str := is
  refine ⟨after, ?_⟩
  rw [strAt, said, Option.bind_some, here, Option.bind_some, same, read]
  rfl

theorem data_behind (frames : List Frame) (count size : Nat) (input next : Input) (len : UInt64) (data : Bytes)
    (behind : Behind frames count input) (received : recvData len input = .ok (data, size, next)) :
    Behind frames (count + 1) next ∧ frames[count]?.map (fun frame => frame.bytes.length) = some size := by
  obtain ⟨⟨bytes, rest⟩, taken, received⟩ := bind_ok _ _ _ received
  obtain ⟨after, frame, here, same⟩ := recv_behind frames count input rest bytes behind taken
  dsimp only at received
  split at received
  · cases received
  · cases received
    exact ⟨after, by rw [here, Option.map_some, same]⟩

theorem item_behind (frames : List Frame) (count : Nat) (input next : Input) (item : Bytes) (behind : Behind frames count input)
    (received : recvItemPipe input = .ok (item, next)) : Behind frames count next := by
  obtain ⟨⟨data, chunks⟩, _, received⟩ := bind_ok _ _ _ received
  cases received
  exact ⟨behind.left, behind.within, behind.rcvmore⟩

theorem put_returns (env : Platform) (self : Tsd) (args : HandlerArg) (space : TsdElement) (name data : Bytes) (acted : Acted)
    (done : putTuple env self args space name data = .ok acted) : acted.rt ≠ some 1 := by
  unfold putTuple at done
  dsimp only at done
  split at done
  · cases done
    simp
  · obtain ⟨matched, _, done⟩ := bind_ok _ _ _ done
    cases done
    simp

theorem fetch_returns (env : Platform) (args : HandlerArg) (space : TsdElement) (acted : Acted)
    (done : fetchTuple env args space = .ok acted) : acted.rt ≠ some 1 := by
  obtain ⟨clientid, _, done⟩ := bind_ok _ _ _ done
  split at done
  · cases done
    simp
  · obtain ⟨reply, _, done⟩ := bind_ok _ _ _ done
    cases done
    simp

-- named_queue_read_handler returns 1 only on a space that is not active, to which handler does not dispatch it.
theorem read_returns (env : Platform) (args : HandlerArg) (space : TsdElement) (name : Bytes) (acted : Acted)
    (active : space.isActivated = true) (done : readTuple env args space name = .ok acted) : acted.rt ≠ some 1 := by
  obtain ⟨clientid, _, done⟩ := bind_ok _ _ _ done
  dsimp only at done
  have open_ : ¬ ((!args.isLocal) = true ∧ (!space.isActivated) = true) := by simp [active]
  rw [if_neg open_] at done
  obtain ⟨handle, _, done⟩ := bind_ok _ _ _ done
  split at done
  · cases done
    simp
  · obtain ⟨order, _, done⟩ := bind_ok _ _ _ done
    split at done
    · cases done
    · obtain ⟨reply, _, done⟩ := bind_ok _ _ _ done
      cases done
      simp

theorem bcast_read_returns (env : Platform) (args : HandlerArg) (space : TsdElement) (name : Bytes) (acted : Acted)
    (active : space.isActivated = true) (done : bcastReadTuple env args space name = .ok acted) :
    acted.rt = some 1 ↔ bcastMissing env space name = true := by
  obtain ⟨clientid, _, done⟩ := bind_ok _ _ _ done
  dsimp only at done
  have open_ : ¬ (!space.isActivated) = true := by simp [active]
  rw [if_neg open_] at done
  obtain ⟨handle, search, done⟩ := bind_ok _ _ _ done
  simp only [bcastMissing, search]
  cases handle with
  | none =>
      cases done
      simp
  | some found =>
      obtain ⟨before, tuple, after, split, position, _, _⟩ := zlistx_find_some _ _ _ search
      have there : space.bcastQueue[found]? = some tuple := by simp [split, ← position]
      simp only [Option.bind_some, there] at done
      obtain ⟨reply, _, done⟩ := bind_ok _ _ _ done
      cases done
      simp

theorem connect_returns (env : Platform) (self : Tsd) (args : HandlerArg) (space : TsdElement) (mode : UInt32) (acted : Acted)
    (done : connectMode env self args space mode = .ok acted) : acted.rt = some 1 ↔ modeRefused space.tsMode mode = true := by
  obtain ⟨clientid, _, done⟩ := bind_ok _ _ _ done
  cases shape : space.tsMode with
  | master =>
      simp only [shape] at done
      simp only [modeRefused, Bool.false_eq_true, iff_false]
      split at done
      · obtain ⟨direct, _, done⟩ := bind_ok _ _ _ done
        cases done
        simp
      · split at done
        · cases done
          simp
        · cases done
          simp
  | worker =>
      simp only [shape] at done
      simp only [modeRefused, decide_eq_true_eq]
      split at done
      · rename_i refused
        cases done
        simp [refused]
      · rename_i accepted
        split at done
        · obtain ⟨direct, _, done⟩ := bind_ok _ _ _ done
          obtain ⟨endpoint, _, done⟩ := bind_ok _ _ _ done
          cases done
          simpa using accepted
        · cases done
          simpa using accepted
  | p2p =>
      simp only [shape] at done
      simp only [modeRefused, decide_eq_true_eq]
      split at done
      · rename_i refused
        cases done
        simp [refused]
      · rename_i accepted
        cases done
        simpa using accepted

theorem answer_returns (env : Platform) (args : HandlerArg) (space : TsdElement) (endpoint identity : Bytes) (acted : Acted)
    (done : answerPeer env args space endpoint identity = .ok acted) : acted.rt ≠ some 1 := by
  unfold answerPeer at done
  split at done
  · cases done
    simp
  · dsimp only at done
    split at done
    · cases done
    · obtain ⟨handle, _, done⟩ := bind_ok _ _ _ done
      split at done
      · cases done
        simp
      · cases done
        simp

theorem accept_returns (env : Platform) (self : Tsd) (args : HandlerArg) (space : TsdElement) (identity data : Bytes) (acted : Acted)
    (done : acceptTuple env self args space identity data = .ok acted) :
    acted.rt = some 1 ↔ identity.head? ≠ some 'A'.toUInt8 := by
  unfold acceptTuple at done
  split at done
  · cases done
  · split at done
    · rename_i anon
      obtain ⟨matched, _, done⟩ := bind_ok _ _ _ done
      cases done
      simp [anon]
    · rename_i other
      cases done
      simp [other]

-- What a handler has received behind the command, and when it returns 1.
structure Handles (env : Platform) (args : HandlerArg) (space : TsdElement) (frames : List Frame) (acted : Acted) (middle : Input) :
    Prop where
  behind : Behind frames (4 + argumentFrames env.host args.action args.isLocal frames) middle
  code : acted.rt = some 1 ↔ drops env space args.action args.isLocal frames = true

theorem sized_behind (env : Platform) (frames : List Frame) (count : Nat) (input next : Input) (arguments : List Argument)
    (behind : Behind frames count input) (received : receiveSized env input = .ok (arguments, next)) :
    (longAt env.host frames count = some 0 ∧ arguments = [.long 0] ∧ Behind frames (count + 1) next) ∨
      ∃ len bytes size, longAt env.host frames count = some len ∧ len ≠ 0 ∧ arguments = [.long len, .data bytes size] ∧
        Behind frames (count + 2) next := by
  obtain ⟨⟨len, middle⟩, long, received⟩ := bind_ok _ _ _ received
  obtain ⟨first, said⟩ := long_behind env.host frames count input middle len behind long
  dsimp only at received
  split at received
  · rename_i zero
    cases received
    exact Or.inl ⟨by rw [said, zero], by rw [zero], first⟩
  · rename_i some_
    obtain ⟨⟨bytes, size, rest⟩, data, received⟩ := bind_ok _ _ _ received
    cases received
    exact Or.inr ⟨len, bytes, size, said, some_, rfl, (data_behind frames (count + 1) size middle rest len bytes first data).1⟩

theorem handles_put (env : Platform) (self : Tsd) (args : HandlerArg) (space : TsdElement) (frames : List Frame) (acted : Acted)
    (input middle : Input) (arguments : List Argument) (put : args.action = .tsPut) (behind : Behind frames 4 input)
    (received : receiveArguments env .tsPut args.isLocal input = .ok (arguments, middle))
    (acts : act env self args space arguments = .ok acted) : Handles env args space frames acted middle := by
  obtain ⟨⟨name, named⟩, str, received⟩ := bind_ok _ _ _ received
  obtain ⟨first, _⟩ := str_behind env.host frames 4 input named name behind str
  cases near : args.isLocal with
  | true =>
      simp only [near, if_true] at received
      obtain ⟨⟨bytes, rest⟩, item, received⟩ := bind_ok _ _ _ received
      cases received
      simp only [act, put, if_true] at acts
      have code := put_returns env self args space name bytes acted acts
      refine ⟨?_, ?_⟩
      · simpa [put, near, argumentFrames] using item_behind frames 6 named rest bytes first item
      · simp [put, near, drops, code]
  | false =>
      simp only [near, Bool.false_eq_true, if_false] at received
      obtain ⟨⟨sized, rest⟩, size, received⟩ := bind_ok _ _ _ received
      cases received
      rcases sized_behind env frames 6 named rest sized first size with
        ⟨zero, same, after⟩ | ⟨len, bytes, length, said, some_, same, after⟩
      · subst same
        simp only [act, put, reduceCtorEq, if_false] at acts
        cases acts
        refine ⟨?_, ?_⟩
        · simpa [put, near, argumentFrames, zero] using after
        · simp [put, near, drops, zero]
      · subst same
        simp only [act, put, if_true] at acts
        have code := put_returns env self args space name bytes acted acts
        refine ⟨?_, ?_⟩
        · simpa [put, near, argumentFrames, said, some_] using after
        · simp [put, near, drops, said, some_, code]

theorem handles_transmit (env : Platform) (self : Tsd) (args : HandlerArg) (space : TsdElement) (frames : List Frame) (acted : Acted)
    (input middle : Input) (arguments : List Argument) (transmit : args.action = .tsTransmit) (behind : Behind frames 4 input)
    (received : receiveArguments env .tsTransmit args.isLocal input = .ok (arguments, middle))
    (acts : act env self args space arguments = .ok acted) : Handles env args space frames acted middle := by
  cases near : args.isLocal with
  | true =>
      simp only [near, receiveArguments, if_true] at received
      cases received
  | false =>
      rw [near] at received
      obtain ⟨⟨identity, named⟩, str, received⟩ := bind_ok _ _ _ received
      obtain ⟨first, told⟩ := str_behind env.host frames 4 input named identity behind str
      obtain ⟨⟨sized, rest⟩, size, received⟩ := bind_ok _ _ _ received
      cases received
      rcases sized_behind env frames 6 named middle sized first size with
        ⟨zero, same, after⟩ | ⟨len, bytes, length, said, some_, same, after⟩
      · subst same
        simp only [act, transmit, reduceCtorEq, if_false] at acts
        cases acts
        refine ⟨?_, ?_⟩
        · simpa [transmit, argumentFrames, zero] using after
        · simp [transmit, drops, zero]
      · subst same
        simp only [act, transmit, reduceCtorEq, if_false] at acts
        have code := accept_returns env self args space identity bytes acted acts
        refine ⟨?_, ?_⟩
        · simpa [transmit, argumentFrames, said, some_] using after
        · simp [transmit, drops, said, some_, told, code]

theorem handles_add (env : Platform) (self : Tsd) (args : HandlerArg) (space : TsdElement) (frames : List Frame) (acted : Acted)
    (input middle : Input) (arguments : List Argument) (add : args.action = .tsAdd) (behind : Behind frames 4 input)
    (received : receiveArguments env .tsAdd args.isLocal input = .ok (arguments, middle))
    (acts : act env self args space arguments = .ok acted) : Handles env args space frames acted middle := by
  obtain ⟨⟨anonId, numbered⟩, word, received⟩ := bind_ok _ _ _ received
  obtain ⟨first, said⟩ := word_behind env.host frames 4 input numbered anonId behind word
  dsimp only at received
  split at received
  · rename_i zero
    cases received
    simp only [act, add, reduceCtorEq, if_false] at acts
    cases acts
    refine ⟨?_, ?_⟩
    · simpa [add, argumentFrames, said, zero] using first
    · simp [add, drops, said, zero]
  · rename_i some_
    cases near : args.isLocal with
    | true =>
        simp only [near, if_true] at received
        obtain ⟨⟨bytes, rest⟩, item, received⟩ := bind_ok _ _ _ received
        cases received
        have code := add_returns env self args space anonId bytes 0 acted add acts
        refine ⟨?_, ?_⟩
        · simpa [add, near, argumentFrames] using item_behind frames 5 numbered rest bytes first item
        · simp [add, near, drops, said, some_, code]
    | false =>
        simp only [near, Bool.false_eq_true, if_false] at received
        obtain ⟨⟨len, sized⟩, long, received⟩ := bind_ok _ _ _ received
        obtain ⟨second, _⟩ := long_behind env.host frames 5 numbered sized len first long
        obtain ⟨⟨bytes, size, rest⟩, data, received⟩ := bind_ok _ _ _ received
        cases received
        obtain ⟨third, filled⟩ := data_behind frames 6 size sized rest len bytes second data
        have code := add_returns env self args space anonId bytes size acted add acts
        refine ⟨?_, ?_⟩
        · simpa [add, near, argumentFrames, said, some_] using third
        · simp [add, near, drops, said, some_, filled, code]

theorem handles_bcast_write (env : Platform) (self : Tsd) (args : HandlerArg) (space : TsdElement) (frames : List Frame) (acted : Acted)
    (input middle : Input) (arguments : List Argument) (write : args.action = .tsBCastWrite) (behind : Behind frames 4 input)
    (received : receiveArguments env .tsBCastWrite args.isLocal input = .ok (arguments, middle))
    (acts : act env self args space arguments = .ok acted) : Handles env args space frames acted middle := by
  obtain ⟨⟨name, named⟩, str, received⟩ := bind_ok _ _ _ received
  obtain ⟨first, _⟩ := str_behind env.host frames 4 input named name behind str
  cases near : args.isLocal with
  | true =>
      simp only [near, if_true] at received
      obtain ⟨⟨bytes, rest⟩, item, received⟩ := bind_ok _ _ _ received
      cases received
      simp only [act, write, reduceCtorEq, if_false] at acts
  | false =>
      simp only [near, Bool.false_eq_true, if_false] at received
      obtain ⟨⟨len, sized⟩, long, received⟩ := bind_ok _ _ _ received
      obtain ⟨second, _⟩ := long_behind env.host frames 6 named sized len first long
      dsimp only at received
      split at received
      · cases received
        simp only [act, write, if_true] at acts
        cases acts
        refine ⟨?_, ?_⟩
        · simpa [write, near, argumentFrames] using second
        · simp [write, drops]
      · obtain ⟨taken, _, received⟩ := bind_ok _ _ _ received
        cases received

theorem handles_client (env : Platform) (self : Tsd) (args : HandlerArg) (space : TsdElement) (frames : List Frame) (acted : Acted)
    (input middle : Input) (arguments : List Argument) (client : args.action = .tsRequest ∨ args.action = .tsTake)
    (behind : Behind frames 4 input) (received : receiveArguments env .tsTake args.isLocal input = .ok (arguments, middle))
    (acts : act env self args space arguments = .ok acted) : Handles env args space frames acted middle := by
  obtain ⟨⟨endpoint, rest⟩, str, received⟩ := bind_ok _ _ _ received
  obtain ⟨first, _⟩ := str_behind env.host frames 4 input rest endpoint behind str
  obtain ⟨⟨identity, left⟩, str, received⟩ := bind_ok _ _ _ received
  obtain ⟨second, _⟩ := str_behind env.host frames 6 rest left identity first str
  cases received
  have code := answer_returns env args space endpoint identity acted acts
  rcases client with request | take
  · exact ⟨by simpa [request, argumentFrames] using second, by simp [request, drops, code]⟩
  · exact ⟨by simpa [take, argumentFrames] using second, by simp [take, drops, code]⟩

theorem safe_return_input (acted left : Acted) (middle next : Input) (done : safeReturn acted middle = .ok (left, next)) :
    acted = left ∧ (if acted.rt = some 1 then tsFail middle else .ok middle) = .ok next := by
  by_cases fails : acted.rt = some 1
  · rw [safeReturn, if_pos fails] at done
    obtain ⟨input, drained, done⟩ := bind_ok _ _ _ done
    cases done
    exact ⟨rfl, by rw [if_pos fails, drained]⟩
  · rw [safeReturn, if_neg fails] at done
    cases done
    exact ⟨rfl, by rw [if_neg fails]⟩

theorem dispatch_handles (env : Platform) (self : Tsd) (args : HandlerArg) (space : TsdElement) (frames : List Frame) (acted : Acted)
    (input next : Input) (behind : Behind frames 4 input) (active : args.action = .tsConnect ∨ space.isActivated = true)
    (done : dispatch env self args space input = .ok (acted, next)) :
    ∃ middle, Handles env args space frames acted middle ∧ (if acted.rt = some 1 then tsFail middle else .ok middle) = .ok next := by
  rw [dispatch_receives] at done
  obtain ⟨⟨arguments, middle⟩, received, done⟩ := bind_ok _ _ _ done
  obtain ⟨result, acts, done⟩ := bind_ok _ _ _ done
  obtain ⟨same, drained⟩ := safe_return_input result acted middle next done
  subst same
  refine ⟨middle, ?_, drained⟩
  cases action : args.action with
  | tsPut => exact handles_put env self args space frames result input middle arguments action behind (action ▸ received) acts
  | tsAdd => exact handles_add env self args space frames result input middle arguments action behind (action ▸ received) acts
  | tsTransmit => exact handles_transmit env self args space frames result input middle arguments action behind (action ▸ received) acts
  | tsBCastWrite =>
      exact handles_bcast_write env self args space frames result input middle arguments action behind (action ▸ received) acts
  | tsRequest =>
      rw [action] at received
      exact handles_client env self args space frames result input middle arguments (Or.inl action) behind received acts
  | tsTake =>
      rw [action] at received
      exact handles_client env self args space frames result input middle arguments (Or.inr action) behind received acts
  | tsConnect =>
      rw [action] at received
      obtain ⟨⟨mode, rest⟩, word, received⟩ := bind_ok _ _ _ received
      cases received
      obtain ⟨first, said⟩ := word_behind env.host frames 4 input middle mode behind word
      simp only [act, action, if_true] at acts
      have code := connect_returns env self args space mode result acts
      exact ⟨by simpa [action, argumentFrames] using first, by simp [action, drops, said, code]⟩
  | tsExpect =>
      rw [action] at received
      obtain ⟨⟨name, rest⟩, str, received⟩ := bind_ok _ _ _ received
      cases received
      obtain ⟨first, _⟩ := str_behind env.host frames 4 input middle name behind str
      simp only [act, action] at acts
      cases acts
      exact ⟨by simpa [action, argumentFrames] using first, by simp [action, drops]⟩
  | tsBCastRead | tsBCastReadBlocking =>
      rw [action] at received
      obtain ⟨⟨name, rest⟩, str, received⟩ := bind_ok _ _ _ received
      cases received
      obtain ⟨first, said⟩ := str_behind env.host frames 4 input middle name behind str
      simp only [act, action] at acts
      have code := bcast_read_returns env args space name result (by simpa [action] using active) acts
      exact ⟨by simpa [action, argumentFrames] using first, by simp [action, drops, said, code]⟩
  | tsGetBlocking | tsReadBlocking | tsRead | tsGet =>
      rw [action] at received
      obtain ⟨⟨name, rest⟩, str, received⟩ := bind_ok _ _ _ received
      cases received
      obtain ⟨first, _⟩ := str_behind env.host frames 4 input middle name behind str
      simp only [act, action] at acts
      have code := read_returns env args space name result (by simpa [action] using active) acts
      exact ⟨by simpa [action, argumentFrames] using first, by simp [action, drops, code]⟩
  | tsPeek | tsPop | tsPopBlocking | tsPeekBlocking =>
      rw [action] at received
      cases received
      simp only [act, action] at acts
      have code := fetch_returns env args space result acts
      exact ⟨by simpa [action, argumentFrames] using behind, by simp [action, drops, code]⟩
  | tsTerm =>
      rw [action] at received
      cases received
      simp only [act, action] at acts
      obtain ⟨cleared, _, acts⟩ := bind_ok _ _ _ acts
      cases acts
      exact ⟨by simpa [action, argumentFrames] using behind, by simp [action, drops]⟩
  | tsNone | tsEnf | tsAck | tsAnon | tsDeposit | tsMigrate | tsReplicate =>
      rw [action] at received
      cases received
      simp only [act, action] at acts
      cases acts
      exact ⟨by simpa [action, argumentFrames] using behind, by simp [action, drops]⟩

theorem second_error_input (env : Platform) (self : Tsd) (isLocal : Bool) (ticket : Nat) (clientid : Bytes) (input : Input)
    (handled : Handled) (done : handleSecondError env self isLocal ticket clientid input = .ok handled) :
    tsFail input = .ok handled.input := by
  obtain ⟨drained, fails, done⟩ := bind_ok _ _ _ done
  cases done
  exact fails

theorem handler_behind (env : Platform) (self : Tsd) (isLocal : Bool) (ticket : Nat) (input : Input) (handled : Handled)
    (done : handler env self isLocal ticket input = .ok handled) :
    ∃ middle, Behind input.frames (handlerTakes env self isLocal input.frames).1 middle ∧
      (if (handlerTakes env self isLocal input.frames).2 = true then tsFail middle else .ok middle) = .ok handled.input := by
  have nothing : Behind input.frames 0 input := ⟨rfl, Nat.zero_le _, fun place frame same => by cases same⟩
  obtain ⟨⟨frame, one⟩, identity, done⟩ := bind_ok _ _ _ done
  obtain ⟨first, _⟩ := recv_behind input.frames 0 input one frame nothing identity
  obtain ⟨clientid, _, done⟩ := bind_ok _ _ _ done
  obtain ⟨⟨bufLen, two⟩, word, done⟩ := bind_ok _ _ _ done
  obtain ⟨second, len⟩ := word_behind env.host input.frames 1 one two bufLen first word
  dsimp only at done
  unfold handlerTakes
  rw [len]
  split at done
  · rename_i bad
    simp only [if_pos bad]
    exact ⟨two, second, second_error_input env self isLocal ticket clientid two handled done⟩
  · rename_i good
    simp only [if_neg good]
    obtain ⟨⟨name, three⟩, taken, done⟩ := bind_ok _ _ _ done
    obtain ⟨third, part, there, same⟩ := recv_behind input.frames 2 two three name second taken
    have named : spaceAt self input.frames bufLen = self.spaceTable (cstr ((name.take 50).take (bufLen.toNat - 1))) := by
      rw [spaceAt, there, Option.bind_some, same]
    rw [named]
    cases known : self.spaceTable (cstr ((name.take 50).take (bufLen.toNat - 1))) with
    | none =>
        simp only [known] at done
        exact ⟨three, third, second_error_input env self isLocal ticket clientid three handled done⟩
    | some space =>
        simp only [known] at done
        obtain ⟨⟨code, four⟩, command, done⟩ := bind_ok _ _ _ done
        obtain ⟨fourth, asked⟩ := word_behind env.host input.frames 3 three four code third command
        simp only [spaceTakes, asked]
        dsimp only at done
        split at done
        · rename_i closed
          simp only [if_pos closed]
          exact ⟨four, fourth, second_error_input env self isLocal ticket clientid four handled done⟩
        · rename_i open_
          simp only [if_neg open_]
          cases decoded : TupleCommand.ofCode code with
          | none =>
              simp only [decoded] at done
              cases done
              exact ⟨four, fourth, rfl⟩
          | some action =>
              simp only [decoded] at done
              obtain ⟨⟨acted, left⟩, dispatched, done⟩ := bind_ok _ _ _ done
              cases done
              have active : action = .tsConnect ∨ space.isActivated = true := by
                by_cases connects : code = TupleCommand.tsConnect.code
                · rw [connects, of_code_code] at decoded
                  exact Or.inl (Option.some.inj decoded).symm
                · right
                  by_contra inactive
                  exact open_ ⟨connects, by simpa using inactive⟩
              obtain ⟨middle, handles, drained⟩ := dispatch_handles env self
                { clientid := .str clientid, action := action, isLocal := isLocal, ticket := ticket } space input.frames acted four
                left fourth active dispatched
              refine ⟨middle, handles.behind, ?_⟩
              simpa only [handles.code] using drained

theorem word_within (host : HostOrder) (message later : List Frame) (place : Nat) (within : place < message.length) :
    wordAt host (message ++ later) place = wordAt host message place := by
  rw [wordAt, wordAt, List.getElem?_append_left within]

theorem long_within (host : HostOrder) (message later : List Frame) (place : Nat) (within : place < message.length) :
    longAt host (message ++ later) place = longAt host message place := by
  rw [longAt, longAt, List.getElem?_append_left within]

theorem str_within (host : HostOrder) (message later : List Frame) (place : Nat) (within : place + 1 < message.length) :
    strAt host (message ++ later) place = strAt host message place := by
  rw [strAt, strAt, word_within host message later place (by omega), List.getElem?_append_left within]

theorem arguments_within (env : Platform) (space : TsdElement) (action : TupleCommand) (isLocal : Bool) (message later : List Frame)
    (within : 4 + argumentFrames env.host action isLocal (message ++ later) ≤ message.length ∨
      4 + argumentFrames env.host action isLocal message ≤ message.length) :
    argumentFrames env.host action isLocal (message ++ later) = argumentFrames env.host action isLocal message ∧
      drops env space action isLocal (message ++ later) = drops env space action isLocal message := by
  cases action with
  | tsPut =>
      cases isLocal with
      | true => exact ⟨rfl, rfl⟩
      | false =>
          have here : 6 < message.length := by
            simp only [argumentFrames, Bool.false_eq_true, if_false] at within
            rcases within with whole | own
            · split at whole <;> omega
            · split at own <;> omega
          have same := long_within env.host message later 6 here
          exact ⟨by rw [argumentFrames, argumentFrames, same], by rw [drops, drops, same]⟩
  | tsAdd =>
      have here : 4 < message.length := by
        simp only [argumentFrames] at within
        rcases within with whole | own
        · split at whole <;> omega
        · split at own <;> omega
      have same := word_within env.host message later 4 here
      have frames : argumentFrames env.host .tsAdd isLocal (message ++ later) = argumentFrames env.host .tsAdd isLocal message := by
        rw [argumentFrames, argumentFrames, same]
      refine ⟨frames, ?_⟩
      rw [drops, drops, same]
      by_cases short : isLocal = true ∨ wordAt env.host message 4 = some 0
      · rcases short with near | zero
        · simp [near]
        · simp [zero]
      · rw [frames, or_self, argumentFrames, if_neg short] at within
        rw [List.getElem?_append_left (by omega)]
  | tsTransmit =>
      have here : 6 < message.length := by
        simp only [argumentFrames] at within
        rcases within with whole | own
        · split at whole <;> omega
        · split at own <;> omega
      have same := long_within env.host message later 6 here
      have identity := str_within env.host message later 4 (by omega)
      exact ⟨by rw [argumentFrames, argumentFrames, same], by rw [drops, drops, same, identity]⟩
  | tsConnect =>
      have here : 4 < message.length := by
        simp only [argumentFrames, or_self] at within
        omega
      exact ⟨rfl, by rw [drops, drops, word_within env.host message later 4 here]⟩
  | tsBCastRead | tsBCastReadBlocking =>
      have here : 4 + 1 < message.length := by
        simp only [argumentFrames, or_self] at within
        omega
      exact ⟨rfl, by rw [drops, drops, str_within env.host message later 4 here]⟩
  | _ => exact ⟨rfl, rfl⟩

theorem space_takes_four (env : Platform) (space : TsdElement) (isLocal : Bool) (message : List Frame) :
    4 ≤ (spaceTakes env space isLocal message).1 := by
  unfold spaceTakes
  split
  · exact Nat.le_refl 4
  · split
    · exact Nat.le_refl 4
    · split
      · exact Nat.le_refl 4
      · exact Nat.le_add_right 4 _

theorem space_takes_within (env : Platform) (space : TsdElement) (isLocal : Bool) (message later : List Frame)
    (within : (spaceTakes env space isLocal (message ++ later)).1 ≤ message.length ∨
      (spaceTakes env space isLocal message).1 ≤ message.length) :
    spaceTakes env space isLocal (message ++ later) = spaceTakes env space isLocal message := by
  have whole := space_takes_four env space isLocal (message ++ later)
  have own := space_takes_four env space isLocal message
  have same := word_within env.host message later 3 (by omega)
  clear whole own
  unfold spaceTakes at within ⊢
  rw [same] at within ⊢
  split
  · rfl
  · rename_i code asked
    simp only [asked] at within
    split
    · rfl
    · rename_i open_
      simp only [if_neg open_] at within
      split
      · rfl
      · rename_i action decoded
        simp only [decoded] at within
        obtain ⟨frames, dropped⟩ := arguments_within env space action isLocal message later within
        rw [frames, dropped]

theorem handler_takes_two (env : Platform) (self : Tsd) (isLocal : Bool) (message : List Frame) :
    2 ≤ (handlerTakes env self isLocal message).1 := by
  unfold handlerTakes
  split
  · exact Nat.le_refl 2
  · split
    · exact Nat.le_refl 2
    · split
      · exact Nat.le_succ 2
      · exact Nat.le_trans (by decide) (space_takes_four env _ isLocal message)

theorem handler_takes_three (env : Platform) (self : Tsd) (isLocal : Bool) (message : List Frame) (bufLen : UInt32)
    (len : wordAt env.host message 1 = some bufLen) (good : ¬ (bufLen = 0 ∨ bufLen > 50)) :
    3 ≤ (handlerTakes env self isLocal message).1 := by
  simp only [handlerTakes, len, if_neg good]
  split
  · exact Nat.le_refl 3
  · exact Nat.le_trans (by decide) (space_takes_four env _ isLocal message)

theorem takes_within (env : Platform) (self : Tsd) (isLocal : Bool) (message later : List Frame)
    (within : (handlerTakes env self isLocal (message ++ later)).1 ≤ message.length ∨
      (handlerTakes env self isLocal message).1 ≤ message.length) :
    handlerTakes env self isLocal (message ++ later) = handlerTakes env self isLocal message := by
  have two := handler_takes_two env self isLocal
  have same : wordAt env.host (message ++ later) 1 = wordAt env.host message 1 := by
    apply word_within
    rcases within with whole | own
    · exact Nat.le_trans (two _) whole
    · exact Nat.le_trans (two _) own
  cases len : wordAt env.host message 1 with
  | none => simp only [handlerTakes, same, len]
  | some bufLen =>
      by_cases bad : bufLen = 0 ∨ bufLen > 50
      · simp only [handlerTakes, same, len, if_pos bad]
      · have three := fun frames said => handler_takes_three env self isLocal frames bufLen said bad
        have named : spaceAt self (message ++ later) bufLen = spaceAt self message bufLen := by
          rw [spaceAt, spaceAt, List.getElem?_append_left]
          rcases within with whole | own
          · exact Nat.le_trans (three _ (same.trans len)) whole
          · exact Nat.le_trans (three _ len) own
        simp only [handlerTakes, same, len, if_neg bad, named] at within ⊢
        cases known : spaceAt self message bufLen with
        | none => rfl
        | some space =>
            simp only [known] at within
            exact space_takes_within env space isLocal message later within

theorem drain_shorter (frames left : List Frame) (more : Bool) (drained : drainFrames frames more = .ok left) :
    left.length ≤ frames.length := by
  induction frames generalizing more with
  | nil =>
      cases more with
      | false =>
          cases drained
          exact Nat.le_refl _
      | true => cases drained
  | cons frame later ih =>
      cases more with
      | false =>
          cases drained
          exact Nat.le_refl _
      | true => exact Nat.le_succ_of_le (ih frame.more drained)

theorem drain_rest (front later : List Frame) (last : Frame) (announce : ∀ frame ∈ front, frame.more = true) (ends : last.more = false) :
    drainFrames (front ++ last :: later) true = .ok later := by
  induction front with
  | nil =>
      rw [List.nil_append, drainFrames, ends]
      cases later with
      | nil => rfl
      | cons frame later => rfl
  | cons frame front ih =>
      rw [List.cons_append, drainFrames, announce frame (by simp)]
      exact ih fun other member => announce other (by simp [member])

theorem drain_within (message later : List Frame) (count : Nat) (middle : Input) (some_ : 0 < count) (within : count ≤ message.length)
    (whole : Multipart.Message Frame.more message) (behind : Behind (message ++ later) count middle) :
    drainFrames middle.frames middle.rcvmore = .ok later := by
  obtain ⟨front, last, rfl, announce, ends⟩ := whole
  obtain ⟨place, next⟩ : ∃ place, count = place + 1 := ⟨count - 1, by omega⟩
  rw [List.length_append, List.length_singleton] at within
  rw [behind.left]
  rcases Nat.lt_or_eq_of_le within with early | all
  · have inner : place < front.length := by omega
    have there : (front ++ [last] ++ later)[place]? = some front[place] := by
      rw [List.append_assoc, List.getElem?_append_left inner, List.getElem?_eq_getElem inner]
    rw [behind.rcvmore place _ next there, announce _ (List.getElem_mem inner), List.append_assoc,
      List.drop_append_of_le_length (by omega)]
    exact drain_rest (front.drop count) later last (fun frame member => announce frame (List.mem_of_mem_drop member)) ends
  · have final : place = front.length := by omega
    have there : (front ++ [last] ++ later)[place]? = some last := by
      rw [final, List.append_assoc, List.getElem?_append_right (Nat.le_refl _), Nat.sub_self]
      rfl
    have gone : (front ++ [last] ++ later).drop count = later := by
      rw [all, ← List.length_singleton, ← List.length_append, List.drop_left]
    rw [behind.rcvmore place last next there, ends, gone]
    cases later with
    | nil => rfl
    | cons frame later => rfl

theorem drain_message (message later : List Frame) (count : Nat) (middle next : Input) (some_ : 0 < count)
    (whole : Multipart.Message Frame.more message) (behind : Behind (message ++ later) count middle)
    (drained : tsFail middle = .ok next) : next.frames = later ↔ count ≤ message.length := by
  obtain ⟨left, rest, drained⟩ := bind_ok _ _ _ drained
  cases drained
  constructor
  · intro same
    have shorter := drain_shorter middle.frames left middle.rcvmore rest
    have same : left = later := same
    have within := behind.within
    rw [behind.left, List.length_drop, List.length_append, same] at shorter
    rw [List.length_append] at within
    omega
  · intro within
    exact Except.ok.inj (rest.symm.trans (drain_within message later count middle some_ within whole behind))

theorem left_message (message later : List Frame) (count : Nat) (middle : Input) (behind : Behind (message ++ later) count middle) :
    middle.frames = later ↔ count = message.length := by
  rw [behind.left]
  constructor
  · intro same
    have size := congrArg List.length same
    have within := behind.within
    rw [List.length_append] at within
    rw [List.length_drop, List.length_append] at size
    omega
  · intro all
    rw [all, List.drop_left]

theorem handler_keeps_boundaries (env : Platform) (self : Tsd) (isLocal : Bool) (ticket : Nat) (message later : List Frame)
    (rcvmore : Bool) (chunks : List Chunk) (handled : Handled) (whole : Multipart.Message Frame.more message)
    (done : handler env self isLocal ticket ⟨message ++ later, rcvmore, chunks⟩ = .ok handled) :
    handled.input.frames = later ↔ Framed env self isLocal message := by
  obtain ⟨middle, behind, left⟩ := handler_behind env self isLocal ticket _ handled done
  dsimp only at behind left
  have some_ : ∀ frames, 0 < (handlerTakes env self isLocal frames).1 := fun frames =>
    Nat.lt_of_lt_of_le (by decide) (handler_takes_two env self isLocal frames)
  have kept : handled.input.frames = later ↔
      let takes := handlerTakes env self isLocal (message ++ later)
      if takes.2 then takes.1 ≤ message.length else takes.1 = message.length := by
    dsimp only
    split at left
    · rename_i dropped
      rw [if_pos dropped]
      exact drain_message message later _ middle handled.input (some_ _) whole behind left
    · rename_i rest
      cases left
      rw [if_neg rest]
      exact left_message message later _ handled.input behind
  rw [kept]
  have reach : ∀ takes : Nat × Bool, (if takes.2 then takes.1 ≤ message.length else takes.1 = message.length) →
      takes.1 ≤ message.length := by
    intro takes fits
    split at fits
    · exact fits
    · exact Nat.le_of_eq fits
  constructor
  · intro fits
    rw [takes_within env self isLocal message later (Or.inl (reach _ fits))] at fits
    exact fits
  · intro fits
    rw [takes_within env self isLocal message later (Or.inr (reach _ fits))]
    exact fits

-- A ROUTER socket of a daemon. due is ghost: the messages that no call of handler has been for.
structure RouterSocket where
  self : Tsd
  waiting : List Frame
  rcvmore : Bool
  due : List (List Frame)

def RouterSocket.start (node : Tsd) : RouterSocket := { self := node, waiting := [], rcvmore := false, due := [] }

-- A message arrives whole, handler is called for the next one, or the daemon has done something else by then.
inductive RouterEvent where
  | arrives (message : List Frame)
  | serves (ticket : Nat) (chunks : List Chunk)
  | moves (node : Tsd)

def RouterEvent.Whole : RouterEvent → Prop
  | .arrives message => Multipart.Message Frame.more message
  | _ => True

def RouterSocket.step (env : Platform) (isLocal : Bool) (socket : RouterSocket) : RouterEvent → Option RouterSocket
  | .arrives message => some { socket with waiting := socket.waiting ++ message, due := socket.due ++ [message] }
  | .serves ticket chunks =>
      match socket.due, handler env socket.self isLocal ticket ⟨socket.waiting, socket.rcvmore, chunks⟩ with
      | _ :: later, .ok handled =>
          some { self := handled.self, waiting := handled.input.frames, rcvmore := handled.input.rcvmore, due := later }
      | _, _ => none
  | .moves node => some { socket with self := node }

-- What waits is the messages still due, so that the next call starts with the identity frame of the first of them.
def RouterSocket.Aligned (socket : RouterSocket) : Prop := socket.waiting = socket.due.flatten

-- The message that handler is called for is framed in the state the daemon is in.
def RouterSocket.Fits (env : Platform) (isLocal : Bool) (socket : RouterSocket) : RouterEvent → Prop
  | .serves _ _ => ∀ message ∈ socket.due.head?, Framed env socket.self isLocal message
  | _ => True

theorem router_due_whole (env : Platform) (isLocal : Bool) (socket next : RouterSocket) (event : RouterEvent) (whole : event.Whole)
    (due : ∀ message ∈ socket.due, Multipart.Message Frame.more message) (taken : socket.step env isLocal event = some next) :
    ∀ message ∈ next.due, Multipart.Message Frame.more message := by
  cases event with
  | arrives message =>
      cases taken
      intro other member
      rcases List.mem_append.mp member with before | last
      · exact due other before
      · rw [List.mem_singleton.mp last]
        exact whole
  | serves ticket chunks =>
      simp only [RouterSocket.step] at taken
      split at taken
      · rename_i first later handled waits done
        cases taken
        exact fun other member => due other (waits ▸ List.mem_cons_of_mem first member)
      · cases taken
  | moves node =>
      cases taken
      exact due

theorem router_step_aligned (env : Platform) (isLocal : Bool) (socket next : RouterSocket) (event : RouterEvent)
    (due : ∀ message ∈ socket.due, Multipart.Message Frame.more message) (aligned : socket.Aligned)
    (taken : socket.step env isLocal event = some next) : next.Aligned ↔ socket.Fits env isLocal event := by
  cases event with
  | arrives message =>
      cases taken
      refine ⟨fun _ => trivial, fun _ => ?_⟩
      simp only [RouterSocket.Aligned, List.flatten_append, List.flatten_singleton]
      rw [aligned]
  | serves ticket chunks =>
      simp only [RouterSocket.step] at taken
      split at taken
      · rename_i message later handled waits done
        cases taken
        have waiting : socket.waiting = message ++ later.flatten := by rw [aligned, waits, List.flatten_cons]
        rw [waiting] at done
        have whole := due message (waits ▸ List.mem_cons_self)
        have kept := handler_keeps_boundaries env socket.self isLocal ticket message later.flatten socket.rcvmore chunks handled whole done
        simp only [RouterSocket.Aligned, RouterSocket.Fits, waits, List.head?_cons, Option.mem_some_iff, forall_eq']
        exact kept
      · cases taken
  | moves node =>
      cases taken
      exact ⟨fun _ => trivial, fun _ => aligned⟩

-- Every call of handler starts at a message exactly as long as every message served is framed.
theorem calls_keep_boundaries (env : Platform) (self : Tsd) (isLocal : Bool) (events : List RouterEvent)
    (whole : ∀ event ∈ events, event.Whole) :
    Runs.Throughout (RouterSocket.step env isLocal) RouterSocket.Aligned (RouterSocket.start self) events ↔
      Runs.Meets (RouterSocket.step env isLocal) (RouterSocket.Fits env isLocal) (RouterSocket.start self) events :=
  Runs.throughout_iff_meets (RouterSocket.step env isLocal) RouterEvent.Whole (RouterSocket.Fits env isLocal) RouterSocket.Aligned
    (fun socket => ∀ message ∈ socket.due, Multipart.Message Frame.more message)
    (fun socket event next fine due taken => router_due_whole env isLocal socket next event fine due taken)
    (fun socket event next _ due aligned taken => router_step_aligned env isLocal socket next event due aligned taken)
    (RouterSocket.start self) events whole (fun _ member => absurd member (List.not_mem_nil)) rfl

-- A request of a remote client for the space of sampleSpaces.
def sampleMessage (command : TupleCommand) (arguments : List Frame) : List Frame :=
  ⟨[67], true⟩ :: sendUint32Frame .big 2 true :: ⟨[115], true⟩ :: sendUint32Frame .big command.code (!arguments.isEmpty) :: arguments

-- A TsPut of one byte under the name a.
def samplePut : List Frame :=
  sampleMessage .tsPut [sendUint32Frame .big 2 true, ⟨[97, 0], true⟩, sendUint64Frame .big 1 true, ⟨[7], false⟩]

theorem sample_put_whole : Multipart.Message Frame.more samplePut :=
  ⟨samplePut.dropLast, ⟨[7], false⟩, rfl, by decide, rfl⟩

theorem calls_keep_boundaries_put :
    Runs.Throughout (RouterSocket.step samplePlatform false) RouterSocket.Aligned (RouterSocket.start (tsdCreate [101] 1 sampleSpaces))
      [.arrives samplePut, .serves 0 [], .arrives samplePut, .serves 1 []] := by
  refine (calls_keep_boundaries samplePlatform (tsdCreate [101] 1 sampleSpaces) false _ ?_).mpr ?_
  · intro event member
    simp only [List.mem_cons, List.not_mem_nil, or_false] at member
    rcases member with rfl | rfl | rfl | rfl
    · exact sample_put_whole
    · trivial
    · exact sample_put_whole
    · trivial
  · intro socket taken
    cases taken
    refine ⟨trivial, fun served taken => ⟨fun message member => ?_, ?_⟩⟩
    · cases member
      decide
    cases taken
    refine fun again taken => ⟨trivial, fun last _ => ⟨fun message member => ?_, trivial⟩⟩
    cases taken
    cases member
    decide

-- A TsDeposit with an argument: the next call of handler takes the argument for the identity of a client.
theorem deposit_left_behind : ¬ ∀ (env : Platform) (endpoint : Bytes) (replicationFactor : UInt32) (spaces : List SngNamespace)
    (isLocal : Bool) (ticket : Nat) (message later : List Frame) (rcvmore : Bool) (chunks : List Chunk) (handled : Handled),
    Multipart.Message Frame.more message →
      handler env (tsdCreate endpoint replicationFactor spaces) isLocal ticket ⟨message ++ later, rcvmore, chunks⟩ = .ok handled →
        handled.input.frames = later := by
  intro claim
  have left := claim samplePlatform [101] 1 sampleSpaces false 0 (sampleMessage .tsDeposit [⟨[1], false⟩]) [] false [] _
    ⟨(sampleMessage .tsDeposit [⟨[1], false⟩]).dropLast, ⟨[1], false⟩, rfl, by decide, rfl⟩ rfl
  cases left

end Synergy
