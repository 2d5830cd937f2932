import Synergy.Tuple
import Synergy.Socket

set_option autoImplicit false

namespace Synergy

-- A name a caller can pass: the characters before a terminator.
structure Name where
  chars : Bytes
  clean : NulFree chars
deriving DecidableEq

-- A name that ts_open accepts (tsnamelen is at most 50).
structure SpaceName extends Name where
  short : chars.length < 50
deriving DecidableEq

-- data and len of a tuple that ts_in passes its assertions on. No C object has 2^63 bytes.
structure Payload where
  bytes : Bytes
  nonempty : bytes ≠ []
  bounded : bytes.length < 2 ^ 63
deriving DecidableEq

-- What the calls use of ts_t.
structure Ts where
  host : HostOrder
  isLocal : Bool
  tsname : SpaceName
deriving DecidableEq

-- A call that sends a request. The commands of ts_out are Get and Pop, which take the tuple, and Read and
-- Peek, which do not, each blocking or not; TsPop and TsPeek come without a name.
inductive Call where
  | tsOpen (mode : UInt32)
  | tsInPut (name : Name) (data : Payload)
  | tsInAdd (anonId : UInt32) (nonzero : anonId ≠ 0) (data : Payload)
  | tsOutQuery (takes blocking : Bool) (name : Name)
  | tsOutFetch (takes blocking : Bool)
  | tsBcastRead (blocking : Bool) (name : Name)
  | tsClose
deriving DecidableEq

-- ts_bcast_read sends the blocking command when it is not to block.
def Call.command : Call → TupleCommand
  | .tsOpen _ => .tsConnect
  | .tsInPut _ _ => .tsPut
  | .tsInAdd _ _ _ => .tsAdd
  | .tsOutQuery true false _ => .tsGet
  | .tsOutQuery true true _ => .tsGetBlocking
  | .tsOutQuery false false _ => .tsRead
  | .tsOutQuery false true _ => .tsReadBlocking
  | .tsOutFetch true false => .tsPop
  | .tsOutFetch true true => .tsPopBlocking
  | .tsOutFetch false false => .tsPeek
  | .tsOutFetch false true => .tsPeekBlocking
  | .tsBcastRead true _ => .tsBCastRead
  | .tsBcastRead false _ => .tsBCastReadBlocking
  | .tsClose => .tsTerm

def sendUint32Frame (host : HostOrder) (word : UInt32) (more : Bool) : Frame := ⟨p2pmSendUint32 host word, more⟩

def sendUint64Frame (host : HostOrder) (word : UInt64) (more : Bool) : Frame := ⟨p2pmSendUint64 host word, more⟩

def sendStrFrames (host : HostOrder) (str : Name) (more : Bool) : List Frame :=
  [⟨(p2pmSendStr host str.chars).1, true⟩, ⟨(p2pmSendStr host str.chars).2, more⟩]

def tsnamelen (ts : Ts) : UInt32 := UInt32.ofNat (ts.tsname.chars.length + 1)

def initRequest (ts : Ts) : List Frame := [sendUint32Frame ts.host (tsnamelen ts) true, ⟨ts.tsname.chars, true⟩]

-- A remote ts_in sends len and data behind the name or id.
def tsInData (ts : Ts) (data : Payload) : List Frame :=
  if ts.isLocal then []
  else [sendUint64Frame ts.host (UInt64.ofNat data.bytes.length) true, ⟨data.bytes, false⟩]

def Call.arguments (ts : Ts) : Call → List Frame
  | .tsOpen mode => [sendUint32Frame ts.host mode false]
  | .tsInPut name data => sendStrFrames ts.host name (!ts.isLocal) ++ tsInData ts data
  | .tsInAdd anonId _ data => sendUint32Frame ts.host anonId (!ts.isLocal) :: tsInData ts data
  | .tsOutQuery _ _ name => sendStrFrames ts.host name false
  | .tsOutFetch _ _ => []
  | .tsBcastRead _ name => sendStrFrames ts.host name false
  | .tsClose => []

def Call.commandIsLast : Call → Bool
  | .tsOutFetch _ _ => true
  | .tsClose => true
  | _ => false

-- The message of a call. ts_open sends the name of the space with its terminator, the others without.
def Call.frames (ts : Ts) (call : Call) : List Frame :=
  let request :=
    match call with
    | .tsOpen _ => [sendUint32Frame ts.host (tsnamelen ts) true, ⟨ts.tsname.chars ++ [0], true⟩]
    | _ => initRequest ts
  request ++ sendUint32Frame ts.host call.command.code (!call.commandIsLast) :: call.arguments ts

-- The chunks a local ts_in passes through ts_tsd_pipe after its message.
def Call.passes (ts : Ts) : Call → Except Stop (List Chunk)
  | .tsInPut _ data => if ts.isLocal then sendItem data.bytes else .ok []
  | .tsInAdd _ _ data => if ts.isLocal then sendItem data.bytes else .ok []
  | _ => .ok []

-- What ts_out leaves behind: its value and the fields of the tuple it has set.
structure TsOut where
  rt : Int
  name : Option Bytes
  anonId : Option UInt32
  data : Option Bytes
deriving DecidableEq

def tsOutData (ts : Ts) (name : Option Bytes) (anonId : Option UInt32) (input : Input) : Except Stop (TsOut × Input) := do
  if ts.isLocal then
    let (data, input) ← recvItemPipe input
    return ({ rt := 0, name := name, anonId := anonId, data := some data }, input)
  else
    let (len, input) ← recvUint64 ts.host input
    if len = 0 then return ({ rt := 1, name := name, anonId := anonId, data := none }, input)
    let (data, _, input) ← recvData len input
    return ({ rt := 0, name := name, anonId := anonId, data := some data }, input)

-- _handle_reply of ts_out, once for every response it goes back for.
def tsOutReply (ts : Ts) (block : Bool) (chunks : List Chunk) : List Frame → Except Stop (TsOut × Input)
  | [] => .error .blocked
  | frame :: later => do
      let input : Input := { frames := later, rcvmore := frame.more, chunks := chunks }
      let response ← p2pmRecvUint32 ts.host frame.bytes
      if response = TupleCommand.tsAck.code then
        let (name, input) ← recvStr ts.host input
        tsOutData ts (some name) none input
      else if response = TupleCommand.tsAnon.code then
        let (anonId, input) ← recvUint32 ts.host input
        tsOutData ts none (some anonId) input
      else if response = TupleCommand.tsEnf.code ∧ block then tsOutReply ts block chunks later
      else if response = TupleCommand.tsTerm.code then
        return ({ rt := -1, name := none, anonId := none, data := none }, input)
      else return ({ rt := 1, name := none, anonId := none, data := none }, input)

end Synergy
