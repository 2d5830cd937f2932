import Synergy.SharedMemory

set_option autoImplicit false

namespace Synergy

structure Frame where
  bytes : Bytes
  more : Bool
deriving DecidableEq

-- What a call of handler can receive: the frames waiting on its socket, ZMQ_RCVMORE of the last one
-- received, and the chunks that come through ts_tsd_pipe.
structure Input where
  frames : List Frame
  rcvmore : Bool
  chunks : List Chunk
deriving DecidableEq

def zmqRecv (input : Input) : Except Stop (Bytes × Input) :=
  match input.frames with
  | [] => .error .blocked
  | frame :: later => .ok (frame.bytes, { input with frames := later, rcvmore := frame.more })

def recvUint32 (host : HostOrder) (input : Input) : Except Stop (UInt32 × Input) := do
  let (frame, input) ← zmqRecv input
  let word ← p2pmRecvUint32 host frame
  return (word, input)

def recvUint64 (host : HostOrder) (input : Input) : Except Stop (UInt64 × Input) := do
  let (frame, input) ← zmqRecv input
  let word ← p2pmRecvUint64 host frame
  return (word, input)

def recvStr (host : HostOrder) (input : Input) : Except Stop (Bytes × Input) := do
  let (announced, input) ← recvUint32 host input
  let (frame, input) ← zmqRecv input
  let str ← p2pmRecvStr announced frame
  return (str, input)

-- A zmq_recv into a block of len bytes that malloc returned, and the size it reports. What the frame
-- does not fill is indeterminate.
def recvData (len : UInt64) (input : Input) : Except Stop (Bytes × Nat × Input) := do
  let (frame, input) ← zmqRecv input
  if frame.length < len.toNat then throw .undefined
  return (frame.take len.toNat, frame.length, input)

def recvItemPipe (input : Input) : Except Stop (Bytes × Input) := do
  let (data, chunks) ← recvItem input.chunks
  return (data, { input with chunks := chunks })

def drainFrames : List Frame → Bool → Except Stop (List Frame)
  | frames, false => .ok frames
  | [], true => .error .blocked
  | frame :: later, true => drainFrames later frame.more

def tsFail (input : Input) : Except Stop Input := do
  let frames ← drainFrames input.frames input.rcvmore
  return { input with frames := frames, rcvmore := false }

end Synergy
