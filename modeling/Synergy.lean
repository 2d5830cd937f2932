import Synergy.Lib.Run
import Synergy.Lib.Digits
import Synergy.Lib.Decimals
import Synergy.Lib.Waiters
import Synergy.Lib.Pieces
import Synergy.Lib.Multipart
import Synergy.Lib.Outcome
import Synergy.Lib.Lobby
import Synergy.Lib.Slots
import Synergy.Wire
import Synergy.SharedMemory
import Synergy.Pipe
import Synergy.Tuple
import Synergy.Socket
import Synergy.Space
import Synergy.Handlers
import Synergy.Tokens
import Synergy.Client
import Synergy.Requests
import Synergy.Matching
import Synergy.Postings
import Synergy.Daemon
import Synergy.Delivery
import Synergy.Conservation
import Synergy.Pending
import Synergy.Replies
import Synergy.Answers
import Synergy.Connects
import Synergy.NodeInfo
import Synergy.Ring
import Synergy.TokenRing
import Synergy.Activation
import Synergy.Agreement
import Synergy.Origins
import Synergy.Circulation
import Synergy.P2pm
import Synergy.P2pmServer
import Synergy.P2pmPeers
import Synergy.P2pmActor
import Synergy.P2pmFrames
import Synergy.P2pmMessages
import Synergy.Admission
import Synergy.Succession
import Synergy.TokenSlots
import Synergy.TokenTransport
import Synergy.Config
import Synergy.Capacity
import Synergy.Ranges
import Synergy.Failures
import Synergy.Boundaries
import Synergy.Deferrals
import Synergy.P2pmJoin
import Synergy.Joins
import Synergy.System
import Synergy.Pairing
import Synergy.Responses
import Synergy.Dialogue
import Synergy.Fidelity
import Synergy.Closing
import Synergy.Broadcast
import Synergy.Localities
import Synergy.Peers
import Synergy.Glob
import Synergy.Lookup
import Synergy.Offers
import Synergy.Dismissal
import Synergy.NullNames
import Synergy.FailOver
import Synergy.Links
import Synergy.Document
import Synergy.Receiving
import Synergy.Framing
import Synergy.Senders
import Synergy.Transfer
import Synergy.Pongs
import Synergy.Deadlines
import Synergy.Silence
import Synergy.SuccessorList
import Synergy.Wave
import Synergy.SpacesGrammar
import Synergy.Readback
import Synergy.RecvStr
import Synergy.Symmetry
import Synergy.ListCopy
import Synergy.Lib.Probing
import Synergy.Lib.Cursor
import Synergy.SparseTable
import Synergy.SparseWalk
import Synergy.HashTable
import Synergy.Buckets
import Synergy.Rehash
import Synergy.Growth
import Synergy.HashRuns
import Synergy.SpaceTable
import Synergy.Lib.Simulation
import Synergy.RingMessages
import Synergy.NodeRing
import Synergy.Openings
import Synergy.Listening
import Synergy.Segments
