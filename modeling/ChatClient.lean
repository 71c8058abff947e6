import ChatClient.Chat.Streaming
import ChatClient.Proofs.Accepted
import ChatClient.Proofs.AnswersAlike
import ChatClient.Proofs.Assembly
import ChatClient.Proofs.CallOrder
import ChatClient.Proofs.CallRun
import ChatClient.Proofs.Cleanup
import ChatClient.Proofs.Consistency
import ChatClient.Proofs.Conversation
import ChatClient.Proofs.Dropped
import ChatClient.Proofs.FiniteBodies
import ChatClient.Proofs.Floats
import ChatClient.Proofs.Forms
import ChatClient.Proofs.Framing
import ChatClient.Proofs.GeminiStreamed
import ChatClient.Proofs.GeminiTurns
import ChatClient.Proofs.GroqBodies
import ChatClient.Proofs.GroqStreamed
import ChatClient.Proofs.JsonBytes
import ChatClient.Proofs.JsonText
import ChatClient.Proofs.KeyHidden
import ChatClient.Proofs.KeysApart
import ChatClient.Proofs.LostConnections
import ChatClient.Proofs.Nesting
import ChatClient.Proofs.Numerals
import ChatClient.Proofs.Opening
import ChatClient.Proofs.Payloads
import ChatClient.Proofs.ReadAlike
import ChatClient.Proofs.Readings
import ChatClient.Proofs.Received
import ChatClient.Proofs.Redaction
import ChatClient.Proofs.Refusals
import ChatClient.Proofs.Relay
import ChatClient.Proofs.Replay
import ChatClient.Proofs.RetryRun
import ChatClient.Proofs.Rounding
import ChatClient.Proofs.Scalars
import ChatClient.Proofs.Shortest
import ChatClient.Proofs.SideBySide
import ChatClient.Proofs.SingleUse
import ChatClient.Proofs.StreamEnds
import ChatClient.Proofs.StreamRun
import ChatClient.Proofs.Utf8Text
import ChatClient.Tool
import ChatClient.Proofs.Concealment
import ChatClient.Proofs.EventRuns
import ChatClient.Proofs.SystemText
import ChatClient.Proofs.NumberOrder
import ChatClient.Proofs.RoundingOrder
import ChatClient.Proofs.Delays
import ChatClient.Proofs.RetryEnds
import ChatClient.Proofs.Arguments
import ChatClient.Proofs.SilentEvents
import ChatClient.Proofs.LastNames
import ChatClient.Proofs.WholeCalls
import ChatClient.Proofs.Wrapping
import ChatClient.Proofs.Interiors
import ChatClient.Proofs.JsonAnswers
import ChatClient.Proofs.Declarations
import ChatClient.Proofs.UnknownFields
import ChatClient.Proofs.AskedWaits
import ChatClient.Proofs.BoundedWaits
import ChatClient.Proofs.Bookkeeping
