import MsQuicH3.Concurrency.Logic
import MsQuicH3.Stream
import MsQuicH3.Opener

/-! The adapter as a machine. Its threads are the two callback handlers, which
native code enters one invocation at a time, and the frontends, each of which
h3 calls through an exclusive reference. -/
namespace MsQuicH3

open Concurrency

inductive Thread where
  | connCallback
  | accept
  | opener (n : Nat)
  | streamCallback (key : StreamKey)
  | sendHalf (key : StreamKey)
  | recvHalf (key : StreamKey)
  deriving DecidableEq, Repr

inductive SendCall where
  | pollReady
  | sendData (payload : List UInt8)
  | pollFinish
  | reset (code : Nat)
  | drop
  deriving DecidableEq, Repr

inductive RecvCall where
  | pollData
  | stopSending (code : Nat)
  | drop
  deriving DecidableEq, Repr

inductive OpenCall where
  | pollOpenBidi
  | pollOpenSend
  | close (code : Nat)
  deriving DecidableEq, Repr

inductive Request where
  | connection (event : ConnectionEvent)
  | pollAcceptRecv
  | pollAcceptBidi
  | opener (n : Nat) (call : OpenCall)
  | stream (key : StreamKey) (event : StreamEvent)
  | send (key : StreamKey) (call : SendCall)
  | recv (key : StreamKey) (call : RecvCall)
  deriving DecidableEq, Repr

def Request.owner : Request → Thread
  | .connection _ => .connCallback
  | .pollAcceptRecv | .pollAcceptBidi => .accept
  | .opener n _ => .opener n
  | .stream key _ => .streamCallback key
  | .send key _ => .sendHalf key
  | .recv key _ => .recvHalf key

/-- Native code returns a client context only while it holds it, and at most once;
a half that was dropped is not called again. -/
def deliver : Request → State → Option State
  | .stream key (.sendComplete _ (some context)), s =>
      let stream := s.stream key
      if context ∈ stream.outstanding then
        some (s.setStream key { stream with outstanding := stream.outstanding.erase context })
      else none
  | .send key _, s => if (s.stream key).send.receiver then some s else none
  | .recv key _, s => if (s.stream key).receive.receiver then some s else none
  | _, s => some s

/-- Straight-line code of a request, from its result to the common result type. -/
def straight {α : Type} (code : Code α) (result : α → Result) : Round := do
  let value ← code
  Round.exit (result value)

def SendCall.entry (config : H3Config) (key : StreamKey) : SendCall → Round
  | .pollReady => MsQuicH3.pollReady key
  | .sendData payload => MsQuicH3.sendData key config payload
  | .pollFinish => MsQuicH3.pollFinish key
  | .reset code => MsQuicH3.reset key code
  | .drop => straight (onStream key .dropSendHalf) (fun _ => .unit)

def RecvCall.entry (key : StreamKey) : RecvCall → Round
  | .pollData => straight (MsQuicH3.pollData key) .pollData
  | .stopSending code => straight (MsQuicH3.stopSending key code) (fun _ => .unit)
  | .drop => straight (onStream key .dropRecvHalf) (fun _ => .unit)

def OpenCall.entry (opener : Nat) : OpenCall → Round
  | .pollOpenBidi => straight (pollOpenInner opener false) .pollOpen
  | .pollOpenSend => straight (pollOpenInner opener true) .pollOpen
  | .close code => straight (MsQuicH3.close code) (fun _ => .unit)

def Request.entry (config : H3Config) : Request → Round
  | .connection event => straight (connectionHandler event) .callback
  | .pollAcceptRecv => straight MsQuicH3.pollAcceptRecv .pollAccept
  | .pollAcceptBidi => straight MsQuicH3.pollAcceptBidi .pollAccept
  | .opener n call => call.entry n
  | .stream key event => straight (streamHandler key event) .callback
  | .send key call => call.entry config key
  | .recv key call => call.entry key

/-- The next round of an executor loop. Only the four send methods loop. -/
def Request.body : Request → SendRound → Round
  | .send key .pollReady => pollReadyRound key
  | .send key (.sendData _) => sendDataRound key
  | .send key .pollFinish => pollFinishRound key
  | .send key (.reset _) => resetRound key
  | _ => fun _ => Round.exit .unit

def adapter (config : H3Config) :
    Machine signature State Choice Thread Request SendRound Result where
  perform choice op s := op.perform config choice s
  deliver := deliver
  owner := Request.owner
  entry := Request.entry config
  body := Request.body

abbrev AdapterLabel := Label signature State Request Result

abbrev AdapterEvent := Event signature State Request

abbrev AdapterConfig := Config signature State Thread Request SendRound Result

abbrev AdapterWorld := World signature State Request Result

abbrev AdapterMove := Move Choice Thread Request

abbrev AdapterCall := Completed signature State Request Result

/-- Serve one request, one operation after the other. -/
def Request.serve (request : Request) (choices : List Choice) : List AdapterMove :=
  .begin request :: choices.map (.act request.owner)

/-- Everything that can happen on a new connection. -/
def Runs (config : H3Config) : List AdapterLabel → AdapterConfig → Prop :=
  (adapter config).Runs (Machine.initial {})

/-- Serve one request after the other, each to its end, with the default choices. -/
def serveAll (requests : List (Request × Nat)) : List AdapterMove :=
  requests.flatMap fun served => served.1.serve (List.replicate served.2 {})

end MsQuicH3
