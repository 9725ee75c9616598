import HookRegistry.StoreClient

/-!
# Scripted sessions and transports

A script gives the reply to each request in turn; when it has run out, every request is answered
with an empty list.  `ClientBench` runs a store client over a scripted session, or over a scripted
transport that takes the place of its own.
-/

namespace HookRegistry.Bench

/-- The reply when the script has run out. -/
def defaultReply : Reply :=
  .answered 200 [] (.ok "[]".toUTF8)

/-- A request as the partner saw it. -/
inductive Recorded where
  | store (r : StoreRequest)
  | session (r : SessionRequest)

/-- What a scripted transport answers: faults come through as they are. -/
def transportAnswer : Reply → Except Failure StoreResponse
  | .refused f => .error f
  | .answered _ _ (.error f) => .error f
  | .answered status headers (.ok body) =>
    .ok { status, errorHeader := Transport.headerValue Transport.errorHeader headers, body }

/-- The replies that are left, and what was recorded. -/
structure Script where
  replies : List Reply := []
  requests : List Recorded := []
  log : List LogRecord := []

namespace Script

/-- Takes the next reply, for a request that is recorded. -/
def take (s : Script) (r : Recorded) : Reply × Script :=
  (s.replies.headD defaultReply,
    { s with replies := s.replies.tail, requests := s.requests ++ [r] })

/-- Takes the reply to a request of a session. -/
def answerSession (r : SessionRequest) (s : Script) : Reply × Script :=
  s.take (.session r)

/-- Takes the answer to a request that a scripted transport gets. -/
def answerTransport (r : StoreRequest) (s : Script) : Except Failure StoreResponse × Script :=
  let (reply, s) := s.take (.store r)
  (transportAnswer reply, s)

/-- Keeps the log of an operation that has ended. -/
def record {α : Type} (r : Outcome α × Script) : Except Failure α × Script :=
  (r.1.result, { r.2 with log := r.2.log ++ r.1.log })

/-- Runs an operation over a session. -/
def runSession {α : Type} (s : Script) (op : Exchange SessionRequest Reply α) :
    Except Failure α × Script :=
  record (op.run answerSession s)

/-- Runs an operation over a scripted transport. -/
def runTransport {α : Type} (s : Script) (op : StoreClient.Operation α) :
    Except Failure α × Script :=
  record (op.run answerTransport s)

end Script

/-- A store client with a scripted partner. -/
structure ClientBench where
  client : StoreClient
  sessions : Sessions := []
  script : Script := {}

namespace ClientBench

/-- Runs an operation of the client. -/
def run {α : Type} (b : ClientBench) (op : StoreClient.Operation α) :
    Except Failure α × ClientBench :=
  let (result, script) := match b.client.channel with
    | some .injected => b.script.runTransport op
    | _ => b.script.runSession (op.through b.client.transport.send)
  (result, { b with script })

/-- Opens the client. -/
def enter (b : ClientBench) : ClientBench :=
  let (client, sessions) := b.client.enter b.sessions
  { b with client, sessions }

/-- Closes the client. -/
def close (b : ClientBench) : ClientBench :=
  let (client, sessions) := b.client.close b.sessions
  { b with client, sessions }

/-- Forgets the requests and the log so far. -/
def clear (b : ClientBench) : ClientBench :=
  { b with script := { b.script with requests := [], log := [] } }

end ClientBench

end HookRegistry.Bench
