import AgentBroker.Broker.Basic

/-!
# Dispatch of envelopes

An envelope is run as the operation that it requests. A failure that concerns the sender is told to
it, as far as the settings allow. The answer carries the number of the envelope.
-/

namespace AgentBroker.Broker

def answerSearch (agent : String) (msgId : UInt32) (s : Search) :
    Except Failure (List String) × Broker → Except Failure Unit × Broker
  | (.error f, b) => (.error f, b)
  | (.ok found, b) =>
    (.ok (), (b.send agent ((Notice.ofNews (.searchResult s.searchId found)).answering msgId)).2)

def run (b : Broker) (now : Nanos) (agent : String) (msgId : UInt32) :
    Request → Except Failure Unit × Broker
  | .registerService i => b.registerService agent i
  | .unregisterService i => (.ok (), b.unregisterService agent i)
  | .registerDescription i => b.registerDescription agent i
  | .unregisterDescription => (.ok (), b.unregisterDescription agent)
  | .searchAgents s => answerSearch agent msgId s (b.searchAgents s.query)
  | .searchServices s => answerSearch agent msgId s (b.searchServices s.query)
  | .sendMessage letter => b.sendLetter now agent letter

def countFailure (b : Broker) : Failure → Broker
  | .breach .. => b.count .protocolError
  | .misfit _ => b.count .registrationFailed
  | _ => b

def notifies (s : NotificationSettings) : Failure → Bool
  | .unreachable .. => s.routingErrors
  | .breach .. => s.protocolErrors
  | .misfit _ => true
  | _ => false

def report (b : Broker) (agent : String) (msgId : UInt32) (operation : Operation) (f : Failure) :
    Broker :=
  let b := b.countFailure f
  if notifies b.notifications f then
    match f.notice? operation with
    | some n => (b.send agent (n.answering msgId)).2
    | none => b
  else b

/-- Runs an envelope, which takes the time `elapsed`. One without a request counts as a decoding
error. -/
def dispatch (b : Broker) (now elapsed : Nanos) (agent : String) (e : Envelope) :
    Except Failure Unit × Broker :=
  match e.request with
  | none => (.ok (), b.count .decodeError)
  | some request =>
    let operation := request.operation
    match b.run now agent e.msgId request with
    | (.ok _, b) => (.ok (), b.count (·.envelopeProcessed operation.label elapsed true))
    | (.error f, b) =>
      let b := b.count (·.envelopeProcessed operation.label elapsed false)
      (.error f, b.report agent e.msgId operation f)

end AgentBroker.Broker
