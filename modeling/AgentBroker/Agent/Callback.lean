import AgentBroker.Message.Notice

/-!
# Callbacks

What an agent is told. Every notice with news makes exactly one callback, which holds all of the
news.
-/

namespace AgentBroker

inductive Callback where
  | error (answerId : UInt32) (report : ErrorReport)
  | undeliverable (answerId : UInt32) (conversationId destination : String)
  | searchResult (searchId : UInt32) (agents : List String)
  | message (origin conversationId content : String)
  | called (origin conversationId : String) (msgId target : UInt32) (content : CallContent)
  | proposed (origin conversationId : String) (msgId target : UInt32) (proposal : Proposal)
  | accepted (origin conversationId : String) (msgId target : UInt32)
  | declined (origin conversationId : String) (msgId target : UInt32)

namespace Callback

def ofDelivery (d : Delivery) : Callback :=
  match d.body with
  | .text s => message d.origin d.conversationId s
  | .negotiation m =>
    match m.step with
    | .call content => called d.origin d.conversationId m.msgId m.target content
    | .propose proposal => proposed d.origin d.conversationId m.msgId m.target proposal
    | .accept => accepted d.origin d.conversationId m.msgId m.target
    | .decline => declined d.origin d.conversationId m.msgId m.target

def ofNotice? (n : Notice) : Option Callback :=
  n.news.map fun
    | .error report => error n.answerId report
    | .undeliverable conversationId destination =>
      undeliverable n.answerId conversationId destination
    | .searchResult searchId agents => searchResult searchId agents
    | .delivery d => ofDelivery d

end Callback

end AgentBroker
