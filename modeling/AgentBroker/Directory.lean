import AgentBroker.Query

/-!
# The directory

What connected agents offer, filed by agent and data model, and who they are, one description per
agent. Both are searched with the same queries, and agents are found in the order of their ids.
-/

namespace AgentBroker

structure Directory where
  /-- The services of each agent by the name of their data model. No agent has an empty entry. -/
  services : Std.ExtTreeMap String (Std.ExtTreeMap String Instance)
  descriptions : Std.ExtTreeMap String Instance

namespace Directory

def empty : Directory := ⟨∅, ∅⟩

instance : Inhabited Directory := ⟨empty⟩

def offers (d : Directory) (agent : String) : Std.ExtTreeMap String Instance :=
  d.services.getD agent ∅

def servicesOf (d : Directory) (agent : String) : List Instance := (d.offers agent).values

def service? (d : Directory) (agent model : String) : Option Instance := (d.offers agent)[model]?

def description? (d : Directory) (agent : String) : Option Instance := d.descriptions[agent]?

def setOffers (d : Directory) (agent : String) (offers : Std.ExtTreeMap String Instance) :
    Directory :=
  { d with
    services := if offers.isEmpty then d.services.erase agent else d.services.insert agent offers }

/-- Files a service under its agent and model name, in place of the one that was there. -/
def register (d : Directory) (agent : String) (i : Instance) : Directory :=
  d.setOffers agent ((d.offers agent).insert i.model.name i)

/-- Removes the service with the model name of `i`. Also tells whether there was one. -/
def unregister (d : Directory) (agent : String) (i : Instance) : Bool × Directory :=
  let offers := d.offers agent
  (offers.contains i.model.name, d.setOffers agent (offers.erase i.model.name))

def describe (d : Directory) (agent : String) (i : Instance) : Directory :=
  { d with descriptions := d.descriptions.insert agent i }

def undescribe (d : Directory) (agent : String) : Bool × Directory :=
  (d.descriptions.contains agent, { d with descriptions := d.descriptions.erase agent })

def removeAgent (d : Directory) (agent : String) : Directory :=
  ⟨d.services.erase agent, d.descriptions.erase agent⟩

def searchServices (d : Directory) (q : Query) : List String :=
  (d.services.toList.filter fun (_, offers) => offers.values.any q.check).map (·.1)

def searchAgents (d : Directory) (q : Query) : List String :=
  (d.descriptions.toList.filter fun (_, i) => q.check i).map (·.1)

def serviceCount (d : Directory) : Nat :=
  d.services.values.foldl (fun n services => n + services.size) 0

def descriptionCount (d : Directory) : Nat := d.descriptions.size

end Directory

end AgentBroker
