import AgentBroker.Description.Value

/-!
# Great-circle distance

The haversine distance between two places on a sphere with the mean radius of the earth.
-/

namespace AgentBroker.Location

def earthRadiusKm : Float := 6371.0

def radiansPerDegree : Float := 3.14159265358979323846264338327950288 / 180.0

def radians (degrees : Float) : Float := degrees * radiansPerDegree

def square (x : Float) : Float := x * x

def distanceKm (a b : Location) : Float :=
  let latA := radians a.latitude
  let latB := radians b.latitude
  let dLat := latB - latA
  let dLon := radians (b.longitude - a.longitude)
  let h := square (dLat / 2.0).sin + latA.cos * latB.cos * square (dLon / 2.0).sin
  2.0 * earthRadiusKm * h.sqrt.asin

end AgentBroker.Location
