import ArgoTwin.Disclosure
import ArgoTwin.Invalidation
/-!
# The queue and the marks

What a deletion is queued for is a closure over the edges of the index;
what it marks stale comes of loops over the records of the state. The
edges are those of the records, so the two can be compared: the queue
holds all that the marks get to, and goes further along supersessions.
-/

namespace ArgoTwin

open Library TwinAggregate

variable {e : EventEnvelope} {es : List EventEnvelope} {s : TwinState} {a b node : Store.Node}
variable {evidenceId id : String}

/-! ## The edges, by the type of event -/

variable {twinId : String} {r : Payload}

/-- The events of a legal stream were accepted. -/
theorem accepts_of_mem {t : TwinState} (hlegal : Legal t es) (he : e ∈ es) :
    ∃ s, Accepts e s := by
  obtain ⟨n, hn, hget⟩ := List.getElem_of_mem he
  exact ⟨_, legal_iff.1 hlegal n e (by rw [List.getElem?_eq_getElem hn, hget])⟩

variable [Digest] {h : History} {n : Nat}

omit [Digest]

end ArgoTwin
