import GraphSession.Exchange.Request

/-!
  The surroundings of a session.

  A peer answers requests and may change its own state with every answer; nothing else is known of
  it.  So what holds for every peer holds for every pattern of success and failure of pool,
  connections and bookmark manager.  One thing is required: the records of a result come to an end.
  `backlog` bounds what may still be pulled, and a pull that leaves more behind lowers it.
-/

namespace GraphSession

/-- Surroundings with states in `ω`. -/
structure Peer (ω : Type) where
  /-- Whether the pool knows several servers and finds home databases. -/
  routing : Bool
  answer : (request : Request) → ω → request.Answer × ω
  /-- A bound on the records that are left. -/
  backlog : ω → Nat
  backlog_lt : ∀ {w w' : ω} {c : Connection} {sender : Sender} {size : FetchSize} {batch : Batch},
    answer (.send c sender (.pull size)) w = (.ok batch, w') → batch.more = true →
      backlog w' < backlog w

/-- A peer as part of larger surroundings. -/
def Peer.within {ω σ : Type} (peer : Peer ω) (get : σ → ω) (set : ω → σ → σ)
    (get_set : ∀ w s, get (set w s) = w) : Peer σ where
  routing := peer.routing
  answer request s :=
    let given := peer.answer request (get s)
    (given.1, set given.2 s)
  backlog s := peer.backlog (get s)
  backlog_lt := by
    intro s s' c sender size batch h more
    obtain ⟨ha, hs⟩ := Prod.mk.inj h
    subst hs
    rw [get_set]
    exact peer.backlog_lt (Prod.ext ha rfl) more

end GraphSession
