import GraphSession.Proofs.Ownership

/-!
  Every message in its turn.

  The sessions of this library speak to the server in an order that the server prescribes: one
  stream at a time, drained or dropped by the result that opened it, transactions that do not nest,
  and nothing but a reset after a failure.  All results and transactions of a session talk on one
  connection, so a stale one must never get to speak.

  The standing of a session carries this.  While operations are going on it is part of what the
  standing says of the history.  When the caller lets go of the session, its handles stay; the
  connection may then be gone, and where nothing is borrowed nothing is sent.
-/

namespace GraphSession

variable {ω : Type}

/-! ## Turns -/

/-- A message comes when its connection is on loan and the dialogue on it allows it. -/
def InTurn (past : History) : Happening → Prop
  | .asked (.send c sender m) _ => ∃ d, History.dialogue c past = some d ∧ d.Allows sender m
  | _ => True

theorem Proper.inTurn {past : History} {e : Happening} (h : Proper past e) : InTurn past e := by
  unfold InTurn
  split
  · obtain ⟨d, lent, allowed, -⟩ := h
    exact ⟨d, lent, allowed⟩
  · trivial

/-- Only a message can fail to have the property. -/
def OfMessages (P : History → Happening → Prop) : Prop :=
  ∀ past e, (∀ c sender m answer, e ≠ .asked (.send c sender m) answer) → P past e

theorem OfMessages.aside {P : History → Happening → Prop} (messages : OfMessages P)
    {e : Happening} (h : e.IsAside) (past : History) : P past e := by
  refine messages past e ?_
  rintro c sender m answer rfl
  exact h

theorem ofMessages_inTurn : OfMessages InTurn := by
  intro past e other
  unfold InTurn
  split
  · exact absurd rfl (other _ _ _ _)
  · trivial

theorem State.Rests.inTurn {σ : State (Recorded ω)} (h : σ.Rests) : Always InTurn σ.history := by
  obtain ⟨x, hx⟩ := h.stands
  exact hx.proper.imp fun _ _ => Proper.inTurn

/-! ## Handles of a session that is gone -/

/-- The caller lets go of a session, where somebody is left to end it or where nobody is. -/
def letGo (peer : Peer ω) (attended : Bool) (σ : State (Recorded ω)) : State (Recorded ω) :=
  ((if attended then abandon peer.recorded else abandonUnattended peer.recorded).exec σ).2

/-- What a caller can still do who has let go of the session: use a handle, or do something
    elsewhere. -/
def lateUse : Access ⊕ (ω → ω) → Operation ω
  | .inl a => .access a
  | .inr f => .elsewhere f

section LettingGo

variable {P : History → Happening → Prop} {peer : Peer ω} {config : SessionConfig}
  {σ : State (Recorded ω)}

/-- The session holds no connection any more, and everything that happened was as `P` says. -/
def State.Gone (P : History → Happening → Prop) (σ : State (Recorded ω)) : Prop :=
  σ.session.connection = none ∧ Always P σ.history

/-- Without a connection a handle sends nothing. -/
theorem State.Gone.lateUse (messages : OfMessages P) (h : σ.Gone P) (use : Access ⊕ (ω → ω)) :
    ((GraphSession.lateUse use).after peer σ).Gone P := by
  obtain ⟨free, always⟩ := h
  cases use with
  | inr f => exact ⟨free, always⟩
  | inl a =>
    have course : Course a.license σ ((a.perform peer.recorded).exec σ).2 := a.perform_within σ
    obtain ⟨still, later, history, asides⟩ :=
      course.unconnected (by cases a <;> exact fun h => h) free
    refine ⟨still, messages.aside (by trivial) _, ?_⟩
    show Always P ((a.perform peer.recorded).exec σ).2.history
    rw [history]
    exact always.append fun e he => messages.aside (asides e he)

/-- The connection goes back whatever is open on it. -/
theorem endAllUnits_gone (messages : OfMessages P) (always : Always P σ.history) :
    (endAllUnits peer.recorded).Ends σ fun _ τ => τ.Gone P := by
  rw [endAllUnits, Act.ends_bind, Act.ends_changeSession, releaseConnection, Act.ends_bind,
    Act.ends_theSession]
  dsimp only
  cases σ.session.connection with
  | none => exact ⟨rfl, always⟩
  | some c =>
    rw [Act.ends_bind, Act.ends_changeSession, Act.ends_bind]
    refine Act.ends_giveBack fun w => Act.ends_note fun w' => ⟨rfl, ?_⟩
    exact ⟨messages.aside (by trivial) _, messages _ _ (fun _ _ _ _ e => by cases e), always⟩

/-- The session is at rest, as it was configured. -/
def State.RestsAs (config : SessionConfig) (σ : State (Recorded ω)) : Prop :=
  σ.Rests ∧ σ.session.config = config

/-- A caller who lets go of a session leaves it at rest, or without a connection. -/
theorem State.RestsAs.letGo (messages : OfMessages P)
    (resting : ∀ {τ : State (Recorded ω)}, τ.RestsAs config → Always P τ.history)
    (h : σ.RestsAs config) (attended : Bool) :
    (GraphSession.letGo peer attended σ).RestsAs config ∨
      (GraphSession.letGo peer attended σ).Gone P := by
  cases attended with
  | false =>
    have kept : (abandonUnattended peer.recorded).Ends σ fun _ τ => τ.RestsAs config := by
      rw [abandonUnattended, Act.ends_bind, Act.ends_theSession]
      split
      · exact Act.ends_note fun w => ⟨h.1.noted _ w, h.2⟩
      · exact h
    exact .inl kept
  | true =>
    have ended : (abandon peer.recorded).Ends σ fun _ τ => τ.RestsAs config ∨ τ.Gone P := by
      rw [abandon, Act.ends_bind, Act.ends_theSession]
      split
      · obtain ⟨⟨u, s, settled⟩, configured⟩ := h
        have course : (endCurrent peer.recorded).Within .closing :=
          endCurrent_within trivial trivial
        rw [Act.ends_bind]
        refine ((endCurrent_settled settled).and (course.ends σ)).imp fun _ τ hτ => ?_
        obtain ⟨⟨s', hτ⟩, course⟩ := hτ
        have always := resting ⟨⟨none, s', hτ⟩, course.keeps.config.trans configured⟩
        rw [Act.ends_bind]
        exact (endAllUnits_gone messages always).imp fun _ _ gone => .inr gone
      · exact .inl h
    exact ended

/-- What holds of every message of a session at rest holds also when the caller has let go of the
    session, and of whatever its handles are used for then. -/
theorem lateUses_always (messages : OfMessages P)
    (resting : ∀ {τ : State (Recorded ω)}, τ.RestsAs config → Always P τ.history)
    (h : σ.RestsAs config ∨ σ.Gone P) (uses : List (Access ⊕ (ω → ω))) :
    Always P ((uses.map lateUse).foldl (Operation.after peer) σ).history := by
  induction uses generalizing σ with
  | nil => exact h.elim resting And.right
  | cons use rest ih =>
    refine ih (h.imp (fun rests => ⟨?_, ?_⟩) fun gone => gone.lateUse messages use)
    · exact ((lateUse use).perform_rests rests.1).1
    · exact (configured_kept config).operation rests.2 (lateUse use)

/-- What holds of every message of a session at rest holds of every message that the session ever
    sends. -/
theorem play_always (messages : OfMessages P)
    (resting : ∀ {τ : State (Recorded ω)}, τ.RestsAs config → Always P τ.history)
    (peer : Peer ω) (w : ω) (ops : List (Operation ω)) :
    Always P (play peer config w ops).history ∧
      ∀ attended (uses : List (Access ⊕ (ω → ω))),
        Always P ((uses.map lateUse).foldl (Operation.after peer)
          (letGo peer attended (play peer config w ops))).history := by
  have rests : (play peer config w ops).RestsAs config :=
    ⟨play_rests peer config w ops, (configured_kept config).play (fun _ => rfl) w ops⟩
  exact ⟨resting rests, fun attended uses =>
    lateUses_always messages resting (rests.letGo messages resting attended) uses⟩

end LettingGo

/-- Every message that a session ever sends comes in its turn and from the result or transaction
    whose turn it is, after any operations on the session and its handles, and when the session was
    let go of, after any further uses of its handles. -/
theorem play_inTurn (peer : Peer ω) (config : SessionConfig) (w : ω) (ops : List (Operation ω)) :
    Always InTurn (play peer config w ops).history ∧
      ∀ attended (uses : List (Access ⊕ (ω → ω))),
        Always InTurn ((uses.map lateUse).foldl (Operation.after peer)
          (letGo peer attended (play peer config w ops))).history := by
  exact play_always ofMessages_inTurn (fun h => h.1.inTurn) peer w ops

end GraphSession
