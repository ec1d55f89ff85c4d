import GraphSession.Proofs.Conformance

/-!
  New work follows on the work before it.

  The queries and begins that open a unit of work carry bookmarks, by which the server knows what
  must be visible to them.  What they must carry is told by `History.due`, and the token of a unit
  that is still streaming is not known yet.  So no new work may be sent before the stream of every
  earlier unit has come to its end: then the tokens of all units that returned one are in the
  history, and what is due is due by all of them.

  A query in an open transaction opens no unit, and carries nothing.
-/

namespace GraphSession

variable {ω : Type}

/-! ## New work -/

/-- Whether a transaction is open on the connection. -/
def History.inTransaction (c : Connection) (h : History) : Bool :=
  (History.dialogue c h).any (·.transaction.isSome)

/-- The bookmarks of a unit of work that is opened: by a begin, or by a query outside of any
    transaction. -/
def Happening.newWork? (past : History) : Happening → Option Bookmarks
  | asked (.send c _ (.run request)) _ =>
    if past.inTransaction c then none else some request.work.bookmarks
  | asked (.send _ _ (.begin request)) _ => some request.bookmarks
  | _ => none

/-- The bookmarks of a query in an open transaction. -/
def Happening.innerWork? (past : History) : Happening → Option Bookmarks
  | asked (.send c _ (.run request)) _ =>
    if past.inTransaction c then some request.work.bookmarks else none
  | _ => none

/-- Whether the stream of a result came to its end: it was drained or dropped, or it failed. -/
def Happening.endsStream (r : ResultId) : Happening → Bool
  | asked (.send _ (.result id) (.pull _)) (.ok batch) => id = r && !batch.more
  | asked (.send _ (.result id) (.pull _)) (.error _) => id = r
  | asked (.send _ (.result id) .discard) _ => id = r
  | _ => false

/-- The query of a result stands alone: it succeeded, and no transaction was open. -/
def Happening.StandsAlone (r : ResultId) (past : History) : Happening → Prop
  | asked (.send c sender (.run _)) (.ok _) =>
    sender = .result r ∧ past.inTransaction c = false
  | _ => False

section Bearing

variable {config : SessionConfig} {past : History} {e : Happening} {b : Bookmarks}

/-- New work bears its bookmarks. -/
theorem Carries.bears (h : Carries config past e) (new : e.newWork? past = some b) :
    Bears config past b := by
  unfold Happening.newWork? at new
  split at new
  · obtain ⟨d, lent, carried⟩ := h
    split at new
    · cases new
    · next alone =>
      simp only [History.inTransaction, lent, Option.any_some, Bool.not_eq_true] at alone
      rw [alone] at carried
      cases new
      exact carried
  · cases new
    exact h
  · cases new

/-- A query in a transaction bears none. -/
theorem Carries.bare (h : Carries config past e) (inner : e.innerWork? past = some b) :
    b = .empty := by
  unfold Happening.innerWork? at inner
  split at inner
  · obtain ⟨d, lent, carried⟩ := h
    split at inner
    · next within =>
      simp only [History.inTransaction, lent, Option.any_some] at within
      rw [within] at carried
      cases inner
      exact carried
    · cases inner
  · cases inner

end Bearing

/-! ## Streams that stand alone -/

/-- The stream of a result is open in a dialogue without a transaction, and nothing has failed. -/
structure Dialogue.Streams (d : Dialogue) (r : ResultId) : Prop where
  stream : d.stream = some r
  alone : d.transaction = none
  sound : d.IsSound

section Streaming

variable {past since before : History} {e : Happening} {c : Connection} {d : Dialogue}
  {r : ResultId}

/-- A stream that stands alone stays open until it comes to its end. -/
theorem Dialogue.Streams.next (streams : d.Streams r) (proper : Always Proper (e :: past))
    (lent : History.dialogue c past = some d) :
    e.endsStream r = true ∨ ∃ d', History.dialogue c (e :: past) = some d' ∧ d'.Streams r := by
  obtain ⟨stream, alone, sound⟩ := streams
  rcases dialogue_next proper lent with ⟨sender, m, answer, rfl, allowed, warranted, lent'⟩ |
    ⟨rfl, clean⟩ | ⟨-, lent'⟩
  · -- only the result itself may speak, and telemetry may be sent
    match m, answer with
    | .telemetry _, _ => exact .inr ⟨d, lent', stream, alone, sound⟩
    | .pull _, .ok batch =>
      obtain ⟨-, id, rfl, own⟩ := allowed
      obtain rfl : r = id := Option.some.inj (stream.symm.trans own)
      cases more : batch.more with
      | false => exact .inl (by simp [Happening.endsStream, more])
      | true => exact .inr ⟨_, lent', by simpa [Dialogue.after, more] using stream, alone, sound⟩
    | .pull _, .error _ =>
      obtain ⟨-, id, rfl, own⟩ := allowed
      exact .inl (by simpa [Happening.endsStream] using Option.some.inj (own.symm.trans stream))
    | .discard, _ =>
      obtain ⟨-, id, rfl, own⟩ := allowed
      exact .inl (by simpa [Happening.endsStream] using Option.some.inj (own.symm.trans stream))
    | .run _, _ | .begin _, _ | .commit, _ =>
      rw [allowed.2.1] at stream
      cases stream
    | .rollback, _ =>
      obtain ⟨-, id, -, own⟩ := allowed
      rw [alone] at own
      cases own
    | .reset, _ =>
      -- nothing has failed
      cases sound.1.symm.trans warranted
  · rcases clean with reset | ⟨-, -, closed⟩
    · rw [sound.2] at reset
      cases reset
    · rw [closed] at stream
      cases stream
  · exact .inr ⟨d, lent', stream, alone, sound⟩

/-- The query that stands alone opens its stream. -/
theorem Dialogue.streams_of_standsAlone (proper : Always Proper (e :: past))
    (alone : e.StandsAlone r past) :
    ∃ c d, History.dialogue c (e :: past) = some d ∧ d.Streams r := by
  unfold Happening.StandsAlone at alone
  split at alone
  · next c sender request reply =>
    obtain ⟨rfl, free⟩ := alone
    obtain ⟨d, lent, ⟨sound, -⟩, -⟩ := proper.1
    refine ⟨c, { d with stream := some r, served := 0 }, ?_, rfl, ?_, sound⟩
    · simp [History.dialogue, Happening.lead, lent, Dialogue.after]
    · simpa [History.inTransaction, lent] using free
  · exact alone.elim

/-- Since a query that stands alone, its stream came to its end, or it is still open. -/
theorem Dialogue.ended_or_streams (proper : Always Proper (since ++ e :: before))
    (alone : e.StandsAlone r before) :
    (∃ e' ∈ since, e'.endsStream r = true) ∨
      ∃ c d, History.dialogue c (since ++ e :: before) = some d ∧ d.Streams r := by
  induction since with
  | nil => exact .inr (streams_of_standsAlone proper alone)
  | cons e' since ih =>
    rcases ih proper.2 with ⟨e'', he, ends⟩ | ⟨c, d, lent, streams⟩
    · exact .inl ⟨e'', List.mem_cons_of_mem e' he, ends⟩
    · rcases streams.next proper lent with ends | ⟨d', lent', streams⟩
      · exact .inl ⟨e', List.mem_cons_self, ends⟩
      · exact .inr ⟨c, d', lent', streams⟩

/-- New work comes on a connection without an open stream. -/
theorem Proper.quiet {b : Bookmarks} (h : Proper past e) (new : e.newWork? past = some b) :
    ∃ c d, History.dialogue c past = some d ∧ d.stream = none := by
  unfold Happening.newWork? at new
  split at new
  · obtain ⟨d, lent, ⟨-, quiet, -⟩, -⟩ := h
    exact ⟨_, d, lent, quiet⟩
  · obtain ⟨d, lent, ⟨-, quiet, -⟩, -⟩ := h
    exact ⟨_, d, lent, quiet⟩
  · cases new

end Streaming

/-! ## The chain -/

/-- New work bears what is due by everything before it, which no open stream can add to; a query in
    a transaction bears nothing. -/
structure Chains (seed : Bookmarks) (past : History) (e : Happening) : Prop where
  bears : ∀ b, e.newWork? past = some b → past.due seed ⊆ b
  ended : ∀ b, e.newWork? past = some b → ∀ since alone before r,
    past = since ++ alone :: before → alone.StandsAlone r before →
      ∃ e' ∈ since, e'.endsStream r = true
  bare : ∀ b, e.innerWork? past = some b → b = .empty

theorem Always.chains {config : SessionConfig} {h : History} (proper : Always Proper h)
    (carries : Always (Carries config) h) : Always (Chains config.bookmarks) h := by
  induction h with
  | nil => trivial
  | cons e past ih =>
    refine ⟨⟨fun b new => (carries.1.bears new).1,
      fun b new since alone before r split stands => ?_, fun b inner => carries.1.bare inner⟩,
      ih proper.2 carries.2⟩
    subst split
    refine (Dialogue.ended_or_streams proper.2 stands).resolve_right ?_
    rintro ⟨c, d, lent, streams⟩
    -- only one connection is on loan, and no stream is open on it
    obtain ⟨c', d', lent', quiet⟩ := proper.1.quiet new
    obtain rfl := dialogue_unique proper.2 (by rw [lent]; rfl) (by rw [lent']; rfl)
    obtain rfl := Option.some.inj (lent.symm.trans lent')
    rw [streams.stream] at quiet
    cases quiet

theorem ofMessages_chains (seed : Bookmarks) : OfMessages (Chains seed) := by
  intro past e other
  have new : e.newWork? past = none := by
    unfold Happening.newWork?
    split
    · exact absurd rfl (other _ _ _ _)
    · exact absurd rfl (other _ _ _ _)
    · rfl
  have inner : e.innerWork? past = none := by
    unfold Happening.innerWork?
    split
    · exact absurd rfl (other _ _ _ _)
    · rfl
  exact ⟨by simp [new], by simp [new], by simp [inner]⟩

/-- Every query outside of a transaction and every begin bears the token of the unit of work that
    was completed last, of those of the session that returned one, or all that the session was given
    at the start; by then the stream of every earlier query outside of a transaction has come to its
    end.  Queries in a transaction bear nothing.  So it is after any operations on the session and
    its handles, whatever the surroundings answer, and when the session was let go of, after any
    further uses of its handles. -/
theorem play_chains (peer : Peer ω) (config : SessionConfig) (w : ω) (ops : List (Operation ω)) :
    Always (Chains config.bookmarks) (play peer config w ops).history ∧
      ∀ attended (uses : List (Access ⊕ (ω → ω))),
        Always (Chains config.bookmarks) ((uses.map lateUse).foldl (Operation.after peer)
          (letGo peer attended (play peer config w ops))).history := by
  refine play_always (ofMessages_chains _) (fun {τ} h => ?_) peer w ops
  obtain ⟨rests, rfl⟩ := h
  obtain ⟨x, hx⟩ := rests.stands
  exact hx.proper.chains hx.carries

end GraphSession
