import GraphSession.Proofs.Conduct
import GraphSession.Proofs.Standing

/-!
  The situations that a session can be in, and how its units, its connection and its target move it
  between them.

  While `k` units are reserved and nothing is open, the session is idle: it may or may not hold a
  connection.  While a result is streaming or a transaction is open, the session is live, and the
  dialogue on its connection has the same result streaming and the same transaction open.  After a
  failure it is down: its connection is waiting for a reset, or has been reset and is not used again
  before it goes back.
-/

namespace GraphSession

variable {ω α : Type} {peer : Peer ω}

/-! ## Situations -/

/-- Nothing has failed, and this is open. -/
def Dialogue.IsAt (d : Dialogue) (transaction : Option TransactionId) (stream : Option ResultId) :
    Prop :=
  d.IsSound ∧ d.transaction = transaction ∧ d.stream = stream

theorem Dialogue.IsAt.isClean {d : Dialogue} (h : d.IsAt none none) : d.IsClean := .inr h

/-- `k` units are reserved and nothing is open; the dialogue on the connection, if there is one,
    is as `P` says. -/
def State.Idle (P : Dialogue → Prop) (k : Nat) (σ : State (Recorded ω)) : Prop :=
  σ.Stands { units := k } ∨
    0 < k ∧ ∃ c d, P d ∧ σ.Stands { units := k, slot := some c, loan := some (c, d) }

/-- `k` units are reserved, and one more has the dialogue `d` on the connection `c`.  It owes the
    session a token while it is being completed. -/
def State.Line (k : Nat) (u : Option (TransactionId × Transaction)) (s : Option ResultId)
    (c : Connection) (d : Dialogue) (σ : State (Recorded ω)) (owed : Option String := none) :
    Prop :=
  σ.Stands
    { units := k + 1, stream := s, transaction := u, slot := some c, loan := some (c, d), owed }

/-- The session is in a dialogue in which nothing has failed. -/
def State.Live (k : Nat) (u : Option (TransactionId × Transaction)) (s : Option ResultId)
    (σ : State (Recorded ω)) : Prop :=
  (∀ p, u = some p → p.2.state = .active) ∧
    ∃ c d, d.IsAt (u.map Prod.fst) s ∧ σ.Line k u s c d

/-- The session is idle, or live when something is open. -/
def State.Busy (k : Nat) (u : Option (TransactionId × Transaction)) (s : Option ResultId)
    (σ : State (Recorded ω)) : Prop :=
  match u, s with
  | none, none => σ.Idle (·.IsAt none none) k
  | _, _ => σ.Live k u s

/-- A stream has ended, which was the only one.  With another unit reserved, the session still has
    its connection. -/
structure State.StreamEnded (k : Nat) (u : Option (TransactionId × Transaction))
    (σ : State (Recorded ω)) : Prop where
  busy : σ.Busy k u none
  held : 0 < k → σ.session.connection ≠ none

/-- The unit of work that was open has failed. -/
def State.Down (k : Nat) (u : Option (TransactionId × Transaction)) (σ : State (Recorded ω)) :
    Prop :=
  match u with
  | none => σ.Idle Dialogue.IsClean k
  | some (t, v) =>
    ∃ c d, (d.IsBroken ∧ d.transaction = some t) ∧
      σ.Line k (some (t, { v with state := .failed })) none c d

namespace State

variable {k : Nat} {u : Option (TransactionId × Transaction)} {s : Option ResultId}
  {c : Connection} {d : Dialogue} {σ : State (Recorded ω)}

theorem Idle.imp {P Q : Dialogue → Prop} (h : σ.Idle P k) (himp : ∀ d, P d → Q d) : σ.Idle Q k :=
  Or.imp id (fun ⟨hk, c, d, hd, hx⟩ => ⟨hk, c, d, himp d hd, hx⟩) h

/-- With nothing reserved, an idle session holds no connection. -/
theorem Idle.bare {P : Dialogue → Prop} (h : σ.Idle P 0) : σ.Stands {} :=
  h.elim id fun ⟨hk, _⟩ => absurd hk (Nat.lt_irrefl 0)

/-- The dialogue of a line is the one on its connection. -/
theorem Line.lent (h : σ.Line k u s c d) : History.dialogue c σ.history = some d := by
  rw [h.loan]
  simp [Standing.dialogue]

theorem Line.idle {P : Dialogue → Prop} (h : σ.Line k none none c d) (hd : P d) :
    σ.Idle P (k + 1) :=
  .inr ⟨Nat.succ_pos k, c, d, hd, h⟩

/-- What is open can be streaming only if there is a stream. -/
theorem Live.busy (h : σ.Live k u s) (something : u ≠ none ∨ s ≠ none) : σ.Busy k u s := by
  unfold Busy
  split
  · simp at something
  · exact h

theorem Busy.live (h : σ.Busy k u s) (something : u ≠ none ∨ s ≠ none) : σ.Live k u s := by
  unfold Busy at h
  split at h
  · simp at something
  · exact h

theorem Live.busy_some {r : ResultId} (h : σ.Live k u (some r)) : σ.Busy k u (some r) :=
  h.busy (.inr (Option.some_ne_none r))

theorem Busy.live_some {r : ResultId} (h : σ.Busy k u (some r)) : σ.Live k u (some r) :=
  h.live (.inr (Option.some_ne_none r))

end State

/-! ## Units and connection -/

section Units

variable {k : Nat} {c : Connection} {d : Dialogue} {σ : State (Recorded ω)}

/-- The connection goes back, if there is one and it is clean. -/
theorem releaseConnection_stands {x : Standing} (h : σ.Stands x)
    (same : x.slot = x.loan.map Prod.fst) (clean : ∀ p, x.loan = some p → p.2.IsClean) :
    (releaseConnection peer.recorded).Ends σ fun _ τ =>
      τ.Stands { x with slot := none, loan := none } := by
  obtain ⟨n, s, u, slot, loan, owed⟩ := x
  rw [releaseConnection, Act.ends_bind, Act.ends_theSession, h.slot]
  cases loan with
  | none =>
    obtain rfl : slot = none := same
    exact h
  | some loan =>
    obtain ⟨c, d⟩ := loan
    obtain rfl : slot = some c := same
    rw [Act.ends_bind, Act.ends_changeSession, Act.ends_bind]
    refine Act.ends_giveBack fun w => Act.ends_note fun w' => ?_
    exact ((h.setSlot none).giveBack rfl (clean (c, d) rfl) w).noted _ w'

/-- While another unit is reserved, the session keeps its connection. -/
theorem endUnit_keeps (another : 1 < σ.session.units) :
    (endUnit peer.recorded).Ends σ fun _ τ => τ.session.connection = σ.session.connection := by
  rw [endUnit, Act.ends_bind, Act.ends_changeSession, Act.ends_bind, Act.ends_theSession,
    if_neg (Nat.sub_ne_zero_of_lt another)]
  exact rfl

theorem endUnit_stands {P : Dialogue → Prop} (h : σ.Idle P (k + 1))
    (clean : ∀ d, P d → d.IsClean) :
    (endUnit peer.recorded).Ends σ fun _ τ => τ.Idle P k := by
  rw [endUnit, Act.ends_bind, Act.ends_changeSession, Act.ends_bind, Act.ends_theSession]
  -- one unit less; the last one gives the connection back
  have counted {x : Standing} (hx : σ.Stands x) (hk : x.units = k + 1) :
      State.Stands { σ with session := { σ.session with units := σ.session.units - 1 } }
        { x with units := k } :=
    hx.setUnits (by rw [hx.units, hk]; rfl)
  cases k with
  | zero =>
    have released {x : Standing} (hx : σ.Stands x) (hk : x.units = 1)
        (same : x.slot = x.loan.map Prod.fst) (clean : ∀ p, x.loan = some p → p.2.IsClean) :
        Act.Ends (if σ.session.units - 1 = 0 then releaseConnection peer.recorded else pure ())
          { σ with session := { σ.session with units := σ.session.units - 1 } } fun _ τ =>
            τ.Stands { x with units := 0, slot := none, loan := none } := by
      rw [if_pos (by rw [hx.units, hk])]
      exact releaseConnection_stands (counted hx hk) same clean
    rcases h with h | ⟨-, c, d, hd, h⟩
    · exact (released h rfl rfl (by simp)).imp fun _ _ => .inl
    · refine (released h rfl rfl fun p e => ?_).imp fun _ _ => .inl
      cases e
      exact clean d hd
  | succ k =>
    have units : σ.session.units = k + 1 + 1 := h.elim (·.units) fun ⟨_, _, _, _, h⟩ => h.units
    rw [if_neg (by rw [units]; exact Nat.succ_ne_zero k)]
    rcases h with h | ⟨-, c, d, hd, h⟩
    · exact .inl (counted h rfl)
    · exact .inr ⟨Nat.succ_pos k, c, d, hd, counted h rfl⟩

/-- After a failure the connection is reset, and not used again. -/
theorem abortUnit_stands (h : σ.Line k none none c d) (hd : d.IsBroken) :
    (abortUnit peer.recorded).Ends σ fun _ τ => τ.Idle Dialogue.IsClean k := by
  have allowed : d.Allows .session .reset := hd.2
  have clean (answer : Except Fault Unit) : (d.after .session .reset answer).IsClean := by
    cases answer <;> exact .inl rfl
  rw [abortUnit, Act.ends_bind, Act.ends_theSession, h.slot]
  rw [Act.ends_bind, Act.ends_run]
  refine Op.ends_send (fun _ w => ?_) fun fault w => ?_
  · have reset := h.message rfl allowed (.ok ()) w hd.1 trivial trivial
    exact endUnit_stands (State.Line.idle reset (clean _)) fun _ h => h
  · rw [Act.ends_bind]
    refine Act.ends_note fun w' => endUnit_stands
      (.inr ⟨Nat.succ_pos k, c, d.after .session .reset (.error fault), clean _, ?_⟩) fun _ h => h
    exact (h.message rfl allowed (.error fault) w hd.1 trivial trivial).noted _ w'

/-- Whatever was reserved, nothing is, and the connection goes back. -/
theorem endAllUnits_stands {x : Standing} (h : σ.Stands x)
    (same : x.slot = x.loan.map Prod.fst) (clean : ∀ p, x.loan = some p → p.2.IsClean) :
    (endAllUnits peer.recorded).Ends σ fun _ τ =>
      τ.Stands { x with units := 0, slot := none, loan := none } := by
  rw [endAllUnits, Act.ends_bind, Act.ends_changeSession]
  exact releaseConnection_stands (h.setUnits rfl) same clean

end Units

/-! ## Bookmarks and target -/

section Target

variable {x : Standing} {σ : State (Recorded ω)}

/-- What an action that leaves the standing fails with. -/
abbrev Faulty (x : Standing) (fault : Fault) (τ : State (Recorded ω)) : Prop :=
  τ.Stands x ∧ Blamed τ.history fault

/-- The bookmarks that new work carries are fetched for it alone, once nothing is owed. -/
theorem bookmarksForWork_fetches (h : σ.Stands x) (settled : x.owed = none) :
    (bookmarksForWork peer.recorded).Ends σ
      (fun b τ => τ.Stands x ∧ Fetched τ.session.config τ.history b) (Faulty x) := by
  have due : σ.session.bookmarks = σ.history.due σ.session.config.bookmarks := by
    have accounted := h.accounted
    rwa [settled] at accounted
  rw [bookmarksForWork, Op.ends_bind, Op.ends_theSession, due]
  split
  · next managed =>
    rw [Op.ends_bind]
    exact Op.ends_askBookmarks
      (fun b w => ⟨h.aside (by trivial) (by trivial) w, fetched_managed managed b σ.history⟩)
      fun fault w => ⟨h.aside (by trivial) (by trivial) w, .here rfl⟩
  · next unmanaged => exact ⟨h, fetched_unmanaged unmanaged σ.history⟩

/-- The bookmarks that new work carries are those that are due, once nothing is owed, and those
    that the manager holds. -/
theorem bookmarksForWork_bears (h : σ.Stands x) (settled : x.owed = none) :
    (bookmarksForWork peer.recorded).Ends σ (fun b τ => Bears τ.session.config τ.history b)
      fun _ _ => True := by
  have due : σ.session.bookmarks = σ.history.due σ.session.config.bookmarks := by
    have accounted := h.accounted
    rwa [settled] at accounted
  rw [bookmarksForWork, Op.ends_bind, Op.ends_theSession]
  split
  · rw [Op.ends_bind]
    refine Op.ends_askBookmarks (fun b w => ⟨?_, fun _ => ⟨b, _, rfl, ?_⟩⟩) fun _ _ => trivial
    · have still := h.still_due (e := .asked .getBookmarks (.ok b)) rfl
      rw [settled] at still
      exact still ▸ Bookmarks.subset_union_left _ b
    · exact Bookmarks.subset_union_right _ b
  · next unmanaged => exact ⟨due ▸ Bookmarks.subset_refl _, fun e => absurd e unmanaged⟩

/-- The session takes in the token that it is owed, whatever the report comes to. -/
theorem takeBookmark?_stands (h : σ.Stands x) (sent : Bookmarks) {token : Option String}
    (owed : x.owed = token) :
    (takeBookmark? peer.recorded sent token).Ends σ (fun _ τ => τ.Stands { x with owed := none })
      (Faulty { x with owed := none }) := by
  cases token with
  | none =>
    obtain ⟨n, s, u, slot, loan, o⟩ := x
    obtain rfl : o = none := owed
    exact h
  | some token =>
    rw [takeBookmark?, takeBookmark, Op.ends_bind, Op.ends_changeSession, Op.ends_bind,
      Op.ends_theSession]
    have taken := h.takeIn owed
    split
    · exact Op.ends_reportBookmarks (fun w => taken.aside (by trivial) (by trivial) w)
        fun fault w => ⟨taken.aside (by trivial) (by trivial) w, .here rfl⟩
    · exact taken

theorem pinDatabase_stands (h : σ.Stands x) (named : Option String) :
    (pinDatabase peer.recorded named).Ends σ fun _ τ => τ.Stands x := by
  cases named with
  | none => exact h
  | some database =>
    rw [pinDatabase, Act.ends_bind, Act.ends_theSession]
    split
    · rw [Act.ends_bind]
      exact Act.ends_note fun w => (h.noted _ w).tend rfl rfl rfl rfl rfl rfl
    · exact h

theorem findHome_stands (h : σ.Stands x) (settled : x.owed = none) (o : Overrides) :
    (findHome peer.recorded o).Ends σ (fun _ τ => τ.Stands x) (Faulty x) := by
  rw [findHome, Op.ends_bind, Op.ends_theSession, Op.ends_bind]
  refine (bookmarksForWork_fetches h settled).imp (fun b τ h => ?_) fun _ _ h => h
  obtain ⟨h, fetched⟩ := h
  rw [Op.ends_bind]
  exact Op.ends_askHomes (fun _ w => h.aside (by trivial) (by exact fetched) w) fun fault w =>
    ⟨h.aside (by trivial) (by exact fetched) w, .here rfl⟩

theorem resolveDatabase_stands (h : σ.Stands x) (settled : x.owed = none) (o : Overrides) :
    (resolveDatabase peer.recorded o).Ends σ (fun _ τ => τ.Stands x) (Faulty x) := by
  rw [resolveDatabase, Op.ends_bind, Op.ends_theSession]
  split
  · exact h
  · exact h
  · split
    · exact h
    · rw [Op.ends_bind]
      refine (findHome_stands h settled o).imp (fun home τ h => ?_) fun _ _ h => h
      have noted {υ : State (Recorded ω)} (h : υ.Stands x) : Op.Ends (do
          liftM (note peer.recorded (.homeResolved home))
          return home : Op (Recorded ω) (Option String)) υ (fun _ τ => τ.Stands x) (Faulty x) := by
        rw [Op.ends_bind, Op.ends_lift]
        exact Act.ends_note fun w => h.noted _ w
      rw [Op.ends_bind, Op.ends_theSession]
      split
      · rw [Op.ends_bind, Op.ends_changeSession]
        exact noted (h.tend rfl rfl rfl rfl rfl rfl)
      · exact noted h

/-- A connection that is borrowed is on loan; one that fails at the greeting has gone back. -/
theorem acquire_stands (h : σ.Stands x) (free : x.loan = none) (settled : x.owed = none)
    (mode : AccessMode) (database user : Option String) (api : Option ApiKind) :
    (acquire peer.recorded mode database user api).Ends σ
      (fun c τ => ∃ d, d.IsAt none none ∧ τ.Stands { x with loan := some (c, d) }) (Faulty x) := by
  have returned : x = { x with loan := none } := by rw [← free]
  rw [acquire, Op.ends_bind, Op.ends_theSession, Op.ends_bind]
  refine (bookmarksForWork_fetches h settled).imp (fun b τ h => ?_) fun _ _ h => h
  obtain ⟨h, fetched⟩ := h
  rw [Op.ends_bind]
  refine Op.ends_borrow (fun c w => ?_) fun fault w =>
    ⟨h.aside (by trivial) (by exact fetched) w, .here rfl⟩
  have new : ({} : Dialogue).IsAt none none := ⟨⟨rfl, rfl⟩, rfl, rfl⟩
  have allowed (kind : ApiKind) : ({} : Dialogue).Allows .session (.telemetry kind) := new.1
  have noted {υ : State (Recorded ω)} (h : υ.Stands { x with loan := some (c, {}) }) :
      Op.Ends (do
        liftM (note peer.recorded (.connectionAcquired mode api))
        return c : Op (Recorded ω) Connection) υ
        (fun c τ => ∃ d, d.IsAt none none ∧ τ.Stands { x with loan := some (c, d) })
        (Faulty x) := by
    rw [Op.ends_bind, Op.ends_lift]
    exact Act.ends_note fun w => ⟨{}, new, h.noted _ w⟩
  dsimp only
  split
  · split
    · rw [Op.ends_bind, Op.ends_attempt]
      refine Op.ends_send
        (fun _ w' => noted ((h.lend free _ c w fetched).message rfl (allowed _) _ w' trivial trivial
          trivial)) fun fault w' => ?_
      rw [Op.ends_bind, Op.ends_lift]
      refine Act.ends_giveBack fun w'' => ⟨?_, Blamed.mono (.here rfl) (List.suffix_cons _ _)⟩
      rw [returned]
      exact ((h.lend free _ c w fetched).message rfl (allowed _) _ w' trivial trivial
        trivial).giveBack rfl (Dialogue.IsAt.isClean new) w''
    · exact noted (h.lend free _ c w fetched)
  · exact noted (h.lend free _ c w fetched)

/-- The session holds a connection, and nothing is open on it. -/
theorem connect_stands {k : Nat} (h : σ.Idle (·.IsAt none none) (k + 1)) (mode : AccessMode)
    (api : ApiKind) (o : Overrides) :
    (connect peer.recorded mode api o).Ends σ (fun _ τ => τ.Live k none none) fun fault τ =>
      τ.Idle (·.IsAt none none) (k + 1) ∧ Blamed τ.history fault := by
  rw [connect, Op.ends_bind, Op.ends_theSession]
  rcases h with h | ⟨-, c, d, hd, h⟩
  · have free : σ.session.hasConnection = false := by rw [Session.hasConnection, h.slot]; rfl
    rw [free, if_neg Bool.false_ne_true, Op.ends_bind]
    refine (resolveDatabase_stands h rfl o).imp (fun _ τ h => ?_) fun _ _ h => ⟨.inl h.1, h.2⟩
    rw [Op.ends_bind]
    refine (acquire_stands h rfl rfl _ _ _ _).imp (fun c υ h => ?_) fun _ _ h => ⟨.inl h.1, h.2⟩
    obtain ⟨d, hd, h⟩ := h
    rw [Op.ends_bind, Op.ends_changeSession]
    exact ⟨by simp, c, d, hd, h.setSlot (some c)⟩
  · have held : σ.session.hasConnection = true := by rw [Session.hasConnection, h.slot]; rfl
    rw [held, if_pos rfl]
    exact ⟨by simp, c, d, hd, h⟩

end Target

end GraphSession
