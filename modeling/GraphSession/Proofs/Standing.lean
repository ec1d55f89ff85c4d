import GraphSession.Proofs.Tokens

/-!
  How a session stands.

  `Standing` is the little that matters of a session for its connection: how many units of work it
  counts, which result is streaming, which transaction is open and in what state, which connection
  it holds, how far the dialogue on the connection on loan has come, and which token was returned
  and not taken in yet.  `State.Stands` says that a state of a session, with the history behind it,
  is what a standing says; it also says that everything in that history was proper, and that new
  work carried its bookmarks.

  Each elementary change of a session, and each request, moves the standing in one way.  These moves
  are the lemmas of this module; what a whole action does is put together from them.
-/

namespace GraphSession

variable {ω : Type}

/-- The transaction that a result belongs to, if it does not stand alone. -/
def Origin.transaction? : Origin → Option TransactionId
  | autoCommit .. => none
  | transaction id => some id

/-! ## Standings -/

/-- What matters of a session for its connection. -/
structure Standing where
  units : Nat := 0
  /-- The result that is streaming. -/
  stream : Option ResultId := none
  /-- The transaction that is open. -/
  transaction : Option (TransactionId × Transaction) := none
  /-- The connection that the session holds. -/
  slot : Option Connection := none
  /-- The connection on loan, and the dialogue on it. -/
  loan : Option (Connection × Dialogue) := none
  /-- The token of a unit that was completed, until the session takes it in. -/
  owed : Option String := none

/-- The dialogue on a connection. -/
def Standing.dialogue (x : Standing) (c : Connection) : Option Dialogue :=
  match x.loan with
  | none => none
  | some (c', d) => if c' = c then some d else none

/-- A session stands, after what happened, as `x` says. -/
structure State.Stands (σ : State (Recorded ω)) (x : Standing) : Prop where
  units : σ.session.units = x.units
  streaming : ∀ r, (σ.session.result r).isStreaming = true ↔ x.stream = some r
  opened : ∀ t v, (σ.session.transaction t = v ∧ v.state.isTerminated = false) ↔
    x.transaction = some (t, v)
  origin : ∀ r, x.stream = some r →
    (σ.session.result r).origin.transaction? = x.transaction.map Prod.fst
  usable : ∀ r, x.stream = some r → (σ.session.result r).unusable? = none
  slot : σ.session.connection = x.slot
  loan : ∀ c, History.dialogue c σ.history = x.dialogue c
  proper : Always Proper σ.history
  /-- The session's own bookmarks, or the token that it has not taken in yet, are those due. -/
  accounted : (x.owed.map .singleton).getD σ.session.bookmarks =
    σ.history.due σ.session.config.bookmarks
  carries : Always (Carries σ.session.config) σ.history
  fresh : Always (CarriesFresh σ.session.config) σ.history

namespace State.Stands

variable {σ : State (Recorded ω)} {x : Standing}

/-- Whatever returns no token leaves due what is due. -/
theorem still_due (h : σ.Stands x) {e : Happening} (untold : e.token? σ.history = none) :
    (x.owed.map .singleton).getD σ.session.bookmarks =
      History.due σ.session.config.bookmarks (e :: σ.history) := by
  rw [h.accounted]
  simp only [History.due, History.latestToken, untold, Option.none_or]

/-! ## Requests -/

/-- Requests that concern no connection leave the standing. -/
theorem aside (h : σ.Stands x) {request : Request} {answer : request.Answer}
    (he : (Happening.asked request answer).IsAside)
    (fresh : CarriesFresh σ.session.config σ.history (.asked request answer)) (w : ω) :
    (σ.heard request answer w).Stands x where
  units := h.units
  streaming := h.streaming
  opened := h.opened
  origin := h.origin
  usable := h.usable
  slot := h.slot
  loan c := by rw [heard_history, History.dialogue, he.lead, h.loan]
  proper := ⟨he.proper _, h.proper⟩
  accounted := h.still_due (he.token? _)
  carries := ⟨he.carries _ _, h.carries⟩
  fresh := ⟨fresh, h.fresh⟩

/-- So do the lines of the journal. -/
theorem noted (h : σ.Stands x) (event : Event) (w : ω) :
    (σ.heard (.note event) () w).Stands x :=
  h.aside (by trivial) (by trivial) w

/-- What the caller does elsewhere leaves the standing. -/
theorem drift (h : σ.Stands x) (w : ω) :
    State.Stands { σ with world := { σ.world with world := w } } x :=
  ⟨h.units, h.streaming, h.opened, h.origin, h.usable, h.slot, h.loan, h.proper, h.accounted,
    h.carries, h.fresh⟩

/-- So does a line of the history that concerns no connection. -/
theorem log (h : σ.Stands x) {e : Happening} (he : e.IsAside) (proper : Proper σ.history e)
    (fresh : CarriesFresh σ.session.config σ.history e) :
    State.Stands { σ with world := σ.world.add e } x where
  units := h.units
  streaming := h.streaming
  opened := h.opened
  origin := h.origin
  usable := h.usable
  slot := h.slot
  loan c := by
    show e.lead c (History.dialogue c σ.history) = x.dialogue c
    rw [he.lead, h.loan]
  proper := ⟨proper, h.proper⟩
  accounted := h.still_due (he.token? _)
  carries := ⟨he.carries _ _, h.carries⟩
  fresh := ⟨fresh, h.fresh⟩

/-- The pool lends a connection when nothing is on loan. -/
theorem lend (h : σ.Stands x) (free : x.loan = none) (request : AcquireRequest) (c : Connection)
    (w : ω) (fetched : Fetched σ.session.config σ.history request.bookmarks) :
    (σ.heard (.acquire request) (.ok c) w).Stands { x with loan := some (c, {}) } where
  units := h.units
  streaming := h.streaming
  opened := h.opened
  origin := h.origin
  usable := h.usable
  slot := h.slot
  loan c' := by
    rw [heard_history, History.dialogue, h.loan]
    simp only [Happening.lead, Standing.dialogue, free]
  proper := ⟨fun c' => by rw [h.loan]; simp [Standing.dialogue, free], h.proper⟩
  accounted := h.still_due rfl
  carries := ⟨trivial, h.carries⟩
  fresh := ⟨fetched, h.fresh⟩

/-- The pool gets the connection on loan back, which is clean. -/
theorem giveBack (h : σ.Stands x) {c : Connection} {d : Dialogue} (lent : x.loan = some (c, d))
    (clean : d.IsClean) (w : ω) : (σ.heard (.release c) () w).Stands { x with loan := none } where
  units := h.units
  streaming := h.streaming
  opened := h.opened
  origin := h.origin
  usable := h.usable
  slot := h.slot
  loan c' := by
    rw [heard_history, History.dialogue, h.loan]
    simp only [Happening.lead, Standing.dialogue, lent]
    by_cases e : c = c' <;> simp [e]
  proper := ⟨⟨d, by rw [h.loan]; simp [Standing.dialogue, lent], clean⟩, h.proper⟩
  accounted := h.still_due rfl
  carries := ⟨trivial, h.carries⟩
  fresh := ⟨trivial, h.fresh⟩

/-- A message that the dialogue allows carries it on.  The token that it is answered is owed to the
    session. -/
theorem message (h : σ.Stands x) {c : Connection} {d : Dialogue} (lent : x.loan = some (c, d))
    {sender : Sender} {m : Message} (allowed : d.Allows sender m) (answer : Except Fault m.Reply)
    (w : ω) (warranted : d.Warrants m)
    (carried : Carries σ.session.config σ.history (.asked (.send c sender m) answer))
    (fresh : CarriesFresh σ.session.config σ.history (.asked (.send c sender m) answer)) :
    (σ.heard (.send c sender m) answer w).Stands
      { x with
        loan := some (c, d.after sender m answer)
        owed := (d.token? m answer).or x.owed } where
  units := h.units
  streaming := h.streaming
  opened := h.opened
  origin := h.origin
  usable := h.usable
  slot := h.slot
  loan c' := by
    rw [heard_history, History.dialogue, h.loan]
    simp only [Happening.lead, Standing.dialogue, lent]
    by_cases e : c = c' <;> simp [e]
  proper := ⟨⟨d, by rw [h.loan]; simp [Standing.dialogue, lent], allowed, warranted⟩, h.proper⟩
  accounted := by
    have told : (Happening.asked (.send c sender m) answer).token? σ.history =
        d.token? m answer := by
      have on : History.dialogue c σ.history = some d := by
        rw [h.loan]
        simp [Standing.dialogue, lent]
      rw [Happening.token?, on]
      rfl
    cases token : d.token? m answer with
    | none => exact h.still_due (told.trans token)
    | some token' =>
      simp only [heard_history, History.due, History.latestToken, told, token, Option.some_or]
      rfl
  carries := ⟨carried, h.carries⟩
  fresh := ⟨fresh, h.fresh⟩

/-! ## Fields of the session -/

/-- Changes beside results, transactions, units, connection and bookmarks leave the standing. -/
theorem tend (h : σ.Stands x) {s : Session} (results : s.results = σ.session.results)
    (transactions : s.transactions = σ.session.transactions) (units : s.units = σ.session.units)
    (connection : s.connection = σ.session.connection)
    (bookmarks : s.bookmarks = σ.session.bookmarks) (config : s.config = σ.session.config) :
    State.Stands { σ with session := s } x where
  units := units.trans h.units
  streaming r := by
    rw [← h.streaming r]
    simp only [Session.result, results]
  opened t state := by
    rw [← h.opened t state]
    simp only [Session.transaction, transactions]
  origin r hr := by
    rw [← h.origin r hr]
    simp only [Session.result, results]
  usable r hr := by
    rw [← h.usable r hr]
    simp only [Session.result, results]
  slot := connection.trans h.slot
  loan := h.loan
  proper := h.proper
  accounted := by
    rw [bookmarks, config]
    exact h.accounted
  carries := by
    rw [config]
    exact h.carries
  fresh := by
    rw [config]
    exact h.fresh

/-- The session takes in the token that it is owed. -/
theorem takeIn (h : σ.Stands x) {token : String} (owed : x.owed = some token) :
    State.Stands { σ with session := { σ.session with bookmarks := .singleton token } }
      { x with owed := none } where
  units := h.units
  streaming := h.streaming
  opened := h.opened
  origin := h.origin
  usable := h.usable
  slot := h.slot
  loan := h.loan
  proper := h.proper
  accounted := by
    have due := h.accounted
    rw [owed] at due
    exact due
  carries := h.carries
  fresh := h.fresh

theorem setUnits (h : σ.Stands x) {n m : Nat} (e : n = m) :
    State.Stands { σ with session := { σ.session with units := n } } { x with units := m } :=
  ⟨e, h.streaming, h.opened, h.origin, h.usable, h.slot, h.loan, h.proper, h.accounted, h.carries,
    h.fresh⟩

theorem setSlot (h : σ.Stands x) (c : Option Connection) :
    State.Stands { σ with session := { σ.session with connection := c } } { x with slot := c } :=
  ⟨h.units, h.streaming, h.opened, h.origin, h.usable, rfl, h.loan, h.proper, h.accounted,
    h.carries, h.fresh⟩

/-! ## Results -/

/-- A change of a result that leaves its stream. -/
theorem changeResult (h : σ.Stands x) {id : ResultId} {r : Result}
    (streaming : r.isStreaming = (σ.session.result id).isStreaming)
    (origin : r.origin = (σ.session.result id).origin)
    (usable : r.isStreaming = true → r.unusable? = (σ.session.result id).unusable?) :
    State.Stands { σ with session := σ.session.setResult id r } x where
  units := h.units
  streaming other := by
    rw [← h.streaming other]
    simp only [Session.result_setResult_eq]
    split
    · next e => rw [streaming, e.1]
    · rfl
  opened := h.opened
  origin other hr := by
    rw [← h.origin other hr]
    simp only [Session.result_setResult_eq]
    split
    · next e => rw [origin, e.1]
    · rfl
  usable other hr := by
    simp only [Session.result_setResult_eq]
    split
    · next e =>
      have was := (h.streaming other).mpr hr
      rw [usable (by rw [streaming, e.1]; exact was), e.1]
      exact h.usable other hr
    · exact h.usable other hr
  slot := h.slot
  loan := h.loan
  proper := h.proper
  accounted := h.accounted
  carries := h.carries
  fresh := h.fresh

/-- The result that is streaming is not streaming any more. -/
theorem closeResult (h : σ.Stands x) {id : ResultId} (hx : x.stream = some id) {r : Result}
    (closed : r.isStreaming = false) :
    State.Stands { σ with session := σ.session.setResult id r } { x with stream := none } where
  units := h.units
  streaming other := by
    have hlt := Session.lt_of_isStreaming ((h.streaming id).mpr hx)
    simp only [Session.result_setResult_eq, reduceCtorEq, iff_false, Bool.not_eq_true]
    split
    · exact closed
    · next e =>
      -- no other result was streaming
      apply Bool.eq_false_iff.mpr
      intro hother
      have : some id = some other := hx.symm.trans ((h.streaming other).mp hother)
      exact e ⟨Option.some.inj this, hlt⟩
  opened := h.opened
  origin := by simp
  usable := by simp
  slot := h.slot
  loan := h.loan
  proper := h.proper
  accounted := h.accounted
  carries := h.carries
  fresh := h.fresh

/-- A new result is streaming. -/
theorem addResult (h : σ.Stands x) (hx : x.stream = none) {r : Result}
    (streaming : r.isStreaming = true)
    (origin : r.origin.transaction? = x.transaction.map Prod.fst) (usable : r.unusable? = none) :
    State.Stands { σ with session := { σ.session with results := σ.session.results ++ [r] } }
      { x with stream := some σ.session.nextResult } where
  units := h.units
  streaming other := by
    simp only [Session.result_add, Option.some.injEq]
    split
    · next e => simp [streaming, e]
    · next e =>
      -- no result was streaming before
      rw [h.streaming other, hx]
      simp [Ne.symm e]
  opened := h.opened
  origin other hr := by
    obtain rfl : σ.session.nextResult = other := Option.some.inj hr
    simp only [Session.result_add, if_true]
    exact origin
  usable other hr := by
    obtain rfl : σ.session.nextResult = other := Option.some.inj hr
    simp only [Session.result_add, if_true]
    exact usable
  slot := h.slot
  loan := h.loan
  proper := h.proper
  accounted := h.accounted
  carries := h.carries
  fresh := h.fresh

/-! ## Transactions -/

/-- A transaction after a change of one: the changed one if it was given out. -/
theorem opened_setTransaction (h : σ.Stands x) {id : TransactionId} (t v : Transaction)
    (other : TransactionId) (was : x.transaction.map Prod.fst = some id) :
    ((σ.session.setTransaction id t).transaction other = v ∧ v.state.isTerminated = false) ↔
      other = id ∧ v = t ∧ t.state.isTerminated = false := by
  obtain ⟨⟨id', old⟩, hx, rfl⟩ := Option.map_eq_some_iff.mp was
  have hopen := (h.opened id' old).mpr hx
  have hlt : id' < σ.session.transactions.length :=
    Session.lt_of_not_isTerminated (by rw [hopen.1]; exact hopen.2)
  rw [Session.transaction_setTransaction_eq]
  split
  · next e =>
    constructor
    · rintro ⟨rfl, ht⟩
      exact ⟨e.1.symm, rfl, ht⟩
    · rintro ⟨-, rfl, ht⟩
      exact ⟨rfl, ht⟩
  · next e =>
    constructor
    · intro hother
      -- no other transaction was open
      have hother := (h.opened other v).mp hother
      rw [hx] at hother
      exact absurd ⟨(Prod.mk.inj (Option.some.inj hother)).1, hlt⟩ e
    · rintro ⟨rfl, -⟩
      exact absurd ⟨rfl, hlt⟩ e

/-- The open transaction changes and stays open. -/
theorem setTransaction (h : σ.Stands x) {id : TransactionId}
    (was : x.transaction.map Prod.fst = some id) {t : Transaction}
    (still : t.state.isTerminated = false) :
    State.Stands { σ with session := σ.session.setTransaction id t }
      { x with transaction := some (id, t) } where
  units := h.units
  streaming := h.streaming
  opened other v := by
    rw [opened_setTransaction h t v other was]
    simp only [Option.some.injEq, Prod.mk.injEq]
    constructor
    · rintro ⟨rfl, rfl, -⟩
      exact ⟨rfl, rfl⟩
    · rintro ⟨rfl, rfl⟩
      exact ⟨rfl, rfl, still⟩
  origin r hr := (h.origin r hr).trans was
  usable := h.usable
  slot := h.slot
  loan := h.loan
  proper := h.proper
  accounted := h.accounted
  carries := h.carries
  fresh := h.fresh

/-- The open transaction is over. -/
theorem endTransaction (h : σ.Stands x) {id : TransactionId}
    (was : x.transaction.map Prod.fst = some id) (quiet : x.stream = none) {t : Transaction}
    (spent : t.state.isTerminated = true) :
    State.Stands { σ with session := σ.session.setTransaction id t }
      { x with transaction := none } where
  units := h.units
  streaming := h.streaming
  opened other v := by
    rw [opened_setTransaction h t v other was, spent]
    simp
  origin r hr := by rw [quiet] at hr; cases hr
  usable r hr := by rw [quiet] at hr; cases hr
  slot := h.slot
  loan := h.loan
  proper := h.proper
  accounted := h.accounted
  carries := h.carries
  fresh := h.fresh

/-- A change of a transaction that was over, and still is, leaves the standing. -/
theorem changeTransaction (h : σ.Stands x) {id : TransactionId} {t : Transaction}
    (was : (σ.session.transaction id).state.isTerminated = true)
    (spent : t.state.isTerminated = true) :
    State.Stands { σ with session := σ.session.setTransaction id t } x where
  units := h.units
  streaming := h.streaming
  opened other v := by
    rw [← h.opened other v, Session.transaction_setTransaction_eq]
    split
    · next e =>
      -- neither the old one nor the new one is open
      constructor
      · rintro ⟨rfl, ht⟩
        rw [spent] at ht
        cases ht
      · rintro ⟨rfl, ht⟩
        rw [← e.1, was] at ht
        cases ht
    · rfl
  origin := h.origin
  usable := h.usable
  slot := h.slot
  loan := h.loan
  proper := h.proper
  accounted := h.accounted
  carries := h.carries
  fresh := h.fresh

/-- A new transaction is open. -/
theorem addTransaction (h : σ.Stands x) (hx : x.transaction = none) (quiet : x.stream = none)
    {t : Transaction} (active : t.state.isTerminated = false) :
    State.Stands
      { σ with session := { σ.session with transactions := σ.session.transactions ++ [t] } }
      { x with transaction := some (σ.session.nextTransaction, t) } where
  units := h.units
  streaming := h.streaming
  opened other v := by
    simp only [Session.transaction_add, Option.some.injEq, Prod.mk.injEq]
    split
    · next e =>
      constructor
      · rintro ⟨rfl, -⟩
        exact ⟨e.symm, rfl⟩
      · rintro ⟨-, rfl⟩
        exact ⟨rfl, active⟩
    · next e =>
      constructor
      · intro hother
        have hother := (h.opened other v).mp hother
        rw [hx] at hother
        cases hother
      · rintro ⟨rfl, -⟩
        exact absurd rfl e
  origin r hr := by rw [quiet] at hr; cases hr
  usable r hr := by rw [quiet] at hr; cases hr
  slot := h.slot
  loan := h.loan
  proper := h.proper
  accounted := h.accounted
  carries := h.carries
  fresh := h.fresh

/-! ## Counting -/

/-- The transaction that a session finds open. -/
theorem transaction_eq (h : σ.Stands x) {id : TransactionId}
    (isOpen : (σ.session.transaction id).state.isTerminated = false) :
    x.transaction = some (id, σ.session.transaction id) :=
  (h.opened id _).mp ⟨rfl, isOpen⟩

/-- Without an open transaction every transaction is over. -/
theorem isTerminated (h : σ.Stands x) {id : TransactionId}
    (other : x.transaction.map Prod.fst ≠ some id) :
    (σ.session.transaction id).state.isTerminated = true := by
  cases isOpen : (σ.session.transaction id).state.isTerminated with
  | true => rfl
  | false => exact absurd (by rw [h.transaction_eq isOpen]; rfl) other

end State.Stands

end GraphSession
