import GraphSession.Proofs.Delivery
import GraphSession.Proofs.Quiescence
import GraphSession.Proofs.Units

/-!
  What the bookmark manager is told.

  The session keeps what a unit of work bore in the record of its result or of its transaction, for
  as long as other units come and go.  `State.Books` says that these records agree with the history,
  and that every report that is due has been made, except perhaps the latest.  Whatever neither
  opens nor completes a unit leaves the books as they are; what is left to prove is said once for
  each way of opening one and of completing one.

  Whether the result of a query is a unit of its own depends on where the session stands, so queries
  are followed through the situations; everything else keeps the books from any state.
-/

namespace GraphSession

variable {ω α : Type} {peer : Peer ω} {σ τ : State (Recorded ω)}

/-! ## The books of a session -/

/-- The bookmarks that the unit of work of a result bears, if the result is a unit of its own. -/
def Origin.sent? : Origin → Option Bookmarks
  | autoCommit sent _ => some sent
  | transaction _ => none

/-- The session's records agree with the history on what every unit of work bears, and all reports
    that are due were made, but for `pending`. -/
structure State.Books (pending : Option Report) (σ : State (Recorded ω)) : Prop where
  result : ∀ r < σ.session.results.length,
    σ.history.sentBy (.result r) = (σ.session.result r).origin.sent?
  noResult : ∀ r, σ.session.results.length ≤ r → σ.history.sentBy (.result r) = none
  transaction : ∀ t < σ.session.transactions.length,
    σ.history.sentBy (.transaction t) = some (σ.session.transaction t).sent
  balanced : σ.history.Balanced σ.session.config pending
  prompt : Always (Prompt σ.session.config) σ.history

namespace State.Books

variable {pending : Option Report}

/-- What is incidental, and a change after which everything carries what it carried. -/
theorem along (h : σ.Books pending) {later : History} (incidental : ∀ e ∈ later, e.IsIncidental)
    (history : τ.history = later ++ σ.history) (remembers : σ.session.Remembers τ.session) :
    τ.Books pending where
  result r given := by
    rw [remembers.results] at given
    rw [history, History.sentBy_append incidental, remembers.origin]
    exact h.result r given
  noResult r none_given := by
    rw [remembers.results] at none_given
    rw [history, History.sentBy_append incidental]
    exact h.noResult r none_given
  transaction t given := by
    rw [remembers.transactions] at given
    rw [history, History.sentBy_append incidental, remembers.sent]
    exact h.transaction t given
  balanced := by
    rw [history, remembers.config]
    exact History.balanced_append incidental h.balanced
  prompt := by
    rw [history, remembers.config]
    exact History.prompt_append incidental h.balanced h.prompt

/-- The session changes, and nothing happens. -/
theorem tend (h : σ.Books pending) {s : Session} (remembers : σ.session.Remembers s) :
    State.Books pending { σ with session := s } :=
  h.along (by simp) (List.nil_append _).symm remembers

theorem heard (h : σ.Books pending) {request : Request} {answer : request.Answer}
    (incidental : (Happening.asked request answer).IsIncidental) (w : ω) :
    (σ.heard request answer w).Books pending :=
  h.along (List.forall_mem_singleton.mpr incidental) rfl (.same rfl rfl rfl)

/-- A line of the history. -/
theorem log (h : σ.Books pending) {e : Happening} (incidental : e.IsIncidental) :
    State.Books pending { σ with world := σ.world.add e } :=
  h.along (List.forall_mem_singleton.mpr incidental) rfl (.same rfl rfl rfl)

/-- A message that opens no unit of work is answered. -/
theorem answered (h : σ.Books none) (c : Connection) (unit : Sender) (m : Message)
    (answer : Except Fault m.Reply)
    (unopened : ∀ past, (Happening.asked (.send c unit m) answer).opens? past = none) (w : ω) :
    (σ.heard (.send c unit m) answer w).Books
      (Report.due? (σ.history.sentBy unit) (m.token? answer)) := by
  have sent (other : Sender) : History.sentBy other (.asked (.send c unit m) answer :: σ.history) =
      σ.history.sentBy other := by
    rw [History.sentBy, unopened]
  have balanced : History.Balanced σ.session.config
      (Report.due? (σ.history.sentBy unit) (m.token? answer))
      (.asked (.send c unit m) answer :: σ.history) := History.balanced_send h.balanced
  exact ⟨fun r given => (sent _).trans (h.result r given),
    fun r none_given => (sent _).trans (h.noResult r none_given),
    fun t given => (sent _).trans (h.transaction t given), balanced, ⟨_, balanced⟩, h.prompt⟩

/-- The manager is told of the report that is to come. -/
theorem reported {report : Report} (h : σ.Books (some report))
    (managed : σ.session.config.hasManager = true) (answer : Except Fault Unit) (w : ω) :
    (σ.heard (.updateBookmarks report.previous report.new) answer w).Books none := by
  have balanced : History.Balanced σ.session.config none
      (.asked (.updateBookmarks report.previous report.new) answer :: σ.history) :=
    History.balanced_report managed h.balanced
  exact ⟨h.result, h.noResult, h.transaction, balanced, ⟨none, balanced⟩, h.prompt⟩

/-- A unit of work is opened, which the session keeps a record of. -/
theorem opened (h : σ.Books none) {c : Connection} {opener : Sender} {m : Message}
    {reply : m.Reply} {later : History} (incidental : ∀ e ∈ later, e.IsIncidental)
    (history : τ.history = later ++ .asked (.send c opener m) (.ok reply) :: σ.history)
    (config : τ.session.config = σ.session.config)
    (untold : m.token? (.ok reply) = none)
    (result : ∀ r < τ.session.results.length,
      History.sentBy (.result r) (.asked (.send c opener m) (.ok reply) :: σ.history) =
        (τ.session.result r).origin.sent?)
    (noResult : ∀ r, τ.session.results.length ≤ r →
      History.sentBy (.result r) (.asked (.send c opener m) (.ok reply) :: σ.history) = none)
    (transaction : ∀ t < τ.session.transactions.length,
      History.sentBy (.transaction t) (.asked (.send c opener m) (.ok reply) :: σ.history) =
        some (τ.session.transaction t).sent) : τ.Books none := by
  have balanced : History.Balanced σ.session.config none
      (.asked (.send c opener m) (.ok reply) :: σ.history) := by
    refine History.balanced_cons ?_ rfl h.balanced
    rw [Happening.completion?, untold, Report.due?_of_no_token, Option.map_none]
  have prompt : Always (Prompt σ.session.config)
      (.asked (.send c opener m) (.ok reply) :: σ.history) := ⟨⟨none, balanced⟩, h.prompt⟩
  refine ⟨fun r given => ?_, fun r none_given => ?_, fun t given => ?_, ?_, ?_⟩
  · rw [history, History.sentBy_append incidental]
    exact result r given
  · rw [history, History.sentBy_append incidental]
    exact noResult r none_given
  · rw [history, History.sentBy_append incidental]
    exact transaction t given
  · rw [history, config]
    exact History.balanced_append incidental balanced
  · rw [history, config]
    exact History.prompt_append incidental balanced prompt

/-- A transaction was begun, and it is new. -/
theorem begun (h : σ.Books none) {c : Connection} {request : WorkRequest} {named : Option String}
    {v : Transaction} {later : History} (incidental : ∀ e ∈ later, e.IsIncidental)
    (history : τ.history = later ++
      .asked (.send c (.transaction σ.session.nextTransaction) (.begin request)) (.ok named) ::
        σ.history)
    (config : τ.session.config = σ.session.config)
    (results : τ.session.results = σ.session.results)
    (transactions : τ.session.transactions = σ.session.transactions ++ [v])
    (sent : v.sent = request.bookmarks) : τ.Books none := by
  have sentBy (unit : Sender) : History.sentBy unit
      (.asked (.send c (.transaction σ.session.nextTransaction) (.begin request)) (.ok named) ::
        σ.history) = if .transaction σ.session.nextTransaction = unit then some request.bookmarks
          else σ.history.sentBy unit := History.sentBy_opened rfl unit
  refine h.opened incidental history config rfl (fun r given => ?_) (fun r none_given => ?_)
    fun t given => ?_
  · rw [results] at given
    rw [sentBy, if_neg (by simp), h.result r given, Session.result, Session.result, results]
  · rw [results] at none_given
    rw [sentBy, if_neg (by simp), h.noResult r none_given]
  · have added : τ.session.transaction t =
        if t = σ.session.nextTransaction then v else σ.session.transaction t := by
      rw [← Session.transaction_add, Session.transaction, Session.transaction, transactions]
    rw [sentBy, added]
    by_cases new : t = σ.session.nextTransaction
    · rw [if_pos (by rw [new]), if_pos new, sent]
    · have old : t < σ.session.transactions.length := by
        rw [transactions, List.length_append] at given
        exact Nat.lt_of_le_of_ne (Nat.le_of_lt_succ given) new
      rw [if_neg (by simpa using Ne.symm new), if_neg new]
      exact h.transaction t old

/-- A result was started, and it is new.  It is a unit of its own unless a transaction is open. -/
theorem started (h : σ.Books none) {c : Connection} {request : RunRequest} {reply : RunReply}
    {r : Result} {later : History} (incidental : ∀ e ∈ later, e.IsIncidental)
    (history : τ.history = later ++
      .asked (.send c (.result σ.session.nextResult) (.run request)) (.ok reply) :: σ.history)
    (config : τ.session.config = σ.session.config)
    (results : τ.session.results = σ.session.results ++ [r])
    (transactions : τ.session.transactions = σ.session.transactions)
    (sent : r.origin.sent? =
      if σ.history.inTransaction c then none else some request.work.bookmarks) :
    τ.Books none := by
  have sentBy (unit : Sender) : History.sentBy unit
      (.asked (.send c (.result σ.session.nextResult) (.run request)) (.ok reply) :: σ.history) =
        if unit = .result σ.session.nextResult then r.origin.sent? else σ.history.sentBy unit := by
    have nothing : σ.history.sentBy (.result σ.session.nextResult) = none :=
      h.noResult _ (Nat.le_refl _)
    rw [History.sentBy, Happening.opens?, sent]
    by_cases inside : σ.history.inTransaction c = true
    · rw [if_pos inside, if_pos inside]
      by_cases own : unit = .result σ.session.nextResult
      · rw [if_pos own, own]
        exact nothing
      · rw [if_neg own]
    · rw [if_neg inside, if_neg inside]
      by_cases own : unit = .result σ.session.nextResult
      · rw [if_pos own]
        exact if_pos own.symm
      · rw [if_neg own]
        exact if_neg (Ne.symm own)
  have given_iff (other : ResultId) : other < τ.session.results.length ↔
      other < σ.session.results.length ∨ other = σ.session.nextResult := by
    rw [results, List.length_append]
    exact Nat.lt_succ_iff_lt_or_eq
  refine h.opened incidental history config rfl (fun other given => ?_)
    (fun other none_given => ?_) fun t given => ?_
  · rw [sentBy, Session.result_added results]
    by_cases new : other = σ.session.nextResult
    · rw [if_pos (by rw [new]), if_pos new]
    · rw [if_neg (by simpa using new), if_neg new]
      exact h.result other (((given_iff other).mp given).resolve_right new)
  · have not_given : ¬ (other < σ.session.results.length ∨ other = σ.session.nextResult) :=
      fun given => Nat.not_lt.mpr none_given ((given_iff other).mpr given)
    rw [sentBy, if_neg fun e => not_given (.inr (Sender.result.inj e))]
    exact h.noResult other (Nat.not_lt.mp fun given => not_given (.inl given))
  · rw [transactions] at given
    rw [sentBy, if_neg (by simp), h.transaction t given, Session.transaction, Session.transaction,
      transactions]

theorem unmanaged (h : σ.Books pending) (unmanaged : ¬ σ.session.config.hasManager = true)
    (other : Option Report) : σ.Books other :=
  ⟨h.result, h.noResult, h.transaction, h.balanced.unmanaged unmanaged other, h.prompt⟩

end State.Books

/-! ## What keeps the books -/

theorem Session.Remembers.trans {s t u : Session} (h : s.Remembers t) (h' : t.Remembers u) :
    s.Remembers u where
  config := h'.config.trans h.config
  results := h'.results.trans h.results
  origin r := (h'.origin r).trans (h.origin r)
  transactions := h'.transactions.trans h.transactions
  sent t := (h'.sent t).trans (h.sent t)

/-- Everything carries what it carried, and the books are in order. -/
def State.InOrder (σ τ : State (Recorded ω)) : Prop :=
  σ.session.Remembers τ.session ∧ τ.Books none

theorem State.InOrder.after {υ : State (Recorded ω)} (h : τ.InOrder υ)
    (remembers : σ.session.Remembers τ.session) : σ.InOrder υ :=
  ⟨remembers.trans h.1, h.2⟩

/-- If the books were in order, they are. -/
def State.Booked (σ τ : State (Recorded ω)) : Prop := σ.Books none → σ.InOrder τ

theorem State.InOrder.andThen {υ : State (Recorded ω)} (h : σ.InOrder τ) (booked : τ.Booked υ) :
    σ.InOrder υ :=
  (booked h.2).after h.1

instance : IsFrame (State.Booked (ω := ω)) where
  rest _ books := ⟨.same rfl rfl rfl, books⟩
  andThen h h' books := (h books).andThen h'

section Frames

/-- What is asked is incidental. -/
theorem ask_booked {request : Request}
    (incidental : ∀ answer, (Happening.asked request answer).IsIncidental) :
    (ask peer.recorded request).Obeys (State.Booked (ω := ω)) :=
  fun _ books => ⟨.same rfl rfl rfl, books.heard (incidental _) _⟩

theorem endsUnits_booked : EndsUnits peer.recorded (State.Booked (ω := ω)) where
  part _ endsUnits := ask_booked fun answer => .endsUnits endsUnits answer
  tend _ _ remembers books := ⟨remembers, books.tend remembers⟩

theorem clearsUp_booked : ClearsUp peer.recorded (State.Booked (ω := ω)) where
  toEndsUnits := endsUnits_booked
  clear _ clearing := ask_booked fun answer => .clearing clearing answer

theorem fetching_booked : Fetching peer.recorded (State.Booked (ω := ω)) where
  toEndsUnits := endsUnits_booked
  fetch _ fetching := ask_booked fun answer => .fetching fetching answer

/-- The token of a unit that bore `sent` is taken in, and the report that is due is made. -/
theorem takeBookmark?_books {sent : Bookmarks} {token : Option String}
    (h : σ.Books (Report.due? (some sent) token)) :
    (takeBookmark? peer.recorded sent token).Ends σ
      (fun _ τ => σ.InOrder τ) fun _ τ => σ.InOrder τ := by
  cases token with
  | none => exact ⟨.same rfl rfl rfl, h⟩
  | some token =>
    let s : Session := { σ.session with bookmarks := .singleton token }
    have remembers : σ.session.Remembers s := .same rfl rfl rfl
    have taken : State.Books (some ⟨sent, .singleton token⟩) { σ with session := s } :=
      h.tend remembers
    rw [takeBookmark?, takeBookmark, Op.ends_bind, Op.ends_changeSession, Op.ends_bind,
      Op.ends_theSession]
    split
    · next managed =>
      exact Op.ends_reportBookmarks (fun w => ⟨remembers, taken.reported managed _ w⟩)
        fun fault w => ⟨remembers, taken.reported managed _ w⟩
    · next unmanaged => exact ⟨remembers, taken.unmanaged unmanaged none⟩

/-- A unit of work that was completed is reported, and then it ends. -/
theorem reportAndEnd_books {sent : Bookmarks} {token : Option String}
    (h : σ.Books (Report.due? (some sent) token)) :
    (reportAndEnd peer.recorded sent token).Ends σ
      (fun _ τ => σ.InOrder τ) fun _ τ => σ.InOrder τ := by
  have ended {τ : State (Recorded ω)} (h : σ.InOrder τ) :
      (endUnit peer.recorded).Ends τ fun _ υ => σ.InOrder υ := by
    refine (endsUnits_booked.endUnit.ends τ).imp ?_
    intro _ υ booked
    exact h.andThen booked
  exact Op.ends_attemptThen.mpr ((takeBookmark?_books h).imp (fun _ _ h => ended h)
    fun _ _ h => ended h)

/-- The unit of work behind a result is complete. -/
theorem completeOrigin_books {summary : Summary} {origin : Origin}
    (h : σ.Books (Report.due? origin.sent? summary.bookmark)) :
    (completeOrigin peer.recorded summary origin).Ends σ
      (fun _ τ => σ.InOrder τ) fun _ τ => σ.InOrder τ := by
  cases origin with
  | transaction t => exact ⟨.same rfl rfl rfl, h⟩
  | autoCommit sent pins =>
    cases pins with
    | false => exact reportAndEnd_books h
    | true =>
      refine Op.ends_bind.mpr (Op.ends_lift.mpr (pinDatabase_ends fun later target w notes => ?_))
      have remembers : σ.session.Remembers { σ.session with target } := .same rfl rfl rfl
      have noted : State.Books (Report.due? (some sent) summary.bookmark)
          { session := { σ.session with target }, world := ⟨w, later ++ σ.history⟩ } :=
        h.along (.notes notes) rfl remembers
      exact (reportAndEnd_books noted).imp (fun _ _ h => h.after remembers)
        fun _ _ h => h.after remembers

/-- The stream of a result ends well, after what the result carried came with the last answer. -/
theorem finishStream_books {id : ResultId} {metadata : Metadata}
    (remembers : σ.session.Remembers τ.session)
    (h : τ.Books (Report.due? (σ.session.result id).origin.sent? (tokenOf metadata))) :
    (finishStream peer.recorded id metadata).Ends τ
      (fun _ υ => σ.InOrder υ) fun _ υ => σ.InOrder υ := by
  rw [← remembers.origin id] at h
  rw [finishStream, Op.ends_bind, Op.ends_theSession, Op.ends_bind, Op.ends_changeResult]
  refine (completeOrigin_books ?_).imp (fun _ _ h => h.after ?_) fun _ _ h => h.after ?_
  · exact h.tend (.setResult rfl)
  · exact remembers.trans (.setResult rfl)
  · exact remembers.trans (.setResult rfl)

/-- What a result is answered that is streaming makes a report due if the result is a unit of its
    own. -/
theorem State.Books.answeredResult (h : σ.Books none) {id : ResultId}
    (streaming : (σ.session.result id).isStreaming = true) (c : Connection) (m : Message)
    (answer : Except Fault m.Reply)
    (unopened : ∀ past, (Happening.asked (.send c (.result id) m) answer).opens? past = none)
    (w : ω) :
    (σ.heard (.send c (.result id) m) answer w).Books
      (Report.due? (σ.session.result id).origin.sent? (m.token? answer)) := by
  rw [← h.result id (Session.lt_of_isStreaming streaming)]
  exact h.answered c _ m answer unopened w

/-- A stream that fails completes no unit. -/
theorem failedStream_inOrder {id : ResultId} {fault : Fault} (h : σ.InOrder τ) :
    (failAfter (failStream peer.recorded id fault) fault : Op (Recorded ω) α).Ends τ
      (fun _ υ => σ.InOrder υ) fun _ υ => σ.InOrder υ := by
  refine Op.ends_failAfter.mpr ((clearsUp_booked.failStream id fault).ends τ |>.imp ?_)
  intro _ υ booked
  exact h.andThen booked

/-- A result that is streaming fetches. -/
theorem fetch_inOrder {id : ResultId} (h : σ.Books none)
    (streaming : (σ.session.result id).isStreaming = true) :
    (fetch peer.recorded id).Ends σ (fun _ τ => σ.InOrder τ) fun _ τ => σ.InOrder τ := by
  rw [fetch, Op.ends_bind, Op.ends_attempt, pullHeld, Op.ends_bind, Op.ends_theSession]
  cases held : σ.session.connection with
  | none =>
    rw [sendHeld, Op.ends_bind, Op.ends_theSession, held]
    exact failedStream_inOrder (α := Bool) ⟨.same rfl rfl rfl, h⟩
  | some c =>
    refine Op.ends_sendHeld held (fun batch w => ?_) fun fault w =>
      failedStream_inOrder (α := Bool) ⟨.same rfl rfl rfl, h.heard (.failed _ _ _ _) w⟩
    have answered : State.Books (Report.due? (σ.session.result id).origin.sent?
        (if batch.more then none else tokenOf batch.metadata))
        (σ.heard (.send c (.result id) (.pull σ.session.fetchSize)) (.ok batch) w) :=
      h.answeredResult streaming c (.pull _) (.ok batch) (fun _ => rfl) w
    dsimp only
    rw [Op.ends_bind, Op.ends_changeResult]
    split
    · next more =>
      rw [if_pos more, Report.due?_of_no_token] at answered
      exact ⟨.setResult rfl, answered.tend (.setResult rfl)⟩
    · next last =>
      rw [if_neg last] at answered
      rw [Op.ends_bind]
      refine (finishStream_books ?_ ?_).imp (fun _ _ h => h) fun _ _ h => h
      · exact .setResult rfl
      · exact answered.tend (.setResult rfl)

/-- What is left of a result is dropped, if it is streaming. -/
theorem discardRest_inOrder (id : ResultId) (h : σ.Books none) :
    (discardRest peer.recorded id).Ends σ (fun _ τ => σ.InOrder τ) fun _ τ => σ.InOrder τ := by
  rw [discardRest, Op.ends_bind, Op.ends_theSession]
  split
  · next streaming =>
    rw [Op.ends_bind, Op.ends_attempt, discardHeld]
    cases held : σ.session.connection with
    | none =>
      rw [sendHeld, Op.ends_bind, Op.ends_theSession, held]
      exact failedStream_inOrder (α := Unit) ⟨.same rfl rfl rfl, h⟩
    | some c =>
      refine Op.ends_sendHeld held (fun metadata w => ?_) fun fault w =>
        failedStream_inOrder (α := Unit) ⟨.same rfl rfl rfl, h.heard (.failed _ _ _ _) w⟩
      have answered : State.Books (Report.due? (σ.session.result id).origin.sent?
          (tokenOf metadata)) (σ.heard (.send c (.result id) .discard) (.ok metadata) w) :=
        h.answeredResult streaming c .discard (.ok metadata) (fun _ => rfl) w
      exact finishStream_books (.same rfl rfl rfl) answered
  · exact ⟨.same rfl rfl rfl, h⟩

theorem reads_booked : Reads peer.recorded (State.Booked (ω := ω)) :=
  endsUnits_booked.reads (fun _ _ streaming books => (fetch_inOrder books streaming).state)
    fun id _ books => (discardRest_inOrder id books).state

/-! ## Commits -/

theorem endResult_booked (id : ResultId) :
    (endResult peer.recorded id).Obeys (State.Booked (ω := ω)) := by
  have endsUnits : EndsUnits peer.recorded (State.Booked (ω := ω)) := endsUnits_booked
  exact .bind (.attempt (reads_booked.discardRest id)) fun _ =>
    .bind (endsUnits.changeOp fun _ => .setResult rfl) fun _ => .settleOn _

theorem endResults_booked (ids : List ResultId) :
    (endResults peer.recorded ids).Obeys (State.Booked (ω := ω)) := by
  induction ids with
  | nil => exact .pure ()
  | cons id rest ih => exact .bind (endResult_booked id) fun _ => ih

/-- The acknowledgement of a commit makes a report due. -/
theorem commitHeld_books {t : TransactionId} (given : t < σ.session.transactions.length)
    (h : σ.Books none) :
    (commitHeld peer.recorded t).Ends σ
      (fun token τ => τ.session = σ.session ∧
        τ.Books (Report.due? (some (σ.session.transaction t).sent) token))
      fun _ τ => σ.InOrder τ := by
  rw [commitHeld]
  cases held : σ.session.connection with
  | none =>
    rw [sendHeld, Op.ends_bind, Op.ends_theSession, held]
    exact ⟨.same rfl rfl rfl, h⟩
  | some c =>
    refine Op.ends_sendHeld held (fun token w => ⟨rfl, ?_⟩) fun fault w =>
      ⟨.same rfl rfl rfl, h.heard (.failed _ _ _ _) w⟩
    rw [← h.transaction t given]
    exact h.answered c _ .commit (.ok token) (fun _ => rfl) w

/-- A transaction that is not over was given out. -/
theorem given_of_refusal? {s : Session} {t : TransactionId} {action : String}
    (allowed : (s.transaction t).refusal? action = none) : t < s.transactions.length := by
  have active := active_of_refusal? allowed
  refine Session.lt_of_not_isTerminated ?_
  rw [active]
  rfl

/-- All that is sent for a commit. -/
theorem commitSent_books {t : TransactionId} (given : t < σ.session.transactions.length)
    (h : σ.InOrder τ) (ids : List ResultId) :
    Op.Ends (do
      endResults peer.recorded ids
      commitHeld peer.recorded t : Op (Recorded ω) (Option String)) τ
      (fun token υ => σ.session.Remembers υ.session ∧
        υ.Books (Report.due? (some (σ.session.transaction t).sent) token))
      fun _ υ => σ.InOrder υ := by
  rw [Op.ends_bind]
  refine ((endResults_booked ids).ends τ).imp ?_ fun _ _ booked => h.andThen booked
  intro _ υ booked
  obtain ⟨remembers, books⟩ := h.andThen booked
  refine (commitHeld_books (remembers.transactions ▸ given) books).imp ?_
    fun _ _ h => h.after remembers
  rintro token φ ⟨same, books⟩
  rw [remembers.sent] at books
  exact ⟨same ▸ remembers, books⟩

theorem commit_booked (t : TransactionId) :
    (commit peer.recorded t).Obeys (State.Booked (ω := ω)) := by
  have clearsUp : ClearsUp peer.recorded (State.Booked (ω := ω)) := clearsUp_booked
  intro σ books
  refine Op.Ends.state ?_
  rw [commit, Op.ends_bind, Op.ends_theSession, Op.ends_bind, Op.ends_failIf]
  refine ⟨fun allowed => ?_, fun _ _ => ⟨.same rfl rfl rfl, books⟩⟩
  have given := given_of_refusal? allowed
  rw [Op.ends_bind, takeResults, Op.ends_bind, Op.ends_theSession, Op.ends_bind,
    Op.ends_changeTransaction, Op.ends_pure, Op.ends_bind, Op.ends_attempt]
  let emptied : Transaction := { σ.session.transaction t with results := [] }
  have taken : σ.InOrder { σ with session := σ.session.setTransaction t emptied } :=
    ⟨.setTransaction rfl, books.tend (.setTransaction rfl)⟩
  refine (commitSent_books given taken _).imp ?_ ?_
  · rintro token τ ⟨remembers, books⟩
    dsimp only
    rw [Op.ends_bind, setState, Op.ends_changeTransaction]
    refine (reportAndEnd_books ?_).imp (fun _ _ h => h.after ?_) fun _ _ h => h.after ?_
    · exact books.tend (.setTransaction rfl)
    · exact remembers.trans (.setTransaction rfl)
    · exact remembers.trans (.setTransaction rfl)
  · intro fault τ failed
    have cleared : Op.Obeys (State.Booked (ω := ω)) (do
        setState t .closed
        abortUnit peer.recorded
        throw fault : Op (Recorded ω) Unit) :=
      .bind (clearsUp.setState t _) fun _ => .failAfter clearsUp.abortUnit fault
    exact (cleared.ends τ).imp (fun _ _ booked => failed.andThen booked)
      fun _ _ booked => failed.andThen booked

theorem settle_booked (t : TransactionId) (outcome : Except Fault α) :
    (settle peer.recorded t outcome).Obeys (State.Booked (ω := ω)) := by
  have committed : Op.Obeys (State.Booked (ω := ω)) (do
      let a ← settleOn outcome
      commit peer.recorded t
      return a : Op (Recorded ω) α) :=
    .bind (.settleOn outcome) fun _ => .bind (commit_booked t) fun _ => .pure _
  refine .bind (.attempt committed) fun outcome => ?_
  split
  · exact .pure _
  · exact .failAfter (clearsUp_booked.closeQuietly t) _

/-! ## Openings -/

/-- Bookmarks and a connection are fetched. -/
theorem prepared_booked (mode : AccessMode) (api : ApiKind) (o : Overrides) :
    Op.Obeys (State.Booked (ω := ω)) (do
      let database ← connect peer.recorded mode api o
      let bookmarks ← bookmarksForWork peer.recorded
      return (database, bookmarks) : Op (Recorded ω) (Option String × Bookmarks)) :=
  .bind (fetching_booked.connect mode api o) fun _ =>
    .bind fetching_booked.bookmarksForWork fun _ => .pure _

/-- What clears up after a failure keeps the books. -/
theorem State.Books.failAfter (h : σ.Books none) {act : Act (Recorded ω) Unit}
    (booked : act.Obeys (State.Booked (ω := ω))) (fault : Fault) :
    (failAfter act fault : Op (Recorded ω) α).Ends σ (fun _ τ => τ.Books none)
      fun _ τ => τ.Books none := by
  refine Op.ends_failAfter.mpr ((booked.ends σ).imp ?_)
  intro _ τ booked
  exact (booked h).2

/-- A transaction bears what its begin does. -/
theorem openTransaction_books (h : σ.Books none) (mode : AccessMode) (api : ApiKind)
    (config : TransactionConfig) (holder : Holder) :
    (openTransaction peer.recorded mode api config holder).Ends σ
      (fun _ τ => τ.Books none) fun _ τ => τ.Books none := by
  have reserved : State.Books none
      { σ with session := { σ.session with units := σ.session.units + 1 } } :=
    h.tend (.same rfl rfl rfl)
  rw [openTransaction, Op.ends_bind, beginUnit, Op.ends_changeSession, Op.ends_bind,
    Op.ends_attempt]
  refine ((prepared_booked mode api {}).ends _).imp ?_ fun fault τ booked =>
    (booked reserved).2.failAfter endsUnits_booked.endUnit fault
  rintro ⟨database, bookmarks⟩ τ booked
  obtain ⟨-, books⟩ := booked reserved
  dsimp only
  rw [Op.ends_bind, Op.ends_theSession, Op.ends_bind, Op.ends_attempt, beginHeld]
  cases held : τ.session.connection with
  | none =>
    rw [sendHeld, Op.ends_bind, Op.ends_theSession, held]
    exact books.failAfter (α := TransactionId) clearsUp_booked.abortUnit .noConnection
  | some c =>
    refine Op.ends_sendHeld held (fun named w => ?_) fun fault w =>
      (books.heard (.failed _ _ _ _) w).failAfter clearsUp_booked.abortUnit fault
    dsimp only
    rw [Op.ends_bind, Op.ends_lift]
    refine pinDatabase_ends fun later target w' notes => ?_
    rw [Op.ends_addTransaction]
    exact books.begun (.notes notes) rfl rfl rfl rfl rfl

/-- A result is a unit of its own if no transaction is open, and then it bears what its query
    does. -/
theorem startResult_books (h : σ.Books none) {request : RunRequest} {origin : Origin}
    (sent : ∀ c, σ.session.connection = some c →
      origin.sent? = if σ.history.inTransaction c then none else some request.work.bookmarks) :
    (startResult peer.recorded request origin).Ends σ
      (fun _ τ => τ.Books none) fun _ τ => τ.Books none := by
  rw [startResult, Op.ends_bind, Op.ends_theSession]
  cases held : σ.session.connection with
  | none =>
    rw [Op.ends_bind, Op.ends_attempt, runHeld, sendHeld, Op.ends_bind, Op.ends_theSession, held]
    exact h.failAfter (α := ResultId) (clearsUp_booked.abortOrigin origin) .noConnection
  | some c =>
    rw [Op.ends_bind, Op.ends_attempt]
    refine Op.ends_sendHeld held (fun reply w => ?_) fun fault w =>
      (h.heard (.failed _ _ _ _) w).failAfter (clearsUp_booked.abortOrigin origin) fault
    -- a note about the database may come before the result is there
    have added (r : Result) (own : r.origin = origin) (streaming : r.isStreaming = true)
        {τ : State (Recorded ω)} {later : History} (incidental : ∀ e ∈ later, e.IsIncidental)
        (history : τ.history = later ++
          .asked (.send c (.result σ.session.nextResult) (.run request)) (.ok reply) :: σ.history)
        (config : τ.session.config = σ.session.config)
        (results : τ.session.results = σ.session.results)
        (transactions : τ.session.transactions = σ.session.transactions) :
        Op.Ends (do
          let id ← addResult r
          let _ ← fetch peer.recorded id
          return id : Op (Recorded ω) ResultId) τ
          (fun _ υ => υ.Books none) fun _ υ => υ.Books none := by
      rw [Op.ends_bind, Op.ends_addResult, Op.ends_bind]
      have started : State.Books none
          { τ with session := { τ.session with results := τ.session.results ++ [r] } } :=
        h.started incidental history config (by rw [results]) transactions
          (by rw [own]; exact sent c held)
      have new : (({ τ.session with results := τ.session.results ++ [r] } : Session).result
          τ.session.nextResult) = r := (Session.result_add _ _ _).trans (if_pos rfl)
      refine (fetch_inOrder started ?_).imp (fun _ _ h => h.2) fun _ _ h => h.2
      exact (congrArg Result.isStreaming new).trans streaming
    dsimp only
    split
    · rw [Op.ends_bind, Op.ends_lift]
      refine pinDatabase_ends fun later target w' notes => ?_
      exact added _ rfl rfl (.notes notes) rfl rfl rfl rfl
    · exact added _ rfl rfl (by simp) (List.nil_append _).symm rfl rfl rfl

end Frames

/-! ## Operations -/

section Situations

variable {k : Nat} {u : Option (TransactionId × Transaction)} {s : Option ResultId}
  {t : TransactionId}

/-- Of the connection that is held, the dialogue tells whether a transaction is open. -/
theorem State.Live.inTransaction (h : σ.Live k u s) {c : Connection}
    (held : σ.session.connection = some c) : σ.history.inTransaction c = u.isSome := by
  obtain ⟨-, c', d, ⟨-, own, -⟩, line⟩ := h
  obtain rfl : c' = c := Option.some.inj (line.slot.symm.trans held)
  rw [History.inTransaction, line.lent, Option.any_some, own, Option.isSome_map]

/-- The result of a query in a transaction is no unit of its own. -/
theorem runIn_books (h : σ.Steady u s) (linked : Linked u s) (books : σ.Books none)
    (source : QuerySource) (params : Option Params) :
    (runIn peer.recorded t source params).Ends σ (fun _ τ => τ.Books none)
      fun _ τ => τ.Books none := by
  rw [runIn, Op.ends_bind, Op.ends_settleOn]
  refine ⟨fun query _ => ?_, fun _ _ => books⟩
  rw [Op.ends_bind, Op.ends_theSession, Op.ends_bind, Op.ends_failIf]
  refine ⟨fun allowed => ?_, fun _ _ => books⟩
  obtain ⟨rfl, s', live, latest⟩ := h.active linked (active_of_refusal? allowed)
  have something : some (t, σ.session.transaction t) ≠ none ∨ s' ≠ none :=
    .inl (Option.some_ne_none _)
  have started (request : RunRequest) {τ : State (Recorded ω)} (books : τ.Books none)
      (h : τ.Live 0 (some (t, σ.session.transaction t)) none) : Op.Ends (do
        let result ← startResult peer.recorded request (.transaction t)
        changeTransaction t fun t => { t with results := t.results ++ [result] }
        return result : Op (Recorded ω) ResultId) τ (fun _ υ => υ.Books none)
        fun _ υ => υ.Books none := by
    rw [Op.ends_bind]
    refine (startResult_books books fun c held => ?_).imp ?_ fun _ _ books => books
    · rw [h.inTransaction held]
      rfl
    · intro r υ books
      rw [Op.ends_bind, Op.ends_changeTransaction]
      exact books.tend (.setTransaction rfl)
  dsimp only
  split
  · exact books
  · cases hlast : (σ.session.transaction t).results.getLast? with
    | none =>
      have quiet : s' = none := by
        cases hs' : s' with
        | none => rfl
        | some r => rw [latest hs'] at hlast; cases hlast
      exact started _ books (quiet ▸ live)
    | some r =>
      rw [Op.ends_bind]
      refine ((bufferAll_stands (live.busy something)).and
        ((reads_booked.bufferAll r).ends σ)).imp ?_ fun _ _ h => (h.2 books).2
      rintro _ τ ⟨busy, booked⟩
      have quiet : (if s' = some r then none else s') = none := by
        cases hs' : s' with
        | none => rfl
        | some r' => rw [latest hs'] at hlast; rw [if_pos (by rw [Option.some.inj hlast])]
      rw [quiet] at busy
      exact started _ (booked books).2 (busy.live (.inl (Option.some_ne_none _)))

/-- Every use of a handle keeps the books. -/
theorem Access.perform_books (h : σ.Steady u s) (linked : Linked u s) (books : σ.Books none)
    (a : Access) :
    (a.perform peer.recorded).Ends σ (fun _ τ => τ.Books none) fun _ τ => τ.Books none := by
  have kept {β : Type} {op : Op (Recorded ω) β} (booked : op.Obeys (State.Booked (ω := ω))) :
      op.Ends σ (fun _ τ => τ.Books none) fun _ τ => τ.Books none :=
    (booked.ends σ).imp (fun _ _ booked => (booked books).2) fun _ _ booked => (booked books).2
  have held (t : TransactionId) (allowed : Holder → Bool) :
      Op.Obeys (State.Booked (ω := ω)) (checkHolder t allowed : Op (Recorded ω) Unit) := by
    refine .bind .theSession fun s => ?_
    split
    · exact .throw _
    · exact .pure _
  cases a with
  | run t source params =>
    rw [perform, checkHolder, Op.ends_bind, Op.ends_bind, Op.ends_theSession]
    split
    · exact books
    · exact runIn_books h linked books source params
  | commit t => exact kept (.bind (held t _) fun _ => commit_booked t)
  | rollback t => exact kept (.bind (held t _) fun _ => clearsUp_booked.rollback t)
  | close t => exact kept (.bind (held t _) fun _ => clearsUp_booked.closeTransaction t)
  | drop t => exact kept (.lift (endsUnits_booked.dropHandle t))
  | viewTransaction t => exact books
  | next r => exact kept (reads_booked.next r)
  | peek r => exact kept (reads_booked.peek r)
  | single r => exact kept (reads_booked.single r)
  | collect r => exact kept (reads_booked.collect r)
  | drain r => exact kept (.lift (reads_booked.drain r))
  | consume r => exact kept (reads_booked.consume r)
  | viewResult r => exact books

/-- The result of a query by itself is a unit of its own. -/
theorem run_books (h : σ.Rests) (books : σ.Books none) (source : QuerySource)
    (params : Option Params) :
    (run peer.recorded source params).Ends σ (fun _ τ => τ.Books none)
      fun _ τ => τ.Books none := by
  obtain ⟨u, s, h⟩ := h
  rw [run, Op.ends_bind, Op.ends_settleOn]
  refine ⟨fun query _ => ?_, fun _ _ => books⟩
  rw [Op.ends_bind]
  refine checkOpen_settled ?_ books
  rw [Op.ends_bind]
  refine ((reapTransaction_settled h).and (clearsUp_booked.reapTransaction.ends σ)).imp ?_
    fun _ _ h => (h.2 books).2
  rintro _ τ ⟨⟨s', h⟩, reaped⟩
  have books : τ.Books none := (reaped books).2
  dsimp only
  rw [Op.ends_bind, Op.ends_settleOn]
  refine ⟨fun o _ => ?_, fun _ _ => books⟩
  rw [Op.ends_bind, Op.ends_theSession, Op.ends_bind, beginUnit, Op.ends_changeSession,
    Op.ends_bind, Op.ends_attempt, Op.ends_bind]
  obtain ⟨s'', hs, reserved⟩ := h.steady.reserve
  have auto (r : ResultId) (hr : s'' = some r) : τ.session.autoResult = some r := by
    rcases hs with rfl | rfl
    · exact h.auto r rfl hr
    · cases hr
  have books : State.Books none
      { τ with session := { τ.session with units := τ.session.units + 1 } } :=
    books.tend (.same rfl rfl rfl)
  refine ((bufferAutoResult_stands reserved auto).and
    ((clearsUp_booked.bufferAutoResult reads_booked).ends _)).imp ?_ fun fault _ h =>
      (h.2 books).2.failAfter endsUnits_booked.endUnit fault
  rintro _ υ ⟨idle, buffered⟩
  have books : υ.Books none := (buffered books).2
  rw [Op.ends_bind]
  refine ((connect_stands idle _ _ o).and ((fetching_booked.connect _ _ o).ends υ)).imp ?_
    fun fault _ h => (h.2 books).2.failAfter endsUnits_booked.endUnit fault
  rintro database φ ⟨⟨-, c, d, hd, line⟩, connected⟩
  have books : φ.Books none := (connected books).2
  rw [Op.ends_bind]
  refine ((bookmarksForWork_fetches line rfl).and (fetching_booked.bookmarksForWork.ends φ)).imp ?_
    fun fault _ h => (h.2 books).2.failAfter endsUnits_booked.endUnit fault
  rintro bookmarks χ ⟨⟨line, -⟩, fetched⟩
  have books : χ.Books none := (fetched books).2
  have live : χ.Live 0 none none := ⟨by simp, c, d, hd, line⟩
  rw [Op.ends_pure, Op.ends_bind]
  refine (startResult_books books fun c held => ?_).imp ?_ fun _ _ books => books
  · rw [live.inTransaction held]
    rfl
  · intro r ψ books
    rw [Op.ends_bind, Op.ends_changeSession]
    exact books.tend (.same rfl rfl rfl)

theorem beginTransaction_books (books : σ.Books none) (config : TransactionConfig) :
    (beginTransaction peer.recorded config).Ends σ (fun _ τ => τ.Books none)
      fun _ τ => τ.Books none := by
  rw [beginTransaction, Op.ends_bind]
  refine checkOpen_settled ?_ books
  rw [Op.ends_bind]
  refine (clearsUp_booked.reapTransaction.ends σ).imp ?_ fun _ _ booked => (booked books).2
  intro _ τ booked
  have books : τ.Books none := (booked books).2
  rw [Op.ends_bind, Op.ends_theSession]
  dsimp only
  split
  · exact books
  · rw [Op.ends_bind]
    refine (openTransaction_books books _ _ config _).imp ?_ fun _ _ books => books
    intro t υ books
    rw [Op.ends_bind, Op.ends_changeSession]
    exact books.tend (.same rfl rfl rfl)

/-- A use of a handle that the history tells of keeps the books. -/
theorem Access.performTold_books (h : σ.Steady u s) (linked : Linked u s) (books : σ.Books none)
    (a : Access) : (a.performTold peer).Ends σ fun _ τ => τ.Books none := by
  rw [performTold, Act.ends_bind, Act.ends_run]
  refine (a.perform_books h linked books).imp ?_ ?_
  · intro reply τ books
    exact books.log (.used a (.ok reply))
  · intro fault τ books
    exact books.log (.used a (.error fault))

/-- An operation that runs no transaction function keeps the books. -/
theorem Operation.after_books (h : σ.Rests) (books : σ.Books none) (op : Operation ω)
    (plain : ¬ op.IsFunction) : (op.after peer σ).Books none := by
  have told {β : Type} {x : Op (Recorded ω) β}
      (h : x.Ends σ (fun _ τ => τ.Books none) fun _ τ => τ.Books none) :
      ((concluded x).exec σ).2.Books none := by
    have ended : (concluded x).Ends σ fun _ τ => τ.Books none := by
      rw [concluded, Act.ends_bind, Act.ends_run]
      exact h
    exact ended
  have kept {β : Type} {x : Op (Recorded ω) β} (booked : x.Obeys (State.Booked (ω := ω))) :
      x.Ends σ (fun _ τ => τ.Books none) fun _ τ => τ.Books none :=
    (booked.ends σ).imp (fun _ _ booked => (booked books).2) fun _ _ booked => (booked books).2
  cases op with
  | run source params => exact told (run_books h books source params)
  | beginTransaction config => exact told (beginTransaction_books books config)
  | execute | executeRenamed | executeQuery | executeBlocking => exact absurd trivial plain
  | lastBookmarks => exact told (kept reads_booked.lastBookmarks)
  | lastBookmark =>
    have noted : (GraphSession.lastBookmark peer.recorded).Obeys (State.Booked (ω := ω)) :=
      .bind (.lift (endsUnits_booked.note _)) fun _ => .bind reads_booked.lastBookmarks fun _ =>
        .pure _
    exact told (kept noted)
  | serverInfo => exact told (kept fetching_booked.serverInfo)
  | close => exact told (kept (.lift (clearsUp_booked.close reads_booked)))
  | access a =>
    obtain ⟨u, s, settled⟩ := h
    exact a.performTold_books settled.steady settled.linked books
  | elsewhere f => exact books.along (by simp) (List.nil_append _).symm (.same rfl rfl rfl)

end Situations

/-! ## Every session -/

variable {config : SessionConfig} {w : ω}

/-- Nothing is on record for a new session. -/
theorem State.initial_books (config : SessionConfig) (w : ω) :
    (State.initial config w).Books none where
  result r given := absurd given (Nat.not_lt_zero r)
  noResult _ _ := rfl
  transaction t given := absurd given (Nat.not_lt_zero t)
  balanced := by
    unfold History.Balanced
    split <;> rfl
  prompt := trivial

/-- In every state that a session can come to, its books are in order. -/
theorem Reached.books {phase : Phase} (h : Reached peer config w phase σ) : σ.Books none := by
  have prepares : (prepareExecute peer.recorded).Obeys (State.Booked (ω := ω)) :=
    clearsUp_booked.prepareExecute reads_booked
  induction h with
  | start => exact State.initial_books config w
  | operation op plain before ih => exact op.after_books before.moments.rests ih plain
  | noted event _ ih =>
    have endsUnits : Request.EndsUnit (.note event) := trivial
    exact ih.heard (.endsUnits endsUnits ()) _
  | @prepared σ τ _ e ih =>
    have booked := prepares σ ih
    rw [e] at booked
    exact booked.2
  | @unprepared σ τ fault _ e ih =>
    have booked := prepares σ ih
    rw [e] at booked
    exact booked.2
  | paused request pausing _ ih => exact ih.heard (.pausing pausing _) _
  | opened _ e ih => exact (openTransaction_books ih _ _ _ _).of_ok e
  | unopened _ e ih => exact (openTransaction_books ih _ _ _ _).of_error e
  | called a before ih =>
    obtain ⟨v, s, -, linked, steady⟩ := before.moments.managed
    exact a.performTold_books steady linked ih
  | drifted w' _ ih => exact ih.along (by simp) (List.nil_append _).symm (.same rfl rfl rfl)
  | returned fault _ ih => exact ih.log (.returned fault)
  | settled _ _ ih => exact (settle_booked _ _ _ ih).2
  | done _ ih => exact ih

/-- What a history says of a session's dealings with its bookmark manager. -/
structure History.Reports (config : SessionConfig) (h : History) : Prop where
  /-- Every request that bears bookmarks bears the session's own and what the manager was found to
      hold when it was asked for that request alone, just before. -/
  fresh : Always (CarriesFresh config) h
  /-- No unit of work is completed twice. -/
  once : (h.completed.map Prod.fst).Nodup
  /-- At every time all reports that were due had been made, in their order, and no others, except
      perhaps the latest that was due. -/
  prompt : Always (Prompt config) h
  /-- All that are due have been made. -/
  made : h.reported = if config.hasManager then h.dues else []

/-- After any operations, whatever the surroundings answer and the code of transaction functions
    does, the manager has been asked for its bookmarks for each request that bears any, and it has
    been told of every unit of work that was completed with a token, once and in the order of their
    completion, from the bookmarks that the unit bore to its token; and of no other. -/
theorem play_reports (peer : Peer ω) (config : SessionConfig) (w : ω) (ops : List (Operation ω)) :
    (play peer config w ops).history.Reports config := by
  have proper := play_proper peer config w ops
  have tracked : (play peer config w ops).IsDelivering :=
    delivering_kept.play (State.initial_delivering config) w ops
  have recounts : (play peer config w ops).Recounts :=
    recounts_kept.play (State.initial_recounts config) w ops
  have configured : (play peer config w ops).session.config = config :=
    (configured_kept config).play (fun _ => rfl) w ops
  have books := (reached_play peer config w ops).books
  have balanced := books.balanced
  have prompt := books.prompt
  rw [configured] at balanced prompt
  refine ⟨play_fresh peer config w ops, ?_, prompt, ?_⟩
  · exact History.completed_nodup proper tracked.1.fresh recounts.numbered.once
  · unfold History.Balanced at balanced
    split
    · next managed =>
      rw [if_pos managed] at balanced
      exact balanced.symm
    · next unmanaged =>
      rw [if_neg unmanaged] at balanced
      exact balanced

end GraphSession
