import GraphSession.Proofs.Frame
import GraphSession.Proofs.Independence
import GraphSession.Proofs.Sharing

/-!
  A session's own bookmarks are exactly its own.

  What a session says of its bookmarks is what it was given at the start or the token of its latest
  unit of work that returned one, as the history tells.  Two runs of a session, in surroundings that
  are alike but for what the bookmark manager is found to hold, answer every operation the same.
-/

namespace GraphSession

variable {ω α : Type} {R : ω → ω → Prop} {p q : Peer ω}

/-! ## Callers that cannot tell -/

/-- The code of a transaction function does the same in surroundings that `R` relates. -/
inductive Work.Alike (R : ω → ω → Prop) : Work ω α → Work ω α → Prop
  | done (outcome : Except Fault α) : Alike R (.done outcome) (.done outcome)
  | call (a : Access) {next next' : Except Fault a.Reply → Work ω α}
    (h : ∀ outcome, Alike R (next outcome) (next' outcome)) :
    Alike R (.call a next) (.call a next')
  | look {next next' : ω → Work ω α} (h : ∀ w v, R w v → Alike R (next w) (next' v)) :
    Alike R (.look next) (.look next')
  | change {f g : ω → ω} {rest rest' : Work ω α} (hf : ∀ w v, R w v → R (f w) (g v))
    (h : Alike R rest rest') : Alike R (.change f rest) (.change g rest')

namespace Work.Alike

theorem andThen {β : Type} {x y : Work ω α} (h : x.Alike R y)
    {next next' : Except Fault α → Work ω β}
    (hn : ∀ outcome, (next outcome).Alike R (next' outcome)) :
    (x.andThen next).Alike R (y.andThen next') := by
  induction h with
  | done outcome => exact hn outcome
  | call a h ih => exact .call a ih
  | look h ih => exact .look ih
  | change hf h ih => exact .change hf ih

theorem bind {β : Type} {x y : Work ω α} (h : x.Alike R y) {next next' : α → Work ω β}
    (hn : ∀ a, (next a).Alike R (next' a)) : (x >>= next).Alike R (y >>= next') := by
  refine h.andThen fun outcome => ?_
  cases outcome with
  | ok a => exact hn a
  | error fault => exact .done _

theorem access (a : Access) : (Work.access a : Work ω a.Reply).Alike R (Work.access a) :=
  .call a fun _ => .done _

theorem eager (id : TransactionId) (source : QuerySource) (params : Option Params) :
    (Work.eager id source params : Work ω EagerResult).Alike R (Work.eager id source params) :=
  .bind (.access _) fun _ => .bind (.access _) fun _ => .bind (.access _) fun _ =>
    .bind (.access _) fun _ => .done _

end Work.Alike

/-- A transaction function that does the same in surroundings that `R` relates. -/
def TransactionFunction.Respects (R : ω → ω → Prop) (work : TransactionFunction ω α) : Prop :=
  ∀ calls id, (work calls id).Alike R (work calls id)

/-- An operation whose caller does the same in surroundings that `R` relates. -/
def Operation.Respects (R : ω → ω → Prop) : Operation ω → Prop
  | .execute _ _ _ work | .executeRenamed _ _ work | .executeBlocking _ _ _ work => work.Respects R
  | .elsewhere f => ∀ w v, R w v → R (f w) (f v)
  | .run .. | .beginTransaction _ | .executeQuery .. | .lastBookmarks | .lastBookmark | .serverInfo
  | .close | .access _ => True

/-! ## Twins of transaction functions -/

section Twins

variable (alike : Peer.Alike R p q)

include alike

theorem Work.perform_twins {x y : Work ω α} (h : x.Alike R y) :
    Op.Twins R Eq (x.recorded.perform p.recorded) (y.recorded.perform q.recorded) := by
  induction h with
  | done outcome => exact .andThen (.log _) fun _ => .settleOn outcome
  | call a h ih =>
    exact .attemptThen (a.perform_twins alike) fun outcome => .andThen (.log _) fun _ => ih outcome
  | look h ih => exact fun σ τ twin => ih _ _ twin.world σ τ twin
  | change hf h ih => exact .andThen (.drift hf) fun _ => ih

section Functions

variable {work : TransactionFunction ω α} (respects : work.Respects R) (options : ExecuteOptions)

theorem prepareExecute_twins :
    Op.Twins R Eq (prepareExecute p.recorded) (prepareExecute q.recorded) :=
  .andThen checkOpen_twins fun _ => .andThen (reapTransaction_twins alike) fun _ =>
    bufferAutoResult_twins alike

theorem decide_twins (backoff : Backoff) (fault : Fault) :
    Act.Twins R Eq (decide p.recorded backoff fault) (decide q.recorded backoff fault) :=
  .andThen (ask_twins alike (r := .readClock) (.pausing trivial)) fun _ =>
    .andThen (ask_twins alike (r := .drawSample) (.pausing trivial)) fun _ => .pure rfl

include respects in
theorem attemptOnce_twins (calls : Nat) :
    Act.Twins R Eq
      (attemptOnce p.recorded options (TransactionFunction.recorded work) calls)
      (attemptOnce q.recorded options (TransactionFunction.recorded work) calls) := by
  refine .run_bind (openTransaction_twins alike _ _ _ _) fun outcome => ?_
  cases outcome with
  | error fault => exact .pure rfl
  | ok id =>
    exact .run_bind (Work.perform_twins alike (respects calls id)) fun outcome =>
      .run_bind (settle_twins alike id outcome) fun _ => .pure rfl

include respects in
theorem attemptFrom_twins (patience calls : Nat) (backoff : Backoff) :
    Act.Twins R Eq
      (attemptFrom p.recorded options (TransactionFunction.recorded work) patience calls backoff)
      (attemptFrom q.recorded options (TransactionFunction.recorded work) patience calls
        backoff) := by
  induction patience generalizing calls backoff with
  | zero => exact .pure rfl
  | succ patience ih =>
    refine .andThen (attemptOnce_twins alike respects options calls) fun given => ?_
    obtain ⟨outcome, calls⟩ := given
    cases outcome with
    | ok a => exact .pure rfl
    | error fault =>
      refine .andThen (decide_twins alike backoff fault) fun given => ?_
      obtain ⟨decision, backoff⟩ := given
      cases decision with
      | giveUp fault => exact .pure rfl
      | retryAfter delay =>
        exact .andThen (note_twins alike _) fun _ =>
          .andThen (ask_twins alike (r := .sleep delay) (.pausing trivial)) fun _ =>
            ih calls backoff

include respects in
theorem executeWith_twins (patience : Nat) :
    Act.Twins R Eq
      (executeWith p.recorded options patience (TransactionFunction.recorded work))
      (executeWith q.recorded options patience (TransactionFunction.recorded work)) := by
  refine .run_bind (prepareExecute_twins alike) fun outcome => ?_
  cases outcome with
  | error fault => exact .pure rfl
  | ok _ =>
    exact .andThen (ask_twins alike (r := .readClock) (.pausing trivial)) fun now =>
      .read (fun _ => rfl) (fun _ => rfl) fun _ => attemptFrom_twins alike respects options _ _ _

theorem executeQuery_twins (source : QuerySource) (params : Option Params) (mode : AccessMode)
    (patience : Nat) :
    Act.Twins R Eq
      (executeQueryWith p.recorded source mode patience fun query =>
        TransactionFunction.recorded fun _ id => .eager id (.query query) params)
      (executeQueryWith q.recorded source mode patience fun query =>
        TransactionFunction.recorded fun _ id => .eager id (.query query) params) := by
  unfold executeQueryWith
  split
  · exact .pure rfl
  · exact executeWith_twins alike (fun _ id => .eager id _ params) _ patience

theorem afterFailure_twins (calls : Nat) (backoff : Backoff) (fault : Fault) :
    Act.Twins R Eq (Blocking.afterFailure (α := α) p.recorded calls backoff fault)
      (Blocking.afterFailure q.recorded calls backoff fault) := by
  refine .andThen (decide_twins alike backoff fault) fun given => ?_
  obtain ⟨decision, backoff⟩ := given
  cases decision with
  | giveUp fault => exact .pure rfl
  | retryAfter delay =>
    exact .andThen (note_twins alike _) fun _ =>
      .andThen (ask_twins alike (r := .sleep delay) (.pausing trivial)) fun _ => .pure rfl

include respects in
theorem step_twins (progress : Blocking.Progress α) :
    Act.Twins R Eq
      (Blocking.step p.recorded options (TransactionFunction.recorded work) progress)
      (Blocking.step q.recorded options (TransactionFunction.recorded work) progress) := by
  cases progress with
  | finished outcome => exact .pure rfl
  | trying calls backoff =>
    refine .run_bind (openTransaction_twins alike _ _ _ _) fun outcome => ?_
    cases outcome with
    | error fault => exact afterFailure_twins alike calls backoff fault
    | ok id =>
      refine .run_bind (Work.perform_twins alike (respects calls id)) fun outcome =>
        .run_bind (settle_twins alike id outcome) fun settled => ?_
      cases settled with
      | ok a => exact .pure rfl
      | error fault => exact afterFailure_twins alike _ backoff fault

include respects in
theorem drive_twins (patience : Nat) (progress : Blocking.Progress α) :
    Act.Twins R Eq
      (Blocking.drive p.recorded options (TransactionFunction.recorded work) patience progress)
      (Blocking.drive q.recorded options (TransactionFunction.recorded work) patience
        progress) := by
  induction patience generalizing progress with
  | zero => exact .pure rfl
  | succ patience ih =>
    cases progress with
    | finished outcome => exact .pure rfl
    | trying calls backoff =>
      exact .andThen (step_twins alike respects options _) fun progress => ih progress

include respects in
theorem executeBlocking_twins (mode : AccessMode) (config : TransactionConfig) (patience : Nat) :
    Act.Twins R Eq
      (Blocking.execute p.recorded mode config patience (TransactionFunction.recorded work))
      (Blocking.execute q.recorded mode config patience (TransactionFunction.recorded work)) := by
  have begun : Act.Twins R Eq (Blocking.begin (α := α) p.recorded) (Blocking.begin q.recorded) := by
    refine .run_bind (prepareExecute_twins alike) fun outcome => ?_
    cases outcome with
    | error fault => exact .pure rfl
    | ok _ =>
      exact .andThen (ask_twins alike (r := .readClock) (.pausing trivial)) fun now =>
        .read (fun _ => rfl) (fun _ => rfl) fun _ => .pure rfl
  exact .andThen begun fun start => .andThen (drive_twins alike respects _ patience start)
    fun _ => .pure rfl

end Functions

/-- Every operation of a caller who cannot tell the surroundings apart is answered the same. -/
theorem Operation.perform_twins (op : Operation ω) (respects : op.Respects R) :
    Act.Twins R Eq (op.perform p) (op.perform q) := by
  have settled {β : Type} {x y : Op (Recorded ω) β} (h : Op.Twins R Eq x y) :
      Act.Twins R Eq (concluded x) (concluded y) := .run_bind h fun _ => .pure rfl
  cases op with
  | run source params => exact settled (run_twins alike source params)
  | beginTransaction config => exact settled (beginTransaction_twins alike config)
  | execute mode config patience work => exact executeWith_twins alike respects _ patience
  | executeRenamed mode patience work =>
    exact .andThen (note_twins alike _) fun _ => executeWith_twins alike respects _ patience
  | executeQuery source params mode patience =>
    exact executeQuery_twins alike source params mode patience
  | executeBlocking mode config patience work =>
    exact executeBlocking_twins alike respects mode config patience
  | lastBookmarks => exact settled (lastBookmarks_twins alike)
  | lastBookmark => exact settled (lastBookmark_twins alike)
  | serverInfo => exact settled (serverInfo_twins alike)
  | close => exact settled (.lift (close_twins alike))
  | access a => exact .andThen (a.performTold_twins alike) fun _ => .pure rfl
  | elsewhere f => exact fun σ τ twin => ⟨rfl, twin.session, respects _ _ twin.world⟩

/-- The same operations lead twins to twins. -/
theorem play_twins (config : SessionConfig) {w v : ω} (start : R w v) {ops : List (Operation ω)}
    (respects : ∀ op ∈ ops, op.Respects R) :
    State.Twin R (play p config w ops) (play q config v ops) := by
  unfold play
  have from_any (σ τ : State (Recorded ω)) (twin : State.Twin R σ τ) :
      State.Twin R (ops.foldl (Operation.after p) σ) (ops.foldl (Operation.after q) τ) := by
    induction ops generalizing σ τ with
    | nil => exact twin
    | cons op rest ih =>
      have next := (op.perform_twins alike (respects op List.mem_cons_self) σ τ twin).2
      exact ih (fun op mem => respects op (List.mem_cons_of_mem _ mem)) _ _ next
  exact from_any _ _ ⟨rfl, start⟩

end Twins

/-! ## The session's own bookmarks -/

theorem Bookmarks.latest_due (seed : Bookmarks) (h : History) :
    (h.due seed).latest = (History.latestToken h).or seed.latest := by
  unfold History.due
  cases History.latestToken h <;> rfl

section Own

variable {peer : Peer ω} {σ : State (Recorded ω)} {k : Nat}
  {u : Option (TransactionId × Transaction)} {s : Option ResultId}

/-- Nothing is owed while something is open, so the session has the bookmarks that are due. -/
theorem State.Busy.own (h : σ.Busy k u s) :
    σ.session.bookmarks = σ.history.due σ.session.config.bookmarks := by
  cases u with
  | some p =>
    obtain ⟨_, _, _, _, h⟩ := h.live (.inl (Option.some_ne_none p))
    exact h.accounted
  | none =>
    cases s with
    | none =>
      rcases h with h | ⟨_, _, _, _, h⟩
      · exact h.accounted
      · exact h.accounted
    | some r =>
      obtain ⟨_, _, _, _, h⟩ := h.live_some
      exact h.accounted

theorem State.Down.own (h : σ.Down k u) :
    σ.session.bookmarks = σ.history.due σ.session.config.bookmarks := by
  cases u with
  | none =>
    rcases h with h | ⟨_, _, _, _, h⟩
    · exact h.accounted
    · exact h.accounted
  | some p =>
    obtain ⟨_, _, _, h⟩ := h
    exact h.accounted

theorem State.Rests.own (h : σ.Rests) :
    σ.session.bookmarks = σ.history.due σ.session.config.bookmarks := by
  obtain ⟨u, s, h⟩ := h
  rcases h.steady with busy | busy | down
  · exact busy.own
  · exact busy.own
  · exact down.own

/-- Who asks for the bookmarks of a session is given those that it has then. -/
theorem lastBookmarks_tells (σ : State (Recorded ω)) :
    (lastBookmarks peer.recorded).Ends σ (fun b τ => b = τ.session.bookmarks) fun _ _ => True := by
  rw [lastBookmarks, Op.ends_bind, Op.ends_theSession]
  dsimp only
  cases σ.session.autoResult with
  | none => rfl
  | some id =>
    rw [Op.ends_bind]
    have anyway : (bufferAll peer.recorded id).Ends σ (fun _ _ => True) fun _ _ => True :=
      Op.ends_of_exec (R := fun _ _ => True) (s := σ) trivial
    exact anyway.imp (fun _ τ _ => rfl) fun _ _ _ => trivial

theorem lastBookmark_tells (σ : State (Recorded ω)) :
    (lastBookmark peer.recorded).Ends σ (fun token τ => token = τ.session.bookmarks.latest)
      fun _ _ => True := by
  rw [lastBookmark, Op.ends_bind, Op.ends_lift]
  refine Act.ends_note fun w => ?_
  rw [Op.ends_bind]
  refine (lastBookmarks_tells _).imp (fun b τ told => ?_) fun _ _ _ => trivial
  rw [told]
  rfl

/-- Whenever the session tells its bookmarks, they are its own: what it was given at the start, or
    the token of the latest of its units of work that returned one. -/
structure State.Owns (peer : Peer ω) (seed : Bookmarks) (σ : State (Recorded ω)) : Prop where
  bookmarks : σ.session.bookmarks = σ.history.due seed
  lastBookmarks : ∀ b, ((Operation.perform peer .lastBookmarks).exec σ).1 = some (.ok b) →
    b = (Operation.after peer σ .lastBookmarks).history.due seed
  lastBookmark : ∀ token, ((Operation.perform peer .lastBookmark).exec σ).1 = some (.ok token) →
    token = (History.latestToken (Operation.after peer σ .lastBookmark).history).or seed.latest

end Own

/-- The session has the same bookmarks in both surroundings, and answers the same to callers who
    cannot tell the surroundings apart. -/
structure State.Indistinct (R : ω → ω → Prop) (p q : Peer ω) (σ τ : State (Recorded ω)) :
    Prop where
  bookmarks : σ.session.bookmarks = τ.session.bookmarks
  answers : ∀ op : Operation ω, op.Respects R →
    ((op.perform p).exec σ).1 = ((op.perform q).exec τ).1

/-- After every sequence of operations a session's bookmarks are its own; and in surroundings that
    are alike, but for what the bookmark manager is found to hold, it has the same bookmarks and
    answers every operation the same. -/
theorem play_ownBookmarks (peer : Peer ω) (config : SessionConfig) (w : ω)
    (ops : List (Operation ω)) :
    (play peer config w ops).Owns peer config.bookmarks ∧
      ∀ (R : ω → ω → Prop) (other : Peer ω) (v : ω), peer.Alike R other → R w v →
        (∀ op ∈ ops, op.Respects R) →
          State.Indistinct R peer other (play peer config w ops) (play other config v ops) := by
  refine ⟨?_, fun R other v alike start respects => ?_⟩
  · generalize reached : play peer config w ops = σ
    have rests : σ.Rests := reached ▸ play_rests peer config w ops
    have configured : σ.session.config = config :=
      reached ▸ (configured_kept config).play (fun _ => rfl) w ops
    have own (op : Operation ω) : (Operation.after peer σ op).session.bookmarks =
        (Operation.after peer σ op).history.due config.bookmarks := by
      have settled : (Operation.after peer σ op).Rests := (op.perform_rests rests).1
      have kept : (Operation.after peer σ op).session.config = config :=
        (configured_kept config).operation configured op
      rw [settled.own, kept]
    refine ⟨by rw [rests.own, configured], fun b answered => ?_, fun token answered => ?_⟩
    · have asked : Op.exec (lastBookmarks peer.recorded) σ =
          (.ok b, Operation.after peer σ .lastBookmarks) := Prod.ext (Option.some.inj answered) rfl
      rw [(lastBookmarks_tells σ).of_ok asked, own]
    · have asked : Op.exec (lastBookmark peer.recorded) σ =
          (.ok token, Operation.after peer σ .lastBookmark) :=
        Prod.ext (Option.some.inj answered) rfl
      rw [(lastBookmark_tells σ).of_ok asked, own, Bookmarks.latest_due]
  · have twin := play_twins alike config start respects
    exact ⟨Session.twin_sees twin.session fun _ => rfl, fun op cannotTell =>
      (op.perform_twins alike cannotTell _ _ twin).1⟩

/-! ## Two keepers -/

/-- A server that completes its transactions with a token, whatever bookmarks the keeper is found to
    hold. -/
theorem finding_alike (token : String) :
    (finding token).Alike (fun _ _ => True) (finding token) where
  routing := rfl
  answer := by
    intro r r' Q alike w v _
    refine ⟨?_, trivial⟩
    cases alike with
    | acquire => exact .ok rfl
    | findHome => exact .ok rfl
    | getBookmarks => exact .ok trivial
    | updateBookmarks => exact .ok rfl
    | run => exact .ok rfl
    | begin => exact .ok rfl
    | send c sender m => cases m <;> exact .ok rfl
    | release => rfl
    | pausing pausing => cases r <;> first | rfl | cases pausing

/-- A session that commits a transaction while the keeper holds `held`. -/
def committing (held : Bookmarks) : State (Recorded (List Bookmarks)) :=
  play (finding "a") { bookmarks := .singleton "s", hasManager := true } [held, held]
    [.beginTransaction {}, .access (.commit 0)]

/-- The begin carries what the keeper holds, and the session has the token of the commit alone. -/
theorem committing_ownBookmarks :
    ((committing (.singleton "x")).session.transaction 0).sent.toList = ["s", "x"] ∧
      ((committing (.singleton "y")).session.transaction 0).sent.toList = ["s", "y"] ∧
      (committing (.singleton "x")).session.bookmarks = .singleton "a" ∧
      (committing (.singleton "x")).Owns (finding "a") (.singleton "s") ∧
      State.Indistinct (fun _ _ => True) (finding "a") (finding "a")
        (committing (.singleton "x")) (committing (.singleton "y")) := by
  have own := play_ownBookmarks (finding "a") { bookmarks := .singleton "s", hasManager := true }
    [.singleton "x", .singleton "x"] [.beginTransaction {}, .access (.commit 0)]
  have respects (op : Operation (List Bookmarks))
      (mem : op ∈ [.beginTransaction {}, .access (.commit 0)]) :
      op.Respects fun _ _ => True := by
    simp only [List.mem_cons, List.not_mem_nil, or_false] at mem
    rcases mem with rfl | rfl
    · trivial
    · trivial
  exact ⟨rfl, rfl, rfl, own.1,
    own.2 _ _ [.singleton "y", .singleton "y"] (finding_alike "a") trivial respects⟩

end GraphSession
