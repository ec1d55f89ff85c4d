import GraphSession.Proofs.Faults
import GraphSession.Proofs.Reading

/-!
  What becomes of a report that fails.

  A unit of work that is complete is reported to the bookmark manager, and the manager may deny the
  report.  The unit ends all the same, but the fault of the report becomes the outcome.

  `History.Accounts` says what an action with a given outcome has to account for.  Either it
  succeeds and no report was denied; or it fails for another reason, and then nobody `kind` has just
  had the last answer; or it fails with the fault of the one report that was denied.
-/

namespace GraphSession

variable {ω α β : Type} {peer : Peer ω} {ρ σ τ υ : State (Recorded ω)}

/-! ## Reports in a history -/

/-- The fault of a report that was denied. -/
def Happening.denial? : Happening → Option Fault
  | asked (.updateBookmarks ..) answer => faultOf? answer
  | _ => none

/-- What trails behind a unit of work: it is reported and cleared up after, the journal is told, and
    a failure is weighed by the clock. -/
def Happening.isTrailing : Happening → Bool
  | asked (.updateBookmarks ..) _ | asked (.release _) _ | asked (.note _) _ => true
  | asked (.send _ _ .reset) _ | asked (.send _ _ .rollback) _ => true
  | asked .readClock _ | asked .drawSample _ => true
  | _ => false

/-- The answer is the last one that a sender waits for: its transaction is committed, or its stream
    has ended. -/
def Message.isLast : (m : Message) → Except Fault m.Reply → Bool
  | .pull _, .ok batch => !batch.more
  | .discard, .ok _ | .commit, .ok _ => true
  | _, _ => false

/-- Who had the last answer. -/
def Happening.completes? : Happening → Option Sender
  | asked (.send _ sender m) answer => if m.isLast answer then some sender else none
  | _ => none

namespace History

/-- The fault of a report that was denied, of which nobody has been told yet. -/
def untold : History → Option Fault
  | [] => none
  | e :: past => if e.isTrailing then e.denial?.or (untold past) else none

/-- Who had the last answer, with nothing after it but what trails behind. -/
def finished? : History → Option Sender
  | [] => none
  | e :: past => if e.isTrailing then finished? past else e.completes?

theorem untold_append {past : History} (told : past.untold = none) (later : History) :
    untold (later ++ past) = untold later := by
  induction later with
  | nil => exact told
  | cons e later ih => rw [List.cons_append, untold, untold, ih]

/-- Who finished in two parts of a history finished in one of them. -/
theorem finished?_append (later past : History) :
    finished? (later ++ past) = finished? later ∨ finished? (later ++ past) = finished? past := by
  induction later with
  | nil => exact .inr rfl
  | cons e later ih =>
    rw [List.cons_append, finished?, finished?]
    split
    · exact ih
    · exact .inl rfl

end History

/-- Something that was asked, unless it is a report that was denied. -/
def Happening.IsDealing : Happening → Prop
  | e@(asked ..) => e.denial? = none
  | _ => False

/-- As `IsDealing`, and nobody had the last answer. -/
structure Happening.IsMinor (e : Happening) : Prop where
  dealing : e.IsDealing
  uncompleted : e.completes? = none

theorem Happening.IsDealing.undenied {e : Happening} (h : e.IsDealing) : e.denial? = none := by
  cases e with
  | asked request answer => exact h
  | used | returned => cases h

namespace Request

variable {request : Request}

theorem ClearsUp.minor (h : request.ClearsUp) (answer : request.Answer) :
    (Happening.asked request answer).IsMinor := by
  cases request with
  | release | note => exact ⟨rfl, rfl⟩
  | send c sender m => cases m <;> first | exact ⟨rfl, rfl⟩ | cases h
  | _ => cases h

theorem ClearsUp.trailing (h : request.ClearsUp) (answer : request.Answer) :
    (Happening.asked request answer).isTrailing = true := by
  cases request with
  | release | note => rfl
  | send c sender m => cases m <;> first | rfl | cases h
  | _ => cases h

theorem IsFetching.minor (h : request.IsFetching) (answer : request.Answer) :
    (Happening.asked request answer).IsMinor := by
  cases request with
  | getBookmarks | findHome | acquire => exact ⟨rfl, rfl⟩
  | send c sender m => cases m <;> first | exact ⟨rfl, rfl⟩ | cases h
  | _ => cases h

end Request

/-- A message that fails is nobody's last. -/
theorem Happening.minor_of_failed (c : Connection) (sender : Sender) (m : Message) (fault : Fault) :
    (Happening.asked (.send c sender m) (.error fault)).IsMinor := by
  refine ⟨rfl, ?_⟩
  cases m <;> rfl

theorem Happening.IsCleanup.minor {e : Happening} (h : e.IsCleanup) : e.IsMinor := by
  cases e with
  | asked request answer => exact Request.ClearsUp.minor h answer
  | used | returned => cases h

theorem Happening.IsCleanup.trailing {e : Happening} (h : e.IsCleanup) : e.isTrailing = true := by
  cases e with
  | asked request answer => exact Request.ClearsUp.trailing h answer
  | used | returned => cases h

/-! ## Nothing to account for -/

namespace History

/-- No fault is untold, and nobody `kind` has just finished. -/
structure Calm (kind : Sender → Prop) (h : History) : Prop where
  told : h.untold = none
  unfinished : ∀ unit, h.finished? = some unit → ¬ kind unit

variable {kind : Sender → Prop} {later past h : History} {fault : Fault}

theorem untold_of_dealing (dealing : ∀ e ∈ h, e.IsDealing) : h.untold = none := by
  induction h with
  | nil => rfl
  | cons e past ih =>
    rw [untold, (dealing e List.mem_cons_self).undenied,
      ih fun e he => dealing e (List.mem_cons_of_mem _ he)]
    exact ite_self _

theorem finished?_of_minor (minor : ∀ e ∈ h, e.IsMinor) : h.finished? = none := by
  induction h with
  | nil => rfl
  | cons e past ih =>
    rw [finished?, (minor e List.mem_cons_self).uncompleted,
      ih fun e he => minor e (List.mem_cons_of_mem _ he)]
    exact ite_self _

theorem calm_of_minor (minor : ∀ e ∈ h, e.IsMinor) : h.Calm kind where
  told := untold_of_dealing fun e he => (minor e he).dealing
  unfinished unit finished := by
    rw [finished?_of_minor minor] at finished
    cases finished

/-- If nobody at all has just finished, nobody of a kind has. -/
theorem Calm.of_all (calm : h.Calm fun _ => True) : h.Calm kind where
  told := calm.told
  unfinished unit finished := absurd trivial (calm.unfinished unit finished)

theorem Calm.append (h : past.Calm kind) (h' : later.Calm kind) : Calm kind (later ++ past) where
  told := (untold_append h.told later).trans h'.told
  unfinished unit finished := by
    rcases finished?_append later past with same | same
    · exact h'.unfinished unit (same ▸ finished)
    · exact h.unfinished unit (same ▸ finished)

/-- What does not trail behind anything decides who has just finished. -/
theorem calm_cons {e : Happening} (leads : e.isTrailing = false)
    (unfinished : ∀ unit, e.completes? = some unit → ¬ kind unit) (past : History) :
    Calm kind (e :: past) where
  told := by rw [untold, leads]; rfl
  unfinished unit finished := by
    rw [finished?, leads] at finished
    exact unfinished unit finished

/-- Where nobody was last answered, and something does not trail behind anything, nobody has just
    finished. -/
theorem calm_append_of_leading (minor : ∀ e ∈ later, e.IsMinor)
    (leading : ∃ e ∈ later, e.isTrailing = false) (past : History) : Calm kind (later ++ past) := by
  obtain ⟨e, mem, leads⟩ := leading
  obtain ⟨after, before, rfl⟩ := List.append_of_mem mem
  have here : Calm kind (e :: (before ++ past)) := by
    refine calm_cons leads (fun unit finished => ?_) _
    rw [(minor e mem).uncompleted] at finished
    cases finished
  have rest : Calm kind (after ++ e :: (before ++ past)) :=
    here.append (calm_of_minor fun e he => minor e (List.mem_append_left _ he))
  rwa [List.append_assoc]

/-- A report was denied with this fault, after everything else had gone well, and then there was
    nothing but clearing up. -/
def Denied (fault : Fault) (h : History) : Prop :=
  ∃ (cleanup : History) (previous new : Bookmarks) (before : History),
    h = cleanup ++ .asked (.updateBookmarks previous new) (.error fault) :: before ∧
      (∀ e ∈ cleanup, e.IsCleanup) ∧ ∀ e ∈ before, e.IsDealing

theorem untold_append_of_cleanup (cleanup : ∀ e ∈ later, e.IsCleanup) (past : History) :
    untold (later ++ past) = untold past := by
  induction later with
  | nil => rfl
  | cons e later ih =>
    have clears : e.IsCleanup := cleanup e List.mem_cons_self
    rw [List.cons_append, untold, clears.trailing, clears.minor.dealing.undenied,
      ih fun e he => cleanup e (List.mem_cons_of_mem _ he)]
    rfl

theorem Denied.untold (h : History) (denied : h.Denied fault) : h.untold = some fault := by
  obtain ⟨cleanup, previous, new, before, rfl, clears, -⟩ := denied
  rw [untold_append_of_cleanup clears]
  rfl

/-- What an action with this fault, or with none, has to account for: nothing; that it failed in
    another way, when nobody `kind` had finished; or the report that was denied. -/
inductive Accounts (kind : Sender → Prop) : Option Fault → History → Prop
  | well {h : History} (dealing : ∀ e ∈ h, e.IsDealing) : Accounts kind none h
  | failed {h : History} {fault : Fault} (dealing : ∀ e ∈ h, e.IsDealing) (calm : h.Calm kind) :
    Accounts kind (some fault) h
  | denied {h : History} {fault : Fault} (denied : h.Denied fault) :
    Accounts kind (some fault) h

end History

/-- A report was denied with this fault, and before it and after it all is in order. -/
abbrev State.Denies (fault : Fault) (σ τ : State (Recorded ω)) : Prop :=
  σ.Since (History.Denied fault) τ

/-- Everything that was asked went on without a denial. -/
abbrev State.Dealing (σ τ : State (Recorded ω)) : Prop := σ.Only Happening.IsDealing τ

/-- As `Dealing`, and nobody finished. -/
abbrev State.Minor (σ τ : State (Recorded ω)) : Prop := σ.Only Happening.IsMinor τ

/-- As `Dealing`, and nobody `kind` has just finished. -/
abbrev State.Calm (kind : Sender → Prop) (σ τ : State (Recorded ω)) : Prop :=
  σ.Since (fun later => (∀ e ∈ later, e.IsDealing) ∧ later.Calm kind) τ

/-- What has to be accounted for when an action fails with this fault. -/
abbrev State.Fails (kind : Sender → Prop) (fault : Fault) (σ τ : State (Recorded ω)) : Prop :=
  σ.Since (History.Accounts kind (some fault)) τ

section Rules

variable {kind : Sender → Prop} {fault : Fault}

theorem clearsUp_minor : ClearsUp peer.recorded (State.Minor (ω := ω)) :=
  clearsUp_only fun _ answer clearing => clearing.minor answer

theorem fetching_minor : Fetching peer.recorded (State.Minor (ω := ω)) where
  toEndsUnits := clearsUp_minor.toEndsUnits
  fetch _ fetching := ask_only fun answer => fetching.minor answer

namespace State

theorem Minor.dealing (h : σ.Minor τ) : σ.Dealing τ :=
  h.imp fun _ minor e he => (minor e he).dealing

theorem Calm.dealing (h : σ.Calm kind τ) : σ.Dealing τ := h.imp fun _ h => h.1

theorem Calm.rest : σ.Calm kind σ := .nothing ⟨by simp, History.calm_of_minor (by simp)⟩ rfl

theorem Calm.andThen (h : σ.Calm kind τ) (h' : τ.Calm kind υ) : σ.Calm kind υ := by
  refine Since.andThen h h' fun l l' h h' => ⟨fun e he => ?_, h.2.append h'.2⟩
  exact (List.mem_append.mp he).elim (h'.1 e) (h.1 e)

theorem Minor.calm (h : σ.Minor τ) : σ.Calm kind τ :=
  h.imp fun _ minor => ⟨fun e he => (minor e he).dealing, History.calm_of_minor minor⟩

/-- Where nobody is meant, nobody has finished. -/
theorem Dealing.calm (h : σ.Dealing τ) (nobody : ∀ unit, ¬ kind unit) : σ.Calm kind τ :=
  h.imp fun _ dealing =>
    ⟨dealing, History.untold_of_dealing dealing, fun unit _ => nobody unit⟩

/-- Something is asked that does not trail behind anything. -/
theorem Dealing.heard (h : ρ.Dealing σ) {request : Request} {answer : request.Answer} (w : ω)
    (dealing : (Happening.asked request answer).IsDealing)
    (leads : (Happening.asked request answer).isTrailing = false)
    (unfinished : ∀ unit, (Happening.asked request answer).completes? = some unit → ¬ kind unit) :
    ρ.Calm kind (σ.heard request answer w) := by
  obtain ⟨later, history, deals⟩ := h
  refine ⟨.asked request answer :: later, ?_, fun e he => ?_,
    History.calm_cons leads unfinished later⟩
  · rw [heard_history, history]
    rfl
  · rcases List.mem_cons.mp he with rfl | he
    · exact dealing
    · exact deals e he

/-- Everything between two states is as `P` and as `Q` say. -/
theorem Since.and {P Q : History → Prop} (h : σ.Since P τ) (h' : σ.Since Q τ) :
    σ.Since (fun later => P later ∧ Q later) τ := by
  obtain ⟨later, history, hp⟩ := h
  obtain ⟨later', history', hq⟩ := h'
  obtain rfl : later = later' := List.append_cancel_right (history.symm.trans history')
  exact ⟨later, history, hp, hq⟩

/-- Nobody finished, and not everything trailed behind what was before. -/
abbrev Leading (σ τ : State (Recorded ω)) : Prop :=
  σ.Since (fun later => (∀ e ∈ later, e.IsMinor) ∧ ∃ e ∈ later, e.isTrailing = false) τ

theorem Dealing.calm_of_leading (h : ρ.Dealing σ) (leading : σ.Leading τ) : ρ.Calm kind τ := by
  refine Since.andThen h leading fun l l' dealing leading => ⟨fun e he => ?_, ?_⟩
  · exact (List.mem_append.mp he).elim (fun he => (leading.1 e he).dealing) (dealing e)
  · exact History.calm_append_of_leading leading.1 leading.2 l

/-- A message fails that does not trail behind anything. -/
theorem Calm.failedSend (h : ρ.Calm kind σ) (c : Connection) (sender : Sender) (m : Message)
    (fault : Fault) (w : ω) : ρ.Calm kind (σ.heard (.send c sender m) (.error fault) w) := by
  have failed : σ.Minor (σ.heard (.send c sender m) (.error fault) w) :=
    .one (Happening.minor_of_failed c sender m fault) rfl
  exact h.andThen failed.calm

theorem Calm.fails (h : ρ.Calm kind σ) : ρ.Fails kind fault σ :=
  h.imp fun _ h => .failed h.1 h.2

/-- The report is denied. -/
theorem Dealing.denied (h : ρ.Dealing σ) (previous new : Bookmarks) (fault : Fault) (w : ω) :
    ρ.Denies fault (σ.heard (.updateBookmarks previous new) (.error fault) w) := by
  obtain ⟨later, history, dealing⟩ := h
  refine ⟨_ :: later, ?_, [], previous, new, later, rfl, by simp, dealing⟩
  rw [heard_history, history]
  rfl

theorem Denies.after (h : τ.Denies fault υ) (dealing : σ.Dealing τ) : σ.Denies fault υ := by
  refine Since.andThen dealing h fun l l' dealing denied => ?_
  obtain ⟨cleanup, previous, new, before, rfl, clears, deals⟩ := denied
  refine ⟨cleanup, previous, new, before ++ l, by simp, clears, fun e he => ?_⟩
  exact (List.mem_append.mp he).elim (deals e) (dealing e)

theorem Denies.before (h : σ.Denies fault τ) (clears : τ.Clears υ) : σ.Denies fault υ := by
  refine Since.andThen h clears fun l l' denied clears => ?_
  obtain ⟨cleanup, previous, new, before, rfl, cleared, deals⟩ := denied
  refine ⟨l' ++ cleanup, previous, new, before, by simp, fun e he => ?_, deals⟩
  exact (List.mem_append.mp he).elim (clears e) (cleared e)

theorem Denies.fails (h : σ.Denies fault τ) : σ.Fails kind fault τ := h.imp fun _ h => .denied h

theorem Clears.minor (h : σ.Clears τ) : σ.Minor τ := h.imp fun _ clears e he => (clears e he).minor

/-- Clearing up leaves what has to be accounted for. -/
theorem Fails.before (h : σ.Fails kind fault τ) (clears : τ.Clears υ) : σ.Fails kind fault υ := by
  obtain ⟨later, history, accounts⟩ := h
  cases accounts with
  | failed dealing calm =>
    have before : σ.Calm kind τ := ⟨later, history, dealing, calm⟩
    exact (before.andThen clears.minor.calm).fails
  | denied denied =>
    have before : σ.Denies fault τ := ⟨later, history, denied⟩
    exact (before.before clears).fails

end State

/-- The action, which goes on from `ρ` in `σ`, accounts for what it comes to. -/
def Op.Accounts (op : Op (Recorded ω) α) (kind : Sender → Prop) (ρ σ : State (Recorded ω)) : Prop :=
  op.Ends σ (fun _ τ => ρ.Dealing τ) fun fault τ => ρ.Fails kind fault τ

/-- What follows where nobody has finished and nothing was reported. -/
theorem Op.Obeys.calmThen {x : Op (Recorded ω) β} {f : β → Op (Recorded ω) α}
    (minor : x.Obeys (State.Minor (ω := ω))) (h : ρ.Calm kind σ)
    (hf : ∀ b τ, ρ.Calm kind τ → (f b).Accounts kind ρ τ) : (x >>= f).Accounts kind ρ σ := by
  rw [Op.Accounts, Op.ends_bind]
  refine (minor.ends σ).imp ?_ ?_
  · intro b τ minor
    exact hf b τ (h.andThen minor.calm)
  · intro fault τ minor
    exact (h.andThen minor.calm).fails

/-- Nobody finishes, and nothing is reported. -/
theorem Op.Obeys.accounts {op : Op (Recorded ω) α} (minor : op.Obeys (State.Minor (ω := ω)))
    (h : ρ.Calm kind σ) : op.Accounts kind ρ σ := by
  refine (minor.ends σ).imp ?_ ?_
  · intro _ τ minor
    exact (h.andThen minor.calm).dealing
  · intro fault τ minor
    exact (h.andThen minor.calm).fails

/-- What follows goes on from where all is in order. -/
theorem Op.Accounts.andThen {x : Op (Recorded ω) β} {f : β → Op (Recorded ω) α}
    (hx : x.Accounts kind ρ σ) (hf : ∀ b τ, ρ.Dealing τ → (f b).Accounts kind ρ τ) :
    (x >>= f).Accounts kind ρ σ := by
  rw [Op.Accounts, Op.ends_bind]
  refine Op.Ends.imp hx ?_ fun _ _ failed => failed
  intro b τ dealing
  exact hf b τ dealing

/-- A failure is cleared up. -/
theorem State.Fails.failAfter {act : Act (Recorded ω) Unit}
    {good : α → State (Recorded ω) → Prop} (h : ρ.Fails kind fault σ)
    (clears : act.Obeys (State.Clears (ω := ω))) :
    Op.Ends (GraphSession.failAfter act fault) σ good fun fault τ => ρ.Fails kind fault τ := by
  refine Op.ends_failAfter.mpr ((clears.ends σ).imp ?_)
  intro _ τ cleared
  exact h.before cleared

end Rules

/-! ## Units of work that are complete -/

section Streams

variable {kind : Sender → Prop} {id : ResultId}

theorem takeBookmark?_denies (sent : Bookmarks) (token : Option String) :
    (takeBookmark? peer.recorded sent token).Ends σ (fun _ τ => σ.Minor τ)
      fun fault τ => σ.Denies fault τ := by
  have here : σ.Dealing σ := .nothing (by simp) rfl
  cases token with
  | none => exact .nothing (by simp) rfl
  | some token =>
    rw [takeBookmark?, takeBookmark, Op.ends_bind, Op.ends_changeSession, Op.ends_bind,
      Op.ends_theSession]
    split
    · refine Op.ends_reportBookmarks (fun w => ?_) fun fault w => ?_
      · have accepted : (Happening.asked (.updateBookmarks sent (.singleton token))
            (.ok ())).IsMinor := ⟨rfl, rfl⟩
        exact .one accepted rfl
      · exact here.denied sent (.singleton token) fault w
    · exact .nothing (by simp) rfl

/-- A unit that is complete fails only because its report is denied, and it ends all the same. -/
theorem reportAndEnd_denies (sent : Bookmarks) (token : Option String) :
    (reportAndEnd peer.recorded sent token).Ends σ (fun _ τ => σ.Minor τ)
      fun fault τ => σ.Denies fault τ := by
  refine Op.ends_attemptThen.mpr ((takeBookmark?_denies sent token).imp ?_ ?_)
  · intro _ τ reported
    refine (clearsUp_minor.endUnit.ends τ).imp ?_
    intro _ υ ended
    exact reported.all_andThen ended
  · intro fault τ denied
    refine (clears_clearsUp.endUnit.ends τ).imp ?_
    intro _ υ cleared
    exact denied.before cleared

theorem completeOrigin_denies (summary : Summary) (origin : Origin) :
    (completeOrigin peer.recorded summary origin).Ends σ (fun _ τ => σ.Minor τ)
      fun fault τ => σ.Denies fault τ := by
  cases origin with
  | transaction t => exact .nothing (by simp) rfl
  | autoCommit sent pins =>
    rw [completeOrigin]
    split
    · rw [Op.ends_bind, Op.ends_lift]
      refine ((clearsUp_minor.pinDatabase summary.database).ends σ).imp ?_
      intro _ τ pinned
      refine Op.Ends.imp (reportAndEnd_denies sent summary.bookmark) ?_ ?_
      · intro _ υ reported
        exact pinned.all_andThen reported
      · intro fault υ denied
        exact State.Denies.after denied pinned.dealing
    · exact reportAndEnd_denies sent summary.bookmark

theorem finishStream_denies (metadata : Metadata) :
    (finishStream peer.recorded id metadata).Ends σ (fun _ τ => σ.Minor τ)
      fun fault τ => σ.Denies fault τ := by
  rw [finishStream, Op.ends_bind, Op.ends_theSession, Op.ends_bind, Op.ends_changeResult]
  exact completeOrigin_denies _ _

/-- After the last answer a stream ends well, or its report is denied. -/
theorem State.Dealing.finishStream (h : ρ.Dealing σ) (metadata : Metadata) :
    (GraphSession.finishStream peer.recorded id metadata).Accounts kind ρ σ := by
  refine Op.Ends.imp (finishStream_denies metadata) ?_ ?_
  · intro _ τ minor
    exact h.all_andThen minor.dealing
  · intro fault τ denied
    exact (denied.after h).fails

/-- A message on the session's connection, whether it holds one or not. -/
theorem sendHeld_ends {sender : Sender} {m : Message} {good : m.Reply → State (Recorded ω) → Prop}
    {bad : Fault → State (Recorded ω) → Prop}
    (unheld : σ.session.connection = none → bad .noConnection σ)
    (answered : ∀ c reply w, good reply (σ.heard (.send c sender m) (.ok reply) w))
    (failed : ∀ c fault w, bad fault (σ.heard (.send c sender m) (.error fault) w)) :
    (sendHeld peer.recorded sender m).Ends σ good bad := by
  cases held : σ.session.connection with
  | none =>
    rw [sendHeld, Op.ends_bind, Op.ends_theSession, held]
    exact unheld held
  | some c => exact Op.ends_sendHeld held (answered c) (failed c)

/-- The stream failed on the way, when nobody had finished. -/
theorem State.Calm.streamFailed (h : ρ.Calm kind σ) (fault : Fault)
    {good : α → State (Recorded ω) → Prop} :
    Op.Ends (failAfter (failStream peer.recorded id fault) fault) σ good
      fun fault τ => ρ.Fails kind fault τ :=
  State.Fails.failAfter h.fails (clears_clearsUp.failStream id fault)

/-- A batch that promises more leaves nobody finished. -/
theorem fetch_accounts (h : ρ.Calm kind σ) :
    (fetch peer.recorded id).Ends σ
      (fun more τ => if more = true then ρ.Calm kind τ else ρ.Dealing τ)
      fun fault τ => ρ.Fails kind fault τ := by
  rw [fetch, Op.ends_bind, Op.ends_attempt, pullHeld, Op.ends_bind, Op.ends_theSession]
  refine sendHeld_ends (fun _ => h.streamFailed _) (fun c batch w => ?_) fun c fault w =>
    (h.failedSend c (.result id) _ fault w).streamFailed fault
  dsimp only
  rw [Op.ends_bind, Op.ends_changeResult]
  split
  · next more =>
    have unfinished (unit : Sender)
        (finished : (Happening.asked (.send c (.result id) (.pull σ.session.fetchSize))
          (.ok batch)).completes? = some unit) : ¬ kind unit := by
      rw [Happening.completes?, Message.isLast, more] at finished
      cases finished
    have pulled : ρ.Calm kind
        (σ.heard (.send c (.result id) (.pull σ.session.fetchSize)) (.ok batch) w) :=
      h.dealing.heard w rfl rfl unfinished
    exact pulled
  · rw [Op.ends_bind]
    refine Op.Ends.imp (State.Dealing.finishStream ?_ batch.metadata) ?_ fun _ _ failed => failed
    · have last : (Happening.asked (.send c (.result id) (.pull σ.session.fetchSize))
          (.ok batch)).IsDealing := rfl
      exact h.dealing.all_andThen (.one last rfl)
    · intro _ τ dealing
      exact dealing

/-- What is left of a result is dropped; unless the result is meant, nobody has finished then. -/
theorem discardRest_accounts (h : ρ.Calm kind σ) :
    (discardRest peer.recorded id).Ends σ
      (fun _ τ => ρ.Dealing τ ∧ (¬ kind (.result id) → ρ.Calm kind τ))
      fun fault τ => ρ.Fails kind fault τ := by
  rw [discardRest, Op.ends_bind, Op.ends_theSession]
  split
  · rw [Op.ends_bind, Op.ends_attempt, discardHeld]
    refine sendHeld_ends (fun _ => h.streamFailed _) (fun c metadata w => ?_) fun c fault w =>
      (h.failedSend c (.result id) .discard fault w).streamFailed fault
    have last : (Happening.asked (.send c (.result id) .discard) (.ok metadata)).IsDealing := rfl
    have dealing : ρ.Dealing (σ.heard (.send c (.result id) .discard) (.ok metadata) w) :=
      h.dealing.all_andThen (.one last rfl)
    refine Op.Ends.imp (finishStream_denies metadata) ?_ ?_
    · intro _ τ minor
      refine ⟨dealing.all_andThen minor.dealing, fun other => ?_⟩
      have calm : ρ.Calm kind (σ.heard (.send c (.result id) .discard) (.ok metadata) w) := by
        refine h.dealing.heard w rfl rfl fun unit finished => ?_
        cases finished
        exact other
      exact calm.andThen minor.calm
    · intro fault τ denied
      exact (denied.after dealing).fails
  · exact ⟨h.dealing, fun _ => h⟩

/-- A stream that was open is finished when what was left has been dropped. -/
theorem discardRest_finishes (streaming : (σ.session.result id).isStreaming = true) :
    (discardRest peer.recorded id).Ends σ
      (fun _ τ => ∃ summary, (τ.session.result id).stream = .finished summary)
      fun _ _ => True := by
  rw [discardRest, Op.ends_bind, Op.ends_theSession, if_pos streaming, Op.ends_bind,
    Op.ends_attempt]
  have failed (fault : Fault) (τ : State (Recorded ω)) : Op.Ends
      (failAfter (failStream peer.recorded id fault) fault : Op (Recorded ω) Unit) τ
      (fun _ τ => ∃ summary, (τ.session.result id).stream = .finished summary) fun _ _ => True :=
    Op.ends_failAfter.mpr trivial
  refine sendHeld_ends (fun _ => failed _ σ) (fun c metadata w => ?_) fun c fault w =>
    failed fault _
  dsimp only
  rw [finishStream, Op.ends_bind, Op.ends_theSession, Op.ends_bind, Op.ends_changeResult]
  refine (completeOrigin_reported _ _).imp ?_ fun _ _ _ => trivial
  intro _ τ same
  have now : τ.session.result id = _ :=
    (congrArg (List.getD · id Result.absent) same).trans
      ((Session.result_setResult σ.session id _ (Session.lt_of_isStreaming streaming)).trans
        (if_pos rfl))
  rw [now]
  exact ⟨_, rfl⟩

end Streams

end GraphSession
