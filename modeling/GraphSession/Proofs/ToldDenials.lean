import GraphSession.Proofs.Accounts
import GraphSession.Proofs.Endings
import GraphSession.Proofs.Forks
import GraphSession.Proofs.Series

/-!
  Who is told of a report that failed.

  The session does not keep it to itself when the bookmark manager denies a report.  The fault is
  untold until somebody is told of it, and until then nothing happens but what trails behind a unit
  of work.  The code of a transaction function is told when it used a handle; a series of attempts
  goes on only if the fault is worth another one; the caller of an operation is told by its outcome,
  and who closes the session reads of it in the journal.  So a unit of work that is complete is
  reported as failed exactly when its report was denied.

  The induction of a series is on its patience.  What it carries is that `TellsDenials` held of
  everything, and that no fault is untold when an attempt begins.
-/

namespace GraphSession

variable {ω α β : Type} {peer : Peer ω} {ρ σ τ υ : State (Recorded ω)}

/-! ## The law -/

/-- Somebody who awaits the last answer of such senders is told in keeping with the history: the
    fault of a report if one is untold, and no fault if a sender has just had the last answer. -/
def History.Justifies (awaits : Sender → Prop) (tells : Option Fault → Prop) (h : History) : Prop :=
  match h.untold with
  | some fault => tells (some fault)
  | none => ∀ unit, h.finished? = some unit → awaits unit → tells none

/-- While a fault is untold nothing happens but what trails behind a unit, the end of an access that
    tells its caller, or a wait if the fault is worth another attempt. -/
def TellsDenials (past : History) : Happening → Prop
  | .used a outcome => past.Justifies a.awaits (a.fault? outcome = ·)
  | .asked (.sleep _) _ => ∀ fault, past.untold = some fault → fault.isRetryable = true
  | e => past.untold ≠ none → e.isTrailing = true

namespace History

variable {kind : Sender → Prop} {fault : Option Fault} {tells tells' : Option Fault → Prop}
  {e : Happening} {h later past : History}

theorem Justifies.imp (justifies : h.Justifies kind tells)
    (himp : ∀ fault, tells fault → tells' fault) : h.Justifies kind tells' := by
  unfold Justifies at *
  split
  · next untold =>
    rw [untold] at justifies
    exact himp _ justifies
  · next told =>
    rw [told] at justifies
    exact fun unit finished awaited => himp _ (justifies unit finished awaited)

theorem justifies_of_calm (calm : h.Calm kind) : h.Justifies kind tells := by
  unfold Justifies
  rw [calm.told]
  exact fun unit finished awaited => absurd awaited (calm.unfinished unit finished)

theorem justifies_of_told (told : h.untold = none) (well : tells none) :
    h.Justifies kind tells := by
  unfold Justifies
  rw [told]
  exact fun _ _ _ => well

/-- Whoever is told the fault of an action is told in keeping with what the action has to account
    for. -/
theorem Accounts.justifies (accounts : later.Accounts kind fault) (calm : past.Calm kind) :
    (later ++ past).Justifies kind (fault = ·) := by
  have untold := untold_append calm.told later
  cases accounts with
  | well dealing => exact justifies_of_told (untold.trans (untold_of_dealing dealing)) rfl
  | failed dealing later => exact justifies_of_calm (calm.append later)
  | denied denied =>
    unfold Justifies
    rw [untold, denied.untold]

/-- What trails behind a unit does not change what is to be told. -/
theorem justifies_cons (trails : e.isTrailing = true) (undenied : e.denial? = none) :
    Justifies kind tells (e :: past) ↔ past.Justifies kind tells := by
  have untold : untold (e :: past) = past.untold := by
    rw [History.untold, trails, undenied]
    rfl
  have finished : finished? (e :: past) = past.finished? := by
    rw [finished?, trails]
    rfl
  rw [Justifies, Justifies, untold, finished]

/-- What trails behind a unit may happen while a fault is untold. -/
theorem tellsDenials_of_trailing (trails : e.isTrailing = true) : TellsDenials past e := by
  unfold TellsDenials
  split
  · cases trails
  · cases trails
  · exact fun _ => trails

theorem tellsDenials_of_told (told : past.untold = none) (dealing : e.IsDealing) :
    TellsDenials past e := by
  unfold TellsDenials
  split
  · cases dealing
  · intro fault untold
    rw [told] at untold
    cases untold
  · exact fun untold => absurd told untold

theorem always_tellsDenials_of_dealing (telling : Always TellsDenials past)
    (told : past.untold = none) (dealing : ∀ e ∈ later, e.IsDealing) :
    Always TellsDenials (later ++ past) := by
  induction later with
  | nil => exact telling
  | cons e later ih =>
    have before : ∀ e ∈ later, e.IsDealing := fun e he => dealing e (List.mem_cons_of_mem _ he)
    refine ⟨tellsDenials_of_told ?_ (dealing e List.mem_cons_self), ih before⟩
    exact (untold_append told later).trans (untold_of_dealing before)

theorem always_tellsDenials_of_cleanup (telling : Always TellsDenials past)
    (cleanup : ∀ e ∈ later, e.IsCleanup) : Always TellsDenials (later ++ past) :=
  telling.append fun e he _ => tellsDenials_of_trailing (cleanup e he).trailing

/-- All denials were told in what an action has to account for, unless a fault was untold before. -/
theorem Accounts.telling (accounts : later.Accounts kind fault) (telling : Always TellsDenials past)
    (told : past.untold = none) : Always TellsDenials (later ++ past) := by
  cases accounts with
  | well dealing => exact always_tellsDenials_of_dealing telling told dealing
  | failed dealing => exact always_tellsDenials_of_dealing telling told dealing
  | denied denied =>
    obtain ⟨cleanup, previous, new, before, rfl, clears, dealing⟩ := denied
    rw [List.append_assoc]
    refine always_tellsDenials_of_cleanup ⟨tellsDenials_of_trailing rfl, ?_⟩ clears
    exact always_tellsDenials_of_dealing telling told dealing

/-- What an action has to account for tells all denials by itself, if its fault is told. -/
theorem Accounts.allTold (accounts : later.Accounts kind fault) :
    Always TellsDenials later ∧ later.Justifies kind (fault = ·) := by
  have nothing : Calm kind [] := calm_of_minor (by simp)
  have telling : Always TellsDenials (later ++ []) := accounts.telling trivial nothing.told
  have justifies : (later ++ []).Justifies kind (fault = ·) := accounts.justifies nothing
  rw [List.append_nil] at telling justifies
  exact ⟨telling, justifies⟩

end History

/-! ## The code of a transaction function -/

/-- Since `ρ` all denials were told, no fault is untold, and nobody has just finished. -/
abbrev State.AllTold (ρ σ : State (Recorded ω)) : Prop :=
  ρ.Since (fun later => Always TellsDenials later ∧ later.Calm fun _ => True) σ

/-- Since `ρ` all denials were told, and whoever awaits the commit of a transaction is told so. -/
abbrev State.Informs (tells : Option Fault → Prop) (ρ σ : State (Recorded ω)) : Prop :=
  ρ.Since (fun later => Always TellsDenials later ∧ later.Justifies Sender.IsTransaction tells) σ

namespace State

theorem AllTold.rest : ρ.AllTold ρ := .nothing ⟨trivial, History.calm_of_minor (by simp)⟩ rfl

/-- A line of the history that is no request. -/
theorem AllTold.log (h : ρ.AllTold σ) {e : Happening} (leads : e.isTrailing = false)
    (uncompleted : e.completes? = none)
    (telling : ∀ past, past.untold = none → TellsDenials past e) :
    ρ.AllTold { σ with world := σ.world.add e } := by
  obtain ⟨later, history, always, calm⟩ := h
  refine ⟨e :: later, congrArg (e :: ·) history, ⟨telling later calm.told, always⟩,
    History.calm_cons leads (fun unit finished => ?_) later⟩
  rw [uncompleted] at finished
  cases finished

end State

/-- The code that used a handle is told, and that is the last thing that happens. -/
theorem Access.performTold_allTold (h : ρ.AllTold σ) (a : Access) :
    (a.performTold peer).Ends σ fun outcome τ => ρ.Since (fun later =>
      (Always TellsDenials later ∧ later.Calm fun _ => True) ∧
        ∃ past, later = .used a outcome :: past)
        τ := by
  have told (outcome : Except Fault a.Reply) {τ : State (Recorded ω)}
      (accounts : σ.Since (History.Accounts a.awaits (a.fault? outcome)) τ) :
      State.Since (fun later => (Always TellsDenials later ∧ later.Calm fun _ => True) ∧
        ∃ past, later = .used a outcome :: past) ρ
        { τ with world := τ.world.add (.used a outcome) } := by
    obtain ⟨later, history, always, calm⟩ := h
    obtain ⟨later', history', accounts⟩ := accounts
    have meant : later.Calm a.awaits := calm.of_all
    have all : τ.history = later' ++ later ++ ρ.history := by
      rw [history', history, List.append_assoc]
    have last : History.Calm (fun _ => True) (.used a outcome :: (later' ++ later)) :=
      History.calm_cons rfl (fun _ finished => by cases finished) _
    exact ⟨.used a outcome :: (later' ++ later), congrArg (Happening.used a outcome :: ·) all,
      ⟨⟨accounts.justifies meant, accounts.telling always calm.told⟩, last⟩, _, rfl⟩
  rw [performTold, Act.ends_bind, Act.ends_run]
  refine (a.perform_accounts (State.Calm.rest (σ := σ))).imp ?_ ?_
  · intro r τ accounts
    exact told (.ok r) accounts
  · intro fault τ accounts
    rw [State.Fails, ← a.fault?_error fault] at accounts
    exact told (.error fault) accounts

theorem Work.perform_allTold (h : ρ.AllTold σ) (w : Work ω α) :
    (w.recorded.perform peer.recorded).Ends σ (fun _ τ => ρ.AllTold τ) fun _ τ => ρ.AllTold τ := by
  have returned (σ : State (Recorded ω)) (fault : Option Fault) (h : ρ.AllTold σ) :
      ρ.AllTold { σ with world := σ.world.add (.returned fault) } :=
    h.log rfl rfl fun past told untold => absurd told untold
  have told (σ : State (Recorded ω)) (a : Access) (h : ρ.AllTold σ) :
      (a.performTold peer).Ends σ fun _ τ => ρ.AllTold τ :=
    (a.performTold_allTold h).imp fun _ _ told => told.imp fun _ told => told.1
  refine Op.Ends.imp (w.perform_keeps (ρ.AllTold ·) told (fun σ w h => h) returned h) ?_ ?_
  · intro _ τ allTold
    exact allTold
  · rintro fault τ ⟨allTold, -⟩
    exact allTold

/-! ## Series of attempts -/

/-- Since `ρ` all denials were told, and no fault is untold. -/
abbrev State.Ready (ρ σ : State (Recorded ω)) : Prop :=
  ρ.Since (fun later => Always TellsDenials later ∧ later.untold = none) σ

/-- An action that does not trail behind what was before it leaves nobody finished. -/
theorem State.Ready.allTold (h : ρ.Ready σ) (leading : σ.Leading τ) : ρ.AllTold τ := by
  refine State.Since.andThen h leading fun l l' ready leading => ⟨?_, ?_⟩
  · exact History.always_tellsDenials_of_dealing ready.1 ready.2 fun e he =>
      (leading.1 e he).dealing
  · exact History.calm_append_of_leading leading.1 leading.2 l

/-- Who is told what an action accounts for, is told in keeping with the history. -/
theorem State.AllTold.informs (h : ρ.AllTold σ) {fault : Option Fault}
    (accounts : σ.Since (History.Accounts Sender.IsTransaction fault) τ) :
    ρ.Informs (fault = ·) τ := by
  refine State.Since.andThen h accounts fun l l' allTold accounts => ⟨?_, ?_⟩
  · exact accounts.telling allTold.1 allTold.2.told
  · exact accounts.justifies allTold.2.of_all

theorem Happening.leads_of_begun {e : Happening} {t : TransactionId} (begun : e.begun? = some t) :
    e.isTrailing = false := by
  unfold Happening.begun? at begun
  split at begun
  · rfl
  · cases begun

theorem openTransaction_allTold (h : ρ.Ready σ) (mode : AccessMode) (api : ApiKind)
    (config : TransactionConfig) (holder : Holder) :
    (openTransaction peer.recorded mode api config holder).Ends σ (fun _ τ => ρ.AllTold τ)
      fun _ τ => ρ.AllTold τ := by
  have minor : (openTransaction peer.recorded mode api config holder).Ends σ
      (fun _ τ => σ.Minor τ) fun _ τ => σ.Minor τ :=
    (openTransaction_minor mode api config holder).ends σ
  refine (minor.and (openTransaction_opens mode api config holder σ)).imp ?_ ?_
  · rintro t τ ⟨minor, opened⟩
    refine h.allTold ((State.Since.and minor opened).imp fun later h => ⟨h.1, ?_⟩)
    obtain ⟨-, -, e, he, begun⟩ := h
    exact ⟨e, he, Happening.leads_of_begun begun⟩
  · rintro fault τ ⟨minor, failed⟩
    exact h.allTold (State.Minor.leading_of_failedBy minor failed)

/-- What comes of an attempt. -/
theorem attemptOnce_informs (h : ρ.Ready σ) (options : ExecuteOptions)
    (work : TransactionFunction ω α) (calls : Nat) :
    (attemptOnce peer.recorded options (TransactionFunction.recorded work) calls).Ends σ
      fun r τ => ρ.Informs (faultOf? r.1 = ·) τ := by
  rw [attemptOnce, Act.ends_bind, Act.ends_run]
  refine (openTransaction_allTold h _ _ _ _).imp ?_ ?_
  · intro t τ allTold
    dsimp only
    rw [Act.ends_bind, Act.ends_run]
    have settled (outcome : Except Fault α) {υ : State (Recorded ω)} (allTold : ρ.AllTold υ) :
        Act.Ends (do
          return (← (settle peer.recorded t outcome).run, calls + 1) :
            Act (Recorded ω) (Except Fault α × Nat)) υ
          fun r φ => ρ.Informs (faultOf? r.1 = ·) φ := by
      rw [Act.ends_bind, Act.ends_run]
      have accounts : (settle peer.recorded t outcome).Accounts Sender.IsTransaction υ υ :=
        settle_accounts (fun _ never => never) .rest t outcome
      refine Op.Ends.imp accounts ?_ ?_
      · intro a φ dealing
        exact allTold.informs (dealing.imp fun _ dealing => .well dealing)
      · intro fault φ failed
        exact allTold.informs failed
    refine (Work.perform_allTold allTold (work calls t)).imp ?_ ?_
    · intro a υ allTold
      exact settled (.ok a) allTold
    · intro fault υ allTold
      exact settled (.error fault) allTold
  · intro fault τ allTold
    exact allTold.imp fun later allTold => ⟨allTold.1, History.justifies_of_calm allTold.2.of_all⟩

/-- What the caller of a transaction function is told of a fault: the fault itself, or that trying
    again was to no avail. -/
def Weighed (outcome : Option (Except Fault α)) (fault : Option Fault) : Prop :=
  outcome.bind faultOf? = fault ∨
    ∃ f n, fault = some f ∧ f.isRetryable = true ∧
      outcome.bind faultOf? = some (.retriesExhausted n f)

/-- The clock and the sample trail behind the attempt. -/
theorem State.Informs.looked {tells : Option Fault → Prop} {now : Instant} (h : ρ.Informs tells σ)
    (looked : State.Looked now σ τ) : ρ.Informs tells τ := by
  obtain ⟨later, history, telling, justifies⟩ := h
  obtain ⟨-, sample, looked⟩ := looked
  refine ⟨.asked .drawSample sample :: .asked .readClock now :: later, by rw [looked, history]; rfl,
    ⟨History.tellsDenials_of_trailing rfl, History.tellsDenials_of_trailing rfl, telling⟩, ?_⟩
  rw [History.justifies_cons rfl rfl, History.justifies_cons rfl rfl]
  exact justifies

/-- What comes of a series of attempts. -/
theorem attemptFrom_informs (h : ρ.Ready σ) (options : ExecuteOptions)
    (work : TransactionFunction ω α) (patience calls : Nat) (b : Backoff) :
    (attemptFrom peer.recorded options (TransactionFunction.recorded work) patience calls b).Ends σ
      fun outcome τ => ρ.Informs (Weighed outcome) τ := by
  induction patience generalizing σ calls b with
  | zero =>
    exact h.imp fun later ready => ⟨ready.1, History.justifies_of_told ready.2 (.inl rfl)⟩
  | succ patience ih =>
    rw [attemptFrom, Act.ends_bind]
    refine (attemptOnce_informs h options work calls).imp ?_
    rintro ⟨outcome, calls'⟩ τ informs
    cases outcome with
    | ok a => exact informs.imp fun later h => ⟨h.1, h.2.imp fun fault same => .inl same⟩
    | error fault =>
      dsimp only
      rw [Act.ends_bind]
      refine (decide_decides b fault).imp ?_
      rintro ⟨decision, b'⟩ υ ⟨now, decides, looked⟩
      have weighed : ρ.Informs (some fault = ·) υ := State.Informs.looked informs looked
      cases decides with
      | final final => exact weighed.imp fun later h => ⟨h.1, h.2.imp fun f same => .inl same⟩
      | exhausted retryable due late =>
        refine weighed.imp fun later h => ⟨h.1, h.2.imp fun f same => .inr ?_⟩
        exact ⟨fault, _, same.symm, retryable, rfl⟩
      | @again _ delay retryable =>
        dsimp only
        rw [Act.ends_bind]
        refine Act.ends_note fun w => ?_
        rw [Act.ends_bind]
        refine Act.ends_ask fun _ w' => ih ?_ calls' b'
        obtain ⟨later, history, telling, justifies⟩ := weighed
        refine ⟨_ :: _ :: later, congrArg (_ :: _ :: ·) history,
          ⟨?_, History.tellsDenials_of_trailing rfl, telling⟩, rfl⟩
        intro f untold
        have before : later.untold = some f := untold
        rw [History.Justifies, before] at justifies
        cases justifies
        exact retryable

/-- What comes of a call: nothing was untold before the first attempt. -/
theorem executeWith_informs (h : ρ.Minor σ) (options : ExecuteOptions) (patience : Nat)
    (work : TransactionFunction ω α) :
    (executeWith peer.recorded options patience (TransactionFunction.recorded work)).Ends σ
      fun outcome τ => ρ.Informs (Weighed outcome) τ := by
  have prepared : (prepareExecute peer.recorded).Accounts Sender.IsTransaction ρ σ :=
    prepareExecute_accounts h.calm
  rw [executeWith, Act.ends_bind, Act.ends_run]
  refine Op.Ends.imp prepared ?_ ?_
  · intro _ τ dealing
    dsimp only
    rw [Act.ends_bind]
    refine Act.ends_ask fun now w => ?_
    rw [Act.ends_bind, Act.ends_theSession]
    have clock : (Happening.asked .readClock now).IsDealing := rfl
    have read : ρ.Dealing (τ.heard .readClock now w) := dealing.all_andThen (.one clock rfl)
    have ready : ρ.Ready (τ.heard .readClock now w) := read.imp fun later dealing => by
      have well : later.Accounts Sender.IsTransaction none := .well dealing
      exact ⟨well.allTold.1, History.untold_of_dealing dealing⟩
    exact attemptFrom_informs ready options work patience 0 _
  · intro fault τ failed
    exact failed.imp fun later accounts =>
      ⟨accounts.allTold.1, accounts.allTold.2.imp fun _ same => .inl same⟩

/-! ## Closing -/

/-- Since `ρ` all denials were told, the journal being told of what nobody else was told of. -/
abbrev State.Journals (ρ σ : State (Recorded ω)) : Prop :=
  ρ.Since (fun later => Always TellsDenials later ∧ ∀ fault, later.untold = some fault →
    .asked (.note (.consumeFailed fault)) () ∈ later) σ

/-- Clearing up goes on. -/
theorem State.Journals.andThen (h : ρ.Journals σ) (clears : σ.Clears τ) : ρ.Journals τ := by
  refine State.Since.andThen h clears fun l l' journals clears => ⟨?_, fun fault untold => ?_⟩
  · exact History.always_tellsDenials_of_cleanup journals.1 clears
  · rw [History.untold_append_of_cleanup clears] at untold
    exact List.mem_append_right _ (journals.2 fault untold)

theorem State.Dealing.journals (h : ρ.Dealing σ) : ρ.Journals σ := by
  refine h.imp fun later dealing => ⟨?_, fun fault untold => ?_⟩
  · have well : later.Accounts (fun _ => False) none := .well dealing
    exact well.allTold.1
  · rw [History.untold_of_dealing dealing] at untold
    cases untold

/-- The fault of a report is told to the journal when the last result is consumed. -/
theorem consumeAutoResult_journals (h : ρ.Minor σ) :
    (consumeAutoResult peer.recorded).Ends σ fun _ τ => ρ.Journals τ := by
  rw [consumeAutoResult, Act.ends_bind, Act.ends_theSession]
  cases σ.session.autoResult with
  | none => exact h.dealing.journals
  | some id =>
    dsimp only
    rw [Act.ends_bind, Act.ends_changeSession, Act.ends_bind, Act.ends_run]
    have here : ρ.Minor { σ with session := { σ.session with autoResult := none } } := h
    have consumed : (consume peer.recorded id).Accounts (fun _ => False) ρ
        { σ with session := { σ.session with autoResult := none } } := consume_accounts here.calm
    refine Op.Ends.imp consumed ?_ ?_
    · intro _ τ dealing
      exact dealing.journals
    · rintro fault τ ⟨later, history, accounts⟩
      refine Act.ends_note fun w => ?_
      refine ⟨.asked (.note (.consumeFailed fault)) () :: later, ?_,
        ⟨History.tellsDenials_of_trailing rfl, accounts.allTold.1⟩, fun f untold => ?_⟩
      · rw [State.heard_history, history]
        rfl
      have before : later.untold = some f := untold
      have justifies := accounts.allTold.2
      rw [History.Justifies, before] at justifies
      cases justifies
      exact List.mem_cons_self

theorem close_journals : (close peer.recorded).Ends σ fun _ τ => σ.Journals τ := by
  have here : σ.Minor σ := .nothing (by simp) rfl
  rw [close, Act.ends_bind, Act.ends_theSession]
  split
  · rw [Act.ends_bind]
    refine (clearsUp_minor.endCurrent.ends σ).imp fun _ τ minor => ?_
    rw [Act.ends_bind]
    refine (consumeAutoResult_journals minor).imp fun _ υ journals => ?_
    rw [Act.ends_bind]
    refine (clears_clearsUp.endAllUnits.ends υ).imp fun _ φ cleared => ?_
    rw [Act.ends_bind, Act.ends_changeSession]
    refine ((clears_clearsUp.note .sessionClosed).ends _).imp fun _ χ noted => ?_
    exact (journals.andThen cleared).andThen noted
  · exact here.dealing.journals

/-! ## Operations -/

/-- Whose last answer decides of the outcome of an operation.  An access tells by what it shows. -/
def Operation.awaits : Operation ω → Sender → Prop
  | .run .. | .lastBookmarks | .lastBookmark => Sender.IsResult
  | .execute .. | .executeRenamed .. | .executeQuery .. | .executeBlocking .. =>
    Sender.IsTransaction
  | .beginTransaction _ | .serverInfo | .close | .access _ | .elsewhere _ => fun _ => False

/-- How the caller of an operation is told of a fault, or of none. -/
inductive Operation.Tells (op : Operation ω) (outcome : Option (Except Fault op.Reply))
    (h : History) : Option Fault → Prop
  /-- The outcome is that fault, or there is none. -/
  | outcome {fault : Option Fault} (same : outcome.bind faultOf? = fault) : Tells op outcome h fault
  /-- Trying again was to no avail. -/
  | exhausted {fault : Fault} {n : UInt32} (function : op.IsFunction)
    (retryable : fault.isRetryable = true)
    (wrapped : outcome.bind faultOf? = some (.retriesExhausted n fault)) :
    Tells op outcome h (some fault)
  /-- Closing does not fail, but the journal tells. -/
  | journal {fault : Fault} (closes : op = .close)
    (noted : .asked (.note (.consumeFailed fault)) () ∈ h) : Tells op outcome h (some fault)

/-- The outcome of an access is what the code was told that made it. -/
def Operation.Shows : (op : Operation ω) → Option (Except Fault op.Reply) → History → Prop
  | .access a, outcome, h => ∃ told past, outcome = some told ∧ h = .used a told :: past
  | _, _, _ => True

/-- All denials were told during an operation, and its outcome tells what is still to be told. -/
structure Operation.TellsDenials (op : Operation ω) (outcome : Option (Except Fault op.Reply))
    (h : History) : Prop where
  meanwhile : Always GraphSession.TellsDenials h
  shown : op.Shows outcome h
  told : h.Justifies op.awaits (op.Tells outcome h)

namespace Operation

variable {op : Operation ω}

theorem concluded_tellsDenials {x : Op (Recorded ω) op.Reply}
    (shows : ∀ outcome h, op.Shows outcome h) (accounts : x.Accounts op.awaits σ σ) :
    (concluded x).Ends σ fun outcome τ => σ.Since (op.TellsDenials outcome) τ := by
  have telling {outcome : Option (Except Fault op.Reply)} {later : History} {fault : Option Fault}
      (same : outcome.bind faultOf? = fault) (accounts : later.Accounts op.awaits fault) :
      op.TellsDenials outcome later :=
    ⟨accounts.allTold.1, shows outcome later,
      accounts.allTold.2.imp fun _ told => .outcome (same.trans told)⟩
  rw [concluded, Act.ends_bind, Act.ends_run]
  refine Op.Ends.imp accounts ?_ ?_
  · intro a τ dealing
    exact dealing.imp fun later dealing => telling rfl (.well dealing)
  · intro fault τ failed
    exact failed.imp fun later accounts => telling rfl accounts

/-- Nothing happened. -/
theorem tellsDenials_nil {outcome : Option (Except Fault op.Reply)} (shows : op.Shows outcome []) :
    op.TellsDenials outcome [] where
  meanwhile := trivial
  shown := shows
  told := History.justifies_of_calm (History.calm_of_minor (by simp))

/-- A transaction function is told of by its last attempt. -/
theorem function_tellsDenials {outcome : Option (Except Fault op.Reply)} (function : op.IsFunction)
    (shows : ∀ h, op.Shows outcome h) (awaits : op.awaits = Sender.IsTransaction)
    (h : σ.Informs (Weighed outcome) τ) : σ.Since (op.TellsDenials outcome) τ := by
  refine h.imp fun later informs => ⟨informs.1, shows later, ?_⟩
  rw [awaits]
  refine informs.2.imp fun fault weighed => ?_
  rcases weighed with same | ⟨f, n, rfl, retryable, wrapped⟩
  · exact .outcome same
  · exact .exhausted function retryable wrapped

/-- Every operation, from every state, tells of every denial. -/
theorem perform_tellsDenials (op : Operation ω) (σ : State (Recorded ω)) :
    (op.perform peer).Ends σ fun outcome τ => σ.Since (op.TellsDenials outcome) τ := by
  have here : σ.Minor σ := .nothing (by simp) rfl
  cases op with
  | run source params => exact concluded_tellsDenials (fun _ _ => trivial) (run_accounts .rest _ _)
  | beginTransaction config =>
    exact concluded_tellsDenials (fun _ _ => trivial)
      ((beginTransaction_minor config).accounts .rest)
  | lastBookmarks =>
    exact concluded_tellsDenials (fun _ _ => trivial) (lastBookmarks_accounts .rest)
  | lastBookmark => exact concluded_tellsDenials (fun _ _ => trivial) (lastBookmark_accounts .rest)
  | serverInfo =>
    exact concluded_tellsDenials (fun _ _ => trivial) (fetching_minor.serverInfo.accounts .rest)
  | execute mode config patience work =>
    exact (executeWith_informs here _ patience work).imp fun _ _ informs =>
      function_tellsDenials trivial (fun _ => trivial) rfl informs
  | executeRenamed mode patience work =>
    rw [perform, GraphSession.executeRenamed, Act.ends_bind]
    refine (clearsUp_minor.note _ |>.ends σ).imp fun _ τ noted => ?_
    exact (executeWith_informs noted _ patience work).imp fun _ _ informs =>
      function_tellsDenials trivial (fun _ => trivial) rfl informs
  | executeQuery source params mode patience =>
    rw [perform, executeQueryWith]
    cases Query.ofSource source with
    | error fault => exact .nothing (tellsDenials_nil trivial) rfl
    | ok query =>
      exact (executeWith_informs here _ patience _).imp fun _ _ informs =>
        function_tellsDenials trivial (fun _ => trivial) rfl informs
  | executeBlocking mode config patience work =>
    rw [perform, Blocking.execute_eq]
    exact (executeWith_informs here _ patience work).imp fun _ _ informs =>
      function_tellsDenials trivial (fun _ => trivial) rfl informs
  | close =>
    rw [perform, concluded, Act.ends_bind, Act.ends_run, Op.ends_lift]
    refine close_journals.imp fun _ τ journals => ?_
    refine journals.imp fun later journals => ⟨journals.1, trivial, ?_⟩
    unfold History.Justifies
    split
    · next fault untold => exact .journal rfl (journals.2 fault untold)
    · exact fun _ _ never => never.elim
  | access a =>
    rw [perform, Act.ends_bind]
    refine (a.performTold_allTold .rest).imp fun outcome τ allTold => ?_
    refine allTold.imp fun later allTold => ?_
    obtain ⟨⟨always, calm⟩, past, last⟩ := allTold
    exact ⟨always, ⟨outcome, past, rfl, last⟩, History.justifies_of_calm calm.of_all⟩
  | elsewhere f => exact .nothing (tellsDenials_nil trivial) rfl

end Operation

/-- From every state of a session and in all surroundings, every operation tells of denied reports.
    If the bookmark manager denied the last report, its fault becomes the outcome of what completed
    the unit, although the server had completed it, and the caller is told: by the outcome of the
    access that was made, by that of the operation, or by the journal when the session is closed.
    Only a fault that is worth another attempt is followed by one.  And who waited for no more than
    the end of a stream or for a commit is told of no fault unless the report was denied.

    Two runs of the same operations in surroundings that differ in nothing but the answers to
    reports are one and the same, with the same outcomes, until they fork at a report.  There the
    unit still ends the same: after the last answer of a stream, and after an acknowledged commit,
    the same requests are made and the same session is left, whatever is answered. -/
theorem reports_told (peer : Peer ω) :
    (∀ (op : Operation ω) (σ : State (Recorded ω)),
      (op.perform peer).Ends σ fun outcome τ => σ.Since (op.TellsDenials outcome) τ) ∧
      (∀ (reports : Reporting ω) (config : SessionConfig) (w : ω) (ops : List (Operation ω))
        (op : Operation ω),
        (op.perform peer).exec (play peer config w ops) =
            (op.perform (peer.reporting reports)).exec
              (play (peer.reporting reports) config w ops) ∨
          State.Forked ((op.perform peer).exec (play peer config w ops)).2
            ((op.perform (peer.reporting reports)).exec
              (play (peer.reporting reports) config w ops)).2) ∧
      ∀ other : Peer ω,
        (∀ id metadata, Op.Alongside (finishStream peer.recorded id metadata)
          (finishStream other.recorded id metadata)) ∧
        ∀ sent token, Op.Alongside (reportAndEnd peer.recorded sent token)
          (reportAndEnd other.recorded sent token) := by
  refine ⟨fun op σ => op.perform_tellsDenials σ, ?_, fun other => ⟨?_, ?_⟩⟩
  · intro reports config w ops op
    exact op.perform_tracks.onward (play_tracks config w ops)
  · exact finishStream_alongside peer other
  · exact reportAndEnd_alongside peer other

end GraphSession
