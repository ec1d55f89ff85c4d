import GraphSession.Proofs.Operation

/-!
  The life of a transaction.

  A transaction is active from its begin until something in it fails or it ends, and what it ended
  as it stays.  Its state is written by the transaction itself, by its results when a stream fails,
  and by the session when it closes or clears up, so two things are followed here.

  * The numbers of transactions: the server opens each at most once, and the session has a record
    of every one that was opened.  Every course leads each record on from the state that it was in,
    so what a caller was once shown of a transaction leads to what it is shown later.
  * The dialogue of a transaction: from its begin to its commit every message in it was answered
    well, and once it is open nowhere but where something failed (`History.OpenOnlyFailed`), because
    it ended or because something in it failed, nothing but a reset is sent in it.

  What `Proper` says of every view of a transaction joins the two: a transaction that is shown
  failed or over is open only where something failed.
-/

namespace GraphSession

variable {ω α : Type}

/-! ## Numbers of transactions -/

namespace History

/-- The server opened the transaction. -/
def Begun (t : TransactionId) (h : History) : Prop := ∃ e ∈ h, e.begun? = some t

variable {t : TransactionId} {e : Happening} {past h : History}

theorem Begun.mono (begun : past.Begun t) (grown : past <:+ h) : h.Begun t :=
  Exists.imp (fun _ he => ⟨grown.subset he.1, he.2⟩) begun

theorem begun_cons : Begun t (e :: past) ↔ e.begun? = some t ∨ past.Begun t := by
  simp [Begun]

end History

/-- No transaction is opened twice. -/
def BeginsOnce (past : History) (e : Happening) : Prop :=
  ∀ t, e.begun? = some t → ¬ past.Begun t

theorem Happening.IsAside.begun? {e : Happening} (h : e.IsAside) : e.begun? = none := by
  unfold Happening.begun?
  split
  · cases h
  · rfl

theorem Happening.IsBorrowing.begun? {e : Happening} (h : e.IsBorrowing) : e.begun? = none := by
  unfold IsBorrowing at h
  split at h
  · rfl
  · rfl
  · rfl
  · cases h

namespace State

variable {σ τ : State (Recorded ω)} {t : TransactionId}

/-- The session has a record of every transaction that was opened, and each was opened once. -/
structure Numbered (σ : State (Recorded ω)) : Prop where
  given : ∀ t, σ.history.Begun t → t < σ.session.transactions.length
  once : Always BeginsOnce σ.history

/-- Nothing was opened. -/
theorem Numbered.quiet (h : σ.Numbered) {later : History} (quiet : ∀ e ∈ later, e.begun? = none)
    (history : τ.history = later ++ σ.history)
    (given : σ.session.transactions.length ≤ τ.session.transactions.length) : τ.Numbered where
  given t begun := by
    rw [history] at begun
    obtain ⟨e, he, opened⟩ := begun
    rcases List.mem_append.mp he with he | he
    · rw [quiet e he] at opened
      cases opened
    · exact Nat.lt_of_lt_of_le (h.given t ⟨e, he, opened⟩) given
  once := by
    rw [history]
    refine h.once.append fun e he past t opened => ?_
    rw [quiet e he] at opened
    cases opened

theorem Numbered.same (h : σ.Numbered) (history : τ.history = σ.history)
    (given : σ.session.transactions.length ≤ τ.session.transactions.length) : τ.Numbered :=
  h.quiet (by simp) (show τ.history = [] ++ σ.history from history) given

/-- A transaction that is opened has the next number, and the session has a record of it then. -/
theorem Numbered.begun (h : σ.Numbered) {c : Connection} {request : WorkRequest}
    {named : Option String} {later : History} (quiet : ∀ e ∈ later, e.begun? = none)
    (history : τ.history = later ++ .asked (.send c (.transaction σ.session.nextTransaction)
      (.begin request)) (.ok named) :: σ.history)
    (given : τ.session.transactions.length = σ.session.transactions.length + 1) :
    τ.Numbered := by
  have opened (t : TransactionId) (e : Happening.begun? (.asked (.send c
      (.transaction σ.session.nextTransaction) (.begin request)) (.ok named)) = some t) :
      t = σ.session.transactions.length :=
    (Option.some.inj e).symm
  refine ⟨fun t begun => ?_, ?_⟩
  · rw [history] at begun
    obtain ⟨e, he, opening⟩ := begun
    rw [given]
    rcases List.mem_append.mp he with he | he
    · rw [quiet e he] at opening
      cases opening
    · rcases List.mem_cons.mp he with rfl | he
      · exact opened t opening ▸ Nat.lt_succ_self _
      · exact Nat.lt_succ_of_lt (h.given t ⟨e, he, opening⟩)
  · rw [history]
    have once : Always BeginsOnce (.asked (.send c (.transaction σ.session.nextTransaction)
        (.begin request)) (.ok named) :: σ.history) := by
      refine ⟨fun t opening begun => ?_, h.once⟩
      have before := h.given t begun
      rw [opened t opening] at before
      exact Nat.lt_irrefl _ before
    refine once.append fun e he past t opening => ?_
    rw [quiet e he] at opening
    cases opening

end State

/-- Every course keeps the numbers. -/
theorem Course.numbered {may : License} {σ τ : State (Recorded ω)} (h : Course may σ τ)
    (numbered : σ.Numbered) : τ.Numbered := by
  have one {σ τ : State (Recorded ω)} {e : Happening} (h : σ.Numbered)
      (quiet : e.begun? = none) (history : τ.history = e :: σ.history)
      (given : σ.session.transactions.length ≤ τ.session.transactions.length) : τ.Numbered :=
    h.quiet (fun e' he' => List.mem_singleton.mp he' ▸ quiet)
      (show τ.history = [e] ++ σ.history from history) given
  have notes {l : History} (asides : ∀ e ∈ l, ∃ event, e = .asked (.note event) ()) :
      ∀ e ∈ l, e.begun? = none := fun e he => by
    obtain ⟨event, rfl⟩ := asides e he
    rfl
  induction h with
  | rest => exact numbered
  | andThen _ _ ih₁ ih₂ => exact ih₂ (ih₁ numbered)
  | tend _ kept history => exact numbered.same history kept.lasts.given
  | aside w aside => exact one numbered aside.begun? rfl (Nat.le_refl _)
  | borrowing w _ borrowing => exact one numbered borrowing.begun? rfl (Nat.le_refl _)
  | loanRefused =>
    exact numbered.quiet (History.forall_loanRefused.mpr ⟨rfl, rfl, rfl⟩) rfl (Nat.le_refl _)
  | message w _ _ unbegun _ _ => exact one numbered unbegun rfl (Nat.le_refl _)
  | release => exact one numbered rfl rfl (Nat.le_refl _)
  | start _ history asides _ _ _ _ _ kept =>
    exact numbered.quiet (History.forall_noted asides (fun _ => rfl) rfl)
      (history.trans (List.append_cons _ _ _)) kept.lasts.given
  | begun _ history asides _ transactions _ =>
    exact numbered.begun (notes asides) history (by rw [transactions, List.length_append]; rfl)
  | absorb => exact one numbered rfl rfl (Nat.le_refl _)
  | finish | take | retire => exact numbered.same rfl (Nat.le_refl _)
  | spend _ _ ih => exact ih numbered

/-! ## What callers are shown -/

/-- A transaction that was open or had been was shown in a state, and `since` happened since. -/
def History.Shown (t : TransactionId) (s : TransactionState) (h since : History) : Prop :=
  ∃ (e : Happening) (past : History), h = since ++ e :: past ∧ e.shown? = some (t, s) ∧ past.Begun t

/-- A transaction is shown in a state that leads on from what was shown of it before. -/
def Leads (past : History) (e : Happening) : Prop :=
  ∀ t s s' since, past.Shown t s since → e.shown? = some (t, s') → s.LeadsTo s'

namespace State

variable {σ τ : State (Recorded ω)}

/-- What was shown of a transaction leads to the state that it is in. -/
structure Recounts (σ : State (Recorded ω)) : Prop where
  numbered : σ.Numbered
  leads : ∀ t s since, σ.history.Shown t s since → s.LeadsTo (σ.session.transaction t).state
  past : Always Leads σ.history

/-- Nothing was shown, and every transaction went on from the state that it was in. -/
theorem Recounts.onward (h : σ.Recounts) {later : History} (quiet : ∀ e ∈ later, e.shown? = none)
    (history : τ.history = later ++ σ.history)
    (lasts : ∀ t < σ.session.transactions.length,
      (σ.session.transaction t).state.LeadsTo (τ.session.transaction t).state)
    (numbered : τ.Numbered) : τ.Recounts where
  numbered := numbered
  leads t s since shown := by
    obtain ⟨e, past, split, state, begun⟩ := shown
    rw [history] at split
    -- what was shown was shown before
    rcases List.append_eq_append_iff.mp split with ⟨l, rfl, before⟩ | ⟨l, rfl, before⟩
    · have given : t < σ.session.transactions.length :=
        h.numbered.given t (begun.mono (before ▸ ⟨l ++ [e], by simp⟩))
      exact (h.leads t s l ⟨e, past, before, state, begun⟩).trans (lasts t given)
    · cases l with
      | nil =>
        have given : t < σ.session.transactions.length :=
          h.numbered.given t (begun.mono ⟨[e], before⟩)
        exact (h.leads t s [] ⟨e, past, before.symm, state, begun⟩).trans (lasts t given)
      | cons e' l =>
        obtain ⟨rfl, -⟩ := List.cons.inj before
        rw [quiet e (by simp)] at state
        cases state
  past := by
    rw [history]
    refine h.past.append fun e he past t s s' since _ state => ?_
    rw [quiet e he] at state
    cases state

/-- A transaction was shown as it is. -/
theorem Recounts.show (h : σ.Recounts) {e : Happening} (unbegun : e.begun? = none)
    (shows : ∀ t s, e.shown? = some (t, s) → s = (σ.session.transaction t).state) :
    State.Recounts { σ with world := σ.world.add e } where
  numbered := h.numbered.quiet (fun e' he' => List.mem_singleton.mp he' ▸ unbegun)
    (show e :: σ.history = [e] ++ σ.history from rfl) (Nat.le_refl _)
  leads t s since shown := by
    obtain ⟨e', past, split, state, begun⟩ := shown
    have split : e :: σ.history = since ++ e' :: past := split
    cases since with
    | nil =>
      obtain ⟨rfl, -⟩ := List.cons.inj split
      rw [shows t s state]
      exact .refl _
    | cons e₀ since =>
      obtain ⟨-, before⟩ := List.cons.inj split
      exact h.leads t s since ⟨e', past, before, state, begun⟩
  past := by
    refine ⟨fun t s s' since shown state => ?_, h.past⟩
    rw [shows t s' state]
    exact h.leads t s since shown

end State

section Recounting

variable {peer : Peer ω} {σ τ : State (Recorded ω)}

theorem Course.recounts {may : License} (h : Course may σ τ) (recounts : σ.Recounts) :
    τ.Recounts := by
  obtain ⟨later, history, permitted⟩ := h.permitted
  refine recounts.onward (fun e he => ?_) history h.keeps.lasts.leadsTo
    (h.numbered recounts.numbered)
  obtain ⟨⟨request, answer, rfl⟩, -⟩ := permitted e he
  rfl

/-- A view shows a transaction as it is. -/
theorem Access.perform_shows (a : Access) :
    Act.Ends (a.perform peer.recorded).run σ fun outcome τ =>
      ∀ t s, a.shown? outcome = some (t, s) → s = (τ.session.transaction t).state := by
  rw [Act.ends_run]
  cases a with
  | viewTransaction id =>
    intro t s e
    cases e
    rfl
  | _ =>
    exact (Op.ends_trivial _ σ).imp (fun _ _ _ => by intro t s e; cases e)
      fun _ _ _ => by intro t s e; cases e

/-- Everything a session does leads its transactions on from what was shown of them. -/
theorem recounts_kept : Kept peer (State.Recounts (ω := ω)) where
  course h course := course.recounts h
  call σ a h := by
    have course : Act.Ends (a.perform peer.recorded).run σ fun _ τ => Course a.license σ τ :=
      a.perform_within σ
    exact (course.and a.perform_shows).imp fun outcome τ hτ =>
      (hτ.1.recounts h).show (e := .used a outcome) rfl hτ.2
  drift _ _ h := ⟨⟨h.numbered.given, h.numbered.once⟩, h.leads, h.past⟩
  ended _ _ h := h.show rfl fun _ _ e => by cases e
  close σ h := (close_ends σ).imp fun _ _ course => course.recounts h

theorem State.initial_recounts (config : SessionConfig) (w : ω) :
    (State.initial config w).Recounts := by
  refine ⟨⟨?_, trivial⟩, ?_, trivial⟩
  · rintro t ⟨e, he, -⟩
    cases he
  · rintro t s since ⟨e, past, split, -⟩
    cases since <;> cases split

end Recounting

/-! ## The dialogue of a transaction -/

namespace Happening

/-- Whether a transaction was to be committed. -/
def commits (t : TransactionId) : Happening → Bool
  | asked (.send _ (.transaction t') .commit) _ => t' = t
  | _ => false

/-- Whether a transaction was to be committed or rolled back. -/
def concludes (t : TransactionId) : Happening → Bool
  | asked (.send _ (.transaction t') .commit) _ => t' = t
  | asked (.send _ (.transaction t') .rollback) _ => t' = t
  | _ => false

/-- Something was sent in a transaction that is open on the connection, other than a reset. -/
def WorksIn (t : TransactionId) (past : History) : Happening → Prop
  | asked (.send c _ m) _ =>
    m ≠ .reset ∧ ∃ d, History.dialogue c past = some d ∧ d.transaction = some t
  | _ => False

/-- A reset was sent on the connection on which the transaction was open. -/
def ResetsIn (t : TransactionId) (past : History) : Happening → Prop
  | asked (.send c _ .reset) _ => ∃ d, History.dialogue c past = some d ∧ d.transaction = some t
  | _ => False

theorem IsAside.not_worksIn {e : Happening} (h : e.IsAside) {t : TransactionId} {past : History} :
    ¬ e.WorksIn t past := by
  unfold WorksIn
  split
  · cases h
  · exact fun h => h

end Happening

namespace Dialogue

variable {d : Dialogue} {c : Connection} {sender : Sender} {m : Message}
  {answer : Except Fault m.Reply} {t : TransactionId}

/-- A transaction that is open after a message was open before, or was opened by it. -/
theorem transaction_of_after (h : (d.after sender m answer).transaction = some t) :
    d.transaction = some t ∨ (Happening.asked (.send c sender m) answer).begun? = some t := by
  match m, answer with
  | .begin _, .ok _ =>
    cases sender with
    | transaction id => exact .inr h
    | session | result _ => exact .inl h
  | .run _, .ok _ =>
    cases sender with
    | session | result _ | transaction _ => exact .inl h
  | .commit, .ok _ | .rollback, .ok _ | .reset, .ok _ => cases h
  | .telemetry _, _ | .pull _, .ok _ | .discard, .ok _ | .run _, .error _ | .pull _, .error _
  | .discard, .error _ | .begin _, .error _ | .commit, .error _ | .rollback, .error _
  | .reset, .error _ => exact .inl h

/-- Once a transaction was to be committed or rolled back, it is over or something failed. -/
theorem openOnlyFailed_of_concludes
    (h : (Happening.asked (.send c sender m) answer).concludes t = true)
    (still : (d.after sender m answer).transaction = some t) :
    ¬ (d.after sender m answer).IsSound := by
  match m, answer with
  | .commit, .ok _ | .rollback, .ok _ => cases still
  | .commit, .error _ | .rollback, .error _ => exact fun sound => by cases sound.1
  | .telemetry _, _ | .run _, _ | .pull _, _ | .discard, _ | .begin _, _ | .reset, _ =>
    cases sender <;> cases h

end Dialogue

namespace History

variable {t : TransactionId} {c : Connection} {d : Dialogue} {e : Happening} {past h : History}

/-- A transaction that is open was opened. -/
theorem begun_of_dialogue (proper : Always Proper h) (lent : History.dialogue c h = some d)
    (own : d.transaction = some t) : h.Begun t := by
  induction h generalizing d with
  | nil => cases lent
  | cons e past ih =>
    rcases dialogue_before proper lent with ⟨-, -, rfl⟩ |
      ⟨sender, m, answer, d', rfl, lent', -, -, rfl⟩ | ⟨-, lent'⟩
    · cases own
    · rcases Dialogue.transaction_of_after (c := c) own with own | opening
      · exact (ih proper.2 lent' own).mono (List.suffix_cons _ _)
      · exact begun_cons.mpr (.inl opening)
    · exact (ih proper.2 lent' own).mono (List.suffix_cons _ _)

/-- The transaction was opened, and no message failed since. -/
def NoMessageFailed (t : TransactionId) (h : History) : Prop :=
  ∃ since e past, h = since ++ e :: past ∧ e.begun? = some t ∧ ∀ e ∈ since, e.fails = false

theorem NoMessageFailed.cons (noMessageFailed : past.NoMessageFailed t) (well : e.fails = false) :
    NoMessageFailed t (e :: past) := by
  obtain ⟨since, e', past', rfl, opening, wells⟩ := noMessageFailed
  refine ⟨e :: since, e', past', rfl, opening, fun e'' he => ?_⟩
  rcases List.mem_cons.mp he with rfl | he
  · exact well
  · exact wells e'' he

/-- While a transaction is open and its dialogue is sound, no message has failed in it. -/
theorem noMessageFailed_of_dialogue (proper : Always Proper h)
    (lent : History.dialogue c h = some d) (own : d.transaction = some t)
    (sound : d.IsSound) : h.NoMessageFailed t := by
  induction h generalizing d with
  | nil => cases lent
  | cons e past ih =>
    rcases dialogue_before proper lent with ⟨-, -, rfl⟩ |
      ⟨sender, m, answer, d', rfl, lent', -, -, rfl⟩ | ⟨aside, lent'⟩
    · cases own
    · obtain ⟨sound', well⟩ := Dialogue.sound_of_after (c := c) sound
      rcases Dialogue.transaction_of_after (c := c) own with own | opening
      · exact (ih proper.2 lent' own sound').cons well
      · exact ⟨[], _, past, rfl, opening, by simp⟩
    · exact (ih proper.2 lent' own sound).cons aside.fails

/-- The transaction was opened, and where it is still open something failed. -/
def OpenOnlyFailed (t : TransactionId) (h : History) : Prop :=
  h.Begun t ∧ ∀ c d, History.dialogue c h = some d → d.transaction = some t → ¬ d.IsSound

/-- In a transaction that is open only where something failed nothing but a reset is sent, and it
    stays so. -/
theorem OpenOnlyFailed.cons (spent : past.OpenOnlyFailed t) (proper : Always Proper (e :: past))
    (once : BeginsOnce past e) : OpenOnlyFailed t (e :: past) ∧ ¬ e.WorksIn t past := by
  obtain ⟨begun, unsound⟩ := spent
  refine ⟨⟨begun.mono (List.suffix_cons _ _), fun c d lent own sound => ?_⟩, fun works => ?_⟩
  · rcases dialogue_before proper lent with ⟨-, -, rfl⟩ |
      ⟨sender, m, answer, d', rfl, lent', -, -, rfl⟩ | ⟨-, lent'⟩
    · cases own
    · obtain ⟨sound', -⟩ := Dialogue.sound_of_after (c := c) sound
      rcases Dialogue.transaction_of_after (c := c) own with own | opening
      · exact unsound c d' lent' own sound'
      · exact once t opening begun
    · exact unsound c d lent' own sound
  · rcases e.concerns with aside | ⟨_, _, rfl⟩ | ⟨_, rfl⟩ | ⟨c, sender, m, answer, rfl⟩
    · exact aside.not_worksIn works
    · exact works
    · exact works
    · obtain ⟨work, d, lent, own⟩ := works
      obtain ⟨d', lent', allowed, -⟩ := proper.1
      obtain rfl : d' = d := Option.some.inj (lent'.symm.trans lent)
      exact unsound c d' lent own (allowed.isSound work)

theorem OpenOnlyFailed.append {later : History} (spent : past.OpenOnlyFailed t)
    (proper : Always Proper (later ++ past)) (once : Always BeginsOnce (later ++ past)) :
    OpenOnlyFailed t (later ++ past) := by
  induction later with
  | nil => exact spent
  | cons e later ih => exact ((ih proper.2 once.2).cons proper once.1).1

/-- A transaction that was to be committed or rolled back was open in a sound dialogue, and is open
    only where something failed. -/
theorem openOnlyFailed_of_concludes (proper : Always Proper (e :: past))
    (h : e.concludes t = true) :
    e.WorksIn t past ∧ (∃ c d, History.dialogue c past = some d ∧ d.transaction = some t ∧
      d.IsSound) ∧ OpenOnlyFailed t (e :: past) := by
  rcases e.concerns with aside | ⟨_, _, rfl⟩ | ⟨_, rfl⟩ | ⟨c, sender, m, answer, rfl⟩
  · unfold Happening.concludes at h
    split at h <;> first | cases aside | cases h
  · cases h
  · cases h
  · obtain ⟨d, lent, allowed, -⟩ := proper.1
    have ⟨work, sound, own⟩ : m ≠ .reset ∧ d.IsSound ∧ d.transaction = some t := by
      match m, sender with
      | .commit, .transaction t' =>
        obtain rfl : t' = t := by simpa [Happening.concludes] using h
        obtain ⟨sound, -, _, e, own⟩ := allowed
        cases e
        exact ⟨by simp, sound, own⟩
      | .rollback, .transaction t' =>
        obtain rfl : t' = t := by simpa [Happening.concludes] using h
        obtain ⟨sound, _, e, own⟩ := allowed
        cases e
        exact ⟨by simp, sound, own⟩
      | .commit, .session | .commit, .result _ | .rollback, .session | .rollback, .result _ =>
        cases h
      | .telemetry _, s | .run _, s | .pull _, s | .discard, s | .begin _, s | .reset, s =>
        cases s <;> cases h
    refine ⟨⟨work, d, lent, own⟩, ⟨c, d, lent, own, sound⟩,
      (begun_of_dialogue proper.2 lent own).mono (List.suffix_cons _ _), fun c' d' lent' own' => ?_⟩
    obtain rfl := dialogue_send proper.2 lent lent'
    exact Dialogue.openOnlyFailed_of_concludes h own'

/-- A transaction in which a message failed is open only there. -/
theorem openOnlyFailed_of_fails (proper : Always Proper (e :: past)) (works : e.WorksIn t past)
    (fails : e.fails = true) : OpenOnlyFailed t (e :: past) := by
  rcases e.concerns with aside | ⟨_, _, rfl⟩ | ⟨_, rfl⟩ | ⟨c, sender, m, answer, rfl⟩
  · exact absurd works aside.not_worksIn
  · exact works.elim
  · exact works.elim
  · obtain ⟨-, d, lent, own⟩ := works
    refine ⟨(begun_of_dialogue proper.2 lent own).mono (List.suffix_cons _ _),
      fun c' d' lent' _ sound => ?_⟩
    obtain rfl := dialogue_send proper.2 lent lent'
    rw [(Dialogue.sound_of_after (c := c) sound).2] at fails
    cases fails

/-- A transaction that is shown as anything but active is open only where something failed. -/
theorem Shown.openOnlyFailed {s : TransactionState} {since : History} (shown : h.Shown t s since)
    (proper : Always Proper h) (once : Always BeginsOnce h) (inactive : s ≠ .active) :
    h.OpenOnlyFailed t := by
  obtain ⟨e, past, rfl, state, begun⟩ := shown
  have before : OpenOnlyFailed t past := by
    refine ⟨begun, fun c d lent own sound => ?_⟩
    have fits := proper.at.fits state
    cases s with
    | active => exact inactive rfl
    | failed =>
      obtain ⟨c', d', lent', -, broken⟩ := fits
      obtain rfl := dialogue_unique proper.of_append.2 (by rw [lent]; rfl) (by rw [lent']; rfl)
      obtain rfl := Option.some.inj (lent.symm.trans lent')
      exact broken.not_isSound sound
    | committed | rolledBack | closed => exact fits c d lent own
  have shown : OpenOnlyFailed t (e :: past) := (before.cons proper.of_append once.of_append.1).1
  exact shown.append proper once

/-- A transaction in which something failed waits for a reset. -/
theorem broken_or_reset {later : History} (proper : Always Proper (later ++ past))
    (lent : History.dialogue c past = some d) (own : d.transaction = some t)
    (broken : d.IsBroken) :
    (∃ since e earlier, later = since ++ e :: earlier ∧ e.ResetsIn t (earlier ++ past)) ∨
      History.dialogue c (later ++ past) = some d := by
  induction later with
  | nil => exact .inr lent
  | cons e later ih =>
    rcases ih proper.2 with ⟨since, e', earlier, rfl, resets⟩ | still
    · exact .inl ⟨e :: since, e', earlier, rfl, resets⟩
    · rcases dialogue_next proper still with ⟨sender, m, answer, rfl, allowed, -, -⟩ | ⟨-, clean⟩ |
        ⟨-, still⟩
      · -- nothing else is allowed
        obtain rfl : m = .reset :=
          Classical.byContradiction fun work => broken.not_isSound (allowed.isSound work)
        exact .inl ⟨[], _, later, rfl, d, still, own⟩
      · rcases clean with reset | ⟨sound, -⟩
        · rw [broken.2] at reset
          cases reset
        · exact absurd sound broken.not_isSound
      · exact .inr still

end History

/-! ## Every transaction -/

/-- What happens respects the life of every transaction, given what had happened before. -/
structure Respects (past : History) (e : Happening) : Prop where
  /-- A transaction is committed or rolled back at most once. -/
  once : ∀ t, e.concludes t = true → ∀ e' ∈ past, e'.concludes t = false
  /-- It is committed only if no message has failed since its begin. -/
  noMessageFailed : ∀ t, e.commits t = true → past.NoMessageFailed t
  /-- In a transaction in which a message failed nothing but a reset is sent. -/
  halted : ∀ t since e' before, past = since ++ e' :: before → e'.WorksIn t before →
    e'.fails = true → ¬ e.WorksIn t past ∧ e.concludes t = false
  /-- So it is in a transaction that was shown as anything but active. -/
  inert : ∀ t s since, past.Shown t s since → s ≠ .active →
    ¬ e.WorksIn t past ∧ e.concludes t = false
  /-- A transaction that was shown as over is shown as it was from then on, and one that was shown
      as failed is not shown as active again. -/
  leads : ∀ t s s' since, past.Shown t s since → e.shown? = some (t, s') → s.LeadsTo s'
  /-- One that was shown as failed is over only after a reset. -/
  reset : ∀ t s since e' before, past = since ++ e' :: before → e'.shown? = some (t, .failed) →
    e.shown? = some (t, s) → s.isTerminated = true →
    ∃ later e'' earlier, since = later ++ e'' :: earlier ∧
      e''.ResetsIn t (earlier ++ e' :: before)

theorem Always.respects {h : History} (proper : Always Proper h) (once : Always BeginsOnce h)
    (leads : Always Leads h) : Always Respects h := by
  induction h with
  | nil => trivial
  | cons e past ih =>
    have inert {t : TransactionId} (spent : History.OpenOnlyFailed t past) :
        ¬ e.WorksIn t past ∧ e.concludes t = false := by
      have idle := (spent.cons proper once.1).2
      exact ⟨idle, Bool.eq_false_iff.mpr fun concludes =>
        idle (History.openOnlyFailed_of_concludes proper concludes).1⟩
    refine ⟨⟨fun t concludes e' he' => ?_, fun t commits => ?_,
      fun t since e' before split works fails => ?_,
      fun t s since shown inactive => inert (shown.openOnlyFailed proper.2 once.2 inactive),
      leads.1, fun t s since e' before split failed state ended => ?_⟩, ih proper.2 once.2 leads.2⟩
    · -- what was concluded is open nowhere
      apply Bool.eq_false_iff.mpr
      intro concluded
      obtain ⟨later, before, rfl⟩ := List.append_of_mem he'
      have spent := (History.openOnlyFailed_of_concludes proper.2.of_append concluded).2.2
      rw [(inert (spent.append proper.2 once.2)).2] at concludes
      cases concludes
    · have concludes : e.concludes t = true := by
        unfold Happening.commits at commits
        split at commits
        · exact commits
        · cases commits
      obtain ⟨-, ⟨c, d, lent, own, sound⟩, -⟩ :=
        History.openOnlyFailed_of_concludes proper concludes
      exact History.noMessageFailed_of_dialogue proper.2 lent own sound
    · subst split
      have failed := History.openOnlyFailed_of_fails proper.2.of_append works fails
      exact inert (failed.append proper.2 once.2)
    · subst split
      obtain ⟨c, d, lent, own, broken⟩ := proper.2.at.fits failed
      have lent : History.dialogue c (e' :: before) = some d := by
        rw [History.dialogue, (Happening.isAside_of_shown? failed).lead, lent]
      rcases History.broken_or_reset proper.2 lent own broken with reset | still
      · exact reset
      · -- it is not open any more
        have fits := proper.1.fits state
        cases s with
        | active | failed => cases ended
        | committed | rolledBack | closed => exact absurd own (fits c d still)

/-! ## From any state -/

section FromAnyState

variable {peer : Peer ω} {σ τ : State (Recorded ω)} {t : TransactionId}

/-- Every operation leads every transaction on from the state that it was in. -/
theorem lasts_kept (s : Session) :
    Kept peer fun σ : State (Recorded ω) => s.Lasts .working σ.session :=
  .of_courses (fun h course => h.trans (course.keeps.lasts.relax trivial)) (fun _ _ _ h => h)
    fun _ _ h => h

/-- In a transaction that is not active a query is refused, and nothing happens. -/
theorem runIn_refused (inactive : (σ.session.transaction t).state ≠ .active)
    (source : QuerySource) (params : Option Params) :
    (runIn peer.recorded t source params).Ends σ (fun _ τ => τ = σ) fun _ τ => τ = σ := by
  rw [runIn, Op.ends_bind, Op.ends_settleOn]
  refine ⟨fun query _ => ?_, fun _ _ => rfl⟩
  rw [Op.ends_bind, Op.ends_theSession, Op.ends_bind, Op.ends_failIf]
  exact ⟨fun allowed => absurd (active_of_refusal? allowed) inactive, fun _ _ => rfl⟩

/-- What follows on a commit leaves its transaction committed. -/
theorem reported_committed (given : t < σ.session.transactions.length) (sent : Bookmarks)
    (token : Option String) :
    Op.Ends (do
      setState t .committed
      reportAndEnd peer.recorded sent token : Op (Recorded ω) Unit) σ
      (fun _ τ => (τ.session.transaction t).state = .committed ∧ σ.history <:+ τ.history)
      fun _ _ => True := by
  rw [Op.ends_bind, setState, Op.ends_changeTransaction]
  have committed : ((σ.session.setTransaction t
      { σ.session.transaction t with state := .committed }).transaction t).state = .committed := by
    rw [Session.transaction_setTransaction _ _ _ given, if_pos rfl]
  have reporting : (reportAndEnd peer.recorded sent token).Within {} := reportAndEnd_within _ _
  refine (reporting.ends _).imp (fun _ τ reported => ⟨?_, reported.grows⟩) fun _ _ _ => trivial
  -- nothing touches the state after it was set
  have lasts := reported.keeps.lasts.leadsTo t (by simpa [Session.setTransaction] using given)
  exact (lasts.eq_of_terminated (congrArg TransactionState.isTerminated committed)).trans committed

/-- A commit that succeeds was acknowledged, and its transaction is committed. -/
theorem commit_acknowledged (σ : State (Recorded ω)) (t : TransactionId) :
    (commit peer.recorded t).Ends σ
      (fun _ τ => (τ.session.transaction t).state = .committed ∧ σ.Since (fun later =>
        ∃ c token, .asked (.send c (.transaction t) .commit) (.ok token) ∈ later) τ)
      fun _ _ => True := by
  let Acknowledged (τ : State (Recorded ω)) : Prop :=
    (τ.session.transaction t).state = .committed ∧ σ.Since (fun later =>
      ∃ c token, .asked (.send c (.transaction t) .commit) (.ok token) ∈ later) τ
  have failed (fault : Fault) (τ : State (Recorded ω)) : Op.Ends (do
        setState t .closed
        failAfter (abortUnit peer.recorded) fault : Op (Recorded ω) Unit) τ
      (fun _ τ => Acknowledged τ) fun _ _ => True := by
    rw [Op.ends_bind, setState, Op.ends_changeTransaction, Op.ends_failAfter]
    trivial
  rw [commit, Op.ends_bind, Op.ends_theSession, Op.ends_bind, Op.ends_failIf]
  refine ⟨fun allowed => ?_, fun _ _ => trivial⟩
  have given : t < σ.session.transactions.length :=
    Session.lt_of_not_isTerminated (by rw [active_of_refusal? allowed]; rfl)
  have took : Op.Within (ω := ω) {} (takeResults t) := takeResults_within t
  rw [Op.ends_bind]
  refine (took.ends σ).imp (fun results τ taken => ?_) fun _ _ _ => trivial
  rw [Op.ends_bind, Op.ends_attempt, Op.ends_bind]
  have sent : (endResults peer.recorded results).Within {} := endResults_within results
  refine (sent.ends τ).imp (fun _ υ ended => ?_) fun fault υ _ => failed fault υ
  have course := taken.andThen ended
  rw [commitHeld]
  cases held : υ.session.connection with
  | none =>
    rw [sendHeld, Op.ends_bind, Op.ends_theSession, held]
    exact failed .noConnection υ
  | some c =>
    refine Op.ends_sendHeld held (fun token w => ?_) fun fault w => failed fault _
    have here : t < υ.session.transactions.length :=
      Nat.lt_of_lt_of_le given course.keeps.lasts.given
    refine Op.Ends.imp
      (reported_committed (σ := υ.heard (.send c (.transaction t) .commit) (.ok token) w) here
        (σ.session.transaction t).sent token) (fun _ φ h => ⟨h.1, ?_⟩) fun _ _ h => h
    obtain ⟨later, history⟩ := h.2
    obtain ⟨before, earlier⟩ := course.grows
    refine ⟨later ++ .asked (.send c (.transaction t) .commit) (.ok token) :: before, ?_, c, token,
      by simp⟩
    rw [← history, List.append_assoc, List.cons_append, earlier]
    rfl

end FromAnyState

/-- The life of every transaction, explicit or managed.  Whatever a session has been through, and
    whatever the surroundings and the code of transaction functions did: at most one commit or
    rollback is sent for a transaction, a commit only when no message has failed since the begin; in
    a transaction in which a message failed, or that somebody saw as anything but active, nothing
    but a reset is sent; one that was seen as over is seen as it was from then on; and one that was
    seen as failed is over only after a reset.  From any state whatever, an operation leads every
    transaction on from the state that it is in, a query in a transaction that is not active does
    nothing, and a commit that succeeds was acknowledged and leaves its transaction committed. -/
theorem play_respectsTransactions (peer : Peer ω) (config : SessionConfig) (w : ω)
    (ops : List (Operation ω)) :
    Always Respects (play peer config w ops).history ∧
      (∀ (σ : State (Recorded ω)) (op : Operation ω), ∀ t < σ.session.transactions.length,
        (σ.session.transaction t).state.LeadsTo
          ((op.after peer σ).session.transaction t).state) ∧
      (∀ (σ : State (Recorded ω)) (t : TransactionId) (source : QuerySource)
        (params : Option Params), (σ.session.transaction t).state ≠ .active →
        ((runIn peer.recorded t source params).exec σ).2 = σ) ∧
      ∀ (σ τ : State (Recorded ω)) (t : TransactionId),
        (commit peer.recorded t).exec σ = (.ok (), τ) →
        (τ.session.transaction t).state = .committed ∧ σ.Since (fun later =>
          ∃ c token, .asked (.send c (.transaction t) .commit) (.ok token) ∈ later) τ := by
  refine ⟨?_, fun σ op t given => ?_, fun σ t source params inactive => ?_, fun σ τ t e => ?_⟩
  · have recounts : (play peer config w ops).Recounts :=
      recounts_kept.play (State.initial_recounts config) w ops
    exact (play_proper peer config w ops).respects recounts.numbered.once recounts.past
  · exact ((lasts_kept σ.session).operation (.same rfl) op).leadsTo t given
  · exact (runIn_refused inactive source params).state
  · exact (commit_acknowledged σ t).of_ok e

end GraphSession
