import GraphSession.Proofs.Chaining
import GraphSession.Proofs.ClearingUp
import GraphSession.Proofs.Lifecycle
import GraphSession.Proofs.Sharing
import GraphSession.Proofs.Supply

/-!
  Units of work in a history.

  A unit of work is opened by a query outside of transactions, or by a begin, and its request bears
  bookmarks.  Its last answer may carry a token, and then a report is due: from what the unit bore
  to the token.  All of this is read off the messages alone (`History.completed`), and so is what
  was reported; a history is balanced when the two agree, in the same order, but for at most one
  report that is still to come.

  A unit is completed by the end of its stream or by the commit of its transaction.  Streams do not
  open twice and transactions do not begin twice, so no unit is completed twice.
-/

namespace GraphSession

/-! ## Units of work in a history -/

/-- The unit of work that is opened, by who sends for it, with the bookmarks that it bears: a query
    outside of any transaction, or a transaction. -/
def Happening.opens? (past : History) : Happening → Option (Sender × Bookmarks)
  | asked (.send c (.result r) (.run request)) (.ok _) =>
    if past.inTransaction c then none else some (.result r, request.work.bookmarks)
  | asked (.send _ (.transaction t) (.begin request)) (.ok _) =>
    some (.transaction t, request.bookmarks)
  | _ => none

/-- The token in an answer, if it is the last one that a unit of work waits for. -/
def Message.token? : (m : Message) → Except Fault m.Reply → Option String
  | .pull _, .ok batch => if batch.more then none else tokenOf batch.metadata
  | .discard, .ok metadata => tokenOf metadata
  | .commit, .ok token => token
  | _, _ => none

/-- The report that is due when a unit of work that bore `sent` returns a token. -/
def Report.due? (sent : Option Bookmarks) (token : Option String) : Option Report :=
  sent.bind fun previous => token.map fun token => ⟨previous, .singleton token⟩

@[simp] theorem Report.due?_of_no_token (sent : Option Bookmarks) : due? sent none = none := by
  cases sent <;> rfl

/-- What the manager is told, whatever it answers. -/
def Happening.reporting? : Happening → Option Report
  | asked (.updateBookmarks previous new) _ => some ⟨previous, new⟩
  | _ => none

namespace History

/-- The bookmarks that a unit of work bears, once it was opened. -/
def sentBy (unit : Sender) : History → Option Bookmarks
  | [] => none
  | e :: past =>
    match e.opens? past with
    | some (opener, sent) => if opener = unit then some sent else sentBy unit past
    | none => sentBy unit past

end History

/-- The unit of work that is completed with a token, and the report that is due for it. -/
def Happening.completion? (past : History) : Happening → Option (Sender × Report)
  | asked (.send _ unit m) answer =>
    (Report.due? (past.sentBy unit) (m.token? answer)).map (Prod.mk unit)
  | _ => none

namespace History

/-- The units of work that were completed with a token, latest first, with the reports due. -/
def completed : History → List (Sender × Report)
  | [] => []
  | e :: past => (e.completion? past).toList ++ completed past

/-- The reports that are due by now. -/
def dues (h : History) : List Report := h.completed.map Prod.snd

/-- The reports that were made. -/
def reported (h : History) : List Report := h.filterMap Happening.reporting?

/-- With a manager, what was reported is what is due, in the same order, but for `pending`; without
    one nothing was. -/
def Balanced (config : SessionConfig) (pending : Option Report) (h : History) : Prop :=
  if config.hasManager then h.dues = pending.toList ++ h.reported else h.reported = []

end History

/-- At most the latest report that is due is still to come. -/
def Prompt (config : SessionConfig) (past : History) (e : Happening) : Prop :=
  ∃ pending, History.Balanced config pending (e :: past)

/-- Something that neither opens a unit of work nor completes one, and that reports nothing. -/
structure Happening.IsIncidental (e : Happening) : Prop where
  unopened : ∀ past, e.opens? past = none
  uncompleted : ∀ past, e.completion? past = none
  unreported : e.reporting? = none

namespace Happening.IsIncidental

variable {e : Happening} {past later : History} {config : SessionConfig} {pending : Option Report}

/-- Messages other than those that open or complete a unit of work. -/
theorem send {c : Connection} {sender : Sender} {m : Message} {answer : Except Fault m.Reply}
    (unopened : ∀ past, (asked (.send c sender m) answer).opens? past = none)
    (untold : m.token? answer = none) : (asked (.send c sender m) answer).IsIncidental where
  unopened := unopened
  uncompleted past := by rw [completion?, untold, Report.due?_of_no_token, Option.map_none]
  unreported := rfl

/-- A message that fails opens and completes nothing. -/
theorem failed (c : Connection) (sender : Sender) (m : Message) (fault : Fault) :
    (asked (.send c sender m) (.error fault)).IsIncidental :=
  .send (fun past => by cases sender <;> cases m <;> rfl) (by cases m <;> rfl)

theorem endsUnits {request : Request} (h : request.EndsUnit) (answer : request.Answer) :
    (asked request answer).IsIncidental := by
  cases request with
  | release | note => exact ⟨fun _ => rfl, fun _ => rfl, rfl⟩
  | _ => cases h

theorem clearing {request : Request} (h : request.ClearsUp) (answer : request.Answer) :
    (asked request answer).IsIncidental := by
  cases request with
  | release | note => exact ⟨fun _ => rfl, fun _ => rfl, rfl⟩
  | send c sender m =>
    cases m with
    | reset | rollback => exact .send (fun _ => by cases sender <;> rfl) rfl
    | _ => cases h
  | _ => cases h

theorem fetching {request : Request} (h : request.IsFetching) (answer : request.Answer) :
    (asked request answer).IsIncidental := by
  cases request with
  | getBookmarks | findHome | acquire => exact ⟨fun _ => rfl, fun _ => rfl, rfl⟩
  | send c sender m =>
    cases m with
    | telemetry kind => exact .send (fun _ => by cases sender <;> rfl) rfl
    | _ => cases h
  | _ => cases h

theorem pausing {request : Request} (h : request.IsPausing) (answer : request.Answer) :
    (asked request answer).IsIncidental := by
  cases request with
  | sleep | readClock | drawSample | note => exact ⟨fun _ => rfl, fun _ => rfl, rfl⟩
  | _ => cases h

theorem used (a : Access) (outcome : Except Fault a.Reply) :
    (Happening.used a outcome).IsIncidental :=
  ⟨fun _ => rfl, fun _ => rfl, rfl⟩

theorem returned (fault : Option Fault) : (Happening.returned fault).IsIncidental :=
  ⟨fun _ => rfl, fun _ => rfl, rfl⟩

theorem notes (notes : ∀ e ∈ later, ∃ event, e = asked (.note event) ()) :
    ∀ e ∈ later, e.IsIncidental := by
  intro e he
  obtain ⟨event, rfl⟩ := notes e he
  exact ⟨fun _ => rfl, fun _ => rfl, rfl⟩

end Happening.IsIncidental

namespace History

variable {e : Happening} {past later : History} {config : SessionConfig} {pending : Option Report}

/-- What is incidental opens no unit. -/
theorem sentBy_append (incidental : ∀ e ∈ later, e.IsIncidental) (unit : Sender) :
    sentBy unit (later ++ past) = past.sentBy unit := by
  induction later with
  | nil => rfl
  | cons e later ih =>
    have here := incidental e List.mem_cons_self
    rw [List.cons_append, sentBy, here.unopened]
    exact ih fun e he => incidental e (List.mem_cons_of_mem _ he)

/-- What opens a unit says what that bears. -/
theorem sentBy_opened {opener : Sender} {sent : Bookmarks}
    (opened : e.opens? past = some (opener, sent)) (unit : Sender) :
    sentBy unit (e :: past) = if opener = unit then some sent else past.sentBy unit := by
  rw [sentBy, opened]

theorem balanced_cons (uncompleted : e.completion? past = none) (unreported : e.reporting? = none)
    (balanced : past.Balanced config pending) : Balanced config pending (e :: past) := by
  unfold Balanced dues reported at *
  rw [completed, uncompleted, List.filterMap_cons, unreported]
  exact balanced

/-- What is incidental leaves due what is due, and reported what was. -/
theorem balanced_append (incidental : ∀ e ∈ later, e.IsIncidental)
    (balanced : past.Balanced config pending) : Balanced config pending (later ++ past) := by
  induction later with
  | nil => exact balanced
  | cons e later ih =>
    have here := incidental e List.mem_cons_self
    exact balanced_cons (here.uncompleted _) here.unreported
      (ih fun e he => incidental e (List.mem_cons_of_mem _ he))

theorem prompt_append (incidental : ∀ e ∈ later, e.IsIncidental)
    (balanced : past.Balanced config pending) (prompt : Always (Prompt config) past) :
    Always (Prompt config) (later ++ past) := by
  induction later with
  | nil => exact prompt
  | cons e later ih =>
    refine ⟨⟨pending, balanced_append incidental balanced⟩, ih fun e he => ?_⟩
    exact incidental e (List.mem_cons_of_mem _ he)

/-- A message that is answered may make a report due. -/
theorem balanced_send {c : Connection} {unit : Sender} {m : Message}
    {answer : Except Fault m.Reply} (balanced : past.Balanced config none) :
    Balanced config (Report.due? (past.sentBy unit) (m.token? answer))
      (.asked (.send c unit m) answer :: past) := by
  have unreported : reported (.asked (.send c unit m) answer :: past) = past.reported := rfl
  have due : dues (.asked (.send c unit m) answer :: past) =
      (Report.due? (past.sentBy unit) (m.token? answer)).toList ++ past.dues := by
    rw [dues, completed, Happening.completion?, List.map_append, dues]
    cases Report.due? (past.sentBy unit) (m.token? answer) <;> rfl
  unfold Balanced at *
  rw [unreported, due]
  split
  · next managed =>
    rw [if_pos managed] at balanced
    rw [balanced]
    rfl
  · next unmanaged =>
    rw [if_neg unmanaged] at balanced
    exact balanced

/-- The report that was still to come is made. -/
theorem balanced_report {report : Report} {answer : Except Fault Unit}
    (managed : config.hasManager = true) (balanced : past.Balanced config (some report)) :
    Balanced config none (.asked (.updateBookmarks report.previous report.new) answer :: past) := by
  unfold Balanced at *
  rw [if_pos managed] at *
  exact balanced

/-- Without a manager no report is to come. -/
theorem Balanced.unmanaged (h : past.Balanced config pending)
    (unmanaged : ¬ config.hasManager = true) (other : Option Report) :
    past.Balanced config other := by
  unfold Balanced at *
  rw [if_neg unmanaged] at *
  exact h

end History

/-! ## No unit of work is completed twice -/

/-- A stream that is open after a message was open before, or was opened by it. -/
theorem Dialogue.stream_of_after {d : Dialogue} {c : Connection} {sender : Sender} {m : Message}
    {answer : Except Fault m.Reply} {r : ResultId}
    (still : (d.after sender m answer).stream = some r) :
    d.stream = some r ∨ ((Happening.asked (.send c sender m) answer).keys? r).isSome = true := by
  match m, answer with
  | .run _, .ok reply =>
    cases sender with
    | result id =>
      obtain rfl : id = r := Option.some.inj still
      refine .inr ?_
      simp [Happening.keys?]
    | session | transaction _ => exact .inl still
  | .pull _, .ok batch =>
    simp only [after] at still
    split at still
    · exact .inl still
    · cases still
  | .begin _, .ok _ =>
    cases sender with
    | session | result _ | transaction _ => exact .inl still
  | .telemetry _, _ => exact .inl still
  | .discard, .ok _ | .commit, .ok _ | .rollback, .ok _ | .reset, .ok _ => cases still
  | .run _, .error _ | .pull _, .error _ | .discard, .error _ | .begin _, .error _
  | .commit, .error _ | .rollback, .error _ | .reset, .error _ => exact .inl still

/-- What starts a result starts a new one. -/
theorem Fresh.unstarted {past : History} {e : Happening} (fresh : Fresh past e) {r : ResultId}
    (starts : (e.keys? r).isSome = true) : past.keys? r = none := by
  unfold Happening.keys? at starts
  split at starts
  · split at starts
    · next own =>
      subst own
      exact fresh
    · cases starts
  · cases starts

namespace Happening

variable {e : Happening} {past : History}

theorem starts_of_opens? {r : ResultId} {sent : Bookmarks}
    (opens : e.opens? past = some (.result r, sent)) : (e.keys? r).isSome = true := by
  unfold opens? at opens
  split at opens
  · split at opens
    · cases opens
    · cases opens
      simp [keys?]
  · cases opens
  · cases opens

/-- A unit of work is completed by a message of its own, whose answer is its last. -/
theorem of_completion? {unit : Sender} {report : Report}
    (completion : e.completion? past = some (unit, report)) :
    ∃ c m answer sent token, e = asked (.send c unit m) answer ∧
      past.sentBy unit = some sent ∧ m.token? answer = some token := by
  unfold completion? at completion
  split at completion
  · next c sender m answer =>
    obtain ⟨due, h, e⟩ := Option.map_eq_some_iff.mp completion
    cases e
    obtain ⟨sent, opened, h⟩ := Option.bind_eq_some_iff.mp h
    obtain ⟨token, told, -⟩ := Option.map_eq_some_iff.mp h
    exact ⟨c, m, answer, sent, token, rfl, opened, told⟩
  · cases completion

end Happening

namespace History

variable {e : Happening} {past h : History}

/-- The stream of a result was opened, and it is over. -/
def Drained (r : ResultId) (h : History) : Prop :=
  (h.keys? r).isSome = true ∧ ∀ c d, History.dialogue c h = some d → d.stream ≠ some r

/-- A stream that is over stays so. -/
theorem Drained.cons {r : ResultId} (drained : past.Drained r) (proper : Always Proper (e :: past))
    (fresh : Fresh past e) : Drained r (e :: past) := by
  refine ⟨?_, fun c d lent stream => ?_⟩
  · rw [keys?_cons, Option.isSome_or, drained.1, Bool.or_true]
  · rcases dialogue_before proper lent with ⟨request, rfl, rfl⟩ |
      ⟨sender, m, answer, d', rfl, lent', -, -, rfl⟩ | ⟨-, lent'⟩
    · cases stream
    · rcases Dialogue.stream_of_after stream with before | starts
      · exact drained.2 c d' lent' before
      · have started := drained.1
        rw [fresh.unstarted starts] at started
        cases started
    · exact drained.2 c d lent' stream

/-- The unit of work is over: its stream is, or its transaction was to be ended. -/
def Over (h : History) : Sender → Prop
  | .result r => h.Drained r
  | .transaction t => h.OpenOnlyFailed t
  | .session => False

/-- A unit of work that is over stays so. -/
theorem Over.cons {unit : Sender} (ended : past.Over unit) (proper : Always Proper (e :: past))
    (fresh : Fresh past e) (once : BeginsOnce past e) : Over (e :: past) unit := by
  cases unit with
  | result r => exact Drained.cons ended proper fresh
  | transaction t => exact (OpenOnlyFailed.cons ended proper once).1
  | session => exact ended

/-- A result that is a unit of its own was started. -/
theorem started_of_sentBy {r : ResultId} {sent : Bookmarks}
    (opened : h.sentBy (.result r) = some sent) : (h.keys? r).isSome = true := by
  induction h with
  | nil => cases opened
  | cons e past ih =>
    rw [keys?_cons, Option.isSome_or, Bool.or_eq_true]
    rw [sentBy] at opened
    split at opened
    · next opener b opens =>
      split at opened
      · next own =>
        subst own
        exact .inl (Happening.starts_of_opens? opens)
      · exact .inr (ih opened)
    · exact .inr (ih opened)

/-- The last answer to a result ends its stream, which was open. -/
theorem drained_of_last {c : Connection} {r : ResultId} {m : Message}
    {answer : Except Fault m.Reply}
    (proper : Always Proper (.asked (.send c (.result r) m) answer :: past))
    {sent : Bookmarks} (opened : past.sentBy (.result r) = some sent)
    (turn : ∀ d : Dialogue, d.Allows (.result r) m → d.stream = some r)
    (ends : ∀ d : Dialogue, (d.after (.result r) m answer).stream = none) :
    ¬ past.Drained r ∧ Drained r (.asked (.send c (.result r) m) answer :: past) := by
  obtain ⟨d, lent, allowed, -⟩ := proper.1
  refine ⟨fun drained => drained.2 c d lent (turn d allowed), ?_, fun c' d' lent' stream => ?_⟩
  · rw [keys?_cons, Option.isSome_or, started_of_sentBy opened, Bool.or_true]
  · rw [dialogue_send proper.2 lent lent', ends] at stream
    cases stream

/-- A unit of work that is completed was not over, and it is. -/
theorem over_of_completion {unit : Sender} {report : Report} (proper : Always Proper (e :: past))
    (once : BeginsOnce past e) (completion : e.completion? past = some (unit, report)) :
    ¬ past.Over unit ∧ Over (e :: past) unit := by
  obtain ⟨c, m, answer, sent, token, rfl, opened, told⟩ := Happening.of_completion? completion
  obtain ⟨d, lent, allowed, -⟩ := proper.1
  match m, answer with
  | .pull size, .ok batch =>
    have last : batch.more = false := by
      cases more : batch.more with
      | false => rfl
      | true => simp [Message.token?, more] at told
    obtain ⟨-, r, rfl, -⟩ := allowed
    refine drained_of_last proper opened (fun d allowed => ?_) fun d => ?_
    · obtain ⟨-, id, own, stream⟩ := allowed
      rw [Sender.result.inj own, stream]
    · simp [Dialogue.after, last]
  | .discard, .ok metadata =>
    obtain ⟨-, r, rfl, -⟩ := allowed
    refine drained_of_last proper opened (fun d allowed => ?_) fun d => rfl
    obtain ⟨-, id, own, stream⟩ := allowed
    rw [Sender.result.inj own, stream]
  | .commit, .ok reply =>
    obtain ⟨-, -, t, rfl, -⟩ := allowed
    have concludes : Happening.concludes t
        (.asked (.send c (.transaction t) .commit) (.ok reply)) = true := by
      simp [Happening.concludes]
    obtain ⟨works, -, spent⟩ := openOnlyFailed_of_concludes proper concludes
    exact ⟨fun ended => (OpenOnlyFailed.cons ended proper once).2 works, spent⟩
  | .run _, _ | .begin _, _ | .rollback, _ | .reset, _ | .telemetry _, _
  | .pull _, .error _ | .discard, .error _ | .commit, .error _ => cases told

/-- No unit of work is completed twice. -/
theorem completed_nodup (proper : Always Proper h) (fresh : Always Fresh h)
    (once : Always BeginsOnce h) : (h.completed.map Prod.fst).Nodup := by
  have all : (h.completed.map Prod.fst).Nodup ∧ ∀ p ∈ h.completed, h.Over p.1 := by
    induction h with
    | nil => exact ⟨.nil, by simp [completed]⟩
    | cons e past ih =>
      obtain ⟨nodup, ended⟩ := ih proper.2 fresh.2 once.2
      have still (p : Sender × Report) (mem : p ∈ completed past) : Over (e :: past) p.1 :=
        (ended p mem).cons proper fresh.1 once.1
      rw [completed]
      cases completion : e.completion? past with
      | none => exact ⟨nodup, still⟩
      | some p =>
        obtain ⟨unit, report⟩ := p
        obtain ⟨notYet, now⟩ := over_of_completion proper once.1 completion
        refine ⟨List.nodup_cons.mpr ⟨fun mem => ?_, nodup⟩, fun p mem => ?_⟩
        · have mem : unit ∈ (completed past).map Prod.fst := mem
          obtain ⟨p, before, rfl⟩ := List.mem_map.mp mem
          exact notYet (ended p before)
        · rcases List.mem_cons.mp mem with rfl | mem
          · exact now
          · exact still p mem
  exact all.1

end History

end GraphSession
