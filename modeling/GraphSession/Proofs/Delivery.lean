import GraphSession.Proofs.Reading

/-!
  What a reader is handed.

  A history tells which records of a result were handed out, by whichever way of reading.  Against
  a server that is faithful they are records of that result's own list, in its order and each once,
  under the keys of its own query.

  That none is left out in between needs that no reader has *spoiled* the result.  There are two
  ways to do that, and both lose records of a result that can still be read: `single` failing
  because there is more than one record, after which the records that were at hand are still there;
  and `single` or `collect` failing because the report of a bookmark failed.  A result that is not
  spoiled hands out the beginning of its list, and all of it when it is read to the end, unless its
  rest was dropped on purpose.
-/

namespace GraphSession

variable {ω α : Type} {peer : Peer ω} {r : ResultId}

/-! ## Uses of a handle -/

/-- The records of a result that a use of its handle hands out. -/
def Happening.handed (r : ResultId) : Happening → List Record
  | used (.next id) (.ok record) => if id = r then record.toList else []
  | used (.single id) (.ok record) => if id = r then [record] else []
  | used (.collect id) (.ok records) => if id = r then records else []
  | used (.drain id) (.ok (records, _)) => if id = r then records else []
  | _ => []

/-- A reader failed and lost what it had read of a result that can still be read. -/
def Spoils (r : ResultId) (past : History) : Happening → Prop
  | .used (.single id) (.error fault) => id = r ∧ (fault = .manyRecords ∨ past.Reported fault)
  | .used (.collect id) (.error fault) => id = r ∧ past.Reported fault
  | _ => False

/-- The rest of a result may have been dropped, by its reader or with its session. -/
def Happening.Drops (r : ResultId) : Happening → Prop
  | used (.single id) _ | used (.consume id) _ => id = r
  | asked (.note .sessionClosed) _ => True
  | _ => False

/-- A reader was told that there are no more records. -/
def Happening.ReadsOut (r : ResultId) : Happening → Prop
  | used (.next id) (.ok none) | used (.peek id) (.ok none) => id = r
  | used (.collect id) (.ok _) => id = r
  | used (.drain id) (.ok (_, none)) => id = r
  | _ => False

namespace History

/-- All records of a result that were handed out, first to last. -/
def handed (r : ResultId) (h : History) : List Record := h.gather (Happening.handed r)

/-- No reader has spoiled the result. -/
def Unspoiled (r : ResultId) (h : History) : Prop := Always (fun past e => ¬ Spoils r past e) h

/-- The rest of a result may have been dropped. -/
def Dropped (r : ResultId) (h : History) : Prop := ∃ e ∈ h, e.Drops r

end History

/-- What the history says when a handle is used: a record that is peeked at is the next one, and at
    the end all records have come and were handed out. -/
structure Told (r : ResultId) (past : History) (e : Happening) : Prop where
  peeked : ∀ record, e = .used (.peek r) (.ok (some record)) → past.Unspoiled r →
    past.handed r ++ [record] <+: past.rows r (past.sent r)
  complete : e.ReadsOut r → ¬ past.Dropped r → past.Complete r
  readOut : e.ReadsOut r → past.Unspoiled r → ¬ past.Dropped r →
    History.handed r (e :: past) = past.rows r (past.sent r)

/-! ## Deliveries -/

/-- What is gone of a result was handed out, or lost where it was spoiled; and its stream is open or
    complete unless its rest was dropped. -/
structure State.Delivers (r : ResultId) (σ : State (Recorded ω)) : Prop where
  stock : ∃ gone, (σ.history.handed r).Sublist gone ∧ σ.Stock r gone ∧
    (σ.history.Unspoiled r → gone = σ.history.handed r)
  whole : σ.history.Dropped r ∨ σ.Whole r
  told : Always (Told r) σ.history

/-- The session tracks its results and delivers them. -/
def State.IsDelivering (σ : State (Recorded ω)) : Prop := σ.Tracked ∧ ∀ r, σ.Delivers r

/-- What a use of a handle does to a result of which `gone` was gone. -/
structure Access.Serves (a : Access) (r : ResultId) (gone : List Record)
    (outcome : Except Fault a.Reply) (τ : State (Recorded ω)) : Prop where
  stock : ∃ out, ((Happening.used a outcome).handed r).Sublist out ∧ τ.Stock r (gone ++ out) ∧
    (¬ Spoils r τ.history (.used a outcome) → out = (Happening.used a outcome).handed r)
  peeked : ∀ record, Happening.used a outcome = .used (.peek r) (.ok (some record)) →
    τ.Readable r ∧ (τ.session.result r).buffer.head? = some record
  readOut : (Happening.used a outcome).ReadsOut r → τ.AtEnd r

variable {σ τ : State (Recorded ω)} {gone : List Record}

/-! ## What a reader hands out -/

/-- The result that an access reads. -/
def Access.reads? : Access → Option ResultId
  | next id | peek id | single id | collect id | drain id => some id
  | _ => none

/-- Who reads one result hands out nothing of another. -/
theorem Access.handed_elsewhere {a : Access} (other : a.reads? ≠ some r)
    (outcome : Except Fault a.Reply) : (Happening.used a outcome).handed r = [] := by
  cases a with
  | next id | single id | collect id | drain id =>
    cases outcome with
    | error fault => rfl
    | ok reply => exact if_neg fun own => other (congrArg some own)
  | _ => rfl

/-- Who reads one result is not told the end of another. -/
theorem Access.not_readsOut_elsewhere {a : Access} (other : a.reads? ≠ some r)
    (outcome : Except Fault a.Reply) : ¬ (Happening.used a outcome).ReadsOut r := by
  intro e
  cases a with
  | next id | peek id =>
    rcases outcome with fault | (_ | record)
    · exact e
    · exact other (congrArg some e)
    · exact e
  | collect id =>
    rcases outcome with fault | records
    · exact e
    · exact other (congrArg some e)
  | drain id =>
    rcases outcome with fault | ⟨records, _ | fault⟩
    · exact e
    · exact other (congrArg some e)
    · exact e
  | _ => exact e

/-- Who reads one result takes nothing of another. -/
theorem Access.not_takes_elsewhere {a : Access} (other : a.reads? ≠ some r) :
    ¬ a.license.takes r := by
  intro takes
  cases a with
  | next id | single id | collect id | drain id => exact other (congrArg some (Eq.symm takes))
  | _ => exact takes

namespace Access.Serves

variable {a : Access} {outcome : Except Fault a.Reply}

/-- Only a look shows a record. -/
theorem not_peeked (other : a ≠ .peek r) (record : Record)
    (e : Happening.used a outcome = .used (.peek r) (.ok (some record))) :
    τ.Readable r ∧ (τ.session.result r).buffer.head? = some record := by
  cases e
  exact absurd rfl other

/-- What an access other than a look hands out is what is gone after it. -/
theorem of_handed {out : List Record} (handed : (Happening.used a outcome).handed r = out)
    (stock : τ.Stock r (gone ++ out)) (other : a ≠ .peek r)
    (readOut : (Happening.used a outcome).ReadsOut r → τ.AtEnd r) : a.Serves r gone outcome τ :=
  ⟨⟨out, handed ▸ List.Sublist.refl _, stock, fun _ => handed.symm⟩, not_peeked other, readOut⟩

/-- What a reader that fails has lost shows only where it spoils the result. -/
theorem of_lost {lost : List Record} (stock : τ.Stock r (gone ++ lost))
    (nothing : (Happening.used a outcome).handed r = []) (other : a ≠ .peek r)
    (excuse : ¬ Spoils r τ.history (.used a outcome) → lost = [] ∨ ¬ τ.Readable r)
    (readOut : ¬ (Happening.used a outcome).ReadsOut r) : a.Serves r gone outcome τ := by
  refine ⟨?_, not_peeked other, fun e => absurd e readOut⟩
  rw [nothing]
  by_cases spoils : Spoils r τ.history (.used a outcome)
  · exact ⟨lost, List.nil_sublist _, stock, fun n => absurd spoils n⟩
  · refine ⟨[], List.Sublist.refl _, ?_, fun _ => rfl⟩
    rw [List.append_nil]
    rcases excuse spoils with rfl | spent
    · rwa [List.append_nil] at stock
    · exact stock.shrink spent

end Access.Serves

theorem next_serves (tracked : σ.Tracked) (h : σ.Stock r gone) :
    Act.Ends (next peer.recorded r).run σ fun outcome τ =>
      (Access.next r).Serves r gone outcome τ := by
  rw [Act.ends_run]
  refine (next_reads tracked h).imp ?_ ?_
  · intro out τ hτ
    obtain ⟨-, -, stock, dry⟩ := hτ
    refine .of_handed (if_pos rfl) stock (by simp) fun e => ?_
    cases out with
    | none => exact dry rfl
    | some record => cases e
  · intro fault τ hτ
    have stock : τ.Stock r (gone ++ []) := (List.append_nil gone).symm ▸ hτ.2.1
    exact .of_handed rfl stock (by simp) fun e => absurd e (fun h => h)

theorem peek_serves (tracked : σ.Tracked) (h : σ.Stock r gone) :
    Act.Ends (peek peer.recorded r).run σ fun outcome τ =>
      (Access.peek r).Serves r gone outcome τ := by
  have course : (GraphSession.peek peer.recorded r).Within {} := peek_within r
  -- a look takes nothing
  have unchanged {τ : State (Recorded ω)} (course : Course {} σ τ) : τ.Stock r (gone ++ []) := by
    rw [List.append_nil]
    exact (h.kept tracked course (fun h => h)).2
  rw [Act.ends_run]
  refine (peek_reads.and (course.ends σ)).imp ?_ ?_
  · intro out τ hτ
    obtain ⟨⟨can, head, dry⟩, course⟩ := hτ
    refine ⟨⟨[], List.Sublist.refl _, unchanged course, fun _ => rfl⟩, fun record e => ?_,
      fun e => ?_⟩
    · cases e
      exact ⟨can, head.symm⟩
    · cases out with
      | none => exact dry rfl
      | some record => cases e
  · intro fault τ hτ
    refine ⟨⟨[], List.Sublist.refl _, unchanged hτ.2, fun _ => rfl⟩, fun record e => ?_,
      fun e => absurd e (fun h => h)⟩
    cases e

theorem single_serves (tracked : σ.Tracked) (h : σ.Stock r gone) :
    Act.Ends (single peer.recorded r).run σ fun outcome τ =>
      (Access.single r).Serves r gone outcome τ := by
  rw [Act.ends_run]
  refine (single_reads tracked h).imp ?_ ?_
  · intro record τ stock
    exact .of_handed (if_pos rfl) stock (by simp) fun e => absurd e (fun h => h)
  · intro fault τ hτ
    obtain ⟨lost, stock, excuse⟩ := hτ
    refine .of_lost stock rfl (by simp) (fun unspoiled => ?_) (fun h => h)
    rcases excuse with none_lost | many | reportFault
    · exact .inl none_lost
    · exact absurd ⟨rfl, .inl many⟩ unspoiled
    · exact .inr fun can => unspoiled ⟨rfl, .inr (reportFault can)⟩

theorem collect_serves (tracked : σ.Tracked) (h : σ.Stock r gone) :
    Act.Ends (collect peer.recorded r).run σ fun outcome τ =>
      (Access.collect r).Serves r gone outcome τ := by
  rw [Act.ends_run]
  refine (collect_reads tracked h).imp ?_ ?_
  · intro records τ hτ
    exact .of_handed (if_pos rfl) hτ.1 (by simp) fun _ => hτ.2
  · intro fault τ hτ
    obtain ⟨lost, stock, reportFault⟩ := hτ
    exact .of_lost stock rfl (by simp)
      (fun unspoiled => .inr fun can => unspoiled ⟨rfl, reportFault can⟩) (fun h => h)

theorem drain_serves (tracked : σ.Tracked) (h : σ.Stock r gone) :
    Act.Ends (liftM (drain peer.recorded r) : Op (Recorded ω) _).run σ fun outcome τ =>
      (Access.drain r).Serves r gone outcome τ := by
  rw [Act.ends_run, Op.ends_lift]
  refine (drain_drained tracked h).imp fun out τ hτ => ?_
  obtain ⟨records, fault⟩ := out
  refine .of_handed (if_pos rfl) hτ.stock (by simp) fun e => ?_
  cases fault with
  | none => exact hτ.atEnd rfl
  | some fault => cases e

/-- Every use of a handle hands out what was next at hand. -/
theorem Access.perform_serves (tracked : σ.Tracked) (h : σ.Stock r gone) (a : Access) :
    Act.Ends (a.perform peer.recorded).run σ fun outcome τ => a.Serves r gone outcome τ := by
  by_cases own : a.reads? = some r
  · cases a with
    | next id =>
      cases own
      exact next_serves tracked h
    | peek id =>
      cases own
      exact peek_serves tracked h
    | single id =>
      cases own
      exact single_serves tracked h
    | collect id =>
      cases own
      exact collect_serves tracked h
    | drain id =>
      cases own
      exact drain_serves tracked h
    | _ => cases own
  · have other : a ≠ .peek r := fun e => own (by rw [e, reads?])
    have quiet {τ : State (Recorded ω)} (course : Course a.license σ τ) (outcome) :
        a.Serves r gone outcome τ := by
      refine .of_handed (handed_elsewhere own outcome) ?_ other fun e =>
        absurd e (not_readsOut_elsewhere own outcome)
      rw [List.append_nil]
      exact (h.kept tracked course (not_takes_elsewhere own)).2
    rw [Act.ends_run]
    exact (a.perform_within.ends σ).imp (fun _ _ course => quiet course _)
      fun _ _ course => quiet course _

/-! ## What keeps deliveries -/

section Frames

variable {later past : History} {e : Happening}

/-- Requests hand nothing out. -/
theorem handed_asked (asked : ∀ e ∈ later, ∃ request answer, e = .asked request answer) :
    History.handed r (later ++ past) = past.handed r :=
  History.gather_append fun e he => by
    obtain ⟨request, answer, rfl⟩ := asked e he
    rfl

theorem History.Dropped.mono {h : History} (dropped : past.Dropped r) (grown : past <:+ h) :
    h.Dropped r :=
  Exists.imp (fun _ he => ⟨grown.subset he.1, he.2⟩) dropped

/-- Requests tell a reader nothing. -/
theorem told_asked {request : Request} {answer : request.Answer} :
    Told r past (.asked request answer) :=
  ⟨by simp, fun e => absurd e (fun h => h), fun e => absurd e (fun h => h)⟩

/-- A reader that was told of the end has not failed. -/
theorem Happening.ReadsOut.not_spoils (readOut : e.ReadsOut r) : ¬ Spoils r past e := by
  unfold ReadsOut at readOut
  split at readOut
  · exact fun h => h
  · exact fun h => h
  · exact fun h => h
  · exact fun h => h
  · cases readOut

/-- A use of a handle that may drop the rest of a result is known to. -/
theorem Access.drops_of_license (a : Access) (outcome : Except Fault a.Reply)
    (h : a.license.drops r) : (Happening.used a outcome).Drops r := by
  cases a with
  | single id | consume id => exact Eq.symm h
  | _ => exact h

end Frames

namespace State

/-- What was delivered before an action was delivered, and what was told before it is so. -/
theorem Delivers.along {may : License} (h : σ.Delivers r) (tracked : σ.Tracked)
    (course : Course may σ τ) :
    ∃ gone, σ.Stock r gone ∧ (τ.history.handed r).Sublist gone ∧
      (τ.history.Unspoiled r → gone = τ.history.handed r) ∧
      (τ.history.Dropped r ∨ τ.Whole r ∨ may.drops r) ∧ Always (Told r) τ.history := by
  obtain ⟨gone, sublist, stock, exactly⟩ := h.stock
  obtain ⟨later, history, asked⟩ := course.permitted
  have handed : τ.history.handed r = σ.history.handed r := by
    rw [history, handed_asked fun e he => (asked e he).1]
  refine ⟨gone, stock, handed ▸ sublist, ?_, ?_, ?_⟩
  · intro unspoiled
    rw [handed]
    rw [history] at unspoiled
    exact exactly unspoiled.of_append
  · rcases h.whole with dropped | whole
    · exact .inl (dropped.mono course.grows)
    · by_cases drops : may.drops r
      · exact .inr (.inr drops)
      · exact .inr (.inl (((course.resultKept tracked).2 r).whole drops whole))
  · rw [history]
    refine h.told.append fun e he past => ?_
    obtain ⟨request, answer, rfl⟩ := (asked e he).1
    exact told_asked

/-- An action that hands out nothing of any result, and drops only what the history tells of. -/
theorem IsDelivering.course {may : License} (h : σ.IsDelivering) (course : Course may σ τ)
    (takes : ∀ r, ¬ may.takes r) (drops : ∀ r, may.drops r → τ.history.Dropped r) :
    τ.IsDelivering := by
  refine ⟨(course.resultKept h.1).1, fun r => ?_⟩
  obtain ⟨gone, stock, sublist, exactly, whole, told⟩ := (h.2 r).along h.1 course
  refine ⟨⟨gone, sublist, (stock.kept h.1 course (takes r)).2, exactly⟩, ?_, told⟩
  rcases whole with dropped | whole | dropping
  · exact .inl dropped
  · exact .inr whole
  · exact .inl (drops r dropping)

/-- A line of the history that is neither a use of a handle nor a request. -/
theorem IsDelivering.ended (h : σ.IsDelivering) (fault : Option Fault) :
    State.IsDelivering { σ with world := σ.world.add (.returned fault) } := by
  have plain : (Happening.returned fault).IsPlain := trivial
  refine ⟨h.1.plain plain rfl rfl, fun r => ?_⟩
  have resultKept : σ.ResultKept {} r { σ with world := σ.world.add (.returned fault) } :=
    .plain plain rfl rfl
  obtain ⟨gone, sublist, stock, exactly⟩ := (h.2 r).stock
  have handed : History.handed r (.returned fault :: σ.history) = σ.history.handed r :=
    List.append_nil _
  refine ⟨⟨gone, ?_, resultKept.stock (fun h => h) gone stock, fun unspoiled => ?_⟩, ?_, ?_⟩
  · show (History.handed r (.returned fault :: σ.history)).Sublist gone
    rw [handed]
    exact sublist
  · show gone = History.handed r (.returned fault :: σ.history)
    rw [handed]
    exact exactly unspoiled.2
  · exact (h.2 r).whole.imp (fun dropped => dropped.mono (List.suffix_cons _ _))
      (resultKept.whole fun h => h)
  · exact ⟨⟨by simp, fun e => absurd e (fun h => h), fun e => absurd e (fun h => h)⟩,
      (h.2 r).told⟩

end State

/-- Who reads to the end drops nothing. -/
theorem Access.not_drops_of_readsOut (a : Access) {outcome : Except Fault a.Reply}
    (h : (Happening.used a outcome).ReadsOut r) : ¬ a.license.drops r := by
  cases a with
  | single id | consume id => exact absurd h (fun h => h)
  | _ => exact fun h => h

namespace Access.Serves

variable {a : Access} {outcome : Except Fault a.Reply}

/-- What a reader is told is so. -/
theorem told (s : a.Serves r gone outcome τ)
    (exactly : τ.history.Unspoiled r → gone = τ.history.handed r)
    (whole : τ.history.Dropped r ∨ τ.Whole r ∨ a.license.drops r) :
    Told r τ.history (.used a outcome) := by
  obtain ⟨out, -, stock, exactOut⟩ := s.stock
  refine ⟨?_, fun e n => ?_, fun e unspoiled _ => ?_⟩
  · -- a look hands out nothing
    intro record e unspoiled
    have unspoiling : ¬ Spoils r τ.history (.used a outcome) := by rw [e]; exact fun h => h
    have nothing : (Happening.used a outcome).handed r = [] := by rw [e]; rfl
    rw [exactOut unspoiling, nothing, List.append_nil, exactly unspoiled] at stock
    obtain ⟨can, head⟩ := s.peeked record e
    obtain ⟨rest, split⟩ := List.head?_eq_some_iff.mp head
    have all := stock.readable can
    rw [split] at all
    exact ⟨rest, by rw [List.append_assoc]; exact all⟩
  · have atEnd := s.readOut e
    have whole : τ.Whole r := (whole.resolve_left n).resolve_right (a.not_drops_of_readsOut e)
    refine (whole atEnd.readable).resolve_left fun streaming => ?_
    rw [atEnd.ended] at streaming
    cases streaming
  · have all := stock.atEnd (s.readOut e)
    rwa [exactly unspoiled, exactOut e.not_spoils] at all

/-- A use of a handle delivers what it hands out. -/
theorem delivers (s : a.Serves r gone outcome τ) (sublist : (τ.history.handed r).Sublist gone)
    (exactly : τ.history.Unspoiled r → gone = τ.history.handed r)
    (whole : τ.history.Dropped r ∨ τ.Whole r ∨ a.license.drops r)
    (told : Always (Told r) τ.history) :
    State.Delivers r { τ with world := τ.world.add (.used a outcome) } := by
  have plain : (Happening.used a outcome).IsPlain := trivial
  have logged : τ.ResultKept {} r { τ with world := τ.world.add (.used a outcome) } :=
    .plain plain rfl rfl
  obtain ⟨out, outSublist, stock, exactOut⟩ := s.stock
  refine ⟨⟨gone ++ out, sublist.append outSublist, logged.stock (fun h => h) _ stock,
    fun unspoiled => ?_⟩, ?_, s.told exactly whole, told⟩
  · rw [exactly unspoiled.2, exactOut unspoiled.1]
    rfl
  · rcases whole with dropped | whole | drops
    · exact .inl (dropped.mono (List.suffix_cons _ _))
    · exact .inr (logged.whole (fun h => h) whole)
    · exact .inl ⟨_, List.mem_cons_self, a.drops_of_license outcome drops⟩

end Access.Serves

/-- The history tells of every use of a handle, and of what it handed out. -/
theorem Access.performTold_delivering (h : σ.IsDelivering) (a : Access) :
    (a.performTold peer).Ends σ fun _ τ => τ.IsDelivering := by
  have told {τ : State (Recorded ω)} {outcome : Except Fault a.Reply}
      (course : Course a.license σ τ)
      (serves : ∀ r gone, σ.Stock r gone → a.Serves r gone outcome τ) :
      State.IsDelivering { τ with world := τ.world.add (.used a outcome) } := by
    refine ⟨(course.resultKept h.1).1.plain (e := .used a outcome) trivial rfl rfl, fun r => ?_⟩
    obtain ⟨gone, stock, sublist, exactly, whole, told⟩ := (h.2 r).along h.1 course
    exact (serves r gone stock).delivers sublist exactly whole told
  have course : Act.Ends (a.perform peer.recorded).run σ fun _ τ => Course a.license σ τ :=
    a.perform_within σ
  exact told course fun r gone stock => a.perform_serves h.1 stock

/-! ## Sequences of operations -/

/-- Closing a session drops what is left, and the history tells of it. -/
theorem close_delivering (h : σ.IsDelivering) :
    (close peer.recorded).Ends σ fun _ τ => τ.IsDelivering := by
  have course : (close peer.recorded).Ends σ fun _ τ => Course .closing σ τ := close_ends σ
  have closed : (close peer.recorded).Ends σ fun _ τ =>
      τ = σ ∨ ∃ past, τ.history = .asked (.note .sessionClosed) () :: past := by
    rw [close, Act.ends_bind, Act.ends_theSession]
    split
    · exact .inr ⟨_, rfl⟩
    · exact .inl rfl
  refine (course.and closed).imp fun _ τ hτ => ?_
  rcases hτ.2 with rfl | ⟨past, history⟩
  · exact h
  · refine h.course hτ.1 (fun _ h => h) fun r _ => ?_
    rw [history]
    exact ⟨_, List.mem_cons_self, trivial⟩

/-- Everything a session does keeps its deliveries. -/
theorem delivering_kept : Kept peer (State.IsDelivering (ω := ω)) where
  course h course := h.course course (fun _ h => h) fun _ drops => absurd drops (fun h => h)
  call _ a h := a.performTold_delivering h
  drift _ _ h := ⟨⟨h.1.started, h.1.unstarted, h.1.fresh⟩, fun r =>
    ⟨(h.2 r).stock.imp fun _ hg => ⟨hg.1, ⟨hg.2.1.inOrder, hg.2.1.readable⟩, hg.2.2⟩,
      (h.2 r).whole, (h.2 r).told⟩⟩
  ended _ fault h := h.ended fault
  close _ h := close_delivering h

/-- Of a new session nothing was handed out. -/
theorem State.initial_delivering (config : SessionConfig) (w : ω) :
    (State.initial config w).IsDelivering := by
  have tracked : (State.initial config w).Tracked :=
    ⟨fun r started => absurd started (Nat.not_lt_zero r), fun _ _ => ⟨rfl, rfl⟩, trivial⟩
  refine ⟨tracked, fun r => ⟨⟨[], ?_, ?_, fun _ => rfl⟩, ?_, trivial⟩⟩
  · exact List.Sublist.refl _
  · exact ⟨List.nil_prefix, fun _ => rfl⟩
  · refine .inr fun can => ?_
    rw [Session.result_of_le (Nat.zero_le r)] at can
    cases can

/-- What a history says of the deliveries of a result behind which the server holds `content`. -/
structure Delivery (content : List (List Value)) (r : ResultId) (h : History) : Prop where
  /-- What is handed out are records of its own list, in order and each once. -/
  sublist : (h.handed r).Sublist (h.rows r content)
  /-- They are the first ones, if it is not spoiled. -/
  inOrder : h.Unspoiled r → h.handed r <+: h.rows r content
  /-- A record that is peeked at is the next one. -/
  peeked : ∀ (later past : History) record,
    h = later ++ .used (.peek r) (.ok (some record)) :: past → past.Unspoiled r →
      past.handed r ++ [record] <+: past.rows r content
  /-- Who has read to the end was handed the whole list. -/
  readOut : ∀ (later past : History) e, h = later ++ e :: past → e.ReadsOut r →
    past.Unspoiled r → ¬ past.Dropped r → History.handed r (e :: past) = past.rows r content

/-- Whatever operations a session goes through, against a faithful server every result hands out
    records of its own list and of no other: those that are next, each once and in order, unless a
    reader spoiled the result, and all of them when it is read to the end. -/
theorem play_delivers (peer : Peer ω) (config : SessionConfig) (w : ω) (ops : List (Operation ω))
    (content : ResultId → List (List Value))
    (faithful : Always (Faithful content) (play peer config w ops).history) (r : ResultId) :
    Delivery (content r) r (play peer config w ops).history := by
  obtain ⟨tracked, delivers⟩ : (play peer config w ops).IsDelivering :=
    delivering_kept.play (State.initial_delivering config) w ops
  have supply (later past : History) (split : (play peer config w ops).history = later ++ past) :
      Supplied (content r) r past := by
    have proper := play_proper peer config w ops
    have fresh := tracked.fresh
    rw [split] at proper fresh faithful
    exact supplied proper.of_append fresh.of_append faithful.of_append r
  have now := supply [] _ rfl
  obtain ⟨gone, sublist, stock, exactly⟩ := (delivers r).stock
  have ahead : (play peer config w ops).records r <+:
      History.rows r (play peer config w ops).history (content r) :=
    now.inOrder.map _
  refine ⟨sublist.trans (stock.inOrder.trans ahead).sublist, fun unspoiled => ?_,
    fun later past record split unspoiled => ?_, fun later past e split readOut unspoiled n => ?_⟩
  · rw [← exactly unspoiled]
    exact stock.inOrder.trans ahead
  · have told := (delivers r).told
    rw [split] at told
    have before := supply (later ++ [_]) past (by rw [split, List.append_assoc]; rfl)
    exact (told.at.peeked record rfl unspoiled).trans (before.inOrder.map _)
  · have told := (delivers r).told
    rw [split] at told
    have before := supply (later ++ [e]) past (by rw [split, List.append_assoc]; rfl)
    rw [told.at.readOut readOut unspoiled n, before.complete (told.at.complete readOut n)]

/-! ## A faithful server -/

/-- A server that holds two records behind every query. -/
def twoRecords : Peer (List (List Value)) where
  routing := false
  answer
    | .acquire _, left => (.ok default, left)
    | .findHome _, left => (.ok [], left)
    | .getBookmarks, left => (.ok .empty, left)
    | .updateBookmarks .., left => (.ok (), left)
    | .send _ _ (.run _), _ => (.ok ⟨["n"], none, .empty⟩, [[.integer 1], [.integer 2]])
    | .send _ _ (.pull size), left =>
      (.ok ⟨size.take left, !(size.drop left).isEmpty, .empty⟩, size.drop left)
    | .send _ _ .discard, _ => (.ok .empty, [])
    | .send _ _ (.begin _), left | .send _ _ .commit, left => (.ok none, left)
    | .send _ _ (.telemetry _), left | .send _ _ .rollback, left | .send _ _ .reset, left =>
      (.ok (), left)
    | .readClock, left => (default, left)
    | .drawSample, left => (0, left)
    | .release _, left | .sleep _, left | .note _, left => ((), left)
  backlog left := left.length
  backlog_lt := by
    intro left left' c sender size batch h more
    obtain ⟨ha, hleft⟩ := Prod.mk.inj h
    subst hleft
    cases ha
    cases size with
    | all => simp [FetchSize.drop] at more
    | upTo n =>
      have positive : 0 < n.val := n.property
      have some_left : left.drop n.val ≠ [] := by simpa [FetchSize.drop] using more
      have long := List.length_pos_iff.mpr some_left
      simp only [FetchSize.drop, List.length_drop] at long ⊢
      omega

/-- A query, whose result is collected. -/
def queryCollected : List (Operation (List (List Value))) :=
  [.run (.query { text := "RETURN n" }) none, .access (.collect 0)]

/-- Both records are handed out. -/
theorem play_delivers_two :
    Always (Faithful fun _ => [[.integer 1], [.integer 2]])
        (play twoRecords {} [] queryCollected).history ∧
      (play twoRecords {} [] queryCollected).history.handed 0 =
        [⟨["n"], [.integer 1]⟩, ⟨["n"], [.integer 2]⟩] ∧
      Delivery [[.integer 1], [.integer 2]] 0 (play twoRecords {} [] queryCollected).history := by
  let queried := play twoRecords {} [] [.run (.query { text := "RETURN n" }) none]
  have read : (play twoRecords {} [] queryCollected).history =
      .used (.collect 0) (.ok [⟨["n"], [.integer 1]⟩, ⟨["n"], [.integer 2]⟩]) ::
        queried.history := by
    show (Operation.after twoRecords queried (.access (.collect 0))).history = _
    rw [Operation.after, Operation.perform, Act.exec_bind, Access.performTold, Act.exec_bind,
      Act.exec_run, Access.perform, collect_ended rfl rfl]
    rfl
  have faithful : Always (Faithful fun _ => [[.integer 1], [.integer 2]])
      (play twoRecords {} [] queryCollected).history := by
    rw [read]
    refine ⟨trivial, trivial, trivial, fun d r lent opened => ?_, trivial, trivial, trivial,
      trivial, trivial⟩
    -- the pull, which asked for more than there was
    cases lent
    exact ⟨rfl, fun _ => rfl⟩
  exact ⟨faithful, by rw [read]; rfl, play_delivers twoRecords {} [] queryCollected _ faithful 0⟩

end GraphSession
