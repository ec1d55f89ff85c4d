import GraphSession.Proofs.Ordinary

/-!
  What servers are told about the calls that borrow connections.

  A connection that an operation borrows for work is told at once, by one message, what kind of call
  it is for: nothing else happens in between, on that connection or on any other.  There are no
  other such messages.  A connection that is held already is not told again, one that is borrowed
  only to look at its server is told nothing, and a session that is configured so tells none of them
  anything.

  `History.Announced` builds the histories of which this is true; it is a frame, and the only action
  that matters to it is `acquire` (`acquire_announces`).  `History.AnnouncesLoans` says the same of
  a given history, wherever it is cut.
-/

namespace GraphSession

variable {ω : Type} {peer : Peer ω}

/-! ## Histories -/

/-- Something that neither lends a connection nor tells what one is for. -/
def Happening.IsSilent : Happening → Prop
  | asked (.acquire _) (.ok _) => False
  | asked (.send _ _ (.telemetry _)) _ => False
  | _ => True

namespace History

/-- Every connection that was lent was told at once of the kind `tell`, if there is one, and none
    was told anything else. -/
inductive Announced (tell : Option ApiKind) : History → Prop
  | nothing : Announced tell []
  | silent {e : Happening} {past : History} (quiet : e.IsSilent) :
    Announced tell past → Announced tell (e :: past)
  | told {request : AcquireRequest} {c : Connection} {kind : ApiKind} {answer : Except Fault Unit}
    {past : History} (told : tell = some kind) : Announced tell past →
    Announced tell (.asked (.send c .session (.telemetry kind)) answer ::
      .asked (.acquire request) (.ok c) :: past)
  | untold {request : AcquireRequest} {c : Connection} {past : History} (untold : tell = none) :
    Announced tell past → Announced tell (.asked (.acquire request) (.ok c) :: past)

theorem Announced.append {tell : Option ApiKind} {past later : History} (h : Announced tell past)
    (h' : Announced tell later) : Announced tell (later ++ past) := by
  induction h' with
  | nothing => exact h
  | silent quiet _ ih => exact .silent quiet ih
  | told told _ ih => exact .told told ih
  | untold untold _ ih => exact .untold untold ih

/-- Wherever a connection was lent, the next thing that happened was a message on it that told it
    the tag, if there is one; and wherever a connection was told anything, it was the tag, and the
    connection had just been lent. -/
structure AnnouncesLoans (tag : Option String) (h : History) : Prop where
  lent : ∀ {later before : History} {request : AcquireRequest} {c : Connection} {name : String},
    h = later ++ .asked (.acquire request) (.ok c) :: before → tag = some name →
    ∃ kind answer after, kind.tag = name ∧
      later = after ++ [.asked (.send c .session (.telemetry kind)) answer]
  told : ∀ {later before : History} {c : Connection} {sender : Sender} {kind : ApiKind}
    {answer : Except Fault Unit},
    h = later ++ .asked (.send c sender (.telemetry kind)) answer :: before →
    tag = some kind.tag ∧ ∃ request past, before = .asked (.acquire request) (.ok c) :: past

variable {tag : Option String} {e : Happening} {past : History}

theorem announcesLoans_nil : AnnouncesLoans tag [] where
  lent cut := absurd cut (by simp)
  told cut := absurd cut (by simp)

/-- A cut of a history with one more thing is at that thing or further back. -/
theorem cut_cons {later before : History} {e' : Happening}
    (cut : e :: past = later ++ e' :: before) :
    (later = [] ∧ e = e' ∧ past = before) ∨
      ∃ rest, later = e :: rest ∧ past = rest ++ e' :: before := by
  cases later with
  | nil =>
    obtain ⟨here, before⟩ := List.cons.inj cut
    exact .inl ⟨rfl, here, before⟩
  | cons e'' rest =>
    obtain ⟨rfl, further⟩ := List.cons.inj cut
    exact .inr ⟨rest, rfl, further⟩

theorem AnnouncesLoans.silent (h : AnnouncesLoans tag past) (quiet : e.IsSilent) :
    AnnouncesLoans tag (e :: past) where
  lent cut named := by
    obtain ⟨-, rfl, -⟩ | ⟨rest, rfl, further⟩ := cut_cons cut
    · exact quiet.elim
    · obtain ⟨kind, answer, after, tagged, rfl⟩ := h.lent further named
      exact ⟨kind, answer, e :: after, tagged, rfl⟩
  told cut := by
    obtain ⟨-, rfl, -⟩ | ⟨rest, rfl, further⟩ := cut_cons cut
    · exact quiet.elim
    · exact h.told further

theorem AnnouncesLoans.announce (h : AnnouncesLoans tag past) {request : AcquireRequest}
    {c : Connection} {kind : ApiKind} (named : tag = some kind.tag) (answer : Except Fault Unit) :
    AnnouncesLoans tag (.asked (.send c .session (.telemetry kind)) answer ::
      .asked (.acquire request) (.ok c) :: past) where
  lent cut named' := by
    obtain ⟨-, differs, -⟩ | ⟨rest, rfl, nearer⟩ := cut_cons cut
    · cases differs
    · obtain ⟨rfl, same, -⟩ | ⟨rest, rfl, further⟩ := cut_cons nearer
      · cases same
        exact ⟨kind, answer, [], Option.some.inj (named.symm.trans named'), rfl⟩
      · obtain ⟨kind', answer', after, tagged, rfl⟩ := h.lent further named'
        exact ⟨kind', answer', _ :: _ :: after, tagged, rfl⟩
  told cut := by
    obtain ⟨-, same, rfl⟩ | ⟨rest, rfl, nearer⟩ := cut_cons cut
    · cases same
      exact ⟨named, request, past, rfl⟩
    · obtain ⟨-, differs, -⟩ | ⟨rest, rfl, further⟩ := cut_cons nearer
      · cases differs
      · exact h.told further

theorem AnnouncesLoans.lend (h : AnnouncesLoans none past) (request : AcquireRequest)
    (c : Connection) : AnnouncesLoans none (.asked (.acquire request) (.ok c) :: past) where
  lent _ named := absurd named.symm (Option.some_ne_none _)
  told cut := by
    obtain ⟨-, differs, -⟩ | ⟨rest, rfl, further⟩ := cut_cons cut
    · cases differs
    · exact h.told further

/-- A history that `Announced` builds announces every loan by the tag of its kind. -/
theorem Announced.announcesLoans {tell : Option ApiKind} {h : History}
    (announced : Announced tell h) : h.AnnouncesLoans (tell.map ApiKind.tag) := by
  induction announced with
  | nothing => exact announcesLoans_nil
  | silent quiet _ ih => exact ih.silent quiet
  | told told _ ih => exact ih.announce (by rw [told]; rfl) _
  | untold untold _ ih =>
    subst untold
    exact ih.lend _ _

end History

/-! ## Actions -/

/-- What a session tells of something, if it tells anything. -/
def SessionConfig.tells {α : Type} (config : SessionConfig) (what : Option α) : Option α :=
  if config.telemetryDisabled then none else what

/-- Every connection that was lent from `σ` to `τ` was announced for this kind of call. -/
def State.Announces (api : Option ApiKind) (σ τ : State (Recorded ω)) : Prop :=
  τ.session.config = σ.session.config ∧
    σ.Since (History.Announced (σ.session.config.tells api)) τ

variable {api : Option ApiKind}

instance : IsFrame (State.Announces (ω := ω) api) where
  rest _ := ⟨rfl, .nothing .nothing rfl⟩
  andThen := by
    intro σ τ υ h h'
    have later := h'.2
    rw [h.1] at later
    exact ⟨h'.1.trans h.1, h.2.andThen later fun _ _ past later => past.append later⟩

theorem State.Announces.quiet {σ τ : State (Recorded ω)} {e : Happening} (quiet : e.IsSilent)
    (config : τ.session.config = σ.session.config) (next : τ.history = e :: σ.history) :
    σ.Announces api τ :=
  ⟨config, [e], next, .silent quiet .nothing⟩

theorem ask_announces (request : Request) (ordinary : request.IsOrdinary) :
    (ask peer.recorded request).Obeys (State.Announces (ω := ω) api) := by
  intro σ
  refine .quiet ?_ rfl rfl
  cases request with
  | acquire request => exact ordinary.elim
  | send c sender m =>
    cases m with
    | telemetry kind => exact ordinary.elim
    | _ => trivial
  | _ => trivial

theorem routine_announces : Routine peer.recorded (State.Announces (ω := ω) api) where
  ask request routine := ask_announces request routine.isOrdinary
  pull := pullHeld_obeys fun _ _ _ _ => .quiet (by trivial) rfl rfl
  change _ _ config := ⟨config, .nothing .nothing rfl⟩

theorem ordinary_announces : OrdinaryWork peer (State.Announces (ω := ω) api) where
  ask := ask_announces
  pull := routine_announces.pull
  started request := routine_announces.startResult fun _ _ _ => .quiet (by trivial) rfl rfl
  change _ _ config := ⟨config, .nothing .nothing rfl⟩
  used _ _ _ := .quiet (by trivial) rfl rfl
  returned _ _ := .quiet (by trivial) rfl rfl
  drift _ _ := ⟨rfl, .nothing .nothing rfl⟩

/-- A connection is announced as soon as it is borrowed. -/
theorem acquire_announces (mode : AccessMode) (database user : Option String)
    (api : Option ApiKind) :
    (acquire peer.recorded mode database user api).Obeys (State.Announces (ω := ω) api) := by
  intro σ
  refine Op.Ends.state ?_
  rw [acquire, Op.ends_bind, Op.ends_theSession, Op.ends_bind]
  refine (ordinary_announces.searching.bookmarksForWork.ends σ).imp (fun b τ path => ?_)
    fun _ _ path => path
  rw [Op.ends_bind]
  refine Op.ends_borrow (fun c w => ?_) fun fault w =>
    IsFrame.andThen path (.quiet (by trivial) rfl rfl)
  have noted {υ : State (Recorded ω)} (h : σ.Announces api υ) :
      Op.Ends (do
        liftM (note peer.recorded (.connectionAcquired mode api))
        return c : Op (Recorded ω) Connection) υ (fun _ => σ.Announces api) fun _ =>
          σ.Announces api :=
    Op.ends_after h
      (Op.Obeys.bind (.lift (ordinary_announces.endsUnits.note _)) (fun _ => .pure _) υ)
  have untold (h : σ.session.config.tells api = none) (request : AcquireRequest) :
      σ.Announces api (τ.heard (.acquire request) (.ok c) w) :=
    IsFrame.andThen path ⟨rfl, [_], rfl, .untold (by rw [path.1]; exact h) .nothing⟩
  cases api with
  | none => exact noted (untold (by simp [SessionConfig.tells]) _)
  | some kind =>
    dsimp only
    split
    · next enabled =>
      have told (request : AcquireRequest) (answer : Except Fault Unit) (w' : ω) :
          σ.Announces (some kind) ((τ.heard (.acquire request) (.ok c) w).heard
            (.send c .session (.telemetry kind)) answer w') := by
        refine IsFrame.andThen path ⟨rfl, [_, _], rfl, .told ?_ .nothing⟩
        rw [path.1]
        simpa [SessionConfig.tells] using enabled
      rw [Op.ends_bind, Op.ends_attempt]
      refine Op.ends_send (fun _ w' => noted (told _ _ w')) fun fault w' => ?_
      -- a connection that fails at this goes back
      rw [Op.ends_bind, Op.ends_lift]
      exact Act.ends_giveBack fun w'' =>
        IsFrame.andThen (told _ _ w') (.quiet (by trivial) rfl rfl)
    · next disabled => exact noted (untold (by simpa [SessionConfig.tells] using disabled) _)

/-! ## Operations -/

/-- What a connection is told that an operation borrows. -/
def Operation.tag? : Operation ω → Option String
  | run .. => some "AUTO_COMMIT"
  | beginTransaction _ => some "TX"
  | execute .. | executeRenamed .. | executeBlocking .. => some "TX_FUNC"
  | executeQuery .. => some "DRIVER"
  | lastBookmarks | lastBookmark | serverInfo | close | access _ | elsewhere _ => none

theorem Operation.tag?_eq (op : Operation ω) : op.tag? = op.api?.map ApiKind.tag := by
  cases op <;> rfl

/-- **One announcement per acquisition.**  Whatever a session does next after whatever was done with
    it, whatever the pool and the server answer: each connection that the operation borrows is told
    at once, by one message, the tag of that operation, and no other such message is sent.  With
    telemetry disabled, or in an operation that has no tag, none is sent at all. -/
theorem operation_announces_loans (peer : Peer ω) (config : SessionConfig) (w : ω)
    (ops : List (Operation ω)) (op : Operation ω) :
    ∃ later, (play peer config w (ops ++ [op])).history =
        later ++ (play peer config w ops).history ∧
      History.AnnouncesLoans (config.tells op.tag?) later := by
  have configured : (play peer config w ops).session.config = config :=
    (configured_kept config).play (fun _ => rfl) w ops
  have announces : (play peer config w ops).Announces op.api?
      (op.after peer (play peer config w ops)) :=
    (ordinary_announces.operation op fun _ _ _ => acquire_announces _ _ _ _) _
  obtain ⟨-, later, grown, announced⟩ := announces
  refine ⟨later, ?_, ?_⟩
  · rw [← grown, play, List.foldl_append]
    rfl
  · have announcesLoans := announced.announcesLoans
    rw [configured] at announcesLoans
    have tags : (config.tells op.api?).map ApiKind.tag = config.tells op.tag? := by
      rw [Operation.tag?_eq, SessionConfig.tells, SessionConfig.tells]
      split <;> rfl
    rwa [tags] at announcesLoans

end GraphSession
