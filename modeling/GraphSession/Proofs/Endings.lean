import GraphSession.Proofs.Conduct

/-!
  How a unit of work ends.

  After its last answer a unit is reported to the bookmark manager, and the session needs the
  connection for one unit less.  The session alone decides what is asked for that and what is left:
  nothing that the surroundings answer has a part in it.

  `Act.Alongside` and `Op.Alongside` compare two actions, each in surroundings of its own.  Unlike
  twins they may be answered differently, so the rules never carry an answer from one action to what
  follows it; only the session is carried.
-/

namespace GraphSession

variable {ω α β α' β' : Type}

/-! ## Actions side by side -/

def Happening.request? : Happening → Option Request
  | asked request _ => some request
  | _ => none

/-- What was asked, whatever the answers were. -/
def History.requests (h : History) : List Request := h.filterMap Happening.request?

theorem History.requests_append (later past : History) :
    requests (later ++ past) = later.requests ++ past.requests :=
  List.filterMap_append

/-- From states with the same session the two actions make the same requests and leave the same
    session, whatever each of them is answered and comes to. -/
def Act.Alongside (x : Act (Recorded ω) α) (y : Act (Recorded ω) α') : Prop :=
  ∀ σ τ, σ.session = τ.session → (x.exec σ).2.session = (y.exec τ).2.session ∧
    ∃ requests, σ.Since (·.requests = requests) (x.exec σ).2 ∧
      τ.Since (·.requests = requests) (y.exec τ).2

/-- As `Act.Alongside`, also when one action fails and the other does not. -/
def Op.Alongside (x : Op (Recorded ω) α) (y : Op (Recorded ω) α') : Prop :=
  Act.Alongside x.run y.run

namespace Act.Alongside

theorem pure (a : α) (b : α') : Act.Alongside (ω := ω) (Pure.pure a) (Pure.pure b) :=
  fun _ _ same => ⟨same, [], .nothing rfl rfl, .nothing rfl rfl⟩

theorem bind {x : Act (Recorded ω) β} {y : Act (Recorded ω) β'} {f : β → Act (Recorded ω) α}
    {g : β' → Act (Recorded ω) α'} (hx : Act.Alongside x y)
    (hf : ∀ a b, Act.Alongside (f a) (g b)) : Act.Alongside (x >>= f) (y >>= g) := by
  intro σ τ same
  obtain ⟨same, l, left, right⟩ := hx σ τ same
  obtain ⟨same, l', left', right'⟩ := hf (x.exec σ).1 (y.exec τ).1 _ _ same
  have joined (a b : History) (ha : a.requests = l) (hb : b.requests = l') :
      History.requests (b ++ a) = l' ++ l := by
    rw [History.requests_append, ha, hb]
  exact ⟨same, l' ++ l, left.andThen left' joined, right.andThen right' joined⟩

/-- The session is looked at. -/
theorem theSession {f : Session → Act (Recorded ω) α} {g : Session → Act (Recorded ω) α'}
    (h : ∀ s, Act.Alongside (f s) (g s)) :
    Act.Alongside (GraphSession.theSession >>= f) (GraphSession.theSession >>= g) := by
  rintro ⟨s, w⟩ ⟨t, v⟩ same
  obtain rfl : s = t := same
  exact h s ⟨s, w⟩ ⟨s, v⟩ rfl

theorem changeSession (f : Session → Session) :
    Act.Alongside (ω := ω) (GraphSession.changeSession f) (GraphSession.changeSession f) :=
  fun _ _ same => ⟨congrArg f same, [], .nothing rfl rfl, .nothing rfl rfl⟩

/-- The same request, whatever the answers are. -/
theorem ask (p q : Peer ω) (request : Request) :
    Act.Alongside (GraphSession.ask p.recorded request) (GraphSession.ask q.recorded request) :=
  fun _ _ same => ⟨same, [request], ⟨[_], rfl, rfl⟩, ⟨[_], rfl, rfl⟩⟩

end Act.Alongside

namespace Op.Alongside

theorem theSession {f : Session → Op (Recorded ω) α} {g : Session → Op (Recorded ω) α'}
    (h : ∀ s, Op.Alongside (f s) (g s)) :
    Op.Alongside (GraphSession.theSession >>= f) (GraphSession.theSession >>= g) :=
  Act.Alongside.theSession h

/-- The session is changed. -/
theorem changeSession (f : Session → Session) {x : Op (Recorded ω) α} {y : Op (Recorded ω) α'}
    (h : Op.Alongside x y) :
    Op.Alongside (GraphSession.changeSession f >>= fun _ => x)
      (GraphSession.changeSession f >>= fun _ => y) :=
  Act.Alongside.bind (.changeSession f) fun _ _ => h

/-- What follows on an action that always succeeds. -/
theorem liftThen {x : Act (Recorded ω) β} {y : Act (Recorded ω) β'} {f : β → Op (Recorded ω) α}
    {g : β' → Op (Recorded ω) α'} (hx : Act.Alongside x y)
    (hf : ∀ a b, Op.Alongside (f a) (g b)) :
    Op.Alongside ((liftM x : Op (Recorded ω) β) >>= f)
      ((liftM y : Op (Recorded ω) β') >>= g) :=
  Act.Alongside.bind hx hf

/-- What is done in any case, before the outcome is told. -/
theorem attemptThen {x : Op (Recorded ω) α} {y : Op (Recorded ω) α'} {after : Act (Recorded ω) β}
    {after' : Act (Recorded ω) β'} (hx : Op.Alongside x y) (hafter : Act.Alongside after after') :
    Op.Alongside
      (do let outcome ← attempt x; let _ ← liftM after; settleOn outcome)
      (do let outcome ← attempt y; let _ ← liftM after'; settleOn outcome) := by
  have settled : Act.Alongside (x.run >>= fun o => after >>= fun _ => Pure.pure o)
      (y.run >>= fun o => after' >>= fun _ => Pure.pure o) :=
    .bind hx fun o o' => .bind hafter fun _ _ => .pure o o'
  exact settled

end Op.Alongside

/-! ## The end of a unit -/

section Ends

variable (p q : Peer ω)

theorem releaseConnection_alongside :
    Act.Alongside (releaseConnection p.recorded) (releaseConnection q.recorded) := by
  refine .theSession fun s => ?_
  cases s.connection with
  | none => exact .pure _ _
  | some c =>
    exact .bind (.changeSession _) fun _ _ => .bind (.ask p q (.release c)) fun _ _ =>
      .ask p q (.note .connectionReleased)

theorem endUnit_alongside : Act.Alongside (endUnit p.recorded) (endUnit q.recorded) := by
  refine .bind (.changeSession _) fun _ _ => .theSession fun s => ?_
  split
  · exact releaseConnection_alongside p q
  · exact .pure _ _

theorem pinDatabase_alongside (named : Option String) :
    Act.Alongside (pinDatabase p.recorded named) (pinDatabase q.recorded named) := by
  cases named with
  | none => exact .pure _ _
  | some database =>
    refine .theSession fun s => ?_
    split
    · exact .bind (.ask p q (.note (.databasePinned database))) fun _ _ => .changeSession _
    · exact .pure _ _

theorem takeBookmark?_alongside (sent : Bookmarks) (token : Option String) :
    Op.Alongside (takeBookmark? p.recorded sent token) (takeBookmark? q.recorded sent token) := by
  cases token with
  | none => exact Act.Alongside.pure _ _
  | some token =>
    refine .changeSession _ (.theSession fun s => ?_)
    split
    · exact Act.Alongside.ask p q (.updateBookmarks sent (.singleton token))
    · exact Act.Alongside.pure _ _

/-- Whatever the report comes to, the unit ends the same. -/
theorem reportAndEnd_alongside (sent : Bookmarks) (token : Option String) :
    Op.Alongside (reportAndEnd p.recorded sent token) (reportAndEnd q.recorded sent token) :=
  .attemptThen (takeBookmark?_alongside p q sent token) (endUnit_alongside p q)

theorem completeOrigin_alongside (summary : Summary) (origin : Origin) :
    Op.Alongside (completeOrigin p.recorded summary origin)
      (completeOrigin q.recorded summary origin) := by
  cases origin with
  | transaction t => exact Act.Alongside.pure _ _
  | autoCommit sent pins =>
    have reported := reportAndEnd_alongside p q sent summary.bookmark
    cases pins with
    | true => exact .liftThen (pinDatabase_alongside p q _) fun _ _ => reported
    | false => exact reported

/-- Whatever its report comes to, a stream ends the same. -/
theorem finishStream_alongside (id : ResultId) (metadata : Metadata) :
    Op.Alongside (finishStream p.recorded id metadata) (finishStream q.recorded id metadata) :=
  .theSession fun _ => .changeSession _ (completeOrigin_alongside p q _ _)

end Ends

end GraphSession
