import GraphSession.Proofs.Dialogue

/-!
  Tokens, and the bookmarks that new work must carry.

  A unit of work that completes may return a token.  It is told from the dialogue alone: an
  auto-commit query returns its token with the end of its stream, a transaction with its commit.
  `History.latestToken` is the token that was returned last, and `History.due` are the bookmarks
  that new work of a session must carry: that token, or what the session was given at the start.
  `Carries` says of a query or a begin that it carried them, together with what the bookmark manager
  held at that moment, and of a query in a transaction that it carried none.
-/

namespace GraphSession

/-- Every token of `a` is one of `b`. -/
instance : HasSubset Bookmarks := ⟨fun a b => ∀ x ∈ a.tokens, x ∈ b.tokens⟩

theorem Bookmarks.subset_refl (a : Bookmarks) : a ⊆ a := fun _ h => h

theorem Bookmarks.subset_union_left (a b : Bookmarks) : a ⊆ a.union b :=
  fun _ h => TokenSet.mem_union.mpr (.inl h)

theorem Bookmarks.subset_union_right (a b : Bookmarks) : b ⊆ a.union b :=
  fun _ h => TokenSet.mem_union.mpr (.inr h)

/-- The token among the metadata at the end of a stream. -/
def tokenOf (metadata : Metadata) : Option String :=
  (metadata.get? "bookmark").bind Value.asString?

theorem bookmark_ofMetadata (query : Query) (server : Option ServerInfo)
    (start finish : Metadata) :
    (Summary.ofMetadata query server start finish).bookmark = tokenOf finish := rfl

/-- The token that a unit of work returns with an answer, if that completes it.  The end of a stream
    completes its unit unless a transaction is open; that is completed by its commit. -/
def Dialogue.token? (d : Dialogue) : (m : Message) → Except Fault m.Reply → Option String
  | .pull _, .ok batch =>
    if d.transaction.isNone && !batch.more then tokenOf batch.metadata else none
  | .discard, .ok metadata => if d.transaction.isNone then tokenOf metadata else none
  | .commit, .ok token => token
  | _, _ => none

/-- The token that a unit of work returned, if one was completed and did. -/
def Happening.token? (past : History) : Happening → Option String
  | asked (.send c _ m) answer => (History.dialogue c past).bind (·.token? m answer)
  | _ => none

/-- The token of the unit of work that was completed last, of those that returned one. -/
def History.latestToken : History → Option String
  | [] => none
  | e :: past => (e.token? past).or (History.latestToken past)

/-- What new work must carry: the latest token, or all of `seed` when there is none. -/
def History.due (seed : Bookmarks) (h : History) : Bookmarks :=
  match History.latestToken h with
  | some token => .singleton token
  | none => seed

theorem Happening.IsAside.token? {e : Happening} (h : e.IsAside) (past : History) :
    e.token? past = none := by
  unfold Happening.token?
  unfold IsAside at h
  split
  · cases h
  · rfl

/-- The bookmarks of new work are those that are due and, if the session has a manager, what that
    was found to hold just before. -/
def Bears (config : SessionConfig) (past : History) (b : Bookmarks) : Prop :=
  past.due config.bookmarks ⊆ b ∧
    (config.hasManager = true → ∃ held earlier,
      past = .asked .getBookmarks (.ok held) :: earlier ∧ held ⊆ b)

/-- New work bears its bookmarks, and a query in a transaction bears none. -/
def Carries (config : SessionConfig) (past : History) : Happening → Prop
  | .asked (.send c _ (.run request)) _ => ∃ d, History.dialogue c past = some d ∧
    if d.transaction.isSome then request.work.bookmarks = .empty
    else Bears config past request.work.bookmarks
  | .asked (.send _ _ (.begin request)) _ => Bears config past request.bookmarks
  | _ => True

/-- The bookmarks are exactly those that are due and, if the session has a manager, those that it
    was found to hold when it was asked for them alone, just before. -/
def Fetched (config : SessionConfig) (past : History) (b : Bookmarks) : Prop :=
  if config.hasManager then ∃ held earlier, past = .asked .getBookmarks (.ok held) :: earlier ∧
    b = (History.due config.bookmarks earlier).union held
  else b = past.due config.bookmarks

theorem fetched_managed {config : SessionConfig} (managed : config.hasManager = true)
    (held : Bookmarks) (earlier : History) :
    Fetched config (.asked .getBookmarks (.ok held) :: earlier)
      ((History.due config.bookmarks earlier).union held) := by
  unfold Fetched
  rw [if_pos managed]
  exact ⟨held, earlier, rfl, rfl⟩

theorem fetched_unmanaged {config : SessionConfig} (unmanaged : ¬ config.hasManager = true)
    (past : History) : Fetched config past (past.due config.bookmarks) := by
  unfold Fetched
  rw [if_neg unmanaged]

/-- Every request that carries bookmarks carries exactly those that were fetched for it; a query in
    a transaction carries none and is told by its dialogue. -/
def CarriesFresh (config : SessionConfig) (past : History) : Happening → Prop
  | .asked (.acquire request) _ => Fetched config past request.bookmarks
  | .asked (.findHome request) _ => Fetched config past request.bookmarks
  | .asked (.send c _ (.run request)) _ => ∀ d, History.dialogue c past = some d →
    d.transaction = none → Fetched config past request.work.bookmarks
  | .asked (.send _ _ (.begin request)) _ => Fetched config past request.bookmarks
  | _ => True

theorem Happening.IsAside.carries {e : Happening} (h : e.IsAside) (config : SessionConfig)
    (past : History) : Carries config past e := by
  unfold Carries
  unfold IsAside at h
  split
  · cases h
  · cases h
  · trivial

end GraphSession
