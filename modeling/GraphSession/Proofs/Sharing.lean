import GraphSession.Bookmarks.Keeper
import GraphSession.Proofs.Chaining

/-!
  Sessions that share a keeper of bookmarks.

  A report to the keeper takes away the bookmarks that a unit of work carried and puts in those that
  the unit returned.  The unit saw everything that it carried, so what it returned stands for it:
  a bookmark is covered by every bookmark that a chain of reports leads to.  `covered_by_held` says
  that whatever the keeper ever had is covered by something that it holds, in whatever order the
  reports of many sessions come, and however old the bookmarks are that they take away.

  A `Timeline` lists what happened to many sessions.  Each of them goes on as if it were alone, and
  only the answers of the keeper depend on the others.
-/

namespace GraphSession

/-! ## What covers a bookmark -/

/-- What a unit of work carried, and what it returned. -/
structure Report where
  previous : Bookmarks
  new : Bookmarks

/-- A bookmark is covered by itself, and by all that a report puts in for one that covers it. -/
inductive Covered (reports : List Report) : String → String → Prop
  | itself (x : String) : Covered reports x x
  | report {x y z : String} {r : Report} : Covered reports x y → r ∈ reports →
    y ∈ r.previous.tokens → z ∈ r.new.tokens → Covered reports x z

theorem Covered.mono {reports more : List Report} {x y : String} (h : Covered reports x y)
    (all : ∀ r ∈ reports, r ∈ more) : Covered more x y := by
  induction h with
  | itself => exact .itself _
  | report _ mem taken put ih => exact ih.report (all _ mem) taken put

/-- Whether some bookmark of `b` covers `x`. -/
def Bookmarks.Covers (b : Bookmarks) (reports : List Report) (x : String) : Prop :=
  ∃ y ∈ b.tokens, Covered reports x y

theorem Bookmarks.Covers.mono {b b' : Bookmarks} {reports more : List Report} {x : String}
    (h : b.Covers reports x) (subset : b ⊆ b') (all : ∀ r ∈ reports, r ∈ more) :
    b'.Covers more x := by
  obtain ⟨y, mem, covered⟩ := h
  exact ⟨y, subset y mem, covered.mono all⟩

/-! ## The keeper -/

/-- What the keeper holds after a report. -/
def Report.settled (r : Report) (current : Bookmarks) : Bookmarks := current.settle r.previous r.new

/-- A report without new bookmarks changes nothing. -/
theorem Report.settled_of_isEmpty {r : Report} (h : r.new.isEmpty = true) (current : Bookmarks) :
    r.settled current = current := by
  rw [settled, Bookmarks.settle, if_pos h]

theorem Report.mem_settled {r : Report} (h : r.new.isEmpty = false) {current : Bookmarks}
    {x : String} : x ∈ (r.settled current).tokens ↔
      (x ∈ current.tokens ∧ x ∉ r.previous.tokens) ∨ x ∈ r.new.tokens := by
  rw [settled, Bookmarks.settle, h]
  simp [Bookmarks.union, Bookmarks.difference]

theorem Bookmarks.exists_mem {b : Bookmarks} (h : b.isEmpty = false) : ∃ x, x ∈ b.tokens :=
  List.exists_mem_of_ne_nil _ (List.isEmpty_eq_false_iff.mp h)

/-- What is new stays. -/
theorem Report.new_subset_settled (r : Report) (current : Bookmarks) :
    r.new ⊆ r.settled current := by
  intro x mem
  have some_new : r.new.isEmpty = false :=
    List.isEmpty_eq_false_iff.mpr (List.ne_nil_of_mem (TokenSet.mem_def.mp mem))
  exact (mem_settled some_new).mpr (.inr mem)

/-- A report uncovers nothing.  What it takes away was seen by the unit that it is about, and is
    covered by what that returned. -/
theorem Report.covers_settled {r : Report} {current : Bookmarks} {reports : List Report}
    {x : String} (h : current.Covers reports x) : (r.settled current).Covers (r :: reports) x := by
  have grown : ∀ r' ∈ reports, r' ∈ r :: reports := fun _ => List.mem_cons_of_mem r
  cases empty : r.new.isEmpty with
  | true =>
    rw [settled_of_isEmpty empty]
    exact h.mono current.subset_refl grown
  | false =>
    obtain ⟨y, held, covered⟩ := h
    have covered := covered.mono grown
    by_cases taken : y ∈ r.previous.tokens
    · obtain ⟨z, put⟩ := Bookmarks.exists_mem empty
      exact ⟨z, (mem_settled empty).mpr (.inr put),
        covered.report List.mem_cons_self taken put⟩
    · exact ⟨y, (mem_settled empty).mpr (.inl ⟨held, taken⟩), covered⟩

namespace Keeper

variable {initial : Bookmarks} {reports more : List Report} {x : String}

/-- What the keeper holds after reports, latest first, if it held `initial` at the start. -/
def held (initial : Bookmarks) : List Report → Bookmarks
  | [] => initial
  | r :: reports => r.settled (held initial reports)

/-- The keeper had the bookmark at the start, or a report put it in. -/
def Had (initial : Bookmarks) (reports : List Report) (x : String) : Prop :=
  x ∈ initial.tokens ∨ ∃ r ∈ reports, x ∈ r.new.tokens

theorem Had.mono (h : Had initial reports x) (suffix : reports <:+ more) : Had initial more x :=
  h.imp id fun ⟨r, mem, new⟩ => ⟨r, suffix.subset mem, new⟩

/-- The keeper holds nothing but what it had. -/
theorem had_of_held (h : x ∈ (held initial reports).tokens) : Had initial reports x := by
  induction reports with
  | nil => exact .inl h
  | cons r reports ih =>
    rw [held] at h
    cases empty : r.new.isEmpty with
    | true =>
      rw [Report.settled_of_isEmpty empty] at h
      exact (ih h).mono (List.suffix_cons r reports)
    | false =>
      rcases (Report.mem_settled empty).mp h with ⟨earlier, -⟩ | new
      · exact (ih earlier).mono (List.suffix_cons r reports)
      · exact .inr ⟨r, List.mem_cons_self, new⟩

/-- Whatever the keeper ever had is covered by something that it holds. -/
theorem covered_by_held (h : Had initial reports x) : (held initial reports).Covers reports x := by
  induction reports with
  | nil =>
    rcases h with start | ⟨r, mem, -⟩
    · exact ⟨x, start, .itself x⟩
    · cases mem
  | cons r reports ih =>
    rcases h with start | ⟨r', mem, new⟩
    · exact Report.covers_settled (ih (.inl start))
    · rcases List.mem_cons.mp mem with rfl | mem
      · exact ⟨x, r'.new_subset_settled _ x new, .itself x⟩
      · exact Report.covers_settled (ih (.inr ⟨r', mem, new⟩))

end Keeper

/-! ## Timelines -/

/-- The report to the keeper, if it took one. -/
def Happening.report? : Happening → Option Report
  | asked (.updateBookmarks previous new) (.ok _) => some ⟨previous, new⟩
  | _ => none

/-- A keeper that holds `current` gives that out, if anything. -/
def Happening.IsKept (current : Bookmarks) : Happening → Prop
  | asked .getBookmarks (.ok b) => b = current
  | _ => True

/-- What happened to many sessions, latest first; each with the session that it happened to. -/
abbrev Timeline (ι : Type) := List (ι × Happening)

namespace Timeline

variable {ι : Type} {initial : Bookmarks} {t past : Timeline ι}

/-- What happened to one of them. -/
def of [DecidableEq ι] (i : ι) (t : Timeline ι) : History :=
  (t.filter fun p => p.1 = i).map Prod.snd

/-- The reports of all, latest first. -/
def reports (t : Timeline ι) : List Report := t.filterMap fun p => p.2.report?

/-- The keeper gave out what it held at the time. -/
def IsKept (initial : Bookmarks) : Timeline ι → Prop
  | [] => True
  | p :: past => p.2.IsKept (Keeper.held initial (reports past)) ∧ IsKept initial past

theorem reports_suffix (h : past <:+ t) : past.reports <:+ t.reports := h.filterMap _

theorem IsKept.of_append {later : Timeline ι} (h : IsKept initial (later ++ t)) :
    t.IsKept initial := by
  induction later with
  | nil => exact h
  | cons p later ih => exact ih h.2

variable [DecidableEq ι] {i : ι} {e : Happening}

theorem of_append (later t : Timeline ι) (i : ι) : of i (later ++ t) = later.of i ++ t.of i := by
  simp [of]

theorem of_cons_self (i : ι) (e : Happening) (t : Timeline ι) :
    of i ((i, e) :: t) = e :: t.of i := by
  simp [of]

/-- The last thing that happened to a session. -/
theorem of_eq_cons {rest : History} (h : t.of i = e :: rest) :
    ∃ since before, t = since ++ (i, e) :: before ∧ ∀ p ∈ since, p.1 ≠ i := by
  induction t with
  | nil => cases h
  | cons p t ih =>
    by_cases own : p.1 = i
    · simp only [of, List.filter_cons, own, decide_true, if_true, List.map_cons] at h
      obtain ⟨rfl, -⟩ := List.cons.inj h
      exact ⟨[], t, by rw [← own]; rfl, by simp⟩
    · simp only [of, List.filter_cons, own, decide_false, Bool.false_eq_true, if_false] at h
      obtain ⟨since, before, rfl, others⟩ := ih h
      refine ⟨p :: since, before, rfl, fun p' mem => ?_⟩
      rcases List.mem_cons.mp mem with rfl | mem
      · exact own
      · exact others p' mem

end Timeline

/-! ## Sessions -/

/-- A session that takes part: what surrounds it, and what is done with it. -/
structure Participant where
  World : Type
  peer : Peer World
  config : SessionConfig
  world : World
  operations : List (Operation World)

/-- All that happens to it. -/
def Participant.history (p : Participant) : History :=
  (play p.peer p.config p.world p.operations).history

namespace Timeline

variable {ι : Type} [DecidableEq ι] {sessions : ι → Participant} {initial : Bookmarks}
  {t past : Timeline ι}

/-- Sessions share a keeper that held `initial` at the start: it gives out to all of them what it
    holds, and each has come some way through its operations. -/
structure IsShared (sessions : ι → Participant) (initial : Bookmarks) (t : Timeline ι) : Prop where
  kept : t.IsKept initial
  parts : ∀ i, t.of i <:+ (sessions i).history

/-- New work of a session comes after a fetch from the keeper, and its bookmarks cover whatever the
    keeper had by then, even by the reports until then. -/
def Follows (initial : Bookmarks) (i : ι) (past : Timeline ι) (b : Bookmarks) : Prop :=
  ∃ (since before : Timeline ι) (held : Bookmarks),
    past = since ++ (i, .asked .getBookmarks (.ok held)) :: before ∧ (∀ p ∈ since, p.1 ≠ i) ∧
      ∀ x, Keeper.Had initial before.reports x → b.Covers before.reports x

/-- What the sessions know of each other. -/
structure IsCausal (sessions : ι → Participant) (initial : Bookmarks) (t : Timeline ι) : Prop where
  /-- The keeper holds only what it had. -/
  had : ∀ past : Timeline ι, past <:+ t → ∀ x ∈ (Keeper.held initial past.reports).tokens,
    Keeper.Had initial past.reports x
  /-- What it had at one time is covered by what it holds at every later time. -/
  covered : ∀ past now : Timeline ι, past <:+ now → now <:+ t →
    ∀ x, Keeper.Had initial past.reports x →
      (Keeper.held initial now.reports).Covers now.reports x
  /-- New work of a session with a keeper follows on all that was reported before. -/
  follows : ∀ (later : Timeline ι) i e (past : Timeline ι) b, t = later ++ (i, e) :: past →
    (sessions i).config.hasManager = true → e.newWork? (past.of i) = some b →
      Follows initial i past b

end Timeline

/-- Whatever many sessions do, in whatever order, no report of one hides what another reported: the
    keeper covers at any time whatever it had before, and so does all new work that comes after a
    fetch from it. -/
theorem shared_isCausal {ι : Type} [DecidableEq ι] {sessions : ι → Participant}
    {initial : Bookmarks} {t : Timeline ι} (h : t.IsShared sessions initial) :
    t.IsCausal sessions initial where
  had past _ x := Keeper.had_of_held
  covered past now earlier _ x had :=
    Keeper.covered_by_held (had.mono (Timeline.reports_suffix earlier))
  follows later i e past b split managed new := by
    subst split
    obtain ⟨rest, history⟩ := h.parts i
    rw [Timeline.of_append, Timeline.of_cons_self, ← List.append_assoc] at history
    have carries : Always (Carries (sessions i).config) (sessions i).history :=
      play_carries _ _ _ _
    rw [← history] at carries
    obtain ⟨held, earlier, fetched, subset⟩ := (carries.at.bears new).2 managed
    obtain ⟨since, before, rfl, others⟩ := Timeline.of_eq_cons fetched
    -- the keeper gave out all that it held
    obtain rfl : held = Keeper.held initial (Timeline.reports before) :=
      h.kept.of_append.2.of_append.1
    exact ⟨since, before, _, rfl, others, fun x had =>
      (Keeper.covered_by_held had).mono subset fun _ mem => mem⟩

/-! ## Two sessions -/

/-- A server that completes every transaction with `token`, and a keeper that is found to hold one
    after the other what the list says. -/
def finding (token : String) : Peer (List Bookmarks) where
  routing := false
  answer
    | .acquire _, left => (.ok default, left)
    | .findHome _, left => (.ok [], left)
    | .getBookmarks, left => (.ok (left.headD .empty), left.tail)
    | .updateBookmarks .., left => (.ok (), left)
    | .send _ _ (.run _), left => (.ok default, left)
    | .send _ _ (.pull _), left => (.ok ⟨[], false, .empty⟩, left)
    | .send _ _ .discard, left => (.ok .empty, left)
    | .send _ _ (.begin _), left => (.ok none, left)
    | .send _ _ .commit, left => (.ok (some token), left)
    | .send _ _ (.telemetry _), left | .send _ _ .rollback, left | .send _ _ .reset, left =>
      (.ok (), left)
    | .readClock, left => (default, left)
    | .drawSample, left => (0, left)
    | .release _, left | .sleep _, left | .note _, left => ((), left)
  backlog _ := 0
  backlog_lt := by
    intro left left' c sender size batch h more
    cases (Prod.mk.inj h).1
    cases more

/-- Two sessions that commit a transaction each; the first then begins another. -/
def twoSessions : Bool → Participant
  | false =>
    { World := List Bookmarks, peer := finding "a", config := { hasManager := true }
      world := [.empty, .empty, .ofList ["a", "b"], .ofList ["a", "b"]]
      operations := [.beginTransaction {}, .access (.commit 0), .beginTransaction {}] }
  | true =>
    { World := List Bookmarks, peer := finding "b", config := { hasManager := true }
      world := [.empty, .empty]
      operations := [.beginTransaction {}, .access (.commit 0)] }

/-- Both begin before either commits, so that both report with nothing to take away. -/
def crossing : Timeline Bool :=
  let first := (twoSessions false).history.map (Prod.mk false)
  let second := (twoSessions true).history.map (Prod.mk true)
  first.take 6 ++ (second.take 5 ++ ((first.drop 6).take 5 ++ (second.drop 5 ++ first.drop 11)))

/-- Neither token is lost, and the begin at the end carries both. -/
theorem crossing_isCausal :
    crossing.IsShared twoSessions .empty ∧
      (Keeper.held .empty crossing.reports).toList = ["a", "b"] ∧
      (crossing.head?.bind fun p => (p.2.newWork? (Timeline.of p.1 crossing.tail)).map
        Bookmarks.toList) = some ["a", "b"] ∧
      crossing.IsCausal twoSessions .empty := by
  have kept : crossing.IsKept .empty :=
    -- the fetches of the last begin, of the second session and of the first
    ⟨trivial, rfl, trivial, trivial, trivial, rfl, trivial, trivial, trivial, trivial, trivial,
      trivial, trivial, trivial, trivial, trivial, trivial, rfl, trivial, trivial, trivial, rfl,
      trivial, rfl, trivial, trivial, trivial, rfl, trivial⟩
  have parts (i : Bool) : crossing.of i <:+ (twoSessions i).history := by
    cases i with
    | false => exact ⟨[], rfl⟩
    | true => exact ⟨[], rfl⟩
  exact ⟨⟨kept, parts⟩, rfl, rfl, shared_isCausal ⟨kept, parts⟩⟩

end GraphSession
