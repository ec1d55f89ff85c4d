import GraphSession.Proofs.Course
import GraphSession.Proofs.Dialogue

/-!
  What a server sends of each result.

  A server holds a list of records behind every query, and a pull brings the next of them.  Which
  they are is decided by the dialogue on the connection: the query that opened the stream, and how
  many of its records have been served.  `Faithful` says that a server keeps to this.  A history
  tells for every result which records came for it, and these are then the first ones of its own
  list, however its pulls are mixed with those of other results: a pull comes only from the result
  whose stream is open, and no result starts twice.
-/

namespace GraphSession

/-! ## Records that came -/

/-- The records that a pull brought for a result. -/
def Happening.sent (r : ResultId) : Happening → List (List Value)
  | asked (.send _ sender (.pull _)) (.ok batch) =>
    if sender = .result r then batch.records else []
  | _ => []

/-- The keys that a result starts with. -/
def Happening.keys? (r : ResultId) : Happening → Option (List String)
  | asked (.send _ sender (.run _)) (.ok reply) =>
    if sender = .result r then some reply.keys else none
  | _ => none

namespace History

/-- What the things that happened contribute, first to last. -/
def gather {α : Type} (f : Happening → List α) : History → List α
  | [] => []
  | e :: past => gather f past ++ f e

/-- The records that came for a result. -/
def sent (r : ResultId) (h : History) : List (List Value) := h.gather (Happening.sent r)

/-- The keys of a result that has started. -/
def keys? (r : ResultId) (h : History) : Option (List String) := h.findSome? (Happening.keys? r)

/-- Values as records of a result: under the keys it started with. -/
def rows (r : ResultId) (h : History) (values : List (List Value)) : List Record :=
  values.map (Record.mk ((h.keys? r).getD []))

/-- What contributes nothing makes no difference. -/
theorem gather_append {α : Type} {f : Happening → List α} {later past : History}
    (nothing : ∀ e ∈ later, f e = []) : gather f (later ++ past) = gather f past := by
  induction later with
  | nil => rfl
  | cons e later ih =>
    show gather f (later ++ past) ++ f e = gather f past
    rw [nothing e List.mem_cons_self, List.append_nil]
    exact ih fun e' he' => nothing e' (List.mem_cons_of_mem e he')

end History

/-- What neither starts a result nor brings records says nothing about any result. -/
theorem Happening.IsPlain.sent {e : Happening} (h : e.IsPlain) (r : ResultId) : e.sent r = [] := by
  unfold Happening.sent
  split
  · exact absurd h (by simp [IsPlain])
  · rfl

theorem Happening.IsPlain.keys? {e : Happening} (h : e.IsPlain) (r : ResultId) :
    e.keys? r = none := by
  unfold Happening.keys?
  split
  · exact absurd h (by simp [IsPlain])
  · rfl

theorem Happening.IsPlain.not_completes {e : Happening} (h : e.IsPlain) (r : ResultId) :
    ¬ e.Completes r := by
  unfold Completes
  split
  · exact absurd h (by simp [IsPlain])
  · exact fun h => h

theorem Happening.IsAside.isPlain {e : Happening} (h : e.IsAside) : e.IsPlain := by
  unfold IsPlain
  split
  · exact absurd h (by simp [IsAside])
  · exact absurd h (by simp [IsAside])
  · trivial

theorem Happening.IsBorrowing.isPlain {e : Happening} (h : e.IsBorrowing) : e.IsPlain := by
  unfold IsPlain
  split
  · exact absurd h (by simp [IsBorrowing])
  · exact absurd h (by simp [IsBorrowing])
  · trivial

/-- What is not plain starts a result or brings records. -/
theorem Happening.starts_or_brings {e : Happening} (h : ¬ e.IsPlain) :
    (∃ c sender request reply, e = asked (.send c sender (.run request)) (.ok reply)) ∨
      ∃ c sender size batch, e = asked (.send c sender (.pull size)) (.ok batch) := by
  unfold IsPlain at h
  split at h
  · exact .inl ⟨_, _, _, _, rfl⟩
  · exact .inr ⟨_, _, _, _, rfl⟩
  · exact absurd trivial h

namespace History

variable {r : ResultId} {h later past : History} {e : Happening}

theorem keys?_cons : keys? r (e :: past) = (e.keys? r).or (keys? r past) := by
  show List.findSome? _ _ = _
  rw [List.findSome?_cons]
  cases e.keys? r with
  | none => rfl
  | some keys => rfl

theorem sent_plain (plain : e.IsPlain) : sent r (e :: past) = sent r past := by
  show sent r past ++ e.sent r = sent r past
  rw [plain.sent, List.append_nil]

theorem keys?_plain (plain : e.IsPlain) : keys? r (e :: past) = keys? r past := by
  rw [keys?_cons, plain.keys?, Option.none_or]

theorem sent_plains (plain : ∀ e ∈ later, e.IsPlain) : sent r (later ++ past) = sent r past :=
  gather_append fun e he => (plain e he).sent r

theorem keys?_plains (plain : ∀ e ∈ later, e.IsPlain) :
    keys? r (later ++ past) = keys? r past := by
  induction later with
  | nil => rfl
  | cons e later ih =>
    rw [List.cons_append, keys?_plain (plain e List.mem_cons_self)]
    exact ih fun e' he' => plain e' (List.mem_cons_of_mem e he')

/-- A query gives the keys to its result. -/
theorem keys?_run {c : Connection} {id : ResultId} {request : RunRequest} {reply : RunReply} :
    keys? r (.asked (.send c (.result id) (.run request)) (.ok reply) :: past) =
      if id = r then some reply.keys else keys? r past := by
  rw [keys?_cons]
  by_cases own : id = r
  · simp [Happening.keys?, own]
  · simp [Happening.keys?, own]

theorem keys?_pull {c : Connection} {id : ResultId} {size : FetchSize} {batch : Batch} :
    keys? r (.asked (.send c (.result id) (.pull size)) (.ok batch) :: past) = keys? r past :=
  keys?_cons

/-- A pull brings records to the result that asked for them. -/
theorem sent_pull {c : Connection} {id : ResultId} {size : FetchSize} {batch : Batch} :
    sent r (.asked (.send c (.result id) (.pull size)) (.ok batch) :: past) =
      sent r past ++ if id = r then batch.records else [] := by
  show sent r past ++ Happening.sent r _ = _
  by_cases own : id = r
  · simp [Happening.sent, own]
  · simp [Happening.sent, own]

theorem Complete.mono (complete : Complete r past) (grown : past <:+ h) : Complete r h :=
  Exists.imp (fun _ he => ⟨grown.subset he.1, he.2⟩) complete

/-- Whatever happened, it completes a result or it does not. -/
theorem complete_cons : Complete r (e :: past) ↔ e.Completes r ∨ Complete r past := by
  unfold Complete
  simp

theorem complete_plain (plain : e.IsPlain) : Complete r (e :: past) ↔ Complete r past := by
  rw [complete_cons, or_iff_right (plain.not_completes r)]

end History

/-! ## Servers -/

/-- The server answers a pull by the records that are next in the stream that is open, as many as
    were asked for, and promises more unless none is left. -/
def Faithful (content : ResultId → List (List Value)) (past : History) : Happening → Prop
  | .asked (.send c _ (.pull size)) (.ok batch) =>
    ∀ d r, History.dialogue c past = some d → d.stream = some r →
      batch.records = size.take ((content r).drop d.served) ∧
        (batch.more = false → size.drop ((content r).drop d.served) = [])
  | _ => True

/-- No result starts twice. -/
def Fresh (past : History) : Happening → Prop
  | .asked (.send _ (.result r) (.run _)) (.ok _) => past.keys? r = none
  | _ => True

theorem Happening.IsPlain.fresh {e : Happening} (h : e.IsPlain) (past : History) :
    Fresh past e := by
  unfold Fresh
  split
  · exact absurd h (by simp [IsPlain])
  · trivial

/-- What a pull takes and what it leaves is all there was. -/
theorem FetchSize.take_append_drop {α : Type} (size : FetchSize) (l : List α) :
    size.take l ++ size.drop l = l := by
  cases size with
  | all => exact List.append_nil l
  | upTo n => exact List.take_append_drop n.val l

/-! ## Supply -/

/-- What a history says of a result behind which the server holds `content`. -/
structure Supplied (content : List (List Value)) (r : ResultId) (h : History) : Prop where
  unstarted : h.keys? r = none → h.sent r = []
  /-- While its stream is open, the dialogue counts its records. -/
  served : ∀ c d, History.dialogue c h = some d → d.stream = some r →
    (h.keys? r).isSome = true ∧ d.served = (h.sent r).length
  inOrder : h.sent r <+: content
  complete : h.Complete r → h.sent r = content

/-- A message that neither starts a stream nor serves records leaves a stream as it was, or ends
    it. -/
theorem Dialogue.after_plain {d : Dialogue} {c : Connection} {sender : Sender} {m : Message}
    {answer : Except Fault m.Reply} {r : ResultId}
    (plain : (Happening.asked (.send c sender m) answer).IsPlain)
    (still : (d.after sender m answer).stream = some r) :
    d.stream = some r ∧ (d.after sender m answer).served = d.served := by
  match m, answer with
  | .telemetry _, _ => exact ⟨still, rfl⟩
  | .begin _, .ok _ =>
    cases sender with
    | session | result _ | transaction _ => exact ⟨still, rfl⟩
  | .run _, .ok _ | .pull _, .ok _ => exact absurd plain (fun h => h)
  | .discard, .ok _ | .commit, .ok _ | .rollback, .ok _ | .reset, .ok _ => cases still
  | .run _, .error _ | .pull _, .error _ | .discard, .error _ | .begin _, .error _
  | .commit, .error _ | .rollback, .error _ | .reset, .error _ => exact ⟨still, rfl⟩

theorem Happening.IsPlain.lead {e : Happening} (plain : e.IsPlain) {c : Connection}
    {before : Option Dialogue} {d : Dialogue} {r : ResultId} (h : e.lead c before = some d)
    (still : d.stream = some r) :
    ∃ d', before = some d' ∧ d'.stream = some r ∧ d.served = d'.served := by
  unfold Happening.lead at h
  split at h
  · split at h
    · -- a new loan has no stream
      cases h
      cases still
    · exact ⟨d, h, still, rfl⟩
  · split at h
    · cases h
    · exact ⟨d, h, still, rfl⟩
  · split at h
    · obtain ⟨d', rfl, rfl⟩ := Option.map_eq_some_iff.mp h
      obtain ⟨was, served⟩ := Dialogue.after_plain plain still
      exact ⟨d', rfl, was, served⟩
    · exact ⟨d, h, still, rfl⟩
  · exact ⟨d, h, still, rfl⟩

namespace Supplied

variable {content : List (List Value)} {r : ResultId} {past : History}

theorem plain (s : Supplied content r past) {e : Happening} (plain : e.IsPlain) :
    Supplied content r (e :: past) where
  unstarted h := by
    rw [History.keys?_plain plain] at h
    rw [History.sent_plain plain]
    exact s.unstarted h
  served c d h still := by
    obtain ⟨d', before, was, same⟩ := plain.lead h still
    rw [History.keys?_plain plain, History.sent_plain plain, same]
    exact s.served c d' before was
  inOrder := by
    rw [History.sent_plain plain]
    exact s.inOrder
  complete h := by
    rw [History.sent_plain plain]
    exact s.complete ((History.complete_plain plain).mp h)

/-- A query starts a result that has not started yet. -/
theorem run (s : Supplied content r past) (properPast : Always Proper past) {c : Connection}
    {sender : Sender} {request : RunRequest} {reply : RunReply}
    (proper : Proper past (.asked (.send c sender (.run request)) (.ok reply)))
    (fresh : Fresh past (.asked (.send c sender (.run request)) (.ok reply))) :
    Supplied content r (.asked (.send c sender (.run request)) (.ok reply) :: past) := by
  obtain ⟨d, lent, ⟨-, -, id, rfl⟩, -⟩ := proper
  have sent : History.sent r
      (.asked (.send c (.result id) (.run request)) (.ok reply) :: past) = past.sent r :=
    List.append_nil _
  refine ⟨?_, ?_, ?_, ?_⟩
  · intro h
    rw [History.keys?_run] at h
    rw [sent]
    split at h
    · cases h
    · exact s.unstarted h
  · -- the stream is the one that has just been opened
    intro c' d' h still
    obtain rfl := dialogue_send properPast lent h
    obtain rfl : id = r := Option.some.inj still
    rw [History.keys?_run, if_pos rfl, sent, s.unstarted fresh]
    exact ⟨rfl, rfl⟩
  · rw [sent]
    exact s.inOrder
  · intro h
    rw [sent]
    exact s.complete ((History.complete_cons.mp h).resolve_left fun h => h)

section Pulls

variable {c : Connection} {id : ResultId} {size : FetchSize} {batch : Batch} {d : Dialogue}

/-- What a pull leaves of the stream that it reads. -/
theorem served_pull (properPast : Always Proper past)
    (lent : History.dialogue c past = some d) (stream : d.stream = some id) {c' : Connection}
    {d' : Dialogue} (still : d'.stream = some r)
    (h : History.dialogue c'
      (.asked (.send c (.result id) (.pull size)) (.ok batch) :: past) = some d') :
    id = r ∧ d'.served = d.served + batch.records.length := by
  obtain rfl := dialogue_send properPast lent h
  simp only [Dialogue.after] at still ⊢
  split at still
  · exact ⟨Option.some.inj (stream.symm.trans still), trivial⟩
  · cases still

/-- A pull brings what is next. -/
theorem pull_own (s : Supplied content r past) (properPast : Always Proper past)
    (lent : History.dialogue c past = some d) (stream : d.stream = some r)
    (records : batch.records = size.take (content.drop d.served))
    (last : batch.more = false → size.drop (content.drop d.served) = []) :
    Supplied content r (.asked (.send c (.result r) (.pull size)) (.ok batch) :: past) := by
  have sent : History.sent r
      (.asked (.send c (.result r) (.pull size)) (.ok batch) :: past) =
        past.sent r ++ batch.records := by
    rw [History.sent_pull, if_pos rfl]
  obtain ⟨started, served⟩ := s.served c d lent stream
  -- what came is the beginning of the list, and what comes now is what is next in it
  obtain ⟨left, split⟩ := s.inOrder
  have rest : content.drop d.served = left := by
    rw [← split, served]
    exact List.drop_left
  rw [rest] at records last
  have all : past.sent r ++ batch.records ++ size.drop left = content := by
    rw [records, List.append_assoc, FetchSize.take_append_drop, split]
  refine ⟨?_, ?_, ?_, ?_⟩
  · intro h
    rw [History.keys?_pull] at h
    rw [h] at started
    cases started
  · intro c' d' h still
    have more := (served_pull properPast lent stream still h).2
    rw [History.keys?_pull, sent, List.length_append, more, served]
    exact ⟨started, rfl⟩
  · rw [sent]
    exact ⟨_, all⟩
  · intro h
    rw [sent]
    rcases History.complete_cons.mp h with completes | before
    · have nothing : size.drop left = [] := last completes.2
      rw [nothing, List.append_nil] at all
      exact all
    · -- everything had come, so nothing is left
      have full : past.sent r = content := s.complete before
      rw [full] at split
      have nothing : left = [] := List.append_right_eq_self.mp split
      rw [full, records, nothing]
      cases size <;> simp [FetchSize.take]

/-- A pull brings nothing to another result. -/
theorem pull_other (s : Supplied content r past) (properPast : Always Proper past)
    (lent : History.dialogue c past = some d) (stream : d.stream = some id) (other : id ≠ r) :
    Supplied content r (.asked (.send c (.result id) (.pull size)) (.ok batch) :: past) := by
  have sent : History.sent r
      (.asked (.send c (.result id) (.pull size)) (.ok batch) :: past) = past.sent r := by
    rw [History.sent_pull, if_neg other, List.append_nil]
  refine ⟨?_, ?_, ?_, ?_⟩
  · intro h
    rw [History.keys?_pull] at h
    rw [sent]
    exact s.unstarted h
  · intro c' d' h still
    exact absurd (served_pull properPast lent stream still h).1 other
  · rw [sent]
    exact s.inOrder
  · intro h
    rw [sent]
    refine s.complete ((History.complete_cons.mp h).resolve_left fun completes => ?_)
    exact other (Sender.result.inj completes.1)

end Pulls

end Supplied

/-- Where the server is faithful, what came for a result is the beginning of its own list, and all
    of it once its stream is complete. -/
theorem supplied {content : ResultId → List (List Value)} {h : History}
    (proper : Always Proper h) (fresh : Always Fresh h) (faithful : Always (Faithful content) h)
    (r : ResultId) : Supplied (content r) r h := by
  induction h with
  | nil =>
    refine ⟨fun _ => rfl, fun _ _ lent => (by cases lent), List.nil_prefix, fun h => ?_⟩
    obtain ⟨e, he, -⟩ := h
    cases he
  | cons e past ih =>
    have before := ih proper.2 fresh.2 faithful.2
    by_cases plain : e.IsPlain
    · exact before.plain plain
    · rcases Happening.starts_or_brings plain with ⟨c, sender, request, reply, rfl⟩ |
        ⟨c, sender, size, batch, rfl⟩
      · exact before.run proper.2 proper.1 fresh.1
      · obtain ⟨d, lent, ⟨-, id, rfl, stream⟩, -⟩ := id proper.1
        by_cases own : id = r
        · subst own
          obtain ⟨records, last⟩ := faithful.1 d id lent stream
          exact before.pull_own proper.2 lent stream records last
        · exact before.pull_other proper.2 lent stream own

end GraphSession
