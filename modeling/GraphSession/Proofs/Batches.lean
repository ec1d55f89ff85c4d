import GraphSession.Proofs.Cursor
import Mathlib.Algebra.Order.Floor.Div

/-!
  How many batches it takes to read a result.

  A history counts the pulls and the discards of a result.  Behind the result the server holds a
  list, and every pull that is answered takes one batch from it; so while the stream is open the
  pulls that were made and those that it still takes are together as many as the whole list takes.
  Against a server that is exact, a stream that is complete has come in just that many batches, and
  nothing was discarded.
-/

namespace GraphSession

variable {α : Type} {size : FetchSize} {r : ResultId} {h past later : History} {e : Happening}

/-! ## Numbers of batches -/

/-- How many pulls it takes to read so many records in batches of a configured size: those that are
    positive say how many records make a batch, and any other means all at once. -/
def batchCount (size : Int) (records : Nat) : Nat :=
  if 0 < size then max 1 (records ⌈/⌉ size.toNat) else 1

namespace FetchSize

/-- How many pulls it takes to read so many records; even to learn that there is none takes one. -/
def batches : FetchSize → Nat → Nat
  | all, _ => 1
  | upTo n, records => max 1 (records ⌈/⌉ n.val)

theorem batches_pos (size : FetchSize) (records : Nat) : 0 < size.batches records := by
  cases size with
  | all => exact Nat.one_pos
  | upTo n => exact Nat.le_max_left 1 _

/-- A pull that leaves nothing is the last one. -/
theorem batches_last {l : List α} (last : size.drop l = []) : size.batches l.length = 1 := by
  cases size with
  | all => rfl
  | upTo n =>
    have short : l.length ≤ n.val := List.drop_eq_nil_iff.mp last
    have one : l.length ⌈/⌉ n.val ≤ 1 := by
      rw [ceilDiv_le_iff_le_mul n.property, Nat.mul_one]
      exact short
    exact Nat.max_eq_left one

/-- A pull that leaves something is one more than what is left takes. -/
theorem batches_more {l : List α} (more : size.drop l ≠ []) :
    size.batches l.length = 1 + size.batches (size.drop l).length := by
  cases size with
  | all => exact absurd rfl more
  | upTo n =>
    have long : n.val < l.length :=
      Nat.lt_of_not_le fun short => more (List.drop_eq_nil_iff.mpr short)
    have one_more : l.length ⌈/⌉ n.val = (l.length - n.val) ⌈/⌉ n.val + 1 := by
      rw [Nat.ceilDiv_eq_add_pred_div, Nat.ceilDiv_eq_add_pred_div,
        ← Nat.add_div_right _ n.property]
      congr 1
      omega
    have still_some : 1 ≤ (l.length - n.val) ⌈/⌉ n.val := by
      rw [Nat.ceilDiv_eq_add_pred_div, Nat.le_div_iff_mul_le n.property]
      omega
    rw [batches, drop, List.length_drop, batches, one_more, Nat.max_eq_right (Nat.le_add_left 1 _),
      Nat.max_eq_right still_some, Nat.add_comm]

/-- A configured size makes that many batches. -/
theorem batches_ofInt (size : Int) (records : Nat) :
    (ofInt size).batches records = batchCount size records := by
  rw [ofInt, batchCount]
  split <;> rfl

/-- On the wire a pull asks for the configured number of records, or for all. -/
theorem toInt_ofInt (size : Int) : (ofInt size).toInt = if 0 < size then size else -1 := by
  rw [ofInt]
  split
  · next positive => exact Int.toNat_of_nonneg (Int.le_of_lt positive)
  · rfl

end FetchSize

/-! ## Pulls and discards -/

/-- Whether records of a result were asked for. -/
def Happening.pulls (r : ResultId) : Happening → Bool
  | asked (.send _ sender (.pull _)) _ => sender = .result r
  | _ => false

/-- Whether records of a result were declined. -/
def Happening.discards (r : ResultId) : Happening → Bool
  | asked (.send _ sender .discard) _ => sender = .result r
  | _ => false

/-- A pull asks for this many records. -/
def Happening.Sized (size : FetchSize) : Happening → Prop
  | asked (.send _ _ (.pull size')) _ => size' = size
  | _ => True

theorem Happening.of_pulls (pulls : e.pulls r = true) :
    ∃ c size answer, e = .asked (.send c (.result r) (.pull size)) answer := by
  unfold Happening.pulls at pulls
  split at pulls
  · obtain rfl := of_decide_eq_true pulls
    exact ⟨_, _, _, rfl⟩
  · cases pulls

theorem Happening.of_discards (discards : e.discards r = true) :
    ∃ c answer, e = .asked (.send c (.result r) .discard) answer := by
  unfold Happening.discards at discards
  split at discards
  · obtain rfl := of_decide_eq_true discards
    exact ⟨_, _, rfl⟩
  · cases discards

namespace History

/-- How often records of a result were asked for. -/
def pulls (r : ResultId) (h : History) : Nat := h.countP (Happening.pulls r)

/-- How often records of a result were declined. -/
def discards (r : ResultId) (h : History) : Nat := h.countP (Happening.discards r)

theorem pulls_cons : pulls r (e :: past) = past.pulls r + if e.pulls r then 1 else 0 :=
  List.countP_cons

theorem discards_cons : discards r (e :: past) = past.discards r + if e.discards r then 1 else 0 :=
  List.countP_cons

theorem pulls_append : pulls r (later ++ past) = later.pulls r + past.pulls r :=
  List.countP_append

end History

/-! ## Counting -/

/-- What a history says of the pulls of a result, behind which the server holds `content`. -/
structure Counted (content : List (List Value)) (size : FetchSize) (r : ResultId) (h : History) :
    Prop where
  unstarted : h.keys? r = none → h.pulls r = 0 ∧ h.discards r = 0
  /-- While its stream is open, what is left takes the pulls that were not made yet. -/
  left : ∀ c d, History.dialogue c h = some d → d.IsSound → d.stream = some r →
    h.discards r = 0 ∧
      h.pulls r + size.batches (content.drop d.served).length = size.batches content.length ∧
      (0 < h.pulls r → content.drop d.served ≠ [])
  bounded : h.pulls r ≤ size.batches content.length
  complete : h.Complete r → h.discards r = 0 ∧ h.pulls r = size.batches content.length

namespace Counted

variable {content : List (List Value)} {c : Connection} {d : Dialogue}

/-- While its stream is open a result is not complete, and a pull is left. -/
theorem unfinished (n : Counted content size r past) (lent : History.dialogue c past = some d)
    (sound : d.IsSound) (stream : d.stream = some r) :
    ¬ past.Complete r ∧ past.pulls r + 1 ≤ size.batches content.length := by
  obtain ⟨-, sum, -⟩ := n.left c d lent sound stream
  have positive := size.batches_pos (content.drop d.served).length
  refine ⟨fun complete => ?_, by omega⟩
  have all := (n.complete complete).2
  omega

/-- What neither starts a result, nor brings records, nor is about this result. -/
theorem quiet (n : Counted content size r past) (proper : Always Proper (e :: past))
    (plain : e.IsPlain) (pulls : e.pulls r = false) (discards : e.discards r = false) :
    Counted content size r (e :: past) := by
  have pulled : History.pulls r (e :: past) = past.pulls r := by
    rw [History.pulls_cons, pulls]
    rfl
  have discarded : History.discards r (e :: past) = past.discards r := by
    rw [History.discards_cons, discards]
    rfl
  refine ⟨?_, ?_, ?_, ?_⟩
  · rw [pulled, discarded, History.keys?_plain plain]
    exact n.unstarted
  · intro c d lent sound stream
    rw [pulled, discarded]
    rcases dialogue_before proper lent with ⟨request, rfl, rfl⟩ |
      ⟨sender, m, answer, d', rfl, lent', -, -, rfl⟩ | ⟨-, lent'⟩
    · cases stream
    · obtain ⟨was, served⟩ := Dialogue.after_plain plain stream
      rw [served]
      exact n.left c d' lent' (Dialogue.sound_of_after (c := c) sound).1 was
    · exact n.left c d lent' sound stream
  · rw [pulled]
    exact n.bounded
  · rw [pulled, discarded, History.complete_plain plain]
    exact n.complete

/-- A query starts a result. -/
theorem run {request : RunRequest} {reply : RunReply} {id : ResultId}
    (n : Counted content size r past)
    (proper : Always Proper (.asked (.send c (.result id) (.run request)) (.ok reply) :: past))
    (fresh : past.keys? id = none) :
    Counted content size r (.asked (.send c (.result id) (.run request)) (.ok reply) :: past) := by
  obtain ⟨d', lent', -⟩ := proper.1
  -- a query is neither a pull nor a discard, and completes nothing
  refine ⟨fun unstarted => ?_, fun c' d lent sound stream => ?_, n.bounded, fun complete => ?_⟩
  · rw [History.keys?_run] at unstarted
    split at unstarted
    · cases unstarted
    · exact n.unstarted unstarted
  · obtain rfl := dialogue_send proper.2 lent' lent
    obtain rfl : id = r := Option.some.inj stream
    obtain ⟨pulls, discards⟩ := n.unstarted fresh
    exact ⟨discards, (congrArg (· + _) pulls).trans (Nat.zero_add _),
      fun some_pull => absurd pulls (Nat.ne_of_gt some_pull)⟩
  · exact n.complete ((History.complete_cons.mp complete).resolve_left fun h => h)

section Pulls

variable {batch : Batch}

theorem pulls_pull {answer : Except Fault Batch} {size' : FetchSize} :
    History.pulls r (.asked (.send c (.result r) (.pull size')) answer :: past) =
      past.pulls r + 1 := by
  rw [History.pulls_cons, Happening.pulls, decide_eq_true rfl]
  rfl

/-- A pull brings what is next. -/
theorem pull (n : Counted content size r past)
    (proper : Always Proper (.asked (.send c (.result r) (.pull size)) (.ok batch) :: past))
    (lent : History.dialogue c past = some d) (sound : d.IsSound) (stream : d.stream = some r)
    (started : (past.keys? r).isSome = true)
    (records : batch.records = size.take (content.drop d.served))
    (more : batch.more = true ↔ size.drop (content.drop d.served) ≠ []) :
    Counted content size r (.asked (.send c (.result r) (.pull size)) (.ok batch) :: past) := by
  obtain ⟨discards, sum, -⟩ := n.left c d lent sound stream
  obtain ⟨incomplete, room⟩ := n.unfinished lent sound stream
  refine ⟨fun unstarted => ?_, fun c' d' lent' _ still => ?_, pulls_pull ▸ room,
    fun complete => ⟨discards, ?_⟩⟩
  · rw [History.keys?_pull] at unstarted
    rw [unstarted] at started
    cases started
  · obtain rfl := dialogue_send proper.2 lent lent'
    simp only [Dialogue.after] at still ⊢
    split at still
    · next some_left =>
      have rest : content.drop (d.served + batch.records.length) =
          size.drop (content.drop d.served) := by
        rw [records, ← List.drop_drop, ← FetchSize.drop_eq_drop_length]
      have next := FetchSize.batches_more (more.mp some_left)
      rw [pulls_pull, rest]
      exact ⟨discards, by omega, fun _ => more.mp some_left⟩
    · cases still
  · obtain completes := (History.complete_cons.mp complete).resolve_right incomplete
    have last : size.drop (content.drop d.served) = [] := by
      by_contra some_left
      cases completes.2.symm.trans (more.mpr some_left)
    rw [FetchSize.batches_last last] at sum
    rw [pulls_pull, sum]

/-- A pull of another result. -/
theorem pull_other {id : ResultId} {size' : FetchSize} (n : Counted content size r past)
    (proper : Always Proper (.asked (.send c (.result id) (.pull size')) (.ok batch) :: past))
    (lent : History.dialogue c past = some d) (stream : d.stream = some id) (other : id ≠ r) :
    Counted content size r (.asked (.send c (.result id) (.pull size')) (.ok batch) :: past) := by
  have pulled : History.pulls r
      (.asked (.send c (.result id) (.pull size')) (.ok batch) :: past) = past.pulls r := by
    rw [History.pulls_cons, Happening.pulls,
      decide_eq_false fun same => other (Sender.result.inj same)]
    rfl
  refine ⟨fun unstarted => ?_, fun c' d' lent' _ still => ?_, pulled ▸ n.bounded,
    fun complete => ?_⟩
  · rw [History.keys?_pull] at unstarted
    rw [pulled]
    exact n.unstarted unstarted
  · exact absurd (Supplied.served_pull proper.2 lent stream still lent').1 other
  · rw [pulled]
    refine n.complete ((History.complete_cons.mp complete).resolve_left fun completes => ?_)
    exact other (Sender.result.inj completes.1)

end Pulls

/-- The stream ends, or is broken off. -/
theorem ended (n : Counted content size r past) (plain : e.IsPlain)
    (lent : History.dialogue c past = some d) (sound : d.IsSound) (stream : d.stream = some r)
    (started : (past.keys? r).isSome = true)
    (ceased : ∀ c d, History.dialogue c (e :: past) = some d → d.IsSound → d.stream ≠ some r) :
    Counted content size r (e :: past) := by
  obtain ⟨incomplete, room⟩ := n.unfinished lent sound stream
  refine ⟨fun unstarted => ?_, fun c' d' lent' sound' still => ?_, ?_, fun complete => ?_⟩
  · rw [History.keys?_plain plain] at unstarted
    rw [unstarted] at started
    cases started
  · exact absurd still (ceased c' d' lent' sound')
  · rw [History.pulls_cons]
    split <;> omega
  · exact absurd ((History.complete_plain plain).mp complete) incomplete

end Counted

/-- Against a server that is exact, the batches of every result are as many as its list takes. -/
theorem counted {content : ResultId → List (List Value)} (proper : Always Proper h)
    (fresh : Always Fresh h) (exact : Always (Exact content) h) (sized : ∀ e ∈ h, e.Sized size)
    (r : ResultId) : Counted (content r) size r h := by
  -- the induction is on the history, and only what is about the result changes anything
  induction h with
  | nil =>
    refine ⟨fun _ => ⟨rfl, rfl⟩, fun _ _ lent => (by cases lent), Nat.zero_le _, fun h => ?_⟩
    obtain ⟨e, he, -⟩ := h
    cases he
  | cons e past ih =>
    have before := ih proper.2 fresh.2 exact.2 fun e he => sized e (List.mem_cons_of_mem _ he)
    have supply := supplied proper.2 fresh.2 (exact.2.imp fun _ _ => Exact.faithful) r
    by_cases plain : e.IsPlain
    · cases pulls : e.pulls r with
      | true =>
        obtain ⟨c, size', answer, rfl⟩ := Happening.of_pulls pulls
        obtain ⟨d, lent, ⟨sound, id, same, stream⟩, -⟩ := proper.1
        cases same
        refine before.ended plain lent sound stream (supply.served c d lent stream).1
          fun c' d' lent' sound' _ => ?_
        obtain rfl := dialogue_send proper.2 lent lent'
        cases answer with
        | ok batch => exact plain
        | error fault => cases sound'.1
      | false =>
        cases discards : e.discards r with
        | true =>
          obtain ⟨c, answer, rfl⟩ := Happening.of_discards discards
          obtain ⟨d, lent, ⟨sound, id, same, stream⟩, -⟩ := proper.1
          cases same
          refine before.ended plain lent sound stream (supply.served c d lent stream).1
            fun c' d' lent' sound' still => ?_
          obtain rfl := dialogue_send proper.2 lent lent'
          cases answer with
          | ok metadata => cases still
          | error fault => cases sound'.1
        | false => exact before.quiet proper plain pulls discards
    · rcases Happening.starts_or_brings plain with ⟨c, sender, request, reply, rfl⟩ |
        ⟨c, sender, size', batch, rfl⟩
      · obtain ⟨d, lent, ⟨-, -, id, rfl⟩, -⟩ := id proper.1
        exact before.run proper fresh.1
      · obtain ⟨d, lent, ⟨sound, id, rfl, stream⟩, -⟩ := id proper.1
        by_cases own : id = r
        · subst own
          obtain rfl : size' = size := sized _ List.mem_cons_self
          obtain ⟨records, more⟩ := exact.1 d id lent stream
          exact before.pull proper lent sound stream (supply.served c d lent stream).1 records more
        · exact before.pull_other proper lent stream own

end GraphSession
