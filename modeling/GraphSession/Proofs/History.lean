import GraphSession.Proofs.Logic
import GraphSession.Session.Work

/-!
  What happened to a session.

  A history lists, latest first, everything the surroundings were asked with what they answered,
  every use of a handle with its outcome, and every end of a transaction function.  `Peer.recorded`
  answers as the peer does and keeps the history beside the peer's state; `Work.recorded` does the
  same work and adds what it does to the history, which the work itself cannot see.  So whatever
  holds of the history of every recorded peer holds for every pattern of success and failure.

  `Always P h` says that everything in a history was `P` given what had happened before it.
-/

namespace GraphSession

variable {ω α β : Type}

/-- One thing that happened. -/
inductive Happening
  /-- The surroundings were asked and answered. -/
  | asked (request : Request) (answer : request.Answer)
  /-- A handle was used. -/
  | used (access : Access) (outcome : Except Fault access.Reply)
  /-- The code of a transaction function ended: well, or with a fault. -/
  | returned (fault : Option Fault)

/-- What happened, latest first. -/
abbrev History := List Happening

/-- The fault of an outcome. -/
def faultOf? : Except Fault α → Option Fault
  | .ok _ => none
  | .error fault => some fault

/-- The fault of an access.  Reading to the end gives the one that stopped it beside the records. -/
def Access.fault? : (access : Access) → Except Fault access.Reply → Option Fault
  | .drain _, .ok (_, fault) => fault
  | _, outcome => faultOf? outcome

theorem Access.fault?_error (access : Access) (fault : Fault) :
    access.fault? (.error fault) = some fault := by
  cases access <;> rfl

/-- The fault in an answer, if the request can fail and did. -/
def Request.fault? : (request : Request) → request.Answer → Option Fault
  | .acquire _, answer => faultOf? answer
  | .findHome _, answer => faultOf? answer
  | .getBookmarks, answer => faultOf? answer
  | .updateBookmarks .., answer => faultOf? answer
  | .send .., answer => faultOf? answer
  | .release _, _ | .sleep _, _ | .readClock, _ | .drawSample, _ | .note _, _ => none

/-- The fault that came from outside the session, if one did. -/
def Happening.fault? : Happening → Option Fault
  | asked request answer => request.fault? answer
  | used .. => none
  | returned fault => fault

/-- A fault is not about a missing connection unless it came from outside. -/
def Blamed (h : History) (fault : Fault) : Prop :=
  fault = .noConnection → ∃ e ∈ h, e.fault? = some fault

/-- A fault that has just come from outside. -/
theorem Blamed.here {e : Happening} {past : History} {fault : Fault} (h : e.fault? = some fault) :
    Blamed (e :: past) fault :=
  fun _ => ⟨e, List.mem_cons_self, h⟩

theorem Blamed.mono {past h : History} {fault : Fault} (hb : Blamed past fault)
    (grown : past <:+ h) : Blamed h fault :=
  fun hf => (hb hf).imp fun _ he => ⟨grown.subset he.1, he.2⟩

/-- Something that concerns no connection. -/
def Happening.IsAside : Happening → Prop
  | asked (.acquire _) (.ok _) => False
  | asked (.release _) _ => False
  | asked (.send ..) _ => False
  | _ => True

/-- Everything in a history was `P`, given what had happened before it. -/
def Always (P : History → Happening → Prop) : History → Prop
  | [] => True
  | e :: past => P past e ∧ Always P past

theorem Always.of_append {P : History → Happening → Prop} {later past : History}
    (h : Always P (later ++ past)) : Always P past := by
  induction later with
  | nil => exact h
  | cons e later ih => exact ih h.2

theorem Always.append {P : History → Happening → Prop} {later past : History} (h : Always P past)
    (new : ∀ e ∈ later, ∀ past, P past e) : Always P (later ++ past) := by
  induction later with
  | nil => exact h
  | cons e later ih =>
    exact ⟨new e List.mem_cons_self _, ih fun e' he' => new e' (List.mem_cons_of_mem e he')⟩

/-- Everything that happened was `P` at its time. -/
theorem Always.at {P : History → Happening → Prop} {later past : History} {e : Happening}
    (h : Always P (later ++ e :: past)) : P past e :=
  h.of_append.1

/-- What is so at every time is always so. -/
theorem Always.of_at {P : History → Happening → Prop} {h : History}
    (each : ∀ later past e, h = later ++ e :: past → P past e) : Always P h := by
  induction h with
  | nil => trivial
  | cons e past ih =>
    refine ⟨each [] past e rfl, ih fun later past' e' split => ?_⟩
    exact each (e :: later) past' e' (congrArg (List.cons e) split)

theorem Always.of_forall {P : History → Happening → Prop} {h : History}
    (each : ∀ e ∈ h, ∀ past, P past e) : Always P h :=
  .of_at fun later past e split => each e (split ▸ List.mem_append_right later List.mem_cons_self) past

/-- Everything in a history was so at its time. -/
theorem Always.mem {P : History → Happening → Prop} {h : History} {e : Happening}
    (always : Always P h) (here : e ∈ h) : ∃ past, P past e := by
  obtain ⟨later, past, rfl⟩ := List.append_of_mem here
  exact ⟨past, always.at⟩

theorem Always.imp {P Q : History → Happening → Prop} {h : History} (hp : Always P h)
    (himp : ∀ past e, P past e → Q past e) : Always Q h := by
  induction h with
  | nil => trivial
  | cons e past ih => exact ⟨himp past e hp.1, ih hp.2⟩

/-! ## Keeping a history -/

/-- Surroundings with the history of what they were asked. -/
structure Recorded (ω : Type) where
  world : ω
  history : History := []

namespace Recorded

/-- Something more happened. -/
def add (w : Recorded ω) (e : Happening) : Recorded ω := { w with history := e :: w.history }

end Recorded

/-- A peer that answers as `peer` does and keeps the history. -/
def Peer.recorded (peer : Peer ω) : Peer (Recorded ω) where
  routing := peer.routing
  answer request w :=
    let given := peer.answer request w.world
    (given.1, ⟨given.2, .asked request given.1 :: w.history⟩)
  backlog w := peer.backlog w.world
  backlog_lt := by
    intro w w' c sender size batch h more
    obtain ⟨ha, hw⟩ := Prod.mk.inj h
    subst hw
    exact peer.backlog_lt (Prod.ext ha rfl) more

/-- The same work, with a history of the handles it uses and of its end. -/
def Work.recorded : Work ω α → Work (Recorded ω) α
  | done outcome => change (·.add (.returned (faultOf? outcome))) (done outcome)
  | call access next =>
    call access fun outcome => change (·.add (.used access outcome)) (next outcome).recorded
  | look next => look fun w => (next w.world).recorded
  | change f rest => change (fun w => { w with world := f w.world }) rest.recorded

/-- The history until now. -/
def State.history (σ : State (Recorded ω)) : History := σ.world.history

/-- The state after a request, its answer and whatever the answer did to the surroundings. -/
def State.heard (σ : State (Recorded ω)) (request : Request) (answer : request.Answer) (w : ω) :
    State (Recorded ω) :=
  { σ with world := ⟨w, .asked request answer :: σ.history⟩ }

@[simp] theorem State.heard_history (σ : State (Recorded ω)) (request : Request)
    (answer : request.Answer) (w : ω) :
    (σ.heard request answer w).history = .asked request answer :: σ.history := rfl

/-- What happened from `σ` to `τ` is as `P` says. -/
def State.Since (P : History → Prop) (σ τ : State (Recorded ω)) : Prop :=
  ∃ later, τ.history = later ++ σ.history ∧ P later

theorem State.Since.nothing {P : History → Prop} {σ τ : State (Recorded ω)} (h : P [])
    (same : τ.history = σ.history) : State.Since P σ τ :=
  ⟨[], same, h⟩

/-- One thing happened. -/
theorem State.Since.one {Q : Happening → Prop} {σ τ : State (Recorded ω)} {e : Happening} (h : Q e)
    (next : τ.history = e :: σ.history) : State.Since (∀ e ∈ ·, Q e) σ τ :=
  ⟨[e], next, fun e' he' => by rwa [List.mem_singleton.mp he']⟩

theorem State.Since.andThen {P Q R : History → Prop} {σ τ υ : State (Recorded ω)}
    (h : State.Since P σ τ) (h' : State.Since Q τ υ) (both : ∀ l l', P l → Q l' → R (l' ++ l)) :
    State.Since R σ υ := by
  obtain ⟨l, hl, hp⟩ := h
  obtain ⟨l', hl', hq⟩ := h'
  exact ⟨l' ++ l, by rw [hl', hl, List.append_assoc], both l l' hp hq⟩

theorem State.Since.imp {P Q : History → Prop} {σ τ : State (Recorded ω)}
    (h : State.Since P σ τ) (himp : ∀ l, P l → Q l) : State.Since Q σ τ :=
  Exists.imp (fun l hl => ⟨hl.1, himp l hl.2⟩) h

/-- Everything that happened from `σ` to `τ` is `Q`. -/
theorem State.Since.all_andThen {Q : Happening → Prop} {σ τ υ : State (Recorded ω)}
    (h : State.Since (∀ e ∈ ·, Q e) σ τ) (h' : State.Since (∀ e ∈ ·, Q e) τ υ) :
    State.Since (∀ e ∈ ·, Q e) σ υ :=
  h.andThen h' fun _ _ hl hl' e he => (List.mem_append.mp he).elim (hl' e) (hl e)

/-! ## Requests to a recorded peer -/

section Requests

variable {peer : Peer ω} {σ : State (Recorded ω)}

/-- Whatever the answer is, and whatever it does to the surroundings. -/
theorem Act.ends_ask {request : Request} {post : request.Answer → State (Recorded ω) → Prop}
    (h : ∀ answer w, post answer (σ.heard request answer w)) :
    (ask peer.recorded request).Ends σ post :=
  h _ _

theorem Act.ends_note {event : Event} {post : Unit → State (Recorded ω) → Prop}
    (h : ∀ w, post () (σ.heard (.note event) () w)) : (note peer.recorded event).Ends σ post :=
  h _

theorem Act.ends_giveBack {c : Connection} {post : Unit → State (Recorded ω) → Prop}
    (h : ∀ w, post () (σ.heard (.release c) () w)) : (giveBack peer.recorded c).Ends σ post :=
  h _

/-- The state that a request leaves, by its answer. -/
theorem heard_answer (peer : Peer ω) (request : Request) (σ : State (Recorded ω)) :
    { σ with world := (peer.recorded.answer request σ.world).2 } =
      σ.heard request (peer.recorded.answer request σ.world).1
        (peer.answer request σ.world.world).2 :=
  rfl

variable {bad : Fault → State (Recorded ω) → Prop}

theorem Op.ends_send {c : Connection} {sender : Sender} {m : Message}
    {good : m.Reply → State (Recorded ω) → Prop}
    (hgood : ∀ reply w, good reply (σ.heard (.send c sender m) (.ok reply) w))
    (hbad : ∀ fault w, bad fault (σ.heard (.send c sender m) (.error fault) w)) :
    (send peer.recorded c sender m).Ends σ good bad := by
  unfold Op.Ends
  rw [Op.exec_send, heard_answer]
  cases (peer.recorded.answer (.send c sender m) σ.world).1 with
  | ok reply => exact hgood reply _
  | error fault => exact hbad fault _

theorem Op.ends_borrow {request : AcquireRequest}
    {good : Connection → State (Recorded ω) → Prop}
    (hgood : ∀ c w, good c (σ.heard (.acquire request) (.ok c) w))
    (hbad : ∀ fault w, bad fault (σ.heard (.acquire request) (.error fault) w)) :
    (borrow peer.recorded request).Ends σ good bad := by
  unfold Op.Ends
  rw [Op.exec_borrow, heard_answer]
  cases (peer.recorded.answer (.acquire request) σ.world).1 with
  | ok c => exact hgood c _
  | error fault => exact hbad fault _

theorem Op.ends_askHomes {request : RoutingRequest}
    {good : List String → State (Recorded ω) → Prop}
    (hgood : ∀ names w, good names (σ.heard (.findHome request) (.ok names) w))
    (hbad : ∀ fault w, bad fault (σ.heard (.findHome request) (.error fault) w)) :
    (askHomes peer.recorded request).Ends σ good bad := by
  unfold Op.Ends
  rw [Op.exec_askHomes, heard_answer]
  cases (peer.recorded.answer (.findHome request) σ.world).1 with
  | ok names => exact hgood names _
  | error fault => exact hbad fault _

theorem Op.ends_askBookmarks {good : Bookmarks → State (Recorded ω) → Prop}
    (hgood : ∀ b w, good b (σ.heard .getBookmarks (.ok b) w))
    (hbad : ∀ fault w, bad fault (σ.heard .getBookmarks (.error fault) w)) :
    (askBookmarks peer.recorded).Ends σ good bad := by
  unfold Op.Ends
  rw [Op.exec_askBookmarks, heard_answer]
  cases (peer.recorded.answer .getBookmarks σ.world).1 with
  | ok b => exact hgood b _
  | error fault => exact hbad fault _

theorem Op.ends_reportBookmarks {previous new : Bookmarks}
    {good : Unit → State (Recorded ω) → Prop}
    (hgood : ∀ w, good () (σ.heard (.updateBookmarks previous new) (.ok ()) w))
    (hbad : ∀ fault w, bad fault (σ.heard (.updateBookmarks previous new) (.error fault) w)) :
    (reportBookmarks peer.recorded previous new).Ends σ good bad := by
  unfold Op.Ends
  rw [Op.exec_reportBookmarks, heard_answer]
  cases (peer.recorded.answer (.updateBookmarks previous new) σ.world).1 with
  | ok _ => exact hgood _
  | error fault => exact hbad fault _

/-- A message on the session's connection: the session must hold one. -/
theorem Op.ends_sendHeld {c : Connection} {sender : Sender} {m : Message}
    {good : m.Reply → State (Recorded ω) → Prop} (held : σ.session.connection = some c)
    (hgood : ∀ reply w, good reply (σ.heard (.send c sender m) (.ok reply) w))
    (hbad : ∀ fault w, bad fault (σ.heard (.send c sender m) (.error fault) w)) :
    (sendHeld peer.recorded sender m).Ends σ good bad := by
  rw [sendHeld, Op.ends_bind, Op.ends_theSession, held]
  exact Op.ends_send hgood hbad

end Requests

end GraphSession
