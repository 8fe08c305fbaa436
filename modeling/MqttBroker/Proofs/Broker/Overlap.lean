import MqttBroker.Proofs.Broker.Consistency

/-!
Admissions that overlap: connections are bound to the session of one client, opened and let go step
by step, while others publish and transports fail.
-/
namespace MqttBroker

/-- How far the admission of a connection has come. -/
inductive Stage where
  | waiting
  /-- The session is bound to the connection, which is to be opened. -/
  | bound (outcome : BindOutcome)
  /-- The connection could not be opened, and these publishes were not written. -/
  | failed (unsent : List Publish)
  /-- What was not written was put back. -/
  | restored
  | done

/-- What was taken from the queue of a session and is neither written nor put back. -/
def Stage.inHand : Stage → List Publish
  | bound outcome => outcome.replay
  | failed unsent => unsent
  | _ => []

def Stage.isUnderWay : Stage → Bool
  | waiting | done => false
  | bound _ | failed _ | restored => true

/-- A step of one of the admissions, or what happens meanwhile. -/
inductive AdmissionStep where
  | bind (k : ConnectionId) (client : ClientInfo) (will : Option Will)
  | establish (k : ConnectionId)
  | requeue (k : ConnectionId)
  /-- The actor of a connection that could not be opened lets go of the session. -/
  | leave (k : ConnectionId)
  | publish (publish : Publish)
  | fault (k : ConnectionId) (fault : Fault)

/-- A broker in the midst of admissions to the session of one client. -/
structure Admissions where
  broker : Broker
  stage : ConnectionId → Stage
  /-- The copies that were not put back, because another connection had the session by then. -/
  forfeited : List Publish

namespace Admissions

def start (b : Broker) : Admissions := ⟨b, fun _ => .waiting, []⟩

lemma broker_start (b : Broker) : (start b).broker = b := rfl

variable (a : Admissions) (id : ClientId)

/-- One admission comes to another stage. -/
def proceed (k : ConnectionId) (stage : Stage) (broker : Broker) : Admissions :=
  { a with broker, stage := Function.update a.stage k stage }

lemma stage_proceed_self {k : ConnectionId} {stage : Stage} {b : Broker} :
    (a.proceed k stage b).stage k = stage :=
  Function.update_self ..

lemma stage_proceed_of_ne {k j : ConnectionId} {stage : Stage} {b : Broker} (hj : k ≠ j) :
    (a.proceed k stage b).stage j = a.stage j :=
  Function.update_of_ne hj.symm ..

lemma proceed_same {k : ConnectionId} {b : Broker} :
    a.proceed k (a.stage k) b = { a with broker := b } := by
  rw [proceed, Function.update_eq_self]

/-- Bind the session, and remember on it and on the connection whom it is for. -/
def bind (k : ConnectionId) (client : ClientInfo) (will : Option Will) : Admissions :=
  let b := a.broker.modifyConnection k fun c => { c with state := .binding }
  match b.bind .quiet client.id false k client with
  | (.error _, b) => a.proceed k .done (b.reject k .serverUnavailable).2
  | (.ok outcome, b) =>
    a.proceed k (.bound outcome) ((b.setWill client.id k will).2.recordClient k client false)

def establish (k : ConnectionId) (outcome : BindOutcome) : Admissions :=
  match a.broker.onConnection k
    (·.establish (.connack outcome.resumed .accepted) outcome.replay) with
  | (.ok (), b) => a.proceed k .done b
  | (.error unsent, b) => a.proceed k (.failed unsent) b

def requeue (k : ConnectionId) (unsent : List Publish) : Admissions :=
  let lost := if (a.broker.boundSession? id k).isSome then [] else Session.keepable unsent
  { a.proceed k .restored (a.broker.requeue id k unsent).2 with forfeited := a.forfeited ++ lost }

lemma requeue_of_bound {k : ConnectionId} {session : Session}
    (hs : a.broker.boundSession? id k = some session) (hc : session.clean = false)
    (unsent : List Publish) :
    a.requeue id k unsent = a.proceed k .restored
      (a.broker.setSession id
        { session with queue := Session.keepable unsent ++ session.queue }) := by
  simp [requeue, Broker.requeue, proceed, hs, hc]

lemma requeue_of_overtaken {k : ConnectionId} (hs : a.broker.boundSession? id k = none)
    (unsent : List Publish) :
    a.requeue id k unsent = { a.proceed k .restored a.broker with
      forfeited := a.forfeited ++ Session.keepable unsent } := by
  simp [requeue, Broker.requeue, hs]

/-- A step that is not due does nothing. -/
def step (a : Admissions) : AdmissionStep → Admissions
  | .bind k client will =>
    match a.stage k with
    | .waiting =>
      if (a.broker.connection k).state = .idle ∧ client.id = id then a.bind k client will else a
    | _ => a
  | .establish k =>
    match a.stage k with
    | .bound outcome => a.establish k outcome
    | _ => a
  | .requeue k =>
    match a.stage k with
    | .failed unsent => a.requeue id k unsent
    | _ => a
  | .leave k =>
    match a.stage k with
    | .restored => a.proceed k .done (a.broker.connectionLost k)
    | _ => a
  | .publish publish => { a with broker := (a.broker.publish publish).2 }
  | .fault k fault => { a with broker := a.broker.perform (.fault k fault) }

def run (a : Admissions) (steps : List AdmissionStep) : Admissions := steps.foldl (step id) a

/-- What was not written comes back after the session was bound to another connection. -/
def IsOvertaken (a : Admissions) (s : AdmissionStep) : Prop :=
  ∃ k unsent, s = .requeue k ∧ a.stage k = .failed unsent ∧ a.broker.boundSession? id k = none

/-- Nothing is forfeited by a step that was not overtaken. -/
lemma forfeited_step {s : AdmissionStep} (h : ¬ IsOvertaken id a s) :
    (a.step id s).forfeited = a.forfeited := by
  cases s with
  | bind k client will =>
    unfold step
    dsimp only
    split
    · split
      · unfold bind
        dsimp only
        split <;> rfl
      · rfl
    · rfl
  | establish k =>
    unfold step
    dsimp only
    split
    · unfold establish
      split <;> rfl
    · rfl
  | requeue k =>
    unfold step
    dsimp only
    split
    next unsent hs =>
      have hb : (a.broker.boundSession? id k).isSome := by
        rw [Option.isSome_iff_ne_none]
        exact fun hn => h ⟨k, unsent, rfl, hs, hn⟩
      simp [requeue, hb]
    · rfl
  | leave k =>
    unfold step
    dsimp only
    split <;> rfl
  | publish | fault => rfl

lemma forfeited_run {steps : List AdmissionStep} (h : ∀ before s later,
    steps = before ++ s :: later → ¬ IsOvertaken id (a.run id before) s) :
    (a.run id steps).forfeited = a.forfeited := by
  induction steps generalizing a with
  | nil => rfl
  | cons s steps ih =>
    refine (ih (a.step id s) fun before t later he => ?_).trans
      (a.forfeited_step id (h [] s steps rfl))
    exact h (s :: before) t later (congrArg (s :: ·) he)

/-- No admission is under way. -/
def Completed (a : Admissions) : Prop :=
  ∀ k < a.broker.connections.size, (a.stage k).isUnderWay = false

instance : Decidable a.Completed :=
  inferInstanceAs (Decidable (∀ k < a.broker.connections.size, (a.stage k).isUnderWay = false))

/-- The steps of one admission. -/
def stepsOf (k : ConnectionId) (client : ClientInfo) (will : Option Will) : List AdmissionStep :=
  [.bind k client will, .establish k, .requeue k, .leave k]

end Admissions

namespace Broker
variable {b : Broker} {k : ConnectionId} {client : ClientInfo}

/-- Left to itself an admission goes the way of the gateway. -/
lemma run_stepsOf (hs : (b.connection k).state = .idle) (connect : Connect)
    (hc : connect.clean = false) :
    ((Admissions.start b).run client.id (Admissions.stepsOf k client connect.will)).broker =
      ((b.modifyConnection k fun c => { c with state := .binding }).bindAndEstablish .quiet k
        connect client false).2 := by
  have hstart : (Admissions.start b).step client.id (.bind k client connect.will) =
      (Admissions.start b).bind k client connect.will := if_pos ⟨hs, rfl⟩
  unfold Admissions.run Admissions.stepsOf
  simp only [List.foldl_cons, List.foldl_nil, hstart]
  unfold Admissions.bind bindAndEstablish
  rw [hc]
  dsimp only [Admissions.start]
  generalize (b.modifyConnection k fun c => { c with state := .binding }).bind .quiet client.id
    false k client = result
  obtain ⟨error | outcome, b⟩ := result
  · simp [Admissions.proceed, Admissions.step]
  · dsimp only
    rw [if_neg nofun]
    generalize (b.setWill client.id k connect.will).2.recordClient k client false = bound
    unfold Broker.establish
    rcases ho : bound.onConnection k
      (·.establish (.connack outcome.resumed .accepted) outcome.replay) with ⟨unsent | _, opened⟩
    · simp [Admissions.proceed, Admissions.step, Admissions.establish, Admissions.requeue, ho]
    · simp [Admissions.proceed, Admissions.step, Admissions.establish, ho]

/-- A CONNECT that asks for a persistent session is refused, or its admission takes these steps. -/
theorem processConnect_steps (b : Broker) (k : ConnectionId) {connect : Connect}
    (hc : connect.clean = false) : Refused k b (b.processConnect .quiet k connect) ∨
      ∃ client calls, b.resolveId connect = .ok (client.id, false) ∧
        (b.processConnect .quiet k connect).2 =
          ((Admissions.start (b.withBooks calls b.stored b.identified)).run client.id
            (Admissions.stepsOf k client connect.will)).broker := by
  obtain hr | ⟨client, isGiven, calls, hs, -, hi, -, he⟩ := b.processConnect_cases k connect
  · exact .inl hr
  have hg : isGiven = false := by
    unfold resolveId at hi
    rw [hc] at hi
    split at hi
    · exact (Prod.mk.inj (Except.ok.inj hi)).2.symm
    · cases hi
  subst hg
  refine .inr ⟨client, calls, hi, ?_⟩
  have hs' : ((b.withBooks calls b.stored b.identified).connection k).state = .idle := hs
  rw [he, run_stepsOf hs' connect hc]
  rfl

end Broker
end MqttBroker
