import MqttBroker.Proofs.Broker.Binding
import MqttBroker.Proofs.Broker.Resemblance
import MqttBroker.Proofs.Broker.Run

/-!
Calls that write to the storage may fail unnoticed: runs over storages of which different calls
fail have the same results and leave the same broker in memory, as long as whatever is looked up
is answered alike.
-/
namespace MqttBroker

/-- What an operation answers. -/
def Operation.Result : Operation → Type
  | accept => ConnectionId
  | connect _ _ => ConnectResult
  | event _ _ | expire _ | unbind _ _ _ | unsubscribe _ _ _ | setWill _ _ _ => Bool
  | bind _ _ _ _ => Except StorageError BindOutcome
  | subscribe _ _ _ _ => Except SubscribeError Grant
  | publish _ | fireWill _ | requeue _ _ _ => Nat
  | publishFrom _ _ => Except PublishError Nat
  | takeWill _ _ => Option Will
  | fault _ _ | clearWill _ | connection _ _ => Unit

namespace Repository
variable {α : Type} {repository next later : Repository α} {key : String}

/-- The record of a key was looked up, before anything else was asked. -/
def LookedUp (repository later : Repository α) (key : String) : Prop :=
  ∃ error, ⟨.load key, error⟩ :: repository.history <:+ later.history

lemma history_request {β : Type} (call : RepositoryCall) (result : β) (records : Table α) :
    (repository.request call result records).2.history =
      ⟨call, repository.obstacle call⟩ :: repository.history := by
  rw [request_snd]

lemma suffix_request {β : Type} (call : RepositoryCall) (result : β) (records : Table α) :
    repository.history <:+ (repository.request call result records).2.history := by
  rw [history_request]
  exact List.suffix_cons _ _

lemma lookedUp_load (repository : Repository α) (key : String) :
    repository.LookedUp (repository.load key).2 key := by
  refine ⟨repository.obstacle (.load key), ?_⟩
  rw [load, history_request]

lemma LookedUp.trans (h : repository.LookedUp next key) (hs : next.history <:+ later.history) :
    repository.LookedUp later key := by
  obtain ⟨error, h⟩ := h
  exact ⟨error, h.trans hs⟩

end Repository

namespace Broker

/-- Carry out an operation for its answer. -/
def execute (b : Broker) : (operation : Operation) → operation.Result × Broker
  | .accept => b.accept
  | .connect k connect => b.processConnect .quiet k connect
  | .event k event => b.handle .quiet k event
  | .expire id => b.expire id
  | .bind id clean k client => b.bind .quiet id clean k client
  | .unbind id k remove => b.unbind id k remove
  | .subscribe client k filter qos => b.subscribe .quiet client k filter qos
  | .unsubscribe id k filter => b.unsubscribe .quiet id k filter
  | .publish publish => b.publish publish
  | .publishFrom client publish => b.publishFrom client publish
  | .setWill id k will => b.setWill id k will
  | .takeWill id k => b.takeWill id k
  | .fireWill will => b.fireWill will
  | .requeue id k unsent => b.requeue id k unsent
  | .fault k fault => ((), b.perform (.fault k fault))
  | .clearWill id => ((), b.clearWill id)
  | .connection k change => ((), b.modifyConnection k change)

lemma execute_snd (b : Broker) (operation : Operation) :
    (b.execute operation).2 = b.perform operation := by
  cases operation <;> rfl

/-- An operation looks up what is stored of a client, before it asks anything else. -/
def LooksUp (b : Broker) (operation : Operation) (id : ClientId) : Prop :=
  b.stored.LookedUp (b.perform operation).stored id

/-- Whatever is looked up in the course of a run, both storages answer alike. -/
def LookupsAgree (b c : Broker) (operations : List Operation) : Prop :=
  ∀ past operation, past ++ [operation] <+: operations → ∀ id,
    (b.after past).LooksUp operation id →
      ((c.after past).stored.load id).1 = ((b.after past).stored.load id).1

/-- The sessions, the directory, the retained messages and the connections are the same, with all
that was written to their transports. -/
structure SameInMemory (b c : Broker) : Prop where
  sessions : c.sessions = b.sessions
  directory : c.directory = b.directory
  messages : c.retained.messages = b.retained.messages
  connections : c.connections = b.connections

/-- The broker with other collaborators. -/
def withAccess (b : Broker) (authenticator : Authenticator) (authorizer : Authorizer) : Broker :=
  { b with authenticator, authorizer }

/-- All that was asked of the storage is still on record. -/
def KeepsRecord (b b' : Broker) : Prop := b.stored.history <:+ b'.stored.history

variable {b b' b'' c : Broker} {id : ClientId} {k : ConnectionId} {client : ClientInfo}

namespace KeepsRecord

lemma of_eq (h : b'.stored = b.stored) : KeepsRecord b b' := by
  unfold KeepsRecord
  rw [h]

lemma trans (h : KeepsRecord b b') (h' : KeepsRecord b' b'') : KeepsRecord b b'' :=
  List.IsSuffix.trans h h'

lemma cleared (b : Broker) (id : ClientId) (due : Bool) :
    b.stored.history <:+ (b.cleared id due).history := by
  unfold Broker.cleared
  split
  · exact Repository.suffix_request _ _ _
  · exact List.suffix_rfl

lemma teardown (b : Broker) (id : ClientId) (session : Session) :
    KeepsRecord b (b.teardown id session) := by
  rw [teardown_eq]
  exact cleared b id !session.clean

lemma unbind (b : Broker) (id : ClientId) (k : ConnectionId) (remove : Bool) :
    KeepsRecord b (b.unbind id k remove).2 := by
  obtain ⟨-, he⟩ | ⟨session, -, -, he⟩ := unbind_cases b id k remove <;> rw [he]
  · exact of_eq rfl
  · split
    · exact teardown b id session
    · exact of_eq rfl

lemma takeWill (b : Broker) (id : ClientId) (k : ConnectionId) :
    KeepsRecord b (b.takeWill id k).2 := by
  obtain he | ⟨session, -, he⟩ := takeWill_cases b id k <;> rw [he]
  · exact of_eq rfl
  · exact of_eq rfl

lemma setWill (b : Broker) (id : ClientId) (k : ConnectionId) (will : Option Will) :
    KeepsRecord b (b.setWill id k will).2 := by
  obtain he | ⟨session, -, he⟩ := setWill_cases b id k will <;> rw [he]
  · exact of_eq rfl
  · exact of_eq rfl

lemma requeue (b : Broker) (id : ClientId) (k : ConnectionId) (unsent : List Publish) :
    KeepsRecord b (b.requeue id k unsent).2 := by
  obtain he | ⟨session, -, he⟩ := requeue_cases b id k unsent <;> rw [he]
  · exact of_eq rfl
  · exact of_eq rfl

lemma fireWill (b : Broker) (will : Will) : KeepsRecord b (b.fireWill will).2 := by
  unfold Broker.fireWill
  split
  · exact of_eq rfl
  · exact of_eq (stored_publish will.toPublish b)

lemma executeWill (b : Broker) (k : ConnectionId) (will : Option Will) :
    KeepsRecord b (b.executeWill k will) := by
  cases will with
  | none => exact of_eq rfl
  | some will => exact fireWill b will

lemma connectionLost (b : Broker) (k : ConnectionId) : KeepsRecord b (b.connectionLost k) := by
  unfold Broker.connectionLost
  dsimp only
  split
  · exact of_eq rfl
  next client _ =>
    set m := (b.closeConnection k).modifyConnection k fun c => { c with client := none }
    have hm : KeepsRecord b m := of_eq rfl
    exact ((hm.trans (takeWill m client.id k)).trans (executeWill _ k _)).trans (unbind _ _ _ _)

lemma establish (b : Broker) (k : ConnectionId) (client : ClientInfo) (outcome : BindOutcome) :
    KeepsRecord b (b.establish k client outcome).2 := by
  unfold Broker.establish
  generalize ho : b.onConnection k _ = opened
  obtain ⟨result, m⟩ := opened
  have hm : KeepsRecord b m := by
    rw [onConnection] at ho
    cases ho
    exact of_eq rfl
  obtain unsent | _ := result
  · exact (hm.trans (requeue m client.id k unsent)).trans (connectionLost _ k)
  · exact hm

lemma bindSession (b : Broker) (id : ClientId) (clean : Bool) (k : ConnectionId)
    (client : ClientInfo) (session : Session) :
    KeepsRecord b (b.bindSession .quiet id clean k client session).2 := by
  obtain ⟨lost, calls, -, he⟩ := b.bindSession_quiet id clean k client session
  rw [he]
  change b.stored.history <:+ (b.filed id clean session _).history
  unfold filed
  split
  · exact cleared b id _
  · exact Repository.suffix_request _ _ _

end KeepsRecord

section lookups

/-- A persistent client without a session in memory is looked up. -/
lemma bind_lookedUp (hs : b.session? id = none) (k : ConnectionId) (client : ClientInfo) :
    b.stored.LookedUp (b.bind .quiet id false k client).2.stored id := by
  have hl := b.stored.lookedUp_load id
  unfold Broker.bind findOrCreate
  rw [hs, if_neg nofun]
  generalize b.stored.load id = answer at hl ⊢
  obtain ⟨error | record | _, stored⟩ := answer
  · exact hl
  · exact hl.trans (KeepsRecord.bindSession { b with stored } id false k client _)
  · exact hl.trans (KeepsRecord.bindSession { b with stored } id false k client _)

lemma bindAndEstablish_keepsRecord (b : Broker) (k : ConnectionId) (connect : Connect)
    (client : ClientInfo) (isGiven : Bool) :
    KeepsRecord (b.bind .quiet client.id connect.clean k client).2
      (b.bindAndEstablish .quiet k connect client isGiven).2 := by
  unfold bindAndEstablish
  generalize b.bind .quiet client.id connect.clean k client = bound
  obtain ⟨error | outcome, m⟩ := bound
  · exact .of_eq rfl
  · dsimp only
    set n := if isGiven = true then { m with identified := m.identified + 1 } else m with hn
    have hm : KeepsRecord m n := .of_eq (by rw [hn]; split <;> rfl)
    have hw : KeepsRecord m ((n.setWill client.id k connect.will).2.recordClient k client
        connect.clean) := (hm.trans (.setWill n client.id k connect.will)).trans (.of_eq rfl)
    exact hw.trans (.establish _ k client outcome)

end lookups

namespace Resembles

/-- A CONNECT looks up one client at most. -/
lemma processConnect (h : Resembles b c) (k : ConnectionId) (connect : Connect)
    (hl : ∀ id, b.stored.LookedUp (b.processConnect .quiet k connect).2.stored id →
      (c.stored.load id).1 = (b.stored.load id).1) :
    Agree (b.processConnect .quiet k connect) (c.processConnect .quiet k connect) := by
  obtain ha | ⟨b', c', client, isGiven, h', hb, hc, heb, hec⟩ := h.processConnect_or k connect
  · exact ha
  · rw [heb] at hl
    rw [heb, hec]
    refine bindAndEstablish (h'.findOrCreate client.id connect.clean client ?_) k isGiven
    intro hs hclean
    rw [hb, hc]
    apply hl
    have hu := bind_lookedUp hs k client
    rw [← hclean, hb] at hu
    exact hu.trans (b'.bindAndEstablish_keepsRecord k connect client isGiven)

/-- One operation, over two storages that answer it alike. -/
theorem execute (h : Resembles b c) (operation : Operation)
    (hl : ∀ id, b.LooksUp operation id → (c.stored.load id).1 = (b.stored.load id).1) :
    Agree (b.execute operation) (c.execute operation) := by
  cases operation with
  | accept => exact h.accept
  | connect k connect => exact h.processConnect k connect hl
  | event k event =>
    obtain ha | ⟨connect, hb, hc⟩ := h.handle_or k event
    · exact ha
    · have hp : b.perform (.event k event) = (b.processConnect .quiet k connect).2 :=
        congrArg Prod.snd hb
      unfold LooksUp at hl
      rw [hp] at hl
      obtain ⟨result, b', c', hb', hc', h'⟩ := h.processConnect k connect hl
      rw [hb'] at hb
      rw [hc'] at hc
      exact ⟨result.isAccepted, b', c', hb, hc, h'⟩
  | expire id => exact (parallel id).expire h
  | fault k fault =>
    exact .mk () (h.modifyConnection k fun c => { c with transport := c.transport.suffer fault })
  | bind id clean k client =>
    refine (parallel id).bind (h.findOrCreate id clean client ?_) k
    rintro hs rfl
    exact hl id (bind_lookedUp hs k client)
  | unbind id k remove => exact (parallel id).unbind h k remove
  | subscribe client k filter qos => exact (parallel client.id).subscribe h k filter qos
  | unsubscribe id k filter => exact (parallel id).unsubscribe h k filter
  | publish publish => exact h.publish publish
  | publishFrom client publish => exact h.publishFrom client publish
  | setWill id k will => exact (parallel id).setWill h k will
  | clearWill id => exact .mk _ ((parallel id).clearWill h)
  | takeWill id k => exact (parallel id).takeWill h k
  | fireWill will => exact h.fireWill will
  | requeue id k unsent => exact (parallel id).requeue h k unsent
  | connection k change => exact .mk _ (h.modifyConnection k change)

lemma perform (h : Resembles b c) (operation : Operation)
    (hl : ∀ id, b.LooksUp operation id → (c.stored.load id).1 = (b.stored.load id).1) :
    Resembles (b.perform operation) (c.perform operation) := by
  rw [← execute_snd, ← execute_snd]
  exact (h.execute operation hl).snd

/-- The brokers still differ in their storage at most after every part of the run. -/
lemma after (h : Resembles b c) {operations : List Operation} (hl : b.LookupsAgree c operations)
    {past : List Operation} (hp : past <+: operations) :
    Resembles (b.after past) (c.after past) := by
  induction past using List.reverseRecOn with
  | nil => exact h
  | append_singleton past operation ih =>
    rw [after_append, after_append]
    exact (ih ((List.prefix_append _ _).trans hp)).perform operation (hl past operation hp)

lemma sameInMemory (h : Resembles b c) : SameInMemory b c := by
  obtain ⟨stored, repository, rfl⟩ := h
  exact ⟨rfl, rfl, rfl, rfl⟩

end Resembles

/-- Brokers that are opened over the same retained messages differ in their storage at most. -/
lemma openOn_resembles {config : Config} {retained retained' : Repository StoredMessage}
    {identifiers : Nat → ClientId} {opened : Broker} {rest : Repository StoredMessage}
    {stored : Repository StoredSession} (stored' : Repository StoredSession)
    (ho : openOn config retained stored identifiers = (.ok opened, rest))
    (hr : retained'.loadAll.1 = retained.loadAll.1) : ∃ opened' rest',
      openOn config retained' stored' identifiers = (.ok opened', rest') ∧
        Resembles opened opened' := by
  unfold openOn RetainedStore.openOn at ho ⊢
  generalize retained.loadAll = answer at ho hr
  generalize retained'.loadAll = answer' at hr ⊢
  obtain ⟨answer, retained⟩ := answer
  obtain ⟨answer', retained'⟩ := answer'
  obtain rfl : answer' = answer := hr
  obtain error | records := answer'
  · cases ho
  · cases ho
    exact ⟨_, _, rfl, stored', some retained', rfl⟩

/-- Two brokers are opened over storages that differ in which calls fail, and asked the same
operations.  As long as whatever they look up is answered alike, every operation has the same
result, and after each of them both have the same in memory and wrote the same to every transport:
it does not show which of their writes failed. -/
theorem storage_failures_do_not_show {config : Config}
    {retained retained' : Repository StoredMessage} {stored : Repository StoredSession}
    (stored' : Repository StoredSession) {identifiers : Nat → ClientId} {opened : Broker}
    {rest : Repository StoredMessage}
    (ho : openOn config retained stored identifiers = (.ok opened, rest))
    (hr : retained'.loadAll.1 = retained.loadAll.1) : ∃ opened' rest',
      openOn config retained' stored' identifiers = (.ok opened', rest') ∧
      ∀ (authenticator : Authenticator) (authorizer : Authorizer) (operations : List Operation),
        let b := opened.withAccess authenticator authorizer
        let c := opened'.withAccess authenticator authorizer
        b.LookupsAgree c operations →
          (∀ past operation, past ++ [operation] <+: operations →
            ((c.after past).execute operation).1 = ((b.after past).execute operation).1) ∧
          ∀ past, past <+: operations → SameInMemory (b.after past) (c.after past) := by
  obtain ⟨opened', rest', ho', h⟩ := openOn_resembles stored' ho hr
  refine ⟨opened', rest', ho', ?_⟩
  intro authenticator authorizer operations b c hl
  have hbc : Resembles b c := by
    obtain ⟨stored, repository, rfl⟩ := h
    exact ⟨stored, repository, rfl⟩
  constructor
  · intro past operation hp
    have hpast := hbc.after hl ((List.prefix_append past [operation]).trans hp)
    exact (hpast.execute operation (hl past operation hp)).fst
  · intro past hp
    exact (hbc.after hl hp).sameInMemory

/-- Neither the retained message nor the session of the client that came back was written, and the
client got the same answer. -/
theorem storage_failures_do_not_show_unwritten :
    let full : FailureSchedule := fun _ call => if call.isSave then some (.write "full") else none
    let records : Table StoredSession := Table.ofEntries [("c", ⟨[("a/#", 1)]⟩)]
    let publish : Publish := ⟨"a/b", [7], .atMostOnce, true, false, none⟩
    let bind : Operation := .bind "c" false 0 (.anonymous "c")
    let operations : List Operation := [.accept, .publish publish, bind]
    ∃ opened opened' rest rest',
      openOn {} .empty (.ofRecords records) (fun _ => "") = (.ok opened, rest) ∧
      openOn {} { Repository.empty with failure := full } ⟨records, [], full⟩ (fun _ => "") =
        (.ok opened', rest') ∧
      let b := opened.withAccess .allowAll .allowAll
      let c := opened'.withAccess .allowAll .allowAll
      b.LookupsAgree c operations ∧ (b.after [.accept, .publish publish]).LooksUp bind "c" ∧
        ((c.after [.accept, .publish publish]).execute bind).1 =
          ((b.after [.accept, .publish publish]).execute bind).1 ∧
        SameInMemory (b.after operations) (c.after operations) ∧
        (c.after operations).stored.history =
          [⟨.save "c", some (.write "full")⟩, ⟨.load "c", none⟩] ∧
        (c.after operations).retained.repository.map (·.history) =
          some [⟨.save "a/b", some (.write "full")⟩, ⟨.loadAll, none⟩] := by
  intro full records publish bind operations
  have ho : openOn {} .empty (.ofRecords records) (fun _ => "") = (.ok _, _) := rfl
  have hr : ({ Repository.empty with failure := full } : Repository StoredMessage).loadAll.1 =
    Repository.empty.loadAll.1 := rfl
  obtain ⟨opened', rest', ho', h⟩ := storage_failures_do_not_show ⟨records, [], full⟩ ho hr
  refine ⟨_, opened', _, rest', ho, ho', ?_⟩
  change (Except.ok _, _) = _ at ho'
  cases ho'
  intro b c
  have hl : b.LookupsAgree c operations := by
    intro past operation hp id _
    have hlength : past.length < 3 := by
      have hle := hp.length_le
      simp only [operations, List.length_append, List.length_cons, List.length_nil] at hle
      omega
    have hpast : past = operations.take past.length :=
      List.prefix_iff_eq_take.mp ((List.prefix_append _ _).trans hp)
    rw [hpast]
    -- nothing is asked of the storage before the client comes back
    interval_cases past.length
    · rfl
    · rfl
    · change ((((c.after [.accept]).publish publish).2.stored).load id).1 =
        ((((b.after [.accept]).publish publish).2.stored).load id).1
      rw [stored_publish, stored_publish]
      rfl
  obtain ⟨hresults, hmemory⟩ := h .allowAll .allowAll operations hl
  refine ⟨hl, ⟨none, ?_⟩, hresults [.accept, .publish publish] bind List.prefix_rfl,
    hmemory operations List.prefix_rfl, ?_, ?_⟩
  · decide +kernel
  · decide +kernel
  · decide +kernel

end Broker
end MqttBroker
