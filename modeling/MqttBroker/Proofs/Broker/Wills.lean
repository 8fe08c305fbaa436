import MqttBroker.Proofs.Broker.Broadcasting
import MqttBroker.Proofs.Broker.Ending
import MqttBroker.Proofs.Broker.Fencing
import MqttBroker.Proofs.Broker.Invariant

/-!
The will of a CONNECT: it is published once if the connection is lost while it has the session of
its client, and else not at all.
-/
namespace MqttBroker.Broker

/-- The event ends a connection abnormally that still has the session of its client. -/
def CutsOff (b : Broker) (k : ConnectionId) (operation : Operation) : Prop :=
  ∃ id session event, operation = .event k event ∧ b.boundSession? id k = some session ∧
    b.EndsAbnormally session.client k event

/-- A client takes its leave, or another's step takes the session from its connection. -/
def Releases (b : Broker) (k : ConnectionId) (id : ClientId) (operation : Operation) : Prop :=
  (∃ event, operation = .event k event ∧ b.TakesLeave k event) ∨
    (∀ event, operation ≠ .event k event) ∧ (b.perform operation).boundSession? id k = none

/-- Every will of a session has a topic that may be published to. -/
def HasValidWills (b : Broker) : Prop :=
  ∀ id session will, b.session? id = some session → session.will = some will →
    b.checkTopicName will.topic = .ok ()

variable {b b' : Broker} {k : ConnectionId} {id : ClientId} {client : ClientInfo}

section steps

/-- What an admission does about wills: the connection now has a session with the will of its
CONNECT, or is lost at once. -/
lemma Joined.wills (hc : b.Consistent) (ho : b.Owned none) (hs : (b.connection k).state = .idle)
    {connect : Connect} {sent unsent : List Publish}
    (hj : Joined b b' k client connect.clean connect.will sent unsent)
    (hd : Opens b b' k (sent ++ unsent) (b.processConnect .quiet k connect)) :
    ((b.processConnect .quiet k connect).2.connection k).clientId = some client.id ∧
      (¬ (b.connection k).transport.FailsWithin ((b.backlog connect.clean client.id).length + 1) ∧
          ((b.processConnect .quiet k connect).2.connection k).fired = (b.connection k).fired ∧
          (∀ id session, (b.processConnect .quiet k connect).2.boundSession? id k = some session →
            session.will = connect.will) ∨
        (b.connection k).transport.FailsWithin ((b.backlog connect.clean client.id).length + 1) ∧
          ((b.processConnect .quiet k connect).2.connection k).fired =
            (b.connection k).fired ++ connect.will.toList ∧
          (b.processConnect .quiet k connect).2.Spent k) := by
  have hc' := hc.joined hs hj
  have ho' := ho.joined hc hs hj
  have hk : k < b'.connections.size := hj.admitted.size ▸ lt_size_of_idle hs
  obtain ⟨bound, hbs, -, hbk, -⟩ := hj.admitted.session
  have hb := boundSession?_eq_some.mpr ⟨hbs, hbk⟩
  have hw := hj.will_eq hbs
  have hfired : (b'.connection k).fired = (b.connection k).fired := by
    rw [hj.wrote.frame]
  have hkept := ((hd.served.still.moves hj.speaksFor).kept k).clientId
  have hspent := (ho.processConnect hc k connect).2 (hc.client_of_idle hs)
  have haccepted := hd.accepted
  have hserved := hd.served
  rw [hj.backlog_eq]
  refine ⟨hkept.trans hj.wrote.kept.clientId, ?_⟩
  clear hd
  generalize b.processConnect .quiet k connect = admission at *
  obtain ⟨result, final⟩ := admission
  dsimp only at *
  cases hr : result.isAccepted with
  | true =>
    rw [hr] at hserved haccepted
    obtain ⟨rfl⟩ | - := hserved
    refine .inl ⟨haccepted.mp rfl, hfired, fun id session hi => ?_⟩
    obtain rfl : client.id = id :=
      Option.some.inj (hj.wrote.kept.clientId.symm.trans (ho'.stake_eq hc' hi).2.1)
    rw [Option.some.inj (hi.symm.trans hb), hw]
  | false =>
    rw [hr] at hserved haccepted
    obtain - | ⟨rfl⟩ := hserved
    refine .inr ⟨by_contra fun hn => (Bool.false_ne_true (haccepted.mpr hn)), ?_, hspent hr⟩
    rw [fired_connectionLost hk, hfired, (ho'.stake_eq hc' hb).2.2, hw]

/-- A session is cut off, and its will published on behalf of the connection that had it. -/
structure Publishes (b b' : Broker) (k : ConnectionId) (operation : Operation) : Prop where
  cut : b.CutsOff k operation
  spent : b'.Spent k
  clientId : (b'.connection k).clientId = (b.connection k).clientId
  fired : ∀ id session, b.boundSession? id k = some session →
    (b'.connection k).fired = (b.connection k).fired ++ session.will.toList

/-- A leave that is taken in time is no abnormal end. -/
lemma TakesLeave.not_cutsOff {event : Event} (h : b.TakesLeave k event) :
    ¬ b.CutsOff k (.event k event) := by
  rintro ⟨id, session, news, he, -, hends⟩
  cases he
  obtain ⟨rfl, ho⟩ := h
  cases hends with
  | shut hs =>
    rw [hs] at ho
    cases ho
  | unexpected hu => exact hu
  | unanswered hf => exact Transport.not_failsWithin_zero hf

/-- Nobody goes on after a leave. -/
lemma TakesLeave.stops {event : Event} (h : b.TakesLeave k event) :
    (b.handle .quiet k event).1 = false := by
  obtain ⟨rfl, ho⟩ := h
  cases hc : (b.connection k).client with
  | none => simp only [Broker.handle, hc, onFirstPacket]
  | some client => rw [handle_of_some hc, if_pos ho, onPacket]

section own
variable (hc : b.Consistent) (ho : b.Owned none)
include hc ho

lemma not_cutsOff_of_client (hn : (b.connection k).client = none) (operation : Operation) :
    ¬ b.CutsOff k operation := by
  rintro ⟨id, session, -, -, hb, -⟩
  rw [(ho.stake_eq hc hb).1] at hn
  cases hn

/-- What a client does about the wills of its own connection. -/
lemma handle_admitted_wills (hcl : (b.connection k).client = some client) {event : Event}
    (he : event = .evicted → (b.connection k).evictionNotice = true) :
    ¬ b.CutsOff k (.event k event) ∧ Silent k b (b.handle .quiet k event).2 ∨
      Publishes b (b.handle .quiet k event).2 k (.event k event) := by
  have hi := (hc.regular k).admitted client hcl
  by_cases hv : event = .evicted
  · subst hv
    refine .inl ⟨?_, .refl b⟩
    rintro ⟨id, session, event, hev, -, hends⟩
    cases hev
    cases hends
  obtain ⟨hl, hd⟩ | ⟨hl, hh⟩ := handle_admitted hcl hv
  · have hends := handle_fst hcl (hc.begun hi) hv hl
    have hspent := (ho.handle hc k he).2
    generalize b.handle .quiet k event = result at hd hends hspent ⊢
    cases hd with
    | goesOn hm =>
      refine .inl ⟨?_, .services hm.services⟩
      rintro ⟨id, session, news, hev, hb, habnormal⟩
      cases hev
      obtain rfl := Option.some.inj ((ho.stake_eq hc hb).1.symm.trans hcl)
      cases hends.mpr habnormal
    | @lost m hm =>
      have hm' := hm.services
      have hk : k < m.connections.size := hm'.moves.size_eq ▸ lt_size_of_clientId hi
      have hfired : ((m.connectionLost k).connection k).fired =
          (b.connection k).fired ++ (b.stake k).toList := by
        rw [fired_connectionLost hk, (Silent.services hm').fired, stake_services hm']
      have hclient : ((m.connectionLost k).connection k).clientId = (b.connection k).clientId :=
        ((connectionLost_moves (m.speaksFor_speaker k)).kept k).clientId.trans
          (Silent.services hm').clientId
      by_cases hb : ∃ id session, b.boundSession? id k = some session
      · obtain ⟨id, session, hb⟩ := hb
        obtain rfl := Option.some.inj ((ho.stake_eq hc hb).1.symm.trans hcl)
        refine .inr ⟨⟨id, session, event, rfl, hb, hends.mp rfl⟩, hspent rfl, hclient, ?_⟩
        intro other found hb'
        rw [hfired, (ho.stake_eq hc hb').2.2]
      · refine .inl ⟨?_, ?_, hclient, (hspent rfl).keepsWills⟩
        · rintro ⟨id, session, -, -, hb', -⟩
          exact hb ⟨id, session, hb'⟩
        · rw [hfired, stake_eq_none fun id session hb' => hb ⟨id, session, hb'⟩]
          exact List.append_nil _
  · rw [hh]
    exact .inl ⟨hl.not_cutsOff, ho.silent_onDisconnect hc hi⟩

end own
section runs
variable {operation : Operation} {operations : List Operation}

lemma not_cutsOff_of_ne (h : ∀ event, operation ≠ .event k event) : ¬ b.CutsOff k operation := by
  rintro ⟨-, -, event, he, -⟩
  exact h event he

section own
variable (hc : b.Consistent) (ho : b.Owned none)
include hc ho

/-- What one step does about the will of a connection: nothing, or it is published at an abnormal
end, or a client is admitted with it. -/
theorem perform_wills (hd : operation.IsDriven b) (k : ConnectionId) :
    ¬ b.CutsOff k operation ∧ Silent k b (b.perform operation) ∨
      Publishes b (b.perform operation) k operation ∨
      Enters b (b.perform operation) k operation := by
  by_cases hk : operation.drives b = some k
  case neg =>
    refine .inl ⟨?_, .perform hc hd hk⟩
    rintro ⟨-, -, event, rfl, -⟩
    exact hk rfl
  cases operation with
  | accept => exact .inl ⟨not_cutsOff_of_ne nofun, .accept b⟩
  | expire id => cases hk
  | fault j fault => exact .inl ⟨not_cutsOff_of_ne nofun, .fault b j fault⟩
  | connect j connect =>
    obtain rfl := Option.some.inj hk
    have hp : (Operation.connect j connect).Presents j connect := .inl rfl
    obtain hr | he := hc.processConnect_enters j hp
    · exact .inl ⟨not_cutsOff_of_ne nofun, .services (hr.services : Services j none b _)⟩
    · exact .inr (.inr he)
  | event j event =>
    obtain rfl := Option.some.inj hk
    cases hcl : (b.connection j).client with
    | none =>
      have hcut := not_cutsOff_of_client hc ho hcl (.event j event)
      obtain rfl | he | ⟨connect, rfl, he⟩ := handle_unadmitted hcl event
      · exact .inl ⟨hcut, .refl b⟩
      · have hs : Services j none b (b.closeConnection j) := .single (.chore .close)
        rw [perform, he, connectionLost_of_client hcl]
        exact .inl ⟨hcut, .services hs⟩
      · rw [perform, he]
        have hp : (Operation.event j (.packet (.connect connect))).Presents j connect := .inr rfl
        obtain hr | he := hc.processConnect_enters j hp
        · exact .inl ⟨hcut, .services (hr.services : Services j none b _)⟩
        · exact .inr (.inr he)
    | some client => exact (handle_admitted_wills hc ho hcl hd).imp_right .inl
  | _ => exact hd.elim

/-- Once a client was admitted on a connection there is no other. -/
lemma perform_admitted_wills (hd : operation.IsDriven b)
    (hi : (b.connection k).clientId = some id) :
    ¬ b.CutsOff k operation ∧ Silent k b (b.perform operation) ∨
      Publishes b (b.perform operation) k operation := by
  obtain hs | hp | ⟨connect, client, sent, unsent, admitted, -, hs, -⟩ :=
    perform_wills hc ho hd k
  · exact .inl hs
  · exact .inr hp
  · rw [hc.clientId_of_idle hs] at hi
    cases hi

/-- A connection that has lost its session is not heard of any more. -/
lemma fired_after_of_unbound (hi : (b.connection k).clientId = some id)
    (hn : b.boundSession? id k = none)
    (ha : b.Allows (fun b operation => operation.IsDriven b) operations) :
    ((b.after operations).connection k).fired = (b.connection k).fired := by
  induction operations generalizing b with
  | nil => rfl
  | cons operation operations ih =>
    obtain ⟨hd, ha⟩ := ha
    obtain ⟨-, hs⟩ | hp := perform_admitted_wills hc ho hd hi
    · have hn' : (b.perform operation).boundSession? id k = none := by
        refine Option.eq_none_iff_forall_ne_some.mpr fun next hb => ?_
        obtain ⟨hnext, hk⟩ := boundSession?_eq_some.mp hb
        obtain ⟨session, hsession, hk, -⟩ := hs.wills id next hnext hk
        rw [boundSession?_eq_some.mpr ⟨hsession, hk⟩] at hn
        cases hn
      exact (ih (hc.perform hd) (ho.perform hc hd) (hs.clientId.trans hi) hn' ha).trans hs.fired
    · obtain ⟨other, session, -, -, hb, -⟩ := hp.cut
      obtain rfl := Option.some.inj (hi.symm.trans (ho.stake_eq hc hb).2.1)
      rw [hn] at hb
      cases hb

end own

/-- A step that lets go of a session publishes nothing, and nothing is published after it. -/
lemma Releases.fired_eq (hc : b.Consistent) (ho : b.Owned none)
    (hi : (b.connection k).clientId = some id)
    (ha : b.Allows (fun b operation => operation.IsDriven b) (operation :: operations))
    (hr : b.Releases k id operation) :
    ((b.after (operation :: operations)).connection k).fired = (b.connection k).fired := by
  obtain ⟨hd, ha⟩ := ha
  have hs : ¬ b.CutsOff k operation := by
    obtain ⟨event, rfl, hl⟩ | ⟨hne, -⟩ := hr
    · exact hl.not_cutsOff
    · exact not_cutsOff_of_ne hne
  obtain ⟨-, hs⟩ := (perform_admitted_wills hc ho hd hi).resolve_right fun hp => hs hp.cut
  have hn : (b.perform operation).boundSession? id k = none := by
    obtain ⟨event, rfl, hl⟩ | ⟨-, hn⟩ := hr
    · exact ((ho.handle hc k hd).2 hl.stops).boundSession?_eq_none id
    · exact hn
  have hf := fired_after_of_unbound (hc.perform hd) (ho.perform hc hd) (hs.clientId.trans hi) hn ha
  exact hf.trans hs.fired

namespace HasValidWills

/-- What is at stake can be published. -/
lemma stake (h : b.HasValidWills) {will : Will} (hw : b.stake k = some will) :
    b.checkTopicName will.topic = .ok () := by
  cases hc : (b.connection k).client with
  | none =>
    rw [Broker.stake, hc] at hw
    cases hw
  | some client =>
    obtain ⟨session, hs, -, hw⟩ := exists_boundSession?_of_stake hc hw
    exact h client.id session will hs hw

/-- A will comes with a CONNECT, which passes only if the will can be published. -/
lemma perform (h : b.HasValidWills) (hc : b.Consistent) (ho : b.Owned none)
    (hd : operation.IsDriven b) : (b.perform operation).HasValidWills := by
  intro id next will hn hw
  rw [checkTopicName, ((upheld_rules b).perform ⟨rfl, rfl⟩ operation).1]
  cases hk : next.connection with
  | none =>
    rw [(ho.perform hc hd).will id next hn hk] at hw
    cases hw
  | some k =>
    obtain ⟨-, hs⟩ | hp | he := perform_wills hc ho hd k
    · obtain ⟨session, hsession, -, he⟩ := hs.wills id next hn hk
      exact h id session will hsession (he ▸ hw)
    · exact absurd hk (hp.spent.unbound id next hn)
    · obtain ⟨connect, client, sent, unsent, admitted, -, hs, hallowed, hj, hopens, he⟩ := he
      rw [he] at hn
      obtain ⟨-, ⟨-, -, hbound⟩ | ⟨-, -, hspent⟩⟩ := hj.wills hc ho hs hopens
      · rw [hbound id next (boundSession?_eq_some.mpr ⟨hn, hk⟩)] at hw
        exact checkTopicName_of_willAllowed hallowed hw
      · exact absurd hk (hspent.unbound id next hn)

lemma of_opened (h : b.Opened) : b.HasValidWills := by
  intro id session will hs
  rw [h.session?] at hs
  cases hs

lemma after (h : b.HasValidWills) (hc : b.Consistent) (ho : b.Owned none)
    (ha : b.Allows (fun b operation => operation.IsDriven b) operations) :
    (b.after operations).HasValidWills := by
  refine (after_induction (P := fun b => (b.Consistent ∧ b.Owned none) ∧ b.HasValidWills) ?_ ha
    ⟨⟨hc, ho⟩, h⟩).2
  rintro b operation hd ⟨⟨hc, ho⟩, hv⟩
  exact ⟨⟨hc.perform hd, ho.perform hc hd⟩, hv.perform hc ho hd⟩

end HasValidWills

/-- A CONNECT whose client enters. -/
lemma Enters.wills (hc : b.Consistent) (ho : b.Owned none) (he : Enters b b' k operation)
    {connect : Connect} (hp : operation.Presents k connect)
    (hi : (b'.connection k).clientId = some id) :
    ¬ (b.connection k).transport.FailsWithin ((b.backlog connect.clean id).length + 1) ∧
        (b'.connection k).fired = (b.connection k).fired ∧
        (∀ id session, b'.boundSession? id k = some session → session.will = connect.will) ∨
      (b.connection k).transport.FailsWithin ((b.backlog connect.clean id).length + 1) ∧
        (b'.connection k).fired = (b.connection k).fired ++ connect.will.toList ∧ b'.Spent k := by
  obtain ⟨other, client, sent, unsent, admitted, hp', hs, -, hj, hopens, rfl⟩ := he
  obtain rfl := presents_inj hp hp'
  obtain ⟨hclient, hwills⟩ := hj.wills hc ho hs hopens
  obtain rfl := Option.some.inj (hi.symm.trans hclient)
  exact hwills

/-- The session that an entering client leaves with its connection has the will of its CONNECT. -/
lemma Enters.will_eq (hc : b.Consistent) (ho : b.Owned none) (he : Enters b b' k operation)
    {connect : Connect} (hp : operation.Presents k connect)
    (hi : (b'.connection k).clientId = some id) (other : ClientId) (session : Session)
    (hb : b'.boundSession? other k = some session) : session.will = connect.will := by
  obtain ⟨-, -, hw⟩ | ⟨-, -, hspent⟩ := he.wills hc ho hp hi
  · exact hw other session hb
  · rw [hspent.boundSession?_eq_none] at hb
    cases hb

section airs
variable (hc : b.Consistent) (ho : b.Owned none) (hm : b.Mirrored) (hv : b.HasValidWills)
include hc ho hm hv

/-- What is noted on the connection that a step drives is what the step has published. -/
lemma airs_of_fired (hd : operation.IsDriven b) (hk : operation.drives b = some k)
    {wills : List Will}
    (hf : ((b.perform operation).connection k).fired = (b.connection k).fired ++ wills) :
    b.Airs operation wills := by
  obtain ⟨aired, ha, hj⟩ := perform_airs hc ho hm hd fun _ _ => hv.stake
  have he := hj k
  rw [if_pos hk, hf] at he
  exact List.append_cancel_left he ▸ ha

/-- An entering client's will is published if the connection is lost at once. -/
lemma Enters.airs (hd : operation.IsDriven b) (he : Enters b (b.perform operation) k operation)
    {connect : Connect} (hp : operation.Presents k connect)
    (hi : ((b.perform operation).connection k).clientId = some id) :
    ((b.connection k).transport.FailsWithin ((b.backlog connect.clean id).length + 1) →
        b.Airs operation connect.will.toList) ∧
      (¬ (b.connection k).transport.FailsWithin ((b.backlog connect.clean id).length + 1) →
        b.Airs operation []) := by
  have hk : operation.drives b = some k := by obtain rfl | rfl := hp <;> rfl
  obtain ⟨hopen, hfired, -⟩ | ⟨hlost, hfired, -⟩ := he.wills hc ho hp hi
  · refine ⟨fun hlost => absurd hlost hopen, fun _ => airs_of_fired hc ho hm hv hd hk ?_⟩
    rw [hfired, List.append_nil]
  · exact ⟨fun _ => airs_of_fired hc ho hm hv hd hk hfired, fun hopen => absurd hlost hopen⟩

end airs

end runs
end steps
end MqttBroker.Broker
