import MqttBroker.Proofs.Access.Users
import MqttBroker.Proofs.Broker.Invariant
import MqttBroker.Proofs.Broker.SingleOwner

/-!
Who a session belongs to: the identity that the CONNECT of its connection was admitted under.
-/
namespace MqttBroker.Broker
open StaticUsers

/-- A CONNECT that gives neither name nor password may be admitted as anonymous, if that is allowed
at all; with both it is admitted as the user whose entry vouches for it. -/
inductive Entitles (check : HashCheck) (config : Config) (connect : Connect)
    (client : ClientInfo) : Prop
  | anonymous (ha : config.admission.allowAnonymous = true) (hu : connect.username = none)
    (hp : connect.password = none) (he : client = .anonymous client.id)
  | user {username : String} {password : Bytes} {user : UserConfig}
    (hu : connect.username = some username) (hp : connect.password = some password)
    (hv : Vouches check config.auth client.id username password user)
    (he : client = .authenticated client.id (some username) user.role)

variable {b b' : Broker} {k : ConnectionId} {id : ClientId} {client : ClientInfo}
  {connect : Connect} {operation : Operation} {operations : List Operation} {check : HashCheck}

lemma upheld_vouching (b : Broker) :
    Upheld fun b' => b'.config = b.config ∧ b'.authenticator = b.authenticator :=
  upheld_of_rules fun config _ authenticator =>
    config = b.config ∧ authenticator = b.authenticator

lemma isAnonymous_iff : connect.isAnonymous = true ↔
    connect.username = none ∧ connect.password = none := by
  simp [Connect.isAnonymous]

/-- Users are the only ones that are let in with a name. -/
lemma entitles_of_authenticate (he : b.config.auth.enabled = true)
    (ha : b.authenticator = authenticatorWith check b.config.auth)
    (h : (b.authenticate .quiet connect id).1 = .ok client) :
    Entitles check b.config connect client := by
  have hid : client.id = id := (b.authenticate_quiet connect id).2.1 client h
  unfold Broker.authenticate at h
  split at h
  next hn =>
    obtain ⟨hu, hp⟩ := isAnonymous_iff.mp hn
    split at h <;> cases h
    next hallow => exact .anonymous hallow hu hp rfl
  next =>
    split at h
    next username password hu hp =>
      have hask : (b.askAuthenticator .quiet ⟨id, some username, some password⟩).1 =
          StaticUsers.authenticate check b.config.auth ⟨id, some username, some password⟩ := by
        change b.authenticator _ = _
        rw [ha, authenticatorWith, if_pos he]
      generalize b.askAuthenticator .quiet ⟨id, some username, some password⟩ = result at h hask
      obtain ⟨⟨verdict, role⟩, b'⟩ := result
      dsimp only at h hask
      split at h
      · obtain ⟨user, hv, rfl⟩ := authenticate_allow_iff.mp hask.symm
        cases h
        exact .user hu hp hv rfl
      · cases h
      · cases h
    next => cases h

/-- Whoever is admitted on a connection was so before, or is admitted by the CONNECT. -/
lemma Consistent.client_processConnect (hc : b.Consistent) {j : ConnectionId}
    (h : ((b.processConnect .quiet j connect).2.connection k).client = some client) :
    (b.connection k).client = some client ∨ j = k ∧ (b.connection k).state = .idle ∧
      (b.authenticate .quiet connect client.id).1 = .ok client := by
  obtain ⟨answer, ht, -⟩ | ⟨admitted, outcome, bound, sent, unsent, b', hb, -, hj, ho, -⟩ :=
    b.admission_outcome j connect (hc.regular j).held hc.clientId_of_idle
  · exact .inl ((ht.refused.services.moves.kept k).client client h)
  · have h := ((ho.served.still.moves hj.speaksFor).kept k).client client h
    by_cases hjk : j = k
    · subst hjk
      rw [hj.wrote.steady.sameClient] at h
      obtain rfl : admitted = client := Option.some.inj h
      exact .inr ⟨rfl, hb.idle, hb.authenticated⟩
    · obtain he | he := hj.admitted.others_cases hjk <;> rw [he] at h <;> exact .inl h

/-- Actors admit nobody but by the first CONNECT of their connection. -/
lemma Consistent.client_perform (hc : b.Consistent) (hd : operation.IsDriven b)
    (h : ((b.perform operation).connection k).client = some client) :
    (b.connection k).client = some client ∨ ∃ connect, operation.Presents k connect ∧
      (b.connection k).state = .idle ∧
      (b.authenticate .quiet connect client.id).1 = .ok client := by
  cases operation with
  | accept =>
    change ((b.accept.2).connection k).client = some client at h
    rw [connection_accept] at h
    split at h
    · cases h
    · exact .inl h
  | fault j fault =>
    have hk : (b.connection k).Kept ((b.perform (.fault j fault)).connection k) :=
      modifyConnection_rel .refl (Connection.onward_suffer fault _).toKept k
    exact .inl (hk.client client h)
  | expire other =>
    have hk : (b.connection k).Kept ((b.expire other).2.connection k) := by
      refine expire_induction (P := fun b' => (b.connection k).Kept (b'.connection k))
        (.refl _) other (fun j => ?_) fun b' session h _ _ => ?_
      · exact modifyConnection_rel .refl (Connection.steady_close _).toKept k
      · rwa [connection_teardown]
    exact .inl (hk.client client h)
  | connect j connect =>
    obtain ho | ⟨rfl, hs, ha⟩ := hc.client_processConnect h
    · exact .inl ho
    · exact .inr ⟨connect, .inl rfl, hs, ha⟩
  | event j event =>
    obtain hm | ⟨connect, rfl, -, he⟩ := b.handle_moves j event
    · exact .inl ((hm.kept k).client client h)
    · change ((b.handle .quiet j (.packet (.connect connect))).2.connection k).client = _ at h
      rw [he] at h
      obtain ho | ⟨rfl, hs, ha⟩ := hc.client_processConnect h
      · exact .inl ho
      · exact .inr ⟨connect, .inr rfl, hs, ha⟩
  | _ => exact hd.elim

/-- In every run of the actors, whoever is admitted on a connection was admitted by a CONNECT. -/
lemma Consistent.client_after (hc : b.Consistent)
    (ha : b.Allows (fun b operation => operation.IsDriven b) operations)
    (hn : (b.connection k).client = none)
    (h : ((b.after operations).connection k).client = some client) :
    ∃ past operation rest connect, operations = past ++ operation :: rest ∧
      operation.Presents k connect ∧ ((b.after past).connection k).state = .idle ∧
      ((b.after (past ++ [operation])).connection k).client = some client ∧
      ((b.after past).authenticate .quiet connect client.id).1 = .ok client := by
  induction operations using List.reverseRecOn with
  | nil =>
    change (b.connection k).client = some client at h
    rw [hn] at h
    cases h
  | append_singleton operations operation ih =>
    obtain ⟨hbefore, hlast, -⟩ := allows_append.mp ha
    have hperform : b.after (operations ++ [operation]) = (b.after operations).perform operation :=
      after_append operations [operation]
    have hc' : (b.after operations).Consistent :=
      after_induction (P := Consistent) (fun _ _ hd hc => hc.perform hd) hbefore hc
    obtain hold | ⟨connect, hp, hs, hauth⟩ := hc'.client_perform hlast (hperform ▸ h)
    · obtain ⟨past, first, rest, connect, rfl, hfirst⟩ := ih hbefore hold
      exact ⟨past, first, rest ++ [operation], connect, by simp, hfirst⟩
    · exact ⟨operations, operation, [], connect, rfl, hp, hs, h, hauth⟩

/-- In every run in which connections are driven by their actors, under the configured users and
whatever check of hashes is used, a session that is bound to a connection belongs to the client of
its identifier that the first CONNECT of the connection was admitted for: as anonymous, which is
allowed then and takes a CONNECT with neither name nor password; or with the name and the password
of a user, by the last entry for the name, which gives the role, under an identifier that may
connect. -/
theorem sessions_belong_to_admitted_identities (h : b.Opened)
    (he : b.config.auth.enabled = true)
    (hu : b.authenticator = authenticatorWith check b.config.auth)
    (ha : b.Allows (fun b operation => operation.IsDriven b) operations) {session : Session}
    (hs : (b.after operations).session? id = some session) (hk : session.connection = some k) :
    session.client.id = id ∧ ∃ past operation rest connect, operations = past ++ operation :: rest ∧
      operation.Presents k connect ∧ ((b.after past).connection k).state = .idle ∧
      ((b.after (past ++ [operation])).connection k).client = some session.client ∧
      Entitles check b.config connect session.client := by
  obtain ⟨hc, ho⟩ := h.owned ha
  have hclient : ((b.after operations).connection k).client = some session.client :=
    (ho.admitted id session k hs hk).2.resolve_left nofun
  have hid : some session.client.id = some id :=
    ((hc.regular k).admitted session.client hclient).symm.trans (hc.bound id session k hs hk)
  have hn : (b.connection k).client = none := by
    rw [h.connection]
    rfl
  obtain ⟨past, operation, rest, connect, rfl, hp, hidle, hadmitted, hauth⟩ :=
    (Consistent.of_opened h).client_after ha hn hclient
  have hsame : (b.after past).config = b.config ∧
      (b.after past).authenticator = b.authenticator := (upheld_vouching b).after ⟨rfl, rfl⟩ past
  have hentitles : Entitles check (b.after past).config connect session.client :=
    entitles_of_authenticate (by rw [hsame.1, he]) (by rw [hsame.1, hsame.2, hu]) hauth
  exact ⟨Option.some.inj hid, past, operation, rest, connect, rfl, hp, hidle, hadmitted,
    hsame.1 ▸ hentitles⟩

/-- A user takes over the session of an anonymous client; its name is listed twice, first with a
hash that is none. -/
theorem sessions_belong_to_admitted_identities_takeover :
    let users : List UserConfig := [{ username := "u", passwordHash := some "$", role := some "r" },
      { username := "u", password := some "pw", role := some "s" }]
    let config : Config := { auth := { enabled := true, clientIds := ["c"], users } }
    let b := { lenient config .empty with authenticator := StaticUsers.authenticator config.auth }
    let operations : List Operation := [.accept, .accept,
      .connect 0 ⟨"MQTT", 4, false, "c", none, none, none⟩,
      .connect 1 ⟨"MQTT", 4, false, "c", none, some "u", some [112, 119]⟩]
    b.Opened ∧ b.Allows (fun b operation => operation.IsDriven b) operations ∧
      ∃ session connect, (b.after operations).session? "c" = some session ∧
        session.connection = some 1 ∧ session.client = ⟨"c", some "u", some "s", false⟩ ∧
        (∃ operation ∈ operations, operation.Presents 1 connect) ∧
        Entitles Password.Phc.verify config connect session.client := by
  intro users config b operations
  have hb : b.Opened := ⟨.empty, .empty, _, _, rfl, rfl⟩
  have ha : b.Allows (fun b operation => operation.IsDriven b) operations :=
    ⟨trivial, trivial, trivial, trivial, trivial⟩
  have hf : ((b.after operations).session? "c").map
      (fun session => (session.connection, session.client)) =
        some (some 1, ⟨"c", some "u", some "s", false⟩) := by decide +kernel
  obtain ⟨session, hs, he⟩ := Option.map_eq_some_iff.mp hf
  obtain ⟨hk, hc⟩ := Prod.mk.inj he
  obtain ⟨-, past, operation, rest, connect, ho, hp, -, -, hentitles⟩ :=
    sessions_belong_to_admitted_identities hb rfl rfl ha hs hk
  exact ⟨hb, ha, session, connect, hs, hk, hc, ⟨operation, by simp [ho], hp⟩, hentitles⟩

end MqttBroker.Broker
