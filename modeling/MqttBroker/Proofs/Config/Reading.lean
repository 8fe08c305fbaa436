import Mathlib.Tactic.Common
import MqttBroker.Config.Reading

/-!
What the readers of the sections ask of the parts that they find, whatever counts as a truth value,
a number or a text.
-/
namespace MqttBroker.Config.Scalars
open Toml

variable {s : Scalars} {v : Value}

lemma log_eq_some {log : LogConfig} : s.log v = some log ↔ ∃ part, parts? v = some part ∧
    orElse "info" s.text (part 0 "level") = some log.level := by
  obtain ⟨level⟩ := log
  simp [Scalars.log, Option.bind_eq_some_iff]

lemma admission_eq_some {admission : AdmissionConfig} : s.admission v = some admission ↔
    ∃ part, parts? v = some part ∧
      orElse true s.bool (part 0 "allow_anonymous") = some admission.allowAnonymous ∧
      orElse true s.bool (part 1 "allow_zero_byte_client_id") =
        some admission.allowZeroByteClientId ∧
      orElse false s.bool (part 2 "reauthorize_subscriptions_on_connect") =
        some admission.reauthorizeSubscriptionsOnConnect := by
  obtain ⟨anonymous, zeroByte, reauthorize⟩ := admission
  simp [Scalars.admission, Option.bind_eq_some_iff, -Bool.exists_bool]

lemma user_eq_some {user : UserConfig} : s.user v = some user ↔
    ∃ part, parts? v = some part ∧ ∃ username, part 0 "username" = some username ∧
      s.text username = some user.username ∧
      s.optionalText (part 1 "password") = some user.password ∧
      s.optionalText (part 2 "password_hash") = some user.passwordHash ∧
      s.optionalText (part 3 "role") = some user.role := by
  obtain ⟨username, password, hash, role⟩ := user
  simp [Scalars.user, Option.bind_eq_some_iff]

lemma auth_eq_some {auth : AuthConfig} : s.auth v = some auth ↔
    ∃ part, parts? v = some part ∧
      orElse false s.bool (part 0 "enabled") = some auth.enabled ∧
      s.texts (part 1 "client_ids") = some auth.clientIds ∧
      orElse [] (listOf s.user) (part 2 "users") = some auth.users := by
  obtain ⟨enabled, clientIds, users⟩ := auth
  simp [Scalars.auth, Option.bind_eq_some_iff, -Bool.exists_bool]

lemma permissions_eq_some {permissions : Permissions} : s.permissions v = some permissions ↔
    ∃ part, parts? v = some part ∧ s.texts (part 0 "publish") = some permissions.publish ∧
      s.texts (part 1 "subscribe") = some permissions.subscribe := by
  obtain ⟨publish, subscribe⟩ := permissions
  simp [Scalars.permissions, Option.bind_eq_some_iff]

lemma role_eq_some {role : RoleConfig} : s.role v = some role ↔
    ∃ part, parts? v = some part ∧ ∃ name, part 0 "name" = some name ∧
      s.text name = some role.name ∧
      s.texts (part 1 "publish") = some role.permissions.publish ∧
      s.texts (part 2 "subscribe") = some role.permissions.subscribe := by
  obtain ⟨name, publish, subscribe⟩ := role
  simp [Scalars.role, Option.bind_eq_some_iff]

lemma acl_eq_some {acl : AclConfig} : s.acl v = some acl ↔
    ∃ part, parts? v = some part ∧
      orElse false s.bool (part 0 "enabled") = some acl.enabled ∧
      orElse [] (listOf s.role) (part 1 "roles") = some acl.roles ∧
      orElse {} s.permissions (part 2 "default") = some acl.default ∧
      orElse {} s.permissions (part 3 "anonymous") = some acl.anonymous := by
  obtain ⟨enabled, roles, default, anonymous⟩ := acl
  simp [Scalars.acl, Option.bind_eq_some_iff, -Bool.exists_bool]

lemma mqtt_eq_some {mqtt : MqttConfig} : s.mqtt v = some mqtt ↔
    ∃ part, parts? v = some part ∧
      orElse 2 (s.natural maxByte) (part 0 "max_qos") = some mqtt.maxQos ∧
      orElse 4096 (s.natural maxWord) (part 1 "max_topic_length") = some mqtt.maxTopicLength ∧
      orElse 32 (s.natural maxWord) (part 2 "max_topic_levels") = some mqtt.maxTopicLevels := by
  obtain ⟨maxQos, maxTopicLength, maxTopicLevels⟩ := mqtt
  simp [Scalars.mqtt, Option.bind_eq_some_iff]

lemma session_eq_some {session : SessionConfig} : s.session v = some session ↔
    ∃ part, parts? v = some part ∧
      orElse 1000 (s.natural maxWord) (part 0 "max_queued_messages") =
        some session.maxQueuedMessages := by
  obtain ⟨maxQueuedMessages⟩ := session
  simp [Scalars.session, Option.bind_eq_some_iff]

lemma persistence_eq_some {persistence : PersistenceConfig} :
    s.persistence v = some persistence ↔ ∃ part, parts? v = some part ∧
      orElse false s.bool (part 0 "enabled") = some persistence.enabled ∧
      orElse "./data" s.text (part 1 "path") = some persistence.path := by
  obtain ⟨enabled, path⟩ := persistence
  simp [Scalars.persistence, Option.bind_eq_some_iff, -Bool.exists_bool]

lemma config_eq_some {config : Config} : s.config v = some config ↔
    ∃ part, parts? v = some part ∧ orElse {} s.log (part 0 "log") = some config.log ∧
      orElse {} s.admission (part 1 "admission") = some config.admission ∧
      orElse {} s.auth (part 2 "auth") = some config.auth ∧
      orElse {} s.acl (part 3 "acl") = some config.acl ∧
      orElse {} s.mqtt (part 4 "mqtt") = some config.mqtt ∧
      orElse {} s.session (part 5 "session") = some config.session ∧
      orElse {} s.persistence (part 6 "persistence") = some config.persistence := by
  obtain ⟨log, admission, auth, acl, mqtt, session, persistence⟩ := config
  simp [Scalars.config, Option.bind_eq_some_iff]

end MqttBroker.Config.Scalars
