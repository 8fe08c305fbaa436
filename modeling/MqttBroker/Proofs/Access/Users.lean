import MqttBroker.Access.StaticUsers
import Mathlib.Data.List.Basic

/-!
What the list of users says about a user name and a password, whatever check of hashes is used.
-/
namespace MqttBroker.StaticUsers

/-- The user list has the entry for a name, and no later one for the same name. -/
structure Decides (users : List UserConfig) (user : UserConfig) (username : String) : Prop where
  named : user.username = username
  last : ∃ earlier later, users = earlier ++ user :: later ∧
    ∀ other ∈ later, other.username ≠ username

/-- The password is the one of the entry.  As soon as the entry has a hash, its plain password does
not count. -/
inductive Proves (check : HashCheck) (user : UserConfig) (password : Bytes) : Prop
  | hashed {hash : String} (hh : user.passwordHash = some hash) (hc : check hash password = true)
  | plain {text : String} (hh : user.passwordHash = none) (hp : user.password = some text)
    (he : text.toUTF8.toList = password)

/-- The user list vouches for a client that brings the name and the password of an entry. -/
structure Vouches (check : HashCheck) (config : AuthConfig) (id : ClientId) (username : String)
    (password : Bytes) (user : UserConfig) : Prop where
  listed : config.clientIds = [] ∨ id ∈ config.clientIds
  decides : Decides config.users user username
  proves : Proves check user password

variable {check : HashCheck} {config : AuthConfig} {id : ClientId} {username : String}
  {password : Bytes} {user : UserConfig} {role : Option String}

lemma user?_eq_some_iff :
    user? config username = some user ↔ Decides config.users user username := by
  rw [user?, List.find?_eq_some_iff_append]
  constructor
  · rintro ⟨hn, before, after, he, hb⟩
    refine ⟨by simpa using hn, after.reverse, before.reverse, ?_, fun other ho => ?_⟩
    · rw [← List.reverse_reverse config.users, he]
      simp
    · simpa using hb other (List.mem_reverse.mp ho)
  · rintro ⟨hn, earlier, later, he, hl⟩
    refine ⟨by simpa using hn, later.reverse, earlier.reverse, by simp [he], fun other ho => ?_⟩
    simpa using hl other (List.mem_reverse.mp ho)

lemma accepts_iff : accepts check user password = true ↔ Proves check user password := by
  unfold accepts
  constructor
  · intro h
    split at h
    next hash hh => exact .hashed hh h
    next text hh hp => exact .plain hh hp (by simpa using h)
    next => cases h
  · rintro (⟨hh, hc⟩ | ⟨hh, hp, he⟩)
    · rw [hh]
      exact hc
    · rw [hh, hp]
      simpa using he

lemma admitsId_iff : admitsId config id = true ↔ config.clientIds = [] ∨ id ∈ config.clientIds := by
  simp [admitsId]

/-- Credentials are accepted exactly if an entry of the user list vouches for them, and it gives the
role. -/
theorem authenticate_allow_iff :
    authenticate check config ⟨id, some username, some password⟩ = (.allow, role) ↔
      ∃ user, Vouches check config id username password user ∧ user.role = role := by
  unfold authenticate
  by_cases hi : admitsId config id = true
  · rw [hi]
    have hl := admitsId_iff.mp hi
    cases hu : user? config username with
    | none =>
      simp only [Bool.not_true, Bool.false_eq_true, if_false, hu]
      refine iff_of_false (by simp) ?_
      rintro ⟨user, hv, -⟩
      rw [user?_eq_some_iff.mpr hv.decides] at hu
      cases hu
    | some user =>
      have hd := user?_eq_some_iff.mp hu
      simp only [Bool.not_true, Bool.false_eq_true, if_false, hu]
      constructor
      · intro h
        split at h
        next hp => exact ⟨user, ⟨hl, hd, accepts_iff.mp hp⟩, congrArg Prod.snd h⟩
        next => cases h
      · rintro ⟨other, hv, hr⟩
        obtain rfl : user = other :=
          Option.some.inj (hu.symm.trans (user?_eq_some_iff.mpr hv.decides))
        rw [if_pos (accepts_iff.mpr hv.proves), hr]
  · rw [if_pos (by simpa using hi)]
    refine iff_of_false (by simp) ?_
    rintro ⟨user, hv, -⟩
    exact hi (admitsId_iff.mpr hv.listed)

end MqttBroker.StaticUsers
