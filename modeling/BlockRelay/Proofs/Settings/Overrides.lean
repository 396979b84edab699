import BlockRelay.Settings.Environment
import BlockRelay.Proofs.Beacon.Answers
import BlockRelay.Proofs.Settings.Lists

/-!
# What the environment overrides

Every variable has a field of its own (`SettingsVariable.get?`, `SettingsVariable.put`) and texts
that are acceptable for it (`SettingsVariable.Means`). Settings are overridden step by step, but the
steps do not get in each other's way: the section of the database is created if need be, and then
every variable writes its own field (`override_eq_write`). So a field has the value that its
variable states, or else the value that it had (`get?_override`), and without the variable no other
field changes (`agree_override_without`).

The one exception is `DATABASE_URL`, which creates the section of the database where there is none.
Nothing else depends on it then (`override_without_url`), and `DB_TABLE_PREFIX` has a field to write
to if and only if there is a section in the end (`get?_opened_ne_none_iff`).
-/

namespace BlockRelay

/-- The environment without a variable. -/
def Environment.without (env : Environment) (name : String) : Environment :=
  fun n => if n = name then none else env n

/-- The variables that override settings. -/
inductive SettingsVariable where
  | network
  | endpoints
  | backend
  | redisUrl
  | payloadTtl
  | registryMode
  | databaseUrl
  | tablePrefix
deriving DecidableEq, Repr

namespace SettingsVariable

/-- The name of a variable. -/
def name : SettingsVariable → String
  | .network => "RELAY_NETWORK"
  | .endpoints => "RELAY_BEACON_ENDPOINTS"
  | .backend => "RELAY_STORE_BACKEND"
  | .redisUrl => "RELAY_REDIS_URL"
  | .payloadTtl => "RELAY_PAYLOAD_TTL_SECONDS"
  | .registryMode => "RELAY_REGISTRY_MODE"
  | .databaseUrl => "DATABASE_URL"
  | .tablePrefix => "DB_TABLE_PREFIX"

/-- What the field of a variable holds. -/
abbrev Value : SettingsVariable → Type
  | .endpoints => List String
  | .backend => StoreBackend
  | .payloadTtl => UInt64
  | .registryMode => RegistryMode
  | .network | .redisUrl | .databaseUrl | .tablePrefix => String

/-- The field of a variable. Those of the database may not be there. -/
def get? : (x : SettingsVariable) → Settings → Option x.Value
  | .network, s => some s.network
  | .endpoints, s => some s.beacon.endpoints
  | .backend, s => some s.store.backend
  | .redisUrl, s => some s.store.redisUrl
  | .payloadTtl, s => some s.store.payloadTtlSeconds
  | .registryMode, s => some s.registry.mode
  | .databaseUrl, s => s.database.map (·.url)
  | .tablePrefix, s => s.database.map (·.tablePrefix)

/-- Writes the field of a variable, if it is there, and nothing else. -/
def put : (x : SettingsVariable) → x.Value → Settings → Settings
  | .network, v, s => { s with network := v }
  | .endpoints, v, s => { s with beacon := { s.beacon with endpoints := v } }
  | .backend, v, s => { s with store := { s.store with backend := v } }
  | .redisUrl, v, s => { s with store := { s.store with redisUrl := v } }
  | .payloadTtl, v, s => { s with store := { s.store with payloadTtlSeconds := v } }
  | .registryMode, v, s => { s with registry := { s.registry with mode := v } }
  | .databaseUrl, v, s => { s with database := s.database.map fun db => { db with url := v } }
  | .tablePrefix, v, s =>
    { s with database := s.database.map fun db => { db with tablePrefix := v } }

/-- **Settings that agree in every field but that of a variable:** with the same value in it they
are the same. -/
def Agree (x : SettingsVariable) (s t : Settings) : Prop := ∀ v, x.put v s = x.put v t

/-- **What an acceptable text stands for.** Blanks at the ends and the casing of names do not count;
a number of seconds has 64 bits and may have a plus sign in front. -/
def Means : (x : SettingsVariable) → String → x.Value → Prop
  | .endpoints, given, v => textList given = v ∧ v ≠ []
  | .backend, given, v => lowerCase (Text.trim given) = v.name
  | .payloadTtl, given, v => ListedValidator.SpellsIndex (Text.trim given) v
  | .registryMode, given, v => lowerCase (Text.trim given) = v.name
  | .network, given, v => Text.trim given = v ∧ v ≠ ""
  | .redisUrl, given, v => Text.trim given = v ∧ v ≠ ""
  | .databaseUrl, given, v => Text.trim given = v ∧ v ≠ ""
  | .tablePrefix, given, v => Text.trim given = v ∧ v ≠ ""

/-! ### Fields -/

section Fields

variable {x y : SettingsVariable} {v w : x.Value} {s t : Settings}

theorem get?_put_self (x : SettingsVariable) (v : x.Value) (s : Settings) :
    x.get? (x.put v s) = (x.get? s).map fun _ => v := by
  -- two of the fields are in a section that may be missing
  obtain ⟨_, _, _, _, _ | _, _, _⟩ := s <;> cases x <;> rfl

theorem get?_put_of_ne (h : y ≠ x) : y.get? (x.put v s) = y.get? s := by
  obtain ⟨_, _, _, _, _ | _, _, _⟩ := s <;> cases x <;> cases y <;>
    first | rfl | exact absurd rfl h

theorem put_put (x : SettingsVariable) (v w : x.Value) (s : Settings) :
    x.put v (x.put w s) = x.put v s := by
  obtain ⟨_, _, _, _, _ | _, _, _⟩ := s <;> cases x <;> rfl

theorem put_comm (h : y ≠ x) (v : x.Value) (w : y.Value) (s : Settings) :
    x.put v (y.put w s) = y.put w (x.put v s) := by
  obtain ⟨_, _, _, _, _ | _, _, _⟩ := s <;> cases x <;> cases y <;>
    first | rfl | exact absurd rfl h

/-- Nothing is written where the value is there, or the field is not. -/
theorem put_eq_self (h : ∀ w, x.get? s = some w → w = v) : x.put v s = s := by
  obtain ⟨_, _, _, _, _ | _, _, _⟩ := s <;> cases x <;> first | rfl | rw [← h _ rfl]; rfl

/-- Writes the field of a variable, if there is anything to write. -/
def update (x : SettingsVariable) (o : Option x.Value) (s : Settings) : Settings :=
  o.elim s fun v => x.put v s

theorem get?_update_self (x : SettingsVariable) (o : Option x.Value) (s : Settings) :
    x.get? (x.update o s) = (x.get? s).map o.getD := by
  cases o with
  | none => exact Option.map_id'.symm
  | some v => exact get?_put_self x v s

theorem get?_update_of_ne (h : y ≠ x) (o : Option x.Value) (s : Settings) :
    y.get? (x.update o s) = y.get? s := by
  cases o with
  | none => rfl
  | some v => exact get?_put_of_ne h

/-- An update with the value that is there changes nothing. -/
theorem update_eq_self {o : Option x.Value} (h : ∀ w, x.get? s = some w → o.getD w = w) :
    x.update o s = s := by
  cases o with
  | none => rfl
  | some v => exact put_eq_self fun w field => (h w field).symm

/-- What a variable writes makes no difference to the other fields. -/
theorem Agree.update_self (h : x.Agree s t) (o o' : Option x.Value) :
    x.Agree (x.update o s) (x.update o' t) := by
  have kept (o : Option x.Value) (v : x.Value) (s : Settings) :
      x.put v (x.update o s) = x.put v s := by
    cases o with
    | none => rfl
    | some w => exact put_put x v w s
  intro v
  rw [kept, kept, h v]

/-- Settings that agree in every other field are the same if the field is missing in both. -/
theorem Agree.eq_of_none (v : x.Value) (h : x.Agree s t) (hs : x.get? s = none)
    (ht : x.get? t = none) : s = t := by
  have whole {s : Settings} (hs : x.get? s = none) : x.put v s = s :=
    put_eq_self fun w field => by rw [hs] at field; cases field
  rw [← whole hs, h v, whole ht]

/-- Settings still agree when the same is written to another field. -/
theorem Agree.update_of_ne (h : x.Agree s t) (other : y ≠ x) (o : Option y.Value) :
    x.Agree (y.update o s) (y.update o t) := by
  cases o with
  | none => exact h
  | some w =>
    intro v
    change x.put v (y.put w s) = x.put v (y.put w t)
    rw [put_comm other, put_comm other, h v]

end Fields

/-! ### Reading a variable -/

/-- A text between blanks, unless it is blank. -/
def nonblank? (given : String) : Option String := Option.guard (· ≠ "") (Text.trim given)

/-- The value that an acceptable text stands for. -/
def meaning? : (x : SettingsVariable) → String → Option x.Value
  | .endpoints, given => Option.guard (· ≠ []) (textList given)
  | .backend, given => (nonblank? given).bind fun v => StoreBackend.ofName? (lowerCase v)
  | .payloadTtl, given => (nonblank? given).bind fun v => Text.Decimal.toUInt64? v.toList
  | .registryMode, given => (nonblank? given).bind fun v => RegistryMode.ofName? (lowerCase v)
  | .network, given => nonblank? given
  | .redisUrl, given => nonblank? given
  | .databaseUrl, given => nonblank? given
  | .tablePrefix, given => nonblank? given

variable {x y : SettingsVariable} {given : String}

/-- A value is kept if it is not the empty one. -/
theorem guard_ne_eq_some_iff {α : Type} [DecidableEq α] {empty a b : α} :
    Option.guard (· ≠ empty) a = some b ↔ a = b ∧ b ≠ empty := by
  rw [Option.guard_eq_some_iff, decide_eq_true_iff]
  exact and_congr_right fun same => same ▸ Iff.rfl

/-- A reader that takes no empty text can do without the test for blank texts. -/
theorem bind_nonblank?_eq_some_iff {α : Type} {f : String → Option α} {v : α} (hf : f "" = none) :
    (nonblank? given).bind f = some v ↔ f (Text.trim given) = some v := by
  unfold nonblank? Option.guard
  split
  · rfl
  · next blank =>
    have blank : Text.trim given = "" := by simpa using blank
    rw [blank, hf, Option.bind_none]

/-- A store is named by its own name only. -/
theorem backend_ofName?_eq_some_iff {s : String} {b : StoreBackend} :
    StoreBackend.ofName? s = some b ↔ s = b.name := by
  constructor
  · intro h
    unfold StoreBackend.ofName? at h
    -- the names are tried in turn
    split at h
    · next memory => cases h; exact memory
    · split at h
      · next redis => cases h; exact redis
      · cases h
  · rintro rfl
    exact StoreBackend.ofName?_name b

theorem mode_ofName?_eq_some_iff {s : String} {m : RegistryMode} :
    RegistryMode.ofName? s = some m ↔ s = m.name := by
  constructor
  · intro h
    unfold RegistryMode.ofName? at h
    split at h
    · next beacon => cases h; exact beacon
    · split at h
      · next null => cases h; exact null
      · cases h
  · rintro rfl
    exact RegistryMode.ofName?_name m

/-- The reader of each variable gives what the text means, as the variable's kind has it. -/
theorem meaning?_eq_some_iff {v : x.Value} : x.meaning? given = some v ↔ x.Means given v := by
  -- a text, a name or a number: the blank ones have been ruled out before
  cases x with
  | network => exact guard_ne_eq_some_iff
  | endpoints => exact guard_ne_eq_some_iff
  | backend => exact (bind_nonblank?_eq_some_iff rfl).trans backend_ofName?_eq_some_iff
  | redisUrl => exact guard_ne_eq_some_iff
  | payloadTtl =>
    exact (bind_nonblank?_eq_some_iff rfl).trans ListedValidator.toUInt64?_eq_some_iff
  | registryMode => exact (bind_nonblank?_eq_some_iff rfl).trans mode_ofName?_eq_some_iff
  | databaseUrl => exact guard_ne_eq_some_iff
  | tablePrefix => exact guard_ne_eq_some_iff

theorem name_injective : Function.Injective name := by
  intro x y same
  cases x <;> cases y <;> first | rfl | exact absurd same (by decide)

end SettingsVariable

variable {x y : SettingsVariable} {env : Environment} {s : Settings}

namespace Environment

/-- **An environment states a value for a variable:** it sets it to a text that is acceptable and
stands for the value. -/
def States (env : Environment) (x : SettingsVariable) (v : x.Value) : Prop :=
  ∃ given, env x.name = some given ∧ x.Means given v

/-- The value that an environment states for a variable. -/
def value? (env : Environment) (x : SettingsVariable) : Option x.Value :=
  (env x.name).bind x.meaning?

/-- A variable's value is what the environment states of it. -/
theorem value?_eq_some_iff {v : x.Value} : env.value? x = some v ↔ env.States x v := by
  rw [value?, Option.bind_eq_some_iff]
  exact exists_congr fun given => and_congr_right fun _ => SettingsVariable.meaning?_eq_some_iff

theorem value?_eq_none_iff : env.value? x = none ↔ ∀ v, ¬ env.States x v := by
  rw [Option.eq_none_iff_forall_ne_some]
  exact forall_congr' fun v => not_congr value?_eq_some_iff

theorem value?_without_self : (env.without x.name).value? x = none := by
  rw [value?, without, if_pos rfl, Option.bind_none]

theorem value?_without_of_ne (h : y ≠ x) : (env.without x.name).value? y = env.value? y := by
  rw [value?, without, if_neg (SettingsVariable.name_injective.ne h), value?]

theorem stated?_eq_bind (env : Environment) (name : String) :
    env.stated? name = (env name).bind SettingsVariable.nonblank? := by
  refine congrArg (env name).bind (funext fun given => ?_)
  by_cases blank : Text.trim given = "" <;>
    simp [SettingsVariable.nonblank?, Option.guard, blank]

/-- Reading a stated value is reading what is not blank of it. -/
theorem bind_stated? {α : Type} (f : String → Option α) (name : String) :
    (env.stated? name).bind f =
      (env name).bind fun given => (SettingsVariable.nonblank? given).bind f := by
  rw [stated?_eq_bind, Option.bind_assoc]

end Environment

/-! ### One variable after the other -/

/-- What variables write, one after the other. -/
def Environment.write (env : Environment) (xs : List SettingsVariable) (s : Settings) : Settings :=
  xs.foldl (fun s x => x.update (env.value? x) s) s

theorem Environment.write_cons (env : Environment) (x : SettingsVariable)
    (xs : List SettingsVariable) (s : Settings) :
    env.write (x :: xs) s = env.write xs (x.update (env.value? x) s) := rfl

/-- Each variable on the list that has a value decides its field; all else stays. -/
theorem Environment.get?_write (env : Environment) (xs : List SettingsVariable) (s : Settings) :
    x.get? (env.write xs s) =
      (x.get? s).map fun v => if x ∈ xs then (env.value? x).getD v else v := by
  induction xs generalizing s with
  | nil => exact Option.map_id'.symm
  | cons y ys ih =>
    rw [Environment.write_cons, ih]
    by_cases h : x = y
    · subst h
      rw [SettingsVariable.get?_update_self, Option.map_map]
      refine congrArg (Option.map · (x.get? s)) (funext fun v => ?_)
      rw [Function.comp_apply, if_pos List.mem_cons_self]
      -- written once more, the value is the same
      cases env.value? x with
      | none => exact ite_self v
      | some w => exact ite_self w
    · rw [SettingsVariable.get?_update_of_ne h]
      simp only [List.mem_cons, h, false_or]

theorem Environment.write_congr {env' : Environment} (h : ∀ x, env.value? x = env'.value? x)
    (xs : List SettingsVariable) (s : Settings) : env.write xs s = env'.write xs s := by
  unfold Environment.write
  simp only [h]

/-- Nothing changes if every value that is stated is there. -/
theorem Environment.write_eq_self {xs : List SettingsVariable}
    (h : ∀ x ∈ xs, ∀ v, x.get? s = some v → (env.value? x).getD v = v) : env.write xs s = s := by
  induction xs with
  | nil => rfl
  | cons x xs ih =>
    rw [Environment.write_cons, SettingsVariable.update_eq_self (h x List.mem_cons_self)]
    exact ih fun y hy => h y (List.mem_cons_of_mem x hy)

/-- Environments that differ in one variable write the same to all other fields. -/
theorem SettingsVariable.Agree.write {env' : Environment} {t : Settings} (h : x.Agree s t)
    (same : ∀ y, y ≠ x → env.value? y = env'.value? y) (xs : List SettingsVariable) :
    x.Agree (env.write xs s) (env'.write xs t) := by
  induction xs generalizing s t with
  | nil => exact h
  | cons y ys ih =>
    rw [Environment.write_cons, Environment.write_cons]
    -- the variable itself may differ, the others are written alike
    by_cases hy : y = x
    · subst hy
      exact ih (h.update_self _ _)
    · rw [same y hy]
      exact ih (h.update_of_ne hy _)

namespace Settings

/-- Settings with a section for the database, where there is none and `DATABASE_URL` states an
address. -/
def opened (env : Environment) (s : Settings) : Settings :=
  { s with database := s.database.or ((env.value? .databaseUrl).map fun url => { url }) }

/-- Each step of the program is the update of one field by the value of its variable. -/
theorem overrideNetwork_eq (env : Environment) (s : Settings) :
    s.overrideNetwork env = SettingsVariable.update .network (env.value? .network) s := by
  rw [overrideNetwork, env.stated?_eq_bind]
  -- what stands there now is the value that the environment states
  change (match env.value? .network with | some network => _ | none => s) = _
  cases env.value? .network <;> rfl

theorem overrideEndpoints_eq (env : Environment) (s : Settings) :
    s.overrideEndpoints env = SettingsVariable.update .endpoints (env.value? .endpoints) s := by
  rw [overrideEndpoints, Environment.value?, SettingsVariable.name]
  cases env "RELAY_BEACON_ENDPOINTS" with
  | none => rfl
  | some given =>
    rw [Option.map_some, Option.bind_some, SettingsVariable.meaning?]
    cases textList given <;> rfl

theorem overrideBackend_eq (env : Environment) (s : Settings) :
    s.overrideBackend env = SettingsVariable.update .backend (env.value? .backend) s := by
  rw [overrideBackend, env.bind_stated?]
  change (match env.value? .backend with | some backend => _ | none => s) = _
  cases env.value? .backend <;> rfl

theorem overrideRedisUrl_eq (env : Environment) (s : Settings) :
    s.overrideRedisUrl env = SettingsVariable.update .redisUrl (env.value? .redisUrl) s := by
  rw [overrideRedisUrl, env.stated?_eq_bind]
  change (match env.value? .redisUrl with | some redisUrl => _ | none => s) = _
  cases env.value? .redisUrl <;> rfl

theorem overrideTtl_eq (env : Environment) (s : Settings) :
    s.overrideTtl env = SettingsVariable.update .payloadTtl (env.value? .payloadTtl) s := by
  rw [overrideTtl, env.bind_stated?]
  change (match env.value? .payloadTtl with | some ttl => _ | none => s) = _
  cases env.value? .payloadTtl <;> rfl

theorem overrideMode_eq (env : Environment) (s : Settings) :
    s.overrideMode env = SettingsVariable.update .registryMode (env.value? .registryMode) s := by
  rw [overrideMode, env.bind_stated?]
  change (match env.value? .registryMode with | some mode => _ | none => s) = _
  cases env.value? .registryMode <;> rfl

/-- This step makes the section of the database first, if there is a URL to put into it. -/
theorem overrideDatabase_eq (env : Environment) (s : Settings) :
    s.overrideDatabase env =
      SettingsVariable.update .databaseUrl (env.value? .databaseUrl) (s.opened env) := by
  rw [overrideDatabase, env.stated?_eq_bind, opened]
  change (match env.value? .databaseUrl with | some url => _ | none => s) = _
  obtain ⟨_, _, _, _, _ | _, _, _⟩ := s <;> cases env.value? .databaseUrl <;> rfl

theorem overrideTablePrefix_eq (env : Environment) (s : Settings) :
    s.overrideTablePrefix env =
      SettingsVariable.update .tablePrefix (env.value? .tablePrefix) s := by
  rw [overrideTablePrefix, env.stated?_eq_bind]
  change (match env.value? .tablePrefix with | some first => _ | none => s) = _
  cases env.value? .tablePrefix <;> rfl

/-- Fields outside the database can be written before or after its section is created. -/
theorem opened_update (url : x ≠ .databaseUrl) (tablePrefix : x ≠ .tablePrefix)
    (o : Option x.Value) :
    (x.update o s).opened env = x.update o (s.opened env) := by
  cases o <;> cases x <;> first | rfl | exact absurd rfl url | exact absurd rfl tablePrefix

/-- The variables in the order in which they are read. -/
def overriding : List SettingsVariable :=
  [.network, .endpoints, .backend, .redisUrl, .payloadTtl, .registryMode, .databaseUrl,
    .tablePrefix]

theorem mem_overriding (x : SettingsVariable) : x ∈ overriding := by cases x <;> decide

/-- **The section of the database is created, and then every variable writes its field.** -/
theorem override_eq_write (env : Environment) (s : Settings) :
    s.override env = env.write overriding (s.opened env) := by
  rw [override, overrideTablePrefix_eq, overrideDatabase_eq, overrideMode_eq, overrideTtl_eq,
    overrideRedisUrl_eq, overrideBackend_eq, overrideEndpoints_eq, overrideNetwork_eq]
  simp only [ne_eq, reduceCtorEq, not_false_eq_true, opened_update]
  rfl

/-! ### The laws -/

/-- A field has the value that its variable states, or else the value that it had. -/
theorem get?_override (env : Environment) (x : SettingsVariable) (s : Settings) :
    x.get? (s.override env) = (x.get? (s.opened env)).map (env.value? x).getD := by
  rw [override_eq_write, env.get?_write]
  simp only [mem_overriding, if_true]

theorem opened_of_some {db : DatabaseSettings} (some_ : s.database = some db) :
    s.opened env = s := by
  rw [opened, some_, Option.some_or]
  exact congrArg (fun database => { s with database }) some_.symm

/-- Afterwards there is a section if there was one or a URL is stated. -/
theorem database_opened_ne_none_iff :
    (s.opened env).database ≠ none ↔
      s.database ≠ none ∨ ∃ url, env.States .databaseUrl url := by
  rw [opened, ne_eq, Option.or_eq_none_iff, Option.map_eq_none_iff, not_and_or,
    Environment.value?_eq_none_iff, not_forall_not]

theorem opened_of_none (none_ : env.value? .databaseUrl = none) : s.opened env = s := by
  rw [opened, none_, Option.map_none, Option.or_none]

/-- A field that is there is not created. -/
theorem get?_opened {v : x.Value} (field : x.get? s = some v) : x.get? (s.opened env) = some v := by
  cases hs : s.database with
  | some db => rw [opened_of_some hs, field]
  | none =>
    cases x with
    | databaseUrl => rw [SettingsVariable.get?, hs] at field; cases field
    | tablePrefix => rw [SettingsVariable.get?, hs] at field; cases field
    | _ => exact field

/-- There is a database in the end if there is one before the variables write their fields. -/
theorem database_override_eq_none_iff :
    (s.override env).database = none ↔ (s.opened env).database = none := by
  calc (s.override env).database = none
      ↔ SettingsVariable.databaseUrl.get? (s.override env) = none := Option.map_eq_none_iff.symm
    _ ↔ (s.opened env).database = none := by
        rw [get?_override, Option.map_eq_none_iff, SettingsVariable.get?, Option.map_eq_none_iff]

/-- Overriding twice is overriding once. -/
theorem override_override (env : Environment) (s : Settings) :
    (s.override env).override env = s.override env := by
  have opened_ : (s.override env).opened env = s.override env := by
    cases result : (s.override env).database with
    | some db => exact opened_of_some result
    | none =>
      have unopened := database_override_eq_none_iff.1 result
      rw [opened, Option.or_eq_none_iff, Option.map_eq_none_iff] at unopened
      exact opened_of_none unopened.2
  rw [override_eq_write env (s.override env), opened_]
  -- every value that is stated is there by now
  refine Environment.write_eq_self fun x _ v field => ?_
  rw [get?_override] at field
  obtain ⟨w, -, rfl⟩ := Option.map_eq_some_iff.1 field
  cases env.value? x <;> rfl

/-- **Without a variable no other field changes,** unless a section of the database is missing that
the variable creates. -/
theorem agree_override_without (h : x = .databaseUrl → s.database ≠ none) :
    x.Agree (s.override env) (s.override (env.without x.name)) := by
  -- whether there is a section depends on the URL alone, and then only if there was none
  have opened_ : s.opened (env.without x.name) = s.opened env := by
    by_cases hx : x = .databaseUrl
    · obtain ⟨db, some_⟩ := Option.ne_none_iff_exists'.1 (h hx)
      rw [opened_of_some some_, opened_of_some some_]
    · rw [opened, opened, Environment.value?_without_of_ne fun same => hx same.symm]
  rw [override_eq_write, override_eq_write, opened_]
  exact SettingsVariable.Agree.write (fun _ => rfl)
    (fun y other => (Environment.value?_without_of_ne other).symm) overriding

/-- The section of the database in the result. -/
theorem database_override (env : Environment) (s : Settings) :
    (s.override env).database = (s.opened env).database.map fun db =>
      { db with
        url := (env.value? .databaseUrl).getD db.url
        tablePrefix := (env.value? .tablePrefix).getD db.tablePrefix } := by
  have url (o : Option String) (s : Settings) :
      (SettingsVariable.update .databaseUrl o s).database =
        s.database.map fun db => { db with url := o.getD db.url } := by
    cases o with
    | none => exact Option.map_id'.symm
    | some url => rfl
  have tablePrefix (o : Option String) (s : Settings) :
      (SettingsVariable.update .tablePrefix o s).database =
        s.database.map fun db => { db with tablePrefix := o.getD db.tablePrefix } := by
    cases o with
    | none => exact Option.map_id'.symm
    | some first => rfl
  -- the remaining six variables have their fields elsewhere
  have other {x : SettingsVariable} (url : x ≠ .databaseUrl) (tablePrefix : x ≠ .tablePrefix)
      (o : Option x.Value) (s : Settings) : (x.update o s).database = s.database := by
    cases o <;> cases x <;> first | rfl | exact absurd rfl url | exact absurd rfl tablePrefix
  -- the eight updates in turn, of which two touch the section
  rw [override_eq_write, overriding]
  simp only [Environment.write_cons]
  rw [Environment.write, List.foldl_nil, tablePrefix, url, Option.map_map]
  simp only [ne_eq, reduceCtorEq, not_false_eq_true, other]
  rfl

/-- Leaving out the section of the database makes no difference to what is written elsewhere. -/
theorem write_without_database (env : Environment) (xs : List SettingsVariable) (s : Settings) :
    { env.write xs s with database := none } = env.write xs { s with database := none } := by
  induction xs generalizing s with
  | nil => rfl
  | cons x xs ih =>
    have step : { x.update (env.value? x) s with database := none } =
        x.update (env.value? x) { s with database := none } := by
      cases env.value? x <;> cases x <;> rfl
    rw [Environment.write_cons, Environment.write_cons, ih, step]

/-- **Where there is no database, `DATABASE_URL` makes no difference to anything but its
section.** -/
theorem override_without_url (none_ : s.database = none) :
    s.override (env.without "DATABASE_URL") = { s.override env with database := none } := by
  have agree : SettingsVariable.Agree .databaseUrl ((env.without "DATABASE_URL").write overriding s)
      (env.write overriding s) :=
    SettingsVariable.Agree.write (fun _ => rfl)
      (fun y other => Environment.value?_without_of_ne other) overriding
  have unstated : (env.without "DATABASE_URL").value? .databaseUrl = none :=
    Environment.value?_without_self
  -- without a section the URL has no field to go to
  have missing (env : Environment) :
      SettingsVariable.databaseUrl.get? (env.write overriding s) = none := by
    rw [Environment.get?_write, SettingsVariable.get?, none_]
    rfl
  -- without the URL no section is made, and without a section the URL has nowhere to go
  calc s.override (env.without "DATABASE_URL")
      = (env.without "DATABASE_URL").write overriding s := by
        rw [override_eq_write, opened_of_none unstated]
    _ = env.write overriding s := agree.eq_of_none "" (missing _) (missing _)
    _ = env.write overriding { s.opened env with database := none } :=
        congrArg (fun database => env.write overriding { s with database }) none_
    _ = { s.override env with database := none } := by
        rw [override_eq_write, write_without_database]

/-- Environments that state the same values override alike. -/
theorem override_congr {env' : Environment} (h : ∀ x, env.value? x = env'.value? x) :
    s.override env = s.override env' := by
  rw [override_eq_write, override_eq_write, opened, opened, h, Environment.write_congr h]

/-- **A value that is stated is in its field,** if the field is there in the end. -/
theorem get?_override_of_states {v : x.Value} (states : env.States x v) :
    x.get? (s.override env) = some v ↔ x.get? (s.opened env) ≠ none := by
  rw [get?_override, Environment.value?_eq_some_iff.2 states]
  cases x.get? (s.opened env) with
  | none => exact iff_of_false nofun fun some_ => some_ rfl
  | some w => exact iff_of_true rfl nofun

/-- The only field that can be missing in the end is the one of `DB_TABLE_PREFIX`, if a value is
stated for it. -/
theorem get?_opened_ne_none_iff {v : x.Value} (states : env.States x v) :
    x.get? (s.opened env) ≠ none ↔
      (x = .tablePrefix → s.database ≠ none ∨ ∃ url, env.States .databaseUrl url) := by
  cases x with
  -- a URL that is stated makes its own section
  | databaseUrl =>
    rw [SettingsVariable.get?, ne_eq, Option.map_eq_none_iff]
    exact iff_of_true (database_opened_ne_none_iff.2 (.inr ⟨v, states⟩)) nofun
  -- a prefix has to find one
  | tablePrefix =>
    rw [SettingsVariable.get?, ne_eq, Option.map_eq_none_iff]
    exact database_opened_ne_none_iff.trans ⟨fun h _ => h, fun h => h rfl⟩
  | _ => exact iff_of_true nofun nofun

/-- A variable that states nothing leaves its field as it is. -/
theorem get?_override_of_silent (silent : ∀ v, ¬ env.States x v) {v : x.Value}
    (field : x.get? s = some v) : x.get? (s.override env) = some v := by
  rw [get?_override, get?_opened field, Environment.value?_eq_none_iff.2 silent]
  rfl

/-- A variable that states nothing might as well not be set. -/
theorem override_without_of_silent (silent : ∀ v, ¬ env.States x v) :
    s.override (env.without x.name) = s.override env := by
  refine override_congr fun y => ?_
  by_cases hy : y = x
  · subst hy
    rw [Environment.value?_without_self, Environment.value?_eq_none_iff.2 silent]
  · exact Environment.value?_without_of_ne hy

/-- The section that `DATABASE_URL` creates. -/
theorem database_override_of_none (none_ : s.database = none) {url : String}
    (states : env.States .databaseUrl url) :
    (s.override env).database =
      some { url, tablePrefix := (env.value? .tablePrefix).getD defaultTablePrefix } := by
  rw [database_override, opened, none_, Environment.value?_eq_some_iff.2 states]
  rfl

/-- `DB_TABLE_PREFIX` does nothing if there is no database in the end. -/
theorem override_without_tablePrefix (none_ : (s.opened env).database = none) :
    s.override (env.without "DB_TABLE_PREFIX") = s.override env := by
  have agree : SettingsVariable.Agree .tablePrefix (s.override env)
      (s.override (env.without "DB_TABLE_PREFIX")) := agree_override_without nofun
  -- the section is made, or not, because of the URL alone
  have same : s.opened (env.without "DB_TABLE_PREFIX") = s.opened env := by
    have url : (env.without "DB_TABLE_PREFIX").value? .databaseUrl = env.value? .databaseUrl :=
      Environment.value?_without_of_ne (x := .tablePrefix) nofun
    rw [opened, opened, url]
  refine (agree.eq_of_none "" ?_ ?_).symm
  · rw [get?_override, SettingsVariable.get?, none_]
    rfl
  · rw [get?_override, same, SettingsVariable.get?, none_]
    rfl

/-- **What the environment overrides.** Overriding twice is overriding once. Without a variable no
other field changes, except that `DATABASE_URL` creates the section of the database. A variable that
states a value has it in its field, for `DB_TABLE_PREFIX` if there is a section; a variable that
states none does nothing. Endpoints that are written as JSON are taken over as they are. -/
theorem variables_govern_fields (env : Environment) (s : Settings) :
    (s.override env).override env = s.override env ∧
    (∀ x : SettingsVariable, (x = .databaseUrl → s.database ≠ none) →
      x.Agree (s.override env) (s.override (env.without x.name))) ∧
    (s.database = none →
      s.override (env.without "DATABASE_URL") = { s.override env with database := none } ∧
      ∀ url, env.States .databaseUrl url → ∃ tablePrefix,
        (s.override env).database = some { url, tablePrefix, maxConnections := 5 } ∧
        (env.States .tablePrefix tablePrefix ∨
          (∀ v, ¬ env.States .tablePrefix v) ∧ tablePrefix = "dev")) ∧
    (∀ x v, env.States x v → (x.get? (s.override env) = some v ↔
      (x = .tablePrefix → s.database ≠ none ∨ ∃ url, env.States .databaseUrl url))) ∧
    (s.database = none → (∀ url, ¬ env.States .databaseUrl url) →
      s.override (env.without "DB_TABLE_PREFIX") = s.override env) ∧
    (∀ x, (∀ v, ¬ env.States x v) →
      (∀ v, x.get? s = some v → x.get? (s.override env) = some v) ∧
      s.override (env.without x.name) = s.override env) ∧
    ∀ texts, texts ≠ [] →
      env "RELAY_BEACON_ENDPOINTS" = some (Json.render (.arr (texts.map .str))) →
      (s.override env).beacon.endpoints = texts := by
  refine ⟨override_override env s, fun x h => agree_override_without h, fun none_ =>
    ⟨override_without_url none_, fun url states => ?_⟩, fun x v states =>
    (get?_override_of_states states).trans (get?_opened_ne_none_iff states),
    fun none_ silent => ?_, fun x silent =>
    ⟨fun v field => get?_override_of_silent silent field, override_without_of_silent silent⟩,
    fun texts some_ given => ?_⟩
  · -- a new section has the prefix that is stated, or the usual one
    refine ⟨_, database_override_of_none none_ states, ?_⟩
    cases stated : env.value? .tablePrefix with
    | none => exact .inr ⟨Environment.value?_eq_none_iff.1 stated, rfl⟩
    | some first => exact .inl (Environment.value?_eq_some_iff.1 stated)
  · refine override_without_tablePrefix (not_ne_iff.1 fun there => ?_)
    rcases database_opened_ne_none_iff.1 there with some_ | ⟨url, states⟩
    · exact some_ none_
    · exact silent url states
  · -- a JSON list of texts is read back as those texts
    have states : env.States .endpoints texts := ⟨_, given, textList_render texts, some_⟩
    have field := (get?_override_of_states (s := s) states).2
      ((get?_opened_ne_none_iff states).2 nofun)
    exact Option.some.inj field

/-- An environment with a database, a casing, a number that is none and a list of endpoints. -/
theorem variables_govern_default_settings :
    let env : Environment := ([("RELAY_STORE_BACKEND", " Redis "),
      ("RELAY_PAYLOAD_TTL_SECONDS", "12s"), ("DATABASE_URL", "postgres://db"),
      ("RELAY_BEACON_ENDPOINTS", Json.render (.arr (["http://a,\""].map .str)))].lookup ·)
    (∀ v, ¬ env.States .payloadTtl v) ∧ env.States .backend .redis ∧
    env.States .databaseUrl "postgres://db" ∧
    (({} : Settings).override env).store.payloadTtlSeconds = 45 ∧
    (({} : Settings).override env).store.backend = .redis ∧
    (({} : Settings).override env).beacon.endpoints = ["http://a,\""] ∧
    (({} : Settings).override env).database =
      some { url := "postgres://db", tablePrefix := "dev", maxConnections := 5 } := by
  intro env
  -- `12s` is no number, so the time to live stays as it is
  have number : ∀ v, ¬ env.States .payloadTtl v := Environment.value?_eq_none_iff.1 (by decide)
  have noFirst : ∀ v, ¬ env.States .tablePrefix v := Environment.value?_eq_none_iff.1 rfl
  have backend : env.States .backend .redis := 
    ⟨" Redis ", rfl, (by decide : lowerCase (Text.trim " Redis ") = "redis")⟩
  have url : env.States .databaseUrl "postgres://db" :=
    ⟨"postgres://db", rfl, (by decide : Text.trim "postgres://db" = "postgres://db"), by decide⟩
  obtain ⟨-, -, created, stated, -, silent, listed⟩ := variables_govern_fields env {}
  refine ⟨number, backend, url, ?_, ?_, listed _ (by decide) rfl, ?_⟩
  · exact Option.some.inj ((silent .payloadTtl number).1 _ rfl)
  · exact Option.some.inj ((stated .backend _ backend).2 nofun)
  · obtain ⟨first, section_, states | ⟨-, rfl⟩⟩ := (created rfl).2 _ url
    · exact absurd states (noFirst first)
    · exact section_

end Settings

end BlockRelay
