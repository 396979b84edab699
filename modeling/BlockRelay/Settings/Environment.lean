import BlockRelay.Settings.Basic
import BlockRelay.Json.Reader
import BlockRelay.Text.Blank
import BlockRelay.Text.Pieces

/-!
# Settings from the environment

Eight variables override settings. Each has its own field (`Settings.override` is the eight
steps one after the other), and a variable that is absent, blank or not acceptable leaves its
field alone. `DATABASE_URL` also creates the section of the database.

A list of endpoints can be given as JSON, in brackets without quotes, or plainly with commas
(`textList`).
-/

namespace BlockRelay

/-- The environment: the value of a variable, if it is set. -/
abbrev Environment := String → Option String

/-- The value of a variable between blanks, unless it is blank. -/
def Environment.stated? (env : Environment) (name : String) : Option String :=
  (env name).bind fun value =>
    let value := Text.trim value
    if value = "" then none else some value

/-! ### Lists -/

/-- Cuts all quotes of a kind from both ends. -/
def unquoted (quote : Char) (cs : List Char) : List Char := Text.trimmed (· = quote) cs

/-- The pieces of a text between commas, each cleaned; what is empty then is dropped. -/
def commaList (clean : List Char → List Char) (cs : List Char) : List String :=
  (((Text.pieces (· = ',') cs).map clean).filter fun p => !p.isEmpty).map String.ofList

/-- The items of a list that is in brackets without being JSON. -/
def bracketList (cs : List Char) : List String :=
  let inner := Text.trimmed Text.isBlank
    (Text.dropEndWhile (· = ']') (cs.dropWhile (· = '[')))
  commaList (fun p => unquoted '\'' (unquoted '"' (Text.trimmed Text.isBlank p))) inner

/-- **The texts that a list holds.** -/
def textList (given : String) : List String :=
  let cs := Text.trimmed Text.isBlank given.toList
  match cs with
  | [] => []
  | '[' :: _ =>
    match (Json.read? (String.ofList cs)).bind (Json.list? Json.text?) with
    | some texts => texts
    | none => bracketList cs
  | cs => commaList (fun p => unquoted '"' (Text.trimmed Text.isBlank p)) cs

/-! ### The variables -/

/-- A text with its ASCII letters in lower case. -/
def lowerCase (s : String) : String := String.ofList (s.toList.map Char.toLower)

namespace Settings

variable (env : Environment)

/-- `RELAY_NETWORK` is the network. -/
def overrideNetwork (s : Settings) : Settings :=
  match env.stated? "RELAY_NETWORK" with
  | some network => { s with network }
  | none => s

/-- `RELAY_BEACON_ENDPOINTS` lists the beacon nodes, if it lists any. -/
def overrideEndpoints (s : Settings) : Settings :=
  match (env "RELAY_BEACON_ENDPOINTS").map textList with
  | some (endpoint :: rest) => { s with beacon := { s.beacon with endpoints := endpoint :: rest } }
  | _ => s

/-- `RELAY_STORE_BACKEND` names the kind of store, in any casing. -/
def overrideBackend (s : Settings) : Settings :=
  match (env.stated? "RELAY_STORE_BACKEND").bind fun v => StoreBackend.ofName? (lowerCase v) with
  | some backend => { s with store := { s.store with backend } }
  | none => s

/-- `RELAY_REDIS_URL` is the address of the Redis server. -/
def overrideRedisUrl (s : Settings) : Settings :=
  match env.stated? "RELAY_REDIS_URL" with
  | some redisUrl => { s with store := { s.store with redisUrl } }
  | none => s

/-- `RELAY_PAYLOAD_TTL_SECONDS` is how long a payload is kept. -/
def overrideTtl (s : Settings) : Settings :=
  match (env.stated? "RELAY_PAYLOAD_TTL_SECONDS").bind fun v =>
      Text.Decimal.toUInt64? v.toList with
  | some payloadTtlSeconds => { s with store := { s.store with payloadTtlSeconds } }
  | none => s

/-- `RELAY_REGISTRY_MODE` names the mode of the registry, in any casing. -/
def overrideMode (s : Settings) : Settings :=
  match (env.stated? "RELAY_REGISTRY_MODE").bind fun v => RegistryMode.ofName? (lowerCase v) with
  | some mode => { s with registry := { s.registry with mode } }
  | none => s

/-- `DATABASE_URL` is the address of the database, and creates the section if there is none. -/
def overrideDatabase (s : Settings) : Settings :=
  match env.stated? "DATABASE_URL" with
  | some url =>
    match s.database with
    | some db => { s with database := some { db with url } }
    | none => { s with database := some { url } }
  | none => s

/-- `DB_TABLE_PREFIX` is what the names of tables begin with, if there is a database. -/
def overrideTablePrefix (s : Settings) : Settings :=
  match env.stated? "DB_TABLE_PREFIX" with
  | some tablePrefix => { s with database := s.database.map fun db => { db with tablePrefix } }
  | none => s

/-- **Settings as the environment overrides them.** -/
def override (s : Settings) : Settings :=
  overrideTablePrefix env <| overrideDatabase env <| overrideMode env <| overrideTtl env <|
    overrideRedisUrl env <| overrideBackend env <| overrideEndpoints env <| overrideNetwork env s

end Settings

end BlockRelay
