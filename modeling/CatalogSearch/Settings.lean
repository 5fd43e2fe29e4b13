import CatalogSearch.Schema.Scalar
import CatalogSearch.Text.FormEncoding
import CatalogSearch.Text.Lowercase
import CatalogSearch.Text.Split
import CatalogSearch.Time.Seconds

/-!
# Settings

Settings of the indexer and how they are read from environment variables (`Settings.ofEnvironment`).
-/

namespace CatalogSearch

/-- All settings. -/
structure Settings where
  storeHost : String
  storeName : String
  storeUser : String
  storePassword : String
  storePort : Int
  storePoolSize : Int
  storeMaxOverflow : Int
  storeEcho : Bool
  cacheUrl : String
  cacheMaxConnections : Int
  cacheSocketTimeout : Seconds
  cacheRetryOnTimeout : Bool
  cacheExpirySeconds : Int
  loadBatchSize : Int
  engineUrl : String
  engineApiKey : String
  engineTimeout : Seconds
  indexName : String
  uploadBatchSize : Int
  indexingHours : String
  indexingMinutes : String
deriving DecidableEq

namespace Settings

/-- The settings unless others are given. -/
def default : Settings where
  storeHost := "localhost"
  storeName := "labrinth"
  storeUser := "labrinth"
  storePassword := ""
  storePort := 5432
  storePoolSize := 10
  storeMaxOverflow := 20
  storeEcho := false
  cacheUrl := "redis://localhost:6379/0"
  cacheMaxConnections := 50
  cacheSocketTimeout := .fractional (.ofDecimal false 5 0)
  cacheRetryOnTimeout := true
  cacheExpirySeconds := 1800
  loadBatchSize := 1000
  engineUrl := "http://localhost:7700"
  engineApiKey := ""
  engineTimeout := .whole 30
  indexName := "projects"
  uploadBatchSize := 10000
  indexingHours := "0,6,12,18"
  indexingMinutes := ""

instance : Inhabited Settings := ⟨default⟩

/-- The number that a text names or writes, without white space around it. -/
def namedFloat? (s : List Char) : Option Binary64 :=
  let (negative, text) := Text.splitSign s
  let name := String.ofList (text.map Char.toLower)
  if name = "inf" ∨ name = "infinity" then some (.infinity negative)
  else if name = "nan" then some .notANumber
  else Scientific.number? s

/-- Whether a text has underscores, of which none stands at an end or beside another. -/
def hasLoneUnderscores (s : List Char) : Bool :=
  s.contains '_' && (Text.splitOn '_' s).all (fun part => !part.isEmpty)

/-- The number of a text, with white space around it, or with underscores in it. -/
def floatOfText? (s : List Char) : Option Binary64 :=
  match namedFloat? (Text.stripBy Text.isWhite s) with
  | some x => some x
  | none => if hasLoneUnderscores s then namedFloat? (s.filter (· ≠ '_')) else none

/-- Reads a length of time: a number as it is, a text as a floating-point number. -/
def seconds : Json → Checked Seconds
  | .int n => .ok (.whole n)
  | .float x => .ok (.fractional x)
  | .str s => .fractional <$> .ofOption (floatOfText? s.toList)
  | _ => .refused

/-- Reads a length of time: a number as it is, a text as an integer. -/
def wholeSeconds : Json → Checked Seconds
  | .float x => .ok (.fractional x)
  | v => .whole <$> Schema.integer v

/-- Writes a length of time. -/
def ofSeconds : Seconds → Json
  | .whole n => .int n
  | .fractional x => .float x

/-- Reads the settings from an object of their names; missing ones keep the given values. -/
def ofJson (base : Settings) (v : Json) : Checked Settings :=
  Settings.mk
    <$> Schema.optional v "db_server" base.storeHost Schema.text
    <*> Schema.optional v "db_name" base.storeName Schema.text
    <*> Schema.optional v "db_user" base.storeUser Schema.text
    <*> Schema.optional v "db_password" base.storePassword Schema.text
    <*> Schema.optional v "db_port" base.storePort Schema.integer
    <*> Schema.optional v "db_pool_size" base.storePoolSize Schema.integer
    <*> Schema.optional v "db_max_overflow" base.storeMaxOverflow Schema.integer
    <*> Schema.optional v "sql_echo" base.storeEcho Schema.boolean
    <*> Schema.optional v "redis_url" base.cacheUrl Schema.text
    <*> Schema.optional v "redis_max_connections" base.cacheMaxConnections Schema.integer
    <*> Schema.optional v "redis_socket_timeout" base.cacheSocketTimeout seconds
    <*> Schema.optional v "redis_retry_on_timeout" base.cacheRetryOnTimeout Schema.boolean
    <*> Schema.optional v "cache_expiry_seconds" base.cacheExpirySeconds Schema.integer
    <*> Schema.optional v "indexing_batch_size" base.loadBatchSize Schema.integer
    <*> Schema.optional v "meilisearch_url" base.engineUrl Schema.text
    <*> Schema.optional v "meilisearch_api_key" base.engineApiKey Schema.text
    <*> Schema.optional v "meilisearch_timeout" base.engineTimeout wholeSeconds
    <*> Schema.optional v "meilisearch_index_name" base.indexName Schema.text
    <*> Schema.optional v "meilisearch_upload_batch_size" base.uploadBatchSize Schema.integer
    <*> Schema.optional v "arq_indexing_hours" base.indexingHours Schema.text
    <*> Schema.optional v "arq_indexing_minutes" base.indexingMinutes Schema.text

/-- Reads the settings from environment variables, whose names may be written in any case. -/
def ofEnvironment (environment : List (String × String)) : Checked Settings :=
  ofJson default (.obj (OrderedMap.ofList
    (environment.map (fun e => (String.ofList (Text.lower e.1.toList), Json.str e.2)))).entries)

/-- Writes the settings. -/
def toJson (s : Settings) : Json :=
  .obj [
    ("db_server", .str s.storeHost),
    ("db_name", .str s.storeName),
    ("db_user", .str s.storeUser),
    ("db_password", .str s.storePassword),
    ("db_port", .int s.storePort),
    ("db_pool_size", .int s.storePoolSize),
    ("db_max_overflow", .int s.storeMaxOverflow),
    ("sql_echo", .bool s.storeEcho),
    ("redis_url", .str s.cacheUrl),
    ("redis_max_connections", .int s.cacheMaxConnections),
    ("redis_socket_timeout", ofSeconds s.cacheSocketTimeout),
    ("redis_retry_on_timeout", .bool s.cacheRetryOnTimeout),
    ("cache_expiry_seconds", .int s.cacheExpirySeconds),
    ("indexing_batch_size", .int s.loadBatchSize),
    ("meilisearch_url", .str s.engineUrl),
    ("meilisearch_api_key", .str s.engineApiKey),
    ("meilisearch_timeout", ofSeconds s.engineTimeout),
    ("meilisearch_index_name", .str s.indexName),
    ("meilisearch_upload_batch_size", .int s.uploadBatchSize),
    ("arq_indexing_hours", .str s.indexingHours),
    ("arq_indexing_minutes", .str s.indexingMinutes)]

/-- The URL of the store; the password is form-encoded. -/
def storeUrl (s : Settings) : String :=
  "postgresql+asyncpg://" ++ s.storeUser ++ ":" ++ Text.formEncode s.storePassword ++ "@" ++
    s.storeHost ++ ":" ++ Decimal.text s.storePort ++ "/" ++ s.storeName

end Settings

end CatalogSearch
