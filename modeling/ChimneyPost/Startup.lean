import ChimneyPost.Lib.Dialogue
import ChimneyPost.Matrix.Client

/-!
# Starting up

`Config::load_default` of `src/config.rs`, `MessageStore::open_with_max_len` of
`src/queue/store.rs`, `bind_smtp` of `src/smtp/server.rs` and `main` of `src/main.rs` up to
the point where systemd is told that the service is ready, as one script: what is asked of
the operating system and of SQLite, each request answered in any way.

Nothing outside is touched before the whole configuration has been read and validated, the
environment is asked only for what the file refers to, and the service is ready when and
only when its database is open and its address is bound (`start_in_order`).
-/

namespace ChimneyPost

open Dialogue (Script Exchange Fallible)
open ChimneyPost.Matrix (RouteConfig)

/-! ## The configuration file -/

structure LoggingConfig where
  level : Str
  format : Str
deriving DecidableEq

/-- The whole of `Config`: with the values that only `main` and the sessions read. -/
structure Settings extends Config where
  /-- `smtp.timeout` -/
  timeout : Nat
  /-- `queue.max_retries` -/
  maxRetries : UInt32
  /-- `queue.max_len` -/
  maxLen : Nat
  logging : LoggingConfig
deriving DecidableEq

/-- `SmtpConfig` as it is written: what has a default may be missing. -/
structure SmtpDocument where
  bind : Str
  maxMessageSize : Nat
  timeout : Nat
  maxConnections : Option Nat
  maxSessionSeconds : Option Nat
deriving DecidableEq

structure MatrixDocument where
  homeserver : Str
  userId : Str
  deviceName : Str
  roomId : Str
  storePath : Str
  requireE2ee : Option Bool
  messageTemplate : Option Str
  routes : Option (List RouteConfig)
  credentials : MatrixCredentials
deriving DecidableEq

structure QueueDocument where
  maxRetries : UInt32
  retryBackoff : Nat
  dbPath : Option Str
  maxLen : Option Nat
deriving DecidableEq

structure Document where
  smtp : SmtpDocument
  matrix : MatrixDocument
  logging : LoggingConfig
  queue : QueueDocument
deriving DecidableEq

def defaultMaxConnections : Nat := 100

def defaultMaxSessionSeconds : Nat := 300

def defaultRequireE2ee : Bool := true

/-- `DEFAULT_MESSAGE_TEMPLATE`. -/
def defaultMessageTemplate : Str :=
  ("\x7b%- if from %\x7dFrom: \x7b\x7b from \x7d\x7d\n" ++
    "\x7b% endif %\x7d\x7b%- if to %\x7dTo: \x7b\x7b to \x7d\x7d\n" ++
    "\x7b% endif %\x7d\x7b%- if subject %\x7dSubject: \x7b\x7b subject \x7d\x7d" ++
    "\x7b% else %\x7dSubject: (none)\x7b% endif %\x7d\n\n" ++
    "\x7b%- if body and body is string and body | trim %\x7d\n" ++
    "\x7b\x7b body \x7d\x7d\x7b% else %\x7d\n(empty message body)\x7b% endif %\x7d").toList

def defaultQueueDbPath : Str := "/var/lib/chimney-post/queue.db".toList

def defaultQueueMaxLen : Nat := 10000

/-- The configuration of a file, with the defaults filled in. -/
def Document.settings (document : Document) : Settings where
  smtp :=
    { bind := document.smtp.bind
      maxMessageSize := document.smtp.maxMessageSize
      maxConnections := document.smtp.maxConnections.getD defaultMaxConnections
      maxSessionSeconds := document.smtp.maxSessionSeconds.getD defaultMaxSessionSeconds }
  matrix :=
    { homeserver := document.matrix.homeserver
      userId := document.matrix.userId
      deviceName := document.matrix.deviceName
      roomId := document.matrix.roomId
      storePath := document.matrix.storePath
      requireE2ee := document.matrix.requireE2ee.getD defaultRequireE2ee
      messageTemplate := document.matrix.messageTemplate.getD defaultMessageTemplate
      routes := document.matrix.routes.getD []
      credentials := document.matrix.credentials }
  queue :=
    { retryBackoff := document.queue.retryBackoff
      dbPath := document.queue.dbPath.getD defaultQueueDbPath }
  timeout := document.smtp.timeout
  maxRetries := document.queue.maxRetries
  maxLen := document.queue.maxLen.getD defaultQueueMaxLen
  logging := document.logging

/-- The parsers of other crates that only the start needs. -/
structure StartParsers (SocketAddr Url UserId RoomId : Type) extends
    Parsers SocketAddr Url UserId RoomId where
  /-- `toml::from_str` -/
  toml : Str → Except Str Document
  /-- `EnvFilter::try_new` -/
  envFilter : Str → Except Str Unit

/-! ## The requests -/

inductive StartRequest (SocketAddr Connection : Type) where
  /-- `env::var` -/
  | envVar (name : Str)
  | readToString (path : Str)
  /-- the subscriber of the log is set -/
  | initTracing (level : Str) (json : Bool)
  /-- the blocking task that opens the database -/
  | spawnBlocking
  | createDirAll (path : Str)
  | openConnection (path : Str)
  /-- `execute_batch(SCHEMA)` -/
  | executeSchema (connection : Connection)
  | bindListener (addr : SocketAddr)
  | notifyReady

namespace StartRequest

variable {SocketAddr Connection : Type}

/-- The answers to a request. -/
abbrev Answer (Listener : Type) : StartRequest SocketAddr Connection → Type
  | .envVar _ => Option Str
  | .readToString _ => Except Str Str
  | .initTracing _ _ => Unit
  | .spawnBlocking => Except Str Unit
  | .createDirAll _ => Except Str Unit
  | .openConnection _ => Except Str Connection
  | .executeSchema _ => Except Str Unit
  | .bindListener _ => Except Str Listener
  | .notifyReady => Unit

/-- The name an environment variable is asked for by. -/
def asks : StartRequest SocketAddr Connection → Option Str
  | .envVar name => some name
  | _ => none

/-- A request that only looks. -/
def looks : StartRequest SocketAddr Connection → Bool
  | .envVar _ => true
  | .readToString _ => true
  | _ => false

def isReady : StartRequest SocketAddr Connection → Bool
  | .notifyReady => true
  | _ => false

end StartRequest

abbrev StartExchange (SocketAddr Connection Listener : Type) : Type :=
  Exchange (StartRequest SocketAddr Connection) (StartRequest.Answer Listener)

abbrev StartScript (SocketAddr Connection Listener α : Type) : Type :=
  Fallible (StartRequest SocketAddr Connection) (StartRequest.Answer Listener) ChimneyError α

/-- Parts of a path that `Path::components` passes over. -/
def isPassedOver (part : Str) : Bool :=
  part = [] || part = ['.']

/-- `Path::parent`. -/
def parentDir (path : Str) : Option Str :=
  let front :=
    if ['/'].isPrefixOf path then ['/']
    else if path = ['.'] ∨ ['.', '/'].isPrefixOf path then ['.']
    else []
  match ((path.drop front.length).splitOn '/').rdropWhile isPassedOver with
  | [] => if front = ['.'] then some [] else none
  | parts => some (front ++ ['/'].intercalate (parts.dropLast.rdropWhile isPassedOver))

/-- What a value is written as that is to be taken from the environment. -/
def reference (name : Str) : Str :=
  "$\x7b".toList ++ name ++ "\x7d".toList

/-- What `main` has when the service is ready. -/
structure Started (Connection Listener : Type) where
  settings : Settings
  connection : Connection
  listener : Listener

/-! ## The script -/

section Program

variable {SocketAddr Url UserId RoomId Connection Listener : Type}
  (parsers : StartParsers SocketAddr Url UserId RoomId)

/-- One of the three overrides of `apply_env_overrides`. -/
def overrideField (name : Str) (field : Option Str) :
    StartScript SocketAddr Connection Listener (Option Str) :=
  if field = some (reference name) then do
    let value ← Fallible.request (StartRequest.envVar name)
    match (value : Option Str) with
    | some value => return some value
    | none =>
        throw (.config ("config references ".toList ++ reference name ++
          " but the env var is not set".toList))
  else
    return field

/-- `Config::apply_env_overrides`. -/
def applyEnvOverrides (settings : Settings) :
    StartScript SocketAddr Connection Listener Settings := do
  let credentials := settings.matrix.credentials
  let password ← overrideField "MATRIX_PASSWORD".toList credentials.password
  let accessToken ← overrideField "MATRIX_ACCESS_TOKEN".toList credentials.accessToken
  let deviceId ← overrideField "MATRIX_DEVICE_ID".toList credentials.deviceId
  return { settings with
    matrix := { settings.matrix with
      credentials :=
        { password := password, accessToken := accessToken, deviceId := deviceId } } }

/-- `Config::load_from_path`. -/
def loadFromPath (path : Str) : StartScript SocketAddr Connection Listener Settings := do
  let content ← Fallible.request (StartRequest.readToString path)
  let content ← Fallible.ofExcept
    (orConfig (fun error => path ++ ": ".toList ++ error) content)
  let document ← Fallible.ofExcept
    (orConfig (fun error => path ++ ": ".toList ++ error) (parsers.toml content))
  let settings ← applyEnvOverrides document.settings
  Fallible.ofExcept (settings.toConfig.validate parsers.toParsers)
  return settings

/-- `Config::load_default`. -/
def loadDefault : StartScript SocketAddr Connection Listener Settings := do
  let path ← Fallible.request (StartRequest.envVar "CHIMNEY_CONFIG".toList)
  loadFromPath parsers ((path : Option Str).getD "config.toml".toList)

/-- `init_tracing`. -/
def initTracing (logging : LoggingConfig) : StartScript SocketAddr Connection Listener Unit := do
  Fallible.ofExcept (orConfig (fun error => "invalid log level: ".toList ++ error)
    (parsers.envFilter logging.level))
  let _ ← Fallible.request
    (StartRequest.initTracing logging.level (logging.format = "json".toList))
  return ()

/-- `map_err` of an error of another crate. -/
def orElse {α : Type} (error : Str → ChimneyError) : Except Str α → Except ChimneyError α
  | .ok a => .ok a
  | .error text => .error (error text)

/-- Create the directory of the database, unless it is in memory or has none. -/
def createParent (path : Str) : StartScript SocketAddr Connection Listener Unit :=
  if path ≠ ":memory:".toList then
    match parentDir path with
    | some parent =>
        if parent ≠ [] then do
          let created ← Fallible.request (StartRequest.createDirAll parent)
          Fallible.ofExcept (orElse .io created)
        else
          return ()
    | none => return ()
  else
    return ()

/-- `MessageStore::open_with_max_len`. -/
def openStore (path : Str) : StartScript SocketAddr Connection Listener Connection := do
  let spawned ← Fallible.request StartRequest.spawnBlocking
  Fallible.ofExcept (orElse (fun error => .queue ("storage task failed: ".toList ++ error)) spawned)
  createParent path
  let opened ← Fallible.request (StartRequest.openConnection path)
  let connection ← Fallible.ofExcept (orElse .storage opened)
  let executed ← Fallible.request (StartRequest.executeSchema connection)
  Fallible.ofExcept (orElse .storage executed)
  return connection

/-- `bind_smtp`. -/
def bindScript (bind : Str) : StartScript SocketAddr Connection Listener Listener := do
  let bindAddr ← Fallible.ofExcept
    (parseBind parsers.toParsers bind "smtp.bind must be a valid SocketAddr".toList)
  let bound ← Fallible.request (StartRequest.bindListener bindAddr)
  Fallible.ofExcept (orElse .io bound)

/-- `main` up to its notice that the service is ready. -/
def startScript : StartScript SocketAddr Connection Listener (Started Connection Listener) := do
  let settings ← loadDefault parsers
  initTracing parsers settings.logging
  let connection ← openStore settings.queue.dbPath
  let listener ← bindScript parsers settings.smtp.bind
  let _ ← Fallible.request StartRequest.notifyReady
  return { settings := settings, connection := connection, listener := listener }

end Program

/-! ## What is in order -/

section Order

variable {SocketAddr Url UserId RoomId Connection Listener : Type}
  (parsers : StartParsers SocketAddr Url UserId RoomId)

/-- A configuration file has been read, with this in it. -/
def FileRead (history : List (StartExchange SocketAddr Connection Listener))
    (document : Document) : Prop :=
  ∃ path content, (⟨.readToString path, .ok content⟩ :
      StartExchange SocketAddr Connection Listener) ∈ history ∧
    parsers.toml content = .ok document

/-- A field that refers to a variable has its value, any other is what is written. -/
def Resolved (history : List (StartExchange SocketAddr Connection Listener)) (name : Str)
    (field value : Option Str) : Prop :=
  if field = some (reference name) then
    ∃ text, value = some text ∧
      (⟨.envVar name, some text⟩ : StartExchange SocketAddr Connection Listener) ∈ history
  else value = field

/-- These settings have been read, completed from the environment, and validated. -/
structure Loaded (history : List (StartExchange SocketAddr Connection Listener))
    (settings : Settings) : Prop where
  source : ∃ document, FileRead parsers history document ∧
    settings = { document.settings with
      matrix := { document.settings.matrix with credentials := settings.matrix.credentials } } ∧
    Resolved history "MATRIX_PASSWORD".toList document.matrix.credentials.password
      settings.matrix.credentials.password ∧
    Resolved history "MATRIX_ACCESS_TOKEN".toList document.matrix.credentials.accessToken
      settings.matrix.credentials.accessToken ∧
    Resolved history "MATRIX_DEVICE_ID".toList document.matrix.credentials.deviceId
      settings.matrix.credentials.deviceId
  valid : settings.toConfig.validate parsers.toParsers = .ok ()

/-- The credentials refer to this variable. -/
def References (credentials : MatrixCredentials) (name : Str) : Prop :=
  name = "MATRIX_PASSWORD".toList ∧ credentials.password = some (reference name) ∨
    name = "MATRIX_ACCESS_TOKEN".toList ∧ credentials.accessToken = some (reference name) ∨
      name = "MATRIX_DEVICE_ID".toList ∧ credentials.deviceId = some (reference name)

/-- The variables that have been asked for. -/
def askedFor (history : List (StartExchange SocketAddr Connection Listener)) : List Str :=
  history.filterMap fun x => x.request.asks

/-- The database is open and has its tables. -/
def StoreOpen (history : List (StartExchange SocketAddr Connection Listener)) (path : Str)
    (connection : Connection) : Prop :=
  (⟨.openConnection path, .ok connection⟩ : StartExchange SocketAddr Connection Listener) ∈
    history ∧
  (⟨.executeSchema connection, .ok ()⟩ : StartExchange SocketAddr Connection Listener) ∈ history

/-- The address is bound. -/
def Bound (history : List (StartExchange SocketAddr Connection Listener)) (addr : SocketAddr)
    (listener : Listener) : Prop :=
  (⟨.bindListener addr, .ok listener⟩ : StartExchange SocketAddr Connection Listener) ∈ history

/-- Systemd has not been told that the service is ready. -/
def Unready (history : List (StartExchange SocketAddr Connection Listener)) : Prop :=
  ∀ x ∈ history, x.request.isReady = false

/-- A request to the outside is about these settings. -/
def StartRequest.About (settings : Settings) : StartRequest SocketAddr Connection → Prop
  | .initTracing level _ => level = settings.logging.level
  | .createDirAll dir => parentDir settings.queue.dbPath = some dir
  | .openConnection path => path = settings.queue.dbPath
  | .bindListener addr => parsers.socketAddr settings.smtp.bind = some addr
  | _ => True

/-- What every request is like, by the exchanges before it. -/
structure InOrder (history : List (StartExchange SocketAddr Connection Listener))
    (request : StartRequest SocketAddr Connection) : Prop where
  /-- a variable is asked for once, and only when the file refers to it -/
  asked : ∀ name, request.asks = some name → name ∉ askedFor history ∧
    (name = "CHIMNEY_CONFIG".toList ∧ history = [] ∨
      ∃ document, FileRead parsers history document ∧
        References document.matrix.credentials name)
  /-- nothing outside is touched before all of the configuration is valid -/
  touched : request.looks = false → ∃ settings, Loaded parsers history settings ∧
    request.About parsers settings
  ready : request.isReady = true → Unready history ∧ ∃ settings connection addr listener,
    Loaded parsers history settings ∧ StoreOpen history settings.queue.dbPath connection ∧
      parsers.socketAddr settings.smtp.bind = some addr ∧ Bound history addr listener

/-- What `main` has or has not done, by its result. -/
def Announced (history : List (StartExchange SocketAddr Connection Listener)) :
    Except ChimneyError (Started Connection Listener) → Prop
  | .ok started => ¬ Unready history ∧ Loaded parsers history started.settings ∧
      StoreOpen history started.settings.queue.dbPath started.connection ∧
        ∃ addr, parsers.socketAddr started.settings.smtp.bind = some addr ∧
          Bound history addr started.listener
  | .error _ => Unready history

end Order

/-! ## The parts of the start -/

section Parts

variable {SocketAddr Url UserId RoomId Connection Listener : Type}
  {parsers : StartParsers SocketAddr Url UserId RoomId}
  {history history' : List (StartExchange SocketAddr Connection Listener)}
  {x : StartExchange SocketAddr Connection Listener} {document : Document} {settings : Settings}

theorem FileRead.mono (h : FileRead parsers history document) (hext : history <+: history') :
    FileRead parsers history' document := by
  obtain ⟨path, content, hread, htoml⟩ := h
  exact ⟨path, content, hext.subset hread, htoml⟩

theorem Resolved.mono {name : Str} {field value : Option Str}
    (h : Resolved history name field value) (hext : history <+: history') :
    Resolved history' name field value := by
  rw [Resolved] at h ⊢
  split_ifs at h ⊢
  · obtain ⟨text, hvalue, hmem⟩ := h
    exact ⟨text, hvalue, hext.subset hmem⟩
  · exact h

theorem Loaded.mono (h : Loaded parsers history settings) (hext : history <+: history') :
    Loaded parsers history' settings := by
  obtain ⟨⟨document, hread, hsettings, hpassword, htoken, hdevice⟩, hvalid⟩ := h
  exact ⟨⟨document, hread.mono hext, hsettings, hpassword.mono hext, htoken.mono hext,
    hdevice.mono hext⟩, hvalid⟩

theorem Unready.concat (h : Unready history) (hx : x.request.isReady = false) :
    Unready (history ++ [x]) := by
  intro y hy
  rcases List.mem_append.mp hy with hy | hy
  · exact h y hy
  · rw [List.mem_singleton.mp hy]
    exact hx

/-- The file has been read, and no more variables have been asked for than these. -/
structure Reading (parsers : StartParsers SocketAddr Url UserId RoomId) (document : Document)
    (names : List Str) (history : List (StartExchange SocketAddr Connection Listener)) :
    Prop where
  read : FileRead parsers history document
  asked : ∀ name ∈ askedFor history, name ∈ names
  unready : Unready history

theorem overrideField_meets {names : List Str} {name : Str} {field : Option Str}
    (hname : name ∉ names)
    (hreferences : field = some (reference name) → References document.matrix.credentials name)
    (h : Reading parsers document names history) :
    (overrideField name field :
      StartScript SocketAddr Connection Listener (Option Str)).run.Meets (InOrder parsers)
      (fun history result => Unready history ∧ ∀ value, result = .ok value →
        Reading parsers document (name :: names) history ∧ Resolved history name field value)
      history := by
  rw [overrideField]
  split_ifs with hfield
  · rw [Script.meets_bindT]
    refine Script.meets_requestT.mpr ⟨⟨?_, fun hlooks => (by cases hlooks),
      fun hready => (by cases hready)⟩, fun answer => ?_⟩
    · intro name' hname'
      obtain rfl := Option.some.inj hname'
      exact ⟨fun hasked => hname (h.asked _ hasked),
        Or.inr ⟨document, h.read, hreferences hfield⟩⟩
    · have hunready := h.unready.concat (x := ⟨.envVar name, answer⟩) rfl
      cases answer with
      | none =>
          exact ⟨hunready, fun value hvalue => (by cases hvalue)⟩
      | some text =>
          refine ⟨hunready, ?_⟩
          rintro value ⟨⟩
          refine ⟨⟨h.read.mono (List.prefix_append _ _), ?_, hunready⟩, ?_⟩
          · intro name' hname'
            rw [askedFor, List.filterMap_append] at hname'
            rcases List.mem_append.mp hname' with hold | hnew
            · exact List.mem_cons_of_mem _ (h.asked name' hold)
            · rw [List.mem_singleton.mp hnew]
              exact List.mem_cons_self
          · rw [Resolved, if_pos hfield]
            exact ⟨text, rfl, List.mem_append_right _ (List.mem_singleton_self _)⟩
  · refine ⟨h.unready, ?_⟩
    rintro value ⟨⟩
    refine ⟨⟨h.read, fun name' hname' => List.mem_cons_of_mem _ (h.asked name' hname'),
      h.unready⟩, ?_⟩
    rw [Resolved, if_neg hfield]

theorem names_fresh :
    "MATRIX_PASSWORD".toList ∉ ["CHIMNEY_CONFIG".toList] ∧
      "MATRIX_ACCESS_TOKEN".toList ∉ ["MATRIX_PASSWORD".toList, "CHIMNEY_CONFIG".toList] ∧
        "MATRIX_DEVICE_ID".toList ∉
          ["MATRIX_ACCESS_TOKEN".toList, "MATRIX_PASSWORD".toList, "CHIMNEY_CONFIG".toList] := by
  decide

/-- The three overrides, one after the other. -/
theorem applyEnvOverrides_meets
    (h : Reading parsers document ["CHIMNEY_CONFIG".toList] history) :
    (applyEnvOverrides document.settings :
      StartScript SocketAddr Connection Listener Settings).run.Meets (InOrder parsers)
      (fun history result => Unready history ∧ ∀ settings, result = .ok settings →
        settings.toConfig.validate parsers.toParsers = .ok () → Loaded parsers history settings)
      history := by
  rw [applyEnvOverrides, Script.meets_bindT]
  refine (overrideField_meets names_fresh.1 (fun href => Or.inl ⟨rfl, href⟩) h).extending.mono
    (fun _ _ hP => hP) ?_
  rintro history₁ (error | password) ⟨⟨hunready, hpassword⟩, -⟩
  · exact ⟨hunready, fun _ hsettings => (by cases hsettings)⟩
  obtain ⟨hreading₁, hpassword⟩ := hpassword password rfl
  rw [Script.due, Script.meets_bindT]
  refine (overrideField_meets names_fresh.2.1 (fun href => Or.inr (Or.inl ⟨rfl, href⟩))
    hreading₁).extending.mono (fun _ _ hP => hP) ?_
  rintro history₂ (error | accessToken) ⟨⟨hunready, htoken⟩, hext₂⟩
  · exact ⟨hunready, fun _ hsettings => (by cases hsettings)⟩
  obtain ⟨hreading₂, htoken⟩ := htoken accessToken rfl
  rw [Script.due, Script.meets_bindT]
  refine (overrideField_meets names_fresh.2.2 (fun href => Or.inr (Or.inr ⟨rfl, href⟩))
    hreading₂).extending.mono (fun _ _ hP => hP) ?_
  rintro history₃ (error | deviceId) ⟨⟨hunready, hdevice⟩, hext₃⟩
  · exact ⟨hunready, fun _ hsettings => (by cases hsettings)⟩
  obtain ⟨hreading₃, hdevice⟩ := hdevice deviceId rfl
  refine ⟨hunready, ?_⟩
  rintro settings ⟨⟩ hvalid
  exact ⟨⟨document, hreading₃.read, rfl, hpassword.mono (hext₂.trans hext₃), htoken.mono hext₃,
    hdevice⟩, hvalid⟩

/-- A configuration that is returned has been loaded, and nothing has been announced. -/
theorem loadDefault_meets :
    (loadDefault parsers : StartScript SocketAddr Connection Listener Settings).run.Meets
      (InOrder parsers)
      (fun history result => Unready history ∧ ∀ settings, result = .ok settings →
        Loaded parsers history settings) [] := by
  rw [loadDefault, Script.meets_bindT]
  refine Script.meets_requestT.mpr ⟨⟨?_, fun hlooks => (by cases hlooks),
    fun hready => (by cases hready)⟩, fun path => ?_⟩
  · intro name hname
    obtain rfl := Option.some.inj hname
    exact ⟨List.not_mem_nil, Or.inl ⟨rfl, rfl⟩⟩
  have hunready₁ : Unready ([] ++ [(⟨.envVar "CHIMNEY_CONFIG".toList, path⟩ :
      StartExchange SocketAddr Connection Listener)]) := by
    intro x hx
    rw [List.mem_singleton.mp hx]
    rfl
  rw [Script.due, loadFromPath, Script.meets_bindT]
  refine Script.meets_requestT.mpr ⟨⟨fun name hname => (by cases hname),
    fun hlooks => (by cases hlooks), fun hready => (by cases hready)⟩, fun content => ?_⟩
  have hunready₂ := hunready₁.concat
    (x := ⟨.readToString ((path : Option Str).getD "config.toml".toList), content⟩) rfl
  rw [Script.due, Script.meets_bindT, Script.meets_ofExcept]
  cases content with
  | error error => exact ⟨hunready₂, fun _ hsettings => (by cases hsettings)⟩
  | ok content =>
      rw [orConfig, Script.due, Script.meets_bindT, Script.meets_ofExcept]
      cases htoml : parsers.toml content with
      | error error => exact ⟨hunready₂, fun _ hsettings => (by cases hsettings)⟩
      | ok document =>
          have hreading : Reading parsers document ["CHIMNEY_CONFIG".toList]
              ([] ++ [(⟨.envVar "CHIMNEY_CONFIG".toList, path⟩ :
                StartExchange SocketAddr Connection Listener)] ++
                [⟨.readToString ((path : Option Str).getD "config.toml".toList),
                  .ok content⟩]) := by
            refine ⟨⟨_, content, List.mem_append_right _ (List.mem_singleton_self _), htoml⟩,
              ?_, hunready₂⟩
            intro name hname
            exact hname
          rw [orConfig, Script.due, Script.meets_bindT]
          refine (applyEnvOverrides_meets hreading).mono (fun _ _ hP => hP) ?_
          rintro history (error | settings) ⟨hunready, hloaded⟩
          · exact ⟨hunready, fun _ hsettings => (by cases hsettings)⟩
          rw [Script.due, Script.meets_bindT, Script.meets_ofExcept]
          cases hvalid : settings.toConfig.validate parsers.toParsers with
          | error error => exact ⟨hunready, fun _ hsettings => (by cases hsettings)⟩
          | ok _ =>
              refine ⟨hunready, ?_⟩
              rintro settings' ⟨⟩
              exact hloaded settings rfl hvalid

/-- With everything loaded, a request to the outside that announces nothing is in order. -/
theorem Loaded.inOrder (h : Loaded parsers history settings)
    {request : StartRequest SocketAddr Connection} (hasks : request.asks = none)
    (hready : request.isReady = false) (habout : request.About parsers settings) :
    InOrder parsers history request := by
  refine ⟨fun name hname => ?_, fun _ => ⟨settings, h, habout⟩, fun hisReady => ?_⟩
  · rw [hasks] at hname
    cases hname
  · rw [hready] at hisReady
    cases hisReady

/-- The state between loading and the announcement. -/
structure Going (parsers : StartParsers SocketAddr Url UserId RoomId) (settings : Settings)
    (history : List (StartExchange SocketAddr Connection Listener)) : Prop where
  loaded : Loaded parsers history settings
  unready : Unready history

theorem Going.concat (h : Going parsers settings history) (hx : x.request.isReady = false) :
    Going parsers settings (history ++ [x]) := by
  exact ⟨h.loaded.mono (List.prefix_append _ _), h.unready.concat hx⟩

theorem initTracing_meets (h : Going parsers settings history) :
    (initTracing parsers settings.logging :
      StartScript SocketAddr Connection Listener Unit).run.Meets (InOrder parsers)
      (fun history _ => Going parsers settings history) history := by
  rw [initTracing, Script.meets_bindT, Script.meets_ofExcept]
  cases orConfig _ (parsers.envFilter settings.logging.level) with
  | error error => exact h
  | ok _ =>
      rw [Script.due, Script.meets_bindT]
      refine Script.meets_requestT.mpr ⟨h.loaded.inOrder rfl rfl rfl, fun _ => ?_⟩
      exact h.concat rfl

theorem createParent_meets (h : Going parsers settings history) :
    (createParent settings.queue.dbPath :
      StartScript SocketAddr Connection Listener Unit).run.Meets (InOrder parsers)
      (fun history _ => Going parsers settings history) history := by
  rw [createParent]
  split_ifs with hmemory
  · split
    · next parent hparent =>
        split_ifs with hempty
        · rw [Script.meets_bindT]
          refine Script.meets_requestT.mpr ⟨h.loaded.inOrder rfl rfl hparent, fun created => ?_⟩
          exact h.concat rfl
        · exact h
    · exact h
  · exact h

theorem openStore_meets (h : Going parsers settings history) :
    (openStore settings.queue.dbPath :
      StartScript SocketAddr Connection Listener Connection).run.Meets (InOrder parsers)
      (fun history result => Going parsers settings history ∧ ∀ connection,
        result = .ok connection → StoreOpen history settings.queue.dbPath connection)
      history := by
  have hfail : ∀ {history : List (StartExchange SocketAddr Connection Listener)}
      (error : ChimneyError), Going parsers settings history →
      Going parsers settings history ∧ ∀ connection,
        (Except.error error : Except ChimneyError Connection) = .ok connection →
          StoreOpen history settings.queue.dbPath connection := by
    intro history error h
    exact ⟨h, fun _ hconnection => (by cases hconnection)⟩
  rw [openStore, Script.meets_bindT]
  refine Script.meets_requestT.mpr ⟨h.loaded.inOrder rfl rfl trivial, fun spawned => ?_⟩
  have h₁ := h.concat (x := ⟨.spawnBlocking, spawned⟩) rfl
  rw [Script.due, Script.meets_bindT, Script.meets_ofExcept]
  cases orElse _ spawned with
  | error error => exact hfail error h₁
  | ok _ =>
      rw [Script.due, Script.meets_bindT]
      refine (createParent_meets h₁).mono (fun _ _ hP => hP) ?_
      rintro history₂ (error | _) h₂
      · exact hfail error h₂
      rw [Script.due, Script.meets_bindT]
      refine Script.meets_requestT.mpr ⟨h₂.loaded.inOrder rfl rfl rfl, fun opened => ?_⟩
      have h₃ := h₂.concat (x := ⟨.openConnection settings.queue.dbPath, opened⟩) rfl
      rw [Script.due, Script.meets_bindT, Script.meets_ofExcept]
      cases opened with
      | error error => exact hfail _ h₃
      | ok connection =>
          rw [orElse, Script.due, Script.meets_bindT]
          refine Script.meets_requestT.mpr ⟨h₃.loaded.inOrder rfl rfl trivial, fun executed => ?_⟩
          have h₄ := h₃.concat (x := ⟨.executeSchema connection, executed⟩) rfl
          rw [Script.due, Script.meets_bindT, Script.meets_ofExcept]
          cases executed with
          | error error => exact hfail _ h₄
          | ok _ =>
              refine ⟨h₄, ?_⟩
              rintro connection' ⟨⟩
              exact ⟨by simp, by simp⟩

theorem bindScript_meets (h : Going parsers settings history) :
    (bindScript parsers settings.smtp.bind :
      StartScript SocketAddr Connection Listener Listener).run.Meets (InOrder parsers)
      (fun history result => Going parsers settings history ∧ ∀ listener,
        result = .ok listener → ∃ addr, parsers.socketAddr settings.smtp.bind = some addr ∧
          Bound history addr listener) history := by
  rw [bindScript, Script.meets_bindT, Script.meets_ofExcept]
  cases haddr : parseBind parsers.toParsers settings.smtp.bind
      "smtp.bind must be a valid SocketAddr".toList with
  | error error => exact ⟨h, fun _ hlistener => (by cases hlistener)⟩
  | ok addr =>
      have haddr := parseBind_ok_iff.mp haddr
      rw [Script.due, Script.meets_bindT]
      refine Script.meets_requestT.mpr ⟨h.loaded.inOrder rfl rfl haddr, fun bound => ?_⟩
      have h₁ := h.concat (x := ⟨.bindListener addr, bound⟩) rfl
      cases bound with
      | error error => exact ⟨h₁, fun _ hlistener => (by cases hlistener)⟩
      | ok listener =>
          refine ⟨h₁, ?_⟩
          rintro listener' ⟨⟩
          exact ⟨addr, haddr, List.mem_append_right _ (List.mem_singleton_self _)⟩

theorem startScript_meets :
    (startScript parsers :
      StartScript SocketAddr Connection Listener (Started Connection Listener)).run.Meets
      (InOrder parsers) (Announced parsers) [] := by
  rw [startScript, Script.meets_bindT]
  refine loadDefault_meets.mono (fun _ _ hP => hP) ?_
  rintro history₁ (error | settings) ⟨hunready, hloaded⟩
  · exact hunready
  have h₁ : Going parsers settings history₁ := ⟨hloaded settings rfl, hunready⟩
  rw [Script.due, Script.meets_bindT]
  refine (initTracing_meets h₁).mono (fun _ _ hP => hP) ?_
  rintro history₂ (error | _) h₂
  · exact h₂.unready
  rw [Script.due, Script.meets_bindT]
  refine (openStore_meets h₂).mono (fun _ _ hP => hP) ?_
  rintro history₃ (error | connection) ⟨h₃, hopen⟩
  · exact h₃.unready
  have hopen := hopen connection rfl
  rw [Script.due, Script.meets_bindT]
  refine (bindScript_meets h₃).extending.mono (fun _ _ hP => hP) ?_
  rintro history₄ (error | listener) ⟨⟨h₄, hbound⟩, hext⟩
  · exact h₄.unready
  obtain ⟨addr, haddr, hbound⟩ := hbound listener rfl
  have hopen₄ : StoreOpen history₄ settings.queue.dbPath connection :=
    ⟨hext.subset hopen.1, hext.subset hopen.2⟩
  rw [Script.due, Script.meets_bindT]
  refine Script.meets_requestT.mpr ⟨⟨fun name hname => (by cases hname),
    fun _ => ⟨settings, h₄.loaded, trivial⟩, fun _ => ⟨h₄.unready, settings, connection, addr,
      listener, h₄.loaded, hopen₄, haddr, hbound⟩⟩, fun answer => ?_⟩
  refine ⟨?_, h₄.loaded.mono (List.prefix_append _ _),
    ⟨List.mem_append_left _ hopen₄.1, List.mem_append_left _ hopen₄.2⟩, addr, haddr,
    List.mem_append_left _ hbound⟩
  intro hunready
  have hready := hunready _ (List.mem_append_right history₄ (List.mem_singleton_self _))
  cases hready

/-- **The start is in order**, whatever is answered: nothing is touched before the whole
configuration is valid, the environment is asked for nothing but what is referred to, and
ready is announced when and only when the database is open and the address is bound. -/
theorem start_in_order (parsers : StartParsers SocketAddr Url UserId RoomId) :
    (∀ history request, (startScript parsers : StartScript SocketAddr Connection Listener
        (Started Connection Listener)).run.Asks history request →
      InOrder parsers history request) ∧
    ∀ history result, (startScript parsers : StartScript SocketAddr Connection Listener
        (Started Connection Listener)).run.Yields history result →
      Announced parsers history result := by
  exact ⟨fun _ _ h => startScript_meets.asks h, fun _ _ h => startScript_meets.yields h⟩

end Parts

/-! ## A start with a token from the environment -/

/-- `Matrix.botConfig` as a file that leaves the token to the environment. -/
def botDocument : Document where
  smtp :=
    { bind := "127.0.0.1:2525".toList, maxMessageSize := 1024, timeout := 30,
      maxConnections := none, maxSessionSeconds := none }
  matrix :=
    { homeserver := "https://example.org".toList, userId := "@bot:example.org".toList,
      deviceName := "chimney-post".toList, roomId := "!room:example.org".toList,
      storePath := "/tmp/matrix".toList, requireE2ee := none, messageTemplate := none,
      routes := none,
      credentials :=
        { password := none, accessToken := some (reference "MATRIX_ACCESS_TOKEN".toList),
          deviceId := some "DEVICE".toList } }
  logging := { level := "info".toList, format := "json".toList }
  queue := { maxRetries := 5, retryBackoff := 60, dbPath := none, maxLen := none }

/-- Parsers that know this file. -/
def botStartParsers : StartParsers Str Str Str Str where
  toParsers := Matrix.botParsers
  toml := fun content =>
    if content = "bot".toList then .ok botDocument else .error "TOML parse error".toList
  envFilter := fun level =>
    if level = "info".toList then .ok () else .error "invalid filter directive".toList

/-- What is read. -/
def botRead : List (StartExchange Str Nat Nat) :=
  [⟨.envVar "CHIMNEY_CONFIG".toList, none⟩, ⟨.readToString "config.toml".toList, .ok "bot".toList⟩,
    ⟨.envVar "MATRIX_ACCESS_TOKEN".toList, some "token".toList⟩]

/-- What is touched after that. -/
def botTouched : List (StartExchange Str Nat Nat) :=
  [⟨.initTracing "info".toList true, ()⟩, ⟨.spawnBlocking, .ok ()⟩,
    ⟨.createDirAll "/var/lib/chimney-post".toList, .ok ()⟩,
    ⟨.openConnection defaultQueueDbPath, .ok 0⟩, ⟨.executeSchema 0, .ok ()⟩,
    ⟨.bindListener "127.0.0.1:2525".toList, .ok 7⟩]

def botReady : List (StartExchange Str Nat Nat) :=
  [⟨.notifyReady, ()⟩]

/-- The configuration with the token in its place. -/
def botSettings : Settings :=
  { botDocument.settings with
    matrix := { botDocument.settings.matrix with
      credentials :=
        { password := none, accessToken := some "token".toList,
          deviceId := some "DEVICE".toList } } }

theorem botStart_in_order :
    InOrder botStartParsers (botRead ++ botTouched) .notifyReady ∧
    Announced botStartParsers (botRead ++ botTouched ++ botReady)
      (.ok ⟨botSettings, 0, 7⟩) := by
  have hlaw := @start_in_order Str Str Str Str Nat Nat botStartParsers
  exact ⟨hlaw.1 (botRead ++ botTouched) _ ⟨_, .ask (.ask (.ask (.ask (.ask (.ask (.ask (.ask
      (.ask (.refl _)))))))))⟩,
    hlaw.2 (botRead ++ botTouched ++ botReady) (.ok ⟨botSettings, 0, 7⟩) (.ask (.ask
      (.ask (.ask (.ask (.ask (.ask (.ask (.ask (.ask (.refl _)))))))))))⟩

end ChimneyPost
