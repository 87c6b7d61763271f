import ChimneyPost.Matrix.Routing

/-!
# Configuration

`src/config.rs`: the values that `Config::validate` and what runs after it read, and the
checks in their order.  What other crates parse (socket addresses, URLs, user and room ids,
templates) is parsed by the functions of `Parsers`, each a function of its string.
-/

namespace ChimneyPost

open Matrix (RouteConfig Router)

structure SmtpConfig where
  bind : Str
  maxMessageSize : Nat
  maxConnections : Nat
  maxSessionSeconds : Nat
deriving DecidableEq

structure MatrixCredentials where
  password : Option Str
  accessToken : Option Str
  deviceId : Option Str
deriving DecidableEq

structure MatrixConfig where
  homeserver : Str
  userId : Str
  deviceName : Str
  roomId : Str
  storePath : Str
  requireE2ee : Bool
  messageTemplate : Str
  routes : List RouteConfig
  credentials : MatrixCredentials
deriving DecidableEq

structure QueueConfig where
  retryBackoff : Nat
  dbPath : Str
deriving DecidableEq

structure Config where
  smtp : SmtpConfig
  matrix : MatrixConfig
  queue : QueueConfig
deriving DecidableEq

/-- The parsers of other crates, with the texts of their errors. -/
structure Parsers (SocketAddr Url UserId RoomId : Type) where
  socketAddr : Str → Option SocketAddr
  url : Str → Except Str Url
  userId : Str → Except Str UserId
  roomId : Str → Except Str RoomId
  /-- `Environment::add_template`, `get_template` and `render` for the trial message -/
  addTemplate : Str → Except Str Unit
  getTemplate : Str → Except Str Unit
  render : Str → Except Str Str

/-! ## Checks -/

section Checks

variable {α : Type}

/-- Return a configuration error unless the condition holds. -/
def require (p : Prop) [Decidable p] (text : Str) : Except ChimneyError Unit :=
  if p then .ok () else .error (.config text)

/-- `map_err` into a configuration error. -/
def orConfig (text : Str → Str) : Except Str α → Except ChimneyError α
  | .ok a => .ok a
  | .error error => .error (.config (text error))

theorem require_ok_iff {p : Prop} [Decidable p] {text : Str} {u : Unit} :
    require p text = .ok u ↔ p := by
  rw [require]
  split_ifs with hp
  · exact iff_of_true rfl hp
  · exact iff_of_false (by simp) hp

theorem orConfig_ok_iff {text : Str → Str} {x : Except Str α} {a : α} :
    orConfig text x = .ok a ↔ x = .ok a := by
  cases x with
  | error error =>
      rw [orConfig]
      simp
  | ok a' =>
      rw [orConfig]
      simp

/-- A sequence of checks passes when each of them does. -/
theorem bind_ok_iff {β : Type} {x : Except ChimneyError α} {f : α → Except ChimneyError β}
    {b : β} : (x >>= f) = .ok b ↔ ∃ a, x = .ok a ∧ f a = .ok b := by
  cases x with
  | error error =>
      constructor
      · intro h
        cases h
      · rintro ⟨a, h, -⟩
        cases h
  | ok a =>
      constructor
      · intro h
        exact ⟨a, rfl, h⟩
      · rintro ⟨a', h, hf⟩
        cases h
        exact hf

end Checks

def isBlank (value : Str) : Bool :=
  trim value = []

/-- `Router::from_config`. -/
def Matrix.Router.fromConfig {RoomId : Type} (parseId : Str → Except Str RoomId)
    (matrix : MatrixConfig) : Except ChimneyError (Router RoomId) :=
  Router.build parseId matrix.roomId matrix.routes

/-- The checks of the credentials. -/
def MatrixCredentials.validate (credentials : MatrixCredentials) : Except ChimneyError Unit := do
  require (¬ (credentials.password = none ∧ credentials.accessToken = none))
    "matrix credentials require password or access_token".toList
  require (¬ (credentials.password ≠ none ∧ credentials.accessToken ≠ none))
    "matrix credentials must use either password or access_token, not both".toList
  match credentials.accessToken with
  | none => return ()
  | some accessToken => do
      require (¬ isBlank accessToken)
        "matrix.credentials.access_token must not be empty".toList
      require (credentials.deviceId.any (fun value => !isBlank value))
        "matrix.credentials.device_id is required when using access_token".toList

section Validate

variable {SocketAddr Url UserId RoomId : Type} (parsers : Parsers SocketAddr Url UserId RoomId)

/-- The message template is parsed and rendered once on trial. -/
def validateTemplate (messageTemplate : Str) : Except ChimneyError Unit := do
  orConfig (fun error => "matrix.message_template failed to parse: ".toList ++ error)
    (parsers.addTemplate messageTemplate)
  orConfig (fun error => "matrix.message_template internal error: ".toList ++ error)
    (parsers.getTemplate messageTemplate)
  let _ ← orConfig (fun error => "matrix.message_template trial render failed: ".toList ++ error)
    (parsers.render messageTemplate)
  return ()

/-- `smtp.bind` as a socket address, with the text for one that is none. -/
def parseBind (bind text : Str) : Except ChimneyError SocketAddr :=
  match parsers.socketAddr bind with
  | some addr => .ok addr
  | none => .error (.config text)

/-- `Config::validate`. -/
def Config.validate (config : Config) : Except ChimneyError Unit := do
  let _ ← parseBind parsers config.smtp.bind "smtp.bind must be a valid IP:PORT address".toList
  require (config.smtp.maxMessageSize ≠ 0)
    "smtp.max_message_size must be greater than zero".toList
  require (config.smtp.maxConnections ≠ 0)
    "smtp.max_connections must be greater than zero".toList
  require (config.smtp.maxSessionSeconds ≠ 0)
    "smtp.max_session_seconds must be greater than zero".toList
  require (¬ isBlank config.queue.dbPath) "queue.db_path must not be empty".toList
  require (config.queue.retryBackoff ≠ 0)
    ("queue.retry_backoff must be greater than zero (a zero backoff would " ++
      "retry a failing message in a tight loop)").toList
  require (¬ isBlank config.matrix.homeserver) "matrix.homeserver must not be empty".toList
  let _ ← orConfig (fun error => "invalid matrix.homeserver URL: ".toList ++ error)
    (parsers.url config.matrix.homeserver)
  require (¬ isBlank config.matrix.userId) "matrix.user_id must not be empty".toList
  let _ ← orConfig (fun error => "invalid matrix.user_id: ".toList ++ error)
    (parsers.userId config.matrix.userId)
  require (¬ isBlank config.matrix.storePath) "matrix.store_path must not be empty".toList
  let _ ← Router.fromConfig parsers.roomId config.matrix
  config.matrix.credentials.validate
  validateTemplate parsers config.matrix.messageTemplate

end Validate

/-! ## What passes -/

/-- Exactly one way to log in: a token with its device, or a password. -/
inductive Credential where
  | token (accessToken deviceId : Str)
  | login (password : Str) (deviceId : Option Str)
deriving DecidableEq

/-- The configured form of a credential. -/
def Credential.configured : Credential → MatrixCredentials
  | .token accessToken deviceId =>
      { password := none, accessToken := some accessToken, deviceId := some deviceId }
  | .login password deviceId =>
      { password := some password, accessToken := none, deviceId := deviceId }

theorem credentials_of_validate {credentials : MatrixCredentials}
    (h : credentials.validate = .ok ()) :
    ∃ credential : Credential, credential.configured = credentials := by
  obtain ⟨password, accessToken, deviceId⟩ := credentials
  rw [MatrixCredentials.validate] at h
  obtain ⟨_, hsome, h⟩ := bind_ok_iff.mp h
  obtain ⟨_, hone, h⟩ := bind_ok_iff.mp h
  have hsome := require_ok_iff.mp hsome
  have hone := require_ok_iff.mp hone
  cases accessToken with
  | none =>
      cases password with
      | none =>
          exact absurd ⟨rfl, rfl⟩ hsome
      | some password =>
          exact ⟨.login password deviceId, rfl⟩
  | some accessToken =>
      obtain ⟨_, _, hdevice⟩ := bind_ok_iff.mp h
      have hdevice := require_ok_iff.mp hdevice
      cases deviceId with
      | none =>
          cases hdevice
      | some deviceId =>
          cases password with
          | none =>
              exact ⟨.token accessToken deviceId, rfl⟩
          | some password =>
              exact absurd ⟨by simp, by simp⟩ hone

/-- A configuration with everything in it parsed. -/
structure Plan (SocketAddr Url UserId RoomId : Type) where
  bindAddr : SocketAddr
  homeserverUrl : Url
  userId : UserId
  router : Router RoomId
  credential : Credential

section Plan

variable {SocketAddr Url UserId RoomId : Type} (parsers : Parsers SocketAddr Url UserId RoomId)

/-- Each value of the plan is what the parsers make of the configured one. -/
structure Plan.Of (config : Config) (plan : Plan SocketAddr Url UserId RoomId) : Prop where
  bindAddr : parsers.socketAddr config.smtp.bind = some plan.bindAddr
  homeserverUrl : parsers.url config.matrix.homeserver = .ok plan.homeserverUrl
  userId : parsers.userId config.matrix.userId = .ok plan.userId
  router : Router.fromConfig parsers.roomId config.matrix = .ok plan.router
  credential : plan.credential.configured = config.matrix.credentials

variable {parsers}

theorem parseBind_ok_iff {bind text : Str} {addr : SocketAddr} :
    parseBind parsers bind text = .ok addr ↔ parsers.socketAddr bind = some addr := by
  rw [parseBind]
  cases parsers.socketAddr bind with
  | none =>
      simp
  | some addr' =>
      simp

/-- **What passes validation has a plan.** -/
theorem exists_plan_of_validate {config : Config} (h : config.validate parsers = .ok ()) :
    ∃ plan : Plan SocketAddr Url UserId RoomId, plan.Of parsers config := by
  rw [Config.validate] at h
  obtain ⟨bindAddr, hbind, h⟩ := bind_ok_iff.mp h
  obtain ⟨_, -, h⟩ := bind_ok_iff.mp h
  obtain ⟨_, -, h⟩ := bind_ok_iff.mp h
  obtain ⟨_, -, h⟩ := bind_ok_iff.mp h
  obtain ⟨_, -, h⟩ := bind_ok_iff.mp h
  obtain ⟨_, -, h⟩ := bind_ok_iff.mp h
  obtain ⟨_, -, h⟩ := bind_ok_iff.mp h
  obtain ⟨homeserverUrl, hurl, h⟩ := bind_ok_iff.mp h
  obtain ⟨_, -, h⟩ := bind_ok_iff.mp h
  obtain ⟨userId, huser, h⟩ := bind_ok_iff.mp h
  obtain ⟨_, -, h⟩ := bind_ok_iff.mp h
  obtain ⟨router, hrouter, h⟩ := bind_ok_iff.mp h
  obtain ⟨_, hcredentials, -⟩ := bind_ok_iff.mp h
  obtain ⟨credential, hcredential⟩ := credentials_of_validate hcredentials
  exact ⟨⟨bindAddr, homeserverUrl, userId, router, credential⟩, parseBind_ok_iff.mp hbind,
    orConfig_ok_iff.mp hurl, orConfig_ok_iff.mp huser, hrouter, hcredential⟩

end Plan

end ChimneyPost
