import ChimneyPost.Config
import ChimneyPost.Smtp.Mime

/-!
# Connecting

`bind_smtp` of `src/smtp/server.rs` and `MatrixClient::connect` of `src/matrix/client.rs`.
The operating system and the homeserver answer as `World` says, in any way: every result
below is for all answers.

`Plan.authenticate` logs in with values that are parsed already and has no way to a
configuration error.  On what passed validation `MatrixClient::connect` does the same up
to the homeserver's answer to `whoami` (`settled_of_validate`).
-/

namespace ChimneyPost
namespace Matrix

open Smtp (findStr)

/-- An error of the Matrix SDK: its text, and whether the crypto store's mismatch is among
its sources. -/
structure SdkError where
  text : Str
  mismatchedSource : Bool
deriving DecidableEq

/-- `MatrixSession`, without a refresh token. -/
structure MatrixSession (UserId : Type) where
  userId : UserId
  deviceId : Str
  accessToken : Str
deriving DecidableEq

/-- The arguments of a password login. -/
structure PasswordLogin where
  userId : Str
  password : Str
  deviceName : Str
  deviceId : Option Str
deriving DecidableEq

/-- The kinds of I/O error that clearing the crypto store tells apart. -/
inductive RemoveError where
  | notFound
  | other (text : Str)
deriving DecidableEq

/-- The answers from outside; clients are counted as they are built. -/
structure World (SocketAddr Url UserId Client Listener : Type) where
  bindListener : SocketAddr → Except Str Listener
  createDirAll : Str → Except Str Unit
  buildClient : Nat → Url → Str → Except Str Client
  restoreSession : Client → MatrixSession UserId → Except SdkError Unit
  login : Client → PasswordLogin → Except SdkError Unit
  removeFile : Str → Except RemoveError Unit
  whoami : Client → Except Str (Option Str)
  syncOnce : Client → Except Str Unit

def messageIndicatesMismatch (message : Str) : Bool :=
  (findStr "doesn't match the account in the constructor".toList message).isSome

def isMismatchedAccount (error : SdkError) : Bool :=
  error.mismatchedSource || messageIndicatesMismatch error.text

def verifyDeviceId (configured server : Option Str) : Except ChimneyError Unit :=
  match configured, server with
  | some want, some got =>
      if want ≠ got then
        .error (.config ("configured matrix.credentials.device_id (".toList ++ want ++
          ") does not match the device the homeserver issued for this session (".toList ++ got ++
          "); fix device_id or clear the crypto store".toList))
      else .ok ()
  | _, _ => .ok ()

/-- `Path::join` with a file name. -/
def joinPath (dir file : Str) : Str :=
  if dir = [] ∨ dir.getLast? = some '/' then dir ++ file else dir ++ '/' :: file

section Connect

variable {SocketAddr Url UserId RoomId Client Listener : Type}
  (parsers : Parsers SocketAddr Url UserId RoomId)
  (world : World SocketAddr Url UserId Client Listener)

/-- `map_err` into a Matrix error. -/
def orMatrix {α : Type} (text : Str) : Except Str α → Except ChimneyError α
  | .ok a => .ok a
  | .error error => .error (.matrix (text ++ error))

/-- `bind_smtp`. -/
def bindSmtp (config : Config) : Except ChimneyError Listener := do
  let bindAddr ← parseBind parsers config.smtp.bind
    "smtp.bind must be a valid SocketAddr".toList
  match world.bindListener bindAddr with
  | .ok listener => .ok listener
  | .error error => .error (.io error)

def buildClient (built : Nat) (homeserverUrl : Url) (storePath : Str) :
    Except ChimneyError Client :=
  orMatrix "Matrix client build failed: ".toList (world.buildClient built homeserverUrl storePath)

/-- The files of the crypto store, one after the other. -/
def removeFiles : List Str → Except ChimneyError Unit
  | [] => .ok ()
  | path :: paths =>
      match world.removeFile path with
      | .ok _ => removeFiles paths
      | .error .notFound => removeFiles paths
      | .error (.other error) =>
          .error (.matrix ("failed to clear crypto store file ".toList ++ path ++ ": ".toList ++
            error))

def resetCryptoStore (storePath : Str) : Except ChimneyError Unit :=
  removeFiles world (["".toList, "-wal".toList, "-shm".toList].map (fun suffix =>
    joinPath storePath ("matrix-sdk-crypto.sqlite3".toList ++ suffix)))

/-- Log in; when the crypto store holds another device, clear it and try once more. -/
def loginOrReset (homeserverUrl : Url) (storePath : Str)
    (attempt : Client → Except SdkError Unit) (failed failedAgain : Str) (client : Client) :
    Except ChimneyError Client :=
  match attempt client with
  | .ok _ => .ok client
  | .error error =>
      if isMismatchedAccount error then do
        resetCryptoStore world storePath
        let client ← buildClient world 1 homeserverUrl storePath
        match attempt client with
        | .ok _ => .ok client
        | .error error => .error (.matrix (failedAgain ++ error.text))
      else
        .error (.matrix (failed ++ error.text))

/-- The branch of the access token. -/
def tokenLogin (homeserverUrl : Url) (storePath : Str) (session : MatrixSession UserId)
    (client : Client) : Except ChimneyError Client :=
  loginOrReset world homeserverUrl storePath
    (fun client => world.restoreSession client session)
    "Matrix access token login failed: ".toList
    "Matrix access token login failed after store reset: ".toList client

/-- The branch of the password. -/
def passwordLogin (homeserverUrl : Url) (storePath : Str) (login : PasswordLogin)
    (client : Client) : Except ChimneyError Client :=
  loginOrReset world homeserverUrl storePath
    (fun client => world.login client login)
    "Matrix login failed: ".toList
    "Matrix login failed after store reset: ".toList client

/-- The login with the configured credentials. -/
def logIn (matrix : MatrixConfig) (homeserverUrl : Url) (userId : UserId) (client : Client) :
    Except ChimneyError Client :=
  match matrix.credentials.accessToken with
  | some accessToken =>
      match matrix.credentials.deviceId with
      | some deviceId =>
          tokenLogin world homeserverUrl matrix.storePath
            { userId := userId, deviceId := deviceId, accessToken := accessToken } client
      | none =>
          .error (.config
            "matrix.credentials.device_id is required when using access_token".toList)
  | none =>
      match matrix.credentials.password with
      | some password =>
          passwordLogin world homeserverUrl matrix.storePath
            { userId := matrix.userId, password := password, deviceName := matrix.deviceName,
              deviceId := matrix.credentials.deviceId } client
      | none =>
          .error (.config "matrix credentials require password or access_token".toList)

/-- What is known when the homeserver has answered `whoami`. -/
structure Authenticated (UserId RoomId Client : Type) where
  client : Client
  userId : UserId
  router : Router RoomId
  serverDeviceId : Option Str

/-- `MatrixClient::connect` up to the answer to `whoami`. -/
def authenticate (config : Config) : Except ChimneyError (Authenticated UserId RoomId Client) := do
  let homeserverUrl ← orConfig (fun error => "invalid matrix.homeserver URL: ".toList ++ error)
    (parsers.url config.matrix.homeserver)
  orMatrix ("failed to create store directory ".toList ++ config.matrix.storePath ++ ": ".toList)
    (world.createDirAll config.matrix.storePath)
  let client ← buildClient world 0 homeserverUrl config.matrix.storePath
  let userId ← orConfig (fun error => "invalid matrix.user_id: ".toList ++ error)
    (parsers.userId config.matrix.userId)
  let router ← Router.fromConfig parsers.roomId config.matrix
  let client ← logIn world config.matrix homeserverUrl userId client
  let serverDeviceId ← orMatrix "Matrix whoami failed: ".toList (world.whoami client)
  return { client := client, userId := userId, router := router, serverDeviceId := serverDeviceId }

structure MatrixClient (UserId RoomId Client : Type) where
  client : Client
  router : Router RoomId
  userId : UserId
  requireE2ee : Bool
  messageTemplate : Str

/-- `MatrixClient::connect`; the cross-signing set-up at its end never fails it. -/
def connect (config : Config) : Except ChimneyError (MatrixClient UserId RoomId Client) := do
  let session ← authenticate parsers world config
  verifyDeviceId config.matrix.credentials.deviceId session.serverDeviceId
  orMatrix "Matrix initial sync failed: ".toList (world.syncOnce session.client)
  return { client := session.client, router := session.router, userId := session.userId,
           requireE2ee := config.matrix.requireE2ee,
           messageTemplate := config.matrix.messageTemplate }

/-! ## With everything parsed -/

/-- The login with a credential. -/
def logInPlan (matrix : MatrixConfig) (plan : Plan SocketAddr Url UserId RoomId)
    (client : Client) : Except ChimneyError Client :=
  match plan.credential with
  | .token accessToken deviceId =>
      tokenLogin world plan.homeserverUrl matrix.storePath
        { userId := plan.userId, deviceId := deviceId, accessToken := accessToken } client
  | .login password deviceId =>
      passwordLogin world plan.homeserverUrl matrix.storePath
        { userId := matrix.userId, password := password, deviceName := matrix.deviceName,
          deviceId := deviceId } client

/-- What a plan does up to the answer to `whoami`. -/
def authenticatePlan (matrix : MatrixConfig) (plan : Plan SocketAddr Url UserId RoomId) :
    Except ChimneyError (Authenticated UserId RoomId Client) := do
  orMatrix ("failed to create store directory ".toList ++ matrix.storePath ++ ": ".toList)
    (world.createDirAll matrix.storePath)
  let client ← buildClient world 0 plan.homeserverUrl matrix.storePath
  let client ← logInPlan world matrix plan client
  let serverDeviceId ← orMatrix "Matrix whoami failed: ".toList (world.whoami client)
  return { client := client, userId := plan.userId, router := plan.router,
           serverDeviceId := serverDeviceId }

/-- The listener of a plan. -/
def bindPlan (plan : Plan SocketAddr Url UserId RoomId) : Except ChimneyError Listener :=
  match world.bindListener plan.bindAddr with
  | .ok listener => .ok listener
  | .error error => .error (.io error)

/-! ## No way to a configuration error -/

/-- Every error is one of Matrix. -/
def MatrixOnly {α : Type} (x : Except ChimneyError α) : Prop :=
  ∀ error, x = .error error → ∃ text, error = .matrix text

theorem MatrixOnly.bind {α β : Type} {x : Except ChimneyError α} {f : α → Except ChimneyError β}
    (hx : MatrixOnly x) (hf : ∀ a, MatrixOnly (f a)) : MatrixOnly (x >>= f) := by
  intro error h
  cases x with
  | error error' =>
      cases h
      exact hx error rfl
  | ok a =>
      exact hf a error h

theorem matrixOnly_ok {α : Type} (a : α) : MatrixOnly (.ok a) := by
  intro error h
  cases h

theorem matrixOnly_error {α : Type} (text : Str) :
    MatrixOnly (.error (.matrix text) : Except ChimneyError α) := by
  intro error h
  cases h
  exact ⟨text, rfl⟩

theorem matrixOnly_orMatrix {α : Type} (text : Str) (x : Except Str α) :
    MatrixOnly (orMatrix text x) := by
  cases x with
  | error error =>
      exact matrixOnly_error _
  | ok a =>
      exact matrixOnly_ok a

variable {world}

theorem matrixOnly_removeFiles (paths : List Str) : MatrixOnly (removeFiles world paths) := by
  induction paths with
  | nil =>
      exact matrixOnly_ok ()
  | cons path paths ih =>
      rw [removeFiles]
      cases world.removeFile path with
      | ok _ =>
          exact ih
      | error error =>
          cases error with
          | notFound =>
              exact ih
          | other text =>
              exact matrixOnly_error _

theorem matrixOnly_loginOrReset (homeserverUrl : Url) (storePath : Str)
    (attempt : Client → Except SdkError Unit) (failed failedAgain : Str) (client : Client) :
    MatrixOnly (loginOrReset world homeserverUrl storePath attempt failed failedAgain client) := by
  rw [loginOrReset]
  cases attempt client with
  | ok _ =>
      exact matrixOnly_ok client
  | error error =>
      dsimp only
      split_ifs
      · apply (matrixOnly_removeFiles _).bind
        intro _
        apply (matrixOnly_orMatrix _ _).bind
        intro fresh
        cases attempt fresh with
        | ok _ =>
            exact matrixOnly_ok fresh
        | error error =>
            exact matrixOnly_error _
      · exact matrixOnly_error _

theorem matrixOnly_logInPlan (matrix : MatrixConfig) (plan : Plan SocketAddr Url UserId RoomId)
    (client : Client) : MatrixOnly (logInPlan world matrix plan client) := by
  rw [logInPlan]
  cases plan.credential with
  | token accessToken deviceId =>
      exact matrixOnly_loginOrReset _ _ _ _ _ client
  | login password deviceId =>
      exact matrixOnly_loginOrReset _ _ _ _ _ client

theorem matrixOnly_authenticatePlan (matrix : MatrixConfig)
    (plan : Plan SocketAddr Url UserId RoomId) :
    MatrixOnly (authenticatePlan world matrix plan) := by
  apply (matrixOnly_orMatrix _ _).bind
  intro _
  apply (matrixOnly_orMatrix _ _).bind
  intro client
  apply (matrixOnly_logInPlan matrix plan client).bind
  intro client
  apply (matrixOnly_orMatrix _ _).bind
  intro serverDeviceId
  exact matrixOnly_ok _

/-! ## After validation -/

variable {parsers}

theorem ok_bind {α β : Type} (a : α) (f : α → Except ChimneyError β) :
    ((.ok a : Except ChimneyError α) >>= f) = f a := by
  rfl

/-- The configured credential is found, with its device. -/
theorem logIn_eq {config : Config} {plan : Plan SocketAddr Url UserId RoomId}
    (h : plan.Of parsers config) (client : Client) :
    logIn world config.matrix plan.homeserverUrl plan.userId client =
      logInPlan world config.matrix plan client := by
  rw [logIn, logInPlan, ← h.credential]
  cases plan.credential with
  | token accessToken deviceId =>
      rfl
  | login password deviceId =>
      rfl

theorem authenticate_eq {config : Config} {plan : Plan SocketAddr Url UserId RoomId}
    (h : plan.Of parsers config) :
    authenticate parsers world config = authenticatePlan world config.matrix plan := by
  have hurl : orConfig (fun error => "invalid matrix.homeserver URL: ".toList ++ error)
      (parsers.url config.matrix.homeserver) = .ok plan.homeserverUrl :=
    orConfig_ok_iff.mpr h.homeserverUrl
  have huser : orConfig (fun error => "invalid matrix.user_id: ".toList ++ error)
      (parsers.userId config.matrix.userId) = .ok plan.userId :=
    orConfig_ok_iff.mpr h.userId
  rw [authenticate, hurl, ok_bind, authenticatePlan]
  simp only [huser, h.router, ok_bind, logIn_eq h]

theorem bindSmtp_eq {config : Config} {plan : Plan SocketAddr Url UserId RoomId}
    (h : plan.Of parsers config) : bindSmtp parsers world config = bindPlan world plan := by
  rw [bindSmtp, parseBind_ok_iff.mpr h.bindAddr]
  rfl

/-- The only configuration error left is a device that the homeserver does not know by the
configured name. -/
theorem verifyDeviceId_config {configured server : Option Str} {error : ChimneyError}
    (h : verifyDeviceId configured server = .error error) :
    ∃ want got, configured = some want ∧ server = some got ∧ want ≠ got := by
  cases configured with
  | none =>
      cases h
  | some want =>
      cases server with
      | none =>
          cases h
      | some got =>
          rw [verifyDeviceId] at h
          split_ifs at h with hne
          exact ⟨want, got, rfl, rfl, hne⟩

variable (parsers)

/-- What is settled about a configuration by its plan, whatever is answered from outside. -/
structure Settled (config : Config) (plan : Plan SocketAddr Url UserId RoomId) : Prop where
  parsed : plan.Of parsers config
  bind : ∀ {Listener Client : Type} (world : World SocketAddr Url UserId Client Listener),
    bindSmtp parsers world config = bindPlan world plan
  login : ∀ {Listener Client : Type} (world : World SocketAddr Url UserId Client Listener),
    authenticate parsers world config = authenticatePlan world config.matrix plan
  bindError : ∀ {Listener Client : Type} (world : World SocketAddr Url UserId Client Listener)
    (text : Str), bindSmtp parsers world config ≠ .error (.config text)
  loginError : ∀ {Listener Client : Type} (world : World SocketAddr Url UserId Client Listener)
    (text : Str), authenticate parsers world config ≠ .error (.config text)
  /-- a configuration error of the whole is about the device that `whoami` reports -/
  connectError : ∀ {Listener Client : Type} (world : World SocketAddr Url UserId Client Listener)
    (text : Str), connect parsers world config = .error (.config text) → ∃ session want got,
      authenticate parsers world config = .ok session ∧
        config.matrix.credentials.deviceId = some want ∧ session.serverDeviceId = some got ∧
          want ≠ got

variable {parsers}

theorem connect_config {config : Config} {plan : Plan SocketAddr Url UserId RoomId}
    (h : plan.Of parsers config) {text : Str}
    (hconnect : connect parsers world config = .error (.config text)) :
    ∃ session want got, authenticate parsers world config = .ok session ∧
      config.matrix.credentials.deviceId = some want ∧ session.serverDeviceId = some got ∧
        want ≠ got := by
  rw [connect] at hconnect
  cases hlogin : authenticate parsers world config with
  | error error =>
      rw [hlogin] at hconnect
      cases hconnect
      rw [authenticate_eq h] at hlogin
      obtain ⟨_, hmatrix⟩ := matrixOnly_authenticatePlan config.matrix plan _ hlogin
      cases hmatrix
  | ok session =>
      rw [hlogin, ok_bind] at hconnect
      cases hdevice : verifyDeviceId config.matrix.credentials.deviceId session.serverDeviceId with
      | error error =>
          obtain ⟨want, got, hwant, hgot, hne⟩ := verifyDeviceId_config hdevice
          exact ⟨session, want, got, rfl, hwant, hgot, hne⟩
      | ok _ =>
          rw [hdevice, ok_bind] at hconnect
          obtain ⟨_, hmatrix⟩ := (matrixOnly_orMatrix _ _).bind
            (fun _ => matrixOnly_ok _) _ hconnect
          cases hmatrix

/-- **What passes validation is not refused later for its configuration.** -/
theorem settled_of_validate {config : Config} (h : config.validate parsers = .ok ()) :
    ∃ plan : Plan SocketAddr Url UserId RoomId, Settled parsers config plan := by
  obtain ⟨plan, hplan⟩ := exists_plan_of_validate h
  refine ⟨plan, hplan, fun world => bindSmtp_eq hplan, fun world => authenticate_eq hplan,
    fun world text => ?_, fun world text => ?_, fun world text => connect_config hplan⟩
  · rw [bindSmtp_eq hplan, bindPlan]
    cases world.bindListener plan.bindAddr with
    | ok listener =>
        simp
    | error error =>
        simp
  · rw [authenticate_eq hplan]
    intro herror
    obtain ⟨_, hmatrix⟩ := matrixOnly_authenticatePlan config.matrix plan _ herror
    cases hmatrix

end Connect

/-- Parsers that know the values of the configuration below, as the real ones do. -/
def botParsers : Parsers Str Str Str Str where
  socketAddr := fun s => if s = "127.0.0.1:2525".toList then some s else none
  url := fun s =>
    if s = "https://example.org".toList then .ok s
    else .error "relative URL without a base".toList
  userId := fun s =>
    if s = "@bot:example.org".toList then .ok s else .error "missing leading sigil".toList
  roomId := fun s =>
    if s = "!room:example.org".toList ∨ s = "!ops:example.org".toList then .ok s
    else .error "missing leading sigil".toList
  addTemplate := fun _ => .ok ()
  getTemplate := fun _ => .ok ()
  render := fun source => .ok source

/-- A bot with an access token and one routing rule. -/
def botConfig : Config where
  smtp :=
    { bind := "127.0.0.1:2525".toList, maxMessageSize := 1024, maxConnections := 100,
      maxSessionSeconds := 300 }
  matrix :=
    { homeserver := "https://example.org".toList, userId := "@bot:example.org".toList,
      deviceName := "chimney-post".toList, roomId := "!room:example.org".toList,
      storePath := "/tmp/matrix".toList, requireE2ee := true,
      messageTemplate := "mail".toList,
      routes :=
        [{ toAddr := some "ops@chimney".toList, fromAddr := some "  ".toList,
           roomId := "!ops:example.org".toList }],
      credentials :=
        { password := none, accessToken := some "token".toList,
          deviceId := some "DEVICE".toList } }
  queue := { retryBackoff := 60, dbPath := "queue.db".toList }

theorem settled_botConfig : ∃ plan : Plan Str Str Str Str, Settled botParsers botConfig plan := by
  exact settled_of_validate rfl

end Matrix
end ChimneyPost
