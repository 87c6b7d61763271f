import ChimneyPost.Lib.Dialogue
import ChimneyPost.Matrix.Client

/-!
# Connecting, request by request

`MatrixClient::connect` of `src/matrix/client.rs` once more, as a script: what it asks of
the operating system, the SDK and the homeserver, each request answered in any way.
Against an outside that always answers alike it is the `connect` of `Matrix/Client.lean`
(`play_connectScript`).

The crypto store is the one thing that connecting destroys.  It is cleared after a login
that was refused for its account and for no other reason, of its three files and of no
others, and the login that follows is the second and the last.  A client that is returned has
logged in, under no other device than the configured one, and has synced (`connect_careful`).
-/

namespace ChimneyPost
namespace Matrix

open Dialogue (Script Exchange Fallible)

/-! ## The requests -/

/-- The two ways to log in. -/
inductive Login (UserId : Type) where
  | restoreSession (session : MatrixSession UserId)
  | login (login : PasswordLogin)
deriving DecidableEq

inductive ConnectRequest (Url UserId Client : Type) where
  | createDirAll (path : Str)
  | buildClient (homeserverUrl : Url) (storePath : Str)
  | logIn (client : Client) (login : Login UserId)
  | removeFile (path : Str)
  | whoami (client : Client)
  | syncOnce (client : Client)
  /-- `cross_signing_status`: whether it is complete -/
  | crossSigningStatus (client : Client)
  | bootstrapCrossSigning (client : Client)

namespace ConnectRequest

variable {Url UserId Client : Type}

/-- The answers to a request. -/
abbrev Answer : ConnectRequest Url UserId Client → Type
  | .createDirAll _ => Except Str Unit
  | .buildClient _ _ => Except Str Client
  | .logIn _ _ => Except SdkError Unit
  | .removeFile _ => Except RemoveError Unit
  | .whoami _ => Except Str (Option Str)
  | .syncOnce _ => Except Str Unit
  | .crossSigningStatus _ => Option Bool
  | .bootstrapCrossSigning _ => Except Str Unit

def isLogin : ConnectRequest Url UserId Client → Bool
  | .logIn _ _ => true
  | _ => false

/-- The file a request removes. -/
def removes : ConnectRequest Url UserId Client → Option Str
  | .removeFile path => some path
  | _ => none

end ConnectRequest

abbrev ConnectExchange (Url UserId Client : Type) : Type :=
  Exchange (ConnectRequest Url UserId Client) ConnectRequest.Answer

abbrev ConnectScript (Url UserId Client α : Type) : Type :=
  Fallible (ConnectRequest Url UserId Client) ConnectRequest.Answer ChimneyError α

/-- The files of the crypto store, with the sidecars of the database. -/
def cryptoFiles (storePath : Str) : List Str :=
  ["".toList, "-wal".toList, "-shm".toList].map fun suffix =>
    joinPath storePath ("matrix-sdk-crypto.sqlite3".toList ++ suffix)

/-! ## The script -/

section Program

variable {SocketAddr Url UserId RoomId Client : Type}
  (parsers : Parsers SocketAddr Url UserId RoomId)

/-- `build_client`. -/
def buildClientScript (homeserverUrl : Url) (storePath : Str) :
    ConnectScript Url UserId Client Client := do
  let built ← Fallible.request (ConnectRequest.buildClient homeserverUrl storePath)
  Fallible.ofExcept (orMatrix "Matrix client build failed: ".toList built)

/-- The loop of `reset_crypto_store`. -/
def removeFilesScript : List Str → ConnectScript Url UserId Client Unit
  | [] => return ()
  | path :: paths => do
      let removed ← Fallible.request (ConnectRequest.removeFile path)
      match (removed : Except RemoveError Unit) with
      | .ok _ => removeFilesScript paths
      | .error .notFound => removeFilesScript paths
      | .error (.other error) =>
          throw (.matrix ("failed to clear crypto store file ".toList ++ path ++ ": ".toList ++
            error))

/-- Log in; when the crypto store holds another device, clear it and try once more. -/
def loginOrResetScript (homeserverUrl : Url) (storePath : Str) (login : Login UserId)
    (failed failedAgain : Str) (client : Client) : ConnectScript Url UserId Client Client := do
  let answer ← Fallible.request (ConnectRequest.logIn client login)
  match (answer : Except SdkError Unit) with
  | .ok _ => return client
  | .error error =>
      if isMismatchedAccount error then do
        removeFilesScript (cryptoFiles storePath)
        let client ← buildClientScript homeserverUrl storePath
        let answer ← Fallible.request (ConnectRequest.logIn client login)
        match (answer : Except SdkError Unit) with
        | .ok _ => return client
        | .error error => throw (.matrix (failedAgain ++ error.text))
      else
        throw (.matrix (failed ++ error.text))

/-- The login with the configured credentials. -/
def logInScript (matrix : MatrixConfig) (homeserverUrl : Url) (userId : UserId)
    (client : Client) : ConnectScript Url UserId Client Client :=
  match matrix.credentials.accessToken with
  | some accessToken =>
      match matrix.credentials.deviceId with
      | some deviceId =>
          loginOrResetScript homeserverUrl matrix.storePath
            (.restoreSession
              { userId := userId, deviceId := deviceId, accessToken := accessToken })
            "Matrix access token login failed: ".toList
            "Matrix access token login failed after store reset: ".toList client
      | none =>
          throw (.config
            "matrix.credentials.device_id is required when using access_token".toList)
  | none =>
      match matrix.credentials.password with
      | some password =>
          loginOrResetScript homeserverUrl matrix.storePath
            (.login
              { userId := matrix.userId, password := password, deviceName := matrix.deviceName,
                deviceId := matrix.credentials.deviceId })
            "Matrix login failed: ".toList
            "Matrix login failed after store reset: ".toList client
      | none =>
          throw (.config "matrix credentials require password or access_token".toList)

/-- Set cross-signing up if it is not; a failure is not fatal. -/
def bootstrapScript (client : Client) : ConnectScript Url UserId Client Unit := do
  let status ← Fallible.request (ConnectRequest.crossSigningStatus client)
  if (status : Option Bool) = some true then
    return ()
  else
    let _ ← Fallible.request (ConnectRequest.bootstrapCrossSigning client)
    return ()

/-- `MatrixClient::connect` from the answer of the login on. -/
def finishScript (config : Config) (userId : UserId) (router : Router RoomId)
    (client : Client) : ConnectScript Url UserId Client (MatrixClient UserId RoomId Client) := do
  let who ← Fallible.request (ConnectRequest.whoami client)
  let serverDeviceId ← Fallible.ofExcept (orMatrix "Matrix whoami failed: ".toList who)
  Fallible.ofExcept (verifyDeviceId config.matrix.credentials.deviceId serverDeviceId)
  let synced ← Fallible.request (ConnectRequest.syncOnce client)
  Fallible.ofExcept (orMatrix "Matrix initial sync failed: ".toList synced)
  bootstrapScript client
  return { client := client, router := router, userId := userId,
           requireE2ee := config.matrix.requireE2ee,
           messageTemplate := config.matrix.messageTemplate }

/-- `MatrixClient::connect`. -/
def connectScript (config : Config) :
    ConnectScript Url UserId Client (MatrixClient UserId RoomId Client) := do
  let homeserverUrl ← Fallible.ofExcept (orConfig
    (fun error => "invalid matrix.homeserver URL: ".toList ++ error)
    (parsers.url config.matrix.homeserver))
  let created ← Fallible.request (ConnectRequest.createDirAll config.matrix.storePath)
  Fallible.ofExcept (orMatrix
    ("failed to create store directory ".toList ++ config.matrix.storePath ++ ": ".toList) created)
  let client ← buildClientScript homeserverUrl config.matrix.storePath
  let userId ← Fallible.ofExcept (orConfig
    (fun error => "invalid matrix.user_id: ".toList ++ error)
    (parsers.userId config.matrix.userId))
  let router ← Fallible.ofExcept (Router.fromConfig parsers.roomId config.matrix)
  let client ← logInScript config.matrix homeserverUrl userId client
  finishScript config userId router client

end Program

/-! ## What is destroyed -/

section Careful

variable {SocketAddr Url UserId RoomId Client : Type}

/-- A login that was refused because the crypto store holds another account. -/
def Mismatched (x : ConnectExchange Url UserId Client) : Prop :=
  ∃ client login error, x = ⟨.logIn client login, .error error⟩ ∧
    isMismatchedAccount error = true

/-- The logins so far. -/
def logins (history : List (ConnectExchange Url UserId Client)) :
    List (ConnectExchange Url UserId Client) :=
  history.filter fun x => x.request.isLogin

/-- The files removed so far, or found gone. -/
def removed (history : List (ConnectExchange Url UserId Client)) : List Str :=
  history.filterMap fun x => x.request.removes

/-- No removal has failed. -/
def Cleared (history : List (ConnectExchange Url UserId Client)) : Prop :=
  ∀ path error, (⟨.removeFile path, .error (.other error)⟩ : ConnectExchange Url UserId Client) ∉
    history

/-- What every request of `connect` is like, by the exchanges before it. -/
structure Careful (storePath : Str) (history : List (ConnectExchange Url UserId Client))
    (request : ConnectRequest Url UserId Client) : Prop where
  /-- files are removed after the mismatch, and only those of the crypto store -/
  remove : ∀ path, request.removes = some path → path ∈ cryptoFiles storePath ∧
    path ∉ removed history ∧ ∃ x, logins history = [x] ∧ Mismatched x
  /-- a second login comes after the whole store has been cleared, with a new client -/
  login : ∀ client login, request = .logIn client login →
    (logins history = [] ∧ removed history = []) ∨
    (∃ x, logins history = [x] ∧ Mismatched x) ∧ removed history = cryptoFiles storePath ∧
      Cleared history ∧ ∃ homeserverUrl,
        history.getLast? = some ⟨.buildClient homeserverUrl storePath, .ok client⟩

/-- This client has been logged in. -/
def LoggedIn (client : Client) (history : List (ConnectExchange Url UserId Client)) : Prop :=
  ∃ login, (⟨.logIn client login, .ok ()⟩ : ConnectExchange Url UserId Client) ∈ history

/-- What a client has been through that `connect` hands out. -/
structure Ready (configured : Option Str) (history : List (ConnectExchange Url UserId Client))
    (client : Client) : Prop where
  loggedIn : LoggedIn client history
  /-- the homeserver names no other device than the configured one -/
  verified : ∃ server,
    (⟨.whoami client, .ok server⟩ : ConnectExchange Url UserId Client) ∈ history ∧
      verifyDeviceId configured server = .ok ()
  synced : (⟨.syncOnce client, .ok ()⟩ : ConnectExchange Url UserId Client) ∈ history

variable {storePath : Str} {history : List (ConnectExchange Url UserId Client)}
  {x : ConnectExchange Url UserId Client}

@[simp] theorem logins_concat :
    logins (history ++ [x]) = logins history ++ if x.request.isLogin then [x] else [] := by
  rw [logins, List.filter_append]
  cases h : x.request.isLogin with
  | false =>
      simp [logins, h]
  | true =>
      simp [logins, h]

@[simp] theorem removed_concat :
    removed (history ++ [x]) = removed history ++ x.request.removes.toList := by
  rw [removed, List.filterMap_append]
  cases h : x.request.removes with
  | none =>
      simp [removed, h]
  | some path =>
      simp [removed, h]

/-- A request that is neither login nor removal can come at any time. -/
theorem careful_aside {request : ConnectRequest Url UserId Client}
    (hlogin : request.isLogin = false) (hremoves : request.removes = none) :
    Careful storePath history request := by
  constructor
  · intro path hpath
    rw [hremoves] at hpath
    cases hpath
  · rintro client login rfl
    cases hlogin

theorem Ready.concat {configured : Option Str} {client : Client}
    (h : Ready configured history client) (x : ConnectExchange Url UserId Client) :
    Ready configured (history ++ [x]) client := by
  obtain ⟨login, hlogin⟩ := h.loggedIn
  obtain ⟨server, hserver, hdevice⟩ := h.verified
  exact ⟨⟨login, List.mem_append_left _ hlogin⟩, ⟨server, List.mem_append_left _ hserver, hdevice⟩,
    List.mem_append_left _ h.synced⟩

/-- Nothing has been tried yet. -/
def Untried (history : List (ConnectExchange Url UserId Client)) : Prop :=
  logins history = [] ∧ removed history = []

theorem Untried.concat (h : Untried history) (hlogin : x.request.isLogin = false)
    (hremoves : x.request.removes = none) : Untried (history ++ [x]) := by
  constructor
  · rw [logins_concat, h.1, hlogin]
    rfl
  · rw [removed_concat, h.2, hremoves]
    rfl

/-- The store is being cleared: these files are gone. -/
structure Clearing (gone : List Str) (history : List (ConnectExchange Url UserId Client)) :
    Prop where
  refused : ∃ x, logins history = [x] ∧ Mismatched x
  removed : removed history = gone
  cleared : Cleared history

theorem Cleared.concat (h : Cleared history)
    (hx : ∀ path error, x ≠ ⟨.removeFile path, .error (.other error)⟩) :
    Cleared (history ++ [x]) := by
  intro path error hmem
  rcases List.mem_append.mp hmem with hmem | hmem
  · exact h path error hmem
  · exact hx path error (List.mem_singleton.mp hmem).symm

theorem cryptoFiles_nodup (storePath : Str) : (cryptoFiles storePath).Nodup := by
  have hsuffix : Function.Injective fun suffix : Str =>
      joinPath storePath ("matrix-sdk-crypto.sqlite3".toList ++ suffix) := by
    intro suffix suffix' heq
    dsimp only [joinPath] at heq
    split_ifs at heq
    · exact List.append_cancel_left (List.append_cancel_left heq)
    · exact List.append_cancel_left (List.cons.inj (List.append_cancel_left heq)).2
  exact List.Nodup.map hsuffix (by decide)

/-- The loop over the files that are left. -/
theorem removeFilesScript_meets {gone paths : List Str}
    (hpaths : gone ++ paths = cryptoFiles storePath) (h : Clearing gone history) :
    (removeFilesScript paths : ConnectScript Url UserId Client Unit).run.Meets
      (Careful storePath)
      (fun history result => result = .ok () → Clearing (cryptoFiles storePath) history)
      history := by
  induction paths generalizing gone history with
  | nil =>
      rw [List.append_nil] at hpaths
      rw [← hpaths]
      exact fun _ => h
  | cons path paths ih =>
      rw [removeFilesScript, Script.meets_bindT]
      refine Script.meets_requestT.mpr ⟨?_, fun answer => ?_⟩
      · refine ⟨?_, fun client login hlogin => by cases hlogin⟩
        intro path' hpath
        obtain rfl := Option.some.inj hpath
        have hnodup := cryptoFiles_nodup storePath
        rw [← hpaths] at hnodup ⊢
        refine ⟨by simp, ?_, h.refused⟩
        rw [h.removed]
        exact fun hmem => List.disjoint_of_nodup_append hnodup hmem List.mem_cons_self
      · have hgone : gone ++ [path] ++ paths = cryptoFiles storePath := by
          rw [← hpaths, List.append_assoc]
          rfl
        have hnext : (∀ error, answer ≠ .error (.other error)) → Clearing (gone ++ [path])
            (history ++ [(⟨.removeFile path, answer⟩ : ConnectExchange Url UserId Client)]) := by
          intro hanswer
          refine ⟨?_, ?_, h.cleared.concat ?_⟩
          · rw [logins_concat]
            simpa [ConnectRequest.isLogin] using h.refused
          · rw [removed_concat, h.removed]
            rfl
          · intro path' error heq
            cases heq
            exact hanswer error rfl
        cases answer with
        | ok _ =>
            exact ih hgone (hnext (by simp))
        | error error =>
            cases error with
            | notFound =>
                exact ih hgone (hnext (by simp))
            | other error =>
                intro hok
                cases hok

/-- A script that neither logs in nor removes anything. -/
theorem meets_of_aside {α : Type} {script : ConnectScript Url UserId Client α}
    {Q : List (ConnectExchange Url UserId Client) → Except ChimneyError α → Prop}
    (h : script.run.Meets
      (fun _ request => request.isLogin = false ∧ request.removes = none) Q history) :
    script.run.Meets (Careful storePath) Q history := by
  exact h.mono (fun _ _ hrequest => careful_aside hrequest.1 hrequest.2) (fun _ _ h => h)

theorem cleared_of_removed_nil (h : removed history = []) : Cleared history := by
  intro path error hmem
  have hpath : path ∈ removed history := List.mem_filterMap.mpr ⟨_, hmem, rfl⟩
  rw [h] at hpath
  cases hpath

/-- A client that has been built is the answer of the last exchange. -/
theorem buildClientScript_meets (homeserverUrl : Url) :
    (buildClientScript homeserverUrl storePath : ConnectScript Url UserId Client Client).run.Meets
      (Careful storePath)
      (fun history' result => ∀ client, result = .ok client →
        history' = history ++ [⟨.buildClient homeserverUrl storePath, .ok client⟩]) history := by
  rw [buildClientScript, Script.meets_bindT]
  refine Script.meets_requestT.mpr ⟨careful_aside rfl rfl, fun answer => ?_⟩
  cases answer with
  | ok built =>
      intro client hclient
      rw [Except.ok.inj hclient]
  | error error =>
      intro client hclient
      cases hclient

theorem loggedIn_of_ok (client : Client) (login : Login UserId)
    (history : List (ConnectExchange Url UserId Client)) :
    ∀ client', (Except.ok client : Except ChimneyError Client) = .ok client' →
      LoggedIn client' (history ++ [⟨.logIn client login, .ok ()⟩]) := by
  rintro client' ⟨⟩
  exact ⟨login, List.mem_append_right _ (List.mem_singleton_self _)⟩

/-- The second login, with a new client after the store has been cleared. -/
theorem loginAgain_meets (homeserverUrl : Url) (login : Login UserId) (failedAgain : Str)
    (h : Clearing (cryptoFiles storePath) history) :
    (do
      let client ← buildClientScript homeserverUrl storePath
      let answer ← Fallible.request (ConnectRequest.logIn client login)
      match (answer : Except SdkError Unit) with
      | .ok _ => return client
      | .error error => throw (.matrix (failedAgain ++ error.text)) :
        ConnectScript Url UserId Client Client).run.Meets
      (Careful storePath)
      (fun history result => ∀ client, result = .ok client → LoggedIn client history)
      history := by
  rw [Script.meets_bindT]
  refine (buildClientScript_meets homeserverUrl).mono (fun _ _ hrequest => hrequest) ?_
  rintro history' (error | client) hbuilt
  · rintro client ⟨⟩
  · have hhistory := hbuilt client rfl
    rw [Script.due, Script.meets_bindT]
    refine Script.meets_requestT.mpr ⟨?_, fun answer => ?_⟩
    · refine ⟨fun path hpath => (by cases hpath), ?_⟩
      intro client' login' heq
      cases heq
      refine Or.inr ⟨?_, ?_, ?_, homeserverUrl, ?_⟩
      · rw [hhistory, logins_concat]
        simpa [ConnectRequest.isLogin] using h.refused
      · rw [hhistory, removed_concat, h.removed]
        exact List.append_nil _
      · rw [hhistory]
        exact h.cleared.concat (fun path error heq => by cases heq)
      · rw [hhistory]
        exact List.getLast?_concat
    · cases answer with
      | ok _ =>
          exact loggedIn_of_ok client login history'
      | error error =>
          rintro client ⟨⟩

/-- A login, with the second one that may follow. -/
theorem loginOrResetScript_meets (homeserverUrl : Url) (login : Login UserId)
    (failed failedAgain : Str) (client : Client) (h : Untried history) :
    (loginOrResetScript homeserverUrl storePath login failed failedAgain client).run.Meets
      (Careful storePath)
      (fun history result => ∀ client, result = .ok client → LoggedIn client history)
      history := by
  rw [loginOrResetScript, Script.meets_bindT]
  refine Script.meets_requestT.mpr
    ⟨⟨fun path hpath => (by cases hpath), fun _ _ _ => Or.inl h⟩, fun answer => ?_⟩
  cases answer with
  | ok _ =>
      exact loggedIn_of_ok client login history
  | error error =>
      rw [Script.due]
      dsimp only
      split_ifs with hmismatch
      · rw [Script.meets_bindT]
        refine (removeFilesScript_meets (List.nil_append (cryptoFiles storePath)) ?_).mono
          (fun _ _ hrequest => hrequest) ?_
        · have hnone : removed (history ++
              [(⟨.logIn client login, .error error⟩ : ConnectExchange Url UserId Client)]) = [] := by
            rw [removed_concat, h.2]
            rfl
          refine ⟨⟨_, ?_, client, login, error, rfl, hmismatch⟩, hnone,
            cleared_of_removed_nil hnone⟩
          rw [logins_concat, h.1]
          rfl
        · rintro history' (error | _) hcleared
          · rintro client ⟨⟩
          · exact loginAgain_meets homeserverUrl login failedAgain (hcleared rfl)
      · rintro client ⟨⟩

theorem logInScript_meets (matrix : MatrixConfig) (homeserverUrl : Url) (userId : UserId)
    (client : Client) (h : Untried history) :
    (logInScript matrix homeserverUrl userId client).run.Meets (Careful matrix.storePath)
      (fun history result => ∀ client, result = .ok client → LoggedIn client history)
      history := by
  rw [logInScript]
  split
  · split
    · exact loginOrResetScript_meets homeserverUrl _ _ _ client h
    · rintro client ⟨⟩
  · split
    · exact loginOrResetScript_meets homeserverUrl _ _ _ client h
    · rintro client ⟨⟩

/-- The rest of `connect` hands nothing out when it fails. -/
theorem not_ready_of_error {configured : Option Str} {error : ChimneyError} :
    ∀ matrix : MatrixClient UserId RoomId Client,
      (Except.error error : Except ChimneyError (MatrixClient UserId RoomId Client)) =
        .ok matrix → Ready configured history matrix.client := by
  rintro matrix ⟨⟩

/-- After the login nothing is destroyed any more. -/
theorem finishScript_meets (config : Config) (userId : UserId) (router : Router RoomId)
    (client : Client) (h : LoggedIn client history) :
    (finishScript config userId router client :
      ConnectScript Url UserId Client (MatrixClient UserId RoomId Client)).run.Meets
      (Careful storePath)
      (fun history result => ∀ matrix, result = .ok matrix →
        Ready config.matrix.credentials.deviceId history matrix.client) history := by
  apply meets_of_aside
  rw [finishScript, Script.meets_bindT]
  refine Script.meets_requestT.mpr ⟨⟨rfl, rfl⟩, fun who => ?_⟩
  rw [Script.due, Script.meets_bindT, Script.meets_ofExcept]
  cases who with
  | error error =>
      exact not_ready_of_error
  | ok serverDeviceId =>
      rw [orMatrix, Script.due, Script.meets_bindT, Script.meets_ofExcept]
      cases hdevice : verifyDeviceId config.matrix.credentials.deviceId serverDeviceId with
      | error error =>
          exact not_ready_of_error
      | ok _ =>
          rw [Script.due, Script.meets_bindT]
          refine Script.meets_requestT.mpr ⟨⟨rfl, rfl⟩, fun synced => ?_⟩
          rw [Script.due, Script.meets_bindT, Script.meets_ofExcept]
          cases synced with
          | error error =>
              exact not_ready_of_error
          | ok _ =>
              have hready : Ready config.matrix.credentials.deviceId
                  (history ++ [⟨.whoami client, .ok serverDeviceId⟩] ++
                    [⟨.syncOnce client, .ok ()⟩]) client := by
                obtain ⟨login, hlogin⟩ := h
                exact ⟨⟨login, by simp [hlogin]⟩, ⟨serverDeviceId, by simp, hdevice⟩, by simp⟩
              rw [orMatrix, Script.due, Script.meets_bindT, bootstrapScript, Script.meets_bindT]
              refine Script.meets_requestT.mpr ⟨⟨rfl, rfl⟩, fun status => ?_⟩
              have hready := hready.concat ⟨.crossSigningStatus client, status⟩
              rw [Script.due]
              split_ifs
              · rintro matrix ⟨⟩
                exact hready
              · refine ⟨⟨rfl, rfl⟩, fun answer => ?_⟩
                rintro matrix ⟨⟩
                exact hready.concat _

theorem connectScript_meets (parsers : Parsers SocketAddr Url UserId RoomId) (config : Config) :
    (connectScript parsers config :
      ConnectScript Url UserId Client (MatrixClient UserId RoomId Client)).run.Meets
      (Careful config.matrix.storePath)
      (fun history result => ∀ matrix, result = .ok matrix →
        Ready config.matrix.credentials.deviceId history matrix.client) [] := by
  have hnil : Untried ([] : List (ConnectExchange Url UserId Client)) := ⟨rfl, rfl⟩
  rw [connectScript, Script.meets_bindT, Script.meets_ofExcept]
  cases orConfig _ (parsers.url config.matrix.homeserver) with
  | error error =>
      exact not_ready_of_error
  | ok homeserverUrl =>
      rw [Script.due, Script.meets_bindT]
      refine Script.meets_requestT.mpr ⟨careful_aside rfl rfl, fun created => ?_⟩
      have h₁ := hnil.concat (x := ⟨_, created⟩) rfl rfl
      rw [Script.due, Script.meets_bindT, Script.meets_ofExcept]
      cases orMatrix _ created with
      | error error =>
          exact not_ready_of_error
      | ok _ =>
          rw [Script.due, Script.meets_bindT]
          refine (buildClientScript_meets homeserverUrl).mono (fun _ _ hrequest => hrequest) ?_
          rintro history (error | client) hbuilt
          · exact not_ready_of_error
          have h₂ : Untried history := by
            rw [hbuilt client rfl]
            exact h₁.concat rfl rfl
          rw [Script.due, Script.meets_bindT, Script.meets_ofExcept]
          cases orConfig _ (parsers.userId config.matrix.userId) with
          | error error =>
              exact not_ready_of_error
          | ok userId =>
              rw [Script.due, Script.meets_bindT, Script.meets_ofExcept]
              cases Router.fromConfig parsers.roomId config.matrix with
              | error error =>
                  exact not_ready_of_error
              | ok router =>
                  rw [Script.due, Script.meets_bindT]
                  refine (logInScript_meets config.matrix homeserverUrl userId client h₂).mono
                    (fun _ _ hrequest => hrequest) ?_
                  rintro history' (error | client') hlogin
                  · exact not_ready_of_error
                  · exact finishScript_meets config userId router client' (hlogin client' rfl)

/-- **Connecting destroys a crypto store of another account and nothing else, and it hands out
no client that has not been accepted**, whatever is answered. -/
theorem connect_careful (parsers : Parsers SocketAddr Url UserId RoomId) (config : Config) :
    (∀ history request,
      (connectScript parsers config :
        ConnectScript Url UserId Client (MatrixClient UserId RoomId Client)).run.Asks
          history request →
      Careful config.matrix.storePath history request) ∧
    ∀ history matrix,
      (connectScript parsers config :
        ConnectScript Url UserId Client (MatrixClient UserId RoomId Client)).run.Yields
          history (.ok matrix) →
      Ready config.matrix.credentials.deviceId history matrix.client := by
  exact ⟨fun _ _ h => (connectScript_meets parsers config).asks h,
    fun _ matrix h => (connectScript_meets parsers config).yields h matrix rfl⟩

end Careful

/-! ## Against an outside that always answers alike -/

section Played

variable {SocketAddr Url UserId RoomId Client Listener : Type}

def ConnectRequest.isBuild : ConnectRequest Url UserId Client → Bool
  | .buildClient _ _ => true
  | _ => false

/-- How many clients have been built so far. -/
def builds (history : List (ConnectExchange Url UserId Client)) : Nat :=
  history.countP fun x => x.request.isBuild

theorem builds_concat (history : List (ConnectExchange Url UserId Client))
    (x : ConnectExchange Url UserId Client) :
    builds (history ++ [x]) = builds history + if x.request.isBuild then 1 else 0 := by
  rw [builds, List.countP_append, List.countP_singleton]
  rfl

variable (world : World SocketAddr Url UserId Client Listener)

/-- One of the two ways to log in. -/
def World.logIn (login : Login UserId) (client : Client) : Except SdkError Unit :=
  match login with
  | .restoreSession session => world.restoreSession client session
  | .login login => world.login client login

/-- The answers of `world`, with those on cross-signing that it leaves open. -/
def World.answers (signing : Client → Option Bool) (bootstrap : Client → Except Str Unit) :
    Script.Strategy (ConnectRequest Url UserId Client) ConnectRequest.Answer
  | _, .createDirAll path => world.createDirAll path
  | history, .buildClient homeserverUrl storePath =>
      world.buildClient (builds history) homeserverUrl storePath
  | _, .logIn client login => world.logIn login client
  | _, .removeFile path => world.removeFile path
  | _, .whoami client => world.whoami client
  | _, .syncOnce client => world.syncOnce client
  | _, .crossSigningStatus client => signing client
  | _, .bootstrapCrossSigning client => bootstrap client

variable (signing : Client → Option Bool) (bootstrap : Client → Except Str Unit)
  (history : List (ConnectExchange Url UserId Client))

theorem play_buildClientScript (homeserverUrl : Url) (storePath : Str) :
    (buildClientScript homeserverUrl storePath : ConnectScript Url UserId Client Client).run.play
      (world.answers signing bootstrap) history =
    (history ++ [⟨.buildClient homeserverUrl storePath,
        world.buildClient (builds history) homeserverUrl storePath⟩],
      buildClient world (builds history) homeserverUrl storePath) := by
  rw [buildClientScript, Script.play_bindT, Script.play_requestT]
  rfl

theorem play_removeFilesScript (paths : List Str) :
    ∃ history', (removeFilesScript paths : ConnectScript Url UserId Client Unit).run.play
        (world.answers signing bootstrap) history = (history', removeFiles world paths) ∧
      builds history' = builds history := by
  induction paths generalizing history with
  | nil =>
      exact ⟨history, rfl, rfl⟩
  | cons path paths ih =>
      have hbuilds : builds (history ++ [(⟨.removeFile path, world.removeFile path⟩ :
          ConnectExchange Url UserId Client)]) = builds history := by
        rw [builds_concat]
        rfl
      obtain ⟨history', hplay, hcount⟩ := ih (history ++
        [(⟨.removeFile path, world.removeFile path⟩ : ConnectExchange Url UserId Client)])
      rw [removeFilesScript, Script.play_bindT, Script.play_requestT, removeFiles]
      dsimp only [Script.playOn, World.answers]
      cases hremove : world.removeFile path with
      | ok _ =>
          rw [hremove] at hplay hcount hbuilds
          exact ⟨history', hplay, hcount.trans hbuilds⟩
      | error error =>
          cases error with
          | notFound =>
              rw [hremove] at hplay hcount hbuilds
              exact ⟨history', hplay, hcount.trans hbuilds⟩
          | other error =>
              rw [hremove] at hbuilds
              exact ⟨_, rfl, hbuilds⟩

theorem play_loginOrResetScript (homeserverUrl : Url) (storePath : Str) (login : Login UserId)
    (failed failedAgain : Str) (client : Client) (h : builds history = 1) :
    ((loginOrResetScript homeserverUrl storePath login failed failedAgain client).run.play
      (world.answers signing bootstrap) history).2 =
    loginOrReset world homeserverUrl storePath (world.logIn login) failed failedAgain client := by
  rw [loginOrResetScript, Script.play_bindT, Script.play_requestT, loginOrReset]
  dsimp only [Script.playOn, World.answers]
  cases hlogin : world.logIn login client with
  | ok _ =>
      rfl
  | error error =>
      dsimp only
      split_ifs with hmismatch
      · obtain ⟨history', hplay, hbuilds⟩ := play_removeFilesScript world signing bootstrap
          (history ++
            [(⟨.logIn client login, .error error⟩ : ConnectExchange Url UserId Client)])
          (cryptoFiles storePath)
        have hone : builds history' = 1 := by
          rw [hbuilds, builds_concat, h]
          rfl
        rw [Script.play_bindT, hplay]
        change (Script.playOn _ _ (history', resetCryptoStore world storePath)).2 = _
        cases resetCryptoStore world storePath with
        | error error =>
            rfl
        | ok _ =>
            rw [Script.playOn, Script.play_bindT, play_buildClientScript, hone, ok_bind]
            cases buildClient world 1 homeserverUrl storePath with
            | error error =>
                rfl
            | ok fresh =>
                rw [Script.playOn, Script.play_bindT, Script.play_requestT, ok_bind]
                dsimp only [Script.playOn, World.answers]
                cases world.logIn login fresh with
                | ok _ =>
                    rfl
                | error error =>
                    rfl
      · rfl

theorem play_logInScript (matrix : MatrixConfig) (homeserverUrl : Url) (userId : UserId)
    (client : Client) (h : builds history = 1) :
    ((logInScript matrix homeserverUrl userId client).run.play
      (world.answers signing bootstrap) history).2 =
    logIn world matrix homeserverUrl userId client := by
  rw [logInScript, logIn]
  cases matrix.credentials.accessToken with
  | some accessToken =>
      cases matrix.credentials.deviceId with
      | some deviceId =>
          exact play_loginOrResetScript world signing bootstrap history homeserverUrl matrix.storePath _ _ _ client h
      | none =>
          rfl
  | none =>
      cases matrix.credentials.password with
      | some password =>
          exact play_loginOrResetScript world signing bootstrap history homeserverUrl matrix.storePath _ _ _ client h
      | none =>
          rfl

/-- Cross-signing does not fail. -/
theorem play_bootstrapScript (client : Client) :
    ∃ history', (bootstrapScript client : ConnectScript Url UserId Client Unit).run.play
      (world.answers signing bootstrap) history = (history', .ok ()) := by
  rw [bootstrapScript, Script.play_bindT, Script.play_requestT, Script.playOn]
  by_cases hstatus : signing client = some true
  · exact ⟨_, by rw [World.answers, if_pos hstatus]; rfl⟩
  · exact ⟨_, by rw [World.answers, if_neg hstatus]; rfl⟩

/-- What follows the login asks `world` in the order of `connect`. -/
theorem play_finishScript (config : Config) (userId : UserId) (router : Router RoomId)
    (client : Client) :
    ((finishScript config userId router client :
      ConnectScript Url UserId Client (MatrixClient UserId RoomId Client)).run.play
      (world.answers signing bootstrap) history).2 =
    (do
      let serverDeviceId ← orMatrix "Matrix whoami failed: ".toList (world.whoami client)
      verifyDeviceId config.matrix.credentials.deviceId serverDeviceId
      orMatrix "Matrix initial sync failed: ".toList (world.syncOnce client)
      return { client := client, router := router, userId := userId,
               requireE2ee := config.matrix.requireE2ee,
               messageTemplate := config.matrix.messageTemplate }) := by
  rw [finishScript, Script.play_bindT, Script.play_requestT, Script.playOn, Script.play_bindT,
    Script.play_ofExcept]
  dsimp only [World.answers]
  cases orMatrix "Matrix whoami failed: ".toList (world.whoami client) with
  | error error =>
      rfl
  | ok serverDeviceId =>
      rw [Script.playOn, Script.play_bindT, Script.play_ofExcept, ok_bind]
      cases verifyDeviceId config.matrix.credentials.deviceId serverDeviceId with
      | error error =>
          rfl
      | ok _ =>
          rw [Script.playOn, Script.play_bindT, Script.play_requestT, Script.playOn,
            Script.play_bindT, Script.play_ofExcept, ok_bind]
          dsimp only [World.answers]
          cases orMatrix "Matrix initial sync failed: ".toList (world.syncOnce client) with
          | error error =>
              rfl
          | ok _ =>
              rw [Script.playOn, Script.play_bindT]
              obtain ⟨history', hplay⟩ := play_bootstrapScript world signing bootstrap _ client
              rw [hplay]
              rfl

/-- The script is a refinement of the `connect` that knows all answers beforehand. -/
theorem play_connectScript (parsers : Parsers SocketAddr Url UserId RoomId) (config : Config) :
    ((connectScript parsers config).run.play (world.answers signing bootstrap) []).2 =
      connect parsers world config := by
  rw [connectScript, Script.play_bindT, Script.play_ofExcept, connect, authenticate]
  cases orConfig _ (parsers.url config.matrix.homeserver) with
  | error error =>
      rfl
  | ok homeserverUrl =>
      rw [Script.playOn, Script.play_bindT, Script.play_requestT, Script.playOn,
        Script.play_bindT, Script.play_ofExcept, ok_bind]
      dsimp only [World.answers]
      cases orMatrix _ (world.createDirAll config.matrix.storePath) with
      | error error =>
          rfl
      | ok _ =>
          rw [Script.playOn, Script.play_bindT, play_buildClientScript, ok_bind]
          change (Script.playOn _ _
            (_, buildClient world 0 homeserverUrl config.matrix.storePath)).2 = _
          cases buildClient world 0 homeserverUrl config.matrix.storePath with
          | error error =>
              rfl
          | ok client =>
              rw [Script.playOn, Script.play_bindT, Script.play_ofExcept, ok_bind]
              cases orConfig _ (parsers.userId config.matrix.userId) with
              | error error =>
                  rfl
              | ok userId =>
                  rw [Script.playOn, Script.play_bindT, Script.play_ofExcept, ok_bind]
                  cases Router.fromConfig parsers.roomId config.matrix with
                  | error error =>
                      rfl
                  | ok router =>
                      rw [Script.playOn, Script.play_bindT, ok_bind]
                      generalize hplayed : Script.play _ (logInScript config.matrix homeserverUrl
                        userId client).run _ = played
                      have hlogin : played.2 =
                          logIn world config.matrix homeserverUrl userId client := by
                        rw [← hplayed]
                        exact play_logInScript world signing bootstrap _ config.matrix
                          homeserverUrl userId client rfl
                      obtain ⟨history, r⟩ := played
                      obtain rfl := hlogin
                      cases logIn world config.matrix homeserverUrl userId client with
                      | error error =>
                          rfl
                      | ok client' =>
                          rw [Script.playOn, play_finishScript, ok_bind]
                          cases orMatrix "Matrix whoami failed: ".toList
                              (world.whoami client') with
                          | error error =>
                              rfl
                          | ok serverDeviceId =>
                              rfl

end Played

/-! ## A crypto store of another device -/

/-- The session of `botConfig`. -/
def botSession : MatrixSession Str where
  userId := "@bot:example.org".toList
  deviceId := "DEVICE".toList
  accessToken := "token".toList

/-- The store holds another account, so that the first login is refused. -/
def storeReset : List (ConnectExchange Str Str Nat) :=
  [⟨.createDirAll "/tmp/matrix".toList, .ok ()⟩,
    ⟨.buildClient "https://example.org".toList "/tmp/matrix".toList, .ok 0⟩,
    ⟨.logIn 0 (.restoreSession botSession), .error ⟨"mismatch".toList, true⟩⟩,
    ⟨.removeFile "/tmp/matrix/matrix-sdk-crypto.sqlite3".toList, .ok ()⟩,
    ⟨.removeFile "/tmp/matrix/matrix-sdk-crypto.sqlite3-wal".toList, .error .notFound⟩,
    ⟨.removeFile "/tmp/matrix/matrix-sdk-crypto.sqlite3-shm".toList, .error .notFound⟩,
    ⟨.buildClient "https://example.org".toList "/tmp/matrix".toList, .ok 1⟩]

/-- The second login and what follows it. -/
def loginAgain : List (ConnectExchange Str Str Nat) :=
  [⟨.logIn 1 (.restoreSession botSession), .ok ()⟩, ⟨.whoami 1, .ok (some "DEVICE".toList)⟩,
    ⟨.syncOnce 1, .ok ()⟩, ⟨.crossSigningStatus 1, some true⟩]

theorem storeReset_careful :
    Careful "/tmp/matrix".toList storeReset (.logIn 1 (.restoreSession botSession)) ∧
    Ready (some "DEVICE".toList) (storeReset ++ loginAgain) 1 := by
  have hlaw := @connect_careful Str Str Str Str Nat botParsers botConfig
  exact ⟨hlaw.1 storeReset _ ⟨_, .ask (.ask (.ask (.ask (.ask (.ask (.ask (.refl _)))))))⟩,
    hlaw.2 (storeReset ++ loginAgain) ⟨1, _, _, _, _⟩ (.ask (.ask (.ask (.ask (.ask (.ask (.ask
      (.ask (.ask (.ask (.ask (.refl _))))))))))))⟩

end Matrix
end ChimneyPost
