import ChimneyPost.Lib.Dialogue
import ChimneyPost.Matrix.Client

/-!
# Sending a message

`format_message` of `src/matrix/formatter.rs` and `MatrixClient::send_message` of
`src/matrix/client.rs`.  Templates are compiled and rendered by the `minijinja` crate
(`Templates`).  What `send_message` asks of the Matrix SDK are the requests of
`RoomRequest`, and each may be answered in any way.

Whatever is answered, `send_message` deals with the room of the router only, it sends at
most once and nothing comes after that, with `require_e2ee` it sends only to a room it has
just found encrypted, and it returns `Ok` exactly when the homeserver has taken the event
(`sends_confined`).
-/

namespace ChimneyPost
namespace Matrix

open Dialogue (Script Exchange Fallible)
open Queue (Message)

/-! ## Formatting -/

/-- What a template can refer to. -/
structure Context where
  fromAddr : Str
  toAddrs : Str
  subject : Str
  body : Str
deriving DecidableEq

/-- The template engine, with the texts of its errors. -/
structure Templates where
  addTemplate : Str → Except Str Unit
  getTemplate : Str → Except Str Unit
  render : Str → Context → Except Str Str

/-- `map_err` into a template error. -/
def orTemplate {α : Type} (text : Str) : Except Str α → Except ChimneyError α
  | .ok a => .ok a
  | .error error => .error (.template (text ++ error))

/-- The context of a message. -/
def messageContext (message : Message) : Context where
  fromAddr := message.fromAddr.getD []
  toAddrs := join ", ".toList message.toAddrs
  subject := message.subject.getD []
  body := message.body

/-- `format_message`. -/
def formatMessage (templates : Templates) (message : Message) (templateStr : Str) :
    Except ChimneyError Str := do
  orTemplate "failed to compile template: ".toList (templates.addTemplate templateStr)
  orTemplate "template not found: ".toList (templates.getTemplate templateStr)
  orTemplate "template render failed: ".toList
    (templates.render templateStr (messageContext message))

/-! ## The requests -/

/-- What the client knows of the encryption of a room. -/
inductive EncryptionState where
  | encrypted
  | notEncrypted
  | unknown
deriving DecidableEq

inductive RoomRequest (RoomId : Type) where
  | getRoom (roomId : RoomId)
  | joinRoomById (roomId : RoomId)
  | encryptionState (roomId : RoomId)
  | requestEncryptionState (roomId : RoomId)
  /-- `room.send(content).with_transaction_id(transaction_id)` -/
  | send (roomId : RoomId) (content transactionId : Str)
deriving DecidableEq

namespace RoomRequest

variable {RoomId : Type}

/-- The answers to a request. -/
abbrev Answer : RoomRequest RoomId → Type
  | .getRoom _ => Bool
  | .joinRoomById _ => Except Str Unit
  | .encryptionState _ => EncryptionState
  | .requestEncryptionState _ => Except Str Unit
  | .send _ _ _ => Except Str Unit

def roomId : RoomRequest RoomId → RoomId
  | .getRoom roomId => roomId
  | .joinRoomById roomId => roomId
  | .encryptionState roomId => roomId
  | .requestEncryptionState roomId => roomId
  | .send roomId _ _ => roomId

def isSend : RoomRequest RoomId → Bool
  | .send _ _ _ => true
  | _ => false

end RoomRequest

/-- An exchange with the SDK about a room. -/
abbrev RoomExchange (RoomId : Type) : Type :=
  Exchange (RoomRequest RoomId) RoomRequest.Answer

/-- The homeserver has taken an event. -/
def taken {RoomId : Type} : RoomExchange RoomId → Bool
  | ⟨.send _ _ _, .ok _⟩ => true
  | _ => false

/-! ## The program -/

section Program

variable {UserId RoomId Client : Type}

abbrev RoomScript (RoomId α : Type) : Type :=
  Fallible (RoomRequest RoomId) RoomRequest.Answer ChimneyError α

/-- Find the room, or join it and find it then. -/
def enterRoom (roomId : RoomId) : RoomScript RoomId Unit := do
  let known ← Fallible.request (.getRoom roomId)
  if known then
    return ()
  else
    let joined ← Fallible.request (.joinRoomById roomId)
    Fallible.ofExcept (orMatrix "failed to join Matrix room: ".toList joined)
    let known ← Fallible.request (.getRoom roomId)
    if known then
      return ()
    else
      throw (.matrix "Matrix room not found".toList)

/-- The encryption state, asked for when it is unknown. -/
def readEncryptionState (roomId : RoomId) : RoomScript RoomId EncryptionState := do
  let state : EncryptionState ← Fallible.request (RoomRequest.encryptionState roomId)
  if state = .unknown then
    let asked ← Fallible.request (.requestEncryptionState roomId)
    Fallible.ofExcept (orMatrix "failed to query room encryption state: ".toList asked)
    Fallible.request (RoomRequest.encryptionState roomId)
  else
    return state

/-- The gate before the send. -/
def requireEncrypted (requireE2ee : Bool) (state : EncryptionState) :
    Except ChimneyError Unit :=
  if state ≠ .encrypted ∧ requireE2ee = true then
    .error (.matrix ("room is not encrypted and matrix.require_e2ee is enabled; " ++
      "refusing to send unencrypted message").toList)
  else
    .ok ()

/-- `MatrixClient::send_message`. -/
def MatrixClient.sendMessage (templates : Templates) (client : MatrixClient UserId RoomId Client)
    (message : Message) (idempotencyKey : Str) : RoomScript RoomId Unit := do
  let formatted ← Fallible.ofExcept (formatMessage templates message client.messageTemplate)
  let roomId := client.router.resolve message
  enterRoom roomId
  let state ← readEncryptionState roomId
  Fallible.ofExcept (requireEncrypted client.requireE2ee state)
  let sent ← Fallible.request (.send roomId formatted idempotencyKey)
  Fallible.ofExcept (orMatrix "Matrix send failed: ".toList sent)

end Program

/-! ## What it asks -/

section Law

variable {UserId RoomId Client : Type}

/-- A request that comes before the send. -/
structure Prepares (roomId : RoomId) (request : RoomRequest RoomId) : Prop where
  roomId : request.roomId = roomId
  isSend : request.isSend = false

/-- Exchanges that come before the send. -/
def Prepared (roomId : RoomId) (history : List (RoomExchange RoomId)) : Prop :=
  ∀ x ∈ history, Prepares roomId x.request

theorem Prepared.concat {roomId : RoomId} {history : List (RoomExchange RoomId)}
    {x : RoomExchange RoomId} (h : Prepared roomId history) (hx : Prepares roomId x.request) :
    Prepared roomId (history ++ [x]) := by
  intro y hy
  rcases List.mem_append.mp hy with hy | hy
  · exact h y hy
  · rw [List.mem_singleton.mp hy]
    exact hx

/-- What every request of `send_message` is like, by the exchanges before it. -/
structure Confined (templates : Templates) (client : MatrixClient UserId RoomId Client)
    (message : Message) (idempotencyKey : Str) (history : List (RoomExchange RoomId))
    (request : RoomRequest RoomId) : Prop where
  /-- nothing comes after a send, and all of it is about the room of the message -/
  before : Prepared (client.router.resolve message) history
  roomId : request.roomId = client.router.resolve message
  /-- what is sent is the message, under its key -/
  content : ∀ roomId content transactionId, request = .send roomId content transactionId →
    formatMessage templates message client.messageTemplate = .ok content ∧
      transactionId = idempotencyKey
  /-- with `require_e2ee`, a room is sent to right after it has been found encrypted -/
  encrypted : request.isSend = true → ∃ state,
    history.getLast? = some ⟨.encryptionState (client.router.resolve message), state⟩ ∧
      (client.requireE2ee = true → state = .encrypted)

/-- What `send_message` reports: whether the homeserver has taken the event. -/
def Reported (history : List (RoomExchange RoomId)) (result : Except ChimneyError Unit) : Prop :=
  result = .ok () ↔ ∃ x ∈ history, taken x = true

theorem taken_of_prepares {roomId : RoomId} {x : RoomExchange RoomId}
    (h : Prepares roomId x.request) : taken x = false := by
  obtain ⟨request, answer⟩ := x
  cases request with
  | send roomId content transactionId =>
      exact absurd h.isSend (by simp [RoomRequest.isSend])
  | _ =>
      rfl

/-- An error before the send is reported as it is. -/
theorem Prepared.reported {roomId : RoomId} {history : List (RoomExchange RoomId)}
    (h : Prepared roomId history) (error : ChimneyError) : Reported history (.error error) := by
  constructor
  · intro hok
    cases hok
  · rintro ⟨x, hx, htaken⟩
    rw [taken_of_prepares (h x hx)] at htaken
    cases htaken

variable {templates : Templates} {client : MatrixClient UserId RoomId Client}
  {message : Message} {key : Str} {history : List (RoomExchange RoomId)}

/-- A request that prepares the send is confined. -/
theorem Prepared.confined {request : RoomRequest RoomId}
    (h : Prepared (client.router.resolve message) history)
    (hrequest : Prepares (client.router.resolve message) request) :
    Confined templates client message key history request := by
  refine ⟨h, hrequest.roomId, ?_, ?_⟩
  · rintro roomId content transactionId rfl
    exact absurd hrequest.isSend (by simp [RoomRequest.isSend])
  · intro hsend
    rw [hrequest.isSend] at hsend
    cases hsend

/-- What is due after a part that prepares the send. -/
def PreparedOr (roomId : RoomId) {α : Type} (Q : List (RoomExchange RoomId) → α → Prop)
    (history : List (RoomExchange RoomId)) : Except ChimneyError α → Prop
  | .ok a => Prepared roomId history ∧ Q history a
  | .error error => Reported history (.error error)

theorem enterRoom_meets (h : Prepared (client.router.resolve message) history) :
    (enterRoom (client.router.resolve message)).run.Meets
      (Confined templates client message key)
      (PreparedOr (client.router.resolve message) fun _ _ => True) history := by
  rw [enterRoom, Script.meets_bindT, Script.meets_requestT]
  have hget : Prepares (client.router.resolve message)
      (.getRoom (client.router.resolve message)) := ⟨rfl, rfl⟩
  have hjoin : Prepares (client.router.resolve message)
      (.joinRoomById (client.router.resolve message)) := ⟨rfl, rfl⟩
  refine ⟨h.confined hget, fun known => ?_⟩
  have h₁ := h.concat (x := ⟨_, known⟩) hget
  cases known with
  | true =>
      exact ⟨h₁, trivial⟩
  | false =>
      dsimp only [Script.due, Bool.false_eq_true, if_false]
      rw [if_neg Bool.false_ne_true, Script.meets_bindT, Script.meets_requestT]
      refine ⟨h₁.confined hjoin, fun joined => ?_⟩
      have h₂ := h₁.concat (x := ⟨_, joined⟩) hjoin
      cases joined with
      | error error =>
          exact h₂.reported _
      | ok _ =>
          dsimp only [Script.due]
          rw [Script.meets_bindT, Script.meets_ofExcept, orMatrix, Script.due,
            Script.meets_bindT, Script.meets_requestT]
          refine ⟨h₂.confined hget, fun known => ?_⟩
          have h₃ := h₂.concat (x := ⟨_, known⟩) hget
          cases known with
          | true =>
              exact ⟨h₃, trivial⟩
          | false =>
              exact h₃.reported _

/-- The state is the answer of the last exchange. -/
theorem readEncryptionState_meets (h : Prepared (client.router.resolve message) history) :
    (readEncryptionState (client.router.resolve message)).run.Meets
      (Confined templates client message key)
      (PreparedOr (client.router.resolve message) fun history state =>
        history.getLast? =
          some ⟨.encryptionState (client.router.resolve message), state⟩) history := by
  have hread : Prepares (client.router.resolve message)
      (.encryptionState (client.router.resolve message)) := ⟨rfl, rfl⟩
  have hask : Prepares (client.router.resolve message)
      (.requestEncryptionState (client.router.resolve message)) := ⟨rfl, rfl⟩
  rw [readEncryptionState, Script.meets_bindT]
  refine Script.meets_requestT.mpr ⟨h.confined hread, fun state => ?_⟩
  have h₁ := h.concat (x := ⟨_, state⟩) hread
  rw [Script.due]
  split_ifs with hunknown
  · rw [Script.meets_bindT, Script.meets_requestT]
    refine ⟨h₁.confined hask, fun asked => ?_⟩
    have h₂ := h₁.concat (x := ⟨_, asked⟩) hask
    cases asked with
    | error error =>
        exact h₂.reported _
    | ok _ =>
        rw [Script.due, Script.meets_bindT, Script.meets_ofExcept, orMatrix, Script.due]
        exact Script.meets_requestT.mpr ⟨h₂.confined hread, fun state =>
          ⟨h₂.concat (x := ⟨_, state⟩) hread, List.getLast?_concat⟩⟩
  · exact ⟨h₁, List.getLast?_concat⟩

/-- The send ends the script, with what the homeserver has answered. -/
theorem send_meets {content : Str} {state : EncryptionState}
    (h : Prepared (client.router.resolve message) history)
    (hlast : history.getLast? =
      some ⟨.encryptionState (client.router.resolve message), state⟩)
    (hgate : client.requireE2ee = true → state = .encrypted)
    (hcontent : formatMessage templates message client.messageTemplate = .ok content) :
    (Fallible.request (.send (client.router.resolve message) content key) >>= fun sent =>
      Fallible.ofExcept (orMatrix "Matrix send failed: ".toList sent)).run.Meets
        (Confined templates client message key) Reported history := by
  rw [Script.meets_bindT, Script.meets_requestT]
  refine ⟨⟨h, rfl, ?_, fun _ => ⟨state, hlast, hgate⟩⟩, fun sent => ?_⟩
  · intro roomId content' transactionId heq
    cases heq
    exact ⟨hcontent, rfl⟩
  · cases sent with
    | error error =>
        constructor
        · intro hok
          cases hok
        · rintro ⟨x, hx, htaken⟩
          rcases List.mem_append.mp hx with hx | hx
          · rw [taken_of_prepares (h x hx)] at htaken
            cases htaken
          · rw [List.mem_singleton.mp hx] at htaken
            cases htaken
    | ok _ =>
        exact iff_of_true rfl ⟨_, List.mem_append_right _ (List.mem_singleton_self _), rfl⟩

theorem sendMessage_meets :
    (client.sendMessage templates message key).run.Meets
      (Confined templates client message key) Reported [] := by
  have hnil : Prepared (client.router.resolve message) [] := by
    intro x hx
    cases hx
  rw [MatrixClient.sendMessage, Script.meets_bindT, Script.meets_ofExcept]
  cases hcontent : formatMessage templates message client.messageTemplate with
  | error error =>
      exact hnil.reported error
  | ok content =>
      rw [Script.due]
      dsimp only
      rw [Script.meets_bindT]
      refine (enterRoom_meets hnil).mono (fun _ _ h => h) ?_
      rintro history (error | _) h
      · exact h
      rw [Script.due, Script.meets_bindT]
      refine (readEncryptionState_meets h.1).mono (fun _ _ h => h) ?_
      rintro history (error | state) h
      · exact h
      rw [Script.due, Script.meets_bindT, Script.meets_ofExcept, requireEncrypted]
      split_ifs with hrefused
      · exact h.1.reported _
      · refine send_meets h.1 h.2 (fun hrequire => ?_) hcontent
        by_contra hne
        exact hrefused ⟨hne, hrequire⟩

end Law

/-- Templates that render the body and nothing else. -/
def bodyTemplates : Templates where
  addTemplate := fun _ => .ok ()
  getTemplate := fun _ => .ok ()
  render := fun _ context => .ok context.body

/-- A client of one room that insists on encryption. -/
def oneRoomClient : MatrixClient Str Str Unit where
  client := ()
  router := { routes := [], defaultRoomId := "!room".toList }
  userId := "@bot".toList
  requireE2ee := true
  messageTemplate := "{{ body }}".toList

def shortMessage : Message where
  fromAddr := some "a@b".toList
  toAddrs := ["c@d".toList]
  subject := none
  body := "hi".toList

/-- A room that has to be joined, and whose encryption has to be asked for. -/
def newRoomExchanges : List (RoomExchange Str) :=
  [⟨.getRoom "!room".toList, false⟩, ⟨.joinRoomById "!room".toList, .ok ()⟩,
    ⟨.getRoom "!room".toList, true⟩, ⟨.encryptionState "!room".toList, .unknown⟩,
    ⟨.requestEncryptionState "!room".toList, .ok ()⟩,
    ⟨.encryptionState "!room".toList, .encrypted⟩]

theorem newRoom_leaves :
    (oneRoomClient.sendMessage bodyTemplates shortMessage "k".toList).run.Leaves newRoomExchanges
      (.ask (.send "!room".toList "hi".toList "k".toList)
        fun sent => .done (orMatrix "Matrix send failed: ".toList sent)) := by
  exact .ask (.ask (.ask (.ask (.ask (.ask (.refl _))))))

end Matrix
end ChimneyPost
