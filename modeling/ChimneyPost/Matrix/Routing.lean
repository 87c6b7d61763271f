import ChimneyPost.Error
import ChimneyPost.Lib.FirstMatch
import ChimneyPost.Queue.Store
import ChimneyPost.Text.Casing

/-!
# Routing

`src/matrix/routing.rs`.  Room ids are parsed by the `ruma` crate: `parseId` is its parser,
which gives a room or the text of an error.

`Meets` says in terms of the configured rule when a message is meant for its room, and
`RoutingLaw` what a router does with all rules and all messages (`routingLaw`).
-/

namespace ChimneyPost
namespace Matrix

open Queue (Message)

/-- A rule as it is configured. -/
structure RouteConfig where
  toAddr : Option Str
  fromAddr : Option Str
  roomId : Str
deriving DecidableEq

/-- A routing rule with its target room already parsed and validated. -/
structure CompiledRoute (RoomId : Type) where
  toAddr : Option Str
  fromAddr : Option Str
  roomId : RoomId
deriving DecidableEq

def CompiledRoute.matches {RoomId : Type} (route : CompiledRoute RoomId) (message : Message) :
    Bool :=
  (match route.fromAddr with
    | some wantFrom => message.fromAddr.any (fun f => eqIgnoreAsciiCase f wantFrom)
    | none => true) &&
  (match route.toAddr with
    | some wantTo => message.toAddrs.any (fun addr => eqIgnoreAsciiCase addr wantTo)
    | none => true)

/-- The rules in order, and the room where no rule matches. -/
structure Router (RoomId : Type) where
  routes : List (CompiledRoute RoomId)
  defaultRoomId : RoomId
deriving DecidableEq

/-- `Some` only when a value holds something besides whitespace. -/
def blankToNone (value : Option Str) : Option Str :=
  (value.map trim).filter (fun value => value ≠ [])

section Build

variable {RoomId : Type} (parseId : Str → Except Str RoomId)

def parseRoomId (value field : Str) : Except ChimneyError RoomId :=
  match parseId value with
  | .ok room => .ok room
  | .error error =>
      .error (.config ("invalid ".toList ++ field ++ " (".toList ++ value ++ "): ".toList ++ error))

/-- One rule of `Router::build`, with its index. -/
def compileRoute (route : RouteConfig) (idx : Nat) : Except ChimneyError (CompiledRoute RoomId) :=
  let toAddr := blankToNone route.toAddr
  let fromAddr := blankToNone route.fromAddr
  if toAddr = none ∧ fromAddr = none then
    .error (.config ("matrix.routes[".toList ++ natToStr idx ++
      "] must set at least one of `to` or `from`".toList))
  else
    match parseRoomId parseId route.roomId
        ("matrix.routes[".toList ++ natToStr idx ++ "].room_id".toList) with
    | .ok roomId => .ok { toAddr := toAddr, fromAddr := fromAddr, roomId := roomId }
    | .error error => .error error

def Router.build (defaultRoomId : Str) (routes : List RouteConfig) :
    Except ChimneyError (Router RoomId) := do
  let defaultRoomId ← parseRoomId parseId defaultRoomId "matrix.room_id".toList
  let routes ← routes.zipIdx.mapM (fun (route, idx) => compileRoute parseId route idx)
  return { routes := routes, defaultRoomId := defaultRoomId }

end Build

/-- The first matching rule's room, or the default room. -/
def Router.resolve {RoomId : Type} (router : Router RoomId) (message : Message) : RoomId :=
  ((router.routes.find? (fun route => route.matches message)).map (fun route => route.roomId)).getD
    router.defaultRoomId

/-! ## What a rule asks for -/

/-- The value of a selector, without the whitespace around it. -/
def Selects (value : Option Str) (want : Str) : Prop :=
  ∃ s, value = some s ∧ want = trim s ∧ want ≠ []

/-- Every selector that is not blank is met, by the sender or by a recipient. -/
def Meets (route : RouteConfig) (message : Message) : Prop :=
  (∀ want, Selects route.fromAddr want → ∃ f, message.fromAddr = some f ∧
    toAsciiLowercase f = toAsciiLowercase want) ∧
  (∀ want, Selects route.toAddr want → ∃ addr ∈ message.toAddrs,
    toAsciiLowercase addr = toAsciiLowercase want)

/-- The same sender and the same recipients, up to case, order and repetition. -/
def SameEnvelope (m m' : Message) : Prop :=
  m.fromAddr.map toAsciiLowercase = m'.fromAddr.map toAsciiLowercase ∧
    ∀ addr, addr ∈ m.toAddrs.map toAsciiLowercase ↔ addr ∈ m'.toAddrs.map toAsciiLowercase

theorem blankToNone_eq_some {value : Option Str} {want : Str} :
    blankToNone value = some want ↔ Selects value want := by
  rw [blankToNone, Option.filter_eq_some_iff, Option.map_eq_some_iff]
  constructor
  · rintro ⟨⟨s, rfl, rfl⟩, hne⟩
    exact ⟨s, rfl, rfl, by simpa using hne⟩
  · rintro ⟨s, rfl, rfl, hne⟩
    exact ⟨⟨s, rfl, rfl⟩, by simpa using hne⟩

theorem blankToNone_eq_none {value : Option Str} :
    blankToNone value = none ↔ ∀ want, ¬ Selects value want := by
  rw [Option.eq_none_iff_forall_ne_some]
  exact forall_congr' fun want => not_congr blankToNone_eq_some

/-! ## What is built -/

section Law

variable {RoomId : Type} {parseId : Str → Except Str RoomId}

/-- A configured rule and what it is compiled to. -/
structure Compiles (parseId : Str → Except Str RoomId) (route : RouteConfig)
    (compiled : CompiledRoute RoomId) : Prop where
  room : parseId route.roomId = .ok compiled.roomId
  selects : (∃ want, Selects route.toAddr want) ∨ ∃ want, Selects route.fromAddr want
  toAddr : compiled.toAddr = blankToNone route.toAddr
  fromAddr : compiled.fromAddr = blankToNone route.fromAddr

theorem parseRoomId_ok_iff {value field : Str} {room : RoomId} :
    parseRoomId parseId value field = .ok room ↔ parseId value = .ok room := by
  rw [parseRoomId]
  cases parseId value with
  | error error =>
      simp
  | ok room' =>
      simp

theorem compileRoute_ok_iff {route : RouteConfig} {idx : Nat} {compiled : CompiledRoute RoomId} :
    compileRoute parseId route idx = .ok compiled ↔ Compiles parseId route compiled := by
  have hselects : ¬ (blankToNone route.toAddr = none ∧ blankToNone route.fromAddr = none) ↔
      (∃ want, Selects route.toAddr want) ∨ ∃ want, Selects route.fromAddr want := by
    rw [blankToNone_eq_none, blankToNone_eq_none, not_and_or, not_forall_not, not_forall_not]
  rw [compileRoute]
  constructor
  · intro h
    split_ifs at h with hblank
    split at h
    · next roomId hroom =>
        cases h
        exact ⟨parseRoomId_ok_iff.mp hroom, hselects.mp hblank, rfl, rfl⟩
    · cases h
  · rintro ⟨hroom, hsel, hto, hfrom⟩
    rw [if_neg (hselects.mpr hsel), parseRoomId_ok_iff.mpr hroom]
    rw [← hto, ← hfrom]

/-- Rules are compiled in order, and none is left out. -/
theorem mapM_compileRoute_iff {routes : List RouteConfig} {n : Nat}
    {compiled : List (CompiledRoute RoomId)} :
    (routes.zipIdx n).mapM (fun (route, idx) => compileRoute parseId route idx) = .ok compiled ↔
      List.Forall₂ (Compiles parseId) routes compiled := by
  rw [FirstMatch.mapM_ok_iff]
  have hforget : List.Forall₂ (Compiles parseId) ((routes.zipIdx n).map Prod.fst) compiled ↔
      List.Forall₂ (fun x c => Compiles parseId x.1 c) (routes.zipIdx n) compiled :=
    List.forall₂_map_left_iff
  rw [List.zipIdx_map_fst] at hforget
  rw [hforget]
  constructor
  · intro h
    exact h.imp fun _ _ hx => compileRoute_ok_iff.mp hx
  · intro h
    exact h.imp fun _ _ hx => compileRoute_ok_iff.mpr hx

theorem build_ok_iff {defaultRoom : Str} {routes : List RouteConfig} {router : Router RoomId} :
    Router.build parseId defaultRoom routes = .ok router ↔
      parseId defaultRoom = .ok router.defaultRoomId ∧
        List.Forall₂ (Compiles parseId) routes router.routes := by
  have hdefault : parseRoomId parseId defaultRoom "matrix.room_id".toList =
      .ok router.defaultRoomId ↔ parseId defaultRoom = .ok router.defaultRoomId :=
    parseRoomId_ok_iff
  rw [← mapM_compileRoute_iff (n := 0), ← hdefault, Router.build]
  cases parseRoomId parseId defaultRoom "matrix.room_id".toList with
  | error error =>
      constructor
      · intro h
        cases h
      · rintro ⟨h, -⟩
        cases h
  | ok room =>
      cases routes.zipIdx.mapM (fun (route, idx) => compileRoute parseId route idx) with
      | error error =>
          constructor
          · intro h
            cases h
          · rintro ⟨-, h⟩
            cases h
      | ok compiled =>
          constructor
          · intro h
            cases h
            exact ⟨rfl, rfl⟩
          · rintro ⟨hroom, hroutes⟩
            cases hroom
            cases hroutes
            rfl

/-- A compiled rule matches what the configured rule asks for. -/
theorem matches_iff {route : RouteConfig} {compiled : CompiledRoute RoomId}
    (h : Compiles parseId route compiled) (message : Message) :
    compiled.matches message = true ↔ Meets route message := by
  have hfrom : (match compiled.fromAddr with
      | some wantFrom => message.fromAddr.any (fun f => eqIgnoreAsciiCase f wantFrom)
      | none => true) = true ↔
      ∀ want, Selects route.fromAddr want → ∃ f, message.fromAddr = some f ∧
        toAsciiLowercase f = toAsciiLowercase want := by
    rw [h.fromAddr]
    cases hvalue : blankToNone route.fromAddr with
    | none =>
        have hnone := blankToNone_eq_none.mp hvalue
        exact iff_of_true rfl fun want hwant => absurd hwant (hnone want)
    | some wantFrom =>
        have hsome := blankToNone_eq_some.mp hvalue
        simp only [Option.any_eq_true_iff_get, eqIgnoreAsciiCase, beq_iff_eq]
        constructor
        · rintro ⟨hsender, hsame⟩ want hwant
          have hwant' := blankToNone_eq_some.mpr hwant
          rw [hvalue] at hwant'
          rw [← Option.some.inj hwant']
          exact ⟨_, (Option.some_get hsender).symm, hsame⟩
        · intro hall
          obtain ⟨f, hsender, hsame⟩ := hall wantFrom hsome
          refine ⟨by rw [hsender]; rfl, ?_⟩
          simpa only [hsender, Option.get_some] using hsame
  have hto : (match compiled.toAddr with
      | some wantTo => message.toAddrs.any (fun addr => eqIgnoreAsciiCase addr wantTo)
      | none => true) = true ↔
      ∀ want, Selects route.toAddr want → ∃ addr ∈ message.toAddrs,
        toAsciiLowercase addr = toAsciiLowercase want := by
    rw [h.toAddr]
    cases hvalue : blankToNone route.toAddr with
    | none =>
        have hnone := blankToNone_eq_none.mp hvalue
        exact iff_of_true rfl fun want hwant => absurd hwant (hnone want)
    | some wantTo =>
        have hsome := blankToNone_eq_some.mp hvalue
        simp only [List.any_eq_true, eqIgnoreAsciiCase, beq_iff_eq]
        constructor
        · intro hany want hwant
          have hwant' := blankToNone_eq_some.mpr hwant
          rw [hvalue] at hwant'
          rw [← Option.some.inj hwant']
          exact hany
        · intro hall
          exact hall wantTo hsome
  rw [CompiledRoute.matches, Bool.and_eq_true, hfrom, hto]
  rfl

/-- Only the envelope counts, and of it only what case, order and repetition leave. -/
theorem meets_congr {route : RouteConfig} {m m' : Message} (h : SameEnvelope m m') :
    Meets route m ↔ Meets route m' := by
  have hfrom : ∀ want, (∃ f, m.fromAddr = some f ∧ toAsciiLowercase f = want) ↔
      ∃ f, m'.fromAddr = some f ∧ toAsciiLowercase f = want := by
    intro want
    rw [← Option.map_eq_some_iff, h.1, Option.map_eq_some_iff]
  have hto : ∀ want, (∃ addr ∈ m.toAddrs, toAsciiLowercase addr = want) ↔
      ∃ addr ∈ m'.toAddrs, toAsciiLowercase addr = want := by
    intro want
    rw [← List.mem_map, h.2, List.mem_map]
  rw [Meets, Meets]
  simp only [hfrom, hto]

/-- The null sender meets no selector for senders. -/
theorem not_meets_of_null_sender {route : RouteConfig} {message : Message} {want : Str}
    (hsender : message.fromAddr = none) (hwant : Selects route.fromAddr want) :
    ¬ Meets route message := by
  rintro ⟨hfrom, -⟩
  obtain ⟨f, hsome, -⟩ := hfrom want hwant
  rw [hsender] at hsome
  cases hsome

/-! ## The law of routing -/

variable (parseId)

/-- What is built from a default room and rules, and where messages go then. -/
structure RoutingLaw (defaultRoom : Str) (routes : List RouteConfig) : Prop where
  /-- every room parses and every rule has a selector that is not blank -/
  builds : (∃ router, Router.build parseId defaultRoom routes = .ok router) ↔
    (∃ room, parseId defaultRoom = .ok room) ∧ ∀ route ∈ routes,
      (∃ room, parseId route.roomId = .ok room) ∧
        ((∃ want, Selects route.toAddr want) ∨ ∃ want, Selects route.fromAddr want)
  /-- the first rule that is met decides -/
  first : ∀ router, Router.build parseId defaultRoom routes = .ok router →
    ∀ (message : Message) (before : List RouteConfig) (route : RouteConfig)
      (after : List RouteConfig), routes = before ++ route :: after →
        (∀ earlier ∈ before, ¬ Meets earlier message) → Meets route message →
          parseId route.roomId = .ok (router.resolve message)
  fallback : ∀ router, Router.build parseId defaultRoom routes = .ok router →
    ∀ message : Message, (∀ route ∈ routes, ¬ Meets route message) →
      parseId defaultRoom = .ok (router.resolve message)
  envelope : ∀ router, Router.build parseId defaultRoom routes = .ok router →
    ∀ m m' : Message, SameEnvelope m m' → router.resolve m = router.resolve m'
  /-- a compiled rule with a selector for senders does not match the null sender -/
  nullSender : ∀ router, Router.build parseId defaultRoom routes = .ok router →
    ∀ (i : Nat) (route : RouteConfig) (compiled : CompiledRoute RoomId) (want : Str)
      (message : Message), routes[i]? = some route → router.routes[i]? = some compiled →
        Selects route.fromAddr want → message.fromAddr = none → compiled.matches message = false
  append : ∀ router rule router', Router.build parseId defaultRoom routes = .ok router →
    Router.build parseId defaultRoom (routes ++ [rule]) = .ok router' →
      ∀ message : Message, (∃ route ∈ routes, Meets route message) →
        router'.resolve message = router.resolve message

variable {parseId}

theorem exists_compiles_iff (routes : List RouteConfig) :
    (∃ compiled, List.Forall₂ (Compiles parseId) routes compiled) ↔ ∀ route ∈ routes,
      (∃ room, parseId route.roomId = .ok room) ∧
        ((∃ want, Selects route.toAddr want) ∨ ∃ want, Selects route.fromAddr want) := by
  induction routes with
  | nil =>
      exact iff_of_true ⟨[], .nil⟩ (by simp)
  | cons route routes ih =>
      rw [List.forall_mem_cons, ← ih]
      constructor
      · rintro ⟨compiled, h⟩
        obtain ⟨c, cs, hc, hcs, -⟩ := List.forall₂_cons_left_iff.mp h
        exact ⟨⟨⟨c.roomId, hc.room⟩, hc.selects⟩, cs, hcs⟩
      · rintro ⟨⟨⟨room, hroom⟩, hselects⟩, cs, hcs⟩
        exact ⟨⟨blankToNone route.toAddr, blankToNone route.fromAddr, room⟩ :: cs,
          .cons ⟨hroom, hselects, rfl, rfl⟩ hcs⟩

/-- The room of the first rule that is met. -/
theorem resolve_first {router : Router RoomId} {before after : List RouteConfig}
    {route : RouteConfig} {message : Message}
    (hroutes : List.Forall₂ (Compiles parseId) (before ++ route :: after) router.routes)
    (hbefore : ∀ earlier ∈ before, ¬ Meets earlier message) (hmeets : Meets route message) :
    ∃ compiled, router.routes.find? (fun c => c.matches message) = some compiled ∧
      Compiles parseId route compiled ∧ router.resolve message = compiled.roomId := by
  have hmatches : ∀ (route : RouteConfig) (c : CompiledRoute RoomId), Compiles parseId route c →
      (c.matches message = true ↔ Meets route message) :=
    fun _ _ h => matches_iff h message
  obtain ⟨compiled, hfound, hcompiles⟩ :=
    FirstMatch.find?_of_forall₂ hmatches hroutes hbefore hmeets
  refine ⟨compiled, hfound, hcompiles, ?_⟩
  rw [Router.resolve, hfound]
  rfl

/-- The first of the rules that are met. -/
theorem exists_first {routes : List RouteConfig} {message : Message}
    (h : ∃ route ∈ routes, Meets route message) : ∃ before route after,
      routes = before ++ route :: after ∧ (∀ earlier ∈ before, ¬ Meets earlier message) ∧
        Meets route message := by
  induction routes with
  | nil =>
      obtain ⟨route, hmem, -⟩ := h
      cases hmem
  | cons route routes ih =>
      by_cases hmeets : Meets route message
      · exact ⟨[], route, routes, rfl, by simp, hmeets⟩
      · have hlater : ∃ later ∈ routes, Meets later message := by
          obtain ⟨later, hmem, hlater⟩ := h
          rcases List.mem_cons.mp hmem with rfl | hmem
          · exact absurd hlater hmeets
          · exact ⟨later, hmem, hlater⟩
        obtain ⟨before, later, after, rfl, hbefore, hlater⟩ := ih hlater
        refine ⟨route :: before, later, after, rfl, ?_, hlater⟩
        exact List.forall_mem_cons.mpr ⟨hmeets, hbefore⟩

theorem Compiles.functional {route : RouteConfig} {c c' : CompiledRoute RoomId}
    (h : Compiles parseId route c) (h' : Compiles parseId route c') : c = c' := by
  have hroom := h.room.symm.trans h'.room
  cases c
  cases c'
  cases hroom
  obtain ⟨-, -, rfl, rfl⟩ := h
  obtain ⟨-, -, rfl, rfl⟩ := h'
  rfl

/-- **Routing goes by the first rule that is met.** -/
theorem routingLaw (defaultRoom : Str) (routes : List RouteConfig) :
    RoutingLaw parseId defaultRoom routes where
  builds := by
    rw [← exists_compiles_iff]
    constructor
    · rintro ⟨router, h⟩
      obtain ⟨hdefault, hroutes⟩ := build_ok_iff.mp h
      exact ⟨⟨router.defaultRoomId, hdefault⟩, router.routes, hroutes⟩
    · rintro ⟨⟨room, hdefault⟩, compiled, hroutes⟩
      exact ⟨⟨compiled, room⟩, build_ok_iff.mpr ⟨hdefault, hroutes⟩⟩
  first := by
    rintro router h message before route after rfl hbefore hmeets
    obtain ⟨-, hroutes⟩ := build_ok_iff.mp h
    obtain ⟨compiled, -, hcompiles, hroom⟩ := resolve_first hroutes hbefore hmeets
    rw [hroom]
    exact hcompiles.room
  fallback := by
    intro router h message hnone
    obtain ⟨hdefault, hroutes⟩ := build_ok_iff.mp h
    have hmatches : ∀ (route : RouteConfig) (c : CompiledRoute RoomId), Compiles parseId route c →
        (c.matches message = true ↔ Meets route message) :=
      fun _ _ hc => matches_iff hc message
    have hfind := FirstMatch.find?_eq_none_of_forall₂ hmatches hroutes hnone
    rw [Router.resolve, hfind]
    exact hdefault
  envelope := by
    intro router h m m' hsame
    obtain ⟨-, hroutes⟩ := build_ok_iff.mp h
    have hmatches : ∀ c ∈ router.routes, c.matches m = c.matches m' := by
      intro c hc
      obtain ⟨route, -, hcompiles⟩ := FirstMatch.exists_of_mem hroutes hc
      rw [Bool.eq_iff_iff, matches_iff hcompiles, matches_iff hcompiles, meets_congr hsame]
    rw [Router.resolve, Router.resolve, List.find?_congr hmatches]
  nullSender := by
    intro router h i route compiled want message hroute hcompiled hwant hsender
    obtain ⟨-, hroutes⟩ := build_ok_iff.mp h
    have hcompiles := FirstMatch.rel_of_getElem? hroutes hroute hcompiled
    rw [Bool.eq_false_iff]
    exact mt (matches_iff hcompiles message).mp (not_meets_of_null_sender hsender hwant)
  append := by
    intro router rule router' h h' message hmet
    obtain ⟨hdefault, hroutes⟩ := build_ok_iff.mp h
    obtain ⟨hdefault', hroutes'⟩ := build_ok_iff.mp h'
    obtain ⟨before, route, after, rfl, hbefore, hmeets⟩ := exists_first hmet
    obtain ⟨c, -, hc, hroom⟩ := resolve_first hroutes hbefore hmeets
    rw [List.append_assoc, List.cons_append] at hroutes'
    obtain ⟨c', -, hc', hroom'⟩ := resolve_first hroutes' hbefore hmeets
    rw [hroom, hroom', hc.functional hc']

end Law

end Matrix
end ChimneyPost
