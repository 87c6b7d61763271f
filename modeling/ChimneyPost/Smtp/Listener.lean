import ChimneyPost.Smtp.Machine
import ChimneyPost.Smtp.Reference

/-!
# The listener

`serve_smtp` of `src/smtp/server.rs`: a semaphore in front of the sessions of
`Smtp/Machine.lean`.  A connection that is accepted takes a permit or is refused with 421;
the handler that is spawned for it holds the permit until it ends, in whatever way.

No permit is lost and none is handed out twice, over every run: the permits left and the
handlers make up the limit (`counted_of_run`).  So the limit is never exceeded, a
connection is refused when and only when it is reached (`connections_limited`), and what all
sessions hold in their buffers is bounded (`buffers_bounded`).
-/

namespace ChimneyPost
namespace Smtp

open Queue (Event DeliveryWorker Db)

structure Listener where
  machine : Machine
  /-- the size of the semaphore -/
  limit : Nat
  /-- what is left in it -/
  permits : Nat
  /-- the connections whose handler has not written its greeting yet -/
  greeting : Nat → Option Reader

/-- `serve_smtp` at its start. -/
def Listener.start (maxConnections : Nat) (machine : Machine) : Listener where
  machine := machine
  limit := max maxConnections 1
  permits := max maxConnections 1
  greeting := fun _ => none

inductive ListenerEvent where
  | acceptFailed
  /-- a connection is accepted with a permit, and its handler is spawned -/
  | accept (t : Nat) (reader : Reader)
  /-- a connection is accepted and finds no permit -/
  | refuse
  /-- the greeting is written -/
  | greet (t : Nat)
  /-- the handler ends before that, by its deadline or because it cannot write -/
  | hangUp (t : Nat)
  /-- an event of the sessions, the store and the worker -/
  | machine (e : MachineEvent)
  /-- the process dies and a new one listens -/
  | restart (maxConnections : Nat) (config : DeliveryWorker) (maxLen : Nat)
deriving DecidableEq

/-- The session an event ends. -/
def MachineEvent.ends : MachineEvent → Option Nat
  | .leave t => some t
  | .process (.cancel t) => some t
  | _ => none

/-- An event that begins a session or a process, which the listener does. -/
def MachineEvent.begins : MachineEvent → Bool
  | .connect _ _ => true
  | .process (.crash _ _) => true
  | _ => false

namespace Listener

/-- The permits that come back with an event. -/
def released (l : Listener) (e : MachineEvent) : Nat :=
  match e.ends with
  | some t => if (l.machine.sessions t).isSome then 1 else 0
  | none => 0

/-- One event; `none` when it cannot happen. -/
def step (server : Server) (l : Listener) : ListenerEvent → Option Listener
  | .acceptFailed => some l
  | .accept t reader =>
      if 0 < l.permits ∧ l.greeting t = none ∧ l.machine.sessions t = none then
        some { l with
          permits := l.permits - 1
          greeting := Function.update l.greeting t (some reader) }
      else
        none
  | .refuse => if l.permits = 0 then some l else none
  | .greet t =>
      (l.greeting t).bind fun reader =>
        (Machine.step server l.machine (.connect t reader)).map fun machine =>
          { l with machine := machine, greeting := Function.update l.greeting t none }
  | .hangUp t =>
      if l.greeting t ≠ none then
        some { l with
          permits := l.permits + 1
          greeting := Function.update l.greeting t none }
      else
        none
  | .machine e =>
      if e.begins then
        none
      else
        (Machine.step server l.machine e).map fun machine =>
          { l with machine := machine, permits := l.permits + l.released e }
  | .restart maxConnections config maxLen =>
      (Machine.step server l.machine (.process (.crash config maxLen))).map fun machine =>
        Listener.start maxConnections machine

/-- The state a run reaches. -/
abbrev run (server : Server) (l : Listener) (es : List ListenerEvent) : Option Listener :=
  Replay.replay (step server) l es

/-- The connections that have a handler. -/
def busy (l : Listener) : Set Nat :=
  {t | l.greeting t ≠ none ∨ l.machine.sessions t ≠ none}

end Listener

/-! ## What each event does -/

section Steps

variable {server : Server} {l l' : Listener} {t : Nat}

theorem listenerStep_accept {reader : Reader} :
    Listener.step server l (.accept t reader) = some l' ↔
      (0 < l.permits ∧ l.greeting t = none ∧ l.machine.sessions t = none) ∧
      l' = { l with
        permits := l.permits - 1
        greeting := Function.update l.greeting t (some reader) } := by
  exact Replay.guarded_eq_some

theorem listenerStep_refuse :
    Listener.step server l .refuse = some l' ↔ l.permits = 0 ∧ l' = l := by
  exact Replay.guarded_eq_some

theorem listenerStep_greet :
    Listener.step server l (.greet t) = some l' ↔
      ∃ reader machine, l.greeting t = some reader ∧
        Machine.step server l.machine (.connect t reader) = some machine ∧
        l' = { l with machine := machine, greeting := Function.update l.greeting t none } := by
  rw [Listener.step, Option.bind_eq_some_iff]
  constructor
  · rintro ⟨reader, hreader, hmap⟩
    obtain ⟨machine, hmachine, rfl⟩ := Option.map_eq_some_iff.mp hmap
    exact ⟨reader, machine, hreader, hmachine, rfl⟩
  · rintro ⟨reader, machine, hreader, hmachine, rfl⟩
    exact ⟨reader, hreader, Option.map_eq_some_iff.mpr ⟨machine, hmachine, rfl⟩⟩

theorem listenerStep_hangUp :
    Listener.step server l (.hangUp t) = some l' ↔
      l.greeting t ≠ none ∧
      l' = { l with
        permits := l.permits + 1
        greeting := Function.update l.greeting t none } := by
  exact Replay.guarded_eq_some

theorem listenerStep_machine {e : MachineEvent} :
    Listener.step server l (.machine e) = some l' ↔
      ∃ machine, e.begins = false ∧ Machine.step server l.machine e = some machine ∧
        l' = { l with machine := machine, permits := l.permits + l.released e } := by
  rw [Listener.step]
  constructor
  · intro hstep
    split_ifs at hstep with hbegins
    obtain ⟨machine, hmachine, rfl⟩ := Option.map_eq_some_iff.mp hstep
    exact ⟨machine, Bool.eq_false_iff.mpr hbegins, hmachine, rfl⟩
  · rintro ⟨machine, hbegins, hmachine, rfl⟩
    rw [if_neg (Bool.eq_false_iff.mp hbegins), hmachine, Option.map_some]

theorem listenerStep_restart {maxConnections maxLen : Nat} {config : DeliveryWorker} :
    Listener.step server l (.restart maxConnections config maxLen) = some l' ↔
      ∃ machine, Machine.step server l.machine (.process (.crash config maxLen)) = some machine ∧
        l' = Listener.start maxConnections machine := by
  rw [Listener.step, Option.map_eq_some_iff]
  exact exists_congr fun machine => and_congr_right fun _ => eq_comm

end Steps

/-! ## The machine goes its way -/

/-- What an event of the listener is for the machine behind it. -/
def Listener.seen (l : Listener) : ListenerEvent → Option MachineEvent
  | .greet t => (l.greeting t).map (.connect t)
  | .machine e => some e
  | .restart _ config maxLen => some (.process (.crash config maxLen))
  | _ => none

section Runs

variable {server : Server} {l l' : Listener} {t : Nat}

theorem listener_seen {e : ListenerEvent} (h : Listener.step server l e = some l') :
    Machine.run server l.machine (l.seen e).toList = some l'.machine := by
  cases e with
  | acceptFailed =>
      obtain rfl := Option.some.inj h
      rfl
  | accept t reader =>
      obtain ⟨_, rfl⟩ := listenerStep_accept.mp h
      rfl
  | refuse =>
      obtain ⟨_, rfl⟩ := listenerStep_refuse.mp h
      rfl
  | greet t =>
      obtain ⟨reader, machine, hreader, hmachine, rfl⟩ := listenerStep_greet.mp h
      rw [Listener.seen, hreader]
      exact Replay.replay_cons_eq_some.mpr ⟨machine, hmachine, rfl⟩
  | hangUp t =>
      obtain ⟨_, rfl⟩ := listenerStep_hangUp.mp h
      rfl
  | machine e =>
      obtain ⟨machine, _, hmachine, rfl⟩ := listenerStep_machine.mp h
      exact Replay.replay_cons_eq_some.mpr ⟨machine, hmachine, rfl⟩
  | restart maxConnections config maxLen =>
      obtain ⟨machine, hmachine, rfl⟩ := listenerStep_restart.mp h
      exact Replay.replay_cons_eq_some.mpr ⟨machine, hmachine, rfl⟩

/-- Behind the listener there is a run of the machine. -/
theorem machine_of_listener {maxConnections maxLen : Nat} {config : DeliveryWorker} {db : Db}
    {es : List ListenerEvent}
    (hrun : Listener.run server
      (Listener.start maxConnections (Machine.start config maxLen db)) es = some l) :
    ∃ fs, Machine.run server (Machine.start config maxLen db) fs = some l.machine := by
  refine Replay.replay_invariant (I := fun _ l =>
    ∃ fs, Machine.run server (Machine.start config maxLen db) fs = some l.machine) ?_ ?_ hrun
  · exact ⟨[], rfl⟩
  · rintro es l e l' _ ⟨fs, hfs⟩ hstep
    exact ⟨fs ++ (l.seen e).toList,
      Replay.replay_append_eq_some.mpr ⟨_, hfs, listener_seen hstep⟩⟩

end Runs

/-! ## The sessions of the machine -/

section Sessions

variable {server : Server} {m m' : Machine} {t : Nat}

/-- An event that begins nothing ends at most the session it names. -/
theorem sessions_step {e : MachineEvent} (hbegins : e.begins = false)
    (hstep : Machine.step server m e = some m') (u : Nat) :
    m'.sessions u ≠ none ↔ m.sessions u ≠ none ∧ e.ends ≠ some u := by
  cases e with
  | connect t reader => cases hbegins
  | turn t =>
      obtain ⟨c, c', hc, _, _, _, rfl⟩ := machineStep_turn.mp hstep
      by_cases hu : u = t
      · subst hu
        simp [hc, MachineEvent.ends]
      · simp [Function.update_of_ne hu, MachineEvent.ends]
  | call t message createdAt =>
      obtain ⟨c, system, _, _, _, _, rfl⟩ := machineStep_call.mp hstep
      simp [MachineEvent.ends]
  | answer t message result =>
      obtain ⟨c, c', hc, _, _, rfl⟩ := machineStep_answer.mp hstep
      by_cases hu : u = t
      · subst hu
        simp [hc, MachineEvent.ends]
      · simp [Function.update_of_ne hu, MachineEvent.ends]
  | leave t =>
      obtain ⟨_, rfl⟩ := machineStep_leave.mp hstep
      by_cases hu : u = t
      · subst hu
        simp [MachineEvent.ends]
      · simp [Function.update_of_ne hu, MachineEvent.ends, Ne.symm hu]
  | process e =>
      obtain ⟨system, _, _, rfl⟩ := machineStep_process.mp hstep
      cases e with
      | cancel t =>
          by_cases hu : u = t
          · subst hu
            simp [MachineEvent.ends, Event.sessionsAfter]
          · simp [Event.sessionsAfter, Function.update_of_ne hu, MachineEvent.ends, Ne.symm hu]
      | crash config maxLen => cases hbegins
      | _ => simp [MachineEvent.ends, Event.sessionsAfter]
  | checkpoint =>
      obtain rfl := machineStep_checkpoint.mp hstep
      simp [MachineEvent.ends]

end Sessions

/-! ## Permits and handlers -/

/-- Every handler has a permit and every other permit is in the semaphore. -/
structure Counted (l : Listener) : Prop where
  finite : l.busy.Finite
  permits : l.permits + l.busy.ncard = l.limit
  /-- a handler that is about to greet has no session yet -/
  apart : ∀ t, l.greeting t ≠ none → l.machine.sessions t = none

section Counted

variable {server : Server} {l l' : Listener} {t : Nat}

theorem counted_start {maxConnections : Nat} {machine : Machine}
    (h : ∀ t, machine.sessions t = none) : Counted (Listener.start maxConnections machine) := by
  have hbusy : (Listener.start maxConnections machine).busy = ∅ := by
    ext t
    simp [Listener.busy, Listener.start, h]
  refine ⟨?_, ?_, fun t ht => absurd rfl ht⟩
  · rw [hbusy]
    exact Set.finite_empty
  · rw [hbusy, Set.ncard_empty]
    rfl

/-- A handler more. -/
theorem Counted.insert (h : Counted l) (ht : t ∉ l.busy) (hbusy : l'.busy = insert t l.busy)
    (hpermits : l'.permits + 1 = l.permits) (hlimit : l'.limit = l.limit)
    (hapart : ∀ t, l'.greeting t ≠ none → l'.machine.sessions t = none) : Counted l' := by
  refine ⟨?_, ?_, hapart⟩
  · rw [hbusy]
    exact h.finite.insert t
  · have hcount := h.permits
    rw [hbusy, Set.ncard_insert_of_notMem ht h.finite, hlimit]
    omega

/-- A handler less. -/
theorem Counted.erase (h : Counted l) (ht : t ∈ l.busy) (hbusy : l'.busy = l.busy \ {t})
    (hpermits : l'.permits = l.permits + 1) (hlimit : l'.limit = l.limit)
    (hapart : ∀ t, l'.greeting t ≠ none → l'.machine.sessions t = none) : Counted l' := by
  refine ⟨?_, ?_, hapart⟩
  · rw [hbusy]
    exact h.finite.subset Set.sdiff_subset
  · have hcount := h.permits
    have hless := Set.ncard_sdiff_singleton_add_one ht h.finite
    rw [hbusy, hlimit]
    omega

/-- The same handlers. -/
theorem Counted.keep (h : Counted l) (hbusy : l'.busy = l.busy)
    (hpermits : l'.permits = l.permits) (hlimit : l'.limit = l.limit)
    (hapart : ∀ t, l'.greeting t ≠ none → l'.machine.sessions t = none) : Counted l' := by
  refine ⟨?_, ?_, hapart⟩
  · rw [hbusy]
    exact h.finite
  · rw [hbusy, hpermits, hlimit]
    exact h.permits

/-- An event behind the listener gives back the permit of the session it ends. -/
theorem counted_machine (h : Counted l) {e : MachineEvent}
    (hstep : Listener.step server l (.machine e) = some l') :
    Counted l' := by
  obtain ⟨machine, hbegins, hmachine, rfl⟩ := listenerStep_machine.mp hstep
  have hsessions := sessions_step hbegins hmachine
  have hapart : ∀ t, l.greeting t ≠ none → machine.sessions t = none := by
    intro t ht
    by_contra hsession
    exact ((hsessions t).mp hsession).1 (h.apart t ht)
  have hmem : ∀ u, u ∈ ({ l with machine := machine, permits := l.permits + l.released e } :
      Listener).busy ↔ l.greeting u ≠ none ∨ l.machine.sessions u ≠ none ∧ e.ends ≠ some u := by
    intro u
    exact or_congr Iff.rfl (hsessions u)
  by_cases hended : ∃ t, e.ends = some t ∧ l.machine.sessions t ≠ none
  · obtain ⟨t, hends, hsession⟩ := hended
    refine h.erase (t := t) (Or.inr hsession) ?_ ?_ rfl hapart
    · ext u
      rw [hmem u, hends, Set.mem_sdiff, Set.mem_singleton_iff]
      constructor
      · rintro (hgreeting | ⟨hu, hne⟩)
        · refine ⟨Or.inl hgreeting, ?_⟩
          rintro rfl
          exact hsession (h.apart u hgreeting)
        · exact ⟨Or.inr hu, fun hut => hne (by rw [hut])⟩
      · rintro ⟨hgreeting | hu, hne⟩
        · exact Or.inl hgreeting
        · exact Or.inr ⟨hu, fun heq => hne (Option.some.inj heq).symm⟩
    · show l.permits + l.released e = l.permits + 1
      rw [Listener.released, hends]
      dsimp only
      rw [if_pos (Option.isSome_iff_ne_none.mpr hsession)]
  · refine h.keep ?_ ?_ rfl hapart
    · ext u
      rw [hmem u]
      refine or_congr Iff.rfl (and_iff_left_of_imp fun hu hends => ?_)
      exact hended ⟨u, hends, hu⟩
    · show l.permits + l.released e = l.permits
      rw [Listener.released]
      cases hends : e.ends with
      | none => rfl
      | some t =>
          have hnone : ¬ (l.machine.sessions t).isSome = true := fun hsome =>
            hended ⟨t, hends, Option.isSome_iff_ne_none.mp hsome⟩
          dsimp only
          rw [if_neg hnone]
          rfl

theorem counted_step (h : Counted l) {e : ListenerEvent}
    (hstep : Listener.step server l e = some l') :
    Counted l' := by
  cases e with
  | acceptFailed =>
      obtain rfl := Option.some.inj hstep
      exact h
  | accept t reader =>
      obtain ⟨⟨hpermits, hgreeting, hsession⟩, rfl⟩ := listenerStep_accept.mp hstep
      have ht : t ∉ l.busy := by
        rintro (hbusy | hbusy)
        · exact hbusy hgreeting
        · exact hbusy hsession
      refine h.insert ht ?_ (Nat.sub_add_cancel hpermits) rfl ?_
      · ext u
        by_cases hu : u = t
        · subst hu
          simp [Listener.busy]
        · simp [Listener.busy, hu]
      · intro u hgreet
        by_cases hu : u = t
        · subst hu
          exact hsession
        · simp only [Function.update_of_ne hu] at hgreet
          exact h.apart u hgreet
  | refuse =>
      obtain ⟨_, rfl⟩ := listenerStep_refuse.mp hstep
      exact h
  | greet t =>
      obtain ⟨reader, machine, hreader, hmachine, rfl⟩ := listenerStep_greet.mp hstep
      obtain ⟨_, rfl⟩ := machineStep_connect.mp hmachine
      refine h.keep ?_ rfl rfl ?_
      · ext u
        by_cases hu : u = t
        · subst hu
          simp [Listener.busy, hreader]
        · simp [Listener.busy, Function.update_of_ne hu]
      · intro u hgreet
        by_cases hu : u = t
        · subst hu
          simp at hgreet
        · simp only [Function.update_of_ne hu] at hgreet ⊢
          exact h.apart u hgreet
  | hangUp t =>
      obtain ⟨hgreeting, rfl⟩ := listenerStep_hangUp.mp hstep
      refine h.erase (t := t) (Or.inl hgreeting) ?_ rfl rfl ?_
      · ext u
        by_cases hu : u = t
        · subst hu
          simp [Listener.busy, h.apart u hgreeting]
        · simp [Listener.busy, hu]
      · intro u hgreet
        by_cases hu : u = t
        · subst hu
          simp at hgreet
        · simp only [Function.update_of_ne hu] at hgreet
          exact h.apart u hgreet
  | machine e => exact counted_machine h hstep
  | restart maxConnections config maxLen =>
      obtain ⟨machine, hmachine, rfl⟩ := listenerStep_restart.mp hstep
      obtain ⟨system, _, _, rfl⟩ := machineStep_process.mp hmachine
      exact counted_start fun _ => rfl

end Counted

/-! ## What a session holds while it reads -/

/-- The bytes in the buffers of `handle_connection` at each `await` of the reads of its next
turn. -/
def Session.held (server : Server) (s : Session) : List Nat :=
  (lineBuffers maxCommandLineBytes [] s.reader.slices).map List.length ++
    match s.dataReader, s.reader.readLineLimited maxCommandLineBytes with
    | some reader, (.text bytes _, _) =>
        -- the line of the command is still in `buffer`
        (reader.buffered server.maxMessageSize).map fun held =>
          bytes + (held.1.length + held.2.length)
    | _, _ => []

/-- What a session holds at most. -/
def Server.heldLimit (server : Server) : Nat :=
  maxCommandLineBytes + server.maxMessageSize + 4

/-- The command line that has been read is within its limit. -/
theorem length_of_readLineLimited {r r' : Reader} {maxBytes bytes : Nat} {text : Str}
    (h : r.readLineLimited maxBytes = (.text bytes text, r')) : bytes ≤ maxBytes := by
  have hreads := r.readsLine maxBytes
  rw [Reader.readLineLimited] at h
  split at h
  · next raw reader hraw =>
      rw [hraw] at hreads
      split at h
      · obtain ⟨hbytes, _⟩ := ReadText.text.inj (Prod.mk.inj h).1
        rw [← hbytes]
        cases hreads with
        | line _ _ hfits _ _ =>
            simpa using hfits
        | atEof _ _ hfits _ _ _ =>
            simpa using hfits
      · cases h
  · cases h
  · cases h

/-- What a session holds is bounded, whatever its client sends. -/
theorem Session.held_le (server : Server) (s : Session) :
    ∀ n ∈ s.held server, n ≤ server.heldLimit := by
  rw [Session.held]
  refine List.forall_mem_append.mpr ⟨?_, ?_⟩
  · intro n hn
    obtain ⟨line, hline, rfl⟩ := List.mem_map.mp hn
    have hle := lineBuffers_length (Nat.zero_le maxCommandLineBytes) line hline
    rw [Server.heldLimit]
    omega
  · split
    · next reader bytes text _ hreader hread =>
        intro n hn
        obtain ⟨held, hheld, rfl⟩ := List.mem_map.mp hn
        have hbytes := length_of_readLineLimited hread
        have hle := dataBuffers_length _ (Nat.zero_le server.maxMessageSize) held hheld
        rw [Server.heldLimit]
        omega
    · exact List.forall_mem_nil _

/-! ## Over whole runs -/

section Limits

variable {server : Server} {maxConnections maxLen : Nat} {config : DeliveryWorker} {db : Db}
  {es : List ListenerEvent} {l : Listener}

/-- **No permit is lost and none is handed out twice.** -/
theorem counted_of_run
    (hrun : Listener.run server
      (Listener.start maxConnections (Machine.start config maxLen db)) es = some l) :
    Counted l := by
  refine Replay.replay_invariant (I := fun _ l => Counted l) ?_ ?_ hrun
  · exact counted_start fun _ => rfl
  · intro es l e l' _ h hstep
    exact counted_step h hstep

/-- `smtp.max_connections` of the process that is running. -/
def configured (maxConnections : Nat) (es : List ListenerEvent) : Nat :=
  es.foldl (fun n e =>
    match e with
    | .restart maxConnections _ _ => maxConnections
    | _ => n) maxConnections

theorem limit_of_run
    (hrun : Listener.run server
      (Listener.start maxConnections (Machine.start config maxLen db)) es = some l) :
    l.limit = max (configured maxConnections es) 1 := by
  refine Replay.replay_invariant (I := fun es l =>
    l.limit = max (configured maxConnections es) 1) ?_ ?_ hrun
  · rfl
  · intro es l e l' _ h hstep
    rw [configured, List.foldl_concat]
    cases e with
    | acceptFailed =>
        obtain rfl := Option.some.inj hstep
        exact h
    | accept t reader =>
        obtain ⟨_, rfl⟩ := listenerStep_accept.mp hstep
        exact h
    | refuse =>
        obtain ⟨_, rfl⟩ := listenerStep_refuse.mp hstep
        exact h
    | greet t =>
        obtain ⟨reader, machine, _, _, rfl⟩ := listenerStep_greet.mp hstep
        exact h
    | hangUp t =>
        obtain ⟨_, rfl⟩ := listenerStep_hangUp.mp hstep
        exact h
    | machine e =>
        obtain ⟨machine, _, _, rfl⟩ := listenerStep_machine.mp hstep
        exact h
    | restart maxConnections config maxLen =>
        obtain ⟨machine, _, rfl⟩ := listenerStep_restart.mp hstep
        rfl

/-- The connections that are handled, and what becomes of the next one. -/
structure Limited (server : Server) (limit : Nat) (l : Listener) : Prop where
  finite : l.busy.Finite
  within : l.busy.ncard ≤ limit
  /-- refused at the limit and only there -/
  refused : (Listener.step server l .refuse).isSome = true ↔ l.busy.ncard = limit
  accepted : ∀ t reader, t ∉ l.busy →
    ((Listener.step server l (.accept t reader)).isSome = true ↔ l.busy.ncard < limit)

theorem Counted.limited (h : Counted l) : Limited server l.limit l := by
  have hcount := h.permits
  refine ⟨h.finite, by omega, ?_, ?_⟩
  · rw [Listener.step]
    split_ifs with hpermits
    · exact iff_of_true rfl (by omega)
    · exact iff_of_false (by simp) (by omega)
  · intro t reader ht
    rw [Listener.step]
    split_ifs with hguard
    · exact iff_of_true rfl (by omega)
    · refine iff_of_false (by simp) fun hlt => hguard ⟨by omega, ?_, ?_⟩
      · by_contra hgreeting
        exact ht (Or.inl hgreeting)
      · by_contra hsession
        exact ht (Or.inr hsession)

/-- **The limit on connections**: at every point of every run, with sessions that end in any
way and with restarts, at most `max_connections` are handled, and one is refused exactly
when that many are. -/
theorem connections_limited (server : Server) (maxConnections : Nat) (config : DeliveryWorker)
    (maxLen : Nat) (db : Db) (es : List ListenerEvent) (l : Listener)
    (hrun : Listener.run server
      (Listener.start maxConnections (Machine.start config maxLen db)) es = some l) :
    Limited server (max (configured maxConnections es) 1) l := by
  rw [← limit_of_run hrun]
  exact (counted_of_run hrun).limited

/-- The bytes a handler may hold while it reads. -/
def Listener.Holds (server : Server) (l : Listener) (t n : Nat) : Prop :=
  n = 0 ∨ ∃ c s, l.machine.sessions t = some c ∧ c.session = some s ∧ n ∈ s.held server

/-- **The buffers of all sessions together** are bounded by the limit on connections, whatever
the clients send and wherever in its reads each session is. -/
theorem buffers_bounded (server : Server) (maxConnections : Nat) (config : DeliveryWorker)
    (maxLen : Nat) (db : Db) (es : List ListenerEvent) (l : Listener)
    (hrun : Listener.run server
      (Listener.start maxConnections (Machine.start config maxLen db)) es = some l)
    (held : Nat → Nat) (hheld : ∀ t, l.Holds server t (held t)) :
    (Function.support held).Finite ∧
      ∑ᶠ t, held t ≤ max (configured maxConnections es) 1 * server.heldLimit := by
  have hcounted := counted_of_run hrun
  have hlimited : Limited server l.limit l := hcounted.limited
  have hle : ∀ t, held t ≤ server.heldLimit := by
    intro t
    rcases hheld t with hzero | ⟨c, s, _, _, hn⟩
    · rw [hzero]
      exact Nat.zero_le _
    · exact s.held_le server _ hn
  have hsupport : Function.support held ⊆ l.busy := by
    intro t ht
    rcases hheld t with hzero | ⟨c, s, hc, _, _⟩
    · exact absurd hzero ht
    · refine Or.inr ?_
      rw [hc]
      simp
  have hfinite := hcounted.finite.subset hsupport
  refine ⟨hfinite, ?_⟩
  rw [finsum_eq_sum_of_support_subset held (s := hcounted.finite.toFinset) (by simpa using hsupport)]
  calc ∑ t ∈ hcounted.finite.toFinset, held t
      ≤ hcounted.finite.toFinset.card * server.heldLimit :=
        Finset.sum_le_card_nsmul _ _ _ fun t _ => hle t
    _ = l.busy.ncard * server.heldLimit := by
        rw [Set.ncard_eq_toFinset_card l.busy hcounted.finite]
    _ ≤ max (configured maxConnections es) 1 * server.heldLimit := by
        rw [← limit_of_run hrun]
        exact Nat.mul_le_mul_right _ hlimited.within

end Limits

/-- One connection at a time: the second client is refused, and accepted once the first has
left. -/
def twoClients : List ListenerEvent :=
  [.accept 0 (Reader.ofText "NOOP\r\n"), .refuse, .greet 0, .machine (.turn 0),
    .machine (.leave 0), .accept 1 (Reader.ofText "HELO x\r\n"), .greet 1]

theorem twoClients_run : ∃ l, Listener.run smallServer
    (Listener.start 1 (Machine.start { maxRetries := 3, retryBackoff := 60 } 10 Db.empty))
    twoClients = some l ∧
    ∃ c s, l.machine.sessions 1 = some c ∧ c.session = some s ∧ 8 ∈ s.held smallServer := by
  exact ⟨_, rfl, _, _, rfl, rfl, by decide⟩

theorem twoClients_limited : ∃ l, Limited smallServer 1 l := by
  obtain ⟨l, hrun, _⟩ := twoClients_run
  exact ⟨l, connections_limited smallServer 1 _ 10 _ twoClients l hrun⟩

theorem twoClients_bounded : ∑ᶠ t : Nat, (if t = 1 then 8 else 0) ≤ 1 * smallServer.heldLimit := by
  obtain ⟨l, hrun, c, s, hc, hs, hheld⟩ := twoClients_run
  refine (buffers_bounded smallServer 1 _ 10 _ twoClients l hrun
    (fun t => if t = 1 then 8 else 0) fun t => ?_).2
  by_cases ht : t = 1
  · subst ht
    exact Or.inr ⟨c, s, hc, hs, hheld⟩
  · exact Or.inl (if_neg ht)

end Smtp
end ChimneyPost
