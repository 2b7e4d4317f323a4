/-
# Cvf.Exchanges.SessionLifecycle — `run` and `stop` of a session, await by await.

`PublicWebSocketSession.run` opens one connection after the other; `stop` may be called any number of
times, at any moment, and both close the active transport through `_close_active`.  Between two awaits
a task is not interrupted, so the model has one step per await: `SessionInput` says which task resumes
and what its await came to.  What stands in the fields decides who closes: the first closer of a
generation marks it in `closedGeneration` before its first await.

`log` records the transports opened, the calls of `close` and their ends, and the events.  Event
handlers do not raise here, and a transport may raise any recoverable error from any of its awaits.
-/
import Cvf.Library.Run

namespace Cvf

open Cvf.Library

/-! ## The tasks -/

inductive SessionEventKind where
  | connecting
  | connected
  | subscribed
  | messageReceived
  | heartbeatSent
  | heartbeatOk
  | disconnected
  | reconnectScheduled
  | unsubscribed
  | closed
  deriving DecidableEq, Repr

/-- `recoverable_errors` of `run`. -/
inductive RecoverableError where
  | connectionClosed
  | connectionError
  | osError
  | timeoutError
  | invalidHandshake
  | sessionError
  deriving DecidableEq, Repr

/-- `suppress(ConnectionClosed, ConnectionError, OSError)`; `TimeoutError` is an `OSError`. -/
def RecoverableError.suppressed : RecoverableError → Bool
  | .connectionClosed => true
  | .connectionError => true
  | .osError => true
  | .timeoutError => true
  | .invalidHandshake => false
  | .sessionError => false

/-- What an await comes to.  A `recv` returns a frame either way; a probe returns nothing for its pong
and the frame it has read otherwise. -/
inductive AwaitOutcome where
  | completed
  | completedWithFrame
  | raised (error : RecoverableError)
  deriving DecidableEq, Repr

/-- What can be seen of a session.  A transport is named by the generation it was opened in. -/
inductive Happening where
  | opened (transport : Nat)
  | event (kind : SessionEventKind) (generation : Nat)
  | closeCalled (transport : Nat)
  | closeCompleted (transport : Nat)
  deriving DecidableEq, Repr

structure SessionMessages where
  subscribeMessages : List String
  unsubscribeMessages : List String

/-- The fields of the session that its tasks share. -/
structure SessionFields where
  stopSet : Bool := false
  activeTransport : Option Nat := none
  activeGeneration : Nat := 0
  closedGeneration : Option Nat := none
  log : List Happening := []

/-- The awaits of `_close_active`. -/
inductive ClosePoint where
  /-- A send, with the messages behind it. -/
  | unsubscribing (transport : Nat) (rest : List String)
  | emittingUnsubscribed (transport : Nat)
  | closing (transport : Nat)
  | emittingClosed (transport : Nat)
  deriving DecidableEq, Repr

/-- How `_close_active` goes on. -/
inductive CloseProgress where
  | awaiting (point : ClosePoint)
  | returned
  | raised (error : RecoverableError)
  deriving DecidableEq, Repr

/-- The awaits of `run`. -/
inductive RunPoint where
  | notStarted
  | emittingConnecting
  | connecting
  | emittingConnected
  | subscribing (rest : List String)
  | emittingSubscribed
  | receiving
  | emittingHeartbeatSent
  | probing
  | emittingHeartbeatOk (frame : Bool)
  | emittingMessageReceived
  | handling
  | emittingDisconnected
  | closing (point : ClosePoint)
  | emittingReconnectScheduled
  | sleeping
  | returned
  | raised (error : RecoverableError)
  deriving DecidableEq, Repr

namespace SessionFields

/-- `_emit`, up to the handler's first await. -/
def emit (fields : SessionFields) (kind : SessionEventKind) : SessionFields :=
  { fields with log := fields.log ++ [.event kind fields.activeGeneration] }

/-- `transport.close()`, up to its first await. -/
def callClose (fields : SessionFields) (transport : Nat) : SessionFields × CloseProgress :=
  ({ fields with log := fields.log ++ [.closeCalled transport] }, .awaiting (.closing transport))

/-- `_close_active` from its call to its first await. -/
def closeActive (messages : SessionMessages) (fields : SessionFields) (graceful : Bool) :
    SessionFields × CloseProgress :=
  match fields.activeTransport with
  | none => (fields, .returned)
  | some transport =>
    if fields.closedGeneration = some fields.activeGeneration then (fields, .returned)
    else
      let fields := { fields with closedGeneration := some fields.activeGeneration }
      match graceful, messages.unsubscribeMessages with
      | true, _ :: rest => (fields, .awaiting (.unsubscribing transport rest))
      | _, _ => fields.callClose transport

/-- `close` has returned, or raised what is suppressed. -/
def closeCompleted (fields : SessionFields) (transport : Nat) : SessionFields × CloseProgress :=
  (emit { fields with log := fields.log ++ [.closeCompleted transport] } .closed,
    .awaiting (.emittingClosed transport))

/-- `_send_all` of the messages left to unsubscribe with, and what follows it. -/
def sendUnsubscriptions (fields : SessionFields) (transport : Nat) :
    List String → SessionFields × CloseProgress
  | [] => (fields.emit .unsubscribed, .awaiting (.emittingUnsubscribed transport))
  | _ :: rest => (fields, .awaiting (.unsubscribing transport rest))

/-- `_close_active` from one await to the next. -/
def resumeClose (fields : SessionFields) (outcome : AwaitOutcome) :
    ClosePoint → SessionFields × CloseProgress
  | .unsubscribing transport rest =>
    match outcome with
    | .raised error =>
      if error.suppressed then fields.callClose transport else (fields, .raised error)
    | _ => fields.sendUnsubscriptions transport rest
  | .emittingUnsubscribed transport => fields.callClose transport
  | .closing transport =>
    match outcome with
    | .raised error =>
      if error.suppressed then fields.closeCompleted transport else (fields, .raised error)
    | _ => fields.closeCompleted transport
  | .emittingClosed _ => ({ fields with activeTransport := none }, .returned)

/-- `run` at the top of its loop. -/
def loopTop (fields : SessionFields) : SessionFields × RunPoint :=
  if fields.stopSet then (fields, .returned) else (fields.emit .connecting, .emittingConnecting)

/-- `run` where `_close_active` has got to. -/
def afterClose : SessionFields × CloseProgress → SessionFields × RunPoint
  | (fields, .awaiting point) => (fields, .closing point)
  | (fields, .raised error) => (fields, .raised error)
  | (fields, .returned) =>
    if fields.stopSet then (fields, .returned)
    else (fields.emit .reconnectScheduled, .emittingReconnectScheduled)

/-- The `finally` clause. -/
def finallyClose (messages : SessionMessages) (fields : SessionFields) : SessionFields × RunPoint :=
  afterClose (fields.closeActive messages fields.stopSet)

/-- `except recoverable_errors`. -/
def caught (messages : SessionMessages) (fields : SessionFields) : SessionFields × RunPoint :=
  if fields.stopSet then fields.finallyClose messages
  else (fields.emit .disconnected, .emittingDisconnected)

/-- `_receive_loop` at the top of its loop. -/
def receiveTop (messages : SessionMessages) (fields : SessionFields) : SessionFields × RunPoint :=
  if fields.stopSet then fields.finallyClose messages else (fields, .receiving)

/-- `_send_all` of the subscriptions, and what follows it. -/
def sendSubscriptions (fields : SessionFields) : List String → SessionFields × RunPoint
  | [] => (fields.emit .subscribed, .emittingSubscribed)
  | _ :: rest => (fields, .subscribing rest)

/-- The connection has been made. -/
def connected (fields : SessionFields) : SessionFields :=
  emit
    { fields with
      activeGeneration := fields.activeGeneration + 1
      closedGeneration := none
      activeTransport := some (fields.activeGeneration + 1)
      log := fields.log ++ [.opened (fields.activeGeneration + 1)] }
    .connected

/-- `run` from one await to the next. -/
def resumeRun (messages : SessionMessages) (fields : SessionFields) (outcome : AwaitOutcome) :
    RunPoint → SessionFields × RunPoint
  | .notStarted => fields.loopTop
  | .emittingConnecting => (fields, .connecting)
  | .connecting =>
    match outcome with
    | .raised _ => fields.caught messages
    | _ => (fields.connected, .emittingConnected)
  | .emittingConnected => fields.sendSubscriptions messages.subscribeMessages
  | .subscribing rest =>
    match outcome with
    | .raised _ => fields.caught messages
    | _ => fields.sendSubscriptions rest
  | .emittingSubscribed => fields.receiveTop messages
  | .receiving =>
    match outcome with
    | .raised .timeoutError => (fields.emit .heartbeatSent, .emittingHeartbeatSent)
    | .raised _ => fields.caught messages
    | _ => (fields.emit .messageReceived, .emittingMessageReceived)
  | .emittingHeartbeatSent => (fields, .probing)
  | .probing =>
    match outcome with
    | .raised _ => fields.caught messages
    | .completed => (fields.emit .heartbeatOk, .emittingHeartbeatOk false)
    | .completedWithFrame => (fields.emit .heartbeatOk, .emittingHeartbeatOk true)
  | .emittingHeartbeatOk frame =>
    if frame then (fields.emit .messageReceived, .emittingMessageReceived)
    else fields.receiveTop messages
  | .emittingMessageReceived => (fields, .handling)
  | .handling =>
    match outcome with
    | .raised _ => fields.caught messages
    | _ => fields.receiveTop messages
  | .emittingDisconnected => fields.finallyClose messages
  | .closing point => afterClose (fields.resumeClose outcome point)
  | .emittingReconnectScheduled => (fields, .sleeping)
  | .sleeping => fields.loopTop
  | .returned => (fields, .returned)
  | .raised error => (fields, .raised error)

end SessionFields

/-- A session with its `run` task and every call of `stop` so far. -/
structure SessionTasks where
  fields : SessionFields := {}
  run : RunPoint := .notStarted
  stops : List CloseProgress := []

inductive TaskInput where
  /-- `stop()` is called. -/
  | callStop
  | resumeRun (outcome : AwaitOutcome)
  | resumeStop (index : Nat) (outcome : AwaitOutcome)
  deriving DecidableEq, Repr

namespace SessionTasks

def step (messages : SessionMessages) (s : SessionTasks) : TaskInput → SessionTasks
  | .callStop =>
    let (fields, progress) := SessionFields.closeActive messages { s.fields with stopSet := true } true
    { s with fields, stops := s.stops ++ [progress] }
  | .resumeRun outcome =>
    let (fields, run) := s.fields.resumeRun messages outcome s.run
    { s with fields, run }
  | .resumeStop index outcome =>
    match s.stops[index]? with
    | some (.awaiting point) =>
      let (fields, progress) := s.fields.resumeClose outcome point
      { s with fields, stops := s.stops.set index progress }
    | _ => s

end SessionTasks

/-! ## The log -/

/-- How often a transport's `close` was called, how often it completed, and the `CLOSED` events of its
generation. -/
def closeCounts (log : List Happening) (transport : Nat) : Nat × Nat × Nat :=
  (log.count (.closeCalled transport), log.count (.closeCompleted transport),
    log.count (.event .closed transport))

/-- The generations of the `CONNECTED` events, in order. -/
def connectedGenerations (log : List Happening) : List Nat :=
  log.filterMap fun
    | .event .connected generation => some generation
    | _ => none

/-- A connection is opened only when every one before it has been closed. -/
def OpensInTurn (log : List Happening) : Prop :=
  ∀ before after transport, log = before ++ .opened transport :: after →
    ∀ earlier, .opened earlier ∈ before → .closeCompleted earlier ∈ before

/-- The transport has been opened and its `close` has not completed. -/
def OpenIn (log : List Happening) (transport : Nat) : Prop :=
  .opened transport ∈ log ∧ .closeCompleted transport ∉ log

/-- Happenings of one generation that open nothing. -/
def Happening.Within (generation : Nat) : Happening → Prop
  | .opened _ => False
  | .event kind g => kind ≠ .connected ∧ g = generation
  | .closeCalled transport => transport = generation
  | .closeCompleted transport => transport = generation

/-- The log of a session in a generation: the earlier transports have been closed, each once. -/
structure Logged (log : List Happening) (generation : Nat) : Prop where
  connected : connectedGenerations log = List.range' 1 generation
  opened : ∀ transport, .opened transport ∈ log ↔ 1 ≤ transport ∧ transport ≤ generation
  inTurn : OpensInTurn log
  earlier : ∀ transport, 1 ≤ transport → transport < generation →
    closeCounts log transport = (1, 1, 1)
  later : ∀ transport, generation < transport → closeCounts log transport = (0, 0, 0)

theorem opensInTurn_append {log : List Happening} (h : OpensInTurn log) {happening : Happening}
    (hnew : ∀ transport, happening = .opened transport →
      ∀ earlier, .opened earlier ∈ log → .closeCompleted earlier ∈ log) :
    OpensInTurn (log ++ [happening]) := by
  intro before after transport hsplit earlier hearlier
  rcases List.eq_nil_or_concat after with rfl | ⟨after, last, rfl⟩
  · obtain ⟨rfl, hlast⟩ := List.append_inj' hsplit rfl
    exact hnew transport (List.cons.inj hlast).1 earlier hearlier
  · rw [List.concat_eq_append, ← List.cons_append, ← List.append_assoc] at hsplit
    exact h before after transport (List.append_inj' hsplit rfl).1 earlier hearlier

theorem closeCounts_append (log : List Happening) (happening : Happening) (transport : Nat) :
    closeCounts (log ++ [happening]) transport =
      ((closeCounts log transport).1 + if happening = .closeCalled transport then 1 else 0,
        (closeCounts log transport).2.1 + if happening = .closeCompleted transport then 1 else 0,
        (closeCounts log transport).2.2 + if happening = .event .closed transport then 1 else 0) := by
  simp [closeCounts, List.count_singleton]

theorem Logged.append {log : List Happening} {generation : Nat} (h : Logged log generation)
    {happening : Happening} (hwithin : happening.Within generation) :
    Logged (log ++ [happening]) generation := by
  have hnotOpened : ∀ transport, happening ≠ .opened transport := by
    rintro transport rfl
    exact hwithin
  -- the counts of other generations do not move
  have hother : ∀ transport, transport ≠ generation →
      closeCounts (log ++ [happening]) transport = closeCounts log transport := by
    intro transport hne
    rw [closeCounts_append]
    cases happening with
    | opened t => exact hwithin.elim
    | event kind g => simp [hwithin.2, hne.symm]
    | closeCalled t => simp [show t = generation from hwithin, hne.symm]
    | closeCompleted t => simp [show t = generation from hwithin, hne.symm]
  refine ⟨?_, ?_, opensInTurn_append h.inTurn fun t ht => absurd ht (hnotOpened t), ?_, ?_⟩
  · have hnone : connectedGenerations [happening] = [] := by
      cases happening with
      | opened t => exact hwithin.elim
      | event kind g =>
          cases kind with
          | connected => exact absurd rfl hwithin.1
          | _ => rfl
      | closeCalled t => rfl
      | closeCompleted t => rfl
    have hsplit : connectedGenerations (log ++ [happening]) =
        connectedGenerations log ++ connectedGenerations [happening] := List.filterMap_append
    rw [hsplit, hnone, List.append_nil]
    exact h.connected
  · intro transport
    rw [List.mem_append, h.opened, List.mem_singleton]
    exact or_iff_left (hnotOpened transport).symm
  · intro transport hpositive hlt
    rw [hother transport hlt.ne]
    exact h.earlier transport hpositive hlt
  · intro transport hlt
    rw [hother transport hlt.ne']
    exact h.later transport hlt

/-- A connection is opened where the one before it has been closed. -/
theorem Logged.open_next {log : List Happening} {generation : Nat} (h : Logged log generation)
    (hclosed : generation = 0 ∨ closeCounts log generation = (1, 1, 1)) :
    Logged (log ++ [.opened (generation + 1)] ++ [.event .connected (generation + 1)])
      (generation + 1) := by
  have hcounts : ∀ transport,
      closeCounts (log ++ [.opened (generation + 1)] ++ [.event .connected (generation + 1)]) transport =
        closeCounts log transport := by
    intro transport
    rw [closeCounts_append, closeCounts_append]
    simp
  have hall : ∀ transport, 1 ≤ transport → transport ≤ generation →
      closeCounts log transport = (1, 1, 1) := by
    intro transport hpositive hle
    rcases hle.lt_or_eq with hlt | rfl
    · exact h.earlier transport hpositive hlt
    · exact hclosed.resolve_left (by omega)
  refine ⟨?_, ?_, ?_, ?_, ?_⟩
  · have hsplit : connectedGenerations
        (log ++ [.opened (generation + 1)] ++ [.event .connected (generation + 1)]) =
          connectedGenerations log ++ [generation + 1] := by
      unfold connectedGenerations
      rw [List.filterMap_append, List.filterMap_append]
      simp
    rw [hsplit, h.connected, List.range'_concat]
    simp [Nat.add_comm]
  · intro transport
    simp only [List.mem_append, List.mem_singleton, h.opened, Happening.opened.injEq, reduceCtorEq,
      or_false]
    omega
  · refine opensInTurn_append (opensInTurn_append h.inTurn ?_) (fun t ht => by cases ht)
    intro transport _ earlier hearlier
    obtain ⟨hpositive, hle⟩ := (h.opened earlier).mp hearlier
    have hone := congrArg (fun counts => counts.2.1) (hall earlier hpositive hle)
    apply List.count_pos_iff.mp
    show 0 < (closeCounts log earlier).2.1
    rw [show (closeCounts log earlier).2.1 = 1 from hone]
    exact Nat.one_pos
  · intro transport hpositive hlt
    rw [hcounts]
    exact hall transport hpositive (by omega)
  · intro transport hlt
    rw [hcounts]
    exact h.later transport (by omega)

/-! ## Who closes -/

def ClosePoint.transport : ClosePoint → Nat
  | .unsubscribing transport _ => transport
  | .emittingUnsubscribed transport => transport
  | .closing transport => transport
  | .emittingClosed transport => transport

/-- The counts of the transport a closer at the point works on. -/
def ClosePoint.counts : ClosePoint → Nat × Nat × Nat
  | .unsubscribing _ _ => (0, 0, 0)
  | .emittingUnsubscribed _ => (0, 0, 0)
  | .closing _ => (1, 0, 0)
  | .emittingClosed _ => (1, 1, 1)

def CloseProgress.point? : CloseProgress → Option ClosePoint
  | .awaiting point => some point
  | _ => none

namespace RunPoint

/-- `run` has no connection. -/
def outside : RunPoint → Bool
  | .notStarted => true
  | .emittingConnecting => true
  | .connecting => true
  | .emittingDisconnected => true
  | .emittingReconnectScheduled => true
  | .sleeping => true
  | _ => false

/-- `run` is between the connection it has made and its `finally`. -/
def inSession : RunPoint → Bool
  | .emittingConnected => true
  | .subscribing _ => true
  | .emittingSubscribed => true
  | .receiving => true
  | .emittingHeartbeatSent => true
  | .probing => true
  | .emittingHeartbeatOk _ => true
  | .emittingMessageReceived => true
  | .handling => true
  | .emittingDisconnected => true
  | _ => false

def ended : RunPoint → Bool
  | .returned => true
  | .raised _ => true
  | _ => false

end RunPoint

/-- Only a session that is being stopped has `run` in or past a connection it no longer owns. -/
def Overtaken (fields : SessionFields) (run : RunPoint) : Prop :=
  fields.stopSet = true ∧ (run.inSession = true ∨ run.ended = true)

/-- A closer of the active transport is at the point. -/
structure ClosingAt (fields : SessionFields) (point : ClosePoint) : Prop where
  active : fields.activeTransport = some fields.activeGeneration
  marked : fields.closedGeneration = some fields.activeGeneration
  transport : point.transport = fields.activeGeneration
  counts : closeCounts fields.log fields.activeGeneration = point.counts

/-- Where a session stands: `run` and the points of the `stop` calls that are closing, and whether one of
them has raised. -/
inductive Standing (fields : SessionFields) (run : RunPoint) (closers : List ClosePoint)
    (raised : Prop) : Prop
  /-- Nothing is open. -/
  | idle (hactive : fields.activeTransport = none)
      (hclosed : fields.activeGeneration = 0 ∨
        closeCounts fields.log fields.activeGeneration = (1, 1, 1))
      (hclosers : closers = []) (hrun : run.outside = true ∨ Overtaken fields run)
  /-- The transport is open and nobody closes it. -/
  | connected (hactive : fields.activeTransport = some fields.activeGeneration)
      (hunmarked : fields.closedGeneration = none)
      (hcounts : closeCounts fields.log fields.activeGeneration = (0, 0, 0))
      (hclosers : closers = []) (hrun : run.inSession = true)
  | closedByRun (point : ClosePoint) (hclosing : ClosingAt fields point) (hclosers : closers = [])
      (hrun : run = .closing point)
  | closedByStop (point : ClosePoint) (hclosing : ClosingAt fields point) (hclosers : closers = [point])
      (hrun : Overtaken fields run)
  /-- Its closer has raised. -/
  | abandoned (hactive : fields.activeTransport = some fields.activeGeneration)
      (hmarked : fields.closedGeneration = some fields.activeGeneration)
      (hclosers : closers = []) (hraised : raised ∨ ∃ e, run = .raised e)
      (hrun : (∃ e, run = .raised e) ∨ Overtaken fields run)

/-- The invariant. -/
structure Sound (fields : SessionFields) (run : RunPoint) (closers : List ClosePoint) (raised : Prop) :
    Prop where
  logged : Logged fields.log fields.activeGeneration
  standing : Standing fields run closers raised

variable {fields : SessionFields} {run run' : RunPoint} {closers : List ClosePoint} {raised : Prop}
  {messages : SessionMessages}

theorem closeCounts_emit {kind : SessionEventKind} (hkind : kind ≠ .closed) (transport : Nat) :
    closeCounts (fields.emit kind).log transport = closeCounts fields.log transport := by
  show closeCounts (fields.log ++ [_]) _ = _
  rw [closeCounts_append]
  simp [hkind]

/-- Emitting an event other than `CONNECTED` and `CLOSED`. -/
theorem Sound.emit (h : Sound fields run closers raised) {kind : SessionEventKind}
    (hconnected : kind ≠ .connected) (hclosed : kind ≠ .closed) :
    Sound (fields.emit kind) run closers raised := by
  have hcounts := fun transport => @closeCounts_emit fields kind hclosed transport
  refine ⟨h.logged.append ⟨hconnected, rfl⟩, ?_⟩
  cases h.standing with
  | idle hactive hone hclosers hrun =>
      exact .idle hactive (hone.imp_right (hcounts _).trans) hclosers hrun
  | connected hactive hunmarked hzero hclosers hrun =>
      exact .connected hactive hunmarked ((hcounts _).trans hzero) hclosers hrun
  | closedByRun point hclosing hclosers hrun =>
      exact .closedByRun point { hclosing with counts := (hcounts _).trans hclosing.counts } hclosers
        hrun
  | closedByStop point hclosing hclosers hrun =>
      exact .closedByStop point { hclosing with counts := (hcounts _).trans hclosing.counts } hclosers
        hrun
  | abandoned hactive hmarked hclosers hraised hrun =>
      exact .abandoned hactive hmarked hclosers hraised hrun

/-- `run` goes on within its connection. -/
theorem Sound.move_inSession (h : Sound fields run closers raised) (hfrom : run.inSession = true)
    (hinside : run.outside = false ∨ run'.outside = true) (hto : run'.inSession = true) :
    Sound fields run' closers raised := by
  refine ⟨h.logged, ?_⟩
  have hovertaken : Overtaken fields run → Overtaken fields run' := fun ho => ⟨ho.1, Or.inl hto⟩
  have hnotRaised : ∀ e, run ≠ .raised e := by
    rintro e rfl
    cases hfrom
  cases h.standing with
  | idle hactive hone hclosers hrun =>
      refine .idle hactive hone hclosers (hrun.imp (fun hout => ?_) hovertaken)
      exact hinside.resolve_left (by simp [hout])
  | connected hactive hunmarked hzero hclosers hrun =>
      exact .connected hactive hunmarked hzero hclosers hto
  | closedByRun point hclosing hclosers hrun =>
      rw [hrun] at hfrom
      cases hfrom
  | closedByStop point hclosing hclosers hrun =>
      exact .closedByStop point hclosing hclosers (hovertaken hrun)
  | abandoned hactive hmarked hclosers hraised hrun =>
      refine .abandoned hactive hmarked hclosers (Or.inl (hraised.resolve_right ?_)) (Or.inr ?_)
      · exact fun ⟨e, he⟩ => hnotRaised e he
      · exact hovertaken (hrun.resolve_left fun ⟨e, he⟩ => hnotRaised e he)

/-- Outside of a connection nothing is open. -/
theorem Sound.idle_of_outside (h : Sound fields run closers raised) (hout : run.outside = true)
    (hnot : run.inSession = false) :
    fields.activeTransport = none ∧ closers = [] ∧ (fields.activeGeneration = 0 ∨
      closeCounts fields.log fields.activeGeneration = (1, 1, 1)) := by
  have hovertaken : ¬ Overtaken fields run := by
    rintro ⟨-, hin | hended⟩
    · simp [hnot] at hin
    · cases run <;> simp_all [RunPoint.outside, RunPoint.ended]
  cases h.standing with
  | idle hactive hone hclosers hrun => exact ⟨hactive, hclosers, hone⟩
  | connected hactive hunmarked hzero hclosers hrun => simp [hnot] at hrun
  | closedByRun point hclosing hclosers hrun =>
      rw [hrun] at hout
      cases hout
  | closedByStop point hclosing hclosers hrun => exact absurd hrun hovertaken
  | abandoned hactive hmarked hclosers hraised hrun =>
      rcases hrun with ⟨e, rfl⟩ | hrun
      · cases hout
      · exact absurd hrun hovertaken

theorem Sound.move_outside (h : Sound fields run closers raised) (hfrom : run.outside = true)
    (hnot : run.inSession = false) (hto : run'.outside = true) : Sound fields run' closers raised := by
  obtain ⟨hactive, hclosers, hone⟩ := h.idle_of_outside hfrom hnot
  exact ⟨h.logged, .idle hactive hone hclosers (Or.inl hto)⟩

/-! ## `_close_active` -/

/-- What a call of `_close_active` on an unmarked transport does: it marks the transport, and is its
closer. -/
theorem closeActive_spec (hlogged : Logged fields.log fields.activeGeneration)
    (hactive : fields.activeTransport = some fields.activeGeneration)
    (hunmarked : fields.closedGeneration = none)
    (hcounts : closeCounts fields.log fields.activeGeneration = (0, 0, 0)) (graceful : Bool) :
    ∃ point, (fields.closeActive messages graceful).2 = .awaiting point ∧
      ClosingAt (fields.closeActive messages graceful).1 point ∧
      (fields.closeActive messages graceful).1.stopSet = fields.stopSet ∧
      Logged (fields.closeActive messages graceful).1.log
        (fields.closeActive messages graceful).1.activeGeneration := by
  have hclosing : closeCounts (fields.log ++ [.closeCalled fields.activeGeneration])
      fields.activeGeneration = (1, 0, 0) := by
    rw [closeCounts_append, hcounts]
    simp
  have hcall : ∀ {progress : SessionFields × CloseProgress},
      progress = SessionFields.callClose
        { fields with
          activeTransport := some fields.activeGeneration
          closedGeneration := some fields.activeGeneration } fields.activeGeneration →
      ∃ point, progress.2 = .awaiting point ∧ ClosingAt progress.1 point ∧
        progress.1.stopSet = fields.stopSet ∧ Logged progress.1.log progress.1.activeGeneration := by
    rintro progress rfl
    exact ⟨.closing fields.activeGeneration, rfl, ⟨rfl, rfl, rfl, hclosing⟩, rfl,
      hlogged.append rfl⟩
  unfold SessionFields.closeActive
  rw [hactive]
  dsimp only
  rw [if_neg (by simp [hunmarked])]
  cases graceful with
  | false => exact hcall rfl
  | true =>
      cases messages.unsubscribeMessages with
      | nil => exact hcall rfl
      | cons first rest =>
          exact ⟨.unsubscribing fields.activeGeneration rest, rfl, ⟨rfl, rfl, rfl, hcounts⟩, rfl, hlogged⟩

/-- A closer goes on, or it is done with the transport closed once, or it raises. -/
theorem resumeClose_spec (hlogged : Logged fields.log fields.activeGeneration) {point : ClosePoint}
    (h : ClosingAt fields point) (outcome : AwaitOutcome) :
    (fields.resumeClose outcome point).1.stopSet = fields.stopSet ∧
      Logged (fields.resumeClose outcome point).1.log
        (fields.resumeClose outcome point).1.activeGeneration ∧
      ((∃ next, (fields.resumeClose outcome point).2 = .awaiting next ∧
          ClosingAt (fields.resumeClose outcome point).1 next) ∨
        ((fields.resumeClose outcome point).2 = .returned ∧
          (fields.resumeClose outcome point).1.activeTransport = none ∧
          closeCounts (fields.resumeClose outcome point).1.log
            (fields.resumeClose outcome point).1.activeGeneration = (1, 1, 1)) ∨
        ∃ e, (fields.resumeClose outcome point).2 = .raised e ∧
          (fields.resumeClose outcome point).1 = fields) := by
  have hgeneration := h.transport
  have hcounts := h.counts
  have hcall : ∀ {progress : SessionFields × CloseProgress},
      point.counts = (0, 0, 0) → progress = fields.callClose fields.activeGeneration →
      progress.1.stopSet = fields.stopSet ∧ Logged progress.1.log progress.1.activeGeneration ∧
        ∃ next, progress.2 = .awaiting next ∧ ClosingAt progress.1 next := by
    rintro progress hzero rfl
    refine ⟨rfl, hlogged.append rfl, .closing fields.activeGeneration, rfl, h.active, h.marked, rfl, ?_⟩
    show closeCounts (fields.log ++ [.closeCalled fields.activeGeneration]) fields.activeGeneration =
      (1, 0, 0)
    rw [closeCounts_append, hcounts, hzero]
    simp
  have hcompleted : ∀ {progress : SessionFields × CloseProgress},
      point.counts = (1, 0, 0) → progress = fields.closeCompleted fields.activeGeneration →
      progress.1.stopSet = fields.stopSet ∧ Logged progress.1.log progress.1.activeGeneration ∧
        ∃ next, progress.2 = .awaiting next ∧ ClosingAt progress.1 next := by
    rintro progress hone rfl
    have hended : Logged (fields.log ++ [.closeCompleted fields.activeGeneration])
        fields.activeGeneration := hlogged.append rfl
    refine ⟨rfl, hended.append ⟨by simp, rfl⟩, .emittingClosed fields.activeGeneration, rfl, h.active,
      h.marked, rfl, ?_⟩
    show closeCounts (fields.log ++ [.closeCompleted fields.activeGeneration] ++
      [.event .closed fields.activeGeneration]) fields.activeGeneration = (1, 1, 1)
    rw [closeCounts_append, closeCounts_append, hcounts, hone]
    simp
  cases point with
  | unsubscribing transport rest =>
      obtain rfl : transport = fields.activeGeneration := hgeneration
      have hsent : (fields.sendUnsubscriptions fields.activeGeneration rest).1.stopSet = fields.stopSet ∧
          Logged (fields.sendUnsubscriptions fields.activeGeneration rest).1.log
            (fields.sendUnsubscriptions fields.activeGeneration rest).1.activeGeneration ∧
          ∃ next, (fields.sendUnsubscriptions fields.activeGeneration rest).2 = .awaiting next ∧
            ClosingAt (fields.sendUnsubscriptions fields.activeGeneration rest).1 next := by
        cases rest with
        | nil =>
            exact ⟨rfl, hlogged.append ⟨by simp, rfl⟩, .emittingUnsubscribed fields.activeGeneration, rfl,
              h.active, h.marked, rfl, (closeCounts_emit (by simp) _).trans hcounts⟩
        | cons message rest =>
            exact ⟨rfl, hlogged, .unsubscribing fields.activeGeneration rest, rfl, h.active, h.marked,
              rfl, hcounts⟩
      obtain ⟨hsentStop, hsentLog, hsentNext⟩ := hsent
      unfold SessionFields.resumeClose
      cases outcome with
      | raised e =>
          dsimp only
          split_ifs with hsuppressed
          · obtain ⟨hstop, hlog, hnext⟩ := hcall rfl rfl
            exact ⟨hstop, hlog, Or.inl hnext⟩
          · exact ⟨rfl, hlogged, Or.inr (Or.inr ⟨e, rfl, rfl⟩)⟩
      | completed => exact ⟨hsentStop, hsentLog, Or.inl hsentNext⟩
      | completedWithFrame => exact ⟨hsentStop, hsentLog, Or.inl hsentNext⟩
  | emittingUnsubscribed transport =>
      obtain rfl : transport = fields.activeGeneration := hgeneration
      obtain ⟨hstop, hlog, hnext⟩ := hcall rfl rfl
      exact ⟨hstop, hlog, Or.inl hnext⟩
  | closing transport =>
      obtain rfl : transport = fields.activeGeneration := hgeneration
      obtain ⟨hstop, hlog, hnext⟩ := hcompleted rfl rfl
      unfold SessionFields.resumeClose
      cases outcome with
      | raised e =>
          dsimp only
          split_ifs with hsuppressed
          · exact ⟨hstop, hlog, Or.inl hnext⟩
          · exact ⟨rfl, hlogged, Or.inr (Or.inr ⟨e, rfl, rfl⟩)⟩
      | completed => exact ⟨hstop, hlog, Or.inl hnext⟩
      | completedWithFrame => exact ⟨hstop, hlog, Or.inl hnext⟩
  | emittingClosed transport => exact ⟨rfl, hlogged, Or.inr (Or.inl ⟨rfl, rfl, hcounts⟩)⟩

/-- A transport that is gone or marked is left to its closer. -/
theorem closeActive_of_closed (hclosed : fields.activeTransport = none ∨
    fields.closedGeneration = some fields.activeGeneration) (graceful : Bool) :
    fields.closeActive messages graceful = (fields, .returned) := by
  unfold SessionFields.closeActive
  rcases hclosed with hnone | hmarked
  · rw [hnone]
  · rcases Option.eq_none_or_eq_some fields.activeTransport with hnone | ⟨transport, hsome⟩
    · rw [hnone]
    · rw [hsome]
      dsimp only
      rw [if_pos hmarked]

/-! ## `run` -/

/-- `run` is neither closing nor over. -/
def RunPoint.busy (run : RunPoint) : Prop := run.inSession = true ∨ run.outside = true

theorem RunPoint.busy.ne_closing (h : run.busy) (point : ClosePoint) : run ≠ .closing point := by
  rintro rfl
  rcases h with h | h <;> cases h

theorem RunPoint.busy.ne_raised (h : run.busy) (e : RecoverableError) : run ≠ .raised e := by
  rintro rfl
  rcases h with h | h <;> cases h

theorem Sound.finallyClose (h : Sound fields run closers raised) (hbusy : run.busy) :
    Sound (fields.finallyClose messages).1 (fields.finallyClose messages).2 closers raised := by
  unfold SessionFields.finallyClose
  cases h.standing with
  | idle hactive hone hclosers hrun =>
      rw [closeActive_of_closed (Or.inl hactive)]
      unfold SessionFields.afterClose
      dsimp only
      split_ifs with hstop
      · exact ⟨h.logged, .idle hactive hone hclosers (Or.inr ⟨hstop, Or.inr rfl⟩)⟩
      · have hwaiting : Sound fields .emittingReconnectScheduled closers raised :=
          ⟨h.logged, .idle hactive hone hclosers (Or.inl rfl)⟩
        exact hwaiting.emit (by simp) (by simp)
  | connected hactive hunmarked hzero hclosers hrun =>
      obtain ⟨point, hpoint, hclosing, -, hlogged⟩ :=
        @closeActive_spec fields messages h.logged hactive hunmarked hzero fields.stopSet
      generalize fields.closeActive messages fields.stopSet = result at hpoint hclosing hlogged ⊢
      obtain ⟨after, progress⟩ := result
      dsimp only at hpoint hclosing hlogged
      subst hpoint
      exact ⟨hlogged, .closedByRun point hclosing hclosers rfl⟩
  | closedByRun point hclosing hclosers hrun => exact absurd hrun (hbusy.ne_closing point)
  | closedByStop point hclosing hclosers hrun =>
      rw [closeActive_of_closed (Or.inr hclosing.marked)]
      unfold SessionFields.afterClose
      dsimp only
      rw [if_pos hrun.1]
      exact ⟨h.logged, .closedByStop point hclosing hclosers ⟨hrun.1, Or.inr rfl⟩⟩
  | abandoned hactive hmarked hclosers hraised hrun =>
      have hovertaken := hrun.resolve_left fun ⟨e, he⟩ => hbusy.ne_raised e he
      have hother := hraised.resolve_right fun ⟨e, he⟩ => hbusy.ne_raised e he
      rw [closeActive_of_closed (Or.inr hmarked)]
      unfold SessionFields.afterClose
      dsimp only
      rw [if_pos hovertaken.1]
      exact ⟨h.logged, .abandoned hactive hmarked hclosers (Or.inl hother)
        (Or.inr ⟨hovertaken.1, Or.inr rfl⟩)⟩

theorem Sound.receiveTop (h : Sound fields run closers raised) (hin : run.inSession = true)
    (hinside : run.outside = false) :
    Sound (fields.receiveTop messages).1 (fields.receiveTop messages).2 closers raised := by
  unfold SessionFields.receiveTop
  split_ifs with hstop
  · exact h.finallyClose (Or.inl hin)
  · exact h.move_inSession hin (Or.inl hinside) rfl

/-- The session goes on where it is while it is not being stopped: an error is reported. -/
theorem Sound.caught (h : Sound fields run closers raised) (hbusy : run.busy) :
    Sound (fields.caught messages).1 (fields.caught messages).2 closers raised := by
  unfold SessionFields.caught
  split_ifs with hstop
  · exact h.finallyClose hbusy
  · have hnot : ¬ Overtaken fields run := fun ho => hstop ho.1
    have hreported : Sound fields .emittingDisconnected closers raised := by
      refine ⟨h.logged, ?_⟩
      cases h.standing with
      | idle hactive hone hclosers hrun => exact .idle hactive hone hclosers (Or.inl rfl)
      | connected hactive hunmarked hzero hclosers hrun =>
          exact .connected hactive hunmarked hzero hclosers rfl
      | closedByRun point hclosing hclosers hrun => exact absurd hrun (hbusy.ne_closing point)
      | closedByStop point hclosing hclosers hrun => exact absurd hrun hnot
      | abandoned hactive hmarked hclosers hraised hrun =>
          rcases hrun with ⟨e, he⟩ | hrun
          · exact absurd he (hbusy.ne_raised e)
          · exact absurd hrun hnot
    exact hreported.emit (by simp) (by simp)

theorem Sound.loopTop (h : Sound fields run closers raised) (hout : run.outside = true)
    (hnot : run.inSession = false) :
    Sound fields.loopTop.1 fields.loopTop.2 closers raised := by
  unfold SessionFields.loopTop
  split_ifs with hstop
  · obtain ⟨hactive, hclosers, hone⟩ := h.idle_of_outside hout hnot
    exact ⟨h.logged, .idle hactive hone hclosers (Or.inr ⟨hstop, Or.inr rfl⟩)⟩
  · have hnext : Sound fields .emittingConnecting closers raised := h.move_outside hout hnot rfl
    exact hnext.emit (by simp) (by simp)

theorem Sound.sendSubscriptions (h : Sound fields run closers raised) (hin : run.inSession = true)
    (hinside : run.outside = false) (rest : List String) :
    Sound (fields.sendSubscriptions rest).1 (fields.sendSubscriptions rest).2 closers raised := by
  cases rest with
  | nil =>
      have hnext : Sound fields .emittingSubscribed closers raised :=
        h.move_inSession hin (Or.inl hinside) rfl
      exact hnext.emit (by simp) (by simp)
  | cons message rest => exact h.move_inSession hin (Or.inl hinside) rfl

/-- A new connection is made only where nothing is open. -/
theorem Sound.connected (h : Sound fields .connecting closers raised) :
    Sound fields.connected .emittingConnected closers raised := by
  obtain ⟨hactive, hclosers, hone⟩ := h.idle_of_outside rfl rfl
  have hlogged := h.logged.open_next hone
  refine ⟨hlogged, .connected rfl rfl ?_ hclosers rfl⟩
  have hlater := h.logged.later (fields.activeGeneration + 1) (Nat.lt_succ_self _)
  show closeCounts (fields.log ++ [_] ++ [_]) (fields.activeGeneration + 1) = (0, 0, 0)
  rw [closeCounts_append, closeCounts_append, hlater]
  simp

/-- The step lemma of `run`. -/
theorem Sound.resumeRun (h : Sound fields run closers raised) (outcome : AwaitOutcome) :
    Sound (fields.resumeRun messages outcome run).1 (fields.resumeRun messages outcome run).2 closers
      raised := by
  cases run with
  | notStarted => exact h.loopTop rfl rfl
  | emittingConnecting => exact h.move_outside rfl rfl rfl
  | connecting =>
      cases outcome with
      | raised e => exact h.caught (Or.inr rfl)
      | completed => exact h.connected
      | completedWithFrame => exact h.connected
  | emittingConnected => exact h.sendSubscriptions rfl rfl _
  | subscribing rest =>
      cases outcome with
      | raised e => exact h.caught (Or.inl rfl)
      | completed => exact h.sendSubscriptions rfl rfl rest
      | completedWithFrame => exact h.sendSubscriptions rfl rfl rest
  | emittingSubscribed => exact h.receiveTop rfl rfl
  | receiving =>
      have hreceived : Sound fields .emittingMessageReceived closers raised :=
        h.move_inSession rfl (Or.inl rfl) rfl
      have hbeat : Sound fields .emittingHeartbeatSent closers raised :=
        h.move_inSession rfl (Or.inl rfl) rfl
      cases outcome with
      | completed => exact hreceived.emit (by simp) (by simp)
      | completedWithFrame => exact hreceived.emit (by simp) (by simp)
      | raised e =>
          cases e with
          | timeoutError => exact hbeat.emit (by simp) (by simp)
          | _ => exact h.caught (Or.inl rfl)
  | emittingHeartbeatSent => exact h.move_inSession rfl (Or.inl rfl) rfl
  | probing =>
      have hok : ∀ frame, Sound fields (.emittingHeartbeatOk frame) closers raised := fun frame =>
        h.move_inSession rfl (Or.inl rfl) rfl
      cases outcome with
      | raised e => exact h.caught (Or.inl rfl)
      | completed => exact (hok false).emit (by simp) (by simp)
      | completedWithFrame => exact (hok true).emit (by simp) (by simp)
  | emittingHeartbeatOk frame =>
      cases frame with
      | false => exact h.receiveTop rfl rfl
      | true =>
          have hreceived : Sound fields .emittingMessageReceived closers raised :=
            h.move_inSession rfl (Or.inl rfl) rfl
          exact hreceived.emit (by simp) (by simp)
  | emittingMessageReceived => exact h.move_inSession rfl (Or.inl rfl) rfl
  | handling =>
      cases outcome with
      | raised e => exact h.caught (Or.inl rfl)
      | completed => exact h.receiveTop rfl rfl
      | completedWithFrame => exact h.receiveTop rfl rfl
  | emittingDisconnected => exact h.finallyClose (Or.inl rfl)
  | closing point =>
      have hnot : ¬ Overtaken fields (.closing point) := by
        rintro ⟨-, hin | hended⟩
        · cases hin
        · cases hended
      obtain ⟨hclosing, hclosers⟩ : ClosingAt fields point ∧ closers = [] := by
        cases h.standing with
        | idle hactive hone hclosers hrun => exact absurd (hrun.resolve_left nofun) hnot
        | connected hactive hunmarked hzero hclosers hrun => cases hrun
        | closedByRun p hclosing hclosers hrun =>
            obtain rfl := RunPoint.closing.inj hrun
            exact ⟨hclosing, hclosers⟩
        | closedByStop p hclosing hclosers hrun => exact absurd hrun hnot
        | abandoned hactive hmarked hclosers hraised hrun =>
            exact absurd (hrun.resolve_left nofun) hnot
      show Sound (SessionFields.afterClose (fields.resumeClose outcome point)).1
        (SessionFields.afterClose (fields.resumeClose outcome point)).2 closers raised
      obtain ⟨-, hlogged, hcases⟩ := resumeClose_spec h.logged hclosing outcome
      generalize fields.resumeClose outcome point = result at hlogged hcases ⊢
      obtain ⟨after, progress⟩ := result
      dsimp only at hlogged hcases
      rcases hcases with ⟨next, rfl, hnext⟩ | ⟨rfl, hgone, hone⟩ | ⟨e, rfl, rfl⟩
      · exact ⟨hlogged, .closedByRun next hnext hclosers rfl⟩
      · unfold SessionFields.afterClose
        dsimp only
        split_ifs with hstop
        · exact ⟨hlogged, .idle hgone (Or.inr hone) hclosers (Or.inr ⟨hstop, Or.inr rfl⟩)⟩
        · have hwaiting : Sound after .emittingReconnectScheduled closers raised :=
            ⟨hlogged, .idle hgone (Or.inr hone) hclosers (Or.inl rfl)⟩
          exact hwaiting.emit (by simp) (by simp)
      · exact ⟨hlogged, .abandoned hclosing.active hclosing.marked hclosers (Or.inr ⟨e, rfl⟩)
          (Or.inl ⟨e, rfl⟩)⟩
  | emittingReconnectScheduled => exact h.move_outside rfl rfl rfl
  | sleeping => exact h.loopTop rfl rfl
  | returned => exact h
  | raised e => exact h

/-! ## `stop` -/

theorem Sound.setStop (h : Sound fields run closers raised) :
    Sound { fields with stopSet := true } run closers raised := by
  refine ⟨h.logged, ?_⟩
  have hovertaken : Overtaken fields run → Overtaken { fields with stopSet := true } run :=
    fun ho => ⟨rfl, ho.2⟩
  cases h.standing with
  | idle hactive hone hclosers hrun => exact .idle hactive hone hclosers (hrun.imp_right hovertaken)
  | connected hactive hunmarked hzero hclosers hrun =>
      exact .connected hactive hunmarked hzero hclosers hrun
  | closedByRun point hclosing hclosers hrun =>
      exact .closedByRun point ⟨hclosing.1, hclosing.2, hclosing.3, hclosing.4⟩ hclosers hrun
  | closedByStop point hclosing hclosers hrun =>
      exact .closedByStop point ⟨hclosing.1, hclosing.2, hclosing.3, hclosing.4⟩ hclosers
        (hovertaken hrun)
  | abandoned hactive hmarked hclosers hraised hrun =>
      exact .abandoned hactive hmarked hclosers hraised (hrun.imp_right hovertaken)

theorem Sound.mono {raised' : Prop} (h : Sound fields run closers raised) (himp : raised → raised') :
    Sound fields run closers raised' := by
  refine ⟨h.logged, ?_⟩
  cases h.standing with
  | idle hactive hone hclosers hrun => exact .idle hactive hone hclosers hrun
  | connected hactive hunmarked hzero hclosers hrun =>
      exact .connected hactive hunmarked hzero hclosers hrun
  | closedByRun point hclosing hclosers hrun => exact .closedByRun point hclosing hclosers hrun
  | closedByStop point hclosing hclosers hrun => exact .closedByStop point hclosing hclosers hrun
  | abandoned hactive hmarked hclosers hraised hrun =>
      exact .abandoned hactive hmarked hclosers (hraised.imp_left himp) hrun

/-- The only element a partial function is defined on is replaced. -/
theorem filterMap_set_of_eq_singleton {α β : Type*} {f : α → Option β} {l : List α} {i : Nat} {x : α}
    {p q : β} (hx : l[i]? = some x) (hp : f x = some p) (hl : l.filterMap f = [q]) (y : α) :
    p = q ∧ (l.set i y).filterMap f = (f y).toList := by
  induction l generalizing i with
  | nil => cases hx
  | cons a l ih =>
      cases i with
      | zero =>
          obtain rfl : a = x := by simpa using hx
          rw [List.filterMap_cons_some hp] at hl
          obtain ⟨rfl, hnil⟩ := List.cons.inj hl
          refine ⟨rfl, ?_⟩
          rw [List.set_cons_zero]
          cases hy : f y with
          | none => rw [List.filterMap_cons_none hy, hnil]; rfl
          | some z => rw [List.filterMap_cons_some hy, hnil]; rfl
      | succ i =>
          have htail : l[i]? = some x := by simpa using hx
          have hmem : p ∈ l.filterMap f := List.mem_filterMap.mpr ⟨x, List.mem_of_getElem? htail, hp⟩
          have ha : f a = none := by
            by_contra hsome
            obtain ⟨z, hz⟩ := Option.ne_none_iff_exists'.mp hsome
            rw [List.filterMap_cons_some hz] at hl
            rw [(List.cons.inj hl).2] at hmem
            cases hmem
          rw [List.filterMap_cons_none ha] at hl
          rw [List.set_cons_succ, List.filterMap_cons_none ha]
          exact ih htail hl

namespace SessionTasks

/-- The awaits of the `stop` calls that are closing. -/
def stopPoints (s : SessionTasks) : List ClosePoint := s.stops.filterMap CloseProgress.point?

/-- The invariant of a session with its tasks. -/
def Invariant (s : SessionTasks) : Prop :=
  Sound s.fields s.run s.stopPoints (∃ e, .raised e ∈ s.stops)

theorem step_callStop {s : SessionTasks} {progress : CloseProgress}
    (h : SessionFields.closeActive messages { s.fields with stopSet := true } true =
      (fields, progress)) :
    s.step messages .callStop = { s with fields, stops := s.stops ++ [progress] } := by
  unfold step
  rw [h]

theorem step_resumeStop {s : SessionTasks} {index : Nat} {outcome : AwaitOutcome} {point : ClosePoint}
    {progress : CloseProgress} (hpoint : s.stops[index]? = some (.awaiting point))
    (h : s.fields.resumeClose outcome point = (fields, progress)) :
    s.step messages (.resumeStop index outcome) =
      { s with fields, stops := s.stops.set index progress } := by
  unfold step
  dsimp only
  rw [hpoint]
  dsimp only
  rw [h]

theorem invariant_callStop {s : SessionTasks} (h : s.Invariant) :
    (s.step messages .callStop).Invariant := by
  have hset := h.setStop
  have hmono : ∀ {progress : CloseProgress}, (∃ e, CloseProgress.raised e ∈ s.stops) →
      ∃ e, CloseProgress.raised e ∈ s.stops ++ [progress] := fun ⟨e, he⟩ =>
    ⟨e, List.mem_append_left _ he⟩
  -- a call that finds nothing to close returns at once
  have hreturned : { s.fields with stopSet := true }.activeTransport = none ∨
      { s.fields with stopSet := true }.closedGeneration =
        some { s.fields with stopSet := true }.activeGeneration →
      (s.step messages .callStop).Invariant := by
    intro hclosed
    rw [step_callStop (closeActive_of_closed hclosed true)]
    unfold Invariant stopPoints
    rw [List.filterMap_append,
      show [CloseProgress.returned].filterMap CloseProgress.point? = [] from rfl, List.append_nil]
    exact hset.mono hmono
  cases hset.standing with
  | idle hactive hone hclosers hrun => exact hreturned (Or.inl hactive)
  | connected hactive hunmarked hzero hclosers hrun =>
      obtain ⟨point, hpoint, hclosing, hstop, hlogged⟩ :=
        @closeActive_spec { s.fields with stopSet := true } messages hset.logged hactive hunmarked hzero
          true
      have hpair : SessionFields.closeActive messages { s.fields with stopSet := true } true =
          ((SessionFields.closeActive messages { s.fields with stopSet := true } true).1,
            .awaiting point) := Prod.ext rfl hpoint
      rw [step_callStop hpair]
      refine ⟨hlogged, .closedByStop point hclosing ?_ ⟨hstop, Or.inl hrun⟩⟩
      unfold stopPoints at hclosers ⊢
      rw [List.filterMap_append, hclosers]
      rfl
  | closedByRun point hclosing hclosers hrun => exact hreturned (Or.inr hclosing.marked)
  | closedByStop point hclosing hclosers hrun => exact hreturned (Or.inr hclosing.marked)
  | abandoned hactive hmarked hclosers hraised hrun => exact hreturned (Or.inr hmarked)

theorem invariant_resumeStop {s : SessionTasks} (h : s.Invariant) (index : Nat)
    (outcome : AwaitOutcome) : (s.step messages (.resumeStop index outcome)).Invariant := by
  by_cases hawaiting : ∃ point, s.stops[index]? = some (.awaiting point)
  swap
  · have hsame : s.step messages (.resumeStop index outcome) = s := by
      unfold step
      dsimp only
      split
      · rename_i point hpoint
        exact absurd ⟨point, hpoint⟩ hawaiting
      · rfl
    rw [hsame]
    exact h
  obtain ⟨point, hpoint⟩ := hawaiting
  have hmem : point ∈ s.stopPoints :=
    List.mem_filterMap.mpr ⟨_, List.mem_of_getElem? hpoint, rfl⟩
  have hnonempty : s.stopPoints ≠ [] := List.ne_nil_of_mem hmem
  cases h.standing with
  | idle hactive hone hclosers hrun => exact absurd hclosers hnonempty
  | connected hactive hunmarked hzero hclosers hrun => exact absurd hclosers hnonempty
  | closedByRun p hclosing hclosers hrun => exact absurd hclosers hnonempty
  | closedByStop p hclosing hclosers hrun =>
      have hpoint? : (CloseProgress.awaiting point).point? = some point := rfl
      have hset := fun progress =>
        (filterMap_set_of_eq_singleton hpoint hpoint? hclosers progress).2
      obtain rfl := (filterMap_set_of_eq_singleton hpoint hpoint? hclosers .returned).1
      have hindex : index < s.stops.length := (List.getElem?_eq_some_iff.mp hpoint).1
      have hspec := resumeClose_spec h.logged hclosing outcome
      cases hresumed : s.fields.resumeClose outcome point with
      | mk after progress =>
      rw [hresumed] at hspec
      obtain ⟨hstop, hlogged, hcases⟩ := hspec
      have hovertaken : Overtaken after s.run := ⟨hstop.trans hrun.1, hrun.2⟩
      rw [step_resumeStop hpoint hresumed]
      refine ⟨hlogged, ?_⟩
      rw [show stopPoints { s with fields := after, stops := s.stops.set index progress } =
        progress.point?.toList from hset progress]
      rcases hcases with ⟨next, rfl, hnext⟩ | ⟨rfl, hgone, hone⟩ | ⟨e, rfl, rfl⟩
      · exact .closedByStop next hnext rfl hovertaken
      · exact .idle hgone (Or.inr hone) rfl (Or.inr hovertaken)
      · exact .abandoned hclosing.active hclosing.marked rfl
          (Or.inl ⟨e, List.mem_set hindex (.raised e)⟩) (Or.inr hovertaken)
  | abandoned hactive hmarked hclosers hraised hrun => exact absurd hclosers hnonempty

theorem invariant_step {s : SessionTasks} (h : s.Invariant) (input : TaskInput) :
    (s.step messages input).Invariant := by
  cases input with
  | callStop => exact invariant_callStop h
  | resumeRun outcome => exact Sound.resumeRun h outcome
  | resumeStop index outcome => exact invariant_resumeStop h index outcome

theorem invariant_start : ({} : SessionTasks).Invariant := by
  refine ⟨⟨rfl, ?_, ?_, ?_, ?_⟩, .idle rfl (Or.inl rfl) rfl (Or.inl rfl)⟩
  · intro transport
    refine iff_of_false nofun ?_
    rintro ⟨hpositive, hle⟩
    exact absurd (hpositive.trans hle) (by decide)
  · rintro before after transport hsplit
    exact absurd hsplit (by simp)
  · intro transport hpositive hlt
    exact absurd hlt (Nat.not_lt_zero _)
  · intro transport _
    rfl

theorem invariant_foldl (messages : SessionMessages) (inputs : List TaskInput) :
    (inputs.foldl (step messages) {}).Invariant := by
  suffices hfold : ∀ (s : SessionTasks), s.Invariant → (inputs.foldl (step messages) s).Invariant from
    hfold {} invariant_start
  induction inputs with
  | nil => exact fun s hs => hs
  | cons input inputs ih => exact fun s hs => ih _ (invariant_step hs input)

/-! ## Every connection is closed once -/

/-- What is promised of a session, in whatever state. -/
structure ClosesOnce (s : SessionTasks) : Prop where
  /-- The generation counts the `CONNECTED` events. -/
  connected : connectedGenerations s.fields.log = List.range' 1 s.fields.activeGeneration
  opened : ∀ transport, .opened transport ∈ s.fields.log ↔
    1 ≤ transport ∧ transport ≤ s.fields.activeGeneration
  inTurn : OpensInTurn s.fields.log
  atMostOne : ∀ t t', OpenIn s.fields.log t → OpenIn s.fields.log t' → t = t'
  closed : s.run = .returned → (∀ progress ∈ s.stops, progress = .returned) →
    ∀ transport, .opened transport ∈ s.fields.log → closeCounts s.fields.log transport = (1, 1, 1)

theorem Invariant.closesOnce {s : SessionTasks} (h : s.Invariant) : s.ClosesOnce := by
  have hlogged := h.logged
  refine ⟨hlogged.connected, hlogged.opened, hlogged.inTurn, ?_, ?_⟩
  · -- what is still open is the transport of the current generation
    have hcurrent : ∀ t, OpenIn s.fields.log t → t = s.fields.activeGeneration := by
      rintro t ⟨hopened, hopen⟩
      obtain ⟨hpositive, hle⟩ := (hlogged.opened t).mp hopened
      by_contra hne
      have hcounts := hlogged.earlier t hpositive (lt_of_le_of_ne hle hne)
      have hone : s.fields.log.count (.closeCompleted t) = 1 :=
        congrArg (fun counts => counts.2.1) hcounts
      exact hopen (List.count_pos_iff.mp (by omega))
    intro t t' ht ht'
    exact (hcurrent t ht).trans (hcurrent t' ht').symm
  · intro hrun hstops transport hopened
    obtain ⟨hpositive, hle⟩ := (hlogged.opened transport).mp hopened
    rcases hle.lt_or_eq with hlt | rfl
    · exact hlogged.earlier transport hpositive hlt
    -- with every task back nobody is closing, and nobody has given up
    have hpoints : s.stopPoints = [] := by
      refine List.filterMap_eq_nil_iff.mpr fun progress hprogress => ?_
      rw [hstops progress hprogress]
      rfl
    cases h.standing with
    | idle hactive hone hclosers hreturned => exact hone.resolve_left (by omega)
    | connected hactive hunmarked hzero hclosers hin =>
        rw [hrun] at hin
        cases hin
    | closedByRun point hclosing hclosers hclosingRun =>
        rw [hrun] at hclosingRun
        cases hclosingRun
    | closedByStop point hclosing hclosers hovertaken =>
        rw [hpoints] at hclosers
        cases hclosers
    | abandoned hactive hmarked hclosers hraised hovertaken =>
        rcases hraised with ⟨e, he⟩ | ⟨e, he⟩
        · cases hstops _ he
        · rw [hrun] at he
          cases he

/-- In whatever order `run` and any number of `stop` calls resume, and whatever their awaits raise, every
connection is opened after the one before it has been closed, and once all of them have returned each
has been closed once, with one `CLOSED` event. -/
theorem session_closes_every_connection_once (messages : SessionMessages)
    (inputs : List TaskInput) : (inputs.foldl (step messages) {}).ClosesOnce :=
  (invariant_foldl messages inputs).closesOnce

end SessionTasks

end Cvf
