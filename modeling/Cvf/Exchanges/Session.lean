/-
# Cvf.Exchanges.Session — the receive loop and the text heartbeat on one connection.

`_receive_loop` reads the socket under a receive deadline.  When the deadline passes it runs
`TextPingHeartbeat.probe`: send `ping`, read ONE frame, and treat it as the pong if it is `pong`, else
hand it back to be processed as data.  The probe and the loop read the same stream, so a data frame
that arrives between the ping and its pong is taken by the probe and the pong is left for the loop,
which passes it to the message handler.

A state is one connection; its inputs are the frames that arrive, the reads that complete and the two
deadlines, in any order.  `arrived` and `delivered` record the data frames that reached the socket and
the frames given to the handler.
-/
import Cvf.Text
import Cvf.Library.Run

namespace Cvf

open Cvf.Library

/-- The `SessionError`s raised on a live connection. -/
inductive SessionError where
  /-- `SessionProtocolError` -/
  | protocol (message : String)
  /-- `HeartbeatTimeout` -/
  | heartbeatTimeout (message : String)
  deriving DecidableEq, Repr

/-- `message_handler(message, received_at)` on a handler state. -/
abbrev MessageHandler (H : Type*) := H → String → Int → H × Except SessionError Unit

structure TextPingHeartbeat where
  pingMessage : String := "ping"
  pongMessage : String := "pong"

/-- What `probe` returns for the frame it has read: nothing for the pong, the frame otherwise. -/
def TextPingHeartbeat.response (heartbeat : TextPingHeartbeat) (frame : String) : Option String :=
  if frame = heartbeat.pongMessage then none else some frame

/-- Where the receive loop stands. -/
inductive SessionPhase where
  | receiving
  | probing
  /-- The loop raised, and `run` reports `DISCONNECTED`; the frame is the one being handled. -/
  | failed (error : SessionError) (frame : Option String)
  deriving DecidableEq, Repr

/-- One connection of `PublicWebSocketSession`. -/
structure PublicWebSocketSession (H : Type*) where
  handler : H
  phase : SessionPhase := .receiving
  /-- Frames that have arrived and not been read, oldest first. -/
  inbox : List String := []
  /-- Pings the peer has not answered yet. -/
  owed : Nat := 0
  /-- Everything sent by the heartbeat. -/
  sent : List String := []
  arrived : List String := []
  delivered : List String := []

inductive SessionInput where
  /-- The peer's next data frame reaches the socket. -/
  | dataArrives (frame : String)
  /-- The peer answers one ping. -/
  | pongArrives
  /-- The pending `recv` completes, at the given wall clock. -/
  | frameRead (receivedAt : Int)
  | receiveTimeout
  | heartbeatTimeout
  deriving DecidableEq, Repr

namespace PublicWebSocketSession

variable {H : Type*} (heartbeat : TextPingHeartbeat) (messageHandler : MessageHandler H)

/-- `await self._message_handler(message, received_at)` and back to the top of the loop. -/
def handle (session : PublicWebSocketSession H) (frame : String) (receivedAt : Int) :
    PublicWebSocketSession H :=
  let handled := messageHandler session.handler frame receivedAt
  { session with
    handler := handled.1
    delivered := session.delivered ++ [frame]
    phase :=
      match handled.2 with
      | .ok () => .receiving
      | .error e => .failed e (some frame) }

/-- One input.  A `recv` cancelled by its deadline loses no frame, so a deadline may pass while a frame
is waiting; the heartbeat deadline counts only while none is. -/
def step (session : PublicWebSocketSession H) : SessionInput → PublicWebSocketSession H
  | .dataArrives frame =>
    { session with inbox := session.inbox ++ [frame], arrived := session.arrived ++ [frame] }
  | .pongArrives =>
    if session.owed = 0 then session
    else
      { session with
        inbox := session.inbox ++ [heartbeat.pongMessage]
        owed := session.owed - 1 }
  | .frameRead receivedAt =>
    match session.inbox, session.phase with
    | frame :: inbox, .receiving => { session with inbox }.handle messageHandler frame receivedAt
    | frame :: inbox, .probing =>
      match heartbeat.response frame with
      | none => { session with inbox, phase := .receiving }
      | some frame => { session with inbox }.handle messageHandler frame receivedAt
    | _, _ => session
  | .receiveTimeout =>
    if session.phase = .receiving then
      { session with
        phase := .probing
        owed := session.owed + 1
        sent := session.sent ++ [heartbeat.pingMessage] }
    else session
  | .heartbeatTimeout =>
    if session.phase = .probing ∧ session.inbox = [] then
      { session with phase := .failed (.heartbeatTimeout "text pong timed out") none }
    else session

/-! ## The exchange with a healthy peer -/

variable {J : Type*} (loads : String → Except String J)

/-- The peer sends data frames that decode, and has answered every ping when a heartbeat deadline
passes. -/
def PeerAnswers (session : PublicWebSocketSession H) : SessionInput → Prop
  | .dataArrives frame => ∃ payload, loads frame = .ok payload
  | .heartbeatTimeout => session.owed = 0
  | _ => True

/-- The first frame a probe reads is its pong. -/
def ProbeMeetsPong (session : PublicWebSocketSession H) : SessionInput → Prop
  | .frameRead _ =>
    session.phase = .probing → ∀ frame ∈ session.inbox.head?, frame = heartbeat.pongMessage
  | _ => True

/-- Only data frames reached the handler, each once and in arrival order, and the loop did not end
other than by the handler's own refusal of one of them. -/
def OnlyData (session : PublicWebSocketSession H) : Prop :=
  session.delivered ++ session.inbox.filter (· ≠ heartbeat.pongMessage) = session.arrived ∧
    heartbeat.pongMessage ∉ session.arrived ∧
    ∀ error frame, session.phase = .failed error frame → ∃ m ∈ session.delivered, frame = some m

/-- While the loop receives no pong is on its way; while a probe waits exactly one is. -/
def PongsMatched (session : PublicWebSocketSession H) : Prop :=
  (session.phase = .receiving →
      session.owed = 0 ∧ session.inbox.count heartbeat.pongMessage = 0) ∧
    (session.phase = .probing →
      session.owed + session.inbox.count heartbeat.pongMessage = 1)

variable {heartbeat messageHandler loads}

/-- Handling the data frame at the head of the stream. -/
theorem handle_onlyData {session : PublicWebSocketSession H} {frame : String} {inbox : List String}
    (h : session.OnlyData heartbeat) (hinbox : session.inbox = frame :: inbox)
    (hdata : frame ≠ heartbeat.pongMessage) (receivedAt : Int) :
    ({ session with inbox }.handle messageHandler frame receivedAt).OnlyData heartbeat := by
  obtain ⟨hframes, hpong, -⟩ := h
  refine ⟨?_, hpong, ?_⟩
  · rw [hinbox, List.filter_cons_of_pos (by simpa using hdata)] at hframes
    simpa [handle] using hframes
  · intro error m hfailed
    refine ⟨frame, by simp [handle], ?_⟩
    simp only [handle] at hfailed
    split at hfailed
    · cases hfailed
    · exact (SessionPhase.failed.inj hfailed).2.symm

theorem handle_pongsMatched {session : PublicWebSocketSession H} {frame : String}
    {inbox : List String} (howed : session.owed = 0)
    (hcount : inbox.count heartbeat.pongMessage = 0) (receivedAt : Int) :
    ({ session with inbox }.handle messageHandler frame receivedAt).PongsMatched heartbeat := by
  constructor
  · intro _
    exact ⟨howed, hcount⟩
  · intro hprobing
    simp only [handle] at hprobing
    split at hprobing
    · cases hprobing
    · cases hprobing

/-- The step lemma. -/
theorem step_matched (hundecodable : ∀ payload, loads heartbeat.pongMessage ≠ .ok payload)
    {session : PublicWebSocketSession H} {input : SessionInput}
    (h : session.PongsMatched heartbeat ∧ session.OnlyData heartbeat)
    (hpeer : session.PeerAnswers loads input) (hprobe : session.ProbeMeetsPong heartbeat input) :
    (session.step heartbeat messageHandler input).PongsMatched heartbeat ∧
      (session.step heartbeat messageHandler input).OnlyData heartbeat := by
  obtain ⟨⟨hreceiving, hprobing⟩, honly⟩ := h
  cases input with
  | dataArrives frame =>
      obtain ⟨payload, hpayload⟩ := hpeer
      have hdata : frame ≠ heartbeat.pongMessage := by
        rintro rfl
        exact hundecodable payload hpayload
      obtain ⟨hframes, hpong, hfailed⟩ := honly
      refine ⟨⟨?_, ?_⟩, ?_, ?_, hfailed⟩
      · intro hphase
        simpa [step, List.count_append, List.count_singleton, hdata] using hreceiving hphase
      · intro hphase
        simpa [step, List.count_append, List.count_singleton, hdata] using hprobing hphase
      · simp [step, List.filter_append, hdata, ← hframes]
      · simp [step, hpong, Ne.symm hdata]
  | pongArrives =>
      simp only [step]
      split_ifs with howed
      · exact ⟨⟨hreceiving, hprobing⟩, honly⟩
      · obtain ⟨hframes, hpong, hfailed⟩ := honly
        refine ⟨⟨?_, ?_⟩, ?_, hpong, hfailed⟩
        · intro hphase
          exact absurd (hreceiving hphase).1 howed
        · intro hphase
          have hone := hprobing hphase
          simp only [List.count_append, List.count_singleton_self]
          omega
        · simpa [List.filter_append] using hframes
  | frameRead receivedAt =>
      cases hinbox : session.inbox with
      | nil => simpa [step, hinbox] using ⟨⟨hreceiving, hprobing⟩, honly⟩
      | cons frame inbox =>
          cases hphase : session.phase with
          | receiving =>
              obtain ⟨howed, hcount⟩ := hreceiving hphase
              rw [hinbox, List.count_eq_zero] at hcount
              have hdata : frame ≠ heartbeat.pongMessage := by
                rintro rfl
                exact hcount (by simp)
              have hrest : inbox.count heartbeat.pongMessage = 0 :=
                List.count_eq_zero.mpr fun hmem => hcount (by simp [hmem])
              simp only [step, hinbox, hphase]
              exact ⟨handle_pongsMatched howed hrest receivedAt,
                handle_onlyData honly hinbox hdata receivedAt⟩
          | probing =>
              have hpong : frame = heartbeat.pongMessage := hprobe hphase frame (by simp [hinbox])
              subst hpong
              have hone := hprobing hphase
              rw [hinbox, List.count_cons_self] at hone
              obtain ⟨hframes, hnot, -⟩ := honly
              simp only [step, hinbox, hphase, TextPingHeartbeat.response, ↓reduceIte]
              refine ⟨⟨?_, by simp⟩, ?_, hnot, by simp⟩
              · intro _
                show session.owed = 0 ∧ inbox.count heartbeat.pongMessage = 0
                omega
              · simpa [hinbox] using hframes
          | failed error m =>
              have hsame : session.step heartbeat messageHandler (.frameRead receivedAt) =
                  session := by
                simp only [step, hinbox, hphase]
              rw [hsame]
              exact ⟨⟨hreceiving, hprobing⟩, honly⟩
  | receiveTimeout =>
      simp only [step]
      split_ifs with hphase
      · obtain ⟨howed, hcount⟩ := hreceiving hphase
        obtain ⟨hframes, hpong, -⟩ := honly
        refine ⟨⟨by simp, ?_⟩, hframes, hpong, by simp⟩
        intro _
        show session.owed + 1 + session.inbox.count heartbeat.pongMessage = 1
        omega
      · exact ⟨⟨hreceiving, hprobing⟩, honly⟩
  | heartbeatTimeout =>
      simp only [step]
      split_ifs with hphase
      · -- an answered ping has its pong in the stream
        have hone := hprobing hphase.1
        rw [hphase.2, show session.owed = 0 from hpeer] at hone
        cases hone
      · exact ⟨⟨hreceiving, hprobing⟩, honly⟩

/-- `_handle_websocket_message` of the OKX connector: decode, then handle the decoded payload. -/
def handleOkxWebsocketMessage (loads : String → Except String J)
    (handlePayload : H → J → Int → H × Except SessionError Unit) : MessageHandler H :=
  fun handler frame receivedAt =>
    match loads frame with
    | .error exc => (handler, .error (.protocol s!"invalid OKX JSON: {exc}"))
    | .ok payload => handlePayload handler payload receivedAt

/-- In a run with a healthy peer in which every probe meets its pong first, the handler is given the
data frames only, each once and in arrival order, and the heartbeat ends no connection. -/
theorem heartbeat_never_breaks_session
    (hundecodable : ∀ payload, loads heartbeat.pongMessage ≠ .ok payload)
    (handlePayload : H → J → Int → H × Except SessionError Unit) (handler : H)
    (inputs : List SessionInput)
    (hinputs : Admitted (step heartbeat (handleOkxWebsocketMessage loads handlePayload))
      (fun session input =>
        session.PeerAnswers loads input ∧ session.ProbeMeetsPong heartbeat input)
      { handler } inputs) :
    (inputs.foldl (step heartbeat (handleOkxWebsocketMessage loads handlePayload))
      { handler }).OnlyData heartbeat := by
  have hstart : PongsMatched heartbeat ({ handler } : PublicWebSocketSession H) ∧
      OnlyData heartbeat ({ handler } : PublicWebSocketSession H) := by
    refine ⟨⟨?_, ?_⟩, rfl, by simp, ?_⟩
    · simp
    · intro hprobing
      cases hprobing
    · intro error frame hfailed
      cases hfailed
  have hinvariant := @invariant_of_admitted _ _
    (step heartbeat (handleOkxWebsocketMessage loads handlePayload)) _
    (fun session => session.PongsMatched heartbeat ∧ session.OnlyData heartbeat)
    (fun session input h hinput => step_matched hundecodable h hinput.1 hinput.2) _ hstart _ hinputs
  exact hinvariant.2

/-! ## A trade between the ping and the pong -/

def exampleTrade : String := "\x7b\"arg\":\x7b\"channel\":\"trades\"\x7d,\"data\":[]\x7d"

/-- `json.loads` on the two texts of the examples, with the decoded payload left as text. -/
def exampleLoads (frame : String) : Except String String :=
  if frame = "pong" then .error "Expecting value: line 1 column 1 (char 0)" else .ok frame

def exampleHandler : MessageHandler Unit :=
  handleOkxWebsocketMessage exampleLoads fun handler _ _ => (handler, .ok ())

def overtakenPong : List SessionInput :=
  [.receiveTimeout, .dataArrives exampleTrade, .frameRead 1, .pongArrives, .frameRead 2]

/-- The peer is healthy, and the loop hands its pong to the connector and disconnects. -/
theorem overtaken_pong_disconnects :
    Admitted (step {} exampleHandler) (fun session input => session.PeerAnswers exampleLoads input)
        { handler := () } overtakenPong ∧
      (overtakenPong.foldl (step {} exampleHandler) { handler := () }).phase =
        .failed (.protocol "invalid OKX JSON: Expecting value: line 1 column 1 (char 0)")
          (some "pong") ∧
      ¬ (overtakenPong.foldl (step {} exampleHandler) { handler := () }).OnlyData {} := by
  refine ⟨⟨trivial, ⟨exampleTrade, by decide +kernel⟩, trivial, trivial, trivial, trivial⟩,
    by decide +kernel, ?_⟩
  rintro ⟨hframes, -⟩
  have hdelivered : (overtakenPong.foldl (step {} exampleHandler)
      { handler := () }).delivered.length = 2 := by decide +kernel
  have harrived : (overtakenPong.foldl (step {} exampleHandler)
      { handler := () }).arrived.length = 1 := by decide +kernel
  have hlength := congrArg List.length hframes
  rw [List.length_append, hdelivered, harrived] at hlength
  omega

/-- The pong arrives before the next trade does. -/
def promptPong : List SessionInput :=
  [.receiveTimeout, .pongArrives, .dataArrives exampleTrade, .heartbeatTimeout, .frameRead 1,
    .frameRead 2]

theorem heartbeat_never_breaks_session_prompt :
    (promptPong.foldl (step {} (handleOkxWebsocketMessage exampleLoads fun handler _ _ =>
      (handler, .ok ()))) { handler := () }).OnlyData {} := by
  have hundecodable : ∀ payload, exampleLoads "pong" ≠ .ok payload := by
    intro payload h
    cases h
  refine heartbeat_never_breaks_session hundecodable _ () promptPong
    ⟨⟨trivial, trivial⟩, ⟨trivial, trivial⟩, ⟨⟨exampleTrade, by decide +kernel⟩, trivial⟩,
      ⟨rfl, trivial⟩, ⟨trivial, ?_⟩, ⟨trivial, ?_⟩, trivial⟩
  · intro _
    decide +kernel
  · intro hprobing
    exact absurd hprobing (by decide +kernel)

end PublicWebSocketSession

end Cvf
