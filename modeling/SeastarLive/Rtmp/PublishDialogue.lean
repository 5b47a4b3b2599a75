/-
SeastarLive.Rtmp.PublishDialogue — a client publishes a stream to a server.

The two sides of `Peers`, over their chunk streams, follow a scenario: the client connects, creates
a stream and publishes it, and then sends media.

* `publishScenario`: the turns of both sides.
* `publishScenario_lawful`: the two sides follow it.
* `publish_delivers`: whatever the pieces are in which the bytes arrive, the application of the
  server is asked once for the stream and is then given the media in its order; when nothing is
  under way, the client publishes and all the media has been given.
-/
import SeastarLive.Lib.Scenario
import SeastarLive.Rtmp.Peers

namespace SeastarLive

open AmfArg

variable {β γ : Type}

/-! ## The scenario -/

/-- What a client that publishes says. -/
def publisherReplies (c : RtmpClientT γ) : List (List OutMessage) :=
  [[commandMessage (connectArgs (doubleBytes 1) c.connect) 0],
    [],
    [windowMessage 5000000],
    [],
    [commandMessage (streamNameArgs "releaseStream" (doubleBytes 0) c.streamName) 0,
      commandMessage (streamNameArgs "FCPublish" (doubleBytes 0) c.streamName) 0,
      commandMessage (createStreamArgs (doubleBytes 2)) 0],
    [commandMessage (publishArgs (doubleBytes 0) c.streamName "live") 1, .chunkSize 4000],
    [],
    []]

/-- The answer to a client that publishes, by what the application returned. -/
def publishAnswer (r : Int) : List OutMessage :=
  if r = 0 then
    [eventMessage 0 1 [],
      commandMessage (onstatusArgs (doubleBytes 0) "status" "NetStream.Publish.Start" "") 1]
  else [commandMessage (onstatusArgs (doubleBytes 0) "error" "NetStream.Publish.BadName" "") 1]

/-- What the server says. -/
def publishServerReplies (r : Int) : List (List OutMessage) :=
  [connectAnswer, [], [], [], createStreamAnswer, publishAnswer r, []]

/-- The state of a client that publishes, by its turns. -/
def publisherState : Nat → RtmpClientState
  | 0 => .uninit
  | 1 | 2 | 3 | 4 => .handshake
  | 5 => .connected
  | 6 | 7 => .createStream
  | _ => .start

/-- A client that publishes, after so many turns. -/
structure PublisherAt (c : RtmpClientT γ) (n : Nat) (s : RtmpState (RtmpClientT γ)) : Prop where
  sent : s.app.sent = []
  connect : s.app.connect = c.connect
  streamName : s.app.streamName = c.streamName
  publish : s.app.publish = 0
  window : 2 ≤ n → s.control.windowSize = 5000000
  streamId : s.app.streamId = if n ≤ 5 then 0 else 1
  state : s.app.state = publisherState n

section Scenario

variable (h : PeerHandlers β γ) (c : RtmpClientT γ) (b : β)

/-- What the application of the server is asked. -/
def publishCall : Int × β :=
  h.server.onpublish c.connect.app c.streamName (asciiBytes "live") c.connect.tcUrl b

/-- The server of a client that publishes, after so many turns. -/
structure PublishServerAt (n : Nat) (s : RtmpState (RtmpServer β)) (pushed : List RtmpMessage) :
    Prop where
  sent : s.app.sent = []
  window : s.control.windowSize = 5000000
  bandwidth : s.control.peerBandwidth = 5000000
  info : 1 ≤ n → s.app.info = c.connect.received
  streamId : 5 ≤ n → s.app.streamId = 1
  before : n ≤ 5 → s.app.app = b
  after : 6 ≤ n → (pushed.take (n - 7)).foldlM h.server.give (publishCall h c b).2 = .ok s.app.app
  count : n ≤ 7 + pushed.length
  media : ∀ m ∈ pushed, IsMedia m

def publishScenario : Scenario (Peers β γ) OutMessage RtmpMessage where
  starter := clientSide
  replies
    | false => publisherReplies c
    | true => publishServerReplies (publishCall h c b).1
  At
    | false => fun n p => PublisherAt c n p.client ∧ p.pushed serverSide = []
    | true => fun n p => PublishServerAt h c b n p.server (p.pushed clientSide)
  extra side p := p.pushed side
  noise := isAcknowledgement

end Scenario

/-! ## The turns of the client -/

section Client

variable (h : RtmpClientHandler γ) (stack : RtmpResult) {c : RtmpClientT γ}

/-- What a message of the server does to the client in a turn. -/
def PublisherTurn (c : RtmpClientT γ) (r : Int) (n : Nat) :
    Except Int (RtmpState (RtmpClientT γ)) → Prop
  | .error _ => r ≠ 0
  | .ok s => s.app.sent = (publisherReplies c).getD n [] ∧ PublisherAt c (n + 1) s.clientFlushed

/-- A message of the server takes the client to its next turn, unless it is refused. -/
theorem publisher_turn (r : Int) {k : Nat} {m : RtmpMessage} {s : RtmpState (RtmpClientT γ)}
    (hat : PublisherAt c (k + 1) s)
    (hm : ((publishServerReplies r).flatten.map OutMessage.meaning)[k]? = some m) :
    ∃ out, appHandler (rtmpClientCallbacks h stack) m.type m.timestamp m.payload s = out
      ∧ PublisherTurn c r (k + 1) out := by
  rcases k with _ | _ | _ | _ | _ | k
  · obtain rfl : (windowMessage 5000000).meaning = m := Option.some.inj hm
    have hwindow := appHandler_window (rtmpClientCallbacks h stack) 0 s (n := 5000000) (by decide)
    exact ⟨_, hwindow, hat.sent, { hat with sent := rfl, window := fun _ => rfl }⟩
  · obtain rfl : (OutMessage.control .setPeerBandwidth (setPeerBandwidthPayload 5000000 2)).meaning
      = m := Option.some.inj hm
    obtain ⟨control, hcontrol, hbandwidth⟩ :=
      appHandler_bandwidth (rtmpClientCallbacks h stack) 0 s 5000000 2
    have hwindow := hat.window (Nat.le_refl 2)
    refine ⟨_, hbandwidth, ?_, { hat with sent := rfl, window := fun _ => hcontrol.trans hwindow }⟩
    simp only [rtmpClientCallbacks, RtmpClientT.send, hat.sent, hwindow]
    rfl
  · obtain rfl : (OutMessage.chunkSize 4096).meaning = m := Option.some.inj hm
    have hsize := appHandler_chunkSize (rtmpClientCallbacks h stack) 0 s (setChunkSizePayload 4096)
    exact ⟨_, hsize, hat.sent, { hat with
      sent := rfl, window := fun _ => hat.window (by omega) }⟩
  · obtain rfl : (commandMessage (connectReplyArgs (doubleBytes 1) "FMS/3,0,1,123" (doubleBytes 31)
      "NetConnection.Connect.Success" "status" "Connection Succeeded." (doubleBytes 0)) 0).meaning
      = m := Option.some.inj hm
    have hreply := client_connectReply h stack s.control "FMS/3,0,1,123"
      "NetConnection.Connect.Success" "status" "Connection Succeeded." (by decide) (by decide)
      (by decide) (by decide) (length_doubleBytes 0) s.app
    rw [onconnect_publisher hat.publish] at hreply
    have hcommand := client_command h stack _ s hreply
    have hstream : s.app.streamId = 0 := hat.streamId
    refine ⟨_, hcommand, ?_, { hat with
      sent := rfl, window := fun _ => hat.window (by omega), streamId := hstream, state := rfl }⟩
    simp only [hat.sent, hat.streamName, hstream]
    rfl
  · obtain rfl : (commandMessage (numberReplyArgs (doubleBytes 2) (doubleBytes 1)) 0).meaning = m :=
      Option.some.inj hm
    have hreply := client_createStreamReply h stack s.control s.app
    have hnumber : doubleToUInt32 (doubleBytes 1) = 1 := by decide +kernel
    rw [oncreateStream_publisher hat.publish, hnumber] at hreply
    have hcommand := client_command h stack _ s hreply
    refine ⟨_, hcommand, ?_, { hat with
      sent := rfl, window := fun _ => hat.window (by omega), streamId := rfl, state := rfl }⟩
    simp only [hat.sent, hat.streamName]
    rfl
  · have hanswer : ((publishAnswer r).map OutMessage.meaning)[k]? = some m := by
      simpa [publishServerReplies, connectAnswer, createStreamAnswer] using hm
    have hstream : s.app.streamId = 1 := by rw [hat.streamId, if_neg (by omega)]
    have hwindow := hat.window (by omega)
    by_cases hr : r = 0
    · rw [publishAnswer, if_pos hr] at hanswer
      rcases k with _ | _ | k
      · obtain rfl : (eventMessage 0 1 []).meaning = m := Option.some.inj hanswer
        have hevent := appHandler_event (rtmpClientCallbacks h stack) 0 s (.inl rfl) 1
        exact ⟨_, hevent, hat.sent, { hat with
          sent := rfl, window := fun _ => hwindow, streamId := hstream, state := hat.state }⟩
      · obtain rfl : (commandMessage (onstatusArgs (doubleBytes 0) "status"
          "NetStream.Publish.Start" "") 1).meaning = m := Option.some.inj hanswer
        have hstatus := client_onstatus h stack s.control "status" "NetStream.Publish.Start" ""
          (by decide) (by decide) (by decide) s.app
        rw [onResult_start rfl (by simp)] at hstatus
        have hcommand := client_command h stack _ s hstatus
        exact ⟨_, hcommand, hat.sent, { hat with
          sent := rfl, window := fun _ => hwindow, streamId := hstream, state := rfl }⟩
      · cases hanswer
    · -- a client that is refused fails
      rw [publishAnswer, if_neg hr] at hanswer
      rcases k with _ | k
      · obtain rfl : (commandMessage (onstatusArgs (doubleBytes 0) "error"
          "NetStream.Publish.BadName" "") 1).meaning = m := Option.some.inj hanswer
        have hstatus := client_onstatus h stack s.control "error" "NetStream.Publish.BadName" ""
          (by decide) (by decide) (by decide) s.app
        rw [onResult_error] at hstatus
        have hcommand := client_command h stack _ s hstatus
        exact ⟨_, hcommand, hr⟩
      · cases hanswer

end Client

/-! ## The turns of the server -/

section Server

variable {h : PeerHandlers β γ} {c : RtmpClientT γ} {b : β}

/-- What a message of the client does to the server in a turn. -/
def PublishServerTurn (h : PeerHandlers β γ) (c : RtmpClientT γ) (b : β) (pushed : List RtmpMessage)
    (n : Nat) : Except Int (RtmpState (RtmpServer β)) → Prop
  | .error e => ∃ m ∈ pushed, ∃ app, h.server.give app m = .error e
  | .ok s =>
      s.app.sent = (publishServerReplies (publishCall h c b).1).getD n []
        ∧ PublishServerAt h c b (n + 1) s.serverFlushed pushed

/-- A message of the client takes the server to its next turn; only media is refused. -/
theorem publishServer_turn (hc : c.New) {n : Nat} {m : RtmpMessage} {s : RtmpState (RtmpServer β)}
    {pushed : List RtmpMessage} (hat : PublishServerAt h c b n s pushed)
    (hm : ((publisherReplies c).flatten.map OutMessage.meaning ++ pushed)[n]? = some m) :
    ∃ out, appHandler (rtmpServerCallbacks h.server h.stack) m.type m.timestamp m.payload s = out
      ∧ PublishServerTurn h c b pushed n out := by
  have hname : c.streamName.length < 65536 := Nat.lt_trans hc.streamName (by decide)
  simp only [publisherReplies, List.flatten_cons, List.flatten_nil, List.cons_append,
    List.nil_append, List.append_nil, List.map_cons, List.map_nil] at hm
  rcases n with _ | _ | _ | _ | _ | _ | _ | k
  · obtain rfl : (commandMessage (connectArgs (doubleBytes 1) c.connect) 0).meaning = m :=
      Option.some.inj hm
    have hreply := server_connect h.server h.stack s.control hc.connect s.app
    rw [onconnect_server] at hreply
    refine ⟨_, server_command h _ s hreply, ?_, { hat with
      sent := rfl, info := fun _ => rfl, streamId := Not.elim (by decide),
      before := fun _ => hat.before (by decide), after := Not.elim (by decide),
      count := Nat.le_add_right_of_le (by decide) }⟩
    have hencoding : c.connect.received.encoding = doubleBytes 0 := hc.encoding
    simp only [hat.sent, hat.window, hat.bandwidth, hencoding]
    rfl
  · obtain rfl : (windowMessage 5000000).meaning = m := Option.some.inj hm
    have hwindow := appHandler_window (rtmpServerCallbacks h.server h.stack) 0 s
      (n := 5000000) (by decide)
    exact ⟨_, hwindow, hat.sent, { hat with
      sent := rfl, window := rfl, info := fun _ => hat.info (by omega),
      streamId := Not.elim (by decide),
      before := fun _ => hat.before (by decide), after := Not.elim (by decide),
      count := Nat.le_add_right_of_le (by decide) }⟩
  · obtain rfl : (commandMessage (streamNameArgs "releaseStream" (doubleBytes 0) c.streamName)
      0).meaning = m := Option.some.inj hm
    have hreply := server_streamName h.server h.stack s.control (.head _) hname s.app
    exact ⟨_, server_command h _ s hreply, hat.sent, { hat with
      sent := rfl, info := fun _ => hat.info (by omega), streamId := Not.elim (by decide),
      before := fun _ => hat.before (by decide), after := Not.elim (by decide),
      count := Nat.le_add_right_of_le (by decide) }⟩
  · obtain rfl : (commandMessage (streamNameArgs "FCPublish" (doubleBytes 0) c.streamName)
      0).meaning = m := Option.some.inj hm
    have hreply := server_streamName h.server h.stack s.control (.tail _ (.head _)) hname s.app
    exact ⟨_, server_command h _ s hreply, hat.sent, { hat with
      sent := rfl, info := fun _ => hat.info (by omega), streamId := Not.elim (by decide),
      before := fun _ => hat.before (by decide), after := Not.elim (by decide),
      count := Nat.le_add_right_of_le (by decide) }⟩
  · obtain rfl : (commandMessage (createStreamArgs (doubleBytes 2)) 0).meaning = m :=
      Option.some.inj hm
    have hreply := server_createStream h.server h.stack s.control s.app
    refine ⟨_, server_command h _ s hreply, ?_, { hat with
      sent := rfl, info := fun _ => hat.info (by omega), streamId := fun _ => rfl,
      before := fun _ => hat.before (by decide), after := Not.elim (by decide),
      count := Nat.le_add_right_of_le (by decide) }⟩
    simp only [RtmpServer.sendControl, RtmpServer.send, hat.sent]
    rfl
  · obtain rfl : (commandMessage (publishArgs (doubleBytes 0) c.streamName "live") 1).meaning = m :=
      Option.some.inj hm
    have hreply := server_publish h.server h.stack s.control
      (Nat.lt_trans hc.streamName (by decide)) s.app
    obtain ⟨happ, htcUrl, hstreamName⟩ := hc.strings
    have hinfo := hat.info (by omega)
    have hcall : h.server.onpublish (cStr s.app.info.app) (cStr c.streamName)
        (cStr (asciiBytes "live")) (cStr s.app.info.tcUrl) s.app.app = publishCall h c b := by
      have hlive : cStr (asciiBytes "live") = asciiBytes "live" := by decide
      rw [hinfo, RtmpConnect.received, happ, htcUrl, hstreamName, hlive, hat.before (by decide)]
      rfl
    rw [onpublish_server, hcall, hat.streamId (by decide), hat.sent] at hreply
    exact ⟨_, server_command h _ s hreply, rfl, { hat with
      sent := rfl, info := fun _ => hinfo, streamId := fun _ => rfl,
      before := Not.elim (by decide), after := fun _ => rfl,
      count := Nat.le_add_right_of_le (by decide) }⟩
  · obtain rfl : (OutMessage.chunkSize 4000).meaning = m := Option.some.inj hm
    have hsize := appHandler_chunkSize (rtmpServerCallbacks h.server h.stack) 0 s
      (setChunkSizePayload 4000)
    exact ⟨_, hsize, hat.sent, { hat with
      sent := rfl, info := fun _ => hat.info (by omega),
      streamId := fun _ => hat.streamId (by omega), before := Not.elim (by decide),
      after := fun _ => hat.after (by decide), count := Nat.le_add_right 7 _ }⟩
  · have hmedia : pushed[k]? = some m := hm
    have hmem := List.mem_of_getElem? hmedia
    have hlt := (List.getElem?_eq_some_iff.mp hmedia).1
    refine ⟨_, appHandler_media h.server h.stack (hat.media m hmem) s, ?_⟩
    cases hgive : h.server.give s.app.app m with
    | error e => exact ⟨m, hmem, s.app.app, hgive⟩
    | ok app =>
        have hafter := hat.after (by omega)
        refine ⟨hat.sent, { hat with
          sent := rfl, info := fun _ => hat.info (by omega),
          streamId := fun _ => hat.streamId (by omega), before := fun hn => absurd hn (by omega),
          after := fun _ => ?_, count := by omega }⟩
        rw [show k + 7 + 1 - 7 = k + 1 by omega, List.take_add_one, hmedia, List.foldlM_append]
        rw [show k + 7 - 7 = k by omega] at hafter
        simp only [hafter, ok_bind, Option.toList_some, List.foldlM_cons, List.foldlM_nil, hgive]
        rfl

end Server

/-! ## The two sides follow the scenario -/

section Lawful

variable {h : PeerHandlers β γ} {c : RtmpClientT γ} {b : β}

theorem publisherReplies_plain (hc : c.New) :
    ∀ out ∈ publisherReplies c, ∀ m ∈ out, PlainMessage m := by
  have hname : ∀ command : String, (asciiBytes command).length < 64 →
      (argsBytes (streamNameArgs command (doubleBytes 0) c.streamName)).length ≤ payloadSize :=
    fun _ hcommand => length_streamNameArgs_le hcommand hc.streamName
  have hpublish := length_publishArgs_le hc.streamName
  simp only [publisherReplies, List.forall_mem_cons]
  refine ⟨⟨commandMessage_plain hc.payload (by decide), ?_⟩, ?_, ⟨windowMessage_plain _, ?_⟩, ?_,
    ⟨commandMessage_plain (hname _ (by decide)) (by decide),
      commandMessage_plain (hname _ (by decide)) (by decide),
      commandMessage_plain (by decide +kernel) (by decide), ?_⟩,
    ⟨commandMessage_plain hpublish (by decide), ⟨⟨by decide, by decide⟩, rfl⟩, ?_⟩, ?_, ?_, ?_⟩
  all_goals exact List.forall_mem_nil _

theorem publishServerReplies_plain (r : Int) :
    ∀ out ∈ publishServerReplies r, ∀ m ∈ out, PlainMessage m := by
  have hanswer : ∀ m ∈ publishAnswer r, PlainMessage m := by
    unfold publishAnswer
    split
    · simp only [List.forall_mem_cons]
      exact ⟨eventMessage_plain 0 1, commandMessage_plain (by decide +kernel) (by decide),
        List.forall_mem_nil _⟩
    · simp only [List.forall_mem_cons]
      exact ⟨commandMessage_plain (by decide +kernel) (by decide), List.forall_mem_nil _⟩
  simp only [publishServerReplies, List.forall_mem_cons]
  refine ⟨connectAnswer_plain, ?_, ?_, ?_, createStreamAnswer_plain, hanswer, ?_, ?_⟩
  all_goals exact List.forall_mem_nil _

/-- The client after the end of its handshake. -/
theorem publisherAt_connect {s : RtmpState (RtmpClientT γ)} {n : Nat} (hat : PublisherAt c n s)
    (hstate : s.app.state = .uninit) :
    n = 0 ∧ (s.app.sendConnect).sent = (publisherReplies c).getD n []
      ∧ PublisherAt c (n + 1) { s with app := { s.app.sendConnect with sent := [] } } := by
  have hn : n = 0 := by
    have hn := hat.state.symm.trans hstate
    unfold publisherState at hn
    split at hn <;> first | rfl | cases hn
  subst hn
  refine ⟨rfl, ?_, { hat with
    sent := rfl, window := Not.elim (by decide), streamId := hat.streamId, state := rfl }⟩
  simp only [RtmpClientT.sendConnect, RtmpClientT.sendControl, RtmpClientT.send, hat.sent,
    hat.connect]
  rfl

/-- A client that has started has taken its last turn. -/
theorem publisherAt_start {s : RtmpState (RtmpClientT γ)} {n : Nat} (hat : PublisherAt c n s)
    (hstate : s.app.state = .start) : 8 ≤ n := by
  have hearly : ∀ k < 8, publisherState k ≠ .start := by decide
  by_contra hn
  exact hearly n (Nat.not_le.mp hn) (hat.state.symm.trans hstate)

theorem publishScenario_clientTurn {p : Peers β γ} {client : RtmpState (RtmpClientT γ)} {n : Nat}
    (hserver : p.pushed serverSide = []) (hsent : client.app.sent = (publisherReplies c).getD n [])
    (hnext : PublisherAt c (n + 1) client.clientFlushed) :
    (publishScenario h c b).Turn clientSide n p (p.clientSends client) where
  next := ⟨hnext, hserver⟩
  other _ hat := hat
  extra _ := rfl
  reply := hsent

theorem publishScenario_serverTurn {p : Peers β γ} {server : RtmpState (RtmpServer β)} {n : Nat}
    (hsent : server.app.sent = (publishServerReplies (publishCall h c b).1).getD n [])
    (hnext : PublishServerAt h c b (n + 1) server.serverFlushed (p.pushed clientSide)) :
    (publishScenario h c b).Turn serverSide n p (p.serverSends server) where
  next := hnext
  other _ hat := hat
  extra _ := rfl
  reply := hsent

/-- What the client pushes later does not matter to the server. -/
theorem PublishServerAt.push {n : Nat} {s : RtmpState (RtmpServer β)} {pushed : List RtmpMessage}
    (hat : PublishServerAt h c b n s pushed) {m : RtmpMessage} (hm : IsMedia m) :
    PublishServerAt h c b n s (pushed ++ [m]) := by
  have hcount := hat.count
  exact { hat with
    after := fun hafter => by
      rw [List.take_append_of_le_length (by omega)]
      exact hat.after hafter
    count := by
      rw [List.length_append]
      omega
    media := List.forall_mem_append.mpr ⟨hat.media, List.forall_mem_singleton.mpr hm⟩ }

/-- What a client pushes is behind its scenario. -/
theorem publishScenario_push {p : Peers β γ} {x : PeerAct} (hx : x.Pushable) {n : Nat}
    (hat : PublisherAt c n p.client) (hserver : p.pushed serverSide = []) (hn : 8 ≤ n) :
    (publishScenario h c b).Push OutMessage.meaning OutMessage.Fits clientSide n p
      (p.act clientSide x) := by
  have hstream : p.client.app.streamId < 4294967296 := by
    rw [hat.streamId, if_neg (by omega)]
    decide
  obtain ⟨m, hpush, hplain, hmedia⟩ := client_push hx p.client.app hstream
  have hconnect : x ≠ .connect := by
    rintro rfl
    exact hx
  have hact : p.act clientSide x = ({ p with
      client := p.client.clientFlushed
      pushed := Function.update p.pushed clientSide (p.pushed clientSide ++ [m.meaning]) },
      [m]) := by
    simp only [Peers.act, if_neg hconnect, if_neg (by decide : ¬ clientSide = serverSide),
      Peers.clientSends, hpush, hat.sent, List.nil_append, List.map_cons, List.map_nil]
  rw [hact]
  refine ⟨hn, ?_, ?_, ?_, ?_⟩
  · rintro (_ | _) k hk
    · exact ⟨{ hk.1 with sent := rfl }, hserver⟩
    · show PublishServerAt h c b k p.server (Function.update p.pushed clientSide _ clientSide)
      rw [Function.update_self]
      exact hk.push hmedia
  · exact Function.update_self clientSide (p.pushed clientSide ++ [m.meaning]) p.pushed
  · exact Function.update_of_ne (by decide : serverSide ≠ clientSide)
      (p.pushed clientSide ++ [m.meaning]) p.pushed
  · exact fun x hx => List.mem_singleton.mp hx ▸ hplain

/-- What the client gets next. -/
theorem publishScenario_clientNext {p : Peers β γ} (hserver : p.pushed serverSide = []) {n k : Nat}
    (hn : n = k + 1) {m : RtmpMessage}
    (hnext : ((publishScenario h c b).whole OutMessage.meaning serverSide p)[
      (publishScenario h c b).heard clientSide n]? = some m) :
    ((publishServerReplies (publishCall h c b).1).flatten.map OutMessage.meaning)[k]? = some m := by
  subst hn
  rw [← List.append_nil (List.map _ _), ← hserver]
  exact hnext

/-- The two sides follow the scenario. -/
theorem publishScenario_lawful (hc : c.New) (hpublish : c.publish = 0)
    (hplays : ∀ app, h.plays app = false) :
    (publishScenario h c b).Lawful OutMessage.meaning OutMessage.Fits (rtmpPeers h c b) where
  init
    | false => ⟨⟨{
        sent := hc.sent
        connect := rfl
        streamName := rfl
        publish := hpublish
        window := Not.elim (by decide)
        streamId := hc.streamId
        state := hc.state }, rfl⟩, rfl⟩
    | true => ⟨{
        sent := rfl
        window := rfl
        bandwidth := rfl
        info := Not.elim (by decide)
        streamId := Not.elim (by decide)
        before := fun _ => rfl
        after := Not.elim (by decide)
        count := Nat.zero_le _
        media := List.forall_mem_nil _ }, rfl⟩
  replies_ne
    | false => List.cons_ne_nil _ _
    | true => List.cons_ne_nil _ _
  replies_fit
    | false => publisherReplies_plain hc
    | true => publishServerReplies_plain _
  act
    | false, x, p, n, hat, hmay => by
        obtain ⟨rfl, hstate⟩ | ⟨-, hstate, hx⟩ := hmay
        · obtain ⟨hn, hsent, hnext⟩ := publisherAt_connect hat.1 hstate
          exact .inl ⟨rfl, hn, publishScenario_clientTurn hat.2 hsent hnext⟩
        · exact .inr (publishScenario_push hx hat.1 hat.2 (publisherAt_start hat.1 hstate))
    | true, x, p, n, hat, hmay => absurd hmay.1 (by simp [hplays])
  hear
    | false, k, p => by
        refine ⟨⟨?_, fun _ => rfl⟩, receive_acknowledges _ _ _⟩
        rintro (_ | _) n hat
        · exact ⟨{ hat.1 with }, hat.2⟩
        · exact hat
    | true, k, p => by
        refine ⟨⟨?_, fun _ => rfl⟩, receive_acknowledges _ _ _⟩
        rintro (_ | _) n hat
        · exact hat
        · exact { hat with }
  noise
    | false, n, m, p, out, hat, hm, hrun => by
        obtain ⟨client, hclient, rfl⟩ := h.handle_client_ok hrun
        obtain ⟨sequenceNumber, hnoise⟩ := appHandler_noise _ hm p.client
        cases hnoise.symm.trans hclient
        refine ⟨⟨?_, fun _ => rfl⟩, ?_⟩
        · rintro (_ | _) n hat
          · exact ⟨{ hat.1 with sent := rfl }, hat.2⟩
          · exact hat
        · rw [Peers.clientSends, hat.1.sent]
          exact List.forall_mem_nil _
    | true, n, m, p, out, hat, hm, hrun => by
        obtain ⟨server, hserver, rfl⟩ := h.handle_server_ok hrun
        obtain ⟨sequenceNumber, hnoise⟩ := appHandler_noise _ hm p.server
        cases hnoise.symm.trans hserver
        refine ⟨⟨?_, fun _ => rfl⟩, ?_⟩
        · rintro (_ | _) n hat
          · exact hat
          · exact { hat with sent := rfl }
        · rw [Peers.serverSends, hat.sent]
          exact List.forall_mem_nil _
  turn
    | false, n, m, p, out, hat, hstart, hm, hnext, hrun => by
        obtain ⟨client, hclient, rfl⟩ := h.handle_client_ok hrun
        obtain ⟨k, rfl⟩ : ∃ k, n = k + 1 := ⟨n - 1, (Nat.sub_add_cancel (hstart rfl)).symm⟩
        obtain ⟨out, hout, hturn⟩ := publisher_turn h.client h.stack _ hat.1
          (publishScenario_clientNext hat.2 rfl hnext)
        rw [← hout, hclient] at hturn
        exact publishScenario_clientTurn hat.2 hturn.1 hturn.2
    | true, n, m, p, out, hat, hstart, hm, hnext, hrun => by
        obtain ⟨server, hserver, rfl⟩ := h.handle_server_ok hrun
        obtain ⟨out, hout, hturn⟩ := publishServer_turn hc hat hnext
        rw [← hout, hserver] at hturn
        exact publishScenario_serverTurn hturn.1 hturn.2

/-! ## Runs -/

variable {t : Exchange (Peers β γ) RtmpMessage} {n : Bool → Nat}

/-- A message on which a side fails is a refusal of the stream or of media. -/
theorem publish_fails (hc : c.New) (hpublish : c.publish = 0)
    (hplays : ∀ app, h.plays app = false) {side : Bool} {e : Int}
    (hfails : (rtmpPeers h c b).Fails OutMessage.meaning side e) :
    (publishCall h c b).1 ≠ 0 ∨ ∃ m app, IsMedia m ∧ h.server.give app m = .error e := by
  obtain ⟨t, m, rest, hreach, hqueue, hrun⟩ := hfails
  have hlawful := publishScenario_lawful (b := b) hc hpublish hplays
  obtain ⟨n, hreached⟩ := hlawful.reached hreach
  have hrun : h.handle t.app side m = .error e := hrun
  cases hm : isAcknowledgement m with
  | true => exact absurd hrun (h.handle_noise hm side e)
  | false =>
      obtain ⟨hstart, hnext⟩ := hreached.next_whole hlawful.replies_ne hqueue hm
      cases side
      · left
        obtain ⟨hat, hserver⟩ := hreached.turns clientSide
        obtain ⟨k, hk⟩ : ∃ k, n clientSide = k + 1 :=
          ⟨n clientSide - 1, (Nat.sub_add_cancel (hstart rfl)).symm⟩
        rw [hk] at hat
        obtain ⟨out, hout, hturn⟩ := publisher_turn h.client h.stack (publishCall h c b).1 hat
          (publishScenario_clientNext hserver hk hnext)
        rw [← hout, h.handle_client_error hrun] at hturn
        exact hturn
      · right
        have hat := hreached.turns serverSide
        obtain ⟨out, hout, hturn⟩ := publishServer_turn hc hat hnext
        rw [← hout, h.handle_server_error hrun] at hturn
        obtain ⟨m, hmem, app, hgive⟩ := hturn
        exact ⟨m, app, hat.media m hmem, hgive⟩

/-- A client that is refused gets six messages. -/
theorem publishScenario_length_refused (hrefused : (publishCall h c b).1 ≠ 0) {p : Peers β γ}
    (hserver : p.pushed serverSide = []) :
    ((publishScenario h c b).whole OutMessage.meaning serverSide p).length = 6 := by
  have hwhole : (publishScenario h c b).whole OutMessage.meaning serverSide p
      = (publishServerReplies (publishCall h c b).1).flatten.map OutMessage.meaning
        ++ p.pushed serverSide := rfl
  rw [hwhole, hserver, publishServerReplies, publishAnswer, if_neg hrefused]
  rfl

/-- Where both sides of a scenario are that have nothing more to hear. -/
theorem publish_finished {n0 n1 pushed : Nat} (hstart : 0 < n0) (hpushed : 0 < pushed → 8 ≤ n0)
    (hclient : n0 - 1 = Scenario.total [4, 0, 0, 0, 1, 2, 0] n1)
    (hserver : n1 = Scenario.total [1, 0, 1, 0, 3, 2, 0, 0] n0 + pushed) :
    8 ≤ n0 ∧ n1 = 7 + pushed := by
  have hturns : ∀ n0 < 8, 0 < n0 → n0 - 1 ≠ Scenario.total [4, 0, 0, 0, 1, 2, 0]
      (Scenario.total [1, 0, 1, 0, 3, 2, 0, 0] n0) := by decide
  have hlast : 8 ≤ n0 := by
    by_contra hn
    have hzero : pushed = 0 := by omega
    rw [hzero, Nat.add_zero] at hserver
    exact hturns n0 (by omega) hstart (hserver ▸ hclient)
  rw [Scenario.total_all hlast] at hserver
  exact ⟨hlast, hserver⟩

/-- A client that publishes and its server. However their bytes arrive, no reader fails, and a side
    fails only where the application of the server refuses the stream or its media. The application
    is asked for the stream once and gets a front of the media, in its order. A client that is
    refused sends no media. Where nothing is under way, a client that is not refused has started
    and all its media has been given to the application. -/
theorem publish_delivers (h : PeerHandlers β γ) (appname playpath tcurl : List UInt8) (app : γ)
    (b : β) (hplays : ∀ app, h.plays app = false)
    {s : Wired (Peers β γ) ChunkWriter (ChunkReader Unit) UInt8} :
    let c := RtmpClientT.create appname playpath tcurl 0 app
    let out := publishCall h c b
    let machine := wired (rtmpPeers h c b) chunkCodec {} { app := () }
    machine.Reachable s →
    (s.app.server.app.app = b ∨ ∃ n ≤ (s.app.pushed clientSide).length,
        ((s.app.pushed clientSide).take n).foldlM h.server.give out.2 = .ok s.app.server.app.app)
      ∧ (out.1 ≠ 0 → s.app.pushed clientSide = [] ∧ s.app.client.app.state ≠ .start)
      ∧ (out.1 = 0 → s.app.client.app.state ≠ .uninit → (∀ side, (s.link side).wire = []) →
        s.app.client.app.state = .start
          ∧ (s.app.pushed clientSide).foldlM h.server.give out.2 = .ok s.app.server.app.app)
      ∧ ∀ a e, machine.step s a = .error e → ∃ r, e = .inr r
        ∧ (out.1 ≠ 0 ∨ ∃ m app, IsMedia m ∧ h.server.give app m = .error r) := by
  intro c out machine hs
  have hc : c.New := create_new ..
  have hlawful := publishScenario_lawful (b := b) hc rfl hplays
  obtain ⟨t, ht⟩ := wired_refines chunkCodec_lawful hlawful.sends sync_new hs
  obtain ⟨n, hreached⟩ := hlawful.reached ht.reachable
  obtain ⟨hclient, hserver⟩ := hreached.turns clientSide
  have hat := hreached.turns serverSide
  have hpush := hreached.extra clientSide
  rw [ht.app] at hclient hserver
  have hat : PublishServerAt h c b (n serverSide) s.app.server (s.app.pushed clientSide) :=
    ht.app ▸ hat
  have hpush : s.app.pushed clientSide ≠ [] → 8 ≤ n clientSide := ht.app ▸ hpush
  refine ⟨?_, fun hrefused => ?_, fun haccepted hstart hwires => ?_, fun a e hrun => ?_⟩
  · by_cases hn : n serverSide ≤ 5
    · exact .inl (hat.before hn)
    · have hcount := hat.count
      exact .inr ⟨n serverSide - 7, by omega, hat.after (by omega)⟩
  · have hheard := Nat.le_trans (hreached.heard clientSide)
      (Scenario.said_prefix _ (hreached.extra serverSide)).length_le
    rw [publishScenario_length_refused hrefused (ht.app ▸ hserver)] at hheard
    have hheard : n clientSide - 1 ≤ 6 := hheard
    refine ⟨?_, fun hstate => ?_⟩
    · by_contra hne
      have := hpush hne
      omega
    · have := publisherAt_start hclient hstate
      omega
  · have hdrained : ∀ side, (publishScenario h c b).heard side (n side)
        = Scenario.total (((publishScenario h c b).replies (!side)).map List.length) (n (!side))
          + (s.app.pushed (!side)).length := by
      intro side
      rw [hreached.drained (ht.drained chunkCodec_lawful (hwires side)), Scenario.length_said,
        ht.app]
      rfl
    have hpos : 0 < n clientSide := by
      by_contra hzero
      rw [Nat.eq_zero_of_not_pos hzero] at hclient
      exact hstart hclient.state
    have hlengths : (publishServerReplies out.1).map List.length = [4, 0, 0, 0, 1, 2, 0] := by
      rw [haccepted]
      rfl
    have hheardC : n clientSide - 1
        = Scenario.total ((publishServerReplies out.1).map List.length) (n serverSide)
          + (s.app.pushed serverSide).length := hdrained clientSide
    have hheardS : n serverSide = Scenario.total [1, 0, 1, 0, 3, 2, 0, 0] (n clientSide)
        + (s.app.pushed clientSide).length := hdrained serverSide
    rw [hlengths, hserver, List.length_nil, Nat.add_zero] at hheardC
    obtain ⟨hlast, hcount⟩ := publish_finished hpos
      (fun hpushed => hpush (List.ne_nil_of_length_pos hpushed)) hheardC hheardS
    obtain ⟨k, hk⟩ : ∃ k, n clientSide = k + 8 := ⟨_, (Nat.sub_add_cancel hlast).symm⟩
    refine ⟨?_, ?_⟩
    · rw [hclient.state, hk]
      rfl
    · have hafter := hat.after (by omega)
      rwa [hcount, Nat.add_sub_cancel_left, List.take_length] at hafter
  · obtain ⟨side, r, rfl, hfails⟩ := ht.fails chunkCodec_lawful hlawful.sends hrun
    exact ⟨r, rfl, publish_fails hc rfl hplays hfails⟩

end Lawful

/-- An application that keeps the media it is given. -/
def keepingHandler : RtmpServerHandler (List (List UInt8)) where
  onplay _ _ _ _ _ _ b := (-1, b)
  onpause _ _ b := (0, b)
  onseek _ b := (0, b)
  onpublish _ _ _ _ _ := (0, [])
  onvideo data _ b := (0, b ++ [data])
  onaudio data _ b := (0, b ++ [data])
  onscript data _ b := (0, b ++ [data])
  ongetduration _ _ b := (-1, [], b)

def keepingPeers : PeerHandlers (List (List UInt8)) Unit where
  server := keepingHandler
  client := { onvideo _ _ b := (0, b), onaudio _ _ b := (0, b), onscript _ _ b := (0, b) }
  stack := { code := [], level := [], description := [] }
  plays _ := false

/-- The commands of a client and the answers of its server, each in the piece in which it is
    written but for the first, and then a script, a frame of two chunks and audio. -/
def publishDialogue : List (WiredStep PeerAct) :=
  [.act clientSide .connect, .arrive serverSide 100, .arrive serverSide 106,
    .arrive clientSide 251, .arrive serverSide 133, .arrive clientSide 41, .arrive serverSide 59,
    .arrive clientSide 119, .act clientSide (.script [2, 0, 1] 0),
    .act clientSide (.video (List.replicate 200 23) 40), .arrive serverSide 100,
    .act clientSide (.audio [175, 1] 63), .arrive serverSide 137]

/-- The application has all that the client pushed. -/
theorem publish_delivers_media :
    let c : RtmpClientT Unit := .create [108] [97] [98] 0 ()
    let machine := wired (rtmpPeers keepingPeers c []) chunkCodec {} { app := () }
    ∃ s, machine.Reachable s ∧ s.app.client.app.state = .start
      ∧ s.app.server.app.app = [[2, 0, 1], List.replicate 200 23, [175, 1]]
      ∧ (s.app.pushed clientSide).foldlM keepingPeers.server.give [] = .ok s.app.server.app.app
      ∧ ∀ a e, machine.step s a = .error e → ∃ r, e = .inr r
        ∧ ((publishCall keepingPeers c []).1 ≠ 0
          ∨ ∃ m app, IsMedia m ∧ keepingPeers.server.give app m = .error r) := by
  intro c machine
  obtain ⟨s, hs, hp⟩ := Machine.reachable_of_runs (M := machine)
    (p := fun s => decide (s.app.client.app.state ≠ .uninit ∧ (∀ side, (s.link side).wire = [])
      ∧ s.app.server.app.app = [[2, 0, 1], List.replicate 200 23, [175, 1]]))
    publishDialogue (by decide +kernel)
  obtain ⟨hstarted, hwires, hgiven⟩ := of_decide_eq_true hp
  obtain ⟨-, -, hdrained, hfails⟩ :=
    publish_delivers keepingPeers [108] [97] [98] () [] (fun _ => rfl) hs
  obtain ⟨hstate, hall⟩ := hdrained rfl hstarted hwires
  exact ⟨s, hs, hstate, hgiven, hall, hfails⟩

end SeastarLive
