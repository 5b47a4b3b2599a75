/-
SeastarLive.Rtmp.SessionCommands — what one side sends, in the handler of the other.

* `appHandler_command` and what follows it: a message in front of the callbacks of a side.
* `server_connect`, `client_connectReply` and what follows them: a command, as one side writes it.
* `commandMessage_fits`: the commands fit the buffer that they are written into.
-/
import SeastarLive.Flv.MetadataRoundTrip
import SeastarLive.Rtmp.ClientSession

namespace SeastarLive

open AmfArg

variable {β γ : Type}

/-! ## Messages in front of the callbacks of a side -/

section Callbacks

variable {α : Type} (cb : RtmpCallbacks α) (timestamp : Nat) (s : RtmpState α)

theorem appHandler_command (data : List UInt8) :
    appHandler cb MessageType.invoke.code timestamp data s
      = (cb.oninvoke s.control data s.app).map fun app => { s with app } := by
  simp only [appHandler, MessageType.ofByte_code]

theorem appHandler_chunkSize (data : List UInt8) :
    appHandler cb MessageType.setChunkSize.code timestamp data s = .ok s := by
  simp only [appHandler, MessageType.ofByte_code]

theorem appHandler_window {n : Nat} (hn : n < 4294967296) :
    appHandler cb MessageType.windowAcknowledgementSize.code timestamp (beBytes 4 n) s
      = .ok { s with control := { s.control with windowSize := n } } := by
  have hread : readControlValue (beBytes 4 n) = some n := by
    have hvalue := beValue_take_beBytes (w := 4) hn []
    rw [List.append_nil] at hvalue
    rw [readControlValue, length_beBytes, if_pos (Nat.le_refl 4), hvalue]
  simp only [appHandler, MessageType.ofByte_code, controlHandler, hread, Option.map_some,
    controlResult]

theorem appHandler_bandwidth (n : Nat) (limitType : UInt8) :
    ∃ control : RtmpControl, control.windowSize = s.control.windowSize
      ∧ appHandler cb MessageType.setPeerBandwidth.code timestamp
          (setPeerBandwidthPayload n limitType) s
        = .ok { control, app := cb.onbandwidth s.control.windowSize s.app } := by
  have hlength : 5 ≤ (setPeerBandwidthPayload n limitType).length := by
    simp [setPeerBandwidthPayload]
  obtain ⟨peerBandwidth, limitType', hread⟩ :
      ∃ b t, readSetPeerBandwidth (setPeerBandwidthPayload n limitType) = some (b, t) :=
    ⟨_, _, if_pos hlength⟩
  refine ⟨{ s.control with peerBandwidth, limitType := limitType' }, rfl, ?_⟩
  simp only [appHandler, MessageType.ofByte_code, controlHandler, hread, Option.map_some,
    controlResult]

/-- The begin of a stream, and that it is recorded. -/
theorem appHandler_event {event : Nat} (hevent : event = 0 ∨ event = 4) (value : Nat) :
    appHandler cb MessageType.event.code timestamp (eventPayload event value []) s = .ok s := by
  have hlength : (eventPayload event value []).length = 6 := by simp [eventPayload]
  have hvalue : beValue ((eventPayload event value []).take 2) = event := by
    rw [eventPayload, List.append_assoc]
    refine beValue_take_beBytes (w := 2) ?_ _
    rcases hevent with rfl | rfl <;> decide
  simp only [appHandler, MessageType.ofByte_code, eventHandler, hlength, hvalue, Nat.lt_irrefl,
    if_false]
  rcases hevent with rfl | rfl <;> rfl

/-- An acknowledgement changes one number. -/
theorem appHandler_acknowledgement {data : List UInt8} (hdata : 4 ≤ data.length) :
    ∃ sequenceNumber, appHandler cb MessageType.acknowledgement.code timestamp data s
      = .ok { s with control := { s.control with sequenceNumber } } := by
  have hread : readControlValue data = some (beValue (data.take 4)) := if_pos hdata
  refine ⟨beValue (data.take 4), ?_⟩
  simp only [appHandler, MessageType.ofByte_code, controlHandler, hread, Option.map_some,
    controlResult]

end Callbacks

/-! ## Commands in the handler of a server -/

section Server

variable (h : RtmpServerHandler β) (stack : RtmpResult)

/-- The fields of a connect command fit its bytes, and the buffers of its reader. -/
structure RtmpConnect.Fits (c : RtmpConnect) : Prop where
  app : c.app.length < 128
  tcUrl : c.tcUrl.length < 256
  others : c.flashver.length < 65536 ∧ c.swfUrl.length < 65536 ∧ c.pageUrl.length < 65536
  doubles : c.capabilities.length = 8 ∧ c.audioCodecs.length = 8 ∧ c.videoCodecs.length = 8
    ∧ c.videoFunction.length = 8 ∧ c.encoding.length = 8

/-- What a server reads of a connect command. It looks for `flashver`, and the command has
    `flashVer`. -/
def RtmpConnect.received (c : RtmpConnect) : RtmpConnect where
  app := c.app
  tcUrl := c.tcUrl
  fpad := if c.fpad != 0 then 1 else 0
  audioCodecs := c.audioCodecs
  videoCodecs := c.videoCodecs
  videoFunction := c.videoFunction
  encoding := c.encoding

theorem length_doubleBytes (n : Int) : (doubleBytes n).length = 8 := length_beBytes ..

theorem doubleValue_small :
    ∀ n ∈ [(0 : Int), 1, 2, 3], doubleValue (doubleBytes n) ≠ .number (-1) := by
  decide +kernel

theorem propFits_optional {name : String} (hname : PropFits (name, .boolean true)) {s : List UInt8}
    (hs : s.length < 65536) : ∀ prop ∈ optionalProp name s, PropFits prop := by
  intro prop hprop
  unfold optionalProp at hprop
  split at hprop
  · exact absurd hprop List.not_mem_nil
  · rw [List.mem_singleton.mp hprop]
    exact ⟨hname.name, hs⟩

theorem connectObject_fits {c : RtmpConnect} (hc : c.Fits) :
    ∀ prop ∈ connectObject c, PropFits prop := by
  obtain ⟨hcapabilities, haudio, hvideo, hfunction, hencoding⟩ := hc.doubles
  obtain ⟨hflashver, hswf, hpage⟩ := hc.others
  have hname : ∀ name ∈ ["app", "flashVer", "tcUrl", "swfUrl", "pageUrl", "fpad", "capabilities",
      "audioCodecs", "videoCodecs", "videoFunction", "objectEncoding"],
      asciiBytes name ≠ [] ∧ (asciiBytes name).length < 65536 := by decide
  have happ : c.app.length < 65536 := Nat.lt_trans hc.app (by decide)
  have htcUrl : c.tcUrl.length < 65536 := Nat.lt_trans hc.tcUrl (by decide)
  have hfits : ∀ {name : String} {v : AmfScalar}, name ∈ ["app", "flashVer", "tcUrl", "swfUrl",
      "pageUrl", "fpad", "capabilities", "audioCodecs", "videoCodecs", "videoFunction",
      "objectEncoding"] → v.Fits → PropFits (name, v) := fun hn hv => ⟨hname _ hn, hv⟩
  simp only [connectObject, List.forall_mem_append, List.forall_mem_cons]
  refine ⟨⟨⟨⟨⟨hfits (by simp) happ, hfits (by simp) hflashver, nofun⟩, ?_⟩, ?_⟩, ?_⟩,
    hfits (by simp) trivial, hfits (by simp) hcapabilities, hfits (by simp) haudio,
    hfits (by simp) hvideo, hfits (by simp) hfunction, hfits (by simp) hencoding, nofun⟩
  · exact propFits_optional (hfits (by simp) trivial) htcUrl
  · exact propFits_optional (hfits (by simp) trivial) hswf
  · exact propFits_optional (hfits (by simp) trivial) hpage

/-- A property that the table does not have. -/
theorem foldl_optional_ignored {σ : Type} {table : List (Flv.AmfObjectItem σ)} {name : String}
    (hname : Flv.amfFindItem table (asciiBytes name) Flv.amfString = .ignored) (s : List UInt8)
    (values : σ) : (optionalProp name s).foldl (putProp table) values = values := by
  unfold optionalProp
  split
  · rfl
  · simp only [List.foldl_cons, List.foldl_nil, putProp, AmfScalar.type, hname]
    rfl

/-- A property that a table has, by its place. -/
theorem findItem_at {σ : Type} {table : List (Flv.AmfObjectItem σ)}
    (hnodup : (table.map Flv.AmfObjectItem.name).Nodup)
    (hnames : ∀ name ∈ table.map Flv.AmfObjectItem.name, Flv.SingleBytes name.toList) {i : Nat}
    {item : Flv.AmfObjectItem σ} (hitem : table[i]? = some item) :
    Flv.amfFindItem table (asciiBytes item.name) item.type = item.slot := by
  have hmem := List.mem_of_getElem? hitem
  exact Flv.amfFindItem_of_mem hnodup hmem (hnames _ (List.mem_map_of_mem hmem))

theorem findItem_connect {i : Nat} {item : Flv.AmfObjectItem RtmpConnect}
    (hitem : connectProps[i]? = some item) :
    Flv.amfFindItem connectProps (asciiBytes item.name) item.type = item.slot :=
  findItem_at (by decide) (by decide) hitem

/-- The table takes the properties that it has, and no others. -/
theorem connectObject_put {c : RtmpConnect} (hc : c.Fits) :
    (connectObject c).foldl (putProp connectProps) {} = c.received := by
  have hother : ∀ name ∈ ["flashVer", "swfUrl", "pageUrl", "capabilities"], ∀ type,
      Flv.amfFindItem connectProps (asciiBytes name) type = .ignored := by
    intro name hname type
    have hbytes : ∀ name ∈ ["flashVer", "swfUrl", "pageUrl", "capabilities"],
        Flv.SingleBytes name.toList ∧ name ∉ connectProps.map Flv.AmfObjectItem.name := by decide
    exact Flv.amfFindItem_of_not_mem (hbytes name hname).1 (hbytes name hname).2 type
  have happ := findItem_connect (i := 0) rfl
  have htcUrl := findItem_connect (i := 2) rfl
  have hfpad := findItem_connect (i := 3) rfl
  have haudio := findItem_connect (i := 4) rfl
  have hvideo := findItem_connect (i := 5) rfl
  have hfunction := findItem_connect (i := 6) rfl
  have hencoding := findItem_connect (i := 7) rfl
  simp only at happ htcUrl hfpad haudio hvideo hfunction hencoding
  unfold connectObject
  simp only [List.foldl_append, List.foldl_cons, List.foldl_nil,
    foldl_optional_ignored (hother "swfUrl" (by simp) _),
    foldl_optional_ignored (hother "pageUrl" (by simp) _), putProp, AmfScalar.type,
    hother "flashVer" (by simp), hother "capabilities" (by simp), happ, hfpad, haudio, hvideo,
    hfunction, hencoding, AmfScalar.put, if_pos hc.app]
  unfold optionalProp
  split
  · rename_i hempty
    simp only [List.foldl_nil, RtmpConnect.received, hempty]
  · simp only [List.foldl_cons, List.foldl_nil, putProp, AmfScalar.type, htcUrl, AmfScalar.put,
      if_pos hc.tcUrl]
    rfl

theorem server_oninvoke (control : RtmpControl) (data : List UInt8) (s : RtmpServer β) :
    (rtmpServerCallbacks h stack).oninvoke control data s
      = rtmpInvokeHandler { server := some (RtmpServer.callbacks h control), stack } data s := rfl

theorem server_connect (control : RtmpControl) {c : RtmpConnect} (hc : c.Fits) (s : RtmpServer β) :
    (rtmpServerCallbacks h stack).oninvoke control (argsBytes (connectArgs (doubleBytes 1) c)) s
      = RtmpServer.onconnect control (doubleBytes 1) c.received s := by
  have hargs : ∀ arg ∈ [object (connectObject c)], arg.Fits := by
    intro arg harg
    rw [List.mem_singleton.mp harg]
    exact connectObject_fits hc
  have hstore : storeArgs [{ type := Flv.amfObject, props := connectProps }] {}
      [object (connectObject c)] = some (c.received, []) := by
    rw [storeArgs_cons rfl, AmfParam.put, connectObject_put hc]
    rfl
  have hi : commandNames.findIdx (strEq (asciiBytes "connect")) = 3 := by decide
  rw [server_oninvoke, connectArgs, rtmpInvokeHandler_args _ hi (by decide)
    (length_doubleBytes 1) (doubleValue_small 1 (by decide)) hargs s]
  simp only [commandHandlers, List.getElem?_cons_succ, List.getElem?_cons_zero]
  exact serverCommand_args (RtmpServer.callbacks h control) rfl hargs hstore _ s

/-- A server has no handler for the commands that only name a stream. -/
theorem server_streamName (control : RtmpControl) {command : String}
    (hcommand : command ∈ ["releaseStream", "FCPublish"]) {name : List UInt8}
    (hname : name.length < 65536) (s : RtmpServer β) :
    (rtmpServerCallbacks h stack).oninvoke control
      (argsBytes (streamNameArgs command (doubleBytes 0) name)) s = .ok s := by
  have hargs : ∀ arg ∈ [null, string name], arg.Fits := by
    simp only [List.forall_mem_cons]
    exact ⟨trivial, hname, nofun⟩
  have hi : ∀ command ∈ ["releaseStream", "FCPublish"],
      commandNames.findIdx (strEq (asciiBytes command)) = 13 := by decide
  have hshort : ∀ command ∈ ["releaseStream", "FCPublish"],
      (asciiBytes command).length < 64 := by decide
  rw [server_oninvoke, streamNameArgs, rtmpInvokeHandler_args _ (hi command hcommand)
    (hshort command hcommand) (length_doubleBytes 0) (doubleValue_small 0 (by decide)) hargs s]
  rfl

theorem server_createStream (control : RtmpControl) (s : RtmpServer β) :
    (rtmpServerCallbacks h stack).oninvoke control (argsBytes (createStreamArgs (doubleBytes 2))) s
      = RtmpServer.oncreateStream (doubleBytes 2) s := by
  have hargs : ∀ arg ∈ [null], arg.Fits := by
    simp only [List.forall_mem_cons]
    exact ⟨trivial, nofun⟩
  have hstore : storeArgs [commandParam] () [null] = some ((), []) := by
    rw [storeArgs_cons rfl]
    rfl
  have hi : commandNames.findIdx (strEq (asciiBytes "createStream")) = 4 := by decide
  rw [server_oninvoke, createStreamArgs, rtmpInvokeHandler_args _ hi (by decide)
    (length_doubleBytes 2) (doubleValue_small 2 (by decide)) hargs s]
  simp only [commandHandlers, List.getElem?_cons_succ, List.getElem?_cons_zero]
  exact serverCommand_args (RtmpServer.callbacks h control) rfl hargs hstore _ s

theorem server_publish (control : RtmpControl) {name : List UInt8}
    (hname : name.length < streamNameSize)
    (s : RtmpServer β) :
    (rtmpServerCallbacks h stack).oninvoke control
        (argsBytes (publishArgs (doubleBytes 0) name "live")) s
      = RtmpServer.onpublish h (doubleBytes 0) name (asciiBytes "live") s := by
  have hlive : (asciiBytes "live").length < 18 := by decide
  have hargs : ∀ arg ∈ [null, string name, text "live"], arg.Fits := by
    simp only [List.forall_mem_cons]
    exact ⟨trivial, Nat.lt_trans hname (by decide), Nat.lt_trans hlive (by decide), nofun⟩
  have hstore : storeArgs [commandParam, nameParam streamNameSize,
      stringParam 18 fun s (v : CommandValues) => { v with type := s }] {}
      [null, string name, text "live"]
        = some ({ name, type := asciiBytes "live" }, []) := by
    rw [storeArgs_command, nameParam, storeArgs_string _ _ _ _ hname,
      storeArgs_string _ _ _ _ hlive, storeArgs]
  have hi : commandNames.findIdx (strEq (asciiBytes "publish")) = 9 := by decide
  rw [server_oninvoke, publishArgs, rtmpInvokeHandler_args _ hi (by decide)
    (length_doubleBytes 0) (doubleValue_small 0 (by decide)) hargs s]
  simp only [commandHandlers, List.getElem?_cons_succ, List.getElem?_cons_zero]
  exact serverCommand_args (RtmpServer.callbacks h control) rfl hargs hstore _ s

end Server

/-! ## Commands in the handler of a client -/

section Client

variable (h : RtmpClientHandler γ) (stack : RtmpResult)

/-- The strings of an information object fit its bytes. -/
theorem statusProps_fit {level code description : String} (hlevel : (asciiBytes level).length < 8)
    (hcode : (asciiBytes code).length < 64) (hdescription : (asciiBytes description).length < 256) :
    ∀ prop ∈ statusProps level code description, PropFits prop := by
  have hname : ∀ name ∈ ["level", "code", "description"],
      asciiBytes name ≠ [] ∧ (asciiBytes name).length < 65536 := by decide
  simp only [statusProps, List.forall_mem_cons]
  exact ⟨⟨hname _ (by simp), Nat.lt_trans hlevel (by decide)⟩,
    ⟨hname _ (by simp), Nat.lt_trans hcode (by decide)⟩,
    ⟨hname _ (by simp), Nat.lt_trans hdescription (by decide)⟩, List.forall_mem_nil _⟩

/-- A client reads the three strings of an information object. -/
theorem statusProps_put {level code description : String} (hlevel : (asciiBytes level).length < 8)
    (hcode : (asciiBytes code).length < 64) (hdescription : (asciiBytes description).length < 256) :
    (statusProps level code description).foldl (putProp resultProps) stack
      = { level := asciiBytes level, code := asciiBytes code,
          description := asciiBytes description } := by
  have hfind : ∀ {i : Nat} {item : Flv.AmfObjectItem RtmpResult}, resultProps[i]? = some item →
      Flv.amfFindItem resultProps (asciiBytes item.name) item.type = item.slot :=
    findItem_at (by decide) (by decide)
  have hfirst := hfind (i := 0) rfl
  have hsecond := hfind (i := 1) rfl
  have hthird := hfind (i := 2) rfl
  simp only at hfirst hsecond hthird
  simp only [statusProps, List.foldl_cons, List.foldl_nil, putProp, AmfScalar.type, hfirst, hsecond,
    hthird, AmfScalar.put, if_pos hlevel, if_pos hcode, if_pos hdescription]

theorem client_oninvoke (control : RtmpControl) (data : List UInt8) (s : RtmpClientT γ) :
    (rtmpClientCallbacks h stack).oninvoke control data s
      = rtmpInvokeHandler { client := some (RtmpClientT.callbacks control), stack } data s := rfl

/-- A client connects whatever the information of the reply is. -/
theorem client_connectReply (control : RtmpControl) (fmsver code level description : String)
    (hfmsver : (asciiBytes fmsver).length < 65536) (hlevel : (asciiBytes level).length < 8)
    (hcode : (asciiBytes code).length < 64) (hdescription : (asciiBytes description).length < 256)
    {encoding : List UInt8} (hencoding : encoding.length = 8) (s : RtmpClientT γ) :
    (rtmpClientCallbacks h stack).oninvoke control (argsBytes (connectReplyArgs (doubleBytes 1)
        fmsver (doubleBytes 31) code level description encoding)) s = RtmpClientT.onconnect s := by
  have hname : ∀ name ∈ ["fmsVer", "capabilities", "objectEncoding"],
      asciiBytes name ≠ [] ∧ (asciiBytes name).length < 65536 := by decide
  have hargs : ∀ arg ∈ [object [("fmsVer", .string (asciiBytes fmsver)),
      ("capabilities", .double (doubleBytes 31))],
      object (statusProps level code description ++ [("objectEncoding", .double encoding)])],
      arg.Fits := by
    simp only [List.forall_mem_cons]
    refine ⟨?_, ?_, nofun⟩
    · intro prop hprop
      rcases List.mem_cons.mp hprop with rfl | hprop
      · exact ⟨hname _ (by simp), hfmsver⟩
      rw [List.mem_singleton.mp hprop]
      exact ⟨hname _ (by simp), length_doubleBytes 31⟩
    · intro prop hprop
      rcases List.mem_append.mp hprop with hprop | hprop
      · exact statusProps_fit hlevel hcode hdescription prop hprop
      rw [List.mem_singleton.mp hprop]
      exact ⟨hname _ (by simp), hencoding⟩
  have hi : commandNames.findIdx (strEq (asciiBytes "_result")) = 0 := by decide
  have hnumber : doubleToUInt32 (doubleBytes 1) = 1 := by decide +kernel
  rw [client_oninvoke, connectReplyArgs, rtmpInvokeHandler_args _ hi (by decide)
    (length_doubleBytes 1) (doubleValue_small 1 (by decide)) hargs s]
  simp only [commandHandlers, List.getElem?_cons_zero, rtmpCommandOnresult, hnumber,
    withParams_args _ _ hargs]
  rw [storeArgs_cons rfl, storeArgs_cons rfl, storeArgs]
  rfl

theorem client_createStreamReply (control : RtmpControl) (s : RtmpClientT γ) :
    (rtmpClientCallbacks h stack).oninvoke control
        (argsBytes (numberReplyArgs (doubleBytes 2) (doubleBytes 1))) s
      = RtmpClientT.oncreateStream control (doubleBytes 1) s := by
  have hargs : ∀ arg ∈ [null, double (doubleBytes 1)], arg.Fits := by
    simp only [List.forall_mem_cons]
    exact ⟨trivial, length_doubleBytes 1, nofun⟩
  have hstore : storeArgs [commandParam, valueParam] {} [null, double (doubleBytes 1)]
      = some ({ number := doubleBytes 1 }, []) := by
    rw [storeArgs_command, valueParam, storeArgs_number, storeArgs]
  have hi : commandNames.findIdx (strEq (asciiBytes "_result")) = 0 := by decide
  have hnumber : doubleToUInt32 (doubleBytes 2) = 2 := by decide +kernel
  rw [client_oninvoke, numberReplyArgs, rtmpInvokeHandler_args _ hi (by decide)
    (length_doubleBytes 2) (doubleValue_small 2 (by decide)) hargs s]
  simp only [commandHandlers, List.getElem?_cons_zero, rtmpCommandOnresult, hnumber,
    withParams_args _ _ hargs, hstore]
  rfl

theorem client_onstatus (control : RtmpControl) (level code description : String)
    (hlevel : (asciiBytes level).length < 8) (hcode : (asciiBytes code).length < 64)
    (hdescription : (asciiBytes description).length < 256) (s : RtmpClientT γ) :
    (rtmpClientCallbacks h stack).oninvoke control
        (argsBytes (onstatusArgs (doubleBytes 0) level code description)) s
      = onResult { client := some (RtmpClientT.callbacks control), stack }
          { level := asciiBytes level, code := asciiBytes code,
            description := asciiBytes description } s := by
  have hargs : ∀ arg ∈ [null, object (statusProps level code description)], arg.Fits := by
    simp only [List.forall_mem_cons]
    exact ⟨trivial, statusProps_fit hlevel hcode hdescription, nofun⟩
  have hstore : storeArgs [commandParam, resultParam] stack
      [null, object (statusProps level code description)]
        = some ({ level := asciiBytes level, code := asciiBytes code,
                  description := asciiBytes description }, []) := by
    rw [storeArgs_cons rfl, storeArgs_cons rfl]
    simp only [AmfParam.put, resultParam, statusProps_put stack hlevel hcode hdescription]
    rfl
  have hi : commandNames.findIdx (strEq (asciiBytes "onStatus")) = 2 := by decide
  rw [client_oninvoke, onstatusArgs, rtmpInvokeHandler_args _ hi (by decide)
    (length_doubleBytes 0) (doubleValue_small 0 (by decide)) hargs s]
  simp only [commandHandlers, List.getElem?_cons_succ, List.getElem?_cons_zero,
    rtmpCommandOnstatus, withParams_args _ _ hargs, hstore]

/-- A status that is an error. -/
theorem onResult_error {α : Type} (handlers : InvokeHandlers α) (code description : List UInt8)
    (app : α) :
    onResult handlers { level := asciiBytes "error", code, description } app = .error (-1) := by
  have herror : strEq (asciiBytes "error") "error" = true := by decide
  simp only [onResult, herror, if_true]

/-- A status that starts a stream. -/
theorem onResult_start {α : Type} {handlers : InvokeHandlers α} {cb : ClientCallbacks α}
    (hclient : handlers.client = some cb) {code : String}
    (hcode : code ∈ ["NetStream.Play.Start", "NetStream.Publish.Start"]) (description : List UInt8)
    (app : α) :
    onResult handlers { level := asciiBytes "status", code := asciiBytes code, description } app
      = .ok (cb.onnotify .start app) := by
  have herror : strEq (asciiBytes "status") "error" = false := by decide
  have hplay : (statusCodes.map Prod.fst).findIdx
      (strCaseEq (asciiBytes "NetStream.Play.Start")) = 0 := by decide
  have hpublish : (statusCodes.map Prod.fst).findIdx
      (strCaseEq (asciiBytes "NetStream.Publish.Start")) = 2 := by decide
  simp only [onResult, herror, Bool.false_eq_true, if_false, hclient]
  rw [find?_fst]
  rcases List.mem_cons.mp hcode with rfl | hcode
  · rw [hplay]
    rfl
  · rw [List.mem_singleton.mp hcode, hpublish]
    rfl

end Client

/-! ## Callbacks that answer -/

section Answers

theorem onconnect_publisher {s : RtmpClientT γ} (hpublish : s.publish = 0) :
    s.onconnect = .ok { s with
      state := .connected
      sent := s.sent ++
        [commandMessage (streamNameArgs "releaseStream" (doubleBytes 0) s.streamName) s.streamId,
          commandMessage (streamNameArgs "FCPublish" (doubleBytes 0) s.streamName) 0,
          commandMessage (createStreamArgs (doubleBytes 2)) 0] } := by
  simp only [RtmpClientT.onconnect, if_pos hpublish, RtmpClientT.sendControl, RtmpClientT.send,
    List.append_assoc, List.cons_append, List.nil_append]

theorem oncreateStream_publisher {s : RtmpClientT γ} (hpublish : s.publish = 0)
    (control : RtmpControl) (streamId : List UInt8) :
    s.oncreateStream control streamId = .ok { s with
      state := .createStream
      streamId := doubleToUInt32 streamId
      sent := s.sent ++
        [commandMessage (publishArgs (doubleBytes 0) s.streamName "live") (doubleToUInt32 streamId),
          .chunkSize 4000] } := by
  simp only [RtmpClientT.oncreateStream, if_pos hpublish, RtmpClientT.sendControl, RtmpClientT.send,
    List.append_assoc, List.cons_append, List.nil_append]

theorem onconnect_server (control : RtmpControl) (transaction : List UInt8) (connect : RtmpConnect)
    (s : RtmpServer β) :
    RtmpServer.onconnect control transaction connect s = .ok { s with
      info := connect
      sent := s.sent ++
        [windowMessage control.windowSize,
          .control .setPeerBandwidth (setPeerBandwidthPayload control.peerBandwidth 2),
          .chunkSize 4096,
          commandMessage (connectReplyArgs transaction "FMS/3,0,1,123" (doubleBytes 31)
            "NetConnection.Connect.Success" "status" "Connection Succeeded." connect.encoding)
            0] } := by
  simp only [RtmpServer.onconnect, RtmpServer.sendControl, RtmpServer.send, List.append_assoc,
    List.cons_append, List.nil_append]

theorem onpublish_server (h : RtmpServerHandler β) (transaction name type : List UInt8)
    (s : RtmpServer β) :
    RtmpServer.onpublish h transaction name type s = .ok { s with
      app := (h.onpublish (cStr s.info.app) (cStr name) (cStr type) (cStr s.info.tcUrl) s.app).2
      sent := s.sent ++
        if (h.onpublish (cStr s.info.app) (cStr name) (cStr type) (cStr s.info.tcUrl) s.app).1 = 0
        then
          [eventMessage 0 s.streamId [],
            commandMessage (onstatusArgs transaction "status" "NetStream.Publish.Start" "")
              s.streamId]
        else
          [commandMessage (onstatusArgs transaction "error" "NetStream.Publish.BadName" "")
            s.streamId] } := by
  unfold RtmpServer.onpublish
  simp only [RtmpServer.sendOnstatus, RtmpServer.sendControl, RtmpServer.send]
  split <;> simp only [List.append_assoc, List.cons_append, List.nil_append]

end Answers

/-! ## The payload buffer -/

/-- The size of `payload` of `rtmp_server_t` and of `rtmp_client_t`. -/
def payloadSize : Nat := 2 * 1024

/-- A command that fits the payload buffer is a message that is sent. -/
theorem commandMessage_fits {arg : AmfArg} {args : List AmfArg} {streamId : Nat}
    (hargs : (argsBytes (arg :: args)).length ≤ payloadSize) (hstream : streamId < 4294967296) :
    (commandMessage (arg :: args) streamId).Fits where
  cid := ⟨Nat.le_refl 3, Nat.le_add_right 3 3⟩
  payload := nofun
  length := Nat.lt_of_le_of_lt hargs (by decide)
  timestamp := Nat.zero_lt_succ _
  streamId := hstream
  type := (by decide : MessageType.invoke.code ≠ 0)
  notChunkSize := (by decide : MessageType.invoke.code ≠ MessageType.setChunkSize.code)

theorem length_amfString (s : List UInt8) : (amfWriteString16 s).length = s.length + 2 := by
  simp [amfWriteString16]

theorem length_optionalProp_le (name : String) (s : List UInt8) :
    ((optionalProp name s).flatMap propBytes).length
      ≤ (asciiBytes name).length + s.length + 5 := by
  unfold optionalProp
  split
  · exact Nat.zero_le _
  · simp only [List.flatMap_cons, List.flatMap_nil, propBytes, AmfScalar.bytes, AmfScalar.payload,
      List.append_nil, List.length_append, List.length_cons, length_amfString]
    omega

/-- The command of a connection fits. -/
theorem length_connectArgs_le {c : RtmpConnect} (hc : c.Fits) (hflashver : c.flashver.length < 32)
    (hswfUrl : c.swfUrl.length < 256) (hpageUrl : c.pageUrl.length < 256) :
    (argsBytes (connectArgs (doubleBytes 1) c)).length ≤ payloadSize := by
  have happ := hc.app
  have htcUrl := hc.tcUrl
  obtain ⟨hcapabilities, haudio, hvideo, hfunction, hencoding⟩ := hc.doubles
  have hname : ∀ name ∈ ["connect", "app", "flashVer", "tcUrl", "swfUrl", "pageUrl", "fpad",
      "capabilities", "audioCodecs", "videoCodecs", "videoFunction", "objectEncoding"],
      (asciiBytes name).length ≤ 14 := by decide
  simp only [List.forall_mem_cons] at hname
  obtain ⟨h1, h2, h3, h4, h5, h6, h7, h8, h9, h10, h11, h12, -⟩ := hname
  have ht := length_optionalProp_le "tcUrl" c.tcUrl
  have hs := length_optionalProp_le "swfUrl" c.swfUrl
  have hp := length_optionalProp_le "pageUrl" c.pageUrl
  simp only [argsBytes, connectArgs, connectObject, List.flatMap_cons, List.flatMap_nil,
    AmfArg.bytes, AmfArg.payload, AmfScalar.payload, propBytes, AmfScalar.bytes,
    List.flatMap_append, List.append_nil, List.length_append, List.length_cons, List.length_nil,
    length_amfString, length_doubleBytes, payloadSize]
  omega

/-- The command with a stream name fits. -/
theorem length_streamNameArgs_le {command : String} (hcommand : (asciiBytes command).length < 64)
    {name : List UInt8} (hname : name.length < 256) :
    (argsBytes (streamNameArgs command (doubleBytes 0) name)).length ≤ payloadSize := by
  simp only [argsBytes, streamNameArgs, List.flatMap_cons, List.flatMap_nil, AmfArg.bytes,
    AmfArg.payload, AmfScalar.payload, List.append_nil, List.length_append, List.length_cons,
    List.length_nil, length_amfString, length_doubleBytes, payloadSize]
  omega

theorem length_publishArgs_le {name : List UInt8} (hname : name.length < 256) :
    (argsBytes (publishArgs (doubleBytes 0) name "live")).length ≤ payloadSize := by
  have hpublish : (asciiBytes "publish").length = 7 := by decide
  have hlive : (asciiBytes "live").length = 4 := by decide
  simp only [argsBytes, publishArgs, List.flatMap_cons, List.flatMap_nil, AmfArg.bytes,
    AmfArg.payload, AmfScalar.payload, List.append_nil, List.length_append, List.length_cons,
    List.length_nil, length_amfString, length_doubleBytes, payloadSize, hpublish, hlive]
  omega

/-! ## The strings of a client -/

theorem cStr_snprintfInto (size : Nat) (s : List UInt8) :
    cStr (snprintfInto size s) = snprintfInto size s := by
  refine List.takeWhile_eq_self_iff.mpr fun b hb => ?_
  exact List.mem_takeWhile_imp (p := (· != 0)) (List.mem_of_mem_take hb)

theorem length_snprintfInto_le (size : Nat) (s : List UInt8) :
    (snprintfInto size s).length ≤ size - 2 := List.length_take_le _ _

/-- A client that was made and has not begun. -/
structure RtmpClientT.New (c : RtmpClientT γ) : Prop where
  sent : c.sent = []
  state : c.state = .uninit
  streamId : c.streamId = 0
  connect : c.connect.Fits
  payload : (argsBytes (connectArgs (doubleBytes 1) c.connect)).length ≤ payloadSize
  encoding : c.connect.encoding = doubleBytes 0
  streamName : c.streamName.length < 256
  strings : cStr c.connect.app = c.connect.app ∧ cStr c.connect.tcUrl = c.connect.tcUrl
    ∧ cStr c.streamName = c.streamName

theorem create_new (appname playpath tcurl : List UInt8) (publish : Nat) (app : γ) :
    (RtmpClientT.create appname playpath tcurl publish app).New := by
  have hflashver : (snprintfInto 32 (asciiBytes "LNX 9,0,124,2")).length < 32 :=
    Nat.lt_of_le_of_lt (length_snprintfInto_le 32 _) (by decide)
  have hconnect : (RtmpClientT.create appname playpath tcurl publish app).connect.Fits :=
    { app := Nat.lt_of_le_of_lt (length_snprintfInto_le 128 appname) (by decide)
      tcUrl := Nat.lt_of_le_of_lt (length_snprintfInto_le 256 tcurl) (by decide)
      others := ⟨Nat.lt_trans hflashver (by decide), Nat.zero_lt_succ _, Nat.zero_lt_succ _⟩
      doubles := ⟨length_doubleBytes 15, length_doubleBytes 3191, length_doubleBytes 252,
        length_doubleBytes 1, length_doubleBytes 0⟩ }
  exact
    { sent := rfl
      state := rfl
      streamId := rfl
      connect := hconnect
      payload := length_connectArgs_le hconnect hflashver (Nat.zero_lt_succ _) (Nat.zero_lt_succ _)
      encoding := rfl
      streamName := Nat.lt_of_le_of_lt (length_snprintfInto_le 256 playpath) (by decide)
      strings := ⟨cStr_snprintfInto .., cStr_snprintfInto .., cStr_snprintfInto ..⟩ }

end SeastarLive
