/-
SeastarLive.Rtmp.InvokeHandler — commands, as they are written and as they are handled.

The commands of `rtmp-netconnection.c` and `rtmp-netstream.c` that the two sides send, and
`rtmp_invoke_handler` with the handlers of `rtmp-invoke-handler.c` and
`rtmp-client-invoke-handler.h`, all of `3rd/librtmp`.

* A handler that could not read its arguments calls back with -1, and every callback returns
  that at once.
* `rtmp_command_onstatus` reads into a struct that it does not clear: what is on the stack is a
  parameter.
* The strings are those of C: they end in front of the first zero byte.
-/
import SeastarLive.Flv.MetadataLoad
import SeastarLive.Rtmp.Command

namespace SeastarLive

open Flv (AmfSlot AmfObjectItem)

/-! ## Doubles -/

/-- The bytes of a whole number below 2^53, as a `double`. -/
def doubleBytes (n : Int) : List UInt8 :=
  beBytes 8 ((if n < 0 then 9223372036854775808 else 0) + doubleBits n.natAbs)

/-- The value in the bytes of a `double`. -/
def doubleValue (bytes : List UInt8) : Double := .ofBits (beValue bytes)

/-- `(uint32_t)x`. -/
def doubleToUInt32 (bytes : List UInt8) : Nat := Flv.toUInt32 (doubleValue bytes)

/-! ## Strings -/

/-- The C string in a buffer. -/
def cStr (bytes : List UInt8) : List UInt8 := bytes.takeWhile (· != 0)

/-- `strcmp` with a literal. -/
def strEq (s : List UInt8) (literal : String) : Bool := cStr s == asciiBytes literal

def lowerByte (b : UInt8) : UInt8 := if 65 ≤ b ∧ b ≤ 90 then b + 32 else b

/-- `strcasecmp` with a literal. -/
def strCaseEq (s : List UInt8) (literal : String) : Bool :=
  (cStr s).map lowerByte == (asciiBytes literal).map lowerByte

/-! ## Commands -/

/-- `rtmp_connect_t`; the numbers are doubles. -/
structure RtmpConnect where
  app : List UInt8 := []
  flashver : List UInt8 := []
  swfUrl : List UInt8 := []
  tcUrl : List UInt8 := []
  fpad : UInt8 := 0
  capabilities : List UInt8 := doubleBytes 0
  audioCodecs : List UInt8 := doubleBytes 0
  videoCodecs : List UInt8 := doubleBytes 0
  videoFunction : List UInt8 := doubleBytes 0
  encoding : List UInt8 := doubleBytes 0
  pageUrl : List UInt8 := []
deriving DecidableEq

namespace AmfArg

abbrev text (s : String) : AmfArg := .scalar (.string (asciiBytes s))

abbrev string (s : List UInt8) : AmfArg := .scalar (.string s)

abbrev double (bytes : List UInt8) : AmfArg := .scalar (.double bytes)

abbrev boolean (b : Bool) : AmfArg := .scalar (.boolean b)

end AmfArg

open AmfArg

/-- A property that is written unless it is empty. -/
def optionalProp (name : String) (s : List UInt8) : List (String × AmfScalar) :=
  if s = [] then [] else [(name, .string s)]

/-- The object of a connect command. -/
def connectObject (c : RtmpConnect) : List (String × AmfScalar) :=
  [("app", .string c.app), ("flashVer", .string c.flashver)]
    ++ optionalProp "tcUrl" c.tcUrl ++ optionalProp "swfUrl" c.swfUrl
    ++ optionalProp "pageUrl" c.pageUrl
    ++ [("fpad", .boolean (c.fpad != 0)), ("capabilities", .double c.capabilities),
      ("audioCodecs", .double c.audioCodecs), ("videoCodecs", .double c.videoCodecs),
      ("videoFunction", .double c.videoFunction), ("objectEncoding", .double c.encoding)]

/-- `rtmp_netconnection_connect`. -/
def connectArgs (transaction : List UInt8) (c : RtmpConnect) : List AmfArg :=
  [text "connect", double transaction, object (connectObject c)]

/-- The information object of a reply. -/
def statusProps (level code description : String) : List (String × AmfScalar) :=
  [("level", .string (asciiBytes level)), ("code", .string (asciiBytes code)),
    ("description", .string (asciiBytes description))]

/-- `rtmp_netconnection_connect_reply`. -/
def connectReplyArgs (transaction : List UInt8) (fmsver : String) (capabilities : List UInt8)
    (code level description : String) (encoding : List UInt8) : List AmfArg :=
  [text "_result", double transaction,
    object [("fmsVer", .string (asciiBytes fmsver)), ("capabilities", .double capabilities)],
    object (statusProps level code description ++ [("objectEncoding", .double encoding)])]

/-- `rtmp_netconnection_create_stream`. -/
def createStreamArgs (transaction : List UInt8) : List AmfArg :=
  [text "createStream", double transaction, null]

/-- `rtmp_netconnection_create_stream_reply` and `rtmp_netconnection_get_stream_length_reply`. -/
def numberReplyArgs (transaction number : List UInt8) : List AmfArg :=
  [text "_result", double transaction, null, double number]

/-- The commands with a stream name only: `rtmp_netstream_release_stream`,
    `rtmp_netstream_fcpublish`, `rtmp_netstream_fcunpublish` and
    `rtmp_netconnection_get_stream_length`. -/
def streamNameArgs (command : String) (transaction streamName : List UInt8) : List AmfArg :=
  [text command, double transaction, null, string streamName]

/-- `rtmp_netstream_play`. -/
def playArgs (transaction name start duration : List UInt8) (reset : Bool) : List AmfArg :=
  [text "play", double transaction, null, string name, double start, double duration,
    boolean reset]

/-- `rtmp_netstream_delete_stream`. -/
def deleteStreamArgs (transaction streamId : List UInt8) : List AmfArg :=
  [text "deleteStream", double transaction, null, double streamId]

/-- `rtmp_netstream_publish`. -/
def publishArgs (transaction streamName : List UInt8) (streamType : String) : List AmfArg :=
  [text "publish", double transaction, null, string streamName, text streamType]

/-- `rtmp_netstream_seek`. -/
def seekArgs (transaction ms : List UInt8) : List AmfArg :=
  [text "seek", double transaction, null, double ms]

/-- `rtmp_netstream_pause`. -/
def pauseArgs (transaction : List UInt8) (pause : Bool) (ms : List UInt8) : List AmfArg :=
  [text "pause", double transaction, null, boolean pause, double ms]

/-- `rtmp_netstream_onstatus`. -/
def onstatusArgs (transaction : List UInt8) (level code description : String) : List AmfArg :=
  [text "onStatus", double transaction, null, object (statusProps level code description)]

/-- `rtmp_netstream_rtmpsampleaccess`. -/
def rtmpSampleAccessArgs : List AmfArg := [text "|RtmpSampleAccess", boolean true, boolean true]

/-! ## The commands at the end of a connection

`Rtmp/StopOnce` writes each of its commands field by field. They are commands as above. -/

theorem amfWriteDouble_eq (n : Nat) : amfWriteDouble n = (double (doubleBytes n)).bytes := by
  have hbytes : doubleBytes n = beBytes 4 (doubleBits n / 4294967296)
      ++ beBytes 4 (doubleBits n % 4294967296) := by
    have hsign : ¬ (n : Int) < 0 := by omega
    rw [doubleBytes, if_neg hsign, Nat.zero_add, Int.natAbs_natCast]
    exact beBytes_add 4 4 _
  rw [amfWriteDouble, beWriteUint32_eq, beWriteUint32_eq, ← hbytes]
  rfl

/-- A string of a metadata tag is written like one of a command. -/
theorem amfWriteString16_chars (s : List Char) :
    Flv.amfWriteString16 s = amfWriteString16 (s.map fun c => UInt8.ofNat c.toNat) := by
  rw [Flv.amfWriteString16, amfWriteString16, List.length_map]

theorem amfWriteString_eq {s : List UInt8} (hs : s.length < 65536) :
    amfWriteString s = (string s).bytes := if_pos hs

theorem netstreamOnstatus_eq (transaction : Nat) {level code description : String}
    (hlevel : (asciiBytes level).length < 65536) (hcode : (asciiBytes code).length < 65536)
    (hdescription : (asciiBytes description).length < 65536) :
    netstreamOnstatus transaction (asciiBytes level) (asciiBytes code) (asciiBytes description)
      = argsBytes (onstatusArgs (doubleBytes transaction) level code description) := by
  have hprops : ∀ (name value : String), (asciiBytes value).length < 65536 →
      amfWriteNamedString (asciiBytes name) (asciiBytes value)
        = propBytes (name, .string (asciiBytes value)) := by
    intro name value hvalue
    rw [amfWriteNamedString, amfWriteString_eq hvalue]
    rfl
  rw [netstreamOnstatus, amfWriteDouble_eq, hprops "level" level hlevel, hprops "code" code hcode,
    hprops "description" description hdescription]
  have hobject : (object (statusProps level code description)).bytes
      = 3 :: (propBytes ("level", .string (asciiBytes level))
        ++ (propBytes ("code", .string (asciiBytes code))
        ++ (propBytes ("description", .string (asciiBytes description)) ++ [0, 0, 9]))) := by
    rw [AmfArg.bytes, AmfArg.payload, statusProps]
    simp only [List.flatMap_cons, List.flatMap_nil, List.append_nil, List.append_assoc]
    rfl
  simp only [argsBytes, onstatusArgs, List.flatMap_cons, List.flatMap_nil, List.append_nil,
    List.append_assoc, hobject]
  rfl

theorem netstreamFcunpublish_eq (transaction : Nat) {name : List UInt8}
    (hname : name.length < 65536) : netstreamFcunpublish transaction name
      = argsBytes (streamNameArgs "FCUnpublish" (doubleBytes transaction) name) := by
  rw [netstreamFcunpublish, amfWriteDouble_eq, amfWriteString_eq hname]
  simp only [argsBytes, streamNameArgs, List.flatMap_cons, List.flatMap_nil, List.append_nil,
    List.append_assoc]
  rfl

theorem netstreamDeleteStream_eq (transaction streamId : Nat) :
    netstreamDeleteStream transaction streamId
      = argsBytes (deleteStreamArgs (doubleBytes transaction) (doubleBytes streamId)) := by
  rw [netstreamDeleteStream, amfWriteDouble_eq, amfWriteDouble_eq]
  simp only [argsBytes, deleteStreamArgs, List.flatMap_cons, List.flatMap_nil, List.append_nil,
    List.append_assoc]
  rfl

/-! ## Callbacks -/

/-- `rtmp_t::server`; a callback returns 0, or what is not 0. -/
structure ServerCallbacks (α : Type) where
  onconnect : List UInt8 → RtmpConnect → α → Except Int α
  oncreateStream : List UInt8 → α → Except Int α
  onplay : List UInt8 → List UInt8 → List UInt8 → List UInt8 → UInt8 → α → Except Int α
  ondeleteStream : List UInt8 → List UInt8 → α → Except Int α
  onreceiveAudio : List UInt8 → UInt8 → α → Except Int α
  onreceiveVideo : List UInt8 → UInt8 → α → Except Int α
  onpublish : List UInt8 → List UInt8 → List UInt8 → α → Except Int α
  onseek : List UInt8 → List UInt8 → α → Except Int α
  onpause : List UInt8 → UInt8 → List UInt8 → α → Except Int α
  ongetStreamLength : List UInt8 → List UInt8 → α → Except Int α

/-- `rtmp_notify_t`. -/
inductive RtmpNotify
  | start
  | stop
  | pause
  | seek
deriving DecidableEq

/-- `rtmp_t::client`; what `onnotify` returns is dropped. -/
structure ClientCallbacks (α : Type) where
  onconnect : α → Except Int α
  oncreateStream : List UInt8 → α → Except Int α
  onnotify : RtmpNotify → α → α

/-- `rtmp_result_t`. -/
structure RtmpResult where
  code : List UInt8
  level : List UInt8
  description : List UInt8
deriving DecidableEq

/-- What the handlers of the commands work with. The side that a connection is not has no
    callbacks. -/
structure InvokeHandlers (α : Type) where
  server : Option (ServerCallbacks α) := none
  client : Option (ClientCallbacks α) := none
  stack : RtmpResult

/-! ## Tables -/

section Handlers

variable {α : Type}

/-- `AMF_OBJECT_ITEM_VALUE(_, AMF_OBJECT, "command", NULL, 0)`. -/
def commandParam {σ : Type} : AmfParam σ := { type := Flv.amfObject }

def stringParam {σ : Type} (size : Nat) (store : List UInt8 → σ → σ) : AmfParam σ :=
  { type := Flv.amfString, slot := .string size store }

def numberParam {σ : Type} (store : List UInt8 → σ → σ) : AmfParam σ :=
  { type := Flv.amfNumber, slot := .number store }

def booleanParam {σ : Type} (store : UInt8 → σ → σ) : AmfParam σ :=
  { type := Flv.amfBoolean, slot := .boolean store }

/-- Read the arguments, and call back. -/
def withParams {σ : Type} (params : List (AmfParam σ)) (values : σ) (data : List UInt8)
    (failure : Int) (call : σ → Except Int α) : Except Int α :=
  match amfReadParams params values data with
  | .done values _ => call values
  | _ => .error failure

/-- `commands` of `rtmp_command_onconnect`. -/
def connectProps : List (AmfObjectItem RtmpConnect) :=
  [⟨Flv.amfString, "app", .string 128 fun s c => { c with app := s }⟩,
    ⟨Flv.amfString, "flashver", .string 32 fun s c => { c with flashver := s }⟩,
    ⟨Flv.amfString, "tcUrl", .string 256 fun s c => { c with tcUrl := s }⟩,
    ⟨Flv.amfBoolean, "fpad", .boolean fun b c => { c with fpad := b }⟩,
    ⟨Flv.amfNumber, "audioCodecs", .number fun x c => { c with audioCodecs := x }⟩,
    ⟨Flv.amfNumber, "videoCodecs", .number fun x c => { c with videoCodecs := x }⟩,
    ⟨Flv.amfNumber, "videoFunction", .number fun x c => { c with videoFunction := x }⟩,
    ⟨Flv.amfNumber, "objectEncoding", .number fun x c => { c with encoding := x }⟩]

/-- `info` of the handlers of a client. -/
def resultProps : List (AmfObjectItem RtmpResult) :=
  [⟨Flv.amfString, "code", .string 64 fun s r => { r with code := s }⟩,
    ⟨Flv.amfString, "level", .string 8 fun s r => { r with level := s }⟩,
    ⟨Flv.amfString, "description", .string 256 fun s r => { r with description := s }⟩]

def resultParam : AmfParam RtmpResult := { type := Flv.amfObject, props := resultProps }

/-- The local variables of the handlers of a server. -/
structure CommandValues where
  name : List UInt8 := []
  type : List UInt8 := []
  number : List UInt8 := doubleBytes 0
  duration : List UInt8 := doubleBytes 0
  flag : UInt8 := 0

def nameParam (size : Nat) : AmfParam CommandValues :=
  stringParam size fun s v => { v with name := s }

def valueParam : AmfParam CommandValues := numberParam fun x v => { v with number := x }

def flagParam : AmfParam CommandValues := booleanParam fun b v => { v with flag := b }

/-- `N_STREAM_NAME`. -/
def streamNameSize : Nat := 2048

/-! ## The side of a server -/

/-- A handler of a server; without its callback it returns -1. -/
def serverCommand {σ : Type} (h : InvokeHandlers α) (params : List (AmfParam σ)) (values : σ)
    (data : List UInt8) (call : ServerCallbacks α → σ → α → Except Int α) (app : α) :
    Except Int α :=
  match h.server with
  | none => .error (-1)
  | some cb => withParams params values data (-1) fun values => call cb values app

/-- `rtmp_command_onconnect`. -/
def rtmpCommandOnconnect (h : InvokeHandlers α) (transaction data : List UInt8) :
    α → Except Int α :=
  serverCommand h [{ type := Flv.amfObject, props := connectProps }] {} data
    fun cb c => cb.onconnect transaction c

/-- `rtmp_command_oncreate_stream`. -/
def rtmpCommandOncreateStream (h : InvokeHandlers α) (transaction data : List UInt8) :
    α → Except Int α :=
  serverCommand h [commandParam] () data fun cb _ => cb.oncreateStream transaction

/-- `rtmp_command_onplay`; `reset` stays 0. -/
def rtmpCommandOnplay (h : InvokeHandlers α) (transaction data : List UInt8) : α → Except Int α :=
  serverCommand h [commandParam, nameParam streamNameSize, valueParam,
      numberParam fun x v => { v with duration := x }]
    { number := doubleBytes (-2), duration := doubleBytes (-1) } data
    fun cb v => cb.onplay transaction v.name v.number v.duration 0

/-- `rtmp_command_ondelete_stream`. -/
def rtmpCommandOndeleteStream (h : InvokeHandlers α) (transaction data : List UInt8) :
    α → Except Int α :=
  serverCommand h [commandParam, valueParam] {} data
    fun cb v => cb.ondeleteStream transaction v.number

/-- `rtmp_command_onreceive_audio`. -/
def rtmpCommandOnreceiveAudio (h : InvokeHandlers α) (transaction data : List UInt8) :
    α → Except Int α :=
  serverCommand h [commandParam, flagParam] { flag := 1 } data
    fun cb v => cb.onreceiveAudio transaction v.flag

/-- `rtmp_command_onreceive_video`. -/
def rtmpCommandOnreceiveVideo (h : InvokeHandlers α) (transaction data : List UInt8) :
    α → Except Int α :=
  serverCommand h [commandParam, flagParam] { flag := 1 } data
    fun cb v => cb.onreceiveVideo transaction v.flag

/-- `rtmp_command_onpublish`. -/
def rtmpCommandOnpublish (h : InvokeHandlers α) (transaction data : List UInt8) :
    α → Except Int α :=
  serverCommand h [commandParam, nameParam streamNameSize,
      stringParam 18 fun s v => { v with type := s }] {} data
    fun cb v => cb.onpublish transaction v.name v.type

/-- `rtmp_command_onseek`. -/
def rtmpCommandOnseek (h : InvokeHandlers α) (transaction data : List UInt8) : α → Except Int α :=
  serverCommand h [commandParam, valueParam] {} data fun cb v => cb.onseek transaction v.number

/-- `rtmp_command_onpause`. -/
def rtmpCommandOnpause (h : InvokeHandlers α) (transaction data : List UInt8) : α → Except Int α :=
  serverCommand h [commandParam, flagParam, valueParam] {} data
    fun cb v => cb.onpause transaction v.flag v.number

/-- `rtmp_command_onget_stream_length`, with the two items of its table that are set. -/
def rtmpCommandOngetStreamLength (h : InvokeHandlers α) (transaction data : List UInt8) :
    α → Except Int α :=
  serverCommand h [commandParam, nameParam streamNameSize] {} data
    fun cb v => cb.ongetStreamLength transaction v.name

/-! ## The side of a client -/

/-- `rtmp_command_onresult`; the replies to other commands are not looked at. -/
def rtmpCommandOnresult (h : InvokeHandlers α) (transaction data : List UInt8) (app : α) :
    Except Int α :=
  match doubleToUInt32 transaction with
  | 1 =>
      withParams [{ type := Flv.amfObject }, resultParam] h.stack data (-22) fun _ =>
        match h.client with
        | none => .error (-1)
        | some cb => cb.onconnect app
  | 2 =>
      withParams [commandParam, valueParam] {} data (-22) fun v =>
        match h.client with
        | none => .error (-1)
        | some cb => cb.oncreateStream v.number app
  | 3 => withParams [commandParam, valueParam] {} data (-22) fun _ => .ok app
  | _ => .ok app

/-- `rtmp_command_onerror`. -/
def rtmpCommandOnerror (h : InvokeHandlers α) (_transaction data : List UInt8) (_app : α) :
    Except Int α :=
  withParams [commandParam, resultParam] h.stack data (-22) fun _ => .error (-1)

/-- What a status is to the client. -/
inductive StatusMeaning
  | notify (n : RtmpNotify)
  | nothing
  | failure

/-- The codes that `rtmp_command_onstatus` compares with, in their order. -/
def statusCodes : List (String × StatusMeaning) :=
  [("NetStream.Play.Start", .notify .start), ("NetStream.Record.Start", .notify .start),
    ("NetStream.Publish.Start", .notify .start), ("NetStream.Seek.Notify", .notify .seek),
    ("NetStream.Pause.Notify", .notify .pause), ("NetStream.Unpause.Notify", .notify .start),
    ("NetStream.Play.Reset", .nothing), ("NetStream.Play.Stop", .notify .stop),
    ("NetStream.Record.Stop", .notify .stop), ("NetStream.Play.Complete", .notify .stop),
    ("NetStream.Play.PublishNotify", .nothing), ("NetStream.Play.UnpublishNotify", .nothing),
    ("NetConnection.Connect.InvalidApp", .failure),
    ("NetConnection.Connect.Rejected", .failure),
    ("NetStream.Connect.IllegalApplication", .failure),
    ("NetStream.Publish.AlreadyExistStream", .failure), ("NetStream.Failed", .failure),
    ("NetStream.Play.Failed", .failure), ("NetStream.Play.StreamNotFound", .failure)]

/-- `rtmp_command_onstatus` with the result that it read. -/
def onResult (h : InvokeHandlers α) (result : RtmpResult) (app : α) : Except Int α :=
  if strEq result.level "error" then .error (-1)
  else
    match statusCodes.find? fun c => strCaseEq result.code c.1 with
    | some (_, .notify n) =>
        .ok (match h.client with
          | none => app
          | some cb => cb.onnotify n app)
    | some (_, .nothing) => .ok app
    | some (_, .failure) => .error (-1)
    | none => .error (-1)

/-- `rtmp_command_onstatus`. -/
def rtmpCommandOnstatus (h : InvokeHandlers α) (_transaction data : List UInt8) (app : α) :
    Except Int α :=
  withParams [commandParam, resultParam] h.stack data (-22) fun result => onResult h result app

/-! ## The table of commands -/

/-- `s_command_handler`. -/
def commandHandlers :
    List (String × (InvokeHandlers α → List UInt8 → List UInt8 → α → Except Int α)) :=
  [("_result", rtmpCommandOnresult), ("_error", rtmpCommandOnerror),
    ("onStatus", rtmpCommandOnstatus), ("connect", rtmpCommandOnconnect),
    ("createStream", rtmpCommandOncreateStream), ("play", rtmpCommandOnplay),
    ("deleteStream", rtmpCommandOndeleteStream), ("receiveAudio", rtmpCommandOnreceiveAudio),
    ("receiveVideo", rtmpCommandOnreceiveVideo), ("publish", rtmpCommandOnpublish),
    ("seek", rtmpCommandOnseek), ("pause", rtmpCommandOnpause),
    ("getStreamLength", rtmpCommandOngetStreamLength)]

/-- `command` and `transaction` of `rtmp_invoke_handler`. -/
structure InvokeValues where
  command : List UInt8 := []
  transaction : List UInt8 := doubleBytes (-1)

def invokeParams : List (AmfParam InvokeValues) :=
  [stringParam 64 fun s v => { v with command := s },
    numberParam fun x v => { v with transaction := x }]

/-- `rtmp_invoke_handler`. -/
def rtmpInvokeHandler (h : InvokeHandlers α) (data : List UInt8) (app : α) : Except Int α :=
  match amfReadParams invokeParams {} data with
  | .done v rest =>
      if doubleValue v.transaction = .number (-1) then .ok app
      else
        match commandHandlers.find? fun c => strEq v.command c.1 with
        | none => .ok app
        | some c => c.2 h v.transaction rest app
  | _ => .error (-22)

theorem find?_fst {τ : Type} (p : String → Bool) (l : List (String × τ)) :
    l.find? (fun c => p c.1) = l[(l.map Prod.fst).findIdx p]? := by
  induction l with
  | nil => rfl
  | cons c l ih =>
      rw [List.map_cons, List.findIdx_cons]
      cases hp : p c.1 with
      | true => simp [hp]
      | false => simp [hp, ih]

/-- The names of the table, which do not depend on the side. -/
def commandNames : List String :=
  (commandHandlers : List (String × (InvokeHandlers Unit → List UInt8 → List UInt8 → Unit →
    Except Int Unit))).map Prod.fst

/-- The handler of a command, by its place in the table. -/
theorem commandHandler_eq {command : String} {i : Nat}
    (hi : commandNames.findIdx (strEq (asciiBytes command)) = i) :
    (commandHandlers (α := α)).find? (fun c => strEq (asciiBytes command) c.1)
      = commandHandlers[i]? := by
  rw [find?_fst, ← hi]
  rfl

/-! ## Handlers on arguments -/

/-- The handlers read arguments as their tables say. -/
theorem withParams_args {σ : Type} (params : List (AmfParam σ)) (values : σ) {args : List AmfArg}
    (hargs : ∀ arg ∈ args, arg.Fits) (failure : Int) (call : σ → Except Int α) :
    withParams params values (argsBytes args) failure call
      = match storeArgs params values args with
        | some (values, _) => call values
        | none => .error failure := by
  unfold withParams
  rw [amfReadParams_args params hargs]
  cases storeArgs params values args <;> rfl

theorem storeArgs_cons {σ : Type} {param : AmfParam σ} {arg : AmfArg}
    (htype : Flv.amfReadItemTypeCheck arg.type param.type = true) (params : List (AmfParam σ))
    (values : σ) (args : List AmfArg) :
    storeArgs (param :: params) values (arg :: args)
      = storeArgs params (param.put values arg) args :=
  if_pos htype

section Store

variable {σ : Type} (params : List (AmfParam σ)) (values : σ) (args : List AmfArg)

/-- The command object of most commands is null, and nothing is kept of it. -/
theorem storeArgs_command :
    storeArgs (commandParam :: params) values (null :: args) = storeArgs params values args := rfl

theorem storeArgs_number (store : List UInt8 → σ → σ) (x : List UInt8) :
    storeArgs (numberParam store :: params) values (double x :: args)
      = storeArgs params (store x values) args := rfl

theorem storeArgs_string {size : Nat} (store : List UInt8 → σ → σ) {s : List UInt8}
    (hs : s.length < size) :
    storeArgs (stringParam size store :: params) values (string s :: args)
      = storeArgs params (store s values) args := by
  rw [storeArgs_cons rfl]
  exact congrArg (storeArgs params · args) (if_pos hs)

end Store

/-- A command of a server whose arguments its table takes. -/
theorem serverCommand_args {σ : Type} {h : InvokeHandlers α} (cb : ServerCallbacks α)
    (hserver : h.server = some cb) {params : List (AmfParam σ)} {values v : σ}
    {args rest : List AmfArg} (hargs : ∀ arg ∈ args, arg.Fits)
    (hstore : storeArgs params values args = some (v, rest))
    (call : ServerCallbacks α → σ → α → Except Int α) (app : α) :
    serverCommand h params values (argsBytes args) call app = call cb v app := by
  unfold serverCommand
  simp only [hserver, withParams_args params values hargs, hstore]

/-- A command goes to the handler of its name, if there is one. -/
theorem rtmpInvokeHandler_args (h : InvokeHandlers α) {command : String} {i : Nat}
    (hi : commandNames.findIdx (strEq (asciiBytes command)) = i)
    (hcommand : (asciiBytes command).length < 64) {transaction : List UInt8}
    (htransaction : transaction.length = 8) (hvalue : doubleValue transaction ≠ .number (-1))
    {args : List AmfArg} (hargs : ∀ arg ∈ args, arg.Fits) (app : α) :
    rtmpInvokeHandler h (argsBytes (text command :: double transaction :: args)) app
      = match (commandHandlers (α := α))[i]? with
        | none => .ok app
        | some c => c.2 h transaction (argsBytes args) app := by
  have hfits : ∀ arg ∈ text command :: double transaction :: args, arg.Fits := by
    intro arg harg
    rcases List.mem_cons.mp harg with rfl | harg
    · exact Nat.lt_trans hcommand (by decide)
    rcases List.mem_cons.mp harg with rfl | harg
    · exact htransaction
    · exact hargs arg harg
  have hstore : storeArgs invokeParams {} (text command :: double transaction :: args)
      = some ({ command := asciiBytes command, transaction }, args) := by
    have hput : (stringParam 64 fun s (v : InvokeValues) => { v with command := s }).put {}
        (text command) = { command := asciiBytes command } := if_pos hcommand
    show storeArgs _ ((stringParam 64 fun s (v : InvokeValues) => { v with command := s }).put {}
      (text command)) (double transaction :: args) = _
    rw [hput]
    rfl
  unfold rtmpInvokeHandler
  rw [amfReadParams_args invokeParams hfits, hstore]
  simp only [if_neg hvalue, commandHandler_eq hi]

end Handlers

end SeastarLive
