/-
SeastarLive.Rtmp.Publish — from a publish command to the directory it clears.

`connection::on_publish` of `src/rtmp/rtmp.cc`, the first test of
`publish_stream_route_handler::handle` of `src/server/rtmp/route_handler.cc`,
and the path that `create_tracers` of `src/session/hls/play_session_v3.cc`
builds and `do_start` hands to `init_directory`, which removes what is there.
-/
import SeastarLive.Util.CxxUrl
import SeastarLive.Util.FilePath

namespace SeastarLive

open LexicalPath

/-- The arguments of a request, a map from keys to values. -/
abbrev Arguments := List (List Char × List Char)

/-- `args[key] = val` for each pair of a query, in order. -/
def setArgs (args : Arguments) (query : List (List Char × List Char)) : Arguments :=
  query.foldl (fun args kv => kv :: args.filter fun arg => arg.1 != kv.1) args

/-- `request`. -/
structure PublishRequest where
  appName : List Char
  streamName : List Char
  tcurl : List Char
  args : Arguments
deriving DecidableEq

/-- `deprecated_stream_name_key`. -/
def deprecatedStreamNameKey : List Char := "streamname".toList

/-- The URL that `on_publish` makes from the two names of the command. -/
def publishUrl (app stream : List Char) : List Char :=
  "rtmp://x.y/".toList ++ app
    ++ if stream = [] then [] else if stream.head? = some '?' then stream else '/' :: stream

/-- `on_publish`: the request, or nothing where it returns -1. -/
def onPublish (app stream tcurl : List Char) : Except UrlError (Option PublishRequest) := do
  let url ← Url.parse tcurl
  let args := setArgs [] url.query
  let url ← Url.parse (publishUrl app stream)
  let args := setArgs args url.query
  match url.path.splitOn '/' with
  | [_, appName] =>
      match args.lookup deprecatedStreamNameKey with
      | none => .ok none
      | some streamName =>
          let args := args.filter fun arg => arg.1 != deprecatedStreamNameKey
          .ok (some { appName, streamName, tcurl, args })
  | [_, appName, streamName] => .ok (some { appName, streamName, tcurl, args })
  | _ => .ok none

/-- The test for which `handle` answers `not_found`. -/
def PublishRequest.notFound (req : PublishRequest) : Bool :=
  req.appName.isEmpty || req.streamName.isEmpty

/-- The path that `create_tracers` builds. -/
def hlsDirectory (base app stream : List Char) : List Char :=
  base ++ '/' :: (app ++ '/' :: stream)

/-- Whatever directory a publish command makes the server clear lies strictly beneath the
    base directory. -/
def PublishConfined (base app stream tcurl : List Char) : Prop :=
  ∀ req, onPublish app stream tcurl = .ok (some req) → req.notFound = false →
    Normal.Beneath (lexical (base ++ ['/']))
      (lexical (hlsDirectory base req.appName req.streamName))

end SeastarLive
