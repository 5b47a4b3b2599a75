/-
SeastarLive.Http1.HlsFile — the handler of HLS files.

`hls_file_route_handler::handle` and the two `read_file` of
`src/server/http1/route_handler.cc`, with `extension_to_mime_type` of
`src/util/enums.cc` and `is_true` of `src/util/util.cc`. The file system is a
parameter: `stat` tells whether the path names something. A reply that sends a
file opens it when its body is written.
-/
import SeastarLive.Util.FilePath

namespace SeastarLive

open LexicalPath

/-- The tests of `extension_to_mime_type`, in order. -/
def mimeTypes : List (String × String) :=
  [(".m3u8", "application/vnd.apple.mpegurl"),
   (".m4s", "video/iso.segment"),
   (".ts", "video/mp2t"),
   (".flv", "flv-application/octet-stream"),
   (".bin", "flv-application/octet-stream"),
   (".dat", "flv-application/octet-stream"),
   (".json", "application/json"),
   (".txt", "text/plain"),
   (".htm", "text/html"),
   (".html", "text/html"),
   (".css", "text/css"),
   (".js", "text/javascript"),
   (".gif", "image/gif"),
   (".jpeg", "image/jpeg"),
   (".png", "image/png"),
   (".ico", "image/x-icon"),
   (".svg", "image/svg+xml"),
   (".p8", "application/pkcs8"),
   (".key", "application/pkcs8"),
   (".p10", "application/pkcs10"),
   (".csr", "application/pkcs10"),
   (".cer", "application/pkix-cert"),
   (".crl", "application/pkix-crl"),
   (".p7c", "application/pkcs7-mime"),
   (".p8", "application/pkcs8"),
   (".crt", "application/x-x509-ca-cert"),
   (".der", "application/x-x509-ca-cert"),
   (".crl", "application/application/x-pkcs7-crl"),
   (".pem", "application/x-pem-file"),
   (".p12", "application/x-pkcs12"),
   (".pfx", "application/x-pkcs12"),
   (".p7b", "application/x-pkcs7-certificates"),
   (".spc", "application/x-pkcs7-certificates"),
   (".p7r", "application/x-pkcs7-certreqresp"),
   (".aac", "audio/aac"),
   (".abw", "application/x-abiword"),
   (".arc", "application/x-freearc"),
   (".avif", "image/avif"),
   (".avi", "video/x-msvideo"),
   (".azw", "application/vnd.amazon.ebook"),
   (".bin", "application/octet-stream"),
   (".bmp", "image/bmp"),
   (".bz", "application/x-bzip"),
   (".bz2", "application/x-bzip2"),
   (".cda", "application/x-cdf"),
   (".csh", "application/x-csh"),
   (".css", "text/css"),
   (".csv", "text/csv"),
   (".doc", "application/msword"),
   (".docx", "application/vnd.openxmlformats-officedocument.wordprocessingml.document"),
   (".eot", "application/vnd.ms-fontobject"),
   (".epub", "application/epub+zip"),
   (".gz", "application/gzip"),
   (".gif", "image/gif"),
   (".htm", "text/html"),
   (".ico", "image/vnd.microsoft.icon"),
   (".ics", "text/calendar"),
   (".jar", "application/java-archive"),
   (".jpeg", "image/jpeg"),
   (".js", "text/javascript"),
   (".json", "application/json"),
   (".jsonld", "application/ld+json"),
   (".mid", "audio/midi"),
   (".mjs", "text/javascript"),
   (".mp3", "audio/mpeg"),
   (".mp4", "video/mp4"),
   (".mpeg", "video/mpeg"),
   (".mpkg", "application/vnd.apple.installer+xml"),
   (".odp", "application/vnd.oasis.opendocument.presentation"),
   (".ods", "application/vnd.oasis.opendocument.spreadsheet"),
   (".odt", "application/vnd.oasis.opendocument.text"),
   (".oga", "audio/ogg"),
   (".ogv", "video/ogg"),
   (".ogx", "application/ogg"),
   (".opus", "audio/opus"),
   (".otf", "font/otf"),
   (".png", "image/png"),
   (".pdf", "application/pdf"),
   (".php", "application/x-httpd-php"),
   (".ppt", "application/vnd.ms-powerpoint"),
   (".pptx", "application/vnd.openxmlformats-officedocument.presentationml.presentation"),
   (".rar", "application/vnd.rar"),
   (".rtf", "application/rtf"),
   (".sh", "application/x-sh"),
   (".svg", "image/svg+xml"),
   (".tar", "application/x-tar"),
   (".tif", "image/tiff"),
   (".ts", "video/mp2t"),
   (".ttf", "font/ttf"),
   (".txt", "text/plain"),
   (".vsd", "application/vnd.visio"),
   (".wav", "audio/wav"),
   (".weba", "audio/webm"),
   (".webm", "video/webm"),
   (".webp", "image/webp"),
   (".woff", "font/woff"),
   (".woff2", "font/woff2"),
   (".xhtml", "application/xhtml+xml"),
   (".xls", "application/vnd.ms-excel"),
   (".xlsx", "application/vnd.openxmlformats-officedocument.spreadsheetml.sheet"),
   (".xml", "application/xml"),
   (".xul", "application/vnd.mozilla.xul+xml"),
   (".zip", "application/zip"),
   (".3gp", "video/3gpp"),
   (".3g2", "video/3gpp2"),
   (".7z", "application/x-7z-compressed"),
   (".yaml", "text/vnd.yaml")]

/-- `extension_to_mime_type`. -/
def extensionToMimeType (extension : List Char) : List Char :=
  ((mimeTypes.lookup (String.ofList extension)).getD "").toList

/-- `tolower`. -/
def toLower (c : Char) : Char :=
  if 'A' ≤ c ∧ c ≤ 'Z' then Char.ofNat (c.toNat + 32) else c

/-- `is_true`. -/
def isTrue (value : List Char) : Bool :=
  let low := value.map toLower
  value == ['1'] || low == "true".toList || low == "yes".toList || low == "on".toList
    || low == "ok".toList

/-- `http::request`: the path parameters, and the query parameters, empty if absent. -/
structure HlsRequest where
  appName : List Char
  streamName : List Char
  filename : List Char
  queryParam : List Char → List Char := fun _ => []

/-- The reply of the handler. -/
inductive HlsReply
  | notAcceptable (content : List Char)
  | notFound (content : List Char)
  | file (filepath mimeType : List Char)
deriving DecidableEq

/-- The two `read_file`. -/
def readFile (stat : List Char → Bool) (filepath : List Char) : HlsReply :=
  if (extension filepath).length ≤ 1 then .notFound "no extension is provided".toList
  else if extensionToMimeType (extension filepath) = [] then
    .notFound ("file extension: ".toList ++ extension filepath ++ " is unsupported".toList)
  else if !stat filepath then .notFound "file not found".toList
  else .file filepath (extensionToMimeType (extension filepath))

/-- The file name that `handle` asks for. -/
def servedName (req : HlsRequest) : List Char :=
  let isM3u8File := extension req.filename == ".m3u8".toList
  let isTsRequest := isTrue (req.queryParam "hls_ts".toList)
    || extension req.filename == ".ts".toList || stem req.filename == "ts_index".toList
  if isM3u8File && isTsRequest then "ts_index.m3u8".toList else req.filename

/-- `hls_file_route_handler::handle`. -/
def hlsFileHandle (tsDirectory : List Char) (stat : List Char → Bool) (req : HlsRequest) :
    HlsReply :=
  if req.appName = [] then .notAcceptable "no stream app provided".toList
  else if req.streamName = [] then .notAcceptable "no session name provided".toList
  else if req.filename = [] then .notAcceptable "no file name provided".toList
  else
    readFile stat (tsDirectory ++ '/' :: (req.appName ++ '/' :: (req.streamName
      ++ '/' :: servedName req)))

/-- Whatever file the handler opens lies strictly beneath its directory. -/
def HlsConfined (tsDirectory : List Char) (req : HlsRequest) : Prop :=
  ∀ stat filepath mimeType, hlsFileHandle tsDirectory stat req = .file filepath mimeType →
    Normal.Beneath (lexical (tsDirectory ++ ['/'])) (lexical filepath)

end SeastarLive
