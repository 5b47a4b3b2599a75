/-
SeastarLive.Util.CxxUrl — the URL parser.

`Url::parse_url` of `src/util/CxxUrl.cc` and what it calls. Strings are lists
of characters, one for each byte. Only the path and the query of a URL are
kept; the scheme, user, host, port and fragment are checked as the parser
checks them, since each of them may throw, and not stored.

A pair of pointers into the URL is the list between them, and the exceptions
are named by `UrlError` in place of their texts.
-/
import Mathlib.Data.List.Basic

namespace SeastarLive

/-! ## Characters -/

/-- The first half of `tbl`, by rows of eight characters; the second half is zero. -/
def urlTable : List Nat :=
  [0x00, 0x00, 0x00, 0x00, 0x00, 0x00, 0x00, 0x00,
   0x00, 0x00, 0x00, 0x00, 0x00, 0x00, 0x00, 0x00,
   0x00, 0x00, 0x00, 0x00, 0x00, 0x00, 0x00, 0x00,
   0x00, 0x00, 0x00, 0x00, 0x00, 0x00, 0x00, 0x00,
   0x00, 0x01, 0x00, 0x00, 0x01, 0x20, 0x01, 0x01,
   0x01, 0x01, 0x01, 0x01, 0x01, 0x01, 0x01, 0x08,
   0x01, 0x01, 0x01, 0x01, 0x01, 0x01, 0x01, 0x01,
   0x01, 0x01, 0x04, 0x01, 0x00, 0x01, 0x00, 0x10,
   0x02, 0x01, 0x01, 0x01, 0x01, 0x01, 0x01, 0x01,
   0x01, 0x01, 0x01, 0x01, 0x01, 0x01, 0x01, 0x01,
   0x01, 0x01, 0x01, 0x01, 0x01, 0x01, 0x01, 0x01,
   0x01, 0x01, 0x01, 0x00, 0x00, 0x00, 0x00, 0x01,
   0x00, 0x01, 0x01, 0x01, 0x01, 0x01, 0x01, 0x01,
   0x01, 0x01, 0x01, 0x01, 0x01, 0x01, 0x01, 0x01,
   0x01, 0x01, 0x01, 0x01, 0x01, 0x01, 0x01, 0x01,
   0x01, 0x01, 0x01, 0x00, 0x00, 0x00, 0x01, 0x00]

/-- `is_char`. -/
def isChar (mask : Nat) (c : Char) : Bool := (urlTable.getD c.toNat 0) &&& mask != 0

/-- `is_chars`. -/
def isChars (s : List Char) (mask : Nat) : Bool := s.all (isChar mask)

/-- `get_hex_digit`. -/
def getHexDigit (c : Char) : Option Nat :=
  if '0' ≤ c ∧ c ≤ '9' then some (c.toNat - '0'.toNat)
  else if 'A' ≤ c ∧ c ≤ 'F' then some (c.toNat - 'A'.toNat + 10)
  else if 'a' ≤ c ∧ c ≤ 'f' then some (c.toNat - 'a'.toNat + 10)
  else none

/-- `is_num`. -/
def isNum (c : Char) : Bool := decide ('0' ≤ c) && decide (c ≤ '9')

/-- `is_alpha`. -/
def isAlpha (c : Char) : Bool :=
  (decide ('A' ≤ c) && decide (c ≤ 'Z')) || (decide ('a' ≤ c) && decide (c ≤ 'z'))

/-! ## Errors -/

/-- The `parse_error` exceptions of the parser. -/
inductive UrlError
  | tooLong
  | scheme
  | userInfo
  | missingBracket
  | host
  | port
  | path
  | fragment
  | queryKey
  | queryValue
  | ipv6
  | percentEncoding
deriving DecidableEq

/-- Throw unless a test holds. -/
def require (e : UrlError) (b : Bool) : Except UrlError Unit := if b then .ok () else .error e

/-! ## Parts of a URL -/

/-- The text in front of the first character of `stops`, and the text from there on. -/
def splitAt (stops : List Char) (s : List Char) : List Char × List Char :=
  s.span fun c => !stops.contains c

/-- `is_scheme`. -/
def isScheme : List Char → Bool
  | [] => false
  | c :: s => isAlpha c && s.all fun c => isAlpha c || isNum c || c == '+' || c == '-' || c == '.'

/-- `is_ipv4`. -/
def isIpv4 (s : List Char) : Bool :=
  decide (7 ≤ s.length) && decide (s.length ≤ 254) && s.all fun c => c == '.' || isNum c

/-- `is_ipv6`. -/
def isIpv6 (s : List Char) : Bool :=
  decide (2 ≤ s.length) && decide (s.length ≤ 254)
    && s.all fun c => c == ':' || c == '.' || (getHexDigit c).isSome

/-- `is_port`: a number of 32 bits that wraps around; a leading zero ends it. -/
def isPort : List Char → Bool
  | [] => false
  | c :: s =>
      isNum c &&
        if c = '0' then s.isEmpty
        else
          let val := s.foldl (fun val d => (val * 10 + (d.toNat - '0'.toNat)) % 4294967296)
            (c.toNat - '0'.toNat)
          s.all isNum && decide (val ≤ 65535)

/-- The tokens of `normalize_IPv6`: each ends with its colon, and from eight colons on
    what follows the last one belongs to the token before it. -/
def ipv6Tokens (s : List Char) : List (List Char) :=
  let parts := s.splitOn ':'
  let fields := parts.dropLast.map fun part => part ++ [':']
  let rest := parts.getLastD []
  if fields.length < 8 then fields ++ [rest]
  else fields.dropLast ++ [fields.getLastD [] ++ rest]

/-- The checks of `normalize_IPv6`. -/
def normalizeIpv6 (s : List Char) : Except UrlError Unit := do
  require .ipv6 (isIpv6 s)
  if s = [':', ':'] then .ok ()
  else do
    let s := if s.head? = some ':' then s.tail else s
    let s := if s.getLast? = some ':' then s.dropLast else s
    require .ipv6 (decide (s.count ':' < 10))
    let tokens := ipv6Tokens s
    let isIpv4 := decide (5 < (tokens.getLastD []).length)
    let tokens := if isIpv4 then tokens.dropLast else tokens
    let isNull : List Char → Bool := fun token => token.isEmpty || token.head? == some ':'
    let fields := tokens.countP fun token => !isNull token
    -- the position of the last empty field, eight if there is none
    let nullPos := (tokens.zipIdx.foldl (fun pos x => if isNull x.1 then x.2 else pos) 8)
    require .ipv6 (decide (fields ≤ 8))
    let nfields := if isIpv4 then 6 else 8
    require .ipv6 (!(decide (fields < nfields) && decide (fields < nullPos)))

/-! ## Decoding -/

/-- `decode`. -/
def urlDecode : List Char → Except UrlError (List Char)
  | [] => .ok []
  | '%' :: a :: b :: s => do
      match getHexDigit a, getHexDigit b with
      | some a, some b => do
          let o ← urlDecode s
          .ok (Char.ofNat (16 * a + b) :: o)
      | _, _ => .error .percentEncoding
  | '%' :: _ => .error .percentEncoding
  | c :: s => do
      let o ← urlDecode s
      .ok (c :: o)

/-- `decode_plus`; a plus sign never comes out of an escape before it is replaced. -/
def urlDecodePlus (s : List Char) : Except UrlError (List Char) :=
  urlDecode (s.map fun c => if c = '+' then ' ' else c)

/-- One turn of the loop of `normalize_path`. -/
def normalizeElem (elems : List (List Char)) (elem : List Char) : List (List Char) :=
  if elem = [] ∨ elem = ['.'] then elems
  else if elem = ['.', '.'] then elems.dropLast
  else elems ++ [elem]

/-- What `normalize_path` does with the text behind the last slash. -/
def normalizeLast (elems : List (List Char)) (elem : List Char) : List (List Char) :=
  if elem = ['.'] then elems ++ [[]]
  else if elem = ['.', '.'] then elems.dropLast
  else elems ++ [elem]

/-- The components that `normalize_path` joins. -/
def pathElems (s : List Char) : List (List Char) :=
  let parts := s.splitOn '/'
  normalizeLast (parts.dropLast.foldl normalizeElem []) (parts.getLastD [])

/-- `normalize_path`. -/
def normalizePath (s : List Char) : List Char :=
  if s = [] then []
  else (if s.head? = some '/' then ['/'] else []) ++ List.intercalate ['/'] (pathElems s)

/-! ## The parser -/

/-- The parts of a `Url` that are read. -/
structure Url where
  path : List Char := []
  query : List (List Char × List Char) := []
deriving DecidableEq

/-- The host, port and user of an authority; the version of an IP literal is the number
    behind its `v`, six for an IPv6 address. -/
def parseAuthority (authority : List Char) :
    Except UrlError (List Char × List Char × Option Nat) := do
  let (user, rest) := splitAt ['@'] authority
  let (user, rest) ← match rest with
    | [] => Except.ok ([], authority)
    | _ :: rest => do
        require .userInfo (isChars user 0x25)
        .ok (user, rest)
  match rest with
  | '[' :: literal => do
      let (literal, rest) := splitAt [']'] literal
      require .missingBracket (!rest.isEmpty)
      let (host, ipv) ← match literal with
        | 'v' :: d :: '.' :: host =>
            match getHexDigit d with
            | some ipv => do
                require .host (isChars host 0x05)
                Except.ok (host, ipv)
            | none => .error .host
        | 'v' :: _ => .error .host
        | _ => do
            require .host (isIpv6 literal)
            .ok (literal, 6)
      -- text behind the bracket that is no port is not looked at
      match rest with
      | _ :: ':' :: port => require .port (isPort port)
      | _ => .ok ()
      .ok (user, host, some ipv)
  | _ => do
      let (host, rest) := splitAt [':'] rest
      require .host (isIpv4 host || isChars host 0x01)
      match rest with
      | _ :: port => require .port (isPort port)
      | [] => .ok ()
      .ok (user, host, none)

/-- The key and the value of one part of a query. -/
def parseQueryPart (part : List Char) : Except UrlError (List Char × List Char) := do
  let (key, rest) := splitAt ['='] part
  require .queryKey (isChars key 0x3F)
  let key ← urlDecodePlus key
  match rest with
  | [] => .ok (key, [])
  | _ :: val => do
      require .queryValue (isChars val 0x3F)
      let val ← urlDecodePlus val
      .ok (key, val)

/-- The pairs of a query, which end at a semicolon or an ampersand. -/
def parseQuery (query : List Char) : Except UrlError (List (List Char × List Char)) :=
  if query = [] then .ok []
  else (query.splitOnP fun c => c == ';' || c == '&').mapM parseQueryPart

/-- The decoding of a host, which throws only for an IPv6 address. -/
def decodeHost (host : List Char) (ipv : Option Nat) : Except UrlError Unit := do
  let host ← urlDecode host
  if ipv = some 6 then normalizeIpv6 host else .ok ()

/-- The authority of a URL, if any, and what is behind it. -/
def takeAuthority (s : List Char) :
    Except UrlError ((List Char × List Char × Option Nat) × List Char) :=
  match s with
  | '/' :: '/' :: s => do
      let (authority, s) := splitAt ['/', '?', '#'] s
      let parsed ← parseAuthority authority
      .ok (parsed, s)
  | _ => .ok (([], [], none), s)

/-- `parse_url` behind the scheme. -/
def parseHierarchy (s : List Char) : Except UrlError Url := do
  let ((user, host, ipv), s) ← takeAuthority s
  let (path, s) := splitAt ['?', '#'] s
  require .path (isChars path 0x2F)
  let (query, s) := match s with
    | '?' :: s => splitAt ['#'] s
    | _ => ([], s)
  let fragment := s.drop 1
  require .fragment (isChars fragment 0x3F)
  let _ ← urlDecode user
  decodeHost host ipv
  let path ← urlDecode path
  let query ← parseQuery query
  let _ ← urlDecode fragment
  .ok { path := normalizePath path, query }

/-- `parse_url`. -/
def Url.parse (url : List Char) : Except UrlError Url :=
  if url = [] then .ok {}
  else if 8000 < url.length then .error .tooLong
  else
    match splitAt [':', '/', '?', '#'] url with
    | (_, []) => do
        require .path (isChars url 0x2F)
        let path ← urlDecode url
        .ok { path := normalizePath path }
    | (scheme, ':' :: s) => do
        require .scheme (isScheme scheme)
        parseHierarchy s
    | _ => parseHierarchy url

end SeastarLive
