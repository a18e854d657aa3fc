import QcloudIot.Http.Url
import QcloudIot.Misc.Blocks
import QcloudIot.Misc.Prog
import QcloudIot.Utils.Base64

/-!
# Sending an HTTP request

The header of a request, `_http_client_send_header` of `utils_httpc.c`. Its parts are collected in
a buffer that is written when it is full.
-/

namespace QcloudIot.Http

open Mqtt (CStr)

/-- `HTTP_CLIENT_AUTHB_SIZE` -/
abbrev httpClientAuthbSize : Nat := 128
/-- `HTTP_CLIENT_SEND_BUF_SIZE` -/
abbrev httpClientSendBufSize : Nat := 1024
/-- `HTTP_CLIENT_MAX_URL_LEN` -/
abbrev httpClientMaxUrlLen : Nat := 1024

/-- The bytes of a text in ASCII. -/
def chars (text : List Char) : List UInt8 := text.map fun c => UInt8.ofNat c.toNat

/-- What `HAL_Snprintf` leaves of a text in a buffer of `size` bytes. -/
def snprintf (size : Nat) (text : List UInt8) : List UInt8 := text.take (size - 1)

/-- `STRING_PTR_PRINT_SANITY_CHECK` -/
def printed : Option CStr → List UInt8
  | none => chars ['n', 'u', 'l', 'l']
  | some s => s.bytes

/-! ## Basic authentication -/

/-- `code` of `_http_client_base64enc`. -/
def base64Code : List UInt8 := Base64.base64EncMap ++ [61]

/-- `code[value & 0x3f]` -/
def codeOf (value : BitVec 32) : UInt8 := base64Code.getD (value &&& 0x3f#32).toNat 0

/-- The inner loop of `_http_client_base64enc`, each round of which takes six off `l`: the digits,
    and `l` behind it. -/
def digitLoop (x : BitVec 32) : Nat → Nat → List UInt8 × Nat
  | 0, l => ([], l)
  | fuel + 1, l =>
    if l ≥ 6 then
      let (digits, rest) := digitLoop x fuel (l - 6)
      (codeOf (x.sshiftRight (l - 6)) :: digits, rest)
    else ([], l)

/-- The loop of `_http_client_base64enc` over the characters: the digits, `x` and `l`. Characters
    are signed, and so is `x`. -/
def charLoop : List UInt8 → BitVec 32 → Nat → List UInt8 × BitVec 32 × Nat
  | [], x, l => ([], x, l)
  | c :: input, x, l =>
    let x := x <<< 8 ||| c.toBitVec.signExtend 32
    let (digits, l) := digitLoop x (l + 8) (l + 8)
    let (out, x, l) := charLoop input x l
    (digits ++ out, x, l)

/-- `_http_client_base64enc` (`utils_httpc.c:48-67`): the text in `out`. -/
def httpClientBase64enc (input : List UInt8) : List UInt8 :=
  let (out, x, l) := charLoop input 0 0
  let out := if l > 0 then out ++ [codeOf (x <<< (6 - l))] else out
  out ++ List.replicate ((4 - out.length % 4) % 4) 61

/-- `"%s:%s"` of the user name and the password. -/
def credentials (user password : Option CStr) : List UInt8 := printed user ++ [58] ++ printed password

/-- The text in `base64buff`. -/
def userPassword (user password : Option CStr) : List UInt8 :=
  snprintf (httpClientAuthbSize + 3) (credentials user password)

/-- The text in `b_auth` in front of the line break. -/
def bAuth (user password : Option CStr) : List UInt8 :=
  httpClientBase64enc (userPassword user password)

/-- How many bytes of `b_auth` are written, with the line break and the terminator. -/
def bAuthExtent (user password : Option CStr) : Nat := (bAuth user password).length + 2

/-- The size of `b_auth`. -/
def bAuthSize : Nat := (httpClientAuthbSize + 3) * 4 / 3 + 1

/-! ## The send buffer -/

/-- The outcome of a `network_stack.write`: its return code and how many bytes it has sent. -/
structure SendOutcome where
  rc : Int
  written : Nat
  deriving DecidableEq, Repr

/-- `send_buf` and `*send_idx`, and what has come of them: the bytes sent, the number of writes to
    the network and how much of `send_buf` has been written to. -/
structure Sender where
  sendBuf : List UInt8
  sendIdx : Nat
  sent : List UInt8
  writes : Nat
  extent : Nat
  deriving DecidableEq, Repr

/-- The buffer of a new request. -/
def Sender.empty : Sender where
  sendBuf := List.replicate httpClientSendBufSize 0
  sendIdx := 0
  sent := []
  writes := 0
  extent := 0

/-- How the network answers the writes, one after the other. -/
abbrev Network := Nat → SendOutcome

/-- `network_stack.write` of the first `len` bytes of `send_buf`. -/
def networkWrite (network : Network) (len : Nat) : Prog Sender SendOutcome := .prim fun s =>
  let written := min (network s.writes).written len
  (⟨(network s.writes).rc, written⟩,
    { s with sent := s.sent ++ s.sendBuf.take written, writes := s.writes + 1 })

/-- `memcpy(send_buf + idx, buf, len)` -/
def copyToSendBuf (idx : Nat) (bytes : List UInt8) : Prog Sender Unit := .change fun s =>
  { s with
    sendBuf := overwrite s.sendBuf idx bytes, extent := max s.extent (idx + bytes.length) }

/-- The loop of `_http_client_get_info`, at most `fuel` rounds of it; `none` when there are more. -/
def getInfoLoop (network : Network) (buf : List UInt8) : Nat → Int → Nat → Nat →
    Prog Sender (Option Int)
  | 0, _, _, _ => return none
  | fuel + 1, rc, idx, len => do
    -- the room left is compared as an unsigned number
    let room := (httpClientSendBufSize + 2 ^ 32 - idx) % 2 ^ 32
    let cpLen := if room ≥ len then len else httpClientSendBufSize - idx
    copyToSendBuf idx (buf.take cpLen)
    let idx := idx + cpLen
    let len := len - cpLen
    if idx = httpClientSendBufSize then
      let outcome ← networkWrite network httpClientSendBufSize
      if outcome.written ≠ 0 then
        -- the index of the caller stays as it was
        return some outcome.written
      else if len ≠ 0 then getInfoLoop network buf fuel outcome.rc idx len
      else
        .change fun s => { s with sendIdx := idx }
        return some outcome.rc
    else if len ≠ 0 then getInfoLoop network buf fuel rc idx len
    else
      .change fun s => { s with sendIdx := idx }
      return some rc

/-- `_http_client_get_info` (`utils_httpc.c:170-203`) of a text, whose length is cut to 32 bits. -/
def httpClientGetInfo (network : Network) (fuel : Nat) (buf : List UInt8) :
    Prog Sender (Option Int) := do
  let s ← .read
  getInfoLoop network buf fuel qcloudRetSuccess s.sendIdx (buf.length % 2 ^ 32)

/-! ## The header -/

/-- `HttpMethod` -/
inductive HttpMethod where
  | get
  | post
  | put
  | delete
  | head
  deriving DecidableEq, Repr

/-- `meth` -/
def HttpMethod.meth : HttpMethod → List UInt8
  | .get => chars ['G', 'E', 'T']
  | .post => chars ['P', 'O', 'S', 'T']
  | .put => chars ['P', 'U', 'T']
  | .delete => chars ['D', 'E', 'L', 'E', 'T', 'E']
  | .head => chars ['H', 'E', 'A', 'D']

/-- What a request takes from its `HTTPClient` and `HTTPClientData`; `postBuf` tells whether
    `post_buf` is set. -/
structure Request where
  method : HttpMethod
  header : Option CStr
  authUser : Option CStr
  authPassword : Option CStr
  postBuf : Bool
  postBufLen : Int
  postContentType : Option CStr
  deriving DecidableEq, Repr

def authorization : List UInt8 :=
  chars ['A', 'u', 't', 'h', 'o', 'r', 'i', 'z', 'a', 't', 'i', 'o', 'n', ':', ' ', 'B', 'a', 's',
    'i', 'c', ' ']

/-- The request line and the Host line. -/
def requestLines (method : HttpMethod) (host path : List UInt8) : List UInt8 :=
  method.meth ++ [32] ++ path ++
    chars [' ', 'H', 'T', 'T', 'P', '/', '1', '.', '1', '\r', '\n', 'H', 'o', 's', 't', ':', ' '] ++
    host ++ crlf

/-- The number that `%d` prints. -/
def decimal (n : Int) : List UInt8 := (toString n).toUTF8.toList

def contentLengthLine (n : Int) : List UInt8 := contentLength ++ [58, 32] ++ decimal n ++ crlf

def contentTypeLine (contentType : CStr) : List UInt8 :=
  chars ['C', 'o', 'n', 't', 'e', 'n', 't', '-', 'T', 'y', 'p', 'e', ':', ' '] ++
    contentType.bytes ++ crlf

/-- What follows a loop; it is not reached when the loop has more rounds. -/
def andThen (loop : Prog Sender (Option Int)) (next : Int → Prog Sender (Option Int)) :
    Prog Sender (Option Int) := do
  match ← loop with
  | none => return none
  | some rc => next rc

/-- `_http_client_send_auth` (`utils_httpc.c:205-221`). -/
def httpClientSendAuth (network : Network) (fuel : Nat) (user password : Option CStr) :
    Prog Sender (Option Int) :=
  andThen (httpClientGetInfo network fuel authorization) fun _ =>
    andThen (httpClientGetInfo network fuel (bAuth user password ++ [10])) fun _ =>
      return some qcloudRetSuccess

/-- `client->header`, where there is one. -/
def sendClientHeader (network : Network) (fuel : Nat) : Option CStr → Prog Sender (Option Int)
  | none => return some qcloudRetSuccess
  | some header => httpClientGetInfo network fuel header.bytes

/-- The Content-Length and the Content-Type line of `_http_client_send_header`. -/
def sendContent (network : Network) (fuel : Nat) (request : Request) :
    Prog Sender (Option Int) :=
  if request.postBuf then
    andThen (httpClientGetInfo network fuel
        (snprintf httpClientSendBufSize (contentLengthLine request.postBufLen))) fun rc =>
      match request.postContentType with
      | none => return some rc
      | some contentType =>
        httpClientGetInfo network fuel (snprintf httpClientSendBufSize (contentTypeLine contentType))
  else return some qcloudRetSuccess

/-- The last write of `_http_client_send_header`. -/
def sendRest (network : Network) : Prog Sender (Option Int) := do
  let s ← .read
  let outcome ← networkWrite network s.sendIdx
  if outcome.written > 0 then return some qcloudRetSuccess else return some qcloudErrHttpClosed

/-- `_http_client_send_header` (`utils_httpc.c:223-297`) from the parsed url on. -/
def sendHeaderTo (network : Network) (fuel : Nat) (request : Request) (host path : List UInt8) :
    Prog Sender (Option Int) :=
  andThen (httpClientGetInfo network fuel
      (snprintf httpClientSendBufSize (requestLines request.method host path))) fun rc =>
    if rc ≠ 0 then return some qcloudErrHttpConn
    else
      andThen (if request.authUser.isSome then
          httpClientSendAuth network fuel request.authUser request.authPassword
        else return some qcloudRetSuccess) fun _ =>
      andThen (sendClientHeader network fuel request.header) fun _ =>
      andThen (sendContent network fuel request) fun _ =>
      andThen (httpClientGetInfo network fuel crlf) fun _ => sendRest network

/-- `_http_client_send_header`; a url that is accepted has both a host and a path. -/
def httpClientSendHeader (network : Network) (fuel : Nat) (request : Request) (url : List UInt8) :
    Prog Sender (Option Int) :=
  match httpClientParseUrl url 8 64 1024 with
  | { rc := _, scheme := _, host := some host, path := some path } =>
    sendHeaderTo network fuel request host.text path.text
  | parsed => return some parsed.rc

/-- The host and the path of a url that `_http_client_parse_url` accepts. -/
def acceptedUrl (url : List UInt8) : Option (List UInt8 × List UInt8) :=
  match httpClientParseUrl url 8 64 1024 with
  | { rc := _, scheme := _, host := some host, path := some path } => some (host.text, path.text)
  | _ => none

end QcloudIot.Http
