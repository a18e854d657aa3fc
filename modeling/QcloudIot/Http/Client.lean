import QcloudIot.Json.Token
import QcloudIot.Misc.Text

/-!
# Receiving an HTTP response

`_http_client_recv_response` of `utils_httpc.c` and what it calls. The local buffer `buf`, of
`HTTP_CLIENT_CHUNK_SIZE` bytes, is passed on as `data` with the number `len` of bytes in it;
writes are checked against its bounds. A function that returns from the midst of a loop throws
its return code.
-/

namespace QcloudIot.Http

open Json (isSpace digitValue)

/-! ## Constants -/

/-- `HTTP_CLIENT_CHUNK_SIZE` -/
abbrev httpClientChunkSize : Nat := 1025
/-- `HTTP_RETRIEVE_MORE_DATA` -/
abbrev httpRetrieveMoreData : Int := 1

abbrev qcloudRetSuccess : Int := 0
abbrev qcloudErrFailure : Int := -1001
abbrev qcloudErrHttp : Int := -4
abbrev qcloudErrHttpUnresolvedDns : Int := -6
abbrev qcloudErrHttpConn : Int := -8
abbrev qcloudErrHttpAuth : Int := -9
abbrev qcloudErrHttpNotFound : Int := -10
abbrev qcloudErrHttpTimeout : Int := -11
abbrev qcloudErrTcpReadTimeout : Int := -604
abbrev qcloudErrTcpPeerShutdown : Int := -608
abbrev qcloudErrTcpNothingToRead : Int := -609
abbrev qcloudErrSslReadTimeout : Int := -707
abbrev qcloudErrSslNothingToRead : Int := -709

abbrev crlf : List UInt8 := [13, 10]

/-- `Content-Length` -/
abbrev contentLength : List UInt8 := [67, 111, 110, 116, 101, 110, 116, 45, 76, 101, 110, 103, 116,
    104]
/-- `Transfer-Encoding` -/
abbrev transferEncoding : List UInt8 :=
  [84, 114, 97, 110, 115, 102, 101, 114, 45, 69, 110, 99, 111, 100, 105, 110, 103]
/-- `Chunked` -/
abbrev upperChunked : List UInt8 := [67, 104, 117, 110, 107, 101, 100]
/-- `chunked` -/
abbrev lowerChunked : List UInt8 := [99, 104, 117, 110, 107, 101, 100]

/-! ## Numbers -/

/-- The number that digits of a base denote. -/
def numberOf (base : Nat) (digits : List UInt8) : Nat :=
  digits.foldl (fun n b => base * n + digitValue b) 0

/-- A sign in front of a number, and what follows it. -/
def signOf : List UInt8 → Bool × List UInt8
  | 45 :: text => (true, text)
  | 43 :: text => (false, text)
  | text => (false, text)

/-- `atoi`: the `long` of `strtol`, truncated to an `int`. -/
def atoi (text : List UInt8) : Int :=
  let (negative, text) := signOf (text.dropWhile isSpace)
  let value : Int := numberOf 10 (text.takeWhile fun b => digitValue b < 10)
  let value := if negative then max (-value) (-2 ^ 63) else min value (2 ^ 63 - 1)
  (BitVec.ofInt 32 value).toInt

/-- `strtoul` with base 16: a prefix `0x` in front of a digit is passed over. -/
def strtoul16 (text : List UInt8) : Nat :=
  let (negative, text) := signOf (text.dropWhile isSpace)
  let text := match text with
    | 48 :: x :: b :: rest => if (x = 120 ∨ x = 88) ∧ digitValue b < 16 then b :: rest else text
    | _ => text
  let value := numberOf 16 (text.takeWhile fun b => digitValue b < 16)
  if 2 ^ 64 ≤ value then 2 ^ 64 - 1 else if negative ∧ value ≠ 0 then 2 ^ 64 - value else value

/-- An `unsigned` of 32 bits as an `int`. -/
def toInt32 (n : Nat) : Int := if n < 2 ^ 31 then n else (n : Int) - 2 ^ 32

/-- An `int` as an `unsigned` of 32 bits. -/
def toUint32 (z : Int) : Nat := if 0 ≤ z then z.toNat else (z + 2 ^ 32).toNat

/-! ## The state -/

/-- What a call of `network_stack.read` finds: at most `count` bytes, its return code, and
    whether the timer of the caller is still running when it returns. -/
structure Read where
  count : Nat
  rc : Int
  inTime : Bool
  deriving DecidableEq, Repr

/-- The fields of `HTTPClient` and `HTTPClientData` that receiving uses, with what the server
    still sends and how the network hands it over. `responseBuf` are the bytes that the current
    call has put into `response_buf`, `connected` is `network_stack.handle != 0`. -/
structure HttpClient where
  isMore : Bool
  isChunked : Bool
  retrieveLen : Int
  responseContentLen : Int
  responseBufLen : Nat
  responseBuf : List UInt8
  responseCode : Int
  connected : Bool
  incoming : List UInt8
  reads : List Read
  deriving DecidableEq, Repr

/-- A function has returned, or its behaviour is undefined. -/
inductive Halt where
  | exit (rc : Int)
  | fault
  deriving DecidableEq, Repr

abbrev Recv := EStateM Halt HttpClient

/-- The writes to `buf`. -/
def store (data : List UInt8) (offset : Nat) (bytes : List UInt8) : Recv (List UInt8) :=
  if offset + bytes.length ≤ data.length then
    return data.take offset ++ bytes ++ data.drop (offset + bytes.length)
  else throw .fault

/-- `memmove(data, &data[src], n)` -/
def memmove (data : List UInt8) (src n : Nat) : Recv (List UInt8) :=
  if src + n ≤ data.length then return (data.drop src).take n ++ data.drop n else throw .fault

/-! ## Reading -/

/-- `network_stack.read`, asked for at most `maxLen` bytes; a network without further reads
    brings nothing until the time is up. -/
def networkRead (maxLen : Nat) : Recv (Int × List UInt8 × Bool) := do
  let client ← get
  match client.reads with
  | [] => return (qcloudErrTcpNothingToRead, [], false)
  | read :: reads =>
    let n := min read.count maxLen
    set { client with incoming := client.incoming.drop n, reads }
    return (read.rc, client.incoming.take n, read.inTime)

/-- What `_http_client_recv` makes of the return code of a read of `n` bytes. -/
def httpClientRecvCode (rc : Int) (n : Nat) : Recv Int := do
  let client ← get
  if rc = qcloudErrSslNothingToRead ∨ rc = qcloudErrTcpNothingToRead then return qcloudRetSuccess
  else if rc = qcloudErrSslReadTimeout ∨ rc = qcloudErrTcpReadTimeout then
    return if (n : Int) = client.retrieveLen ∨ client.retrieveLen = 0 then qcloudRetSuccess else rc
  else if rc = qcloudErrTcpPeerShutdown ∧ n > 0 then do
    set { client with connected := false }
    return qcloudRetSuccess
  else return rc

/-- `_http_client_recv` (`utils_httpc.c:322-357`) into `data + offset`: its return code, the
    buffer, the number of bytes read, and whether there is time left. -/
def httpClientRecv (data : List UInt8) (offset maxLen : Nat) :
    Recv (Int × List UInt8 × Nat × Bool) := do
  let (rc, bytes, inTime) ← networkRead maxLen
  let rc ← httpClientRecvCode rc bytes.length
  let data ← store data offset bytes
  return (rc, data, bytes.length, inTime)

/-! ## The content

The loops of `_http_client_retrieve_content` (`utils_httpc.c:359-538`). Every round of a loop
takes a read, except the last one, so that one more round than there are reads is enough.
-/

/-- Copy the first `n` bytes to `response_buf + count`. -/
def place (data : List UInt8) (n : Nat) : Recv Unit :=
  modify fun client => { client with responseBuf := client.responseBuf ++ data.take n }

/-- The loop for a response that announces no length (`utils_httpc.c:373-408`). -/
def retrieveUntilClosed : Nat → List UInt8 → Nat → Recv Int
  | 0, _, _ => throw (.exit qcloudErrHttpTimeout)
  | rounds + 1, data, len => do
    let client ← get
    let count := client.responseBuf.length
    let room := client.responseBufLen - 1
    if count + len < room then do
      place data len
      let maxLen := min (httpClientChunkSize - 1) (room - (count + len))
      let (rc, data, len, inTime) ← httpClientRecv data 0 maxLen
      if rc ≠ qcloudRetSuccess then throw (.exit rc)
      else if ¬ inTime then throw (.exit qcloudErrHttpTimeout)
      else if len = 0 then do
        modify fun client => { client with isMore := false }
        return qcloudRetSuccess
      else retrieveUntilClosed rounds data len
    else do
      place data (room - count)
      return httpRetrieveMoreData

/-- The loop that reads the header of a chunk (`utils_httpc.c:415-446`): the position of the
    CRLF, which is looked for in front of the last byte only. -/
def readChunkHeader : Nat → List UInt8 → Nat → Recv (Nat × List UInt8 × Nat)
  | 0, _, _ => throw (.exit qcloudErrHttpTimeout)
  | rounds + 1, data, len => do
    let data ← store data len [0]
    match strstr crlf (data.take (len - 1)) with
    | some crlfPos => return (crlfPos, data, len)
    | none =>
      if len < httpClientChunkSize then do
        let (rc, data, newTrfLen, inTime) ←
          httpClientRecv data len (httpClientChunkSize - len - 1)
        if rc ≠ qcloudRetSuccess ∨ ¬ inTime then throw (.exit rc)
        else readChunkHeader rounds data (len + newTrfLen)
      else throw (.exit qcloudErrHttp)

/-- The header of a chunk (`utils_httpc.c:413-466`): the buffer with the bytes behind it, their
    number, and the size of the chunk. -/
def retrieveChunkHeader (data : List UInt8) (len : Nat) : Recv (List UInt8 × Nat × Nat) := do
  let client ← get
  let (crlfPos, data, len) ← readChunkHeader (client.reads.length + 1) data len
  let data ← store data crlfPos [0]
  let readLen := strtoul16 (cString data) % 2 ^ 32
  let client ← get
  set { client with
    retrieveLen := toInt32 readLen
    responseContentLen := client.responseContentLen + toInt32 readLen }
  if readLen = 0 then do
    modify fun client => { client with isMore := false }
    throw (.exit qcloudRetSuccess)
  else do
    let data ← memmove data (crlfPos + 2) (len - (crlfPos + 2))
    return (data, len - (crlfPos + 2), readLen)

/-- The loop that copies `readLen` bytes (`utils_httpc.c:472-509`). -/
def retrieveData : Nat → List UInt8 → Nat → Nat → Recv (List UInt8)
  | 0, _, _, _ => throw (.exit qcloudErrHttpTimeout)
  | rounds + 1, data, len, readLen => do
    let client ← get
    let count := client.responseBuf.length
    let room := client.responseBufLen - 1
    let templen := min len readLen
    if count + templen < room then do
      place data templen
      modify fun client => { client with retrieveLen := client.retrieveLen - templen }
      if len > readLen then do
        let data ← memmove data readLen (len - readLen)
        modify fun client => { client with retrieveLen := 0 }
        return data
      else if readLen - len = 0 then return data
      else do
        let maxLen := min (min (httpClientChunkSize - 1) (room - (count + templen))) (readLen - len)
        let (rc, data, newLen, inTime) ← httpClientRecv data 0 maxLen
        if rc ≠ qcloudRetSuccess then throw (.exit rc)
        else if ¬ inTime then throw (.exit qcloudErrHttpTimeout)
        else retrieveData rounds data newLen (readLen - len)
    else do
      place data (room - count)
      modify fun client => { client with retrieveLen := client.retrieveLen - (room - count : Nat) }
      throw (.exit httpRetrieveMoreData)

/-- The CRLF behind a chunk (`utils_httpc.c:513-530`), `len` being 0 here: the buffer with the
    bytes behind it, and their number. -/
def retrieveChunkEnd (data : List UInt8) : Recv (List UInt8 × Nat) := do
  let (rc, data, len, inTime) ← httpClientRecv data 0 7
  if rc ≠ qcloudRetSuccess ∨ ¬ inTime then throw (.exit rc)
  else if data[0]? ≠ some 13 ∨ data[1]? ≠ some 10 then throw (.exit qcloudErrHttpUnresolvedDns)
  -- the difference len - 2 becomes a huge size_t
  else if len < 2 then throw .fault
  else do
    let data ← memmove data 2 (len - 2)
    return (data, len - 2)

/-- The main loop (`utils_httpc.c:410-535`). -/
def retrieveLoop : Nat → List UInt8 → Nat → Recv Int
  | 0, _, _ => throw (.exit qcloudErrHttpTimeout)
  | rounds + 1, data, len => do
    let client ← get
    let (data, len, readLen) ←
      if client.isChunked ∧ client.retrieveLen ≤ 0 then retrieveChunkHeader data len
      else pure (data, len, toUint32 client.retrieveLen)
    let client ← get
    let data ← retrieveData (client.reads.length + 1) data len readLen
    let client ← get
    if client.isChunked then do
      let (data, len) ← retrieveChunkEnd data
      retrieveLoop rounds data len
    else do
      set { client with isMore := false }
      return qcloudRetSuccess

/-- `_http_client_retrieve_content` (`utils_httpc.c:359-538`). -/
def httpClientRetrieveContent (data : List UInt8) (len : Nat) : Recv Int := do
  modify fun client => { client with isMore := true, responseBuf := [] }
  let client ← get
  if client.responseContentLen = -1 ∧ ¬ client.isChunked then
    retrieveUntilClosed (client.reads.length + 1) data len
  else retrieveLoop (client.reads.length + 1) data len

/-! ## The response -/

/-- The end of the header (`utils_httpc.c:586-601`), for which more is read once. -/
def findHeaderEnd (data : List UInt8) (len : Nat) : Recv (Nat × List UInt8 × Nat) := do
  match strstr (crlf ++ crlf) (cString data) with
  | some bodyEnd => return (bodyEnd, data, len)
  | none =>
    let (rc, data, newTrfLen, _) ← httpClientRecv data len (httpClientChunkSize - len - 1)
    if rc ≠ qcloudRetSuccess then throw (.exit rc)
    else do
      let data ← store data (len + newTrfLen) [0]
      match strstr (crlf ++ crlf) (cString data) with
      | some bodyEnd => return (bodyEnd, data, len + newTrfLen)
      | none => throw (.exit qcloudErrFailure)

/-- The fields of the header that are looked at (`utils_httpc.c:603-619`). -/
def readFields (data : List UInt8) : Recv Unit := do
  match strstr contentLength (cString data) with
  | some tmp =>
    if data.length ≤ tmp + 16 then throw .fault
    else do
      let n := atoi (cString (data.drop (tmp + 16)))
      modify fun client => { client with responseContentLen := n, retrieveLen := n }
  | none =>
    match strstr transferEncoding (cString data) with
    | some tmp =>
      if data.length < tmp + 19 + 7 then throw .fault
      else if (data.drop (tmp + 19)).take 7 = upperChunked ∨
          (data.drop (tmp + 19)).take 7 = lowerChunked then
        modify fun client =>
          { client with isChunked := true, responseContentLen := 0, retrieveLen := 0 }
      else return ()
    | none => throw (.exit qcloudErrHttp)

/-- `_http_client_response_parse` (`utils_httpc.c:540-626`). -/
def httpClientResponseParse (data : List UInt8) (len : Nat) : Recv Int := do
  modify fun client => { client with responseContentLen := -1 }
  match strstr crlf (cString data) with
  | none => return qcloudErrHttpUnresolvedDns
  | some crlfPos =>
    let data ← store data crlfPos [0]
    let code := atoi (cString (data.drop 9))
    modify fun client => { client with responseCode := code }
    if code = 403 then return qcloudErrHttpAuth
    else if code = 404 then return qcloudErrHttpNotFound
    else do
      let data ← memmove data (crlfPos + 2) (len - (crlfPos + 2) + 1)
      modify fun client => { client with isChunked := false }
      let (bodyEnd, data, len) ← findHeaderEnd data (len - (crlfPos + 2))
      readFields data
      let data ← memmove data (bodyEnd + 4) (len - (bodyEnd + 4) + 1)
      httpClientRetrieveContent data (len - (bodyEnd + 4))

/-- `_http_client_recv_response` (`utils_httpc.c:655-694`). -/
def httpClientRecvResponse : Recv Int := do
  let client ← get
  let buf := List.replicate httpClientChunkSize 0
  if ¬ client.connected then return qcloudErrHttpConn
  else if client.isMore then do
    set { client with responseBuf := [] }
    httpClientRetrieveContent buf 0
  else do
    set { client with isMore := true }
    let (rc, buf, reclen, _) ← httpClientRecv buf 0 (httpClientChunkSize - 1)
    if rc ≠ qcloudRetSuccess then return rc
    else do
      let buf ← store buf reclen [0]
      if reclen ≠ 0 then httpClientResponseParse buf reclen else return rc

/-- The return code of a function, returned at its end or before; nothing if its behaviour is
    undefined. -/
def returned : EStateM.Result Halt HttpClient Int → Option (Int × HttpClient)
  | .ok rc client => some (rc, client)
  | .error (.exit rc) client => some (rc, client)
  | .error .fault _ => none

/-- `qcloud_http_recv_data` (`utils_httpc.c:778-797`) with a `response_buf` of `bufLen` bytes: the
    return code and the client afterwards. A negative code closes the connection. -/
def qcloudHttpRecvData (bufLen : Nat) (client : HttpClient) : Option (Int × HttpClient) :=
  let client := { client with responseBufLen := bufLen, responseBuf := [] }
  if bufLen = 0 then some (qcloudRetSuccess, client)
  else (returned (httpClientRecvResponse client)).map fun (rc, client) =>
    if rc < 0 then (rc, { client with connected := false }) else (qcloudRetSuccess, client)

end QcloudIot.Http
