import QcloudIot.Http.Client
import QcloudIot.Misc.Blocks
import QcloudIot.Mqtt.Types

/-!
# The AT client

`at_client.c` as it is built with `AT_OS_USED`: a thread, `client_parser`, takes what the UART
delivers byte by byte, and another thread sends commands and waits for the semaphore that the
parser posts. A step of the parser is a byte, or `at_client_getchar` that has waited in vain.
-/

namespace QcloudIot.Network

open QcloudIot.Http (signOf numberOf)
open QcloudIot.Json (isSpace digitValue)

/-- `CLINET_BUFF_LEN` -/
abbrev clinetBuffLen : Nat := 1024

/-- `at_resp_status_t` -/
inductive AtRespStatus where
  | ok
  | error
  | timeout
  | buffFull
  deriving DecidableEq, Repr

/-- `at_response`; the buffer with what has been in it before. -/
structure AtResponse where
  buf : List UInt8
  lineNum : Nat
  lineCounts : Nat
  deriving DecidableEq, Repr

/-- The flags of `sg_flags` that concern sending. -/
structure SendFlags where
  sendOk : Bool
  sendFail : Bool
  deriving DecidableEq, Repr

/-- `at_client` with the variables of its parser. `resp` says whether `client->resp` is set, to
    `response`; `line`, `isFull` and `lastCh` are those of `at_recv_readline`; `receives` are the
    calls of `at_client_recv` that a URC function has still to make, each with the number of bytes
    it waits for; `respSem` counts the posts that no thread has waited for. -/
structure AtClient where
  endSign : UInt8
  line : List UInt8
  isFull : Bool
  lastCh : UInt8
  resp : Bool
  response : AtResponse
  respStatus : AtRespStatus
  respBufLen : Nat
  lineCounts : Nat
  respSem : Nat
  receives : List Nat
  flags : SendFlags
  deriving DecidableEq, Repr

/-! ## Texts -/

abbrev atRespEndOk : List UInt8 := [79, 75]
abbrev atRespEndError : List UInt8 := [69, 82, 82, 79, 82]
abbrev atRespEndFail : List UInt8 := [70, 65, 73, 76]
abbrev atEndCrLf : List UInt8 := [13, 10]
/-- `SEND OK` -/
abbrev sendOkText : List UInt8 := [83, 69, 78, 68, 32, 79, 75]
/-- `SEND FAIL` -/
abbrev sendFailText : List UInt8 := [83, 69, 78, 68, 32, 70, 65, 73, 76]
/-- `Recv` -/
abbrev recvText : List UInt8 := [82, 101, 99, 118]
/-- `bytes` -/
abbrev bytesText : List UInt8 := [98, 121, 116, 101, 115]
/-- `,CLOSED` -/
abbrev closedText : List UInt8 := [44, 67, 76, 79, 83, 69, 68]
/-- `+IPD` -/
abbrev ipdText : List UInt8 := [43, 73, 80, 68]
/-- `busy p` -/
abbrev busyPText : List UInt8 := [98, 117, 115, 121, 32, 112]
/-- `busy s` -/
abbrev busySText : List UInt8 := [98, 117, 115, 121, 32, 115]
/-- `WIFI CONNECTED` -/
abbrev wifiConnectedText : List UInt8 :=
  [87, 73, 70, 73, 32, 67, 79, 78, 78, 69, 67, 84, 69, 68]
/-- `WIFI DISCONNECT` -/
abbrev wifiDisconnectText : List UInt8 :=
  [87, 73, 70, 73, 32, 68, 73, 83, 67, 79, 78, 78, 69, 67, 84]

/-! ## Unsolicited result codes -/

/-- The functions of the table; `other` are those that leave the client alone. -/
inductive UrcFunc where
  | send
  | recv
  | other
  deriving DecidableEq, Repr

/-- `at_urc` -/
structure AtUrc where
  cmdPrefix : List UInt8
  cmdSuffix : List UInt8
  func : UrcFunc
  deriving DecidableEq, Repr

/-- `urc_table` (`at_device_esp8266.c:170-180`). -/
def urcTable : List AtUrc :=
  [⟨sendOkText, atEndCrLf, .send⟩, ⟨sendFailText, atEndCrLf, .send⟩,
    ⟨recvText, bytesText ++ atEndCrLf, .other⟩, ⟨[], closedText ++ atEndCrLf, .other⟩,
    ⟨ipdText, [58], .recv⟩, ⟨busyPText, atEndCrLf, .other⟩, ⟨busySText, atEndCrLf, .other⟩,
    ⟨wifiConnectedText, atEndCrLf, .other⟩, ⟨wifiDisconnectText, atEndCrLf, .other⟩]

/-- `get_urc_obj` (`at_client.c:489-517`). -/
def getUrcObj (buffer : List UInt8) : Option AtUrc :=
  urcTable.find? fun urc =>
    urc.cmdPrefix.length + urc.cmdSuffix.length ≤ buffer.length &&
      urc.cmdPrefix.isPrefixOf buffer && urc.cmdSuffix.isSuffixOf buffer

/-- The directive `%d`: the integer, and what follows it. -/
def scanD (text : List UInt8) : Option (Int × List UInt8) :=
  let (negative, text) := signOf (text.dropWhile isSpace)
  let digits := text.takeWhile fun b => digitValue b < 10
  if digits = [] then none
  else
    let value : Int := numberOf 10 digits
    let value := if negative then max (-value) (-2 ^ 63) else min value (2 ^ 63 - 1)
    some ((BitVec.ofInt 32 value).toInt, text.drop digits.length)

/-- `sscanf(data, "+IPD,%d,%d:", &fd, &bfsz)`, when both are stored. -/
def scanIpd (data : List UInt8) : Option (Int × Int) := do
  let (fd, rest) ← if (ipdText ++ [44]).isPrefixOf data then scanD (data.drop 5) else none
  match rest with
  | 44 :: rest => do
    let (bfsz, _) ← scanD rest
    return (fd, bfsz)
  | _ => none

/-- The calls of `at_client_recv` in `urc_recv_func` (`at_device_esp8266.c:96-136`): one for all
    bytes, or without a buffer one for every eight. -/
def recvCalls (bfsz : Int) (allocated : Bool) : List Nat :=
  if allocated then if 0 < bfsz then [bfsz.toNat] else []
  else
    let size := (bfsz % 2 ^ 32).toNat
    List.replicate ((size - 1) / 8) 8 ++ [size - (size - 1) / 8 * 8]

/-- `urc_recv_func` (`at_device_esp8266.c:96-136`). -/
def urcRecvFunc (data : List UInt8) (allocated : Bool) : List Nat :=
  match scanIpd data with
  | none => []
  | some (fd, bfsz) => if fd < 0 ∨ bfsz = 0 then [] else recvCalls bfsz allocated

/-- `urc_send_func` (`at_device_esp8266.c:61-70`). -/
def urcSendFunc (flags : SendFlags) (data : List UInt8) : SendFlags :=
  if (strstr sendOkText data).isSome then { flags with sendOk := true }
  else if (strstr sendFailText data).isSome then { flags with sendFail := true }
  else flags

namespace AtClient

/-- A URC function is called; `allocated` says whether it gets a buffer. -/
def callUrc (client : AtClient) (urc : AtUrc) (line : List UInt8) (allocated : Bool) : AtClient :=
  match urc.func with
  | .send => { client with flags := urcSendFunc client.flags (cString line) }
  | .recv => { client with receives := urcRecvFunc (cString line) allocated }
  | .other => client

/-! ## The parser -/

/-- The label `exit` of `client_parser` (`at_client.c:628-633`). -/
def finish (client : AtClient) : AtClient :=
  { client with
    response := { client.response with lineCounts := client.lineCounts }
    resp := false, respBufLen := 0, lineCounts := 0, respSem := client.respSem + 1 }

/-- A line is copied into the response (`at_client.c:601-612`). -/
def copyLine (client : AtClient) (line : List UInt8) : AtClient :=
  if client.respBufLen + line.length < client.response.buf.length then
    { client with
      response :=
        { client.response with buf := overwrite client.response.buf client.respBufLen line }
      respBufLen := client.respBufLen + line.length
      lineCounts := client.lineCounts + 1 }
  else { client with respStatus := .buffFull }

/-- A line that belongs to a response (`at_client.c:590-633`). -/
def respond (client : AtClient) (line : List UInt8) : AtClient :=
  if client.endSign ≠ 0 then
    if line.getLast? ≠ some client.endSign then client else client.finish
  else
    let line := line.dropLast ++ [0]
    let client := client.copyLine line
    if atRespEndOk.isPrefixOf line ∧ client.response.lineNum = 0 then
      finish { client with respStatus := .ok }
    else if (strstr atRespEndError (cString line)).isSome ∨ atRespEndFail.isPrefixOf line then
      finish { client with respStatus := .error }
    else if client.lineCounts = client.response.lineNum ∧ client.response.lineNum ≠ 0 then
      finish { client with respStatus := .ok }
    else client

/-- A line that has been read (`at_client.c:583-637`). -/
def takeLine (client : AtClient) (line : List UInt8) (allocated : Bool) : AtClient :=
  match getUrcObj line with
  | some urc => client.callUrc urc line allocated
  | none => if client.resp then client.respond line else client

/-- A round of `at_recv_readline` (`at_client.c:529-557`), and what becomes of the line when it is
    the last one. -/
def readByte (client : AtClient) (ch : UInt8) (allocated : Bool) : AtClient :=
  let roomy := client.line.length < clinetBuffLen
  let line := if roomy then client.line ++ [ch] else client.line
  let isFull := client.isFull || !roomy
  if (ch = 10 ∧ client.lastCh = 13) ∨ (client.endSign ≠ 0 ∧ ch = client.endSign) ∨
      (getUrcObj line).isSome then
    let client := { client with line := [], isFull := false, lastCh := 0 }
    if isFull then client else client.takeLine line allocated
  else { client with line := line, isFull := isFull, lastCh := ch }

end AtClient

/-- What the UART delivers: a byte, with whether a buffer is allocated when it completes a URC, or
    nothing until `at_client_getchar` gives up. -/
inductive Delivery where
  | byte (ch : UInt8) (allocated : Bool)
  | silence
  deriving DecidableEq, Repr

namespace AtClient

/-- A step of the parser thread: of the URC function that it is in, or of `at_recv_readline`. -/
def deliver (client : AtClient) : Delivery → AtClient
  | .byte ch allocated =>
    match client.receives with
    | [] => client.readByte ch allocated
    | count :: receives =>
      { client with receives := if count ≤ 1 then receives else (count - 1) :: receives }
  | .silence =>
    match client.receives with
    | [] => { client with line := [], isFull := false, lastCh := 0 }
    | _ :: receives => { client with receives := receives }

/-- The steps of the parser thread while the other thread waits. -/
def deliverAll (client : AtClient) (deliveries : List Delivery) : AtClient :=
  deliveries.foldl deliver client

/-! ## Commands -/

/-- What `at_obj_exec_cmd` sets before it sends a command (`at_client.c:294-297`). -/
def beginCmd (client : AtClient) (response : AtResponse) : AtClient :=
  { client with
    response := { response with lineCounts := 0 }, respStatus := .ok, resp := true }

/-- `at_obj_exec_cmd` (`at_client.c:280-336`) with a response, while the UART delivers an answer:
    whether it succeeds. Posts from before are taken for an answer. -/
def objExecCmd (client : AtClient) (response : AtResponse) (answer : List Delivery) :
    Bool × AtClient :=
  let client := (client.beginCmd response).deliverAll answer
  if client.respSem = 0 then (false, { client with resp := false })
  else
    (client.respStatus = .ok, { client with respSem := client.respSem - 1, resp := false })

end AtClient

end QcloudIot.Network
