import QcloudIot.Misc.Run
import QcloudIot.Network.AtClient

/-!
# Commands and lines in any order

The thread that executes commands and the thread of the parser, which gets a line at a time. A command
ends when the semaphore is posted, or it gives up; between the end of its waiting and
`client->resp = NULL` there may be lines.
-/

namespace QcloudIot.Network

/-! ## Lines of a response -/

/-- The memory behind so many texts. -/
def skipLines : Nat → List UInt8 → List UInt8
  | 0, respBuf => respBuf
  | lines + 1, respBuf => skipLines lines (respBuf.drop ((cString respBuf).length + 1))

/-- `at_resp_get_line` (`at_client.c:148-172`). -/
def atRespGetLine (resp : AtResponse) (respLine : Nat) : Option (List UInt8) :=
  if respLine > resp.lineCounts ∨ respLine = 0 then none
  else some (cString (skipLines (respLine - 1) resp.buf))

/-! ## Threads -/

/-- Where `at_obj_exec_cmd` is: not called, behind `client->resp = resp`, waiting for the semaphore, or
    behind a wait that has failed. -/
inductive Phase where
  | idle
  | prepared
  | waiting
  | gaveUp
  deriving DecidableEq, Repr

/-- Both threads, and the lines since the command was sent that are no URC. -/
structure AtSession where
  client : AtClient
  phase : Phase
  since : List (List UInt8)
  deriving DecidableEq, Repr

/-- A step of either thread. -/
inductive SessionStep where
  | prepare (response : AtResponse)
  | send
  | line (line : List UInt8) (allocated : Bool)
  | wake
  | timeOut
  | leave
  deriving DecidableEq, Repr

namespace AtSession

/-- The steps of `at_obj_exec_cmd` (`at_client.c:280-336`) and of `client_parser` with a line that has
    been read; one that is not possible in the state changes nothing. -/
def after (s : AtSession) : SessionStep → AtSession
  | .prepare response =>
    if s.phase = .idle then { client := s.client.beginCmd response, phase := .prepared, since := [] }
    else s
  | .send => if s.phase = .prepared then { s with phase := .waiting, since := [] } else s
  | .line line allocated =>
    if line = [] then s
    else
      { s with
        client := s.client.takeLine line allocated
        since := if getUrcObj line = none then s.since ++ [line] else s.since }
  | .wake =>
    if s.phase = .waiting ∧ 0 < s.client.respSem then
      { s with
        client := { s.client with respSem := s.client.respSem - 1, resp := false }
        phase := .idle }
    else s
  | .timeOut =>
    if s.phase = .waiting ∧ s.client.respSem = 0 then { s with phase := .gaveUp } else s
  | .leave =>
    if s.phase = .gaveUp then
      { s with client := { s.client with resp := false }, phase := .idle }
    else s

/-- After `at_client_para_init`. -/
def initial : AtSession where
  client := ⟨0, [], false, 0, false, ⟨[], 0, 0⟩, .ok, 0, 0, 0, [], ⟨false, false⟩⟩
  phase := .idle
  since := []

end AtSession

def atSession : Machine AtSession SessionStep := ⟨AtSession.after⟩

end QcloudIot.Network
