import QcloudIot.Network.AtClient
import QcloudIot.Ota.Client

/-!
# Sending by the ESP8266

`esp8266_send` of `at_device_esp8266.c` as it is built with `AT_OS_USED`. What the UART delivers
meanwhile, and how much of a block it takes, is decided outside.
-/

namespace QcloudIot.Network

open QcloudIot.Mqtt (qcloudErrInval qcloudErrFailure)
open QcloudIot.Ota (utf8 decimal)

/-- `ESP8266_SEND_MAX_LEN_ONCE` -/
abbrev esp8266SendMaxLenOnce : Nat := 2048

/-- The sign `>`. -/
abbrev promptSign : UInt8 := 62

/-- What happens to a block: what the UART delivers while the command waits, what
    `HAL_AT_Uart_Send` returns for the data, and what is delivered from then on until the flags have
    been waited for. -/
structure BlockEnv where
  answer : List Delivery
  uartSent : Int
  report : List Delivery

/-- The command in front of a block. -/
def cipsend (fd : Int) (size : Nat) : List UInt8 :=
  utf8 "AT+CIPSEND=" ++ decimal fd ++ utf8 "," ++ decimal size

/-- A block handed to the UART, and what became of it: the command in front of it, whether it was
    answered with the prompt, whether the UART took all of the block, and the flags when they have
    been waited for. -/
structure Write where
  command : List UInt8
  bytes : List UInt8
  prompted : Bool
  complete : Bool
  flags : SendFlags
  deriving DecidableEq, Repr

namespace AtClient

/-- `at_recv_readline` reads the sign `>` among what is delivered. -/
def readsPrompt (client : AtClient) : List Delivery → Bool
  | [] => false
  | delivery :: deliveries =>
    (match delivery with
      | .byte ch _ => ch = promptSign && client.receives = []
      | .silence => false) || (client.deliver delivery).readsPrompt deliveries

/-- `at_clearFlag(SEND_OK_FLAG)` and `at_clearFlag(SEND_FAIL_FLAG)`. -/
def clearSendFlags (client : AtClient) : AtClient := { client with flags := ⟨false, false⟩ }

/-- `at_waitFlag(SEND_OK_FLAG | SEND_FAIL_FLAG, ..)` and then `at_waitFlag(SEND_FAIL_FLAG, ..)`
    (`at_device_esp8266.c:408-414`, `at_client.c:122-137`): both flags have to be set. -/
def sendFailed (flags : SendFlags) : Bool := flags.sendOk && flags.sendFail

end AtClient

/-- `esp8266_send` while it runs. -/
structure SendRun where
  client : AtClient
  sentSize : Nat
  writes : List Write

/-- The size of the next block (`at_device_esp8266.c:375-379`). -/
def curPktSize (len sentSize : Nat) : Nat :=
  if len - sentSize < esp8266SendMaxLenOnce then len - sentSize else esp8266SendMaxLenOnce

theorem curPktSize_pos {len sentSize : Nat} (more : sentSize < len) :
    0 < curPktSize len sentSize := by
  have limit : esp8266SendMaxLenOnce = 2048 := rfl
  rw [curPktSize]
  split <;> omega

/-- The loop of `esp8266_send` (`at_device_esp8266.c:374-417`) from the block `number` on. -/
def sendBlocks (response : AtResponse) (fd : Int) (env : Nat → BlockEnv) (buff : List UInt8)
    (number : Nat) (run : SendRun) : SendRun :=
  if more : run.sentSize < buff.length then
    let size := curPktSize buff.length run.sentSize
    let block := env number
    let waiting := run.client.clearSendFlags
    let (executed, answered) := waiting.objExecCmd response block.answer
    if ¬ executed then { run with client := answered }
    else
      let reported := AtClient.deliverAll { answered with endSign := 0 } block.report
      let write : Write :=
        { command := cipsend fd size
          bytes := (buff.drop run.sentSize).take size
          prompted := (waiting.beginCmd response).readsPrompt block.answer
          complete := block.uartSent = size
          flags := reported.flags }
      let run := { run with client := reported, writes := run.writes ++ [write] }
      if block.uartSent ≠ size then run
      else if AtClient.sendFailed reported.flags then run
      else sendBlocks response fd env buff (number + 1) { run with sentSize := run.sentSize + size }
  else run
termination_by buff.length - run.sentSize
decreasing_by
  have positive := curPktSize_pos more
  omega

/-- `at_create_resp(512, 2, AT_RESP_TIMEOUT_MS)`: a response whose buffer has been used before. -/
def createResp (memory : List UInt8) : AtResponse := ⟨memory.takeD 512 0, 2, 0⟩

/-- `esp8266_send` (`at_device_esp8266.c:357-428`): what it returns as an `int`, and the run.
    `memory` is what is in the buffer of the response when it can be allocated. -/
def esp8266Send (client : AtClient) (memory : Option (List UInt8)) (env : Nat → BlockEnv) (fd : Int)
    (buff : Option (List UInt8)) : Int × SendRun :=
  match buff, memory with
  | none, _ => (qcloudErrInval, ⟨client, 0, []⟩)
  | some _, none => (qcloudErrFailure, ⟨client, 0, []⟩)
  | some buff, some memory =>
    let run := sendBlocks (createResp memory) fd env buff 0
      ⟨{ client with endSign := promptSign }, 0, []⟩
    ((BitVec.ofNat 32 run.sentSize).toInt, run)

end QcloudIot.Network
