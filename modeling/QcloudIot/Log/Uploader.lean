import QcloudIot.Misc.Run
import QcloudIot.Misc.Size
import QcloudIot.Misc.Text
import QcloudIot.Ota.Client

/-!
# The log uploader

The buffer of `log_upload.c`: the head of a JSON text, the logs that have been appended as strings
with a comma and a blank behind each, and zero bytes up to its end.
-/

namespace QcloudIot.Log

open QcloudIot.Mqtt (qcloudErrInval qcloudErrFailure)
open QcloudIot.Ota (utf8)

/-- `LOG_UPLOAD_BUFFER_SIZE` -/
abbrev logUploadBufferSize : Nat := 5000

/-- What is printed in front of the logs (`log_upload.c:528-530`). -/
def logHead (deviceName productId : List UInt8) : List UInt8 :=
  utf8 "\x7b\"DeviceName\":\"" ++ cString deviceName ++ utf8 "\",\"Level\":\"ERR\",\"ProductId\":\"" ++
    cString productId ++ utf8 "\",\"Message\":["

/-- The static variables `sg_log_uploader_init_done`, `sg_log_buffer`, `sg_write_index` and
    `sg_log_buffer_head_len`. -/
structure Uploader where
  initDone : Bool
  logBuffer : List UInt8
  writeIndex : Nat
  headLen : Nat
  deriving DecidableEq, Repr

/-- `LogUploadInitParams`, as far as the buffer depends on it; a text is its memory. -/
structure LogUploadInitParams where
  productId : Option (List UInt8)
  deviceName : Option (List UInt8)
  signKey : Option (List UInt8)

/-- What the platform does for an initialisation: the memory it allocates for the buffer, and
    whether the other allocations and the creation of the mutex succeed. -/
structure InitEnv where
  logBuffer : Option (List UInt8)
  others : Bool

namespace Uploader

/-- `_reset_log_buffer` (`log_upload.c:319-323`). -/
def resetLogBuffer (uploader : Uploader) : Uploader :=
  { uploader with
    writeIndex := uploader.headLen
    logBuffer := uploader.logBuffer.take uploader.headLen ++
      List.replicate (logUploadBufferSize - uploader.headLen) 0 }

end Uploader

/-- `HAL_Snprintf` into the buffer. -/
def printHead (memory head : List UInt8) : List UInt8 :=
  let printed := head.take (logUploadBufferSize - 1) ++ [0]
  printed ++ (memory.takeD logUploadBufferSize 0).drop printed.length

/-- `init_log_uploader` (`log_upload.c:500-583`) of an uploader that is not initialised. -/
def initLogUploader (initParams : Option LogUploadInitParams) (env : InitEnv) :
    Except Int Uploader :=
  match initParams with
  | some ⟨some productId, some deviceName, some signKey⟩ =>
    if cString signKey = [] then .error qcloudErrInval
    else
      match env.logBuffer with
      | none => .error qcloudErrFailure
      | some memory =>
        let logBuffer := printHead memory (logHead deviceName productId)
        let headLen := (cString logBuffer).length
        if ¬ env.others then .error qcloudErrFailure
        else .ok (Uploader.resetLogBuffer ⟨true, logBuffer, headLen, headLen⟩)
  | _ => .error qcloudErrInval

/-! ## Appending -/

/-- The letter behind the backslash for a byte that is replaced (`log_upload.c:440-473`). -/
def jsonEscape (b : UInt8) : Option UInt8 :=
  if b = 34 then some 34
  else if b = 92 then some 92
  else if b = 47 then some 47
  else if b = 8 then some 98
  else if b = 12 then some 102
  else if b = 10 then some 110
  else if b = 13 then some 114
  else if b = 9 then some 116
  else none

/-- A call of `append_to_upload_buffer`: the memory from `log_content` on, the size, and whether the
    mutex can be locked. -/
structure AppendCall where
  logContent : Option (Nat → UInt8)
  logSize : Nat
  size_lt : logSize < 2 ^ 64
  unlocked : Bool

/-- What a call leaves: the uploader, what it returns, and `index`: as many bytes of `log_content`
    have been read. -/
structure Appended where
  uploader : Uploader
  rc : Int
  index : Nat

namespace Uploader

/-- `sg_log_buffer[sg_write_index++] = b` -/
def put (uploader : Uploader) (b : UInt8) : Uploader :=
  { uploader with
    logBuffer := uploader.logBuffer.set uploader.writeIndex b
    writeIndex := uploader.writeIndex + 1 }

/-- The `switch` (`log_upload.c:440-475`). -/
def putEscaped (uploader : Uploader) (b : UInt8) : Uploader :=
  match jsonEscape b with
  | some letter => (uploader.put 92).put letter
  | none => uploader.put b

theorem writeIndex_putEscaped_lt (uploader : Uploader) (b : UInt8) :
    uploader.writeIndex < (uploader.putEscaped b).writeIndex := by
  unfold putEscaped
  cases jsonEscape b with
  | none => exact Nat.lt_succ_self _
  | some letter => exact Nat.lt_add_of_pos_right (Nat.succ_pos 1)

/-- The loop (`log_upload.c:434-477`): the uploader and `index` at its end. -/
def copyLoop (logContent : Nat → UInt8) (limit index : Nat) (uploader : Uploader) :
    Uploader × Nat :=
  if index < limit then
    if full : logUploadBufferSize < uploader.writeIndex + 5 then (uploader, index)
    else copyLoop logContent limit (index + 1) (uploader.putEscaped (logContent index))
  else (uploader, index)
termination_by logUploadBufferSize - uploader.writeIndex
decreasing_by
  have grows := uploader.writeIndex_putEscaped_lt (logContent index)
  have size : logUploadBufferSize = 5000 := rfl
  omega

/-- `append_to_upload_buffer` (`log_upload.c:409-487`). -/
def appendToUploadBuffer (uploader : Uploader) (call : AppendCall) : Appended :=
  if ¬ uploader.initDone then ⟨uploader, -1, 0⟩
  else
    match call.logContent with
    | none => ⟨uploader, -1, 0⟩
    | some logContent =>
      if call.logSize = 0 then ⟨uploader, -1, 0⟩
      else if ¬ call.unlocked then ⟨uploader, -1, 0⟩
      else if logUploadBufferSize < (uploader.writeIndex + call.logSize + 5) % 2 ^ 64 then
        ⟨uploader, -1, 0⟩
      else
        let (uploader, index) :=
          (uploader.put 34).copyLoop logContent (sizeSub call.logSize 2) 0
        ⟨((uploader.put 34).put 44).put 32, 0, index⟩

/-- `clear_upload_buffer` (`log_upload.c:489-498`). -/
def clearUploadBuffer (uploader : Uploader) : Uploader :=
  if ¬ uploader.initDone then uploader else uploader.resetLogBuffer

end Uploader

/-- What is done with the buffer. -/
inductive BufferCall where
  | append (call : AppendCall)
  | clear

/-- The calls one after the other. -/
def uploaderMachine : Machine Uploader BufferCall where
  step
    | uploader, .append call => (uploader.appendToUploadBuffer call).uploader
    | uploader, .clear => uploader.clearUploadBuffer

end QcloudIot.Log
