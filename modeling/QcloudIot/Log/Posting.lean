import QcloudIot.Log.Uploader
import QcloudIot.Misc.Blocks

/-!
# Posting the upload buffer

`_post_log_to_server` sends a short buffer with one post. A long one is cut behind a log, its front is
posted, and what is left is moved to the head. For a post the last two bytes are the end of a JSON
text, and a comma and a blank afterwards.
-/

namespace QcloudIot.Log

open QcloudIot.Mqtt (qcloudErrInval qcloudErrFailure)

/-- `MAX_HTTP_LOG_POST_SIZE` -/
abbrev maxHttpLogPostSize : Nat := 3000

/-- `LOG_DELIMITER` -/
abbrev logDelimiter : List UInt8 := [34, 44, 32]

/-- `_append_endchar_to_upload_buffer` (`log_upload.c:231-235`). -/
def appendEndcharToUploadBuffer (logBuf : List UInt8) (logSize : Nat) : List UInt8 :=
  (logBuf.set (logSize - 2) 93).set (logSize - 1) 125

/-- `_remove_endchar_from_upload_buffer` (`log_upload.c:237-241`). -/
def removeEndcharFromUploadBuffer (logBuf : List UInt8) (logSize : Nat) : List UInt8 :=
  (logBuf.set (logSize - 2) 44).set (logSize - 1) 32

/-- What `_post_log_to_server` works on: the buffer, `post_size`, `*actual_post_payload`, and the
    posts so far with the result of each. -/
structure Transfer where
  postBuf : List UInt8
  postSize : Nat
  actualPostPayload : Nat
  posts : List (List UInt8 × Int)
  deriving DecidableEq, Repr

/-- The loop over the delimiters (`log_upload.c:271-288`): `upload_size` at its end, or the code it
    returns with. -/
def locateDelimiter (postBuf : List UInt8) (headLen possibleSize uploadSize : Nat) :
    Except Int Nat :=
  if below : possibleSize < maxHttpLogPostSize then
    match strstr logDelimiter (cString (postBuf.drop possibleSize)) with
    | none => .error qcloudErrInval
    | some distance =>
      let next := possibleSize + distance + logDelimiter.length
      if postBuf[next]? = some 0 ∧ next < headLen then .ok next
      else locateDelimiter postBuf headLen next possibleSize
  else .ok uploadSize
termination_by maxHttpLogPostSize - possibleSize
decreasing_by
  have width : logDelimiter.length = 3 := rfl
  have size : maxHttpLogPostSize = 3000 := rfl
  omega

/-- A post of the first bytes of the buffer, with the end characters in it; they are removed at
    `post_size`. -/
def Transfer.postOne (transfer : Transfer) (uploadSize : Nat) (ret : Int) : Transfer :=
  let ended := appendEndcharToUploadBuffer transfer.postBuf uploadSize
  { transfer with
    postBuf := removeEndcharFromUploadBuffer ended transfer.postSize
    posts := transfer.posts ++ [(ended.take uploadSize, ret)] }

/-- What is left behind a post is moved to the head, and zero bytes follow it
    (`log_upload.c:307-311`). The differences are those of `size_t`, where none of them is below
    zero. -/
def Transfer.moveForward (transfer : Transfer) (headLen origPostSize uploadSize : Nat) : Transfer :=
  let left := (transfer.postBuf.drop uploadSize).take (transfer.postSize - uploadSize)
  let moved := overwrite transfer.postBuf headLen left
  let postSize := transfer.postSize + headLen - uploadSize
  { transfer with
    postBuf := overwrite moved postSize (List.replicate (origPostSize - postSize) 0)
    postSize := postSize
    actualPostPayload := transfer.actualPostPayload + uploadSize - headLen }

/-- The loop over the fragments (`log_upload.c:269-314`), with a bound on its turns: what is returned,
    and the transfer then. `post` is the result of each post. There is none where `memmove` or `memset`
    is told a size below zero. -/
def fragmentLoop (post : Nat → Int) (headLen origPostSize : Nat) :
    Nat → Transfer → Option (Int × Transfer)
  | 0, _ => none
  | turns + 1, transfer =>
    match locateDelimiter transfer.postBuf headLen 0 0 with
    | .error rc => some (rc, transfer)
    | .ok uploadSize =>
      if uploadSize = 0 then some (qcloudErrFailure, transfer)
      else
        let ret := post transfer.posts.length
        let posted := transfer.postOne uploadSize ret
        if ret ≠ 0 then some (qcloudErrFailure, posted)
        else if posted.postSize < uploadSize ∨
            origPostSize < posted.postSize + headLen - uploadSize then none
        else
          let moved := posted.moveForward headLen origPostSize uploadSize
          if headLen < moved.postSize then fragmentLoop post headLen origPostSize turns moved
          else some (0, moved)

/-- `_post_log_to_server` (`log_upload.c:243-317`). -/
def postLogToServer (post : Nat → Int) (headLen turns : Nat) (postBuf : List UInt8)
    (postSize : Nat) : Option (Int × Transfer) :=
  let transfer : Transfer := ⟨postBuf, postSize, 0, []⟩
  if postSize < maxHttpLogPostSize then
    let ret := post 0
    let posted := transfer.postOne postSize ret
    some (ret, { posted with actualPostPayload := if ret = 0 then postSize - headLen else 0 })
  else fragmentLoop post headLen postSize turns transfer

end QcloudIot.Log
