import QcloudIot.Ota.Proofs.Announcement
import QcloudIot.Resource.Proofs.Channels

/-!
# Taking over a task

`_qcloud_iot_resource_cb_proc_download` and `_qcloud_iot_resource_cb_proc_upload` store each value of a
message as soon as it is found, and copy the texts without a look at their length.
-/

namespace QcloudIot.Resource

open Mqtt (CStr)
open Json (Overrun)
open Ota (numeral utf8)
open Shadow (strncpy textOf)

/-- The other direction. -/
def Direction.other : Direction → Direction
  | .download => .upload
  | .upload => .download

/-- The type of a message that brings a task. -/
def Direction.task : Direction → MessageType
  | .download => .download
  | .upload => .createUploadTask

/-- A message with a task for the direction. -/
structure IsTask (d : Direction) (memory : List UInt8) (msgLen : Nat) (env : CallbackEnv) : Prop where
  nonempty : msgLen ≠ 0
  terminated : 0 ∈ memory
  type : ∃ type, getJsonKeyValueAt memory typeKey env.type = .ok (some type) ∧
    messageType type.bytes = some d.task

/-- The values of a message as far as they are found. -/
inductive Found where
  | noSize
  | noName (size : CStr)
  | noMd5sum (size name : CStr)
  | noUrl (size name md5sum : CStr)
  | whole (size name md5sum url : CStr)
  deriving DecidableEq

/-- The lookups, up to the first one that finds nothing. -/
def foundIn (memory : List UInt8) (env : CallbackEnv) : Except Overrun Found := do
  let some size ← getJsonKeyValueAt memory sizeKey env.size | return .noSize
  let some name ← getJsonKeyValueAt memory nameKey env.name | return .noName size
  let some md5sum ← getJsonKeyValueAt memory md5sumKey env.md5sum | return .noMd5sum size name
  let some url ← getJsonKeyValueAt memory urlKey env.url | return .noUrl size name md5sum
  return .whole size name md5sum url

/-- A field of `n` bytes holds a text with its NUL. -/
def HoldsText (n : Nat) (field : List UInt8) (text : CStr) : Prop :=
  field.length = n ∧ ∃ rest, field = text.bytes ++ 0 :: rest

/-- The block holds the values of the message. -/
structure Info.TookOver (info : Info) (memory : List UInt8) (env : CallbackEnv) : Prop where
  size : ∃ text, getJsonKeyValueAt memory sizeKey env.size = .ok (some text) ∧
    numeral text.bytes = some (info.resourceSize.toNat : Int)
  name : ∃ text, getJsonKeyValueAt memory nameKey env.name = .ok (some text) ∧
    HoldsText nameLen info.resourceName text
  md5sum : ∃ text, getJsonKeyValueAt memory md5sumKey env.md5sum = .ok (some text) ∧
    HoldsText md5sumLen info.md5sum text
  url : ∃ text, getJsonKeyValueAt memory urlKey env.url = .ok (some text) ∧
    HoldsText urlLen info.resourceUrl text
  state : info.state = .start

/-- A task is taken over completely or not at all, and the other direction is left alone. -/
def Context.TakesTask (r : Context) (d : Direction) (memory : List UInt8) (msgLen : Nat)
    (env : CallbackEnv) : Prop :=
  ∀ r', r.resourceCallback memory msgLen env = .ok r' →
    r'.info d.other = r.info d.other ∧ (r'.info d = r.info d ∨ (r'.info d).TookOver memory env)

/-- The values found suit the block: those in front of a missing one are in it already, and all of
    them fit into their fields. -/
def Info.Suits (info : Info) : Found → Prop
  | .noSize => True
  | .noName size => info.resourceSize = atoiWord size
  | .noMd5sum size name =>
    info.resourceSize = atoiWord size ∧ info.resourceName = strncpy nameLen name
  | .noUrl size name md5sum =>
    info.resourceSize = atoiWord size ∧ info.resourceName = strncpy nameLen name ∧
      info.md5sum = strncpy md5sumLen md5sum
  | .whole size name md5sum url =>
    (∃ n, numeral size.bytes = some n ∧ 0 ≤ n ∧ n < 2 ^ 32) ∧ name.length < nameLen ∧
      md5sum.length < md5sumLen ∧ url.length < urlLen

/-- The block with the values found in it. -/
def Info.store (info : Info) : Found → Info
  | .noSize => info
  | .noName size => { info with resourceSize := atoiWord size }
  | .noMd5sum size name =>
    { info with resourceSize := atoiWord size, resourceName := strncpy nameLen name }
  | .noUrl size name md5sum =>
    { info with
      resourceSize := atoiWord size
      resourceName := strncpy nameLen name
      md5sum := strncpy md5sumLen md5sum }
  | .whole size name md5sum url =>
    { info with
      resourceSize := atoiWord size
      resourceName := strncpy nameLen name
      md5sum := strncpy md5sumLen md5sum
      resourceUrl := strncpy urlLen url
      state := .start }

section Task

variable {r : Context} {d : Direction} {info : Info} {memory : List UInt8} {msgLen : Nat}
  {env : CallbackEnv} {found : Found}

theorem procTask_eq (idle : info.state.started = false) :
    info.procTask memory env = (foundIn memory env).map info.store := by
  rw [Info.procTask, if_neg (by rw [idle]; decide), foundIn]
  simp only [bind, Except.bind, pure, Except.pure]
  cases getJsonKeyValueAt memory sizeKey env.size with
  | error fault => rfl
  | ok size =>
  rcases size with _ | size
  · rfl
  dsimp only
  cases getJsonKeyValueAt memory nameKey env.name with
  | error fault => rfl
  | ok name =>
  rcases name with _ | name
  · rfl
  dsimp only
  cases getJsonKeyValueAt memory md5sumKey env.md5sum with
  | error fault => rfl
  | ok md5sum =>
  rcases md5sum with _ | md5sum
  · rfl
  dsimp only
  cases getJsonKeyValueAt memory urlKey env.url with
  | error fault => rfl
  | ok url =>
  rcases url with _ | url
  · rfl
  · rfl

/-- The lookups behind the values of a whole task. -/
theorem foundIn_whole {size name md5sum url : CStr}
    (found : foundIn memory env = .ok (.whole size name md5sum url)) :
    getJsonKeyValueAt memory sizeKey env.size = .ok (some size) ∧
      getJsonKeyValueAt memory nameKey env.name = .ok (some name) ∧
      getJsonKeyValueAt memory md5sumKey env.md5sum = .ok (some md5sum) ∧
      getJsonKeyValueAt memory urlKey env.url = .ok (some url) := by
  unfold foundIn at found
  simp only [bind, Except.bind, pure, Except.pure] at found
  repeat' split at found
  all_goals cases found
  refine ⟨?_, ?_, ?_, ?_⟩ <;> assumption

/-- The callback stores what is found in the block of its direction. -/
theorem resourceCallback_task (idle : (r.info d).state.started = false)
    (task : IsTask d memory msgLen env) :
    r.resourceCallback memory msgLen env =
      (foundIn memory env).map fun found => r.set ((r.info d).store found) d := by
  obtain ⟨type, isType, asks⟩ := task.type
  rw [Context.resourceCallback, if_neg task.nonempty, Context.dispatch, isType]
  simp only [bind, Except.bind, asks]
  cases d with
  | download =>
    have stored := @procTask_eq r.download memory env idle
    simp only [Direction.task, Context.cbProcDownload, bind, Except.bind, stored]
    cases foundIn memory env <;> rfl
  | upload =>
    have stored := @procTask_eq r.upload memory env idle
    simp only [Direction.task, Context.cbProcUpload, bind, Except.bind, stored]
    cases foundIn memory env <;> rfl

theorem info_set_other (r : Context) (info : Info) (d : Direction) :
    (r.set info d).info d.other = r.info d.other := by cases d <;> rfl

/-- A copied text is in its field with its NUL exactly if it is shorter than the field. -/
theorem holdsText_strncpy (n : Nat) (text : CStr) :
    HoldsText n (strncpy n text) text ↔ text.length < n := by
  have isLength : text.length = text.bytes.length := rfl
  constructor
  · rintro ⟨length, rest, holds⟩
    have size := congrArg List.length holds
    rw [length, List.length_append, List.length_cons] at size
    omega
  · intro short
    refine ⟨Shadow.strncpy_length n text, List.replicate (n - text.length - 1) 0, ?_⟩
    obtain ⟨more, isMore⟩ : ∃ more, n - text.length = more + 1 := ⟨n - text.length - 1, by omega⟩
    have whole : text.bytes.take n = text.bytes := List.take_of_length_le (by omega)
    rw [strncpy, whole, isMore, Nat.add_sub_cancel, List.replicate_succ]

/-- The block with a task in it has taken it over exactly if its values fit. -/
theorem tookOver_iff {size name md5sum url : CStr}
    (found : foundIn memory env = .ok (.whole size name md5sum url)) :
    (info.store (.whole size name md5sum url)).TookOver memory env ↔
      info.Suits (.whole size name md5sum url) := by
  obtain ⟨isSize, isName, isMd5sum, isUrl⟩ := foundIn_whole found
  constructor
  · intro took
    obtain ⟨text, isText, number⟩ := took.size
    cases isSize.symm.trans isText
    obtain ⟨text, isText, holdsName⟩ := took.name
    cases isName.symm.trans isText
    obtain ⟨text, isText, holdsMd5sum⟩ := took.md5sum
    cases isMd5sum.symm.trans isText
    obtain ⟨text, isText, holdsUrl⟩ := took.url
    cases isUrl.symm.trans isText
    refine ⟨⟨_, number, Int.natCast_nonneg _, ?_⟩, (holdsText_strncpy _ _).mp holdsName,
      (holdsText_strncpy _ _).mp holdsMd5sum, (holdsText_strncpy _ _).mp holdsUrl⟩
    have below := UInt32.toNat_lt (info.store (.whole size name md5sum url)).resourceSize
    omega
  · rintro ⟨⟨n, number, least, below⟩, shortName, shortMd5sum, shortUrl⟩
    refine ⟨⟨size, isSize, ?_⟩, ⟨_, isName, (holdsText_strncpy _ _).mpr shortName⟩,
      ⟨_, isMd5sum, (holdsText_strncpy _ _).mpr shortMd5sum⟩,
      ⟨_, isUrl, (holdsText_strncpy _ _).mpr shortUrl⟩, rfl⟩
    have stored := Ota.atoi_numeral number (by omega)
    rw [Int.emod_eq_of_lt least below] at stored
    exact number.trans (congrArg some stored.symm)

/-- The values found in front of a missing one leave the block as it was exactly if they were in it. -/
theorem store_eq_iff (cutShort : ∀ size name md5sum url, found ≠ .whole size name md5sum url) :
    info.store found = info ↔ info.Suits found := by
  cases found with
  | noSize => exact iff_of_true rfl trivial
  | noName size =>
    constructor
    · intro same
      exact (congrArg Info.resourceSize same).symm
    · intro size
      rw [Info.store, ← size]
  | noMd5sum size name =>
    constructor
    · intro same
      exact ⟨(congrArg Info.resourceSize same).symm, (congrArg Info.resourceName same).symm⟩
    · rintro ⟨size, name⟩
      rw [Info.store, ← size, ← name]
  | noUrl size name md5sum =>
    constructor
    · intro same
      exact ⟨(congrArg Info.resourceSize same).symm, (congrArg Info.resourceName same).symm,
        (congrArg Info.md5sum same).symm⟩
    · rintro ⟨size, name, md5sum⟩
      rw [Info.store, ← size, ← name, ← md5sum]
  | whole size name md5sum url => exact absurd rfl (cutShort size name md5sum url)

/-- What is found is taken over completely or not at all exactly if it suits the block. -/
theorem store_right_iff (idle : info.state.started = false) (isFound : foundIn memory env = .ok
    found) :
    (info.store found = info ∨ (info.store found).TookOver memory env) ↔ info.Suits found := by
  by_cases whole : ∃ size name md5sum url, found = .whole size name md5sum url
  · obtain ⟨size, name, md5sum, url, rfl⟩ := whole
    rw [tookOver_iff isFound, or_iff_right]
    intro same
    have state : State.start = info.state := congrArg Info.state same
    rw [← state] at idle
    cases idle
  · have cutShort : ∀ size name md5sum url, found ≠ .whole size name md5sum url :=
      fun size name md5sum url isWhole => whole ⟨size, name, md5sum, url, isWhole⟩
    rw [store_eq_iff cutShort, or_iff_left]
    intro took
    have state : (info.store found).state = info.state := by
      cases found with
      | whole size name md5sum url => exact absurd rfl (cutShort size name md5sum url)
      | _ => rfl
    rw [took.state] at state
    rw [← state] at idle
    cases idle

theorem takesTask_iff (idle : (r.info d).state.started = false) (task : IsTask d memory msgLen env) :
    r.TakesTask d memory msgLen env ↔
      ∀ found, foundIn memory env = .ok found → (r.info d).Suits found := by
  rw [Context.TakesTask, resourceCallback_task idle task]
  constructor
  · intro takes found isFound
    rw [isFound] at takes
    have right := (takes _ rfl).2
    rw [info_set] at right
    exact (store_right_iff idle isFound).mp right
  · intro suits r' returned
    cases isFound : foundIn memory env with
    | error fault =>
      rw [isFound] at returned
      cases returned
    | ok found =>
      rw [isFound] at returned
      cases returned
      rw [info_set, info_set_other]
      exact ⟨rfl, (store_right_iff idle isFound).mpr (suits found isFound)⟩

/-- **A task is taken over completely or not at all exactly where it suits the block:** the values in
    front of a missing one are in the block already, or all values are there and fit. -/
theorem resourceTask_takenOver_iff (idle : (r.info d).state.started = false)
    (task : IsTask d memory msgLen env) :
    r.TakesTask d memory msgLen env ↔
      ∀ found, foundIn memory env = .ok found → (r.info d).Suits found :=
  takesTask_iff idle task

end Task

/-- The values of a message can all be allocated. -/
def allocated : CallbackEnv := ⟨true, true, true, true, true, true, true, true⟩

/-- The message with the task `u` of one byte. -/
def wholeTask : List UInt8 :=
  utf8 "\x7b\"type\":\"download\",\"size\":1,\"name\":\"n\",\"md5sum\":\"m\",\"url\":\"u\"\x7d" ++ [0]

theorem resourceTask_takenOver_one :
    Context.initial.TakesTask .download wholeTask 64 allocated := by
  have task : IsTask .download wholeTask 64 allocated :=
    ⟨by decide, by decide +kernel, textOf (utf8 "download"), by decide +kernel, by decide +kernel⟩
  refine (resourceTask_takenOver_iff rfl task).mpr fun found isFound => ?_
  have isWhole : foundIn wholeTask allocated = .ok (.whole (textOf (utf8 "1")) (textOf (utf8 "n"))
      (textOf (utf8 "m")) (textOf (utf8 "u"))) := by decide +kernel
  cases isWhole.symm.trans isFound
  exact ⟨⟨1, by decide +kernel, by decide, by decide⟩, by decide +kernel, by decide +kernel,
    by decide +kernel⟩

/-- A task without a name. -/
def namelessTask : List UInt8 := utf8 "\x7b\"type\":\"download\",\"size\":1\x7d" ++ [0]

/-- The size of a task that is refused stays in the block. -/
theorem namelessTask_stays : ¬ Context.initial.TakesTask .download namelessTask 30 allocated := by
  have task : IsTask .download namelessTask 30 allocated :=
    ⟨by decide, by decide +kernel, textOf (utf8 "download"), by decide +kernel, by decide +kernel⟩
  have nameless : foundIn namelessTask allocated = .ok (.noName (textOf (utf8 "1"))) := by
    decide +kernel
  intro takes
  have size : (0 : UInt32) = atoiWord (textOf (utf8 "1")) := (takesTask_iff rfl task).mp takes _
      nameless
  revert size
  decide +kernel

end QcloudIot.Resource
