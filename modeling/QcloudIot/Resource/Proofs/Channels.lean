import QcloudIot.Resource.Client
import QcloudIot.Misc.Run

/-!
# The life of the transfer channels

A channel is given back by the next start of its direction and by `IOT_Resource_DeInit`. The
report of a result clears the whole block of its direction, the channel with it, and a
connection whose host cannot be read leaves a channel that cannot be deinitialised. In a run
without either, every channel is given back once.
-/

namespace QcloudIot.Resource

open Mqtt (CStr)
open Json (Overrun)
open Ota (Stored utf8)
open Http (Crash ConnectEnv FetchResult NetworkStack toInt32 httpClientParseHost
  httpClientMaxHostLen qcloudHttpClientCommon qcloudHttpClientConnect fetchCode)

/-! ## What a call does to the channels -/

/-- The channel as its deinitialisation sees it: its identity, and whether the function pointers
    are set. -/
def Info.handle (info : Info) : Option (Nat × Bool) :=
  info.channel.map fun channel => (channel.ident, channel.stack.functions)

/-- Reports are sent from `r` to `r'`, and each meets `P`. -/
def Context.Sends (P : Report → Prop) (r r' : Context) : Prop :=
  ∃ sent, r'.reports = r.reports ++ sent ∧ ∀ report ∈ sent, P report

/-- Every direction whose result was reported is left in the state `INITED`. -/
def Context.Settled (r r' : Context) : Prop :=
  r.Sends (fun report => report.IsResult → (r'.info report.direction).state = .inited) r'

/-- The block stays initialised. -/
def Info.StaysInited (info info' : Info) : Prop :=
  info'.state = info.state ∨ info'.state ≠ .uninited

/-- No channel is made, given up or given back, and every report meets `P`. -/
structure Context.Keeps (P : Report → Prop) (r r' : Context) : Prop where
  download : r'.download.handle = r.download.handle
  upload : r'.upload.handle = r.upload.handle
  inited : ∀ d, (r.info d).StaysInited (r'.info d)
  minted : r'.minted = r.minted
  released : r'.released = r.released
  destroyed : r'.destroyed = r.destroyed
  sends : r.Sends P r'

/-- The channels are kept, and no result is reported. -/
abbrev Context.Quiet (r r' : Context) : Prop := r.Keeps (fun report => ¬ report.IsResult) r'

/-- The channels are kept, and a result leaves its direction in the state `INITED`. -/
abbrev Context.Settles (r r' : Context) : Prop :=
  r.Keeps (fun report => report.IsResult → (r'.info report.direction).state = .inited) r'

variable {P Q : Report → Prop} {r r' r'' : Context}

theorem Context.Sends.none (reports : r'.reports = r.reports) : r.Sends P r' :=
  ⟨[], by rw [reports, List.append_nil], fun _ member => absurd member List.not_mem_nil⟩

theorem Context.Sends.trans (first : r.Sends P r') (second : r'.Sends P r'') : r.Sends P r'' := by
  obtain ⟨sent, grown, meets⟩ := first
  obtain ⟨more, grown', meets'⟩ := second
  refine ⟨sent ++ more, by rw [grown', grown, List.append_assoc], ?_⟩
  intro report member
  rcases List.mem_append.mp member with early | late
  · exact meets report early
  · exact meets' report late

theorem Context.Sends.weaken (sends : r.Sends P r') (implies : ∀ report, P report → Q report) :
    r.Sends Q r' := by
  obtain ⟨sent, grown, meets⟩ := sends
  exact ⟨sent, grown, fun report member => implies report (meets report member)⟩

theorem Info.StaysInited.trans {info info' info'' : Info} (first : info.StaysInited info')
    (second : info'.StaysInited info'') : info.StaysInited info'' := by
  rcases second with same | known
  · rcases first with same' | known
    · exact .inl (same.trans same')
    · exact .inr (same ▸ known)
  · exact .inr known

theorem Context.Keeps.refl (r : Context) : r.Keeps P r :=
  ⟨rfl, rfl, fun _ => .inl rfl, rfl, rfl, rfl, .none rfl⟩

theorem Context.Keeps.trans (first : r.Keeps P r') (second : r'.Keeps P r'') : r.Keeps P r'' where
  download := second.download.trans first.download
  upload := second.upload.trans first.upload
  inited d := (first.inited d).trans (second.inited d)
  minted := second.minted.trans first.minted
  released := second.released.trans first.released
  destroyed := second.destroyed.trans first.destroyed
  sends := first.sends.trans second.sends

theorem Context.Keeps.weaken (keeps : r.Keeps P r') (implies : ∀ report, P report → Q report) :
    r.Keeps Q r' :=
  { keeps with sends := keeps.sends.weaken implies }

/-- What is quiet settles nothing. -/
theorem Context.Keeps.settles (quiet : r.Quiet r') : r.Settles r' :=
  quiet.weaken fun _ progress result => absurd result progress

/-- Something quiet before a result. -/
theorem Context.Keeps.thenSettles (quiet : r.Quiet r') (settles : r'.Settles r'') :
    r.Settles r'' :=
  (quiet.weaken fun _ progress result => absurd result progress).trans settles

/-- The block of a direction changes, but not its channel. -/
theorem Context.Keeps.set (r : Context) (d : Direction) {info : Info}
    (same : info.handle = (r.info d).handle)
    (inited : (r.info d).StaysInited info) : r.Keeps P (r.set info d) := by
  have other : ∀ e, (r.info e).StaysInited ((r.set info d).info e) := by
    intro e
    cases d <;> cases e <;> first | exact inited | exact .inl rfl
  cases d with
  | download => exact ⟨same, rfl, other, rfl, rfl, rfl, .none rfl⟩
  | upload => exact ⟨rfl, same, other, rfl, rfl, rfl, .none rfl⟩

/-! ## Messages -/

theorem procTask_handle {info info' : Info} {memory : List UInt8} {env : CallbackEnv}
    (done : info.procTask memory env = .ok info') :
    info'.handle = info.handle ∧ info.StaysInited info' := by
  unfold Info.procTask at done
  simp only [bind, Except.bind, pure, Except.pure] at done
  by_cases started : info.state.started = true
  · rw [if_pos started] at done
    cases done
    exact ⟨rfl, .inl rfl⟩
  · rw [if_neg started] at done
    repeat' split at done
    all_goals cases done
    all_goals refine ⟨rfl, ?_⟩
    all_goals first
      | exact .inl rfl
      | exact .inr nofun

/-- A message of any type only changes the texts, the state and the result code of a block; nothing
    is reported. -/
theorem dispatch_keeps {memory : List UInt8} {env : CallbackEnv}
    (done : r.dispatch memory env = .ok r') : r.Keeps P r' := by
  unfold Context.dispatch at done
  simp only [bind, Except.bind, pure, Except.pure] at done
  cases typed : getJsonKeyValueAt memory typeKey env.type with
  | error fault => simp [typed] at done
  | ok jsonType =>
    rw [typed] at done
    cases jsonType with
    | none =>
      cases done
      exact .refl r
    | some jsonType =>
      simp only at done
      cases asked : messageType jsonType.bytes with
      | none =>
        rw [asked] at done
        cases done
        exact .refl r
      | some type =>
        rw [asked] at done
        cases type with
        | download =>
          simp only [Context.cbProcDownload, bind, Except.bind, pure, Except.pure] at done
          cases task : r.download.procTask memory env with
          | error fault => simp [task] at done
          | ok download =>
            simp only [task, Except.ok.injEq] at done
            subst done
            exact .set r .download (procTask_handle task).1 (procTask_handle task).2
        | createUploadTask =>
          simp only [Context.cbProcUpload, bind, Except.bind, pure, Except.pure] at done
          cases task : r.upload.procTask memory env with
          | error fault => simp [task] at done
          | ok upload =>
            simp only [task, Except.ok.injEq] at done
            subst done
            exact .set r .upload (procTask_handle task).1 (procTask_handle task).2
        | uploadResult =>
          simp only [Context.cbProcUploadresult, bind, Except.bind, pure, Except.pure] at done
          repeat' split at done
          all_goals cases done
          all_goals first
            | exact .refl r
            | exact .set r .upload rfl (.inl rfl)
        | progress d =>
          simp only [Context.cbProcProgress, bind, Except.bind, pure, Except.pure] at done
          repeat' split at done
          all_goals cases done
          all_goals first
            | exact .refl r
            | exact .set r d rfl (.inl rfl)

theorem resourceCallback_keeps {memory : List UInt8} {msgLen : Nat} {env : CallbackEnv}
    (done : r.resourceCallback memory msgLen env = .ok r') : r.Keeps P r' := by
  unfold Context.resourceCallback at done
  by_cases empty : msgLen = 0
  · rw [if_pos empty] at done
    cases done
    exact .refl r
  · rw [if_neg empty] at done
    exact dispatch_keeps done

theorem arrive_keeps {arrivals : List Arrival} (done : r.arrive arrivals = .ok r') :
    r.Keeps P r' := by
  induction arrivals generalizing r with
  | nil =>
    cases done
    exact .refl _
  | cons arrival arrivals ih =>
    simp only [Context.arrive, bind, Except.bind] at done
    cases first : r.resourceCallback arrival.memory arrival.msgLen arrival.env with
    | error fault => simp [first] at done
    | ok middle =>
      rw [first] at done
      exact (resourceCallback_keeps first).trans (ih done)

theorem waitResult_keeps {waits : List Wait} {ret : Int}
    (done : r.waitResult waits = .ok (ret, r')) : r.Keeps P r' := by
  induction waits generalizing r with
  | nil =>
    cases done
    exact .refl _
  | cons wait waits ih =>
    simp only [Context.waitResult, bind, Except.bind, pure, Except.pure] at done
    cases first : r.arrive wait.arrivals with
    | error fault => simp [first] at done
    | ok middle =>
      have quiet := arrive_keeps (P := P) first
      simp only [first] at done
      by_cases failed : ¬ wait.succeeds
      · rw [if_pos failed] at done
        cases done
        exact quiet
      · rw [if_neg failed] at done
        by_cases answered : toInt32 middle.upload.resultCode.toNat ≠ -1
        · rw [if_pos answered] at done
          cases done
          exact quiet
        · rw [if_neg answered] at done
          exact quiet.trans (ih done)

/-! ## Reports -/

/-- The block changes, and a report may be sent before. -/
theorem mqttReportProgress_keeps {report : Report} (published : Int) (meets : P report) :
    r.Keeps P (r.mqttReportProgress report published).2 := by
  unfold Context.mqttReportProgress
  split
  · exact .refl r
  · refine ⟨rfl, rfl, fun d => .inl (by cases d <;> rfl), rfl, rfl, rfl, [report], rfl, ?_⟩
    intro other member
    rw [List.mem_singleton.mp member]
    exact meets

theorem mqttReportProgress_info {report : Report} (published : Int) (d : Direction) :
    ((r.mqttReportProgress report published).2.info d) = r.info d := by
  unfold Context.mqttReportProgress
  split
  · rfl
  · cases d <;> rfl

theorem reportProgress_quiet (d : Direction) (progress published : Int) :
    r.Quiet (r.reportProgress d d.running progress published).2 := by
  have plain : ¬ (⟨d, d.running, 0, progress, (r.info d).nameText⟩ : Report).IsResult := by
    unfold Report.IsResult
    cases d <;> simp [Direction.running]
  unfold Context.reportProgress
  simp only
  split
  · exact .set r d rfl (.inl rfl)
  · split
    · exact .set r d rfl (.inl rfl)
    · have sent := mqttReportProgress_keeps (r := r) (P := fun report => ¬ report.IsResult)
        published plain
      split
      · exact sent.trans (.set _ d rfl (.inl rfl))
      · exact sent

/-- A direction without a channel is reset behind the reports of its result. -/
theorem Context.Keeps.reset {d : Direction}
    (keeps : r.Keeps (fun report => report.IsResult → report.direction = d) r')
    (empty : (r.info d).channel = none) : r.Settles (r'.set .reset d) := by
  have cleared : (r.info d).handle = Info.reset.handle := by
    unfold Info.handle
    rw [empty]
    rfl
  have same : r'.Keeps (fun _ => True) (r'.set .reset d) := by
    refine .set r' d (cleared.symm.trans ?_) (.inr nofun)
    cases d with
    | download => exact keeps.download.symm
    | upload => exact keeps.upload.symm
  refine { (keeps.weaken fun _ _ => trivial).trans same with sends := ?_ }
  have sends : r.Sends (fun report => report.IsResult → report.direction = d)
      (r'.set .reset d) :=
    keeps.sends.trans (.none (by cases d <;> rfl))
  refine sends.weaken fun report own result => ?_
  rw [own result]
  cases d <;> rfl

/-- Without a channel, the report of a result leaves the direction initialised. -/
theorem reportDownloadResult_settles (name : List UInt8) (resultCode published : Int)
    (empty : r.download.channel = none) :
    r.Settles (r.reportDownloadResult name resultCode published).2 := by
  unfold Context.reportDownloadResult
  split
  · exact .set r .download rfl (.inl rfl)
  · split
    · exact (Context.Keeps.refl r).reset (d := .download) empty
    · have sent := @mqttReportProgress_keeps
        (fun report => report.IsResult → report.direction = .download) r
        (resultReport .download name resultCode) published fun _ => rfl
      exact sent.reset empty

theorem reportUploadResult_settles {name : List UInt8} {resultCode ret : Int}
    {env : UploadResultEnv} (empty : r.upload.channel = none)
    (done : r.reportUploadResult name resultCode env = .ok (ret, r')) : r.Settles r' := by
  unfold Context.reportUploadResult at done
  by_cases uninited : r.upload.state = .uninited
  · rw [if_pos uninited] at done
    cases done
    exact .set r .upload rfl (.inl rfl)
  · rw [if_neg uninited] at done
    by_cases invalid : ¬ validName name
    · rw [if_pos invalid] at done
      cases done
      exact (Context.Keeps.refl r).reset (d := .upload) empty
    · rw [if_neg invalid] at done
      have waiting : r.Keeps (fun report => report.IsResult → report.direction = .upload)
          { r with upload := { r.upload with resultCode := UInt32.ofNat (Http.toUint32 (-1)) } } :=
        .set r .upload rfl (.inl rfl)
      have sent := waiting.trans (@mqttReportProgress_keeps _ _
        (resultReport .upload name resultCode) env.published fun _ => rfl)
      simp only [bind, Except.bind, pure, Except.pure] at done
      split at done
      · cases done
        exact sent.reset empty
      · split at done
        · cases done
        · rename_i waited
          cases done
          exact (sent.trans (waitResult_keeps waited)).reset empty

/-! ## Transfers -/

/-- The code of the answer is one whose result is reported. -/
def told : FetchResult → Bool
  | .bytes _ _ _ => false
  | .failed rc _ => (failureResult (fetchCode rc)).isSome

/-- What is fetched for a block fails with such a code, which that of a channel without a
    connection is. -/
def Info.fails (info : Info) (received : FetchResult) : Bool :=
  info.channel.any fun channel => !channel.stack.connected || told received

theorem uploadHttpRecv_handle (info : Info) (bufLen : Nat) (received : FetchResult) :
    { info with channel := (uploadHttpRecv info.channel bufLen received).2 }.handle =
      info.handle := by
  unfold uploadHttpRecv Info.handle
  cases info.channel with
  | none => rfl
  | some channel =>
    simp only
    split
    · rfl
    · split
      · rfl
      · cases received <;> rfl

theorem uploadHttpRecv_calm {info : Info} {bufLen : Nat} {received : FetchResult}
    (calm : bufLen ≠ 0 → info.fails received = false) :
    failureResult (uploadHttpRecv info.channel bufLen received).1 = none := by
  unfold uploadHttpRecv
  unfold Info.fails at calm
  cases present : info.channel with
  | none => rfl
  | some channel =>
    rw [present] at calm
    by_cases empty : bufLen = 0
    · simp only [if_pos empty]
      rfl
    · obtain ⟨connected, silent⟩ : channel.stack.connected = true ∧ told received = false := by
        simpa using calm empty
      simp only [if_neg empty, connected]
      cases received with
      | bytes chunk stillOpen short => rfl
      | failed rc negative => simpa [told] using silent

theorem uploadRecvResult_quiet {bufLen : Nat} {received : FetchResult} {env : UploadResultEnv}
    {ret : Int} (calm : bufLen ≠ 0 → r.upload.fails received = false)
    (done : r.uploadRecvResult bufLen received env = .ok (ret, r')) : r.Quiet r' := by
  have handle := uploadHttpRecv_handle r.upload bufLen received
  have silent := uploadHttpRecv_calm calm
  unfold Context.uploadRecvResult at done
  simp only [bind, Except.bind, pure, Except.pure] at done
  split at done
  · rw [silent] at done
    cases done
    exact .set r .upload handle (.inr nofun)
  · cases done
    exact .set r .upload handle (.inl rfl)

theorem ofcFetch_handle {info : Info} {fetched : FetchResult} {got : Int × List UInt8}
    {channel : Option Channel} (done : ofcFetch info.channel fetched = .ok (got, channel)) :
    { info with channel }.handle = info.handle := by
  unfold ofcFetch at done
  unfold Info.handle
  cases present : info.channel with
  | none => simp [present] at done
  | some old =>
    rw [present] at done
    simp only at done
    split at done
    · cases done
      rfl
    · cases fetched <;> cases done <;> rfl

theorem ofcFetch_calm {info : Info} {fetched : FetchResult} {ret : Int} {chunk : List UInt8}
    {channel : Option Channel} (calm : info.fails fetched = false)
    (done : ofcFetch info.channel fetched = .ok ((ret, chunk), channel)) (failed : ret < 0) :
    failureResult ret = none := by
  unfold ofcFetch at done
  unfold Info.fails at calm
  cases present : info.channel with
  | none => simp [present] at done
  | some old =>
    rw [present] at done calm
    obtain ⟨connected, silent⟩ : old.stack.connected = true ∧ told fetched = false := by
      simpa using calm
    simp only [connected] at done
    cases fetched with
    | bytes chunk stillOpen short =>
      cases done
      omega
    | failed rc negative =>
      cases done
      simpa [told] using silent

theorem reportBegin_quiet (d : Direction) (published : Int) :
    r.Quiet (r.reportBegin d published) := by
  unfold Context.reportBegin
  split
  · exact reportProgress_quiet d 0 published
  · exact .refl r

theorem reportPercent_quiet (d : Direction) (percent : UInt32) (expired : Bool) (published : Int) :
    r.Quiet (r.reportPercent d percent expired published) := by
  unfold Context.reportPercent
  split
  · exact reportProgress_quiet d _ published
  · exact .refl r

/-- The progress that is reported while bytes go on is no result. -/
theorem progress_quiet {d : Direction} {len : Nat} {expired : Bool} {begun progress : Int}
    (done : r.progress d len expired begun progress = .ok r') : r.Quiet r' := by
  have first := reportBegin_quiet (r := r) d begun
  unfold Context.progress at done
  simp only [bind, Except.bind, pure, Except.pure] at done
  split at done
  · cases done
  · cases done
    refine first.trans (.trans ?_ (reportPercent_quiet d _ expired progress))
    exact .set _ d rfl (.inl rfl)

/-- A download that has got bytes reports its progress. -/
theorem downloadDone_quiet {chunk : List UInt8} {env : DownloadEnv}
    (done : r.downloadDone chunk env = .ok r') : r.Quiet r' := by
  unfold Context.downloadDone at done
  simp only [bind, Except.bind, pure, Except.pure] at done
  cases counted : r.progress .download chunk.length env.expired env.beginPublished
      env.progressPublished with
  | error crash => simp [counted] at done
  | ok middle =>
    refine (progress_quiet counted).trans ?_
    rw [counted] at done
    simp only at done
    split at done
    · cases done
      exact .set middle .download rfl (.inr nofun)
    · cases done
      exact .set middle .download rfl (.inl rfl)

@[simp] theorem info_set (r : Context) (info : Info) (d : Direction) :
    (r.set info d).info d = info := by
  cases d <;> rfl

/-- The report of a progress only leaves an error in the block. -/
theorem reportProgress_info (d : Direction) (kind : ReportKind) (progress published : Int) :
    ∃ err, (r.reportProgress d kind progress published).2.info d = { r.info d with err } := by
  unfold Context.reportProgress
  simp only
  split
  · exact ⟨_, info_set r _ d⟩
  · split
    · exact ⟨_, info_set r _ d⟩
    · have same := @mqttReportProgress_info r
        ⟨d, kind, 0, progress, (r.info d).nameText⟩ published d
      split
      · rw [info_set, same]
        exact ⟨_, rfl⟩
      · rw [same]
        exact ⟨_, rfl⟩

/-- The block behind the progress reports: the bytes are counted. -/
theorem progress_info {d : Direction} {len : Nat} {expired : Bool} {begun progress : Int}
    (done : r.progress d len expired begun progress = .ok r') :
    ∃ err, r'.info d = { (r.info d).counted len with err } := by
  obtain ⟨first, begins⟩ : ∃ err, (r.reportBegin d begun).info d = { r.info d with err } := by
    unfold Context.reportBegin
    split
    · exact reportProgress_info d d.running 0 begun
    · exact ⟨_, rfl⟩
  unfold Context.progress at done
  simp only [bind, Except.bind, pure, Except.pure] at done
  split at done
  · cases done
  · rename_i percent _
    cases done
    rw [begins]
    unfold Context.reportPercent
    split
    · obtain ⟨err, ends⟩ := reportProgress_info
        (r := (r.reportBegin d begun).set ({ r.info d with err := first }.counted len) d)
        d d.running (toInt32 percent.toNat) progress
      rw [ends, info_set]
      exact ⟨err, rfl⟩
    · rw [info_set]
      exact ⟨first, rfl⟩

/-- The upload is complete behind a number of bytes. -/
def Info.completes (info : Info) (len : Nat) : Prop :=
  (info.counted len).sizePrepared ≥ info.resourceSize

instance (info : Info) (len : Nat) : Decidable (info.completes len) := by
  unfold Info.completes
  infer_instance

theorem uploadSent_quiet {buf : List UInt8} {env : UploadEnv} {ret : Int}
    (calm : r.upload.completes buf.length → r.upload.fails env.received = false)
    (done : r.uploadSent buf env = .ok (ret, r')) : r.Quiet r' := by
  unfold Context.uploadSent at done
  simp only [bind, Except.bind, pure, Except.pure] at done
  cases counted : r.progress .upload buf.length env.expired env.beginPublished
      env.progressPublished with
  | error crash => simp [counted, ofCrash] at done
  | ok middle =>
    have quiet := progress_quiet counted
    obtain ⟨err, block⟩ := progress_info counted
    have upload : middle.upload = { r.upload.counted buf.length with err } := block
    simp only [counted, ofCrash] at done
    split at done
    · rename_i complete
      have silent : r.upload.fails env.received = false := by
        rw [upload] at complete
        exact calm complete
      have ended : middle.Quiet { middle with upload := { middle.upload with
          md5 := Md5.utilsMd5Update middle.upload.md5 buf, state := .fin } } :=
        .set middle .upload rfl (.inr nofun)
      cases answered : Context.uploadRecvResult { middle with upload := { middle.upload with
          md5 := Md5.utilsMd5Update middle.upload.md5 buf, state := .fin } } buf.length
          env.received env.recvResult with
      | error fault => simp [answered, ofFault] at done
      | ok result =>
        simp only [answered, ofFault] at done
        cases done
        refine (quiet.trans ended).trans (uploadRecvResult_quiet (fun _ => ?_) answered)
        rw [upload]
        exact silent
    · cases done
      exact quiet.trans (.set middle .upload rfl (.inl rfl))

/-- A yield that goes on (`QCLOUD_RESOURCE_STATE_START_E` without a result code). -/
def Info.transfers (info : Info) : Bool := info.state = .start ∧ info.resultCode = 0

theorem uploadYield_quiet {buf : List UInt8} {env : UploadEnv} {ret : Int}
    (calm : buf.length ≠ 0 → r.upload.transfers = true →
      (r.upload.channel ≠ none → env.written = true) ∧
      (r.upload.completes buf.length → r.upload.fails env.received = false))
    (done : r.uploadYield buf env = .ok (ret, r')) : r.Quiet r' := by
  unfold Context.uploadYield at done
  simp only [bind, Except.bind, pure, Except.pure] at done
  split at done
  · cases done
    exact .refl r
  · rename_i filled
    split at done
    · cases done
      exact .set r .upload rfl (.inl rfl)
    · rename_i running
      have transfers : r.upload.transfers = true := by
        unfold Info.transfers
        simpa [not_or] using running
      cases present : r.upload.channel with
      | none =>
        rw [present] at done
        have closed : ¬ (Http.qcloudErrInval = Http.qcloudErrHttpClosed ∨
            Http.qcloudErrInval = Http.qcloudErrHttpConn) := by decide
        have negative : Http.qcloudErrInval < 0 := by decide
        simp only [uploadHttpSendBody, ofCrash, Context.uploadFailed, if_pos negative,
          if_neg closed, pure, Except.pure, ofFault] at done
        cases done
        exact .set r .upload rfl (.inr fun same => by cases same)
      | some channel =>
        have sent := (calm filled transfers).1 (by simp [present])
        simp only [uploadHttpSendBody, present, sent, if_true] at done
        split at done
        · cases done
        · rename_i ret accepted
          split at accepted
          · cases accepted
          · cases accepted
            rw [if_neg (by decide)] at done
            exact uploadSent_quiet (calm filled transfers).2 done

theorem downloadYield_quiet {bufLen : UInt32} {env : DownloadEnv} {ret : Int}
    (calm : bufLen ≠ 0 → r.download.transfers = true → r.download.fails env.fetched = false)
    (done : r.downloadYield bufLen env = .ok (ret, r')) : r.Quiet r' := by
  unfold Context.downloadYield at done
  simp only [bind, Except.bind, pure, Except.pure] at done
  split at done
  · cases done
    exact .refl r
  · rename_i room
    split at done
    · cases done
      exact .set r .download rfl (.inl rfl)
    · rename_i running
      have silent := calm room (by
        unfold Info.transfers
        simpa [not_or] using running)
      cases fetched : ofcFetch r.download.channel env.fetched with
      | error crash => simp [fetched] at done
      | ok result =>
        obtain ⟨⟨code, chunk⟩, channel⟩ := result
        have kept : r.Quiet { r with download := { r.download with channel } } :=
          .set r .download (ofcFetch_handle fetched) (.inl rfl)
        simp only [fetched] at done
        split at done
        · rename_i failed
          have none := ofcFetch_calm silent fetched failed
          simp only [Context.downloadFailed, none] at done
          cases done
          exact kept.trans (.set _ .download rfl (.inr fun same => by cases same))
        · split at done
          · cases done
          · rename_i finished
            cases done
            exact kept.trans (downloadDone_quiet finished)

/-! ## Questions -/

theorem isStart_quiet (d : Direction) : r.Quiet (r.isStart d).2 := by
  unfold Context.isStart
  split
  · exact .set r d rfl (.inl rfl)
  · exact .set r d rfl (.inl rfl)

/-- A check of the digest reports a result if it fails. -/
theorem downloadIoctl_settles (type : CmdType) (bufLen : Nat) (aligned : Bool) (published : Int)
    (calm : type = .md5check → bufLen = 4 → aligned = true → r.download.state = .fin →
      r.download.channel = none ∨ r.download.digestMatches = true) :
    r.Settles (r.downloadIoctl type bufLen aligned published).2.2 := by
  have failed : ∀ err, r.Settles { r with download := { r.download with err } } :=
    fun err => .set r .download rfl (.inl rfl)
  unfold Context.downloadIoctl
  simp only
  split
  · exact .refl r
  · split
    · exact failed _
    · cases type with
      | fetchedSize | size =>
        simp only
        split
        · exact failed _
        · exact .refl r
      | name | md5sum => exact .refl r
      | uploadedSize => exact failed _
      | md5check =>
        simp only
        split
        · exact failed _
        · rename_i asked
          split
          · exact failed _
          · rename_i ended
            have finished : r.Quiet { r with download := { r.download with
                md5 := (Md5.utilsMd5Finish r.download.md5).1 } } := .set r .download rfl (.inl rfl)
            unfold Context.md5CheckDownload
            simp only
            rw [not_or, not_not, not_not] at asked
            rcases calm rfl asked.1 asked.2 (not_not.mp ended) with empty | matched
            · split
              · exact finished.settles
              · exact finished.thenSettles (reportDownloadResult_settles _ _ published empty)
            · rw [if_pos matched]
              exact finished.settles

theorem uploadIoctl_settles {type : CmdType} {bufLen : Nat} {aligned : Bool}
    {env : UploadResultEnv} {ret : Int} {stored : Option Stored}
    (calm : type = .md5check → bufLen = 4 → aligned = true → r.upload.state = .fin →
      r.upload.channel = none ∨ r.upload.digestMatches = true)
    (done : r.uploadIoctl type bufLen aligned env = .ok (ret, stored, r')) : r.Settles r' := by
  have failed : ∀ err, r.Settles { r with upload := { r.upload with err } } :=
    fun err => .set r .upload rfl (.inl rfl)
  unfold Context.uploadIoctl at done
  simp only [pure, Except.pure] at done
  split at done
  · cases done
    exact .refl r
  · split at done
    · cases done
      exact failed _
    · cases type with
      | fetchedSize =>
        simp only at done
        split at done
        · cases done
          exact .set r .download rfl (.inl rfl)
        · cases done
          exact .refl r
      | uploadedSize | size =>
        simp only at done
        split at done
        · cases done
          exact failed _
        · cases done
          exact .refl r
      | name | md5sum =>
        cases done
        exact .refl r
      | md5check =>
        simp only at done
        split at done
        · cases done
          exact failed _
        · rename_i asked
          split at done
          · cases done
            exact failed _
          · rename_i ended
            have finished : r.Quiet { r with upload := { r.upload with
                md5 := (Md5.utilsMd5Finish r.upload.md5).1 } } := .set r .upload rfl (.inl rfl)
            unfold Context.md5CheckUpload at done
            simp only [bind, Except.bind, pure, Except.pure] at done
            rw [not_or, not_not, not_not] at asked
            split at done
            · cases done
              exact finished.settles
            · rename_i differs
              rcases calm rfl asked.1 asked.2 (not_not.mp ended) with empty | matched
              · split at done
                · cases done
                · rename_i told
                  cases done
                  exact finished.thenSettles (reportUploadResult_settles empty told)
              · exact absurd matched differs

/-! ## Channels that are accounted for -/

/-- The identities of the channels that the context holds. -/
def Context.held (r : Context) : List Nat :=
  (r.download.handle.toList ++ r.upload.handle.toList).map (·.1)

/-- Every channel that was initialised is held or was given back, once; and those that are held
    can be deinitialised. -/
structure Context.Sound (r : Context) : Prop where
  accounted : (r.released ++ r.held).Perm (List.range r.minted)
  functions : ∀ d handle, (r.info d).handle = some handle → handle.2 = true
  inited : ∀ d, (r.info d).state ≠ .uninited

theorem sound_initial : Context.initial.Sound where
  accounted := by decide
  functions := by
    intro d handle held
    cases d <;> cases held
  inited := by
    intro d
    cases d <;> decide

theorem Context.Sound.keeps (sound : r.Sound) (keeps : r.Keeps P r') : r'.Sound where
  accounted := by
    unfold Context.held
    rw [keeps.released, keeps.minted, keeps.download, keeps.upload]
    exact sound.accounted
  functions := by
    intro d handle held
    cases d with
    | download => exact sound.functions .download handle (keeps.download.symm.trans held)
    | upload => exact sound.functions .upload handle (keeps.upload.symm.trans held)
  inited := by
    intro d
    rcases keeps.inited d with same | known
    · rw [same]
      exact sound.inited d
    · exact known

/-- A channel with its function pointers set is given back. -/
theorem deinitChannel_released {info : Info}
    (functions : ∀ handle, info.handle = some handle → handle.2 = true) :
    r.deinitChannel info.channel =
      .ok { r with released := r.released ++ info.handle.toList.map (·.1) } := by
  unfold Info.handle at functions ⊢
  cases present : info.channel with
  | none => simp [Context.deinitChannel]
  | some channel =>
    have set : channel.stack.functions = true := functions _ (by rw [present]; rfl)
    simp [Context.deinitChannel, NetworkStack.release, set, bind, Except.bind, pure, Except.pure]

/-- The host of the url of a block can be read. -/
def Info.hostKnown (info : Info) : Bool :=
  (httpClientParseHost info.urlText httpClientMaxHostLen).toOption.isSome

/-- A connection sets the function pointers of the network once the host is known. -/
theorem qcloudHttpClientConnect_functions {url : List UInt8} (env : ConnectEnv)
    (known : (httpClientParseHost url httpClientMaxHostLen).toOption.isSome = true) :
    (qcloudHttpClientConnect .cleared url env).2.functions = true := by
  cases host : httpClientParseHost url httpClientMaxHostLen with
  | error rc => simp [host, Except.toOption] at known
  | ok name =>
    simp only [qcloudHttpClientConnect, NetworkStack.cleared, host, Bool.false_eq_true, if_false]
    split_ifs <;> rfl

theorem qcloudHttpClientCommon_functions {url : List UInt8} (env : ConnectEnv)
    (known : (httpClientParseHost url httpClientMaxHostLen).toOption.isSome = true) :
    (qcloudHttpClientCommon .cleared url env).2.functions = true := by
  have connected := qcloudHttpClientConnect_functions env known
  have closed : NetworkStack.cleared.connected = false := rfl
  simp only [qcloudHttpClientCommon, closed, Bool.false_eq_true, if_false]
  split
  · exact connected
  · split
    · exact connected
    · exact connected

theorem info_released (r : Context) (released : List Nat) (d : Direction) :
    ({ r with released } : Context).info d = r.info d := by
  cases d <;> rfl

/-- What a start makes of the context: the channel of the direction is given back, and a new one
    takes its place unless the memory for it is missing. -/
theorem reconnect_eq {d : Direction} {env : StartEnv} {ret : Int} (sound : r.Sound)
    (known : env.allocated = true → (r.info d).hostKnown = true)
    (done : r.reconnect d env = .ok (ret, r')) :
    ∃ info : Info, r' = { r.set info d with
        released := r.released ++ (r.info d).handle.toList.map (·.1)
        minted := r.minted + info.handle.toList.length } ∧
      (info.handle = none ∨ info.handle = some (r.minted, true)) ∧
      (r.info d).StaysInited info := by
  unfold Context.reconnect at done
  simp only [bind, Except.bind, pure, Except.pure,
    deinitChannel_released (sound.functions d), info_released] at done
  split at done
  · cases done
    exact ⟨{ r.info d with channel := none }, by cases d <;> rfl, .inl rfl, .inl rfl⟩
  · rename_i allocated
    have functions := qcloudHttpClientCommon_functions env.connect
      (known (by simpa using allocated))
    generalize qcloudHttpClientCommon .cleared (r.info d).urlText env.connect = answer
      at done functions
    cases done
    split
    · refine ⟨{ r.info d with channel := some ⟨r.minted, answer.2⟩, state := .disconnected },
        by cases d <;> rfl, .inr ?_, .inr nofun⟩
      simp only [Info.handle, Option.map_some, functions]
    · refine ⟨{ r.info d with channel := some ⟨r.minted, answer.2⟩ }, by cases d <;> rfl, .inr ?_,
        .inl rfl⟩
      simp only [Info.handle, Option.map_some, functions]

/-- A start keeps the channels accounted for. -/
theorem reconnect_sound {d : Direction} {env : StartEnv} {ret : Int} (sound : r.Sound)
    (known : env.allocated = true → (r.info d).hostKnown = true)
    (done : r.reconnect d env = .ok (ret, r')) : r'.Sound := by
  obtain ⟨info, rfl, fresh, inited⟩ := reconnect_eq sound known done
  have accounted := List.perm_iff_count.mp sound.accounted
  refine ⟨List.perm_iff_count.mpr fun ident => ?_, ?_, ?_⟩
  · have count := accounted ident
    rcases fresh with empty | new
    · cases d <;> simp [Context.held, Context.set, Context.info, empty] at count ⊢ <;> omega
    · cases d <;>
        simp [Context.held, Context.set, Context.info, new, List.range_succ, List.count_cons]
          at count ⊢ <;> omega
  · intro other handle held
    have new : info.handle = some handle → handle.2 = true := by
      intro found
      rcases fresh with empty | fresh
      · rw [empty] at found
        cases found
      · rw [fresh] at found
        cases found
        rfl
    have old := sound.functions other handle
    cases d <;> cases other <;> first | exact new held | exact old held
  · intro other
    have new : info.state ≠ .uninited := by
      rcases inited with same | known
      · rw [same]
        exact sound.inited d
      · exact known
    have old := sound.inited other
    cases d <;> cases other <;> first | exact new | exact old

/-- A start, which first changes the block of its direction, reports nothing. -/
theorem reconnect_settled {d : Direction} {env : StartEnv} {ret : Int} (sound : r.Sound)
    (quiet : r.Quiet r') (known : env.allocated = true → (r'.info d).hostKnown = true)
    (done : r'.reconnect d env = .ok (ret, r'')) :
    r.Settled r'' ∧ r''.Sound ∧ r''.destroyed = r.destroyed := by
  have sound' := sound.keeps quiet
  have ready := reconnect_sound sound' known done
  obtain ⟨info, rfl, _⟩ := reconnect_eq sound' known done
  have destroyed : (r'.set info d).destroyed = r'.destroyed := by cases d <;> rfl
  have reports : (r'.set info d).reports = r'.reports := by cases d <;> rfl
  refine ⟨?_, ready, destroyed.trans quiet.destroyed⟩
  exact (quiet.sends.weaken fun _ progress result => absurd result progress).trans (.none reports)

/-- Channels whose function pointers are set can be given back. -/
theorem deInit_returns (sound : r.Sound) :
    r.deInit = .ok (qcloudRetSuccess,
      { r with released := r.released ++ r.held, destroyed := true }) := by
  have download := @deinitChannel_released r r.download (sound.functions .download)
  have upload := @deinitChannel_released
    { r with released := r.released ++ r.download.handle.toList.map (·.1) } r.upload
    (sound.functions .upload)
  have downInited : r.download.state ≠ .uninited := sound.inited .download
  have upInited : r.upload.state ≠ .uninited := sound.inited .upload
  unfold Context.deInit Context.held
  rw [if_neg downInited, if_neg upInited]
  simp only [bind, Except.bind, pure, Except.pure, download, upload, List.map_append,
    List.append_assoc]

/-! ## Runs -/

/-- The call reports no result of a direction that holds a channel, and connects no channel to a
    url whose host cannot be read. -/
def Context.Careful (r : Context) : Action → Prop
  | .message _ | .isStart _ | .deInit => True
  | .startDownload _ env => env.allocated = true → r.download.hostKnown = true
  | .startUpload env => env.allocated = true → r.upload.hostKnown = true
  | .downloadYield bufLen env =>
    bufLen ≠ 0 → r.download.transfers = true → r.download.fails env.fetched = false
  | .uploadYield buf env => buf.length ≠ 0 → r.upload.transfers = true →
    (r.upload.channel ≠ none → env.written = true) ∧
    (r.upload.completes buf.length → r.upload.fails env.received = false)
  | .uploadRecvResult bufLen received _ => bufLen ≠ 0 → r.upload.fails received = false
  | .downloadIoctl type bufLen aligned _ =>
    type = .md5check → bufLen = 4 → aligned = true → r.download.state = .fin →
      r.download.channel = none ∨ r.download.digestMatches = true
  | .uploadIoctl type bufLen aligned _ =>
    type = .md5check → bufLen = 4 → aligned = true → r.upload.state = .fin →
      r.upload.channel = none ∨ r.upload.digestMatches = true
  | .reportDownload _ _ _ => r.download.channel = none
  | .reportUpload _ _ _ => r.upload.channel = none

/-- What holds in every state of a run: no function pointer was called that was not set, the
    channels of a context that was given back were each given back once, and a context that is
    still used can be given back. -/
structure Client.Clean (s : Client) : Prop where
  functions : s.halted ≠ some (.crash .unsetFunction)
  returned : s.context.destroyed = true →
    s.context.released.Perm (List.range s.context.minted)
  returns : s.halted = none → s.context.destroyed = false →
    (s.step .deInit).context.destroyed = true ∧ (s.step .deInit).halted = none

/-- The invariant of careful runs. -/
structure Client.Invariant (s : Client) : Prop where
  functions : s.halted ≠ some (.crash .unsetFunction)
  returned : s.context.destroyed = true →
    s.context.released.Perm (List.range s.context.minted)
  sound : s.context.destroyed = false → s.context.Sound

theorem Client.Invariant.clean {s : Client} (invariant : s.Invariant) : s.Clean := by
  refine ⟨invariant.functions, invariant.returned, ?_⟩
  intro running used
  have done := deInit_returns (invariant.sound used)
  simp [Client.step, running, used, Context.after, done, Except.map, ofCrash]

theorem ofFault_ok {α : Type} {call : Except Overrun α} {a : α} (done : ofFault call = .ok a) :
    call = .ok a := by
  cases call with
  | error fault => cases done
  | ok value =>
    cases done
    rfl

theorem ofCrash_ok {α : Type} {call : Except Crash α} {a : α} (done : ofCrash call = .ok a) :
    call = .ok a := by
  cases call with
  | error crash => cases done
  | ok value =>
    cases done
    rfl

theorem map_ok {ε α β : Type} {call : Except ε α} {f : α → β} {b : β}
    (done : call.map f = .ok b) : ∃ a, call = .ok a ∧ f a = b := by
  cases call with
  | error fault => cases done
  | ok value =>
    cases done
    exact ⟨value, rfl, rfl⟩

/-- A careful call of a context in use that returns: the channels stay accounted for, and a result
    leaves its direction initialised. -/
theorem after_careful {action : Action} (sound : r.Sound) (careful : r.Careful action)
    (done : r.after action = .ok r') :
    r.Settled r' ∧
      (r'.Sound ∧ r'.destroyed = r.destroyed ∨
        r'.destroyed = true ∧ r'.released.Perm (List.range r'.minted)) := by
  have kept : r.Settles r' → r.Settled r' ∧
      (r'.Sound ∧ r'.destroyed = r.destroyed ∨
        r'.destroyed = true ∧ r'.released.Perm (List.range r'.minted)) :=
    fun settles => ⟨settles.sends, .inl ⟨sound.keeps settles, settles.destroyed⟩⟩
  cases action with
  | message arrival => exact kept (resourceCallback_keeps (ofFault_ok done)).settles
  | isStart d =>
    cases done
    exact kept (isStart_quiet d).settles
  | startDownload offset env =>
    obtain ⟨⟨ret, context⟩, started, rfl⟩ := map_ok (ofCrash_ok done)
    have begun : r.Quiet { r with download := { r.download with
        sizePrepared := offset
        md5 := if offset = 0 then Md5.utilsMd5Starts else r.download.md5 } } :=
      .set r .download rfl (.inl rfl)
    obtain ⟨settled, kept⟩ := reconnect_settled (d := .download) sound begun careful started
    exact ⟨settled, .inl kept⟩
  | startUpload env =>
    obtain ⟨⟨ret, context⟩, started, rfl⟩ := map_ok (ofCrash_ok done)
    have begun : r.Quiet { r with upload := { r.upload with
        sizeLast := 0, sizePrepared := 0, md5 := Md5.utilsMd5Starts } } := .set r .upload rfl (.inl
            rfl)
    obtain ⟨settled, kept⟩ := reconnect_settled (d := .upload) sound begun careful started
    exact ⟨settled, .inl kept⟩
  | downloadYield bufLen env =>
    obtain ⟨⟨ret, context⟩, yielded, rfl⟩ := map_ok (ofCrash_ok done)
    exact kept (downloadYield_quiet careful yielded).settles
  | uploadYield buf env =>
    obtain ⟨⟨ret, context⟩, yielded, rfl⟩ := map_ok done
    exact kept (uploadYield_quiet careful yielded).settles
  | uploadRecvResult bufLen received env =>
    obtain ⟨⟨ret, context⟩, answered, rfl⟩ := map_ok (ofFault_ok done)
    exact kept (uploadRecvResult_quiet careful answered).settles
  | downloadIoctl type bufLen aligned published =>
    cases done
    exact kept (downloadIoctl_settles type bufLen aligned published careful)
  | uploadIoctl type bufLen aligned env =>
    obtain ⟨⟨ret, stored, context⟩, answered, rfl⟩ := map_ok (ofFault_ok done)
    exact kept (uploadIoctl_settles careful answered)
  | reportDownload success name published =>
    have told := fun resultCode => reportDownloadResult_settles
      (r.download.reportedName name) resultCode published careful
    cases success with
    | true =>
      cases done
      exact kept (told resultcodeSuccess)
    | false =>
      cases done
      exact kept (told resultcodeTimeout)
  | reportUpload success name env =>
    obtain ⟨⟨ret, context⟩, reported, rfl⟩ := map_ok (ofFault_ok done)
    cases success with
    | true =>
      have told : r.reportUploadResult (r.upload.reportedName name) resultcodeSuccess env =
          .ok (ret, context) := reported
      exact kept (reportUploadResult_settles careful told)
    | false =>
      have told : r.reportUploadResult (r.upload.reportedName name) resultcodeTimeout env =
          .ok (ret, context) := reported
      exact kept (reportUploadResult_settles careful told)
  | deInit =>
    obtain ⟨⟨ret, context⟩, ended, rfl⟩ := map_ok (ofCrash_ok done)
    rw [deInit_returns sound] at ended
    cases ended
    exact ⟨.none rfl, .inr ⟨rfl, sound.accounted⟩⟩

theorem ofFault_crash {α : Type} {call : Except Overrun α} {crash : Crash} :
    ofFault call ≠ .error (.crash crash) := by
  cases call <;> simp [ofFault]

theorem ofCrash_crash {α : Type} {call : Except Crash α} {crash : Crash}
    (crashed : ofCrash call = .error (.crash crash)) : call = .error crash := by
  cases call with
  | error other =>
    cases crashed
    rfl
  | ok value => cases crashed

theorem map_error {ε α β : Type} {call : Except ε α} {f : α → β} {e : ε}
    (failed : call.map f = .error e) : call = .error e := by
  cases call with
  | error other =>
    cases failed
    rfl
  | ok value => cases failed

theorem reconnect_returns (sound : r.Sound) (d : Direction) (env : StartEnv) (crash : Crash) :
    r.reconnect d env ≠ .error crash := by
  intro crashed
  unfold Context.reconnect at crashed
  simp only [bind, Except.bind, pure, Except.pure,
    deinitChannel_released (sound.functions d)] at crashed
  split at crashed <;> cases crashed

theorem progress_functions (d : Direction) (len : Nat) (expired : Bool) (begun progress : Int) :
    r.progress d len expired begun progress ≠ .error .unsetFunction := by
  intro crashed
  simp only [Context.progress, bind, Except.bind, pure, Except.pure] at crashed
  split at crashed
  · rename_i divided
    unfold percentOf at divided
    split at divided
    · cases divided
      cases crashed
    · cases divided
  · cases crashed

theorem downloadYield_functions (bufLen : UInt32) (env : DownloadEnv) :
    r.downloadYield bufLen env ≠ .error .unsetFunction := by
  intro crashed
  unfold Context.downloadYield at crashed
  simp only [bind, Except.bind, pure, Except.pure] at crashed
  split at crashed
  · cases crashed
  · split at crashed
    · cases crashed
    · split at crashed
      · rename_i fetched
        cases crashed
        unfold ofcFetch at fetched
        split at fetched
        · cases fetched
        · split at fetched
          · cases fetched
          · split at fetched <;> cases fetched
      · split at crashed
        · cases crashed
        · split at crashed
          · rename_i finished
            cases crashed
            unfold Context.downloadDone at finished
            simp only [bind, Except.bind, pure, Except.pure] at finished
            split at finished
            · rename_i counted
              cases finished
              exact progress_functions _ _ _ _ _ counted
            · cases finished
          · cases crashed

theorem uploadSent_functions (buf : List UInt8) (env : UploadEnv) :
    r.uploadSent buf env ≠ .error (.crash .unsetFunction) := by
  intro crashed
  unfold Context.uploadSent at crashed
  simp only [bind, Except.bind, pure, Except.pure] at crashed
  split at crashed
  · rename_i counted
    cases crashed
    exact progress_functions _ _ _ _ _ (ofCrash_crash counted)
  · split at crashed
    · exact ofFault_crash crashed
    · cases crashed

theorem uploadYield_functions (sound : r.Sound) (buf : List UInt8) (env : UploadEnv) :
    r.uploadYield buf env ≠ .error (.crash .unsetFunction) := by
  intro crashed
  unfold Context.uploadYield at crashed
  simp only [bind, Except.bind, pure, Except.pure] at crashed
  split at crashed
  · cases crashed
  · split at crashed
    · cases crashed
    · split at crashed
      · rename_i sent
        cases crashed
        have unset := ofCrash_crash sent
        unfold uploadHttpSendBody at unset
        cases present : r.upload.channel with
        | none =>
          rw [present] at unset
          cases unset
        | some channel =>
          have set : channel.stack.functions = true :=
            sound.functions .upload (channel.ident, channel.stack.functions)
              (by simp [Context.info, Info.handle, present])
          rw [present] at unset
          simp [set] at unset
      · split at crashed
        · split at crashed
          · rename_i failed
            cases crashed
            exact ofFault_crash failed
          · cases crashed
        · exact uploadSent_functions buf env crashed

/-- No call of a function pointer that is not set. -/
theorem after_functions {action : Action} (sound : r.Sound) :
    r.after action ≠ .error (.crash .unsetFunction) := by
  intro crashed
  cases action with
  | message arrival => exact ofFault_crash crashed
  | isStart d => cases crashed
  | startDownload offset env =>
    have begun : r.Quiet { r with download := { r.download with
        sizePrepared := offset
        md5 := if offset = 0 then Md5.utilsMd5Starts else r.download.md5 } } :=
      .set r .download rfl (.inl rfl)
    exact reconnect_returns (sound.keeps begun) .download env _ (map_error (ofCrash_crash crashed))
  | startUpload env =>
    have begun : r.Quiet { r with upload := { r.upload with
        sizeLast := 0, sizePrepared := 0, md5 := Md5.utilsMd5Starts } } := .set r .upload rfl (.inl
            rfl)
    exact reconnect_returns (sound.keeps begun) .upload env _ (map_error (ofCrash_crash crashed))
  | downloadYield bufLen env =>
    exact downloadYield_functions bufLen env (map_error (ofCrash_crash crashed))
  | uploadYield buf env => exact uploadYield_functions sound buf env (map_error crashed)
  | uploadRecvResult bufLen received env => exact ofFault_crash crashed
  | downloadIoctl type bufLen aligned published => cases crashed
  | uploadIoctl type bufLen aligned env => exact ofFault_crash crashed
  | reportDownload success name published => cases crashed
  | reportUpload success name env => exact ofFault_crash crashed
  | deInit =>
    rw [Context.after, deInit_returns sound] at crashed
    cases crashed

/-- A careful call keeps the invariant, and a result leaves its direction initialised. -/
theorem step_invariant {s : Client} {action : Action} (careful : s.context.Careful action)
    (invariant : s.Invariant) :
    (client.step s action).Invariant ∧ s.context.Settled (client.step s action).context := by
  have rest : s.context.Settled s.context := .none rfl
  change (s.step action).Invariant ∧ s.context.Settled (s.step action).context
  unfold Client.step
  split
  · exact ⟨invariant, rest⟩
  · rename_i running
    rw [not_or, Bool.not_eq_true, Bool.not_eq_true] at running
    have sound := invariant.sound running.2
    cases done : s.context.after action with
    | error halt =>
      refine ⟨⟨?_, invariant.returned, invariant.sound⟩, rest⟩
      intro crashed
      rw [Option.some.inj crashed] at done
      exact after_functions sound done
    | ok context =>
      obtain ⟨settled, kept | returned⟩ := after_careful sound careful done
      · refine ⟨⟨invariant.functions, ?_, fun _ => kept.1⟩, settled⟩
        intro destroyed
        rw [show context.destroyed = true from destroyed] at kept
        exact absurd kept.2 (by simp [running.2])
      · refine ⟨⟨invariant.functions, fun _ => returned.2, ?_⟩, settled⟩
        intro used
        rw [show context.destroyed = false from used] at returned
        exact absurd returned.1 Bool.false_ne_true

/-- In a run of careful calls, every state is clean, and every call leaves a direction whose result
    it reported in the state `INITED`. -/
theorem channels_lifecycle (actions : List Action)
    (careful : client.Guarded (fun s action => s.context.Careful action) .initial actions)
    (n : Nat) :
    (client.exec .initial (actions.take n)).Clean ∧
      ∀ action, actions[n]? = some action →
        (client.exec .initial (actions.take n)).context.Settled
          (client.exec .initial (actions.take (n + 1))).context := by
  have start : Client.initial.Invariant :=
    ⟨by decide, fun destroyed => absurd destroyed Bool.false_ne_true, fun _ => sound_initial⟩
  have invariant : (client.exec .initial (actions.take n)).Invariant :=
    careful.invariant_take start (fun _ _ calm kept => (step_invariant calm kept).1) n
  refine ⟨invariant.clean, ?_⟩
  intro action called
  have next : actions.take (n + 1) = actions.take n ++ [action] := by
    rw [List.take_add_one, called]
    rfl
  rw [next, Machine.exec_concat]
  exact (step_invariant (careful.at called) invariant).2

/-- A task message for a resource of one byte. -/
def taskMessage (type url : List UInt8) : Action :=
  let payload := utf8 "\x7b\"type\":\"" ++ type ++
    utf8 "\",\"size\":1,\"name\":\"n\",\"md5sum\":\"m\",\"url\":\"" ++ url ++
    utf8 "\"\x7d" ++ [0]
  .message ⟨payload, payload.length - 1, ⟨true, true, true, true, true, true, true, true⟩⟩

/-- A start whose connection succeeds. -/
def connecting : StartEnv := ⟨true, ⟨0, true, 0⟩⟩

/-- A download of one byte that ends, and is never reported. -/
def silentDownload : List Action :=
  [taskMessage (utf8 "download") (utf8 "http://h/f"), .startDownload 0 connecting,
    .downloadYield 64 ⟨.bytes [65] true (by decide), false, 0, 0, 0⟩, .startDownload 0 connecting,
    .deInit]

theorem channels_lifecycle_download :
    (client.exec .initial (silentDownload.take 5)).Clean ∧
      ∀ action, silentDownload[5]? = some action →
        (client.exec .initial (silentDownload.take 5)).context.Settled
          (client.exec .initial (silentDownload.take 6)).context := by
  have careful : client.Guarded (fun s action => s.context.Careful action) .initial
      silentDownload := by
    refine ⟨trivial, ?_, ?_, ?_, trivial, trivial⟩
    · intro _
      decide +kernel
    · intro _ _
      decide +kernel
    · intro _
      decide +kernel
  exact channels_lifecycle silentDownload careful 5

/-- A url without a host: the channel cannot be deinitialised. -/
def hostlessDownload : List Action :=
  [taskMessage (utf8 "download") (utf8 "file"), .startDownload 0 connecting, .deInit]

/-- A download that is refused, which is reported. -/
def refusedDownload : List Action :=
  [taskMessage (utf8 "download") (utf8 "http://h/f"), .startDownload 0 connecting,
    .downloadYield 64 ⟨.failed Http.qcloudErrHttpAuth (by decide), false, 0, 0, 0⟩, .deInit]

/-- An upload whose connection breaks, which is reported. -/
def brokenUpload : List Action :=
  [taskMessage (utf8 "create_upload_task_rsp") (utf8 "http://h/f"), .startUpload connecting,
    .uploadYield [65] ⟨false, false, 0, 0, .bytes [] true (by decide), ⟨0, []⟩, ⟨0, []⟩⟩]

theorem channels_lost :
    ¬ (client.exec .initial hostlessDownload).Clean ∧
    ¬ (client.exec .initial refusedDownload).Clean ∧
    ¬ (client.exec .initial (brokenUpload.take 2)).context.Settled
      (client.exec .initial (brokenUpload.take 3)).context := by
  refine ⟨?_, ?_, ?_⟩
  · intro clean
    exact clean.functions (by decide +kernel)
  · intro clean
    exact absurd (clean.returned (by decide +kernel)) (by decide +kernel)
  · rintro ⟨sent, grown, settled⟩
    have before : (client.exec .initial (brokenUpload.take 2)).context.reports = [] := by
      decide +kernel
    have after : (client.exec .initial (brokenUpload.take 3)).context.reports =
        [⟨.upload, .failed, resultcodeSignInvalid, 0, utf8 "n"⟩] := by
      decide +kernel
    rw [before, after, List.nil_append] at grown
    rw [← grown] at settled
    have inited := settled _ (List.mem_singleton_self _) (.inr rfl)
    exact absurd inited (by decide +kernel)

end QcloudIot.Resource
