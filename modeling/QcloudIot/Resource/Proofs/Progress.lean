import QcloudIot.Ota.Proofs.Progress
import QcloudIot.Resource.Proofs.Channels

/-!
# The progress of the resource transfers

`IOT_Resource_DownloadYield` and `IOT_Resource_UploadYield` compute the percentage as
`IOT_OTA_FetchYield` does. No upload has empty blocks, so one of nothing divides by nothing.
-/

namespace QcloudIot.Resource

open Http (Crash FetchResult toInt32)
open Progress (Transfer wordPercent)

/-- The progress of a direction is reported. -/
def Report.Progresses (report : Report) (d : Direction) : Prop :=
  report.direction = d ∧ report.kind = d.running

instance (report : Report) (d : Direction) : Decidable (report.Progresses d) :=
  inferInstanceAs (Decidable (_ ∧ _))

/-- The percents that have been reported of a direction. -/
def Context.percents (r : Context) (d : Direction) : List Int :=
  (r.reports.filter fun report => report.Progresses d).map (·.percent)

/-- The percents reported from one state to another. -/
def Context.Shows (d : Direction) (r r' : Context) (percents : List Nat) : Prop :=
  r'.percents d = r.percents d ++ percents.map fun p : Nat => (p : Int)

/-- A download by `IOT_Resource_DownloadYield`, whose blocks are what the calls return. -/
def downloading : Transfer Context where
  size r := r.download.resourceSize.toNat
  bytes r := r.download.sizePrepared.toNat
  yields r block r' := ∃ bufLen env, r.downloadYield bufLen env = .ok ((block : Int), r')
  divides r block := ∃ bufLen env chunk stillOpen short,
    env.fetched = .bytes chunk stillOpen short ∧ chunk.length = block ∧
      r.downloadYield bufLen env = .error .divisionByZero
  reports := Context.Shows .download

/-- The body of an upload goes out. -/
def Context.Uploads (r : Context) (env : UploadEnv) : Prop :=
  r.upload.transfers = true ∧
    uploadHttpSendBody r.upload.channel env.written = .ok qcloudRetSuccess

/-- An upload by `IOT_Resource_UploadYield`, whose blocks are the buffers that go out. -/
def uploading : Transfer Context where
  size r := r.upload.resourceSize.toNat
  bytes r := r.upload.sizePrepared.toNat
  yields r block r' := ∃ buf env ret, r.Uploads env ∧ buf.length = block ∧ block ≠ 0 ∧
    r.uploadYield buf env = .ok (ret, r')
  divides r block := ∃ buf env, buf.length = block ∧
    r.uploadYield buf env = .error (.crash .divisionByZero)
  reports := Context.Shows .upload

variable {r r' r'' : Context} {d : Direction}

theorem Context.Shows.trans {now later : List Nat} (first : Context.Shows d r r' now)
    (second : Context.Shows d r' r'' later) : Context.Shows d r r'' (now ++ later) := by
  rw [Context.Shows] at first second ⊢
  rw [second, first, List.map_append, List.append_assoc]

/-- Where no report of the direction's progress is sent, no percentage is reported. -/
theorem Context.Sends.shows (sends : r.Sends (fun report => ¬ report.Progresses d) r') :
    Context.Shows d r r' [] := by
  obtain ⟨sent, grown, others⟩ := sends
  have none : sent.filter (fun report => report.Progresses d) = [] :=
    List.filter_eq_nil_iff.mpr fun report member => by simpa using others report member
  rw [Context.Shows, Context.percents, Context.percents, grown, List.filter_append, none,
    List.append_nil, List.map_nil, List.append_nil]

theorem Context.Shows.same (reports : r'.reports = r.reports) : Context.Shows d r r' [] :=
  (Context.Sends.none reports).shows

/-! ## One block -/

theorem reports_set (r : Context) (info : Info) (d : Direction) :
    (r.set info d).reports = r.reports := by
  cases d <;> rfl

theorem reportProgress_shows (r : Context) (d : Direction) {progress : Int} {p : Nat}
    (isProgress : progress = p) (published : Int) : ∃ now : List Nat, now.Sublist [p] ∧
      Context.Shows d r (r.reportProgress d d.running progress published).2 now := by
  unfold Context.reportProgress
  simp only
  split
  · exact ⟨[], List.nil_sublist _, .same (reports_set r _ d)⟩
  · split
    · exact ⟨[], List.nil_sublist _, .same (reports_set r _ d)⟩
    · refine ⟨[p], List.Sublist.refl _, ?_⟩
      have sent : Context.Shows d r (r.mqttReportProgress
          ⟨d, d.running, 0, progress, (r.info d).nameText⟩ published).2 [p] := by
        have progresses : Report.Progresses ⟨d, d.running, 0, progress, (r.info d).nameText⟩ d :=
          ⟨rfl, rfl⟩
        unfold Context.mqttReportProgress
        rw [if_neg (show ¬ ((0 : Int) ≤ -5 ∨ (0 : Int) > 0) by decide), Context.Shows,
          Context.percents, Context.percents, List.filter_append, List.filter_singleton,
          decide_eq_true progresses, cond_true, List.map_append, isProgress]
        rfl
      split
      · exact sent.trans (.same (reports_set _ _ d))
      · exact sent

theorem reportPercent_shows (r : Context) (d : Direction) {percent : UInt32}
    (small : percent.toNat ≤ 100) (expired : Bool) (published : Int) :
    ∃ now : List Nat, now.Sublist [percent.toNat] ∧
      Context.Shows d r (r.reportPercent d percent expired published) now := by
  have isInt : toInt32 percent.toNat = percent.toNat := by
    rw [toInt32, if_pos (by omega)]
  unfold Context.reportPercent
  split
  · exact reportProgress_shows r d isInt published
  · exact ⟨[], List.nil_sublist _, .same rfl⟩

theorem reportBegin_info (r : Context) (d : Direction) (published : Int) :
    ∃ err, (r.reportBegin d published).info d = { r.info d with err } := by
  unfold Context.reportBegin
  split
  · exact reportProgress_info d d.running 0 published
  · exact ⟨_, rfl⟩

/-- What both yields do when bytes have gone through. -/
theorem progress_shows {len : Nat} {expired : Bool} {begun progress : Int}
    (done : r.progress d len expired begun progress = .ok r')
    (inside : (r.info d).sizePrepared.toNat + len ≤ (r.info d).resourceSize.toNat) :
    (∃ now, Context.Shows d r r' now ∧ now.Sublist (Progress.told (r.info d).sizePrepared.toNat
      (wordPercent 32 (r.info d).resourceSize.toNat ((r.info d).sizePrepared.toNat + len)))) ∧
    (r'.info d).resourceSize = (r.info d).resourceSize ∧
    (r'.info d).sizePrepared.toNat = (r.info d).sizePrepared.toNat + len := by
  have counted : ((r.info d).sizePrepared + UInt32.ofNat len).toNat =
      (r.info d).sizePrepared.toNat + len := by
    have below := (r.info d).resourceSize.toNat_lt
    rw [UInt32.toNat_add, UInt32.toNat_ofNat']
    omega
  obtain ⟨err, block⟩ := progress_info done
  refine ⟨?_, by rw [block]; rfl, by rw [block]; exact counted⟩
  unfold Context.progress at done
  simp only [bind, Except.bind, pure, Except.pure] at done
  -- the report of the begin
  obtain ⟨before, isBefore, begins⟩ : ∃ before : List Nat,
      before.Sublist (if (r.info d).sizePrepared.toNat = 0 then [0] else []) ∧
        Context.Shows d r (r.reportBegin d begun) before := by
    unfold Context.reportBegin
    by_cases start : (r.info d).sizePrepared = 0
    · have isZero : (r.info d).sizePrepared.toNat = 0 := congrArg UInt32.toNat start
      rw [if_pos start, if_pos isZero]
      exact @reportProgress_shows r d 0 0 rfl begun
    · rw [if_neg start]
      exact ⟨[], List.nil_sublist _, .same rfl⟩
  split at done
  · cases done
  · next percent isPercent =>
    cases done
    -- the report of the percentage
    have computed : percent.toNat = wordPercent 32 (r.info d).resourceSize.toNat
        ((r.info d).sizePrepared.toNat + len) := by
      obtain ⟨err', same⟩ := reportBegin_info r d begun
      rw [info_set, same, percentOf] at isPercent
      split at isPercent
      · cases isPercent
      · cases isPercent
        rw [UInt32.toNat_div, UInt32.toNat_mul, wordPercent, ← counted]
        rfl
    have small := Progress.wordPercent_le 32 inside
    rw [← computed] at small ⊢
    obtain ⟨after, isAfter, ends⟩ := reportPercent_shows
      ((r.reportBegin d begun).set (((r.reportBegin d begun).info d).counted len) d) d small expired
        progress
    have counts : Context.Shows d (r.reportBegin d begun)
        ((r.reportBegin d begun).set (((r.reportBegin d begun).info d).counted len) d) [] :=
      .same (reports_set _ _ d)
    have whole := (begins.trans counts).trans ends
    rw [List.append_nil] at whole
    exact ⟨before ++ after, whole, isBefore.append isAfter⟩

/-- Only a size of zero divides by zero. -/
theorem progress_divides {len : Nat} {expired : Bool} {begun progress : Int}
    (divides : r.progress d len expired begun progress = .error .divisionByZero) :
    (r.info d).resourceSize = 0 := by
  unfold Context.progress at divides
  simp only [bind, Except.bind, pure, Except.pure] at divides
  obtain ⟨err, same⟩ := reportBegin_info r d begun
  split at divides
  · next crash isCrash =>
    rw [info_set, same, percentOf] at isCrash
    split at isCrash
    · next zero => exact zero
    · cases isCrash
  · cases divides

/-! ## Downloading -/

/-- A fetch that does not fail returns the length of the block. -/
theorem ofcFetch_length {channel channel' : Option Channel} {fetched : FetchResult} {ret : Int}
    {chunk : List UInt8} (got : ofcFetch channel fetched = .ok ((ret, chunk), channel'))
    (good : 0 ≤ ret) : ret = chunk.length := by
  unfold ofcFetch at got
  cases channel with
  | none => cases got
  | some channel =>
    dsimp only at got
    by_cases closed : ¬ channel.stack.connected
    · rw [if_pos closed] at got
      cases got
      exact absurd good (by decide)
    rw [if_neg closed] at got
    cases fetched with
    | bytes chunk stillOpen short =>
      cases got
      rfl
    | failed rc negative =>
      cases got
      have failed : Http.fetchCode rc < 0 := by
        unfold Http.fetchCode
        split_ifs
        · decide
        · decide
        · decide
        · exact negative
      omega

theorem ofcFetch_crash {channel : Option Channel} {fetched : FetchResult} {crash : Crash}
    (crashes : ofcFetch channel fetched = .error crash) : crash = .nullPointer := by
  unfold ofcFetch at crashes
  cases channel with
  | none =>
    cases crashes
    rfl
  | some channel =>
    dsimp only at crashes
    split at crashes
    · cases crashes
    · split at crashes <;> cases crashes

/-- A call that puts a block through. -/
theorem downloadYield_block {bufLen : UInt32} {env : DownloadEnv} {block : Nat}
    (yielded : r.downloadYield bufLen env = .ok ((block : Int), r')) :
    ∃ channel chunk, chunk.length = block ∧
      Context.downloadDone { r with download := { r.download with channel } } chunk env =
        .ok r' := by
  unfold Context.downloadYield at yielded
  simp only [bind, Except.bind, pure, Except.pure] at yielded
  split at yielded
  · cases yielded
  split at yielded
  · cases yielded
  cases got : ofcFetch r.download.channel env.fetched with
  | error crash => simp [got] at yielded
  | ok result =>
    obtain ⟨⟨ret, chunk⟩, channel⟩ := result
    simp only [got] at yielded
    split at yielded
    · next negative =>
      have isRet := congrArg Prod.fst (Except.ok.inj yielded)
      dsimp only at isRet
      omega
    · next good =>
      split at yielded
      · cases yielded
      · next done =>
        obtain ⟨isRet, rfl⟩ := Prod.mk.inj (Except.ok.inj yielded)
        have length := ofcFetch_length got (Int.not_lt.mp good)
        exact ⟨channel, chunk, by omega, done⟩

theorem downloadDone_shows {chunk : List UInt8} {env : DownloadEnv}
    (done : r.downloadDone chunk env = .ok r')
    (inside : r.download.sizePrepared.toNat + chunk.length ≤ r.download.resourceSize.toNat) :
    (∃ now, Context.Shows .download r r' now ∧
      now.Sublist (Progress.told r.download.sizePrepared.toNat
        (wordPercent 32 r.download.resourceSize.toNat
          (r.download.sizePrepared.toNat + chunk.length)))) ∧
    r'.download.resourceSize = r.download.resourceSize ∧
    r'.download.sizePrepared.toNat = r.download.sizePrepared.toNat + chunk.length := by
  unfold Context.downloadDone at done
  simp only [bind, Except.bind, pure, Except.pure] at done
  cases counted : r.progress .download chunk.length env.expired env.beginPublished
      env.progressPublished with
  | error crash => simp [counted] at done
  | ok middle =>
    obtain ⟨⟨now, shows, sublist⟩, size, bytes⟩ := progress_shows counted inside
    simp only [counted] at done
    have ends : Context.Shows .download middle r' [] ∧
        r'.download.resourceSize = middle.download.resourceSize ∧
        r'.download.sizePrepared = middle.download.sizePrepared := by
      cases done
      split_ifs <;> exact ⟨.same rfl, rfl, rfl⟩
    have whole := shows.trans ends.1
    rw [List.append_nil] at whole
    refine ⟨⟨now, whole, sublist⟩, ends.2.1.trans size, ?_⟩
    rw [ends.2.2]
    exact bytes

theorem downloadYield_divides {bufLen : UInt32} {env : DownloadEnv}
    (divides : r.downloadYield bufLen env = .error .divisionByZero) :
    r.download.resourceSize = 0 := by
  unfold Context.downloadYield at divides
  simp only [bind, Except.bind, pure, Except.pure] at divides
  split at divides
  · cases divides
  split at divides
  · cases divides
  cases got : ofcFetch r.download.channel env.fetched with
  | error crash =>
    simp only [got] at divides
    cases divides
    cases ofcFetch_crash got
  | ok result =>
    obtain ⟨⟨ret, chunk⟩, channel⟩ := result
    simp only [got] at divides
    split at divides
    · cases divides
    · split at divides
      · next crash crashes =>
        cases divides
        unfold Context.downloadDone at crashes
        simp only [bind, Except.bind, pure, Except.pure] at crashes
        split at crashes
        · next isCrash =>
          cases crashes
          exact progress_divides isCrash
        · cases crashes
      · cases divides

theorem downloading_lawful : downloading.Lawful 32 where
  refl r := .same rfl
  trans _ _ _ _ _ first second := first.trans second
  divides r block divides := by
    obtain ⟨bufLen, env, -, -, -, -, -, divides⟩ := divides
    exact congrArg UInt32.toNat (downloadYield_divides divides)
  step r block r' yields inside := by
    obtain ⟨bufLen, env, yielded⟩ := yields
    obtain ⟨channel, chunk, rfl, done⟩ := downloadYield_block yielded
    obtain ⟨⟨now, shows, sublist⟩, size, bytes⟩ := downloadDone_shows done inside
    exact ⟨⟨now, shows, sublist⟩, .inl ⟨congrArg UInt32.toNat size, bytes⟩⟩

/-! ## Uploading -/

theorem resultReport_other (e d : Direction) (name : List UInt8) (resultCode : Int) :
    ¬ (resultReport e name resultCode).Progresses d := by
  rintro ⟨-, kind⟩
  unfold resultReport at kind
  dsimp only at kind
  split at kind <;> cases d <;> cases kind

/-- The report of an upload's result tells no percentage, and the block is cleared behind it. -/
theorem reportUploadResult_shows {name : List UInt8} {resultCode ret : Int} {env : UploadResultEnv}
    (done : r.reportUploadResult name resultCode env = .ok (ret, r'))
    (inited : r.upload.state ≠ .uninited) (d : Direction) :
    Context.Shows d r r' [] ∧ r'.upload.state = .inited := by
  unfold Context.reportUploadResult at done
  rw [if_neg inited] at done
  by_cases invalid : ¬ validName name
  · rw [if_pos invalid] at done
    cases done
    exact ⟨.same rfl, rfl⟩
  rw [if_neg invalid] at done
  have sent := (@mqttReportProgress_keeps (fun report => ¬ report.Progresses d)
    { r with upload := { r.upload with resultCode := UInt32.ofNat (Http.toUint32 (-1)) } }
    (resultReport .upload name resultCode) env.published
      (resultReport_other .upload d name resultCode)).sends
  simp only [bind, Except.bind, pure, Except.pure] at done
  split at done
  · cases done
    exact ⟨sent.shows, rfl⟩
  · split at done
    · cases done
    · next waited =>
      cases done
      exact ⟨(sent.trans (waitResult_keeps waited).sends).shows, rfl⟩

/-- The answer of the server tells no percentage either, and nothing more goes out behind it. -/
theorem uploadRecvResult_shows {bufLen : Nat} {received : FetchResult} {env : UploadResultEnv}
    {ret : Int} (done : r.uploadRecvResult bufLen received env = .ok (ret, r'))
    (ended : r.upload.state = .fin) (d : Direction) :
    Context.Shows d r r' [] ∧ r'.upload.state ≠ .start := by
  unfold Context.uploadRecvResult at done
  simp only [bind, Except.bind, pure, Except.pure] at done
  split at done
  · split at done
    · cases done
      exact ⟨.same rfl, nofun⟩
    · split at done
      · cases done
      · next reported =>
        obtain ⟨shows, isState⟩ := reportUploadResult_shows reported nofun d
        cases done
        refine ⟨shows, ?_⟩
        dsimp only
        rw [isState]
        exact nofun
  · cases done
    refine ⟨.same rfl, ?_⟩
    dsimp only
    rw [ended]
    exact nofun

theorem uploadSent_shows {buf : List UInt8} {env : UploadEnv} {ret : Int}
    (done : r.uploadSent buf env = .ok (ret, r'))
    (inside : r.upload.sizePrepared.toNat + buf.length ≤ r.upload.resourceSize.toNat) :
    (∃ now, Context.Shows .upload r r' now ∧
      now.Sublist (Progress.told r.upload.sizePrepared.toNat
        (wordPercent 32 r.upload.resourceSize.toNat
          (r.upload.sizePrepared.toNat + buf.length)))) ∧
    ((r'.upload.resourceSize = r.upload.resourceSize ∧
      r'.upload.sizePrepared.toNat = r.upload.sizePrepared.toNat + buf.length) ∨
        r'.upload.state ≠ .start) := by
  unfold Context.uploadSent at done
  simp only [bind, Except.bind, pure, Except.pure] at done
  cases counted : r.progress .upload buf.length env.expired env.beginPublished
      env.progressPublished with
  | error crash => simp [counted, ofCrash] at done
  | ok middle =>
    obtain ⟨⟨now, shows, sublist⟩, size, bytes⟩ := progress_shows counted inside
    simp only [counted, ofCrash] at done
    split at done
    · obtain ⟨rest, isState⟩ := uploadRecvResult_shows (ofFault_ok done) rfl .upload
      have whole := shows.trans rest
      rw [List.append_nil] at whole
      exact ⟨⟨now, whole, sublist⟩, .inr isState⟩
    · cases done
      exact ⟨⟨now, shows, sublist⟩, .inl ⟨size, bytes⟩⟩

/-- A call that lets a block out. -/
theorem uploadYield_sends {buf : List UInt8} {env : UploadEnv} (uploads : r.Uploads env)
    (filled : buf.length ≠ 0) : r.uploadYield buf env = r.uploadSent buf env := by
  obtain ⟨transfers, sends⟩ := uploads
  have running : ¬ (r.upload.state ≠ .start ∨ r.upload.resultCode ≠ 0) := by
    unfold Info.transfers at transfers
    simpa [not_or] using transfers
  unfold Context.uploadYield
  rw [if_neg filled, if_neg running, sends]
  rfl

theorem uploadYield_divides {buf : List UInt8} {env : UploadEnv}
    (divides : r.uploadYield buf env = .error (.crash .divisionByZero)) :
    buf.length ≠ 0 ∧ r.upload.state = .start ∧ r.upload.resourceSize = 0 := by
  unfold Context.uploadYield at divides
  by_cases empty : buf.length = 0
  · simp only [if_pos empty] at divides
    cases divides
  by_cases idle : r.upload.state ≠ .start ∨ r.upload.resultCode ≠ 0
  · simp only [if_neg empty, if_pos idle] at divides
    cases divides
  simp only [if_neg empty, if_neg idle, bind, Except.bind, pure, Except.pure] at divides
  refine ⟨empty, not_not.mp (not_or.mp idle).1, ?_⟩
  cases sends : uploadHttpSendBody r.upload.channel env.written with
  | error crash =>
    rw [sends] at divides
    cases divides
    unfold uploadHttpSendBody at sends
    split at sends
    · cases sends
    · split at sends <;> cases sends
  | ok ret =>
    simp only [sends, ofCrash] at divides
    split at divides
    · split at divides
      · next fault =>
        cases divides
        exact (ofFault_crash fault).elim
      · cases divides
    · unfold Context.uploadSent at divides
      simp only [bind, Except.bind, pure, Except.pure] at divides
      cases counted : r.progress .upload buf.length env.expired env.beginPublished
          env.progressPublished with
      | error crash =>
        simp only [counted, ofCrash] at divides
        cases divides
        exact progress_divides counted
      | ok middle =>
        simp only [counted, ofCrash] at divides
        split at divides
        · exact (ofFault_crash divides).elim
        · cases divides

theorem uploading_lawful : uploading.Lawful 32 where
  refl r := .same rfl
  trans _ _ _ _ _ first second := first.trans second
  divides r block divides := by
    obtain ⟨buf, env, -, divides⟩ := divides
    exact congrArg UInt32.toNat (uploadYield_divides divides).2.2
  step r block r' yields inside := by
    obtain ⟨buf, env, ret, uploads, rfl, filled, yielded⟩ := yields
    rw [uploadYield_sends uploads filled] at yielded
    obtain ⟨⟨now, shows, sublist⟩, next⟩ := uploadSent_shows yielded inside
    refine ⟨⟨now, shows, sublist⟩, ?_⟩
    rcases next with ⟨size, bytes⟩ | ended
    · exact .inl ⟨congrArg UInt32.toNat size, bytes⟩
    · refine .inr fun block => ⟨?_, ?_⟩
      · rintro r'' ⟨buf', env', ret', uploads', -⟩
        have transfers := uploads'.1
        unfold Info.transfers at transfers
        exact ended (of_decide_eq_true transfers).1
      · rintro ⟨buf', env', -, divides⟩
        exact ended (uploadYield_divides divides).2.1

/-! ## Transfers that are too large -/

/-- The block of a direction in the middle of its transfer. -/
def midwayInfo (size : UInt32) : Info :=
  { Info.initial with
    channel := some ⟨0, true, true⟩, state := .start, resourceSize := size,
    sizePrepared := 42949672 }

def midway (size : UInt32) (d : Direction) : Context := Context.initial.set (midwayInfo size) d

/-- Behind the next byte nothing is reported, since the product by 100 is 4. -/
theorem progress_midway {size : UInt32} (large : 42949673 ≤ size.toNat) (d : Direction) :
    ∃ r, (midway size d).progress d 1 true 0 0 = .ok r ∧ r.percents d = [0] ∧
      r.info d = (midwayInfo size).counted 1 := by
  have nonzero : ¬ ((midwayInfo size).counted 1).resourceSize = 0 := by
    intro zero
    have isZero : size = 0 := zero
    subst isZero
    exact absurd large (by decide)
  have nothing : percentOf ((midwayInfo size).counted 1) = .ok 0 := by
    rw [percentOf, if_neg nonzero]
    refine congrArg Except.ok (UInt32.toNat_inj.mp ?_)
    rw [UInt32.toNat_div]
    exact Nat.div_eq_of_lt (Nat.lt_of_lt_of_le
      (show ((42949672 + UInt32.ofNat 1) * 100 : UInt32).toNat < 42949673 by decide) large)
  have isProgress : (midway size d).progress d 1 true 0 0 =
      (do let percent ← percentOf ((midwayInfo size).counted 1)
          return ((midway size d).set ((midwayInfo size).counted 1) d).reportPercent d percent
            true 0) := by
    cases d <;> rfl
  rw [isProgress, nothing]
  refine ⟨_, rfl, ?_, ?_⟩
  · cases d <;> rfl
  · cases d <;> rfl

/-- What is reported there as nothing is not nothing. -/
theorem shows_midway {size : UInt32} {p : Nat} {percents : List Nat}
    (shows : Context.Shows d (midway size d) r percents) (reported : r.percents d = [0])
    (sublist : percents.Sublist [p]) : p = 0 := by
  have none : (midway size d).percents d = [] := by
    cases d <;> rfl
  rw [Context.Shows, reported, none, List.nil_append] at shows
  rcases List.sublist_singleton.mp sublist with rfl | rfl
  · nomatch shows
  · have same : (0 : Int) = (p : Int) := List.head_eq_of_cons_eq shows
    omega

theorem length_zeroByte : [(0 : UInt8)].length < 2 ^ 31 := by decide

theorem length_noByte : ([] : List UInt8).length < 2 ^ 31 := by decide

/-- One byte is fetched, and the report timer has expired. -/
def oneByte : DownloadEnv := ⟨.bytes [0] true length_zeroByte, true, 0, 0, 0⟩

theorem downloadYield_midway {size : UInt32} (large : 42949673 ≤ size.toNat) :
    ∃ r, (midway size .download).downloadYield 1 oneByte = .ok (1, r) ∧
      r.percents .download = [0] := by
  obtain ⟨r, counted, percents, -⟩ := progress_midway large .download
  have yielded : (midway size .download).downloadYield 1 oneByte =
      (do let r ← (midway size .download).downloadDone [0] oneByte; return (1, r)) := rfl
  have done : (midway size .download).downloadDone [0] oneByte =
      (do let r ← (midway size .download).progress .download 1 true 0 0
          let r := if r.download.sizePrepared ≥ r.download.resourceSize then
            { r with download := { r.download with state := .fin } } else r
          return { r with download :=
            { r.download with md5 := Md5.utilsMd5Update r.download.md5 [0] } }) := rfl
  rw [yielded, done, counted]
  refine ⟨_, rfl, ?_⟩
  dsimp only
  split_ifs <;> exact percents

/-- One byte goes out, and the report timer has expired. -/
def oneByteOut : UploadEnv where
  written := true
  expired := true
  beginPublished := 0
  progressPublished := 0
  received := .bytes [] true length_noByte
  sendResult := ⟨0, []⟩
  recvResult := ⟨0, []⟩

theorem uploads_midway (size : UInt32) : (midway size .upload).Uploads oneByteOut := ⟨rfl, rfl⟩

theorem uploadYield_midway {size : UInt32} (large : 42949673 ≤ size.toNat) :
    ∃ ret r, (midway size .upload).uploadYield [0] oneByteOut = .ok (ret, r) ∧
      r.percents .upload = [0] := by
  obtain ⟨r, counted, percents, isInfo⟩ := progress_midway large .upload
  have isUpload : r.upload = (midwayInfo size).counted 1 := isInfo
  rw [uploadYield_sends (uploads_midway size) (by decide)]
  unfold Context.uploadSent
  rw [show (midway size .upload).progress .upload [(0 : UInt8)].length oneByteOut.expired
    oneByteOut.beginPublished oneByteOut.progressPublished = .ok r from counted]
  simp only [ofCrash, bind, Except.bind, pure, Except.pure]
  split
  · unfold Context.uploadRecvResult
    dsimp only
    rw [isUpload]
    exact ⟨_, _, rfl, percents⟩
  · exact ⟨_, _, rfl, percents⟩

/-- The progress of a download is right for a size whose percents fit into 32 bits, and for no
    other. -/
theorem downloading_rightFor_iff (size : UInt32) :
    downloading.RightFor size.toNat ↔ 0 < size.toNat ∧ 100 * size.toNat < 2 ^ 32 := by
  refine ⟨fun right => ⟨?_, ?_⟩, fun fits => downloading_lawful.rightFor fits.1 fits.2⟩
  · by_contra zero
    have isZero : size = 0 := UInt32.toNat_inj.mp (Nat.eq_zero_of_not_pos zero)
    subst isZero
    let start : Context := (midway 0 .download).set { midwayInfo 0 with sizePrepared := 0 } .download
    obtain ⟨never, -⟩ := right start _ [] rfl (.nil _) (Nat.zero_le _)
    exact never 0 (Nat.zero_le _) ⟨1, { oneByte with fetched := .bytes [] true (by decide) },
      [], true, by decide, rfl, rfl, rfl⟩
  · by_contra tooLarge
    have large : 42949673 ≤ size.toNat := by omega
    obtain ⟨r, yielded, percents⟩ := downloadYield_midway large
    have begun : downloading.bytes (midway size .download) ≠ 0 := show (42949672 : UInt32).toNat ≠
        0 by decide
    have wraps : 2 ^ 32 ≤ 100 * (downloading.bytes (midway size .download) + 1) :=
      show 2 ^ 32 ≤ 100 * ((42949672 : UInt32).toNat + 1) by decide
    obtain ⟨told, shows, sublist⟩ := right.reported rfl begun ⟨1, oneByte, yielded⟩ large
    exact absurd (shows_midway shows percents sublist)
      (Nat.ne_of_gt (Progress.percent_pos size.toNat_lt wraps (by omega)))

/-- That of an upload is right for nothing as well, since no block is empty. -/
theorem uploading_rightFor_iff (size : UInt32) :
    uploading.RightFor size.toNat ↔ 100 * size.toNat < 2 ^ 32 := by
  refine ⟨fun right => ?_, fun fits => ?_⟩
  · by_contra tooLarge
    have large : 42949673 ≤ size.toNat := by omega
    obtain ⟨ret, r, yielded, percents⟩ := uploadYield_midway large
    have begun : uploading.bytes (midway size .upload) ≠ 0 := show (42949672 : UInt32).toNat ≠ 0 by
        decide
    have wraps : 2 ^ 32 ≤ 100 * (uploading.bytes (midway size .upload) + 1) :=
      show 2 ^ 32 ≤ 100 * ((42949672 : UInt32).toNat + 1) by decide
    obtain ⟨told, shows, sublist⟩ := right.reported rfl begun
      ⟨[0], oneByteOut, ret, uploads_midway size, rfl, by decide, yielded⟩ large
    exact absurd (shows_midway shows percents sublist)
      (Nat.ne_of_gt (Progress.percent_pos size.toNat_lt wraps (by omega)))
  · by_cases positive : 0 < size.toNat
    · exact uploading_lawful.rightFor positive fits
    intro r r' blocks isSize run inside
    cases run with
    | nil r =>
      refine ⟨fun block room divides => ?_, [], .same rfl, .nil _,
        fun p member => absurd member List.not_mem_nil, .nil⟩
      obtain ⟨buf, env, rfl, divides⟩ := divides
      have filled := (uploadYield_divides divides).1
      omega
    | cons first rest =>
      obtain ⟨buf, env, ret, -, -, filled, -⟩ := first
      rw [List.sum_cons] at inside
      omega

/-- **In every run in which 100 times the bytes so far fit into 32 bits, the progress is right, for
    downloads of firmware and for both transfers of resources; so it is for the sizes up to
    42949672, and for no others. A firmware or a download of nothing is a division by zero.** -/
theorem progress_right (size : UInt32) :
    (Ota.fetching.RightInside 32 ∧ downloading.RightInside 32 ∧ uploading.RightInside 32) ∧
      (Ota.fetching.RightFor size.toNat ↔ 0 < size.toNat ∧ 100 * size.toNat < 2 ^ 32) ∧
      (downloading.RightFor size.toNat ↔ 0 < size.toNat ∧ 100 * size.toNat < 2 ^ 32) ∧
      (uploading.RightFor size.toNat ↔ 100 * size.toNat < 2 ^ 32) :=
  ⟨⟨Ota.fetching_lawful.rightInside, downloading_lawful.rightInside,
      uploading_lawful.rightInside⟩,
    Ota.fetching_rightFor_iff size, downloading_rightFor_iff size, uploading_rightFor_iff size⟩

/-- A firmware of nothing, and transfers of 42949673 bytes, whose last one makes nothing of them. -/
theorem progress_wrong :
    ¬ Ota.fetching.RightFor 0 ∧ ¬ Ota.fetching.RightFor 42949673 ∧
      ¬ downloading.RightFor 42949673 ∧ ¬ uploading.RightFor 42949673 := by
  refine ⟨fun right => ?_, fun right => ?_, fun right => ?_, fun right => ?_⟩
  · exact absurd ((Ota.fetching_rightFor_iff 0).mp right).1 (by decide)
  · exact absurd ((Ota.fetching_rightFor_iff 42949673).mp right).2 (by decide)
  · exact absurd ((downloading_rightFor_iff 42949673).mp right).2 (by decide)
  · exact absurd ((uploading_rightFor_iff 42949673).mp right) (by decide)

end QcloudIot.Resource
