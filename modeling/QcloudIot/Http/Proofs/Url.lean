import QcloudIot.Http.Url

/-!
# Which urls are parsed safely

Both parsers stay inside their buffers and agree, and the path is the one of the url, except where
a length wraps, where a url without a path has a longer host than there is room for, and where the
fragment starts in front of the first `/`.
-/

namespace QcloudIot.Http

/-! ## What is expected -/

/-- The text is the path of what follows the scheme of a url: it starts at the first `/` behind the
    authority and ends in front of the fragment, if there is a `/` at all. -/
def IsPathOf (behindScheme text : List UInt8) : Prop :=
  if 47 ∈ behindScheme then
    ∃ authority fragment, behindScheme = authority ++ text ++ fragment ∧
      47 ∉ authority ∧ 35 ∉ authority ∧ text.head? = some 47 ∧ 35 ∉ text ∧
      (fragment = [] ∨ fragment.head? = some 35)
  else text = [47]

/-- Both parsers are safe for a url and some sizes of the buffers, and they agree. -/
structure UrlSound (url : List UInt8) (maxSchemeLen maxhostLen maxPathLen : UInt32) : Prop where
  scheme : ∀ copy, (httpClientParseUrl url maxSchemeLen maxhostLen maxPathLen).scheme = some copy →
    copy.extent ≤ maxSchemeLen.toNat
  host : ∀ copy, (httpClientParseUrl url maxSchemeLen maxhostLen maxPathLen).host = some copy →
    copy.extent ≤ maxhostLen.toNat
  path : ∀ copy, (httpClientParseUrl url maxSchemeLen maxhostLen maxPathLen).path = some copy →
    copy.extent ≤ maxPathLen.toNat
  parseHost : ∀ hostMaxLen copy, (httpClientCopyHost url hostMaxLen).2 = some copy →
    copy.extent ≤ hostMaxLen.toNat
  agree : (httpClientParseUrl url maxSchemeLen maxhostLen maxPathLen).rc = qcloudRetSuccess →
    (httpClientCopyHost url maxhostLen).1 = qcloudRetSuccess →
    (httpClientParseUrl url maxSchemeLen maxhostLen maxPathLen).host.map Copy.text =
      (httpClientCopyHost url maxhostLen).2.map Copy.text
  rejected : (httpClientCopyHost url maxhostLen).1 ≠ qcloudRetSuccess →
    (httpClientParseUrl url maxSchemeLen maxhostLen maxPathLen).rc ≠ qcloudRetSuccess
  isPath : ∀ schemeLen copy, strstr schemeEnd url = some schemeLen →
    (httpClientParseUrl url maxSchemeLen maxhostLen maxPathLen).path = some copy →
    copy.Readable ∧ IsPathOf (url.drop (schemeLen + 3)) copy.text

/-! ## When it is met -/

/-- Where the path ends in what follows the scheme. -/
def pathEnd (behindScheme : List UInt8) : Nat :=
  (behindScheme.idxOf? 35).getD behindScheme.length

/-- The length of the path that starts at `start`, cut to 32 bits. -/
def cutPathLen (behindScheme : List UInt8) (start : Nat) : Nat :=
  (((pathEnd behindScheme : Int) - start) % 2 ^ 32).toNat

/-- The path is refused, or it lies in front of the fragment and its length is not cut. -/
def PathFits (behindScheme : List UInt8) (start : Nat) (maxPathLen : UInt32) : Prop :=
  maxPathLen.toNat < cutPathLen behindScheme start + 1 ∧ cutPathLen behindScheme start + 1 < 2 ^ 32 ∨
    start ≤ pathEnd behindScheme ∧ pathEnd behindScheme - start + 1 < 2 ^ 32

/-- What has to hold of a url and the sizes of the buffers. -/
def UrlFits (url : List UInt8) (maxSchemeLen maxhostLen maxPathLen : UInt32) : Prop :=
  match strstr schemeEnd url with
  | none => True
  | some schemeLen =>
    match (url.drop (schemeLen + 3)).idxOf? 47 with
    | none =>
      ((url.drop (schemeLen + 3)).length + 1) % 2 ^ 32 ≠ 0 ∧
        (maxSchemeLen.toNat ≤ schemeLen ∨
          (url.drop (schemeLen + 3)).length % 2 ^ 32 + 1 ≤ maxhostLen.toNat ∧ 2 ≤ maxPathLen.toNat)
    | some pathPtr =>
      (pathPtr + 1) % 2 ^ 32 ≠ 0 ∧
        (maxSchemeLen.toNat ≤ schemeLen ∨ maxhostLen.toNat < pathPtr % 2 ^ 32 + 1 ∨
          PathFits (url.drop (schemeLen + 3)) pathPtr maxPathLen)

/-! ## Sizes of 32 bits -/

/-- The check of a length against the size of a buffer, where the length of the terminator wraps. -/
theorem size_check {len max : UInt32} :
    max < len + 1 ↔ max.toNat < len.toNat + 1 ∧ len.toNat + 1 < 2 ^ 32 := by
  have lenSmall := len.toNat_lt
  have maxSmall := max.toNat_lt
  rw [UInt32.lt_iff_toNat_lt, UInt32.toNat_add, UInt32.toNat_one]
  omega

/-- A check that is passed bounds what is written, unless the length wraps. -/
theorem extent_fits {source : List UInt8} {len : UInt32} :
    (∀ max, ¬ max < len + 1 → (Copy.mk source len).extent ≤ max.toNat) ↔
      len.toNat + 1 < 2 ^ 32 := by
  rw [Copy.extent]
  constructor
  · intro fits
    by_contra wraps
    have passed := fits 0 (by rw [size_check]; omega)
    rw [UInt32.toNat_zero] at passed
    omega
  · intro noWrap max passed
    rw [size_check] at passed
    dsimp only
    omega

/-! ## The host and the path -/

section Split

variable {text : List UInt8} {c : UInt8} {i : Nat}

/-- A text is split at the first place of a character. -/
theorem idxOf?_split (found : text.idxOf? c = some i) :
    i < text.length ∧ c ∉ text.take i ∧ ∃ rest, text.drop i = c :: rest := by
  obtain ⟨inside, isHere, first⟩ := List.idxOf?_eq_some_iff.mp found
  refine ⟨inside, fun mem => ?_, text.drop (i + 1), ?_⟩
  · obtain ⟨j, below, isC⟩ := List.mem_take_iff_getElem.mp mem
    exact first j (by omega) isC
  · rw [List.drop_eq_getElem_cons inside, isHere]

/-- The first place of a character is known from a split. -/
theorem idxOf?_of_split {before behind : List UInt8} (absent : c ∉ before)
    (isHead : behind.head? = some c) : (before ++ behind).idxOf? c = some before.length := by
  rw [List.idxOf?_eq_some_iff]
  obtain ⟨rest, rfl⟩ : ∃ rest, behind = c :: rest := by
    cases behind with
    | nil => exact nomatch isHead
    | cons d rest => exact ⟨rest, by rw [Option.some.inj isHead]⟩
  refine ⟨by simp, by simp, fun j below isC => ?_⟩
  rw [List.getElem_append_left below] at isC
  exact absent (isC ▸ List.getElem_mem below)

end Split

theorem toNat_pathLen {hostPtr : List UInt8} {pathPtr : Nat} (inside : pathPtr ≤ hostPtr.length) :
    (pathLen hostPtr pathPtr).toNat = cutPathLen hostPtr pathPtr := by
  rw [pathLen, cutPathLen, pathEnd]
  cases hostPtr.idxOf? 35 with
  | none =>
    rw [Option.getD_none, List.length_drop, UInt32.toNat_ofNat']
    omega
  | some fragmentPtr =>
    rw [Option.getD_some]
    dsimp only
    rw [UInt32.toNat_sub, UInt32.toNat_ofNat', UInt32.toNat_ofNat']
    omega

/-- The end of the path of a url that is split at its path. -/
theorem pathEnd_of_split {authority text fragment : List UInt8} (noFragment : 35 ∉ authority)
    (noFragment' : 35 ∉ text) (isFragment : fragment = [] ∨ fragment.head? = some 35) :
    pathEnd (authority ++ text ++ fragment) = authority.length + text.length := by
  have absent : 35 ∉ authority ++ text := fun mem =>
    (List.mem_append.mp mem).elim noFragment noFragment'
  rw [pathEnd]
  rcases isFragment with rfl | isHead
  · rw [List.append_nil, List.idxOf?_eq_none_iff.mpr absent, Option.getD_none, List.length_append]
  · rw [idxOf?_of_split absent isHead, Option.getD_some, List.length_append]

/-- What ends the path. -/
theorem pathEnd_spec (behindScheme : List UInt8) : pathEnd behindScheme ≤ behindScheme.length ∧
    35 ∉ behindScheme.take (pathEnd behindScheme) ∧
    (behindScheme.drop (pathEnd behindScheme) = [] ∨
      (behindScheme.drop (pathEnd behindScheme)).head? = some 35) := by
  rw [pathEnd]
  cases found : behindScheme.idxOf? 35 with
  | none =>
    rw [Option.getD_none, List.take_length, List.drop_length]
    exact ⟨Nat.le_refl _, List.idxOf?_eq_none_iff.mp found, .inl rfl⟩
  | some fragmentPtr =>
    obtain ⟨inside, absent, rest, isFragment⟩ := idxOf?_split found
    rw [Option.getD_some, isFragment]
    exact ⟨Nat.le_of_lt inside, absent, .inr rfl⟩

/-- What is copied from the first `/` on is the path exactly where the fragment does not start in
    front of it, and the length is not cut. -/
theorem isPathOf_iff {behindScheme : List UInt8} {pathPtr : Nat}
    (found : behindScheme.idxOf? 47 = some pathPtr) (len : UInt32)
    (isLen : len.toNat = cutPathLen behindScheme pathPtr) :
    (Copy.mk (behindScheme.drop pathPtr) len).Readable ∧
        IsPathOf behindScheme (Copy.mk (behindScheme.drop pathPtr) len).text ↔
      pathPtr ≤ pathEnd behindScheme ∧ pathEnd behindScheme - pathPtr < 2 ^ 32 := by
  obtain ⟨inside, noSlash, rest, isSlash⟩ := idxOf?_split found
  have mem : 47 ∈ behindScheme := by
    rw [← List.take_append_drop pathPtr behindScheme, isSlash]
    simp
  rw [IsPathOf, if_pos mem, Copy.Readable, Copy.text]
  dsimp only
  constructor
  · rintro ⟨readable, authority, fragment, isSplit, noSlash', noFragment, isHead, noFragment',
      isFragment⟩
    have start : pathPtr = authority.length := by
      have first : (authority ++ ((behindScheme.drop pathPtr).take len.toNat ++ fragment)).idxOf? 47 =
          some authority.length :=
        idxOf?_of_split noSlash' (by rw [List.head?_append, isHead]; rfl)
      rw [← List.append_assoc, ← isSplit, found] at first
      exact Option.some.inj first
    have finish := pathEnd_of_split noFragment noFragment' isFragment
    rw [← isSplit, List.length_take, Nat.min_eq_left readable] at finish
    have small := len.toNat_lt
    omega
  · rintro ⟨start, short⟩
    obtain ⟨finish, absent, isFragment⟩ := pathEnd_spec behindScheme
    have exact' : len.toNat = pathEnd behindScheme - pathPtr := by
      rw [isLen, cutPathLen]
      omega
    have isFront : behindScheme.take pathPtr ++ (behindScheme.drop pathPtr).take len.toNat =
        behindScheme.take (pathEnd behindScheme) := by
      rw [exact', ← List.take_add, Nat.add_sub_cancel' start]
    have behind : pathPtr < pathEnd behindScheme := by
      refine Nat.lt_of_le_of_ne start fun same => ?_
      rw [← same, isSlash] at isFragment
      exact absurd isFragment (by simp)
    refine ⟨by rw [List.length_drop]; omega, behindScheme.take pathPtr,
      behindScheme.drop (pathEnd behindScheme), ?_, noSlash, ?_, ?_, ?_, isFragment⟩
    · rw [isFront, List.take_append_drop]
    · exact fun mem => absent (isFront ▸ List.mem_append_left _ mem)
    · rw [isSlash, show len.toNat = len.toNat - 1 + 1 by omega, List.take_succ_cons]
      rfl
    · exact fun mem => absent (isFront ▸ List.mem_append_right _ mem)

/-! ## Both parsers -/

section Parsers

variable {url : List UInt8} {schemeLen : Nat} {maxSchemeLen maxhostLen maxPathLen : UInt32}

/-- `_http_client_parse_host` on a url with a scheme. -/
theorem httpClientCopyHost_eq (found : strstr schemeEnd url = some schemeLen) (max : UInt32) :
    httpClientCopyHost url max =
      if max < hostLen (url.drop (schemeLen + 3)) + 1 then (qcloudErrHttpParse, none)
      else (qcloudRetSuccess, some ⟨url.drop (schemeLen + 3), hostLen (url.drop (schemeLen + 3))⟩)
          := by
  rw [httpClientCopyHost, found]

/-- `_http_client_parse_host` stays inside every buffer exactly where the length of the host does
    not wrap. -/
theorem copyHost_inside_iff (found : strstr schemeEnd url = some schemeLen) :
    (∀ max copy, (httpClientCopyHost url max).2 = some copy → copy.extent ≤ max.toNat) ↔
      (hostLen (url.drop (schemeLen + 3))).toNat + 1 < 2 ^ 32 := by
  rw [← @extent_fits (url.drop (schemeLen + 3))]
  simp only [httpClientCopyHost_eq found]
  constructor
  · intro inside max passed
    refine inside max _ ?_
    rw [if_neg passed]
  · intro inside max copy isCopy
    by_cases long : max < hostLen (url.drop (schemeLen + 3)) + 1
    · rw [if_pos long] at isCopy
      exact nomatch isCopy
    · rw [if_neg long] at isCopy
      rw [← Option.some.inj isCopy]
      exact inside max long

theorem parse_failed : qcloudErrHttpParse ≠ qcloudRetSuccess := by decide

theorem takeWhile_ne (text : List UInt8) (c : UInt8) :
    text.takeWhile (· ≠ c) = text.take ((text.idxOf? c).getD text.length) := by
  induction text with
  | nil => rfl
  | cons d text ih =>
    rw [List.idxOf?_cons]
    by_cases here : d = c
    · rw [here, if_pos (beq_self_eq_true c), List.takeWhile_cons_of_neg (by simp)]
      rfl
    · rw [if_neg (by simpa using here), List.takeWhile_cons_of_pos (by simpa using here), ih]
      cases text.idxOf? c <;> rfl

/-- The host that a connection is opened to is the one that is copied, where its length does not
    wrap. -/
theorem httpClientParseHost_eq (short : url.length + 1 < 2 ^ 32) (max : UInt32) :
    httpClientParseHost url max.toNat =
      match httpClientCopyHost url max with
      | (_, some copy) => .ok copy.text
      | (rc, none) => .error rc := by
  rw [httpClientParseHost]
  cases found : strstr schemeEnd url with
  | none => rw [httpClientCopyHost, found]
  | some schemeLen =>
    have isLen : (hostLen (url.drop (schemeLen + 3))).toNat =
        ((url.drop (schemeLen + 3)).takeWhile (· ≠ 47)).length := by
      have inside : (url.drop (schemeLen + 3)).length ≤ url.length :=
        (List.drop_sublist _ _).length_le
      rw [takeWhile_ne, hostLen, List.length_take]
      cases slash : (url.drop (schemeLen + 3)).idxOf? 47 with
      | none =>
        rw [Option.getD_none, UInt32.toNat_ofNat']
        omega
      | some pathPtr =>
        have below := (idxOf?_split slash).1
        rw [Option.getD_some, UInt32.toNat_ofNat']
        omega
    have isText : (url.drop (schemeLen + 3)).take (hostLen (url.drop (schemeLen + 3))).toNat =
        (url.drop (schemeLen + 3)).takeWhile (· ≠ 47) := by
      rw [isLen]
      exact (List.prefix_iff_eq_take.mp (List.takeWhile_prefix _)).symm
    have noWrap : (hostLen (url.drop (schemeLen + 3))).toNat + 1 < 2 ^ 32 := by
      have inside : (url.drop (schemeLen + 3)).length ≤ url.length :=
        (List.drop_sublist _ _).length_le
      have part := (List.takeWhile_prefix (l := url.drop (schemeLen + 3)) (· ≠ 47)).length_le
      rw [isLen]
      omega
    rw [httpClientCopyHost_eq found]
    dsimp only
    by_cases long : max < hostLen (url.drop (schemeLen + 3)) + 1
    · rw [if_pos long, ← isLen, if_pos (size_check.mp long).1]
    · rw [if_neg long, ← isLen, if_neg fun less => long (size_check.mpr ⟨less, noWrap⟩)]
      exact congrArg Except.ok isText.symm

/-- A scheme without room is refused. -/
theorem urlSound_refused (found : strstr schemeEnd url = some schemeLen)
    (short : maxSchemeLen.toNat < schemeLen + 1) :
    UrlSound url maxSchemeLen maxhostLen maxPathLen ↔
      (hostLen (url.drop (schemeLen + 3))).toNat + 1 < 2 ^ 32 := by
  have parsed : httpClientParseUrl url maxSchemeLen maxhostLen maxPathLen =
      { rc := qcloudErrHttpParse } := by
    rw [httpClientParseUrl, found]
    dsimp only
    rw [if_pos short]
  rw [← copyHost_inside_iff found]
  refine ⟨fun sound => sound.parseHost, fun inside => ?_⟩
  exact
    { scheme := by rw [parsed]; nofun
      host := by rw [parsed]; nofun
      path := by rw [parsed]; nofun
      parseHost := inside
      agree := by rw [parsed]; exact fun success => absurd success parse_failed
      rejected := by rw [parsed]; exact fun _ => parse_failed
      isPath := by rw [parsed]; nofun }

/-- Without a path, the host is copied whatever its length is. -/
theorem urlSound_bare (found : strstr schemeEnd url = some schemeLen)
    (room : ¬ maxSchemeLen.toNat < schemeLen + 1)
    (bare : (url.drop (schemeLen + 3)).idxOf? 47 = none) :
    UrlSound url maxSchemeLen maxhostLen maxPathLen ↔
      (hostLen (url.drop (schemeLen + 3))).toNat + 1 < 2 ^ 32 ∧
        (hostLen (url.drop (schemeLen + 3))).toNat + 1 ≤ maxhostLen.toNat ∧
        2 ≤ maxPathLen.toNat := by
  have isLen : hostLen (url.drop (schemeLen + 3)) =
      UInt32.ofNat (url.drop (schemeLen + 3)).length := by
    rw [hostLen, bare]
  have parsed : httpClientParseUrl url maxSchemeLen maxhostLen maxPathLen =
      { rc := qcloudRetSuccess
        scheme := some ⟨url, UInt32.ofNat schemeLen⟩
        host := some ⟨url.drop (schemeLen + 3), hostLen (url.drop (schemeLen + 3))⟩
        path := some ⟨[47], 1⟩ } := by
    rw [httpClientParseUrl, found]
    dsimp only
    rw [if_neg room, bare, isLen]
  rw [← copyHost_inside_iff found]
  constructor
  · intro sound
    have host := sound.host ⟨_, hostLen (url.drop (schemeLen + 3))⟩ (by rw [parsed])
    exact ⟨sound.parseHost, host, sound.path ⟨[47], 1⟩ (by rw [parsed])⟩
  · rintro ⟨inside, fits, two⟩
    have passed : ¬ maxhostLen < hostLen (url.drop (schemeLen + 3)) + 1 := by
      rw [size_check]
      omega
    have copied := httpClientCopyHost_eq found maxhostLen
    rw [if_neg passed] at copied
    have small := maxSchemeLen.toNat_lt
    refine
      { scheme := ?_, host := ?_, path := ?_, parseHost := inside, agree := ?_, rejected := ?_
        isPath := ?_ }
    all_goals rw [parsed]
    · intro copy isCopy
      rw [← Option.some.inj isCopy, Copy.extent]
      dsimp only
      rw [UInt32.toNat_ofNat']
      omega
    · intro copy isCopy
      rw [← Option.some.inj isCopy]
      exact fits
    · intro copy isCopy
      rw [← Option.some.inj isCopy]
      exact two
    · rw [copied]
      exact fun _ _ => rfl
    · rw [copied]
      exact fun failed => absurd rfl failed
    · intro other copy isScheme isCopy
      obtain rfl : schemeLen = other := Option.some.inj (found.symm.trans isScheme)
      rw [← Option.some.inj isCopy]
      refine ⟨by decide, ?_⟩
      rw [IsPathOf, if_neg (List.idxOf?_eq_none_iff.mp bare)]
      decide

/-- A host without room is refused. -/
theorem urlSound_longHost (found : strstr schemeEnd url = some schemeLen)
    (room : ¬ maxSchemeLen.toNat < schemeLen + 1) {pathPtr : Nat}
    (slash : (url.drop (schemeLen + 3)).idxOf? 47 = some pathPtr)
    (long : maxhostLen < UInt32.ofNat pathPtr + 1) :
    UrlSound url maxSchemeLen maxhostLen maxPathLen := by
  have isLen : hostLen (url.drop (schemeLen + 3)) = UInt32.ofNat pathPtr := by
    rw [hostLen, slash]
  have parsed : httpClientParseUrl url maxSchemeLen maxhostLen maxPathLen =
      { rc := qcloudErrHttpParse, scheme := some ⟨url, UInt32.ofNat schemeLen⟩ } := by
    rw [httpClientParseUrl, found]
    dsimp only
    rw [if_neg room, slash]
    dsimp only
    rw [if_pos long]
  have small := maxSchemeLen.toNat_lt
  refine
    { scheme := ?_, host := ?_, path := ?_, parseHost := ?_, agree := ?_, rejected := ?_
      isPath := ?_ }
  · rw [parsed]
    intro copy isCopy
    rw [← Option.some.inj isCopy, Copy.extent]
    dsimp only
    rw [UInt32.toNat_ofNat']
    omega
  · rw [parsed]
    nofun
  · rw [parsed]
    nofun
  · rw [copyHost_inside_iff found, isLen]
    exact (size_check.mp long).2
  · rw [parsed]
    exact fun success => absurd success parse_failed
  · rw [parsed]
    exact fun _ => parse_failed
  · rw [parsed]
    nofun

/-- A url with a host that fits. -/
theorem urlSound_path (found : strstr schemeEnd url = some schemeLen)
    (room : ¬ maxSchemeLen.toNat < schemeLen + 1) {pathPtr : Nat}
    (slash : (url.drop (schemeLen + 3)).idxOf? 47 = some pathPtr)
    (fits : ¬ maxhostLen < UInt32.ofNat pathPtr + 1) :
    UrlSound url maxSchemeLen maxhostLen maxPathLen ↔
      (UInt32.ofNat pathPtr).toNat + 1 < 2 ^ 32 ∧
        PathFits (url.drop (schemeLen + 3)) pathPtr maxPathLen := by
  have isLen : hostLen (url.drop (schemeLen + 3)) = UInt32.ofNat pathPtr := by
    rw [hostLen, slash]
  obtain ⟨inside, -, -⟩ := idxOf?_split slash
  have isCut := toNat_pathLen (Nat.le_of_lt inside)
  have copied := httpClientCopyHost_eq found maxhostLen
  rw [isLen, if_neg fits] at copied
  have hosts := copyHost_inside_iff found
  rw [isLen] at hosts
  rw [PathFits, ← isCut]
  have small := maxSchemeLen.toNat_lt
  by_cases long : maxPathLen < pathLen (url.drop (schemeLen + 3)) pathPtr + 1
  · have parsed : httpClientParseUrl url maxSchemeLen maxhostLen maxPathLen =
        { rc := qcloudErrHttpParse
          scheme := some ⟨url, UInt32.ofNat schemeLen⟩
          host := some ⟨url.drop (schemeLen + 3), UInt32.ofNat pathPtr⟩ } := by
      rw [httpClientParseUrl, found]
      dsimp only
      rw [if_neg room, slash]
      dsimp only
      rw [if_neg fits, if_pos long]
    refine ⟨fun sound => ⟨hosts.mp sound.parseHost, .inl (size_check.mp long)⟩, fun holds => ?_⟩
    refine
      { scheme := ?_, host := ?_, path := ?_, parseHost := hosts.mpr holds.1, agree := ?_
        rejected := ?_, isPath := ?_ }
    all_goals rw [parsed]
    · intro copy isCopy
      rw [← Option.some.inj isCopy, Copy.extent]
      dsimp only
      rw [UInt32.toNat_ofNat']
      omega
    · intro copy isCopy
      rw [← Option.some.inj isCopy]
      exact extent_fits.mpr holds.1 maxhostLen fits
    · nofun
    · exact fun success => absurd success parse_failed
    · exact fun _ => parse_failed
    · nofun
  · have parsed : httpClientParseUrl url maxSchemeLen maxhostLen maxPathLen =
        { rc := qcloudRetSuccess
          scheme := some ⟨url, UInt32.ofNat schemeLen⟩
          host := some ⟨url.drop (schemeLen + 3), UInt32.ofNat pathPtr⟩
          path := some ⟨(url.drop (schemeLen + 3)).drop pathPtr,
            pathLen (url.drop (schemeLen + 3)) pathPtr⟩ } := by
      rw [httpClientParseUrl, found]
      dsimp only
      rw [if_neg room, slash]
      dsimp only
      rw [if_neg fits, if_neg long]
    have isPath := isPathOf_iff slash _ isCut
    rw [size_check] at long
    constructor
    · intro sound
      refine ⟨hosts.mp sound.parseHost, .inr ?_⟩
      have extent := sound.path ⟨_, pathLen (url.drop (schemeLen + 3)) pathPtr⟩ (by rw [parsed])
      obtain ⟨start, short⟩ := isPath.mp (sound.isPath schemeLen _ found (by rw [parsed]))
      have pathSmall := maxPathLen.toNat_lt
      rw [Copy.extent, isCut, cutPathLen] at extent
      omega
    · rintro ⟨hostSmall, refused | ⟨start, short⟩⟩
      · exact absurd refused long
      refine
        { scheme := ?_, host := ?_, path := ?_, parseHost := hosts.mpr hostSmall, agree := ?_
          rejected := ?_, isPath := ?_ }
      all_goals rw [parsed]
      · intro copy isCopy
        rw [← Option.some.inj isCopy, Copy.extent]
        dsimp only
        rw [UInt32.toNat_ofNat']
        omega
      · intro copy isCopy
        rw [← Option.some.inj isCopy]
        exact extent_fits.mpr hostSmall maxhostLen fits
      · intro copy isCopy
        rw [← Option.some.inj isCopy]
        refine extent_fits.mpr ?_ maxPathLen (by rwa [size_check])
        rw [isCut, cutPathLen]
        omega
      · rw [copied]
        exact fun _ _ => rfl
      · rw [copied]
        exact fun failed => absurd rfl failed
      · intro other copy isScheme isCopy
        obtain rfl : schemeLen = other := Option.some.inj (found.symm.trans isScheme)
        rw [← Option.some.inj isCopy]
        exact isPath.mpr ⟨start, by omega⟩

end Parsers

/-- Both parsers are safe and agree exactly where no length wraps or is cut, a host without a path
    has room, and the fragment does not start in front of the first `/`. -/
theorem urlSound_iff (url : List UInt8) (maxSchemeLen maxhostLen maxPathLen : UInt32) :
    UrlSound url maxSchemeLen maxhostLen maxPathLen ↔
      UrlFits url maxSchemeLen maxhostLen maxPathLen := by
  rw [UrlFits]
  cases found : strstr schemeEnd url with
  | none =>
    have parsed : httpClientParseUrl url maxSchemeLen maxhostLen maxPathLen =
        { rc := qcloudErrHttpParse } := by
      rw [httpClientParseUrl, found]
    have copied : ∀ max, httpClientCopyHost url max = (qcloudErrHttpParse, none) := by
      intro max
      rw [httpClientCopyHost, found]
    refine ⟨fun _ => trivial, fun _ => ?_⟩
    exact
      { scheme := by rw [parsed]; nofun
        host := by rw [parsed]; nofun
        path := by rw [parsed]; nofun
        parseHost := fun max => by rw [copied]; nofun
        agree := by rw [parsed]; exact fun success => absurd success parse_failed
        rejected := by rw [parsed]; exact fun _ => parse_failed
        isPath := by rw [parsed]; nofun }
  | some schemeLen =>
    dsimp only
    cases slash : (url.drop (schemeLen + 3)).idxOf? 47 with
    | none =>
      have isLen : (hostLen (url.drop (schemeLen + 3))).toNat =
          (url.drop (schemeLen + 3)).length % 2 ^ 32 := by
        rw [hostLen, slash]
        exact UInt32.toNat_ofNat'
      dsimp only
      by_cases short : maxSchemeLen.toNat < schemeLen + 1
      · rw [urlSound_refused found short, isLen]
        omega
      · rw [urlSound_bare found short slash, isLen]
        omega
    | some pathPtr =>
      have isLen : (hostLen (url.drop (schemeLen + 3))).toNat = pathPtr % 2 ^ 32 := by
        rw [hostLen, slash]
        exact UInt32.toNat_ofNat'
      dsimp only
      by_cases short : maxSchemeLen.toNat < schemeLen + 1
      · rw [urlSound_refused found short, isLen]
        omega
      by_cases long : maxhostLen < UInt32.ofNat pathPtr + 1
      · have bounds := size_check.mp long
        rw [UInt32.toNat_ofNat'] at bounds
        refine ⟨fun _ => ⟨by omega, .inr (.inl bounds.1)⟩, fun _ => ?_⟩
        exact urlSound_longHost found short slash long
      · rw [urlSound_path found short slash long, UInt32.toNat_ofNat']
        rw [size_check, UInt32.toNat_ofNat'] at long
        constructor
        · rintro ⟨small, path⟩
          exact ⟨by omega, .inr (.inr path)⟩
        · rintro ⟨noWrap, refused | refused | path⟩
          · omega
          · omega
          · exact ⟨by omega, path⟩

/-- `http://` in front of a host of 64 bytes, for which there is no room and no check. -/
def longHost : List UInt8 := [104, 116, 116, 112, 58, 47, 47] ++ List.replicate 64 97

/-- `http://h#/`, whose path has the length -1. -/
def earlyFragment : List UInt8 := [104, 116, 116, 112, 58, 47, 47, 104, 35, 47]

/-- A host of 64 bytes is written into 64 bytes with its terminator, and 4294967295 bytes of a path
    into 1024. -/
theorem parseUrl_overruns :
    ¬ UrlSound longHost 8 64 1024 ∧ ¬ UrlSound earlyFragment 8 64 1024 := by
  constructor
  · intro sound
    exact absurd (sound.host ⟨List.replicate 64 97, 64⟩ (by decide)) (by decide)
  · intro sound
    exact absurd (sound.path ⟨[47], 4294967295⟩ (by decide)) (by decide)

end QcloudIot.Http
