import QcloudIot.Http.Channel

/-!
# Urls

`_http_client_parse_url` and `_http_client_parse_host` of `utils_httpc.c`. Both copy parts of a url
into buffers of the caller. The lengths of these parts are differences of pointers that are cut to
32 bits, as are the sizes they are compared with.
-/

namespace QcloudIot.Http

/-- `memcpy(buffer, source, length); buffer[length] = '\0'`: the text copied from, up to its
    terminator, and the number of its bytes that are copied. -/
structure Copy where
  source : List UInt8
  length : UInt32
  deriving DecidableEq, Repr

/-- How many bytes of the buffer are written. -/
def Copy.extent (copy : Copy) : Nat := copy.length.toNat + 1

/-- The text that is copied. -/
def Copy.text (copy : Copy) : List UInt8 := copy.source.take copy.length.toNat

/-- Nothing behind the text is read. -/
def Copy.Readable (copy : Copy) : Prop := copy.length.toNat ≤ copy.source.length

instance (copy : Copy) : Decidable copy.Readable := inferInstanceAs (Decidable (_ ≤ _))

/-- The return code of `_http_client_parse_url` and what it has copied by then. -/
structure ParsedUrl where
  rc : Int
  scheme : Option Copy := none
  host : Option Copy := none
  path : Option Copy := none
  deriving DecidableEq, Repr

/-- `path_len`, of the path that starts at `pathPtr` behind the scheme. -/
def pathLen (hostPtr : List UInt8) (pathPtr : Nat) : UInt32 :=
  match hostPtr.idxOf? 35 with
  | some fragmentPtr => UInt32.ofNat fragmentPtr - UInt32.ofNat pathPtr
  | none => UInt32.ofNat (hostPtr.drop pathPtr).length

/-- `_http_client_parse_url` (`utils_httpc.c:69-137`). -/
def httpClientParseUrl (url : List UInt8) (maxSchemeLen maxhostLen maxPathLen : UInt32) :
    ParsedUrl :=
  match strstr schemeEnd url with
  | none => { rc := qcloudErrHttpParse }
  | some schemeLen =>
    -- compared as signed numbers of 64 bits
    if maxSchemeLen.toNat < schemeLen + 1 then { rc := qcloudErrHttpParse }
    else
      let scheme : Copy := ⟨url, UInt32.ofNat schemeLen⟩
      let hostPtr := url.drop (schemeLen + 3)
      match hostPtr.idxOf? 47 with
      | none =>
        let host : Copy := ⟨hostPtr, UInt32.ofNat hostPtr.length⟩
        { rc := qcloudRetSuccess, scheme, host, path := some ⟨[47], 1⟩ }
      | some pathPtr =>
        let hostLen := UInt32.ofNat pathPtr
        if maxhostLen < hostLen + 1 then { rc := qcloudErrHttpParse, scheme }
        else
          let host : Copy := ⟨hostPtr, hostLen⟩
          let pathLen := pathLen hostPtr pathPtr
          if maxPathLen < pathLen + 1 then { rc := qcloudErrHttpParse, scheme, host }
          else
            { rc := qcloudRetSuccess, scheme, host, path := some ⟨hostPtr.drop pathPtr, pathLen⟩ }

/-- `host_len` of `_http_client_parse_host`. -/
def hostLen (hostPtr : List UInt8) : UInt32 :=
  match hostPtr.idxOf? 47 with
  | some pathPtr => UInt32.ofNat pathPtr
  | none => UInt32.ofNat hostPtr.length

/-- `_http_client_parse_host` (`utils_httpc.c:139-168`): its return code and what it copies. -/
def httpClientCopyHost (url : List UInt8) (hostMaxLen : UInt32) : Int × Option Copy :=
  match strstr schemeEnd url with
  | none => (qcloudErrHttpParse, none)
  | some schemeLen =>
    let hostPtr := url.drop (schemeLen + 3)
    let hostLen := hostLen hostPtr
    if hostMaxLen < hostLen + 1 then (qcloudErrHttpParse, none)
    else (qcloudRetSuccess, some ⟨hostPtr, hostLen⟩)

end QcloudIot.Http
