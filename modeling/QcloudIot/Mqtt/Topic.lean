import QcloudIot.Mqtt.Types

/-!
# Topic dispatch

`_is_topic_equals` and `_is_topic_matched` of `mqtt_client_common.c`. The scan of
`_is_topic_matched` keeps `curf` as the rest of the filter and `curn` as the rest of the
topic name together with the byte before it, `*(curn - 1)`, which is absent at the start.
-/

namespace QcloudIot.Mqtt

/-- `'/'` -/
abbrev slash : UInt8 := 47
/-- `'+'` -/
abbrev plus : UInt8 := 43
/-- `'#'` -/
abbrev hash : UInt8 := 35

/-- Where the scan of `_is_topic_matched` stands. -/
structure TopicCursor where
  curf : List UInt8
  before : Option UInt8
  curn : List UInt8
  deriving DecidableEq, Repr

/-- The inner loop at a `'+'`: from a byte of the topic name on to the last byte of its
    level; returns that byte and what follows it. -/
def skipLevel : UInt8 → List UInt8 → UInt8 × List UInt8
  | c, [] => (c, [])
  | c, next :: rest => if next ≠ slash then skipLevel next rest else (c, next :: rest)

/-- The main loop of `_is_topic_matched`: the cursor when it is left. -/
def topicScan : List UInt8 → Option UInt8 → List UInt8 → TopicCursor
  | [], before, curn => ⟨[], before, curn⟩
  | f :: curf, before, [] => ⟨f :: curf, before, []⟩
  | f :: curf, before, n :: curn =>
    if f = plus ∧ n = slash then topicScan curf before (n :: curn)
    else if n = slash ∧ f ≠ slash then ⟨f :: curf, before, n :: curn⟩
    else if f ≠ plus ∧ f ≠ hash ∧ f ≠ n then ⟨f :: curf, before, n :: curn⟩
    else if f = plus then
      topicScan curf (some (skipLevel n curn).1) (skipLevel n curn).2
    else if f = hash then
      -- curn = curn_end - 1, then one step further
      topicScan curf (n :: curn).getLast? []
    else topicScan curf (some n) curn

/-- The test after the loop. -/
def TopicCursor.matched : TopicCursor → Bool
  | ⟨[], _, curn⟩ => curn.isEmpty
  | ⟨f :: curf, before, _⟩ =>
    f == hash || curf.head? == some hash || (f == plus && before == some slash)

/-- `_is_topic_matched` (`mqtt_client_common.c:729-771`); the topic name is given by its
    `topicNameLen` bytes. -/
def isTopicMatched (topicFilter : CStr) (topicName : List UInt8) : Bool :=
  (topicScan topicFilter.bytes none topicName).matched

/-- `_is_topic_equals` (`mqtt_client_common.c:712-715`) on a NUL-terminated topic name. -/
def isTopicEquals (topicFilter : List UInt8) (topicName : CStr) : Bool :=
  topicFilter.length == topicName.length && topicFilter == topicName.bytes

end QcloudIot.Mqtt
