import Vancine.ParamOverride.Operations
import Vancine.Lib.Run

/-!
# Header overrides over the attempts of a request

Each attempt of a request sets the channel of the shared `RelayInfo` and applies the override of that channel. The
header overrides that come out of an applied override are kept as the runtime overrides of the request, and these
replace the header overrides of every later channel.

An attempt that applied no override leaves no trace, and any other shows on some later channel
(`headers_independent_iff`).
-/

namespace Vancine.ParamOverride

open Lib Lib.Json

structure LastError where
  statusCode : ℤ
  message : String
  code : String
  type : String
  skipRetry : Bool

/-- What overrides read of the channel. -/
structure ChannelMeta where
  paramOverride : Fields
  headersOverride : Fields
  upstreamModelName : String

structure RelayInfo where
  userId : ℤ
  userGroup : String
  tokenGroup : String
  usingGroup : String
  originModelName : String
  requestURLPath : String
  requestHeaders : List (String × String)
  isChannelTest : Bool
  retryIndex : ℤ
  lastError : Option LastError
  channelMeta : Option ChannelMeta
  runtimeHeadersOverride : Headers
  useRuntimeHeadersOverride : Bool

/-! ## The effective overrides -/

def isHeaderPassthroughRuleKeyForOverride (lib : Library) (key : String) : Bool :=
  let key := trimSpace (lib.toLower key)
  key ≠ "" && (key = "*" || hasPrefix key "re:" || hasPrefix key "regex:")

/-- One entry of `sanitizeHeaderOverrideMap`. -/
def sanitizeEntry (lib : Library) (target : Headers) (field : String × Json) : Headers :=
  let normalizedKey := normalizeHeaderContextKey lib field.1
  if normalizedKey = "" then target
  else
    let normalizedValue := trimSpace (field.2.printed lib.formatFloat)
    if normalizedValue = "" then
      if isHeaderPassthroughRuleKeyForOverride lib normalizedKey then target.insert normalizedKey "" else target
    else target.insert normalizedKey normalizedValue

def sanitizeHeaderOverrideMap (lib : Library) (source : Fields) : Headers := source.foldl (sanitizeEntry lib) ∅

/-- A map of headers as `map[string]any`. -/
def headerFields (headers : Headers) : Fields := headers.entries.map fun e => (e.1, .string e.2)

def getHeaderOverrideMap (info : RelayInfo) : Fields := (info.channelMeta.map ChannelMeta.headersOverride).getD []

def getParamOverrideMap (info : RelayInfo) : Fields := (info.channelMeta.map ChannelMeta.paramOverride).getD []

def getEffectiveHeaderOverride (lib : Library) (info : RelayInfo) : Headers :=
  if info.useRuntimeHeadersOverride then sanitizeHeaderOverrideMap lib (headerFields info.runtimeHeadersOverride)
  else sanitizeHeaderOverrideMap lib (getHeaderOverrideMap info)

/-! ## The context -/

def buildRequestHeadersContext (lib : Library) (headers : List (String × String)) : Headers :=
  headers.foldl (fun target header =>
    let normalized := normalizeHeaderContextKey lib header.1
    let value := trimSpace header.2
    if normalized = "" ∨ value = "" then target else target.insert normalized value) ∅

def modelFields (info : RelayInfo) : Fields :=
  let upstream := (info.channelMeta.map ChannelMeta.upstreamModelName).getD ""
  (if upstream ≠ "" then [("model", .string upstream), ("upstream_model", .string upstream)] else []) ++
    if info.originModelName ≠ "" then
      ("original_model", .string info.originModelName) ::
        (if upstream ≠ "" then [] else [("model", .string info.originModelName)])
    else []

def lastErrorFields : Option LastError → Fields
  | none => []
  | some e =>
    [("last_error", .object [("status_code", .number e.statusCode), ("message", .string e.message),
        ("code", .string e.code), ("error_code", .string e.code), ("type", .string e.type),
        ("error_type", .string e.type), ("skip_retry", .bool e.skipRetry)]),
      ("last_error_status_code", .number e.statusCode), ("last_error_message", .string e.message),
      ("last_error_code", .string e.code), ("last_error_type", .string e.type)]

def buildParamOverrideContext (lib : Library) (info : RelayInfo) : Context where
  base :=
    [("user_id", .number info.userId), ("user_group", .string info.userGroup),
      ("token_group", .string info.tokenGroup), ("using_group", .string info.usingGroup)] ++
    modelFields info ++
    (if info.requestURLPath ≠ "" then [("request_path", .string info.requestURLPath)] else []) ++
    [("retry_index", .number info.retryIndex), ("is_retry", .bool (0 < info.retryIndex)),
      ("retry", .object [("index", .number info.retryIndex), ("is_retry", .bool (0 < info.retryIndex))])] ++
    lastErrorFields info.lastError ++
    [("is_channel_test", .bool info.isChannelTest)]
  requestHeaders := buildRequestHeadersContext lib info.requestHeaders
  headerOverride := sanitizeHeaderOverrideMap lib (headerFields (getEffectiveHeaderOverride lib info))

/-- The recorder has no fields that JSON shows. -/
def withRecorder (context : Context) : Context :=
  { context with base := context.base ++ [("__param_override_audit_recorder", .object [])] }

/-- What `ApplyParamOverride` gets as its context. -/
def overrideContext (lib : Library) (debugEnabled : Bool) (info : RelayInfo) : Context :=
  let context := buildParamOverrideContext lib info
  if shouldEnableParamOverrideAudit lib debugEnabled (getParamOverrideMap info) then withRecorder context else context

/-! ## Attempts -/

/-- The attempt's channel, what the retry loop sets before it, and the body to send. -/
structure Attempt where
  paramOverride : Fields
  headersOverride : Fields
  /-- The name of the model, once it is mapped. -/
  upstreamModelName : String
  usingGroup : String
  retryIndex : ℤ
  lastError : Option LastError
  jsonData : Json

/-- `InitChannelMeta`, after the retry loop has set its fields. -/
def initChannelMeta (a : Attempt) (info : RelayInfo) : RelayInfo :=
  { info with
    usingGroup := a.usingGroup
    retryIndex := a.retryIndex
    lastError := a.lastError
    channelMeta := some ⟨a.paramOverride, a.headersOverride, a.upstreamModelName⟩ }

def syncRuntimeHeaderOverrideFromContext (lib : Library) (context : Context) (info : RelayInfo) : RelayInfo :=
  { info with
    runtimeHeadersOverride := sanitizeHeaderOverrideMap lib (headerFields context.headerOverride)
    useRuntimeHeadersOverride := true }

def applyParamOverrideWithRelayInfo (lib : Library) (debugEnabled : Bool) (jsonData : Json) (info : RelayInfo) :
    RelayInfo × Except OverrideError Json :=
  let paramOverride := getParamOverrideMap info
  if paramOverride = [] then (info, .ok jsonData)
  else
    match applyParamOverride lib jsonData paramOverride (overrideContext lib debugEnabled info) with
    | .error e => (info, .error e)
    | .ok (result, context) => (syncRuntimeHeaderOverrideFromContext lib context info, .ok result)

/-- One attempt at the shared info. -/
def attempt (lib : Library) (debugEnabled : Bool) (info : RelayInfo) (a : Attempt) : RelayInfo :=
  (applyParamOverrideWithRelayInfo lib debugEnabled a.jsonData (initChannelMeta a info)).1

/-- What the request brings along. -/
structure Request where
  userId : ℤ
  userGroup : String
  tokenGroup : String
  originModelName : String
  requestURLPath : String
  requestHeaders : List (String × String)
  isChannelTest : Bool

/-- `genBaseRelayInfo`. -/
def Request.info (r : Request) : RelayInfo where
  userId := r.userId
  userGroup := r.userGroup
  tokenGroup := r.tokenGroup
  usingGroup := r.tokenGroup
  originModelName := r.originModelName
  requestURLPath := r.requestURLPath
  requestHeaders := r.requestHeaders
  isChannelTest := r.isChannelTest
  retryIndex := 0
  lastError := none
  channelMeta := none
  runtimeHeadersOverride := ∅
  useRuntimeHeadersOverride := false

/-- The effective header overrides of the attempt that follows the earlier ones. -/
def headersOnAttempt (lib : Library) (debugEnabled : Bool) (r : Request) (earlier : List Attempt) (a : Attempt) :
    Headers :=
  getEffectiveHeaderOverride lib (attempt lib debugEnabled (run (attempt lib debugEnabled) r.info earlier) a)

/-- The attempt, taken on its own, has an override and applies it. -/
def Applies (lib : Library) (debugEnabled : Bool) (r : Request) (a : Attempt) : Bool :=
  a.paramOverride ≠ [] &&
    (applyParamOverride lib a.jsonData a.paramOverride
      (overrideContext lib debugEnabled (initChannelMeta a r.info))).toBool

/-! ## Independence -/

section Independence

variable {lib : Library} {debugEnabled : Bool} {r : Request}

/-- Nothing of an earlier attempt that the next one reads. -/
def Clean (r : Request) (info : RelayInfo) : Prop :=
  ∀ a, initChannelMeta a info = initChannelMeta a r.info

theorem clean_info (r : Request) : Clean r r.info := fun _ => rfl

theorem attempt_of_clean {info : RelayInfo} (h : Clean r info) (a : Attempt) :
    attempt lib debugEnabled info a = attempt lib debugEnabled r.info a := by
  unfold attempt
  rw [h a]

/-- An attempt without an override to apply keeps the info clean. -/
theorem attempt_clean {info : RelayInfo} (h : Clean r info) {a : Attempt} (ha : Applies lib debugEnabled r a = false) :
    Clean r (attempt lib debugEnabled info a) := by
  intro b
  rw [attempt_of_clean h]
  unfold attempt applyParamOverrideWithRelayInfo
  have hmap : getParamOverrideMap (initChannelMeta a r.info) = a.paramOverride := rfl
  rw [hmap]
  by_cases hempty : a.paramOverride = []
  · rw [if_pos hempty]
    rfl
  · rw [if_neg hempty]
    unfold Applies at ha
    cases hresult : applyParamOverride lib a.jsonData a.paramOverride
        (overrideContext lib debugEnabled (initChannelMeta a r.info)) with
    | error e => rfl
    | ok result =>
      rw [hresult] at ha
      simp [hempty, Except.toBool] at ha

/-- An attempt that applies its override leaves runtime overrides behind. -/
theorem attempt_applies {info : RelayInfo} (h : Clean r info) {a : Attempt} (ha : Applies lib debugEnabled r a = true) :
    (attempt lib debugEnabled info a).useRuntimeHeadersOverride = true := by
  rw [attempt_of_clean h]
  unfold attempt applyParamOverrideWithRelayInfo
  have hmap : getParamOverrideMap (initChannelMeta a r.info) = a.paramOverride := rfl
  rw [hmap]
  unfold Applies at ha
  obtain ⟨hempty, hok⟩ := Bool.and_eq_true_iff.mp ha
  rw [if_neg (by simpa using hempty)]
  cases hresult : applyParamOverride lib a.jsonData a.paramOverride
      (overrideContext lib debugEnabled (initChannelMeta a r.info)) with
  | error e =>
    rw [hresult] at hok
    cases hok
  | ok result => rfl

theorem attempt_useRuntime {info : RelayInfo} (h : info.useRuntimeHeadersOverride = true) (a : Attempt) :
    (attempt lib debugEnabled info a).useRuntimeHeadersOverride = true := by
  unfold attempt applyParamOverrideWithRelayInfo
  dsimp only
  split
  · exact h
  split
  · exact h
  · rfl

variable {earlier : List Attempt}

theorem run_clean (h : ∀ a ∈ earlier, Applies lib debugEnabled r a = false) :
    Clean r (run (attempt lib debugEnabled) r.info earlier) :=
  run_invariant_along (I := Clean r) (P := fun _ a => Applies lib debugEnabled r a = false)
    (fun _ _ hclean ha => attempt_clean hclean ha) (clean_info r) (Along.of_mem h _)

/-- After the first attempt that applied its override the runtime overrides are in use. -/
theorem run_useRuntime {info : RelayInfo} (h : Clean r info)
    (hex : ∃ a ∈ earlier, Applies lib debugEnabled r a = true) :
    (run (attempt lib debugEnabled) info earlier).useRuntimeHeadersOverride = true := by
  induction earlier generalizing info with
  | nil =>
    obtain ⟨a, hmem, -⟩ := hex
    exact absurd hmem List.not_mem_nil
  | cons b earlier ih =>
    rw [run_cons]
    by_cases hb : Applies lib debugEnabled r b = true
    · exact run_invariant (I := fun info : RelayInfo => info.useRuntimeHeadersOverride = true)
        (fun _ a h => attempt_useRuntime h a) (attempt_applies h hb) earlier
    · have hb' : Applies lib debugEnabled r b = false := by simpa using hb
      apply ih (attempt_clean h hb')
      obtain ⟨a, hmem, ha⟩ := hex
      rcases List.mem_cons.mp hmem with rfl | hmem
      · exact absurd ha hb
      · exact ⟨a, hmem, ha⟩

/-- A channel without an override, whose own header overrides are these. -/
def plainAttempt (headersOverride : Fields) : Attempt := ⟨[], headersOverride, "", "", 1, none, .null⟩

theorem lookup_sanitize_single : (sanitizeHeaderOverrideMap lib [("x", .string "1")]).lookup "x" = some "1" := by
  have hkey : normalizeHeaderContextKey lib "x" = "x" := by
    have hlower : lib.toLower "x" = "x" := by
      unfold Library.toLower
      rfl
    unfold normalizeHeaderContextKey
    rw [hlower]
    decide +kernel
  have hvalue : trimSpace ((Json.string "1").printed lib.formatFloat) = "1" := by
    unfold Json.printed
    decide +kernel
  show (sanitizeEntry lib ∅ ("x", .string "1")).lookup "x" = some "1"
  unfold sanitizeEntry
  simp only [hkey, hvalue]
  rfl

/-- With runtime overrides in use, the header overrides of the channel are not read. -/
theorem headers_plainAttempt (h : (run (attempt lib debugEnabled) r.info earlier).useRuntimeHeadersOverride = true)
    (headersOverride : Fields) : headersOnAttempt lib debugEnabled r earlier (plainAttempt headersOverride) =
      sanitizeHeaderOverrideMap lib
        (headerFields (run (attempt lib debugEnabled) r.info earlier).runtimeHeadersOverride) := by
  show getEffectiveHeaderOverride lib
    (initChannelMeta (plainAttempt headersOverride) (run (attempt lib debugEnabled) r.info earlier)) = _
  unfold getEffectiveHeaderOverride
  rw [if_pos (show (initChannelMeta _ _).useRuntimeHeadersOverride = true from h)]
  rfl

theorem headers_plainAttempt_alone (headersOverride : Fields) :
    headersOnAttempt lib debugEnabled r [] (plainAttempt headersOverride) =
      sanitizeHeaderOverrideMap lib headersOverride := rfl

end Independence

/-- The headers of an attempt are those that the attempt gives on its own. -/
def HeadersIndependent (lib : Library) (debugEnabled : Bool) (r : Request) (earlier : List Attempt) (next : Attempt) :
    Prop :=
  ∀ name, (headersOnAttempt lib debugEnabled r earlier next).lookup name =
    (headersOnAttempt lib debugEnabled r [] next).lookup name

/-- **Header overrides on retry.** Every next attempt has the headers that it has on its own exactly when no earlier
attempt applied an override. -/
theorem headers_independent_iff (lib : Library) (debugEnabled : Bool) (r : Request) (earlier : List Attempt) :
    (∀ next, HeadersIndependent lib debugEnabled r earlier next) ↔
      ∀ a ∈ earlier, Applies lib debugEnabled r a = false := by
  constructor
  · intro h
    by_contra hex
    push Not at hex
    obtain ⟨a, hmem, ha⟩ := hex
    have hruntime := run_useRuntime (clean_info r) ⟨a, hmem, by simpa using ha⟩
    -- two channels with different headers get the same ones
    have hsome := h (plainAttempt [("x", .string "1")]) "x"
    have hnone := h (plainAttempt []) "x"
    rw [headers_plainAttempt hruntime, headers_plainAttempt_alone] at hsome hnone
    rw [hsome, lookup_sanitize_single] at hnone
    cases hnone
  · intro h next name
    unfold headersOnAttempt
    rw [attempt_of_clean (run_clean h)]
    rfl

/-! ## A leaked credential -/

/-- `gjson` and `sjson` at the fields of an object. -/
def fieldLibrary : Library where
  get data path := match data with
    | .object fields => fields.lookup path
    | _ => none
  raw _ := ""
  set data path value := match data with
    | .object fields => .ok (.object (setField path value fields))
    | _ => .error "not an object"
  delete data path := match data with
    | .object fields => .ok (.object (fields.filter fun f => f.1 ≠ path))
    | _ => .error "not an object"
  unmarshal _ := none
  lowerRune c := c
  upperRune c := c
  foldRune c := c.toLower
  formatFloat n := toString n.num
  regexReplace _ current _ := .ok current

def chatRequest : Request := ⟨1, "default", "default", "gpt-4o", "/v1/chat/completions", [], false⟩

/-- A channel that sets its own key as a header, and another field of the body. -/
def keyedAttempt : Attempt where
  paramOverride := [("temperature", .number 1)]
  headersOverride := [("X-Api-Key", .string "secret-of-a")]
  upstreamModelName := "gpt-4o"
  usingGroup := "default"
  retryIndex := 0
  lastError := none
  jsonData := .object [("model", .string "gpt-4o")]

/-- The channel of another provider, tried next. -/
def otherAttempt (headersOverride : Fields) : Attempt :=
  ⟨[], headersOverride, "gpt-4o", "default", 1, some ⟨500, "upstream error", "bad_response", "upstream_error", false⟩,
    .object [("model", .string "gpt-4o")]⟩

/-- **A leak.** The second channel is sent the key of the first and not its own header. -/
theorem retry_sends_other_key :
    (headersOnAttempt fieldLibrary false chatRequest [keyedAttempt]
      (otherAttempt [("X-Other", .string "own")])).lookup "x-api-key" = some "secret-of-a" ∧
    (headersOnAttempt fieldLibrary false chatRequest [keyedAttempt]
      (otherAttempt [("X-Other", .string "own")])).lookup "x-other" = none ∧
    (headersOnAttempt fieldLibrary false chatRequest []
      (otherAttempt [("X-Other", .string "own")])).lookup "x-api-key" = none ∧
    ¬∀ next, HeadersIndependent fieldLibrary false chatRequest [keyedAttempt] next := by
  have hkeyed : (headersOnAttempt fieldLibrary false chatRequest [keyedAttempt]
      (otherAttempt [("X-Other", .string "own")])).entries = [⟨"x-api-key", "secret-of-a"⟩] := by
    decide +kernel
  have halone : (headersOnAttempt fieldLibrary false chatRequest []
      (otherAttempt [("X-Other", .string "own")])).entries = [⟨"x-other", "own"⟩] := by
    decide +kernel
  unfold AList.lookup
  rw [hkeyed, halone]
  refine ⟨rfl, rfl, rfl, fun h => ?_⟩
  have hkey := h (otherAttempt [("X-Other", .string "own")]) "x-api-key"
  unfold AList.lookup at hkey
  rw [hkeyed, halone] at hkey
  cases hkey

end Vancine.ParamOverride
