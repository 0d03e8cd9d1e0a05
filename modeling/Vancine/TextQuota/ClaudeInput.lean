import Vancine.TextQuota.TieredParams

/-!
# Claude input on both paths

Claude reports its prompt without the cache. The ratio path of `calculateTextQuotaSummary` bills the prompt and all
cache tokens; here is when a price expression gets as many.
-/

namespace Vancine.TextQuota

open Lib

/-! ## The ratio path -/

/-- What the request tells `calculateTextQuotaSummary` beside its usage. -/
structure QuotaRequest where
  finalFormatIsClaude : Bool
  isOpenRouterChannel : Bool
  usesCustomSettings : Bool
  cacheCreationRatioIsOne : Bool
  costReported : Bool
  /-- `CalcOpenRouterCacheCreateTokens` of the usage. -/
  openRouterCacheCreateTokens : ℤ
  /-- Whether audio input has a price of its own. -/
  hasAudioInputPrice : Bool

/-- `usageSemanticFromUsage`. -/
def usageSemanticFromUsage (request : QuotaRequest) (usage : Usage) : String :=
  if usage.usageSemantic ≠ "" then usage.usageSemantic
  else if request.finalFormatIsClaude then "anthropic"
  else "openai"

def isClaudeUsageSemantic (request : QuotaRequest) (usage : Usage) : Bool :=
  usageSemanticFromUsage request usage = "anthropic"

/-- `isLegacyClaudeDerivedOpenAIUsage`. -/
def isLegacyClaudeDerivedOpenAIUsage (request : QuotaRequest) (usage : Usage) : Bool :=
  !request.finalFormatIsClaude && usage.usageSource = "" && usage.usageSemantic = "" &&
    (0 < usage.claudeCacheCreation5mTokens || 0 < usage.claudeCacheCreation1hTokens)

/-- The input tokens that are billed, each kind at its own ratio. -/
structure RatioInput where
  base : ℤ
  cached : ℤ
  created : ℤ
  created5m : ℤ
  created1h : ℤ
  image : ℤ
  audio : ℤ

def RatioInput.tokens (input : RatioInput) : ℤ :=
  input.base + input.cached + input.created + input.created5m + input.created1h + input.image + input.audio

/-- The prompt and the cache-creation tokens of the summary, which OpenRouter reports in its own way. -/
def summaryTokens (request : QuotaRequest) (usage : Usage) : ℤ × ℤ :=
  let cacheCreationTokens := usage.promptTokensDetails.cacheCreationTokensTotal
  if request.isOpenRouterChannel ∧ isClaudeUsageSemantic request usage then
    let promptTokens := usage.promptTokens - usage.promptTokensDetails.cachedTokens
    let maybe := request.openRouterCacheCreateTokens
    let cacheCreationTokens :=
      if cacheCreationTokens = 0 ∧ ¬request.cacheCreationRatioIsOne ∧ request.costReported ∧
          ¬request.usesCustomSettings ∧ 0 ≤ maybe ∧ maybe ≤ promptTokens then maybe
      else cacheCreationTokens
    (promptTokens - cacheCreationTokens, cacheCreationTokens)
  else (usage.promptTokens, cacheCreationTokens)

/-- The input of the ratio path of `calculateTextQuotaSummary`. -/
def ratioInput (request : QuotaRequest) (usage : Usage) : RatioInput :=
  let (promptTokens, cacheCreationTokens) := summaryTokens request usage
  let cacheTokens := usage.promptTokensDetails.cachedTokens
  let created5m := usage.claudeCacheCreation5mTokens
  let created1h := usage.claudeCacheCreation1hTokens
  let imageTokens := usage.promptTokensDetails.imageTokens
  let audioTokens := usage.promptTokensDetails.audioTokens
  let separate := isClaudeUsageSemantic request usage || isLegacyClaudeDerivedOpenAIUsage request usage
  let baseTokens := promptTokens
  let baseTokens := if cacheTokens ≠ 0 ∧ ¬separate then baseTokens - cacheTokens else baseTokens
  let created := cacheCreationTokens ≠ 0 ∨ 0 < created5m ∨ 0 < created1h
  let baseTokens := if created ∧ ¬separate then baseTokens - cacheCreationTokens else baseTokens
  let split := created ∧ separate
  let baseTokens := if imageTokens ≠ 0 then baseTokens - imageTokens else baseTokens
  let audio := if audioTokens ≠ 0 ∧ request.hasAudioInputPrice then audioTokens else 0
  let baseTokens := baseTokens - audio
  { base := if baseTokens < 0 then 0 else baseTokens
    cached := cacheTokens
    created :=
      if split then max (cacheCreationTokens - created5m - created1h) 0
      else if created then cacheCreationTokens else 0
    created5m := if split then created5m else 0
    created1h := if split then created1h else 0
    image := imageTokens
    audio := audio }

/-! ## Agreement -/

/-- All cache-creation tokens: those of the two lives, and those that neither claims. -/
def allCreationTokens (usage : Usage) : ℤ :=
  max (usage.promptTokensDetails.cacheCreationTokensTotal - usage.claudeCacheCreation5mTokens -
    usage.claudeCacheCreation1hTokens) 0 + usage.claudeCacheCreation5mTokens + usage.claudeCacheCreation1hTokens

/-- `p` and the cache variables that the expression uses. -/
def tieredInput (usage : Usage) (usedVars : String → Bool) : ℤ :=
  let params := buildTieredTokenParams usage true usedVars
  params.p + ifUsed (usedVars "cr") params.cr + ifUsed (usedVars "cc") params.cc + ifUsed (usedVars "cc1h") params.cc1h

/-- No cache-creation token is left out: each kind that has tokens has a variable, and the variable is used. -/
def CreationCovered (usage : Usage) (usedVars : String → Bool) : Prop :=
  if usage.usageSemantic = "anthropic" then
    (usedVars "cc" = true ∨ usage.claudeCacheCreation5mTokens = 0) ∧
      (usedVars "cc1h" = true ∨ usage.claudeCacheCreation1hTokens = 0) ∧
        usage.promptTokensDetails.cacheCreationTokensTotal ≤
          usage.claudeCacheCreation5mTokens + usage.claudeCacheCreation1hTokens
  else
    (usedVars "cc" = true ∨ usage.promptTokensDetails.cacheCreationTokensTotal = 0) ∧
      usage.claudeCacheCreation5mTokens + usage.claudeCacheCreation1hTokens ≤
        usage.promptTokensDetails.cacheCreationTokensTotal

/-- The images, and the audio that has a price of its own, are part of the prompt. -/
def MediaInPrompt (request : QuotaRequest) (usage : Usage) : Prop :=
  usage.promptTokensDetails.imageTokens +
    (if request.hasAudioInputPrice then usage.promptTokensDetails.audioTokens else 0) ≤ usage.promptTokens

section Agreement

variable {request : QuotaRequest} {usage : Usage} {usedVars : String → Bool}

theorem tieredInput_eq (h : usage.Counted)
    (hsum : usage.promptTokens + usage.promptTokensDetails.cachedTokens ≤ 2 ^ 53) :
    tieredInput usage usedVars = usage.promptTokens + usage.promptTokensDetails.cachedTokens +
      ifUsed (usedVars "cc") (if usage.usageSemantic = "anthropic" then usage.claudeCacheCreation5mTokens
        else usage.promptTokensDetails.cacheCreationTokensTotal) +
      ifUsed (usedVars "cc1h") (if usage.usageSemantic = "anthropic" then usage.claudeCacheCreation1hTokens else 0) := by
  obtain ⟨hcr, hcc, hcc1h, -⟩ := categories_eq usedVars h true
  have hsplit : cachedImageSplit usage true usedVars = none := by simp [cachedImageSplit]
  have hp : (buildTieredTokenParams usage true usedVars).p =
      usage.promptTokens + if usedVars "cr" then 0 else usage.promptTokensDetails.cachedTokens := by
    have := h.prompt
    have := h.cached
    dsimp only [buildTieredTokenParams]
    rw [hsplit, float64_of_le h.prompt, float64_of_le h.cached,
      if_neg (show ¬Option.isSome (none : Option ℤ) = true by decide), float64_of_le ⟨by omega, hsum⟩, if_pos rfl]
    cases usedVars "cr" <;> simp <;> omega
  rw [tieredInput, hp, hcr, hcc, hcc1h, hsplit]
  cases usedVars "cr" <;> simp [ifUsed]

theorem ratioInput_tokens (h : usage.Counted) (hclaude : isClaudeUsageSemantic request usage = true)
    (hrouter : request.isOpenRouterChannel = false) : (ratioInput request usage).tokens =
      max usage.promptTokens (usage.promptTokensDetails.imageTokens +
        if request.hasAudioInputPrice then usage.promptTokensDetails.audioTokens else 0) +
      usage.promptTokensDetails.cachedTokens + allCreationTokens usage := by
  have hcreated := usage.promptTokensDetails.cacheCreationTokensTotal_nonneg
  have := h.created5m.1
  have := h.created1h.1
  have := h.image.1
  have := h.audio.1
  simp only [RatioInput.tokens, ratioInput, summaryTokens, hrouter, hclaude, allCreationTokens, Bool.true_or,
    Bool.false_eq_true, if_false, not_true, and_false, and_true]
  cases request.hasAudioInputPrice <;> simp only [Bool.false_eq_true, and_false, and_true, if_false, if_true] <;>
    split_ifs <;> omega

theorem creationCovered_iff (h : usage.Counted) :
    ifUsed (usedVars "cc") (if usage.usageSemantic = "anthropic" then usage.claudeCacheCreation5mTokens
        else usage.promptTokensDetails.cacheCreationTokensTotal) +
      ifUsed (usedVars "cc1h") (if usage.usageSemantic = "anthropic" then usage.claudeCacheCreation1hTokens else 0) =
      allCreationTokens usage ↔ CreationCovered usage usedVars := by
  have hcreated := usage.promptTokensDetails.cacheCreationTokensTotal_nonneg
  have := h.created5m.1
  have := h.created1h.1
  unfold CreationCovered allCreationTokens
  by_cases hsemantic : usage.usageSemantic = "anthropic"
  · simp only [hsemantic, if_true]
    cases usedVars "cc" <;> cases usedVars "cc1h" <;> simp [ifUsed] <;> omega
  · simp only [hsemantic, if_false]
    cases usedVars "cc" <;> cases usedVars "cc1h" <;> simp [ifUsed] <;> omega

/-- A price expression gets all input tokens of a Claude usage, as many as the ratio path bills, exactly when every
kind of cache creation that has tokens is a variable it uses and the media are part of the prompt. -/
theorem tieredInput_complete_iff (h : usage.Counted) (hclaude : isClaudeUsageSemantic request usage = true)
    (hrouter : request.isOpenRouterChannel = false)
    (hsum : usage.promptTokens + usage.promptTokensDetails.cachedTokens ≤ 2 ^ 53) :
    (tieredInput usage usedVars =
        usage.promptTokens + usage.promptTokensDetails.cachedTokens + allCreationTokens usage ∧
      tieredInput usage usedVars = (ratioInput request usage).tokens) ↔
      CreationCovered usage usedVars ∧ MediaInPrompt request usage := by
  rw [ratioInput_tokens h hclaude hrouter, tieredInput_eq h hsum, ← creationCovered_iff h, MediaInPrompt]
  omega

end Agreement

def claudeRequest : QuotaRequest where
  finalFormatIsClaude := true
  isOpenRouterChannel := false
  usesCustomSettings := false
  cacheCreationRatioIsOne := false
  costReported := false
  openRouterCacheCreateTokens := 0
  hasAudioInputPrice := false

/-- A Claude usage with a prompt of 100 tokens and 40 cached ones. -/
def claudeUsage (created created5m created1h : ℤ) : Usage where
  promptTokens := 100
  completionTokens := 0
  usageSemantic := "anthropic"
  usageSource := ""
  promptTokensDetails := { cachedTokens := 40, cachedTokensDetails := none, cachedCreationTokens := created,
                           cacheWriteTokens := 0, audioTokens := 0, imageTokens := 0 }
  completionTokenDetails := ⟨0, 0⟩
  claudeCacheCreation5mTokens := created5m
  claudeCacheCreation1hTokens := created1h

theorem tieredInput_complete_split :
    tieredInput (claudeUsage 50 30 20) (fun v => v = "cc" || v = "cc1h") = 190 ∧
      tieredInput (claudeUsage 50 30 20) (fun v => v = "cc" || v = "cc1h") =
        (ratioInput claudeRequest (claudeUsage 50 30 20)).tokens :=
  (tieredInput_complete_iff (by constructor <;> decide) (by decide) (by decide) (by decide)).mpr
    ⟨by unfold CreationCovered; decide, by unfold MediaInPrompt; decide⟩

/-- Fifty tokens written to the cache without a split are in no variable; thirty for five minutes are in none when the
expression has no `cc`. -/
theorem creation_tokens_dropped :
    (claudeUsage 50 0 0).Counted ∧ isClaudeUsageSemantic claudeRequest (claudeUsage 50 0 0) = true ∧
      tieredInput (claudeUsage 50 0 0) (fun v => v = "cr" || v = "cc" || v = "cc1h") = 140 ∧
      (ratioInput claudeRequest (claudeUsage 50 0 0)).tokens = 190 ∧
    (claudeUsage 30 30 0).Counted ∧ isClaudeUsageSemantic claudeRequest (claudeUsage 30 30 0) = true ∧
      tieredInput (claudeUsage 30 30 0) (fun v => v = "cr") = 140 ∧
      (ratioInput claudeRequest (claudeUsage 30 30 0)).tokens = 170 := by
  refine ⟨by constructor <;> decide, by decide, by decide, by decide, by constructor <;> decide, by decide, by decide,
    by decide⟩

end Vancine.TextQuota
