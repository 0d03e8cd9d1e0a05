import Vancine.Snapshots.Merge

/-!
# Settled usage and conversions of usage

`CanonicalUsage` decodes a sidecar into the usage that is settled. The converters between the dialects hand an existing
sidecar on as a copy, and make one of the usage that they read when there is none.
-/

namespace Vancine.Snapshots

open Lib

/-! ## Settled usage -/

/-- The fields of a Responses usage fill what the fields of a chat usage leave at zero. -/
def Usage.filledPrompt (usage : Usage) : ℤ :=
  if usage.promptTokens = 0 ∧ 0 < usage.inputTokens then usage.inputTokens else usage.promptTokens

def Usage.filledCompletion (usage : Usage) : ℤ :=
  if usage.completionTokens = 0 ∧ 0 < usage.outputTokens then usage.outputTokens else usage.completionTokens

def Usage.filledDetails (usage : Usage) : InputTokenDetails :=
  let filled :=
    match usage.inputTokensDetails with
    | none => usage.promptTokensDetails
    | some details => details.merge usage.promptTokensDetails
  if filled.cachedTokens = 0 ∧ 0 < usage.promptCacheHitTokens then
    { filled with cachedTokens := usage.promptCacheHitTokens }
  else filled

def BillingUsage.canonicalOpenAIUsage (usage : BillingUsage) (openAIUsage : Usage) : Usage :=
  { openAIUsage.clone with
    promptTokensDetails := openAIUsage.filledDetails
    promptTokens := openAIUsage.filledPrompt
    completionTokens := openAIUsage.filledCompletion
    inputTokens :=
      if openAIUsage.inputTokens = 0 ∧ 0 < openAIUsage.filledPrompt then openAIUsage.filledPrompt
      else openAIUsage.inputTokens
    outputTokens :=
      if openAIUsage.outputTokens = 0 ∧ 0 < openAIUsage.filledCompletion then openAIUsage.filledCompletion
      else openAIUsage.outputTokens
    totalTokens :=
      if openAIUsage.totalTokens = 0 then openAIUsage.filledPrompt + openAIUsage.filledCompletion
      else openAIUsage.totalTokens
    usageSemantic := billingUsageSemanticOpenAI
    usageSource := usage.source
    billingUsage := some usage.clone }

def BillingUsage.canonicalClaudeUsage (usage : BillingUsage) (claudeUsage : ClaudeUsage) : Usage :=
  { promptTokens := claudeUsage.inputTokens
    completionTokens := claudeUsage.outputTokens
    totalTokens := claudeUsage.inputTokens + claudeUsage.outputTokens
    inputTokens :=
      claudeUsage.inputTokens + claudeUsage.cacheReadInputTokens + claudeUsage.cacheCreationInputTokens
    outputTokens := claudeUsage.outputTokens
    usageSemantic := billingUsageSemanticAnthropic
    usageSource := billingUsageSourceClaudeMessages
    billingUsage := some usage.clone
    -- the flat counts are read only when there is no sub-object
    claudeCacheCreation5mTokens :=
      (claudeUsage.cacheCreation.map ClaudeCacheCreationUsage.ephemeral5mInputTokens).getD
        claudeUsage.claudeCacheCreation5mTokens
    claudeCacheCreation1hTokens :=
      (claudeUsage.cacheCreation.map ClaudeCacheCreationUsage.ephemeral1hInputTokens).getD
        claudeUsage.claudeCacheCreation1hTokens
    promptTokensDetails :=
      { cachedTokens := claudeUsage.cacheReadInputTokens
        cachedCreationTokens := claudeUsage.cacheCreationInputTokens } }

section Runes

variable (runes : Runes)

/-- `addGeminiInputTokenDetail`. -/
def addGeminiInputTokenDetail (details : InputTokenDetails) (detail : GeminiPromptTokensDetails) : InputTokenDetails :=
  match normalizeGeminiModality runes detail.modality with
  | "AUDIO" => { details with audioTokens := details.audioTokens + detail.tokenCount }
  | "IMAGE" => { details with imageTokens := details.imageTokens + detail.tokenCount }
  | "TEXT" => { details with textTokens := details.textTokens + detail.tokenCount }
  | _ => details

def addGeminiOutputTokenDetail (details : OutputTokenDetails) (detail : GeminiPromptTokensDetails) :
    OutputTokenDetails :=
  match normalizeGeminiModality runes detail.modality with
  | "IMAGE" => { details with imageTokens := details.imageTokens + detail.tokenCount }
  | "AUDIO" => { details with audioTokens := details.audioTokens + detail.tokenCount }
  | "TEXT" => { details with textTokens := details.textTokens + detail.tokenCount }
  | _ => details

def BillingUsage.canonicalGeminiUsage (usage : BillingUsage) (metadata : GeminiUsageMetadata) : Usage :=
  let promptTokens := metadata.promptTokenCount + metadata.toolUsePromptTokenCount
  let completionTokens := metadata.candidatesTokenCount + metadata.thoughtsTokenCount
  let input := (metadata.promptTokensDetails ++ metadata.toolUsePromptTokensDetails).foldl
    (addGeminiInputTokenDetail runes) { cachedTokens := metadata.cachedContentTokenCount }
  { promptTokens
    completionTokens :=
      if metadata.totalTokenCount ≠ 0 ∧ completionTokens ≤ 0 then max (metadata.totalTokenCount - promptTokens) 0
      else completionTokens
    totalTokens :=
      if metadata.totalTokenCount = 0 then promptTokens + completionTokens else metadata.totalTokenCount
    usageSemantic := billingUsageSemanticGemini
    usageSource := billingUsageSourceGeminiChat
    billingUsage := some usage.clone
    completionTokenDetails := metadata.candidatesTokensDetails.foldl (addGeminiOutputTokenDetail runes)
      { reasoningTokens := metadata.thoughtsTokenCount }
    promptTokensDetails :=
      if 0 < promptTokens ∧ input.textTokens = 0 ∧ input.audioTokens = 0 then
        { input with textTokens := promptTokens }
      else input }

/-- `CanonicalUsage`; none when no payload is recognized or none of them has tokens. -/
def BillingUsage.canonicalUsage (usage : BillingUsage) : Option Usage :=
  let source := trimSpace usage.source
  let semantic := trimSpace usage.semantic
  match usage.openAIUsage.filter fun openAIUsage => openAIUsage.hasTokens &&
      (runes.equalFold source billingUsageSourceOAIChat || runes.equalFold source billingUsageSourceOAIResponses ||
        runes.equalFold semantic billingUsageSemanticOpenAI) with
  | some openAIUsage => some (usage.canonicalOpenAIUsage openAIUsage)
  | none =>
    match usage.claudeUsage.filter fun claudeUsage => claudeUsage.hasTokens &&
        (runes.equalFold source billingUsageSourceClaudeMessages ||
          runes.equalFold semantic billingUsageSemanticAnthropic) with
    | some claudeUsage => some (usage.canonicalClaudeUsage claudeUsage)
    | none =>
      match usage.geminiUsageMetadata.filter fun metadata => metadata.hasTokens &&
          (runes.equalFold source billingUsageSourceGeminiChat ||
            runes.equalFold semantic billingUsageSemanticGemini) with
      | some metadata => some (usage.canonicalGeminiUsage runes metadata)
      | none => none

end Runes

/-! ## OpenAI -/

/-- The counts that make `UsageFromChatUsage` hand the details on. -/
def InputTokenDetails.reported (d : InputTokenDetails) : Bool :=
  d.cachedTokens ≠ 0 || d.imageTokens ≠ 0 || d.audioTokens ≠ 0 || d.cachedCreationTokens ≠ 0 ||
    d.cacheWriteTokens ≠ 0 || d.textTokens ≠ 0

def usageFromChatUsage (src : Usage) : Usage :=
  { usageSemantic := src.usageSemantic
    usageSource := src.usageSource
    billingUsage := (src.billingUsage.map BillingUsage.clone).or (newOpenAIChatBillingUsage src)
    cost := src.cost
    promptTokens := src.promptTokens
    inputTokens := src.promptTokens
    completionTokens := src.completionTokens
    outputTokens := src.completionTokens
    totalTokens := if src.totalTokens ≠ 0 then src.totalTokens else src.promptTokens + src.completionTokens
    inputTokensDetails := if src.promptTokensDetails.reported then some src.promptTokensDetails else none
    completionTokenDetails := src.completionTokenDetails
    claudeCacheCreation5mTokens := src.claudeCacheCreation5mTokens
    claudeCacheCreation1hTokens := src.claudeCacheCreation1hTokens }

def usageFromResponsesUsage (src : Usage) (createBillingSnapshot : Bool) : Usage :=
  { usageSemantic := src.usageSemantic
    usageSource := src.usageSource
    billingUsage := (src.billingUsage.map BillingUsage.clone).or
      (if createBillingSnapshot then newOpenAIResponsesBillingUsage src else none)
    cost := src.cost
    promptTokens := src.inputTokens
    inputTokens := src.inputTokens
    completionTokens := src.outputTokens
    outputTokens := src.outputTokens
    totalTokens := if src.totalTokens ≠ 0 then src.totalTokens else src.inputTokens + src.outputTokens
    promptTokensDetails := src.inputTokensDetails.getD {}
    completionTokenDetails := src.completionTokenDetails
    claudeCacheCreation5mTokens := src.claudeCacheCreation5mTokens
    claudeCacheCreation1hTokens := src.claudeCacheCreation1hTokens }

/-! ## Claude -/

def normalizeCacheCreationSplit (totalTokens tokens5m tokens1h : ℤ) : ℤ × ℤ :=
  (tokens5m + max (totalTokens - tokens5m - tokens1h) 0, tokens1h)

def InputTokenDetails.cacheCreationTokensTotal (d : InputTokenDetails) : ℤ :=
  max (max d.cacheWriteTokens d.cachedCreationTokens) 0

/-- `UsageFromOpenAI` of a usage without a payload of Claude in its sidecar. -/
def claudeUsageOfCounts (usage : Usage) (billingUsage : Option BillingUsage) : ClaudeUsage :=
  let split := normalizeCacheCreationSplit usage.promptTokensDetails.cachedCreationTokens
    usage.claudeCacheCreation5mTokens usage.claudeCacheCreation1hTokens
  let cacheCreationTokens := usage.promptTokensDetails.cacheCreationTokensTotal
  { inputTokens :=
      if usage.usageSemantic ≠ billingUsageSemanticAnthropic then
        max (usage.promptTokens - usage.promptTokensDetails.cachedTokens - cacheCreationTokens) 0
      else usage.promptTokens
    outputTokens := usage.completionTokens
    cacheCreationInputTokens := cacheCreationTokens
    cacheReadInputTokens := usage.promptTokensDetails.cachedTokens
    billingUsage
    cacheCreation := if 0 < split.1 ∨ 0 < split.2 then some ⟨split.1, split.2⟩ else none }

def usageFromOpenAI (usage : Usage) : ClaudeUsage :=
  match usage.billingUsage with
  | none => claudeUsageOfCounts usage (newOpenAIChatBillingUsage usage)
  | some billingUsage =>
    match billingUsage.clone.claudeUsage with
    | none => claudeUsageOfCounts usage (some billingUsage.clone)
    | some claudeUsage =>
      if billingUsage.source = billingUsageSourceClaudeMessages ∨
          billingUsage.semantic = billingUsageSemanticAnthropic then
        { claudeUsage with billingUsage := some billingUsage.clone }
      else claudeUsageOfCounts usage (some billingUsage.clone)

def cacheCreationTokensForOpenAIUsage (usage : Usage) : ℤ :=
  let splitCacheCreationTokens := usage.claudeCacheCreation5mTokens + usage.claudeCacheCreation1hTokens
  if splitCacheCreationTokens = 0 then usage.promptTokensDetails.cachedCreationTokens
  else if splitCacheCreationTokens < usage.promptTokensDetails.cachedCreationTokens then
    usage.promptTokensDetails.cachedCreationTokens
  else splitCacheCreationTokens

def buildOpenAIStyleUsageFromClaudeUsage (usage : Usage) : Usage :=
  let split := normalizeCacheCreationSplit usage.promptTokensDetails.cachedCreationTokens
    usage.claudeCacheCreation5mTokens usage.claudeCacheCreation1hTokens
  let cacheCreationTokens := cacheCreationTokensForOpenAIUsage usage
  let totalInputTokens := usage.promptTokens + usage.promptTokensDetails.cachedTokens + cacheCreationTokens
  { usage with
    billingUsage := usage.billingUsage.map BillingUsage.clone
    claudeCacheCreation5mTokens := split.1
    claudeCacheCreation1hTokens := split.2
    promptTokensDetails := { usage.promptTokensDetails with cacheWriteTokens := cacheCreationTokens }
    promptTokens := totalInputTokens
    inputTokens := totalInputTokens
    totalTokens := totalInputTokens + usage.completionTokens
    usageSemantic := "openai"
    usageSource := "anthropic" }

def usageFromClaudeAPIUsage (usage : ClaudeUsage) : Usage :=
  buildOpenAIStyleUsageFromClaudeUsage
    { promptTokens := usage.inputTokens
      completionTokens := usage.outputTokens
      usageSemantic := "anthropic"
      usageSource := "anthropic"
      billingUsage := (usage.billingUsage.map BillingUsage.clone).or (newClaudeMessagesBillingUsage usage)
      promptTokensDetails :=
        { cachedTokens := usage.cacheReadInputTokens
          cachedCreationTokens := usage.cacheCreationInputTokens }
      claudeCacheCreation5mTokens :=
        (usage.cacheCreation.map ClaudeCacheCreationUsage.ephemeral5mInputTokens).getD 0
      claudeCacheCreation1hTokens :=
        (usage.cacheCreation.map ClaudeCacheCreationUsage.ephemeral1hInputTokens).getD 0 }

/-! ## Gemini -/

/-- `openAIBillingUsageFromUsage`. -/
def openAIBillingUsageFromUsage (usage : Usage) : Option BillingUsage :=
  (usage.billingUsage.map BillingUsage.clone).or (newOpenAIChatBillingUsage usage)

/-- `geminiBillingMetadataFromOpenAIUsage`: the payload of a Gemini sidecar, with the sidecar on it. -/
def geminiBillingMetadataFromOpenAIUsage (usage : Usage) : Option GeminiUsageMetadata :=
  match usage.billingUsage with
  | none => none
  | some billingUsage =>
    if billingUsage.source ≠ billingUsageSourceGeminiChat ∧ billingUsage.semantic ≠ billingUsageSemanticGemini then none
    else billingUsage.clone.geminiUsageMetadata.map fun metadata =>
      { metadata with billingUsage := some billingUsage.clone }

/-- The metadata of a Gemini response for a usage whose total is sent as `totalTokens`. -/
def geminiUsageMetadata (usage : Usage) (totalTokens : ℤ) : GeminiUsageMetadata :=
  (geminiBillingMetadataFromOpenAIUsage usage).getD
    { promptTokenCount := usage.promptTokens
      candidatesTokenCount := usage.completionTokens
      totalTokenCount := totalTokens
      billingUsage := openAIBillingUsageFromUsage usage }

/-- The total that `ResponseOpenAI2Gemini` sends; the stream sends the one of the usage. -/
def responseTotalTokens (usage : Usage) : ℤ :=
  if usage.totalTokens = 0 then usage.promptTokens + usage.completionTokens else usage.totalTokens

/-- Here the modalities are compared as they are. -/
def addInputModality (details : InputTokenDetails) (detail : GeminiPromptTokensDetails) : InputTokenDetails :=
  match detail.modality with
  | "AUDIO" => { details with audioTokens := details.audioTokens + detail.tokenCount }
  | "IMAGE" => { details with imageTokens := details.imageTokens + detail.tokenCount }
  | "TEXT" => { details with textTokens := details.textTokens + detail.tokenCount }
  | _ => details

def addOutputModality (details : OutputTokenDetails) (detail : GeminiPromptTokensDetails) : OutputTokenDetails :=
  match detail.modality with
  | "IMAGE" => { details with imageTokens := details.imageTokens + detail.tokenCount }
  | "AUDIO" => { details with audioTokens := details.audioTokens + detail.tokenCount }
  | "TEXT" => { details with textTokens := details.textTokens + detail.tokenCount }
  | _ => details

def usageFromGeminiMetadata (metadata : GeminiUsageMetadata) (fallbackPromptTokens : ℤ) : Usage :=
  let counted := metadata.promptTokenCount + metadata.toolUsePromptTokenCount
  let promptTokens := if counted ≤ 0 ∧ 0 < fallbackPromptTokens then fallbackPromptTokens else counted
  let completionTokens := metadata.candidatesTokenCount + metadata.thoughtsTokenCount
  let input := (metadata.promptTokensDetails ++ metadata.toolUsePromptTokensDetails).foldl addInputModality
    { cachedTokens := metadata.cachedContentTokenCount }
  { promptTokens
    completionTokens :=
      if 0 < metadata.totalTokenCount ∧ completionTokens ≤ 0 then metadata.totalTokenCount - promptTokens
      else completionTokens
    totalTokens := metadata.totalTokenCount
    billingUsage := (metadata.billingUsage.map BillingUsage.clone).or (newGeminiChatBillingUsage metadata false)
    completionTokenDetails := metadata.candidatesTokensDetails.foldl addOutputModality
      { reasoningTokens := metadata.thoughtsTokenCount }
    promptTokensDetails :=
      if 0 < promptTokens ∧ input.textTokens = 0 ∧ input.audioTokens = 0 then
        { input with textTokens := promptTokens }
      else input }

/-! ## Chains -/

/-- A conversion of a usage to another dialect and back to the shape of OpenAI. -/
inductive Conversion
  | chat
  | responses
  | claude
  | gemini (stream : Bool) (fallbackPromptTokens : ℤ)

def Conversion.apply (usage : Usage) : Conversion → Usage
  | .chat => usageFromChatUsage usage
  | .responses => usageFromResponsesUsage usage true
  | .claude => usageFromClaudeAPIUsage (usageFromOpenAI usage)
  | .gemini stream fallbackPromptTokens =>
    usageFromGeminiMetadata
      (geminiUsageMetadata usage (if stream then usage.totalTokens else responseTotalTokens usage))
      fallbackPromptTokens

end Vancine.Snapshots
