import Vancine.Snapshots.Usage

/-!
# Merging usage snapshots

A stream reports its usage several times. `MergeUsageNonZero` lays a later snapshot over an earlier one field by
field, and so do the merges of the sidecar within one dialect; a sidecar of another dialect replaces the payload.
-/

namespace Vancine.Snapshots

open Lib

/-- A later count overwrites the current one unless it is zero. -/
def overlay (current incoming : ℤ) : ℤ := if 0 < incoming then incoming else current

/-- Text fields keep their value when a snapshot leaves them empty. -/
def overlayText (current incoming : String) : String := if incoming ≠ "" then incoming else current

/-! ## OpenAI -/

def CachedTokenDetails.merge (current incoming : CachedTokenDetails) : CachedTokenDetails where
  textTokens := incoming.textTokens.or current.textTokens
  imageTokens := incoming.imageTokens.or current.imageTokens
  audioTokens := incoming.audioTokens.or current.audioTokens

/-- `mergeInputTokenDetails`. -/
def InputTokenDetails.merge (current incoming : InputTokenDetails) : InputTokenDetails where
  cachedTokens := overlay current.cachedTokens incoming.cachedTokens
  cachedTokensDetails :=
    match incoming.cachedTokensDetails with
    | none => current.cachedTokensDetails
    | some details => some ((current.cachedTokensDetails.getD ⟨none, none, none⟩).merge details)
  cachedCreationTokens := overlay current.cachedCreationTokens incoming.cachedCreationTokens
  cacheWriteTokens := overlay current.cacheWriteTokens incoming.cacheWriteTokens
  textTokens := overlay current.textTokens incoming.textTokens
  audioTokens := overlay current.audioTokens incoming.audioTokens
  imageTokens := overlay current.imageTokens incoming.imageTokens

/-- The details that `MergeUsageNonZero` lays over at all. -/
def InputTokenDetails.reports (details : InputTokenDetails) : Bool :=
  0 < details.cachedTokens || 0 < details.cachedCreationTokens || 0 < details.cacheWriteTokens ||
    0 < details.textTokens || 0 < details.audioTokens || 0 < details.imageTokens ||
    details.cachedTokensDetails.isSome

def mergeInputTokensDetails (current incoming : Option InputTokenDetails) : Option InputTokenDetails :=
  match incoming with
  | none => current
  | some details => if details.reports then some ((current.getD {}).merge details) else current

def OutputTokenDetails.merge (current incoming : OutputTokenDetails) : OutputTokenDetails where
  textTokens := overlay current.textTokens incoming.textTokens
  audioTokens := overlay current.audioTokens incoming.audioTokens
  imageTokens := overlay current.imageTokens incoming.imageTokens
  reasoningTokens := overlay current.reasoningTokens incoming.reasoningTokens

/-- `reflect.ValueOf(cost).IsZero()`. -/
def costIsZero : Json → Bool
  | .null => true
  | .bool b => !b
  | .number n => n = 0
  | .string s => s = ""
  | .array _ | .object _ => false

def mergeCost (current incoming : Option Json) : Option Json :=
  match incoming with
  | none => current
  | some cost => if costIsZero cost then current else some cost

/-- The totals are raised to the sums of their parts. -/
def Usage.raiseTotal (usage : Usage) : Usage :=
  { usage with
    totalTokens := max (max usage.totalTokens (usage.promptTokens + usage.completionTokens))
      (usage.inputTokens + usage.outputTokens) }

/-- `MergeUsageNonZero` of an incoming snapshot without a sidecar. -/
def mergeUsageCounts (current incoming : Usage) : Usage :=
  { current with
    promptTokens := overlay current.promptTokens incoming.promptTokens
    completionTokens := overlay current.completionTokens incoming.completionTokens
    totalTokens := overlay current.totalTokens incoming.totalTokens
    promptCacheHitTokens := overlay current.promptCacheHitTokens incoming.promptCacheHitTokens
    inputTokens := overlay current.inputTokens incoming.inputTokens
    outputTokens := overlay current.outputTokens incoming.outputTokens
    claudeCacheCreation5mTokens := overlay current.claudeCacheCreation5mTokens incoming.claudeCacheCreation5mTokens
    claudeCacheCreation1hTokens := overlay current.claudeCacheCreation1hTokens incoming.claudeCacheCreation1hTokens
    promptTokensDetails := current.promptTokensDetails.merge incoming.promptTokensDetails
    inputTokensDetails := mergeInputTokensDetails current.inputTokensDetails incoming.inputTokensDetails
    completionTokenDetails := current.completionTokenDetails.merge incoming.completionTokenDetails
    usageSemantic := overlayText current.usageSemantic incoming.usageSemantic
    usageSource := overlayText current.usageSource incoming.usageSource
    cost := mergeCost current.cost incoming.cost : Usage }.raiseTotal

/-- What `MergeBillingUsageNonZero` does to two payloads of OpenAI. -/
def mergeOpenAIPayload (current incoming : Usage) : Usage := mergeUsageCounts current.clone incoming.clone

/-! ## Claude -/

def mergeServerToolUse (current incoming : Option ClaudeServerToolUse) : Option ClaudeServerToolUse :=
  match incoming with
  | none => current
  | some use =>
    let merged := current.getD {}
    some
      { webSearchRequests := overlay merged.webSearchRequests use.webSearchRequests
        webFetchRequests := overlay merged.webFetchRequests use.webFetchRequests
        codeExecutionRequests := overlay merged.codeExecutionRequests use.codeExecutionRequests
        toolSearchRequests := overlay merged.toolSearchRequests use.toolSearchRequests }

/-- The flat counts of the cache creation follow the sub-object when there is one. -/
def mergeCacheCreation (flat incomingFlat : ℤ) (part : ClaudeCacheCreationUsage → ℤ)
    (incoming : Option ClaudeCacheCreationUsage) : ℤ :=
  match incoming with
  | none => overlay flat incomingFlat
  | some cacheCreation => part cacheCreation

/-- `MergeClaudeUsageNonZero` of two snapshots. -/
def mergeClaudeUsageNonZero (current incoming : ClaudeUsage) : ClaudeUsage where
  inputTokens := overlay current.inputTokens incoming.inputTokens
  cacheCreationInputTokens := overlay current.cacheCreationInputTokens incoming.cacheCreationInputTokens
  cacheReadInputTokens := overlay current.cacheReadInputTokens incoming.cacheReadInputTokens
  outputTokens := overlay current.outputTokens incoming.outputTokens
  cacheCreation := incoming.cacheCreation.or current.cacheCreation
  claudeCacheCreation5mTokens :=
    mergeCacheCreation current.claudeCacheCreation5mTokens incoming.claudeCacheCreation5mTokens
      ClaudeCacheCreationUsage.ephemeral5mInputTokens incoming.cacheCreation
  claudeCacheCreation1hTokens :=
    mergeCacheCreation current.claudeCacheCreation1hTokens incoming.claudeCacheCreation1hTokens
      ClaudeCacheCreationUsage.ephemeral1hInputTokens incoming.cacheCreation
  serverToolUse := mergeServerToolUse current.serverToolUse incoming.serverToolUse
  billingUsage := (incoming.billingUsage.or current.billingUsage).map BillingUsage.clone

/-! ## Gemini -/

section Gemini

variable (runes : Runes)

def normalizeGeminiModality (modality : String) : String := runes.toUpper (trimSpace modality)

/-- The position that the map of `mergeGeminiTokenDetails` has for a modality: the last one. -/
def modalityIndex (key : String) (details : List GeminiPromptTokensDetails) : Option ℕ :=
  (details.zipIdx.reverse.find? fun d => normalizeGeminiModality runes d.1.modality = key).map Prod.snd

def mergeGeminiTokenDetail (merged : List GeminiPromptTokensDetails) (detail : GeminiPromptTokensDetails) :
    List GeminiPromptTokensDetails :=
  if detail.tokenCount ≤ 0 then merged
  else
    match modalityIndex runes (normalizeGeminiModality runes detail.modality) merged with
    | some index => merged.modify index fun d => { d with tokenCount := d.tokenCount + detail.tokenCount }
    | none => merged ++ [detail]

def mergeGeminiTokenDetails (current incoming : List GeminiPromptTokensDetails) : List GeminiPromptTokensDetails :=
  incoming.foldl (mergeGeminiTokenDetail runes) current

/-- `MergeGeminiUsageMetadataNonZero` of two snapshots, but for the sidecar of the incoming one. -/
def mergeGeminiCounts (current incoming : GeminiUsageMetadata) : GeminiUsageMetadata :=
  let merged : GeminiUsageMetadata :=
    { promptTokenCount := overlay current.promptTokenCount incoming.promptTokenCount
      toolUsePromptTokenCount := overlay current.toolUsePromptTokenCount incoming.toolUsePromptTokenCount
      candidatesTokenCount := overlay current.candidatesTokenCount incoming.candidatesTokenCount
      thoughtsTokenCount :=
        if 0 < incoming.candidatesTokenCount then incoming.thoughtsTokenCount
        else overlay current.thoughtsTokenCount incoming.thoughtsTokenCount
      totalTokenCount := overlay current.totalTokenCount incoming.totalTokenCount
      cachedContentTokenCount := overlay current.cachedContentTokenCount incoming.cachedContentTokenCount
      promptTokensDetails := mergeGeminiTokenDetails runes current.promptTokensDetails incoming.promptTokensDetails
      toolUsePromptTokensDetails :=
        mergeGeminiTokenDetails runes current.toolUsePromptTokensDetails incoming.toolUsePromptTokensDetails
      candidatesTokensDetails :=
        mergeGeminiTokenDetails runes current.candidatesTokensDetails incoming.candidatesTokensDetails
      billingUsage := current.billingUsage.map BillingUsage.clone }
  { merged with
    totalTokenCount := max merged.totalTokenCount
      (merged.promptTokenCount + merged.toolUsePromptTokenCount + merged.candidatesTokenCount +
        merged.thoughtsTokenCount) }

/-! ## Sidecars -/

def sameBillingUsageDialect (current incoming : BillingUsage) : Bool :=
  !(current.source ≠ "" && incoming.source ≠ "" && !runes.equalFold current.source incoming.source) &&
    !(current.semantic ≠ "" && incoming.semantic ≠ "" && !runes.equalFold current.semantic incoming.semantic) &&
    ((current.openAIUsage.isSome && incoming.openAIUsage.isSome) ||
      (current.claudeUsage.isSome && incoming.claudeUsage.isSome) ||
      (current.geminiUsageMetadata.isSome && incoming.geminiUsageMetadata.isSome))

mutual

/-- `MergeBillingUsageNonZero` of an incoming sidecar. -/
def mergeBillingUsageNonZero (current : Option BillingUsage) : BillingUsage → BillingUsage
  | ⟨source, semantic, estimated, openAIUsage, claudeUsage, geminiUsageMetadata⟩ =>
    let incoming : BillingUsage := ⟨source, semantic, estimated, openAIUsage, claudeUsage, geminiUsageMetadata⟩
    match current with
    | none => incoming.clone
    | some current =>
      if !sameBillingUsageDialect runes current incoming then
        { incoming.clone with estimated := current.estimated || estimated }
      else
        let merged : BillingUsage :=
          { current.clone with
            source := overlayText current.source source
            semantic := overlayText current.semantic semantic
            estimated := current.estimated || estimated }
        match current.openAIUsage, openAIUsage, current.claudeUsage, claudeUsage, current.geminiUsageMetadata,
            geminiUsageMetadata with
        | some c, some i, _, _, _, _ => { merged with openAIUsage := some (mergeOpenAIPayload c i) }
        | _, _, some c, some i, _, _ => { merged with claudeUsage := some (mergeClaudeUsageNonZero c i) }
        | _, _, _, _, some c, some i =>
          { merged with geminiUsageMetadata := some (mergeGeminiUsageMetadataNonZero c i) }
        | _, _, _, _, _, _ => merged

/-- `MergeGeminiUsageMetadataNonZero` of two snapshots. -/
def mergeGeminiUsageMetadataNonZero (current : GeminiUsageMetadata) : GeminiUsageMetadata → GeminiUsageMetadata
  | ⟨prompt, toolUse, candidates, total, thoughts, cached, promptDetails, toolUseDetails, candidatesDetails,
      billingUsage⟩ =>
    let merged := mergeGeminiCounts runes current
      ⟨prompt, toolUse, candidates, total, thoughts, cached, promptDetails, toolUseDetails, candidatesDetails, none⟩
    match billingUsage with
    | none => merged
    | some incoming =>
      { merged with billingUsage := some (mergeBillingUsageNonZero (current.billingUsage.map BillingUsage.clone) incoming) }

end

section Same

variable {current incoming : BillingUsage}

/-- The sidecar that a merge within a dialect starts from. -/
def BillingUsage.relabel (current incoming : BillingUsage) : BillingUsage :=
  { current.clone with
    source := overlayText current.source incoming.source
    semantic := overlayText current.semantic incoming.semantic
    estimated := current.estimated || incoming.estimated }

theorem mergeBillingUsageNonZero_openAI (h : sameBillingUsageDialect runes current incoming) {c i : Usage}
    (hc : current.openAIUsage = some c) (hi : incoming.openAIUsage = some i) :
    mergeBillingUsageNonZero runes (some current) incoming =
      { current.relabel incoming with openAIUsage := some (mergeOpenAIPayload c i) } := by
  cases current
  cases incoming
  dsimp only at hc hi
  subst hc hi
  show (if (!sameBillingUsageDialect runes _ _) = true then _ else _) = _
  rw [h, Bool.not_true, if_neg Bool.false_ne_true]
  rfl

theorem mergeBillingUsageNonZero_claude (h : sameBillingUsageDialect runes current incoming) {c i : ClaudeUsage}
    (hopenAI : incoming.openAIUsage = none) (hc : current.claudeUsage = some c) (hi : incoming.claudeUsage = some i) :
    mergeBillingUsageNonZero runes (some current) incoming =
      { current.relabel incoming with claudeUsage := some (mergeClaudeUsageNonZero c i) } := by
  obtain ⟨_, _, _, openAIUsage, _, _⟩ := current
  cases incoming
  dsimp only at hopenAI hc hi
  subst hopenAI hc hi
  cases openAIUsage <;> exact (if_neg (by rw [h, Bool.not_true]; exact Bool.false_ne_true)).trans rfl

theorem mergeBillingUsageNonZero_gemini (h : sameBillingUsageDialect runes current incoming)
    {c i : GeminiUsageMetadata} (hopenAI : incoming.openAIUsage = none) (hclaude : incoming.claudeUsage = none)
    (hc : current.geminiUsageMetadata = some c) (hi : incoming.geminiUsageMetadata = some i) :
    mergeBillingUsageNonZero runes (some current) incoming =
      { current.relabel incoming with geminiUsageMetadata := some (mergeGeminiUsageMetadataNonZero runes c i) } := by
  obtain ⟨_, _, _, openAIUsage, claudeUsage, _⟩ := current
  cases incoming
  dsimp only at hopenAI hclaude hc hi
  subst hopenAI hclaude hc hi
  cases openAIUsage <;> cases claudeUsage <;>
    exact (if_neg (by rw [h, Bool.not_true]; exact Bool.false_ne_true)).trans rfl

end Same

/-- The merge of two metadata is that of their counts, up to the sidecar. -/
theorem mergeGeminiUsageMetadataNonZero_counts (current incoming : GeminiUsageMetadata) :
    ∃ billingUsage, mergeGeminiUsageMetadataNonZero runes current incoming =
      { mergeGeminiCounts runes current incoming with billingUsage } := by
  obtain ⟨_, _, _, _, _, _, _, _, _, billingUsage⟩ := incoming
  cases billingUsage with
  | none =>
    rw [mergeGeminiUsageMetadataNonZero]
    exact ⟨_, rfl⟩
  | some billingUsage =>
    rw [mergeGeminiUsageMetadataNonZero]
    exact ⟨_, rfl⟩

/-- `MergeBillingUsageNonZero`. -/
def mergeBillingUsage (current incoming : Option BillingUsage) : Option BillingUsage :=
  match incoming with
  | none => current.map BillingUsage.clone
  | some incoming => some (mergeBillingUsageNonZero runes current incoming)

/-- `MergeUsageNonZero` of two snapshots. -/
def mergeUsageNonZero (current incoming : Usage) : Usage :=
  let merged := mergeUsageCounts current incoming
  match incoming.billingUsage with
  | none => merged
  | some billingUsage =>
    { merged with billingUsage := some (mergeBillingUsageNonZero runes current.billingUsage billingUsage) }

end Gemini

end Vancine.Snapshots
