import Mathlib.Algebra.Order.Group.Int
import Vancine.Lib.Json
import Vancine.Lib.Text

/-!
# Usage and its billing sidecar

The usage of a response in the three dialects of the providers, and the sidecar `BillingUsage` that carries the
payload of the provider across conversions. A sidecar may hang on any of the payloads, also inside another sidecar.

`CanonicalUsage` decodes a sidecar into the shape that is settled. Counts are integers. The Unicode tables behind
`strings.EqualFold` and `strings.ToUpper` are a parameter.
-/

namespace Vancine.Snapshots

open Lib

/-! ## Texts -/

/-- Go's tables of letters. -/
structure Runes where
  /-- One letter for all that differ in their case only. -/
  foldRune : Char → Char
  /-- `unicode.ToUpper` outside ASCII. -/
  upperRune : Char → Char

namespace Runes

/-- `strings.EqualFold`. -/
def equalFold (runes : Runes) (s t : String) : Bool := s.toList.map runes.foldRune = t.toList.map runes.foldRune

/-- `strings.ToUpper`. -/
def toUpper (runes : Runes) (s : String) : String :=
  String.ofList (s.toList.map fun c => if c.toNat < 128 then c.toUpper else runes.upperRune c)

end Runes

/-! ## Payloads -/

/-- Subsets of the cached tokens; none is not reported, zero is. -/
structure CachedTokenDetails where
  textTokens : Option ℤ
  imageTokens : Option ℤ
  audioTokens : Option ℤ
  deriving DecidableEq

structure InputTokenDetails where
  cachedTokens : ℤ := 0
  cachedTokensDetails : Option CachedTokenDetails := none
  cachedCreationTokens : ℤ := 0
  cacheWriteTokens : ℤ := 0
  textTokens : ℤ := 0
  audioTokens : ℤ := 0
  imageTokens : ℤ := 0

structure OutputTokenDetails where
  textTokens : ℤ := 0
  audioTokens : ℤ := 0
  imageTokens : ℤ := 0
  reasoningTokens : ℤ := 0

structure ClaudeCacheCreationUsage where
  ephemeral5mInputTokens : ℤ
  ephemeral1hInputTokens : ℤ

structure ClaudeServerToolUse where
  webSearchRequests : ℤ := 0
  webFetchRequests : ℤ := 0
  codeExecutionRequests : ℤ := 0
  toolSearchRequests : ℤ := 0

structure GeminiPromptTokensDetails where
  modality : String
  tokenCount : ℤ

mutual

structure Usage where
  promptTokens : ℤ := 0
  completionTokens : ℤ := 0
  totalTokens : ℤ := 0
  promptCacheHitTokens : ℤ := 0
  usageSemantic : String := ""
  usageSource : String := ""
  billingUsage : Option BillingUsage := none
  promptTokensDetails : InputTokenDetails := {}
  completionTokenDetails : OutputTokenDetails := {}
  inputTokens : ℤ := 0
  outputTokens : ℤ := 0
  inputTokensDetails : Option InputTokenDetails := none
  outputTokensDetails : Option OutputTokenDetails := none
  claudeCacheCreation5mTokens : ℤ := 0
  claudeCacheCreation1hTokens : ℤ := 0
  cost : Option Json := none

structure ClaudeUsage where
  inputTokens : ℤ := 0
  cacheCreationInputTokens : ℤ := 0
  cacheReadInputTokens : ℤ := 0
  outputTokens : ℤ := 0
  cacheCreation : Option ClaudeCacheCreationUsage := none
  claudeCacheCreation5mTokens : ℤ := 0
  claudeCacheCreation1hTokens : ℤ := 0
  serverToolUse : Option ClaudeServerToolUse := none
  billingUsage : Option BillingUsage := none

structure GeminiUsageMetadata where
  promptTokenCount : ℤ := 0
  toolUsePromptTokenCount : ℤ := 0
  candidatesTokenCount : ℤ := 0
  totalTokenCount : ℤ := 0
  thoughtsTokenCount : ℤ := 0
  cachedContentTokenCount : ℤ := 0
  promptTokensDetails : List GeminiPromptTokensDetails := []
  toolUsePromptTokensDetails : List GeminiPromptTokensDetails := []
  candidatesTokensDetails : List GeminiPromptTokensDetails := []
  billingUsage : Option BillingUsage := none

structure BillingUsage where
  source : String := ""
  semantic : String := ""
  estimated : Bool := false
  openAIUsage : Option Usage := none
  claudeUsage : Option ClaudeUsage := none
  geminiUsageMetadata : Option GeminiUsageMetadata := none

end

/-! ## Copies -/

/-- `cloneOpenAIUsage`: a copy without a sidecar of its own. -/
def Usage.clone (usage : Usage) : Usage := { usage with billingUsage := none }

/-- `cloneClaudeUsage`. -/
def ClaudeUsage.clone (usage : ClaudeUsage) : ClaudeUsage := { usage with billingUsage := none }

/-- `cloneGeminiUsageMetadata`. -/
def GeminiUsageMetadata.clone (metadata : GeminiUsageMetadata) : GeminiUsageMetadata :=
  { metadata with billingUsage := none }

/-- `CloneBillingUsage`. -/
def BillingUsage.clone (usage : BillingUsage) : BillingUsage :=
  { usage with
    openAIUsage := usage.openAIUsage.map Usage.clone
    claudeUsage := usage.claudeUsage.map ClaudeUsage.clone
    geminiUsageMetadata := usage.geminiUsageMetadata.map GeminiUsageMetadata.clone }

@[simp] theorem Usage.clone_clone (usage : Usage) : usage.clone.clone = usage.clone := rfl

@[simp] theorem ClaudeUsage.clone_clone (usage : ClaudeUsage) : usage.clone.clone = usage.clone := rfl

@[simp] theorem GeminiUsageMetadata.clone_clone (metadata : GeminiUsageMetadata) :
    metadata.clone.clone = metadata.clone := rfl

@[simp] theorem BillingUsage.clone_clone (usage : BillingUsage) : usage.clone.clone = usage.clone := by
  obtain ⟨source, semantic, estimated, openAIUsage, claudeUsage, geminiUsageMetadata⟩ := usage
  simp [BillingUsage.clone, Function.comp_def]

/-! ## Which payloads have tokens -/

def CachedTokenDetails.hasTokens (d : CachedTokenDetails) : Bool :=
  [d.textTokens, d.imageTokens, d.audioTokens].any fun tokens => tokens.any (· ≠ 0)

/-- The part of `HasOpenAIUsageTokens` on the details of the input. -/
def InputTokenDetails.hasTokens (d : InputTokenDetails) : Bool :=
  d.cachedTokensDetails.any CachedTokenDetails.hasTokens || d.cachedTokens ≠ 0 || d.cachedCreationTokens ≠ 0 ||
    d.cacheWriteTokens ≠ 0 || d.textTokens ≠ 0 || d.imageTokens ≠ 0 || d.audioTokens ≠ 0

def OutputTokenDetails.hasTokens (d : OutputTokenDetails) : Bool :=
  d.reasoningTokens ≠ 0 || d.textTokens ≠ 0 || d.imageTokens ≠ 0 || d.audioTokens ≠ 0

/-- `HasOpenAIUsageTokens`. -/
def Usage.hasTokens (usage : Usage) : Bool :=
  usage.promptTokens ≠ 0 || usage.completionTokens ≠ 0 || usage.totalTokens ≠ 0 || usage.inputTokens ≠ 0 ||
    usage.outputTokens ≠ 0 || usage.promptCacheHitTokens ≠ 0 || usage.claudeCacheCreation5mTokens ≠ 0 ||
    usage.claudeCacheCreation1hTokens ≠ 0 || usage.promptTokensDetails.hasTokens ||
    usage.completionTokenDetails.hasTokens || usage.inputTokensDetails.any InputTokenDetails.hasTokens

/-- `HasClaudeUsageTokens`. -/
def ClaudeUsage.hasTokens (usage : ClaudeUsage) : Bool :=
  usage.inputTokens ≠ 0 || usage.outputTokens ≠ 0 || usage.cacheCreationInputTokens ≠ 0 ||
    usage.cacheReadInputTokens ≠ 0 || usage.claudeCacheCreation5mTokens ≠ 0 ||
    usage.claudeCacheCreation1hTokens ≠ 0 ||
    usage.cacheCreation.any fun c => c.ephemeral5mInputTokens ≠ 0 || c.ephemeral1hInputTokens ≠ 0

/-- `HasGeminiUsageMetadataTokens`. -/
def GeminiUsageMetadata.hasTokens (metadata : GeminiUsageMetadata) : Bool :=
  metadata.promptTokenCount ≠ 0 || metadata.toolUsePromptTokenCount ≠ 0 || metadata.candidatesTokenCount ≠ 0 ||
    metadata.totalTokenCount ≠ 0 || metadata.thoughtsTokenCount ≠ 0 || metadata.cachedContentTokenCount ≠ 0 ||
    metadata.promptTokensDetails.any (·.tokenCount ≠ 0) ||
    metadata.toolUsePromptTokensDetails.any (·.tokenCount ≠ 0) ||
    metadata.candidatesTokensDetails.any (·.tokenCount ≠ 0)

/-! ## Sidecars of a payload -/

def billingUsageSourceClaudeMessages : String := "claude_messages"
def billingUsageSourceGeminiChat : String := "gemini_chat"
def billingUsageSourceOAIChat : String := "oai_chat"
def billingUsageSourceOAIResponses : String := "oai_responses"
def billingUsageSemanticAnthropic : String := "anthropic"
def billingUsageSemanticGemini : String := "gemini"
def billingUsageSemanticOpenAI : String := "openai"

def newOpenAIBillingUsage (source : String) (usage : Usage) : Option BillingUsage :=
  if !usage.hasTokens then none
  else some { source, semantic := billingUsageSemanticOpenAI, openAIUsage := some usage.clone }

def newOpenAIChatBillingUsage (usage : Usage) : Option BillingUsage :=
  newOpenAIBillingUsage billingUsageSourceOAIChat usage

def newOpenAIResponsesBillingUsage (usage : Usage) : Option BillingUsage :=
  newOpenAIBillingUsage billingUsageSourceOAIResponses usage

def newClaudeMessagesBillingUsage (usage : ClaudeUsage) : Option BillingUsage :=
  if !usage.hasTokens then none
  else some
    { source := billingUsageSourceClaudeMessages, semantic := billingUsageSemanticAnthropic,
      claudeUsage := some usage.clone }

def newGeminiChatBillingUsage (metadata : GeminiUsageMetadata) (estimated : Bool) : Option BillingUsage :=
  if !metadata.hasTokens then none
  else some
    { source := billingUsageSourceGeminiChat, semantic := billingUsageSemanticGemini, estimated,
      geminiUsageMetadata := some metadata.clone }

end Vancine.Snapshots
