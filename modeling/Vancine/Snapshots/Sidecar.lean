import Vancine.Snapshots.Convert

/-!
# The sidecar along chains of conversions

Settlement trusts the sidecar of a usage over its own counts. A conversion hands the sidecar on as a copy, and a copy
settles as the original does, so a chain of any length keeps what is settled. A usage without a sidecar gets one at its
first conversion, when it has tokens.
-/

namespace Vancine.Snapshots

open Lib

variable {runes : Runes}

/-! ## Copies settle alike -/

@[simp] theorem Usage.clone_hasTokens (usage : Usage) : usage.clone.hasTokens = usage.hasTokens := rfl

@[simp] theorem ClaudeUsage.clone_hasTokens (usage : ClaudeUsage) : usage.clone.hasTokens = usage.hasTokens := rfl

@[simp] theorem GeminiUsageMetadata.clone_hasTokens (metadata : GeminiUsageMetadata) :
    metadata.clone.hasTokens = metadata.hasTokens := rfl

variable (b : BillingUsage)

@[simp] theorem canonicalOpenAIUsage_clone (usage : Usage) :
    b.clone.canonicalOpenAIUsage usage.clone = b.canonicalOpenAIUsage usage := by
  unfold BillingUsage.canonicalOpenAIUsage
  rw [BillingUsage.clone_clone]
  rfl

@[simp] theorem canonicalClaudeUsage_clone (usage : ClaudeUsage) :
    b.clone.canonicalClaudeUsage usage.clone = b.canonicalClaudeUsage usage := by
  unfold BillingUsage.canonicalClaudeUsage
  rw [BillingUsage.clone_clone]
  rfl

@[simp] theorem canonicalGeminiUsage_clone (metadata : GeminiUsageMetadata) :
    b.clone.canonicalGeminiUsage runes metadata.clone = b.canonicalGeminiUsage runes metadata := by
  unfold BillingUsage.canonicalGeminiUsage
  rw [BillingUsage.clone_clone]
  rfl

theorem filter_map_clone {α : Type} (clone : α → α) {p : α → Bool} (h : ∀ a, p (clone a) = p a) (o : Option α) :
    (o.map clone).filter p = (o.filter p).map clone := by
  cases o with
  | none => rfl
  | some a =>
    cases hp : p a with
    | true => simp [Option.filter, h, hp]
    | false => simp [Option.filter, h, hp]

theorem canonicalUsage_clone : b.clone.canonicalUsage runes = b.canonicalUsage runes := by
  unfold BillingUsage.canonicalUsage
  dsimp only [BillingUsage.clone]
  rw [filter_map_clone Usage.clone fun _ => rfl, filter_map_clone ClaudeUsage.clone fun _ => rfl,
    filter_map_clone GeminiUsageMetadata.clone fun _ => rfl]
  cases b.openAIUsage.filter _ with
  | some usage => exact congrArg some (canonicalOpenAIUsage_clone b usage)
  | none =>
    cases b.claudeUsage.filter _ with
    | some usage => exact congrArg some (canonicalClaudeUsage_clone b usage)
    | none =>
      cases b.geminiUsageMetadata.filter _ with
      | some metadata => exact congrArg some (canonicalGeminiUsage_clone b metadata)
      | none => rfl

/-! ## Conversions hand the sidecar on -/

section Survives

variable {usage : Usage} {b : BillingUsage}

theorem usageFromChatUsage_billingUsage (h : usage.billingUsage = some b) :
    (usageFromChatUsage usage).billingUsage = some b.clone := by
  simp [usageFromChatUsage, h]

theorem usageFromResponsesUsage_billingUsage (h : usage.billingUsage = some b) (create : Bool) :
    (usageFromResponsesUsage usage create).billingUsage = some b.clone := by
  simp [usageFromResponsesUsage, h]

theorem usageFromOpenAI_billingUsage (h : usage.billingUsage = some b) :
    (usageFromOpenAI usage).billingUsage = some b.clone := by
  unfold usageFromOpenAI
  rw [h]
  dsimp only
  split
  · rfl
  · split_ifs
    · rfl
    · rfl

theorem usageFromClaudeAPIUsage_billingUsage {claudeUsage : ClaudeUsage} (h : claudeUsage.billingUsage = some b) :
    (usageFromClaudeAPIUsage claudeUsage).billingUsage = some b.clone := by
  simp [usageFromClaudeAPIUsage, buildOpenAIStyleUsageFromClaudeUsage, h]

theorem geminiUsageMetadata_billingUsage (h : usage.billingUsage = some b) (totalTokens : ℤ) :
    (geminiUsageMetadata usage totalTokens).billingUsage = some b.clone := by
  unfold geminiUsageMetadata geminiBillingMetadataFromOpenAIUsage
  rw [h]
  dsimp only
  split_ifs
  · simp [openAIBillingUsageFromUsage, h]
  · cases b.clone.geminiUsageMetadata with
    | none => simp [openAIBillingUsageFromUsage, h]
    | some metadata => rfl

theorem usageFromGeminiMetadata_billingUsage {metadata : GeminiUsageMetadata} (h : metadata.billingUsage = some b)
    (fallbackPromptTokens : ℤ) : (usageFromGeminiMetadata metadata fallbackPromptTokens).billingUsage = some b.clone := by
  simp [usageFromGeminiMetadata, h]

theorem conversion_billingUsage (h : usage.billingUsage = some b) (c : Conversion) :
    (c.apply usage).billingUsage = some b.clone := by
  cases c with
  | chat => exact usageFromChatUsage_billingUsage h
  | responses => exact usageFromResponsesUsage_billingUsage h true
  | claude =>
    have hclaude := usageFromClaudeAPIUsage_billingUsage (usageFromOpenAI_billingUsage h)
    rwa [BillingUsage.clone_clone] at hclaude
  | gemini stream fallbackPromptTokens =>
    have hgemini := usageFromGeminiMetadata_billingUsage
      (geminiUsageMetadata_billingUsage h (if stream then usage.totalTokens else responseTotalTokens usage))
      fallbackPromptTokens
    rwa [BillingUsage.clone_clone] at hgemini

theorem chain_billingUsage (runes : Runes) (cs : List Conversion) (h : usage.billingUsage = some b) :
    ∃ b', (cs.foldl Conversion.apply usage).billingUsage = some b' ∧
      b'.canonicalUsage runes = b.canonicalUsage runes := by
  induction cs generalizing usage b with
  | nil => exact ⟨b, h, rfl⟩
  | cons c cs ih =>
    obtain ⟨b', hb', hcanonical⟩ := ih (conversion_billingUsage h c)
    exact ⟨b', hb', hcanonical.trans (canonicalUsage_clone b)⟩

end Survives

/-! ## The first conversion makes a sidecar -/

theorem equalFold_self (s : String) : runes.equalFold s s = true := by simp [Runes.equalFold]

theorem newOpenAIBillingUsage_canonical {usage : Usage} (h : usage.hasTokens) (source : String) :
    ∃ b, newOpenAIBillingUsage source usage = some b ∧
      b.canonicalUsage runes = some (b.canonicalOpenAIUsage usage.clone) := by
  refine ⟨_, by simp [newOpenAIBillingUsage, h]; rfl, ?_⟩
  have hsemantic : trimSpace billingUsageSemanticOpenAI = billingUsageSemanticOpenAI :=
    trimSpace_of_all (by decide)
  simp [BillingUsage.canonicalUsage, Option.filter, h, hsemantic, equalFold_self]

variable {usage : ClaudeUsage} {metadata : GeminiUsageMetadata}

theorem newClaudeMessagesBillingUsage_canonical (h : usage.hasTokens) :
    ∃ b, newClaudeMessagesBillingUsage usage = some b ∧
      b.canonicalUsage runes = some (b.canonicalClaudeUsage usage.clone) := by
  refine ⟨_, by simp [newClaudeMessagesBillingUsage, h]; rfl, ?_⟩
  have hsemantic : trimSpace billingUsageSemanticAnthropic = billingUsageSemanticAnthropic :=
    trimSpace_of_all (by decide)
  simp [BillingUsage.canonicalUsage, Option.filter, h, hsemantic, equalFold_self]

theorem newGeminiChatBillingUsage_canonical (h : metadata.hasTokens) (estimated : Bool) :
    ∃ b, newGeminiChatBillingUsage metadata estimated = some b ∧
      b.canonicalUsage runes = some (b.canonicalGeminiUsage runes metadata.clone) := by
  refine ⟨_, by simp [newGeminiChatBillingUsage, h]; rfl, ?_⟩
  have hsemantic : trimSpace billingUsageSemanticGemini = billingUsageSemanticGemini :=
    trimSpace_of_all (by decide)
  simp [BillingUsage.canonicalUsage, Option.filter, h, hsemantic, equalFold_self]

/-- The counts that a new sidecar is compared on. -/
structure Counts where
  prompt : ℤ
  completion : ℤ
  cached : ℤ
  cachedCreation : ℤ
  cacheWrite : ℤ
  cacheCreation5m : ℤ
  cacheCreation1h : ℤ

def Usage.settled (usage : Usage) : Counts where
  prompt := usage.promptTokens
  completion := usage.completionTokens
  cached := usage.promptTokensDetails.cachedTokens
  cachedCreation := usage.promptTokensDetails.cachedCreationTokens
  cacheWrite := usage.promptTokensDetails.cacheWriteTokens
  cacheCreation5m := usage.claudeCacheCreation5mTokens
  cacheCreation1h := usage.claudeCacheCreation1hTokens

/-- A count of the details of the prompt, or of the details of Responses when the prompt has none above zero. -/
def Usage.detail (usage : Usage) (count : InputTokenDetails → ℤ) : ℤ :=
  match usage.inputTokensDetails with
  | none => count usage.promptTokensDetails
  | some details =>
    if 0 < count usage.promptTokensDetails then count usage.promptTokensDetails else count details

/-- The counts of a usage in the shape of OpenAI; what its chat fields leave at zero is in its Responses fields. -/
def Usage.counts (usage : Usage) : Counts where
  prompt := if usage.promptTokens = 0 ∧ 0 < usage.inputTokens then usage.inputTokens else usage.promptTokens
  completion :=
    if usage.completionTokens = 0 ∧ 0 < usage.outputTokens then usage.outputTokens else usage.completionTokens
  cached :=
    if usage.detail InputTokenDetails.cachedTokens = 0 ∧ 0 < usage.promptCacheHitTokens then
      usage.promptCacheHitTokens
    else usage.detail InputTokenDetails.cachedTokens
  cachedCreation := usage.detail InputTokenDetails.cachedCreationTokens
  cacheWrite := usage.detail InputTokenDetails.cacheWriteTokens
  cacheCreation5m := usage.claudeCacheCreation5mTokens
  cacheCreation1h := usage.claudeCacheCreation1hTokens

def ClaudeUsage.counts (usage : ClaudeUsage) : Counts where
  prompt := usage.inputTokens
  completion := usage.outputTokens
  cached := usage.cacheReadInputTokens
  cachedCreation := usage.cacheCreationInputTokens
  cacheWrite := 0
  cacheCreation5m :=
    match usage.cacheCreation with
    | none => usage.claudeCacheCreation5mTokens
    | some cacheCreation => cacheCreation.ephemeral5mInputTokens
  cacheCreation1h :=
    match usage.cacheCreation with
    | none => usage.claudeCacheCreation1hTokens
    | some cacheCreation => cacheCreation.ephemeral1hInputTokens

/-- A Gemini usage that reports no completion has the rest of its total. -/
def GeminiUsageMetadata.counts (metadata : GeminiUsageMetadata) : Counts where
  prompt := metadata.promptTokenCount + metadata.toolUsePromptTokenCount
  completion :=
    if metadata.totalTokenCount ≠ 0 ∧ metadata.candidatesTokenCount + metadata.thoughtsTokenCount ≤ 0 then
      max (metadata.totalTokenCount - (metadata.promptTokenCount + metadata.toolUsePromptTokenCount)) 0
    else metadata.candidatesTokenCount + metadata.thoughtsTokenCount
  cached := metadata.cachedContentTokenCount
  cachedCreation := 0
  cacheWrite := 0
  cacheCreation5m := 0
  cacheCreation1h := 0

/-- The sidecar `b` settles to the counts. -/
def Settles (runes : Runes) (b : Option BillingUsage) (counts : Counts) : Prop :=
  ∃ sidecar canonical, b = some sidecar ∧ sidecar.canonicalUsage runes = some canonical ∧ canonical.settled = counts

theorem withCacheHit_eq (filled : InputTokenDetails) (hit : ℤ) :
    let details := if filled.cachedTokens = 0 ∧ 0 < hit then { filled with cachedTokens := hit } else filled
    details.cachedTokens = (if filled.cachedTokens = 0 ∧ 0 < hit then hit else filled.cachedTokens) ∧
      details.cachedCreationTokens = filled.cachedCreationTokens ∧
      details.cacheWriteTokens = filled.cacheWriteTokens := by
  dsimp only
  split_ifs
  · exact ⟨rfl, rfl, rfl⟩
  · exact ⟨rfl, rfl, rfl⟩

theorem filledDetails_eq (usage : Usage) : usage.filledDetails.cachedTokens = usage.counts.cached ∧
      usage.filledDetails.cachedCreationTokens = usage.counts.cachedCreation ∧
      usage.filledDetails.cacheWriteTokens = usage.counts.cacheWrite := by
  unfold Usage.filledDetails Usage.counts Usage.detail
  cases usage.inputTokensDetails with
  | none => exact withCacheHit_eq usage.promptTokensDetails usage.promptCacheHitTokens
  | some details =>
    exact withCacheHit_eq (details.merge usage.promptTokensDetails) usage.promptCacheHitTokens

theorem canonicalOpenAIUsage_settled (usage : Usage) : (b.canonicalOpenAIUsage usage.clone).settled = usage.counts := by
  obtain ⟨hcached, hcreation, hwrite⟩ := filledDetails_eq usage
  show (⟨usage.filledPrompt, usage.filledCompletion, usage.filledDetails.cachedTokens,
    usage.filledDetails.cachedCreationTokens, usage.filledDetails.cacheWriteTokens,
    usage.claudeCacheCreation5mTokens, usage.claudeCacheCreation1hTokens⟩ : Counts) = _
  rw [hcached, hcreation, hwrite]
  rfl

theorem canonicalClaudeUsage_settled (usage : ClaudeUsage) :
    (b.canonicalClaudeUsage usage.clone).settled = usage.counts := by
  unfold Usage.settled BillingUsage.canonicalClaudeUsage ClaudeUsage.counts ClaudeUsage.clone
  cases usage.cacheCreation <;> rfl

theorem addGeminiInputTokenDetail_cached (details : List GeminiPromptTokensDetails) (d : InputTokenDetails) :
    let after := details.foldl (addGeminiInputTokenDetail runes) d
    after.cachedTokens = d.cachedTokens ∧ after.cachedCreationTokens = d.cachedCreationTokens ∧
      after.cacheWriteTokens = d.cacheWriteTokens := by
  induction details generalizing d with
  | nil => exact ⟨rfl, rfl, rfl⟩
  | cons detail details ih =>
    obtain ⟨hcached, hcreation, hwrite⟩ := ih (addGeminiInputTokenDetail runes d detail)
    have hstep : (addGeminiInputTokenDetail runes d detail).cachedTokens = d.cachedTokens ∧
        (addGeminiInputTokenDetail runes d detail).cachedCreationTokens = d.cachedCreationTokens ∧
        (addGeminiInputTokenDetail runes d detail).cacheWriteTokens = d.cacheWriteTokens := by
      unfold addGeminiInputTokenDetail
      split <;> exact ⟨rfl, rfl, rfl⟩
    exact ⟨hcached.trans hstep.1, hcreation.trans hstep.2.1, hwrite.trans hstep.2.2⟩

theorem canonicalGeminiUsage_settled (metadata : GeminiUsageMetadata) :
    (b.canonicalGeminiUsage runes metadata.clone).settled = metadata.counts := by
  obtain ⟨hcached, hcreation, hwrite⟩ := @addGeminiInputTokenDetail_cached runes
    (metadata.promptTokensDetails ++ metadata.toolUsePromptTokensDetails)
    { cachedTokens := metadata.cachedContentTokenCount }
  unfold Usage.settled BillingUsage.canonicalGeminiUsage GeminiUsageMetadata.counts GeminiUsageMetadata.clone
  dsimp only
  split_ifs <;> rw [hcached, hcreation, hwrite]

/-! ### From each dialect -/

section First

variable {usage : Usage}

theorem newOpenAIBillingUsage_settles (h : usage.hasTokens) (source : String) :
    Settles runes (newOpenAIBillingUsage source usage) usage.counts := by
  obtain ⟨b, hb, hcanonical⟩ := @newOpenAIBillingUsage_canonical runes usage h source
  exact ⟨b, _, hb, hcanonical, canonicalOpenAIUsage_settled b usage⟩

theorem Settles.clone {b : Option BillingUsage} {counts : Counts} (h : Settles runes b counts) :
    Settles runes (b.map BillingUsage.clone) counts := by
  obtain ⟨sidecar, canonical, rfl, hcanonical, hsettled⟩ := h
  exact ⟨sidecar.clone, canonical, rfl, (canonicalUsage_clone sidecar).trans hcanonical, hsettled⟩

/-- A usage with tokens gets its sidecar from any conversion. -/
theorem conversion_settles (hnone : usage.billingUsage = none) (h : usage.hasTokens) (c : Conversion) :
    Settles runes (c.apply usage).billingUsage usage.counts := by
  have hchat : Settles runes (newOpenAIChatBillingUsage usage) usage.counts := newOpenAIBillingUsage_settles h _
  cases c with
  | chat =>
    rw [show (Conversion.chat.apply usage).billingUsage = newOpenAIChatBillingUsage usage by
      simp [Conversion.apply, usageFromChatUsage, hnone]]
    exact hchat
  | responses =>
    rw [show (Conversion.responses.apply usage).billingUsage = newOpenAIResponsesBillingUsage usage by
      simp [Conversion.apply, usageFromResponsesUsage, hnone]]
    exact newOpenAIBillingUsage_settles h _
  | claude =>
    obtain ⟨b, canonical, hb, hcanonical, hsettled⟩ := hchat
    have hclaude : (usageFromOpenAI usage).billingUsage = some b := by
      unfold usageFromOpenAI
      rw [hnone]
      exact hb
    exact ⟨b.clone, canonical, usageFromClaudeAPIUsage_billingUsage hclaude,
      (canonicalUsage_clone b).trans hcanonical, hsettled⟩
  | gemini stream fallbackPromptTokens =>
    obtain ⟨b, canonical, hb, hcanonical, hsettled⟩ := hchat
    have hgemini : (geminiUsageMetadata usage
        (if stream then usage.totalTokens else responseTotalTokens usage)).billingUsage = some b := by
      unfold geminiUsageMetadata geminiBillingMetadataFromOpenAIUsage openAIBillingUsageFromUsage
      rw [hnone]
      exact hb
    exact ⟨b.clone, canonical, usageFromGeminiMetadata_billingUsage hgemini fallbackPromptTokens,
      (canonicalUsage_clone b).trans hcanonical, hsettled⟩

/-- The counts of a usage without tokens that the converters read. -/
theorem zero_of_not_hasTokens (h : usage.hasTokens = false) :
    usage.promptTokens = 0 ∧ usage.completionTokens = 0 ∧ usage.totalTokens = 0 ∧
      usage.promptTokensDetails.cachedTokens = 0 ∧ usage.promptTokensDetails.cachedCreationTokens = 0 ∧
      usage.promptTokensDetails.cacheWriteTokens = 0 ∧ usage.claudeCacheCreation5mTokens = 0 ∧
      usage.claudeCacheCreation1hTokens = 0 := by
  simp [Usage.hasTokens, InputTokenDetails.hasTokens] at h
  obtain ⟨⟨⟨⟨⟨⟨⟨⟨⟨⟨hprompt, hcompletion⟩, htotal⟩, -⟩, -⟩, -⟩, h5m⟩, h1h⟩, hdetails⟩, -⟩, -⟩ := h
  exact ⟨hprompt, hcompletion, htotal, hdetails.1.1.1.1.1.2, hdetails.1.1.1.1.2, hdetails.1.1.1.2, h5m, h1h⟩

theorem conversion_none (hnone : usage.billingUsage = none) (h : usage.hasTokens = false) (c : Conversion) :
    (c.apply usage).billingUsage = none := by
  have hnew (source : String) : newOpenAIBillingUsage source usage = none := by simp [newOpenAIBillingUsage, h]
  obtain ⟨hprompt, hcompletion, htotal, hcached, hcreation, hwrite, h5m, h1h⟩ := zero_of_not_hasTokens h
  cases c with
  | chat => simp [Conversion.apply, usageFromChatUsage, hnone, newOpenAIChatBillingUsage, hnew]
  | responses => simp [Conversion.apply, usageFromResponsesUsage, hnone, newOpenAIResponsesBillingUsage, hnew]
  | claude =>
    have hclaude : usageFromOpenAI usage = {} := by
      simp [usageFromOpenAI, hnone, newOpenAIChatBillingUsage, hnew, claudeUsageOfCounts, normalizeCacheCreationSplit,
        InputTokenDetails.cacheCreationTokensTotal, hprompt, hcompletion, hcached, hcreation, hwrite, h5m, h1h]
    show (usageFromClaudeAPIUsage (usageFromOpenAI usage)).billingUsage = none
    rw [hclaude]
    rfl
  | gemini stream fallbackPromptTokens =>
    have hgemini (totalTokens : ℤ) (ht : totalTokens = 0) : geminiUsageMetadata usage totalTokens = {} := by
      simp [geminiUsageMetadata, geminiBillingMetadataFromOpenAIUsage, openAIBillingUsageFromUsage, hnone,
        newOpenAIChatBillingUsage, hnew, hprompt, hcompletion, ht]
    show (usageFromGeminiMetadata (geminiUsageMetadata usage _) fallbackPromptTokens).billingUsage = none
    rw [hgemini]
    · rfl
    · cases stream <;> simp [responseTotalTokens, hprompt, hcompletion, htotal]

end First

theorem claude_settles (hnone : usage.billingUsage = none) (h : usage.hasTokens) :
    Settles runes (usageFromClaudeAPIUsage usage).billingUsage usage.counts := by
  obtain ⟨b, hb, hcanonical⟩ := @newClaudeMessagesBillingUsage_canonical runes usage h
  have hsettles : Settles runes (newClaudeMessagesBillingUsage usage) usage.counts :=
    ⟨b, _, hb, hcanonical, canonicalClaudeUsage_settled b usage⟩
  rw [show (usageFromClaudeAPIUsage usage).billingUsage =
      (newClaudeMessagesBillingUsage usage).map BillingUsage.clone by
    simp [usageFromClaudeAPIUsage, buildOpenAIStyleUsageFromClaudeUsage, hnone]]
  exact hsettles.clone

theorem gemini_settles (hnone : metadata.billingUsage = none) (h : metadata.hasTokens) (fallbackPromptTokens : ℤ) :
    Settles runes (usageFromGeminiMetadata metadata fallbackPromptTokens).billingUsage metadata.counts := by
  obtain ⟨b, hb, hcanonical⟩ := @newGeminiChatBillingUsage_canonical runes metadata h false
  rw [show (usageFromGeminiMetadata metadata fallbackPromptTokens).billingUsage =
      newGeminiChatBillingUsage metadata false by simp [usageFromGeminiMetadata, hnone]]
  exact ⟨b, _, hb, hcanonical, canonicalGeminiUsage_settled b metadata⟩

/-! ## Chains -/

end Vancine.Snapshots
