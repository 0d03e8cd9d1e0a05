import Vancine.Lib.ListSum
import Vancine.Snapshots.Merge

/-!
# What a fold of usage snapshots leaves

Every count of a fold is the last one above zero, totals are raised to the sums of their parts, and a snapshot that is
merged again changes nothing. Three parts of the payloads follow a rule of their own: the cache creation of Claude and
the pair of candidates and thoughts of Gemini are replaced as a whole, and the counts of a Gemini modality are added.
-/

namespace Vancine.Snapshots

open Lib

/-! ## Counts -/

/-- The last count above zero, or the one at the start. -/
def latest (first : ℤ) (counts : List ℤ) : ℤ := counts.foldl overlay first

/-- The last count that was reported. -/
def reported (first : Option ℤ) (counts : List (Option ℤ)) : Option ℤ := counts.foldl (fun c i => i.or c) first

@[simp] theorem overlay_overlay_self (current incoming : ℤ) :
    overlay (overlay current incoming) incoming = overlay current incoming := by
  unfold overlay
  split_ifs <;> rfl

@[simp] theorem overlay_zero (current : ℤ) : overlay current 0 = current := rfl

@[simp] theorem overlayText_overlayText_self (current incoming : String) :
    overlayText (overlayText current incoming) incoming = overlayText current incoming := by
  unfold overlayText
  split_ifs <;> rfl

@[simp] theorem or_or_self {α : Type} (a b : Option α) : a.or (a.or b) = a.or b := by cases a <;> rfl

/-- A count that every merge lays over is the latest after a fold. -/
theorem count_foldl {σ : Type} {merge : σ → σ → σ} {c : σ → ℤ}
    (h : ∀ current incoming, c (merge current incoming) = overlay (c current) (c incoming)) (current : σ)
    (snapshots : List σ) : c (snapshots.foldl merge current) = latest (c current) (snapshots.map c) := by
  unfold latest
  rw [List.foldl_map]
  exact (List.foldl_hom c fun x y => (h x y).symm).symm

theorem reported_foldl {σ : Type} {merge : σ → σ → σ} {c : σ → Option ℤ}
    (h : ∀ current incoming, c (merge current incoming) = (c incoming).or (c current)) (current : σ)
    (snapshots : List σ) : c (snapshots.foldl merge current) = reported (c current) (snapshots.map c) := by
  unfold reported
  rw [List.foldl_map]
  exact (List.foldl_hom c fun x y => (h x y).symm).symm

/-! ## OpenAI -/

def inputCounters : List (InputTokenDetails → ℤ) :=
  [InputTokenDetails.cachedTokens, InputTokenDetails.cachedCreationTokens, InputTokenDetails.cacheWriteTokens,
    InputTokenDetails.textTokens, InputTokenDetails.audioTokens, InputTokenDetails.imageTokens]

def outputCounters : List (OutputTokenDetails → ℤ) :=
  [OutputTokenDetails.textTokens, OutputTokenDetails.audioTokens, OutputTokenDetails.imageTokens,
    OutputTokenDetails.reasoningTokens]

/-- Every count of a usage but its total and the details of Responses on its output. -/
def usageCounters : List (Usage → ℤ) :=
  [Usage.promptTokens, Usage.completionTokens, Usage.promptCacheHitTokens, Usage.inputTokens, Usage.outputTokens,
    Usage.claudeCacheCreation5mTokens, Usage.claudeCacheCreation1hTokens] ++
  inputCounters.map (fun c u => c u.promptTokensDetails) ++
  inputCounters.map (fun c u => c (u.inputTokensDetails.getD {})) ++
  outputCounters.map (fun c u => c u.completionTokenDetails)

/-- The modalities of the cached tokens, where zero is a report. -/
def cachedModalities : List (CachedTokenDetails → Option ℤ) :=
  [CachedTokenDetails.textTokens, CachedTokenDetails.imageTokens, CachedTokenDetails.audioTokens]

def cachedCounters : List (Usage → Option ℤ) :=
  cachedModalities.map (fun c u => u.promptTokensDetails.cachedTokensDetails.bind c) ++
  cachedModalities.map (fun c u => (u.inputTokensDetails.getD {}).cachedTokensDetails.bind c)

theorem inputCounter_merge {c : InputTokenDetails → ℤ} (hc : c ∈ inputCounters)
    (current incoming : InputTokenDetails) : c (current.merge incoming) = overlay (c current) (c incoming) := by
  simp only [inputCounters, List.mem_cons, List.not_mem_nil, or_false] at hc
  rcases hc with rfl | rfl | rfl | rfl | rfl | rfl <;> rfl

theorem outputCounter_merge {c : OutputTokenDetails → ℤ} (hc : c ∈ outputCounters)
    (current incoming : OutputTokenDetails) : c (current.merge incoming) = overlay (c current) (c incoming) := by
  simp only [outputCounters, List.mem_cons, List.not_mem_nil, or_false] at hc
  rcases hc with rfl | rfl | rfl | rfl <;> rfl

theorem cachedModality_merge {c : CachedTokenDetails → Option ℤ} (hc : c ∈ cachedModalities)
    (current incoming : InputTokenDetails) : (current.merge incoming).cachedTokensDetails.bind c =
      (incoming.cachedTokensDetails.bind c).or (current.cachedTokensDetails.bind c) := by
  obtain ⟨-, cur, -, -, -, -, -⟩ := current
  obtain ⟨-, inc, -, -, -, -, -⟩ := incoming
  simp only [cachedModalities, List.mem_cons, List.not_mem_nil, or_false] at hc
  cases inc with
  | none => simp [InputTokenDetails.merge]
  | some inc =>
    rcases hc with rfl | rfl | rfl <;> cases cur <;>
      simp [InputTokenDetails.merge, CachedTokenDetails.merge]

theorem merge_of_not_reports {details : InputTokenDetails} (h : details.reports = false) (current : InputTokenDetails) :
    current.merge details = current := by
  simp only [InputTokenDetails.reports, Bool.or_eq_false_iff, decide_eq_false_iff_not, Option.isSome_eq_false_iff,
    Option.isNone_iff_eq_none] at h
  obtain ⟨⟨⟨⟨⟨⟨hcached, hcreation⟩, hwrite⟩, htext⟩, haudio⟩, himage⟩, hdetails⟩ := h
  unfold InputTokenDetails.merge overlay
  rw [if_neg hcached, if_neg hcreation, if_neg hwrite, if_neg htext, if_neg haudio, if_neg himage, hdetails]

theorem mergeInputTokensDetails_getD (current incoming : Option InputTokenDetails) :
    (mergeInputTokensDetails current incoming).getD {} = (current.getD {}).merge (incoming.getD {}) := by
  cases incoming with
  | none => exact (merge_of_not_reports rfl _).symm
  | some details =>
    cases hreports : details.reports with
    | true =>
      simp only [mergeInputTokensDetails, hreports, if_true, Option.getD_some]
    | false =>
      simp only [mergeInputTokensDetails, hreports, Option.getD_some]
      exact (merge_of_not_reports hreports _).symm

theorem usageCounter_merge {c : Usage → ℤ} (hc : c ∈ usageCounters) (current incoming : Usage) :
    c (mergeUsageCounts current incoming) = overlay (c current) (c incoming) := by
  simp only [usageCounters, List.mem_append, List.mem_map] at hc
  rcases hc with ((hscalar | ⟨d, hd, rfl⟩) | ⟨d, hd, rfl⟩) | ⟨d, hd, rfl⟩
  · simp only [List.mem_cons, List.not_mem_nil, or_false] at hscalar
    rcases hscalar with rfl | rfl | rfl | rfl | rfl | rfl | rfl <;> rfl
  · exact inputCounter_merge hd _ _
  · show d ((mergeInputTokensDetails _ _).getD {}) = _
    rw [mergeInputTokensDetails_getD]
    exact inputCounter_merge hd _ _
  · exact outputCounter_merge hd _ _

theorem cachedCounter_merge {c : Usage → Option ℤ} (hc : c ∈ cachedCounters) (current incoming : Usage) :
    c (mergeUsageCounts current incoming) = (c incoming).or (c current) := by
  simp only [cachedCounters, List.mem_append, List.mem_map] at hc
  rcases hc with ⟨d, hd, rfl⟩ | ⟨d, hd, rfl⟩
  · exact cachedModality_merge hd _ _
  · show ((mergeInputTokensDetails _ _).getD {}).cachedTokensDetails.bind d = _
    rw [mergeInputTokensDetails_getD]
    exact cachedModality_merge hd _ _

@[simp] theorem merge_merge_self (current incoming : InputTokenDetails) :
    (current.merge incoming).merge incoming = current.merge incoming := by
  obtain ⟨-, cur, -, -, -, -, -⟩ := current
  obtain ⟨-, inc, -, -, -, -, -⟩ := incoming
  cases inc with
  | none => simp [InputTokenDetails.merge]
  | some inc => simp [InputTokenDetails.merge, CachedTokenDetails.merge]

@[simp] theorem mergeInputTokensDetails_self (current incoming : Option InputTokenDetails) :
    mergeInputTokensDetails (mergeInputTokensDetails current incoming) incoming =
      mergeInputTokensDetails current incoming := by
  cases incoming with
  | none => rfl
  | some details =>
    cases hreports : details.reports with
    | true => simp [mergeInputTokensDetails, hreports]
    | false => simp [mergeInputTokensDetails, hreports]

@[simp] theorem outputMerge_self (current incoming : OutputTokenDetails) :
    (current.merge incoming).merge incoming = current.merge incoming := by
  simp [OutputTokenDetails.merge]

@[simp] theorem mergeCost_self (current incoming : Option Json) :
    mergeCost (mergeCost current incoming) incoming = mergeCost current incoming := by
  cases incoming with
  | none => rfl
  | some cost =>
    cases hzero : costIsZero cost with
    | true => simp [mergeCost, hzero]
    | false => simp [mergeCost, hzero]

/-- A total that was raised to `a` and `b` stays when the same total is reported again. -/
theorem raised_self (current incoming a b : ℤ) :
    max (max (overlay (max (max (overlay current incoming) a) b) incoming) a) b =
      max (max (overlay current incoming) a) b := by
  unfold overlay
  split_ifs <;> omega

theorem raised_self_one (current incoming a : ℤ) :
    max (overlay (max (overlay current incoming) a) incoming) a = max (overlay current incoming) a := by
  unfold overlay
  split_ifs <;> omega

theorem mergeUsageCounts_self (current incoming : Usage) :
    mergeUsageCounts (mergeUsageCounts current incoming) incoming = mergeUsageCounts current incoming := by
  simp only [mergeUsageCounts, Usage.raiseTotal, overlay_overlay_self, overlayText_overlayText_self, merge_merge_self,
    mergeInputTokensDetails_self, outputMerge_self, mergeCost_self, raised_self]

/-- What a merge of usages does to every fold: the counts are the latest ones, the total is the latest one raised to
the sums of its parts, and a snapshot that is merged again leaves all but the sidecar as it is. -/
structure LaysOver (merge : Usage → Usage → Usage) : Prop where
  counts : ∀ (current : Usage) (snapshots : List Usage), ∀ c ∈ usageCounters,
    c (snapshots.foldl merge current) = latest (c current) (snapshots.map c)
  cached : ∀ (current : Usage) (snapshots : List Usage), ∀ c ∈ cachedCounters,
    c (snapshots.foldl merge current) = reported (c current) (snapshots.map c)
  total : ∀ (current : Usage) (snapshots : List Usage) (snapshot : Usage),
    let before := snapshots.foldl merge current
    let after := (snapshots ++ [snapshot]).foldl merge current
    after.totalTokens = max (max (overlay before.totalTokens snapshot.totalTokens)
      (after.promptTokens + after.completionTokens)) (after.inputTokens + after.outputTokens)
  zero : ∀ current snapshot, ∀ c ∈ usageCounters, c snapshot = 0 → c (merge current snapshot) = c current
  again : ∀ current snapshot, (merge (merge current snapshot) snapshot).clone = (merge current snapshot).clone

theorem LaysOver.of_counts {merge : Usage → Usage → Usage}
    (h : ∀ current incoming, ∃ billingUsage, merge current incoming =
      { mergeUsageCounts current incoming with billingUsage }) : LaysOver merge := by
  have hcount {c : Usage → ℤ} (hc : c ∈ usageCounters) (current incoming : Usage) :
      c (merge current incoming) = overlay (c current) (c incoming) := by
    obtain ⟨billingUsage, hmerge⟩ := h current incoming
    rw [← usageCounter_merge hc, hmerge]
    simp only [usageCounters, List.mem_append, List.mem_map] at hc
    rcases hc with ((hscalar | ⟨d, -, rfl⟩) | ⟨d, -, rfl⟩) | ⟨d, -, rfl⟩
    · simp only [List.mem_cons, List.not_mem_nil, or_false] at hscalar
      rcases hscalar with rfl | rfl | rfl | rfl | rfl | rfl | rfl <;> rfl
    · rfl
    · rfl
    · rfl
  have hcached {c : Usage → Option ℤ} (hc : c ∈ cachedCounters) (current incoming : Usage) :
      c (merge current incoming) = (c incoming).or (c current) := by
    obtain ⟨billingUsage, hmerge⟩ := h current incoming
    rw [← cachedCounter_merge hc, hmerge]
    simp only [cachedCounters, List.mem_append, List.mem_map] at hc
    rcases hc with ⟨d, -, rfl⟩ | ⟨d, -, rfl⟩ <;> rfl
  refine ⟨fun current snapshots c hc => count_foldl (hcount hc) current snapshots,
    fun current snapshots c hc => reported_foldl (hcached hc) current snapshots, ?_, ?_, ?_⟩
  · intro current snapshots snapshot before after
    obtain ⟨billingUsage, hmerge⟩ := h before snapshot
    have hafter : after = { mergeUsageCounts before snapshot with billingUsage } := by
      rw [← hmerge]
      exact List.foldl_concat _ _ _ _
    rw [hafter]
    rfl
  · intro current snapshot c hc hzero
    rw [hcount hc, hzero, overlay_zero]
  · intro current snapshot
    obtain ⟨b, hmerge⟩ := h current snapshot
    obtain ⟨b', hmerge'⟩ := h (merge current snapshot) snapshot
    calc (merge (merge current snapshot) snapshot).clone
        = (mergeUsageCounts (merge current snapshot) snapshot).clone := by rw [hmerge']; rfl
      _ = (mergeUsageCounts (mergeUsageCounts current snapshot) snapshot).clone := by rw [hmerge]; rfl
      _ = (mergeUsageCounts current snapshot).clone := by rw [mergeUsageCounts_self]
      _ = (merge current snapshot).clone := by rw [hmerge]; rfl

theorem laysOver_mergeOpenAIPayload : LaysOver mergeOpenAIPayload :=
  .of_counts fun _ _ => ⟨none, rfl⟩

theorem laysOver_mergeUsageNonZero (runes : Runes) : LaysOver (mergeUsageNonZero runes) := by
  refine .of_counts fun current incoming => ?_
  unfold mergeUsageNonZero
  cases incoming.billingUsage with
  | none => exact ⟨(mergeUsageCounts current incoming).billingUsage, rfl⟩
  | some billingUsage => exact ⟨_, rfl⟩

/-! ## Claude -/

def serverToolCounters : List (ClaudeServerToolUse → ℤ) :=
  [ClaudeServerToolUse.webSearchRequests, ClaudeServerToolUse.webFetchRequests,
    ClaudeServerToolUse.codeExecutionRequests, ClaudeServerToolUse.toolSearchRequests]

/-- Every count of a Claude usage but those of the cache creation by lifetime. -/
def claudeCounters : List (ClaudeUsage → ℤ) :=
  [ClaudeUsage.inputTokens, ClaudeUsage.cacheCreationInputTokens, ClaudeUsage.cacheReadInputTokens,
    ClaudeUsage.outputTokens] ++
  serverToolCounters.map fun c u => c (u.serverToolUse.getD {})

theorem serverToolCounter_merge {c : ClaudeServerToolUse → ℤ} (hc : c ∈ serverToolCounters)
    (current incoming : Option ClaudeServerToolUse) :
    c ((mergeServerToolUse current incoming).getD {}) = overlay (c (current.getD {})) (c (incoming.getD {})) := by
  simp only [serverToolCounters, List.mem_cons, List.not_mem_nil, or_false] at hc
  cases incoming with
  | none => rcases hc with rfl | rfl | rfl | rfl <;> rfl
  | some use => rcases hc with rfl | rfl | rfl | rfl <;> rfl

theorem claudeCounter_merge {c : ClaudeUsage → ℤ} (hc : c ∈ claudeCounters) (current incoming : ClaudeUsage) :
    c (mergeClaudeUsageNonZero current incoming) = overlay (c current) (c incoming) := by
  simp only [claudeCounters, List.mem_append, List.mem_map] at hc
  rcases hc with hscalar | ⟨d, hd, rfl⟩
  · simp only [List.mem_cons, List.not_mem_nil, or_false] at hscalar
    rcases hscalar with rfl | rfl | rfl | rfl <;> rfl
  · exact serverToolCounter_merge hd current.serverToolUse incoming.serverToolUse

/-- Claude: the sub-object of the cache creation is replaced as a whole, and the flat counts follow it, zeros too. -/
structure ClaudeLaysOver : Prop where
  counts : ∀ (current : ClaudeUsage) (snapshots : List ClaudeUsage), ∀ c ∈ claudeCounters,
    c (snapshots.foldl mergeClaudeUsageNonZero current) = latest (c current) (snapshots.map c)
  zero : ∀ current snapshot, ∀ c ∈ claudeCounters, c snapshot = 0 →
    c (mergeClaudeUsageNonZero current snapshot) = c current
  cacheCreation : ∀ current snapshot cacheCreation, snapshot.cacheCreation = some cacheCreation →
    (mergeClaudeUsageNonZero current snapshot).cacheCreation = some cacheCreation ∧
      (mergeClaudeUsageNonZero current snapshot).claudeCacheCreation5mTokens = cacheCreation.ephemeral5mInputTokens ∧
      (mergeClaudeUsageNonZero current snapshot).claudeCacheCreation1hTokens = cacheCreation.ephemeral1hInputTokens
  flat : ∀ current snapshot, snapshot.cacheCreation = none →
    (mergeClaudeUsageNonZero current snapshot).cacheCreation = current.cacheCreation ∧
      (mergeClaudeUsageNonZero current snapshot).claudeCacheCreation5mTokens =
        overlay current.claudeCacheCreation5mTokens snapshot.claudeCacheCreation5mTokens ∧
      (mergeClaudeUsageNonZero current snapshot).claudeCacheCreation1hTokens =
        overlay current.claudeCacheCreation1hTokens snapshot.claudeCacheCreation1hTokens
  again : ∀ current snapshot,
    mergeClaudeUsageNonZero (mergeClaudeUsageNonZero current snapshot) snapshot =
      mergeClaudeUsageNonZero current snapshot

@[simp] theorem mergeServerToolUse_self (current incoming : Option ClaudeServerToolUse) :
    mergeServerToolUse (mergeServerToolUse current incoming) incoming = mergeServerToolUse current incoming := by
  cases incoming with
  | none => rfl
  | some use => simp [mergeServerToolUse]

@[simp] theorem mergeCacheCreation_self (flat incomingFlat : ℤ) (part : ClaudeCacheCreationUsage → ℤ)
    (incoming : Option ClaudeCacheCreationUsage) :
    mergeCacheCreation (mergeCacheCreation flat incomingFlat part incoming) incomingFlat part incoming =
      mergeCacheCreation flat incomingFlat part incoming := by
  cases incoming with
  | none => exact overlay_overlay_self flat incomingFlat
  | some cacheCreation => rfl

theorem cloned_again (current incoming : Option BillingUsage) :
    (incoming.or ((incoming.or current).map BillingUsage.clone)).map BillingUsage.clone =
      (incoming.or current).map BillingUsage.clone := by
  cases incoming with
  | none => simp [Function.comp_def]
  | some billingUsage => simp

theorem claudeLaysOver : ClaudeLaysOver where
  counts current snapshots c hc := count_foldl (claudeCounter_merge hc) current snapshots
  zero current snapshot c hc hzero := by rw [claudeCounter_merge hc, hzero, overlay_zero]
  cacheCreation current snapshot cacheCreation h := by
    simp [mergeClaudeUsageNonZero, mergeCacheCreation, h]
  flat current snapshot h := by
    simp [mergeClaudeUsageNonZero, mergeCacheCreation, h]
  again current snapshot := by
    simp only [mergeClaudeUsageNonZero, overlay_overlay_self, or_or_self, mergeCacheCreation_self,
      mergeServerToolUse_self, cloned_again]

/-! ## Gemini -/

section Gemini

variable (runes : Runes)

/-- What the entries of a modality add up to. -/
def modalityTotal (key : String) (details : List GeminiPromptTokensDetails) : ℤ :=
  (details.map fun d => if normalizeGeminiModality runes d.modality = key then d.tokenCount else 0).sum

/-- The same of the entries above zero. -/
def modalityReported (key : String) (details : List GeminiPromptTokensDetails) : ℤ :=
  (details.map fun d =>
    if normalizeGeminiModality runes d.modality = key ∧ 0 < d.tokenCount then d.tokenCount else 0).sum

theorem modalityIndex_some {key : String} {details : List GeminiPromptTokensDetails} {index : ℕ}
    (h : modalityIndex runes key details = some index) :
    ∃ d, details[index]? = some d ∧ normalizeGeminiModality runes d.modality = key := by
  unfold modalityIndex at h
  obtain ⟨⟨d, i⟩, hfind, rfl⟩ := Option.map_eq_some_iff.mp h
  have hmem := List.mem_reverse.mp (List.mem_of_find?_eq_some hfind)
  refine ⟨d, List.mem_zipIdx_iff_getElem?.mp hmem, ?_⟩
  simpa using List.find?_some hfind

theorem modalityTotal_mergeDetail (key : String) (merged : List GeminiPromptTokensDetails)
    (detail : GeminiPromptTokensDetails) : modalityTotal runes key (mergeGeminiTokenDetail runes merged detail) =
      modalityTotal runes key merged + modalityReported runes key [detail] := by
  unfold mergeGeminiTokenDetail
  by_cases hcount : detail.tokenCount ≤ 0
  · rw [if_pos hcount]
    simp [modalityReported, hcount]
  · rw [if_neg hcount]
    have hpos : 0 < detail.tokenCount := by omega
    split
    · rename_i index hindex
      obtain ⟨d, hd, hkey⟩ := modalityIndex_some runes hindex
      rw [List.modify_eq_set_getElem?, hd]
      show modalityTotal runes key (merged.set index { d with tokenCount := d.tokenCount + detail.tokenCount }) = _
      unfold modalityTotal
      rw [sum_map_set hd]
      dsimp only
      rw [hkey]
      by_cases hmod : normalizeGeminiModality runes detail.modality = key
      · simp only [modalityReported, hmod, hpos, if_true, List.map_cons, List.map_nil, List.sum_cons, List.sum_nil,
          and_self]
        omega
      · simp [modalityReported, hmod]
    · simp only [modalityTotal, modalityReported, List.map_append, List.sum_append, List.map_cons, List.map_nil, hpos,
        and_true]

theorem modalityTotal_mergeDetails (key : String) (current incoming : List GeminiPromptTokensDetails) :
    modalityTotal runes key (mergeGeminiTokenDetails runes current incoming) =
      modalityTotal runes key current + modalityReported runes key incoming := by
  unfold mergeGeminiTokenDetails
  induction incoming generalizing current with
  | nil => simp [modalityReported]
  | cons detail incoming ih =>
    rw [List.foldl_cons, ih, modalityTotal_mergeDetail]
    simp only [modalityReported, List.map_cons, List.map_nil, List.sum_cons, List.sum_nil]
    omega

def geminiCounters : List (GeminiUsageMetadata → ℤ) :=
  [GeminiUsageMetadata.promptTokenCount, GeminiUsageMetadata.toolUsePromptTokenCount,
    GeminiUsageMetadata.candidatesTokenCount, GeminiUsageMetadata.cachedContentTokenCount]

/-- The lists of counts by modality. -/
def geminiDetails : List (GeminiUsageMetadata → List GeminiPromptTokensDetails) :=
  [GeminiUsageMetadata.promptTokensDetails, GeminiUsageMetadata.toolUsePromptTokensDetails,
    GeminiUsageMetadata.candidatesTokensDetails]

/-- Gemini: the thoughts are replaced along with the candidates, and the counts of a modality are added. -/
structure GeminiLaysOver : Prop where
  counts : ∀ (current : GeminiUsageMetadata) (snapshots : List GeminiUsageMetadata), ∀ c ∈ geminiCounters,
    c (snapshots.foldl (mergeGeminiUsageMetadataNonZero runes) current) = latest (c current) (snapshots.map c)
  zero : ∀ current snapshot, ∀ c ∈ geminiCounters, c snapshot = 0 →
    c (mergeGeminiUsageMetadataNonZero runes current snapshot) = c current
  thoughts : ∀ current snapshot, (mergeGeminiUsageMetadataNonZero runes current snapshot).thoughtsTokenCount =
    if 0 < snapshot.candidatesTokenCount then snapshot.thoughtsTokenCount
    else overlay current.thoughtsTokenCount snapshot.thoughtsTokenCount
  total : ∀ current snapshot,
    let after := mergeGeminiUsageMetadataNonZero runes current snapshot
    after.totalTokenCount = max (overlay current.totalTokenCount snapshot.totalTokenCount)
      (after.promptTokenCount + after.toolUsePromptTokenCount + after.candidatesTokenCount + after.thoughtsTokenCount)
  modalities : ∀ (current : GeminiUsageMetadata) (snapshots : List GeminiUsageMetadata), ∀ d ∈ geminiDetails, ∀ key,
    modalityTotal runes key (d (snapshots.foldl (mergeGeminiUsageMetadataNonZero runes) current)) =
      modalityTotal runes key (d current) + (snapshots.map fun s => modalityReported runes key (d s)).sum
  again : ∀ current snapshot,
    let once := mergeGeminiUsageMetadataNonZero runes current snapshot
    let twice := mergeGeminiUsageMetadataNonZero runes once snapshot
    (∀ c ∈ geminiCounters, c twice = c once) ∧ twice.thoughtsTokenCount = once.thoughtsTokenCount ∧
      twice.totalTokenCount = once.totalTokenCount

variable {runes}

theorem geminiCounter_merge {c : GeminiUsageMetadata → ℤ} (hc : c ∈ geminiCounters)
    (current incoming : GeminiUsageMetadata) :
    c (mergeGeminiUsageMetadataNonZero runes current incoming) = overlay (c current) (c incoming) := by
  obtain ⟨billingUsage, hmerge⟩ := mergeGeminiUsageMetadataNonZero_counts runes current incoming
  rw [hmerge]
  simp only [geminiCounters, List.mem_cons, List.not_mem_nil, or_false] at hc
  rcases hc with rfl | rfl | rfl | rfl <;> rfl

theorem geminiDetails_merge {d : GeminiUsageMetadata → List GeminiPromptTokensDetails} (hd : d ∈ geminiDetails)
    (current incoming : GeminiUsageMetadata) : d (mergeGeminiUsageMetadataNonZero runes current incoming) =
      mergeGeminiTokenDetails runes (d current) (d incoming) := by
  obtain ⟨billingUsage, hmerge⟩ := mergeGeminiUsageMetadataNonZero_counts runes current incoming
  rw [hmerge]
  simp only [geminiDetails, List.mem_cons, List.not_mem_nil, or_false] at hd
  rcases hd with rfl | rfl | rfl <;> rfl

theorem geminiThoughts_merge (current incoming : GeminiUsageMetadata) :
    (mergeGeminiUsageMetadataNonZero runes current incoming).thoughtsTokenCount =
      if 0 < incoming.candidatesTokenCount then incoming.thoughtsTokenCount
      else overlay current.thoughtsTokenCount incoming.thoughtsTokenCount := by
  obtain ⟨billingUsage, hmerge⟩ := mergeGeminiUsageMetadataNonZero_counts runes current incoming
  rw [hmerge]
  rfl

theorem geminiTotal_merge (current incoming : GeminiUsageMetadata) :
    let after := mergeGeminiUsageMetadataNonZero runes current incoming
    after.totalTokenCount = max (overlay current.totalTokenCount incoming.totalTokenCount)
      (after.promptTokenCount + after.toolUsePromptTokenCount + after.candidatesTokenCount +
        after.thoughtsTokenCount) := by
  intro after
  obtain ⟨billingUsage, hmerge⟩ := mergeGeminiUsageMetadataNonZero_counts runes current incoming
  have hafter : after = { mergeGeminiCounts runes current incoming with billingUsage } := hmerge
  rw [hafter]
  rfl

theorem geminiLaysOver (runes : Runes) : GeminiLaysOver runes where
  counts current snapshots c hc := count_foldl (geminiCounter_merge hc) current snapshots
  zero current snapshot c hc hzero := by rw [geminiCounter_merge hc, hzero, overlay_zero]
  thoughts := geminiThoughts_merge
  total := geminiTotal_merge
  modalities current snapshots d hd key := by
    induction snapshots generalizing current with
    | nil => simp
    | cons snapshot snapshots ih =>
      rw [List.foldl_cons, ih, geminiDetails_merge hd, modalityTotal_mergeDetails, List.map_cons, List.sum_cons]
      omega
  again current snapshot := by
    intro once twice
    have hcounts : ∀ c ∈ geminiCounters, c twice = c once := fun c hc => by
      rw [geminiCounter_merge hc, geminiCounter_merge hc, overlay_overlay_self]
    have hthoughts : twice.thoughtsTokenCount = once.thoughtsTokenCount := by
      show (mergeGeminiUsageMetadataNonZero runes once snapshot).thoughtsTokenCount = _
      rw [geminiThoughts_merge, geminiThoughts_merge]
      split_ifs
      · rfl
      · exact overlay_overlay_self _ _
    refine ⟨hcounts, hthoughts, ?_⟩
    let parts (m : GeminiUsageMetadata) : ℤ :=
      m.promptTokenCount + m.toolUsePromptTokenCount + m.candidatesTokenCount + m.thoughtsTokenCount
    have honce : once.totalTokenCount = max (overlay current.totalTokenCount snapshot.totalTokenCount) (parts once) :=
      geminiTotal_merge current snapshot
    have hparts : parts twice = parts once := by
      simp only [parts, hthoughts, hcounts GeminiUsageMetadata.promptTokenCount (by simp [geminiCounters]),
        hcounts GeminiUsageMetadata.toolUsePromptTokenCount (by simp [geminiCounters]),
        hcounts GeminiUsageMetadata.candidatesTokenCount (by simp [geminiCounters])]
    -- the parts are the same, and the total was raised to them already
    calc twice.totalTokenCount
        = max (overlay once.totalTokenCount snapshot.totalTokenCount) (parts twice) :=
          geminiTotal_merge once snapshot
      _ = max (overlay (max (overlay current.totalTokenCount snapshot.totalTokenCount) (parts once))
            snapshot.totalTokenCount) (parts once) := by rw [hparts, honce]
      _ = max (overlay current.totalTokenCount snapshot.totalTokenCount) (parts once) := raised_self_one _ _ _
      _ = once.totalTokenCount := honce.symm

end Gemini

/-! ## Sidecars -/

section Sidecars

variable {runes : Runes} {source semantic : String}

/-- A sidecar that names no other dialect than `source` and `semantic`. -/
structure OfDialect (runes : Runes) (source semantic : String) (b : BillingUsage) : Prop where
  source : b.source = "" ∨ runes.equalFold b.source source
  semantic : b.semantic = "" ∨ runes.equalFold b.semantic semantic

/-- `MergeBillingUsageNonZero` over the sidecars of a stream. -/
def foldSidecars (runes : Runes) (first : BillingUsage) (rest : List BillingUsage) : BillingUsage :=
  rest.foldl (fun current incoming => mergeBillingUsageNonZero runes (some current) incoming) first.clone

theorem equalFold_trans {s t u : String} (h : runes.equalFold s u) (h' : runes.equalFold t u) :
    runes.equalFold s t := by
  simp only [Runes.equalFold, decide_eq_true_eq] at *
  rw [h, h']

variable {current incoming : BillingUsage}

theorem sameDialect_of (hc : OfDialect runes source semantic current) (hi : OfDialect runes source semantic incoming)
    (hpayload : (current.openAIUsage.isSome && incoming.openAIUsage.isSome) ||
      (current.claudeUsage.isSome && incoming.claudeUsage.isSome) ||
      (current.geminiUsageMetadata.isSome && incoming.geminiUsageMetadata.isSome)) :
    sameBillingUsageDialect runes current incoming := by
  have hmatch {s t u : String} (hs : s = "" ∨ runes.equalFold s u) (ht : t = "" ∨ runes.equalFold t u) :
      (!(s ≠ "" && t ≠ "" && !runes.equalFold s t)) = true := by
    rcases hs with rfl | hs
    · rfl
    · rcases ht with rfl | ht
      · simp
      · simp [equalFold_trans hs ht]
  unfold sameBillingUsageDialect
  rw [hmatch hc.source hi.source, hmatch hc.semantic hi.semantic, hpayload]
  rfl

theorem overlayText_cases {P : String → Prop} {s t : String} (hs : P s) (ht : P t) : P (overlayText s t) := by
  unfold overlayText
  split_ifs
  · exact ht
  · exact hs

theorem OfDialect.relabel (hc : OfDialect runes source semantic current)
    (hi : OfDialect runes source semantic incoming) : OfDialect runes source semantic (current.relabel incoming) where
  source := overlayText_cases (P := fun s => s = "" ∨ runes.equalFold s source) hc.source hi.source
  semantic := overlayText_cases (P := fun s => s = "" ∨ runes.equalFold s semantic) hc.semantic hi.semantic

/-- The payload of a fold is the fold of the payloads, when each merge merges them. -/
theorem payload_foldl {π : Type} (K : BillingUsage → Prop) (payload : BillingUsage → Option π) {merge : π → π → π}
    (hstep : ∀ {current incoming c i}, K current → K incoming → payload current = some c →
      payload incoming = some i → K (mergeBillingUsageNonZero runes (some current) incoming) ∧
        payload (mergeBillingUsageNonZero runes (some current) incoming) = some (merge c i))
    {rest : List BillingUsage} {ps : List π} (hrest : ∀ b ∈ rest, K b) (hps : rest.map payload = ps.map some)
    {current : BillingUsage} {c : π} (hK : K current) (hc : payload current = some c) :
    payload (rest.foldl (fun current incoming => mergeBillingUsageNonZero runes (some current) incoming) current) =
      some (ps.foldl merge c) := by
  induction rest generalizing current c ps with
  | nil =>
    obtain rfl : ps = [] := by simpa using hps.symm
    exact hc
  | cons b rest ih =>
    cases ps with
    | nil => simp at hps
    | cons p ps =>
      rw [List.map_cons, List.map_cons, List.cons.injEq] at hps
      obtain ⟨hK', hc'⟩ := hstep hK (hrest b List.mem_cons_self) hc hps.1
      exact ih (fun b hb => hrest b (List.mem_cons_of_mem _ hb)) hps.2 hK' hc'

/-- Over the sidecars of one dialect, the payload of the fold is the fold of the payloads from the first one; and the
sidecar of a fold of usages is the fold of their sidecars. -/
structure SidecarsFold (runes : Runes) : Prop where
  openAI : ∀ (source semantic : String) (first : BillingUsage) (rest : List BillingUsage) (p : Usage) (ps : List Usage),
    (∀ b ∈ first :: rest, OfDialect runes source semantic b) → first.openAIUsage = some p →
    rest.map BillingUsage.openAIUsage = ps.map some →
    (foldSidecars runes first rest).openAIUsage = some (ps.foldl mergeOpenAIPayload p.clone)
  claude : ∀ (source semantic : String) (first : BillingUsage) (rest : List BillingUsage) (p : ClaudeUsage)
    (ps : List ClaudeUsage),
    (∀ b ∈ first :: rest, OfDialect runes source semantic b ∧ b.openAIUsage = none) → first.claudeUsage = some p →
    rest.map BillingUsage.claudeUsage = ps.map some →
    (foldSidecars runes first rest).claudeUsage = some (ps.foldl mergeClaudeUsageNonZero p.clone)
  gemini : ∀ (source semantic : String) (first : BillingUsage) (rest : List BillingUsage) (p : GeminiUsageMetadata)
    (ps : List GeminiUsageMetadata),
    (∀ b ∈ first :: rest, OfDialect runes source semantic b ∧ b.openAIUsage = none ∧ b.claudeUsage = none) →
    first.geminiUsageMetadata = some p → rest.map BillingUsage.geminiUsageMetadata = ps.map some →
    (foldSidecars runes first rest).geminiUsageMetadata =
      some (ps.foldl (mergeGeminiUsageMetadataNonZero runes) p.clone)
  usage : ∀ (current : Usage) (snapshots : List Usage),
    (snapshots.foldl (mergeUsageNonZero runes) current).billingUsage =
      (snapshots.filterMap Usage.billingUsage).foldl (fun b i => some (mergeBillingUsageNonZero runes b i))
        current.billingUsage

theorem OfDialect.clone {b : BillingUsage} (h : OfDialect runes source semantic b) :
    OfDialect runes source semantic b.clone := ⟨h.source, h.semantic⟩

theorem sidecarsFold (runes : Runes) : SidecarsFold runes where
  openAI source semantic first rest p ps hall hfirst hrest := by
    refine payload_foldl (OfDialect runes source semantic) BillingUsage.openAIUsage ?_
      (fun b hb => hall b (List.mem_cons_of_mem _ hb)) hrest (hall first List.mem_cons_self).clone
      (by simp [BillingUsage.clone, hfirst])
    intro current incoming c i hcurrent hincoming hc hi
    rw [mergeBillingUsageNonZero_openAI runes (sameDialect_of hcurrent hincoming (by simp [hc, hi])) hc hi]
    exact ⟨⟨(hcurrent.relabel hincoming).source, (hcurrent.relabel hincoming).semantic⟩, rfl⟩
  claude source semantic first rest p ps hall hfirst hrest := by
    refine payload_foldl (fun b => OfDialect runes source semantic b ∧ b.openAIUsage = none)
      BillingUsage.claudeUsage ?_ (fun b hb => hall b (List.mem_cons_of_mem _ hb)) hrest
      ⟨(hall first List.mem_cons_self).1.clone, ?_⟩ (by simp [BillingUsage.clone, hfirst])
    · intro current incoming c i hcurrent hincoming hc hi
      rw [mergeBillingUsageNonZero_claude runes (sameDialect_of hcurrent.1 hincoming.1 (by simp [hc, hi])) hincoming.2
        hc hi]
      have hlabels := hcurrent.1.relabel hincoming.1
      exact ⟨⟨⟨hlabels.source, hlabels.semantic⟩, by simp [BillingUsage.relabel, BillingUsage.clone, hcurrent.2]⟩, rfl⟩
    · simp [BillingUsage.clone, (hall first List.mem_cons_self).2]
  gemini source semantic first rest p ps hall hfirst hrest := by
    refine payload_foldl
      (fun b => OfDialect runes source semantic b ∧ b.openAIUsage = none ∧ b.claudeUsage = none)
      BillingUsage.geminiUsageMetadata ?_ (fun b hb => hall b (List.mem_cons_of_mem _ hb)) hrest
      ⟨(hall first List.mem_cons_self).1.clone, ?_⟩ (by simp [BillingUsage.clone, hfirst])
    · intro current incoming c i hcurrent hincoming hc hi
      rw [mergeBillingUsageNonZero_gemini runes (sameDialect_of hcurrent.1 hincoming.1 (by simp [hc, hi]))
        hincoming.2.1 hincoming.2.2 hc hi]
      have hlabels := hcurrent.1.relabel hincoming.1
      exact ⟨⟨⟨hlabels.source, hlabels.semantic⟩, by simp [BillingUsage.relabel, BillingUsage.clone, hcurrent.2]⟩, rfl⟩
    · simp [BillingUsage.clone, (hall first List.mem_cons_self).2]
  usage current snapshots := by
    induction snapshots generalizing current with
    | nil => rfl
    | cons snapshot snapshots ih =>
      rw [List.foldl_cons, ih]
      cases hbilling : snapshot.billingUsage with
      | none =>
        rw [List.filterMap_cons_none hbilling]
        simp only [mergeUsageNonZero, hbilling]
        rfl
      | some billingUsage =>
        rw [List.filterMap_cons_some hbilling, List.foldl_cons]
        simp only [mergeUsageNonZero, hbilling]

end Sidecars

end Vancine.Snapshots
