import Vancine.Lib.Scan
import Vancine.Requests.ChatToClaude

/-!
# The history of a chat at Claude

Every text of a chat arrives, perhaps joined to its neighbours, and so does every result of a tool. The tool calls of a
message are lost when the next message is merged into it.
-/

namespace Vancine.Requests

open Lib

variable {lib : ConvertLibrary}

/-! ## Texts that are joined -/

inductive Piece
  | source (s : String)
  | placeholder

def Piece.text : Piece → String
  | .source s => s
  | .placeholder => "..."

def Piece.source? : Piece → Option String
  | .source s => some s
  | .placeholder => none

/-- Pieces with blanks between them. -/
def joined : List Piece → String
  | [] => ""
  | [p] => p.text
  | p :: ps => p.text ++ " " ++ joined ps

def sources (pieces : List Piece) : List String := (pieces.filterMap Piece.source?).filter (· ≠ "")

/-- The texts that are not empty come out in order, each of them whole, with blanks and placeholders between them. -/
def Rendered (out source : List String) : Prop :=
  ∃ pieces : List (List Piece), (∀ ps ∈ pieces, ps ≠ []) ∧ out = pieces.map joined ∧
    sources pieces.flatten = source.filter (· ≠ "")

theorem joined_append {ps qs : List Piece} (hps : ps ≠ []) (hqs : qs ≠ []) :
    joined (ps ++ qs) = joined ps ++ " " ++ joined qs := by
  induction ps with
  | nil => exact absurd rfl hps
  | cons p ps ih =>
    cases ps with
    | nil =>
      cases qs with
      | nil => exact absurd rfl hqs
      | cons q qs => rfl
    | cons p' ps =>
      have hrest := ih (List.cons_ne_nil _ _)
      change p.text ++ " " ++ joined (p' :: ps ++ qs) = p.text ++ " " ++ joined (p' :: ps) ++ " " ++ joined qs
      rw [hrest]
      simp only [String.append_assoc]

@[simp] theorem sources_append (ps qs : List Piece) : sources (ps ++ qs) = sources ps ++ sources qs := by
  simp [sources]

theorem sources_of_joined_empty {ps : List Piece} (h : joined ps = "") : sources ps = [] := by
  match ps with
  | [] => rfl
  | [p] =>
    cases p with
    | placeholder => rfl
    | source s =>
      have hs : s = "" := h
      subst hs
      rfl
  | p :: p' :: ps =>
    have hlen := congrArg String.length h
    simp [joined] at hlen

theorem Rendered.nil : Rendered [] [] := ⟨[], fun _ h => absurd h List.not_mem_nil, rfl, rfl⟩

theorem Rendered.append {out out' source source' : List String} (h : Rendered out source) (h' : Rendered out' source') :
    Rendered (out ++ out') (source ++ source') := by
  obtain ⟨pieces, hne, rfl, hs⟩ := h
  obtain ⟨pieces', hne', rfl, hs'⟩ := h'
  refine ⟨pieces ++ pieces', fun ps hps => ?_, List.map_append.symm, ?_⟩
  · exact (List.mem_append.mp hps).elim (hne ps) (hne' ps)
  · rw [List.flatten_append, sources_append, hs, hs', List.filter_append]

theorem Rendered.single (s : String) : Rendered [s] [s] :=
  ⟨[[.source s]], by simp, rfl, by simp [sources, Piece.source?]⟩

theorem Rendered.placeholder : Rendered ["..."] [] := ⟨[[.placeholder]], by simp, rfl, rfl⟩

theorem Rendered.refl (texts : List String) : Rendered texts texts := by
  induction texts with
  | nil => exact .nil
  | cons s texts ih => exact (Rendered.single s).append ih

theorem Rendered.join {a b : String} {source source' : List String} (h : Rendered [a] source)
    (h' : Rendered [b] source') : Rendered [a ++ " " ++ b] (source ++ source') := by
  obtain ⟨pieces, hne, hout, hs⟩ := h
  obtain ⟨pieces', hne', hout', hs'⟩ := h'
  obtain ⟨ps, rfl, rfl⟩ := List.map_eq_singleton_iff.mp hout.symm
  obtain ⟨qs, rfl, rfl⟩ := List.map_eq_singleton_iff.mp hout'.symm
  have hps : ps ≠ [] := hne ps List.mem_cons_self
  have hqs : qs ≠ [] := hne' qs List.mem_cons_self
  refine ⟨[ps ++ qs], fun rs hrs => ?_, ?_, ?_⟩
  · rw [List.mem_singleton.mp hrs]
    exact List.append_ne_nil_of_left_ne_nil hps qs
  · exact congrArg (fun s => [s]) (joined_append hps hqs).symm
  · simp only [List.flatten_cons, List.flatten_nil, List.append_nil] at hs hs' ⊢
    rw [sources_append, hs, hs', List.filter_append]

theorem Rendered.filter {out source : List String} (h : Rendered out source) :
    Rendered (out.filter (· ≠ "")) source := by
  obtain ⟨pieces, hne, rfl, hs⟩ := h
  refine ⟨pieces.filter fun ps => joined ps ≠ "", fun ps hps => hne ps (List.mem_of_mem_filter hps), ?_, ?_⟩
  · rw [List.filter_map]; rfl
  · rw [← hs]
    clear hs hne
    induction pieces with
    | nil => rfl
    | cons ps pieces ih =>
      rw [List.filter_cons]
      split
      · rw [List.flatten_cons, List.flatten_cons, sources_append, sources_append, ih]
      · next hempty =>
        have hps : joined ps = "" := by simpa using hempty
        rw [ih, List.flatten_cons, sources_append, sources_of_joined_empty hps, List.nil_append]

variable {source : List String}

theorem Rendered.fill (h : Rendered [""] source) : Rendered ["..."] source := by
  have hrest : Rendered [] source := h.filter
  exact Rendered.placeholder.append hrest

theorem rendered_orPlaceholder {content : Content} (h : Rendered content.parseContent source) :
    Rendered content.orPlaceholder.parseContent source := by
  cases content with
  | absent => exact Rendered.placeholder.append h
  | text s =>
    dsimp only [Content.orPlaceholder]
    split
    · next hs =>
      subst hs
      exact h.fill
    · exact h
  | parts texts => exact h

/-! ## The first pass -/

section FirstPass

variable {last : Message} {message : ChatMessage} {messages : List ChatMessage}

/-- A message that is not merged. -/
def startMessage (message : ChatMessage) : Message :=
  { formatMessage message with content := (formatMessage message).content.orPlaceholder }

/-- A message with the last one merged into it. -/
def mergedMessage (last : Message) (message : ChatMessage) : Message :=
  { formatMessage message with
    content := Content.orPlaceholder
      (.text (last.content.stringContent ++ " " ++ (formatMessage message).content.stringContent)) }

/-- The first pass from a message on. -/
def formatFrom (last : Message) : List ChatMessage → List Message
  | [] => [last]
  | message :: messages =>
    if merges last (formatMessage message) then formatFrom (mergedMessage last message) messages
    else last :: formatFrom (startMessage message) messages

theorem foldl_formatStep (formatted : List Message) (last : Message) (messages : List ChatMessage) :
    (messages.foldl formatStep (formatted ++ [last], last)).1 = formatted ++ formatFrom last messages := by
  induction messages generalizing formatted last with
  | nil => rfl
  | cons message messages ih =>
    rw [List.foldl_cons, formatFrom]
    by_cases hmerges : merges last (formatMessage message) = true
    · rw [if_pos hmerges, ← ih formatted (mergedMessage last message)]
      congr 2
      simp only [formatStep, if_pos hmerges, List.dropLast_concat]
      rfl
    · rw [if_neg hmerges]
      refine Eq.trans ?_ ((ih (formatted ++ [last]) (startMessage message)).trans (List.append_cons ..).symm)
      congr 2
      simp only [formatStep, if_neg hmerges]
      rfl

theorem formatMessages_cons (message : ChatMessage) (messages : List ChatMessage) :
    formatMessages (message :: messages) = formatFrom (startMessage message) messages := by
  have hmerges : ¬merges { role := .tool, content := .absent } (formatMessage message) = true := by
    simp [merges]
  rw [formatMessages, List.foldl_cons]
  refine Eq.trans ?_ (foldl_formatStep [] (startMessage message) messages)
  congr 2
  simp only [formatStep, if_neg hmerges]
  rfl

/-- The tool calls of a message, with their names. -/
def Message.calls (message : Message) : List (String × String) :=
  (message.toolCalls.getD []).map fun call => (call.id, call.name)

/-- The tool calls that an assistant sent. -/
def ChatMessage.calls (message : ChatMessage) : List (String × String) := (formatMessage message).calls

/-- The message is merged into the one before it. -/
def ChatMessage.mergesInto (message before : ChatMessage) : Bool :=
  merges (startMessage before) (formatMessage message)

/-- No message with tool calls has the next one merged into it. -/
def KeepsCalls : List ChatMessage → Prop
  | before :: message :: messages =>
    (message.mergesInto before → before.calls = []) ∧ KeepsCalls (message :: messages)
  | _ => True

variable {before : ChatMessage}

/-- A merged message takes in the next one as its last part does. -/
theorem merges_mergedMessage (h : merges last (formatMessage before) = true) (message : Message) :
    merges (mergedMessage last before) message = merges (startMessage before) message := by
  have hstring : (formatMessage before).content.isStringContent = true := by
    unfold merges at h
    exact ((Bool.and_eq_true _ _).mp h).2
  have hmerged : (mergedMessage last before).content.isStringContent = true := by
    dsimp only [mergedMessage, Content.orPlaceholder]
    split <;> rfl
  have hstart : (startMessage before).content.isStringContent = true := by
    dsimp only [startMessage]
    cases hcontent : (formatMessage before).content with
    | text s =>
      dsimp only [Content.orPlaceholder]
      split <;> rfl
    | absent => rw [hcontent] at hstring; cases hstring
    | parts texts => rw [hcontent] at hstring; cases hstring
  unfold merges
  rw [hmerged, hstart]
  rfl

/-- The calls of the first pass are some of the calls of the chat. -/
theorem calls_formatFrom_sublist (last : Message) (messages : List ChatMessage) :
    ((formatFrom last messages).flatMap Message.calls).Sublist (last.calls ++ messages.flatMap ChatMessage.calls) := by
  induction messages generalizing last with
  | nil => simp [formatFrom]
  | cons message messages ih =>
    rw [formatFrom, List.flatMap_cons]
    split
    · exact (ih (mergedMessage last message)).trans (List.sublist_append_right _ _)
    · rw [List.flatMap_cons]
      exact (List.Sublist.refl _).append (ih (startMessage message))

/-- All calls come out of the first pass exactly if none is merged away. -/
theorem calls_formatFrom_iff (hcalls : last.calls = before.calls)
    (hmerges : ∀ message, merges last message = merges (startMessage before) message) :
    (formatFrom last messages).flatMap Message.calls = last.calls ++ messages.flatMap ChatMessage.calls ↔
      KeepsCalls (before :: messages) := by
  induction messages generalizing last before with
  | nil => simp [formatFrom, KeepsCalls]
  | cons message messages ih =>
    rw [formatFrom, List.flatMap_cons, KeepsCalls]
    have hinto : merges last (formatMessage message) = message.mergesInto before := hmerges _
    by_cases h : merges last (formatMessage message) = true
    · have hmerged : (mergedMessage last message).calls = message.calls := rfl
      rw [if_pos h, ← ih hmerged (merges_mergedMessage h), ← hinto, hcalls]
      constructor
      · intro heq
        have hle := (calls_formatFrom_sublist (mergedMessage last message) messages).length_le
        have hlen := congrArg List.length heq
        rw [hmerged] at hle ⊢
        simp only [List.length_append] at hle hlen
        have hnil : before.calls = [] := List.length_eq_zero_iff.mp (by omega)
        rw [hnil, List.nil_append] at heq
        exact ⟨fun _ => hnil, heq⟩
      · rintro ⟨hnil, heq⟩
        rw [hnil h, heq, hmerged]
        rfl
    · have hstart : (startMessage message).calls = message.calls := rfl
      rw [if_neg h, List.flatMap_cons, ← ih hstart fun _ => rfl, ← hinto, List.append_cancel_left_eq, hstart]
      exact ⟨fun heq => ⟨fun hcontra => absurd hcontra h, heq⟩, fun heq => heq.2⟩

end FirstPass

/-! ## The second pass -/

section SecondPass

variable {state : Converting} {message : Message} {messages : List Message}

def allBlocks (claudeMessages : List ClaudeMessage) : List Block := claudeMessages.flatMap (·.content.toBlocks)

/-- The blocks of a message that is no system message. -/
def messageBlocks (lib : ConvertLibrary) (message : Message) : List Block :=
  if message.role = .tool then [.toolResult message.toolCallId message.content]
  else (claudeContent lib message).toBlocks

/-- The blocks of the messages in their order. -/
def bodyBlocks (lib : ConvertLibrary) (messages : List Message) : List Block :=
  (messages.filter (·.role ≠ .system)).flatMap (messageBlocks lib)

/-- Nothing, or a placeholder. -/
def IsFiller (blocks : List Block) : Prop := blocks = [] ∨ blocks = [.text "..."]

theorem allBlocks_append (ms ms' : List ClaudeMessage) : allBlocks (ms ++ ms') = allBlocks ms ++ allBlocks ms' :=
  List.flatMap_append

theorem allBlocks_addToolResult (claudeMessages : List ClaudeMessage) (result : Block) :
    allBlocks (addToolResult claudeMessages result) = allBlocks claudeMessages ++ [result] := by
  unfold addToolResult
  split
  · next last hlast =>
    split
    · have hsplit := List.dropLast_append_getLast? last hlast
      conv_rhs => rw [← hsplit]
      rw [allBlocks_append, allBlocks_append, List.append_assoc]
      simp [allBlocks, ClaudeContent.toBlocks]
    · rw [allBlocks_append]
      rfl
  · next hnone =>
    rw [List.getLast?_eq_none_iff.mp hnone]
    rfl

/-- A message that is no system message adds its blocks, perhaps behind a first placeholder. -/
theorem blocks_convertStep (hrole : message.role ≠ .system) :
    ∃ filler, IsFiller filler ∧ (state.isFirstMessage = false → filler = []) ∧
      allBlocks (convertStep lib state message).claudeMessages =
        allBlocks state.claudeMessages ++ (filler ++ messageBlocks lib message) := by
  have hadd : ∀ claudeMessages : List ClaudeMessage,
      allBlocks (if message.role = .tool then
          addToolResult claudeMessages (.toolResult message.toolCallId message.content)
        else claudeMessages ++ [⟨message.role, claudeContent lib message⟩]) =
        allBlocks claudeMessages ++ messageBlocks lib message := by
    intro claudeMessages
    unfold messageBlocks
    split
    · exact allBlocks_addToolResult ..
    · rw [allBlocks_append]
      exact congrArg _ (List.append_nil _)
  unfold convertStep
  rw [if_neg hrole]
  dsimp only
  by_cases hfirst : state.isFirstMessage = true ∧ message.role ≠ .user
  · refine ⟨[.text "..."], .inr rfl, fun hfalse => absurd (hfirst.1.symm.trans hfalse) (by decide), ?_⟩
    rw [if_pos hfirst, hadd, allBlocks_append, List.append_assoc]
    rfl
  · refine ⟨[], .inl rfl, fun _ => rfl, ?_⟩
    rw [if_neg hfirst, hadd]
    rfl

theorem convertStep_system (hrole : message.role = .system) : convertStep lib state message =
      { state with systemMessages := state.systemMessages ++ systemTexts message.content } :=
  if_pos hrole

theorem isFirstMessage_convertStep (hrole : message.role ≠ .system) :
    (convertStep lib state message).isFirstMessage = false := by
  unfold convertStep
  rw [if_neg hrole]

theorem blocks_foldl_convertStep (state : Converting) (messages : List Message) :
    ∃ filler, IsFiller filler ∧ (state.isFirstMessage = false → filler = []) ∧
      allBlocks (messages.foldl (convertStep lib) state).claudeMessages =
        allBlocks state.claudeMessages ++ (filler ++ bodyBlocks lib messages) := by
  induction messages generalizing state with
  | nil => exact ⟨[], .inl rfl, fun _ => rfl, (List.append_nil _).symm⟩
  | cons message messages ih =>
    rw [List.foldl_cons]
    obtain ⟨filler, hfiller, hnone, hblocks⟩ := ih (convertStep lib state message)
    by_cases hrole : message.role = .system
    · rw [convertStep_system hrole] at hnone hblocks ⊢
      refine ⟨filler, hfiller, hnone, hblocks.trans ?_⟩
      rw [bodyBlocks, bodyBlocks, List.filter_cons_of_neg (by simp [hrole])]
    · obtain ⟨first, hfirst, hnofirst, hstep⟩ := @blocks_convertStep lib state message hrole
      refine ⟨first, hfirst, hnofirst, ?_⟩
      rw [hblocks, hstep, hnone (isFirstMessage_convertStep hrole), List.nil_append, bodyBlocks, bodyBlocks,
        List.filter_cons_of_pos (by simp [hrole]), List.flatMap_cons, List.append_assoc, List.append_assoc]

theorem systemMessages_foldl_convertStep (state : Converting) (messages : List Message) :
    (messages.foldl (convertStep lib) state).systemMessages = state.systemMessages ++
        (messages.filter (·.role = .system)).flatMap fun message => systemTexts message.content := by
  induction messages generalizing state with
  | nil => exact (List.append_nil _).symm
  | cons message messages ih =>
    rw [List.foldl_cons, ih]
    by_cases hrole : message.role = .system
    · rw [convertStep_system hrole, List.filter_cons_of_pos (by simp [hrole]), List.flatMap_cons, List.append_assoc]
    · rw [List.filter_cons_of_neg (by simp [hrole])]
      unfold convertStep
      rw [if_neg hrole]

/-- The first message is of the user, and so is every one with the result of a tool. -/
structure Shaped (claudeMessages : List ClaudeMessage) : Prop where
  head : ∀ message ∈ claudeMessages.head?, message.role = .user
  results : ∀ message ∈ claudeMessages, ∀ id content, Block.toolResult id content ∈ message.content.toBlocks →
    message.role = .user

theorem shaped_nil : Shaped [] := ⟨fun _ h => absurd h (by simp), fun _ h => absurd h List.not_mem_nil⟩

variable {claudeMessages : List ClaudeMessage}

theorem Shaped.add (h : Shaped claudeMessages) {message : ClaudeMessage}
    (hhead : claudeMessages = [] → message.role = .user)
    (hresults : ∀ id content, Block.toolResult id content ∈ message.content.toBlocks → message.role = .user) :
    Shaped (claudeMessages ++ [message]) where
  head first hfirst := by
    cases claudeMessages with
    | nil =>
      obtain rfl : message = first := Option.some.inj hfirst
      exact hhead rfl
    | cons old rest => exact h.head first hfirst
  results m hm := by
    rcases List.mem_append.mp hm with hm | hm
    · exact h.results m hm
    · rw [List.mem_singleton.mp hm]
      exact hresults

theorem Shaped.dropLast (h : Shaped claudeMessages) : Shaped claudeMessages.dropLast where
  head first hfirst := by
    match claudeMessages with
    | [] => cases hfirst
    | [_] => cases hfirst
    | m :: m' :: rest => exact h.head first hfirst
  results m hm := h.results m ((List.dropLast_sublist _).mem hm)

theorem Shaped.addToolResult (h : Shaped claudeMessages) (result : Block) :
    Shaped (addToolResult claudeMessages result) := by
  unfold Requests.addToolResult
  split
  · next last hlast =>
    split
    · next hrole => exact h.dropLast.add (fun _ => hrole) fun _ _ _ => hrole
    · exact h.add (fun _ => rfl) fun _ _ _ => rfl
  · exact shaped_nil.add (fun _ => rfl) fun _ _ _ => rfl

theorem toolResult_not_mem_claudeContent (id : String) (content : Content) :
    Block.toolResult id content ∉ (claudeContent lib message).toBlocks := by
  unfold claudeContent
  split
  · simp [ClaudeContent.toBlocks]
  · simp [ClaudeContent.toBlocks, useBlocks]

structure Converting.Sound (state : Converting) : Prop where
  shaped : Shaped state.claudeMessages
  start : state.isFirstMessage = true → state.claudeMessages = []
  later : state.isFirstMessage = false → state.claudeMessages ≠ []

theorem addToolResult_ne_nil (claudeMessages : List ClaudeMessage) (result : Block) :
    addToolResult claudeMessages result ≠ [] := by
  unfold addToolResult
  split
  · split <;> simp
  · simp

theorem Converting.Sound.step (h : state.Sound) (message : Message) : (convertStep lib state message).Sound := by
  by_cases hrole : message.role = .system
  · rw [convertStep_system hrole]
    exact ⟨h.shaped, h.start, h.later⟩
  · refine ⟨?_, fun hfirst => ?_, fun _ => ?_⟩
    · unfold convertStep
      rw [if_neg hrole]
      dsimp only
      have hbefore : ∀ claudeMessages : List ClaudeMessage, Shaped claudeMessages →
          (claudeMessages = [] → message.role = .user) →
          Shaped (if message.role = .tool then
              Requests.addToolResult claudeMessages (.toolResult message.toolCallId message.content)
            else claudeMessages ++ [⟨message.role, claudeContent lib message⟩]) := by
        intro claudeMessages hshaped hhead
        split
        · exact hshaped.addToolResult _
        · exact hshaped.add hhead fun id content hmem => absurd hmem (toolResult_not_mem_claudeContent id content)
      by_cases hfirst : state.isFirstMessage = true ∧ message.role ≠ .user
      · rw [if_pos hfirst]
        refine hbefore _ (h.shaped.add (fun _ => rfl) fun _ _ _ => rfl) fun hnil => absurd hnil (by simp)
      · rw [if_neg hfirst]
        refine hbefore _ h.shaped fun hnil => ?_
        by_contra hnot
        refine hfirst ⟨?_, hnot⟩
        by_contra hlater
        exact h.later (Bool.eq_false_iff.mpr hlater) hnil
    · rw [isFirstMessage_convertStep hrole] at hfirst
      cases hfirst
    · unfold convertStep
      rw [if_neg hrole]
      dsimp only
      split
      · exact addToolResult_ne_nil _ _
      · simp

theorem sound_foldl_convertStep (messages : List Message) : (messages.foldl (convertStep lib) {}).Sound := by
  have hstart : ({} : Converting).Sound := ⟨shaped_nil, fun _ => rfl, fun h => absurd h (by decide)⟩
  suffices ∀ state : Converting, state.Sound → (messages.foldl (convertStep lib) state).Sound from this {} hstart
  induction messages with
  | nil => exact fun state h => h
  | cons message messages ih => exact fun state h => ih _ (h.step message)

/-- What the second pass makes of the messages. -/
structure Converted (lib : ConvertLibrary) (messages : List Message) (state : Converting) : Prop where
  blocks : ∃ filler, IsFiller filler ∧ allBlocks state.claudeMessages = filler ++ bodyBlocks lib messages
  system : state.systemMessages =
    (messages.filter (·.role = .system)).flatMap fun message => systemTexts message.content
  shaped : Shaped state.claudeMessages

theorem converted_convertMessages (messages : List Message) :
    Converted lib messages (convertMessages lib messages) := by
  have hsound := @sound_foldl_convertStep lib messages
  have hsystem := @systemMessages_foldl_convertStep lib {} messages
  obtain ⟨filler, hfiller, -, hblocks⟩ := @blocks_foldl_convertStep lib {} messages
  rw [List.nil_append] at hsystem
  unfold convertMessages
  dsimp only
  split
  · next hempty =>
    rw [List.isEmpty_iff.mp hempty.1] at hblocks
    have hbody : bodyBlocks lib messages = [] :=
      (List.append_eq_nil_iff.mp (List.append_eq_nil_iff.mp hblocks.symm).2).2
    refine ⟨⟨[.text "..."], .inr rfl, ?_⟩, hsystem, shaped_nil.add (fun _ => rfl) fun _ _ _ => rfl⟩
    rw [hbody]
    rfl
  · exact ⟨⟨filler, hfiller, hblocks⟩, hsystem, hsound.shaped⟩

end SecondPass

/-! ## What arrives -/

section Arrival

variable {last : Message} {message : Message} {messages : List ChatMessage}

def Block.uses : Block → List (String × String)
  | .toolUse id name _ => [(id, name)]
  | _ => []

def Block.results : Block → List String
  | .toolResult id _ => [id]
  | _ => []

def Block.texts : Block → List String
  | .text s => [s]
  | .toolResult _ content => content.parseContent
  | .toolUse .. => []

/-- The tool message that answers a call. -/
def Message.resultIds (message : Message) : List String := if message.role = .tool then [message.toolCallId] else []

def ChatMessage.resultIds (message : ChatMessage) : List String := (formatMessage message).resultIds

/-- The texts of a message, if it belongs to the system messages, or if it does not. -/
def ChatMessage.texts (system : Bool) (message : ChatMessage) : List String :=
  if decide ((formatMessage message).role = .system) = system then message.content.parseContent else []

theorem forall_formatFrom {P : Message → Prop} (hlast : P last) (hstart : ∀ message, P (startMessage message))
    (hmerged : ∀ last message, P (mergedMessage last message)) : ∀ message ∈ formatFrom last messages, P message := by
  induction messages generalizing last with
  | nil =>
    intro message hmem
    rw [List.mem_singleton.mp hmem]
    exact hlast
  | cons message messages ih =>
    rw [formatFrom]
    split
    · exact ih (hmerged last message)
    · intro m hmem
      rcases List.mem_cons.mp hmem with rfl | hmem
      · exact hlast
      · exact ih (hstart message) m hmem

theorem calls_formatMessage (message : ChatMessage) (h : (formatMessage message).role ≠ .assistant) :
    (formatMessage message).calls = [] := by
  have hcalls : (formatMessage message).toolCalls = none := if_neg h
  rw [Message.calls, hcalls]
  rfl

theorem calls_of_mem_formatMessages (hmem : message ∈ formatMessages messages) (h : message.role ≠ .assistant) :
    message.calls = [] := by
  cases messages with
  | nil => exact absurd hmem List.not_mem_nil
  | cons first messages =>
    rw [formatMessages_cons] at hmem
    have hall : ∀ m ∈ formatFrom (startMessage first) messages, m.role ≠ .assistant → m.calls = [] :=
      forall_formatFrom (fun h => calls_formatMessage first h) (fun m h => calls_formatMessage m h)
        fun _ m h => calls_formatMessage m h
    exact hall message hmem h

theorem uses_messageBlocks (h : message.role ≠ .assistant → message.calls = []) :
    (messageBlocks lib message).flatMap Block.uses = message.calls := by
  unfold messageBlocks
  split
  · next htool => exact (h (by rw [htool]; decide)).symm
  · unfold claudeContent
    split
    · next hplain =>
      rw [Message.calls, Option.isNone_iff_eq_none.mp hplain.2]
      rfl
    · simp only [ClaudeContent.toBlocks, useBlocks, Message.calls, List.flatMap_append, List.flatMap_map]
      have htexts : (systemTexts message.content).flatMap (fun s => (Block.text s).uses) = [] :=
        List.flatMap_eq_nil_iff.mpr fun _ _ => rfl
      rw [htexts, List.nil_append]
      exact List.flatMap_pure_eq_map ..

theorem results_messageBlocks : (messageBlocks lib message).flatMap Block.results = message.resultIds := by
  unfold messageBlocks Message.resultIds
  split
  · rfl
  · unfold claudeContent
    split
    · rfl
    · simp only [ClaudeContent.toBlocks, useBlocks, List.flatMap_append, List.flatMap_map]
      refine List.append_eq_nil_iff.mpr ⟨?_, ?_⟩
      · exact List.flatMap_eq_nil_iff.mpr fun _ _ => rfl
      · exact List.flatMap_eq_nil_iff.mpr fun _ _ => rfl

theorem resultIds_of_merges {message : Message} (h : merges last message = true) : last.resultIds = [] := by
  unfold merges at h
  simp only [Bool.and_eq_true, decide_eq_true_eq] at h
  exact if_neg h.1.1.2

theorem resultIds_formatFrom (last : Message) (messages : List ChatMessage) :
    (formatFrom last messages).flatMap Message.resultIds =
      last.resultIds ++ messages.flatMap ChatMessage.resultIds := by
  induction messages generalizing last with
  | nil => simp [formatFrom]
  | cons message messages ih =>
    rw [formatFrom]
    split
    · next hmerges =>
      rw [ih, resultIds_of_merges hmerges]
      rfl
    · rw [List.flatMap_cons, ih]
      rfl

/-- The texts of a message after the first pass, in the system blocks or in the messages. -/
def Message.out (lib : ConvertLibrary) (system : Bool) (message : Message) : List String :=
  if decide (message.role = .system) = system then
    if message.role = .system then systemTexts message.content else (messageBlocks lib message).flatMap Block.texts
  else []

theorem texts_map_text (texts : List String) : (texts.map Block.text).flatMap Block.texts = texts := by
  rw [List.flatMap_map]
  exact List.flatMap_singleton' texts

variable {source : List String}

theorem rendered_messageBlocks (h : Rendered message.content.parseContent source) :
    Rendered ((messageBlocks lib message).flatMap Block.texts) source := by
  unfold messageBlocks
  split
  · simpa [Block.texts] using h
  · unfold claudeContent
    split
    · next hplain =>
      cases hcontent : message.content with
      | text s =>
        rw [hcontent] at h
        change Rendered [if s = "" then "..." else s] source
        split
        · next hs =>
          subst hs
          exact h.fill
        · exact h
      | absent => rw [hcontent] at hplain; exact absurd hplain.1 Bool.false_ne_true
      | parts texts => rw [hcontent] at hplain; exact absurd hplain.1 Bool.false_ne_true
    · have huses : (useBlocks lib message.toolCalls).flatMap Block.texts = [] := by
        unfold useBlocks
        rw [List.flatMap_map]
        exact List.flatMap_eq_nil_iff.mpr fun _ _ => rfl
      rw [ClaudeContent.toBlocks, List.flatMap_append, texts_map_text, huses, List.append_nil]
      exact h.filter

theorem rendered_out {system : Bool} (h : Rendered message.content.parseContent source) :
    Rendered (message.out lib system) (if decide (message.role = .system) = system then source else []) := by
  unfold Message.out
  split
  · split
    · exact h.filter
    · exact rendered_messageBlocks h
  · exact .nil

theorem rendered_mergedMessage {message : ChatMessage} (hmerges : merges last (formatMessage message) = true)
    (h : Rendered last.content.parseContent source) :
    Rendered (mergedMessage last message).content.parseContent (source ++ message.content.parseContent) := by
  unfold merges at hmerges
  simp only [Bool.and_eq_true] at hmerges
  obtain ⟨⟨-, hlast⟩, hmessage⟩ := hmerges
  have hcontent : (formatMessage message).content = message.content := rfl
  rw [hcontent] at hmessage
  change Rendered (Content.orPlaceholder
    (.text (last.content.stringContent ++ " " ++ message.content.stringContent))).parseContent _
  refine rendered_orPlaceholder ?_
  cases hl : last.content with
  | text a =>
    cases hm : message.content with
    | text b =>
      rw [hl] at h
      exact h.join (Rendered.single b)
    | absent => rw [hm] at hmessage; cases hmessage
    | parts texts => rw [hm] at hmessage; cases hmessage
  | absent => rw [hl] at hlast; cases hlast
  | parts texts => rw [hl] at hlast; cases hlast

theorem rendered_formatFrom (system : Bool) (h : Rendered last.content.parseContent source) :
    Rendered ((formatFrom last messages).flatMap (Message.out lib system))
      ((if decide (last.role = .system) = system then source else []) ++
        messages.flatMap (ChatMessage.texts system)) := by
  induction messages generalizing last source with
  | nil =>
    rw [formatFrom, List.flatMap_singleton, List.flatMap_nil, List.append_nil]
    exact rendered_out h
  | cons message messages ih =>
    rw [formatFrom, List.flatMap_cons]
    split
    · next hmerges =>
      have hmerged := ih (rendered_mergedMessage hmerges h)
      have hrole : last.role = (formatMessage message).role := by
        unfold merges at hmerges
        simp only [Bool.and_eq_true, decide_eq_true_eq] at hmerges
        exact hmerges.1.1.1
      have hsource : (if decide ((mergedMessage last message).role = .system) = system then
          source ++ message.content.parseContent else []) =
          (if decide (last.role = .system) = system then source else []) ++ message.texts system := by
        rw [hrole]
        unfold ChatMessage.texts
        change (if decide ((formatMessage message).role = .system) = system then _ else _) = _
        split <;> rfl
      rw [hsource, List.append_assoc] at hmerged
      exact hmerged
    · rw [List.flatMap_cons]
      have hstart : Rendered (startMessage message).content.parseContent message.content.parseContent :=
        rendered_orPlaceholder (Rendered.refl message.content.parseContent)
      exact (rendered_out h).append (ih hstart)

end Arrival

/-! ## The request -/

section Request

variable {request : ChatRequest}

/-- An array of stop sequences holds texts only. -/
def StopOk (stop : Option Json) : Prop := ∀ items, stop = some (.array items) → ∀ item ∈ items, item.string?.isSome

theorem mapM_stopItem (items : List Json) :
    (∃ stops, items.mapM stopItem = .ok stops) ↔ ∀ item ∈ items, item.string?.isSome := by
  induction items with
  | nil => exact ⟨fun _ _ h => absurd h List.not_mem_nil, fun _ => ⟨[], rfl⟩⟩
  | cons item items ih =>
    rw [List.mapM_cons, List.forall_mem_cons, ← ih, stopItem]
    cases item.string? with
    | none => exact iff_of_false (fun ⟨_, h⟩ => by cases h) fun h => Bool.false_ne_true h.1
    | some stop =>
      cases hrest : items.mapM stopItem with
      | error e => exact iff_of_false (fun ⟨_, h⟩ => by cases h) fun ⟨_, _, h⟩ => by cases h
      | ok stops => exact iff_of_true ⟨stop :: stops, rfl⟩ ⟨rfl, stops, rfl⟩

theorem stopSequences_ok (stop : Option Json) : (∃ stops, stopSequences stop = .ok stops) ↔ StopOk stop := by
  unfold StopOk stopSequences
  split
  · exact iff_of_true ⟨_, rfl⟩ fun _ h => by cases h
  · next items =>
    have hitems : (∃ stops, (items.mapM stopItem).map some = .ok stops) ↔
        ∃ stops, items.mapM stopItem = .ok stops := by
      cases items.mapM stopItem with
      | error e => exact iff_of_false (fun ⟨_, h⟩ => by cases h) fun ⟨_, h⟩ => by cases h
      | ok stops => exact iff_of_true ⟨_, rfl⟩ ⟨_, rfl⟩
    rw [hitems, mapM_stopItem]
    constructor
    · intro h items' he
      obtain rfl := Json.array.inj (Option.some.inj he)
      exact h
    · exact fun h => h items rfl
  · next hother => exact iff_of_true ⟨_, rfl⟩ fun items h => absurd h (hother items)

/-- The whole history is in the request for Claude. -/
structure Whole (messages : List ChatMessage) (result : ClaudeRequest) : Prop where
  toolUses : (allBlocks result.messages).flatMap Block.uses = messages.flatMap ChatMessage.calls
  toolResults : (allBlocks result.messages).flatMap Block.results = messages.flatMap ChatMessage.resultIds
  resultsOfUser : ∀ message ∈ result.messages, ∀ id content,
    Block.toolResult id content ∈ message.content.toBlocks → message.role = .user
  system : Rendered result.system (messages.flatMap (ChatMessage.texts true))
  texts : Rendered ((allBlocks result.messages).flatMap Block.texts) (messages.flatMap (ChatMessage.texts false))
  first : ∀ message ∈ result.messages.head?, message.role = .user

theorem keepsCalls_iff (messages : List ChatMessage) :
    (formatMessages messages).flatMap Message.calls = messages.flatMap ChatMessage.calls ↔ KeepsCalls messages := by
  cases messages with
  | nil => exact iff_of_true rfl trivial
  | cons message messages =>
    have hcalls : (startMessage message).calls = message.calls := rfl
    rw [formatMessages_cons, ← calls_formatFrom_iff hcalls fun _ => rfl]
    rfl

theorem flatMap_filler {β : Type} {filler : List Block} (h : IsFiller filler) {f : Block → List β}
    (hf : f (.text "...") = []) : filler.flatMap f = [] := by
  rcases h with rfl | rfl
  · rfl
  · rw [List.flatMap_singleton, hf]

theorem flatMap_bodyBlocks {β : Type} {f : Block → List β} {g : Message → List β} {messages : List Message}
    (hsystem : ∀ message ∈ messages, message.role = .system → g message = [])
    (hother : ∀ message ∈ messages, message.role ≠ .system → (messageBlocks lib message).flatMap f = g message) :
    (bodyBlocks lib messages).flatMap f = messages.flatMap g := by
  unfold bodyBlocks
  induction messages with
  | nil => rfl
  | cons message messages ih =>
    have hrest := ih (fun m hm => hsystem m (List.mem_cons_of_mem _ hm)) fun m hm =>
      hother m (List.mem_cons_of_mem _ hm)
    by_cases hrole : message.role = .system
    · rw [List.filter_cons_of_neg (by simp [hrole]), hrest, List.flatMap_cons,
        hsystem message List.mem_cons_self hrole, List.nil_append]
    · rw [List.filter_cons_of_pos (by simp [hrole]), List.flatMap_cons, List.flatMap_append, hrest,
        hother message List.mem_cons_self hrole, List.flatMap_cons]

theorem resultIds_formatMessages (messages : List ChatMessage) :
    (formatMessages messages).flatMap Message.resultIds = messages.flatMap ChatMessage.resultIds := by
  cases messages with
  | nil => rfl
  | cons message messages =>
    rw [formatMessages_cons, resultIds_formatFrom]
    rfl

theorem rendered_formatMessages (lib : ConvertLibrary) (system : Bool) (messages : List ChatMessage) :
    Rendered ((formatMessages messages).flatMap (Message.out lib system))
      (messages.flatMap (ChatMessage.texts system)) := by
  cases messages with
  | nil => exact .nil
  | cons message messages =>
    have hstart : Rendered (startMessage message).content.parseContent message.content.parseContent :=
      rendered_orPlaceholder (Rendered.refl message.content.parseContent)
    rw [formatMessages_cons]
    exact rendered_formatFrom system hstart

section Converted

variable {messages : List ChatMessage} {state : Converting} (h : Converted lib (formatMessages messages) state)

include h

theorem Converted.uses :
    (allBlocks state.claudeMessages).flatMap Block.uses = (formatMessages messages).flatMap Message.calls := by
  obtain ⟨filler, hfiller, hblocks⟩ := h.blocks
  rw [hblocks, List.flatMap_append, flatMap_filler hfiller rfl, List.nil_append]
  refine flatMap_bodyBlocks (fun m hm hrole => ?_) fun m hm _ => ?_
  · exact calls_of_mem_formatMessages hm (by rw [hrole]; decide)
  · exact uses_messageBlocks (calls_of_mem_formatMessages hm)

theorem Converted.results :
    (allBlocks state.claudeMessages).flatMap Block.results = messages.flatMap ChatMessage.resultIds := by
  obtain ⟨filler, hfiller, hblocks⟩ := h.blocks
  rw [hblocks, List.flatMap_append, flatMap_filler hfiller rfl, List.nil_append, ← resultIds_formatMessages]
  refine flatMap_bodyBlocks (fun m _ hrole => ?_) fun _ _ _ => results_messageBlocks
  exact if_neg (by rw [hrole]; decide)

theorem Converted.systemTexts : Rendered state.systemMessages (messages.flatMap (ChatMessage.texts true)) := by
  have hout : state.systemMessages = (formatMessages messages).flatMap (Message.out lib true) := by
    rw [h.system]
    induction formatMessages messages with
    | nil => rfl
    | cons m ms ih =>
      by_cases hrole : m.role = .system
      · rw [List.filter_cons_of_pos (by simp [hrole]), List.flatMap_cons, List.flatMap_cons, ih]
        simp [Message.out, hrole]
      · rw [List.filter_cons_of_neg (by simp [hrole]), List.flatMap_cons, ih]
        simp [Message.out, hrole]
  rw [hout]
  exact rendered_formatMessages lib true messages

theorem Converted.texts :
    Rendered ((allBlocks state.claudeMessages).flatMap Block.texts) (messages.flatMap (ChatMessage.texts false)) := by
  obtain ⟨filler, hfiller, hblocks⟩ := h.blocks
  have hbody : (bodyBlocks lib (formatMessages messages)).flatMap Block.texts =
      (formatMessages messages).flatMap (Message.out lib false) := by
    refine flatMap_bodyBlocks (fun m _ hrole => ?_) fun m _ hrole => ?_
    · simp [Message.out, hrole]
    · simp [Message.out, hrole]
  rw [hblocks, List.flatMap_append, hbody]
  have hrest := rendered_formatMessages lib false messages
  rcases hfiller with rfl | rfl
  · exact hrest
  · exact Rendered.placeholder.append hrest

end Converted

/-- A limit of the request, and no options of the reasoning. -/
def plainLibrary : ConvertLibrary where
  applyReasoning := some
  defaultMaxTokens := none
  decodeArguments _ := []

/-- A call, its result, and an answer. -/
def toolChat : ChatRequest where
  messages := [{ role := "user", content := .text "weather?" },
    { role := "assistant", toolCalls := some [⟨"call_1", "weather", "{}"⟩] },
    { role := "tool", content := .text "sunny", toolCallId := "call_1" },
    { role := "assistant", content := .text "It is sunny." }]
  stop := some (.array [.string "END"])
  maxTokens := some 100

/-- An assistant calls a tool and then writes a text. -/
def callThenText : ChatRequest where
  messages := [{ role := "user", content := .text "weather?" },
    { role := "assistant", toolCalls := some [⟨"call_1", "weather", "{}"⟩] },
    { role := "assistant", content := .text "One moment." },
    { role := "tool", content := .text "sunny", toolCallId := "call_1" }]
  maxTokens := some 100

end Request

end Vancine.Requests
