import Vancine.Streams.ClaudeOutline

/-!
# Steps of the Claude converter

The state of the converter and the blocks that it has sent are those of the outline of what it was told. Each step
keeps that, for the outline with what the step adds.
-/

namespace Vancine.Streams.ChatToClaude

open Lib Lib.Blocks

variable {U V : Type} (host : Host U V)

/-! ## Events as marks -/

def ContentBlock.kind : ContentBlock → Kind
  | .text => .prose .text
  | .thinking => .prose .thinking
  | .toolUse _ name => .tool name

def mark : Event V → Mark Kind
  | .messageStart .. => .start
  | .contentBlockStart index block => .opens index block.kind
  | .contentBlockDelta index (.text t) => .part index t
  | .contentBlockDelta index (.thinking t) => .part index t
  | .contentBlockDelta index (.inputJson t) => .part index t
  | .contentBlockDelta index (.citations _) => .note index
  | .contentBlockStop index => .closes index
  | .messageDelta .. | .messageStop => .stop

/-! ## The state of an outline -/

/-- A call as the converter keeps it: started when it has an id and a name. -/
def toolOf (base i : ℕ) (call : Call) : ClaudeStreamToolCall where
  blockIndex := base + i
  id := call.id
  name := call.name
  pendingArguments := if call.id ≠ "" ∧ call.name ≠ "" then "" else call.arguments
  started := decide (call.id ≠ "" ∧ call.name ≠ "")

def Voice.type : Voice → LastMessagesType
  | .text => .text
  | .thinking => .thinking

def Represents (o : Outline) (s : ClaudeConvertInfo U) : Prop :=
  match o.current with
  | .nothing => s.lastMessagesType = .none ∧ s.index = o.past.length
  | .prose voice _ => s.lastMessagesType = voice.type ∧ s.index = o.past.length
  | .calls calls => s.lastMessagesType = .tools ∧ s.toolCallBaseIndex = o.past.length ∧
      s.toolCalls = calls.list.mapIdx (toolOf o.past.length) ∧ s.toolCallByIndex = calls.byIndex ∧
      s.toolCallByID = calls.byID

/-- Calls that stream are not none. -/
def Outline.Settled (o : Outline) : Prop := ∀ calls, o.current = .calls calls → calls.list ≠ []

/-- What only the end of a message changes. -/
def kept (s : ClaudeConvertInfo U) : Bool × Option U × ℕ := (s.done, s.usage, s.sendResponseCount)

/-- A step that adds what `o'` has more than `o`, and ends nothing. -/
structure Tells (o o' : Outline) (s : ClaudeConvertInfo U) (r : ClaudeConvertInfo U × List (Event V)) : Prop where
  represents : Represents o' r.1
  flow : Leads (viewOf o.entries) (r.2.map mark) (viewOf o'.entries)
  kept : kept r.1 = kept s

variable {o : Outline} {s : ClaudeConvertInfo U} {calls : Calls} {toolCalls : List ToolCallResponse}

theorem Tells.refl (h : Represents o s) : Tells (V := V) o o s (s, []) := ⟨h, .refl _, rfl⟩

theorem Tells.trans {o o' o'' : Outline} {s s₁ : ClaudeConvertInfo U} {r : ClaudeConvertInfo U × List (Event V)}
    (h : Tells (V := V) o o' s (s₁, [])) (h' : Tells o' o'' s₁ r) : Tells o o'' s r where
  represents := h'.represents
  flow := h.flow.append h'.flow
  kept := h'.kept.trans h.kept

theorem Tells.andThen {o o' o'' : Outline} {m m' : Sends U V} (h : Tells o o' s (m s))
    (h' : Tells o' o'' (m s).1 (m' (m s).1)) : Tells o o'' s (m.andThen m' s) where
  represents := h'.represents
  flow := by
    rw [Sender.andThen_snd, List.map_append]
    exact h.flow.append h'.flow
  kept := h'.kept.trans h.kept

/-! ## Closing -/

theorem startToolEvents_leads {view : ℕ → Option (Block Kind)} (tool : ClaudeStreamToolCall)
    (hnew : view tool.blockIndex = none) : Leads view ((startToolEvents (V := V) tool).map mark)
      (Function.update view tool.blockIndex (some ⟨tool.blockIndex, .tool tool.name, tool.pendingArguments, false⟩)) := by
  have hopens := leads_opens hnew (Kind.tool tool.name)
  unfold startToolEvents
  by_cases hempty : tool.pendingArguments = ""
  · rw [if_pos hempty, hempty]
    exact hopens
  · rw [if_neg hempty]
    let opened : Block Kind := ⟨tool.blockIndex, .tool tool.name, "", false⟩
    have hopened : Function.update view tool.blockIndex (some opened) tool.blockIndex = some opened :=
      Function.update_self ..
    have hpart := leads_part hopened rfl tool.pendingArguments
    have happend : opened.append tool.pendingArguments =
        ⟨tool.blockIndex, .tool tool.name, tool.pendingArguments, false⟩ := by
      simp [opened, Block.append]
    rw [Function.update_idem, happend] at hpart
    exact hopens.append hpart

/-- What happens to one call when those that wait for an id get one. -/
theorem startPending_leads (before after : List Entry) (n : ℕ) (call : Call) :
    let r := startPending (V := V) host n (toolOf before.length 0 call)
    Leads (viewOf (before ++ (.streaming, .call call) :: after)) (r.2.2.map mark)
        (viewOf (before ++ (.flushed, .call call) :: after)) ∧
      r.2.1.blockIndex = before.length ∧ r.2.1.started = decide (call.name ≠ "") := by
  intro r
  rw [viewOf_change before after (.streaming, .call call) (.flushed, .call call)]
  have hview := viewOf_middle before after (.streaming, .call call)
  by_cases hwaits : call.name ≠ "" ∧ call.id = ""
  · obtain ⟨hname, hid⟩ := hwaits
    -- the block is opened under the new id
    let tool : ClaudeStreamToolCall := { toolOf before.length 0 call with id := "toolu_" ++ host.uuid n }
    have hr : r = (n + 1, tool.start, startToolEvents tool) := by
      simp [r, tool, startPending, toolOf, hname, hid]
    have hnone : viewOf (before ++ (.streaming, .call call) :: after) tool.blockIndex = none := by
      refine hview.trans ?_
      simp [Part.block, hid]
    rw [hr]
    refine ⟨?_, rfl, ?_⟩
    · have hleads := startToolEvents_leads (V := V) _ hnone
      simpa [tool, toolOf, Part.block, hname, hid] using hleads
    · simp [ClaudeStreamToolCall.start, hname]
  · have hr : r = (n, toolOf before.length 0 call, []) := by
      by_cases hname : call.name = ""
      · simp [r, startPending, toolOf, hname]
      · have hid : call.id ≠ "" := fun hid => hwaits ⟨hname, hid⟩
        simp [r, startPending, toolOf, hname, hid]
    have hsame : Part.block .flushed before.length (.call call) =
        viewOf (before ++ (.streaming, .call call) :: after) before.length := by
      rw [hview]
      by_cases hname : call.name = ""
      · simp [Part.block, hname]
      · have hid : call.id ≠ "" := fun hid => hwaits ⟨hname, hid⟩
        simp [Part.block, hname, hid]
    rw [hr]
    refine ⟨?_, rfl, ?_⟩
    · dsimp only
      rw [hsame, Function.update_eq_self]
      exact .refl _
    · by_cases hname : call.name = ""
      · simp [toolOf, hname]
      · have hid : call.id ≠ "" := fun hid => hwaits ⟨hname, hid⟩
        simp [toolOf, hname, hid]

theorem mapIdx_toolOf (before : List Entry) (e : Entry) (call : Call) (calls : List Call) :
    (call :: calls).mapIdx (toolOf before.length) =
      toolOf before.length 0 call :: calls.mapIdx (toolOf (before ++ [e]).length) := by
  rw [List.mapIdx_cons]
  congr 1
  apply List.mapIdx_eq_mapIdx_iff.mpr
  intro i hi
  simp [toolOf, Nat.add_assoc, Nat.add_comm 1 i]

theorem startPendingAll_leads (before : List Entry) (n : ℕ) (calls : List Call) :
    let r := startPendingAll (V := V) host n (calls.mapIdx (toolOf before.length))
    Leads (viewOf (before ++ calls.map fun c => (Stage.streaming, Part.call c))) (r.2.2.map mark)
        (viewOf (before ++ calls.map fun c => (Stage.flushed, Part.call c))) ∧
      r.2.1.map (fun tool => (tool.blockIndex, tool.started)) =
        calls.mapIdx fun i c => (before.length + i, decide (c.name ≠ "")) := by
  induction calls generalizing before n with
  | nil => exact ⟨.refl _, rfl⟩
  | cons call calls ih =>
    have hone := startPending_leads (V := V) host before (calls.map fun c => (Stage.streaming, Part.call c)) n call
    have hrest := ih (before ++ [(.flushed, .call call)]) (startPending (V := V) host n (toolOf before.length 0 call)).1
    rw [mapIdx_toolOf before (.flushed, .call call)]
    obtain ⟨hflow, hindex, hstarted⟩ := hone
    obtain ⟨hflow', htools⟩ := hrest
    rw [List.append_assoc, List.append_assoc] at hflow'
    refine ⟨?_, ?_⟩
    · simp only [startPendingAll, List.map_append]
      exact hflow.append hflow'
    · simp only [startPendingAll, List.map_cons, hindex, hstarted, htools]
      rw [List.mapIdx_cons]
      congr 1
      apply List.mapIdx_eq_mapIdx_iff.mpr
      intro i hi
      simp [Nat.add_assoc, Nat.add_comm 1 i]

theorem stopTools_leads (before : List Entry) (calls : List Call) {tools : List ClaudeStreamToolCall}
    (htools : tools.map (fun tool => (tool.blockIndex, tool.started)) =
      calls.mapIdx fun i c => (before.length + i, decide (c.name ≠ ""))) :
    Leads (viewOf (before ++ calls.map fun c => (Stage.flushed, Part.call c)))
      (((tools.filter (·.started)).map fun tool => (.contentBlockStop tool.blockIndex : Event V)).map mark)
      (viewOf (before ++ calls.map fun c => (Stage.done, Part.call c))) := by
  induction calls generalizing before tools with
  | nil =>
    obtain rfl : tools = [] := by simpa using htools
    exact .refl _
  | cons call calls ih =>
    rw [List.mapIdx_cons] at htools
    obtain ⟨tool, tools, rfl, htool, hrest⟩ := List.map_eq_cons_iff.mp htools
    obtain ⟨hindex, hstarted⟩ := Prod.mk.inj htool
    have hrest' : tools.map (fun tool => (tool.blockIndex, tool.started)) =
        calls.mapIdx fun i c => ((before ++ [(Stage.done, Part.call call)]).length + i, decide (c.name ≠ "")) := by
      rw [hrest]
      apply List.mapIdx_eq_mapIdx_iff.mpr
      intro i hi
      simp [Nat.add_assoc, Nat.add_comm 1 i]
    have hflow := ih (before ++ [(.done, .call call)]) hrest'
    rw [List.append_assoc, List.append_assoc] at hflow
    have hview := viewOf_middle before (calls.map fun c => (Stage.flushed, Part.call c)) (.flushed, .call call)
    have hchange := viewOf_change before (calls.map fun c => (Stage.flushed, Part.call c)) (.flushed, .call call)
      (.done, .call call)
    by_cases hname : call.name = ""
    · -- it has no block
      have hsame : Part.block .done before.length (.call call) =
          viewOf (before ++ (.flushed, .call call) :: calls.map fun c => (Stage.flushed, Part.call c)) before.length := by
        rw [hview]
        simp [Part.block, hname]
      rw [hsame, Function.update_eq_self] at hchange
      rw [List.map_cons, ← hchange, List.filter_cons_of_neg (by simp [hstarted, hname])]
      exact hflow
    · have hblock : viewOf (before ++ (.flushed, .call call) :: calls.map fun c => (Stage.flushed, Part.call c))
          before.length = some ⟨before.length, .tool call.name, call.arguments, false⟩ := by
        rw [hview]
        simp [Part.block, hname]
      have hcloses := leads_closes hblock rfl
      rw [List.filter_cons_of_pos (by simp [hstarted, hname]), List.map_cons, List.map_cons, hindex]
      have hover : Part.block .done before.length (.call call) =
          some (Block.close ⟨before.length, .tool call.name, call.arguments, false⟩) := by
        simp [Part.block, hname, Block.close]
      rw [hover] at hchange
      rw [← hchange] at hcloses
      exact hcloses.append hflow

/-! The blocks that are open, whatever they are. -/

theorem entries_close (o : Outline) : o.close.entries = o.past.map (Stage.done, ·) ++ o.current.parts.map (Stage.done, ·) := by
  simp [Outline.close, Outline.entries, Outline.parts, Current.parts]

theorem stopOne_leads (past : List Part) (part : Part) {label : Kind} {text : String}
    (hopen : part.block .streaming past.length = some ⟨past.length, label, text, false⟩)
    (hover : part.block .done past.length = some ⟨past.length, label, text, true⟩) :
    Leads (viewOf (past.map (Stage.done, ·) ++ [(.streaming, part)])) [.closes past.length]
      (viewOf (past.map (Stage.done, ·) ++ [(.done, part)])) := by
  have hlength : (past.map (Stage.done, ·)).length = past.length := List.length_map ..
  have hview := viewOf_middle (past.map (Stage.done, ·)) [] (.streaming, part)
  rw [hlength] at hview
  rw [viewOf_change _ [] (.streaming, part) (.done, part), hlength, hover]
  exact leads_closes (hview.trans hopen) rfl

theorem appendStopOpenBlocks_leads (h : Represents o s) (hsettled : o.Settled) :
    Leads (viewOf o.entries) ((appendStopOpenBlocks (V := V) host s).2.map mark) (viewOf o.close.entries) := by
  rw [entries_close]
  unfold Represents at h
  cases hcurrent : o.current with
  | nothing =>
    rw [hcurrent] at h
    simp [appendStopOpenBlocks, startPendingToolBlocks, stopOpenBlocks, Sender.andThen, h.1, Outline.entries, hcurrent,
      Current.parts]
    exact .refl _
  | prose voice t =>
    rw [hcurrent] at h
    have hstop := stopOne_leads o.past (.prose voice t) rfl rfl
    cases voice <;>
      simpa [appendStopOpenBlocks, startPendingToolBlocks, stopOpenBlocks, Sender.andThen, Voice.type, h.1, h.2,
        Outline.entries, hcurrent, Current.parts, mark] using hstop
  | calls calls =>
    rw [hcurrent] at h
    obtain ⟨htype, -, htools, -, -⟩ := h
    have hlength : (o.past.map (Stage.done, ·)).length = o.past.length := List.length_map ..
    have hpending := startPendingAll_leads (V := V) host (o.past.map (Stage.done, ·)) s.uuids calls.list
    rw [hlength, ← htools] at hpending
    obtain ⟨hflow, hstarted⟩ := hpending
    rw [← hlength] at hstarted
    have hstop := stopTools_leads (V := V) _ calls.list hstarted
    have hne : (startPendingAll (V := V) host s.uuids s.toolCalls).2.1 ≠ [] := by
      intro hnil
      rw [hnil] at hstarted
      exact hsettled calls hcurrent (List.mapIdx_eq_nil_iff.mp hstarted.symm)
    have hevents : (appendStopOpenBlocks (V := V) host s).2 = (startPendingAll host s.uuids s.toolCalls).2.2 ++
        ((startPendingAll (V := V) host s.uuids s.toolCalls).2.1.filter (·.started)).map
          fun tool => .contentBlockStop tool.blockIndex := by
      simp [appendStopOpenBlocks, startPendingToolBlocks, stopOpenBlocks, Sender.andThen, htype, hne]
    rw [hevents, List.map_append]
    have hentries : o.entries = o.past.map (Stage.done, ·) ++ calls.list.map fun c => (Stage.streaming, Part.call c) := by
      simp [Outline.entries, hcurrent, Current.parts, Function.comp_def]
    have hparts : (Current.calls calls).parts.map (Stage.done, ·) = calls.list.map fun c => (Stage.done, Part.call c) := by
      simp [Current.parts, Function.comp_def]
    rw [hentries, hparts]
    exact hflow.append hstop

theorem startPendingAll_length (n : ℕ) (tools : List ClaudeStreamToolCall) :
    (startPendingAll (V := V) host n tools).2.1.length = tools.length := by
  induction tools generalizing n with
  | nil => rfl
  | cons tool tools ih => simp [startPendingAll, ih]

/-- Closing leaves everything but the calls, which stay as many. -/
theorem appendStopOpenBlocks_frame (s : ClaudeConvertInfo U) :
    ∃ n tools, (appendStopOpenBlocks (V := V) host s).1 = { s with uuids := n, toolCalls := tools } ∧
      tools.length = s.toolCalls.length := by
  unfold appendStopOpenBlocks startPendingToolBlocks Sender.andThen
  dsimp only
  by_cases htype : s.lastMessagesType = .tools
  · rw [if_pos htype]
    exact ⟨_, _, rfl, startPendingAll_length host s.uuids s.toolCalls⟩
  · rw [if_neg htype]
    exact ⟨s.uuids, s.toolCalls, rfl, rfl⟩

theorem kept_advanceIndex (s : ClaudeConvertInfo U) : kept (advanceIndex s) = kept s := by
  unfold advanceIndex
  cases s.lastMessagesType <;> rfl

theorem stopOpenBlocksAndAdvance_snd (s : ClaudeConvertInfo U) :
    (stopOpenBlocksAndAdvance (V := V) host s).2 = (appendStopOpenBlocks (V := V) host s).2 := by
  unfold stopOpenBlocksAndAdvance
  by_cases htype : s.lastMessagesType = .none
  · rw [if_pos htype]
    simp [appendStopOpenBlocks, startPendingToolBlocks, stopOpenBlocks, Sender.andThen, htype]
  · rw [if_neg htype]

theorem stopOpenBlocksAndAdvance_tells (h : Represents o s) (hsettled : o.Settled) :
    Tells o o.close s (stopOpenBlocksAndAdvance (V := V) host s) := by
  have hflow := appendStopOpenBlocks_leads (V := V) host h hsettled
  rw [← stopOpenBlocksAndAdvance_snd] at hflow
  unfold Represents at h
  unfold stopOpenBlocksAndAdvance at hflow ⊢
  by_cases htype : s.lastMessagesType = .none
  · rw [if_pos htype] at hflow ⊢
    refine ⟨?_, hflow, rfl⟩
    cases hcurrent : o.current with
    | nothing =>
      rw [hcurrent] at h
      refine ⟨htype, ?_⟩
      simp [h.2, Outline.close, Outline.parts, hcurrent, Current.parts]
    | prose voice t =>
      rw [hcurrent, htype] at h
      cases voice <;> cases h.1
    | calls calls =>
      rw [hcurrent, htype] at h
      cases h.1
  · rw [if_neg htype] at hflow ⊢
    obtain ⟨n, tools, hframe, hlength⟩ := appendStopOpenBlocks_frame (V := V) host s
    refine ⟨?_, hflow, ?_⟩
    · show Represents o.close (advanceIndex (appendStopOpenBlocks (V := V) host s).1)
      rw [hframe]
      cases hcurrent : o.current with
      | nothing =>
        rw [hcurrent] at h
        exact absurd h.1 htype
      | calls calls =>
        rw [hcurrent] at h
        obtain ⟨htools, hbase, hcalls, -, -⟩ := h
        simp [Represents, advanceIndex, Outline.close, Outline.parts, hcurrent, Current.parts, htools, hbase, hlength,
          hcalls]
      | prose voice t =>
        rw [hcurrent] at h
        cases voice <;>
          simp [Represents, advanceIndex, Outline.close, Outline.parts, hcurrent, Current.parts, Voice.type, h.1, h.2]
    · show kept (advanceIndex (appendStopOpenBlocks (V := V) host s).1) = kept s
      rw [kept_advanceIndex, hframe]
      rfl

/-! ## Text and thinking -/

def Voice.block : Voice → ContentBlock
  | .text => .text
  | .thinking => .thinking

def Voice.delta : Voice → String → Delta
  | .text => .text
  | .thinking => .thinking

theorem voiced_current (voice : Voice) : (∃ t, o.current = .prose voice t ∧ o.voiced voice = (o, t)) ∨
      (∀ t, o.current ≠ .prose voice t) ∧ o.voiced voice = (o.close, "") := by
  unfold Outline.voiced
  cases hcurrent : o.current with
  | prose v t =>
    by_cases hv : v = voice
    · subst hv
      exact .inl ⟨t, rfl, if_pos rfl⟩
    · refine .inr ⟨?_, if_neg hv⟩
      rintro t' ⟨⟩
      exact hv rfl
  | _ => exact .inr ⟨nofun, rfl⟩

theorem Represents.type_eq (h : Represents o s) (voice : Voice) :
    s.lastMessagesType = voice.type ↔ ∃ t, o.current = .prose voice t := by
  unfold Represents at h
  cases hcurrent : o.current with
  | prose v t =>
    rw [hcurrent] at h
    rw [h.1]
    cases v <;> cases voice <;> simp [Voice.type]
  | nothing =>
    rw [hcurrent] at h
    rw [h.1]
    cases voice <;> simp [Voice.type]
  | calls calls =>
    rw [hcurrent] at h
    rw [h.1]
    cases voice <;> simp [Voice.type]

theorem openBlock_tells (h : Represents o s) (hsettled : o.Settled) (voice : Voice) :
    Tells o { (o.voiced voice).1 with current := .prose voice (o.voiced voice).2 } s
      (openBlock (V := V) host voice.type voice.block s) := by
  unfold openBlock
  rcases voiced_current (o := o) voice with ⟨t, hcurrent, hvoiced⟩ | ⟨hother, hvoiced⟩
  · rw [if_pos ((h.type_eq voice).mpr ⟨t, hcurrent⟩), hvoiced]
    have hsame : { o with current := .prose voice t } = o := by
      obtain ⟨past, current⟩ := o
      obtain rfl : current = .prose voice t := hcurrent
      rfl
    rw [hsame]
    exact .refl h
  · rw [if_neg (fun htype => (Exists.elim ((h.type_eq voice).mp htype) hother)), hvoiced]
    have hclose := stopOpenBlocksAndAdvance_tells (V := V) host h hsettled
    refine hclose.andThen ?_
    have hindex : (stopOpenBlocksAndAdvance (V := V) host s).1.index = o.close.past.length := hclose.represents.2
    refine ⟨⟨rfl, hindex⟩, ?_, rfl⟩
    have hkind : voice.block.kind = .prose voice := by cases voice <;> rfl
    have hpush := viewOf_push o.close.entries (.streaming, .prose voice "")
    have hlength : o.close.entries.length = o.close.past.length := by
      simp [Outline.entries, Outline.close, Current.parts]
    have hnew := viewOf_length o.close.entries
    rw [hlength] at hpush hnew
    have hopens := leads_opens hnew (Kind.prose voice)
    have hentries : Outline.entries { o.close with current := .prose voice "" } =
        o.close.entries ++ [(.streaming, .prose voice "")] := by
      simp [Outline.entries, Outline.close, Current.parts]
    rw [hentries, hpush, hindex]
    simpa [mark, hkind, Part.block] using hopens

theorem entries_prose (past : List Part) (voice : Voice) (t : String) :
    Outline.entries ⟨past, .prose voice t⟩ = past.map (Stage.done, ·) ++ [(.streaming, .prose voice t)] := rfl

theorem view_prose (past : List Part) (voice : Voice) (t : String) :
    viewOf (Outline.entries ⟨past, .prose voice t⟩) past.length = some ⟨past.length, .prose voice, t, false⟩ := by
  have hview := viewOf_middle (past.map (Stage.done, ·)) [] (.streaming, .prose voice t)
  rw [List.length_map] at hview
  exact hview

theorem proseDelta_tells {past : List Part} {voice : Voice} {t : String} (h : Represents ⟨past, .prose voice t⟩ s)
    (content : String) : Tells (V := V) ⟨past, .prose voice t⟩ ⟨past, .prose voice (t ++ content)⟩ s
      (s, [.contentBlockDelta s.index (voice.delta content)]) := by
  refine ⟨h, ?_, rfl⟩
  have hpart := leads_part (view_prose past voice t) rfl content
  have hchange := viewOf_change (past.map (Stage.done, ·)) [] (.streaming, .prose voice t)
    (.streaming, .prose voice (t ++ content))
  rw [List.length_map] at hchange
  have hmark : mark (V := V) (.contentBlockDelta s.index (voice.delta content)) = .part past.length content := by
    rw [h.2]
    cases voice <;> rfl
  rw [List.map_singleton, hmark, entries_prose past voice (t ++ content), hchange]
  exact hpart

theorem appendProse_tells (h : Represents o s) (hsettled : o.Settled) (voice : Voice) {content : String}
    (hcontent : content ≠ "") :
    Tells o (o.say voice content) s (((openBlock (V := V) host voice.type voice.block).andThen
      fun s => (s, [.contentBlockDelta s.index (voice.delta content)])) s) := by
  have hopen := openBlock_tells (V := V) host h hsettled voice
  have hsay : o.say voice content =
      { (o.voiced voice).1 with current := .prose voice ((o.voiced voice).2 ++ content) } := by
    unfold Outline.say
    rw [if_neg hcontent]
  rw [hsay]
  exact hopen.andThen (proseDelta_tells hopen.represents content)

theorem settled_say (hsettled : o.Settled) (voice : Voice) (content : String) : (o.say voice content).Settled := by
  unfold Outline.say
  split_ifs
  · exact hsettled
  · exact nofun

theorem appendCitationDeltas_tells (h : Represents o s) (hsettled : o.Settled) (raw : Raw) :
    Tells o (o.cite !(chatAnnotationsToClaude host raw).isEmpty) s (appendCitationDeltas (V := V) host raw s) := by
  unfold appendCitationDeltas Outline.cite
  generalize chatAnnotationsToClaude host raw = citations
  by_cases hnil : citations = []
  · subst hnil
    exact .refl h
  · have hopen := openBlock_tells (V := V) host h hsettled .text
    have hcites : (!citations.isEmpty) = true := by simpa using hnil
    dsimp only
    rw [if_neg hnil, if_pos hcites]
    refine hopen.andThen ⟨hopen.represents, ?_, rfl⟩
    -- the citations are events of the open text
    have hview := view_prose (o.voiced .text).1.past .text (o.voiced .text).2
    have hindex : (openBlock (V := V) host .text .text s).1.index = (o.voiced .text).1.past.length :=
      hopen.represents.2
    rw [List.map_map]
    clear hnil hcites
    induction citations with
    | nil => exact .refl _
    | cons citation citations ih =>
      rw [List.map_cons]
      have hnote := leads_note hview rfl
      rw [← hindex] at hnote
      exact hnote.append ih

theorem settled_cite (hsettled : o.Settled) (cites : Bool) : (o.cite cites).Settled := by
  unfold Outline.cite
  split_ifs
  · exact nofun
  · exact hsettled

/-! ## Calls -/

theorem toolCalls_ids (base : ℕ) (calls : List Call) : (calls.mapIdx (toolOf base)).map (·.id) = calls.map Call.id := by
  apply List.ext_getElem?
  intro i
  simp only [List.getElem?_map, List.getElem?_mapIdx, Option.map_map]
  rfl

theorem placeTool_place (hcurrent : o.current = .calls calls) (h : Represents o s) (toolIndex : ℤ)
    (incomingID : String) : (placeTool toolIndex incomingID s).1 = (calls.place toolIndex incomingID).1 ∧
      Tells (V := V) o { o with current := .calls (calls.place toolIndex incomingID).2 } s
        ((placeTool toolIndex incomingID s).2, []) := by
  unfold Represents at h
  rw [hcurrent] at h
  obtain ⟨htype, hbase, htools, hindex, hid⟩ := h
  unfold placeTool Calls.place
  rw [htools, toolCalls_ids, hindex, hid]
  cases hfind : findTool (calls.list.map Call.id) calls.byIndex calls.byID toolIndex incomingID with
  | some position =>
    refine ⟨rfl, ⟨htype, hbase, rfl, rfl, rfl⟩, ?_, rfl⟩
    have hsame : Outline.entries { o with current := .calls { calls with
        byIndex := calls.byIndex.insert toolIndex position } } = o.entries := by
      simp [Outline.entries, hcurrent, Current.parts]
    rw [hsame]
    exact .refl _
  | none =>
    refine ⟨by simp, ⟨htype, hbase, ?_, by simp, rfl⟩, ?_, rfl⟩
    · simp [hbase, toolOf]
    · -- a call without a name has no block
      have hpush : Outline.entries { o with current := .calls { calls with
          list := calls.list ++ [{}]
          byIndex := calls.byIndex.insert toolIndex calls.list.length } } =
            o.entries ++ [(.streaming, .call {})] := by
        simp [Outline.entries, hcurrent, Current.parts]
      have hnone : Part.block .streaming o.entries.length (.call {}) = viewOf o.entries o.entries.length := by
        rw [viewOf_length]
        rfl
      rw [hpush, viewOf_push, hnone, Function.update_eq_self]
      exact .refl _

theorem block_streaming (i : ℕ) (call : Call) : Part.block .streaming i (.call call) =
    if call.id ≠ "" ∧ call.name ≠ "" then some ⟨i, .tool call.name, call.arguments, false⟩ else none := by
  unfold Part.block
  by_cases hname : call.name = "" <;> by_cases hid : call.id = "" <;> simp [hname, hid]

variable {base i : ℕ} {call : Call}

theorem advance_started (hstarted : call.id ≠ "" ∧ call.name ≠ "") (toolCall : ToolCallResponse) :
    ((toolOf base i call).note toolCall).advance (V := V) toolCall.function.arguments =
      (toolOf base i (call.note toolCall), if toolCall.function.arguments = "" then []
        else [.contentBlockDelta (base + i) (.inputJson toolCall.function.arguments)]) := by
  by_cases hempty : toolCall.function.arguments = "" <;>
    simp [ClaudeStreamToolCall.advance, ClaudeStreamToolCall.note, Call.note, toolOf, hstarted, hempty]

/-- A fragment of a call that waits starts it, or leaves it waiting with more arguments. -/
theorem advance_waiting (hwaits : ¬(call.id ≠ "" ∧ call.name ≠ "")) (toolCall : ToolCallResponse) :
    ((toolOf base i call).note toolCall).advance (V := V) toolCall.function.arguments =
      (toolOf base i (call.note toolCall),
        if (call.note toolCall).id ≠ "" ∧ (call.note toolCall).name ≠ "" then
          startToolEvents ⟨base + i, (call.note toolCall).id, (call.note toolCall).name, (call.note toolCall).arguments,
            false⟩
        else []) := by
  have hnote : (toolOf base i call).note toolCall = ⟨base + i, (call.note toolCall).id, (call.note toolCall).name,
      (call.note toolCall).arguments, false⟩ := by
    simp [ClaudeStreamToolCall.note, toolOf, Call.note, hwaits]
  rw [hnote]
  by_cases hstarts : (call.note toolCall).id ≠ "" ∧ (call.note toolCall).name ≠ "" <;>
    simp [ClaudeStreamToolCall.advance, ClaudeStreamToolCall.start, toolOf, hstarts]

theorem advance_leads {entries : List Entry} {place : ℕ} (hentry : entries[place]? = some (.streaming, .call call))
    (hplace : base + i = place) (toolCall : ToolCallResponse) :
    let r := ((toolOf base i call).note toolCall).advance (V := V) toolCall.function.arguments
    r.1 = toolOf base i (call.note toolCall) ∧
      Leads (viewOf entries) (r.2.map mark) (viewOf (entries.set place (.streaming, .call (call.note toolCall)))) := by
  intro r
  obtain ⟨hlt, -⟩ := List.getElem?_eq_some_iff.mp hentry
  have hview : viewOf entries place = Part.block .streaming place (.call call) := by
    unfold viewOf
    rw [hentry]
    rfl
  rw [block_streaming] at hview
  rw [viewOf_set hlt]
  show _ ∧ Leads _ _ (Function.update _ _ (Part.block .streaming place (.call (call.note toolCall))))
  rw [block_streaming]
  by_cases hstarted : call.id ≠ "" ∧ call.name ≠ ""
  · rw [if_pos hstarted] at hview
    have hr : r = _ := advance_started hstarted toolCall
    have hnote : (call.note toolCall).id = call.id ∧ (call.note toolCall).name = call.name := by
      simp [Call.note, hstarted]
    rw [hr, hplace, hnote.1, hnote.2, if_pos hstarted]
    refine ⟨rfl, ?_⟩
    have hpart := leads_part hview rfl toolCall.function.arguments
    by_cases hempty : toolCall.function.arguments = ""
    · have hsame : (⟨place, .tool call.name, (call.note toolCall).arguments, false⟩ : Block Kind) =
          ⟨place, .tool call.name, call.arguments, false⟩ := by
        simp [Call.note, hempty]
      rw [if_pos hempty, hsame, ← hview, Function.update_eq_self]
      exact .refl _
    · rw [if_neg hempty]
      exact hpart
  · rw [if_neg hstarted] at hview
    have hr : r = _ := advance_waiting hstarted toolCall
    rw [hr, hplace]
    refine ⟨rfl, ?_⟩
    by_cases hstarts : (call.note toolCall).id ≠ "" ∧ (call.note toolCall).name ≠ ""
    · rw [if_pos hstarts, if_pos hstarts]
      exact startToolEvents_leads ⟨place, _, _, _, false⟩ hview
    · rw [if_neg hstarts, if_neg hstarts, ← hview, Function.update_eq_self]
      exact .refl _

theorem getElem?_entries (hcurrent : o.current = .calls calls) {place : ℕ} (hcall : calls.list[place]? = some call) :
    o.entries[o.past.length + place]? = some (.streaming, .call call) := by
  simp [Outline.entries, hcurrent, Current.parts, List.getElem?_append_right, hcall]

theorem entries_set (hcurrent : o.current = .calls calls) (place : ℕ) (call : Call) (byIndex : AList fun _ : ℤ => ℕ)
    (byID : AList fun _ : String => ℕ) :
    Outline.entries { o with current := .calls ⟨calls.list.set place call, byIndex, byID⟩ } =
      o.entries.set (o.past.length + place) (.streaming, .call call) := by
  simp [Outline.entries, hcurrent, Current.parts, List.set_append_right, List.map_set]

theorem appendToolCall_tells (hcurrent : o.current = .calls calls) (h : Represents o s) (position : ℕ)
    (toolCall : ToolCallResponse) : Tells (V := V) o { o with current := .calls (calls.add position toolCall) } s
      (appendToolCall position toolCall s) := by
  obtain ⟨hplace, hplaced⟩ := placeTool_place (V := V) hcurrent h (toolCall.index.getD position) (trimSpace toolCall.id)
  unfold appendToolCall Calls.add
  dsimp only
  generalize placeTool (toolCall.index.getD position) (trimSpace toolCall.id) s = placedTool at hplace hplaced ⊢
  generalize calls.place (toolCall.index.getD position) (trimSpace toolCall.id) = placed at hplace hplaced ⊢
  obtain ⟨place, s₁⟩ := placedTool
  obtain ⟨place', calls₁⟩ := placed
  obtain rfl : place = place' := hplace
  dsimp only at hplaced ⊢
  obtain ⟨htype, hbase, htools, hindex, hid⟩ := hplaced.represents
  cases hcall : calls₁.list[place]? with
  | none =>
    have htool : s₁.toolCalls[place]? = none := by rw [htools]; simp [hcall]
    rw [htool]
    exact hplaced
  | some call =>
    have htool : s₁.toolCalls[place]? = some (toolOf o.past.length place call) := by rw [htools]; simp [hcall]
    rw [htool]
    dsimp only
    have hentry := getElem?_entries (o := { o with current := .calls calls₁ }) rfl hcall
    obtain ⟨hafter, hflow⟩ := advance_leads (V := V) hentry rfl toolCall
    refine hplaced.trans ⟨⟨htype, hbase, ?_, hindex, ?_⟩, ?_, rfl⟩
    · show s₁.toolCalls.set place _ = List.mapIdx _ (calls₁.list.set place (call.note toolCall))
      rw [hafter, List.mapIdx_set, ← htools]
    · show (if call.id = "" ∧ trimSpace toolCall.id ≠ "" then s₁.toolCallByID.insert (trimSpace toolCall.id) place
        else s₁.toolCallByID) = _
      rw [show s₁.toolCallByID = calls₁.byID from hid]
    · rw [entries_set (o := { o with current := .calls calls₁ }) rfl]
      exact hflow

theorem appendToolCallsFrom_tells (hcurrent : o.current = .calls calls) (h : Represents o s) (position : ℕ)
    (toolCalls : List ToolCallResponse) :
    Tells (V := V) o { o with current := .calls (calls.addFrom position toolCalls) } s
      (appendToolCallsFrom position toolCalls s) := by
  induction toolCalls generalizing o calls s position with
  | nil =>
    have hsame : { o with current := .calls (calls.addFrom position []) } = o := by
      obtain ⟨past, current⟩ := o
      obtain rfl : current = .calls calls := hcurrent
      rfl
    rw [hsame]
    exact .refl h
  | cons toolCall toolCalls ih =>
    have hone := appendToolCall_tells (V := V) hcurrent h position toolCall
    exact hone.andThen (ih (o := { o with current := .calls (calls.add position toolCall) }) rfl hone.represents
      (position + 1))

/-- The calls that go on, or none. -/
def Outline.calling (o : Outline) : Outline × Calls :=
  match o.current with
  | .calls calls => (o, calls)
  | _ => (o.close, {})

theorem addCalls_calling (hne : toolCalls ≠ []) (o : Outline) :
    o.addCalls toolCalls = { o.calling.1 with current := .calls (o.calling.2.addFrom 0 toolCalls) } := by
  unfold Outline.addCalls Outline.calling
  rw [if_neg hne]
  cases o.current <;> rfl

theorem openTools_tells (h : Represents o s) (hsettled : o.Settled) :
    Tells o { o.calling.1 with current := .calls o.calling.2 } s (openTools (V := V) host s) := by
  unfold openTools
  have hrepresents := h
  unfold Represents at h
  have hopen (hne : s.lastMessagesType ≠ .tools) (hcalling : o.calling = (o.close, {})) :
      Tells o { o.calling.1 with current := .calls o.calling.2 } s
        (if s.lastMessagesType = .tools then (s, [])
          else ((stopOpenBlocksAndAdvance (V := V) host).andThen fun s =>
            ({ s with
              lastMessagesType := .tools
              toolCallBaseIndex := s.index
              toolCallMaxIndexOffset := 0
              toolCalls := []
              toolCallByIndex := ∅
              toolCallByID := ∅ }, [])) s) := by
    rw [if_neg hne, hcalling]
    have hclose := stopOpenBlocksAndAdvance_tells (V := V) host hrepresents hsettled
    refine hclose.andThen ⟨⟨rfl, hclose.represents.2, rfl, rfl, rfl⟩, ?_, rfl⟩
    exact .refl _
  cases hcurrent : o.current with
  | calls calls =>
    rw [hcurrent] at h
    rw [if_pos h.1]
    have hsame : { o.calling.1 with current := .calls o.calling.2 } = o := by
      obtain ⟨past, current⟩ := o
      obtain rfl : current = .calls calls := hcurrent
      rfl
    rw [hsame]
    exact .refl hrepresents
  | prose voice t =>
    rw [hcurrent] at h
    refine hopen ?_ (by simp [Outline.calling, hcurrent])
    rw [h.1]
    cases voice <;> simp [Voice.type]
  | nothing =>
    rw [hcurrent] at h
    refine hopen ?_ (by simp [Outline.calling, hcurrent])
    rw [h.1]
    simp

theorem appendToolCalls_tells (h : Represents o s) (hsettled : o.Settled) (hne : toolCalls ≠ []) :
    Tells o (o.addCalls toolCalls) s (appendToolCalls (V := V) host toolCalls s) := by
  rw [addCalls_calling hne]
  have hopen := openTools_tells (V := V) host h hsettled
  have hcalls := appendToolCallsFrom_tells (V := V) (o := { o.calling.1 with current := .calls o.calling.2 }) rfl
    hopen.represents 0 toolCalls
  have hall := hopen.andThen hcalls
  refine hall.andThen ⟨?_, .refl _, rfl⟩
  obtain ⟨htype, hbase, htools, hindex, hid⟩ := hall.represents
  exact ⟨htype, hbase, htools, hindex, hid⟩

theorem length_le_add (position : ℕ) (toolCall : ToolCallResponse) (calls : Calls) :
    calls.list.length ≤ (calls.add position toolCall).list.length := by
  have hplace : calls.list.length ≤
      (calls.place (toolCall.index.getD position) (trimSpace toolCall.id)).2.list.length := by
    unfold Calls.place
    cases findTool (calls.list.map Call.id) calls.byIndex calls.byID (toolCall.index.getD position)
        (trimSpace toolCall.id) with
    | some position => exact le_rfl
    | none => simp
  unfold Calls.add
  dsimp only
  split
  · exact hplace
  · simpa using hplace

theorem add_first (position : ℕ) (toolCall : ToolCallResponse) : (Calls.add position toolCall {}).list ≠ [] := by
  simp [Calls.add, Calls.place, findTool]

theorem addFrom_ne_nil {position : ℕ} (h : calls.list ≠ []) : (calls.addFrom position toolCalls).list ≠ [] := by
  induction toolCalls generalizing position calls with
  | nil => exact h
  | cons toolCall toolCalls ih =>
    apply ih
    have hpos := List.length_pos_iff.mpr h
    exact List.length_pos_iff.mp (hpos.trans_le (length_le_add position toolCall calls))

theorem settled_addCalls (hsettled : o.Settled) (toolCalls : List ToolCallResponse) :
    (o.addCalls toolCalls).Settled := by
  unfold Outline.addCalls
  cases toolCalls with
  | nil => exact hsettled
  | cons toolCall toolCalls =>
    rw [if_neg (List.cons_ne_nil _ _)]
    have hnew : (Calls.addFrom 1 toolCalls (Calls.add 0 toolCall {})).list ≠ [] :=
      addFrom_ne_nil (add_first 0 toolCall)
    cases hcurrent : o.current with
    | calls calls =>
      rintro calls' ⟨⟩
      exact addFrom_ne_nil (hsettled calls hcurrent)
    | _ =>
      rintro calls' ⟨⟩
      exact hnew

/-! ## What a chunk says -/

/-- What the converter takes of a chunk: one field. -/
def Said.kept (x : Said) : Said :=
  if x.toolCalls ≠ [] then { x with reasoning := "", content := "" }
  else if x.reasoning ≠ "" then { x with content := "" }
  else x

theorem settled_hear (hsettled : o.Settled) (x : Said) : (o.hear x).Settled :=
  settled_cite (settled_addCalls (settled_say (settled_say hsettled _ _) _ _) _) _

/-- **One choice.** -/
theorem convertDelta_tells (h : Represents o s) (hsettled : o.Settled) (delta : ChoiceDelta) :
    Tells o (o.hear (saidChoice host delta).kept) s (convertDelta (V := V) host delta s) := by
  have hcite {o' : Outline} {m : Sends U V} (hm : Tells o o' s (m s)) (hsettled' : o'.Settled) :
      Tells o (o'.cite !(chatAnnotationsToClaude host delta.annotations).isEmpty) s
        (m.andThen (appendCitationDeltas host delta.annotations) s) :=
    hm.andThen (appendCitationDeltas_tells host hm.represents hsettled' _)
  have hmute (voice : Voice) (o : Outline) : o.say voice "" = o := if_pos rfl
  unfold convertDelta
  by_cases htools : delta.toolCalls ≠ []
  · have hkept : o.hear (saidChoice host delta).kept = (o.addCalls delta.toolCalls).cite
        !(chatAnnotationsToClaude host delta.annotations).isEmpty := by
      simp [Outline.hear, Said.kept, saidChoice, htools, hmute]
    rw [hkept, if_pos htools]
    exact hcite (appendToolCalls_tells host h hsettled htools) (settled_addCalls hsettled _)
  · have hnil : delta.toolCalls = [] := by simpa using htools
    have hcalls (o : Outline) : o.addCalls [] = o := if_pos rfl
    rw [if_neg htools]
    by_cases hreasoning : delta.getReasoningContent ≠ ""
    · have hkept : o.hear (saidChoice host delta).kept = (o.say .thinking delta.getReasoningContent).cite
          !(chatAnnotationsToClaude host delta.annotations).isEmpty := by
        simp [Outline.hear, Said.kept, saidChoice, hnil, hreasoning, hmute, hcalls]
      rw [hkept, if_pos hreasoning]
      exact hcite (appendProse_tells host h hsettled .thinking hreasoning) (settled_say hsettled _ _)
    · have hblank : delta.getReasoningContent = "" := by simpa using hreasoning
      have hkept : o.hear (saidChoice host delta).kept = (o.say .text delta.getContentString).cite
          !(chatAnnotationsToClaude host delta.annotations).isEmpty := by
        simp [Outline.hear, Said.kept, saidChoice, hnil, hblank, hmute, hcalls]
      rw [hkept, if_neg hreasoning]
      by_cases hcontent : delta.getContentString ≠ ""
      · rw [if_pos hcontent]
        exact hcite (appendProse_tells host h hsettled .text hcontent) (settled_say hsettled _ _)
      · have hempty : delta.getContentString = "" := by simpa using hcontent
        rw [if_neg hcontent, hempty, hmute]
        exact hcite (.refl h) hsettled

end Vancine.Streams.ChatToClaude
