import Mathlib.Data.List.Nodup

/-!
# Streams of blocks

A stream of events that opens numbered blocks, adds text to them and closes them, between a first event and a last
one. `accept` reads one event after the other and keeps what is known of the blocks; it refuses an event of a block
that is not open. What an accepted stream looks like as a whole is `Shaped`: the events of a block begin with its
opening and end with its closing, and their texts are the text of the block.

An event is seen through its mark, so that any protocol with such blocks can use this.
-/

namespace Lib.Blocks

variable {L : Type*}

/-- What an event says of the blocks. -/
inductive Mark (L : Type*)
  | start
  | opens (index : ℕ) (label : L)
  | part (index : ℕ) (text : String)
  /-- An event of a block that is neither of these. -/
  | note (index : ℕ)
  | closes (index : ℕ)
  /-- An event of no block. -/
  | aside
  | stop
  deriving DecidableEq

def Mark.index? : Mark L → Option ℕ
  | .opens i _ | .part i _ | .note i | .closes i => some i
  | _ => none

/-- The event is between the opening and the closing of its block. -/
def Mark.Inner : Mark L → Prop
  | .part _ _ | .note _ => True
  | _ => False

structure Block (L : Type*) where
  index : ℕ
  label : L
  text : String
  closed : Bool

inductive Phase
  | before | within | after
  deriving DecidableEq

@[ext]
structure Log (L : Type*) where
  phase : Phase
  blocks : List (Block L)

/-- Nothing was read. -/
def Log.empty : Log L := ⟨.before, []⟩

def hasBlock (i : ℕ) (blocks : List (Block L)) : Bool := blocks.any fun b => b.index = i

def isOpen (i : ℕ) (blocks : List (Block L)) : Bool := blocks.any fun b => b.index = i && !b.closed

/-- Change the block with the index. -/
def update (i : ℕ) (f : Block L → Block L) (blocks : List (Block L)) : List (Block L) :=
  blocks.map fun b => if b.index = i then f b else b

def Block.append (text : String) (b : Block L) : Block L := { b with text := b.text ++ text }

def Block.close (b : Block L) : Block L := { b with closed := true }

/-- Read one event. -/
def accept (log : Log L) (mark : Mark L) : Option (Log L) :=
  match log.phase, mark with
  | .before, .start => some ⟨.within, log.blocks⟩
  | .within, .opens i label =>
    if hasBlock i log.blocks then none else some ⟨.within, log.blocks ++ [⟨i, label, "", false⟩]⟩
  | .within, .part i text =>
    if isOpen i log.blocks then some ⟨.within, update i (.append text) log.blocks⟩ else none
  | .within, .note i => if isOpen i log.blocks then some log else none
  | .within, .closes i => if isOpen i log.blocks then some ⟨.within, update i .close log.blocks⟩ else none
  | .within, .aside => some log
  | .within, .stop => if log.blocks.all (·.closed) then some ⟨.after, log.blocks⟩ else none
  | _, _ => none

def acceptAll (log : Log L) (marks : List (Mark L)) : Option (Log L) := marks.foldlM accept log

@[simp] theorem acceptAll_nil (log : Log L) : acceptAll log [] = some log := rfl

theorem acceptAll_cons (log : Log L) (mark : Mark L) (marks : List (Mark L)) :
    acceptAll log (mark :: marks) = (accept log mark).bind fun log => acceptAll log marks := rfl

theorem acceptAll_append (log : Log L) (marks marks' : List (Mark L)) :
    acceptAll log (marks ++ marks') = (acceptAll log marks).bind fun log => acceptAll log marks' :=
  List.foldlM_append

/-- Reading goes on from where it stood. -/
theorem acceptAll_append_some {log log' log'' : Log L} {marks marks' : List (Mark L)}
    (h : acceptAll log marks = some log') (h' : acceptAll log' marks' = some log'') :
    acceptAll log (marks ++ marks') = some log'' := by
  rw [acceptAll_append, h]
  exact h'

@[simp] theorem acceptAll_singleton (log : Log L) (mark : Mark L) : acceptAll log [mark] = accept log mark := by
  rw [acceptAll_cons]
  cases accept log mark <;> rfl

/-! ## Blocks of a log -/

@[simp] theorem map_index_update (i : ℕ) {f : Block L → Block L} (hf : ∀ b, (f b).index = b.index)
    (blocks : List (Block L)) : (update i f blocks).map Block.index = blocks.map Block.index := by
  unfold update
  rw [List.map_map]
  apply List.map_congr_left
  intro b _
  by_cases h : b.index = i <;> simp [h, hf]

theorem hasBlock_eq_true {i : ℕ} {blocks : List (Block L)} : hasBlock i blocks = true ↔ i ∈ blocks.map Block.index := by
  simp [hasBlock]

theorem isOpen_eq_true {i : ℕ} {blocks : List (Block L)} :
    isOpen i blocks = true ↔ ∃ b ∈ blocks, b.index = i ∧ b.closed = false := by
  simp [isOpen]

theorem mem_update {i : ℕ} {f : Block L → Block L} {blocks : List (Block L)} {b : Block L} :
    b ∈ update i f blocks ↔ (∃ b₀ ∈ blocks, b₀.index = i ∧ f b₀ = b) ∨ (b ∈ blocks ∧ b.index ≠ i) := by
  unfold update
  rw [List.mem_map]
  constructor
  · rintro ⟨b₀, hmem, rfl⟩
    by_cases h : b₀.index = i
    · rw [if_pos h]
      exact .inl ⟨b₀, hmem, h, rfl⟩
    · rw [if_neg h]
      exact .inr ⟨hmem, h⟩
  · rintro (⟨b₀, hmem, h, rfl⟩ | ⟨hmem, h⟩)
    · exact ⟨b₀, hmem, if_pos h⟩
    · exact ⟨b, hmem, if_neg h⟩

/-! ## The events of one block -/

/-- The events of block `i`. -/
def eventsOf (i : ℕ) (marks : List (Mark L)) : List (Mark L) := marks.filter fun m => m.index? = some i

/-- The text that the events of block `i` add. -/
def textOf (i : ℕ) : List (Mark L) → String
  | [] => ""
  | .part j text :: marks => (if j = i then text else "") ++ textOf i marks
  | _ :: marks => textOf i marks

theorem eventsOf_append (i : ℕ) (marks marks' : List (Mark L)) :
    eventsOf i (marks ++ marks') = eventsOf i marks ++ eventsOf i marks' := List.filter_append ..

theorem eventsOf_single_self {i : ℕ} {mark : Mark L} (h : mark.index? = some i) : eventsOf i [mark] = [mark] := by
  simp [eventsOf, h]

theorem eventsOf_single_other {i : ℕ} {mark : Mark L} (h : mark.index? ≠ some i) : eventsOf i [mark] = [] := by
  simp [eventsOf, h]

theorem textOf_append (i : ℕ) (marks marks' : List (Mark L)) :
    textOf i (marks ++ marks') = textOf i marks ++ textOf i marks' := by
  induction marks with
  | nil => simp [textOf]
  | cons mark marks ih =>
    cases mark with
    | part j text => simp [textOf, ih, String.append_assoc]
    | _ => simpa [textOf] using ih

theorem textOf_single_other {i : ℕ} {mark : Mark L} (h : mark.index? ≠ some i) : textOf i [mark] = "" := by
  cases mark with
  | part j text =>
    have hne : ¬j = i := by simpa [Mark.index?] using h
    simp [textOf, hne]
  | _ => rfl

theorem textOf_of_no_events {i : ℕ} {marks : List (Mark L)} (h : eventsOf i marks = []) : textOf i marks = "" := by
  induction marks with
  | nil => rfl
  | cons mark marks ih =>
    unfold eventsOf at h ih
    rw [List.filter_cons] at h
    split_ifs at h with hmark
    cases mark with
    | part j text =>
      have hne : ¬j = i := by simpa [Mark.index?] using hmark
      simpa [textOf, hne] using ih h
    | _ => simpa [textOf] using ih h

/-- Opened, worked on, and closed if the block is. -/
def BlockEvents (b : Block L) (events : List (Mark L)) : Prop :=
  ∃ inner, (∀ m ∈ inner, Mark.Inner m) ∧
    events = .opens b.index b.label :: inner ++ (if b.closed then [.closes b.index] else [])

theorem BlockEvents.inner {b : Block L} {events : List (Mark L)} (mark : Mark L) (h : BlockEvents b events)
    (hopen : b.closed = false) (hmark : mark.Inner) (text : String) :
    BlockEvents { b with text := text } (events ++ [mark]) := by
  obtain ⟨inner, hinner, rfl⟩ := h
  refine ⟨inner ++ [mark], ?_, by simp [hopen]⟩
  intro m hm
  rcases List.mem_append.mp hm with hm | hm
  · exact hinner m hm
  · obtain rfl := List.mem_singleton.mp hm
    exact hmark

theorem BlockEvents.close {b : Block L} {events : List (Mark L)} (h : BlockEvents b events)
    (hopen : b.closed = false) : BlockEvents b.close (events ++ [.closes b.index]) := by
  obtain ⟨inner, hinner, rfl⟩ := h
  exact ⟨inner, hinner, by simp [hopen, Block.close]⟩

/-! ## The whole stream -/

/-- The index of an opening. -/
def Mark.opened? : Mark L → Option ℕ
  | .opens i _ => some i
  | _ => none

/-- What the log knows of the events that were read. -/
structure Shaped (marks : List (Mark L)) (log : Log L) : Prop where
  before : log.phase = .before → marks = []
  start : log.phase ≠ .before → ∃ rest, marks = .start :: rest ∧ .start ∉ rest
  within : log.phase ≠ .after → .stop ∉ marks
  after : log.phase = .after → (∃ first, marks = first ++ [.stop] ∧ .stop ∉ first) ∧ ∀ b ∈ log.blocks, b.closed = true
  nodup : (log.blocks.map Block.index).Nodup
  opened : marks.filterMap Mark.opened? = log.blocks.map Block.index
  events : ∀ b ∈ log.blocks, BlockEvents b (eventsOf b.index marks)
  others : ∀ i ∉ log.blocks.map Block.index, eventsOf i marks = []
  text : ∀ b ∈ log.blocks, textOf b.index marks = b.text

namespace Shaped

variable {marks : List (Mark L)} {log log' : Log L}

theorem empty : Shaped ([] : List (Mark L)) Log.empty where
  before _ := rfl
  start h := absurd rfl h
  within _ := List.not_mem_nil
  after h := nomatch h
  nodup := List.nodup_nil
  opened := rfl
  events _ hb := absurd hb List.not_mem_nil
  others _ _ := rfl
  text _ hb := absurd hb List.not_mem_nil

/-- More events after the first one. -/
theorem start_append (h : Shaped marks log) (hphase : log.phase ≠ .before) {mark : Mark L} (hmark : mark ≠ .start) :
    ∃ rest, marks ++ [mark] = .start :: rest ∧ .start ∉ rest := by
  obtain ⟨rest, rfl, hrest⟩ := h.start hphase
  refine ⟨rest ++ [mark], rfl, ?_⟩
  simpa [hrest] using fun h => hmark h.symm

theorem within_append (h : Shaped marks log) (hphase : log.phase ≠ .after) {mark : Mark L} (hmark : mark ≠ .stop) :
    .stop ∉ marks ++ [mark] := by
  simpa [h.within hphase] using fun h => hmark h.symm

/-- An event of an open block. -/
theorem touch (h : Shaped marks log) (hphase : log.phase = .within) {i : ℕ} {mark : Mark L} {f : Block L → Block L}
    (hi : mark.index? = some i) (hopened : mark.opened? = none) (hopen : isOpen i log.blocks = true)
    (hindex : ∀ b, (f b).index = b.index)
    (hevents : ∀ b events, b.index = i → b.closed = false → BlockEvents b events → BlockEvents (f b) (events ++ [mark]))
    (htext : ∀ b, (f b).text = b.text ++ textOf i [mark]) :
    Shaped (marks ++ [mark]) ⟨.within, update i f log.blocks⟩ := by
  have hstart : mark ≠ .start := by rintro rfl; cases hi
  have hstop : mark ≠ .stop := by rintro rfl; cases hi
  obtain ⟨b₁, hb₁, hb₁i, hb₁open⟩ := isOpen_eq_true.mp hopen
  -- the open block is the only one with its index
  have honly : ∀ b ∈ log.blocks, b.index = i → b = b₁ :=
    fun b hb hbi => List.inj_on_of_nodup_map h.nodup hb hb₁ (hbi.trans hb₁i.symm)
  refine ⟨nofun, fun _ => h.start_append (by simp [hphase]) hstart, fun _ => h.within_append (by simp [hphase]) hstop,
    nofun, ?_, ?_, ?_, ?_, ?_⟩
  · simpa [hindex] using h.nodup
  · simpa [hindex, hopened] using h.opened
  · intro b hb
    rw [eventsOf_append]
    rcases mem_update.mp hb with ⟨b₀, hb₀, hb₀i, rfl⟩ | ⟨hb, hbi⟩
    · rw [hindex, hb₀i, eventsOf_single_self hi]
      apply hevents b₀ _ hb₀i
      · rw [honly b₀ hb₀ hb₀i]
        exact hb₁open
      · rw [← hb₀i]
        exact h.events b₀ hb₀
    · have hne : mark.index? ≠ some b.index := by
        rw [hi]
        simpa using fun h => hbi h.symm
      rw [eventsOf_single_other hne, List.append_nil]
      exact h.events b hb
  · intro j hj
    rw [map_index_update i hindex] at hj
    have hne : mark.index? ≠ some j := by
      rw [hi]
      intro hij
      apply hj
      obtain rfl := Option.some.inj hij
      exact List.mem_map.mpr ⟨b₁, hb₁, hb₁i⟩
    rw [eventsOf_append, eventsOf_single_other hne, List.append_nil]
    exact h.others j hj
  · intro b hb
    rw [textOf_append]
    rcases mem_update.mp hb with ⟨b₀, hb₀, hb₀i, rfl⟩ | ⟨hb, hbi⟩
    · rw [hindex, htext, h.text b₀ hb₀, hb₀i]
    · have hne : mark.index? ≠ some b.index := by
        rw [hi]
        simpa using fun h => hbi h.symm
      rw [textOf_single_other hne, String.append_empty]
      exact h.text b hb

/-- A new block. -/
theorem open_block (h : Shaped marks log) (hphase : log.phase = .within) {i : ℕ} {label : L}
    (hnew : hasBlock i log.blocks = false) :
    Shaped (marks ++ [.opens i label]) ⟨.within, log.blocks ++ [⟨i, label, "", false⟩]⟩ := by
  have hi : i ∉ log.blocks.map Block.index := by
    intro hmem
    rw [← hasBlock_eq_true, hnew] at hmem
    cases hmem
  have hother : ∀ b ∈ log.blocks, (Mark.opens i label).index? ≠ some b.index := by
    intro b hb hij
    apply hi
    obtain rfl := Option.some.inj hij
    exact List.mem_map_of_mem hb
  refine ⟨nofun, fun _ => h.start_append (by simp [hphase]) nofun, fun _ => h.within_append (by simp [hphase]) nofun,
    nofun, ?_, ?_, ?_, ?_, ?_⟩
  · simpa [List.nodup_append, h.nodup] using hi
  · simp [h.opened, Mark.opened?]
  · intro b hb
    rw [eventsOf_append]
    rcases List.mem_append.mp hb with hb | hb
    · rw [eventsOf_single_other (hother b hb), List.append_nil]
      exact h.events b hb
    · obtain rfl := List.mem_singleton.mp hb
      rw [h.others i hi, eventsOf_single_self rfl]
      exact ⟨[], by simp, by simp⟩
  · intro j hj
    have hj' : j ∉ log.blocks.map Block.index ∧ j ≠ i := by simpa using hj
    have hne : (Mark.opens i label).index? ≠ some j := by simpa [Mark.index?] using fun h => hj'.2 h.symm
    rw [eventsOf_append, eventsOf_single_other hne, List.append_nil]
    exact h.others j hj'.1
  · intro b hb
    rw [textOf_append]
    rcases List.mem_append.mp hb with hb | hb
    · simpa [textOf] using h.text b hb
    · obtain rfl := List.mem_singleton.mp hb
      have hnone := textOf_of_no_events (h.others i hi)
      simpa [textOf] using hnone

/-- An event of no block. -/
theorem outside (h : Shaped marks log) {mark : Mark L} (hi : mark.index? = none) {phase : Phase}
    (hbefore : phase ≠ .before) (hstart : ∃ rest, marks ++ [mark] = .start :: rest ∧ .start ∉ rest)
    (hwithin : phase ≠ .after → .stop ∉ marks ++ [mark])
    (hafter : phase = .after → (∃ first, marks ++ [mark] = first ++ [.stop] ∧ .stop ∉ first) ∧
      ∀ b ∈ log.blocks, b.closed = true) :
    Shaped (marks ++ [mark]) ⟨phase, log.blocks⟩ := by
  have hne : ∀ i, mark.index? ≠ some i := by simp [hi]
  have hopened : mark.opened? = none := by
    cases mark with
    | opens i label => cases hi
    | _ => rfl
  refine ⟨fun h => absurd h hbefore, fun _ => hstart, hwithin, hafter, h.nodup, ?_, ?_, ?_, ?_⟩
  · simpa [hopened] using h.opened
  · intro b hb
    rw [eventsOf_append, eventsOf_single_other (hne _), List.append_nil]
    exact h.events b hb
  · intro i hi
    rw [eventsOf_append, eventsOf_single_other (hne _), List.append_nil]
    exact h.others i hi
  · intro b hb
    rw [textOf_append, textOf_single_other (hne _), String.append_empty]
    exact h.text b hb

theorem accept {mark : Mark L} (h : Shaped marks log) (haccept : Blocks.accept log mark = some log') :
    Shaped (marks ++ [mark]) log' := by
  unfold Blocks.accept at haccept
  split at haccept
  · rename_i hphase
    cases haccept
    obtain rfl := h.before hphase
    exact h.outside rfl nofun ⟨[], rfl, List.not_mem_nil⟩ (fun _ => by simp) nofun
  · rename_i i label hphase
    split_ifs at haccept with hhas
    cases haccept
    exact h.open_block hphase (by simpa using hhas)
  · rename_i i text hphase
    split_ifs at haccept with hopen
    cases haccept
    refine h.touch hphase rfl rfl hopen (fun _ => rfl) (fun b events _ hb hev => ?_) (fun b => ?_)
    · exact hev.inner (.part i text) hb trivial _
    · simp [Block.append, textOf]
  · rename_i i hphase
    split_ifs at haccept with hopen
    cases haccept
    have hsame : log = ⟨.within, update i id log.blocks⟩ := by
      ext1
      · exact hphase
      · simp [update]
    rw [hsame]
    refine h.touch hphase rfl rfl hopen (fun _ => rfl) (fun b events _ hb hev => ?_) (fun b => ?_)
    · exact hev.inner (.note i) hb trivial b.text
    · simp [textOf]
  · rename_i i hphase
    split_ifs at haccept with hopen
    cases haccept
    refine h.touch hphase rfl rfl hopen (fun _ => rfl) (fun b events hbi hb hev => ?_) (fun b => ?_)
    · rw [← hbi]
      exact hev.close hb
    · simp [Block.close, textOf]
  · rename_i hphase
    cases haccept
    have hsame : log = ⟨.within, log.blocks⟩ := by
      ext1
      · exact hphase
      · rfl
    rw [hsame]
    exact h.outside rfl nofun (h.start_append (by simp [hphase]) nofun)
      (fun _ => h.within_append (by simp [hphase]) nofun) nofun
  · rename_i hphase
    split_ifs at haccept with hclosed
    cases haccept
    refine h.outside rfl nofun (h.start_append (by simp [hphase]) nofun) (fun h => absurd rfl h) fun _ => ?_
    exact ⟨⟨marks, rfl, h.within (by simp [hphase])⟩, by simpa using hclosed⟩
  · cases haccept

theorem acceptAll {marks' : List (Mark L)} (h : Shaped marks log) (haccept : Blocks.acceptAll log marks' = some log') :
    Shaped (marks ++ marks') log' := by
  induction marks' generalizing marks log with
  | nil =>
    cases haccept
    simpa using h
  | cons mark marks' ih =>
    rw [acceptAll_cons] at haccept
    obtain ⟨log₁, hmark, hrest⟩ := Option.bind_eq_some_iff.mp haccept
    have := ih (h.accept hmark) hrest
    simpa using this

end Shaped

/-- **An accepted stream.** -/
theorem shaped_of_acceptAll {marks : List (Mark L)} {log : Log L} (h : acceptAll Log.empty marks = some log) :
    Shaped marks log := by
  simpa using Shaped.empty.acceptAll h

/-! ## Blocks under keys -/

variable {K : Type*}

/-- Each key of the order has its block at its place, and no other key has one. -/
def Placed (view : K → Option (Block L)) (order : List K) : Prop :=
  ∀ k i, (view k).map Block.index = some i ↔ order[i]? = some k

/-- The blocks in their order. -/
def listed (view : K → Option (Block L)) (order : List K) : List (Block L) := order.filterMap view

namespace Placed

variable {view : K → Option (Block L)} {order : List K} {k : K} {b : Block L}

theorem get (h : Placed view order) (hb : view k = some b) : order[b.index]? = some k := by
  apply (h k b.index).mp
  rw [hb]
  rfl

theorem of_get (h : Placed view order) {i : ℕ} (hi : order[i]? = some k) : ∃ b, view k = some b ∧ b.index = i := by
  have hmap := (h k i).mpr hi
  exact Option.map_eq_some_iff.mp hmap

theorem of_mem (h : Placed view order) (hk : k ∈ order) : ∃ b, view k = some b := by
  obtain ⟨i, hi⟩ := List.mem_iff_getElem?.mp hk
  obtain ⟨b, hb, -⟩ := h.of_get hi
  exact ⟨b, hb⟩

theorem notMem (h : Placed view order) (hk : view k = none) : k ∉ order := by
  intro hmem
  obtain ⟨b, hb⟩ := h.of_mem hmem
  rw [hk] at hb
  cases hb

end Placed

theorem getElem?_filterMap {α β : Type*} {f : α → Option β} {l : List α} (h : ∀ a ∈ l, ∃ b, f a = some b) (i : ℕ) :
    (l.filterMap f)[i]? = l[i]?.bind f := by
  induction l generalizing i with
  | nil => rfl
  | cons a l ih =>
    obtain ⟨b, hb⟩ := h a List.mem_cons_self
    rw [List.filterMap_cons_some hb]
    cases i with
    | zero => simp [hb]
    | succ i => simpa using ih (fun a ha => h a (List.mem_cons_of_mem _ ha)) i

theorem length_filterMap {α β : Type*} {f : α → Option β} {l : List α} (h : ∀ a ∈ l, ∃ b, f a = some b) :
    (l.filterMap f).length = l.length := by
  induction l with
  | nil => rfl
  | cons a l ih =>
    obtain ⟨b, hb⟩ := h a List.mem_cons_self
    rw [List.filterMap_cons_some hb, List.length_cons, List.length_cons,
      ih fun a ha => h a (List.mem_cons_of_mem _ ha)]

theorem mem_listed {view : K → Option (Block L)} {order : List K} {b : Block L} :
    b ∈ listed view order ↔ ∃ k ∈ order, view k = some b := List.mem_filterMap

theorem Placed.map_index {view : K → Option (Block L)} {order : List K} (h : Placed view order) :
    (listed view order).map Block.index = List.range order.length := by
  apply List.ext_getElem?
  intro i
  rw [List.getElem?_map, listed, getElem?_filterMap fun k hk => h.of_mem hk]
  by_cases hi : i < order.length
  · obtain ⟨b, hb, rfl⟩ := h.of_get (List.getElem?_eq_getElem hi)
    rw [List.getElem?_eq_getElem hi, Option.bind_some, hb, List.getElem?_range hi]
    rfl
  · have hle : order.length ≤ i := by omega
    simp [hle]

theorem Placed.isOpen {view : K → Option (Block L)} {order : List K} {k : K} {b : Block L} (h : Placed view order)
    (hk : view k = some b) (hb : b.closed = false) : isOpen b.index (listed view order) = true := by
  rw [isOpen_eq_true]
  exact ⟨b, mem_listed.mpr ⟨k, List.mem_of_getElem? (h.get hk), hk⟩, rfl, hb⟩

theorem Placed.accept_note {view : K → Option (Block L)} {order : List K} {k : K} {b : Block L} (h : Placed view order)
    (hk : view k = some b) (hb : b.closed = false) :
    accept ⟨.within, listed view order⟩ (.note b.index) = some ⟨.within, listed view order⟩ :=
  if_pos (h.isOpen hk hb)

section Keys

variable [DecidableEq K] {view : K → Option (Block L)} {order : List K} {k : K} {b : Block L}

/-- A block is put at the end. -/
theorem Placed.push (h : Placed view order) (hk : view k = none) (hb : b.index = order.length) :
    Placed (Function.update view k (some b)) (order ++ [k]) := by
  intro k' i
  by_cases hk' : k' = k
  · subst hk'
    have hnot := h.notMem hk
    rw [Function.update_self, Option.map_some, hb, Option.some_inj]
    constructor
    · rintro rfl
      simp
    · intro hi
      by_contra hne
      by_cases hlt : i < order.length
      · rw [List.getElem?_append_left hlt] at hi
        exact hnot (List.mem_of_getElem? hi)
      · rw [List.getElem?_append_right (by omega)] at hi
        obtain ⟨hlen, -⟩ := List.getElem?_eq_some_iff.mp hi
        rw [List.length_singleton] at hlen
        omega
  · rw [Function.update_of_ne hk', h k' i]
    constructor
    · intro hi
      rw [List.getElem?_append_left (List.getElem?_eq_some_iff.mp hi).1]
      exact hi
    · intro hi
      by_cases hlt : i < order.length
      · rwa [List.getElem?_append_left hlt] at hi
      · rw [List.getElem?_append_right (by omega)] at hi
        have hmem := List.mem_of_getElem? hi
        exact absurd (List.mem_singleton.mp hmem) hk'

theorem listed_push (hk : k ∉ order) : listed (Function.update view k (some b)) (order ++ [k]) = listed view order ++ [b] := by
  unfold listed
  rw [List.filterMap_append]
  congr 1
  · apply List.filterMap_congr
    intro k' hk'
    rw [Function.update_of_ne]
    rintro rfl
    exact hk hk'
  · simp

/-- A block is changed where it is. -/
theorem Placed.set (h : Placed view order) (b' : Block L) (hk : view k = some b) (hb : b'.index = b.index) :
    Placed (Function.update view k (some b')) order := by
  intro k' i
  by_cases hk' : k' = k
  · subst hk'
    rw [Function.update_self, ← h k' i, hk, Option.map_some, Option.map_some, hb]
  · rw [Function.update_of_ne hk', h k' i]

theorem Placed.listed_set (h : Placed view order) (hk : view k = some b) {f : Block L → Block L} :
    listed (Function.update view k (some (f b))) order = update b.index f (listed view order) := by
  unfold listed update
  rw [List.map_filterMap]
  apply List.filterMap_congr
  intro k' hk'
  obtain ⟨c, hc⟩ := h.of_mem hk'
  by_cases hkk : k' = k
  · subst hkk
    simp [hk]
  · have hne : c.index ≠ b.index := by
      intro hcb
      have hget := h.get hc
      rw [hcb, h.get hk] at hget
      exact hkk (Option.some.inj hget).symm
    rw [Function.update_of_ne hkk, hc]
    simp [hne]

/-! What an event does to the block of a key. -/

theorem Placed.accept_opens (h : Placed view order) (hk : view k = none) (label : L) :
    accept ⟨.within, listed view order⟩ (.opens order.length label) =
      some ⟨.within, listed (Function.update view k (some ⟨order.length, label, "", false⟩)) (order ++ [k])⟩ := by
  have hnew : hasBlock order.length (listed view order) = false := by
    rw [← Bool.not_eq_true, hasBlock_eq_true, h.map_index]
    simp
  simp only [accept, hnew, Bool.false_eq_true, if_false, listed_push (h.notMem hk)]

theorem Placed.accept_part (h : Placed view order) (hk : view k = some b) (hb : b.closed = false) (text : String) :
    accept ⟨.within, listed view order⟩ (.part b.index text) =
      some ⟨.within, listed (Function.update view k (some (b.append text))) order⟩ := by
  rw [h.listed_set hk]
  exact if_pos (h.isOpen hk hb)

theorem Placed.accept_closes (h : Placed view order) (hk : view k = some b) (hb : b.closed = false) :
    accept ⟨.within, listed view order⟩ (.closes b.index) =
      some ⟨.within, listed (Function.update view k (some b.close)) order⟩ := by
  rw [h.listed_set hk]
  exact if_pos (h.isOpen hk hb)

end Keys

/-! ## Blocks by their index -/

/-- The log is within the stream and has these blocks, in whatever order they were opened. -/
structure Shows (log : Log L) (view : ℕ → Option (Block L)) : Prop where
  phase : log.phase = .within
  blocks : ∀ i b, view i = some b ↔ b ∈ log.blocks ∧ b.index = i

/-- The events are accepted, and lead from the blocks before them to the blocks after them. -/
def Leads (view : ℕ → Option (Block L)) (marks : List (Mark L)) (view' : ℕ → Option (Block L)) : Prop :=
  ∀ log, Shows log view → ∃ log', acceptAll log marks = some log' ∧ Shows log' view'

section Leads

variable {view view' view'' : ℕ → Option (Block L)} {marks marks' : List (Mark L)} {i : ℕ} {b : Block L}

theorem Leads.refl (view : ℕ → Option (Block L)) : Leads view [] view := fun log h => ⟨log, rfl, h⟩

theorem Leads.append (h : Leads view marks view') (h' : Leads view' marks' view'') :
    Leads view (marks ++ marks') view'' := by
  intro log hlog
  obtain ⟨log₁, haccept, hlog₁⟩ := h log hlog
  obtain ⟨log₂, haccept', hlog₂⟩ := h' log₁ hlog₁
  exact ⟨log₂, acceptAll_append_some haccept haccept', hlog₂⟩

theorem Shows.eq {log : Log L} (h : Shows log view) : log = ⟨.within, log.blocks⟩ := by
  rw [← h.phase]

theorem Shows.hasBlock_eq_false {log : Log L} (h : Shows log view) (hi : view i = none) :
    hasBlock i log.blocks = false := by
  rw [← Bool.not_eq_true, hasBlock_eq_true, List.mem_map]
  rintro ⟨b, hb, hbi⟩
  have := (h.blocks i b).mpr ⟨hb, hbi⟩
  rw [hi] at this
  cases this

theorem Shows.isOpen_eq_true {log : Log L} (h : Shows log view) (hi : view i = some b) (hb : b.closed = false) :
    isOpen i log.blocks = true := by
  obtain ⟨hmem, hbi⟩ := (h.blocks i b).mp hi
  exact Blocks.isOpen_eq_true.mpr ⟨b, hmem, hbi, hb⟩

theorem leads_opens (hi : view i = none) (label : L) :
    Leads view [.opens i label] (Function.update view i (some ⟨i, label, "", false⟩)) := by
  intro log h
  refine ⟨⟨.within, log.blocks ++ [⟨i, label, "", false⟩]⟩, ?_, rfl, ?_⟩
  · rw [acceptAll_singleton, h.eq]
    have hnew := h.hasBlock_eq_false hi
    simp only [accept, hnew, Bool.false_eq_true, if_false]
  · intro j c
    by_cases hj : j = i
    · subst hj
      have hnone : ¬(c ∈ log.blocks ∧ c.index = j) := by
        rw [← h.blocks, hi]
        simp
      rw [Function.update_self, Option.some_inj, List.mem_append, List.mem_singleton]
      constructor
      · rintro rfl
        exact ⟨.inr rfl, rfl⟩
      · rintro ⟨hc | hc, hcj⟩
        · exact absurd ⟨hc, hcj⟩ hnone
        · exact hc.symm
    · rw [Function.update_of_ne hj, h.blocks, List.mem_append, List.mem_singleton]
      constructor
      · exact fun ⟨hc, hcj⟩ => ⟨.inl hc, hcj⟩
      · rintro ⟨hc | rfl, hcj⟩
        · exact ⟨hc, hcj⟩
        · exact absurd hcj.symm hj

/-- The block that an event changes. -/
theorem Shows.update {log : Log L} (h : Shows log view) (hi : view i = some b) {f : Block L → Block L}
    (hf : (f b).index = b.index) :
    Shows ⟨.within, update i f log.blocks⟩ (Function.update view i (some (f b))) := by
  refine ⟨rfl, ?_⟩
  intro j c
  obtain ⟨hmem, hbi⟩ := (h.blocks i b).mp hi
  have honly : ∀ b₀ ∈ log.blocks, b₀.index = i → b₀ = b := by
    intro b₀ hb₀ hb₀i
    have := (h.blocks i b₀).mpr ⟨hb₀, hb₀i⟩
    rw [hi] at this
    exact (Option.some.inj this).symm
  rw [mem_update]
  by_cases hj : j = i
  · subst hj
    rw [Function.update_self, Option.some_inj]
    constructor
    · rintro rfl
      exact ⟨.inl ⟨b, hmem, hbi, rfl⟩, hf.trans hbi⟩
    · rintro ⟨⟨b₀, hb₀, hb₀i, rfl⟩ | ⟨-, hne⟩, hcj⟩
      · rw [honly b₀ hb₀ hb₀i]
      · exact absurd hcj hne
  · rw [Function.update_of_ne hj, h.blocks]
    constructor
    · rintro ⟨hc, rfl⟩
      exact ⟨.inr ⟨hc, hj⟩, rfl⟩
    · rintro ⟨⟨b₀, hb₀, hb₀i, rfl⟩ | ⟨hc, -⟩, hcj⟩
      · rw [honly b₀ hb₀ hb₀i, hf, hbi] at hcj
        exact absurd hcj.symm hj
      · exact ⟨hc, hcj⟩

theorem leads_part (hi : view i = some b) (hb : b.closed = false) (text : String) :
    Leads view [.part i text] (Function.update view i (some (b.append text))) := by
  intro log h
  refine ⟨_, ?_, h.update hi (f := Block.append text) rfl⟩
  rw [acceptAll_singleton, h.eq]
  exact if_pos (h.isOpen_eq_true hi hb)

theorem leads_note (hi : view i = some b) (hb : b.closed = false) : Leads view [.note i] view := by
  intro log h
  refine ⟨log, ?_, h⟩
  rw [acceptAll_singleton, h.eq]
  exact if_pos (h.isOpen_eq_true hi hb)

theorem leads_closes (hi : view i = some b) (hb : b.closed = false) :
    Leads view [.closes i] (Function.update view i (some b.close)) := by
  intro log h
  refine ⟨_, ?_, h.update hi (f := Block.close) rfl⟩
  rw [acceptAll_singleton, h.eq]
  exact if_pos (h.isOpen_eq_true hi hb)

/-- What is known of a stream that was accepted from its first event on. -/
theorem Leads.shaped (h : Leads (fun _ => none) marks view) :
    ∃ log, Shaped (.start :: marks) log ∧ Shows log view := by
  have hstart : Shows (L := L) ⟨.within, []⟩ fun _ => none := ⟨rfl, by simp⟩
  obtain ⟨log, haccept, hlog⟩ := h _ hstart
  exact ⟨log, shaped_of_acceptAll haccept, hlog⟩

end Leads

end Lib.Blocks
