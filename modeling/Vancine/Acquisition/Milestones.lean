import Vancine.Acquisition.Touches

/-!
# Milestones are written once and in order

Both fills keep the order of the milestones, whatever the right-hand sides see and whatever the clock says, so stale
reads of the callers do no harm: a statement only ever fills what is null.
-/

namespace Vancine.Acquisition

open Lib Lib.Table

/-! ## One row -/

/-- A sign-up does not complete before it starts. -/
def AcquisitionTouch.Ordered (row : AcquisitionTouch) : Prop :=
  ∀ started completed, row.signupStartedAt = some started → row.signupCompletedAt = some completed → started ≤ completed

/-- What stays of a row for good. -/
structure AcquisitionTouch.Kept (row row' : AcquisitionTouch) : Prop where
  id : row'.id = row.id
  touchId : row'.touchId = row.touchId
  utm : row'.utm = row.utm
  userId : ∀ user, row.userId = some user → row'.userId = some user
  started : ∀ started, row.signupStartedAt = some started → row'.signupStartedAt = some started
  completed : ∀ completed, row.signupCompletedAt = some completed → row'.signupCompletedAt = some completed

namespace AcquisitionTouch

variable {row row' row'' : AcquisitionTouch}

theorem Kept.refl (row : AcquisitionTouch) : row.Kept row :=
  ⟨rfl, rfl, rfl, fun _ h => h, fun _ h => h, fun _ h => h⟩

theorem Kept.trans (h : row.Kept row') (h' : row'.Kept row'') : row.Kept row'' where
  id := h'.id.trans h.id
  touchId := h'.touchId.trans h.touchId
  utm := h'.utm.trans h.utm
  userId user hu := h'.userId user (h.userId user hu)
  started a ha := h'.started a (h.started a ha)
  completed a ha := h'.completed a (h.completed a ha)

theorem setStarted_kept (now : ℤ) (row : AcquisitionTouch) : row.Kept (setStarted now row) where
  id := rfl
  touchId := rfl
  utm := rfl
  userId _ h := h
  started a ha := by simp [setStarted, startedFill, ha]
  completed _ h := h

theorem setCompleted_kept (now : ℤ) (row : AcquisitionTouch) : row.Kept (setCompleted now row) where
  id := rfl
  touchId := rfl
  utm := rfl
  userId _ h := h
  started _ h := h
  completed a ha := by simp [setCompleted, completedFill, ha]

variable {now : ℤ}

/-- A start that is filled in is not after the completion that is there. -/
theorem setStarted_ordered (h : row.Ordered) : (setStarted now row).Ordered := by
  intro started completed hstarted hcompleted
  have hcompleted : row.signupCompletedAt = some completed := hcompleted
  have hstarted : startedFill now row = some started := hstarted
  unfold startedFill at hstarted
  cases ha : row.signupStartedAt with
  | some a =>
    rw [ha] at hstarted
    obtain rfl : a = started := by simpa using hstarted
    exact h a completed ha hcompleted
  | none =>
    rw [ha, hcompleted] at hstarted
    obtain rfl : (if completed < now then completed else now) = started := by simpa using hstarted
    split <;> omega

/-- A completion that is filled in is not before the start that is there. -/
theorem setCompleted_ordered (h : row.Ordered) : (setCompleted now row).Ordered := by
  intro started completed hstarted hcompleted
  have hstarted : row.signupStartedAt = some started := hstarted
  have hcompleted : completedFill now row = some completed := hcompleted
  unfold completedFill at hcompleted
  cases hc : row.signupCompletedAt with
  | some c =>
    rw [hc] at hcompleted
    obtain rfl : c = completed := by simpa using hcompleted
    exact h started c hstarted hc
  | none =>
    rw [hc, hstarted] at hcompleted
    obtain rfl : (if started > now then started else now) = completed := by simpa using hcompleted
    split <;> omega

/-- Of two fills that see the old row, at most one has the other milestone to respect. -/
theorem fillBoth_ordered (h : row.Ordered) : AcquisitionTouch.Ordered { row with
      signupStartedAt := startedFill now row, signupCompletedAt := completedFill now row } := by
  intro started completed hstarted hcompleted
  have hstarted : startedFill now row = some started := hstarted
  have hcompleted : completedFill now row = some completed := hcompleted
  cases ha : row.signupStartedAt with
  | some a =>
    have hfill : a = started := by simpa [startedFill, ha] using hstarted
    exact setCompleted_ordered h started completed (ha.trans (congrArg some hfill)) hcompleted
  | none =>
    cases hc : row.signupCompletedAt with
    | some c =>
      have hfill : c = completed := by simpa [completedFill, hc] using hcompleted
      exact setStarted_ordered h started completed hstarted (hc.trans (congrArg some hfill))
    | none =>
      obtain rfl : now = started := by simpa [startedFill, ha, hc] using hstarted
      obtain rfl : now = completed := by simpa [completedFill, ha, hc] using hcompleted
      exact le_rfl

variable (evaluation : Evaluation)

theorem fill_kept (now : ℤ) (row : AcquisitionTouch) :
    row.Kept (acquisitionMilestoneFillUpdates evaluation now row) := by
  match evaluation with
  | .leftToRight true => exact (setStarted_kept now row).trans (setCompleted_kept now _)
  | .leftToRight false => exact (setCompleted_kept now row).trans (setStarted_kept now _)
  | .oldRow =>
    exact ⟨rfl, rfl, rfl, fun _ h => h, (setStarted_kept now row).started, (setCompleted_kept now row).completed⟩

theorem fill_ordered (h : row.Ordered) : (acquisitionMilestoneFillUpdates evaluation now row).Ordered := by
  match evaluation with
  | .leftToRight true => exact setCompleted_ordered (setStarted_ordered h)
  | .leftToRight false => exact setStarted_ordered (setCompleted_ordered h)
  | .oldRow => exact fillBoth_ordered h

@[simp] theorem setStarted_userId (now : ℤ) (row : AcquisitionTouch) : (setStarted now row).userId = row.userId := rfl

@[simp] theorem fill_userId (now : ℤ) (row : AcquisitionTouch) :
    (acquisitionMilestoneFillUpdates evaluation now row).userId = row.userId := by
  match evaluation with
  | .leftToRight true => rfl
  | .leftToRight false => rfl
  | .oldRow => rfl

end AcquisitionTouch

/-! ## One table -/

/-- The milestones are in order, and no user owns two touches. -/
structure Sound (touches : List AcquisitionTouch) : Prop where
  ordered : ∀ row ∈ touches, row.Ordered
  owners : ∀ row ∈ touches, ∀ row' ∈ touches, ∀ user, row.userId = some user → row'.userId = some user → row = row'

/-- Every touch is still there, with what it had. -/
def Extends (touches touches' : List AcquisitionTouch) : Prop :=
  ∀ row ∈ touches, ∃ row' ∈ touches', row.Kept row'

theorem Extends.refl (touches : List AcquisitionTouch) : Extends touches touches :=
  fun row hrow => ⟨row, hrow, .refl row⟩

theorem Extends.trans {touches touches' touches'' : List AcquisitionTouch} (h : Extends touches touches')
    (h' : Extends touches' touches'') : Extends touches touches'' := by
  intro row hrow
  obtain ⟨row', hrow', hkept⟩ := h row hrow
  obtain ⟨row'', hrow'', hkept'⟩ := h' row' hrow'
  exact ⟨row'', hrow'', hkept.trans hkept'⟩

section Update

variable {p : AcquisitionTouch → Bool} {f : AcquisitionTouch → AcquisitionTouch} {touches : List AcquisitionTouch}

theorem extends_updateWhere (hf : ∀ row, p row = true → row.Kept (f row)) :
    Extends touches (updateWhere p f touches) := by
  intro row hrow
  cases hp : p row with
  | true => exact ⟨f row, mem_updateWhere.mpr (.inl ⟨row, hrow, hp, rfl⟩), hf row hp⟩
  | false => exact ⟨row, mem_updateWhere.mpr (.inr ⟨hrow, hp⟩), .refl row⟩

theorem ordered_updateWhere (hf : ∀ row, row.Ordered → (f row).Ordered) (h : ∀ row ∈ touches, row.Ordered) :
    ∀ row ∈ updateWhere p f touches, row.Ordered := by
  intro row hrow
  rcases mem_updateWhere.mp hrow with ⟨old, hold, -, rfl⟩ | ⟨hrow, -⟩
  · exact hf old (h old hold)
  · exact h row hrow

theorem sound_updateWhere (hf : ∀ row, row.Ordered → (f row).Ordered) (huser : ∀ row, (f row).userId = row.userId)
    (h : Sound touches) : Sound (updateWhere p f touches) where
  ordered := ordered_updateWhere hf h.ordered
  owners := by
    intro row hrow row' hrow' user hu hu'
    obtain ⟨old, hold, rfl⟩ := List.mem_map.mp hrow
    obtain ⟨old', hold', rfl⟩ := List.mem_map.mp hrow'
    have hsame : ∀ r : AcquisitionTouch, (if p r = true then f r else r).userId = r.userId := by
      intro r
      split
      · exact huser r
      · rfl
    rw [hsame] at hu hu'
    rw [h.owners old hold old' hold' user hu hu']

end Update

variable {touches : List AcquisitionTouch}

/-- The first bind: nobody owns the user yet, and one row at most has the id. -/
theorem bindUser_sound {evaluation : Evaluation} {now : ℤ} {id : ℕ} {userID : ℤ}
    (hids : (touches.map AcquisitionTouch.id).Nodup) (h : Sound touches) :
    Sound (bindUser evaluation now id userID touches) := by
  unfold bindUser
  split
  · exact h
  · next hfree =>
    have hfree : ∀ row ∈ touches, row.userId ≠ some userID := by simpa using hfree
    have hone : ∀ row ∈ touches, ∀ row' ∈ touches, row.id = id → row'.id = id → row = row' :=
      fun row hrow row' hrow' hid hid' => List.inj_on_of_nodup_map hids hrow hrow' (hid.trans hid'.symm)
    constructor
    · exact ordered_updateWhere (fun row hrow => AcquisitionTouch.fill_ordered evaluation hrow) h.ordered
    · intro row hrow row' hrow' user hu hu'
      rcases mem_updateWhere.mp hrow with ⟨old, hold, hp, rfl⟩ | ⟨hrow, -⟩ <;>
        rcases mem_updateWhere.mp hrow' with ⟨old', hold', hp', rfl⟩ | ⟨hrow', -⟩
      · rw [hone old hold old' hold' (by simp_all) (by simp_all)]
      · obtain rfl : userID = user := by simpa using hu
        exact absurd hu' (hfree row' hrow')
      · obtain rfl : userID = user := by simpa using hu'
        exact absurd hu (hfree row hrow)
      · exact h.owners row hrow row' hrow' user hu hu'

theorem bindUser_extends (evaluation : Evaluation) (now : ℤ) (id : ℕ) (userID : ℤ) (touches : List AcquisitionTouch) :
    Extends touches (bindUser evaluation now id userID touches) := by
  unfold bindUser
  split
  · exact .refl touches
  · refine extends_updateWhere fun row hp => ?_
    have hfree : row.userId = none := by simp_all
    have hkept := AcquisitionTouch.fill_kept evaluation now row
    exact ⟨hkept.id, hkept.touchId, hkept.utm, fun user hu => by simp [hfree] at hu, hkept.started, hkept.completed⟩

/-! ## One statement -/

section Proceed

variable (evaluation : Evaluation) (now : ℤ) (call : Call) {touches : List AcquisitionTouch}

theorem proceed_extends (touches : List AcquisitionTouch) :
    Extends touches (proceed evaluation now call touches).1 := by
  cases call with
  | mark id =>
    refine extends_updateWhere fun row _ => ?_
    have hkept := AcquisitionTouch.setStarted_kept now row
    exact ⟨hkept.id, hkept.touchId, hkept.utm, hkept.userId, hkept.started, hkept.completed⟩
  | fill id =>
    refine extends_updateWhere fun row _ => ?_
    have hkept := AcquisitionTouch.fill_kept evaluation now row
    exact ⟨hkept.id, hkept.touchId, hkept.utm, hkept.userId, hkept.started, hkept.completed⟩
  | count id userID => exact .refl touches
  | bind id userID => exact bindUser_extends evaluation now id userID touches

theorem proceed_sound (hids : (touches.map AcquisitionTouch.id).Nodup) (h : Sound touches) :
    Sound (proceed evaluation now call touches).1 := by
  cases call with
  | mark id => exact sound_updateWhere (fun _ hrow => AcquisitionTouch.setStarted_ordered hrow) (fun _ => rfl) h
  | fill id =>
    exact sound_updateWhere (fun _ hrow => AcquisitionTouch.fill_ordered evaluation hrow)
      (fun row => AcquisitionTouch.fill_userId evaluation now row) h
  | count id userID => exact h
  | bind id userID => exact bindUser_sound hids h

theorem proceed_ids (touches : List AcquisitionTouch) :
    (proceed evaluation now call touches).1.map AcquisitionTouch.id = touches.map AcquisitionTouch.id := by
  cases call with
  | mark id => exact map_updateWhere fun _ => rfl
  | fill id => exact map_updateWhere fun row => (AcquisitionTouch.fill_kept evaluation now row).id
  | count id userID => rfl
  | bind id userID =>
    show (bindUser evaluation now id userID touches).map AcquisitionTouch.id = _
    unfold bindUser
    split
    · rfl
    · exact map_updateWhere fun row => (AcquisitionTouch.fill_kept evaluation now row).id

end Proceed

/-! ## Runs -/

/-- What holds in every state: ids are given out in order, and the table is sound. -/
structure Invariant (s : State) : Prop where
  ids : (s.touches.map AcquisitionTouch.id).Nodup
  below : ∀ row ∈ s.touches, row.id < s.nextId
  sound : Sound s.touches

theorem invariant_start : Invariant {} where
  ids := List.nodup_nil
  below := by simp
  sound := ⟨by simp, by simp⟩

theorem mem_of_owned {new row : AcquisitionTouch} {user : ℤ} (hnew : new.userId = none)
    (hrow : row ∈ touches ++ [new]) (hu : row.userId = some user) : row ∈ touches := by
  rcases List.mem_append.mp hrow with hrow | hrow
  · exact hrow
  · obtain rfl := List.mem_singleton.mp hrow
    rw [hnew] at hu
    cases hu

theorem create_invariant (touchID : String) (utm : AcquisitionUTMFields) (now : ℤ) {s : State} (h : Invariant s) :
    Invariant (createAcquisitionTouch touchID utm now s) := by
  unfold createAcquisitionTouch
  split
  · exact h
  · have hnew : s.nextId ∉ s.touches.map AcquisitionTouch.id := by
      intro hmem
      obtain ⟨row, hrow, hid⟩ := List.mem_map.mp hmem
      exact absurd (h.below row hrow) (by omega)
    refine ⟨?_, ?_, ?_, ?_⟩
    · rw [List.map_append]
      exact List.concat_eq_append ▸ h.ids.concat hnew
    · intro row hrow
      rcases List.mem_append.mp hrow with hrow | hrow
      · exact Nat.lt_succ_of_lt (h.below row hrow)
      · simp_all
    · intro row hrow
      rcases List.mem_append.mp hrow with hrow | hrow
      · exact h.sound.ordered row hrow
      · obtain rfl := List.mem_singleton.mp hrow
        intro started completed hstarted
        exact absurd hstarted (by simp)
    · intro row hrow row' hrow' user hu hu'
      exact h.sound.owners row (mem_of_owned rfl hrow hu) row' (mem_of_owned rfl hrow' hu') user hu hu'

theorem create_extends (touchID : String) (utm : AcquisitionUTMFields) (now : ℤ) (s : State) :
    Extends s.touches (createAcquisitionTouch touchID utm now s).touches := by
  unfold createAcquisitionTouch
  split
  · exact .refl s.touches
  · exact fun row hrow => ⟨row, List.mem_append_left _ hrow, .refl row⟩

theorem proceedAt_invariant (place : ℕ) (now : ℤ) (evaluation : Evaluation) {s : State} (h : Invariant s) :
    Invariant (proceedAt place now evaluation s) := by
  unfold proceedAt
  split
  · exact h
  · next call _ =>
    have hids := proceed_ids evaluation now call s.touches
    refine ⟨hids ▸ h.ids, fun row hrow => ?_, proceed_sound evaluation now call h.ids h.sound⟩
    have hmem : row.id ∈ s.touches.map AcquisitionTouch.id := hids ▸ List.mem_map_of_mem hrow
    obtain ⟨old, hold, hid⟩ := List.mem_map.mp hmem
    exact hid ▸ h.below old hold

theorem proceedAt_extends (place : ℕ) (now : ℤ) (evaluation : Evaluation) (s : State) :
    Extends s.touches (proceedAt place now evaluation s).touches := by
  unfold proceedAt
  split
  · exact .refl s.touches
  · exact proceed_extends evaluation now _ s.touches

theorem step_invariant (s : State) (action : Action) (h : Invariant s) : Invariant (step s action) := by
  cases action with
  | create touchID utm now => exact create_invariant touchID utm now h
  | mark touchID => exact ⟨h.ids, h.below, h.sound⟩
  | bind touchID userID => exact ⟨h.ids, h.below, h.sound⟩
  | proceed place now evaluation => exact proceedAt_invariant place now evaluation h

theorem step_extends (s : State) (action : Action) : Extends s.touches (step s action).touches := by
  cases action with
  | create touchID utm now => exact create_extends touchID utm now s
  | mark touchID => exact .refl s.touches
  | bind touchID userID => exact .refl s.touches
  | proceed place now evaluation => exact proceedAt_extends place now evaluation s

theorem run_extends (s : State) (actions : List Action) : Extends s.touches (run step s actions).touches :=
  run_invariant (I := fun s' => Extends s.touches s'.touches) (fun s' action h => h.trans (step_extends s' action))
    (.refl s.touches) actions

/-- **Write-once milestones.** In every state that is reached the milestones are in order and no user owns two touches,
and from there on a touch keeps its owner, its milestones and its fields. -/
theorem milestones_write_once (past future : List Action) :
    Sound (run step {} past).touches ∧
      Extends (run step {} past).touches (run step (run step {} past) future).touches :=
  ⟨(run_invariant step_invariant invariant_start past).sound, run_extends _ future⟩

end Vancine.Acquisition
